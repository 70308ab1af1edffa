import StudyAgent.Batch.Memory
import Mathlib.Algebra.BigOperators.Ring.Finset
import Mathlib.Data.Fintype.Card

/-!
# Batch counters equal the steps

The counters of the batch are written from a copy.  Two sessions that overlap can lose a
count, or count one step twice.  Where every flush finds the counters that it writes as
they were loaded, and the steps that it writes still open, neither happens.

Main results:

* `flush_ok`, `commit_ok` — what the tables keep, in the view of every session.
* `counters_match` — **then the counters equal the steps in every state reached.**
-/

namespace StudyAgent.Batch

open ReadCommitted
open Generation (RunStatus)

variable {n : ℕ}

/-! ## Counting -/

/-- The steps with a committed status. -/
def Tables.count (tb : Tables n) (status : StepStatus) : ℕ :=
  (Finset.univ.filter fun k => statusIn [status] (tb.steps.rows k) = true).card

/-- The counters equal the steps, and the total equals all of them. -/
def CountersMatch (tb : Tables n) : Prop :=
  ∃ batch ∈ tb.batch.rows (),
    batch.completedSteps = tb.count .completed ∧ batch.failedSteps = tb.count .failed ∧
      batch.skippedSteps = tb.count .skipped ∧
      batch.totalSteps = batch.completedSteps + batch.failedSteps + batch.skippedSteps +
        tb.count .pending + tb.count .running

instance (tb : Tables n) : Decidable (CountersMatch tb) :=
  inferInstanceAs (Decidable (∃ batch ∈ tb.batch.rows (), _))

def batchCount (outcome : Outcome) (row : Option BatchJob) : ℤ :=
  row.elim 0 fun batch => batch.counter outcome

def stepCount (outcome : Outcome) (row : Option StepRecord) : ℤ :=
  row.elim 0 fun r => counted outcome r.step.status

/-- Rows, committed or as a session sees them, whose counters are right. -/
structure RowsOk (batch : Unit → Option BatchJob) (steps : Fin n → Option StepRecord) : Prop where
  total : ∃ row, batch () = some row ∧ row.totalSteps = n
  known : ∀ k, steps k ≠ none
  balanced : ∀ outcome, ∑ u, batchCount outcome (batch u) = ∑ k, stepCount outcome (steps k)

/-- The counters are right for everybody. -/
structure TablesOk (tb : Tables n) : Prop where
  rows : RowsOk tb.batch.rows tb.steps.rows
  views : ∀ t, RowsOk (tb.batch.view t) (tb.steps.view t)

/-! ## The condition -/

/-- The counters to be written are as they were loaded, and the steps to be written are open. -/
def Current (tb : Tables n) (t : ℕ) (m : Memory n) : Prop :=
  (∀ row ∈ tb.batch.view t (), ∀ outcome, m.batch.now.counter outcome ≠
      m.batch.loaded.counter outcome → row.counter outcome = m.batch.loaded.counter outcome) ∧
    ∀ k, ∀ c ∈ m.steps k, c.now.status ≠ c.loaded.status →
      ∀ row ∈ tb.steps.view t k, row.step.status.isOpen = true

instance (tb : Tables n) (t : ℕ) (m : Memory n) : Decidable (Current tb t m) :=
  inferInstanceAs (Decidable ((∀ row ∈ tb.batch.view t (), _) ∧ ∀ k, ∀ c ∈ m.steps k, _ → _))

/-- A flush finds what it writes as the session knows it. -/
def WritesCurrent (s : System n) (i : ℕ × Action n) : Prop :=
  match s.sessions i.1, i.2 with
  | some session, .next now answer =>
    ∀ mv ∈ plan s.tables i.1 now answer session, mv.effect.flushes = true →
      Current s.tables i.1 mv.memory
  | _, _ => True

instance (s : System n) (i : ℕ × Action n) : Decidable (WritesCurrent s i) := by
  dsimp only [WritesCurrent]
  split <;> infer_instance

/-! ## One flush -/

section Flush

variable {tb tb' : Tables n} {t : ℕ} {m : Memory n}

theorem counter_updated (row : BatchJob) (c : Copy BatchJob) (outcome : Outcome) :
    (row.updated c).counter outcome =
      column (c.loaded.counter outcome) (c.now.counter outcome) (row.counter outcome) := by
  cases outcome <;> rfl

/-- The counters that a session sees move by what it has assigned. -/
theorem batchCount_flush (hcurrent : Current tb t m) {row : BatchJob}
    (hrow : tb.batch.view t () = some row) (outcome : Outcome) :
    batchCount outcome ((tb.batchWrites t m ()).or (tb.batch.view t ())) =
      batchCount outcome (tb.batch.view t ()) +
        ((m.batch.now.counter outcome : ℤ) - m.batch.loaded.counter outcome) := by
  unfold Tables.batchWrites
  rw [hrow]
  cases hdirty : m.batch.dirty with
  | false =>
    have hsame : m.batch.now = m.batch.loaded := by simpa [Copy.dirty] using hdirty
    simp [hsame]
  | true =>
    show ((row.updated m.batch).counter outcome : ℤ) = (row.counter outcome : ℤ) + _
    rw [counter_updated, column]
    split_ifs with hsame
    · rw [hsame, sub_self, add_zero]
    · rw [hcurrent.1 row hrow outcome hsame]
      omega

/-- The steps that a session sees move by the gain of their copies. -/
theorem stepCount_flush (hm : m.Ok) (hcurrent : Current tb t m) {k : Fin n}
    (hknown : tb.steps.view t k ≠ none) (outcome : Outcome) :
    stepCount outcome ((tb.stepWrites t m k).or (tb.steps.view t k)) =
      stepCount outcome (tb.steps.view t k) + gain outcome (m.steps k) := by
  obtain ⟨row, hrow⟩ := Option.ne_none_iff_exists'.1 hknown
  unfold Tables.stepWrites
  rw [hrow]
  cases hk : m.steps k with
  | none => exact (add_zero _).symm
  | some c =>
    cases hdirty : c.dirty with
    | false =>
      have hsame : c.now = c.loaded := by simpa [Copy.dirty] using hdirty
      have hgain : gain outcome (some c) = 0 := gain_of_same (fun c' hc' => by
        cases hc'
        exact congrArg _ hsame) outcome
      rw [hgain, add_zero]
      simp [hdirty]
    | true =>
      have hwrite : ((some c).bind fun c => if c.dirty = true then
          (some row).map fun row => row.updated c else none) = some (row.updated c) := by
        simp [hdirty]
      rw [hwrite]
      show counted outcome (column c.loaded.status c.now.status row.step.status) =
        counted outcome row.step.status +
          (counted outcome c.now.status - counted outcome c.loaded.status)
      rw [column]
      split_ifs with hsame
      · rw [hsame, sub_self, add_zero]
      · -- the row and the copy are both of a step that no counter counts
        rw [counted_of_open (hcurrent.2 k c hk hsame row hrow),
          counted_of_open (hm.opened c hk hsame)]
        omega

theorem flush_eq_some (h : tb.flush t m = some tb') :
    (∀ u, tb.batchWrites t m u ≠ none → tb.batch.Free t u) ∧
      (∀ k, tb.stepWrites t m k ≠ none → tb.steps.Free t k) ∧
      tb' = ⟨tb.batch.writeAll t (tb.batchWrites t m),
        tb.steps.writeAll t (tb.stepWrites t m)⟩ := by
  unfold Tables.flush at h
  split_ifs at h with hfree
  exact ⟨hfree.1, hfree.2, (Option.some.inj h).symm⟩

/-- A flush keeps the total, whatever it writes. -/
theorem total_flush {row : BatchJob} (hrow : tb.batch.view t () = some row) :
    ∃ row', (tb.batchWrites t m ()).or (tb.batch.view t ()) = some row' ∧
      row'.totalSteps = row.totalSteps := by
  unfold Tables.batchWrites
  rw [hrow]
  split_ifs
  · exact ⟨row.updated m.batch, rfl, rfl⟩
  · exact ⟨row, rfl, rfl⟩

/-- **A flush of current values keeps the counters right**, for the session that flushes
and, since nobody sees it, for all others. -/
theorem flush_ok (htb : TablesOk tb) (hm : m.Ok) (hcurrent : Current tb t m)
    (h : tb.flush t m = some tb') : TablesOk tb' := by
  obtain ⟨hbatch, hsteps, rfl⟩ := flush_eq_some h
  have hframe := Store.frame_writeAll hbatch
  have hframe' := Store.frame_writeAll hsteps
  refine ⟨htb.rows, fun u => ?_⟩
  by_cases hu : u = t
  · subst hu
    obtain ⟨⟨row, hrow, htotal⟩, hknown, hbalanced⟩ := htb.views u
    refine ⟨?_, fun k => ?_, fun outcome => ?_⟩
    · obtain ⟨row', hrow', htotal'⟩ := total_flush hrow
      exact ⟨row', by rw [Store.view_writeAll_self, hrow'], htotal'.trans htotal⟩
    · show (tb.steps.writeAll u (tb.stepWrites u m)).view u k ≠ none
      rw [Store.view_writeAll_self]
      intro hnone
      exact hknown k (Option.or_eq_none_iff.1 hnone).2
    · have hleft := hbalanced outcome
      simp only [Finset.univ_unique, Finset.sum_singleton] at hleft ⊢
      show batchCount outcome ((tb.batch.writeAll u (tb.batchWrites u m)).view u ()) =
        ∑ k, stepCount outcome ((tb.steps.writeAll u (tb.stepWrites u m)).view u k)
      have hterm : ∀ k, stepCount outcome ((tb.steps.writeAll u (tb.stepWrites u m)).view u k) =
          stepCount outcome (tb.steps.view u k) + gain outcome (m.steps k) := fun k => by
        rw [Store.view_writeAll_self, stepCount_flush hm hcurrent (hknown k)]
      rw [Store.view_writeAll_self, batchCount_flush hcurrent hrow,
        Finset.sum_congr rfl fun k _ => hterm k, Finset.sum_add_distrib, hm.balanced outcome]
      exact congrArg (· + _) hleft
  · rw [hframe.view hu, hframe'.view hu]
    exact htb.views u

end Flush

/-! ## The ends of a transaction -/

section End

variable {tb tb' : Tables n} {t : ℕ}

/-- **A commit keeps the counters right for everybody**: both sides of the balance grow by
what the session has added to the committed rows. -/
theorem commit_ok (htb : TablesOk tb) : TablesOk (tb.commit t) := by
  refine ⟨htb.views t, fun u => ?_⟩
  by_cases hu : u = t
  · subst hu
    show RowsOk ((tb.batch.commit u).view u) ((tb.steps.commit u).view u)
    rw [Store.view_commit_self, Store.view_commit_self]
    exact htb.views u
  · refine ⟨?_, fun k => ?_, fun outcome => ?_⟩
    · show ∃ row, (tb.batch.commit t).view u () = some row ∧ _
      rcases Store.view_commit hu () with ⟨-, hnew, -⟩ | ⟨hsame, -⟩
      · rw [hnew]
        exact (htb.views t).total
      · rw [hsame]
        exact (htb.views u).total
    · show (tb.steps.commit t).view u k ≠ none
      rcases Store.view_commit hu k with ⟨-, hnew, -⟩ | ⟨hsame, -⟩
      · rw [hnew]
        exact (htb.views t).known k
      · rw [hsame]
        exact (htb.views u).known k
    · have hbatch := @Store.sum_view_commit _ _ _ _ _ tb.batch _ t u hu (batchCount outcome)
      have hsteps := @Store.sum_view_commit _ _ _ _ _ tb.steps _ t u hu (stepCount outcome)
      have hrows := htb.rows.balanced outcome
      have hself := (htb.views t).balanced outcome
      have hother := (htb.views u).balanced outcome
      show ∑ v, batchCount outcome ((tb.batch.commit t).view u v) =
        ∑ k, stepCount outcome ((tb.steps.commit t).view u k)
      omega

theorem rollback_ok (htb : TablesOk tb) : TablesOk (tb.rollback t) := by
  refine ⟨htb.rows, fun u => ?_⟩
  show RowsOk ((tb.batch.rollback t).view u) ((tb.steps.rollback t).view u)
  by_cases hu : u = t
  · subst hu
    rw [Store.view_rollback_self, Store.view_rollback_self]
    exact htb.rows
  · have hbatch : (tb.batch.rollback t).view u = tb.batch.view u :=
      funext fun k => Store.view_rollback hu k
    have hsteps : (tb.steps.rollback t).view u = tb.steps.view u :=
      funext fun k => Store.view_rollback hu k
    rw [hbatch, hsteps]
    exact htb.views u

theorem lock_ok (htb : TablesOk tb) {k : Fin n} {steps : Store (Fin n) StepRecord Empty ℕ}
    (h : tb.steps.update t k (fun _ => true) id = some steps) :
    TablesOk { tb with steps := steps } := by
  rcases Store.update_cases h with ⟨rfl, -⟩ | ⟨row, hrow, -, hfree, rfl⟩
  · exact htb
  · have hview : ∀ u, (tb.steps.write t k row).view u = tb.steps.view u := fun u => by
      by_cases hu : u = t
      · subst hu
        funext j
        rw [Store.view_write_self]
        split_ifs with hj
        · rw [hj, hrow]
        · rfl
      · exact funext fun j => Store.view_write_other hfree hu row j
    refine ⟨htb.rows, fun u => ?_⟩
    show RowsOk (tb.batch.view u) ((tb.steps.write t k row).view u)
    rw [hview]
    exact htb.views u

end End

/-! ## Runs -/

theorem perform_ok {tb tb' : Tables n} {t : ℕ} {mv : Move n} (htb : TablesOk tb)
    (hm : mv.memory.Ok) (hcurrent : mv.effect.flushes = true → Current tb t mv.memory)
    (h : perform tb t mv = some tb') : TablesOk tb' := by
  refine perform_keeps htb (fun k steps hsteps => lock_ok htb hsteps)
    (fun hflushes tb'' hflush => ?_)
    (fun tb'' hok => commit_ok hok) h
  exact flush_ok htb hm (hcurrent hflushes) hflush

theorem created_tablesOk {s : System n} (h : Created s) : TablesOk s.tables := by
  obtain ⟨mode, rfl⟩ := h
  have hrows : RowsOk (System.initial n mode).tables.batch.rows
      (System.initial n mode).tables.steps.rows := by
    refine ⟨⟨_, rfl, rfl⟩, fun k => Option.some_ne_none _, fun outcome => ?_⟩
    cases outcome <;> rw [Finset.univ_unique, Finset.sum_singleton] <;>
      exact (Finset.sum_eq_zero fun k _ => rfl).symm
  exact ⟨hrows, fun t => hrows⟩

/-- **One step keeps the counters right**, if it writes current values only. -/
theorem step_tablesOk {s s' : System n} {i : ℕ × Action n} (hsessions : SessionsOk s)
    (htb : TablesOk s.tables) (hallowed : WritesCurrent s i) (h : step s i = some s') :
    TablesOk s'.tables := by
  obtain ⟨t, a⟩ := i
  rcases step_cases h with ⟨request, -, -, rfl⟩ |
    ⟨session, now, answer, mv, tb, rfl, hsession, hplan, hperform, rfl⟩ | ⟨-, rfl⟩
  · exact htb
  · unfold WritesCurrent at hallowed
    simp only [hsession] at hallowed
    exact perform_ok htb (plan_ok (hsessions t session hsession) hplan).memory
      (hallowed mv hplan) hperform
  · exact rollback_ok htb

/-- The committed steps with an outcome are what the balance counts. -/
theorem sum_stepCount (tb : Tables n) (outcome : Outcome) :
    ∑ k, stepCount outcome (tb.steps.rows k) = tb.count outcome.status := by
  unfold Tables.count
  rw [Finset.card_filter, Nat.cast_sum]
  refine Finset.sum_congr rfl fun k _ => ?_
  cases hk : tb.steps.rows k with
  | none => simp [stepCount, statusIn]
  | some row => simp [stepCount, statusIn, counted]

/-- Every step has one of the five statuses. -/
theorem count_total {tb : Tables n} (hknown : ∀ k, tb.steps.rows k ≠ none) :
    tb.count .completed + tb.count .failed + tb.count .skipped + tb.count .pending +
      tb.count .running = n := by
  have hone : ∀ k, (if statusIn [.completed] (tb.steps.rows k) = true then 1 else 0) +
      (if statusIn [.failed] (tb.steps.rows k) = true then 1 else 0) +
      (if statusIn [.skipped] (tb.steps.rows k) = true then 1 else 0) +
      (if statusIn [.pending] (tb.steps.rows k) = true then 1 else 0) +
      (if statusIn [.running] (tb.steps.rows k) = true then 1 else 0) = 1 := fun k => by
    obtain ⟨row, hrow⟩ := Option.ne_none_iff_exists'.1 (hknown k)
    rw [hrow]
    cases hstatus : row.step.status <;> simp [statusIn, hstatus]
  unfold Tables.count
  rw [Finset.card_filter, Finset.card_filter, Finset.card_filter, Finset.card_filter,
    Finset.card_filter, ← Finset.sum_add_distrib, ← Finset.sum_add_distrib,
    ← Finset.sum_add_distrib, ← Finset.sum_add_distrib, Finset.sum_congr rfl fun k _ => hone k,
    ← Finset.card_eq_sum_ones, Finset.card_fin]

theorem TablesOk.countersMatch {tb : Tables n} (h : TablesOk tb) : CountersMatch tb := by
  obtain ⟨⟨batch, hbatch, htotal⟩, hknown, hbalanced⟩ := h.rows
  have hcounter : ∀ outcome, batch.counter outcome = tb.count outcome.status := fun outcome => by
    have hb := hbalanced outcome
    rw [sum_stepCount, Finset.univ_unique, Finset.sum_singleton] at hb
    have hcount : batchCount outcome (tb.batch.rows default) = batch.counter outcome := by
      show batchCount outcome (tb.batch.rows ()) = _
      rw [hbatch]
      rfl
    rw [hcount] at hb
    exact_mod_cast hb
  have hcompleted : batch.completedSteps = tb.count .completed := hcounter .completed
  have hfailed : batch.failedSteps = tb.count .failed := hcounter .failed
  have hskipped : batch.skippedSteps = tb.count .skipped := hcounter .skipped
  refine ⟨batch, hbatch, hcompleted, hfailed, hskipped, ?_⟩
  have hsum := count_total hknown
  omega

/-- **Where every flush finds the counters that it writes as they were loaded and the steps
that it writes still open, the counters of the batch equal its steps.** -/
theorem counters_match {s : System n} (hs : Runs.Reachable step WritesCurrent Created s) :
    CountersMatch s.tables := by
  refine TablesOk.countersMatch (@Runs.Reachable.invariant _ _ _ _ _
    (fun s => SessionsOk s ∧ TablesOk s.tables) _ hs ?_ ?_).2
  · exact fun s h => ⟨created_sessionsOk h, created_tablesOk h⟩
  · rintro s i s' ⟨hsessions, htb⟩ hallowed hstep
    exact ⟨step_sessionsOk hsessions hstep, step_tablesOk hsessions htb hallowed hstep⟩

/-- Statements of one session that learn nothing from outside. -/
def statements (t count : ℕ) : List (ℕ × Action n) := List.replicate count (t, .next t {})

/-- A worker claims a step, starts a run for it and attaches the run. -/
def claimedStep (t run : ℕ) : List (ℕ × Action n) :=
  [(t, .start .process)] ++ statements t 4 ++ [(t, .next t { start := .started run })] ++
    statements t 2

/-- A step is claimed and completed, and the batch is cancelled. -/
def cancelledSystem : System 2 :=
  (Runs.run (fun s i => if WritesCurrent s i then step s i else none)
    (System.initial 2 .skipExisting) (claimedStep 0 5 ++
      [(1, .start (.finalize 0 (some .completed)))] ++ statements 1 5 ++
      [(2, .start .cancel)] ++ statements 2 6)).get (by decide)

/-- One step is completed and one skipped. -/
theorem cancelled_counters_match : CountersMatch cancelledSystem.tables ∧
    cancelledSystem.tables.count .completed = 1 ∧ cancelledSystem.tables.count .skipped = 1 :=
  ⟨counters_match (Runs.reachable_of_checked ⟨_, rfl⟩ (Option.some_get _).symm), by decide,
    by decide⟩

/-! ### A step that is finalized and cancelled at once -/

/-- The cancel reads the running step, and counts it behind the finalize. -/
def countedTwiceSystem : System 1 :=
  (Runs.run step (System.initial 1 .skipExisting) (claimedStep 0 5 ++
    [(1, .start (.finalize 0 (some .completed))), (2, .start .cancel)] ++ statements 1 2 ++
    statements 2 3 ++ statements 1 4 ++ statements 2 2)).get (by decide)

/-- The one step is counted as completed and as failed. -/
theorem counted_twice :
    Runs.Reachable step (fun _ _ => True) Created countedTwiceSystem ∧
      ¬ CountersMatch countedTwiceSystem.tables :=
  ⟨Runs.reachable_of_run ⟨_, rfl⟩ (Option.some_get _).symm, by decide⟩

end StudyAgent.Batch
