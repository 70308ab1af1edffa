import StudyAgent.Batch.CancelTables

/-!
# A cancel between its read and its end

What `cancel_batch` knows from the read of the steps to its last commit, whatever the other
sessions do, and why no step is claimed meanwhile.

Main results:

* `Reading.other`, `Reading.plan` — **what a cancel knows is left alone by other sessions,
  and kept by its own moves to the last one.**
* `claim_pending`, `not_claim_of_settled` — a claim is written before it is committed, and
  never over a settled step.
-/

namespace StudyAgent.Batch

open ReadCommitted
open Generation (RunStatus)

variable {n : ℕ}

/-! ## Runs -/

section Runs

variable {runs runs' : Store ℕ (GenerationRun n) Empty ℕ} {t u : ℕ}

/-- A run goes on, as a session sees it. -/
def GoesOn (runs : Store ℕ (GenerationRun n) Empty ℕ) (u run : ℕ) : Prop :=
  ∃ r ∈ runs.view u run, r.status = .running

/-- Runs are abandoned in transactions, never started in one that stays open. -/
structure RunsInv (runs : Store ℕ (GenerationRun n) Empty ℕ) : Prop where
  writes : runs.Writes fun _ old _ r => r.status ≠ .running ∧ old ≠ none

/-- What goes on for a session is committed. -/
theorem RunsInv.rows_of_view (h : RunsInv runs) {run : ℕ} {r : GenerationRun n}
    (hr : r ∈ runs.view u run) (hrunning : r.status = .running) : runs.rows run = some r := by
  rcases h.writes.view_cases u run with hview | ⟨r', hview, hnot, -⟩
  · rwa [← hview]
  · rw [hview] at hr
    cases hr
    exact absurd hrunning hnot

theorem RunsInv.known_of_view (h : RunsInv runs) {run : ℕ} (hknown : runs.view u run ≠ none) :
    runs.rows run ≠ none := by
  rcases h.writes.view_cases u run with hview | ⟨r', -, -, hold⟩
  · rwa [← hview]
  · exact hold

/-- A statement that starts no run. -/
structure Quiet (runs runs' : Store ℕ (GenerationRun n) Empty ℕ) (t : ℕ) : Prop where
  inv : RunsInv runs'
  known : ∀ run, runs'.rows run ≠ none → runs.rows run ≠ none
  rows : ∀ run, ∀ r ∈ runs'.rows run, r.status = .running → runs.rows run = some r
  view : ∀ u ≠ t, ∀ run, GoesOn runs' u run → GoesOn runs u run

theorem Quiet.refl (h : RunsInv runs) : Quiet runs runs t :=
  ⟨h, fun _ => id, fun _ _ hr _ => hr, fun _ _ _ => id⟩

theorem Quiet.commit (h : Quiet runs runs' t) : Quiet runs (runs'.commit t) t where
  inv := ⟨h.inv.writes.commit t⟩
  known := fun run hknown => h.known run (h.inv.known_of_view hknown)
  rows := fun run r hr hrunning => h.rows run r (h.inv.rows_of_view hr hrunning) hrunning
  view := by
    rintro u hne run ⟨r, hr, hrunning⟩
    refine h.view u hne run ⟨r, ?_, hrunning⟩
    rcases Store.view_commit hne run with ⟨-, hnew, hold⟩ | ⟨hsame, -⟩
    · rw [hnew] at hr
      exact hold.trans (h.inv.rows_of_view hr hrunning)
    · rwa [← hsame]

theorem quiet_rollback (h : RunsInv runs) : Quiet runs (runs.rollback t) t where
  inv := ⟨h.writes.rollback t⟩
  known := fun _ => id
  rows := fun _ _ hr _ => hr
  view := by
    rintro u hne run ⟨r, hr, hrunning⟩
    rw [Store.view_rollback hne] at hr
    exact ⟨r, hr, hrunning⟩

/-- A run is abandoned. -/
theorem quiet_abandon (h : RunsInv runs) {run : ℕ} {r : GenerationRun n}
    (hr : runs.view t run = some r) (hfree : runs.Free t run) :
    Quiet runs (runs.write t run { r with status := .abandoned }) t where
  inv := by
    refine ⟨h.writes.write ⟨nofun, h.known_of_view (u := t) ?_⟩⟩
    rw [hr]
    exact Option.some_ne_none r
  known := fun _ => id
  rows := fun _ _ hrow _ => hrow
  view := by
    rintro u hne run' ⟨r', hr', hrunning⟩
    rw [Store.view_write_other hfree hne] at hr'
    exact ⟨r', hr', hrunning⟩

/-- A run starts in a transaction of its own. -/
theorem insert_runsInv (h : RunsInv runs) {k : Fin n} {run : ℕ}
    (hinsert : runs.insert t run ⟨k, .running⟩ = some runs') :
    RunsInv (runs'.commit t) ∧
      ∀ run', (runs'.commit t).rows run' ≠ none → run' = run ∨ runs.rows run' ≠ none := by
  obtain ⟨hput, -⟩ := Store.Put.of_insert hinsert
  refine ⟨⟨fun run' u r hp => ?_⟩, fun run' hknown => ?_⟩
  · obtain ⟨hp, hne⟩ := Store.pending_commit.1 hp
    obtain ⟨hnot, hold⟩ := h.writes run' u r ((hput.others hne).1 hp)
    refine ⟨hnot, ?_⟩
    rw [Store.rows_commit, Store.view_of_other hp hne, hput.rows]
    exact hold
  · rcases runs'.view_cases t run' with ⟨r, hr, -⟩ | ⟨-, hview⟩
    · rcases hput.cases hr with honly | ⟨-, hold⟩
      · exact Or.inl (only_eq_some.1 honly).1
      · exact Or.inr (h.writes run' t r hold).2
    · right
      rw [Store.rows_commit, hview, hput.rows] at hknown
      exact hknown

end Runs

/-- What a statement writes to the runs: a new one, nothing, or the end of one. -/
theorem writeRuns_cases {w : World n} {t : ℕ} {owns : Bool} {answer : Answer}
    {session : Session n} {runs : Store ℕ (GenerationRun n) Empty ℕ}
    (h : w.writeRuns t owns answer session = some runs) :
    (∃ k run, starts answer session = some (k, run) ∧
      w.runs.insert t run ⟨k, .running⟩ = some runs) ∨
    (starts answer session = none ∧ runs = w.runs ∧
      ∀ run, abandons answer session = some run → owns = true → ¬ GoesOn w.runs t run) ∨
    (starts answer session = none ∧ ∃ run r, abandons answer session = some run ∧
      w.runs.view t run = some r ∧ w.runs.Free t run ∧
      runs = w.runs.write t run { r with status := .abandoned }) := by
  unfold World.writeRuns at h
  cases hstarts : starts answer session with
  | some p =>
    simp only [hstarts] at h
    exact Or.inl ⟨p.1, p.2, rfl, h⟩
  | none =>
    right
    cases habandons : abandons answer session with
    | none =>
      simp only [hstarts, habandons] at h
      exact Or.inl ⟨rfl, (Option.some.inj h).symm, fun run hrun => nomatch hrun⟩
    | some run =>
      simp only [hstarts, habandons] at h
      split_ifs at h with howns
      · rcases Store.update_cases h with ⟨rfl, hguard⟩ | ⟨r, hr, -, hfree, rfl⟩
        · refine Or.inl ⟨rfl, rfl, fun run' hrun' _ hgoes => ?_⟩
          cases hrun'
          obtain ⟨r, hr, hrunning⟩ := hgoes
          have hnot := hguard r hr
          rw [hrunning] at hnot
          exact absurd hnot (by decide)
        · exact Or.inr ⟨rfl, run, r, rfl, hr, hfree, rfl⟩
      · exact Or.inl ⟨rfl, (Option.some.inj h).symm, fun _ _ hyes => absurd hyes howns⟩

/-! ## What a cancel knows -/

/-- A cancel that has read the steps and has some of them left.  What it has not written
itself it has found settled, and a run that goes on is attached to a step that is left. -/
structure Reading (tb : Tables n) (runs : Store ℕ (GenerationRun n) Empty ℕ) (t : ℕ)
    (m : Memory n) (left : List (Fin n)) : Prop where
  batch : m.batch.now.status = .cancelled
  written : m.batch.loaded.status = .cancelled →
    ∀ row ∈ tb.batch.view t (), row.status = .cancelled
  copies : ∀ k, ∃ c ∈ m.steps k, (k ∉ left → c.now.status.isOpen = false) ∧
    (c.loaded.status.isOpen = false → ∀ row ∈ tb.steps.view t k, row.step.status.isOpen = false)
  runs : ∀ run, GoesOn runs t run → ∃ k ∈ left, ∃ c ∈ m.steps k,
    c.now.status = .running ∧ c.now.generationRunId = some run

section Reading

variable {tb tb' : Tables n} {runs runs' : Store ℕ (GenerationRun n) Empty ℕ} {t u : ℕ}
  {m : Memory n} {mv : Move n} {left : List (Fin n)} {k : Fin n}

/-- Settled steps stay settled. -/
theorem StepRecord.Keeps.settled {o r : StepRecord} (h : o.Keeps r)
    (ho : o.step.status.isOpen = false) : r.step.status.isOpen = false := by
  by_contra hopen
  rw [h (by simpa using hopen)] at ho
  cases ho

/-- The read of the steps. -/
theorem reading_of_read (hm : PhaseKnows m .cancelRead) (hinv : CancelInv tb)
    (hattached : ∀ run, GoesOn runs t run → ∃ k, ∃ row ∈ tb.steps.view t k,
      row.step.status = .running ∧ row.step.generationRunId = some run) :
    Reading tb runs t
      { m with steps := fun k => (tb.steps.view t k).map fun row => .fresh row.step }
      (List.finRange n) where
  batch := hm.1
  written := fun hloaded => absurd hloaded hm.2
  copies := by
    intro k
    obtain ⟨row, hrow⟩ := Option.ne_none_iff_exists'.1 (known_view hinv.stepsKnown t k)
    refine ⟨.fresh row.step, Option.mem_map.2 ⟨row, hrow, rfl⟩, ?_, ?_⟩
    · intro hnot
      exact absurd (List.mem_finRange k) hnot
    · intro hsettled row' hrow'
      obtain rfl := Option.some.inj (hrow.symm.trans hrow')
      exact hsettled
  runs := by
    intro run hgoes
    obtain ⟨k, row, hrow, hrunning, hid⟩ := hattached run hgoes
    exact ⟨k, List.mem_finRange k, .fresh row.step, Option.mem_map.2 ⟨row, hrow, rfl⟩,
      hrunning, hid⟩

/-- **What another session does leaves it true.** -/
theorem Reading.other (h : Reading tb runs u m left) (hne : u ≠ t) (hmoved : Moved tb tb' t mv)
    (hquiet : ∀ run, GoesOn runs' u run → GoesOn runs u run) : Reading tb' runs' u m left where
  batch := h.batch
  written := by
    intro hloaded row hrow
    obtain ⟨o, ho⟩ := Option.ne_none_iff_exists'.1 (known_view hmoved.before.batchKnown u ())
    exact hmoved.batch_view_keeps hne ho hrow (h.written hloaded o ho)
  copies := by
    intro k
    obtain ⟨c, hc, hnow, hloaded⟩ := h.copies k
    refine ⟨c, hc, hnow, fun hsettled row hrow => ?_⟩
    obtain ⟨o, ho⟩ := Option.ne_none_iff_exists'.1 (known_view hmoved.before.stepsKnown u k)
    exact (hmoved.step_view_keeps hne ho hrow).settled (hloaded hsettled o ho)
  runs := fun run hgoes => h.runs run (hquiet run hgoes)

/-- What a session reads behind its own flush. -/
theorem flush_views (h : tb.flush t m = some tb') (u : Unit) :
    tb'.batch.view t u = (tb.batchWrites t m u).or (tb.batch.view t u) ∧
      ∀ k, tb'.steps.view t k = (tb.stepWrites t m k).or (tb.steps.view t k) := by
  obtain ⟨-, -, rfl⟩ := flush_eq_some h
  exact ⟨Store.view_writeAll_self t u, fun k => Store.view_writeAll_self t k⟩

/-- Behind the flush the batch is cancelled. -/
theorem Reading.batch_flushed (h : Reading tb runs t m left) (hflush : tb.flush t m = some tb') :
    ∀ row ∈ tb'.batch.view t (), row.status = .cancelled := by
  intro row hrow
  rw [(flush_views hflush ()).1] at hrow
  cases hwrite : tb.batchWrites t m () with
  | none =>
    rw [hwrite, Option.none_or] at hrow
    refine h.written ?_ row hrow
    unfold Tables.batchWrites at hwrite
    split_ifs at hwrite with hdirty
    · rw [Option.mem_def.1 hrow] at hwrite
      cases hwrite
    · have hsame : m.batch.now = m.batch.loaded := by simpa [Copy.dirty] using hdirty
      rw [← hsame]
      exact h.batch
  | some row' =>
    rw [hwrite, Option.some_or] at hrow
    cases hrow
    obtain ⟨old, hold, rfl⟩ := mem_batchWrites hwrite
    by_cases hsame : m.batch.now.status = m.batch.loaded.status
    · have hstatus : (old.updated m.batch).status = old.status := if_pos hsame
      rw [hstatus]
      exact h.written (hsame.symm.trans h.batch) old hold
    · have hstatus : (old.updated m.batch).status = m.batch.now.status := if_neg hsame
      rw [hstatus]
      exact h.batch

/-- Behind the flush a step that is settled in memory is settled. -/
theorem step_flushed (hflush : tb.flush t m = some tb') {c : Copy BatchJobStep}
    (hc : c ∈ m.steps k) (hnow : c.now.status.isOpen = false)
    (hloaded : c.loaded.status.isOpen = false →
      ∀ row ∈ tb.steps.view t k, row.step.status.isOpen = false) :
    ∀ row ∈ tb'.steps.view t k, row.step.status.isOpen = false := by
  intro row hrow
  rw [(flush_views hflush ()).2 k] at hrow
  cases hwrite : tb.stepWrites t m k with
  | none =>
    rw [hwrite, Option.none_or] at hrow
    refine hloaded ?_ row hrow
    have hclean : c.dirty = false := by
      by_contra hdirty
      simp [Tables.stepWrites, Option.mem_def.1 hc, Option.mem_def.1 hrow, hdirty] at hwrite
    have hsame : c.now = c.loaded := by simpa [Copy.dirty] using hclean
    rwa [← hsame]
  | some row' =>
    rw [hwrite, Option.some_or] at hrow
    cases hrow
    obtain ⟨c', hc', old, hold, rfl⟩ := mem_stepWrites hwrite
    obtain rfl := Option.some.inj (hc.symm.trans hc')
    by_cases hsame : c.now.status = c.loaded.status
    · have hstatus : (old.updated c).step.status = old.step.status := if_pos hsame
      rw [hstatus]
      exact hloaded (hsame ▸ hnow) old hold
    · have hstatus : (old.updated c).step.status = c.now.status := if_neg hsame
      rwa [hstatus]

/-- **A flush writes what the cancel has assigned.** -/
theorem Reading.flushed (h : Reading tb runs t m left) (hflush : tb.flush t m = some tb')
    (hquiet : ∀ run, GoesOn runs' t run → GoesOn runs t run) :
    Reading tb' runs' t m.flushed left where
  batch := h.batch
  written := fun _ => h.batch_flushed hflush
  copies := by
    intro k
    obtain ⟨c, hc, hnow, hloaded⟩ := h.copies k
    refine ⟨.fresh c.now, Option.mem_map.2 ⟨c, hc, rfl⟩, hnow, fun hsettled => ?_⟩
    exact step_flushed hflush hc hsettled hloaded
  runs := by
    intro run hgoes
    obtain ⟨k, hk, c, hc, hrunning, hid⟩ := h.runs run (hquiet run hgoes)
    exact ⟨k, hk, .fresh c.now, Option.mem_map.2 ⟨c, hc, rfl⟩, hrunning, hid⟩

/-- What a session reads is not changed by its commit. -/
theorem Reading.committed (h : Reading tb runs t m left)
    (hquiet : ∀ run, GoesOn runs' t run → GoesOn runs t run) :
    Reading (tb.commit t) runs' t m left where
  batch := h.batch
  written := by
    show m.batch.loaded.status = .cancelled → ∀ row ∈ (tb.batch.commit t).view t (), _
    rw [Store.view_commit_self]
    exact h.written
  copies := by
    show ∀ k, ∃ c ∈ m.steps k, _ ∧ (_ → ∀ row ∈ (tb.steps.commit t).view t k, _)
    rw [Store.view_commit_self]
    exact h.copies
  runs := fun run hgoes => h.runs run (hquiet run hgoes)

/-- A step in memory is settled, and its run goes on no more. -/
theorem Reading.next (h : Reading tb runs t m (k :: left)) {f : BatchJobStep → BatchJobStep}
    (hf : ∀ c ∈ m.steps k, (f c.now).status.isOpen = false)
    {g : BatchJob → BatchJob} (hg : (g m.batch.now).status = m.batch.now.status)
    (hquiet : ∀ run, GoesOn runs' t run → GoesOn runs t run ∧
      ∀ c ∈ m.steps k, c.now.status = .running → c.now.generationRunId ≠ some run) :
    Reading tb runs' t ((m.setStep k f).setBatch g) left where
  batch := hg.trans h.batch
  written := h.written
  copies := by
    intro j
    obtain ⟨c, hc, hnow, hloaded⟩ := h.copies j
    by_cases hj : j = k
    · subst hj
      refine ⟨⟨c.loaded, f c.now⟩, ?_, fun _ => hf c hc, hloaded⟩
      show _ ∈ (m.setStep j f).steps j
      rw [setStep_steps, if_pos rfl]
      exact Option.mem_map.2 ⟨c, hc, rfl⟩
    · refine ⟨c, ?_, fun hnot => hnow ?_, hloaded⟩
      · show c ∈ (m.setStep k f).steps j
        rwa [setStep_steps, if_neg hj]
      · simp [hj, hnot]
  runs := by
    intro run hgoes
    obtain ⟨hbefore, hother⟩ := hquiet run hgoes
    obtain ⟨j, hj, c, hc, hrunning, hid⟩ := h.runs run hbefore
    rcases List.mem_cons.1 hj with rfl | hj
    · exact absurd hid (hother c hc hrunning)
    · by_cases hjk : j = k
      · subst hjk
        exact absurd hid (hother c hc hrunning)
      · refine ⟨j, hj, c, ?_, hrunning, hid⟩
        show c ∈ (m.setStep k f).steps j
        rwa [setStep_steps, if_neg hjk]

/-- A step that was settled before is passed over. -/
theorem Reading.skip (h : Reading tb runs t m (k :: left))
    (hsettled : ∀ c ∈ m.steps k, c.now.status.isOpen = false)
    (hquiet : ∀ run, GoesOn runs' t run → GoesOn runs t run) : Reading tb runs' t m left where
  batch := h.batch
  written := h.written
  copies := by
    intro j
    obtain ⟨c, hc, hnow, hloaded⟩ := h.copies j
    refine ⟨c, hc, fun hnot => ?_, hloaded⟩
    by_cases hj : j = k
    · subst hj
      exact hsettled c hc
    · exact hnow (by simp [hj, hnot])
  runs := by
    intro run hgoes
    obtain ⟨j, hj, c, hc, hrunning, hid⟩ := h.runs run (hquiet run hgoes)
    rcases List.mem_cons.1 hj with rfl | hj
    · have hopen := hsettled c hc
      rw [hrunning] at hopen
      cases hopen
    · exact ⟨j, hj, c, hc, hrunning, hid⟩

/-- How far a cancel has come that has read the steps. -/
def CancelPhase (left : List (Fin n)) : Phase n → Prop
  | .cancelling left' => left' = left
  | .closing => left = []
  | _ => False

/-- **A cancel goes on**: its next move keeps what it knows, or is the last one. -/
theorem Reading.plan {now : ℕ} {answer : Answer} {phase : Phase n}
    (h : Reading tb runs t m left) (hphase : CancelPhase left phase)
    (hplan : Batch.plan tb t now answer (.working m phase) = some mv)
    (hperform : perform tb t mv = some tb')
    (hquiet : ∀ run, GoesOn runs' t run → GoesOn runs t run)
    (habandoned : ∀ run, abandons answer (.working m phase) = some run → ¬ GoesOn runs' t run) :
    (∃ next left', mv.phase = some next ∧ CancelPhase left' next ∧
      Reading tb' runs' t mv.after left') ∨
    (mv.phase = none ∧ mv.effect = .commit ∧ Reading tb' runs' t m.flushed []) := by
  -- the two kinds of moves that write
  have hflush : ∀ next : Phase n, CancelPhase left next → mv = ⟨m, .flush, some next⟩ →
      ∃ next left', mv.phase = some next ∧ CancelPhase left' next ∧
        Reading tb' runs' t mv.after left' := by
    rintro next hnext rfl
    exact ⟨next, left, rfl, hnext, h.flushed hperform hquiet⟩
  have hcommit : ∀ {next : Option (Phase n)}, mv = ⟨m, .commit, next⟩ →
      Reading tb' runs' t m.flushed left := by
    rintro next rfl
    obtain ⟨tb'', hf, rfl⟩ := Option.map_eq_some_iff.1 hperform
    have hmid : Reading tb'' runs t m.flushed left := h.flushed hf fun _ => id
    exact hmid.committed hquiet
  -- the moves that only assign
  have hread : ∀ {m' : Memory n} {left'}, mv = ⟨m', .read, some (.cancelling left')⟩ →
      Reading tb runs' t m' left' →
      ∃ next left', mv.phase = some next ∧ CancelPhase left' next ∧
        Reading tb' runs' t mv.after left' := by
    rintro m' left' rfl hm'
    cases hperform
    exact ⟨_, left', rfl, rfl, hm'⟩
  cases phase with
  | closing =>
    cases hplan
    have hleft : left = [] := hphase
    subst hleft
    exact Or.inr ⟨rfl, rfl, hcommit rfl⟩
  | cancelling left' =>
    have hleft : left' = left := hphase
    subst hleft
    left
    cases left' with
    | nil =>
      cases hplan
      exact hflush .closing rfl rfl
    | cons k left =>
      obtain ⟨c, hc, hmv⟩ := Option.map_eq_some_iff.1 hplan
      have hcopy : ∀ c' ∈ m.steps k, c' = c := fun c' hc' => Option.some.inj (hc'.symm.trans hc)
      unfold planCancelling at hmv
      split at hmv
      · rename_i hrunning
        split at hmv
        · exact hflush (.cancelling (k :: left)) rfl hmv.symm
        · refine ⟨.cancelling (k :: left), k :: left, by rw [← hmv], rfl, ?_⟩
          rw [← hmv]
          exact hcommit hmv.symm
        · rename_i hreturned
          refine hread hmv.symm (h.next (fun _ _ => rfl) rfl fun run hgoes =>
            ⟨hquiet run hgoes, ?_⟩)
          intro c' hc' _ hid
          obtain rfl := hcopy c' hc'
          rw [hid, Option.isSome_some, if_pos rfl] at hreturned
          refine habandoned run ?_ hgoes
          simp [abandons, hc, hrunning, hreturned, hid]
      · rename_i hpending
        refine hread hmv.symm (h.next (fun _ _ => rfl) rfl fun run hgoes => ⟨hquiet run hgoes, ?_⟩)
        intro c' hc' hrunning
        obtain rfl := hcopy c' hc'
        rw [hpending] at hrunning
        cases hrunning
      · rename_i hnotRunning hnotPending
        refine hread hmv.symm (h.skip (fun c' hc' => ?_) hquiet)
        obtain rfl := hcopy c' hc'
        cases hstatus : c'.now.status with
        | pending => exact absurd hstatus hnotPending
        | running => exact absurd hstatus hnotRunning
        | completed => rfl
        | failed => rfl
        | skipped => rfl
  | _ => exact hphase.elim

end Reading

/-! ## Claims -/

section Claims

variable {tb tb' : Tables n} {t now : ℕ} {answer : Answer} {session : Session n} {mv : Move n}
  {k : Fin n}

/-- Only a claim leads to a claimed step. -/
theorem plan_claimed (h : Batch.plan tb t now answer session = some mv)
    (hphase : mv.phase = some (.claimed k)) :
    ∃ m, (session = .working m (.picked k) ∨ session = .working m (.cleared k)) ∧
      mv = ⟨m.claim k now, .flush, some (.claimed k)⟩ ∧ claims answer session = some k := by
  cases session with
  | opened request =>
    obtain ⟨row, -, rfl⟩ := Option.map_eq_some_iff.1 h
    cases request with
    | process =>
      simp only [planOpened] at hphase
      split_ifs at hphase <;> cases hphase
    | finalize j run => cases hphase
    | cancel =>
      simp only [planOpened] at hphase
      split_ifs at hphase <;> cases hphase
  | working m phase =>
    cases phase with
    | picked j =>
      cases h
      cases hverdict : verdict m.batch.now.policyMode answer.material with
      | claim =>
        rw [hverdict] at hphase
        cases hphase
        refine ⟨m, Or.inl rfl, rfl, ?_⟩
        rw [claims, if_pos hverdict]
      | skip =>
        rw [hverdict] at hphase
        cases hphase
      | block =>
        rw [hverdict] at hphase
        cases hphase
      | clear =>
        rw [hverdict] at hphase
        cases hphase
    | cleared j =>
      cases h
      cases hphase
      exact ⟨m, Or.inr rfl, rfl, rfl⟩
    | checking =>
      rw [Batch.plan, planWorking] at h
      split_ifs at h <;> cases h <;> cases hphase
    | picking =>
      rw [Batch.plan, planWorking] at h
      split at h
      · cases h
        cases hphase
      · obtain ⟨row, -, rfl⟩ := Option.map_eq_some_iff.1 h
        cases hphase
    | claimed j =>
      cases h
      unfold planClaimed at hphase
      split at hphase <;> cases hphase
    | started j run =>
      rw [Batch.plan, planWorking] at h
      split_ifs at h <;> cases h <;> cases hphase
    | finalizeRead j run =>
      obtain ⟨row, -, rfl⟩ := Option.map_eq_some_iff.1 h
      cases hphase
    | finalizing j run =>
      obtain ⟨c, -, rfl⟩ := Option.map_eq_some_iff.1 h
      split_ifs at hphase <;> cases hphase
    | settling more =>
      rw [Batch.plan, planWorking] at h
      split_ifs at h
      · cases h
        cases more <;> cases hphase
      · cases h
        cases hphase
    | completing more =>
      cases h
      cases more <;> cases hphase
    | reconciling =>
      rw [Batch.plan, planWorking] at h
      split at h
      · cases h
        cases hphase
      · obtain ⟨row, -, rfl⟩ := Option.map_eq_some_iff.1 h
        cases hphase
    | found j =>
      obtain ⟨c, -, rfl⟩ := Option.map_eq_some_iff.1 h
      unfold planFound at hphase
      split at hphase
      · split_ifs at hphase <;> cases hphase
      · cases hphase
    | cancelRead =>
      cases h
      cases hphase
    | cancelling left =>
      cases left with
      | nil =>
        cases h
        cases hphase
      | cons j left =>
        obtain ⟨c, -, rfl⟩ := Option.map_eq_some_iff.1 h
        unfold planCancelling at hphase
        split at hphase
        · split at hphase <;> cases hphase
        · cases hphase
        · cases hphase
    | closing =>
      cases h
      cases hphase

/-- A step that is about to be claimed is pending, and its copy says so. -/
theorem claim_copy {m : Memory n} (hknows : SessionKnows session)
    (hsession : session = .working m (.picked k) ∨ session = .working m (.cleared k)) :
    ∃ c ∈ m.steps k, c.now.status = .pending ∧ c.loaded.status = .pending := by
  rcases hsession with rfl | rfl
  · exact hknows.2
  · exact hknows.2

/-- The copy behind the claim. -/
theorem mem_claim {m : Memory n} {c : Copy BatchJobStep} (hc : c ∈ m.steps k) :
    ⟨c.loaded, { c.now with status := .running }⟩ ∈ (m.claim k now).steps k := by
  rw [claim_steps, setStep_steps, if_pos rfl]
  exact Option.mem_map.2 ⟨c, hc, rfl⟩

/-- **A claim is written, and not committed yet.** -/
theorem claim_pending (hinv : CancelInv tb) (hknows : SessionKnows session)
    (h : Batch.plan tb t now answer session = some mv) (hphase : mv.phase = some (.claimed k))
    (hperform : perform tb t mv = some tb') :
    ∃ r, tb'.steps.pending k = some (t, r) ∧ r.step.status = .running := by
  obtain ⟨m, hsession, rfl, -⟩ := plan_claimed h hphase
  obtain ⟨c, hc, -, hloaded⟩ := claim_copy hknows hsession
  obtain ⟨-, -, rfl⟩ := flush_eq_some (show tb.flush t (m.claim k now) = some tb' from hperform)
  obtain ⟨row, hrow⟩ := Option.ne_none_iff_exists'.1 (known_view hinv.stepsKnown t k)
  have hne : StepStatus.running ≠ c.loaded.status := by
    rw [hloaded]
    decide
  have hdirty : Copy.dirty (R := BatchJobStep) ⟨c.loaded, { c.now with status := .running }⟩ =
      true := by
    simp only [Copy.dirty, decide_eq_true_eq]
    exact fun heq => hne (congrArg BatchJobStep.status heq)
  have hwrite : tb.stepWrites t (m.claim k now) k =
      some (row.updated ⟨c.loaded, { c.now with status := .running }⟩) := by
    simp [Tables.stepWrites, Option.mem_def.1 (mem_claim hc), hdirty, hrow]
  have hstatus : (row.updated ⟨c.loaded, { c.now with status := .running }⟩).step.status =
      .running := if_neg hne
  refine ⟨_, ?_, hstatus⟩
  show ((tb.stepWrites t (m.claim k now) k).map (Prod.mk t)).or (tb.steps.pending k) = _
  rw [hwrite]
  rfl

/-- **A settled step is not claimed.** -/
theorem not_claim_of_settled (hinv : CancelInv tb) (hknows : SessionKnows session)
    (h : Batch.plan tb t now answer session = some mv) (hphase : mv.phase = some (.claimed k))
    (hcurrent : mv.effect.flushes = true → StatusesCurrent tb t mv.memory)
    (hsettled : ∀ row ∈ tb.steps.rows k, row.step.status.isOpen = false) : False := by
  obtain ⟨m, hsession, rfl, -⟩ := plan_claimed h hphase
  obtain ⟨c, hc, -, hloaded⟩ := claim_copy hknows hsession
  obtain ⟨row, hrow⟩ := Option.ne_none_iff_exists'.1 (known_view hinv.stepsKnown t k)
  obtain ⟨old, hold⟩ := Option.ne_none_iff_exists'.1 (hinv.stepsKnown k)
  have hne : StepStatus.running ≠ c.loaded.status := by
    rw [hloaded]
    decide
  have hstatus : row.step.status = c.loaded.status :=
    (hcurrent rfl).2 k _ (mem_claim hc) hne rfl row hrow
  have hkeeps : old.Keeps row := hinv.steps.rel_view (fun _ => id) hold hrow
  have hopen := hkeeps (by rw [hstatus, hloaded]; rfl)
  rw [hsettled old hold] at hopen
  cases hopen

/-- A run starts behind a claim, in a commit. -/
theorem plan_starts {run : ℕ} (h : Batch.plan tb t now answer session = some mv)
    (hstarts : starts answer session = some (k, run)) :
    ∃ m, session = .working m (.claimed k) ∧ mv = ⟨m, .commit, some (.started k run)⟩ := by
  unfold starts at hstarts
  split at hstarts
  · rename_i m j
    split at hstarts
    · rename_i run' hstart
      cases hstarts
      cases h
      exact ⟨m, rfl, by rw [hstart]; rfl⟩
    · cases hstarts
  · cases hstarts

end Claims

end StudyAgent.Batch
