import StudyAgent.Batch.Cancelling

/-!
# What a cancelled batch keeps

A flush that replaces the statuses that its session has read neither takes a cancellation
back nor opens a step that was settled.

Main results:

* `plan_knows` — what a session knows of the statuses that it assigns.
* `perform_cancelInv` — what every move keeps.
* `Moved.batch_keeps`, `Moved.step_view_keeps` — a cancelled batch stays cancelled and a
  settled step settled, as committed and as the other sessions see them.
-/

namespace StudyAgent.Batch

open ReadCommitted
open Generation (RunStatus)

variable {n : ℕ}

/-! ## Memory -/

/-- A session assigns a status to a batch that it has read as one that goes on. -/
def Memory.BatchOk (m : Memory n) : Prop :=
  m.batch.now.status ≠ m.batch.loaded.status → m.batch.loaded.status ∉ TERMINAL_BATCH_STATUSES

/-- What a session that claims or cancels knows besides. -/
def PhaseKnows (m : Memory n) : Phase n → Prop
  | .picked k | .cleared k =>
    ∃ c ∈ m.steps k, c.now.status = .pending ∧ c.loaded.status = .pending
  | .cancelRead => m.batch.now.status = .cancelled ∧ m.batch.loaded.status ≠ .cancelled
  | _ => True

/-- What holds of a session besides `SessionOk`. -/
def SessionKnows : Session n → Prop
  | .opened _ => True
  | .working m phase => m.BatchOk ∧ PhaseKnows m phase

structure MoveKnows (mv : Move n) : Prop where
  memory : mv.memory.BatchOk
  after : mv.after.BatchOk
  phase : ∀ phase ∈ mv.phase, PhaseKnows mv.after phase

section Knows

variable {m : Memory n} {phase : Phase n} {effect : Effect n}

theorem flushed_batchOk (m : Memory n) : m.flushed.BatchOk := fun hne => absurd rfl hne

theorem MoveKnows.keep (heffect : effect.flushes = false) (hm : m.BatchOk)
    (hphase : PhaseKnows m phase) : MoveKnows ⟨m, effect, some phase⟩ := by
  have hafter : Move.after ⟨m, effect, some phase⟩ = m := if_neg (by simp [heffect])
  refine ⟨hm, by rwa [hafter], fun p hp => ?_⟩
  cases hp
  rwa [hafter]

theorem MoveKnows.write (heffect : effect.flushes = true) (hm : m.BatchOk) {next : Option (Phase n)}
    (hphase : ∀ phase ∈ next, PhaseKnows m.flushed phase) : MoveKnows ⟨m, effect, next⟩ := by
  have hafter : Move.after ⟨m, effect, next⟩ = m.flushed := if_pos heffect
  refine ⟨hm, ?_, ?_⟩
  · rw [hafter]
    exact flushed_batchOk m
  · rwa [hafter]

theorem MoveKnows.flush (heffect : effect.flushes = true) (hm : m.BatchOk)
    (hphase : PhaseKnows m.flushed phase) : MoveKnows ⟨m, effect, some phase⟩ := by
  refine .write heffect hm fun p hp => ?_
  cases hp
  exact hphase

/-- Assignments that leave the status of the batch alone. -/
theorem setBatch_batchOk {g : BatchJob → BatchJob} (hm : m.BatchOk)
    (hg : (g m.batch.now).status = m.batch.now.status) : (m.setBatch g).BatchOk := by
  intro hne
  exact hm fun heq => hne (hg.trans heq)

/-- Assignments to a batch that goes on, as it stands in memory. -/
theorem setBatch_batchOk_of_running {g : BatchJob → BatchJob} (hm : m.BatchOk)
    (hgoes : m.batch.now.status ∉ TERMINAL_BATCH_STATUSES) : (m.setBatch g).BatchOk := by
  intro _
  show m.batch.loaded.status ∉ TERMINAL_BATCH_STATUSES
  by_cases hsame : m.batch.now.status = m.batch.loaded.status
  · rwa [← hsame]
  · exact hm hsame

theorem setStep_batchOk (hm : m.BatchOk) (k : Fin n) (f : BatchJobStep → BatchJobStep) :
    (m.setStep k f).BatchOk := hm

theorem settle_batchOk (hm : m.BatchOk) (k : Fin n) (outcome : Outcome) :
    (m.settle k outcome).BatchOk := by
  refine setBatch_batchOk (setStep_batchOk hm k _) ?_
  cases outcome <;> rfl

theorem touch_batchOk (hm : m.BatchOk) (now : ℕ) : (m.touch now).BatchOk :=
  setBatch_batchOk hm rfl

theorem claim_batchOk (hm : m.BatchOk) (k : Fin n) (now : ℕ) : (m.claim k now).BatchOk := hm

theorem planOpened_knows (row : BatchJob) (now : ℕ) (request : Request n) :
    MoveKnows (planOpened row now request) := by
  have hfresh : Memory.BatchOk (⟨.fresh row, fun _ => none⟩ : Memory n) := fun hne => absurd rfl hne
  cases request with
  | process =>
    unfold planOpened
    split_ifs
    · exact .keep rfl hfresh trivial
    · exact .keep rfl hfresh trivial
  | finalize k run => exact .keep rfl hfresh trivial
  | cancel =>
    unfold planOpened
    split_ifs with hterminal
    · exact .keep rfl hfresh trivial
    · refine .keep rfl (setBatch_batchOk_of_running hfresh hterminal) ⟨rfl, fun hrow => ?_⟩
      have hrow : row.status = .cancelled := hrow
      exact hterminal (by rw [hrow]; decide)

theorem planPicked_knows (hm : m.BatchOk) {k : Fin n} (hk : PhaseKnows m (.picked k)) (now : ℕ)
    (v : Verdict) : MoveKnows (planPicked m k now v) := by
  obtain ⟨c, hc, hnow, -⟩ := hk
  cases v with
  | skip =>
    exact .flush rfl (touch_batchOk (settle_batchOk hm k .skipped) now) trivial
  | block =>
    exact .flush rfl (touch_batchOk (settle_batchOk hm k .failed) now) trivial
  | clear =>
    exact .flush rfl hm ⟨.fresh c.now, Option.mem_map.2 ⟨c, hc, rfl⟩, hnow, hnow⟩
  | claim =>
    exact .flush rfl (claim_batchOk hm k now) trivial

theorem afterSettling_knows (more : Bool) : PhaseKnows m (afterSettling more) := by
  cases more <;> trivial

theorem planWorking_knows {tb : Tables n} {t now : ℕ} {answer : Answer} {mv : Move n}
    (hm : m.BatchOk) (hphase : PhaseKnows m phase)
    (h : planWorking tb t now answer m phase = some mv) : MoveKnows mv := by
  cases phase with
  | checking =>
    rw [planWorking] at h
    split_ifs at h
    · cases h
      exact .keep rfl hm trivial
    · cases h
      by_cases hpending : m.batch.now.status = .pending
      · refine .keep rfl (setBatch_batchOk_of_running hm ?_) trivial
        rw [hpending]
        decide
      · exact .keep rfl (setBatch_batchOk hm (by rw [if_neg hpending])) trivial
  | picking =>
    rw [planWorking] at h
    split at h
    · cases h
      exact .keep rfl hm trivial
    · rename_i k hk
      obtain ⟨row, hrow, rfl⟩ := Option.map_eq_some_iff.1 h
      have hpending := List.find?_some hk
      rw [hrow, Bool.and_eq_true] at hpending
      have hstatus : row.step.status = .pending := by simpa [statusIn] using hpending.1
      exact .keep rfl hm ⟨_, mem_load row.step, hstatus, hstatus⟩
  | picked k =>
    cases h
    exact planPicked_knows hm hphase now _
  | cleared k =>
    cases h
    exact .flush rfl (claim_batchOk hm k now) trivial
  | claimed k =>
    cases h
    unfold planClaimed
    split
    · exact .flush rfl hm trivial
    · exact .flush rfl (setStep_batchOk hm k _) trivial
    · exact .keep rfl hm trivial
  | started k run =>
    rw [planWorking] at h
    split_ifs at h
    · cases h
      exact .keep rfl hm trivial
    · cases h
      exact .flush rfl hm trivial
  | finalizeRead k run =>
    obtain ⟨row, -, rfl⟩ := Option.map_eq_some_iff.1 h
    exact .keep rfl hm trivial
  | finalizing k run =>
    obtain ⟨c, -, rfl⟩ := Option.map_eq_some_iff.1 h
    split_ifs
    · exact .flush rfl (touch_batchOk (settle_batchOk hm k _) now) trivial
    · exact .keep rfl hm trivial
  | settling more =>
    rw [planWorking] at h
    split_ifs at h with hsettled
    · cases h
      exact .keep rfl hm (afterSettling_knows more)
    · cases h
      exact .keep rfl (setBatch_batchOk_of_running hm (not_or.1 hsettled).1) trivial
  | completing more =>
    cases h
    exact .flush rfl hm (afterSettling_knows more)
  | reconciling =>
    rw [planWorking] at h
    split at h
    · cases h
      exact .keep rfl hm trivial
    · obtain ⟨row, -, rfl⟩ := Option.map_eq_some_iff.1 h
      exact .keep rfl hm trivial
  | found k =>
    obtain ⟨c, -, rfl⟩ := Option.map_eq_some_iff.1 h
    have hreset : MoveKnows ⟨m.reset k, .flush, some .closing⟩ :=
      .flush rfl (setStep_batchOk hm k _) trivial
    unfold planFound
    split
    · split_ifs
      · exact .keep rfl hm trivial
      · exact .keep rfl hm trivial
    · exact hreset
  | cancelRead =>
    cases h
    exact .keep rfl hm trivial
  | cancelling left =>
    cases left with
    | nil =>
      cases h
      exact .flush rfl hm trivial
    | cons k left =>
      obtain ⟨c, -, rfl⟩ := Option.map_eq_some_iff.1 h
      unfold planCancelling
      split
      · split
        · exact .flush rfl hm trivial
        · exact .flush rfl hm trivial
        · exact .keep rfl (settle_batchOk hm k .failed) trivial
      · exact .keep rfl (settle_batchOk hm k .skipped) trivial
      · exact .keep rfl hm trivial
  | closing =>
    cases h
    exact .write rfl hm fun p hp => by cases hp

/-- **Every move of a session keeps what it knows.** -/
theorem plan_knows {tb : Tables n} {t now : ℕ} {answer : Answer} {session : Session n} {mv : Move n}
    (hs : SessionKnows session) (h : plan tb t now answer session = some mv) : MoveKnows mv := by
  cases session with
  | opened request =>
    obtain ⟨row, -, rfl⟩ := Option.map_eq_some_iff.1 h
    exact planOpened_knows row now request
  | working m phase => exact planWorking_knows hs.1 hs.2 h

end Knows

/-! ## Tables -/

def BatchJob.Keeps (old new : BatchJob) : Prop := old.status = .cancelled → new.status = .cancelled

def StepRecord.Keeps (old new : StepRecord) : Prop :=
  new.step.status.isOpen = true → old.step.status.isOpen = true

/-- No uncommitted write takes the cancellation back or opens a settled step. -/
structure CancelInv (tb : Tables n) : Prop where
  batchKnown : ∀ u, tb.batch.rows u ≠ none
  stepsKnown : ∀ k, tb.steps.rows k ≠ none
  batch : tb.batch.Writes fun _ old _ r => ∀ o ∈ old, o.Keeps r
  steps : tb.steps.Writes fun _ old _ r => ∀ o ∈ old, o.Keeps r

section Tables

variable {tb tb' : Tables n} {t u : ℕ} {m : Memory n} {mv : Move n} {k : Fin n}

theorem known_view {K R : Type} {st : Store K R Empty ℕ} (h : ∀ i, st.rows i ≠ none) (t : ℕ)
    (i : K) : st.view t i ≠ none := by
  rcases st.view_cases t i with ⟨r, -, hview⟩ | ⟨-, hview⟩
  · simp [hview]
  · rw [hview]
    exact h i

/-- A flush keeps the cancellation, if it replaces the status that was read. -/
theorem batch_updated_keeps (hm : m.BatchOk) {row : BatchJob}
    (hcurrent : m.batch.now.status ≠ m.batch.loaded.status → m.batch.now.status ≠ .cancelled →
      row.status = m.batch.loaded.status) : row.Keeps (row.updated m.batch) := by
  intro hrow
  by_cases hsame : m.batch.now.status = m.batch.loaded.status
  · have hstatus : (row.updated m.batch).status = row.status := if_pos hsame
    rw [hstatus, hrow]
  · have hstatus : (row.updated m.batch).status = m.batch.now.status := if_neg hsame
    rw [hstatus]
    by_contra hnot
    refine hm hsame ?_
    rw [← hcurrent hsame hnot, hrow]
    decide

/-- A flush keeps a step settled, if it replaces the status that was read. -/
theorem step_updated_keeps {c : Copy BatchJobStep} {row : StepRecord}
    (hopened : c.now.status ≠ c.loaded.status → c.loaded.status.isOpen = true)
    (hcurrent : c.now.status ≠ c.loaded.status → c.now.status.isOpen = true →
      row.step.status = c.loaded.status) : row.Keeps (row.updated c) := by
  intro hopen
  by_cases hsame : c.now.status = c.loaded.status
  · have hstatus : (row.updated c).step.status = row.step.status := if_pos hsame
    rwa [hstatus] at hopen
  · have hstatus : (row.updated c).step.status = c.now.status := if_neg hsame
    rw [hstatus] at hopen
    rw [hcurrent hsame hopen]
    exact hopened hsame

theorem mem_batchWrites {r : BatchJob} (h : tb.batchWrites t m () = some r) :
    ∃ row ∈ tb.batch.view t (), r = row.updated m.batch := by
  unfold Tables.batchWrites at h
  split_ifs at h
  obtain ⟨row, hrow, rfl⟩ := Option.map_eq_some_iff.1 h
  exact ⟨row, hrow, rfl⟩

/-- **What a flush keeps.** -/
theorem flush_cancelInv (hinv : CancelInv tb) (hm : m.BatchOk) (hok : m.Ok)
    (hcurrent : StatusesCurrent tb t m) (h : tb.flush t m = some tb') : CancelInv tb' := by
  obtain ⟨-, -, rfl⟩ := flush_eq_some h
  refine ⟨hinv.batchKnown, hinv.stepsKnown, ?_, ?_⟩
  · refine hinv.batch.writeAll (fun _ => id) (fun a b c hab hbc ha => hbc (hab ha)) ?_
    intro _ r hwrite
    obtain ⟨row, hrow, rfl⟩ := mem_batchWrites hwrite
    exact ⟨row, hrow, batch_updated_keeps hm fun hne hnot => hcurrent.1 hne hnot row hrow⟩
  · refine hinv.steps.writeAll (fun _ => id) (fun a b c hab hbc hc => hab (hbc hc)) ?_
    intro k r hwrite
    obtain ⟨c, hc, row, hrow, rfl⟩ := mem_stepWrites hwrite
    exact ⟨row, hrow, step_updated_keeps (hok.opened c hc) fun hne hopen =>
      hcurrent.2 k c hc hne hopen row hrow⟩

theorem commit_cancelInv (hinv : CancelInv tb) : CancelInv (tb.commit t) :=
  ⟨known_view hinv.batchKnown t, known_view hinv.stepsKnown t, hinv.batch.commit t,
    hinv.steps.commit t⟩

theorem rollback_cancelInv (hinv : CancelInv tb) : CancelInv (tb.rollback t) :=
  ⟨hinv.batchKnown, hinv.stepsKnown, hinv.batch.rollback t, hinv.steps.rollback t⟩

theorem lock_cancelInv (hinv : CancelInv tb) {steps : Store (Fin n) StepRecord Empty ℕ}
    (h : tb.steps.update t k (fun _ => true) id = some steps) :
    CancelInv { tb with steps := steps } := by
  have hrows : steps.rows = tb.steps.rows := by
    rcases Store.update_cases h with ⟨rfl, -⟩ | ⟨row, -, -, -, rfl⟩
    · rfl
    · rfl
  refine ⟨hinv.batchKnown, fun k => ?_, hinv.batch, ?_⟩
  · show steps.rows k ≠ none
    rw [hrows]
    exact hinv.stepsKnown k
  · exact hinv.steps.update (T := StepRecord.Keeps) (fun a b c hab hbc hc => hab (hbc hc))
      (fun r _ => id) h

/-- What happens to the tables by a move: nothing is committed, or what was flushed is. -/
theorem perform_cases (h : perform tb t mv = some tb') :
    (mv.effect.commits = false ∧ tb'.batch.rows = tb.batch.rows ∧
      tb'.steps.rows = tb.steps.rows ∧ tb.batch.Frame tb'.batch t ∧
      tb.steps.Frame tb'.steps t) ∨
    (mv.effect = .commit ∧ ∃ tb'', tb.flush t mv.memory = some tb'' ∧ tb' = tb''.commit t) := by
  have hself : ∀ {K R : Type} (st : Store K R Empty ℕ), st.Frame st t :=
    fun st => ⟨rfl, fun _ => Iff.rfl, fun _ => rfl, fun h => h⟩
  unfold perform at h
  cases heffect : mv.effect with
  | read =>
    rw [heffect] at h
    cases h
    exact Or.inl ⟨rfl, rfl, rfl, hself _, hself _⟩
  | lock k =>
    rw [heffect] at h
    obtain ⟨steps, hsteps, rfl⟩ := Option.map_eq_some_iff.1 h
    have hframe : tb.steps.Frame steps t := Store.Statement.frame (.update hsteps)
    exact Or.inl ⟨rfl, rfl, hframe.rows, hself _, hframe⟩
  | flush =>
    rw [heffect] at h
    obtain ⟨hbatch, hsteps, rfl⟩ := flush_eq_some h
    exact Or.inl ⟨rfl, rfl, rfl, Store.frame_writeAll hbatch, Store.frame_writeAll hsteps⟩
  | commit =>
    rw [heffect] at h
    obtain ⟨tb'', hflush, rfl⟩ := Option.map_eq_some_iff.1 h
    exact Or.inr ⟨rfl, tb'', hflush, rfl⟩

/-- **What every move keeps**, the state before its commit included. -/
theorem perform_cancelInv (hinv : CancelInv tb) (hm : mv.memory.BatchOk) (hok : mv.memory.Ok)
    (hcurrent : mv.effect.flushes = true → StatusesCurrent tb t mv.memory)
    (h : perform tb t mv = some tb') :
    CancelInv tb' ∧ ∀ tb'', tb.flush t mv.memory = some tb'' → mv.effect.flushes = true →
      CancelInv tb'' := by
  have hflush : ∀ tb'', tb.flush t mv.memory = some tb'' → mv.effect.flushes = true →
      CancelInv tb'' := fun tb'' hf he => flush_cancelInv hinv hm hok (hcurrent he) hf
  refine ⟨?_, hflush⟩
  exact perform_keeps hinv (fun k steps hsteps => lock_cancelInv hinv hsteps)
    (fun hflushes tb'' hf => hflush tb'' hf hflushes) (fun tb'' hkept => commit_cancelInv hkept) h

/-- Tables before and after a move of a session, with those behind its flush. -/
structure Moved (tb tb' : Tables n) (t : ℕ) (mv : Move n) : Prop where
  before : CancelInv tb
  after : CancelInv tb'
  flushed : ∀ tb'', tb.flush t mv.memory = some tb'' → mv.effect.flushes = true → CancelInv tb''
  perform : perform tb t mv = some tb'

theorem flush_frame (h : tb.flush t m = some tb') :
    tb.batch.Frame tb'.batch t ∧ tb.steps.Frame tb'.steps t := by
  obtain ⟨hbatch, hsteps, rfl⟩ := flush_eq_some h
  exact ⟨Store.frame_writeAll hbatch, Store.frame_writeAll hsteps⟩

section Moved

variable (h : Moved tb tb' t mv)
include h

theorem Moved.batch_keeps {o r : BatchJob} (ho : o ∈ tb.batch.rows ())
    (hr : r ∈ tb'.batch.rows ()) :
    o.Keeps r := by
  rcases perform_cases h.perform with ⟨-, hrows, -⟩ | ⟨hcommit, tb'', hflush, rfl⟩
  · rw [hrows] at hr
    obtain rfl := Option.some.inj (ho.symm.trans hr)
    exact id
  · have hinv := h.flushed tb'' hflush (by rw [hcommit]; rfl)
    rw [← (flush_frame hflush).1.rows] at ho
    exact hinv.batch.rel_view (fun _ => id) ho hr

theorem Moved.step_keeps {o r : StepRecord} (ho : o ∈ tb.steps.rows k) (hr : r ∈ tb'.steps.rows k) :
    o.Keeps r := by
  rcases perform_cases h.perform with ⟨-, -, hrows, -⟩ | ⟨hcommit, tb'', hflush, rfl⟩
  · rw [hrows] at hr
    obtain rfl := Option.some.inj (ho.symm.trans hr)
    exact id
  · have hinv := h.flushed tb'' hflush (by rw [hcommit]; rfl)
    rw [← (flush_frame hflush).2.rows] at ho
    exact hinv.steps.rel_view (fun _ => id) ho hr

/-- What another session reads is kept as well. -/
theorem Moved.batch_view_keeps (hne : u ≠ t) {o r : BatchJob} (ho : o ∈ tb.batch.view u ())
    (hr : r ∈ tb'.batch.view u ()) : o.Keeps r := by
  rcases perform_cases h.perform with ⟨-, -, -, hframe, -⟩ | ⟨hcommit, tb'', hflush, rfl⟩
  · rw [hframe.view hne] at hr
    obtain rfl := Option.some.inj (ho.symm.trans hr)
    exact id
  · have hinv := h.flushed tb'' hflush (by rw [hcommit]; rfl)
    rw [← (flush_frame hflush).1.view hne] at ho
    exact hinv.batch.rel_view_commit (fun _ => id) hne ho hr

theorem Moved.step_view_keeps (hne : u ≠ t) {o r : StepRecord} (ho : o ∈ tb.steps.view u k)
    (hr : r ∈ tb'.steps.view u k) : o.Keeps r := by
  rcases perform_cases h.perform with ⟨-, -, -, -, hframe⟩ | ⟨hcommit, tb'', hflush, rfl⟩
  · rw [hframe.view hne] at hr
    obtain rfl := Option.some.inj (ho.symm.trans hr)
    exact id
  · have hinv := h.flushed tb'' hflush (by rw [hcommit]; rfl)
    rw [← (flush_frame hflush).2.view hne] at ho
    exact hinv.steps.rel_view_commit (fun _ => id) hne ho hr

/-- The uncommitted writes of other sessions stay. -/
theorem Moved.steps_pending (hne : u ≠ t) {r : StepRecord} :
    tb'.steps.pending k = some (u, r) ↔ tb.steps.pending k = some (u, r) := by
  rcases perform_cases h.perform with ⟨-, -, -, -, hframe⟩ | ⟨-, tb'', hflush, rfl⟩
  · exact hframe.pending hne
  · show (tb''.steps.commit t).pending k = some (u, r) ↔ _
    rw [Store.pending_commit, (flush_frame hflush).2.pending hne]
    exact and_iff_left hne

end Moved

end Tables

end StudyAgent.Batch
