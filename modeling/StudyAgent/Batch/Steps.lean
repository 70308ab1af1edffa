import StudyAgent.Generation.RunRequests
import Mathlib.Data.Fintype.Basic

/-!
# The steps of a generation batch

Workers claim, finalize and reset the steps of one batch, clients cancel it.  Each does
so in a session that keeps copies of the rows it has read, assigns to the copies, and
writes the assigned columns when it flushes.  A statement is one step, together with the
assignments behind it; a flush of several rows is one statement, since nobody sees it
before the commit.  Steps are counted by position, run ids and times are numbers.

Main results:

* `step_cases` — all that a step can do.
-/

namespace StudyAgent.Batch

open ReadCommitted
open Generation (RunStatus)

/-! ## Rows -/

inductive BatchStatus where
  | pending
  | running
  | completed
  | failed
  | cancelled
  deriving DecidableEq

inductive StepStatus where
  | pending
  | running
  | completed
  | failed
  | skipped
  deriving DecidableEq

/-- `_TERMINAL_BATCH_STATUSES`. -/
def TERMINAL_BATCH_STATUSES : List BatchStatus := [.completed, .failed, .cancelled]

/-- `_TERMINAL_RUN_STATUSES`. -/
def TERMINAL_RUN_STATUSES : List RunStatus := [.completed, .failed, .abandoned, .superseded]

/-- A step that is still to be settled. -/
def StepStatus.isOpen (status : StepStatus) : Bool := status ∈ [StepStatus.pending, .running]

/-- `_policy_mode`; every other text is treated alike. -/
inductive PolicyMode where
  | skipExisting
  | regenerateAll
  | other
  deriving DecidableEq

structure BatchJob where
  policyMode : PolicyMode
  totalSteps : ℕ
  status : BatchStatus := .pending
  completedSteps : ℕ := 0
  failedSteps : ℕ := 0
  skippedSteps : ℕ := 0
  updatedAt : ℕ := 0
  deriving DecidableEq

structure BatchJobStep where
  status : StepStatus := .pending
  generationRunId : Option ℕ := none
  deriving DecidableEq

/-- The statuses that the batch counts. -/
inductive Outcome where
  | completed
  | failed
  | skipped
  deriving DecidableEq

instance : Fintype Outcome := ⟨{.completed, .failed, .skipped}, fun o => by cases o <;> simp⟩

def Outcome.status : Outcome → StepStatus
  | .completed => .completed
  | .failed => .failed
  | .skipped => .skipped

def BatchJob.counter (batch : BatchJob) : Outcome → ℕ
  | .completed => batch.completedSteps
  | .failed => batch.failedSteps
  | .skipped => batch.skippedSteps

def BatchJob.countOne (batch : BatchJob) : Outcome → BatchJob
  | .completed => { batch with completedSteps := batch.completedSteps + 1 }
  | .failed => { batch with failedSteps := batch.failedSteps + 1 }
  | .skipped => { batch with skippedSteps := batch.skippedSteps + 1 }

def BatchJobStep.settled (step : BatchJobStep) (outcome : Outcome) : BatchJobStep :=
  { step with status := outcome.status }

/-- The outcome that `finalize_step` gives a step whose run has ended so, or is gone. -/
def outcomeOf (run : Option RunStatus) : Outcome :=
  if run = some .completed then .completed else .failed

/-! ## Copies -/

/-- A row as it was loaded or flushed last, and as it has been assigned since. -/
structure Copy (R : Type) where
  loaded : R
  now : R

def Copy.fresh {R : Type} (row : R) : Copy R := ⟨row, row⟩

def Copy.dirty {R : Type} [DecidableEq R] (c : Copy R) : Bool := c.now ≠ c.loaded

/-- A column of an `UPDATE`: only assigned ones are set. -/
def column {α : Type} [DecidableEq α] (loaded now row : α) : α := if now = loaded then row else now

def BatchJob.updated (row : BatchJob) (c : Copy BatchJob) : BatchJob where
  policyMode := row.policyMode
  totalSteps := row.totalSteps
  status := column c.loaded.status c.now.status row.status
  completedSteps := column c.loaded.completedSteps c.now.completedSteps row.completedSteps
  failedSteps := column c.loaded.failedSteps c.now.failedSteps row.failedSteps
  skippedSteps := column c.loaded.skippedSteps c.now.skippedSteps row.skippedSteps
  updatedAt := column c.loaded.updatedAt c.now.updatedAt row.updatedAt

/-- A row of a step, and the statuses ever written to it, which no code reads. -/
structure StepRecord where
  step : BatchJobStep
  written : List StepStatus
  deriving DecidableEq

def StepRecord.updated (row : StepRecord) (c : Copy BatchJobStep) : StepRecord where
  step :=
    { status := column c.loaded.status c.now.status row.step.status
      generationRunId :=
        column c.loaded.generationRunId c.now.generationRunId row.step.generationRunId }
  written :=
    if c.now.status = c.loaded.status then row.written else row.written ++ [c.now.status]

/-- The rows that a session holds: a step that it has dropped is read again. -/
structure Memory (n : ℕ) where
  batch : Copy BatchJob
  steps : Fin n → Option (Copy BatchJobStep)

variable {n : ℕ}

def Memory.setBatch (m : Memory n) (f : BatchJob → BatchJob) : Memory n :=
  { m with batch := ⟨m.batch.loaded, f m.batch.now⟩ }

def Memory.setStep (m : Memory n) (k : Fin n) (f : BatchJobStep → BatchJobStep) : Memory n :=
  { m with
    steps := Function.update m.steps k ((m.steps k).map fun c => ⟨c.loaded, f c.now⟩) }

/-- Hold one step only. -/
def Memory.load (m : Memory n) (k : Fin n) (row : BatchJobStep) : Memory n :=
  { m with steps := fun j => if j = k then some (.fresh row) else none }

def Memory.flushed (m : Memory n) : Memory n where
  batch := .fresh m.batch.now
  steps := fun k => (m.steps k).map fun c => .fresh c.now

def Memory.touch (m : Memory n) (now : ℕ) : Memory n :=
  m.setBatch fun batch => { batch with updatedAt := now }

/-- A step gets its outcome, and the batch counts it. -/
def Memory.settle (m : Memory n) (k : Fin n) (outcome : Outcome) : Memory n :=
  (m.setStep k fun step => step.settled outcome).setBatch fun batch => batch.countOne outcome

def Memory.claim (m : Memory n) (k : Fin n) (now : ℕ) : Memory n :=
  (m.setStep k fun step => { step with status := .running }).touch now

/-- `_reset_step_to_pending`. -/
def Memory.reset (m : Memory n) (k : Fin n) : Memory n :=
  m.setStep k fun _ => { status := .pending, generationRunId := none }

/-! ## Sessions -/

/-- What a session is opened for: `process_batch`, the finalize behind a run, `cancel_batch`. -/
inductive Request (n : ℕ) where
  | process
  | finalize (k : Fin n) (run : Option RunStatus)
  | cancel
  deriving DecidableEq

/-- How far a session has come. -/
inductive Phase (n : ℕ) where
  | checking
  | picking
  | picked (k : Fin n)
  | cleared (k : Fin n)
  | claimed (k : Fin n)
  | started (k : Fin n) (run : ℕ)
  | finalizeRead (k : Fin n) (run : Option RunStatus)
  | finalizing (k : Fin n) (run : Option RunStatus)
  | settling (claims : Bool)
  | completing (claims : Bool)
  | reconciling
  | found (k : Fin n)
  | cancelRead
  | cancelling (left : List (Fin n))
  | closing
  deriving DecidableEq

inductive Session (n : ℕ) where
  | opened (request : Request n)
  | working (memory : Memory n) (phase : Phase n)

/-- What the session reads of a node's study material. -/
structure NodeMaterial where
  liveOrDraft : Bool := false
  hasVersion : Bool := false
  canClear : Bool := false
  hasDrafts : Bool := false
  quizCount : ℕ := 0
  live : Bool := false
  deriving DecidableEq

/-- How `start_generate_study_material` ends. -/
inductive StartResult where
  | started (run : ℕ)
  | conflict
  | failed
  deriving DecidableEq

/-- What `abandon_run` does to the session of a cancel before it returns. -/
inductive Abandoned where
  | returned
  | flushed
  | committed
  deriving DecidableEq

/-- What a statement reads or learns outside the two tables. -/
structure Answer where
  material : NodeMaterial := {}
  start : StartResult := .conflict
  run : Option RunStatus := none
  abandoned : Abandoned := .returned
  deriving DecidableEq

/-- What `claim_next_step` does with a step it has locked. -/
inductive Verdict where
  | skip
  | block
  | clear
  | claim
  deriving DecidableEq

/-- `_should_skip_step` and the eligibility check. -/
def verdict (mode : PolicyMode) (material : NodeMaterial) : Verdict :=
  if mode = .skipExisting && material.liveOrDraft then .skip
  else if mode = .regenerateAll && material.hasVersion then
    if material.canClear then if material.hasDrafts then .clear else .claim
    else if material.quizCount > 0 || material.live then .block
    else .claim
  else .claim

/-! ## Tables -/

/-- The row of the batch and the rows of its steps. -/
structure Tables (n : ℕ) where
  batch : Store Unit BatchJob Empty ℕ
  steps : Store (Fin n) StepRecord Empty ℕ

def statusIn (allowed : List StepStatus) (row : Option StepRecord) : Bool :=
  row.any fun r => r.step.status ∈ allowed

/-- `_has_running_step`. -/
def Tables.hasRunningStep (tb : Tables n) (t : ℕ) : Bool :=
  (List.finRange n).any fun k => statusIn [.running] (tb.steps.view t k)

/-- `_next_pending_step_for_batch`: the first one that no other session has locked. -/
def Tables.nextPendingStep (tb : Tables n) (t : ℕ) : Option (Fin n) :=
  (List.finRange n).find? fun k => statusIn [.pending] (tb.steps.view t k) && tb.steps.Free t k

/-- `_get_running_step`. -/
def Tables.getRunningStep (tb : Tables n) (t : ℕ) : Option (Fin n) :=
  (List.finRange n).find? fun k => statusIn [.running] (tb.steps.view t k)

/-- The rows that a flush writes. -/
def Tables.batchWrites (tb : Tables n) (t : ℕ) (m : Memory n) (u : Unit) : Option BatchJob :=
  if m.batch.dirty then (tb.batch.view t u).map fun row => row.updated m.batch else none

def Tables.stepWrites (tb : Tables n) (t : ℕ) (m : Memory n) (k : Fin n) : Option StepRecord :=
  (m.steps k).bind fun c =>
    if c.dirty then (tb.steps.view t k).map fun row => row.updated c else none

/-- Write what has been assigned; wait for the rows. -/
def Tables.flush (tb : Tables n) (t : ℕ) (m : Memory n) : Option (Tables n) :=
  if (∀ u, tb.batchWrites t m u ≠ none → tb.batch.Free t u) ∧
      ∀ k, tb.stepWrites t m k ≠ none → tb.steps.Free t k then
    some ⟨tb.batch.writeAll t (tb.batchWrites t m), tb.steps.writeAll t (tb.stepWrites t m)⟩
  else none

def Tables.commit (tb : Tables n) (t : ℕ) : Tables n := ⟨tb.batch.commit t, tb.steps.commit t⟩

def Tables.rollback (tb : Tables n) (t : ℕ) : Tables n :=
  ⟨tb.batch.rollback t, tb.steps.rollback t⟩

/-! ## What a session does next -/

inductive Effect (n : ℕ) where
  | read
  | lock (k : Fin n)
  | flush
  | commit
  deriving DecidableEq

/-- Assignments in memory, what happens to the tables, and where the session goes on. -/
structure Move (n : ℕ) where
  memory : Memory n
  effect : Effect n
  phase : Option (Phase n)

/-- A commit flushes first. -/
def Effect.flushes : Effect n → Bool
  | .flush | .commit => true
  | .read | .lock _ => false

def Move.after (mv : Move n) : Memory n :=
  if mv.effect.flushes then mv.memory.flushed else mv.memory

/-- Behind `_maybe_finalize_batch`; a claim that found nothing is reconciled. -/
def afterSettling : Bool → Phase n
  | true => .reconciling
  | false => .closing

/-- A session begins with the row of the batch. -/
def planOpened (row : BatchJob) (now : ℕ) : Request n → Move n
  | .process =>
    let m : Memory n := ⟨.fresh row, fun _ => none⟩
    ⟨m, .read, some (if row.status ∈ TERMINAL_BATCH_STATUSES then .closing else .checking)⟩
  | .finalize k run => ⟨⟨.fresh row, fun _ => none⟩, .read, some (.finalizeRead k run)⟩
  | .cancel =>
    let m : Memory n := ⟨.fresh row, fun _ => none⟩
    if row.status ∈ TERMINAL_BATCH_STATUSES then ⟨m, .read, some .closing⟩
    else
      ⟨m.setBatch fun batch => { batch with status := .cancelled, updatedAt := now }, .read,
        some .cancelRead⟩

/-- `claim_next_step`, once a step is locked. -/
def planPicked (m : Memory n) (k : Fin n) (now : ℕ) : Verdict → Move n
  | .skip => ⟨(m.settle k .skipped).touch now, .flush, some .picking⟩
  | .block => ⟨(m.settle k .failed).touch now, .flush, some .picking⟩
  -- clearing the drafts commits, which unlocks the step
  | .clear => ⟨m, .commit, some (.cleared k)⟩
  | .claim => ⟨m.claim k now, .flush, some (.claimed k)⟩

/-- `process_batch` with a claimed step. -/
def planClaimed (m : Memory n) (k : Fin n) : StartResult → Move n
  | .started run => ⟨m, .commit, some (.started k run)⟩
  | .conflict => ⟨m.reset k, .flush, some .closing⟩
  | .failed => ⟨m, .read, some (.finalizing k (some .failed))⟩

/-- `_reconcile_running_step` with the step it has found. -/
def planFound (m : Memory n) (k : Fin n) (step : BatchJobStep) (run : Option RunStatus) : Move n :=
  match step.generationRunId, run with
  | some _, some status =>
    if status ∈ TERMINAL_RUN_STATUSES then ⟨m, .read, some (.finalizing k (some status))⟩
    -- a run that goes on is executed behind the commit, and finalized in another session
    else ⟨m, .read, some .closing⟩
  | _, _ => ⟨m.reset k, .flush, some .closing⟩

/-- One step in the loop of `cancel_batch`. -/
def planCancelling (m : Memory n) (k : Fin n) (left : List (Fin n)) (step : BatchJobStep)
    (abandoned : Abandoned) : Move n :=
  match step.status with
  | .running =>
    match (if step.generationRunId.isSome then abandoned else .returned) with
    | .flushed => ⟨m, .flush, some (.cancelling (k :: left))⟩
    | .committed => ⟨m, .commit, some (.cancelling (k :: left))⟩
    | .returned => ⟨m.settle k .failed, .read, some (.cancelling left)⟩
  | .pending => ⟨m.settle k .skipped, .read, some (.cancelling left)⟩
  | _ => ⟨m, .read, some (.cancelling left)⟩

def planWorking (tb : Tables n) (t now : ℕ) (answer : Answer) (m : Memory n) :
    Phase n → Option (Move n)
  | .checking =>
    if tb.hasRunningStep t then some ⟨m, .read, some .reconciling⟩
    else
      some ⟨m.setBatch fun batch => if batch.status = .pending then
        { batch with status := .running, updatedAt := now } else batch, .read, some .picking⟩
  | .picking =>
    match tb.nextPendingStep t with
    | none => some ⟨m, .read, some (.settling true)⟩
    | some k => (tb.steps.view t k).map fun row => ⟨m.load k row.step, .lock k, some (.picked k)⟩
  | .picked k => some (planPicked m k now (verdict m.batch.now.policyMode answer.material))
  | .cleared k => some ⟨m.claim k now, .flush, some (.claimed k)⟩
  | .claimed k => some (planClaimed m k answer.start)
  | .started k run =>
    -- `start_run` commits twice, and may fail between
    if answer.start = .failed then some ⟨m, .read, some (.finalizing k (some .failed))⟩
    else some ⟨m.setStep k fun step => { step with generationRunId := some run }, .flush,
      some .closing⟩
  | .finalizeRead k run =>
    (tb.steps.view t k).map fun row => ⟨m.load k row.step, .read, some (.finalizing k run)⟩
  | .finalizing k run => (m.steps k).map fun c =>
    if c.now.status = .running then
      ⟨(m.settle k (outcomeOf run)).touch now, .flush, some (.settling false)⟩
    else ⟨m, .read, some .closing⟩
  | .settling claims =>
    if m.batch.now.status ∈ TERMINAL_BATCH_STATUSES ∨
        (List.finRange n).any fun k => statusIn [.pending, .running] (tb.steps.view t k) then
      some ⟨m, .read, some (afterSettling claims)⟩
    else
      some ⟨m.setBatch fun batch => { batch with status := .completed, updatedAt := now }, .read,
        some (.completing claims)⟩
  | .completing claims => some ⟨m, .flush, some (afterSettling claims)⟩
  | .reconciling =>
    match tb.getRunningStep t with
    | none => some ⟨m, .read, some .closing⟩
    | some k => (tb.steps.view t k).map fun row => ⟨m.load k row.step, .read, some (.found k)⟩
  | .found k => (m.steps k).map fun c => planFound m k c.now answer.run
  | .cancelRead =>
    some ⟨{ m with steps := fun k => (tb.steps.view t k).map fun row => .fresh row.step }, .read,
      some (.cancelling (List.finRange n))⟩
  | .cancelling (k :: left) =>
    (m.steps k).map fun c => planCancelling m k left c.now answer.abandoned
  | .cancelling [] => some ⟨m, .flush, some .closing⟩
  | .closing => some ⟨m, .commit, none⟩

def plan (tb : Tables n) (t now : ℕ) (answer : Answer) : Session n → Option (Move n)
  | .opened request => (tb.batch.view t ()).map fun row => planOpened row now request
  | .working m phase => planWorking tb t now answer m phase

def perform (tb : Tables n) (t : ℕ) (mv : Move n) : Option (Tables n) :=
  match mv.effect with
  | .read => some tb
  | .lock k => (tb.steps.update t k (fun _ => true) id).map fun steps => { tb with steps := steps }
  | .flush => tb.flush t mv.memory
  | .commit => (tb.flush t mv.memory).map fun tb => tb.commit t

/-- **The rule of moves**: what a lock, the flush and a commit keep is kept by the move. -/
theorem perform_keeps {I : Tables n → Prop} {tb tb' : Tables n} {t : ℕ} {mv : Move n} (hinv : I tb)
    (hlock : ∀ k steps, tb.steps.update t k (fun _ => true) id = some steps →
      I { tb with steps := steps })
    (hflush : mv.effect.flushes = true → ∀ tb', tb.flush t mv.memory = some tb' → I tb')
    (hcommit : ∀ tb', I tb' → I (tb'.commit t)) (h : perform tb t mv = some tb') : I tb' := by
  unfold perform at h
  cases heffect : mv.effect with
  | read =>
    rw [heffect] at h
    cases h
    exact hinv
  | lock k =>
    rw [heffect] at h
    obtain ⟨steps, hsteps, rfl⟩ := Option.map_eq_some_iff.1 h
    exact hlock k steps hsteps
  | flush =>
    rw [heffect] at h hflush
    exact hflush rfl tb' h
  | commit =>
    rw [heffect] at h hflush
    obtain ⟨tb'', hwritten, rfl⟩ := Option.map_eq_some_iff.1 h
    exact hcommit tb'' (hflush rfl tb'' hwritten)

/-! ## The system -/

structure System (n : ℕ) where
  tables : Tables n
  sessions : ℕ → Option (Session n)

/-- `create_batch`. -/
def System.initial (n : ℕ) (mode : PolicyMode) : System n where
  tables :=
    { batch := ⟨fun _ => some { policyMode := mode, totalSteps := n }, fun _ => none, fun _ => none⟩
      steps := ⟨fun _ => some ⟨{}, []⟩, fun _ => none, fun _ => none⟩ }
  sessions := fun _ => none

/-- A batch as it is created, under some policy. -/
def Created (s : System n) : Prop := ∃ mode, s = System.initial n mode

inductive Action (n : ℕ) where
  | start (request : Request n)
  | next (now : ℕ) (answer : Answer)
  | rollback
  deriving DecidableEq

/-- One step of a session.  An exception rolls it back. -/
def step (s : System n) (i : ℕ × Action n) : Option (System n) :=
  match s.sessions i.1, i.2 with
  | none, .start request =>
    some { s with sessions := Function.update s.sessions i.1 (some (.opened request)) }
  | some session, .next now answer =>
    (plan s.tables i.1 now answer session).bind fun mv =>
      (perform s.tables i.1 mv).map fun tb =>
        ⟨tb, Function.update s.sessions i.1 (mv.phase.map (Session.working mv.after))⟩
  | some _, .rollback =>
    some ⟨s.tables.rollback i.1, Function.update s.sessions i.1 none⟩
  | _, _ => none

/-- **All that a step can do**: open a session, go on with one, or roll it back. -/
theorem step_cases {s s' : System n} {t : ℕ} {a : Action n} (h : step s (t, a) = some s') :
    (∃ request, a = .start request ∧ s.sessions t = none ∧
      s' = { s with sessions := Function.update s.sessions t (some (.opened request)) }) ∨
    (∃ session now answer mv tb, a = .next now answer ∧ s.sessions t = some session ∧
      plan s.tables t now answer session = some mv ∧ perform s.tables t mv = some tb ∧
      s' = ⟨tb, Function.update s.sessions t (mv.phase.map (Session.working mv.after))⟩) ∨
    (a = .rollback ∧ s' = ⟨s.tables.rollback t, Function.update s.sessions t none⟩) := by
  unfold step at h
  cases hsession : s.sessions t with
  | none =>
    cases a with
    | start request =>
      simp only [hsession, Option.some.injEq] at h
      exact Or.inl ⟨request, rfl, rfl, h.symm⟩
    | next now answer => simp [hsession] at h
    | rollback => simp [hsession] at h
  | some session =>
    cases a with
    | start request => simp [hsession] at h
    | next now answer =>
      simp only [hsession] at h
      obtain ⟨mv, hmv, hrest⟩ := Option.bind_eq_some_iff.1 h
      obtain ⟨tb, htb, rfl⟩ := Option.map_eq_some_iff.1 hrest
      exact Or.inr (Or.inl ⟨session, now, answer, mv, tb, rfl, rfl, hmv, htb, rfl⟩)
    | rollback =>
      simp only [hsession, Option.some.injEq] at h
      exact Or.inr (Or.inr ⟨rfl, h.symm⟩)

end StudyAgent.Batch
