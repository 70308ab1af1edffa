import StudyAgent.Batch.OneClaim

/-!
# Cancelling a batch

The sessions on a batch beside its generation runs.  A run is started in the commit
behind a claim and attached to the step in a later one; `cancel_batch` settles the steps
as it has read them, abandons the runs that it finds attached, and may commit half way.

Main results:

* `World.step_cases` — all that can happen.
* `World.step_system` — the sessions do what they do without runs.
-/

namespace StudyAgent.Batch

open ReadCommitted
open Generation (RunStatus)

variable {n : ℕ}

/-! ## Runs -/

/-- `_ABANDONABLE_STATUSES`. -/
def ABANDONABLE_STATUSES : List RunStatus := [.running, .paused, .failed]

/-- A generation run, and the step whose node it is for. -/
structure GenerationRun (n : ℕ) where
  step : Fin n
  status : RunStatus
  deriving DecidableEq

/-- The run that a session starts with its next statement. -/
def starts (answer : Answer) : Session n → Option (Fin n × ℕ)
  | .working _ (.claimed k) =>
    match answer.start with
    | .started run => some (k, run)
    | _ => none
  | _ => none

/-- The run for which `abandon_run` returns to a cancel. -/
def abandons (answer : Answer) : Session n → Option ℕ
  | .working m (.cancelling (k :: _)) =>
    (m.steps k).bind fun c =>
      if c.now.status = .running ∧ answer.abandoned = .returned then c.now.generationRunId
      else none
  | _ => none

/-- The session of a cancel that reads the steps next. -/
def Session.readsSteps : Session n → Bool
  | .working _ .cancelRead => true
  | _ => false

/-! ## The world -/

/-- The batch and its runs.  No code reads the other components: the runs started so far,
the sessions whose cancel has read the steps, whether the batch has ever been committed as
cancelled, and whether a cancel has been committed to its end. -/
structure World (n : ℕ) where
  system : System n
  runs : Store ℕ (GenerationRun n) Empty ℕ := .empty
  started : List ℕ := []
  readers : List ℕ := []
  cancelled : Bool := false
  done : Bool := false

def World.initial (n : ℕ) (mode : PolicyMode) : World n where
  system := System.initial n mode

/-- A new batch, under some policy. -/
def World.New (w : World n) : Prop := ∃ mode, w = World.initial n mode

/-- What happens next: a statement of a session, whose client may be another mentor than
the one who owns the runs, or an update that ends or pauses a run. -/
inductive Event (n : ℕ) where
  | session (t : ℕ) (action : Action n) (owns : Bool)
  | ends (run : ℕ) (status : RunStatus)
  deriving DecidableEq

def Effect.commits : Effect n → Bool
  | .commit => true
  | _ => false

def Tables.cancelled (tb : Tables n) : Bool :=
  (tb.batch.rows ()).any fun row => row.status = .cancelled

/-- What a statement writes to the runs.  The `UPDATE` of `abandon_run` is taken together
with its return; a client who does not own the run is told that there is none. -/
def World.writeRuns (w : World n) (t : ℕ) (owns : Bool) (answer : Answer) (session : Session n) :
    Option (Store ℕ (GenerationRun n) Empty ℕ) :=
  match starts answer session, abandons answer session with
  | some (k, run), _ => w.runs.insert t run ⟨k, .running⟩
  | none, some run =>
    if owns then
      w.runs.update t run (fun r => r.status ∈ ABANDONABLE_STATUSES)
        fun r => { r with status := .abandoned }
    else some w.runs
  | none, none => some w.runs

/-- A session that ends reads no more. -/
def readersAfter (readers : List ℕ) (t : ℕ) (before : Session n) (after : Option (Phase n)) :
    List ℕ :=
  if after.isNone then readers.filter (· ≠ t)
  else if before.readsSteps then t :: readers
  else readers

/-- What a statement of a session makes of the world. -/
def World.after (w : World n) (t : ℕ) (session : Session n) (answer : Answer) (mv : Move n)
    (tb : Tables n) (runs : Store ℕ (GenerationRun n) Empty ℕ) : World n where
  system := ⟨tb, Function.update w.system.sessions t (mv.phase.map (Session.working mv.after))⟩
  runs := if mv.effect.commits then runs.commit t else runs
  started := (starts answer session).elim w.started fun p => p.2 :: w.started
  readers := readersAfter w.readers t session mv.phase
  cancelled := w.cancelled || tb.cancelled
  done := w.done || (mv.phase.isNone && decide (t ∈ w.readers))

def World.step (w : World n) : Event n → Option (World n)
  | .session t action owns =>
    match w.system.sessions t, action with
    | some session, .next now answer =>
      (plan w.system.tables t now answer session).bind fun mv =>
        (perform w.system.tables t mv).bind fun tb =>
          (w.writeRuns t owns answer session).map fun runs => w.after t session answer mv tb runs
    | some _, .rollback =>
      some { w with
        system := ⟨w.system.tables.rollback t, Function.update w.system.sessions t none⟩
        runs := w.runs.rollback t
        readers := w.readers.filter (· ≠ t) }
    | none, .start request =>
      some { w with
        system :=
          { w.system with
            sessions := Function.update w.system.sessions t (some (.opened request)) } }
    | _, _ => none
  | .ends run status =>
    match w.runs.rows run with
    | some r =>
      if r.status ∈ ABANDONABLE_STATUSES ∧ w.runs.pending run = none ∧ status ≠ .running then
        some { w with
          runs :=
            { w.runs with
              rows := Function.update w.runs.rows run (some { r with status := status }) } }
      else none
    | none => none

/-- **All that can happen**: a session is opened, goes on or is rolled back, or a run ends. -/
theorem World.step_cases {w w' : World n} {e : Event n} (h : w.step e = some w') :
    (∃ t request owns, e = .session t (.start request) owns ∧ w.system.sessions t = none ∧
      w' = { w with system := { w.system with
        sessions := Function.update w.system.sessions t (some (.opened request)) } }) ∨
    (∃ t now answer owns session mv tb runs, e = .session t (.next now answer) owns ∧
      w.system.sessions t = some session ∧
      plan w.system.tables t now answer session = some mv ∧
      perform w.system.tables t mv = some tb ∧
      w.writeRuns t owns answer session = some runs ∧
      w' = w.after t session answer mv tb runs) ∨
    (∃ t owns, e = .session t .rollback owns ∧
      w' = { w with
        system := ⟨w.system.tables.rollback t, Function.update w.system.sessions t none⟩
        runs := w.runs.rollback t
        readers := w.readers.filter (· ≠ t) }) ∨
    (∃ run status r, e = .ends run status ∧ w.runs.rows run = some r ∧
      w.runs.pending run = none ∧ status ≠ .running ∧
      w' = { w with runs := { w.runs with
        rows := Function.update w.runs.rows run (some { r with status := status }) } }) := by
  cases e with
  | session t action owns =>
    unfold World.step at h
    cases hsession : w.system.sessions t with
    | none =>
      cases action with
      | start request =>
        simp only [hsession, Option.some.injEq] at h
        exact Or.inl ⟨t, request, owns, rfl, hsession, h.symm⟩
      | next now answer => simp [hsession] at h
      | rollback => simp [hsession] at h
    | some session =>
      cases action with
      | start request => simp [hsession] at h
      | next now answer =>
        simp only [hsession] at h
        obtain ⟨mv, hmv, h⟩ := Option.bind_eq_some_iff.1 h
        obtain ⟨tb, htb, h⟩ := Option.bind_eq_some_iff.1 h
        obtain ⟨runs, hruns, rfl⟩ := Option.map_eq_some_iff.1 h
        exact Or.inr (Or.inl
          ⟨t, now, answer, owns, session, mv, tb, runs, rfl, hsession, hmv, htb, hruns, rfl⟩)
      | rollback =>
        simp only [hsession, Option.some.injEq] at h
        exact Or.inr (Or.inr (Or.inl ⟨t, owns, rfl, h.symm⟩))
  | ends run status =>
    unfold World.step at h
    cases hrun : w.runs.rows run with
    | none => simp [hrun] at h
    | some r =>
      simp only [hrun] at h
      split_ifs at h with hfree
      exact Or.inr (Or.inr (Or.inr
        ⟨run, status, r, rfl, hrun, hfree.2.1, hfree.2.2, (Option.some.inj h).symm⟩))

/-- **The sessions do what they do without runs.** -/
theorem World.step_system {w w' : World n} {t : ℕ} {action : Action n} {owns : Bool}
    (h : w.step (.session t action owns) = some w') :
    Batch.step w.system (t, action) = some w'.system := by
  rcases World.step_cases h with ⟨u, request, o, he, hsession, rfl⟩ |
    ⟨u, now, answer, o, session, mv, tb, runs, he, hsession, hplan, hperform, -, rfl⟩ |
    ⟨u, o, he, rfl⟩ | ⟨run, status, r, he, -⟩
  · cases he
    simp only [Batch.step, hsession]
  · cases he
    simp only [Batch.step, hsession, hplan, Option.bind_some, hperform, Option.map_some]
    rfl
  · cases he
    cases hsession : w.system.sessions t with
    | none => simp [World.step, hsession] at h
    | some session => simp only [Batch.step, hsession]
  · cases he

/-! ## The condition -/

/-- A status of the batch other than cancelled, and a status that opens a step, are written
over the status that the session has read. -/
def StatusesCurrent (tb : Tables n) (t : ℕ) (m : Memory n) : Prop :=
  (m.batch.now.status ≠ m.batch.loaded.status → m.batch.now.status ≠ .cancelled →
      ∀ row ∈ tb.batch.view t (), row.status = m.batch.loaded.status) ∧
    ∀ k, ∀ c ∈ m.steps k, c.now.status ≠ c.loaded.status → c.now.status.isOpen = true →
      ∀ row ∈ tb.steps.view t k, row.step.status = c.loaded.status

instance (tb : Tables n) (t : ℕ) (m : Memory n) : Decidable (StatusesCurrent tb t m) :=
  inferInstanceAs (Decidable ((_ → _ → ∀ row ∈ tb.batch.view t (), _) ∧
    ∀ k, ∀ c ∈ m.steps k, _ → _ → ∀ row ∈ tb.steps.view t k, _))

/-- No session has written a running step that it has not committed. -/
def NoClaimUnderway (tb : Tables n) : Prop :=
  ∀ k, ∀ w ∈ tb.steps.pending k, w.2.step.status ≠ .running

instance (tb : Tables n) : Decidable (NoClaimUnderway tb) :=
  inferInstanceAs (Decidable (∀ k, ∀ w ∈ tb.steps.pending k, w.2.step.status ≠ .running))

/-- Every run that goes on is the one attached to its step, and the step is running. -/
def RunsAttached (w : World n) (t : ℕ) : Prop :=
  ∀ run ∈ w.started, ∀ r ∈ w.runs.rows run, r.status = .running →
    ∃ row ∈ w.system.tables.steps.view t r.step,
      row.step.status = .running ∧ row.step.generationRunId = some run

instance (w : World n) (t : ℕ) : Decidable (RunsAttached w t) :=
  inferInstanceAs (Decidable (∀ run ∈ w.started, ∀ r ∈ w.runs.rows run, _ →
    ∃ row ∈ w.system.tables.steps.view t r.step, _))

/-- Statuses are written over what was read, a worker is not between its claim and the
attached run while a cancel is between its read of the steps and its end, and the client
who cancels is the mentor of the runs. -/
def Undisturbed (w : World n) : Event n → Prop
  | .session t (.next now answer) owns =>
    ∀ session ∈ w.system.sessions t,
      (∀ mv ∈ plan w.system.tables t now answer session, mv.effect.flushes = true →
        StatusesCurrent w.system.tables t mv.memory) ∧
      ((claims answer session).isSome = true → w.readers = []) ∧
      (session.readsSteps = true → NoClaimUnderway w.system.tables ∧ RunsAttached w t) ∧
      ((abandons answer session).isSome = true → owns = true)
  | _ => True

instance (w : World n) (e : Event n) : Decidable (Undisturbed w e) := by
  unfold Undisturbed
  split <;> infer_instance

end StudyAgent.Batch
