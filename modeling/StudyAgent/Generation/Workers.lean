import StudyAgent.Generation.RunRequests
import StudyAgent.Material.OneActive

/-!
# Workers of generation runs

The workers that execute generation runs, beside the requests that start, pause, resume and
abandon them, the sweep of stale runs, and the requests that publish study material.  A worker
takes the session lock of its run's pipeline and resource, and commits after each of its writes;
so a step is one read, or the writes of one commit.

A session that still refers to a row does not load it again.  A read that may or may not find such
a reference comes with a flag that says which.

Main results:

* `writeRun_cases` — all that an `UPDATE` of a worker does.
* `step_cases` — whose step a step is.
* `work_cases` — all that a step of a worker does.
-/

namespace StudyAgent.Generation.Workers

open Lifecycle (RetentionMode)
open Material (StudyMaterialVersion getActiveVersion listVersionsByGenerationRunId updateVersion)

/-! ## Rows -/

inductive GenerationMode where
  | generate
  | regenerate
  | improve
  deriving DecidableEq

/-- What `request_params["result"]` says of a study material run. -/
inductive RunResult where
  | vague
  | version (versionId : ℕ)
  deriving DecidableEq

/-- A row of `generationruns` with the columns that the workers use. -/
structure WorkedRun extends GenerationRun where
  nodeId : ℕ
  mode : GenerationMode := .generate
  checkpointState : Option ℕ := none
  result : Option RunResult := none
  deriving DecidableEq

/-- The values of an `UPDATE` of the status. -/
def WorkedRun.change (row : WorkedRun) (kind : ChangeKind) (now : ℕ) : WorkedRun :=
  { row with toGenerationRun := kind.apply now row.toGenerationRun }

/-- The run, as the discard of its artifacts reads it.  Study material is tagged with the id of the
run, never with that of its artifacts. -/
def WorkedRun.toMaterial (row : WorkedRun) (runId : ℕ) : Material.GenerationRun where
  runId := runId
  nodeId := row.nodeId
  generateVersionId := row.result.bind fun
    | .version versionId => if row.mode = .generate then some versionId else none
    | .vague => none
  feedbackVersionId := row.result.bind fun
    | .version versionId => if row.mode = .generate then none else some versionId
    | .vague => none

/-- `should_continue_execution`, or `is_run_active` where there is no token; `run` is the row that
was read. -/
def shouldContinue (run row : GenerationRun) : Bool :=
  row.status = .running && (run.executionToken = none || row.executionToken = run.executionToken)

/-! ## Sessions -/

/-- An execution that was scheduled, with the token that was issued for it. -/
structure Job where
  runId : ℕ
  executionToken : ℕ
  deriving DecidableEq

/-- A worker: its job, the token that it found when it began, and the row that it has read. -/
structure Worker where
  job : Job
  loadedToken : Option ℕ
  run : WorkedRun
  deriving DecidableEq

/-- How far a worker has come. -/
inductive Stage where
  | loaded
  | locked
  | listing
  | ready
  | graph
  | checked
  | finished
  | active
  | persisted (versionId : ℕ)
  | stored
  | failing
  | failRead
  | ended
  deriving DecidableEq

/-- A request to abandon a run: the row that it has read and the versions that it has written. -/
structure Abandonment where
  runId : ℕ
  run : WorkedRun
  changed : List ℕ := []
  deriving DecidableEq

/-- How far a request to abandon has come; a fallback is the version that is to be restored. -/
inductive AbandonStage where
  | checked
  | listed (ids : List ℕ) (fallback : Option ℕ)
  | selected (ids : List ℕ) (fallback : Option ℕ)
  | discarded (fallback : Option ℕ)
  | restoring (versionId : ℕ)
  | ready
  | reported
  | refused
  deriving DecidableEq

/-- What a session is doing. -/
inductive Phase where
  | idle
  | queued (job : Job)
  | working (stage : Stage) (w : Worker)
  | resuming (runId : ℕ) (run : WorkedRun)
  | resumeClear (runId : ℕ) (run : WorkedRun)
  | abandoning (a : Abandonment) (stage : AbandonStage)
  deriving DecidableEq

/-! ## The system -/

/-- The rows, the session locks and the sessions.  Beside them stand the jobs that were scheduled,
the runs that were reported abandoned, and for each checkpoint, completion and failure the token
issued to the worker and the token of the row. -/
structure System (S : Type) where
  runs : ℕ → Option WorkedRun
  ids : List ℕ
  versions : List StudyMaterialVersion
  held : Place → Option S
  phase : S → Phase
  issued : List Job
  written : List (ℕ × Option ℕ)
  abandoned : List ℕ

variable {S : Type}

namespace System

/-- The rows of the runs, as a table. -/
def table (sys : System S) : Table :=
  ⟨fun k => (sys.runs k).map WorkedRun.toGenerationRun, fun _ => none, fun _ => none⟩

/-- The worker of a session, at a stage. -/
def worker (sys : System S) (s : S) (stage : Stage) : Option Worker :=
  match sys.phase s with
  | .working at' w => if at' = stage then some w else none
  | _ => none

/-- The request to abandon of a session, at a stage. -/
def abandonment (sys : System S) (s : S) (stage : AbandonStage) : Option Abandonment :=
  match sys.phase s with
  | .abandoning a at' => if at' = stage then some a else none
  | _ => none

/-- `get_by_id`: the row is loaded, or it is the one that the worker still refers to. -/
def reread (sys : System S) (w : Worker) (fresh : Bool) : Option Worker :=
  if fresh then (sys.runs w.job.runId).map fun row => { w with run := row } else some w

/-- Write the row of a run. -/
def setRun (sys : System S) (runId : ℕ) (row : WorkedRun) : System S :=
  { sys with runs := Function.update sys.runs runId (some row) }

/-- Write the versions. -/
def setVersions (sys : System S) (versions : List StudyMaterialVersion) : System S :=
  { sys with versions := versions }

/-- A worker's `UPDATE` of its run, and the commit behind it. -/
def writeRun (sys : System S) (w : Worker) (guard : WorkedRun → Bool)
    (f : WorkedRun → WorkedRun) : System S :=
  match sys.runs w.job.runId with
  | some row =>
    if guard row then
      { sys.setRun w.job.runId (f row) with
        written := (w.job.executionToken, row.executionToken) :: sys.written }
    else sys
  | none => sys

/-- `update_request_params`, which stores a result; it has no condition. -/
def storeResult (sys : System S) (w : Worker) (result : RunResult) : System S :=
  match sys.runs w.job.runId with
  | some row => sys.setRun w.job.runId { row with result := some result }
  | none => sys

/-- A job is scheduled with a new token. -/
def issue (sys : System S) (runId token : ℕ) : System S :=
  { sys with issued := ⟨runId, token⟩ :: sys.issued }

/-- `supersede_stale_runs`. -/
def supersede (sys : System S) (q : StartRequest) (now : ℕ) : System S :=
  { sys with
    runs := fun k => (sys.runs k).map fun row =>
      if q.supersedeExisting && supersedable q.place row.toGenerationRun then
        { row with status := .superseded, updatedAt := now }
      else row }

/-- `start_run`; the coordinator lock is held from the first statement to the commit. -/
def start (sys : System S) (q : StartRequest) (nodeId : ℕ) (mode : GenerationMode)
    (now : ℕ) (choice : Option ℕ) : Option (System S) :=
  let after := sys.supersede q now
  if sys.runs q.runId = none ∧ q.executionToken ∉ sys.issued.map Job.executionToken ∧
      IsActiveRun after.table sys.ids 0 q.place choice ∧ ¬ FoundRunning after.table 0 choice then
    some { (after.setRun q.runId { newRun now q with nodeId := nodeId, mode := mode }).issue
        q.runId q.executionToken with ids := q.runId :: sys.ids }
  else none

variable [DecidableEq S]

/-- A session goes on to another phase. -/
def enter (sys : System S) (s : S) (phase : Phase) : System S :=
  { sys with phase := Function.update sys.phase s phase }

/-- `release_generation_lock`. -/
def release (sys : System S) (s : S) : System S :=
  { sys with held := fun place => (sys.held place).filter fun t => t ≠ s }

end System

/-! ## Steps -/

/-- The stages at which an exception ends what the worker does. -/
def Stage.raises : Stage → Bool
  | .loaded | .failing | .failRead | .ended => false
  | _ => true

/-- What can happen.  A start and the check of a resume come with what `get_active_run` finds, and a
node of the graph with the state that it leaves and whether it is the last. -/
inductive Event (S : Type) where
  | start (q : StartRequest) (nodeId : ℕ) (mode : GenerationMode) (now : ℕ) (choice : Option ℕ)
  | deliver (s : S) (job : Job)
  | load (s : S)
  | lock (s : S)
  | giveUp (s : S)
  | settle (s : S) (fresh : Bool)
  | list (s : S)
  | startGraph (s : S) (fresh empty : Bool)
  | check (s : S)
  | checkpoint (s : S) (state : ℕ) (last : Bool)
  | skip (s : S) (last : Bool)
  | finalize (s : S)
  | persist (s : S) (newId : ℕ) (basedOn : Option ℕ)
  | vague (s : S)
  | store (s : S)
  | complete (s : S) (now : ℕ)
  | raise (s : S)
  | readFail (s : S) (fresh : Bool)
  | fail (s : S) (now : ℕ) (nextLlmRetryAt : Option ℕ)
  | unlock (s : S)
  | endJob (s : S)
  | reconcile (s : S) (now : ℕ)
  | leave (s : S)
  | pause (runId mentorId now : ℕ)
  | readResume (s : S) (runId mentorId now : ℕ)
  | clearResume (s : S) (choice : Option ℕ)
  | resume (s : S) (token now : ℕ)
  | sweep (runId threshold now : ℕ)
  | publish (nodeId versionId : ℕ) (superseded : RetentionMode)
  | readAbandon (s : S) (runId mentorId : ℕ)
  | listOutput (s : S)
  | select (s : S)
  | discard (s : S)
  | readRestore (s : S)
  | restore (s : S)
  | abandon (s : S) (now : ℕ) (fresh : Bool)

section Steps

variable [DecidableEq S]

/-- A step of a worker. -/
def System.work (sys : System S) : Event S → Option (System S)
  | .deliver s job =>
    -- a job that was scheduled may be delivered any number of times
    if sys.phase s = .idle ∧ job ∈ sys.issued then some (sys.enter s (.queued job)) else none
  | .load s =>
    match sys.phase s with
    | .queued job => (sys.runs job.runId).map fun row =>
      if row.status = .running then
        sys.enter s (.working .loaded ⟨job, row.executionToken, row⟩)
      else sys.enter s .idle
    | _ => none
  | .lock s => (sys.worker s .loaded).bind fun w =>
    if sys.held w.run.place = none then
      some (System.enter { sys with held := Function.update sys.held w.run.place (some s) } s
        (.working .locked w))
    else none
  | .giveUp s => (sys.worker s .loaded).bind fun w =>
    if sys.held w.run.place = none then none else some (sys.enter s (.working .failing w))
  | .settle s fresh => (sys.worker s .locked).bind fun w =>
    if w.run.place.pipeline = .studyMaterial then
      (sys.reread w fresh).map fun w =>
        if w.run.status ≠ .running then sys.enter s (.working .ended w)
        else if w.run.result ≠ none then sys.enter s (.working .stored w)
        else sys.enter s (.working .listing w)
    else some (sys.enter s (.working .ready w))
  | .list s => (sys.worker s .listing).map fun w =>
    match listVersionsByGenerationRunId sys.versions w.run.nodeId w.job.runId with
    | v :: _ => sys.enter s (.working (.persisted v.versionId) w)
    | [] => sys.enter s (.working .ready w)
  | .startGraph s fresh empty => (sys.worker s .ready).bind fun w =>
    (sys.reread w fresh).map fun w =>
      sys.enter s (.working (if empty then .finished else .graph) w)
  | .check s => (sys.worker s .graph).bind fun w =>
    (sys.runs w.job.runId).map fun row =>
      sys.enter s (.working
        (if shouldContinue w.run.toGenerationRun row.toGenerationRun then .checked else .ended) w)
  | .checkpoint s state last => (sys.worker s .checked).map fun w =>
    (sys.writeRun w (fun row => row.status = .running)
      fun row => { row with checkpointState := some state }).enter s
        (.working (if last then .finished else .graph) w)
  | .skip s last => (sys.worker s .checked).map fun w =>
    -- the node has failed: its output is not stored
    sys.enter s (.working (if last then .finished else .graph) w)
  | .finalize s => (sys.worker s .finished).bind fun w =>
    if w.run.place.pipeline = .studyMaterial then
      (sys.runs w.job.runId).map fun row =>
        sys.enter s (.working (if row.status = .running then .active else .ended) w)
    else some (sys.enter s (.working .stored w))
  | .persist s newId basedOn => (sys.worker s .active).bind fun w =>
    if newId ∈ sys.versions.map StudyMaterialVersion.versionId then none
    else some ((sys.setVersions
      (Material.createVersion sys.versions w.run.nodeId newId basedOn (some w.job.runId))).enter s
        (.working (.persisted newId) w))
  | .vague s => (sys.worker s .active).bind fun w =>
    if w.run.mode = .generate then none
    else some ((sys.storeResult w .vague).enter s (.working .stored w))
  | .store s =>
    match sys.phase s with
    | .working (.persisted versionId) w =>
      some ((sys.storeResult w (.version versionId)).enter s (.working .stored w))
    | _ => none
  | .complete s now => (sys.worker s .stored).map fun w =>
    (sys.writeRun w (fun row => ChangeKind.complete.guard w.run.toGenerationRun row.toGenerationRun)
      fun row => row.change .complete now).enter s (.working .ended w)
  | .raise s =>
    match sys.phase s with
    | .working stage w => if stage.raises then some (sys.enter s (.working .failing w)) else none
    | _ => none
  | .readFail s fresh => (sys.worker s .failing).bind fun w =>
    (sys.reread w fresh).map fun w => sys.enter s (.working .failRead w)
  | .fail s now retryAt => (sys.worker s .failRead).map fun w =>
    -- the runner fails the run, and so does its caller
    (sys.writeRun w
      (fun row => (ChangeKind.fail retryAt).guard w.run.toGenerationRun row.toGenerationRun)
      fun row => row.change (.fail retryAt) now).enter s (.working .failing w)
  | .unlock s =>
    match sys.phase s with
    | .working .failing _ | .working .ended _ => some (sys.release s)
    | _ => none
  | .endJob s => (sys.worker s .failing).map fun w => sys.enter s (.working .ended w)
  | .reconcile s now => (sys.worker s .ended).bind fun w =>
    if w.loadedToken = none then none
    else some (((sys.writeRun w
      (fun row => row.status = .running && row.executionToken = w.loadedToken)
      fun row => row.change (.fail none) now).release s).enter s .idle)
  | .leave s => if sys.phase s = .idle then none else some ((sys.release s).enter s .idle)
  | _ => none

/-- A step of a request to pause or to resume, or of the sweep. -/
def System.request (sys : System S) : Event S → Option (System S)
  | .start q nodeId mode now choice => sys.start q nodeId mode now choice
  | .pause runId mentorId now => (sys.runs runId).bind fun row =>
    if (ChangeKind.pause mentorId).admits row.toGenerationRun then
      some (sys.setRun runId (row.change (.pause mentorId) now))
    else none
  | .readResume s runId mentorId now => (sys.runs runId).bind fun row =>
    if sys.phase s = .idle ∧ row.mentorId = mentorId ∧
      validateResumable now row.toGenerationRun then
      some (sys.enter s (.resuming runId row))
    else none
  | .clearResume s choice =>
    match sys.phase s with
    | .resuming runId run =>
      if IsActiveRun sys.table sys.ids 0 run.place choice ∧
          ¬ (choice ≠ some runId ∧ FoundRunning sys.table 0 choice) then
        some (sys.enter s (.resumeClear runId run))
      else none
    | _ => none
  | .resume s token now =>
    match sys.phase s with
    | .resumeClear runId run =>
      if token ∈ sys.issued.map Job.executionToken then none
      else (sys.runs runId).map fun row =>
        -- the count is taken from the row as it was read
        ((sys.setRun runId { row with
          status := .running
          executionToken := some token
          attemptCount := run.attemptCount + 1
          updatedAt := now }).issue runId token).enter s .idle
    | _ => none
  | .sweep runId threshold now => (sys.runs runId).bind fun row =>
    if staleRunning threshold none row.toGenerationRun then
      some (sys.setRun runId (row.change (.fail none) now))
    else none
  | _ => none

/-- A step of a request on study material: a publish, or an abandonment. -/
def System.discarding (sys : System S) : Event S → Option (System S)
  | .publish nodeId versionId superseded =>
    (Material.step sys.versions (.publish nodeId versionId superseded)).map sys.setVersions
  | .readAbandon s runId mentorId => (sys.runs runId).bind fun row =>
    if sys.phase s = .idle ∧ (ChangeKind.abandon mentorId).admits row.toGenerationRun then
      some (sys.enter s (.abandoning { runId := runId, run := row } .checked))
    else none
  | .listOutput s => (sys.abandonment s .checked).map fun a =>
    let ids := (a.run.toMaterial a.runId).versionIds sys.versions
    if a.run.place.pipeline ≠ .studyMaterial ∨ ids = [] then sys.enter s (.abandoning a .ready)
    else
      sys.enter s (.abandoning a (.listed ids
        (((getActiveVersion sys.versions a.run.nodeId).filter fun v => v.versionId ∈ ids).bind
          StudyMaterialVersion.basedOnVersionId)))
  | .select s =>
    match sys.phase s with
    | .abandoning a (.listed ids fallback) =>
      some (sys.enter s (.abandoning a (.selected
        ((sys.versions.filter fun v => v.versionId ∈ ids ∧ v.OnDesk).map
          StudyMaterialVersion.versionId) fallback)))
    | _ => none
  | .discard s =>
    match sys.phase s with
    | .abandoning a (.selected ids fallback) =>
      -- the condition is not asked again
      some ((sys.setVersions (sys.versions.map fun v =>
        if v.versionId ∈ ids then v.transitionToDiscarded else v)).enter s
          (.abandoning { a with changed := ids ++ a.changed } (.discarded fallback)))
    | _ => none
  | .readRestore s =>
    match sys.phase s with
    | .abandoning a (.discarded fallback) =>
      some (sys.enter s (.abandoning a
        (match Material.restoredVersion sys.versions a.run.nodeId fallback with
          | some v => .restoring v.versionId
          | none => .ready)))
    | _ => none
  | .restore s =>
    match sys.phase s with
    | .abandoning a (.restoring versionId) =>
      some ((sys.setVersions
          (updateVersion sys.versions versionId StudyMaterialVersion.activate)).enter
        s (.abandoning { a with changed := versionId :: a.changed } .ready))
    | _ => none
  | .abandon s now fresh => (sys.abandonment s .ready).bind fun a =>
    (sys.runs a.runId).map fun row =>
      let reported := System.enter { sys with abandoned := a.runId :: sys.abandoned } s
        (.abandoning a .reported)
      if row.status ∈ ACTIVE_RUN_STATUSES then
        reported.setRun a.runId (row.change (.abandon a.run.mentorId) now)
      else if fresh ∧ row.status ≠ .abandoned then sys.enter s (.abandoning a .refused)
      -- a row that is not loaded again has taken the values of the `UPDATE`
      else reported
  | _ => none

/-- One step.  Each event belongs to one of the three. -/
def step (sys : System S) (e : Event S) : Option (System S) :=
  (sys.work e).or ((sys.request e).or (sys.discarding e))

end Steps

/-- No runs and no requests, and versions that no run has made. -/
structure Fresh (sys : System S) : Prop where
  runs : ∀ k, sys.runs k = none
  idle : ∀ s, sys.phase s = .idle
  issued : sys.issued = []
  written : sys.written = []
  abandoned : sys.abandoned = []
  keys : (sys.versions.map StudyMaterialVersion.versionId).Nodup
  versions : ∀ v ∈ sys.versions,
    v.generationRunId = none ∧ (v.isPublished = true → v.lifecycleStatus = .active)

/-! ## Laws of the parts of a step -/

section Rows

variable {sys sys' : System S} {s : S} {w w' : Worker} {k : ℕ} {row : WorkedRun}

@[simp] theorem runs_setVersions (versions : List StudyMaterialVersion) :
    (sys.setVersions versions).runs = sys.runs := rfl
@[simp] theorem versions_setVersions (versions : List StudyMaterialVersion) :
    (sys.setVersions versions).versions = versions := rfl
@[simp] theorem phase_setVersions (versions : List StudyMaterialVersion) :
    (sys.setVersions versions).phase = sys.phase := rfl

@[simp] theorem versions_setRun : (sys.setRun k row).versions = sys.versions := rfl
@[simp] theorem phase_setRun : (sys.setRun k row).phase = sys.phase := rfl
@[simp] theorem held_setRun : (sys.setRun k row).held = sys.held := rfl
@[simp] theorem written_setRun : (sys.setRun k row).written = sys.written := rfl
@[simp] theorem abandoned_setRun : (sys.setRun k row).abandoned = sys.abandoned := rfl

theorem runs_setRun (j : ℕ) :
    (sys.setRun k row).runs j = if j = k then some row else sys.runs j := by
  simp [System.setRun, Function.update_apply]

theorem worker_eq_some {stage : Stage} :
    sys.worker s stage = some w ↔ sys.phase s = .working stage w := by
  unfold System.worker
  cases hphase : sys.phase s with
  | working at' w' => by_cases hstage : at' = stage <;> simp [hstage]
  | _ => simp

theorem abandonment_eq_some {stage : AbandonStage} {a : Abandonment} :
    sys.abandonment s stage = some a ↔ sys.phase s = .abandoning a stage := by
  unfold System.abandonment
  cases hphase : sys.phase s with
  | abandoning a' at' => by_cases hstage : at' = stage <;> simp [hstage]
  | _ => simp

/-- A read finds the row that is held, or the committed one. -/
theorem reread_cases {fresh : Bool} (h : sys.reread w fresh = some w') :
    w' = w ∨ fresh = true ∧ ∃ row, sys.runs w.job.runId = some row ∧
      w' = { w with run := row } := by
  unfold System.reread at h
  split_ifs at h with hfresh
  · obtain ⟨row, hrow, rfl⟩ := Option.map_eq_some_iff.1 h
    exact Or.inr ⟨hfresh, row, hrow, rfl⟩
  · exact Or.inl (Option.some.inj h).symm

/-- **All that an `UPDATE` of a worker does.** -/
theorem writeRun_cases (sys : System S) (w : Worker) (guard : WorkedRun → Bool)
    (f : WorkedRun → WorkedRun) :
    sys.writeRun w guard f = sys ∨
      ∃ row, sys.runs w.job.runId = some row ∧ guard row = true ∧
        sys.writeRun w guard f = { sys.setRun w.job.runId (f row) with
          written := (w.job.executionToken, row.executionToken) :: sys.written } := by
  unfold System.writeRun
  cases hrow : sys.runs w.job.runId with
  | none => exact Or.inl rfl
  | some row =>
    dsimp only
    split_ifs with hguard
    · exact Or.inr ⟨row, rfl, hguard, rfl⟩
    · exact Or.inl rfl

theorem storeResult_eq (hrow : sys.runs w.job.runId = some row) (result : RunResult) :
    sys.storeResult w result = sys.setRun w.job.runId { row with result := some result } := by
  rw [System.storeResult, hrow]

theorem storeResult_cases (sys : System S) (w : Worker) (result : RunResult) :
    sys.storeResult w result = sys ∨
      ∃ row, sys.runs w.job.runId = some row ∧
        sys.storeResult w result = sys.setRun w.job.runId { row with result := some result } := by
  cases hrow : sys.runs w.job.runId with
  | none => exact Or.inl (by rw [System.storeResult, hrow])
  | some row => exact Or.inr ⟨row, rfl, storeResult_eq hrow result⟩

end Rows

section Sessions

variable [DecidableEq S] {sys sys' : System S} {s t : S}

@[simp] theorem runs_enter (phase : Phase) : (sys.enter s phase).runs = sys.runs := rfl
@[simp] theorem versions_enter (phase : Phase) : (sys.enter s phase).versions = sys.versions := rfl
@[simp] theorem held_enter (phase : Phase) : (sys.enter s phase).held = sys.held := rfl
@[simp] theorem written_enter (phase : Phase) : (sys.enter s phase).written = sys.written := rfl
@[simp] theorem abandoned_enter (phase : Phase) :
    (sys.enter s phase).abandoned = sys.abandoned := rfl

@[simp] theorem runs_release : (sys.release s).runs = sys.runs := rfl
@[simp] theorem versions_release : (sys.release s).versions = sys.versions := rfl
@[simp] theorem phase_release : (sys.release s).phase = sys.phase := rfl
@[simp] theorem written_release : (sys.release s).written = sys.written := rfl
@[simp] theorem abandoned_release : (sys.release s).abandoned = sys.abandoned := rfl

theorem phase_enter (phase : Phase) :
    (sys.enter s phase).phase t = if t = s then phase else sys.phase t := by
  simp [System.enter, Function.update_apply]

/-- A step is one of a worker, of a request on a run, or of a request on study material. -/
theorem step_cases {e : Event S} (h : step sys e = some sys') :
    sys.work e = some sys' ∨ sys.request e = some sys' ∨ sys.discarding e = some sys' := by
  unfold step at h
  rcases Option.or_eq_some_iff.1 h with hwork | ⟨-, hrest⟩
  · exact Or.inl hwork
  · rcases Option.or_eq_some_iff.1 hrest with hrequest | ⟨-, hdiscarding⟩
    · exact Or.inr (Or.inl hrequest)
    · exact Or.inr (Or.inr hdiscarding)

end Sessions

/-! ## What a step of a worker does -/

/-- A worker goes on, and writes nothing. -/
inductive Moves (sys : System S) (w : Worker) : Stage → Stage → Prop
  | givenUp : Moves sys w .loaded .failing
  | settled (hpipeline : w.run.place.pipeline ≠ .studyMaterial) : Moves sys w .locked .ready
  | found {v : StudyMaterialVersion} {rest : List StudyMaterialVersion}
      (hlist : listVersionsByGenerationRunId sys.versions w.run.nodeId w.job.runId = v :: rest) :
      Moves sys w .listing (.persisted v.versionId)
  | notFound
      (hlist : listVersionsByGenerationRunId sys.versions w.run.nodeId w.job.runId = []) :
      Moves sys w .listing .ready
  | checked {row : WorkedRun} (hrow : sys.runs w.job.runId = some row)
      (hcontinue : shouldContinue w.run.toGenerationRun row.toGenerationRun = true) :
      Moves sys w .graph .checked
  | halted : Moves sys w .graph .ended
  | skipped (last : Bool) : Moves sys w .checked (if last then .finished else .graph)
  | active (hpipeline : w.run.place.pipeline = .studyMaterial) : Moves sys w .finished .active
  | inactive : Moves sys w .finished .ended
  | handedOver (hpipeline : w.run.place.pipeline ≠ .studyMaterial) : Moves sys w .finished .stored
  | raised {stage : Stage} (hraises : stage.raises = true) : Moves sys w stage .failing
  | ended : Moves sys w .failing .ended

/-- A worker reads its row, loading it again or not, and goes on with what it has read. -/
inductive Rereads (w w' : Worker) (s : S) (fresh : Bool) : Event S → Stage → Stage → Prop
  | halted : Rereads w w' s fresh (.settle s fresh) .locked .ended
  | done (hpipeline : w.run.place.pipeline = .studyMaterial) (hresult : w'.run.result ≠ none) :
      Rereads w w' s fresh (.settle s fresh) .locked .stored
  | settled (hpipeline : w.run.place.pipeline = .studyMaterial) :
      Rereads w w' s fresh (.settle s fresh) .locked .listing
  | graph (empty : Bool) : Rereads w w' s fresh (.startGraph s fresh empty) .ready
      (if empty then .finished else .graph)
  | failed : Rereads w w' s fresh (.readFail s fresh) .failing .failRead

/-- A worker writes its row where a condition on the row holds, and goes on. -/
inductive Writes (w : Worker) (s : S) :
    Event S → Stage → (WorkedRun → Bool) → (WorkedRun → WorkedRun) → Stage → Prop
  | checkpoint (state : ℕ) (last : Bool) : Writes w s (.checkpoint s state last) .checked
      (fun row => row.status = .running) (fun row => { row with checkpointState := some state })
      (if last then .finished else .graph)
  | complete (now : ℕ) : Writes w s (.complete s now) .stored
      (fun row => ChangeKind.complete.guard w.run.toGenerationRun row.toGenerationRun)
      (fun row => row.change .complete now) .ended
  | fail (now : ℕ) (retryAt : Option ℕ) : Writes w s (.fail s now retryAt) .failRead
      (fun row => (ChangeKind.fail retryAt).guard w.run.toGenerationRun row.toGenerationRun)
      (fun row => row.change (.fail retryAt) now) .failing

/-- A worker has a result for the row of its run. -/
inductive HasResult (w : Worker) : Stage → RunResult → Prop
  | vague : HasResult w .active .vague
  | version (versionId : ℕ) : HasResult w (.persisted versionId) (.version versionId)

/-- **What a step of a worker does.** -/
inductive Worked [DecidableEq S] (sys : System S) (s : S) : Event S → System S → Prop
  | stopped {e : Event S} {phase : Phase} (hphase : phase = .idle ∨ ∃ job, phase = .queued job) :
      Worked sys s e (sys.enter s phase)
  | loaded {job : Job} {row : WorkedRun} (hphase : sys.phase s = .queued job)
      (hrow : sys.runs job.runId = some row) (hrunning : row.status = .running) :
      Worked sys s (.load s) (sys.enter s (.working .loaded ⟨job, row.executionToken, row⟩))
  | locked {w : Worker} (hphase : sys.phase s = .working .loaded w)
      (hfree : sys.held w.run.place = none) :
      Worked sys s (.lock s) (System.enter
        { sys with held := Function.update sys.held w.run.place (some s) } s (.working .locked w))
  | moved {e : Event S} {w : Worker} {stage stage' : Stage}
      (hphase : sys.phase s = .working stage w) (hmoves : Moves sys w stage stage') :
      Worked sys s e (sys.enter s (.working stage' w))
  | reread {e : Event S} {w w' : Worker} {stage stage' : Stage} {fresh : Bool}
      (hphase : sys.phase s = .working stage w) (hread : sys.reread w fresh = some w')
      (hrereads : Rereads w w' s fresh e stage stage') :
      Worked sys s e (sys.enter s (.working stage' w'))
  | wrote {e : Event S} {w : Worker} {stage stage' : Stage} {guard : WorkedRun → Bool}
      {f : WorkedRun → WorkedRun} (hphase : sys.phase s = .working stage w)
      (hwrites : Writes w s e stage guard f stage') :
      Worked sys s e ((sys.writeRun w guard f).enter s (.working stage' w))
  | inserted {w : Worker} {newId : ℕ} {basedOn : Option ℕ}
      (hphase : sys.phase s = .working .active w)
      (hnew : newId ∉ sys.versions.map StudyMaterialVersion.versionId) :
      Worked sys s (.persist s newId basedOn) ((sys.setVersions (Material.createVersion
        sys.versions w.run.nodeId newId basedOn (some w.job.runId))).enter s
          (.working (.persisted newId) w))
  | stored {e : Event S} {w : Worker} {stage : Stage} {result : RunResult}
      (hphase : sys.phase s = .working stage w) (hresult : HasResult w stage result) :
      Worked sys s e ((sys.storeResult w result).enter s (.working .stored w))
  | unlocked {e : Event S} {w : Worker} {stage : Stage} (hphase : sys.phase s = .working stage w)
      (hstage : stage = .failing ∨ stage = .ended) : Worked sys s e (sys.release s)
  | reconciled {e : Event S} {w : Worker} (now : ℕ) (hphase : sys.phase s = .working .ended w) :
      Worked sys s e (((sys.writeRun w
        (fun row => row.status = .running && row.executionToken = w.loadedToken)
        fun row => row.change (.fail none) now).release s).enter s .idle)
  | left {e : Event S} : Worked sys s e ((sys.release s).enter s .idle)

section Inversion

variable [DecidableEq S] {sys sys' : System S} {s : S} {e : Event S}

/-- **A step of a worker is one of these.** -/
theorem work_cases (h : sys.work e = some sys') : ∃ s, Worked sys s e sys' := by
  cases e with
  | deliver s job =>
    rw [System.work] at h
    split_ifs at h
    cases h
    exact ⟨s, .stopped (Or.inr ⟨job, rfl⟩)⟩
  | load s =>
    rw [System.work] at h
    split at h
    · rename_i job hphase
      obtain ⟨row, hrow, rfl⟩ := Option.map_eq_some_iff.1 h
      split_ifs with hrunning
      · exact ⟨s, .loaded hphase hrow hrunning⟩
      · exact ⟨s, .stopped (Or.inl rfl)⟩
    · cases h
  | lock s =>
    obtain ⟨w, hw, hrest⟩ := Option.bind_eq_some_iff.1 h
    split_ifs at hrest with hfree
    cases hrest
    exact ⟨s, .locked (worker_eq_some.1 hw) hfree⟩
  | giveUp s =>
    obtain ⟨w, hw, hrest⟩ := Option.bind_eq_some_iff.1 h
    split_ifs at hrest
    cases hrest
    exact ⟨s, .moved (worker_eq_some.1 hw) .givenUp⟩
  | settle s fresh =>
    obtain ⟨w, hw, hrest⟩ := Option.bind_eq_some_iff.1 h
    have hphase := worker_eq_some.1 hw
    split_ifs at hrest with hpipeline
    · obtain ⟨w', hread, rfl⟩ := Option.map_eq_some_iff.1 hrest
      split_ifs with hstatus hresult
      · exact ⟨s, .reread hphase hread .halted⟩
      · exact ⟨s, .reread hphase hread (.done hpipeline hresult)⟩
      · exact ⟨s, .reread hphase hread (.settled hpipeline)⟩
    · cases hrest
      exact ⟨s, .moved hphase (.settled hpipeline)⟩
  | list s =>
    obtain ⟨w, hw, rfl⟩ := Option.map_eq_some_iff.1 h
    have hphase := worker_eq_some.1 hw
    split
    · rename_i v rest hlist
      exact ⟨s, .moved hphase (.found hlist)⟩
    · rename_i hlist
      exact ⟨s, .moved hphase (.notFound hlist)⟩
  | startGraph s fresh empty =>
    obtain ⟨w, hw, hrest⟩ := Option.bind_eq_some_iff.1 h
    obtain ⟨w', hread, rfl⟩ := Option.map_eq_some_iff.1 hrest
    exact ⟨s, .reread (worker_eq_some.1 hw) hread (.graph empty)⟩
  | check s =>
    obtain ⟨w, hw, hrest⟩ := Option.bind_eq_some_iff.1 h
    obtain ⟨row, hrow, rfl⟩ := Option.map_eq_some_iff.1 hrest
    have hphase := worker_eq_some.1 hw
    split_ifs with hcontinue
    · exact ⟨s, .moved hphase (.checked hrow hcontinue)⟩
    · exact ⟨s, .moved hphase .halted⟩
  | checkpoint s state last =>
    obtain ⟨w, hw, rfl⟩ := Option.map_eq_some_iff.1 h
    exact ⟨s, .wrote (worker_eq_some.1 hw) (.checkpoint state last)⟩
  | skip s last =>
    obtain ⟨w, hw, rfl⟩ := Option.map_eq_some_iff.1 h
    exact ⟨s, .moved (worker_eq_some.1 hw) (.skipped last)⟩
  | finalize s =>
    obtain ⟨w, hw, hrest⟩ := Option.bind_eq_some_iff.1 h
    have hphase := worker_eq_some.1 hw
    split_ifs at hrest with hpipeline
    · obtain ⟨row, -, rfl⟩ := Option.map_eq_some_iff.1 hrest
      split_ifs
      · exact ⟨s, .moved hphase (.active hpipeline)⟩
      · exact ⟨s, .moved hphase .inactive⟩
    · cases hrest
      exact ⟨s, .moved hphase (.handedOver hpipeline)⟩
  | persist s newId basedOn =>
    obtain ⟨w, hw, hrest⟩ := Option.bind_eq_some_iff.1 h
    split_ifs at hrest with hnew
    cases hrest
    exact ⟨s, .inserted (worker_eq_some.1 hw) hnew⟩
  | vague s =>
    obtain ⟨w, hw, hrest⟩ := Option.bind_eq_some_iff.1 h
    split_ifs at hrest
    cases hrest
    exact ⟨s, .stored (worker_eq_some.1 hw) .vague⟩
  | store s =>
    rw [System.work] at h
    split at h
    · rename_i versionId w hphase
      cases h
      exact ⟨s, .stored hphase (.version versionId)⟩
    · cases h
  | complete s now =>
    obtain ⟨w, hw, rfl⟩ := Option.map_eq_some_iff.1 h
    exact ⟨s, .wrote (worker_eq_some.1 hw) (.complete now)⟩
  | raise s =>
    rw [System.work] at h
    split at h
    · rename_i stage w hphase
      split_ifs at h with hraises
      cases h
      exact ⟨s, .moved hphase (.raised hraises)⟩
    · cases h
  | readFail s fresh =>
    obtain ⟨w, hw, hrest⟩ := Option.bind_eq_some_iff.1 h
    obtain ⟨w', hread, rfl⟩ := Option.map_eq_some_iff.1 hrest
    exact ⟨s, .reread (worker_eq_some.1 hw) hread .failed⟩
  | fail s now retryAt =>
    obtain ⟨w, hw, rfl⟩ := Option.map_eq_some_iff.1 h
    exact ⟨s, .wrote (worker_eq_some.1 hw) (.fail now retryAt)⟩
  | unlock s =>
    rw [System.work] at h
    split at h
    · rename_i hphase
      cases h
      exact ⟨s, .unlocked hphase (Or.inl rfl)⟩
    · rename_i hphase
      cases h
      exact ⟨s, .unlocked hphase (Or.inr rfl)⟩
    · cases h
  | endJob s =>
    obtain ⟨w, hw, rfl⟩ := Option.map_eq_some_iff.1 h
    exact ⟨s, .moved (worker_eq_some.1 hw) .ended⟩
  | reconcile s now =>
    obtain ⟨w, hw, hrest⟩ := Option.bind_eq_some_iff.1 h
    split_ifs at hrest
    cases hrest
    exact ⟨s, .reconciled now (worker_eq_some.1 hw)⟩
  | leave s =>
    rw [System.work] at h
    split_ifs at h
    cases h
    exact ⟨s, .left⟩
  | _ => cases h

omit [DecidableEq S] in
/-- What the writes of a worker leave alone. -/
theorem Writes.keeps {w : Worker} {stage stage' : Stage} {guard : WorkedRun → Bool}
    {f : WorkedRun → WorkedRun} (h : Writes w s e stage guard f stage') (row : WorkedRun) :
    (f row).place = row.place ∧ (f row).nodeId = row.nodeId ∧ (f row).result = row.result ∧
      (f row).executionToken = row.executionToken := by
  cases h <;> exact ⟨rfl, rfl, rfl, rfl⟩

omit [DecidableEq S] in
/-- A version that a worker has found is one of its run. -/
theorem of_found {w : Worker} {v : StudyMaterialVersion} {rest : List StudyMaterialVersion}
    (h : listVersionsByGenerationRunId sys.versions w.run.nodeId w.job.runId = v :: rest) :
    v ∈ sys.versions ∧ v.generationRunId = some w.job.runId := by
  have hmem : v ∈ listVersionsByGenerationRunId sys.versions w.run.nodeId w.job.runId := by
    rw [h]
    exact List.mem_cons_self
  simp only [listVersionsByGenerationRunId, List.mem_filter, decide_eq_true_eq] at hmem
  exact ⟨hmem.1, hmem.2.2.1⟩

omit [DecidableEq S] in
/-- A worker that reads its row again has the same job. -/
theorem job_reread {w w' : Worker} {fresh : Bool} (h : sys.reread w fresh = some w') :
    w'.job = w.job := by
  rcases reread_cases h with rfl | ⟨-, row, -, rfl⟩ <;> rfl

end Inversion

end StudyAgent.Generation.Workers
