import StudyAgent.Base.ReadCommitted
import StudyAgent.Base.Runs

/-!
# Requests on generation runs

A generation run is a row that requests start, resume, pause, abandon, complete and
fail, each in a transaction of its own session.  Start and resume take the coordinator
lock of the run's pipeline and resource.  A statement is one step; ids, tokens and
times are numbers.

Main results:

* `step_cases`, `next_statement` — all that a step can do.
* `terminal_stays` — **where every run that is marked running can still be resumed, no run
  ever leaves a final status.**
-/

namespace StudyAgent.Generation

open ReadCommitted

/-! ## Rows -/

inductive RunStatus where
  | running
  | failed
  | completed
  | superseded
  | paused
  | abandoned
  deriving DecidableEq

inductive Pipeline where
  | studyMaterial
  | quiz
  | hint
  deriving DecidableEq

/-- What a coordinator lock is for. -/
structure Place where
  pipeline : Pipeline
  resourceId : ℕ
  deriving DecidableEq

/-- A row of `generationruns`; `inputsMatch` is the outcome of `_validate_fingerprint`. -/
structure GenerationRun where
  place : Place
  mentorId : ℕ
  status : RunStatus
  attemptCount : ℕ := 0
  executionToken : Option ℕ := none
  createdAt : ℕ := 0
  updatedAt : ℕ := 0
  nextLlmRetryAt : Option ℕ := none
  inputsMatch : Bool := true
  deriving DecidableEq

/-- `ACTIVE_RUN_STATUSES`, which are also those that can be abandoned. -/
def ACTIVE_RUN_STATUSES : List RunStatus := [.running, .paused, .failed]

/-- `RESUMABLE_RUN_STATUSES`. -/
def RESUMABLE_RUN_STATUSES : List RunStatus := [.paused, .failed]

def MAX_RESUME_ATTEMPTS : ℕ := 5

/-- A status that no request is meant to change. -/
def RunStatus.terminal (status : RunStatus) : Bool := status ∉ ACTIVE_RUN_STATUSES

/-! ## Requests -/

structure StartRequest where
  runId : ℕ
  place : Place
  mentorId : ℕ
  executionToken : ℕ
  supersedeExisting : Bool := true
  inputsMatch : Bool := true
  deriving DecidableEq

structure ResumeRequest where
  runId : ℕ
  mentorId : ℕ
  executionToken : ℕ
  deriving DecidableEq

/-- The requests that are a read, a check and one guarded `UPDATE`. -/
inductive ChangeKind where
  | pause (mentorId : ℕ)
  | abandon (mentorId : ℕ)
  | complete
  | fail (nextLlmRetryAt : Option ℕ)
  deriving DecidableEq

structure ChangeRequest where
  runId : ℕ
  kind : ChangeKind
  deriving DecidableEq

/-- The check of the service on the row it has read. -/
def ChangeKind.admits (run : GenerationRun) : ChangeKind → Bool
  | .pause mentorId => run.mentorId = mentorId && run.status = .running
  | .abandon mentorId => run.mentorId = mentorId && run.status ∈ ACTIVE_RUN_STATUSES
  | .complete => run.status = .running || run.status = .paused
  | .fail _ => true

/-- The `WHERE` of the repository; `run` is the row that was read. -/
def ChangeKind.guard (run : GenerationRun) : ChangeKind → GenerationRun → Bool
  | .pause _, row => row.status = .running
  | .abandon _, row => row.status ∈ ACTIVE_RUN_STATUSES
  | .complete, row => row.status = .running || row.status = .paused
  | .fail _, row => row.status = .running &&
      (run.executionToken = none || row.executionToken = run.executionToken)

/-- The values of the repository. -/
def ChangeKind.apply (now : ℕ) : ChangeKind → GenerationRun → GenerationRun
  | .pause _, row => { row with status := .paused, updatedAt := now }
  | .abandon _, row => { row with status := .abandoned, updatedAt := now }
  | .complete, row => { row with status := .completed, updatedAt := now }
  | .fail retryAt, row =>
    { row with status := .failed, nextLlmRetryAt := retryAt, updatedAt := now }

/-- `_validate_resumable`. -/
def validateResumable (now : ℕ) (run : GenerationRun) : Bool :=
  run.status ∈ RESUMABLE_RUN_STATUSES && run.inputsMatch &&
    run.attemptCount < MAX_RESUME_ATTEMPTS &&
    !(run.status = .failed && run.nextLlmRetryAt.any fun t => now < t)

/-- How far a session has come with its request; the rows it holds are those it has read. -/
inductive Phase where
  | startOpen (q : StartRequest)
  | startLocked (q : StartRequest)
  | superseding (q : StartRequest) (left : List ℕ)
  | startClear (q : StartRequest)
  | resumeOpen (q : ResumeRequest)
  | resumeRead (q : ResumeRequest) (run : GenerationRun)
  | resumeClear (q : ResumeRequest) (run : GenerationRun)
  | resumeLocked (q : ResumeRequest) (run : GenerationRun)
  | resumeCounted (q : ResumeRequest) (run : GenerationRun)
  | changeOpen (c : ChangeRequest)
  | changeRead (c : ChangeRequest) (run : GenerationRun)
  | recoverOpen (threshold : ℕ)
  | recovering (threshold : ℕ) (left : List (ℕ × Option ℕ))
  | done (made : Option ℕ)
  deriving DecidableEq

/-- The phases a request begins in. -/
def Phase.opens : Phase → Bool
  | .startOpen _ | .resumeOpen _ | .changeOpen _ | .recoverOpen _ => true
  | _ => false

/-! ## The system -/

abbrev Table := Store ℕ GenerationRun Place ℕ

/-- The table, the ids that were ever used, and what each session is doing. -/
structure System where
  table : Table
  ids : List ℕ
  phase : ℕ → Option Phase

/-- Nothing in the table and no request. -/
def System.initial : System := ⟨.empty, [], fun _ => none⟩

/-- What `get_active_run` may return; equal times leave a choice. -/
def IsActiveRun (tb : Table) (ids : List ℕ) (t : ℕ) (place : Place) : Option ℕ → Prop
  | none => ∀ k ∈ ids, ∀ r ∈ tb.view t k, r.place = place → r.status ∉ ACTIVE_RUN_STATUSES
  | some k => ∃ r ∈ tb.view t k, r.place = place ∧ r.status ∈ ACTIVE_RUN_STATUSES ∧
      ∀ j ∈ ids, ∀ r' ∈ tb.view t j, r'.place = place → r'.status ∈ ACTIVE_RUN_STATUSES →
        r'.createdAt ≤ r.createdAt

instance (tb : Table) (ids : List ℕ) (t : ℕ) (place : Place) :
    ∀ choice, Decidable (IsActiveRun tb ids t place choice)
  | none => inferInstanceAs (Decidable (∀ k ∈ ids, ∀ r ∈ tb.view t k, _ → _))
  | some k => inferInstanceAs (Decidable (∃ r ∈ tb.view t k, _ ∧ _ ∧ _))

/-- The run found is running. -/
def FoundRunning (tb : Table) (t : ℕ) (choice : Option ℕ) : Prop :=
  ∃ k ∈ choice, ∃ r ∈ tb.view t k, r.status = .running

instance (tb : Table) (t : ℕ) (choice : Option ℕ) : Decidable (FoundRunning tb t choice) :=
  inferInstanceAs (Decidable (∃ k ∈ choice, ∃ r ∈ tb.view t k, _))

/-- `create`. -/
def newRun (now : ℕ) (q : StartRequest) : GenerationRun where
  place := q.place
  mentorId := q.mentorId
  status := .running
  executionToken := some q.executionToken
  createdAt := now
  updatedAt := now
  inputsMatch := q.inputsMatch

/-- `WHERE` of `supersede_stale_runs`. -/
def supersedable (place : Place) (row : GenerationRun) : Bool :=
  row.place = place && row.status ∈ RESUMABLE_RUN_STATUSES

/-- `WHERE` of `mark_stale_failed`. -/
def staleRunning (threshold : ℕ) (token : Option ℕ) (row : GenerationRun) : Bool :=
  row.status = .running && row.updatedAt < threshold &&
    (token = none || row.executionToken = token)

/-- The next statement of a session: the table, the ids and the phase behind it. -/
def next (s : System) (t now : ℕ) (choice : Option ℕ) : Phase → Option (Table × List ℕ × Phase)
  | .startOpen q => (s.table.acquire t q.place).map fun tb => (tb, s.ids, .startLocked q)
  | .startLocked q =>
    let left := s.ids.filter fun k =>
      q.supersedeExisting && (s.table.view t k).any (supersedable q.place)
    some (s.table, s.ids, .superseding q left)
  | .superseding q (k :: left) =>
    (s.table.update t k (supersedable q.place) fun row =>
      { row with status := .superseded, updatedAt := now }).map fun tb =>
        (tb, s.ids, .superseding q left)
  | .superseding q [] =>
    if IsActiveRun s.table s.ids t q.place choice ∧ ¬ FoundRunning s.table t choice then
      some (s.table, s.ids, .startClear q)
    else none
  | .startClear q =>
    if s.table.rows q.runId = none ∧ s.table.pending q.runId = none then
      some (s.table.write t q.runId (newRun now q), q.runId :: s.ids, .done (some q.runId))
    else none
  | .resumeOpen q =>
    match s.table.view t q.runId with
    | some run =>
      if run.mentorId = q.mentorId ∧ validateResumable now run then
        some (s.table, s.ids, .resumeRead q run)
      else none
    | none => none
  | .resumeRead q run =>
    if IsActiveRun s.table s.ids t run.place choice ∧
        ¬ (choice ≠ some q.runId ∧ FoundRunning s.table t choice) then
      some (s.table, s.ids, .resumeClear q run)
    else none
  | .resumeClear q run =>
    (s.table.acquire t run.place).map fun tb => (tb, s.ids, .resumeLocked q run)
  | .resumeLocked q run =>
    -- the count is taken from the row as it was read
    (s.table.update t q.runId (fun _ => true) fun row =>
      { row with attemptCount := run.attemptCount + 1, updatedAt := now }).map fun tb =>
        (tb, s.ids, .resumeCounted q run)
  | .resumeCounted q _ =>
    (s.table.update t q.runId (fun _ => true) fun row =>
      { row with status := .running, executionToken := some q.executionToken,
                 updatedAt := now }).map fun tb => (tb, s.ids, .done (some q.runId))
  | .changeOpen c =>
    match s.table.view t c.runId with
    | some run => if c.kind.admits run then some (s.table, s.ids, .changeRead c run) else none
    | none => none
  | .changeRead c run =>
    (s.table.update t c.runId (c.kind.guard run) (c.kind.apply now)).map fun tb =>
      (tb, s.ids, .done none)
  | .recoverOpen threshold =>
    let left := s.ids.filterMap fun k => (s.table.view t k).bind fun run =>
      if staleRunning threshold none run then some (k, run.executionToken) else none
    some (s.table, s.ids, .recovering threshold left)
  | .recovering threshold ((k, token) :: left) =>
    (s.table.update t k (staleRunning threshold token) fun row =>
      { row with status := .failed, nextLlmRetryAt := none, updatedAt := now }).map fun tb =>
        (tb, s.ids, .recovering threshold left)
  | .recovering _ [] => some (s.table, s.ids, .done none)
  | .done _ => none

inductive Action where
  | start (request : Phase)
  | next (now : ℕ) (choice : Option ℕ)
  | commit
  | rollback
  deriving DecidableEq

/-- One step of a session.  A request that is refused ends with a rollback, or with a commit
where its caller goes on. -/
def step (s : System) (i : ℕ × Action) : Option System :=
  match s.phase i.1, i.2 with
  | none, .start request =>
    if request.opens then some { s with phase := Function.update s.phase i.1 (some request) }
    else none
  | some phase, .next now choice =>
    (next s i.1 now choice phase).map fun p =>
      ⟨p.1, p.2.1, Function.update s.phase i.1 (some p.2.2)⟩
  | some _, .commit =>
    some { s with table := s.table.commit i.1, phase := Function.update s.phase i.1 none }
  | some _, .rollback =>
    some { s with table := s.table.rollback i.1, phase := Function.update s.phase i.1 none }
  | _, _ => none

/-! ## Final statuses -/

/-- A successor of a row: a final status stays. -/
def KeepsTerminal (a b : GenerationRun) : Prop := a.status.terminal = true → b.status = a.status

theorem keepsTerminal_trans (a b c : GenerationRun) (hab : KeepsTerminal a b)
    (hbc : KeepsTerminal b c) : KeepsTerminal a c := by
  intro ha
  have hb := hab ha
  rw [hbc (hb ▸ ha), hb]

theorem keepsTerminal_of_active {a b : GenerationRun} (h : a.status ∈ ACTIVE_RUN_STATUSES) :
    KeepsTerminal a b := by
  intro ha
  simp [RunStatus.terminal, h] at ha

theorem keepsTerminal_apply {kind : ChangeKind} {run row : GenerationRun} (now : ℕ)
    (h : kind.guard run row = true) : KeepsTerminal row (kind.apply now row) := by
  apply keepsTerminal_of_active
  cases kind with
  | pause mentorId => simp [of_decide_eq_true h, ACTIVE_RUN_STATUSES]
  | abandon mentorId => exact of_decide_eq_true h
  | complete =>
    rcases (Bool.or_eq_true _ _).mp h with hs | hs
    · simp [of_decide_eq_true hs, ACTIVE_RUN_STATUSES]
    · simp [of_decide_eq_true hs, ACTIVE_RUN_STATUSES]
  | fail retryAt =>
    have hs := (Bool.and_eq_true _ _).mp h
    simp [of_decide_eq_true hs.1, ACTIVE_RUN_STATUSES]

theorem active_of_supersedable {place : Place} {row : GenerationRun}
    (h : supersedable place row = true) : row.status ∈ ACTIVE_RUN_STATUSES := by
  have hs := of_decide_eq_true ((Bool.and_eq_true _ _).mp h).2
  simp only [RESUMABLE_RUN_STATUSES, ACTIVE_RUN_STATUSES, List.mem_cons, List.not_mem_nil,
    or_false] at hs ⊢
  exact Or.inr hs

theorem running_of_staleRunning {threshold : ℕ} {token : Option ℕ} {row : GenerationRun}
    (h : staleRunning threshold token row = true) : row.status = .running := by
  simp only [staleRunning, Bool.and_eq_true, decide_eq_true_eq] at h
  exact h.1.1

/-- The uncommitted writes keep final statuses. -/
def WritesKeepTerminal (tb : Table) : Prop :=
  tb.Writes fun _ old _ r => ∀ o ∈ old, KeepsTerminal o r

/-- A run is marked running only while its committed status can be resumed. -/
def ResumesResumable (s : System) (i : ℕ × Action) : Prop :=
  match s.phase i.1, i.2 with
  | some (.resumeCounted q _), .next _ _ =>
    ∀ r ∈ s.table.rows q.runId, r.status ∈ RESUMABLE_RUN_STATUSES
  | _, _ => True

instance (s : System) (i : ℕ × Action) : Decidable (ResumesResumable s i) := by
  dsimp only [ResumesResumable]
  split <;> infer_instance

theorem WritesKeepTerminal.acquire {tb tb' : Table} {t : ℕ} {place : Place}
    (h : WritesKeepTerminal tb) (hlock : tb.acquire t place = some tb') :
    WritesKeepTerminal tb' := by
  obtain ⟨-, rfl⟩ := Store.acquire_eq_some hlock
  exact h

theorem WritesKeepTerminal.update {tb tb' : Table} {t k : ℕ} {guard : GenerationRun → Bool}
    {f : GenerationRun → GenerationRun} (h : WritesKeepTerminal tb)
    (hf : ∀ row, guard row = true → KeepsTerminal row (f row))
    (hupdate : tb.update t k guard f = some tb') : WritesKeepTerminal tb' :=
  Store.Writes.update keepsTerminal_trans h hf hupdate

/-- **A statement writes no row whose status is final**, but for the one that marks a
resumed run running. -/
theorem next_writesKeepTerminal {s : System} {t now : ℕ} {choice : Option ℕ} {phase : Phase}
    {p : Table × List ℕ × Phase} (hinv : WritesKeepTerminal s.table)
    (hmark : ∀ q run, phase = .resumeCounted q run →
      ∀ r ∈ s.table.rows q.runId, r.status ∈ RESUMABLE_RUN_STATUSES)
    (h : next s t now choice phase = some p) : WritesKeepTerminal p.1 := by
  cases phase with
  | startOpen q =>
    obtain ⟨tb, htb, rfl⟩ := Option.map_eq_some_iff.1 h
    exact hinv.acquire htb
  | startLocked q =>
    cases h
    exact hinv
  | superseding q left =>
    cases left with
    | nil =>
      rw [next] at h
      split_ifs at h
      cases h
      exact hinv
    | cons k left =>
      obtain ⟨tb, htb, rfl⟩ := Option.map_eq_some_iff.1 h
      exact hinv.update (fun row hrow => keepsTerminal_of_active (active_of_supersedable hrow)) htb
  | startClear q =>
    rw [next] at h
    split_ifs at h with hfresh
    cases h
    refine hinv.write fun o ho => ?_
    rw [hfresh.1] at ho
    exact absurd ho (by simp)
  | resumeOpen q =>
    rw [next] at h
    split at h
    · split_ifs at h
      cases h
      exact hinv
    · cases h
  | resumeRead q run =>
    rw [next] at h
    split_ifs at h
    cases h
    exact hinv
  | resumeClear q run =>
    obtain ⟨tb, htb, rfl⟩ := Option.map_eq_some_iff.1 h
    exact hinv.acquire htb
  | resumeLocked q run =>
    obtain ⟨tb, htb, rfl⟩ := Option.map_eq_some_iff.1 h
    refine hinv.update ?_ htb
    intro row _ _
    rfl
  | resumeCounted q run =>
    obtain ⟨tb, htb, rfl⟩ := Option.map_eq_some_iff.1 h
    rcases Store.update_cases htb with ⟨rfl, -⟩ | ⟨r, -, -, -, rfl⟩
    · exact hinv
    · refine hinv.write fun o ho => keepsTerminal_of_active ?_
      have hresumable := hmark q run rfl o ho
      simp only [RESUMABLE_RUN_STATUSES, ACTIVE_RUN_STATUSES, List.mem_cons, List.not_mem_nil,
        or_false] at hresumable ⊢
      exact Or.inr hresumable
  | changeOpen c =>
    rw [next] at h
    split at h
    · split_ifs at h
      cases h
      exact hinv
    · cases h
  | changeRead c run =>
    obtain ⟨tb, htb, rfl⟩ := Option.map_eq_some_iff.1 h
    exact hinv.update (fun row hrow => keepsTerminal_apply now hrow) htb
  | recoverOpen threshold =>
    cases h
    exact hinv
  | recovering threshold left =>
    cases left with
    | nil =>
      cases h
      exact hinv
    | cons entry left =>
      obtain ⟨tb, htb, rfl⟩ := Option.map_eq_some_iff.1 h
      refine hinv.update (fun row hrow => keepsTerminal_of_active ?_) htb
      simp [running_of_staleRunning hrow, ACTIVE_RUN_STATUSES]
  | done made => cases h

/-- **All that a step can do**: begin a request, run a statement, or end a transaction. -/
theorem step_cases {s s' : System} {t : ℕ} {a : Action} (h : step s (t, a) = some s') :
    (∃ request, a = .start request ∧ s.phase t = none ∧ request.opens = true ∧
      s' = { s with phase := Function.update s.phase t (some request) }) ∨
    (∃ phase now choice p, a = .next now choice ∧ s.phase t = some phase ∧
      next s t now choice phase = some p ∧
      s' = ⟨p.1, p.2.1, Function.update s.phase t (some p.2.2)⟩) ∨
    (a = .commit ∧ s' = { s with table := s.table.commit t,
                                 phase := Function.update s.phase t none }) ∨
    (a = .rollback ∧ s' = { s with table := s.table.rollback t,
                                   phase := Function.update s.phase t none }) := by
  unfold step at h
  cases hphase : s.phase t with
  | none =>
    cases a with
    | start request =>
      simp only [hphase] at h
      split_ifs at h with hopens
      exact Or.inl ⟨request, rfl, rfl, hopens, (Option.some.inj h).symm⟩
    | next now choice => simp [hphase] at h
    | commit => simp [hphase] at h
    | rollback => simp [hphase] at h
  | some phase =>
    cases a with
    | start request => simp [hphase] at h
    | next now choice =>
      simp only [hphase] at h
      obtain ⟨p, hp, rfl⟩ := Option.map_eq_some_iff.1 h
      exact Or.inr (Or.inl ⟨phase, now, choice, p, rfl, rfl, hp, rfl⟩)
    | commit =>
      simp only [hphase, Option.some.injEq] at h
      exact Or.inr (Or.inr (Or.inl ⟨rfl, h.symm⟩))
    | rollback =>
      simp only [hphase, Option.some.injEq] at h
      exact Or.inr (Or.inr (Or.inr ⟨rfl, h.symm⟩))

/-- What `next` does is a statement. -/
theorem next_statement {s : System} {t now : ℕ} {choice : Option ℕ} {phase : Phase}
    {p : Table × List ℕ × Phase} (h : next s t now choice phase = some p) :
    s.table.Statement t p.1 := by
  cases phase with
  | startOpen q =>
    obtain ⟨tb, htb, rfl⟩ := Option.map_eq_some_iff.1 h
    exact .lock htb
  | startLocked q =>
    cases h
    exact .read
  | superseding q left =>
    cases left with
    | nil =>
      rw [next] at h
      split_ifs at h
      cases h
      exact .read
    | cons k left =>
      obtain ⟨tb, htb, rfl⟩ := Option.map_eq_some_iff.1 h
      exact .update htb
  | startClear q =>
    rw [next] at h
    split_ifs at h with hfresh
    cases h
    exact .insert hfresh.1 hfresh.2
  | resumeOpen q =>
    rw [next] at h
    split at h
    · split_ifs at h
      cases h
      exact .read
    · cases h
  | resumeRead q run =>
    rw [next] at h
    split_ifs at h
    cases h
    exact .read
  | resumeClear q run =>
    obtain ⟨tb, htb, rfl⟩ := Option.map_eq_some_iff.1 h
    exact .lock htb
  | resumeLocked q run =>
    obtain ⟨tb, htb, rfl⟩ := Option.map_eq_some_iff.1 h
    exact .update htb
  | resumeCounted q run =>
    obtain ⟨tb, htb, rfl⟩ := Option.map_eq_some_iff.1 h
    exact .update htb
  | changeOpen c =>
    rw [next] at h
    split at h
    · split_ifs at h
      cases h
      exact .read
    · cases h
  | changeRead c run =>
    obtain ⟨tb, htb, rfl⟩ := Option.map_eq_some_iff.1 h
    exact .update htb
  | recoverOpen threshold =>
    cases h
    exact .read
  | recovering threshold left =>
    cases left with
    | nil =>
      cases h
      exact .read
    | cons entry left =>
      obtain ⟨tb, htb, rfl⟩ := Option.map_eq_some_iff.1 h
      exact .update htb
  | done made => cases h

theorem step_writesKeepTerminal {s s' : System} {i : ℕ × Action}
    (hinv : WritesKeepTerminal s.table) (hallowed : ResumesResumable s i)
    (h : step s i = some s') : WritesKeepTerminal s'.table := by
  obtain ⟨t, a⟩ := i
  rcases step_cases h with ⟨request, -, -, -, rfl⟩ | ⟨phase, now, choice, p, rfl, hphase, hp, rfl⟩ |
    ⟨-, rfl⟩ | ⟨-, rfl⟩
  · exact hinv
  · refine next_writesKeepTerminal hinv (fun q run heq => ?_) hp
    subst heq
    unfold ResumesResumable at hallowed
    simpa only [hphase] using hallowed
  · exact hinv.commit t
  · exact hinv.rollback t

/-- One step keeps the final status of every committed row. -/
theorem step_terminal {s s' : System} {i : ℕ × Action} (hinv : WritesKeepTerminal s.table)
    (h : step s i = some s') {k : ℕ} {r : GenerationRun} (hr : s.table.rows k = some r)
    (hterm : r.status.terminal = true) :
    ∃ r', s'.table.rows k = some r' ∧ r'.status = r.status := by
  obtain ⟨t, a⟩ := i
  rcases step_cases h with ⟨request, -, -, -, rfl⟩ | ⟨phase, now, choice, p, rfl, hphase, hp, rfl⟩ |
    ⟨-, rfl⟩ | ⟨-, rfl⟩
  · exact ⟨r, hr, rfl⟩
  · refine ⟨r, ?_, rfl⟩
    show p.1.rows k = some r
    rw [(next_statement hp).frame.rows, hr]
  · rcases Store.Writes.view_cases hinv t k with hsame | ⟨r', hview, hkeeps⟩
    · exact ⟨r, hsame.trans hr, rfl⟩
    · exact ⟨r', hview, hkeeps r hr hterm⟩
  · exact ⟨r, hr, rfl⟩

/-- **Where every run that is marked running can still be resumed, no run ever leaves a final
status.** -/
theorem terminal_stays {s s' : System}
    (hs : Runs.Reachable step ResumesResumable (· = System.initial) s)
    (hs' : Runs.Reachable step ResumesResumable (· = s) s') {k : ℕ} {r : GenerationRun}
    (hr : s.table.rows k = some r) (hterm : r.status.terminal = true) :
    ∃ r', s'.table.rows k = some r' ∧ r'.status = r.status := by
  have hinv : WritesKeepTerminal s.table := by
    refine @Runs.Reachable.invariant _ _ _ _ _ (fun s => WritesKeepTerminal s.table) _ hs ?_ ?_
    · rintro s rfl k t r hp
      exact absurd hp (by simp [System.initial, Store.empty])
    · exact fun s i s' hinv hallowed hstep => step_writesKeepTerminal hinv hallowed hstep
  refine (@Runs.Reachable.invariant _ _ _ _ _ (fun u => WritesKeepTerminal u.table ∧
    ∃ r', u.table.rows k = some r' ∧ r'.status = r.status) _ hs' ?_ ?_).2
  · rintro u rfl
    exact ⟨hinv, r, hr, rfl⟩
  · rintro u i u' ⟨hu, r', hr', hstatus⟩ hallowed hstep
    obtain ⟨r'', hr'', hsame⟩ := step_terminal hu hstep hr' (hstatus ▸ hterm)
    exact ⟨step_writesKeepTerminal hu hallowed hstep, r'', hr'', hsame.trans hstatus⟩

/-- Statements of one session, without a choice. -/
def statements (t n : ℕ) : List (ℕ × Action) := List.replicate n (t, .next 0 none)

/-- A client starts a run of one place. -/
def startedRun (t k : ℕ) : List (ℕ × Action) :=
  [(t, .start (.startOpen ⟨k, ⟨.quiz, 3⟩, 1, 100 + k, true, true⟩))] ++ statements t 4 ++
    [(t, .commit)]

/-- A run is changed by one guarded `UPDATE`. -/
def changedRun (t k : ℕ) (kind : ChangeKind) : List (ℕ × Action) :=
  [(t, .start (.changeOpen ⟨k, kind⟩))] ++ statements t 2 ++ [(t, .commit)]

def statusOf (s : System) (k : ℕ) : Option RunStatus := (s.table.rows k).map GenerationRun.status

/-- The steps that are checked before they are taken. -/
def checkedStep (s : System) (i : ℕ × Action) : Option System :=
  if ResumesResumable s i then step s i else none

/-- Run 7 is completed. -/
def completedSystem : System :=
  (Runs.run checkedStep System.initial (startedRun 0 7 ++ changedRun 1 7 .complete)).get (by decide)

/-- Run 8 is started behind it. -/
def restartedSystem : System :=
  (Runs.run checkedStep completedSystem (startedRun 2 8)).get (by decide)

/-- The completed run stays completed. -/
theorem completed_run_stays :
    ∃ r', restartedSystem.table.rows 7 = some r' ∧ r'.status = .completed :=
  terminal_stays (Runs.reachable_of_checked rfl (Option.some_get _).symm)
    (Runs.reachable_of_checked rfl (Option.some_get _).symm)
    (Option.some_get (show (completedSystem.table.rows 7).isSome by decide)).symm (by decide)

/-! ### A run that is resumed behind its end -/

/-- The resume of a paused run is checked, and the run is abandoned. -/
def abandonedSystem : System :=
  (Runs.run step System.initial (startedRun 0 7 ++ changedRun 1 7 (.pause 1) ++
    [(2, .start (.resumeOpen ⟨7, 1, 200⟩)), (2, .next 0 none), (2, .next 0 (some 7))] ++
    changedRun 3 7 (.abandon 1))).get (by decide)

/-- The resume goes on. -/
def resumedSystem : System :=
  (Runs.run step abandonedSystem (statements 2 3 ++ [(2, .commit)])).get (by decide)

/-- An abandoned run is running again. -/
theorem abandoned_run_resumed :
    Runs.Reachable step (fun _ _ => True) (· = System.initial) abandonedSystem ∧
      Runs.Reachable step (fun _ _ => True) (· = abandonedSystem) resumedSystem ∧
      statusOf abandonedSystem 7 = some .abandoned ∧ statusOf resumedSystem 7 = some .running :=
  ⟨Runs.reachable_of_run rfl (Option.some_get _).symm,
    Runs.reachable_of_run rfl (Option.some_get _).symm, by decide, by decide⟩

end StudyAgent.Generation
