import StudyAgent.Generation.Workers

/-!
# The current attempt of a run

Every start and every resume of a run issues a token.  A worker looks at the token when it reads
the row, between the nodes of its graph, and when it fails; its checkpoints and its completion look
at the status only.

Main results:

* `work_current`, `request_current`, `discarding_current` — what one step keeps.
* `written_by_current` — **every checkpoint, completion and failure is that of the attempt whose
  token the row has**, where a worker reads the row only during its own attempt, and a run is
  resumed only while its workers are going to look at the token again.
-/

namespace StudyAgent.Generation.Workers

variable {S : Type}

/-! ## Tokens -/

/-- The token of a run. -/
def System.token (sys : System S) (runId : ℕ) : Option ℕ :=
  (sys.runs runId).bind fun row => row.executionToken

/-- The stages from which a worker may come to a write of its run without another look at the
token. -/
def Stage.heedless : Stage → Bool
  | .graph | .failing | .failRead | .ended => false
  | _ => true

def Phase.job? : Phase → Option Job
  | .queued job => some job
  | _ => none

def Phase.worker? : Phase → Option (Stage × Worker)
  | .working stage w => some (stage, w)
  | _ => none

def Phase.resumed? : Phase → Option ℕ
  | .resumeClear runId _ => some runId
  | _ => none

/-- A worker loads the row of its run only while the token is the one issued to it, and a run is
marked running again only while each of its workers is in the graph, has failed or has ended. -/
def Calm (sys : System S) : Event S → Prop
  | .load s => ∀ job ∈ (sys.phase s).job?, ∀ row ∈ sys.runs job.runId,
    row.status = .running → row.executionToken = some job.executionToken
  | .settle s true | .startGraph s true _ | .readFail s true => ∀ p ∈ (sys.phase s).worker?,
    sys.token p.2.job.runId = some p.2.job.executionToken
  | .resume s _ _ => ∀ runId ∈ (sys.phase s).resumed?, ∀ t, ∀ p ∈ (sys.phase t).worker?,
    p.2.job.runId = runId → p.1.heedless = false
  | _ => True

instance [Fintype S] (sys : System S) : ∀ e, Decidable (Calm sys e)
  | .load s => inferInstanceAs (Decidable (∀ job ∈ (sys.phase s).job?, ∀ row ∈ _, _ → _))
  | .settle s true | .startGraph s true _ | .readFail s true =>
    inferInstanceAs (Decidable (∀ p ∈ (sys.phase s).worker?, _))
  | .resume s _ _ => inferInstanceAs (Decidable (∀ runId ∈ (sys.phase s).resumed?, ∀ _, _))
  | .settle _ false | .startGraph _ false _ | .readFail _ false | .start .. | .deliver .. | .lock _
  | .giveUp _ | .list _ | .check _ | .checkpoint .. | .skip .. | .finalize _ | .persist ..
  | .vague _ | .store _ | .complete .. | .raise _ | .fail .. | .unlock _ | .endJob _
  | .reconcile .. | .leave _ | .pause .. | .readResume .. | .clearResume .. | .sweep ..
  | .publish .. | .readAbandon .. | .listOutput _ | .select _ | .discard _ | .readRestore _
  | .restore _ | .abandon .. => isTrue trivial

/-! ## The invariant -/

/-- What holds of a worker: it knows its own token only, and where it is heedless the row has it. -/
structure Own (token : ℕ → Option ℕ) (stage : Stage) (w : Worker) : Prop where
  run : w.run.executionToken = some w.job.executionToken
  loaded : w.loadedToken = some w.job.executionToken
  current : stage.heedless = true → token w.job.runId = some w.job.executionToken

structure Current (sys : System S) : Prop where
  own : ∀ {s stage w}, sys.phase s = .working stage w → Own sys.token stage w
  written : ∀ p ∈ sys.written, p.2 = some p.1

variable {sys sys' : System S} {s : S} {w w' : Worker} {stage stage' : Stage} {e : Event S}

/-- Tokens stay. -/
def Keeps (sys sys' : System S) : Prop := ∀ {k τ}, sys.token k = some τ → sys'.token k = some τ

theorem token_setRun {k : ℕ} {row row' : WorkedRun} (hrow : sys.runs k = some row)
    (htoken : row'.executionToken = row.executionToken) (j : ℕ) :
    (sys.setRun k row').token j = sys.token j := by
  unfold System.token
  rw [runs_setRun]
  split_ifs with hj
  · simp [hj, hrow, htoken]
  · rfl

theorem Own.mono (h : Own sys.token stage w) (hkeeps : Keeps sys sys') : Own sys'.token stage w :=
  ⟨h.run, h.loaded, fun hheedless => hkeeps (h.current hheedless)⟩

/-- A worker goes on to a stage at which it is not more heedless. -/
theorem Own.advance (h : Own sys.token stage w)
    (hstage : stage'.heedless = true → stage.heedless = true) :
    Own sys.token stage' w :=
  ⟨h.run, h.loaded, fun hheedless => h.current (hstage hheedless)⟩

/-- A worker may read its row while the token is its own. -/
theorem Own.reread {fresh : Bool} (h : Own sys.token stage w)
    (hcalm : fresh = true → sys.token w.job.runId = some w.job.executionToken)
    (hread : sys.reread w fresh = some w') : Own sys.token stage w' := by
  rcases reread_cases hread with rfl | ⟨hfresh, row, hrow, rfl⟩
  · exact h
  · have htoken := hcalm hfresh
    refine ⟨?_, h.loaded, h.current⟩
    simpa [System.token, hrow] using htoken

theorem fresh_current (h : Fresh sys) : Current sys where
  own := fun {s stage w} hworking => by
    rw [h.idle s] at hworking
    cases hworking
  written := by
    rw [h.written]
    simp

theorem Current.mono (h : Current sys) (hphase : sys'.phase = sys.phase)
    (hwritten : sys'.written = sys.written) (hkeeps : Keeps sys sys') : Current sys' := by
  refine ⟨fun hworking => ?_, ?_⟩
  · rw [hphase] at hworking
    exact (h.own hworking).mono hkeeps
  · rw [hwritten]
    exact h.written

theorem Current.setRun (h : Current sys) {k : ℕ} {row row' : WorkedRun}
    (hrow : sys.runs k = some row) (htoken : row'.executionToken = row.executionToken) :
    Current (sys.setRun k row') :=
  h.mono rfl rfl fun hold => (token_setRun hrow htoken _).trans hold

theorem token_writeRun {guard : WorkedRun → Bool} {f : WorkedRun → WorkedRun}
    (hf : ∀ row, (f row).executionToken = row.executionToken) (k : ℕ) :
    (sys.writeRun w guard f).token k = sys.token k := by
  rcases writeRun_cases sys w guard f with hsame | ⟨row, hrow, -, hwrite⟩
  · rw [hsame]
  · rw [hwrite]
    exact token_setRun hrow (hf row) k

/-- **A write that finds the token of its worker in the row.** -/
theorem Current.writeRun (h : Current sys) {guard : WorkedRun → Bool} {f : WorkedRun → WorkedRun}
    (hf : ∀ row, (f row).executionToken = row.executionToken)
    (hguard : ∀ row, sys.runs w.job.runId = some row → guard row = true →
      row.executionToken = some w.job.executionToken) : Current (sys.writeRun w guard f) := by
  rcases writeRun_cases sys w guard f with hsame | ⟨row, hrow, hmatch, hwrite⟩
  · rwa [hsame]
  · rw [hwrite]
    refine ⟨fun hworking => ?_, ?_⟩
    · exact (h.own hworking).mono fun hold => (token_setRun hrow (hf row) _).trans hold
    · intro p hp
      rcases List.mem_cons.1 hp with rfl | hold
      · exact hguard row hrow hmatch
      · exact h.written p hold

theorem Current.storeResult (h : Current sys) (result : RunResult) :
    Current (sys.storeResult w result) := by
  rcases storeResult_cases sys w result with hsame | ⟨row, hrow, hstore⟩
  · rwa [hsame]
  · rw [hstore]
    exact h.setRun hrow rfl

theorem Current.setVersions (h : Current sys) (versions : List Material.StudyMaterialVersion) :
    Current (sys.setVersions versions) := ⟨h.own, h.written⟩

theorem token_storeResult (result : RunResult) (k : ℕ) :
    (sys.storeResult w result).token k = sys.token k := by
  rcases storeResult_cases sys w result with hsame | ⟨row, hrow, hstore⟩
  · rw [hsame]
  · rw [hstore]
    exact token_setRun hrow (by rfl) k

theorem token_supersede (q : StartRequest) (now k : ℕ) :
    (sys.supersede q now).token k = sys.token k := by
  unfold System.token System.supersede
  cases hrow : sys.runs k with
  | none => simp [hrow]
  | some row =>
    simp only [hrow, Option.map_some, Option.bind_some]
    split_ifs <;> rfl

section Steps

variable [DecidableEq S]

theorem Current.enter (h : Current sys) {phase : Phase}
    (hown : ∀ {stage w}, phase = .working stage w → Own sys.token stage w) :
    Current (sys.enter s phase) := by
  refine ⟨fun {t stage w} hworking => ?_, h.written⟩
  rw [phase_enter] at hworking
  split_ifs at hworking
  · exact hown hworking
  · exact h.own hworking

/-- A worker goes on. -/
theorem Current.working (h : Current sys) (hown : Own sys.token stage w) :
    Current (sys.enter s (.working stage w)) :=
  h.enter fun heq => by
    cases heq
    exact hown

theorem Current.release (h : Current sys) : Current (sys.release s) := ⟨h.own, h.written⟩

/-! ## Steps -/

omit [DecidableEq S] in
/-- A worker that writes nothing. -/
theorem Own.moves (h : Own sys.token stage w) (hmoves : Moves sys w stage stage') :
    Own sys.token stage' w := by
  cases hmoves with
  | checked hrow hcontinue =>
    refine ⟨h.run, h.loaded, fun _ => ?_⟩
    simp only [shouldContinue, h.run, Bool.and_eq_true, Bool.or_eq_true, decide_eq_true_eq,
      reduceCtorEq, false_or] at hcontinue
    simp [System.token, hrow, hcontinue.2]
  | givenUp | halted | raised | ended => exact h.advance fun hheedless => by cases hheedless
  | settled | found | notFound | skipped | active | inactive | handedOver =>
    exact h.advance fun _ => rfl

omit [DecidableEq S] in
/-- A worker that reads its row again. -/
theorem Own.rereads {fresh : Bool} (h : Own sys.token stage w) (hcalm : Calm sys e)
    (hphase : sys.phase s = .working stage w) (hread : sys.reread w fresh = some w')
    (hrereads : Rereads w w' s fresh e stage stage') : Own sys.token stage' w' := by
  have hown : Own sys.token stage w' := by
    refine h.reread (fun hfresh => ?_) hread
    subst hfresh
    cases hrereads <;> exact hcalm (_, w) (by rw [hphase]; rfl)
  cases hrereads with
  | halted | done | settled | graph => exact hown.advance fun _ => rfl
  | failed => exact hown.advance id

omit [DecidableEq S] in
/-- **A worker that writes its row** finds its own token there. -/
theorem Own.writes {guard : WorkedRun → Bool} {f : WorkedRun → WorkedRun}
    (h : Own sys.token stage w) (hwrites : Writes w s e stage guard f stage') :
    Own sys.token stage' w ∧ ∀ row, sys.runs w.job.runId = some row → guard row = true →
      row.executionToken = some w.job.executionToken := by
  cases hwrites with
  | checkpoint state last =>
    refine ⟨h.advance fun _ => rfl, fun row hrow _ => ?_⟩
    simpa [System.token, hrow] using h.current rfl
  | complete now =>
    refine ⟨h.advance fun hheedless => (by cases hheedless), fun row hrow _ => ?_⟩
    simpa [System.token, hrow] using h.current rfl
  | fail now retryAt =>
    refine ⟨h.advance fun hheedless => (by cases hheedless), fun row _ hguard => ?_⟩
    -- the condition of the update names the token
    simp only [ChangeKind.guard, h.run, Bool.and_eq_true, Bool.or_eq_true, decide_eq_true_eq,
      reduceCtorEq, false_or] at hguard
    exact hguard.2

/-- **A step of a worker.** -/
theorem work_current (h : Current sys) (hcalm : Calm sys e) (hstep : sys.work e = some sys') :
    Current sys' := by
  obtain ⟨s, hworked⟩ := work_cases hstep
  cases hworked with
  | stopped hphase =>
    rcases hphase with rfl | ⟨job, rfl⟩
    · exact h.enter fun heq => by cases heq
    · exact h.enter fun heq => by cases heq
  | @loaded job row hphase hrow hrunning =>
    have htoken : row.executionToken = some job.executionToken :=
      hcalm job (by rw [hphase]; rfl) row hrow hrunning
    refine h.working ⟨htoken, htoken, fun _ => ?_⟩
    simp [System.token, hrow, htoken]
  | @locked w hphase hfree =>
    have hown := h.own hphase
    have hheld : Current { sys with held := Function.update sys.held w.run.place (some s) } :=
      ⟨h.own, h.written⟩
    exact hheld.working ⟨hown.run, hown.loaded, fun _ => hown.current rfl⟩
  | moved hphase hmoves => exact h.working ((h.own hphase).moves hmoves)
  | reread hphase hread hrereads =>
    exact h.working ((h.own hphase).rereads hcalm hphase hread hrereads)
  | wrote hphase hwrites =>
    obtain ⟨hown, hmatch⟩ := (h.own hphase).writes hwrites
    have htoken := fun row => (hwrites.keeps row).2.2.2
    exact (h.writeRun htoken hmatch).working
      (hown.mono fun hold => (token_writeRun htoken _).trans hold)
  | inserted hphase hnew =>
    have hown := h.own hphase
    exact (h.setVersions _).working ⟨hown.run, hown.loaded, fun _ => hown.current rfl⟩
  | @stored _ w stage result hphase hresult =>
    have hkeeps : Keeps sys (sys.storeResult w result) :=
      fun hold => (token_storeResult result _).trans hold
    refine (h.storeResult result).working (((h.own hphase).mono hkeeps).advance fun _ => ?_)
    cases hresult <;> rfl
  | unlocked => exact h.release
  | reconciled now hphase =>
    refine Current.enter (Current.release ?_) fun heq => by cases heq
    refine h.writeRun (fun _ => rfl) fun row _ hguard => ?_
    simp only [(h.own hphase).loaded, Bool.and_eq_true, decide_eq_true_eq] at hguard
    exact hguard.2
  | left => exact h.release.enter fun heq => by cases heq

/-- **A step of a request on a run.**  A resume changes the token of its run, so it finds no
heedless worker. -/
theorem request_current (h : Current sys) (hcalm : Calm sys e)
    (hstep : sys.request e = some sys') : Current sys' := by
  cases e with
  | start q nodeId mode now choice =>
    rw [System.request, System.start] at hstep
    split_ifs at hstep with hnew
    cases hstep
    refine h.mono rfl rfl fun {k τ} hold => ?_
    have hne : k ≠ q.runId := by
      rintro rfl
      simp [System.token, hnew.1] at hold
    have hsame : (sys.supersede q now).token k = some τ := (token_supersede q now k).trans hold
    unfold System.token at hsame ⊢
    simpa [System.issue, runs_setRun, hne] using hsame
  | pause runId mentorId now =>
    obtain ⟨row, hrow, hrest⟩ := Option.bind_eq_some_iff.1 hstep
    split_ifs at hrest
    cases hrest
    exact h.setRun hrow rfl
  | readResume s runId mentorId now =>
    obtain ⟨row, -, hrest⟩ := Option.bind_eq_some_iff.1 hstep
    split_ifs at hrest
    cases hrest
    exact h.enter fun heq => by cases heq
  | clearResume s choice =>
    rw [System.request] at hstep
    split at hstep
    · split_ifs at hstep
      cases hstep
      exact h.enter fun heq => by cases heq
    · cases hstep
  | resume s token now =>
    rw [System.request] at hstep
    split at hstep
    · rename_i runId run hphase
      split_ifs at hstep
      obtain ⟨row, hrow, rfl⟩ := Option.map_eq_some_iff.1 hstep
      have hheedful : ∀ {t stage w}, sys.phase t = .working stage w → w.job.runId = runId →
          stage.heedless = false := fun {t stage w} hworking =>
        hcalm runId (by rw [hphase]; rfl) t (stage, w) (by rw [hworking]; rfl)
      refine Current.enter ?_ fun heq => by cases heq
      refine ⟨fun {t stage w} hworking => ?_, h.written⟩
      have hown := h.own (s := t) hworking
      refine ⟨hown.run, hown.loaded, fun hheedless => ?_⟩
      have hother : w.job.runId ≠ runId := by
        intro hsame
        rw [hheedful hworking hsame] at hheedless
        cases hheedless
      have hold := hown.current hheedless
      unfold System.token at hold ⊢
      simpa [System.issue, runs_setRun, hother] using hold
    · cases hstep
  | sweep runId threshold now =>
    obtain ⟨row, hrow, hrest⟩ := Option.bind_eq_some_iff.1 hstep
    split_ifs at hrest
    cases hrest
    exact h.setRun hrow rfl
  | _ => cases hstep

/-- **A step of a request on study material.** -/
theorem discarding_current (h : Current sys) (hstep : sys.discarding e = some sys') :
    Current sys' := by
  cases e with
  | publish nodeId versionId superseded =>
    obtain ⟨versions, -, rfl⟩ := Option.map_eq_some_iff.1 hstep
    exact h.setVersions versions
  | readAbandon s runId mentorId =>
    obtain ⟨row, -, hrest⟩ := Option.bind_eq_some_iff.1 hstep
    split_ifs at hrest
    cases hrest
    exact h.enter fun heq => by cases heq
  | listOutput s =>
    obtain ⟨a, -, rfl⟩ := Option.map_eq_some_iff.1 hstep
    dsimp only
    split_ifs
    · exact h.enter fun heq => by cases heq
    · exact h.enter fun heq => by cases heq
  | select s =>
    rw [System.discarding] at hstep
    split at hstep
    · cases hstep
      exact h.enter fun heq => by cases heq
    · cases hstep
  | discard s =>
    rw [System.discarding] at hstep
    split at hstep
    · cases hstep
      exact (h.setVersions _).enter fun heq => by cases heq
    · cases hstep
  | readRestore s =>
    rw [System.discarding] at hstep
    split at hstep
    · cases hstep
      exact h.enter fun heq => by cases heq
    · cases hstep
  | restore s =>
    rw [System.discarding] at hstep
    split at hstep
    · cases hstep
      exact (h.setVersions _).enter fun heq => by cases heq
    · cases hstep
  | abandon s now fresh =>
    obtain ⟨a, -, hrest⟩ := Option.bind_eq_some_iff.1 hstep
    obtain ⟨row, hrow, rfl⟩ := Option.map_eq_some_iff.1 hrest
    have habandoned : Current { sys with abandoned := a.runId :: sys.abandoned } :=
      ⟨h.own, h.written⟩
    have hreported : Current (System.enter { sys with abandoned := a.runId :: sys.abandoned } s
        (.abandoning a .reported)) := habandoned.enter fun heq => by cases heq
    dsimp only
    split_ifs
    · exact hreported.setRun hrow rfl
    · exact h.enter fun heq => by cases heq
    · exact hreported
  | _ => cases hstep

/-! ## Runs -/

/-- **Every checkpoint, completion and failure of a worker is that of the attempt whose token the
row has**, in any run in which a worker loads the row only during its own attempt and in which a
resume finds no worker that will write without a look at the token. -/
theorem written_by_current (h : Runs.Reachable step Calm Fresh sys) :
    ∀ p ∈ sys.written, p.2 = some p.1 := by
  refine (h.invariant (fun _ hs => fresh_current hs) fun s e s' hinv hcalm hstep => ?_).written
  rcases step_cases hstep with hwork | hrequest | hdiscarding
  · exact work_current hinv hcalm hwork
  · exact request_current hinv hcalm hrequest
  · exact discarding_current hinv hdiscarding

end Steps

/-! ### A run that is resumed -/

/-- A client starts run 1 of the study material of node 5. -/
def startedRun : List (Event Bool) :=
  [.start ⟨1, ⟨.studyMaterial, 5⟩, 9, 100, true, true⟩ 5 .generate 0 none]

/-- The worker of the first attempt comes to its graph. -/
def toGraph : List (Event Bool) :=
  [.deliver true ⟨1, 100⟩, .load true, .lock true, .settle true false, .list true,
    .startGraph true false false]

/-- The run is paused and resumed. -/
def resumedRun : List (Event Bool) :=
  [.pause 1 9 0, .readResume false 1 9 0, .clearResume false (some 1), .resume false 200 0]

def emptySystem : System Bool :=
  ⟨fun _ => none, [], [], fun _ => none, fun _ => .idle, [], [], []⟩

theorem emptySystem_fresh : Fresh emptySystem where
  runs := fun _ => rfl
  idle := fun _ => rfl
  issued := rfl
  written := rfl
  abandoned := rfl
  keys := List.nodup_nil
  versions := by simp [emptySystem]

/-- The first attempt stores a checkpoint and finds the run resumed; the second stores its own. -/
theorem written_by_both_attempts :
    ∃ sys : System Bool, Runs.Reachable step Calm Fresh sys ∧
      sys.written = [(200, some 200), (100, some 100)] ∧ ∀ p ∈ sys.written, p.2 = some p.1 := by
  have hrun : Runs.run (fun sys e => if Calm sys e then step sys e else none) emptySystem
      (startedRun ++ toGraph ++ [Event.check true, .checkpoint true 1 false] ++ resumedRun ++
        [Event.check true, .leave true, .deliver true ⟨1, 200⟩, .load true, .lock true,
          .settle true false, .list true, .startGraph true false false, .check true,
          .checkpoint true 2 false]) = some _ := rfl
  have hreached := Runs.reachable_of_checked emptySystem_fresh hrun
  exact ⟨_, hreached, rfl, written_by_current hreached⟩

/-- The worker of the first attempt has looked at the token when the run is paused and resumed. -/
theorem checkpoint_of_earlier_attempt :
    ∃ sys : System Bool, Runs.Reachable step (fun _ _ => True) Fresh sys ∧
      sys.written = [(100, some 200)] ∧ ¬ ∀ p ∈ sys.written, p.2 = some p.1 := by
  have hrun : Runs.run step emptySystem
      (startedRun ++ toGraph ++ [Event.check true] ++ resumedRun ++
        [Event.checkpoint true 1 false]) = some _ := rfl
  exact ⟨_, Runs.reachable_of_run emptySystem_fresh hrun, rfl, by decide⟩

end StudyAgent.Generation.Workers
