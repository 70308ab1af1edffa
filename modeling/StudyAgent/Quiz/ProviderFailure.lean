import StudyAgent.Quiz.Verified

/-!
# A failure of the provider

A regeneration writes what it has validated over the questions of the draft.  A call that fails
for good ends the run at the node that persists, with an empty list of validated questions.

Main results:

* `step_of_callFails` — a failed call leads to the node that persists.
* `draft_never_survives` — **a failed call leaves a draft without a question**.
-/

namespace StudyAgent.Quiz

variable {L : Library} {s : GraphState} {o : Outcome}

/-! ## Persisting -/

/-- A stored quiz: its active questions and the diagnostics of the run that wrote them. -/
structure StoredQuiz where
  questions : List Question
  qcFailedPermanently : Bool := false
  qcResult : Option StoredResult := none
  deriving DecidableEq

/-- `resolve_qc_result_for_persist`. -/
def resolveQcResultForPersist (s : GraphState) : Bool × Option StoredResult :=
  if s.terminalLlmFailure then (true, s.qcResult)
  else if s.presentWithoutQc ∧ s.qcPassed then (false, none)
  else if s.qcFailedPermanently ∧ s.qcResult ≠ none then (true, s.qcResult)
  else if s.qcResult = some .infraError then (false, s.qcResult)
  else (s.qcFailedPermanently, none)

/-- `replace_quiz_draft_with_questions`: the rows of the questions are deleted, and those that are
given are added. -/
def replaceQuizDraftWithQuestions (_existing : StoredQuiz) (questions : List Question)
    (qcFailedPermanently : Bool) (qcResult : Option StoredResult) : StoredQuiz :=
  ⟨questions, qcFailedPermanently, qcResult⟩

/-- `persist_quiz_draft`, where the run regenerates a quiz. -/
def persistQuizDraft (s : GraphState) (existing : StoredQuiz) : StoredQuiz :=
  let (permanent, result) := resolveQcResultForPersist s
  replaceQuizDraftWithQuestions existing (s.validatedQuestions.getD []) permanent result

/-- A run that regenerates a stored quiz. -/
structure Regeneration where
  config : Config
  stored : StoredQuiz

/-- One step, with what it stores. -/
def stepStored (L : Library) (r : Regeneration) (e : Event) : Option Regeneration :=
  (step L r.config e).map fun c =>
    ⟨c, if r.config.node = .persistQuizDraft then persistQuizDraft r.config.state r.stored
      else r.stored⟩

/-- A run that is asked to regenerate the quiz that is stored. -/
def FreshRegeneration (before : StoredQuiz) (r : Regeneration) : Prop :=
  Fresh r.config ∧ r.config.state.mode = .regenerate ∧ r.stored = before

/-! ## Failures -/

/-- A call of the generator fails for good: that of a whole quiz, or one of a surgical retry. -/
def CallFails (L : Library) (s : GraphState) (o : Outcome) : Prop :=
  match s.qcRetryMode with
  | .none => o.generated = .failed
  | .fullRegeneration => o.generated = .failed
  | .questionPatch => s.current ≠ [] ∧ o.generated = .failed
  | .questionInsert => s.current ≠ [] ∧ o.inserted = .failed
  | .questionPatchThenInsert => s.current ≠ [] ∧ (o.generated = .failed ∨
      (∃ retry, patchStage L s o { merged := s.current } = some (.ok retry)) ∧
        o.inserted = .failed)
  | .questionPrune => False

theorem patchStage_failed (hmode : s.qcRetryMode = .questionPatch ∨
      s.qcRetryMode = .questionPatchThenInsert) (hfailed : o.generated = .failed) (retry : Retry) :
    patchStage L s o retry = some (.error s.terminalFailure) := by
  rw [patchStage, if_pos hmode, hfailed]
  rfl

theorem insertStage_failed (hmode : s.qcRetryMode = .questionInsert ∨
      s.qcRetryMode = .questionPatchThenInsert) (hfailed : o.inserted = .failed) (retry : Retry) :
    insertStage L s o retry = some (.error s.terminalFailure) := by
  rw [insertStage, if_pos hmode, hfailed]
  rfl

/-- **A failed call is a terminal failure**, whatever the call is for. -/
theorem generator_of_callFails (h : CallFails L s o) :
    quizGeneratorNode L s o = some s.terminalFailure := by
  unfold CallFails at h
  rw [quizGeneratorNode]
  cases hmode : s.qcRetryMode with
  | none =>
    rw [hmode] at h
    rw [if_neg (by simp), if_neg (by simp [QUESTION_RETRY_MODES]), generateQuiz, h]
  | fullRegeneration =>
    rw [hmode] at h
    rw [if_neg (by simp), if_neg (by simp [QUESTION_RETRY_MODES]), generateQuiz, h]
  | questionPatch =>
    rw [hmode] at h
    rw [if_neg (by simp), if_pos (by simp [QUESTION_RETRY_MODES]), runQuestionRetry, if_neg h.1,
      patchStage_failed (.inl hmode) h.2]
    rfl
  | questionInsert =>
    rw [hmode] at h
    have hskipped : patchStage L s o { merged := s.current } =
        some (.ok { merged := s.current }) := if_neg (by simp [hmode])
    rw [if_neg (by simp), if_pos (by simp [QUESTION_RETRY_MODES]), runQuestionRetry, if_neg h.1,
      hskipped, Option.bind_some]
    dsimp only
    rw [insertStage_failed (.inl hmode) h.2]
    rfl
  | questionPatchThenInsert =>
    rw [hmode] at h
    rw [if_neg (by simp), if_pos (by simp [QUESTION_RETRY_MODES]), runQuestionRetry, if_neg h.1]
    rcases h.2 with hfailed | ⟨⟨retry, hpatched⟩, hfailed⟩
    · rw [patchStage_failed (.inr hmode) hfailed]
      rfl
    · rw [hpatched, Option.bind_some]
      dsimp only
      rw [insertStage_failed (.inr hmode) hfailed]
      rfl
  | questionPrune =>
    rw [hmode] at h
    exact h.elim

/-- **A failed call leads to the node that persists**, with nothing validated.  No interruption
saves the run, as a node that fails is not recorded. -/
theorem step_of_callFails {e : Event} (h : CallFails L s e.outcome) :
    step L ⟨.quizGenerator, s⟩ e = some ⟨.persistQuizDraft, s.terminalFailure⟩ := by
  have hvisit : visit L ⟨.quizGenerator, s⟩ e.outcome =
      some ⟨.persistQuizDraft, s.terminalFailure⟩ := by
    simp [visit, generator_of_callFails h, Config.follow, routeAfterQuizGenerator,
      GraphState.terminalFailure]
  rw [step, hvisit]
  simp [nodeSucceeded, GraphState.terminalFailure]

/-! ## What is left of the draft -/

/-- The questions of the draft are there still, or a complete quiz is in their place; and there are
some. -/
def Survives (before : StoredQuiz) (questionCount : ℕ) (after : StoredQuiz) : Prop :=
  ((∀ q ∈ before.questions, q ∈ after.questions) ∨ Sound after.questions questionCount) ∧
    after.questions ≠ []

/-- **No draft survives a failed call of the run that regenerates it**, wherever the run is. -/
theorem draft_never_survives {r r₁ r₂ : Regeneration} {e e' : Event}
    (hnode : r.config.node = .quizGenerator) (hfails : CallFails L r.config.state e.outcome)
    (hfailed : stepStored L r e = some r₁) (hpersisted : stepStored L r₁ e' = some r₂)
    (before : StoredQuiz) :
    r₂.config.node = .ended ∧ ¬ Survives before r.config.state.questionCount r₂.stored := by
  obtain ⟨⟨node, s⟩, stored⟩ := r
  dsimp only at hnode hfails
  subst hnode
  rw [stepStored, step_of_callFails hfails] at hfailed
  cases hfailed
  have hended : step L ⟨.persistQuizDraft, s.terminalFailure⟩ e' =
      some ⟨.ended, s.terminalFailure⟩ := by
    rw [step, visit]
    simp [persistQuizDraftNode, rowsInserted, textIds, Config.follow, nodeSucceeded,
      GraphState.terminalFailure]
  rw [stepStored] at hpersisted
  dsimp only at hpersisted
  rw [hended] at hpersisted
  cases hpersisted
  exact ⟨rfl, fun hsurvives => hsurvives.2 rfl⟩

/-- A draft of one question. -/
def storedDraft : StoredQuiz := ⟨[filledQuestion "q0" "What do plants take in?" 0], false, none⟩

/-- A regeneration of that draft, before its first step. -/
def freshRegeneration : Regeneration :=
  ⟨⟨.entryRouter, { mode := .regenerate, questionCount := 3 }⟩, storedDraft⟩

/-- A call that fails for good. -/
def failing : Event := { outcome := { generated := .failed, inserted := .failed } }

/-- A question of a new quiz is found wrong, and the call that is to patch it fails. -/
theorem patch_failure_empties :
    ∃ r r₁ r₂ : Regeneration,
      Runs.run (stepStored plainLibrary) freshRegeneration
        [{}, {}, {}, generating threeItems, {}, verifying wrongReply] = some r ∧
      stepStored plainLibrary r failing = some r₁ ∧ stepStored plainLibrary r₁ {} = some r₂ ∧
      r.config.state.qcRetryMode = .questionPatch ∧
      r₂.config.node = .ended ∧ ¬ Survives storedDraft r.config.state.questionCount r₂.stored := by
  obtain ⟨r, r₁, r₂, hrun, hfailed, hpersisted, hnode, hmode, hcurrent⟩ :
      ∃ r r₁ r₂, Runs.run (stepStored plainLibrary) freshRegeneration
          [{}, {}, {}, generating threeItems, {}, verifying wrongReply] = some r ∧
        stepStored plainLibrary r failing = some r₁ ∧ stepStored plainLibrary r₁ {} = some r₂ ∧
        r.config.node = .quizGenerator ∧ r.config.state.qcRetryMode = .questionPatch ∧
        r.config.state.current ≠ [] := ⟨_, _, _, rfl, rfl, rfl, rfl, rfl, by decide⟩
  have hfails : CallFails plainLibrary r.config.state failing.outcome := by
    rw [CallFails, hmode]
    exact ⟨hcurrent, rfl⟩
  exact ⟨r, r₁, r₂, hrun, hfailed, hpersisted, hmode,
    draft_never_survives hnode hfails hfailed hpersisted storedDraft⟩

/-- The first call of a regeneration fails. -/
theorem first_failure_empties :
    ∃ r r₁ r₂, Runs.Reachable (stepStored plainLibrary) (fun _ _ => True)
        (FreshRegeneration storedDraft) r ∧
      r.config.node = .quizGenerator ∧ CallFails plainLibrary r.config.state failing.outcome ∧
      stepStored plainLibrary r failing = some r₁ ∧ stepStored plainLibrary r₁ {} = some r₂ ∧
      ¬ Survives storedDraft r.config.state.questionCount r₂.stored := by
  have hrun : Runs.run (stepStored plainLibrary) freshRegeneration [{}, {}, {}] = some _ := rfl
  have hreached : Runs.Reachable (stepStored plainLibrary) (fun _ _ => True)
      (FreshRegeneration storedDraft) _ :=
    Runs.reachable_of_run ⟨⟨.regenerate, [], 3, rfl⟩, rfl, rfl⟩ hrun
  exact ⟨_, _, _, hreached, rfl, rfl, rfl, rfl, fun hsurvives => hsurvives.2 rfl⟩

end StudyAgent.Quiz
