import StudyAgent.Base.Runs
import StudyAgent.Quiz.GraphLaws

/-!
# Runs of the quiz graph

A run from a fresh state, with what is answered at each visit.  After any node that succeeds it
may be interrupted; it is then resumed from its checkpoint, at the node that the resume router
picks.

What holds at each node of such a run is said once (`OnTrack`).  A resumed run goes on where the
edges would have led it, or it checks the same quiz again, or it loads its context again, so a
law of the nodes is a law of resumed runs too.

Main results:

* `onTrack_visit` — **what holds at each node is kept by every visit**.
* `resume_cases` — **where a resumed run goes on**.
* `Law.step` — **a law that the loop keeps is kept by every step of a run**.
-/

namespace StudyAgent.Quiz

open Py

/-! ## Steps -/

/-- What a run takes in at one step: the outcome of a visit, and whether the run is interrupted
after it. -/
structure Event where
  outcome : Outcome := {}
  interrupted : Bool := false

/-- A visit at which the generator answers with questions. -/
def generating (items : List Item) : Event :=
  { outcome := { generated := .content (.items (items.map some)) } }

/-- A visit at which new questions are answered. -/
def inserting (items : List Item) : Event :=
  { outcome := { inserted := .content (.items (items.map some)) } }

/-- A visit at which the verifier answers. -/
def verifying (reply : Reply) : Event := { outcome := { verified := .content (some reply) } }

/-- `node_succeeded`: the node is recorded with the state it left. -/
def nodeSucceeded (s : GraphState) : Bool := s.error = none && !s.terminalLlmFailure

/-- `hydrate_checkpoint_state`. -/
def hydrateCheckpointState (s : GraphState) (lastCompletedNode : Node) : GraphState :=
  { s with isResume := true, lastCompletedNode := some lastCompletedNode }

/-- The entry router records nothing, and neither does a node that fails: an interruption after
them is one after the node before. -/
def step (L : Library) (c : Config) (e : Event) : Option Config :=
  (visit L c e.outcome).map fun c' =>
    if e.interrupted ∧ c.node ≠ .entryRouter ∧ c'.node ≠ .raised ∧ nodeSucceeded c'.state then
      ⟨.entryRouter, hydrateCheckpointState c'.state c.node⟩
    else c'

/-- The state that a generation starts from. -/
def Fresh (c : Config) : Prop :=
  ∃ mode questionIds questionCount,
    c = ⟨.entryRouter, { mode := mode, questionIds := questionIds, questionCount := questionCount }⟩

/-- The end of a run that generates a quiz. -/
def generated (L : Library) (questionCount : ℕ) (events : List Event) : Option Config :=
  Runs.run (step L) ⟨.entryRouter, { questionCount := questionCount }⟩ events

theorem reachable_of_generated {L : Library} {questionCount : ℕ} {events : List Event} {c : Config}
    (h : generated L questionCount events = some c) :
    Runs.Reachable (step L) (fun _ _ => True) Fresh c :=
  Runs.reachable_of_run ⟨.generate, [], questionCount, rfl⟩ h

/-- The node that runs next, past the entry router. -/
def Config.resolved (c : Config) : Node :=
  if c.node = .entryRouter then routeFromEntry c.state else c.node

/-! ## What holds at each node -/

/-- The graph is at work on a quiz. -/
structure Running (s : GraphState) : Prop where
  generates : isQuestionReworkRun s = false
  error : s.error = none
  terminal : s.terminalLlmFailure = false
  present : s.presentWithoutQc = false
  permanent : s.qcFailedPermanently = false
  unpruned : s.pruneAttempt = 0

/-- Nothing has been generated yet. -/
structure Untouched (s : GraphState) : Prop extends Running s where
  mode : s.qcRetryMode = .none
  parsed : s.parsedQuestions = none
  validated : s.validatedQuestions = none
  fixed : s.fixedQuestions = none
  frozen : s.qcFrozenQuestionIds = none
  reverify : s.qcReverifyQuestionIds = []
  result : s.qcResult = none

/-- The quiz that the generator works on has too many questions or has been checked, or there
is none. -/
structure AtGenerator (s : GraphState) : Prop extends Running s where
  overflows : s.qcRetryMode = .questionPrune → s.questionCount < s.current.length
  checked : s.qcRetryMode ≠ .questionPrune →
    s.validatedQuestions.getD [] = [] ∨ Sound (s.validatedQuestions.getD []) s.questionCount
  complete : s.qcRetryMode = .questionInsert ∨ s.qcRetryMode = .questionPatchThenInsert →
    s.validatedQuestions.getD [] ≠ []

structure AtValidator (s : GraphState) : Prop extends Running s where
  parsed : s.parsedQuestions ≠ none
  mode : s.qcRetryMode ≠ .questionPrune

structure AtQualityCheck (s : GraphState) : Prop extends Running s where
  sound : Sound (s.validatedQuestions.getD []) s.questionCount

/-- What holds of the state at each node of a run.  The parser is never needed: the generator
parses what it gets. -/
def OnTrack (node : Node) (s : GraphState) : Prop :=
  match node with
  | .loadGenerationContext => Untouched s
  | .loadExistingQuizIfRegenerate => Untouched s
  | .quizGenerator => AtGenerator s
  | .parseQuizOutput => False
  | .deterministicValidate => AtValidator s
  | .qualityCheck => AtQualityCheck s
  | .persistQuizDraft => isQuestionReworkRun s = false
  | .loadQuizSingleRegenContext => isQuestionReworkRun s = true
  | .buildQuizSingleRegenPrompt => isQuestionReworkRun s = true
  | .invokeQuizSingleRegenLlm => isQuestionReworkRun s = true
  | .parseQuizSingleRegenOutput => isQuestionReworkRun s = true
  | .deterministicValidateQuestionPatches => isQuestionReworkRun s = true
  | .persistQuestionPatches => isQuestionReworkRun s = true
  | .entryRouter => False
  | .ended => True
  | .raised => True

variable {L : Library} {s s' : GraphState} {c c' : Config} {o : Outcome}

theorem Untouched.atGenerator (h : Untouched s) : AtGenerator s where
  toRunning := h.toRunning
  overflows hmode := by
    rw [h.mode] at hmode
    cases hmode
  checked _ := .inl (by rw [h.validated]; rfl)
  complete hmode := by
    rw [h.mode] at hmode
    simp at hmode

theorem Untouched.load (h : Untouched s) (material existing : Bool) :
    Untouched { s with studyMaterialContent := material, existingQuizQuestions := existing } :=
  ⟨⟨h.generates, h.error, h.terminal, h.present, h.permanent, h.unpruned⟩, h.mode, h.parsed,
    h.validated, h.fixed, h.frozen, h.reverify, h.result⟩

/-- A quiz that has been checked is checked again. -/
theorem AtGenerator.atQualityCheck (h : AtGenerator s) (hmode : s.qcRetryMode ≠ .questionPrune)
    (hquiz : s.validatedQuestions.getD [] ≠ []) : AtQualityCheck s :=
  ⟨h.toRunning, (h.checked hmode).resolve_left hquiz⟩

/-! ## The nodes of the loop -/

theorem onTrack_generator (h : AtGenerator s) (hs : quizGeneratorNode L s o = some s') :
    OnTrack (routeAfterQuizGenerator s') s' := by
  rcases quizGenerator_cases hs with rfl | ⟨e, raw, rfl⟩ | ⟨hmode, -, -, hshort, -⟩ |
    ⟨-, -, -, rfl⟩ | ⟨hmode, -, retry, -, rfl⟩ | ⟨hmode, text, parsed, -, -, rfl⟩
  · exact h.generates
  · rw [routeAfterQuizGenerator_aborted h.terminal]
    trivial
  · exact absurd (h.overflows hmode) (Nat.not_lt.2 hshort)
  · rw [routeAfterQuizGenerator_afterPrune]
    exact h.generates
  · rw [routeAfterQuizGenerator_afterRetry h.terminal h.present]
    refine ⟨⟨h.generates, rfl, h.terminal, h.present, h.permanent, h.unpruned⟩,
      by simp [GraphState.afterRetry], ?_⟩
    intro hprune
    rw [show s.qcRetryMode = .questionPrune from hprune] at hmode
    simp [QUESTION_RETRY_MODES] at hmode
  · rw [routeAfterQuizGenerator_afterGeneration h.terminal h.present h.error]
    refine ⟨⟨h.generates, h.error, h.terminal, h.present, h.permanent, h.unpruned⟩,
      by simp [GraphState.afterGeneration], ?_⟩
    intro hprune
    rw [show s.qcRetryMode = .questionPrune from hprune] at hmode
    simp at hmode

theorem afterStructuralPass_of_not_present (parsed : List Question)
    (h : s.presentWithoutQc = false) : s.afterStructuralPass parsed =
      { s with validatedQuestions := some parsed, structValidationPassed := true } := by
  rw [GraphState.afterStructuralPass, h, if_neg Bool.false_ne_true]

/-- **The validator**: a sound quiz goes to the quality check, the others back to the generator
or to the end. -/
theorem validate_next (h : AtValidator s) (hs : deterministicValidateNode L s = some s') :
    (Sound (s.parsedQuestions.getD []) s.questionCount ∧
        routeAfterDeterministicValidate s' = .qualityCheck ∧
        s' = { s with
          validatedQuestions := some (s.parsedQuestions.getD [])
          structValidationPassed := true }) ∨
      ¬ Sound (s.parsedQuestions.getD []) s.questionCount ∧
        ((routeAfterDeterministicValidate s' = .quizGenerator ∧
            s.questionCount < (s.parsedQuestions.getD []).length ∧ s' = s.toPrune) ∨
          (s.parsedQuestions.getD []).length ≤ s.questionCount ∧
            ∃ det, s' = s.afterStructuralFailure (s.parsedQuestions.getD []) det ∧
              ((routeAfterDeterministicValidate s' = .persistQuizDraft ∧
                  s'.qcFailedPermanently = true) ∨
                routeAfterDeterministicValidate s' = .quizGenerator ∧
                  s.genAttempt + 1 < MAX_GEN_ATTEMPTS)) := by
  rcases deterministicValidate_cases hs with ⟨hsound, rfl⟩ |
    ⟨hsound, ⟨-, hpruned, -⟩ | ⟨hover, -, -, rfl⟩ | ⟨hshort, det, rfl⟩⟩
  · refine .inl ⟨hsound, ?_, afterStructuralPass_of_not_present _ h.present⟩
    rw [afterStructuralPass_of_not_present _ h.present, routeAfterDeterministicValidate]
    simp [h.present]
  · rw [h.unpruned, h.present] at hpruned
    simp at hpruned
  · refine .inr ⟨hsound, .inl ⟨?_, hover, rfl⟩⟩
    simp [routeAfterDeterministicValidate, GraphState.toPrune, h.permanent]
  · refine .inr ⟨hsound, .inr ⟨hshort, det, rfl, ?_⟩⟩
    by_cases hlimit : MAX_GEN_ATTEMPTS ≤ s.genAttempt + 1
    · refine .inl ⟨?_, afterStructuralFailure_last s _ det hlimit⟩
      simp [routeAfterDeterministicValidate, afterStructuralFailure_last s _ det hlimit]
    · refine .inr ⟨?_, Nat.lt_of_not_le hlimit⟩
      rw [GraphState.afterStructuralFailure, if_neg hlimit, routeAfterDeterministicValidate]
      simp [h.permanent]

/-- The state in which the generator is asked again after a structural failure. -/
theorem afterStructuralFailure_retry (s : GraphState) (parsed : List Question) (det : List Check)
    (hlimit : s.genAttempt + 1 < MAX_GEN_ATTEMPTS) :
    s.afterStructuralFailure parsed det =
      { s with
        genAttempt := s.genAttempt + 1
        structValidationPassed := false
        validatedQuestions := some []
        qcRetryMode :=
          if s.qcRetryMode = .questionInsert ∨ s.qcRetryMode = .questionPatchThenInsert then
            .questionPatch
          else s.qcRetryMode } := by
  rw [GraphState.afterStructuralFailure, if_neg (Nat.not_le.2 hlimit)]

theorem onTrack_validate (h : AtValidator s) (hs : deterministicValidateNode L s = some s') :
    OnTrack (routeAfterDeterministicValidate s') s' := by
  rcases validate_next h hs with ⟨hsound, hnext, rfl⟩ |
    ⟨-, ⟨hnext, hover, rfl⟩ | ⟨-, det, rfl, ⟨hnext, -⟩ | ⟨hnext, hlimit⟩⟩⟩
  · rw [hnext]
    exact ⟨⟨h.generates, h.error, h.terminal, h.present, h.permanent, h.unpruned⟩, hsound⟩
  · rw [hnext]
    refine ⟨⟨h.generates, h.error, h.terminal, rfl, h.permanent, h.unpruned⟩, ?_, ?_, ?_⟩
    · intro _
      simpa [GraphState.current, GraphState.toPrune] using hover
    · exact fun hmode => absurd rfl hmode
    · rintro (hmode | hmode)
      · cases hmode
      · cases hmode
  · rw [hnext, GraphState.afterStructuralFailure]
    split_ifs
    all_goals exact h.generates
  · rw [hnext, afterStructuralFailure_retry s _ det hlimit]
    refine ⟨⟨h.generates, h.error, h.terminal, h.present, h.permanent, h.unpruned⟩, ?_, ?_, ?_⟩
    · intro hmode
      dsimp only at hmode
      split_ifs at hmode
      exact absurd hmode h.mode
    · exact fun _ => .inl rfl
    · dsimp only
      split_ifs with hinsert
      · simp
      · exact fun hmode => absurd hmode hinsert

/-- **The quality check**: what passed or failed for good is persisted, and after a failure of
the verifier it is asked again. -/
theorem qualityCheck_next (h : AtQualityCheck s) (hs : qualityCheckNode L s o = some s') :
    (s.validatedQuestions.getD [] = [] ∧ routeAfterQualityCheck s' = .persistQuizDraft ∧
        s' = { s with qcPassed := true, qcResult := none, qcFailedPermanently := false }) ∨
      s.validatedQuestions.getD [] ≠ [] ∧ ∃ det,
        runDeterministicQuizChecks L (s.validatedQuestions.getD []) s.questionCount = some det ∧
        ((verificationPass L s o.verified = none ∧ s' = s.afterInfraFailure ∧
            (routeAfterQualityCheck s' = .persistQuizDraft ∨
              routeAfterQualityCheck s' = .qualityCheck ∧ s'.qcFailedPermanently = false)) ∨
          ∃ v r routing passed, verificationPass L s o.verified = some v ∧
            visitResult L s v det = some (r, routing, passed) ∧
            s' = s.afterVisit r routing passed ∧
            (routeAfterQualityCheck s' = .persistQuizDraft ∨
              routeAfterQualityCheck s' = .quizGenerator ∧ passed = false ∧
                s'.qcFailedPermanently = false)) := by
  have hskips : SkipsQc s ↔ s.validatedQuestions.getD [] = [] := by
    simp [SkipsQc, h.terminal, h.error]
  by_cases hempty : s.validatedQuestions.getD [] = []
  · rw [qualityCheckNode, if_neg (by simp [h.terminal]), if_pos (.inr hempty)] at hs
    cases hs
    exact .inl ⟨hempty, rfl, rfl⟩
  · rcases qualityCheck_cases hs with ⟨hskip, -⟩ |
      ⟨-, det, hdet, ⟨hpass, rfl⟩ | ⟨v, r, routing, passed, hpass, hvisit, rfl⟩⟩
    · exact absurd (hskips.1 hskip) hempty
    · refine .inr ⟨hempty, det, hdet, .inl ⟨hpass, rfl, ?_⟩⟩
      by_cases hlimit : MAX_QC_ATTEMPTS ≤ s.qcAttempt + 1
      · left
        simp [routeAfterQualityCheck, GraphState.afterInfraFailure, hlimit]
      · right
        have hlow := Nat.lt_of_not_le hlimit
        simp [routeAfterQualityCheck, GraphState.afterInfraFailure, hlimit, hlow]
    · refine .inr ⟨hempty, det, hdet, .inr ⟨v, r, routing, passed, hpass, hvisit, rfl, ?_⟩⟩
      cases passed with
      | true => exact .inl rfl
      | false =>
        by_cases hlimit : MAX_QC_ATTEMPTS ≤ s.qcAttempt + 1
        · left
          simp [routeAfterQualityCheck, GraphState.afterVisit, hlimit]
        · right
          simp [routeAfterQualityCheck, GraphState.afterVisit, hlimit]

theorem onTrack_qualityCheck (h : AtQualityCheck s) (hs : qualityCheckNode L s o = some s') :
    OnTrack (routeAfterQualityCheck s') s' := by
  rcases qualityCheck_next h hs with ⟨-, hnext, rfl⟩ | ⟨hquiz, det, -,
    ⟨-, rfl, hnext | ⟨hnext, hpermanent⟩⟩ |
    ⟨v, r, routing, passed, -, hvisit, rfl, hnext | ⟨hnext, rfl, hpermanent⟩⟩⟩
  · rw [hnext]
    exact h.generates
  · rw [hnext]
    exact h.generates
  · rw [hnext]
    exact ⟨⟨h.generates, h.error, h.terminal, h.present, hpermanent, h.unpruned⟩, h.sound⟩
  · rw [hnext]
    exact h.generates
  · rw [hnext]
    obtain ⟨-, hclassify, -⟩ := visitResult_eq_some hvisit
    refine ⟨⟨h.generates, h.error, h.terminal, h.present, hpermanent, h.unpruned⟩, ?_, ?_, ?_⟩
    · exact fun hmode => absurd hmode (classify_mode_ne_prune hclassify)
    · exact fun _ => .inr h.sound
    · exact fun _ => hquiz

/-! ## All nodes -/

/-- The router keeps generations and reworks of questions apart. -/
theorem onTrack_rework {last : Option Node} (h : isQuestionReworkRun s = true) :
    OnTrack (resolveReworkResumeNextNode s last) s := by
  unfold resolveReworkResumeNextNode
  split
  all_goals try split_ifs
  all_goals first | exact h | trivial

/-- **What holds at each node is kept by every visit.** -/
theorem onTrack_visit (hentry : c.node ≠ .entryRouter) (h : OnTrack c.node c.state)
    (hvisit : visit L c o = some c') : OnTrack c'.node c'.state := by
  obtain ⟨node, s⟩ := c
  cases node with
  | entryRouter => exact absurd rfl hentry
  | quizGenerator =>
    cases hvisit
    cases hnext : quizGeneratorNode L s o with
    | none => trivial
    | some s' => exact onTrack_generator h hnext
  | deterministicValidate =>
    cases hvisit
    cases hnext : deterministicValidateNode L s with
    | none => trivial
    | some s' => exact onTrack_validate h hnext
  | qualityCheck =>
    cases hvisit
    cases hnext : qualityCheckNode L s o with
    | none => trivial
    | some s' => exact onTrack_qualityCheck h hnext
  | loadGenerationContext =>
    cases hvisit
    have hloaded := Untouched.load h o.material s.existingQuizQuestions
    rw [Config.follow, routeAfterLoadContext]
    split_ifs
    · exact hloaded
    · exact hloaded.atGenerator
  | loadExistingQuizIfRegenerate =>
    cases hvisit
    exact (Untouched.load h s.studyMaterialContent _).atGenerator
  | parseQuizOutput => exact h.elim
  | persistQuizDraft =>
    obtain ⟨-, hnode | hnode⟩ := visit_persistQuizDraft hvisit
    · rw [hnode]
      trivial
    · rw [hnode]
      trivial
  | loadQuizSingleRegenContext =>
    cases hvisit
    exact h
  | buildQuizSingleRegenPrompt =>
    cases hvisit
    exact h
  | invokeQuizSingleRegenLlm =>
    cases hvisit
    rw [Config.follow, routeAfterReworkInvoke]
    split_ifs
    · trivial
    · rw [OnTrack, invokeQuizSingleRegenLlm]
      dsimp only
      split_ifs
      · exact h
      · cases o.generated with
        | failed => exact h
        | content text => exact h
  | parseQuizSingleRegenOutput =>
    cases hvisit
    obtain ⟨e, patches, heq⟩ := parseQuizSingleRegenOutput_eq L s o
    rw [Config.follow, routeAfterReworkParse]
    split_ifs
    · trivial
    · dsimp only
      rw [heq]
      exact h
  | deterministicValidateQuestionPatches =>
    cases hvisit
    cases hnext : deterministicValidateQuestionPatches L s with
    | none => trivial
    | some s' =>
      have hrework : isQuestionReworkRun s' = true := by
        obtain ⟨det, -, rfl⟩ := Option.map_eq_some_iff.1 hnext
        dsimp only
        split_ifs
        · exact h
        · exact h
      rw [Config.follow, routeAfterReworkValidate]
      split_ifs
      · trivial
      · exact hrework
  | persistQuestionPatches =>
    rcases (visit_persistQuestionPatches hvisit).2 with hnode | hnode
    · rw [hnode]
      trivial
    · rw [hnode]
      trivial
  | ended => cases hvisit
  | raised => cases hvisit

/-! ## Resumptions -/

/-- The marks of a resumption are read by the entry router only. -/
theorem routeFromEntry_hydrate (s : GraphState) (last : Node) :
    routeFromEntry (hydrateCheckpointState s last) =
      if isQuestionReworkRun s then resolveReworkResumeNextNode s (some last)
      else resolveGenerateResumeNextNode s (some last) := rfl

theorem resume_generator (h : AtGenerator s) (hs : quizGeneratorNode L s o = some s')
    (hok : nodeSucceeded s' = true) :
    resolveGenerateResumeNextNode s' (some .quizGenerator) = routeAfterQuizGenerator s' := by
  rcases quizGenerator_cases hs with rfl | ⟨e, raw, rfl⟩ | ⟨hmode, -, -, hshort, -⟩ |
    ⟨-, -, -, rfl⟩ | ⟨-, -, retry, -, rfl⟩ | ⟨-, text, parsed, -, -, rfl⟩
  · simp [nodeSucceeded, GraphState.terminalFailure] at hok
  · simp [nodeSucceeded, GraphState.aborted] at hok
  · exact absurd (h.overflows hmode) (Nat.not_lt.2 hshort)
  · rw [routeAfterQuizGenerator_afterPrune]
    simp [resolveGenerateResumeNextNode, GraphState.afterPrune]
  · rw [routeAfterQuizGenerator_afterRetry h.terminal h.present]
    simp [resolveGenerateResumeNextNode, GraphState.afterRetry, h.terminal, h.present]
  · rw [routeAfterQuizGenerator_afterGeneration h.terminal h.present h.error]
    simp [resolveGenerateResumeNextNode, GraphState.afterGeneration, h.terminal, h.present,
      h.error]

/-- A run that failed its check without a way to go on is checked again. -/
theorem resume_qualityCheck (h : AtQualityCheck s) (hs : qualityCheckNode L s o = some s') :
    resolveGenerateResumeNextNode s' (some .qualityCheck) = routeAfterQualityCheck s' ∨
      resolveGenerateResumeNextNode s' (some .qualityCheck) = .qualityCheck ∧
        routeAfterQualityCheck s' = .quizGenerator ∧ s'.qcRetryMode = .none ∧
        s'.validatedQuestions.getD [] ≠ [] ∧ s'.fixedQuestions = none := by
  rcases qualityCheck_next h hs with ⟨-, -, rfl⟩ | ⟨hquiz, det, -, ⟨-, rfl, -⟩ |
    ⟨v, r, routing, passed, -, hvisit, rfl, -⟩⟩
  · exact .inl rfl
  · left
    by_cases hlimit : MAX_QC_ATTEMPTS ≤ s.qcAttempt + 1
    · simp [resolveGenerateResumeNextNode, routeAfterQualityCheck, GraphState.afterInfraFailure,
        hlimit]
    · have hlow := Nat.lt_of_not_le hlimit
      simp [resolveGenerateResumeNextNode, routeAfterQualityCheck, GraphState.afterInfraFailure,
        hlimit, hlow]
  · cases passed with
    | true => exact .inl rfl
    | false =>
      by_cases hlimit : MAX_QC_ATTEMPTS ≤ s.qcAttempt + 1
      · left
        simp [resolveGenerateResumeNextNode, routeAfterQualityCheck, GraphState.afterVisit, hlimit]
      · by_cases hmode : routing.mode = .none
        · right
          simp [resolveGenerateResumeNextNode, routeAfterQualityCheck,
            GraphState.afterVisit, hlimit,
            hmode, QUESTION_GENERATOR_RETRY_MODES, QUESTION_RETRY_MODES, hquiz]
        · left
          have hretry : routing.mode ∈ QUESTION_GENERATOR_RETRY_MODES ∨
              routing.mode = .fullRegeneration := by
            cases hcase : routing.mode <;>
              simp [QUESTION_GENERATOR_RETRY_MODES, QUESTION_RETRY_MODES, hcase] at hmode ⊢
          simp [resolveGenerateResumeNextNode, routeAfterQualityCheck,
            GraphState.afterVisit, hlimit,
            hretry]

/-- No visit changes what is asked for. -/
theorem visit_rework (hvisit : visit L c o = some c') :
    isQuestionReworkRun c'.state = isQuestionReworkRun c.state := by
  obtain ⟨node, s⟩ := c
  cases node with
  | quizGenerator =>
    cases hvisit
    cases hnext : quizGeneratorNode L s o with
    | none => rfl
    | some s' =>
      rcases quizGenerator_cases hnext with rfl | ⟨e, raw, rfl⟩ | ⟨-, -, -, -, rfl⟩ |
        ⟨-, -, -, rfl⟩ | ⟨-, -, retry, -, rfl⟩ | ⟨-, text, parsed, -, -, rfl⟩
      all_goals rfl
  | deterministicValidate =>
    cases hvisit
    cases hnext : deterministicValidateNode L s with
    | none => rfl
    | some s' =>
      rcases deterministicValidate_cases hnext with
        ⟨-, rfl⟩ | ⟨-, ⟨-, -, rfl⟩ | ⟨-, -, -, rfl⟩ | ⟨-, det, rfl⟩⟩
      · rw [GraphState.afterStructuralPass]
        split_ifs
        all_goals rfl
      · rfl
      · rfl
      · rw [GraphState.afterStructuralFailure]
        split_ifs
        all_goals rfl
  | qualityCheck =>
    cases hvisit
    cases hnext : qualityCheckNode L s o with
    | none => rfl
    | some s' =>
      rcases qualityCheck_cases hnext with
        ⟨-, rfl | rfl⟩ | ⟨-, det, -, ⟨-, rfl⟩ | ⟨v, r, routing, passed, -, -, rfl⟩⟩
      all_goals rfl
  | deterministicValidateQuestionPatches =>
    cases hvisit
    cases hnext : deterministicValidateQuestionPatches L s with
    | none => rfl
    | some s' =>
      obtain ⟨det, -, rfl⟩ := Option.map_eq_some_iff.1 hnext
      dsimp only [Config.follow]
      split_ifs
      all_goals rfl
  | parseQuizOutput =>
    cases hvisit
    rcases parseQuizOutput_cases L s o with ⟨-, heq⟩ | ⟨-, ⟨e, heq⟩ | ⟨parsed, heq⟩⟩
    · exact congrArg isQuestionReworkRun heq
    · exact (congrArg isQuestionReworkRun heq).trans rfl
    · exact (congrArg isQuestionReworkRun heq).trans rfl
  | invokeQuizSingleRegenLlm =>
    cases hvisit
    dsimp only [Config.follow]
    rw [invokeQuizSingleRegenLlm]
    split_ifs
    · rfl
    · cases o.generated with
      | failed => rfl
      | content text => rfl
  | parseQuizSingleRegenOutput =>
    cases hvisit
    obtain ⟨e, patches, heq⟩ := parseQuizSingleRegenOutput_eq L s o
    dsimp only [Config.follow]
    rw [heq]
    rfl
  | persistQuestionPatches =>
    obtain ⟨⟨e, hstate⟩, -⟩ := visit_persistQuestionPatches hvisit
    rw [hstate]
    rfl
  | persistQuizDraft => rw [(visit_persistQuizDraft hvisit).1]
  | ended => cases hvisit
  | raised => cases hvisit
  | _ =>
    cases hvisit
    rfl

/-- The nodes at which a quiz is made, and where it is persisted. -/
def quizNodes : List Node :=
  [.quizGenerator, .deterministicValidate, .qualityCheck, .persistQuizDraft]

theorem reworkNode_notMem (s : GraphState) (last : Option Node) :
    resolveReworkResumeNextNode s last ∉ quizNodes := by
  unfold resolveReworkResumeNextNode
  split
  all_goals try split_ifs
  all_goals decide

/-- Where a resumed run goes on after a state that is not worked on. -/
theorem resume_loaded (h : Untouched s) {last : Node}
    (hlast : last = .loadGenerationContext ∨ last = .loadExistingQuizIfRegenerate) :
    (OnTrack (resolveGenerateResumeNextNode s (some last)) s ∧
        resolveGenerateResumeNextNode s (some last) ∉ quizNodes) ∨
      resolveGenerateResumeNextNode s (some last) = .quizGenerator := by
  rcases hlast with rfl | rfl
  · rw [resolveGenerateResumeNextNode]
    split_ifs
    · exact .inl ⟨h, by decide⟩
    · exact .inl ⟨h, by decide⟩
    · exact .inr rfl
  · exact .inr rfl

/-- **Where a resumed run goes on**: where it would have gone, at the check of a quiz that has
failed without a target, or at the loading of its context. -/
theorem resume_cases (hentry : c.node ≠ .entryRouter) (h : OnTrack c.node c.state)
    (hvisit : visit L c o = some c') (hraised : c'.node ≠ .raised)
    (hok : nodeSucceeded c'.state = true) {resumed : Node}
    (hresumed : resumed = routeFromEntry (hydrateCheckpointState c'.state c.node)) :
    (OnTrack resumed c'.state ∧ resumed ∉ quizNodes) ∨ resumed = c'.node ∨
      (resumed = .persistQuizDraft ∧ c.node = .persistQuizDraft ∧ c'.state = c.state) ∨
      (resumed = .quizGenerator ∧ Untouched c'.state) ∨
      resumed = .qualityCheck ∧ c'.node = .quizGenerator ∧ c'.state.qcRetryMode = .none ∧
        c'.state.validatedQuestions.getD [] ≠ [] ∧ c'.state.fixedQuestions = none := by
  rw [routeFromEntry_hydrate, visit_rework hvisit] at hresumed
  cases hrework : isQuestionReworkRun c.state with
  | true =>
    rw [hrework, if_pos rfl] at hresumed
    rw [hresumed]
    exact .inl ⟨onTrack_rework ((visit_rework hvisit).trans hrework), reworkNode_notMem _ _⟩
  | false =>
    rw [hrework, if_neg Bool.false_ne_true] at hresumed
    rw [hresumed]
    obtain ⟨node, s⟩ := c
    cases node with
    | entryRouter => exact absurd rfl hentry
    | quizGenerator =>
      cases hvisit
      cases hnext : quizGeneratorNode L s o with
      | none =>
        rw [hnext] at hraised
        exact absurd rfl hraised
      | some s' =>
        rw [hnext] at hok
        exact .inr (.inl (resume_generator h hnext hok))
    | deterministicValidate =>
      cases hvisit
      cases hnext : deterministicValidateNode L s with
      | none =>
        rw [hnext] at hraised
        exact absurd rfl hraised
      | some s' => exact .inr (.inl rfl)
    | qualityCheck =>
      cases hvisit
      cases hnext : qualityCheckNode L s o with
      | none =>
        rw [hnext] at hraised
        exact absurd rfl hraised
      | some s' =>
        rcases resume_qualityCheck h hnext with hsame | ⟨hagain, hnode, hmode, hquiz, hfixed⟩
        · exact .inr (.inl hsame)
        · exact .inr (.inr (.inr (.inr ⟨hagain, hnode, hmode, hquiz, hfixed⟩)))
    | loadGenerationContext =>
      cases hvisit
      have hloaded := Untouched.load h o.material s.existingQuizQuestions
      rcases resume_loaded hloaded (.inl rfl) with hload | hgenerator
      · exact .inl hload
      · exact .inr (.inr (.inr (.inl ⟨hgenerator, hloaded⟩)))
    | loadExistingQuizIfRegenerate =>
      cases hvisit
      exact .inr (.inl rfl)
    | persistQuizDraft =>
      exact .inr (.inr (.inl ⟨rfl, rfl, (visit_persistQuizDraft hvisit).1⟩))
    | parseQuizOutput => exact h.elim
    | ended => cases hvisit
    | raised => cases hvisit
    | _ => exact absurd h (by simp [OnTrack, hrework])

theorem Running.hydrate (h : Running s) (last : Node) : Running (hydrateCheckpointState s last) :=
  ⟨h.generates, h.error, h.terminal, h.present, h.permanent, h.unpruned⟩

theorem Untouched.hydrate (h : Untouched s) (last : Node) :
    Untouched (hydrateCheckpointState s last) :=
  ⟨h.toRunning.hydrate last, h.mode, h.parsed, h.validated, h.fixed, h.frozen, h.reverify,
    h.result⟩

/-- The marks of a resumption change nothing that holds at a node. -/
theorem onTrack_hydrate {node : Node} (last : Node) (h : OnTrack node s) :
    OnTrack node (hydrateCheckpointState s last) := by
  cases node with
  | loadGenerationContext => exact Untouched.hydrate h last
  | loadExistingQuizIfRegenerate => exact Untouched.hydrate h last
  | quizGenerator => exact ⟨Running.hydrate h.toRunning last, h.overflows, h.checked, h.complete⟩
  | deterministicValidate => exact ⟨Running.hydrate h.toRunning last, h.parsed, h.mode⟩
  | qualityCheck => exact ⟨Running.hydrate h.toRunning last, h.sound⟩
  | _ => exact h

/-! ## Laws -/

/-- A law of the nodes at which a quiz is made: it says nothing of the other nodes, it does not
read the marks of a resumption, and it holds where a resumed run may go on. -/
structure Law (I : Node → GraphState → Prop) : Prop where
  elsewhere : ∀ {node s}, node ∉ quizNodes → I node s
  marks : ∀ {node s} (last : Node), I node s → I node (hydrateCheckpointState s last)
  untouched : ∀ {s}, Untouched s → I .quizGenerator s
  again : ∀ {s}, AtGenerator s → s.qcRetryMode = .none → s.validatedQuestions.getD [] ≠ [] →
    s.fixedQuestions = none → I .quizGenerator s → I .qualityCheck s

theorem resolved_of_ne (h : c.node ≠ .entryRouter) : c.resolved = c.node := if_neg h

theorem onTrack_ne_entry (h : OnTrack c.node c.state) : c.node ≠ .entryRouter := by
  intro hentry
  rw [hentry] at h
  exact h

/-- What holds of a run: it is on track, and a law holds at the node that runs next. -/
def Holds (I : Node → GraphState → Prop) (c : Config) : Prop :=
  OnTrack c.resolved c.state ∧ I c.resolved c.state

/-- What the three nodes of the loop have to keep for a law: it holds after them at the node
that their edge leads to. -/
structure KeptBy (L : Library) (I : Node → GraphState → Prop) (c : Config) (o : Outcome) :
    Prop where
  generator : ∀ {s'}, c.node = .quizGenerator → AtGenerator c.state →
    quizGeneratorNode L c.state o = some s' → I (routeAfterQuizGenerator s') s'
  validate : ∀ {s'}, c.node = .deterministicValidate → AtValidator c.state →
    deterministicValidateNode L c.state = some s' → I (routeAfterDeterministicValidate s') s'
  qualityCheck : ∀ {s'}, c.node = .qualityCheck → AtQualityCheck c.state →
    qualityCheckNode L c.state o = some s' → I (routeAfterQualityCheck s') s'

theorem KeptBy.visit {I : Node → GraphState → Prop} (law : Law I) (hkept : KeptBy L I c o)
    (hentry : c.node ≠ .entryRouter) (h : OnTrack c.node c.state)
    (hvisit : visit L c o = some c') : I c'.node c'.state := by
  have hloaded : ∀ {s}, Untouched s → I .quizGenerator s ∧ I .loadExistingQuizIfRegenerate s :=
    fun hs => ⟨law.untouched hs, law.elsewhere (by decide)⟩
  obtain ⟨node, s⟩ := c
  cases node with
  | entryRouter => exact absurd rfl hentry
  | quizGenerator =>
    cases hvisit
    cases hnext : quizGeneratorNode L s o with
    | none => exact law.elsewhere (by simp [Config.follow, quizNodes])
    | some s' => exact hkept.generator rfl h hnext
  | deterministicValidate =>
    cases hvisit
    cases hnext : deterministicValidateNode L s with
    | none => exact law.elsewhere (by simp [Config.follow, quizNodes])
    | some s' => exact hkept.validate rfl h hnext
  | qualityCheck =>
    cases hvisit
    cases hnext : qualityCheckNode L s o with
    | none => exact law.elsewhere (by simp [Config.follow, quizNodes])
    | some s' => exact hkept.qualityCheck rfl h hnext
  | loadGenerationContext =>
    cases hvisit
    have hstate := hloaded (Untouched.load h o.material s.existingQuizQuestions)
    rw [Config.follow, routeAfterLoadContext]
    split_ifs
    · exact hstate.2
    · exact hstate.1
  | loadExistingQuizIfRegenerate =>
    cases hvisit
    exact (hloaded (Untouched.load h s.studyMaterialContent _)).1
  | parseQuizOutput => exact h.elim
  | deterministicValidateQuestionPatches =>
    cases hvisit
    cases deterministicValidateQuestionPatches L s with
    | none => exact law.elsewhere (by simp [Config.follow, quizNodes])
    | some s' =>
      rw [Config.follow, routeAfterReworkValidate]
      split_ifs
      all_goals exact law.elsewhere (by simp [quizNodes])
  | invokeQuizSingleRegenLlm =>
    cases hvisit
    rw [Config.follow, routeAfterReworkInvoke]
    split_ifs
    all_goals exact law.elsewhere (by simp [quizNodes])
  | parseQuizSingleRegenOutput =>
    cases hvisit
    rw [Config.follow, routeAfterReworkParse]
    split_ifs
    all_goals exact law.elsewhere (by simp [quizNodes])
  | persistQuizDraft =>
    obtain ⟨-, hnode | hnode⟩ := visit_persistQuizDraft hvisit
    · exact law.elsewhere (by simp [hnode, quizNodes])
    · exact law.elsewhere (by simp [hnode, quizNodes])
  | persistQuestionPatches =>
    obtain ⟨-, hnode | hnode⟩ := visit_persistQuestionPatches hvisit
    · exact law.elsewhere (by simp [hnode, quizNodes])
    · exact law.elsewhere (by simp [hnode, quizNodes])
  | ended => cases hvisit
  | raised => cases hvisit
  | _ =>
    cases hvisit
    exact law.elsewhere (by simp [quizNodes])

/-- **A law that the loop keeps is kept by every step of a run.**  The law may say more after
the step than before it, as long as the entry router and the persisting node leave it. -/
theorem Law.step {I : Node → GraphState → Prop} {e : Event} (law : Law I)
    (h : OnTrack c.resolved c.state)
    (hstays : c.node = .entryRouter ∨ c.node = .persistQuizDraft → I c.resolved c.state)
    (hkept : c.node ≠ .entryRouter → KeptBy L I c e.outcome) (hstep : step L c e = some c') :
    Holds I c' := by
  obtain ⟨c₁, hc₁, rfl⟩ := Option.map_eq_some_iff.1 hstep
  by_cases hentry : c.node = .entryRouter
  · rw [if_neg fun hboth => hboth.2.1 hentry]
    obtain ⟨node, s⟩ := c
    dsimp only at hentry
    subst hentry
    cases hc₁
    have hresolved : Config.resolved ⟨routeFromEntry s, s⟩ = routeFromEntry s :=
      resolved_of_ne (routeFromEntry_ne s).1
    rw [Holds, hresolved]
    exact ⟨h, hstays (.inl rfl)⟩
  · rw [resolved_of_ne hentry] at h
    have htrack := onTrack_visit hentry h hc₁
    have hI := (hkept hentry).visit law hentry h hc₁
    split_ifs with hresumes
    · obtain ⟨-, -, hraised, hok⟩ := hresumes
      have hgoes : ∀ {node}, OnTrack node c₁.state → I node c₁.state →
          OnTrack node (hydrateCheckpointState c₁.state c.node) ∧
            I node (hydrateCheckpointState c₁.state c.node) :=
        fun ht hi => ⟨onTrack_hydrate c.node ht, law.marks c.node hi⟩
      rw [Holds, Config.resolved, if_pos rfl]
      dsimp only
      generalize hresumed : routeFromEntry (hydrateCheckpointState c₁.state c.node) = resumed
      rcases resume_cases hentry h hc₁ hraised hok hresumed.symm with
        ⟨ht, hnot⟩ | rfl | ⟨rfl, hpersist, hstate⟩ | ⟨rfl, huntouched⟩ |
          ⟨rfl, hnode, hmode, hquiz, hfixed⟩
      · exact hgoes ht (law.elsewhere hnot)
      · exact hgoes htrack hI
      · have hpersisted := hstays (.inr hpersist)
        rw [resolved_of_ne hentry, hpersist, ← hstate] at hpersisted
        rw [hpersist, ← hstate] at h
        exact hgoes h hpersisted
      · exact hgoes huntouched.atGenerator (law.untouched huntouched)
      · rw [hnode] at htrack hI
        exact hgoes (AtGenerator.atQualityCheck htrack (by rw [hmode]; decide) hquiz)
          (law.again htrack hmode hquiz hfixed hI)
    · rw [Holds, resolved_of_ne (onTrack_ne_entry htrack)]
      exact ⟨htrack, hI⟩

theorem Law.fresh {I : Node → GraphState → Prop} (law : Law I) (h : Fresh c) : Holds I c := by
  obtain ⟨mode, questionIds, questionCount, rfl⟩ := h
  rw [Holds, Config.resolved, if_pos rfl, routeFromEntry]
  dsimp only
  rw [if_neg Bool.false_ne_true]
  split_ifs with hrework
  · exact ⟨hrework, law.elsewhere (by decide)⟩
  · rw [Bool.not_eq_true] at hrework
    exact ⟨⟨⟨hrework, rfl, rfl, rfl, rfl, rfl⟩, rfl, rfl, rfl, rfl, rfl, rfl, rfl⟩,
      law.elsewhere (by decide)⟩

end StudyAgent.Quiz
