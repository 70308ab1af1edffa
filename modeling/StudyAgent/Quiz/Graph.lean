import StudyAgent.Quiz.Pruning
import StudyAgent.Quiz.Regeneration

/-!
# The quiz graph

The nodes of the quiz generation graph as functions of the state and of what the models, the
database and the id generator answer, with the conditional edges between them and the router
that picks the node at which an interrupted run goes on.  A node that lets an exception escape
has no next state.

The states that a node returns have names of their own, so that the laws of the graph can say
which of them it is.
-/

namespace StudyAgent.Quiz

open Py

/-! ## State -/

inductive Node where
  | entryRouter
  | loadGenerationContext
  | loadExistingQuizIfRegenerate
  | quizGenerator
  | parseQuizOutput
  | deterministicValidate
  | qualityCheck
  | persistQuizDraft
  | loadQuizSingleRegenContext
  | buildQuizSingleRegenPrompt
  | invokeQuizSingleRegenLlm
  | parseQuizSingleRegenOutput
  | deterministicValidateQuestionPatches
  | persistQuestionPatches
  /-- `END`. -/
  | ended
  /-- An exception has escaped. -/
  | raised
  deriving DecidableEq

/-- `state["mode"]`; any other text counts as `unset`. -/
inductive GenerationMode where
  | generate
  | regenerate
  | improve
  | unset
  deriving DecidableEq

/-- A text that a model answers with, as it is parsed: an array of questions, an object that
calls the feedback vague, or no such JSON, with the message of the error. -/
inductive LlmText where
  | empty
  | malformed (exc : String)
  | vague (message : String)
  | items (l : List (Option Item))
  deriving DecidableEq

/-- A stored `qc_result`. -/
inductive StoredResult where
  | infraError
  | llmFailure
  | built (r : QcResult)
  deriving DecidableEq

/-- `qc_result.get("checks") or []`. -/
def StoredResult.checks : StoredResult → List Check
  | built r => r.checks
  | _ => []

def MAX_GEN_ATTEMPTS : ℕ := 3

def MAX_QC_ATTEMPTS : ℕ := 3

/-- The fields of `QuizGraphState` that a node or an edge reads.  Of the study material, the
existing questions and the prompt it is kept whether they are there. -/
structure GraphState where
  mode : GenerationMode := .generate
  questionIds : List String := []
  questionCount : ℕ
  studyMaterialContent : Bool := false
  existingQuizQuestions : Bool := false
  rawLlmOutput : Option LlmText := none
  parsedQuestions : Option (List Question) := none
  validatedQuestions : Option (List Question) := none
  structValidationPassed : Bool := false
  genAttempt : ℕ := 0
  qcRetryMode : RetryMode := .none
  qcFrozenQuestionIds : Option (List String) := none
  qcReverifyQuestionIds : List String := []
  fixedQuestions : Option (List Question) := none
  error : Option String := none
  presentWithoutQc : Bool := false
  pruneAttempt : ℕ := 0
  qcPassed : Bool := false
  qcResult : Option StoredResult := none
  qcAttempt : ℕ := 0
  qcFailedPermanently : Bool := false
  terminalLlmFailure : Bool := false
  isResume : Bool := false
  lastCompletedNode : Option Node := none
  allQuestions : List Question := []
  promptInput : Bool := false
  parsedPatches : Option (List Question) := none
  validatedPatches : List Question := []
  deriving DecidableEq

/-- What a call of the generator brings. -/
inductive LlmReply where
  | failed
  | content (text : LlmText)

/-- What the call of a prune brings: the ids that it reads, or nothing that can be read. -/
inductive PruneReply where
  | failed
  | unreadable
  | ids (raw : List String)

/-- What the call of the verifier brings: the object that is read from its text, if any. -/
inductive VerifierReply where
  | failed
  | content (parsed : Option Reply)

/-- What the outside answers during one visit.  `freshId`, `insertedId` and `newId` are the
`uuid4()` calls for generated, inserted and anonymous questions, and `rowFound` says which rows
are active questions of the quiz. -/
structure Outcome where
  generated : LlmReply := .failed
  inserted : LlmReply := .failed
  pruned : PruneReply := .failed
  verified : VerifierReply := .failed
  freshId : ℕ → String := fun _ => ""
  insertedId : ℕ → String := fun _ => ""
  newId : ℕ → String := fun _ => ""
  material : Bool := true
  existing : List Question := []
  rowFound : ℕ → Bool := fun _ => true

/-- `validated_questions or parsed_questions or []`. -/
def GraphState.current (s : GraphState) : List Question :=
  if s.validatedQuestions.getD [] ≠ [] then s.validatedQuestions.getD []
  else s.parsedQuestions.getD []

/-! ## Generating -/

/-- `json.loads` and the extraction of its array. -/
def LlmText.read : LlmText → Except String (List (Option Item))
  | empty => .error "Expecting value: line 1 column 1 (char 0)"
  | malformed exc => .error exc
  | vague _ => .error "Expected JSON object with a 'questions' array."
  | items l => .ok l

/-- The state after an error that ends the run. -/
def GraphState.aborted (s : GraphState) (error : String) (raw : Option LlmText) : GraphState :=
  { s with error := some error, rawLlmOutput := raw }

/-- The state after a terminal failure of a model. -/
def GraphState.terminalFailure (s : GraphState) : GraphState :=
  { s with
    terminalLlmFailure := true
    qcFailedPermanently := true
    qcResult := some .llmFailure
    validatedQuestions := some [] }

section

variable (L : Library)

/-- The parsing of a full quiz. -/
def parseQuiz (text : LlmText) (expectedCount : ℕ) (freshId : ℕ → String) :
    Except String (List Question) :=
  text.read.bind fun items =>
    normalizeParsedItems L freshId (parseJsonArray items (some expectedCount))

/-- `call_and_parse_questions`: the payload of a `QuestionCallError`, or the questions.  What
`normalize_parsed_items` raises escapes. -/
def callAndParseQuestions (s : GraphState) (generationType : String) (reply : LlmReply)
    (freshId : ℕ → String) : Option (Except GraphState (List Question × LlmText)) :=
  match reply with
  | .failed => some (.error s.terminalFailure)
  | .content text =>
    match text.read with
    | .error exc =>
      some (.error (s.aborted (generationType ++ " returned invalid JSON: " ++ exc) (some text)))
    | .ok items =>
      match normalizeParsedItems L freshId (parseJsonArray items none) with
      | .error _ => none
      | .ok parsed => some (.ok (parsed, text))

/-- The ids of the questions that a patch applies to. -/
def GraphState.appliedIds (s : GraphState) : List String := strippedIds s.qcReverifyQuestionIds

/-- What a surgical retry has gathered. -/
structure Retry where
  merged : List Question
  fixed : List Question := []
  raw : Option LlmText := none

/-- The first half of `run_question_retry`. -/
def patchStage (s : GraphState) (o : Outcome) (retry : Retry) :
    Option (Except GraphState Retry) :=
  if s.qcRetryMode = .questionPatch ∨ s.qcRetryMode = .questionPatchThenInsert then
    (callAndParseQuestions L s "question_patch" o.generated o.freshId).map fun result =>
      result.map fun p =>
        let merged := prepareQuestionPatchesForMerge retry.merged p.1 s.qcReverifyQuestionIds
        { merged := merged
          fixed := retry.fixed ++ merged.filter fun q => q.id ∈ s.appliedIds
          raw := some p.2 }
  else some (.ok retry)

/-- The second half of `run_question_retry`. -/
def insertStage (s : GraphState) (o : Outcome) (retry : Retry) :
    Option (Except GraphState Retry) :=
  if s.qcRetryMode = .questionInsert ∨ s.qcRetryMode = .questionPatchThenInsert then
    (callAndParseQuestions L s "question_insert" o.inserted o.insertedId).map fun result =>
      result.map fun p =>
        { merged := insertQuestions retry.merged p.1 o.newId
          fixed := retry.fixed ++ p.1
          raw := some p.2 }
  else some (.ok retry)

/-- The state that `run_question_retry` returns. -/
def GraphState.afterRetry (s : GraphState) (retry : Retry) : GraphState :=
  { s with
    parsedQuestions := some retry.merged
    validatedQuestions :=
      some (if 0 < s.questionCount ∧ s.questionCount < retry.merged.length then []
        else retry.merged)
    fixedQuestions := some retry.fixed
    rawLlmOutput := retry.raw
    error := none }

/-- `run_question_retry`. -/
def runQuestionRetry (s : GraphState) (o : Outcome) : Option GraphState :=
  if s.current = [] then
    some (s.aborted "Cannot run question retry without existing quiz questions." s.rawLlmOutput)
  else
    (patchStage L s o { merged := s.current }).bind fun
      | .error payload => some payload
      | .ok retry => (insertStage L s o retry).map fun
        | .error payload => payload
        | .ok retry => s.afterRetry retry

/-- The quiz that `run_question_prune` cuts down. -/
def prunedQuestions (questions : List Question) (expectedCount : ℕ)
    (preferRemoveIds : List String) (reply : PruneReply) : List Question :=
  let fallback := pruneQuestionsToCount questions expectedCount preferRemoveIds
  let pruned := match reply with
    | .failed => fallback
    | .unreadable => fallback
    | .ids raw =>
      let validRemoveIds := (strippedIds raw).filter (· ∈ existingQuestionIds questions)
      if validRemoveIds ≠ [] then
        let candidate := removeQuestionsByIds questions validRemoveIds
        if candidate.length = expectedCount then candidate
        else if expectedCount < candidate.length then
          pruneQuestionsToCount candidate expectedCount preferRemoveIds
        else pruneQuestionsToCount questions expectedCount (preferRemoveIds ++ validRemoveIds)
      else fallback
  if pruned.length ≠ expectedCount then fallback else pruned

/-- The state after a prune that found nothing to remove. -/
def GraphState.afterNoPrune (s : GraphState) : GraphState :=
  { s with
    parsedQuestions := some s.current
    validatedQuestions := some s.current
    qcRetryMode := .none
    presentWithoutQc := true
    qcPassed := true
    qcFailedPermanently := false
    fixedQuestions := none
    error := none }

/-- The state after a prune. -/
def GraphState.afterPrune (s : GraphState) (pruned : List Question) : GraphState :=
  { s with
    parsedQuestions := some pruned
    validatedQuestions := some pruned
    fixedQuestions := none
    qcRetryMode := .none
    presentWithoutQc := true
    qcPassed := true
    qcFailedPermanently := false
    pruneAttempt := s.pruneAttempt + 1
    structValidationPassed := true
    error := none }

/-- `run_question_prune`.  What the model answered is not kept. -/
def runQuestionPrune (s : GraphState) (o : Outcome) : GraphState :=
  if s.current = [] then
    s.aborted "Cannot prune quiz questions without an existing quiz." s.rawLlmOutput
  else if s.questionCount = 0 then
    s.aborted "Cannot prune without a positive question_count." s.rawLlmOutput
  else if s.current.length ≤ s.questionCount then s.afterNoPrune
  else s.afterPrune
    (prunedQuestions s.current s.questionCount s.qcReverifyQuestionIds o.pruned)

/-- The state after the generation of a quiz. -/
def GraphState.afterGeneration (s : GraphState) (text : LlmText) (parsed : List Question) :
    GraphState :=
  { s with
    rawLlmOutput := some text
    parsedQuestions := some (regenerated s.qcRetryMode s.current s.qcReverifyQuestionIds parsed)
    fixedQuestions := none }

/-- The generation of a whole quiz. -/
def generateQuiz (s : GraphState) (o : Outcome) : GraphState :=
  match o.generated with
  | .failed => s.terminalFailure
  | .content text =>
    match parseQuiz L text s.questionCount o.freshId with
    | .error exc => s.aborted ("Malformed quiz output: " ++ exc) (some text)
    | .ok parsed => s.afterGeneration text parsed

/-- `QUESTION_RETRY_MODES`. -/
def QUESTION_RETRY_MODES : List RetryMode :=
  [.questionPatch, .questionInsert, .questionPatchThenInsert]

/-- `QUESTION_GENERATOR_RETRY_MODES`. -/
def QUESTION_GENERATOR_RETRY_MODES : List RetryMode := QUESTION_RETRY_MODES ++ [.questionPrune]

/-- `quiz_generator_node`. -/
def quizGeneratorNode (s : GraphState) (o : Outcome) : Option GraphState :=
  if s.qcRetryMode = .questionPrune then some (runQuestionPrune s o)
  else if s.qcRetryMode ∈ QUESTION_RETRY_MODES then runQuestionRetry L s o
  else some (generateQuiz L s o)

/-- `parse_quiz_output`. -/
def parseQuizOutput (s : GraphState) (o : Outcome) : GraphState :=
  if s.parsedQuestions ≠ none then s
  else
    match s.rawLlmOutput with
    | none => { s with error := some "No LLM output to parse." }
    | some .empty => { s with error := some "No LLM output to parse." }
    | some text =>
      match parseQuiz L text s.questionCount o.freshId with
      | .error exc => { s with error := some ("Malformed quiz output: " ++ exc) }
      | .ok parsed => { s with parsedQuestions := some parsed }

/-! ## Validating -/

/-- The state after an overflow that was pruned before, or is to be presented. -/
def GraphState.afterFallbackPrune (s : GraphState) (parsed : List Question) : GraphState :=
  let pruned := pruneQuestionsToCount parsed s.questionCount s.qcReverifyQuestionIds
  { s with
    parsedQuestions := some pruned
    validatedQuestions := some pruned
    structValidationPassed := true
    qcRetryMode := .none
    presentWithoutQc := true
    qcPassed := true
    qcFailedPermanently := false }

/-- The state after an overflow that is to be pruned. -/
def GraphState.toPrune (s : GraphState) : GraphState :=
  { s with
    structValidationPassed := false
    qcRetryMode := .questionPrune
    validatedQuestions := some []
    presentWithoutQc := false }

/-- The state after a structural failure. -/
def GraphState.afterStructuralFailure (s : GraphState) (parsed : List Question)
    (detChecks : List Check) : GraphState :=
  if MAX_GEN_ATTEMPTS ≤ s.genAttempt + 1 then
    { s with
      validatedQuestions := some parsed
      genAttempt := s.genAttempt + 1
      structValidationPassed := false
      qcFailedPermanently := true
      qcResult := (buildFinalQuizQcResult none detChecks).map .built }
  else
    { s with
      genAttempt := s.genAttempt + 1
      structValidationPassed := false
      validatedQuestions := some []
      qcRetryMode :=
        if s.qcRetryMode = .questionInsert ∨ s.qcRetryMode = .questionPatchThenInsert then
          .questionPatch
        else s.qcRetryMode }

/-- The state after the structural checks passed. -/
def GraphState.afterStructuralPass (s : GraphState) (parsed : List Question) : GraphState :=
  if s.presentWithoutQc then
    { s with
      validatedQuestions := some parsed
      structValidationPassed := true
      qcPassed := true
      qcFailedPermanently := false
      qcRetryMode := .none }
  else { s with validatedQuestions := some parsed, structValidationPassed := true }

/-- `deterministic_validate_node`. -/
def deterministicValidateNode (s : GraphState) : Option GraphState :=
  let parsed := s.parsedQuestions.getD []
  (runDeterministicQuizChecks L parsed s.questionCount).map fun detChecks =>
    if extractFailedChecks detChecks = [] then s.afterStructuralPass parsed
    else if s.questionCount < parsed.length then
      if 1 ≤ s.pruneAttempt ∨ s.presentWithoutQc then s.afterFallbackPrune parsed
      else s.toPrune
    else s.afterStructuralFailure parsed detChecks

/-! ## Quality check -/

/-- The ids of a list that name something. -/
def frozenIdSet (s : GraphState) : List String := strippedIds (s.qcFrozenQuestionIds.getD [])

/-- `bool(fixed_questions)`. -/
def isTargeted (s : GraphState) : Bool := s.fixedQuestions.getD [] ≠ []

/-- The questions that the verifier is asked about. -/
def requestedQuestions (s : GraphState) : List Question :=
  if isTargeted s then s.fixedQuestions.getD []
  else (questionsForQc (s.validatedQuestions.getD [])).filter fun q => q.id ∉ frozenIdSet s

/-- `reverify_for_merge`. -/
def reverifyForMerge (s : GraphState) : List String :=
  (existingQuestionIds (questionsForQc (s.validatedQuestions.getD []))).filter
    (· ∉ frozenIdSet s)

/-- The checks of a visit: those of the reply, beside the earlier ones outside of what was
asked. -/
def mergedChecks (s : GraphState) (newChecks : List Check) : List Check :=
  if isTargeted s then
    mergeTargetedQcChecks ((s.qcResult.map StoredResult.checks).getD []) newChecks
      s.qcReverifyQuestionIds
  else if frozenIdSet s ≠ [] ∧ s.qcResult ≠ none then
    mergeTargetedQcChecks ((s.qcResult.map StoredResult.checks).getD []) newChecks
      (reverifyForMerge s)
  else newChecks

/-- The verification pass, with the number of questions it is asked about. -/
def verificationPass (s : GraphState) (reply : VerifierReply) : Option Verification :=
  match reply with
  | .failed => none
  | .content parsed => parseQuizQcResponse L parsed (some (requestedQuestions s).length)

/-- What a visit makes of an accepted reply: the result, its routing and the verdict.  The
concepts of the recommendation are iterated at every visit, by `build_qc_pass_decision`. -/
def visitResult (s : GraphState) (v : Verification) (detChecks : List Check) :
    Option (QcResult × Routing × Bool) :=
  (buildFinalQuizQcResult (some { v with checks := mergedChecks s v.checks }) detChecks).bind
    fun r => (classifyQuizRetryRouting L r (s.validatedQuestions.getD [])).bind
      fun routing => (isQuizQcDeliverable r).bind
        fun passed => (missingConceptsFromRecommendation r.retryRecommendation).map
          fun _ => (r, routing, passed)

/-- `qc_infra_failure_return`. -/
def GraphState.afterInfraFailure (s : GraphState) : GraphState :=
  { s with
    qcPassed := false
    qcResult := some .infraError
    qcAttempt := s.qcAttempt + 1
    qcFailedPermanently := MAX_QC_ATTEMPTS ≤ s.qcAttempt + 1 }

/-- The state after a visit with a result. -/
def GraphState.afterVisit (s : GraphState) (r : QcResult) (routing : Routing) (passed : Bool) :
    GraphState :=
  { s with
    qcAttempt := s.qcAttempt + 1
    qcResult := some (.built r)
    qcRetryMode := if passed then .none else routing.mode
    qcReverifyQuestionIds := routing.failedQuestionIds
    qcFrozenQuestionIds :=
      if isTargeted s then none
      else some (accumulateFrozenQuestionIds r.checks s.qcFrozenQuestionIds)
    fixedQuestions := none
    qcPassed := passed
    qcFailedPermanently := !passed && MAX_QC_ATTEMPTS ≤ s.qcAttempt + 1 }

/-- `quality_check_node`. -/
def qualityCheckNode (s : GraphState) (o : Outcome) : Option GraphState :=
  if s.terminalLlmFailure then some { s with qcPassed := true }
  else if s.error ≠ none ∨ s.validatedQuestions.getD [] = [] then
    some { s with qcPassed := true, qcResult := none, qcFailedPermanently := false }
  else
    (runDeterministicQuizChecks L (s.validatedQuestions.getD []) s.questionCount).bind
      fun detChecks =>
        match verificationPass L s o.verified with
        | none => some s.afterInfraFailure
        | some v => (visitResult L s v detChecks).map fun p => s.afterVisit p.1 p.2.1 p.2.2

/-! ## Rework of single questions -/

/-- `invoke_quiz_single_regen_llm`. -/
def invokeQuizSingleRegenLlm (s : GraphState) (o : Outcome) : GraphState :=
  if s.promptInput = false then
    { s with error := some "Missing prompt input for quiz single-question regen." }
  else
    match o.generated with
    | .failed => { s with terminalLlmFailure := true, rawLlmOutput := none }
    | .content text => { s with rawLlmOutput := some text, terminalLlmFailure := false }

/-- `_restore_patch_order_indices`. -/
def restorePatchOrderIndices (patches allQuestions : List Question) : List Question :=
  patches.map fun patch =>
    if patch.id = "" then patch
    else match lastWithId allQuestions patch.id with
      | none => patch
      | some q => { patch with orderIndex := q.orderIndex }

/-- `parse_quiz_single_regen_output`. -/
def parseQuizSingleRegenOutput (s : GraphState) (o : Outcome) : GraphState :=
  if s.parsedPatches ≠ none then s
  else
    match s.rawLlmOutput with
    | none => { s with error := some "No LLM output to parse." }
    | some .empty => { s with error := some "No LLM output to parse." }
    | some (.vague message) =>
      { s with error := some (if message = "" then
          "Feedback too vague to apply. Specify what to change." else message) }
    | some text =>
      match text.read.bind fun items =>
        normalizeParsedItems L o.freshId (parseJsonArray items none) with
      | .error exc =>
        { s with error := some ("Malformed quiz single-question regen output: " ++ exc) }
      | .ok parsed =>
        if (∀ patch ∈ parsed, patch.id ∈ s.questionIds) ∧
            ∀ qid ∈ s.questionIds, ∃ patch ∈ parsed, patch.id = qid then
          { s with parsedPatches := some (restorePatchOrderIndices parsed s.allQuestions) }
        else
          { s with error := some ("Quiz single-question regen output must return exactly the " ++
              "requested question_ids.") }

/-- `format_gen_feedback_from_checks`. -/
def formatGenFeedbackFromChecks (failedChecks : List Check) : String :=
  "Structural validation failed:\n" ++ "\n".intercalate (failedChecks.flatMap fun c =>
    ("- [" ++ c.severity.name ++ "] " ++ c.category.name ++ "/" ++ c.id ++ ": " ++ c.evidence) ::
    if strip c.correctiveHint = "" then [] else ["  Fix: " ++ strip c.correctiveHint])

/-- `deterministic_validate_question_patches`. -/
def deterministicValidateQuestionPatches (s : GraphState) : Option GraphState :=
  let parsed := s.parsedPatches.getD []
  (runDeterministicQuizChecks L parsed s.questionIds.length).map fun detChecks =>
    let failed := extractFailedChecks detChecks
    if failed = [] then { s with validatedPatches := parsed, structValidationPassed := true }
    else
      { s with
        validatedPatches := []
        structValidationPassed := false
        error := some (formatGenFeedbackFromChecks failed) }

/-! ## Persisting -/

/-- The ids of questions that are texts; any other id is replaced by a new one. -/
def textIds (questions : List Question) : List String :=
  questions.filterMap fun q =>
    match q.questionId with
    | some (.str s) => some s
    | _ => none

/-- A text, or `null` where a column allows it. -/
def isText (v : Value) (nullable : Bool) : Bool :=
  match v with
  | .str _ => true
  | .null => nullable
  | _ => false

/-- The columns of `quizquestions` take the fields of a question: texts, and for the marked
option a `String(1)`. -/
def fitsColumns (q : Question) : Bool :=
  isText q.questionText false && isText q.optionA false && isText q.optionB false &&
    isText q.optionC true && isText q.optionD true && isText q.explanation true &&
    match q.correctOption with
    | .str s => s.length ≤ 1
    | _ => false

/-- The rows of questions are built and inserted: `UUID` reads every id that is a text, no two
rows have one primary key, and the columns take all fields. -/
def rowsInserted (questions : List Question) : Bool :=
  match (textIds questions).mapM L.uuid with
  | none => false
  | some ids => ids.Nodup && questions.all fitsColumns

/-- `persist_quiz_draft`, as far as the graph goes. -/
def persistQuizDraftNode (s : GraphState) : Option GraphState :=
  if rowsInserted L (s.validatedQuestions.getD []) then some s else none

/-- A patch is written to the row of its id, if that is a question of the quiz; `UUID` raises on
other texts, and the flush on a field that does not fit its column. -/
def patchWritten (rowFound : ℕ → Bool) (patch : Question) : Option Bool :=
  match patch.questionId with
  | some (.str text) =>
    match L.uuid text with
    | none => none
    | some row =>
      if rowFound row then if fitsColumns patch then some true else none else some false
  | _ => some false

/-- `patch_questions_from_ai`: whether a row is patched. -/
def patchQuestionsFromAi (rowFound : ℕ → Bool) (patches : List Question) : Option Bool :=
  (patches.mapM (patchWritten L rowFound)).map fun written => written.any id

/-- `persist_question_patches`. -/
def persistQuestionPatches (s : GraphState) (o : Outcome) : Option GraphState :=
  if s.validatedPatches = [] then
    some { s with error := some "No validated question patches to persist." }
  else (patchQuestionsFromAi L o.rowFound s.validatedPatches).map fun patched =>
    if patched then s
    else { s with error := some "Failed to persist any question patches." }

/-! ## Edges -/

/-- `is_question_rework_run`. -/
def isQuestionReworkRun (s : GraphState) : Bool :=
  s.mode = .improve || (s.questionIds ≠ [] && s.mode = .unset)

/-- The truth value of `raw_llm_output`. -/
def GraphState.hasRaw (s : GraphState) : Bool :=
  s.rawLlmOutput ≠ none && s.rawLlmOutput ≠ some .empty

/-- `_resolve_generate_resume_next_node`. -/
def resolveGenerateResumeNextNode (s : GraphState) (lastCompletedNode : Option Node) : Node :=
  match lastCompletedNode with
  | some .loadGenerationContext =>
    if !s.studyMaterialContent then .loadGenerationContext
    else if s.mode = .regenerate ∧ s.existingQuizQuestions = false then
      .loadExistingQuizIfRegenerate
    else .quizGenerator
  | some .loadExistingQuizIfRegenerate => .quizGenerator
  | some .quizGenerator =>
    if s.terminalLlmFailure then .persistQuizDraft
    else if s.presentWithoutQc ∧ (s.structValidationPassed ∨ s.qcPassed) then .persistQuizDraft
    else if s.error ≠ none then
      if s.hasRaw ∧ s.parsedQuestions = none then .parseQuizOutput else .quizGenerator
    else if s.validatedQuestions ≠ none then .deterministicValidate
    else if s.parsedQuestions ≠ none then .deterministicValidate
    else if s.hasRaw then .parseQuizOutput
    else .quizGenerator
  | some .parseQuizOutput =>
    if s.error ≠ none then if s.hasRaw then .parseQuizOutput else .quizGenerator
    else .deterministicValidate
  | some .deterministicValidate =>
    if s.structValidationPassed then
      if s.presentWithoutQc then .persistQuizDraft else .qualityCheck
    else if s.qcFailedPermanently then .persistQuizDraft
    else .quizGenerator
  | some .qualityCheck =>
    if s.qcPassed ∨ s.qcFailedPermanently then .persistQuizDraft
    else if s.qcResult = some .infraError then .qualityCheck
    else if s.qcRetryMode ∈ QUESTION_GENERATOR_RETRY_MODES ∨
        s.qcRetryMode = .fullRegeneration then .quizGenerator
    else if s.validatedQuestions.getD [] ≠ [] then .qualityCheck
    else .loadGenerationContext
  | some .persistQuizDraft => .persistQuizDraft
  | _ => .loadGenerationContext

/-- `_resolve_rework_resume_next_node`. -/
def resolveReworkResumeNextNode (s : GraphState) (lastCompletedNode : Option Node) : Node :=
  match lastCompletedNode with
  | some .loadQuizSingleRegenContext =>
    if s.allQuestions = [] then .loadQuizSingleRegenContext else .buildQuizSingleRegenPrompt
  | some .buildQuizSingleRegenPrompt =>
    if s.promptInput then .invokeQuizSingleRegenLlm else .buildQuizSingleRegenPrompt
  | some .invokeQuizSingleRegenLlm =>
    if s.terminalLlmFailure then .ended
    else if s.error ≠ none then
      if s.hasRaw ∧ s.parsedPatches = none then .parseQuizSingleRegenOutput
      else .invokeQuizSingleRegenLlm
    else if s.parsedPatches ≠ none then .deterministicValidateQuestionPatches
    else if s.hasRaw then .parseQuizSingleRegenOutput
    else .invokeQuizSingleRegenLlm
  | some .parseQuizSingleRegenOutput =>
    if s.error ≠ none then
      if s.hasRaw then .parseQuizSingleRegenOutput else .invokeQuizSingleRegenLlm
    else .deterministicValidateQuestionPatches
  | some .deterministicValidateQuestionPatches =>
    if s.error ≠ none then .ended
    else if s.validatedPatches ≠ [] then .persistQuestionPatches
    else .invokeQuizSingleRegenLlm
  | some .persistQuestionPatches => .persistQuestionPatches
  | _ => .loadQuizSingleRegenContext

/-- `resolve_resume_next_node`. -/
def resolveResumeNextNode (s : GraphState) (lastCompletedNode : Option Node) : Node :=
  if isQuestionReworkRun s then resolveReworkResumeNextNode s lastCompletedNode
  else resolveGenerateResumeNextNode s lastCompletedNode

/-- `_route_from_entry`. -/
def routeFromEntry (s : GraphState) : Node :=
  if s.isResume then resolveResumeNextNode s s.lastCompletedNode
  else if isQuestionReworkRun s then .loadQuizSingleRegenContext
  else .loadGenerationContext

/-- `_route_after_load_context`. -/
def routeAfterLoadContext (s : GraphState) : Node :=
  if s.mode = .regenerate then .loadExistingQuizIfRegenerate else .quizGenerator

/-- `_route_after_quiz_generator`. -/
def routeAfterQuizGenerator (s : GraphState) : Node :=
  if s.terminalLlmFailure then .persistQuizDraft
  else if s.error ≠ none then .ended
  else if s.presentWithoutQc ∧ s.structValidationPassed then .persistQuizDraft
  else if s.parsedQuestions ≠ none then .deterministicValidate
  else .parseQuizOutput

/-- `_route_after_parse`. -/
def routeAfterParse (s : GraphState) : Node :=
  if s.error ≠ none then .ended else .deterministicValidate

/-- `_route_after_deterministic_validate`. -/
def routeAfterDeterministicValidate (s : GraphState) : Node :=
  if s.structValidationPassed then
    if s.presentWithoutQc then .persistQuizDraft else .qualityCheck
  else if s.qcFailedPermanently then .persistQuizDraft
  else .quizGenerator

/-- `_route_after_quality_check`. -/
def routeAfterQualityCheck (s : GraphState) : Node :=
  if s.qcPassed then .persistQuizDraft
  else if s.qcFailedPermanently then .persistQuizDraft
  else if s.qcResult = some .infraError ∧ s.qcAttempt < MAX_QC_ATTEMPTS then .qualityCheck
  else .quizGenerator

/-- `_route_after_rework_invoke`. -/
def routeAfterReworkInvoke (s : GraphState) : Node :=
  if s.terminalLlmFailure ∨ s.error ≠ none then .ended else .parseQuizSingleRegenOutput

/-- `_route_after_rework_parse`. -/
def routeAfterReworkParse (s : GraphState) : Node :=
  if s.error ≠ none then .ended else .deterministicValidateQuestionPatches

/-- `_route_after_rework_validate`. -/
def routeAfterReworkValidate (s : GraphState) : Node :=
  if s.error ≠ none then .ended else .persistQuestionPatches

/-! ## Steps -/

/-- A node that is about to run, and the state it reads. -/
structure Config where
  node : Node
  state : GraphState
  deriving DecidableEq

/-- Follow an edge, or leave the graph with an exception. -/
def Config.follow (c : Config) (next : Option GraphState) (route : GraphState → Node) : Config :=
  match next with
  | none => { c with node := .raised }
  | some s => ⟨route s, s⟩

/-- The visit of a node; nothing is visited once the run is over. -/
def visit (c : Config) (o : Outcome) : Option Config :=
  let s := c.state
  match c.node with
  | .entryRouter => some ⟨routeFromEntry s, s⟩
  | .loadGenerationContext =>
    some (c.follow (some { s with studyMaterialContent := o.material }) routeAfterLoadContext)
  | .loadExistingQuizIfRegenerate =>
    some (c.follow (some { s with existingQuizQuestions :=
      if s.mode = .regenerate then !o.existing.isEmpty else s.existingQuizQuestions })
      fun _ => .quizGenerator)
  | .quizGenerator => some (c.follow (quizGeneratorNode L s o) routeAfterQuizGenerator)
  | .parseQuizOutput => some (c.follow (some (parseQuizOutput L s o)) routeAfterParse)
  | .deterministicValidate =>
    some (c.follow (deterministicValidateNode L s) routeAfterDeterministicValidate)
  | .qualityCheck => some (c.follow (qualityCheckNode L s o) routeAfterQualityCheck)
  | .persistQuizDraft => some (c.follow (persistQuizDraftNode L s) fun _ => .ended)
  | .loadQuizSingleRegenContext =>
    some ⟨.buildQuizSingleRegenPrompt,
      { s with studyMaterialContent := o.material, allQuestions := o.existing }⟩
  | .buildQuizSingleRegenPrompt => some ⟨.invokeQuizSingleRegenLlm, { s with promptInput := true }⟩
  | .invokeQuizSingleRegenLlm =>
    some (c.follow (some (invokeQuizSingleRegenLlm s o)) routeAfterReworkInvoke)
  | .parseQuizSingleRegenOutput =>
    some (c.follow (some (parseQuizSingleRegenOutput L s o)) routeAfterReworkParse)
  | .deterministicValidateQuestionPatches =>
    some (c.follow (deterministicValidateQuestionPatches L s) routeAfterReworkValidate)
  | .persistQuestionPatches => some (c.follow (persistQuestionPatches L s o) fun _ => .ended)
  | .ended => none
  | .raised => none

end

end StudyAgent.Quiz
