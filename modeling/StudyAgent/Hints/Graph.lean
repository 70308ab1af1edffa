import StudyAgent.Hints.Validation
import StudyAgent.Parsing.JsonExtraction

/-!
# The hint graph, broken off and taken up

A hint run asks the model once for a whole batch and stores the answer with its checkpoint.  Behind
every node that ends well the rows that it staged are committed together with the next checkpoint;
a run that broke off is taken up at the node that its checkpoint names.
-/

namespace StudyAgent.Hints.Graph

open Py OrderedDict Runs Hints

/-! ## The nodes -/

/-- What a hint run reads and writes of its quiz: the rows, the active questions in their order,
and of `qc_result` the part of the hints. -/
structure Quiz where
  db : Database
  order : List String
  nodup : order.Nodup
  questionErrors : List (String × HintQuestionError)
  llmFailure : Bool

/-- The request, the limit of retries, and `json.loads`: of an array the elements, `none` of
another value. -/
structure Params where
  quizId : String
  filterIds : List String
  maxRetries : ℤ
  loads : List Char → Except String (Option (List ReplyItem))

/-- A fresh state. -/
def initialState : HintState where
  questionsForHinting := []
  promptInput := false
  rawLlmOutput := none
  parsedHints := []
  validatedHints := []
  hintsWritten := []
  failedQuestionIds := []
  hintGenerationDiagnostics := none
  terminalLlmFailure := false
  error := none

/-- `get_active_questions_missing_hints`. -/
def Quiz.missingHints (quiz : Quiz) : List String :=
  quiz.order.filter fun q => (quiz.db.questions q).any fun row =>
    row.hint1 = .null || row.hint2 = .null || row.hint3 = .null

/-- `get_active_questions_by_ids`. -/
def Quiz.activeByIds (quiz : Quiz) (ids : List String) : List String :=
  quiz.order.filter fun q => q ∈ ids

/-- The questions that a request is for: those that it names, or those without hints. -/
def Quiz.requested (quiz : Quiz) (p : Params) : List String :=
  if p.filterIds ≠ [] then quiz.activeByIds p.filterIds else quiz.missingHints

/-- Those that the state does not count as written. -/
def HintState.left (s : HintState) (questions : List String) : List String :=
  questions.filter fun q => (get s.hintsWritten q).isNone

/-- `load_hint_context`; `none` is one of its exceptions. -/
def loadHintContext (p : Params) (s : HintState) (quiz : Quiz) : Option HintState :=
  if quiz.db.isPublished p.quizId ≠ some false then none
  else if quiz.requested p = [] then none
  else if s.hintsWritten ≠ [] ∧ HintState.left s (quiz.requested p) = [] ∧
      s.failedQuestionIds = [] then none
  else some { s with questionsForHinting := HintState.left s (quiz.requested p) }

/-- `build_hint_prompt_payload`. -/
def buildHintPromptPayload (s : HintState) : HintState := { s with promptInput := true }

/-- `invoke_hint_llm`, with what the model answered; `none` is a call that failed for good. -/
def invokeHintLlm (reply : Option String) (s : HintState) : HintState :=
  if s.promptInput then
    match reply with
    | none => { s with terminalLlmFailure := true }
    | some content => { s with rawLlmOutput := some content }
  else { s with error := some "Missing prompt input for hint generation." }

/-- `_parse_json_array`. -/
def parseJsonArray (loads : List Char → Except String (Option (List ReplyItem))) (raw : String) :
    Except String (List ReplyItem) :=
  let text := stripChars raw.toList
  let text :=
    if Parsing.fence <+: text then
      let inner := Parsing.afterFirstLine text
      let inner := if Parsing.fence <:+ inner then inner.take (inner.length - 3) else inner
      let inner := stripChars inner
      if "json".toList <+: (lower (String.ofList inner)).toList then stripChars (inner.drop 4)
      else inner
    else text
  match loads text with
  | .error message => .error message
  | .ok none => .error "Expected a JSON array."
  | .ok (some items) => .ok items

/-- The body of the loop of `parse_hint_output`. -/
def parseItem (validIds : List String) : ReplyItem → Except String HintPayload
  | .other => .error "Hint output element is not an object."
  | .object none _ _ _ => .error "Hint output element missing question_id."
  | .object (some .null) _ _ _ => .error "Hint output element missing question_id."
  | .object (some questionId) hint1 hint2 hint3 =>
    if questionId.text ∉ validIds then
      .error ("Hint references unknown question_id: " ++ questionId.text ++ ".")
    else
      match hint1, hint2, hint3 with
      | some hint1, some hint2, some hint3 => .ok ⟨questionId.text, hint1, hint2, hint3⟩
      | none, _, _ => .error "Hint output missing field: hint_1."
      | _, none, _ => .error "Hint output missing field: hint_2."
      | _, _, none => .error "Hint output missing field: hint_3."

/-- What `parse_hint_output` makes of an answer. -/
def parseHints (p : Params) (questions : List String) (raw : String) :
    Except String (List HintPayload) :=
  if raw = "" then .error "No LLM output to parse."
  else
    match parseJsonArray p.loads raw with
    | .error message => .error ("Malformed hint output: " ++ message)
    | .ok items => items.mapM (parseItem questions)

/-- `parse_hint_output`. -/
def parseHintOutput (p : Params) (s : HintState) : HintState :=
  match parseHints p s.questionsForHinting (s.rawLlmOutput.getD "") with
  | .error message => { s with error := some message }
  | .ok parsed => { s with parsedHints := parsed }

/-- `merge_quiz_qc_result` with the errors of a validation: an error replaces an earlier one of
its question. -/
def Quiz.mergeQuestionErrors (quiz : Quiz) (quizId : String) (errors : List HintQuestionError) :
    Quiz :=
  if (quiz.db.isPublished quizId).isSome then
    { quiz with
      questionErrors := errors.foldl (fun d error => insert error.questionId error d)
        quiz.questionErrors }
  else quiz

/-- `merge_quiz_qc_result` with the failure of the call. -/
def Quiz.mergeLlmFailure (quiz : Quiz) (quizId : String) : Quiz :=
  if (quiz.db.isPublished quizId).isSome then { quiz with llmFailure := true } else quiz

/-- `persist_hints_to_questions` with its diagnostics. -/
def persistHints (p : Params) (s : HintState) (quiz : Quiz) : Option Quiz :=
  (persistHintsToQuestions s quiz.db).map fun db =>
    match s.hintGenerationDiagnostics with
    | some errors => { quiz with db := db }.mergeQuestionErrors p.quizId errors
    | none => { quiz with db := db }

/-- The flush behind merged errors raises: their `question_id` is a `UUID`, which is no JSON. -/
def flushRaises (p : Params) (s : HintState) (quiz : Quiz) (n : HintNode) : Bool :=
  n = .persistHintsToQuestions && s.hintGenerationDiagnostics.any (fun errors => !errors.isEmpty) &&
    (quiz.db.isPublished p.quizId).isSome

/-- What a node returns, and the quiz as its session sees it then; `none` is an exception. -/
def runNode (p : Params) (reply : Option String) (replies : ℕ → Option (List ReplyItem))
    (s : HintState) (quiz : Quiz) : HintNode → Option (HintState × Quiz)
  | .loadHintContext => (loadHintContext p s quiz).map fun s' => (s', quiz)
  | .buildHintPromptPayload => some (buildHintPromptPayload s, quiz)
  | .invokeHintLlm => some (invokeHintLlm reply s, quiz)
  | .parseHintOutput => some (parseHintOutput p s, quiz)
  | .validateHintQuality =>
    (validateHintQuality replies p.maxRetries s quiz.db).map fun out =>
      (out.state, { quiz with db := out.db })
  | .persistHintsToQuestions => (persistHints p s quiz).map fun quiz' => (s, quiz')
  | .persistHintFailureDiagnostics => some (s, quiz.mergeLlmFailure p.quizId)

/-- The edges: `_route_after_invoke`, `_route_after_parse` and `_route_after_validate`. -/
def successor (s : HintState) : HintNode → Option HintNode
  | .loadHintContext => some .buildHintPromptPayload
  | .buildHintPromptPayload => some .invokeHintLlm
  | .invokeHintLlm =>
    if s.terminalLlmFailure then some .persistHintFailureDiagnostics
    else if s.error.getD "" ≠ "" then none
    else some .parseHintOutput
  | .parseHintOutput => if s.error.getD "" ≠ "" then none else some .validateHintQuality
  | .validateHintQuality => if s.error.getD "" ≠ "" then none else some .persistHintsToQuestions
  | .persistHintsToQuestions => none
  | .persistHintFailureDiagnostics => none

/-- `node_succeeded`. -/
def nodeSucceeded (s : HintState) : Bool := s.error.getD "" = "" && !s.terminalLlmFailure

/-- What of a node that breaks off has reached the session: `looked` questions of a validation,
all or nothing of another node. -/
def stagedBy (p : Params) (reply : Option String) (replies : ℕ → Option (List ReplyItem))
    (looked : ℕ) (s : HintState) (quiz : Quiz) : HintNode → Quiz
  | .validateHintQuality =>
    if (s.parsedHints.map (·.questionId)).Nodup then
      match (s.pending.take looked).foldlM
        (validateQuestion replies p.maxRetries (ofList (·.questionId) s.parsedHints))
        { db := quiz.db
          validated := []
          hintsWritten := s.hintsWritten
          questionErrors := []
          asked := [] } with
      | some progress => { quiz with db := progress.db }
      | none => quiz
    else quiz
  | n => ((runNode p reply replies s quiz n).map Prod.snd).getD quiz

/-! ## A run -/

/-- A graph at work: its state, and the node that is next. -/
structure Live where
  state : HintState
  next : Option HintNode

def MAX_RESUME_ATTEMPTS : ℕ := 5

/-- What is committed of a hint run and its quiz, the graph at work on it, whether the errors in
its state are of its own worker (a checkpoint keeps them as JSON), the state that the graph has
ended with, and three things to speak about: the questions that others have changed, whether the
quiz was replaced, and how often the model was asked for the batch. -/
structure Config where
  quiz : Quiz
  checkpoint : Option (HintState × HintNode)
  live : Option Live
  completed : Bool
  touched : List String
  replaced : Bool
  asked : ℕ
  attemptCount : ℕ := 0
  ownErrors : Bool := false
  returned : Option HintState := none

/-- What can happen.  Rows that a node has staged stay locked to the commit and a validation reads
each row once, so what others change meanwhile might as well have come before. -/
inductive Event where
  /-- A worker takes the run, from the beginning or (`resume`) from its checkpoint. -/
  | enter (resume : Bool)
  /-- The next node returns. -/
  | node (reply : Option String) (replies : ℕ → Option (List ReplyItem))
  /-- The next node raises, or the worker dies, is stopped or loses its run.  What the session
  holds may still be committed then, the checkpoint is not written. -/
  | broken (reply : Option String) (replies : ℕ → Option (List ReplyItem)) (looked : ℕ)
      (committed : Bool)
  /-- The graph has ended, and the service settles the run. -/
  | finish
  /-- Others change these questions, or the rest of the quiz. -/
  | others (questionIds : List String) (quiz : Quiz)
  /-- The draft is generated anew, or deleted. -/
  | replace (quiz : Quiz)

/-- `_route_from_entry` for a worker that takes the run. -/
def entered (checkpoint : Option (HintState × HintNode)) (resume : Bool) : Live :=
  if resume then
    match checkpoint with
    | some (s, n) => ⟨s, some (resolveResumeNextNode s (some n))⟩
    | none => ⟨initialState, some (resolveResumeNextNode initialState none)⟩
  else ⟨initialState, some .loadHintContext⟩

/-- The model is asked for the batch. -/
def asks (s : HintState) (n : HintNode) : Bool := n = .invokeHintLlm && s.promptInput

/-- The next node raises when it flushes. -/
def Config.raises (p : Params) (c : Config) (s : HintState) (n : HintNode) : Bool :=
  c.ownErrors && flushRaises p s c.quiz n

/-- `invoke_graph_with_progress` and the service around it, one event at a time. -/
def step (p : Params) (c : Config) : Event → Option Config
  | .enter resume =>
    if c.live.isNone && !c.completed && (!resume || c.attemptCount < MAX_RESUME_ATTEMPTS) then
      some
        { c with
          live := some (entered c.checkpoint resume)
          attemptCount := if resume then c.attemptCount + 1 else c.attemptCount
          ownErrors := false }
    else none
  | .node reply replies =>
    match c.live with
    | some ⟨s, some n⟩ =>
      if c.raises p s n then none
      else
        (runNode p reply replies s c.quiz n).map fun (s', quiz) =>
          { c with
            quiz := quiz
            checkpoint := if nodeSucceeded s' then some (s', n) else c.checkpoint
            live := some ⟨s', successor s' n⟩
            asked := if asks s n then c.asked + 1 else c.asked
            ownErrors := c.ownErrors || n = .validateHintQuality }
    | _ => none
  | .broken reply replies looked committed =>
    match c.live with
    | some ⟨s, some n⟩ =>
      some
        { c with
          quiz :=
            if committed && !c.raises p s n then stagedBy p reply replies looked s c.quiz n
            else c.quiz
          live := none
          asked := if asks s n then c.asked + 1 else c.asked }
    | some ⟨_, none⟩ => some { c with live := none }
    | none => none
  | .finish =>
    match c.live with
    | some ⟨s, none⟩ =>
      some
        { c with
          live := none
          completed := s.terminalLlmFailure || s.error.getD "" = ""
          returned := some s }
    | _ => none
  | .others questionIds quiz => some { c with quiz := quiz, touched := c.touched ++ questionIds }
  | .replace quiz => some { c with quiz := quiz, replaced := true }

/-- A run that no worker has taken yet. -/
structure Start (c : Config) : Prop where
  checkpoint : c.checkpoint = none
  live : c.live = none
  completed : c.completed = false

/-- What others keep who do not replace the quiz: the rows that they do not change, and what
`qc_result` holds of hints. -/
structure Keeps (quizId : String) (questionIds : List String) (quiz quiz' : Quiz) : Prop where
  rows : ∀ q ∉ questionIds, quiz'.db.questions q = quiz.db.questions q
  present : (quiz.db.isPublished quizId).isSome → (quiz'.db.isPublished quizId).isSome
  errors : ∀ q, (get quiz.questionErrors q).isSome → (get quiz'.questionErrors q).isSome
  llmFailure : quiz.llmFailure = true → quiz'.llmFailure = true

/-- The events that can happen. -/
def Goes (p : Params) (c : Config) : Event → Prop
  | .others questionIds quiz => Keeps p.quizId questionIds c.quiz quiz
  | _ => True

/-- A run with a checkpoint is taken up there. -/
def Resumes (p : Params) (c : Config) (e : Event) : Prop :=
  Goes p c e ∧ (e = .enter false → c.checkpoint = none)

end StudyAgent.Hints.Graph
