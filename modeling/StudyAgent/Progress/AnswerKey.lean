import StudyAgent.Base.Unwinding
import StudyAgent.Lifecycle.Quizzes
import StudyAgent.Progress.Attempts

/-!
# What trainees are told of the answers

Trainees take the quizzes of a database: they start attempts, answer, ask for their hints, submit,
look at their attempts, and review quizzes that are archived.  Meanwhile the mentors replace the
content of the quizzes and freeze attempts.

The fields of a question that a trainee has to find out, its correct option, its explanation and
its hints, are in an answer key of their own, one for each version of the content.

Scores are the exact quotients; how they are rounded, and what a submission unlocks, is computed
elsewhere.
-/

namespace StudyAgent.Progress.AnswerKey

open Lifecycle (LifecycleStatus)

variable {κ : Type}

/-! ## Rows -/

/-- The fields of a `QuizQuestion` that are not shown with the question. -/
structure Secret where
  correctOption : CorrectOption
  explanation : Option String
  hint1 : Option String
  hint2 : Option String
  hint3 : Option String

/-- The secrets of the questions in each version of the content. -/
abbrev Key (κ : Type) := ℕ → κ → Secret

/-- The other fields of a `QuizQuestion`. -/
structure QuestionRow (κ : Type) where
  questionId : κ
  quizId : κ
  questionText : String
  optionA : String
  optionB : String
  optionC : Option String
  optionD : Option String
  orderIndex : ℤ
  isActive : Bool := true

/-- The question as the rules on skipped questions take it. -/
def QuestionRow.question (secrets : κ → Secret) (q : QuestionRow κ) : Question κ :=
  ⟨q.questionId, (secrets q.questionId).correctOption, q.isActive⟩

/-- `QuizDifficulty`. -/
inductive Difficulty where
  | easy
  | medium
  | hard
  | mixed

/-- `Quiz`. -/
structure QuizRow (κ : Type) where
  quizId : κ
  nodeId : κ
  title : String
  difficulty : Difficulty
  totalQuestions : ℕ
  passThresholdPercent : ℕ
  isPublished : Bool
  lifecycleStatus : LifecycleStatus
  studyMaterialVersionId : Option κ

/-- What the mentors write: the quizzes, their questions in the order of `order_index`, and the
version of the study material that is published on a node. -/
structure Content (κ : Type) where
  quizzes : List (QuizRow κ)
  questions : List (QuestionRow κ)
  publishedMaterial : κ → Option κ

/-- `QuizAttempt`. -/
structure AttemptRow (κ : Type) where
  attemptId : κ
  quizId : κ
  nodeId : κ
  traineeId : κ
  status : AttemptStatus := .inProgress
  responses : List (Response κ) := []
  totals : Option Totals := none
  resumeQuestionId : Option κ := none
  startedAt : ℕ
  submittedAt : Option ℕ := none

/-- `attempt.score`. -/
def AttemptRow.score (a : AttemptRow κ) : Option ℚ := a.totals.map Totals.score

/-- The tables, with the number of times that the content has been replaced and the time. -/
structure Database (κ : Type) where
  content : Content κ
  version : ℕ := 0
  attempts : List (AttemptRow κ) := []
  now : ℕ := 0

/-! ## Queries -/

section Queries

variable [DecidableEq κ]

/-- `get_quiz_by_id`. -/
def Content.getQuizById (c : Content κ) (quizId : κ) : Option (QuizRow κ) :=
  c.quizzes.find? fun quiz => quiz.quizId = quizId

/-- `get_published_quiz_by_node`. -/
def Content.getPublishedQuizByNode (c : Content κ) (nodeId : κ) : Option (QuizRow κ) :=
  c.quizzes.find? fun quiz => quiz.nodeId = nodeId ∧ quiz.isPublished

/-- `get_all_questions_by_quiz`. -/
def Content.getAllQuestionsByQuiz (c : Content κ) (quizId : κ) : List (QuestionRow κ) :=
  c.questions.filter fun q => q.quizId = quizId

/-- `get_active_questions_by_quiz`. -/
def Content.getActiveQuestionsByQuiz (c : Content κ) (quizId : κ) : List (QuestionRow κ) :=
  (c.getAllQuestionsByQuiz quizId).filter QuestionRow.isActive

/-- `get_question_by_id`. -/
def Content.getQuestionById (c : Content κ) (questionId : κ) : Option (QuestionRow κ) :=
  c.questions.find? fun q => q.questionId = questionId

/-- `get_attempt_by_id`. -/
def Database.getAttemptById (db : Database κ) (attemptId : κ) : Option (AttemptRow κ) :=
  db.attempts.find? fun a => a.attemptId = attemptId

/-- The attempts of a trainee on a quiz. -/
def Database.attemptsOn (db : Database κ) (quizId traineeId : κ) : List (AttemptRow κ) :=
  db.attempts.filter fun a => a.traineeId = traineeId ∧ a.quizId = quizId

/-- The attempts of a trainee. -/
def Database.attemptsOf (db : Database κ) (traineeId : κ) : List (AttemptRow κ) :=
  db.attempts.filter fun a => a.traineeId = traineeId

/-- `ORDER BY submitted_at DESC NULLS LAST, started_at DESC`. -/
def newestFirst (a b : AttemptRow κ) : Bool :=
  match a.submittedAt, b.submittedAt with
  | some s, some t => t < s ∨ t = s ∧ b.startedAt ≤ a.startedAt
  | some _, none => true
  | none, some _ => false
  | none, none => b.startedAt ≤ a.startedAt

/-- `list_attempts_by_quiz_and_trainee`. -/
def Database.listAttemptsByQuizAndTrainee (db : Database κ) (quizId traineeId : κ) :
    List (AttemptRow κ) :=
  (db.attemptsOn quizId traineeId).mergeSort newestFirst

/-- `get_active_attempt_by_quiz_and_trainee`. -/
def Database.getActiveAttempt (db : Database κ) (quizId traineeId : κ) : Option (AttemptRow κ) :=
  (db.attemptsOn quizId traineeId).find? fun a => a.status = .inProgress

/-- The scores of the attempts that a trainee has submitted on a quiz. -/
def Database.submittedScores (db : Database κ) (quizId traineeId : κ) : List ℚ :=
  ((db.attemptsOn quizId traineeId).filter fun a => a.status = .submitted).filterMap
    AttemptRow.score

/-- `get_best_submitted_score`. -/
def Database.getBestSubmittedScore (db : Database κ) (quizId traineeId : κ) : Option ℚ :=
  (db.submittedScores quizId traineeId).max?

/-- An attempt is written back. -/
def Database.put (db : Database κ) (attempt : AttemptRow κ) : Database κ :=
  { db with
    attempts := db.attempts.map fun a => if a.attemptId = attempt.attemptId then attempt else a }

end Queries

/-! ## Questions as they are shown -/

/-- `QuestionNavStatus`. -/
inductive QuestionNavStatus where
  | notVisited
  | visited
  | answered
  | skipped

/-- `compute_nav_status`. -/
def computeNavStatus (response : Option (Response κ)) (attemptSubmitted skippedAtSubmit : Bool) :
    QuestionNavStatus :=
  match response with
  | none => if attemptSubmitted && skippedAtSubmit then .skipped else .notVisited
  | some r =>
    if r.wasLocked then .answered
    else if r.wasSkipped then .skipped
    else if attemptSubmitted && skippedAtSubmit then .skipped
    else if r.isVisited ∨ r.selectedOption.isSome ∨ 0 < r.hintLevelReached ∨
        r.isCorrect = some false then .visited
    else .notVisited

/-- `can_answer_question`, and `can_skip_question`. -/
def canAnswerQuestion (isActive attemptSubmitted wasLocked : Bool) : Bool :=
  isActive && !attemptSubmitted && !wasLocked

/-- `TraineeQuizQuestionOut`. -/
structure QuestionOut (κ : Type) where
  question : QuestionRow κ
  hint1 : Option String
  hint2 : Option String
  hint3 : Option String
  hintLevelReached : ℕ
  wasSkipped : Bool
  isFlagged : Bool
  wasLocked : Bool
  selectedOption : Option CorrectOption
  isCorrect : Option Bool
  correctOption : Option CorrectOption
  explanation : Option String
  navStatus : QuestionNavStatus
  canAnswer : Bool
  canSkip : Bool

/-- `_build_question_out`. -/
def buildQuestionOut (secrets : κ → Secret) (question : QuestionRow κ)
    (response : Option (Response κ)) (attemptSubmitted revealAnswers : Bool) : QuestionOut κ :=
  let secret := secrets question.questionId
  let hintLevel := (response.map Response.hintLevelReached).getD 0
  let wasLocked := response.any Response.wasLocked
  let skippedAtSubmit := isQuestionSkippedAtSubmit (question.question secrets) response
  { question := question
    hint1 := if 1 ≤ hintLevel then secret.hint1 else none
    hint2 := if 2 ≤ hintLevel then secret.hint2 else none
    hint3 := if 3 ≤ hintLevel then secret.hint3 else none
    hintLevelReached := hintLevel
    wasSkipped := if attemptSubmitted then skippedAtSubmit else false
    isFlagged := response.any Response.isFlagged
    wasLocked := wasLocked
    selectedOption := response.bind Response.selectedOption
    isCorrect := response.bind Response.isCorrect
    correctOption := if revealAnswers then some secret.correctOption else none
    explanation := if revealAnswers then secret.explanation else none
    navStatus := computeNavStatus response attemptSubmitted skippedAtSubmit
    canAnswer := canAnswerQuestion question.isActive attemptSubmitted wasLocked
    canSkip := canAnswerQuestion question.isActive attemptSubmitted wasLocked }

/-- `compute_resume_question_id`. -/
def computeResumeQuestionId [DecidableEq κ] (questions : List (QuestionRow κ))
    (responses : List (Response κ)) : Option κ :=
  let active := questions.filter QuestionRow.isActive
  let pending := active.find? fun q =>
    !(getResponse responses q.questionId).any Response.wasLocked
  (pending.or active.getLast?).map QuestionRow.questionId

/-- What the answers show that is computed elsewhere: `round` of a score, a float, times 100, and
the nodes that `record_quiz_attempt_submission` unlocks, at a time, for a trainee with these
attempts who submits this one. -/
structure Outside (κ : Type) where
  roundedPercent : ℚ → ℤ
  newlyUnlocked : ℕ → List (AttemptRow κ) → AttemptRow κ → List κ

/-- `_score_percent`. -/
def Outside.scorePercent (o : Outside κ) (score : Option ℚ) : Option ℤ :=
  score.map o.roundedPercent

/-- `score_meets_pass_threshold`, on quotients. -/
def meetsThreshold (score : Option ℚ) (percent : ℕ) : Bool :=
  scoreMeetsPassThreshold (fun p => (p : ℚ) / 100) score (some percent)

/-- `TraineeQuizOut`. -/
structure TraineeQuizOut (κ : Type) where
  quiz : QuizRow κ
  attemptId : κ
  attemptStatus : AttemptStatus
  startedAt : ℕ
  resumeQuestionId : Option κ
  scorePercent : Option ℤ
  bestScorePercent : Option ℤ
  hasMetPassThreshold : Bool
  totalCorrect : Option ℕ
  totalSkipped : Option ℕ
  questions : List (QuestionOut κ)

/-- `_build_trainee_quiz_out`. -/
def buildTraineeQuizOut [DecidableEq κ] (o : Outside κ) (secrets : κ → Secret)
    (quiz : QuizRow κ) (attempt : AttemptRow κ) (questions : List (QuestionRow κ))
    (bestScore : Option ℚ) : TraineeQuizOut κ :=
  let attemptSubmitted := attempt.status = .submitted
  let effectiveBestScore := bestScore.or attempt.score
  let hasMetPassThreshold := meetsThreshold effectiveBestScore quiz.passThresholdPercent
  { quiz := quiz
    attemptId := attempt.attemptId
    attemptStatus := attempt.status
    startedAt := attempt.startedAt
    resumeQuestionId :=
      if attempt.status = .inProgress then
        (attempt.resumeQuestionId.filter fun id =>
          (questions.filter QuestionRow.isActive).any fun q => q.questionId = id).or
            (computeResumeQuestionId questions attempt.responses)
      else none
    scorePercent := o.scorePercent attempt.score
    bestScorePercent := o.scorePercent effectiveBestScore
    hasMetPassThreshold := hasMetPassThreshold
    totalCorrect := if attemptSubmitted then attempt.totals.map Totals.totalCorrect else none
    totalSkipped := if attemptSubmitted then attempt.totals.map Totals.totalSkipped else none
    questions := questions.map fun q =>
      buildQuestionOut secrets q (getResponse attempt.responses q.questionId) attemptSubmitted
        (attemptSubmitted && hasMetPassThreshold) }

/-! ## Requests -/

/-- The caller of a request, and what the checks on the role, on the node with its space, and on
the unlocked nodes find for it. -/
structure Caller (κ : Type) where
  userId : κ
  isTrainee : Bool := true
  hasAccess : Bool := true
  isUnlocked : Bool := true

/-- The exceptions of the service. -/
inductive Refusal (κ : Type) where
  | notTrainee
  | noAccess
  | nodeLocked
  | quizNotFound
  | quizNotPublished
  | attemptAlreadyInProgress (attemptId : κ)
  | quizHasNoPublishedStudyMaterial
  | quizStudyMaterialNotCurrentPublished
  | attemptIdInUse
  | quizAttemptNotFound
  | attemptForbidden
  | attemptAlreadySubmitted
  | attemptAbandoned (nodeId quizId : κ)
  | invalidSkipPayload
  | questionBelongsToAnotherAttempt
  | questionAlreadyLocked
  | studyMaterialArchiveNotAvailable

/-- `QuizAttemptStateOut`. -/
structure AttemptStateOut (κ : Type) where
  attemptId : κ
  questionId : κ
  isVisited : Bool
  isFlagged : Bool
  wasSkipped : Bool
  resumeQuestionId : Option κ

/-- `QuizQuestionResponseOut`. -/
structure ResponseOut (κ : Type) where
  attemptId : κ
  questionId : κ
  selectedOption : Option CorrectOption
  isCorrect : Bool
  hintLevelReached : ℕ
  wasSkipped : Bool
  wasLocked : Bool
  hint1 : Option String
  hint2 : Option String
  hint3 : Option String
  nextQuestionId : Option κ
  resumeQuestionId : Option κ

/-- `QuizAttemptOut`. -/
structure AttemptOut (κ : Type) where
  attemptId : κ
  quizId : κ
  nodeId : κ
  traineeId : κ
  status : AttemptStatus
  totals : Option Totals
  startedAt : ℕ
  submittedAt : Option ℕ
  newlyUnlockedNodeIds : List κ := []

/-- `TraineeQuizAttemptSummaryOut`. -/
structure AttemptSummaryOut (κ : Type) where
  attempt : AttemptOut κ
  scorePercent : Option ℤ
  totalQuestions : ℕ
  attemptNumber : ℕ

/-- `ArchivedQuizReviewOut`. -/
structure ArchivedQuizReviewOut (κ : Type) where
  quiz : QuizRow κ
  attempt : Option (AttemptOut κ)
  isPartialAttempt : Bool
  scorePercent : Option ℤ
  questions : List (QuestionOut κ)

/-- What a request is answered. -/
inductive Answer (κ : Type) where
  | refused (refusal : Refusal κ)
  | quiz (out : TraineeQuizOut κ)
  | state (out : AttemptStateOut κ)
  | response (out : ResponseOut κ)
  | submitted (out : AttemptOut κ)
  | attempts (quiz : QuizRow κ) (summaries : List (AttemptSummaryOut κ))
  | review (out : ArchivedQuizReviewOut κ)
  | done

section Requests

variable [DecidableEq κ]

/-- A request on an attempt: `f` is what it does with the attempt, once the attempt is found to be
the caller's. -/
def onAttempt (db : Database κ) (attemptId userId : κ)
    (f : AttemptRow κ → Except (Refusal κ) (AttemptRow κ × Answer κ)) :
    Database κ × Answer κ :=
  match db.getAttemptById attemptId with
  | none => (db, .refused .quizAttemptNotFound)
  | some attempt =>
    -- `_assert_trainee_owns_attempt`
    if attempt.traineeId ≠ userId then (db, .refused .attemptForbidden)
    else
      match f attempt with
      | .error refusal => (db, .refused refusal)
      | .ok (attempt, answer) => (db.put attempt, answer)

/-- The attempt has been submitted, or frozen. -/
def assertOpen (attempt : AttemptRow κ) : Except (Refusal κ) Unit :=
  match attempt.status with
  | .submitted => .error .attemptAlreadySubmitted
  | .abandoned => .error (.attemptAbandoned attempt.nodeId attempt.quizId)
  | .inProgress => .ok ()

/-- The question is of the quiz of the attempt. -/
def questionOf (content : Content κ) (attempt : AttemptRow κ) (questionId : κ) :
    Except (Refusal κ) (QuestionRow κ) :=
  match content.getQuestionById questionId with
  | none => .error .questionBelongsToAnotherAttempt
  | some question =>
    if question.quizId ≠ attempt.quizId then .error .questionBelongsToAnotherAttempt
    else .ok question

/-- And it is active. -/
def activeQuestionOf (content : Content κ) (attempt : AttemptRow κ) (questionId : κ) :
    Except (Refusal κ) (QuestionRow κ) := do
  let question ← questionOf content attempt questionId
  if question.isActive then .ok question else .error .questionBelongsToAnotherAttempt

/-- The checks of `start_attempt`. -/
def checkStart (db : Database κ) (caller : Caller κ) (nodeId quizId attemptId : κ) :
    Except (Refusal κ) (QuizRow κ) :=
  if !caller.isTrainee then .error .notTrainee
  else if !caller.hasAccess then .error .noAccess
  else if !caller.isUnlocked then .error .nodeLocked
  else
    match db.content.getPublishedQuizByNode nodeId, db.content.getQuizById quizId with
    | some published, some quiz =>
      if published.quizId ≠ quizId ∨ quiz.nodeId ≠ nodeId then .error .quizNotFound
      else if !quiz.isPublished then .error .quizNotPublished
      else
        match db.getActiveAttempt quizId caller.userId, db.content.publishedMaterial nodeId with
        | some active, _ => .error (.attemptAlreadyInProgress active.attemptId)
        | none, none => .error .quizHasNoPublishedStudyMaterial
        | none, some version =>
          if quiz.studyMaterialVersionId.any fun v => v ≠ version then
            .error .quizStudyMaterialNotCurrentPublished
          else if db.attempts.any fun a => a.attemptId = attemptId then .error .attemptIdInUse
          else .ok quiz
    | _, _ => .error .quizNotFound

/-- `create_attempt`. -/
def createAttempt (db : Database κ) (userId nodeId quizId attemptId : κ) : AttemptRow κ :=
  { attemptId := attemptId, quizId := quizId, nodeId := nodeId, traineeId := userId,
    startedAt := db.now }

/-- `start_attempt`, with the id that the row gets. -/
def startAttempt (o : Outside κ) (secrets : κ → Secret) (db : Database κ) (caller : Caller κ)
    (nodeId quizId attemptId : κ) : Database κ × Answer κ :=
  match checkStart db caller nodeId quizId attemptId with
  | .error refusal => (db, .refused refusal)
  | .ok quiz =>
    let attempt := createAttempt db caller.userId nodeId quizId attemptId
    ({ db with attempts := db.attempts ++ [attempt] },
      .quiz (buildTraineeQuizOut o secrets quiz attempt
        (db.content.getActiveQuestionsByQuiz quizId) (db.getBestSubmittedScore quizId caller.userId)))

/-- `QuizAttemptStatePatch`. -/
structure StatePatch (κ : Type) where
  questionId : κ
  isVisited : Option Bool
  isFlagged : Option Bool
  wasSkipped : Option Bool
  resumeQuestionId : Option κ

/-- The checks of `patch_attempt_state`. -/
def checkPatch (content : Content κ) (hasAccess : Bool) (patch : StatePatch κ)
    (attempt : AttemptRow κ) : Except (Refusal κ) (QuestionRow κ) := do
  if !hasAccess then throw .noAccess
  assertOpen attempt
  let question ← activeQuestionOf content attempt patch.questionId
  match patch.resumeQuestionId with
  | none => return question
  | some resume =>
    let _ ← activeQuestionOf content attempt resume
    return question

/-- What `patch_attempt_state` writes and answers. -/
def recordPatch (patch : StatePatch κ) (question : QuestionRow κ) (attempt : AttemptRow κ) :
    AttemptRow κ × AttemptStateOut κ :=
  let responses := patchNavigationState attempt.responses question.questionId patch.isVisited
    patch.isFlagged patch.wasSkipped
  let resumeQuestionId := patch.resumeQuestionId.or attempt.resumeQuestionId
  let response := getResponse responses question.questionId
  ({ attempt with responses := responses, resumeQuestionId := resumeQuestionId },
    { attemptId := attempt.attemptId
      questionId := question.questionId
      isVisited := response.any Response.isVisited
      isFlagged := response.any Response.isFlagged
      wasSkipped := response.any Response.wasSkipped
      resumeQuestionId := resumeQuestionId })

/-- `patch_attempt_state`, on the attempt. -/
def patchAttempt (content : Content κ) (hasAccess : Bool) (patch : StatePatch κ)
    (attempt : AttemptRow κ) : Except (Refusal κ) (AttemptRow κ × Answer κ) := do
  let question ← checkPatch content hasAccess patch attempt
  let (attempt, out) := recordPatch patch question attempt
  return (attempt, .state out)

/-- The active question behind one. -/
def nextQuestionId (active : List (QuestionRow κ)) (questionId : κ) : Option κ :=
  ((active.dropWhile fun q => q.questionId ≠ questionId).tail.head?).map QuestionRow.questionId

/-- The checks of `submit_response`. -/
def checkAnswer (content : Content κ) (questionId : κ) (selectedOption : Option CorrectOption)
    (attempt : AttemptRow κ) : Except (Refusal κ) (CorrectOption × QuestionRow κ) := do
  assertOpen attempt
  let some option := selectedOption | throw .invalidSkipPayload
  let question ← questionOf content attempt questionId
  if (getResponse attempt.responses questionId).any Response.wasLocked then
    throw .questionAlreadyLocked
  return (option, question)

/-- What `submit_response` writes and answers. -/
def recordAnswer (secret : Secret) (content : Content κ) (questionId : κ)
    (option : CorrectOption) (attempt : AttemptRow κ) : AttemptRow κ × ResponseOut κ :=
  let isCorrect : Bool := option = secret.correctOption
  let before := ((getResponse attempt.responses questionId).map Response.hintLevelReached).getD 0
  let hintLevel := if isCorrect then before else min (before + 1) 3
  let responses := upsertResponse attempt.responses questionId (some option) (some isCorrect)
    hintLevel false isCorrect
  let active := content.getActiveQuestionsByQuiz attempt.quizId
  ({ attempt with responses := responses },
    { attemptId := attempt.attemptId
      questionId := questionId
      selectedOption := some option
      isCorrect := isCorrect
      hintLevelReached := hintLevel
      wasSkipped := false
      wasLocked := isCorrect
      hint1 := if 1 ≤ hintLevel then secret.hint1 else none
      hint2 := if 2 ≤ hintLevel then secret.hint2 else none
      hint3 := if 3 ≤ hintLevel then secret.hint3 else none
      nextQuestionId := if isCorrect then nextQuestionId active questionId else none
      resumeQuestionId :=
        if isCorrect then computeResumeQuestionId active responses else some questionId })

/-- `submit_response`, on the attempt. -/
def answerQuestion (secrets : κ → Secret) (content : Content κ) (questionId : κ)
    (selectedOption : Option CorrectOption) (attempt : AttemptRow κ) :
    Except (Refusal κ) (AttemptRow κ × Answer κ) := do
  let (option, question) ← checkAnswer content questionId selectedOption attempt
  let (attempt, out) := recordAnswer (secrets question.questionId) content questionId option
    attempt
  return (attempt, .response out)

/-- `QuizAttemptOut.model_validate`. -/
def AttemptRow.out (a : AttemptRow κ) : AttemptOut κ :=
  ⟨a.attemptId, a.quizId, a.nodeId, a.traineeId, a.status, a.totals, a.startedAt, a.submittedAt,
    []⟩

/-- What `submit_attempt` writes. -/
def recordSubmission (secrets : κ → Secret) (content : Content κ) (now : ℕ)
    (attempt : AttemptRow κ) : AttemptRow κ :=
  let active := (content.getActiveQuestionsByQuiz attempt.quizId).map
    (QuestionRow.question secrets)
  let responses := finalizeSkippedResponses active attempt.responses
  { attempt with
    status := .submitted
    responses := responses
    totals := some (totalsOf active responses)
    submittedAt := some now }

/-- `submit_attempt`, on the attempt. -/
def finishAttempt (secrets : κ → Secret) (content : Content κ) (now : ℕ)
    (newlyUnlocked : AttemptRow κ → List κ) (attempt : AttemptRow κ) :
    Except (Refusal κ) (AttemptRow κ × Answer κ) := do
  assertOpen attempt
  let attempt := recordSubmission secrets content now attempt
  return (attempt, .submitted { attempt.out with newlyUnlockedNodeIds := newlyUnlocked attempt })

/-- `_get_quiz_for_attempt`: an attempt of the trainee there is. -/
def getQuizForAttempt (content : Content κ) (attempt : AttemptRow κ) :
    Except (Refusal κ) (QuizRow κ) :=
  match content.getQuizById attempt.quizId with
  | none => .error .quizNotFound
  | some quiz =>
    if quiz.isPublished ∧ quiz.lifecycleStatus = .active then .ok quiz
    else if quiz.lifecycleStatus = .hidden ∨ quiz.lifecycleStatus = .archived then .ok quiz
    else .error .quizNotFound

/-- The checks of `get_attempt`. -/
def checkShow (content : Content κ) (attempt : AttemptRow κ) :
    Except (Refusal κ) (QuizRow κ) := do
  if attempt.status = .abandoned then
    throw (.attemptAbandoned attempt.nodeId attempt.quizId)
  getQuizForAttempt content attempt

/-- `get_attempt`, on the attempt. -/
def showAttempt (o : Outside κ) (secrets : κ → Secret) (db : Database κ) (attempt : AttemptRow κ) :
    Except (Refusal κ) (AttemptRow κ × Answer κ) := do
  let quiz ← checkShow db.content attempt
  return (attempt, .quiz (buildTraineeQuizOut o secrets quiz attempt
    (db.content.getAllQuestionsByQuiz attempt.quizId)
    (db.getBestSubmittedScore attempt.quizId attempt.traineeId)))

/-- `_resolve_quiz_for_trainee_access`. -/
def resolveQuizForTraineeAccess (db : Database κ) (nodeId quizId traineeId : κ) :
    Except (Refusal κ) (QuizRow κ) :=
  match db.content.getQuizById quizId with
  | none => .error .quizNotFound
  | some quiz =>
    if quiz.nodeId ≠ nodeId then .error .quizNotFound
    else if quiz.isPublished ∧ quiz.lifecycleStatus = .active then .ok quiz
    else if (quiz.lifecycleStatus = .hidden ∨ quiz.lifecycleStatus = .archived) ∧
        (db.attemptsOn quizId traineeId).isEmpty = false then .ok quiz
    else .error .quizNotFound

/-- `list_attempts`; the number is what the label of an attempt starts with. -/
def listAttempts (o : Outside κ) (db : Database κ) (caller : Caller κ) (nodeId quizId : κ) :
    Answer κ :=
  if !caller.isTrainee then .refused .notTrainee
  else if !caller.hasAccess then .refused .noAccess
  else
    match resolveQuizForTraineeAccess db nodeId quizId caller.userId with
    | .error refusal => .refused refusal
    | .ok quiz =>
      let attempts := db.listAttemptsByQuizAndTrainee quizId caller.userId
      .attempts quiz <| attempts.zipIdx.map fun (a, index) =>
        ⟨a.out, o.scorePercent a.score, quiz.totalQuestions, attempts.length - index⟩

/-- `_pick_archive_review_attempt`. -/
def pickArchiveReviewAttempt (attempts : List (AttemptRow κ)) : Option (AttemptRow κ) :=
  (((attempts.find? fun a => a.status = .submitted).or
    (attempts.find? fun a => a.status = .abandoned)).or
    (attempts.find? fun a => a.status = .inProgress)).or attempts.head?

/-- The attempt that is reviewed. -/
def reviewAttempt (attempts : List (AttemptRow κ)) : Option κ → Option (AttemptRow κ)
  | some attemptId => attempts.find? fun a => a.attemptId = attemptId
  | none => pickArchiveReviewAttempt attempts

/-- One question of an archived quiz, with its answer. -/
def reviewQuestion (secrets : κ → Secret) (attempt : Option (AttemptRow κ)) (q : QuestionRow κ) :
    QuestionOut κ :=
  { buildQuestionOut secrets q (attempt.bind fun a => getResponse a.responses q.questionId)
      attempt.isSome false with
    correctOption := some (secrets q.questionId).correctOption
    explanation := (secrets q.questionId).explanation }

/-- `review_archived_quiz`.  An attempt is submitted, abandoned or in progress, so that it counts
as submitted or partial. -/
def reviewArchivedQuiz (o : Outside κ) (secrets : κ → Secret) (db : Database κ)
    (caller : Caller κ) (nodeId quizId : κ) (attemptId : Option κ) : Answer κ :=
  if !caller.isTrainee then .refused .notTrainee
  else if !caller.hasAccess then .refused .noAccess
  else
    match db.content.getQuizById quizId with
    | none => .refused .quizNotFound
    | some quiz =>
      if quiz.nodeId ≠ nodeId then .refused .quizNotFound
      else if quiz.lifecycleStatus ≠ .archived then .refused .studyMaterialArchiveNotAvailable
      else
        let attempts := db.listAttemptsByQuizAndTrainee quizId caller.userId
        let attempt := reviewAttempt attempts attemptId
        if attemptId.isSome ∧ attempt.isNone then .refused .quizAttemptNotFound
        else
          .review
            { quiz := quiz
              attempt := attempt.map AttemptRow.out
              isPartialAttempt := attempt.any fun a => a.status ≠ .submitted
              scorePercent := o.scorePercent (attempt.bind AttemptRow.score)
              questions := (db.content.getAllQuestionsByQuiz quizId).map
                (reviewQuestion secrets attempt) }

end Requests

/-! ## Events -/

/-- The requests of trainees. -/
inductive Request (κ : Type) where
  | startAttempt (nodeId quizId attemptId : κ)
  | patchAttemptState (attemptId : κ) (patch : StatePatch κ)
  | submitResponse (attemptId questionId : κ) (selectedOption : Option CorrectOption)
  | submitAttempt (attemptId : κ)
  | getAttempt (attemptId : κ)
  | listAttempts (nodeId quizId : κ)
  | reviewArchivedQuiz (nodeId quizId : κ) (attemptId : Option κ)

inductive Event (κ : Type) where
  | request (caller : Caller κ) (request : Request κ)
  /-- The mentors write, and the attempts on some quizzes are abandoned. -/
  | write (content : Content κ) (frozen : List κ)

/-- A request that has been answered. -/
structure Entry (κ : Type) where
  userId : κ
  version : ℕ
  request : Request κ
  answer : Answer κ

/-- The tables, with what has been asked and answered. -/
structure Ledger (κ : Type) where
  db : Database κ
  log : List (Entry κ) := []

section Step

variable [DecidableEq κ]

/-- `abandon_in_progress_attempts_for_quizzes`, on one attempt. -/
def AttemptRow.freeze (quizIds : List κ) (now : ℕ) (a : AttemptRow κ) : AttemptRow κ :=
  if a.quizId ∈ quizIds ∧ a.status = .inProgress then
    { a with status := .abandoned, submittedAt := some now }
  else a

/-- One request. -/
def Database.handle (o : Outside κ) (secrets : κ → Secret) (db : Database κ)
    (caller : Caller κ) :
    Request κ → Database κ × Answer κ
  | .startAttempt nodeId quizId attemptId =>
    startAttempt o secrets db caller nodeId quizId attemptId
  | .patchAttemptState attemptId patch =>
    if !caller.isTrainee then (db, .refused .notTrainee)
    else onAttempt db attemptId caller.userId (patchAttempt db.content caller.hasAccess patch)
  | .submitResponse attemptId questionId selectedOption =>
    onAttempt db attemptId caller.userId
      (answerQuestion secrets db.content questionId selectedOption)
  | .submitAttempt attemptId =>
    onAttempt db attemptId caller.userId (finishAttempt secrets db.content db.now
      (o.newlyUnlocked db.now (db.attemptsOf caller.userId)))
  | .getAttempt attemptId => onAttempt db attemptId caller.userId (showAttempt o secrets db)
  | .listAttempts nodeId quizId => (db, listAttempts o db caller nodeId quizId)
  | .reviewArchivedQuiz nodeId quizId attemptId =>
    (db, reviewArchivedQuiz o secrets db caller nodeId quizId attemptId)

/-- The service over an answer key. -/
def service (o : Outside κ) (key : Key κ) : Unwinding.Machine (Ledger κ) (Event κ) (Answer κ) where
  step l
    | .request caller request =>
      let (db, answer) := l.db.handle o (key l.db.version) caller request
      (⟨{ db with now := db.now + 1 }, l.log ++ [⟨caller.userId, db.version, request, answer⟩]⟩,
        answer)
    | .write content frozen =>
      (⟨{ content := content, version := l.db.version + 1,
          attempts := l.db.attempts.map (AttemptRow.freeze frozen l.db.now),
          now := l.db.now + 1 }, l.log⟩, .done)

/-- The events that a user sees the answers to. -/
def asks (userId : κ) : Event κ → Bool
  | .request caller _ => caller.userId = userId
  | .write .. => false

end Step

end StudyAgent.Progress.AnswerKey
