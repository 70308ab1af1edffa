import StudyAgent.Base.ReadCommitted
import StudyAgent.Base.Runs
import StudyAgent.Progress.Attempts

/-!
# Requests on the attempts of a trainee

The attempts of one trainee on one quiz, their responses, the progress row of the trainee on the
node, and the sessions that start, answer and submit, and that publish the quiz and put another in
its place.  A request reads, computes and commits; a statement is one step.  The attempt is locked
by `patch_attempt_state` alone, the quiz by `start_attempt` and by the swap.

A row that a request has read is not read again while the request refers to it.  What a request is
told of the questions of the quiz comes with the event.
-/

namespace StudyAgent.Progress.AttemptRequests

open ReadCommitted

variable {A κ S : Type}

/-! ## Rows -/

/-- A row of `quizattempts`. -/
structure QuizAttempt (κ : Type) where
  status : AttemptStatus := .inProgress
  totals : Option Totals := none
  resumeQuestionId : Option κ := none

/-- What `upsert_response` sets. -/
def setAnswer (selectedOption : Option CorrectOption) (isCorrect : Option Bool)
    (hintLevelReached : ℕ) (wasSkipped wasLocked : Bool) (r : Response κ) : Response κ :=
  { r with
    selectedOption := selectedOption
    isCorrect := isCorrect
    hintLevelReached := hintLevelReached
    wasSkipped := wasSkipped
    isVisited := true
    wasLocked := wasLocked }

/-- What `patch_navigation_state` sets. -/
def setNavigation (isVisited isFlagged wasSkipped : Option Bool) (r : Response κ) : Response κ :=
  { r with
    isVisited := isVisited.getD r.isVisited
    isFlagged := isFlagged.getD r.isFlagged
    wasSkipped := if r.selectedOption.isNone then wasSkipped.getD r.wasSkipped else r.wasSkipped }

/-- The flush of a response. -/
def flushResponse (loaded new stored : Response κ) : Response κ :=
  { stored with
    selectedOption := setColumn loaded.selectedOption new.selectedOption stored.selectedOption
    isCorrect := setColumn loaded.isCorrect new.isCorrect stored.isCorrect
    hintLevelReached :=
      setColumn loaded.hintLevelReached new.hintLevelReached stored.hintLevelReached
    wasSkipped := setColumn loaded.wasSkipped new.wasSkipped stored.wasSkipped
    isVisited := setColumn loaded.isVisited new.isVisited stored.isVisited
    isFlagged := setColumn loaded.isFlagged new.isFlagged stored.isFlagged
    wasLocked := setColumn loaded.wasLocked new.wasLocked stored.wasLocked }

/-- The flush of a progress row. -/
def flushProgress (loaded new stored : Row ℚ) : Row ℚ :=
  { stored with
    quizBestScore := setColumn loaded.quizBestScore new.quizBestScore stored.quizBestScore
    quizAttemptCount :=
      setColumn loaded.quizAttemptCount new.quizAttemptCount stored.quizAttemptCount
    quizPassed := setColumn loaded.quizPassed new.quizPassed stored.quizPassed
    completionStatus :=
      setColumn loaded.completionStatus new.completionStatus stored.completionStatus }

/-! ## The system -/

/-- A response that a request is about to write, as it has loaded it. -/
structure Upsert (κ : Type) where
  questionId : κ
  loaded : Option (Response κ)
  change : Response κ → Response κ

/-- The request for which responses are written. -/
inductive Purpose (κ : Type) where
  | patch
  | answer
  | submit (questions : List (Question κ)) (loaded : κ → Option (Response κ))

/-- How far the request of a session has come. -/
inductive Phase (A κ : Type) where
  | idle
  | starting
  | holdingQuiz
  | created (a : A)
  | holdingAttempt (a : A)
  | responding (a : A)
  | submitting (a : A)
  | writing (a : A) (purpose : Purpose κ) (todo : List (Upsert κ))
  | marked (a : A) (score : ℚ)
  | counting (a : A) (score : ℚ) (loaded : Option (Row ℚ))
  | counted (a : A)
  | swapping
  | swapped

/-- The tables, and the requests.  Of the quiz it matters whether it is published. -/
structure System (A κ S : Type) where
  quiz : Store Unit Bool Unit S
  attempts : Store A (QuizAttempt κ) Unit S
  responses : Store (A × κ) (Response κ) Unit S
  progress : Store Unit (Row ℚ) Unit S
  phase : S → Phase A κ

/-- What the sessions do. -/
inductive Event (A κ S : Type) where
  | readPublishedQuiz (s : S)
  | lockQuiz (s : S)
  | createAttempt (s : S) (a : A)
  | lockAttempt (s : S) (a : A)
  | patchState (s : S) (questions : List (Question κ)) (questionId : κ)
      (isVisited isFlagged wasSkipped : Option Bool) (resumeQuestionId : Option κ)
  | openResponse (s : S) (a : A)
  | answer (s : S) (questions : List (Question κ)) (questionId : κ)
      (selectedOption : CorrectOption)
  | openSubmit (s : S) (a : A)
  | finalize (s : S) (questions : List (Question κ))
  | writeResponse (s : S)
  | markSubmitted (s : S)
  | readProgress (s : S)
  | writeProgress (s : S) (passThresholdPercent : Option ℕ)
  | archiveQuiz (s : S)
  | abandonAttempts (s : S)
  | publishQuiz (s : S)
  | commit (s : S)
  | rollback (s : S)

/-- A request is done, and may commit. -/
def Phase.commits : Phase A κ → Bool
  | .created _ | .writing _ .patch [] | .writing _ .answer [] | .counted _ | .swapped => true
  | _ => false

/-! ## What requests compute -/

section

variable [DecidableEq κ]

/-- The response that `submit_response` writes, where the question is not locked already. -/
def answerUpsert (questions : List (Question κ)) (questionId : κ)
    (selectedOption : CorrectOption) (existing : Option (Response κ)) : Option (Upsert κ) :=
  (questions.find? fun q => q.questionId = questionId).bind fun question =>
    if existing.any Response.wasLocked then none
    else
      let isCorrect : Bool := selectedOption = question.correctOption
      let hintLevel := (existing.map Response.hintLevelReached).getD 0
      some {
        questionId := questionId
        loaded := existing
        change := setAnswer (some selectedOption) (some isCorrect)
          (if isCorrect then hintLevel else min (hintLevel + 1) 3) false isCorrect }

/-- The responses that `_finalize_skipped_responses` writes. -/
def finalizeUpserts (questions : List (Question κ)) (loaded : κ → Option (Response κ)) :
    List (Upsert κ) :=
  (activeQuestions questions).filterMap fun question =>
    let skipped := isQuestionSkippedAtSubmit question (loaded question.questionId)
    match loaded question.questionId with
    | none =>
      if !skipped then none
      else some ⟨question.questionId, none, setAnswer none none 0 true false⟩
    | some r =>
      if r.wasSkipped = skipped then none
      else
        some ⟨question.questionId, some r,
          setAnswer r.selectedOption r.isCorrect r.hintLevelReached skipped r.wasLocked⟩

/-- `record_quiz_attempt_submission`: the service has computed the completion from the row that it
has read, the repository the rest from the row that there is now. -/
def recordSubmission (loaded row : Option (Row ℚ)) (score : ℚ)
    (passThresholdPercent : Option ℕ) : Row ℚ :=
  let fraction : ℕ → ℚ := fun percent => percent / 100
  { recordQuizAttemptSubmission fraction row score passThresholdPercent with
    completionStatus :=
      (recordQuizAttemptSubmission fraction loaded score passThresholdPercent).completionStatus }

end

/-! ## Statements -/

section

variable [Fintype A] [DecidableEq A] [DecidableEq κ] [DecidableEq S]

namespace System

/-- No transaction is open. -/
structure Fresh (sys : System A κ S) : Prop where
  quiz : ∀ k, sys.quiz.pending k = none
  attempts : ∀ a, sys.attempts.pending a = none
  responses : ∀ k, sys.responses.pending k = none
  progress : ∀ k, sys.progress.pending k = none
  idle : ∀ s, sys.phase s = .idle

/-- The request of a session goes on. -/
def enter (sys : System A κ S) (s : S) (phase : Phase A κ) : System A κ S :=
  { sys with phase := Function.update sys.phase s phase }

/-- The status of an attempt that a session reads. -/
def status (sys : System A κ S) (s : S) (a : A) : Option AttemptStatus :=
  (sys.attempts.view s a).map QuizAttempt.status

/-- The response that is to be changed, if there is one: a patch changes what it has read, the
others look again. -/
def found (sys : System A κ S) (s : S) (a : A) (purpose : Purpose κ) (upsert : Upsert κ) :
    Option (Response κ) :=
  match purpose with
  | .patch => upsert.loaded
  | _ => sys.responses.reread s (a, upsert.questionId) upsert.loaded

/-- What a request does next; what is refused, or has to wait, is no step. -/
def step (sys : System A κ S) : Event A κ S → Option (System A κ S)
  -- `start_attempt`; the quiz that was read first is looked at again after the lock
  | .readPublishedQuiz s =>
    match sys.phase s with
    | .idle => if sys.quiz.view s () = some true then some (sys.enter s .starting) else none
    | _ => none
  | .lockQuiz s =>
    match sys.phase s with
    | .starting =>
      (sys.quiz.view s ()).bind fun isPublished =>
        (sys.quiz.putOne s () isPublished).map fun quiz =>
          { sys.enter s .holdingQuiz with quiz := quiz }
    | _ => none
  | .createAttempt s a =>
    match sys.phase s with
    | .holdingQuiz =>
      if ∀ b, sys.status s b ≠ some .inProgress then
        (sys.attempts.insert s a {}).map fun attempts =>
          { sys.enter s (.created a) with attempts := attempts }
      else none
    | _ => none
  -- `patch_attempt_state`
  | .lockAttempt s a =>
    match sys.phase s with
    | .idle =>
      (sys.attempts.view s a).bind fun attempt =>
        if attempt.status = .inProgress then
          (sys.attempts.putOne s a attempt).map fun attempts =>
            { sys.enter s (.holdingAttempt a) with attempts := attempts }
        else none
    | _ => none
  | .patchState s questions questionId isVisited isFlagged wasSkipped resumeQuestionId =>
    match sys.phase s with
    | .holdingAttempt a =>
      if (activeQuestion questions questionId).isNone ∨
          (resumeQuestionId.any fun q => (activeQuestion questions q).isNone) = true then none
      else
        (sys.attempts.view s a).bind fun attempt =>
          (sys.attempts.putOne s a { attempt with
            resumeQuestionId := resumeQuestionId.or attempt.resumeQuestionId }).map fun attempts =>
              { sys.enter s (.writing a .patch
                  [⟨questionId, sys.responses.view s (a, questionId),
                    setNavigation isVisited isFlagged wasSkipped⟩]) with
                attempts := attempts }
    | _ => none
  -- `submit_response`
  | .openResponse s a =>
    match sys.phase s with
    | .idle =>
      if sys.status s a = some .inProgress then some (sys.enter s (.responding a)) else none
    | _ => none
  | .answer s questions questionId selectedOption =>
    match sys.phase s with
    | .responding a =>
      (answerUpsert questions questionId selectedOption
        (sys.responses.view s (a, questionId))).map fun upsert =>
          sys.enter s (.writing a .answer [upsert])
    | _ => none
  -- `submit_attempt`
  | .openSubmit s a =>
    match sys.phase s with
    | .idle =>
      if sys.status s a = some .inProgress then some (sys.enter s (.submitting a)) else none
    | _ => none
  | .finalize s questions =>
    match sys.phase s with
    | .submitting a =>
      let loaded := fun k => sys.responses.view s (a, k)
      some (sys.enter s
        (.writing a (.submit questions loaded) (finalizeUpserts questions loaded)))
    | _ => none
  | .writeResponse s =>
    match sys.phase s with
    | .writing a purpose (upsert :: todo) =>
      let key := (a, upsert.questionId)
      (match sys.found s a purpose upsert with
      | none => sys.responses.insert s key (upsert.change { questionId := upsert.questionId })
      | some loaded =>
        (sys.responses.view s key).bind fun stored =>
          sys.responses.putOne s key (flushResponse loaded (upsert.change loaded) stored)).map
        fun responses =>
          { sys.enter s (.writing a purpose todo) with responses := responses }
    | _ => none
  | .markSubmitted s =>
    match sys.phase s with
    | .writing a (.submit questions loaded) [] =>
      let responses := questions.filterMap fun q =>
        sys.responses.reread s (a, q.questionId) (loaded q.questionId)
      let totals := totalsOf questions responses
      (sys.attempts.view s a).bind fun attempt =>
        (sys.attempts.putOne s a
          { attempt with status := .submitted, totals := some totals }).map fun attempts =>
            { sys.enter s (.marked a totals.score) with attempts := attempts }
    | _ => none
  | .readProgress s =>
    match sys.phase s with
    | .marked a score => some (sys.enter s (.counting a score (sys.progress.view s ())))
    | _ => none
  | .writeProgress s passThresholdPercent =>
    match sys.phase s with
    | .counting a score loaded =>
      (match sys.progress.reread s () loaded with
      | none =>
        sys.progress.insert s () (recordSubmission loaded none score passThresholdPercent)
      | some row =>
        (sys.progress.view s ()).bind fun stored =>
          sys.progress.putOne s () (flushProgress row
            (recordSubmission loaded (some row) score passThresholdPercent) stored)).map
        fun progress => { sys.enter s (.counted a) with progress := progress }
    | _ => none
  -- the quiz is put in the place of another, or another in its place
  | .archiveQuiz s =>
    match sys.phase s with
    | .idle =>
      if sys.quiz.view s () = some true then
        (sys.quiz.putOne s () false).map fun quiz => { sys.enter s .swapping with quiz := quiz }
      else none
    | _ => none
  | .abandonAttempts s =>
    match sys.phase s with
    | .swapping =>
      (sys.attempts.put s fun a =>
        ((sys.attempts.view s a).filter fun attempt => attempt.status = .inProgress).map
          fun attempt => { attempt with status := .abandoned }).map fun attempts =>
            { sys.enter s .swapped with attempts := attempts }
    | _ => none
  | .publishQuiz s =>
    match sys.phase s with
    | .idle =>
      if sys.quiz.view s () = some false then
        (sys.quiz.putOne s () true).map fun quiz => { sys.enter s .swapped with quiz := quiz }
      else none
    | _ => none
  -- the ends of requests
  | .commit s =>
    if (sys.phase s).commits = true then
      some { sys.enter s .idle with
        quiz := sys.quiz.commit s
        attempts := sys.attempts.commit s
        responses := sys.responses.commit s
        progress := sys.progress.commit s }
    else none
  | .rollback s =>
    some { sys.enter s .idle with
      quiz := sys.quiz.rollback s
      attempts := sys.attempts.rollback s
      responses := sys.responses.rollback s
      progress := sys.progress.rollback s }

end System

end

end StudyAgent.Progress.AttemptRequests
