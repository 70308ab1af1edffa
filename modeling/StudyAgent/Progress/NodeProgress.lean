import StudyAgent.Base.Runs
import Mathlib.Order.MinMax

/-!
# The progress of trainees on a node

One node of a space: the progress row of each trainee, the quiz that is published, and the
attempts on all its quizzes.  Readings, submissions and the resets that follow a publish
write the rows; each writes the derived completion status with them, the single-row paths
by `computeCompletionStatus` and the bulk paths by case expressions of their own.

Scores are taken from any linear order, with the score that a percentage stands for.
-/

namespace StudyAgent.Progress

/-! ## Completion -/

/-- `CompletionStatus`. -/
inductive CompletionStatus where
  | notStarted
  | inProgress
  | completed
  deriving DecidableEq

/-- `compute_completion_status`. -/
def computeCompletionStatus (studyMaterialCompleted quizPassed : Bool)
    (studyMaterialReadPercent quizAttemptCount : ℕ) (hasPublishedQuiz : Bool) :
    CompletionStatus :=
  if hasPublishedQuiz && (studyMaterialCompleted && quizPassed) then .completed
  else if !hasPublishedQuiz && studyMaterialCompleted then .completed
  else if 0 < studyMaterialReadPercent ∨ 0 < quizAttemptCount then .inProgress
  else .notStarted

/-- `TraineeNodeProgress`. -/
structure Row (S : Type) where
  studyMaterialReadPercent : ℕ := 0
  studyMaterialCompleted : Bool := false
  quizBestScore : Option S := none
  quizAttemptCount : ℕ := 0
  quizPassed : Bool := false
  completionStatus : CompletionStatus := .notStarted
  deriving DecidableEq

variable {S : Type}

/-- `compute_completion_status` on the fields of a row. -/
def Row.computed (row : Row S) (hasPublishedQuiz : Bool) : CompletionStatus :=
  computeCompletionStatus row.studyMaterialCompleted row.quizPassed
    row.studyMaterialReadPercent row.quizAttemptCount hasPublishedQuiz

/-- The row has the status that is computed from it. -/
def Row.Matches (row : Row S) (hasPublishedQuiz : Bool) : Prop :=
  row.completionStatus = row.computed hasPublishedQuiz

instance (row : Row S) (hasPublishedQuiz : Bool) : Decidable (row.Matches hasPublishedQuiz) :=
  inferInstanceAs (Decidable (_ = _))

/-! ## Bulk resets -/

/-- `_completion_after_read_reset`. -/
def completionAfterReadReset (row : Row S) : CompletionStatus :=
  if 0 < row.quizAttemptCount then .inProgress else .notStarted

/-- `_completion_after_quiz_passed_reset`. -/
def completionAfterQuizPassedReset (hasPublishedQuiz : Bool) (row : Row S) : CompletionStatus :=
  if hasPublishedQuiz then
    if 0 < row.studyMaterialReadPercent ∨ 0 < row.quizAttemptCount ∨
        row.studyMaterialCompleted then .inProgress
    else .notStarted
  else if row.studyMaterialCompleted then .completed
  else if 0 < row.studyMaterialReadPercent then .inProgress
  else .notStarted

/-- `reset_node_read_progress_for_all_trainees`, on one row. -/
def Row.resetRead (row : Row S) : Row S :=
  { row with
    studyMaterialReadPercent := 0
    studyMaterialCompleted := false
    completionStatus := completionAfterReadReset row }

/-- `reset_node_quiz_passed_for_all_trainees`, on one row. -/
def Row.resetQuizPassed (row : Row S) : Row S :=
  { row with
    quizPassed := false
    completionStatus := completionAfterQuizPassedReset true row }

/-- `recompute_node_completion_after_quiz_unpublish`, on one row. -/
def Row.afterQuizUnpublish (row : Row S) : Row S :=
  { row with completionStatus := completionAfterQuizPassedReset false row }

section Scores

variable [LinearOrder S] (fraction : ℕ → S)

/-- `score_meets_pass_threshold`. -/
def scoreMeetsPassThreshold (score : Option S) (passThresholdPercent : Option ℕ) : Bool :=
  match score, passThresholdPercent with
  | some s, some percent => fraction percent ≤ s
  | _, _ => false

/-- `recompute_node_quiz_passed_for_threshold`, on one row. -/
def Row.recomputePassed (percent : ℕ) (row : Row S) : Row S :=
  let passed := scoreMeetsPassThreshold fraction row.quizBestScore (some percent)
  { row with
    quizPassed := passed
    completionStatus :=
      if row.studyMaterialCompleted && passed then .completed
      else if 0 < row.studyMaterialReadPercent ∨ 0 < row.quizAttemptCount ∨
          row.studyMaterialCompleted then .inProgress
      else .notStarted }

/-! ## Single rows -/

/-- `score if best is None else max(best, score)`. -/
def bestScore (best : Option S) (score : S) : S :=
  match best with
  | none => score
  | some b => max b score

/-- `record_quiz_attempt_submission`: what the service computes for the row that there is, or
for a new one, and the repository writes. -/
def recordQuizAttemptSubmission (existing : Option (Row S)) (score : S)
    (passThresholdPercent : Option ℕ) : Row S :=
  let row := existing.getD {}
  let best := bestScore row.quizBestScore score
  let quizPassed :=
    if scoreMeetsPassThreshold fraction (some best) passThresholdPercent then true
    else row.quizPassed
  { row with
    quizBestScore := some best
    quizAttemptCount := row.quizAttemptCount + 1
    quizPassed := quizPassed
    completionStatus := computeCompletionStatus row.studyMaterialCompleted quizPassed
      row.studyMaterialReadPercent (row.quizAttemptCount + 1) passThresholdPercent.isSome }

end Scores

/-- `upsert_node_progress`. -/
def upsertNodeProgress (existing : Option (Row S)) (readPercent : ℕ)
    (studyMaterialCompleted hasPublishedQuiz : Bool) : Row S :=
  match existing with
  | none =>
    { studyMaterialReadPercent := readPercent
      studyMaterialCompleted := studyMaterialCompleted
      completionStatus := computeCompletionStatus studyMaterialCompleted false readPercent 0
        hasPublishedQuiz }
  | some row =>
    let completed := row.studyMaterialCompleted || studyMaterialCompleted
    { row with
      studyMaterialReadPercent := readPercent
      studyMaterialCompleted := completed
      completionStatus := computeCompletionStatus completed row.quizPassed readPercent
        row.quizAttemptCount hasPublishedQuiz }

/-- `mark_study_material_viewed`. -/
def markStudyMaterialViewed (existing : Option (Row S)) (hasPublishedQuiz : Bool) : Row S :=
  let row := existing.getD {}
  { row with completionStatus := row.computed hasPublishedQuiz }

/-! ## The node -/

inductive AttemptStatus where
  | inProgress
  | submitted
  | abandoned
  deriving DecidableEq

/-- `QuizAttempt`, as far as progress depends on it. -/
structure QuizAttempt (τ κ S : Type) where
  trainee : τ
  quiz : κ
  status : AttemptStatus := .inProgress
  score : Option S := none
  deriving DecidableEq

/-- A node: the rows of the trainees, the published quiz, and the thresholds and attempts of
all its quizzes. -/
structure Node (τ κ S : Type) where
  rows : τ → Option (Row S)
  publishedQuiz : Option κ
  passThresholdPercent : κ → ℕ
  attempts : List (QuizAttempt τ κ S)

variable {τ κ : Type}

namespace Node

/-- A node nobody has been on. -/
def Fresh (n : Node τ κ S) : Prop :=
  (∀ t, n.rows t = none) ∧ n.publishedQuiz = none ∧ n.attempts = []

/-- `get_published_quiz_by_node(node_id) is not None`. -/
def hasPublishedQuiz (n : Node τ κ S) : Bool := n.publishedQuiz.isSome

/-- The threshold of the published quiz. -/
def publishedThreshold (n : Node τ κ S) : Option ℕ := n.publishedQuiz.map n.passThresholdPercent

def setRow [DecidableEq τ] (n : Node τ κ S) (t : τ) (row : Row S) : Node τ κ S :=
  { n with rows := Function.update n.rows t (some row) }

@[simp] theorem setRow_rows_self [DecidableEq τ] (n : Node τ κ S) (t : τ) (row : Row S) :
    (n.setRow t row).rows t = some row := by
  simp [setRow]

@[simp] theorem setRow_rows_of_ne [DecidableEq τ] (n : Node τ κ S) {t t' : τ} (row : Row S)
    (h : t' ≠ t) : (n.setRow t row).rows t' = n.rows t' := by
  simp [setRow, h]

/-- A bulk update of the rows of the node. -/
def updateRows (n : Node τ κ S) (f : Row S → Row S) : Node τ κ S :=
  { n with rows := fun t => (n.rows t).map f }

@[simp] theorem updateRows_rows (n : Node τ κ S) (f : Row S → Row S) (t : τ) :
    (n.updateRows f).rows t = (n.rows t).map f := rfl

/-- `abandon_in_progress_attempts_for_quizzes`, for the quiz that is replaced. -/
def abandonAttempts [DecidableEq κ] (n : Node τ κ S) : Node τ κ S :=
  { n with attempts := n.attempts.map fun a =>
      if some a.quiz = n.publishedQuiz ∧ a.status = .inProgress then
        { a with status := .abandoned }
      else a }

end Node

/-- What trainees and mentors do on a node. -/
inductive Action (τ κ S : Type) where
  /-- `mark_study_material_viewed`. -/
  | view (t : τ)
  /-- `update_study_material_progress`. -/
  | read (t : τ) (percent : ℕ)
  /-- `start_attempt`. -/
  | start (t : τ) (quiz : κ)
  /-- `submit_attempt`, with the score of the attempt. -/
  | submit (attempt : ℕ) (score : S)
  /-- `publish_quiz`, with a new threshold if one is given. -/
  | publishQuiz (quiz : κ) (percent : Option ℕ)
  /-- `unpublish_quiz`. -/
  | unpublishQuiz
  /-- `update_pass_threshold`. -/
  | setThreshold (quiz : κ) (percent : ℕ)
  /-- A study material version published in place of another. -/
  | supersedeMaterial
  deriving DecidableEq

section Step

variable [DecidableEq τ] [DecidableEq κ] [LinearOrder S] (fraction : ℕ → S)

/-- One action; `none` where it is refused. -/
def step (n : Node τ κ S) : Action τ κ S → Option (Node τ κ S)
  | .view t => some (n.setRow t (markStudyMaterialViewed (n.rows t) n.hasPublishedQuiz))
  | .read t percent =>
    if 100 < percent then none
    else if (n.rows t).any fun row => percent < row.studyMaterialReadPercent then none
    else
      some (n.setRow t (upsertNodeProgress (n.rows t) percent (percent = 100)
        n.hasPublishedQuiz))
  | .start t quiz =>
    if n.publishedQuiz ≠ some quiz then none
    else if n.attempts.any fun a => a.quiz = quiz ∧ a.trainee = t ∧ a.status = .inProgress then
      none
    else some { n with attempts := n.attempts ++ [{ trainee := t, quiz := quiz }] }
  | .submit i score =>
    match n.attempts[i]? with
    | none => none
    | some a =>
      if a.status ≠ .inProgress then none
      else
        some ({ n with
          attempts := n.attempts.set i { a with status := .submitted, score := some score } }.setRow
            a.trainee (recordQuizAttemptSubmission fraction (n.rows a.trainee) score
              n.publishedThreshold))
  | .publishQuiz quiz percent =>
    if n.publishedQuiz = some quiz then none
    else
      some ({ n.abandonAttempts with
        publishedQuiz := some quiz
        passThresholdPercent := Function.update n.passThresholdPercent quiz
          (percent.getD (n.passThresholdPercent quiz)) }.updateRows Row.resetQuizPassed)
  | .unpublishQuiz =>
    if n.publishedQuiz = none then none
    else some ({ n with publishedQuiz := none }.updateRows Row.afterQuizUnpublish)
  | .setThreshold quiz percent =>
    let n' := { n with
      passThresholdPercent := Function.update n.passThresholdPercent quiz percent }
    if n.publishedQuiz = some quiz then some (n'.updateRows (Row.recomputePassed fraction percent))
    else some n'
  | .supersedeMaterial => some (n.updateRows Row.resetRead)

/-- The rows an action writes. -/
def touches (n : Node τ κ S) (t : τ) : Action τ κ S → Prop
  | .view t' | .read t' _ => t' = t
  | .submit i _ => n.attempts[i]?.map QuizAttempt.trainee = some t
  | .setThreshold quiz _ => n.publishedQuiz = some quiz
  | .publishQuiz _ _ | .unpublishQuiz | .supersedeMaterial => True
  | .start _ _ => False

end Step

end StudyAgent.Progress
