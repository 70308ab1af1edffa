import Mathlib.Data.List.Basic
import Mathlib.Data.Option.Basic

/-!
# Quizzes and their lifecycle

The rows of the quizzes, and the transitions between the stages of their lives.  A quiz is live
for the trainees while it is published.

Main results:

* `Quiz.transitionToArchived_consistent` and its siblings — a transition leaves the flag
  `is_published` and the stage in agreement.
-/

namespace StudyAgent.Lifecycle

/-- `LifecycleStatus`. -/
inductive LifecycleStatus where
  | draft
  | active
  | archived
  | hidden
  | discarded
  deriving DecidableEq

/-- A row of `quizzes`; the ids of the quizzes are of the type `Q`. -/
structure Quiz (Q : Type) where
  quizId : Q
  nodeId : ℕ
  studyMaterialVersionId : Option ℕ := none
  isPublished : Bool := false
  lifecycleStatus : LifecycleStatus := .draft
  deriving DecidableEq

namespace Quiz

variable {Q : Type}

/-- `transition_quiz_to_archived`. -/
def transitionToArchived (quiz : Quiz Q) : Quiz Q :=
  { quiz with isPublished := false, lifecycleStatus := .archived }

/-- `transition_quiz_to_hidden`. -/
def transitionToHidden (quiz : Quiz Q) : Quiz Q :=
  { quiz with isPublished := false, lifecycleStatus := .hidden }

/-- `transition_quiz_to_active`. -/
def transitionToActive (quiz : Quiz Q) : Quiz Q :=
  { quiz with isPublished := true, lifecycleStatus := .active }

/-- What `discard_quiz` sets. -/
def discard (quiz : Quiz Q) : Quiz Q :=
  { quiz with isPublished := false, lifecycleStatus := .discarded }

/-- What `replace_quiz_draft_with_questions` sets; the flag `is_published` is left as it is. -/
def replaceDraft (quiz : Quiz Q) (studyMaterialVersionId : Option ℕ) : Quiz Q :=
  { quiz with
    lifecycleStatus := .draft
    studyMaterialVersionId := studyMaterialVersionId.or quiz.studyMaterialVersionId }

/-- `is_published` holds exactly when the quiz is active. -/
def Consistent (quiz : Quiz Q) : Prop :=
  quiz.isPublished = true ↔ quiz.lifecycleStatus = .active

instance (quiz : Quiz Q) : Decidable quiz.Consistent := inferInstanceAs (Decidable (_ ↔ _))

variable {quiz : Quiz Q}

theorem transitionToArchived_consistent : quiz.transitionToArchived.Consistent := by
  simp [Consistent, transitionToArchived]

theorem transitionToHidden_consistent : quiz.transitionToHidden.Consistent := by
  simp [Consistent, transitionToHidden]

theorem transitionToActive_consistent : quiz.transitionToActive.Consistent := by
  simp [Consistent, transitionToActive]

theorem discard_consistent : quiz.discard.Consistent := by
  simp [Consistent, discard]

end Quiz

/-- `RetentionMode`. -/
inductive RetentionMode where
  | keepForReview
  | removeCompletely
  deriving DecidableEq

/-- The transition of `unpublish_quiz`. -/
def Quiz.unpublish {Q : Type} (quiz : Quiz Q) : RetentionMode → Quiz Q
  | .keepForReview => quiz.transitionToArchived
  | .removeCompletely => quiz.transitionToHidden

end StudyAgent.Lifecycle
