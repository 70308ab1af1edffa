import Mathlib.Algebra.Ring.Nat
import StudyAgent.Progress.Unlocking

/-!
# Rollups of a space and of its topics

The progress of a trainee is counted twice: the space counts the published nodes of a flat
query and computes the completion of each row, the panel of a topic walks the tree below it over
snapshots of the rows, with defaults where there is none.

Main results:

* `countCompletedLearningUnits_eq` — a subtree has its root's own count and those of its children.
* `sumSubtreeProgressPercentage_eq_iff` — **the percentages add up to full exactly when every unit
  is completed.**
* `rollups_agree` — **over the roots the panel counts what the space counts.**
-/

namespace StudyAgent.Progress

/-- `compute_progress_percentage`. -/
def computeProgressPercentage (studyMaterialCompleted quizPassed hasPublishedQuiz : Bool) : ℕ :=
  if !hasPublishedQuiz then if studyMaterialCompleted then 100 else 0
  else (if studyMaterialCompleted then 50 else 0) + (if quizPassed then 50 else 0)

/-- `TraineeNodeProgressBatchItemOut`; the defaults are `_empty_snapshot`. -/
structure Snapshot where
  studyMaterialReadPercent : ℕ := 0
  studyMaterialCompleted : Bool := false
  quizPassed : Bool := false
  quizAttemptCount : ℕ := 0
  completionStatus : CompletionStatus := .notStarted
  progressPercentage : ℕ := 0
  deriving DecidableEq

/-- `is_learning_unit_complete`, on a snapshot. -/
def Snapshot.isLearningUnitComplete (p : Snapshot) (hasPublishedQuiz : Bool) : Bool :=
  computeCompletionStatus p.studyMaterialCompleted p.quizPassed p.studyMaterialReadPercent
    p.quizAttemptCount hasPublishedQuiz = .completed

variable {ι τ S : Type}

/-- `_snapshot_from_row`. -/
def snapshotFromRow (row : Row S) (hasPublishedQuiz : Bool) : Snapshot where
  studyMaterialReadPercent := row.studyMaterialReadPercent
  studyMaterialCompleted := row.studyMaterialCompleted
  quizPassed := row.quizPassed
  quizAttemptCount := row.quizAttemptCount
  completionStatus := row.computed hasPublishedQuiz
  progressPercentage := computeProgressPercentage row.studyMaterialCompleted row.quizPassed
    hasPublishedQuiz

variable [DecidableEq ι]

namespace Space

variable (s : Space ι τ S) (t : τ) (nodeIds : List ι)

/-- `get_published_quiz_node_ids`. -/
def publishedQuizNodeIds (x : ι) : Bool := nodeIds.contains x && s.quizPublished x

/-- `get_batch_node_progress`. -/
def batchNodeProgress (x : ι) : Option Snapshot :=
  if x ∈ nodeIds then
    some (match s.rows t x with
      | some row => snapshotFromRow row (s.publishedQuizNodeIds nodeIds x)
      | none => {})
  else none

/-- `compute_trainee_space_rollup`.  The percentage is a rounded quotient of floats. -/
def computeTraineeSpaceRollup (roundedPercent : ℕ → ℕ → ℕ) : ℕ × ℕ × ℕ :=
  let eligibleNodeIds := s.forest.nodes.filter s.published
  let totalNodes := eligibleNodeIds.length
  if totalNodes = 0 then (0, 0, 0)
  else
    let completedNodes := eligibleNodeIds.countP fun x =>
      ((s.rows t x).getD {}).computed (s.publishedQuizNodeIds eligibleNodeIds x) = .completed
    (totalNodes, completedNodes, roundedPercent completedNodes totalNodes)

variable (progressByNode : ι → Option Snapshot) (quizNodes : ι → Bool) (root : ι)

/-- A unit that counts as completed. -/
def completedUnit (x : ι) : Bool :=
  s.published x && (progressByNode x).any fun p => p.isLearningUnitComplete (quizNodes x)

/-- What a unit adds to the sum of percentages. -/
def unitPercentage (x : ι) : ℕ :=
  if s.published x then (progressByNode x).elim 0 Snapshot.progressPercentage else 0

/-- `count_completed_learning_units`. -/
def countCompletedLearningUnits : ℕ :=
  (s.forest.subtree root).countP (s.completedUnit progressByNode quizNodes)

/-- `sum_subtree_progress_percentage`. -/
def sumSubtreeProgressPercentage : ℕ :=
  ((s.forest.subtree root).map (s.unitPercentage progressByNode)).sum

end Space

section Rollups

variable {s : Space ι τ S} {t : τ} {nodeIds : List ι} {x : ι}

/-! ## One unit -/

/-- A snapshot of a node is complete if its row is; a node without a row is not. -/
theorem completedUnit_batch (hx : x ∈ nodeIds) :
    s.completedUnit (s.batchNodeProgress t nodeIds) (s.publishedQuizNodeIds nodeIds) x =
      (s.published x && s.isProgressComplete t x) := by
  have hquiz : s.publishedQuizNodeIds nodeIds x = s.quizPublished x := by
    simp [Space.publishedQuizNodeIds, hx]
  rw [Space.completedUnit, Space.batchNodeProgress, if_pos hx, Option.any_some,
    Space.isProgressComplete, hquiz]
  refine congrArg _ ?_
  cases s.rows t x with
  | none => cases s.quizPublished x <;> rfl
  | some row => rfl

theorem computeProgressPercentage_le (completed passed quiz : Bool) :
    computeProgressPercentage completed passed quiz ≤ 100 := by
  cases completed <;> cases passed <;> cases quiz <;> decide

theorem computeProgressPercentage_eq_iff {completed passed quiz : Bool} :
    computeProgressPercentage completed passed quiz = 100 ↔
      completed = true ∧ (quiz = true → passed = true) := by
  cases completed <;> cases passed <;> cases quiz <;> decide

/-- A unit adds at most a hundred, and that much when it is complete. -/
theorem unitPercentage_batch (hx : x ∈ nodeIds) (hpublished : s.published x = true) :
    s.unitPercentage (s.batchNodeProgress t nodeIds) x ≤ 100 ∧
      (s.unitPercentage (s.batchNodeProgress t nodeIds) x = 100 ↔
        s.isProgressComplete t x = true) := by
  have hquiz : s.publishedQuizNodeIds nodeIds x = s.quizPublished x := by
    simp [Space.publishedQuizNodeIds, hx]
  rw [Space.unitPercentage, if_pos hpublished, Space.batchNodeProgress, if_pos hx, hquiz,
    Option.elim_some, Space.isProgressComplete]
  cases s.rows t x with
  | none => simp
  | some row =>
    rw [Option.any_some, decide_eq_true_iff, computed_eq_completed_iff]
    exact ⟨computeProgressPercentage_le _ _ _, computeProgressPercentage_eq_iff⟩

/-! ## Subtrees -/

theorem countLearningUnits_eq_countP :
    s.countLearningUnits x = (s.forest.subtree x).countP s.published := by
  rw [Space.countLearningUnits, Forest.subtree, List.countP_cons, Nat.add_comm]

/-- A count over a subtree, from the children of its root. -/
theorem countP_subtree (p : ι → Bool) :
    (s.forest.subtree x).countP p = (if p x then 1 else 0) +
      ((s.forest.children x).map fun c => (s.forest.subtree c).countP p).sum := by
  rw [Forest.subtree, List.countP_cons, Forest.descendants_eq_flatMap, List.countP_flatMap,
    Nat.add_comm]
  rfl

/-- **A subtree has its root's own unit and those of its children.** -/
theorem countLearningUnits_eq :
    s.countLearningUnits x = (if s.published x then 1 else 0) +
      ((s.forest.children x).map s.countLearningUnits).sum := by
  simp only [countLearningUnits_eq_countP]
  rw [countP_subtree]
  exact congrArg _ (congrArg List.sum (List.map_congr_left fun c _ =>
    countLearningUnits_eq_countP.symm))

theorem countCompletedLearningUnits_eq (progressByNode : ι → Option Snapshot)
    (quizNodes : ι → Bool) : s.countCompletedLearningUnits progressByNode quizNodes x =
      (if s.completedUnit progressByNode quizNodes x then 1 else 0) +
        ((s.forest.children x).map
          (s.countCompletedLearningUnits progressByNode quizNodes)).sum :=
  countP_subtree _

/-- **No more is completed than there is.** -/
theorem countCompletedLearningUnits_le (progressByNode : ι → Option Snapshot)
    (quizNodes : ι → Bool) :
    s.countCompletedLearningUnits progressByNode quizNodes x ≤ s.countLearningUnits x := by
  rw [countLearningUnits_eq_countP, Space.countCompletedLearningUnits]
  refine List.countP_mono_left fun y _ hy => ?_
  rw [Space.completedUnit, Bool.and_eq_true] at hy
  exact hy.1

theorem countCompletedLearningUnits_batch (hscope : ∀ y, s.forest.AtOrBelow x y → y ∈ nodeIds) :
    s.countCompletedLearningUnits (s.batchNodeProgress t nodeIds) (s.publishedQuizNodeIds nodeIds)
      x = (s.forest.subtree x).countP fun y => s.published y && s.isProgressComplete t y := by
  refine List.countP_congr fun y hy => ?_
  rw [completedUnit_batch (hscope y (Forest.mem_subtree_iff.1 hy))]

/-- Over any nodes the percentages add up to at most a hundred for each unit, and to that much
when every unit is complete. -/
theorem sum_unitPercentage {nodes : List ι} (hscope : ∀ y ∈ nodes, y ∈ nodeIds) :
    (nodes.map (s.unitPercentage (s.batchNodeProgress t nodeIds))).sum ≤
        100 * nodes.countP s.published ∧
      ((nodes.map (s.unitPercentage (s.batchNodeProgress t nodeIds))).sum =
          100 * nodes.countP s.published ↔
        ∀ y ∈ nodes, s.published y = true → s.isProgressComplete t y = true) := by
  induction nodes with
  | nil => simp
  | cons y nodes ih =>
    obtain ⟨hle, hiff⟩ := ih fun z hz => hscope z (List.mem_cons_of_mem y hz)
    rw [List.map_cons, List.sum_cons, List.countP_cons, List.forall_mem_cons]
    cases hpublished : s.published y with
    | false =>
      have hnone : s.unitPercentage (s.batchNodeProgress t nodeIds) y = 0 := by
        simp [Space.unitPercentage, hpublished]
      simpa [hnone] using And.intro hle hiff
    | true =>
      obtain ⟨hbound, hfull⟩ := unitPercentage_batch (t := t) (hscope y List.mem_cons_self)
        hpublished
      rw [if_pos rfl, imp_iff_right rfl, ← hfull, ← hiff]
      omega

/-- **The percentages add up to full exactly when every unit is completed.** -/
theorem sumSubtreeProgressPercentage_eq_iff
    (hscope : ∀ y, s.forest.AtOrBelow x y → y ∈ nodeIds) :
    s.sumSubtreeProgressPercentage (s.batchNodeProgress t nodeIds) x =
        100 * s.countLearningUnits x ↔
      ∀ y, s.forest.AtOrBelow x y → s.published y = true → s.isProgressComplete t y = true := by
  have hnodes : ∀ y ∈ s.forest.subtree x, y ∈ nodeIds := fun y hy =>
    hscope y (Forest.mem_subtree_iff.1 hy)
  rw [Space.sumSubtreeProgressPercentage, countLearningUnits_eq_countP,
    (sum_unitPercentage hnodes).2]
  simp only [Forest.mem_subtree_iff]

/-- All of a subtree is counted as completed when every unit of it is complete. -/
theorem countCompletedLearningUnits_eq_iff (hscope : ∀ y, s.forest.AtOrBelow x y → y ∈ nodeIds) :
    s.countCompletedLearningUnits (s.batchNodeProgress t nodeIds) (s.publishedQuizNodeIds nodeIds)
        x = s.countLearningUnits x ↔
      ∀ y, s.forest.AtOrBelow x y → s.published y = true → s.isProgressComplete t y = true := by
  have hsplit : (s.forest.subtree x).countP s.published =
      ((s.forest.subtree x).countP fun y => s.published y && s.isProgressComplete t y) +
        (s.forest.subtree x).countP fun y => s.published y && !s.isProgressComplete t y := by
    rw [List.countP_eq_countP_filter_add _ _ (s.isProgressComplete t), List.countP_filter,
      List.countP_filter]
  have hopen : ((s.forest.subtree x).countP fun y =>
      s.published y && !s.isProgressComplete t y) = 0 ↔
        ∀ y, s.forest.AtOrBelow x y → s.published y = true → s.isProgressComplete t y = true := by
    simp [List.countP_eq_zero, Forest.mem_subtree_iff]
  rw [countCompletedLearningUnits_batch hscope, countLearningUnits_eq_countP, ← hopen]
  omega

/-! ## The space -/

/-- What the space counts: the published nodes, and those of them that are complete. -/
theorem computeTraineeSpaceRollup_eq (roundedPercent : ℕ → ℕ → ℕ) :
    (s.computeTraineeSpaceRollup t roundedPercent).1 = s.forest.nodes.countP s.published ∧
      (s.computeTraineeSpaceRollup t roundedPercent).2.1 =
        s.forest.nodes.countP fun y => s.published y && s.isProgressComplete t y := by
  have htotal : (s.forest.nodes.filter s.published).length = s.forest.nodes.countP s.published :=
    List.countP_eq_length_filter.symm
  have hcompleted : ((s.forest.nodes.filter s.published).countP fun y =>
      ((s.rows t y).getD {}).computed
        (s.publishedQuizNodeIds (s.forest.nodes.filter s.published) y) = .completed) =
      s.forest.nodes.countP fun y => s.published y && s.isProgressComplete t y := by
    rw [List.countP_filter]
    refine List.countP_congr fun y hy => ?_
    cases hpublished : s.published y with
    | false => simp
    | true =>
      have hquiz : s.publishedQuizNodeIds (s.forest.nodes.filter s.published) y =
          s.quizPublished y := by
        simp [Space.publishedQuizNodeIds, hy, hpublished]
      rw [Bool.and_true, Bool.true_and, hquiz, Space.isProgressComplete]
      cases s.rows t y with
      | none => simp [Row.computed, computeCompletionStatus]
      | some row => rfl
  rw [Space.computeTraineeSpaceRollup]
  dsimp only
  split_ifs with hnone
  · rw [htotal] at hnone
    refine ⟨hnone.symm, ?_⟩
    rw [List.countP_eq_zero] at hnone
    refine (List.countP_eq_zero.2 fun y hy => ?_).symm
    simp [hnone y hy]
  · exact ⟨htotal, hcompleted⟩

/-- **Over the roots the panel counts what the space counts**; within a subtree the counts add up
from the children, no more is completed than there is, and the percentages add up to full exactly
when every unit is completed. -/
theorem rollups_agree (t : τ) (roundedPercent : ℕ → ℕ → ℕ) (hclosed : s.forest.Closed) :
    (s.forest.roots.map s.countLearningUnits).sum =
        (s.computeTraineeSpaceRollup t roundedPercent).1 ∧
      (s.forest.roots.map fun root =>
          s.countCompletedLearningUnits (s.batchNodeProgress t (s.forest.subtree root))
            (s.publishedQuizNodeIds (s.forest.subtree root)) root).sum =
        (s.computeTraineeSpaceRollup t roundedPercent).2.1 ∧
      ∀ nodeIds x, (∀ y, s.forest.AtOrBelow x y → y ∈ nodeIds) →
        let progressByNode := s.batchNodeProgress t nodeIds
        let quizNodes := s.publishedQuizNodeIds nodeIds
        let completed := s.countCompletedLearningUnits progressByNode quizNodes
        s.countLearningUnits x = (if s.published x then 1 else 0) +
            ((s.forest.children x).map s.countLearningUnits).sum ∧
          completed x = (if s.completedUnit progressByNode quizNodes x then 1 else 0) +
            ((s.forest.children x).map completed).sum ∧
          completed x ≤ s.countLearningUnits x ∧
          (s.sumSubtreeProgressPercentage progressByNode x = 100 * s.countLearningUnits x ↔
            completed x = s.countLearningUnits x) := by
  obtain ⟨htotal, hcompleted⟩ := computeTraineeSpaceRollup_eq (s := s) (t := t) roundedPercent
  refine ⟨?_, ?_, fun nodeIds x hscope => ⟨countLearningUnits_eq,
    countCompletedLearningUnits_eq _ _, countCompletedLearningUnits_le _ _, ?_⟩⟩
  · rw [htotal, ← hclosed.flatMap_roots_perm.countP_eq, List.countP_flatMap]
    exact congrArg List.sum (List.map_congr_left fun r _ => countLearningUnits_eq_countP)
  · rw [hcompleted, ← hclosed.flatMap_roots_perm.countP_eq, List.countP_flatMap]
    refine congrArg List.sum (List.map_congr_left fun r _ => ?_)
    exact countCompletedLearningUnits_batch fun y hy => Forest.mem_subtree_iff.2 hy
  · rw [sumSubtreeProgressPercentage_eq_iff hscope]
    exact (countCompletedLearningUnits_eq_iff hscope).symm

end Rollups

theorem chain_closed (published : ℕ → Bool) : (chain published).forest.Closed where
  nodup := by
    show [0, 1, 2].Nodup
    decide
  parent_mem x p h := by
    show p ∈ [0, 1, 2]
    rcases chain_parent h with ⟨-, rfl⟩ | ⟨-, rfl⟩ <;> decide

/-- Of three published nodes one has been read. -/
theorem chain_rollups_agree :
    (chain fun _ => true).computeTraineeSpaceRollup () (fun _ _ => 33) = (3, 1, 33) ∧
      ((chain fun _ => true).forest.roots.map (chain fun _ => true).countLearningUnits).sum =
        3 := by
  refine ⟨by decide, ?_⟩
  rw [(rollups_agree () (fun _ _ => 33) (chain_closed _)).1]
  decide

end StudyAgent.Progress
