import StudyAgent.Model.ChecklistIds

/-!
# Failure classes

Deterministic placement failures (a block in the wrong place) are told apart
from substance failures, both for a list of checks and for the failure bundle of
one section.

Main results:

* `isPlacementOnlyFailure_iff` — a non-empty list all of whose checks are
  placement checks.
* `classifyFailureClass_placementOnly` — the class and the predicate agree.
-/

namespace StudyAgent

open Py

/-! ## Placement checks -/

/-- `PLACEMENT_CHECK_IDS`. -/
def PLACEMENT_CHECK_IDS : List String :=
  ["det_equation_in_content", "det_math_in_code_block", "det_pseudocode_in_code_block",
    "det_code_in_formula_block", "det_empty_block_explanation", "det_conceptual_has_blocks"]

/-- `SUBSTANCE_CHECK_IDS`. -/
def SUBSTANCE_CHECK_IDS : List String :=
  ["det_stem_derivation_missing_formula", "det_stem_code_substitutes_derivation",
    "det_structure_coverage"]

/-- `is_placement_check`. -/
def isPlacementCheck (c : Check) : Bool := c.idText ∈ PLACEMENT_CHECK_IDS

/-- `is_placement_only_failure`. -/
def isPlacementOnlyFailure (failed : List Check) : Bool :=
  if failed = [] then false else failed.all isPlacementCheck

inductive FailureClass where
  | placementOnly
  | substance
  | mixed
  | none
  deriving DecidableEq

/-- `classify_failure_class`. -/
def classifyFailureClass (failed : List Check) : FailureClass :=
  if failed = [] then .none
  else
    let hasPlacement := failed.any isPlacementCheck
    let hasNonPlacement := failed.any fun c => !isPlacementCheck c
    if hasPlacement && hasNonPlacement then .mixed
    else if hasPlacement then .placementOnly
    else .substance

theorem isPlacementOnlyFailure_iff {failed : List Check} :
    isPlacementOnlyFailure failed = true ↔
      failed ≠ [] ∧ ∀ c ∈ failed, isPlacementCheck c = true := by
  unfold isPlacementOnlyFailure
  by_cases h : failed = []
  · simp [h]
  · rw [if_neg h, List.all_eq_true]
    exact ⟨fun hall => ⟨h, hall⟩, fun hall => hall.2⟩

/-- **The failure class is placement-only exactly when the predicate holds.** -/
theorem classifyFailureClass_placementOnly {failed : List Check} :
    classifyFailureClass failed = .placementOnly ↔ isPlacementOnlyFailure failed = true := by
  rw [isPlacementOnlyFailure_iff]
  rcases eq_or_ne failed [] with rfl | hne
  · simp [classifyFailureClass]
  unfold classifyFailureClass
  rw [if_neg hne]
  by_cases hall : ∀ c ∈ failed, isPlacementCheck c = true
  · have hp : failed.any isPlacementCheck = true := by
      obtain ⟨c, hc⟩ := List.exists_mem_of_ne_nil failed hne
      exact List.any_eq_true.2 ⟨c, hc, hall c hc⟩
    have hnon : failed.any (fun c => !isPlacementCheck c) = false := by
      simpa using hall
    simp only [hp, hnon, hne, Bool.and_false, Bool.false_eq_true, if_false, if_true, ne_eq,
      not_false_eq_true, true_and]
    exact iff_of_true trivial hall
  · have hnon : failed.any (fun c => !isPlacementCheck c) = true := by
      simpa using hall
    cases failed.any isPlacementCheck <;> simp [hnon, hall]

/-- `failed_must_cover_checklist_ids`. -/
def failedMustCoverChecklistIds (failed : List Check) (checklist : List ChecklistItem) :
    List String :=
  ((failed.filter fun c => c.categoryText = "must_cover" && c.failed).map fun c =>
    normalizeChecklistId (getText (pyOr c.checklistId (some (.str c.idText))) "") checklist).filter
      (· ≠ "")

/-! ## Section bundles -/

/-- `_failure_record`: what a retry prompt is told about one failed check. -/
structure FailureRecord where
  checkId : String
  category : String
  evidence : String
  correctiveHint : String
  deriving DecidableEq

/-- One entry of `qc_section_failures`. -/
structure SectionFailures where
  sectionId : String
  heading : String
  currentSection : Option Section
  failures : List FailureRecord
  deriving DecidableEq

/-- `section_has_only_placement_failures`. -/
def sectionHasOnlyPlacementFailures (failures : List FailureRecord) : Bool :=
  if failures = [] then false
  else failures.all fun r => strip r.checkId ∈ PLACEMENT_CHECK_IDS

/-- `split_section_failures_by_kind`. -/
def splitSectionFailuresByKind (bundles : List SectionFailures) :
    List SectionFailures × List SectionFailures :=
  bundles.partition fun b => sectionHasOnlyPlacementFailures b.failures

end StudyAgent
