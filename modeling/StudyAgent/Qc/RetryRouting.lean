import StudyAgent.Qc.FailureClass
import StudyAgent.Qc.Scoring

/-!
# Routing a failed result back to the generator

A failed result is mapped to sections to patch and checklist items to insert, a
recommendation fills in targets when the checks give none, and a retry mode is
chosen from the targets, the recommendation and the escalation rules.

Main results:

* `mem_mapped_failed`, `mem_mapped_missing` — the targets the failed checks give.
* `mem_targets_failed`, `mem_targets_missing` — with those of the recommendation.
* `reconcileMode_deterministicMode` — with targets the reconciled mode is the
  deterministic one.
* `classifyRetryRouting_mode` — **the mode as a function of the targets.**
-/

namespace StudyAgent.RetryRouting

open Py Scoring

/-! ## Modes and results -/

inductive RetryMode where
  | sectionPatch
  | sectionInsert
  | sectionPatchThenInsert
  | fullRegeneration
  | none
  deriving DecidableEq, Repr

/-- `_coerce_llm_recommendation_mode`. -/
def coerceLlmRecommendationMode (rawMode : Option Value) : Option RetryMode :=
  let mode := strip (getTextOr rawMode)
  if mode = "section_patch" then some .sectionPatch
  else if mode = "section_insert" then some .sectionInsert
  else if mode = "section_patch_then_insert" then some .sectionPatchThenInsert
  else if mode = "full_regeneration" then some .fullRegeneration
  else if mode = "none" then some .none
  else Option.none

/-- `RetryRoutingResult`, less its rationale text. -/
structure RetryRoutingResult where
  mode : RetryMode
  failedSectionIds : List String := []
  missingChecklistIds : List String := []
  sectionFailures : List SectionFailures := []
  placementSectionFailures : List SectionFailures := []
  substanceSectionFailures : List SectionFailures := []
  failureClass : FailureClass := .none
  deriving DecidableEq

/-! ## Ids -/

/-- `_required_checklist_ids`. -/
def requiredChecklistIds (checklist : List ChecklistItem) : List String :=
  ((checklist.filter fun item => item.priority = .required && item.id ≠ "").map fun item =>
    strip item.id).dedup

/-- `_document_section_ids`: the ids that are there. -/
def documentSectionIds (document : Document) : List String :=
  document.sections.filterMap Section.givenId

/-- `_failed_checks`. -/
def failedChecks (qcResult : QcResult) : List Check :=
  if qcResult.failedCheckList ≠ [] then qcResult.failedCheckList
  else qcResult.checkList.filter Check.failed

/-- `_failure_record`. -/
def failureRecord (c : Check) : FailureRecord where
  checkId := c.idText
  category := c.categoryText
  evidence := getText c.evidence ""
  correctiveHint := getText c.correctiveHint ""

/-- `_structure_coverage_failed`. -/
def structureCoverageFailed (failed : List Check) : Bool :=
  failed.any fun c => c.idText = "det_structure_coverage" && c.failed

/-- `_is_structure_only_failure`. -/
def isStructureOnlyFailure (failed : List Check) : Bool :=
  match failed.filter fun c => c.categoryText ≠ "teaching_alignment" with
  | [c] => c.idText = "det_structure_coverage" && c.failed
  | _ => false

/-- `_checklist_ids_for_missing_sections`. -/
def checklistIdsForMissingSections (missing : List String) (checklist : List ChecklistItem) :
    List String :=
  (checklist.filter fun item =>
    checklistSectionId item ∈ missing && strip item.id ≠ "").map fun item => strip item.id

/-- `_enrich_missing_checklist_from_structure`: the insert targets for missing
document sections. -/
def enrichMissing (structureMissing : List String) (checklist : List ChecklistItem)
    (topicSplit : List TopicSplitEntry) : List String :=
  structureMissing.flatMap fun sid =>
    let mapped := checklistIdsForMissingSections [sid] checklist
    if mapped ≠ [] then mapped
    else if topicSplit ≠ [] && topicSplit.any fun e => strip e.id = sid then [sid]
    else []

/-! ## Mapping failures to targets -/

/-- Where one failed check leads. -/
inductive FailureTarget where
  | patch (sectionId : String)
  | insert (itemId : String)
  | skipped
  | unmapped
  deriving DecidableEq

/-- One round of the loop of `_map_failures_to_targets`. -/
def failureTarget (document : Document) (checklist : List ChecklistItem) (c : Check) :
    FailureTarget :=
  if c.categoryText = "must_cover" then
    let itemId := normalizeChecklistId
      (getText (pyOr c.checklistId (some (.str c.idText))) "") checklist
    if itemId = "" then .unmapped
    else
      let sectionTarget := resolveChecklistSectionId checklist itemId
      if sectionTarget ∈ documentSectionIds document then .patch sectionTarget
      else .insert itemId
  else if c.categoryText = "teaching_alignment" then .skipped
  else if c.categoryText = "structure" ∧ c.idText = "det_structure_coverage" then .skipped
  else
    let sectionId := strip (getText c.sectionId "")
    if sectionId ≠ "" ∧ sectionId ∈ documentSectionIds document then .patch sectionId
    else .unmapped

/-- The targets and the failure records gathered so far. -/
structure Targets where
  failedSectionIds : List String := []
  missingChecklistIds : List String := []
  failuresBySection : AList fun _ : String => List FailureRecord := ∅
  unmappedCount : ℕ := 0

/-- Add the target of one failed check. -/
def Targets.add (document : Document) (checklist : List ChecklistItem) (t : Targets)
    (c : Check) : Targets :=
  match failureTarget document checklist c with
  | .patch sid =>
    { t with
      failedSectionIds := t.failedSectionIds ++ [sid]
      failuresBySection := t.failuresBySection.insert sid
        ((t.failuresBySection.lookup sid).getD [] ++ [failureRecord c]) }
  | .insert itemId => { t with missingChecklistIds := t.missingChecklistIds ++ [itemId] }
  | .skipped => t
  | .unmapped => { t with unmappedCount := t.unmappedCount + 1 }

section

variable (failed : List Check) (document : Document) (checklist : List ChecklistItem)
  (topicSplit : List TopicSplitEntry) (structureMissingIds : Option (List String))

/-- The missing sections, looked at only when the structure check failed. -/
def structureMissing : Option (List String) :=
  if structureCoverageFailed failed then
    some ((structureMissingIds.getD (missingSectionIds document checklist topicSplit)).dedup)
  else none

/-- `_map_failures_to_targets`. -/
def mapFailuresToTargets : Targets :=
  let t := failed.foldl (Targets.add document checklist) {}
  match structureMissing failed document checklist topicSplit structureMissingIds with
  | some missing =>
    { t with
      missingChecklistIds :=
        t.missingChecklistIds ++ enrichMissing missing checklist topicSplit }
  | none => t

end

/-! ## Escalation -/

/-- `_teaching_alignment_failed`. -/
def teachingAlignmentFailed (failed : List Check) : Bool :=
  failed.any fun c => c.categoryText = "teaching_alignment" && c.failed

/-- `_teaching_alignment_critical_fail`. -/
def teachingAlignmentCriticalFail (failed : List Check) : Bool :=
  failed.any fun c => c.categoryText = "teaching_alignment" && c.failed &&
    lower (getText c.severity "") = "critical"

/-- `_teaching_alignment_sole_failure`. -/
def teachingAlignmentSoleFailure (failed : List Check) : Bool :=
  if failed = [] then false else failed.all fun c => c.categoryText = "teaching_alignment"

/-- `_structure_coverage_widespread`; the gap ratio is compared with `0.4`. -/
def structureCoverageWidespread (missing : List String) (checklist : List ChecklistItem)
    (topicSplit : List TopicSplitEntry) : Bool :=
  let missingCount := missing.dedup.length
  if missingCount ≤ 1 then false
  else
    let required := (expectedDocumentSectionIds checklist topicSplit).dedup
    if required = [] then true else 2 * required.length ≤ 5 * missingCount

/-- `_affected_required_checklist_ids`. -/
def affectedRequiredChecklistIds (checklist : List ChecklistItem) (failed : List Check)
    (missingChecklistIds : List String) : List String :=
  (requiredChecklistIds checklist).filter fun itemId =>
    itemId ∈ missingChecklistIds ++ failedMustCoverChecklistIds failed checklist

/-- `_should_force_full_regeneration`, less its reason. -/
def shouldForceFullRegeneration (failed : List Check)
    (failedSectionIds missingChecklistIds : List String) (checklist : List ChecklistItem)
    (topicSplit : List TopicSplitEntry) (unmappedCount : ℕ)
    (structureMissing : Option (List String)) : Bool :=
  if isPlacementOnlyFailure failed then false
  else if teachingAlignmentCriticalFail failed then true
  else if teachingAlignmentFailed failed && 2 ≤ unmappedCount then true
  else if structureMissing.any fun missing =>
      structureCoverageWidespread missing checklist topicSplit then true
  else if requiredChecklistIds checklist ≠ [] && !isStructureOnlyFailure failed &&
      2 * (requiredChecklistIds checklist).length ≤
        5 * (affectedRequiredChecklistIds checklist failed missingChecklistIds).length then true
  else if 4 ≤ failedSectionIds.dedup.length then true
  else 3 ≤ unmappedCount

/-! ## Choosing the mode -/

/-- `_deterministic_mode`. -/
def deterministicMode (failedSectionIds missingChecklistIds : List String) : RetryMode :=
  if failedSectionIds = [] ∧ missingChecklistIds = [] then .none
  else if failedSectionIds ≠ [] ∧ missingChecklistIds ≠ [] then .sectionPatchThenInsert
  else if missingChecklistIds ≠ [] then .sectionInsert
  else .sectionPatch

/-- `_reconcile_mode`. -/
def reconcileMode (deterministic : RetryMode) (llm : Option RetryMode) (force : Bool)
    (failedSectionIds missingChecklistIds : List String) (soleTeachingAlignment : Bool) :
    RetryMode :=
  let hasFailed := failedSectionIds ≠ []
  let hasMissing := missingChecklistIds ≠ []
  if force then .fullRegeneration
  else if deterministic = .none then
    if soleTeachingAlignment then .fullRegeneration
    else if llm = some .fullRegeneration then .fullRegeneration
    else if llm = some .sectionPatch ∧ hasFailed then .sectionPatch
    else if llm = some .sectionInsert ∧ hasMissing then .sectionInsert
    else if llm = some .sectionPatchThenInsert ∧ hasFailed ∧ hasMissing then
      .sectionPatchThenInsert
    else .none
  else if llm = Option.none ∨ llm = some .none then deterministic
  else if llm = some .sectionPatch ∧ hasFailed ∧ ¬ hasMissing then .sectionPatch
  else if llm = some .sectionInsert ∧ hasMissing ∧ ¬ hasFailed then .sectionInsert
  else if llm = some .sectionPatchThenInsert ∧ hasFailed ∧ hasMissing then
    .sectionPatchThenInsert
  else deterministic

/-! ## The recommendation's targets -/

/-- `_merge_llm_recommendation_targets`: only when the checks gave no target. -/
def mergeLlmRecommendationTargets (recommendation : Option Recommendation) (document : Document)
    (checklist : List ChecklistItem) (failed : List Check) (t : Targets) : Targets :=
  if t.failedSectionIds ≠ [] ∨ t.missingChecklistIds ≠ [] then t
  else
    match recommendation with
    | none => t
    | some r =>
      let failedIds := (r.failedSectionIds.map fun v => strip v.text).filter fun sid =>
        sid ∈ documentSectionIds document
      let missingIds := (r.missingChecklistIds.map fun v =>
        normalizeChecklistId v.text checklist).filter (· ≠ "")
      let records := (failed.filter fun c => c.sectionText = "").map failureRecord
      { t with
        failedSectionIds := failedIds
        missingChecklistIds := missingIds
        failuresBySection :=
          if records = [] then t.failuresBySection
          else
            failedIds.foldl
              (fun m sid => if (m.lookup sid).getD [] = [] then m.insert sid records else m)
              t.failuresBySection }

/-- `_section_by_id`. -/
def sectionById (document : Document) (sid : String) : Option Section :=
  if sid = "" then none else lastSection document.sections sid

/-- `_build_section_failures`. -/
def buildSectionFailures (failedSectionIds : List String)
    (failuresBySection : AList fun _ : String => List FailureRecord) (document : Document) :
    List SectionFailures :=
  failedSectionIds.map fun sid =>
    { sectionId := sid
      heading := ((sectionById document sid).bind Section.heading).getD ""
      currentSection := sectionById document sid
      failures := (failuresBySection.lookup sid).getD [] }

/-- The result for given targets and mode. -/
def routingResult (mode : RetryMode) (t : Targets) (document : Document)
    (failureClass : FailureClass) : RetryRoutingResult :=
  let sectionFailures :=
    buildSectionFailures (sortedSet t.failedSectionIds) t.failuresBySection document
  let split := splitSectionFailuresByKind sectionFailures
  { mode := mode
    failedSectionIds := sortedSet t.failedSectionIds
    missingChecklistIds := sortedSet t.missingChecklistIds
    sectionFailures := sectionFailures
    placementSectionFailures := split.1
    substanceSectionFailures := split.2
    failureClass := failureClass }

/-! ## Classification -/

section

variable (qcResult : QcResult) (document : Document) (checklist : List ChecklistItem)
  (topicSplit : List TopicSplitEntry) (structureMissingIds : Option (List String))

/-- The recommendation that routing works with. -/
def routedRecommendation : Option Recommendation :=
  qcResult.retryRecommendation.map fun r =>
    sanitizeRetryRecommendation r (qcResult.checks.getD (failedChecks qcResult)) document checklist

/-- Its mode. -/
def llmRecommendationMode : Option RetryMode :=
  (routedRecommendation qcResult document checklist).bind fun r =>
    coerceLlmRecommendationMode r.mode

/-- The targets of the failed checks. -/
def mappedTargets : Targets :=
  mapFailuresToTargets (failedChecks qcResult) document checklist topicSplit structureMissingIds

/-- The targets, with those of the recommendation when the checks give none. -/
def allTargets : Targets :=
  mergeLlmRecommendationTargets (routedRecommendation qcResult document checklist) document
    checklist (failedChecks qcResult)
    (if failedChecks qcResult = [] then {}
      else mappedTargets qcResult document checklist topicSplit structureMissingIds)

/-- Whether the failures force a full regeneration. -/
def escalates : Bool :=
  let t := allTargets qcResult document checklist topicSplit structureMissingIds
  shouldForceFullRegeneration (failedChecks qcResult) t.failedSectionIds t.missingChecklistIds
    checklist topicSplit t.unmappedCount
    (structureMissing (failedChecks qcResult) document checklist topicSplit structureMissingIds)

/-- `classify_retry_routing`. -/
def classifyRetryRouting : RetryRoutingResult :=
  let failed := failedChecks qcResult
  let failureClass := classifyFailureClass failed
  let llm := llmRecommendationMode qcResult document checklist
  let t := allTargets qcResult document checklist topicSplit structureMissingIds
  let deterministic := deterministicMode t.failedSectionIds t.missingChecklistIds
  if failed = [] then
    if t.failedSectionIds = [] ∧ t.missingChecklistIds = [] then
      { mode := .none, failureClass := failureClass }
    else
      routingResult
        (reconcileMode deterministic llm false t.failedSectionIds t.missingChecklistIds false)
        t document failureClass
  else
    let force := escalates qcResult document checklist topicSplit structureMissingIds
    let reconciled := reconcileMode deterministic llm force t.failedSectionIds
      t.missingChecklistIds (teachingAlignmentSoleFailure failed)
    let unforced :=
      if isPlacementOnlyFailure failed ∧ reconciled = .fullRegeneration then .sectionPatch
      else reconciled
    let mode :=
      if isStructureOnlyFailure failed ∧ t.missingChecklistIds ≠ [] ∧ ¬ force then
        .sectionInsert
      else unforced
    routingResult mode t document failureClass

end

/-! ## What the targets are -/

section

variable {document : Document} {checklist : List ChecklistItem}

/-- The section a failed check sends to be patched. -/
def FailureTarget.patchId : FailureTarget → Option String
  | .patch sid => some sid
  | _ => Option.none

/-- The item a failed check sends to be inserted. -/
def FailureTarget.insertId : FailureTarget → Option String
  | .insert itemId => some itemId
  | _ => Option.none

/-- The loop collects the targets check by check. -/
theorem foldl_add (failed : List Check) (t : Targets) :
    (failed.foldl (Targets.add document checklist) t).failedSectionIds =
        t.failedSectionIds ++
          failed.filterMap (fun c => (failureTarget document checklist c).patchId) ∧
      (failed.foldl (Targets.add document checklist) t).missingChecklistIds =
        t.missingChecklistIds ++
          failed.filterMap (fun c => (failureTarget document checklist c).insertId) := by
  induction failed generalizing t with
  | nil => simp
  | cons c l ih =>
    rw [List.foldl_cons, (ih _).1, (ih _).2, List.filterMap_cons, List.filterMap_cons]
    unfold Targets.add
    cases failureTarget document checklist c <;>
      simp [FailureTarget.patchId, FailureTarget.insertId]

/-- A patch target is a section that is there. -/
theorem failureTarget_patch {c : Check} {sid : String}
    (h : failureTarget document checklist c = .patch sid) :
    sid ∈ documentSectionIds document ∧ sid ≠ "" := by
  unfold failureTarget at h
  split at h
  · dsimp only at h
    split at h
    · exact absurd h (by simp)
    next hne =>
      split at h
      next hin =>
        have hsid := FailureTarget.patch.inj h
        subst hsid
        exact ⟨hin, resolveChecklistSectionId_ne_empty hne (strip_normalizeChecklistId _ _)⟩
      · exact absurd h (by simp)
  · split at h
    · exact absurd h (by simp)
    · split at h
      · exact absurd h (by simp)
      · dsimp only at h
        split at h
        next hin =>
          have hsid := FailureTarget.patch.inj h
          subst hsid
          exact ⟨hin.2, hin.1⟩
        · exact absurd h (by simp)

/-- Only a must_cover failure leads to an insertion, that of its own item. -/
theorem failureTarget_insert_iff {c : Check} {itemId : String} :
    failureTarget document checklist c = .insert itemId ↔
      c.categoryText = "must_cover" ∧ itemId ≠ "" ∧
      itemId = normalizeChecklistId
        (getText (pyOr c.checklistId (some (.str c.idText))) "") checklist ∧
      resolveChecklistSectionId checklist itemId ∉ documentSectionIds document := by
  unfold failureTarget
  by_cases hmc : c.categoryText = "must_cover"
  · rw [if_pos hmc]
    dsimp only
    split
    next hempty =>
      refine iff_of_false (by simp) ?_
      rintro ⟨-, hne, rfl, -⟩
      exact hne hempty
    next hne =>
      split
      next hin =>
        refine iff_of_false (by simp) ?_
        rintro ⟨-, -, rfl, hnot⟩
        exact hnot hin
      next hnot =>
        constructor
        · intro h
          have hid := FailureTarget.insert.inj h
          subst hid
          exact ⟨hmc, hne, rfl, hnot⟩
        · rintro ⟨-, -, rfl, -⟩
          rfl
  · rw [if_neg hmc]
    refine iff_of_false ?_ fun h => hmc h.1
    split
    · simp
    · split
      · simp
      · dsimp only
        split <;> simp

variable {qcResult : QcResult} {topicSplit : List TopicSplitEntry}
  {structureMissingIds : Option (List String)}

/-- **The sections the failed checks send to be patched.** -/
theorem mem_mapped_failed {sid : String} :
    sid ∈ (mappedTargets qcResult document checklist topicSplit
        structureMissingIds).failedSectionIds ↔
      ∃ c ∈ failedChecks qcResult, failureTarget document checklist c = .patch sid := by
  have hfold : (mappedTargets qcResult document checklist topicSplit
      structureMissingIds).failedSectionIds = (failedChecks qcResult).filterMap
        fun c => (failureTarget document checklist c).patchId := by
    unfold mappedTargets mapFailuresToTargets
    dsimp only
    split <;> exact (foldl_add _ _).1
  rw [hfold, List.mem_filterMap]
  refine exists_congr fun c => and_congr_right fun _ => ?_
  cases failureTarget document checklist c <;> simp [FailureTarget.patchId]

/-- **The items the failed checks send to be inserted**: those of must_cover
failures without a section, and those of sections the structure check misses. -/
theorem mem_mapped_missing {itemId : String} :
    itemId ∈ (mappedTargets qcResult document checklist topicSplit
        structureMissingIds).missingChecklistIds ↔
      (∃ c ∈ failedChecks qcResult, failureTarget document checklist c = .insert itemId) ∨
      ∃ missing, structureMissing (failedChecks qcResult) document checklist topicSplit
          structureMissingIds = some missing ∧
        itemId ∈ enrichMissing missing checklist topicSplit := by
  have hloop : itemId ∈ ((failedChecks qcResult).foldl (Targets.add document checklist)
        {}).missingChecklistIds ↔
      ∃ c ∈ failedChecks qcResult, failureTarget document checklist c = .insert itemId := by
    rw [(foldl_add _ _).2, List.nil_append, List.mem_filterMap]
    refine exists_congr fun c => and_congr_right fun _ => ?_
    cases failureTarget document checklist c <;> simp [FailureTarget.insertId]
  unfold mappedTargets mapFailuresToTargets
  dsimp only
  cases structureMissing (failedChecks qcResult) document checklist topicSplit
      structureMissingIds with
  | none => simp [hloop]
  | some missing => simp [hloop]

/-- The failed checks give no target. -/
def NoMapped (qcResult : QcResult) (document : Document) (checklist : List ChecklistItem)
    (topicSplit : List TopicSplitEntry) (structureMissingIds : Option (List String)) : Prop :=
  (mappedTargets qcResult document checklist topicSplit structureMissingIds).failedSectionIds = [] ∧
    (mappedTargets qcResult document checklist topicSplit
      structureMissingIds).missingChecklistIds = []

/-- The checks that the recommendation is cleaned against. -/
def routedChecks (qcResult : QcResult) : List Check :=
  qcResult.checks.getD (failedChecks qcResult)

/-- Without failed checks nothing is mapped. -/
theorem mappedTargets_of_no_failed (h : failedChecks qcResult = []) :
    mappedTargets qcResult document checklist topicSplit structureMissingIds = {} := by
  unfold mappedTargets mapFailuresToTargets structureMissing
  rw [h]
  rfl

theorem allTargets_eq :
    allTargets qcResult document checklist topicSplit structureMissingIds =
      mergeLlmRecommendationTargets (routedRecommendation qcResult document checklist) document
        checklist (failedChecks qcResult)
        (mappedTargets qcResult document checklist topicSplit structureMissingIds) := by
  unfold allTargets
  by_cases h : failedChecks qcResult = []
  · rw [if_pos h, mappedTargets_of_no_failed h]
  · rw [if_neg h]

/-- Where the failed checks give a target, the recommendation is not asked. -/
theorem allTargets_of_mapped
    (h : ¬ NoMapped qcResult document checklist topicSplit structureMissingIds) :
    allTargets qcResult document checklist topicSplit structureMissingIds =
      mappedTargets qcResult document checklist topicSplit structureMissingIds := by
  rw [allTargets_eq]
  exact if_pos (not_and_or.1 h)

/-- Where they give none, the targets are those of the recommendation. -/
theorem allTargets_of_noMapped
    (h : NoMapped qcResult document checklist topicSplit structureMissingIds) :
    (allTargets qcResult document checklist topicSplit structureMissingIds).failedSectionIds =
        ((routedRecommendation qcResult document checklist).map fun r =>
          (r.failedSectionIds.map fun v => strip v.text).filter fun sid =>
            sid ∈ documentSectionIds document).getD [] ∧
      (allTargets qcResult document checklist topicSplit structureMissingIds).missingChecklistIds =
        ((routedRecommendation qcResult document checklist).map fun r =>
          (r.missingChecklistIds.map fun v =>
            normalizeChecklistId v.text checklist).filter (· ≠ "")).getD [] := by
  obtain ⟨hfailed, hmissing⟩ := h
  rw [allTargets_eq]
  unfold mergeLlmRecommendationTargets
  rw [if_neg (not_or.2 ⟨not_not_intro hfailed, not_not_intro hmissing⟩)]
  cases routedRecommendation qcResult document checklist with
  | none => exact ⟨hfailed, hmissing⟩
  | some r => exact ⟨rfl, rfl⟩

/-- **The sections to patch**: those of the failed checks, or else those the
recommendation names and the document has. -/
theorem mem_targets_failed {sid : String} :
    sid ∈ (allTargets qcResult document checklist topicSplit
        structureMissingIds).failedSectionIds ↔
      sid ∈ (mappedTargets qcResult document checklist topicSplit
        structureMissingIds).failedSectionIds ∨
      (NoMapped qcResult document checklist topicSplit structureMissingIds ∧
        ∃ r, qcResult.retryRecommendation = some r ∧
          sid ∈ cleanedFailedSections r (routedChecks qcResult) document ∧
          sid ∈ documentSectionIds document) := by
  by_cases hnone : NoMapped qcResult document checklist topicSplit structureMissingIds
  · rw [(allTargets_of_noMapped hnone).1, hnone.1]
    unfold routedRecommendation
    cases hrec : qcResult.retryRecommendation with
    | none => simp
    | some r =>
      have hstrip : ∀ x ∈ cleanedFailedSections r (routedChecks qcResult) document,
        strip x = x := by
        intro x hx
        obtain ⟨-, v, -, rfl⟩ := mem_cleanedFailedSections.1 hx
        exact strip_strip _
      simp only [Option.map_some, Option.getD_some, sanitizeRetryRecommendation, List.map_map,
        List.mem_filter, List.mem_map, decide_eq_true_eq, hnone, List.not_mem_nil, false_or,
        true_and, Option.some.injEq, exists_eq_left', Function.comp_apply, Value.text_str]
      refine and_congr_left fun _ => ?_
      constructor
      · rintro ⟨x, hx, rfl⟩
        rw [hstrip x hx]
        exact hx
      · exact fun hs => ⟨sid, hs, hstrip sid hs⟩
  · rw [allTargets_of_mapped hnone]
    exact (or_iff_left fun h => hnone h.1).symm

/-- **The items to insert**: those of the failed checks, or else those the
recommendation names with reason. -/
theorem mem_targets_missing {itemId : String} :
    itemId ∈ (allTargets qcResult document checklist topicSplit
        structureMissingIds).missingChecklistIds ↔
      itemId ∈ (mappedTargets qcResult document checklist topicSplit
        structureMissingIds).missingChecklistIds ∨
      (NoMapped qcResult document checklist topicSplit structureMissingIds ∧
        ∃ r, qcResult.retryRecommendation = some r ∧
          itemId ∈ cleanedMissing r (routedChecks qcResult) document checklist) := by
  by_cases hnone : NoMapped qcResult document checklist topicSplit structureMissingIds
  · rw [(allTargets_of_noMapped hnone).2, hnone.2]
    unfold routedRecommendation
    cases hrec : qcResult.retryRecommendation with
    | none => simp
    | some r =>
      have hnorm : ∀ x ∈ cleanedMissing r (routedChecks qcResult) document checklist,
          x ≠ "" ∧ normalizeChecklistId x checklist = x := by
        intro x hx
        obtain ⟨⟨hne, -⟩, v, -, rfl⟩ := mem_cleanedMissing.1 hx
        exact ⟨hne, normalizeChecklistId_idem _ _⟩
      simp only [Option.map_some, Option.getD_some, sanitizeRetryRecommendation, List.map_map,
        List.mem_filter, List.mem_map, decide_eq_true_eq, hnone, List.not_mem_nil, false_or,
        true_and, Option.some.injEq, exists_eq_left', Function.comp_apply, Value.text_str]
      constructor
      · rintro ⟨⟨x, hx, rfl⟩, -⟩
        rw [(hnorm x hx).2]
        exact hx
      · exact fun hs => ⟨⟨itemId, hs, (hnorm itemId hs).2⟩, (hnorm itemId hs).1⟩
  · rw [allTargets_of_mapped hnone]
    exact (or_iff_left fun h => hnone h.1).symm

/-- Every section to patch is a section that is there. -/
theorem targets_failed_valid {sid : String}
    (h : sid ∈ (allTargets qcResult document checklist topicSplit
      structureMissingIds).failedSectionIds) :
    sid ∈ documentSectionIds document ∧ sid ≠ "" := by
  rcases mem_targets_failed.1 h with h | ⟨-, r, -, hclean, hdoc⟩
  · obtain ⟨c, -, hc⟩ := mem_mapped_failed.1 h
    exact failureTarget_patch hc
  · exact ⟨hdoc, (mem_cleanedFailedSections.1 hclean).1.1⟩

/-! ## What the mode is -/

theorem reconcileMode_force (deterministic : RetryMode) (llm : Option RetryMode)
    (failedIds missingIds : List String) (sole : Bool) :
    reconcileMode deterministic llm true failedIds missingIds sole = .fullRegeneration := by
  unfold reconcileMode
  exact if_pos rfl

/-- **With targets the reconciled mode is the deterministic one**; without, it is
a full regeneration or none. -/
theorem reconcileMode_deterministicMode (llm : Option RetryMode)
    (failedIds missingIds : List String)
    (sole : Bool) :
    reconcileMode (deterministicMode failedIds missingIds) llm false failedIds missingIds sole =
      if failedIds = [] ∧ missingIds = [] then
        if sole = true ∨ llm = some .fullRegeneration then .fullRegeneration else .none
      else deterministicMode failedIds missingIds := by
  unfold reconcileMode deterministicMode
  by_cases hf : failedIds = [] <;> by_cases hm : missingIds = [] <;> simp only [hf, hm] <;>
    simp <;> grind

/-- Placement failures alone never force a full regeneration. -/
theorem escalates_of_placementOnly (h : isPlacementOnlyFailure (failedChecks qcResult) = true) :
    escalates qcResult document checklist topicSplit structureMissingIds = false := by
  unfold escalates shouldForceFullRegeneration
  exact if_pos h

/-- **The mode as a function of the targets.** -/
theorem classifyRetryRouting_mode :
    let t := allTargets qcResult document checklist topicSplit structureMissingIds
    (classifyRetryRouting qcResult document checklist topicSplit structureMissingIds).mode =
      if failedChecks qcResult = [] then deterministicMode t.failedSectionIds t.missingChecklistIds
      else if escalates qcResult document checklist topicSplit structureMissingIds = true then
        .fullRegeneration
      else if t.failedSectionIds = [] ∧ t.missingChecklistIds = [] then
        if teachingAlignmentSoleFailure (failedChecks qcResult) = true ∨
            llmRecommendationMode qcResult document checklist = some .fullRegeneration then
          if isPlacementOnlyFailure (failedChecks qcResult) = true then .sectionPatch
          else .fullRegeneration
        else .none
      else if isStructureOnlyFailure (failedChecks qcResult) = true ∧
          t.missingChecklistIds ≠ [] then .sectionInsert
      else deterministicMode t.failedSectionIds t.missingChecklistIds := by
  intro t
  unfold classifyRetryRouting
  dsimp only
  by_cases hfailed : failedChecks qcResult = []
  · rw [if_pos hfailed, if_pos hfailed]
    by_cases hnone : t.failedSectionIds = [] ∧ t.missingChecklistIds = []
    · rw [if_pos hnone]
      unfold deterministicMode
      rw [if_pos hnone]
    · rw [if_neg hnone]
      unfold routingResult
      dsimp only
      rw [reconcileMode_deterministicMode, if_neg hnone]
  · rw [if_neg hfailed, if_neg hfailed]
    unfold routingResult
    dsimp only
    by_cases hforce : escalates qcResult document checklist topicSplit structureMissingIds = true
    · have hplace : ¬ isPlacementOnlyFailure (failedChecks qcResult) = true := by
        intro hplace
        rw [escalates_of_placementOnly hplace] at hforce
        exact absurd hforce Bool.false_ne_true
      rw [if_pos hforce, hforce]
      rw [if_neg (by simp), if_neg fun h => hplace h.1, reconcileMode_force]
    · have hforce' : escalates qcResult document checklist topicSplit structureMissingIds =
          false := by simpa using hforce
      rw [if_neg hforce, hforce', reconcileMode_deterministicMode]
      by_cases hnone : t.failedSectionIds = [] ∧ t.missingChecklistIds = []
      · rw [if_pos hnone, if_pos hnone, if_neg fun h => h.2.1 hnone.2]
        by_cases hfull : teachingAlignmentSoleFailure (failedChecks qcResult) = true ∨
            llmRecommendationMode qcResult document checklist = some .fullRegeneration
        · rw [if_pos hfull, if_pos hfull]
          simp
        · rw [if_neg hfull, if_neg hfull, if_neg (by simp)]
      · rw [if_neg hnone, if_neg hnone]
        have hdet : deterministicMode t.failedSectionIds t.missingChecklistIds ≠
            .fullRegeneration := by
          unfold deterministicMode
          split_ifs <;> decide
        rw [if_neg fun h : isPlacementOnlyFailure (failedChecks qcResult) = true ∧
          deterministicMode t.failedSectionIds t.missingChecklistIds = .fullRegeneration =>
            hdet h.2]
        simp only [Bool.false_eq_true, not_false_eq_true, and_true]
        rfl

/-- The ids of the result are the targets. -/
theorem classifyRetryRouting_ids :
    let t := allTargets qcResult document checklist topicSplit structureMissingIds
    let r := classifyRetryRouting qcResult document checklist topicSplit structureMissingIds
    (∀ sid, sid ∈ r.failedSectionIds ↔ sid ∈ t.failedSectionIds) ∧
      ∀ itemId, itemId ∈ r.missingChecklistIds ↔ itemId ∈ t.missingChecklistIds := by
  intro t r
  have hr : r = classifyRetryRouting qcResult document checklist topicSplit structureMissingIds :=
    rfl
  unfold classifyRetryRouting at hr
  dsimp only at hr
  by_cases hfailed : failedChecks qcResult = []
  · rw [if_pos hfailed] at hr
    by_cases hnone : t.failedSectionIds = [] ∧ t.missingChecklistIds = []
    · rw [if_pos hnone] at hr
      rw [hr, hnone.1, hnone.2]
      exact ⟨fun _ => Iff.rfl, fun _ => Iff.rfl⟩
    · rw [if_neg hnone] at hr
      rw [hr]
      exact ⟨fun _ => mem_sortedSet, fun _ => mem_sortedSet⟩
  · rw [if_neg hfailed] at hr
    rw [hr]
    exact ⟨fun _ => mem_sortedSet, fun _ => mem_sortedSet⟩

end

end StudyAgent.RetryRouting
