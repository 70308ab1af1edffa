import StudyAgent.Base.Dedup
import StudyAgent.Model.ChecklistIds

/-!
# Status, deliverability and the retry recommendation

The overall status is derived from the checks; a result may be delivered with
warnings; and the verifier's own retry recommendation is cleaned of targets that
contradict the checks before anything uses it.

Main results:

* `deriveOverallStatus_pass_iff` — the status is a pass exactly when nothing
  failed and the risk is low (refusals aside).
* `mem_cleanedFailedSections`, `mem_cleanedMissing` — which targets survive the
  cleaning.
* `isQcDeliverable_false_iff` — exactly which results are not delivered.
-/

namespace StudyAgent.Scoring

open Py

/-! ## Status -/

/-- `derive_overall_status`. -/
def deriveOverallStatus (checks : List Check) (hallucinationRisk : String) (isRefusal : Bool) :
    OverallStatus :=
  if isRefusal then .pass
  else if hallucinationRisk = "high" then .fail
  else if checks.any fun c => c.failed && c.severityIs "critical" then .fail
  else if hallucinationRisk = "medium" then .warn
  else if checks.any fun c => c.failed && c.severityIs "major" then .warn
  else if checks.any Check.failed then .warn
  else .pass

/-- `extract_failed_checks`. -/
def extractFailedChecks (checks : List Check) : List Check := checks.filter Check.failed

/-- `has_failed_must_cover`. -/
def hasFailedMustCover (failedChecks : List Check) : Bool :=
  failedChecks.any fun c => c.categoryText = "must_cover" && c.failed

theorem mem_extractFailedChecks {checks : List Check} {c : Check} :
    c ∈ extractFailedChecks checks ↔ c ∈ checks ∧ c.failed = true := List.mem_filter

/-! ## The retry recommendation -/

/-- `missing_checklist_ids_from_recommendation`. -/
def missingChecklistIdsFromRecommendation (r : Option Recommendation) : List String :=
  match r with
  | none => []
  | some r => (r.missingChecklistIds.map fun v => strip v.text).filter (· ≠ "")

/-- `_checklist_item_by_id`. -/
def checklistItemById (checklist : List ChecklistItem) (itemId : String) :
    Option ChecklistItem :=
  checklist.find? fun item => strip item.id = itemId

/-- `_must_cover_passed_for_id`: the verdict of the first must_cover check that
is about the item, if there is one. -/
def mustCoverPassedForId (checks : List Check) (itemId : String) : Option Bool :=
  (checks.find? fun c =>
    c.categoryText = "must_cover" &&
      (let checkItem := strip (getTextOr (pyOr c.checklistId c.id))
       checkItem = itemId || checkItem = "must_cover_" ++ itemId ||
        (endsWith checkItem ("_" ++ itemId) && itemId ≠ ""))).map Check.isPassed

/-- `_derive_mode_from_targets`. -/
def deriveModeFromTargets (failedSectionIds missingChecklistIds : List String)
    (previousMode : String) : String :=
  if failedSectionIds = [] ∧ missingChecklistIds = [] then "none"
  else if failedSectionIds ≠ [] ∧ missingChecklistIds ≠ [] then "section_patch_then_insert"
  else if missingChecklistIds ≠ [] then "section_insert"
  else if previousMode = "full_regeneration" then "full_regeneration"
  else "section_patch"

section Sanitize

variable (r : Recommendation) (checks : List Check) (document : Document)
  (checklist : List ChecklistItem)

/-- The first loop of `sanitize_retry_recommendation`: sections to patch must
exist, and only failed checks justify patching. -/
def cleanedFailedSections : List String :=
  Dedup.collect (fun v : Value => strip v.text)
    (fun sid => sid ≠ "" && (document.sectionIds = [] || sid ∈ document.sectionIds) &&
      extractFailedChecks checks ≠ []) [] r.failedSectionIds

/-- The document section a missing item would be written to. -/
def insertSectionId (itemId : String) : String :=
  match checklistItemById checklist itemId with
  | some item => strip (if item.sectionId.getD "" ≠ "" then item.sectionId.getD "" else itemId)
  | none => itemId

/-- The second loop: items to insert must not have passed and must not have a
section already. -/
def cleanedMissing : List String :=
  Dedup.collect
    (fun v : Value =>
      strip (if checklist ≠ [] then normalizeChecklistId v.text checklist else strip v.text))
    (fun itemId => itemId ≠ "" && mustCoverPassedForId checks itemId ≠ some true &&
      !(document.sectionIds ≠ [] && insertSectionId checklist itemId ∈ document.sectionIds))
    [] r.missingChecklistIds

/-- `str(recommendation.get("mode") or "none").strip() or "none"`. -/
def previousMode : String :=
  let m := strip (if getTruthy r.mode false then getText r.mode "" else "none")
  if m = "" then "none" else m

/-- The mode `sanitize_retry_recommendation` derives from the surviving targets. -/
def sanitizedMode : String :=
  if previousMode r = "full_regeneration" ∧ extractFailedChecks checks ≠ [] then
    "full_regeneration"
  else
    deriveModeFromTargets (cleanedFailedSections r checks document)
      (cleanedMissing r checks document checklist) (previousMode r)

/-- `sanitize_retry_recommendation`. -/
def sanitizeRetryRecommendation : Recommendation where
  mode := some (.str (sanitizedMode r checks document checklist))
  failedSectionIds := (cleanedFailedSections r checks document).map .str
  missingChecklistIds := (cleanedMissing r checks document checklist).map .str

end Sanitize

section

variable {r : Recommendation} {checks : List Check} {document : Document}
  {checklist : List ChecklistItem}

/-- **A recommended patch target survives** iff it is named, is a section of the
document (if that has any), and some check failed. -/
theorem mem_cleanedFailedSections {sid : String} :
    sid ∈ cleanedFailedSections r checks document ↔
      (sid ≠ "" ∧ (document.sectionIds = [] ∨ sid ∈ document.sectionIds) ∧
        extractFailedChecks checks ≠ []) ∧
      ∃ v ∈ r.failedSectionIds, strip v.text = sid := by
  unfold cleanedFailedSections
  rw [Dedup.mem_collect]
  simp [and_assoc]

/-- **A recommended insert target survives** iff it is named, did not pass, and
has no section in the document. -/
theorem mem_cleanedMissing {itemId : String} :
    itemId ∈ cleanedMissing r checks document checklist ↔
      (itemId ≠ "" ∧ mustCoverPassedForId checks itemId ≠ some true ∧
        insertSectionId checklist itemId ∉ document.sectionIds) ∧
      ∃ v ∈ r.missingChecklistIds, normalizeChecklistId v.text checklist = itemId := by
  unfold cleanedMissing
  rw [Dedup.mem_collect]
  have hnorm : ∀ v : Value,
      strip (if checklist ≠ [] then normalizeChecklistId v.text checklist else strip v.text) =
        normalizeChecklistId v.text checklist := by
    intro v
    by_cases h : checklist = []
    · simp [h]
    · simp [h]
  have hin : ∀ x, (document.sectionIds ≠ [] ∧ x ∈ document.sectionIds) ↔
      x ∈ document.sectionIds := fun x => and_iff_right_of_imp fun h => List.ne_nil_of_mem h
  simp only [hnorm, Bool.and_eq_true, decide_eq_true_eq, Bool.not_eq_true',
    Bool.and_eq_false_iff, decide_eq_false_iff_not, List.not_mem_nil, false_or, and_assoc]
  simp only [← not_and_or, hin]

/-- Without failed checks no patch target survives. -/
theorem cleanedFailedSections_of_none_failed (h : extractFailedChecks checks = []) :
    cleanedFailedSections r checks document = [] := by
  refine List.eq_nil_iff_forall_not_mem.2 fun sid hsid => ?_
  exact (mem_cleanedFailedSections.1 hsid).1.2.2 h

end

/-! ## Deliverability -/

/-- `requires_must_cover_retry`. -/
def requiresMustCoverRetry (failedChecks : List Check) (r : Option Recommendation) : Bool :=
  if hasFailedMustCover failedChecks then true
  else missingChecklistIdsFromRecommendation r ≠ []

/-- `is_qc_deliverable`. -/
def isQcDeliverable (overallStatus : OverallStatus) (failedChecks : List Check)
    (hallucinationRisk : String) (isRefusal : Bool) (r : Option Recommendation) : Bool :=
  if isRefusal then true
  else if requiresMustCoverRetry failedChecks r then false
  else
    match overallStatus with
    | .pass => true
    | .fail => false
    | .warn =>
      if hallucinationRisk = "high" then false
      else if failedChecks.any fun c => c.severityIs "critical" then false
      else true

/-- The status is a pass exactly when nothing failed and the risk is low. -/
theorem deriveOverallStatus_pass_iff {checks : List Check} {risk : String} {isRefusal : Bool} :
    deriveOverallStatus checks risk isRefusal = .pass ↔
      isRefusal = true ∨
        (risk ≠ "high" ∧ risk ≠ "medium" ∧ ∀ c ∈ checks, c.failed = false) := by
  unfold deriveOverallStatus
  cases isRefusal with
  | true => simp
  | false =>
    by_cases hhigh : risk = "high"
    · simp [hhigh]
    by_cases hmed : risk = "medium"
    · by_cases hcrit : (checks.any fun c => c.failed && c.severityIs "critical") = true <;>
        simp [hmed, hcrit]
    by_cases hall : ∀ c ∈ checks, c.failed = false
    · have hnone : ∀ p : Check → Bool, (checks.any fun c => c.failed && p c) = false := by
        intro p
        rw [List.any_eq_false]
        intro c hc
        simp [hall c hc]
      have hany : checks.any Check.failed = false := by simpa using hall
      simp only [hhigh, hmed, hnone, hany, Bool.false_eq_true, if_false, false_or, ne_eq,
        not_false_eq_true, true_and]
      exact iff_of_true trivial hall
    · have hany : checks.any Check.failed = true := by simpa using hall
      by_cases hcrit : (checks.any fun c => c.failed && c.severityIs "critical") = true <;>
        by_cases hmaj : (checks.any fun c => c.failed && c.severityIs "major") = true <;>
          simp [hhigh, hmed, hcrit, hmaj, hany, hall]

/-- The status is a failure exactly when the risk is high or a critical check
failed. -/
theorem deriveOverallStatus_fail_iff {checks : List Check} {risk : String} {isRefusal : Bool} :
    deriveOverallStatus checks risk isRefusal = .fail ↔
      isRefusal = false ∧
        (risk = "high" ∨ ∃ c ∈ checks, c.failed = true ∧ c.severityIs "critical" = true) := by
  unfold deriveOverallStatus
  cases isRefusal with
  | true => simp
  | false =>
    by_cases hhigh : risk = "high"
    · simp [hhigh]
    by_cases hcrit : (checks.any fun c => c.failed && c.severityIs "critical") = true
    · have hex : ∃ c ∈ checks, c.failed = true ∧ c.severityIs "critical" = true := by
        simpa using hcrit
      simp [hhigh, hcrit, hex]
    · have hex : ¬ ∃ c ∈ checks, c.failed = true ∧ c.severityIs "critical" = true := by
        simpa using hcrit
      rw [if_neg (by simp), if_neg hhigh, if_neg hcrit]
      have hrhs : ¬ (False ∨ ∃ c ∈ checks, c.failed = true ∧ c.severityIs "critical" = true) := by
        simpa using hex
      simp only [hhigh, hex, or_self, and_false, iff_false]
      split_ifs <;> simp

/-- **A result is withheld** exactly when it is no refusal and a must-cover item
failed or is still missing, the risk is high, or a critical check failed. -/
theorem isQcDeliverable_false_iff {checks : List Check} {risk : String} {isRefusal : Bool}
    {r : Option Recommendation} :
    isQcDeliverable (deriveOverallStatus checks risk isRefusal) (extractFailedChecks checks) risk
        isRefusal r = false ↔
      isRefusal = false ∧
        (hasFailedMustCover (extractFailedChecks checks) = true ∨
          missingChecklistIdsFromRecommendation r ≠ [] ∨ risk = "high" ∨
          ∃ c ∈ checks, c.failed = true ∧ c.severityIs "critical" = true) := by
  unfold isQcDeliverable
  cases isRefusal with
  | true => simp
  | false =>
    rw [if_neg Bool.false_ne_true]
    by_cases hmust : requiresMustCoverRetry (extractFailedChecks checks) r = true
    · have hor : hasFailedMustCover (extractFailedChecks checks) = true ∨
          missingChecklistIdsFromRecommendation r ≠ [] := by
        unfold requiresMustCoverRetry at hmust
        by_cases hfm : hasFailedMustCover (extractFailedChecks checks) = true
        · exact Or.inl hfm
        · rw [if_neg hfm] at hmust
          exact Or.inr (by simpa using hmust)
      rw [if_pos hmust]
      refine iff_of_true rfl ⟨rfl, ?_⟩
      rcases hor with h | h
      · exact Or.inl h
      · exact Or.inr (Or.inl h)
    · rw [if_neg hmust]
      unfold requiresMustCoverRetry at hmust
      by_cases hfm : hasFailedMustCover (extractFailedChecks checks) = true
      · exact absurd (if_pos hfm) hmust
      rw [if_neg hfm] at hmust
      have hmiss : missingChecklistIdsFromRecommendation r = [] := by simpa using hmust
      simp only [hfm, hmiss, ne_eq, not_true_eq_false, false_or, true_and, Bool.false_eq_true]
      rw [show (risk = "high" ∨ ∃ c ∈ checks, c.failed = true ∧ c.severityIs "critical" = true) ↔
          deriveOverallStatus checks risk false = .fail by
        rw [deriveOverallStatus_fail_iff]; simp]
      cases hstatus : deriveOverallStatus checks risk false with
      | pass => simp
      | fail => simp
      | warn =>
        have hnotfail : ¬ (risk = "high" ∨
            ∃ c ∈ checks, c.failed = true ∧ c.severityIs "critical" = true) := by
          intro h
          have := deriveOverallStatus_fail_iff.2 ⟨rfl, h⟩
          rw [hstatus] at this
          exact absurd this (by decide)
        obtain ⟨hrisk, hcrit⟩ := not_or.1 hnotfail
        have hany : (extractFailedChecks checks).any (fun c => c.severityIs "critical") =
          false := by
          rw [List.any_eq_false]
          intro c hc hsev
          obtain ⟨hmem, hf⟩ := mem_extractFailedChecks.1 hc
          exact hcrit ⟨c, hmem, hf, hsev⟩
        simp [hrisk, hany]

end StudyAgent.Scoring
