import StudyAgent.Base.Dedup
import StudyAgent.Model.ChecklistIds

/-!
# Merging a targeted verification into the prior result

After a section patch only the revised sections are verified again.  The checks
of the prior result that lie outside the re-verified scope are kept, the new
checks are appended, and of all checks with one key the last survives.

Main results:

* `mem_mergeTargetedQcChecks` — which checks the merged list contains.
* `mergeTargetedQcChecks_keepsFailures_iff` — **the merge loses no failing check
  exactly when the failing checks are the last of their keys** and the new pass has not cleared
  all of them.
-/

namespace StudyAgent.TargetedMerge

open Py Dedup

/-! ## The re-verified scope -/

/-- `_SECTION_SCOPED_CATEGORIES`. -/
def SECTION_SCOPED_CATEGORIES : List String :=
  ["content_accuracy", "code_quality", "stack_fidelity", "document_coherence"]

/-- `_reverify_section_ids`, as the list of the set's members. -/
def reverifySectionIdSet (reverifySectionIds : List String) : List String :=
  (reverifySectionIds.filter (· ≠ "")).map strip

/-- `_checklist_ids_for_sections`: the items whose section is in the set. -/
def checklistIdsForSections (checklist : List ChecklistItem) (sectionIds : List String) :
    List String :=
  (checklist.filter fun item =>
    strip item.id ≠ "" ∧ checklistSectionId item ∈ sectionIds).map fun item => strip item.id

/-- `_reverify_checklist_ids`. -/
def reverifyChecklistIdSet (reverifySectionIds reverifyChecklistIds : List String)
    (checklist : List ChecklistItem) : List String :=
  (reverifyChecklistIds.filter (· ≠ "")).map strip ++
    checklistIdsForSections checklist (reverifySectionIdSet reverifySectionIds)

/-- `_canonical_section_for_check`: a must_cover check's section by the plan. -/
def canonicalSectionForCheck (c : Check) (checklist : List ChecklistItem) : String :=
  if checklist = [] then ""
  else if c.categoryText ≠ "must_cover" then ""
  else
    match pyOr c.checklistId c.id with
    | some raw =>
      if raw.truthy then
        resolveChecklistSectionId checklist (normalizeChecklistId raw.text checklist)
      else ""
    | none => ""

/-- `check_targets_reverify`: a prior check in the re-verified scope is replaced. -/
def checkTargetsReverify (c : Check) (sectionIds checklistIds : List String)
    (checklist : List ChecklistItem) : Bool :=
  let sectionId := c.sectionText
  let checklistId := c.checklistText
  if c.categoryText = "must_cover" then
    if checklistId ≠ "" ∧ checklistId ∈ checklistIds then true
    else if sectionId ≠ "" ∧ sectionId ∈ sectionIds then true
    else
      let canonical := canonicalSectionForCheck c checklist
      canonical ≠ "" ∧ canonical ∈ sectionIds
  else if c.categoryText ∈ SECTION_SCOPED_CATEGORIES then
    if sectionId ≠ "" ∧ sectionId ∈ sectionIds then true
    else if c.categoryText = "document_coherence" ∧ sectionId = "" then sectionIds ≠ []
    else false
  else if c.categoryText = "teaching_alignment" then
    if sectionId ≠ "" then sectionId ∈ sectionIds else sectionIds ≠ []
  else false

/-! ## De-duplication and merge -/

/-- `_dedup_key`. -/
def dedupKey (c : Check) : List String :=
  if c.categoryText = "must_cover" then [c.categoryText, getTextOr c.checklistId]
  else [c.categoryText, getTextOr c.sectionId, getTextOr c.checklistId]

/-- `_dedup_checks`: the last check of each key survives. -/
def dedupChecks (checks : List Check) : List Check := keepLast dedupKey checks

/-- The prior checks outside the re-verified scope. -/
def keptChecks (prior : QcResult) (reverifySectionIds reverifyChecklistIds : List String)
    (checklist : List ChecklistItem) : List Check :=
  prior.checkList.filter fun c =>
    !checkTargetsReverify c (reverifySectionIdSet reverifySectionIds)
      (reverifyChecklistIdSet reverifySectionIds reverifyChecklistIds checklist) checklist

/-- The checks of a verification that may be missing. -/
def verificationChecks (v : Option Verification) : List Check :=
  match v with
  | some v => v.checks
  | none => []

/-- `merge_targeted_qc_checks`. -/
def mergeTargetedQcChecks (prior : QcResult) (newVerification : Option Verification)
    (reverifySectionIds reverifyChecklistIds : List String) (checklist : List ChecklistItem) :
    List Check :=
  dedupChecks (keptChecks prior reverifySectionIds reverifyChecklistIds checklist ++
    verificationChecks newVerification)

/-- `build_carried_forward_verification`: the reply that stands in for an LLM
pass when the prior checks are carried forward. -/
def buildCarriedForwardVerification (prior : QcResult) (carried : List Check) : Verification where
  checks := carried
  hallucinationRisk := some (.str (prior.hallucinationRisk.getD "none"))
  isRefusal := some (.bool (prior.isRefusal.getD false))
  issues := prior.issues
  correctiveInstructions := some (.str (strip (prior.correctiveInstructions.getD "")))
  summary := some (.str (strip (prior.summary.getD "")))
  retryRecommendation := prior.retryRecommendation

section

variable {prior : QcResult} {new : Option Verification}
  {reverifySectionIds reverifyChecklistIds : List String} {checklist : List ChecklistItem}

/-- **What the merged list contains**: the last new check of each key, and the
last kept check of each key the new pass did not emit. -/
theorem mem_mergeTargetedQcChecks {c : Check} :
    c ∈ mergeTargetedQcChecks prior new reverifySectionIds reverifyChecklistIds checklist ↔
      IsLast dedupKey (verificationChecks new) c ∨
        (IsLast dedupKey (keptChecks prior reverifySectionIds reverifyChecklistIds checklist) c ∧
          ¬ ∃ n ∈ verificationChecks new, dedupKey n = dedupKey c) := by
  unfold mergeTargetedQcChecks dedupChecks
  rw [keepLast_eq_lastWins, mem_lastWins_append]

end

/-! ## No failing check is lost -/

section

variable (prior : QcResult) (new : Option Verification)
  (reverifySectionIds reverifyChecklistIds : List String) (checklist : List ChecklistItem)

/-- The new pass emitted the check `c` again: one with its id, of its category and about the same
section and item. -/
def Reemitted (new : Option Verification) (c : Check) : Prop :=
  ∃ n ∈ verificationChecks new, n.id = c.id ∧ dedupKey n = dedupKey c

/-- Every failed new check and every failed kept check that is not re-emitted is
in the merged list, which has a failed check whenever the new pass or the kept part of the
prior one has one. -/
structure KeepsFailures : Prop where
  new_failed : ∀ c ∈ verificationChecks new, c.failed = true →
    c ∈ mergeTargetedQcChecks prior new reverifySectionIds reverifyChecklistIds checklist
  kept_failed : ∀ c ∈ keptChecks prior reverifySectionIds reverifyChecklistIds checklist,
    c.failed = true → ¬ Reemitted new c →
    c ∈ mergeTargetedQcChecks prior new reverifySectionIds reverifyChecklistIds checklist
  some_failed :
    ((∃ c ∈ verificationChecks new, c.failed = true) ∨
      ∃ c ∈ keptChecks prior reverifySectionIds reverifyChecklistIds checklist,
        c.failed = true) →
    ∃ c ∈ mergeTargetedQcChecks prior new reverifySectionIds reverifyChecklistIds checklist,
      c.failed = true

/-- The checks with one key agree on what failed: a failed new check is the last of its key; a
failed kept check that is not re-emitted is the last of its key among the kept ones, and no new
check has the key; and not all that failed are kept checks that the new pass has cleared. -/
structure FailuresLast : Prop where
  new_last : ∀ c ∈ verificationChecks new, c.failed = true →
    IsLast dedupKey (verificationChecks new) c
  kept_last : ∀ c ∈ keptChecks prior reverifySectionIds reverifyChecklistIds checklist,
    c.failed = true → ¬ Reemitted new c →
    IsLast dedupKey (keptChecks prior reverifySectionIds reverifyChecklistIds checklist) c ∧
      ∀ n ∈ verificationChecks new, dedupKey n ≠ dedupKey c
  not_cleared : ∀ c ∈ keptChecks prior reverifySectionIds reverifyChecklistIds checklist,
    c.failed = true → (∃ n ∈ verificationChecks new, n.failed = true) ∨
      ∃ c ∈ keptChecks prior reverifySectionIds reverifyChecklistIds checklist,
        c.failed = true ∧ ¬ Reemitted new c

variable {prior new reverifySectionIds reverifyChecklistIds checklist}

/-- A failed kept check of a merged list is not re-emitted, or the new pass has failed it too. -/
theorem failed_of_mem_merge {c : Check}
    (hc : c ∈ mergeTargetedQcChecks prior new reverifySectionIds reverifyChecklistIds checklist)
    (hfailed : c.failed = true) :
    (∃ n ∈ verificationChecks new, n.failed = true) ∨
      ∃ c ∈ keptChecks prior reverifySectionIds reverifyChecklistIds checklist,
        c.failed = true ∧ ¬ Reemitted new c := by
  rcases mem_mergeTargetedQcChecks.1 hc with hlast | ⟨hlast, hnone⟩
  · exact Or.inl ⟨c, hlast.mem, hfailed⟩
  · refine Or.inr ⟨c, hlast.mem, hfailed, ?_⟩
    rintro ⟨n, hn, -, hkey⟩
    exact hnone ⟨n, hn, hkey⟩

variable (prior new reverifySectionIds reverifyChecklistIds checklist)

/-- **The merge loses no failing check exactly when the failing checks are the last of their
keys** and the new pass has not cleared all of them. -/
theorem mergeTargetedQcChecks_keepsFailures_iff :
    KeepsFailures prior new reverifySectionIds reverifyChecklistIds checklist ↔
      FailuresLast prior new reverifySectionIds reverifyChecklistIds checklist := by
  constructor
  · intro h
    refine ⟨fun c hc hf => ?_, fun c hc hf hr => ?_, fun c hc hf => ?_⟩
    · rcases mem_mergeTargetedQcChecks.1 (h.new_failed c hc hf) with hlast | ⟨-, hne⟩
      · exact hlast
      · exact absurd ⟨c, hc, rfl⟩ hne
    · rcases mem_mergeTargetedQcChecks.1 (h.kept_failed c hc hf hr) with hlast | ⟨hlast, hne⟩
      · exact absurd ⟨c, hlast.mem, rfl, rfl⟩ hr
      · exact ⟨hlast, fun n hn hkey => hne ⟨n, hn, hkey⟩⟩
    · obtain ⟨d, hd, hdf⟩ := h.some_failed (Or.inr ⟨c, hc, hf⟩)
      exact failed_of_mem_merge hd hdf
  · rintro ⟨hnew, hkept, hcleared⟩
    have hn : ∀ c ∈ verificationChecks new, c.failed = true →
        c ∈ mergeTargetedQcChecks prior new reverifySectionIds reverifyChecklistIds checklist :=
      fun c hc hf => mem_mergeTargetedQcChecks.2 (Or.inl (hnew c hc hf))
    have hk : ∀ c ∈ keptChecks prior reverifySectionIds reverifyChecklistIds checklist,
        c.failed = true → ¬ Reemitted new c →
        c ∈ mergeTargetedQcChecks prior new reverifySectionIds reverifyChecklistIds checklist := by
      intro c hc hf hr
      obtain ⟨hlast, hnone⟩ := hkept c hc hf hr
      exact mem_mergeTargetedQcChecks.2
        (Or.inr ⟨hlast, fun ⟨n, hn, hkey⟩ => hnone n hn hkey⟩)
    have hsome : ((∃ n ∈ verificationChecks new, n.failed = true) ∨
        ∃ c ∈ keptChecks prior reverifySectionIds reverifyChecklistIds checklist,
          c.failed = true ∧ ¬ Reemitted new c) →
        ∃ c ∈ mergeTargetedQcChecks prior new reverifySectionIds reverifyChecklistIds checklist,
          c.failed = true := by
      rintro (⟨c, hc, hf⟩ | ⟨c, hc, hf, hr⟩)
      · exact ⟨c, hn c hc hf, hf⟩
      · exact ⟨c, hk c hc hf hr, hf⟩
    refine ⟨hn, hk, ?_⟩
    rintro (hfailed | ⟨c, hc, hf⟩)
    · exact hsome (Or.inl hfailed)
    · exact hsome (hcleared c hc hf)

end

/-- Two accuracy checks of one section, the first failed: the second evicts it. An earlier failed
check without a section is evicted by another new check without one; the merged list has no failed
check. -/
theorem mergeTargetedQcChecks_drops_failure :
    ¬ KeepsFailures
      { checks := some [{ id := some (.str "ca_7"), category := some (.str "content_accuracy"),
                          passed := some (.bool false) }] }
      (some { checks :=
        [{ id := some (.str "ca_1"), category := some (.str "content_accuracy"),
           passed := some (.bool false), sectionId := some (.str "ts_1") },
         { id := some (.str "ca_2"), category := some (.str "content_accuracy"),
           passed := some (.bool true), sectionId := some (.str "ts_1") },
         { id := some (.str "ca_3"), category := some (.str "content_accuracy"),
           passed := some (.bool true) }] })
      ["ts_1"] [] [] := by
  intro h
  have hmem := h.new_failed _ List.mem_cons_self rfl
  revert hmem
  decide

end StudyAgent.TargetedMerge
