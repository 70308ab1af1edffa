import StudyAgent.Base.Dedup
import StudyAgent.Qc.RetryRouting

/-!
# What a failed result asks for

The targets of the retry routing and its escalation to a full regeneration, read
off the failed checks, the document, the plan and the recommendation alone: no
statement below mentions a value the routing computes on the way.

Main results:

* `mem_targets_failed_iff`, `mem_targets_missing_iff` — the sections to patch and
  the items to insert.
* `targets_empty_iff` — when there is nothing to rework.
* `escalates_iff` — when a full regeneration is forced.
-/

namespace StudyAgent.RetryRouting

open Py Scoring

/-! ## What one failed check asks for -/

section

variable (document : Document) (checklist : List ChecklistItem) (c : Check)

/-- The checklist item a must_cover check is about. -/
def mustCoverItem : String :=
  normalizeChecklistId (getText (pyOr c.checklistId (some (.str c.idText))) "") checklist

/-- A check about the document as a whole, which has no section of its own. -/
def DocumentLevel : Prop :=
  c.categoryText = "teaching_alignment" ∨
    (c.categoryText = "structure" ∧ c.idText = "det_structure_coverage")

instance : Decidable (DocumentLevel c) := inferInstanceAs (Decidable (_ ∨ _))

/-- The check is about a section of the document. -/
def AsksPatch (sid : String) : Prop :=
  sid ∈ documentSectionIds document ∧ sid ≠ "" ∧
    ((c.categoryText = "must_cover" ∧ mustCoverItem checklist c ≠ "" ∧
        resolveChecklistSectionId checklist (mustCoverItem checklist c) = sid) ∨
      (c.categoryText ≠ "must_cover" ∧ ¬ DocumentLevel c ∧ strip (getText c.sectionId "") = sid))

/-- The check is about an item that has no section in the document. -/
def AsksInsert (itemId : String) : Prop :=
  c.categoryText = "must_cover" ∧ itemId ≠ "" ∧ itemId = mustCoverItem checklist c ∧
    resolveChecklistSectionId checklist itemId ∉ documentSectionIds document

/-- The check names neither a section of the document nor an item. -/
def NamesNothing : Prop :=
  (c.categoryText = "must_cover" ∧ mustCoverItem checklist c = "") ∨
    (c.categoryText ≠ "must_cover" ∧
      (DocumentLevel c ∨ strip (getText c.sectionId "") = "" ∨
        strip (getText c.sectionId "") ∉ documentSectionIds document))

instance : Decidable (NamesNothing document checklist c) :=
  inferInstanceAs (Decidable (_ ∨ _))

end

section

variable {document : Document} {checklist : List ChecklistItem} {c : Check}

theorem not_documentLevel_of_mustCover (h : c.categoryText = "must_cover") :
    ¬ DocumentLevel c := by
  rintro (h' | ⟨h', -⟩) <;> rw [h] at h' <;> exact absurd h' (by decide)

/-- The loop round of a check that is not a must_cover check. -/
theorem failureTarget_of_not_mustCover (h : c.categoryText ≠ "must_cover") :
    failureTarget document checklist c =
      if DocumentLevel c then .skipped
      else if strip (getText c.sectionId "") ≠ "" ∧
          strip (getText c.sectionId "") ∈ documentSectionIds document then
        .patch (strip (getText c.sectionId ""))
      else .unmapped := by
  unfold failureTarget
  rw [if_neg h]
  by_cases hta : c.categoryText = "teaching_alignment"
  · have hdoc : DocumentLevel c := Or.inl hta
    rw [if_pos hta, if_pos hdoc]
  · rw [if_neg hta]
    by_cases hst : c.categoryText = "structure" ∧ c.idText = "det_structure_coverage"
    · have hdoc : DocumentLevel c := Or.inr hst
      rw [if_pos hst, if_pos hdoc]
    · have hdoc : ¬ DocumentLevel c := not_or.2 ⟨hta, hst⟩
      rw [if_neg hst, if_neg hdoc]

/-- The loop round of a must_cover check. -/
theorem failureTarget_of_mustCover (h : c.categoryText = "must_cover") :
    failureTarget document checklist c =
      if mustCoverItem checklist c = "" then .unmapped
      else if resolveChecklistSectionId checklist (mustCoverItem checklist c) ∈
          documentSectionIds document then
        .patch (resolveChecklistSectionId checklist (mustCoverItem checklist c))
      else .insert (mustCoverItem checklist c) := by
  unfold failureTarget mustCoverItem
  rw [if_pos h]

theorem failureTarget_patch_iff {sid : String} :
    failureTarget document checklist c = .patch sid ↔ AsksPatch document checklist c sid := by
  constructor
  · intro h
    obtain ⟨hin, hne⟩ := failureTarget_patch h
    refine ⟨hin, hne, ?_⟩
    by_cases hmc : c.categoryText = "must_cover"
    · rw [failureTarget_of_mustCover hmc] at h
      split_ifs at h with hitem hsec
      exact Or.inl ⟨hmc, hitem, FailureTarget.patch.inj h⟩
    · rw [failureTarget_of_not_mustCover hmc] at h
      split_ifs at h with hdoc hsec
      exact Or.inr ⟨hmc, hdoc, FailureTarget.patch.inj h⟩
  · rintro ⟨hin, hne, ⟨hmc, hitem, rfl⟩ | ⟨hmc, hdoc, rfl⟩⟩
    · rw [failureTarget_of_mustCover hmc, if_neg hitem, if_pos hin]
    · rw [failureTarget_of_not_mustCover hmc, if_neg hdoc, if_pos ⟨hne, hin⟩]

theorem failureTarget_unmapped_iff :
    failureTarget document checklist c = .unmapped ↔
      NamesNothing document checklist c ∧ ¬ DocumentLevel c := by
  unfold NamesNothing
  by_cases hmc : c.categoryText = "must_cover"
  · have hdoc := not_documentLevel_of_mustCover hmc
    rw [failureTarget_of_mustCover hmc]
    split_ifs with hitem hsec <;> simp [hmc, hitem, hdoc]
  · rw [failureTarget_of_not_mustCover hmc]
    split_ifs with hdoc hsec
    · simp [hdoc]
    · simp [hmc, hdoc, hsec]
    · have hsec' := not_and_or.1 hsec
      rw [not_not] at hsec'
      exact iff_of_true rfl ⟨Or.inr ⟨hmc, Or.inr hsec'⟩, hdoc⟩

theorem namesNothing_of_documentLevel (h : DocumentLevel c) :
    NamesNothing document checklist c := by
  refine Or.inr ⟨fun hmc => ?_, Or.inl h⟩
  exact not_documentLevel_of_mustCover hmc h

/-- **A check that names nothing gives no target, every other check gives one.** -/
theorem namesNothing_iff :
    NamesNothing document checklist c ↔
      (∀ sid, ¬ AsksPatch document checklist c sid) ∧
        ∀ itemId, ¬ AsksInsert document checklist c itemId := by
  have hinsert : ∀ itemId, AsksInsert document checklist c itemId ↔
      failureTarget document checklist c = .insert itemId :=
    fun _ => failureTarget_insert_iff.symm
  simp only [hinsert, ← failureTarget_patch_iff]
  cases htarget : failureTarget document checklist c with
  | unmapped => simp [(failureTarget_unmapped_iff.1 htarget).1]
  | skipped =>
    have hmc : c.categoryText ≠ "must_cover" := by
      intro hmc
      rw [failureTarget_of_mustCover hmc] at htarget
      split_ifs at htarget
    rw [failureTarget_of_not_mustCover hmc] at htarget
    split_ifs at htarget with hdoc
    simp [namesNothing_of_documentLevel hdoc]
  | patch sid =>
    have hnot : ¬ NamesNothing document checklist c := by
      intro hnothing
      obtain ⟨hin, hne, hask⟩ := failureTarget_patch_iff.1 htarget
      rcases hask with ⟨hmc, hitem, rfl⟩ | ⟨hmc, hdoc, rfl⟩
      · rcases hnothing with ⟨-, h⟩ | ⟨h, -⟩
        · exact hitem h
        · exact h hmc
      · rcases hnothing with ⟨h, -⟩ | ⟨-, h | h | h⟩
        · exact hmc h
        · exact hdoc h
        · exact hne h
        · exact h hin
    simp [hnot]
  | insert itemId =>
    have hnot : ¬ NamesNothing document checklist c := by
      intro hnothing
      obtain ⟨hmc, hne, hitem, -⟩ := failureTarget_insert_iff.1 htarget
      rcases hnothing with ⟨-, h⟩ | ⟨h, -⟩
      · exact hne (hitem.trans h)
      · exact h hmc
    simp [hnot]

end

/-! ## What the result asks for -/

section

variable (qcResult : QcResult) (document : Document) (checklist : List ChecklistItem)
  (topicSplit : List TopicSplitEntry) (structureMissingIds : Option (List String))

/-- The structure check failed, and the item is the insert target of a section
that is missing: its own checklist item, or else its topic-split entry. -/
def StructureNames (itemId : String) : Prop :=
  structureCoverageFailed (failedChecks qcResult) = true ∧
    ∃ sid ∈ structureMissingIds.getD (missingSectionIds document checklist topicSplit),
      (∃ item ∈ checklist,
        checklistSectionId item = sid ∧ strip item.id ≠ "" ∧ strip item.id = itemId) ∨
      ((∀ item ∈ checklist, checklistSectionId item = sid → strip item.id = "") ∧
        (∃ e ∈ topicSplit, strip e.id = sid) ∧ itemId = sid)

/-- The failed checks lead to no section and no item. -/
def NamesNoTarget : Prop :=
  (∀ c ∈ failedChecks qcResult, NamesNothing document checklist c) ∧
    ∀ itemId, ¬ StructureNames qcResult document checklist topicSplit structureMissingIds itemId

/-- A check failed, and the recommendation names the section, which is there. -/
def RecommendsPatch (sid : String) : Prop :=
  sid ∈ documentSectionIds document ∧ sid ≠ "" ∧ extractFailedChecks (routedChecks qcResult) ≠ [] ∧
    ∃ r, qcResult.retryRecommendation = some r ∧ ∃ v ∈ r.failedSectionIds, strip v.text = sid

/-- The recommendation names the item, which has not passed and has no section. -/
def RecommendsInsert (itemId : String) : Prop :=
  itemId ≠ "" ∧ mustCoverPassedForId (routedChecks qcResult) itemId ≠ some true ∧
    insertSectionId checklist itemId ∉ document.sectionIds ∧
    ∃ r, qcResult.retryRecommendation = some r ∧
      ∃ v ∈ r.missingChecklistIds, normalizeChecklistId v.text checklist = itemId

/-- The recommendation names nothing that survives its cleaning. -/
def RecommendsNothing : Prop :=
  (∀ sid, ¬ RecommendsPatch qcResult document sid) ∧
    ∀ itemId, ¬ RecommendsInsert qcResult document checklist itemId

/-- The recommendation asks for a full regeneration, and a check failed. -/
def AsksFullRegeneration : Prop :=
  ∃ r, qcResult.retryRecommendation = some r ∧ previousMode r = "full_regeneration" ∧
    extractFailedChecks (routedChecks qcResult) ≠ []

/-- A section to patch. -/
def PatchTarget (sid : String) : Prop :=
  (∃ c ∈ failedChecks qcResult, AsksPatch document checklist c sid) ∨
    (NamesNoTarget qcResult document checklist topicSplit structureMissingIds ∧
      RecommendsPatch qcResult document sid)

/-- An item to insert. -/
def InsertTarget (itemId : String) : Prop :=
  (∃ c ∈ failedChecks qcResult, AsksInsert document checklist c itemId) ∨
    StructureNames qcResult document checklist topicSplit structureMissingIds itemId ∨
    (NamesNoTarget qcResult document checklist topicSplit structureMissingIds ∧
      RecommendsInsert qcResult document checklist itemId)

/-- How many failed checks, the document-level ones apart, name nothing. -/
def unnamedCount : ℕ :=
  (failedChecks qcResult).countP fun c => NamesNothing document checklist c ∧ ¬ DocumentLevel c

/-- **What forces a full regeneration.**  Not for placement failures alone: a
critical teaching_alignment failure, or any with two unnamed failures beside it;
widespread gaps in the structure; two in five of the required items affected;
four sections to patch; or three unnamed failures. -/
def Escalation : Prop :=
  isPlacementOnlyFailure (failedChecks qcResult) = false ∧
    ((∃ c ∈ failedChecks qcResult, c.categoryText = "teaching_alignment" ∧ c.failed = true ∧
        lower (getText c.severity "") = "critical") ∨
      ((∃ c ∈ failedChecks qcResult, c.categoryText = "teaching_alignment" ∧ c.failed = true) ∧
        2 ≤ unnamedCount qcResult document checklist) ∨
      (structureCoverageFailed (failedChecks qcResult) = true ∧
        structureCoverageWidespread
          (structureMissingIds.getD (missingSectionIds document checklist topicSplit)) checklist
          topicSplit = true) ∨
      (isStructureOnlyFailure (failedChecks qcResult) = false ∧
        ∃ ids : List String, ids ≠ [] ∧ ids.Nodup ∧
          2 * (requiredChecklistIds checklist).length ≤ 5 * ids.length ∧
          ∀ itemId ∈ ids, itemId ∈ requiredChecklistIds checklist ∧
            (InsertTarget qcResult document checklist topicSplit structureMissingIds itemId ∨
              itemId ∈ failedMustCoverChecklistIds (failedChecks qcResult) checklist)) ∨
      (∃ sids : List String, sids.Nodup ∧ sids.length = 4 ∧
        ∀ sid ∈ sids, PatchTarget qcResult document checklist topicSplit structureMissingIds sid) ∨
      3 ≤ unnamedCount qcResult document checklist)

end

section

variable {qcResult : QcResult} {document : Document} {checklist : List ChecklistItem}
  {topicSplit : List TopicSplitEntry} {structureMissingIds : Option (List String)}

theorem mem_checklistIdsForMissingSections {sid itemId : String} :
    itemId ∈ checklistIdsForMissingSections [sid] checklist ↔
      ∃ item ∈ checklist,
        checklistSectionId item = sid ∧ strip item.id ≠ "" ∧ strip item.id = itemId := by
  simp only [checklistIdsForMissingSections, List.mem_map, List.mem_filter, List.mem_singleton,
    Bool.and_eq_true, decide_eq_true_eq]
  constructor
  · rintro ⟨item, ⟨hitem, hsec, hne⟩, rfl⟩
    exact ⟨item, hitem, hsec, hne, rfl⟩
  · rintro ⟨item, hitem, hsec, hne, rfl⟩
    exact ⟨item, ⟨hitem, hsec, hne⟩, rfl⟩

theorem mem_enrichMissing {missing : List String} {itemId : String} :
    itemId ∈ enrichMissing missing checklist topicSplit ↔
      ∃ sid ∈ missing,
        (∃ item ∈ checklist,
          checklistSectionId item = sid ∧ strip item.id ≠ "" ∧ strip item.id = itemId) ∨
        ((∀ item ∈ checklist, checklistSectionId item = sid → strip item.id = "") ∧
          (∃ e ∈ topicSplit, strip e.id = sid) ∧ itemId = sid) := by
  unfold enrichMissing
  rw [List.mem_flatMap]
  refine exists_congr fun sid => and_congr_right fun _ => ?_
  have hnil : checklistIdsForMissingSections [sid] checklist = [] ↔
      ∀ item ∈ checklist, checklistSectionId item = sid → strip item.id = "" := by
    rw [List.eq_nil_iff_forall_not_mem]
    simp only [mem_checklistIdsForMissingSections]
    constructor
    · intro h item hitem hsec
      by_contra hne
      exact h _ ⟨item, hitem, hsec, hne, rfl⟩
    · rintro h x ⟨item, hitem, hsec, hne, -⟩
      exact hne (h item hitem hsec)
  dsimp only
  by_cases hmapped : checklistIdsForMissingSections [sid] checklist = []
  · rw [if_neg (not_not.2 hmapped), ← mem_checklistIdsForMissingSections, ← hnil, hmapped]
    have htopic : (decide (topicSplit ≠ []) && topicSplit.any fun e => strip e.id = sid) = true ↔
        ∃ e ∈ topicSplit, strip e.id = sid := by
      simp only [Bool.and_eq_true, decide_eq_true_eq, List.any_eq_true]
      refine and_iff_right_of_imp ?_
      rintro ⟨e, he, -⟩
      exact List.ne_nil_of_mem he
    split
    next h => simp [htopic.1 h]
    next h => simp [mt htopic.2 h]
  · rw [if_pos hmapped, mem_checklistIdsForMissingSections]
    exact (or_iff_left fun h => hmapped (hnil.2 h.1)).symm

theorem structureNames_iff {itemId : String} :
    StructureNames qcResult document checklist topicSplit structureMissingIds itemId ↔
      ∃ missing, structureMissing (failedChecks qcResult) document checklist topicSplit
          structureMissingIds = some missing ∧
        itemId ∈ enrichMissing missing checklist topicSplit := by
  unfold StructureNames structureMissing
  by_cases h : structureCoverageFailed (failedChecks qcResult) = true
  · rw [if_pos h]
    simp only [h, true_and, Option.some.injEq, exists_eq_left', mem_enrichMissing, List.mem_dedup]
  · rw [if_neg h]
    simp [h]

theorem noMapped_iff :
    NoMapped qcResult document checklist topicSplit structureMissingIds ↔
      NamesNoTarget qcResult document checklist topicSplit structureMissingIds := by
  unfold NoMapped NamesNoTarget
  simp only [List.eq_nil_iff_forall_not_mem, mem_mapped_failed, mem_mapped_missing,
    namesNothing_iff, structureNames_iff, failureTarget_patch_iff]
  have hinsert : ∀ c itemId, failureTarget document checklist c = .insert itemId ↔
      AsksInsert document checklist c itemId := fun _ _ => failureTarget_insert_iff
  simp only [hinsert, not_or, not_exists, not_and]
  constructor
  · rintro ⟨hpatch, hinsert⟩
    refine ⟨fun c hc => ⟨fun sid => hpatch sid c hc, fun itemId => (hinsert itemId).1 c hc⟩, ?_⟩
    exact fun itemId missing hmissing => (hinsert itemId).2 missing hmissing
  · rintro ⟨hchecks, hstructure⟩
    refine ⟨fun sid c hc => (hchecks c hc).1 sid, fun itemId => ⟨?_, ?_⟩⟩
    · exact fun c hc => (hchecks c hc).2 itemId
    · exact hstructure itemId

theorem mem_documentSectionIds_sectionIds {sid : String} (h : sid ∈ documentSectionIds document)
    (hne : sid ≠ "") : sid ∈ document.sectionIds := by
  obtain ⟨s, hs, hgiven⟩ := List.mem_filterMap.1 h
  exact mem_sectionIds.2 ⟨hne, s, hs, Section.idText_of_givenId hgiven⟩

/-- **The sections to patch**, from the inputs. -/
theorem mem_targets_failed_iff {sid : String} :
    sid ∈ (allTargets qcResult document checklist topicSplit
        structureMissingIds).failedSectionIds ↔
      PatchTarget qcResult document checklist topicSplit structureMissingIds sid := by
  rw [mem_targets_failed, mem_mapped_failed, noMapped_iff]
  unfold PatchTarget RecommendsPatch
  simp only [failureTarget_patch_iff, mem_cleanedFailedSections]
  refine or_congr_right (and_congr_right fun _ => ?_)
  constructor
  · rintro ⟨r, hr, ⟨⟨hne, -, hfailed⟩, hv⟩, hdoc⟩
    exact ⟨hdoc, hne, hfailed, r, hr, hv⟩
  · rintro ⟨hdoc, hne, hfailed, r, hr, hv⟩
    exact ⟨r, hr, ⟨⟨hne, Or.inr (mem_documentSectionIds_sectionIds hdoc hne), hfailed⟩, hv⟩, hdoc⟩

/-- **The items to insert**, from the inputs. -/
theorem mem_targets_missing_iff {itemId : String} :
    itemId ∈ (allTargets qcResult document checklist topicSplit
        structureMissingIds).missingChecklistIds ↔
      InsertTarget qcResult document checklist topicSplit structureMissingIds itemId := by
  rw [mem_targets_missing, mem_mapped_missing, noMapped_iff, ← structureNames_iff, or_assoc]
  unfold InsertTarget RecommendsInsert
  have hinsert : ∀ c, failureTarget document checklist c = .insert itemId ↔
      AsksInsert document checklist c itemId := fun _ => failureTarget_insert_iff
  simp only [hinsert, mem_cleanedMissing]
  refine or_congr_right (or_congr_right (and_congr_right fun _ => ?_))
  constructor
  · rintro ⟨r, hr, ⟨hne, hpassed, hsec⟩, hv⟩
    exact ⟨hne, hpassed, hsec, r, hr, hv⟩
  · rintro ⟨hne, hpassed, hsec, r, hr, hv⟩
    exact ⟨r, hr, ⟨hne, hpassed, hsec⟩, hv⟩

/-- **There is nothing to rework** exactly when neither the failed checks nor the
recommendation name anything. -/
theorem targets_empty_iff :
    ((allTargets qcResult document checklist topicSplit structureMissingIds).failedSectionIds = [] ∧
      (allTargets qcResult document checklist topicSplit
        structureMissingIds).missingChecklistIds = []) ↔
      NamesNoTarget qcResult document checklist topicSplit structureMissingIds ∧
        RecommendsNothing qcResult document checklist := by
  simp only [List.eq_nil_iff_forall_not_mem, mem_targets_failed_iff, mem_targets_missing_iff]
  unfold RecommendsNothing PatchTarget InsertTarget
  constructor
  · rintro ⟨hpatch, hinsert⟩
    have hnames : NamesNoTarget qcResult document checklist topicSplit structureMissingIds := by
      refine ⟨fun c hc => namesNothing_iff.2 ⟨fun sid hask => ?_, fun itemId hask => ?_⟩, ?_⟩
      · exact hpatch sid (Or.inl ⟨c, hc, hask⟩)
      · exact hinsert itemId (Or.inl ⟨c, hc, hask⟩)
      · exact fun itemId hs => hinsert itemId (Or.inr (Or.inl hs))
    refine ⟨hnames, fun sid hrec => ?_, fun itemId hrec => ?_⟩
    · exact hpatch sid (Or.inr ⟨hnames, hrec⟩)
    · exact hinsert itemId (Or.inr (Or.inr ⟨hnames, hrec⟩))
  · rintro ⟨hnames, hpatch, hinsert⟩
    constructor
    · rintro sid (⟨c, hc, hask⟩ | ⟨-, hrec⟩)
      · exact (namesNothing_iff.1 (hnames.1 c hc)).1 sid hask
      · exact hpatch sid hrec
    · rintro itemId (⟨c, hc, hask⟩ | hs | ⟨-, hrec⟩)
      · exact (namesNothing_iff.1 (hnames.1 c hc)).2 itemId hask
      · exact hnames.2 itemId hs
      · exact hinsert itemId hrec

/-! ## Escalation -/

theorem foldl_add_unmappedCount (failed : List Check) (t : Targets) :
    (failed.foldl (Targets.add document checklist) t).unmappedCount =
      t.unmappedCount +
        failed.countP fun c => NamesNothing document checklist c ∧ ¬ DocumentLevel c := by
  induction failed generalizing t with
  | nil => rfl
  | cons c l ih =>
    rw [List.foldl_cons, ih, List.countP_cons]
    simp only [← failureTarget_unmapped_iff, decide_eq_true_eq]
    unfold Targets.add
    cases failureTarget document checklist c with
    | unmapped =>
      show t.unmappedCount + 1 + _ = t.unmappedCount + (_ + 1)
      omega
    | patch sid => rfl
    | insert itemId => rfl
    | skipped => rfl

theorem allTargets_unmappedCount :
    (allTargets qcResult document checklist topicSplit structureMissingIds).unmappedCount =
      unnamedCount qcResult document checklist := by
  have hmerge : ∀ r failed t, (mergeLlmRecommendationTargets r document checklist failed
      t).unmappedCount = t.unmappedCount := by
    intro r failed t
    unfold mergeLlmRecommendationTargets
    split
    · rfl
    · cases r <;> rfl
  rw [allTargets_eq, hmerge]
  unfold mappedTargets mapFailuresToTargets unnamedCount
  dsimp only
  split <;> exact (foldl_add_unmappedCount _ _).trans (Nat.zero_add _)

theorem affected_iff {failed : List Check} {missing : List String} :
    (requiredChecklistIds checklist ≠ [] ∧
        2 * (requiredChecklistIds checklist).length ≤
          5 * (affectedRequiredChecklistIds checklist failed missing).length) ↔
      ∃ ids : List String, ids ≠ [] ∧ ids.Nodup ∧
        2 * (requiredChecklistIds checklist).length ≤ 5 * ids.length ∧
        ∀ itemId ∈ ids, itemId ∈ requiredChecklistIds checklist ∧
          (itemId ∈ missing ∨ itemId ∈ failedMustCoverChecklistIds failed checklist) := by
  have hmem : ∀ itemId, itemId ∈ affectedRequiredChecklistIds checklist failed missing ↔
      itemId ∈ requiredChecklistIds checklist ∧
        (itemId ∈ missing ∨ itemId ∈ failedMustCoverChecklistIds failed checklist) := by
    simp [affectedRequiredChecklistIds]
  have hnodup : (affectedRequiredChecklistIds checklist failed missing).Nodup :=
    (List.nodup_dedup _).filter _
  constructor
  · rintro ⟨hne, hle⟩
    have hpos : 0 < (requiredChecklistIds checklist).length := List.length_pos_iff.2 hne
    refine ⟨affectedRequiredChecklistIds checklist failed missing, fun hnil => ?_, hnodup, hle,
      fun itemId h => (hmem itemId).1 h⟩
    rw [hnil, List.length_nil] at hle
    omega
  · rintro ⟨ids, hne, hids, hle, hall⟩
    have hsub : ids ⊆ affectedRequiredChecklistIds checklist failed missing :=
      fun itemId h => (hmem itemId).2 (hall itemId h)
    have hlen := (hids.subperm hsub).length_le
    obtain ⟨x, hx⟩ := List.exists_mem_of_ne_nil ids hne
    exact ⟨List.ne_nil_of_mem (hall x hx).1, by omega⟩

theorem structureCoverageWidespread_dedup (missing : List String) :
    structureCoverageWidespread missing.dedup checklist topicSplit =
      structureCoverageWidespread missing checklist topicSplit := by
  unfold structureCoverageWidespread
  rw [List.dedup_idem]

/-- **A full regeneration is forced exactly by an escalation.** -/
theorem escalates_iff :
    escalates qcResult document checklist topicSplit structureMissingIds = true ↔
      Escalation qcResult document checklist topicSplit structureMissingIds := by
  unfold escalates Escalation
  dsimp only
  have haffected := @affected_iff checklist (failedChecks qcResult)
    (allTargets qcResult document checklist topicSplit structureMissingIds).missingChecklistIds
  simp only [mem_targets_missing_iff] at haffected
  have hpatch := @Dedup.le_length_dedup_iff _ _
    (allTargets qcResult document checklist topicSplit structureMissingIds).failedSectionIds 4
  simp only [mem_targets_failed_iff] at hpatch
  have hwide : ((structureMissing (failedChecks qcResult) document checklist topicSplit
      structureMissingIds).any fun missing =>
        structureCoverageWidespread missing checklist topicSplit) = true ↔
      structureCoverageFailed (failedChecks qcResult) = true ∧
        structureCoverageWidespread
          (structureMissingIds.getD (missingSectionIds document checklist topicSplit)) checklist
          topicSplit = true := by
    unfold structureMissing
    by_cases h : structureCoverageFailed (failedChecks qcResult) = true
    · simp [h, structureCoverageWidespread_dedup]
    · simp [h]
  unfold shouldForceFullRegeneration
  rw [allTargets_unmappedCount]
  by_cases hplace : isPlacementOnlyFailure (failedChecks qcResult) = true
  · simp [hplace]
  rw [if_neg hplace]
  have hcritical : teachingAlignmentCriticalFail (failedChecks qcResult) = true ↔
      ∃ c ∈ failedChecks qcResult, c.categoryText = "teaching_alignment" ∧ c.failed = true ∧
        lower (getText c.severity "") = "critical" := by
    simp [teachingAlignmentCriticalFail, and_assoc]
  have hfailed : (teachingAlignmentFailed (failedChecks qcResult) &&
      decide (2 ≤ unnamedCount qcResult document checklist)) = true ↔
      (∃ c ∈ failedChecks qcResult, c.categoryText = "teaching_alignment" ∧ c.failed = true) ∧
        2 ≤ unnamedCount qcResult document checklist := by
    simp [teachingAlignmentFailed]
  have hrequired : (decide (requiredChecklistIds checklist ≠ []) &&
      !isStructureOnlyFailure (failedChecks qcResult) &&
      decide (2 * (requiredChecklistIds checklist).length ≤
        5 * (affectedRequiredChecklistIds checklist (failedChecks qcResult)
          (allTargets qcResult document checklist topicSplit
            structureMissingIds).missingChecklistIds).length)) = true ↔
      isStructureOnlyFailure (failedChecks qcResult) = false ∧
        (requiredChecklistIds checklist ≠ [] ∧
          2 * (requiredChecklistIds checklist).length ≤
            5 * (affectedRequiredChecklistIds checklist (failedChecks qcResult)
              (allTargets qcResult document checklist topicSplit
                structureMissingIds).missingChecklistIds).length) := by
    simp only [Bool.and_eq_true, decide_eq_true_eq, Bool.not_eq_true']
    rw [and_assoc, and_left_comm]
  rw [and_iff_right (Bool.eq_false_iff.2 hplace)]
  simp only [Bool.if_true_left, Bool.or_eq_true, decide_eq_true_eq]
  rw [hcritical, hfailed, hwide, hrequired, haffected, hpatch]

end

end StudyAgent.RetryRouting
