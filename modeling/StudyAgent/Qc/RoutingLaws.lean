import StudyAgent.Generation.InsertPhase
import StudyAgent.Qc.ResultBuilder
import StudyAgent.Qc.RoutingTargets

/-!
# Laws of the retry routing

What the generator relies on when a result comes back: the mode and the targets
belong together, every item to insert can be built, and a result that is withheld
says what to do.  Each law is stated for every result and settled by the exact
condition on the result under which routing keeps it.

Main results:

* `routingConsistent_iff` — mode and targets agree.
* `insertTargetsBuildable_iff` — the generator can build what it is told to insert.
* `withheldActionable_iff` — a withheld result has a mode other than `none`.
-/

namespace StudyAgent.RetryRouting

open Py Scoring InsertPhase

section

variable {qcResult : QcResult} {document : Document} {checklist : List ChecklistItem}
  {topicSplit : List TopicSplitEntry} {structureMissingIds : Option (List String)}

/-! ## The mode from the inputs -/

theorem llmRecommendationMode_full_iff :
    llmRecommendationMode qcResult document checklist = some .fullRegeneration ↔
      AsksFullRegeneration qcResult := by
  have hcoerce : ∀ m : String, coerceLlmRecommendationMode (some (.str m)) =
      some .fullRegeneration ↔ strip m = "full_regeneration" := by
    intro m
    unfold coerceLlmRecommendationMode
    rw [getTextOr_str]
    by_cases h : strip m = "full_regeneration"
    · simp [h]
    · simp only [h, iff_false, if_false]
      split_ifs <;> simp
  have hmode : ∀ r, strip (sanitizedMode r (routedChecks qcResult) document checklist) =
      "full_regeneration" ↔ previousMode r = "full_regeneration" ∧
        extractFailedChecks (routedChecks qcResult) ≠ [] := by
    intro r
    unfold sanitizedMode
    by_cases hfull : previousMode r = "full_regeneration" ∧
        extractFailedChecks (routedChecks qcResult) ≠ []
    · rw [if_pos hfull]
      exact iff_of_true (by decide) hfull
    · rw [if_neg hfull]
      refine iff_of_false ?_ hfull
      unfold deriveModeFromTargets
      split_ifs with hnone hboth hmiss hprev
      · decide
      · decide
      · decide
      · -- patch targets survive only when a check failed
        have hpatch : cleanedFailedSections r (routedChecks qcResult) document = [] := by
          refine cleanedFailedSections_of_none_failed ?_
          by_contra hfailed
          exact hfull ⟨hprev, hfailed⟩
        exact absurd ⟨hpatch, not_not.1 hmiss⟩ hnone
      · decide
  unfold llmRecommendationMode routedRecommendation AsksFullRegeneration
  cases hrec : qcResult.retryRecommendation with
  | none => simp
  | some r =>
    simp only [Option.map_some, Option.bind_some, sanitizeRetryRecommendation, hcoerce,
      Option.some.injEq, exists_eq_left']
    exact hmode r

theorem teachingAlignmentSoleFailure_iff {failed : List Check} :
    teachingAlignmentSoleFailure failed = true ↔
      failed ≠ [] ∧ ∀ c ∈ failed, c.categoryText = "teaching_alignment" := by
  unfold teachingAlignmentSoleFailure
  by_cases h : failed = []
  · simp [h]
  · simp [h]

/-- With no target to rework, the failures still ask to regenerate everything. -/
def AsksToRestart (qcResult : QcResult) : Prop :=
  (∀ c ∈ failedChecks qcResult, c.categoryText = "teaching_alignment") ∨
    AsksFullRegeneration qcResult

/-- The ids of the result are empty exactly when the targets are. -/
theorem classifyRetryRouting_nil_iff :
    ((classifyRetryRouting qcResult document checklist topicSplit
        structureMissingIds).failedSectionIds = [] ↔
      (allTargets qcResult document checklist topicSplit
        structureMissingIds).failedSectionIds = []) ∧
    ((classifyRetryRouting qcResult document checklist topicSplit
        structureMissingIds).missingChecklistIds = [] ↔
      (allTargets qcResult document checklist topicSplit
        structureMissingIds).missingChecklistIds = []) := by
  obtain ⟨hfailed, hmissing⟩ := @classifyRetryRouting_ids document checklist qcResult topicSplit
    structureMissingIds
  simp only [List.eq_nil_iff_forall_not_mem]
  exact ⟨forall_congr' fun sid => not_congr (hfailed sid),
    forall_congr' fun itemId => not_congr (hmissing itemId)⟩

theorem deterministicMode_congr {failed failed' missing missing' : List String}
    (hf : failed = [] ↔ failed' = []) (hm : missing = [] ↔ missing' = []) :
    deterministicMode failed missing = deterministicMode failed' missing' := by
  unfold deterministicMode
  simp only [hf, hm, ne_eq]

/-- The mode when something is to be reworked and nothing escalates. -/
theorem mode_of_targets {r : RetryRoutingResult}
    (hr : r = classifyRetryRouting qcResult document checklist topicSplit structureMissingIds)
    (hforce : ¬ (failedChecks qcResult ≠ [] ∧
      Escalation qcResult document checklist topicSplit structureMissingIds))
    (hsome : ¬ (NamesNoTarget qcResult document checklist topicSplit structureMissingIds ∧
      RecommendsNothing qcResult document checklist)) :
    r.mode =
      if isStructureOnlyFailure (failedChecks qcResult) = true ∧ r.missingChecklistIds ≠ [] then
        .sectionInsert
      else deterministicMode r.failedSectionIds r.missingChecklistIds := by
  obtain ⟨hfailedNil, hmissingNil⟩ := @classifyRetryRouting_nil_iff qcResult document checklist
    topicSplit structureMissingIds
  rw [hr, deterministicMode_congr hfailedNil hmissingNil]
  simp only [ne_eq, hmissingNil]
  rw [classifyRetryRouting_mode]
  by_cases hfailed : failedChecks qcResult = []
  · have hstructure : ¬ isStructureOnlyFailure (failedChecks qcResult) = true := by
      rw [hfailed]
      decide
    rw [if_pos hfailed, if_neg fun h => hstructure h.1]
  · have hescalates :
        ¬ escalates qcResult document checklist topicSplit structureMissingIds = true :=
      fun h => hforce ⟨hfailed, escalates_iff.1 h⟩
    rw [if_neg hfailed, if_neg hescalates, if_neg fun h => hsome (targets_empty_iff.1 h)]

/-- The mode when nothing is to be reworked and nothing escalates. -/
theorem mode_of_no_targets
    (hforce : ¬ (failedChecks qcResult ≠ [] ∧
      Escalation qcResult document checklist topicSplit structureMissingIds))
    (hnone : NamesNoTarget qcResult document checklist topicSplit structureMissingIds ∧
      RecommendsNothing qcResult document checklist) :
    ((failedChecks qcResult = [] ∨ ¬ AsksToRestart qcResult) ∧
      (classifyRetryRouting qcResult document checklist topicSplit structureMissingIds).mode =
        .none) ∨
    (failedChecks qcResult ≠ [] ∧ AsksToRestart qcResult ∧
      (classifyRetryRouting qcResult document checklist topicSplit structureMissingIds).mode =
        if isPlacementOnlyFailure (failedChecks qcResult) = true then .sectionPatch
        else .fullRegeneration) := by
  rw [classifyRetryRouting_mode]
  have hempty := targets_empty_iff.2 hnone
  by_cases hfailed : failedChecks qcResult = []
  · refine Or.inl ⟨Or.inl hfailed, ?_⟩
    rw [if_pos hfailed]
    exact if_pos hempty
  · have hescalates :
        ¬ escalates qcResult document checklist topicSplit structureMissingIds = true :=
      fun h => hforce ⟨hfailed, escalates_iff.1 h⟩
    have hrestart : (teachingAlignmentSoleFailure (failedChecks qcResult) = true ∨
        llmRecommendationMode qcResult document checklist = some .fullRegeneration) ↔
          AsksToRestart qcResult := by
      rw [teachingAlignmentSoleFailure_iff, llmRecommendationMode_full_iff, and_iff_right hfailed]
      rfl
    rw [if_neg hfailed, if_neg hescalates, if_pos hempty]
    by_cases hasks : AsksToRestart qcResult
    · exact Or.inr ⟨hfailed, hasks, if_pos (hrestart.2 hasks)⟩
    · exact Or.inl ⟨Or.inr hasks, if_neg (mt hrestart.1 hasks)⟩

/-- The mode when the failures escalate. -/
theorem mode_of_escalation (hfailed : failedChecks qcResult ≠ [])
    (h : Escalation qcResult document checklist topicSplit structureMissingIds) :
    (classifyRetryRouting qcResult document checklist topicSplit structureMissingIds).mode =
      .fullRegeneration := by
  rw [classifyRetryRouting_mode]
  rw [if_neg hfailed, if_pos (escalates_iff.2 h)]

/-! ## Mode and targets -/

/-- The targets are what the mode needs them to be. -/
structure RoutingConsistent (r : RetryRoutingResult) (document : Document) : Prop where
  sectionPatch : r.mode = .sectionPatch →
    r.failedSectionIds ≠ [] ∧ ∀ sid ∈ r.failedSectionIds, sid ∈ documentSectionIds document
  sectionInsert : r.mode = .sectionInsert → r.missingChecklistIds ≠ []
  sectionPatchThenInsert : r.mode = .sectionPatchThenInsert →
    (r.failedSectionIds ≠ [] ∧ ∀ sid ∈ r.failedSectionIds, sid ∈ documentSectionIds document) ∧
      r.missingChecklistIds ≠ []
  none : r.mode = .none → r.failedSectionIds = [] ∧ r.missingChecklistIds = []

/-- Only placement checks failed, none of them names a section of the document or
an item, the recommendation adds nothing, and a restart is asked for. -/
def PlacementWithoutSection (qcResult : QcResult) (document : Document)
    (checklist : List ChecklistItem) : Prop :=
  isPlacementOnlyFailure (failedChecks qcResult) = true ∧
    (∀ c ∈ failedChecks qcResult, NamesNothing document checklist c) ∧
    RecommendsNothing qcResult document checklist ∧ AsksToRestart qcResult

/-- Placement failures never look at the structure. -/
theorem not_structureNames_of_placementOnly
    (h : isPlacementOnlyFailure (failedChecks qcResult) = true) (itemId : String) :
    ¬ StructureNames qcResult document checklist topicSplit structureMissingIds itemId := by
  rintro ⟨hcov, -⟩
  obtain ⟨c, hc, hid⟩ := List.any_eq_true.1 hcov
  simp only [Bool.and_eq_true, decide_eq_true_eq] at hid
  have hplace := (isPlacementOnlyFailure_iff.1 h).2 c hc
  unfold isPlacementCheck at hplace
  rw [hid.1] at hplace
  exact absurd hplace (by decide)

theorem placementWithoutSection_iff :
    PlacementWithoutSection qcResult document checklist ↔
      isPlacementOnlyFailure (failedChecks qcResult) = true ∧
        (NamesNoTarget qcResult document checklist topicSplit structureMissingIds ∧
          RecommendsNothing qcResult document checklist) ∧ AsksToRestart qcResult := by
  unfold PlacementWithoutSection NamesNoTarget
  constructor
  · rintro ⟨hplace, hnames, hrec, hasks⟩
    exact ⟨hplace, ⟨⟨hnames, not_structureNames_of_placementOnly hplace⟩, hrec⟩, hasks⟩
  · rintro ⟨hplace, ⟨⟨hnames, -⟩, hrec⟩, hasks⟩
    exact ⟨hplace, hnames, hrec, hasks⟩

theorem routingConsistent_full {r : RetryRoutingResult} (h : r.mode = .fullRegeneration) :
    RoutingConsistent r document := by
  constructor <;> intro hmode <;> rw [h] at hmode <;> exact absurd hmode (by decide)

/-- The deterministic mode is consistent with its own targets. -/
theorem routingConsistent_deterministicMode {r : RetryRoutingResult}
    (h : r.mode = deterministicMode r.failedSectionIds r.missingChecklistIds)
    (hvalid : ∀ sid ∈ r.failedSectionIds, sid ∈ documentSectionIds document) :
    RoutingConsistent r document := by
  have hdet := h
  unfold deterministicMode at hdet
  split_ifs at hdet with hnone hboth hmiss
  · constructor <;> intro hmode <;> rw [hdet] at hmode
    · exact absurd hmode (by decide)
    · exact absurd hmode (by decide)
    · exact absurd hmode (by decide)
    · exact hnone
  · constructor <;> intro hmode <;> rw [hdet] at hmode
    · exact absurd hmode (by decide)
    · exact absurd hmode (by decide)
    · exact ⟨⟨hboth.1, hvalid⟩, hboth.2⟩
    · exact absurd hmode (by decide)
  · constructor <;> intro hmode <;> rw [hdet] at hmode
    · exact absurd hmode (by decide)
    · exact hmiss
    · exact absurd hmode (by decide)
    · exact absurd hmode (by decide)
  · constructor <;> intro hmode <;> rw [hdet] at hmode
    · exact ⟨fun hf => hnone ⟨hf, not_not.1 hmiss⟩, hvalid⟩
    · exact absurd hmode (by decide)
    · exact absurd hmode (by decide)
    · exact absurd hmode (by decide)

/-- **Mode and targets are consistent** exactly unless placement failures without
a section are asked to be regenerated: they are then sent to be patched, with
nothing to patch. -/
theorem routingConsistent_iff (qcResult : QcResult) (document : Document)
    (checklist : List ChecklistItem) (topicSplit : List TopicSplitEntry)
    (structureMissingIds : Option (List String)) :
    RoutingConsistent (classifyRetryRouting qcResult document checklist topicSplit
        structureMissingIds) document ↔
      ¬ PlacementWithoutSection qcResult document checklist := by
  obtain ⟨hfailedNil, hmissingNil⟩ := @classifyRetryRouting_nil_iff qcResult document checklist
    topicSplit structureMissingIds
  rw [@placementWithoutSection_iff _ _ _ topicSplit structureMissingIds]
  by_cases hforce : failedChecks qcResult ≠ [] ∧
      Escalation qcResult document checklist topicSplit structureMissingIds
  · refine iff_of_true (routingConsistent_full (mode_of_escalation hforce.1 hforce.2)) ?_
    rintro ⟨hplace, -⟩
    rw [hforce.2.1] at hplace
    exact absurd hplace Bool.false_ne_true
  by_cases hnone : NamesNoTarget qcResult document checklist topicSplit structureMissingIds ∧
      RecommendsNothing qcResult document checklist
  · obtain ⟨hf, hm⟩ := targets_empty_iff.2 hnone
    rcases mode_of_no_targets hforce hnone with ⟨hwhy, hmode⟩ | ⟨hfailed, hasks, hmode⟩
    · refine iff_of_true ?_ ?_
      · constructor <;> intro h <;> rw [hmode] at h
        · exact absurd h (by decide)
        · exact absurd h (by decide)
        · exact absurd h (by decide)
        · exact ⟨hfailedNil.2 hf, hmissingNil.2 hm⟩
      · rintro ⟨hplace, -, hasks⟩
        rcases hwhy with hfailed | hnot
        · exact (isPlacementOnlyFailure_iff.1 hplace).1 hfailed
        · exact hnot hasks
    · by_cases hplace : isPlacementOnlyFailure (failedChecks qcResult) = true
      · rw [if_pos hplace] at hmode
        refine iff_of_false ?_ (not_not.2 ⟨hplace, hnone, hasks⟩)
        intro hcons
        exact (hcons.sectionPatch hmode).1 (hfailedNil.2 hf)
      · rw [if_neg hplace] at hmode
        exact iff_of_true (routingConsistent_full hmode) fun h => hplace h.1
  · have hmode := mode_of_targets rfl hforce hnone
    refine iff_of_true ?_ fun h => hnone h.2.1
    split at hmode
    next hstructure =>
      constructor <;> intro h <;> rw [hmode] at h
      · exact absurd h (by decide)
      · exact hstructure.2
      · exact absurd h (by decide)
      · exact absurd h (by decide)
    next =>
      refine routingConsistent_deterministicMode hmode fun sid hsid => ?_
      exact (targets_failed_valid ((classifyRetryRouting_ids.1 sid).1 hsid)).1

/-- A placement failure of a section without an id, which the recommendation
wants regenerated: the mode is a section patch, with no section to patch. -/
theorem placementWithoutSection_routed :
    let qcResult : QcResult :=
      { checks := some [{ id := some (.str "det_math_in_code_block")
                          category := some (.str "document_coherence")
                          passed := some (.bool false) }]
        failedChecks := some [{ id := some (.str "det_math_in_code_block")
                                category := some (.str "document_coherence")
                                passed := some (.bool false) }]
        retryRecommendation := some { mode := some (.str "full_regeneration") } }
    let document : Document := { sections := [{}] }
    ¬ RoutingConsistent (classifyRetryRouting qcResult document [] [] none) document := by
  intro qcResult document hcons
  have hmode : (classifyRetryRouting qcResult document [] [] none).mode = .sectionPatch := by decide
  have hnil : (classifyRetryRouting qcResult document [] [] none).failedSectionIds = [] := by
    decide
  exact (hcons.sectionPatch hmode).1 hnil

/-! ## Items to insert -/

/-- When items are to be inserted, each is an item of the plan, and the insert
phase finds it. -/
def InsertTargetsBuildable (r : RetryRoutingResult) (checklist : List ChecklistItem)
    (topicSplit : List TopicSplitEntry) : Prop :=
  r.mode = .sectionInsert ∨ r.mode = .sectionPatchThenInsert →
    ∀ itemId ∈ r.missingChecklistIds, Buildable checklist topicSplit itemId ∧
      ∃ item ∈ missingItems checklist topicSplit r.missingChecklistIds, item.id = itemId

/-- A must_cover failure, or with no target from the checks the recommendation,
names an item that is in neither the checklist nor the topic split. -/
def NamesUnknownItem (qcResult : QcResult) (document : Document)
    (checklist : List ChecklistItem) (topicSplit : List TopicSplitEntry)
    (structureMissingIds : Option (List String)) : Prop :=
  ∃ itemId, ¬ Buildable checklist topicSplit itemId ∧
    ((∃ c ∈ failedChecks qcResult, AsksInsert document checklist c itemId) ∨
      (NamesNoTarget qcResult document checklist topicSplit structureMissingIds ∧
        RecommendsInsert qcResult document checklist itemId))

/-- The structure check only names items of the plan. -/
theorem buildable_of_structureNames {itemId : String}
    (h : StructureNames qcResult document checklist topicSplit structureMissingIds itemId) :
    Buildable checklist topicSplit itemId := by
  obtain ⟨-, sid, -, ⟨item, hitem, -, -, hid⟩ | ⟨-, ⟨e, he, hid⟩, heq⟩⟩ := h
  · rw [item.strip_id] at hid
    exact Or.inl ⟨item, hitem, hid⟩
  · exact Or.inr ⟨e, he, hid.trans heq.symm⟩

theorem namesUnknownItem_iff :
    NamesUnknownItem qcResult document checklist topicSplit structureMissingIds ↔
      ∃ itemId, ¬ Buildable checklist topicSplit itemId ∧
        InsertTarget qcResult document checklist topicSplit structureMissingIds itemId := by
  unfold NamesUnknownItem InsertTarget
  refine exists_congr fun itemId => and_congr_right fun hnot => ?_
  refine or_congr_right (or_iff_right fun h => ?_).symm
  exact hnot (buildable_of_structureNames h)

/-- With items to insert the mode says so, unless the failures escalate. -/
theorem mode_insert_of_target {itemId : String}
    (hforce : ¬ (failedChecks qcResult ≠ [] ∧
      Escalation qcResult document checklist topicSplit structureMissingIds))
    (h : itemId ∈ (classifyRetryRouting qcResult document checklist topicSplit
      structureMissingIds).missingChecklistIds) :
    (classifyRetryRouting qcResult document checklist topicSplit structureMissingIds).mode =
        .sectionInsert ∨
      (classifyRetryRouting qcResult document checklist topicSplit structureMissingIds).mode =
        .sectionPatchThenInsert := by
  have hmissing := List.ne_nil_of_mem h
  have hsome : ¬ (NamesNoTarget qcResult document checklist topicSplit structureMissingIds ∧
      RecommendsNothing qcResult document checklist) := by
    intro hnone
    have htarget := (classifyRetryRouting_ids.2 itemId).1 h
    rw [(targets_empty_iff.2 hnone).2] at htarget
    exact absurd htarget List.not_mem_nil
  rw [mode_of_targets rfl hforce hsome]
  unfold deterministicMode
  split_ifs with hstructure hnone hboth
  · exact Or.inl rfl
  · exact absurd hnone.2 hmissing
  · exact Or.inr rfl
  · exact Or.inl rfl

/-- **Every item to insert can be built** exactly when the failures escalate to a
full regeneration or no unknown item is named: routing never looks the item up. -/
theorem insertTargetsBuildable_iff (qcResult : QcResult) (document : Document)
    (checklist : List ChecklistItem) (topicSplit : List TopicSplitEntry)
    (structureMissingIds : Option (List String)) :
    InsertTargetsBuildable (classifyRetryRouting qcResult document checklist topicSplit
        structureMissingIds) checklist topicSplit ↔
      (failedChecks qcResult ≠ [] ∧
        Escalation qcResult document checklist topicSplit structureMissingIds) ∨
      ¬ NamesUnknownItem qcResult document checklist topicSplit structureMissingIds := by
  rw [namesUnknownItem_iff]
  have hids : ∀ itemId, itemId ∈ (classifyRetryRouting qcResult document checklist topicSplit
      structureMissingIds).missingChecklistIds ↔
      InsertTarget qcResult document checklist topicSplit structureMissingIds itemId :=
    fun itemId => (classifyRetryRouting_ids.2 itemId).trans mem_targets_missing_iff
  constructor
  · intro h
    by_cases hforce : failedChecks qcResult ≠ [] ∧
        Escalation qcResult document checklist topicSplit structureMissingIds
    · exact Or.inl hforce
    · refine Or.inr ?_
      rintro ⟨itemId, hnot, htarget⟩
      have hmem := (hids itemId).2 htarget
      exact hnot (h (mode_insert_of_target hforce hmem) itemId hmem).1
  · rintro (hforce | hknown) hmode itemId hitem
    · rw [mode_of_escalation hforce.1 hforce.2] at hmode
      rcases hmode with hmode | hmode <;> exact absurd hmode (by decide)
    · have hbuild : Buildable checklist topicSplit itemId := by
        by_contra hnot
        exact hknown ⟨itemId, hnot, (hids itemId).1 hitem⟩
      exact ⟨hbuild, (exists_missingItem_iff hitem).2 hbuild⟩

/-- A must_cover failure for `mc_99`, which the plan does not have: the generator
is told to insert it, and finds no item. -/
theorem unknownItem_inserted :
    let qcResult : QcResult :=
      { checks := some [{ id := some (.str "mc_99")
                          category := some (.str "must_cover")
                          checklistId := some (.str "mc_99")
                          passed := some (.bool false) }]
        failedChecks := some [{ id := some (.str "mc_99")
                                category := some (.str "must_cover")
                                checklistId := some (.str "mc_99")
                                passed := some (.bool false) }] }
    let document : Document := { sections := [{ id := some (.str "ts_1") }] }
    let checklist : List ChecklistItem := [{ id := "mc_1", sectionId := some "ts_1" }]
    let topicSplit : List TopicSplitEntry := [{ id := "ts_1" }]
    ¬ InsertTargetsBuildable (classifyRetryRouting qcResult document checklist topicSplit none)
      checklist topicSplit := by
  intro qcResult document checklist topicSplit h
  have hmode : (classifyRetryRouting qcResult document checklist topicSplit none).mode =
      .sectionInsert := by decide
  have hids : (classifyRetryRouting qcResult document checklist topicSplit
      none).missingChecklistIds = ["mc_99"] := by decide
  have hbuild := (h (Or.inl hmode) "mc_99" (by rw [hids]; decide)).1
  exact absurd hbuild (by decide)

/-! ## Withheld results -/

/-- `is_qc_deliverable` on a built result. -/
def deliverable (r : QcResult) : Bool :=
  isQcDeliverable (r.overallStatus.getD .pass) r.failedCheckList (r.hallucinationRisk.getD "none")
    (r.isRefusal.getD false) r.retryRecommendation

/-- No refusal, but the hallucination risk is high, or a must_cover or a critical
check failed. -/
def Withheld (r : QcResult) : Prop :=
  r.isRefusal.getD false = false ∧
    (r.hallucinationRisk.getD "none" = "high" ∨
      ∃ c ∈ r.checkList, c.failed = true ∧
        (c.categoryText = "must_cover" ∨ c.severityIs "critical" = true))

/-- Nothing names a target, and the failures neither escalate nor ask for a
restart. -/
def AsksForNothing (qcResult : QcResult) (document : Document)
    (checklist : List ChecklistItem) (topicSplit : List TopicSplitEntry)
    (structureMissingIds : Option (List String)) : Prop :=
  (NamesNoTarget qcResult document checklist topicSplit structureMissingIds ∧
    RecommendsNothing qcResult document checklist) ∧
  (failedChecks qcResult ≠ [] →
    ¬ Escalation qcResult document checklist topicSplit structureMissingIds ∧
      ¬ AsksToRestart qcResult)

/-- **There is no retry exactly when nothing is asked for.** -/
theorem mode_none_iff :
    (classifyRetryRouting qcResult document checklist topicSplit structureMissingIds).mode =
        .none ↔
      AsksForNothing qcResult document checklist topicSplit structureMissingIds := by
  unfold AsksForNothing
  by_cases hforce : failedChecks qcResult ≠ [] ∧
      Escalation qcResult document checklist topicSplit structureMissingIds
  · rw [mode_of_escalation hforce.1 hforce.2]
    exact iff_of_false (by decide) fun h => (h.2 hforce.1).1 hforce.2
  by_cases hnone : NamesNoTarget qcResult document checklist topicSplit structureMissingIds ∧
      RecommendsNothing qcResult document checklist
  · rcases mode_of_no_targets hforce hnone with ⟨hwhy, hmode⟩ | ⟨hfailed, hasks, hmode⟩
    · refine iff_of_true hmode ⟨hnone, fun hfailed => ⟨fun h => hforce ⟨hfailed, h⟩, ?_⟩⟩
      exact hwhy.resolve_left hfailed
    · rw [hmode]
      refine iff_of_false ?_ fun h => (h.2 hfailed).2 hasks
      split <;> decide
  · refine iff_of_false ?_ fun h => hnone h.1
    rw [mode_of_targets rfl hforce hnone]
    obtain ⟨hfailedNil, hmissingNil⟩ := @classifyRetryRouting_nil_iff qcResult document checklist
      topicSplit structureMissingIds
    unfold deterministicMode
    split_ifs with hstructure hempty
    · decide
    · exact absurd (targets_empty_iff.1 ⟨hfailedNil.1 hempty.1, hmissingNil.1 hempty.2⟩) hnone
    · decide
    · decide
    · decide

/-- A recommendation that names nothing leaves no item missing. -/
theorem missing_of_recommendsNothing {verification : Verification} {structureChecks : List Check}
    {model : Option String}
    (h : RecommendsNothing (ResultBuilder.buildFinalQcResult verification structureChecks document
      checklist model) document checklist) :
    missingChecklistIdsFromRecommendation (ResultBuilder.buildFinalQcResult verification
      structureChecks document checklist model).retryRecommendation = [] := by
  refine List.eq_nil_iff_forall_not_mem.2 fun itemId hitem => ?_
  cases hrec : verification.retryRecommendation with
  | none =>
    unfold ResultBuilder.buildFinalQcResult at hitem
    simp [hrec, missingChecklistIdsFromRecommendation] at hitem
  | some r =>
    have hbuilt : (ResultBuilder.buildFinalQcResult verification structureChecks document checklist
        model).retryRecommendation = some (sanitizeRetryRecommendation r
          (ResultBuilder.finalChecks verification structureChecks document checklist) document
          checklist) := by
      unfold ResultBuilder.buildFinalQcResult
      rw [hrec]
      rfl
    rw [hbuilt] at hitem
    simp only [missingChecklistIdsFromRecommendation, sanitizeRetryRecommendation, List.map_map,
      List.mem_filter, List.mem_map, Function.comp_apply, Value.text_str] at hitem
    obtain ⟨⟨x, hx, rfl⟩, -⟩ := hitem
    obtain ⟨⟨hne, hpassed, hsec⟩, v, -, hv⟩ := mem_cleanedMissing.1 hx
    refine h.2 x ⟨hne, hpassed, hsec, _, hbuilt, .str x, ?_, ?_⟩
    · exact List.mem_map_of_mem hx
    · rw [Value.text_str, ← hv, normalizeChecklistId_idem]

theorem deliverable_eq_false_iff {verification : Verification} {structureChecks : List Check}
    {model : Option String} {r : QcResult}
    (hr : r = ResultBuilder.buildFinalQcResult verification structureChecks document checklist
      model) :
    deliverable r = false ↔
      Withheld r ∨ (r.isRefusal.getD false = false ∧
        missingChecklistIdsFromRecommendation r.retryRecommendation ≠ []) := by
  have hbuilt : deliverable r = isQcDeliverable
      (deriveOverallStatus r.checkList (r.hallucinationRisk.getD "none") (r.isRefusal.getD false))
      (extractFailedChecks r.checkList) (r.hallucinationRisk.getD "none")
      (r.isRefusal.getD false) r.retryRecommendation := by
    simp only [hr, deliverable, QcResult.checkList, QcResult.failedCheckList,
      ResultBuilder.buildFinalQcResult, Option.getD_some]
  have hmust : hasFailedMustCover (extractFailedChecks r.checkList) = true ↔
      ∃ c ∈ r.checkList, c.failed = true ∧ c.categoryText = "must_cover" := by
    unfold hasFailedMustCover
    simp only [List.any_eq_true, mem_extractFailedChecks, Bool.and_eq_true, decide_eq_true_eq]
    constructor
    · rintro ⟨c, ⟨hc, hf⟩, hcat, -⟩
      exact ⟨c, hc, hf, hcat⟩
    · rintro ⟨c, hc, hf, hcat⟩
      exact ⟨c, ⟨hc, hf⟩, hcat, hf⟩
  have hsplit : (∃ c ∈ r.checkList, c.failed = true ∧
        (c.categoryText = "must_cover" ∨ c.severityIs "critical" = true)) ↔
      (∃ c ∈ r.checkList, c.failed = true ∧ c.categoryText = "must_cover") ∨
        ∃ c ∈ r.checkList, c.failed = true ∧ c.severityIs "critical" = true := by
    simp only [and_or_left, exists_or]
  rw [hbuilt, isQcDeliverable_false_iff, hmust]
  have hor : ∀ p q s t : Prop, (p ∨ q ∨ s ∨ t) ↔ (s ∨ p ∨ t) ∨ q := by
    intro p q s t
    rw [or_left_comm, or_comm (a := q), or_left_comm, or_assoc]
  unfold Withheld
  rw [hsplit, ← and_or_left]
  exact and_congr_right fun _ => hor _ _ _ _

/-- **A withheld result is actionable** exactly unless its risk is high, or a
critical or must_cover check failed, and nothing asks for a rework: the generator
is then called again with nothing to go by. -/
theorem withheldActionable_iff (verification : Verification) (structureChecks : List Check)
    (document : Document) (checklist : List ChecklistItem) (model : Option String)
    (topicSplit : List TopicSplitEntry) (structureMissingIds : Option (List String)) :
    let qcResult := ResultBuilder.buildFinalQcResult verification structureChecks document
      checklist model
    (deliverable qcResult = false →
      (classifyRetryRouting qcResult document checklist topicSplit structureMissingIds).mode ≠
        .none) ↔
    ¬ (Withheld qcResult ∧
      AsksForNothing qcResult document checklist topicSplit structureMissingIds) := by
  intro qcResult
  rw [ne_eq, mode_none_iff, deliverable_eq_false_iff rfl]
  constructor
  · rintro h ⟨hwithheld, hnothing⟩
    exact h (Or.inl hwithheld) hnothing
  · rintro h (hwithheld | ⟨-, hmissing⟩) hnothing
    · exact h ⟨hwithheld, hnothing⟩
    · exact hmissing (missing_of_recommendsNothing hnothing.1.2)

/-- All checks pass and the hallucination risk is high: the result is withheld,
and the retry mode is `none`. -/
theorem highRisk_not_actionable :
    let verification : Verification :=
      { checks := [{ id := some (.str "mc_1"), category := some (.str "must_cover")
                     checklistId := some (.str "mc_1"), passed := some (.bool true) }]
        hallucinationRisk := some (.str "high")
        retryRecommendation := some { mode := some (.str "full_regeneration") } }
    let document : Document := { sections := [{ id := some (.str "ts_1") }] }
    let checklist : List ChecklistItem := [{ id := "mc_1", sectionId := some "ts_1" }]
    let topicSplit : List TopicSplitEntry := [{ id := "ts_1" }]
    let qcResult := ResultBuilder.buildFinalQcResult verification [] document checklist none
    ¬ (deliverable qcResult = false →
      (classifyRetryRouting qcResult document checklist topicSplit none).mode ≠ .none) := by
  intro verification document checklist topicSplit qcResult h
  have hwithheld : deliverable qcResult = false := by decide
  have hmode : (classifyRetryRouting qcResult document checklist topicSplit none).mode = .none := by
    decide
  exact h hwithheld hmode

end

end StudyAgent.RetryRouting
