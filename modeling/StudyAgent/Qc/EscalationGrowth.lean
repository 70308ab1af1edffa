import StudyAgent.Qc.RoutingTargets

/-!
# More failures never take an escalation back

Without a recommendation the retry mode depends on the failed checks alone.  Two
results are compared, the checks of the first being among those of the second:
each ground for a full regeneration that the first has, the second has too.

Main results:

* `escalation_mono` — the grounds for a full regeneration survive.
* `classifyRetryRouting_full_iff` — with a failure beside teaching_alignment, the
  mode is a full regeneration exactly when there is a ground for one.
* `classifyRetryRouting_mono` — **escalation is monotone.**
-/

namespace StudyAgent.RetryRouting

open Py Scoring

section

variable {failed failed' : List Check}

/-! ## Classes of failures -/

theorem placementOnly_of_subset (hsub : failed ⊆ failed') (hne : failed ≠ [])
    (h : isPlacementOnlyFailure failed' = true) : isPlacementOnlyFailure failed = true := by
  obtain ⟨-, hall⟩ := isPlacementOnlyFailure_iff.1 h
  exact isPlacementOnlyFailure_iff.2 ⟨hne, fun c hc => hall c (hsub hc)⟩

theorem isStructureOnlyFailure_iff :
    isStructureOnlyFailure failed = true ↔
      ∃ c, (failed.filter fun c => c.categoryText ≠ "teaching_alignment") = [c] ∧
        c.idText = "det_structure_coverage" ∧ c.failed = true := by
  unfold isStructureOnlyFailure
  split
  next c hc =>
    rw [Bool.and_eq_true, decide_eq_true_eq]
    constructor
    · exact fun h => ⟨c, hc, h⟩
    · rintro ⟨d, hd, h⟩
      rw [hc] at hd
      obtain rfl := List.singleton_injective hd
      exact h
  next hnot =>
    refine iff_of_false Bool.false_ne_true ?_
    rintro ⟨c, hc, -⟩
    exact hnot c hc

/-- A structure failure alone stays alone when failures are taken away, as long as
one beside teaching_alignment is left. -/
theorem structureOnly_of_subperm (hsub : failed.Subperm failed')
    (hsome : ∃ c ∈ failed, c.categoryText ≠ "teaching_alignment")
    (h : isStructureOnlyFailure failed' = true) : isStructureOnlyFailure failed = true := by
  obtain ⟨c, hc, hid, hfailed⟩ := isStructureOnlyFailure_iff.1 h
  have hfilter := hsub.filter fun c => decide (c.categoryText ≠ "teaching_alignment")
  rw [hc] at hfilter
  have hne : (failed.filter fun c => decide (c.categoryText ≠ "teaching_alignment")) ≠ [] := by
    obtain ⟨x, hx, hcat⟩ := hsome
    exact List.ne_nil_of_mem (List.mem_filter.2 ⟨hx, by simpa using hcat⟩)
  have hlen : (failed.filter fun c =>
      decide (c.categoryText ≠ "teaching_alignment")).length = 1 :=
    le_antisymm hfilter.length_le (List.length_pos_iff.2 hne)
  obtain ⟨x, hx⟩ := List.length_eq_one_iff.1 hlen
  have hmem : x ∈ [c] := hfilter.subset (hx ▸ List.mem_singleton_self x)
  rw [List.mem_singleton.1 hmem] at hx
  exact isStructureOnlyFailure_iff.2 ⟨c, hx, hid, hfailed⟩

theorem structureCoverageFailed_of_subset (hsub : failed ⊆ failed')
    (h : structureCoverageFailed failed = true) : structureCoverageFailed failed' = true := by
  unfold structureCoverageFailed at *
  rw [List.any_eq_true] at *
  obtain ⟨c, hc, hp⟩ := h
  exact ⟨c, hsub hc, hp⟩

theorem failedMustCover_of_subset {checklist : List ChecklistItem} (hsub : failed ⊆ failed') :
    failedMustCoverChecklistIds failed checklist ⊆
      failedMustCoverChecklistIds failed' checklist := by
  unfold failedMustCoverChecklistIds
  exact List.filter_subset _ (List.map_subset _ (List.filter_subset _ hsub))

end

section

variable {qcResult qcResult' : QcResult} {document : Document} {checklist : List ChecklistItem}
  {topicSplit : List TopicSplitEntry} {structureMissingIds : Option (List String)}

/-! ## Targets -/

theorem patchTarget_of_subset (hrec : qcResult.retryRecommendation = none)
    (hsub : failedChecks qcResult ⊆ failedChecks qcResult') {sid : String}
    (h : PatchTarget qcResult document checklist topicSplit structureMissingIds sid) :
    PatchTarget qcResult' document checklist topicSplit structureMissingIds sid := by
  rcases h with ⟨c, hc, hasks⟩ | ⟨-, -, -, -, r, hr, -⟩
  · exact Or.inl ⟨c, hsub hc, hasks⟩
  · rw [hrec] at hr
    cases hr

theorem insertTarget_of_subset (hrec : qcResult.retryRecommendation = none)
    (hsub : failedChecks qcResult ⊆ failedChecks qcResult') {itemId : String}
    (h : InsertTarget qcResult document checklist topicSplit structureMissingIds itemId) :
    InsertTarget qcResult' document checklist topicSplit structureMissingIds itemId := by
  rcases h with ⟨c, hc, hasks⟩ | ⟨hfailed, hnames⟩ | ⟨-, -, -, -, r, hr, -⟩
  · exact Or.inl ⟨c, hsub hc, hasks⟩
  · exact Or.inr (Or.inl ⟨structureCoverageFailed_of_subset hsub hfailed, hnames⟩)
  · rw [hrec] at hr
    cases hr

theorem unnamedCount_le (hsub : (failedChecks qcResult).Subperm (failedChecks qcResult')) :
    unnamedCount qcResult document checklist ≤ unnamedCount qcResult' document checklist :=
  hsub.countP_le _

/-! ## Escalation -/

/-- **Each ground for a full regeneration survives further failures.** -/
theorem escalation_mono (hrec : qcResult.retryRecommendation = none)
    (hsome : ∃ c ∈ failedChecks qcResult, c.categoryText ≠ "teaching_alignment")
    (hgrows : (failedChecks qcResult).Subperm (failedChecks qcResult'))
    (h : Escalation qcResult document checklist topicSplit structureMissingIds) :
    Escalation qcResult' document checklist topicSplit structureMissingIds := by
  have hsub := hgrows.subset
  have hunnamed := @unnamedCount_le _ _ document checklist hgrows
  have hne : failedChecks qcResult ≠ [] := by
    obtain ⟨c, hc, -⟩ := hsome
    exact List.ne_nil_of_mem hc
  obtain ⟨hplace, hground⟩ := h
  refine ⟨?_, ?_⟩
  · rw [Bool.eq_false_iff] at hplace ⊢
    exact fun hplace' => hplace (placementOnly_of_subset hsub hne hplace')
  rcases hground with ⟨c, hc, hcritical⟩ | ⟨⟨c, hc, hfailed⟩, htwo⟩ | ⟨hfailed, hwide⟩ |
    ⟨honly, ids, hids, hnodup, hratio, hall⟩ | ⟨sids, hnodup, hfour, hall⟩ | hthree
  · exact Or.inl ⟨c, hsub hc, hcritical⟩
  · exact Or.inr (Or.inl ⟨⟨c, hsub hc, hfailed⟩, htwo.trans hunnamed⟩)
  · exact Or.inr (Or.inr (Or.inl ⟨structureCoverageFailed_of_subset hsub hfailed, hwide⟩))
  · refine Or.inr (Or.inr (Or.inr (Or.inl ⟨?_, ids, hids, hnodup, hratio, fun itemId hid => ?_⟩)))
    · rw [Bool.eq_false_iff] at honly ⊢
      exact fun honly' => honly (structureOnly_of_subperm hgrows hsome honly')
    · obtain ⟨hrequired, haffected⟩ := hall itemId hid
      exact ⟨hrequired, haffected.imp (insertTarget_of_subset hrec hsub)
        fun hmust => failedMustCover_of_subset hsub hmust⟩
  · refine Or.inr (Or.inr (Or.inr (Or.inr (Or.inl ⟨sids, hnodup, hfour, fun sid hsid => ?_⟩))))
    exact patchTarget_of_subset hrec hsub (hall sid hsid)
  · exact Or.inr (Or.inr (Or.inr (Or.inr (Or.inr (hthree.trans hunnamed)))))

/-- **With a failure beside teaching_alignment and no recommendation, the mode is a
full regeneration exactly when there is a ground for one.** -/
theorem classifyRetryRouting_full_iff (hrec : qcResult.retryRecommendation = none)
    (hsome : ∃ c ∈ failedChecks qcResult, c.categoryText ≠ "teaching_alignment") :
    (classifyRetryRouting qcResult document checklist topicSplit structureMissingIds).mode =
        .fullRegeneration ↔
      Escalation qcResult document checklist topicSplit structureMissingIds := by
  have hne : failedChecks qcResult ≠ [] := by
    obtain ⟨c, hc, -⟩ := hsome
    exact List.ne_nil_of_mem hc
  have hsole : teachingAlignmentSoleFailure (failedChecks qcResult) = false := by
    obtain ⟨c, hc, hcat⟩ := hsome
    unfold teachingAlignmentSoleFailure
    rw [if_neg hne, List.all_eq_false]
    exact ⟨c, hc, by simpa using hcat⟩
  have hllm : llmRecommendationMode qcResult document checklist = Option.none := by
    unfold llmRecommendationMode routedRecommendation
    rw [hrec]
    rfl
  rw [← escalates_iff, classifyRetryRouting_mode, if_neg hne, hsole, hllm]
  unfold deterministicMode
  split_ifs <;> simp_all

end

/-- **Escalation is monotone.**  When the failed checks of a result call for a full
regeneration, so do these checks with any further ones, in whatever order. -/
theorem classifyRetryRouting_mono (qcResult qcResult' : QcResult) (document : Document)
    (checklist : List ChecklistItem) (topicSplit : List TopicSplitEntry)
    (structureMissingIds : Option (List String)) (further : List Check)
    (hrec : qcResult.retryRecommendation = none) (hrec' : qcResult'.retryRecommendation = none)
    (hsome : ∃ c ∈ failedChecks qcResult, c.categoryText ≠ "teaching_alignment")
    (hfurther : (failedChecks qcResult').Perm (further ++ failedChecks qcResult))
    (hfull : (classifyRetryRouting qcResult document checklist topicSplit
      structureMissingIds).mode = .fullRegeneration) :
    (classifyRetryRouting qcResult' document checklist topicSplit structureMissingIds).mode =
      .fullRegeneration := by
  have hgrows : (failedChecks qcResult).Subperm (failedChecks qcResult') :=
    (List.sublist_append_right further _).subperm.trans hfurther.symm.subperm
  have hsome' : ∃ c ∈ failedChecks qcResult', c.categoryText ≠ "teaching_alignment" := by
    obtain ⟨c, hc, hcat⟩ := hsome
    exact ⟨c, hgrows.subset hc, hcat⟩
  rw [classifyRetryRouting_full_iff hrec hsome] at hfull
  rw [classifyRetryRouting_full_iff hrec' hsome']
  exact escalation_mono hrec hsome hgrows hfull

/-- Four sections to patch, and a fifth failure without a section. -/
theorem classifyRetryRouting_mono_four :
    let check (sid : String) : Check :=
      { category := some (.str "content_accuracy"), passed := some (.bool false),
        sectionId := some (.str sid) }
    let four := ["a", "b", "c", "d"].map check
    let document : Document :=
      { sections := ["a", "b", "c", "d"].map fun sid => { id := some (.str sid) } }
    (classifyRetryRouting { failedChecks := some (check "x" :: four) } document [] [] none).mode =
      .fullRegeneration :=
  classifyRetryRouting_mono
    { failedChecks := some (["a", "b", "c", "d"].map fun sid =>
        { category := some (.str "content_accuracy"), passed := some (.bool false),
          sectionId := some (.str sid) }) } _ _ _ _ _
    [{ category := some (.str "content_accuracy"), passed := some (.bool false),
       sectionId := some (.str "x") }]
    rfl rfl (by decide) (by decide) (by decide)

end StudyAgent.RetryRouting
