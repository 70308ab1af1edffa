import StudyAgent.Qc.RoutingTargets

/-!
# No failure is lost on the way to its target

The mapper files every check of its list once: as a record in the bundle of one
section, as the id of one checklist item, or as one unmapped check.  The two
document-level kinds of check are left to other rules.

Main results:

* `existsUnique_goesTo` — a check has one destination, or none at document level.
* `bundle_mapFailuresToTargets` — a section's bundle is the records of its checks.
* `mapFailuresToTargets_accounts` — **failure conservation.**
-/

namespace StudyAgent.RetryRouting

open Py Scoring

/-! ## Destinations -/

section

variable (document : Document) (checklist : List ChecklistItem) (c : Check)

instance (sid : String) : Decidable (AsksPatch document checklist c sid) :=
  inferInstanceAs (Decidable (_ ∧ _ ∧ (_ ∨ _)))

/-- Where the check is to be accounted for. -/
def GoesTo : FailureTarget → Prop
  | .patch sid => AsksPatch document checklist c sid
  | .insert itemId => AsksInsert document checklist c itemId
  | .skipped => False
  | .unmapped => NamesNothing document checklist c ∧ ¬ DocumentLevel c

/-- The failure records filed under a section. -/
def Targets.bundle (t : Targets) (sid : String) : List FailureRecord :=
  (t.failuresBySection.lookup sid).getD []

end

section

variable {document : Document} {checklist : List ChecklistItem} {c : Check}

theorem failureTarget_skipped_iff :
    failureTarget document checklist c = .skipped ↔ DocumentLevel c := by
  by_cases hmc : c.categoryText = "must_cover"
  · have hdoc := not_documentLevel_of_mustCover hmc
    rw [failureTarget_of_mustCover hmc]
    split_ifs <;> simp [hdoc]
  · rw [failureTarget_of_not_mustCover hmc]
    split_ifs with hdoc hsec <;> simp [hdoc]

/-- The loop sends a check where it goes. -/
theorem goesTo_iff {target : FailureTarget} :
    GoesTo document checklist c target ↔
      target ≠ .skipped ∧ failureTarget document checklist c = target := by
  cases target with
  | patch sid =>
    rw [failureTarget_patch_iff]
    simp [GoesTo]
  | insert itemId =>
    rw [failureTarget_insert_iff]
    simp [GoesTo, AsksInsert, mustCoverItem]
  | skipped => simp [GoesTo]
  | unmapped =>
    rw [failureTarget_unmapped_iff]
    simp [GoesTo]

/-- **A check has one destination, or none at document level.** -/
theorem existsUnique_goesTo (document : Document) (checklist : List ChecklistItem) (c : Check) :
    if DocumentLevel c then ∀ target, ¬ GoesTo document checklist c target
    else ∃! target, GoesTo document checklist c target := by
  split
  next hdoc =>
    intro target hgoes
    obtain ⟨hne, htarget⟩ := goesTo_iff.1 hgoes
    rw [failureTarget_skipped_iff.2 hdoc] at htarget
    exact hne htarget.symm
  next hdoc =>
    have hne : failureTarget document checklist c ≠ .skipped := mt failureTarget_skipped_iff.1 hdoc
    refine ⟨failureTarget document checklist c, goesTo_iff.2 ⟨hne, rfl⟩, ?_⟩
    exact fun target hgoes => (goesTo_iff.1 hgoes).2.symm

/-! ## The loop -/

/-- One round appends the record of a check to the bundle it goes to, and leaves
every other bundle alone. -/
theorem bundle_add (t : Targets) (sid : String) :
    (t.add document checklist c).bundle sid =
      t.bundle sid ++
        if AsksPatch document checklist c sid then [failureRecord c] else [] := by
  simp only [← failureTarget_patch_iff]
  unfold Targets.add Targets.bundle
  cases failureTarget document checklist c with
  | patch target =>
    by_cases h : sid = target
    · subst h
      simp [AList.lookup_insert]
    · have h' : ¬ target = sid := fun heq => h heq.symm
      simp [AList.lookup_insert_ne h, h']
  | insert itemId => simp
  | skipped => simp
  | unmapped => simp

theorem foldl_add_bundle (failed : List Check) (t : Targets) (sid : String) :
    (failed.foldl (Targets.add document checklist) t).bundle sid =
      t.bundle sid ++
        (failed.filter fun c => AsksPatch document checklist c sid).map failureRecord := by
  induction failed generalizing t with
  | nil => simp
  | cons c l ih =>
    rw [List.foldl_cons, ih, bundle_add, List.append_assoc, List.filter_cons]
    by_cases h : AsksPatch document checklist c sid <;> simp [h]

variable {failed : List Check} {topicSplit : List TopicSplitEntry}
  {structureMissingIds : Option (List String)}

/-- The structure check adds insert targets to those of the loop, and nothing else. -/
theorem mapFailuresToTargets_eq :
    mapFailuresToTargets failed document checklist topicSplit structureMissingIds =
      { failed.foldl (Targets.add document checklist) {} with
        missingChecklistIds :=
          (failed.foldl (Targets.add document checklist) {}).missingChecklistIds ++
            ((structureMissing failed document checklist topicSplit structureMissingIds).elim []
              fun missing => enrichMissing missing checklist topicSplit) } := by
  unfold mapFailuresToTargets
  dsimp only
  cases structureMissing failed document checklist topicSplit structureMissingIds with
  | none => simp
  | some missing => rfl

/-- **A section's bundle is the records of the checks that go there**, in their
order. -/
theorem bundle_mapFailuresToTargets (sid : String) :
    (mapFailuresToTargets failed document checklist topicSplit structureMissingIds).bundle sid =
      (failed.filter fun c => AsksPatch document checklist c sid).map failureRecord := by
  rw [mapFailuresToTargets_eq]
  exact (foldl_add_bundle failed {} sid).trans (List.nil_append _)

/-- The sections to patch are those that have a bundle. -/
theorem mem_failedSectionIds_iff_bundle {sid : String} :
    sid ∈ (mapFailuresToTargets failed document checklist topicSplit
        structureMissingIds).failedSectionIds ↔
      (mapFailuresToTargets failed document checklist topicSplit
        structureMissingIds).bundle sid ≠ [] := by
  have hids : (mapFailuresToTargets failed document checklist topicSplit
      structureMissingIds).failedSectionIds =
        failed.filterMap fun c => (failureTarget document checklist c).patchId := by
    rw [mapFailuresToTargets_eq]
    exact (foldl_add failed {}).1
  rw [hids, bundle_mapFailuresToTargets, ne_eq, List.map_eq_nil_iff, List.filter_eq_nil_iff,
    List.mem_filterMap]
  simp only [decide_eq_true_eq, not_forall, not_not, exists_prop, ← failureTarget_patch_iff]
  refine exists_congr fun c => and_congr_right fun _ => ?_
  cases failureTarget document checklist c <;> simp [FailureTarget.patchId]

/-- **The missing items** are those the checks go to and those the structure
check adds. -/
theorem mem_missing_mapFailuresToTargets {itemId : String} :
    itemId ∈ (mapFailuresToTargets failed document checklist topicSplit
        structureMissingIds).missingChecklistIds ↔
      (∃ c ∈ failed, AsksInsert document checklist c itemId) ∨
        ∃ missing, structureMissing failed document checklist topicSplit structureMissingIds =
            some missing ∧
          itemId ∈ enrichMissing missing checklist topicSplit := by
  rw [mapFailuresToTargets_eq]
  dsimp only
  rw [List.mem_append, (foldl_add failed {}).2]
  refine or_congr ?_ ?_
  · have hinsert : ∀ c, AsksInsert document checklist c itemId ↔
        failureTarget document checklist c = .insert itemId :=
      fun _ => failureTarget_insert_iff.symm
    rw [List.nil_append, List.mem_filterMap]
    refine exists_congr fun c => and_congr_right fun _ => ?_
    rw [hinsert]
    cases failureTarget document checklist c <;> simp [FailureTarget.insertId]
  · cases structureMissing failed document checklist topicSplit structureMissingIds <;> simp

/-- A section with a bundle is there. -/
theorem bundle_section (sid : String)
    (h : (mapFailuresToTargets failed document checklist topicSplit
      structureMissingIds).bundle sid ≠ []) : sid ∈ documentSectionIds document := by
  rw [bundle_mapFailuresToTargets, ne_eq, List.map_eq_nil_iff] at h
  obtain ⟨c, hc⟩ := List.exists_mem_of_ne_nil _ h
  have hasks : AsksPatch document checklist c sid := by simpa using (List.mem_filter.1 hc).2
  exact hasks.1

/-- The checks of a result are failed ones, unless its own list of failed checks
says otherwise. -/
theorem failed_failedChecks_iff (qcResult : QcResult) :
    (∀ c ∈ failedChecks qcResult, c.failed = true) ↔
      ∀ c ∈ qcResult.failedCheckList, c.failed = true := by
  unfold failedChecks
  split
  next => exact Iff.rfl
  next h =>
    have hnil : qcResult.failedCheckList = [] := not_not.1 h
    rw [hnil]
    simp

end

/-- **Failure conservation.**  Each check that is not document-level has one
destination, and the targets hold what has been sent to each: the bundle of a
section, which is there, the records of its checks one by one; the missing ids,
the items sent there beside those of the structure check; the unmapped count, the
checks that name nothing.  The checks of a result are failed ones. -/
theorem mapFailuresToTargets_accounts (failed : List Check) (document : Document)
    (checklist : List ChecklistItem) (topicSplit : List TopicSplitEntry)
    (structureMissingIds : Option (List String)) :
    let t := mapFailuresToTargets failed document checklist topicSplit structureMissingIds
    (∀ c ∈ failed,
      if DocumentLevel c then ∀ target, ¬ GoesTo document checklist c target
      else ∃! target, GoesTo document checklist c target) ∧
    (∀ sid, t.bundle sid =
      (failed.filter fun c => AsksPatch document checklist c sid).map failureRecord) ∧
    (∀ sid, sid ∈ t.failedSectionIds ↔ t.bundle sid ≠ []) ∧
    (∀ sid, t.bundle sid ≠ [] → sid ∈ documentSectionIds document) ∧
    (∀ itemId, itemId ∈ t.missingChecklistIds ↔
      (∃ c ∈ failed, AsksInsert document checklist c itemId) ∨
        ∃ missing, structureMissing failed document checklist topicSplit structureMissingIds =
            some missing ∧
          itemId ∈ enrichMissing missing checklist topicSplit) ∧
    t.unmappedCount =
      failed.countP (fun c => NamesNothing document checklist c ∧ ¬ DocumentLevel c) ∧
    ∀ qcResult : QcResult, (∀ c ∈ failedChecks qcResult, c.failed = true) ↔
      ∀ c ∈ qcResult.failedCheckList, c.failed = true := by
  intro t
  refine ⟨fun c _ => existsUnique_goesTo document checklist c, bundle_mapFailuresToTargets,
    fun sid => mem_failedSectionIds_iff_bundle, bundle_section,
    fun itemId => mem_missing_mapFailuresToTargets, ?_, failed_failedChecks_iff⟩
  show (mapFailuresToTargets _ _ _ _ _).unmappedCount = _
  rw [mapFailuresToTargets_eq]
  exact (foldl_add_unmappedCount failed {}).trans (Nat.zero_add _)

/-- A check that passed is counted like any other: the mapper does not look at
`passed`. -/
theorem mapFailuresToTargets_counts_passed :
    ({ category := some (.str "content_accuracy"), passed := some (.bool true) } :
        Check).failed = false ∧
      (mapFailuresToTargets
        [{ category := some (.str "content_accuracy"), passed := some (.bool true) }]
        { sections := [] } [] [] none).unmappedCount = 1 := by decide

end StudyAgent.RetryRouting
