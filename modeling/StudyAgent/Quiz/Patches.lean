import Mathlib.Data.List.Forall2
import StudyAgent.Quiz.Results

/-!
# Question patches

The rewritten questions of a retry are bound to questions of the quiz, by the ids that the
generator gave them, by their number or by their position, and put in their places.  New
questions are appended.

Main results:

* `SameOutside` — two quizzes with the same ids whose questions agree outside some of them.
* `prepareQuestionPatchesForMerge_sameOutside` — **a reply that stays on its targets changes
  nothing else**.
-/

namespace StudyAgent.Quiz

open Py

/-- A question under another id. -/
def Question.withId (q : Question) (qid : String) : Question :=
  { q with questionId := some (.str qid) }

/-! ## Binding -/

/-- `bind_patch_question_ids`.  A single patch for a single target is a case of as many patches
as targets. -/
def bindPatchQuestionIds (patches : List Question) (targetQuestionIds : List String) :
    List Question :=
  let targets := strippedIds targetQuestionIds
  if patches = [] ∨ targets = [] then patches
  else if ∃ qid ∈ existingQuestionIds patches, qid ∈ targets then patches
  else if patches.length = targets.length then patches.zipWith Question.withId targets
  else patches

/-- `bind_patches_by_order_index`. -/
def bindPatchesByOrderIndex (patches existingQuestions : List Question) : List Question :=
  let sortedExisting := sortedByOrder existingQuestions
  let sortedPatches := sortedByOrder patches
  if sortedPatches.length ≠ sortedExisting.length then sortedPatches
  else sortedPatches.zipWith
    (fun patch existing => { patch.withId existing.id with orderIndex := existing.orderIndex })
    sortedExisting

/-- `_strip_unrecognized_patch_ids`. -/
def stripUnrecognizedPatchIds (patches : List Question) (existingIds : List String) :
    List Question :=
  patches.map fun patch =>
    if patch.id ≠ "" ∧ patch.id ∉ existingIds then { patch with questionId := none } else patch

/-- The questions that are targeted, or all if none is. -/
def targetedOrAll (bound : List Question) (orderedTargets idSet : List String) : List Question :=
  if orderedTargets = [] then bound
  else
    let targeted := bound.filter fun patch => patch.id ∈ idSet
    if targeted = [] then bound else targeted

/-- `_normalize_patch_payload`.  The quiz is given in order. -/
def normalizePatchPayload (patches existingQuestions : List Question)
    (orderedTargets idSet : List String) : List Question :=
  let existingIds := existingQuestionIds existingQuestions
  let bound := bindPatchQuestionIds patches orderedTargets
  let patchIds := existingQuestionIds bound
  if patchIds ≠ [] ∧ patchIds ⊆ existingIds then targetedOrAll bound orderedTargets idSet
  else
    let stripped := stripUnrecognizedPatchIds patches existingIds
    let byPosition :=
      if orderedTargets.length = 1 ∧ 1 < stripped.length then
        (orderedTargets.head?.bind fun failedId =>
          (sortedByOrder existingQuestions).findIdx? fun q => q.id = failedId).bind fun index =>
            (sortedByOrder stripped)[index]?
      else none
    match byPosition with
    | some patch => bindPatchQuestionIds [patch] orderedTargets
    | none =>
      let rebound := bindPatchQuestionIds stripped orderedTargets
      let reboundIds := existingQuestionIds rebound
      if reboundIds ≠ [] ∧ reboundIds ⊆ existingIds then
        targetedOrAll rebound orderedTargets idSet
      else if stripped.length = existingQuestions.length then
        let positional := bindPatchesByOrderIndex stripped existingQuestions
        if orderedTargets ≠ [] then positional.filter fun patch => patch.id ∈ idSet
        else positional
      else rebound

/-! ## Merging -/

/-- The last place of an id in a quiz. -/
def lastIndexOf (questions : List Question) (qid : String) : Option ℕ :=
  (questions.zipIdx.reverse.find? fun p => p.1.id = qid).map Prod.snd

/-- One patch of `merge_question_patches`. -/
def patchStep (questions merged : List Question) (patch : Question) : List Question :=
  if patch.id = "" then merged
  else match lastIndexOf questions patch.id with
    | none => merged
    | some i => merged.modify i fun existing =>
        { patch.withId patch.id with orderIndex := existing.orderIndex }

/-- `merge_question_patches`, less the ids that were not found. -/
def mergeQuestionPatches (questions patches : List Question) : List Question :=
  reindexQuestions (patches.foldl (patchStep questions) questions)

/-- The targets that are in the quiz, in its order. -/
def orderedTargets (existingQuestions : List Question) (targetQuestionIds : List String) :
    List String :=
  ((sortedByOrder existingQuestions).map Question.id).filter
    (· ∈ strippedIds targetQuestionIds)

/-- `prepare_question_patches_for_merge`. -/
def prepareQuestionPatchesForMerge (existingQuestions patches : List Question)
    (targetQuestionIds : List String) : List Question :=
  if patches = [] then existingQuestions
  else
    let prepared := normalizePatchPayload patches (sortedByOrder existingQuestions)
      (orderedTargets existingQuestions targetQuestionIds) (strippedIds targetQuestionIds)
    if prepared = [] then existingQuestions else mergeQuestionPatches existingQuestions prepared

/-- `insert_questions`, at the end of the quiz. -/
def insertQuestions (questions newQuestions : List Question) (newId : ℕ → String) :
    List Question :=
  reindexQuestions (questions ++ newQuestions.zipIdx.map fun p =>
    if p.1.id = "" then p.1.withId (newId p.2) else p.1)

/-! ## Unchanged questions -/

/-- Two quizzes with the same ids, whose questions agree outside the ids that are touched. -/
def SameOutside (touched : List String) (old new : List Question) : Prop :=
  List.Forall₂ (fun q r => r.id = q.id ∧ (q.id ∉ touched → r.toContent = q.toContent)) old new

theorem SameOutside.refl (touched : List String) (questions : List Question) :
    SameOutside touched questions questions :=
  List.forall₂_same.2 fun _ _ => ⟨rfl, fun _ => rfl⟩

theorem SameOutside.length_eq {touched : List String} {old new : List Question}
    (h : SameOutside touched old new) : new.length = old.length := (List.Forall₂.length_eq h).symm

theorem SameOutside.map_id {touched : List String} {old new : List Question}
    (h : SameOutside touched old new) : new.map Question.id = old.map Question.id := by
  induction h with
  | nil => rfl
  | cons hhead _ ih => rw [List.map_cons, List.map_cons, hhead.1, ih]

/-- A question of the new quiz whose id is not touched stands in the old one. -/
theorem SameOutside.mem {touched : List String} {old new : List Question}
    (h : SameOutside touched old new) {r : Question} (hr : r ∈ new) :
    ∃ q ∈ old, q.id = r.id ∧ (r.id ∉ touched → q.toContent = r.toContent) := by
  induction h with
  | nil => cases hr
  | @cons q s old new hhead _ ih =>
    rcases List.mem_cons.1 hr with rfl | hr
    · refine ⟨q, List.mem_cons_self, hhead.1.symm, fun hnot => ?_⟩
      rw [hhead.1] at hnot
      exact (hhead.2 hnot).symm
    · obtain ⟨q', hq', hrest⟩ := ih hr
      exact ⟨q', List.mem_cons_of_mem _ hq', hrest⟩

/-- A quiz that is numbered anew is the same. -/
theorem SameOutside.reindex {touched : List String} {old new : List Question}
    (h : SameOutside touched old new) : SameOutside touched old (reindexQuestions new) := by
  have hzip : ∀ k : ℕ, SameOutside touched old
      ((new.zipIdx k).map fun p => { p.1 with orderIndex := p.2 }) := by
    induction h with
    | nil => intro k; exact .nil
    | cons hhead _ ih => intro k; exact .cons hhead (ih (k + 1))
  exact hzip 0

theorem forall₂_modify {α β : Type} {R : α → β → Prop} {l : List α} {m : List β}
    (h : List.Forall₂ R l m) {i : ℕ} {f : β → β}
    (hf : ∀ a b, l[i]? = some a → R a b → R a (f b)) : List.Forall₂ R l (m.modify i f) := by
  induction h generalizing i with
  | nil => simp
  | cons hhead htail ih =>
    cases i with
    | zero => exact .cons (hf _ _ rfl hhead) htail
    | succ i =>
      refine .cons hhead (ih fun a b ha => hf a b ?_)
      rwa [List.getElem?_cons_succ]

theorem lastIndexOf_eq_some {questions : List Question} {qid : String} {i : ℕ}
    (h : lastIndexOf questions qid = some i) : ∃ q, questions[i]? = some q ∧ q.id = qid := by
  obtain ⟨⟨q, j⟩, hfind, rfl⟩ := Option.map_eq_some_iff.1 h
  have hmem := List.mem_of_find?_eq_some hfind
  rw [List.mem_reverse, List.mem_zipIdx_iff_getElem?] at hmem
  exact ⟨q, hmem, by simpa using List.find?_some hfind⟩

/-- **Patches change only the questions that they name.** -/
theorem mergeQuestionPatches_sameOutside {questions patches : List Question}
    {touched : List String}
    (h : ∀ patch ∈ patches, patch.id ∈ existingQuestionIds questions → patch.id ∈ touched) :
    SameOutside touched questions (mergeQuestionPatches questions patches) := by
  have hfold : ∀ (patches merged : List Question),
      (∀ patch ∈ patches, patch.id ∈ existingQuestionIds questions → patch.id ∈ touched) →
      SameOutside touched questions merged →
      SameOutside touched questions (patches.foldl (patchStep questions) merged) := by
    intro patches
    induction patches with
    | nil => exact fun _ _ hmerged => hmerged
    | cons patch patches ih =>
      intro merged hall hmerged
      rw [List.foldl_cons]
      refine ih _ (fun p hp => hall p (List.mem_cons_of_mem _ hp)) ?_
      unfold patchStep
      split_ifs with hblank
      · exact hmerged
      · cases hindex : lastIndexOf questions patch.id with
        | none => exact hmerged
        | some i =>
          obtain ⟨q, hget, hid⟩ := lastIndexOf_eq_some hindex
          have hnamed : patch.id ∈ existingQuestionIds questions :=
            mem_existingQuestionIds.2 ⟨⟨q, List.mem_of_getElem? hget, hid⟩, hblank⟩
          refine forall₂_modify hmerged fun a b ha _ => ?_
          rw [hget] at ha
          cases ha
          refine ⟨?_, fun hnot => absurd (hid ▸ hall patch List.mem_cons_self hnamed) hnot⟩
          show strip (strip _) = _
          rw [strip_strip]
          exact hid.symm
  exact (hfold patches questions h (SameOutside.refl _ _)).reindex

/-! ## Replies that stay on their targets -/

/-- The place of the only target is among the patches, some of which are unknown. -/
def HasPlace (existing patches : List Question) (targets : List String) : Prop :=
  (∃ qid ∈ existingQuestionIds patches, qid ∉ existingQuestionIds existing) ∧
    targets.length = 1 ∧ 1 < patches.length ∧
    ∃ i q, i < patches.length ∧ (sortedByOrder existing)[i]? = some q ∧ q.id ∈ targets

/-- What a patch reply changes are targets only.  Where it names no question of the quiz, nothing
can go wrong unless it is laid over the whole quiz.  Otherwise it names a target, or has as many
patches as there are targets, or has a patch at the place of the only one. -/
def StaysOnTargets (existing patches : List Question) (targetIds : List String) : Prop :=
  ((∀ qid ∈ existingQuestionIds patches, qid ∉ existingQuestionIds existing) ∧
    (orderedTargets existing targetIds = [] → patches.length ≠ existing.length)) ∨
  orderedTargets existing targetIds ≠ [] ∧
    ((∃ qid ∈ existingQuestionIds patches, qid ∈ orderedTargets existing targetIds) ∨
      patches.length = (orderedTargets existing targetIds).length ∨
      HasPlace existing patches (orderedTargets existing targetIds))

theorem mem_orderedTargets {existing : List Question} {ids : List String} {qid : String} :
    qid ∈ orderedTargets existing ids ↔
      qid ∈ existingQuestionIds existing ∧ qid ∈ strippedIds ids := by
  simp only [orderedTargets, List.mem_filter, List.mem_map, mem_sortedByOrder,
    mem_existingQuestionIds, decide_eq_true_eq]
  constructor
  · rintro ⟨hq, hids⟩
    exact ⟨⟨hq, (mem_strippedIds.1 hids).2⟩, hids⟩
  · rintro ⟨⟨hq, -⟩, hids⟩
    exact ⟨hq, hids⟩

/-- The ids of questions are stripped, and named once they are there. -/
theorem strippedIds_orderedTargets (existing : List Question) (ids : List String) :
    strippedIds (orderedTargets existing ids) = orderedTargets existing ids := by
  have hstrip : ∀ qid ∈ orderedTargets existing ids, strip qid = qid ∧ qid ≠ "" := by
    intro qid hqid
    obtain ⟨⟨q, -, rfl⟩, hne⟩ := mem_existingQuestionIds.1 (mem_orderedTargets.1 hqid).1
    exact ⟨strip_strip _, hne⟩
  have hmap : (orderedTargets existing ids).map strip = orderedTargets existing ids := by
    conv_rhs => rw [← List.map_id (orderedTargets existing ids)]
    exact List.map_congr_left fun qid hqid => (hstrip qid hqid).1
  rw [strippedIds, hmap, List.filter_eq_self]
  exact fun qid hqid => by simpa using (hstrip qid hqid).2

/-- Binding leaves the patches alone, or gives each of them a target. -/
theorem bindPatchQuestionIds_cases (patches : List Question) {targets : List String}
    (htargets : strippedIds targets = targets) :
    bindPatchQuestionIds patches targets = patches ∧
        (patches = [] ∨ targets = [] ∨ (∃ qid ∈ existingQuestionIds patches, qid ∈ targets) ∨
          patches.length ≠ targets.length) ∨
      patches.length = targets.length ∧
        ∀ patch ∈ bindPatchQuestionIds patches targets, patch.id ∈ targets := by
  unfold bindPatchQuestionIds
  rw [htargets]
  dsimp only
  split_ifs with hempty hnames hlength
  · refine .inl ⟨rfl, ?_⟩
    rcases hempty with hempty | hempty
    · exact .inl hempty
    · exact .inr (.inl hempty)
  · exact .inl ⟨rfl, .inr (.inr (.inl hnames))⟩
  · refine .inr ⟨hlength, fun patch hpatch => ?_⟩
    obtain ⟨i, hi, rfl⟩ := List.mem_iff_getElem.1 hpatch
    have hi' : i < targets.length := by
      rw [List.length_zipWith] at hi
      omega
    rw [List.getElem_zipWith]
    have hmem : targets[i] ∈ strippedIds targets := by
      rw [htargets]
      exact List.getElem_mem hi'
    obtain ⟨⟨raw, -, hraw⟩, -⟩ := mem_strippedIds.1 hmem
    have hid : (Question.withId patches[i] targets[i]).id = targets[i] := by
      show strip targets[i] = targets[i]
      rw [← hraw, strip_strip]
    rw [hid]
    exact List.getElem_mem hi'
  · exact .inl ⟨rfl, .inr (.inr (.inr hlength))⟩

section Targets

variable {bound : List Question} {targets idSet ids : List String}

/-- The patches that hit the quiz hit targets. -/
def HitsOnly (patches : List Question) (ids idSet : List String) : Prop :=
  ∀ patch ∈ patches, patch.id ∈ ids → patch.id ∈ idSet

theorem hitsOnly_targetedOrAll
    (h : (targets ≠ [] ∧ ∃ patch ∈ bound, patch.id ∈ idSet) ∨ HitsOnly bound ids idSet) :
    HitsOnly (targetedOrAll bound targets idSet) ids idSet := by
  intro patch hpatch hhit
  unfold targetedOrAll at hpatch
  dsimp only at hpatch
  split_ifs at hpatch with hempty hnone
  · rcases h with ⟨hne, -⟩ | h
    · exact absurd hempty hne
    · exact h patch hpatch hhit
  · rcases h with ⟨-, q, hq, hmem⟩ | h
    · have hin : q ∈ bound.filter fun patch => patch.id ∈ idSet :=
        List.mem_filter.2 ⟨hq, by simpa using hmem⟩
      rw [hnone] at hin
      cases hin
    · exact h patch hpatch hhit
  · exact by simpa using (List.mem_filter.1 hpatch).2

/-- What binding makes of patches that name a target, or are as many as the targets, or name no
question of the quiz. -/
theorem bound_hits {patches : List Question} (htargets : strippedIds targets = targets)
    (hsub : ∀ qid ∈ targets, qid ∈ idSet)
    (h : (targets ≠ [] ∧ ((∃ qid ∈ existingQuestionIds patches, qid ∈ targets) ∨
        patches.length = targets.length)) ∨ ∀ patch ∈ patches, patch.id ∉ ids) :
    (targets ≠ [] ∧ ∃ patch ∈ bindPatchQuestionIds patches targets, patch.id ∈ idSet) ∨
      HitsOnly (bindPatchQuestionIds patches targets) ids idSet := by
  rcases bindPatchQuestionIds_cases patches htargets with
    ⟨heq, hwhy⟩ | ⟨-, hall⟩
  · rw [heq]
    rcases h with ⟨hne, hnames | hlength⟩ | hnone
    · obtain ⟨qid, hqid, hmem⟩ := hnames
      obtain ⟨⟨patch, hpatch, rfl⟩, -⟩ := mem_existingQuestionIds.1 hqid
      exact .inl ⟨hne, patch, hpatch, hsub _ hmem⟩
    · rcases hwhy with rfl | hempty | ⟨qid, hqid, hmem⟩ | hdiff
      · exact absurd (List.length_eq_zero_iff.1 hlength.symm) hne
      · exact absurd hempty hne
      · obtain ⟨⟨patch, hpatch, rfl⟩, -⟩ := mem_existingQuestionIds.1 hqid
        exact .inl ⟨hne, patch, hpatch, hsub _ hmem⟩
      · exact absurd hlength hdiff
    · exact .inr fun patch hpatch hhit => absurd hhit (hnone patch hpatch)
  · exact .inr fun patch hpatch _ => hsub _ (hall patch hpatch)

end Targets

theorem length_stripUnrecognizedPatchIds (patches : List Question) (ids : List String) :
    (stripUnrecognizedPatchIds patches ids).length = patches.length := List.length_map _

/-- Stripping takes away the ids that are not in the quiz, and no others. -/
theorem mem_existingQuestionIds_strip {patches : List Question} {ids : List String}
    {qid : String} : qid ∈ existingQuestionIds (stripUnrecognizedPatchIds patches ids) ↔
      qid ∈ existingQuestionIds patches ∧ qid ∈ ids := by
  have hstep : ∀ patch : Question, ((if patch.id ≠ "" ∧ patch.id ∉ ids then
      { patch with questionId := none } else patch).id = qid ∧ qid ≠ "") ↔
        (patch.id = qid ∧ qid ≠ "") ∧ qid ∈ ids := by
    intro patch
    split_ifs with hunknown
    · refine iff_of_false ?_ ?_
      · rintro ⟨hid, hne⟩
        exact hne (hid.symm.trans strip_empty)
      · rintro ⟨⟨rfl, -⟩, hmem⟩
        exact hunknown.2 hmem
    · constructor
      · rintro ⟨rfl, hne⟩
        refine ⟨⟨rfl, hne⟩, ?_⟩
        by_contra hnot
        exact hunknown ⟨hne, hnot⟩
      · exact fun h => h.1
  simp only [mem_existingQuestionIds, stripUnrecognizedPatchIds, List.mem_map,
    exists_exists_and_eq_and]
  constructor
  · rintro ⟨⟨patch, hpatch, hid⟩, hne⟩
    obtain ⟨⟨hid, -⟩, hmem⟩ := (hstep patch).1 ⟨hid, hne⟩
    exact ⟨⟨⟨patch, hpatch, hid⟩, hne⟩, hmem⟩
  · rintro ⟨⟨⟨patch, hpatch, hid⟩, hne⟩, hmem⟩
    exact ⟨⟨patch, hpatch, ((hstep patch).2 ⟨⟨hid, hne⟩, hmem⟩).1⟩, hne⟩

theorem existingQuestionIds_sortedByOrder {questions : List Question} {qid : String} :
    qid ∈ existingQuestionIds (sortedByOrder questions) ↔ qid ∈ existingQuestionIds questions := by
  simp only [mem_existingQuestionIds, mem_sortedByOrder]

/-- What is bound again names only questions of the quiz. -/
theorem rebound_subset (patches : List Question) {targets ids : List String}
    (htargets : strippedIds targets = targets) (hsub : ∀ qid ∈ targets, qid ∈ ids) :
    existingQuestionIds (bindPatchQuestionIds (stripUnrecognizedPatchIds patches ids) targets) ⊆
      ids := by
  intro qid hqid
  rcases bindPatchQuestionIds_cases (stripUnrecognizedPatchIds patches ids) htargets with
    ⟨heq, -⟩ | ⟨-, hall⟩
  · rw [heq] at hqid
    exact (mem_existingQuestionIds_strip.1 hqid).2
  · obtain ⟨⟨patch, hpatch, rfl⟩, -⟩ := mem_existingQuestionIds.1 hqid
    exact hsub _ (hall patch hpatch)

/-- A single patch that is bound to the only target hits it. -/
theorem single_hits {patch : Question} {targets : List String}
    (htargets : strippedIds targets = targets) (hone : targets.length = 1) :
    ∀ p ∈ bindPatchQuestionIds [patch] targets, p.id ∈ targets := by
  rcases bindPatchQuestionIds_cases [patch] htargets with ⟨heq, hwhy⟩ | ⟨-, hall⟩
  · rw [heq]
    rcases hwhy with hnil | rfl | ⟨qid, hqid, hmem⟩ | hdiff
    · cases hnil
    · cases hone
    · obtain ⟨⟨p, hp, rfl⟩, -⟩ := mem_existingQuestionIds.1 hqid
      intro q hq
      rw [List.mem_singleton.1 hq, ← List.mem_singleton.1 hp]
      exact hmem
    · exact absurd hone.symm hdiff
  · exact hall

theorem exists_byPosition {existing X : List Question} {targets : List String}
    (hone : targets.length = 1) {i : ℕ} {q : Question} (hi : i < X.length)
    (hget : existing[i]? = some q) (hq : q.id ∈ targets) :
    ((targets.head?.bind fun failedId => existing.findIdx? fun q => q.id = failedId).bind
      fun index => (sortedByOrder X)[index]?) ≠ none := by
  obtain ⟨t, rfl⟩ := List.length_eq_one_iff.1 hone
  rw [List.mem_singleton] at hq
  obtain ⟨hlt, rfl⟩ := List.getElem?_eq_some_iff.1 hget
  have hle : existing.findIdx (fun q => q.id = t) ≤ i := by
    by_contra hnot
    have hfalse := List.not_of_lt_findIdx (Nat.lt_of_not_le hnot)
    simp [hq] at hfalse
  have hfind : existing.findIdx? (fun q => q.id = t) =
      some (existing.findIdx fun q => q.id = t) :=
    List.findIdx?_eq_some_of_exists ⟨_, List.getElem_mem hlt, by simpa using hq⟩
  have hlen : existing.findIdx (fun q => q.id = t) < (sortedByOrder X).length := by
    rw [(sortedByOrder_perm X).length_eq]
    omega
  simp [hfind, List.getElem?_eq_getElem hlen]

/-- **A reply that stays on its targets is bound to nothing else.** -/
theorem normalizePatchPayload_hits {existing patches : List Question} {targetIds : List String}
    (h : StaysOnTargets existing patches targetIds) :
    HitsOnly (normalizePatchPayload patches (sortedByOrder existing)
      (orderedTargets existing targetIds) (strippedIds targetIds))
      (existingQuestionIds existing) (strippedIds targetIds) := by
  have htargets := strippedIds_orderedTargets existing targetIds
  have hsub : ∀ qid ∈ orderedTargets existing targetIds, qid ∈ strippedIds targetIds :=
    fun qid hqid => (mem_orderedTargets.1 hqid).2
  have hids : ∀ qid ∈ orderedTargets existing targetIds,
      qid ∈ existingQuestionIds (sortedByOrder existing) := fun qid hqid =>
    existingQuestionIds_sortedByOrder.2 (mem_orderedTargets.1 hqid).1
  have hlen := length_stripUnrecognizedPatchIds patches
    (existingQuestionIds (sortedByOrder existing))
  unfold StaysOnTargets at h
  generalize orderedTargets existing targetIds = targets at *
  -- the patches as they come, and those stripped of unknown ids, are bound alike
  have hbound : ∀ X : List Question, X.length = patches.length →
      (∀ qid ∈ existingQuestionIds X, qid ∈ existingQuestionIds patches) →
      (∀ qid ∈ existingQuestionIds patches, qid ∈ targets → qid ∈ existingQuestionIds X) →
      ¬ HasPlace existing patches targets →
      (targets ≠ [] ∧ ∃ patch ∈ bindPatchQuestionIds X targets, patch.id ∈ strippedIds targetIds) ∨
        HitsOnly (bindPatchQuestionIds X targets) (existingQuestionIds existing)
          (strippedIds targetIds) := by
    intro X hlength hnamed hkeep hnot
    refine bound_hits htargets hsub ?_
    rcases h with ⟨hnone, -⟩ | ⟨hne, ⟨qid, hqid, hmem⟩ | hcount | hplace⟩
    · refine .inr fun patch hpatch hhit => ?_
      have hne := (mem_existingQuestionIds.1 hhit).2
      exact hnone _ (hnamed _ (id_mem_existingQuestionIds hpatch hne)) hhit
    · exact .inl ⟨hne, .inl ⟨qid, hkeep qid hqid hmem, hmem⟩⟩
    · exact .inl ⟨hne, .inr (by rw [hlength, hcount])⟩
    · exact absurd hplace hnot
  unfold normalizePatchPayload
  dsimp only
  by_cases hknown : existingQuestionIds (bindPatchQuestionIds patches targets) ≠ [] ∧
      existingQuestionIds (bindPatchQuestionIds patches targets) ⊆
        existingQuestionIds (sortedByOrder existing)
  · rw [if_pos hknown]
    apply hitsOnly_targetedOrAll
    rcases bindPatchQuestionIds_cases patches htargets with ⟨heq, -⟩ | ⟨-, hall⟩
    · refine hbound patches rfl (fun _ hq => hq) (fun _ hq _ => hq) ?_
      rintro ⟨⟨qid, hqid, hunknown⟩, -⟩
      rw [heq] at hknown
      exact hunknown (existingQuestionIds_sortedByOrder.1 (hknown.2 hqid))
    · exact .inr fun patch hpatch _ => hsub _ (hall patch hpatch)
  · rw [if_neg hknown, sortedByOrder_idem]
    split
    · rename_i patch hposition
      by_cases hone : targets.length = 1
      · exact fun p hp _ => hsub _ (single_hits htargets hone p hp)
      · rw [if_neg fun hboth => hone hboth.1] at hposition
        cases hposition
    · rename_i hposition
      have hnoplace : ¬ HasPlace existing patches targets := by
        rintro ⟨-, hone, hmany, i, q, hi, hget, hq⟩
        rw [if_pos ⟨hone, by rw [hlen]; exact hmany⟩] at hposition
        exact exists_byPosition hone (by rw [hlen]; exact hi) hget hq hposition
      have hrebound := hbound _ hlen
        (fun qid hqid => (mem_existingQuestionIds_strip.1 hqid).1)
        (fun qid hqid hmem => mem_existingQuestionIds_strip.2 ⟨hqid, hids qid hmem⟩) hnoplace
      have hsubset := rebound_subset patches htargets hids
      split_ifs with hagain hwhole hsome
      · exact hitsOnly_targetedOrAll hrebound
      · exact fun p hp _ => by simpa using (List.mem_filter.1 hp).2
      · rw [hlen, (sortedByOrder_perm existing).length_eq] at hwhole
        rcases h with ⟨-, hcount⟩ | ⟨hne, -⟩
        · exact absurd hwhole (hcount (not_not.1 hsome))
        · exact absurd hne hsome
      · rcases hrebound with ⟨-, patch, hpatch, hmem⟩ | hhits
        · refine absurd ⟨?_, hsubset⟩ hagain
          have hne := (mem_strippedIds.1 hmem).2
          exact List.ne_nil_of_mem (id_mem_existingQuestionIds hpatch hne)
        · exact hhits

/-- **A reply that stays on its targets changes nothing else.** -/
theorem prepareQuestionPatchesForMerge_sameOutside {existing patches : List Question}
    {targetIds : List String} (h : StaysOnTargets existing patches targetIds) :
    SameOutside (strippedIds targetIds) existing
      (prepareQuestionPatchesForMerge existing patches targetIds) := by
  unfold prepareQuestionPatchesForMerge
  dsimp only
  split_ifs
  · exact SameOutside.refl _ _
  · exact SameOutside.refl _ _
  · exact mergeQuestionPatches_sameOutside (normalizePatchPayload_hits h)

end StudyAgent.Quiz
