import StudyAgent.Quiz.Patches
import StudyAgent.Quiz.PruneExact
import StudyAgent.Quiz.Regeneration

/-!
# What question patches touch

A question of the patched quiz says what the last prepared patch with its id says.  What a patch
can touch is found by saying it in other words: only the question whose id it carries may then
change, and only targets may change at all.

Main results:

* `map_bare_prepareQuestionPatchesForMerge` — what a patched quiz says.
* `lastWithId_preparedPatches` — whose words the prepared patches carry, where some name a question.
* `patchFrame_iff` — **when patches touch their own questions only, and no others but targets.**
-/

namespace StudyAgent.Quiz

open Py

/-! ## What a patched quiz says -/

/-- A question that says something else. -/
def Question.saying (q : Question) (c : Content) : Question := { q with toContent := c }

/-- What is said under an id once patches are merged. -/
def patchedContent (patches : List Question) (q : Question) : Content :=
  ((lastWithId patches q.id).getD q).toContent

theorem lastWithId_concat (patches : List Question) (patch : Question) (qid : String) :
    lastWithId (patches ++ [patch]) qid =
      if patch.id = qid then some patch else lastWithId patches qid := by
  unfold lastWithId
  rw [List.reverse_append, List.reverse_singleton, List.singleton_append]
  by_cases h : patch.id = qid
  · rw [List.find?_cons_of_pos (by simpa using h), if_pos h]
  · rw [List.find?_cons_of_neg (by simpa using h), if_neg h]

theorem lastWithId_eq_none {patches : List Question} {qid : String} :
    lastWithId patches qid = none ↔ ∀ patch ∈ patches, patch.id ≠ qid := by
  simp [lastWithId]

theorem lastIndexOf_eq_none {questions : List Question} {qid : String}
    (h : lastIndexOf questions qid = none) : ∀ q ∈ questions, q.id ≠ qid := by
  intro q hq hid
  obtain ⟨i, hi⟩ := List.mem_iff_getElem?.1 hq
  unfold lastIndexOf at h
  rw [Option.map_eq_none_iff, List.find?_eq_none] at h
  refine h (q, i) (List.mem_reverse.2 (List.mem_zipIdx_iff_getElem?.2 hi)) ?_
  simpa using hid

theorem getElem_id_inj {questions : List Question} (hids : DistinctIds questions) {i j : ℕ}
    {p q : Question} (hi : questions[i]? = some p) (hj : questions[j]? = some q)
    (h : p.id = q.id) : i = j := by
  obtain ⟨hlt, rfl⟩ := List.getElem?_eq_some_iff.1 hi
  obtain ⟨hlt', rfl⟩ := List.getElem?_eq_some_iff.1 hj
  have hnodup := List.nodup_iff_injective_get.1 hids.nodup
  have hget : (questions.map Question.id).get ⟨i, by simpa using hlt⟩ =
      (questions.map Question.id).get ⟨j, by simpa using hlt'⟩ := by simpa using h
  exact congrArg Fin.val (hnodup hget)

/-- One patch more. -/
theorem map_bare_patchStep {questions merged patches : List Question} {patch : Question}
    (hids : DistinctIds questions)
    (h : merged.map Question.bare = questions.map fun q => (q.id, patchedContent patches q)) :
    (patchStep questions merged patch).map Question.bare =
      questions.map fun q => (q.id, patchedContent (patches ++ [patch]) q) := by
  have hlength : merged.length = questions.length := by simpa using congrArg List.length h
  have hother : (∀ q ∈ questions, q.id ≠ patch.id) →
      merged.map Question.bare =
        questions.map fun q => (q.id, patchedContent (patches ++ [patch]) q) := by
    intro hnot
    rw [h]
    refine List.map_congr_left fun q hq => ?_
    unfold patchedContent
    rw [lastWithId_concat, if_neg fun hid => hnot q hq hid.symm]
  unfold patchStep
  split_ifs with hblank
  · exact hother fun q hq hid => hids.present q hq (hid.trans hblank)
  · cases hindex : lastIndexOf questions patch.id with
    | none => exact hother (lastIndexOf_eq_none hindex)
    | some i =>
      obtain ⟨p, hget, hid⟩ := lastIndexOf_eq_some hindex
      refine List.ext_getElem (by simp [hlength]) fun j hj hj' => ?_
      have hjm : j < merged.length := by simpa using hj
      have hjq : j < questions.length := by simpa using hj'
      simp only [List.getElem_map, List.getElem_modify]
      split_ifs with hij
      · -- the slot of the patch
        subst hij
        obtain rfl : questions[i] = p := by
          rw [List.getElem?_eq_getElem hjq] at hget
          exact Option.some.inj hget
        have hword : patchedContent (patches ++ [patch]) questions[i] = patch.toContent := by
          unfold patchedContent
          rw [lastWithId_concat, if_pos hid.symm, Option.getD_some]
        rw [hword, hid]
        exact Prod.ext (strip_strip _) rfl
      · -- any other slot
        have hne : patch.id ≠ questions[j].id := by
          intro heq
          exact hij (getElem_id_inj hids hget (List.getElem?_eq_getElem hjq) (hid.trans heq))
        have hsame := congrArg (fun l => l[j]?) h
        simp only [List.getElem?_map, List.getElem?_eq_getElem hjm,
          List.getElem?_eq_getElem hjq, Option.map_some, Option.some.injEq] at hsame
        rw [hsame]
        unfold patchedContent
        rw [lastWithId_concat, if_neg hne]

/-- **What patches do to a quiz**: each question says what the last patch with its id says. -/
theorem map_bare_mergeQuestionPatches {questions : List Question} (hids : DistinctIds questions)
    (patches : List Question) :
    (mergeQuestionPatches questions patches).map Question.bare =
      questions.map fun q => (q.id, patchedContent patches q) := by
  unfold mergeQuestionPatches
  rw [map_bare_reindexQuestions]
  induction patches using List.reverseRecOn with
  | nil => rfl
  | append_singleton patches patch ih =>
    rw [List.foldl_append, List.foldl_cons, List.foldl_nil]
    exact map_bare_patchStep hids ih

/-! ## Patches in other words -/

/-- The patches, one of which says something else. -/
def reworded (patches : List Question) (i : ℕ) (c : Content) : List Question :=
  patches.modify i fun patch => patch.saying c

section

variable {patches : List Question} {i : ℕ} {c : Content}

@[simp] theorem length_reworded : (reworded patches i c).length = patches.length :=
  List.length_modify ..

@[simp] theorem existingQuestionIds_reworded :
    existingQuestionIds (reworded patches i c) = existingQuestionIds patches := by
  have hmap : (reworded patches i c).map Question.id = patches.map Question.id := by
    refine List.ext_getElem (by simp) fun j hj hj' => ?_
    simp only [reworded, List.getElem_map, List.getElem_modify]
    split_ifs
    · rfl
    · rfl
  unfold existingQuestionIds
  rw [hmap]

theorem lastWithId_cons (patch : Question) (patches : List Question) (qid : String) :
    lastWithId (patch :: patches) qid =
      (lastWithId patches qid).or (if patch.id = qid then some patch else none) := by
  unfold lastWithId
  rw [List.reverse_cons, List.find?_append]
  by_cases h : patch.id = qid
  · simp [h]
  · simp [h]

/-- Only the id of the patch is spoken of in other words. -/
theorem lastWithId_reworded {patch : Question} (hget : patches[i]? = some patch) {qid : String}
    (hne : patch.id ≠ qid) : lastWithId (reworded patches i c) qid = lastWithId patches qid := by
  unfold reworded
  induction patches generalizing i with
  | nil => cases hget
  | cons p patches ih =>
    cases i with
    | zero =>
      obtain rfl : p = patch := by simpa using hget
      have hsaying : (p.saying c).id ≠ qid := hne
      rw [List.modify_zero_cons, lastWithId_cons, lastWithId_cons, if_neg hne, if_neg hsaying]
    | succ i =>
      rw [List.getElem?_cons_succ] at hget
      rw [List.modify_succ_cons, lastWithId_cons, lastWithId_cons, ih hget]

/-- Each place among the sorted patches is that of one patch, whatever the patches say. -/
theorem exists_origin {j : ℕ} (hj : j < patches.length) :
    ∃ k patch, patches[k]? = some patch ∧ (sortedByOrder patches)[j]? = some patch ∧
      ∀ i c, (sortedByOrder (reworded patches i c))[j]? =
        some (if i = k then patch.saying c else patch) := by
  let tagged := patches.zipIdx.insertionSort fun a b => a.1.orderIndex ≤ b.1.orderIndex
  have hsort : ∀ g : Question × ℕ → Question, (∀ a, (g a).orderIndex = a.1.orderIndex) →
      sortedByOrder (patches.zipIdx.map g) = tagged.map g := by
    intro g hg
    refine (List.map_insertionSort _ _ g _ fun a _ b _ => ?_).symm
    rw [hg, hg]
  have hlength : j < tagged.length := by
    rw [List.length_insertionSort, List.length_zipIdx]
    exact hj
  obtain ⟨⟨patch, k⟩, htag⟩ : ∃ a, tagged[j]? = some a := ⟨_, List.getElem?_eq_getElem hlength⟩
  have hmem : (patch, k) ∈ patches.zipIdx :=
    (List.mem_insertionSort _).1 (List.mem_of_getElem? htag)
  refine ⟨k, patch, List.mem_zipIdx_iff_getElem?.1 hmem, ?_, fun i c => ?_⟩
  · have hfst := hsort Prod.fst fun _ => rfl
    rw [List.zipIdx_map_fst] at hfst
    rw [hfst, List.getElem?_map, htag]
    rfl
  · have hmap : reworded patches i c =
        patches.zipIdx.map fun a => if i = a.2 then a.1.saying c else a.1 := by
      refine List.ext_getElem (by simp) fun l hl hl' => ?_
      simp [reworded, List.getElem_modify]
    rw [hmap, hsort _ fun a => by split_ifs <;> rfl, List.getElem?_map, htag]
    rfl

end

/-! ## Kinds of replies -/

section

variable (existing patches : List Question) (targetIds : List String)

/-- Some patch has the id of a question. -/
def NamesQuestion : Prop :=
  ∃ qid ∈ existingQuestionIds patches, qid ∈ existingQuestionIds existing

/-- As many patches as targets, none of which has the id of a target while some have those of
other questions: they are given the targets' ids. -/
def Overwrites : Prop :=
  NamesQuestion existing patches ∧ orderedTargets existing targetIds ≠ [] ∧
    patches.length = (orderedTargets existing targetIds).length ∧
    ∀ qid ∈ existingQuestionIds patches, qid ∉ orderedTargets existing targetIds

/-- The patch at the place of the only target is taken for it. -/
def TakesPlace (target : String) (patch : Question) : Prop :=
  orderedTargets existing targetIds = [target] ∧ 1 < patches.length ∧
    (∃ qid ∈ existingQuestionIds patches, qid ∉ existingQuestionIds existing) ∧
    ∃ (j : ℕ) (q : Question), (sortedByOrder existing)[j]? = some q ∧ q.id = target ∧
      (sortedByOrder patches)[j]? = some patch

/-- The patch at the place of the only target has the id of another question. -/
def Displaces : Prop :=
  ∃ target patch, TakesPlace existing patches targetIds target patch ∧ patch.id ≠ target ∧
    patch.id ∈ existingQuestionIds existing

/-- The patches say what the quiz says: under their ids or, where they name no question, in
their order. -/
def RepeatsQuiz : Prop :=
  (NamesQuestion existing patches ∧ ∀ q ∈ existing, patchedContent patches q = q.toContent) ∨
  (¬ NamesQuestion existing patches ∧
    (sortedByOrder patches).map Question.toContent =
      (sortedByOrder existing).map Question.toContent)

/-- The patches as they are merged. -/
def preparedPatches : List Question :=
  normalizePatchPayload patches (sortedByOrder existing) (orderedTargets existing targetIds)
    (strippedIds targetIds)

end

section

variable {existing patches : List Question} {targetIds : List String}

theorem preparedPatches_nil : preparedPatches existing [] targetIds = [] := by
  unfold preparedPatches normalizePatchPayload
  simp [bindPatchQuestionIds, stripUnrecognizedPatchIds, existingQuestionIds,
    bindPatchesByOrderIndex, sortedByOrder]

/-- **What a patched quiz says.** -/
theorem map_bare_prepareQuestionPatchesForMerge (hids : DistinctIds existing) :
    (prepareQuestionPatchesForMerge existing patches targetIds).map Question.bare =
      existing.map fun q : Question =>
        (q.id, patchedContent (preparedPatches existing patches targetIds) q) := by
  have hnone : existing.map Question.bare =
      existing.map fun q : Question => (q.id, patchedContent [] q) := rfl
  unfold prepareQuestionPatchesForMerge
  dsimp only
  split_ifs with hnil hempty
  · rw [hnil, preparedPatches_nil]
    exact hnone
  · rw [preparedPatches, hempty]
    exact hnone
  · exact map_bare_mergeQuestionPatches hids _

/-- Two quizzes that say things under the same ids. -/
theorem sameOutside_iff_of_map_bare {touched : List String} {l a b : List Question}
    {f g : Question → Content} (ha : a.map Question.bare = l.map fun q => (q.id, f q))
    (hb : b.map Question.bare = l.map fun q => (q.id, g q)) :
    SameOutside touched a b ↔ ∀ q ∈ l, q.id ∉ touched → g q = f q := by
  unfold SameOutside
  induction l generalizing a b with
  | nil =>
    rw [List.map_nil, List.map_eq_nil_iff] at ha hb
    rw [ha, hb]
    simp
  | cons q l ih =>
    obtain ⟨p, a, rfl, hp, ha⟩ := List.map_eq_cons_iff.1 ha
    obtain ⟨r, b, rfl, hr, hb⟩ := List.map_eq_cons_iff.1 hb
    rw [List.forall₂_cons, List.forall_mem_cons, ih ha hb]
    have hpid : p.id = q.id := congrArg Prod.fst hp
    have hrid : r.id = q.id := congrArg Prod.fst hr
    have hpsays : p.toContent = f q := congrArg Prod.snd hp
    have hrsays : r.toContent = g q := congrArg Prod.snd hr
    rw [hpid, hrid, hpsays, hrsays]
    exact and_congr_left fun _ => and_iff_right rfl

/-! ## Whose words are taken -/

theorem nodup_orderedTargets (hids : DistinctIds existing) :
    (orderedTargets existing targetIds).Nodup := by
  unfold orderedTargets
  exact (((sortedByOrder_perm existing).map Question.id).nodup_iff.2 hids.nodup).filter _

theorem mem_orderedTargets_iff {qid : String} (h : qid ∈ existingQuestionIds existing) :
    qid ∈ orderedTargets existing targetIds ↔ qid ∈ strippedIds targetIds :=
  mem_orderedTargets.trans (and_iff_right h)

theorem id_withId (q : Question) (qid : String) : (q.withId qid).id = strip qid := rfl

/-- Patches that are given different ids, one by one. -/
theorem lastWithId_zipWith {κ : Type} {key : κ → String} {f : Question → κ → Question} {ks : List κ}
    (hkey : ∀ p, ∀ k ∈ ks, (f p k).id = key k) (hnodup : (ks.map key).Nodup) {i : ℕ}
    {patch : Question} {k : κ} (hget : patches[i]? = some patch) (hk : ks[i]? = some k) :
    lastWithId (patches.zipWith f ks) (key k) = some (f patch k) := by
  induction patches generalizing ks i with
  | nil => cases hget
  | cons p patches ih =>
    cases ks with
    | nil => cases hk
    | cons k' ks =>
      obtain ⟨hnot, hnodup⟩ := List.nodup_cons.1 hnodup
      have hrest : ∀ p, ∀ k ∈ ks, (f p k).id = key k :=
        fun p k hmem => hkey p k (List.mem_cons_of_mem _ hmem)
      rw [List.zipWith_cons_cons, lastWithId_cons]
      cases i with
      | zero =>
        obtain rfl : p = patch := by simpa using hget
        obtain rfl : k' = k := by simpa using hk
        have hnone : lastWithId (patches.zipWith f ks) (key k') = none := by
          refine lastWithId_eq_none.2 fun q hq hid => ?_
          obtain ⟨l, hl, rfl⟩ := List.mem_iff_getElem.1 hq
          have hl' : l < ks.length := by
            rw [List.length_zipWith] at hl
            omega
          rw [List.getElem_zipWith, hrest _ _ (List.getElem_mem hl')] at hid
          exact hnot (hid ▸ List.mem_map_of_mem (List.getElem_mem hl'))
        rw [hnone, Option.none_or, if_pos (hkey p k' List.mem_cons_self)]
      | succ i =>
        rw [List.getElem?_cons_succ] at hget hk
        rw [ih hrest hnodup hget hk, Option.some_or]

theorem lastWithId_zipWith_withId {targets : List String} (hnodup : targets.Nodup)
    (hstrip : ∀ t ∈ targets, strip t = t) {i : ℕ} {patch : Question} {target : String}
    (hget : patches[i]? = some patch) (htarget : targets[i]? = some target) :
    lastWithId (patches.zipWith Question.withId targets) target =
      some (patch.withId target) := by
  have hkey : ∀ (p : Question), ∀ t ∈ targets, (p.withId t).id = strip t :=
    fun p t _ => id_withId p t
  have hmap : targets.map strip = targets :=
    (List.map_congr_left hstrip).trans (List.map_id' targets)
  have htaken := lastWithId_zipWith hkey (hmap.symm ▸ hnodup) hget htarget
  rwa [hstrip target (List.mem_of_getElem? htarget)] at htaken

theorem lastWithId_filter (idSet : List String) (qid : String) :
    lastWithId (patches.filter fun patch => patch.id ∈ idSet) qid =
      if qid ∈ idSet then lastWithId patches qid else none := by
  induction patches with
  | nil => simp [lastWithId]
  | cons p patches ih =>
    rw [lastWithId_cons]
    by_cases hp : p.id ∈ idSet
    · rw [List.filter_cons_of_pos (by simpa using hp), lastWithId_cons, ih]
      split_ifs with hqid hid hid
      · rfl
      · rfl
      · exact absurd (hid ▸ hp) hqid
      · rfl
    · rw [List.filter_cons_of_neg (by simpa using hp), ih]
      split_ifs with hqid hid
      · exact absurd (hid ▸ hqid) hp
      · exact (Option.or_none).symm
      · rfl

/-- Targeted patches are taken alone where there are some. -/
theorem lastWithId_targetedOrAll {targets : List String}
    (hsub : ∀ t ∈ targets, t ∈ strippedIds targetIds)
    (hpatches : ∀ patch ∈ patches, patch.id ∈ strippedIds targetIds → patch.id ∈ targets)
    {qid : String} (hqid : qid ∈ targets ↔ qid ∈ strippedIds targetIds) :
    lastWithId (targetedOrAll patches targets (strippedIds targetIds)) qid =
      if targets ≠ [] ∧ (∃ t ∈ existingQuestionIds patches, t ∈ targets) ∧ qid ∉ targets then none
      else lastWithId patches qid := by
  unfold targetedOrAll
  dsimp only
  by_cases hnil : targets = []
  · rw [if_pos hnil, if_neg fun h => h.1 hnil]
  · rw [if_neg hnil]
    by_cases hsome : ∃ t ∈ existingQuestionIds patches, t ∈ targets
    · obtain ⟨t, ht, hmem⟩ := hsome
      obtain ⟨⟨patch, hpatch, rfl⟩, -⟩ := mem_existingQuestionIds.1 ht
      have hin : patch ∈ patches.filter fun patch => patch.id ∈ strippedIds targetIds :=
        List.mem_filter.2 ⟨hpatch, by simpa using hsub _ hmem⟩
      rw [if_neg (List.ne_nil_of_mem hin), lastWithId_filter]
      by_cases hq : qid ∈ targets
      · rw [if_pos (hqid.1 hq), if_neg fun h => h.2.2 hq]
      · rw [if_neg fun h => hq (hqid.2 h), if_pos ⟨hnil, ⟨patch.id, ht, hmem⟩, hq⟩]
    · have hnone : (patches.filter fun patch => patch.id ∈ strippedIds targetIds) = [] := by
        rw [List.filter_eq_nil_iff]
        intro patch hpatch hmem
        have hid : patch.id ∈ strippedIds targetIds := by simpa using hmem
        exact hsome ⟨patch.id, id_mem_existingQuestionIds hpatch (mem_strippedIds.1 hid).2,
          hpatches patch hpatch hid⟩
      rw [if_pos hnone, if_neg fun h => hsome h.2.1]

/-- Stripping leaves the questions of the quiz with the patches that name them. -/
theorem lastWithId_stripUnrecognized {ids : List String} {qid : String} (hqid : qid ∈ ids)
    (hne : qid ≠ "") :
    lastWithId (stripUnrecognizedPatchIds patches ids) qid = lastWithId patches qid := by
  unfold stripUnrecognizedPatchIds
  induction patches with
  | nil => rfl
  | cons p patches ih =>
    rw [List.map_cons, lastWithId_cons, lastWithId_cons, ih]
    by_cases hunknown : p.id ≠ "" ∧ p.id ∉ ids
    · have hblank : ({ p with questionId := none } : Question).id ≠ qid := by
        intro hid
        exact hne (hid.symm.trans strip_empty)
      have hother : p.id ≠ qid := by
        intro hid
        exact hunknown.2 (hid ▸ hqid)
      rw [if_pos hunknown, if_neg hblank, if_neg hother]
    · rw [if_neg hunknown]

theorem strip_of_mem_existing {questions : List Question} {qid : String}
    (h : qid ∈ existingQuestionIds questions) : strip qid = qid := by
  obtain ⟨⟨q, -, rfl⟩, -⟩ := mem_existingQuestionIds.1 h
  exact strip_strip _

/-- **Overwritten**: each patch is given the id of a target. -/
theorem preparedPatches_of_overwrites (h : Overwrites existing patches targetIds) :
    preparedPatches existing patches targetIds =
      patches.zipWith Question.withId (orderedTargets existing targetIds) := by
  obtain ⟨-, hne, hcount, hnone⟩ := h
  have htargets := strippedIds_orderedTargets existing targetIds
  have hpatches : patches ≠ [] := by
    rintro rfl
    exact hne (List.length_eq_zero_iff.1 hcount.symm)
  have hnames : ¬ ∃ qid ∈ existingQuestionIds patches,
      qid ∈ orderedTargets existing targetIds := by
    rintro ⟨qid, hqid, hmem⟩
    exact hnone qid hqid hmem
  have hbound : bindPatchQuestionIds patches (orderedTargets existing targetIds) =
      patches.zipWith Question.withId (orderedTargets existing targetIds) := by
    unfold bindPatchQuestionIds
    rw [htargets]
    dsimp only
    rw [if_neg (not_or.2 ⟨hpatches, hne⟩), if_neg hnames, if_pos hcount]
  have hall : ∀ patch ∈ bindPatchQuestionIds patches (orderedTargets existing targetIds),
      patch.id ∈ orderedTargets existing targetIds := by
    rcases bindPatchQuestionIds_cases patches htargets with
      ⟨-, hnil | hnil | hmem | hlength⟩ | ⟨-, hall⟩
    · exact absurd hnil hpatches
    · exact absurd hnil hne
    · exact absurd hmem hnames
    · exact absurd hcount hlength
    · exact hall
  have hmany : bindPatchQuestionIds patches (orderedTargets existing targetIds) ≠ [] := by
    intro hnil
    have hlength := congrArg List.length (hbound.symm.trans hnil)
    rw [List.length_zipWith, ← hcount, min_self, List.length_nil] at hlength
    exact hpatches (List.length_eq_zero_iff.1 hlength)
  have hthere : ∀ patch ∈ bindPatchQuestionIds patches (orderedTargets existing targetIds),
      patch.id ∈ existingQuestionIds existing := fun patch hpatch =>
    (mem_orderedTargets.1 (hall patch hpatch)).1
  obtain ⟨patch, hpatch⟩ := List.exists_mem_of_ne_nil _ hmany
  unfold preparedPatches normalizePatchPayload
  dsimp only
  rw [if_pos]
  · unfold targetedOrAll
    dsimp only
    rw [if_neg hne, List.filter_eq_self.2, if_neg hmany, hbound]
    intro patch hpatch
    simpa using (mem_orderedTargets.1 (hall patch hpatch)).2
  · refine ⟨List.ne_nil_of_mem (id_mem_existingQuestionIds hpatch
      (mem_existingQuestionIds.1 (hthere patch hpatch)).2), ?_⟩
    intro qid hqid
    obtain ⟨⟨p, hp, rfl⟩, -⟩ := mem_existingQuestionIds.1 hqid
    exact existingQuestionIds_sortedByOrder.2 (hthere p hp)

theorem sortedByOrder_strip (ids : List String) :
    sortedByOrder (stripUnrecognizedPatchIds patches ids) =
      stripUnrecognizedPatchIds (sortedByOrder patches) ids := by
  refine (List.map_insertionSort _ _ _ _ fun p _ q _ => ?_).symm
  have horder : ∀ r : Question, (if r.id ≠ "" ∧ r.id ∉ ids then
      { r with questionId := none } else r).orderIndex = r.orderIndex := by
    intro r
    split_ifs
    · rfl
    · rfl
  rw [horder, horder]

theorem findIdx?_id {questions : List Question} (hids : DistinctIds questions) {j : ℕ}
    {q : Question} (hget : questions[j]? = some q) :
    (questions.findIdx? fun p => p.id = q.id) = some j := by
  obtain ⟨hlt, rfl⟩ := List.getElem?_eq_some_iff.1 hget
  rw [List.findIdx?_eq_some_iff_getElem]
  refine ⟨hlt, by simp, fun k hk => ?_⟩
  have hk' : k < questions.length := hk.trans hlt
  rw [Bool.not_eq_true, decide_eq_false_iff_not]
  intro hid
  have heq := getElem_id_inj hids (List.getElem?_eq_getElem hk') hget hid
  omega

/-- A single patch for a single target. -/
theorem bind_single (patch : Question) {target : String} (h : strippedIds [target] = [target]) :
    ∃ p, bindPatchQuestionIds [patch] [target] = [p] ∧ p.id = target ∧
      p.toContent = patch.toContent := by
  have hmem : target ∈ strippedIds [target] := by
    rw [h]
    exact List.mem_singleton_self target
  obtain ⟨⟨raw, hraw, hstrip⟩, hne⟩ := mem_strippedIds.1 hmem
  rw [List.mem_singleton.1 hraw] at hstrip
  have hnames : (∃ qid ∈ existingQuestionIds [patch], qid ∈ [target]) ↔ patch.id = target := by
    simp only [mem_existingQuestionIds, List.mem_singleton, exists_eq_left, exists_eq_right]
    exact and_iff_left hne
  unfold bindPatchQuestionIds
  rw [h]
  dsimp only
  rw [if_neg (by simp)]
  by_cases hid : patch.id = target
  · rw [if_pos (hnames.2 hid)]
    exact ⟨patch, rfl, hid, rfl⟩
  · rw [if_neg (hnames.not.2 hid), if_pos (show [patch].length = [target].length from rfl)]
    exact ⟨patch.withId target, rfl, hstrip, rfl⟩

/-- **Placed**: one patch is taken, for the only target. -/
theorem preparedPatches_of_takesPlace (hids : DistinctIds existing) {target : String}
    {patch : Question} (h : TakesPlace existing patches targetIds target patch) :
    ∃ p, preparedPatches existing patches targetIds = [p] ∧ p.id = target ∧
      p.toContent = patch.toContent := by
  obtain ⟨hone, hmany, ⟨unknown, hunknown, hnot⟩, j, q, hq, rfl, hpatch⟩ := h
  have htargets := strippedIds_orderedTargets existing targetIds
  have hsorted : DistinctIds (sortedByOrder existing) :=
    distinctIds_of_map_id ((sortedByOrder_perm existing).map _) hids
  have hbound : bindPatchQuestionIds patches [q.id] = patches := by
    rcases bindPatchQuestionIds_cases patches (hone ▸ htargets) with ⟨heq, -⟩ | ⟨hlength, -⟩
    · exact heq
    · rw [List.length_singleton] at hlength
      omega
  unfold preparedPatches normalizePatchPayload
  rw [hone, hbound]
  dsimp only
  rw [if_neg, length_stripUnrecognizedPatchIds, if_pos ⟨rfl, hmany⟩, sortedByOrder_idem,
    sortedByOrder_strip]
  · rw [List.head?_cons, Option.bind_some, findIdx?_id hsorted hq, Option.bind_some]
    unfold stripUnrecognizedPatchIds
    rw [List.getElem?_map, hpatch, Option.map_some]
    dsimp only
    obtain ⟨p, hbind, hid, hwords⟩ := bind_single _ (hone ▸ htargets)
    refine ⟨p, hbind, hid, hwords.trans ?_⟩
    split_ifs
    · rfl
    · rfl
  · rintro ⟨-, hsub⟩
    exact hnot (existingQuestionIds_sortedByOrder.1 (hsub hunknown))

/-- A place among the patches is that of the only target. -/
theorem exists_takesPlace {patch : Question} {ids : List String}
    (hunknown : ∃ qid ∈ existingQuestionIds patches, qid ∉ existingQuestionIds existing)
    (hone : (orderedTargets existing targetIds).length = 1) (hmany : 1 < patches.length)
    (h : (((orderedTargets existing targetIds).head?.bind fun failedId =>
      (sortedByOrder existing).findIdx? fun q => q.id = failedId).bind fun index =>
        (sortedByOrder (stripUnrecognizedPatchIds patches ids))[index]?) = some patch) :
    ∃ target p, TakesPlace existing patches targetIds target p := by
  obtain ⟨target, htarget⟩ := List.length_eq_one_iff.1 hone
  rw [htarget, List.head?_cons, Option.bind_some, sortedByOrder_strip] at h
  obtain ⟨j, hj, hget⟩ := Option.bind_eq_some_iff.1 h
  obtain ⟨hlt, hid, -⟩ := List.findIdx?_eq_some_iff_getElem.1 hj
  unfold stripUnrecognizedPatchIds at hget
  rw [List.getElem?_map] at hget
  obtain ⟨p, hp, -⟩ := Option.map_eq_some_iff.1 hget
  exact ⟨target, p, htarget, hmany, hunknown, j, _, List.getElem?_eq_getElem hlt,
    by simpa using hid, hp⟩

/-- **By their ids**: unless ids are overwritten or a place is taken, a question says what the
last patch with its id says, except that targets keep the others out. -/
theorem lastWithId_preparedPatches (hnames : NamesQuestion existing patches)
    (hover : ¬ Overwrites existing patches targetIds)
    (hplace : ∀ target patch, ¬ TakesPlace existing patches targetIds target patch) {qid : String}
    (hqid : qid ∈ existingQuestionIds existing) :
    lastWithId (preparedPatches existing patches targetIds) qid =
      if orderedTargets existing targetIds ≠ [] ∧
        (∃ t ∈ existingQuestionIds patches, t ∈ orderedTargets existing targetIds) ∧
        qid ∉ orderedTargets existing targetIds then none
      else lastWithId patches qid := by
  have htargets := strippedIds_orderedTargets existing targetIds
  have hsub : ∀ t ∈ orderedTargets existing targetIds, t ∈ strippedIds targetIds :=
    fun t ht => (mem_orderedTargets.1 ht).2
  have hself : ∀ X : List Question, X.length = patches.length →
      (∀ qid ∈ existingQuestionIds patches, qid ∈ orderedTargets existing targetIds →
        qid ∈ existingQuestionIds X) →
      bindPatchQuestionIds X (orderedTargets existing targetIds) = X := by
    intro X hlength hkeep
    unfold bindPatchQuestionIds
    rw [htargets]
    dsimp only
    split_ifs with hempty hsome hcount
    · rfl
    · rfl
    · refine absurd ⟨hnames, (not_or.1 hempty).2, hlength ▸ hcount, fun t ht hmem => ?_⟩ hover
      exact hsome ⟨t, hkeep t ht hmem, hmem⟩
    · rfl
  obtain ⟨named, hnamed, hthere⟩ := hnames
  have hpatches : ∀ X : List Question,
      existingQuestionIds X ⊆ existingQuestionIds (sortedByOrder existing) →
      ∀ patch ∈ X, patch.id ∈ strippedIds targetIds →
        patch.id ∈ orderedTargets existing targetIds := by
    intro X hX patch hpatch hid
    refine (mem_orderedTargets_iff (existingQuestionIds_sortedByOrder.1 (hX ?_))).2 hid
    exact id_mem_existingQuestionIds hpatch (mem_strippedIds.1 hid).2
  unfold preparedPatches normalizePatchPayload
  dsimp only
  rw [hself patches rfl fun _ h _ => h]
  by_cases hknown : existingQuestionIds patches ≠ [] ∧
      existingQuestionIds patches ⊆ existingQuestionIds (sortedByOrder existing)
  · rw [if_pos hknown]
    exact lastWithId_targetedOrAll hsub (hpatches patches hknown.2) (mem_orderedTargets_iff hqid)
  · -- some ids are unknown, and taken away
    have hunknown : ∃ qid ∈ existingQuestionIds patches, qid ∉ existingQuestionIds existing := by
      by_contra hall
      refine hknown ⟨List.ne_nil_of_mem hnamed, fun t ht => ?_⟩
      by_contra hnot
      exact hall ⟨t, ht, fun h => hnot (existingQuestionIds_sortedByOrder.2 h)⟩
    rw [if_neg hknown, sortedByOrder_idem]
    generalize hposition : (if (orderedTargets existing targetIds).length = 1 ∧ 1 <
      (stripUnrecognizedPatchIds patches
        (existingQuestionIds (sortedByOrder existing))).length then _ else none) = position
    cases position with
    | some patch =>
      rw [length_stripUnrecognizedPatchIds] at hposition
      split_ifs at hposition with hone
      obtain ⟨target, p, htakes⟩ := exists_takesPlace hunknown hone.1 hone.2 hposition
      exact absurd htakes (hplace target p)
    | none =>
      have hstripped : ∀ t, t ∈ existingQuestionIds (stripUnrecognizedPatchIds patches
          (existingQuestionIds (sortedByOrder existing))) ↔
            t ∈ existingQuestionIds patches ∧ t ∈ existingQuestionIds existing := by
        intro t
        rw [mem_existingQuestionIds_strip, existingQuestionIds_sortedByOrder]
      have hsubset : existingQuestionIds (stripUnrecognizedPatchIds patches
          (existingQuestionIds (sortedByOrder existing))) ⊆
            existingQuestionIds (sortedByOrder existing) := fun t ht =>
        existingQuestionIds_sortedByOrder.2 ((hstripped t).1 ht).2
      dsimp only
      rw [hself _ (length_stripUnrecognizedPatchIds _ _) fun t ht hmem =>
        (hstripped t).2 ⟨ht, (mem_orderedTargets.1 hmem).1⟩,
        if_pos ⟨List.ne_nil_of_mem ((hstripped named).2 ⟨hnamed, hthere⟩), hsubset⟩,
        lastWithId_targetedOrAll hsub (hpatches _ hsubset) (mem_orderedTargets_iff hqid),
        lastWithId_stripUnrecognized (existingQuestionIds_sortedByOrder.2 hqid)
          (mem_existingQuestionIds.1 hqid).2]
      have hsame : (∃ t ∈ existingQuestionIds (stripUnrecognizedPatchIds patches
          (existingQuestionIds (sortedByOrder existing))),
            t ∈ orderedTargets existing targetIds) ↔
          ∃ t ∈ existingQuestionIds patches, t ∈ orderedTargets existing targetIds := by
        constructor
        · rintro ⟨t, ht, hmem⟩
          exact ⟨t, ((hstripped t).1 ht).1, hmem⟩
        · rintro ⟨t, ht, hmem⟩
          exact ⟨t, (hstripped t).2 ⟨ht, (mem_orderedTargets.1 hmem).1⟩, hmem⟩
      simp only [hsame]

/-! ## Targets only -/

theorem patchedContent_of_none {q : Question} (h : lastWithId patches q.id = none) :
    patchedContent patches q = q.toContent := by
  unfold patchedContent
  rw [h, Option.getD_none]

/-- **Laid over**: without targets, patches that name no question are taken in their order. -/
theorem patchedContent_laidOver (hids : DistinctIds existing)
    (hnone : ¬ NamesQuestion existing patches) (htargets : orderedTargets existing targetIds = [])
    (hcount : patches.length = existing.length) :
    (sortedByOrder existing).map (patchedContent (preparedPatches existing patches targetIds)) =
      (sortedByOrder patches).map Question.toContent := by
  have hself : ∀ X : List Question, bindPatchQuestionIds X [] = X := by
    intro X
    simp [bindPatchQuestionIds, strippedIds]
  have hlength := length_stripUnrecognizedPatchIds patches
    (existingQuestionIds (sortedByOrder existing))
  have hplain : preparedPatches existing patches targetIds =
      (sortedByOrder (stripUnrecognizedPatchIds patches
        (existingQuestionIds (sortedByOrder existing)))).zipWith
          (fun patch q => { patch.withId q.id with orderIndex := q.orderIndex })
          (sortedByOrder existing) := by
    unfold preparedPatches normalizePatchPayload bindPatchesByOrderIndex
    rw [htargets]
    dsimp only
    rw [hself, if_neg, if_neg (by simp)]
    · dsimp only
      rw [hself, if_neg, hlength, (sortedByOrder_perm existing).length_eq, if_pos hcount,
        if_neg (by simp), sortedByOrder_idem, if_neg]
      · rw [(sortedByOrder_perm _).length_eq, (sortedByOrder_perm existing).length_eq, hlength]
        exact not_not.2 hcount
      · rintro ⟨hne, -⟩
        obtain ⟨t, ht⟩ := List.exists_mem_of_ne_nil _ hne
        obtain ⟨hpatch, hthere⟩ := mem_existingQuestionIds_strip.1 ht
        exact hnone ⟨t, hpatch, existingQuestionIds_sortedByOrder.1 hthere⟩
    · rintro ⟨hne, hsub⟩
      obtain ⟨t, ht⟩ := List.exists_mem_of_ne_nil _ hne
      exact hnone ⟨t, ht, existingQuestionIds_sortedByOrder.1 (hsub ht)⟩
  have hnodup : ((sortedByOrder existing).map Question.id).Nodup :=
    ((sortedByOrder_perm existing).map Question.id).nodup_iff.2 hids.nodup
  rw [hplain, sortedByOrder_strip]
  refine List.ext_getElem ?_ fun j hj hj' => ?_
  · rw [List.length_map, List.length_map, (sortedByOrder_perm existing).length_eq,
      (sortedByOrder_perm patches).length_eq, hcount]
  · have hlt : j < (sortedByOrder existing).length := by simpa using hj
    have hlt' : j < (sortedByOrder patches).length := by simpa using hj'
    obtain ⟨stripped, hstripped, hwords⟩ : ∃ p, (stripUnrecognizedPatchIds (sortedByOrder patches)
        (existingQuestionIds (sortedByOrder existing)))[j]? = some p ∧
          p.toContent = (sortedByOrder patches)[j].toContent := by
      unfold stripUnrecognizedPatchIds
      rw [List.getElem?_map, List.getElem?_eq_getElem hlt', Option.map_some]
      refine ⟨_, rfl, ?_⟩
      split_ifs
      · rfl
      · rfl
    rw [List.getElem_map, List.getElem_map, ← hwords]
    unfold patchedContent
    have hkey : ∀ (p : Question), ∀ q ∈ sortedByOrder existing,
        Question.id { p.withId q.id with orderIndex := q.orderIndex } = q.id :=
      fun p q _ => strip_strip _
    rw [lastWithId_zipWith hkey hnodup hstripped
      (List.getElem?_eq_getElem hlt), Option.getD_some]
    rfl

theorem DistinctIds.id_mem (hids : DistinctIds existing) {q : Question} (hq : q ∈ existing) :
    q.id ∈ existingQuestionIds existing :=
  id_mem_existingQuestionIds hq (hids.present q hq)

/-- Patches that name a question and spill over stay on targets where they repeat the quiz. -/
theorem targetsOnly_iff_of_names (hids : DistinctIds existing)
    (hnames : NamesQuestion existing patches)
    (hspills : orderedTargets existing targetIds ≠ [] →
      ¬ ((∃ t ∈ existingQuestionIds patches, t ∈ orderedTargets existing targetIds) ∨
        patches.length = (orderedTargets existing targetIds).length ∨
        HasPlace existing patches (orderedTargets existing targetIds))) :
    (∀ q ∈ existing, q.id ∉ strippedIds targetIds →
      patchedContent (preparedPatches existing patches targetIds) q = q.toContent) ↔
        ∀ q ∈ existing, patchedContent patches q = q.toContent := by
  have hover : ¬ Overwrites existing patches targetIds := fun h =>
    hspills h.2.1 (.inr (.inl h.2.2.1))
  have hplace : ∀ target patch, ¬ TakesPlace existing patches targetIds target patch := by
    rintro target patch ⟨hone, hmany, hunknown, j, q, hq, hid, hpatch⟩
    have hj : j < patches.length := by
      rw [← (sortedByOrder_perm patches).length_eq]
      exact (List.getElem?_eq_some_iff.1 hpatch).1
    refine hspills (by simp [hone])
      (.inr (.inr ⟨hunknown, by simp [hone], hmany, j, q, hj, hq, ?_⟩))
    rw [hone, hid]
    exact List.mem_singleton_self target
  have hwords : ∀ q ∈ existing, patchedContent (preparedPatches existing patches targetIds) q =
      patchedContent patches q := by
    intro q hq
    unfold patchedContent
    rw [lastWithId_preparedPatches hnames hover hplace (hids.id_mem hq), if_neg]
    exact fun h => hspills h.1 (.inl h.2.1)
  refine forall₂_congr fun q hq => ?_
  rw [hwords q hq]
  refine ⟨fun h => ?_, fun h _ => h⟩
  by_cases hid : q.id ∈ strippedIds targetIds
  · -- no patch has the id of a target
    have hmem : q.id ∈ orderedTargets existing targetIds :=
      (mem_orderedTargets_iff (hids.id_mem hq)).2 hid
    refine patchedContent_of_none (lastWithId_eq_none.2 fun patch hpatch heq => ?_)
    refine hspills (List.ne_nil_of_mem hmem) (.inl ⟨patch.id, ?_, heq ▸ hmem⟩)
    exact id_mem_existingQuestionIds hpatch (heq ▸ hids.present q hq)
  · exact h hid

/-- **When only targets change.** -/
theorem targetsOnly_iff (hids : DistinctIds existing) :
    SameOutside (strippedIds targetIds) existing
        (prepareQuestionPatchesForMerge existing patches targetIds) ↔
      StaysOnTargets existing patches targetIds ∨ RepeatsQuiz existing patches := by
  by_cases hstays : StaysOnTargets existing patches targetIds
  · exact iff_of_true (prepareQuestionPatchesForMerge_sameOutside hstays) (.inl hstays)
  rw [or_iff_right hstays, sameOutside_iff_of_map_bare (f := Question.toContent) (l := existing)
    rfl (map_bare_prepareQuestionPatchesForMerge hids)]
  unfold StaysOnTargets at hstays
  rw [not_or] at hstays
  obtain ⟨hunnamed, hspills⟩ := hstays
  unfold RepeatsQuiz
  by_cases hnames : NamesQuestion existing patches
  · rw [or_iff_left fun h => h.1 hnames, and_iff_right hnames]
    exact targetsOnly_iff_of_names hids hnames fun hne h => hspills ⟨hne, h⟩
  · have hfresh : ∀ qid ∈ existingQuestionIds patches, qid ∉ existingQuestionIds existing :=
      fun qid hqid hmem => hnames ⟨qid, hqid, hmem⟩
    obtain ⟨htargets, hcount⟩ : orderedTargets existing targetIds = [] ∧
        patches.length = existing.length := by
      by_contra h
      exact hunnamed ⟨hfresh, fun htargets hcount => h ⟨htargets, hcount⟩⟩
    rw [or_iff_right fun h => hnames h.1, and_iff_right hnames,
      ← patchedContent_laidOver hids hnames htargets hcount, List.map_inj_left]
    simp only [mem_sortedByOrder]
    refine forall₂_congr fun q hq => imp_iff_right ?_
    intro hid
    have hmem := (mem_orderedTargets_iff (hids.id_mem hq)).2 hid
    rw [htargets] at hmem
    cases hmem

/-! ## Own questions only -/

theorem exists_other_content (c : Content) : ∃ d, d ≠ c := by
  refine ⟨{ c with questionText := if c.questionText = .null then .bool true else .null }, ?_⟩
  intro h
  have htext := congrArg Content.questionText h
  dsimp only at htext
  split_ifs at htext with hnull
  · rw [hnull] at htext
    cases htext
  · exact hnull htext.symm

/-- A place is taken whatever the patches say, by one of them. -/
theorem takesPlace_reworded {target : String} {patch : Question}
    (h : TakesPlace existing patches targetIds target patch) :
    ∃ k, patches[k]? = some patch ∧ ∀ i c,
      TakesPlace existing (reworded patches i c) targetIds target
        (if i = k then patch.saying c else patch) := by
  obtain ⟨hone, hmany, hunknown, j, q, hq, hid, hpatch⟩ := h
  have hj : j < patches.length := by
    rw [← (sortedByOrder_perm patches).length_eq]
    exact (List.getElem?_eq_some_iff.1 hpatch).1
  obtain ⟨k, p, hk, hp, hplace⟩ := exists_origin hj
  obtain rfl : p = patch := Option.some.inj (hp.symm.trans hpatch)
  refine ⟨k, hk, fun i c => ⟨hone, by simpa using hmany, ?_, j, q, hq, hid, hplace i c⟩⟩
  simpa using hunknown

theorem takesPlace_of_reworded {target : String} {patch : Question} {i : ℕ} {c : Content}
    (h : TakesPlace existing (reworded patches i c) targetIds target patch) :
    ∃ t p, TakesPlace existing patches targetIds t p := by
  obtain ⟨hone, hmany, hunknown, j, q, hq, hid, hpatch⟩ := h
  have hj : j < (sortedByOrder patches).length := by
    have hlt := (List.getElem?_eq_some_iff.1 hpatch).1
    rwa [(sortedByOrder_perm _).length_eq, length_reworded,
      ← (sortedByOrder_perm patches).length_eq] at hlt
  exact ⟨target, _, hone, by simpa using hmany, by simpa using hunknown, j, q, hq, hid,
    List.getElem?_eq_getElem hj⟩

theorem patchedContent_of_takesPlace (hids : DistinctIds existing) {target : String}
    {patch : Question} (h : TakesPlace existing patches targetIds target patch) (q : Question) :
    patchedContent (preparedPatches existing patches targetIds) q =
      if q.id = target then patch.toContent else q.toContent := by
  obtain ⟨p, hprepared, rfl, hwords⟩ := preparedPatches_of_takesPlace hids h
  unfold patchedContent
  rw [hprepared, lastWithId_cons]
  by_cases hid : q.id = p.id
  · rw [if_pos hid, if_pos hid.symm, ← hwords]
    rfl
  · rw [if_neg hid, if_neg fun heq => hid heq.symm]
    rfl

/-- What is compared where a patch is said in other words. -/
theorem sameOutside_reworded_iff (hids : DistinctIds existing) {i : ℕ} {patch : Question}
    {c : Content} :
    SameOutside [patch.id] (prepareQuestionPatchesForMerge existing patches targetIds)
        (prepareQuestionPatchesForMerge existing (reworded patches i c) targetIds) ↔
      ∀ q ∈ existing, q.id ∉ [patch.id] →
        patchedContent (preparedPatches existing (reworded patches i c) targetIds) q =
          patchedContent (preparedPatches existing patches targetIds) q :=
  sameOutside_iff_of_map_bare (map_bare_prepareQuestionPatchesForMerge hids)
    (map_bare_prepareQuestionPatchesForMerge hids)

/-- A patch that is given the id of a target speaks for that target. -/
theorem not_ownOnly_of_overwrites (hids : DistinctIds existing)
    (hover : Overwrites existing patches targetIds) :
    ∃ i patch c, patches[i]? = some patch ∧ patch.id ∈ existingQuestionIds existing ∧
      ¬ SameOutside [patch.id] (prepareQuestionPatchesForMerge existing patches targetIds)
        (prepareQuestionPatchesForMerge existing (reworded patches i c) targetIds) := by
  obtain ⟨⟨qid, hqid, hthere⟩, -, hcount, hnone⟩ := id hover
  obtain ⟨⟨patch, hpatch, rfl⟩, -⟩ := mem_existingQuestionIds.1 hqid
  obtain ⟨i, hget⟩ := List.mem_iff_getElem?.1 hpatch
  have hi : i < (orderedTargets existing targetIds).length := by
    rw [← hcount]
    exact (List.getElem?_eq_some_iff.1 hget).1
  have htarget := List.getElem_mem hi
  obtain ⟨⟨q, hq, hid⟩, -⟩ := mem_existingQuestionIds.1 (mem_orderedTargets.1 htarget).1
  obtain ⟨d, hd⟩ := exists_other_content patch.toContent
  have hother : q.id ∉ [patch.id] := by
    rw [hid, List.mem_singleton]
    intro heq
    exact hnone _ hqid (heq ▸ htarget)
  refine ⟨i, patch, d, hget, hthere, fun hsame => ?_⟩
  have heq := (sameOutside_reworded_iff hids).1 hsame q hq hother
  have hover' : Overwrites existing (reworded patches i d) targetIds := by
    simpa [Overwrites, NamesQuestion] using hover
  have hstrip : ∀ t ∈ orderedTargets existing targetIds, strip t = t :=
    fun t ht => strip_of_mem_existing (mem_orderedTargets.1 ht).1
  have hwords : ∀ X p, Overwrites existing X targetIds → X[i]? = some p →
      patchedContent (preparedPatches existing X targetIds) q = p.toContent := by
    intro X p hX hp
    unfold patchedContent
    rw [preparedPatches_of_overwrites hX, hid,
      lastWithId_zipWith_withId (nodup_orderedTargets hids) hstrip hp
        (List.getElem?_eq_getElem hi), Option.getD_some]
    rfl
  have hreworded : (reworded patches i d)[i]? = some (patch.saying d) := by
    unfold reworded
    rw [List.getElem?_modify_eq, hget]
    rfl
  rw [hwords _ _ hover hget, hwords _ _ hover' hreworded] at heq
  exact hd heq

/-- A patch that is placed speaks for the target. -/
theorem not_ownOnly_of_displaces (hids : DistinctIds existing)
    (hdisplaces : Displaces existing patches targetIds) :
    ∃ i patch c, patches[i]? = some patch ∧ patch.id ∈ existingQuestionIds existing ∧
      ¬ SameOutside [patch.id] (prepareQuestionPatchesForMerge existing patches targetIds)
        (prepareQuestionPatchesForMerge existing (reworded patches i c) targetIds) := by
  obtain ⟨target, patch, htakes, hne, hthere⟩ := hdisplaces
  obtain ⟨k, hget, hplaced⟩ := takesPlace_reworded htakes
  obtain ⟨-, -, -, j, q, hq, rfl, -⟩ := id htakes
  obtain ⟨d, hd⟩ := exists_other_content patch.toContent
  have hmem : q ∈ existing := mem_sortedByOrder.1 (List.mem_of_getElem? hq)
  have hother : q.id ∉ [patch.id] := by
    rw [List.mem_singleton]
    exact fun heq => hne heq.symm
  refine ⟨k, patch, d, hget, hthere, fun hsame => ?_⟩
  have heq := (sameOutside_reworded_iff hids).1 hsame q hmem hother
  rw [patchedContent_of_takesPlace hids htakes,
    patchedContent_of_takesPlace hids (hplaced k d), if_pos rfl, if_pos rfl, if_pos rfl] at heq
  exact hd heq

/-- Where ids are not overwritten and no patch of another question is placed, a patch speaks for
its own question. -/
theorem ownOnly_of_not (hids : DistinctIds existing)
    (hover : ¬ Overwrites existing patches targetIds)
    (hdisplaces : ¬ Displaces existing patches targetIds) {i : ℕ} {patch : Question} {c : Content}
    (hget : patches[i]? = some patch) (hthere : patch.id ∈ existingQuestionIds existing) :
    SameOutside [patch.id] (prepareQuestionPatchesForMerge existing patches targetIds)
      (prepareQuestionPatchesForMerge existing (reworded patches i c) targetIds) := by
  rw [sameOutside_reworded_iff hids]
  intro q hq hother
  rw [List.mem_singleton] at hother
  by_cases hplace : ∃ target p, TakesPlace existing patches targetIds target p
  · obtain ⟨target, p, htakes⟩ := hplace
    obtain ⟨k, hk, hplaced⟩ := takesPlace_reworded htakes
    rw [patchedContent_of_takesPlace hids htakes, patchedContent_of_takesPlace hids (hplaced i c)]
    by_cases hid : q.id = target
    · rw [if_pos hid, if_pos hid]
      split_ifs with hik
      · -- the patch in other words is the one that is placed
        subst hik
        obtain rfl : patch = p := Option.some.inj (hget.symm.trans hk)
        refine absurd ⟨target, patch, htakes, fun heq => ?_, hthere⟩ hdisplaces
        exact hother (hid.trans heq.symm)
      · rfl
    · rw [if_neg hid, if_neg hid]
  · have hnames : NamesQuestion existing patches :=
      ⟨patch.id, id_mem_existingQuestionIds (List.mem_of_getElem? hget)
        (mem_existingQuestionIds.1 hthere).2, hthere⟩
    have hnames' : NamesQuestion existing (reworded patches i c) := by
      simpa [NamesQuestion] using hnames
    have hover' : ¬ Overwrites existing (reworded patches i c) targetIds := by
      simpa [Overwrites, NamesQuestion] using hover
    unfold patchedContent
    rw [lastWithId_preparedPatches hnames hover (fun t p h => hplace ⟨t, p, h⟩) (hids.id_mem hq),
      lastWithId_preparedPatches hnames' hover' (fun t p h => hplace (takesPlace_of_reworded h))
        (hids.id_mem hq), existingQuestionIds_reworded,
      lastWithId_reworded hget fun heq => hother heq.symm]

/-- **When a patch changes its own question only.** -/
theorem ownOnly_iff (hids : DistinctIds existing) :
    (∀ i patch c, patches[i]? = some patch → patch.id ∈ existingQuestionIds existing →
      SameOutside [patch.id] (prepareQuestionPatchesForMerge existing patches targetIds)
        (prepareQuestionPatchesForMerge existing (reworded patches i c) targetIds)) ↔
      ¬ Overwrites existing patches targetIds ∧ ¬ Displaces existing patches targetIds := by
  constructor
  · intro h
    constructor
    · intro hover
      obtain ⟨i, patch, c, hget, hthere, hnot⟩ := not_ownOnly_of_overwrites hids hover
      exact hnot (h i patch c hget hthere)
    · intro hdisplaces
      obtain ⟨i, patch, c, hget, hthere, hnot⟩ := not_ownOnly_of_displaces hids hdisplaces
      exact hnot (h i patch c hget hthere)
  · rintro ⟨hover, hdisplaces⟩ i patch c hget hthere
    exact ownOnly_of_not hids hover hdisplaces hget hthere

/-! ## The frame -/

/-- What patches may do: only targets change, and what a patch with the id of a question says
is for that question alone. -/
structure PatchFrame (existing patches : List Question) (targetIds : List String) : Prop where
  targetsOnly : SameOutside (strippedIds targetIds) existing
    (prepareQuestionPatchesForMerge existing patches targetIds)
  ownOnly : ∀ i patch c, patches[i]? = some patch → patch.id ∈ existingQuestionIds existing →
    SameOutside [patch.id] (prepareQuestionPatchesForMerge existing patches targetIds)
      (prepareQuestionPatchesForMerge existing (reworded patches i c) targetIds)

/-- **When patches touch their own questions only, and no others but targets.** -/
theorem patchFrame_iff (existing patches : List Question) (targetIds : List String)
    (hids : DistinctIds existing) :
    ((prepareQuestionPatchesForMerge existing patches targetIds).map Question.id =
        existing.map Question.id ∧ PatchFrame existing patches targetIds) ↔
      (StaysOnTargets existing patches targetIds ∨ RepeatsQuiz existing patches) ∧
        ¬ Overwrites existing patches targetIds ∧ ¬ Displaces existing patches targetIds := by
  rw [← targetsOnly_iff hids, ← ownOnly_iff hids]
  constructor
  · rintro ⟨-, h⟩
    exact ⟨h.targetsOnly, h.ownOnly⟩
  · rintro ⟨htargets, hown⟩
    exact ⟨htargets.map_id, htargets, hown⟩

end

/-- A quiz of three, and a patch for its first question. -/
theorem patchFrame_three :
    let quiz := [filledQuestion "a" "A" 0, filledQuestion "b" "B" 1, filledQuestion "c" "C" 2]
    (prepareQuestionPatchesForMerge quiz [filledQuestion "a" "D" 0] ["a"]).map Question.id =
        quiz.map Question.id ∧ PatchFrame quiz [filledQuestion "a" "D" 0] ["a"] := by
  refine (patchFrame_iff _ _ _ (by decide)).2
    ⟨.inl (.inr ⟨by decide, .inl ⟨"a", by decide, by decide⟩⟩), ?_, ?_⟩
  · rintro ⟨-, -, -, hnone⟩
    exact hnone "a" (by decide) (by decide)
  · rintro ⟨-, -, ⟨-, hmany, -⟩, -⟩
    exact absurd hmany (by decide)

/-- Patches for two questions that are no targets are merged, and a single one is taken for the
target although it has the id of another question. -/
theorem patches_leave_frame :
    let quiz := [filledQuestion "a" "A" 0, filledQuestion "b" "B" 1, filledQuestion "c" "C" 2]
    let others := [filledQuestion "b" "D" 0, filledQuestion "c" "E" 1]
    DistinctIds quiz ∧
      (prepareQuestionPatchesForMerge quiz others ["a"]).map Question.bare =
        (filledQuestion "a" "A" 0 :: others).map Question.bare ∧
      ¬ PatchFrame quiz others ["a"] ∧
      (prepareQuestionPatchesForMerge quiz [filledQuestion "b" "D" 0] ["a"]).map Question.bare =
        [filledQuestion "a" "D" 0, filledQuestion "b" "B" 1, filledQuestion "c" "C" 2].map
          Question.bare ∧
      ¬ PatchFrame quiz [filledQuestion "b" "D" 0] ["a"] := by
  intro quiz others
  refine ⟨by decide, by decide, fun h => ?_, by decide, fun h => ?_⟩
  · have hwords := (sameOutside_iff_of_map_bare (f := Question.toContent) rfl
      (map_bare_prepareQuestionPatchesForMerge (by decide))).1 h.targetsOnly
    exact absurd hwords (by decide)
  · have hown := h.ownOnly 0 (filledQuestion "b" "D" 0) (filledQuestion "b" "E" 0).toContent rfl
      (by decide)
    have hwords := (sameOutside_iff_of_map_bare
      (map_bare_prepareQuestionPatchesForMerge (by decide))
      (map_bare_prepareQuestionPatchesForMerge (by decide))).1 hown
    exact absurd hwords (by decide)

end StudyAgent.Quiz
