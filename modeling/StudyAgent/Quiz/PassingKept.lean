import StudyAgent.Quiz.PruneExact
import StudyAgent.Quiz.Regeneration

/-!
# When a regeneration keeps what passed

A regenerated quiz is merged with the one before by the ids of its questions, or by their
places, and where neither is possible the new output is taken as it is.  Both merges give a
numbered quiz with ids of its own that keeps what passed.

Main results:

* `regenerationDone_byId`, `regenerationDone_positional` — what the two merges give.
* `mergeFullRegeneration_done_iff` — **when a regeneration keeps what passed.**
-/

namespace StudyAgent.Quiz

open Py

/-- What a regeneration is to give: a numbered quiz with ids that differ and with every
question of the quiz before that is not to be rewritten. -/
structure RegenerationDone (previous : List Question) (rewriteIds : List String)
    (merged : List Question) : Prop where
  ids : DistinctIds merged
  reindexed : merged.map Question.orderIndex = List.range merged.length
  keeps : ∀ q ∈ previous, q.id ∉ strippedIds rewriteIds → KeptIn q merged

/-- The new output repeats an id; or it has as many questions as the quiz or as there are to
rewrite; or everything is to be rewritten and the new output is a numbered quiz. -/
def KeepsPassing (new previous : List Question) (rewriteIds : List String) : Prop :=
  (∃ qid ∈ existingQuestionIds new, qid ∈ existingQuestionIds previous) ∨
  (previous ≠ [] ∧ new ≠ [] ∧
    (new.length = previous.length ∨ new.length = (strippedIds rewriteIds).dedup.length)) ∨
  (∀ q ∈ previous, q.id ∈ strippedIds rewriteIds) ∧ DistinctIds new ∧
    (new.map Question.orderIndex).Perm (List.range new.length)

section

variable {previous new merged : List Question} {rewriteIds : List String}

theorem map_id_reindexQuestions (questions : List Question) :
    (reindexQuestions questions).map Question.id = questions.map Question.id :=
  map_reindexQuestions _ (fun _ _ => rfl) _

theorem nodup_eraseDups (l : List String) : l.eraseDups.Nodup := by
  induction hn : l.length using Nat.strong_induction_on generalizing l with
  | _ n ih =>
    cases l with
    | nil => exact List.nodup_nil
    | cons a l =>
      rw [List.eraseDups_cons, List.nodup_cons, List.mem_eraseDups]
      have hshort : (l.filter fun b => !b == a).length < n := by
        have hle := List.length_filter_le (fun b => !b == a) l
        rw [List.length_cons] at hn
        omega
      exact ⟨by simp, ih _ hshort _ rfl⟩

theorem nodup_orderedIds (previous new : List Question) : (orderedIds previous new).Nodup :=
  nodup_eraseDups _

/-! ## By place -/

/-- A slot keeps its id, whichever of the two questions stands in it. -/
theorem map_id_slots (hlength : new.length = previous.length) :
    (previous.zipWith (fun p q => if p.id ∈ rewriteIds then q.inPlaceOf p else p) new).map
      Question.id = previous.map Question.id := by
  refine List.ext_getElem (by simp [hlength]) fun i hi hi' => ?_
  rw [List.getElem_map, List.getElem_zipWith, List.getElem_map]
  split_ifs
  · exact id_inPlaceOf _ _
  · rfl

theorem map_id_modify (questions : List Question) (i : ℕ) (q : Question) :
    (questions.modify i q.inPlaceOf).map Question.id = questions.map Question.id := by
  refine List.ext_getElem (by simp) fun j hj hj' => ?_
  rw [List.getElem_map, List.getElem_modify, List.getElem_map]
  split_ifs
  · exact id_inPlaceOf _ _
  · rfl

theorem map_id_splices (pairs : List (String × Question)) (questions : List Question) :
    (pairs.foldl (fun merged p => merged.modify (merged.findIdx fun q => q.id = p.1)
      p.2.inPlaceOf) questions).map Question.id = questions.map Question.id := by
  induction pairs generalizing questions with
  | nil => rfl
  | cons p pairs ih => rw [List.foldl_cons, ih, map_id_modify]

/-- A merge by place leaves every id where it was, and numbers the questions. -/
theorem mergeFullRegenerationPositional_ids
    (h : mergeFullRegenerationPositional new previous rewriteIds = some merged) :
    merged.map Question.id = (sortedByOrder previous).map Question.id ∧
      merged.map Question.orderIndex = List.range merged.length := by
  unfold mergeFullRegenerationPositional at h
  dsimp only at h
  split_ifs at h with hempty hlength hcount
  · rw [← Option.some.inj h, map_id_reindexQuestions, map_id_slots hlength,
      orderIndex_reindexQuestions, length_reindexQuestions]
    exact ⟨rfl, rfl⟩
  · rw [← Option.some.inj h, map_id_reindexQuestions, map_id_splices,
      orderIndex_reindexQuestions, length_reindexQuestions]
    exact ⟨rfl, rfl⟩

/-- **A merge by place keeps what passed.** -/
theorem regenerationDone_positional (hids : DistinctIds previous)
    (h : mergeFullRegenerationPositional new previous (strippedIds rewriteIds) = some merged) :
    RegenerationDone previous rewriteIds merged := by
  obtain ⟨hmap, hindex⟩ := mergeFullRegenerationPositional_ids h
  refine ⟨distinctIds_of_map_id ?_ hids, hindex, fun q hq hnot => keptIn_positional h hq hnot⟩
  rw [hmap]
  exact (sortedByOrder_perm previous).map _

/-! ## By id -/

/-- **A merge by ids keeps what passed.** -/
theorem regenerationDone_byId (hids : DistinctIds previous) :
    RegenerationDone previous rewriteIds
      (reindexQuestions ((orderedIds previous new).filterMap fun qid =>
        if qid ∈ strippedIds rewriteIds then (lastWithId new qid).or (lastWithId previous qid)
        else (lastWithId previous qid).or (lastWithId new qid))) := by
  have hpick : ∀ qid q, (if qid ∈ strippedIds rewriteIds then
      (lastWithId new qid).or (lastWithId previous qid)
      else (lastWithId previous qid).or (lastWithId new qid)) = some q → q.id = qid := by
    intro qid q hq
    split_ifs at hq
    · exact id_of_lastWithId_or hq
    · exact id_of_lastWithId_or hq
  have hmap := Dedup.map_filterMap_key hpick (orderedIds previous new)
  refine ⟨⟨?_, fun q hq => ?_⟩, ?_, fun q hq hnot => ?_⟩
  · rw [map_id_reindexQuestions, hmap]
    exact (nodup_orderedIds previous new).filter _
  · have hmem := List.mem_map_of_mem (f := Question.id) hq
    rw [map_id_reindexQuestions, hmap] at hmem
    rcases mem_orderedIds.1 (List.mem_filter.1 hmem).1 with hthere | hthere
    · exact (mem_existingQuestionIds.1 hthere).2
    · exact (mem_existingQuestionIds.1 hthere).2
  · rw [orderIndex_reindexQuestions, length_reindexQuestions]
  · rw [keptIn_reindexQuestions, keptIn_byId hq hnot]
    refine ⟨hids.present q hq, ?_⟩
    obtain ⟨last, hlast⟩ := exists_lastWithId hq
    obtain ⟨hmem, hid⟩ := lastWithId_eq_some hlast
    rw [hlast, bare_eq_of_id hids hq hmem hid, Option.map_some]

end

/-! ## Neither -/

/-- A list of numbers that is sorted is the range of its length when it holds the same ones. -/
theorem orderIndex_sortedByOrder_iff (questions : List Question) :
    (sortedByOrder questions).map Question.orderIndex = List.range questions.length ↔
      (questions.map Question.orderIndex).Perm (List.range questions.length) := by
  have hperm : ((sortedByOrder questions).map Question.orderIndex).Perm
      (questions.map Question.orderIndex) := (sortedByOrder_perm questions).map _
  constructor
  · intro h
    exact h ▸ hperm.symm
  · intro h
    have hsorted : ((sortedByOrder questions).map Question.orderIndex).Pairwise (· ≤ ·) :=
      List.pairwise_map.2 (pairwise_sortedByOrder questions)
    exact (hperm.trans h).eq_of_pairwise (fun _ _ _ _ => Nat.le_antisymm) hsorted
      List.pairwise_le_range

/-- Without a merge by place the new output is taken in its order. -/
theorem bindPatchesByOrderIndex_of_none {previous new : List Question} {rewriteIds : List String}
    (h : mergeFullRegenerationPositional new previous rewriteIds = none) :
    bindPatchesByOrderIndex new previous = sortedByOrder new := by
  have hnot : ¬ (previous ≠ [] ∧ new ≠ [] ∧
      (new.length = previous.length ∨ new.length = rewriteIds.dedup.length)) := by
    rw [← mergeFullRegenerationPositional_isSome_iff]
    simp [h]
  unfold bindPatchesByOrderIndex
  dsimp only
  split_ifs with hlength
  · rfl
  · rw [not_not, (sortedByOrder_perm new).length_eq, (sortedByOrder_perm previous).length_eq]
      at hlength
    have hnil : new = [] := by
      by_contra hne
      refine hnot ⟨fun hprevious => hne ?_, hne, .inl hlength⟩
      rw [hprevious, List.length_nil] at hlength
      exact List.length_eq_zero_iff.1 hlength
    rw [hnil]
    rfl

/-- Output whose ids are all new keeps what passed where nothing passed. -/
theorem regenerationDone_sortedByOrder_iff {previous new : List Question}
    {rewriteIds : List String} (hids : DistinctIds previous)
    (hfresh : ∀ qid ∈ existingQuestionIds new, qid ∉ existingQuestionIds previous) :
    RegenerationDone previous rewriteIds (sortedByOrder new) ↔
      (∀ q ∈ previous, q.id ∈ strippedIds rewriteIds) ∧ DistinctIds new ∧
        (new.map Question.orderIndex).Perm (List.range new.length) := by
  have hperm := (sortedByOrder_perm new).map Question.id
  have hlength := (sortedByOrder_perm new).length_eq
  constructor
  · intro h
    refine ⟨fun q hq => ?_, distinctIds_of_map_id hperm.symm h.ids, ?_⟩
    · by_contra hnot
      obtain ⟨r, hr, hbare⟩ := h.keeps q hq hnot
      have hid : r.id = q.id := congrArg Prod.fst hbare
      have hne := hids.present q hq
      exact hfresh q.id (mem_existingQuestionIds.2 ⟨⟨r, mem_sortedByOrder.1 hr, hid⟩, hne⟩)
        (id_mem_existingQuestionIds hq hne)
    · have hindex := h.reindexed
      rw [hlength] at hindex
      exact (orderIndex_sortedByOrder_iff new).1 hindex
  · rintro ⟨hall, hnew, hindex⟩
    refine ⟨distinctIds_of_map_id hperm hnew, ?_, fun q hq hnot => absurd (hall q hq) hnot⟩
    rw [hlength]
    exact (orderIndex_sortedByOrder_iff new).2 hindex

/-! ## The whole merge -/

/-- **When a regeneration keeps what passed.**  It does unless the new output has fresh ids only
and another length, in which case it is taken as it is. -/
theorem mergeFullRegeneration_done_iff (new previous : List Question) (rewriteIds : List String)
    (hids : DistinctIds previous) :
    RegenerationDone previous rewriteIds
        (mergeFullRegenerationPreservingPassing new previous rewriteIds) ↔
      KeepsPassing new previous rewriteIds := by
  unfold mergeFullRegenerationPreservingPassing KeepsPassing
  dsimp only
  by_cases hfresh : ∀ qid ∈ existingQuestionIds new, qid ∉ existingQuestionIds previous
  · rw [if_pos hfresh]
    have hnone : ¬ ∃ qid ∈ existingQuestionIds new, qid ∈ existingQuestionIds previous := by
      rintro ⟨qid, hnew, hprevious⟩
      exact hfresh qid hnew hprevious
    rw [or_iff_right hnone, ← mergeFullRegenerationPositional_isSome_iff]
    cases hpositional : mergeFullRegenerationPositional new previous (strippedIds rewriteIds) with
    | some merged =>
      exact iff_of_true (regenerationDone_positional hids hpositional) (.inl ⟨merged, rfl⟩)
    | none =>
      rw [or_iff_right (by simp)]
      show RegenerationDone previous rewriteIds (bindPatchesByOrderIndex new previous) ↔ _
      rw [bindPatchesByOrderIndex_of_none hpositional]
      exact regenerationDone_sortedByOrder_iff hids hfresh
  · rw [if_neg hfresh]
    refine iff_of_true (regenerationDone_byId hids) (.inl ?_)
    simpa using hfresh

/-- A quiz of two with one question to rewrite. -/
theorem mergeFullRegeneration_done_two :
    RegenerationDone [filledQuestion "a" "A" 0, filledQuestion "b" "B" 1] ["b"]
      (mergeFullRegenerationPreservingPassing [filledQuestion "x" "C" 0]
        [filledQuestion "a" "A" 0, filledQuestion "b" "B" 1] ["b"]) :=
  (mergeFullRegeneration_done_iff _ _ _ (by decide)).2
    (.inr (.inl ⟨by decide, by decide, .inr (by decide)⟩))

/-- Three new questions with fresh ids, for a quiz of two: the one that passed is gone. -/
theorem fresh_ids_replace_passing :
    let previous := [filledQuestion "a" "A" 0, filledQuestion "b" "B" 1]
    let new := [filledQuestion "x" "C" 0, filledQuestion "y" "D" 1, filledQuestion "z" "E" 2]
    DistinctIds previous ∧
      (mergeFullRegenerationPreservingPassing new previous ["b"]).map Question.bare =
        new.map Question.bare ∧
      ¬ RegenerationDone previous ["b"]
        (mergeFullRegenerationPreservingPassing new previous ["b"]) := by
  intro previous new
  refine ⟨by decide, by decide, fun h => ?_⟩
  obtain ⟨r, hr, hbare⟩ := h.keeps (filledQuestion "a" "A" 0) (by decide) (by decide)
  revert hbare
  revert r
  decide

end StudyAgent.Quiz
