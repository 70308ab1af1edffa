import Mathlib.Order.Nat
import StudyAgent.Quiz.Results

/-!
# Pruning a quiz

A quiz with too many questions is cut back to the requested number: the questions that were to
be rewritten go first, then those at its end.  What goes is named by id.

Main results:

* `pruneQuestionsToCount_length` — **a quiz with distinct ids is cut to the requested number**.
* `PartOf.sound` — a part of a sound quiz is sound, for its own length.
-/

namespace StudyAgent.Quiz

open Py

/-- `remove_questions_by_ids`. -/
def removeQuestionsByIds (questions : List Question) (removeIds : List String) : List Question :=
  let wantedRemoved := strippedIds removeIds
  reindexQuestions (questions.filter fun q => q.id ∉ wantedRemoved)

/-- The second loop of `prune_questions_to_count`: names ids from the end until there are
enough. -/
def fillFromTail (excess : ℕ) : List String → List Question → List String
  | removeIds, [] => removeIds
  | removeIds, q :: questions =>
    if excess ≤ removeIds.length then removeIds
    else if q.id = "" ∨ q.id ∈ removeIds then fillFromTail excess removeIds questions
    else fillFromTail excess (removeIds ++ [q.id]) questions

/-- The ids that `prune_questions_to_count` removes. -/
def prunedIds (questions : List Question) (excess : ℕ) (preferRemoveIds : List String) :
    List String :=
  let prefer := strippedIds preferRemoveIds
  let preferred := ((questions.map Question.id).filter fun qid => qid ≠ "" ∧ qid ∈ prefer).take
    excess
  fillFromTail excess preferred questions.reverse

/-- `prune_questions_to_count`. -/
def pruneQuestionsToCount (questions : List Question) (expectedCount : ℕ)
    (preferRemoveIds : List String) : List Question :=
  if questions.length ≤ expectedCount then reindexQuestions questions
  else removeQuestionsByIds questions
    (prunedIds questions (questions.length - expectedCount) preferRemoveIds)

/-! ## What is removed -/

/-- A quiz whose questions have ids that differ. -/
structure DistinctIds (questions : List Question) : Prop where
  nodup : (questions.map Question.id).Nodup
  present : ∀ q ∈ questions, q.id ≠ ""

instance (questions : List Question) : Decidable (DistinctIds questions) :=
  decidable_of_iff ((questions.map Question.id).Nodup ∧ ∀ q ∈ questions, q.id ≠ "")
    ⟨fun h => ⟨h.1, h.2⟩, fun h => ⟨h.1, h.2⟩⟩

/-- Questions with one id are one where ids differ. -/
theorem bare_eq_of_id {questions : List Question} (hids : DistinctIds questions) {q r : Question}
    (hq : q ∈ questions) (hr : r ∈ questions) (h : r.id = q.id) : r = q :=
  List.inj_on_of_nodup_map hids.nodup hr hq h

theorem distinctIds_of_map_id {a b : List Question}
    (h : (a.map Question.id).Perm (b.map Question.id)) (hb : DistinctIds b) : DistinctIds a := by
  refine ⟨h.nodup_iff.2 hb.nodup, fun q hq => ?_⟩
  obtain ⟨r, hr, hid⟩ := List.mem_map.1 (h.subset (List.mem_map_of_mem hq))
  rw [← hid]
  exact hb.present r hr

/-- A part of a quiz, which may be numbered anew. -/
def PartOf (rest questions : List Question) : Prop :=
  (rest.map Question.bare).Sublist (questions.map Question.bare)

theorem partOf_of_sublist {rest questions : List Question} (h : rest.Sublist questions) :
    PartOf (reindexQuestions rest) questions := by
  rw [PartOf, map_bare_reindexQuestions]
  exact h.map _

theorem PartOf.trans {a b c : List Question} (h : PartOf a b) (h' : PartOf b c) : PartOf a c :=
  List.Sublist.trans h h'

theorem removeQuestionsByIds_partOf (questions : List Question) (removeIds : List String) :
    PartOf (removeQuestionsByIds questions removeIds) questions :=
  partOf_of_sublist List.filter_sublist

theorem pruneQuestionsToCount_partOf (questions : List Question) (n : ℕ) (prefer : List String) :
    PartOf (pruneQuestionsToCount questions n prefer) questions := by
  unfold pruneQuestionsToCount
  split_ifs
  · exact partOf_of_sublist (List.Sublist.refl _)
  · exact removeQuestionsByIds_partOf _ _

/-- What is read off the questions of a part is a part of what is read off the quiz. -/
theorem PartOf.map {β : Type} {rest questions : List Question} (h : PartOf rest questions)
    (f : String × Content → β) :
    (rest.map fun q => f q.bare).Sublist (questions.map fun q => f q.bare) := by
  have hmap := List.Sublist.map f h
  rwa [List.map_map, List.map_map] at hmap

theorem PartOf.distinctIds {rest questions : List Question} (h : PartOf rest questions)
    (hids : DistinctIds questions) : DistinctIds rest := by
  have hsub : (rest.map Question.id).Sublist (questions.map Question.id) := h.map Prod.fst
  refine ⟨hids.nodup.sublist hsub, fun q hq => ?_⟩
  obtain ⟨r, hr, hid⟩ := List.mem_map.1 (hsub.subset (List.mem_map_of_mem hq))
  rw [← hid]
  exact hids.present r hr

/-- **A part of a quiz whose questions are sound is sound** for its own length. -/
theorem PartOf.sound {rest questions : List Question} {n m : ℕ} (h : PartOf rest questions)
    (hsound : Sound questions n) (hlength : rest.length = m) : Sound rest m where
  count := hlength
  sound q hq := by
    have hsub : (rest.map Question.toContent).Sublist (questions.map Question.toContent) :=
      h.map Prod.snd
    obtain ⟨r, hr, hcontent⟩ := List.mem_map.1 (hsub.subset (List.mem_map_of_mem hq))
    rw [← hcontent]
    exact hsound.sound r hr
  distinct := hsound.distinct.sublist (h.map fun p => p.2.stem)

/-- A list and a part of it whose elements differ make up its length. -/
theorem length_split {l m : List String} (hl : l.Nodup) (hm : m.Nodup) (hsub : ∀ x ∈ m, x ∈ l) :
    m.length + (l.filter fun x => x ∉ m).length = l.length := by
  have hperm : l.Perm (m ++ l.filter fun x => x ∉ m) := by
    refine (List.perm_ext_iff_of_nodup hl ?_).2 fun x => ?_
    · refine List.nodup_append.2 ⟨hm, hl.filter _, ?_⟩
      rintro a ha b hb rfl
      exact absurd ha (by simpa using (List.mem_filter.1 hb).2)
    · by_cases hmem : x ∈ m
      · simp [hmem, hsub x hmem]
      · simp [hmem]
  rw [hperm.length_eq, List.length_append]

section Fill

variable {excess : ℕ} {removeIds : List String} {questions : List Question}

/-- What is named is what was named before, or an id of the quiz. -/
theorem mem_fillFromTail {qid : String} (h : qid ∈ fillFromTail excess removeIds questions) :
    qid ∈ removeIds ∨ qid ∈ existingQuestionIds questions := by
  induction questions generalizing removeIds with
  | nil => exact .inl h
  | cons q questions ih =>
    have hlater : ∀ {ids : List String}, qid ∈ fillFromTail excess ids questions →
        qid ∈ ids ∨ qid ∈ existingQuestionIds (q :: questions) := by
      intro ids hmem
      refine (ih hmem).imp_right fun hid => ?_
      obtain ⟨⟨r, hr, hid⟩, hne⟩ := mem_existingQuestionIds.1 hid
      exact mem_existingQuestionIds.2 ⟨⟨r, List.mem_cons_of_mem _ hr, hid⟩, hne⟩
    rw [fillFromTail] at h
    split_ifs at h with henough hskip
    · exact .inl h
    · exact hlater h
    · rcases hlater h with hmem | hmem
      · rcases List.mem_append.1 hmem with hmem | hmem
        · exact .inl hmem
        · rw [List.mem_singleton.1 hmem]
          rw [not_or] at hskip
          exact .inr (id_mem_existingQuestionIds List.mem_cons_self hskip.1)
      · exact .inr hmem

theorem nodup_fillFromTail (h : removeIds.Nodup) :
    (fillFromTail excess removeIds questions).Nodup := by
  induction questions generalizing removeIds with
  | nil => exact h
  | cons q questions ih =>
    rw [fillFromTail]
    split_ifs with henough hskip
    · exact h
    · exact ih h
    · refine ih (List.nodup_append.2 ⟨h, List.nodup_singleton _, ?_⟩)
      rintro a ha b hb rfl
      rw [List.mem_singleton.1 hb] at ha
      exact hskip (.inr ha)

/-- There are as many ids as are asked for, if that many are there. -/
theorem length_fillFromTail (hle : removeIds.length ≤ excess)
    (hids : ∀ q ∈ questions, q.id ≠ "") (hnodup : (questions.map Question.id).Nodup)
    (hmany : excess ≤ removeIds.length +
      ((questions.map Question.id).filter fun qid => qid ∉ removeIds).length) :
    (fillFromTail excess removeIds questions).length = excess := by
  induction questions generalizing removeIds with
  | nil =>
    simp only [List.map_nil, List.filter_nil, List.length_nil, Nat.add_zero] at hmany
    exact Nat.le_antisymm hle hmany
  | cons q questions ih =>
    rw [List.map_cons, List.nodup_cons] at hnodup
    have hrest : ∀ r ∈ questions, r.id ≠ "" := fun r hr => hids r (List.mem_cons_of_mem _ hr)
    rw [fillFromTail]
    split_ifs with henough hskip
    · exact Nat.le_antisymm hle henough
    · have hmem := hskip.resolve_left (hids q List.mem_cons_self)
      refine ih hle hrest hnodup.2 ?_
      rw [List.map_cons, List.filter_cons_of_neg (by simpa using hmem)] at hmany
      exact hmany
    · have hnot : q.id ∉ removeIds := fun hmem => hskip (.inr hmem)
      refine ih ?_ hrest hnodup.2 ?_
      · rw [List.length_append, List.length_singleton]
        omega
      · rw [List.map_cons, List.filter_cons_of_pos (by simpa using hnot), List.length_cons] at hmany
        have hsame : ((questions.map Question.id).filter fun qid => qid ∉ removeIds ++ [q.id]) =
            (questions.map Question.id).filter fun qid => qid ∉ removeIds := by
          refine List.filter_congr fun qid hqid => ?_
          have hne : qid ≠ q.id := fun heq => hnodup.1 (heq ▸ hqid)
          simp [hne]
        rw [hsame, List.length_append, List.length_singleton]
        omega

end Fill

/-- The ids that are removed are as many as there are questions too many. -/
theorem prunedIds_spec {questions : List Question} (h : DistinctIds questions) {excess : ℕ}
    (hle : excess ≤ questions.length) (prefer : List String) :
    (prunedIds questions excess prefer).Nodup ∧
      (prunedIds questions excess prefer).length = excess ∧
      ∀ qid ∈ prunedIds questions excess prefer, qid ∈ questions.map Question.id ∧ qid ≠ "" := by
  unfold prunedIds
  dsimp only
  generalize hpre : ((questions.map Question.id).filter fun qid =>
    qid ≠ "" ∧ qid ∈ strippedIds prefer).take excess = preferred
  have hsub : preferred.Sublist (questions.map Question.id) := by
    rw [← hpre]
    exact (List.take_sublist _ _).trans List.filter_sublist
  have hnodup : preferred.Nodup := h.nodup.sublist hsub
  have hrev : (questions.reverse.map Question.id).Nodup := by
    rw [List.map_reverse]
    exact List.nodup_reverse.2 h.nodup
  refine ⟨nodup_fillFromTail hnodup, length_fillFromTail ?_ ?_ hrev ?_, fun qid hqid => ?_⟩
  · rw [← hpre, List.length_take]
    exact min_le_left _ _
  · exact fun q hq => h.present q (List.mem_reverse.1 hq)
  · -- what is not preferred makes up the rest
    have hlength := length_split h.nodup hnodup fun qid hqid => hsub.subset hqid
    rw [List.length_map] at hlength
    rw [List.map_reverse, List.filter_reverse, List.length_reverse]
    omega
  · rcases mem_fillFromTail hqid with hmem | hmem
    · obtain ⟨q, hq, rfl⟩ := List.mem_map.1 (hsub.subset hmem)
      exact ⟨hsub.subset hmem, h.present q hq⟩
    · obtain ⟨⟨q, hq, rfl⟩, hne⟩ := mem_existingQuestionIds.1 hmem
      exact ⟨List.mem_map_of_mem (List.mem_reverse.1 hq), hne⟩

/-- Removing ids of the quiz takes as many questions away. -/
theorem length_removeQuestionsByIds {questions : List Question} (h : DistinctIds questions)
    {removeIds : List String} (hnodup : removeIds.Nodup)
    (hmem : ∀ qid ∈ removeIds, qid ∈ questions.map Question.id ∧ qid ≠ "") :
    (removeQuestionsByIds questions removeIds).length = questions.length - removeIds.length := by
  have hstrip : strippedIds removeIds = removeIds := by
    have hfix : ∀ qid ∈ removeIds, strip qid = qid := by
      intro qid hqid
      obtain ⟨q, -, rfl⟩ := List.mem_map.1 (hmem qid hqid).1
      exact strip_strip _
    have hmap : removeIds.map strip = removeIds := by
      conv_rhs => rw [← List.map_id removeIds]
      exact List.map_congr_left hfix
    rw [strippedIds, hmap, List.filter_eq_self]
    exact fun qid hqid => by simpa using (hmem qid hqid).2
  have hlength := length_split h.nodup hnodup fun qid hqid => (hmem qid hqid).1
  rw [List.length_map, List.filter_map, List.length_map] at hlength
  unfold removeQuestionsByIds
  dsimp only
  rw [length_reindexQuestions, hstrip]
  simp only [Function.comp_def] at hlength
  omega

/-- **A quiz with distinct ids is cut to the requested number.** -/
theorem pruneQuestionsToCount_length {questions : List Question} (h : DistinctIds questions) {n : ℕ}
    (hle : n ≤ questions.length) (prefer : List String) :
    (pruneQuestionsToCount questions n prefer).length = n := by
  unfold pruneQuestionsToCount
  split_ifs with hsmall
  · rw [length_reindexQuestions]
    exact Nat.le_antisymm hsmall hle
  · obtain ⟨hnodup, hlength, hmem⟩ := prunedIds_spec h (Nat.sub_le questions.length n) prefer
    rw [length_removeQuestionsByIds h hnodup hmem, hlength]
    omega

end StudyAgent.Quiz
