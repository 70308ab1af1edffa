import StudyAgent.Base.FirstOccurrences
import StudyAgent.Quiz.Graph

/-!
# When a prune is exact

What a prune removes is counted id by id but carried out question by question, so a
repeated id takes more questions away than were asked for.  The questions have an order
in which they go: the preferred ones as they come, then the others from the end.

Main results:

* `prunedIds_eq` — the ids that are named are the first different ones of that order.
* `length_prune_iff` — **when a prune leaves the requested number.**
* `prune_exact_iff` — the same, of all that a prune is to do and of the whole node.
-/

namespace StudyAgent.Quiz

open Py Dedup

/-! ## The order of removal -/

section

variable (questions : List Question) (prefer : List String)

/-- The preferred ids as they come. -/
def preferredOrder : List String :=
  (questions.map Question.id).filter fun qid => qid ∈ strippedIds prefer

/-- The other ids from the end. -/
def tailOrder : List String :=
  (questions.reverse.map Question.id).filter fun qid => qid ≠ "" ∧ qid ∉ strippedIds prefer

/-- The ids in the order in which their questions are to go. -/
def removalOrder : List String := preferredOrder questions prefer ++ tailOrder questions prefer

/-- Enough questions have an id; those that are to go share no id with those that stay;
and the ones among them that are not preferred have different ids, unless nothing stays. -/
def PrunesExactly (n : ℕ) : Prop :=
  let excess := questions.length - n
  let order := removalOrder questions prefer
  excess ≤ order.length ∧ (∀ qid ∈ order.take excess, qid ∉ order.drop excess) ∧
    (order.drop excess = [] ∨
      ((order.take excess).filter fun qid => qid ∉ strippedIds prefer).Nodup)

instance (n : ℕ) : Decidable (PrunesExactly questions prefer n) :=
  inferInstanceAs (Decidable (_ ∧ _ ∧ (_ ∨ _)))

end

section

variable {questions : List Question} {prefer : List String} {excess : ℕ}

theorem ne_empty_of_mem_strippedIds {qid : String} (h : qid ∈ strippedIds prefer) : qid ≠ "" :=
  (mem_strippedIds.1 h).2

theorem mem_preferredOrder {qid : String} :
    qid ∈ preferredOrder questions prefer ↔
      (∃ q ∈ questions, q.id = qid) ∧ qid ∈ strippedIds prefer := by
  unfold preferredOrder
  rw [List.mem_filter, List.mem_map, decide_eq_true_eq]

theorem mem_tailOrder {qid : String} :
    qid ∈ tailOrder questions prefer ↔
      (∃ q ∈ questions, q.id = qid) ∧ qid ≠ "" ∧ qid ∉ strippedIds prefer := by
  unfold tailOrder
  rw [List.mem_filter, List.mem_map, decide_eq_true_eq]
  simp only [List.mem_reverse]

/-- The order holds the ids of the questions that have one. -/
theorem removalOrder_perm :
    (removalOrder questions prefer).Perm
      ((questions.map Question.id).filter fun qid => qid ≠ "") := by
  have hpref : preferredOrder questions prefer =
      ((questions.map Question.id).filter fun qid => qid ≠ "").filter
        fun qid => qid ∈ strippedIds prefer := by
    unfold preferredOrder
    rw [List.filter_filter]
    refine List.filter_congr fun qid _ => ?_
    by_cases h : qid ∈ strippedIds prefer
    · simp [h, ne_empty_of_mem_strippedIds h]
    · simp [h]
  have htail : (tailOrder questions prefer).Perm
      (((questions.map Question.id).filter fun qid => qid ≠ "").filter
        fun qid => !decide (qid ∈ strippedIds prefer)) := by
    unfold tailOrder
    rw [List.map_reverse, List.filter_reverse, List.filter_filter]
    refine (List.reverse_perm _).trans (List.Perm.of_eq (List.filter_congr fun qid _ => ?_))
    by_cases h : qid ∈ strippedIds prefer <;> simp [h]
  unfold removalOrder
  rw [hpref]
  exact (htail.append_left _).trans (List.filter_append_perm _ _)

/-! ## The ids that are named -/

/-- The second loop collects different ids until there are enough. -/
theorem fillFromTail_eq {removeIds : List String} (hle : removeIds.length ≤ excess)
    (l : List Question) :
    fillFromTail excess removeIds l =
      (collect Question.id (fun qid => decide (qid ≠ "")) removeIds l).take excess := by
  induction l generalizing removeIds with
  | nil =>
    unfold fillFromTail collect
    exact (List.take_of_length_le hle).symm
  | cons q l ih =>
    have hnew : (decide (q.id ≠ "") && decide (q.id ∉ removeIds)) = true ↔
        ¬ (q.id = "" ∨ q.id ∈ removeIds) := by simp
    rw [fillFromTail]
    by_cases henough : excess ≤ removeIds.length
    · rw [if_pos henough]
      obtain ⟨rest, hrest⟩ : removeIds <+:
        collect Question.id (fun qid => decide (qid ≠ "")) removeIds (q :: l) := collect_prefix _ _
      rw [← hrest, List.take_left' (le_antisymm hle henough)]
    · rw [if_neg henough, collect_cons]
      by_cases hskip : q.id = "" ∨ q.id ∈ removeIds
      · rw [if_pos hskip, if_neg (hnew.not.2 (not_not.2 hskip))]
        exact ih hle
      · rw [if_neg hskip, if_pos (hnew.2 hskip)]
        refine ih ?_
        rw [List.length_append, List.length_singleton]
        omega

/-- **The ids that are named** are the first ones in the order of removal, where the ids
of the second part count once. -/
theorem prunedIds_eq :
    prunedIds questions excess prefer =
      (preferredOrder questions prefer ++ firsts (tailOrder questions prefer)).take excess := by
  have hpreferred : ((questions.map Question.id).filter fun qid =>
      qid ≠ "" ∧ qid ∈ strippedIds prefer) = preferredOrder questions prefer := by
    refine List.filter_congr fun qid _ => ?_
    by_cases h : qid ∈ strippedIds prefer
    · simp [h, ne_empty_of_mem_strippedIds h]
    · simp [h]
  unfold prunedIds
  dsimp only
  rw [hpreferred, fillFromTail_eq (List.length_take_le _ _)]
  rcases Nat.le_total excess (preferredOrder questions prefer).length with hmany | hfew
  · -- enough are preferred, so the second loop names none
    obtain ⟨rest, hrest⟩ : (preferredOrder questions prefer).take excess <+:
        collect Question.id (fun qid => decide (qid ≠ ""))
          ((preferredOrder questions prefer).take excess) questions.reverse := collect_prefix _ _
    rw [← hrest, List.take_append_of_le_length hmany]
    exact List.take_left' (by rw [List.length_take, min_eq_left hmany])
  · rw [List.take_of_length_le hfew, collect_eq_append]
    congr 3
    unfold tailOrder
    refine List.filter_congr fun qid hqid => ?_
    obtain ⟨q, hq, rfl⟩ := List.mem_map.1 hqid
    have hmem : q.id ∈ preferredOrder questions prefer ↔ q.id ∈ strippedIds prefer :=
      mem_preferredOrder.trans (and_iff_right ⟨q, List.mem_reverse.1 hq, rfl⟩)
    by_cases h : q.id ∈ strippedIds prefer <;> simp [h, hmem]

theorem mem_prunedIds {qid : String} (h : qid ∈ prunedIds questions excess prefer) :
    (∃ q ∈ questions, q.id = qid) ∧ qid ≠ "" := by
  rw [prunedIds_eq] at h
  rcases List.mem_append.1 (List.mem_of_mem_take h) with h | h
  · obtain ⟨hq, hpref⟩ := mem_preferredOrder.1 h
    exact ⟨hq, ne_empty_of_mem_strippedIds hpref⟩
  · obtain ⟨hq, hne, -⟩ := mem_tailOrder.1 (mem_firsts.1 h)
    exact ⟨hq, hne⟩

/-- **How many questions the named ids take away.** -/
theorem countP_prunedIds_iff :
    ((removalOrder questions prefer).countP fun qid => qid ∈ prunedIds questions excess prefer) =
        excess ↔
      excess ≤ (removalOrder questions prefer).length ∧
        (∀ qid ∈ (removalOrder questions prefer).take excess,
          qid ∉ (removalOrder questions prefer).drop excess) ∧
        ((removalOrder questions prefer).drop excess = [] ∨
          (((removalOrder questions prefer).take excess).filter
            fun qid => qid ∉ strippedIds prefer).Nodup) := by
  rw [prunedIds_eq]
  unfold removalOrder
  generalize hA : preferredOrder questions prefer = A
  generalize hT : tailOrder questions prefer = T
  have hpref : ∀ x ∈ A, x ∈ strippedIds prefer := fun x hx => (mem_preferredOrder.1 (hA ▸ hx)).2
  have htail : ∀ x ∈ T, x ∉ strippedIds prefer := fun x hx => (mem_tailOrder.1 (hT ▸ hx)).2.2
  rcases Nat.le_total excess A.length with hmany | hfew
  · -- only preferred questions go
    rw [List.take_append_of_le_length hmany, List.take_append_of_le_length hmany]
    have hsplit : (A ++ T).countP (fun x => x ∈ A.take excess) =
        excess + ((A ++ T).drop excess).countP fun x => x ∈ A.take excess := by
      conv_lhs => rw [← List.take_append_drop excess (A ++ T), List.countP_append,
        List.take_append_of_le_length hmany]
      congr 1
      rw [List.countP_eq_length.2 fun x hx => decide_eq_true hx, List.length_take,
        min_eq_left hmany]
    have hnone : (A.take excess).filter (fun qid => qid ∉ strippedIds prefer) = [] := by
      rw [List.filter_eq_nil_iff]
      exact fun x hx => by simpa using hpref x (List.mem_of_mem_take hx)
    rw [hsplit, hnone, List.length_append]
    have hle : excess ≤ A.length + T.length := hmany.trans (Nat.le_add_right _ _)
    rw [and_iff_right hle, and_iff_left (Or.inr List.nodup_nil)]
    constructor
    · intro hcount x hx hx'
      have hzero : ((A ++ T).drop excess).countP (fun x => x ∈ A.take excess) = 0 := by omega
      exact (List.countP_eq_zero.1 hzero) x hx' (decide_eq_true hx)
    · intro hapart
      rw [List.countP_eq_zero.2 fun x hx hmem => hapart x (by simpa using hmem) hx, Nat.add_zero]
  · -- all preferred questions go, and some from the end
    obtain ⟨m, rfl⟩ := Nat.exists_eq_add_of_le hfew
    have htake : ∀ l : List String, (A ++ l).take (A.length + m) = A ++ l.take m :=
      fun l => List.take_length_add_append m
    have hdrop : (A ++ T).drop (A.length + m) = T.drop m := List.drop_length_add_append m
    rw [htake, htake, hdrop, List.countP_append, List.length_append]
    have hall : A.countP (fun x => x ∈ A ++ (firsts T).take m) = A.length :=
      List.countP_eq_length.2 fun x hx => decide_eq_true (List.mem_append_left _ hx)
    have hcount : T.countP (fun x => x ∈ A ++ (firsts T).take m) =
        T.countP fun x => x ∈ (firsts T).take m := by
      refine List.countP_congr fun x hx => ?_
      have hx' : x ∉ A := fun hmem => htail x hx (hpref x hmem)
      simp [hx']
    have hfilter : (A ++ T.take m).filter (fun qid => qid ∉ strippedIds prefer) = T.take m := by
      rw [List.filter_append, List.filter_eq_nil_iff.2 fun x hx => by simpa using hpref x hx,
        List.nil_append, List.filter_eq_self]
      exact fun x hx => by simpa using htail x (List.mem_of_mem_take hx)
    have hapart : (∀ x ∈ A ++ T.take m, x ∉ T.drop m) ↔ ∀ x ∈ T.take m, x ∉ T.drop m := by
      refine ⟨fun h x hx => h x (List.mem_append_right _ hx), fun h x hx hx' => ?_⟩
      rcases List.mem_append.1 hx with hx | hx
      · exact htail x (List.mem_of_mem_drop hx') (hpref x hx)
      · exact h x hx hx'
    rw [hall, hcount, hfilter, hapart, Nat.add_le_add_iff_left, Nat.add_left_cancel_iff]
    exact countP_take_firsts

/-! ## The prune -/

/-- A prune keeps the questions whose ids are not named. -/
theorem removeQuestionsByIds_prunedIds :
    removeQuestionsByIds questions (prunedIds questions excess prefer) =
      reindexQuestions (questions.filter fun q => q.id ∉ prunedIds questions excess prefer) := by
  unfold removeQuestionsByIds
  dsimp only
  congr 1
  refine List.filter_congr fun q _ => ?_
  have hmem : q.id ∈ strippedIds (prunedIds questions excess prefer) ↔
      q.id ∈ prunedIds questions excess prefer := by
    rw [mem_strippedIds]
    constructor
    · rintro ⟨⟨raw, hraw, hstrip⟩, -⟩
      obtain ⟨⟨r, -, hr⟩, -⟩ := mem_prunedIds hraw
      rw [← hr, show strip r.id = r.id from strip_strip _, hr] at hstrip
      exact hstrip ▸ hraw
    · exact fun h => ⟨⟨q.id, h, strip_strip _⟩, (mem_prunedIds h).2⟩
  exact decide_eq_decide.2 (not_congr hmem)

/-- **When a prune leaves the requested number.** -/
theorem length_prune_iff {n : ℕ} :
    (pruneQuestionsToCount questions n prefer).length = min questions.length n ↔
      PrunesExactly questions prefer n := by
  unfold pruneQuestionsToCount PrunesExactly
  dsimp only
  split_ifs with hsmall
  · rw [length_reindexQuestions, min_eq_left hsmall, Nat.sub_eq_zero_of_le hsmall]
    simp
  · rw [removeQuestionsByIds_prunedIds, length_reindexQuestions, ← countP_prunedIds_iff]
    have hcount : ((removalOrder questions prefer).countP fun qid =>
          qid ∈ prunedIds questions (questions.length - n) prefer) =
        questions.countP fun q => q.id ∈ prunedIds questions (questions.length - n) prefer := by
      rw [removalOrder_perm.countP_eq, List.countP_filter, List.countP_map]
      refine List.countP_congr fun q _ => ?_
      simp only [Function.comp_apply, Bool.and_eq_true, decide_eq_true_eq]
      exact and_iff_left_of_imp fun h => (mem_prunedIds h).2
    have hsplit := List.length_eq_countP_add_countP (l := questions)
      fun q => decide (q.id ∈ prunedIds questions (questions.length - n) prefer)
    rw [hcount, ← List.countP_eq_length_filter]
    simp only [decide_eq_true_eq] at hsplit
    omega

/-- A question that is not preferred goes only when all preferred ones have gone. -/
theorem prune_preferred_first {n : ℕ} {q r : Question} (hq : q ∈ questions)
    (hpref : q.id ∉ strippedIds prefer)
    (hgone : q.id ∉ (pruneQuestionsToCount questions n prefer).map Question.id)
    (hr : r ∈ questions) (hrpref : r.id ∈ strippedIds prefer) :
    r.id ∉ (pruneQuestionsToCount questions n prefer).map Question.id := by
  have hids : ∀ l : List Question, (reindexQuestions l).map Question.id = l.map Question.id :=
    map_reindexQuestions _ fun _ _ => rfl
  unfold pruneQuestionsToCount at hgone ⊢
  split_ifs at hgone ⊢ with hsmall
  · rw [hids] at hgone
    exact absurd (List.mem_map_of_mem hq) hgone
  · rw [removeQuestionsByIds_prunedIds, hids] at hgone ⊢
    have hnamed : q.id ∈ prunedIds questions (questions.length - n) prefer := by
      by_contra hnot
      exact hgone (List.mem_map_of_mem (List.mem_filter.2 ⟨hq, decide_eq_true hnot⟩))
    intro hstays
    obtain ⟨t, ht, hid⟩ := List.mem_map.1 hstays
    have ht' : t.id ∉ prunedIds questions (questions.length - n) prefer := by
      simpa using (List.mem_filter.1 ht).2
    rw [hid] at ht'
    rw [prunedIds_eq, List.take_append, List.mem_append] at hnamed ht'
    rcases hnamed with hnamed | hnamed
    · exact hpref (mem_preferredOrder.1 (List.mem_of_mem_take hnamed)).2
    · -- some id of the second part is named, so all of the first part are
      have hpos : 0 < questions.length - n - (preferredOrder questions prefer).length := by
        rcases Nat.eq_zero_or_pos (questions.length - n - (preferredOrder questions prefer).length)
          with hzero | hpos
        · rw [hzero, List.take_zero] at hnamed
          cases hnamed
        · exact hpos
      refine ht' (Or.inl ?_)
      rw [List.take_of_length_le (by omega)]
      exact mem_preferredOrder.2 ⟨⟨r, hr, rfl⟩, hrpref⟩

theorem orderIndex_reindexQuestions (l : List Question) :
    (reindexQuestions l).map Question.orderIndex = List.range l.length := by
  unfold reindexQuestions
  rw [List.map_map, List.range_eq_range', ← List.zipIdx_map_snd 0 l]
  rfl

theorem orderIndex_prune (n : ℕ) :
    (pruneQuestionsToCount questions n prefer).map Question.orderIndex =
      List.range (pruneQuestionsToCount questions n prefer).length := by
  unfold pruneQuestionsToCount
  split_ifs
  · rw [orderIndex_reindexQuestions, length_reindexQuestions]
  · rw [removeQuestionsByIds_prunedIds, orderIndex_reindexQuestions, length_reindexQuestions]

/-! ## The node -/

/-- Whatever the model answers, the node falls back on the prune. -/
theorem prunedQuestions_exact_iff {n : ℕ} (hmany : n < questions.length) :
    (∀ reply, (prunedQuestions questions n prefer reply).length = n) ↔
      PrunesExactly questions prefer n := by
  rw [← length_prune_iff, min_eq_right hmany.le]
  constructor
  · intro h
    have hfailed := h .failed
    unfold prunedQuestions at hfailed
    dsimp only at hfailed
    rwa [ite_self] at hfailed
  · intro hexact reply
    unfold prunedQuestions
    dsimp only
    split_ifs with hlength
    · exact hexact
    · exact not_not.1 hlength

end

/-- All that a prune is to do: take questions away up to the requested number, number the
rest anew, and begin with the preferred ones. -/
structure PruneDone (questions : List Question) (expectedCount : ℤ) (prefer : List String)
    (rest : List Question) : Prop where
  part : PartOf rest questions
  length : rest.length = min questions.length expectedCount.toNat
  reindexed : rest.map Question.orderIndex = List.range rest.length
  preferredFirst : ∀ q ∈ questions, q.id ∉ strippedIds prefer → q.id ∉ rest.map Question.id →
    ∀ r ∈ questions, r.id ∈ strippedIds prefer → r.id ∉ rest.map Question.id

/-- **When a prune is exact.**  A prune does all it is to do exactly when the ids allow it,
and the node returns the requested number, whatever the model answers, exactly when that
many questions are there and either no more or the ids allow it. -/
theorem prune_exact_iff (questions : List Question) (expectedCount : ℤ) (prefer : List String)
    (s : GraphState) :
    (PruneDone questions expectedCount prefer
        (pruneQuestionsToCount questions expectedCount.toNat prefer) ↔
      PrunesExactly questions prefer expectedCount.toNat) ∧
    ((∀ o, (runQuestionPrune s o).error = none ∧
        ∃ rest, (runQuestionPrune s o).parsedQuestions = some rest ∧
          rest.length = s.questionCount) ↔
      0 < s.questionCount ∧ s.questionCount ≤ s.current.length ∧
        PrunesExactly s.current s.qcReverifyQuestionIds s.questionCount) := by
  refine ⟨⟨fun h => length_prune_iff.1 h.length, fun h => ?_⟩, ?_⟩
  · exact {
      part := pruneQuestionsToCount_partOf _ _ _
      length := length_prune_iff.2 h
      reindexed := orderIndex_prune _
      preferredFirst := fun q hq hpref hgone r hr hrpref =>
        prune_preferred_first hq hpref hgone hr hrpref }
  · unfold runQuestionPrune
    by_cases hnil : s.current = []
    · simp only [hnil, if_true, GraphState.aborted, reduceCtorEq, false_and, List.length_nil,
        Nat.le_zero]
      refine iff_of_false (fun h => h {}) fun h => ?_
      omega
    simp only [if_neg hnil]
    by_cases hzero : s.questionCount = 0
    · simp only [hzero, if_true, GraphState.aborted, reduceCtorEq, false_and, lt_irrefl]
      exact iff_of_false (fun h => h {}) id
    simp only [if_neg hzero]
    rw [and_iff_right (Nat.pos_of_ne_zero hzero)]
    by_cases hsmall : s.current.length ≤ s.questionCount
    · simp only [if_pos hsmall, GraphState.afterNoPrune, true_and, Option.some.injEq,
        exists_eq_left']
      constructor
      · intro h
        have hlength := h {}
        refine ⟨hlength.ge, length_prune_iff.1 ?_⟩
        unfold pruneQuestionsToCount
        rw [if_pos hsmall, length_reindexQuestions, min_eq_left hsmall]
      · exact fun h _ => le_antisymm hsmall h.1
    · simp only [if_neg hsmall, GraphState.afterPrune, true_and, Option.some.injEq,
        exists_eq_left']
      have hmany := not_le.1 hsmall
      rw [and_iff_right hmany.le, ← prunedQuestions_exact_iff hmany]
      exact ⟨fun h reply => h { pruned := reply }, fun h o => h o.pruned⟩

/-- One question too many: the last one is named, and the one that shares its id goes too. -/
theorem prune_repeated_id :
    let quiz := [filledQuestion "b" "B" 0, filledQuestion "a" "A" 1, filledQuestion "a" "C" 2]
    (∀ q ∈ quiz, q.id ≠ "") ∧
      (pruneQuestionsToCount quiz 2 []).length = 1 ∧
      (prunedQuestions quiz 2 [] .failed).length = 1 := by decide

end StudyAgent.Quiz
