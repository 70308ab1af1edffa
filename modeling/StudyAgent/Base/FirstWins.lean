import StudyAgent.Base.FirstOccurrences

/-!
# The first element of each key

A loop over a list that keeps an element when its key is admissible and no earlier element has
it.  The keys it has seen may come from another list.

Main results:

* `collect_eq_firstWins` — the keys that are kept are the collected ones.
* `firstWins_append` — **a second list adds what the first has no key of.**
* `length_firstWins` — as many are kept as there are admissible keys.
-/

namespace Dedup

section FirstWins

variable {α κ : Type} [DecidableEq κ]

/-- Keep an element when its key is admissible and not among those seen. -/
def firstWins (key : α → κ) (keep : κ → Bool) : List κ → List α → List α
  | _, [] => []
  | seen, a :: l =>
    if keep (key a) && key a ∉ seen then a :: firstWins key keep (seen ++ [key a]) l
    else firstWins key keep seen l

variable {key : α → κ} {keep : κ → Bool}

/-- **The keys that are kept** are the collected ones. -/
theorem collect_eq_firstWins (seen : List κ) (l : List α) :
    collect key keep seen l = seen ++ (firstWins key keep seen l).map key := by
  induction l generalizing seen with
  | nil => exact (List.append_nil seen).symm
  | cons a l ih =>
    rw [collect_cons, firstWins]
    split_ifs
    · rw [ih, List.map_cons, List.append_assoc, List.singleton_append]
    · exact ih seen

/-- **A second list adds what the first has no key of.** -/
theorem firstWins_append (seen : List κ) (l m : List α) :
    firstWins key keep seen (l ++ m) =
      firstWins key keep seen l ++ firstWins key keep (collect key keep seen l) m := by
  induction l generalizing seen with
  | nil => rfl
  | cons a l ih =>
    rw [List.cons_append, firstWins, firstWins, collect_cons]
    split_ifs
    · rw [ih, List.cons_append]
    · exact ih seen

theorem firstWins_sublist (seen : List κ) (l : List α) :
    (firstWins key keep seen l).Sublist l := by
  induction l generalizing seen with
  | nil => exact List.Sublist.refl _
  | cons a l ih =>
    rw [firstWins]
    split_ifs
    · exact (ih _).cons_cons a
    · exact (ih _).cons a

/-- A key that is kept is admissible and was not seen. -/
theorem key_of_mem_firstWins {seen : List κ} {l : List α} {a : α}
    (h : a ∈ firstWins key keep seen l) : keep (key a) = true ∧ key a ∉ seen := by
  induction l generalizing seen with
  | nil => cases h
  | cons b l ih =>
    rw [firstWins] at h
    split_ifs at h with hb
    · rw [Bool.and_eq_true, decide_eq_true_eq] at hb
      rcases List.mem_cons.1 h with rfl | h
      · exact hb
      · obtain ⟨hkeep, hseen⟩ := ih h
        exact ⟨hkeep, fun hmem => hseen (List.mem_append_left _ hmem)⟩
    · exact ih h

theorem nodup_map_firstWins (l : List α) : ((firstWins key keep [] l).map key).Nodup := by
  have hnodup : (collect key keep [] l).Nodup := nodup_collect List.nodup_nil l
  rwa [collect_eq_firstWins, List.nil_append] at hnodup

/-- **As many are kept as there are admissible keys.** -/
theorem length_firstWins (l : List α) :
    (firstWins key keep [] l).length = ((l.map key).filter keep).dedup.length := by
  have hmem : ∀ k, k ∈ (firstWins key keep [] l).map key ↔ k ∈ ((l.map key).filter keep).dedup := by
    intro k
    have hcollect : k ∈ collect key keep [] l ↔ _ := mem_collect
    rw [collect_eq_firstWins, List.nil_append] at hcollect
    rw [hcollect, List.mem_dedup, List.mem_filter, List.mem_map]
    simp [and_comm]
  have hperm : ((firstWins key keep [] l).map key).Perm ((l.map key).filter keep).dedup :=
    (List.perm_ext_iff_of_nodup (nodup_map_firstWins l) (List.nodup_dedup _)).2 hmem
  rw [← hperm.length_eq, List.length_map]

end FirstWins

/-- More members make no fewer different ones. -/
theorem length_dedup_le {α : Type} [DecidableEq α] {l m : List α} (h : l ⊆ m) :
    l.dedup.length ≤ m.dedup.length :=
  le_length_dedup_iff.2 ⟨l.dedup, List.nodup_dedup l, rfl, fun _ hx => h (List.mem_dedup.1 hx)⟩

end Dedup
