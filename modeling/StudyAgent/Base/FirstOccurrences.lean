import Mathlib.Order.Nat
import StudyAgent.Base.Dedup

/-!
# First occurrences

The different elements of a list in the order in which they first come, and how many
elements of the list the first few of them account for.

Main results:

* `collect_eq_append` — collecting behind a list appends the first occurrences of what
  is new.
* `countP_take_firsts` — **when the first `m` different elements come `m` times.**
-/

namespace Dedup

variable {α β : Type} [DecidableEq β]

/-- The different elements of a list, in the order in which they first come. -/
def firsts (l : List β) : List β := collect id (fun _ => true) [] l

theorem mem_firsts {l : List β} {x : β} : x ∈ firsts l ↔ x ∈ l := by
  unfold firsts
  rw [mem_collect]
  simp

theorem nodup_firsts (l : List β) : (firsts l).Nodup := nodup_collect List.nodup_nil l

theorem firsts_append (l m : List β) :
    firsts (l ++ m) = collect id (fun _ => true) (firsts l) m := collect_append _ _ _

theorem firsts_prefix (l m : List β) : firsts l <+: firsts (l ++ m) := by
  rw [firsts_append]
  exact collect_prefix _ _

theorem firsts_concat (l : List β) (x : β) :
    firsts (l ++ [x]) = if x ∈ firsts l then firsts l else firsts l ++ [x] := by
  rw [firsts_append]
  unfold collect
  by_cases h : x ∈ firsts l <;> simp [h]

theorem length_firsts_le (l : List β) : (firsts l).length ≤ l.length := by
  induction l using List.reverseRecOn with
  | nil => exact le_rfl
  | append_singleton l x ih =>
    rw [firsts_concat, List.length_append, List.length_singleton]
    split_ifs
    · omega
    · rw [List.length_append, List.length_singleton]
      omega

theorem firsts_of_nodup {l : List β} (h : l.Nodup) : firsts l = l := by
  induction l using List.reverseRecOn with
  | nil => rfl
  | append_singleton l x ih =>
    obtain ⟨hl, -, hdisj⟩ := List.nodup_append.1 h
    have hx : x ∉ l := fun hmem => hdisj x hmem x (List.mem_singleton_self x) rfl
    rw [firsts_concat, ih hl, if_neg hx]

theorem collect_cons {f : α → β} {keep : β → Bool} (start : List β) (a : α) (l : List α) :
    collect f keep start (a :: l) =
      collect f keep (if keep (f a) && f a ∉ start then start ++ [f a] else start) l := rfl

/-- **Collecting behind a list** appends the first occurrences of what is new. -/
theorem collect_eq_append {f : α → β} {keep : β → Bool} (start : List β) (l : List α) :
    collect f keep start l =
      start ++ firsts ((l.map f).filter fun x => keep x && decide (x ∉ start)) := by
  have hgen : ∀ (l : List α) (acc : List β),
      collect f keep (start ++ acc) l =
        start ++ collect id (fun _ => true) acc
          ((l.map f).filter fun x => keep x && decide (x ∉ start)) := by
    intro l
    induction l with
    | nil => exact fun _ => rfl
    | cons a l ih =>
      intro acc
      rw [List.map_cons, collect_cons]
      by_cases hnew : keep (f a) = true ∧ f a ∉ start
      · rw [List.filter_cons_of_pos (by simpa using hnew), collect_cons]
        by_cases hacc : f a ∈ acc
        · have hthere : f a ∈ start ++ acc := List.mem_append_right _ hacc
          rw [if_neg (by simp only [hthere]; simp), if_neg (by simp [hacc])]
          exact ih acc
        · have hfresh : f a ∉ start ++ acc := by simp [hnew.2, hacc]
          rw [if_pos (by simp only [hnew.1, hfresh]; decide), if_pos (by simp [hacc]),
            List.append_assoc]
          exact ih (acc ++ [f a])
      · have hskip : ¬ (keep (f a) && decide (f a ∉ start ++ acc)) = true := by
          intro h
          rw [Bool.and_eq_true, decide_eq_true_eq, List.mem_append, not_or] at h
          exact hnew ⟨h.1, h.2.1⟩
        rw [List.filter_cons_of_neg (by simpa using hnew), if_neg hskip]
        exact ih acc
  have hall := hgen l []
  rwa [List.append_nil] at hall

/-- The first occurrences of the first `m` elements are among the first `m` different
ones. -/
theorem take_subset_take_firsts (l : List β) (m : ℕ) : l.take m ⊆ (firsts l).take m := by
  intro x hx
  have hprefix : firsts (l.take m) <+: firsts l := by
    conv_rhs => rw [← List.take_append_drop m l]
    exact firsts_prefix _ _
  have hlen : (firsts (l.take m)).length ≤ m :=
    (length_firsts_le _).trans (List.length_take_le m l)
  obtain ⟨rest, hrest⟩ := hprefix
  rw [← hrest, List.take_append, List.take_of_length_le hlen]
  exact List.mem_append_left _ (mem_firsts.2 hx)

/-- **When the first `m` different elements come `m` times**: the first `m` elements are
different and none of them comes later, or there are just `m`. -/
theorem countP_take_firsts {l : List β} {m : ℕ} :
    (l.countP fun x => x ∈ (firsts l).take m) = m ↔
      m ≤ l.length ∧ (∀ x ∈ l.take m, x ∉ l.drop m) ∧ (l.drop m = [] ∨ (l.take m).Nodup) := by
  have hsplit : (l.countP fun x => x ∈ (firsts l).take m) =
      (l.take m).length + (l.drop m).countP fun x => x ∈ (firsts l).take m := by
    conv_lhs => rw [← List.take_append_drop m l, List.countP_append]
    rw [List.take_append_drop]
    congr 1
    rw [List.countP_eq_length]
    exact fun x hx => decide_eq_true (take_subset_take_firsts l m hx)
  rw [List.length_take] at hsplit
  constructor
  · intro hcount
    have hle : m ≤ l.length := hcount ▸ List.countP_le_length
    rw [hcount, min_eq_left hle] at hsplit
    have hlater : ∀ x ∈ l.drop m, x ∉ (firsts l).take m := by
      have hzero : (l.drop m).countP (fun x => x ∈ (firsts l).take m) = 0 := by omega
      rw [List.countP_eq_zero] at hzero
      exact fun x hx hmem => hzero x hx (decide_eq_true hmem)
    refine ⟨hle, fun x hx hx' => hlater x hx' (take_subset_take_firsts l m hx), ?_⟩
    rw [or_iff_not_imp_left]
    intro hne
    -- something is left, so `m` different elements were found, each of them once
    obtain ⟨x, hx⟩ := List.exists_mem_of_ne_nil _ hne
    have hmany : m ≤ (firsts l).length := by
      by_contra hfew
      have hall : (firsts l).take m = firsts l := List.take_of_length_le (by omega)
      refine hlater x hx ?_
      rw [hall]
      exact mem_firsts.2 (List.mem_of_mem_drop hx)
    have hsub : ∀ y ∈ (firsts l).take m, y ∈ l.take m := by
      intro y hy
      have hyl : y ∈ l := mem_firsts.1 (List.mem_of_mem_take hy)
      rw [← List.take_append_drop m l] at hyl
      exact (List.mem_append.1 hyl).resolve_right fun hdrop => hlater y hdrop hy
    have hnodup : ((firsts l).take m).Nodup := (nodup_firsts l).sublist (List.take_sublist _ _)
    have hperm : ((firsts l).take m).Perm (l.take m) := by
      refine (hnodup.subperm hsub).perm_of_length_le ?_
      rw [List.length_take, List.length_take, min_eq_left hmany, min_eq_left hle]
    exact hperm.nodup_iff.1 hnodup
  · rintro ⟨hle, hapart, hrest⟩
    rw [hsplit, min_eq_left hle]
    have hzero : (l.drop m).countP (fun x => x ∈ (firsts l).take m) = 0 := by
      rcases hrest with hnil | hnodup
      · rw [hnil]
        rfl
      · have hfirst : (firsts l).take m = l.take m := by
          have hprefix : l.take m <+: firsts l := by
            conv_lhs => rw [← firsts_of_nodup hnodup]
            conv_rhs => rw [← List.take_append_drop m l]
            exact firsts_prefix _ _
          obtain ⟨rest, hrest⟩ := hprefix
          have hlen : (l.take m).length = m := by rw [List.length_take, min_eq_left hle]
          rw [← hrest]
          exact List.take_left' hlen
        rw [List.countP_eq_zero, hfirst]
        exact fun x hx hmem => hapart x (by simpa using hmem) hx
    rw [hzero, Nat.add_zero]

end Dedup
