import Mathlib.Data.List.Basic
import Mathlib.Data.List.Nodup

/-!
# Marked rows

A table whose rows have keys of their own and fall into groups.  Some rows are marked, and no
group may have two marked rows.

Main results:

* `AtMostOne.length_le` — the law, as a count.
* `AtMostOne.map`, `AtMostOne.append` — **a change that marks at most one row of a group without
  another marked row keeps the law.**
-/

namespace MarkedRows

variable {R K G : Type} {key : R → K} {marked : R → Prop} {group : R → G} {rows : List R}

/-- The keys are distinct, and two marked rows of one group are the same. -/
structure AtMostOne (key : R → K) (marked : R → Prop) (group : R → G) (rows : List R) : Prop where
  keys : (rows.map key).Nodup
  one : ∀ r ∈ rows, ∀ r' ∈ rows, marked r → marked r' → group r = group r' → r = r'

namespace AtMostOne

theorem nil : AtMostOne key marked group [] := ⟨List.nodup_nil, nofun⟩

theorem eq_of_key (h : AtMostOne key marked group rows) {r r' : R} (hr : r ∈ rows)
    (hr' : r' ∈ rows) (hkey : key r = key r') : r = r' :=
  List.inj_on_of_nodup_map h.keys hr hr' hkey

/-- **No group has two marked rows.** -/
theorem length_le [DecidablePred marked] [DecidableEq G] (h : AtMostOne key marked group rows)
    (g : G) : (rows.filter fun r => group r = g ∧ marked r).length ≤ 1 := by
  have hnodup := (h.keys.of_map key).filter fun r => decide (group r = g ∧ marked r)
  have hmem : ∀ r ∈ rows.filter fun r => group r = g ∧ marked r,
      r ∈ rows ∧ group r = g ∧ marked r := by
    intro r hr
    simpa using hr
  match hfound : rows.filter fun r => group r = g ∧ marked r with
  | [] => simp
  | [_] => simp
  | r :: r' :: rest =>
    rw [hfound] at hnodup hmem
    obtain ⟨hr, hg, hm⟩ := hmem r (by simp)
    obtain ⟨hr', hg', hm'⟩ := hmem r' (by simp)
    have heq : r = r' := h.one r hr r' hr' hm hm' (hg.trans hg'.symm)
    simp [heq] at hnodup

/-- **A change of rows**, after which a newly marked row is the only marked one of its group. -/
theorem map {f : R → R} (h : AtMostOne key marked group rows)
    (hkey : ∀ r, key (f r) = key r) (hgroup : ∀ r, group (f r) = group r)
    (hmarked : ∀ r ∈ rows, marked (f r) → marked r ∨
      ∀ r' ∈ rows, marked (f r') → group r' = group r → r' = r) :
    AtMostOne key marked group (rows.map f) := by
  refine ⟨?_, ?_⟩
  · rw [List.map_map, show key ∘ f = key from funext hkey]
    exact h.keys
  · intro s hs s' hs' hm hm' hg
    obtain ⟨r, hr, rfl⟩ := List.mem_map.1 hs
    obtain ⟨r', hr', rfl⟩ := List.mem_map.1 hs'
    rw [hgroup, hgroup] at hg
    have heq : r = r' := by
      rcases hmarked r hr hm with hwas | halone
      · rcases hmarked r' hr' hm' with hwas' | halone'
        · exact h.one r hr r' hr' hwas hwas' hg
        · exact halone' r hr hm hg
      · exact (halone r' hr' hm' hg.symm).symm
    rw [heq]

/-- **A new row**, which is marked only in a group without a marked row. -/
theorem append {r : R} (h : AtMostOne key marked group rows) (hnew : key r ∉ rows.map key)
    (hmarked : marked r → ∀ r' ∈ rows, marked r' → group r' ≠ group r) :
    AtMostOne key marked group (rows ++ [r]) := by
  refine ⟨?_, ?_⟩
  · rw [List.map_append, List.nodup_append]
    refine ⟨h.keys, List.nodup_singleton _, ?_⟩
    intro a ha b hb heq
    obtain rfl : b = key r := by simpa using hb
    exact hnew (heq ▸ ha)
  · intro s hs s' hs' hm hm' hg
    rcases List.mem_append.1 hs with hold | hadded
    · rcases List.mem_append.1 hs' with hold' | hadded'
      · exact h.one s hold s' hold' hm hm' hg
      · obtain rfl := List.mem_singleton.1 hadded'
        exact absurd hg (hmarked hm' s hold hm)
    · obtain rfl := List.mem_singleton.1 hadded
      rcases List.mem_append.1 hs' with hold' | hadded'
      · exact absurd hg.symm (hmarked hm s' hold' hm')
      · exact (List.mem_singleton.1 hadded').symm

end AtMostOne

/-! ## One row -/

variable [DecidableEq K]

/-- The row with a key. -/
def find (key : R → K) (rows : List R) (k : K) : Option R := rows.find? fun r => key r = k

/-- Change the row with a key. -/
def update (key : R → K) (rows : List R) (k : K) (f : R → R) : List R :=
  rows.map fun r => if key r = k then f r else r

variable {k : K} {r : R} {f : R → R}

theorem mem_of_find (h : find key rows k = some r) : r ∈ rows ∧ key r = k :=
  ⟨List.mem_of_find?_eq_some h, by simpa using List.find?_some h⟩

theorem AtMostOne.find_eq (h : AtMostOne key marked group rows) (hr : r ∈ rows) :
    find key rows (key r) = some r := by
  have hfound : (find key rows (key r)).isSome := by
    rw [find, List.find?_isSome]
    exact ⟨r, hr, by simp⟩
  obtain ⟨r', hr'⟩ := Option.isSome_iff_exists.1 hfound
  obtain ⟨hmem, hkey⟩ := mem_of_find hr'
  rw [hr', h.eq_of_key hmem hr hkey]

/-- A change of one row keeps the keys. -/
theorem map_key_update (hkey : ∀ r, key (f r) = key r) :
    (update key rows k f).map key = rows.map key := by
  rw [update, List.map_map]
  refine List.map_congr_left fun r _ => ?_
  rw [Function.comp_apply]
  split_ifs
  · exact hkey r
  · rfl

theorem mem_update {s : R} (h : s ∈ update key rows k f) :
    (∃ r ∈ rows, key r = k ∧ s = f r) ∨ (s ∈ rows ∧ key s ≠ k) := by
  obtain ⟨r, hr, rfl⟩ := List.mem_map.1 h
  by_cases hk : key r = k
  · rw [if_pos hk]
    exact Or.inl ⟨r, hr, hk, rfl⟩
  · rw [if_neg hk]
    exact Or.inr ⟨hr, hk⟩

/-- **A change of one row**, which is marked only if no other row of its group is. -/
theorem AtMostOne.update (h : AtMostOne key marked group rows) (k : K)
    (hkey : ∀ r, key (f r) = key r) (hgroup : ∀ r, group (f r) = group r)
    (hmarked : ∀ r ∈ rows, key r = k → marked (f r) → marked r ∨
      ∀ r' ∈ rows, marked r' → group r' = group r → key r' = k) :
    AtMostOne key marked group (update key rows k f) := by
  refine h.map ?_ ?_ ?_
  · intro r
    split_ifs
    · exact hkey r
    · rfl
  · intro r
    split_ifs
    · exact hgroup r
    · rfl
  · intro r hr hm
    split_ifs at hm with hk
    · refine (hmarked r hr hk hm).imp id fun halone r' hr' hm' hg => ?_
      split_ifs at hm' with hk'
      · exact h.eq_of_key hr' hr (hk'.trans hk.symm)
      · exact absurd (halone r' hr' hm' hg) hk'
    · exact Or.inl hm

end MarkedRows
