import Mathlib.Data.List.Nodup
import Mathlib.Tactic.Common

/-!
# Rows with a key

A table as a list of rows of which no two have one key: what a query by the key finds, and what an
`UPDATE` of the row with a key leaves.

Main results:

* `find_eq_some` — the row that is found by its key.
* `mem_modify` — **everything an `UPDATE` by key leaves.**
-/

namespace KeyedRows

variable {R K : Type} [DecidableEq K] {key : R → K} {rows : List R} {k : K} {r : R}

theorem find_eq_some (h : (rows.map key).Nodup) :
    rows.find? (fun r => key r = k) = some r ↔ r ∈ rows ∧ key r = k := by
  constructor
  · intro hfind
    exact ⟨List.mem_of_find?_eq_some hfind, by simpa using List.find?_some hfind⟩
  · rintro ⟨hr, rfl⟩
    cases hfind : rows.find? fun s => key s = key r with
    | none => simpa using List.find?_eq_none.1 hfind r hr
    | some found =>
      have hkey : key found = key r := by simpa using List.find?_some hfind
      rw [List.inj_on_of_nodup_map h (List.mem_of_find?_eq_some hfind) hr hkey]

theorem find_eq_none : rows.find? (fun r => key r = k) = none ↔ ∀ r ∈ rows, key r ≠ k := by
  rw [List.find?_eq_none]
  simp

/-- Of the rows of a key there is one. -/
theorem filter_eq_singleton (h : (rows.map key).Nodup) (hr : r ∈ rows) :
    rows.filter (fun s => key s = key r) = [r] := by
  refine List.perm_singleton.1 ((List.perm_ext_iff_of_nodup ((List.Nodup.of_map _ h).filter _)
    (List.nodup_singleton r)).2 fun s => ?_)
  rw [List.mem_filter, decide_eq_true_iff, List.mem_singleton]
  refine ⟨fun ⟨hs, hk⟩ => List.inj_on_of_nodup_map h hs hr hk, ?_⟩
  rintro rfl
  exact ⟨hr, rfl⟩

/-- `UPDATE … WHERE key = k`. -/
def modify (key : R → K) (k : K) (f : R → R) (rows : List R) : List R :=
  rows.map fun r => if key r = k then f r else r

/-- A column that the update leaves alone. -/
theorem map_modify {C : Type} {column : R → C} {f : R → R} (h : ∀ r, column (f r) = column r) :
    (modify key k f rows).map column = rows.map column := by
  rw [modify, List.map_map]
  refine List.map_congr_left fun r _ => ?_
  rw [Function.comp_apply]
  split_ifs
  · exact h r
  · rfl

/-- **Everything an update by key leaves.** -/
theorem mem_modify {f : R → R} :
    r ∈ modify key k f rows ↔ (r ∈ rows ∧ key r ≠ k) ∨ ∃ s ∈ rows, key s = k ∧ f s = r := by
  rw [modify, List.mem_map]
  constructor
  · rintro ⟨s, hs, rfl⟩
    by_cases hk : key s = k
    · exact Or.inr ⟨s, hs, hk, (if_pos hk).symm⟩
    · rw [if_neg hk]
      exact Or.inl ⟨hs, hk⟩
  · rintro (⟨hr, hk⟩ | ⟨s, hs, hk, rfl⟩)
    · exact ⟨r, hr, if_neg hk⟩
    · exact ⟨s, hs, if_pos hk⟩

end KeyedRows
