import Mathlib.Data.List.Basic

/-!
# Given and invented names

Entries of a list that may come with a name; the ones that come without get an
invented one.  Inventing names that differ among each other is not enough: an
invented name may be the given name of another entry.

Main results:

* `nodup_map_name_iff` — **the names differ exactly when the given ones do and no
  invented one is given.**
-/

namespace GivenNames

variable {α β : Type} (given : α → Option β) (invented : α → β)

/-- The name an entry ends up with. -/
def name (a : α) : β := (given a).getD (invented a)

/-- The given names differ and stay clear of the invented ones. -/
structure Apart (l : List α) : Prop where
  given_nodup : (l.filterMap given).Nodup
  invented_free : ∀ a ∈ l, given a = none → invented a ∉ l.filterMap given

instance [DecidableEq β] (l : List α) : Decidable (Apart given invented l) :=
  decidable_of_iff
    ((l.filterMap given).Nodup ∧ ∀ a ∈ l, given a = none → invented a ∉ l.filterMap given)
    ⟨fun h => ⟨h.1, h.2⟩, fun h => ⟨h.given_nodup, h.invented_free⟩⟩

variable {given invented}

theorem name_of_some {a : α} {x : β} (h : given a = some x) : name given invented a = x := by
  rw [name, h, Option.getD_some]

theorem name_of_none {a : α} (h : given a = none) : name given invented a = invented a := by
  rw [name, h, Option.getD_none]

theorem mem_map_name {l : List α} {x : β} :
    x ∈ l.map (name given invented) ↔
      x ∈ l.filterMap given ∨ ∃ a ∈ l, given a = none ∧ invented a = x := by
  rw [List.mem_map, List.mem_filterMap]
  constructor
  · rintro ⟨a, ha, rfl⟩
    cases hgiven : given a with
    | none => exact Or.inr ⟨a, ha, hgiven, (name_of_none hgiven).symm⟩
    | some y =>
      rw [name_of_some hgiven]
      exact Or.inl ⟨a, ha, hgiven⟩
  · rintro (⟨a, ha, hgiven⟩ | ⟨a, ha, hgiven, rfl⟩)
    · exact ⟨a, ha, name_of_some hgiven⟩
    · exact ⟨a, ha, name_of_none hgiven⟩

/-- One more entry that comes with a name. -/
theorem apart_cons_of_some {a : α} {l : List α} {x : β} (h : given a = some x) :
    Apart given invented (a :: l) ↔
      x ∉ l.map (name given invented) ∧ Apart given invented l := by
  have hcons : (a :: l).filterMap given = x :: l.filterMap given := List.filterMap_cons_some h
  rw [mem_map_name, not_or]
  constructor
  · rintro ⟨hnodup, hfree⟩
    rw [hcons] at hnodup hfree
    obtain ⟨hx, hnodup⟩ := List.nodup_cons.1 hnodup
    refine ⟨⟨hx, ?_⟩, hnodup, fun b hb hnone => ?_⟩
    · rintro ⟨b, hb, hnone, rfl⟩
      exact hfree b (List.mem_cons_of_mem a hb) hnone List.mem_cons_self
    · intro hmem
      exact hfree b (List.mem_cons_of_mem a hb) hnone (List.mem_cons_of_mem x hmem)
  · rintro ⟨⟨hx, hclash⟩, hnodup, hfree⟩
    refine ⟨?_, ?_⟩
    · rw [hcons]
      exact List.nodup_cons.2 ⟨hx, hnodup⟩
    · rw [hcons]
      intro b hb hnone hmem
      rcases List.mem_cons.1 hb with rfl | hb
      · rw [h] at hnone
        cases hnone
      · rcases List.mem_cons.1 hmem with heq | hmem
        · exact hclash ⟨b, hb, hnone, heq⟩
        · exact hfree b hb hnone hmem

/-- One more entry that comes without a name. -/
theorem apart_cons_of_none {a : α} {l : List α} (h : given a = none)
    (hfresh : invented a ∉ l.map invented) :
    Apart given invented (a :: l) ↔
      invented a ∉ l.map (name given invented) ∧ Apart given invented l := by
  have hcons : (a :: l).filterMap given = l.filterMap given := List.filterMap_cons_none h
  rw [mem_map_name, not_or]
  constructor
  · rintro ⟨hnodup, hfree⟩
    rw [hcons] at hnodup hfree
    refine ⟨⟨hfree a List.mem_cons_self h, ?_⟩, hnodup, fun b hb hnone => ?_⟩
    · rintro ⟨b, hb, -, heq⟩
      exact hfresh (List.mem_map.2 ⟨b, hb, heq⟩)
    · exact hfree b (List.mem_cons_of_mem a hb) hnone
  · rintro ⟨⟨hx, -⟩, hnodup, hfree⟩
    refine ⟨?_, ?_⟩
    · rw [hcons]
      exact hnodup
    · rw [hcons]
      intro b hb hnone
      rcases List.mem_cons.1 hb with rfl | hb
      · exact hx
      · exact hfree b hb hnone

/-- **The names differ exactly when the given ones do and no invented one is
given**, if the invented ones differ. -/
theorem nodup_map_name_iff {l : List α} (hinvented : (l.map invented).Nodup) :
    (l.map (name given invented)).Nodup ↔ Apart given invented l := by
  induction l with
  | nil => exact iff_of_true List.nodup_nil ⟨List.nodup_nil, by simp⟩
  | cons a l ih =>
    rw [List.map_cons] at hinvented
    obtain ⟨hfresh, hinvented⟩ := List.nodup_cons.1 hinvented
    rw [List.map_cons, List.nodup_cons, ih hinvented]
    cases hgiven : given a with
    | none => rw [name_of_none hgiven, apart_cons_of_none hgiven hfresh]
    | some x => rw [name_of_some hgiven, apart_cons_of_some hgiven]

end GivenNames
