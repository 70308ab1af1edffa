import StudyAgent.Base.FirstOccurrences
import Mathlib.Data.List.Sort
import Mathlib.Data.Prod.Lex

/-!
# Numbering within groups

The members of each group of a list are put in order and numbered from 1.  The groups one after
another, each in the order of its numbers, are one list.

Main results:

* `filter_numberGroups` — **each group is there in order, numbered from 1.**
* `nodup_numberGroups` — a group and a number determine a member.
* `perm_numberGroups` — no member is lost.
-/

namespace GroupNumbering

open Dedup

variable {α κ : Type} (group : α → κ) (le : α → α → Prop) [DecidableRel le]

section

variable [DecidableEq κ]

/-- The members of one group, in order. -/
def ordered (l : List α) (k : κ) : List α := (l.filter fun a => group a = k).insertionSort le

/-- The groups as they come, each in order and numbered. -/
def number (l : List α) : List (α × ℕ) :=
  (firsts (l.map group)).flatMap fun k => (ordered group le l k).zipIdx 1

variable {group le}

theorem group_of_mem_ordered {l : List α} {k : κ} {a : α} (h : a ∈ ordered group le l k) :
    group a = k := by
  have hmem := (List.mem_insertionSort _).1 h
  exact of_decide_eq_true (List.mem_filter.1 hmem).2

theorem group_of_mem_zipIdx {l : List α} {k : κ} {x : α × ℕ}
    (h : x ∈ (ordered group le l k).zipIdx 1) : group x.1 = k :=
  group_of_mem_ordered (List.fst_mem_of_mem_zipIdx h)

/-- The groups apart: a list that is put together of groups gives each of them back. -/
theorem filter_flatMap {β : Type} (key : β → κ) {part : κ → List β} {k : κ} :
    ∀ {ks : List κ}, ks.Nodup → (∀ i, ∀ x ∈ part i, key x = i) →
      (ks.flatMap part).filter (fun x => key x = k) = if k ∈ ks then part k else [] := by
  intro ks hnodup hkey
  induction ks with
  | nil => rfl
  | cons i ks ih =>
    obtain ⟨hi, hnodup⟩ := List.nodup_cons.1 hnodup
    rw [List.flatMap_cons, List.filter_append, ih hnodup]
    by_cases hik : i = k
    · subst hik
      have hall : (part i).filter (fun x => key x = i) = part i :=
        List.filter_eq_self.2 fun x hx => decide_eq_true (hkey i x hx)
      rw [hall, if_neg hi, List.append_nil, if_pos List.mem_cons_self]
    · have hnone : (part i).filter (fun x => key x = k) = [] :=
        List.filter_eq_nil_iff.2 fun x hx => by rw [hkey i x hx]; simpa using hik
      rw [hnone, List.nil_append]
      simp [Ne.symm hik]

theorem filter_number (l : List α) (k : κ) :
    (number group le l).filter (fun x => group x.1 = k) = (ordered group le l k).zipIdx 1 := by
  rw [number, filter_flatMap (fun x : α × ℕ => group x.1) (nodup_firsts _)
    fun i x hx => group_of_mem_zipIdx hx]
  split_ifs with hk
  · rfl
  · have hempty : l.filter (fun a => group a = k) = [] :=
      List.filter_eq_nil_iff.2 fun a ha heq =>
        hk (mem_firsts.2 (List.mem_map.2 ⟨a, ha, of_decide_eq_true heq⟩))
    rw [ordered, hempty]
    rfl

/-- Putting a list together of its groups reorders it. -/
theorem perm_flatMap_filter {β : Type} (key : β → κ) :
    ∀ {ks : List κ} {l : List β}, ks.Nodup → (∀ x ∈ l, key x ∈ ks) →
      (ks.flatMap fun k => l.filter fun x => key x = k).Perm l := by
  intro ks
  induction ks with
  | nil =>
    intro l _ hmem
    cases l with
    | nil => exact .nil
    | cons x l => exact absurd (hmem x List.mem_cons_self) (by simp)
  | cons k ks ih =>
    intro l hnodup hmem
    obtain ⟨hk, hnodup⟩ := List.nodup_cons.1 hnodup
    rw [List.flatMap_cons]
    have hrest : (ks.flatMap fun i => l.filter fun x => key x = i) =
        ks.flatMap fun i => (l.filter fun x => ¬ key x = k).filter fun x => key x = i := by
      refine List.flatMap_congr fun i hi => ?_
      rw [List.filter_filter]
      refine List.filter_congr fun x _ => ?_
      by_cases hx : key x = i
      · have hne : i ≠ k := fun h => hk (h ▸ hi)
        simp [hx, hne]
      · simp [hx]
    have hperm := ih (l := l.filter fun x => ¬ key x = k) hnodup fun x hx => by
      obtain ⟨hxl, hxk⟩ := List.mem_filter.1 hx
      exact (List.mem_cons.1 (hmem x hxl)).resolve_left (by simpa using hxk)
    rw [hrest]
    refine (hperm.append_left _).trans ?_
    have hsplit := List.filter_append_perm (fun x => decide (key x = k)) l
    simpa using hsplit

theorem perm_number (l : List α) : ((number group le l).map Prod.fst).Perm l := by
  have hmap : (number group le l).map Prod.fst =
      (firsts (l.map group)).flatMap fun k => ordered group le l k := by
    rw [number, List.map_flatMap]
    exact List.flatMap_congr fun k _ => List.zipIdx_map_fst _ _
  rw [hmap]
  refine List.Perm.trans ?_ (perm_flatMap_filter group (nodup_firsts (l.map group))
    fun a ha => mem_firsts.2 (List.mem_map_of_mem ha))
  exact List.Perm.flatMap_left _ fun k _ => List.perm_insertionSort _ _

theorem nodup_number (l : List α) :
    ((number group le l).map fun x => (group x.1, x.2)).Nodup := by
  rw [number, List.map_flatMap, List.nodup_flatMap]
  refine ⟨fun k _ => ?_, ?_⟩
  · have hsnd : (((ordered group le l k).zipIdx 1).map Prod.snd).Nodup := by
      rw [List.zipIdx_map_snd]
      exact List.nodup_range' ..
    exact List.Nodup.of_map Prod.snd (by simpa [List.map_map, Function.comp_def] using hsnd)
  · refine (nodup_firsts (l.map group)).imp fun {j k} hjk => ?_
    rw [Function.onFun_apply, List.disjoint_left]
    rintro _ hj hk
    obtain ⟨x, hx, rfl⟩ := List.mem_map.1 hj
    obtain ⟨y, hy, hxy⟩ := List.mem_map.1 hk
    exact hjk (((group_of_mem_zipIdx hx).symm.trans (Prod.mk.inj hxy).1.symm).trans
      (group_of_mem_zipIdx hy))

end

section

variable [LinearOrder κ]

/-- First by group, then by number. -/
def before (x y : α × ℕ) : Prop := toLex (group x.1, x.2) ≤ toLex (group y.1, y.2)

instance : DecidableRel (before group) := fun x y =>
  inferInstanceAs (Decidable (toLex (group x.1, x.2) ≤ toLex (group y.1, y.2)))

instance : Std.Total (before group) := ⟨fun _ _ => le_total _ _⟩

instance : IsTrans (α × ℕ) (before group) := ⟨fun _ _ _ => le_trans⟩

/-- The groups one after another, each in order and numbered. -/
def numberGroups (l : List α) : List (α × ℕ) := (number group le l).insertionSort (before group)

variable {group le}

theorem perm_numberGroups (l : List α) : ((numberGroups group le l).map Prod.fst).Perm l :=
  ((List.perm_insertionSort _ _).map _).trans (perm_number l)

theorem nodup_numberGroups (l : List α) :
    ((numberGroups group le l).map fun x => (group x.1, x.2)).Nodup :=
  ((List.perm_insertionSort _ _).map _).nodup_iff.2 (nodup_number l)

/-- The groups come one after another. -/
theorem pairwise_numberGroups (l : List α) :
    (numberGroups group le l).Pairwise (before group) := List.pairwise_insertionSort _ _

/-- Within a group the order is that of the numbers. -/
theorem pairwise_zipIdx (m : List α) (k : κ) (hgroup : ∀ a ∈ m, group a = k) (n : ℕ) :
    (m.zipIdx n).Pairwise (before group) := by
  induction m generalizing n with
  | nil => exact .nil
  | cons a m ih =>
    rw [List.zipIdx_cons, List.pairwise_cons]
    refine ⟨fun y hy => ?_, ih (fun b hb => hgroup b (List.mem_cons_of_mem a hb)) (n + 1)⟩
    have hle : n + 1 ≤ y.2 := List.le_snd_of_mem_zipIdx hy
    have hya := hgroup y.1 (List.mem_cons_of_mem a (List.fst_mem_of_mem_zipIdx hy))
    rw [before, Prod.Lex.toLex_le_toLex]
    exact Or.inr ⟨by rw [hya, hgroup a List.mem_cons_self], by dsimp only; omega⟩

/-- **Each group is there in order, numbered from 1.** -/
theorem filter_numberGroups (l : List α) (k : κ) :
    (numberGroups group le l).filter (fun x => group x.1 = k) =
      (ordered group le l k).zipIdx 1 := by
  have hperm : ((numberGroups group le l).filter fun x => group x.1 = k).Perm
      ((ordered group le l k).zipIdx 1) := by
    rw [← filter_number]
    exact (List.perm_insertionSort _ _).filter _
  refine List.Perm.eq_of_pairwise ?_ ((pairwise_numberGroups l).filter _)
    (pairwise_zipIdx _ k (fun a ha => group_of_mem_ordered ha) 1) hperm
  -- two members of one group with one number are one member
  intro x y hx hy hxy hyx
  have heq : (group x.1, x.2) = (group y.1, y.2) := toLex.injective (le_antisymm hxy hyx)
  have hxl := (List.mem_filter.1 hx).1
  have hyl := (List.mem_filter.1 (hperm.mem_iff.2 hy)).1
  exact List.inj_on_of_nodup_map (nodup_numberGroups l) hxl hyl heq

end

end GroupNumbering
