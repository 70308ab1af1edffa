import Mathlib.Algebra.Order.BigOperators.Group.List
import Mathlib.Algebra.Order.Group.Nat
import Mathlib.Data.List.Basic
import Mathlib.Data.List.Nodup
import Mathlib.Logic.Relation
import Mathlib.Order.Nat

/-!
# Forests

Nodes listed in order, each with at most one parent, and a height that certifies that no node
is its own ancestor.  The descendants of a node are listed by a walk through the children.

Main results:

* `not_below_self` — **no node is below itself.**
* `mem_descendants_iff` — **the walk lists exactly what is below a node.**
* `descendants_eq_flatMap` — a node's descendants are the subtrees of its children.
* `flatMap_roots_perm` — **the subtrees of the roots list every node once.**
-/

/-- A forest by parents. -/
structure Forest (ι : Type) where
  nodes : List ι
  parent : ι → Option ι
  mem_of_parent : ∀ x p, parent x = some p → x ∈ nodes
  /-- The certificate that parents never loop. -/
  height : ι → ℕ
  height_lt : ∀ x p, parent x = some p → height x < height p

namespace Forest

variable {ι : Type} (F : Forest ι) {x y z p : ι}

/-- `y` is below `x`: a child of it, or below one. -/
def Below (x y : ι) : Prop := Relation.TransGen (fun p c => F.parent c = some p) x y

/-- `y` is `x` or below it. -/
def AtOrBelow (x y : ι) : Prop := Relation.ReflTransGen (fun p c => F.parent c = some p) x y

variable {F}

theorem Below.height_lt (h : F.Below x y) : F.height y < F.height x := by
  induction h with
  | single hp => exact F.height_lt _ _ hp
  | tail _ hp ih => exact (F.height_lt _ _ hp).trans ih

theorem not_below_self (x : ι) : ¬ F.Below x x := fun h => lt_irrefl _ h.height_lt

theorem AtOrBelow.eq_or_below (h : F.AtOrBelow x y) : y = x ∨ F.Below x y :=
  Relation.reflTransGen_iff_eq_or_transGen.1 h

theorem Below.atOrBelow (h : F.Below x y) : F.AtOrBelow x y := h.to_reflTransGen

theorem parent_ne_self (h : F.parent x = some p) : p ≠ x := by
  rintro rfl
  exact not_below_self _ (Relation.TransGen.single h)

/-- What is below a node is its child or below the parent of what is. -/
theorem Below.parent_atOrBelow (h : F.Below x y) (hp : F.parent y = some p) : F.AtOrBelow x p := by
  obtain ⟨q, hq, hparent⟩ := Relation.TransGen.tail'_iff.1 h
  rw [hp, Option.some.injEq] at hparent
  exact hparent ▸ hq

/-- **A node and what is below it never share a parent.** -/
theorem Below.parent_ne (h : F.Below x y) (hx : F.parent x = some p) : F.parent y ≠ some p := by
  intro hy
  have hcycle : F.Below x x := by
    rcases (h.parent_atOrBelow hy).eq_or_below with rfl | hbelow
    · exact Relation.TransGen.single hx
    · exact hbelow.tail hx
  exact not_below_self x hcycle

section Walk

variable [DecidableEq ι]

/-- The children of a node, in order. -/
def children (F : Forest ι) (p : ι) : List ι := F.nodes.filter fun x => F.parent x = some p

theorem mem_children_iff : x ∈ F.children p ↔ F.parent x = some p := by
  rw [children, List.mem_filter, decide_eq_true_iff]
  exact and_iff_right_of_imp fun h => F.mem_of_parent x p h

/-- The walk through the children, as many levels deep. -/
def walk (F : Forest ι) : ℕ → ι → List ι
  | 0, _ => []
  | levels + 1, x => (F.children x).flatMap fun c => c :: F.walk levels c

/-- Everything below a node. -/
def descendants (F : Forest ι) (x : ι) : List ι := F.walk (F.height x) x

theorem mem_walk_iff {levels : ℕ} (h : F.height x ≤ levels) :
    y ∈ F.walk levels x ↔ F.Below x y := by
  induction levels generalizing x with
  | zero =>
    refine iff_of_false List.not_mem_nil fun hbelow => ?_
    have := hbelow.height_lt
    omega
  | succ levels ih =>
    rw [walk, List.mem_flatMap, Below, Relation.TransGen.head'_iff]
    refine exists_congr fun c => ?_
    rw [mem_children_iff]
    refine and_congr_right fun hc => ?_
    have hlt := F.height_lt _ _ hc
    rw [List.mem_cons, ih (by omega), Relation.reflTransGen_iff_eq_or_transGen]
    rfl

theorem mem_descendants_iff : y ∈ F.descendants x ↔ F.Below x y := mem_walk_iff le_rfl

/-- A node and everything below it. -/
def subtree (F : Forest ι) (x : ι) : List ι := x :: F.descendants x

theorem mem_subtree_iff : y ∈ F.subtree x ↔ F.AtOrBelow x y := by
  rw [subtree, List.mem_cons, mem_descendants_iff]
  exact Relation.reflTransGen_iff_eq_or_transGen.symm

theorem children_eq_nil (h : F.height x = 0) : F.children x = [] := by
  refine List.eq_nil_iff_forall_not_mem.2 fun c hc => ?_
  have := F.height_lt _ _ (mem_children_iff.1 hc)
  omega

/-- More levels than the height add nothing. -/
theorem walk_eq_walk {levels levels' : ℕ} (h : F.height x ≤ levels) (h' : F.height x ≤ levels') :
    F.walk levels x = F.walk levels' x := by
  induction levels generalizing x levels' with
  | zero =>
    cases levels' with
    | zero => rfl
    | succ levels' => rw [walk, walk, children_eq_nil (Nat.le_zero.1 h), List.flatMap_nil]
  | succ levels ih =>
    cases levels' with
    | zero => rw [walk, walk, children_eq_nil (Nat.le_zero.1 h'), List.flatMap_nil]
    | succ levels' =>
      rw [walk, walk]
      refine List.flatMap_congr fun c hc => ?_
      have := F.height_lt _ _ (mem_children_iff.1 hc)
      exact congrArg _ (ih (by omega) (by omega))

/-- **The descendants of a node are the subtrees of its children.** -/
theorem descendants_eq_flatMap : F.descendants x = (F.children x).flatMap F.subtree := by
  rw [descendants, walk_eq_walk le_rfl (Nat.le_succ _), walk]
  refine List.flatMap_congr fun c hc => ?_
  have := F.height_lt _ _ (mem_children_iff.1 hc)
  rw [subtree, descendants, walk_eq_walk (by omega) le_rfl]

/-- The nodes without a parent. -/
def roots (F : Forest ι) : List ι := F.nodes.filter fun x => F.parent x = none

/-- The nodes are distinct, and every parent is one of them. -/
structure Closed (F : Forest ι) : Prop where
  nodup : F.nodes.Nodup
  parent_mem : ∀ x p, F.parent x = some p → p ∈ F.nodes

omit [DecidableEq ι] in
/-- What is above a node is a chain. -/
theorem AtOrBelow.total (h : F.AtOrBelow x z) (h' : F.AtOrBelow y z) :
    F.AtOrBelow x y ∨ F.AtOrBelow y x := by
  have hunique : Relator.RightUnique fun c p => F.parent c = some p :=
    fun _ _ _ hp hq => Option.some.inj (hp.symm.trans hq)
  have hup : ∀ {a b : ι}, F.AtOrBelow a b ↔
      Relation.ReflTransGen (fun c p => F.parent c = some p) b a := fun {_ _} =>
    Relation.reflTransGen_swap
  rw [hup] at h h' ⊢
  rw [hup]
  exact (Relation.ReflTransGen.total_of_right_unique hunique h h').symm

omit [DecidableEq ι] in
theorem not_below_of_parent_eq (h : F.parent x = F.parent y) : ¬ F.Below x y := by
  intro hbelow
  obtain ⟨p, -, hp⟩ := Relation.TransGen.tail'_iff.1 hbelow
  exact hbelow.parent_ne (h.trans hp) hp

/-- **Siblings have no node in common below them.** -/
theorem disjoint_subtree (hne : x ≠ y) (h : F.parent x = F.parent y) :
    List.Disjoint (F.subtree x) (F.subtree y) := by
  intro z hx hy
  rw [mem_subtree_iff] at hx hy
  rcases hx.total hy with hxy | hyx
  · exact hxy.eq_or_below.elim (fun heq => hne heq.symm) (not_below_of_parent_eq h)
  · exact hyx.eq_or_below.elim hne (not_below_of_parent_eq h.symm)

theorem nodup_flatMap_subtree {xs : List ι} (hxs : xs.Nodup)
    (hnodup : ∀ x ∈ xs, (F.subtree x).Nodup)
    (hsame : ∀ x ∈ xs, ∀ y ∈ xs, F.parent x = F.parent y) : (xs.flatMap F.subtree).Nodup := by
  refine List.nodup_flatMap.2 ⟨hnodup, ?_⟩
  refine hxs.imp_of_mem fun {x y} hx hy hne => ?_
  exact disjoint_subtree hne (hsame x hx y hy)

theorem Closed.nodup_subtree (h : F.Closed) (x : ι) : (F.subtree x).Nodup := by
  induction hheight : F.height x using Nat.strong_induction_on generalizing x with
  | h n ih =>
    subst hheight
    rw [subtree, List.nodup_cons]
    refine ⟨fun hloop => not_below_self x (mem_descendants_iff.1 hloop), ?_⟩
    rw [descendants_eq_flatMap]
    refine nodup_flatMap_subtree (h.nodup.filter _) (fun c hc => ?_) fun c hc d hd => ?_
    · exact ih _ (F.height_lt _ _ (mem_children_iff.1 hc)) c rfl
    · rw [mem_children_iff.1 hc, mem_children_iff.1 hd]

omit [DecidableEq ι] in
/-- Every node is at or below a root. -/
theorem Closed.exists_root (h : F.Closed) (hx : x ∈ F.nodes) :
    ∃ r ∈ F.roots, F.AtOrBelow r x := by
  have hbound : ∀ y ∈ F.nodes, F.height y ≤ (F.nodes.map F.height).sum := fun y hy =>
    List.single_le_sum (fun _ _ => Nat.zero_le _) _ (List.mem_map_of_mem hy)
  induction hdepth : (F.nodes.map F.height).sum - F.height x
    using Nat.strong_induction_on generalizing x with
  | h n ih =>
    subst hdepth
    cases hparent : F.parent x with
    | none =>
      refine ⟨x, ?_, Relation.ReflTransGen.refl⟩
      rw [roots, List.mem_filter, decide_eq_true_iff]
      exact ⟨hx, hparent⟩
    | some p =>
      have hp := h.parent_mem x p hparent
      have hlt := F.height_lt x p hparent
      have hle := hbound p hp
      obtain ⟨r, hr, habove⟩ := ih _ (by omega) hp rfl
      exact ⟨r, hr, habove.tail hparent⟩

omit [DecidableEq ι] in
theorem AtOrBelow.mem (h : F.AtOrBelow x y) (hx : x ∈ F.nodes) : y ∈ F.nodes := by
  rcases h.eq_or_below with rfl | hbelow
  · exact hx
  · obtain ⟨p, -, hp⟩ := Relation.TransGen.tail'_iff.1 hbelow
    exact F.mem_of_parent _ _ hp

/-- **The subtrees of the roots list every node once.** -/
theorem Closed.flatMap_roots_perm (h : F.Closed) : (F.roots.flatMap F.subtree).Perm F.nodes := by
  have hroot : ∀ r ∈ F.roots, r ∈ F.nodes ∧ F.parent r = none := by
    intro r hr
    simpa [roots] using hr
  have hnodup : (F.roots.flatMap F.subtree).Nodup :=
    nodup_flatMap_subtree (h.nodup.filter _) (fun r _ => h.nodup_subtree r) fun r hr r' hr' =>
      (hroot r hr).2.trans (hroot r' hr').2.symm
  refine (List.perm_ext_iff_of_nodup hnodup h.nodup).2 fun y => ?_
  simp only [List.mem_flatMap, mem_subtree_iff]
  constructor
  · rintro ⟨r, hr, hbelow⟩
    exact hbelow.mem (hroot r hr).1
  · exact h.exists_root

end Walk

end Forest
