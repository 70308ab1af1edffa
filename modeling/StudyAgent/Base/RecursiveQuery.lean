import Mathlib.Data.List.Lex
import Mathlib.Data.List.Perm.Basic
import Mathlib.Data.List.Sort
import Mathlib.Logic.Relation

/-!
# Recursive queries

`WITH RECURSIVE … ORDER BY path`: the rows of the working table are replaced by the rows that
they yield until none is left, and all that were ever in it are sorted by their paths, where the
path of a row is the path of the row it comes from and one entry more.

Main results:

* `closure_perm` — **the query lists the depth-first walks from its first rows.**
* `mem_walk_iff` — **the walk lists what can be reached.**
* `mergeSort_closure` — **sorted by path, it is the walk through the rows sorted at each step.**
-/

namespace RecursiveQuery

variable {A : Type*} {next : A → List A} {rows : List A} {a b : A} {n m : ℕ}

/-- All that is in the working table, as many rounds long. -/
def closure (next : A → List A) : ℕ → List A → List A
  | 0, _ => []
  | n + 1, rows => rows ++ closure next n (rows.flatMap next)

/-- The depth-first walk, as many levels deep. -/
def walk (next : A → List A) : ℕ → A → List A
  | 0, _ => []
  | n + 1, a => a :: (next a).flatMap (walk next n)

/-- **The query lists the depth-first walks from its first rows.** -/
theorem closure_perm (n : ℕ) (rows : List A) :
    (closure next n rows).Perm (rows.flatMap (walk next n)) := by
  induction n generalizing rows with
  | zero =>
    have hnone : rows.flatMap (walk next 0) = [] := List.flatMap_eq_nil_iff.2 fun _ _ => rfl
    rw [closure, hnone]
  | succ n ih =>
    have hrest := ih (rows.flatMap next)
    rw [List.flatMap_assoc] at hrest
    refine (hrest.append_left rows).trans ?_
    clear hrest
    induction rows with
    | nil => rfl
    | cons a rows ihrows =>
      rw [List.flatMap_cons, List.flatMap_cons, walk, List.cons_append, List.cons_append]
      refine List.Perm.cons a ?_
      rw [← List.append_assoc]
      refine (List.perm_append_comm.append_right _).trans ?_
      rw [List.append_assoc]
      exact ihrows.append_left _

/-- A number that falls at every step bounds the walk, and it goes no further. -/
theorem walk_eq_walk {rank : A → ℕ} (hrank : ∀ a, ∀ b ∈ next a, rank b < rank a)
    (hn : rank a < n) (hm : rank a < m) : walk next n a = walk next m a := by
  induction n generalizing a m with
  | zero => exact absurd hn (Nat.not_lt_zero _)
  | succ n ih =>
    cases m with
    | zero => exact absurd hm (Nat.not_lt_zero _)
    | succ m =>
      rw [walk, walk]
      refine congrArg _ (List.flatMap_congr fun b hb => ?_)
      have := hrank a b hb
      exact ih (by omega) (by omega)

/-- The order in which a row yields its rows does not matter for what is listed. -/
theorem walk_perm {next' : A → List A} (h : ∀ a, (next a).Perm (next' a)) (n : ℕ) (a : A) :
    (walk next n a).Perm (walk next' n a) := by
  induction n generalizing a with
  | zero => rfl
  | succ n ih =>
    exact ((h a).flatMap fun b _ => ih b).cons a

/-- **The walk lists what can be reached.** -/
theorem mem_walk_iff {rank : A → ℕ} (hrank : ∀ a, ∀ b ∈ next a, rank b < rank a)
    (hn : rank a < n) :
    b ∈ walk next n a ↔ Relation.ReflTransGen (fun x y => y ∈ next x) a b := by
  induction n generalizing a with
  | zero => exact absurd hn (Nat.not_lt_zero _)
  | succ n ih =>
    rw [walk, List.mem_cons, List.mem_flatMap, Relation.ReflTransGen.cases_head_iff, eq_comm]
    refine or_congr_right (exists_congr fun c => and_congr_right fun hc => ?_)
    have := hrank a c hc
    exact ih (by omega)

/-- A walk is carried along by a map that carries its steps along. -/
theorem walk_map {B : Type*} {next' : B → List B} {f : A → B} {P : A → Prop}
    (hkept : ∀ a, P a → ∀ b ∈ next a, P b) (h : ∀ a, P a → next' (f a) = (next a).map f)
    (n : ℕ) {a : A} (ha : P a) : walk next' n (f a) = (walk next n a).map f := by
  induction n generalizing a with
  | zero => rfl
  | succ n ih =>
    rw [walk, walk, h a ha, List.map_cons, List.flatMap_map, List.map_flatMap]
    exact congrArg _ (List.flatMap_congr fun b hb => ih (hkept a ha b hb))

/-! ## Paths -/

section Paths

variable {κ : Type*} [LinearOrder κ] {key : A → List κ}

theorem append_lt_append {p s t : List κ} {k l : κ} (h : k < l) : p ++ k :: s < p ++ l :: t := by
  induction p with
  | nil => exact List.Lex.rel h
  | cons x p ih => exact List.Lex.cons ih

theorem lt_append_cons (p s : List κ) (k : κ) : p < p ++ k :: s := by
  induction p with
  | nil => exact List.Lex.nil
  | cons x p ih => exact List.Lex.cons ih

theorem isPrefix_le {p q : List κ} (h : p <+: q) : p ≤ q := by
  obtain ⟨s, rfl⟩ := h
  cases s with
  | nil => rw [List.append_nil]
  | cons k s => exact (lt_append_cons p s k).le

/-- The path of what a row yields is its path and one entry more. -/
def Extends (next : A → List A) (key : A → List κ) : Prop :=
  ∀ a, ∀ b ∈ next a, ∃ k, key b = key a ++ [k]

omit [LinearOrder κ] in
theorem Extends.isPrefix (h : Extends next key) (hb : b ∈ walk next n a) : key a <+: key b := by
  induction n generalizing a with
  | zero => exact absurd hb List.not_mem_nil
  | succ n ih =>
    rcases List.mem_cons.1 hb with rfl | hb
    · exact List.prefix_rfl
    · obtain ⟨c, hc, hbc⟩ := List.mem_flatMap.1 hb
      obtain ⟨k, hk⟩ := h a c hc
      exact (hk ▸ List.prefix_append _ _ : key a <+: key c).trans (ih hbc)

/-- **The walk through rows sorted at each step is sorted by path.** -/
theorem Extends.pairwise_walk (h : Extends next key)
    (hsorted : ∀ a, (next a).Pairwise fun b c => key b < key c) (n : ℕ) (a : A) :
    (walk next n a).Pairwise fun b c => key b < key c := by
  induction n generalizing a with
  | zero => exact List.Pairwise.nil
  | succ n ih =>
    refine List.pairwise_cons.2 ⟨fun c hc => ?_, ?_⟩
    · obtain ⟨b, hb, hbc⟩ := List.mem_flatMap.1 hc
      obtain ⟨k, hk⟩ := h a b hb
      obtain ⟨s, hs⟩ := h.isPrefix hbc
      rw [← hs, hk, List.append_assoc]
      exact lt_append_cons _ _ _
    · refine List.pairwise_flatMap.2 ⟨fun b _ => ih b, ?_⟩
      refine (hsorted a).imp_of_mem fun {b c} hb hc hlt x hx y hy => ?_
      -- below siblings the paths differ where the siblings do
      obtain ⟨k, hk⟩ := h a b hb
      obtain ⟨l, hl⟩ := h a c hc
      obtain ⟨s, hs⟩ := h.isPrefix hx
      obtain ⟨u, hu⟩ := h.isPrefix hy
      have hkl : k < l := by
        rcases lt_trichotomy k l with hkl | hkl | hkl
        · exact hkl
        · exact absurd (hk.trans (hkl ▸ hl.symm)) hlt.ne
        · rw [hk, hl] at hlt
          exact absurd (append_lt_append hkl) hlt.asymm
      rw [← hs, ← hu, hk, hl, List.append_assoc, List.append_assoc]
      exact append_lt_append hkl

/-- The rows that a row yields, sorted by path. -/
def sortedNext (next : A → List A) (key : A → List κ) (a : A) : List A :=
  (next a).mergeSort fun b c => decide (key b ≤ key c)

theorem mergeSort_by_key (l : List A) :
    (l.mergeSort fun b c => decide (key b ≤ key c)).Pairwise fun b c => key b ≤ key c :=
  (@List.pairwise_mergeSort A (fun b c => decide (key b ≤ key c))
    (fun a b c hab hbc => decide_eq_true ((of_decide_eq_true hab).trans (of_decide_eq_true hbc)))
    (fun a b => by simpa using le_total (key a) (key b)) l).imp of_decide_eq_true

/-- The walk through the rows sorted at each step has the paths in order. -/
theorem pairwise_walk_sortedNext (h : Extends next key)
    (hne : ∀ a, (next a).Pairwise fun b c => key b ≠ key c) (n : ℕ) (a : A) :
    (walk (sortedNext next key) n a).Pairwise fun b c => key b < key c := by
  have hperm : ∀ a, (sortedNext next key a).Perm (next a) := fun a => List.mergeSort_perm _ _
  refine Extends.pairwise_walk (fun a b hb => h a b ((hperm a).mem_iff.1 hb)) (fun a => ?_) n a
  exact (mergeSort_by_key (next a)).imp₂ (fun _ _ hle hne => lt_of_le_of_ne hle hne)
    ((hperm a).symm.pairwise (hne a) fun hxy => hxy.symm)

/-- **Sorted by path, the query is the walk through the rows sorted at each step.** -/
theorem mergeSort_closure (h : Extends next key)
    (hne : ∀ a, (next a).Pairwise fun b c => key b ≠ key c) (n : ℕ) (a : A) :
    ((closure next n [a]).mergeSort fun b c => decide (key b ≤ key c)) =
      walk (sortedNext next key) n a := by
  have hwalk := pairwise_walk_sortedNext h hne n a
  have hclosure : (closure next n [a]).Perm ([a].flatMap (walk next n)) := closure_perm n [a]
  rw [List.flatMap_singleton] at hclosure
  have heq : ((closure next n [a]).mergeSort fun b c => decide (key b ≤ key c)).Perm
      (walk (sortedNext next key) n a) :=
    (List.mergeSort_perm _ _).trans
      (hclosure.trans (walk_perm (fun a => (List.mergeSort_perm _ _).symm) n a))
  have hnodup : ((walk (sortedNext next key) n a).map key).Nodup :=
    List.pairwise_map.2 (hwalk.imp LT.lt.ne)
  exact heq.eq_of_pairwise
    (fun x y hx hy hxy hyx => List.inj_on_of_nodup_map hnodup (heq.mem_iff.1 hx) hy
      (le_antisymm hxy hyx))
    (mergeSort_by_key _) (hwalk.imp le_of_lt)

end Paths

end RecursiveQuery
