import Mathlib.Data.List.Induction
import Mathlib.Order.Nat
import Mathlib.Tactic.SplitIfs

/-!
# Insertion behind the largest smaller key

Elements of a list may carry a number.  A new one with a number goes directly behind
the first element with the largest smaller number, and to the end when there is none.
Insertions in ascending order keep the numbers in two ascending stretches: those that
are not below all of the first numbers, and behind them those that are.

Main results:

* `bestBefore_eq_some`, `bestBefore_eq_none` — the element that is inserted behind.
* `numbers_insertBehind` — where the number goes.
* `Arranged.insertBehind` — **the two stretches stay ascending.**
-/

namespace InsertBehind

variable {α : Type} (key : α → Option ℕ)

/-! ## The search -/

/-- The largest key below `n` with the index of the first element that has it. -/
def bestBefore (n : ℕ) (l : List α) : Option (ℕ × ℕ) :=
  l.zipIdx.foldl
    (fun best p =>
      match key p.1 with
      | some k => if k < n ∧ best.all (·.1 < k) then some (k, p.2) else best
      | none => best)
    none

/-- Where an element with the number `n` goes. -/
def indexBehind (n : ℕ) (l : List α) : ℕ :=
  match bestBefore key n l with
  | some best => best.2 + 1
  | none => l.length

/-- The numbers of a list. -/
def numbers (l : List α) : List ℕ := l.filterMap key

variable {key}

/-- One more element is the best when its key is below `n` and above the best so far. -/
theorem bestBefore_concat (n : ℕ) (l : List α) (a : α) :
    bestBefore key n (l ++ [a]) =
      match key a with
      | some k => if k < n ∧ (bestBefore key n l).all (·.1 < k) then some (k, l.length)
        else bestBefore key n l
      | none => bestBefore key n l := by
  unfold bestBefore
  rw [List.zipIdx_append, List.foldl_append]
  simp only [List.zipIdx_singleton, Nat.zero_add, List.foldl_cons, List.foldl_nil]

theorem bestBefore_eq_none {n : ℕ} {l : List α} (h : bestBefore key n l = none) :
    ∀ k ∈ numbers key l, n ≤ k := by
  induction l using List.reverseRecOn with
  | nil => exact fun k hk => absurd hk List.not_mem_nil
  | append_singleton l a ih =>
    rw [bestBefore_concat] at h
    intro k hk
    rw [numbers, List.filterMap_append, List.mem_append] at hk
    cases ha : key a with
    | none =>
      rw [ha] at h
      rw [List.filterMap_cons_none ha] at hk
      exact ih h k (hk.resolve_right List.not_mem_nil)
    | some j =>
      rw [ha] at h
      dsimp only at h
      split_ifs at h with hbest
      rcases hk with hk | hk
      · exact ih h k hk
      · rw [List.filterMap_cons_some ha, List.filterMap_nil, List.mem_singleton] at hk
        rw [h, Option.all_none, and_iff_left rfl, not_lt] at hbest
        rwa [hk]

/-- **The element that is inserted behind**: its key is below `n`, no other key below
`n` is above it, and those before it are even below it. -/
theorem bestBefore_eq_some {n k i : ℕ} {l : List α} (h : bestBefore key n l = some (k, i)) :
    ∃ front x back, l = front ++ x :: back ∧ front.length = i ∧ key x = some k ∧ k < n ∧
      (∀ j ∈ numbers key front, j < n → j < k) ∧ ∀ j ∈ numbers key back, j < n → j ≤ k := by
  induction l using List.reverseRecOn generalizing k i with
  | nil => cases h
  | append_singleton l a ih =>
    rw [bestBefore_concat] at h
    -- the best so far stays the best unless the last element beats it
    have hlater : bestBefore key n l = some (k, i) →
        (∀ j, key a = some j → j < n → j ≤ k) → ∃ front x back, l ++ [a] = front ++ x :: back ∧
          front.length = i ∧ key x = some k ∧ k < n ∧
          (∀ j ∈ numbers key front, j < n → j < k) ∧
            ∀ j ∈ numbers key back, j < n → j ≤ k := by
      intro hbest ha
      obtain ⟨front, x, back, rfl, hlen, hx, hk, hfront, hback⟩ := ih hbest
      refine ⟨front, x, back ++ [a], by simp, hlen, hx, hk, hfront, fun j hj => ?_⟩
      rw [numbers, List.filterMap_append, List.mem_append] at hj
      rcases hj with hj | hj
      · exact hback j hj
      · obtain ⟨b, hb, hkey⟩ := List.mem_filterMap.1 hj
        rw [List.mem_singleton.1 hb] at hkey
        exact ha j hkey
    cases ha : key a with
    | none =>
      rw [ha] at h
      exact hlater h fun j hj => by rw [ha] at hj; cases hj
    | some j =>
      rw [ha] at h
      dsimp only at h
      split_ifs at h with hbest
      · obtain ⟨rfl, rfl⟩ := Prod.mk.inj (Option.some.inj h)
        refine ⟨l, a, [], rfl, rfl, ha, hbest.1, fun m hm hlt => ?_,
          fun m hm => absurd hm List.not_mem_nil⟩
        cases hprev : bestBefore key n l with
        | none => exact absurd (bestBefore_eq_none hprev m hm) (not_le.2 hlt)
        | some best =>
          obtain ⟨front, x, back, rfl, -, hx, -, hfront, hback⟩ := ih hprev
          have hbelow : best.1 < j := by simpa [hprev] using hbest.2
          refine lt_of_le_of_lt ?_ hbelow
          rw [numbers, List.filterMap_append, List.filterMap_cons_some hx, List.mem_append,
            List.mem_cons] at hm
          rcases hm with hm | rfl | hm
          · exact (hfront m hm hlt).le
          · exact le_rfl
          · exact hback m hm hlt
      · refine hlater h fun m hm hlt => ?_
        rw [ha] at hm
        obtain rfl := Option.some.inj hm
        rw [h, Option.all_some, decide_eq_true_eq] at hbest
        by_contra hle
        exact hbest ⟨hlt, not_le.1 hle⟩

theorem indexBehind_le (n : ℕ) (l : List α) : indexBehind key n l ≤ l.length := by
  unfold indexBehind
  cases hbest : bestBefore key n l with
  | none => exact le_rfl
  | some best =>
    obtain ⟨front, x, back, rfl, hlen, -⟩ := bestBefore_eq_some hbest
    dsimp only
    rw [List.length_append, List.length_cons, hlen]
    omega

/-! ## The insertion -/

/-- An element goes behind the largest smaller number. -/
def insertBehind (key : α → Option ℕ) (n : ℕ) (a : α) (l : List α) : List α :=
  l.insertIdx (indexBehind key n l) a

theorem insertIdx_behind (front back : List α) (x a : α) :
    (front ++ x :: back).insertIdx (front.length + 1) a = front ++ x :: a :: back := by
  induction front with
  | nil => rfl
  | cons b front ih =>
    rw [List.cons_append, List.length_cons, List.insertIdx_succ_cons, ih]
    rfl

/-- **Where the number goes.** -/
theorem numbers_insertBehind {n : ℕ} {a : α} (ha : key a = some n) (l : List α) :
    ((∀ k ∈ numbers key l, n ≤ k) ∧
        numbers key (insertBehind key n a l) = numbers key l ++ [n]) ∨
      ∃ p k q, numbers key l = p ++ k :: q ∧ k < n ∧ (∀ j ∈ p, j < n → j < k) ∧
        (∀ j ∈ q, j < n → j ≤ k) ∧ numbers key (insertBehind key n a l) = p ++ k :: n :: q := by
  unfold insertBehind indexBehind
  cases hbest : bestBefore key n l with
  | none =>
    refine Or.inl ⟨bestBefore_eq_none hbest, ?_⟩
    dsimp only
    rw [List.insertIdx_length_self, numbers, List.filterMap_append, List.filterMap_cons_some ha]
    rfl
  | some best =>
    obtain ⟨front, x, back, rfl, hlen, hx, hk, hfront, hback⟩ := bestBefore_eq_some hbest
    refine Or.inr ⟨numbers key front, best.1, numbers key back, ?_, hk, hfront, hback, ?_⟩
    · rw [numbers, List.filterMap_append, List.filterMap_cons_some hx]
      rfl
    · dsimp only
      rw [← hlen, insertIdx_behind, numbers, List.filterMap_append, List.filterMap_cons_some hx,
        List.filterMap_cons_some ha]
      rfl

/-! ## Two ascending stretches -/

/-- A number that is below all of the first ones. -/
def Below (first : List ℕ) (n : ℕ) : Prop := first ≠ [] ∧ ∀ k ∈ first, n < k

instance (first : List ℕ) (n : ℕ) : Decidable (Below first n) := inferInstanceAs (Decidable (_ ∧ _))

/-- The numbers that are not below all of the first ones ascend, and behind them those
that are. -/
def Arranged (first l : List ℕ) : Prop :=
  ∃ high low, l = high ++ low ∧ high.Pairwise (· < ·) ∧ low.Pairwise (· < ·) ∧
    (∀ k ∈ high, ¬ Below first k) ∧ ∀ k ∈ low, Below first k


section

variable {first : List ℕ} {n : ℕ}

/-- A number that is below all of the first ones is not one of them. -/
theorem Below.not_mem (h : Below first n) : n ∉ first :=
  fun hmem => absurd (h.2 n hmem) (lt_irrefl n)

/-- Without a smaller number, the new one goes to the end. -/
theorem Arranged.concat {l : List ℕ} (h : Arranged first l) (hfirst : first ⊆ l)
    (hlater : ∀ j ∈ l, j ∉ first → j < n) (hnew : n ∉ l) (hall : ∀ j ∈ l, n ≤ j) :
    Arranged first (l ++ [n]) := by
  obtain ⟨high, low, rfl, hhigh, hlow, hnot, hbelow⟩ := h
  -- everything that came later is smaller, so nothing did
  have hold : ∀ j ∈ high ++ low, j ∈ first := by
    intro j hj
    by_contra hj'
    exact absurd (hlater j hj hj') (not_lt.2 (hall j hj))
  have hempty : low = [] := by
    refine List.eq_nil_iff_forall_not_mem.2 fun j hj => ?_
    exact (hbelow j hj).not_mem (hold j (List.mem_append_right _ hj))
  subst hempty
  rw [List.append_nil] at hfirst hnew hall hold ⊢
  have hlt : ∀ j ∈ first, n < j := fun j hj =>
    lt_of_le_of_ne (hall j (hfirst hj)) fun heq => hnew (heq ▸ hfirst hj)
  by_cases hnone : first = []
  · have hnil : high = [] :=
      List.eq_nil_iff_forall_not_mem.2 fun j hj => by simpa [hnone] using hold j hj
    subst hnil
    exact ⟨[n], [], rfl, List.pairwise_singleton _ _, List.Pairwise.nil,
      fun k _ hk => hk.1 hnone, fun k hk => absurd hk List.not_mem_nil⟩
  · refine ⟨high, [n], rfl, hhigh, List.pairwise_singleton _ _, hnot, fun k hk => ?_⟩
    rw [List.mem_singleton.1 hk]
    exact ⟨hnone, hlt⟩

/-- Behind the largest smaller number, the new one keeps the stretches ascending. -/
theorem Arranged.behind {p q : List ℕ} {k : ℕ} (h : Arranged first (p ++ k :: q))
    (hfirst : first ⊆ p ++ k :: q) (hlater : ∀ j ∈ p ++ k :: q, j ∉ first → j < n)
    (hnew : n ∉ p ++ k :: q) (hk : k < n) (hp : ∀ j ∈ p, j < n → j < k)
    (hq : ∀ j ∈ q, j < n → j ≤ k) : Arranged first (p ++ k :: n :: q) := by
  obtain ⟨high, low, heq, hhigh, hlow, hnot, hbelow⟩ := h
  have hmax : ∀ j ∈ p ++ k :: q, j < n → j ≤ k := by
    intro j hj hlt
    rcases List.mem_append.1 hj with hj | hj
    · exact (hp j hj hlt).le
    · rcases List.mem_cons.1 hj with rfl | hj
      · exact le_rfl
      · exact hq j hj hlt
  by_cases hn : Below first n
  · -- the number is below all of the first ones, and so is the one it goes behind
    have hkbelow : Below first k := ⟨hn.1, fun j hj => hk.trans (hn.2 j hj)⟩
    obtain ⟨p', rfl, rfl⟩ : ∃ p', p = high ++ p' ∧ low = p' ++ k :: q := by
      rcases List.append_eq_append_iff.1 heq with ⟨c, rfl, hc⟩ | ⟨c, rfl, hc⟩
      · cases c with
        | nil => exact ⟨[], by simp, by simpa using hc.symm⟩
        | cons x c =>
          obtain ⟨rfl, -⟩ := List.cons_eq_cons.1 hc
          exact absurd hkbelow (hnot k (by simp))
      · exact ⟨c, rfl, hc⟩
    have hqnil : q = [] := by
      refine List.eq_nil_iff_forall_not_mem.2 fun j hj => ?_
      have hjlow : j ∈ p' ++ k :: q := by simp [hj]
      have hlt := hlater j (by simp [hj]) (hbelow j hjlow).not_mem
      have hgt := (List.pairwise_cons.1 (List.pairwise_append.1 hlow).2.1).1 j hj
      exact absurd (hq j hj hlt) (not_le.2 hgt)
    subst hqnil
    refine ⟨high, p' ++ [k, n], by simp, hhigh, ?_, hnot, fun j hj => ?_⟩
    · rw [show p' ++ [k, n] = (p' ++ [k]) ++ [n] by simp]
      refine List.pairwise_append.2 ⟨hlow, List.pairwise_singleton _ _, fun a ha b hb => ?_⟩
      rw [List.mem_singleton.1 hb]
      exact hlater a (by simpa using Or.inr (by simpa using ha)) (hbelow a ha).not_mem
    · rw [show p' ++ [k, n] = (p' ++ [k]) ++ [n] by simp, List.mem_append,
        List.mem_singleton] at hj
      rcases hj with hj | rfl
      · exact hbelow j hj
      · exact hn
  · -- one of the first ones is smaller, so the one it goes behind is no lower than that
    have hknot : ¬ Below first k := by
      intro hkbelow
      refine hn ⟨hkbelow.1, fun j hj => ?_⟩
      by_contra hle
      have hlt : j < n := lt_of_le_of_ne (not_lt.1 hle) fun heq => hnew (heq ▸ hfirst hj)
      exact absurd (hkbelow.2 j hj) (not_lt.2 (hmax j (hfirst hj) hlt))
    obtain ⟨q', rfl, rfl⟩ : ∃ q', high = p ++ k :: q' ∧ q = q' ++ low := by
      rcases List.append_eq_append_iff.1 heq with ⟨c, rfl, hc⟩ | ⟨c, rfl, hc⟩
      · cases c with
        | nil =>
          have hkl : k ∈ low := by
            rw [List.nil_append] at hc
            exact hc ▸ List.mem_cons_self
          exact absurd (hbelow k hkl) hknot
        | cons x c =>
          obtain ⟨rfl, rfl⟩ := List.cons_eq_cons.1 hc
          exact ⟨c, rfl, rfl⟩
      · exact absurd (hbelow k (hc ▸ by simp)) hknot
    refine ⟨p ++ k :: n :: q', low, by simp, ?_, hlow, fun j hj => ?_, hbelow⟩
    · obtain ⟨hpp, hkq, hcross⟩ := List.pairwise_append.1 hhigh
      obtain ⟨hkq', hq'⟩ := List.pairwise_cons.1 hkq
      have hnq : ∀ j ∈ q', n < j := by
        intro j hj
        by_contra hle
        have hne : j ≠ n := fun heq => hnew (heq ▸ by simp [hj])
        have hlt : j < n := lt_of_le_of_ne (not_lt.1 hle) hne
        exact absurd (hq j (List.mem_append_left _ hj) hlt) (not_le.2 (hkq' j hj))
      refine List.pairwise_append.2 ⟨hpp, ?_, fun a ha b hb => ?_⟩
      · refine List.pairwise_cons.2 ⟨fun j hj => ?_, List.pairwise_cons.2 ⟨hnq, hq'⟩⟩
        rcases List.mem_cons.1 hj with rfl | hj
        · exact hk
        · exact hkq' j hj
      · have hak : a < k := hcross a ha k List.mem_cons_self
        rcases List.mem_cons.1 hb with rfl | hb
        · exact hak
        · rcases List.mem_cons.1 hb with rfl | hb
          · exact hak.trans hk
          · exact hak.trans (hkq' b hb)
    · rcases List.mem_append.1 hj with hj | hj
      · exact hnot j (List.mem_append_left _ hj)
      · rcases List.mem_cons.1 hj with rfl | hj
        · exact hknot
        · rcases List.mem_cons.1 hj with rfl | hj
          · exact hn
          · exact hnot j (by simp [hj])

/-- **The two stretches stay ascending** when a number comes that is above every one
that came later than the first. -/
theorem Arranged.insertBehind {key : α → Option ℕ} {l : List α} {a : α} (ha : key a = some n)
    (h : Arranged first (numbers key l)) (hfirst : first ⊆ numbers key l)
    (hlater : ∀ j ∈ numbers key l, j ∉ first → j < n) (hnew : n ∉ numbers key l) :
    Arranged first (numbers key (insertBehind key n a l)) := by
  rcases numbers_insertBehind ha l with ⟨hall, heq⟩ | ⟨p, k, q, hl, hk, hp, hq, heq⟩
  · rw [heq]
    exact h.concat hfirst hlater hnew hall
  · rw [heq]
    rw [hl] at h hfirst hlater hnew
    exact h.behind hfirst hlater hnew hk hp hq

end

end InsertBehind
