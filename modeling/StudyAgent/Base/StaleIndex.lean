import Mathlib.Data.List.Induction
import Mathlib.Data.List.Perm.Basic
import Mathlib.Algebra.Order.Group.Nat

/-!
# Removing by indices that have gone stale

Indices are taken of a list once, and the elements are then removed one after
another from a list that shrinks with each removal.  Only the first index still
means what it meant; when the indexed elements are the tail of the list, a pass
over the indices removes every second one of them.

Main results:

* `popAll_tail` — one pass over the indices of a tail halves the tail.
* `popAll_drains` — **enough passes remove the tail and nothing else.**
* `popAll_indicesOf` — when passes over the indices of some elements remove exactly
  these.
* `foldl_pop` — a loop with such removals among its steps.
-/

namespace StaleIndex

variable {α β : Type}

/-- Remove the element at an index, if there is one, and put it behind the
removed ones. -/
def popStep (p : List α × List α) (i : ℕ) : List α × List α :=
  match p.1[i]? with
  | some a => (p.1.eraseIdx i, p.2 ++ [a])
  | none => p

/-- Remove at each of the indices in turn. -/
def popAll (indices : List ℕ) (p : List α × List α) : List α × List α :=
  indices.foldl popStep p

@[simp] theorem popAll_nil (p : List α × List α) : popAll [] p = p := rfl

@[simp] theorem popAll_cons (i : ℕ) (indices : List ℕ) (p : List α × List α) :
    popAll (i :: indices) p = popAll indices (popStep p i) := rfl

theorem popAll_append (is js : List ℕ) (p : List α × List α) :
    popAll (is ++ js) p = popAll js (popAll is p) := List.foldl_append

theorem popStep_of_lt {l out : List α} {i : ℕ} (h : i < l.length) :
    popStep (l, out) i = (l.eraseIdx i, out ++ [l[i]]) := by
  unfold popStep
  rw [List.getElem?_eq_getElem h]

theorem popStep_of_ge {l out : List α} {i : ℕ} (h : l.length ≤ i) :
    popStep (l, out) i = (l, out) := by
  unfold popStep
  rw [List.getElem?_eq_none h]

/-- What was removed before only stands in front. -/
theorem popAll_out (indices : List ℕ) (l out : List α) :
    popAll indices (l, out) = ((popAll indices (l, [])).1, out ++ (popAll indices (l, [])).2) := by
  induction indices generalizing l out with
  | nil => simp
  | cons i indices ih =>
    rw [popAll_cons, popAll_cons]
    by_cases h : i < l.length
    · rw [popStep_of_lt h, popStep_of_lt h, ih, List.nil_append, ih _ [l[i]], List.append_assoc]
    · rw [popStep_of_ge (not_lt.1 h), popStep_of_ge (not_lt.1 h), ih]

/-- Removing commutes with a change of the elements. -/
theorem popAll_map (f : α → β) (indices : List ℕ) (l out : List α) :
    popAll indices (l.map f, out.map f) =
      ((popAll indices (l, out)).1.map f, (popAll indices (l, out)).2.map f) := by
  induction indices generalizing l out with
  | nil => rfl
  | cons i indices ih =>
    rw [popAll_cons, popAll_cons]
    by_cases h : i < l.length
    · rw [popStep_of_lt h, popStep_of_lt (by simpa using h), ← ih]
      simp [List.eraseIdx_map]
    · rw [popStep_of_ge (not_lt.1 h), popStep_of_ge (by simpa using h), ih]

/-- Indices that are out of range remove nothing. -/
theorem popAll_of_ge {indices : List ℕ} {l out : List α} (h : ∀ i ∈ indices, l.length ≤ i) :
    popAll indices (l, out) = (l, out) := by
  induction indices with
  | nil => rfl
  | cons i indices ih =>
    rw [popAll_cons, popStep_of_ge (h i List.mem_cons_self)]
    exact ih fun j hj => h j (List.mem_cons_of_mem _ hj)

/-- Removing only moves elements. -/
theorem popAll_perm (indices : List ℕ) (l out : List α) :
    ((popAll indices (l, out)).1 ++ (popAll indices (l, out)).2).Perm (l ++ out) := by
  induction indices generalizing l out with
  | nil => exact List.Perm.refl _
  | cons i indices ih =>
    rw [popAll_cons]
    by_cases h : i < l.length
    · rw [popStep_of_lt h]
      refine (ih _ _).trans ?_
      have hcons : (l.eraseIdx i ++ (out ++ [l[i]])).Perm (l[i] :: (l.eraseIdx i ++ out)) := by
        rw [← List.append_assoc]
        exact List.perm_append_singleton _ _
      exact hcons.trans ((List.getElem_cons_eraseIdx_perm h).append_right out)
    · rw [popStep_of_ge (not_lt.1 h)]
      exact ih l out

theorem popAll_length_le (indices : List ℕ) (p : List α × List α) :
    (popAll indices p).1.length ≤ p.1.length := by
  have hlen := (popAll_perm indices p.1 []).length_eq
  rw [List.length_append, List.append_nil] at hlen
  have hout := congrArg Prod.fst (popAll_out indices p.1 p.2)
  dsimp only at hout
  rw [hout]
  omega

/-- Indices that stay in range of a list never reach what stands behind it. -/
theorem popAll_append_left {indices : List ℕ} {l : List α}
    (h : ∀ i ∈ indices, i + indices.length ≤ l.length) (behind out : List α) :
    popAll indices (l ++ behind, out) =
      ((popAll indices (l, out)).1 ++ behind, (popAll indices (l, out)).2) := by
  induction indices generalizing l out with
  | nil => rfl
  | cons i indices ih =>
    have hi := h i List.mem_cons_self
    rw [List.length_cons] at hi
    have hlt : i < l.length := by omega
    have hlt' : i < (l ++ behind).length := by
      rw [List.length_append]
      omega
    rw [popAll_cons, popAll_cons, popStep_of_lt hlt, popStep_of_lt hlt',
      List.eraseIdx_append_of_lt_length hlt, List.getElem_append_left hlt]
    refine ih (fun j hj => ?_) _
    have hj' := h j (List.mem_cons_of_mem _ hj)
    rw [List.length_cons] at hj'
    rw [List.length_eraseIdx_of_lt hlt]
    omega

/-- The element behind a prefix is removed at the length of the prefix. -/
theorem popStep_length (pre tail out : List α) (a : α) :
    popStep (pre ++ a :: tail, out) pre.length = (pre ++ tail, out ++ [a]) := by
  have hlt : pre.length < (pre ++ a :: tail).length := by simp
  have herase : (pre ++ a :: tail).eraseIdx pre.length = pre ++ tail := by
    rw [List.eraseIdx_append_of_length_le (Nat.le_refl _), Nat.sub_self]
    rfl
  rw [popStep_of_lt hlt, herase]
  simp

/-- **One pass over the indices of a tail removes every second element of it.** -/
theorem popAll_tail (n : ℕ) (pre tail out : List α) (h : tail.length ≤ n) :
    ∃ kept popped, popAll (List.range' pre.length n) (pre ++ tail, out) =
        (pre ++ kept, out ++ popped) ∧
      (kept ++ popped).Perm tail ∧ kept.length = tail.length / 2 := by
  induction n generalizing pre tail out with
  | zero =>
    have htail : tail = [] := List.length_eq_zero_iff.1 (Nat.le_zero.1 h)
    exact ⟨[], [], by simp [htail], by simp [htail], by simp [htail]⟩
  | succ n ih =>
    rw [List.range'_succ, popAll_cons]
    match tail, h with
    | [], _ =>
      refine ⟨[], [], ?_, List.Perm.refl _, by simp⟩
      rw [popStep_of_ge (by simp), List.append_nil out]
      refine popAll_of_ge fun i hi => ?_
      have hle := (List.mem_range'_1.1 hi).1
      simp only [List.append_nil]
      omega
    | [a], _ =>
      refine ⟨[], [a], ?_, List.Perm.refl _, by simp⟩
      rw [popStep_length]
      refine popAll_of_ge fun i hi => ?_
      have hle := (List.mem_range'_1.1 hi).1
      simp only [List.append_nil]
      omega
    | a :: b :: tail, h =>
      -- `b` moves into the place of `a` and is passed over
      have hle : tail.length ≤ n := by
        simp only [List.length_cons] at h
        omega
      obtain ⟨kept, popped, hpop, hperm, hlen⟩ := ih (pre ++ [b]) tail (out ++ [a]) hle
      refine ⟨b :: kept, a :: popped, ?_, ?_, ?_⟩
      · rw [popStep_length, List.append_cons pre b tail,
          show pre.length + 1 = (pre ++ [b]).length by simp, hpop]
        simp
      · have hswap : (b :: kept ++ a :: popped).Perm (a :: b :: (kept ++ popped)) :=
          (List.Perm.cons b List.perm_middle).trans (List.Perm.swap a b _)
        exact hswap.trans ((hperm.cons b).cons a)
      · simp only [List.length_cons, hlen]
        omega

/-- The tail shrinks by half with every pass. -/
theorem popAll_passes (passes n : ℕ) (pre tail out : List α) (h : tail.length ≤ n) :
    ∃ kept popped,
      popAll (List.replicate passes (List.range' pre.length n)).flatten (pre ++ tail, out) =
        (pre ++ kept, out ++ popped) ∧
      (kept ++ popped).Perm tail ∧ kept.length = tail.length / 2 ^ passes := by
  induction passes generalizing tail out with
  | zero => exact ⟨tail, [], by simp, by simp, by simp⟩
  | succ passes ih =>
    rw [List.replicate_succ, List.flatten_cons, popAll_append]
    obtain ⟨kept₁, popped₁, hpop₁, hperm₁, hlen₁⟩ := popAll_tail n pre tail out h
    have hle : kept₁.length ≤ n := by
      rw [hlen₁]
      omega
    obtain ⟨kept, popped, hpop, hperm, hlen⟩ := ih kept₁ (out ++ popped₁) hle
    refine ⟨kept, popped₁ ++ popped, ?_, ?_, ?_⟩
    · rw [hpop₁, hpop, List.append_assoc]
    · have hmid : (kept ++ (popped₁ ++ popped)).Perm ((kept ++ popped) ++ popped₁) := by
        rw [List.append_assoc]
        exact List.perm_append_comm.append_left kept
      exact hmid.trans ((hperm.append_right popped₁).trans hperm₁)
    · rw [hlen, hlen₁, Nat.div_div_eq_div_mul, pow_succ']

/-- **Enough passes over the indices of a tail remove the tail, each element of
it once, and nothing else.** -/
theorem popAll_drains {passes : ℕ} {pre tail : List α} (h : tail.length < 2 ^ passes) :
    ∃ popped, popAll (List.replicate passes (List.range' pre.length tail.length)).flatten
        (pre ++ tail, []) = (pre, popped) ∧ popped.Perm tail := by
  obtain ⟨kept, popped, hpop, hperm, hlen⟩ :=
    popAll_passes passes tail.length pre tail [] (Nat.le_refl _)
  have hnil : kept = [] := by
    rw [Nat.div_eq_of_lt h] at hlen
    exact List.length_eq_zero_iff.1 hlen
  rw [hnil] at hpop hperm
  exact ⟨popped, by simpa using hpop, by simpa using hperm⟩

/-! ## Loops that remove by index -/

/-- A loop some of whose steps remove an element at an index and append what it
becomes elsewhere, while the others change neither list. -/
theorem foldl_pop {S R : Type} {step : S → R → S} {src : S → List α} {dst : S → List β}
    {index : R → Option ℕ} {become : α → β} {rs : List R}
    (hskip : ∀ r ∈ rs, index r = none → ∀ c, src (step c r) = src c ∧ dst (step c r) = dst c)
    (hpop : ∀ r ∈ rs, ∀ i, index r = some i → ∀ c,
      src (step c r) = (popStep (src c, []) i).1 ∧
        dst (step c r) = dst c ++ (popStep (src c, []) i).2.map become) (c : S) :
    src (rs.foldl step c) = (popAll (rs.filterMap index) (src c, [])).1 ∧
      dst (rs.foldl step c) =
        dst c ++ (popAll (rs.filterMap index) (src c, [])).2.map become := by
  induction rs generalizing c with
  | nil => simp
  | cons r rs ih =>
    have ih' := ih (fun q hq => hskip q (List.mem_cons_of_mem _ hq))
      (fun q hq => hpop q (List.mem_cons_of_mem _ hq)) (step c r)
    rw [List.foldl_cons, ih'.1, ih'.2, List.filterMap_cons]
    cases hi : index r with
    | none =>
      obtain ⟨hsrc, hdst⟩ := hskip r List.mem_cons_self hi c
      rw [hsrc, hdst]
      exact ⟨rfl, rfl⟩
    | some i =>
      obtain ⟨hsrc, hdst⟩ := hpop r List.mem_cons_self i hi c
      rw [hsrc, hdst, popAll_cons]
      rcases hstep : popStep (src c, []) i with ⟨rest, out⟩
      rw [popAll_out _ rest out]
      simp

/-! ## The indices of a kind of elements -/

/-- The indices, counted from `k`, of the elements a test accepts. -/
def indicesOf (p : α → Bool) (k : ℕ) (l : List α) : List ℕ :=
  ((l.zipIdx k).filter fun q => p q.1).map Prod.snd

theorem indicesOf_cons (p : α → Bool) (k : ℕ) (a : α) (l : List α) :
    indicesOf p k (a :: l) =
      if p a then k :: indicesOf p (k + 1) l else indicesOf p (k + 1) l := by
  unfold indicesOf
  rw [List.zipIdx_cons, List.filter_cons]
  by_cases ha : p a = true
  · rw [if_pos ha, if_pos ha]
    rfl
  · rw [if_neg ha, if_neg ha]

theorem indicesOf_append (p : α → Bool) (k : ℕ) (l m : List α) :
    indicesOf p k (l ++ m) = indicesOf p k l ++ indicesOf p (k + l.length) m := by
  unfold indicesOf
  rw [List.zipIdx_append, List.filter_append, List.map_append]

theorem indicesOf_none {p : α → Bool} {l : List α} (k : ℕ) (h : ∀ a ∈ l, p a = false) :
    indicesOf p k l = [] := by
  induction l generalizing k with
  | nil => rfl
  | cons a l ih =>
    rw [indicesOf_cons, if_neg (by rw [h a List.mem_cons_self]; decide)]
    exact ih (k + 1) fun b hb => h b (List.mem_cons_of_mem _ hb)

theorem indicesOf_all {p : α → Bool} {l : List α} (k : ℕ) (h : ∀ a ∈ l, p a = true) :
    indicesOf p k l = List.range' k l.length := by
  induction l generalizing k with
  | nil => rfl
  | cons a l ih =>
    rw [indicesOf_cons, if_pos (h a List.mem_cons_self), List.length_cons, List.range'_succ,
      ih (k + 1) fun b hb => h b (List.mem_cons_of_mem _ hb)]

theorem indicesOf_map (f : α → β) (p : β → Bool) (k : ℕ) (l : List α) :
    indicesOf p k (l.map f) = indicesOf (fun a => p (f a)) k l := by
  induction l generalizing k with
  | nil => rfl
  | cons a l ih => rw [List.map_cons, indicesOf_cons, indicesOf_cons, ih]

/-- The list parts into the elements a test rejects and, behind them, those it
accepts. -/
def AtEnd (p : α → Bool) (l : List α) : Prop := l = l.filter (fun a => !p a) ++ l.filter p

instance [DecidableEq α] (p : α → Bool) (l : List α) : Decidable (AtEnd p l) :=
  inferInstanceAs (Decidable (_ = _))

theorem filter_not_self {p : α → Bool} {l : List α} (h : ∀ a ∈ l, p a = false) :
    l.filter (fun a => !p a) = l :=
  List.filter_eq_self.2 fun a ha => by rw [h a ha]; rfl

theorem AtEnd.of_map {f : α → β} {p : β → Bool} {l : List α} (h : AtEnd p (l.map f)) :
    AtEnd (fun a => p (f a)) l := by
  obtain ⟨front, back, rfl, hfront, hback⟩ := List.map_eq_append_iff.1 h
  have hreject : ∀ a ∈ front, p (f a) = false := by
    intro a ha
    have hmem : f a ∈ front.map f := List.mem_map_of_mem ha
    rw [hfront] at hmem
    simpa using (List.mem_filter.1 hmem).2
  have haccept : ∀ a ∈ back, p (f a) = true := by
    intro a ha
    have hmem : f a ∈ back.map f := List.mem_map_of_mem ha
    rw [hback] at hmem
    exact (List.mem_filter.1 hmem).2
  show front ++ back = _ ++ _
  have hnone : front.filter (fun a => p (f a)) = [] :=
    List.filter_eq_nil_iff.2 fun a ha => by rw [hreject a ha]; decide
  have hnone' : back.filter (fun a => !p (f a)) = [] :=
    List.filter_eq_nil_iff.2 fun a ha => by rw [haccept a ha]; decide
  rw [List.filter_append, List.filter_append, hnone, hnone', filter_not_self hreject,
    List.filter_eq_self.2 haccept, List.append_nil, List.nil_append]

/-- **Passes over the indices of accepted elements remove exactly these**, if they
are at the end and there are enough passes, or if there is one and one pass. -/
theorem popAll_indicesOf {p : α → Bool} {l : List α} {passes : ℕ}
    (h : (AtEnd p l ∧ (l.filter p).length < 2 ^ passes) ∨
      ((l.filter p).length = 1 ∧ passes = 1)) :
    ∃ popped, popAll (List.replicate passes (indicesOf p 0 l)).flatten (l, []) =
        (l.filter (fun a => !p a), popped) ∧ popped.Perm (l.filter p) := by
  have hreject : ∀ (m : List α), ∀ a ∈ m.filter (fun a => !p a), p a = false := by
    intro m a ha
    simpa using (List.mem_filter.1 ha).2
  rcases h with ⟨hend, hlen⟩ | ⟨hone, rfl⟩
  · have hsplit : l = l.filter (fun a => !p a) ++ l.filter p := hend
    have hindices : indicesOf p 0 l =
        List.range' (l.filter fun a => !p a).length (l.filter p).length := by
      conv_lhs => rw [hsplit]
      rw [indicesOf_append, indicesOf_none 0 (hreject l), List.nil_append, Nat.zero_add,
        indicesOf_all _ fun a ha => (List.mem_filter.1 ha).2]
    obtain ⟨popped, hpop, hperm⟩ :=
      @popAll_drains α passes (l.filter fun a => !p a) (l.filter p) hlen
    rw [← hsplit, ← hindices] at hpop
    exact ⟨popped, hpop, hperm⟩
  · obtain ⟨a, hfilter⟩ := List.length_eq_one_iff.1 hone
    obtain ⟨pre, post, rfl, hpre, ha, hpost⟩ := List.filter_eq_cons_iff.1 hfilter
    have hpre' : ∀ b ∈ pre, p b = false := fun b hb => by simpa using hpre b hb
    have hpost' : ∀ b ∈ post, p b = false := by
      intro b hb
      simpa using List.filter_eq_nil_iff.1 hpost b hb
    have hindices : indicesOf p 0 (pre ++ a :: post) = [pre.length] := by
      rw [indicesOf_append, indicesOf_none 0 hpre', indicesOf_cons, if_pos ha,
        indicesOf_none _ hpost', List.nil_append, Nat.zero_add]
    refine ⟨[a], ?_, by rw [hfilter]⟩
    have hkeep : ∀ m : List α, (∀ b ∈ m, p b = false) → m.filter (fun b => !p b) = m := by
      intro m hm
      exact List.filter_eq_self.2 fun b hb => by rw [hm b hb]; rfl
    rw [hindices, List.filter_append, hkeep pre hpre', List.filter_cons, ha, hkeep post hpost']
    show popStep (pre ++ a :: post, []) pre.length = _
    rw [popStep_length]
    rfl

/-- While the list stays longer than the first index, every pass removes an element. -/
theorem length_passes {i : ℕ} {is : List ℕ} (passes : ℕ) (p : List α × List α)
    (h : i < (popAll (List.replicate passes (i :: is)).flatten p).1.length) :
    (popAll (List.replicate passes (i :: is)).flatten p).1.length + passes ≤ p.1.length := by
  induction passes generalizing p with
  | zero => exact Nat.le_refl _
  | succ passes ih =>
    rw [List.replicate_succ, List.flatten_cons, popAll_append] at h ⊢
    have hrest := ih _ h
    have hle := popAll_length_le (List.replicate passes (i :: is)).flatten (popAll (i :: is) p)
    rw [popAll_cons] at hle hrest h ⊢
    have hpass := popAll_length_le is (popStep p i)
    by_cases hlt : i < p.1.length
    · have hstep : (popStep p i).1.length = p.1.length - 1 := by
        rw [show p = (p.1, p.2) from rfl, popStep_of_lt hlt]
        exact List.length_eraseIdx_of_lt hlt
      omega
    · have hstep : (popStep p i).1 = p.1 := congrArg Prod.fst (popStep_of_ge (not_lt.1 hlt))
      rw [hstep] at hpass
      omega

theorem length_filter_not (p : α → Bool) (l : List α) :
    (l.filter p).length + (l.filter fun a => !p a).length = l.length := by
  induction l with
  | nil => rfl
  | cons a l ih =>
    rw [List.filter_cons, List.filter_cons]
    cases p a <;> simp <;> omega

/-- Two passes over two accepted elements, the second of them at the end: the
second pass removes what follows the first accepted element. -/
theorem popAll_two_passes (pre mid : List α) (a b c : α) :
    (popAll [pre.length, pre.length + 1 + (c :: mid).length, pre.length,
      pre.length + 1 + (c :: mid).length] (pre ++ a :: (c :: mid ++ [b]), [])).1 =
        pre ++ mid ++ [b] := by
  have hout : ∀ front : List α, front.length ≤ pre.length + mid.length + 1 →
      ∀ out, popStep (front ++ [b], out) (pre.length + 1 + (c :: mid).length) =
        (front ++ [b], out) := by
    intro front hfront out
    refine popStep_of_ge ?_
    simp only [List.length_append, List.length_cons, List.length_nil]
    omega
  have hfront : pre ++ (c :: mid ++ [b]) = (pre ++ c :: mid) ++ [b] := by simp
  have hfront' : pre ++ (mid ++ [b]) = (pre ++ mid) ++ [b] := by simp
  simp only [popAll_cons, popAll_nil]
  rw [popStep_length, hfront, hout _ (by simp; omega), ← hfront, List.cons_append, popStep_length,
    hfront', hout _ (by simp)]

/-- The indices from the first accepted element on. -/
theorem indicesOf_first {p : α → Bool} {pre : List α} {a : α} (n : ℕ)
    (hpre : ∀ b ∈ pre, p b = false) (ha : p a = true) (post : List α) :
    indicesOf p n (pre ++ a :: post) =
      (n + pre.length) :: indicesOf p (n + pre.length + 1) post := by
  rw [indicesOf_append, indicesOf_none n hpre, indicesOf_cons, if_pos ha, List.nil_append]

/-- Two accepted elements, and a rejected one behind the first of them, are not sorted out: too
much is removed, or the second pass removes what follows the first accepted element. -/
theorem popAll_ne_of_two {p : α → Bool} {pre mid tail : List α} {a b : α} {passes : ℕ}
    (hpre : ∀ c ∈ pre, p c = false) (hmid : ∀ c ∈ mid, p c = false) (hb : p b = true)
    (hbehind : (mid ++ b :: tail).filter (fun c => !p c) ≠ [])
    (hpasses : (tail.filter p).length + 2 ≤ passes) :
    (popAll (List.replicate passes (pre.length ::
        indicesOf p (pre.length + 1) (mid ++ b :: tail))).flatten
          (pre ++ a :: (mid ++ b :: tail), [])).1 ≠
      pre ++ (mid ++ b :: tail).filter fun c => !p c := by
  intro h
  have hpos : 0 < ((mid ++ b :: tail).filter fun c => !p c).length :=
    List.length_pos_iff.2 hbehind
  have hcount := length_filter_not p (mid ++ b :: tail)
  have haccepted : ((mid ++ b :: tail).filter p).length = (tail.filter p).length + 1 := by
    rw [List.filter_append, List.filter_cons_of_pos hb, List.filter_eq_nil_iff.2 fun c hc => by
      simp [hmid c hc]]
    rfl
  rw [haccepted] at hcount
  have htotal := length_passes passes (pre ++ a :: (mid ++ b :: tail), []) (by
    rw [h, List.length_append]
    omega)
  rw [h, List.length_append] at htotal
  simp only [List.length_append, List.length_cons] at hcount htotal
  obtain ⟨t, rfl⟩ : ∃ t, passes = t + 1 := ⟨passes - 1, by omega⟩
  have hsecond := indicesOf_first (p := p) (pre.length + 1) hmid hb tail
  have hfirst := h
  rw [List.replicate_succ, List.flatten_cons, popAll_append] at hfirst
  have hrest := length_passes t (popAll (pre.length :: indicesOf p (pre.length + 1)
    (mid ++ b :: tail)) (pre ++ a :: (mid ++ b :: tail), [])) (by
      rw [hfirst, List.length_append]
      omega)
  rw [hfirst, popAll_cons, popStep_length, hsecond, popAll_cons, List.length_append] at hrest
  have hshort := popAll_length_le (indicesOf p (pre.length + 1 + mid.length + 1) tail)
    (popStep (pre ++ (mid ++ b :: tail), [] ++ [a]) (pre.length + 1 + mid.length))
  have htailnil : tail = [] := by
    by_contra hne
    have htailpos : 0 < tail.length := List.length_pos_iff.2 hne
    have hlt : pre.length + 1 + mid.length < (pre ++ (mid ++ b :: tail)).length := by
      simp only [List.length_append, List.length_cons]
      omega
    rw [popStep_of_lt hlt] at hshort hrest
    rw [List.length_eraseIdx_of_lt hlt] at hshort
    simp only [List.length_append, List.length_cons] at *
    omega
  subst htailnil
  -- two passes, of which the second removes what follows the first accepted element
  have ht : t = 1 := by
    simp only [List.filter_nil, List.length_nil] at *
    omega
  rw [List.filter_append, filter_not_self hmid, List.filter_cons, hb] at hbehind h
  match mid, hbehind with
  | [], hbehind => exact hbehind rfl
  | c :: mid, _ =>
    rw [ht, hsecond, indicesOf_none _ (by simp)] at h
    have htwo := popAll_two_passes pre mid a b c
    change (popAll [_, _, _, _] _).1 = _ at h
    rw [htwo] at h
    have heq : (pre ++ mid) ++ [b] = pre ++ c :: mid := by simpa using h
    have hmem : b ∈ (pre ++ mid) ++ [b] := by simp
    rw [heq] at hmem
    have hreject : p b = false := by
      simp only [List.mem_append, List.mem_cons] at hmem
      rcases hmem with hmem | hmem
      · exact hpre b hmem
      · exact hmid b (List.mem_cons.2 hmem)
    rw [hb] at hreject
    exact absurd hreject (by decide)

/-- **The condition is also necessary** when there is a pass for every accepted
element. -/
theorem popAll_indicesOf_iff {p : α → Bool} {l : List α} {passes : ℕ}
    (hpasses : (l.filter p).length ≤ passes) :
    (popAll (List.replicate passes (indicesOf p 0 l)).flatten (l, [])).1 =
        l.filter (fun a => !p a) ↔
      AtEnd p l ∨ ((l.filter p).length = 1 ∧ passes = 1) := by
  constructor
  · intro h
    rcases hfilter : l.filter p with _ | ⟨a, rest⟩
    · left
      show l = l.filter (fun a => !p a) ++ l.filter p
      rw [hfilter, List.append_nil, filter_not_self]
      intro b hb
      simpa using List.filter_eq_nil_iff.1 hfilter b hb
    · obtain ⟨pre, post, rfl, hpre, ha, hpost⟩ := List.filter_eq_cons_iff.1 hfilter
      have hpre' : ∀ b ∈ pre, p b = false := fun b hb => by simpa using hpre b hb
      have hkeep : (pre ++ a :: post).filter (fun b => !p b) =
          pre ++ post.filter fun b => !p b := by
        rw [List.filter_append, filter_not_self hpre', List.filter_cons, ha]
        rfl
      by_contra hnot
      obtain ⟨hend, hone⟩ := not_or.1 hnot
      -- some rejected element stands behind the first accepted one
      have hbehind : post.filter (fun b => !p b) ≠ [] := by
        intro hnil
        refine hend ?_
        show pre ++ a :: post = _ ++ _
        have hall : post.filter p = post := by
          refine List.filter_eq_self.2 fun b hb => ?_
          simpa using List.filter_eq_nil_iff.1 hnil b hb
        rw [hkeep, hnil, hfilter, ← hpost, hall, List.append_nil]
      have hindices := indicesOf_first (p := p) 0 hpre' ha post
      rw [Nat.zero_add] at hindices
      rw [hindices, hkeep] at h
      rw [hfilter] at hpasses
      rcases rest with _ | ⟨b, rest⟩
      · -- one accepted element and more than one pass
        have hpos : 0 < (post.filter fun b => !p b).length := List.length_pos_iff.2 hbehind
        have hcount := length_filter_not p post
        have htotal := length_passes passes (pre ++ a :: post, []) (by
          rw [h, List.length_append]
          omega)
        rw [h, List.length_append] at htotal
        rw [hpost] at hcount
        simp only [List.length_cons, List.length_nil, List.length_append, Nat.zero_add, true_and]
          at hpasses hcount hone htotal
        omega
      · obtain ⟨mid, tail, rfl, hmid, hb, htail⟩ := List.filter_eq_cons_iff.1 hpost
        refine popAll_ne_of_two hpre' (fun c hc => by simpa using hmid c hc) hb hbehind ?_ h
        rw [List.length_cons, List.length_cons] at hpasses
        rw [htail]
        exact hpasses
  · rintro (hend | hone)
    · have hlt : (l.filter p).length < 2 ^ passes := lt_of_le_of_lt hpasses Nat.lt_two_pow_self
      obtain ⟨popped, hpop, -⟩ := popAll_indicesOf (Or.inl ⟨hend, hlt⟩)
      rw [hpop]
    · obtain ⟨popped, hpop, -⟩ := popAll_indicesOf (p := p) (l := l) (Or.inr hone)
      rw [hpop]

end StaleIndex
