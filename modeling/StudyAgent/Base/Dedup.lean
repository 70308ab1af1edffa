import Mathlib.Data.List.AList
import Mathlib.Data.List.Dedup
import Mathlib.Data.List.Perm.Subperm
import Mathlib.Data.List.Induction

/-!
# Removing duplicates, first or last occurrence kept

Two loops over a list.  `collect` appends each admissible value that is not there
yet.  `keepLast` records in a dictionary the index of the last element of every
key and keeps the elements whose index was recorded; `lastWins` says what it
computes.

Main results:

* `mem_collect`, `nodup_collect` — what a collected list contains, and once.
* `keepLast_eq_lastWins` — the dictionary of indices computes `lastWins`.
* `mem_lastWins` — **an element survives iff it is the last of its key.**
* `lastWins_append` — what is appended is deduplicated on its own and evicts its
  keys from what was there.
-/

namespace Dedup

/-! ## Collecting without repetition -/

section Collect

variable {α β : Type} [DecidableEq β] {f : α → β} {keep : β → Bool}

/-- Append `f a` for each `a`, unless it is there already or not to be kept. -/
def collect (f : α → β) (keep : β → Bool) (start : List β) (l : List α) : List β :=
  l.foldl (fun acc a => if keep (f a) && f a ∉ acc then acc ++ [f a] else acc) start

/-- **A collected list contains what it started with and the admissible values.** -/
theorem mem_collect {start : List β} {l : List α} {x : β} :
    x ∈ collect f keep start l ↔ x ∈ start ∨ keep x = true ∧ ∃ a ∈ l, f a = x := by
  unfold collect
  induction l generalizing start with
  | nil => simp
  | cons a l ih =>
    rw [List.foldl_cons, ih, List.exists_mem_cons_iff]
    by_cases h : (keep (f a) && decide (f a ∉ start)) = true
    · rw [if_pos h, List.mem_append, List.mem_singleton]
      have hkeep : keep (f a) = true := (Bool.and_eq_true _ _ ▸ h).1
      constructor
      · rintro ((hs | rfl) | ⟨hx, hl⟩)
        · exact Or.inl hs
        · exact Or.inr ⟨hkeep, Or.inl rfl⟩
        · exact Or.inr ⟨hx, Or.inr hl⟩
      · rintro (hs | ⟨hx, rfl | hl⟩)
        · exact Or.inl (Or.inl hs)
        · exact Or.inl (Or.inr rfl)
        · exact Or.inr ⟨hx, hl⟩
    · rw [if_neg h]
      constructor
      · rintro (hs | ⟨hx, hl⟩)
        · exact Or.inl hs
        · exact Or.inr ⟨hx, Or.inr hl⟩
      · rintro (hs | ⟨hx, rfl | hl⟩)
        · exact Or.inl hs
        · exact Or.inl (by simpa [hx] using h)
        · exact Or.inr ⟨hx, hl⟩

/-- What is collected comes once, as what it started with does. -/
theorem nodup_collect {start : List β} (hstart : start.Nodup) (l : List α) :
    (collect f keep start l).Nodup := by
  unfold collect
  induction l generalizing start with
  | nil => exact hstart
  | cons a l ih =>
    rw [List.foldl_cons]
    refine ih ?_
    split_ifs with h
    · rw [Bool.and_eq_true, decide_eq_true_eq] at h
      exact hstart.append (List.nodup_singleton _) (List.disjoint_singleton.2 h.2)
    · exact hstart

/-- What is collected goes behind what was there. -/
theorem collect_prefix (start : List β) (l : List α) : start <+: collect f keep start l := by
  unfold collect
  induction l generalizing start with
  | nil => exact List.prefix_rfl
  | cons a l ih =>
    rw [List.foldl_cons]
    refine List.IsPrefix.trans ?_ (ih _)
    split_ifs
    · exact List.prefix_append _ _
    · exact List.prefix_rfl

theorem collect_append (start : List β) (l m : List α) :
    collect f keep start (l ++ m) = collect f keep (collect f keep start l) m :=
  List.foldl_append

end Collect

/-! ## Keeping the last of each key -/

section LastWins

variable {α κ : Type} [DecidableEq κ]

/-! ### The program -/

/-- One pass over the indexed list, recording the last index of each key. -/
def lastIndices (key : α → κ) (l : List (α × ℕ)) : AList (fun _ : κ => ℕ) :=
  l.foldl (fun seen p => seen.insert (key p.1) p.2) ∅

/-- The recorded indices. -/
def survivors (seen : AList (fun _ : κ => ℕ)) : List ℕ := seen.entries.map Sigma.snd

/-- Keep the elements whose index was recorded. -/
def keepLast (key : α → κ) (l : List α) : List α :=
  ((l.zipIdx).filter fun p => p.2 ∈ survivors (lastIndices key l.zipIdx)).map Prod.fst

/-! ### What it computes -/

/-- Drop an element when a later one has its key. -/
def lastWins (key : α → κ) : List α → List α
  | [] => []
  | a :: l => if ∃ b ∈ l, key b = key a then lastWins key l else a :: lastWins key l

/-- `x` has an occurrence in `l` that no element of its key follows. -/
def IsLast (key : α → κ) (l : List α) (x : α) : Prop :=
  ∃ l₁ l₂, l = l₁ ++ x :: l₂ ∧ ∀ y ∈ l₂, key y ≠ key x

variable {key : α → κ}

@[simp] theorem lastWins_nil : lastWins key [] = [] := rfl

theorem lastWins_cons_of_mem {a : α} {l : List α} (h : ∃ b ∈ l, key b = key a) :
    lastWins key (a :: l) = lastWins key l := if_pos h

theorem lastWins_cons_of_not_mem {a : α} {l : List α} (h : ¬ ∃ b ∈ l, key b = key a) :
    lastWins key (a :: l) = a :: lastWins key l := if_neg h

theorem lastWins_sublist (l : List α) : (lastWins key l).Sublist l := by
  induction l with
  | nil => exact List.Sublist.refl _
  | cons a l ih =>
    by_cases h : ∃ b ∈ l, key b = key a
    · rw [lastWins_cons_of_mem h]
      exact ih.cons a
    · rw [lastWins_cons_of_not_mem h]
      exact ih.cons_cons a

theorem mem_of_mem_lastWins {x : α} {l : List α} (h : x ∈ lastWins key l) : x ∈ l :=
  (lastWins_sublist l).subset h

/-- **An element survives iff it is the last of its key.** -/
theorem mem_lastWins {x : α} {l : List α} : x ∈ lastWins key l ↔ IsLast key l x := by
  induction l with
  | nil => simp [IsLast]
  | cons a l ih =>
    constructor
    · intro hx
      by_cases h : ∃ b ∈ l, key b = key a
      · rw [lastWins_cons_of_mem h] at hx
        obtain ⟨l₁, l₂, rfl, hl⟩ := ih.1 hx
        exact ⟨a :: l₁, l₂, rfl, hl⟩
      · rw [lastWins_cons_of_not_mem h] at hx
        rcases List.mem_cons.1 hx with rfl | hx
        · exact ⟨[], l, rfl, fun y hy hk => h ⟨y, hy, hk⟩⟩
        · obtain ⟨l₁, l₂, rfl, hl⟩ := ih.1 hx
          exact ⟨a :: l₁, l₂, rfl, hl⟩
    · rintro ⟨l₁, l₂, heq, hl⟩
      cases l₁ with
      | nil =>
        obtain ⟨rfl, rfl⟩ := List.cons_eq_cons.1 heq
        rw [lastWins_cons_of_not_mem fun ⟨b, hb, hk⟩ => hl b hb hk]
        exact List.mem_cons_self
      | cons c l₁ =>
        obtain ⟨-, htail⟩ := List.cons_eq_cons.1 heq
        have hx : x ∈ lastWins key l := ih.2 ⟨l₁, l₂, htail, hl⟩
        by_cases h : ∃ b ∈ l, key b = key a
        · rw [lastWins_cons_of_mem h]
          exact hx
        · rw [lastWins_cons_of_not_mem h]
          exact List.mem_cons_of_mem a hx

instance [DecidableEq α] (l : List α) (x : α) : Decidable (IsLast key l x) :=
  decidable_of_iff (x ∈ lastWins key l) mem_lastWins

theorem IsLast.mem {x : α} {l : List α} (h : IsLast key l x) : x ∈ l :=
  mem_of_mem_lastWins (mem_lastWins.2 h)

/-- Every key of the list survives in some element. -/
theorem exists_mem_lastWins {x : α} {l : List α} (h : x ∈ l) :
    ∃ y ∈ lastWins key l, key y = key x := by
  induction l generalizing x with
  | nil => exact absurd h List.not_mem_nil
  | cons a l ih =>
    by_cases ha : ∃ b ∈ l, key b = key a
    · rw [lastWins_cons_of_mem ha]
      rcases List.mem_cons.1 h with rfl | h
      · obtain ⟨b, hb, hk⟩ := ha
        obtain ⟨y, hy, hyb⟩ := ih hb
        exact ⟨y, hy, hyb.trans hk⟩
      · exact ih h
    · rw [lastWins_cons_of_not_mem ha]
      rcases List.mem_cons.1 h with rfl | h
      · exact ⟨x, List.mem_cons_self, rfl⟩
      · obtain ⟨y, hy, hk⟩ := ih h
        exact ⟨y, List.mem_cons_of_mem a hy, hk⟩

/-- What is appended is deduplicated on its own and evicts its keys from what
was there. -/
theorem lastWins_append (l m : List α) :
    lastWins key (l ++ m) =
      (lastWins key l).filter (fun a => ¬ ∃ b ∈ m, key b = key a) ++ lastWins key m := by
  induction l with
  | nil => rfl
  | cons a l ih =>
    by_cases hm : ∃ b ∈ m, key b = key a
    · obtain ⟨b, hb, hk⟩ := hm
      rw [List.cons_append, lastWins_cons_of_mem ⟨b, List.mem_append_right l hb, hk⟩, ih]
      by_cases hl : ∃ b ∈ l, key b = key a
      · rw [lastWins_cons_of_mem hl]
      · rw [lastWins_cons_of_not_mem hl, List.filter_cons_of_neg (by simpa using ⟨b, hb, hk⟩)]
    · by_cases hl : ∃ b ∈ l, key b = key a
      · obtain ⟨b, hb, hk⟩ := hl
        rw [List.cons_append, lastWins_cons_of_mem ⟨b, List.mem_append_left m hb, hk⟩,
          lastWins_cons_of_mem ⟨b, hb, hk⟩, ih]
      · have hnone : ¬ ∃ b ∈ l ++ m, key b = key a := by
          rintro ⟨b, hb, hk⟩
          rcases List.mem_append.1 hb with hb | hb
          · exact hl ⟨b, hb, hk⟩
          · exact hm ⟨b, hb, hk⟩
        rw [List.cons_append, lastWins_cons_of_not_mem hnone, lastWins_cons_of_not_mem hl, ih,
          List.filter_cons_of_pos (by simpa using hm), List.cons_append]

/-- **An element of a concatenation survives iff it is the last of its key on the
right, or on the left with its key absent from the right.** -/
theorem mem_lastWins_append {x : α} {l m : List α} :
    x ∈ lastWins key (l ++ m) ↔
      IsLast key m x ∨ (IsLast key l x ∧ ¬ ∃ b ∈ m, key b = key x) := by
  rw [lastWins_append, List.mem_append, List.mem_filter, mem_lastWins, mem_lastWins,
    decide_eq_true_eq]
  exact or_comm

/-- Selecting by a property of the key commutes with deduplication. -/
theorem filter_lastWins {q : α → Bool} (hq : ∀ a b, key a = key b → q a = q b) (l : List α) :
    (lastWins key l).filter q = lastWins key (l.filter q) := by
  induction l with
  | nil => rfl
  | cons a l ih =>
    by_cases ha : ∃ b ∈ l, key b = key a
    · rw [lastWins_cons_of_mem ha, ih]
      obtain ⟨b, hb, hk⟩ := ha
      by_cases hqa : q a = true
      · have hb' : b ∈ l.filter q := List.mem_filter.2 ⟨hb, (hq b a hk).trans hqa⟩
        rw [List.filter_cons_of_pos hqa, lastWins_cons_of_mem ⟨b, hb', hk⟩]
      · rw [List.filter_cons_of_neg hqa]
    · rw [lastWins_cons_of_not_mem ha]
      by_cases hqa : q a = true
      · have hnone : ¬ ∃ b ∈ l.filter q, key b = key a := by
          rintro ⟨b, hb, hk⟩
          exact ha ⟨b, (List.mem_filter.1 hb).1, hk⟩
        rw [List.filter_cons_of_pos hqa, List.filter_cons_of_pos hqa,
          lastWins_cons_of_not_mem hnone, ih]
      · rw [List.filter_cons_of_neg hqa, List.filter_cons_of_neg hqa, ih]

/-- A fine deduplication before a coarser one changes nothing. -/
theorem lastWins_lastWins {κ' : Type} [DecidableEq κ'] {coarse : α → κ'}
    (hkey : ∀ a b, key a = key b → coarse a = coarse b) (l : List α) :
    lastWins coarse (lastWins key l) = lastWins coarse l := by
  induction l with
  | nil => rfl
  | cons a l ih =>
    by_cases ha : ∃ b ∈ l, key b = key a
    · rw [lastWins_cons_of_mem ha, ih]
      obtain ⟨b, hb, hk⟩ := ha
      rw [lastWins_cons_of_mem ⟨b, hb, hkey b a hk⟩]
    · rw [lastWins_cons_of_not_mem ha]
      by_cases hc : ∃ b ∈ l, coarse b = coarse a
      · obtain ⟨b, hb, hk⟩ := hc
        obtain ⟨d, hd, hdk⟩ : ∃ d ∈ lastWins key l, key d = key b := exists_mem_lastWins hb
        rw [lastWins_cons_of_mem ⟨d, hd, (hkey d b hdk).trans hk⟩, ih,
          lastWins_cons_of_mem ⟨b, hb, hk⟩]
      · have hnone : ¬ ∃ b ∈ lastWins key l, coarse b = coarse a := by
          rintro ⟨b, hb, hk⟩
          exact hc ⟨b, mem_of_mem_lastWins hb, hk⟩
        rw [lastWins_cons_of_not_mem hnone, lastWins_cons_of_not_mem hc, ih]

theorem lastWins_map {β : Type} (f : β → α) (l : List β) :
    (lastWins (key ∘ f) l).map f = lastWins key (l.map f) := by
  induction l with
  | nil => rfl
  | cons b l ih =>
    by_cases h : ∃ c ∈ l, (key ∘ f) c = (key ∘ f) b
    · have h' : ∃ c ∈ l.map f, key c = key (f b) := by
        obtain ⟨c, hc, hk⟩ := h
        exact ⟨f c, List.mem_map_of_mem hc, hk⟩
      rw [lastWins_cons_of_mem h, List.map_cons, lastWins_cons_of_mem h', ih]
    · have h' : ¬ ∃ c ∈ l.map f, key c = key (f b) := by
        rintro ⟨c, hc, hk⟩
        obtain ⟨d, hd, rfl⟩ := List.mem_map.1 hc
        exact h ⟨d, hd, hk⟩
      rw [lastWins_cons_of_not_mem h, List.map_cons, List.map_cons,
        lastWins_cons_of_not_mem h', ih]

/-! ### The program computes it -/

theorem lookup_lastIndices (k : κ) (l : List (α × ℕ)) :
    (lastIndices key l).lookup k = (l.reverse.find? fun p => key p.1 = k).map Prod.snd := by
  induction l using List.reverseRecOn with
  | nil => rfl
  | append_singleton l p ih =>
    rw [lastIndices, List.foldl_append, List.foldl_cons, List.foldl_nil, ← lastIndices,
      List.reverse_append, List.reverse_singleton, List.singleton_append]
    by_cases h : key p.1 = k
    · rw [List.find?_cons_of_pos (by simpa using h), ← h, AList.lookup_insert]
      rfl
    · rw [List.find?_cons_of_neg (by simpa using h),
        AList.lookup_insert_ne (Ne.symm h), ih]

/-- The index recorded for the key of an element is its own exactly when the
element is the last of its key. -/
theorem lookup_lastIndices_eq_some_iff {p : α × ℕ} {l : List (α × ℕ)} (hp : p ∈ l)
    (hl : (l.map Prod.snd).Nodup) :
    (lastIndices key l).lookup (key p.1) = some p.2 ↔ IsLast (key ∘ Prod.fst) l p := by
  rw [lookup_lastIndices, Option.map_eq_some_iff]
  constructor
  · rintro ⟨q, hq, hqp⟩
    have hqmem : q ∈ l := List.mem_reverse.1 (List.mem_of_find?_eq_some hq)
    have : q = p := List.inj_on_of_nodup_map hl hqmem hp hqp
    subst this
    obtain ⟨-, as, bs, heq, has⟩ := List.find?_eq_some_iff_append.1 hq
    refine ⟨bs.reverse, as.reverse, ?_, ?_⟩
    · rw [← List.reverse_reverse l, heq]
      simp
    · intro y hy hyk
      have hne := has y (List.mem_reverse.1 hy)
      simp only [Function.comp_apply] at hyk
      simp [hyk] at hne
  · rintro ⟨l₁, l₂, rfl, hlast⟩
    refine ⟨p, List.find?_eq_some_iff_append.2 ⟨by simp, l₂.reverse, l₁.reverse, by simp, ?_⟩, rfl⟩
    intro y hy
    have := hlast y (List.mem_reverse.1 hy)
    simpa using this

/-- The recorded indices are those of the elements that are the last of their key. -/
theorem mem_survivors {p : α × ℕ} {l : List (α × ℕ)} (hp : p ∈ l)
    (hl : (l.map Prod.snd).Nodup) :
    p.2 ∈ survivors (lastIndices key l) ↔ IsLast (key ∘ Prod.fst) l p := by
  rw [← lookup_lastIndices_eq_some_iff hp hl, survivors, List.mem_map]
  constructor
  · rintro ⟨⟨k, j⟩, hmem, hj⟩
    have hlook : (lastIndices key l).lookup k = some p.2 := by
      rw [← hj]
      exact AList.mem_lookup_iff.2 hmem
    have hfind := hlook
    rw [lookup_lastIndices] at hfind
    obtain ⟨q, hq, hqp⟩ := Option.map_eq_some_iff.1 hfind
    have hqmem : q ∈ l := List.mem_reverse.1 (List.mem_of_find?_eq_some hq)
    have hqp : q = p := List.inj_on_of_nodup_map hl hqmem hp hqp
    have hkey : key q.1 = k := by simpa using List.find?_some hq
    rw [← hqp, hkey, hqp]
    exact hlook
  · exact fun h => ⟨⟨key p.1, p.2⟩, AList.mem_lookup_iff.1 h, rfl⟩

/-- Filtering a list without repetitions by the members of a sublist gives the
sublist. -/
theorem filter_mem_eq_sublist {β : Type} [DecidableEq β] {l m : List β} (h : l.Sublist m)
    (hm : m.Nodup) : (m.filter fun b => b ∈ l) = l := by
  have hsub : l.Sublist (m.filter fun b => b ∈ l) := by
    have hl : (l.filter fun b => b ∈ l) = l := List.filter_eq_self.2 fun b hb => by simpa using hb
    conv_lhs => rw [← hl]
    exact h.filter _
  have hperm : (m.filter fun b => b ∈ l).Perm l :=
    (List.perm_ext_iff_of_nodup (hm.filter _) (hm.sublist h)).2 fun b => by
      rw [List.mem_filter, decide_eq_true_eq]
      exact and_iff_right_of_imp fun hb => h.subset hb
  exact (hsub.eq_of_length hperm.length_eq.symm).symm

/-- **The dictionary of last indices computes `lastWins`.** -/
theorem keepLast_eq_lastWins (l : List α) : keepLast key l = lastWins key l := by
  classical
  have hnodup : (l.zipIdx.map Prod.snd).Nodup := by
    rw [List.zipIdx_map_snd]
    exact List.nodup_range'
  have hsub : (lastWins (key ∘ Prod.fst) l.zipIdx).Sublist l.zipIdx := lastWins_sublist _
  have hfilter : (l.zipIdx.filter fun p => p.2 ∈ survivors (lastIndices key l.zipIdx)) =
      lastWins (key ∘ Prod.fst) l.zipIdx := by
    refine Eq.trans (List.filter_congr fun p hp => ?_)
      (filter_mem_eq_sublist hsub (List.Nodup.of_map _ hnodup))
    rw [decide_eq_decide, mem_survivors hp hnodup, mem_lastWins]
  rw [keepLast, hfilter, lastWins_map, List.zipIdx_map_fst]

/-! ### Deduplicating some of the elements only -/

/-- Drop an element that satisfies `p` unless its index is the last recorded
among those that do; keep every other element. -/
def keepLastWhere (p : α → Bool) (key : α → κ) (l : List α) : List α :=
  let last := lastIndices key (l.zipIdx.filter fun q => p q.1)
  (l.zipIdx.filter fun q => !(p q.1 && last.lookup (key q.1) ≠ some q.2)).map Prod.fst

/-- **What is kept**: the elements outside `p`, and of those inside the last of
each key. -/
theorem mem_keepLastWhere {p : α → Bool} {l : List α} {x : α} :
    x ∈ keepLastWhere p key l ↔
      (p x = false ∧ x ∈ l) ∨ (p x = true ∧ IsLast key (l.filter p) x) := by
  have hnodup : (l.zipIdx.map Prod.snd).Nodup := by
    rw [List.zipIdx_map_snd]
    exact List.nodup_range'
  have hnodupF : ((l.zipIdx.filter fun q => p q.1).map Prod.snd).Nodup :=
    hnodup.sublist (List.Sublist.map Prod.snd List.filter_sublist)
  have hmap : (l.zipIdx.filter fun q => p q.1).map Prod.fst = l.filter p := by
    conv_rhs => rw [← List.zipIdx_map_fst 0 l, List.filter_map]
    rfl
  have hmem : x ∈ l ↔ ∃ q ∈ l.zipIdx, q.1 = x := by
    conv_lhs => rw [← List.zipIdx_map_fst 0 l, List.mem_map]
  unfold keepLastWhere
  simp only [List.mem_map, List.mem_filter]
  cases hx : p x with
  | false =>
    simp only [Bool.false_eq_true, false_and, or_false, true_and, hmem]
    constructor
    · rintro ⟨q, ⟨hq, -⟩, rfl⟩
      exact ⟨q, hq, rfl⟩
    · rintro ⟨q, hq, rfl⟩
      exact ⟨q, ⟨hq, by simp [hx]⟩, rfl⟩
  | true =>
    simp only [Bool.true_eq_false, false_and, false_or, true_and]
    rw [← mem_lastWins, ← hmap, ← lastWins_map, List.mem_map]
    constructor
    · rintro ⟨q, ⟨hq, hkeep⟩, rfl⟩
      have hqF : q ∈ l.zipIdx.filter fun q => p q.1 := List.mem_filter.2 ⟨hq, hx⟩
      have hlook := (lookup_lastIndices_eq_some_iff hqF hnodupF).1 (by simpa [hx] using hkeep)
      exact ⟨q, mem_lastWins.2 hlook, rfl⟩
    · rintro ⟨q, hq, rfl⟩
      have hqF := mem_of_mem_lastWins hq
      have hlook := (lookup_lastIndices_eq_some_iff hqF hnodupF).2 (mem_lastWins.1 hq)
      exact ⟨q, ⟨(List.mem_filter.1 hqF).1, by simp [hlook]⟩, rfl⟩

/-- Drop an element that satisfies `p` when a later one that does has its key. -/
def lastWinsWhere (p : α → Bool) (key : α → κ) : List α → List α
  | [] => []
  | a :: l =>
    if p a = true ∧ ∃ b ∈ l, p b = true ∧ key b = key a then lastWinsWhere p key l
    else a :: lastWinsWhere p key l

/-- No element of `m` evicts `a`. -/
def Stays (p : α → Bool) (key : α → κ) (m : List α) (a : α) : Bool :=
  !(p a && m.any fun b => p b && decide (key b = key a))

theorem stays_iff {p : α → Bool} {m : List α} {a : α} :
    Stays p key m a = true ↔ ¬ (p a = true ∧ ∃ b ∈ m, p b = true ∧ key b = key a) := by
  unfold Stays
  cases p a <;> simp

theorem lastWinsWhere_cons {p : α → Bool} (a : α) (l : List α) :
    lastWinsWhere p key (a :: l) =
      if Stays p key l a = true then a :: lastWinsWhere p key l else lastWinsWhere p key l := by
  by_cases h : p a = true ∧ ∃ b ∈ l, p b = true ∧ key b = key a
  · rw [if_neg (by rw [stays_iff]; exact not_not_intro h)]
    exact if_pos h
  · rw [if_pos (stays_iff.2 h)]
    exact if_neg h

theorem stays_append {p : α → Bool} {l m : List α} {a : α} :
    Stays p key (l ++ m) a = (Stays p key l a && Stays p key m a) := by
  unfold Stays
  rw [List.any_append]
  cases p a <;> simp

/-- What is appended evicts its keys from what was there. -/
theorem lastWinsWhere_append {p : α → Bool} (l m : List α) :
    lastWinsWhere p key (l ++ m) =
      (lastWinsWhere p key l).filter (Stays p key m) ++ lastWinsWhere p key m := by
  induction l with
  | nil => rfl
  | cons a l ih =>
    rw [List.cons_append, lastWinsWhere_cons, lastWinsWhere_cons, stays_append, ih]
    cases hl : Stays p key l a with
    | false => simp
    | true =>
      cases hm : Stays p key m a with
      | false => simp [hm]
      | true => simp [hm]

/-- Filtering by a predicate of the keys commutes with it. -/
theorem filter_lastWinsWhere {p q : α → Bool}
    (hq : ∀ a b, p a = true → p b = true → key a = key b → q a = q b) (l : List α) :
    (lastWinsWhere p key l).filter q = lastWinsWhere p key (l.filter q) := by
  induction l with
  | nil => rfl
  | cons a l ih =>
    have hstays : q a = true → Stays p key (l.filter q) a = Stays p key l a := by
      intro hqa
      rw [Bool.eq_iff_iff, stays_iff, stays_iff, not_iff_not]
      refine and_congr_right fun hpa => ?_
      constructor
      · rintro ⟨b, hb, hpb, hk⟩
        exact ⟨b, (List.mem_filter.1 hb).1, hpb, hk⟩
      · rintro ⟨b, hb, hpb, hk⟩
        exact ⟨b, List.mem_filter.2 ⟨hb, by rw [hq b a hpb hpa hk, hqa]⟩, hpb, hk⟩
    rw [lastWinsWhere_cons]
    cases hqa : q a with
    | false =>
      rw [List.filter_cons_of_neg (by simp [hqa]), ← ih]
      split_ifs
      · rw [List.filter_cons_of_neg (by simp [hqa])]
      · rfl
    | true =>
      rw [List.filter_cons_of_pos hqa, lastWinsWhere_cons, hstays hqa, ← ih]
      split_ifs
      · rw [List.filter_cons_of_pos hqa]
      · rfl

/-- Elements outside `p` are never dropped. -/
theorem filter_not_lastWinsWhere {p : α → Bool} (l : List α) :
    (lastWinsWhere p key l).filter (fun a => !p a) = l.filter fun a => !p a := by
  induction l with
  | nil => rfl
  | cons a l ih =>
    rw [lastWinsWhere_cons]
    cases hpa : p a with
    | false =>
      rw [if_pos (by simp [Stays, hpa]), List.filter_cons_of_pos (by simp [hpa]),
        List.filter_cons_of_pos (by simp [hpa]), ih]
    | true =>
      rw [List.filter_cons_of_neg (by simp [hpa]), ← ih]
      split_ifs
      · rw [List.filter_cons_of_neg (by simp [hpa])]
      · rfl

/-- What is dropped anyway may be left out beforehand. -/
theorem lastWinsWhere_append_congr {p : α → Bool} {l l' m : List α}
    (h : l.filter (Stays p key m) = l'.filter (Stays p key m)) :
    lastWinsWhere p key (l ++ m) = lastWinsWhere p key (l' ++ m) := by
  have hkeys : ∀ a b, p a = true → p b = true → key a = key b →
      Stays p key m a = Stays p key m b := by
    intro a b hpa hpb hk
    unfold Stays
    rw [hpa, hpb, hk]
  rw [lastWinsWhere_append, lastWinsWhere_append, filter_lastWinsWhere hkeys,
    filter_lastWinsWhere hkeys, h]

theorem lastWinsWhere_sublist {p : α → Bool} (l : List α) :
    (lastWinsWhere p key l).Sublist l := by
  induction l with
  | nil => exact List.Sublist.refl _
  | cons a l ih =>
    rw [lastWinsWhere_cons]
    split_ifs
    · exact ih.cons_cons a
    · exact ih.cons a

/-- The elements inside `p` are deduplicated among themselves. -/
theorem filter_lastWinsWhere_pos {p : α → Bool} (l : List α) :
    (lastWinsWhere p key l).filter p = lastWins key (l.filter p) := by
  induction l with
  | nil => rfl
  | cons a l ih =>
    rw [lastWinsWhere_cons]
    cases hpa : p a with
    | false =>
      rw [if_pos (by simp [Stays, hpa]), List.filter_cons_of_neg (by simp [hpa]),
        List.filter_cons_of_neg (by simp [hpa]), ih]
    | true =>
      rw [List.filter_cons_of_pos hpa]
      by_cases h : ∃ b ∈ l, p b = true ∧ key b = key a
      · obtain ⟨b, hb, hpb, hk⟩ := h
        rw [if_neg (by rw [stays_iff]; exact not_not_intro ⟨hpa, b, hb, hpb, hk⟩),
          lastWins_cons_of_mem ⟨b, List.mem_filter.2 ⟨hb, hpb⟩, hk⟩, ih]
      · rw [if_pos (stays_iff.2 fun hevict => h hevict.2), List.filter_cons_of_pos hpa,
          lastWins_cons_of_not_mem, ih]
        rintro ⟨b, hb, hk⟩
        exact h ⟨b, (List.mem_filter.1 hb).1, (List.mem_filter.1 hb).2, hk⟩

theorem lastWinsWhere_map {β : Type} {p : α → Bool} (f : β → α) (l : List β) :
    (lastWinsWhere (p ∘ f) (key ∘ f) l).map f = lastWinsWhere p key (l.map f) := by
  induction l with
  | nil => rfl
  | cons a l ih =>
    have hstays : Stays (p ∘ f) (key ∘ f) l a = Stays p key (l.map f) (f a) := by
      unfold Stays
      rw [List.any_map]
      rfl
    rw [List.map_cons, lastWinsWhere_cons, lastWinsWhere_cons, hstays, ← ih]
    split_ifs <;> rfl

/-- **The recorded indices compute `lastWinsWhere`.** -/
theorem keepLastWhere_eq {p : α → Bool} (l : List α) :
    keepLastWhere p key l = lastWinsWhere p key l := by
  classical
  have hnodup : (l.zipIdx.map Prod.snd).Nodup := by
    rw [List.zipIdx_map_snd]
    exact List.nodup_range'
  have hnodupF : ((l.zipIdx.filter fun q => p q.1).map Prod.snd).Nodup :=
    hnodup.sublist (List.Sublist.map Prod.snd List.filter_sublist)
  have hsub : (lastWinsWhere (p ∘ Prod.fst) (key ∘ Prod.fst) l.zipIdx).Sublist l.zipIdx :=
    lastWinsWhere_sublist _
  have hmem : ∀ q ∈ l.zipIdx, q ∈ lastWinsWhere (p ∘ Prod.fst) (key ∘ Prod.fst) l.zipIdx ↔
      (p q.1 = true → IsLast (key ∘ Prod.fst) (l.zipIdx.filter fun q => p q.1) q) := by
    intro q hq
    cases hpq : p q.1 with
    | false =>
      refine iff_of_true ?_ (fun h => absurd h Bool.false_ne_true)
      have hout : q ∈ l.zipIdx.filter fun q => !p q.1 :=
        List.mem_filter.2 ⟨hq, by simp [hpq]⟩
      have hkept : (lastWinsWhere (p ∘ Prod.fst) (key ∘ Prod.fst) l.zipIdx).filter
          (fun q => !p q.1) = l.zipIdx.filter fun q => !p q.1 := filter_not_lastWinsWhere _
      exact (List.mem_filter.1 (hkept.symm ▸ hout)).1
    | true =>
      have hin : (lastWinsWhere (p ∘ Prod.fst) (key ∘ Prod.fst) l.zipIdx).filter (p ∘ Prod.fst) =
          lastWins (key ∘ Prod.fst) (l.zipIdx.filter (p ∘ Prod.fst)) := filter_lastWinsWhere_pos _
      have hlast : q ∈ lastWinsWhere (p ∘ Prod.fst) (key ∘ Prod.fst) l.zipIdx ↔
          IsLast (key ∘ Prod.fst) (l.zipIdx.filter fun q => p q.1) q := by
        rw [← mem_lastWins]
        change _ ↔ q ∈ lastWins (key ∘ Prod.fst) (l.zipIdx.filter (p ∘ Prod.fst))
        rw [← hin, List.mem_filter]
        exact (and_iff_left hpq).symm
      exact ⟨fun h _ => hlast.1 h, fun h => hlast.2 (h rfl)⟩
  have hfilter : (l.zipIdx.filter fun q => !(p q.1 &&
      (lastIndices key (l.zipIdx.filter fun q => p q.1)).lookup (key q.1) ≠ some q.2)) =
        lastWinsWhere (p ∘ Prod.fst) (key ∘ Prod.fst) l.zipIdx := by
    refine Eq.trans (List.filter_congr fun q hq => ?_)
      (filter_mem_eq_sublist hsub (List.Nodup.of_map _ hnodup))
    have hkept : (!(p q.1 && (lastIndices key (l.zipIdx.filter fun q => p q.1)).lookup (key q.1) ≠
        some q.2)) = decide (p q.1 = true →
          IsLast (key ∘ Prod.fst) (l.zipIdx.filter fun q => p q.1) q) := by
      cases hpq : p q.1 with
      | false => simp
      | true =>
        have hqF : q ∈ l.zipIdx.filter fun q => p q.1 := List.mem_filter.2 ⟨hq, hpq⟩
        simp [lookup_lastIndices_eq_some_iff hqF hnodupF]
    rw [hkept, decide_eq_decide, hmem q hq]
  show (List.filter _ l.zipIdx).map Prod.fst = _
  rw [hfilter, lastWinsWhere_map, List.zipIdx_map_fst]

end LastWins

/-! ## Counting without repetition -/

/-- A list has at least `n` different members iff some `n` different things are
members of it. -/
theorem le_length_dedup_iff {α : Type} [DecidableEq α] {l : List α} {n : ℕ} :
    n ≤ l.dedup.length ↔ ∃ xs : List α, xs.Nodup ∧ xs.length = n ∧ ∀ x ∈ xs, x ∈ l := by
  constructor
  · intro h
    refine ⟨l.dedup.take n, (List.nodup_dedup l).sublist (List.take_sublist n _), ?_, ?_⟩
    · rw [List.length_take, min_eq_left h]
    · exact fun x hx => List.mem_dedup.1 (List.mem_of_mem_take hx)
  · rintro ⟨xs, hnodup, rfl, hmem⟩
    exact (hnodup.subperm fun x hx => List.mem_dedup.2 (hmem x hx)).length_le

/-! ## One element for each key -/

/-- An element chosen for each key has its key. -/
theorem map_filterMap_key {α κ : Type} {key : α → κ} {f : κ → Option α}
    (hf : ∀ k a, f k = some a → key a = k) (l : List κ) :
    (l.filterMap f).map key = l.filter fun k => (f k).isSome := by
  induction l with
  | nil => rfl
  | cons k l ih =>
    cases h : f k with
    | none => rw [List.filterMap_cons_none h, ih, List.filter_cons_of_neg (by simp [h])]
    | some a =>
      rw [List.filterMap_cons_some h, List.map_cons, ih, hf k a h,
        List.filter_cons_of_pos (by simp [h])]

end Dedup
