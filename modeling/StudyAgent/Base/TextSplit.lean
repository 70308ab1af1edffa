import StudyAgent.Base.TextEdits

/-!
# Splitting, substituting and packing

A pattern is found at its leftmost match, and the search goes on behind it; a text is split
there or something is put in place of the match.  Pieces are packed greedily into larger ones.

Main results:

* `split_words`, `sub_words` — a pattern that matches only spaces costs no word.
* `words_intercalate` — joined with spaces, pieces keep their words.
* `pack_words` — **packing neither drops nor repeats a word.**
* `pack_fits` — **packed pieces fit, if each piece does.**
-/

namespace TextSplit

open TextEdits

variable {α : Type} {sp : α → Bool}

/-! ## Words -/

theorem ne_nil_of_mem_words {w l : List α} (h : w ∈ words sp l) : w ≠ [] := by
  have hne := (List.mem_filter.1 h).2
  intro hnil
  simp [hnil] at hne

theorem words_cons_of_not {c : α} (hc : sp c = false) (l : List α) :
    words sp (c :: l) =
      (c :: l.takeWhile fun d => !sp d) :: words sp (l.dropWhile fun d => !sp d) := by
  have hword : ∀ d ∈ c :: l.takeWhile (fun d => !sp d), sp d = false := by
    intro d hd
    rcases List.mem_cons.1 hd with rfl | hd
    · exact hc
    · simpa using List.mem_takeWhile_imp hd
  have hsplit : c :: l = (c :: l.takeWhile fun d => !sp d) ++ l.dropWhile fun d => !sp d := by
    simp
  cases hrest : l.dropWhile fun d => !sp d with
  | nil =>
    rw [hsplit, hrest, List.append_nil, words, List.splitOnP_eq_singleton hword]
    simp
  | cons s rest =>
    have hs : sp s = true := by
      have hhead := List.head_dropWhile_not (fun d => !sp d) (l := l) (by simp [hrest])
      simpa [hrest] using hhead
    have hleft : words sp (c :: l.takeWhile fun d => !sp d) =
      [c :: l.takeWhile fun d => !sp d] := by
      rw [words, List.splitOnP_eq_singleton hword]
      simp
    have hright : words sp (s :: rest) = words sp rest := by
      simpa using words_append_cons hs [] rest
    rw [hsplit, hrest, words_append_cons hs, hleft, hright]
    rfl

/-- A word has no spaces. -/
theorem not_space_of_mem_words {w l : List α} (h : w ∈ words sp l) : ∀ c ∈ w, sp c = false := by
  induction hn : l.length using Nat.strong_induction_on generalizing l with
  | h n ih =>
    cases l with
    | nil => simp at h
    | cons c l =>
      cases hc : sp c with
      | true =>
        have hcons : words sp (c :: l) = words sp l := by
          simpa using words_append_cons hc [] l
        rw [hcons] at h
        exact ih l.length (by simp [← hn]) h rfl
      | false =>
        rw [words_cons_of_not hc] at h
        rcases List.mem_cons.1 h with rfl | h
        · intro d hd
          rcases List.mem_cons.1 hd with rfl | hd
          · exact hc
          · simpa using List.mem_takeWhile_imp hd
        · refine ih _ ?_ h rfl
          have hle : (l.dropWhile fun d => !sp d).length ≤ l.length :=
            (List.dropWhile_sublist fun d => !sp d).length_le
          simp only [List.length_cons] at hn
          omega

/-- **A word is its own only word.** -/
theorem words_word {w l : List α} (h : w ∈ words sp l) : words sp w = [w] := by
  have hne := ne_nil_of_mem_words h
  rw [words, List.splitOnP_eq_singleton (not_space_of_mem_words h)]
  simp [hne]

theorem flatMap_words_words (l : List α) : (words sp l).flatMap (words sp) = words sp l := by
  have hself : ∀ ws : List (List α), (∀ w ∈ ws, w ∈ words sp l) → ws.flatMap (words sp) = ws := by
    intro ws
    induction ws with
    | nil => simp
    | cons w ws ih =>
      intro hws
      rw [List.flatMap_cons, words_word (hws w List.mem_cons_self),
        ih fun v hv => hws v (List.mem_cons_of_mem w hv)]
      rfl
  exact hself _ fun _ hw => hw

theorem words_eq_nil_iff {l : List α} : words sp l = [] ↔ ∀ c ∈ l, sp c = true := by
  constructor
  · intro h c hc
    by_contra hnot
    obtain ⟨a, b, rfl⟩ := List.append_of_mem hc
    induction a with
    | nil =>
      rw [List.nil_append, words_cons_of_not (by simpa using hnot)] at h
      simp at h
    | cons d a ih =>
      cases hd : sp d with
      | true =>
        have hcons : words sp (d :: (a ++ c :: b)) = words sp (a ++ c :: b) := by
          simpa using words_append_cons hd [] (a ++ c :: b)
        rw [List.cons_append, hcons] at h
        exact ih h (by simp)
      | false =>
        rw [List.cons_append, words_cons_of_not hd] at h
        simp at h
  · intro h
    simpa using words_append_spaces h []

/-! ## Patterns -/

/-- How long the match at a place is, from the element before the place and the text from there
on; zero if there is none. -/
abbrev Pattern (α : Type) : Type := Option α → List α → ℕ

/-- The pattern that is a text itself. -/
def literal [DecidableEq α] (p : List α) : Pattern α := fun _ l =>
  if p <+: l then p.length else 0

/-- The pieces between the matches, behind `before` and within a match that goes on for `skip`
elements. -/
def splitFrom (m : Pattern α) : Option α → ℕ → List α → List α → List (List α)
  | _, _, current, [] => [current]
  | _, skip + 1, current, c :: l => splitFrom m (some c) skip current l
  | before, 0, current, c :: l =>
    match m before (c :: l) with
    | skip + 1 => current :: splitFrom m (some c) skip [] l
    | 0 => splitFrom m (some c) 0 (current ++ [c]) l

/-- The pieces between the matches. -/
def split (m : Pattern α) (l : List α) : List (List α) := splitFrom m none 0 [] l

/-- The text with something put in place of each match. -/
def subFrom (m : Pattern α) (put : List α) : Option α → ℕ → List α → List α
  | _, _, [] => []
  | _, skip + 1, c :: l => subFrom m put (some c) skip l
  | before, 0, c :: l =>
    match m before (c :: l) with
    | skip + 1 => put ++ subFrom m put (some c) skip l
    | 0 => c :: subFrom m put (some c) 0 l

/-- The text with something put in place of each match. -/
def sub (m : Pattern α) (put l : List α) : List α := subFrom m put none 0 l

variable (sp) in
/-- A pattern of spaces. -/
def MatchesSpaces (m : Pattern α) : Prop :=
  ∀ (before : Option α) (l : List α), ∀ c ∈ l.take (m before l), sp c = true

theorem literal_spaces [DecidableEq α] {p : List α} (hp : ∀ c ∈ p, sp c = true) :
    MatchesSpaces sp (literal p) := by
  intro before l c hc
  unfold literal at hc
  split_ifs at hc with hpre
  · rw [← List.prefix_iff_eq_take.1 hpre] at hc
    exact hp c hc
  · simp at hc

section

variable {m : Pattern α} (hm : MatchesSpaces sp m)

include hm

/-- The rest of a match, and its first element if it begins here. -/
theorem MatchesSpaces.cons {before : Option α} {c : α} {l : List α} {skip : ℕ}
    (h : m before (c :: l) = skip + 1) : sp c = true ∧ ∀ d ∈ l.take skip, sp d = true := by
  have hall := hm before (c :: l)
  rw [h, List.take_succ_cons] at hall
  exact ⟨hall c List.mem_cons_self, fun d hd => hall d (List.mem_cons_of_mem c hd)⟩

theorem splitFrom_words {before : Option α} {skip : ℕ} {current l : List α}
    (hskip : ∀ c ∈ l.take skip, sp c = true) (hcurrent : skip = 0 ∨ current = []) :
    (splitFrom m before skip current l).flatMap (words sp) = words sp (current ++ l) := by
  induction l generalizing before skip current with
  | nil => simp [splitFrom]
  | cons c l ih =>
    cases skip with
    | succ skip =>
      obtain rfl := hcurrent.resolve_left (Nat.succ_ne_zero skip)
      rw [List.take_succ_cons] at hskip
      have hc := hskip c List.mem_cons_self
      rw [splitFrom, ih (fun d hd => hskip d (List.mem_cons_of_mem c hd)) (Or.inr rfl)]
      simpa using (words_append_cons hc [] l).symm
    | zero =>
      cases hmatch : m before (c :: l) with
      | succ skip =>
        obtain ⟨hc, hrest⟩ := hm.cons hmatch
        rw [splitFrom, hmatch, List.flatMap_cons, ih hrest (Or.inr rfl), words_append_cons hc]
        rfl
      | zero =>
        rw [splitFrom, hmatch, ih (by simp) (Or.inl rfl), List.append_assoc]
        rfl

/-- **Splitting at spaces costs no word.** -/
theorem split_words (l : List α) : (split m l).flatMap (words sp) = words sp l :=
  splitFrom_words hm (by simp) (Or.inl rfl)

theorem subFrom_words {put : List α} (hput : ∀ c ∈ put, sp c = true) (hne : put ≠ [])
    {before : Option α} {skip : ℕ} {a l : List α} (hskip : ∀ c ∈ l.take skip, sp c = true)
    (ha : skip = 0 ∨ ∃ b s, a = b ++ [s] ∧ sp s = true) :
    words sp (a ++ subFrom m put before skip l) = words sp (a ++ l) := by
  induction l generalizing before skip a with
  | nil => rw [subFrom]
  | cons c l ih =>
    cases skip with
    | succ skip =>
      rw [List.take_succ_cons] at hskip
      have hc := hskip c List.mem_cons_self
      obtain ⟨b, s, rfl, hs⟩ := ha.resolve_left (Nat.succ_ne_zero skip)
      rw [subFrom, ih (fun d hd => hskip d (List.mem_cons_of_mem c hd)) (Or.inr ⟨b, s, rfl, hs⟩)]
      have hright : words sp (c :: l) = words sp l := by
        simpa using words_append_cons hc [] l
      rw [List.append_assoc, List.append_assoc, List.singleton_append, List.singleton_append,
        words_append_cons hs, words_append_cons hs, hright]
    | zero =>
      cases hmatch : m before (c :: l) with
      | succ skip =>
        obtain ⟨hc, hrest⟩ := hm.cons hmatch
        obtain ⟨b, s, rfl⟩ := (List.eq_nil_or_concat' put).resolve_left hne
        have hs : sp s = true := hput s (by simp)
        rw [subFrom, hmatch]
        change words sp (a ++ ((b ++ [s]) ++ subFrom m (b ++ [s]) (some c) skip l)) = _
        rw [← List.append_assoc, ih hrest (Or.inr ⟨a ++ b, s, by simp, hs⟩)]
        have hleft : words sp (a ++ b) = words sp a :=
          words_append_spaces (fun d hd => hput d (by simp [hd])) a
        rw [words_append_cons hc, List.append_assoc, List.append_assoc, List.singleton_append,
          ← List.append_assoc, words_append_cons hs, hleft]
      | zero =>
        rw [subFrom, hmatch]
        change words sp (a ++ c :: subFrom m put (some c) 0 l) = _
        rw [← List.singleton_append, ← List.append_assoc, ih (by simp) (Or.inl rfl)]
        simp

/-- **Putting spaces in place of spaces costs no word.** -/
theorem sub_words {put : List α} (hput : ∀ c ∈ put, sp c = true) (hne : put ≠ []) (l : List α) :
    words sp (sub m put l) = words sp l := by
  have hfrom := @subFrom_words _ _ m hm put hput hne none 0 [] l (by simp) (Or.inl rfl)
  rwa [List.nil_append, List.nil_append] at hfrom

end

/-! ## Joining and packing -/

section

variable {sep : List α} (hsep : ∀ c ∈ sep, sp c = true) (hne : sep ≠ [])

include hsep hne

/-- Spaces separate words. -/
theorem words_append_sep (a b : List α) : words sp (a ++ sep ++ b) = words sp a ++ words sp b := by
  obtain ⟨s, rest, rfl⟩ := List.exists_cons_of_ne_nil hne
  have hrest : words sp (rest ++ b) = words sp b :=
    words_spaces_append (fun c hc => hsep c (List.mem_cons_of_mem s hc)) b
  rw [List.append_assoc, List.cons_append, words_append_cons (hsep s List.mem_cons_self), hrest]

/-- **Joined with spaces, pieces keep their words.** -/
theorem words_intercalate (ls : List (List α)) :
    words sp (sep.intercalate ls) = ls.flatMap (words sp) := by
  induction ls with
  | nil => simp
  | cons l ls ih =>
    cases ls with
    | nil => simp
    | cons l' ls =>
      rw [List.intercalate_cons_cons, words_append_sep hsep hne, ih, List.flatMap_cons (x := l)]

end

/-- What was collected, as one piece, if there is something. -/
def flush (sep : List α) (current : List (List α)) : List (List α) :=
  if current = [] then [] else [sep.intercalate current]

section

variable (special : List α → Option (List (List α))) (fits : List α → Bool) (sep : List α)

/-- Collect pieces as long as they fit together; before and behind a special piece what was
collected is given out. -/
def pack : List (List α) → List (List α) → List (List α)
  | current, [] => flush sep current
  | current, u :: us =>
    match special u with
    | some pieces => flush sep current ++ pieces ++ pack [] us
    | none =>
      if current ≠ [] ∧ fits (sep.intercalate (current ++ [u])) = false then
        sep.intercalate current :: pack [u] us
      else pack (current ++ [u]) us

end

section

variable {special : List α → Option (List (List α))} {fits : List α → Bool} {sep : List α}

theorem flush_words (hsep : ∀ c ∈ sep, sp c = true) (hne : sep ≠ []) (current : List (List α)) :
    (flush sep current).flatMap (words sp) = current.flatMap (words sp) := by
  unfold flush
  split_ifs with h
  · simp [h]
  · simp [words_intercalate hsep hne]

/-- **Packing neither drops nor repeats a word.** -/
theorem pack_words (hsep : ∀ c ∈ sep, sp c = true) (hne : sep ≠ []) {units : List (List α)}
    (hspecial : ∀ u ∈ units, ∀ pieces ∈ special u, pieces.flatMap (words sp) = words sp u)
    (current : List (List α)) :
    (pack special fits sep current units).flatMap (words sp) =
      current.flatMap (words sp) ++ units.flatMap (words sp) := by
  induction units generalizing current with
  | nil => simp [pack, flush_words hsep hne]
  | cons u us ih =>
    have ih := ih fun v hv => hspecial v (List.mem_cons_of_mem u hv)
    cases hu : special u with
    | some pieces =>
      have hpieces := hspecial u List.mem_cons_self pieces hu
      simp [pack, hu, flush_words hsep hne, ih, hpieces]
    | none =>
      rw [pack, hu]
      dsimp only
      split_ifs with hfull
      · simp [words_intercalate hsep hne, ih]
      · simp [ih]

/-- **Packed pieces fit**, if each piece does by itself and the special ones are cut to fit. -/
theorem pack_fits {Fits : List α → Prop} (hfits : ∀ l, fits l = true → Fits l)
    {units : List (List α)} (hspecial : ∀ u ∈ units, ∀ pieces ∈ special u, ∀ p ∈ pieces, Fits p)
    (hplain : ∀ u ∈ units, special u = none → Fits u) {current : List (List α)}
    (hcurrent : current ≠ [] → Fits (sep.intercalate current)) :
    ∀ p ∈ pack special fits sep current units, Fits p := by
  induction units generalizing current with
  | nil =>
    intro p hp
    rw [pack, flush] at hp
    split_ifs at hp with hnil
    · simp at hp
    · obtain rfl := List.mem_singleton.1 hp
      exact hcurrent hnil
  | cons u us ih =>
    intro p hp
    have ih := @ih (fun v hv => hspecial v (List.mem_cons_of_mem u hv))
      (fun v hv => hplain v (List.mem_cons_of_mem u hv))
    rw [pack] at hp
    cases hu : special u with
    | some pieces =>
      simp only [hu, List.append_assoc, List.mem_append] at hp
      rcases hp with hp | hp | hp
      · rw [flush] at hp
        split_ifs at hp with hnil
        · simp at hp
        · obtain rfl := List.mem_singleton.1 hp
          exact hcurrent hnil
      · exact hspecial u List.mem_cons_self pieces hu p hp
      · exact ih (by simp) p hp
    | none =>
      simp only [hu] at hp
      split_ifs at hp with hfull
      · rcases List.mem_cons.1 hp with rfl | hp
        · exact hcurrent hfull.1
        · refine ih (fun _ => ?_) p hp
          rw [List.intercalate_singleton]
          exact hplain u List.mem_cons_self hu
      · refine ih (fun _ => ?_) p hp
        by_cases hnil : current = []
        · rw [hnil, List.nil_append, List.intercalate_singleton]
          exact hplain u List.mem_cons_self hu
        · refine hfits _ ?_
          simpa [hnil] using hfull

end

end TextSplit
