import Mathlib.Data.List.DropRight
import StudyAgent.Placement.EquationSpans

/-!
# The equation spans cover every match

The planner cuts prose at the equation spans, so no match may be left outside of
them: widening a match to its clause keeps it, merging clauses that touch keeps
every clause, and a clause with a match in it is not blank.

Main results:

* `mergeOverlapping_covers` — merging keeps every stretch.
* `findEquationSpans_covers` — every match lies within a span.
* `findEquationSpans_wellFormed` — **the spans are a well-formed cover.**
-/

namespace StudyAgent.Placement

open Py

/-! ## Blank stretches -/

/-- Nothing is left of a text exactly when it is all spaces. -/
theorem strip_eq_empty_iff {s : String} : strip s = "" ↔ ∀ c ∈ s.toList, isSpace c = true := by
  have hchars : strip s = "" ↔ stripChars s.toList = [] := by
    rw [strip, ← String.toList_inj, String.toList_ofList]
    rfl
  rw [hchars]
  unfold stripChars
  rw [List.reverse_eq_nil_iff, List.dropWhile_eq_nil_iff]
  simp only [List.mem_reverse]
  constructor
  · intro hall
    rw [← List.dropWhile_eq_nil_iff]
    by_contra hne
    have hhead := List.head_dropWhile_not isSpace hne
    rw [hall _ (List.head_mem hne)] at hhead
    exact absurd hhead (by decide)
  · exact fun hall c hc => hall c ((List.dropWhile_suffix _).subset hc)

/-- A stretch with a character in it that is no space is not blank. -/
theorem strip_sliceText_ne_empty {text : String} {start stop k : ℕ} {c : Char} (hstart : start ≤ k)
    (hstop : k < stop) (hc : text.toList[k]? = some c) (hspace : isSpace c = false) :
    strip (sliceText text start stop) ≠ "" := by
  intro hblank
  rw [strip_eq_empty_iff, sliceText_toList] at hblank
  have hmem : c ∈ (text.toList.drop start).take (stop - start) := by
    refine List.mem_of_getElem? (i := k - start) ?_
    rw [List.getElem?_take_of_lt (by omega), List.getElem?_drop, Nat.add_sub_cancel' hstart, hc]
  rw [hblank c hmem] at hspace
  cases hspace

/-! ## Matches -/

/-- The pattern matches only where the text begins with a character that is no space. -/
def Matcher.Solid (m : Matcher) : Prop :=
  ∀ l count, m.run l = some count → ∃ c, l.head? = some c ∧ isSpace c = false

theorem literalMatcher_solid {needle : List Char} (hneedle : needle ≠ [])
    (rest : List Char → Bool) (hsolid : (needle.head?.all fun c => !isSpace c) = true) :
    (literalMatcher needle hneedle rest).Solid := by
  intro l count h
  simp only [literalMatcher] at h
  split_ifs at h with hmatch
  rw [Bool.and_eq_true, List.isPrefixOf_iff_prefix] at hmatch
  obtain ⟨tail, rfl⟩ := hmatch.1
  obtain ⟨c, front, rfl⟩ := List.exists_cons_of_ne_nil hneedle
  exact ⟨c, rfl, by simpa using hsolid⟩

theorem charMatcher_solid {chars : List Char}
    (hsolid : (chars.all fun c => !isSpace c) = true) : (charMatcher chars).Solid := by
  intro l count h
  simp only [charMatcher] at h
  split_ifs at h with hmatch
  obtain ⟨c, hc, hmem⟩ := (Option.any_eq_true _ _).1 hmatch
  have hall := List.all_eq_true.1 hsolid c (by simpa using hmem)
  exact ⟨c, hc, by simpa using hall⟩

theorem derivativeMatcher_solid : derivativeMatcher.Solid := by
  intro l count h
  simp only [derivativeMatcher, derivativeLength] at h
  split_ifs at h with hmatch
  rw [List.isPrefixOf_iff_prefix] at hmatch
  obtain ⟨tail, rfl⟩ := hmatch
  exact ⟨'f', rfl, by decide⟩

theorem displayMathMatchers_solid (isWord : Char → Bool) :
    ∀ m ∈ displayMathMatchers isWord, m.Solid := by
  intro m hm
  simp only [displayMathMatchers, commandMatcher, List.mem_cons, List.not_mem_nil, or_false] at hm
  rcases hm with rfl | rfl | rfl | rfl | rfl | rfl | rfl | rfl
  · exact literalMatcher_solid _ _ (by decide)
  · exact literalMatcher_solid _ _ (by decide)
  · exact literalMatcher_solid _ _ (by decide)
  · exact literalMatcher_solid _ _ (by decide)
  · exact literalMatcher_solid _ _ (by decide)
  · exact literalMatcher_solid _ _ (by decide)
  · exact charMatcher_solid (by decide)
  · exact charMatcher_solid (by decide)

/-- A match of such a pattern begins with a character that is no space. -/
theorem Matcher.Solid.finditer {m : Matcher} (hm : m.Solid) {l : List Char} {span : ℕ × ℕ}
    (h : span ∈ m.finditer 0 0 l) : ∃ c, l[span.1]? = some c ∧ isSpace c = false := by
  obtain ⟨k, count, rfl, hrun⟩ := m.mem_finditer h
  obtain ⟨c, hc, hspace⟩ := hm _ _ hrun
  rw [List.head?_drop] at hc
  exact ⟨c, by rwa [Nat.zero_add], hspace⟩

/-! ## Merging -/

/-- The second stretch reaches over the first. -/
def Within (inner outer : ℕ × ℕ) : Prop := outer.1 ≤ inner.1 ∧ inner.2 ≤ outer.2

/-- Merging clauses that come in order keeps each of them. -/
theorem mergeTouching_covers {last : ℕ × ℕ} {rest : List (ℕ × ℕ)}
    (hsorted : (last :: rest).Pairwise fun a b => a.1 ≤ b.1) :
    ∀ s ∈ last :: rest, ∃ t ∈ mergeTouching last rest, Within s t := by
  induction rest generalizing last with
  | nil => exact fun s hs => ⟨s, hs, le_rfl, le_rfl⟩
  | cons span rest ih =>
    obtain ⟨hlast, hrest⟩ := List.pairwise_cons.1 hsorted
    have hspan := hlast span List.mem_cons_self
    rw [mergeTouching]
    split_ifs with htouch
    · -- the joined stretch begins where the earlier of the two does
      have hjoined : ((last.1, max last.2 span.2) :: rest).Pairwise fun a b => a.1 ≤ b.1 :=
        List.pairwise_cons.2 ⟨fun s hs => hlast s (List.mem_cons_of_mem _ hs),
          (List.pairwise_cons.1 hrest).2⟩
      obtain ⟨t, ht, hstart, hstop⟩ := ih hjoined _ List.mem_cons_self
      dsimp only at hstart hstop
      rintro s (_ | ⟨_, _ | ⟨_, hs⟩⟩)
      · exact ⟨t, ht, hstart, (le_max_left _ _).trans hstop⟩
      · exact ⟨t, ht, hstart.trans hspan, (le_max_right _ _).trans hstop⟩
      · exact ih hjoined s (List.mem_cons_of_mem _ hs)
    · rintro s (_ | ⟨_, hs⟩)
      · exact ⟨last, List.mem_cons_self, le_rfl, le_rfl⟩
      · obtain ⟨t, ht, hwithin⟩ := ih hrest s hs
        exact ⟨t, List.mem_cons_of_mem _ ht, hwithin⟩

/-- **Merging keeps every stretch.** -/
theorem mergeOverlapping_covers {spans : List (ℕ × ℕ)} {s : ℕ × ℕ} (hs : s ∈ spans) :
    ∃ t ∈ mergeOverlapping spans, Within s t := by
  have htotal : Std.Total fun a b : ℕ × ℕ => a.1 < b.1 ∨ a.1 = b.1 ∧ a.2 ≤ b.2 :=
    ⟨fun a b => by omega⟩
  have htrans : IsTrans (ℕ × ℕ) fun a b => a.1 < b.1 ∨ a.1 = b.1 ∧ a.2 ≤ b.2 :=
    ⟨fun a b c hab hbc => by omega⟩
  have hsorted := List.pairwise_insertionSort
    (fun a b : ℕ × ℕ => a.1 < b.1 ∨ a.1 = b.1 ∧ a.2 ≤ b.2) spans
  have hmem := (List.mem_insertionSort
    (fun a b : ℕ × ℕ => a.1 < b.1 ∨ a.1 = b.1 ∧ a.2 ≤ b.2)).2 hs
  unfold mergeOverlapping
  split
  next hnil =>
    rw [hnil] at hmem
    cases hmem
  next span rest hcons =>
    rw [hcons] at hsorted hmem
    exact mergeTouching_covers (hsorted.imp fun hab => by omega) s hmem

/-! ## The cover -/

section

variable (isWord : Char → Bool)

/-- The candidate positions of `find_equation_spans`, in the order they are found. -/
def candidatePositions (text : String) : List (ℕ × ℕ) :=
  (displayMathMatchers isWord).flatMap (·.finditer 0 0 text.toList) ++
    equalsMatcher.finditer 0 0 text.toList ++ derivativeMatcher.finditer 0 0 text.toList

theorem candidatePositions_solid {text : String} {c : ℕ × ℕ}
    (h : c ∈ candidatePositions isWord text) :
    ∃ ch, text.toList[c.1]? = some ch ∧ isSpace ch = false := by
  rw [candidatePositions, List.append_assoc, List.mem_append, List.mem_append,
    List.mem_flatMap] at h
  rcases h with ⟨m, hm, hc⟩ | hc | hc
  · exact (displayMathMatchers_solid isWord m hm).finditer hc
  · have hequals : equalsMatcher.Solid := charMatcher_solid (by decide)
    exact hequals.finditer hc
  · exact derivativeMatcher_solid.finditer hc

/-- Widening a match to its clause keeps it. -/
theorem within_expandToEquationClause (text : List Char) (start stop : ℕ) :
    Within (start, stop) (expandToEquationClause isWord text start stop) := by
  unfold expandToEquationClause
  dsimp only
  have hleft := Nat.sub_le start ((text.take start).reverse.takeWhile fun c => !endsClause c).length
  generalize start - ((text.take start).reverse.takeWhile fun c => !endsClause c).length = left
    at hleft
  refine ⟨?_, Nat.le_add_right _ _⟩
  dsimp only
  split
  next k hk =>
    have hlen := findIf_lt isWord hk
    rw [List.length_drop, List.length_take] at hlen
    omega
  next => exact hleft

/-- **Every match lies within a span.** -/
theorem findEquationSpans_covers {text : String} {c : ℕ × ℕ}
    (h : c ∈ candidatePositions isWord text) :
    ∃ span ∈ findEquationSpans isWord text, Within c (span.start, span.stop) := by
  obtain ⟨ch, hch, hspace⟩ := candidatePositions_solid isWord h
  have hlt := (mem_candidates h).1
  have hclause := within_expandToEquationClause isWord text.toList c.1 c.2
  generalize hexpand : expandToEquationClause isWord text.toList c.1 c.2 = clause at hclause
  obtain ⟨hleft, hright⟩ := hclause
  dsimp only at hleft hright
  have hsolid : ∀ start stop, start ≤ c.1 → c.2 ≤ stop →
      strip (sliceText text start stop) ≠ "" := fun start stop hstart hstop =>
    strip_sliceText_ne_empty hstart (by omega) hch hspace
  have hblank : strip text ≠ "" := by
    rw [ne_eq, strip_eq_empty_iff]
    intro hall
    rw [hall ch (List.mem_of_getElem? hch)] at hspace
    cases hspace
  have hkept : clause ∈ (((candidatePositions isWord text).map fun c =>
      expandToEquationClause isWord text.toList c.1 c.2).eraseDups.filter
        fun c => strip (sliceText text c.1 c.2) ≠ "") := by
    refine List.mem_filter.2 ⟨List.mem_eraseDups.2 (List.mem_map.2 ⟨c, h, hexpand⟩), ?_⟩
    exact decide_eq_true (hsolid _ _ hleft hright)
  obtain ⟨merged, hmerged, hstart, hstop⟩ := mergeOverlapping_covers hkept
  unfold findEquationSpans
  rw [if_neg hblank]
  refine ⟨_, List.mem_filterMap.2 ⟨merged, hmerged, if_neg (hsolid _ _ (hstart.trans hleft)
    (hright.trans hstop))⟩, ?_⟩
  exact ⟨hstart.trans hleft, hright.trans hstop⟩

end

/-- **The equation spans are a well-formed cover**: they lie in the text, come in
order without overlap, carry their stripped stretch, and leave no match out. -/
theorem findEquationSpans_wellFormed (isWord : Char → Bool) (text : String) :
    (∀ span ∈ findEquationSpans isWord text,
      span.start < span.stop ∧ span.stop ≤ text.toList.length ∧
        span.text = strip (sliceText text span.start span.stop)) ∧
    ((findEquationSpans isWord text).Pairwise fun a b => a.stop < b.start) ∧
    ∀ c ∈ candidatePositions isWord text,
      ∃ span ∈ findEquationSpans isWord text, span.start ≤ c.1 ∧ c.2 ≤ span.stop := by
  refine ⟨fun span hspan => ?_, findEquationSpans_pairwise, fun c hc => ?_⟩
  · obtain ⟨hlt, hle, htext, -⟩ := mem_findEquationSpans hspan
    exact ⟨hlt, hle, htext⟩
  · exact findEquationSpans_covers isWord hc

end StudyAgent.Placement
