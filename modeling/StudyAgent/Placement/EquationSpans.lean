import StudyAgent.Placement.Plan
import Mathlib.Data.List.Sort

/-!
# Equation spans

The stretches of prose that look like equations: every match of a notation is widened to
its clause, clauses that touch are merged, and what is left is stripped.  Which characters
belong to words is left to the caller.

Main results:

* `mem_findEquationSpans` — a span lies in the text, and its text is the stripped stretch.
* `findEquationSpans_pairwise` — **the spans come in order, with a character between them.**
* `mem_derivativeSpans` — a derivative ends with its bracket.
-/

namespace StudyAgent.Placement

open Py

/-! ## Matches -/

/-- A pattern that matches at the beginning of a text, with the length of its match. -/
structure Matcher where
  run : List Char → Option ℕ
  bounds : ∀ l count, run l = some count → 0 < count ∧ count ≤ l.length

/-- `finditer` from a position, behind the rest of a match. -/
def Matcher.finditer (m : Matcher) : ℕ → ℕ → List Char → List (ℕ × ℕ)
  | _, _, [] => []
  | p, skip + 1, _ :: l => m.finditer (p + 1) skip l
  | p, 0, c :: l =>
    match m.run (c :: l) with
    | some count => (p, p + count) :: m.finditer (p + 1) (count - 1) l
    | none => m.finditer (p + 1) 0 l

theorem Matcher.mem_finditer {m : Matcher} {p skip : ℕ} {l : List Char} {span : ℕ × ℕ}
    (h : span ∈ m.finditer p skip l) :
    ∃ k count, span = (p + k, p + k + count) ∧ m.run (l.drop k) = some count := by
  induction l generalizing p skip with
  | nil => cases h
  | cons c l ih =>
    have hlater : ∀ {skip}, span ∈ m.finditer (p + 1) skip l →
        ∃ k count, span = (p + k, p + k + count) ∧ m.run ((c :: l).drop k) = some count := by
      intro skip hmem
      obtain ⟨k, count, rfl, hrun⟩ := ih hmem
      exact ⟨k + 1, count, by rw [Nat.add_assoc, Nat.add_comm 1], hrun⟩
    cases skip with
    | succ skip => exact hlater h
    | zero =>
      rw [Matcher.finditer] at h
      cases hrun : m.run (c :: l) with
      | none =>
        rw [hrun] at h
        exact hlater h
      | some count =>
        rw [hrun] at h
        rcases List.mem_cons.1 h with rfl | hmem
        · exact ⟨0, count, rfl, hrun⟩
        · exact hlater hmem

/-- A match lies in the text. -/
theorem Matcher.finditer_bounds {m : Matcher} {l : List Char} {span : ℕ × ℕ}
    (h : span ∈ m.finditer 0 0 l) : span.1 < span.2 ∧ span.2 ≤ l.length := by
  obtain ⟨k, count, rfl, hrun⟩ := m.mem_finditer h
  obtain ⟨hpos, hle⟩ := m.bounds _ _ hrun
  rw [List.length_drop] at hle
  dsimp only
  omega

/-- A literal text that the rest must fit. -/
def literalMatcher (needle : List Char) (hneedle : needle ≠ []) (rest : List Char → Bool) :
    Matcher where
  run l := if needle.isPrefixOf l && rest (l.drop needle.length) then some needle.length else none
  bounds l count h := by
    split_ifs at h with hmatch
    cases h
    rw [Bool.and_eq_true, List.isPrefixOf_iff_prefix] at hmatch
    exact ⟨List.length_pos_iff.2 hneedle, hmatch.1.length_le⟩

/-- One of some characters. -/
def charMatcher (chars : List Char) : Matcher where
  run l := if l.head?.any (· ∈ chars) then some 1 else none
  bounds l count h := by
    split_ifs at h with hmatch
    cases h
    cases l with
    | nil => simp at hmatch
    | cons c l => exact ⟨Nat.one_pos, by simp⟩

/-- `\(` up to the next `\)`. -/
def bracketLength : List Char → Option ℕ
  | '(' :: l =>
    let inside := (l.takeWhile fun c => c ≠ ')').length
    if inside < l.length then some (inside + 2) else none
  | _ => none

theorem bracketLength_bounds {l : List Char} {count : ℕ} (h : bracketLength l = some count) :
    0 < count ∧ count ≤ l.length ∧ l[count - 1]? = some ')' := by
  unfold bracketLength at h
  split at h
  · rename_i l
    dsimp only at h
    split_ifs at h with hlt
    cases h
    refine ⟨by omega, by rw [List.length_cons]; omega, ?_⟩
    generalize hk : (l.takeWhile fun c => decide (c ≠ ')')).length = k at hlt
    rw [show k + 2 - 1 = k + 1 by omega, List.getElem?_cons_succ]
    have hdrop : l.drop k = l.dropWhile fun c => decide (c ≠ ')') := by
      conv_lhs => rw [← List.takeWhile_append_dropWhile (p := fun c => decide (c ≠ ')')) (l := l)]
      rw [← hk, List.drop_left]
    have hne : (l.dropWhile fun c => decide (c ≠ ')')) ≠ [] := by
      rw [← hdrop]
      intro hnil
      rw [List.drop_eq_nil_iff] at hnil
      omega
    have hhead := List.head_dropWhile_not (fun c => decide (c ≠ ')')) hne
    rw [← List.head?_drop, hdrop, List.head?_eq_some_head hne]
    simpa using hhead
  · cases h

/-- `f'\s*\([^)]*\)`. -/
def derivativeLength (l : List Char) : Option ℕ :=
  if ['f', '\''].isPrefixOf l then
    let rest := (l.drop 2).dropWhile isSpace
    (bracketLength rest).map fun count => l.length - rest.length + count
  else none

theorem derivativeLength_bounds {l : List Char} {count : ℕ}
    (h : derivativeLength l = some count) :
    0 < count ∧ count ≤ l.length ∧ l[count - 1]? = some ')' := by
  unfold derivativeLength at h
  split_ifs at h
  generalize hrest : (l.drop 2).dropWhile isSpace = rest at h
  have hsuffix : rest <:+ l := hrest ▸ (List.dropWhile_suffix _).trans (List.drop_suffix 2 l)
  obtain ⟨front, rfl⟩ := hsuffix
  obtain ⟨size, hsize, rfl⟩ := Option.map_eq_some_iff.1 h
  obtain ⟨hpos, hle, hlast⟩ := bracketLength_bounds hsize
  rw [List.length_append]
  refine ⟨by omega, by omega, ?_⟩
  rw [List.getElem?_append_right (by omega), ← hlast]
  congr 1
  omega

/-- `_DERIVATIVE_NOTATION_PATTERN`. -/
def derivativeMatcher : Matcher where
  run := derivativeLength
  bounds _ _ h := ⟨(derivativeLength_bounds h).1, (derivativeLength_bounds h).2.1⟩

/-! ## Clauses -/

section Clauses

variable (isWord : Char → Bool)

/-- `\b` between two characters, either of which may be missing. -/
def boundary (before after : Option Char) : Bool := before.any isWord != after.any isWord

/-- A command of a formula: a literal text with `\b` behind it. -/
def commandMatcher (needle : List Char) (hneedle : needle ≠ []) : Matcher :=
  literalMatcher needle hneedle fun rest => boundary isWord needle.getLast? rest.head?

/-- `_DISPLAY_MATH_PATTERNS`. -/
def displayMathMatchers : List Matcher :=
  [commandMatcher isWord "\\frac".toList (by decide),
    commandMatcher isWord "\\lim".toList (by decide),
    commandMatcher isWord "\\int".toList (by decide),
    literalMatcher "lim_\x7b".toList (by decide) fun _ => true,
    commandMatcher isWord "\\to".toList (by decide),
    literalMatcher "$$".toList (by decide) fun _ => true,
    charMatcher ['∫', '∂', 'Σ'],
    charMatcher ['→', '←', '⇒']]

/-- `_EQUALS_PATTERN`. -/
def equalsMatcher : Matcher := charMatcher ['=']

/-- `pattern.search(text)`. -/
def Matcher.search (m : Matcher) (text : List Char) : Bool := m.finditer 0 0 text ≠ []

/-- `_classify_span`: whether the confidence is high. -/
def classifySpan (text : List Char) : Bool :=
  equalsMatcher.search text || (displayMathMatchers isWord).any (·.search text) ||
    !derivativeMatcher.search text

/-- The end of a sentence. -/
def endsClause (c : Char) : Bool := c ∈ ['.', '!', '?', '\n']

/-- `\bif\b`, in any case, behind a character: where it begins. -/
def findIf : Option Char → List Char → Option ℕ
  | _, [] => none
  | before, c :: l =>
    if c ∈ ['i', 'I', '\u0130', '\u0131'] && l.head?.any (· ∈ ['f', 'F']) &&
        boundary isWord before (some c) && boundary isWord l.head? (l.drop 1).head? then some 0
    else (findIf (some c) l).map (· + 1)

theorem findIf_lt {before : Option Char} {l : List Char} {k : ℕ}
    (h : findIf isWord before l = some k) : k < l.length := by
  induction l generalizing before k with
  | nil => cases h
  | cons c l ih =>
    rw [findIf] at h
    split_ifs at h
    · cases h
      exact Nat.succ_pos _
    · obtain ⟨j, hj, rfl⟩ := Option.map_eq_some_iff.1 h
      exact Nat.succ_lt_succ (ih hj)

/-- `expand_to_equation_clause`. -/
def expandToEquationClause (text : List Char) (start stop : ℕ) : ℕ × ℕ :=
  let left := start - ((text.take start).reverse.takeWhile fun c => !endsClause c).length
  let prefixWindow := (text.take start).drop (left - 120)
  (match findIf isWord none prefixWindow with
    | some k => left - 120 + k
    | none => left,
    stop + ((text.drop stop).takeWhile fun c => !endsClause c).length)

theorem expandToEquationClause_bounds {text : List Char} {start stop : ℕ} (hlt : start < stop)
    (hle : stop ≤ text.length) :
    (expandToEquationClause isWord text start stop).1 <
        (expandToEquationClause isWord text start stop).2 ∧
      (expandToEquationClause isWord text start stop).2 ≤ text.length := by
  unfold expandToEquationClause
  dsimp only
  have hleft := Nat.sub_le start ((text.take start).reverse.takeWhile fun c => !endsClause c).length
  generalize start - ((text.take start).reverse.takeWhile fun c => !endsClause c).length =
    left at hleft
  have hright := (List.takeWhile_prefix (fun c => !endsClause c) (l := text.drop stop)).length_le
  rw [List.length_drop] at hright
  refine ⟨?_, by omega⟩
  split
  · rename_i k hk
    have hlen := findIf_lt isWord hk
    rw [List.length_drop, List.length_take] at hlen
    omega
  · omega

/-- Spans that touch become one. -/
def mergeTouching : ℕ × ℕ → List (ℕ × ℕ) → List (ℕ × ℕ)
  | last, [] => [last]
  | last, span :: rest =>
    if span.1 ≤ last.2 then mergeTouching (last.1, max last.2 span.2) rest
    else last :: mergeTouching span rest

/-- `sorted(spans, key=lambda span: (span.start, span.end))`, then `_merge_overlapping`. -/
def mergeOverlapping (spans : List (ℕ × ℕ)) : List (ℕ × ℕ) :=
  match spans.insertionSort fun a b => a.1 < b.1 ∨ a.1 = b.1 ∧ a.2 ≤ b.2 with
  | [] => []
  | span :: rest => mergeTouching span rest

/-- `find_equation_spans`. -/
def findEquationSpans (text : String) : List EquationSpan :=
  if strip text = "" then []
  else
    let l := text.toList
    let candidates := (displayMathMatchers isWord).flatMap (·.finditer 0 0 l) ++
      equalsMatcher.finditer 0 0 l ++ derivativeMatcher.finditer 0 0 l
    let clauses :=
      (candidates.map fun c => expandToEquationClause isWord l c.1 c.2).eraseDups.filter
        fun c => strip (sliceText text c.1 c.2) ≠ ""
    (mergeOverlapping clauses).filterMap fun span =>
      let clause := sliceText text span.1 span.2
      if strip clause = "" then none
      else
        some {
          start := span.1
          stop := span.2
          text := strip clause
          high := classifySpan isWord clause.toList }

end Clauses

/-- The matches of the derivative notation, as `_plan_equation_in_content` looks for them. -/
def derivativeSpans (text : String) : List EquationSpan :=
  (derivativeMatcher.finditer 0 0 text.toList).map fun span => {
    start := span.1
    stop := span.2
    text := sliceText text span.1 span.2
    high := false }

/-- The recognisers with the equation spans of `placement_patterns`. -/
def withSpans (P : Patterns) (isWord : Char → Bool) : Patterns :=
  { P with findEquationSpans := findEquationSpans isWord, derivativeSpans := derivativeSpans }

/-! ## What is found -/

/-- The merged spans begin where the first does, and each begins behind the one before. -/
theorem mergeTouching_spec {last : ℕ × ℕ} {rest : List (ℕ × ℕ)} {bound : ℕ}
    (hlast : last.1 ≤ last.2 ∧ last.2 ≤ bound) (hrest : ∀ s ∈ rest, s.1 ≤ s.2 ∧ s.2 ≤ bound) :
    (∀ s ∈ mergeTouching last rest, last.1 ≤ s.1 ∧ s.1 ≤ s.2 ∧ s.2 ≤ bound) ∧
      (mergeTouching last rest).Pairwise fun a b => a.2 < b.1 := by
  induction rest generalizing last with
  | nil =>
    refine ⟨fun s hs => ?_, List.pairwise_singleton _ _⟩
    rw [mergeTouching, List.mem_singleton] at hs
    subst hs
    exact ⟨le_rfl, hlast⟩
  | cons span rest ih =>
    obtain ⟨hspan, hrest'⟩ := List.forall_mem_cons.1 hrest
    rw [mergeTouching]
    split_ifs with htouch
    · have hjoined : last.1 ≤ max last.2 span.2 ∧ max last.2 span.2 ≤ bound := by omega
      exact @ih (last.1, max last.2 span.2) hjoined hrest'
    · obtain ⟨hmem, hpair⟩ := ih hspan hrest'
      refine ⟨fun s hs => ?_, List.pairwise_cons.2 ⟨fun s hs => ?_, hpair⟩⟩
      · rcases List.mem_cons.1 hs with rfl | hs
        · exact ⟨le_rfl, hlast⟩
        · have := hmem s hs
          omega
      · have := hmem s hs
        omega

theorem mergeOverlapping_spec {spans : List (ℕ × ℕ)} {bound : ℕ}
    (h : ∀ s ∈ spans, s.1 ≤ s.2 ∧ s.2 ≤ bound) :
    (∀ s ∈ mergeOverlapping spans, s.2 ≤ bound) ∧
      (mergeOverlapping spans).Pairwise fun a b => a.2 < b.1 := by
  unfold mergeOverlapping
  split
  · exact ⟨(fun _ hs => nomatch hs), List.Pairwise.nil⟩
  · rename_i span rest hsort
    have hsorted : ∀ s ∈ span :: rest, s.1 ≤ s.2 ∧ s.2 ≤ bound := fun s hs =>
      h s ((List.mem_insertionSort _).1 (hsort ▸ hs))
    obtain ⟨hspan, hrest⟩ := List.forall_mem_cons.1 hsorted
    obtain ⟨hmem, hpair⟩ := mergeTouching_spec hspan hrest
    exact ⟨fun s hs => (hmem s hs).2.2, hpair⟩

section Found

variable {isWord : Char → Bool} {text : String}

/-- The clauses that are merged lie in the text. -/
theorem mem_candidates {c : ℕ × ℕ}
    (h : c ∈ (displayMathMatchers isWord).flatMap (·.finditer 0 0 text.toList) ++
      equalsMatcher.finditer 0 0 text.toList ++ derivativeMatcher.finditer 0 0 text.toList) :
    c.1 < c.2 ∧ c.2 ≤ text.toList.length := by
  rw [List.append_assoc, List.mem_append, List.mem_append, List.mem_flatMap] at h
  rcases h with ⟨m, -, hm⟩ | hm | hm
  · exact m.finditer_bounds hm
  · exact equalsMatcher.finditer_bounds hm
  · exact derivativeMatcher.finditer_bounds hm

theorem sliceText_toList (text : String) (start stop : ℕ) :
    (sliceText text start stop).toList = (text.toList.drop start).take (stop - start) := by
  rw [sliceText, String.toList_ofList]

variable (isWord) in
/-- What `findEquationSpans` makes of the merged clauses. -/
theorem findEquationSpans_eq (text : String) :
    ∃ merged : List (ℕ × ℕ), (∀ s ∈ merged, s.2 ≤ text.toList.length) ∧
      (merged.Pairwise fun a b => a.2 < b.1) ∧
      findEquationSpans isWord text = merged.filterMap fun span =>
        if strip (sliceText text span.1 span.2) = "" then none
        else
          some {
            start := span.1
            stop := span.2
            text := strip (sliceText text span.1 span.2)
            high := classifySpan isWord (sliceText text span.1 span.2).toList } := by
  unfold findEquationSpans
  split_ifs with hblank
  · exact ⟨[], (fun _ hs => nomatch hs), List.Pairwise.nil, rfl⟩
  · have hbounds : ∀ s ∈ ((((displayMathMatchers isWord).flatMap (·.finditer 0 0 text.toList) ++
        equalsMatcher.finditer 0 0 text.toList ++
          derivativeMatcher.finditer 0 0 text.toList).map fun c =>
            expandToEquationClause isWord text.toList c.1 c.2).eraseDups.filter
              fun c => strip (sliceText text c.1 c.2) ≠ ""),
        s.1 ≤ s.2 ∧ s.2 ≤ text.toList.length := by
      intro s hs
      obtain ⟨c, hc, rfl⟩ := List.mem_map.1 (List.mem_eraseDups.1 (List.mem_filter.1 hs).1)
      obtain ⟨hlt, hle⟩ := mem_candidates hc
      have hexpand := expandToEquationClause_bounds isWord hlt hle
      omega
    obtain ⟨hmem, hpair⟩ := mergeOverlapping_spec hbounds
    exact ⟨_, hmem, hpair, rfl⟩

/-- **A span lies in the text, and its text is the stripped stretch.** -/
theorem mem_findEquationSpans {span : EquationSpan} (h : span ∈ findEquationSpans isWord text) :
    span.start < span.stop ∧ span.stop ≤ text.toList.length ∧
      span.text = strip (sliceText text span.start span.stop) ∧ span.text ≠ "" := by
  obtain ⟨merged, hmem, -, heq⟩ := findEquationSpans_eq isWord text
  rw [heq] at h
  obtain ⟨s, hs, hspan⟩ := List.mem_filterMap.1 h
  split_ifs at hspan with hstrip
  cases hspan
  refine ⟨?_, hmem s hs, rfl, hstrip⟩
  by_contra hle
  refine hstrip ?_
  have hzero : s.2 - s.1 = 0 := by
    dsimp only at hle
    omega
  rw [sliceText, hzero, List.take_zero]
  exact strip_empty

/-- **The spans come in order, with a character between them.** -/
theorem findEquationSpans_pairwise :
    (findEquationSpans isWord text).Pairwise fun a b => a.stop < b.start := by
  obtain ⟨merged, -, hpair, heq⟩ := findEquationSpans_eq isWord text
  rw [heq, List.pairwise_filterMap]
  refine hpair.imp fun {a b} hab x hx y hy => ?_
  split_ifs at hx hy
  cases hx
  cases hy
  exact hab

/-- **A derivative ends with its bracket.** -/
theorem mem_derivativeSpans {span : EquationSpan} (h : span ∈ derivativeSpans text) :
    span.start < span.stop ∧ span.stop ≤ text.toList.length ∧
      span.text = sliceText text span.start span.stop ∧
      (sliceText text span.start span.stop).toList.getLast? = some ')' := by
  obtain ⟨s, hs, rfl⟩ := List.mem_map.1 h
  obtain ⟨hlt, hle⟩ := derivativeMatcher.finditer_bounds hs
  refine ⟨hlt, hle, rfl, ?_⟩
  obtain ⟨k, count, rfl, hrun⟩ := derivativeMatcher.mem_finditer hs
  obtain ⟨hpos, hlen, hlast⟩ := derivativeLength_bounds hrun
  rw [sliceText_toList, List.getLast?_eq_getElem?, List.length_take,
    show 0 + k + count - (0 + k) = count by omega, Nat.zero_add, min_eq_left hlen,
    List.getElem?_take_of_lt (by omega), hlast]

end Found

end StudyAgent.Placement
