import Mathlib.Data.Bool.AllAny
import StudyAgent.Base.PyRepr
import StudyAgent.Placement.Plan

/-!
# The location a check carries in its evidence

A placement check writes the headings of its place into the evidence, each as
`repr` prints it, and the planner reads them back with a regular expression that
looks for the shortest text before a separator.  The separators are looked for in
the printed headings too.

Main results:

* `shortest_cases` — what a non-greedy group matches in front of a known separator.
* `parse_repr`, `parse_prefix_ne` — a printed heading is read back, and no proper
  prefix of it is.
* `location_roundtrip_iff` — **the headings come back exactly when neither is empty and
  neither contains a separator.**
-/

namespace StudyAgent.Placement

open Py

/-! ## Decoding -/

/-- The recognisers with Python's own `repr` and `ast.literal_eval`. -/
def Patterns.withPython (P : Patterns) (printable : Char → Bool)
    (other : String → Option String) : Patterns :=
  { P with
    repr := Py.repr printable
    literalEval := Py.literalEval other }

/-- `text or None`. -/
def orNone (text : String) : Option String := if text = "" then none else some text

/-- `_parse_evidence_location`. -/
def parseEvidenceLocation (P : Patterns) (c : Check) : Option String × Option String :=
  match matchEvidence (getText c.evidence "") with
  | none => (none, none)
  | some (heading, sub) =>
    (orNone (parseReprString P (String.ofList heading)),
      sub.bind fun raw => orNone (parseReprString P (String.ofList raw)))

/-- The planner uses the second component only. -/
theorem evidenceSubsection_eq (P : Patterns) (c : Check) :
    evidenceSubsection P c = (parseEvidenceLocation P c).2 := by
  unfold evidenceSubsection parseEvidenceLocation orNone
  cases matchEvidence (getText c.evidence "") with
  | none => simp only
  | some p =>
    obtain ⟨heading, sub⟩ := p
    cases sub <;> simp only [Option.bind_none, Option.bind_some]

/-- The headings that survive: neither is empty, the section's contains no separator,
and the subsection's no colon and space. -/
structure LocationReadable (sectionHeading : String) (subsectionHeading : Option String) :
    Prop where
  section_ne : sectionHeading ≠ ""
  subsection_ne : subsectionHeading ≠ some ""
  section_colon : containsText sectionHeading ": " = false
  section_comma : containsText sectionHeading ", subsection " = false
  subsection_colon : ∀ h ∈ subsectionHeading, containsText h ": " = false

/-! ## Occurrences -/

theorem findChars_isSome {needle l : List Char} :
    (findChars needle l).isSome = true ↔ needle <:+: l := by
  induction l with
  | nil =>
    unfold findChars
    by_cases h : needle = [] <;> simp [h]
  | cons c l ih =>
    rw [List.infix_cons_iff, ← ih, findChars, ← List.isPrefixOf_iff_prefix]
    by_cases h : needle.isPrefixOf (c :: l) = true
    · simp [h]
    · rw [if_neg h, Option.isSome_map]
      simp [h]

theorem containsText_iff {hay needle : String} :
    containsText hay needle = true ↔ needle.toList <:+: hay.toList := findChars_isSome

/-! ## The shortest match -/

section Shortest

variable {β : Type}

/-- A non-empty non-greedy group with what follows it. -/
def shortest (f : List Char → Option β) : List Char → Option (List Char × β)
  | [] => none
  | c :: l =>
    match f l with
    | some b => some ([c], b)
    | none => (shortest f l).map fun p => (c :: p.1, p.2)

/-- **In front of a known continuation the group ends there, or earlier.** -/
theorem shortest_cases {f : List Char → Option β} {m : List Char} {b : β} (hm : f m = some b) :
    ∀ {a : List Char}, a ≠ [] →
      (shortest f (a ++ m) = some (a, b) ∧
        ∀ a₁ a₂, a = a₁ ++ a₂ → a₁ ≠ [] → a₂ ≠ [] → f (a₂ ++ m) = none) ∨
      ((∃ a₁ a₂, a = a₁ ++ a₂ ∧ a₂ ≠ [] ∧ f (a₂ ++ m) ≠ none) ∧
        ∃ g b', shortest f (a ++ m) = some (g, b') ∧ g ≠ [] ∧ g <+: a ∧ g ≠ a) := by
  intro a
  induction a with
  | nil => exact fun h => absurd rfl h
  | cons c a ih =>
    intro _
    cases a with
    | nil =>
      refine Or.inl ⟨by simp [shortest, hm], fun a₁ a₂ hsplit h₁ h₂ => ?_⟩
      cases a₁ with
      | nil => exact absurd rfl h₁
      | cons d a₁ =>
        have hnil := (List.cons_eq_cons.1 hsplit).2
        exact absurd (List.append_eq_nil_iff.1 hnil.symm).2 h₂
    | cons d a =>
      cases hf : f (d :: a ++ m) with
      | some b' =>
        have hcut : f (d :: a ++ m) ≠ none := by
          rw [hf]
          exact Option.some_ne_none b'
        refine Or.inr ⟨⟨[c], d :: a, rfl, by simp, hcut⟩, [c], b', ?_, by simp, by simp, by simp⟩
        rw [List.cons_append, shortest, hf]
      | none =>
        have hstep : shortest f (c :: (d :: a) ++ m) =
            (shortest f (d :: a ++ m)).map fun p => (c :: p.1, p.2) := by
          rw [List.cons_append, shortest, hf]
        rcases ih (by simp) with ⟨hwhole, hnone⟩ | ⟨⟨a₁, a₂, hsplit, hcut⟩, g, b', hg, hne, hpre,
          hproper⟩
        · refine Or.inl ⟨by rw [hstep, hwhole]; rfl, fun a₁ a₂ hsplit h₁ h₂ => ?_⟩
          cases a₁ with
          | nil => exact absurd rfl h₁
          | cons e a₁ =>
            have htail : d :: a = a₁ ++ a₂ := (List.cons_eq_cons.1 hsplit).2
            cases a₁ with
            | nil =>
              rw [List.nil_append] at htail
              rw [← htail, hf]
            | cons e' a₁ => exact hnone _ _ htail (by simp) h₂
        · refine Or.inr ⟨⟨c :: a₁, a₂, congrArg (c :: ·) hsplit, hcut⟩, c :: g, b',
            by rw [hstep, hg]; rfl, by simp, ?_, ?_⟩
          · exact List.cons_prefix_cons.2 ⟨rfl, hpre⟩
          · exact fun h => hproper (List.cons_eq_cons.1 h).2

end Shortest

/-- `: ` at the beginning. -/
def startsColon (l : List Char) : Option Unit :=
  if (": ".toList).isPrefixOf l then some () else none

theorem untilColon_eq (l : List Char) : untilColon l = (shortest startsColon l).map Prod.fst := by
  induction l with
  | nil => rfl
  | cons c l ih =>
    rw [untilColon, shortest, startsColon]
    by_cases h : (": ".toList).isPrefixOf l = true
    · rw [if_pos h, if_pos h]
      rfl
    · rw [if_neg h, if_neg h, ih, Option.map_map, Option.map_map]
      rfl

theorem matchHeadings_eq (l : List Char) : matchHeadings l = shortest matchSubsection l := by
  induction l with
  | nil => rfl
  | cons c l ih =>
    rw [matchHeadings, shortest, ih]
    cases matchSubsection l <;> rfl

/-! ## Separators behind a printed heading -/

/-- `": "`. -/
def colonMark : List Char := [':', ' ']

/-- `", subsection "`. -/
def subsectionMark : List Char :=
  [',', ' ', 's', 'u', 'b', 's', 'e', 'c', 't', 'i', 'o', 'n', ' ']

theorem colonMark_eq : ": ".toList = colonMark := by decide

theorem subsectionMark_eq : ", subsection ".toList = subsectionMark := by decide

theorem colonMark_plain : ∀ c ∈ colonMark, IsPlain c :=
  List.all_iff_forall_prop.1 (by decide)

theorem subsectionMark_plain : ∀ c ∈ subsectionMark, IsPlain c :=
  List.all_iff_forall_prop.1 (by decide)

theorem isPrefixOf_append {α : Type} [BEq α] [LawfulBEq α] (p l : List α) :
    p.isPrefixOf (p ++ l) = true :=
  List.isPrefixOf_iff_prefix.2 (List.prefix_append p l)

theorem startsColon_mark (l : List Char) : startsColon (colonMark ++ l) = some () := by
  unfold startsColon
  rw [colonMark_eq, if_pos (isPrefixOf_append _ _)]

theorem matchSubsection_eq (l : List Char) : matchSubsection l =
    if subsectionMark.isPrefixOf l then (untilColon (l.drop subsectionMark.length)).map some
    else if colonMark.isPrefixOf l then some none else none := by
  have hlength : ", subsection ".length = subsectionMark.length := by decide
  unfold matchSubsection
  simp only [colonMark_eq, subsectionMark_eq, hlength]

theorem matchSubsection_colon (l : List Char) :
    matchSubsection (colonMark ++ l) = some none := by
  rw [matchSubsection_eq, if_neg, if_pos (isPrefixOf_append _ _)]
  simp [subsectionMark, colonMark]

theorem matchSubsection_mark (l : List Char) :
    matchSubsection (subsectionMark ++ l) = (untilColon l).map some := by
  rw [matchSubsection_eq, if_pos (isPrefixOf_append _ _), List.drop_left]

/-- A location goes on only with one of the two separators. -/
theorem matchSubsection_cases {l : List Char} (h : matchSubsection l ≠ none) :
    colonMark <+: l ∨ subsectionMark <+: l := by
  rw [matchSubsection_eq] at h
  by_cases hmark : subsectionMark.isPrefixOf l = true
  · exact Or.inr (List.isPrefixOf_iff_prefix.1 hmark)
  · rw [if_neg hmark] at h
    by_cases hcolon : colonMark.isPrefixOf l = true
    · exact Or.inl (List.isPrefixOf_iff_prefix.1 hcolon)
    · rw [if_neg hcolon] at h
      exact absurd rfl h

/-- Some text before a colon is found wherever a colon follows. -/
theorem untilColon_ne_none {a : List Char} (ha : a ≠ []) (l : List Char) :
    untilColon (a ++ (colonMark ++ l)) ≠ none := by
  rw [untilColon_eq]
  rcases shortest_cases (startsColon_mark l) ha with ⟨h, -⟩ | ⟨-, g, b, h, -⟩
  · rw [h]
    simp
  · rw [h]
    simp

section Printed

variable {printable : Char → Bool}

theorem repr_eq_concat (l : List Char) : ∃ init,
    reprChars printable l = init ++ [quoteFor l] := ⟨_, rfl⟩

theorem repr_ne_nil (l : List Char) : reprChars printable l ≠ [] := by
  simp [reprChars]

/-- A printed heading ends with no plain character. -/
theorem getLast_not_plain {l a : List Char} (hsuf : a <:+ reprChars printable l) (hne : a ≠ []) :
    quoteFor l ∈ a := by
  obtain ⟨b, hb⟩ := hsuf
  obtain ⟨init, hinit⟩ := @repr_eq_concat printable l
  have hget : a.getLast? = some (quoteFor l) := by
    rw [← List.getLast?_append_of_ne_nil b hne, hb, hinit, List.getLast?_concat]
  exact List.mem_of_getLast? hget

/-- A plain text that begins in the rest of a printed heading also ends there. -/
theorem prefix_of_prefix_append {pat a l m : List Char} (hplain : ∀ c ∈ pat, IsPlain c)
    (hsuf : a <:+ reprChars printable l) (hne : a ≠ []) (h : pat <+: a ++ m) : pat <+: a := by
  rcases Nat.lt_or_ge a.length pat.length with hlong | hshort
  · exfalso
    have hpre : a <+: pat := List.prefix_of_prefix_length_le (List.prefix_append a m) h hlong.le
    have hlast := hpre.subset (getLast_not_plain hsuf hne)
    exact (hplain _ hlast).2.2.2 (isQuote_quoteFor l)
  · exact List.prefix_of_prefix_length_le h (List.prefix_append a m) hshort

/-- A separator of the heading stands inside its printed form. -/
theorem split_at_occurrence {p : Char} {ps l : List Char} (hplain : ∀ c ∈ p :: ps, IsPlain c)
    (hp : p ∉ escapeLetters) (h : p :: ps <:+: l) :
    ∃ a₁ a₂, reprChars printable l = a₁ ++ (p :: ps ++ a₂) ∧ a₁ ≠ [] ∧ a₂ ≠ [] := by
  obtain ⟨a₁, a₂, hsplit⟩ := (@infix_repr_iff printable _ _ l hplain hp).2 h
  refine ⟨a₁, a₂, by rw [← hsplit, List.append_assoc], fun hnil => ?_, fun hnil => ?_⟩
  · rw [hnil] at hsplit
    have hhead : p = quoteFor l := (List.cons_eq_cons.1 hsplit).1
    exact (hplain p List.mem_cons_self).2.2.2 (hhead ▸ isQuote_quoteFor l)
  · rw [hnil, List.append_nil] at hsplit
    have hlast := getLast_not_plain ⟨a₁, hsplit⟩ (List.cons_ne_nil p ps)
    exact (hplain _ hlast).2.2.2 (isQuote_quoteFor l)

/-- **The separator behind the printed section heading is the first exactly when the
heading contains none.** -/
theorem matchHeadings_repr {l r d : List Char} {sub : Option (List Char)}
    (hm : matchSubsection (r ++ (colonMark ++ d)) = some sub) :
    (¬ (colonMark <:+: l ∨ subsectionMark <:+: l) ∧
      matchHeadings (reprChars printable l ++ (r ++ (colonMark ++ d))) =
        some (reprChars printable l, sub)) ∨
    ((colonMark <:+: l ∨ subsectionMark <:+: l) ∧
      ∃ g sub', matchHeadings (reprChars printable l ++ (r ++ (colonMark ++ d))) =
        some (g, sub') ∧ g ≠ [] ∧ g <+: reprChars printable l ∧ g ≠ reprChars printable l) := by
  rw [matchHeadings_eq]
  rcases shortest_cases hm (@repr_ne_nil printable l) with
    ⟨hwhole, hnone⟩ | ⟨⟨a₁, a₂, hsplit, hne, hcut⟩, hgroup⟩
  · refine Or.inl ⟨?_, hwhole⟩
    rintro (h | h)
    · obtain ⟨a₁, a₂, hsplit, h₁, -⟩ := @split_at_occurrence printable _ _ _ colonMark_plain
        (by decide) h
      have hcut := hnone a₁ _ hsplit h₁ (by simp)
      rw [List.append_assoc] at hcut
      exact absurd ((matchSubsection_colon _).symm.trans hcut) (by simp)
    · obtain ⟨a₁, a₂, hsplit, h₁, h₂⟩ :=
        @split_at_occurrence printable _ _ _ subsectionMark_plain (by decide) h
      have hcut := hnone a₁ _ hsplit h₁ (by simp)
      rw [List.append_assoc] at hcut
      have hmark := (matchSubsection_mark _).symm.trans hcut
      rw [Option.map_eq_none_iff, ← List.append_assoc] at hmark
      exact untilColon_ne_none (by simp [h₂]) d hmark
  · refine Or.inr ⟨?_, hgroup⟩
    have hsuf : a₂ <:+ reprChars printable l := ⟨a₁, hsplit.symm⟩
    have hoccurs : ∀ {p ps}, (∀ c ∈ p :: ps, IsPlain c) → p ∉ escapeLetters →
        p :: ps <+: a₂ ++ (r ++ (colonMark ++ d)) → p :: ps <:+: l := fun hplain hp h =>
      (@infix_repr_iff printable _ _ l hplain hp).1
        ((prefix_of_prefix_append hplain hsuf hne h).isInfix.trans hsuf.isInfix)
    rcases matchSubsection_cases hcut with h | h
    · exact Or.inl (hoccurs colonMark_plain (by decide) h)
    · exact Or.inr (hoccurs subsectionMark_plain (by decide) h)

/-- The colon behind a printed subsection heading is the first exactly when the heading
contains none. -/
theorem untilColon_repr (l d : List Char) :
    (¬ colonMark <:+: l ∧
      untilColon (reprChars printable l ++ (colonMark ++ d)) = some (reprChars printable l)) ∨
    (colonMark <:+: l ∧ ∃ g, untilColon (reprChars printable l ++ (colonMark ++ d)) = some g ∧
      g ≠ [] ∧ g <+: reprChars printable l ∧ g ≠ reprChars printable l) := by
  rw [untilColon_eq]
  rcases shortest_cases (startsColon_mark d) (@repr_ne_nil printable l) with
    ⟨hwhole, hnone⟩ | ⟨⟨a₁, a₂, hsplit, hne, hcut⟩, g, b, hg, hgroup⟩
  · refine Or.inl ⟨fun h => ?_, by rw [hwhole]; rfl⟩
    obtain ⟨a₁, a₂, hsplit, h₁, -⟩ := @split_at_occurrence printable _ _ _ colonMark_plain
      (by decide) h
    have hcut := hnone a₁ _ hsplit h₁ (by simp)
    rw [List.append_assoc] at hcut
    exact absurd ((startsColon_mark _).symm.trans hcut) (by simp)
  · refine Or.inr ⟨?_, g, by rw [hg]; rfl, hgroup⟩
    have hsuf : a₂ <:+ reprChars printable l := ⟨a₁, hsplit.symm⟩
    have hstart : colonMark <+: a₂ ++ (colonMark ++ d) := by
      unfold startsColon at hcut
      rw [colonMark_eq] at hcut
      split_ifs at hcut with hpre
      · exact List.isPrefixOf_iff_prefix.1 hpre
      · exact absurd rfl hcut
    exact (@infix_repr_iff printable _ _ l colonMark_plain (by decide)).1
      ((prefix_of_prefix_append colonMark_plain hsuf hne hstart).isInfix.trans hsuf.isInfix)

/-! ## Reading a printed heading back -/

theorem stripChars_quoted {q : Char} (hq : isSpace q = false) (l : List Char) :
    stripChars (q :: l ++ [q]) = q :: l ++ [q] := by
  have hhead : ∀ m, (q :: m).dropWhile isSpace = q :: m := fun m =>
    List.dropWhile_cons_of_neg (by rw [hq]; decide)
  unfold stripChars
  rw [List.cons_append, hhead, List.reverse_cons, List.reverse_append, List.reverse_singleton,
    List.cons_append, List.cons_append, hhead]
  simp

theorem quote_not_space {q : Char} (hq : IsQuote q) : isSpace q = false := by
  rcases hq with rfl | rfl <;> decide

/-- A stripped text that begins with a quote keeps its beginning. -/
theorem stripChars_prefix {q : Char} (hq : isSpace q = false) (l : List Char) :
    stripChars (q :: l) <+: q :: l ∧ stripChars (q :: l) ≠ [] := by
  obtain ⟨r, hr⟩ := stripChars_cons l hq
  refine ⟨?_, by rw [hr]; simp⟩
  unfold stripChars
  rw [List.dropWhile_cons_of_neg (by rw [hq]; decide)]
  have hsuf := List.reverse_prefix.2 (List.dropWhile_suffix isSpace (l := (q :: l).reverse))
  rwa [List.reverse_reverse] at hsuf

variable {P : Patterns} {other : String → Option String}

/-- **A printed heading is read back.** -/
theorem parse_repr (l : List Char) :
    parseReprString (P.withPython printable other) (String.ofList (reprChars printable l)) =
      String.ofList l := by
  have hstrip : strip (String.ofList (reprChars printable l)) =
      String.ofList (reprChars printable l) := by
    unfold strip
    rw [String.toList_ofList]
    exact congrArg _ (stripChars_quoted (quote_not_space (isQuote_quoteFor l)) _)
  have hne : String.ofList (reprChars printable l) ≠ "" := by
    intro h
    have hnil := congrArg String.toList h
    rw [String.toList_ofList] at hnil
    exact repr_ne_nil l hnil
  have heval : (P.withPython printable other).literalEval (String.ofList (reprChars printable l)) =
      some (String.ofList l) := by
    have := @literalEval_repr printable other (String.ofList l)
    unfold Py.repr at this
    rwa [String.toList_ofList] at this
  unfold parseReprString
  dsimp only
  rw [hstrip, if_neg hne, heval]

theorem unquote_eq {q : Char} {m : List Char} (hlength : 2 ≤ m.length) (hhead : m.head? = some q)
    (hlast : m.getLast? = some q) : m = q :: (m.tail.dropLast ++ [q]) := by
  cases m with
  | nil => exact absurd hlength (by decide)
  | cons a m =>
    cases m with
    | nil => exact absurd hlength (by simp)
    | cons b m =>
      rw [List.getLast?_cons_cons] at hlast
      rw [List.tail_cons, List.dropLast_append_getLast? q hlast]
      exact congrArg (· :: b :: m) (Option.some.inj hhead)

/-- **No proper prefix of a printed heading is read as the heading.** -/
theorem parse_prefix_ne {l g : List Char} (hl : l ≠ []) (hne : g ≠ [])
    (hpre : g <+: reprChars printable l) (hproper : g ≠ reprChars printable l) :
    parseReprString (P.withPython printable other) (String.ofList g) ≠ String.ofList l := by
  have hquote := isQuote_quoteFor l
  cases g with
  | nil => exact absurd rfl hne
  | cons c g =>
    have hc : c = quoteFor l := (List.cons_prefix_cons.1 hpre).1
    obtain ⟨htrim, htrim_ne⟩ := stripChars_prefix (hc ▸ quote_not_space hquote) g
    have hshort : stripChars (c :: g) ≠ reprChars printable l := by
      intro h
      have hle := htrim.length_le
      rw [h] at hle
      exact hproper (hpre.eq_of_length_le hle)
    have heval : (P.withPython printable other).literalEval
        (String.ofList (stripChars (c :: g))) = none :=
      literalEval_prefix htrim_ne (htrim.trans hpre) hshort
    have hstrip : strip (String.ofList (c :: g)) = String.ofList (stripChars (c :: g)) := by
      unfold strip
      rw [String.toList_ofList]
    have hempty : String.ofList (stripChars (c :: g)) ≠ "" := by
      intro h
      have hnil := congrArg String.toList h
      rw [String.toList_ofList] at hnil
      exact htrim_ne hnil
    have htext : ∀ m : List Char, m ≠ l → String.ofList m ≠ String.ofList l := by
      intro m hm h
      have hlist := congrArg String.toList h
      rw [String.toList_ofList, String.toList_ofList] at hlist
      exact hm hlist
    unfold parseReprString
    dsimp only
    rw [hstrip, if_neg hempty, heval, String.toList_ofList]
    dsimp only
    split_ifs with hquoted
    · refine htext _ fun h => ?_
      obtain ⟨hlength, hends, -⟩ := hquoted
      have hfirst : (stripChars (c :: g)).head? = some (quoteFor l) := by
        obtain ⟨r, hr⟩ := stripChars_cons g (quote_not_space hquote)
        rw [hc, hr]
        rfl
      have hshape := unquote_eq hlength hfirst (hends ▸ hfirst)
      have hbody : l ++ [quoteFor l] <+: reprBody printable (quoteFor l) l := by
        have hinside : quoteFor l :: (l ++ [quoteFor l]) <+: reprChars printable l := by
          rw [h] at hshape
          exact hshape ▸ htrim.trans hpre
        rcases List.prefix_concat_iff.1 (List.cons_prefix_cons.1 hinside).2 with hall | hbody
        · exact absurd (by rw [hshape, h, hall]; rfl) hshort
        · exact hbody
      exact not_quoted_prefix hquote l 0 hbody
    · refine htext _ fun h => ?_
      exact not_prefix_repr hl (h ▸ htrim.trans hpre)

/-! ## The round trip -/

theorem orNone_eq_some {text x : String} : orNone text = some x ↔ text = x ∧ x ≠ "" := by
  unfold orNone
  split_ifs with h
  · simp [h]
  · constructor
    · intro hx
      cases hx
      exact ⟨rfl, h⟩
    · rintro ⟨rfl, -⟩
      rfl

theorem orNone_parse_repr {h : String} :
    orNone (parseReprString (P.withPython printable other)
      (String.ofList (reprChars printable h.toList))) = some h ↔ h ≠ "" := by
  rw [orNone_eq_some, parse_repr]
  exact and_iff_right String.ofList_toList

theorem orNone_parse_prefix {h : String} {g : List Char} (hl : h.toList ≠ []) (hne : g ≠ [])
    (hpre : g <+: reprChars printable h.toList) (hproper : g ≠ reprChars printable h.toList) :
    orNone (parseReprString (P.withPython printable other) (String.ofList g)) ≠ some h := by
  intro heq
  refine @parse_prefix_ne printable P other _ _ hl hne hpre hproper ?_
  exact (orNone_eq_some.1 heq).1.trans String.ofList_toList.symm

theorem matchEvidence_section (rest : String) :
    matchEvidence ("Section " ++ rest) = matchHeadings rest.toList := by
  have hlength : "Section ".length = "Section ".toList.length := by decide
  unfold matchEvidence startsWith
  rw [String.toList_append, if_pos (isPrefixOf_append _ _), hlength, List.drop_left]

theorem repr_toList (x : String) : ((P.withPython printable other).repr x).toList =
    reprChars printable x.toList := String.toList_ofList

/-- Evidence that names the section only. -/
theorem matchEvidence_location {h detail : String} {sub : Option String}
    (hsub : sub.getD "" = "") :
    matchEvidence (locationEvidence (P.withPython printable other) h sub detail) =
      matchHeadings (reprChars printable h.toList ++ ([] ++ (colonMark ++ detail.toList))) := by
  unfold locationEvidence
  dsimp only
  rw [if_neg (not_not.2 hsub), String.append_assoc, String.append_assoc, matchEvidence_section,
    String.toList_append, String.toList_append, repr_toList, colonMark_eq]
  rfl

/-- Evidence that names a subsection too. -/
theorem matchEvidence_subsection {h detail : String} {sub : Option String}
    (hsub : sub.getD "" ≠ "") :
    matchEvidence (locationEvidence (P.withPython printable other) h sub detail) =
      matchHeadings (reprChars printable h.toList ++ ((subsectionMark ++
        reprChars printable (sub.getD "").toList) ++ (colonMark ++ detail.toList))) := by
  unfold locationEvidence
  dsimp only
  rw [if_pos hsub]
  simp only [String.append_assoc]
  rw [matchEvidence_section]
  simp only [String.toList_append, repr_toList, colonMark_eq, subsectionMark_eq, List.append_assoc]

theorem containsText_false_iff {hay needle : String} :
    containsText hay needle = false ↔ ¬ needle.toList <:+: hay.toList := by
  rw [← containsText_iff, Bool.not_eq_true]

theorem ne_empty_iff {h : String} : h ≠ "" ↔ h.toList ≠ [] :=
  not_congr String.toList_eq_nil_iff.symm

theorem locationReadable_iff {h : String} {sub : Option String} : LocationReadable h sub ↔
    (h ≠ "" ∧ ¬ (colonMark <:+: h.toList ∨ subsectionMark <:+: h.toList)) ∧
      (sub ≠ some "" ∧ ∀ x ∈ sub, ¬ colonMark <:+: x.toList) := by
  constructor
  · rintro ⟨hsec, hsub, hcolon, hcomma, hinner⟩
    rw [containsText_false_iff, colonMark_eq] at hcolon
    rw [containsText_false_iff, subsectionMark_eq] at hcomma
    refine ⟨⟨hsec, not_or.2 ⟨hcolon, hcomma⟩⟩, hsub, fun x hx => ?_⟩
    have := hinner x hx
    rwa [containsText_false_iff, colonMark_eq] at this
  · rintro ⟨⟨hsec, hnone⟩, hsub, hinner⟩
    obtain ⟨hcolon, hcomma⟩ := not_or.1 hnone
    refine ⟨hsec, hsub, ?_, ?_, fun x hx => ?_⟩
    · rwa [containsText_false_iff, colonMark_eq]
    · rwa [containsText_false_iff, subsectionMark_eq]
    · rw [containsText_false_iff, colonMark_eq]
      exact hinner x hx

/-- The two groups of a match, as headings. -/
def decodeGroups (P : Patterns) (m : Option (List Char × Option (List Char))) :
    Option String × Option String :=
  match m with
  | none => (none, none)
  | some (heading, sub) =>
    (orNone (parseReprString P (String.ofList heading)),
      sub.bind fun raw => orNone (parseReprString P (String.ofList raw)))

/-- A separator inside the section heading cuts it off, whatever follows. -/
theorem decode_section {h : String} {r d : List Char} {sub : Option (List Char)}
    {want : Option String} (hm : matchSubsection (r ++ (colonMark ++ d)) = some sub) :
    decodeGroups (P.withPython printable other)
        (matchHeadings (reprChars printable h.toList ++ (r ++ (colonMark ++ d)))) =
      (some h, want) ↔
    (h ≠ "" ∧ ¬ (colonMark <:+: h.toList ∨ subsectionMark <:+: h.toList)) ∧
      (sub.bind fun raw => orNone (parseReprString (P.withPython printable other)
        (String.ofList raw))) = want := by
  rcases @matchHeadings_repr printable h.toList r d sub hm with
    ⟨hnone, hmatch⟩ | ⟨hsep, g, sub', hmatch, hne, hpre, hproper⟩
  · rw [hmatch, decodeGroups, Prod.mk.injEq, orNone_parse_repr, and_iff_left hnone]
  · have hl : h.toList ≠ [] := by
      intro hnil
      rw [hnil, List.infix_nil, List.infix_nil] at hsep
      rcases hsep with hsep | hsep
      · exact absurd hsep (by decide)
      · exact absurd hsep (by decide)
    rw [hmatch, decodeGroups, Prod.mk.injEq]
    refine iff_of_false (fun heq => ?_) fun hok => hok.1.2 hsep
    exact orNone_parse_prefix hl hne hpre hproper heq.1

/-- A colon inside the subsection heading cuts it off. -/
theorem decode_subsection {x : String} {d : List Char} (hx : x ≠ "") :
    (((untilColon (reprChars printable x.toList ++ (colonMark ++ d))).bind fun raw =>
      orNone (parseReprString (P.withPython printable other) (String.ofList raw))) = some x) ↔
      ¬ colonMark <:+: x.toList := by
  rcases @untilColon_repr printable x.toList d with
    ⟨hnone, hmatch⟩ | ⟨hsep, g, hmatch, hne, hpre, hproper⟩
  · rw [hmatch, Option.bind_some, orNone_parse_repr]
    exact iff_of_true hx hnone
  · rw [hmatch, Option.bind_some]
    refine iff_of_false ?_ fun hno => hno hsep
    exact orNone_parse_prefix (ne_empty_iff.1 hx) hne hpre hproper

/-- **The headings of a location come back exactly when they are readable.** -/
theorem location_roundtrip_iff (P : Patterns) (printable : Char → Bool)
    (other : String → Option String) (sectionHeading : String)
    (subsectionHeading : Option String) (detail checkId : String) (sectionId : Option String)
    (question correctiveHint : String) :
    parseEvidenceLocation (P.withPython printable other)
        (failedCheck checkId sectionId question
          (locationEvidence (P.withPython printable other) sectionHeading subsectionHeading detail)
          correctiveHint) = (some sectionHeading, subsectionHeading) ↔
      LocationReadable sectionHeading subsectionHeading := by
  have hdecode : ∀ e : String, parseEvidenceLocation (P.withPython printable other)
      (failedCheck checkId sectionId question e correctiveHint) =
        decodeGroups (P.withPython printable other) (matchEvidence e) := fun e => rfl
  rw [hdecode, locationReadable_iff]
  by_cases hsub : subsectionHeading.getD "" = ""
  · rw [matchEvidence_location hsub, decode_section (r := []) (matchSubsection_colon _)]
    refine and_congr_right fun _ => ?_
    cases subsectionHeading with
    | none => simp
    | some x =>
      have hx : x = "" := hsub
      simp [hx]
  · obtain ⟨x, rfl⟩ : ∃ x, subsectionHeading = some x := by
      cases subsectionHeading with
      | none => exact absurd rfl hsub
      | some x => exact ⟨x, rfl⟩
    have hx : x ≠ "" := hsub
    have hfound : untilColon (reprChars printable x.toList ++
      (colonMark ++ detail.toList)) ≠ none :=
      untilColon_ne_none (repr_ne_nil _) _
    obtain ⟨raw, hraw⟩ := Option.ne_none_iff_exists'.1 hfound
    have hm : matchSubsection ((subsectionMark ++ reprChars printable x.toList) ++
        (colonMark ++ detail.toList)) = some (some raw) := by
      rw [List.append_assoc, matchSubsection_mark, hraw]
      rfl
    rw [matchEvidence_subsection hsub, Option.getD_some, decode_section hm]
    refine and_congr_right fun _ => ?_
    have hinner := @decode_subsection printable P other x detail.toList hx
    rw [hraw, Option.bind_some] at hinner
    rw [Option.bind_some, hinner]
    simp [hx]

/-! ### A heading with a colon -/

/-- Recognisers that find nothing. -/
def noPatterns : Patterns where
  findEquationSpans := fun _ => []
  derivativeSpans := fun _ => []
  isNarrativeEquationClause := fun _ => false
  extractEquationCore := fun _ => none
  normalizeMath := fun text => text
  looksLikeProgrammingCode := fun _ => false
  looksLikePseudocode := fun _ => false
  checklistRequiresFormulaWork := fun _ _ => false
  repr := Py.repr fun _ => true
  literalEval := Py.literalEval fun _ => none

/-- The check of a subsection `Rules` in a section `Limits: basics`. -/
def limitsCheck : Check :=
  failedCheck "det_equation_in_content" (some "ts_1") "" (locationEvidence noPatterns
    "Limits: basics" (some "Rules") "Prose contains display-math patterns") ""

/-- The planner takes the section for `'Limits` and loses the subsection. -/
theorem limitsCheck_lost :
    parseEvidenceLocation noPatterns limitsCheck = (some "'Limits", none) ∧
      parseEvidenceLocation noPatterns limitsCheck ≠ (some "Limits: basics", some "Rules") := by
  decide

end Printed

end StudyAgent.Placement
