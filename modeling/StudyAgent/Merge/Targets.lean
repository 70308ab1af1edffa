import Mathlib.Data.List.TakeWhile
import StudyAgent.Merge.Frame
import StudyAgent.Placement.Location

/-!
# Which fixes the scoped merge keeps

A placement check writes the heading of the failing subsection into its evidence as
`repr` prints it, and the merge takes from there which subsections of a patch to keep.
It reads a heading up to the first quote, whichever quote was put around it.

Main results:

* `quotedGroups_suffix` — what stands in front of a location never hides it.
* `mem_subsectionHeadingsFromEvidence` — a plainly printed heading is read back.
* `fix_kept_iff` — **a fix is kept exactly when its heading is among those read, up to
  case, and finds its place in the section.**
-/

namespace StudyAgent.Merge

open Py Placement

/-! ## One match -/

theorem matchWord_eq_some {ps l rest : List Char} (h : matchWord ps l = some rest) :
    ∃ w, l = w ++ rest ∧ ∀ c ∈ w, ∃ p ∈ ps, matchesLetter p c = true := by
  induction ps generalizing l with
  | nil => exact ⟨[], Option.some.inj h, fun c hc => absurd hc List.not_mem_nil⟩
  | cons p ps ih =>
    cases l with
    | nil => exact absurd h (by simp [matchWord])
    | cons c l =>
      rw [matchWord] at h
      split_ifs at h with hc
      obtain ⟨w, rfl, hw⟩ := ih h
      refine ⟨c :: w, rfl, fun d hd => ?_⟩
      rcases List.mem_cons.1 hd with rfl | hd
      · exact ⟨p, List.mem_cons_self, hc⟩
      · obtain ⟨p', hp', hd'⟩ := hw d hd
        exact ⟨p', List.mem_cons_of_mem _ hp', hd'⟩

/-- The word of the pattern. -/
def subsectionWord : List Char := ['s', 'u', 'b', 's', 'e', 'c', 't', 'i', 'o', 'n']

theorem subsectionWord_not_quote : ∀ p ∈ subsectionWord,
    matchesLetter p '\'' = false ∧ matchesLetter p '"' = false :=
  List.all_iff_forall_prop.1 (by decide)

theorem isSpace_not_quote {c : Char} (h : isSpace c = true) : ¬ IsQuote c := by
  rintro (rfl | rfl)
  · exact absurd h (by decide)
  · exact absurd h (by decide)

/-- Where a match stands: the word, blanks, a quote, the group and a quote. -/
structure QuoteMatch (l group rest word blanks : List Char) (q₁ q₂ : Char) : Prop where
  eq : l = (word ++ blanks) ++ q₁ :: (group ++ q₂ :: rest)
  word_not_quote : ∀ c ∈ word, ¬ IsQuote c
  blanks_ne : blanks ≠ []
  blanks_space : ∀ c ∈ blanks, isSpace c = true
  group_not_quote : ∀ c ∈ group, ¬ IsQuote c

theorem matchQuoted_eq_some {l group rest : List Char} (h : matchQuoted l = some (group, rest)) :
    ∃ q₁ q₂, l = q₁ :: (group ++ q₂ :: rest) ∧ ∀ c ∈ group, ¬ IsQuote c := by
  cases l with
  | nil => exact absurd h (by simp [matchQuoted])
  | cons q l =>
    unfold matchQuoted at h
    dsimp only at h
    cases hdrop : l.dropWhile fun c => ¬ IsQuote c with
    | nil =>
      rw [hdrop] at h
      exact absurd h (by simp)
    | cons q₂ tail =>
      rw [hdrop] at h
      dsimp only at h
      split_ifs at h with hq
      obtain ⟨rfl, rfl⟩ := Prod.mk.inj (Option.some.inj h)
      refine ⟨q, q₂, ?_, fun c hc => by simpa using List.mem_takeWhile_imp hc⟩
      rw [← hdrop, List.takeWhile_append_dropWhile]

theorem matchSubsectionQuote_eq_some {l group rest : List Char}
    (h : matchSubsectionQuote l = some (group, rest)) :
    ∃ word blanks q₁ q₂, QuoteMatch l group rest word blanks q₁ q₂ := by
  unfold matchSubsectionQuote at h
  cases hword : matchWord ['s', 'u', 'b', 's', 'e', 'c', 't', 'i', 'o', 'n'] l with
  | none =>
    rw [hword] at h
    exact absurd h (by simp)
  | some tail =>
    rw [hword] at h
    dsimp only at h
    split_ifs at h with hspace
    obtain ⟨word, rfl, hletters⟩ := matchWord_eq_some hword
    obtain ⟨q₁, q₂, hquoted, hgroup⟩ := matchQuoted_eq_some h
    refine ⟨word, tail.takeWhile isSpace, q₁, q₂, ?_, ?_, ?_, ?_, hgroup⟩
    · rw [← hquoted, List.append_assoc, List.takeWhile_append_dropWhile]
    · rintro c hc hquote
      obtain ⟨p, hp, hmatch⟩ := hletters c hc
      obtain ⟨hsingle, hdouble⟩ := subsectionWord_not_quote p hp
      rcases hquote with rfl | rfl
      · rw [hmatch] at hsingle
        exact absurd hsingle (by decide)
      · rw [hmatch] at hdouble
        exact absurd hdouble (by decide)
    · cases tail with
      | nil => exact absurd hspace (by decide)
      | cons c tail =>
        have hc : isSpace c = true := hspace
        simp [hc]
    · exact fun c hc => List.mem_takeWhile_imp hc

/-! ## The scan -/

theorem quotedGroups_skip (n : ℕ) (l : List Char) :
    quotedGroups n l = quotedGroups 0 (l.drop n) := by
  induction n generalizing l with
  | zero => rfl
  | succ n ih =>
    cases l with
    | nil => rfl
    | cons c l => exact ih l

/-- A text without `q` in front of one that has it ends before. -/
theorem append_of_not_mem {α : Type} {a m w x : List α} {q : α} (h : a ++ q :: m = w ++ x)
    (hq : q ∉ w) : ∃ t, a = w ++ t ∧ x = t ++ q :: m := by
  rcases List.append_eq_append_iff.1 h with ⟨t, rfl, ht⟩ | ⟨t, rfl, ht⟩
  · cases t with
    | nil => exact ⟨[], by simp, ht.symm⟩
    | cons d t =>
      have hd : q = d := (List.cons_eq_cons.1 ht).1
      exact absurd (List.mem_append_right a (hd ▸ List.mem_cons_self)) hq
  · exact ⟨t, rfl, ht⟩

/-- A match that begins in front of a quote ends there, or earlier. -/
theorem matchSubsectionQuote_before {a m group rest : List Char} {q : Char} (hq : IsQuote q)
    (ha : ∀ c ∈ a.getLast?, isSpace c = false)
    (h : matchSubsectionQuote (a ++ q :: m) = some (group, rest)) :
    rest = m ∨ ∃ b a', a = b ++ a' ∧ b ≠ [] ∧ rest = a' ++ q :: m := by
  obtain ⟨word, blanks, q₁, q₂, hmatch⟩ := matchSubsectionQuote_eq_some h
  have hblank : q ∉ word ++ blanks := by
    intro hmem
    rcases List.mem_append.1 hmem with hmem | hmem
    · exact hmatch.word_not_quote q hmem hq
    · exact isSpace_not_quote (hmatch.blanks_space q hmem) hq
  obtain ⟨t, hta, ht⟩ := append_of_not_mem hmatch.eq hblank
  cases t with
  | nil =>
    -- the quote would open the group, right behind a blank
    obtain ⟨init, c, hc⟩ := (List.eq_nil_or_concat blanks).resolve_left hmatch.blanks_ne
    have hlast : a.getLast? = some c := by
      rw [hta, List.append_nil, hc, List.concat_eq_append, ← List.append_assoc,
        List.getLast?_concat]
    have hspace := hmatch.blanks_space c (by simp [hc])
    exact absurd ((ha c hlast).symm.trans hspace) (by decide)
  | cons d t =>
    rw [List.cons_append] at ht
    obtain ⟨rfl, htail⟩ := List.cons_eq_cons.1 ht
    obtain ⟨u, rfl, hu⟩ := append_of_not_mem htail.symm fun hmem => hmatch.group_not_quote q hmem hq
    cases u with
    | nil => exact Or.inl (List.cons_eq_cons.1 hu).2
    | cons e u =>
      rw [List.cons_append] at hu
      obtain ⟨rfl, hrest⟩ := List.cons_eq_cons.1 hu
      exact Or.inr ⟨(word ++ blanks) ++ q₁ :: (group ++ [q₂]), u, by simp [hta], by simp, hrest⟩

/-- The scan goes on behind a match. -/
theorem quotedGroups_of_match {c : Char} {l group rest : List Char}
    (h : matchSubsectionQuote (c :: l) = some (group, rest)) :
    quotedGroups 0 (c :: l) = group :: quotedGroups 0 rest := by
  obtain ⟨word, blanks, q₁, q₂, hm⟩ := matchSubsectionQuote_eq_some h
  have hsuf : rest <:+ l := by
    have hall : rest <:+ c :: l :=
      ⟨(word ++ blanks) ++ q₁ :: (group ++ [q₂]), by rw [hm.eq]; simp⟩
    refine (List.suffix_cons_iff.1 hall).resolve_left fun hwhole => ?_
    have hlength := congrArg List.length hm.eq
    rw [hwhole] at hlength
    simp only [List.length_append, List.length_cons] at hlength
    omega
  rw [quotedGroups, h]
  dsimp only
  rw [quotedGroups_skip, ← List.suffix_iff_eq_drop.1 hsuf]

/-- The scan at the first character: it goes on behind a match, or at the next character. -/
theorem quotedGroups_cons (c : Char) (l : List Char) :
    (∃ group rest, matchSubsectionQuote (c :: l) = some (group, rest) ∧
      quotedGroups 0 (c :: l) = group :: quotedGroups 0 rest) ∨
    quotedGroups 0 (c :: l) = quotedGroups 0 l := by
  cases hmatch : matchSubsectionQuote (c :: l) with
  | none => exact Or.inr (by rw [quotedGroups, hmatch])
  | some p => exact Or.inl ⟨p.1, p.2, rfl, quotedGroups_of_match hmatch⟩

/-- **What stands in front of a quote hides no match behind it.** -/
theorem quotedGroups_suffix {m : List Char} {q : Char} (hq : IsQuote q) : ∀ (n : ℕ) {a : List Char},
    a.length ≤ n → (∀ c ∈ a.getLast?, isSpace c = false) →
    quotedGroups 0 m <:+ quotedGroups 0 (a ++ q :: m) := by
  intro n
  induction n with
  | zero =>
    intro a ha _
    rw [List.length_eq_zero_iff.1 (Nat.le_zero.1 ha), List.nil_append]
    rcases quotedGroups_cons q m with ⟨group, rest, hmatch, hgroups⟩ | hgroups
    · have hrest : rest = m := by
        rcases matchSubsectionQuote_before (a := []) hq (by simp) hmatch with
          hrest | ⟨b, a', hsplit, hne, -⟩
        · exact hrest
        · exact absurd (List.append_eq_nil_iff.1 hsplit.symm).1 hne
      rw [hgroups, hrest]
      exact List.suffix_cons _ _
    · simp [hgroups]
  | succ n ih =>
    intro a ha hlast
    cases a with
    | nil => exact ih (Nat.zero_le _) hlast
    | cons c a =>
      have hlater : ∀ {b a' : List Char}, c :: a = b ++ a' → b ≠ [] →
          quotedGroups 0 m <:+ quotedGroups 0 (a' ++ q :: m) := by
        intro b a' hsplit hb
        have hlength := congrArg List.length hsplit
        have hpos := List.length_pos_iff.2 hb
        rw [List.length_append] at hlength
        refine ih (by omega) fun d hd => hlast d ?_
        rw [hsplit, List.getLast?_append, Option.mem_def.1 hd]
        rfl
      rw [List.cons_append]
      rcases quotedGroups_cons c (a ++ q :: m) with ⟨group, rest, hmatch, hgroups⟩ | hgroups
      · rw [hgroups]
        refine List.IsSuffix.trans ?_ (List.suffix_cons _ _)
        rcases matchSubsectionQuote_before (a := c :: a) hq hlast hmatch with
          rfl | ⟨b, a', hsplit, hne, rfl⟩
        · exact List.suffix_rfl
        · exact hlater hsplit hne
      · rw [hgroups]
        exact hlater (b := [c]) rfl (by simp)

/-! ## A printed location -/

section Printed

variable (printable : Char → Bool)

/-- A heading without quotes that `repr` prints as it is. -/
def PlainHeading (heading : String) : Prop :=
  ∀ c ∈ heading.toList, ¬ IsQuote c ∧ reprChar printable '\'' c = [c]

instance (heading : String) : Decidable (PlainHeading printable heading) :=
  List.decidableBAll _ _

variable {printable}

theorem reprChars_plainHeading {heading : String} (h : PlainHeading printable heading) :
    reprChars printable heading.toList = '\'' :: heading.toList ++ ['\''] := by
  have hquote : quoteFor heading.toList = '\'' := by
    unfold quoteFor
    exact if_neg fun hmem => (h _ hmem.1).1 (Or.inl rfl)
  have hbody : ∀ l : List Char, (∀ c ∈ l, reprChar printable '\'' c = [c]) →
      reprBody printable '\'' l = l := by
    intro l hl
    induction l with
    | nil => rfl
    | cons c l ih =>
      rw [reprBody_cons, hl c List.mem_cons_self,
        ih fun d hd => hl d (List.mem_cons_of_mem _ hd)]
      rfl
  unfold reprChars
  rw [hquote, hbody _ fun c hc => (h c hc).2]

/-- A printed character ends with no blank unless it is one. -/
theorem getLast_reprChar {q c d : Char} (hc : isSpace c = false)
    (hd : d ∈ (reprChar printable q c).getLast?) : isSpace d = false := by
  have hletters : ∀ e ∈ escapeLetters, isSpace e = false :=
    List.all_iff_forall_prop.1 (by decide)
  have hmem := List.mem_of_getLast? (Option.mem_def.1 hd)
  rcases @reprChar_cases printable q c with h | ⟨tail, h, htail⟩
  · rw [h] at hmem
    rw [List.mem_singleton.1 hmem]
    exact hc
  · rw [h] at hmem
    rcases List.mem_cons.1 hmem with rfl | hmem
    · decide
    · rcases htail d hmem with rfl | he
      · exact hc
      · exact hletters d he

/-- The text between the quotes of a stripped heading ends with no blank. -/
theorem getLast_reprBody {q : Char} {l : List Char} (hl : ∀ c ∈ l.getLast?, isSpace c = false)
    {d : Char} (hd : d ∈ (reprBody printable q l).getLast?) : isSpace d = false := by
  rcases List.eq_nil_or_concat l with rfl | ⟨init, c, rfl⟩
  · exact absurd hd (by simp [reprBody])
  · rw [List.concat_eq_append] at hl hd
    have hne : reprChar printable q c ≠ [] := by
      rcases @reprChar_cases printable q c with h | ⟨tail, h, -⟩
      · simp [h]
      · simp [h]
    rw [reprBody_append, reprBody_cons, List.getLast?_append_of_ne_nil _ (by simp [hne])] at hd
    have hlast : isSpace c = false := hl c List.getLast?_concat
    exact getLast_reprChar hlast (by simpa [reprBody] using hd)

theorem getLast_strip {s : String} {c : Char} (hc : c ∈ (strip s).toList.getLast?) :
    isSpace c = false := by
  unfold strip stripChars at hc
  rw [String.toList_ofList, List.getLast?_reverse] at hc
  have hhead := List.head?_dropWhile_not isSpace (s.toList.dropWhile isSpace).reverse
  rw [Option.mem_def.1 hc] at hhead
  exact hhead

/-- The scan of a location: the printed heading up to its closing quote. -/
theorem quotedGroups_location {heading : String} (h : PlainHeading printable heading)
    (hne : heading ≠ "") (l : List Char) :
    heading.toList ∈
      quotedGroups 0 (subsectionMark ++ (reprChars printable heading.toList ++ l)) := by
  have hchars : heading.toList ≠ [] := fun hnil => hne (String.toList_eq_nil_iff.1 hnil)
  have hquoted : matchQuoted (reprChars printable heading.toList ++ l) =
      some (heading.toList, l) := by
    have htake : ∀ c ∈ heading.toList, decide (¬ IsQuote c) = true := fun c hc => by
      simpa using (h c hc).1
    rw [reprChars_plainHeading h]
    simp only [List.cons_append, List.append_assoc, matchQuoted,
      List.takeWhile_append_of_pos htake, List.dropWhile_append_of_pos htake]
    simp [hchars]
  have hmatch : matchSubsectionQuote (subsectionWord ++ ' ' :: (reprChars printable
      heading.toList ++ l)) = some (heading.toList, l) := by
    rw [reprChars_plainHeading h] at hquoted ⊢
    exact hquoted
  -- the scan passes the comma and the blank
  show heading.toList ∈ quotedGroups 0 (subsectionWord ++ ' ' :: (reprChars printable
    heading.toList ++ l))
  exact (quotedGroups_of_match hmatch).symm ▸ List.mem_cons_self

theorem getLast_quoted {init body : List Char} {q : Char} (hq : IsQuote q)
    (hbody : ∀ c ∈ body.getLast?, isSpace c = false) :
    ∀ c ∈ (init ++ q :: body).getLast?, isSpace c = false := by
  intro c hc
  rw [List.getLast?_append_cons, List.getLast?_cons] at hc
  cases h : body.getLast? with
  | none =>
    rw [h] at hc
    obtain rfl : q = c := Option.some.inj hc
    rw [Bool.eq_false_iff]
    exact fun hspace => isSpace_not_quote hspace hq
  | some d =>
    rw [h] at hc
    obtain rfl : d = c := Option.some.inj hc
    exact hbody d h

/-- A location, cut at the closing quote of the section heading. -/
theorem toList_locationEvidence {P : Patterns} {other : String → Option String}
    {h heading detail : String} (hne : heading ≠ "") :
    ∃ init, (locationEvidence (P.withPython printable other) h (some heading) detail).toList =
      (init ++ quoteFor h.toList :: reprBody printable (quoteFor h.toList) h.toList) ++
        quoteFor h.toList :: (subsectionMark ++ (reprChars printable heading.toList ++
          (colonMark ++ detail.toList))) := by
  refine ⟨"Section ".toList, ?_⟩
  unfold locationEvidence
  dsimp only
  rw [Option.getD_some, if_pos hne]
  simp only [String.toList_append, repr_toList, colonMark_eq, subsectionMark_eq,
    List.append_assoc]
  generalize "Section ".toList = init
  generalize subsectionMark ++ (reprChars printable heading.toList ++
    (colonMark ++ detail.toList)) = rest
  simp [reprChars]

/-- **A plainly printed heading is read back from the evidence.** -/
theorem mem_subsectionHeadingsFromEvidence {P : Patterns} {other : String → Option String}
    {s : Section} {heading detail : String} (h : PlainHeading printable heading)
    (hne : heading ≠ "") (hstrip : strip heading = heading) :
    heading ∈ subsectionHeadingsFromEvidence (locationEvidence
      (P.withPython printable other) (sectionHeading s) (some heading) detail) := by
  have hgroup : heading.toList ∈ quotedGroups 0 (locationEvidence
      (P.withPython printable other) (sectionHeading s) (some heading) detail).toList := by
    obtain ⟨init, hchars⟩ := @toList_locationEvidence printable P other (sectionHeading s) heading
      detail hne
    have hq := isQuote_quoteFor (sectionHeading s).toList
    have hbody : ∀ c ∈ (reprBody printable (quoteFor (sectionHeading s).toList)
        (sectionHeading s).toList).getLast?, isSpace c = false :=
      fun c hc => getLast_reprBody (fun d hd => getLast_strip (s := s.heading.getD "") hd) hc
    rw [hchars]
    exact (quotedGroups_suffix hq _ le_rfl (getLast_quoted hq hbody)).subset
      (quotedGroups_location h hne _)
  refine List.mem_filter.2 ⟨List.mem_map.2 ⟨_, hgroup, ?_⟩, by simpa using hne⟩
  rw [String.ofList_toList, hstrip]

end Printed

/-! ## The targets of a section -/

/-- The headings that the last bundle of a section names, of those that name any. -/
def namedHeadings (sectionFailures : List SectionFailures) (sid : String) : List String :=
  ((sectionFailures.reverse.find? fun b =>
    strip b.sectionId = sid ∧ headingsOfFailures b.failures ≠ []).map fun b =>
      headingsOfFailures b.failures).getD []

theorem get_subsectionTargetsFromFailures (sectionFailures : List SectionFailures) {sid : String}
    (hsid : sid ≠ "") :
    (OrderedDict.get (subsectionTargetsFromFailures sectionFailures) sid).getD [] =
      Dedup.collect id (fun _ => true) [] (namedHeadings sectionFailures sid) := by
  unfold subsectionTargetsFromFailures namedHeadings
  induction sectionFailures using List.reverseRecOn with
  | nil => rfl
  | append_singleton bundles b ih =>
    rw [List.foldl_append, List.foldl_cons, List.foldl_nil, List.reverse_append,
      List.reverse_singleton, List.singleton_append, List.find?_cons]
    unfold addTargets
    dsimp only
    by_cases hb : strip b.sectionId = sid ∧ headingsOfFailures b.failures ≠ []
    · rw [if_neg (by simp [hb.1, hb.2, hsid]), OrderedDict.get_insert, if_pos hb.1,
        decide_eq_true hb]
      rfl
    · rw [decide_eq_false hb]
      by_cases hskip : strip b.sectionId = "" ∨ headingsOfFailures b.failures = []
      · rw [if_pos hskip]
        exact ih
      · have hother : ¬ strip b.sectionId = sid := fun h => hb ⟨h, fun hnil => hskip (Or.inr hnil)⟩
        rw [if_neg hskip, OrderedDict.get_insert, if_neg hother]
        exact ih

theorem mem_targetsOf {sectionFailures : List SectionFailures} {sid : String} (hsid : sid ≠ "")
    {heading : String} : heading ∈ targetsOf sectionFailures [] sid ↔
      heading ∈ namedHeadings sectionFailures sid := by
  unfold targetsOf effectiveTargets
  rw [if_neg (by simp), get_subsectionTargetsFromFailures _ hsid, Dedup.mem_collect]
  simp

/-- A heading read from one failure of a section is named for the section. -/
theorem mem_namedHeadings {sectionFailures : List SectionFailures} {sid heading : String}
    (hsid : sid ≠ "") {r : FailureRecord} (hr : r ∈ failuresOf sectionFailures sid)
    (h : heading ∈ subsectionHeadingsFromEvidence r.evidence) :
    heading ∈ namedHeadings sectionFailures sid := by
  unfold failuresOf at hr
  unfold namedHeadings
  have hlast : ∀ {l : List SectionFailures} {b : SectionFailures},
      (l.find? fun b => strip b.sectionId = sid ∧ sid ≠ "") = some b →
      headingsOfFailures b.failures ≠ [] →
      (l.find? fun b => strip b.sectionId = sid ∧ headingsOfFailures b.failures ≠ []) = some b := by
    intro l b hb hne
    obtain ⟨hpb, pre, post, rfl, hpre⟩ := List.find?_eq_some_iff_append.1 hb
    refine List.find?_eq_some_iff_append.2 ⟨?_, pre, post, rfl, fun a ha => ?_⟩
    · simpa [hne, hsid] using hpb
    · have hout := hpre a ha
      simp only [hsid, ne_eq, not_false_eq_true, and_true] at hout
      simp only [Bool.not_eq_true', decide_eq_false_iff_not] at hout ⊢
      exact fun hin => hout hin.1
  cases hb : sectionFailures.reverse.find? fun b => strip b.sectionId = sid ∧ sid ≠ "" with
  | none =>
    rw [hb] at hr
    exact absurd hr List.not_mem_nil
  | some b =>
    rw [hb] at hr
    have hmem : heading ∈ headingsOfFailures b.failures :=
      List.mem_flatMap.2 ⟨r, hr, h⟩
    rw [hlast hb (List.ne_nil_of_mem hmem)]
    exact hmem

/-! ## The fix -/

/-- A failed placement check of a subsection: `r` is among the failures of the section and
carries the location that the check printed. -/
structure FailedSubsection (P : Patterns) (document : Document)
    (sectionFailures : List SectionFailures) (s : Section) (sub : Subsection)
    (r : FailureRecord) (detail : String) : Prop where
  section_mem : s ∈ document.sections
  subsection_mem : sub ∈ s.subsections.getD []
  heading_ne : headingText sub ≠ ""
  failure_mem : r ∈ failuresOf sectionFailures (sectionId s)
  evidence : r.evidence =
    locationEvidence P (sectionHeading s) (some (headingText sub)) detail

section Fix

variable (lowerText : String → String)

/-- The merged section that the patches of an id go to holds a subsection. -/
def HoldsFix (document merged : Document) (sid : String) (fix : Subsection) : Prop :=
  ∃ original k t, lastIndexed document.sections sid = some (original, k) ∧
    merged.sections[k]? = some t ∧ fix ∈ t.subsections.getD []

/-- The heading finds its place: a subsection of the original has it, or none has it even in
another case. -/
def HasPlace (originals : List Subsection) (heading : String) : Prop :=
  heading ∈ (originals.filter headed).map headingText ∨
    lowerText heading ∉ (originals.filter headed).map fun x => lowerText (headingText x)

theorem mem_restored {targets : List String} {originals patched : List Subsection}
    {fix : Subsection} (hfix : lastHeaded patched (headingText fix) = some fix) :
    fix ∈ restored lowerText targets originals patched ↔
      fix ∈ originals ∨ isTarget lowerText targets (headingText fix) = true ∧
        HasPlace lowerText originals (headingText fix) := by
  obtain ⟨-, hheaded, -⟩ := lastHeaded_eq_some hfix
  unfold restored
  rw [List.mem_append, restoreOriginals_eq, List.mem_map, mem_addedSubsections]
  unfold HasPlace
  constructor
  · rintro (⟨x, hx, hstand⟩ | ⟨-, hnew, htarget⟩)
    · by_cases htarget : isTarget lowerText targets (headingText x) = true
      · have hheading : headingText x = headingText fix := by
          rw [← hstand, headingText_standIn]
        exact Or.inr ⟨hheading ▸ htarget, Or.inl (hheading ▸ List.mem_map_of_mem hx)⟩
      · unfold standIn at hstand
        rw [if_neg htarget] at hstand
        exact Or.inl (hstand ▸ (List.mem_filter.1 hx).1)
    · exact Or.inr ⟨htarget, Or.inr hnew⟩
  · rintro (hmem | ⟨htarget, hheading | hnew⟩)
    · refine Or.inl ⟨fix, List.mem_filter.2 ⟨hmem, hheaded⟩, ?_⟩
      unfold standIn
      rw [hfix]
      split_ifs <;> rfl
    · obtain ⟨x, hx, hkey⟩ := List.mem_map.1 hheading
      refine Or.inl ⟨x, hx, ?_⟩
      unfold standIn
      rw [hkey, if_pos htarget, hfix]
      rfl
    · exact Or.inr ⟨hfix, hnew, htarget⟩

theorem sectionId_ne_of_failuresOf {sectionFailures : List SectionFailures} {sid : String}
    {r : FailureRecord} (h : r ∈ failuresOf sectionFailures sid) : sid ≠ "" := by
  rintro rfl
  unfold failuresOf at h
  rw [List.find?_eq_none.2] at h
  · exact absurd h List.not_mem_nil
  · intro b _ hb
    exact (of_decide_eq_true hb).2 rfl

/-- The section that takes the patch. -/
theorem holdsFix_iff {document : Document} {patches : List Section}
    {sectionFailures : List SectionFailures} {subsectionTargets : SubsectionTargets}
    {original patch : Section} {sid : String} {fix : Subsection}
    (horiginal : originalById document sid = some original)
    (hpatch : lastPatch patches sid = some patch) :
    HoldsFix document (mergeSectionPatchesScoped lowerText document patches sectionFailures
        subsectionTargets).document sid fix ↔
      fix ∈ ((scopeSection lowerText document sectionFailures
        (effectiveTargets sectionFailures subsectionTargets) patch).subsections.getD []) := by
  have hlast := horiginal
  rw [originalById_eq] at hlast
  split_ifs at hlast with hsid
  obtain ⟨⟨o, k⟩, hindex, rfl⟩ := Option.map_eq_some_iff.1 hlast
  obtain ⟨hget, hosid⟩ := lastIndexed_eq_some hindex
  have hmerged : (mergeSectionPatchesScoped lowerText document patches sectionFailures
      subsectionTargets).document.sections[k]? = some (scopeSection lowerText document
        sectionFailures (effectiveTargets sectionFailures subsectionTargets) patch) := by
    rw [getElem_scoped lowerText hget]
    unfold patchedAt
    rw [hosid, if_pos ⟨hsid, hindex⟩, hpatch, Option.getD_some]
  unfold HoldsFix
  constructor
  · rintro ⟨o', k', t, hindex', ht, hmem⟩
    obtain ⟨-, rfl⟩ := Prod.mk.inj (Option.some.inj (hindex.symm.trans hindex'))
    rw [hmerged] at ht
    exact Option.some.inj ht ▸ hmem
  · exact fun hmem => ⟨o, k, _, hindex, hmerged, hmem⟩

/-- The subsections of a section that has targets and an original. -/
theorem subsections_scopeSection {document : Document} {sectionFailures : List SectionFailures}
    {targets : SubsectionTargets} {s original : Section} {T : List String}
    (hT : (OrderedDict.get targets (sectionId s)).getD [] = T) (hne : T ≠ [])
    (ho : originalById document (sectionId s) = some original) :
    (scopeSection lowerText document sectionFailures targets s).subsections.getD [] =
      if original.subsections.getD [] = [] then s.subsections.getD []
      else restored lowerText T (original.subsections.getD []) (s.subsections.getD []) := by
  rw [scopeSection_of_original lowerText hT hne ho,
    ← getD_restoreUntargetedSubsections lowerText s original T]
  split_ifs <;> rfl

theorem isTarget_iff {sectionFailures : List SectionFailures} {sid heading : String}
    (hsid : sid ≠ "") :
    isTarget lowerText (targetsOf sectionFailures [] sid) heading = true ↔
      lowerText heading ∈ (namedHeadings sectionFailures sid).map lowerText := by
  unfold isTarget
  rw [decide_eq_true_eq, List.mem_map, List.mem_map]
  simp only [mem_targetsOf hsid]

theorem targetsOf_eq_nil_iff {sectionFailures : List SectionFailures} {sid : String}
    (hsid : sid ≠ "") :
    targetsOf sectionFailures [] sid = [] ↔ namedHeadings sectionFailures sid = [] := by
  simp only [List.eq_nil_iff_forall_not_mem, mem_targetsOf hsid]

/-- **A fix is kept exactly when its heading is among those the failures name, up to case, and
finds its place in the section; a heading that is printed plainly is always named.** -/
theorem fix_kept_iff {P : Patterns} {printable : Char → Bool} {other : String → Option String}
    {document : Document} {patches : List Section} {sectionFailures : List SectionFailures}
    {s original patch : Section} {sub fix : Subsection} {r : FailureRecord} {detail : String}
    (hfail : FailedSubsection (P.withPython printable other) document sectionFailures s sub r
      detail)
    (horiginal : originalById document (sectionId s) = some original)
    (hpatch : lastPatch patches (sectionId s) = some patch)
    (hfix : lastHeaded (patch.subsections.getD []) (headingText sub) = some fix) :
    HoldsFix document (mergeSectionPatchesScoped lowerText document patches sectionFailures
        []).document (sectionId s) fix ↔
      namedHeadings sectionFailures (sectionId s) = [] ∨
      original.subsections.getD [] = [] ∨
      fix ∈ original.subsections.getD [] ∨
      (PlainHeading printable (headingText sub) ∨ lowerText (headingText sub) ∈
          (namedHeadings sectionFailures (sectionId s)).map lowerText) ∧
        HasPlace lowerText (original.subsections.getD []) (headingText sub) := by
  have hsid := sectionId_ne_of_failuresOf hfail.failure_mem
  have hmember : fix ∈ patch.subsections.getD [] := (lastHeaded_eq_some hfix).1
  have hheading : headingText fix = headingText sub := (lastHeaded_eq_some hfix).2.2
  have hplain : PlainHeading printable (headingText sub) →
      headingText sub ∈ namedHeadings sectionFailures (sectionId s) := fun h => by
    refine mem_namedHeadings hsid hfail.failure_mem ?_
    rw [hfail.evidence]
    exact mem_subsectionHeadingsFromEvidence h hfail.heading_ne (strip_strip _)
  rw [holdsFix_iff lowerText horiginal hpatch]
  have hpid := sectionId_lastPatch hpatch
  rw [← hpid] at hsid horiginal hplain ⊢
  by_cases hnamed : namedHeadings sectionFailures (sectionId patch) = []
  · rw [scopeSection_of_no_targets lowerText ((targetsOf_eq_nil_iff hsid).2 hnamed)]
    exact iff_of_true hmember (Or.inl hnamed)
  · rw [subsections_scopeSection lowerText rfl
      (fun h => hnamed ((targetsOf_eq_nil_iff hsid).1 h)) horiginal]
    split_ifs with hempty
    · exact iff_of_true hmember (Or.inr (Or.inl hempty))
    · show fix ∈ restored lowerText (targetsOf sectionFailures [] (sectionId patch)) _ _ ↔ _
      rw [mem_restored lowerText (hheading ▸ hfix), isTarget_iff lowerText hsid, hheading]
      have hor : (PlainHeading printable (headingText sub) ∨ lowerText (headingText sub) ∈
          (namedHeadings sectionFailures (sectionId patch)).map lowerText) ↔
          lowerText (headingText sub) ∈
            (namedHeadings sectionFailures (sectionId patch)).map lowerText :=
        or_iff_right_of_imp fun h => List.mem_map_of_mem (hplain h)
      rw [or_iff_right hnamed, or_iff_right hempty, hor]

end Fix

/-! ### A heading with an apostrophe -/

/-- A section with one subsection. -/
def rootFinding (heading content : String) : Section where
  id := some (.str "ts_1")
  heading := some "Roots"
  subsections := some [{ heading := some heading, content := some content }]

/-- The failed check of its subsection. -/
def rootFailure (heading : String) : FailureRecord where
  checkId := "det_equation_in_content"
  category := "document_coherence"
  evidence := locationEvidence (noPatterns.withPython (fun _ => true) fun _ => none) "Roots"
    (some heading) "Prose contains display-math patterns"
  correctiveHint := ""

def rootFailures (heading : String) : List SectionFailures :=
  [{ sectionId := "ts_1", heading := "Roots", currentSection := none,
     failures := [rootFailure heading] }]

def rootDocument (heading : String) : Document := { sections := [rootFinding heading "x = a"] }

def fixedSubsection (heading : String) : Subsection where
  heading := some heading
  content := some "The formula is below."

theorem rootFailure_failed (heading : String) (hne : strip heading ≠ "")
    (hstrip : strip heading = heading) :
    FailedSubsection (noPatterns.withPython (fun _ => true) fun _ => none) (rootDocument heading)
      (rootFailures heading) (rootFinding heading "x = a")
      { heading := some heading, content := some "x = a" } (rootFailure heading)
      "Prose contains display-math patterns" := by
  have hid : sectionId (rootFinding heading "x = a") = "ts_1" := by
    show strip "ts_1" = "ts_1"
    decide
  have hroots : sectionHeading (rootFinding heading "x = a") = "Roots" := by
    show strip "Roots" = "Roots"
    decide
  have hfound : strip "ts_1" = "ts_1" ∧ "ts_1" ≠ "" := by decide
  have hmem : rootFailure heading ∈ failuresOf (rootFailures heading) "ts_1" := by
    unfold failuresOf rootFailures
    rw [List.reverse_singleton, List.find?_singleton, if_pos (decide_eq_true hfound)]
    exact List.mem_singleton.2 rfl
  refine ⟨List.mem_singleton.2 rfl, List.mem_singleton.2 rfl, hne, hid ▸ hmem, ?_⟩
  unfold headingText
  rw [Option.getD_some, hstrip, hroots]
  rfl

/-- A plainly printed heading keeps its fix. -/
theorem bisection_fix_kept : HoldsFix (rootDocument "Bisection")
    (mergeSectionPatchesScoped lower (rootDocument "Bisection")
      [rootFinding "Bisection" "The formula is below."] (rootFailures "Bisection") []).document
    "ts_1" (fixedSubsection "Bisection") :=
  (fix_kept_iff lower (rootFailure_failed "Bisection" (by decide) (by decide)) rfl rfl rfl).2
    (Or.inr (Or.inr (Or.inr ⟨Or.inl (by decide), Or.inl (by decide)⟩)))

/-- The heading is read up to its apostrophe, and the fix is reverted. -/
theorem newton_fix_lost :
    FailedSubsection (noPatterns.withPython (fun _ => true) fun _ => none)
      (rootDocument "Newton's method") (rootFailures "Newton's method")
      (rootFinding "Newton's method" "x = a")
      { heading := some "Newton's method", content := some "x = a" }
      (rootFailure "Newton's method") "Prose contains display-math patterns" ∧
    subsectionHeadingsFromEvidence (rootFailure "Newton's method").evidence = ["Newton"] ∧
    ¬ HoldsFix (rootDocument "Newton's method")
      (mergeSectionPatchesScoped lower (rootDocument "Newton's method")
        [rootFinding "Newton's method" "The formula is below."] (rootFailures "Newton's method")
        []).document "ts_1" (fixedSubsection "Newton's method") := by
  refine ⟨rootFailure_failed _ (by decide) (by decide), by decide, ?_⟩
  rw [@holdsFix_iff lower _ _ _ _ (rootFinding "Newton's method" "x = a")
    (rootFinding "Newton's method" "The formula is below.") "ts_1" _ rfl rfl]
  decide

end StudyAgent.Merge
