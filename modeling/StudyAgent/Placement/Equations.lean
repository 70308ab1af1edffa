import StudyAgent.Base.TextEdits
import StudyAgent.Placement.EquationSpans
import StudyAgent.Placement.Phases

/-!
# Equations out of the prose

A plan for the equations of a container addresses them by offsets into its prose.  The
relocations are made one after another on the prose that the ones before have left, each at
the offsets of its plan.  A span to extract has to be there still; one to replace is not
looked at again.

Main results:

* `planEquationInContent_order` — a planned span behind which an earlier one lies is a
  derivative.
* `relocations_run` — relocations that find their spans make the edits of the plan.
* `equations_relocated` — **while no relocation moves the span of a later one, the prose
  loses what was planned.**
-/

namespace StudyAgent.Placement

open Py
open TextEdits hiding strip

/-! ## Planned spans -/

/-- The edit of the prose that a relocation makes. -/
def toEdit (r : Relocation) : Edit Char where
  start := r.spanStart.getD 0
  stop := r.spanEnd.getD 0
  put := if r.action = .extract then none else r.replacement.map String.toList

/-- A relocation whose span lies in a text. -/
inductive SpanRelocation (content : String) : Relocation → Prop where
  | extract (sid : String) (sub : Option String) (start stop : ℕ) (text : String)
      (hlt : start < stop) (hle : stop ≤ content.toList.length) (hne : text ≠ "")
      (htext : strip (sliceText content start stop) = strip text) :
      SpanRelocation content (extractSpan sid sub start stop text)
  | dereference (sid : String) (sub : Option String) (span : EquationSpan)
      (hlt : span.start < span.stop) (hle : span.stop ≤ content.toList.length) :
      SpanRelocation content (dereferenceSpan sid sub span)

theorem dereferenceReplacement_head (text : String) :
    ∃ l, (dereferenceReplacement text).toList = 't' :: l := by
  unfold dereferenceReplacement
  split_ifs
  · exact ⟨_, rfl⟩
  · exact ⟨_, rfl⟩
  · exact ⟨_, rfl⟩

theorem SpanRelocation.fits {content : String} {r : Relocation} (h : SpanRelocation content r) :
    (toEdit r).Fits content.toList := by
  cases h with
  | extract sid sub start stop text hlt hle hne htext => exact ⟨hlt, hle⟩
  | dereference sid sub span hlt hle => exact ⟨hlt, hle⟩

theorem SpanRelocation.head {content : String} {r : Relocation} (h : SpanRelocation content r)
    {put : List Char} (hput : (toEdit r).put = some put) :
    ∃ c l, put = c :: l ∧ isSpace c = false := by
  cases h with
  | extract sid sub start stop text hlt hle hne htext =>
    exact absurd hput (by simp [toEdit, extractSpan])
  | dereference sid sub span hlt hle =>
    obtain ⟨l, hl⟩ := dereferenceReplacement_head span.text
    simp only [toEdit, dereferenceSpan, reduceCtorEq, if_false, Option.map_some,
      Option.some.injEq] at hput
    exact ⟨'t', l, hput.symm.trans hl, by decide⟩

theorem findChars_eq_some {needle l : List Char} {offset : ℕ}
    (h : findChars needle l = some offset) :
    offset + needle.length ≤ l.length ∧ (l.drop offset).take needle.length = needle := by
  induction l generalizing offset with
  | nil =>
    unfold findChars at h
    split_ifs at h with hnil
    cases h
    subst hnil
    exact ⟨le_rfl, rfl⟩
  | cons c l ih =>
    rw [findChars] at h
    split_ifs at h with hprefix
    · cases h
      rw [List.isPrefixOf_iff_prefix] at hprefix
      refine ⟨by rw [Nat.zero_add]; exact hprefix.length_le, ?_⟩
      rw [List.drop_zero]
      exact (List.prefix_iff_eq_take.1 hprefix).symm
    · obtain ⟨k, hk, rfl⟩ := Option.map_eq_some_iff.1 h
      obtain ⟨hle, htake⟩ := ih hk
      rw [List.length_cons, List.drop_succ_cons]
      exact ⟨by omega, htake⟩

section Plan

variable {P : Patterns} {isWord : Char → Bool} {s : Section} {c : Check}

@[simp] theorem withSpans_findEquationSpans :
    (withSpans P isWord).findEquationSpans = findEquationSpans isWord := by
  rw [withSpans]

@[simp] theorem withSpans_derivativeSpans :
    (withSpans P isWord).derivativeSpans = derivativeSpans := by
  rw [withSpans]

/-- The container is read from the evidence as before. -/
@[simp] theorem evidenceSubsection_withSpans :
    evidenceSubsection (withSpans P isWord) c = evidenceSubsection P c := by
  unfold evidenceSubsection parseReprString withSpans
  dsimp only

/-- What becomes of a span is a relocation of a stretch of it. -/
theorem equationRelocation_spec {content sid : String} {sub : Option String} {span : EquationSpan}
    {r : Relocation} (hspan : span ∈ findEquationSpans isWord content)
    (h : equationRelocation P s sid content sub span = some r) :
    SpanRelocation content r ∧ (r.highConfidence = true ∧ r.subsectionHeading = sub) ∧
      span.start ≤ (toEdit r).start ∧ (toEdit r).stop ≤ span.stop := by
  obtain ⟨hlt, hle, htext, hne⟩ := mem_findEquationSpans hspan
  have hdereference : SpanRelocation content (dereferenceSpan sid sub span) :=
    .dereference sid sub span hlt hle
  unfold equationRelocation at h
  dsimp only at h
  split at h
  · cases h
  · split at h
    · cases h
      exact ⟨hdereference, ⟨rfl, rfl⟩, le_rfl, le_rfl⟩
    · split at h
      · split at h
        next offset hfind =>
          split_ifs at h with hcore
          · cases h
            exact ⟨hdereference, ⟨rfl, rfl⟩, le_rfl, le_rfl⟩
          · cases h
            generalize (P.extractEquationCore span.text).getD "" = core at hfind hcore ⊢
            obtain ⟨hlen, htake⟩ := findChars_eq_some hfind
            rw [sliceText_toList] at hlen htake
            rw [List.length_take, List.length_drop, String.length_toList] at hlen
            have hpos : 0 < core.length := by
              rw [← String.length_toList]
              exact List.length_pos_iff.2 (by simpa using hcore)
            refine ⟨.extract sid sub _ _ core (by omega) (by omega) hcore ?_, ⟨rfl, rfl⟩, ?_, ?_⟩
            · rw [List.drop_take, List.take_take, List.drop_drop,
                min_eq_left (by rw [String.length_toList]; omega), String.length_toList] at htake
              rw [sliceText, show span.start + offset + core.length - (span.start + offset) =
                core.length by omega, htake, String.ofList_toList]
            · show span.start ≤ span.start + offset
              omega
            · show span.start + offset + core.length ≤ span.stop
              omega
        next =>
          cases h
          exact ⟨hdereference, ⟨rfl, rfl⟩, le_rfl, le_rfl⟩
      · cases h
        refine ⟨.extract sid sub _ _ span.text hlt hle hne ?_, ⟨rfl, rfl⟩, le_rfl, le_rfl⟩
        rw [htext, strip_strip]

/-- The first container of a section under a key. -/
def containerAt (s : Section) (key : Option String) : Option Container :=
  ((places s).find? fun p => p.1 = key).map Prod.snd

/-- The prose a check is about is that of the container it names. -/
theorem contentTargets_eq {key : Option String} (hkey : key ≠ some "") :
    contentTargets s key = [] ∨
      ∃ before, containerAt s key = some before ∧
        contentTargets s key = [(before.content.getD "", key)] := by
  unfold contentTargets
  cases key with
  | none =>
    dsimp only
    split_ifs
    · exact Or.inl rfl
    · exact Or.inr ⟨sectionContainer s, rfl, rfl⟩
  | some heading =>
    have hne : heading ≠ "" := fun h => hkey (by rw [h])
    have hfind : containerAt s (some heading) =
        ((subsectionList s).find? fun sub : Subsection => strip (sub.heading.getD "") = heading).map
          subsectionContainer := by
      have htest : ((fun p : Option String × Container => decide (p.1 = some heading)) ∘
          fun sub : Subsection => (subsectionKey sub, subsectionContainer sub)) =
            fun sub : Subsection => decide (strip (sub.heading.getD "") = heading) := by
        funext sub
        simp only [Function.comp_apply, subsectionKey_eq_some hne]
      unfold containerAt places
      rw [List.find?_cons_of_neg (by simp), List.find?_map, htest, Option.map_map]
      rfl
    dsimp only
    cases hsub : (subsectionList s).find? fun sub : Subsection =>
        strip (sub.heading.getD "") = heading with
    | none => exact Or.inl rfl
    | some sub =>
      rw [hsub] at hfind
      exact Or.inr ⟨subsectionContainer sub, hfind, rfl⟩

theorem firstSpans_sublist (seen : List (ℕ × ℕ)) (spans : List EquationSpan) :
    (firstSpans seen spans).Sublist spans := by
  induction spans generalizing seen with
  | nil => exact List.Sublist.refl _
  | cons span spans ih =>
    rw [firstSpans]
    split_ifs
    · exact (ih _).cons _
    · exact (ih _).cons_cons _

variable (P isWord s c) in
/-- The relocations planned for one text: those of its spans, then those of its derivatives. -/
theorem planEquationInContent_eq :
    planEquationInContent (withSpans P isWord) s c = [] ∨
      ∃ (before : Container) (spans derivatives : List EquationSpan),
        containerAt s (evidenceSubsection P c) = some before ∧
        spans.Sublist (findEquationSpans isWord (before.content.getD "")) ∧
        (∀ span ∈ derivatives, span ∈ derivativeSpans (before.content.getD "")) ∧
        planEquationInContent (withSpans P isWord) s c =
          spans.filterMap (equationRelocation (withSpans P isWord) s c.sectionText
            (before.content.getD "") (evidenceSubsection P c)) ++
          derivatives.map (dereferenceSpan c.sectionText (evidenceSubsection P c)) := by
  unfold planEquationInContent
  simp only [evidenceSubsection_withSpans, withSpans_findEquationSpans, withSpans_derivativeSpans]
  rcases @contentTargets_eq s _ (evidenceSubsection_ne (P := P) c) with
    hnil | ⟨before, hbefore, htargets⟩
  · rw [hnil]
    exact Or.inl rfl
  · rw [htargets, List.flatMap_singleton]
    dsimp only
    refine Or.inr ⟨before, firstSpans [] (findEquationSpans isWord (before.content.getD "")), _,
      hbefore, firstSpans_sublist _ _, fun span hspan => ?_, rfl⟩
    exact (List.mem_filter.1 ((firstSpans_sublist _ _).mem hspan)).1

variable (P isWord) in
theorem mem_planEquationInContent {before : Container} {r : Relocation}
    (hbefore : containerAt s (evidenceSubsection P c) = some before)
    (h : r ∈ planEquationInContent (withSpans P isWord) s c) :
    SpanRelocation (before.content.getD "") r ∧ r.highConfidence = true ∧
      r.subsectionHeading = evidenceSubsection P c := by
  rcases planEquationInContent_eq P isWord s c with
    hnil | ⟨before', spans, derivatives, hbefore', hspans, hderivatives, heq⟩
  · rw [hnil] at h
    cases h
  · rw [hbefore] at hbefore'
    cases hbefore'
    rw [heq, List.mem_append] at h
    rcases h with h | h
    · obtain ⟨span, hspan, hr⟩ := List.mem_filterMap.1 h
      obtain ⟨hrelocation, hhigh, -⟩ := equationRelocation_spec (hspans.mem hspan) hr
      exact ⟨hrelocation, hhigh⟩
    · obtain ⟨span, hspan, rfl⟩ := List.mem_map.1 h
      obtain ⟨hlt, hle, -⟩ := mem_derivativeSpans (hderivatives span hspan)
      exact ⟨.dereference _ _ span hlt hle, rfl, rfl⟩

variable (P isWord) in
/-- **Among the planned spans only a derivative lies before an earlier one.** -/
theorem planEquationInContent_order {before : Container}
    (hbefore : containerAt s (evidenceSubsection P c) = some before) :
    (planEquationInContent (withSpans P isWord) s c).Pairwise fun r r' =>
      (toEdit r).stop < (toEdit r').start ∨
        ((toEdit r').slice (before.content.getD "").toList).getLast? = some ')' := by
  rcases planEquationInContent_eq P isWord s c with
    hnil | ⟨before', spans, derivatives, hbefore', hspans, hderivatives, heq⟩
  · rw [hnil]
    exact List.Pairwise.nil
  · rw [hbefore] at hbefore'
    cases hbefore'
    have hbracket : ∀ r' ∈ derivatives.map
        (dereferenceSpan c.sectionText (evidenceSubsection P c)),
        ((toEdit r').slice (before.content.getD "").toList).getLast? = some ')' := by
      intro r' hr'
      obtain ⟨span, hspan, rfl⟩ := List.mem_map.1 hr'
      obtain ⟨-, -, -, hlast⟩ := mem_derivativeSpans (hderivatives span hspan)
      rw [sliceText_toList] at hlast
      exact hlast
    rw [heq, List.pairwise_append]
    refine ⟨?_, List.pairwise_of_forall_mem_list fun r _ r' hr' => Or.inr (hbracket r' hr'),
      fun r _ r' hr' => Or.inr (hbracket r' hr')⟩
    rw [List.pairwise_filterMap]
    refine (findEquationSpans_pairwise.sublist hspans).imp_of_mem
      fun {a b} ha hb hab r hr r' hr' => Or.inl ?_
    obtain ⟨-, -, -, hstop⟩ := equationRelocation_spec (hspans.mem ha) hr
    obtain ⟨-, -, hstart, -⟩ := equationRelocation_spec (hspans.mem hb) hr'
    omega

end Plan

/-! ## Relocations and edits -/

section Run

variable {P : Patterns}

theorem rstrip_toList (s : String) : (rstrip s).toList = s.toList.rdropWhile isSpace := by
  rw [rstrip, String.toList_ofList, List.rdropWhile]

theorem lstrip_toList (s : String) : (lstrip s).toList = s.toList.dropWhile isSpace := by
  rw [lstrip, String.toList_ofList]

theorem strip_toList (s : String) : (strip s).toList = TextEdits.strip isSpace s.toList := by
  rw [strip, String.toList_ofList, stripChars, TextEdits.strip, List.rdropWhile]

/-- An extraction that finds its span. -/
theorem containerStep_extract {sid : String} {sub : Option String} {start stop : ℕ}
    {text : String} {c : Container} (hne : text ≠ "")
    (htext : strip (sliceText (c.content.getD "") start stop) = strip text) :
    ((containerStep P c (extractSpan sid sub start stop text)).content.getD "").toList =
        (toEdit (extractSpan sid sub start stop text)).apply isSpace ' '
          (c.content.getD "").toList ∧
      (containerStep P c (extractSpan sid sub start stop text)).formulas =
        c.formulas ++ [extractedBlock P text] := by
  have happly : applyExtract P (extractSpan sid sub start stop text) c = some { c with
      content := some (strip (rstrip (sliceText (c.content.getD "") 0 start) ++ " " ++
        lstrip (String.ofList ((c.content.getD "").toList.drop stop))))
      formulaBlocks := some (c.formulas ++ [extractedBlock P text]) } := by
    unfold applyExtract extractSpan
    dsimp only
    rw [if_neg hne, if_neg (not_not.2 htext)]
  have hstep : containerStep P c (extractSpan sid sub start stop text) =
      (applyExtract P (extractSpan sid sub start stop text) c).getD c := rfl
  rw [hstep, happly]
  refine ⟨?_, rfl⟩
  show (strip (rstrip (sliceText (c.content.getD "") 0 start) ++ " " ++
        lstrip (String.ofList ((c.content.getD "").toList.drop stop)))).toList = _
  rw [strip_toList, String.toList_append, String.toList_append, rstrip_toList, lstrip_toList,
    String.toList_ofList, String.toList_ofList, sliceText_toList, List.drop_zero, Nat.sub_zero,
    List.append_assoc]
  rfl

theorem containerStep_dereference (sid : String) (sub : Option String) (span : EquationSpan)
    (c : Container) :
    ((containerStep P c (dereferenceSpan sid sub span)).content.getD "").toList =
        (toEdit (dereferenceSpan sid sub span)).apply isSpace ' ' (c.content.getD "").toList ∧
      (containerStep P c (dereferenceSpan sid sub span)).formulas = c.formulas := by
  have hstep : containerStep P c (dereferenceSpan sid sub span) = { c with
      content := some (sliceText (c.content.getD "") 0 span.start ++
        dereferenceReplacement span.text ++
          String.ofList ((c.content.getD "").toList.drop span.stop)) } := by
    unfold containerStep relocateIn dereferenceSpan
    dsimp only
    unfold applyDereference
    dsimp only
    rw [Option.getD_some]
  have hedit : (toEdit (dereferenceSpan sid sub span)).apply isSpace ' '
      (c.content.getD "").toList = (c.content.getD "").toList.take span.start ++
        (dereferenceReplacement span.text).toList ++
          (c.content.getD "").toList.drop span.stop := by
    simp only [Edit.apply, toEdit, dereferenceSpan, reduceCtorEq, if_false, Option.map_some,
      Option.getD_some]
  rw [hstep, hedit, Option.getD_some, String.toList_append, String.toList_append,
    sliceText_toList, String.toList_ofList, List.drop_zero, Nat.sub_zero]
  exact ⟨rfl, rfl⟩

/-- The spans that are to become formula blocks. -/
def extractions (rs : List Relocation) : List Relocation := rs.filter fun r => r.action = .extract

theorem extractions_cons (r : Relocation) (rs : List Relocation) :
    extractions (r :: rs) = extractions [r] ++ extractions rs := by
  rw [extractions, extractions, extractions, ← List.filter_append, List.singleton_append]

@[simp] theorem extractions_extract (sid : String) (sub : Option String) (start stop : ℕ)
    (text : String) : extractions [extractSpan sid sub start stop text] =
      [extractSpan sid sub start stop text] := by
  simp [extractions, extractSpan]

@[simp] theorem extractions_dereference (sid : String) (sub : Option String)
    (span : EquationSpan) : extractions [dereferenceSpan sid sub span] = [] := by
  simp [extractions, dereferenceSpan]

/-- One relocation that finds its span. -/
theorem SpanRelocation.step {c : Container} {r : Relocation}
    (h : SpanRelocation (c.content.getD "") r) :
    ((containerStep P c r).content.getD "").toList =
        (toEdit r).apply isSpace ' ' (c.content.getD "").toList ∧
      (containerStep P c r).formulas =
        c.formulas ++ (extractions [r]).map fun r => extractedBlock P (r.spanText.getD "") := by
  cases h with
  | extract sid sub start stop text hlt hle hne htext =>
    rw [extractions_extract, List.map_singleton]
    exact containerStep_extract hne htext
  | dereference sid sub span hlt hle =>
    rw [extractions_dereference, List.map_nil, List.append_nil]
    exact containerStep_dereference sid sub span c

/-- A relocation finds its span in a text with the same stretch. -/
theorem SpanRelocation.of_slice {content content' : String} {r : Relocation}
    (h : SpanRelocation content r) (hfits : (toEdit r).Fits content'.toList)
    (hslice : (toEdit r).slice content'.toList = (toEdit r).slice content.toList) :
    SpanRelocation content' r := by
  cases h with
  | extract sid sub start stop text hlt hle hne htext =>
    refine .extract sid sub start stop text hfits.1 hfits.2 hne ?_
    have hsame : sliceText content' start stop = sliceText content start stop :=
      congrArg String.ofList hslice
    rw [hsame, htext]
  | dereference sid sub span hlt hle => exact .dereference sid sub span hfits.1 hfits.2

/-- **Relocations that find their spans** make the edits of the plan, and each extraction
leaves a block. -/
theorem relocations_run {rs : List Relocation} {c : Container}
    (hspans : ∀ r ∈ rs, SpanRelocation (c.content.getD "") r)
    (hsteady : Steady isSpace (c.content.getD "").toList (rs.map toEdit)) :
    ((rs.foldl (containerStep P) c).content.getD "").toList =
        (rs.map toEdit).foldl (fun l e => e.apply isSpace ' ' l) (c.content.getD "").toList ∧
      (rs.foldl (containerStep P) c).formulas =
        c.formulas ++ (extractions rs).map fun r => extractedBlock P (r.spanText.getD "") := by
  induction rs generalizing c with
  | nil => exact ⟨rfl, (List.append_nil _).symm⟩
  | cons r rs ih =>
    obtain ⟨hcontent, hformulas⟩ := (hspans r List.mem_cons_self).step (P := P)
    have hblank : isSpace ' ' = true := by decide
    obtain ⟨hsteady', hslices, -⟩ := hsteady.step hblank
    rw [← hcontent] at hsteady' hslices
    have hspans' : ∀ q ∈ rs, SpanRelocation ((containerStep P c r).content.getD "") q := by
      intro q hq
      have hmem : toEdit q ∈ rs.map toEdit := List.mem_map_of_mem hq
      exact (hspans q (List.mem_cons_of_mem r hq)).of_slice (hsteady'.fits _ hmem)
        (hslices _ hmem)
    obtain ⟨hcontents, hblocks⟩ := ih hspans' hsteady'
    rw [List.foldl_cons, hcontents, hblocks, hformulas, hcontent, List.append_assoc,
      ← List.map_append, ← extractions_cons]
    exact ⟨rfl, rfl⟩

/-- Without its span an extraction leaves nothing. -/
theorem containerStep_blocks {content : String} {r : Relocation} (h : SpanRelocation content r)
    (c : Container) :
    ∃ applied : List Relocation, applied.Sublist (extractions [r]) ∧
      (containerStep P c r).formulas =
      c.formulas ++ applied.map fun r => extractedBlock P (r.spanText.getD "") := by
  cases h with
  | extract sid sub start stop text hlt hle hne htext =>
    by_cases hfound : strip (sliceText (c.content.getD "") start stop) = strip text
    · exact ⟨_, List.Sublist.refl _, (containerStep_extract hne hfound).2⟩
    · have hskip : containerStep P c (extractSpan sid sub start stop text) = c := by
        have hnone : applyExtract P (extractSpan sid sub start stop text) c = none := by
          unfold applyExtract extractSpan
          dsimp only
          rw [if_neg hne, if_pos hfound]
        show (applyExtract P (extractSpan sid sub start stop text) c).getD c = c
        rw [hnone, Option.getD_none]
      rw [hskip]
      exact ⟨[], List.nil_sublist _, (List.append_nil _).symm⟩
  | dereference sid sub span hlt hle =>
    rw [(containerStep_dereference sid sub span c).2]
    exact ⟨[], List.nil_sublist _, (List.append_nil _).symm⟩

/-- The blocks that relocations leave, found or not. -/
theorem relocations_blocks {content : String} {rs : List Relocation} {c : Container}
    (hspans : ∀ r ∈ rs, SpanRelocation content r) :
    ∃ applied : List Relocation, applied.Sublist (extractions rs) ∧
      (rs.foldl (containerStep P) c).formulas =
      c.formulas ++ applied.map fun r => extractedBlock P (r.spanText.getD "") := by
  induction rs generalizing c with
  | nil => exact ⟨[], List.Sublist.refl _, (List.append_nil _).symm⟩
  | cons r rs ih =>
    obtain ⟨first, hfirst, hformulas⟩ :=
      containerStep_blocks (P := P) (hspans r List.mem_cons_self) c
    obtain ⟨rest, hrest, hblocks⟩ := ih (c := containerStep P c r)
      fun q hq => hspans q (List.mem_cons_of_mem r hq)
    refine ⟨first ++ rest, ?_, ?_⟩
    · rw [extractions_cons]
      exact hfirst.append hrest
    · rw [List.foldl_cons, hblocks, hformulas, List.append_assoc, ← List.map_append]

end Run

/-! ## One container of a document -/

theorem lastSection_setLastSection {sections : List Section} {sid : String} {s s' : Section}
    (h : lastSection sections sid = some s) (hid : s'.idText = sid) :
    lastSection (setLastSection sections sid s') sid = some s' := by
  have hmodify : ∀ l : List Section, (l.find? fun t => t.idText = sid) = some s →
      ∃ l', modifyFirst (fun t : Section => t.idText = sid) (fun _ => some s') l = some l' ∧
        (l'.find? fun t => t.idText = sid) = some s' := by
    intro l
    induction l with
    | nil => intro hfind; cases hfind
    | cons t l ih =>
      intro hfind
      rw [modifyFirst_cons]
      by_cases ht : t.idText = sid
      · rw [if_pos (by simpa using ht), Option.map_some]
        exact ⟨_, rfl, List.find?_cons_of_pos (by simpa using hid)⟩
      · rw [List.find?_cons_of_neg (by simpa using ht)] at hfind
        obtain ⟨l', hl', hfind'⟩ := ih hfind
        rw [if_neg (by simpa using ht), hl']
        refine ⟨t :: l', rfl, ?_⟩
        rw [List.find?_cons_of_neg (by simpa using ht)]
        exact hfind'
  obtain ⟨l', hl', hfind'⟩ := hmodify sections.reverse h
  rw [setLastSection, hl', lastSection]
  dsimp only
  rw [List.reverse_reverse]
  exact hfind'

/-- **What relocations do to the container of a key.** -/
theorem containerAt_foldl {P : Patterns} {rs : List Relocation} {s : Section}
    {key : Option String} {before : Container} (hrs : ∀ r ∈ rs, r.subsectionHeading ≠ some "")
    (h : containerAt s key = some before) :
    containerAt (rs.foldl (relocate P) s) key =
      some ((relocationsOf key rs).foldl (containerStep P) before) := by
  obtain ⟨q, hq, rfl⟩ := Option.map_eq_some_iff.1 h
  obtain ⟨hkey, l, m, hplaces, hbefore⟩ := List.find?_eq_some_iff_append.1 hq
  obtain ⟨key', before⟩ := q
  have hkey' : key' = key := by simpa using hkey
  subst hkey'
  have hfirst : key' ∉ l.map Prod.fst := by
    intro hmem
    obtain ⟨p, hp, hpkey⟩ := List.mem_map.1 hmem
    have := hbefore p hp
    rw [hpkey] at this
    simp at this
  obtain ⟨l', m', hfold, hkeys⟩ := @foldl_relocate_place P rs l m key' before hfirst
  have hfind : ((l' ++ (key', (relocationsOf key' rs).foldl (containerStep P) before) :: m').find?
      fun p => p.1 = key') =
      some (key', (relocationsOf key' rs).foldl (containerStep P) before) := by
    rw [List.find?_append, List.find?_eq_none.2, Option.none_or, List.find?_cons_of_pos (by simp)]
    intro p hp hpkey
    refine hfirst (hkeys ▸ List.mem_map.2 ⟨p, hp, ?_⟩)
    simpa using hpkey
  rw [containerAt, foldl_relocate_places hrs, hplaces, hfold, hfind, Option.map_some]

section Claim

variable (P : Patterns) (d : Document) (c : Check)

/-- The container a check names, once the plans of the check are applied. -/
def containerAfter : Option Container :=
  (lastSection (applyRelocationPlans P d (buildRelocationPlans P d [c])).1.sections
    c.sectionText).bind fun s => containerAt s (evidenceSubsection P c)

/-- The prose lost the planned spans and nothing else, spaces apart; every span to extract has
become the formula of a new block, and every span that was replaced is in a formula block. -/
structure RelocatedAsPlanned (s : Section) (rs : List Relocation) (before after : Container) :
    Prop where
  prose : words isSpace (after.content.getD "").toList =
    words isSpace (planned ' ' (rs.map toEdit) 0 (before.content.getD "").toList)
  blocks : ∃ added, after.formulas = before.formulas ++ added ∧
    added.map FormulaBlock.formula =
      (extractions rs).map fun r => some (strip (r.spanText.getD ""))
  dereferenced : ∀ r ∈ rs, r.action = .dereference →
    spanInFormulaBlocks P (r.spanText.getD "") s = true

/-- The equations a check plans to relocate are relocated as planned. -/
def EquationsRelocated (s : Section) (before : Container) : Prop :=
  ∃ after, containerAfter P d c = some after ∧
    RelocatedAsPlanned P s (planEquationInContent P s c) before after

/-- No relocation moves the span of a later one: the later span lies before it, or behind a
replacement of the same length. -/
def OffsetsKeep (content : String) (rs : List Relocation) : Prop :=
  rs.Pairwise fun r r' =>
    ((toEdit r').stop ≤ (toEdit r).start ∧
      (r.action = .extract → ∀ c ∈ content.toList.head?, isSpace c = false)) ∨
    ((toEdit r).stop ≤ (toEdit r').start ∧
      ∃ put, (toEdit r).put = some put ∧ put.length = (toEdit r).stop - (toEdit r).start)

/-- Spans to extract are equations as they stand, and spans to replace are in the blocks. -/
def SpansInBlocks (s : Section) (rs : List Relocation) : Prop :=
  (∀ r ∈ extractions rs, equationTextForFormulaBlock P (strip (r.spanText.getD "")) =
    strip (r.spanText.getD "")) ∧
  ∀ r ∈ rs, r.action = .dereference → spanInFormulaBlocks P (r.spanText.getD "") s = true

end Claim

section Exact

variable {P : Patterns} {isWord : Char → Bool} {d : Document} {c : Check} {s : Section}
  {before : Container}

theorem buildRelocationPlans_equations (hid : c.idText = "det_equation_in_content")
    (hne : c.sectionText ≠ "") (hs : lastSection d.sections c.sectionText = some s) :
    buildRelocationPlans P d [c] =
      if planEquationInContent P s c = [] then []
      else [{ checkId := c.idText, sectionId := c.sectionText,
              relocations := planEquationInContent P s c }] := by
  have hfor : relocationsFor P s c = planEquationInContent P s c := by
    rw [relocationsFor, if_pos hid]
  have hplan : relocationPlan P d c =
      if planEquationInContent P s c = [] then none
      else some { checkId := c.idText, sectionId := c.sectionText,
                  relocations := planEquationInContent P s c } := by
    rw [relocationPlan, if_neg (not_or.2 ⟨not_not.2 (by rw [hid]; decide), hne⟩), hs]
    dsimp only
    rw [hfor]
  rw [buildRelocationPlans, List.filterMap_cons, hplan]
  split_ifs
  · rfl
  · rfl

theorem applyRelocationPlans_sections (plans : List RelocationPlan) :
    (applyRelocationPlans P d plans).1.sections =
      (plans.foldl (remediationStep P) { sections := d.sections }).sections := by
  rw [applyRelocationPlans]

/-- **The container of an equation check undergoes the relocations of its plan.** -/
theorem containerAfter_eq (hid : c.idText = "det_equation_in_content") (hne : c.sectionText ≠ "")
    (hs : lastSection d.sections c.sectionText = some s)
    (hbefore : containerAt s (evidenceSubsection P c) = some before) :
    containerAfter (withSpans P isWord) d c =
      some ((planEquationInContent (withSpans P isWord) s c).foldl
        (containerStep (withSpans P isWord)) before) := by
  have hplanned := fun r => mem_planEquationInContent P isWord (r := r) hbefore
  rw [containerAfter, buildRelocationPlans_equations hid hne hs, evidenceSubsection_withSpans]
  generalize planEquationInContent (withSpans P isWord) s c = rs at hplanned
  split_ifs with hrs
  · have hsame : (applyRelocationPlans (withSpans P isWord) d []).1.sections = d.sections := rfl
    rw [hsame, hs, hrs]
    exact hbefore
  · have hkeys : ∀ r ∈ rs, r.subsectionHeading ≠ some "" := fun r hr => by
      rw [(hplanned r hr).2.2]
      exact evidenceSubsection_ne c
    have hall : relocationsOf (evidenceSubsection P c) rs = rs := by
      refine List.filter_eq_self.2 fun r hr => ?_
      obtain ⟨-, hhigh, hkey⟩ := hplanned r hr
      rw [hhigh, hkey, Bool.true_and]
      exact decide_eq_true rfl
    have hsections : (applyRelocationPlans (withSpans P isWord) d
        [{ checkId := c.idText, sectionId := c.sectionText, relocations := rs }]).1.sections =
          setLastSection d.sections c.sectionText (rs.foldl (relocate (withSpans P isWord)) s) := by
      rw [applyRelocationPlans_sections, List.foldl_cons, List.foldl_nil]
      unfold remediationStep
      dsimp only
      rw [if_neg hne, hs]
      dsimp only
      rw [runPlan, foldl_planStep_section]
    have hlast := lastSection_setLastSection hs
      ((foldl_relocate_idText (P := withSpans P isWord) rs s).trans (lastSection_eq_some hs).2)
    rw [hsections, hlast, Option.bind_some]
    have hcontainer := containerAt_foldl (P := withSpans P isWord) hkeys hbefore
    rw [hall] at hcontainer
    exact hcontainer

/-- Planned relocations none of which moves the span of a later one are steady edits. -/
theorem steady_of_offsetsKeep
    (hbefore : containerAt s (evidenceSubsection P c) = some before)
    (h : OffsetsKeep (before.content.getD "") (planEquationInContent (withSpans P isWord) s c)) :
    Steady isSpace (before.content.getD "").toList
      ((planEquationInContent (withSpans P isWord) s c).map toEdit) := by
  have horder := planEquationInContent_order P isWord hbefore
  have hplanned := fun r => mem_planEquationInContent P isWord (r := r) hbefore
  generalize planEquationInContent (withSpans P isWord) s c = rs at h horder hplanned
  refine ⟨fun e he => ?_, fun e he put hput => ?_, ?_⟩
  · obtain ⟨r, hr, rfl⟩ := List.mem_map.1 he
    exact (hplanned r hr).1.fits
  · obtain ⟨r, hr, rfl⟩ := List.mem_map.1 he
    exact (hplanned r hr).1.head hput
  · rw [List.pairwise_map]
    refine (h.and horder).imp_of_mem fun {r r'} hr hr' ⟨hkeep, hlies⟩ => ?_
    refine hkeep.imp_left fun ⟨hstop, hextract⟩ => ⟨hstop, fun hput => ?_⟩
    have hfits := (hplanned r hr).1.fits
    have hfits' := (hplanned r' hr').1.fits
    refine ⟨hextract ?_, fun ch hch => ?_⟩
    · have hr := (hplanned r hr).1
      generalize before.content.getD "" = content at hr
      cases hr with
      | extract sid sub start stop text hlt hle hne htext => rfl
      | dereference sid sub span hlt hle => exact absurd hput (by simp [toEdit, dereferenceSpan])
    · rcases hlies with hlt | hlast
      · have := hfits.1
        have := hfits'.1
        omega
      · rw [hlast] at hch
        cases hch
        decide

/-- Blocks of the planned spans only come from extractions that are all made. -/
theorem spansInBlocks_of_relocated (hid : c.idText = "det_equation_in_content")
    (hne : c.sectionText ≠ "") (hs : lastSection d.sections c.sectionText = some s)
    (hbefore : containerAt s (evidenceSubsection P c) = some before)
    (h : EquationsRelocated (withSpans P isWord) d c s before) :
    SpansInBlocks (withSpans P isWord) s (planEquationInContent (withSpans P isWord) s c) := by
  obtain ⟨after, hafter, hrelocated⟩ := h
  rw [containerAfter_eq hid hne hs hbefore] at hafter
  cases hafter
  refine ⟨fun r hr => ?_, hrelocated.dereferenced⟩
  obtain ⟨added, hadded, htexts⟩ := hrelocated.blocks
  obtain ⟨applied, hsub, hblocks⟩ := relocations_blocks (P := withSpans P isWord) (c := before)
    fun r hr => (mem_planEquationInContent P isWord hbefore hr).1
  rw [hadded] at hblocks
  have hsame := List.append_cancel_left hblocks
  subst hsame
  have hall : applied = extractions (planEquationInContent (withSpans P isWord) s c) := by
    refine hsub.eq_of_length ?_
    have hlen := congrArg List.length htexts
    rwa [List.length_map, List.length_map, List.length_map] at hlen
  subst hall
  rw [List.map_map] at htexts
  exact Option.some.inj (List.map_inj_left.1 htexts r hr)

/-- **While no relocation moves the span of a later one, equations are relocated as planned**
exactly when the planned spans are, or become, formulas as they stand. -/
theorem equations_relocated (hid : c.idText = "det_equation_in_content") (hne : c.sectionText ≠ "")
    (hs : lastSection d.sections c.sectionText = some s)
    (hbefore : containerAt s (evidenceSubsection P c) = some before) :
    (EquationsRelocated (withSpans P isWord) d c s before →
      SpansInBlocks (withSpans P isWord) s (planEquationInContent (withSpans P isWord) s c)) ∧
    (OffsetsKeep (before.content.getD "") (planEquationInContent (withSpans P isWord) s c) →
      SpansInBlocks (withSpans P isWord) s (planEquationInContent (withSpans P isWord) s c) →
      EquationsRelocated (withSpans P isWord) d c s before) := by
  refine ⟨spansInBlocks_of_relocated hid hne hs hbefore, fun hkeep hblocks => ?_⟩
  have hsteady := steady_of_offsetsKeep hbefore hkeep
  obtain ⟨hcontent, hformulas⟩ := relocations_run (P := withSpans P isWord)
    (fun r hr => (mem_planEquationInContent P isWord hbefore hr).1) hsteady
  refine ⟨_, containerAfter_eq hid hne hs hbefore, ⟨?_, ⟨_, hformulas, ?_⟩, hblocks.2⟩⟩
  · rw [hcontent]
    exact words_foldl_apply hsteady (by decide)
  · rw [List.map_map]
    refine List.map_congr_left fun r hr => ?_
    exact congrArg some (hblocks.1 r hr)

end Exact

/-! ## Two sections -/

def asciiWord (c : Char) : Bool := c.isAlphanum || c = '_'

/-- The recognisers on short equations without prose around them. -/
def shortEquations : Patterns where
  findEquationSpans _ := []
  derivativeSpans _ := []
  isNarrativeEquationClause _ := false
  extractEquationCore _ := none
  normalizeMath text := String.ofList ((lower (strip text)).toList.filter fun c => !isSpace c)
  looksLikeProgrammingCode _ := false
  looksLikePseudocode _ := false
  checklistRequiresFormulaWork _ _ := false
  repr text := "'" ++ text ++ "'"
  literalEval text := some (String.ofList text.toList.tail.dropLast)

def proseSection (content : String) (formulas : List String) : Section where
  id := some (.str "s1")
  heading := some "Lines"
  content := some content
  formulaBlocks := some (formulas.map fun f => { mathNotation := some "LaTeX", formula := some f })

def equationFailure : Check where
  id := some (.str "det_equation_in_content")
  sectionId := some (.str "s1")

/-- The first of two equations stands in a block, and is as long as what replaces it. -/
def twoEquations : Section :=
  proseSection "length=width+3. Recall this. x=1. Go on." ["length=width+3"]

/-- The first equation is replaced, and the one behind it is moved to a formula block. -/
theorem two_equations_relocated :
    EquationsRelocated (withSpans shortEquations asciiWord) { sections := [twoEquations] }
      equationFailure twoEquations (sectionContainer twoEquations) := by
  have hplan : planEquationInContent (withSpans shortEquations asciiWord) twoEquations
      equationFailure =
        [dereferenceSpan "s1" none ⟨0, 14, "length=width+3", true⟩,
          extractSpan "s1" none 28 32 "x=1"] := by decide +kernel
  refine (equations_relocated (by decide) (by decide) (by decide +kernel)
    (by decide +kernel)).2 ?_ ?_
  · rw [hplan]
    exact List.pairwise_pair.2 (Or.inr ⟨by decide, _, rfl, by decide +kernel⟩)
  · rw [hplan]
    refine ⟨fun r hr => ?_, fun r hr haction => ?_⟩
    · obtain rfl := List.mem_singleton.1 hr
      decide +kernel
    · rcases List.mem_pair.1 hr with rfl | rfl
      · decide +kernel
      · cases haction

/-- The second of two equations is replaced where it no longer is. -/
theorem second_equation_missed :
    ¬ EquationsRelocated (withSpans shortEquations asciiWord)
      { sections := [proseSection "x=1. y=2. Keep this." ["x=1", "y=2"]] } equationFailure
      (proseSection "x=1. y=2. Keep this." ["x=1", "y=2"])
      (sectionContainer (proseSection "x=1. y=2. Keep this." ["x=1", "y=2"])) := by
  rintro ⟨after, hafter, hrelocated⟩
  have hcontent : (containerAfter (withSpans shortEquations asciiWord)
      { sections := [proseSection "x=1. y=2. Keep this." ["x=1", "y=2"]] } equationFailure).map
        (fun c => c.content.getD "") = some "the the expressionession. y=2. Keep this." := by
    decide +kernel
  rw [hafter, Option.map_some, Option.some.injEq] at hcontent
  have hprose := hrelocated.prose
  rw [hcontent] at hprose
  revert hprose
  decide +kernel

end StudyAgent.Placement
