import StudyAgent.Base.Dedup
import StudyAgent.Base.OrderedDict
import StudyAgent.Base.PyRepr
import StudyAgent.Qc.FailureClass

/-!
# Merging section patches

After a retry the generator's sections replace those of the document by id.  When
the failures name subsections, the other subsections are put back from the document
as it was.  Which subsections are named is read from the failures' evidence, and
headings are compared in lower case, by a table that is a parameter here.

Main results:

* `getElem_mergeSectionPatches` — **a patch replaces the last section with its id, and the
  last patch of an id counts.**
* `getElem_mergeSectionPatchesScoped` — the scoped merge treats the sections one by one.
-/

namespace StudyAgent.Merge

open Py Dedup

/-! ## Whole sections -/

/-- `_section_id`. -/
def sectionId (s : Section) : String := s.givenId.getD ""

/-- `index_by_id`. -/
def indexById (sections : List Section) : AList (fun _ : String => ℕ) :=
  lastIndices sectionId (sections.zipIdx.filter fun p => sectionId p.1 ≠ "")

structure MergePatchesResult where
  document : Document
  unmatchedPatchIds : List String := []
  deriving DecidableEq

/-- One patch: the sections so far, and the ids that no section has. -/
def patchStep (index : AList (fun _ : String => ℕ)) (p : List Section × List String)
    (patch : Section) : List Section × List String :=
  if sectionId patch = "" then p
  else
    match index.lookup (sectionId patch) with
    | some i => (p.1.set i patch, p.2)
    | none => (p.1, p.2 ++ [sectionId patch])

/-- `merge_section_patches`. -/
def mergeSectionPatches (document : Document) (patches : List Section) : MergePatchesResult :=
  let done := patches.foldl (patchStep (indexById document.sections)) (document.sections, [])
  { document := { document with sections := done.1 }
    unmatchedPatchIds := done.2 }

/-! ## Headings in the evidence -/

/-- `c` matches the small letter `p` of a pattern under `re.IGNORECASE`. -/
def matchesLetter (p c : Char) : Bool :=
  c = p || c = p.toUpper || (p = 's' && c = '\u017F') ||
    (p = 'i' && (c = '\u0130' || c = '\u0131'))

/-- Match a word letter by letter; the rest of the text. -/
def matchWord : List Char → List Char → Option (List Char)
  | [], l => some l
  | _ :: _, [] => none
  | p :: ps, c :: l => if matchesLetter p c then matchWord ps l else none

/-- Text between two quotes, with what follows it. -/
def matchQuoted : List Char → Option (List Char × List Char)
  | [] => none
  | q :: l =>
    let group := l.takeWhile fun c => ¬ IsQuote c
    match l.dropWhile fun c => ¬ IsQuote c with
    | [] => none
    | _ :: rest => if IsQuote q ∧ group ≠ [] then some (group, rest) else none

/-- `_SUBSECTION_EVIDENCE_PATTERN` at the beginning of a text. -/
def matchSubsectionQuote (l : List Char) : Option (List Char × List Char) :=
  match matchWord ['s', 'u', 'b', 's', 'e', 'c', 't', 'i', 'o', 'n'] l with
  | none => none
  | some rest =>
    if (rest.head?.map isSpace).getD false then matchQuoted (rest.dropWhile isSpace) else none

/-- `finditer`: the groups of the matches from left to right, the next one looked for
behind the last; `skip` characters belong to the last match. -/
def quotedGroups : ℕ → List Char → List (List Char)
  | _, [] => []
  | skip + 1, _ :: l => quotedGroups skip l
  | 0, c :: l =>
    match matchSubsectionQuote (c :: l) with
    | some (group, rest) => group :: quotedGroups (l.length - rest.length) l
    | none => quotedGroups 0 l

/-- `subsection_headings_from_evidence`. -/
def subsectionHeadingsFromEvidence (evidence : String) : List String :=
  ((quotedGroups 0 evidence.toList).map fun group => strip (String.ofList group)).filter (· ≠ "")

/-- The headings that the evidence of some failures names. -/
def headingsOfFailures (failures : List FailureRecord) : List String :=
  failures.flatMap fun r => subsectionHeadingsFromEvidence r.evidence

/-- The subsections to keep from the patch, by section id. -/
abbrev SubsectionTargets := List (String × List String)

/-- One bundle of `subsection_targets_from_failures`. -/
def addTargets (targets : SubsectionTargets) (bundle : SectionFailures) : SubsectionTargets :=
  let headings := headingsOfFailures bundle.failures
  if strip bundle.sectionId = "" ∨ headings = [] then targets
  else OrderedDict.insert (strip bundle.sectionId) (collect id (fun _ => true) [] headings) targets

/-- `subsection_targets_from_failures`. -/
def subsectionTargetsFromFailures (sectionFailures : List SectionFailures) : SubsectionTargets :=
  sectionFailures.foldl addTargets []

/-- `_all_failures_subsection_localized`. -/
def allFailuresSubsectionLocalized (failures : List FailureRecord) : Bool :=
  failures ≠ [] && failures.all fun r => subsectionHeadingsFromEvidence r.evidence ≠ []

/-- `failures_by_section_id`, looked up. -/
def failuresOf (sectionFailures : List SectionFailures) (sid : String) : List FailureRecord :=
  ((sectionFailures.reverse.find? fun b => strip b.sectionId = sid ∧ sid ≠ "").map
    SectionFailures.failures).getD []

/-! ## Putting subsections back -/

/-- `str(subsection.get("heading", "")).strip()`. -/
def headingText (sub : Subsection) : String := strip (sub.heading.getD "")

/-- Whether a subsection has a heading to be found by. -/
def headed (sub : Subsection) : Bool := headingText sub ≠ ""

/-- `_subsections_by_heading`. -/
def subsectionsByHeading (subs : List Subsection) : List (String × Subsection) :=
  OrderedDict.ofList headingText (subs.filter headed)

section Scoped

variable (lowerText : String → String)

/-- `heading.lower() in target_lower`. -/
def isTarget (targets : List String) (heading : String) : Bool :=
  lowerText heading ∈ targets.map lowerText

/-- The subsections of the original, in order, those that are targets from the patch. -/
def restoreOriginals (targets : List String) (originals patched : List Subsection) :
    List Subsection :=
  (originals.filter headed).map fun sub =>
    if isTarget lowerText targets (headingText sub) then
      (OrderedDict.get (subsectionsByHeading patched) (headingText sub)).getD sub
    else sub

/-- The subsections of the patch that are targets and new. -/
def addedSubsections (targets : List String) (originals patched : List Subsection) :
    List Subsection :=
  ((subsectionsByHeading patched).filter fun p =>
    lowerText p.1 ∉ (originals.filter headed).map (fun sub => lowerText (headingText sub)) &&
      isTarget lowerText targets p.1).map Prod.snd

/-- `restored`. -/
def restored (targets : List String) (originals patched : List Subsection) : List Subsection :=
  restoreOriginals lowerText targets originals patched ++
    addedSubsections lowerText targets originals patched

/-- `_restore_untargeted_subsections`. -/
def restoreUntargetedSubsections (merged original : Section) (targets : List String) : Section :=
  if original.subsections.getD [] = [] then merged
  else
    { merged with
      subsections := some (restored lowerText targets (original.subsections.getD [])
        (merged.subsections.getD [])) }

/-- `_restore_section_level_block_fields`. -/
def restoreSectionLevelBlockFields (merged original : Section) : Section :=
  { merged with
    content := if original.content.isSome then original.content else merged.content
    formulaBlocks :=
      if original.formulaBlocks.isSome then original.formulaBlocks else merged.formulaBlocks
    codeBlocks := if original.codeBlocks.isSome then original.codeBlocks else merged.codeBlocks }

/-- `original_by_id`, looked up: the last section with that id. -/
def originalById (document : Document) (sid : String) : Option Section :=
  if sid = "" then none else document.sections.reverse.find? fun s => sectionId s = sid

/-- What the scoped merge does to one section of the merged document. -/
def scopeSection (document : Document) (sectionFailures : List SectionFailures)
    (targets : SubsectionTargets) (s : Section) : Section :=
  match (OrderedDict.get targets (sectionId s)).getD [], originalById document (sectionId s) with
  | [], _ => s
  | _ :: _, none => s
  | h :: hs, some original =>
    let kept := restoreUntargetedSubsections lowerText s original (h :: hs)
    if allFailuresSubsectionLocalized (failuresOf sectionFailures (sectionId s)) then
      restoreSectionLevelBlockFields kept original
    else kept

/-- The targets given, or else those the failures name. -/
def effectiveTargets (sectionFailures : List SectionFailures)
    (subsectionTargets : SubsectionTargets) : SubsectionTargets :=
  if subsectionTargets ≠ [] then subsectionTargets
  else subsectionTargetsFromFailures sectionFailures

/-- `merge_section_patches_scoped`. -/
def mergeSectionPatchesScoped (document : Document) (patches : List Section)
    (sectionFailures : List SectionFailures) (subsectionTargets : SubsectionTargets) :
    MergePatchesResult :=
  let targets := effectiveTargets sectionFailures subsectionTargets
  let result := mergeSectionPatches document patches
  if targets = [] then result
  else
    { result with
      document := { result.document with
        sections := result.document.sections.map
          (scopeSection lowerText document sectionFailures targets) } }

end Scoped

/-! ## Whole sections, by index -/

/-- The last section with an id, with its index. -/
def lastIndexed (sections : List Section) (sid : String) : Option (Section × ℕ) :=
  sections.zipIdx.reverse.find? fun p => sectionId p.1 = sid

/-- The patch that counts for an id. -/
def lastPatch (patches : List Section) (sid : String) : Option Section :=
  patches.reverse.find? fun p => sectionId p = sid

theorem lookup_indexById (sections : List Section) (sid : String) :
    (indexById sections).lookup sid =
      if sid = "" then none else (lastIndexed sections sid).map Prod.snd := by
  unfold indexById lastIndexed
  rw [lookup_lastIndices, ← List.filter_reverse, List.find?_filter]
  by_cases hsid : sid = ""
  · rw [if_pos hsid, Option.map_eq_none_iff, List.find?_eq_none]
    intro p _
    simp [hsid]
  · rw [if_neg hsid]
    congr 2
    funext p
    by_cases hp : sectionId p.1 = sid <;> simp [hp, hsid]

theorem originalById_eq (document : Document) (sid : String) :
    originalById document sid =
      if sid = "" then none else (lastIndexed document.sections sid).map Prod.fst := by
  unfold originalById lastIndexed
  by_cases hsid : sid = ""
  · rw [if_pos hsid, if_pos hsid]
  · rw [if_neg hsid, if_neg hsid]
    have hmap : document.sections.reverse = document.sections.zipIdx.reverse.map Prod.fst := by
      rw [List.map_reverse, List.zipIdx_map_fst]
    rw [hmap, List.find?_map]
    rfl

theorem lastIndexed_eq_some {sections : List Section} {sid : String} {s : Section} {k : ℕ}
    (h : lastIndexed sections sid = some (s, k)) : sections[k]? = some s ∧ sectionId s = sid := by
  have hmem := List.mem_reverse.1 (List.mem_of_find?_eq_some h)
  exact ⟨List.mem_zipIdx_iff_getElem?.1 hmem, by simpa using List.find?_some h⟩

theorem length_foldl_patchStep (index : AList (fun _ : String => ℕ)) (patches : List Section)
    (done : List Section × List String) :
    (patches.foldl (patchStep index) done).1.length = done.1.length := by
  induction patches generalizing done with
  | nil => rfl
  | cons p patches ih =>
    rw [List.foldl_cons, ih]
    unfold patchStep
    split_ifs
    · rfl
    · cases index.lookup (sectionId p) with
      | none => rfl
      | some i => exact List.length_set

/-- What stands at an index: the last patch that was applied there. -/
theorem foldl_patchStep (index : AList (fun _ : String => ℕ)) (patches sections : List Section)
    (unmatched : List String) (k : ℕ) :
    (patches.foldl (patchStep index) (sections, unmatched)).1[k]? = sections[k]?.map fun s =>
      (patches.reverse.find? fun p =>
        sectionId p ≠ "" ∧ index.lookup (sectionId p) = some k).getD s := by
  induction patches using List.reverseRecOn with
  | nil => simp
  | append_singleton patches p ih =>
    rw [List.foldl_append, List.foldl_cons, List.foldl_nil, List.reverse_append,
      List.reverse_singleton, List.singleton_append, List.find?_cons]
    have hlength := length_foldl_patchStep index patches (sections, unmatched)
    unfold patchStep at hlength ⊢
    by_cases hid : sectionId p = ""
    · simp only [hid, if_pos, ne_eq, not_true, false_and, decide_false]
      exact ih
    · rw [if_neg hid]
      cases hlookup : index.lookup (sectionId p) with
      | none =>
        simp only [reduceCtorEq, and_false, decide_false]
        exact ih
      | some i =>
        dsimp only
        rw [List.getElem?_set]
        by_cases hk : i = k
        · subst hk
          rw [if_pos rfl]
          simp only [hid, ne_eq, not_false_eq_true, and_self, decide_true, Option.getD_some]
          rw [hlength]
          by_cases hi : i < sections.length
          · rw [if_pos hi, List.getElem?_eq_getElem hi]
            rfl
          · rw [if_neg hi, List.getElem?_eq_none (by omega)]
            rfl
        · rw [if_neg hk]
          simp only [Option.some.injEq, hk, and_false, decide_false]
          exact ih

/-- **A patch replaces the last section with its id, and the last patch of an id counts.** -/
theorem getElem_mergeSectionPatches (document : Document) (patches : List Section) (k : ℕ) :
    (mergeSectionPatches document patches).document.sections[k]? =
      document.sections[k]?.map fun s =>
        if sectionId s ≠ "" ∧ lastIndexed document.sections (sectionId s) = some (s, k) then
          (lastPatch patches (sectionId s)).getD s
        else s := by
  unfold mergeSectionPatches
  dsimp only
  rw [foldl_patchStep]
  cases hs : document.sections[k]? with
  | none => rfl
  | some s =>
    rw [Option.map_some, Option.map_some]
    congr 1
    by_cases hlast : sectionId s ≠ "" ∧ lastIndexed document.sections (sectionId s) = some (s, k)
    · rw [if_pos hlast]
      unfold lastPatch
      congr 2
      funext p
      rw [decide_eq_decide, lookup_indexById]
      constructor
      · rintro ⟨hid, hlookup⟩
        rw [if_neg hid, Option.map_eq_some_iff] at hlookup
        obtain ⟨⟨t, i⟩, hfind, rfl⟩ := hlookup
        obtain ⟨hget, hsid⟩ := lastIndexed_eq_some hfind
        rw [hs] at hget
        rw [← hsid, Option.some.inj hget]
      · intro hid
        rw [hid, if_neg hlast.1, hlast.2]
        exact ⟨hlast.1, rfl⟩
    · rw [if_neg hlast, List.find?_eq_none.2]
      · rfl
      · intro p _ hp
        obtain ⟨hid, hlookup⟩ := of_decide_eq_true hp
        rw [lookup_indexById, if_neg hid, Option.map_eq_some_iff] at hlookup
        obtain ⟨⟨t, i⟩, hfind, rfl⟩ := hlookup
        obtain ⟨hget, hsid⟩ := lastIndexed_eq_some hfind
        rw [hs] at hget
        obtain rfl := Option.some.inj hget
        rw [← hsid] at hid hfind
        exact hlast ⟨hid, hfind⟩

theorem sectionId_lastPatch {patches : List Section} {sid : String} {p : Section}
    (h : lastPatch patches sid = some p) : sectionId p = sid := by
  simpa using List.find?_some h

theorem originalById_isSome {document : Document} {s : Section} (hs : s ∈ document.sections)
    (hsid : sectionId s ≠ "") : ∃ o, originalById document (sectionId s) = some o := by
  unfold originalById
  rw [if_neg hsid, ← Option.isSome_iff_exists, List.find?_isSome]
  exact ⟨s, List.mem_reverse.2 hs, by simp⟩

/-! ## The scoped merge, by index -/

/-- The targets of a section. -/
def targetsOf (sectionFailures : List SectionFailures) (subsectionTargets : SubsectionTargets)
    (sid : String) : List String :=
  (OrderedDict.get (effectiveTargets sectionFailures subsectionTargets) sid).getD []

section Scoped

variable (lowerText : String → String)

theorem scopeSection_of_no_targets {document : Document} {sectionFailures : List SectionFailures}
    {targets : SubsectionTargets} {s : Section}
    (h : (OrderedDict.get targets (sectionId s)).getD [] = []) :
    scopeSection lowerText document sectionFailures targets s = s := by
  unfold scopeSection
  rw [h]

theorem scopeSection_of_no_original {document : Document}
    {sectionFailures : List SectionFailures} {targets : SubsectionTargets} {s : Section}
    (h : originalById document (sectionId s) = none) :
    scopeSection lowerText document sectionFailures targets s = s := by
  unfold scopeSection
  rw [h]
  cases (OrderedDict.get targets (sectionId s)).getD [] <;> rfl

theorem scopeSection_of_original {document : Document} {sectionFailures : List SectionFailures}
    {targets : SubsectionTargets} {s o : Section} {T : List String}
    (hT : (OrderedDict.get targets (sectionId s)).getD [] = T) (hne : T ≠ [])
    (ho : originalById document (sectionId s) = some o) :
    scopeSection lowerText document sectionFailures targets s =
      if allFailuresSubsectionLocalized (failuresOf sectionFailures (sectionId s)) then
        restoreSectionLevelBlockFields (restoreUntargetedSubsections lowerText s o T) o
      else restoreUntargetedSubsections lowerText s o T := by
  obtain ⟨h, hs, rfl⟩ := List.exists_cons_of_ne_nil hne
  unfold scopeSection
  rw [hT, ho]

theorem sectionId_scopeSection (document : Document) (sectionFailures : List SectionFailures)
    (targets : SubsectionTargets) (s : Section) :
    sectionId (scopeSection lowerText document sectionFailures targets s) = sectionId s := by
  have hrestore : ∀ o T, sectionId (restoreUntargetedSubsections lowerText s o T) =
      sectionId s := by
    intro o T
    unfold restoreUntargetedSubsections
    split_ifs <;> rfl
  by_cases hT : (OrderedDict.get targets (sectionId s)).getD [] = []
  · rw [scopeSection_of_no_targets lowerText hT]
  · cases ho : originalById document (sectionId s) with
    | none => rw [scopeSection_of_no_original lowerText ho]
    | some o =>
      rw [scopeSection_of_original lowerText rfl hT ho]
      split_ifs
      · exact hrestore o _
      · exact hrestore o _

/-- **The scoped merge treats the sections of the plain merge one by one.** -/
theorem getElem_mergeSectionPatchesScoped (document : Document) (patches : List Section)
    (sectionFailures : List SectionFailures) (subsectionTargets : SubsectionTargets) (k : ℕ) :
    (mergeSectionPatchesScoped lowerText document patches sectionFailures
        subsectionTargets).document.sections[k]? =
      (mergeSectionPatches document patches).document.sections[k]?.map
        (scopeSection lowerText document sectionFailures
          (effectiveTargets sectionFailures subsectionTargets)) := by
  unfold mergeSectionPatchesScoped
  dsimp only
  by_cases hT : effectiveTargets sectionFailures subsectionTargets = []
  · rw [if_pos hT, hT]
    have hid : scopeSection lowerText document sectionFailures [] = id := by
      funext s
      exact scopeSection_of_no_targets lowerText rfl
    rw [hid, Option.map_id]
    rfl
  · rw [if_neg hT]
    exact List.getElem?_map ..

end Scoped

end StudyAgent.Merge
