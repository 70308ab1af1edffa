import Mathlib.Data.List.Forall2
import StudyAgent.Merge.SectionPatches

/-!
# What the scoped merge leaves alone

Sections without a patch are to stay as they are, and so are the subsections that no
target names.  The merge builds the subsections of a section anew from its headings, so
what has no heading is dropped, and what shares its heading with another is replaced.

Main results:

* `filter_untargeted_restored` — what no target names comes back exactly if it has a heading.
* `restored_eq_iff` — when putting the subsections back changes nothing.
* `frameKept_iff` — **the frame law holds exactly when every section with targets is safe.**
-/

namespace StudyAgent.Merge

open Py

section Frame

variable (lowerText : String → String)

/-- A subsection that no target names; one without a heading has no name. -/
def untargeted (targets : List String) (sub : Subsection) : Bool :=
  !(headed sub && isTarget lowerText targets (headingText sub))

/-- The last of some subsections with a heading. -/
def lastHeaded (subs : List Subsection) (heading : String) : Option Subsection :=
  (subs.filter headed).reverse.find? fun sub => headingText sub = heading

theorem get_subsectionsByHeading (subs : List Subsection) (heading : String) :
    OrderedDict.get (subsectionsByHeading subs) heading = lastHeaded subs heading :=
  OrderedDict.get_ofList _ _

theorem mem_subsectionsByHeading {subs : List Subsection} {heading : String} {sub : Subsection} :
    (heading, sub) ∈ subsectionsByHeading subs ↔ lastHeaded subs heading = some sub :=
  OrderedDict.mem_ofList

theorem lastHeaded_eq_some {subs : List Subsection} {heading : String} {sub : Subsection}
    (h : lastHeaded subs heading = some sub) :
    sub ∈ subs ∧ headed sub = true ∧ headingText sub = heading := by
  have hmem := List.mem_filter.1 (List.mem_reverse.1 (List.mem_of_find?_eq_some h))
  exact ⟨hmem.1, hmem.2, by simpa using List.find?_some h⟩

theorem lastHeaded_isSome {subs : List Subsection} {sub : Subsection} (hmem : sub ∈ subs)
    (hheaded : headed sub = true) : ∃ y, lastHeaded subs (headingText sub) = some y := by
  unfold lastHeaded
  rw [← Option.isSome_iff_exists, List.find?_isSome]
  exact ⟨sub, List.mem_reverse.2 (List.mem_filter.2 ⟨hmem, hheaded⟩), by simp⟩

/-! ## A restored section -/

/-- What stands for a subsection of the original. -/
def standIn (targets : List String) (patched : List Subsection) (sub : Subsection) : Subsection :=
  if isTarget lowerText targets (headingText sub) then
    (lastHeaded patched (headingText sub)).getD sub
  else sub

theorem restoreOriginals_eq (targets : List String) (originals patched : List Subsection) :
    restoreOriginals lowerText targets originals patched =
      (originals.filter headed).map (standIn lowerText targets patched) := by
  unfold restoreOriginals standIn
  simp only [get_subsectionsByHeading]

theorem headingText_standIn (targets : List String) (patched : List Subsection)
    (sub : Subsection) :
    headingText (standIn lowerText targets patched sub) = headingText sub := by
  unfold standIn
  split_ifs
  · cases h : lastHeaded patched (headingText sub) with
    | none => rfl
    | some y => exact (lastHeaded_eq_some h).2.2
  · rfl

theorem untargeted_standIn (targets : List String) (patched : List Subsection)
    (sub : Subsection) :
    untargeted lowerText targets (standIn lowerText targets patched sub) =
      untargeted lowerText targets sub := by
  unfold untargeted headed
  rw [headingText_standIn]

theorem mem_addedSubsections {targets : List String} {originals patched : List Subsection}
    {sub : Subsection} :
    sub ∈ addedSubsections lowerText targets originals patched ↔
      lastHeaded patched (headingText sub) = some sub ∧
        lowerText (headingText sub) ∉
          (originals.filter headed).map (fun x => lowerText (headingText x)) ∧
        isTarget lowerText targets (headingText sub) = true := by
  unfold addedSubsections
  simp only [List.mem_map, List.mem_filter, Bool.and_eq_true, decide_eq_true_eq, Prod.exists,
    mem_subsectionsByHeading]
  constructor
  · rintro ⟨heading, y, ⟨hlast, hnew, htarget⟩, rfl⟩
    obtain rfl := (lastHeaded_eq_some hlast).2.2
    exact ⟨hlast, hnew, htarget⟩
  · intro h
    exact ⟨headingText sub, sub, h, rfl⟩

/-- **What no target names comes back exactly if it has a heading.** -/
theorem filter_untargeted_restored (targets : List String) (originals patched : List Subsection) :
    (restored lowerText targets originals patched).filter (untargeted lowerText targets) =
      originals.filter fun sub => headed sub && untargeted lowerText targets sub := by
  have hadded : (addedSubsections lowerText targets originals patched).filter
      (untargeted lowerText targets) = [] := by
    rw [List.filter_eq_nil_iff]
    intro sub hsub
    obtain ⟨hlast, -, htarget⟩ := (mem_addedSubsections lowerText).1 hsub
    simp [untargeted, (lastHeaded_eq_some hlast).2.1, htarget]
  unfold restored
  rw [List.filter_append, hadded, List.append_nil, restoreOriginals_eq]
  clear hadded
  induction originals with
  | nil => rfl
  | cons x xs ih =>
    by_cases hx : headed x = true
    · rw [List.filter_cons_of_pos hx, List.map_cons, List.filter_cons, List.filter_cons,
        untargeted_standIn, hx, Bool.true_and]
      by_cases hu : untargeted lowerText targets x = true
      · have hstand : standIn lowerText targets patched x = x := by
          have htarget : ¬ isTarget lowerText targets (headingText x) = true := by
            simpa [untargeted, hx] using hu
          unfold standIn
          rw [if_neg htarget]
        rw [if_pos hu, if_pos hu, hstand, ih]
      · rw [if_neg hu, if_neg hu, ih]
    · rw [List.filter_cons_of_neg hx, List.filter_cons_of_neg (by simp [hx])]
      exact ih

/-! ## Putting back without a change -/

/-- `own` is laid out along `twin`: first one subsection for each that `twin` has, then new
targets with headings of their own. -/
def LaysOut (targets : List String) (own twin : List Subsection) : Prop :=
  ∃ kept extra, own = kept ++ extra ∧
    List.Forall₂
      (fun x y => headingText y = headingText x ∧
        if isTarget lowerText targets (headingText x) then lastHeaded own (headingText x) = some y
        else y = x)
      (twin.filter headed) kept ∧
    (∀ y ∈ extra, headed y = true ∧ isTarget lowerText targets (headingText y) = true ∧
      lowerText (headingText y) ∉
        (twin.filter headed).map fun x => lowerText (headingText x)) ∧
    (extra.map headingText).Nodup

theorem headingText_of_mem_subsectionsByHeading {subs : List Subsection}
    {p : String × Subsection} (h : p ∈ subsectionsByHeading subs) : headingText p.2 = p.1 :=
  (lastHeaded_eq_some (mem_subsectionsByHeading.1 h)).2.2

theorem nodup_addedSubsections (targets : List String) (originals patched : List Subsection) :
    ((addedSubsections lowerText targets originals patched).map headingText).Nodup := by
  unfold addedSubsections
  rw [List.map_map]
  refine List.Nodup.map_on ?_ ?_
  · intro p hp q hq heq
    have hp' := (List.mem_filter.1 hp).1
    have hq' := (List.mem_filter.1 hq).1
    have hkey : p.1 = q.1 := by
      rw [← headingText_of_mem_subsectionsByHeading hp',
        ← headingText_of_mem_subsectionsByHeading hq']
      exact heq
    have hvalue := mem_subsectionsByHeading.1 hp'
    rw [hkey, mem_subsectionsByHeading.1 hq'] at hvalue
    exact Prod.ext hkey (Option.some.inj hvalue).symm
  · exact ((OrderedDict.nodup_ofList _).of_map _).filter _

/-- What was added to a laid-out list is what stands at its end. -/
theorem addedSubsections_append {targets : List String} {twin kept extra : List Subsection}
    (hkept : ∀ y ∈ kept, headingText y ∈ (twin.filter headed).map headingText)
    (hextra : ∀ y ∈ extra, headed y = true ∧ isTarget lowerText targets (headingText y) = true ∧
      lowerText (headingText y) ∉ (twin.filter headed).map fun x => lowerText (headingText x))
    (hdiff : (extra.map headingText).Nodup) :
    addedSubsections lowerText targets twin (kept ++ extra) = extra := by
  have hlower : ∀ heading ∈ (twin.filter headed).map headingText,
      lowerText heading ∈ (twin.filter headed).map fun x => lowerText (headingText x) := by
    intro heading hmem
    obtain ⟨x, hx, rfl⟩ := List.mem_map.1 hmem
    exact List.mem_map.2 ⟨x, hx, rfl⟩
  have hkeptHeaded : ∀ heading ∈ (kept.filter headed).map headingText,
      heading ∈ (twin.filter headed).map headingText := by
    intro heading hmem
    obtain ⟨y, hy, rfl⟩ := List.mem_map.1 hmem
    exact hkept y (List.mem_filter.1 hy).1
  have hfilter : extra.filter headed = extra :=
    List.filter_eq_self.2 fun y hy => (hextra y hy).1
  unfold addedSubsections subsectionsByHeading
  rw [List.filter_append, hfilter, OrderedDict.ofList_append _ hdiff, List.filter_append,
    List.filter_eq_nil_iff.2, List.nil_append, List.filter_eq_self.2, List.map_map]
  · exact List.map_id _
  · intro p hp
    obtain ⟨y, hy, rfl⟩ := List.mem_map.1 hp
    simpa using (hextra y hy).2.symm
  · intro p hp hnew
    have hkey := OrderedDict.mem_keys_ofList.1 (List.mem_map_of_mem (f := Prod.fst) hp)
    rw [Bool.and_eq_true, decide_eq_true_eq] at hnew
    exact hnew.1 (hlower _ (hkeptHeaded _ hkey))
  · intro y hy hmem
    exact (hextra y hy).2.2 (hlower _ (hkeptHeaded _ hmem))

/-- **Putting the subsections back changes nothing exactly if they were laid out so.** -/
theorem restored_eq_iff {targets : List String} {own twin : List Subsection} :
    restored lowerText targets twin own = own ↔ LaysOut lowerText targets own twin := by
  constructor
  · intro heq
    unfold restored at heq
    refine ⟨_, _, heq.symm, ?_, ?_, nodup_addedSubsections lowerText targets twin own⟩
    · rw [restoreOriginals_eq, List.forall₂_map_right_iff, List.forall₂_same]
      intro x hx
      refine ⟨headingText_standIn lowerText targets own x, ?_⟩
      split_ifs with htarget
      · -- the stand-in is a member of the list, so its heading has a last member
        have hmem := List.mem_append_left (addedSubsections lowerText targets twin own)
          (List.mem_map_of_mem (f := standIn lowerText targets own) hx)
        rw [← restoreOriginals_eq, heq] at hmem
        have hheaded : headed (standIn lowerText targets own x) = true := by
          unfold headed
          rw [headingText_standIn]
          exact (List.mem_filter.1 hx).2
        obtain ⟨y, hy⟩ := lastHeaded_isSome hmem hheaded
        rw [headingText_standIn] at hy
        rw [hy]
        unfold standIn
        rw [if_pos htarget, hy]
        rfl
      · unfold standIn
        rw [if_neg htarget]
    · intro y hy
      obtain ⟨hlast, hnew, htarget⟩ := (mem_addedSubsections lowerText).1 hy
      exact ⟨(lastHeaded_eq_some hlast).2.1, htarget, hnew⟩
  · rintro ⟨kept, extra, hown, hkept, hextra, hdiff⟩
    have hmap : restoreOriginals lowerText targets twin own = kept := by
      rw [restoreOriginals_eq, ← List.forall₂_eq_eq_eq, List.forall₂_map_left_iff]
      refine hkept.imp fun x y hxy => ?_
      unfold standIn
      split_ifs with htarget
      · rw [if_pos htarget] at hxy
        rw [hxy.2]
        rfl
      · rw [if_neg htarget] at hxy
        exact hxy.2.symm
    have hheadings : ∀ y ∈ kept, headingText y ∈ (twin.filter headed).map headingText := by
      intro y hy
      rw [← hmap, restoreOriginals_eq] at hy
      obtain ⟨x, hx, rfl⟩ := List.mem_map.1 hy
      rw [headingText_standIn]
      exact List.mem_map_of_mem hx
    unfold restored
    rw [hmap]
    subst hown
    rw [addedSubsections_append lowerText hheadings hextra hdiff]

/-- A list is laid out along itself when every subsection has a heading and every target is
the last with its heading. -/
theorem laysOut_self {targets : List String} {own : List Subsection} :
    LaysOut lowerText targets own own ↔
      ∀ y ∈ own, headed y = true ∧
        (isTarget lowerText targets (headingText y) = true →
          lastHeaded own (headingText y) = some y) := by
  rw [← restored_eq_iff]
  have hnone : addedSubsections lowerText targets own own = [] := by
    refine List.eq_nil_iff_forall_not_mem.2 fun y hy => ?_
    obtain ⟨hlast, hnew, -⟩ := (mem_addedSubsections lowerText).1 hy
    obtain ⟨hmem, hheaded, -⟩ := lastHeaded_eq_some hlast
    exact hnew (List.mem_map.2 ⟨y, List.mem_filter.2 ⟨hmem, hheaded⟩, rfl⟩)
  unfold restored
  rw [hnone, List.append_nil, restoreOriginals_eq]
  constructor
  · intro heq
    have hall : own.filter headed = own :=
      List.filter_sublist.eq_of_length (by simpa using congrArg List.length heq)
    rw [hall] at heq
    intro y hy
    have hheaded : headed y = true := List.filter_eq_self.1 hall y hy
    refine ⟨hheaded, fun htarget => ?_⟩
    have hself := List.map_inj_left.1 (heq.trans (List.map_id own).symm) y hy
    obtain ⟨z, hz⟩ := lastHeaded_isSome hy hheaded
    unfold standIn at hself
    rw [if_pos htarget, hz] at hself
    exact hz.trans (congrArg some hself)
  · intro h
    rw [List.filter_eq_self.2 fun y hy => (h y hy).1]
    refine (List.map_congr_left fun y hy => ?_).trans (List.map_id own)
    unfold standIn
    split_ifs with htarget
    · rw [(h y hy).2 htarget]
      rfl
    · rfl

/-! ## The frame law -/

/-- A patch for the sections with an id. -/
def HasPatch (patches : List Section) (sid : String) : Prop :=
  sid ≠ "" ∧ ∃ p ∈ patches, sectionId p = sid

/-- The frame of a merge: sections without a patch, the ids, and in patched sections the
subsections that no target names. -/
structure FrameKept (document : Document) (patches : List Section)
    (sectionFailures : List SectionFailures) (subsectionTargets : SubsectionTargets)
    (merged : Document) : Prop where
  unpatched : ∀ (k : ℕ) (s : Section), document.sections[k]? = some s →
    ¬ HasPatch patches (sectionId s) →
    merged.sections[k]? = some s
  noNew : ∀ t ∈ merged.sections, sectionId t ∈ document.sections.map sectionId
  untargeted : ∀ (k : ℕ) (s : Section), document.sections[k]? = some s →
    HasPatch patches (sectionId s) →
    targetsOf sectionFailures subsectionTargets (sectionId s) ≠ [] →
    ∃ t, merged.sections[k]? = some t ∧
      ((s.subsections.getD []).filter (untargeted lowerText
        (targetsOf sectionFailures subsectionTargets (sectionId s)))).Sublist
        (t.subsections.getD [])

/-- The block fields that a section takes over are its own. -/
def KeepsBlockFields (s original : Section) : Prop :=
  (original.content.isSome → s.content = original.content) ∧
    (original.formulaBlocks.isSome → s.formulaBlocks = original.formulaBlocks) ∧
    (original.codeBlocks.isSome → s.codeBlocks = original.codeBlocks)

/-- A section that loses nothing but what its targets name. -/
structure SafeSection (document : Document) (patches : List Section)
    (sectionFailures : List SectionFailures) (targets : List String) (s original : Section) :
    Prop where
  patched : HasPatch patches (sectionId s) → original.subsections.getD [] ≠ [] →
    ((s.subsections.getD []).filter (untargeted lowerText targets)).Sublist
      ((original.subsections.getD []).filter fun sub =>
        headed sub && untargeted lowerText targets sub)
  unpatched : ¬ HasPatch patches (sectionId s) → original.subsections.getD [] ≠ [] →
    s.subsections.isSome ∧
      LaysOut lowerText targets (s.subsections.getD []) (original.subsections.getD [])
  blockFields : ¬ HasPatch patches (sectionId s) →
    allFailuresSubsectionLocalized (failuresOf sectionFailures (sectionId s)) = true →
    KeepsBlockFields s original

/-! ## One section -/

theorem getD_restoreUntargetedSubsections (s original : Section) (targets : List String) :
    (restoreUntargetedSubsections lowerText s original targets).subsections.getD [] =
      if original.subsections.getD [] = [] then s.subsections.getD []
      else restored lowerText targets (original.subsections.getD []) (s.subsections.getD []) := by
  unfold restoreUntargetedSubsections
  split_ifs <;> rfl

theorem restoreUntargetedSubsections_eq_self {s original : Section} {targets : List String} :
    restoreUntargetedSubsections lowerText s original targets = s ↔
      (original.subsections.getD [] ≠ [] → s.subsections.isSome ∧
        LaysOut lowerText targets (s.subsections.getD []) (original.subsections.getD [])) := by
  unfold restoreUntargetedSubsections
  split_ifs with hempty
  · simp [hempty]
  · rw [← restored_eq_iff]
    obtain ⟨id, heading, content, codeBlocks, formulaBlocks, subsections, otherKeys⟩ := s
    cases subsections with
    | none => simp [hempty]
    | some own => simp [hempty]

theorem restoreSectionLevelBlockFields_eq_self {s original : Section} :
    restoreSectionLevelBlockFields s original = s ↔ KeepsBlockFields s original := by
  unfold restoreSectionLevelBlockFields KeepsBlockFields
  obtain ⟨id, heading, content, codeBlocks, formulaBlocks, subsections, otherKeys⟩ := s
  simp only [Section.mk.injEq, true_and, and_true]
  have hfield : ∀ {α : Type} (own other : Option α),
      (if other.isSome = true then other else own) = own ↔ (other.isSome → own = other) := by
    intro α own other
    split_ifs with h
    · simp [h, eq_comm]
    · simp [h]
  rw [hfield, hfield, hfield]
  tauto

theorem restore_both_eq_self {s original : Section} {targets : List String} :
    restoreSectionLevelBlockFields (restoreUntargetedSubsections lowerText s original targets)
        original = s ↔
      restoreUntargetedSubsections lowerText s original targets = s ∧
        KeepsBlockFields s original := by
  constructor
  · intro h
    have hsubs : (restoreUntargetedSubsections lowerText s original targets).subsections =
        s.subsections := by
      have hproj := congrArg Section.subsections h
      exact hproj
    have hself : restoreUntargetedSubsections lowerText s original targets = s := by
      unfold restoreUntargetedSubsections at hsubs ⊢
      split_ifs with hempty
      · rfl
      · rw [if_neg hempty] at hsubs
        exact congrArg (fun subs => { s with subsections := subs }) hsubs
    rw [hself] at h
    exact ⟨hself, restoreSectionLevelBlockFields_eq_self.1 h⟩
  · rintro ⟨hself, hfields⟩
    rw [hself]
    exact restoreSectionLevelBlockFields_eq_self.2 hfields

/-! ## The frame law, proved section by section -/

/-- A section after the patches. -/
def patchedAt (document : Document) (patches : List Section) (k : ℕ) (s : Section) : Section :=
  if sectionId s ≠ "" ∧ lastIndexed document.sections (sectionId s) = some (s, k) then
    (lastPatch patches (sectionId s)).getD s
  else s

theorem patchedAt_of_unpatched {document : Document} {patches : List Section} {s : Section}
    (h : ¬ HasPatch patches (sectionId s)) (k : ℕ) : patchedAt document patches k s = s := by
  unfold patchedAt
  split_ifs with hlast
  · cases hp : lastPatch patches (sectionId s) with
    | none => rfl
    | some p =>
      have hmem := List.mem_reverse.1 (List.mem_of_find?_eq_some hp)
      exact absurd ⟨hlast.1, p, hmem, sectionId_lastPatch hp⟩ h
  · rfl

theorem sectionId_patchedAt (document : Document) (patches : List Section) (k : ℕ)
    (s : Section) : sectionId (patchedAt document patches k s) = sectionId s := by
  unfold patchedAt
  split_ifs
  · cases hp : lastPatch patches (sectionId s) with
    | none => rfl
    | some p => exact sectionId_lastPatch hp
  · rfl

/-- Only the section that `original_by_id` holds is replaced. -/
theorem patchedAt_of_ne_original {document : Document} {patches : List Section} {k : ℕ}
    {s original : Section} (ho : originalById document (sectionId s) = some original)
    (hne : s ≠ original) : patchedAt document patches k s = s := by
  unfold patchedAt
  refine if_neg fun hlast => hne ?_
  rw [originalById_eq, if_neg hlast.1, hlast.2] at ho
  exact Option.some.inj ho

variable {document : Document} {patches : List Section} {sectionFailures : List SectionFailures}
  {subsectionTargets : SubsectionTargets}

theorem getElem_scoped {k : ℕ} {s : Section} (hs : document.sections[k]? = some s) :
    (mergeSectionPatchesScoped lowerText document patches sectionFailures
        subsectionTargets).document.sections[k]? =
      some (scopeSection lowerText document sectionFailures
        (effectiveTargets sectionFailures subsectionTargets)
        (patchedAt document patches k s)) := by
  rw [getElem_mergeSectionPatchesScoped, getElem_mergeSectionPatches, hs]
  rfl

theorem scopeSection_eq_self {s original : Section} {T : List String}
    (hT : targetsOf sectionFailures subsectionTargets (sectionId s) = T) (hne : T ≠ [])
    (ho : originalById document (sectionId s) = some original) :
    scopeSection lowerText document sectionFailures
        (effectiveTargets sectionFailures subsectionTargets) s = s ↔
      (original.subsections.getD [] ≠ [] → s.subsections.isSome ∧
        LaysOut lowerText T (s.subsections.getD []) (original.subsections.getD [])) ∧
      (allFailuresSubsectionLocalized (failuresOf sectionFailures (sectionId s)) = true →
        KeepsBlockFields s original) := by
  rw [scopeSection_of_original lowerText hT hne ho]
  split_ifs with hlocal
  · rw [restore_both_eq_self, restoreUntargetedSubsections_eq_self]
    simp [hlocal]
  · rw [restoreUntargetedSubsections_eq_self]
    simp [hlocal]

/-- In a patched section what no target names is kept exactly if the original has it all. -/
theorem untargeted_scopeSection {k : ℕ} {s original : Section} {T : List String}
    (hT : targetsOf sectionFailures subsectionTargets (sectionId s) = T) (hne : T ≠ [])
    (ho : originalById document (sectionId s) = some original) :
    ((s.subsections.getD []).filter (untargeted lowerText T)).Sublist
        ((scopeSection lowerText document sectionFailures
          (effectiveTargets sectionFailures subsectionTargets)
          (patchedAt document patches k s)).subsections.getD []) ↔
      (original.subsections.getD [] ≠ [] →
        ((s.subsections.getD []).filter (untargeted lowerText T)).Sublist
          ((original.subsections.getD []).filter fun sub =>
            headed sub && untargeted lowerText T sub)) := by
  have hsid := sectionId_patchedAt document patches k s
  rw [← hsid] at hT ho
  have hsubs : (scopeSection lowerText document sectionFailures
      (effectiveTargets sectionFailures subsectionTargets)
      (patchedAt document patches k s)).subsections.getD [] =
      (restoreUntargetedSubsections lowerText (patchedAt document patches k s) original
        T).subsections.getD [] := by
    rw [scopeSection_of_original lowerText hT hne ho]
    split_ifs <;> rfl
  rw [hsid] at ho
  rw [hsubs, getD_restoreUntargetedSubsections]
  split_ifs with hempty
  · refine iff_of_true ?_ (fun h => absurd hempty h)
    by_cases heq : s = original
    · rw [heq, hempty]
      exact List.nil_sublist _
    · rw [patchedAt_of_ne_original ho heq]
      exact List.filter_sublist
  · rw [forall_prop_of_true hempty, ← filter_untargeted_restored lowerText T _
      ((patchedAt document patches k s).subsections.getD [])]
    constructor
    · intro hsub
      simpa [List.filter_filter] using hsub.filter (untargeted lowerText T)
    · intro hsub
      exact hsub.trans List.filter_sublist

/-- **The frame law holds exactly when every section with targets is safe.** -/
theorem frameKept_iff :
    FrameKept lowerText document patches sectionFailures subsectionTargets
        (mergeSectionPatchesScoped lowerText document patches sectionFailures
          subsectionTargets).document ↔
      ∀ s ∈ document.sections, ∀ original,
        originalById document (sectionId s) = some original →
        targetsOf sectionFailures subsectionTargets (sectionId s) ≠ [] →
        SafeSection lowerText document patches sectionFailures
          (targetsOf sectionFailures subsectionTargets (sectionId s)) s original := by
  constructor
  · intro hkept s hs original ho hT
    obtain ⟨k, hk⟩ := List.mem_iff_getElem?.1 hs
    have hself : ¬ HasPatch patches (sectionId s) → _ := fun hpatch => by
      have hsame := hkept.unpatched k s hk hpatch
      rw [getElem_scoped lowerText hk, patchedAt_of_unpatched hpatch] at hsame
      exact (scopeSection_eq_self lowerText rfl hT ho).1 (Option.some.inj hsame)
    refine ⟨fun hpatch => ?_, fun hpatch => (hself hpatch).1, fun hpatch => (hself hpatch).2⟩
    obtain ⟨t, ht, hsub⟩ := hkept.untargeted k s hk hpatch hT
    rw [getElem_scoped lowerText hk, Option.some.injEq] at ht
    subst ht
    exact (untargeted_scopeSection lowerText rfl hT ho).1 hsub
  · intro hsafe
    refine ⟨fun k s hk hpatch => ?_, fun t ht => ?_, fun k s hk hpatch hT => ?_⟩
    · rw [getElem_scoped lowerText hk, patchedAt_of_unpatched hpatch, Option.some.injEq]
      by_cases hT : targetsOf sectionFailures subsectionTargets (sectionId s) = []
      · exact scopeSection_of_no_targets lowerText hT
      · cases ho : originalById document (sectionId s) with
        | none => exact scopeSection_of_no_original lowerText ho
        | some original =>
          have hs := hsafe s (List.mem_of_getElem? hk) original ho hT
          exact (scopeSection_eq_self lowerText rfl hT ho).2
            ⟨hs.unpatched hpatch, hs.blockFields hpatch⟩
    · obtain ⟨k, hk⟩ := List.mem_iff_getElem?.1 ht
      cases hs : document.sections[k]? with
      | none =>
        rw [getElem_mergeSectionPatchesScoped, getElem_mergeSectionPatches, hs] at hk
        exact absurd hk (by simp)
      | some s =>
        rw [getElem_scoped lowerText hs, Option.some.injEq] at hk
        rw [← hk, sectionId_scopeSection, sectionId_patchedAt]
        exact List.mem_map_of_mem (List.mem_of_getElem? hs)
    · obtain ⟨original, ho⟩ := originalById_isSome (List.mem_of_getElem? hk) hpatch.1
      have hs := hsafe s (List.mem_of_getElem? hk) original ho hT
      exact ⟨_, getElem_scoped lowerText hk,
        (untargeted_scopeSection lowerText rfl hT ho).2 (hs.patched hpatch)⟩

end Frame

/-! ### A subsection without a heading -/

/-- A section with one subsection to be reworked and one without a heading. -/
def pendulum : Section where
  id := some (.str "ts_1")
  subsections := some
    [{ heading := some "Period", content := some "T = 2 pi sqrt(l/g)" },
      { content := some "Small angles are assumed." }]

/-- The generator's section for it, with both subsections. -/
def pendulumPatch : Section where
  id := some (.str "ts_1")
  subsections := some
    [{ heading := some "Period", content := some "See the formula block." },
      { content := some "Small angles are assumed." }]

/-- The merged section. -/
def pendulumMerged : MergePatchesResult :=
  mergeSectionPatchesScoped lower { sections := [pendulum] } [pendulumPatch] []
    [("ts_1", ["Period"])]

/-- The remark about small angles is in the original and in the patch, and is lost. -/
theorem pendulum_loses_remark :
    pendulumMerged.document.sections.map (fun s => (s.subsections.getD []).map Subsection.content) =
        [[some "See the formula block."]] ∧
      ¬ FrameKept lower { sections := [pendulum] } [pendulumPatch] [] [("ts_1", ["Period"])]
        pendulumMerged.document := by
  have hmerged : pendulumMerged.document.sections[0]?.map Section.subsections =
      some (some [{ heading := some "Period", content := some "See the formula block." }]) := by
    decide
  refine ⟨by decide, fun hkept => ?_⟩
  obtain ⟨t, ht, hsub⟩ := hkept.untargeted 0 pendulum rfl
    ⟨by decide, pendulumPatch, List.mem_singleton.2 rfl, rfl⟩ (by decide)
  rw [ht, Option.map_some, Option.some.injEq] at hmerged
  rw [hmerged] at hsub
  exact absurd hsub (by decide)

end StudyAgent.Merge
