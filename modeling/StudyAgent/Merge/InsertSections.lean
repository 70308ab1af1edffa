import Mathlib.Data.List.Sort
import StudyAgent.Base.InsertBehind
import StudyAgent.Merge.SectionPatches

/-!
# Inserting sections in checklist order

Missing sections are written by the model and put into the document one by one, in
the order of their checklist numbers: each behind the section with the largest
smaller number, or to the end when there is none.  A section whose id is there
already is left out.  Which characters are digits is a table that is a parameter.

Main results:

* `insertSections_sublist`, `insertSections_perm` — nothing is lost or changed, and
  each admitted section comes once.
* `insertSections_order` — **the checklist order.**
-/

namespace StudyAgent.Merge

open Py InsertBehind

/-! ## The insertion -/

section

variable (digitValue : Char → Option ℕ)

/-- `_checklist_order`: the number of an id that matches `^mc_(\\d+)$` in any case. -/
def checklistOrder (sid : String) : Option ℕ :=
  match (strip sid).toList with
  | m :: c :: '_' :: digits =>
    if m ∈ ['m', 'M'] ∧ c ∈ ['c', 'C'] ∧ digits ≠ [] then
      (digits.mapM digitValue).map (·.foldl (fun n d => 10 * n + d) 0)
    else none
  | _ => none

/-- The checklist number of a section. -/
def sectionOrder (s : Section) : Option ℕ := checklistOrder digitValue (sectionId s)

/-- `_default_insert_index`. -/
def defaultInsertIndex (sections : List Section) (newSectionId : String) : ℕ :=
  match checklistOrder digitValue newSectionId with
  | none => sections.length
  | some newOrder => indexBehind (sectionOrder digitValue) newOrder sections

/-- `_checklist_order(_section_id(section)) or 10**9`. -/
def sortKey (s : Section) : ℕ :=
  match sectionOrder digitValue s with
  | none => 10 ^ 9
  | some n => if n = 0 then 10 ^ 9 else n

/-- `ordered_new`. -/
def orderedNew (newSections : List Section) : List Section :=
  newSections.insertionSort fun s t => sortKey digitValue s ≤ sortKey digitValue t

/-- Where a section goes: behind the anchor that is asked for, or by its number. -/
def insertAt (afterSectionId : Option String) (sections : List Section) (newId : String) : ℕ :=
  match afterSectionId with
  | some after =>
    if after ≠ "" then
      match sections.findIdx? fun s => sectionId s = strip after with
      | some index => index + 1
      | none => sections.length
    else defaultInsertIndex digitValue sections newId
  | none => defaultInsertIndex digitValue sections newId

/-- One round of `insert_sections`. -/
def insertSection (afterSectionId : Option String) (sections : List Section) (s : Section) :
    List Section :=
  if sectionId s = "" then sections ++ [s]
  else if sections.any fun t => sectionId t = sectionId s then sections
  else sections.insertIdx (insertAt digitValue afterSectionId sections (sectionId s)) s

/-- `insert_sections`. -/
def insertSections (document : Document) (newSections : List Section)
    (afterSectionId : Option String) : Document :=
  { document with
    sections := (orderedNew digitValue newSections).foldl
      (insertSection digitValue afterSectionId) document.sections }

end

/-! ## Nothing is lost -/

section

variable {digitValue : Char → Option ℕ} {afterSectionId : Option String}

/-- The sections that are admitted beside those with the given ids: without an id, or
the first of their id. -/
def admitted (ids : List String) : List Section → List Section
  | [] => []
  | s :: l =>
    if sectionId s ≠ "" ∧ sectionId s ∈ ids then admitted ids l
    else s :: admitted (sectionId s :: ids) l

theorem defaultInsertIndex_le (sections : List Section) (newId : String) :
    defaultInsertIndex digitValue sections newId ≤ sections.length := by
  unfold defaultInsertIndex
  split
  · exact le_rfl
  · exact indexBehind_le _ _

theorem insertAt_le (sections : List Section) (newId : String) :
    insertAt digitValue afterSectionId sections newId ≤ sections.length := by
  unfold insertAt
  split
  next after =>
    split_ifs
    · split
      next index hfind =>
        obtain ⟨hlt, -⟩ := List.findIdx?_eq_some_iff_getElem.1 hfind
        exact hlt
      next => exact le_rfl
    · exact defaultInsertIndex_le _ _
  next => exact defaultInsertIndex_le _ _

/-- A round leaves a section out whose id is there, or puts it in once. -/
theorem insertSection_cases (sections : List Section) (s : Section) :
    ((sectionId s ≠ "" ∧ sectionId s ∈ sections.map sectionId) ∧
        insertSection digitValue afterSectionId sections s = sections) ∨
      (¬ (sectionId s ≠ "" ∧ sectionId s ∈ sections.map sectionId) ∧
        sections.Sublist (insertSection digitValue afterSectionId sections s) ∧
        (insertSection digitValue afterSectionId sections s).Perm (s :: sections)) := by
  unfold insertSection
  by_cases hid : sectionId s = ""
  · rw [if_pos hid]
    exact Or.inr ⟨fun h => h.1 hid, List.sublist_append_left _ _, List.perm_append_singleton _ _⟩
  · rw [if_neg hid]
    have hany : (sections.any fun t => sectionId t = sectionId s) = true ↔
        sectionId s ∈ sections.map sectionId := by
      rw [List.any_eq_true, List.mem_map]
      simp
    by_cases hthere : sectionId s ∈ sections.map sectionId
    · rw [if_pos (hany.2 hthere)]
      exact Or.inl ⟨⟨hid, hthere⟩, rfl⟩
    · rw [if_neg (mt hany.1 hthere)]
      exact Or.inr ⟨fun h => hthere h.2, List.sublist_insertIdx _ _ _,
        List.perm_insertIdx _ _ (insertAt_le _ _)⟩

theorem admitted_congr {ids ids' : List String} {l : List Section}
    (h : ∀ s ∈ l, sectionId s ≠ "" → (sectionId s ∈ ids ↔ sectionId s ∈ ids')) :
    admitted ids l = admitted ids' l := by
  induction l generalizing ids ids' with
  | nil => rfl
  | cons s l ih =>
    have htail : ∀ t ∈ l, sectionId t ≠ "" → (sectionId t ∈ ids ↔ sectionId t ∈ ids') :=
      fun t ht => h t (List.mem_cons_of_mem _ ht)
    have hs := and_congr_right (h s List.mem_cons_self)
    rw [admitted, admitted]
    by_cases hthere : sectionId s ≠ "" ∧ sectionId s ∈ ids
    · rw [if_pos hthere, if_pos (hs.1 hthere)]
      exact ih htail
    · rw [if_neg hthere, if_neg (mt hs.2 hthere)]
      refine congrArg (s :: ·) (ih fun t ht hne => ?_)
      rw [List.mem_cons, List.mem_cons, htail t ht hne]

/-- **The sections that are there stay as they are**, in their order. -/
theorem insertSections_sublist (document : Document) (newSections : List Section) :
    document.sections.Sublist
      (insertSections digitValue document newSections afterSectionId).sections := by
  have hrun : ∀ (l sections : List Section),
      sections.Sublist (l.foldl (insertSection digitValue afterSectionId) sections) := by
    intro l
    induction l with
    | nil => exact fun sections => List.Sublist.refl _
    | cons s l ih =>
      intro sections
      rw [List.foldl_cons]
      refine List.Sublist.trans ?_ (ih _)
      rcases @insertSection_cases digitValue afterSectionId sections s with ⟨-, heq⟩ | ⟨-, hsub, -⟩
      · rw [heq]
      · exact hsub
  exact hrun _ _

/-- **Each admitted section comes once.** -/
theorem insertSections_perm (document : Document) (newSections : List Section) :
    (insertSections digitValue document newSections afterSectionId).sections.Perm
      (document.sections ++ admitted (document.sections.map sectionId)
        (orderedNew digitValue newSections)) := by
  have hrun : ∀ (l sections : List Section),
      (l.foldl (insertSection digitValue afterSectionId) sections).Perm
        (sections ++ admitted (sections.map sectionId) l) := by
    intro l
    induction l with
    | nil => exact fun sections => by rw [admitted, List.append_nil]; exact List.Perm.refl _
    | cons s l ih =>
      intro sections
      rw [List.foldl_cons, admitted]
      rcases @insertSection_cases digitValue afterSectionId sections s with
        ⟨hthere, heq⟩ | ⟨hnew, -, hperm⟩
      · rw [heq, if_pos hthere]
        exact ih sections
      · rw [if_neg hnew]
        refine (ih _).trans ?_
        have hids : ∀ t ∈ l, sectionId t ≠ "" →
            (sectionId t ∈ (insertSection digitValue afterSectionId sections s).map sectionId ↔
              sectionId t ∈ sectionId s :: sections.map sectionId) := fun t _ _ =>
          (hperm.map sectionId).mem_iff
        rw [admitted_congr hids]
        exact (hperm.append_right _).trans List.perm_middle.symm
  exact hrun _ _

end

/-! ## The order -/

section

variable {digitValue : Char → Option ℕ}

/-- The checklist numbers of some sections. -/
def checklistNumbers (digitValue : Char → Option ℕ) (sections : List Section) : List ℕ :=
  numbers (sectionOrder digitValue) sections

theorem sectionOrder_of_empty {s : Section} (h : sectionId s = "") :
    sectionOrder digitValue s = none := by
  unfold sectionOrder checklistOrder
  rw [h, strip_empty]
  rfl

theorem sortKey_of_order {s : Section} {n : ℕ} (h : sectionOrder digitValue s = some n)
    (hn : n ≠ 0) : sortKey digitValue s = n := by
  unfold sortKey
  rw [h]
  exact if_neg hn

theorem numbers_concat_none {sections : List Section} {s : Section}
    (h : sectionOrder digitValue s = none) :
    checklistNumbers digitValue (sections ++ [s]) = checklistNumbers digitValue sections := by
  unfold checklistNumbers numbers
  rw [List.filterMap_append, List.filterMap_cons_none h, List.filterMap_nil, List.append_nil]

/-- **One insertion keeps the order** when the number is above every one that came
later than the document. -/
theorem insertSection_arranged {first : List ℕ} {sections : List Section} {s : Section}
    (harranged : Arranged first (checklistNumbers digitValue sections))
    (hfirst : first ⊆ checklistNumbers digitValue sections)
    (hlater : ∀ n, sectionOrder digitValue s = some n →
      ∀ j ∈ checklistNumbers digitValue sections, j ∉ first → j ≤ n)
    (hnew : ∀ t ∈ sections, sectionId s ≠ sectionId t →
      sectionOrder digitValue s = sectionOrder digitValue t → sectionOrder digitValue s = none) :
    Arranged first (checklistNumbers digitValue (insertSection digitValue none sections s)) ∧
      first ⊆ checklistNumbers digitValue (insertSection digitValue none sections s) := by
  refine ⟨?_, List.Subset.trans hfirst ?_⟩
  · unfold insertSection
    split_ifs with hid hany
    · rw [numbers_concat_none (sectionOrder_of_empty hid)]
      exact harranged
    · exact harranged
    · unfold insertAt defaultInsertIndex
      dsimp only
      cases horder : sectionOrder digitValue s with
      | none =>
        rw [show checklistOrder digitValue (sectionId s) = none from horder]
        dsimp only
        rw [List.insertIdx_length_self, numbers_concat_none horder]
        exact harranged
      | some n =>
        rw [show checklistOrder digitValue (sectionId s) = some n from horder]
        have hn : n ∉ checklistNumbers digitValue sections := by
          intro hn
          obtain ⟨t, ht, htn⟩ := List.mem_filterMap.1 hn
          have hids : sectionId s ≠ sectionId t := by
            intro heq
            exact hany (List.any_eq_true.2 ⟨t, ht, by simp [heq]⟩)
          have hnone := hnew t ht hids (by rw [horder, htn])
          rw [horder] at hnone
          cases hnone
        refine Arranged.insertBehind horder harranged hfirst (fun j hj hnot => ?_) hn
        exact lt_of_le_of_ne (hlater n horder j hj hnot) fun heq => hn (heq ▸ hj)
  · rcases @insertSection_cases digitValue none sections s with ⟨-, heq⟩ | ⟨-, hsub, -⟩
    · rw [heq]
      exact List.Subset.refl _
    · exact (hsub.filterMap _).subset

end

section

variable {digitValue : Char → Option ℕ}

/-- **Insertions in ascending order keep the order.** -/
theorem foldl_insertSection_arranged {first : List ℕ} {l sections : List Section}
    (hsorted : l.Pairwise fun s t => sortKey digitValue s ≤ sortKey digitValue t)
    (hzero : ∀ s ∈ l, sectionOrder digitValue s ≠ some 0)
    (harranged : Arranged first (checklistNumbers digitValue sections))
    (hfirst : first ⊆ checklistNumbers digitValue sections)
    (hearlier : ∀ t ∈ sections, ∀ j, sectionOrder digitValue t = some j → j ∉ first →
      j ≠ 0 ∧ ∀ s ∈ l, sortKey digitValue t ≤ sortKey digitValue s)
    (hnumbers : ∀ s ∈ l, ∀ t ∈ sections ++ l, sectionId s ≠ sectionId t →
      sectionOrder digitValue s = sectionOrder digitValue t → sectionOrder digitValue s = none) :
    Arranged first
      (checklistNumbers digitValue (l.foldl (insertSection digitValue none) sections)) := by
  induction l generalizing sections with
  | nil => exact harranged
  | cons s l ih =>
    rw [List.foldl_cons]
    obtain ⟨hs, hl⟩ := List.pairwise_cons.1 hsorted
    have hstep := insertSection_arranged harranged hfirst
      (fun n hn j hj hnot => by
        obtain ⟨t, ht, htj⟩ := List.mem_filterMap.1 hj
        obtain ⟨hj0, hle⟩ := hearlier t ht j htj hnot
        have hn0 : n ≠ 0 := fun h0 => hzero s List.mem_cons_self (h0 ▸ hn)
        have hkeys := hle s List.mem_cons_self
        rwa [sortKey_of_order htj hj0, sortKey_of_order hn hn0] at hkeys)
      (fun t ht => hnumbers s List.mem_cons_self t (List.mem_append_left _ ht))
    have hsub : ∀ t ∈ insertSection digitValue none sections s, t = s ∨ t ∈ sections := by
      intro t ht
      rcases @insertSection_cases digitValue none sections s with ⟨-, heq⟩ | ⟨-, -, hperm⟩
      · exact Or.inr (heq ▸ ht)
      · exact List.mem_cons.1 (hperm.mem_iff.1 ht)
    refine ih hl (fun t ht => hzero t (List.mem_cons_of_mem _ ht)) hstep.1 hstep.2 ?_ ?_
    · intro t ht j hj hnot
      rcases hsub t ht with rfl | ht
      · exact ⟨fun h0 => hzero t List.mem_cons_self (h0 ▸ hj), hs⟩
      · obtain ⟨hj0, hle⟩ := hearlier t ht j hj hnot
        exact ⟨hj0, fun u hu => hle u (List.mem_cons_of_mem _ hu)⟩
    · intro u hu t ht
      refine hnumbers u (List.mem_cons_of_mem _ hu) t ?_
      rcases List.mem_append.1 ht with ht | ht
      · rcases hsub t ht with rfl | ht
        · exact List.mem_append_right _ List.mem_cons_self
        · exact List.mem_append_left _ ht
      · exact List.mem_append_right _ (List.mem_cons_of_mem _ ht)

end

/-- **The checklist order.**  The document's numbered sections ascend, and so do they
afterwards with the new ones that are not below all of them; those that are below all
of them come behind, ascending too.  Nothing is lost or changed, and each new section
comes once, one of several with the same id. -/
theorem insertSections_order (digitValue : Char → Option ℕ) (document : Document)
    (newSections : List Section)
    (hascending : (checklistNumbers digitValue document.sections).Pairwise (· < ·))
    (hids : ∀ s ∈ newSections, sectionId s ≠ "" →
      sectionId s ∉ document.sections.map sectionId)
    (hnumbers : ∀ s ∈ newSections, ∀ t ∈ document.sections ++ newSections,
      sectionId s ≠ sectionId t → sectionOrder digitValue s = sectionOrder digitValue t →
        sectionOrder digitValue s = none)
    (hzero : ∀ s ∈ newSections, sectionOrder digitValue s ≠ some 0) :
    let merged := (insertSections digitValue document newSections none).sections
    document.sections.Sublist merged ∧
      merged.Perm (document.sections ++ admitted [] (orderedNew digitValue newSections)) ∧
      Arranged (checklistNumbers digitValue document.sections)
        (checklistNumbers digitValue merged) := by
  intro merged
  have hmem : ∀ s, s ∈ orderedNew digitValue newSections ↔ s ∈ newSections := fun s =>
    List.mem_insertionSort _
  refine ⟨insertSections_sublist document newSections, ?_, ?_⟩
  · have hfresh : ∀ s ∈ orderedNew digitValue newSections, sectionId s ≠ "" →
        (sectionId s ∈ document.sections.map sectionId ↔ sectionId s ∈ ([] : List String)) :=
      fun s hs hne => iff_of_false (hids s ((hmem s).1 hs) hne) List.not_mem_nil
    rw [← admitted_congr hfresh]
    exact insertSections_perm document newSections
  · have htotal : Std.Total fun s t : Section => sortKey digitValue s ≤ sortKey digitValue t :=
      ⟨fun s t => le_total _ _⟩
    have htrans : IsTrans Section fun s t => sortKey digitValue s ≤ sortKey digitValue t :=
      ⟨fun s t u hst htu => hst.trans htu⟩
    refine foldl_insertSection_arranged (List.pairwise_insertionSort _ _)
      (fun s hs => hzero s ((hmem s).1 hs)) ?_ (List.Subset.refl _) ?_ ?_
    · exact ⟨_, [], (List.append_nil _).symm, hascending, List.Pairwise.nil,
        fun k hk hbelow => hbelow.not_mem hk, fun k hk => absurd hk List.not_mem_nil⟩
    · exact fun t ht j hj hnot => absurd (List.mem_filterMap.2 ⟨t, ht, hj⟩) hnot
    · intro s hs t ht
      refine hnumbers s ((hmem s).1 hs) t ?_
      rw [List.mem_append] at ht ⊢
      exact ht.imp_right (hmem t).1

/-- The decimal digits. -/
def asciiDigit (c : Char) : Option ℕ := if c.isDigit then some (c.toNat - 48) else none

/-- Two sections go between those of a document, and one below all of them behind. -/
theorem insertSections_order_three :
    let s (sid : String) : Section := { id := some (.str sid) }
    let merged := (insertSections asciiDigit { sections := [s "mc_2", s "intro", s "mc_5"] }
      [s "mc_4", s "mc_1", s "mc_3"] none).sections
    Arranged [2, 5] (checklistNumbers asciiDigit merged) :=
  (insertSections_order asciiDigit
    { sections := [{ id := some (.str "mc_2") }, { id := some (.str "intro") },
        { id := some (.str "mc_5") }] }
    [{ id := some (.str "mc_4") }, { id := some (.str "mc_1") }, { id := some (.str "mc_3") }]
    (by decide) (by decide) (by decide) (by decide)).2.2

/-- A section below all of the document's is put behind them. -/
theorem insertSections_appends_lowest :
    let s (sid : String) : Section := { id := some (.str sid) }
    (checklistNumbers asciiDigit [s "mc_2"]).Pairwise (· < ·) ∧
      ¬ (checklistNumbers asciiDigit (insertSections asciiDigit { sections := [s "mc_2"] }
        [s "mc_1"] none).sections).Pairwise (· < ·) := by decide

end StudyAgent.Merge
