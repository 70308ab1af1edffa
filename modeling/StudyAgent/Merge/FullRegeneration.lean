import StudyAgent.Merge.SectionPatches

/-!
# Passing sections survive a full regeneration

After a full regeneration the sections that passed are taken from the draft before
it, and only those that were to be rewritten from the new one.  The order is that
of the topic split, then of the draft before, then of the new one.

Main results:

* `ids_mergedSections` — every id of the two documents comes once, in that order.
* `mem_mergedSections` — where each section comes from.
* `mergeFullRegeneration_preserves` — **the merged document.**
-/

namespace StudyAgent.Merge

open Py Dedup

/-! ## The merge -/

section

variable (newDocument previousDocument : Document)

/-- The ids of a document's sections, those without an id left out. -/
def givenIds (d : Document) : List String := (d.sections.map sectionId).filter (· ≠ "")

/-- `previous_by_id`, `new_by_id`. -/
def sectionsById (d : Document) : List (String × Section) :=
  OrderedDict.ofList sectionId (d.sections.filter fun s => sectionId s ≠ "")

/-- `_ordered_section_ids`; the topic split as the texts of its ids. -/
def orderedSectionIds (topicSplit : List String) : List String :=
  let blueprintIds := (topicSplit.map strip).filter (· ≠ "")
  if blueprintIds ≠ [] then
    let ordered := collect id (fun _ => true) [] blueprintIds
    (previousDocument.sections ++ newDocument.sections).foldl
      (fun ordered s =>
        if sectionId s ≠ "" && sectionId s ∉ ordered then ordered ++ [sectionId s] else ordered)
      ordered
  else collect sectionId (· ≠ "") [] (previousDocument.sections ++ newDocument.sections)

/-- The section that is kept of an id. -/
def keptSection (rewriteIds : List String) (sid : String) : Option Section :=
  if sid ∈ rewriteIds then
    (OrderedDict.get (sectionsById newDocument) sid).or
      (OrderedDict.get (sectionsById previousDocument) sid)
  else
    (OrderedDict.get (sectionsById previousDocument) sid).or
      (OrderedDict.get (sectionsById newDocument) sid)

/-- The merged sections: those of the ordered ids, and then what is still missing of
the new ones. -/
def mergedSections (rewriteIds topicSplit : List String) : List Section :=
  (sectionsById newDocument).foldl
    (fun merged p => if p.1 ∈ merged.map sectionId then merged else merged ++ [p.2])
    ((orderedSectionIds newDocument previousDocument topicSplit).filterMap
      (keptSection newDocument previousDocument rewriteIds))

/-- `merge_full_regeneration_preserving_passing`. -/
def mergeFullRegenerationPreservingPassing (rewriteSectionIds topicSplit : List String) :
    Document :=
  { newDocument with
    sections := mergedSections newDocument previousDocument
      ((rewriteSectionIds.map strip).filter (· ≠ "")) topicSplit }

end

/-! ## The order -/

section

variable {newDocument previousDocument : Document} {rewriteIds topicSplit : List String}

/-- The ids of a topic split, each once. -/
def topicIds (topicSplit : List String) : List String :=
  collect id (fun _ => true) [] ((topicSplit.map strip).filter (· ≠ ""))

theorem mem_topicIds {sid : String} :
    sid ∈ topicIds topicSplit ↔ sid ≠ "" ∧ sid ∈ topicSplit.map strip := by
  unfold topicIds
  rw [mem_collect]
  simp [and_comm]

/-- Both branches collect the ids behind those of the topic split. -/
theorem orderedSectionIds_eq :
    orderedSectionIds newDocument previousDocument topicSplit =
      collect sectionId (· ≠ "") (topicIds topicSplit)
        (previousDocument.sections ++ newDocument.sections) := by
  unfold orderedSectionIds topicIds
  dsimp only
  split_ifs with h
  · rfl
  · rw [not_not] at h
    rw [h]
    rfl

theorem nodup_orderedSectionIds :
    (orderedSectionIds newDocument previousDocument topicSplit).Nodup := by
  rw [orderedSectionIds_eq]
  exact nodup_collect (nodup_collect List.nodup_nil _) _

theorem mem_givenIds {d : Document} {sid : String} :
    sid ∈ givenIds d ↔ sid ≠ "" ∧ ∃ s ∈ d.sections, sectionId s = sid := by
  unfold givenIds
  rw [List.mem_filter, List.mem_map, decide_eq_true_eq, and_comm]

theorem mem_orderedSectionIds {sid : String} :
    sid ∈ orderedSectionIds newDocument previousDocument topicSplit ↔
      sid ∈ topicIds topicSplit ∨ sid ∈ givenIds previousDocument ∨ sid ∈ givenIds newDocument := by
  rw [orderedSectionIds_eq, mem_collect, mem_givenIds, mem_givenIds, ← and_or_left]
  refine or_congr_right ?_
  rw [decide_eq_true_eq]
  refine and_congr_right fun _ => ?_
  simp only [List.mem_append, or_and_right, exists_or]

/-! ## The sections -/

/-- The last section of a document with an id. -/
def lastWithId (d : Document) (sid : String) : Option Section :=
  d.sections.reverse.find? fun s => sectionId s = sid

theorem get_sectionsById {d : Document} {sid : String} (h : sid ≠ "") :
    OrderedDict.get (sectionsById d) sid = lastWithId d sid := by
  unfold sectionsById lastWithId
  rw [OrderedDict.get_ofList, ← List.filter_reverse, List.find?_filter]
  congr 1
  funext s
  by_cases hs : sectionId s = sid
  · simp [hs, h]
  · simp [hs]

theorem lastWithId_eq_some {d : Document} {sid : String} {s : Section}
    (h : lastWithId d sid = some s) : s ∈ d.sections ∧ sectionId s = sid := by
  refine ⟨List.mem_reverse.1 (List.mem_of_find?_eq_some h), ?_⟩
  simpa using List.find?_some h

theorem isSome_lastWithId {d : Document} {sid : String} (h : sid ≠ "") :
    (lastWithId d sid).isSome = true ↔ sid ∈ givenIds d := by
  unfold lastWithId
  rw [List.find?_isSome, mem_givenIds, and_iff_right h]
  simp

/-- Which section is kept of an id. -/
def chosen (newDocument previousDocument : Document) (rewriteIds : List String) (sid : String) :
    Option Section :=
  if sid ∈ rewriteIds then (lastWithId newDocument sid).or (lastWithId previousDocument sid)
  else (lastWithId previousDocument sid).or (lastWithId newDocument sid)

theorem keptSection_eq {sid : String} (h : sid ≠ "") :
    keptSection newDocument previousDocument rewriteIds sid =
      chosen newDocument previousDocument rewriteIds sid := by
  unfold keptSection chosen
  rw [get_sectionsById h, get_sectionsById h]

theorem sectionId_of_chosen {sid : String} {s : Section}
    (h : chosen newDocument previousDocument rewriteIds sid = some s) : sectionId s = sid := by
  unfold chosen at h
  split_ifs at h
  · rcases Option.or_eq_some_iff.1 h with h | ⟨-, h⟩ <;> exact (lastWithId_eq_some h).2
  · rcases Option.or_eq_some_iff.1 h with h | ⟨-, h⟩ <;> exact (lastWithId_eq_some h).2

theorem isSome_chosen {sid : String} (h : sid ≠ "") :
    (chosen newDocument previousDocument rewriteIds sid).isSome = true ↔
      sid ∈ givenIds previousDocument ∨ sid ∈ givenIds newDocument := by
  unfold chosen
  split_ifs
  · rw [Option.isSome_or, Bool.or_eq_true, isSome_lastWithId h, isSome_lastWithId h, or_comm]
  · rw [Option.isSome_or, Bool.or_eq_true, isSome_lastWithId h, isSome_lastWithId h]

theorem ne_empty_of_mem_ordered {sid : String}
    (h : sid ∈ orderedSectionIds newDocument previousDocument topicSplit) : sid ≠ "" := by
  rcases mem_orderedSectionIds.1 h with h | h | h
  · exact (mem_topicIds.1 h).1
  · exact (mem_givenIds.1 h).1
  · exact (mem_givenIds.1 h).1

/-- The sections of the ordered ids. -/
def orderedSections (newDocument previousDocument : Document)
    (rewriteIds topicSplit : List String) : List Section :=
  (orderedSectionIds newDocument previousDocument topicSplit).filterMap
    (chosen newDocument previousDocument rewriteIds)

theorem ids_orderedSections :
    (orderedSections newDocument previousDocument rewriteIds topicSplit).map sectionId =
      (orderedSectionIds newDocument previousDocument topicSplit).filter fun sid =>
        sid ∈ givenIds previousDocument ∨ sid ∈ givenIds newDocument := by
  unfold orderedSections
  rw [Dedup.map_filterMap_key fun _ _ => sectionId_of_chosen]
  refine List.filter_congr fun sid hsid => ?_
  rw [Bool.eq_iff_iff, isSome_chosen (ne_empty_of_mem_ordered hsid), decide_eq_true_eq]

/-- Nothing is missing behind the ordered ids. -/
theorem mergedSections_eq :
    mergedSections newDocument previousDocument rewriteIds topicSplit =
      orderedSections newDocument previousDocument rewriteIds topicSplit := by
  unfold mergedSections
  have hkept : (orderedSectionIds newDocument previousDocument topicSplit).filterMap
      (keptSection newDocument previousDocument rewriteIds) =
        orderedSections newDocument previousDocument rewriteIds topicSplit :=
    List.filterMap_congr fun sid hsid => keptSection_eq (ne_empty_of_mem_ordered hsid)
  rw [hkept]
  have hthere : ∀ p ∈ sectionsById newDocument,
      p.1 ∈ (orderedSections newDocument previousDocument rewriteIds topicSplit).map sectionId := by
    intro p hp
    have hkey : p.1 ∈ (sectionsById newDocument).map Prod.fst := List.mem_map_of_mem hp
    unfold sectionsById at hkey
    rw [OrderedDict.mem_keys_ofList, List.mem_map] at hkey
    obtain ⟨s, hs, hid⟩ := hkey
    obtain ⟨hs, hne⟩ := List.mem_filter.1 hs
    rw [decide_eq_true_eq, hid] at hne
    have hgiven : p.1 ∈ givenIds newDocument := mem_givenIds.2 ⟨hne, s, hs, hid⟩
    rw [ids_orderedSections, List.mem_filter, decide_eq_true_eq]
    exact ⟨mem_orderedSectionIds.2 (Or.inr (Or.inr hgiven)), Or.inr hgiven⟩
  generalize sectionsById newDocument = items at hthere
  induction items with
  | nil => rfl
  | cons p items ih =>
    rw [List.foldl_cons, if_pos (hthere p List.mem_cons_self)]
    exact ih fun q hq => hthere q (List.mem_cons_of_mem _ hq)

/-- **Every id of the two documents comes once**, in the order of the ids. -/
theorem ids_mergedSections :
    (mergedSections newDocument previousDocument rewriteIds topicSplit).map sectionId =
      (orderedSectionIds newDocument previousDocument topicSplit).filter fun sid =>
        sid ∈ givenIds previousDocument ∨ sid ∈ givenIds newDocument := by
  rw [mergedSections_eq, ids_orderedSections]

/-- **Where each section comes from.** -/
theorem mem_mergedSections {s : Section} :
    s ∈ mergedSections newDocument previousDocument rewriteIds topicSplit ↔
      sectionId s ≠ "" ∧
        chosen newDocument previousDocument rewriteIds (sectionId s) = some s := by
  rw [mergedSections_eq]
  unfold orderedSections
  rw [List.mem_filterMap]
  constructor
  · rintro ⟨sid, hsid, hs⟩
    have hid := sectionId_of_chosen hs
    subst hid
    exact ⟨ne_empty_of_mem_ordered hsid, hs⟩
  · rintro ⟨hne, hs⟩
    refine ⟨sectionId s, ?_, hs⟩
    have hthere := (isSome_chosen hne).1 (Option.isSome_iff_exists.2 ⟨s, hs⟩)
    exact mem_orderedSectionIds.2 (Or.inr hthere)

/-- The ids of the topic split come first. -/
theorem topicIds_first :
    ∃ rest, (mergedSections newDocument previousDocument rewriteIds topicSplit).map sectionId =
        ((topicIds topicSplit).filter fun sid =>
          sid ∈ givenIds previousDocument ∨ sid ∈ givenIds newDocument) ++ rest ∧
      ∀ sid ∈ rest, sid ∉ topicIds topicSplit := by
  obtain ⟨rest, hrest⟩ : topicIds topicSplit <+:
      orderedSectionIds newDocument previousDocument topicSplit := by
    rw [orderedSectionIds_eq]
    exact collect_prefix _ _
  refine ⟨rest.filter fun sid =>
    sid ∈ givenIds previousDocument ∨ sid ∈ givenIds newDocument, ?_, fun sid hsid htopic => ?_⟩
  · rw [ids_mergedSections, ← hrest, List.filter_append]
  · have hnodup : (topicIds topicSplit ++ rest).Nodup := hrest ▸ nodup_orderedSectionIds
    exact (List.disjoint_of_nodup_append hnodup) htopic (List.mem_filter.1 hsid).1

end

/-- **A full regeneration preserves the passing sections.**  Every id of the two
documents comes once, those of the topic split first and in its order; the section of
an id to rewrite is the last one the new document has, or else the previous one's, and
that of any other id is the last one the previous document has, or else the new one's. -/
theorem mergeFullRegeneration_preserves (newDocument previousDocument : Document)
    (rewriteSectionIds topicSplit : List String) :
    let merged := mergeFullRegenerationPreservingPassing newDocument previousDocument
      rewriteSectionIds topicSplit
    (merged.sections.map sectionId).Nodup ∧
    (∀ sid, sid ∈ merged.sections.map sectionId ↔
      sid ∈ givenIds previousDocument ∨ sid ∈ givenIds newDocument) ∧
    (∀ s ∈ merged.sections,
      some s =
        if sectionId s ∈ rewriteSectionIds.map strip then
          (lastWithId newDocument (sectionId s)).or (lastWithId previousDocument (sectionId s))
        else
          (lastWithId previousDocument (sectionId s)).or (lastWithId newDocument (sectionId s))) ∧
    (∃ rest, merged.sections.map sectionId =
        ((topicIds topicSplit).filter fun sid =>
          sid ∈ givenIds previousDocument ∨ sid ∈ givenIds newDocument) ++ rest ∧
      ∀ sid ∈ rest, sid ∉ topicIds topicSplit) := by
  intro merged
  have hsections : merged.sections = mergedSections newDocument previousDocument
      ((rewriteSectionIds.map strip).filter (· ≠ "")) topicSplit := rfl
  rw [hsections]
  refine ⟨?_, fun sid => ?_, fun s hs => ?_, topicIds_first⟩
  · rw [ids_mergedSections]
    exact nodup_orderedSectionIds.filter _
  · rw [ids_mergedSections, List.mem_filter, decide_eq_true_eq, mem_orderedSectionIds]
    exact and_iff_right_of_imp Or.inr
  · obtain ⟨hne, hchosen⟩ := mem_mergedSections.1 hs
    rw [← hchosen]
    unfold chosen
    simp [hne]

/-- Of two previous sections with one id only the last is preserved. -/
theorem mergeFullRegeneration_loses_duplicate :
    let first : Section := { id := some (.str "a"), heading := some "First" }
    let second : Section := { id := some (.str "a"), heading := some "Second" }
    sectionId first ∉ ["b"] ∧
      first ∉ (mergeFullRegenerationPreservingPassing { sections := [] }
        { sections := [first, second] } ["b"] []).sections := by decide

end StudyAgent.Merge
