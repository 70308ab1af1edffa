import StudyAgent.Base.GivenNames
import StudyAgent.Model.ChecklistIds

/-!
# Parsing a concept plan

The parser of the concept-checklist agent's response: a topic split and a
must-cover checklist, read entry by entry from two lists of JSON objects.  An entry
without an id gets one invented from its position, and a response without a usable
topic split gets one derived from the checklist.  The text of the response is left
to the JSON library; the parser is modelled from the parsed value on.

Nothing compares the two lists.  An accepted plan is well formed only if the
response was clean to begin with.

Main results:

* `accepted_wellFormed_iff` — **an accepted plan is well formed exactly when the
  response names its entries apart and points only at sections it plans.**
* `WellFormed.resolve_eq`, `WellFormed.exists_section` — what the later joins by id
  find in a well-formed plan.
* `orphaned_section` — an accepted plan with an item for a section it does not have.
-/

namespace StudyAgent.ConceptPlan

open Py

/-! ## The response -/

/-- A JSON object among the entries of a response, with the keys the two lists read.
`printed` is `str` of the whole object. -/
structure RawEntry where
  id : Option Value := none
  heading : Option Value := none
  concept : Option Value := none
  name : Option Value := none
  purpose : Option Value := none
  requirement : Option Value := none
  description : Option Value := none
  priority : Option Value := none
  sectionId : Option Value := none
  depthGate : Option Value := none
  printed : String := ""
  deriving DecidableEq

/-- What a key holds where a list is wanted.  An entry that is no object is `none`. -/
inductive RawList where
  | falsy
  | list (entries : List (Option RawEntry))
  | other
  deriving DecidableEq

/-- `parsed.get(key) or []`, if that is a list. -/
def RawList.orEmpty : RawList → Option (List (Option RawEntry))
  | falsy => some []
  | list entries => some entries
  | other => none

/-- What `_extract_checklist_json_payload` returns. -/
inductive Payload where
  | array (entries : List (Option RawEntry))
  | object (topicSplit mustCoverChecklist : RawList) (domain : Option Value)
  | other
  deriving DecidableEq

/-- The objects among the entries, with their positions from 1 on. -/
def objects (entries : List (Option RawEntry)) : List (RawEntry × ℕ) :=
  (entries.zipIdx 1).filterMap fun p => p.1.map fun item => (item, p.2)

/-! ## The parser -/

/-- The text of a truthy value. -/
def given (x : Option Value) : Option String := (x.filter Value.truthy).map Value.text

/-- `str(x or dflt)`. -/
def textOr (x : Option Value) (dflt : String) : String := (given x).getD dflt

/-- `str(item.get(key, "")).strip() or None`. -/
def strippedOrNone (x : Option Value) : Option String :=
  let text := strip (getText x "")
  if text = "" then none else some text

/-- `_validate_topic_split_entry`. -/
def validateTopicSplitEntry (item : RawEntry) (index : ℕ) : Option TopicSplitEntry :=
  let entryId := strip (textOr item.id ("ts_" ++ toString index))
  let heading := strip (textOr (pyOr item.heading item.concept) ("Section " ++ toString index))
  if h : entryId = "" ∨ heading = "" then none
  else some
    { id := entryId
      heading := heading
      purpose := strip (textOr (pyOr item.purpose item.requirement) "")
      strip_id := strip_strip _
      id_ne_empty := (not_or.1 h).1 }

/-- `_validate_checklist_entry`.  An id of blanks is kept, as the empty text. -/
def validateChecklistEntry (item : RawEntry) (index : ℕ) : ChecklistItem where
  id := strip (textOr item.id ("mc_" ++ toString index))
  concept := textOr (pyOr item.concept item.name) ("item_" ++ toString index)
  requirement := textOr (pyOr item.requirement item.description) item.printed
  priority := if item.priority = some (.str "required") then .required else .recommended
  sectionId := strippedOrNone item.sectionId
  depthGate := strippedOrNone item.depthGate
  strip_id := strip_strip _

@[simp] theorem strip_checklistSectionId (item : ChecklistItem) :
    strip (checklistSectionId item) = checklistSectionId item := by
  unfold checklistSectionId
  dsimp only
  split
  · exact strip_strip _
  · exact strip_strip _

/-- The entry made for an item at its position. -/
def derivedEntry (p : ChecklistItem × ℕ) (h : checklistSectionId p.1 ≠ "") : TopicSplitEntry where
  id := checklistSectionId p.1
  heading := if p.1.concept ≠ "" then p.1.concept else "Section " ++ toString p.2
  purpose := p.1.requirement
  strip_id := strip_checklistSectionId p.1
  id_ne_empty := h

theorem derivedEntry_id (p : ChecklistItem × ℕ) (h : checklistSectionId p.1 ≠ "") :
    (derivedEntry p h).id = checklistSectionId p.1 := by
  simp only [derivedEntry]

/-- One round of the loop of `derive_topic_split_from_checklist`. -/
def addDerived (seen : List TopicSplitEntry) (p : ChecklistItem × ℕ) : List TopicSplitEntry :=
  if h : checklistSectionId p.1 = "" then seen
  else if checklistSectionId p.1 ∈ seen.map TopicSplitEntry.id then seen
  else seen ++ [derivedEntry p h]

/-- `derive_topic_split_from_checklist`. -/
def deriveTopicSplitFromChecklist (checklist : List ChecklistItem) : List TopicSplitEntry :=
  (checklist.zipIdx 1).foldl addDerived []

/-- `_normalize_domain`. -/
def normalizeDomain (raw : Option Value) : String :=
  let domain := strip (textOr raw "")
  if domain ∈ ["STEM", "Programming", "Conceptual", "Mixed"] then domain else ""

/-- `ConceptPlanOut`. -/
structure ConceptPlanOut where
  domain : String
  topicSplit : List TopicSplitEntry
  mustCoverChecklist : List ChecklistItem
  deriving DecidableEq

/-- The checklist of a list of entries. -/
def readChecklist (entries : List (Option RawEntry)) : List ChecklistItem :=
  (objects entries).map fun p => validateChecklistEntry p.1 p.2

/-- The topic split of a list of entries. -/
def readTopicSplit (entries : List (Option RawEntry)) : List TopicSplitEntry :=
  (objects entries).filterMap fun p => validateTopicSplitEntry p.1 p.2

/-- `parse_concept_checklist_response`, from the parsed payload on. -/
def parseConceptChecklistResponse : Payload → Option ConceptPlanOut
  | .array entries =>
    let checklist := readChecklist entries
    if checklist = [] then none
    else some ⟨"", deriveTopicSplitFromChecklist checklist, checklist⟩
  | .object rawSplit rawChecklist domain =>
    match rawChecklist.orEmpty with
    | none => none
    | some entries =>
      let checklist := readChecklist entries
      if checklist = [] then none
      else
        -- a topic split that is no list counts as an empty one
        let topicSplit := readTopicSplit (rawSplit.orEmpty.getD [])
        let topicSplit :=
          if topicSplit = [] then deriveTopicSplitFromChecklist checklist else topicSplit
        some ⟨normalizeDomain domain, topicSplit, checklist⟩
  | .other => none

/-! ## Well-formed plans -/

/-- Ids that tell entries apart, and a planned section for every item. -/
structure WellFormed (plan : ConceptPlanOut) : Prop where
  split_named : ∀ e ∈ plan.topicSplit, e.id ≠ ""
  split_distinct : (plan.topicSplit.map TopicSplitEntry.id).Nodup
  items_named : ∀ item ∈ plan.mustCoverChecklist, item.id ≠ ""
  items_distinct : (plan.mustCoverChecklist.map ChecklistItem.id).Nodup
  planned : ∀ item ∈ plan.mustCoverChecklist,
    checklistSectionId item ∈ plan.topicSplit.map TopicSplitEntry.id

/-- **In a well-formed plan an item's id resolves to the item's own section.** -/
theorem WellFormed.resolve_eq {plan : ConceptPlanOut} (h : WellFormed plan)
    {item : ChecklistItem} (hitem : item ∈ plan.mustCoverChecklist) :
    resolveChecklistSectionId plan.mustCoverChecklist item.id = checklistSectionId item := by
  have hfind : (plan.mustCoverChecklist.find? fun x => strip x.id = item.id) = some item := by
    cases hfound : plan.mustCoverChecklist.find? fun x => strip x.id = item.id with
    | none =>
      have := List.find?_eq_none.1 hfound item hitem
      simp [item.strip_id] at this
    | some x =>
      have hid : strip x.id = item.id := by simpa using List.find?_some hfound
      rw [x.strip_id] at hid
      have hx : x ∈ plan.mustCoverChecklist := List.mem_of_find?_eq_some hfound
      rw [List.inj_on_of_nodup_map h.items_distinct hx hitem hid]
  unfold resolveChecklistSectionId
  rw [item.strip_id]
  dsimp only
  rw [if_neg (h.items_named item hitem), hfind]

/-- **Every item of a well-formed plan has exactly one section to be covered in.** -/
theorem WellFormed.exists_section {plan : ConceptPlanOut} (h : WellFormed plan)
    {item : ChecklistItem} (hitem : item ∈ plan.mustCoverChecklist) :
    ∃ e ∈ plan.topicSplit, e.id = checklistSectionId item ∧
      ∀ e' ∈ plan.topicSplit, e'.id = checklistSectionId item → e' = e := by
  obtain ⟨e, he, hid⟩ := List.mem_map.1 (h.planned item hitem)
  refine ⟨e, he, hid, fun e' he' hid' => ?_⟩
  exact List.inj_on_of_nodup_map h.split_distinct he' he (hid'.trans hid.symm)

/-! ## Derived topic splits -/

/-- One round adds the item's section id, if it has one and it is new. -/
theorem mem_addDerived_iff {seen : List TopicSplitEntry} {p : ChecklistItem × ℕ} {sid : String} :
    sid ∈ (addDerived seen p).map TopicSplitEntry.id ↔
      sid ∈ seen.map TopicSplitEntry.id ∨ sid ≠ "" ∧ sid = checklistSectionId p.1 := by
  unfold addDerived
  split
  next hempty =>
    refine (or_iff_left ?_).symm
    rintro ⟨hne, heq⟩
    rw [heq] at hne
    exact hne hempty
  next hempty =>
    split
    next hseen =>
      refine (or_iff_left_of_imp ?_).symm
      rintro ⟨-, heq⟩
      rw [heq]
      exact hseen
    next =>
      rw [List.map_append, List.mem_append, List.map_singleton, derivedEntry_id,
        List.mem_singleton]
      refine or_congr_right ⟨fun h => ⟨?_, h⟩, And.right⟩
      rw [h]
      exact hempty

theorem addDerived_nodup {seen : List TopicSplitEntry} (p : ChecklistItem × ℕ)
    (h : (seen.map TopicSplitEntry.id).Nodup) :
    ((addDerived seen p).map TopicSplitEntry.id).Nodup := by
  unfold addDerived
  split
  next => exact h
  next =>
    split
    next => exact h
    next hseen =>
      rw [List.map_append, List.map_singleton, derivedEntry_id]
      exact List.nodup_append'.2 ⟨h, List.nodup_singleton _, List.disjoint_singleton.2 hseen⟩

/-- **A derived topic split has no id twice.** -/
theorem derived_nodup (checklist : List ChecklistItem) :
    ((deriveTopicSplitFromChecklist checklist).map TopicSplitEntry.id).Nodup := by
  have hloop : ∀ (l : List (ChecklistItem × ℕ)) (seen : List TopicSplitEntry),
      (seen.map TopicSplitEntry.id).Nodup →
        ((l.foldl addDerived seen).map TopicSplitEntry.id).Nodup := by
    intro l
    induction l with
    | nil =>
      intro seen h
      exact h
    | cons p l ih =>
      intro seen h
      rw [List.foldl_cons]
      exact ih (addDerived seen p) (addDerived_nodup p h)
  exact hloop (checklist.zipIdx 1) [] List.nodup_nil

/-- **It has the non-empty section ids of the checklist.** -/
theorem mem_derived_iff {checklist : List ChecklistItem} {sid : String} :
    sid ∈ (deriveTopicSplitFromChecklist checklist).map TopicSplitEntry.id ↔
      sid ≠ "" ∧ ∃ item ∈ checklist, checklistSectionId item = sid := by
  have hloop : ∀ (l : List (ChecklistItem × ℕ)) (seen : List TopicSplitEntry),
      sid ∈ (l.foldl addDerived seen).map TopicSplitEntry.id ↔
        sid ∈ seen.map TopicSplitEntry.id ∨
          sid ≠ "" ∧ ∃ item ∈ l.map Prod.fst, checklistSectionId item = sid := by
    intro l
    induction l with
    | nil => simp
    | cons p l ih =>
      intro seen
      rw [List.foldl_cons, ih, mem_addDerived_iff, or_assoc, ← and_or_left, List.map_cons,
        List.exists_mem_cons_iff, eq_comm]
  unfold deriveTopicSplitFromChecklist
  rw [hloop, List.zipIdx_map_fst]
  simp

/-! ## Positions -/

theorem objects_positions (entries : List (Option RawEntry)) :
    ((objects entries).map Prod.snd).Nodup := by
  have hall : ((entries.zipIdx 1).map Prod.snd).Nodup := by
    rw [List.zipIdx_map_snd]
    exact List.nodup_range'
  unfold objects
  rw [List.Nodup, List.pairwise_map, List.pairwise_filterMap]
  rw [List.Nodup, List.pairwise_map] at hall
  refine hall.imp ?_
  intro p q hne a ha b hb
  obtain ⟨x, -, rfl⟩ := Option.map_eq_some_iff.1 ha
  obtain ⟨y, -, rfl⟩ := Option.map_eq_some_iff.1 hb
  exact hne

/-! ## Clean responses -/

/-- The id an object gives; one of blanks counts as the empty text. -/
def RawEntry.givenId (item : RawEntry) : Option String := (given item.id).map strip

/-- The heading an object gives. -/
def RawEntry.givenHeading (item : RawEntry) : Option String :=
  (given (pyOr item.heading item.concept)).map strip

/-- The id for an object at its position, its own or an invented one. -/
def entryName (pre : String) : RawEntry × ℕ → String :=
  GivenNames.name (fun p => p.1.givenId) fun p => pre ++ toString p.2

/-- The ids of some objects tell them apart. -/
abbrev NamedApart (pre : String) (l : List (RawEntry × ℕ)) : Prop :=
  GivenNames.Apart (fun p => p.1.givenId) (fun p => pre ++ toString p.2) l

/-- The section an object of the checklist points to. -/
def sectionName (p : RawEntry × ℕ) : String :=
  (strippedOrNone p.1.sectionId).getD (entryName "mc_" p)

/-- The objects of the checklist. -/
def Payload.items : Payload → List (RawEntry × ℕ)
  | .array entries => objects entries
  | .object _ rawChecklist _ => objects (rawChecklist.orEmpty.getD [])
  | .other => []

/-- The objects of the topic split whose id and heading are not blank. -/
def Payload.sections : Payload → List (RawEntry × ℕ)
  | .object rawSplit _ _ =>
    (objects (rawSplit.orEmpty.getD [])).filter fun p =>
      p.1.givenId ≠ some "" ∧ p.1.givenHeading ≠ some ""
  | _ => []

/-- A response without blank checklist ids, in which no two entries share an id, no
given id is one that is invented for another entry, and no item points to a section
that is left out. -/
structure Payload.Clean (r : Payload) : Prop where
  no_blank : ∀ p ∈ r.items, p.1.givenId ≠ some ""
  items_apart : NamedApart "mc_" r.items
  sections_apart : NamedApart "ts_" r.sections
  no_orphan : r.sections ≠ [] → ∀ p ∈ r.items, sectionName p ∈ r.sections.map (entryName "ts_")

theorem entryName_eq (pre : String) (p : RawEntry × ℕ) :
    entryName pre p = p.1.givenId.getD (pre ++ toString p.2) := rfl

theorem strip_textOr {x : Option Value} {dflt : String} (h : strip dflt = dflt) :
    strip (textOr x dflt) = ((given x).map strip).getD dflt := by
  unfold textOr
  cases given x with
  | none => rw [Option.getD_none, h, Option.map_none, Option.getD_none]
  | some text => rw [Option.getD_some, Option.map_some, Option.getD_some]

/-- The validated id is the entry's name. -/
theorem strip_textOr_id {pre : String} {c : Char} (hpre : pre.toList.head? = some c)
    (hc : isSpace c = false) (p : RawEntry × ℕ) :
    strip (textOr p.1.id (pre ++ toString p.2)) = entryName pre p :=
  strip_textOr (strip_append_toString hpre hc p.2)

/-- An entry's name is empty exactly when it gives a blank id. -/
theorem entryName_eq_empty_iff {pre : String} {c : Char} (hpre : pre.toList.head? = some c)
    {p : RawEntry × ℕ} : entryName pre p = "" ↔ p.1.givenId = some "" := by
  rw [entryName_eq]
  cases p.1.givenId with
  | none =>
    rw [Option.getD_none]
    exact iff_of_false (append_toString_ne_empty hpre p.2) (Option.some_ne_none "").symm
  | some x => rw [Option.getD_some, Option.some_inj]

theorem validateChecklistEntry_id (p : RawEntry × ℕ) :
    (validateChecklistEntry p.1 p.2).id = entryName "mc_" p :=
  strip_textOr_id (c := 'm') (by decide) (by decide) p

/-- The validated item points where the object did. -/
theorem checklistSectionId_validateChecklistEntry (p : RawEntry × ℕ) :
    checklistSectionId (validateChecklistEntry p.1 p.2) = sectionName p := by
  have hsection : (validateChecklistEntry p.1 p.2).sectionId = strippedOrNone p.1.sectionId := by
    simp only [validateChecklistEntry]
  unfold checklistSectionId sectionName
  rw [ChecklistItem.strip_id, validateChecklistEntry_id, hsection]
  unfold strippedOrNone
  by_cases h : strip (getText p.1.sectionId "") = ""
  · simp [h]
  · simp [h]

theorem sectionName_ne_empty {p : RawEntry × ℕ} (h : p.1.givenId ≠ some "") :
    sectionName p ≠ "" := by
  unfold sectionName strippedOrNone
  dsimp only
  split
  next => exact fun hempty => h ((entryName_eq_empty_iff (c := 'm') (by decide)).1 hempty)
  next hne => exact hne

/-- An object of the topic split is kept, under its name, unless it gives a blank id or
heading. -/
theorem validateTopicSplitEntry_id (p : RawEntry × ℕ) :
    (validateTopicSplitEntry p.1 p.2).map TopicSplitEntry.id =
      if p.1.givenId ≠ some "" ∧ p.1.givenHeading ≠ some "" then some (entryName "ts_" p)
      else none := by
  have hid : strip (textOr p.1.id ("ts_" ++ toString p.2)) = entryName "ts_" p :=
    strip_textOr_id (c := 't') (by decide) (by decide) p
  have hheading : strip (textOr (pyOr p.1.heading p.1.concept) ("Section " ++ toString p.2)) = "" ↔
      p.1.givenHeading = some "" := by
    rw [strip_textOr (strip_append_toString (c := 'S') (by decide) (by decide) p.2)]
    show p.1.givenHeading.getD _ = "" ↔ _
    cases p.1.givenHeading with
    | none =>
      rw [Option.getD_none]
      exact iff_of_false (append_toString_ne_empty (c := 'S') (by decide) p.2)
        (Option.some_ne_none "").symm
    | some x => rw [Option.getD_some, Option.some_inj]
  have hname : entryName "ts_" p = "" ↔ p.1.givenId = some "" :=
    entryName_eq_empty_iff (c := 't') (by decide)
  have hdropped : (entryName "ts_" p = "" ∨
      strip (textOr (pyOr p.1.heading p.1.concept) ("Section " ++ toString p.2)) = "") ↔
      ¬ (p.1.givenId ≠ some "" ∧ p.1.givenHeading ≠ some "") := by
    rw [hname, hheading, not_and_or, not_ne_iff, not_ne_iff]
  rw [← hid] at hdropped
  unfold validateTopicSplitEntry
  dsimp only
  split
  next h => rw [if_neg (hdropped.1 h), Option.map_none]
  next h =>
    have hkept := not_not.1 (mt hdropped.2 h)
    rw [if_pos hkept]
    exact congrArg some hid

theorem readTopicSplit_ids (entries : List (Option RawEntry)) :
    (readTopicSplit entries).map TopicSplitEntry.id =
      ((objects entries).filter fun p =>
        p.1.givenId ≠ some "" ∧ p.1.givenHeading ≠ some "").map (entryName "ts_") := by
  unfold readTopicSplit
  rw [List.map_filterMap, ← List.filterMap_eq_map, List.filterMap_filter]
  refine List.filterMap_congr fun p _ => ?_
  rw [validateTopicSplitEntry_id]
  simp

/-- What is accepted of a response with a topic split. -/
theorem parse_object_eq_some {rawSplit rawChecklist : RawList} {domain : Option Value}
    {plan : ConceptPlanOut}
    (h : parseConceptChecklistResponse (.object rawSplit rawChecklist domain) = some plan) :
    ∃ entries, rawChecklist.orEmpty = some entries ∧
      plan.mustCoverChecklist = readChecklist entries ∧
      plan.topicSplit =
        if readTopicSplit (rawSplit.orEmpty.getD []) = [] then
          deriveTopicSplitFromChecklist (readChecklist entries)
        else readTopicSplit (rawSplit.orEmpty.getD []) := by
  cases hraw : rawChecklist.orEmpty with
  | none =>
    simp only [parseConceptChecklistResponse, hraw] at h
    cases h
  | some entries =>
    simp only [parseConceptChecklistResponse, hraw] at h
    obtain ⟨-, hplan⟩ := Option.ite_none_left_eq_some.1 h
    rw [← Option.some_inj.1 hplan]
    exact ⟨entries, rfl, rfl, rfl⟩

/-- An accepted checklist is made from the objects, one item for each. -/
theorem mustCoverChecklist_eq {r : Payload} {plan : ConceptPlanOut}
    (h : parseConceptChecklistResponse r = some plan) :
    plan.mustCoverChecklist = r.items.map fun p => validateChecklistEntry p.1 p.2 := by
  cases r with
  | array entries =>
    obtain ⟨-, hplan⟩ := Option.ite_none_left_eq_some.1 h
    rw [← Option.some_inj.1 hplan]
    rfl
  | object rawSplit rawChecklist domain =>
    obtain ⟨entries, hraw, hitems, -⟩ := parse_object_eq_some h
    rw [hitems, Payload.items, hraw, Option.getD_some]
    rfl
  | other => cases h

/-- An accepted topic split has the kept objects, or is derived when there are none. -/
theorem topicSplit_cases {r : Payload} {plan : ConceptPlanOut}
    (h : parseConceptChecklistResponse r = some plan) :
    (r.sections ≠ [] ∧
        plan.topicSplit.map TopicSplitEntry.id = r.sections.map (entryName "ts_")) ∨
      (r.sections = [] ∧
        plan.topicSplit = deriveTopicSplitFromChecklist plan.mustCoverChecklist) := by
  cases r with
  | array entries =>
    obtain ⟨-, hplan⟩ := Option.ite_none_left_eq_some.1 h
    rw [← Option.some_inj.1 hplan]
    exact Or.inr ⟨rfl, rfl⟩
  | object rawSplit rawChecklist domain =>
    obtain ⟨entries, -, hitems, hsplit⟩ := parse_object_eq_some h
    have hids := readTopicSplit_ids (rawSplit.orEmpty.getD [])
    have hnil : (Payload.object rawSplit rawChecklist domain).sections = [] ↔
        readTopicSplit (rawSplit.orEmpty.getD []) = [] := by
      rw [← List.map_eq_nil_iff (f := entryName "ts_"), Payload.sections, ← hids,
        List.map_eq_nil_iff]
    rw [hitems, hsplit]
    by_cases hempty : readTopicSplit (rawSplit.orEmpty.getD []) = []
    · exact Or.inr ⟨hnil.2 hempty, if_pos hempty⟩
    · refine Or.inl ⟨fun h => hempty (hnil.1 h), ?_⟩
      rw [if_neg hempty]
      exact hids
  | other => cases h

theorem nodup_entryName_iff {pre : String} {l : List (RawEntry × ℕ)}
    (h : (l.map Prod.snd).Nodup) : (l.map (entryName pre)).Nodup ↔ NamedApart pre l := by
  refine GivenNames.nodup_map_name_iff ?_
  have hmap : (l.map fun p => pre ++ toString p.2) =
      (l.map Prod.snd).map fun index => pre ++ toString index := by
    rw [List.map_map]
    rfl
  rw [hmap]
  exact h.map (append_toString_injective pre)

theorem Payload.items_positions (r : Payload) : (r.items.map Prod.snd).Nodup := by
  cases r with
  | array entries => exact objects_positions entries
  | object rawSplit rawChecklist domain => exact objects_positions _
  | other => exact List.nodup_nil

theorem Payload.sections_positions (r : Payload) : (r.sections.map Prod.snd).Nodup := by
  cases r with
  | array entries => exact List.nodup_nil
  | object rawSplit rawChecklist domain =>
    exact (objects_positions _).sublist (List.filter_sublist.map Prod.snd)
  | other => exact List.nodup_nil

/-! ## What a clean response is for -/

section Accepted

variable {r : Payload} {plan : ConceptPlanOut} (h : parseConceptChecklistResponse r = some plan)
include h

theorem items_named_iff :
    (∀ item ∈ plan.mustCoverChecklist, item.id ≠ "") ↔ ∀ p ∈ r.items, p.1.givenId ≠ some "" := by
  rw [mustCoverChecklist_eq h, List.forall_mem_map]
  refine forall₂_congr fun p _ => not_congr ?_
  rw [validateChecklistEntry_id]
  exact entryName_eq_empty_iff (c := 'm') (by decide)

theorem items_distinct_iff :
    (plan.mustCoverChecklist.map ChecklistItem.id).Nodup ↔ NamedApart "mc_" r.items := by
  rw [← nodup_entryName_iff r.items_positions, mustCoverChecklist_eq h, List.map_map]
  have hids : ∀ p ∈ r.items,
      (ChecklistItem.id ∘ fun p => validateChecklistEntry p.1 p.2) p = entryName "mc_" p :=
    fun p _ => validateChecklistEntry_id p
  rw [List.map_congr_left hids]

theorem split_distinct_iff :
    (plan.topicSplit.map TopicSplitEntry.id).Nodup ↔ NamedApart "ts_" r.sections := by
  rw [← nodup_entryName_iff r.sections_positions]
  rcases topicSplit_cases h with ⟨-, hsplit⟩ | ⟨hnone, hsplit⟩
  · rw [hsplit]
  · rw [hsplit, hnone]
    exact iff_of_true (derived_nodup _) List.nodup_nil

/-- Of a derived topic split nothing is asked but that the ids are no blanks. -/
theorem planned_iff (hnamed : ∀ p ∈ r.items, p.1.givenId ≠ some "") :
    (∀ item ∈ plan.mustCoverChecklist,
        checklistSectionId item ∈ plan.topicSplit.map TopicSplitEntry.id) ↔
      (r.sections ≠ [] → ∀ p ∈ r.items, sectionName p ∈ r.sections.map (entryName "ts_")) := by
  rcases topicSplit_cases h with ⟨hkept, hsplit⟩ | ⟨hnone, hsplit⟩
  · rw [hsplit, imp_iff_right hkept, mustCoverChecklist_eq h, List.forall_mem_map]
    refine forall₂_congr fun p _ => ?_
    rw [checklistSectionId_validateChecklistEntry]
  · refine iff_of_true ?_ fun hkept => absurd hnone hkept
    intro item hitem
    rw [hsplit]
    refine mem_derived_iff.2 ⟨?_, item, hitem, rfl⟩
    rw [mustCoverChecklist_eq h] at hitem
    obtain ⟨p, hp, rfl⟩ := List.mem_map.1 hitem
    rw [checklistSectionId_validateChecklistEntry]
    exact sectionName_ne_empty (hnamed p hp)

end Accepted

/-- **An accepted plan is well formed exactly when the response was clean.** -/
theorem accepted_wellFormed_iff {r : Payload} {plan : ConceptPlanOut}
    (h : parseConceptChecklistResponse r = some plan) : WellFormed plan ↔ r.Clean := by
  constructor
  · intro hplan
    have hnamed := (items_named_iff h).1 hplan.items_named
    exact
      { no_blank := hnamed
        items_apart := (items_distinct_iff h).1 hplan.items_distinct
        sections_apart := (split_distinct_iff h).1 hplan.split_distinct
        no_orphan := (planned_iff h hnamed).1 hplan.planned }
  · intro hclean
    exact
      { split_named := fun e _ => e.id_ne_empty
        split_distinct := (split_distinct_iff h).2 hclean.sections_apart
        items_named := (items_named_iff h).2 hclean.no_blank
        items_distinct := (items_distinct_iff h).2 hclean.items_apart
        planned := (planned_iff h hclean.no_blank).2 hclean.no_orphan }

/-! ## Responses -/

/-- An object with an id and a section id. -/
def rawItem (id sectionId : Option String) : Option RawEntry :=
  some { id := id.map Value.str, sectionId := sectionId.map Value.str,
         concept := some (.str "Hooks"), requirement := some (.str "Explain useState.") }

/-- One section, and one item that points to it. -/
def plannedResponse : Payload :=
  .object (.list [rawItem (some "ts_1") none]) (.list [rawItem none (some "ts_1")]) none

/-- It gives a well-formed plan. -/
theorem planned_wellFormed :
    ∃ plan, parseConceptChecklistResponse plannedResponse = some plan ∧ WellFormed plan := by
  have hclean : plannedResponse.Clean :=
    { no_blank := by decide
      items_apart := by decide
      sections_apart := by decide
      no_orphan := by decide }
  exact ⟨_, rfl, (accepted_wellFormed_iff rfl).2 hclean⟩

/-- One section, and one item that points to the seventh. -/
def orphanResponse : Payload :=
  .object (.list [rawItem (some "ts_1") none]) (.list [rawItem (some "mc_1") (some "ts_7")]) none

/-- **The plan is accepted, with an item that no section covers.** -/
theorem orphaned_section :
    ¬ ∀ (r : Payload) (plan : ConceptPlanOut),
      parseConceptChecklistResponse r = some plan → WellFormed plan := by
  intro hall
  have hplan := hall orphanResponse _ rfl
  exact absurd hplan.planned (by decide)

end StudyAgent.ConceptPlan
