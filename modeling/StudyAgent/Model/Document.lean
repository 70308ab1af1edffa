import Mathlib.Data.List.AList
import Mathlib.Data.List.Induction
import StudyAgent.Base.Text

/-!
# Study documents and teaching plans

The study material JSON the generator emits (sections with code blocks, formula
blocks and subsections) and the plan it is written for (the must-cover checklist
and the topic split).  A document reaches quality check only after schema
validation, so its texts are strings or absent and its lists are lists or
absent; a section id may also be `null`.

Main results:

* `mem_sectionIds` — the section ids of a document are its non-empty stripped ids.
* `lookup_buildSectionHashes` — a stored content hash is the hash of a section
  of the document, and every section with an id has one.
-/

namespace StudyAgent

open Py

/-! ## The generator's document -/

structure CodeBlock where
  language : Option String := none
  code : Option String := none
  explanation : Option String := none
  otherKeys : String := ""
  deriving DecidableEq

/-- A formula block; `mathNotation` is the source's `notation`. -/
structure FormulaBlock where
  mathNotation : Option String := none
  formula : Option String := none
  explanation : Option String := none
  otherKeys : String := ""
  deriving DecidableEq

structure Subsection where
  heading : Option String := none
  content : Option String := none
  codeBlocks : Option (List CodeBlock) := none
  formulaBlocks : Option (List FormulaBlock) := none
  otherKeys : String := ""
  deriving DecidableEq

structure Section where
  id : Option Value := none
  heading : Option String := none
  content : Option String := none
  codeBlocks : Option (List CodeBlock) := none
  formulaBlocks : Option (List FormulaBlock) := none
  subsections : Option (List Subsection) := none
  otherKeys : String := ""
  deriving DecidableEq

structure Document where
  sections : List Section
  otherKeys : String := ""
  deriving DecidableEq

/-- `str(section.get("id", "")).strip()`. -/
def Section.idText (s : Section) : String := strip (getText s.id "")

@[simp] theorem Section.strip_idText (s : Section) : strip s.idText = s.idText := strip_strip _

/-- `str(section["id"]).strip()` for a section whose id is neither absent nor
`null`. -/
def Section.givenId (s : Section) : Option String :=
  match s.id with
  | none => none
  | some .null => none
  | some v => some (strip v.text)

theorem Section.idText_of_givenId {s : Section} {sid : String} (h : s.givenId = some sid) :
    s.idText = sid := by
  unfold Section.givenId at h
  unfold Section.idText
  split at h
  next => exact absurd h (by simp)
  next => exact absurd h (by simp)
  next v _ hid => rw [hid]; simpa using h

/-- The ids by which the sections of a document are addressed. -/
def Document.sectionIds (d : Document) : List String :=
  (d.sections.map Section.idText).filter (· ≠ "")

theorem mem_sectionIds {d : Document} {sid : String} :
    sid ∈ d.sectionIds ↔ sid ≠ "" ∧ ∃ s ∈ d.sections, s.idText = sid := by
  simp only [Document.sectionIds, List.mem_filter, List.mem_map, decide_eq_true_eq]
  exact and_comm

/-! ## The teaching plan -/

inductive Priority where
  | required
  | recommended
  deriving DecidableEq

/-- A must-cover checklist item.  The plan parser strips every id it accepts. -/
structure ChecklistItem where
  id : String
  concept : String := ""
  requirement : String := ""
  priority : Priority := .recommended
  sectionId : Option String := none
  depthGate : Option String := none
  strip_id : strip id = id := by decide
  deriving DecidableEq

/-- A topic-split entry.  The plan parser drops entries without an id. -/
structure TopicSplitEntry where
  id : String
  heading : String := ""
  purpose : String := ""
  strip_id : strip id = id := by decide
  id_ne_empty : id ≠ "" := by decide
  deriving DecidableEq

/-- The document section an item is about: its topic-split id, or its own id. -/
def checklistSectionId (item : ChecklistItem) : String :=
  let sectionId := strip (item.sectionId.getD "")
  if sectionId ≠ "" then sectionId else strip item.id

/-- `expected_document_section_ids`: the topic split's ids, or without a topic
split those of the required items. -/
def expectedDocumentSectionIds (checklist : List ChecklistItem)
    (topicSplit : List TopicSplitEntry) : List String :=
  if topicSplit ≠ [] then (topicSplit.map fun e => strip e.id).filter (· ≠ "")
  else
    (checklist.filter fun item => item.priority = .required && item.id ≠ "").map fun item =>
      strip item.id

/-- `validate_section_id_coverage`: the expected ids that no section has. -/
def missingSectionIds (d : Document) (checklist : List ChecklistItem)
    (topicSplit : List TopicSplitEntry) : List String :=
  (expectedDocumentSectionIds checklist topicSplit).filter fun sid =>
    sid ∉ (d.sections.filterMap Section.givenId).filter (· ≠ "")

/-! ## Content hashes -/

section Hashes

variable {H : Type} (hash : Section → H)

/-- A map from section ids to content hashes. -/
abbrev Hashes (H : Type) := AList fun _ : String => H

/-- `build_section_hashes`: the hash of every section that has an id, the last
one when several share it. -/
def buildSectionHashes (d : Document) : Hashes H :=
  d.sections.foldl
    (fun hashes s => if s.idText ≠ "" then hashes.insert s.idText (hash s) else hashes) ∅

/-- The last section with a given id, which is the one that is hashed. -/
def lastSection (sections : List Section) (sid : String) : Option Section :=
  sections.reverse.find? fun s => s.idText = sid

variable {hash}

/-- **A stored hash is the hash of the last section with that id.** -/
theorem lookup_buildSectionHashes (d : Document) (sid : String) :
    (buildSectionHashes hash d).lookup sid =
      if sid = "" then none else (lastSection d.sections sid).map hash := by
  obtain ⟨sections, other⟩ := d
  simp only [buildSectionHashes]
  induction sections using List.reverseRecOn with
  | nil => by_cases h : sid = "" <;> simp [h, lastSection]
  | append_singleton l s ih =>
    rw [List.foldl_append, List.foldl_cons, List.foldl_nil]
    have hlast : lastSection (l ++ [s]) sid =
        if s.idText = sid then some s else lastSection l sid := by
      by_cases h : s.idText = sid <;> simp [lastSection, h]
    by_cases hempty : s.idText = ""
    · rw [if_neg (by simpa using hempty), ih]
      by_cases hsid : sid = ""
      · rw [if_pos hsid, if_pos hsid]
      · rw [if_neg hsid, if_neg hsid, hlast, if_neg fun h : s.idText = sid => hsid (h ▸ hempty)]
    · rw [if_pos (by simpa using hempty)]
      by_cases hs : s.idText = sid
      · subst hs
        rw [AList.lookup_insert, if_neg hempty, hlast, if_pos rfl, Option.map_some]
      · rw [AList.lookup_insert_ne (Ne.symm hs), ih, hlast, if_neg hs]

theorem lastSection_eq_some {sections : List Section} {sid : String} {s : Section}
    (h : lastSection sections sid = some s) : s ∈ sections ∧ s.idText = sid := by
  refine ⟨List.mem_reverse.1 (List.mem_of_find?_eq_some h), ?_⟩
  simpa using List.find?_some h

theorem exists_lastSection {sections : List Section} {s : Section} (h : s ∈ sections) :
    ∃ s', lastSection sections s.idText = some s' := by
  refine Option.isSome_iff_exists.1 (List.find?_isSome.2 ⟨s, List.mem_reverse.2 h, ?_⟩)
  simp

theorem mem_keys_buildSectionHashes {d : Document} {sid : String} :
    sid ∈ (buildSectionHashes hash d).keys ↔ sid ∈ d.sectionIds := by
  rw [← AList.mem_keys, ← AList.lookup_isSome, lookup_buildSectionHashes, mem_sectionIds]
  by_cases hsid : sid = ""
  · simp [hsid]
  · rw [if_neg hsid, Option.isSome_map, Option.isSome_iff_exists]
    constructor
    · rintro ⟨s, hs⟩
      exact ⟨hsid, s, lastSection_eq_some hs⟩
    · rintro ⟨-, s, hs, rfl⟩
      exact exists_lastSection hs

end Hashes

end StudyAgent
