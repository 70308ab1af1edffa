import StudyAgent.Model.Document

/-!
# The generator's insert phase

The items a `section_insert` prompt asks for: the checklist items that are
missing, and for a missing id without one an item made from its topic-split
entry.  An id that has neither is passed over without a word.

Main results:

* `exists_missingItem_iff` — an id finds an item exactly when it is buildable.
-/

namespace StudyAgent.InsertPhase

open Py

section

variable (checklist : List ChecklistItem) (topicSplit : List TopicSplitEntry)

/-- The id of a checklist item or of a topic-split section. -/
def Buildable (itemId : String) : Prop :=
  (∃ item ∈ checklist, item.id = itemId) ∨ ∃ e ∈ topicSplit, strip e.id = itemId

instance (itemId : String) : Decidable (Buildable checklist topicSplit itemId) :=
  inferInstanceAs (Decidable (_ ∨ _))

/-- `topic_split_by_id`, looked up; the last entry of an id counts. -/
def topicSplitById (itemId : String) : Option TopicSplitEntry :=
  topicSplit.reverse.find? fun e => strip e.id ≠ "" && strip e.id = itemId

/-- The item made from a topic-split entry. -/
def topicSplitItem (e : TopicSplitEntry) : ChecklistItem where
  id := strip e.id
  sectionId := some (strip e.id)
  concept := if e.heading ≠ "" then e.heading else strip e.id
  requirement := e.purpose
  priority := .required
  strip_id := strip_strip _

/-- One round of the loop over the missing ids. -/
def addMissingItem (items : List ChecklistItem) (missingId : String) : List ChecklistItem :=
  if items.any fun item => item.id = missingId then items
  else
    match topicSplitById topicSplit missingId with
    | none => items
    | some e => items ++ [topicSplitItem e]

/-- `missing_items` of `_build_section_insert_messages`. -/
def missingItems (missingIds : List String) : List ChecklistItem :=
  (sortedSet missingIds).foldl (addMissingItem topicSplit)
    (checklist.filter fun item => item.id ∈ missingIds)

end

section

variable {checklist : List ChecklistItem} {topicSplit : List TopicSplitEntry}

theorem topicSplitById_eq_some {itemId : String} {e : TopicSplitEntry}
    (h : topicSplitById topicSplit itemId = some e) : e ∈ topicSplit ∧ strip e.id = itemId := by
  refine ⟨List.mem_reverse.1 (List.mem_of_find?_eq_some h), ?_⟩
  have hfound := List.find?_some h
  simp only [Bool.and_eq_true, decide_eq_true_eq] at hfound
  exact hfound.2

theorem topicSplitById_eq_none {itemId : String} :
    topicSplitById topicSplit itemId = none ↔ ¬ ∃ e ∈ topicSplit, strip e.id = itemId := by
  unfold topicSplitById
  rw [List.find?_eq_none]
  have hne : ∀ e : TopicSplitEntry, strip e.id ≠ "" := by
    intro e
    rw [e.strip_id]
    exact e.id_ne_empty
  simp [hne]

/-- One round adds an item for its own id, if there is an entry, and nothing else. -/
theorem exists_addMissingItem_iff {items : List ChecklistItem} {missingId itemId : String} :
    (∃ item ∈ addMissingItem topicSplit items missingId, item.id = itemId) ↔
      (∃ item ∈ items, item.id = itemId) ∨
        (itemId = missingId ∧ ∃ e ∈ topicSplit, strip e.id = itemId) := by
  unfold addMissingItem
  split
  next hany =>
    refine (or_iff_left_of_imp ?_).symm
    rintro ⟨rfl, -⟩
    simpa using hany
  next =>
    cases hentry : topicSplitById topicSplit missingId with
    | none =>
      refine (or_iff_left_of_imp ?_).symm
      rintro ⟨rfl, hex⟩
      exact absurd hex (topicSplitById_eq_none.1 hentry)
    | some e =>
      obtain ⟨he, hid⟩ := topicSplitById_eq_some hentry
      simp only [List.mem_append, List.mem_singleton, or_and_right, exists_or, exists_eq_left]
      refine or_congr_right ?_
      show strip e.id = itemId ↔ _
      constructor
      · intro h
        exact ⟨h.symm.trans hid, e, he, h⟩
      · rintro ⟨h, -⟩
        rw [hid, h]

/-- **A missing id finds an item exactly when it is buildable.** -/
theorem exists_missingItem_iff {missingIds : List String} {itemId : String}
    (h : itemId ∈ missingIds) :
    (∃ item ∈ missingItems checklist topicSplit missingIds, item.id = itemId) ↔
      Buildable checklist topicSplit itemId := by
  have hloop : ∀ (ids : List String) (items : List ChecklistItem),
      (∃ item ∈ ids.foldl (addMissingItem topicSplit) items, item.id = itemId) ↔
        (∃ item ∈ items, item.id = itemId) ∨
          (itemId ∈ ids ∧ ∃ e ∈ topicSplit, strip e.id = itemId) := by
    intro ids
    induction ids with
    | nil => simp
    | cons a l ih =>
      intro items
      rw [List.foldl_cons, ih, exists_addMissingItem_iff, List.mem_cons, or_and_right, or_assoc]
  unfold missingItems Buildable
  rw [hloop]
  refine or_congr ?_ (and_iff_right (mem_sortedSet.2 h))
  constructor
  · rintro ⟨item, hitem, hid⟩
    exact ⟨item, (List.mem_filter.1 hitem).1, hid⟩
  · rintro ⟨item, hitem, rfl⟩
    exact ⟨item, List.mem_filter.2 ⟨hitem, by simpa using h⟩, rfl⟩

end

end StudyAgent.InsertPhase
