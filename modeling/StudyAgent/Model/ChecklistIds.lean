import StudyAgent.Model.Check

/-!
# Checklist ids

Verifiers name checklist items loosely (`3` for `mc_3`); these functions map such
names to the ids of the plan and the ids to the document sections they are
about, and rewrite a check's own ids accordingly.

Main results:

* `normalizeChecklistId_cases` — a normalised id is an id of the checklist or
  the stripped text itself.
* `normalizeChecklistId_idem` — normalising twice changes nothing.
* `normalizeIds_failed`, `normalizeIds_category` — rewriting ids never touches a
  verdict or a category.
-/

namespace StudyAgent

open Py

/-! ## Ids -/

/-- `normalize_checklist_id`: map bare numeric ids to checklist ids. -/
def normalizeChecklistId (checkId : String) (checklist : List ChecklistItem) : String :=
  let raw := strip checkId
  if raw = "" ∨ checklist = [] then raw
  else
    let validIds := checklist.map ChecklistItem.id
    if raw ∈ validIds then raw
    else if "mc_" ++ raw ∈ validIds then "mc_" ++ raw
    else
      match checklist.find? fun item => endsWith item.id ("_" ++ raw) || item.id = raw with
      | some item => item.id
      | none => raw

/-- `resolve_checklist_section_id`: the document section an item id targets. -/
def resolveChecklistSectionId (checklist : List ChecklistItem) (itemId : String) : String :=
  let raw := strip itemId
  if raw = "" then raw
  else
    match checklist.find? fun item => strip item.id = raw with
    | some item => checklistSectionId item
    | none => raw

/-- A normalised id is an id of the checklist or the stripped text itself. -/
theorem normalizeChecklistId_cases (s : String) (checklist : List ChecklistItem) :
    (∃ item ∈ checklist, item.id = normalizeChecklistId s checklist) ∨
      normalizeChecklistId s checklist = strip s := by
  unfold normalizeChecklistId
  by_cases hempty : strip s = "" ∨ checklist = []
  · exact Or.inr (if_pos hempty)
  · rw [if_neg hempty]
    by_cases hraw : strip s ∈ checklist.map ChecklistItem.id
    · rw [if_pos hraw]
      exact Or.inr rfl
    · rw [if_neg hraw]
      by_cases hmc : "mc_" ++ strip s ∈ checklist.map ChecklistItem.id
      · rw [if_pos hmc]
        obtain ⟨item, hitem, hid⟩ := List.mem_map.1 hmc
        exact Or.inl ⟨item, hitem, hid⟩
      · rw [if_neg hmc]
        split
        next item hfind => exact Or.inl ⟨item, List.mem_of_find?_eq_some hfind, rfl⟩
        next => exact Or.inr rfl

@[simp] theorem strip_normalizeChecklistId (s : String) (checklist : List ChecklistItem) :
    strip (normalizeChecklistId s checklist) = normalizeChecklistId s checklist := by
  rcases normalizeChecklistId_cases s checklist with ⟨item, -, hid⟩ | h
  · rw [← hid, item.strip_id]
  · rw [h, strip_strip]

/-- An id of the checklist is its own normal form. -/
theorem normalizeChecklistId_of_mem {checklist : List ChecklistItem} {item : ChecklistItem}
    (h : item ∈ checklist) : normalizeChecklistId item.id checklist = item.id := by
  unfold normalizeChecklistId
  rw [item.strip_id]
  by_cases hempty : item.id = "" ∨ checklist = []
  · exact if_pos hempty
  · rw [if_neg hempty, if_pos (List.mem_map_of_mem h)]

/-- A named item resolves to a named section. -/
theorem resolveChecklistSectionId_ne_empty {checklist : List ChecklistItem} {itemId : String}
    (hne : itemId ≠ "") (hstrip : strip itemId = itemId) :
    resolveChecklistSectionId checklist itemId ≠ "" := by
  unfold resolveChecklistSectionId
  rw [hstrip, if_neg hne]
  split
  next item hfind =>
    have hid : strip item.id = itemId := by simpa using List.find?_some hfind
    unfold checklistSectionId
    dsimp only
    split
    next hsec => exact hsec
    next => rw [hid]; exact hne
  next => exact hne

/-- **Normalising an id twice changes nothing.** -/
@[simp] theorem normalizeChecklistId_idem (s : String) (checklist : List ChecklistItem) :
    normalizeChecklistId (normalizeChecklistId s checklist) checklist =
      normalizeChecklistId s checklist := by
  rcases normalizeChecklistId_cases s checklist with ⟨item, hitem, hid⟩ | h
  · rw [← hid, normalizeChecklistId_of_mem hitem]
  · rw [h]
    nth_rewrite 2 [← h]
    unfold normalizeChecklistId
    rw [strip_strip]

@[simp] theorem normalizeChecklistId_nil (s : String) : normalizeChecklistId s [] = strip s :=
  if_pos (Or.inr rfl)

/-! ## Rewriting the ids of a check -/

/-- `normalize_checklist_ids` on one check: a must_cover check gets the
normalised id as both its ids. -/
def normalizeCheckIds (checklist : List ChecklistItem) (c : Check) : Check :=
  if getText c.category "None" ≠ "must_cover" then c
  else
    match pyOr c.checklistId c.id with
    | some raw =>
      if raw.truthy then c.setChecklist (normalizeChecklistId raw.text checklist) else c
    | none => c

/-- `normalize_checklist_ids`. -/
def normalizeChecklistIds (checks : List Check) (checklist : List ChecklistItem) :
    List Check :=
  if checklist = [] then checks else checks.map (normalizeCheckIds checklist)

/-- `normalize_must_cover_section_ids` on one check: fill in or correct the
section id from the checklist. -/
def normalizeCheckSection (checklist : List ChecklistItem) (c : Check) : Check :=
  if getText c.category "None" ≠ "must_cover" then c
  else
    match pyOr c.checklistId c.id with
    | some raw =>
      if raw.truthy then
        let canonical :=
          resolveChecklistSectionId checklist (normalizeChecklistId raw.text checklist)
        if canonical = "" then c
        else if c.sectionText = canonical then c
        else c.setSection canonical
      else c
    | none => c

/-- `normalize_must_cover_section_ids`. -/
def normalizeMustCoverSectionIds (checks : List Check) (checklist : List ChecklistItem) :
    List Check :=
  if checklist = [] then checks else checks.map (normalizeCheckSection checklist)

/-- Both rewritings, as the result builder applies them to each check. -/
def normalizeIds (checklist : List ChecklistItem) (c : Check) : Check :=
  if checklist = [] then c
  else normalizeCheckSection checklist (normalizeCheckIds checklist c)

theorem normalize_eq_map (checks : List Check) (checklist : List ChecklistItem) :
    normalizeMustCoverSectionIds (normalizeChecklistIds checks checklist) checklist =
      checks.map (normalizeIds checklist) := by
  unfold normalizeMustCoverSectionIds normalizeChecklistIds normalizeIds
  by_cases h : checklist = []
  · simp [h]
  · simp [h]

/-- The first rewriting leaves a check alone or sets its ids. -/
theorem normalizeCheckIds_cases (checklist : List ChecklistItem) (c : Check) :
    normalizeCheckIds checklist c = c ∨
      ∃ itemId, normalizeCheckIds checklist c = c.setChecklist itemId := by
  unfold normalizeCheckIds
  split
  · exact Or.inl rfl
  · split
    · split
      · exact Or.inr ⟨_, rfl⟩
      · exact Or.inl rfl
    · exact Or.inl rfl

/-- The second leaves a check alone or sets its section. -/
theorem normalizeCheckSection_cases (checklist : List ChecklistItem) (c : Check) :
    normalizeCheckSection checklist c = c ∨
      ∃ sid, normalizeCheckSection checklist c = c.setSection sid := by
  unfold normalizeCheckSection
  split
  · exact Or.inl rfl
  · split
    · split
      · dsimp only
        split
        · exact Or.inl rfl
        · split
          · exact Or.inl rfl
          · exact Or.inr ⟨_, rfl⟩
      · exact Or.inl rfl
    · exact Or.inl rfl

/-- What both rewritings keep, their composition keeps. -/
theorem normalizeIds_keeps {β : Type} (f : Check → β)
    (hids : ∀ c itemId, f (Check.setChecklist c itemId) = f c)
    (hsec : ∀ c sid, f (Check.setSection c sid) = f c)
    (checklist : List ChecklistItem) (c : Check) : f (normalizeIds checklist c) = f c := by
  have hfirst : f (normalizeCheckIds checklist c) = f c := by
    rcases normalizeCheckIds_cases checklist c with h | ⟨itemId, h⟩
    · rw [h]
    · rw [h, hids]
  unfold normalizeIds
  split
  · rfl
  · rcases normalizeCheckSection_cases checklist (normalizeCheckIds checklist c) with h | ⟨sid, h⟩
    · rw [h, hfirst]
    · rw [h, hsec, hfirst]

@[simp] theorem normalizeIds_passed (checklist : List ChecklistItem) (c : Check) :
    (normalizeIds checklist c).passed = c.passed :=
  normalizeIds_keeps Check.passed (fun _ _ => rfl) (fun _ _ => rfl) checklist c

@[simp] theorem normalizeIds_category (checklist : List ChecklistItem) (c : Check) :
    (normalizeIds checklist c).category = c.category :=
  normalizeIds_keeps Check.category (fun _ _ => rfl) (fun _ _ => rfl) checklist c

@[simp] theorem normalizeIds_correctiveHint (checklist : List ChecklistItem) (c : Check) :
    (normalizeIds checklist c).correctiveHint = c.correctiveHint :=
  normalizeIds_keeps Check.correctiveHint (fun _ _ => rfl) (fun _ _ => rfl) checklist c

@[simp] theorem normalizeIds_failed (checklist : List ChecklistItem) (c : Check) :
    (normalizeIds checklist c).failed = c.failed := by
  simp [Check.failed, Check.isPassed]

/-- Only must_cover checks are rewritten. -/
theorem normalizeIds_of_ne {checklist : List ChecklistItem} {c : Check}
    (h : c.categoryText ≠ "must_cover") : normalizeIds checklist c = c := by
  have hcat : getText c.category "None" ≠ "must_cover" := by
    unfold Check.categoryText at h
    cases hc : c.category with
    | none => decide
    | some v => simpa [hc] using h
  have hids : normalizeCheckIds checklist c = c := if_pos hcat
  unfold normalizeIds
  split
  · rfl
  · rw [hids]
    exact if_pos hcat

end StudyAgent
