import StudyAgent.Qc.Strategy

/-!
# Frozen ids

A passed must_cover check freezes its checklist item and a passed code check its
section: a later full pass need not verify them again.  Content changes while ids
stay, so ids are gated by the section hashes of the last visit when they are read.
When they are written, ids in the re-verified scope are dropped, new passes are
added and all sections are hashed afresh.

Main results:

* `mem_effective_checks`, `mem_effective_sections` — what passes the gate.
* `mem_refreshed` — **which targets are frozen after a visit.**
-/

namespace StudyAgent.FrozenSets

open Py TargetedMerge Strategy

/-! ## The gate -/

section

variable {H : Type} [DecidableEq H]

/-- `_section_hash_valid`. -/
def sectionHashValid (sid : String) (storedHashes currentHashes : Hashes H) : Bool :=
  if sid = "" then false
  else
    match storedHashes.lookup sid, currentHashes.lookup sid with
    | some baseline, some current => current = baseline
    | _, _ => false

/-- `effective_frozen_sets`. -/
def effectiveFrozenSets (hash : Section → H) (frozenCheckIds frozenSectionIds : List String)
    (storedHashes : Hashes H) (document : Document) (checklist : List ChecklistItem) :
    List String × List String :=
  if storedHashes.keys = [] then ([], [])
  else
    let currentHashes := buildSectionHashes hash document
    let validSectionIds := (frozenSectionIds.filter fun sid =>
      sectionHashValid (strip sid) storedHashes currentHashes).insertionSort (· ≤ ·)
    let validCheckIds := (frozenCheckIds.map strip).filter fun id =>
      id ≠ "" &&
        sectionHashValid (resolveChecklistSectionId checklist id) storedHashes currentHashes
    (validCheckIds.insertionSort (· ≤ ·), validSectionIds)

/-- `resolve_frozen_for_full_qc`. -/
def resolveFrozenForFullQc (hash : Section → H) (frozenCheckIds frozenSectionIds : List String)
    (storedHashes : Hashes H) (document : Document) (checklist : List ChecklistItem) :
    List String × List String :=
  effectiveFrozenSets hash frozenCheckIds frozenSectionIds storedHashes document checklist

end

/-! ## Updates -/

/-- `prune_frozen_for_sections`. -/
def pruneFrozenForSections (frozenCheckIds frozenSectionIds touchedSectionIds : List String)
    (checklist : List ChecklistItem) (reverifyChecklistIds : List String) :
    List String × List String :=
  let touched := reverifySectionIdSet touchedSectionIds
  if touched = [] ∧ reverifyChecklistIds = [] then (frozenCheckIds, frozenSectionIds)
  else
    let prunedChecklistIds := (reverifyChecklistIds.filter (· ≠ "")).map strip ++
      checklistIdsForSections checklist touched
    ((frozenCheckIds.filter fun id => strip id ∉ prunedChecklistIds).insertionSort (· ≤ ·),
      sortedSet (frozenSectionIds.filter fun sid => sid ∉ touched))

/-- `str(check.get("checklist_id", "")).strip()` of a must_cover check. -/
def frozenCheckId (c : Check) : Option String :=
  if c.categoryIn ["must_cover"] then
    let id := strip (getText c.checklistId "")
    if id ≠ "" then some id else none
  else none

/-- `str(check.get("section_id", "")).strip()` of a code check. -/
def frozenSectionId (c : Check) : Option String :=
  if c.categoryIn ["must_cover"] then none
  else if c.categoryIn FROZEN_SECTION_CATEGORIES then
    let sid := strip (getText c.sectionId "")
    if sid ≠ "" then some sid else none
  else none

/-- `accumulate_frozen_sets`. -/
def accumulateFrozenSets (checks : List Check) (existingCheckIds existingSectionIds : List String) :
    List String × List String :=
  (sortedSet (existingCheckIds ++ (checks.filter Check.isPassed).filterMap frozenCheckId),
    sortedSet (existingSectionIds ++ (checks.filter Check.isPassed).filterMap frozenSectionId))

section

variable {H : Type}

/-- `refresh_frozen_lineage_after_qc`; without touched sections nothing is pruned. -/
def refreshFrozenLineageAfterQc (hash : Section → H) (checks : List Check)
    (existingCheckIds existingSectionIds : List String) (document : Document)
    (checklist : List ChecklistItem) (touchedSectionIds reverifyChecklistIds : List String) :
    List String × List String × Hashes H :=
  let pruned :=
    if touchedSectionIds ≠ [] then
      pruneFrozenForSections existingCheckIds existingSectionIds touchedSectionIds checklist
        reverifyChecklistIds
    else (existingCheckIds, existingSectionIds)
  let frozen := accumulateFrozenSets checks pruned.1 pruned.2
  (frozen.1, frozen.2, buildSectionHashes hash document)

end

/-! ## Targets -/

/-- What is frozen: a checklist item or the code of a section. -/
inductive Target where
  | item (id : String)
  | code (sid : String)
  deriving DecidableEq

/-- The section whose hash gates a target. -/
def Target.sectionId (checklist : List ChecklistItem) : Target → String
  | .item id => resolveChecklistSectionId checklist id
  | .code sid => sid

/-- The target a check freezes when it passes. -/
def frozenTarget (c : Check) : Option Target :=
  match frozenCheckId c with
  | some id => some (.item id)
  | none => (frozenSectionId c).map .code

/-- The targets of stored ids. -/
def frozenTargets (checkIds sectionIds : List String) : List Target :=
  checkIds.map (fun id => .item (strip id)) ++ sectionIds.map fun sid => .code (strip sid)

/-- The targets that a visit with these touched sections and missing items drops. -/
def Pruned (checklist : List ChecklistItem) (touchedSectionIds reverifyChecklistIds : List String) :
    Target → Prop
  | .item id => touchedSectionIds ≠ [] ∧
      id ∈ reverifyChecklistIdSet touchedSectionIds reverifyChecklistIds checklist
  | .code sid => touchedSectionIds ≠ [] ∧ sid ∈ reverifySectionIdSet touchedSectionIds

section

variable {checklist : List ChecklistItem}

theorem strip_frozenCheckId {c : Check} {id : String} (h : frozenCheckId c = some id) :
    strip id = id := by
  unfold frozenCheckId at h
  dsimp only at h
  split_ifs at h
  rw [← Option.some.inj h, strip_strip]

theorem strip_frozenSectionId {c : Check} {sid : String}
    (h : frozenSectionId c = some sid) : strip sid = sid := by
  unfold frozenSectionId at h
  dsimp only at h
  split_ifs at h
  rw [← Option.some.inj h, strip_strip]

theorem frozenCheckId_eq_none_of_section {c : Check} {sid : String}
    (h : frozenSectionId c = some sid) : frozenCheckId c = none := by
  unfold frozenSectionId at h
  unfold frozenCheckId
  split_ifs at h with hcat
  rw [if_neg hcat]

theorem frozenTarget_item {c : Check} {id : String} :
    frozenTarget c = some (.item id) ↔ frozenCheckId c = some id := by
  unfold frozenTarget
  cases frozenCheckId c <;> simp

theorem frozenTarget_code {c : Check} {sid : String} :
    frozenTarget c = some (.code sid) ↔ frozenSectionId c = some sid := by
  unfold frozenTarget
  constructor
  · cases frozenCheckId c <;> simp
  · intro h
    rw [frozenCheckId_eq_none_of_section h, h]
    rfl

theorem mem_frozenTargets_item {checkIds sectionIds : List String} {id : String} :
    .item id ∈ frozenTargets checkIds sectionIds ↔ ∃ x ∈ checkIds, strip x = id := by
  simp [frozenTargets]

theorem mem_frozenTargets_code {checkIds sectionIds : List String} {sid : String} :
    .code sid ∈ frozenTargets checkIds sectionIds ↔ ∃ x ∈ sectionIds, strip x = sid := by
  simp [frozenTargets]

/-! ## What passes the gate -/

variable {H : Type} [DecidableEq H] {hash : Section → H}
  {frozenCheckIds frozenSectionIds : List String}
  {storedHashes : Hashes H} {document : Document}

theorem sectionHashValid_build {sid : String}
    (h : sectionHashValid sid storedHashes (buildSectionHashes hash document) = true) :
    ∃ t, lastSection document.sections sid = some t ∧ storedHashes.lookup sid = some (hash t) := by
  have hunchanged : sectionHashUnchanged sid storedHashes (buildSectionHashes hash document) =
    true := by
    unfold sectionHashValid at h
    by_cases hsid : sid = ""
    · rw [if_pos hsid] at h
      exact absurd h Bool.false_ne_true
    · rw [if_neg hsid] at h
      exact h
  exact (sectionHashUnchanged_build_iff.1 hunchanged).2

/-- **A gated checklist id** is frozen, and its section has the stored hash. -/
theorem mem_effective_checks {id : String}
    (h : id ∈ (effectiveFrozenSets hash frozenCheckIds frozenSectionIds storedHashes document
      checklist).1) :
    .item id ∈ frozenTargets frozenCheckIds frozenSectionIds ∧
      ∃ t, lastSection document.sections (Target.sectionId checklist (.item id)) = some t ∧
        storedHashes.lookup (Target.sectionId checklist (.item id)) = some (hash t) := by
  unfold effectiveFrozenSets at h
  by_cases hkeys : storedHashes.keys = []
  · rw [if_pos hkeys] at h
    exact absurd h List.not_mem_nil
  · rw [if_neg hkeys] at h
    obtain ⟨hmem, hvalid⟩ := List.mem_filter.1 ((List.mem_insertionSort _).1 h)
    obtain ⟨x, hx, rfl⟩ := List.mem_map.1 hmem
    refine ⟨mem_frozenTargets_item.2 ⟨x, hx, rfl⟩, ?_⟩
    exact sectionHashValid_build (Bool.and_eq_true _ _ ▸ hvalid).2

/-- **A gated section id** is frozen, and the section has the stored hash. -/
theorem mem_effective_sections {sid : String}
    (h : sid ∈ (effectiveFrozenSets hash frozenCheckIds frozenSectionIds storedHashes document
      checklist).2) :
    .code (strip sid) ∈ frozenTargets frozenCheckIds frozenSectionIds ∧
      ∃ t, lastSection document.sections (strip sid) = some t ∧
        storedHashes.lookup (strip sid) = some (hash t) := by
  unfold effectiveFrozenSets at h
  by_cases hkeys : storedHashes.keys = []
  · rw [if_pos hkeys] at h
    exact absurd h List.not_mem_nil
  · rw [if_neg hkeys] at h
    obtain ⟨hmem, hvalid⟩ := List.mem_filter.1 ((List.mem_insertionSort _).1 h)
    exact ⟨mem_frozenTargets_code.2 ⟨sid, hmem, rfl⟩, sectionHashValid_build hvalid⟩

/-! ## What is frozen after a visit -/

theorem mem_pruned {touchedSectionIds reverifyChecklistIds : List String} {target : Target}
    (hstrip : ∀ sid ∈ frozenSectionIds, strip sid = sid)
    (h : target ∈ frozenTargets
      (pruneFrozenForSections frozenCheckIds frozenSectionIds touchedSectionIds checklist
        reverifyChecklistIds).1
      (pruneFrozenForSections frozenCheckIds frozenSectionIds touchedSectionIds checklist
        reverifyChecklistIds).2) :
    target ∈ frozenTargets frozenCheckIds frozenSectionIds ∧
      ¬ Pruned checklist touchedSectionIds reverifyChecklistIds target := by
  unfold pruneFrozenForSections at h
  dsimp only at h
  by_cases hnone : reverifySectionIdSet touchedSectionIds = [] ∧ reverifyChecklistIds = []
  · rw [if_pos hnone] at h
    refine ⟨h, ?_⟩
    unfold Pruned reverifyChecklistIdSet checklistIdsForSections
    cases target with
    | item id => simp [hnone]
    | code sid => simp [hnone]
  · rw [if_neg hnone] at h
    cases target with
    | item id =>
      obtain ⟨x, hx, rfl⟩ := mem_frozenTargets_item.1 h
      obtain ⟨hmem, hkeep⟩ := List.mem_filter.1 ((List.mem_insertionSort _).1 hx)
      refine ⟨mem_frozenTargets_item.2 ⟨x, hmem, rfl⟩, fun hpruned => ?_⟩
      have hout : strip x ∉ reverifyChecklistIdSet touchedSectionIds reverifyChecklistIds
        checklist := of_decide_eq_true hkeep
      exact hout hpruned.2
    | code sid =>
      obtain ⟨x, hx, rfl⟩ := mem_frozenTargets_code.1 h
      obtain ⟨hmem, hkeep⟩ := List.mem_filter.1 (mem_sortedSet.1 hx)
      refine ⟨mem_frozenTargets_code.2 ⟨x, hmem, rfl⟩, fun hpruned => ?_⟩
      have hout : x ∉ reverifySectionIdSet touchedSectionIds := of_decide_eq_true hkeep
      rw [hstrip x hmem] at hpruned
      exact hout hpruned.2

theorem mem_accumulated {checks : List Check} {target : Target} :
    target ∈ frozenTargets (accumulateFrozenSets checks frozenCheckIds frozenSectionIds).1
        (accumulateFrozenSets checks frozenCheckIds frozenSectionIds).2 ↔
      target ∈ frozenTargets frozenCheckIds frozenSectionIds ∨
        ∃ c ∈ checks, c.isPassed = true ∧ frozenTarget c = some target := by
  cases target with
  | item id =>
    simp only [mem_frozenTargets_item, accumulateFrozenSets, mem_sortedSet, List.mem_append,
      List.mem_filterMap, List.mem_filter, frozenTarget_item]
    constructor
    · rintro ⟨x, hx | ⟨c, ⟨hc, hpassed⟩, hx⟩, rfl⟩
      · exact Or.inl ⟨x, hx, rfl⟩
      · exact Or.inr ⟨c, hc, hpassed, by rw [strip_frozenCheckId hx, hx]⟩
    · rintro (⟨x, hx, rfl⟩ | ⟨c, hc, hpassed, hx⟩)
      · exact ⟨x, Or.inl hx, rfl⟩
      · exact ⟨id, Or.inr ⟨c, ⟨hc, hpassed⟩, hx⟩, strip_frozenCheckId hx⟩
  | code sid =>
    simp only [mem_frozenTargets_code, accumulateFrozenSets, mem_sortedSet, List.mem_append,
      List.mem_filterMap, List.mem_filter, frozenTarget_code]
    constructor
    · rintro ⟨x, hx | ⟨c, ⟨hc, hpassed⟩, hx⟩, rfl⟩
      · exact Or.inl ⟨x, hx, rfl⟩
      · exact Or.inr ⟨c, hc, hpassed, by rw [strip_frozenSectionId hx, hx]⟩
    · rintro (⟨x, hx, rfl⟩ | ⟨c, hc, hpassed, hx⟩)
      · exact ⟨x, Or.inl hx, rfl⟩
      · exact ⟨sid, Or.inr ⟨c, ⟨hc, hpassed⟩, hx⟩, strip_frozenSectionId hx⟩

omit [DecidableEq H] in
/-- **What is frozen after a visit** was frozen and is not dropped, or a check of the
result passes it. -/
theorem mem_refreshed {checks : List Check} {touchedSectionIds reverifyChecklistIds : List String}
    {target : Target} (hstrip : ∀ sid ∈ frozenSectionIds, strip sid = sid)
    (h : target ∈ frozenTargets
      (refreshFrozenLineageAfterQc hash checks frozenCheckIds frozenSectionIds document checklist
        touchedSectionIds reverifyChecklistIds).1
      (refreshFrozenLineageAfterQc hash checks frozenCheckIds frozenSectionIds document checklist
        touchedSectionIds reverifyChecklistIds).2.1) :
    (target ∈ frozenTargets frozenCheckIds frozenSectionIds ∧
      ¬ Pruned checklist touchedSectionIds reverifyChecklistIds target) ∨
    ∃ c ∈ checks, c.isPassed = true ∧ frozenTarget c = some target := by
  unfold refreshFrozenLineageAfterQc at h
  refine (mem_accumulated.1 h).imp_left fun hold => ?_
  by_cases htouched : touchedSectionIds = []
  · rw [if_neg (by simpa using htouched)] at hold
    refine ⟨hold, ?_⟩
    unfold Pruned
    cases target <;> simp [htouched]
  · rw [if_pos htouched] at hold
    exact mem_pruned hstrip hold

omit [DecidableEq H] in
/-- Section ids stay stripped. -/
theorem strip_refreshed {checks : List Check} {touchedSectionIds reverifyChecklistIds : List String}
    (hstrip : ∀ sid ∈ frozenSectionIds, strip sid = sid) {sid : String}
    (h : sid ∈ (refreshFrozenLineageAfterQc hash checks frozenCheckIds frozenSectionIds document
      checklist touchedSectionIds reverifyChecklistIds).2.1) : strip sid = sid := by
  unfold refreshFrozenLineageAfterQc accumulateFrozenSets at h
  rcases List.mem_append.1 (mem_sortedSet.1 h) with hold | hnew
  · refine hstrip sid ?_
    split_ifs at hold
    · unfold pruneFrozenForSections at hold
      dsimp only at hold
      split_ifs at hold
      · exact hold
      · exact (List.mem_filter.1 (mem_sortedSet.1 hold)).1
    · exact hold
  · obtain ⟨c, -, hc⟩ := List.mem_filterMap.1 hnew
    exact strip_frozenSectionId hc

end

end StudyAgent.FrozenSets
