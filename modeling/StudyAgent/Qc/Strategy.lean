import StudyAgent.Qc.FailureClass
import StudyAgent.Qc.TargetedMerge

/-!
# Choosing the verification mode

Each quality-check visit verifies the whole document, the sections that need it,
or nothing beyond the deterministic checks.  The choice rests on the prior
result, on the stored section hashes and on the new deterministic failures.

Main results:

* `mem_sectionsWithChangedHashes` — which section ids are reported as changed.
* `decideQcVerification_cases` — **everything the decision can be, with its guard.**
-/

namespace StudyAgent.Strategy

open Py TargetedMerge

/-! ## Prior checks -/

/-- `_SUBSTANCE_CATEGORIES`. -/
def SUBSTANCE_CATEGORIES : List String := ["must_cover", "content_accuracy", "teaching_alignment"]

/-- `_is_llm_check`. -/
def isLlmCheck (c : Check) : Bool :=
  if startsWith c.idText "det_" then false else c.categoryText ≠ "structure"

/-- `substance_certified`. -/
def substanceCertified (prior : Option QcResult) : Bool :=
  match prior with
  | none => false
  | some r => r.checkList.all fun c => c.categoryText ∉ SUBSTANCE_CATEGORIES || c.isPassed

/-- `prior_llm_checks`. -/
def priorLlmChecks (prior : Option QcResult) : List Check :=
  match prior with
  | none => []
  | some r => r.checkList.filter isLlmCheck

/-- `section_ids_from_failures`. -/
def sectionIdsFromFailures (failures : List Check) : List String :=
  sortedSet ((failures.map Check.sectionText).filter (· ≠ ""))

/-- `reverify_section_ids_for_targeted`: the ids routing asked for, then those of
the sections the generator returned. -/
def reverifySectionIdsForTargeted (stateReverify : List String) (fixedSections : List Section) :
    List String :=
  Dedup.collect Section.idText (· ≠ "") stateReverify fixedSections

/-! ## Hash comparison -/

section Hashes

variable {H : Type} [DecidableEq H] (hash : Section → H)

/-- `_section_hash_unchanged`. -/
def sectionHashUnchanged (sid : String) (priorHashes currentHashes : Hashes H) : Bool :=
  match priorHashes.lookup sid, currentHashes.lookup sid with
  | some baseline, some current => current = baseline
  | _, _ => false

/-- `checks_safe_to_carry_forward`. -/
def checksSafeToCarryForward (priorChecks : List Check) (priorHashes : Hashes H)
    (document : Document) : List Check :=
  if priorHashes.keys = [] then []
  else
    let currentHashes := buildSectionHashes hash document
    priorChecks.filter fun c =>
      if c.sectionText ≠ "" then sectionHashUnchanged c.sectionText priorHashes currentHashes
      else priorHashes.keys.all fun sid => sectionHashUnchanged sid priorHashes currentHashes

/-- `sections_with_changed_hashes`. -/
def sectionsWithChangedHashes (priorHashes : Hashes H) (document : Document)
    (focusSectionIds : List String) : List String :=
  if priorHashes.keys = [] then focusSectionIds
  else
    let currentHashes := buildSectionHashes hash document
    let idsToCheck := if focusSectionIds ≠ [] then focusSectionIds else currentHashes.keys
    ((idsToCheck.map strip).filter fun sid =>
      sid ≠ "" && !sectionHashUnchanged sid priorHashes currentHashes).insertionSort (· ≤ ·)

/-! ## The decision -/

structure QcVerificationDecision where
  mode : QcVerificationMode
  reason : String
  reverifySectionIds : List String
  deriving DecidableEq

/-- `decide_qc_verification`. -/
def decideQcVerification (qcAttempt : ℕ) (prior : Option QcResult) (phase1Failures : List Check)
    (isTargeted : Bool) (document : Document) (priorHashes : Hashes H)
    (stateReverify : List String) : QcVerificationDecision :=
  if isTargeted then
    ⟨.targeted, "fixed_sections set for section patch/insert retry", stateReverify⟩
  else if qcAttempt = 0 then
    ⟨.full, "first QC pass — establish substance baseline", []⟩
  else if !substanceCertified prior then
    ⟨.full, "prior substance checks not certified", []⟩
  else if phase1Failures ≠ [] && !isPlacementOnlyFailure phase1Failures then
    ⟨.full, "substance or mixed deterministic failures", []⟩
  else
    let changed := sectionsWithChangedHashes hash priorHashes document
      (sectionIdsFromFailures phase1Failures)
    if changed ≠ [] then
      ⟨.targeted, "placement failures on sections with changed content hashes", changed⟩
    else
      ⟨.deterministicOnly,
        "placement-only or clear phase1; prior substance certified; hashes stable", []⟩

/-! ## What the functions do -/

variable {hash}

theorem mem_reverifySectionIdsForTargeted {stateReverify : List String}
    {fixedSections : List Section} {sid : String} :
    sid ∈ reverifySectionIdsForTargeted stateReverify fixedSections ↔
      sid ∈ stateReverify ∨ sid ≠ "" ∧ ∃ s ∈ fixedSections, s.idText = sid := by
  unfold reverifySectionIdsForTargeted
  rw [Dedup.mem_collect, decide_eq_true_eq]

theorem mem_sectionIdsFromFailures {failures : List Check} {sid : String} :
    sid ∈ sectionIdsFromFailures failures ↔ sid ≠ "" ∧ ∃ c ∈ failures, c.sectionText = sid := by
  unfold sectionIdsFromFailures
  rw [mem_sortedSet, List.mem_filter, List.mem_map, decide_eq_true_eq]
  exact and_comm

theorem strip_of_mem_sectionIdsFromFailures {failures : List Check} {sid : String}
    (h : sid ∈ sectionIdsFromFailures failures) : strip sid = sid := by
  obtain ⟨-, c, -, rfl⟩ := mem_sectionIdsFromFailures.1 h
  exact strip_strip _

theorem sectionHashUnchanged_iff {sid : String} {priorHashes currentHashes : Hashes H} :
    sectionHashUnchanged sid priorHashes currentHashes = true ↔
      ∃ h, priorHashes.lookup sid = some h ∧ currentHashes.lookup sid = some h := by
  unfold sectionHashUnchanged
  cases priorHashes.lookup sid <;> cases currentHashes.lookup sid <;> simp [eq_comm]

/-- An id counts as unchanged when the last section that bears it has the stored
hash. -/
theorem sectionHashUnchanged_build_iff {sid : String} {priorHashes : Hashes H}
    {document : Document} :
    sectionHashUnchanged sid priorHashes (buildSectionHashes hash document) = true ↔
      sid ≠ "" ∧ ∃ t, lastSection document.sections sid = some t ∧
        priorHashes.lookup sid = some (hash t) := by
  rw [sectionHashUnchanged_iff, lookup_buildSectionHashes]
  by_cases hsid : sid = ""
  · simp [hsid]
  · simp only [hsid, if_false, ne_eq, not_false_eq_true, true_and, Option.map_eq_some_iff]
    constructor
    · rintro ⟨h, hprior, t, ht, rfl⟩
      exact ⟨t, ht, hprior⟩
    · rintro ⟨t, ht, hprior⟩
      exact ⟨hash t, hprior, t, ht, rfl⟩

/-- **Which ids are reported as changed.**  Without a baseline these are the ids
in focus; with one, the ids in focus (all ids when there is no focus) whose last
section does not have the stored hash. -/
theorem mem_sectionsWithChangedHashes {priorHashes : Hashes H} {document : Document}
    {focus : List String} (hfocus : ∀ sid ∈ focus, sid ≠ "" ∧ strip sid = sid) {sid : String} :
    sid ∈ sectionsWithChangedHashes hash priorHashes document focus ↔
      if priorHashes.keys = [] then sid ∈ focus
      else sid ≠ "" ∧ (focus ≠ [] → sid ∈ focus) ∧ (focus = [] → sid ∈ document.sectionIds) ∧
        sectionHashUnchanged sid priorHashes (buildSectionHashes hash document) = false := by
  unfold sectionsWithChangedHashes
  by_cases hkeys : priorHashes.keys = []
  · rw [if_pos hkeys, if_pos hkeys]
  rw [if_neg hkeys, if_neg hkeys]
  simp only [List.mem_insertionSort, List.mem_filter, List.mem_map, Bool.and_eq_true,
    decide_eq_true_eq, Bool.not_eq_true']
  have hkeep : ∀ ids : List String, (∀ x ∈ ids, strip x = x) →
      ((∃ x ∈ ids, strip x = sid) ↔ sid ∈ ids) := by
    intro ids hids
    constructor
    · rintro ⟨x, hx, rfl⟩
      rwa [hids x hx]
    · exact fun h => ⟨sid, h, hids sid h⟩
  by_cases hf : focus = []
  · subst hf
    have hstrip : ∀ x ∈ (buildSectionHashes hash document).keys, strip x = x := by
      intro x hx
      obtain ⟨-, s, -, rfl⟩ := mem_sectionIds.1 (mem_keys_buildSectionHashes.1 hx)
      exact s.strip_idText
    rw [if_neg (by simp), hkeep _ hstrip, mem_keys_buildSectionHashes]
    simp only [ne_eq, not_true_eq_false, false_implies, true_implies, true_and]
    tauto
  · rw [if_pos hf, hkeep _ fun x hx => (hfocus x hx).2]
    simp only [ne_eq, hf, not_false_eq_true, true_implies, false_implies, true_and]
    tauto

/-! ## Everything the decision can be -/

/-- The guards under which a visit may skip the full pass. -/
def MayCarryForward (qcAttempt : ℕ) (prior : Option QcResult) (phase1Failures : List Check) :
    Prop :=
  qcAttempt ≠ 0 ∧ substanceCertified prior = true ∧
    (phase1Failures = [] ∨ isPlacementOnlyFailure phase1Failures = true)

instance (qcAttempt : ℕ) (prior : Option QcResult) (phase1Failures : List Check) :
    Decidable (MayCarryForward qcAttempt prior phase1Failures) :=
  inferInstanceAs (Decidable (_ ∧ _ ∧ _))

/-- The mode and the scope of the decision, branch by branch. -/
theorem decideQcVerification_cases (qcAttempt : ℕ) (prior : Option QcResult)
    (phase1Failures : List Check) (isTargeted : Bool) (document : Document)
    (priorHashes : Hashes H) (stateReverify : List String) :
    let d := decideQcVerification hash qcAttempt prior phase1Failures isTargeted document
      priorHashes stateReverify
    let changed := sectionsWithChangedHashes hash priorHashes document
      (sectionIdsFromFailures phase1Failures)
    (isTargeted = true ∧ d.mode = .targeted ∧ d.reverifySectionIds = stateReverify) ∨
    (isTargeted = false ∧ ¬ MayCarryForward qcAttempt prior phase1Failures ∧ d.mode = .full ∧
      d.reverifySectionIds = []) ∨
    (isTargeted = false ∧ MayCarryForward qcAttempt prior phase1Failures ∧
      d.reverifySectionIds = changed ∧
      ((changed ≠ [] ∧ d.mode = .targeted) ∨ (changed = [] ∧ d.mode = .deterministicOnly))) := by
  intro d changed
  have hd : d = decideQcVerification hash qcAttempt prior phase1Failures isTargeted document
    priorHashes stateReverify := rfl
  unfold decideQcVerification at hd
  cases isTargeted with
  | true => exact Or.inl ⟨rfl, by rw [hd]; exact ⟨rfl, rfl⟩⟩
  | false =>
    refine Or.inr ?_
    rw [if_neg Bool.false_ne_true] at hd
    by_cases hq : qcAttempt = 0
    · rw [if_pos hq] at hd
      exact Or.inl ⟨rfl, fun h => h.1 hq, by rw [hd]; exact ⟨rfl, rfl⟩⟩
    rw [if_neg hq] at hd
    by_cases hs : substanceCertified prior = true
    swap
    · rw [if_pos (by simpa using hs)] at hd
      exact Or.inl ⟨rfl, fun h => hs h.2.1, by rw [hd]; exact ⟨rfl, rfl⟩⟩
    rw [if_neg (by simpa using hs)] at hd
    by_cases hp : phase1Failures = [] ∨ isPlacementOnlyFailure phase1Failures = true
    swap
    · rw [if_pos (by simpa [not_or] using hp)] at hd
      exact Or.inl ⟨rfl, fun h => hp h.2.2, by rw [hd]; exact ⟨rfl, rfl⟩⟩
    rw [if_neg (by simpa [not_or, imp_iff_not_or] using hp)] at hd
    refine Or.inr ⟨rfl, ⟨hq, hs, hp⟩, ?_⟩
    by_cases hc : changed = []
    · have hc' : sectionsWithChangedHashes hash priorHashes document
          (sectionIdsFromFailures phase1Failures) = [] := hc
      dsimp only at hd
      rw [if_neg (by simpa using hc')] at hd
      exact ⟨by rw [hd, hc], Or.inr ⟨hc, by rw [hd]⟩⟩
    · have hc' : sectionsWithChangedHashes hash priorHashes document
          (sectionIdsFromFailures phase1Failures) ≠ [] := hc
      dsimp only at hd
      rw [if_pos hc'] at hd
      exact ⟨by rw [hd], Or.inl ⟨hc, by rw [hd]⟩⟩

end Hashes

end StudyAgent.Strategy
