import StudyAgent.Qc.Strategy

/-!
# Carry-forward only of unchanged sections

A visit that does not verify the whole document reuses prior checks.  The law
it should obey: whatever it does not verify again has the content that was
verified.  The code keeps the law in full passes only; otherwise it looks for
changed hashes among the ids in focus, or trusts the ids routing asked for.

Main results:

* `reused_of_reverified` — if every changed section is verified again, no reused
  check is about a changed section.
* `carriesOnlyUnchanged_iff` — **exactly when the law holds.**
-/

namespace StudyAgent.Strategy

open Py TargetedMerge

/-! ## One visit -/

/-- What a visit reads when it chooses its verification. -/
structure StrategyInput (H : Type) where
  qcAttempt : ℕ
  prior : QcResult
  phase1Failures : List Check
  fixedSections : List Section
  document : Document
  priorHashes : Hashes H
  stateReverify : List String
  missingChecklistIds : List String
  checklist : List ChecklistItem

/-- The sections a visit sends for targeted verification. -/
def reverifyScope (d : QcVerificationDecision) (fixedSections : List Section)
    (stateReverify : List String) : List String :=
  match d.mode with
  | .targeted =>
    if fixedSections ≠ [] then reverifySectionIdsForTargeted stateReverify fixedSections
    else d.reverifySectionIds
  | _ => []

section

variable {H : Type} [DecidableEq H] (hash : Section → H) (i : StrategyInput H)

/-- The decision of the visit. -/
def StrategyInput.decision : QcVerificationDecision :=
  decideQcVerification hash i.qcAttempt (some i.prior) i.phase1Failures (i.fixedSections ≠ [])
    i.document i.priorHashes i.stateReverify

/-- The sections it verifies again. -/
def StrategyInput.scope : List String :=
  reverifyScope (i.decision hash) i.fixedSections i.stateReverify

/-- The prior checks it uses again. -/
def StrategyInput.reused : List Check :=
  match (i.decision hash).mode with
  | .full => []
  | .targeted => keptChecks i.prior (i.scope hash) i.missingChecklistIds i.checklist
  | .deterministicOnly =>
    checksSafeToCarryForward hash (priorLlmChecks (some i.prior)) i.priorHashes i.document

/-- The content of a section is not the one whose hash is stored under its id. -/
def StrategyInput.Changed (s : Section) : Prop :=
  i.priorHashes.lookup s.idText ≠ some (hash s)

instance (s : Section) : Decidable (i.Changed hash s) :=
  inferInstanceAs (Decidable (_ ≠ _))

/-- An LLM check that the result builder keeps is about a section: by its own
section id, or by the plan when it checks a must-cover item. -/
def StrategyInput.About (c : Check) (sid : String) : Prop :=
  isLlmCheck c = true ∧ c.categoryIn (PROSE_CATEGORIES ++ CODE_CATEGORIES) = true ∧
    (c.sectionText = sid ∨ canonicalSectionForCheck c i.checklist = sid)

/-- **Only unchanged sections are carried forward**: unless the whole document
is verified, every changed section is verified again, and no LLM check that is
used again is about a changed section. -/
structure CarriesOnlyUnchanged : Prop where
  reverified : (i.decision hash).mode ≠ .full →
    ∀ s ∈ i.document.sections, i.Changed hash s → s.idText ∈ i.scope hash
  reused : ∀ c ∈ i.reused hash, ∀ s ∈ i.document.sections, s.idText ≠ "" →
    i.About c s.idText → ¬ i.Changed hash s

end

/-! ## Reused checks follow the scope -/

section

variable {H : Type} [DecidableEq H] {hash : Section → H} {i : StrategyInput H}

theorem mem_reverifySectionIdSet {ids : List String} {sid : String} (h : sid ∈ ids)
    (hne : sid ≠ "") (hstrip : strip sid = sid) : sid ∈ reverifySectionIdSet ids := by
  unfold reverifySectionIdSet
  refine List.mem_map.2 ⟨sid, List.mem_filter.2 ⟨h, ?_⟩, hstrip⟩
  simpa using hne

theorem verified_category_cases :
    ∀ t ∈ PROSE_CATEGORIES ++ CODE_CATEGORIES,
      t = "must_cover" ∨ t ∈ SECTION_SCOPED_CATEGORIES ∨ t = "teaching_alignment" := by
  decide

/-- A check of one of the verified categories is replaced when it is about a
section of the scope. -/
theorem checkTargetsReverify_of_about {c : Check} {sid : String} {sectionIds checklistIds}
    {checklist : List ChecklistItem}
    (hcat : c.categoryIn (PROSE_CATEGORIES ++ CODE_CATEGORIES) = true) (hne : sid ≠ "")
    (habout : c.sectionText = sid ∨ canonicalSectionForCheck c checklist = sid)
    (hmem : sid ∈ sectionIds) :
    checkTargetsReverify c sectionIds checklistIds checklist = true := by
  have hnonempty : sectionIds ≠ [] := List.ne_nil_of_mem hmem
  have hmc : c.categoryText ≠ "must_cover" → c.sectionText = sid := by
    intro hnot
    rcases habout with h | h
    · exact h
    · unfold canonicalSectionForCheck at h
      rw [if_pos hnot, ite_self] at h
      exact absurd h.symm hne
  unfold checkTargetsReverify
  by_cases hcov : c.categoryText = "must_cover"
  · rcases habout with h | h
    · simp [hcov, h, hne, hmem]
    · simp [hcov, h, hne, hmem]
  · have hsec := hmc hcov
    have hcats := categoryIn_verified.1 hcat
    by_cases hscoped : c.categoryText ∈ SECTION_SCOPED_CATEGORIES
    · simp [hcov, hscoped, hsec, hne, hmem]
    · have hta : c.categoryText = "teaching_alignment" := by
        rcases verified_category_cases _ hcats with h | h | h
        · exact absurd h hcov
        · exact absurd h hscoped
        · exact h
      simp [hta, hsec, hne, hmem, SECTION_SCOPED_CATEGORIES]

/-- **If every changed section is verified again, no reused check is about a
changed section.** -/
theorem reused_of_reverified
    (h : (i.decision hash).mode ≠ .full →
      ∀ s ∈ i.document.sections, i.Changed hash s → s.idText ∈ i.scope hash) :
    ∀ c ∈ i.reused hash, ∀ s ∈ i.document.sections, s.idText ≠ "" →
      i.About c s.idText → ¬ i.Changed hash s := by
  intro c hc s hs hne habout hchanged
  unfold StrategyInput.reused at hc
  cases hmode : (i.decision hash).mode with
  | full =>
    rw [hmode] at hc
    exact absurd hc List.not_mem_nil
  | targeted =>
    rw [hmode] at hc
    have hscope := h (by simp [hmode]) s hs hchanged
    have htarget : checkTargetsReverify c (reverifySectionIdSet (i.scope hash))
        (reverifyChecklistIdSet (i.scope hash) i.missingChecklistIds i.checklist)
        i.checklist = true :=
      checkTargetsReverify_of_about habout.2.1 hne habout.2.2
        (mem_reverifySectionIdSet hscope hne s.strip_idText)
    have hkept := (List.mem_filter.1 hc).2
    rw [htarget] at hkept
    exact absurd hkept Bool.false_ne_true
  | deterministicOnly =>
    have hscope := h (by simp [hmode]) s hs hchanged
    unfold StrategyInput.scope reverifyScope at hscope
    rw [hmode] at hscope
    exact absurd hscope List.not_mem_nil

/-! ## Exactly when the law holds -/

/-- The changed sections are all among the ids the visit looks at.  With
`fixed_sections` these are the ids routing asked for and those of the fixed
sections.  Otherwise they are the ids that phase-1 failures name, when a failure
names one or nothing is stored yet, and else every id; a section is only seen
under its id, through the last section that bears it. -/
def ChangedInView (i : StrategyInput H) : Prop :=
  ∀ s ∈ i.document.sections, i.Changed hash s →
    if i.fixedSections ≠ [] then
      s.idText ∈ i.stateReverify ∨ s.idText ≠ "" ∧ ∃ f ∈ i.fixedSections, f.idText = s.idText
    else
      s.idText ≠ "" ∧
      ((sectionIdsFromFailures i.phase1Failures ≠ [] ∨ i.priorHashes.keys = []) →
        s.idText ∈ sectionIdsFromFailures i.phase1Failures) ∧
      ∀ t, lastSection i.document.sections s.idText = some t → i.Changed hash t

/-- A section is reported by `sections_with_changed_hashes` exactly when its id is
looked at and seen as changed. -/
theorem mem_changed_iff {s : Section} (hs : s ∈ i.document.sections) :
    s.idText ∈ sectionsWithChangedHashes hash i.priorHashes i.document
        (sectionIdsFromFailures i.phase1Failures) ↔
      s.idText ≠ "" ∧
      ((sectionIdsFromFailures i.phase1Failures ≠ [] ∨ i.priorHashes.keys = []) →
        s.idText ∈ sectionIdsFromFailures i.phase1Failures) ∧
      ∀ t, lastSection i.document.sections s.idText = some t → i.Changed hash t := by
  have hfocus : ∀ sid ∈ sectionIdsFromFailures i.phase1Failures, sid ≠ "" ∧ strip sid = sid :=
    fun sid hsid => ⟨(mem_sectionIdsFromFailures.1 hsid).1,
      strip_of_mem_sectionIdsFromFailures hsid⟩
  obtain ⟨t, ht⟩ := exists_lastSection hs
  have htext : t.idText = s.idText := (lastSection_eq_some ht).2
  rw [mem_sectionsWithChangedHashes hfocus]
  by_cases hkeys : i.priorHashes.keys = []
  · have hnone : ∀ t : Section, i.Changed hash t := by
      intro t hlookup
      have hmem := AList.mem_keys.1 (AList.lookup_isSome.1
        (Option.isSome_iff_exists.2 ⟨_, hlookup⟩))
      rw [hkeys] at hmem
      exact absurd hmem List.not_mem_nil
    rw [if_pos hkeys]
    constructor
    · exact fun h => ⟨(hfocus _ h).1, fun _ => h, fun t _ => hnone t⟩
    · exact fun h => h.2.1 (Or.inr hkeys)
  · rw [if_neg hkeys]
    have hunchanged : sectionHashUnchanged s.idText i.priorHashes
        (buildSectionHashes hash i.document) = false ↔
        s.idText = "" ∨ i.Changed hash t := by
      rw [← Bool.not_eq_true, sectionHashUnchanged_build_iff, not_and_or, not_not, ht]
      unfold StrategyInput.Changed
      rw [htext]
      simp
    rw [hunchanged]
    constructor
    · rintro ⟨hne, hin, -, hlast⟩
      refine ⟨hne, fun h => h.elim hin fun h => absurd h hkeys, fun t' ht' => ?_⟩
      rw [ht] at ht'
      cases ht'
      exact hlast.resolve_left hne
    · rintro ⟨hne, hin, hlast⟩
      exact ⟨hne, fun h => hin (Or.inl h), fun _ => mem_sectionIds.2 ⟨hne, s, hs, rfl⟩,
        Or.inr (hlast t ht)⟩

/-- **A visit carries forward only unchanged sections exactly when it must verify
the whole document or every changed section is in view.** -/
theorem carriesOnlyUnchanged_iff (hash : Section → H) (i : StrategyInput H) :
    CarriesOnlyUnchanged hash i ↔
      (i.fixedSections = [] ∧
        ¬ MayCarryForward i.qcAttempt (some i.prior) i.phase1Failures) ∨
      @ChangedInView H hash i := by
  have hlaw : CarriesOnlyUnchanged hash i ↔ ((i.decision hash).mode ≠ .full →
      ∀ s ∈ i.document.sections, i.Changed hash s → s.idText ∈ i.scope hash) :=
    ⟨fun h => h.reverified, fun h => ⟨h, reused_of_reverified h⟩⟩
  rw [hlaw]
  unfold ChangedInView
  rcases @decideQcVerification_cases _ _ hash i.qcAttempt (some i.prior) i.phase1Failures
      (i.fixedSections ≠ []) i.document i.priorHashes i.stateReverify with
    ⟨hfixed, hmode, -⟩ | ⟨hfixed, hmay, hmode, -⟩ | ⟨hfixed, hmay, hids, hmode⟩
  · have hfixed : i.fixedSections ≠ [] := by simpa using hfixed
    have hscope : i.scope hash = reverifySectionIdsForTargeted i.stateReverify i.fixedSections := by
      unfold StrategyInput.scope reverifyScope StrategyInput.decision
      rw [hmode]
      exact if_pos hfixed
    have hnotfull : (i.decision hash).mode ≠ .full := by
      unfold StrategyInput.decision
      rw [hmode]
      decide
    simp only [hscope, mem_reverifySectionIdsForTargeted, hfixed, hnotfull, ne_eq,
      not_false_eq_true, true_implies, if_true, false_and, false_or]
  · have hfull : (i.decision hash).mode = .full := hmode
    have hfixed : i.fixedSections = [] := by simpa using hfixed
    exact iff_of_true (fun h => absurd hfull h) (Or.inl ⟨hfixed, hmay⟩)
  · have hfixed : i.fixedSections = [] := by simpa using hfixed
    have hscope : i.scope hash = sectionsWithChangedHashes hash i.priorHashes i.document
        (sectionIdsFromFailures i.phase1Failures) := by
      unfold StrategyInput.scope reverifyScope StrategyInput.decision
      rcases hmode with ⟨-, hmode⟩ | ⟨hnil, hmode⟩
      · rw [hmode, if_neg (by simpa using hfixed), hids]
      · rw [hmode, hnil]
    have hnotfull : (i.decision hash).mode ≠ .full := by
      unfold StrategyInput.decision
      rcases hmode with ⟨-, hmode⟩ | ⟨-, hmode⟩ <;> rw [hmode] <;> decide
    constructor
    · intro h
      refine Or.inr fun s hs hchanged => ?_
      rw [if_neg (by simpa using hfixed), ← mem_changed_iff hs, ← hscope]
      exact h hnotfull s hs hchanged
    · rintro (⟨-, hnot⟩ | h)
      · exact absurd hmay hnot
      · intro _ s hs hchanged
        have hview := h s hs hchanged
        rw [if_neg (by simpa using hfixed), ← mem_changed_iff hs, ← hscope] at hview
        exact hview

end

/-! ## A stale verdict -/

/-- Two sections rewritten since the last visit, only the first of which a
placement failure names. -/
def staleInput : StrategyInput Section where
  qcAttempt := 1
  prior :=
    { checks := some
        [{ id := some (.str "ca_2"), category := some (.str "content_accuracy"),
           passed := some (.bool true), sectionId := some (.str "ts_2") }] }
  phase1Failures :=
    [{ id := some (.str "det_math_in_code_block"),
       category := some (.str "document_coherence"), passed := some (.bool false),
       sectionId := some (.str "ts_1") }]
  fixedSections := []
  document :=
    { sections :=
        [{ id := some (.str "ts_1"), content := some "new first" },
         { id := some (.str "ts_2"), content := some "new second" }] }
  priorHashes := buildSectionHashes id
    { sections :=
        [{ id := some (.str "ts_1"), content := some "first" },
         { id := some (.str "ts_2"), content := some "second" }] }
  stateReverify := []
  missingChecklistIds := []
  checklist := []

/-- The second section is not verified again and its old verdict is used again. -/
theorem staleInput_carries_changed : ¬ CarriesOnlyUnchanged id staleInput := by
  intro h
  have hscope := h.reverified (by decide)
    { id := some (.str "ts_2"), content := some "new second" } (by decide) (by decide)
  revert hscope
  decide

end StudyAgent.Strategy
