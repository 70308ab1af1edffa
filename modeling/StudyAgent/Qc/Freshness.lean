import StudyAgent.Qc.ResultBuilder
import StudyAgent.Qc.Strategy

/-!
# Deterministic checks should never be stale

The deterministic phase runs on every visit, so its checks of an earlier visit
have no place in a new result.  A full pass and a carried-forward pass drop them.
A targeted merge keeps them with the other prior checks outside its scope.

Main results:

* `mem_merged_of_deterministic` — when a prior deterministic check survives a
  targeted merge and the building of the result.
* `noStaleDeterministic_iff` — **exactly when no stale check survives.**
-/

namespace StudyAgent.Freshness

open Py Dedup TargetedMerge Strategy ResultBuilder

/-! ## The verification a visit builds its result from -/

section

variable {H : Type} [DecidableEq H] (hash : Section → H) (mode : QcVerificationMode)
  (prior : QcResult) (reply : Verification) (reverifySectionIds missingChecklistIds : List String)
  (document : Document) (priorHashes : Hashes H) (checklist : List ChecklistItem)

/-- `verification_for_build`: the reply, the reply with merged checks, or the
carried-forward verification. -/
def verificationForBuild : Verification :=
  match mode with
  | .full => reply
  | .targeted =>
    { reply with
      checks := mergeTargetedQcChecks prior (some reply) reverifySectionIds missingChecklistIds
        checklist }
  | .deterministicOnly =>
    buildCarriedForwardVerification prior
      (checksSafeToCarryForward hash (priorLlmChecks (some prior)) priorHashes document)

end

/-! ## Deterministic checks -/

/-- What a check of the deterministic phase looks like: one of its ids, one of
its two categories, failed, with a corrective hint that asks for action. -/
structure Deterministic (c : Check) : Prop where
  id_mem : c.idText ∈ PLACEMENT_CHECK_IDS ++ SUBSTANCE_CHECK_IDS
  category : c.categoryText = "document_coherence" ∨ c.categoryText = "structure"
  failed : c.failed = true
  hint : isNoActionNeededHint c.correctiveHint = false

/-- The last of its kind: of its category when it is document-level, and of its
merge key otherwise. -/
def LastOfKind (l : List Check) (c : Check) : Prop :=
  if isDocumentLevelCheck c = true then
    IsLast Check.categoryText (l.filter isDocumentLevelCheck) c
  else IsLast dedupKey l c

theorem startsWith_det_of_deterministic :
    ∀ w ∈ PLACEMENT_CHECK_IDS ++ SUBSTANCE_CHECK_IDS, startsWith w "det_" = true := by
  decide

/-- The code's own test tells a deterministic check from an LLM check. -/
theorem Deterministic.not_llm {c : Check} (h : Deterministic c) : isLlmCheck c = false :=
  if_pos (startsWith_det_of_deterministic _ h.id_mem)

theorem Deterministic.ne_must_cover {c : Check} (h : Deterministic c) :
    c.categoryText ≠ "must_cover" := by
  rcases h.category with hc | hc <;> rw [hc] <;> decide

theorem Deterministic.not_code {c : Check} (h : Deterministic c) :
    c.categoryIn CODE_CATEGORIES = false := by
  rw [← Bool.not_eq_true, categoryIn_code]
  rcases h.category with hc | hc <;> rw [hc] <;> decide

section

variable {checklist : List ChecklistItem} {document : Document}

/-- Only a deterministic check itself is processed into it. -/
theorem Deterministic.processProse_eq {c d : Check} (h : Deterministic c) :
    processProse checklist d = c ↔ d = c := by
  have hkeep : ∀ e : Check, e.category = c.category → normalizeIds checklist e = e := by
    intro e he
    refine normalizeIds_of_ne ?_
    unfold Check.categoryText
    rw [he]
    exact h.ne_must_cover
  constructor
  · intro hd
    have hcat : d.category = c.category := by rw [← hd, processProse_category]
    unfold processProse at hd
    rw [hkeep d hcat] at hd
    have hfailed : (reconcileCheck d).failed = true := by rw [hd]; exact h.failed
    rw [← hd, reconcileCheck_of_failed hfailed]
  · rintro rfl
    unfold processProse
    rw [hkeep d rfl]
    unfold reconcileCheck
    rw [h.hint, Bool.and_false]
    rfl

/-- A deterministic check of the assembled list was produced by this visit or is
a prose check of the verification. -/
theorem Deterministic.mem_assembled {c : Check} (h : Deterministic c) {v : Verification}
    {structureChecks : List Check} :
    c ∈ assembledChecks v structureChecks document checklist ↔
      c ∈ structureChecks ∨ c ∈ proseChecks v := by
  rw [mem_assembledChecks]
  constructor
  · rintro (hc | ⟨d, hd, hdc⟩ | ⟨d, hd, hdc⟩)
    · exact Or.inl hc
    · exact Or.inr (h.processProse_eq.1 hdc ▸ hd)
    · have hcat : d.category = c.category := by rw [← hdc, processCode_category]
      have hcode := (List.mem_filter.1 hd).2
      unfold Check.categoryIn at hcode
      rw [hcat] at hcode
      exact absurd hcode (by rw [← Check.categoryIn, h.not_code]; decide)
  · rintro (hc | hc)
    · exact Or.inl hc
    · exact Or.inr (Or.inl ⟨c, hc, h.processProse_eq.2 rfl⟩)

end

/-! ## Document-level checks through the merge -/

theorem documentLevel_prose {c : Check} (h : isDocumentLevelCheck c = true) :
    c.categoryIn PROSE_CATEGORIES = true ∧ c.categoryText ≠ "must_cover" := by
  have hcat : c.categoryText ∈ DOCUMENT_LEVEL_CATEGORIES := by
    by_contra hnot
    unfold isDocumentLevelCheck at h
    rw [if_pos hnot] at h
    exact absurd h Bool.false_ne_true
  rw [categoryIn_prose]
  have hall : ∀ w ∈ DOCUMENT_LEVEL_CATEGORIES, w ∈ PROSE_CATEGORIES ∧ w ≠ "must_cover" := by
    decide
  exact hall _ hcat

/-- The merge key determines whether a check is document-level. -/
theorem documentLevel_of_dedupKey {c d : Check} (h : dedupKey c = dedupKey d) :
    isDocumentLevelCheck c = isDocumentLevelCheck d ∧ c.categoryText = d.categoryText := by
  unfold dedupKey at h
  by_cases hc : c.categoryText = "must_cover" <;> by_cases hd : d.categoryText = "must_cover"
  · simp [isDocumentLevelCheck, hc, hd, DOCUMENT_LEVEL_CATEGORIES]
  · rw [if_pos hc, if_neg hd] at h
    simp at h
  · rw [if_neg hc, if_pos hd] at h
    simp at h
  · rw [if_neg hc, if_neg hd] at h
    simp only [List.cons.injEq, and_true] at h
    obtain ⟨hcat, hsec, -⟩ := h
    unfold isDocumentLevelCheck Check.sectionText
    rw [hcat, hsec]
    exact ⟨rfl, rfl⟩

@[simp] theorem processProse_documentLevel (checklist : List ChecklistItem) (c : Check) :
    isDocumentLevelCheck (processProse checklist c) = isDocumentLevelCheck c := by
  have hcat : (processProse checklist c).categoryText = c.categoryText := by
    unfold Check.categoryText
    rw [processProse_category]
  unfold isDocumentLevelCheck
  rw [hcat]
  by_cases h : c.categoryText ∉ DOCUMENT_LEVEL_CATEGORIES
  · rw [if_pos h, if_pos h]
  · have hmc : c.categoryText ≠ "must_cover" := by
      intro hmc
      rw [hmc] at h
      exact h (by decide)
    have hsec : (processProse checklist c).sectionText = c.sectionText := by
      unfold Check.sectionText processProse
      rw [reconcileCheck_sectionId, normalizeIds_of_ne hmc]
    rw [if_neg h, if_neg h, hsec]

section

variable {checklist : List ChecklistItem} {document : Document}

/-- The document-level checks of the assembled list are those of this visit's
deterministic phase and those of the verification, processed. -/
theorem filter_documentLevel_assembled (v : Verification) (structureChecks : List Check) :
    (assembledChecks v structureChecks document checklist).filter isDocumentLevelCheck =
      structureChecks.filter isDocumentLevelCheck ++
        (v.checks.filter isDocumentLevelCheck).map (processProse checklist) := by
  have hcode : ((codeChecks v).map (processCode document)).filter isDocumentLevelCheck = [] := by
    refine List.filter_eq_nil_iff.2 fun c hc hdoc => ?_
    obtain ⟨d, hd, rfl⟩ := List.mem_map.1 hc
    have hprose := (documentLevel_prose hdoc).1
    have hcat := (List.mem_filter.1 hd).2
    rw [categoryIn_prose] at hprose
    rw [categoryIn_code] at hcat
    unfold Check.categoryText at hprose hcat
    rw [processCode_category] at hprose
    have hdisj : ∀ w ∈ CODE_CATEGORIES, w ∉ PROSE_CATEGORIES := by decide
    exact hdisj _ hcat hprose
  have hprose : (proseChecks v).filter isDocumentLevelCheck =
      v.checks.filter isDocumentLevelCheck := by
    unfold proseChecks
    rw [List.filter_filter]
    refine List.filter_congr fun c _ => ?_
    cases hdoc : isDocumentLevelCheck c with
    | false => rfl
    | true => rw [(documentLevel_prose hdoc).1, Bool.and_true]
  unfold assembledChecks
  rw [List.filter_append, List.filter_append, hcode, List.append_nil, List.filter_map, ← hprose]
  congr 2
  exact List.filter_congr fun c _ => processProse_documentLevel checklist c

/-- **When a prior deterministic check survives a targeted merge**: neither
produced nor emitted again, it is in the final result exactly when it is the last
of its kind among the kept and the new checks. -/
theorem mem_merged_of_deterministic {c : Check} (h : Deterministic c)
    (hcat : c.categoryText = "document_coherence") {structureChecks : List Check}
    (hstructure : c ∉ structureChecks) (prior : QcResult) (reply : Verification)
    (reverifySectionIds missingChecklistIds : List String) :
    c ∈ finalChecks
        { reply with
          checks := mergeTargetedQcChecks prior (some reply) reverifySectionIds
            missingChecklistIds checklist } structureChecks document checklist ↔
      LastOfKind (keptChecks prior reverifySectionIds missingChecklistIds checklist ++
        reply.checks) c := by
  have hmerged : mergeTargetedQcChecks prior (some reply) reverifySectionIds
      missingChecklistIds checklist = lastWins dedupKey
      (keptChecks prior reverifySectionIds missingChecklistIds checklist ++ reply.checks) :=
    keepLast_eq_lastWins _
  have hprose : c.categoryIn PROSE_CATEGORIES = true := by
    rw [categoryIn_prose, hcat]
    decide
  rw [mem_finalChecks]
  unfold LastOfKind
  cases hdoc : isDocumentLevelCheck c with
  | false =>
    simp only [Bool.false_eq_true, if_false, true_and, false_and, or_false]
    rw [h.mem_assembled, or_iff_right hstructure, ← mem_lastWins, ← hmerged]
    exact List.mem_filter.trans (and_iff_left hprose)
  | true =>
    simp only [Bool.true_eq_false, if_true, true_and, false_and, false_or]
    rw [filter_documentLevel_assembled, ← mem_lastWins, mem_lastWins_append]
    have hnot : ¬ IsLast Check.categoryText (structureChecks.filter isDocumentLevelCheck) c :=
      fun hl => hstructure (List.mem_filter.1 hl.mem).1
    rw [or_iff_left fun hl => hnot hl.1, ← mem_lastWins, ← lastWins_map, List.mem_map]
    have hkey : Check.categoryText ∘ processProse checklist = Check.categoryText := by
      funext d
      simp only [Function.comp_apply]
      unfold Check.categoryText
      rw [processProse_category]
    rw [hkey, hmerged,
      filter_lastWins (fun a b hk => (documentLevel_of_dedupKey hk).1),
      lastWins_lastWins (fun a b hk => (documentLevel_of_dedupKey hk).2), ← mem_lastWins]
    constructor
    · rintro ⟨d, hd, hdc⟩
      rwa [← h.processProse_eq.1 hdc]
    · exact fun hl => ⟨c, hl, h.processProse_eq.2 rfl⟩

end

/-! ## No stale check -/

section

variable {H : Type} [DecidableEq H] (hash : Section → H) (mode : QcVerificationMode)
  (prior : QcResult) (reply : Verification) (structureChecks : List Check)
  (reverifySectionIds missingChecklistIds : List String) (document : Document)
  (priorHashes : Hashes H) (checklist : List ChecklistItem)

/-- **No deterministic check of the prior result is in the final one**, unless
this visit's deterministic phase produced it again or the verifier was called and
emitted it itself. -/
def NoStaleDeterministic : Prop :=
  ∀ c ∈ prior.checkList, Deterministic c →
    c ∈ finalChecks
      (verificationForBuild hash mode prior reply reverifySectionIds missingChecklistIds document
        priorHashes checklist) structureChecks document checklist →
    c ∈ structureChecks ∨ (mode ≠ .deterministicOnly ∧ c ∈ reply.checks)

/-- **No stale check survives exactly when the merge is not targeted, or every
prior deterministic document-coherence check is produced again, emitted again,
or not the last of its kind** among the kept and the new checks. -/
theorem noStaleDeterministic_iff :
    NoStaleDeterministic hash mode prior reply structureChecks reverifySectionIds
        missingChecklistIds document priorHashes checklist ↔
      mode ≠ .targeted ∨
      ∀ c ∈ prior.checkList, Deterministic c → c.categoryText = "document_coherence" →
        c ∈ structureChecks ∨ c ∈ reply.checks ∨
          ¬ LastOfKind (keptChecks prior reverifySectionIds missingChecklistIds checklist ++
            reply.checks) c := by
  unfold NoStaleDeterministic
  cases mode with
  | full =>
    refine iff_of_true (fun c hc hdet hfinal => ?_) (Or.inl (by decide))
    rcases hdet.mem_assembled.1 (mem_assembled_of_mem_final hfinal) with h | h
    · exact Or.inl h
    · exact Or.inr ⟨by decide, (List.mem_filter.1 h).1⟩
  | deterministicOnly =>
    refine iff_of_true (fun c hc hdet hfinal => ?_) (Or.inl (by decide))
    rcases hdet.mem_assembled.1 (mem_assembled_of_mem_final hfinal) with h | h
    · exact Or.inl h
    · have hcarried : c ∈ checksSafeToCarryForward hash (priorLlmChecks (some prior)) priorHashes
          document := (List.mem_filter.1 h).1
      have hllm : isLlmCheck c = true := by
        unfold checksSafeToCarryForward at hcarried
        split at hcarried
        · exact absurd hcarried List.not_mem_nil
        · exact (List.mem_filter.1 (List.mem_filter.1 hcarried).1).2
      rw [hdet.not_llm] at hllm
      exact absurd hllm Bool.false_ne_true
  | targeted =>
    simp only [ne_eq, not_true_eq_false, false_or, reduceCtorEq, not_false_eq_true, true_and]
    constructor
    · intro h c hc hdet hcat
      by_cases hs : c ∈ structureChecks
      · exact Or.inl hs
      · refine Or.inr ?_
        by_cases hlast : LastOfKind
            (keptChecks prior reverifySectionIds missingChecklistIds checklist ++ reply.checks) c
        · have hfinal := h c hc hdet ((mem_merged_of_deterministic hdet hcat hs prior reply
            reverifySectionIds missingChecklistIds).2 hlast)
          exact Or.inl (hfinal.resolve_left hs)
        · exact Or.inr hlast
    · intro h c hc hdet hfinal
      by_cases hs : c ∈ structureChecks
      · exact Or.inl hs
      · refine Or.inr ?_
        have hprose := (hdet.mem_assembled.1 (mem_assembled_of_mem_final hfinal)).resolve_left hs
        have hcat : c.categoryText = "document_coherence" := by
          refine hdet.category.resolve_right fun hstr => ?_
          have hin := (List.mem_filter.1 hprose).2
          rw [categoryIn_prose, hstr] at hin
          exact absurd hin (by decide)
        have hlast := (mem_merged_of_deterministic hdet hcat hs prior reply reverifySectionIds
          missingChecklistIds).1 hfinal
        rcases h c hc hdet hcat with h | h | h
        · exact absurd h hs
        · exact h
        · exact absurd hlast h

end

/-- A placement failure of the prior result in a section outside the scope is
still in the new one, though nothing found it again. -/
theorem targeted_merge_keeps_stale_check :
    ¬ NoStaleDeterministic id .targeted
      { checks := some
          [{ id := some (.str "det_math_in_code_block"),
             category := some (.str "document_coherence"), passed := some (.bool false),
             severity := some (.str "critical"), sectionId := some (.str "ts_2"),
             correctiveHint := some (.str "Move math notation from code_blocks.") }] }
      { checks :=
          [{ id := some (.str "ca_1"), category := some (.str "content_accuracy"),
             passed := some (.bool true), sectionId := some (.str "ts_1") }] }
      [] ["ts_1"] []
      { sections :=
          [{ id := some (.str "ts_1"), content := some "first" },
           { id := some (.str "ts_2"), content := some "second" }] }
      ∅ [] := by
  intro h
  have hstale := h _ List.mem_cons_self
    { id_mem := by decide, category := by decide, failed := by decide, hint := by decide }
    (by decide)
  revert hstale
  decide

end StudyAgent.Freshness
