import StudyAgent.Node.Lineage

/-!
# Infrastructure failures

A visit whose call fails says nothing about the document, so the next visit should know
what this one knew.  The failure return replaces the prior result by one without checks
and counts the attempt.  The next visit then takes the empty result for a certified one,
or merges its reply with no prior check.

Main results:

* `shown_merged` — prior checks that add nothing alone add nothing to a reply.
* `infraHarmless_iff` — **exactly when a failed call leaves the next visit as it was.**
-/

namespace StudyAgent.QualityCheck

open Py Dedup TargetedMerge Strategy Freshness ResultBuilder FrozenSets RetryRouting

/-! ## The law -/

/-- What a visit finds out. -/
structure Knowledge where
  checks : Option (List Check)
  overallStatus : Option OverallStatus
  passed : Bool
  frozenCheckIds : List String
  frozenSectionKeys : List String
  routing : RetryRoutingResult
  deriving DecidableEq

def knowledge {H : Type} (s : QcState H) : Knowledge where
  checks := s.qcResult.bind QcResult.checks
  overallStatus := s.qcResult.bind QcResult.overallStatus
  passed := s.qcPassed
  frozenCheckIds := s.qcFrozenCheckIds
  frozenSectionKeys := s.qcFrozenSectionKeys
  routing := s.routing

section

variable {H : Type} [DecidableEq H] (env : Env H) (s : QcState H)

/-- The visit calls the verifier, and the call fails. -/
def CallFails (o : LlmOutcome) : Prop :=
  ∃ document errorType, checkedDocument s = some document ∧ o.keysConfigured = true ∧
    verify env s (phase1 env document) o = some (.error errorType)

/-- **A failed call leaves the next visit as it was**, up to the counters. -/
def InfraHarmless : Prop :=
  ∀ failing s', CallFails env s failing → visit env s failing = some s' →
    ∀ o, (visit env s' o).map knowledge = (visit env s o).map knowledge

/-- The checks a result shows when these come from the verification. -/
def shown (p : Phase1) (checks : List Check) : List Check :=
  finalChecks { checks := checks } p.structureChecks p.document env.checklist

/-- The prior checks outside the scope of a targeted visit. -/
def keptPrior (p : Phase1) : List Check :=
  keptChecks (s.qcResult.getD {}) (reverifySectionIds env s p) (missingChecklistIds env s p)
    env.checklist

/-- The next visit does not depend on the prior checks: it verifies the whole document
again, or the kept prior checks add nothing to what the deterministic phase shows. -/
def PriorUnused (p : Phase1) : Prop :=
  match (decision env s p).mode with
  | .full => p.failures ≠ [] ∧ isPlacementOnlyFailure p.failures = false
  | .targeted => shown env p (dedupChecks (keptPrior env s p)) = shown env p []
  | .deterministicOnly => True

end

/-! ## Prior checks that add nothing -/

theorem dedupDocumentLevelChecks_eq (checks : List Check) :
    dedupDocumentLevelChecks checks =
      lastWinsWhere isDocumentLevelCheck Check.categoryText checks := by
  unfold dedupDocumentLevelChecks
  by_cases h : checks.any isDocumentLevelCheck = true
  · rw [if_pos h, keepLastWhere_eq]
  · rw [if_neg h]
    have hnone : checks.filter (fun c => !isDocumentLevelCheck c) = checks := by
      refine List.filter_eq_self.2 fun c hc => ?_
      have hall : ∀ d ∈ checks, isDocumentLevelCheck d = false := by simpa using h
      rw [hall c hc]
      rfl
    have hkept : (lastWinsWhere isDocumentLevelCheck Check.categoryText checks).filter
        (fun c => !isDocumentLevelCheck c) = checks.filter fun c => !isDocumentLevelCheck c :=
      filter_not_lastWinsWhere checks
    rw [hnone] at hkept
    have hsub : checks.Sublist (lastWinsWhere isDocumentLevelCheck Check.categoryText checks) := by
      conv_lhs => rw [← hkept]
      exact List.filter_sublist
    exact hsub.antisymm (lastWinsWhere_sublist checks)

section

variable {H : Type} [DecidableEq H] {env : Env H} {p : Phase1}

/-- Prose checks as they enter the result. -/
def shownProse (env : Env H) (checks : List Check) : List Check :=
  (checks.filter fun c => c.categoryIn PROSE_CATEGORIES).map (processProse env.checklist)

/-- Code checks as they enter the result. -/
def shownCode (p : Phase1) (checks : List Check) : List Check :=
  (checks.filter fun c => c.categoryIn CODE_CATEGORIES).map (processCode p.document)

omit [DecidableEq H] in
theorem shown_eq (checks : List Check) : shown env p checks =
    lastWinsWhere isDocumentLevelCheck Check.categoryText
      (p.structureChecks ++ shownProse env checks ++ shownCode p checks) := by
  unfold shown
  rw [finalChecks_eq, dedupDocumentLevelChecks_eq]
  rfl

omit [DecidableEq H] in
theorem shown_nil : shown env p [] =
    lastWinsWhere isDocumentLevelCheck Check.categoryText p.structureChecks := by
  rw [shown_eq]
  unfold shownProse shownCode
  simp

theorem shownCode_not_documentLevel {checks : List Check} {c : Check}
    (h : c ∈ shownCode p checks) : isDocumentLevelCheck c = false := by
  obtain ⟨d, hd, rfl⟩ := List.mem_map.1 h
  have hcode := (List.mem_filter.1 hd).2
  rw [categoryIn_code] at hcode
  by_contra hdoc
  have hprose := (documentLevel_prose (by simpa using hdoc)).1
  rw [categoryIn_prose] at hprose
  unfold Check.categoryText at hcode hprose
  rw [processCode_category] at hprose
  have hdisjoint : ∀ w ∈ CODE_CATEGORIES, w ∉ PROSE_CATEGORIES := by decide
  exact hdisjoint _ hcode hprose

omit [DecidableEq H] in
/-- Checks that add nothing are document-level prose checks. -/
theorem adds_nothing {checks : List Check} (h : shown env p checks = shown env p []) :
    shownCode p checks = [] ∧
      ∀ c ∈ checks, c.categoryIn PROSE_CATEGORIES = true → isDocumentLevelCheck c = true := by
  have hplain : (shownProse env checks ++ shownCode p checks).filter
      (fun c => !isDocumentLevelCheck c) = [] := by
    have hfilter := congrArg (List.filter fun c => !isDocumentLevelCheck c) h
    rw [shown_eq, shown_nil, filter_not_lastWinsWhere, filter_not_lastWinsWhere,
      List.append_assoc, List.filter_append] at hfilter
    exact List.append_cancel_left (hfilter.trans (List.append_nil _).symm)
  have hnone : ∀ c ∈ shownProse env checks ++ shownCode p checks,
      isDocumentLevelCheck c = true := by
    intro c hc
    simpa using List.filter_eq_nil_iff.1 hplain c hc
  constructor
  · refine List.eq_nil_iff_forall_not_mem.2 fun c hc => ?_
    have hdoc := hnone c (List.mem_append_right _ hc)
    rw [shownCode_not_documentLevel hc] at hdoc
    exact absurd hdoc Bool.false_ne_true
  · intro c hc hprose
    have hmem : processProse env.checklist c ∈ shownProse env checks :=
      List.mem_map.2 ⟨c, List.mem_filter.2 ⟨hc, hprose⟩, rfl⟩
    rw [← processProse_documentLevel env.checklist c]
    exact hnone _ (List.mem_append_left _ hmem)

omit [DecidableEq H] in
/-- **Prior checks that add nothing alone add nothing to a reply.** -/
theorem shown_merged {kept new : List Check}
    (h : shown env p (dedupChecks kept) = shown env p []) :
    shown env p (dedupChecks (kept ++ new)) = shown env p (dedupChecks new) := by
  obtain ⟨hcode, hdocument⟩ := adds_nothing h
  have hmerged : dedupChecks (kept ++ new) =
      (dedupChecks kept).filter (fun c => ¬ ∃ n ∈ new, dedupKey n = dedupKey c) ++
        dedupChecks new := by
    unfold dedupChecks
    rw [keepLast_eq_lastWins, keepLast_eq_lastWins, keepLast_eq_lastWins, lastWins_append]
  generalize hkept : dedupChecks kept = K at h hcode hdocument hmerged
  generalize hN : dedupChecks new = N at hmerged ⊢
  rw [hmerged]
  -- the reply evicts from the kept checks what it would evict from the result anyway
  have hcode' : shownCode p (K.filter fun c => ¬ ∃ n ∈ new, dedupKey n = dedupKey c) = [] := by
    unfold shownCode at hcode ⊢
    rw [List.map_eq_nil_iff] at hcode ⊢
    rw [List.filter_comm, hcode]
    rfl
  have hstays : ∀ c ∈ K, c.categoryIn PROSE_CATEGORIES = true →
      Stays isDocumentLevelCheck Check.categoryText (shownProse env N ++ shownCode p N)
        (processProse env.checklist c) = true → ¬ ∃ n ∈ new, dedupKey n = dedupKey c := by
    rintro c hc hprose hstay ⟨n, hn, hkey⟩
    have hdoc := hdocument c hc hprose
    obtain ⟨n', hn', hkey'⟩ : ∃ n' ∈ lastWins dedupKey new, dedupKey n' = dedupKey n :=
      exists_mem_lastWins hn
    have hmem : n' ∈ N := by
      rw [← hN]
      unfold dedupChecks
      rwa [keepLast_eq_lastWins]
    obtain ⟨hlevel, hcategory⟩ := documentLevel_of_dedupKey (hkey'.trans hkey)
    rw [hdoc] at hlevel
    refine stays_iff.1 hstay ⟨?_, processProse env.checklist n', ?_, ?_, ?_⟩
    · rw [processProse_documentLevel, hdoc]
    · exact List.mem_append_left _ (List.mem_map.2
        ⟨n', List.mem_filter.2 ⟨hmem, (documentLevel_prose hlevel).1⟩, rfl⟩)
    · rw [processProse_documentLevel, hlevel]
    · unfold Check.categoryText at hcategory ⊢
      rw [processProse_category, processProse_category, hcategory]
  rw [shown_eq, shown_eq]
  rw [shown_eq, shown_nil, hcode, List.append_nil] at h
  have hsplit : ∀ (l : List Check),
      p.structureChecks ++ shownProse env (l ++ N) ++ shownCode p (l ++ N) =
        p.structureChecks ++ shownProse env l ++
          (shownProse env N ++ shownCode p l ++ shownCode p N) := by
    intro l
    unfold shownProse shownCode
    simp only [List.filter_append, List.map_append, List.append_assoc]
  rw [hsplit, hcode', List.append_nil]
  calc lastWinsWhere isDocumentLevelCheck Check.categoryText
        (p.structureChecks ++
          shownProse env (K.filter fun c => ¬ ∃ n ∈ new, dedupKey n = dedupKey c) ++
          (shownProse env N ++ shownCode p N))
      = lastWinsWhere isDocumentLevelCheck Check.categoryText
          (p.structureChecks ++ shownProse env K ++ (shownProse env N ++ shownCode p N)) := by
        refine lastWinsWhere_append_congr ?_
        rw [List.filter_append, List.filter_append]
        congr 1
        unfold shownProse
        simp only [List.filter_map, List.filter_filter]
        congr 1
        refine List.filter_congr fun c hc => ?_
        rw [Bool.eq_iff_iff]
        simp only [Bool.and_eq_true, decide_eq_true_eq, Function.comp_apply]
        constructor
        · exact fun hcond => ⟨hcond.1, hcond.2.1⟩
        · exact fun hcond => ⟨hcond.1, hcond.2, hstays c hc hcond.2 hcond.1⟩
    _ = lastWinsWhere isDocumentLevelCheck Check.categoryText
          (p.structureChecks ++ shownProse env N ++ shownCode p N) := by
        rw [lastWinsWhere_append, h, ← lastWinsWhere_append, List.append_assoc]

end

/-! ## The next visit -/

section

variable {H : Type} [DecidableEq H] {env : Env H} {s : QcState H} {p : Phase1} {document : Document}
  {errorType : String}

/-- What a visit that passes its guards does with the verifier. -/
theorem visit_eq (hdoc : checkedDocument s = some document) (o : LlmOutcome) :
    visit env s o =
      if o.keysConfigured = false then some (infraFailureReturn s "llm_infra_error")
      else
        (verify env s (phase1 env document) o).map fun outcome =>
          match outcome with
          | .error errorType => infraFailureReturn s (resolveQcInfraErrorType errorType)
          | .ok v => finish env s (phase1 env document) o v := by
  unfold visit
  split
  · rename_i hnone
    rw [hdoc] at hnone
    cases hnone
  · rename_i found hfound
    rw [hdoc] at hfound
    cases hfound
    rfl

/-- Two states with the same frozen ids, the same mode and the same scope show the same
when their verifications show the same checks. -/
theorem knowledge_finish {t : QcState H} {o : LlmOutcome} {v : Verification}
    {checks checks' : List Check}
    (hmode : (decision env t p).mode = (decision env s p).mode)
    (hcalls : (decision env s p).mode ≠ .deterministicOnly)
    (hscope : reverifySectionIds env t p = reverifySectionIds env s p)
    (hrouting : t.routing = s.routing)
    (hfrozen : t.qcFrozenCheckIds = s.qcFrozenCheckIds ∧
      t.qcFrozenSectionKeys = s.qcFrozenSectionKeys)
    (hchecks : shown env p checks' = shown env p checks) :
    knowledge (finish env t p o { v with checks := checks' }) =
      knowledge (finish env s p o { v with checks := checks }) := by
  have hmissing : missingChecklistIds env t p = missingChecklistIds env s p := by
    unfold missingChecklistIds
    rw [hmode, hrouting]
  have hmodel : modelUsed env t p o = modelUsed env s p o := by
    unfold modelUsed
    rw [hmode]
    cases hm : (decision env s p).mode with
    | full => rfl
    | targeted => rfl
    | deterministicOnly => exact absurd hm hcalls
  have hfinal : finalChecks { v with checks := checks' } p.structureChecks p.document
      env.checklist = finalChecks { v with checks := checks } p.structureChecks p.document
        env.checklist := hchecks
  have hresult : finalResult env t p o { v with checks := checks' } =
      finalResult env s p o { v with checks := checks } := by
    unfold finalResult buildFinalQcResult
    rw [hfinal, hmodel, hmode]
  unfold knowledge finish
  rw [hresult, hscope, hmissing, hfrozen.1, hfrozen.2]

omit [DecidableEq H] in
/-- After a failed call the prior result counts as certified. -/
theorem mayCarryForward_infra :
    MayCarryForward (infraFailureReturn s errorType).qcAttempt
        (infraFailureReturn s errorType).qcResult p.failures ↔
      p.failures = [] ∨ isPlacementOnlyFailure p.failures = true := by
  unfold MayCarryForward
  exact ⟨fun h => h.2.2, fun h => ⟨Nat.succ_ne_zero _, rfl, h⟩⟩

/-- The ids that the hashes report as changed. -/
def changedIds (env : Env H) (s : QcState H) (p : Phase1) : List String :=
  sectionsWithChangedHashes env.hash s.qcSectionContentHashes p.document
    (sectionIdsFromFailures p.failures)

/-- The mode and the scope of a visit. -/
theorem decision_cases :
    (s.fixedSections ≠ [] ∧ (decision env s p).mode = .targeted ∧
      reverifySectionIds env s p =
        reverifySectionIdsForTargeted s.routing.failedSectionIds s.fixedSections) ∨
    (s.fixedSections = [] ∧ ¬ MayCarryForward s.qcAttempt s.qcResult p.failures ∧
      (decision env s p).mode = .full) ∨
    (s.fixedSections = [] ∧ MayCarryForward s.qcAttempt s.qcResult p.failures ∧
      ((changedIds env s p ≠ [] ∧ (decision env s p).mode = .targeted ∧
          reverifySectionIds env s p = changedIds env s p) ∨
        (changedIds env s p = [] ∧ (decision env s p).mode = .deterministicOnly))) := by
  rcases @decideQcVerification_cases _ _ env.hash s.qcAttempt s.qcResult p.failures
    (s.fixedSections ≠ []) p.document s.qcSectionContentHashes s.routing.failedSectionIds with
    ⟨hfixed, hmode, -⟩ | ⟨hfixed, hmay, hmode, -⟩ | ⟨hfixed, hmay, hids, hmode⟩
  · have hfixed : s.fixedSections ≠ [] := of_decide_eq_true hfixed
    refine Or.inl ⟨hfixed, hmode, ?_⟩
    unfold reverifySectionIds reverifyScope decision
    rw [hmode, if_pos hfixed]
  · exact Or.inr (Or.inl ⟨by simpa using hfixed, hmay, hmode⟩)
  · have hfixed : s.fixedSections = [] := by simpa using hfixed
    refine Or.inr (Or.inr ⟨hfixed, hmay, ?_⟩)
    rcases hmode with ⟨hne, hmode⟩ | ⟨hnil, hmode⟩
    · refine Or.inl ⟨hne, hmode, ?_⟩
      unfold reverifySectionIds reverifyScope decision
      rw [hmode, if_neg (not_not_intro hfixed), hids]
      rfl
    · exact Or.inr ⟨hnil, hmode⟩

/-- A targeted visit stays targeted, with its scope. -/
theorem targeted_infra (hmode : (decision env s p).mode = .targeted) :
    (decision env (infraFailureReturn s errorType) p).mode = .targeted ∧
      reverifySectionIds env (infraFailureReturn s errorType) p = reverifySectionIds env s p := by
  have ht := @decision_cases _ _ env (infraFailureReturn s errorType) p
  rw [mayCarryForward_infra] at ht
  rcases @decision_cases _ _ env s p with ⟨hfixed, -, hscope⟩ |
    ⟨-, -, hfull⟩ | ⟨hfixed, hmay, ⟨hne, -, hscope⟩ | ⟨-, honly⟩⟩
  · rcases ht with ⟨-, hmode', hscope'⟩ | ⟨hnot, -⟩ | ⟨hnot, -⟩
    · exact ⟨hmode', hscope'.trans hscope.symm⟩
    · exact absurd hnot hfixed
    · exact absurd hnot hfixed
  · rw [hfull] at hmode
    cases hmode
  · rcases ht with ⟨hnot, -⟩ | ⟨-, hnot, -⟩ | ⟨-, -, ⟨-, hmode', hscope'⟩ | ⟨hnil, -⟩⟩
    · exact absurd hfixed hnot
    · exact absurd hmay.2.2 hnot
    · exact ⟨hmode', hscope'.trans hscope.symm⟩
    · exact absurd hnil hne
  · rw [honly] at hmode
    cases hmode

/-- A full visit stays full exactly when phase 1 fails otherwise than by placement. -/
theorem full_infra (hmode : (decision env s p).mode = .full) :
    (decision env (infraFailureReturn s errorType) p).mode = .full ↔
      p.failures ≠ [] ∧ isPlacementOnlyFailure p.failures = false := by
  have hfixed : s.fixedSections = [] := by
    rcases @decision_cases _ _ env s p with ⟨-, ht, -⟩ | ⟨hfixed, -⟩ | ⟨hfixed, -⟩
    · rw [ht] at hmode
      cases hmode
    · exact hfixed
    · exact hfixed
  have hmay : ¬ (p.failures = [] ∨ isPlacementOnlyFailure p.failures = true) ↔
      p.failures ≠ [] ∧ isPlacementOnlyFailure p.failures = false := by
    rw [not_or, Bool.not_eq_true]
  rw [← hmay]
  have ht := @decision_cases _ _ env (infraFailureReturn s errorType) p
  rw [mayCarryForward_infra] at ht
  rcases ht with ⟨hnot, -⟩ | ⟨-, hnot, hfull⟩ | ⟨-, hcond, ⟨-, hother, -⟩ | ⟨-, hother⟩⟩
  · exact absurd hfixed hnot
  · exact iff_of_true hfull hnot
  · rw [hother]
    exact iff_of_false (by decide) (not_not_intro hcond)
  · rw [hother]
    exact iff_of_false (by decide) (not_not_intro hcond)

/-! ## Exactly when a failed call is harmless -/

theorem verify_full (hmode : (decision env s p).mode = .full) (o : LlmOutcome) :
    verify env s p o = some (runLlmVerificationPass o) := by
  unfold verify
  rw [hmode]

/-- A targeted visit merges the reply with the kept prior checks. -/
theorem verify_targeted {prior : QcResult} (hmode : (decision env s p).mode = .targeted)
    (hprior : s.qcResult = some prior) (o : LlmOutcome) :
    verify env s p o = some ((runLlmVerificationPass o).map fun reply =>
      { reply with checks := dedupChecks (keptPrior env s p ++ reply.checks) }) := by
  unfold verify keptPrior
  rw [hmode, hprior]
  rfl

theorem keptPrior_infra : keptPrior env (infraFailureReturn s errorType) p = [] := rfl

/-- Two states whose verifications of every reply show the same know the same after a
visit. -/
theorem visit_knowledge {t : QcState H} (hdoc : checkedDocument s = some document)
    (hdoc' : checkedDocument t = some document) (hrouting : t.routing = s.routing)
    (hfrozen : t.qcFrozenCheckIds = s.qcFrozenCheckIds ∧
      t.qcFrozenSectionKeys = s.qcFrozenSectionKeys)
    (hmode : (decision env t (phase1 env document)).mode =
      (decision env s (phase1 env document)).mode)
    (hcalls : (decision env s (phase1 env document)).mode ≠ .deterministicOnly)
    (hscope : reverifySectionIds env t (phase1 env document) =
      reverifySectionIds env s (phase1 env document))
    {f g : List Check → List Check} (o : LlmOutcome)
    (hs : verify env s (phase1 env document) o =
      some ((runLlmVerificationPass o).map fun v => { v with checks := f v.checks }))
    (ht : verify env t (phase1 env document) o =
      some ((runLlmVerificationPass o).map fun v => { v with checks := g v.checks }))
    (hshown : ∀ checks, shown env (phase1 env document) (g checks) =
      shown env (phase1 env document) (f checks)) :
    (visit env t o).map knowledge = (visit env s o).map knowledge := by
  rw [visit_eq hdoc, visit_eq hdoc']
  split_ifs
  · unfold knowledge infraFailureReturn
    rw [Option.map_some, Option.map_some, hrouting, hfrozen.1, hfrozen.2]
  · rw [hs, ht]
    cases hrun : runLlmVerificationPass o with
    | error e =>
      unfold knowledge infraFailureReturn
      simp only [Except.map, Option.map_some, hrouting, hfrozen.1, hfrozen.2]
    | ok v =>
      simp only [Except.map, Option.map_some]
      rw [knowledge_finish hmode hcalls hscope hrouting hfrozen (hshown v.checks)]

/-- The checks that a visit with a result shows. -/
theorem visit_shows (hdoc : checkedDocument s = some document) {o : LlmOutcome} {v : Verification}
    (hkeys : o.keysConfigured = true)
    (hverify : verify env s (phase1 env document) o = some (.ok v)) :
    ((visit env s o).map knowledge).bind Knowledge.checks =
      some (shown env (phase1 env document) v.checks) := by
  rw [visit_eq hdoc, if_neg (by simp [hkeys]), hverify]
  rfl

/-- The next state when the call fails. -/
theorem visit_fails (hdoc : checkedDocument s = some document) {o : LlmOutcome}
    (hkeys : o.keysConfigured = true) {e : Option String}
    (hverify : verify env s (phase1 env document) o = some (.error e)) :
    visit env s o = some (infraFailureReturn s (resolveQcInfraErrorType e)) := by
  rw [visit_eq hdoc, if_neg (by simp [hkeys]), hverify]
  rfl

/-- A call that the provider fails. -/
def providerFails : LlmOutcome where
  first := .failed none

/-- A second opinion about one claim of the document. -/
def claimCheck (passed : Bool) : Check where
  category := some (.str "content_accuracy")
  passed := some (.bool passed)

omit [DecidableEq H] in
/-- How many checks outside the document level a result shows. -/
theorem count_shown (checks : List Check) :
    ((shown env p checks).filter fun c => !isDocumentLevelCheck c).length =
      (p.structureChecks.filter fun c => !isDocumentLevelCheck c).length +
        ((shownProse env checks ++ shownCode p checks).filter
          fun c => !isDocumentLevelCheck c).length := by
  rw [shown_eq, filter_not_lastWinsWhere, List.append_assoc, List.filter_append,
    List.length_append]

omit [DecidableEq H] in
theorem count_claims (passed : List Bool) :
    ((shownProse env (passed.map claimCheck) ++ shownCode p (passed.map claimCheck)).filter
      fun c => !isDocumentLevelCheck c).length = passed.length := by
  have hprose : (passed.map claimCheck).filter (fun c => c.categoryIn PROSE_CATEGORIES) =
      passed.map claimCheck := by
    refine List.filter_eq_self.2 fun c hc => ?_
    obtain ⟨b, -, rfl⟩ := List.mem_map.1 hc
    cases b <;> decide
  have hcode : (passed.map claimCheck).filter (fun c => c.categoryIn CODE_CATEGORIES) = [] := by
    refine List.filter_eq_nil_iff.2 fun c hc => ?_
    obtain ⟨b, -, rfl⟩ := List.mem_map.1 hc
    cases b <;> decide
  unfold shownProse shownCode
  rw [hprose, hcode, List.map_nil, List.append_nil]
  have hplain : ((passed.map claimCheck).map (processProse env.checklist)).filter
      (fun c => !isDocumentLevelCheck c) =
        (passed.map claimCheck).map (processProse env.checklist) := by
    refine List.filter_eq_self.2 fun c hc => ?_
    obtain ⟨d, hd, rfl⟩ := List.mem_map.1 hc
    obtain ⟨b, -, rfl⟩ := List.mem_map.1 hd
    rw [processProse_documentLevel]
    cases b <;> decide
  rw [hplain, List.length_map, List.length_map]

/-- Two opinions about one claim tell a full visit from any other after a failed call. -/
theorem full_of_harmless (hdoc : checkedDocument s = some document)
    (hmode : (decision env s (phase1 env document)).mode = .full) (h : InfraHarmless env s) :
    (decision env (infraFailureReturn s (resolveQcInfraErrorType none))
      (phase1 env document)).mode = .full := by
  have hfails : verify env s (phase1 env document) providerFails = some (.error none) :=
    verify_full hmode providerFails
  have hagree := h providerFails _ ⟨document, none, hdoc, rfl, hfails⟩ (visit_fails hdoc rfl hfails)
    (reply ([true, false].map claimCheck))
  have hchecks := congrArg (fun k => k.bind Knowledge.checks) hagree
  rw [visit_shows hdoc rfl (verify_full hmode _)] at hchecks
  cases hother : (decision env (infraFailureReturn s (resolveQcInfraErrorType none))
      (phase1 env document)).mode with
  | full => rfl
  | targeted =>
    exfalso
    rw [visit_shows (s := infraFailureReturn s (resolveQcInfraErrorType none)) hdoc rfl
      (verify_targeted hother rfl (reply ([true, false].map claimCheck)))] at hchecks
    have hlength := congrArg (fun l => (l.filter fun c => !isDocumentLevelCheck c).length)
      (Option.some.inj hchecks)
    dsimp only at hlength
    rw [count_shown, count_shown, count_claims] at hlength
    have hdedup : dedupChecks (keptPrior env (infraFailureReturn s (resolveQcInfraErrorType none))
        (phase1 env document) ++ [true, false].map claimCheck) = [false].map claimCheck := by
      rw [keptPrior_infra]
      decide
    rw [hdedup, count_claims] at hlength
    simp at hlength
  | deterministicOnly =>
    exfalso
    have hverify : verify env (infraFailureReturn s (resolveQcInfraErrorType none))
        (phase1 env document) (reply ([true, false].map claimCheck)) =
          some (.ok (buildCarriedForwardVerification (qcInfraErrorResult
            (resolveQcInfraErrorType none)) ([].map claimCheck))) := by
      have hnone : checksSafeToCarryForward env.hash (priorLlmChecks (some (qcInfraErrorResult
          (resolveQcInfraErrorType none))))
            (infraFailureReturn s (resolveQcInfraErrorType none)).qcSectionContentHashes
            (phase1 env document).document = [] := by
        unfold checksSafeToCarryForward
        split_ifs <;> rfl
      unfold verify
      rw [hother]
      show some (Except.ok (buildCarriedForwardVerification _ _)) = _
      rw [hnone]
      rfl
    rw [visit_shows (s := infraFailureReturn s (resolveQcInfraErrorType none)) hdoc rfl
      hverify] at hchecks
    have hlength := congrArg (fun l => (l.filter fun c => !isDocumentLevelCheck c).length)
      (Option.some.inj hchecks)
    dsimp only at hlength
    change (List.filter _ (shown env _ ([].map claimCheck))).length = _ at hlength
    rw [count_shown, count_shown, count_claims, count_claims] at hlength
    simp at hlength

/-- **A failed call leaves the next visit as it was exactly when** that visit does not
depend on the prior checks. -/
theorem infraHarmless_iff (env : Env H) (s : QcState H) :
    InfraHarmless env s ↔ ∀ document, checkedDocument s = some document →
      PriorUnused env s (phase1 env document) := by
  constructor
  · intro h document hdoc
    unfold PriorUnused
    cases hmode : (decision env s (phase1 env document)).mode with
    | deterministicOnly => exact trivial
    | full => exact (full_infra hmode).1 (full_of_harmless hdoc hmode h)
    | targeted =>
      show shown env _ (dedupChecks _) = _
      cases hprior : s.qcResult with
      | none =>
        unfold keptPrior
        rw [hprior]
        rfl
      | some prior =>
        have hfails : verify env s (phase1 env document) providerFails = some (.error none) :=
          verify_targeted hmode hprior providerFails
        have hagree := h providerFails _ ⟨document, none, hdoc, rfl, hfails⟩
          (visit_fails hdoc rfl hfails) (reply [])
        have hchecks := congrArg (fun k => k.bind Knowledge.checks) hagree
        rw [visit_shows hdoc rfl (verify_targeted hmode hprior (reply []))] at hchecks
        rw [visit_shows (s := infraFailureReturn s (resolveQcInfraErrorType none)) hdoc rfl
          (verify_targeted (targeted_infra hmode).1 rfl (reply []))] at hchecks
        have hequal := (Option.some.inj hchecks).symm
        rw [keptPrior_infra] at hequal
        dsimp only at hequal
        rw [List.append_nil] at hequal
        exact hequal
  · rintro h failing s' ⟨document, e, hdoc, hkeys, hverify⟩ hvisit o
    rw [visit_fails hdoc hkeys hverify] at hvisit
    cases hvisit
    have hunused := h document hdoc
    unfold PriorUnused at hunused
    cases hmode : (decision env s (phase1 env document)).mode with
    | deterministicOnly => exact absurd hmode (verify_error hverify).1
    | full =>
      rw [hmode] at hunused
      have hfull := (@full_infra _ _ env s _ (resolveQcInfraErrorType e) hmode).2 hunused
      have hsame : ∀ o : LlmOutcome, (runLlmVerificationPass o).map
          (fun v => { v with checks := id v.checks }) = runLlmVerificationPass o := by
        intro o
        cases runLlmVerificationPass o <;> rfl
      refine visit_knowledge (t := infraFailureReturn s (resolveQcInfraErrorType e)) hdoc hdoc rfl
        ⟨rfl, rfl⟩ (hfull.trans hmode.symm)
        (by rw [hmode]; decide) ?_ (f := id) (g := id) o ?_ ?_ fun _ => rfl
      · unfold reverifySectionIds reverifyScope
        rw [hmode, hfull]
      · rw [hsame, verify_full hmode]
      · rw [hsame, verify_full hfull]
    | targeted =>
      rw [hmode] at hunused
      cases hprior : s.qcResult with
      | none =>
        unfold verify at hverify
        rw [hmode, hprior] at hverify
        exact absurd hverify (by simp)
      | some prior =>
        obtain ⟨htargeted, hscope⟩ :=
          @targeted_infra _ _ env s _ (resolveQcInfraErrorType e) hmode
        refine visit_knowledge (t := infraFailureReturn s (resolveQcInfraErrorType e)) hdoc hdoc
          rfl ⟨rfl, rfl⟩ (htargeted.trans hmode.symm)
          (by rw [hmode]; decide) hscope
          (f := fun checks => dedupChecks (keptPrior env s (phase1 env document) ++ checks))
          (g := fun checks => dedupChecks (keptPrior env (infraFailureReturn s
            (resolveQcInfraErrorType e)) (phase1 env document) ++ checks))
          o (verify_targeted hmode hprior o)
          (verify_targeted htargeted rfl o) fun checks => ?_
        rw [keptPrior_infra, List.nil_append]
        exact (shown_merged hunused).symm

end

/-- After a failed first call the next visit passes a document on no check at all. -/
theorem failed_call_certifies : ¬ InfraHarmless oneItemEnv (writtenState "old") := by
  intro h
  have hfails : CallFails oneItemEnv (writtenState "old") providerFails :=
    ⟨oneSection "old", none, rfl, rfl, rfl⟩
  have hagree := h providerFails _ hfails rfl (reply [wrongClaim])
  have hpassed := congrArg (fun k => k.map Knowledge.passed) hagree
  exact absurd hpassed (by decide)

end StudyAgent.QualityCheck
