import StudyAgent.Placement.Apply
import StudyAgent.Qc.CarryForward
import StudyAgent.Qc.Freshness
import StudyAgent.Qc.FrozenSets
import StudyAgent.Qc.RoutingLaws

/-!
# The quality-check node

One visit of `quality_check_node` on the state of the graph: the guards, the
deterministic phase with its relocations, the choice of the verification, the
verifier's reply or its failure, the final result, its routing and the frozen ids.
What the visit writes is what later visits read.

Main results:

* `visit_cases` — **everything a visit can do to the state.**
* `phase1_deterministic` — what the deterministic phase contributes are deterministic
  checks.
-/

namespace StudyAgent.QualityCheck

open Py TargetedMerge Strategy Freshness ResultBuilder RetryRouting FrozenSets Placement

/-! ## State -/

/-- `MAX_QC_ATTEMPTS`. -/
def MAX_QC_ATTEMPTS : ℕ := 3

/-- What stays the same during a run. -/
structure Env (H : Type) where
  hash : Section → H
  patterns : Patterns
  checklist : List ChecklistItem := []
  topicSplit : List TopicSplitEntry := []
  domain : String := ""
  qcLlmModel : String := ""

/-- The fields of the graph state that quality control reads or writes.  The
generated content and its parsed document are one field. -/
structure QcState (H : Type) where
  generationOutcome : Option String := none
  terminalLlmFailure : Bool := false
  error : Bool := false
  document : Option Document := none
  fixedSections : List Section := []
  qcAttempt : ℕ := 0
  qcPassed : Bool := false
  qcEvaluated : Bool := false
  qcFailedPermanently : Bool := false
  qcResult : Option QcResult := none
  qcVerificationMode : Option QcVerificationMode := none
  qcFrozenCheckIds : List String := []
  qcFrozenSectionKeys : List String := []
  qcSectionContentHashes : Hashes H := ∅
  routing : RetryRoutingResult := { mode := .none }
  llmErrorType : Option String := none

/-! ## The verifier -/

/-- One call: a provider failure, or a reply and what it parses to. -/
inductive CallResult where
  | failed (errorType : Option String)
  | replied (parsed : Option Verification)
  deriving DecidableEq

/-- What the provider does during a visit: the call, and the second one that follows
a malformed reply. -/
structure LlmOutcome where
  keysConfigured : Bool := true
  first : CallResult
  reprompt : CallResult := .replied none
  model : Option String := none
  deriving DecidableEq

/-- `run_llm_verification_pass`: the verification, or the type of the error. -/
def runLlmVerificationPass (o : LlmOutcome) : Except (Option String) Verification :=
  match o.first with
  | .failed errorType => .error errorType
  | .replied (some v) => .ok v
  | .replied none =>
    match o.reprompt with
    | .failed errorType => .error errorType
    | .replied (some v) => .ok v
    | .replied none => .error none

/-- `resolve_qc_infra_error_type`. -/
def resolveQcInfraErrorType (errorType : Option String) : String :=
  match errorType with
  | some t =>
    if t ∈ ["rate_limited", "token_limit", "llm_infra_error", "llm_key_pool_exhausted"] then t
    else "qc_verification_failed"
  | none => "qc_verification_failed"

/-! ## Early returns -/

section Returns

variable {H : Type} (s : QcState H)

/-- `build_qc_guard_return`. -/
def qcGuardReturn : QcState H :=
  { s with qcPassed := false, qcEvaluated := false }

/-- `build_qc_infra_error_result`. -/
def qcInfraErrorResult (errorType : String) : QcResult :=
  { qcInfraError := true, errorType := some errorType }

/-- `build_infra_failure_return`. -/
def infraFailureReturn (errorType : String) : QcState H :=
  { s with
    qcPassed := false
    qcResult := some (qcInfraErrorResult errorType)
    qcAttempt := s.qcAttempt + 1
    qcFailedPermanently := decide (MAX_QC_ATTEMPTS ≤ s.qcAttempt + 1)
    llmErrorType := some errorType }

/-- The document of a state that passes the guards of the node. -/
def checkedDocument : Option Document :=
  if s.generationOutcome = some "study_document" ∧ s.terminalLlmFailure = false ∧
      s.error = false then s.document
  else none

end Returns

/-! ## The deterministic phase -/

/-- `structure_check_from_missing_ids`. -/
def structureCheckFromMissingIds (missing : List String) : Option Check :=
  if missing = [] then none
  else
    some
      { id := some (.str "det_structure_coverage")
        category := some (.str "structure")
        passed := some (.bool false)
        severity := some (.str "critical")
        evidence := some (.str ("Missing section ids: " ++ ", ".intercalate (sortedSet missing)))
        correctiveHint := some (.str ("Add one section per topic_split entry (or required " ++
          "checklist item) with matching id."))
        otherKeys := "Does every required topic_split / checklist section exist in the document?" }

/-- What the deterministic phase leaves. -/
structure Phase1 where
  structureMissingIds : List String
  document : Document
  structureChecks : List Check

/-- `phase1_failures`. -/
def Phase1.failures (p : Phase1) : List Check := p.structureChecks.filter Check.failed

section Visit

variable {H : Type} [DecidableEq H] (env : Env H)

/-- Phases 1 and 1b of the node. -/
def phase1 (document : Document) : Phase1 :=
  let structureMissingIds := missingSectionIds document env.checklist env.topicSplit
  let remediation := runPlacementRemediationPhase env.patterns document env.domain env.checklist
    (structureCheckFromMissingIds structureMissingIds)
  { structureMissingIds := structureMissingIds
    document := remediation.document
    structureChecks := remediation.structureChecks }

variable (s : QcState H) (p : Phase1)

/-- `verification_decision`. -/
def decision : QcVerificationDecision :=
  decideQcVerification env.hash s.qcAttempt s.qcResult p.failures (s.fixedSections ≠ []) p.document
    s.qcSectionContentHashes s.routing.failedSectionIds

/-- `reverify_section_ids`. -/
def reverifySectionIds : List String :=
  reverifyScope (decision env s p) s.fixedSections s.routing.failedSectionIds

/-- `missing_checklist_ids`. -/
def missingChecklistIds : List String :=
  if (decision env s p).mode = .targeted then s.routing.missingChecklistIds else []

/-- `frozen_check_ids` and `frozen_section_ids` of a full pass. -/
def frozenForFullQc : List String × List String :=
  resolveFrozenForFullQc env.hash s.qcFrozenCheckIds s.qcFrozenSectionKeys s.qcSectionContentHashes
    p.document env.checklist

/-- `verification_for_build`; `none` when the assertion on the prior result fails. -/
def verify (o : LlmOutcome) : Option (Except (Option String) Verification) :=
  match (decision env s p).mode, s.qcResult with
  | .full, _ => some (runLlmVerificationPass o)
  | .targeted, some prior =>
    some ((runLlmVerificationPass o).map fun reply =>
      verificationForBuild env.hash .targeted prior reply (reverifySectionIds env s p)
        (missingChecklistIds env s p) p.document s.qcSectionContentHashes env.checklist)
  | .deterministicOnly, some prior =>
    some (.ok (verificationForBuild env.hash .deterministicOnly prior {} [] [] p.document
      s.qcSectionContentHashes env.checklist))
  | .targeted, none => none
  | .deterministicOnly, none => none

/-! ## The result -/

/-- `model_used`. -/
def modelUsed (o : LlmOutcome) : String :=
  match (decision env s p).mode with
  | .deterministicOnly => (s.qcResult.bind QcResult.model).getD env.qcLlmModel
  | _ => o.model.getD env.qcLlmModel

/-- `qc_result`. -/
def finalResult (o : LlmOutcome) (v : Verification) : QcResult :=
  { buildFinalQcResult v p.structureChecks p.document env.checklist
    (some (modelUsed env s p o)) with
    verificationMode := some (decision env s p).mode }

/-- `routing_state`; on a pass everything is cleared. -/
def routingState (passed : Bool) (r : QcResult) : RetryRoutingResult :=
  if passed then { mode := .none }
  else classifyRetryRouting r p.document env.checklist env.topicSplit (some p.structureMissingIds)

/-- Phase 3 of the node. -/
def finish (o : LlmOutcome) (v : Verification) : QcState H :=
  let r := finalResult env s p o v
  let passed := deliverable r
  let frozen := refreshFrozenLineageAfterQc env.hash r.checkList s.qcFrozenCheckIds
    s.qcFrozenSectionKeys p.document env.checklist (reverifySectionIds env s p)
    (missingChecklistIds env s p)
  { s with
    document := some p.document
    fixedSections := []
    qcAttempt := s.qcAttempt + 1
    qcPassed := passed
    qcEvaluated := true
    qcFailedPermanently := !passed && decide (MAX_QC_ATTEMPTS ≤ s.qcAttempt + 1)
    qcResult := some r
    qcVerificationMode := some (decision env s p).mode
    qcFrozenCheckIds := frozen.1
    qcFrozenSectionKeys := frozen.2.1
    qcSectionContentHashes := frozen.2.2
    routing := routingState env p passed r }

/-- `quality_check_node`; `none` when an assertion fails. -/
def visit (o : LlmOutcome) : Option (QcState H) :=
  match checkedDocument s with
  | none => some (qcGuardReturn s)
  | some document =>
    if o.keysConfigured = false then some (infraFailureReturn s "llm_infra_error")
    else
      let p := phase1 env document
      (verify env s p o).map fun outcome =>
        match outcome with
        | .error errorType => infraFailureReturn s (resolveQcInfraErrorType errorType)
        | .ok v => finish env s p o v

end Visit

/-! ## What the deterministic phase contributes -/

section

variable {P : Patterns}

/-- A hint that begins with another letter asks for action. -/
theorem asksForAction {hint : String} {c : Char} (h : hint.toList.head? = some c)
    (hspace : isSpace c = false) (hn : some 'n' ≠ (lowerChar c).head?) :
    isNoActionNeededHint (some (.str hint)) = false := by
  unfold isNoActionNeededHint
  rw [getTextOr_str]
  exact startsWith_lower_strip h hspace hn (by decide)

theorem deterministic_failedCheck {checkId question evidence hint : String} {c : Char} {i : ℕ}
    {sectionId : Option String}
    (hid : (PLACEMENT_CHECK_IDS ++ SUBSTANCE_CHECK_IDS)[i]? = some checkId)
    (h : hint.toList.head? = some c) (hspace : isSpace c = false)
    (hn : some 'n' ≠ (lowerChar c).head?) :
    Deterministic (failedCheck checkId sectionId question evidence hint) :=
  ⟨List.mem_of_getElem? hid, Or.inl rfl, rfl, asksForAction h hspace hn⟩

theorem deterministic_section {s : Section} {domain : String} {c : Check}
    (h : c ∈ sectionPlacementChecks P domain s) : Deterministic c := by
  rcases mem_sectionPlacementChecks.1 h with h | ⟨-, rfl⟩ | ⟨p, -, h⟩ | ⟨p, -, h⟩
  · obtain ⟨q, -, rfl⟩ := List.mem_map.1 h
    exact deterministic_failedCheck (i := 0) (c := 'M') rfl (head_append (head_ofList _ _) _)
      (by decide) (by decide)
  · exact deterministic_failedCheck (i := 5) (c := 'R') rfl
      (head_append (head_append (head_ofList _ _) _) _) (by decide) (by decide)
  · rcases (mem_codeBlockChecks.1 h).2 with ⟨-, rfl⟩ | ⟨-, rfl⟩ | ⟨-, rfl⟩
    · exact deterministic_failedCheck (i := 1) (c := 'M') rfl (head_ofList _ _) (by decide)
        (by decide)
    · exact deterministic_failedCheck (i := 2) (c := 'R') rfl (head_append (head_ofList _ _) _)
        (by decide) (by decide)
    · exact deterministic_failedCheck (i := 4) (c := 'A') rfl (head_ofList _ _) (by decide)
        (by decide)
  · rcases (mem_formulaBlockChecks.1 h).2 with ⟨-, rfl⟩ | ⟨-, rfl⟩
    · exact deterministic_failedCheck (i := 3) (c := 'M') rfl (head_append (head_ofList _ _) _)
        (by decide) (by decide)
    · exact deterministic_failedCheck (i := 4) (c := 'A') rfl (head_ofList _ _) (by decide)
        (by decide)

theorem deterministic_stem {document : Document} {checklist : List ChecklistItem} {c : Check}
    (h : c ∈ stemDerivationMissingFormulaChecks P document checklist ∨
      c ∈ stemCodeSubstitutesDerivationChecks P document checklist) : Deterministic c := by
  rcases h with h | h
  · obtain ⟨item, -, hitem⟩ := List.mem_filterMap.1 h
    split at hitem
    · cases hitem
    · split at hitem
      · cases hitem
      · cases hitem
        exact deterministic_failedCheck (i := 6) (c := 'A') rfl (head_ofList _ _) (by decide)
          (by decide)
  · obtain ⟨item, -, hitem⟩ := List.mem_filterMap.1 h
    split at hitem
    · cases hitem
    · split at hitem
      · cases hitem
        exact deterministic_failedCheck (i := 7) (c := 'R') rfl (head_append (head_ofList _ _) _)
          (by decide) (by decide)
      · cases hitem

/-- **Every check of the deterministic phase is a deterministic check.** -/
theorem phase1_deterministic {H : Type} {env : Env H} {document : Document} {c : Check}
    (h : c ∈ (phase1 env document).structureChecks) : Deterministic c := by
  change c ∈ (runPlacementRemediationPhase env.patterns document env.domain env.checklist
    (structureCheckFromMissingIds (missingSectionIds document env.checklist
      env.topicSplit))).structureChecks at h
  rw [runPlacementRemediationPhase_checks, List.mem_append] at h
  rcases h with h | h
  · rw [Option.mem_toList] at h
    unfold structureCheckFromMissingIds at h
    split at h
    · cases h
    · cases h
      exact ⟨List.mem_of_getElem? (i := 8) rfl, Or.inr rfl, rfl,
        asksForAction (c := 'A') (head_append (head_ofList _ _) _) (by decide) (by decide)⟩
  · rcases mem_blockPlacementChecks.1 h with ⟨s, -, hs⟩ | ⟨-, hstem⟩
    · exact deterministic_section hs
    · exact deterministic_stem hstem

end

/-! ## What a visit can do -/

section

variable {H : Type} [DecidableEq H] {env : Env H} {s s' : QcState H} {o : LlmOutcome}

/-- **Everything a visit can do**: nothing, an infrastructure failure (without keys, or
of the verifier's call), or a result. -/
theorem visit_cases (h : visit env s o = some s') :
    (checkedDocument s = none ∧ s' = qcGuardReturn s) ∨
    ∃ document, checkedDocument s = some document ∧
      ((o.keysConfigured = false ∧ s' = infraFailureReturn s "llm_infra_error") ∨
        o.keysConfigured = true ∧
          ((∃ errorType, verify env s (phase1 env document) o = some (.error errorType) ∧
              s' = infraFailureReturn s (resolveQcInfraErrorType errorType)) ∨
            ∃ v, verify env s (phase1 env document) o = some (.ok v) ∧
              s' = finish env s (phase1 env document) o v)) := by
  unfold visit at h
  cases hdoc : checkedDocument s with
  | none =>
    rw [hdoc] at h
    exact Or.inl ⟨rfl, (Option.some.inj h).symm⟩
  | some document =>
    rw [hdoc] at h
    refine Or.inr ⟨document, rfl, ?_⟩
    dsimp only at h
    split_ifs at h with hkeys
    · exact Or.inl ⟨hkeys, (Option.some.inj h).symm⟩
    · obtain ⟨outcome, hverify, houtcome⟩ := Option.map_eq_some_iff.1 h
      refine Or.inr ⟨by simpa using hkeys, ?_⟩
      cases outcome with
      | error errorType => exact Or.inl ⟨errorType, hverify, houtcome.symm⟩
      | ok v => exact Or.inr ⟨v, hverify, houtcome.symm⟩

/-- What the verifier is asked, mode by mode. -/
theorem verify_eq_some {p : Phase1} {r : Except (Option String) Verification}
    (h : verify env s p o = some r) :
    ((decision env s p).mode = .full ∧ runLlmVerificationPass o = r) ∨
    (∃ prior, (decision env s p).mode = .targeted ∧ s.qcResult = some prior ∧
      r = (runLlmVerificationPass o).map fun reply =>
        verificationForBuild env.hash .targeted prior reply (reverifySectionIds env s p)
          (missingChecklistIds env s p) p.document s.qcSectionContentHashes env.checklist) ∨
    ∃ prior, (decision env s p).mode = .deterministicOnly ∧ s.qcResult = some prior ∧
      r = .ok (verificationForBuild env.hash .deterministicOnly prior {} [] [] p.document
        s.qcSectionContentHashes env.checklist) := by
  unfold verify at h
  cases hmode : (decision env s p).mode with
  | full =>
    rw [hmode] at h
    exact Or.inl ⟨rfl, Option.some.inj h⟩
  | targeted =>
    cases hprior : s.qcResult with
    | none =>
      rw [hmode, hprior] at h
      cases h
    | some prior =>
      rw [hmode, hprior] at h
      exact Or.inr (Or.inl ⟨prior, rfl, rfl, (Option.some.inj h).symm⟩)
  | deterministicOnly =>
    cases hprior : s.qcResult with
    | none =>
      rw [hmode, hprior] at h
      cases h
    | some prior =>
      rw [hmode, hprior] at h
      exact Or.inr (Or.inr ⟨prior, rfl, rfl, (Option.some.inj h).symm⟩)

/-- When the verifier's call fails there is no reply. -/
theorem verify_error {p : Phase1} {errorType : Option String}
    (h : verify env s p o = some (.error errorType)) :
    (decision env s p).mode ≠ .deterministicOnly ∧ runLlmVerificationPass o = .error errorType := by
  rcases verify_eq_some h with ⟨hmode, hrun⟩ | ⟨prior, hmode, -, hreply⟩ | ⟨prior, -, -, hreply⟩
  · exact ⟨by rw [hmode]; decide, hrun⟩
  · refine ⟨by rw [hmode]; decide, ?_⟩
    cases hrun : runLlmVerificationPass o with
    | error e =>
      rw [hrun] at hreply
      exact congrArg Except.error (Except.error.inj hreply).symm
    | ok reply =>
      rw [hrun] at hreply
      cases hreply
  · cases hreply

/-- What the result of a visit is built from, mode by mode. -/
theorem verify_cases {p : Phase1} {v : Verification} (h : verify env s p o = some (.ok v)) :
    ((decision env s p).mode = .full ∧ runLlmVerificationPass o = .ok v) ∨
    (∃ prior reply, (decision env s p).mode = .targeted ∧ s.qcResult = some prior ∧
      runLlmVerificationPass o = .ok reply ∧
      v = verificationForBuild env.hash .targeted prior reply (reverifySectionIds env s p)
        (missingChecklistIds env s p) p.document s.qcSectionContentHashes env.checklist) ∨
    ∃ prior, (decision env s p).mode = .deterministicOnly ∧ s.qcResult = some prior ∧
      v = verificationForBuild env.hash .deterministicOnly prior {} [] [] p.document
        s.qcSectionContentHashes env.checklist := by
  rcases verify_eq_some h with hfull | ⟨prior, hmode, hprior, hreply⟩ |
    ⟨prior, hmode, hprior, hreply⟩
  · exact Or.inl hfull
  · cases hrun : runLlmVerificationPass o with
    | error e =>
      rw [hrun] at hreply
      cases hreply
    | ok reply =>
      rw [hrun] at hreply
      exact Or.inr (Or.inl ⟨prior, reply, hmode, hprior, rfl, Except.ok.inj hreply⟩)
  · exact Or.inr (Or.inr ⟨prior, hmode, hprior, Except.ok.inj hreply⟩)

end

end StudyAgent.QualityCheck
