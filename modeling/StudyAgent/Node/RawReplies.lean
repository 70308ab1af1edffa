import Mathlib.Data.List.ReduceOption
import StudyAgent.Node.QualityCheck

/-!
# The verifier's reply as it arrives

A reply of the verifier is accepted when it is an object whose `checks` are a list with an
element, or any list with a refusal; nothing is asked of the elements.  The node then calls
`c.get("category")` on them and looks the category up in a frozen set, iterates the issues and
the targets of the recommendation, and has no `try` around any of it.

Main results:

* `readVerifier_eq_none_iff` — **the visits on which the node raises, in terms of the reply.**
* `visit_plainResult` — the checks of a result have categories that can be looked up.
-/

namespace StudyAgent.QualityCheck

open Py TargetedMerge Strategy Freshness ResultBuilder

/-! ## Replies -/

/-- A list or an object, which cannot be looked up in a set. -/
def unhashable : Option Value → Bool
  | some (.other text _ _) => startsWith text "[" || startsWith text "\x7b"
  | _ => false

/-- A retry recommendation; `none` stands for targets that cannot be iterated. -/
structure RawRecommendation where
  mode : Option Value := none
  failedSectionIds : Option (List Value) := some []
  missingChecklistIds : Option (List Value) := some []
  deriving DecidableEq

/-- The loops of `sanitize_retry_recommendation`. -/
def RawRecommendation.read (r : RawRecommendation) : Option Recommendation :=
  match r.failedSectionIds, r.missingChecklistIds with
  | some failedSectionIds, some missingChecklistIds =>
    some { mode := r.mode, failedSectionIds, missingChecklistIds }
  | _, _ => none

/-- A JSON object.  `none` stands for `checks` that are absent or no list, for an element of
them that is no object, and for issues that cannot be iterated. -/
structure RawVerification where
  checks : Option (List (Option Check))
  hallucinationRisk : Option Value := none
  isRefusal : Option Value := none
  issues : Option (List Value) := some []
  correctiveInstructions : Option Value := none
  summary : Option Value := none
  retryRecommendation : Option RawRecommendation := none
  deriving DecidableEq

/-- `is_valid_qc_verification_response`. -/
def isValidQcVerificationResponse (obj : RawVerification) : Bool :=
  match obj.checks with
  | none => false
  | some checks => getTruthy obj.isRefusal false || checks ≠ []

/-- One call: a provider failure, an exception out of the call or of `json.loads`, or the JSON
object of the reply, if it has one. -/
inductive RawCall where
  | failed (errorType : Option String)
  | raised
  | replied (obj : Option RawVerification)
  deriving DecidableEq

/-- What the provider does during a visit. -/
structure RawOutcome where
  keysConfigured : Bool := true
  first : RawCall
  reprompt : RawCall := .replied none
  model : Option String := none
  deriving DecidableEq

/-- `parse_qc_verification_response`. -/
def parseQcVerificationResponse (obj : Option RawVerification) : Option RawVerification :=
  obj.filter isValidQcVerificationResponse

/-- `run_llm_verification_pass`; `none` when an exception escapes it. -/
def RawOutcome.pass (o : RawOutcome) : Option (Except (Option String) RawVerification) :=
  match o.first with
  | .raised => none
  | .failed errorType => some (.error errorType)
  | .replied obj =>
    match parseQcVerificationResponse obj with
    | some v => some (.ok v)
    | none =>
      match o.reprompt with
      | .raised => none
      | .failed errorType => some (.error errorType)
      | .replied obj =>
        match parseQcVerificationResponse obj with
        | some v => some (.ok v)
        | none => some (.error none)

/-! ## Reading a reply -/

/-- An accepted reply as the node reads it.  `split_verification_checks` calls `get` on every
check of a full pass, while `merge_targeted_qc_checks` passes over what is no object. -/
def RawVerification.read (mode : QcVerificationMode) (v : RawVerification) :
    Option Verification :=
  let checks := v.checks.getD []
  if mode = .full ∧ none ∈ checks then none
  else
    match v.issues, v.retryRecommendation.map RawRecommendation.read with
    | none, _ => none
    | some _, some none => none
    | some issues, recommendation =>
      some
        { checks := checks.reduceOption
          hallucinationRisk := v.hallucinationRisk
          isRefusal := v.isRefusal
          issues := issues
          correctiveInstructions := v.correctiveInstructions
          summary := v.summary
          retryRecommendation := recommendation.join }

section

variable {H : Type} [DecidableEq H] (env : Env H) (s : QcState H) (o : RawOutcome)

/-- A visit that does not look at a reply. -/
def unasked : LlmOutcome :=
  { keysConfigured := o.keysConfigured, first := .failed none, model := o.model }

/-- The outcome of the verifier, as the node reads it. -/
def readOutcome (mode : QcVerificationMode) : Option LlmOutcome :=
  if mode = .deterministicOnly then some (unasked o)
  else
    match o.pass with
    | none => none
    | some (.error errorType) => some { unasked o with first := .failed errorType }
    | some (.ok v) =>
      (v.read mode).map fun parsed => { unasked o with first := .replied (some parsed) }

/-- `split_verification_checks` on what the result is built from. -/
def splits (p : Phase1) (outcome : LlmOutcome) : Bool :=
  match verify env s p outcome with
  | some (.ok v) => v.checks.all fun c => !unhashable c.category
  | _ => true

/-- What a visit reads; `none` when the node raises. -/
def readVerifier : Option LlmOutcome :=
  match checkedDocument s with
  | none => some (unasked o)
  | some document =>
    if o.keysConfigured = false then some (unasked o)
    else
      (readOutcome o (decision env s (phase1 env document)).mode).filter
        (splits env s (phase1 env document))

/-! ## When the node raises -/

/-- The checks of a reply that are split by their category: in a full pass all of them, in a
targeted one those that the merge keeps. -/
def RawVerification.SplitCheck (mode : QcVerificationMode) (v : RawVerification) (c : Check) :
    Prop :=
  if mode = .full then some c ∈ v.checks.getD []
  else Dedup.IsLast dedupKey (v.checks.getD []).reduceOption c

/-- An accepted reply that the node cannot read: issues or targets that cannot be iterated, in
a full pass an element that is no object, and a category that is a list or an object. -/
def RawVerification.Unreadable (mode : QcVerificationMode) (v : RawVerification) : Prop :=
  v.issues = none ∨
  (∃ r, v.retryRecommendation = some r ∧
    (r.failedSectionIds = none ∨ r.missingChecklistIds = none)) ∨
  (mode = .full ∧ none ∈ v.checks.getD []) ∨
  ∃ c, v.SplitCheck mode c ∧ unhashable c.category = true

/-- The verifier is asked, and an exception leaves the pass or the reading of its reply. -/
def VerifierRaises : Prop :=
  ∃ document, checkedDocument s = some document ∧ o.keysConfigured = true ∧
    (decision env s (phase1 env document)).mode ≠ .deterministicOnly ∧
    (o.pass = none ∨ ∃ v, o.pass = some (.ok v) ∧
      v.Unreadable (decision env s (phase1 env document)).mode)

/-- The checks of the last result have categories that can be looked up. -/
def PlainResult : Prop :=
  ∀ r, s.qcResult = some r → ∀ c ∈ r.checkList, unhashable c.category = false

end

/-! ## Results -/

section

/-- A word is no list and no object. -/
theorem unhashable_of_categoryText {c : Check} {names : List String}
    (hnames : ∀ w ∈ names, isWord w = true ∧ w ∉ ["", "None", "True", "False"])
    (h : c.categoryText ∈ names) : unhashable c.category = false := by
  have hin := (Check.categoryIn_iff hnames).2 h
  unfold Check.categoryIn at hin
  cases hcategory : c.category with
  | none => rfl
  | some v =>
    rw [hcategory] at hin
    cases v with
    | other text truthy hword => exact absurd hin Bool.false_ne_true
    | _ => rfl

theorem unhashable_of_categoryIn {c : Check} {names : List String}
    (h : c.categoryIn names = true) : unhashable c.category = false := by
  unfold Check.categoryIn at h
  cases hcategory : c.category with
  | none => rfl
  | some v =>
    rw [hcategory] at h
    cases v with
    | other text truthy hword => exact absurd h Bool.false_ne_true
    | _ => rfl

variable {H : Type} [DecidableEq H] {env : Env H} {s s' : QcState H}

/-- **Every visit leaves a result whose categories can be looked up.** -/
theorem visit_plainResult {outcome : LlmOutcome} (hs : PlainResult s)
    (h : visit env s outcome = some s') : PlainResult s' := by
  have hinfra : ∀ errorType, PlainResult (infraFailureReturn s errorType) := by
    intro errorType r hr c hc
    cases hr
    exact absurd hc List.not_mem_nil
  rcases visit_cases h with ⟨-, rfl⟩ | ⟨d, -, ⟨-, rfl⟩ | ⟨-, ⟨errorType, -, rfl⟩ | ⟨v, -, rfl⟩⟩⟩
  · exact hs
  · exact hinfra _
  · exact hinfra _
  · intro r hr c hc
    cases hr
    rcases mem_assembledChecks.1 (mem_assembled_of_mem_final hc) with
      hdet | ⟨d, hd, rfl⟩ | ⟨d, hd, rfl⟩
    · have hmem : c.categoryText ∈ ["document_coherence", "structure"] := by
        rcases (phase1_deterministic hdet).category with hcategory | hcategory
        · rw [hcategory]
          exact List.mem_cons_self
        · rw [hcategory]
          exact List.mem_cons_of_mem _ List.mem_cons_self
      exact unhashable_of_categoryText (by decide) hmem
    · rw [processProse_category]
      exact unhashable_of_categoryIn (List.mem_filter.1 hd).2
    · rw [processCode_category]
      exact unhashable_of_categoryIn (List.mem_filter.1 hd).2

/-! ## The criterion -/

theorem RawRecommendation.read_eq_none {r : RawRecommendation} :
    r.read = none ↔ r.failedSectionIds = none ∨ r.missingChecklistIds = none := by
  obtain ⟨mode, failed, missing⟩ := r
  cases failed <;> cases missing <;> simp [RawRecommendation.read]

/-- What is read has the objects of the reply as its checks. -/
theorem RawVerification.read_checks {mode : QcVerificationMode} {v : RawVerification}
    {parsed : Verification} (h : v.read mode = some parsed) :
    parsed.checks = (v.checks.getD []).reduceOption := by
  unfold RawVerification.read at h
  dsimp only at h
  split_ifs at h
  split at h
  · cases h
  · cases h
  · cases h
    rfl

theorem RawVerification.read_eq_none {mode : QcVerificationMode} {v : RawVerification} :
    v.read mode = none ↔ v.issues = none ∨
      (∃ r, v.retryRecommendation = some r ∧
        (r.failedSectionIds = none ∨ r.missingChecklistIds = none)) ∨
      (mode = .full ∧ none ∈ v.checks.getD []) := by
  have hread : (∃ r, v.retryRecommendation = some r ∧
      (r.failedSectionIds = none ∨ r.missingChecklistIds = none)) ↔
        v.retryRecommendation.map RawRecommendation.read = some none := by
    simp only [Option.map_eq_some_iff, RawRecommendation.read_eq_none]
  rw [hread]
  unfold RawVerification.read
  dsimp only
  split_ifs with helement
  · simp [helement]
  · simp only [helement, or_false]
    cases hissues : v.issues with
    | none => simp
    | some issues =>
      rcases hrec : v.retryRecommendation.map RawRecommendation.read with _ | _ | recommendation
      · simp
      · simp
      · simp

variable {o : RawOutcome}

section

variable {p : Phase1} {outcome : LlmOutcome}

/-- What is carried forward are checks of the prior result. -/
theorem mem_of_safe {H : Type} [DecidableEq H] {hash : Section → H} {prior : List Check}
    {hashes : Hashes H} {document : Document} {c : Check}
    (h : c ∈ checksSafeToCarryForward hash prior hashes document) : c ∈ prior := by
  unfold checksSafeToCarryForward at h
  split_ifs at h
  · exact absurd h List.not_mem_nil
  · exact (List.mem_filter.1 h).1

/-- Without a reply nothing is split that the node has not split before. -/
theorem splits_of_unasked (hplain : PlainResult s)
    (h : (decision env s p).mode = .deterministicOnly ∨
      ∃ errorType, runLlmVerificationPass outcome = .error errorType) :
    splits env s p outcome = true := by
  unfold splits
  split
  · next v hv =>
    rcases verify_cases hv with ⟨hmode, hrun⟩ | ⟨prior, reply, hmode, -, hrun, -⟩ |
      ⟨prior, -, hprior, rfl⟩
    · rcases h with h | ⟨errorType, h⟩
      · rw [hmode] at h
        cases h
      · rw [hrun] at h
        cases h
    · rcases h with h | ⟨errorType, h⟩
      · rw [hmode] at h
        cases h
      · rw [hrun] at h
        cases h
    · rw [List.all_eq_true]
      intro c hc
      have hmem : c ∈ prior.checkList := (List.mem_filter.1 (mem_of_safe hc)).1
      rw [hplain prior hprior c hmem]
      rfl
  · rfl

/-- The checks that an accepted reply is built into, mode by mode. -/
theorem splits_of_read (hplain : PlainResult s) {v : RawVerification} {parsed : Verification}
    (hread : v.read (decision env s p).mode = some parsed)
    (hmode : (decision env s p).mode ≠ .deterministicOnly)
    (hrun : runLlmVerificationPass outcome = .ok parsed)
    (hverify : verify env s p outcome ≠ none) :
    splits env s p outcome = false ↔
      ∃ c, v.SplitCheck (decision env s p).mode c ∧ unhashable c.category = true := by
  have hchecks := RawVerification.read_checks hread
  unfold splits
  obtain ⟨r, hr⟩ := Option.ne_none_iff_exists'.1 hverify
  rw [hr]
  rcases verify_eq_some hr with ⟨hfull, rfl⟩ | ⟨prior, htargeted, hprior, rfl⟩ | ⟨prior, hdet, -⟩
  · have hsplit : ∀ c, v.SplitCheck (decision env s p).mode c ↔ c ∈ parsed.checks := by
      intro c
      rw [RawVerification.SplitCheck, if_pos hfull, hchecks]
      exact List.reduceOption_mem_iff.symm
    rw [hrun]
    simp [hsplit, List.all_eq_false]
  · have hsplit : ∀ c, v.SplitCheck (decision env s p).mode c ↔
        Dedup.IsLast dedupKey parsed.checks c := by
      intro c
      rw [RawVerification.SplitCheck, if_neg (by rw [htargeted]; decide), hchecks]
    simp only [hsplit]
    rw [hrun]
    show (List.all (mergeTargetedQcChecks prior (some parsed) _ _ _) _) = false ↔ _
    rw [List.all_eq_false]
    simp only [Bool.not_eq_true', Bool.not_eq_false]
    constructor
    · rintro ⟨c, hc, hcategory⟩
      rcases mem_mergeTargetedQcChecks.1 hc with hlast | ⟨hkept, -⟩
      · exact ⟨c, hlast, hcategory⟩
      · have hmem : c ∈ prior.checkList := (List.mem_filter.1 hkept.mem).1
        rw [hplain prior hprior c hmem] at hcategory
        cases hcategory
    · rintro ⟨c, hlast, hcategory⟩
      exact ⟨c, mem_mergeTargetedQcChecks.2 (Or.inl hlast), hcategory⟩
  · exact absurd hdet hmode

end

/-- **The node raises exactly when** the verifier is asked and its pass or the reading of its
reply raises. -/
theorem readVerifier_eq_none_iff (hplain : PlainResult s)
    (hgoes : ∀ outcome, visit env s outcome ≠ none) :
    readVerifier env s o = none ↔ VerifierRaises env s o := by
  unfold readVerifier VerifierRaises
  cases hdoc : checkedDocument s with
  | none => simp
  | some document =>
    dsimp only
    split_ifs with hkeys
    · simp [hkeys]
    have hon : o.keysConfigured = true := by simpa using hkeys
    have hverify : ∀ outcome, outcome.keysConfigured = true →
        verify env s (phase1 env document) outcome ≠ none := by
      intro outcome hout hnone
      refine hgoes outcome ?_
      unfold visit
      rw [hdoc]
      dsimp only
      rw [if_neg (by simp [hout]), hnone]
      rfl
    generalize hp : phase1 env document = p at hverify
    simp only [Option.some.injEq, exists_eq_left', hp, hon, true_and]
    unfold readOutcome
    split_ifs with hdet
    · have hsplits : splits env s p (unasked o) = true := splits_of_unasked hplain (Or.inl hdet)
      simp [hdet, hsplits]
    · rw [and_iff_right hdet]
      cases hpass : o.pass with
      | none => simp
      | some r =>
        cases r with
        | error errorType =>
          have hsplits : splits env s p { unasked o with first := .failed errorType } = true :=
            splits_of_unasked hplain (Or.inr ⟨errorType, rfl⟩)
          simp [hsplits]
        | ok v =>
          cases hread : v.read (decision env s p).mode with
          | none =>
            have hunreadable := RawVerification.read_eq_none.1 hread
            simp only [hread, Option.map_none, Option.filter_none, true_iff]
            refine Or.inr ⟨v, rfl, ?_⟩
            rcases hunreadable with h | h | h
            · exact Or.inl h
            · exact Or.inr (Or.inl h)
            · exact Or.inr (Or.inr (Or.inl h))
          | some parsed =>
            have hsplits : splits env s p { unasked o with first := .replied (some parsed) } =
                false ↔ _ := splits_of_read hplain hread hdet rfl (hverify _ hon)
            have hunreadable : v.Unreadable (decision env s p).mode ↔
                ∃ c, v.SplitCheck (decision env s p).mode c ∧ unhashable c.category = true := by
              have hreadable := mt RawVerification.read_eq_none.2 (by rw [hread]; simp)
              rw [not_or, not_or] at hreadable
              obtain ⟨hissues, htargets, helements⟩ := hreadable
              refine ⟨?_, fun h => Or.inr (Or.inr (Or.inr h))⟩
              rintro (h | h | h | h)
              · exact absurd h hissues
              · exact absurd h htargets
              · exact absurd h helements
              · exact h
            simp [hread, hunreadable, ← hsplits]

end

end StudyAgent.QualityCheck
