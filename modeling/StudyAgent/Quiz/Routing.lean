import StudyAgent.Quiz.Results

/-!
# Routing a failed quiz back to the generator

The failed checks of a result name questions to rewrite and concepts that no question covers;
from these, from how many there are and from the mode that the verifier recommends, a retry
mode is chosen.

Main results:

* `reconcileMode_deterministicMode` — the recommendation never changes the mode.
* `classify_failedQuestionIds` — the questions to rewrite are those that a failed check names.
* `classify_modeFits` — **what each mode acts on is there**.
-/

namespace StudyAgent.Quiz

open Py

/-- The retry modes. -/
inductive RetryMode where
  | questionPatch
  | questionInsert
  | questionPatchThenInsert
  | questionPrune
  | fullRegeneration
  | none
  deriving DecidableEq

/-- `_coerce_llm_recommendation_mode`. -/
def coerceLlmRecommendationMode (rawMode : Option Value) : Option RetryMode :=
  let mode := strip (getTextOr rawMode)
  if mode = "question_patch" then some .questionPatch
  else if mode = "question_insert" then some .questionInsert
  else if mode = "question_patch_then_insert" then some .questionPatchThenInsert
  else if mode = "question_prune" then some .questionPrune
  else if mode = "full_regeneration" then some .fullRegeneration
  else if mode = "none" then some .none
  else Option.none

structure FailureRecord where
  category : Category
  evidence : String
  correctiveHint : String
  deriving DecidableEq

/-- A question to rewrite with what failed in it. -/
structure QuestionFailure where
  questionId : String
  orderIndex : Option ℕ
  failures : List FailureRecord
  deriving DecidableEq

/-- `QuizRetryRoutingResult`, less its rationale text. -/
structure Routing where
  mode : RetryMode
  failedQuestionIds : List String := []
  missingConcepts : List String := []
  questionFailures : List QuestionFailure := []
  deriving DecidableEq

/-! ## Missing concepts -/

/-- The rest of a text after a word in either case. -/
def dropWord : List Char → List Char → Option (List Char)
  | [], l => some l
  | _ :: _, [] => none
  | p :: ps, c :: l => if c.toLower = p then dropWord ps l else none

/-- One match of `coverage\s*=\s*(\[[^\]]*\])` at the head of a text: its group. -/
def matchCoverage (l : List Char) : Option (List Char) :=
  match dropWord "coverage".toList l with
  | none => none
  | some rest =>
    match rest.dropWhile isSpace with
    | '=' :: rest =>
      match rest.dropWhile isSpace with
      | '[' :: rest =>
        if ']' ∈ rest then some ('[' :: rest.takeWhile (· ≠ ']') ++ [']']) else none
      | _ => none
    | _ => none

/-- `_COVERAGE_EVIDENCE_RE.search`. -/
def searchCoverage : List Char → Option (List Char)
  | [] => none
  | c :: l => (matchCoverage (c :: l)).or (searchCoverage l)

section

variable (L : Library)

/-- `_parse_coverage_from_evidence`. -/
def parseCoverageFromEvidence (evidence : String) : Option (List String) :=
  match searchCoverage evidence.toList with
  | none => some []
  | some blob =>
    match L.literalEval (String.ofList blob) with
    | .items l => some (strippedTexts l)
    | .other => some []
    | .raises => none

/-- `_missing_concepts_from_qc`: a built result holds no `quiz_summary`. -/
def missingConceptsFromQc (failed : List Check) : Option (List String) :=
  ((failed.filter fun c => c.category = .duplicateOverlap && !c.passed).mapM fun c =>
    parseCoverageFromEvidence L c.evidence).map List.flatten

end

/-- `_missing_concepts_from_recommendation`. -/
def routedConcepts (recommendation : Option Recommendation) : Option (List String) :=
  (missingConceptsFromRecommendation recommendation).map fun concepts =>
    concepts.filter fun concept => !startsWith (lower concept) "duplicates="

/-! ## Choosing a mode -/

/-- `_failed_checks`. -/
def failedChecks (r : QcResult) : List Check :=
  if r.failedChecks ≠ [] then r.failedChecks else r.checks.filter fun c => !c.passed

/-- `_failure_record`. -/
def failureRecord (c : Check) : FailureRecord where
  category := c.category
  evidence := c.evidence
  correctiveHint := c.correctiveHint

/-- The failed checks that name neither a question nor the whole quiz. -/
def unmappedCount (failed : List Check) : ℕ :=
  failed.countP fun c => (c.category ∈ PER_QUESTION_CATEGORIES && c.question = "") ||
    (c.category ∉ PER_QUESTION_CATEGORIES && c.category ≠ .duplicateOverlap &&
      c.category ∉ QUIZ_WIDE_CATEGORIES)

/-- `_FULL_REGEN_FAILED_QUESTION_THRESHOLD`. -/
def FULL_REGEN_FAILED_QUESTION_THRESHOLD : ℕ := 4

/-- `_should_force_full_regeneration`. -/
def shouldForceFullRegeneration (failed : List Check) (failedQuestionIds : List String)
    (wrongAnswerRisk : String) (unmapped totalQuestions : ℕ) : Bool :=
  if FULL_REGEN_FAILED_QUESTION_THRESHOLD ≤ failedQuestionIds.length then true
  else if wrongAnswerRisk = "high" ∧
      ∃ c ∈ failed, c.passed = false ∧ c.category ≠ .answerCorrectness then true
  else if max 1 totalQuestions <
      3 * failed.countP fun c => c.category = .answerCorrectness && !c.passed then true
  else 3 ≤ unmapped

/-- `_deterministic_mode`. -/
def deterministicMode (failedQuestionIds missingConcepts : List String) : RetryMode :=
  if failedQuestionIds = [] ∧ missingConcepts = [] then .none
  else if failedQuestionIds ≠ [] ∧ missingConcepts ≠ [] then .questionPatchThenInsert
  else if missingConcepts ≠ [] then .questionInsert
  else .questionPatch

/-- `_reconcile_mode`. -/
def reconcileMode (deterministic : RetryMode) (llm : Option RetryMode) (force : Bool)
    (failedQuestionIds missingConcepts : List String) : RetryMode :=
  if force then .fullRegeneration
  else if deterministic = .none then .none
  else match llm with
    | Option.none => deterministic
    | some .none => deterministic
    | some mode =>
      if mode = .questionPatch ∧ failedQuestionIds ≠ [] ∧ missingConcepts = [] then .questionPatch
      else if mode = .questionInsert ∧ missingConcepts ≠ [] ∧ failedQuestionIds = [] then
        .questionInsert
      else if mode = .questionPatchThenInsert ∧ failedQuestionIds ≠ [] ∧ missingConcepts ≠ [] then
        .questionPatchThenInsert
      else deterministic

/-- The last question that has a given id. -/
def lastWithId (questions : List Question) (qid : String) : Option Question :=
  questions.reverse.find? fun q => q.id = qid

/-- `_build_question_failures`. -/
def buildQuestionFailures (failedQuestionIds : List String) (failed : List Check)
    (questions : List Question) : List QuestionFailure :=
  failedQuestionIds.map fun qid =>
    { questionId := qid
      orderIndex := (lastWithId questions qid).map Question.orderIndex
      failures := (failed.filter fun c =>
        c.category ∈ PER_QUESTION_CATEGORIES && c.question = qid).map failureRecord }

/-- `classify_quiz_retry_routing`. -/
def classifyQuizRetryRouting (L : Library) (r : QcResult) (questions : List Question) :
    Option Routing :=
  let failed := failedChecks r
  if failed = [] then some { mode := .none }
  else
    (missingConceptsFromQc L failed).bind fun fromQc =>
      (routedConcepts r.retryRecommendation).map fun recommended =>
        let failedIds := sortedSet (perQuestionIds failed)
        let missing := sortedSet (fromQc ++ recommended)
        let force := shouldForceFullRegeneration failed failedIds r.wrongAnswerRisk
          (unmappedCount failed) questions.length
        { mode := reconcileMode (deterministicMode failedIds missing)
            (r.retryRecommendation.bind fun rec => coerceLlmRecommendationMode rec.mode) force
            failedIds missing
          failedQuestionIds := failedIds
          missingConcepts := missing
          questionFailures := buildQuestionFailures failedIds failed questions }

/-! ## What is routed -/

/-- The explicit list of failed checks is the failed checks. -/
theorem failedChecks_eq (r : QcResult) : failedChecks r = extractFailedChecks r.checks := by
  rw [failedChecks, r.failed_eq]
  split_ifs with h
  · rfl
  · rfl

/-- **A recommendation never changes the mode**: it is followed only where it agrees. -/
theorem reconcileMode_deterministicMode {llm : Option RetryMode} {force : Bool}
    {ids missing : List String} :
    reconcileMode (deterministicMode ids missing) llm force ids missing =
      if force then .fullRegeneration else deterministicMode ids missing := by
  cases force with
  | true => rfl
  | false =>
    unfold reconcileMode
    rw [if_neg Bool.false_ne_true, if_neg Bool.false_ne_true]
    by_cases hnone : deterministicMode ids missing = .none
    · rw [if_pos hnone, hnone]
    · rw [if_neg hnone]
      by_cases hids : ids = []
      · by_cases hmissing : missing = []
        · simp [deterministicMode, hids, hmissing] at hnone
        · rcases llm with _ | _ | _ | _ | _ | _ | _ <;> simp [deterministicMode, hids, hmissing]
      · by_cases hmissing : missing = []
        · rcases llm with _ | _ | _ | _ | _ | _ | _ <;> simp [deterministicMode, hids, hmissing]
        · rcases llm with _ | _ | _ | _ | _ | _ | _ <;> simp [deterministicMode, hids, hmissing]

/-- Evaluating every element of a list fails iff it fails on one of them. -/
theorem mapM_eq_none {α β : Type} {f : α → Option β} {l : List α} :
    l.mapM f = none ↔ ∃ a ∈ l, f a = none := by
  induction l with
  | nil => simp
  | cons a l ih =>
    rw [List.mapM_cons, List.exists_mem_cons_iff, ← ih]
    cases f a with
    | none => simp
    | some b =>
      cases l.mapM f with
      | none => simp
      | some bs => simp

/-- The coverage that cannot be evaluated is that of a failed overlap check. -/
theorem missingConceptsFromQc_eq_none {L : Library} {failed : List Check} :
    missingConceptsFromQc L failed = none ↔
      ∃ c ∈ failed, c.category = .duplicateOverlap ∧ c.passed = false ∧
        parseCoverageFromEvidence L c.evidence = none := by
  rw [missingConceptsFromQc, Option.map_eq_none_iff, mapM_eq_none]
  simp only [List.mem_filter, Bool.and_eq_true, decide_eq_true_eq, Bool.not_eq_true', and_assoc]

/-- A routing whose result has failed checks. -/
structure Routed (L : Library) (r : QcResult) (questions : List Question) (routing : Routing)
    (fromQc recommended : List String) : Prop where
  concepts_qc : missingConceptsFromQc L (extractFailedChecks r.checks) = some fromQc
  concepts_recommended : routedConcepts r.retryRecommendation = some recommended
  failedIds : routing.failedQuestionIds = sortedSet (perQuestionIds (extractFailedChecks r.checks))
  missing : routing.missingConcepts = sortedSet (fromQc ++ recommended)
  mode : routing.mode =
    if shouldForceFullRegeneration (extractFailedChecks r.checks) routing.failedQuestionIds
        r.wrongAnswerRisk (unmappedCount (extractFailedChecks r.checks)) questions.length
    then .fullRegeneration
    else deterministicMode routing.failedQuestionIds routing.missingConcepts

/-- **How a result is routed**: not at all if nothing failed, else by the targets. -/
theorem classify_cases {L : Library} {r : QcResult} {questions : List Question}
    {routing : Routing} (h : classifyQuizRetryRouting L r questions = some routing) :
    (extractFailedChecks r.checks = [] ∧ routing = { mode := .none }) ∨
      extractFailedChecks r.checks ≠ [] ∧
        ∃ fromQc recommended, Routed L r questions routing fromQc recommended := by
  rw [classifyQuizRetryRouting, failedChecks_eq] at h
  by_cases hfailed : extractFailedChecks r.checks = []
  · rw [if_pos hfailed] at h
    exact .inl ⟨hfailed, (Option.some.inj h).symm⟩
  · rw [if_neg hfailed] at h
    obtain ⟨fromQc, hqc, hrest⟩ := Option.bind_eq_some_iff.1 h
    obtain ⟨recommended, hrec, rfl⟩ := Option.map_eq_some_iff.1 hrest
    exact .inr ⟨hfailed, fromQc, recommended, hqc, hrec, rfl, rfl,
      reconcileMode_deterministicMode⟩

/-- **The questions to rewrite** are those that a failed check names. -/
theorem classify_failedQuestionIds {L : Library} {r : QcResult} {questions : List Question}
    {routing : Routing} (h : classifyQuizRetryRouting L r questions = some routing)
    {qid : String} :
    qid ∈ routing.failedQuestionIds ↔
      qid ≠ "" ∧ ∃ c ∈ r.checks, c.passed = false ∧ c.category ∈ PER_QUESTION_CATEGORIES ∧
        c.question = qid := by
  rcases classify_cases h with ⟨hfailed, rfl⟩ | ⟨-, _, _, hrouted⟩
  · refine iff_of_false List.not_mem_nil ?_
    rintro ⟨-, c, hc, hfails, -⟩
    have hmem := mem_extractFailedChecks.2 ⟨hc, hfails⟩
    rw [hfailed] at hmem
    cases hmem
  · rw [hrouted.failedIds, mem_sortedSet, mem_perQuestionIds]
    refine and_congr Iff.rfl ⟨?_, ?_⟩
    · rintro ⟨c, hc, hcat, hid⟩
      obtain ⟨hmem, hfails⟩ := mem_extractFailedChecks.1 hc
      exact ⟨c, hmem, hfails, hcat, hid⟩
    · rintro ⟨c, hmem, hfails, hcat, hid⟩
      exact ⟨c, mem_extractFailedChecks.2 ⟨hmem, hfails⟩, hcat, hid⟩

/-- What each mode acts on. -/
structure ModeFits (routing : Routing) : Prop where
  patch : routing.mode = .questionPatch → routing.failedQuestionIds ≠ []
  insert : routing.mode = .questionInsert → routing.missingConcepts ≠ []
  both : routing.mode = .questionPatchThenInsert →
    routing.failedQuestionIds ≠ [] ∧ routing.missingConcepts ≠ []
  neither : routing.mode = .none →
    routing.failedQuestionIds = [] ∧ routing.missingConcepts = []

theorem deterministicMode_cases (ids missing : List String) :
    (deterministicMode ids missing = .none ∧ ids = [] ∧ missing = []) ∨
      (deterministicMode ids missing = .questionPatchThenInsert ∧ ids ≠ [] ∧ missing ≠ []) ∨
      (deterministicMode ids missing = .questionInsert ∧ ids = [] ∧ missing ≠ []) ∨
      deterministicMode ids missing = .questionPatch ∧ ids ≠ [] ∧ missing = [] := by
  unfold deterministicMode
  by_cases hids : ids = [] <;> by_cases hmissing : missing = [] <;> simp [hids, hmissing]

/-- **What each mode acts on is there.** -/
theorem classify_modeFits {L : Library} {r : QcResult} {questions : List Question}
    {routing : Routing} (h : classifyQuizRetryRouting L r questions = some routing) :
    ModeFits routing := by
  rcases classify_cases h with ⟨-, rfl⟩ | ⟨-, _, _, hrouted⟩
  · exact ⟨by simp, by simp, by simp, by simp⟩
  · have hmode := hrouted.mode
    split_ifs at hmode
    · exact ⟨by simp [hmode], by simp [hmode], by simp [hmode], by simp [hmode]⟩
    · rcases deterministicMode_cases routing.failedQuestionIds routing.missingConcepts with
        ⟨hdet, hids, hmissing⟩ | ⟨hdet, hids, hmissing⟩ | ⟨hdet, hids, hmissing⟩ |
          ⟨hdet, hids, hmissing⟩
      all_goals
        rw [hdet] at hmode
        exact ⟨by simp [hmode, hids], by simp [hmode, hmissing], by simp [hmode, hids, hmissing],
          by simp [hmode, hids, hmissing]⟩

/-- A routing never asks for a prune: that is decided by the validator. -/
theorem classify_mode_ne_prune {L : Library} {r : QcResult} {questions : List Question}
    {routing : Routing} (h : classifyQuizRetryRouting L r questions = some routing) :
    routing.mode ≠ .questionPrune := by
  rcases classify_cases h with ⟨-, rfl⟩ | ⟨-, _, _, hrouted⟩
  · decide
  · rw [hrouted.mode]
    split_ifs
    · decide
    · rcases deterministicMode_cases routing.failedQuestionIds routing.missingConcepts with
        ⟨hdet, -⟩ | ⟨hdet, -⟩ | ⟨hdet, -⟩ | ⟨hdet, -⟩
      all_goals
        rw [hdet]
        decide

end StudyAgent.Quiz
