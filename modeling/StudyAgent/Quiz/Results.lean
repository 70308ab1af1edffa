import StudyAgent.Base.Dedup
import StudyAgent.Quiz.Verification

/-!
# Quality-check results

The deterministic checks and those of a reply make a result, with a status and a verdict on
whether it can be delivered.  At a later visit the checks of the last result are kept outside
what was verified again, and the questions that passed are frozen.

Main results:

* `passed_of_deliverable` — **no answer check of a deliverable result fails**.
* `mem_mergeTargetedQcChecks` — a merged check is a new one or one that is kept.
* `mem_accumulateFrozenQuestionIds` — what is frozen.
* `accepted_covers_iff` — **an accepted reply covers the quiz iff it reports on the questions
  that were sent, each once**.
-/

namespace StudyAgent.Quiz

open Py

/-! ## Scoring -/

inductive Status where
  | fail
  | warn
  | pass
  deriving DecidableEq

/-- `derive_quiz_overall_status`. -/
def deriveQuizOverallStatus (checks : List Check) (wrongAnswerRisk : String) : Status :=
  if wrongAnswerRisk = "high" then .fail
  else if ∃ c ∈ checks, c.passed = false ∧ c.severity = .critical then .fail
  else if wrongAnswerRisk = "medium" then .warn
  else if ∃ c ∈ checks, c.passed = false ∧ c.severity = .major then .warn
  else if ∃ c ∈ checks, c.passed = false then .warn
  else .pass

/-- The result of a quality check: its status and its failed checks are derived from its
checks. -/
structure QcResult where
  overallStatus : Status
  wrongAnswerRisk : String
  checks : List Check
  failedChecks : List Check
  issues : List Value
  retryRecommendation : Option Recommendation
  status_eq : overallStatus = deriveQuizOverallStatus checks wrongAnswerRisk
  failed_eq : failedChecks = extractFailedChecks checks
  deriving DecidableEq

/-- `has_failed_answer_correctness`. -/
def hasFailedAnswerCorrectness (failedChecks : List Check) : Bool :=
  failedChecks.any fun c => c.category = .answerCorrectness && !c.passed

/-- `missing_concepts_from_recommendation`.  Concepts that cannot be iterated raise. -/
def missingConceptsFromRecommendation (recommendation : Option Recommendation) :
    Option (List String) :=
  match recommendation with
  | none => some []
  | some r => r.missingConcepts.map strippedTexts

/-- The mode that is recommended. -/
def recommendedMode (recommendation : Option Recommendation) : String :=
  match recommendation with
  | none => "none"
  | some r => if getTruthy r.mode false then getText r.mode "" else "none"

/-- `is_quiz_qc_deliverable`. -/
def isQuizQcDeliverable (r : QcResult) : Option Bool :=
  if hasFailedAnswerCorrectness r.failedChecks then some false
  else if r.overallStatus = .pass then some true
  else
    (missingConceptsFromRecommendation r.retryRecommendation).map fun concepts =>
      if concepts ≠ [] ∧
          (r.failedChecks ≠ [] ∨ recommendedMode r.retryRecommendation ≠ "none") then false
      else if r.overallStatus = .fail then false
      else r.wrongAnswerRisk ≠ "high" && !r.failedChecks.any fun c => c.severity = .critical

/-! ## Building -/

/-- `build_final_quiz_qc_result`.  Issues that cannot be iterated raise. -/
def buildFinalQuizQcResult (verification : Option Verification) (detChecks : List Check) :
    Option QcResult :=
  let detIds := detChecks.map Check.id
  let mergedLlm := match verification with
    | none => []
    | some ver => ver.checks.filter fun c => c.id ∉ detIds
  let allChecks := detChecks ++ mergedLlm
  let risk := match verification with
    | none => "none"
    | some ver => getText ver.wrongAnswerRisk "none"
  let issues := match verification with
    | none => some []
    | some ver => ver.issues
  issues.map fun issues =>
    { overallStatus := deriveQuizOverallStatus allChecks risk
      wrongAnswerRisk := risk
      checks := allChecks
      failedChecks := extractFailedChecks allChecks
      issues := issues
      retryRecommendation := verification.bind fun ver => ver.retryRecommendation.join
      status_eq := rfl
      failed_eq := rfl }

/-! ## Keeping earlier checks -/

/-- `check_targets_reverify`. -/
def checkTargetsReverify (c : Check) (reverifyIds : List String) : Bool :=
  if c.category ∈ PER_QUESTION_CATEGORIES then c.question ≠ "" && c.question ∈ reverifyIds
  else c.category ∈ LLM_QUIZ_WIDE_CATEGORIES

/-- `_dedup_key`. -/
def dedupKey (c : Check) : Category × String :=
  if c.category ∈ PER_QUESTION_CATEGORIES then (c.category, c.questionId.getD "")
  else (c.category, c.id)

/-- `merge_targeted_qc_checks`. -/
def mergeTargetedQcChecks (priorChecks newChecks : List Check) (reverifyIds : List String) :
    List Check :=
  let ids := strippedIds reverifyIds
  Dedup.keepLast dedupKey
    ((priorChecks.filter fun c => !checkTargetsReverify c ids) ++ newChecks)

/-- The ids under which the checks of a question are collected. -/
def perQuestionIds (checks : List Check) : List String :=
  ((checks.filter fun c => c.category ∈ PER_QUESTION_CATEGORIES).map Check.question).filter (· ≠ "")

/-- `accumulate_frozen_question_ids`. -/
def accumulateFrozenQuestionIds (checks : List Check) (existing : Option (List String)) :
    List String :=
  sortedSet (existing.getD [] ++ (perQuestionIds checks).filter fun qid =>
    checks.all fun c => !(c.category ∈ PER_QUESTION_CATEGORIES && c.question = qid) || c.passed)

/-! ## What they contain -/

theorem mem_perQuestionIds {checks : List Check} {qid : String} :
    qid ∈ perQuestionIds checks ↔
      qid ≠ "" ∧ ∃ c ∈ checks, c.category ∈ PER_QUESTION_CATEGORIES ∧ c.question = qid := by
  simp only [perQuestionIds, List.mem_filter, List.mem_map, decide_eq_true_eq]
  constructor
  · rintro ⟨⟨c, ⟨hc, hcat⟩, rfl⟩, hne⟩
    exact ⟨hne, c, hc, hcat, rfl⟩
  · rintro ⟨hne, c, hc, hcat, rfl⟩
    exact ⟨⟨c, ⟨hc, hcat⟩, rfl⟩, hne⟩

/-- **What is frozen**: what was, and every question all of whose checks passed. -/
theorem mem_accumulateFrozenQuestionIds {checks : List Check} {existing : Option (List String)}
    {qid : String} :
    qid ∈ accumulateFrozenQuestionIds checks existing ↔
      qid ∈ existing.getD [] ∨ qid ∈ perQuestionIds checks ∧
        ∀ c ∈ checks, c.category ∈ PER_QUESTION_CATEGORIES → c.question = qid →
          c.passed = true := by
  rw [accumulateFrozenQuestionIds, mem_sortedSet, List.mem_append, List.mem_filter,
    List.all_eq_true]
  refine or_congr Iff.rfl (and_congr Iff.rfl (forall₂_congr fun c hc => ?_))
  by_cases hcat : c.category ∈ PER_QUESTION_CATEGORIES
  · by_cases hq : c.question = qid
    · simp [hcat, hq]
    · simp [hcat, hq]
  · simp [hcat]

/-- A merged check is a new one, or an earlier one outside of what was verified again. -/
theorem mem_mergeTargetedQcChecks {prior new : List Check} {ids : List String} {c : Check}
    (hc : c ∈ mergeTargetedQcChecks prior new ids) :
    c ∈ new ∨ c ∈ prior ∧ checkTargetsReverify c (strippedIds ids) = false := by
  rw [mergeTargetedQcChecks, Dedup.keepLast_eq_lastWins] at hc
  rcases List.mem_append.1 (Dedup.mem_of_mem_lastWins hc) with hc | hc
  · obtain ⟨hmem, hkept⟩ := List.mem_filter.1 hc
    exact .inr ⟨hmem, by simpa using hkept⟩
  · exact .inl hc

/-- Every check that is merged leaves one of its key. -/
theorem exists_mem_mergeTargetedQcChecks {prior new : List Check} (ids : List String) {c : Check}
    (hc : c ∈ new ∨ c ∈ prior ∧ checkTargetsReverify c (strippedIds ids) = false) :
    ∃ d ∈ mergeTargetedQcChecks prior new ids, dedupKey d = dedupKey c := by
  rw [mergeTargetedQcChecks, Dedup.keepLast_eq_lastWins]
  refine Dedup.exists_mem_lastWins (List.mem_append.2 ?_)
  rcases hc with hc | ⟨hc, hkept⟩
  · exact .inr hc
  · exact .inl (List.mem_filter.2 ⟨hc, by simpa using hkept⟩)

/-- A new check whose key no other new check has survives. -/
theorem mem_mergeTargetedQcChecks_of_new {prior new : List Check} {ids : List String} {c : Check}
    (hc : c ∈ new) (hkey : ∀ d ∈ new, dedupKey d = dedupKey c → d = c) :
    c ∈ mergeTargetedQcChecks prior new ids := by
  obtain ⟨d, hd, heq⟩ := exists_mem_mergeTargetedQcChecks ids (.inl hc : c ∈ new ∨ c ∈ prior ∧ _)
  rw [mergeTargetedQcChecks, Dedup.keepLast_eq_lastWins, Dedup.mem_lastWins_append] at hd ⊢
  rcases hd with hd | ⟨-, hnone⟩
  · rw [← hkey d hd.mem heq]
    exact .inl hd
  · exact absurd ⟨c, hc, heq.symm⟩ hnone

/-- The status is no pass exactly if something fails or the risk is raised. -/
theorem deriveQuizOverallStatus_eq_pass {checks : List Check} {risk : String} :
    deriveQuizOverallStatus checks risk = .pass ↔
      risk ≠ "high" ∧ risk ≠ "medium" ∧ extractFailedChecks checks = [] := by
  have hfailed : extractFailedChecks checks = [] ↔ ¬ ∃ c ∈ checks, c.passed = false := by
    simp [extractFailedChecks]
  rw [hfailed, deriveQuizOverallStatus]
  split_ifs with h₁ h₂ h₃ h₄ h₅
  · simp [h₁]
  · obtain ⟨c, hc, hfail, -⟩ := h₂
    exact iff_of_false (by simp) fun h => h.2.2 ⟨c, hc, hfail⟩
  · simp [h₃]
  · obtain ⟨c, hc, hfail, -⟩ := h₄
    exact iff_of_false (by simp) fun h => h.2.2 ⟨c, hc, hfail⟩
  · exact iff_of_false (by simp) fun h => h.2.2 h₅
  · exact iff_of_true rfl ⟨h₁, h₃, h₅⟩

/-- **No answer check of a deliverable result fails.** -/
theorem passed_of_deliverable {r : QcResult} (h : isQuizQcDeliverable r = some true) {c : Check}
    (hc : c ∈ r.checks) (hcat : c.category = .answerCorrectness) : c.passed = true := by
  by_contra hfails
  have hmem : c ∈ r.failedChecks := by
    rw [r.failed_eq]
    exact mem_extractFailedChecks.2 ⟨hc, Bool.not_eq_true _ ▸ hfails⟩
  have hhas : hasFailedAnswerCorrectness r.failedChecks = true :=
    List.any_eq_true.2 ⟨c, hmem, by simp [hcat, Bool.not_eq_true _ ▸ hfails]⟩
  rw [isQuizQcDeliverable, if_pos hhas] at h
  cases h

/-- What a result is built of. -/
theorem buildFinalQuizQcResult_eq_some {ver : Verification} {det : List Check} {r : QcResult}
    (h : buildFinalQuizQcResult (some ver) det = some r) :
    r.checks = det ++ ver.checks.filter (fun c => c.id ∉ det.map Check.id) ∧
      r.wrongAnswerRisk = getText ver.wrongAnswerRisk "none" ∧
      r.retryRecommendation = ver.retryRecommendation.join := by
  obtain ⟨issues, -, rfl⟩ := Option.map_eq_some_iff.1 h
  exact ⟨rfl, rfl, rfl⟩

/-! ## What an accepted reply covers -/

/-- The checks of a full verification cover the quiz: each question that was sent has one check
of each dimension and no other question has any, and whenever the built result is delivered,
every question has an answer check that passed. -/
structure CoversQuiz (L : Library) (v : Verification) (questions : List Question)
    (expectedCount : ℕ) : Prop where
  exact : ExactlyCovers v.checks ((questionsForQc questions).map Question.id)
  delivered : ∀ det r, runDeterministicQuizChecks L questions expectedCount = some det →
    buildFinalQuizQcResult (some v) det = some r → isQuizQcDeliverable r = some true →
    ∀ q ∈ questionsForQc questions, ∃ c ∈ r.checks, c.category = .answerCorrectness ∧
      c.questionId = some q.id ∧ c.passed = true

theorem not_startsWith_det {r : QuestionResult} {c : Check} (hc : c ∈ r.checks) :
    startsWith c.id "det_" = false := by
  have hstart : ∀ {s p : String} {a b : Char} {l m : List Char} (t : String), s.toList = a :: l →
      p.toList = b :: m → a ≠ b → startsWith (s ++ t) p = false := by
    intro s p a b l m t hs hp hne
    rw [startsWith, String.toList_append, hs, hp, List.cons_append, List.isPrefixOf_cons_cons]
    simp [Ne.symm hne]
  rcases List.mem_pair.1 hc with rfl | rfl
  · exact hstart (a := 'a') (b := 'd') _ rfl rfl (by decide)
  · exact hstart (a := 'q') (b := 'd') _ rfl rfl (by decide)

/-- The deterministic checks take no check of a result away. -/
theorem mem_built_of_result {L : Library} {obj : Reply} {questions : List Question} {n : ℕ}
    {det : List Check} {r : QcResult} (hdet : runDeterministicQuizChecks L questions n = some det)
    (hbuild : buildFinalQuizQcResult (some (normalizeQuizQcResponse L obj)) det = some r)
    {result : QuestionResult} (hresult : result ∈ obj.results) {c : Check}
    (hc : c ∈ result.checks) : c ∈ r.checks := by
  rw [(buildFinalQuizQcResult_eq_some hbuild).1]
  refine List.mem_append_right _ (List.mem_filter.2 ⟨mem_normalized_of_result hresult hc, ?_⟩)
  rw [decide_eq_true_eq, List.mem_map]
  rintro ⟨d, hd, hid⟩
  have hstart := (mem_runDeterministicQuizChecks hdet hd).1
  rw [hid, not_startsWith_det hc] at hstart
  cases hstart

/-- **An accepted reply covers the quiz iff it reports on the questions that were sent**, on
each of them once. -/
theorem accepted_covers_iff {L : Library} {parsed : Option Reply} {questions : List Question}
    {n : ℕ} {v : Verification}
    (h : parseQuizQcResponse L parsed (some (questionsForQc questions).length) = some v) :
    CoversQuiz L v questions n ↔
      v.reportedIds.Nodup ∧
        ∀ qid, qid ∈ v.reportedIds ↔ qid ∈ (questionsForQc questions).map Question.id := by
  obtain ⟨obj, -, -, rfl⟩ := parseQuizQcResponse_eq_some h
  constructor
  · intro hcovers
    exact exactlyCovers_iff.1 hcovers.exact
  · rintro ⟨hnodup, hmem⟩
    refine ⟨exactlyCovers_iff.2 ⟨hnodup, hmem⟩, fun det r hdet hbuild hdeliverable q hq => ?_⟩
    obtain ⟨result, hresult, hid⟩ := List.mem_map.1 ((hmem q.id).2 (List.mem_map_of_mem hq))
    have hin := mem_built_of_result hdet hbuild hresult List.mem_cons_self
    exact ⟨_, hin, rfl, congrArg some hid, passed_of_deliverable hdeliverable hin rfl⟩

/-! ### One question reported twice -/

/-- The value of a hexadecimal digit. -/
def hexValue (c : Char) : Option ℕ :=
  if c.isDigit then some (c.toNat - '0'.toNat)
  else if 'a' ≤ c ∧ c ≤ 'f' then some (c.toNat - 'a'.toNat + 10)
  else none

/-- The number that 32 hexadecimal digits and any hyphens write. -/
def hexNumber (text : String) : Option ℕ :=
  let digits := text.toList.filter (· ≠ '-')
  if digits.length = 32 then
    (digits.mapM hexValue).map fun values => values.foldl (fun n d => 16 * n + d) 0
  else none

/-- A library that changes no stem and reads no list. -/
def plainLibrary : Library where
  normalizeQuestionMarkdown s := s
  printable _ := true
  literalEval _ := .other
  uuid := hexNumber

/-- A question that is filled in, with its first option marked. -/
def filledQuestion (qid stem : String) (orderIndex : ℕ) : Question where
  questionText := .str stem
  optionA := .str "a"
  optionB := .str "b"
  optionC := .str "c"
  optionD := .str "d"
  correctOption := .str "A"
  explanation := .str "see a"
  questionId := some (.str qid)
  orderIndex := orderIndex

/-- What a model answers for a question, with one of the options marked. -/
def itemFor (qid stem option : String) : Item where
  questionId := some (.str qid)
  questionText := some (.str stem)
  optionA := some (.str "a")
  optionB := some (.str "b")
  optionC := some (.str "c")
  optionD := some (.str "d")
  correctOption := some (.str option)
  explanation := some (.str "see a")

/-- A result for a question. -/
def resultFor (qid : String) (answerPassed qualityPassed : Bool) : QuestionResult where
  questionId := some (.str qid)
  questionNumber := some .null
  answerCorrectnessPassed := some (.bool answerPassed)
  answerEvidence := some (.str "")
  qualityPassed := some (.bool qualityPassed)
  qualityEvidence := some (.str "")
  correctiveHint := some (.str "")

/-- A reply with a summary that finds nothing. -/
def replyWith (results : List QuestionResult) (risk : String) : Reply where
  questionResults := some (results.map some)
  quizSummary := some
    { difficultyOk := some (.bool true)
      difficultyCounts := some
        { easy := some (.str "1"), medium := some (.str "1"), hard := some (.str "0") }
      duplicateConcepts := some []
      coverageIssues := some [] }
  wrongAnswerRisk := some (.str risk)
  correctiveInstructions := some (.str "")
  retryRecommendation := some (some { mode := some (.str "none") })

/-- Photosynthesis, and respiration. -/
def twoQuestions : List Question :=
  [filledQuestion "q1" "What do plants take in?" 0, filledQuestion "q2" "What do cells burn?" 1]

/-- A reply that reports on both. -/
def bothReply : Reply := replyWith [resultFor "q1" true true, resultFor "q2" true true] "none"

theorem both_reported_covered :
    CoversQuiz plainLibrary (normalizeQuizQcResponse plainLibrary bothReply) twoQuestions 2 := by
  have haccepted : parseQuizQcResponse plainLibrary (some bothReply)
      (some (questionsForQc twoQuestions).length) =
        some (normalizeQuizQcResponse plainLibrary bothReply) := rfl
  refine (accepted_covers_iff haccepted).2 ⟨by decide, ?_⟩
  exact fun qid => Iff.rfl

/-- A reply that reports twice on the first question is accepted, and the quiz is delivered
though its second question was never checked. -/
theorem first_reported_twice :
    ∃ v det r, parseQuizQcResponse plainLibrary
        (some (replyWith [resultFor "q1" true true, resultFor "q1" true true] "none")) (some 2) =
          some v ∧
      runDeterministicQuizChecks plainLibrary twoQuestions 2 = some det ∧
      buildFinalQuizQcResult (some v) det = some r ∧ isQuizQcDeliverable r = some true ∧
      (∀ c ∈ r.checks, c.questionId ≠ some "q2") ∧ ¬ CoversQuiz plainLibrary v twoQuestions 2 := by
  refine ⟨_, _, _, rfl, rfl, rfl, by decide, by decide, fun hcovers => ?_⟩
  have hone := hcovers.exact.one "q2" (by decide) .answerCorrectness (by decide)
  revert hone
  decide

end StudyAgent.Quiz
