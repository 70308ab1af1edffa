import StudyAgent.Quiz.Checks

/-!
# Verification replies

The object that the verifier answers with, one result for each question and a summary of the
quiz, and the checks it is expanded to.  What is accepted is decided on the number of results
and the kinds of their fields; the ids that they name are not looked at.

Main results:

* `count_checks` — the checks of a category that name a question are as many as the results
  that do.
* `exactlyCovers_iff` — **the questions sent are covered exactly iff they are what is reported,
  each once**.
-/

namespace StudyAgent.Quiz

open Py

/-! ## Replies -/

/-- A `question_result` object. -/
structure QuestionResult where
  questionId : Option Value := none
  questionNumber : Option Value := none
  answerCorrectnessPassed : Option Value := none
  answerEvidence : Option Value := none
  qualityPassed : Option Value := none
  qualityEvidence : Option Value := none
  correctiveHint : Option Value := none
  deriving DecidableEq

structure DifficultyCounts where
  easy : Option Value := none
  medium : Option Value := none
  hard : Option Value := none
  deriving DecidableEq

/-- The `quiz_summary` object.  What is no object or no list is `none`. -/
structure QuizSummary where
  difficultyOk : Option Value := none
  difficultyCounts : Option DifficultyCounts := none
  duplicateConcepts : Option (List Value) := none
  coverageIssues : Option (List Value) := none
  deriving DecidableEq

/-- The `retry_recommendation` object.  Concepts that cannot be iterated are `none`; a missing
key is iterated like an empty list. -/
structure Recommendation where
  mode : Option Value := none
  missingConcepts : Option (List Value) := some []
  deriving DecidableEq

/-- The object of a reply.  A recommendation that is no object is `some none`, and `issues` are
`none` where they cannot be iterated. -/
structure Reply where
  questionResults : Option (List (Option QuestionResult)) := none
  quizSummary : Option QuizSummary := none
  wrongAnswerRisk : Option Value := none
  correctiveInstructions : Option Value := none
  retryRecommendation : Option (Option Recommendation) := none
  issues : Option (List Value) := some []
  deriving DecidableEq

/-- A reply with the checks that it was expanded to. -/
structure Verification extends Reply where
  checks : List Check

/-! ## Acceptance -/

/-- `isinstance(x, bool)`. -/
def isBool (x : Option Value) : Bool :=
  match x with
  | some (.bool _) => true
  | _ => false

/-- `_is_valid_question_result`. -/
def isValidQuestionResult (result : Option QuestionResult) : Bool :=
  match result with
  | none => false
  | some r =>
    [r.questionId, r.questionNumber, r.answerCorrectnessPassed, r.answerEvidence, r.qualityPassed,
      r.qualityEvidence, r.correctiveHint].all Option.isSome &&
    isBool r.answerCorrectnessPassed && isBool r.qualityPassed

/-- `_question_results_complete_for_question_count`. -/
def questionResultsComplete (results : List (Option QuestionResult)) (questionCount : ℕ) : Bool :=
  results.length = questionCount && results.all isValidQuestionResult

/-- `_is_valid_quiz_summary`. -/
def isValidQuizSummary (summary : Option QuizSummary) : Bool :=
  match summary with
  | none => false
  | some s =>
    s.difficultyOk.isSome &&
    (match s.difficultyCounts with
      | none => false
      | some counts => counts.easy.isSome && counts.medium.isSome && counts.hard.isSome) &&
    s.duplicateConcepts.isSome && s.coverageIssues.isSome

/-- `is_valid_quiz_qc_response`. -/
def isValidQuizQcResponse (obj : Reply) (questionCount : Option ℕ) : Bool :=
  match obj.questionResults with
  | none => false
  | some results =>
    !results.isEmpty && isValidQuizSummary obj.quizSummary && obj.wrongAnswerRisk.isSome &&
    obj.correctiveInstructions.isSome && obj.retryRecommendation.isSome &&
    (match questionCount with
      | none => true
      | some n => questionResultsComplete results n)

/-! ## Expansion -/

/-- The id under which a result reports. -/
def QuestionResult.id (r : QuestionResult) : String := strip (getText r.questionId "")

/-- The check of one dimension of a result. -/
def QuestionResult.check (r : QuestionResult) (name : String) (category : Category)
    (severity : Severity) (passed evidence : Option Value) : Check where
  id := name ++
    (if getTruthy r.questionNumber false then getText r.questionNumber "" else r.id)
  category := category
  passed := getTruthy passed false
  severity := severity
  evidence := getText evidence ""
  correctiveHint := if getTruthy passed false then "" else strip (getText r.correctiveHint "")
  questionId := some r.id

/-- The two checks of a result. -/
def QuestionResult.checks (r : QuestionResult) : List Check :=
  [r.check "answer_correctness_" .answerCorrectness .critical r.answerCorrectnessPassed
      r.answerEvidence,
    r.check "question_quality_" .questionQuality .major r.qualityPassed r.qualityEvidence]

/-- `expand_question_results_to_checks`. -/
def expandQuestionResultsToChecks (results : List QuestionResult) : List Check :=
  results.flatMap QuestionResult.checks

/-- `[str(item).strip() for item in items if str(item).strip()]`. -/
def strippedTexts (items : List Value) : List String :=
  (items.map fun item => strip item.text).filter (· ≠ "")

section

variable (L : Library)

/-- `repr` of a list of texts. -/
def reprList (items : List String) : String :=
  "[" ++ ", ".intercalate (items.map (repr L.printable)) ++ "]"

/-- `expand_quiz_summary_to_checks`. -/
def expandQuizSummaryToChecks (s : QuizSummary) : List Check :=
  let counts := s.difficultyCounts.getD {}
  let difficultyOk := getTruthy s.difficultyOk false
  let duplicateConcepts := strippedTexts (s.duplicateConcepts.getD [])
  let coverageIssues := strippedTexts (s.coverageIssues.getD [])
  let duplicateOk := duplicateConcepts.isEmpty && coverageIssues.isEmpty
  [{ id := "difficulty_alignment"
     category := .difficultyAlignment
     passed := difficultyOk
     severity := .major
     evidence := "easy=" ++ getText counts.easy "0" ++ ", medium=" ++ getText counts.medium "0" ++
       ", hard=" ++ getText counts.hard "0"
     correctiveHint := if difficultyOk then "" else "Rebalance easy/medium/hard." },
   { id := "duplicate_overlap"
     category := .duplicateOverlap
     passed := duplicateOk
     severity := .major
     evidence :=
       if duplicateOk then "No duplicate concepts or coverage gaps."
       else "duplicates=" ++ reprList L duplicateConcepts ++ "; coverage=" ++
         reprList L coverageIssues
     correctiveHint :=
       if duplicateOk then "" else "Remove duplicates or add missing concept coverage." }]

/-- The results that are objects. -/
def Reply.results (obj : Reply) : List QuestionResult :=
  (obj.questionResults.getD []).filterMap fun result => result

/-- The checks that the summary is expanded to. -/
def Reply.syntheticWide (obj : Reply) : List Check :=
  match obj.quizSummary with
  | some summary => expandQuizSummaryToChecks L summary
  | none => []

/-- `normalize_quiz_qc_response`. -/
def normalizeQuizQcResponse (obj : Reply) : Verification where
  toReply := obj
  checks := expandQuestionResultsToChecks obj.results ++ obj.syntheticWide L

/-- `parse_quiz_qc_response`, on the object that is read from the text. -/
def parseQuizQcResponse (parsed : Option Reply) (questionCount : Option ℕ) :
    Option Verification :=
  match parsed with
  | none => none
  | some obj =>
    if isValidQuizQcResponse obj questionCount then some (normalizeQuizQcResponse L obj) else none

end

/-- `questions_for_qc`: what is sent to the verifier. -/
def questionsForQc (questions : List Question) : List Question :=
  questions.map fun q => { q with questionId := some (.str (q.questionId.getD .null).text) }

/-! ## What the checks name -/

/-- The ids that a reply reports on. -/
def Reply.reportedIds (obj : Reply) : List String := obj.results.map QuestionResult.id

/-- The checks contain one check of each dimension for each of the ids, and none for any other
question. -/
structure ExactlyCovers (checks : List Check) (ids : List String) : Prop where
  one : ∀ qid ∈ ids, ∀ category ∈ PER_QUESTION_CATEGORIES,
    (checks.countP fun c => c.category = category ∧ c.questionId = some qid) = 1
  only : ∀ c ∈ checks, c.category ∈ PER_QUESTION_CATEGORIES → ∃ qid ∈ ids, c.questionId = some qid

variable {L : Library}

theorem parseQuizQcResponse_eq_some {parsed : Option Reply} {n : Option ℕ} {v : Verification}
    (h : parseQuizQcResponse L parsed n = some v) :
    ∃ obj, parsed = some obj ∧ isValidQuizQcResponse obj n = true ∧
      v = normalizeQuizQcResponse L obj := by
  cases parsed with
  | none => cases h
  | some obj =>
    rw [parseQuizQcResponse] at h
    split_ifs at h with hvalid
    cases h
    exact ⟨obj, rfl, hvalid, rfl⟩

/-- What the summary is expanded to names no question. -/
theorem mem_syntheticWide {obj : Reply} {c : Check} (hc : c ∈ obj.syntheticWide L) :
    c.questionId = none ∧ c.category ∉ PER_QUESTION_CATEGORIES := by
  unfold Reply.syntheticWide at hc
  cases hsummary : obj.quizSummary with
  | none =>
    rw [hsummary] at hc
    cases hc
  | some summary =>
    rw [hsummary] at hc
    simp only [expandQuizSummaryToChecks, List.mem_cons, List.not_mem_nil, or_false] at hc
    rcases hc with rfl | rfl
    · simp [PER_QUESTION_CATEGORIES]
    · simp [PER_QUESTION_CATEGORIES]

theorem mem_expandQuestionResultsToChecks {results : List QuestionResult} {c : Check} :
    c ∈ expandQuestionResultsToChecks results ↔ ∃ r ∈ results, c ∈ r.checks := List.mem_flatMap

/-- A check of a result names it, in one of the two dimensions. -/
theorem mem_resultChecks {r : QuestionResult} {c : Check} (hc : c ∈ r.checks) :
    c.questionId = some r.id ∧ c.category ∈ PER_QUESTION_CATEGORIES := by
  rcases List.mem_pair.1 hc with rfl | rfl
  · simp [QuestionResult.check, PER_QUESTION_CATEGORIES]
  · simp [QuestionResult.check, PER_QUESTION_CATEGORIES]

theorem question_of_mem_checks {r : QuestionResult} {c : Check} (hc : c ∈ r.checks) :
    c.question = r.id := by
  rw [Check.question, (mem_resultChecks hc).1]
  exact strip_strip _

/-- The checks of the two dimensions are those of the results. -/
theorem mem_normalized_perQuestion {obj : Reply} {c : Check}
    (hc : c ∈ (normalizeQuizQcResponse L obj).checks)
    (hcat : c.category ∈ PER_QUESTION_CATEGORIES) : ∃ r ∈ obj.results, c ∈ r.checks := by
  rcases List.mem_append.1 hc with hc | hc
  · exact mem_expandQuestionResultsToChecks.1 hc
  · exact absurd hcat (mem_syntheticWide hc).2

/-- A result is expanded to a check of each dimension. -/
theorem mem_normalized_of_result {obj : Reply} {r : QuestionResult} (hr : r ∈ obj.results)
    {c : Check} (hc : c ∈ r.checks) : c ∈ (normalizeQuizQcResponse L obj).checks :=
  List.mem_append_left _ (List.mem_flatMap.2 ⟨r, hr, hc⟩)

/-- **The checks of a category that name a question** are as many as the results that do. -/
theorem count_checks (obj : Reply) {category : Category} (hcat : category ∈ PER_QUESTION_CATEGORIES)
    (qid : String) :
    ((normalizeQuizQcResponse L obj).checks.countP
      fun c => c.category = category ∧ c.questionId = some qid) = obj.reportedIds.count qid := by
  have hwide : ((obj.syntheticWide L).countP
      fun c => c.category = category ∧ c.questionId = some qid) = 0 := by
    rw [List.countP_eq_zero]
    intro c hc hmatch
    rw [decide_eq_true_eq, (mem_syntheticWide hc).1] at hmatch
    cases hmatch.2
  have hresult : ∀ r : QuestionResult,
      (r.checks.countP fun c => c.category = category ∧ c.questionId = some qid) =
        if r.id = qid then 1 else 0 := by
    intro r
    simp only [PER_QUESTION_CATEGORIES, List.mem_cons, List.not_mem_nil, or_false] at hcat
    rcases hcat with rfl | rfl
    · simp [QuestionResult.checks, QuestionResult.check, List.countP_cons]
    · simp [QuestionResult.checks, QuestionResult.check, List.countP_cons]
  rw [normalizeQuizQcResponse, List.countP_append, hwide, Nat.add_zero,
    expandQuestionResultsToChecks, Reply.reportedIds]
  generalize obj.results = results
  induction results with
  | nil => rfl
  | cons r results ih =>
    rw [List.flatMap_cons, List.countP_append, ih, hresult, List.map_cons, List.count_cons]
    simp only [beq_iff_eq]
    exact Nat.add_comm _ _

/-- **What is sent is covered exactly iff it is what is reported**, each question once. -/
theorem exactlyCovers_iff {obj : Reply} {ids : List String} :
    ExactlyCovers (normalizeQuizQcResponse L obj).checks ids ↔
      obj.reportedIds.Nodup ∧ ∀ qid, qid ∈ obj.reportedIds ↔ qid ∈ ids := by
  have hac : Category.answerCorrectness ∈ PER_QUESTION_CATEGORIES := List.mem_cons_self
  constructor
  · intro h
    have hsent : ∀ qid ∈ obj.reportedIds, qid ∈ ids := by
      intro qid hqid
      obtain ⟨r, hr, rfl⟩ := List.mem_map.1 hqid
      obtain ⟨sent, hmem, heq⟩ := h.only _ (mem_normalized_of_result hr List.mem_cons_self) hac
      rw [Option.some.inj heq]
      exact hmem
    have hcount : ∀ qid ∈ ids, obj.reportedIds.count qid = 1 := by
      intro qid hqid
      rw [← count_checks (L := L) obj hac qid]
      exact h.one qid hqid _ hac
    refine ⟨List.nodup_iff_count_le_one.2 fun qid => ?_, fun qid => ⟨hsent qid, fun hqid => ?_⟩⟩
    · by_cases hmem : qid ∈ obj.reportedIds
      · exact (hcount qid (hsent qid hmem)).le
      · rw [List.count_eq_zero_of_not_mem hmem]
        exact Nat.zero_le 1
    · exact List.count_pos_iff.1 (by rw [hcount qid hqid]; exact Nat.one_pos)
  · rintro ⟨hnodup, hmem⟩
    refine ⟨fun qid hqid category hcat => ?_, fun c hc hcat => ?_⟩
    · rw [count_checks obj hcat qid]
      exact List.count_eq_one_of_mem hnodup ((hmem qid).2 hqid)
    · obtain ⟨r, hr, hcr⟩ := mem_normalized_perQuestion hc hcat
      exact ⟨r.id, (hmem _).1 (List.mem_map_of_mem hr), (mem_resultChecks hcr).1⟩

end StudyAgent.Quiz
