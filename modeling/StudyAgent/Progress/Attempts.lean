import StudyAgent.Base.Runs
import StudyAgent.Progress.NodeProgress
import Mathlib.Algebra.Order.Field.Rat
import Mathlib.Data.List.Nodup
import Mathlib.Data.List.Perm.Lattice

/-!
# The attempts on a quiz

One attempt of a trainee on a quiz whose questions the mentor may edit, once the quiz is no
longer published, while the attempt goes on.  A submission counts the correct answers of the
attempt over the questions that are active then.

Scores are the exact quotients.

Main results:

* `AttemptReached.ok` — a response is locked exactly when it is correct, in every state reached.
* `totalCorrect_eq` — the correct answers of an attempt, question by question.
* `submission_wellFormed_iff` — **a submitted score is a fraction of the active questions, exactly
  when correct answers on removed questions are made up for by wrong ones.**
-/

namespace StudyAgent.Progress

/-- `CorrectOption`. -/
inductive CorrectOption where
  | a
  | b
  | c
  | d
  deriving DecidableEq

/-- `QuizQuestion`, as far as answers depend on it. -/
structure Question (κ : Type) where
  questionId : κ
  correctOption : CorrectOption
  isActive : Bool := true

/-- `QuizQuestionResponse`. -/
structure Response (κ : Type) where
  questionId : κ
  selectedOption : Option CorrectOption := none
  isCorrect : Option Bool := none
  hintLevelReached : ℕ := 0
  wasSkipped : Bool := false
  isVisited : Bool := false
  isFlagged : Bool := false
  wasLocked : Bool := false

/-- What a submission stores. -/
structure Totals where
  score : ℚ
  totalCorrect : ℕ
  totalWithHints : ℕ
  totalSkipped : ℕ

/-- An attempt with the quiz it is on. -/
structure Attempt (κ : Type) where
  questions : List (Question κ)
  isPublished : Bool
  status : AttemptStatus
  responses : List (Response κ)
  resumeQuestionId : Option κ
  totals : Option Totals

variable {κ : Type}

/-- An attempt just started. -/
def Attempt.Fresh (s : Attempt κ) : Prop :=
  (s.questions.map Question.questionId).Nodup ∧ s.status = .inProgress ∧ s.responses = []

/-! ## Responses -/

section Responses

variable [DecidableEq κ]

/-- `get_response`. -/
def getResponse (responses : List (Response κ)) (questionId : κ) : Option (Response κ) :=
  responses.find? fun r => r.questionId = questionId

/-- Change the response to a question, or add one. -/
def upsert (responses : List (Response κ)) (questionId : κ) (f : Response κ → Response κ) :
    List (Response κ) :=
  if (getResponse responses questionId).isSome then
    responses.map fun r => if r.questionId = questionId then f r else r
  else responses ++ [f { questionId := questionId }]

/-- `upsert_response`. -/
def upsertResponse (responses : List (Response κ)) (questionId : κ)
    (selectedOption : Option CorrectOption) (isCorrect : Option Bool) (hintLevelReached : ℕ)
    (wasSkipped wasLocked : Bool) : List (Response κ) :=
  upsert responses questionId fun r =>
    { r with
      selectedOption := selectedOption
      isCorrect := isCorrect
      hintLevelReached := hintLevelReached
      wasSkipped := wasSkipped
      isVisited := true
      wasLocked := wasLocked }

/-- `patch_navigation_state`, on the responses. -/
def patchNavigationState (responses : List (Response κ)) (questionId : κ)
    (isVisited isFlagged wasSkipped : Option Bool) : List (Response κ) :=
  upsert responses questionId fun r =>
    { r with
      isVisited := isVisited.getD r.isVisited
      isFlagged := isFlagged.getD r.isFlagged
      wasSkipped := if r.selectedOption.isNone then wasSkipped.getD r.wasSkipped
        else r.wasSkipped }

/-- `is_question_skipped_at_submit`. -/
def isQuestionSkippedAtSubmit (question : Question κ) (response : Option (Response κ)) : Bool :=
  if !question.isActive then false
  else
    match response with
    | none => true
    | some r => !r.wasLocked && r.selectedOption.isNone

/-- `_active_questions`, and `get_active_questions_by_quiz`. -/
def activeQuestions (questions : List (Question κ)) : List (Question κ) :=
  questions.filter Question.isActive

/-- `count_skipped_at_submit`. -/
def countSkippedAtSubmit (questions : List (Question κ)) (responses : List (Response κ)) : ℕ :=
  (activeQuestions questions).countP fun q =>
    isQuestionSkippedAtSubmit q (getResponse responses q.questionId)

/-- One question of `_finalize_skipped_responses`. -/
def finalizeSkippedResponse (responses : List (Response κ)) (question : Question κ) :
    List (Response κ) :=
  let skipped := isQuestionSkippedAtSubmit question (getResponse responses question.questionId)
  match getResponse responses question.questionId with
  | none =>
    if !skipped then responses
    else upsertResponse responses question.questionId none none 0 true false
  | some r =>
    if r.wasSkipped = skipped then responses
    else
      upsertResponse responses question.questionId r.selectedOption r.isCorrect
        r.hintLevelReached skipped r.wasLocked

/-- `_finalize_skipped_responses`. -/
def finalizeSkippedResponses (active : List (Question κ)) (responses : List (Response κ)) :
    List (Response κ) :=
  active.foldl finalizeSkippedResponse responses

/-- What `submit_attempt` computes from the responses. -/
def totalsOf (questions : List (Question κ)) (responses : List (Response κ)) : Totals :=
  let totalQuestions := (activeQuestions questions).length
  let totalCorrect := responses.countP fun r => r.isCorrect = some true
  { score := if 0 < totalQuestions then totalCorrect / totalQuestions else 0
    totalCorrect := totalCorrect
    totalWithHints := responses.countP fun r => r.isCorrect = some true ∧ 0 < r.hintLevelReached
    totalSkipped := countSkippedAtSubmit questions responses }

end Responses

/-! ## Actions -/

/-- What the trainee does on the attempt, and the mentor on the quiz. -/
inductive AttemptAction (κ : Type) where
  | submitResponse (questionId : κ) (selectedOption : Option CorrectOption)
  | patchAttemptState (questionId : κ) (isVisited isFlagged wasSkipped : Option Bool)
      (resumeQuestionId : Option κ)
  | submitAttempt
  | publishQuiz
  | unpublishQuiz
  /-- Another quiz of the node is published, in place of this one. -/
  | supersedeQuiz
  | createQuestion (question : Question κ)
  | updateQuestion (questionId : κ) (correctOption : CorrectOption)
  | deleteQuestion (questionId : κ)

section Step

variable [DecidableEq κ]

/-- The active question with an id. -/
def activeQuestion (questions : List (Question κ)) (questionId : κ) : Option (Question κ) :=
  questions.find? fun q => q.questionId = questionId ∧ q.isActive

/-- `submit_response`: any question of the quiz, active or not, whose response is not locked. -/
def submitResponse (s : Attempt κ) (questionId : κ) (selectedOption : Option CorrectOption) :
    Option (Attempt κ) :=
  if s.status ≠ .inProgress then none
  else
    match selectedOption, s.questions.find? fun q => q.questionId = questionId with
    | some option, some question =>
      let existing := getResponse s.responses questionId
      if existing.any Response.wasLocked then none
      else
        let isCorrect : Bool := option = question.correctOption
        let hintLevel := (existing.map Response.hintLevelReached).getD 0
        some { s with
          responses := upsertResponse s.responses questionId (some option) (some isCorrect)
            (if isCorrect then hintLevel else min (hintLevel + 1) 3) false isCorrect }
    | _, _ => none

/-- `patch_attempt_state`. -/
def patchAttemptState (s : Attempt κ) (questionId : κ)
    (isVisited isFlagged wasSkipped : Option Bool) (resumeQuestionId : Option κ) :
    Option (Attempt κ) :=
  if s.status ≠ .inProgress then none
  else if (activeQuestion s.questions questionId).isNone then none
  else if resumeQuestionId.any fun q => (activeQuestion s.questions q).isNone then none
  else
    some { s with
      responses := patchNavigationState s.responses questionId isVisited isFlagged wasSkipped
      resumeQuestionId := resumeQuestionId.or s.resumeQuestionId }

/-- `submit_attempt`. -/
def submitAttempt (s : Attempt κ) : Option (Attempt κ) :=
  if s.status ≠ .inProgress then none
  else
    let responses := finalizeSkippedResponses (activeQuestions s.questions) s.responses
    some { s with
      status := .submitted
      responses := responses
      totals := some (totalsOf s.questions responses) }

/-- Edit an active question of a quiz that is not published. -/
def editQuestion (s : Attempt κ) (questionId : κ) (f : Question κ → Question κ) :
    Option (Attempt κ) :=
  if s.isPublished then none
  else if (activeQuestion s.questions questionId).isNone then none
  else
    some { s with
      questions := s.questions.map fun q => if q.questionId = questionId then f q else q }

/-- `update_question`, as far as answers depend on it. -/
def updateQuestion (s : Attempt κ) (questionId : κ) (correctOption : CorrectOption) :
    Option (Attempt κ) :=
  editQuestion s questionId fun q => { q with correctOption := correctOption }

/-- `delete_question`. -/
def deleteQuestion (s : Attempt κ) (questionId : κ) : Option (Attempt κ) :=
  editQuestion s questionId fun q => { q with isActive := false }

/-- `create_question`, with the id that the row gets. -/
def createQuestion (s : Attempt κ) (question : Question κ) : Option (Attempt κ) :=
  if s.isPublished then none
  else if s.questions.any fun q => q.questionId = question.questionId then none
  else some { s with questions := s.questions ++ [{ question with isActive := true }] }

/-- One action; `none` where it is refused. -/
def attemptStep (s : Attempt κ) : AttemptAction κ → Option (Attempt κ)
  | .submitResponse questionId selectedOption => submitResponse s questionId selectedOption
  | .patchAttemptState questionId isVisited isFlagged wasSkipped resumeQuestionId =>
    patchAttemptState s questionId isVisited isFlagged wasSkipped resumeQuestionId
  | .submitAttempt => submitAttempt s
  | .publishQuiz => if s.isPublished then none else some { s with isPublished := true }
  | .unpublishQuiz => if !s.isPublished then none else some { s with isPublished := false }
  | .supersedeQuiz =>
    some { s with
      isPublished := false
      status := if s.isPublished && s.status = .inProgress then .abandoned else s.status }
  | .createQuestion question => createQuestion s question
  | .updateQuestion questionId correctOption => updateQuestion s questionId correctOption
  | .deleteQuestion questionId => deleteQuestion s questionId

end Step

/-! ## What an answer comes to -/

/-- What a question comes to in a submission. -/
inductive Outcome where
  | correct
  | wrong
  | skipped
  deriving DecidableEq

def outcome (response : Option (Response κ)) : Outcome :=
  match response with
  | none => .skipped
  | some r =>
    if r.isCorrect = some true then .correct
    else if r.selectedOption = none then .skipped
    else .wrong

/-- A response is locked exactly when it is correct, and is correct or not once an option is
selected. -/
structure Response.Ok (r : Response κ) : Prop where
  locked : r.wasLocked = true ↔ r.isCorrect = some true
  selected : r.selectedOption = none ↔ r.isCorrect = none
  hints : r.hintLevelReached ≤ 3

theorem isQuestionSkippedAtSubmit_iff {question : Question κ} {response : Option (Response κ)}
    (h : ∀ r ∈ response, r.Ok) :
    isQuestionSkippedAtSubmit question response = true ↔
      question.isActive = true ∧ outcome response = .skipped := by
  cases hactive : question.isActive with
  | false => simp [isQuestionSkippedAtSubmit, hactive]
  | true =>
    cases response with
    | none => simp [isQuestionSkippedAtSubmit, hactive, outcome]
    | some r =>
      have hok := h r rfl
      by_cases hcorrect : r.isCorrect = some true
      · have hlocked := hok.locked.2 hcorrect
        simp [isQuestionSkippedAtSubmit, hactive, outcome, hlocked, hcorrect]
      · have hlocked : r.wasLocked = false := by
          rw [← Bool.not_eq_true]
          exact fun h => hcorrect (hok.locked.1 h)
        simp [isQuestionSkippedAtSubmit, hactive, outcome, hlocked, hcorrect]

/-! ## Upserts -/

section Upserts

variable [DecidableEq κ] {responses : List (Response κ)} {questionId : κ}
  {f : Response κ → Response κ}

theorem questionId_of_getResponse {r : Response κ} (h : r ∈ getResponse responses questionId) :
    r.questionId = questionId := by
  simpa using List.find?_some h

theorem getResponse_map (hf : ∀ r, (f r).questionId = r.questionId) (q : κ) :
    getResponse (responses.map fun r => if r.questionId = questionId then f r else r) q =
      (getResponse responses q).map fun r => if r.questionId = questionId then f r else r := by
  have hkey : (fun r : Response κ => decide (r.questionId = q)) ∘
      (fun r => if r.questionId = questionId then f r else r) =
        fun r => decide (r.questionId = q) := by
    funext r
    by_cases hr : r.questionId = questionId
    · simp [hr, hf]
    · simp [hr]
  rw [getResponse, List.find?_map, hkey]
  rfl

theorem getResponse_upsert_self (hf : ∀ r, (f r).questionId = r.questionId) :
    getResponse (upsert responses questionId f) questionId =
      some (f ((getResponse responses questionId).getD { questionId := questionId })) := by
  rw [upsert]
  split_ifs with h
  · obtain ⟨r, hr⟩ := Option.isSome_iff_exists.1 h
    have hid := questionId_of_getResponse hr
    rw [getResponse_map hf, hr]
    simp [hid]
  · rw [Option.not_isSome_iff_eq_none] at h
    have hno : responses.find? (fun r => decide (r.questionId = questionId)) = none := h
    rw [h, getResponse, List.find?_append, hno]
    simp [hf]

theorem getResponse_upsert_of_ne (hf : ∀ r, (f r).questionId = r.questionId) {q : κ}
    (hq : q ≠ questionId) :
    getResponse (upsert responses questionId f) q = getResponse responses q := by
  rw [upsert]
  split_ifs with h
  · rw [getResponse_map hf]
    cases hr : getResponse responses q with
    | none => rfl
    | some r =>
      have hid : r.questionId ≠ questionId := by
        rw [questionId_of_getResponse hr]
        exact hq
      simp [hid]
  · rw [getResponse, List.find?_append]
    simp [hf, hq.symm, getResponse]

/-- The rows of an upsert, with their ids. -/
theorem upsert_ids (hf : ∀ r, (f r).questionId = r.questionId) :
    (upsert responses questionId f).map Response.questionId =
      if (getResponse responses questionId).isSome then responses.map Response.questionId
      else responses.map Response.questionId ++ [questionId] := by
  rw [upsert]
  split_ifs with h
  · rw [List.map_map]
    refine List.map_congr_left fun r _ => ?_
    by_cases hr : r.questionId = questionId
    · simp [hr, hf]
    · simp [hr]
  · simp [hf]

theorem isSome_getResponse_iff :
    (getResponse responses questionId).isSome ↔
      questionId ∈ responses.map Response.questionId := by
  simp [getResponse, List.find?_isSome]

theorem upsert_ids_nodup (hf : ∀ r, (f r).questionId = r.questionId)
    (h : (responses.map Response.questionId).Nodup) :
    ((upsert responses questionId f).map Response.questionId).Nodup := by
  rw [upsert_ids hf]
  split_ifs with hsome
  · exact h
  · rw [isSome_getResponse_iff] at hsome
    refine List.nodup_append.2 ⟨h, List.nodup_singleton _, fun q hq q' hq' => ?_⟩
    rintro rfl
    rw [List.mem_singleton.1 hq'] at hq
    exact hsome hq

theorem mem_upsert_ids (hf : ∀ r, (f r).questionId = r.questionId) {q : κ}
    (h : q ∈ (upsert responses questionId f).map Response.questionId) :
    q ∈ responses.map Response.questionId ∨ q = questionId := by
  rw [upsert_ids hf] at h
  split_ifs at h
  · exact Or.inl h
  · simpa using h

end Upserts

/-! ## The responses of an attempt -/

section Invariant

variable [DecidableEq κ] {questions : List (Question κ)} {responses : List (Response κ)}
  {questionId : κ}

theorem upsert_ok {f : Response κ → Response κ} (hf : ∀ r, r.Ok → (f r).Ok)
    (h : ∀ r ∈ responses, r.Ok) : ∀ r ∈ upsert responses questionId f, r.Ok := by
  intro r hr
  rw [upsert] at hr
  split_ifs at hr
  · obtain ⟨r', hr', rfl⟩ := List.mem_map.1 hr
    split_ifs
    · exact hf r' (h r' hr')
    · exact h r' hr'
  · rcases List.mem_append.1 hr with hold | hnew
    · exact h r hold
    · rw [List.mem_singleton.1 hnew]
      exact hf _ ⟨by simp, by simp, by simp⟩

theorem upsertResponse_ok {selectedOption : Option CorrectOption} {isCorrect : Option Bool}
    {hintLevelReached : ℕ} {wasSkipped wasLocked : Bool} (h : ∀ r ∈ responses, r.Ok)
    (hlocked : wasLocked = true ↔ isCorrect = some true)
    (hselected : selectedOption = none ↔ isCorrect = none) (hhints : hintLevelReached ≤ 3) :
    ∀ r ∈ upsertResponse responses questionId selectedOption isCorrect hintLevelReached wasSkipped
      wasLocked, r.Ok :=
  upsert_ok (fun _ _ => ⟨hlocked, hselected, hhints⟩) h

theorem patchNavigationState_ok {isVisited isFlagged wasSkipped : Option Bool}
    (h : ∀ r ∈ responses, r.Ok) :
    ∀ r ∈ patchNavigationState responses questionId isVisited isFlagged wasSkipped, r.Ok :=
  upsert_ok (fun _ hr => ⟨hr.locked, hr.selected, hr.hints⟩) h

variable (questionId) in
theorem getResponse_ok (h : ∀ r ∈ responses, r.Ok) :
    ∀ r ∈ getResponse responses questionId, r.Ok :=
  fun _ hr => h _ (List.mem_of_find?_eq_some hr)

/-- One response for a question of the quiz, each of them sound. -/
structure ResponsesOk (questions : List (Question κ)) (responses : List (Response κ)) : Prop where
  nodup : (responses.map Response.questionId).Nodup
  known : ∀ q ∈ responses.map Response.questionId, q ∈ questions.map Question.questionId
  ok : ∀ r ∈ responses, r.Ok

theorem ResponsesOk.upsert (h : ResponsesOk questions responses)
    {f : Response κ → Response κ} (hid : ∀ r, (f r).questionId = r.questionId)
    (hquestion : questionId ∈ questions.map Question.questionId)
    (hok : ∀ r ∈ upsert responses questionId f, r.Ok) :
    ResponsesOk questions (upsert responses questionId f) where
  nodup := upsert_ids_nodup hid h.nodup
  known q hq := by
    rcases mem_upsert_ids hid hq with hold | rfl
    · exact h.known q hold
    · exact hquestion
  ok := hok

/-- A response written over with the same answer leaves what each question comes to. -/
theorem outcome_upsertResponse {selectedOption : Option CorrectOption} {isCorrect : Option Bool}
    {hintLevelReached : ℕ} {wasSkipped wasLocked : Bool}
    (hsame : outcome
      (some { questionId := questionId, selectedOption := selectedOption,
              isCorrect := isCorrect }) =
        outcome (getResponse responses questionId)) (q : κ) :
    outcome (getResponse (upsertResponse responses questionId selectedOption isCorrect
      hintLevelReached wasSkipped wasLocked) q) = outcome (getResponse responses q) := by
  rw [upsertResponse]
  by_cases hq : q = questionId
  · subst hq
    rw [← hsame, getResponse_upsert_self]
    · rfl
    · exact fun _ => rfl
  · rw [getResponse_upsert_of_ne _ hq]
    exact fun _ => rfl

/-- Finalising a question leaves what each question comes to. -/
theorem finalizeSkippedResponse_spec (h : ResponsesOk questions responses) {question : Question κ}
    (hquestion : question.questionId ∈ questions.map Question.questionId) :
    ResponsesOk questions (finalizeSkippedResponse responses question) ∧
      ∀ q, outcome (getResponse (finalizeSkippedResponse responses question) q) =
        outcome (getResponse responses q) := by
  have hok := getResponse_ok question.questionId h.ok
  rw [finalizeSkippedResponse]
  cases hr : getResponse responses question.questionId with
  | none =>
    dsimp only
    split_ifs
    · exact ⟨h, fun _ => rfl⟩
    · refine ⟨h.upsert (fun _ => rfl) hquestion
        (upsertResponse_ok h.ok (by simp) (by simp) (by simp)), outcome_upsertResponse ?_⟩
      rw [hr]
      simp [outcome]
  | some r =>
    dsimp only
    split_ifs
    · exact ⟨h, fun _ => rfl⟩
    · have hrok := hok r hr
      refine ⟨h.upsert (fun _ => rfl) hquestion
        (upsertResponse_ok h.ok hrok.locked hrok.selected hrok.hints), outcome_upsertResponse ?_⟩
      rw [hr]
      rfl

theorem finalizeSkippedResponses_spec {active : List (Question κ)}
    (hactive : ∀ question ∈ active, question.questionId ∈ questions.map Question.questionId)
    (h : ResponsesOk questions responses) :
    ResponsesOk questions (finalizeSkippedResponses active responses) ∧
      ∀ q, outcome (getResponse (finalizeSkippedResponses active responses) q) =
        outcome (getResponse responses q) := by
  induction active generalizing responses with
  | nil => exact ⟨h, fun _ => rfl⟩
  | cons question active ih =>
    obtain ⟨hstep, houtcome⟩ := finalizeSkippedResponse_spec h
      (hactive question List.mem_cons_self)
    obtain ⟨hrest, hsame⟩ := ih (fun q hq => hactive q (List.mem_cons_of_mem _ hq)) hstep
    exact ⟨hrest, fun q => (hsame q).trans (houtcome q)⟩

/-- **The correct answers of an attempt**, question by question. -/
theorem totalCorrect_eq (hquestions : (questions.map Question.questionId).Nodup)
    (h : ResponsesOk questions responses) :
    (totalsOf questions responses).totalCorrect =
      questions.countP fun q => outcome (getResponse responses q.questionId) = .correct := by
  have hfind : ∀ r ∈ responses, getResponse responses r.questionId = some r := by
    intro r hr
    obtain ⟨r', hr'⟩ := Option.isSome_iff_exists.1
      (isSome_getResponse_iff.2 (List.mem_map_of_mem hr))
    have hsame := List.inj_on_of_nodup_map h.nodup (List.mem_of_find?_eq_some hr') hr
      (questionId_of_getResponse hr')
    rw [hr', hsame]
  have hperm : ((responses.filter fun r => r.isCorrect = some true).map Response.questionId).Perm
      ((questions.filter fun q => outcome (getResponse responses q.questionId) = .correct).map
        Question.questionId) := by
    refine (List.perm_ext_iff_of_nodup (h.nodup.sublist (List.filter_sublist.map _))
      (hquestions.sublist (List.filter_sublist.map _))).2 fun id => ?_
    simp only [List.mem_map, List.mem_filter, decide_eq_true_eq]
    constructor
    · rintro ⟨r, ⟨hr, hcorrect⟩, rfl⟩
      obtain ⟨q, hq, hid⟩ := List.mem_map.1 (h.known _ (List.mem_map_of_mem hr))
      refine ⟨q, ⟨hq, ?_⟩, hid⟩
      rw [hid, hfind r hr, outcome]
      simp [hcorrect]
    · rintro ⟨q, ⟨-, hcorrect⟩, rfl⟩
      cases hr : getResponse responses q.questionId with
      | none =>
        rw [hr] at hcorrect
        cases hcorrect
      | some r =>
        refine ⟨r, ⟨List.mem_of_find?_eq_some hr, ?_⟩, questionId_of_getResponse hr⟩
        rw [hr, outcome] at hcorrect
        by_contra hno
        rw [if_neg hno] at hcorrect
        split_ifs at hcorrect
  show responses.countP _ = _
  rw [List.countP_eq_length_filter, List.countP_eq_length_filter]
  simpa using hperm.length_eq

end Invariant

/-! ## Runs -/

section Runs

variable [DecidableEq κ] {s s' : Attempt κ}

/-- Questions have ids of their own, and responses are sound. -/
structure Attempt.Ok (s : Attempt κ) : Prop where
  nodup : (s.questions.map Question.questionId).Nodup
  responses : ResponsesOk s.questions s.responses

omit [DecidableEq κ] in
theorem Attempt.Fresh.ok (h : s.Fresh) : s.Ok where
  nodup := h.1
  responses := by
    rw [h.2.2]
    exact ⟨List.nodup_nil, by simp, by simp⟩

theorem mem_ids_of_activeQuestion {questions : List (Question κ)} {questionId : κ}
    (h : ¬ (activeQuestion questions questionId).isNone = true) :
    questionId ∈ questions.map Question.questionId := by
  rw [Option.isNone_iff_eq_none, ← ne_eq, Option.ne_none_iff_exists'] at h
  obtain ⟨q, hq⟩ := h
  have hid : q.questionId = questionId ∧ q.isActive = true := by simpa using List.find?_some hq
  exact List.mem_map.2 ⟨q, List.mem_of_find?_eq_some hq, hid.1⟩

theorem submitResponse_ok {questionId : κ} {selectedOption : Option CorrectOption} (h : s.Ok)
    (hstep : submitResponse s questionId selectedOption = some s') : s'.Ok := by
  unfold submitResponse at hstep
  split_ifs at hstep
  split at hstep
  next option question hquestion =>
    have hid : question.questionId = questionId := by simpa using List.find?_some hquestion
    have hmem : questionId ∈ s.questions.map Question.questionId :=
      List.mem_map.2 ⟨question, List.mem_of_find?_eq_some hquestion, hid⟩
    have hhints :
        ((getResponse s.responses questionId).map Response.hintLevelReached).getD 0 ≤ 3 := by
      cases hr : getResponse s.responses questionId with
      | none => simp
      | some r => exact (getResponse_ok _ h.responses.ok r hr).hints
    have hwrite : ∀ isCorrect : Bool, ∀ hintLevel ≤ 3, ResponsesOk s.questions
        (upsertResponse s.responses questionId (some option) (some isCorrect) hintLevel false
          isCorrect) := by
      intro isCorrect hintLevel hhint
      refine h.responses.upsert ?_ hmem (upsertResponse_ok h.responses.ok ?_ ?_ hhint)
      · exact fun _ => rfl
      · simp
      · simp
    dsimp only at hstep
    split_ifs at hstep
    · cases hstep
      exact ⟨h.nodup, hwrite _ _ hhints⟩
    · cases hstep
      exact ⟨h.nodup, hwrite _ _ (min_le_right _ _)⟩
  · cases hstep

theorem patchAttemptState_ok {questionId : κ} {isVisited isFlagged wasSkipped : Option Bool}
    {resumeQuestionId : Option κ} (h : s.Ok)
    (hstep : patchAttemptState s questionId isVisited isFlagged wasSkipped resumeQuestionId =
      some s') : s'.Ok := by
  rw [patchAttemptState] at hstep
  split_ifs at hstep with hstatus hactive
  cases hstep
  refine ⟨h.nodup, h.responses.upsert ?_ (mem_ids_of_activeQuestion hactive)
    (patchNavigationState_ok h.responses.ok)⟩
  exact fun _ => rfl

omit [DecidableEq κ] in
theorem mem_ids_of_mem_active {question : Question κ} (h : question ∈ activeQuestions s.questions) :
    question.questionId ∈ s.questions.map Question.questionId :=
  List.mem_map_of_mem (List.mem_filter.1 h).1

theorem submitAttempt_ok (h : s.Ok) (hstep : submitAttempt s = some s') : s'.Ok := by
  rw [submitAttempt] at hstep
  split_ifs at hstep
  cases hstep
  exact ⟨h.nodup, (finalizeSkippedResponses_spec (fun _ => mem_ids_of_mem_active) h.responses).1⟩

theorem editQuestion_ok {questionId : κ} {f : Question κ → Question κ}
    (hf : ∀ q, (f q).questionId = q.questionId) (h : s.Ok)
    (hstep : editQuestion s questionId f = some s') : s'.Ok := by
  rw [editQuestion] at hstep
  split_ifs at hstep
  cases hstep
  have hids : (s.questions.map fun q => if q.questionId = questionId then f q else q).map
      Question.questionId = s.questions.map Question.questionId := by
    rw [List.map_map]
    refine List.map_congr_left fun q _ => ?_
    by_cases hq : q.questionId = questionId
    · simp [hq, hf]
    · simp [hq]
  refine ⟨by rw [hids]; exact h.nodup, h.responses.nodup, ?_, h.responses.ok⟩
  rw [hids]
  exact h.responses.known

theorem createQuestion_ok {question : Question κ} (h : s.Ok)
    (hstep : createQuestion s question = some s') : s'.Ok := by
  rw [createQuestion] at hstep
  split_ifs at hstep with hpublished hfresh
  cases hstep
  have hnew : question.questionId ∉ s.questions.map Question.questionId := by simpa using hfresh
  refine ⟨?_, h.responses.nodup, fun q hq => ?_, h.responses.ok⟩
  · rw [List.map_append]
    refine List.nodup_append.2 ⟨h.nodup, List.nodup_singleton _, fun q hq q' hq' => ?_⟩
    rintro rfl
    rw [List.map_singleton, List.mem_singleton] at hq'
    exact hnew (hq' ▸ hq)
  · rw [List.map_append]
    exact List.mem_append_left _ (h.responses.known q hq)

/-- **Responses stay sound** whatever is done. -/
theorem attemptStep_ok {a : AttemptAction κ} (h : s.Ok) (hstep : attemptStep s a = some s') :
    s'.Ok := by
  cases a with
  | submitResponse => exact submitResponse_ok h hstep
  | patchAttemptState => exact patchAttemptState_ok h hstep
  | submitAttempt => exact submitAttempt_ok h hstep
  | publishQuiz =>
    rw [attemptStep] at hstep
    split_ifs at hstep
    cases hstep
    exact ⟨h.nodup, h.responses⟩
  | unpublishQuiz =>
    rw [attemptStep] at hstep
    split_ifs at hstep
    cases hstep
    exact ⟨h.nodup, h.responses⟩
  | supersedeQuiz =>
    cases hstep
    exact ⟨h.nodup, h.responses⟩
  | createQuestion => exact createQuestion_ok h hstep
  | updateQuestion questionId correctOption =>
    rw [attemptStep, updateQuestion] at hstep
    refine editQuestion_ok ?_ h hstep
    exact fun _ => rfl
  | deleteQuestion questionId =>
    rw [attemptStep, deleteQuestion] at hstep
    refine editQuestion_ok ?_ h hstep
    exact fun _ => rfl

/-- The states of an attempt after any actions. -/
abbrev AttemptReached : Attempt κ → Prop :=
  Runs.Reachable attemptStep (fun _ _ => True) Attempt.Fresh

theorem AttemptReached.ok (h : AttemptReached s) : s.Ok :=
  h.invariant (fun _ => Attempt.Fresh.ok) fun _ _ _ hok _ hstep => attemptStep_ok hok hstep

/-! ## Submitted scores -/

/-- The totals of a submission fit the active questions. -/
def Attempt.WellFormed (s : Attempt κ) : Prop :=
  ∃ totals ∈ s.totals, 0 ≤ totals.score ∧ totals.score ≤ 1 ∧
    totals.totalCorrect ≤ (activeQuestions s.questions).length ∧
    totals.totalCorrect + totals.totalSkipped ≤ (activeQuestions s.questions).length

/-- Removed questions that have been answered correctly. -/
def correctRemoved (s : Attempt κ) : ℕ :=
  s.questions.countP fun q =>
    !q.isActive && (outcome (getResponse s.responses q.questionId) = .correct : Bool)

/-- Active questions with a wrong answer. -/
def wrongActive (s : Attempt κ) : ℕ :=
  s.questions.countP fun q =>
    q.isActive && (outcome (getResponse s.responses q.questionId) = .wrong : Bool)

/-- Every active question is correct, skipped or wrong. -/
theorem countP_outcomes {α : Type} (l : List α) (active : α → Bool) (o : α → Outcome) :
    l.countP (fun q => o q = .correct) + l.countP (fun q => active q && (o q = .skipped : Bool)) +
        l.countP (fun q => active q && (o q = .wrong : Bool)) =
      l.countP active + l.countP (fun q => !active q && (o q = .correct : Bool)) := by
  induction l with
  | nil => rfl
  | cons q l ih =>
    simp only [List.countP_cons]
    cases active q <;> cases o q <;> simp <;> omega

theorem countSkippedAtSubmit_eq (questions : List (Question κ)) {responses : List (Response κ)}
    (h : ∀ r ∈ responses, r.Ok) :
    countSkippedAtSubmit questions responses = questions.countP fun q =>
      q.isActive && (outcome (getResponse responses q.questionId) = .skipped : Bool) := by
  rw [countSkippedAtSubmit, activeQuestions, List.countP_filter]
  refine List.countP_congr fun q _ => ?_
  simp [isQuestionSkippedAtSubmit_iff (getResponse_ok _ h)]
  tauto

theorem score_nonneg (questions : List (Question κ)) (responses : List (Response κ)) :
    0 ≤ (totalsOf questions responses).score := by
  rw [totalsOf]
  dsimp only
  split_ifs
  · exact div_nonneg (Nat.cast_nonneg _) (Nat.cast_nonneg _)
  · exact le_rfl

/-- A score is at most 1 once no more answers are correct than questions are active. -/
theorem score_le_one {questions : List (Question κ)} {responses : List (Response κ)}
    (h : (totalsOf questions responses).totalCorrect ≤ (activeQuestions questions).length) :
    (totalsOf questions responses).score ≤ 1 := by
  rw [totalsOf] at h ⊢
  dsimp only at h ⊢
  split_ifs
  · exact div_le_one_of_le₀ (Nat.cast_le.2 h) (Nat.cast_nonneg _)
  · exact zero_le_one

/-- **A submission is well formed** exactly when the correct answers on removed questions are no
more than the wrong ones on active questions. -/
theorem submission_wellFormed_iff (hs : AttemptReached s)
    (hstep : attemptStep s .submitAttempt = some s') :
    s'.WellFormed ↔ correctRemoved s ≤ wrongActive s := by
  have hok := hs.ok
  rw [attemptStep, submitAttempt] at hstep
  split_ifs at hstep
  cases hstep
  obtain ⟨hafter, hsame⟩ :=
    finalizeSkippedResponses_spec (fun _ => mem_ids_of_mem_active) hok.responses
  have hcorrect := totalCorrect_eq hok.nodup hafter
  have hskipped := countSkippedAtSubmit_eq s.questions hafter.ok
  simp only [hsame] at hcorrect hskipped
  have hactive : (activeQuestions s.questions).length = s.questions.countP Question.isActive :=
    List.countP_eq_length_filter.symm
  have hcount := countP_outcomes s.questions Question.isActive
    fun q => outcome (getResponse s.responses q.questionId)
  have hiff : (totalsOf s.questions (finalizeSkippedResponses (activeQuestions s.questions)
      s.responses)).totalCorrect + countSkippedAtSubmit s.questions
        (finalizeSkippedResponses (activeQuestions s.questions) s.responses) ≤
          (activeQuestions s.questions).length ↔ correctRemoved s ≤ wrongActive s := by
    rw [hcorrect, hskipped, hactive, correctRemoved, wrongActive]
    omega
  constructor
  · rintro ⟨totals, htotals, -, -, -, hsum⟩
    cases htotals
    exact hiff.1 hsum
  · intro h
    have hsum := hiff.2 h
    have hle := (Nat.le_add_right _ _).trans hsum
    exact ⟨_, rfl, score_nonneg _ _, score_le_one hle, hle, hsum⟩

end Runs

/-- An attempt just started on a quiz of two questions. -/
def newAttempt : Attempt ℕ where
  questions := [{ questionId := 1, correctOption := .a }, { questionId := 2, correctOption := .b }]
  isPublished := true
  status := .inProgress
  responses := []
  resumeQuestionId := none
  totals := none

theorem newAttempt_fresh : newAttempt.Fresh := ⟨by decide, rfl, rfl⟩

/-- An answer on a removed question that is made up for by a wrong one. -/
theorem submission_after_removal :
    ∃ s s', Runs.run attemptStep newAttempt [.submitResponse 1 (some .a),
      .submitResponse 2 (some .a),
        .unpublishQuiz, .deleteQuestion 1] = some s ∧
      attemptStep s .submitAttempt = some s' ∧ s'.WellFormed := by
  have hreached : Runs.run attemptStep newAttempt [.submitResponse 1 (some .a),
    .submitResponse 2 (some .a), .unpublishQuiz, .deleteQuestion 1] = some _ := rfl
  exact ⟨_, _, hreached, rfl, (submission_wellFormed_iff
    (Runs.reachable_of_run newAttempt_fresh hreached) rfl).2 (by decide)⟩

/-- Two correct answers on one active question. -/
theorem submission_over_full_score :
    ¬ ∀ s s' : Attempt ℕ, AttemptReached s → attemptStep s .submitAttempt = some s' →
      s'.WellFormed := by
  intro h
  have hreached : Runs.run attemptStep newAttempt [.submitResponse 1 (some .a),
    .submitResponse 2 (some .b), .unpublishQuiz, .deleteQuestion 1] = some _ := rfl
  obtain ⟨totals, htotals, -, -, hcorrect, -⟩ :=
    h _ _ (Runs.reachable_of_run newAttempt_fresh hreached) rfl
  cases htotals
  exact absurd hcorrect (by decide)

end StudyAgent.Progress
