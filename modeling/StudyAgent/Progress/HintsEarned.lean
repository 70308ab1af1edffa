import StudyAgent.Progress.AnswerKey

/-!
# Hints are reached by wrong answers

Whatever the trainees ask and the mentors write, the hints that an attempt has reached on a
question are as many as the wrong answers that its trainee has been told of, up to three.

Main results:

* `attempts_onAttempt` — a request on an attempt changes that attempt alone.
* `hints_exact` — **the hints that are reached are the wrong answers**, in every run.
-/

namespace StudyAgent.Progress.AnswerKey

open Unwinding

variable {κ : Type}

section WrongAnswers

variable [DecidableEq κ]

/-- A wrong answer to a question, in an attempt. -/
def Entry.isWrongAnswer (attemptId questionId : κ) (e : Entry κ) : Bool :=
  match e.request, e.answer with
  | .submitResponse a q _, .response out => a = attemptId && q = questionId && !out.isCorrect
  | _, _ => false

/-- The wrong answers to a question, in an attempt. -/
def wrongAnswers (log : List (Entry κ)) (attemptId questionId : κ) : ℕ :=
  log.countP (Entry.isWrongAnswer attemptId questionId)

end WrongAnswers

/-! ## Hints -/

section Hints

variable [DecidableEq κ] {responses : List (Response κ)} {questionId : κ}

/-- `hint_level_reached` for a question. -/
def hintLevel (responses : List (Response κ)) (questionId : κ) : ℕ :=
  ((getResponse responses questionId).map Response.hintLevelReached).getD 0

theorem hintLevel_upsert {f : Response κ → Response κ}
    (hf : ∀ r, (f r).questionId = r.questionId) (q : κ) :
    hintLevel (upsert responses questionId f) q =
      if q = questionId then
        (f ((getResponse responses questionId).getD { questionId := questionId })).hintLevelReached
      else hintLevel responses q := by
  split_ifs with hq
  · subst hq
    rw [hintLevel, getResponse_upsert_self hf]
    rfl
  · rw [hintLevel, getResponse_upsert_of_ne hf hq]
    rfl

theorem hintLevel_upsertResponse {selectedOption : Option CorrectOption} {isCorrect : Option Bool}
    {level : ℕ} {wasSkipped wasLocked : Bool} (q : κ) :
    hintLevel (upsertResponse responses questionId selectedOption isCorrect level wasSkipped
      wasLocked) q = if q = questionId then level else hintLevel responses q := by
  rw [upsertResponse, hintLevel_upsert]
  exact fun _ => rfl

theorem hintLevel_patchNavigationState {isVisited isFlagged wasSkipped : Option Bool} (q : κ) :
    hintLevel (patchNavigationState responses questionId isVisited isFlagged wasSkipped) q =
      hintLevel responses q := by
  rw [patchNavigationState, hintLevel_upsert]
  · by_cases hq : q = questionId
    · subst hq
      cases h : getResponse responses q <;> simp [hintLevel, h]
    · rw [if_neg hq]
  · exact fun _ => rfl

theorem hintLevel_finalizeSkippedResponse {question : Question κ} (q : κ) :
    hintLevel (finalizeSkippedResponse responses question) q = hintLevel responses q := by
  rw [finalizeSkippedResponse]
  cases h : getResponse responses question.questionId with
  | none =>
    dsimp only
    split_ifs
    · rfl
    · rw [hintLevel_upsertResponse]
      split_ifs with hq
      · simp [hintLevel, hq, h]
      · rfl
  | some r =>
    dsimp only
    split_ifs
    · rfl
    · rw [hintLevel_upsertResponse]
      split_ifs with hq
      · simp [hintLevel, hq, h]
      · rfl

theorem hintLevel_finalizeSkippedResponses (active : List (Question κ)) (q : κ) :
    hintLevel (finalizeSkippedResponses active responses) q = hintLevel responses q := by
  induction active generalizing responses with
  | nil => rfl
  | cons question active ih =>
    rw [finalizeSkippedResponses, List.foldl_cons]
    exact ih.trans (hintLevel_finalizeSkippedResponse q)

end Hints

/-! ## What a request does to an attempt -/

section Effects

variable [DecidableEq κ]

/-- What a request does with an attempt. -/
abbrev Handler (κ : Type) := AttemptRow κ → Except (Refusal κ) (AttemptRow κ × Answer κ)

/-- What becomes of an attempt. -/
def outcomeOf (f : Handler κ) (a : AttemptRow κ) : AttemptRow κ :=
  match f a with
  | .error _ => a
  | .ok (a', _) => a'

/-- What the request is answered. -/
def answerOf (f : Handler κ) (a : AttemptRow κ) : Answer κ :=
  match f a with
  | .error refusal => .refused refusal
  | .ok (_, answer) => answer

/-- The columns of an attempt that no answer is kept in. -/
def AttemptRow.identity (a : AttemptRow κ) : κ × κ × κ × κ × AttemptStatus :=
  (a.attemptId, a.quizId, a.nodeId, a.traineeId, a.status)

variable {o : Outside κ} {newlyUnlocked : AttemptRow κ → List κ}
  {secrets secrets' : κ → Secret} {content : Content κ} {db : Database κ}
  {attemptId questionId userId : κ} {f : Handler κ} {a a' : AttemptRow κ}

omit [DecidableEq κ] in
/-- A request is refused by its checks, or does what comes behind them. -/
theorem handled {X : Type} {check : Except (Refusal κ) X} {record : X → AttemptRow κ × Answer κ}
    (h : f a = check.map record) :
    (∃ refusal, check = .error refusal ∧ outcomeOf f a = a ∧ answerOf f a = .refused refusal) ∨
      ∃ x, check = .ok x ∧ outcomeOf f a = (record x).1 ∧ answerOf f a = (record x).2 := by
  cases hcheck : check with
  | error refusal =>
    left
    rw [hcheck] at h
    refine ⟨refusal, rfl, ?_, ?_⟩
    · rw [outcomeOf, h]
      rfl
    · rw [answerOf, h]
      rfl
  | ok x =>
    right
    rw [hcheck] at h
    refine ⟨x, rfl, ?_, ?_⟩
    · rw [outcomeOf, h]
      rfl
    · rw [answerOf, h]
      rfl

theorem patchAttempt_eq (hasAccess : Bool) (patch : StatePatch κ) (a : AttemptRow κ) :
    patchAttempt content hasAccess patch a =
      (checkPatch content hasAccess patch a).map fun question =>
        ((recordPatch patch question a).1, .state (recordPatch patch question a).2) := by
  rw [patchAttempt]
  cases checkPatch content hasAccess patch a <;> rfl

theorem answerQuestion_eq (selectedOption : Option CorrectOption) (a : AttemptRow κ) :
    answerQuestion secrets content questionId selectedOption a =
      (checkAnswer content questionId selectedOption a).map fun x =>
        ((recordAnswer (secrets x.2.questionId) content questionId x.1 a).1,
          .response (recordAnswer (secrets x.2.questionId) content questionId x.1 a).2) := by
  rw [answerQuestion]
  cases checkAnswer content questionId selectedOption a <;> rfl

theorem finishAttempt_eq (now : ℕ) (a : AttemptRow κ) :
    finishAttempt secrets content now newlyUnlocked a =
      (assertOpen a).map fun _ => (recordSubmission secrets content now a,
        .submitted { (recordSubmission secrets content now a).out with
          newlyUnlockedNodeIds := newlyUnlocked (recordSubmission secrets content now a) }) := by
  rw [finishAttempt]
  cases assertOpen a <;> rfl

theorem showAttempt_eq (a : AttemptRow κ) :
    showAttempt o secrets db a =
      (checkShow db.content a).map fun quiz => (a, .quiz (buildTraineeQuizOut o secrets quiz a
        (db.content.getAllQuestionsByQuiz a.quizId)
        (db.getBestSubmittedScore a.quizId a.traineeId))) := by
  rw [showAttempt]
  cases checkShow db.content a <;> rfl

/-! ### Who an attempt is of, and whether it is open -/

theorem identity_patchAttempt (hasAccess : Bool) (patch : StatePatch κ) (a : AttemptRow κ) :
    (outcomeOf (patchAttempt content hasAccess patch) a).identity = a.identity := by
  obtain ⟨_, -, h, -⟩ | ⟨_, -, h, -⟩ := handled (patchAttempt_eq hasAccess patch a)
  · rw [h]
  · rw [h]
    rfl

theorem identity_answerQuestion (selectedOption : Option CorrectOption) (a : AttemptRow κ) :
    (outcomeOf (answerQuestion secrets content questionId selectedOption) a).identity =
      a.identity := by
  obtain ⟨_, -, h, -⟩ | ⟨_, -, h, -⟩ := handled (answerQuestion_eq selectedOption a)
  · rw [h]
  · rw [h]
    rfl

theorem outcomeOf_showAttempt (a : AttemptRow κ) : outcomeOf (showAttempt o secrets db) a = a := by
  obtain ⟨_, -, h, -⟩ | ⟨_, -, h, -⟩ := handled (showAttempt_eq a)
  · exact h
  · exact h

omit [DecidableEq κ] in
theorem assertOpen_eq_ok : assertOpen a = .ok () ↔ a.status = .inProgress := by
  rw [assertOpen]
  cases a.status <;> simp

theorem identity_finishAttempt (now : ℕ) (a : AttemptRow κ) :
    (outcomeOf (finishAttempt secrets content now newlyUnlocked) a).identity =
      (a.attemptId, a.quizId, a.nodeId, a.traineeId,
        if a.status = .inProgress then .submitted else a.status) := by
  obtain ⟨_, hcheck, h, -⟩ | ⟨_, hcheck, h, -⟩ := handled (finishAttempt_eq now a)
  · have hclosed : a.status ≠ .inProgress := by
      intro hopen
      rw [assertOpen_eq_ok.2 hopen] at hcheck
      cases hcheck
    rw [h, if_neg hclosed]
    rfl
  · rw [h, if_pos (assertOpen_eq_ok.1 hcheck)]
    rfl

/-! ### Hints -/

theorem hintLevel_patchAttempt (hasAccess : Bool) (patch : StatePatch κ) (a : AttemptRow κ)
    (q : κ) :
    hintLevel (outcomeOf (patchAttempt content hasAccess patch) a).responses q =
      hintLevel a.responses q := by
  obtain ⟨_, -, h, -⟩ | ⟨_, -, h, -⟩ := handled (patchAttempt_eq hasAccess patch a)
  · rw [h]
  · rw [h]
    exact hintLevel_patchNavigationState q

theorem hintLevel_finishAttempt (now : ℕ) (a : AttemptRow κ) (q : κ) :
    hintLevel (outcomeOf (finishAttempt secrets content now newlyUnlocked) a).responses q =
      hintLevel a.responses q := by
  obtain ⟨_, -, h, -⟩ | ⟨_, -, h, -⟩ := handled (finishAttempt_eq now a)
  · rw [h]
  · rw [h]
    exact hintLevel_finalizeSkippedResponses _ q

theorem hintLevel_recordAnswer (secret : Secret) (option : CorrectOption) (a : AttemptRow κ)
    (q : κ) :
    hintLevel (recordAnswer secret content questionId option a).1.responses q =
      if q = questionId then (recordAnswer secret content questionId option a).2.hintLevelReached
      else hintLevel a.responses q :=
  hintLevel_upsertResponse q

/-- A wrong answer reaches the next hint, while there is one. -/
theorem hintLevelReached_recordAnswer (secret : Secret) (option : CorrectOption)
    (a : AttemptRow κ) :
    (recordAnswer secret content questionId option a).2.hintLevelReached =
      if (recordAnswer secret content questionId option a).2.isCorrect then
        hintLevel a.responses questionId
      else min (hintLevel a.responses questionId + 1) 3 := rfl

/-- A hint is reached by a wrong answer. -/
theorem hintLevel_answerQuestion (selectedOption : Option CorrectOption) (version : ℕ)
    (a : AttemptRow κ) (q : κ) {count : ℕ} (hcount : hintLevel a.responses q = min count 3) :
    hintLevel (outcomeOf (answerQuestion secrets content questionId selectedOption) a).responses q =
      min (count + if Entry.isWrongAnswer a.attemptId q ⟨userId, version,
        .submitResponse a.attemptId questionId selectedOption,
        answerOf (answerQuestion secrets content questionId selectedOption) a⟩ then 1 else 0) 3 :=
    by
  obtain ⟨refusal, -, h, hanswer⟩ | ⟨⟨option, question⟩, -, h, hanswer⟩ :=
    handled (answerQuestion_eq selectedOption a)
  · rw [h, hanswer]
    exact hcount
  · rw [h, hanswer]
    dsimp only
    rw [hintLevel_recordAnswer]
    by_cases hq : q = questionId
    · subst hq
      rw [if_pos rfl, hintLevelReached_recordAnswer, hcount]
      cases hcorrect : (recordAnswer (secrets question.questionId) content q option
        a).2.isCorrect with
      | true => simp [Entry.isWrongAnswer, hcorrect]
      | false =>
        simp [Entry.isWrongAnswer, hcorrect]
        omega
    · rw [if_neg hq, hcount]
      simp [Entry.isWrongAnswer, Ne.symm hq]

end Effects

/-! ## Every run -/

/-- Attempts have ids of their own, wrong answers are given in attempts, and reach the hints. -/
structure Ledger.Sound [DecidableEq κ] (l : Ledger κ) : Prop where
  nodup : (l.db.attempts.map AttemptRow.attemptId).Nodup
  known : ∀ id ∉ l.db.attempts.map AttemptRow.attemptId, ∀ q, wrongAnswers l.log id q = 0
  hints : ∀ a ∈ l.db.attempts, ∀ q,
    hintLevel a.responses q = min (wrongAnswers l.log a.attemptId q) 3

section Sound

variable [DecidableEq κ] {o : Outside κ} {db : Database κ} {attemptId userId : κ} {f : Handler κ}

theorem wrongAnswers_concat (log : List (Entry κ)) (e : Entry κ) (attemptId questionId : κ) :
    wrongAnswers (log ++ [e]) attemptId questionId =
      wrongAnswers log attemptId questionId +
        if e.isWrongAnswer attemptId questionId then 1 else 0 := by
  rw [wrongAnswers, List.countP_append, List.countP_singleton]
  rfl

omit [DecidableEq κ] in
theorem eq_of_attemptId {attempts : List (AttemptRow κ)} {a b : AttemptRow κ}
    (hnodup : (attempts.map AttemptRow.attemptId).Nodup) (ha : a ∈ attempts) (hb : b ∈ attempts)
    (h : a.attemptId = b.attemptId) : a = b :=
  List.inj_on_of_nodup_map hnodup ha hb h

theorem getAttemptById_eq_some {a : AttemptRow κ} (h : db.getAttemptById attemptId = some a) :
    a ∈ db.attempts ∧ a.attemptId = attemptId :=
  ⟨List.mem_of_find?_eq_some h, by simpa using List.find?_some h⟩

theorem getAttemptById_eq_none (h : db.getAttemptById attemptId = none) {a : AttemptRow κ}
    (ha : a ∈ db.attempts) : a.attemptId ≠ attemptId := by
  simpa using List.find?_eq_none.1 h a ha

/-- **A request on an attempt** changes that attempt alone, and only for its trainee. -/
theorem attempts_onAttempt (hnodup : (db.attempts.map AttemptRow.attemptId).Nodup)
    (hids : ∀ a, (outcomeOf f a).attemptId = a.attemptId) :
    (onAttempt db attemptId userId f).1.attempts = db.attempts.map fun a =>
      if a.attemptId = attemptId ∧ a.traineeId = userId then outcomeOf f a else a := by
  cases hfind : db.getAttemptById attemptId with
  | none =>
    have hother : ∀ a ∈ db.attempts, (if a.attemptId = attemptId ∧ a.traineeId = userId then
        outcomeOf f a else a) = a := by
      intro a ha
      rw [if_neg]
      exact fun h => getAttemptById_eq_none hfind ha h.1
    rw [onAttempt, hfind, List.map_congr_left hother, List.map_id']
  | some a =>
    obtain ⟨ha, hid⟩ := getAttemptById_eq_some hfind
    have honly : ∀ b ∈ db.attempts, b.attemptId = attemptId → b = a := fun b hb h =>
      eq_of_attemptId hnodup hb ha (h.trans hid.symm)
    rw [onAttempt, hfind]
    dsimp only
    split_ifs with howner
    · have hother : ∀ b ∈ db.attempts, (if b.attemptId = attemptId ∧ b.traineeId = userId then
          outcomeOf f b else b) = b := by
        intro b hb
        rw [if_neg]
        rintro ⟨h, htrainee⟩
        exact howner (honly b hb h ▸ htrainee)
      rw [List.map_congr_left hother, List.map_id']
    · rw [not_not] at howner
      have hput : ∀ b ∈ db.attempts, (if b.attemptId = attemptId ∧ b.traineeId = userId then
          outcomeOf f b else b) =
            if b.attemptId = (outcomeOf f a).attemptId then outcomeOf f a else b := by
        intro b hb
        rw [hids, hid]
        by_cases h : b.attemptId = attemptId
        · rw [honly b hb h, hid, howner]
          simp
        · rw [if_neg (fun hboth => h hboth.1), if_neg h]
      rw [List.map_congr_left hput]
      cases hf : f a with
      | error refusal =>
        have hsame : outcomeOf f a = a := by rw [outcomeOf, hf]
        rw [hsame]
        have hself : ∀ b ∈ db.attempts, (if b.attemptId = a.attemptId then a else b) = b := by
          intro b hb
          split_ifs with h
          · exact (honly b hb (h.trans hid)).symm
          · rfl
        rw [List.map_congr_left hself, List.map_id']
      | ok result =>
        obtain ⟨a', answer⟩ := result
        have hresult : outcomeOf f a = a' := by rw [outcomeOf, hf]
        rw [hresult]
        rfl

/-- What the trainee of the attempt is answered. -/
theorem answer_onAttempt {a : AttemptRow κ} (hnodup : (db.attempts.map AttemptRow.attemptId).Nodup)
    (ha : a ∈ db.attempts) :
    (onAttempt db a.attemptId a.traineeId f).2 = answerOf f a := by
  cases hfind : db.getAttemptById a.attemptId with
  | none => exact absurd rfl (getAttemptById_eq_none hfind ha)
  | some b =>
    obtain ⟨hb, hid⟩ := getAttemptById_eq_some hfind
    have hsame := eq_of_attemptId hnodup hb ha hid
    subst hsame
    rw [onAttempt, hfind]
    cases hf : f b with
    | error refusal => simp [answerOf, hf]
    | ok result => simp [answerOf, hf]

theorem onAttempt_content (db : Database κ) (attemptId userId : κ) (f : Handler κ) :
    (onAttempt db attemptId userId f).1.content = db.content ∧
      (onAttempt db attemptId userId f).1.version = db.version ∧
      (onAttempt db attemptId userId f).1.now = db.now := by
  rw [onAttempt]
  split
  · exact ⟨rfl, rfl, rfl⟩
  · split_ifs
    · exact ⟨rfl, rfl, rfl⟩
    · split <;> exact ⟨rfl, rfl, rfl⟩

/-- The ledger behind a request. -/
def Ledger.record (l : Ledger κ) (caller : Caller κ) (request : Request κ)
    (result : Database κ × Answer κ) : Ledger κ :=
  ⟨{ result.1 with now := result.1.now + 1 },
    l.log ++ [⟨caller.userId, result.1.version, request, result.2⟩]⟩

theorem ids_onAttempt (hnodup : (db.attempts.map AttemptRow.attemptId).Nodup)
    (hids : ∀ a, (outcomeOf f a).attemptId = a.attemptId) :
    (onAttempt db attemptId userId f).1.attempts.map AttemptRow.attemptId =
      db.attempts.map AttemptRow.attemptId := by
  rw [attempts_onAttempt hnodup hids, List.map_map]
  refine List.map_congr_left fun a _ => ?_
  rw [Function.comp_apply]
  split_ifs
  · exact hids a
  · rfl

/-- A wrong answer is given by the trainee of the attempt. -/
theorem asked_of_isWrongAnswer {version : ℕ} {id q : κ} {request : Request κ}
    (hrequest : ∀ a p option, request = .submitResponse a p option → a = attemptId)
    (h : Entry.isWrongAnswer id q
      ⟨userId, version, request, (onAttempt db attemptId userId f).2⟩ = true) :
    id = attemptId ∧ ∃ a ∈ db.attempts, a.attemptId = attemptId ∧ a.traineeId = userId := by
  unfold Entry.isWrongAnswer at h
  split at h
  · rename_i a p option out hask hanswer
    rw [Bool.and_eq_true, Bool.and_eq_true, decide_eq_true_eq] at h
    refine ⟨h.1.1.symm.trans (hrequest a p option hask), ?_⟩
    cases hfind : db.getAttemptById attemptId with
    | none =>
      simp only [onAttempt, hfind] at hanswer
      cases hanswer
    | some b =>
      obtain ⟨hb, hsame⟩ := getAttemptById_eq_some hfind
      by_cases howner : b.traineeId = userId
      · exact ⟨b, hb, hsame, howner⟩
      · simp only [onAttempt, hfind, ne_eq, howner, not_false_eq_true, if_true] at hanswer
        cases hanswer
  · cases h

theorem Ledger.Sound.onAttempt {l : Ledger κ} (h : l.Sound) {caller : Caller κ}
    {request : Request κ}
    (hrequest : ∀ a p option, request = .submitResponse a p option → a = attemptId)
    (hids : ∀ a, (outcomeOf f a).attemptId = a.attemptId)
    (hhints : ∀ a : AttemptRow κ, a.attemptId = attemptId → ∀ q count,
      hintLevel a.responses q = min count 3 → hintLevel (outcomeOf f a).responses q =
        min (count + if Entry.isWrongAnswer a.attemptId q ⟨caller.userId, l.db.version, request,
          answerOf f a⟩ then 1 else 0) 3) :
    (l.record caller request (onAttempt l.db attemptId caller.userId f)).Sound where
  nodup := by
    show ((AnswerKey.onAttempt l.db attemptId caller.userId f).1.attempts.map
      AttemptRow.attemptId).Nodup
    rw [ids_onAttempt h.nodup hids]
    exact h.nodup
  known id hid q := by
    change id ∉ (AnswerKey.onAttempt l.db attemptId caller.userId f).1.attempts.map
      AttemptRow.attemptId at hid
    rw [ids_onAttempt h.nodup hids] at hid
    show wrongAnswers (l.log ++ [_]) id q = 0
    rw [wrongAnswers_concat, h.known id hid q, if_neg]
    intro hwrong
    obtain ⟨rfl, a, ha, hsame, -⟩ := asked_of_isWrongAnswer hrequest hwrong
    exact hid (List.mem_map.2 ⟨a, ha, hsame⟩)
  hints b hb q := by
    change b ∈ (AnswerKey.onAttempt l.db attemptId caller.userId f).1.attempts at hb
    rw [attempts_onAttempt h.nodup hids] at hb
    obtain ⟨a, ha, rfl⟩ := List.mem_map.1 hb
    show _ = min (wrongAnswers (l.log ++ [_]) _ q) 3
    rw [wrongAnswers_concat]
    by_cases hown : a.attemptId = attemptId ∧ a.traineeId = caller.userId
    · have hanswer := answer_onAttempt (f := f) h.nodup ha
      rw [hown.1, hown.2] at hanswer
      rw [if_pos hown, hids, hanswer, (onAttempt_content _ _ _ _).2.1]
      exact hhints a hown.1 q _ (h.hints a ha q)
    · rw [if_neg hown, if_neg]
      · exact h.hints a ha q
      · intro hwrong
        obtain ⟨hid, b, hb, hsame, howner⟩ := asked_of_isWrongAnswer hrequest hwrong
        have hab := eq_of_attemptId h.nodup ha hb (hid.trans hsame.symm)
        exact hown ⟨hid, hab ▸ howner⟩

omit [DecidableEq κ] in
theorem attemptId_of_identity {a b : AttemptRow κ} (h : a.identity = b.identity) :
    a.attemptId = b.attemptId := congrArg Prod.fst h

/-- Nothing but wrong answers reaches hints. -/
theorem Ledger.Sound.of_attempts {l : Ledger κ} (h : l.Sound) {db : Database κ}
    {entries : List (Entry κ)} {g : AttemptRow κ → AttemptRow κ}
    (hentries : ∀ e ∈ entries, ∀ id q, e.isWrongAnswer id q = false)
    (hdb : db.attempts = l.db.attempts.map g) (hids : ∀ a, (g a).attemptId = a.attemptId)
    (hresponses : ∀ a, (g a).responses = a.responses) :
    (⟨db, l.log ++ entries⟩ : Ledger κ).Sound := by
  have hsame : db.attempts.map AttemptRow.attemptId = l.db.attempts.map AttemptRow.attemptId := by
    have hmap : AttemptRow.attemptId ∘ g = AttemptRow.attemptId := funext hids
    rw [hdb, List.map_map, hmap]
  have hcount : ∀ id q, wrongAnswers (l.log ++ entries) id q = wrongAnswers l.log id q := by
    intro id q
    have hnone : entries.countP (Entry.isWrongAnswer id q) = 0 := by
      rw [List.countP_eq_zero]
      intro e he
      rw [hentries e he id q]
      exact Bool.false_ne_true
    rw [wrongAnswers, List.countP_append, hnone]
    rfl
  refine ⟨?_, fun id hid q => ?_, fun b hb q => ?_⟩
  · rw [hsame]
    exact h.nodup
  · rw [hsame] at hid
    rw [hcount]
    exact h.known id hid q
  · rw [hdb] at hb
    obtain ⟨a, ha, rfl⟩ := List.mem_map.1 hb
    rw [hcount, hids, hresponses]
    exact h.hints a ha q

/-- A request that is no answer, and changes nothing. -/
theorem Ledger.Sound.recorded {l : Ledger κ} (h : l.Sound) {caller : Caller κ}
    {request : Request κ} (hrequest : ∀ a p option, request ≠ .submitResponse a p option)
    (answer : Answer κ) : (l.record caller request (l.db, answer)).Sound := by
  refine h.of_attempts ?_ (List.map_id _).symm (fun _ => rfl) fun _ => rfl
  intro e he id q
  rw [List.mem_singleton] at he
  subst he
  unfold Entry.isWrongAnswer
  split
  · rename_i a p option _ hask _
    exact absurd hask (hrequest a p option)
  · rfl

theorem checkStart_fresh {caller : Caller κ} {nodeId quizId : κ} {quiz : QuizRow κ}
    (h : checkStart db caller nodeId quizId attemptId = .ok quiz) :
    ∀ a ∈ db.attempts, a.attemptId ≠ attemptId := by
  unfold checkStart at h
  split_ifs at h with _ _ _ hused
  · split at h
    · split_ifs at h
      split at h
      · cases h
      · cases h
      · split_ifs at h
    · cases h
  · simpa using hused

theorem Ledger.Sound.start {l : Ledger κ} (h : l.Sound) (secrets : κ → Secret)
    (caller : Caller κ) (nodeId quizId attemptId : κ) :
    (l.record caller (.startAttempt nodeId quizId attemptId)
      (startAttempt o secrets l.db caller nodeId quizId attemptId)).Sound := by
  rw [startAttempt]
  cases hcheck : checkStart l.db caller nodeId quizId attemptId with
  | error refusal => exact h.recorded (fun _ _ _ hask => by cases hask) _
  | ok quiz =>
    have hfresh : attemptId ∉ l.db.attempts.map AttemptRow.attemptId := by
      intro hmem
      obtain ⟨a, ha, hid⟩ := List.mem_map.1 hmem
      exact checkStart_fresh hcheck a ha hid
    refine ⟨?_, fun id hid q => ?_, fun a ha q => ?_⟩
    · show ((l.db.attempts ++ [_]).map AttemptRow.attemptId).Nodup
      rw [List.map_append, List.nodup_append]
      refine ⟨h.nodup, List.nodup_singleton _, fun x hx y hy => ?_⟩
      rw [List.map_singleton, List.mem_singleton] at hy
      rintro rfl
      subst hy
      exact hfresh hx
    · change id ∉ (l.db.attempts ++ [_]).map AttemptRow.attemptId at hid
      rw [List.map_append, List.mem_append, not_or] at hid
      show wrongAnswers (l.log ++ [_]) id q = 0
      rw [wrongAnswers_concat, h.known id hid.1]
      rfl
    · show _ = min (wrongAnswers (l.log ++ [_]) _ q) 3
      rw [wrongAnswers_concat]
      obtain ha | ha := List.mem_append.1 ha
      · exact h.hints a ha q
      · rw [List.mem_singleton] at ha
        subst ha
        show 0 = min (wrongAnswers l.log attemptId q + 0) 3
        rw [h.known attemptId hfresh]
        rfl

theorem service_request (key : Key κ) (l : Ledger κ) (caller : Caller κ) (request : Request κ) :
    (service o key).step l (.request caller request) =
      (l.record caller request (l.db.handle o (key l.db.version) caller request),
        (l.db.handle o (key l.db.version) caller request).2) := rfl

/-- **One event** keeps the hints reached by wrong answers. -/
theorem sound_step {key : Key κ} {l : Ledger κ} (h : l.Sound) (e : Event κ) :
    ((service o key).step l e).1.Sound := by
  cases e with
  | write content frozen =>
    have hstep : (⟨((service o key).step l (.write content frozen)).1.db,
        l.log ++ []⟩ : Ledger κ).Sound := by
      refine h.of_attempts (by simp) rfl (fun a => ?_) fun a => ?_ <;>
        (rw [AttemptRow.freeze]; split_ifs <;> rfl)
    rwa [List.append_nil] at hstep
  | request caller request =>
    rw [service_request]
    cases request with
    | startAttempt nodeId quizId attemptId => exact h.start _ caller nodeId quizId attemptId
    | patchAttemptState attemptId patch =>
      rw [Database.handle]
      split_ifs
      · exact h.recorded (fun _ _ _ hask => by cases hask) _
      · refine h.onAttempt (fun _ _ _ hask => by cases hask)
          (fun a => attemptId_of_identity (identity_patchAttempt _ patch a)) ?_
        intro a _ q count hcount
        rw [hintLevel_patchAttempt]
        exact hcount
    | submitResponse attemptId questionId selectedOption =>
      refine h.onAttempt (fun _ _ _ hask => by cases hask; rfl)
        (fun a => attemptId_of_identity (identity_answerQuestion selectedOption a)) ?_
      rintro a rfl q count hcount
      exact hintLevel_answerQuestion selectedOption l.db.version a q hcount
    | submitAttempt attemptId =>
      refine h.onAttempt (fun _ _ _ hask => by cases hask)
        (fun a => congrArg Prod.fst (identity_finishAttempt _ a)) ?_
      intro a _ q count hcount
      rw [hintLevel_finishAttempt]
      exact hcount
    | getAttempt attemptId =>
      refine h.onAttempt (fun _ _ _ hask => by cases hask)
        (fun a => by rw [outcomeOf_showAttempt]) ?_
      intro a _ q count hcount
      rw [outcomeOf_showAttempt]
      exact hcount
    | listAttempts nodeId quizId =>
      exact h.recorded (fun _ _ _ hask => by cases hask) _
    | reviewArchivedQuiz nodeId quizId attemptId =>
      exact h.recorded (fun _ _ _ hask => by cases hask) _

/-- A database where no attempt has been started yet. -/
def Ledger.Fresh (l : Ledger κ) : Prop := l.db.attempts = [] ∧ l.log = []

omit [DecidableEq κ] in
theorem Ledger.Fresh.sound [DecidableEq κ] {l : Ledger κ} (h : l.Fresh) : l.Sound := by
  obtain ⟨hattempts, hlog⟩ := h
  refine ⟨?_, fun id _ q => ?_, fun a ha => ?_⟩
  · rw [hattempts]
    exact List.nodup_nil
  · rw [hlog]
    rfl
  · rw [hattempts] at ha
    cases ha

/-- **The hints that are reached are the wrong answers**: in every run, an attempt has reached as
many hints on a question as its trainee has been told of wrong answers to it, up to three. -/
theorem hints_exact {key : Key κ} {start : Ledger κ} (hstart : start.Fresh)
    (events : List (Event κ)) {a : AttemptRow κ}
    (ha : a ∈ ((service o key).after start events).db.attempts) (q : κ) :
    hintLevel a.responses q =
      min (wrongAnswers ((service o key).after start events).log a.attemptId q) 3 := by
  have hsound : ((service o key).after start events).Sound :=
    Machine.after_invariant (P := Ledger.Sound) (fun _ e h => sound_step h e) hstart.sound events
  exact hsound.hints a ha q

end Sound

/-! ## A trainee who fails -/

/-- A quiz of two questions. -/
def sampleLedger : Ledger ℕ where
  db :=
    { content :=
        { quizzes := [⟨1, 2, "Sorting", .mixed, 2, 80, true, .active, some 3⟩]
          questions := [⟨10, 1, "Stable?", "Quick", "Merge", none, none, 0, true⟩,
            ⟨11, 1, "In place?", "Quick", "Merge", none, none, 1, true⟩]
          publishedMaterial := fun _ => some 3 } }

/-- The answer to both questions is the second option. -/
def sampleKey : Key ℕ := fun _ _ =>
  ⟨.b, some "It keeps equal records in order.", some "Think of equal keys.", some "Not quick", none⟩

/-- Nothing is unlocked. -/
def sampleOutside : Outside ℕ where
  roundedPercent score := score.num * 100 / score.den
  newlyUnlocked _ _ _ := []

/-- The trainee starts an attempt, answers wrong, submits, and looks at the attempt. -/
def sampleEvents : List (Event ℕ) :=
  [.request ⟨7, true, true, true⟩ (.startAttempt 2 1 100),
    .request ⟨7, true, true, true⟩ (.submitResponse 100 10 (some .a)),
    .request ⟨7, true, true, true⟩ (.submitAttempt 100),
    .request ⟨7, true, true, true⟩ (.getAttempt 100)]

theorem hints_exact_sample :
    ∃ a ∈ ((service sampleOutside sampleKey).after sampleLedger sampleEvents).db.attempts,
      hintLevel a.responses 10 = 1 ∧ hintLevel a.responses 10 = min (wrongAnswers
        ((service sampleOutside sampleKey).after sampleLedger sampleEvents).log a.attemptId 10) 3 :=
  ⟨_, List.mem_cons_self, by decide +kernel, hints_exact ⟨rfl, rfl⟩ _ List.mem_cons_self _⟩

end StudyAgent.Progress.AnswerKey
