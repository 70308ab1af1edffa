import StudyAgent.Progress.HintsEarned

/-!
# What a trainee is told depends on what was found out

A trainee finds out whether an option is correct by answering with it, a hint by as many wrong
answers as its number, and the answers of a quiz by a submission that meets the threshold, or
when the quiz is archived.

Main result:

* `key_confined` — **answer keys that agree on what a trainee has found out make no difference to
  what the trainee is told**, whatever the other trainees and the mentors do.
-/

namespace StudyAgent.Progress.AnswerKey

open Unwinding

variable {κ : Type}

/-! ## What may be found out -/

def Secret.hint (s : Secret) : ℕ → Option String
  | 1 => s.hint1
  | 2 => s.hint2
  | 3 => s.hint3
  | _ => none

/-- What there is to find out about a key. -/
inductive Fact (κ : Type) where
  | verdict (version : ℕ) (questionId : κ) (option : CorrectOption)
  | hint (version : ℕ) (questionId : κ) (level : ℕ)
  | answer (version : ℕ) (questionId : κ)

/-- Two keys agree on a fact. -/
def Fact.SameIn (key key' : Key κ) : Fact κ → Prop
  | .verdict version questionId option =>
    option = (key version questionId).correctOption ↔
      option = (key' version questionId).correctOption
  | .hint version questionId level =>
    (key version questionId).hint level = (key' version questionId).hint level
  | .answer version questionId =>
    (key version questionId).correctOption = (key' version questionId).correctOption ∧
      (key version questionId).explanation = (key' version questionId).explanation

section Facts

variable [DecidableEq κ]

/-- What an answer of a user finds out. -/
def Entry.verdict (userId : κ) (e : Entry κ) : Option (Fact κ) :=
  match e.request, e.answer with
  | .submitResponse _ questionId (some option), .response _ =>
    if e.userId = userId then some (.verdict e.version questionId option) else none
  | _, _ => none

/-- The answers of a quiz are open to a user. -/
def Database.isOpen (db : Database κ) (userId : κ) (quiz : QuizRow κ) : Bool :=
  quiz.lifecycleStatus = .archived ∨
    (db.attemptsOn quiz.quizId userId).any fun a =>
      a.status = .submitted ∧ meetsThreshold a.score quiz.passThresholdPercent

/-- The hints that a user has reached. -/
def Ledger.hints (l : Ledger κ) (userId : κ) : List (Fact κ) :=
  (l.db.attempts.filter fun a => a.traineeId = userId).flatMap fun a =>
    l.db.content.questions.flatMap fun q =>
      ([1, 2, 3].filter fun level => level ≤ wrongAnswers l.log a.attemptId q.questionId).map
        (.hint l.db.version q.questionId)

/-- The questions with answers that are open to a user. -/
def Ledger.answers (l : Ledger κ) (userId : κ) : List (Fact κ) :=
  (l.db.content.quizzes.filter (l.db.isOpen userId)).flatMap fun quiz =>
    (l.db.content.getAllQuestionsByQuiz quiz.quizId).map fun q =>
      .answer l.db.version q.questionId

/-- **What a user may have found out.** -/
def Ledger.found (l : Ledger κ) (userId : κ) : List (Fact κ) :=
  l.log.filterMap (Entry.verdict userId) ++ l.hints userId ++ l.answers userId

/-- Two keys agree on all that a user may have found out. -/
def Ledger.Agree (l : Ledger κ) (userId : κ) (key key' : Key κ) : Prop :=
  ∀ f ∈ l.found userId, f.SameIn key key'

end Facts

/-! ## Ledgers that a user cannot tell apart -/

/-- The attempts of a user are the same, those of others are of the same trainees, on the same
quizzes, and open or not alike. -/
structure AttemptRow.Alike (userId : κ) (a a' : AttemptRow κ) : Prop where
  identity : a.identity = a'.identity
  own : a.traineeId = userId → a = a'

structure Ledger.Alike (userId : κ) (l l' : Ledger κ) : Prop where
  content : l.db.content = l'.db.content
  version : l.db.version = l'.db.version
  now : l.db.now = l'.db.now
  attempts : List.Forall₂ (AttemptRow.Alike userId) l.db.attempts l'.db.attempts

theorem AttemptRow.Alike.refl (userId : κ) (a : AttemptRow κ) : a.Alike userId a :=
  ⟨rfl, fun _ => rfl⟩

section Alike

theorem traineeId_of_identity {a b : AttemptRow κ} (h : a.identity = b.identity) :
    a.traineeId = b.traineeId := congrArg (fun x => x.2.2.2.1) h

theorem quizId_of_identity {a b : AttemptRow κ} (h : a.identity = b.identity) :
    a.quizId = b.quizId := congrArg (fun x => x.2.1) h

theorem status_of_identity {a b : AttemptRow κ} (h : a.identity = b.identity) :
    a.status = b.status := congrArg (fun x => x.2.2.2.2) h

variable {userId : κ} {attempts attempts' : List (AttemptRow κ)} {l l' : Ledger κ}

theorem map_of_alike {β : Type} {g : AttemptRow κ → β}
    (hg : ∀ a a' : AttemptRow κ, a.identity = a'.identity → g a = g a')
    (h : List.Forall₂ (AttemptRow.Alike userId) attempts attempts') :
    attempts.map g = attempts'.map g := by
  induction h with
  | nil => rfl
  | cons ha _ ih => rw [List.map_cons, List.map_cons, hg _ _ ha.identity, ih]

/-- Both ledgers change attempts that are alike to attempts that are alike. -/
theorem forall₂_map_of_mem {g g' : AttemptRow κ → AttemptRow κ}
    (h : List.Forall₂ (AttemptRow.Alike userId) attempts attempts')
    (hg : ∀ a ∈ attempts, ∀ a' : AttemptRow κ, a.Alike userId a' →
      (g a).Alike userId (g' a')) :
    List.Forall₂ (AttemptRow.Alike userId) (attempts.map g) (attempts'.map g') := by
  induction h with
  | nil => exact .nil
  | cons ha _ ih =>
    refine .cons (hg _ List.mem_cons_self _ ha) (ih fun a hmem => ?_)
    exact hg a (List.mem_cons_of_mem _ hmem)

theorem Ledger.Alike.nodup (h : l.Alike userId l')
    (hnodup : (l.db.attempts.map AttemptRow.attemptId).Nodup) :
    (l'.db.attempts.map AttemptRow.attemptId).Nodup := by
  rwa [← map_of_alike (fun _ _ => attemptId_of_identity) h.attempts]

variable [DecidableEq κ]

/-- A trainee's own attempts are the same. -/
theorem Ledger.Alike.attemptsOf (h : l.Alike userId l') :
    l.db.attemptsOf userId = l'.db.attemptsOf userId := by
  have hlist : ∀ {attempts attempts' : List (AttemptRow κ)},
      List.Forall₂ (AttemptRow.Alike userId) attempts attempts' →
        attempts.filter (fun a => a.traineeId = userId) =
          attempts'.filter (fun a => a.traineeId = userId) := by
    intro attempts attempts' hall
    induction hall with
    | nil => rfl
    | @cons a a' _ _ ha _ ih =>
      by_cases hown : a.traineeId = userId
      · rw [ha.own hown, List.filter_cons, List.filter_cons, ih]
      · have hown' : a'.traineeId ≠ userId := by
          rwa [← traineeId_of_identity ha.identity]
        rw [List.filter_cons_of_neg (by simp [hown]), List.filter_cons_of_neg (by simp [hown']), ih]
  exact hlist h.attempts

theorem Ledger.Alike.attemptsOn (h : l.Alike userId l') (quizId : κ) :
    l.db.attemptsOn quizId userId = l'.db.attemptsOn quizId userId := by
  have hfilter : ∀ db : Database κ, db.attemptsOn quizId userId =
      (db.attemptsOf userId).filter fun a => a.quizId = quizId := by
    intro db
    rw [Database.attemptsOf, List.filter_filter]
    simp only [Database.attemptsOn, Bool.decide_and, Bool.and_comm]
  rw [hfilter, hfilter, h.attemptsOf]

/-- Whether a trainee has an open attempt shows alike. -/
theorem Ledger.Alike.getActiveAttempt (h : l.Alike userId l') (quizId traineeId : κ) :
    (l.db.getActiveAttempt quizId traineeId).isSome =
      (l'.db.getActiveAttempt quizId traineeId).isSome := by
  have hany : ∀ db : Database κ, (db.getActiveAttempt quizId traineeId).isSome =
      (db.attempts.map AttemptRow.identity).any fun x =>
        x.2.2.2.1 = traineeId ∧ x.2.1 = quizId ∧ x.2.2.2.2 = .inProgress := by
    intro db
    rw [Bool.eq_iff_iff]
    simp only [Database.getActiveAttempt, Database.attemptsOn, List.find?_filter,
      List.find?_isSome, List.any_eq_true, List.mem_map, exists_exists_and_eq_and,
      AttemptRow.identity, Bool.and_eq_true, Bool.decide_and, decide_eq_true_eq, and_assoc]
  rw [hany, hany, map_of_alike (fun _ _ => id) h.attempts]

theorem Ledger.Alike.getAttemptById (h : l.Alike userId l') (attemptId : κ) :
    (l.db.getAttemptById attemptId = none ∧ l'.db.getAttemptById attemptId = none) ∨
      ∃ a a', l.db.getAttemptById attemptId = some a ∧ l'.db.getAttemptById attemptId = some a' ∧
        a.Alike userId a' := by
  have hlist : ∀ {attempts attempts' : List (AttemptRow κ)},
      List.Forall₂ (AttemptRow.Alike userId) attempts attempts' →
        (attempts.find? (fun a => a.attemptId = attemptId) = none ∧
          attempts'.find? (fun a => a.attemptId = attemptId) = none) ∨
        ∃ a a', attempts.find? (fun a => a.attemptId = attemptId) = some a ∧
          attempts'.find? (fun a => a.attemptId = attemptId) = some a' ∧ a.Alike userId a' := by
    intro attempts attempts' hall
    induction hall with
    | nil => exact .inl ⟨rfl, rfl⟩
    | @cons a a' _ _ ha _ ih =>
      have hid := attemptId_of_identity ha.identity
      by_cases hfound : a.attemptId = attemptId
      · refine .inr ⟨a, a', ?_, ?_, ha⟩
        · exact List.find?_cons_of_pos (by simpa using hfound)
        · exact List.find?_cons_of_pos (by simpa [← hid] using hfound)
      · rw [List.find?_cons_of_neg (by simpa using hfound),
          List.find?_cons_of_neg (by simpa [← hid] using hfound)]
        exact ih
  exact hlist h.attempts

/-- **A request on an attempt** keeps ledgers alike when it treats attempts alike, and those of
the user the same. -/
theorem Ledger.Alike.onAttempt (h : l.Alike userId l') (hsound : l.Sound) {f f' : Handler κ}
    {attemptId : κ} {caller : Caller κ} {request : Request κ}
    (halike : ∀ a a' : AttemptRow κ, a.identity = a'.identity →
      (outcomeOf f a).identity = (outcomeOf f' a').identity)
    (hids : ∀ a, (outcomeOf f a).attemptId = a.attemptId ∧
      (outcomeOf f a).traineeId = a.traineeId)
    (hids' : ∀ a, (outcomeOf f' a).attemptId = a.attemptId)
    (hown : caller.userId = userId → ∀ a ∈ l.db.attempts, a.attemptId = attemptId →
      a.traineeId = userId → f a = f' a) :
    (l.record caller request (AnswerKey.onAttempt l.db attemptId caller.userId f)).Alike userId
        (l'.record caller request (AnswerKey.onAttempt l'.db attemptId caller.userId f')) ∧
      (caller.userId = userId → (AnswerKey.onAttempt l.db attemptId caller.userId f).2 =
        (AnswerKey.onAttempt l'.db attemptId caller.userId f').2) := by
  obtain ⟨hcontent, hversion, hnow⟩ := onAttempt_content l.db attemptId caller.userId f
  obtain ⟨hcontent', hversion', hnow'⟩ := onAttempt_content l'.db attemptId caller.userId f'
  refine ⟨⟨?_, ?_, ?_, ?_⟩, fun hcaller => ?_⟩
  · exact hcontent.trans (h.content.trans hcontent'.symm)
  · exact hversion.trans (h.version.trans hversion'.symm)
  · exact congrArg (· + 1) (hnow.trans (h.now.trans hnow'.symm))
  · show List.Forall₂ _ (AnswerKey.onAttempt l.db attemptId caller.userId f).1.attempts
      (AnswerKey.onAttempt l'.db attemptId caller.userId f').1.attempts
    rw [attempts_onAttempt hsound.nodup fun a => (hids a).1,
      attempts_onAttempt (h.nodup hsound.nodup) hids']
    refine forall₂_map_of_mem h.attempts fun a ha a' haa' => ?_
    rw [← attemptId_of_identity haa'.identity, ← traineeId_of_identity haa'.identity]
    by_cases hasked : a.attemptId = attemptId ∧ a.traineeId = caller.userId
    · rw [if_pos hasked, if_pos hasked]
      refine ⟨halike a a' haa'.identity, fun htrainee => ?_⟩
      rw [(hids a).2] at htrainee
      have hsame : f a = f' a := hown (hasked.2.symm.trans htrainee) a ha hasked.1 htrainee
      rw [← haa'.own htrainee, outcomeOf, outcomeOf, hsame]
    · rw [if_neg hasked, if_neg hasked]
      exact haa'
  · obtain ⟨hnone, hnone'⟩ | ⟨a, a', hfind, hfind', haa'⟩ := h.getAttemptById attemptId
    · rw [AnswerKey.onAttempt, AnswerKey.onAttempt, hnone, hnone']
    · obtain ⟨ha, hid⟩ := getAttemptById_eq_some hfind
      rw [AnswerKey.onAttempt, AnswerKey.onAttempt, hfind, hfind']
      dsimp only
      rw [← traineeId_of_identity haa'.identity]
      split_ifs with htrainee
      · rfl
      · rw [not_not] at htrainee
        have howner := htrainee.trans hcaller
        rw [← haa'.own howner, hown hcaller a ha hid howner]
        cases f' a <;> rfl

end Alike

/-! ## Keys that agree -/

section Agree

variable [DecidableEq κ] {o : Outside κ} {key key' : Key κ} {l : Ledger κ} {userId : κ} {a : AttemptRow κ}
  {q : QuestionRow κ}

theorem Ledger.Agree.hint (h : l.Agree userId key key') (hsound : l.Sound)
    (ha : a ∈ l.db.attempts) (hown : a.traineeId = userId) (hq : q ∈ l.db.content.questions)
    {level : ℕ} (hlevel : level ∈ [1, 2, 3])
    (hreached : level ≤ hintLevel a.responses q.questionId) :
    (key l.db.version q.questionId).hint level = (key' l.db.version q.questionId).hint level := by
  refine h (.hint l.db.version q.questionId level) ?_
  refine List.mem_append_left _ (List.mem_append_right _ ?_)
  refine List.mem_flatMap.2 ⟨a, List.mem_filter.2 ⟨ha, by simpa using hown⟩, ?_⟩
  refine List.mem_flatMap.2 ⟨q, hq, List.mem_map.2 ⟨level, ?_, rfl⟩⟩
  have hle := (hsound.hints a ha q.questionId).le.trans (min_le_left _ _)
  exact List.mem_filter.2 ⟨hlevel, by simpa using hreached.trans hle⟩

theorem Ledger.Agree.answer (h : l.Agree userId key key') {quiz : QuizRow κ}
    (hquiz : quiz ∈ l.db.content.quizzes) (hopen : l.db.isOpen userId quiz = true)
    (hq : q ∈ l.db.content.getAllQuestionsByQuiz quiz.quizId) :
    (key l.db.version q.questionId).correctOption =
        (key' l.db.version q.questionId).correctOption ∧
      (key l.db.version q.questionId).explanation =
        (key' l.db.version q.questionId).explanation := by
  refine h (.answer l.db.version q.questionId) (List.mem_append_right _ ?_)
  exact List.mem_flatMap.2 ⟨quiz, List.mem_filter.2 ⟨hquiz, hopen⟩, List.mem_map_of_mem hq⟩

omit [DecidableEq κ] in
/-- A question is shown alike where the keys agree on the hints that are reached, and on its
answer where that is revealed. -/
theorem buildQuestionOut_congr {secrets secrets' : κ → Secret} {response : Option (Response κ)}
    {attemptSubmitted revealAnswers : Bool}
    (hhints : ∀ level ∈ [1, 2, 3], level ≤ (response.map Response.hintLevelReached).getD 0 →
      (secrets q.questionId).hint level = (secrets' q.questionId).hint level)
    (hanswer : revealAnswers = true →
      (secrets q.questionId).correctOption = (secrets' q.questionId).correctOption ∧
        (secrets q.questionId).explanation = (secrets' q.questionId).explanation) :
    buildQuestionOut secrets q response attemptSubmitted revealAnswers =
      buildQuestionOut secrets' q response attemptSubmitted revealAnswers := by
  have hgate : ∀ level ∈ [1, 2, 3],
      (if level ≤ (response.map Response.hintLevelReached).getD 0 then
        (secrets q.questionId).hint level else none) =
      if level ≤ (response.map Response.hintLevelReached).getD 0 then
        (secrets' q.questionId).hint level else none := by
    intro level hlevel
    split_ifs with hreached
    · exact hhints level hlevel hreached
    · rfl
  have hskipped : isQuestionSkippedAtSubmit (q.question secrets) response =
      isQuestionSkippedAtSubmit (q.question secrets') response := rfl
  have h1 := hgate 1 (by decide)
  have h2 := hgate 2 (by decide)
  have h3 := hgate 3 (by decide)
  simp only [Secret.hint] at h1 h2 h3
  cases revealAnswers with
  | false => simp only [buildQuestionOut, h1, h2, h3, hskipped, Bool.false_eq_true, if_false]
  | true =>
    obtain ⟨hcorrect, hexplanation⟩ := hanswer rfl
    simp only [buildQuestionOut, h1, h2, h3, hskipped, hcorrect, hexplanation]

/-- Nothing that has been found out is lost by a request. -/
theorem Ledger.Agree.before {l₁ : Ledger κ} {entries : List (Entry κ)}
    (h : l₁.Agree userId key key') (hcontent : l₁.db.content = l.db.content)
    (hversion : l₁.db.version = l.db.version) (hattempts : l.db.attempts ⊆ l₁.db.attempts)
    (hlog : l₁.log = l.log ++ entries) : l.Agree userId key key' := by
  intro f hf
  refine h f ?_
  rw [Ledger.found, List.mem_append, List.mem_append] at hf ⊢
  obtain (hf | hf) | hf := hf
  · left; left
    rw [hlog, List.filterMap_append]
    exact List.mem_append_left _ hf
  · left; right
    rw [Ledger.hints] at hf ⊢
    obtain ⟨a, ha, hf⟩ := List.mem_flatMap.1 hf
    obtain ⟨q, hq, hf⟩ := List.mem_flatMap.1 hf
    obtain ⟨level, hlevel, rfl⟩ := List.mem_map.1 hf
    obtain ⟨hlevel, hle⟩ := List.mem_filter.1 hlevel
    obtain ⟨ha, hown⟩ := List.mem_filter.1 ha
    rw [hcontent, hversion]
    refine List.mem_flatMap.2 ⟨a, List.mem_filter.2 ⟨hattempts ha, hown⟩, ?_⟩
    refine List.mem_flatMap.2 ⟨q, hq, List.mem_map.2 ⟨level, ?_, rfl⟩⟩
    refine List.mem_filter.2 ⟨hlevel, ?_⟩
    rw [hlog, wrongAnswers, List.countP_append]
    simp only [decide_eq_true_eq] at hle ⊢
    exact hle.trans (Nat.le_add_right _ _)
  · right
    rw [Ledger.answers] at hf ⊢
    obtain ⟨quiz, hquiz, hf⟩ := List.mem_flatMap.1 hf
    obtain ⟨hquiz, hopen⟩ := List.mem_filter.1 hquiz
    rw [hcontent, hversion]
    refine List.mem_flatMap.2 ⟨quiz, List.mem_filter.2 ⟨hquiz, ?_⟩, hf⟩
    rw [Database.isOpen, decide_eq_true_eq, List.any_eq_true] at hopen ⊢
    refine hopen.imp_right ?_
    rintro ⟨a, ha, hpassed⟩
    obtain ⟨ha, hkey⟩ := List.mem_filter.1 ha
    exact ⟨a, List.mem_filter.2 ⟨hattempts ha, hkey⟩, hpassed⟩

/-! ### Answers -/

theorem mem_of_getQuizById {content : Content κ} {quizId : κ} {quiz : QuizRow κ}
    (h : content.getQuizById quizId = some quiz) :
    quiz ∈ content.quizzes ∧ quiz.quizId = quizId :=
  ⟨List.mem_of_find?_eq_some h, by simpa using List.find?_some h⟩

theorem mem_of_getAllQuestionsByQuiz {content : Content κ} {quizId : κ}
    (h : q ∈ content.getAllQuestionsByQuiz quizId) : q ∈ content.questions :=
  (List.mem_filter.1 h).1

/-- Answers are revealed on quizzes that are open to the trainee. -/
theorem isOpen_of_reveal {db : Database κ} {quiz : QuizRow κ} (ha : a ∈ db.attempts)
    (hown : a.traineeId = userId) (hquiz : quiz.quizId = a.quizId)
    (hsubmitted : a.status = .submitted)
    (hmet : meetsThreshold ((db.getBestSubmittedScore a.quizId a.traineeId).or a.score)
      quiz.passThresholdPercent = true) : db.isOpen userId quiz = true := by
  have hmem : a ∈ db.attemptsOn quiz.quizId userId :=
    List.mem_filter.2 ⟨ha, by simp [hown, hquiz]⟩
  rw [Database.isOpen, decide_eq_true_eq, List.any_eq_true]
  right
  cases hbest : db.getBestSubmittedScore a.quizId a.traineeId with
  | none =>
    rw [hbest, Option.none_or] at hmet
    exact ⟨a, hmem, by simp [hsubmitted, hmet]⟩
  | some best =>
    rw [hbest, Option.some_or] at hmet
    obtain ⟨b, hb, hscore⟩ := List.mem_filterMap.1 (List.max?_mem hbest)
    obtain ⟨hb, hstatus⟩ := List.mem_filter.1 hb
    rw [hown, ← hquiz] at hb
    refine ⟨b, hb, ?_⟩
    rw [hscore]
    simpa [hmet] using hstatus

theorem checkShow_ok {content : Content κ} {quiz : QuizRow κ}
    (h : checkShow content a = .ok quiz) : content.getQuizById a.quizId = some quiz := by
  have hquiz : getQuizForAttempt content a = .ok quiz := by
    rw [checkShow] at h
    split_ifs at h
    · cases h
    · exact h
  unfold getQuizForAttempt at hquiz
  split at hquiz
  · cases hquiz
  · rename_i hfind
    split_ifs at hquiz
    · cases hquiz
      exact hfind
    · cases hquiz
      exact hfind

/-- `get_attempt` shows a trainee the same under keys that agree. -/
theorem Ledger.Agree.showAttempt {l' : Ledger κ} (h : l.Agree userId key key') (hsound : l.Sound)
    (halike : l.Alike userId l') (ha : a ∈ l.db.attempts) (hown : a.traineeId = userId) :
    AnswerKey.showAttempt o (key l.db.version) l.db a =
      AnswerKey.showAttempt o (key' l'.db.version) l'.db a := by
  have hbest : l.db.getBestSubmittedScore a.quizId a.traineeId =
      l'.db.getBestSubmittedScore a.quizId a.traineeId := by
    rw [Database.getBestSubmittedScore, Database.submittedScores, hown, halike.attemptsOn]
    rfl
  rw [showAttempt_eq, showAttempt_eq, ← halike.content, ← halike.version, ← hbest]
  cases hcheck : checkShow l.db.content a with
  | error refusal => rfl
  | ok quiz =>
    obtain ⟨hmem, hid⟩ := mem_of_getQuizById (checkShow_ok hcheck)
    have hreveal : (decide (a.status = .submitted) &&
        meetsThreshold ((l.db.getBestSubmittedScore a.quizId a.traineeId).or a.score)
          quiz.passThresholdPercent) = true → l.db.isOpen userId quiz = true := by
      rw [Bool.and_eq_true, decide_eq_true_eq]
      exact fun hr => isOpen_of_reveal ha hown hid hr.1 hr.2
    have hout : buildTraineeQuizOut o (key l.db.version) quiz a
        (l.db.content.getAllQuestionsByQuiz a.quizId)
        (l.db.getBestSubmittedScore a.quizId a.traineeId) =
      buildTraineeQuizOut o (key' l.db.version) quiz a
        (l.db.content.getAllQuestionsByQuiz a.quizId)
        (l.db.getBestSubmittedScore a.quizId a.traineeId) := by
      rw [buildTraineeQuizOut, buildTraineeQuizOut]
      congr 1
      refine List.map_congr_left fun q hq => ?_
      refine buildQuestionOut_congr (fun level hlevel hreached => ?_) fun hr => ?_
      · exact h.hint hsound ha hown (mem_of_getAllQuestionsByQuiz hq) hlevel hreached
      · exact h.answer hmem (hreveal hr) (hid ▸ hq)
    exact congrArg (fun out => Except.ok (a, Answer.quiz out)) hout

/-- A submission depends on no secret. -/
theorem recordSubmission_congr (secrets secrets' : κ → Secret) (content : Content κ) (now : ℕ)
    (a : AttemptRow κ) :
    recordSubmission secrets content now a = recordSubmission secrets' content now a := by
  have hfinal : ∀ (active : List (QuestionRow κ)) (responses : List (Response κ)),
      finalizeSkippedResponses (active.map (QuestionRow.question secrets)) responses =
        finalizeSkippedResponses (active.map (QuestionRow.question secrets')) responses := by
    intro active
    induction active with
    | nil => exact fun _ => rfl
    | cons q active ih => exact fun responses => ih (finalizeSkippedResponse responses _)
  have htotals : ∀ (active : List (QuestionRow κ)) (responses : List (Response κ)),
      totalsOf (active.map (QuestionRow.question secrets)) responses =
        totalsOf (active.map (QuestionRow.question secrets')) responses := by
    intro active responses
    simp only [totalsOf, activeQuestions, countSkippedAtSubmit, List.filter_map, List.length_map,
      List.countP_map]
    rfl
  simp only [recordSubmission, hfinal, htotals]

theorem recordAnswer_congr {secret secret' : Secret} {content : Content κ} {questionId : κ}
    {option : CorrectOption}
    (hverdict : option = secret.correctOption ↔ option = secret'.correctOption)
    (hhints : ∀ level ∈ [1, 2, 3],
      level ≤ (recordAnswer secret content questionId option a).2.hintLevelReached →
        secret.hint level = secret'.hint level) :
    recordAnswer secret content questionId option a =
      recordAnswer secret' content questionId option a := by
  have hcorrect :
      decide (option = secret.correctOption) = decide (option = secret'.correctOption) :=
    decide_eq_decide.2 hverdict
  have hgate : ∀ level ∈ [1, 2, 3],
      (if level ≤ (recordAnswer secret content questionId option a).2.hintLevelReached then
        secret.hint level else none) =
      if level ≤ (recordAnswer secret content questionId option a).2.hintLevelReached then
        secret'.hint level else none := by
    intro level hlevel
    split_ifs with hreached
    · exact hhints level hlevel hreached
    · rfl
  have h1 := hgate 1 (by decide)
  have h2 := hgate 2 (by decide)
  have h3 := hgate 3 (by decide)
  simp only [recordAnswer, Secret.hint] at h1 h2 h3
  simp only [recordAnswer, h1, h2, h3, ← hcorrect]

theorem checkAnswer_ok {content : Content κ} {questionId : κ}
    {selectedOption : Option CorrectOption} {option : CorrectOption}
    (h : checkAnswer content questionId selectedOption a = .ok (option, q)) :
    selectedOption = some option ∧ content.getQuestionById questionId = some q := by
  have hfound : ∀ {question : QuestionRow κ}, questionOf content a questionId = .ok question →
      content.getQuestionById questionId = some question := by
    intro question hquestion
    unfold questionOf at hquestion
    split at hquestion
    · cases hquestion
    · rename_i hfind
      split_ifs at hquestion
      cases hquestion
      exact hfind
  unfold checkAnswer at h
  cases hopen : assertOpen a with
  | error refusal =>
    rw [hopen] at h
    cases h
  | ok =>
    rw [hopen] at h
    cases selectedOption with
    | none => cases h
    | some selected =>
      cases hquestion : questionOf content a questionId with
      | error refusal =>
        simp only [hquestion, bind, Except.bind] at h
        cases h
      | ok question =>
        simp only [hquestion, bind, Except.bind] at h
        split_ifs at h
        cases h
        exact ⟨rfl, hfound hquestion⟩

/-- `submit_response` tells a trainee the same under keys that agree behind the answer. -/
theorem answerQuestion_congr {l₁ : Ledger κ} {questionId : κ}
    {selectedOption : Option CorrectOption} (h : l₁.Agree userId key key') (hsound : l₁.Sound)
    (hcontent : l₁.db.content = l.db.content) (hversion : l₁.db.version = l.db.version)
    (hown : a.traineeId = userId)
    (houtcome : outcomeOf (answerQuestion (key l.db.version) l.db.content questionId
      selectedOption) a ∈ l₁.db.attempts)
    (hlog : ⟨userId, l.db.version, .submitResponse a.attemptId questionId selectedOption,
      answerOf (answerQuestion (key l.db.version) l.db.content questionId selectedOption) a⟩ ∈
        l₁.log) :
    answerQuestion (key l.db.version) l.db.content questionId selectedOption a =
      answerQuestion (key' l.db.version) l.db.content questionId selectedOption a := by
  obtain ⟨refusal, hcheck, -, -⟩ | ⟨⟨option, question⟩, hcheck, hresult, hanswer⟩ :=
    handled (answerQuestion_eq selectedOption a)
  · rw [answerQuestion_eq, answerQuestion_eq, hcheck]
    rfl
  · obtain ⟨rfl, hfind⟩ := checkAnswer_ok hcheck
    obtain ⟨hquestion, hid⟩ : question ∈ l.db.content.questions ∧
        question.questionId = questionId :=
      ⟨List.mem_of_find?_eq_some hfind, by simpa using List.find?_some hfind⟩
    rw [hanswer] at hlog
    rw [hresult] at houtcome
    have hverdict := h (.verdict l.db.version questionId option) <|
      List.mem_append_left _ <| List.mem_append_left _ <|
        List.mem_filterMap.2 ⟨_, hlog, by simp [Entry.verdict]⟩
    have hsame : recordAnswer (key l.db.version questionId) l.db.content questionId option a =
        recordAnswer (key' l.db.version questionId) l.db.content questionId option a := by
      refine recordAnswer_congr hverdict fun level hlevel hreached => ?_
      have hhint := h.hint hsound houtcome hown (hcontent ▸ hquestion) hlevel
      rw [hintLevel_recordAnswer, hid, if_pos rfl, hversion] at hhint
      exact hhint hreached
    rw [answerQuestion_eq, answerQuestion_eq, hcheck]
    show Except.ok _ = Except.ok _
    dsimp only
    rw [hid, hsame]

omit [DecidableEq κ] in
theorem mem_of_pickArchiveReviewAttempt {attempts : List (AttemptRow κ)}
    (h : pickArchiveReviewAttempt attempts = some a) : a ∈ attempts := by
  rw [pickArchiveReviewAttempt, Option.or_eq_some_iff] at h
  obtain h | ⟨-, h⟩ := h
  · rw [Option.or_eq_some_iff] at h
    obtain h | ⟨-, h⟩ := h
    · rw [Option.or_eq_some_iff] at h
      obtain h | ⟨-, h⟩ := h
      · exact List.mem_of_find?_eq_some h
      · exact List.mem_of_find?_eq_some h
    · exact List.mem_of_find?_eq_some h
  · exact List.mem_of_mem_head? h

theorem mem_of_reviewAttempt {attempts : List (AttemptRow κ)} {attemptId : Option κ}
    (h : reviewAttempt attempts attemptId = some a) : a ∈ attempts := by
  cases attemptId with
  | none => exact mem_of_pickArchiveReviewAttempt h
  | some attemptId => exact List.mem_of_find?_eq_some h

/-- The review of an archived quiz shows what is open to everyone. -/
theorem Ledger.Agree.review {l' : Ledger κ} (h : l.Agree userId key key') (hsound : l.Sound)
    (halike : l.Alike userId l') {caller : Caller κ} (hcaller : caller.userId = userId)
    (nodeId quizId : κ) (attemptId : Option κ) :
    reviewArchivedQuiz o (key l.db.version) l.db caller nodeId quizId attemptId =
      reviewArchivedQuiz o (key' l'.db.version) l'.db caller nodeId quizId attemptId := by
  have hlist : l.db.listAttemptsByQuizAndTrainee quizId caller.userId =
      l'.db.listAttemptsByQuizAndTrainee quizId caller.userId := by
    rw [Database.listAttemptsByQuizAndTrainee, hcaller, halike.attemptsOn]
    rfl
  have hmem : ∀ a ∈ l.db.listAttemptsByQuizAndTrainee quizId caller.userId,
      a ∈ l.db.attempts ∧ a.traineeId = userId := by
    intro a ha
    obtain ⟨ha, hown⟩ := List.mem_filter.1 (((List.mergeSort_perm _ _).mem_iff).1 ha)
    rw [decide_eq_true_eq, hcaller] at hown
    exact ⟨ha, hown.1⟩
  have hquestion : ∀ {quiz : QuizRow κ}, l.db.content.getQuizById quizId = some quiz →
      quiz.lifecycleStatus = .archived → ∀ attempt : Option (AttemptRow κ),
      (∀ a ∈ attempt, a ∈ l.db.attempts ∧ a.traineeId = userId) →
        (l.db.content.getAllQuestionsByQuiz quizId).map
            (reviewQuestion (key l.db.version) attempt) =
          (l.db.content.getAllQuestionsByQuiz quizId).map
            (reviewQuestion (key' l.db.version) attempt) := by
    intro quiz hquiz harchived attempt hattempt
    refine List.map_congr_left fun q hq => ?_
    obtain ⟨hmemQuiz, hid⟩ := mem_of_getQuizById hquiz
    have hopen : l.db.isOpen userId quiz = true := by simp [Database.isOpen, harchived]
    obtain ⟨hcorrect, hexplanation⟩ := h.answer hmemQuiz hopen (hid.symm ▸ hq)
    rw [reviewQuestion, reviewQuestion, hcorrect, hexplanation, buildQuestionOut_congr]
    · intro level hlevel hreached
      cases attempt with
      | none =>
        have hzero : level ≤ 0 := hreached
        simp only [List.mem_cons, List.not_mem_nil, or_false] at hlevel
        omega
      | some a =>
        obtain ⟨ha, hown⟩ := hattempt a rfl
        exact h.hint hsound ha hown (mem_of_getAllQuestionsByQuiz hq) hlevel hreached
    · simp
  have hattempt : ∀ a ∈ reviewAttempt (l.db.listAttemptsByQuizAndTrainee quizId caller.userId)
      attemptId, a ∈ l.db.attempts ∧ a.traineeId = userId :=
    fun a ha => hmem a (mem_of_reviewAttempt ha)
  unfold reviewArchivedQuiz
  rw [← halike.content, ← halike.version, ← hlist]
  cases hquiz : l.db.content.getQuizById quizId with
  | none => rfl
  | some quiz =>
    by_cases harchived : quiz.lifecycleStatus = .archived
    · simp only [hquestion hquiz harchived _ hattempt]
    · simp [harchived]

end Agree

/-! ## Every run -/

section Confined

variable [DecidableEq κ] {o : Outside κ} {key key' : Key κ} {l l' : Ledger κ} {userId : κ}

theorem Ledger.Alike.checkStart (h : l.Alike userId l') (caller : Caller κ)
    (nodeId quizId attemptId : κ) :
    (AnswerKey.checkStart l.db caller nodeId quizId attemptId).toOption =
        (AnswerKey.checkStart l'.db caller nodeId quizId attemptId).toOption ∧
      (caller.userId = userId → AnswerKey.checkStart l.db caller nodeId quizId attemptId =
        AnswerKey.checkStart l'.db caller nodeId quizId attemptId) := by
  have hused : (l.db.attempts.any fun a => a.attemptId = attemptId) =
      l'.db.attempts.any fun a => a.attemptId = attemptId := by
    have hany : ∀ attempts : List (AttemptRow κ), (attempts.any fun a => a.attemptId = attemptId) =
        (attempts.map AttemptRow.attemptId).any fun id => id = attemptId := by
      intro attempts
      rw [List.any_map]
      rfl
    rw [hany, hany, map_of_alike (fun _ _ => attemptId_of_identity) h.attempts]
  have hactive := h.getActiveAttempt quizId caller.userId
  unfold AnswerKey.checkStart
  rw [← h.content, ← hused]
  constructor
  · cases hfind : l.db.getActiveAttempt quizId caller.userId with
    | none =>
      rw [hfind, Option.isSome_none, eq_comm, Option.isSome_eq_false_iff,
        Option.isNone_iff_eq_none] at hactive
      rw [hactive]
    | some active =>
      rw [hfind, Option.isSome_some, eq_comm, Option.isSome_iff_exists] at hactive
      obtain ⟨active', hactive⟩ := hactive
      rw [hactive]
      -- the attempt in the way is another one for other trainees, and refused all the same
      cases l.db.content.getPublishedQuizByNode nodeId with
      | none => split_ifs <;> rfl
      | some published =>
        cases l.db.content.getQuizById quizId with
        | none => split_ifs <;> rfl
        | some quiz =>
          dsimp only
          split_ifs <;> rfl
  · intro hcaller
    have hsame : l.db.getActiveAttempt quizId caller.userId =
        l'.db.getActiveAttempt quizId caller.userId := by
      rw [Database.getActiveAttempt, hcaller, h.attemptsOn]
      rfl
    rw [hsame]

omit [DecidableEq κ] in
theorem Ledger.Alike.recorded (h : l.Alike userId l') (caller : Caller κ) (request : Request κ)
    (answer answer' : Answer κ) :
    (l.record caller request (l.db, answer)).Alike userId
      (l'.record caller request (l'.db, answer')) :=
  ⟨h.content, h.version, congrArg (· + 1) h.now, h.attempts⟩

theorem Ledger.Alike.start (h : l.Alike userId l') (secrets secrets' : κ → Secret)
    (caller : Caller κ) (request : Request κ) (nodeId quizId attemptId : κ) :
    (l.record caller request (startAttempt o secrets l.db caller nodeId quizId attemptId)).Alike
        userId
        (l'.record caller request (startAttempt o secrets' l'.db caller nodeId quizId attemptId)) ∧
      (caller.userId = userId → (startAttempt o secrets l.db caller nodeId quizId attemptId).2 =
        (startAttempt o secrets' l'.db caller nodeId quizId attemptId).2) := by
  obtain ⟨hoption, hsame⟩ := h.checkStart caller nodeId quizId attemptId
  rw [startAttempt, startAttempt]
  cases hcheck : AnswerKey.checkStart l.db caller nodeId quizId attemptId with
  | error refusal =>
    cases hcheck' : AnswerKey.checkStart l'.db caller nodeId quizId attemptId with
    | error refusal' =>
      refine ⟨h.recorded caller request _ _, fun hcaller => ?_⟩
      have heq := hsame hcaller
      rw [hcheck, hcheck'] at heq
      cases heq
      rfl
    | ok quiz =>
      rw [hcheck, hcheck'] at hoption
      cases hoption
  | ok quiz =>
    have hcheck' : AnswerKey.checkStart l'.db caller nodeId quizId attemptId = .ok quiz := by
      rw [hcheck] at hoption
      cases hcheck' : AnswerKey.checkStart l'.db caller nodeId quizId attemptId with
      | error refusal' =>
        rw [hcheck'] at hoption
        cases hoption
      | ok quiz' =>
        rw [hcheck'] at hoption
        cases hoption
        rfl
    have hrow : createAttempt l.db caller.userId nodeId quizId attemptId =
        createAttempt l'.db caller.userId nodeId quizId attemptId := by
      rw [createAttempt, createAttempt, h.now]
    rw [hcheck']
    refine ⟨⟨h.content, h.version, congrArg (· + 1) h.now, ?_⟩, fun hcaller => ?_⟩
    · show List.Forall₂ _ (l.db.attempts ++ [_]) (l'.db.attempts ++ [_])
      refine List.rel_append h.attempts (.cons ?_ .nil)
      rw [hrow]
      exact .refl userId _
    · have hbest : l.db.getBestSubmittedScore quizId caller.userId =
          l'.db.getBestSubmittedScore quizId caller.userId := by
        rw [Database.getBestSubmittedScore, Database.submittedScores, hcaller, h.attemptsOn]
        rfl
      dsimp only
      rw [hrow, hbest, h.content]
      -- no hint is reached yet, and the attempt is not submitted
      rfl

theorem AttemptRow.Alike.freeze {a a' : AttemptRow κ} (h : a.Alike userId a') (frozen : List κ)
    (now : ℕ) : (a.freeze frozen now).Alike userId (a'.freeze frozen now) := by
  by_cases hown : a.traineeId = userId
  · rw [h.own hown]
    exact .refl userId _
  · have hiff : (a'.quizId ∈ frozen ∧ a'.status = .inProgress) ↔
        (a.quizId ∈ frozen ∧ a.status = .inProgress) := by
      rw [quizId_of_identity h.identity, status_of_identity h.identity]
    rw [AttemptRow.freeze, AttemptRow.freeze]
    split_ifs with hfreeze hfreeze' hfreeze'
    · refine ⟨?_, fun htrainee => absurd htrainee hown⟩
      show (a.identity.1, a.identity.2.1, a.identity.2.2.1, a.identity.2.2.2.1, _) = _
      rw [h.identity]
      rfl
    · exact absurd (hiff.2 hfreeze) hfreeze'
    · exact absurd (hiff.1 hfreeze') hfreeze
    · exact h

/-- **One event keeps ledgers alike**, and tells the user the same. -/
theorem alike_step (hsound : l.Sound) (h : l.Alike userId l') (e : Event κ)
    (hagree : ((service o key).step l e).1.Agree userId key key') :
    (((service o key).step l e).1).Alike userId ((service o key').step l' e).1 ∧
      (asks userId e = true →
        ((service o key).step l e).2 = ((service o key').step l' e).2) := by
  have hsound₁ : ((service o key).step l e).1.Sound := sound_step hsound e
  cases e with
  | write content frozen =>
    refine ⟨⟨rfl, congrArg (· + 1) h.version, congrArg (· + 1) h.now, ?_⟩,
      fun hask => by cases hask⟩
    show List.Forall₂ _ (l.db.attempts.map _) (l'.db.attempts.map _)
    refine forall₂_map_of_mem h.attempts fun a _ a' haa' => ?_
    rw [← h.now]
    exact haa'.freeze frozen l.db.now
  | request caller request =>
    rw [service_request] at hagree hsound₁
    rw [service_request, service_request]
    have hasks : asks userId (.request caller request) = true → caller.userId = userId := by
      simp [asks]
    suffices hrequest : _ ∧ (caller.userId = userId → _) from
      ⟨hrequest.1, fun hask => hrequest.2 (hasks hask)⟩
    cases request with
    | startAttempt nodeId quizId attemptId =>
      exact h.start _ _ caller _ nodeId quizId attemptId
    | patchAttemptState attemptId patch =>
      rw [Database.handle, Database.handle]
      split_ifs
      · exact ⟨h.recorded caller _ _ _, fun _ => rfl⟩
      · rw [← h.content]
        refine h.onAttempt hsound (fun a a' haa' => ?_) (fun a => ?_) (fun a => ?_)
          fun _ _ _ _ _ => rfl
        · rw [identity_patchAttempt, identity_patchAttempt, haa']
        · exact ⟨attemptId_of_identity (identity_patchAttempt _ patch a),
            traineeId_of_identity (identity_patchAttempt _ patch a)⟩
        · exact attemptId_of_identity (identity_patchAttempt _ patch a)
    | submitResponse attemptId questionId selectedOption =>
      have hkept : ∀ (secrets : κ → Secret) (a : AttemptRow κ),
          (outcomeOf (answerQuestion secrets l.db.content questionId selectedOption) a).identity =
            a.identity := fun secrets a => identity_answerQuestion selectedOption a
      rw [Database.handle] at hagree hsound₁
      rw [Database.handle, Database.handle, ← h.content, ← h.version]
      refine h.onAttempt hsound (fun a a' haa' => ?_) (fun a => ?_) (fun a => ?_)
        fun hcaller a ha hid hown => ?_
      · rw [hkept, hkept, haa']
      · exact ⟨attemptId_of_identity (hkept _ a), traineeId_of_identity (hkept _ a)⟩
      · exact attemptId_of_identity (hkept _ a)
      · obtain ⟨hcontent, hversion, -⟩ := onAttempt_content l.db attemptId caller.userId
          (answerQuestion (key l.db.version) l.db.content questionId selectedOption)
        have hasked := hown.trans hcaller.symm
        refine answerQuestion_congr hagree hsound₁ hcontent hversion hown ?_ ?_
        · show _ ∈ (AnswerKey.onAttempt l.db attemptId caller.userId _).1.attempts
          rw [attempts_onAttempt hsound.nodup fun a => attemptId_of_identity (hkept _ a)]
          refine List.mem_map.2 ⟨a, ha, ?_⟩
          rw [if_pos ⟨hid, hasked⟩]
        · refine List.mem_append_right _ (List.mem_singleton.2 ?_)
          rw [hversion, ← hid, ← hasked, hown, ← hown, answer_onAttempt hsound.nodup ha]
    | submitAttempt attemptId =>
      have hkept : ∀ (secrets : κ → Secret) (newlyUnlocked : AttemptRow κ → List κ)
          (a : AttemptRow κ),
          (outcomeOf (finishAttempt secrets l.db.content l.db.now newlyUnlocked) a).identity =
            (a.identity.1, a.identity.2.1, a.identity.2.2.1, a.identity.2.2.2.1,
              if a.identity.2.2.2.2 = .inProgress then .submitted else a.identity.2.2.2.2) :=
        fun secrets newlyUnlocked a => identity_finishAttempt l.db.now a
      rw [Database.handle, Database.handle, ← h.content, ← h.now]
      refine h.onAttempt hsound (fun a a' haa' => ?_) (fun a => ?_) (fun a => ?_)
        fun hcaller a _ _ _ => ?_
      · rw [hkept, hkept, haa']
      · exact ⟨congrArg Prod.fst (hkept _ _ a), congrArg (fun x => x.2.2.2.1) (hkept _ _ a)⟩
      · exact congrArg Prod.fst (hkept _ _ a)
      · rw [finishAttempt_eq, finishAttempt_eq, recordSubmission_congr, hcaller, h.attemptsOf]
    | getAttempt attemptId =>
      rw [Database.handle] at hagree
      rw [Database.handle, Database.handle]
      have hshown : ∀ a, outcomeOf (AnswerKey.showAttempt o (key l.db.version) l.db) a = a :=
        outcomeOf_showAttempt
      obtain ⟨hcontent, hversion, -⟩ := onAttempt_content l.db attemptId caller.userId
        (AnswerKey.showAttempt o (key l.db.version) l.db)
      have hbefore : l.Agree userId key key' := by
        refine hagree.before hcontent hversion ?_ rfl
        show l.db.attempts ⊆ (AnswerKey.onAttempt l.db attemptId caller.userId _).1.attempts
        rw [attempts_onAttempt hsound.nodup fun a => by rw [hshown]]
        simp [hshown]
      refine h.onAttempt hsound (fun a a' haa' => ?_) (fun a => ?_) (fun a => ?_)
        fun _ a ha _ hown => ?_
      · rw [outcomeOf_showAttempt, outcomeOf_showAttempt, haa']
      · rw [outcomeOf_showAttempt]
        exact ⟨rfl, rfl⟩
      · rw [outcomeOf_showAttempt]
      · exact hbefore.showAttempt hsound h ha hown
    | listAttempts nodeId quizId =>
      refine ⟨h.recorded caller _ _ _, fun hcaller => ?_⟩
      have hon := h.attemptsOn quizId
      show listAttempts o l.db caller nodeId quizId = listAttempts o l'.db caller nodeId quizId
      rw [listAttempts, listAttempts, resolveQuizForTraineeAccess, resolveQuizForTraineeAccess,
        Database.listAttemptsByQuizAndTrainee, Database.listAttemptsByQuizAndTrainee, hcaller, hon,
        h.content]
    | reviewArchivedQuiz nodeId quizId attemptId =>
      have hbefore : l.Agree userId key key' :=
        hagree.before rfl rfl (List.Subset.refl _) rfl
      exact ⟨h.recorded caller _ _ _, fun hcaller =>
        hbefore.review hsound h hcaller nodeId quizId attemptId⟩

/-- **What a trainee is told depends on what was found out**: answer keys that agree on what the
trainee may have found out behind every event of a run make no difference to what the trainee is
told in the run. -/
theorem key_confined {start : Ledger κ} {events : List (Event κ)} (hstart : start.Fresh)
    (h : ∀ before, before <+: events →
      ((service o key).after start before).Agree userId key key') :
    (service o key).told (asks userId) start events =
      (service o key').told (asks userId) start events := by
  refine Machine.told_eq (R := fun l l' => l.Sound ∧ l.Alike userId l')
    (P := fun l => l.Agree userId key key') ?_ ?_ h
  · rintro l l' e ⟨hsound, halike⟩ hagree
    obtain ⟨hnext, hanswer⟩ := alike_step hsound halike e hagree
    exact ⟨⟨sound_step hsound e, hnext⟩, hanswer⟩
  · refine ⟨hstart.sound, ⟨rfl, rfl, rfl, ?_⟩⟩
    rw [hstart.1]
    exact .nil

end Confined

/-! ## A trainee who fails -/

instance (key key' : Key κ) : DecidablePred (Fact.SameIn key key')
  | .verdict .. => inferInstanceAs (Decidable (_ ↔ _))
  | .hint .. => inferInstanceAs (Decidable (_ = _))
  | .answer .. => inferInstanceAs (Decidable (_ ∧ _))

/-- The second key has other answers, another explanation and another second hint. -/
def otherKey : Key ℕ := fun _ _ => ⟨.c, none, some "Think of equal keys.", none, none⟩

theorem sample_agree : ∀ before ∈ sampleEvents.inits,
    ∀ f ∈ ((service sampleOutside sampleKey).after sampleLedger before).found 7,
      f.SameIn sampleKey otherKey := by
  decide +kernel

theorem key_confined_sample :
    (service sampleOutside sampleKey).told (asks 7) sampleLedger sampleEvents =
      (service sampleOutside otherKey).told (asks 7) sampleLedger sampleEvents :=
  key_confined ⟨rfl, rfl⟩ fun before h => sample_agree before ((List.mem_inits before _).2 h)

end StudyAgent.Progress.AnswerKey
