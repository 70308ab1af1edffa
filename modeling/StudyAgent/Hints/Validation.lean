import StudyAgent.Base.OrderedDict
import StudyAgent.Base.Runs
import StudyAgent.Base.Text
import Mathlib.Data.List.Infix
import Mathlib.Logic.Basic

/-!
# The validation of hints, and its resumption

A hint run asks the model for the hints of a batch of questions, and checks them question by
question.  Hints that fail the rule are asked for again, a few times for each question; hints that
pass are staged on the question's row, and the questions that stay without hints are listed.  A
run that broke off is taken up at its last completed node.

Main results:

* `hintQualityIssue_eq_none` — the rule.
* `retryLoop_outcome` — one question ends with staged hints or with an error, never with both.
* `foldlM_progressed` — so does every question of a batch, and the others are left alone.
* `conserved_of_reachable` — **no question is lost, in a first validation or a resumed one.**
* `entry_without_row` — but a question that was deleted counts as written, and a negative
  limit loses questions.
-/

namespace StudyAgent.Hints

open Py OrderedDict Runs

/-! ## The rule -/

/-- The hints of one question, as the model gave them. -/
structure HintPayload where
  questionId : String
  hint1 : Value
  hint2 : Value
  hint3 : Value
  deriving DecidableEq

/-- `_BANNED_PHRASES`. -/
def bannedPhrases : List String := ["the correct answer is", "the answer is"]

/-- What the loop of `_hint_quality_issue` accepts. -/
def isCleanHint : Value → Bool
  | .str s => strip s ≠ "" && !bannedPhrases.any fun phrase => phrase.toList <:+: (lower s).toList
  | _ => false

/-- `_hint_quality_issue`. -/
def hintQualityIssue (h1 h2 h3 : Value) : Option String :=
  if !([h1, h2, h3].all isCleanHint) then some "hint_quality_error"
  else if (strip h3.text).length < (strip h1.text).length then some "hint_quality_error"
  else none

/-- The issue of the hints of a question. -/
def HintPayload.issue (hint : HintPayload) : Option String :=
  hintQualityIssue hint.hint1 hint.hint2 hint.hint3

/-- **The rule**: three texts, none of them blank or with a banned phrase, and the first no longer
than the third. -/
theorem hintQualityIssue_eq_none {h1 h2 h3 : Value} :
    hintQualityIssue h1 h2 h3 = none ↔
      (∀ h ∈ [h1, h2, h3], isCleanHint h = true) ∧
        (strip h1.text).length ≤ (strip h3.text).length := by
  rw [← List.all_eq_true, hintQualityIssue]
  by_cases hclean : [h1, h2, h3].all isCleanHint = true
  · simp [hclean]
  · simp only [Bool.not_eq_true] at hclean
    simp [hclean]

/-! ## The rows -/

/-- A row of `quiz_questions`, as far as hints are concerned. -/
structure QuestionRow where
  quizId : String
  hint1 : Value
  hint2 : Value
  hint3 : Value
  deriving DecidableEq

/-- The questions, and of each quiz whether it is published. -/
structure Database where
  questions : String → Option QuestionRow
  isPublished : String → Option Bool

/-- The hints of a question are these. -/
def QuestionRow.Has (row : QuestionRow) (hint : HintPayload) : Prop :=
  row.hint1 = hint.hint1 ∧ row.hint2 = hint.hint2 ∧ row.hint3 = hint.hint3

/-- `update_question_hints` with `commit=False`; `none` is its `RuntimeError`. -/
def Database.updateQuestionHints (db : Database) (qid : String) (hint : HintPayload) :
    Option Database :=
  match db.questions qid with
  | none => some db
  | some row =>
    match db.isPublished row.quizId with
    | some false =>
      some { db with
        questions := Function.update db.questions qid <| some
          { row with hint1 := hint.hint1, hint2 := hint.hint2, hint3 := hint.hint3 } }
    | _ => none

section

variable {db db' : Database} {qid : String} {hint : HintPayload}

/-- The other rows stay. -/
theorem updateQuestionHints_other (h : db.updateQuestionHints qid hint = some db') {q : String}
    (hq : q ≠ qid) : db'.questions q = db.questions q := by
  unfold Database.updateQuestionHints at h
  split at h
  · cases h
    rfl
  · split at h
    · cases h
      exact Function.update_of_ne hq _ _
    · simp at h

/-- **What is written is on the row**, if there is one. -/
theorem updateQuestionHints_has (h : db.updateQuestionHints qid hint = some db') :
    ∀ row ∈ db'.questions qid, row.Has hint := by
  intro row hrow
  unfold Database.updateQuestionHints at h
  split at h
  · next hnone =>
    cases h
    simp [hnone] at hrow
  · split at h
    · cases h
      simp only [Function.update_self, Option.mem_some_iff] at hrow
      subst hrow
      exact ⟨rfl, rfl, rfl⟩
    · simp at h

end

/-! ## One question -/

/-- An element of the array that a reply holds: an object with the fields read, or another value. -/
inductive ReplyItem where
  | other
  | object (questionId hint1 hint2 hint3 : Option Value)

/-- The loop of `_regenerate_hints_for_question` over the items of a reply. -/
def hintsOf (qid : String) : List ReplyItem → Option HintPayload
  | [] => none
  | .other :: items => hintsOf qid items
  | .object questionId hint1 hint2 hint3 :: items =>
    if getText questionId "None" ≠ qid then hintsOf qid items
    else
      match hint1, hint2, hint3 with
      | some hint1, some hint2, some hint3 => some ⟨qid, hint1, hint2, hint3⟩
      | _, _, _ => none

/-- `_regenerate_hints_for_question` on what the model answered: nothing, where the call failed or
the answer is no JSON array. -/
def regenerateHintsForQuestion (qid : String) (reply : Option (List ReplyItem)) :
    Option HintPayload :=
  reply.bind (hintsOf qid)

/-- `HintQuestionErrorOut`. -/
structure HintQuestionError where
  questionId : String
  errorType : String
  attempts : ℕ
  deriving DecidableEq

/-- The variables of `validate_hint_quality`, and the questions for which the model was asked. -/
structure Progress where
  db : Database
  validated : List HintPayload
  hintsWritten : List (String × HintPayload)
  questionErrors : List HintQuestionError
  asked : List String

/-- The payload of the question `qid`, if the hints pass. -/
def passing (qid : String) (hint : Option HintPayload) : Option HintPayload :=
  match hint with
  | some hint => if hint.issue = none then some { hint with questionId := qid } else none
  | none => none

/-- The hints of a question are staged. -/
def Progress.stage (p : Progress) (payload : HintPayload) : Option Progress :=
  (p.db.updateQuestionHints payload.questionId payload).map fun db =>
    { p with
      db := db
      validated := p.validated ++ [payload]
      hintsWritten := insert payload.questionId payload p.hintsWritten }

/-- The `while` loop of `validate_hint_quality`, with `left` retries to go.  The replies are
answers to the calls of one validation, in their order. -/
def retryLoop (replies : ℕ → Option (List ReplyItem)) (qid : String) (attempts : ℕ) :
    ℕ → Option HintPayload → Progress → Option Progress
  | left, hint, p =>
    match passing qid hint with
    | some payload => p.stage payload
    | none =>
      match left with
      | 0 =>
        some { p with
          questionErrors := p.questionErrors ++ [⟨qid, "hint_quality_error", attempts + 1⟩] }
      | left + 1 =>
        retryLoop replies qid (attempts + 1) left
          (regenerateHintsForQuestion qid (replies p.asked.length))
          { p with asked := p.asked ++ [qid] }

/-- The body of the loop over the questions. -/
def validateQuestion (replies : ℕ → Option (List ReplyItem)) (maxRetries : ℤ)
    (byQuestionId : List (String × HintPayload)) (p : Progress) (qid : String) :
    Option Progress :=
  if (get p.hintsWritten qid).isSome then some p
  else if maxRetries < 0 then some p
  else retryLoop replies qid 0 maxRetries.toNat (get byQuestionId qid) p

/-- How a question ends: with good hints that are staged, or with an error; the other questions
are left alone. -/
structure Outcome (retries : ℕ) (qid : String) (p p' : Progress) : Prop where
  ends : (∃ payload, payload.questionId = qid ∧ payload.issue = none ∧
      p'.hintsWritten = insert qid payload p.hintsWritten ∧
      p'.validated = p.validated ++ [payload] ∧ p'.questionErrors = p.questionErrors ∧
      ∀ row ∈ p'.db.questions qid, row.Has payload) ∨
    ∃ error, error.questionId = qid ∧ p'.hintsWritten = p.hintsWritten ∧
      p'.validated = p.validated ∧ p'.questionErrors = p.questionErrors ++ [error]
  others : ∀ q ≠ qid, p'.db.questions q = p.db.questions q ∧ p'.asked.count q = p.asked.count q
  asked : p'.asked.count qid ≤ p.asked.count qid + retries

section

variable {replies : ℕ → Option (List ReplyItem)} {maxRetries : ℤ} {qid : String}
  {hint : Option HintPayload} {payload : HintPayload} {p p' : Progress}

theorem passing_eq_some (h : passing qid hint = some payload) :
    payload.questionId = qid ∧ payload.issue = none := by
  cases hint with
  | none => simp [passing] at h
  | some hint =>
    simp only [passing, Option.ite_none_right_eq_some, Option.some.injEq] at h
    obtain ⟨hissue, rfl⟩ := h
    exact ⟨rfl, hissue⟩

theorem outcome_of_stage {retries : ℕ} (hgood : payload.issue = none)
    (h : p.stage payload = some p') : Outcome retries payload.questionId p p' := by
  obtain ⟨db, hdb, rfl⟩ := Option.map_eq_some_iff.1 h
  refine ⟨Or.inl ⟨payload, rfl, hgood, rfl, rfl, rfl, ?_⟩, fun q hq => ⟨?_, rfl⟩, ?_⟩
  · exact updateQuestionHints_has hdb
  · exact updateQuestionHints_other hdb hq
  · exact Nat.le_add_right _ _

/-- Hints that pass are staged at once. -/
theorem retryLoop_passing {attempts left : ℕ} (hpass : passing qid hint = some payload)
    (h : retryLoop replies qid attempts left hint p = some p') : Outcome left qid p p' := by
  obtain ⟨rfl, hgood⟩ := passing_eq_some hpass
  refine outcome_of_stage hgood ?_
  cases left with
  | zero => simpa only [retryLoop, hpass] using h
  | succ left => simpa only [retryLoop, hpass] using h

/-- **The retry loop ends one question**, and asks the model at most as often as it has retries. -/
theorem retryLoop_outcome {attempts left : ℕ}
    (h : retryLoop replies qid attempts left hint p = some p') : Outcome left qid p p' := by
  induction left generalizing attempts hint p with
  | zero =>
    cases hpass : passing qid hint with
    | some payload => exact retryLoop_passing hpass h
    | none =>
      simp only [retryLoop, hpass, Option.some.injEq] at h
      subst h
      exact ⟨Or.inr ⟨_, rfl, rfl, rfl, rfl⟩, fun q _ => ⟨rfl, rfl⟩, Nat.le_refl _⟩
  | succ left ih =>
    cases hpass : passing qid hint with
    | some payload => exact retryLoop_passing hpass h
    | none =>
      simp only [retryLoop, hpass] at h
      obtain ⟨hends, hothers, hasked⟩ := ih h
      refine ⟨hends, fun q hq => ⟨(hothers q hq).1, ?_⟩, ?_⟩
      · rw [(hothers q hq).2]
        simp [Ne.symm hq]
      · simp only [List.count_append, List.count_singleton_self] at hasked
        omega

/-- What the body of the loop does to a question without hints. -/
theorem validateQuestion_outcome (hmax : 0 ≤ maxRetries)
    {byQuestionId : List (String × HintPayload)} (hnew : get p.hintsWritten qid = none)
    (h : validateQuestion replies maxRetries byQuestionId p qid = some p') :
    Outcome maxRetries.toNat qid p p' := by
  rw [validateQuestion, hnew, if_neg (by simp), if_neg (not_lt.2 hmax)] at h
  exact retryLoop_outcome h

theorem validateQuestion_written {byQuestionId : List (String × HintPayload)}
    (hold : (get p.hintsWritten qid).isSome)
    (h : validateQuestion replies maxRetries byQuestionId p qid = some p') : p' = p := by
  rw [validateQuestion, if_pos hold] at h
  exact (Option.some.inj h).symm

end

/-! ## A batch -/

/-- What a pass over the questions `qs` has done since `p`. -/
structure Progressed (retries : ℕ) (qs : List String) (p p' : Progress) : Prop where
  kept : ∀ q hint, get p.hintsWritten q = some hint →
    get p'.hintsWritten q = some hint ∧ p'.db.questions q = p.db.questions q ∧
      p'.asked.count q = p.asked.count q
  entries : ∀ q hint, get p'.hintsWritten q = some hint → get p.hintsWritten q = none →
    q ∈ qs ∧ hint.issue = none ∧ ∀ row ∈ p'.db.questions q, row.Has hint
  others : ∀ q ∉ qs, p'.db.questions q = p.db.questions q ∧ p'.asked.count q = p.asked.count q
  validated : ∀ hint ∈ p'.validated, hint ∈ p.validated ∨
    get p.hintsWritten hint.questionId = none ∧ get p'.hintsWritten hint.questionId = some hint
  errorsKept : ∀ error ∈ p.questionErrors, error ∈ p'.questionErrors
  errors : ∀ error ∈ p'.questionErrors, error ∈ p.questionErrors ∨
    error.questionId ∈ qs ∧ get p'.hintsWritten error.questionId = none
  covered : ∀ q ∈ qs, (get p'.hintsWritten q).isSome ∨ q ∈ p'.questionErrors.map (·.questionId)
  asked : ∀ q, p'.asked.count q ≤ p.asked.count q + retries

theorem Progressed.refl (retries : ℕ) (p : Progress) : Progressed retries [] p p where
  kept := by simp
  entries := by simp +contextual
  others := by simp
  validated := by simp +contextual
  errorsKept := by simp
  errors := by simp +contextual
  covered := by simp
  asked := by simp

/-- A question that has hints is passed over. -/
theorem Progressed.cons_written {retries : ℕ} {qid : String} {qs : List String} {p p' : Progress}
    (hold : (get p.hintsWritten qid).isSome) (h : Progressed retries qs p p') :
    Progressed retries (qid :: qs) p p' where
  kept := h.kept
  entries := by
    intro q hint hq hnone
    obtain ⟨hmem, hrest⟩ := h.entries q hint hq hnone
    exact ⟨List.mem_cons_of_mem _ hmem, hrest⟩
  others := fun q hq => h.others q fun hmem => hq (List.mem_cons_of_mem _ hmem)
  validated := h.validated
  errorsKept := h.errorsKept
  errors := by
    intro error herror
    exact (h.errors error herror).imp_right fun ⟨hmem, hnone⟩ =>
      ⟨List.mem_cons_of_mem _ hmem, hnone⟩
  covered := by
    intro q hq
    rcases List.mem_cons.1 hq with rfl | hq
    · obtain ⟨hint, hhint⟩ := Option.isSome_iff_exists.1 hold
      exact Or.inl (by simp [(h.kept q hint hhint).1])
    · exact h.covered q hq
  asked := h.asked

/-- **One question more**: its outcome, then the pass over the questions behind it. -/
theorem Progressed.cons {retries : ℕ} {qid : String} {qs : List String} {p p₁ p' : Progress}
    (hfresh : qid ∉ qs) (hnew : get p.hintsWritten qid = none) (hone : Outcome retries qid p p₁)
    (h : Progressed retries qs p₁ p') : Progressed retries (qid :: qs) p p' := by
  obtain ⟨hends, hothers, hasked⟩ := hone
  -- the question itself is not looked at again
  obtain ⟨hrow, hcount⟩ := h.others qid hfresh
  have hget : ∀ q ≠ qid, get p₁.hintsWritten q = get p.hintsWritten q := by
    intro q hq
    rcases hends with ⟨payload, -, -, hwritten, -⟩ | ⟨error, -, hwritten, -⟩
    · rw [hwritten, get_insert, if_neg hq.symm]
    · rw [hwritten]
  constructor
  case kept =>
    intro q hint hq
    have hne : q ≠ qid := by
      rintro rfl
      simp [hnew] at hq
    obtain ⟨hkept, hsame, hasks⟩ := h.kept q hint ((hget q hne).trans hq)
    exact ⟨hkept, hsame.trans (hothers q hne).1, hasks.trans (hothers q hne).2⟩
  case entries =>
    intro q hint hq hnone
    by_cases hne : q = qid
    · subst hne
      rcases hends with ⟨payload, -, hgood, hwritten, -, -, hhas⟩ | ⟨error, -, hwritten, -⟩
      · have hentry : get p₁.hintsWritten q = some payload := by
          rw [hwritten, get_insert, if_pos rfl]
        obtain rfl : payload = hint := Option.some.inj ((h.kept q payload hentry).1.symm.trans hq)
        refine ⟨List.mem_cons_self, hgood, ?_⟩
        rwa [hrow]
      · have hstill : get p₁.hintsWritten q = none := by rw [hwritten, hnew]
        exact absurd (h.entries q hint hq hstill).1 hfresh
    · obtain ⟨hmem, hrest⟩ := h.entries q hint hq ((hget q hne).trans hnone)
      exact ⟨List.mem_cons_of_mem _ hmem, hrest⟩
  case others =>
    intro q hq
    obtain ⟨hne, hmem⟩ := not_or.1 fun hor => hq (List.mem_cons.2 hor)
    obtain ⟨hsame, hasks⟩ := h.others q hmem
    exact ⟨hsame.trans (hothers q hne).1, hasks.trans (hothers q hne).2⟩
  case validated =>
    intro hint hmem
    rcases h.validated hint hmem with hmem | ⟨hnone, hentry⟩
    · rcases hends with ⟨payload, rfl, -, hwritten, hvalidated, -⟩ | ⟨error, -, -, hvalidated, -⟩
      · rw [hvalidated, List.mem_append, List.mem_singleton] at hmem
        rcases hmem with hmem | rfl
        · exact Or.inl hmem
        · refine Or.inr ⟨hnew, (h.kept _ _ ?_).1⟩
          rw [hwritten, get_insert, if_pos rfl]
      · exact Or.inl (hvalidated ▸ hmem)
    · refine Or.inr ⟨?_, hentry⟩
      by_cases hne : hint.questionId = qid
      · rw [hne, hnew]
      · rw [← hget _ hne, hnone]
  case errorsKept =>
    intro error hmem
    refine h.errorsKept error ?_
    rcases hends with ⟨payload, -, -, -, -, herrors, -⟩ | ⟨new, -, -, -, herrors⟩
    · rwa [herrors]
    · rw [herrors]
      exact List.mem_append_left _ hmem
  case errors =>
    intro error hmem
    rcases h.errors error hmem with hmem | ⟨hmem, hnone⟩
    · rcases hends with ⟨payload, -, -, -, -, herrors, -⟩ | ⟨new, hid, hwritten, -, herrors⟩
      · exact Or.inl (herrors ▸ hmem)
      · rw [herrors, List.mem_append, List.mem_singleton] at hmem
        rcases hmem with hmem | rfl
        · exact Or.inl hmem
        · rw [hid]
          refine Or.inr ⟨List.mem_cons_self, ?_⟩
          by_contra hsome
          obtain ⟨hint, hhint⟩ := Option.ne_none_iff_exists'.1 hsome
          exact hfresh (h.entries qid hint hhint (by rw [hwritten, hnew])).1
    · exact Or.inr ⟨List.mem_cons_of_mem _ hmem, hnone⟩
  case covered =>
    intro q hq
    rcases List.mem_cons.1 hq with rfl | hq
    · rcases hends with ⟨payload, -, -, hwritten, -⟩ | ⟨error, hid, -, -, herrors⟩
      · refine Or.inl ?_
        rw [(h.kept q payload (by rw [hwritten, get_insert, if_pos rfl])).1]
        rfl
      · refine Or.inr (List.mem_map.2 ⟨error, h.errorsKept error ?_, hid⟩)
        simp [herrors]
    · exact h.covered q hq
  case asked =>
    intro q
    by_cases hne : q = qid
    · rw [hne, hcount]
      exact hasked
    · rw [← (hothers q hne).2]
      exact h.asked q

/-- **Every question of a batch ends**, and the questions that had hints are left alone. -/
theorem foldlM_progressed {replies : ℕ → Option (List ReplyItem)} {maxRetries : ℤ}
    (hmax : 0 ≤ maxRetries) {byQuestionId : List (String × HintPayload)} {qs : List String}
    (hqs : qs.Nodup) {p p' : Progress}
    (h : qs.foldlM (validateQuestion replies maxRetries byQuestionId) p = some p') :
    Progressed maxRetries.toNat qs p p' := by
  induction qs generalizing p with
  | nil =>
    cases h
    exact .refl _ _
  | cons qid qs ih =>
    obtain ⟨hfresh, hqs⟩ := List.nodup_cons.1 hqs
    obtain ⟨p₁, hone, hrest⟩ := Option.bind_eq_some_iff.1 h
    by_cases hold : (get p.hintsWritten qid).isSome
    · obtain rfl := validateQuestion_written hold hone
      exact .cons_written hold (ih hqs hrest)
    · have hnew : get p.hintsWritten qid = none := Option.not_isSome_iff_eq_none.1 hold
      exact .cons hfresh hnew (validateQuestion_outcome hmax hnew hone) (ih hqs hrest)

/-! ## The node -/

/-- The fields of `HintGraphState` that the validation and the routing read; a field that is not
set is as good as an empty one to all of them.  Of the questions there are the ids. -/
structure HintState where
  questionsForHinting : List String
  promptInput : Bool
  rawLlmOutput : Option String
  parsedHints : List HintPayload
  validatedHints : List HintPayload
  hintsWritten : List (String × HintPayload)
  failedQuestionIds : List String
  hintGenerationDiagnostics : Option (List HintQuestionError)
  terminalLlmFailure : Bool
  error : Option String

/-- What a validation returns, the rows as it has left them and the questions it has asked for. -/
structure Validation where
  state : HintState
  db : Database
  asked : List String

/-- The questions that `validate_hint_quality` looks at. -/
def HintState.pending (state : HintState) : List String :=
  if state.failedQuestionIds ≠ [] then
    state.questionsForHinting.filter fun q => q ∈ state.failedQuestionIds
  else state.questionsForHinting.filter fun q => (get state.hintsWritten q).isNone

/-- `validate_hint_quality`; `none` is an exception of the repository. -/
def validateHintQuality (replies : ℕ → Option (List ReplyItem)) (maxRetries : ℤ)
    (state : HintState) (db : Database) : Option Validation :=
  if ¬ (state.parsedHints.map (·.questionId)).Nodup then
    some
      { state :=
          { state with
            error := some "Hint validation failed: duplicate question_id in LLM output." }
        db := db
        asked := [] }
  else
    (state.pending.foldlM
      (validateQuestion replies maxRetries (ofList (·.questionId) state.parsedHints))
      { db := db
        validated := []
        hintsWritten := state.hintsWritten
        questionErrors := []
        asked := [] }).map fun p =>
      { state :=
          { state with
            validatedHints := p.validated
            hintsWritten := p.hintsWritten
            failedQuestionIds := p.questionErrors.map (·.questionId)
            hintGenerationDiagnostics :=
              if p.questionErrors = [] then none else some p.questionErrors }
        db := p.db
        asked := p.asked }

/-! ## What a validation conserves -/

/-- The checkpoint between two validations: its hints have passed, and once a question has failed
each is either written or failed. -/
structure Sound (state : HintState) : Prop where
  nodup : state.questionsForHinting.Nodup
  good : ∀ q hint, get state.hintsWritten q = some hint → hint.issue = none
  failed : state.failedQuestionIds ≠ [] → ∀ q ∈ state.questionsForHinting,
    q ∈ state.failedQuestionIds ↔ get state.hintsWritten q = none
  flushed : ∀ hint ∈ state.validatedHints, (get state.hintsWritten hint.questionId).isSome

/-- **What a validation conserves.** -/
structure Conserved (maxRetries : ℤ) (state : HintState) (db : Database) (out : Validation) :
    Prop where
  one : ∀ q ∈ state.questionsForHinting,
    Xor (get out.state.hintsWritten q).isSome (q ∈ out.state.failedQuestionIds)
  good : ∀ q hint, get out.state.hintsWritten q = some hint → hint.issue = none
  staged : ∀ q hint, get out.state.hintsWritten q = some hint → get state.hintsWritten q = none →
    ∀ row ∈ out.db.questions q, row.Has hint
  kept : ∀ q hint, get state.hintsWritten q = some hint →
    get out.state.hintsWritten q = some hint ∧ out.db.questions q = db.questions q ∧
      q ∉ out.state.validatedHints.map (·.questionId) ∧ q ∉ out.asked
  retries : ∀ q, (out.asked.count q : ℤ) ≤ maxRetries

section

variable {replies : ℕ → Option (List ReplyItem)} {maxRetries : ℤ} {state : HintState}
  {db : Database} {out : Validation}

/-- **Both filters leave the questions without hints.** -/
theorem mem_pending (h : Sound state) {q : String} :
    q ∈ state.pending ↔ q ∈ state.questionsForHinting ∧ get state.hintsWritten q = none := by
  rw [HintState.pending]
  split_ifs with hfailed
  · rw [List.mem_filter, decide_eq_true_eq]
    exact and_congr_right fun hq => h.failed hfailed q hq
  · rw [List.mem_filter, Option.isNone_iff_eq_none]

theorem nodup_pending (h : Sound state) : state.pending.Nodup := by
  rw [HintState.pending]
  split_ifs <;> exact h.nodup.filter _

/-- A validation that returns no error has passed over the questions that were pending. -/
theorem validateHintQuality_progressed (hmax : 0 ≤ maxRetries) (h : Sound state)
    (hout : validateHintQuality replies maxRetries state db = some out)
    (herror : out.state.error = none) :
    ∃ p, Progressed maxRetries.toNat state.pending ⟨db, [], state.hintsWritten, [], []⟩ p ∧
      out.state.questionsForHinting = state.questionsForHinting ∧
      out.state.validatedHints = p.validated ∧ out.state.hintsWritten = p.hintsWritten ∧
      out.state.failedQuestionIds = p.questionErrors.map (·.questionId) ∧
      out.db = p.db ∧ out.asked = p.asked := by
  unfold validateHintQuality at hout
  split_ifs at hout with hdup
  · obtain ⟨p, hp, rfl⟩ := Option.map_eq_some_iff.1 hout
    exact ⟨p, foldlM_progressed hmax (nodup_pending h) hp, rfl, rfl, rfl, rfl, rfl, rfl⟩
  · cases hout
    simp at herror

/-- A question is written after the validation, or it has failed. -/
theorem failed_iff (hmax : 0 ≤ maxRetries) (h : Sound state)
    (hout : validateHintQuality replies maxRetries state db = some out)
    (herror : out.state.error = none) {q : String} (hq : q ∈ state.questionsForHinting) :
    q ∈ out.state.failedQuestionIds ↔ get out.state.hintsWritten q = none := by
  obtain ⟨p, hp, -, -, hwritten, hfailed, -, -⟩ :=
    validateHintQuality_progressed hmax h hout herror
  rw [hfailed, hwritten]
  constructor
  · intro hmem
    obtain ⟨error, herr, rfl⟩ := List.mem_map.1 hmem
    rcases hp.errors error herr with hnil | ⟨-, hnone⟩
    · simp at hnil
    · exact hnone
  · intro hnone
    cases hold : get state.hintsWritten q with
    | some hint =>
      have hkept := (hp.kept q hint hold).1
      simp [hnone] at hkept
    | none =>
      rcases hp.covered q ((mem_pending h).2 ⟨hq, hold⟩) with hsome | hmem
      · simp [hnone] at hsome
      · exact hmem

theorem good_of_validate (hmax : 0 ≤ maxRetries) (h : Sound state)
    (hout : validateHintQuality replies maxRetries state db = some out)
    (herror : out.state.error = none) {q : String} {hint : HintPayload}
    (hq : get out.state.hintsWritten q = some hint) : hint.issue = none := by
  obtain ⟨p, hp, -, -, hwritten, -⟩ := validateHintQuality_progressed hmax h hout herror
  rw [hwritten] at hq
  cases hold : get state.hintsWritten q with
  | none => exact (hp.entries q hint hq hold).2.1
  | some old =>
    obtain rfl : old = hint := Option.some.inj ((hp.kept q old hold).1.symm.trans hq)
    exact h.good q old hold

/-- **A validation keeps the checkpoint sound.** -/
theorem Sound.validate (hmax : 0 ≤ maxRetries) (h : Sound state)
    (hout : validateHintQuality replies maxRetries state db = some out)
    (herror : out.state.error = none) : Sound out.state := by
  obtain ⟨p, hp, hquestions, hvalidated, hwritten, -⟩ :=
    validateHintQuality_progressed hmax h hout herror
  refine ⟨?_, fun q hint => good_of_validate hmax h hout herror, fun _ q hq => ?_, ?_⟩
  · rw [hquestions]
    exact h.nodup
  · rw [hquestions] at hq
    exact failed_iff hmax h hout herror hq
  · rw [hvalidated, hwritten]
    intro hint hmem
    rcases hp.validated hint hmem with hnil | ⟨-, hentry⟩
    · simp at hnil
    · simp [hentry]

theorem conserved_of_sound (hmax : 0 ≤ maxRetries) (h : Sound state)
    (hout : validateHintQuality replies maxRetries state db = some out)
    (herror : out.state.error = none) : Conserved maxRetries state db out := by
  obtain ⟨p, hp, -, hvalidated, hwritten, -, hdb, hasked⟩ :=
    validateHintQuality_progressed hmax h hout herror
  refine ⟨fun q hq => ?_, fun q hint => good_of_validate hmax h hout herror, ?_, ?_, fun q => ?_⟩
  · rw [failed_iff hmax h hout herror hq]
    cases get out.state.hintsWritten q <;> simp [Xor]
  · intro q hint hq hnone
    rw [hwritten] at hq
    rw [hdb]
    exact (hp.entries q hint hq hnone).2.2
  · intro q hint hq
    obtain ⟨hkept, hrow, hcount⟩ := hp.kept q hint hq
    rw [hwritten, hdb, hvalidated, hasked]
    refine ⟨hkept, hrow, ?_, ?_⟩
    · intro hmem
      obtain ⟨new, hnew, rfl⟩ := List.mem_map.1 hmem
      rcases hp.validated new hnew with hnil | ⟨hnone, -⟩
      · simp at hnil
      · simp [hq] at hnone
    · exact List.count_eq_zero.1 hcount
  · have hcount := hp.asked q
    simp only [List.count_nil, Nat.zero_add] at hcount
    rw [hasked]
    omega

end

/-! ## Resumed runs -/

/-- The nodes of the hint graph. -/
inductive HintNode where
  | loadHintContext
  | buildHintPromptPayload
  | invokeHintLlm
  | parseHintOutput
  | validateHintQuality
  | persistHintsToQuestions
  | persistHintFailureDiagnostics
  deriving DecidableEq

/-- `resolve_resume_next_node`; a checkpoint whose node is not one of the graph's has none. -/
def resolveResumeNextNode (state : HintState) : Option HintNode → HintNode
  | none => .loadHintContext
  | some .loadHintContext =>
    if state.questionsForHinting = [] then .loadHintContext else .buildHintPromptPayload
  | some .buildHintPromptPayload =>
    if state.promptInput then .invokeHintLlm else .buildHintPromptPayload
  | some .invokeHintLlm =>
    if state.terminalLlmFailure then .persistHintFailureDiagnostics
    else if state.rawLlmOutput.getD "" ≠ "" then .parseHintOutput
    else .invokeHintLlm
  | some .parseHintOutput =>
    if state.error.getD "" ≠ "" then
      if state.rawLlmOutput.getD "" ≠ "" then .parseHintOutput else .invokeHintLlm
    else .validateHintQuality
  | some .validateHintQuality =>
    if state.failedQuestionIds.any fun q => (get state.hintsWritten q).isNone then
      .validateHintQuality
    else if state.questionsForHinting.any fun q => (get state.hintsWritten q).isNone then
      .validateHintQuality
    else .persistHintsToQuestions
  | some .persistHintsToQuestions => .persistHintsToQuestions
  | some .persistHintFailureDiagnostics => .persistHintFailureDiagnostics

/-- What `persist_hints_to_questions` writes before it commits. -/
def persistHintsToQuestions (state : HintState) (db : Database) : Option Database :=
  (state.validatedHints.filter fun hint => (get state.hintsWritten hint.questionId).isNone).foldlM
    (fun db hint => db.updateQuestionHints hint.questionId hint) db

/-- A hint run: its checkpoint, the last node that it has completed, and the questions. -/
structure System where
  state : HintState
  last : HintNode
  db : Database

/-- The run validates, with these answers of the model, or it persists, or others change the
questions.  Rows that are written stay locked to the commit and a validation reads each row once,
so what others change meanwhile might as well have come before. -/
inductive Event where
  | validate (replies : ℕ → Option (List ReplyItem))
  | persist
  | others (db : Database)

/-- A node that raises or returns an error leaves no checkpoint. -/
def step (maxRetries : ℤ) (sys : System) : Event → Option System
  | .validate replies =>
    (validateHintQuality replies maxRetries sys.state sys.db).map fun out =>
      if out.state.error = none then ⟨out.state, .validateHintQuality, out.db⟩
      else { sys with db := out.db }
  | .persist =>
    (persistHintsToQuestions sys.state sys.db).map fun db =>
      { sys with last := .persistHintsToQuestions, db := db }
  | .others db => some { sys with db := db }

/-- The edges of the graph, and those of a resumption. -/
def Goes (sys : System) : Event → Prop
  | .validate _ => resolveResumeNextNode sys.state (some sys.last) = .validateHintQuality
  | .persist =>
    sys.last = .validateHintQuality ∨
      resolveResumeNextNode sys.state (some sys.last) = .persistHintsToQuestions
  | .others _ => True

/-- A run whose output was parsed; hints that it has already written have passed. -/
structure Parsed (sys : System) : Prop where
  last : sys.last = .parseHintOutput
  nodup : sys.state.questionsForHinting.Nodup
  good : ∀ q hint, get sys.state.hintsWritten q = some hint → hint.issue = none
  failed : sys.state.failedQuestionIds = []
  validated : sys.state.validatedHints = []

theorem Parsed.sound {sys : System} (h : Parsed sys) : Sound sys.state where
  nodup := h.nodup
  good := h.good
  failed := fun hne => absurd h.failed hne
  flushed := by simp [h.validated]

/-- Nothing is left to write when the hints are committed. -/
theorem persist_writes_nothing {state : HintState} (h : Sound state) (db : Database) :
    persistHintsToQuestions state db = some db := by
  have hnone : (state.validatedHints.filter fun hint =>
      (get state.hintsWritten hint.questionId).isNone) = [] := by
    refine List.filter_eq_nil_iff.2 fun hint hmem => ?_
    have hsome := h.flushed hint hmem
    rw [Option.isSome_iff_ne_none] at hsome
    simpa using hsome
  rw [persistHintsToQuestions, hnone]
  rfl

/-- **A resumption validates again exactly as long as a question is without hints.** -/
theorem resume_validates_iff {state : HintState} (h : Sound state) :
    resolveResumeNextNode state (some .validateHintQuality) = .validateHintQuality ↔
      (∃ q ∈ state.failedQuestionIds, get state.hintsWritten q = none) ∨ state.pending ≠ [] := by
  have hpending : state.pending ≠ [] ↔
      ∃ q ∈ state.questionsForHinting, get state.hintsWritten q = none := by
    constructor
    · intro hne
      obtain ⟨q, hq⟩ := List.exists_mem_of_ne_nil _ hne
      exact ⟨q, (mem_pending h).1 hq⟩
    · rintro ⟨q, hq⟩
      exact List.ne_nil_of_mem ((mem_pending h).2 hq)
  rw [hpending, resolveResumeNextNode]
  simp only [List.any_eq_true, Option.isNone_iff_eq_none]
  split_ifs with hfailed hquestions
  · exact iff_of_true rfl (Or.inl hfailed)
  · exact iff_of_true rfl (Or.inr hquestions)
  · exact iff_of_false (by simp) fun hor => hor.elim hfailed hquestions

section

variable {maxRetries : ℤ} {sys sys' : System}

theorem Sound.step (hmax : 0 ≤ maxRetries) {e : Event} (h : Sound sys.state)
    (hstep : step maxRetries sys e = some sys') : Sound sys'.state := by
  cases e with
  | validate replies =>
    obtain ⟨out, hout, rfl⟩ := Option.map_eq_some_iff.1 hstep
    split_ifs with herror
    · exact h.validate hmax hout herror
    · exact h
  | persist =>
    obtain ⟨db, hdb, rfl⟩ := Option.map_eq_some_iff.1 hstep
    exact h
  | others db =>
    cases hstep
    exact h

theorem sound_of_reachable (hmax : 0 ≤ maxRetries)
    (h : Reachable (Hints.step maxRetries) Goes Parsed sys) : Sound sys.state :=
  h.invariant (fun _ hs => hs.sound) fun _ _ _ hs _ hstep => hs.step hmax hstep

/-- **No question is lost.**  However often a run was resumed, after a validation without error
every question of the batch has hints or has failed and none both; the hints pass, those that are
new are on their question's row if it is still there, the others were not touched; and for no
question was the model asked more often than the limit says. -/
theorem conserved_of_reachable (hmax : 0 ≤ maxRetries)
    (h : Reachable (Hints.step maxRetries) Goes Parsed sys)
    {replies : ℕ → Option (List ReplyItem)} {out : Validation}
    (hout : validateHintQuality replies maxRetries sys.state sys.db = some out)
    (herror : out.state.error = none) : Conserved maxRetries sys.state sys.db out :=
  conserved_of_sound hmax (sound_of_reachable hmax h) hout herror

end

/-! ## Why there are provisos -/

/-- Hints that pass. -/
def hints : HintPayload := ⟨"q", .str "Look.", .str "Look closer.", .str "Look at the loop."⟩

/-- A run whose output was parsed, with one question. -/
def parsedRun (db : Database) : System where
  state :=
    { questionsForHinting := ["q"]
      promptInput := true
      rawLlmOutput := some "[...]"
      parsedHints := [hints]
      validatedHints := []
      hintsWritten := []
      failedQuestionIds := []
      hintGenerationDiagnostics := none
      terminalLlmFailure := false
      error := none }
  last := .parseHintOutput
  db := db

/-- A quiz that is not published, with one question. -/
def oneRow : Database where
  questions q := if q = "q" then some ⟨"quiz", .null, .null, .null⟩ else none
  isPublished _ := some false

/-- A quiz whose questions were replaced meanwhile. -/
def noRows : Database := ⟨fun _ => none, fun _ => some false⟩

theorem parsed_parsedRun (db : Database) : Parsed (parsedRun db) where
  last := rfl
  nodup := List.nodup_singleton _
  good := by simp [parsedRun]
  failed := rfl
  validated := rfl

/-- The hints of a question whose row was deleted count as written, and with a negative limit of
retries a question whose hints pass is in neither list. -/
theorem entry_without_row :
    (∃ out, validateHintQuality (fun _ => none) 2 (parsedRun noRows).state noRows = some out ∧
      Parsed (parsedRun noRows) ∧ out.state.error = none ∧
      get out.state.hintsWritten "q" = some hints ∧ out.db.questions "q" = none) ∧
    ∃ out, validateHintQuality (fun _ => none) (-1) (parsedRun oneRow).state oneRow = some out ∧
      Parsed (parsedRun oneRow) ∧ out.state.error = none ∧
      get out.state.hintsWritten "q" = none ∧ "q" ∉ out.state.failedQuestionIds := by
  refine ⟨⟨_, rfl, parsed_parsedRun _, rfl, rfl, rfl⟩, _, rfl, parsed_parsedRun _, rfl, rfl, ?_⟩
  simp

/-- Three questions without hints. -/
def threeRows : Database where
  questions q := if q ∈ ["w", "f", "r"] then some ⟨"quiz", .null, .null, .null⟩ else none
  isPublished _ := some false

/-- The output of the model has hints for the first of three questions. -/
def threeQuestions : System where
  state :=
    { (parsedRun threeRows).state with
      questionsForHinting := ["w", "f", "r"]
      parsedHints := [{ hints with questionId := "w" }] }
  last := .parseHintOutput
  db := threeRows

/-- The second request is answered, with hints for the last question. -/
def secondAnswered (n : ℕ) : Option (List ReplyItem) :=
  if n = 1 then
    some [.object (some (.str "r")) (some hints.hint1) (some hints.hint2) (some hints.hint3)]
  else none

/-- The first validation leaves two questions without hints.  In the resumption one fails again,
and one gets hints. -/
theorem resumed_run_conserved :
    ∃ sys out, Reachable (Hints.step 1) Goes Parsed sys ∧
      (get sys.state.hintsWritten "w").isSome ∧ sys.state.failedQuestionIds = ["f", "r"] ∧
      validateHintQuality secondAnswered 1 sys.state sys.db = some out ∧
      (get out.state.hintsWritten "r").isSome ∧ out.state.failedQuestionIds = ["f"] ∧
      out.asked = ["f", "r"] ∧ Conserved 1 sys.state sys.db out := by
  have hparsed : Parsed threeQuestions :=
    ⟨rfl, by decide, fun q hint hq => by simp [threeQuestions, parsedRun] at hq, rfl, rfl⟩
  have hgoes : Goes threeQuestions (.validate fun _ => none) := rfl
  obtain ⟨sys, hfirst, hwritten, hfailed, out, hout, hnew, hagain, hasked, herror⟩ :
      ∃ sys, Hints.step 1 threeQuestions (.validate fun _ => none) = some sys ∧
        (get sys.state.hintsWritten "w").isSome ∧ sys.state.failedQuestionIds = ["f", "r"] ∧
        ∃ out, validateHintQuality secondAnswered 1 sys.state sys.db = some out ∧
          (get out.state.hintsWritten "r").isSome ∧ out.state.failedQuestionIds = ["f"] ∧
          out.asked = ["f", "r"] ∧ out.state.error = none :=
    ⟨_, rfl, rfl, rfl, _, rfl, rfl, rfl, rfl, rfl⟩
  have hreached : Reachable (Hints.step 1) Goes Parsed sys := .next (.init hparsed) hgoes hfirst
  exact ⟨sys, out, hreached, hwritten, hfailed, hout, hnew, hagain, hasked,
    conserved_of_reachable (by decide) hreached hout herror⟩

end StudyAgent.Hints
