import StudyAgent.Quiz.Question

/-!
# Deterministic quiz checks

The checks that a quiz has to pass before it is sent to the verifier: the requested number of
questions, every field filled, a marked option that is there, and stems that differ.

Main results:

* `failedChecks_runDeterministicQuizChecks` — **no check fails iff the quiz is sound**.
* `mem_runDeterministicQuizChecks` — no deterministic check bears on the answer of a question.
-/

namespace StudyAgent.Quiz

open Py

/-- The categories of checks. -/
inductive Category where
  | answerCorrectness
  | questionQuality
  | difficultyAlignment
  | duplicateOverlap
  | quizCoherence
  deriving DecidableEq

def Category.name : Category → String
  | answerCorrectness => "answer_correctness"
  | questionQuality => "question_quality"
  | difficultyAlignment => "difficulty_alignment"
  | duplicateOverlap => "duplicate_overlap"
  | quizCoherence => "quiz_coherence"

/-- `PER_QUESTION_CATEGORIES`. -/
def PER_QUESTION_CATEGORIES : List Category := [.answerCorrectness, .questionQuality]

/-- `LLM_QUIZ_WIDE_CATEGORIES`. -/
def LLM_QUIZ_WIDE_CATEGORIES : List Category := [.difficultyAlignment, .duplicateOverlap]

/-- `QUIZ_WIDE_CATEGORIES`. -/
def QUIZ_WIDE_CATEGORIES : List Category := LLM_QUIZ_WIDE_CATEGORIES ++ [.quizCoherence]

inductive Severity where
  | critical
  | major
  deriving DecidableEq

def Severity.name : Severity → String
  | critical => "critical"
  | major => "major"

/-- One check of a quality check.  A check of the whole quiz has no question id. -/
structure Check where
  id : String
  category : Category
  passed : Bool
  severity : Severity
  evidence : String
  correctiveHint : String
  questionId : Option String := none
  deriving DecidableEq

/-- `str(check.get("question_id", "")).strip()`. -/
def Check.question (c : Check) : String := strip (c.questionId.getD "")

/-- `extract_failed_checks`. -/
def extractFailedChecks (checks : List Check) : List Check := checks.filter fun c => !c.passed

@[simp] theorem mem_extractFailedChecks {checks : List Check} {c : Check} :
    c ∈ extractFailedChecks checks ↔ c ∈ checks ∧ c.passed = false := by
  simp [extractFailedChecks]

/-! ## The checks of one question -/

/-- `_VALID_CORRECT_OPTIONS`. -/
def VALID_CORRECT_OPTIONS : List Value := [.str "A", .str "B", .str "C", .str "D"]

/-- `_blank_str`. -/
def blankStr (v : Value) : Bool :=
  match v with
  | .str s => strip s = ""
  | _ => true

/-- A list or an object, which cannot be looked up in a set. -/
def isContainer (v : Value) : Bool :=
  match v with
  | .other text _ _ => startsWith text "[" || startsWith text "\x7b"
  | _ => false

/-- The fields of a question, by name. -/
def Content.required (q : Content) : List (String × Value) :=
  [("question_text", q.questionText), ("option_a", q.optionA), ("option_b", q.optionB),
    ("option_c", q.optionC), ("option_d", q.optionD), ("correct_option", q.correctOption),
    ("explanation", q.explanation)]

/-- The option that is marked. -/
def Content.marked (q : Content) : Value :=
  if q.correctOption = .str "A" then q.optionA
  else if q.correctOption = .str "B" then q.optionB
  else if q.correctOption = .str "C" then q.optionC
  else q.optionD

/-- `text_key`. -/
def Content.stem (q : Content) : String := strip (getTextOr (some q.questionText))

/-- A failed check of the structure of one question. -/
def structuralFailure (q : Question) (id evidence hint : String) : Check where
  id := id
  category := .quizCoherence
  passed := false
  severity := .critical
  evidence := evidence
  correctiveHint := hint
  questionId := some q.id

section

variable (L : Library)

/-- `repr(x)`. -/
def reprValue (v : Value) : String :=
  match v with
  | .str s => repr L.printable s
  | v => v.text

/-- What `det_quiz_coherence` finds in the question with number `qnum`, after the stems
`seen`. -/
def questionFailures (seen : List String) (qnum : ℕ) (q : Question) : List Check :=
  let n := toString qnum
  let missing := q.required.filterMap fun field =>
    if field.2 = .null ∨ field.2 = .str "" ∨ blankStr field.2 then
      some (structuralFailure q ("det_missing_" ++ field.1 ++ "_" ++ n)
        ("Question " ++ n ++ " is missing or blank: " ++ field.1 ++ ".")
        (if field.1 = "option_c" ∨ field.1 = "option_d" then "All four options (A–D) are required."
          else "Provide a non-empty " ++ field.1 ++ "."))
    else none
  let blankRequired :=
    if blankStr q.optionA ∨ blankStr q.optionB then
      [structuralFailure q ("det_blank_required_option_" ++ n)
        ("Question " ++ n ++ " has blank required options.")
        "Fill option_a and option_b with plausible distractors."]
    else []
  let missingCD :=
    if q.optionC = .null ∨ blankStr q.optionC ∨ q.optionD = .null ∨ blankStr q.optionD then
      [structuralFailure q ("det_missing_option_c_d_" ++ n)
        ("Question " ++ n ++ " is missing option_c or option_d.")
        "All four options (A–D) are required."]
    else []
  let marked :=
    if q.correctOption ∉ VALID_CORRECT_OPTIONS then
      [structuralFailure q ("det_invalid_correct_option_" ++ n)
        ("Invalid correct_option " ++ reprValue L q.correctOption ++ ".")
        "Set correct_option to A, B, C, or D."]
    else if q.marked = .null ∨ blankStr q.marked then
      [structuralFailure q ("det_correct_option_missing_target_" ++ n)
        ("correct_option " ++ q.correctOption.text ++ " points to a missing or blank option.")
        "Ensure correct_option references a filled option letter."]
    else []
  let unexplained :=
    if blankStr q.explanation then
      [structuralFailure q ("det_blank_explanation_" ++ n)
        ("Question " ++ n ++ " has a missing or empty explanation.")
        "Provide a teaching explanation for the correct answer."]
    else []
  let duplicate :=
    if q.stem ≠ "" ∧ q.stem ∈ seen then
      [{ id := "det_duplicate_stem_" ++ n
         category := .duplicateOverlap
         passed := false
         severity := .major
         evidence := "Duplicate question_text for question " ++ n ++ "."
         correctiveHint := "Rewrite or remove the duplicate stem."
         questionId := some q.id }]
    else []
  missing ++ blankRequired ++ missingCD ++ marked ++ unexplained ++ duplicate

/-- The loop of `det_quiz_coherence`.  A marked option that is a list or an object raises. -/
def coherenceFrom : List String → ℕ → List Question → Option (List Check)
  | _, _, [] => some []
  | seen, index, q :: questions =>
    if isContainer q.correctOption then none
    else
      (coherenceFrom (if q.stem = "" then seen else q.stem :: seen) (index + 1) questions).map
        (questionFailures L seen (index + 1) q ++ ·)

/-- `det_quiz_coherence`. -/
def detQuizCoherence (questions : List Question) : Option (List Check) :=
  coherenceFrom L [] 0 questions

end

/-- `det_question_count`. -/
def detQuestionCount (questions : List Question) (expectedCount : ℕ) : Check :=
  let actual := questions.length
  let n := toString expectedCount
  let returned := "You returned " ++ toString actual ++ " questions but the required count is " ++
    n ++ ". "
  { id := "det_question_count"
    category := .quizCoherence
    passed := actual = expectedCount
    severity := .critical
    evidence :=
      if actual ≠ expectedCount then
        "Found " ++ toString actual ++ " questions; expected " ++ n ++ "."
      else "Question count matches requested " ++ n ++ "."
    correctiveHint :=
      if actual = expectedCount then ""
      else if actual < expectedCount then
        returned ++ "Add " ++ toString (expectedCount - actual) ++
          " more distinct question(s) and return exactly " ++ n ++
          " objects in the \"questions\" array — not a partial set and not an addendum to the " ++
          "previous draft."
      else
        returned ++ "Remove " ++ toString (actual - expectedCount) ++
          " question(s) and return exactly " ++ n ++ " objects in the \"questions\" array." }

/-- `run_deterministic_quiz_checks`. -/
def runDeterministicQuizChecks (L : Library) (questions : List Question) (expectedCount : ℕ) :
    Option (List Check) :=
  (detQuizCoherence L questions).map (detQuestionCount questions expectedCount :: ·)

/-! ## Soundness -/

/-- A question with all its fields, one of whose options is marked. -/
structure Content.Sound (q : Content) : Prop where
  filled : ∀ field ∈ q.required, blankStr field.2 = false
  valid : q.correctOption ∈ VALID_CORRECT_OPTIONS

instance (q : Content) : Decidable q.Sound :=
  decidable_of_iff ((∀ field ∈ q.required, blankStr field.2 = false) ∧
    q.correctOption ∈ VALID_CORRECT_OPTIONS) ⟨fun h => ⟨h.1, h.2⟩, fun h => ⟨h.1, h.2⟩⟩

/-- A quiz of the requested length, of sound questions with different stems. -/
structure Sound (questions : List Question) (expectedCount : ℕ) : Prop where
  count : questions.length = expectedCount
  sound : ∀ q ∈ questions, q.toContent.Sound
  distinct : (questions.map fun q => q.stem).Nodup

instance (questions : List Question) (n : ℕ) : Decidable (Sound questions n) :=
  decidable_of_iff (questions.length = n ∧ (∀ q ∈ questions, q.toContent.Sound) ∧
    (questions.map fun q => q.stem).Nodup)
    ⟨fun h => ⟨h.1, h.2.1, h.2.2⟩, fun h => ⟨h.1, h.2, h.3⟩⟩

theorem not_isContainer_of_valid {v : Value} (h : v ∈ VALID_CORRECT_OPTIONS) :
    isContainer v = false := by
  simp only [VALID_CORRECT_OPTIONS, List.mem_cons, List.not_mem_nil, or_false] at h
  rcases h with rfl | rfl | rfl | rfl <;> rfl

/-- The marked option is one of the options. -/
theorem Content.marked_mem (q : Content) : ∃ name, (name, q.marked) ∈ q.required := by
  unfold Content.marked
  split_ifs
  · exact ⟨"option_a", by simp [Content.required]⟩
  · exact ⟨"option_b", by simp [Content.required]⟩
  · exact ⟨"option_c", by simp [Content.required]⟩
  · exact ⟨"option_d", by simp [Content.required]⟩

theorem stem_ne_empty {q : Content} (h : blankStr q.questionText = false) : q.stem ≠ "" := by
  unfold Content.stem
  cases hv : q.questionText with
  | str s =>
    rw [hv, blankStr, decide_eq_false_iff_not] at h
    rw [getTextOr_str]
    exact h
  | null => simp [hv, blankStr] at h
  | bool b => simp [hv, blankStr] at h
  | other t b hw => simp [hv, blankStr] at h

/-- **Nothing is found in a question iff it is sound** and its stem is new. -/
theorem questionFailures_eq_nil {L : Library} {seen : List String} {qnum : ℕ} {q : Question} :
    questionFailures L seen qnum q = [] ↔ q.toContent.Sound ∧ q.stem ∉ seen := by
  have hnull : ∀ v : Value, (v = .null ∨ v = .str "" ∨ blankStr v = true) ↔ blankStr v = true := by
    intro v
    refine ⟨?_, fun h => .inr (.inr h)⟩
    rintro (rfl | rfl | h)
    · rfl
    · simp [blankStr]
    · exact h
  simp only [questionFailures, List.append_eq_nil_iff, List.filterMap_eq_nil_iff,
    ite_eq_right_iff, reduceCtorEq, imp_false, List.cons_ne_nil, hnull]
  constructor
  · rintro ⟨⟨⟨⟨⟨hmissing, -⟩, -⟩, hmarked⟩, -⟩, hstem⟩
    have hfilled : ∀ field ∈ q.required, blankStr field.2 = false := by
      intro field hfield
      simpa using hmissing field hfield
    have hvalid : q.correctOption ∈ VALID_CORRECT_OPTIONS := by
      by_contra hnot
      rw [if_pos hnot] at hmarked
      cases hmarked
    have htext := stem_ne_empty
      (hfilled ("question_text", q.questionText) (by simp [Content.required]))
    exact ⟨⟨hfilled, hvalid⟩, fun hmem => hstem ⟨htext, hmem⟩⟩
  · rintro ⟨⟨hfilled, hvalid⟩, hstem⟩
    obtain ⟨name, hname⟩ := q.marked_mem
    have hmarked := hfilled _ hname
    have ha := hfilled ("option_a", q.optionA) (by simp [Content.required])
    have hb := hfilled ("option_b", q.optionB) (by simp [Content.required])
    have hc := hfilled ("option_c", q.optionC) (by simp [Content.required])
    have hd := hfilled ("option_d", q.optionD) (by simp [Content.required])
    have he := hfilled ("explanation", q.explanation) (by simp [Content.required])
    have hne : ∀ {v : Value}, blankStr v = false → v ≠ .null := by
      rintro v hv rfl
      cases hv
    refine ⟨⟨⟨⟨⟨fun field hfield => by simp [hfilled field hfield], ?_⟩, ?_⟩, ?_⟩, ?_⟩, ?_⟩
    · simp [ha, hb]
    · simp [hc, hd, hne hc, hne hd]
    · simp [hvalid, hmarked, hne hmarked]
    · simp [he]
    · exact fun h => hstem h.2

/-- The loop finds nothing iff every question is sound, and all stems differ from each other and
from those that were seen. -/
theorem coherenceFrom_eq_nil {L : Library} {seen : List String} {index : ℕ}
    {questions : List Question} :
    coherenceFrom L seen index questions = some [] ↔
      (∀ q ∈ questions, q.toContent.Sound ∧ q.stem ∉ seen) ∧
        (questions.map fun q => q.stem).Nodup := by
  induction questions generalizing seen index with
  | nil => simp [coherenceFrom]
  | cons q questions ih =>
    rw [coherenceFrom]
    by_cases hcontainer : isContainer q.correctOption = true
    · rw [if_pos hcontainer]
      refine iff_of_false (by simp) fun h => ?_
      have hvalid := (h.1 q List.mem_cons_self).1.valid
      rw [not_isContainer_of_valid hvalid] at hcontainer
      cases hcontainer
    · rw [if_neg hcontainer, Option.map_eq_some_iff]
      have hsplit : (∃ a, coherenceFrom L (if q.stem = "" then seen else q.stem :: seen) (index + 1)
          questions = some a ∧ questionFailures L seen (index + 1) q ++ a = []) ↔
          coherenceFrom L (if q.stem = "" then seen else q.stem :: seen) (index + 1) questions =
            some [] ∧ questionFailures L seen (index + 1) q = [] := by
        constructor
        · rintro ⟨a, ha, happ⟩
          obtain ⟨hq, rfl⟩ := List.append_eq_nil_iff.1 happ
          exact ⟨ha, hq⟩
        · rintro ⟨ha, hq⟩
          exact ⟨[], ha, by rw [hq, List.append_nil]⟩
      rw [hsplit, ih, questionFailures_eq_nil, List.forall_mem_cons, List.map_cons, List.nodup_cons]
      constructor
      · rintro ⟨⟨hrest, hnodup⟩, hq, hseen⟩
        have htext := stem_ne_empty
          (hq.filled ("question_text", q.questionText) (by simp [Content.required]))
        rw [if_neg htext] at hrest
        refine ⟨⟨⟨hq, hseen⟩, fun r hr => ⟨(hrest r hr).1, ?_⟩⟩, ?_, hnodup⟩
        · exact fun hmem => (hrest r hr).2 (List.mem_cons_of_mem _ hmem)
        · intro hmem
          obtain ⟨r, hr, heq⟩ := List.mem_map.1 hmem
          exact (hrest r hr).2 (by rw [heq]; exact List.mem_cons_self)
      · rintro ⟨⟨⟨hq, hseen⟩, hrest⟩, hnotmem, hnodup⟩
        refine ⟨⟨fun r hr => ⟨(hrest r hr).1, ?_⟩, hnodup⟩, hq, hseen⟩
        split_ifs
        · exact (hrest r hr).2
        · intro hmem
          rcases List.mem_cons.1 hmem with heq | hmem
          · exact hnotmem (List.mem_map.2 ⟨r, hr, heq⟩)
          · exact (hrest r hr).2 hmem

/-- The checks raise iff some marked option is a list or an object. -/
theorem coherenceFrom_eq_none {L : Library} {seen : List String} {index : ℕ}
    {questions : List Question} :
    coherenceFrom L seen index questions = none ↔
      ∃ q ∈ questions, isContainer q.correctOption = true := by
  induction questions generalizing seen index with
  | nil => simp [coherenceFrom]
  | cons q questions ih =>
    rw [coherenceFrom, List.exists_mem_cons_iff]
    by_cases hcontainer : isContainer q.correctOption = true
    · simp [hcontainer]
    · rw [if_neg hcontainer, Option.map_eq_none_iff, ih]
      simp [hcontainer]

theorem runDeterministicQuizChecks_eq_none {L : Library} {questions : List Question} {n : ℕ} :
    runDeterministicQuizChecks L questions n = none ↔
      ∃ q ∈ questions, isContainer q.correctOption = true := by
  rw [runDeterministicQuizChecks, Option.map_eq_none_iff, detQuizCoherence, coherenceFrom_eq_none]

theorem startsWith_append {s p : String} (h : startsWith s p = true) (r : String) :
    startsWith (s ++ r) p = true := by
  rw [startsWith, List.isPrefixOf_iff_prefix] at h ⊢
  rw [String.toList_append]
  exact h.trans (List.prefix_append _ _)

/-- What is found is a failure of the structure or a repeated stem, under an id of its own. -/
structure IsStructural (c : Check) : Prop where
  fails : c.passed = false
  id_det : startsWith c.id "det_" = true
  category : c.category = .quizCoherence ∨ c.category = .duplicateOverlap

theorem isStructural_structuralFailure {q : Question} {id evidence hint : String}
    (h : startsWith id "det_" = true) : IsStructural (structuralFailure q id evidence hint) :=
  ⟨rfl, h, .inl rfl⟩

theorem isStructural_questionFailures {L : Library} {seen : List String} {qnum : ℕ} {q : Question}
    {c : Check} (hc : c ∈ questionFailures L seen qnum q) : IsStructural c := by
  simp only [questionFailures, List.mem_append, List.mem_filterMap, Option.ite_none_right_eq_some,
    Option.some.injEq, List.mem_ite_nil_right, List.mem_singleton] at hc
  rcases hc with ((((⟨_, _, _, rfl⟩ | ⟨_, rfl⟩) | ⟨_, rfl⟩) | hmarked) | ⟨_, rfl⟩) | ⟨_, rfl⟩
  · rw [String.append_assoc, String.append_assoc]
    exact isStructural_structuralFailure (startsWith_append (by decide) _)
  · exact isStructural_structuralFailure (startsWith_append (by decide) _)
  · exact isStructural_structuralFailure (startsWith_append (by decide) _)
  · split_ifs at hmarked
    · rw [List.mem_singleton.1 hmarked]
      exact isStructural_structuralFailure (startsWith_append (by decide) _)
    · cases hmarked
    · rw [List.mem_singleton.1 hmarked]
      exact isStructural_structuralFailure (startsWith_append (by decide) _)
  · exact isStructural_structuralFailure (startsWith_append (by decide) _)
  · exact ⟨rfl, startsWith_append (by decide) _, .inr rfl⟩

theorem isStructural_coherenceFrom {L : Library} {seen : List String} {index : ℕ}
    {questions : List Question} {checks : List Check}
    (h : coherenceFrom L seen index questions = some checks) : ∀ c ∈ checks, IsStructural c := by
  induction questions generalizing seen index checks with
  | nil =>
    cases h
    exact fun c hc => absurd hc List.not_mem_nil
  | cons q questions ih =>
    rw [coherenceFrom] at h
    by_cases hcontainer : isContainer q.correctOption = true
    · rw [if_pos hcontainer] at h
      cases h
    · rw [if_neg hcontainer] at h
      obtain ⟨rest, hrest, rfl⟩ := Option.map_eq_some_iff.1 h
      intro c hc
      rcases List.mem_append.1 hc with hc | hc
      · exact isStructural_questionFailures hc
      · exact ih hrest c hc

/-- A deterministic check never has the id of another check, and never bears on the answer or on
the quality of a question. -/
theorem mem_runDeterministicQuizChecks {L : Library} {questions : List Question} {n : ℕ}
    {checks : List Check} (h : runDeterministicQuizChecks L questions n = some checks) {c : Check}
    (hc : c ∈ checks) :
    startsWith c.id "det_" = true ∧ c.category ∉ PER_QUESTION_CATEGORIES := by
  obtain ⟨found, hfound, rfl⟩ := Option.map_eq_some_iff.1 h
  rcases List.mem_cons.1 hc with rfl | hc
  · have hid : startsWith "det_question_count" "det_" = true := by decide
    exact ⟨hid, by simp [detQuestionCount, PER_QUESTION_CATEGORIES]⟩
  · have hstruct := isStructural_coherenceFrom hfound c hc
    refine ⟨hstruct.id_det, ?_⟩
    rcases hstruct.category with hcat | hcat
    · simp [hcat, PER_QUESTION_CATEGORIES]
    · simp [hcat, PER_QUESTION_CATEGORIES]

/-- **No check fails iff the quiz is sound.** -/
theorem failedChecks_runDeterministicQuizChecks {L : Library} {questions : List Question} {n : ℕ} :
    (∃ checks, runDeterministicQuizChecks L questions n = some checks ∧
      extractFailedChecks checks = []) ↔ Sound questions n := by
  have hcount : (detQuestionCount questions n).passed = decide (questions.length = n) := rfl
  constructor
  · rintro ⟨checks, hrun, hfailed⟩
    obtain ⟨found, hfound, rfl⟩ := Option.map_eq_some_iff.1 hrun
    have hpassed : ∀ c ∈ detQuestionCount questions n :: found, c.passed = true := by
      intro c hc
      by_contra hnot
      have hmem := mem_extractFailedChecks.2 ⟨hc, Bool.not_eq_true _ ▸ hnot⟩
      rw [hfailed] at hmem
      cases hmem
    have hnil : found = [] := by
      refine List.eq_nil_iff_forall_not_mem.2 fun c hc => ?_
      have hfails := (isStructural_coherenceFrom hfound c hc).fails
      rw [hpassed c (List.mem_cons_of_mem _ hc)] at hfails
      cases hfails
    rw [hnil] at hfound
    obtain ⟨hsound, hdistinct⟩ := coherenceFrom_eq_nil.1 hfound
    have hlength := hpassed _ List.mem_cons_self
    rw [hcount, decide_eq_true_eq] at hlength
    exact ⟨hlength, fun q hq => (hsound q hq).1, hdistinct⟩
  · intro h
    have hfound : detQuizCoherence L questions = some [] :=
      coherenceFrom_eq_nil.2 ⟨fun q hq => ⟨h.sound q hq, List.not_mem_nil⟩, h.distinct⟩
    refine ⟨[detQuestionCount questions n], by rw [runDeterministicQuizChecks, hfound]; rfl, ?_⟩
    simp [extractFailedChecks, hcount, h.count]

/-- Nothing but the count is checked and reported of a sound quiz. -/
theorem Sound.checks {L : Library} {questions : List Question} {n : ℕ} (h : Sound questions n) :
    runDeterministicQuizChecks L questions n = some [detQuestionCount questions n] := by
  have hfound : detQuizCoherence L questions = some [] :=
    coherenceFrom_eq_nil.2 ⟨fun q hq => ⟨h.sound q hq, List.not_mem_nil⟩, h.distinct⟩
  rw [runDeterministicQuizChecks, hfound]
  rfl

end StudyAgent.Quiz
