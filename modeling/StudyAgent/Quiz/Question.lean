import StudyAgent.Base.PyRepr

/-!
# Quiz questions

The questions that the generator's replies are parsed into.  A reply is a JSON array whose
elements may lack any key; a question has all its fields, which are values of any kind until
the deterministic checks have looked at them.

Main results:

* `normalizeParsedItems_eq_ok` — what is parsed is one question for each element that is no
  note.
* `length_parseJsonArray_le` — a counted reply never has too many elements.
-/

namespace StudyAgent.Quiz

open Py

/-- What `ast.literal_eval` makes of a text: a list, something else or a caught error, or an
error that is not caught. -/
inductive Literal where
  | items (l : List Value)
  | other
  | raises

/-- What is read through the standard library: the rewriting of code fences in a stem, the
characters that `repr` prints as they are, the texts that `ast.literal_eval` reads, and the
number of the texts that `UUID` reads. -/
structure Library where
  normalizeQuestionMarkdown : String → String
  printable : Char → Bool
  literalEval : String → Literal
  uuid : String → Option ℕ

/-- One object of a generator's reply. -/
structure Item where
  questionId : Option Value := none
  questionText : Option Value := none
  optionA : Option Value := none
  optionB : Option Value := none
  optionC : Option Value := none
  optionD : Option Value := none
  correctOption : Option Value := none
  explanation : Option Value := none
  deriving DecidableEq

/-- What a question asks, and what it says is right. -/
structure Content where
  questionText : Value
  optionA : Value
  optionB : Value
  optionC : Value
  optionD : Value
  correctOption : Value
  explanation : Value
  deriving DecidableEq

/-- A question of a quiz.  Its id may have been taken from it. -/
structure Question extends Content where
  questionId : Option Value
  orderIndex : ℕ
  deriving DecidableEq

/-- `_question_id`. -/
def Question.id (q : Question) : String := strip (getText q.questionId "")

/-- The ids of a quiz that are there. -/
def existingQuestionIds (questions : List Question) : List String :=
  (questions.map Question.id).filter (· ≠ "")

theorem mem_existingQuestionIds {questions : List Question} {qid : String} :
    qid ∈ existingQuestionIds questions ↔ (∃ q ∈ questions, q.id = qid) ∧ qid ≠ "" := by
  simp [existingQuestionIds]

theorem id_mem_existingQuestionIds {questions : List Question} {q : Question} (hq : q ∈ questions)
    (hne : q.id ≠ "") : q.id ∈ existingQuestionIds questions :=
  mem_existingQuestionIds.2 ⟨⟨q, hq, rfl⟩, hne⟩

/-- The ids that are named, stripped. -/
def strippedIds (ids : List String) : List String := (ids.map strip).filter (· ≠ "")

theorem mem_strippedIds {ids : List String} {qid : String} :
    qid ∈ strippedIds ids ↔ (∃ raw ∈ ids, strip raw = qid) ∧ qid ≠ "" := by
  simp [strippedIds]

/-! ## Order -/

/-- `_reindex_questions`. -/
def reindexQuestions (questions : List Question) : List Question :=
  questions.zipIdx.map fun p => { p.1 with orderIndex := p.2 }

/-- `sorted(questions, key=order_index)`. -/
def sortedByOrder (questions : List Question) : List Question :=
  questions.insertionSort fun q r => q.orderIndex ≤ r.orderIndex

@[simp] theorem length_reindexQuestions (questions : List Question) :
    (reindexQuestions questions).length = questions.length := by
  simp [reindexQuestions]

/-- A quiz is numbered anew, and nothing else about it changes. -/
theorem map_reindexQuestions {β : Type} (f : Question → β)
    (hf : ∀ q i, f { q with orderIndex := i } = f q) (questions : List Question) :
    (reindexQuestions questions).map f = questions.map f := by
  have hzip : ∀ (l : List Question) (k : ℕ),
      ((l.zipIdx k).map fun p => { p.1 with orderIndex := p.2 }).map f = l.map f := by
    intro l
    induction l with
    | nil => intro k; rfl
    | cons q l ih =>
      intro k
      rw [List.zipIdx_cons, List.map_cons, List.map_cons, List.map_cons, hf, ih]
  exact hzip questions 0

@[simp] theorem id_setOrder (q : Question) (i : ℕ) :
    Question.id { q with orderIndex := i } = q.id := rfl

/-- What a question is, apart from its number. -/
def Question.bare (q : Question) : String × Content := (q.id, q.toContent)

theorem map_bare_reindexQuestions (questions : List Question) :
    (reindexQuestions questions).map Question.bare = questions.map Question.bare :=
  map_reindexQuestions _ (fun _ _ => rfl) _

@[simp] theorem mem_sortedByOrder {questions : List Question} {q : Question} :
    q ∈ sortedByOrder questions ↔ q ∈ questions := by
  rw [sortedByOrder, List.mem_insertionSort]

theorem sortedByOrder_perm (questions : List Question) :
    (sortedByOrder questions).Perm questions := List.perm_insertionSort _ _

theorem sortedByOrder_eq_nil {questions : List Question} :
    sortedByOrder questions = [] ↔ questions = [] := by
  rw [← List.length_eq_zero_iff, (sortedByOrder_perm questions).length_eq, List.length_eq_zero_iff]

theorem pairwise_sortedByOrder (questions : List Question) :
    (sortedByOrder questions).Pairwise fun q r => q.orderIndex ≤ r.orderIndex := by
  have : Std.Total fun q r : Question => q.orderIndex ≤ r.orderIndex :=
    ⟨fun q r => Nat.le_total q.orderIndex r.orderIndex⟩
  have : IsTrans Question fun q r => q.orderIndex ≤ r.orderIndex := ⟨fun _ _ _ => Nat.le_trans⟩
  exact List.pairwise_insertionSort _ questions

/-- A quiz that is sorted stays as it is. -/
theorem sortedByOrder_idem (questions : List Question) :
    sortedByOrder (sortedByOrder questions) = sortedByOrder questions :=
  (pairwise_sortedByOrder questions).insertionSort_eq

/-! ## Parsing -/

/-- What makes an element a note of the generator, which is skipped. -/
def startsAsNote (x : Option Value) : Bool :=
  match x with
  | some (.str s) => startsWith s "GENERATION NOTE"
  | _ => false

/-- `parse_json_array`, on the array: `none` is an element that is no object. -/
def parseJsonArray (items : List (Option Item)) (expectedCount : Option ℕ) : List (Option Item) :=
  match expectedCount with
  | none => items
  | some n =>
    (items.filter fun
      | none => false
      | some item => !startsWith (getText item.questionText "") "GENERATION NOTE").take n

/-- `item.get(field) in (None, "")`. -/
def isMissing (x : Option Value) : Bool := x = none ∨ x = some .null ∨ x = some (.str "")

/-- The required fields of an object, by name. -/
def Item.required (item : Item) : List (String × Option Value) :=
  [("question_text", item.questionText), ("option_a", item.optionA), ("option_b", item.optionB),
    ("option_c", item.optionC), ("option_d", item.optionD),
    ("correct_option", item.correctOption), ("explanation", item.explanation)]

/-- `empty_to_none`. -/
def emptyToNone (v : Value) : Value :=
  match v with
  | .str s => if strip s = "" then .null else .str s
  | v => v

/-- The value under a key that is there. -/
def present (x : Option Value) : Value := x.getD .null

section Parsing

variable (L : Library)

/-- The stem, with its code fences rewritten. -/
def normalizedStem (v : Value) : Value :=
  match v with
  | .str s => .str (L.normalizeQuestionMarkdown s)
  | v => v

/-- The question of an object, numbered, with a fresh id if it has none. -/
def Item.toQuestion (item : Item) (freshId : String) (orderIndex : ℕ) : Question where
  questionText := normalizedStem L (present item.questionText)
  optionA := present item.optionA
  optionB := present item.optionB
  optionC := emptyToNone (present item.optionC)
  optionD := emptyToNone (present item.optionD)
  correctOption := present item.correctOption
  explanation := present item.explanation
  questionId := if getTruthy item.questionId false then item.questionId else some (.str freshId)
  orderIndex := orderIndex

/-- The loop of `normalize_parsed_items`. -/
def normalizeFrom (freshId : ℕ → String) : ℕ → List (Option Item) → Except String (List Question)
  | _, [] => .ok []
  | _, none :: _ => .error "Quiz output element is not an object."
  | k, some item :: items =>
    if startsAsNote item.questionText then normalizeFrom freshId k items
    else
      match item.required.find? fun field => isMissing field.2 with
      | some field => .error ("Quiz question missing required field: " ++ field.1 ++ ".")
      | none => (normalizeFrom freshId (k + 1) items).map (item.toQuestion L (freshId k) k :: ·)

/-- `normalize_parsed_items`. -/
def normalizeParsedItems (freshId : ℕ → String) (items : List (Option Item)) :
    Except String (List Question) :=
  normalizeFrom L freshId 0 items

variable {L}

/-- The objects that are no notes. -/
def questionItems (items : List (Option Item)) : List Item :=
  (items.filterMap fun item => item).filter fun item => !startsAsNote item.questionText

/-- The elements are read: all are objects, and none but notes lacks a required field. -/
def Readable (items : List (Option Item)) : Prop :=
  (∀ item ∈ items, item ≠ none) ∧
    ∀ item ∈ questionItems items, ∀ field ∈ item.required, isMissing field.2 = false

theorem normalizeFrom_eq_ok {freshId : ℕ → String} {k : ℕ} {items : List (Option Item)}
    {questions : List Question} :
    normalizeFrom L freshId k items = .ok questions ↔
      Readable items ∧ questions = ((questionItems items).zipIdx k).map fun p =>
        p.1.toQuestion L (freshId p.2) p.2 := by
  induction items generalizing k questions with
  | nil =>
    have hreadable : Readable [] := ⟨by simp, by simp [questionItems]⟩
    rw [normalizeFrom, Except.ok.injEq, and_iff_right hreadable]
    exact eq_comm
  | cons item items ih =>
    cases item with
    | none => simp [normalizeFrom, Readable]
    | some item =>
      rw [normalizeFrom]
      cases hnote : startsAsNote item.questionText with
      | true =>
        rw [if_pos rfl, ih]
        simp [Readable, questionItems, hnote]
      | false =>
        rw [if_neg Bool.false_ne_true]
        have hitems : questionItems (some item :: items) = item :: questionItems items := by
          simp [questionItems, hnote]
        cases hmissing : item.required.find? fun field => isMissing field.2 with
        | some field =>
          refine iff_of_false (by simp) fun h => ?_
          have hpresent := h.1.2 item (by rw [hitems]; exact List.mem_cons_self) field
            (List.mem_of_find?_eq_some hmissing)
          have hbad := List.find?_some hmissing
          rw [hpresent] at hbad
          cases hbad
        | none =>
          have hall : ∀ field ∈ item.required, isMissing field.2 = false := by
            simpa using List.find?_eq_none.1 hmissing
          have hreadable : Readable (some item :: items) ↔ Readable items := by
            rw [Readable, Readable, hitems]
            simp only [List.forall_mem_cons, ne_eq, reduceCtorEq, not_false_eq_true, true_and]
            exact and_congr_right fun _ => ⟨fun h => h.2, fun h => ⟨hall, h⟩⟩
          rw [hreadable, hitems, List.zipIdx_cons, List.map_cons]
          cases hrest : normalizeFrom L freshId (k + 1) items with
          | error e =>
            refine iff_of_false (by simp [Except.map]) fun h => ?_
            have hok := (ih (k := k + 1)).2 ⟨h.1, rfl⟩
            rw [hrest] at hok
            cases hok
          | ok rest =>
            obtain ⟨hread, heq⟩ := ih.1 hrest
            simp only [Except.map, Except.ok.injEq, hread, true_and, ← heq, eq_comm]

/-- **What is parsed**: one question for each object that is no note. -/
theorem normalizeParsedItems_eq_ok {freshId : ℕ → String} {items : List (Option Item)}
    {questions : List Question} :
    normalizeParsedItems L freshId items = .ok questions ↔
      Readable items ∧ questions = (questionItems items).zipIdx.map fun p =>
        p.1.toQuestion L (freshId p.2) p.2 :=
  normalizeFrom_eq_ok

end Parsing

theorem length_parseJsonArray_le (items : List (Option Item)) (n : ℕ) :
    (parseJsonArray items (some n)).length ≤ n := by
  rw [parseJsonArray, List.length_take]
  exact min_le_left _ _

end StudyAgent.Quiz
