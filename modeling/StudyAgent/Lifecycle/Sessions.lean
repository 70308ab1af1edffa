import StudyAgent.Base.ReadCommitted
import StudyAgent.Base.Runs
import StudyAgent.Lifecycle.Quizzes
import Mathlib.Data.Fintype.Basic

/-!
# Sessions that work on quizzes

The tables of the quizzes and of their questions, and the sessions that publish, unpublish,
discard and edit, and that run the generations: of quizzes, of hints, and the rework of single
questions.  A statement is one step; statements on rows that an earlier one has locked are taken
together with it.  What a run has read stays with it from one transaction to the next, also when
it is interrupted and resumed.

Ids are of any finite types.  Advisory locks, which only keep runs waiting, are left out.

Main results:

* `System.wroteQuizzes`, `System.wroteQuestions` — all that a write does.
* `quiet_of_step` — what the statements do that leave the questions alone.
-/

namespace StudyAgent.Lifecycle

open ReadCommitted

/-! ## Questions -/

/-- What hints are generated from. -/
structure Content where
  questionText : String
  optionA : String
  optionB : String
  optionC : Option String := none
  optionD : Option String := none
  correctOption : String := "A"
  deriving DecidableEq

/-- A row of `quiz_questions`. -/
structure QuizQuestion (Q : Type) where
  quizId : Q
  content : Content
  explanation : Option String := none
  hint1 : Option String := none
  hint2 : Option String := none
  hint3 : Option String := none
  orderIndex : ℕ := 0
  isActive : Bool := true
  deriving DecidableEq

variable {Q J S : Type}

namespace QuizQuestion

/-- No hint is missing, if the question is active. -/
def Complete (question : QuizQuestion Q) : Prop :=
  question.isActive = true →
    question.hint1 ≠ none ∧ question.hint2 ≠ none ∧ question.hint3 ≠ none

instance (question : QuizQuestion Q) : Decidable question.Complete :=
  inferInstanceAs (Decidable (_ → _))

/-- The hints of a question are written. -/
def withHints (question : QuizQuestion Q) (hint1 hint2 hint3 : Option String) : QuizQuestion Q :=
  { question with hint1 := hint1, hint2 := hint2, hint3 := hint3 }

end QuizQuestion

/-- What the mentor may do to a question: a partial update, for which the merged row is given, a
deletion, a new place, and the removal of its hints. -/
inductive Edit (Q : Type) where
  | update (merged : QuizQuestion Q)
  | softDelete
  | reorder (orderIndex : ℕ)
  | clearHints

/-- `update_question`, `soft_delete_question`, `bulk_update_question_order` and
`clear_all_hints_for_quiz`, on one row. -/
def Edit.apply (question : QuizQuestion Q) : Edit Q → QuizQuestion Q
  | .update merged => { merged with quizId := question.quizId, isActive := question.isActive }
  | .softDelete => { question with isActive := false }
  | .reorder orderIndex => { question with orderIndex := orderIndex }
  | .clearHints => question.withHints none none none

/-- A patch that a rework has made for a question. -/
structure Patch where
  content : Content
  explanation : Option String := none
  deriving DecidableEq

/-- What `patch_questions_from_ai` writes to a row. -/
def Patch.flush (patch : Patch) (loaded stored : QuizQuestion Q) : QuizQuestion Q :=
  let old := loaded.content
  let new := patch.content
  { stored with
    content :=
      { questionText := setColumn old.questionText new.questionText stored.content.questionText
        optionA := setColumn old.optionA new.optionA stored.content.optionA
        optionB := setColumn old.optionB new.optionB stored.content.optionB
        optionC := setColumn old.optionC new.optionC stored.content.optionC
        optionD := setColumn old.optionD new.optionD stored.content.optionD
        correctOption :=
          setColumn old.correctOption new.correctOption stored.content.correctOption }
    explanation := setColumn loaded.explanation patch.explanation stored.explanation
    hint1 := setColumn loaded.hint1 none stored.hint1
    hint2 := setColumn loaded.hint2 none stored.hint2
    hint3 := setColumn loaded.hint3 none stored.hint3 }

/-! ## The system -/

/-- The pipelines whose runs are for a quiz. -/
inductive Pipeline where
  | quiz
  | hint
  deriving DecidableEq

/-- How far a publish has come. -/
inductive PublishStage where
  | nodeLocked
  | targetLocked
  | checked
  | othersArchived
  deriving DecidableEq

/-- What a session is doing.  A hint run keeps what it has loaded of each question, and which
questions it has written in this transaction.  A question that is to be inserted has no id if its
`question_id` is a text that `UUID` does not read. -/
inductive Phase (Q J : Type) where
  | idle
  | done
  | publishing (nodeId : ℕ) (k : Q) (stage : PublishStage)
  | editing (k : Q)
  | hintStarted (k : Q)
  | hinting (k : Q) (loaded : J → Option Content) (written : J → Bool)
  | regenerating (k : Q)
  | replacing (k : Q) (questions : List (Option J × Content))
  | inserting (k : Q) (questions : List (Option J × Content)) (replaces : Bool)
  | reworking (k : Q)
  | patching (k : Q) (dirty : List (J × QuizQuestion Q × Patch))
  | flushing (k : Q) (dirty : List (J × QuizQuestion Q × Patch))

/-- The tables, the runs that are marked running, and the sessions.  A question that is deleted
leaves a row `none`. -/
structure System (Q J S : Type) where
  quizzes : Store Q (Quiz Q) Unit S
  questions : Store J (Option (QuizQuestion Q)) Unit S
  running : S → Option (Pipeline × Q)
  phase : S → Phase Q J

/-- What the sessions do. -/
inductive Event (Q J S : Type) where
  | lockNode (s : S) (nodeId : ℕ) (k : Q)
  | lockTarget (s : S)
  | checkHints (s : S)
  | archiveOthers (s : S)
  | activate (s : S)
  | unpublish (s : S) (nodeId : ℕ) (k : Q) (retention : RetentionMode)
  | discard (s : S) (nodeId : ℕ) (k : Q)
  | discardDrafts (s : S) (versions : List ℕ)
  | openEdit (s : S) (k : Q)
  | edit (s : S) (j : J) (e : Edit Q)
  | createQuestion (s : S) (j : J) (row : QuizQuestion Q)
  | startHints (s : S) (k : Q)
  | loadHints (s : S) (filterIds : Option (List J))
  | writeHints (s : S) (j : J) (hint1 hint2 hint3 : String)
  | startRegenerate (s : S) (k : Q)
  | replaceQuiz (s : S) (version : Option ℕ) (questions : List (Option J × Content))
  | deleteQuestions (s : S)
  | generate (s : S) (k : Q) (nodeId version : ℕ) (questions : List (Option J × Content))
  | insertQuestion (s : S)
  | startRework (s : S) (k : Q)
  | readPatched (s : S) (j : J) (patch : Patch)
  | lockPatched (s : S)
  | flushPatch (s : S)
  | commit (s : S)
  | rollback (s : S)
  | settle (s : S)
  | resume (s : S)
  | finish (s : S)

namespace System

/-- A session goes on to another phase. -/
def enter [DecidableEq S] (sys : System Q J S) (s : S) (phase : Phase Q J) : System Q J S :=
  { sys with phase := Function.update sys.phase s phase }

/-- The question that a session reads. -/
def question [DecidableEq S] (sys : System Q J S) (s : S) (j : J) : Option (QuizQuestion Q) :=
  (sys.questions.view s j).join

/-- No transaction is open, and no run is under way. -/
structure Fresh (sys : System Q J S) : Prop where
  quizzes : ∀ k, sys.quizzes.pending k = none
  questions : ∀ j, sys.questions.pending j = none
  idle : ∀ s, sys.phase s = .idle

/-- No quizzes, no questions. -/
def empty : System Q J S := ⟨Store.empty, Store.empty, fun _ => none, fun _ => .idle⟩

theorem empty_fresh : (empty : System Q J S).Fresh := ⟨fun _ => rfl, fun _ => rfl, fun _ => rfl⟩

end System

/-- The phase after a commit: a hint run goes on with what it has not written, and a replacement
that has failed half-way may be resumed. -/
def Phase.committed : Phase Q J → Phase Q J
  | .hinting k loaded written =>
    .hinting k (fun j => if written j = true then none else loaded j) fun _ => false
  | .inserting k _ true => .regenerating k
  | _ => .idle

/-- The phase after a rollback: a run may be resumed from what it had before. -/
def Phase.rolledBack : Phase Q J → Phase Q J
  | .hintStarted k => .hintStarted k
  | .hinting k loaded _ => .hinting k loaded fun _ => false
  | .regenerating k => .regenerating k
  | .replacing k _ | .inserting k _ true => .regenerating k
  | .reworking k => .reworking k
  | .patching k _ => .reworking k
  | .flushing k _ => .reworking k
  | _ => .idle

/-- `UUID` raises on the id of the question that is inserted next. -/
def Phase.stopped : Phase Q J → Bool
  | .inserting _ ((none, _) :: _) _ => true
  | _ => false

/-- The statements of a session have all been made, or those made so far may be committed:
`fail_run` commits without a rollback what precedes the exception. -/
def Phase.commits : Phase Q J → Bool
  | .done | .editing _ | .hinting _ _ _ => true
  | phase => phase.stopped

/-- The question that is inserted next. -/
def Phase.nextInserted : Phase Q J → Option (J × Content)
  | .inserting _ ((some j, content) :: _) _ => some (j, content)
  | _ => none

/-- The question that is patched next, as it was read, with its patch. -/
def Phase.nextPatched : Phase Q J → Option (J × QuizQuestion Q × Patch)
  | .flushing _ (next :: _) => some next
  | _ => none

/-- The run of a phase. -/
def Phase.run : Phase Q J → Option (Pipeline × Q)
  | .hintStarted k | .hinting k _ _ => some (.hint, k)
  | .regenerating k | .replacing k _ | .inserting k _ true => some (.quiz, k)
  | .reworking k | .patching k _ | .flushing k _ => some (.quiz, k)
  | _ => none

/-! ## Statements -/

section

variable [Fintype Q] [DecidableEq Q] [Fintype J] [DecidableEq J] [Fintype S] [DecidableEq S]

namespace System

/-- Write rows of quizzes, if they are free. -/
def writeQuizzes (sys : System Q J S) (s : S) (f : Q → Option (Quiz Q)) (phase : Phase Q J) :
    Option (System Q J S) :=
  if ∀ k, f k ≠ none → sys.quizzes.Free s k then
    some { sys.enter s phase with quizzes := sys.quizzes.writeAll s f }
  else none

/-- Write rows of questions, if they are free. -/
def writeQuestions (sys : System Q J S) (s : S) (f : J → Option (Option (QuizQuestion Q)))
    (phase : Phase Q J) : Option (System Q J S) :=
  if ∀ j, f j ≠ none → sys.questions.Free s j then
    some { sys.enter s phase with questions := sys.questions.writeAll s f }
  else none

/-- The session of another run of the quiz is marked running. -/
def Busy (sys : System Q J S) (s : S) (pipeline : Pipeline) (k : Q) : Prop :=
  ∃ other, other ≠ s ∧ sys.running other = some (pipeline, k)

instance (sys : System Q J S) (s : S) (pipeline : Pipeline) (k : Q) :
    Decidable (sys.Busy s pipeline k) :=
  inferInstanceAs (Decidable (∃ other, other ≠ s ∧ sys.running other = some (pipeline, k)))

/-- A run is created. -/
def start (sys : System Q J S) (s : S) (pipeline : Pipeline) (k : Q) (phase : Phase Q J) :
    System Q J S :=
  { sys.enter s phase with running := Function.update sys.running s (some (pipeline, k)) }

end System

/-- `get_active_questions_missing_hints` finds one. -/
def MissingHints (sys : System Q J S) (s : S) (k : Q) : Prop :=
  ∃ j, ∃ question ∈ sys.question s j, question.quizId = k ∧ ¬ question.Complete

instance (sys : System Q J S) (s : S) (k : Q) : Decidable (MissingHints sys s k) :=
  inferInstanceAs (Decidable (∃ j, ∃ question ∈ sys.question s j, _))

/-- A question is one of those that are asked for, or one that misses a hint. -/
def Wanted (filterIds : Option (List J)) (j : J) (question : QuizQuestion Q) : Prop :=
  question.isActive = true ∧ ((filterIds = none ∧ ¬ question.Complete) ∨ ∃ ids ∈ filterIds, j ∈ ids)

instance (filterIds : Option (List J)) (j : J) (question : QuizQuestion Q) :
    Decidable (Wanted filterIds j question) :=
  inferInstanceAs (Decidable (_ ∧ (_ ∨ _)))

/-- The `questions_for_hinting` of `load_hint_context`. -/
def questionsForHinting (sys : System Q J S) (s : S) (k : Q) (filterIds : Option (List J)) (j : J) :
    Option Content :=
  ((sys.question s j).filter fun question =>
    question.quizId = k ∧ Wanted filterIds j question).map QuizQuestion.content

/-- What a session does next; what is refused, or has to wait, is no step. -/
def System.step (sys : System Q J S) : Event Q J S → Option (System Q J S)
  -- `publish_quiz`: each statement sees what has been committed by then
  | .lockNode s nodeId k =>
    match sys.phase s with
    | .idle =>
      sys.writeQuizzes s (fun i => (sys.quizzes.view s i).filter fun quiz => quiz.nodeId = nodeId)
        (.publishing nodeId k .nodeLocked)
    | _ => none
  | .lockTarget s =>
    match sys.phase s with
    | .publishing nodeId k .nodeLocked =>
      (sys.quizzes.view s k).bind fun quiz =>
        if quiz.nodeId = nodeId ∧ quiz.isPublished = false then
          sys.writeQuizzes s (only k quiz) (.publishing nodeId k .targetLocked)
        else none
    | _ => none
  | .checkHints s =>
    match sys.phase s with
    | .publishing nodeId k .targetLocked =>
      if MissingHints sys s k then none else some (sys.enter s (.publishing nodeId k .checked))
    | _ => none
  | .archiveOthers s =>
    match sys.phase s with
    | .publishing nodeId k .checked =>
      sys.writeQuizzes s (fun i =>
        ((sys.quizzes.view s i).filter fun quiz =>
          quiz.nodeId = nodeId ∧ quiz.isPublished = true ∧ i ≠ k).map Quiz.transitionToArchived)
        (.publishing nodeId k .othersArchived)
    | _ => none
  | .activate s =>
    match sys.phase s with
    | .publishing _ k .othersArchived =>
      (sys.quizzes.view s k).bind fun quiz =>
        sys.writeQuizzes s (only k quiz.transitionToActive) .done
    | _ => none
  | .unpublish s nodeId k retention =>
    match sys.phase s with
    | .idle =>
      (sys.quizzes.view s k).bind fun quiz =>
        if quiz.nodeId = nodeId ∧ quiz.isPublished = true then
          sys.writeQuizzes s (only k (quiz.unpublish retention)) .done
        else none
    | _ => none
  | .discard s nodeId k =>
    match sys.phase s with
    | .idle =>
      (sys.quizzes.view s k).bind fun quiz =>
        if quiz.nodeId = nodeId ∧ quiz.lifecycleStatus ≠ .discarded ∧
            quiz.lifecycleStatus ≠ .active ∧ quiz.isPublished = false ∧
            quiz.lifecycleStatus ≠ .archived then
          sys.writeQuizzes s (only k quiz.discard) .done
        else none
    | _ => none
  | .discardDrafts s versions =>
    match sys.phase s with
    | .idle =>
      sys.writeQuizzes s (fun i =>
        ((sys.quizzes.view s i).filter fun quiz =>
          (∃ v ∈ versions, quiz.studyMaterialVersionId = some v) ∧
            quiz.lifecycleStatus = .draft).map fun quiz =>
              { quiz.discard with studyMaterialVersionId := none }) .done
    | _ => none
  -- the edits of the mentor, under the lock of the quiz
  | .openEdit s k =>
    match sys.phase s with
    | .idle =>
      (sys.quizzes.view s k).bind fun quiz =>
        if quiz.isPublished = false then sys.writeQuizzes s (only k quiz) (.editing k) else none
    | _ => none
  | .edit s j e =>
    match sys.phase s with
    | .editing k =>
      (sys.question s j).bind fun question =>
        if question.quizId = k ∧ question.isActive = true then
          sys.writeQuestions s (only j (some (e.apply question))) (.editing k)
        else none
    | _ => none
  | .createQuestion s j row =>
    match sys.phase s with
    | .editing k =>
      if sys.questions.rows j = none ∧ sys.questions.pending j = none then
        sys.writeQuestions s (only j (some { row with quizId := k, isActive := true }))
          (.editing k)
      else none
    | _ => none
  -- a hint run: its start, its load, and what it writes
  | .startHints s k =>
    match sys.phase s with
    | .idle =>
      (sys.quizzes.view s k).bind fun quiz =>
        if quiz.isPublished = false ∧ ¬ sys.Busy s .hint k then
          some (sys.start s .hint k (.hintStarted k))
        else none
    | _ => none
  | .loadHints s filterIds =>
    match sys.phase s with
    | .hintStarted k =>
      (sys.quizzes.view s k).bind fun quiz =>
        if quiz.isPublished = false then
          some (sys.enter s
            (.hinting k (questionsForHinting sys s k filterIds) fun _ => false))
        else none
    | _ => none
  | .writeHints s j hint1 hint2 hint3 =>
    match sys.phase s with
    | .hinting k loaded written =>
      if loaded j = none ∨ written j = true then none
      else
        (sys.question s j).bind fun question =>
          (sys.quizzes.view s question.quizId).bind fun quiz =>
            if quiz.isPublished = false then
              (sys.writeQuizzes s (only question.quizId quiz) (.hinting k loaded written)).bind
                fun locked =>
                  locked.writeQuestions s
                    (only j (some (question.withHints (some hint1) (some hint2) (some hint3))))
                    (.hinting k loaded (Function.update written j true))
            else none
    | _ => none
  -- a regeneration, and the generation of a new quiz
  | .startRegenerate s k =>
    match sys.phase s with
    | .idle =>
      (sys.quizzes.view s k).bind fun quiz =>
        if quiz.lifecycleStatus = .draft ∧ ¬ sys.Busy s .quiz k then
          some (sys.start s .quiz k (.regenerating k))
        else none
    | _ => none
  | .replaceQuiz s version questions =>
    match sys.phase s with
    | .regenerating k =>
      (sys.quizzes.view s k).bind fun quiz =>
        sys.writeQuizzes s (only k (quiz.replaceDraft version)) (.replacing k questions)
    | _ => none
  | .deleteQuestions s =>
    match sys.phase s with
    | .replacing k questions =>
      sys.writeQuestions s (fun j =>
        ((sys.question s j).filter fun question => question.quizId = k).map fun _ => none)
        (.inserting k questions true)
    | _ => none
  | .generate s k nodeId version questions =>
    match sys.phase s with
    | .idle =>
      if sys.quizzes.rows k = none ∧ sys.quizzes.pending k = none then
        sys.writeQuizzes s
          (only k { quizId := k, nodeId := nodeId, studyMaterialVersionId := some version })
          (.inserting k questions false)
      else none
    | _ => none
  | .insertQuestion s =>
    match sys.phase s with
    | .inserting _ [] _ => some (sys.enter s .done)
    | .inserting k ((some j, content) :: questions) replaces =>
      if sys.question s j = none then
        sys.writeQuestions s (only j (some { quizId := k, content := content }))
          (.inserting k questions replaces)
      else none
    | _ => none
  -- a rework: the rows it has changed are flushed at the next commit, whatever the lock has shown
  | .startRework s k =>
    match sys.phase s with
    | .idle =>
      (sys.quizzes.view s k).bind fun quiz =>
        if quiz.isPublished = false ∧ ¬ sys.Busy s .quiz k ∧ ¬ sys.Busy s .hint k then
          some (sys.start s .quiz k (.reworking k))
        else none
    | _ => none
  | .readPatched s j patch =>
    match sys.phase s with
    | .reworking k =>
      (sys.question s j).bind fun question =>
        if question.quizId = k ∧ question.isActive = true then
          some (sys.enter s (.patching k [(j, question, patch)]))
        else none
    | .patching k dirty =>
      (sys.question s j).bind fun question =>
        if question.quizId = k ∧ question.isActive = true then
          some (sys.enter s (.patching k (dirty ++ [(j, question, patch)])))
        else none
    | _ => none
  | .lockPatched s =>
    match sys.phase s with
    | .patching k dirty =>
      (sys.quizzes.view s k).bind fun quiz =>
        sys.writeQuizzes s (only k quiz) (.flushing k dirty)
    | _ => none
  | .flushPatch s =>
    match sys.phase s with
    | .flushing _ [] => some (sys.enter s .done)
    | .flushing k ((j, loaded, patch) :: dirty) =>
      (sys.question s j).bind fun question =>
        sys.writeQuestions s (only j (some (patch.flush loaded question))) (.flushing k dirty)
    | _ => none
  -- the ends of transactions and of runs
  | .commit s =>
    if (sys.phase s).commits = true then
      some { sys.enter s (sys.phase s).committed with
        quizzes := sys.quizzes.commit s
        questions := sys.questions.commit s }
    else none
  | .rollback s =>
    some { sys.enter s (sys.phase s).rolledBack with
      quizzes := sys.quizzes.rollback s
      questions := sys.questions.rollback s }
  | .settle s => some { sys with running := Function.update sys.running s none }
  | .resume s =>
    (sys.phase s).run.bind fun run =>
      if sys.Busy s run.1 run.2 then none
      else some { sys with running := Function.update sys.running s (some run) }
  | .finish s =>
    some { sys.enter s .idle with
      quizzes := sys.quizzes.rollback s
      questions := sys.questions.rollback s
      running := Function.update sys.running s none }

/-! ## What a statement leaves alone -/

/-- One session has gone on, and nothing is committed. -/
structure Aside (sys sys' : System Q J S) (s : S) : Prop where
  quizRows : sys'.quizzes.rows = sys.quizzes.rows
  questionRows : sys'.questions.rows = sys.questions.rows
  quizzes : ∀ {k t quiz}, t ≠ s →
    (sys'.quizzes.pending k = some (t, quiz) ↔ sys.quizzes.pending k = some (t, quiz))
  questions : ∀ {j t row}, t ≠ s →
    (sys'.questions.pending j = some (t, row) ↔ sys.questions.pending j = some (t, row))
  phase : ∀ {t}, t ≠ s → sys'.phase t = sys.phase t

/-- What a write of quizzes does. -/
structure WroteQuizzes (sys : System Q J S) (s : S) (f : Q → Option (Quiz Q)) (phase : Phase Q J)
    (sys' : System Q J S) : Prop where
  aside : Aside sys sys' s
  questions : sys'.questions = sys.questions
  phase : sys'.phase s = phase
  written : ∀ {k quiz}, f k = some quiz → sys'.quizzes.pending k = some (s, quiz)
  kept : ∀ {k quiz}, f k = none → sys.quizzes.pending k = some (s, quiz) →
    sys'.quizzes.pending k = some (s, quiz)
  cases : ∀ {k quiz}, sys'.quizzes.pending k = some (s, quiz) →
    f k = some quiz ∨ (f k = none ∧ sys.quizzes.pending k = some (s, quiz))

/-- What a write of questions does. -/
structure WroteQuestions (sys : System Q J S) (s : S)
    (f : J → Option (Option (QuizQuestion Q))) (phase : Phase Q J) (sys' : System Q J S) :
    Prop where
  aside : Aside sys sys' s
  quizzes : sys'.quizzes = sys.quizzes
  phase : sys'.phase s = phase
  cases : ∀ {j row}, sys'.questions.pending j = some (s, row) →
    f j = some row ∨ (f j = none ∧ sys.questions.pending j = some (s, row))

namespace System

variable {sys sys' : System Q J S} {s : S} {phase : Phase Q J}

omit [Fintype Q] [DecidableEq Q] [Fintype J] [DecidableEq J] [Fintype S]

@[simp] theorem phase_enter_self : (sys.enter s phase).phase s = phase :=
  Function.update_self ..

theorem phase_enter_other {t : S} (hne : t ≠ s) : (sys.enter s phase).phase t = sys.phase t :=
  Function.update_of_ne hne ..

theorem aside_enter : Aside sys (sys.enter s phase) s :=
  ⟨rfl, rfl, fun _ => Iff.rfl, fun _ => Iff.rfl, phase_enter_other⟩

theorem aside_rollback {running : S → Option (Pipeline × Q)} :
    Aside sys { sys.enter s phase with
      quizzes := sys.quizzes.rollback s
      questions := sys.questions.rollback s
      running := running } s := by
  refine ⟨rfl, rfl, fun hne => ?_, fun hne => ?_, phase_enter_other⟩
  · simp [Store.pending_rollback, hne]
  · simp [Store.pending_rollback, hne]

theorem wroteQuizzes [Fintype Q] {f : Q → Option (Quiz Q)}
    (h : sys.writeQuizzes s f phase = some sys') : WroteQuizzes sys s f phase sys' := by
  unfold writeQuizzes at h
  split_ifs at h with hfree
  cases h
  refine ⟨⟨rfl, rfl, fun hne => ?_, fun _ => Iff.rfl, phase_enter_other⟩, rfl, phase_enter_self,
    fun hf => ?_, fun hf hp => ?_, fun hp => ?_⟩
  · exact (Store.frame_writeAll hfree).pending hne
  · simp [Store.writeAll, hf]
  · simp [Store.writeAll, hf, hp]
  · exact (Store.pending_writeAll hp).imp And.left fun hold => ⟨hold.1, hold.2⟩

theorem wroteQuestions [Fintype J] {f : J → Option (Option (QuizQuestion Q))}
    (h : sys.writeQuestions s f phase = some sys') : WroteQuestions sys s f phase sys' := by
  unfold writeQuestions at h
  split_ifs at h with hfree
  cases h
  refine ⟨⟨rfl, rfl, fun _ => Iff.rfl, fun hne => ?_, phase_enter_other⟩, rfl, phase_enter_self,
    fun hp => ?_⟩
  · exact (Store.frame_writeAll hfree).pending hne
  · exact (Store.pending_writeAll hp).imp And.left fun hold => ⟨hold.1, hold.2⟩

theorem view_question_writeQuestions [Fintype J] {f : J → Option (Option (QuizQuestion Q))}
    (h : sys.writeQuestions s f phase = some sys') (j : J) :
    sys'.questions.view s j = (f j).or (sys.questions.view s j) := by
  unfold writeQuestions at h
  split_ifs at h
  cases h
  exact Store.view_writeAll_self s j

end System

end

theorem question_eq_some [DecidableEq S] {sys : System Q J S} {s : S} {j : J}
    {question : QuizQuestion Q} :
    sys.question s j = some question ↔ sys.questions.view s j = some (some question) := by
  simp [System.question, Option.join_eq_some_iff]

/-! ## Quiet statements -/

/-- The phases of a session that has loaded no question and does not write any. -/
def Phase.quiet : Phase Q J → Bool
  | .idle | .done | .publishing .. | .reworking _ | .patching .. | .flushing .. => true
  | _ => false

/-- The session of a statement that leaves the questions alone, and counts none. -/
def Event.quiet? : Event Q J S → Option S
  | .lockNode s _ _ | .lockTarget s | .checkHints s | .archiveOthers s | .activate s
  | .unpublish s _ _ _ | .discard s _ _ | .discardDrafts s _ | .startHints s _
  | .startRegenerate s _ | .startRework s _ | .readPatched s _ _ | .lockPatched s => some s
  | _ => none

section

variable [Fintype Q] [DecidableEq Q] [Fintype J] [DecidableEq J] [Fintype S] [DecidableEq S]

/-- **What a quiet statement does.** -/
inductive Quiet (sys : System Q J S) (s : S) : System Q J S → Prop
  | wrote {f : Q → Option (Quiz Q)} {phase : Phase Q J} {sys' : System Q J S}
      (hwrite : sys.writeQuizzes s f phase = some sys')
      (hread : ∀ i, sys.quizzes.view s i = none → f i = none)
      (hold : (sys.phase s).quiet = true) (hnew : phase.quiet = true) (hopen : phase ≠ .idle) :
      Quiet sys s sys'
  | went {phase : Phase Q J} (hold : (sys.phase s).quiet = true) (hnew : phase.quiet = true)
      (hopen : phase ≠ .idle) : Quiet sys s (sys.enter s phase)
  | started {pipeline : Pipeline} {k : Q} {phase : Phase Q J} (hidle : sys.phase s = .idle)
      (hphase : phase = .hintStarted k ∨ phase = .regenerating k ∨ phase = .reworking k) :
      Quiet sys s (sys.start s pipeline k phase)

variable {sys sys' : System Q J S} {s : S} {k : Q} {quiz new : Quiz Q} {phase : Phase Q J}

omit [Fintype J] [DecidableEq J] [Fintype S] in
/-- A quiz that was read is locked or written. -/
theorem Quiet.one (hview : sys.quizzes.view s k = some quiz)
    (hwrite : sys.writeQuizzes s (only k new) phase = some sys')
    (hold : (sys.phase s).quiet = true) (hnew : phase.quiet = true) (hopen : phase ≠ .idle) :
    Quiet sys s sys' := by
  refine .wrote hwrite (fun i hi => ?_) hold hnew hopen
  rw [Option.eq_none_iff_forall_ne_some]
  intro row hrow
  obtain ⟨rfl, -⟩ := only_eq_some.1 hrow
  rw [hview] at hi
  cases hi

theorem quiet_of_step {e : Event Q J S} (he : e.quiet? = some s)
    (hstep : sys.step e = some sys') : Quiet sys s sys' := by
  cases e with
  | lockNode | archiveOthers | discardDrafts =>
    cases he
    rw [System.step] at hstep
    split at hstep
    · rename_i hphase
      exact .wrote hstep (fun i hi => by rw [hi]; rfl) (by rw [hphase]; rfl) rfl (by simp)
    · cases hstep
  | activate | lockPatched =>
    cases he
    rw [System.step] at hstep
    split at hstep
    · rename_i hphase
      obtain ⟨quiz, hview, hstep⟩ := Option.bind_eq_some_iff.1 hstep
      exact .one hview hstep (by rw [hphase]; rfl) rfl (by simp)
    · cases hstep
  | lockTarget | unpublish | discard =>
    cases he
    rw [System.step] at hstep
    split at hstep
    · rename_i hphase
      obtain ⟨quiz, hview, hstep⟩ := Option.bind_eq_some_iff.1 hstep
      split_ifs at hstep
      exact .one hview hstep (by rw [hphase]; rfl) rfl (by simp)
    · cases hstep
  | checkHints =>
    cases he
    rw [System.step] at hstep
    split at hstep
    · rename_i hphase
      split_ifs at hstep
      cases hstep
      exact .went (by rw [hphase]; rfl) rfl (by simp)
    · cases hstep
  | startHints | startRegenerate | startRework =>
    cases he
    rw [System.step] at hstep
    split at hstep
    · rename_i hphase
      obtain ⟨quiz, -, hstep⟩ := Option.bind_eq_some_iff.1 hstep
      split_ifs at hstep
      cases hstep
      exact .started hphase (by simp)
    · cases hstep
  | readPatched =>
    cases he
    rw [System.step] at hstep
    split at hstep
    · rename_i hphase
      obtain ⟨question, -, hstep⟩ := Option.bind_eq_some_iff.1 hstep
      split_ifs at hstep
      cases hstep
      exact .went (by rw [hphase]; rfl) rfl (by simp)
    · rename_i hphase
      obtain ⟨question, -, hstep⟩ := Option.bind_eq_some_iff.1 hstep
      split_ifs at hstep
      cases hstep
      exact .went (by rw [hphase]; rfl) rfl (by simp)
    · cases hstep
  | _ => cases he

end

end StudyAgent.Lifecycle
