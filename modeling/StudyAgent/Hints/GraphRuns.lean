import StudyAgent.Hints.Graph

/-!
# Hint runs that break off

What is committed with a checkpoint stays true however the run goes on: the hints that the
checkpoint counts as written have passed and are on their rows, and once the run is completed every
question of its batch has hints or a recorded error.

Main results:

* `stagedBy_frame` — a node leaves the rows alone that the state counts as written, also one that
  breaks off.
* `accounted_of_reachable` — the invariant of a run.
* `completed_accounted` — **no crash, stop or resumption loses hints or leaves a question of a
  completed run without an account.**
-/

namespace StudyAgent.Hints.Graph

open Py OrderedDict Runs Hints

/-! ## What a node does to the quiz -/

section

variable {replies : ℕ → Option (List ReplyItem)} {qid : String}

theorem updateQuestionHints_isPublished {db db' : Database} {hint : HintPayload}
    (h : db.updateQuestionHints qid hint = some db') : db'.isPublished = db.isPublished := by
  unfold Database.updateQuestionHints at h
  split at h
  · cases h
    rfl
  · split at h
    · cases h
      rfl
    · simp at h

theorem stage_isPublished {progress progress' : Progress} {payload : HintPayload}
    (h : progress.stage payload = some progress') :
    progress'.db.isPublished = progress.db.isPublished := by
  obtain ⟨db, hdb, rfl⟩ := Option.map_eq_some_iff.1 h
  exact updateQuestionHints_isPublished hdb

theorem retryLoop_isPublished {attempts left : ℕ} {hint : Option HintPayload}
    {progress progress' : Progress}
    (h : retryLoop replies qid attempts left hint progress = some progress') :
    progress'.db.isPublished = progress.db.isPublished := by
  induction left generalizing attempts hint progress with
  | zero =>
    cases hpass : passing qid hint with
    | some payload =>
      simp only [retryLoop, hpass] at h
      exact stage_isPublished h
    | none =>
      simp only [retryLoop, hpass, Option.some.injEq] at h
      subst h
      rfl
  | succ left ih =>
    cases hpass : passing qid hint with
    | some payload =>
      simp only [retryLoop, hpass] at h
      exact stage_isPublished h
    | none =>
      simp only [retryLoop, hpass] at h
      have hrest := ih h
      exact hrest

theorem foldlM_isPublished {maxRetries : ℤ} {byQuestionId : List (String × HintPayload)}
    {qs : List String} {progress progress' : Progress}
    (h : qs.foldlM (validateQuestion replies maxRetries byQuestionId) progress =
      some progress') : progress'.db.isPublished = progress.db.isPublished := by
  induction qs generalizing progress with
  | nil =>
    cases h
    rfl
  | cons q qs ih =>
    obtain ⟨mid, hmid, hrest⟩ := Option.bind_eq_some_iff.1 h
    rw [ih hrest]
    unfold validateQuestion at hmid
    split_ifs at hmid
    · cases hmid
      rfl
    · cases hmid
      rfl
    · exact retryLoop_isPublished hmid

end

/-- What no node takes away: the quiz is there, the rows of the questions that the state counts as
written, and what is recorded of earlier failures. -/
structure Frame (s : HintState) (quiz quiz' : Quiz) : Prop where
  published : quiz'.db.isPublished = quiz.db.isPublished
  rows : ∀ q, (get s.hintsWritten q).isSome → quiz'.db.questions q = quiz.db.questions q
  errors : ∀ q, (get quiz.questionErrors q).isSome → (get quiz'.questionErrors q).isSome
  llmFailure : quiz.llmFailure = true → quiz'.llmFailure = true

theorem Frame.refl (s : HintState) (quiz : Quiz) : Frame s quiz quiz where
  published := rfl
  rows _ _ := rfl
  errors _ := id
  llmFailure := id

/-- Every error of a list is recorded, and the earlier ones stay. -/
theorem get_foldl_insert (errors : List HintQuestionError) (d : List (String × HintQuestionError))
    (q : String) :
    (get (errors.foldl (fun d error => insert error.questionId error d) d) q).isSome ↔
      (get d q).isSome ∨ q ∈ errors.map (·.questionId) := by
  induction errors generalizing d with
  | nil => simp
  | cons error errors ih =>
    rw [List.foldl_cons, ih, get_insert, List.map_cons, List.mem_cons]
    by_cases hq : error.questionId = q
    · simp [hq]
    · simp [hq, Ne.symm hq]

section

variable {p : Params} {reply : Option String} {replies : ℕ → Option (List ReplyItem)}
  {s s' : HintState} {quiz quiz' : Quiz}

theorem mergeQuestionErrors_frame (errors : List HintQuestionError) :
    Frame s quiz (quiz.mergeQuestionErrors p.quizId errors) := by
  unfold Quiz.mergeQuestionErrors
  split_ifs
  · exact
      { published := rfl
        rows := fun _ _ => rfl
        errors := fun q hq => (get_foldl_insert _ _ _).2 (Or.inl hq)
        llmFailure := id }
  · exact .refl _ _

theorem mergeQuestionErrors_recorded (hthere : (quiz.db.isPublished p.quizId).isSome)
    {errors : List HintQuestionError} {q : String} (hq : q ∈ errors.map (·.questionId)) :
    (get (quiz.mergeQuestionErrors p.quizId errors).questionErrors q).isSome := by
  unfold Quiz.mergeQuestionErrors
  rw [if_pos hthere]
  exact (get_foldl_insert _ _ _).2 (Or.inr hq)

theorem mergeLlmFailure_frame : Frame s quiz (quiz.mergeLlmFailure p.quizId) := by
  unfold Quiz.mergeLlmFailure
  split_ifs
  · exact ⟨rfl, fun _ _ => rfl, fun _ => id, fun _ => rfl⟩
  · exact .refl _ _

/-- A persisting node of a sound state has no hints left to write. -/
theorem persistHints_eq (h : Sound s) :
    persistHints p s quiz = some
      (match s.hintGenerationDiagnostics with
        | some errors => quiz.mergeQuestionErrors p.quizId errors
        | none => quiz) := by
  rw [persistHints, persist_writes_nothing h]
  rfl

theorem persistHints_frame (h : Sound s) (hrun : persistHints p s quiz = some quiz') :
    Frame s quiz quiz' := by
  rw [persistHints_eq h, Option.some.injEq] at hrun
  subst hrun
  split
  · exact mergeQuestionErrors_frame _
  · exact .refl _ _

/-- A validation, or its first questions. -/
theorem foldlM_frame (hmax : 0 ≤ p.maxRetries) {byQuestionId : List (String × HintPayload)}
    {qs : List String} (hqs : qs.Nodup) {progress : Progress}
    (h : qs.foldlM (validateQuestion replies p.maxRetries byQuestionId)
      { db := quiz.db
        validated := []
        hintsWritten := s.hintsWritten
        questionErrors := []
        asked := [] } = some progress) : Frame s quiz { quiz with db := progress.db } where
  published := foldlM_isPublished h
  rows := by
    intro q hq
    obtain ⟨hint, hhint⟩ := Option.isSome_iff_exists.1 hq
    exact ((foldlM_progressed hmax hqs h).kept q hint hhint).2.1
  errors _ := id
  llmFailure := id

theorem validate_frame (hmax : 0 ≤ p.maxRetries) (h : Sound s) {out : Validation}
    (hout : validateHintQuality replies p.maxRetries s quiz.db = some out) :
    Frame s quiz { quiz with db := out.db } := by
  unfold validateHintQuality at hout
  split_ifs at hout with hdup
  · obtain ⟨progress, hprogress, rfl⟩ := Option.map_eq_some_iff.1 hout
    exact foldlM_frame hmax (nodup_pending h) hprogress
  · cases hout
    exact .refl _ _

theorem runNode_frame (hmax : 0 ≤ p.maxRetries) (h : Sound s) {n : HintNode}
    (hrun : runNode p reply replies s quiz n = some (s', quiz')) : Frame s quiz quiz' := by
  cases n with
  | loadHintContext =>
    obtain ⟨t, -, heq⟩ := Option.map_eq_some_iff.1 hrun
    cases heq
    exact .refl _ _
  | buildHintPromptPayload =>
    cases hrun
    exact .refl _ _
  | invokeHintLlm =>
    cases hrun
    exact .refl _ _
  | parseHintOutput =>
    cases hrun
    exact .refl _ _
  | validateHintQuality =>
    obtain ⟨out, hout, heq⟩ := Option.map_eq_some_iff.1 hrun
    cases heq
    exact validate_frame hmax h hout
  | persistHintsToQuestions =>
    obtain ⟨t, ht, heq⟩ := Option.map_eq_some_iff.1 hrun
    cases heq
    exact persistHints_frame h ht
  | persistHintFailureDiagnostics =>
    cases hrun
    exact mergeLlmFailure_frame

/-- **A node that breaks off leaves the rows alone that the state counts as written.** -/
theorem stagedBy_frame (hmax : 0 ≤ p.maxRetries) (h : Sound s) (looked : ℕ) (n : HintNode) :
    Frame s quiz (stagedBy p reply replies looked s quiz n) := by
  have hother : n ≠ .validateHintQuality →
      Frame s quiz (((runNode p reply replies s quiz n).map Prod.snd).getD quiz) := by
    intro _
    cases hrun : runNode p reply replies s quiz n with
    | none => exact .refl _ _
    | some out => exact runNode_frame hmax h hrun
  cases n with
  | validateHintQuality =>
    simp only [stagedBy]
    split_ifs
    · split
      · next progress hprogress =>
        exact foldlM_frame hmax ((nodup_pending h).sublist (List.take_sublist _ _)) hprogress
      · exact .refl _ _
    · exact .refl _ _
  | loadHintContext => exact hother (by simp)
  | buildHintPromptPayload => exact hother (by simp)
  | invokeHintLlm => exact hother (by simp)
  | parseHintOutput => exact hother (by simp)
  | persistHintsToQuestions => exact hother (by simp)
  | persistHintFailureDiagnostics => exact hother (by simp)

end

/-! ## What a checkpoint promises -/

/-- Nothing is written and nothing has failed. -/
structure Bare (s : HintState) : Prop where
  written : s.hintsWritten = []
  failed : s.failedQuestionIds = []
  validated : s.validatedHints = []

/-- Every question of the batch has ended, and the errors are at hand. -/
structure Ended (s : HintState) : Prop where
  one : ∀ q ∈ s.questionsForHinting, (get s.hintsWritten q).isSome ∨ q ∈ s.failedQuestionIds
  diagnostics : ∀ q ∈ s.failedQuestionIds, ∃ errors,
    s.hintGenerationDiagnostics = some errors ∧ q ∈ errors.map (·.questionId)

/-- The hints of a question are on its row, if it is still there and nobody else has changed it. -/
def OnRow (c : Config) (q : String) (hint : HintPayload) : Prop :=
  c.replaced = true ∨ q ∈ c.touched ∨ ∀ row ∈ c.quiz.db.questions q, row.Has hint

/-- The error of a question is recorded, unless the quiz was replaced. -/
def Recorded (c : Config) (q : String) : Prop :=
  c.replaced = true ∨ (get c.quiz.questionErrors q).isSome

/-- A state in which no node has failed, and whose hints are on their rows. -/
structure Clean (c : Config) (s : HintState) : Prop where
  sound : Sound s
  error : s.error = none
  terminal : s.terminalLlmFailure = false
  durable : ∀ q hint, get s.hintsWritten q = some hint → OnRow c q hint

/-- The checkpoint of a node. -/
structure Saved (c : Config) (s : HintState) (n : HintNode) : Prop where
  clean : Clean c s
  bare : n = .loadHintContext → Bare s
  ended : n = .validateHintQuality ∨ n = .persistHintsToQuestions → Ended s
  recorded : n = .persistHintsToQuestions → ∀ q ∈ s.failedQuestionIds, Recorded c q
  failure : n ≠ .persistHintFailureDiagnostics

/-- A graph at work that is about to go on to `next`. -/
structure Ready (c : Config) (s : HintState) (next : Option HintNode) : Prop where
  clean : Clean c s
  bare : next = some .loadHintContext → Bare s
  linked : next ≠ some .loadHintContext → ∃ n, c.checkpoint = some (s, n)
  ended : next = some .persistHintsToQuestions → Ended s
  failure : next ≠ some .persistHintFailureDiagnostics
  atEnd : next = none → c.checkpoint = some (s, .persistHintsToQuestions)

/-- A graph that has ended with an error. -/
structure Stopped (s : HintState) (next : Option HintNode) : Prop where
  next : next = none
  terminal : s.terminalLlmFailure = false
  error : s.error.getD "" ≠ ""

/-- A graph whose call has failed for good: that is about to be recorded, or it is. -/
structure Failed (c : Config) (s : HintState) (next : Option HintNode) : Prop where
  terminal : s.terminalLlmFailure = true
  linked : c.checkpoint ≠ none
  next : next = some .persistHintFailureDiagnostics ∨
    next = none ∧ (c.replaced = true ∨ c.quiz.llmFailure = true)

/-- What holds throughout a run. -/
structure Accounted (p : Params) (c : Config) : Prop where
  present : c.checkpoint ≠ none → c.replaced = true ∨ (c.quiz.db.isPublished p.quizId).isSome
  saved : ∀ s n, c.checkpoint = some (s, n) → Saved c s n
  live : ∀ l, c.live = some l → Ready c l.state l.next ∨ Stopped l.state l.next ∨
    Failed c l.state l.next
  done : c.completed = true → c.live = none ∧ (c.replaced = true ∨ ∃ s, c.returned = some s ∧
    (s.terminalLlmFailure = true ∧ c.quiz.llmFailure = true ∨
      c.checkpoint = some (s, .persistHintsToQuestions)))

/-- What is promised in `c` is promised in `c'`. -/
structure Later (p : Params) (s : HintState) (c c' : Config) : Prop where
  onRow : ∀ q hint, (get s.hintsWritten q).isSome → OnRow c q hint → OnRow c' q hint
  recorded : ∀ q, Recorded c q → Recorded c' q
  present : c.replaced = true ∨ (c.quiz.db.isPublished p.quizId).isSome →
    c'.replaced = true ∨ (c'.quiz.db.isPublished p.quizId).isSome
  llmFailure : c.replaced = true ∨ c.quiz.llmFailure = true →
    c'.replaced = true ∨ c'.quiz.llmFailure = true
  replaced : c.replaced = true → c'.replaced = true

section

variable {p : Params} {s s' : HintState} {n : HintNode} {next : Option HintNode} {c c' : Config}

theorem later_of_frame (h : Frame s c.quiz c'.quiz) (htouched : c'.touched = c.touched)
    (hreplaced : c'.replaced = c.replaced) : Later p s c c' where
  onRow := by
    intro q hint hq honRow
    rw [OnRow, htouched, hreplaced, h.rows q hq]
    exact honRow
  recorded := by
    intro q hrecorded
    rw [Recorded, hreplaced]
    exact hrecorded.imp_right (h.errors q)
  present := by
    rw [hreplaced, h.published]
    exact id
  llmFailure := by
    rw [hreplaced]
    exact Or.imp_right h.llmFailure
  replaced := hreplaced.trans

theorem later_of_keeps {questionIds : List String} {quiz : Quiz}
    (h : Keeps p.quizId questionIds c.quiz quiz) (hquiz : c'.quiz = quiz)
    (htouched : c'.touched = c.touched ++ questionIds) (hreplaced : c'.replaced = c.replaced) :
    Later p s c c' where
  onRow := by
    intro q hint _ honRow
    rw [OnRow, htouched, hreplaced, hquiz, List.mem_append]
    by_cases hq : q ∈ questionIds
    · exact Or.inr (Or.inl (Or.inr hq))
    · rw [h.rows q hq]
      exact honRow.imp_right (Or.imp_left Or.inl)
  recorded := by
    intro q hrecorded
    rw [Recorded, hreplaced, hquiz]
    exact hrecorded.imp_right (h.errors q)
  present := by
    rw [hreplaced, hquiz]
    exact Or.imp_right h.present
  llmFailure := by
    rw [hreplaced, hquiz]
    exact Or.imp_right h.llmFailure
  replaced := hreplaced.trans

theorem later_of_replaced (h : c'.replaced = true) : Later p s c c' where
  onRow _ _ _ _ := Or.inl h
  recorded _ _ := Or.inl h
  present _ := Or.inl h
  llmFailure _ := Or.inl h
  replaced _ := h

theorem Clean.later (h : Clean c s) (hlater : Later p s c c') : Clean c' s where
  sound := h.sound
  error := h.error
  terminal := h.terminal
  durable q hint hq := hlater.onRow q hint (by simp [hq]) (h.durable q hint hq)

theorem Saved.later (h : Saved c s n) (hlater : Later p s c c') : Saved c' s n where
  clean := h.clean.later hlater
  bare := h.bare
  ended := h.ended
  recorded hn q hq := hlater.recorded q (h.recorded hn q hq)
  failure := h.failure

theorem Ready.later (h : Ready c s next) (hlater : Later p s c c')
    (hcheckpoint : c'.checkpoint = c.checkpoint) : Ready c' s next where
  clean := h.clean.later hlater
  bare := h.bare
  linked := by
    rw [hcheckpoint]
    exact h.linked
  ended := h.ended
  failure := h.failure
  atEnd := by
    rw [hcheckpoint]
    exact h.atEnd

theorem Failed.later (h : Failed c s next) (hlater : Later p s c c')
    (hcheckpoint : c'.checkpoint = c.checkpoint) : Failed c' s next where
  terminal := h.terminal
  linked := by
    rw [hcheckpoint]
    exact h.linked
  next := h.next.imp_right fun ⟨hnone, hrecorded⟩ => ⟨hnone, hlater.llmFailure hrecorded⟩

/-- The run goes on behind a node that has left its checkpoint. -/
theorem Saved.ready_successor (h : Saved c s n) (hcheckpoint : c.checkpoint = some (s, n)) :
    Ready c s (successor s n) := by
  have herror : s.error.getD "" = "" := by simp [h.clean.error]
  refine ⟨h.clean, fun hbare => ?_, fun _ => ⟨n, hcheckpoint⟩, fun hended => ?_, fun hfail => ?_,
    fun hend => ?_⟩
  · cases n <;> simp [successor, h.clean.terminal, herror] at hbare
  · cases n with
    | validateHintQuality => exact h.ended (Or.inl rfl)
    | _ => simp [successor, h.clean.terminal, herror] at hended
  · cases n <;> simp [successor, h.clean.terminal, herror] at hfail
  · cases n with
    | persistHintsToQuestions => exact hcheckpoint
    | persistHintFailureDiagnostics => exact absurd rfl h.failure
    | _ => simp [successor, h.clean.terminal, herror] at hend

/-- The run is taken up from a checkpoint. -/
theorem Saved.ready_resume (h : Saved c s n) (hcheckpoint : c.checkpoint = some (s, n)) :
    Ready c s (some (resolveResumeNextNode s (some n))) := by
  have herror : s.error.getD "" = "" := by simp [h.clean.error]
  refine ⟨h.clean, fun hbare => ?_, fun _ => ⟨n, hcheckpoint⟩, fun hended => ?_, fun hfail => ?_,
    fun hend => nomatch hend⟩
  · cases n with
    | loadHintContext => exact h.bare rfl
    | validateHintQuality =>
      rw [Option.some.injEq, resolveResumeNextNode] at hbare
      split_ifs at hbare
    | _ => simp [resolveResumeNextNode, h.clean.terminal, herror] at hbare <;> split_ifs at hbare
  · cases n with
    | validateHintQuality => exact h.ended (Or.inl rfl)
    | persistHintsToQuestions => exact h.ended (Or.inr rfl)
    | persistHintFailureDiagnostics => exact absurd rfl h.failure
    | _ => simp [resolveResumeNextNode, h.clean.terminal, herror] at hended <;> split_ifs at hended
  · cases n with
    | persistHintFailureDiagnostics => exact absurd rfl h.failure
    | validateHintQuality =>
      rw [Option.some.injEq, resolveResumeNextNode] at hfail
      split_ifs at hfail
    | _ => simp [resolveResumeNextNode, h.clean.terminal, herror] at hfail <;> split_ifs at hfail

end

/-! ## One node -/

section

variable {p : Params} {reply : Option String} {replies : ℕ → Option (List ReplyItem)}
  {s s' : HintState} {quiz quiz' : Quiz} {n : HintNode} {c : Config}

/-- Loading leaves a bare state bare, and finds the quiz there. -/
theorem loadHintContext_cases (hbare : Bare s) (hrun : loadHintContext p s quiz = some s') :
    quiz.db.isPublished p.quizId = some false ∧ Bare s' ∧ s'.questionsForHinting.Nodup ∧
      s'.error = s.error ∧ s'.terminalLlmFailure = s.terminalLlmFailure ∧
      s'.rawLlmOutput = s.rawLlmOutput := by
  have hnodup : (quiz.requested p).Nodup := by
    unfold Quiz.requested
    split_ifs
    · exact quiz.nodup.filter _
    · exact quiz.nodup.filter _
  unfold loadHintContext at hrun
  split_ifs at hrun with hpublished
  cases hrun
  exact ⟨not_not.1 hpublished, ⟨hbare.written, hbare.failed, hbare.validated⟩,
    hnodup.filter _, rfl, rfl, rfl⟩

theorem Bare.sound (h : Bare s) (hnodup : s.questionsForHinting.Nodup) : Sound s where
  nodup := hnodup
  good := by simp [h.written]
  failed hne := absurd h.failed hne
  flushed := by simp [h.validated]

theorem Bare.clean (h : Bare s) (hnodup : s.questionsForHinting.Nodup) (herror : s.error = none)
    (hterminal : s.terminalLlmFailure = false) : Clean c s where
  sound := h.sound hnodup
  error := herror
  terminal := hterminal
  durable := by simp [h.written]

theorem parseItem_ne_empty {validIds : List String} {item : ReplyItem} {message : String}
    (h : parseItem validIds item = .error message) : message ≠ "" := by
  have happend : ∀ a b : String, a ≠ "" → a ++ b ≠ "" := by
    intro a b ha heq
    exact ha (String.append_eq_empty_iff.1 heq).1
  unfold parseItem at h
  split at h
  · cases h
    simp
  · cases h
    simp
  · cases h
    simp
  · split_ifs at h
    · split at h
      · cases h
      · cases h
        simp
      · cases h
        simp
      · cases h
        simp
    · cases h
      rw [String.append_assoc]
      exact happend _ _ (by simp)

/-- A loop that raises has raised at one of its elements. -/
theorem mapM_error {items : List ReplyItem} {validIds : List String} {message : String}
    (h : items.mapM (parseItem validIds) = .error message) :
    ∃ item ∈ items, parseItem validIds item = .error message := by
  induction items with
  | nil => cases h
  | cons item items ih =>
    rw [List.mapM_cons] at h
    cases hitem : parseItem validIds item with
    | error m =>
      rw [hitem] at h
      cases h
      exact ⟨item, List.mem_cons_self, hitem⟩
    | ok payload =>
      rw [hitem] at h
      cases hrest : items.mapM (parseItem validIds) with
      | error m =>
        rw [hrest] at h
        cases h
        obtain ⟨later, hmem, hlater⟩ := ih hrest
        exact ⟨later, List.mem_cons_of_mem _ hmem, hlater⟩
      | ok parsed =>
        rw [hrest] at h
        cases h

theorem parseHints_ne_empty {questions : List String} {raw message : String}
    (h : parseHints p questions raw = .error message) : message ≠ "" := by
  unfold parseHints at h
  split_ifs at h
  · cases h
    simp
  · split at h
    · cases h
      intro heq
      exact absurd (String.append_eq_empty_iff.1 heq).1 (by simp)
    · obtain ⟨item, -, hitem⟩ := mapM_error h
      exact parseItem_ne_empty hitem

/-- A validation without error ends every question. -/
theorem validate_ended (hmax : 0 ≤ p.maxRetries) (h : Sound s) {db : Database} {out : Validation}
    (hout : validateHintQuality replies p.maxRetries s db = some out)
    (herror : out.state.error = none) : Ended out.state := by
  have hquestions : out.state.questionsForHinting = s.questionsForHinting := by
    obtain ⟨_, -, hquestions, -⟩ := validateHintQuality_progressed hmax h hout herror
    exact hquestions
  refine ⟨fun q hq => ?_, fun q hq => ?_⟩
  · rw [hquestions] at hq
    exact ((conserved_of_sound hmax h hout herror).one q hq).or
  · unfold validateHintQuality at hout
    split_ifs at hout with hdup
    · obtain ⟨progress, -, rfl⟩ := Option.map_eq_some_iff.1 hout
      have hne : progress.questionErrors ≠ [] := by
        rintro hnil
        simp [hnil] at hq
      exact ⟨progress.questionErrors, by simp [hne], hq⟩
    · cases hout
      simp at herror

/-- What a validation does not touch. -/
theorem validate_kept {db : Database} {out : Validation}
    (hout : validateHintQuality replies p.maxRetries s db = some out) :
    out.state.terminalLlmFailure = s.terminalLlmFailure ∧
      out.state.rawLlmOutput = s.rawLlmOutput ∧
      out.state.questionsForHinting = s.questionsForHinting ∧
      out.state.parsedHints = s.parsedHints := by
  unfold validateHintQuality at hout
  split_ifs at hout
  · obtain ⟨progress, -, rfl⟩ := Option.map_eq_some_iff.1 hout
    exact ⟨rfl, rfl, rfl, rfl⟩
  · cases hout
    exact ⟨rfl, rfl, rfl, rfl⟩

/-- Hints that a validation counts as written are on their rows. -/
theorem validate_durable {c' : Config} (hmax : 0 ≤ p.maxRetries) (h : Clean c s) {out : Validation}
    (hout : validateHintQuality replies p.maxRetries s c.quiz.db = some out)
    (herror : out.state.error = none) (hquiz : c'.quiz = { c.quiz with db := out.db })
    (htouched : c'.touched = c.touched) (hreplaced : c'.replaced = c.replaced) {q : String}
    {hint : HintPayload} (hq : get out.state.hintsWritten q = some hint) : OnRow c' q hint := by
  have hconserved := conserved_of_sound hmax h.sound hout herror
  cases hold : get s.hintsWritten q with
  | none =>
    refine Or.inr (Or.inr ?_)
    rw [hquiz]
    exact hconserved.staged q hint hq hold
  | some old =>
    obtain ⟨hkept, hrow, -⟩ := hconserved.kept q old hold
    obtain rfl : old = hint := Option.some.inj (hkept.symm.trans hq)
    rw [OnRow, htouched, hreplaced, hquiz]
    simp only [hrow]
    exact h.durable q old hold

/-- **A node that ends well leaves a checkpoint that holds.** -/
theorem Ready.saved (c' : Config) (hmax : 0 ≤ p.maxRetries) (h : Ready c s (some n))
    (hpresent : c.checkpoint ≠ none → c.replaced = true ∨ (c.quiz.db.isPublished p.quizId).isSome)
    (hrun : runNode p reply replies s c.quiz n = some (s', quiz'))
    (hok : nodeSucceeded s' = true) (hquiz : c'.quiz = quiz') (htouched : c'.touched = c.touched)
    (hreplaced : c'.replaced = c.replaced) : Saved c' s' n := by
  have hlater : Later p s c c' :=
    later_of_frame (hquiz ▸ runNode_frame hmax h.clean.sound hrun) htouched hreplaced
  have hclean : Clean c' s := h.clean.later hlater
  cases n with
  | loadHintContext =>
    obtain ⟨t, ht, heq⟩ := Option.map_eq_some_iff.1 hrun
    cases heq
    obtain ⟨-, hbare, hnodup, herror, hterminal, -⟩ := loadHintContext_cases (h.bare rfl) ht
    exact
      { clean := hbare.clean hnodup (herror.trans h.clean.error)
          (hterminal.trans h.clean.terminal)
        bare := fun _ => hbare
        ended := by simp
        recorded := by simp
        failure := by simp }
  | buildHintPromptPayload =>
    cases hrun
    exact
      { clean := ⟨⟨hclean.sound.nodup, hclean.sound.good, hclean.sound.failed,
          hclean.sound.flushed⟩, hclean.error, hclean.terminal, hclean.durable⟩
        bare := by simp
        ended := by simp
        recorded := by simp
        failure := by simp }
  | invokeHintLlm =>
    cases hrun
    unfold invokeHintLlm at hok ⊢
    split_ifs at hok ⊢ with hprompt
    · cases reply with
      | none => simp [nodeSucceeded] at hok
      | some content =>
        exact
          { clean := ⟨⟨hclean.sound.nodup, hclean.sound.good, hclean.sound.failed,
              hclean.sound.flushed⟩, hclean.error, hclean.terminal, hclean.durable⟩
            bare := by simp
            ended := by simp
            recorded := by simp
            failure := by simp }
    · simp [nodeSucceeded] at hok
  | parseHintOutput =>
    cases hrun
    unfold parseHintOutput at hok ⊢
    split at hok
    · next message hparse =>
      simp [nodeSucceeded, parseHints_ne_empty hparse] at hok
    · next parsed hparse =>
      exact
        { clean := ⟨⟨hclean.sound.nodup, hclean.sound.good, hclean.sound.failed,
            hclean.sound.flushed⟩, hclean.error, hclean.terminal, hclean.durable⟩
          bare := by simp
          ended := by simp
          recorded := by simp
          failure := by simp }
  | validateHintQuality =>
    obtain ⟨out, hout, heq⟩ := Option.map_eq_some_iff.1 hrun
    cases heq
    have herror : out.state.error = none := by
      unfold validateHintQuality at hout
      split_ifs at hout
      · obtain ⟨progress, -, rfl⟩ := Option.map_eq_some_iff.1 hout
        exact h.clean.error
      · cases hout
        simp [nodeSucceeded] at hok
    exact
      { clean :=
          { sound := h.clean.sound.validate hmax hout herror
            error := herror
            terminal := (validate_kept hout).1.trans h.clean.terminal
            durable := fun q hint => validate_durable hmax h.clean hout herror hquiz htouched
              hreplaced }
        bare := by simp
        ended := fun _ => validate_ended hmax h.clean.sound hout herror
        recorded := by simp
        failure := by simp }
  | persistHintsToQuestions =>
    obtain ⟨t, ht, heq⟩ := Option.map_eq_some_iff.1 hrun
    cases heq
    have hended := h.ended rfl
    obtain ⟨m, hm⟩ := h.linked (by simp)
    refine
      { clean := hclean
        bare := by simp
        ended := fun _ => hended
        recorded := fun _ q hq => ?_
        failure := by simp }
    obtain ⟨errors, herrors, hmem⟩ := hended.diagnostics q hq
    rw [persistHints_eq h.clean.sound, herrors, Option.some.injEq] at ht
    subst ht
    rcases hpresent (by simp [hm]) with hgone | hthere
    · exact Or.inl (hreplaced.trans hgone)
    · refine Or.inr ?_
      rw [hquiz]
      exact mergeQuestionErrors_recorded hthere hmem
  | persistHintFailureDiagnostics => exact absurd rfl h.failure

/-- **A node that fails ends the graph, or its failure is recorded next.** -/
theorem Ready.not_saved (c' : Config) (h : Ready c s (some n))
    (hrun : runNode p reply replies s c.quiz n = some (s', quiz'))
    (hfail : nodeSucceeded s' = false) (hcheckpoint : c'.checkpoint = c.checkpoint) :
    Stopped s' (successor s' n) ∨ Failed c' s' (successor s' n) := by
  have herror : s.error.getD "" = "" := by simp [h.clean.error]
  cases n with
  | loadHintContext =>
    obtain ⟨t, ht, heq⟩ := Option.map_eq_some_iff.1 hrun
    cases heq
    obtain ⟨-, -, -, hsame, hterminal, -⟩ := loadHintContext_cases (h.bare rfl) ht
    simp [nodeSucceeded, hsame, hterminal, h.clean.error, h.clean.terminal] at hfail
  | buildHintPromptPayload =>
    cases hrun
    simp [nodeSucceeded, buildHintPromptPayload, herror, h.clean.terminal] at hfail
  | invokeHintLlm =>
    obtain ⟨m, hm⟩ := h.linked (by simp)
    cases hrun
    unfold invokeHintLlm at hfail ⊢
    split_ifs at hfail ⊢ with hprompt
    · cases reply with
      | none => exact Or.inr ⟨rfl, by simp [hcheckpoint, hm], Or.inl (by simp [successor])⟩
      | some content => simp [nodeSucceeded, herror, h.clean.terminal] at hfail
    · exact Or.inl ⟨by simp [successor, h.clean.terminal], h.clean.terminal, by simp⟩
  | parseHintOutput =>
    cases hrun
    unfold parseHintOutput at hfail ⊢
    split at hfail
    · next message hparse =>
      have hne := parseHints_ne_empty hparse
      exact Or.inl ⟨by simp [successor, hne], h.clean.terminal, by simpa using hne⟩
    · next parsed hparse => simp [nodeSucceeded, herror, h.clean.terminal] at hfail
  | validateHintQuality =>
    obtain ⟨out, hout, heq⟩ := Option.map_eq_some_iff.1 hrun
    cases heq
    unfold validateHintQuality at hout
    split_ifs at hout
    · obtain ⟨progress, -, rfl⟩ := Option.map_eq_some_iff.1 hout
      simp [nodeSucceeded, herror, h.clean.terminal] at hfail
    · cases hout
      exact Or.inl ⟨by simp [successor], h.clean.terminal, by simp⟩
  | persistHintsToQuestions =>
    obtain ⟨t, ht, heq⟩ := Option.map_eq_some_iff.1 hrun
    cases heq
    simp [nodeSucceeded, herror, h.clean.terminal] at hfail
  | persistHintFailureDiagnostics => exact absurd rfl h.failure

end

/-! ## The run -/

section

variable {p : Params} {s s' : HintState} {n : HintNode} {c c' : Config}

theorem Accounted.start (h : Start c) : Accounted p c where
  present hne := absurd h.checkpoint hne
  saved s n hsaved := by simp [h.checkpoint] at hsaved
  live l hl := by simp [h.live] at hl
  done hdone := by simp [h.completed] at hdone

/-- What a step promises that leaves the checkpoint. -/
theorem Accounted.keep (h : Accounted p c) (hcheckpoint : c'.checkpoint = c.checkpoint)
    (hcompleted : c'.completed = c.completed) (hlive : c'.live = c.live)
    (hreturned : c'.returned = c.returned)
    (hlater : ∀ s, Later p s c c') : Accounted p c' where
  present hne := (hlater initialState).present (h.present (hcheckpoint ▸ hne))
  saved s n hsaved := (h.saved s n (hcheckpoint ▸ hsaved)).later (hlater s)
  live l hl := by
    rcases h.live l (hlive ▸ hl) with hready | hstopped | hfailed
    · exact Or.inl (hready.later (hlater _) hcheckpoint)
    · exact Or.inr (Or.inl hstopped)
    · exact Or.inr (Or.inr (hfailed.later (hlater _) hcheckpoint))
  done hdone := by
    obtain ⟨hnone, hsettled⟩ := h.done (hcompleted ▸ hdone)
    rw [hcheckpoint, hlive, hreturned]
    refine ⟨hnone, ?_⟩
    rcases hsettled with hreplaced | ⟨s, hs, ⟨hterminal, hllm⟩ | hpersisted⟩
    · exact Or.inl ((hlater initialState).replaced hreplaced)
    · exact ((hlater initialState).llmFailure (Or.inr hllm)).imp_right
        fun hllm => ⟨s, hs, Or.inl ⟨hterminal, hllm⟩⟩
    · exact Or.inr ⟨s, hs, Or.inr hpersisted⟩

/-- The graph at work cannot be one of a completed run. -/
theorem Accounted.not_completed (h : Accounted p c) {l : Live} (hl : c.live = some l) :
    c.completed = false := by
  by_contra hdone
  have hnone := (h.done (by simpa using hdone)).1
  simp [hl] at hnone

/-- No node takes away what the checkpoint counts as written. -/
theorem Accounted.frame (h : Accounted p c) {quiz : Quiz} (hl : c.live = some ⟨s, some n⟩)
    (hload : n = .loadHintContext → quiz = c.quiz)
    (hfailure : n = .persistHintFailureDiagnostics → quiz = c.quiz.mergeLlmFailure p.quizId)
    (hframe : Sound s → Frame s c.quiz quiz) {t : HintState} {m : HintNode}
    (hcheckpoint : c.checkpoint = some (t, m)) : Frame t c.quiz quiz := by
  rcases h.live _ hl with hready | hstopped | hfailed
  · by_cases hn : n = .loadHintContext
    · rw [hload hn]
      exact .refl _ _
    · obtain ⟨k, hk⟩ := hready.linked (by simpa using hn)
      have heq : (t, m) = (s, k) := Option.some.inj (hcheckpoint.symm.trans hk)
      cases heq
      exact hframe hready.clean.sound
  · exact nomatch hstopped.next
  · rcases hfailed.next with hnext | ⟨hnone, -⟩
    · rw [hfailure (Option.some.inj hnext)]
      exact mergeLlmFailure_frame
    · exact nomatch hnone

theorem Accounted.enter (h : Accounted p c) {resume : Bool}
    (hstep : step p c (.enter resume) = some c') : Accounted p c' := by
  obtain ⟨hfree, hstep⟩ := Option.ite_none_right_eq_some.1 hstep
  cases hstep
  have hfree : c.live = none ∧ c.completed = false := by
    simp only [Bool.and_eq_true] at hfree
    simpa using hfree.1
  have hlater : ∀ s live count own, Later p s c
      { c with live := live, attemptCount := count, ownErrors := own } :=
    fun s live count own => later_of_frame (.refl _ _) rfl rfl
  have hinitial : ∀ c' : Config, Ready c' initialState (some .loadHintContext) := fun c' =>
    { clean := Bare.clean ⟨rfl, rfl, rfl⟩ List.nodup_nil rfl rfl
      bare := fun _ => ⟨rfl, rfl, rfl⟩
      linked := by simp
      ended := by simp
      failure := by simp
      atEnd := by simp }
  refine
    { present := fun hne => (hlater initialState _ _ _).present (h.present hne)
      saved := fun s n hsaved => (h.saved s n hsaved).later (hlater s _ _ _)
      live := fun l hl => Or.inl ?_
      done := fun hdone => by simp [hfree.2] at hdone }
  obtain rfl := Option.some.inj hl
  cases resume with
  | false => exact hinitial _
  | true =>
    cases hcheckpoint : c.checkpoint with
    | none =>
      simp only [entered, resolveResumeNextNode, if_true]
      exact hinitial _
    | some saved =>
      obtain ⟨s, n⟩ := saved
      have hready := (h.saved s n hcheckpoint).ready_resume hcheckpoint
      simp only [entered, if_true]
      rw [← hcheckpoint]
      exact hready.later (hlater s _ _ _) rfl

theorem Accounted.node (hmax : 0 ≤ p.maxRetries) (h : Accounted p c) {reply : Option String}
    {replies : ℕ → Option (List ReplyItem)}
    (hstep : step p c (.node reply replies) = some c') : Accounted p c' := by
  simp only [step] at hstep
  split at hstep
  case h_2 => cases hstep
  next s n hl =>
  obtain ⟨-, hstep⟩ := Option.ite_none_left_eq_some.1 hstep
  obtain ⟨⟨s', quiz⟩, hrun, rfl⟩ := Option.map_eq_some_iff.1 hstep
  have hnot := h.not_completed hl
  have hframe : ∀ t m, c.checkpoint = some (t, m) → Frame t c.quiz quiz := by
    intro t m hcheckpoint
    refine h.frame hl ?_ ?_ (fun hsound => runNode_frame hmax hsound hrun) hcheckpoint
    · rintro rfl
      obtain ⟨_, -, heq⟩ := Option.map_eq_some_iff.1 hrun
      cases heq
      rfl
    · rintro rfl
      cases hrun
      rfl
  rcases h.live _ hl with hready | hstopped | hfailed
  · cases hok : nodeSucceeded s' with
    | true =>
      have hsaved := hready.saved
        { c with
          quiz := quiz
          checkpoint := some (s', n)
          live := some ⟨s', successor s' n⟩
          asked := if asks s n then c.asked + 1 else c.asked
          ownErrors := c.ownErrors || n = .validateHintQuality }
        hmax h.present hrun hok rfl rfl rfl
      simp only [if_true]
      refine
        { present := fun _ => ?_
          saved := fun t m hcheckpoint => ?_
          live := fun l hl => Or.inl ?_
          done := fun hdone => by simp [hnot] at hdone }
      · by_cases hn : n = .loadHintContext
        · subst hn
          obtain ⟨t, ht, heq⟩ := Option.map_eq_some_iff.1 hrun
          cases heq
          obtain ⟨hthere, -⟩ := loadHintContext_cases (hready.bare rfl) ht
          exact Or.inr (by simp [hthere])
        · obtain ⟨k, hk⟩ := hready.linked (by simpa using hn)
          rw [(hframe s k hk).published]
          exact h.present (by simp [hk])
      · cases hcheckpoint
        exact hsaved
      · cases hl
        exact hsaved.ready_successor rfl
    | false =>
      have hdead := hready.not_saved
        { c with
          quiz := quiz
          live := some ⟨s', successor s' n⟩
          asked := if asks s n then c.asked + 1 else c.asked
          ownErrors := c.ownErrors || n = .validateHintQuality }
        hrun hok rfl
      simp only [Bool.false_eq_true, if_false]
      refine
        { present := fun hne => ?_
          saved := fun t m hcheckpoint => ?_
          live := fun l hl => ?_
          done := fun hdone => by simp [hnot] at hdone }
      · obtain ⟨⟨t, m⟩, hcheckpoint⟩ := Option.ne_none_iff_exists'.1 hne
        rw [(hframe t m hcheckpoint).published]
        exact h.present hne
      · exact (h.saved t m hcheckpoint).later
          (later_of_frame (p := p) (hframe t m hcheckpoint) rfl rfl)
      · cases hl
        exact Or.inr hdead
  · exact nomatch hstopped.next
  · -- the failure of the call is recorded
    rcases hfailed.next with hnext | ⟨hnone, -⟩
    · cases hnext
      cases hrun
      have hterminal : s.terminalLlmFailure = true := hfailed.terminal
      have hfail : nodeSucceeded s = false := by simp [nodeSucceeded, hterminal]
      simp only [hfail, Bool.false_eq_true, if_false]
      refine
        { present := fun hne => ?_
          saved := fun t m hcheckpoint => ?_
          live := fun l hl => Or.inr (Or.inr ?_)
          done := fun hdone => by simp [hnot] at hdone }
      · obtain ⟨⟨t, m⟩, hcheckpoint⟩ := Option.ne_none_iff_exists'.1 hne
        rw [(hframe t m hcheckpoint).published]
        exact h.present hne
      · exact (h.saved t m hcheckpoint).later
          (later_of_frame (p := p) (hframe t m hcheckpoint) rfl rfl)
      · cases hl
        refine ⟨hfailed.terminal, hfailed.linked, Or.inr ⟨rfl, ?_⟩⟩
        refine (h.present hfailed.linked).imp_right fun hthere => ?_
        simp [Quiz.mergeLlmFailure, hthere]
    · exact nomatch hnone

theorem Accounted.broken (hmax : 0 ≤ p.maxRetries) (h : Accounted p c) {reply : Option String}
    {replies : ℕ → Option (List ReplyItem)} {looked : ℕ} {committed : Bool}
    (hstep : step p c (.broken reply replies looked committed) = some c') : Accounted p c' := by
  simp only [step] at hstep
  split at hstep
  case h_3 => cases hstep
  case h_2 s hl =>
    cases hstep
    have hnot := h.not_completed hl
    exact
      { present := h.present
        saved := fun t m hcheckpoint =>
          (h.saved t m hcheckpoint).later (later_of_frame (p := p) (.refl _ _) rfl rfl)
        live := fun l hl => nomatch hl
        done := fun hdone => by simp [hnot] at hdone }
  next s n hl =>
  cases hstep
  have hnot := h.not_completed hl
  have hframe : ∀ t m, c.checkpoint = some (t, m) → Frame t c.quiz
      (if committed && !c.raises p s n then stagedBy p reply replies looked s c.quiz n
        else c.quiz) := by
    intro t m hcheckpoint
    split_ifs
    · refine h.frame hl ?_ ?_ (fun hsound => stagedBy_frame hmax hsound looked n) hcheckpoint
      · rintro rfl
        simp only [stagedBy, runNode, Option.map_map]
        cases loadHintContext p s c.quiz <;> rfl
      · rintro rfl
        rfl
    · exact .refl _ _
  refine
    { present := fun hne => ?_
      saved := fun t m hcheckpoint => ?_
      live := fun l hl => nomatch hl
      done := fun hdone => by simp [hnot] at hdone }
  · obtain ⟨⟨t, m⟩, hcheckpoint⟩ := Option.ne_none_iff_exists'.1 hne
    rw [(hframe t m hcheckpoint).published]
    exact h.present hne
  · exact (h.saved t m hcheckpoint).later (later_of_frame (p := p) (hframe t m hcheckpoint) rfl rfl)

theorem Accounted.finish (h : Accounted p c) (hstep : step p c .finish = some c') :
    Accounted p c' := by
  simp only [step] at hstep
  split at hstep
  case h_2 => cases hstep
  next s hl =>
  cases hstep
  refine
    { present := h.present
      saved := fun t m hcheckpoint =>
        (h.saved t m hcheckpoint).later (later_of_frame (p := p) (.refl _ _) rfl rfl)
      live := fun l hl => nomatch hl
      done := fun hdone => ⟨rfl, ?_⟩ }
  rcases h.live _ hl with hready | hstopped | hfailed
  · exact Or.inr ⟨s, rfl, Or.inr (hready.atEnd rfl)⟩
  · have hterminal : s.terminalLlmFailure = false := hstopped.terminal
    have herror : s.error.getD "" ≠ "" := hstopped.error
    simp [hterminal, herror] at hdone
  · rcases hfailed.next with hnext | ⟨-, hrecorded⟩
    · exact nomatch hnext
    · exact hrecorded.imp_right fun hllm => ⟨s, rfl, Or.inl ⟨hfailed.terminal, hllm⟩⟩

theorem Accounted.step (hmax : 0 ≤ p.maxRetries) (h : Accounted p c) {e : Event}
    (hgoes : Goes p c e) (hstep : step p c e = some c') : Accounted p c' := by
  cases e with
  | enter resume => exact h.enter hstep
  | node reply replies => exact h.node hmax hstep
  | broken reply replies looked committed => exact h.broken hmax hstep
  | finish => exact h.finish hstep
  | others questionIds quiz =>
    cases hstep
    exact h.keep rfl rfl rfl rfl fun s => later_of_keeps hgoes rfl rfl rfl
  | replace quiz =>
    cases hstep
    exact h.keep rfl rfl rfl rfl fun s => later_of_replaced rfl

theorem accounted_of_reachable (hmax : 0 ≤ p.maxRetries)
    (h : Reachable (step p) (Goes p) Start c) : Accounted p c :=
  h.invariant (fun _ hs => .start hs) fun _ _ _ hc hgoes hstep => hc.step hmax hgoes hstep

/-- **Nothing is lost, wherever a run breaks off.**  Whatever crashes, stops and resumptions a run
has behind it and whatever others do meanwhile: the hints that its checkpoint counts as written
have passed and are on their rows, unless others have changed the question; and when it ends
as completed, its call has failed for good and the failure is recorded, or each question of its
batch has such hints or a recorded error. -/
theorem completed_accounted (hmax : 0 ≤ p.maxRetries)
    (h : Reachable (step p) (Goes p) Start c) :
    (∀ s n, c.checkpoint = some (s, n) → ∀ q hint, get s.hintsWritten q = some hint →
      hint.issue = none ∧ OnRow c q hint) ∧
    (c.completed = true → c.replaced = true ∨ ∃ s, c.returned = some s ∧
      (s.terminalLlmFailure = true ∧ c.quiz.llmFailure = true ∨
        s.terminalLlmFailure = false ∧ ∀ q ∈ s.questionsForHinting,
          (∃ hint, get s.hintsWritten q = some hint ∧ hint.issue = none ∧ OnRow c q hint) ∨
          q ∈ s.failedQuestionIds ∧ Recorded c q)) := by
  have hinv := accounted_of_reachable hmax h
  have hwritten : ∀ s n, c.checkpoint = some (s, n) → ∀ q hint,
      get s.hintsWritten q = some hint → hint.issue = none ∧ OnRow c q hint := by
    intro s n hcheckpoint q hint hq
    have hclean := (hinv.saved s n hcheckpoint).clean
    exact ⟨hclean.sound.good q hint hq, hclean.durable q hint hq⟩
  refine ⟨hwritten, fun hdone => ?_⟩
  obtain ⟨-, hreplaced | ⟨s, hs, hfailure | hcheckpoint⟩⟩ := hinv.done hdone
  · exact Or.inl hreplaced
  · exact Or.inr ⟨s, hs, Or.inl hfailure⟩
  · have hsaved := hinv.saved s _ hcheckpoint
    refine Or.inr ⟨s, hs, Or.inr ⟨hsaved.clean.terminal, fun q hq => ?_⟩⟩
    rcases (hsaved.ended (Or.inr rfl)).one q hq with hsome | hfailed
    · obtain ⟨hint, hhint⟩ := Option.isSome_iff_exists.1 hsome
      obtain ⟨hgood, honRow⟩ := hwritten s _ hcheckpoint q hint hhint
      exact Or.inl ⟨hint, hhint, hgood, honRow⟩
    · exact Or.inr ⟨hfailed, hsaved.recorded rfl q hfailed⟩

end

/-- A quiz with one question, which has no hints yet. -/
def sampleQuiz : Quiz where
  db := oneRow
  order := ["q"]
  nodup := List.nodup_singleton _
  questionErrors := []
  llmFailure := false

/-- Hints for all questions without any; every answer is read as hints for the question. -/
def sampleParams : Params where
  quizId := "quiz"
  filterIds := []
  maxRetries := 2
  loads _ := .ok (some [.object (some (.str "q")) (some hints.hint1) (some hints.hint2)
    (some hints.hint3)])

def sampleStart : Config where
  quiz := sampleQuiz
  checkpoint := none
  live := none
  completed := false
  touched := []
  replaced := false
  asked := 0

/-- The worker dies in the call, and it dies again when the hints were staged. -/
def sampleEvents : List Event :=
  [.enter false, .node none fun _ => none, .node none fun _ => none,
    .broken (some "[...]") (fun _ => none) 0 false, .enter true,
    .node (some "[...]") fun _ => none, .node none fun _ => none,
    .broken none (fun _ => none) 1 true, .enter true, .node none fun _ => none,
    .node none fun _ => none, .finish]

theorem goes_sample (e : Event) (he : e ∈ sampleEvents) (c : Config) : Goes sampleParams c e := by
  simp only [sampleEvents, List.mem_cons, List.not_mem_nil, or_false] at he
  rcases he with rfl | rfl | rfl | rfl | rfl | rfl | rfl | rfl | rfl | rfl | rfl | rfl <;> trivial

/-- The run is completed all the same, and the hints are on the row. -/
theorem completed_accounted_sample :
    ∃ c, Reachable (step sampleParams) (Goes sampleParams) Start c ∧ c.completed = true ∧
      c.asked = 2 ∧ ∃ s, c.returned = some s ∧ s.questionsForHinting = ["q"] ∧
        ∀ q ∈ s.questionsForHinting,
          (∃ hint, get s.hintsWritten q = some hint ∧ hint.issue = none ∧ OnRow c q hint) ∨
          q ∈ s.failedQuestionIds ∧ Recorded c q := by
  have hrun : ∃ c, run (step sampleParams) sampleStart sampleEvents = some c ∧
      c.completed = true ∧ c.asked = 2 ∧ c.replaced = false ∧ c.quiz.llmFailure = false ∧
        c.returned.map HintState.questionsForHinting = some ["q"] :=
    ⟨_, rfl, rfl, rfl, rfl, rfl, rfl⟩
  obtain ⟨c, hrun, hdone, hasked, hreplaced, hllm, hbatch⟩ := hrun
  have hstart : Reachable (step sampleParams) (Goes sampleParams) Start sampleStart :=
    .init ⟨rfl, rfl, rfl⟩
  have hreach := hstart.run goes_sample hrun
  refine ⟨c, hreach, hdone, hasked, ?_⟩
  rcases (completed_accounted (by decide) hreach).2 hdone with hgone | ⟨s, hs, hsettled⟩
  · simp [hreplaced] at hgone
  · rw [hs] at hbatch
    rcases hsettled with ⟨-, hfailed⟩ | ⟨-, haccount⟩
    · simp [hllm] at hfailed
    · exact ⟨s, hs, Option.some.inj hbatch, haccount⟩

end StudyAgent.Hints.Graph
