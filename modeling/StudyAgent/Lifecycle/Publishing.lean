import StudyAgent.Lifecycle.Locks

/-!
# Published quizzes

What a quiz is while it is published, whatever the sessions do in between.  Three writers do not
ask: the one that publishes does not ask whether the quiz is discarded, the one that replaces a
draft not what has become of it, and the one that patches questions only after it has changed them.

Main results:

* `Guarded.step` — what one statement keeps, if it spares the quizzes that are published or
  discarded.
* `published_quiz_immutable` — **the published quizzes of every reachable state.**
-/

namespace StudyAgent.Lifecycle

open ReadCommitted
variable {Q J S : Type}

/-! ## Statements that spare -/

section

variable [DecidableEq S]

/-- The quiz that a session works on. -/
def Phase.quizId : Phase Q J → Option Q
  | .idle | .done => none
  | .publishing _ k _ | .editing k | .hintStarted k | .hinting k _ _ | .regenerating k
  | .replacing k _ | .inserting k _ _ | .reworking k | .patching k _ | .flushing k _ => some k

/-- No discarded quiz is published, no quiz is replaced that is published or discarded, and no
question is patched of a quiz that is published or not the one that was reworked. -/
def System.Spares (sys : System Q J S) : Event Q J S → Prop
  | .lockTarget s =>
    ∀ k ∈ (sys.phase s).quizId, ∀ quiz ∈ sys.quizzes.view s k, quiz.lifecycleStatus ≠ .discarded
  | .replaceQuiz s _ _ =>
    ∀ k ∈ (sys.phase s).quizId, ∀ quiz ∈ sys.quizzes.view s k,
      quiz.isPublished = false ∧ quiz.lifecycleStatus ≠ .discarded
  | .lockPatched s =>
    ∀ k ∈ (sys.phase s).quizId, ∀ quiz ∈ sys.quizzes.view s k, quiz.isPublished = false
  | .flushPatch s =>
    ∀ next ∈ (sys.phase s).nextPatched, ∀ question ∈ sys.question s next.1,
      (sys.phase s).quizId = some question.quizId
  | _ => True

instance [DecidableEq Q] (sys : System Q J S) : ∀ e, Decidable (sys.Spares e)
  | .lockTarget s =>
    inferInstanceAs (Decidable (∀ k ∈ (sys.phase s).quizId, ∀ quiz ∈ sys.quizzes.view s k, _))
  | .replaceQuiz s _ _ =>
    inferInstanceAs (Decidable (∀ k ∈ (sys.phase s).quizId, ∀ quiz ∈ sys.quizzes.view s k, _ ∧ _))
  | .lockPatched s =>
    inferInstanceAs (Decidable (∀ k ∈ (sys.phase s).quizId, ∀ quiz ∈ sys.quizzes.view s k, _))
  | .flushPatch s =>
    inferInstanceAs (Decidable (∀ next ∈ (sys.phase s).nextPatched, ∀ question ∈ _, _))
  | .lockNode .. | .checkHints _ | .archiveOthers _ | .activate _ | .unpublish .. | .discard ..
  | .discardDrafts .. | .openEdit .. | .edit .. | .createQuestion .. | .startHints ..
  | .loadHints .. | .writeHints .. | .startRegenerate .. | .deleteQuestions _ | .generate ..
  | .insertQuestion _ | .startRework .. | .readPatched .. | .commit _ | .rollback _ | .settle _
  | .resume _ | .finish _ => isTrue trivial

end

theorem Edit.quizId_apply (question : QuizQuestion Q) (e : Edit Q) :
    (e.apply question).quizId = question.quizId := by
  cases e <;> rfl

/-! ## Events -/

section

variable [Fintype Q] [DecidableEq Q] [Fintype J] [DecidableEq J] [Fintype S] [DecidableEq S]
  {sys sys' : System Q J S} {s : S} {k : Q} {phase : Phase Q J}

theorem Guarded.lockNode (h : Guarded sys) {n : ℕ}
    (hstep : sys.step (.lockNode s n k) = some sys') : Keeps sys sys' := by
  rw [System.step] at hstep
  split at hstep
  · rename_i hphase
    obtain ⟨hedits, hlocks⟩ := h.phaseOk hphase
    have hwrote := System.wroteQuizzes hstep
    have hrow : ∀ i quiz, ((sys.quizzes.view s i).filter fun quiz => quiz.nodeId = n) = some quiz →
        sys.quizzes.rows i = some quiz := by
      intro i quiz hi
      rw [← hlocks.unchanged.view i]
      exact (Option.filter_eq_some_iff.1 hi).1
    exact h.wroteQuizzes hwrote (fun i quiz hi => h.writeOk (hrow i quiz hi)) (Or.inl hedits)
      ⟨hwrote.noEdits hedits, hwrote.unchanged hlocks.unchanged hrow⟩
  · cases hstep

theorem Guarded.lockTarget (h : Guarded sys) (hspares : sys.Spares (.lockTarget s))
    (hstep : sys.step (.lockTarget s) = some sys') : Keeps sys sys' := by
  rw [System.step] at hstep
  split at hstep
  · rename_i n k hphase
    obtain ⟨hedits, hsame⟩ := h.phaseOk hphase
    obtain ⟨quiz, hview, hstep⟩ := Option.bind_eq_some_iff.1 hstep
    split_ifs at hstep with hquiz
    have hkept : quiz.lifecycleStatus ≠ .discarded := hspares k (by rw [hphase]; rfl) quiz hview
    have hwrote := System.wroteQuizzes hstep
    refine h.lock hsame hview (Or.inl hedits) hwrote fun hrow hsame' => ?_
    refine ⟨hwrote.noEdits hedits, hsame', quiz, hwrote.written (only_eq_some.2 ⟨rfl, rfl⟩), ?_,
      hquiz.2, hkept⟩
    rw [hwrote.aside.quizRows]
    exact hrow
  · cases hstep

theorem Guarded.checkHints (h : Guarded sys) (hstep : sys.step (.checkHints s) = some sys') :
    Keeps sys sys' := by
  rw [System.step] at hstep
  split at hstep
  · rename_i n k hphase
    obtain ⟨hedits, hsame, htarget⟩ := h.phaseOk hphase
    split_ifs at hstep with hmissing
    cases hstep
    refine h.enter ⟨hedits, hsame, htarget, fun j question hj hq => ?_⟩
    by_contra hincomplete
    refine hmissing ⟨j, question, ?_, hq, hincomplete⟩
    rw [Option.mem_def, question_eq_some, hedits.view]
    exact hj
  · cases hstep

theorem Guarded.archiveOthers (h : Guarded sys)
    (hstep : sys.step (.archiveOthers s) = some sys') : Keeps sys sys' := by
  rw [System.step] at hstep
  split at hstep
  · rename_i n k hphase
    obtain ⟨hedits, hsame, ⟨quiz, hp, hrow, hquiz⟩, hints⟩ := h.phaseOk hphase
    have hwrote := System.wroteQuizzes hstep
    refine h.wroteQuizzes hwrote (fun i new hi => ?_) (Or.inl hedits)
      ⟨hwrote.noEdits hedits, ⟨quiz, hwrote.kept ?_ hp, ?_, hquiz⟩, ?_⟩
    · obtain ⟨old, hold, rfl⟩ := Option.map_eq_some_iff.1 hi
      obtain ⟨hview, hcond⟩ := Option.filter_eq_some_iff.1 hold
      rw [hsame.view] at hview
      refine ⟨Quiz.transitionToArchived_consistent, fun hpub => (by cases hpub), ?_⟩
      intro committed hcommitted hdiscarded
      rw [hview] at hcommitted
      cases hcommitted
      have hactive := (h.consistent i old hview).1 (of_decide_eq_true hcond).2.1
      rw [hactive] at hdiscarded
      cases hdiscarded
    · rw [hsame.view k, hrow]
      simp
    · rw [hwrote.aside.quizRows]
      exact hrow
    · intro j question hj
      rw [hwrote.aside.questionRows] at hj
      exact hints j question hj
  · cases hstep

theorem Guarded.activate (h : Guarded sys) (hstep : sys.step (.activate s) = some sys') :
    Keeps sys sys' := by
  rw [System.step] at hstep
  split at hstep
  · rename_i n k hphase
    obtain ⟨hedits, ⟨quiz, hp, hrow, -, hkept⟩, hints⟩ := h.phaseOk hphase
    rw [Store.view_of_pending hp] at hstep
    have hwrote := System.wroteQuizzes hstep
    refine h.wroteQuizzes hwrote (fun i new hi => ?_) (Or.inl hedits)
      (Or.inl (hwrote.noEdits hedits))
    obtain ⟨rfl, rfl⟩ := only_eq_some.1 hi
    refine ⟨Quiz.transitionToActive_consistent, fun _ => hints, fun old hold hdiscarded => ?_⟩
    rw [hrow] at hold
    cases hold
    exact absurd hdiscarded hkept
  · cases hstep

theorem Guarded.unpublish (h : Guarded sys) {n : ℕ} {retention : RetentionMode}
    (hstep : sys.step (.unpublish s n k retention) = some sys') : Keeps sys sys' := by
  rw [System.step] at hstep
  split at hstep
  · rename_i hphase
    obtain ⟨-, hlocks⟩ := h.phaseOk hphase
    obtain ⟨quiz, hview, hstep⟩ := Option.bind_eq_some_iff.1 hstep
    split_ifs at hstep with hquiz
    rw [hlocks.unchanged.view] at hview
    refine h.wroteFirst (System.wroteQuizzes hstep) hphase fun i new hi => ?_
    obtain ⟨rfl, rfl⟩ := only_eq_some.1 hi
    have hactive := (h.consistent i quiz hview).1 hquiz.2
    refine ⟨?_, fun hpub => ?_, fun old hold hdiscarded => ?_⟩
    · cases retention
      · exact Quiz.transitionToArchived_consistent
      · exact Quiz.transitionToHidden_consistent
    · cases retention <;> cases hpub
    · rw [hview] at hold
      cases hold
      rw [hactive] at hdiscarded
      cases hdiscarded
  · cases hstep

theorem Guarded.discard (h : Guarded sys) {n : ℕ}
    (hstep : sys.step (.discard s n k) = some sys') : Keeps sys sys' := by
  rw [System.step] at hstep
  split at hstep
  · rename_i hphase
    obtain ⟨quiz, -, hstep⟩ := Option.bind_eq_some_iff.1 hstep
    split_ifs at hstep with hquiz
    refine h.wroteFirst (System.wroteQuizzes hstep) hphase fun i new hi => ?_
    obtain ⟨rfl, rfl⟩ := only_eq_some.1 hi
    refine ⟨Quiz.discard_consistent, fun hpub => ?_, fun _ _ _ => rfl⟩
    cases hpub
  · cases hstep

theorem Guarded.discardDrafts (h : Guarded sys) {versions : List ℕ}
    (hstep : sys.step (.discardDrafts s versions) = some sys') : Keeps sys sys' := by
  rw [System.step] at hstep
  split at hstep
  · rename_i hphase
    refine h.wroteFirst (System.wroteQuizzes hstep) hphase fun i new hi => ?_
    obtain ⟨old, -, rfl⟩ := Option.map_eq_some_iff.1 hi
    refine ⟨by simp [Quiz.Consistent, Quiz.discard], fun hpub => ?_, fun _ _ _ => rfl⟩
    cases hpub
  · cases hstep

/-! ### The mentor's edits -/

theorem Guarded.openEdit (h : Guarded sys) (hstep : sys.step (.openEdit s k) = some sys') :
    Keeps sys sys' := by
  rw [System.step] at hstep
  split at hstep
  · rename_i hphase
    obtain ⟨hedits, hlocks⟩ := h.phaseOk hphase
    obtain ⟨quiz, hview, hstep⟩ := Option.bind_eq_some_iff.1 hstep
    split_ifs at hstep with hpub
    exact h.wroteUnpublished hedits hlocks hview (System.wroteQuizzes hstep) hpub And.intro
  · cases hstep

theorem Guarded.edit (h : Guarded sys) {j : J} {e : Edit Q}
    (hstep : sys.step (.edit s j e) = some sys') : Keeps sys sys' := by
  rw [System.step] at hstep
  split at hstep
  · rename_i k hphase
    obtain ⟨hholds, hunpublished⟩ := h.phaseOk hphase
    obtain ⟨question, hread, hstep⟩ := Option.bind_eq_some_iff.1 hstep
    split_ifs at hstep with hquestion
    have hwrote := System.wroteQuestions hstep
    refine h.wroteOne hwrote (h.editOk hread (hquestion.1 ▸ hholds) ?_)
      ⟨(holds_of_wroteQuestions hwrote).2 hholds, hwrote.unpublished hunpublished⟩
    intro new hnew
    cases hnew
    exact Edit.quizId_apply question e
  · cases hstep

theorem Guarded.createQuestion (h : Guarded sys) {j : J} {row : QuizQuestion Q}
    (hstep : sys.step (.createQuestion s j row) = some sys') : Keeps sys sys' := by
  rw [System.step] at hstep
  split at hstep
  · rename_i k hphase
    obtain ⟨hholds, hunpublished⟩ := h.phaseOk hphase
    split_ifs at hstep with hnew
    have hwrote := System.wroteQuestions hstep
    have hread : sys.question s j = none := by
      simp [System.question, Store.view, hnew]
    exact h.wroteOne hwrote (h.editOk_new hread hholds)
      ⟨(holds_of_wroteQuestions hwrote).2 hholds, hwrote.unpublished hunpublished⟩
  · cases hstep

/-! ### Hint runs -/

theorem Guarded.startHints (h : Guarded sys) (hstep : sys.step (.startHints s k) = some sys') :
    Keeps sys sys' := by
  rw [System.step] at hstep
  split at hstep
  · rename_i hphase
    obtain ⟨quiz, -, hstep⟩ := Option.bind_eq_some_iff.1 hstep
    split_ifs at hstep
    cases hstep
    exact h.start hphase And.intro
  · cases hstep

theorem Guarded.loadHints (h : Guarded sys) {filterIds : Option (List J)}
    (hstep : sys.step (.loadHints s filterIds) = some sys') : Keeps sys sys' := by
  rw [System.step] at hstep
  split at hstep
  · rename_i k hphase
    obtain ⟨-, hlocks⟩ := h.phaseOk hphase
    obtain ⟨quiz, -, hstep⟩ := Option.bind_eq_some_iff.1 hstep
    split_ifs at hstep
    cases hstep
    exact h.enter ⟨hlocks.unchanged, hlocks.unpublished⟩
  · cases hstep

theorem Guarded.writeHints (h : Guarded sys) {j : J} {hint1 hint2 hint3 : String}
    (hstep : sys.step (.writeHints s j hint1 hint2 hint3) = some sys') : Keeps sys sys' := by
  rw [System.step] at hstep
  split at hstep
  · rename_i k loaded written hphase
    obtain ⟨hsame, hunpublished⟩ := h.phaseOk hphase
    split_ifs at hstep
    obtain ⟨question, hread, hstep⟩ := Option.bind_eq_some_iff.1 hstep
    obtain ⟨quiz, hview, hstep⟩ := Option.bind_eq_some_iff.1 hstep
    split_ifs at hstep with hpub
    obtain ⟨locked, hlock, hstep⟩ := Option.bind_eq_some_iff.1 hstep
    have hlocked := System.wroteQuizzes hlock
    have hrow : sys.quizzes.rows question.quizId = some quiz :=
      (hsame.view question.quizId).symm.trans hview
    have hunpublished' : Unpublished locked s := by
      refine hlocked.unpublished hunpublished fun i new hi => ?_
      obtain ⟨rfl, rfl⟩ := only_eq_some.1 hi
      exact hpub
    have hholds : Holds locked s question.quizId := by
      refine holds_of_locked hlocked hpub fun old hold => ?_
      rw [hrow] at hold
      cases hold
      exact hpub
    have hfirst : Keeps sys locked :=
      h.lock hsame hview (Or.inr hpub) hlocked fun _ hsame' => ⟨hsame', hunpublished'⟩
    have hsame' : Unchanged locked s := (hfirst.guarded.phaseOk hlocked.phase).1
    have hwrote := System.wroteQuestions hstep
    refine (hfirst.guarded.wroteOne hwrote ?_
      ⟨hwrote.unchanged hsame', hwrote.unpublished hunpublished'⟩).after hlocked.aside
    have hread' : locked.question s j = some question := by
      rw [System.question, hlocked.questions]
      exact hread
    refine hfirst.guarded.editOk hread' hholds fun new hnew => ?_
    cases hnew
    rfl
  · cases hstep

/-! ### Regenerations -/

theorem Guarded.startRegenerate (h : Guarded sys)
    (hstep : sys.step (.startRegenerate s k) = some sys') : Keeps sys sys' := by
  rw [System.step] at hstep
  split at hstep
  · rename_i hphase
    obtain ⟨quiz, -, hstep⟩ := Option.bind_eq_some_iff.1 hstep
    split_ifs at hstep
    cases hstep
    exact h.start hphase And.intro
  · cases hstep

theorem Guarded.replaceQuiz (h : Guarded sys) {version : Option ℕ}
    {questions : List (Option J × Content)}
    (hspares : sys.Spares (.replaceQuiz s version questions))
    (hstep : sys.step (.replaceQuiz s version questions) = some sys') : Keeps sys sys' := by
  rw [System.step] at hstep
  split at hstep
  · rename_i k hphase
    obtain ⟨hedits, hlocks⟩ := h.phaseOk hphase
    obtain ⟨quiz, hview, hstep⟩ := Option.bind_eq_some_iff.1 hstep
    have hquiz := hspares k (by rw [hphase]; rfl) quiz hview
    refine h.wroteDraft hedits hlocks (System.wroteQuizzes hstep) hquiz.1 rfl
      (fun old hold => ?_) And.intro
    rw [← hlocks.unchanged.view, hview] at hold
    cases hold
    exact hquiz
  · cases hstep

theorem Guarded.deleteQuestions (h : Guarded sys)
    (hstep : sys.step (.deleteQuestions s) = some sys') : Keeps sys sys' := by
  rw [System.step] at hstep
  split at hstep
  · rename_i k questions hphase
    obtain ⟨hholds, hunpublished⟩ := h.phaseOk hphase
    have hwrote := System.wroteQuestions hstep
    refine h.wroteQuestions hwrote (fun j row hj => ?_)
      ⟨(holds_of_wroteQuestions hwrote).2 hholds, hwrote.unpublished hunpublished⟩
    obtain ⟨question, hfound, rfl⟩ := Option.map_eq_some_iff.1 hj
    obtain ⟨hread, hk⟩ := Option.filter_eq_some_iff.1 hfound
    refine h.editOk hread ?_ (by simp)
    rwa [of_decide_eq_true hk]
  · cases hstep

theorem Guarded.generate (h : Guarded sys) {n version : ℕ} {questions : List (Option J × Content)}
    (hstep : sys.step (.generate s k n version questions) = some sys') : Keeps sys sys' := by
  rw [System.step] at hstep
  split at hstep
  · rename_i hphase
    obtain ⟨hedits, hlocks⟩ := h.phaseOk hphase
    split_ifs at hstep with hnew
    exact h.wroteDraft hedits hlocks (System.wroteQuizzes hstep) rfl rfl
      (by simp [hnew.1]) And.intro
  · cases hstep

theorem Guarded.insertQuestion (h : Guarded sys)
    (hstep : sys.step (.insertQuestion s) = some sys') : Keeps sys sys' := by
  rw [System.step] at hstep
  split at hstep
  · rename_i hphase
    cases hstep
    exact h.enter (Or.inr (h.phaseOk hphase).2)
  · rename_i k j content questions replaces hphase
    obtain ⟨hholds, hunpublished⟩ := h.phaseOk hphase
    split_ifs at hstep with hread
    have hwrote := System.wroteQuestions hstep
    exact h.wroteOne hwrote (h.editOk_new hread hholds)
      ⟨(holds_of_wroteQuestions hwrote).2 hholds, hwrote.unpublished hunpublished⟩
  · cases hstep

/-! ### Reworks -/

theorem Guarded.startRework (h : Guarded sys) (hstep : sys.step (.startRework s k) = some sys') :
    Keeps sys sys' := by
  rw [System.step] at hstep
  split at hstep
  · rename_i hphase
    obtain ⟨quiz, -, hstep⟩ := Option.bind_eq_some_iff.1 hstep
    split_ifs at hstep
    cases hstep
    exact h.start hphase And.intro
  · cases hstep

theorem Guarded.readPatched (h : Guarded sys) {j : J} {patch : Patch}
    (hstep : sys.step (.readPatched s j patch) = some sys') : Keeps sys sys' := by
  rw [System.step] at hstep
  split at hstep
  · rename_i k hphase
    obtain ⟨question, -, hstep⟩ := Option.bind_eq_some_iff.1 hstep
    split_ifs at hstep
    cases hstep
    obtain ⟨hedits, hlocks⟩ := h.phaseOk hphase
    exact h.enter ⟨hedits, hlocks⟩
  · rename_i k dirty hphase
    obtain ⟨question, -, hstep⟩ := Option.bind_eq_some_iff.1 hstep
    split_ifs at hstep
    cases hstep
    obtain ⟨hedits, hlocks⟩ := h.phaseOk hphase
    exact h.enter ⟨hedits, hlocks⟩
  · cases hstep

theorem Guarded.lockPatched (h : Guarded sys) (hspares : sys.Spares (.lockPatched s))
    (hstep : sys.step (.lockPatched s) = some sys') : Keeps sys sys' := by
  rw [System.step] at hstep
  split at hstep
  · rename_i k dirty hphase
    obtain ⟨hedits, hlocks⟩ := h.phaseOk hphase
    obtain ⟨quiz, hview, hstep⟩ := Option.bind_eq_some_iff.1 hstep
    have hpub := hspares k (by rw [hphase]; rfl) quiz hview
    exact h.wroteUnpublished hedits hlocks hview (System.wroteQuizzes hstep) hpub And.intro
  · cases hstep

theorem Guarded.flushPatch (h : Guarded sys) (hspares : sys.Spares (.flushPatch s))
    (hstep : sys.step (.flushPatch s) = some sys') : Keeps sys sys' := by
  rw [System.step] at hstep
  split at hstep
  · rename_i k hphase
    cases hstep
    exact h.enter (Or.inr (h.phaseOk hphase).2)
  · rename_i k j loaded patch dirty hphase
    obtain ⟨hholds, hunpublished⟩ := h.phaseOk hphase
    obtain ⟨question, hread, hstep⟩ := Option.bind_eq_some_iff.1 hstep
    have hk : k = question.quizId := by
      have hsome := hspares (j, loaded, patch) (by rw [hphase]; rfl) question hread
      rw [hphase] at hsome
      exact Option.some.inj hsome
    have hwrote := System.wroteQuestions hstep
    refine h.wroteOne hwrote (h.editOk hread (hk ▸ hholds) fun new hnew => ?_)
      ⟨(holds_of_wroteQuestions hwrote).2 hholds, hwrote.unpublished hunpublished⟩
    cases hnew
    rfl
  · cases hstep

/-! ### The ends of transactions and of runs -/

theorem Guarded.commitStep (h : Guarded sys) (hstep : sys.step (.commit s) = some sys') :
    Keeps sys sys' := by
  rw [System.step] at hstep
  split_ifs at hstep with hcommits
  cases hstep
  exact h.commit (h.commits hcommits) fun _ => phaseOk_committed _

/-- **A statement that spares the published and the discarded quizzes keeps the invariant.** -/
theorem Guarded.step (h : Guarded sys) {e : Event Q J S} (hspares : sys.Spares e)
    (hstep : sys.step e = some sys') : Keeps sys sys' := by
  cases e with
  | lockNode s n k => exact h.lockNode hstep
  | lockTarget s => exact h.lockTarget hspares hstep
  | checkHints s => exact h.checkHints hstep
  | archiveOthers s => exact h.archiveOthers hstep
  | activate s => exact h.activate hstep
  | unpublish s n k retention => exact h.unpublish hstep
  | discard s n k => exact h.discard hstep
  | discardDrafts s versions => exact h.discardDrafts hstep
  | openEdit s k => exact h.openEdit hstep
  | edit s j e => exact h.edit hstep
  | createQuestion s j row => exact h.createQuestion hstep
  | startHints s k => exact h.startHints hstep
  | loadHints s filterIds => exact h.loadHints hstep
  | writeHints s j hint1 hint2 hint3 => exact h.writeHints hstep
  | startRegenerate s k => exact h.startRegenerate hstep
  | replaceQuiz s version questions => exact h.replaceQuiz hspares hstep
  | deleteQuestions s => exact h.deleteQuestions hstep
  | generate s k n version questions => exact h.generate hstep
  | insertQuestion s => exact h.insertQuestion hstep
  | startRework s k => exact h.startRework hstep
  | readPatched s j patch => exact h.readPatched hstep
  | lockPatched s => exact h.lockPatched hspares hstep
  | flushPatch s => exact h.flushPatch hspares hstep
  | commit s => exact h.commitStep hstep
  | rollback s =>
    cases hstep
    exact h.rollback fun _ => phaseOk_rolledBack _
  | settle s =>
    cases hstep
    exact h.running _
  | resume s =>
    obtain ⟨run, -, hstep⟩ := Option.bind_eq_some_iff.1 hstep
    split_ifs at hstep
    cases hstep
    exact h.running _
  | finish s =>
    cases hstep
    exact h.rollback fun _ => And.intro

/-! ## Runs -/

theorem guarded_of_reachable
    (h : Runs.Reachable System.step System.Spares (fun sys => sys.Fresh ∧ Sound sys) sys) :
    Guarded sys :=
  h.invariant (fun _ hs => hs.2.guarded hs.1) fun _ _ _ hinv hspares hstep =>
    (hinv.step hspares hstep).guarded

/-- A later state of the run. -/
theorem Guarded.later (h : Guarded sys)
    (hlater : Runs.Reachable System.step System.Spares (· = sys) sys') :
    Guarded sys' ∧ ∀ k quiz, sys.quizzes.rows k = some quiz → quiz.lifecycleStatus = .discarded →
      ∃ quiz', sys'.quizzes.rows k = some quiz' ∧ quiz'.lifecycleStatus = .discarded := by
  induction hlater with
  | init hsame =>
    subst hsame
    exact ⟨h, fun k quiz hk hdiscarded => ⟨quiz, hk, hdiscarded⟩⟩
  | next _ hspares hstep ih =>
    obtain ⟨hinv, hdiscarded⟩ := ih
    have hkeeps := hinv.step hspares hstep
    refine ⟨hkeeps.guarded, fun k quiz hk hd => ?_⟩
    obtain ⟨quiz', hk', hd'⟩ := hdiscarded k quiz hk hd
    exact hkeeps.discarded k quiz' hk' hd'

/-- **Published quizzes are consistent and immutable, and discarded ones stay discarded**, in every
run whose steps spare them. -/
theorem published_quiz_immutable
    (h : Runs.Reachable System.step System.Spares (fun sys => sys.Fresh ∧ Sound sys) sys) :
    Sound sys ∧
      (∀ e sys', sys.Spares e → sys.step e = some sys' →
        ∀ k quiz, sys.quizzes.rows k = some quiz → quiz.isPublished = true →
          ∀ j question, question.quizId = k →
            (sys'.questions.rows j = some (some question) ↔
              sys.questions.rows j = some (some question))) ∧
      ∀ sys', Runs.Reachable System.step System.Spares (· = sys) sys' →
        ∀ k quiz, sys.quizzes.rows k = some quiz → quiz.lifecycleStatus = .discarded →
          ∃ quiz', sys'.quizzes.rows k = some quiz' ∧ quiz'.lifecycleStatus = .discarded := by
  have hguarded := guarded_of_reachable h
  refine ⟨⟨hguarded.consistent, hguarded.complete⟩, fun e sys' hspares hstep => ?_,
    fun sys' hlater k quiz hk hdiscarded => ?_⟩
  · exact (hguarded.step hspares hstep).questions
  · exact (hguarded.later hlater).2 k quiz hk hdiscarded

/-! ## Two sessions -/

/-- A quiz with a question that has its hints. -/
def hintedQuiz : List (Event Unit Bool Bool) :=
  [.generate true () 0 0 [(false, { questionText := "?", optionA := "a", optionB := "b" })],
    .insertQuestion true, .insertQuestion true, .commit true,
    .startHints true (), .loadHints true none, .writeHints true false "h" "h" "h", .commit true,
    .finish true]

/-- A quiz is published. -/
def publishing : List (Event Unit Bool Bool) :=
  [.lockNode true 0 (), .lockTarget true, .checkHints true, .archiveOthers true, .activate true,
    .commit true]

/-- A regeneration replaces the quiz by one with another question. -/
def replacing : List (Event Unit Bool Bool) :=
  [.replaceQuiz false none [(true, { questionText := "!", optionA := "c", optionB := "d" })],
    .deleteQuestions false, .insertQuestion false, .insertQuestion false]

end

theorem System.empty_sound :
    (System.empty : System Q J S).Fresh ∧ Sound (System.empty : System Q J S) :=
  ⟨System.empty_fresh, nofun, nofun⟩

/-- A quiz is published, and nothing replaces it. -/
theorem published_with_hints :
    ∃ sys : System Unit Bool Bool,
      Runs.Reachable System.step System.Spares (fun sys => sys.Fresh ∧ Sound sys) sys ∧
        (∃ quiz, sys.quizzes.rows () = some quiz ∧ quiz.isPublished = true) ∧ Sound sys := by
  have hrun : Runs.run (fun s e => if System.Spares s e then System.step s e else none)
      (System.empty : System Unit Bool Bool) (hintedQuiz ++ publishing) = some _ := rfl
  have hreached : Runs.Reachable System.step System.Spares
      (fun sys : System Unit Bool Bool => sys.Fresh ∧ Sound sys) _ :=
    Runs.reachable_of_checked System.empty_sound hrun
  exact ⟨_, hreached, ⟨_, rfl, rfl⟩, (published_quiz_immutable hreached).1⟩

/-- A regeneration that was started on the draft replaces the quiz after it was published: the quiz
stays published as a draft, its question is gone, and the new one has no hints. -/
theorem replaced_while_published :
    ∃ sys sys' : System Unit Bool Bool,
      Runs.Reachable System.step (fun _ _ => True) (fun sys => sys.Fresh ∧ Sound sys) sys ∧
        sys.step (.commit false) = some sys' ∧
        (∃ quiz, sys.quizzes.rows () = some quiz ∧ quiz.isPublished = true) ∧
        (∃ question, sys.questions.rows false = some (some question) ∧ question.quizId = ()) ∧
        sys'.questions.rows false = some none ∧
        (∃ quiz, sys'.quizzes.rows () = some quiz ∧ quiz.isPublished = true ∧ ¬ quiz.Consistent) ∧
        ¬ HintsComplete sys' () := by
  have hrun : Runs.run System.step (System.empty : System Unit Bool Bool)
      (hintedQuiz ++ [Event.startRegenerate false ()] ++ publishing ++ replacing) = some _ := rfl
  have hreached : Runs.Reachable System.step (fun _ _ => True)
      (fun sys : System Unit Bool Bool => sys.Fresh ∧ Sound sys) _ :=
    Runs.reachable_of_run System.empty_sound hrun
  refine ⟨_, _, hreached, rfl, ⟨_, rfl, rfl⟩, ⟨_, rfl, rfl⟩, rfl, ⟨_, rfl, rfl, ?_⟩, ?_⟩
  · intro hconsistent
    exact absurd (hconsistent.1 rfl) nofun
  · intro hcomplete
    exact (hcomplete true _ rfl rfl rfl).1 rfl

end StudyAgent.Lifecycle
