import StudyAgent.Lifecycle.Sessions

/-!
# What the locks of quizzes protect

A session may change the questions of a quiz while it has the lock of the quiz and the quiz is not
published, and a quiz may become published under the lock under which its hints were found
complete.  Whatever one session does under these rules, the others can rely on what they have
locked.

Main results:

* `Apart.phaseOk` — a session's phase stays in order while others work.
* `Guarded.statement` — **what a session writes keeps the invariant** if it is in order itself.
* `Guarded.commit` — **so does a commit.**
-/

namespace StudyAgent.Lifecycle

open ReadCommitted

variable {Q J S : Type}

/-! ## The invariant -/

/-- No committed question of a quiz misses a hint. -/
def HintsComplete (sys : System Q J S) (k : Q) : Prop :=
  ∀ j question, sys.questions.rows j = some (some question) → question.quizId = k →
    question.Complete

/-- A session has the lock of a quiz that is not published. -/
def Holds (sys : System Q J S) (s : S) (k : Q) : Prop :=
  (∃ quiz, sys.quizzes.pending k = some (s, quiz) ∧ quiz.isPublished = false) ∧
    ∀ quiz ∈ sys.quizzes.rows k, quiz.isPublished = false

def NoLocks (sys : System Q J S) (s : S) : Prop :=
  ∀ k quiz, sys.quizzes.pending k ≠ some (s, quiz)

def NoEdits (sys : System Q J S) (s : S) : Prop :=
  ∀ j row, sys.questions.pending j ≠ some (s, row)

/-- The quizzes that a session has locked are as they were. -/
def Unchanged (sys : System Q J S) (s : S) : Prop :=
  ∀ k quiz, sys.quizzes.pending k = some (s, quiz) → sys.quizzes.rows k = some quiz

/-- A session publishes none of the quizzes it has locked. -/
def Unpublished (sys : System Q J S) (s : S) : Prop :=
  ∀ k quiz, sys.quizzes.pending k = some (s, quiz) → quiz.isPublished = false

/-- A session is about to publish a quiz. -/
def Target (sys : System Q J S) (s : S) (k : Q) : Prop :=
  ∃ quiz, sys.quizzes.pending k = some (s, quiz) ∧ sys.quizzes.rows k = some quiz ∧
    quiz.isPublished = false ∧ quiz.lifecycleStatus ≠ .discarded

/-- What is so in a phase. -/
def PhaseOk (sys : System Q J S) (s : S) : Phase Q J → Prop
  | .publishing _ _ .nodeLocked => NoEdits sys s ∧ Unchanged sys s
  | .publishing _ k .targetLocked => NoEdits sys s ∧ Unchanged sys s ∧ Target sys s k
  | .publishing _ k .checked =>
    NoEdits sys s ∧ Unchanged sys s ∧ Target sys s k ∧ HintsComplete sys k
  | .publishing _ k .othersArchived => NoEdits sys s ∧ Target sys s k ∧ HintsComplete sys k
  | .done => NoEdits sys s ∨ Unpublished sys s
  | .editing k | .replacing k _ | .inserting k _ _ | .flushing k _ =>
    Holds sys s k ∧ Unpublished sys s
  | .hinting _ _ _ => Unchanged sys s ∧ Unpublished sys s
  | .idle | .hintStarted _ | .regenerating _ | .reworking _ | .patching _ _ =>
    NoEdits sys s ∧ NoLocks sys s

/-- A quiz may be written over the committed one. -/
structure WriteOk (sys : System Q J S) (k : Q) (quiz : Quiz Q) : Prop where
  consistent : quiz.Consistent
  complete : quiz.isPublished = true → HintsComplete sys k
  discarded : ∀ old ∈ sys.quizzes.rows k, old.lifecycleStatus = .discarded →
    quiz.lifecycleStatus = .discarded

/-- A question may be written over the committed one. -/
structure EditOk (sys : System Q J S) (s : S) (j : J) (row : Option (QuizQuestion Q)) : Prop where
  new : ∀ question ∈ row, Holds sys s question.quizId
  old : ∀ question, sys.questions.rows j = some (some question) → Holds sys s question.quizId

/-- **The invariant.** -/
structure Guarded (sys : System Q J S) : Prop where
  consistent : ∀ k quiz, sys.quizzes.rows k = some quiz → quiz.Consistent
  complete : ∀ k quiz, sys.quizzes.rows k = some quiz → quiz.isPublished = true →
    HintsComplete sys k
  writes : ∀ k s quiz, sys.quizzes.pending k = some (s, quiz) → WriteOk sys k quiz
  edits : ∀ j s row, sys.questions.pending j = some (s, row) → EditOk sys s j row
  phases : ∀ s, PhaseOk sys s (sys.phase s)

/-- What is kept in a step. -/
structure Keeps (sys sys' : System Q J S) : Prop where
  guarded : Guarded sys'
  questions : ∀ k quiz, sys.quizzes.rows k = some quiz → quiz.isPublished = true →
    ∀ j question, question.quizId = k →
      (sys'.questions.rows j = some (some question) ↔ sys.questions.rows j = some (some question))
  discarded : ∀ k quiz, sys.quizzes.rows k = some quiz → quiz.lifecycleStatus = .discarded →
    ∃ quiz', sys'.quizzes.rows k = some quiz' ∧ quiz'.lifecycleStatus = .discarded

/-! ## What other sessions do -/

/-- What a session relies on is not touched. -/
structure Apart (sys sys' : System Q J S) (t : S) : Prop where
  phase : sys'.phase t = sys.phase t
  quizzes : ∀ {k quiz}, sys'.quizzes.pending k = some (t, quiz) ↔
    sys.quizzes.pending k = some (t, quiz)
  questions : ∀ {j row}, sys'.questions.pending j = some (t, row) ↔
    sys.questions.pending j = some (t, row)
  rows : ∀ {k quiz}, sys.quizzes.pending k = some (t, quiz) →
    sys'.quizzes.rows k = sys.quizzes.rows k
  hints : ∀ {k quiz}, sys.quizzes.pending k = some (t, quiz) → HintsComplete sys k →
    HintsComplete sys' k

section

variable {sys sys' : System Q J S} {s t : S} {k : Q}

theorem Aside.apart (h : Aside sys sys' s) (hne : t ≠ s) : Apart sys sys' t where
  phase := h.phase hne
  quizzes := h.quizzes hne
  questions := h.questions hne
  rows := fun _ => by rw [h.quizRows]
  hints := fun _ hc => by
    intro j question hj
    rw [h.questionRows] at hj
    exact hc j question hj

namespace Apart

variable (h : Apart sys sys' t)

include h

theorem holds (hk : Holds sys t k) : Holds sys' t k := by
  obtain ⟨⟨quiz, hp, hpub⟩, hrow⟩ := hk
  exact ⟨⟨quiz, h.quizzes.2 hp, hpub⟩, by rwa [h.rows hp]⟩

theorem target (hk : Target sys t k) : Target sys' t k := by
  obtain ⟨quiz, hp, hrow, hkept⟩ := hk
  exact ⟨quiz, h.quizzes.2 hp, by rwa [h.rows hp], hkept⟩

theorem hintsComplete (hk : Target sys t k) (hc : HintsComplete sys k) : HintsComplete sys' k := by
  obtain ⟨quiz, hp, -⟩ := hk
  exact h.hints hp hc

theorem noEdits (hk : NoEdits sys t) : NoEdits sys' t :=
  fun j row hp => hk j row (h.questions.1 hp)

theorem noLocks (hk : NoLocks sys t) : NoLocks sys' t :=
  fun k quiz hp => hk k quiz (h.quizzes.1 hp)

theorem unchanged (hk : Unchanged sys t) : Unchanged sys' t := by
  intro k quiz hp
  have hold := h.quizzes.1 hp
  rw [h.rows hold]
  exact hk k quiz hold

theorem unpublished (hk : Unpublished sys t) : Unpublished sys' t :=
  fun k quiz hp => hk k quiz (h.quizzes.1 hp)

/-- **A session's phase stays in order while others work.** -/
theorem phaseOk {phase : Phase Q J} (hk : PhaseOk sys t phase) : PhaseOk sys' t phase := by
  cases phase with
  | publishing n k stage =>
    cases stage with
    | nodeLocked => exact ⟨h.noEdits hk.1, h.unchanged hk.2⟩
    | targetLocked => exact ⟨h.noEdits hk.1, h.unchanged hk.2.1, h.target hk.2.2⟩
    | checked =>
      obtain ⟨hedits, hsame, htarget, hints⟩ := hk
      exact ⟨h.noEdits hedits, h.unchanged hsame, h.target htarget, h.hintsComplete htarget hints⟩
    | othersArchived =>
      obtain ⟨hedits, htarget, hints⟩ := hk
      exact ⟨h.noEdits hedits, h.target htarget, h.hintsComplete htarget hints⟩
  | done => exact hk.imp h.noEdits h.unpublished
  | editing _ | replacing _ _ | inserting _ _ _ | flushing _ _ =>
    exact ⟨h.holds hk.1, h.unpublished hk.2⟩
  | hinting _ _ _ => exact ⟨h.unchanged hk.1, h.unpublished hk.2⟩
  | idle | hintStarted _ | regenerating _ | reworking _ | patching _ _ =>
    exact ⟨h.noEdits hk.1, h.noLocks hk.2⟩

end Apart

/-! ## Reading -/

theorem NoLocks.unchanged (h : NoLocks sys s) : Unchanged sys s :=
  fun k quiz hp => absurd hp (h k quiz)

theorem NoLocks.unpublished (h : NoLocks sys s) : Unpublished sys s :=
  fun k quiz hp => absurd hp (h k quiz)

variable [DecidableEq S]

/-- What is read of a quiz that is as it was is the committed row. -/
theorem Unchanged.view (h : Unchanged sys s) (k : Q) :
    sys.quizzes.view s k = sys.quizzes.rows k := by
  rcases sys.quizzes.view_cases s k with ⟨quiz, hp, hview⟩ | ⟨-, hview⟩
  · rw [hview, h k quiz hp]
  · exact hview

theorem NoEdits.view (h : NoEdits sys s) (j : J) :
    sys.questions.view s j = sys.questions.rows j :=
  Store.view_of_not_own (h j)

/-- Where a session may write a question that it reads, it may change or delete it. -/
theorem Guarded.editOk (h : Guarded sys) {j : J} {question : QuizQuestion Q}
    (hread : sys.question s j = some question) (hk : Holds sys s question.quizId)
    {row : Option (QuizQuestion Q)} (hrow : ∀ new ∈ row, new.quizId = question.quizId) :
    EditOk sys s j row := by
  rw [question_eq_some] at hread
  refine ⟨fun new hnew => by rwa [hrow new hnew], fun old hold => ?_⟩
  rcases sys.questions.view_cases s j with ⟨row, hp, -⟩ | ⟨-, hview⟩
  · exact (h.edits j s row hp).old old hold
  · rw [hview, hold] at hread
    cases hread
    exact hk

/-- A question is written where none was committed. -/
theorem Guarded.editOk_new (h : Guarded sys) {j : J} (hread : sys.question s j = none)
    {question : QuizQuestion Q} (hk : Holds sys s question.quizId) :
    EditOk sys s j (some question) := by
  refine ⟨fun new hnew => ?_, fun old hold => ?_⟩
  · cases hnew
    exact hk
  · rcases sys.questions.view_cases s j with ⟨row, hp, -⟩ | ⟨-, hview⟩
    · exact (h.edits j s row hp).old old hold
    · rw [System.question, hview, hold] at hread
      cases hread

/-! ## Statements -/

/-- **A statement keeps the invariant**, if what the session has then written is in order. -/
theorem Guarded.statement (h : Guarded sys) (haside : Aside sys sys' s)
    (hwrites : ∀ k quiz, sys'.quizzes.pending k = some (s, quiz) → WriteOk sys k quiz)
    (hedits : ∀ j row, sys'.questions.pending j = some (s, row) → EditOk sys' s j row)
    (hphase : PhaseOk sys' s (sys'.phase s)) : Keeps sys sys' := by
  have hints : ∀ {k}, HintsComplete sys k → HintsComplete sys' k := by
    intro k hc j question hj
    rw [haside.questionRows] at hj
    exact hc j question hj
  refine ⟨⟨?_, ?_, ?_, ?_, ?_⟩, ?_, ?_⟩
  · rw [haside.quizRows]
    exact h.consistent
  · intro k quiz hk hpub
    rw [haside.quizRows] at hk
    exact hints (h.complete k quiz hk hpub)
  · intro k t quiz hp
    have hold : WriteOk sys k quiz := by
      by_cases hts : t = s
      · subst hts
        exact hwrites k quiz hp
      · exact h.writes k t quiz ((haside.quizzes hts).1 hp)
    refine ⟨hold.consistent, fun hpub => hints (hold.complete hpub), ?_⟩
    rw [haside.quizRows]
    exact hold.discarded
  · intro j t row hp
    by_cases hts : t = s
    · subst hts
      exact hedits j row hp
    · have hapart := haside.apart hts
      have hold := h.edits j t row ((haside.questions hts).1 hp)
      refine ⟨fun question hq => hapart.holds (hold.new question hq), fun old hrow => ?_⟩
      rw [haside.questionRows] at hrow
      exact hapart.holds (hold.old old hrow)
  · intro t
    by_cases hts : t = s
    · subst hts
      exact hphase
    · rw [haside.phase hts]
      exact (haside.apart hts).phaseOk (h.phases t)
  · intro k quiz _ _ j question _
    rw [haside.questionRows]
  · intro k quiz hk hdiscarded
    rw [haside.quizRows]
    exact ⟨quiz, hk, hdiscarded⟩

/-- A session that has nothing open. -/
theorem Guarded.clean (h : Guarded sys) (haside : Aside sys sys' s) (hedits : NoEdits sys' s)
    (hlocks : NoLocks sys' s) (hphase : PhaseOk sys' s (sys'.phase s)) : Keeps sys sys' :=
  h.statement haside (fun k quiz hp => absurd hp (hlocks k quiz))
    (fun j row hp => absurd hp (hedits j row)) hphase

/-- A session that goes on without a write. -/
theorem Guarded.enter (h : Guarded sys) {phase : Phase Q J} (hphase : PhaseOk sys s phase) :
    Keeps sys (sys.enter s phase) := by
  refine h.statement System.aside_enter (fun k quiz hp => h.writes k s quiz hp)
    (fun j row hp => ?_) ?_
  · have hold := h.edits j s row hp
    exact ⟨hold.new, hold.old⟩
  · rw [System.phase_enter_self]
    exact hphase

/-- **A write of quizzes**, by a session that has edited none or publishes none. -/
theorem Guarded.wroteQuizzes (h : Guarded sys) {f : Q → Option (Quiz Q)} {phase : Phase Q J}
    (hwrote : WroteQuizzes sys s f phase sys')
    (hwrites : ∀ k quiz, f k = some quiz → WriteOk sys k quiz)
    (hedits : NoEdits sys s ∨ ∀ k quiz, f k = some quiz → quiz.isPublished = false)
    (hphase : PhaseOk sys' s phase) : Keeps sys sys' := by
  refine h.statement hwrote.aside (fun k quiz hp => ?_) (fun j row hp => ?_) ?_
  · rcases hwrote.cases hp with hf | ⟨-, hold⟩
    · exact hwrites k quiz hf
    · exact h.writes k s quiz hold
  · rw [hwrote.questions] at hp
    rcases hedits with hnone | hunpublished
    · exact absurd hp (hnone j row)
    · have hholds : ∀ {k}, Holds sys s k → Holds sys' s k := by
        intro k hk
        obtain ⟨⟨quiz, hold, hpub⟩, hrow⟩ := hk
        refine ⟨?_, by rwa [hwrote.aside.quizRows]⟩
        cases hf : f k with
        | some new => exact ⟨new, hwrote.written hf, hunpublished k new hf⟩
        | none => exact ⟨quiz, hwrote.kept hf hold, hpub⟩
      have hold := h.edits j s row hp
      refine ⟨fun question hq => hholds (hold.new question hq), fun old hrow => ?_⟩
      rw [hwrote.questions] at hrow
      exact hholds (hold.old old hrow)
  · rw [hwrote.phase]
    exact hphase

omit [DecidableEq S] in
theorem holds_of_wroteQuestions {f : J → Option (Option (QuizQuestion Q))} {phase : Phase Q J}
    (hwrote : WroteQuestions sys s f phase sys') : Holds sys' s k ↔ Holds sys s k := by
  rw [Holds, Holds, hwrote.quizzes]

/-- **A write of questions**, under the locks of their quizzes. -/
theorem Guarded.wroteQuestions (h : Guarded sys) {f : J → Option (Option (QuizQuestion Q))}
    {phase : Phase Q J} (hwrote : WroteQuestions sys s f phase sys')
    (hedits : ∀ j row, f j = some row → EditOk sys s j row) (hphase : PhaseOk sys' s phase) :
    Keeps sys sys' := by
  refine h.statement hwrote.aside (fun k quiz hp => ?_) (fun j row hp => ?_) ?_
  · rw [hwrote.quizzes] at hp
    exact h.writes k s quiz hp
  · have hold : EditOk sys s j row := by
      rcases hwrote.cases hp with hf | ⟨-, hold⟩
      · exact hedits j row hf
      · exact h.edits j s row hold
    refine ⟨fun question hq => (holds_of_wroteQuestions hwrote).2 (hold.new question hq),
      fun old hrow => ?_⟩
    rw [hwrote.aside.questionRows] at hrow
    exact (holds_of_wroteQuestions hwrote).2 (hold.old old hrow)
  · rw [hwrote.phase]
    exact hphase

/-! ## The end of a transaction -/

/-- The questions of a quiz whose lock a session does not hold are not changed by its commit. -/
theorem Guarded.view_question (h : Guarded sys) (hk : ¬ Holds sys s k) {j : J}
    {question : QuizQuestion Q} (hq : question.quizId = k) :
    sys.questions.view s j = some (some question) ↔
      sys.questions.rows j = some (some question) := by
  rcases sys.questions.view_cases s j with ⟨row, hp, hview⟩ | ⟨-, hview⟩
  · have hedit := h.edits j s row hp
    rw [hview]
    refine ⟨fun hrow => ?_, fun hrow => ?_⟩
    · cases hrow
      exact absurd (hq ▸ hedit.new question rfl) hk
    · exact absurd (hq ▸ hedit.old question hrow) hk
  · rw [hview]

omit [DecidableEq S] in
theorem not_holds_of_published {quiz : Quiz Q} (hrow : sys.quizzes.rows k = some quiz)
    (hpub : quiz.isPublished = true) : ¬ Holds sys s k := by
  intro hk
  rw [hk.2 quiz hrow] at hpub
  exact absurd hpub nofun

omit [DecidableEq S] in
theorem not_holds_of_other {quiz : Quiz Q} (hne : t ≠ s)
    (hp : sys.quizzes.pending k = some (t, quiz)) : ¬ Holds sys s k := by
  rintro ⟨⟨quiz', hp', -⟩, -⟩
  exact hne (Prod.mk.inj (Option.some.inj (hp.symm.trans hp'))).1

/-- The end of a transaction whose writes become visible. -/
def System.committed (sys : System Q J S) (s : S) (phase : Phase Q J) : System Q J S :=
  { sys.enter s phase with
    quizzes := sys.quizzes.commit s
    questions := sys.questions.commit s }

theorem Guarded.apart_committed (h : Guarded sys) (hne : t ≠ s) {phase : Phase Q J} :
    Apart sys (sys.committed s phase) t where
  phase := System.phase_enter_other hne
  quizzes := by simp [System.committed, Store.pending_commit, hne]
  questions := by simp [System.committed, Store.pending_commit, hne]
  rows := fun hp => Store.view_of_other hp hne
  hints := fun hp hc j question hj hq =>
    hc j question ((h.view_question (not_holds_of_other hne hp) hq).1 hj) hq

/-- A quiz that a commit leaves published has its hints. -/
theorem Guarded.complete_committed (h : Guarded sys) (hs : NoEdits sys s ∨ Unpublished sys s)
    {quiz : Quiz Q} (hview : sys.quizzes.view s k = some quiz) (hpub : quiz.isPublished = true)
    {phase : Phase Q J} : HintsComplete (sys.committed s phase) k := by
  have hsame : ∀ {j} {question : QuizQuestion Q}, question.quizId = k →
      sys.questions.view s j = some (some question) →
      sys.questions.rows j = some (some question) ∧ HintsComplete sys k := by
    intro j question hq hj
    rcases sys.quizzes.view_cases s k with ⟨quiz', hp, hown⟩ | ⟨-, hown⟩
    · rw [hview] at hown
      cases hown
      rcases hs with hedits | hunpublished
      · rw [hedits.view] at hj
        exact ⟨hj, (h.writes k s quiz hp).complete hpub⟩
      · rw [hunpublished k quiz hp] at hpub
        exact absurd hpub nofun
    · rw [hview] at hown
      have hfree : ¬ Holds sys s k := not_holds_of_published hown.symm hpub
      exact ⟨(h.view_question hfree hq).1 hj, h.complete k quiz hown.symm hpub⟩
  intro j question hj hq
  obtain ⟨hrow, hc⟩ := hsame hq hj
  exact hc j question hrow hq

/-- **A commit keeps the invariant**, if the session has edited no question or publishes no quiz. -/
theorem Guarded.commit (h : Guarded sys) (hs : NoEdits sys s ∨ Unpublished sys s)
    {phase : Phase Q J} (hphase : ∀ sys' : System Q J S, NoEdits sys' s → NoLocks sys' s →
      PhaseOk sys' s phase) : Keeps sys (sys.committed s phase) := by
  have hother : ∀ {k t quiz}, (sys.committed s phase).quizzes.pending k = some (t, quiz) →
      sys.quizzes.pending k = some (t, quiz) ∧ t ≠ s := Store.pending_commit.1
  have hedit : ∀ {j t row}, (sys.committed s phase).questions.pending j = some (t, row) →
      sys.questions.pending j = some (t, row) ∧ t ≠ s := Store.pending_commit.1
  refine ⟨⟨?_, ?_, ?_, ?_, ?_⟩, ?_, ?_⟩
  · intro k quiz hview
    change sys.quizzes.view s k = some quiz at hview
    rcases sys.quizzes.view_cases s k with ⟨quiz', hp, hown⟩ | ⟨-, hown⟩
    · rw [hview] at hown
      cases hown
      exact (h.writes k s quiz hp).consistent
    · exact h.consistent k quiz (hown.symm.trans hview)
  · intro k quiz hview hpub
    exact h.complete_committed hs hview hpub
  · intro k t quiz hp
    obtain ⟨hp, hne⟩ := hother hp
    have hold := h.writes k t quiz hp
    refine ⟨hold.consistent, fun hpub => ?_, fun old hrow => hold.discarded old ?_⟩
    · exact (h.apart_committed hne).hints hp (hold.complete hpub)
    · exact (Store.view_of_other hp hne).symm.trans hrow
  · intro j t row hp
    obtain ⟨hp, hne⟩ := hedit hp
    have hold := h.edits j t row hp
    refine ⟨fun question hq => (h.apart_committed hne).holds (hold.new question hq),
      fun old hrow => (h.apart_committed hne).holds (hold.old old ?_)⟩
    exact (Store.view_of_other hp hne).symm.trans hrow
  · intro t
    by_cases hts : t = s
    · subst hts
      rw [System.committed, System.phase_enter_self]
      exact hphase _ (fun j row hp => (hedit hp).2 rfl) (fun k quiz hp => (hother hp).2 rfl)
    · rw [(h.apart_committed hts).phase]
      exact (h.apart_committed hts).phaseOk (h.phases t)
  · intro k quiz hrow hpub j question hq
    exact h.view_question (not_holds_of_published hrow hpub) hq
  · intro k quiz hrow hdiscarded
    rcases sys.quizzes.view_cases s k with ⟨quiz', hp, hview⟩ | ⟨-, hview⟩
    · exact ⟨quiz', hview, (h.writes k s quiz' hp).discarded quiz hrow hdiscarded⟩
    · exact ⟨quiz, hview.trans hrow, hdiscarded⟩

end

/-! ## Locks -/

section

variable {sys sys' : System Q J S} {s : S} {k : Q} {quiz : Quiz Q} {phase : Phase Q J}
  {f : Q → Option (Quiz Q)} {g : J → Option (Option (QuizQuestion Q))}

theorem Guarded.phaseOk (h : Guarded sys) (hphase : sys.phase s = phase) : PhaseOk sys s phase :=
  hphase ▸ h.phases s

/-- A committed quiz may be written again. -/
theorem Guarded.writeOk (h : Guarded sys) (hrow : sys.quizzes.rows k = some quiz) :
    WriteOk sys k quiz := by
  refine ⟨h.consistent k quiz hrow, h.complete k quiz hrow, fun old hold hdiscarded => ?_⟩
  rw [hrow] at hold
  cases hold
  exact hdiscarded

theorem WroteQuizzes.noEdits (h : WroteQuizzes sys s f phase sys') (hs : NoEdits sys s) :
    NoEdits sys' s := by
  rw [NoEdits, h.questions]
  exact hs

theorem WroteQuizzes.unchanged (h : WroteQuizzes sys s f phase sys') (hs : Unchanged sys s)
    (hf : ∀ i quiz, f i = some quiz → sys.quizzes.rows i = some quiz) : Unchanged sys' s := by
  intro i quiz hp
  rw [h.aside.quizRows]
  rcases h.cases hp with hnew | ⟨-, hold⟩
  · exact hf i quiz hnew
  · exact hs i quiz hold

theorem WroteQuizzes.unpublished (h : WroteQuizzes sys s f phase sys') (hs : Unpublished sys s)
    (hf : ∀ i quiz, f i = some quiz → quiz.isPublished = false) : Unpublished sys' s := by
  intro i quiz hp
  rcases h.cases hp with hnew | ⟨-, hold⟩
  · exact hf i quiz hnew
  · exact hs i quiz hold

theorem WroteQuestions.unpublished (h : WroteQuestions sys s g phase sys')
    (hs : Unpublished sys s) : Unpublished sys' s := by
  rw [Unpublished, h.quizzes]
  exact hs

theorem WroteQuestions.unchanged (h : WroteQuestions sys s g phase sys')
    (hs : Unchanged sys s) : Unchanged sys' s := by
  rw [Unchanged, h.quizzes]
  exact hs

/-- A quiz is locked as it is. -/
theorem Guarded.lock [DecidableEq S] [DecidableEq Q] (h : Guarded sys) (hsame : Unchanged sys s)
    (hview : sys.quizzes.view s k = some quiz)
    (hedits : NoEdits sys s ∨ quiz.isPublished = false)
    (hwrote : WroteQuizzes sys s (only k quiz) phase sys')
    (hphase : sys.quizzes.rows k = some quiz → Unchanged sys' s → PhaseOk sys' s phase) :
    Keeps sys sys' := by
  have hrow : sys.quizzes.rows k = some quiz := (hsame.view k).symm.trans hview
  have hlocked : ∀ i quiz', only k quiz i = some quiz' → sys.quizzes.rows i = some quiz' := by
    intro i quiz' hi
    obtain ⟨rfl, rfl⟩ := only_eq_some.1 hi
    exact hrow
  refine h.wroteQuizzes hwrote (fun i quiz' hi => h.writeOk (hlocked i quiz' hi)) ?_
    (hphase hrow (hwrote.unchanged hsame hlocked))
  refine hedits.imp id fun hpub i quiz' hi => ?_
  obtain ⟨rfl, rfl⟩ := only_eq_some.1 hi
  exact hpub

/-- The lock of a quiz that is not published. -/
theorem holds_of_locked [DecidableEq Q] (hwrote : WroteQuizzes sys s (only k quiz) phase sys')
    (hpub : quiz.isPublished = false) (hrow : ∀ old ∈ sys.quizzes.rows k, old.isPublished = false) :
    Holds sys' s k := by
  refine ⟨⟨quiz, hwrote.written (only_eq_some.2 ⟨rfl, rfl⟩), hpub⟩, ?_⟩
  rw [hwrote.aside.quizRows]
  exact hrow

/-- A session that has done nothing yet writes quizzes. -/
theorem Guarded.wroteFirst [DecidableEq S] (h : Guarded sys)
    (hwrote : WroteQuizzes sys s f .done sys') (hphase : sys.phase s = .idle)
    (hwrites : ∀ k quiz, f k = some quiz → WriteOk sys k quiz) : Keeps sys sys' := by
  obtain ⟨hedits, -⟩ := h.phaseOk hphase
  exact h.wroteQuizzes hwrote hwrites (Or.inl hedits) (Or.inl (hwrote.noEdits hedits))

/-- A question is written under the lock of its quiz, and the lock is kept. -/
theorem Guarded.wroteOne [DecidableEq S] [DecidableEq J] (h : Guarded sys) {j : J}
    {row : Option (QuizQuestion Q)} (hwrote : WroteQuestions sys s (only j row) phase sys')
    (hrow : EditOk sys s j row)
    (hphase : PhaseOk sys' s phase) : Keeps sys sys' := by
  refine h.wroteQuestions hwrote (fun i row' hi => ?_) hphase
  obtain ⟨rfl, rfl⟩ := only_eq_some.1 hi
  exact hrow

/-- A session that has done nothing yet locks a quiz that is not published. -/
theorem Guarded.wroteUnpublished [DecidableEq S] [DecidableEq Q] (h : Guarded sys)
    (hedits : NoEdits sys s)
    (hlocks : NoLocks sys s) (hview : sys.quizzes.view s k = some quiz)
    (hwrote : WroteQuizzes sys s (only k quiz) phase sys')
    (hpub : quiz.isPublished = false)
    (hphase : Holds sys' s k → Unpublished sys' s → PhaseOk sys' s phase) : Keeps sys sys' := by
  refine h.lock hlocks.unchanged hview (Or.inl hedits) hwrote fun hrow _ => hphase ?_ ?_
  · refine holds_of_locked hwrote hpub fun old hold => ?_
    rw [hrow] at hold
    cases hold
    exact hpub
  · refine hwrote.unpublished hlocks.unpublished fun i new hi => ?_
    obtain ⟨rfl, rfl⟩ := only_eq_some.1 hi
    exact hpub

/-- A quiz is written in the draft stage by a session that has done nothing yet. -/
theorem Guarded.wroteDraft [DecidableEq S] [DecidableEq Q] (h : Guarded sys)
    (hedits : NoEdits sys s) (hlocks : NoLocks sys s)
    (hwrote : WroteQuizzes sys s (only k quiz) phase sys')
    (hpub : quiz.isPublished = false) (hdraft : quiz.lifecycleStatus = .draft)
    (hrow : ∀ old ∈ sys.quizzes.rows k,
      old.isPublished = false ∧ old.lifecycleStatus ≠ .discarded)
    (hphase : Holds sys' s k → Unpublished sys' s → PhaseOk sys' s phase) : Keeps sys sys' := by
  refine h.wroteQuizzes hwrote (fun i new hi => ?_) (Or.inl hedits) (hphase ?_ ?_)
  · obtain ⟨rfl, rfl⟩ := only_eq_some.1 hi
    refine ⟨?_, fun h => ?_, fun old hold hdiscarded => absurd hdiscarded (hrow old hold).2⟩
    · simp [Quiz.Consistent, hpub, hdraft]
    · rw [hpub] at h
      cases h
  · exact holds_of_locked hwrote hpub fun old hold => (hrow old hold).1
  · refine hwrote.unpublished hlocks.unpublished fun i new hi => ?_
    obtain ⟨rfl, rfl⟩ := only_eq_some.1 hi
    exact hpub

/-- A session that has done nothing yet starts a run. -/
theorem Guarded.start [DecidableEq S] (h : Guarded sys) {pipeline : Pipeline}
    (hphase : sys.phase s = .idle)
    (hnew : NoEdits sys s → NoLocks sys s → PhaseOk (sys.start s pipeline k phase) s phase) :
    Keeps sys (sys.start s pipeline k phase) := by
  obtain ⟨hedits, hlocks⟩ := h.phaseOk hphase
  have haside : Aside sys (sys.start s pipeline k phase) s :=
    ⟨rfl, rfl, fun _ => Iff.rfl, fun _ => Iff.rfl, System.phase_enter_other⟩
  refine h.clean haside hedits hlocks ?_
  rw [System.start, System.phase_enter_self]
  exact hnew hedits hlocks

/-- Two statements taken together. -/
theorem Keeps.after {sys'' : System Q J S} (h : Keeps sys' sys'') (haside : Aside sys sys' s) :
    Keeps sys sys'' := by
  refine ⟨h.guarded, ?_, ?_⟩
  · rw [← haside.quizRows, ← haside.questionRows]
    exact h.questions
  · rw [← haside.quizRows]
    exact h.discarded

/-! ## The ends of transactions and of runs -/

/-- Where a commit is made, no question was edited or no quiz is published. -/
theorem Guarded.commits (h : Guarded sys) (hcommits : (sys.phase s).commits = true) :
    NoEdits sys s ∨ Unpublished sys s := by
  cases hphase : sys.phase s with
  | done => exact h.phaseOk hphase
  | editing _ => exact Or.inr (h.phaseOk hphase).2
  | hinting _ _ _ => exact Or.inr (h.phaseOk hphase).2
  | inserting _ _ _ => exact Or.inr (h.phaseOk hphase).2
  | _ => simp [hphase, Phase.commits, Phase.stopped] at hcommits

theorem phaseOk_committed (phase : Phase Q J) (hedits : NoEdits sys s) (hlocks : NoLocks sys s) :
    PhaseOk sys s phase.committed := by
  cases phase with
  | hinting _ _ _ => exact ⟨hlocks.unchanged, hlocks.unpublished⟩
  | inserting _ _ replaces => cases replaces <;> exact ⟨hedits, hlocks⟩
  | _ => exact ⟨hedits, hlocks⟩

theorem phaseOk_rolledBack (phase : Phase Q J) (hedits : NoEdits sys s) (hlocks : NoLocks sys s) :
    PhaseOk sys s phase.rolledBack := by
  cases phase with
  | hinting _ _ _ => exact ⟨hlocks.unchanged, hlocks.unpublished⟩
  | inserting _ _ replaces => cases replaces <;> exact ⟨hedits, hlocks⟩
  | _ => exact ⟨hedits, hlocks⟩

theorem Guarded.rollback [DecidableEq S] (h : Guarded sys)
    {running : S → Option (Pipeline × Q)}
    (hphase : ∀ sys' : System Q J S, NoEdits sys' s → NoLocks sys' s → PhaseOk sys' s phase) :
    Keeps sys { sys.enter s phase with
      quizzes := sys.quizzes.rollback s
      questions := sys.questions.rollback s
      running := running } := by
  have hedits : ∀ j row, (sys.questions.rollback s).pending j ≠ some (s, row) :=
    fun j row hp => (Store.pending_rollback.1 hp).2 rfl
  have hlocks : ∀ k quiz, (sys.quizzes.rollback s).pending k ≠ some (s, quiz) :=
    fun k quiz hp => (Store.pending_rollback.1 hp).2 rfl
  refine h.clean System.aside_rollback hedits hlocks ?_
  rw [System.phase_enter_self]
  exact hphase _ hedits hlocks

/-- The table of the runs has nothing to do with the quizzes. -/
theorem Guarded.running (h : Guarded sys) (running : S → Option (Pipeline × Q)) :
    Keeps sys { sys with running := running } := by
  refine ⟨⟨h.consistent, h.complete, fun k t quiz hp => ?_, fun j t row hp => ?_, h.phases⟩,
    fun _ _ _ _ _ _ _ => Iff.rfl, fun k quiz hk hdiscarded => ⟨quiz, hk, hdiscarded⟩⟩
  · obtain ⟨hconsistent, hcomplete, hdiscarded⟩ := h.writes k t quiz hp
    exact ⟨hconsistent, hcomplete, hdiscarded⟩
  · obtain ⟨hnew, hold⟩ := h.edits j t row hp
    exact ⟨hnew, hold⟩

/-! ## Starts -/

/-- What is promised of the committed quizzes. -/
structure Sound (sys : System Q J S) : Prop where
  consistent : ∀ k quiz, sys.quizzes.rows k = some quiz → quiz.Consistent
  complete : ∀ k quiz, sys.quizzes.rows k = some quiz → quiz.isPublished = true →
    HintsComplete sys k

theorem Sound.guarded (h : Sound sys) (hfresh : sys.Fresh) : Guarded sys where
  consistent := h.consistent
  complete := h.complete
  writes := fun k s quiz hp => by simp [hfresh.quizzes k] at hp
  edits := fun j s row hp => by simp [hfresh.questions j] at hp
  phases := fun s => by
    rw [hfresh.idle s]
    refine ⟨fun j row hp => ?_, fun k quiz hp => ?_⟩
    · simp [hfresh.questions j] at hp
    · simp [hfresh.quizzes k] at hp

end

end StudyAgent.Lifecycle
