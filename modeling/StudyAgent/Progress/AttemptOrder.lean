import StudyAgent.Progress.AttemptRequests

/-!
# What the requests on attempts rely on

An attempt is started under the lock of its quiz, a patch is made and a submission is marked under
the lock of the attempt, and a submission is counted under the lock of the progress row.  Answers
are written under no lock.

Main results:

* `Apart.own` — what is so for a session stays so while others work.
* `Orderly.statement` — **what a session writes keeps the invariant** if its own part of it holds.
* `Orderly.commit` — **so does a commit**, if what it has answered is still in progress.
-/

namespace StudyAgent.Progress.AttemptRequests

open ReadCommitted

variable {A κ S : Type}

/-! ## What a request relies on -/

/-- `quiz_attempt_count` of the row that there may be. -/
def attemptCount (row : Option (Row ℚ)) : ℕ := (row.map Row.quizAttemptCount).getD 0

namespace Phase

/-- The attempt whose responses may have been written. -/
def attempt : Phase A κ → Option A
  | .writing a _ _ | .marked a _ | .counting a _ _ | .counted a => some a
  | _ => none

/-- The attempt whose row is locked. -/
def locks : Phase A κ → Option A
  | .holdingAttempt a | .writing a .patch _ | .marked a _ | .counting a _ _ | .counted a => some a
  | _ => none

/-- The attempt that is marked as submitted. -/
def submitted : Phase A κ → Option A
  | .marked a _ | .counting a _ _ | .counted a => some a
  | _ => none

def newAttempt : Phase A κ → Option A
  | .created a => some a
  | _ => none

/-- The attempt that has been answered without its lock. -/
def answered : Phase A κ → Option A
  | .writing a .answer [] => some a
  | _ => none

/-- The progress row as it was read. -/
def progressRead : Phase A κ → Option (Option (Row ℚ))
  | .counting _ _ loaded => some loaded
  | _ => none

def isCounted : Phase A κ → Bool
  | .counted _ => true
  | _ => false

def holdsQuiz : Phase A κ → Bool
  | .holdingQuiz | .created _ => true
  | _ => false

/-- No attempt has been written. -/
def clean : Phase A κ → Bool
  | .idle | .starting | .holdingQuiz => true
  | _ => false

end Phase

/-! ## The invariant -/

/-- What is so for a session in a phase. -/
structure Own (sys : System A κ S) (t : S) (phase : Phase A κ) : Prop where
  attempts : ∀ a r, sys.attempts.pending a = some (t, r) →
    (∃ old, sys.attempts.rows a = some old ∧ old.status = .inProgress ∧
      (r.status = .submitted → phase.submitted = some a)) ∨
    (sys.attempts.rows a = none ∧ phase.newAttempt = some a ∧ r.status = .inProgress)
  clean : phase.clean = true → ∀ a r, sys.attempts.pending a ≠ some (t, r)
  quiz : phase.holdsQuiz = true → ∃ q, sys.quiz.pending () = some (t, q)
  created : phase.newAttempt ≠ none → ∀ a r, sys.attempts.rows a = some r →
    r.status ≠ .inProgress
  locks : ∀ a, phase.locks = some a → ∃ r, sys.attempts.pending a = some (t, r)
  submitted : ∀ a, phase.submitted = some a →
    ∃ r, sys.attempts.pending a = some (t, r) ∧ r.status = .submitted
  responses : ∀ a k r, sys.responses.pending (a, k) = some (t, r) → phase.attempt = some a
  progress : ∀ row, sys.progress.pending () = some (t, row) →
    phase.isCounted = true ∧
      row.quizAttemptCount = attemptCount (sys.progress.rows ()) + 1
  counted : phase.isCounted = true → ∃ row, sys.progress.pending () = some (t, row)

/-- An attempt is committed as in progress. -/
def InProgress (sys : System A κ S) (a : A) : Prop :=
  ∃ r, sys.attempts.rows a = some r ∧ r.status = .inProgress

/-- How many attempts are submitted. -/
def submissions [Fintype A] (sys : System A κ S) : ℕ :=
  (Finset.univ.filter fun a =>
    (sys.attempts.rows a).map QuizAttempt.status = some .submitted).card

/-- **The invariant**, with the attempts that were counted on the node before this quiz. -/
structure Orderly [Fintype A] (earlier : ℕ) (sys : System A κ S) : Prop where
  one : ∀ a b, InProgress sys a → InProgress sys b → a = b
  count : attemptCount (sys.progress.rows ()) = earlier + submissions sys
  own : ∀ t, Own sys t (sys.phase t)

/-- What is kept in a step. -/
structure Keeps [Fintype A] (earlier : ℕ) (sys sys' : System A κ S) : Prop where
  orderly : Orderly earlier sys'
  attempts : ∀ a r, sys.attempts.rows a = some r → r.status ≠ .inProgress →
    sys'.attempts.rows a = some r
  responses : ∀ a r, sys.attempts.rows a = some r → r.status ≠ .inProgress →
    ∀ k, sys'.responses.rows (a, k) = sys.responses.rows (a, k)

/-! ## What other sessions do -/

/-- What a session relies on is not touched. -/
structure Apart (sys sys' : System A κ S) (t : S) : Prop where
  quiz : ∀ {k q}, sys'.quiz.pending k = some (t, q) ↔ sys.quiz.pending k = some (t, q)
  attempts : ∀ {a r}, sys'.attempts.pending a = some (t, r) ↔
    sys.attempts.pending a = some (t, r)
  responses : ∀ {k r}, sys'.responses.pending k = some (t, r) ↔
    sys.responses.pending k = some (t, r)
  progress : ∀ {k row}, sys'.progress.pending k = some (t, row) ↔
    sys.progress.pending k = some (t, row)
  rows : ∀ {a r}, sys.attempts.pending a = some (t, r) →
    sys'.attempts.rows a = sys.attempts.rows a
  count : ∀ {row}, sys.progress.pending () = some (t, row) →
    sys'.progress.rows () = sys.progress.rows ()
  created : ∀ q, sys.quiz.pending () = some (t, q) →
    (∀ a r, sys.attempts.rows a = some r → r.status ≠ .inProgress) →
    ∀ a r, sys'.attempts.rows a = some r → r.status ≠ .inProgress

section

variable {earlier : ℕ} {sys sys' : System A κ S} {s t : S} {phase : Phase A κ}

theorem holdsQuiz_of_newAttempt (h : phase.newAttempt ≠ none) : phase.holdsQuiz = true := by
  cases phase with
  | created a => rfl
  | _ => exact absurd rfl h

/-- **What is so for a session stays so while others work.** -/
theorem Apart.own (h : Apart sys sys' t) (hown : Own sys t phase) : Own sys' t phase := by
  refine ⟨?_, ?_, ?_, ?_, ?_, ?_, ?_, ?_, ?_⟩
  · intro a r hp
    have hold := h.attempts.1 hp
    rw [h.rows hold]
    exact hown.attempts a r hold
  · exact fun hclean a r hp => hown.clean hclean a r (h.attempts.1 hp)
  · intro hholds
    obtain ⟨q, hq⟩ := hown.quiz hholds
    exact ⟨q, h.quiz.2 hq⟩
  · intro hnew
    obtain ⟨q, hq⟩ := hown.quiz (holdsQuiz_of_newAttempt hnew)
    exact h.created q hq (hown.created hnew)
  · intro a ha
    obtain ⟨r, hr⟩ := hown.locks a ha
    exact ⟨r, h.attempts.2 hr⟩
  · intro a ha
    obtain ⟨r, hr, hsubmitted⟩ := hown.submitted a ha
    exact ⟨r, h.attempts.2 hr, hsubmitted⟩
  · exact fun a k r hp => hown.responses a k r (h.responses.1 hp)
  · intro row hp
    have hold := h.progress.1 hp
    rw [h.count hold]
    exact hown.progress row hold
  · intro hcounted
    obtain ⟨row, hrow⟩ := hown.counted hcounted
    exact ⟨row, h.progress.2 hrow⟩

/-- One session has gone on, and nothing is committed. -/
structure Aside (sys sys' : System A κ S) (s : S) : Prop where
  attemptRows : sys'.attempts.rows = sys.attempts.rows
  responseRows : sys'.responses.rows = sys.responses.rows
  progressRows : sys'.progress.rows = sys.progress.rows
  quiz : ∀ {k t q}, t ≠ s → (sys'.quiz.pending k = some (t, q) ↔ sys.quiz.pending k = some (t, q))
  attempts : ∀ {a t r}, t ≠ s →
    (sys'.attempts.pending a = some (t, r) ↔ sys.attempts.pending a = some (t, r))
  responses : ∀ {k t r}, t ≠ s →
    (sys'.responses.pending k = some (t, r) ↔ sys.responses.pending k = some (t, r))
  progress : ∀ {k t row}, t ≠ s →
    (sys'.progress.pending k = some (t, row) ↔ sys.progress.pending k = some (t, row))
  phase : ∀ {t}, t ≠ s → sys'.phase t = sys.phase t

theorem Aside.apart (h : Aside sys sys' s) (hne : t ≠ s) : Apart sys sys' t where
  quiz := h.quiz hne
  attempts := h.attempts hne
  responses := h.responses hne
  progress := h.progress hne
  rows := fun _ => by rw [h.attemptRows]
  count := fun _ => by rw [h.progressRows]
  created := fun _ _ hnone => by
    rw [h.attemptRows]
    exact hnone

/-- **A statement keeps the invariant**, if what is so for its session is so afterwards. -/
theorem Orderly.statement [Fintype A] (h : Orderly earlier sys) (haside : Aside sys sys' s)
    (hown : Own sys' s (sys'.phase s)) : Keeps earlier sys sys' := by
  refine ⟨⟨?_, ?_, fun t => ?_⟩, ?_, ?_⟩
  · unfold InProgress
    rw [haside.attemptRows]
    exact h.one
  · unfold submissions
    rw [haside.attemptRows, haside.progressRows]
    exact h.count
  · by_cases hts : t = s
    · subst hts
      exact hown
    · rw [haside.phase hts]
      exact (haside.apart hts).own (h.own t)
  · intro a r hr _
    rw [haside.attemptRows]
    exact hr
  · intro a r _ _ k
    rw [haside.responseRows]

theorem Orderly.ownAt [Fintype A] (h : Orderly earlier sys) (hphase : sys.phase s = phase) :
    Own sys s phase :=
  hphase ▸ h.own s

/-- Attempts are written by a request that has written none. -/
theorem Own.wroteAttempts (h : Own sys s phase) (hsubmitted : phase.submitted = none)
    (hnew : phase.newAttempt = none) {f : A → Option (QuizAttempt κ)}
    {attempts : Store A (QuizAttempt κ) Unit S} (hput : sys.attempts.Put s f attempts)
    {phase' : Phase A κ} (hf : ∀ a r, f a = some r →
      (∃ old, sys.attempts.rows a = some old ∧ old.status = .inProgress ∧
        (r.status = .submitted → phase'.submitted = some a)) ∨
      (sys.attempts.rows a = none ∧ phase'.newAttempt = some a ∧ r.status = .inProgress))
    (a : A) (r : QuizAttempt κ) (hp : attempts.pending a = some (s, r)) :
    (∃ old, attempts.rows a = some old ∧ old.status = .inProgress ∧
      (r.status = .submitted → phase'.submitted = some a)) ∨
    (attempts.rows a = none ∧ phase'.newAttempt = some a ∧ r.status = .inProgress) := by
  rw [hput.rows]
  rcases hput.cases hp with hwritten | ⟨-, hp⟩
  · exact hf a r hwritten
  · rcases h.attempts a r hp with ⟨old, hold, hstatus, hsub⟩ | ⟨-, hnew', -⟩
    · refine Or.inl ⟨old, hold, hstatus, fun hr => ?_⟩
      rw [hsubmitted] at hsub
      exact absurd (hsub hr) nofun
    · rw [hnew] at hnew'
      cases hnew'

theorem Own.inProgress (h : Own sys s phase) {a : A} {r : QuizAttempt κ}
    (hp : sys.attempts.pending a = some (s, r)) : InProgress sys a ∨ phase.newAttempt = some a := by
  rcases h.attempts a r hp with ⟨old, hold, hstatus, -⟩ | ⟨-, hnew, -⟩
  · exact Or.inl ⟨old, hold, hstatus⟩
  · exact Or.inr hnew

/-- What a commit submits was in progress. -/
theorem Own.status_of_submitted (h : Own sys s phase) {a : A} (ha : phase.submitted = some a) :
    (sys.attempts.rows a).map QuizAttempt.status ≠ some .submitted := by
  obtain ⟨r, hp, hr⟩ := h.submitted a ha
  rcases h.attempts a r hp with ⟨old, hold, hstatus, -⟩ | ⟨hnone, -, -⟩
  · simp [hold, hstatus]
  · simp [hnone]

/-- A session without a transaction. -/
theorem Own.of_none
    (hattempts : ∀ a r, sys.attempts.pending a ≠ some (s, r))
    (hresponses : ∀ k r, sys.responses.pending k ≠ some (s, r))
    (hprogress : ∀ k row, sys.progress.pending k ≠ some (s, row)) : Own sys s .idle where
  attempts := fun a r hp => absurd hp (hattempts a r)
  clean := fun _ => hattempts
  quiz := nofun
  created := fun h => absurd rfl h
  locks := nofun
  submitted := nofun
  responses := fun a k r hp => absurd hp (hresponses (a, k) r)
  progress := fun row hp => absurd hp (hprogress () row)
  counted := nofun

/-! ## The end of a request -/

variable [DecidableEq S]

/-- The end of a request whose writes become visible. -/
def System.committed (sys : System A κ S) (s : S) : System A κ S :=
  { sys.enter s .idle with
    quiz := sys.quiz.commit s
    attempts := sys.attempts.commit s
    responses := sys.responses.commit s
    progress := sys.progress.commit s }

theorem phase_enter_other (hne : t ≠ s) : (sys.enter s phase).phase t = sys.phase t :=
  Function.update_of_ne hne ..

theorem phase_enter_self : (sys.enter s phase).phase s = phase :=
  Function.update_self ..

theorem Own.inProgress_committed (h : Own sys s phase) {a : A}
    (ha : InProgress (sys.committed s) a) : InProgress sys a ∨ phase.newAttempt = some a := by
  obtain ⟨r, hr, hstatus⟩ := ha
  rcases sys.attempts.view_cases s a with ⟨r', hp, -⟩ | ⟨-, hview⟩
  · exact h.inProgress hp
  · exact Or.inl ⟨r, hview.symm.trans hr, hstatus⟩

/-- What a commit submits. -/
theorem Own.status_committed (h : Own sys s phase) (a : A) :
    ((sys.committed s).attempts.rows a).map QuizAttempt.status = some .submitted ↔
      (sys.attempts.rows a).map QuizAttempt.status = some .submitted ∨
        phase.submitted = some a := by
  change (sys.attempts.view s a).map QuizAttempt.status = some .submitted ↔ _
  rcases sys.attempts.view_cases s a with ⟨r, hp, hview⟩ | ⟨hown, hview⟩
  · rw [hview]
    rcases h.attempts a r hp with ⟨old, hold, hstatus, hsubmitted⟩ | ⟨hnone, hnew, hstatus⟩
    · rw [hold]
      refine ⟨fun hr => Or.inr (hsubmitted (Option.some.inj hr)), fun hr => ?_⟩
      rcases hr with hr | hr
      · simp [hstatus] at hr
      · obtain ⟨r', hp', hr'⟩ := h.submitted a hr
        rw [hp] at hp'
        cases hp'
        simp [hr']
    · rw [hnone]
      refine ⟨fun hr => by simp [hstatus] at hr, fun hr => ?_⟩
      rcases hr with hr | hr
      · simp at hr
      · obtain ⟨r', hp', hr'⟩ := h.submitted a hr
        rw [hp] at hp'
        cases hp'
        simp [hr']
  · rw [hview]
    refine ⟨Or.inl, fun hr => hr.resolve_right fun hsubmitted => ?_⟩
    obtain ⟨r, hp, -⟩ := h.submitted a hsubmitted
    exact hown r hp

theorem isCounted_of_commits (h : phase.commits = true) :
    phase.isCounted = true ↔ phase.submitted ≠ none := by
  cases phase with
  | writing a purpose todo => simp [Phase.isCounted, Phase.submitted]
  | marked _ _ | counting _ _ _ => exact absurd h nofun
  | _ => simp [Phase.isCounted, Phase.submitted]

theorem attempt_of_commits (h : phase.commits = true) {a : A} (ha : phase.attempt = some a) :
    phase.locks = some a ∨ phase.answered = some a := by
  cases phase with
  | writing b purpose todo =>
    cases ha
    cases purpose with
    | patch => exact Or.inl rfl
    | answer =>
      cases todo with
      | nil => exact Or.inr rfl
      | cons _ _ => exact absurd h nofun
    | submit _ _ => exact absurd h nofun
  | marked _ _ | counting _ _ _ => exact absurd h nofun
  | counted b => exact Or.inl ha
  | _ => exact absurd ha nofun

theorem Orderly.count_committed [Fintype A] [DecidableEq A] (h : Orderly earlier sys)
    (hcommits : (sys.phase s).commits = true) :
    attemptCount ((sys.committed s).progress.rows ()) =
      earlier + submissions (sys.committed s) := by
  have hown := h.own s
  change attemptCount (sys.progress.view s ()) = _
  have hrest : submissions (sys.committed s) =
      submissions sys + if (sys.phase s).isCounted = true then 1 else 0 := by
    unfold submissions
    rw [Finset.filter_congr fun a _ => hown.status_committed a]
    cases hsub : (sys.phase s).submitted with
    | none =>
      have hcounted : ¬ (sys.phase s).isCounted = true := by
        rw [isCounted_of_commits hcommits]
        exact fun hne => hne hsub
      simp [hcounted]
    | some a =>
      have hcounted : (sys.phase s).isCounted = true := by
        rw [isCounted_of_commits hcommits, hsub]
        exact nofun
      have hinsert : (Finset.univ.filter fun b =>
          (sys.attempts.rows b).map QuizAttempt.status = some .submitted ∨ some a = some b) =
          insert a (Finset.univ.filter fun b =>
            (sys.attempts.rows b).map QuizAttempt.status = some .submitted) := by
        ext b
        simp [or_comm, eq_comm]
      rw [hinsert, Finset.card_insert_of_notMem, if_pos hcounted]
      simpa using hown.status_of_submitted hsub
  rw [hrest]
  rcases sys.progress.view_cases s () with ⟨row, hp, hview⟩ | ⟨hnone, hview⟩
  · obtain ⟨hcounted, hcount⟩ := hown.progress row hp
    rw [hview, if_pos hcounted, ← Nat.add_assoc, ← h.count]
    exact hcount
  · have hcounted : ¬ (sys.phase s).isCounted = true := by
      intro hc
      obtain ⟨row, hp⟩ := hown.counted hc
      exact hnone row hp
    rw [hview, if_neg hcounted, h.count]
    rfl

theorem Orderly.apart_committed [Fintype A] (h : Orderly earlier sys) (hne : t ≠ s) :
    Apart sys (sys.committed s) t where
  quiz := by simp [System.committed, Store.pending_commit, hne]
  attempts := by simp [System.committed, Store.pending_commit, hne]
  responses := by simp [System.committed, Store.pending_commit, hne]
  progress := by simp [System.committed, Store.pending_commit, hne]
  rows := fun hp => Store.view_of_other hp hne
  count := fun hp => Store.view_of_other hp hne
  created := fun q hq hnone a r hr hstatus => by
    rcases (h.own s).inProgress_committed ⟨r, hr, hstatus⟩ with ⟨old, hold, holdStatus⟩ | hnew
    · exact hnone a old hold holdStatus
    · have hholds : (sys.phase s).newAttempt ≠ none := by
        rw [hnew]
        exact nofun
      obtain ⟨q', hq'⟩ := (h.own s).quiz (holdsQuiz_of_newAttempt hholds)
      exact hne (Prod.mk.inj (Option.some.inj (hq.symm.trans hq'))).1

/-- **A commit keeps the invariant**, if the attempt it has answered is in progress. -/
theorem Orderly.commit [Fintype A] [DecidableEq A] (h : Orderly earlier sys)
    (hcommits : (sys.phase s).commits = true)
    (hanswered : ∀ a, (sys.phase s).answered = some a →
      (sys.attempts.rows a).map QuizAttempt.status = some .inProgress) :
    Keeps earlier sys (sys.committed s) := by
  have hown := h.own s
  have hended : ∀ a r, sys.attempts.rows a = some r → r.status ≠ .inProgress →
      ∀ r', sys.attempts.pending a ≠ some (s, r') := by
    intro a r hr hstatus r' hp
    rcases hown.attempts a r' hp with ⟨old, hold, holdStatus, -⟩ | ⟨hnone, -, -⟩
    · rw [hr] at hold
      cases hold
      exact hstatus holdStatus
    · rw [hr] at hnone
      cases hnone
  refine ⟨⟨?_, h.count_committed hcommits, fun t => ?_⟩, ?_, ?_⟩
  · intro a b ha hb
    rcases hown.inProgress_committed ha with ha | ha <;>
      rcases hown.inProgress_committed hb with hb | hb
    · exact h.one a b ha hb
    · obtain ⟨r, hr, hstatus⟩ := ha
      exact absurd hstatus (hown.created (by simp [hb]) a r hr)
    · obtain ⟨r, hr, hstatus⟩ := hb
      exact absurd hstatus (hown.created (by simp [ha]) b r hr)
    · exact Option.some.inj (ha.symm.trans hb)
  · by_cases hts : t = s
    · subst hts
      rw [System.committed, phase_enter_self]
      exact .of_none
        (fun k q hp => (Store.pending_commit.1 hp).2 rfl)
        (fun k q hp => (Store.pending_commit.1 hp).2 rfl)
        (fun k q hp => (Store.pending_commit.1 hp).2 rfl)
    · rw [System.committed, phase_enter_other hts]
      exact (h.apart_committed hts).own (h.own t)
  · intro a r hr hstatus
    exact (Store.view_of_not_own (hended a r hr hstatus)).trans hr
  · intro a r hr hstatus k
    refine Store.view_of_not_own fun r' hp => ?_
    rcases attempt_of_commits hcommits (hown.responses a k r' hp) with hlocks | hans
    · obtain ⟨r'', hp'⟩ := hown.locks a hlocks
      exact hended a r hr hstatus r'' hp'
    · have hin := hanswered a hans
      rw [hr] at hin
      exact hstatus (by simpa using hin)

/-- A rollback keeps the invariant. -/
theorem Orderly.rollback [Fintype A] (h : Orderly earlier sys) :
    Keeps earlier sys { sys.enter s .idle with
      quiz := sys.quiz.rollback s
      attempts := sys.attempts.rollback s
      responses := sys.responses.rollback s
      progress := sys.progress.rollback s } := by
  refine h.statement (s := s) ⟨rfl, rfl, rfl, fun hne => ?_, fun hne => ?_, fun hne => ?_,
    fun hne => ?_, phase_enter_other⟩ ?_
  · simp [Store.pending_rollback, hne]
  · simp [Store.pending_rollback, hne]
  · simp [Store.pending_rollback, hne]
  · simp [Store.pending_rollback, hne]
  · rw [phase_enter_self]
    exact .of_none
      (fun k q hp => (Store.pending_rollback.1 hp).2 rfl)
      (fun k q hp => (Store.pending_rollback.1 hp).2 rfl)
      (fun k q hp => (Store.pending_rollback.1 hp).2 rfl)

/-! ## Statements -/

theorem aside_enter : Aside sys (sys.enter s phase) s :=
  ⟨rfl, rfl, rfl, fun _ => Iff.rfl, fun _ => Iff.rfl, fun _ => Iff.rfl, fun _ => Iff.rfl,
    phase_enter_other⟩

theorem Orderly.enter [Fintype A] (h : Orderly earlier sys) (hown : Own sys s phase) :
    Keeps earlier sys (sys.enter s phase) := by
  refine h.statement aside_enter ?_
  rw [phase_enter_self]
  exact { hown with }

theorem Orderly.putQuiz [Fintype A] (h : Orderly earlier sys) {f : Unit → Option Bool}
    {quiz : Store Unit Bool Unit S} (hput : sys.quiz.Put s f quiz)
    (hown : Own { sys with quiz := quiz } s phase) :
    Keeps earlier sys { sys.enter s phase with quiz := quiz } := by
  refine h.statement (s := s) ⟨rfl, rfl, rfl, hput.others, fun _ => Iff.rfl, fun _ => Iff.rfl,
    fun _ => Iff.rfl, phase_enter_other⟩ ?_
  rw [phase_enter_self]
  exact { hown with }

theorem Orderly.putAttempts [Fintype A] (h : Orderly earlier sys) {f : A → Option (QuizAttempt κ)}
    {attempts : Store A (QuizAttempt κ) Unit S} (hput : sys.attempts.Put s f attempts)
    (hown : Own { sys with attempts := attempts } s phase) :
    Keeps earlier sys { sys.enter s phase with attempts := attempts } := by
  refine h.statement (s := s) ⟨hput.rows, rfl, rfl, fun _ => Iff.rfl, hput.others, fun _ => Iff.rfl,
    fun _ => Iff.rfl, phase_enter_other⟩ ?_
  rw [phase_enter_self]
  exact { hown with }

theorem Orderly.putResponses [Fintype A] (h : Orderly earlier sys) {f : A × κ → Option (Response κ)}
    {responses : Store (A × κ) (Response κ) Unit S} (hput : sys.responses.Put s f responses)
    (hown : Own { sys with responses := responses } s phase) :
    Keeps earlier sys { sys.enter s phase with responses := responses } := by
  refine h.statement (s := s) ⟨rfl, hput.rows, rfl, fun _ => Iff.rfl, fun _ => Iff.rfl, hput.others,
    fun _ => Iff.rfl, phase_enter_other⟩ ?_
  rw [phase_enter_self]
  exact { hown with }

theorem Orderly.putProgress [Fintype A] (h : Orderly earlier sys) {f : Unit → Option (Row ℚ)}
    {progress : Store Unit (Row ℚ) Unit S} (hput : sys.progress.Put s f progress)
    (hown : Own { sys with progress := progress } s phase) :
    Keeps earlier sys { sys.enter s phase with progress := progress } := by
  refine h.statement (s := s) ⟨rfl, rfl, hput.rows, fun _ => Iff.rfl, fun _ => Iff.rfl,
    fun _ => Iff.rfl, hput.others, phase_enter_other⟩ ?_
  rw [phase_enter_self]
  exact { hown with }

/-- The attempt that a request reads as in progress is in progress. -/
theorem Own.of_view (h : Own sys s phase) (hnew : phase.newAttempt = none) {a : A}
    {r : QuizAttempt κ} (hview : sys.attempts.view s a = some r) (hr : r.status = .inProgress) :
    ∃ old, sys.attempts.rows a = some old ∧ old.status = .inProgress := by
  rcases sys.attempts.view_cases s a with ⟨r', hp, -⟩ | ⟨-, hsame⟩
  · rcases h.attempts a r' hp with ⟨old, hold, hstatus, -⟩ | ⟨-, hnew', -⟩
    · exact ⟨old, hold, hstatus⟩
    · rw [hnew] at hnew'
      cases hnew'
  · exact ⟨r, hsame.symm.trans hview, hr⟩

end

end StudyAgent.Progress.AttemptRequests
