import StudyAgent.Lifecycle.Sessions

/-!
# The question count of a quiz

The column `total_questions` repeats what can be counted: a new draft and a replaced one set it, a
question that the mentor creates or deletes moves it by one.  It is a column of the row of the
quiz, and the lock of that row protects it.

Main results:

* `TalliedBy.questions` — what a session must do when it writes questions.
* `Tallied.commit` — a commit makes a count visible together with the questions it counts.
* `total_questions_exact` — **the count is exact in every committed state**, however the sessions
  interleave, where no half of a draft is committed.
-/

namespace StudyAgent.Lifecycle

open ReadCommitted

variable {Q J S : Type}

/-! ## The counter -/

/-- The tables, with the column `total_questions`. -/
structure Counted (Q J S : Type) where
  sys : System Q J S
  totals : Store Q ℕ Unit S

section

variable [DecidableEq Q] [DecidableEq S]

/-- `increment_total_questions`. -/
def incrementTotalQuestions (totals : Store Q ℕ Unit S) (s : S) (k : Q) : Store Q ℕ Unit S :=
  totals.write s k ((totals.view s k).getD 0 + 1)

/-- `decrement_total_questions`; the difference ends at zero. -/
def decrementTotalQuestions (totals : Store Q ℕ Unit S) (s : S) (k : Q) : Store Q ℕ Unit S :=
  totals.write s k ((totals.view s k).getD 1 - 1)

/-- What the statements do to the counter. -/
def Counted.totalsAfter (c : Counted Q J S) : Event Q J S → Store Q ℕ Unit S
  | .generate s k _ _ questions => c.totals.write s k questions.length
  | .replaceQuiz s _ questions =>
    match c.sys.phase s with
    | .regenerating k => c.totals.write s k questions.length
    | _ => c.totals
  | .createQuestion s _ _ =>
    match c.sys.phase s with
    | .editing k => incrementTotalQuestions c.totals s k
    | _ => c.totals
  | .edit s _ .softDelete =>
    match c.sys.phase s with
    | .editing k => decrementTotalQuestions c.totals s k
    | _ => c.totals
  | .commit s => c.totals.commit s
  | .rollback s | .finish s => c.totals.rollback s
  | _ => c.totals

/-- A step of a session, with what it does to the counter. -/
def Counted.step [Fintype Q] [Fintype J] [DecidableEq J] [Fintype S] (c : Counted Q J S)
    (e : Event Q J S) : Option (Counted Q J S) :=
  (c.sys.step e).map fun sys => { sys := sys, totals := c.totalsAfter e }

/-- A row counts for a quiz if it is an active question of it. -/
def counts (k : Q) : Option (Option (QuizQuestion Q)) → ℕ
  | some (some question) => if question.quizId = k ∧ question.isActive = true then 1 else 0
  | _ => 0

/-- The number of active questions of a quiz. -/
def activeQuestions [Fintype J] (rows : J → Option (Option (QuizQuestion Q))) (k : Q) : ℕ :=
  ∑ j, counts k (rows j)

end

/-! ## What a session sees -/

namespace Phase

/-- What the counter says in a phase, where so many questions are there: a replacement counts the
questions that it has still to insert, and not those that it has still to delete. -/
def expected [DecidableEq Q] (k : Q) (active : ℕ) : Phase Q J → ℕ
  | .replacing k' questions => if k' = k then questions.length else active
  | .inserting k' questions _ => if k' = k then active + questions.length else active
  | _ => active

/-- The quiz that is locked in a phase in which questions come and go. -/
def countedQuiz : Phase Q J → Option Q
  | .editing k | .replacing k _ | .inserting k _ _ => some k
  | _ => none

end Phase

section

variable [DecidableEq Q] [DecidableEq S] [Fintype J]

/-- A session has the lock of a quiz. -/
def Locks (sys : System Q J S) (s : S) (k : Q) : Prop :=
  ∃ quiz, sys.quizzes.pending k = some (s, quiz)

/-- What is so of one session. -/
structure TalliedBy (c : Counted Q J S) (s : S) : Prop where
  /-- In a quiz that it has locked the session sees the count. -/
  locked : ∀ k, Locks c.sys s k → c.totals.view s k =
    some ((c.sys.phase s).expected k (activeQuestions (c.sys.questions.view s) k))
  /-- It counts nothing else. -/
  own : ∀ k n, c.totals.pending k = some (s, n) → Locks c.sys s k
  /-- In another quiz it lets no question come or go. -/
  apart : ∀ k, ¬ Locks c.sys s k → ∀ j row, c.sys.questions.pending j = some (s, row) →
    counts k (some row) = counts k (c.sys.questions.rows j)
  phase : ∀ k ∈ (c.sys.phase s).countedQuiz, Locks c.sys s k

/-- **The invariant.** -/
structure Tallied (c : Counted Q J S) : Prop where
  exact : ∀ k quiz, c.sys.quizzes.rows k = some quiz →
    c.totals.rows k = some (activeQuestions c.sys.questions.rows k)
  orphans : ∀ k, c.sys.quizzes.rows k = none → activeQuestions c.sys.questions.rows k = 0
  sessions : ∀ s, TalliedBy c s

variable {c c' : Counted Q J S} {s t : S} {k : Q}

/-- What a session sees of a quiz that it has not locked counts as what is committed. -/
theorem TalliedBy.counts_view (h : TalliedBy c s) (hk : ¬ Locks c.sys s k) (j : J) :
    counts k (c.sys.questions.view s j) = counts k (c.sys.questions.rows j) := by
  rcases c.sys.questions.view_cases s j with ⟨row, hp, hview⟩ | ⟨-, hview⟩
  · rw [hview, h.apart k hk j row hp]
  · rw [hview]

theorem TalliedBy.activeQuestions_view (h : TalliedBy c s) (hk : ¬ Locks c.sys s k) :
    activeQuestions (c.sys.questions.view s) k = activeQuestions c.sys.questions.rows k :=
  Finset.sum_congr rfl fun j _ => h.counts_view hk j

theorem TalliedBy.view_totals (h : TalliedBy c s) (hk : ¬ Locks c.sys s k) :
    c.totals.view s k = c.totals.rows k :=
  Store.view_of_not_own fun n hp => hk (h.own k n hp)

/-- The rows that a session writes change the number by what they count themselves. -/
theorem activeQuestions_only [DecidableEq J] (rows : J → Option (Option (QuizQuestion Q))) (j : J)
    (row : Option (QuizQuestion Q)) (k : Q) :
    activeQuestions (fun i => (only j row i).or (rows i)) k + counts k (rows j) =
      activeQuestions rows k + counts k (some row) := by
  unfold activeQuestions
  rw [← Finset.add_sum_erase Finset.univ _ (Finset.mem_univ j),
    ← Finset.add_sum_erase Finset.univ (fun i => counts k (rows i)) (Finset.mem_univ j)]
  have hrest : ∀ i ∈ Finset.univ.erase j,
      counts k ((only j row i).or (rows i)) = counts k (rows i) := by
    intro i hi
    rw [only, if_neg (Finset.ne_of_mem_erase hi), Option.none_or]
  have hself : (only j row j).or (rows j) = some row := by simp [only]
  rw [Finset.sum_congr rfl hrest]
  simp only [hself]
  omega

/-! ## What other sessions do -/

omit [DecidableEq Q] [DecidableEq S] [Fintype J] in
theorem locks_aside (haside : Aside c.sys c'.sys s) (hne : t ≠ s) :
    Locks c'.sys t k ↔ Locks c.sys t k :=
  exists_congr fun _ => haside.quizzes hne

/-- A session is not concerned by what another one does before it commits. -/
theorem TalliedBy.aside (h : TalliedBy c t) (haside : Aside c.sys c'.sys s) (hne : t ≠ s)
    (hrows : c'.totals.rows = c.totals.rows)
    (hpending : ∀ {k n}, c'.totals.pending k = some (t, n) ↔ c.totals.pending k = some (t, n)) :
    TalliedBy c' t where
  locked k hk := by
    rw [Store.view_congr hrows hpending, haside.phase hne,
      Store.view_congr haside.questionRows (haside.questions hne)]
    exact h.locked k ((locks_aside haside hne).1 hk)
  own k n hp := (locks_aside haside hne).2 (h.own k n (hpending.1 hp))
  apart k hk j row hp := by
    rw [haside.questionRows]
    exact h.apart k (fun hold => hk ((locks_aside haside hne).2 hold)) j row
      ((haside.questions hne).1 hp)
  phase k hk := by
    rw [haside.phase hne] at hk
    exact (locks_aside haside hne).2 (h.phase k hk)

/-- **A statement keeps the invariant** if the session that makes it does. -/
theorem Tallied.statement (h : Tallied c) (haside : Aside c.sys c'.sys s)
    (hrows : c'.totals.rows = c.totals.rows)
    (hpending : ∀ {k t n}, t ≠ s →
      (c'.totals.pending k = some (t, n) ↔ c.totals.pending k = some (t, n)))
    (hs : TalliedBy c' s) : Tallied c' where
  exact k quiz hk := by
    rw [haside.quizRows] at hk
    rw [hrows, haside.questionRows]
    exact h.exact k quiz hk
  orphans k hk := by
    rw [haside.quizRows] at hk
    rw [haside.questionRows]
    exact h.orphans k hk
  sessions t := by
    by_cases hts : t = s
    · subst hts
      exact hs
    · exact (h.sessions t).aside haside hts hrows (hpending hts)

/-! ## Statements -/

/-- A phase in which every question is counted. -/
def Phase.Plain (phase : Phase Q J) : Prop := ∀ k n, phase.expected k n = n

/-- A session goes on without a write. -/
theorem Tallied.enter (h : Tallied c) {phase : Phase Q J}
    (hexpected : ∀ k n, phase.expected k n = (c.sys.phase s).expected k n)
    (hphase : ∀ k ∈ phase.countedQuiz, Locks c.sys s k) :
    Tallied { c with sys := c.sys.enter s phase } := by
  obtain ⟨hlocked, hown, hapart, -⟩ := h.sessions s
  refine h.statement (s := s) System.aside_enter rfl (fun _ => Iff.rfl)
    ⟨fun k hk => ?_, hown, hapart, fun k hk => ?_⟩
  · simp only [System.phase_enter_self, hexpected]
    exact hlocked k hk
  · simp only [System.phase_enter_self] at hk
    exact hphase k hk

/-- What is counted where a lock has just been taken. -/
theorem Tallied.view_totals_of_free (h : Tallied c) (hk : ¬ Locks c.sys s k) {quiz : Quiz Q}
    (hview : c.sys.quizzes.view s k = some quiz) :
    c.totals.view s k = some (activeQuestions (c.sys.questions.view s) k) := by
  have hrow : c.sys.quizzes.view s k = c.sys.quizzes.rows k :=
    Store.view_of_not_own fun quiz hp => hk ⟨quiz, hp⟩
  rw [hrow] at hview
  rw [(h.sessions s).view_totals hk, h.exact k quiz hview, (h.sessions s).activeQuestions_view hk]

omit [Fintype J] [DecidableEq S] [DecidableEq Q] in
theorem WroteQuizzes.locks {sys sys' : System Q J S} {f : Q → Option (Quiz Q)}
    {phase : Phase Q J} (hwrote : WroteQuizzes sys s f phase sys') :
    Locks sys' s k ↔ f k ≠ none ∨ Locks sys s k := by
  constructor
  · rintro ⟨quiz, hp⟩
    rcases hwrote.cases hp with hf | ⟨-, hold⟩
    · exact Or.inl (by simp [hf])
    · exact Or.inr ⟨quiz, hold⟩
  · intro hk
    cases hf : f k with
    | some quiz => exact ⟨quiz, hwrote.written hf⟩
    | none =>
      obtain ⟨quiz, hp⟩ := hk.resolve_left fun hne => hne hf
      exact ⟨quiz, hwrote.kept hf hp⟩

/-- **A session locks quizzes**, or changes other columns of theirs. -/
theorem Tallied.lock (h : Tallied c) {f : Q → Option (Quiz Q)} {phase : Phase Q J}
    {sys' : System Q J S} (hwrote : WroteQuizzes c.sys s f phase sys')
    (hview : ∀ k, f k ≠ none → ∃ quiz, c.sys.quizzes.view s k = some quiz)
    (hold : (c.sys.phase s).Plain) (hnew : phase.Plain)
    (hphase : ∀ k ∈ phase.countedQuiz, f k ≠ none ∨ Locks c.sys s k) :
    Tallied { c with sys := sys' } := by
  have hs := h.sessions s
  refine h.statement (s := s) hwrote.aside rfl (fun _ => Iff.rfl)
    ⟨fun k hk => ?_, fun k n hp => ?_, fun k hk j row hp => ?_, fun k hk => ?_⟩
  · simp only [hwrote.questions, hwrote.phase, hnew k]
    by_cases hlocked : Locks c.sys s k
    · have hcount := hs.locked k hlocked
      rwa [hold k] at hcount
    · obtain ⟨quiz, hquiz⟩ := hview k ((hwrote.locks.1 hk).resolve_right hlocked)
      exact h.view_totals_of_free hlocked hquiz
  · exact hwrote.locks.2 (Or.inr (hs.own k n hp))
  · simp only [hwrote.questions] at hp ⊢
    exact hs.apart k (fun hlocked => hk (hwrote.locks.2 (Or.inr hlocked))) j row hp
  · simp only [hwrote.phase] at hk
    exact hwrote.locks.2 (hphase k hk)

/-- Nobody else has written the counter of a quiz whose row is free. -/
theorem Tallied.free_totals (h : Tallied c) (hfree : c.sys.quizzes.Free s k) :
    c.totals.Free s k := by
  rintro ⟨t, n⟩ hp
  obtain ⟨quiz, hquiz⟩ := (h.sessions t).own k n hp
  exact hfree (t, quiz) hquiz

omit [Fintype J] in
theorem pending_write_other {totals : Store Q ℕ Unit S} (hfree : totals.Free s k) {n : ℕ} {i : Q}
    {m : ℕ} (hne : t ≠ s) :
    (totals.write s k n).pending i = some (t, m) ↔ totals.pending i = some (t, m) :=
  (Store.frame_write hfree n).pending hne

/-- **A session takes the lock of a quiz and sets its counter**, to what it says in the next
phase. -/
theorem Tallied.reset (h : Tallied c) {quiz : Quiz Q} {phase : Phase Q J} {sys' : System Q J S}
    {n : ℕ} (hwrote : WroteQuizzes c.sys s (only k quiz) phase sys')
    (hfree : c.sys.quizzes.Free s k) (hold : (c.sys.phase s).Plain)
    (hn : n = phase.expected k (activeQuestions (c.sys.questions.view s) k))
    (hothers : ∀ i m, i ≠ k → phase.expected i m = m)
    (hphase : ∀ i ∈ phase.countedQuiz, i = k) :
    Tallied { sys := sys', totals := c.totals.write s k n } := by
  have hs := h.sessions s
  have htotals := h.free_totals hfree
  have honly : ∀ {i}, only k quiz i ≠ none ↔ i = k := by simp [only]
  refine h.statement (s := s) hwrote.aside rfl (pending_write_other htotals)
    ⟨fun i hi => ?_, fun i m hp => ?_, fun i hi j row hp => ?_, fun i hi => ?_⟩
  · simp only [hwrote.questions, hwrote.phase, Store.view_write_self]
    by_cases hik : i = k
    · subst hik
      simp [hn]
    · have hlocked : Locks c.sys s i := (hwrote.locks.1 hi).resolve_left fun hf => hik (honly.1 hf)
      have hcount := hs.locked i hlocked
      rw [hold i] at hcount
      rw [if_neg hik, hothers i _ hik, hcount]
  · simp only [Store.pending_write] at hp
    refine hwrote.locks.2 ?_
    by_cases hik : i = k
    · exact Or.inl (honly.2 hik)
    · rw [if_neg hik] at hp
      exact Or.inr (hs.own i m hp)
  · simp only [hwrote.questions] at hp ⊢
    exact hs.apart i (fun hlocked => hi (hwrote.locks.2 (Or.inr hlocked))) j row hp
  · simp only [hwrote.phase] at hi
    exact hwrote.locks.2 (Or.inl (honly.2 (hphase i hi)))

/-- **A session writes questions**: where it has no lock, they count as before, and where it has
one, the counter agrees afterwards. -/
theorem Tallied.questions (h : Tallied c) {g : J → Option (Option (QuizQuestion Q))}
    {phase : Phase Q J} {sys' : System Q J S} {totals' : Store Q ℕ Unit S}
    (hstep : c.sys.writeQuestions s g phase = some sys')
    (hrows : totals'.rows = c.totals.rows)
    (hpending : ∀ {i t m}, t ≠ s →
      (totals'.pending i = some (t, m) ↔ c.totals.pending i = some (t, m)))
    (hown : ∀ i m, totals'.pending i = some (s, m) → Locks c.sys s i)
    (hlocked : ∀ i, Locks c.sys s i → totals'.view s i = some (phase.expected i
      (activeQuestions (fun j => (g j).or (c.sys.questions.view s j)) i)))
    (hcounts : ∀ i, ¬ Locks c.sys s i → ∀ j row, g j = some row →
      counts i (some row) = counts i (c.sys.questions.view s j))
    (hphase : ∀ i ∈ phase.countedQuiz, Locks c.sys s i) :
    Tallied { sys := sys', totals := totals' } := by
  have hwrote := System.wroteQuestions hstep
  have hview : sys'.questions.view s = fun j => (g j).or (c.sys.questions.view s j) :=
    funext fun j => System.view_question_writeQuestions hstep j
  have hlocks : ∀ {i}, Locks sys' s i ↔ Locks c.sys s i := by
    intro i
    rw [Locks, hwrote.quizzes, Locks]
  refine h.statement (s := s) hwrote.aside hrows hpending
    ⟨fun i hi => ?_, fun i m hp => hlocks.2 (hown i m hp), fun i hi j row hp => ?_, fun i hi => ?_⟩
  · simp only [hwrote.phase, hview]
    exact hlocked i (hlocks.1 hi)
  · have hnot : ¬ Locks c.sys s i := fun hlock => hi (hlocks.2 hlock)
    simp only [hwrote.aside.questionRows]
    rcases hwrote.cases hp with hg | ⟨-, hp⟩
    · rw [hcounts i hnot j row hg, (h.sessions s).counts_view hnot]
    · exact (h.sessions s).apart i hnot j row hp
  · simp only [hwrote.phase] at hi
    exact hlocks.2 (hphase i hi)

/-- A question is written that counts as it did. -/
theorem Tallied.keepCount [DecidableEq J] (h : Tallied c) {j : J} {row : Option (QuizQuestion Q)}
    {phase : Phase Q J} {sys' : System Q J S}
    (hstep : c.sys.writeQuestions s (only j row) phase = some sys')
    (hsame : ∀ i, counts i (some row) = counts i (c.sys.questions.view s j))
    (hexpected : ∀ i n, phase.expected i n = (c.sys.phase s).expected i n)
    (hphase : ∀ i ∈ phase.countedQuiz, Locks c.sys s i) :
    Tallied { c with sys := sys' } := by
  have hs := h.sessions s
  refine h.questions hstep rfl (fun _ => Iff.rfl) hs.own (fun i hi => ?_) (fun i _ => ?_) hphase
  · have hsum := activeQuestions_only (c.sys.questions.view s) j row i
    rw [hsame i, Nat.add_right_cancel_iff] at hsum
    rw [hsum, hexpected]
    exact hs.locked i hi
  · intro j' row' hj
    obtain ⟨rfl, rfl⟩ := only_eq_some.1 hj
    exact hsame i

/-- **A question comes or goes** in a quiz that is locked, and the counter is moved with it. -/
theorem Tallied.moveCount [DecidableEq J] (h : Tallied c) {j : J} {row : Option (QuizQuestion Q)}
    {phase : Phase Q J} {sys' : System Q J S} {totals' : Store Q ℕ Unit S}
    (hstep : c.sys.writeQuestions s (only j row) phase = some sys') (hk : Locks c.sys s k)
    (htotals : totals' = c.totals ∨ ∃ m, totals' = c.totals.write s k m)
    (hcount : totals'.view s k = some (phase.expected k
      (activeQuestions (fun i => (only j row i).or (c.sys.questions.view s i)) k)))
    (hothers : ∀ i, i ≠ k → counts i (some row) = counts i (c.sys.questions.view s j) ∧
      ∀ n, phase.expected i n = (c.sys.phase s).expected i n)
    (hphase : ∀ i ∈ phase.countedQuiz, Locks c.sys s i) :
    Tallied { sys := sys', totals := totals' } := by
  have hs := h.sessions s
  have hfree : c.totals.Free s k := by
    obtain ⟨quiz, hquiz⟩ := hk
    refine h.free_totals fun w hw => ?_
    rw [Option.mem_def, hquiz] at hw
    cases hw
    rfl
  have hview : ∀ i, i ≠ k → totals'.view s i = c.totals.view s i := by
    intro i hik
    rcases htotals with rfl | ⟨m, rfl⟩
    · rfl
    · rw [Store.view_write_self, if_neg hik]
  refine h.questions hstep ?_ ?_ ?_ ?_ ?_ hphase
  · rcases htotals with rfl | ⟨m, rfl⟩ <;> rfl
  · intro i t m hne
    rcases htotals with rfl | ⟨n, rfl⟩
    · exact Iff.rfl
    · exact pending_write_other hfree hne
  · intro i m hp
    rcases htotals with rfl | ⟨n, rfl⟩
    · exact hs.own i m hp
    · rw [Store.pending_write] at hp
      by_cases hik : i = k
      · exact hik ▸ hk
      · rw [if_neg hik] at hp
        exact hs.own i m hp
  · intro i hi
    by_cases hik : i = k
    · subst hik
      exact hcount
    · obtain ⟨hsame, hexpected⟩ := hothers i hik
      have hsum := activeQuestions_only (c.sys.questions.view s) j row i
      rw [hsame, Nat.add_right_cancel_iff] at hsum
      rw [hview i hik, hsum, hexpected]
      exact hs.locked i hi
  · intro i hi j' row' hj
    obtain ⟨rfl, rfl⟩ := only_eq_some.1 hj
    exact (hothers i fun hik => hi (hik ▸ hk)).1

/-- The table of the runs has nothing to do with the counters. -/
theorem Tallied.running (h : Tallied c) (running : S → Option (Pipeline × Q)) :
    Tallied { c with sys := { c.sys with running := running } } := by
  refine ⟨h.exact, h.orphans, fun s => ?_⟩
  obtain ⟨hlocked, hown, hapart, hphase⟩ := h.sessions s
  exact ⟨hlocked, hown, hapart, hphase⟩

/-! ## The end of a transaction -/

/-- What another session sees after a commit counts as before, where it has the lock. -/
theorem Tallied.counts_view_commit (h : Tallied c) (hne : t ≠ s) (hk : ¬ Locks c.sys s k) (j : J) :
    counts k ((c.sys.questions.commit s).view t j) = counts k (c.sys.questions.view t j) := by
  rcases @Store.view_commit _ _ _ _ _ c.sys.questions s t hne j with ⟨-, hnew, hold⟩ | ⟨hsame, -⟩
  · rw [hnew, hold]
    exact (h.sessions s).counts_view hk j
  · rw [hsame]

omit [DecidableEq Q] [DecidableEq S] [Fintype J] in
/-- A quiz is locked by one session. -/
theorem Locks.unique {sys : System Q J S} (hs : Locks sys s k) (ht : Locks sys t k) : t = s := by
  obtain ⟨quiz, hp⟩ := hs
  obtain ⟨quiz', hp'⟩ := ht
  rw [hp] at hp'
  cases hp'
  rfl

/-- **A commit keeps the invariant**: what it makes visible is what its counters count. -/
theorem Tallied.commit (h : Tallied c) {phase : Phase Q J} (hold : (c.sys.phase s).Plain)
    (hcounted : phase.countedQuiz = none) :
    Tallied
      { sys := { c.sys.enter s phase with
          quizzes := c.sys.quizzes.commit s
          questions := c.sys.questions.commit s }
        totals := c.totals.commit s } where
  exact k quiz hview := by
    change c.sys.quizzes.view s k = some quiz at hview
    change c.totals.view s k = some (activeQuestions (c.sys.questions.view s) k)
    by_cases hk : Locks c.sys s k
    · have hcount := (h.sessions s).locked k hk
      rwa [hold k] at hcount
    · exact h.view_totals_of_free hk hview
  orphans k hview := by
    change c.sys.quizzes.view s k = none at hview
    change activeQuestions (c.sys.questions.view s) k = 0
    have hk : ¬ Locks c.sys s k := by
      rintro ⟨quiz, hp⟩
      rw [Store.view_of_pending hp] at hview
      cases hview
    have hrow : c.sys.quizzes.rows k = none :=
      (Store.view_of_not_own fun quiz hp => hk ⟨quiz, hp⟩).symm.trans hview
    rw [(h.sessions s).activeQuestions_view hk, h.orphans k hrow]
  sessions t := by
    by_cases hts : t = s
    · subst hts
      refine ⟨fun k ⟨quiz, hp⟩ => ?_, fun k n hp => ?_, fun k _ j row hp => ?_, fun k hk => ?_⟩
      · exact absurd rfl (Store.pending_commit.1 hp).2
      · exact absurd rfl (Store.pending_commit.1 hp).2
      · exact absurd rfl (Store.pending_commit.1 hp).2
      · simp [hcounted] at hk
    · have ht := h.sessions t
      refine ⟨fun k hk => ?_, fun k n hp => ?_, fun k hk j row hp => ?_, fun k hk => ?_⟩
      · obtain ⟨quiz, hp⟩ := hk
        have hlock : Locks c.sys t k := ⟨quiz, (Store.pending_commit.1 hp).1⟩
        have hother : ¬ Locks c.sys s k := fun hs => hts (hs.unique hlock)
        have htotal : (c.totals.commit s).view t k = c.totals.view t k := by
          rcases @Store.view_commit _ _ _ _ _ c.totals s t hts k with ⟨⟨n, hn⟩, -⟩ | ⟨hsame, -⟩
          · exact absurd ((h.sessions s).own k n hn) hother
          · exact hsame
        have hactive : activeQuestions ((c.sys.questions.commit s).view t) k =
            activeQuestions (c.sys.questions.view t) k :=
          Finset.sum_congr rfl fun j _ => h.counts_view_commit hts hother j
        rw [htotal, hactive]
        simp only [System.phase_enter_other hts]
        exact ht.locked k hlock
      · obtain ⟨hp, -⟩ := Store.pending_commit.1 hp
        obtain ⟨quiz, hquiz⟩ := ht.own k n hp
        exact ⟨quiz, Store.pending_commit.2 ⟨hquiz, hts⟩⟩
      · obtain ⟨hp, -⟩ := Store.pending_commit.1 hp
        have hlock : ¬ Locks c.sys t k := by
          rintro ⟨quiz, hquiz⟩
          exact hk ⟨quiz, Store.pending_commit.2 ⟨hquiz, hts⟩⟩
        rw [ht.apart k hlock j row hp, Store.rows_commit, Store.view_of_other hp hts]
      · simp only [System.phase_enter_other hts] at hk
        obtain ⟨quiz, hquiz⟩ := ht.phase k hk
        exact ⟨quiz, Store.pending_commit.2 ⟨hquiz, hts⟩⟩

/-- **So does a rollback.** -/
theorem Tallied.rollback (h : Tallied c) {phase : Phase Q J} (hcounted : phase.countedQuiz = none)
    (running : S → Option (Pipeline × Q)) :
    Tallied
      { sys := { c.sys.enter s phase with
          quizzes := c.sys.quizzes.rollback s
          questions := c.sys.questions.rollback s
          running := running }
        totals := c.totals.rollback s } := by
  refine h.statement (s := s) System.aside_rollback rfl
    (fun hne => by simp [Store.pending_rollback, hne])
    ⟨fun k ⟨quiz, hp⟩ => ?_, fun k n hp => ?_, fun k _ j row hp => ?_, fun k hk => ?_⟩
  · exact absurd rfl (Store.pending_rollback.1 hp).2
  · exact absurd rfl (Store.pending_rollback.1 hp).2
  · exact absurd rfl (Store.pending_rollback.1 hp).2
  · simp [hcounted] at hk

end

/-! ## Events -/

section

variable [DecidableEq Q]

theorem plain_of_countedQuiz {phase : Phase Q J}
    (h : phase.countedQuiz = none ∨ ∃ k, phase = .editing k) : phase.Plain := by
  intro k n
  rcases h with h | ⟨k', rfl⟩
  · cases phase with
    | replacing _ _ | inserting _ _ _ => simp [Phase.countedQuiz] at h
    | _ => rfl
  · rfl

theorem Phase.plain_of_commits {phase : Phase Q J} (h : phase.commits = true)
    (hwhole : phase.stopped = false) : phase.Plain := by
  refine plain_of_countedQuiz ?_
  cases phase with
  | editing k => exact Or.inr ⟨k, rfl⟩
  | done | hinting _ _ _ => exact Or.inl rfl
  | inserting _ _ _ =>
    rw [show Phase.stopped _ = true from h] at hwhole
    cases hwhole
  | _ => simp [Phase.commits, Phase.stopped] at h

omit [DecidableEq Q] in
theorem Phase.countedQuiz_committed (phase : Phase Q J) : phase.committed.countedQuiz = none := by
  cases phase with
  | inserting k questions replaces => cases replaces <;> rfl
  | _ => rfl

omit [DecidableEq Q] in
theorem Phase.countedQuiz_rolledBack (phase : Phase Q J) :
    phase.rolledBack.countedQuiz = none := by
  cases phase with
  | inserting k questions replaces => cases replaces <;> rfl
  | _ => rfl

/-- An edit other than a deletion leaves a question in its quiz, and active or not. -/
theorem counts_edit (k : Q) (question : QuizQuestion Q) {e : Edit Q} (he : e ≠ .softDelete) :
    counts k (some (some (e.apply question))) = counts k (some (some question)) := by
  cases e with
  | softDelete => exact absurd rfl he
  | update _ | reorder _ | clearHints => rfl

end

section

variable [Fintype Q] [DecidableEq Q] [Fintype J] [DecidableEq J] [Fintype S] [DecidableEq S]
  {c c' : Counted Q J S} {sys' : System Q J S} {s : S} {k : Q}

omit [DecidableEq J] [Fintype S] in
/-- A quiz that is read is locked, from a phase in which nothing is counted. -/
theorem Tallied.lockOne (h : Tallied c) {quiz new : Quiz Q} {phase : Phase Q J}
    (hview : c.sys.quizzes.view s k = some quiz)
    (hstep : c.sys.writeQuizzes s (only k new) phase = some sys')
    (hold : (c.sys.phase s).countedQuiz = none)
    (hnew : phase.countedQuiz = none ∨ phase = .editing k) : Tallied { c with sys := sys' } := by
  have honly : ∀ {i}, only k new i ≠ none ↔ i = k := by simp [only]
  refine h.lock (System.wroteQuizzes hstep) (fun i hi => ?_)
    (plain_of_countedQuiz (Or.inl hold))
    (plain_of_countedQuiz (hnew.imp id fun hphase => ⟨k, hphase⟩)) (fun i hi => ?_)
  · exact honly.1 hi ▸ ⟨quiz, hview⟩
  · rcases hnew with hnone | rfl
    · simp [hnone] at hi
    · cases hi
      exact Or.inl (honly.2 rfl)

omit [DecidableEq J] [Fintype S] in
/-- Quizzes that are read are locked. -/
theorem Tallied.lockAll (h : Tallied c) {f : Q → Option (Quiz Q)} {phase : Phase Q J}
    (hstep : c.sys.writeQuizzes s f phase = some sys')
    (hview : ∀ i, c.sys.quizzes.view s i = none → f i = none)
    (hold : (c.sys.phase s).countedQuiz = none) (hnew : phase.countedQuiz = none) :
    Tallied { c with sys := sys' } := by
  refine h.lock (System.wroteQuizzes hstep) (fun i hi => ?_)
    (plain_of_countedQuiz (Or.inl hold)) (plain_of_countedQuiz (Or.inl hnew)) (fun i hi => ?_)
  · exact Option.ne_none_iff_exists'.1 fun hnone => hi (hview i hnone)
  · simp [hnew] at hi

omit [DecidableEq Q] [Fintype J] [DecidableEq J] [Fintype S] in
theorem System.free_of_writeQuizzes {sys : System Q J S} {f : Q → Option (Quiz Q)}
    {phase : Phase Q J} (hstep : sys.writeQuizzes s f phase = some sys') {i : Q}
    (hi : f i ≠ none) : sys.quizzes.Free s i := by
  unfold System.writeQuizzes at hstep
  split_ifs at hstep with hfree
  exact hfree i hi

/-! ### Drafts -/

theorem Tallied.generate (h : Tallied c) {n version : ℕ} {questions : List (Option J × Content)}
    (hstep : c.sys.step (.generate s k n version questions) = some sys') :
    Tallied { sys := sys', totals := c.totals.write s k questions.length } := by
  rw [System.step] at hstep
  split at hstep
  · rename_i hphase
    split_ifs at hstep with hnew
    have hlock : ¬ Locks c.sys s k := by
      rintro ⟨quiz, hp⟩
      simp [hnew.2] at hp
    have hzero : activeQuestions (c.sys.questions.view s) k = 0 := by
      rw [(h.sessions s).activeQuestions_view hlock, h.orphans k hnew.1]
    refine h.reset (System.wroteQuizzes hstep) (by simp [Store.Free, hnew.2]) ?_ ?_ ?_ ?_
    · rw [hphase]
      exact fun _ _ => rfl
    · simp [Phase.expected, hzero]
    · intro i m hik
      simp [Phase.expected, Ne.symm hik]
    · simp [Phase.countedQuiz]
  · cases hstep

theorem Tallied.replaceQuiz (h : Tallied c) {version : Option ℕ}
    {questions : List (Option J × Content)}
    (hstep : c.sys.step (.replaceQuiz s version questions) = some sys') :
    Tallied { sys := sys', totals := c.totalsAfter (.replaceQuiz s version questions) } := by
  rw [System.step] at hstep
  split at hstep
  · rename_i k hphase
    simp only [Counted.totalsAfter, hphase]
    obtain ⟨quiz, hview, hstep⟩ := Option.bind_eq_some_iff.1 hstep
    refine h.reset (System.wroteQuizzes hstep)
      (System.free_of_writeQuizzes hstep (by simp [only])) ?_ ?_ ?_ ?_
    · rw [hphase]
      exact fun _ _ => rfl
    · simp [Phase.expected]
    · intro i m hik
      simp [Phase.expected, Ne.symm hik]
    · simp [Phase.countedQuiz]
  · cases hstep

omit [Fintype Q] [Fintype J] [DecidableEq J] [Fintype S] in
/-- After a deletion a row counts for the quiz that is replaced no more, and for others as it
did. -/
theorem counts_deleted (sys : System Q J S) (s : S) (j : J) (i k : Q) :
    counts i ((((sys.question s j).filter fun question => question.quizId = k).map
      fun _ => none).or (sys.questions.view s j)) =
      if i = k then 0 else counts i (sys.questions.view s j) := by
  unfold System.question
  rcases sys.questions.view s j with _ | _ | question
  · simp [counts]
  · simp [counts]
  · by_cases hk : question.quizId = k
    · by_cases hik : i = k <;> simp [hk, hik, counts, Option.filter]
      exact fun h => absurd h.symm hik
    · by_cases hik : i = k <;> simp [hk, hik, counts, Option.filter]

theorem Tallied.deleteQuestions (h : Tallied c)
    (hstep : c.sys.step (.deleteQuestions s) = some sys') : Tallied { c with sys := sys' } := by
  rw [System.step] at hstep
  split at hstep
  · rename_i k questions hphase
    have hs := h.sessions s
    have hlock : Locks c.sys s k := hs.phase k (by rw [hphase]; rfl)
    refine h.questions hstep rfl (fun _ => Iff.rfl) hs.own (fun i hi => ?_) (fun i hi => ?_) ?_
    · have hcount := hs.locked i hi
      rw [hphase] at hcount
      simp only [activeQuestions, counts_deleted, Phase.expected] at hcount ⊢
      by_cases hik : i = k
      · subst hik
        simpa using hcount
      · simpa only [if_neg hik, if_neg (Ne.symm hik)] using hcount
    · intro j row hj
      have hik : i ≠ k := fun hik => hi (hik ▸ hlock)
      have hsame := counts_deleted c.sys s j i k
      rwa [hj, Option.some_or, if_neg hik] at hsame
    · intro i hi
      cases hi
      exact hlock
  · cases hstep

omit [Fintype Q] [Fintype J] [DecidableEq J] [Fintype S] in
theorem counts_of_no_question {sys : System Q J S} {j : J} (h : sys.question s j = none) (i : Q) :
    counts i (sys.questions.view s j) = 0 := by
  rcases hview : sys.questions.view s j with _ | _ | question
  · rfl
  · rfl
  · rw [question_eq_some.2 hview] at h
    cases h

omit [Fintype Q] [Fintype S] in
/-- A new question is inserted into the quiz that is locked. -/
theorem Tallied.insert (h : Tallied c) {j : J} {question : QuizQuestion Q} {phase : Phase Q J}
    {totals' : Store Q ℕ Unit S} (hk : Locks c.sys s k) (hquiz : question.quizId = k)
    (hactive : question.isActive = true) (hfree : ∀ i, counts i (c.sys.questions.view s j) = 0)
    (hstep : c.sys.writeQuestions s (only j (some question)) phase = some sys')
    (htotals : totals' = c.totals ∨ ∃ m, totals' = c.totals.write s k m)
    (hcount : totals'.view s k =
      some (phase.expected k (activeQuestions (c.sys.questions.view s) k + 1)))
    (hothers : ∀ i n, i ≠ k → phase.expected i n = (c.sys.phase s).expected i n)
    (hphase : ∀ i ∈ phase.countedQuiz, i = k) :
    Tallied { sys := sys', totals := totals' } := by
  have hone : ∀ i, counts i (some (some question)) = if i = k then 1 else 0 := by
    intro i
    simp [counts, hquiz, hactive, eq_comm]
  refine h.moveCount hstep hk htotals ?_ (fun i hik => ⟨?_, fun n => hothers i n hik⟩) ?_
  · have hsum := activeQuestions_only (c.sys.questions.view s) j (some question) k
    rw [hfree, hone, if_pos rfl, add_zero] at hsum
    rw [hcount, hsum]
  · rw [hone, if_neg hik, hfree]
  · intro i hi
    exact hphase i hi ▸ hk

theorem Tallied.insertQuestion (h : Tallied c)
    (hstep : c.sys.step (.insertQuestion s) = some sys') : Tallied { c with sys := sys' } := by
  rw [System.step] at hstep
  split at hstep
  · rename_i k hphase
    cases hstep
    refine h.enter (fun i n => ?_) (by simp [Phase.countedQuiz])
    rw [hphase]
    simp [Phase.expected]
  · rename_i k j content questions replaces hphase
    split_ifs at hstep with hread
    have hlock : Locks c.sys s k := (h.sessions s).phase k (by rw [hphase]; rfl)
    refine h.insert hlock rfl rfl (counts_of_no_question hread) hstep (Or.inl rfl) ?_ ?_ ?_
    · rw [(h.sessions s).locked k hlock, hphase]
      simp only [Phase.expected, if_pos, List.length_cons, Option.some_inj]
      omega
    · intro i n hik
      simp [hphase, Phase.expected, Ne.symm hik]
    · simp [Phase.countedQuiz]
  · cases hstep

/-! ### The edits of the mentor -/

/-- A question that is created is counted. -/
theorem Tallied.createQuestion (h : Tallied c) {j : J} {row : QuizQuestion Q}
    (hstep : c.sys.step (.createQuestion s j row) = some sys') :
    Tallied { sys := sys', totals := c.totalsAfter (.createQuestion s j row) } := by
  rw [System.step] at hstep
  split at hstep
  · rename_i k hphase
    split_ifs at hstep with hnew
    have hlock : Locks c.sys s k := (h.sessions s).phase k (by rw [hphase]; rfl)
    have hcount := (h.sessions s).locked k hlock
    have hview : c.sys.questions.view s j = none := by
      rw [Store.view_of_not_own (by simp [hnew.2]), hnew.1]
    simp only [Counted.totalsAfter, hphase]
    refine h.insert hlock rfl rfl (fun i => by rw [hview]; rfl) hstep (Or.inr ⟨_, rfl⟩) ?_ ?_ ?_
    · simp [incrementTotalQuestions, hcount, hphase, Phase.expected, Store.view_write_self]
    · intro i n _
      rw [hphase]
    · simp [Phase.countedQuiz]
  · cases hstep

/-- **An edit keeps the invariant**: a deletion is counted, and nothing else has to be. -/
theorem Tallied.edit (h : Tallied c) {j : J} {e : Edit Q}
    (hstep : c.sys.step (.edit s j e) = some sys') :
    Tallied { sys := sys', totals := c.totalsAfter (.edit s j e) } := by
  rw [System.step] at hstep
  split at hstep
  · rename_i k hphase
    obtain ⟨question, hread, hstep⟩ := Option.bind_eq_some_iff.1 hstep
    split_ifs at hstep with hquestion
    obtain ⟨hquiz, hactive⟩ := hquestion
    have hlock : Locks c.sys s k := (h.sessions s).phase k (by rw [hphase]; rfl)
    have hview := question_eq_some.1 hread
    by_cases he : e = .softDelete
    · subst he
      have hcount := (h.sessions s).locked k hlock
      -- the question that is deleted was one of those that are counted
      have hone : counts k (c.sys.questions.view s j) = 1 := by
        simp [hview, counts, hquiz, hactive]
      have hzero : ∀ i, counts i (some (some (Edit.apply question .softDelete))) = 0 := by
        simp [counts, Edit.apply]
      have hsum := activeQuestions_only (c.sys.questions.view s) j
        (some (Edit.apply question .softDelete)) k
      rw [hone, hzero, add_zero] at hsum
      simp only [Counted.totalsAfter, hphase]
      refine h.moveCount hstep hlock (Or.inr ⟨_, rfl⟩) ?_ (fun i hik => ⟨?_, fun n => ?_⟩) ?_
      · simp only [decrementTotalQuestions, Store.view_write_self, hcount, hphase, Phase.expected,
          Option.getD_some, if_true, ← hsum, Nat.add_sub_cancel]
      · simp [hview, counts, Edit.apply, hquiz, Ne.symm hik]
      · rw [hphase]
      · intro i hi
        cases hi
        exact hlock
    · have htotals : c.totalsAfter (.edit s j e) = c.totals := by
        cases e with
        | softDelete => exact absurd rfl he
        | update _ | reorder _ | clearHints => rfl
      rw [htotals]
      refine h.keepCount hstep (fun i => ?_) (fun i n => by rw [hphase]) ?_
      · rw [hview, counts_edit i question he]
      · intro i hi
        cases hi
        exact hlock
  · cases hstep

/-! ### Hints and patches -/

/-- Hints are written to a question whose quiz has been locked for them. -/
theorem Tallied.writeHints (h : Tallied c) {j : J} {hint1 hint2 hint3 : String}
    (hstep : c.sys.step (.writeHints s j hint1 hint2 hint3) = some sys') :
    Tallied { c with sys := sys' } := by
  rw [System.step] at hstep
  split at hstep
  · rename_i k loaded written hphase
    split_ifs at hstep
    obtain ⟨question, hread, hstep⟩ := Option.bind_eq_some_iff.1 hstep
    obtain ⟨quiz, hquiz, hstep⟩ := Option.bind_eq_some_iff.1 hstep
    split_ifs at hstep
    obtain ⟨locked, hlocked, hstep⟩ := Option.bind_eq_some_iff.1 hstep
    have hwrote := System.wroteQuizzes hlocked
    have hnext : Tallied { c with sys := locked } :=
      h.lockOne hquiz hlocked (by rw [hphase]; rfl) (Or.inl rfl)
    refine hnext.keepCount hstep (fun i => ?_) (fun i n => ?_) (by simp [Phase.countedQuiz])
    · simp only [hwrote.questions, question_eq_some.1 hread]
      rfl
    · simp only [hwrote.phase]
      rfl
  · cases hstep

/-- A patch leaves a question in its quiz, and active. -/
theorem Tallied.flushPatch (h : Tallied c) (hstep : c.sys.step (.flushPatch s) = some sys') :
    Tallied { c with sys := sys' } := by
  rw [System.step] at hstep
  split at hstep
  · rename_i k hphase
    cases hstep
    refine h.enter (fun i n => ?_) (by simp [Phase.countedQuiz])
    rw [hphase]
    rfl
  · rename_i k j loaded patch dirty hphase
    obtain ⟨question, hread, hstep⟩ := Option.bind_eq_some_iff.1 hstep
    refine h.keepCount hstep (fun i => ?_) (fun i n => ?_) (by simp [Phase.countedQuiz])
    · rw [question_eq_some.1 hread]
      rfl
    · rw [hphase]
      rfl
  · cases hstep

/-! ### All events -/

omit [Fintype Q] [DecidableEq J] [Fintype S] in
/-- A session goes on from one phase in which nothing is counted to another. -/
theorem Tallied.pass (h : Tallied c) {phase : Phase Q J}
    (hold : (c.sys.phase s).countedQuiz = none) (hnew : phase.countedQuiz = none) :
    Tallied { c with sys := c.sys.enter s phase } := by
  refine h.enter (fun k n => ?_) (by simp [hnew])
  rw [plain_of_countedQuiz (Or.inl hnew), plain_of_countedQuiz (Or.inl hold)]

omit [Fintype Q] [DecidableEq J] [Fintype S] in
/-- A run is started. -/
theorem Tallied.start (h : Tallied c) {pipeline : Pipeline} {phase : Phase Q J}
    (hold : (c.sys.phase s).countedQuiz = none) (hnew : phase.countedQuiz = none) :
    Tallied { c with sys := c.sys.start s pipeline k phase } :=
  (h.pass hold hnew).running _

/-- The session that commits. -/
def Event.commits? : Event Q J S → Option S
  | .commit s => some s
  | _ => none

/-- No creation or replacement of a draft is committed after `UUID` has raised on a
`question_id`. -/
def Counted.CommitsWhole (c : Counted Q J S) (e : Event Q J S) : Prop :=
  ∀ s ∈ e.commits?, (c.sys.phase s).stopped = false

instance (c : Counted Q J S) (e : Event Q J S) : Decidable (c.CommitsWhole e) :=
  inferInstanceAs (Decidable (∀ s ∈ e.commits?, (c.sys.phase s).stopped = false))

omit [DecidableEq Q] [Fintype Q] [Fintype J] [DecidableEq J] [Fintype S] [DecidableEq S] in
theorem Phase.countedQuiz_of_quiet {phase : Phase Q J} (h : phase.quiet = true) :
    phase.countedQuiz = none := by
  cases phase with
  | editing _ | replacing _ _ | inserting _ _ _ => cases h
  | _ => rfl

omit [DecidableEq J] [Fintype S] in
/-- A statement that leaves the questions alone. -/
theorem Tallied.quiet (h : Tallied c) (hquiet : Quiet c.sys s sys') :
    Tallied { c with sys := sys' } := by
  cases hquiet with
  | wrote hwrite hread hold hnew hopen =>
    exact h.lockAll hwrite hread (Phase.countedQuiz_of_quiet hold) (Phase.countedQuiz_of_quiet hnew)
  | went hold hnew hopen =>
    exact h.pass (Phase.countedQuiz_of_quiet hold) (Phase.countedQuiz_of_quiet hnew)
  | started hidle hphase =>
    refine h.start (by rw [hidle]; rfl) ?_
    rcases hphase with rfl | rfl | rfl <;> rfl

/-- The mentor locks the quiz whose questions are to be edited. -/
theorem Tallied.openEdit (h : Tallied c) (hstep : c.sys.step (.openEdit s k) = some sys') :
    Tallied { c with sys := sys' } := by
  rw [System.step] at hstep
  split at hstep
  · rename_i hphase
    obtain ⟨quiz, hview, hstep⟩ := Option.bind_eq_some_iff.1 hstep
    split_ifs at hstep
    exact h.lockOne hview hstep (by rw [hphase]; rfl) (Or.inr rfl)
  · cases hstep

/-- A hint run loads the questions. -/
theorem Tallied.loadHints (h : Tallied c) {filterIds : Option (List J)}
    (hstep : c.sys.step (.loadHints s filterIds) = some sys') :
    Tallied { c with sys := sys' } := by
  rw [System.step] at hstep
  split at hstep
  · rename_i hphase
    obtain ⟨quiz, -, hstep⟩ := Option.bind_eq_some_iff.1 hstep
    split_ifs at hstep
    cases hstep
    exact h.pass (by rw [hphase]; rfl) rfl
  · cases hstep

/-- **The step lemma**: what a session does keeps the counts exact, if it commits no half of a
draft. -/
theorem Tallied.step (h : Tallied c) {e : Event Q J S} (hwhole : c.CommitsWhole e)
    (hcounted : c.step e = some c') :
    Tallied c' := by
  obtain ⟨sys', hstep, rfl⟩ := Option.map_eq_some_iff.1 hcounted
  cases e with
  | lockNode | lockTarget | checkHints | archiveOthers | activate | unpublish | discard
  | discardDrafts | startHints | startRegenerate | startRework | readPatched | lockPatched =>
    exact h.quiet (quiet_of_step rfl hstep)
  | openEdit => exact h.openEdit hstep
  | edit => exact h.edit hstep
  | createQuestion => exact h.createQuestion hstep
  | loadHints => exact h.loadHints hstep
  | writeHints => exact h.writeHints hstep
  | replaceQuiz => exact h.replaceQuiz hstep
  | deleteQuestions => exact h.deleteQuestions hstep
  | generate => exact h.generate hstep
  | insertQuestion => exact h.insertQuestion hstep
  | flushPatch => exact h.flushPatch hstep
  | commit s =>
    rw [System.step] at hstep
    split_ifs at hstep with hcommits
    cases hstep
    exact h.commit (Phase.plain_of_commits hcommits (hwhole s rfl)) (Phase.countedQuiz_committed _)
  | rollback s =>
    cases hstep
    exact h.rollback (Phase.countedQuiz_rolledBack _) _
  | settle s =>
    cases hstep
    exact h.running _
  | resume s =>
    obtain ⟨run, -, hstep⟩ := Option.bind_eq_some_iff.1 hstep
    split_ifs at hstep
    cases hstep
    exact h.running _
  | finish s =>
    cases hstep
    exact h.rollback rfl _

/-! ## Runs -/

/-- The tables before any session has begun: the counts are exact, and every question that is
active belongs to a quiz. -/
structure Counted.Initial (c : Counted Q J S) : Prop where
  fresh : c.sys.Fresh
  totals : ∀ k, c.totals.pending k = none
  exact : ∀ k quiz, c.sys.quizzes.rows k = some quiz →
    c.totals.rows k = some (activeQuestions c.sys.questions.rows k)
  orphans : ∀ k, c.sys.quizzes.rows k = none → activeQuestions c.sys.questions.rows k = 0

omit [Fintype Q] [DecidableEq J] [Fintype S] in
theorem Counted.Initial.tallied (h : c.Initial) : Tallied c where
  exact := h.exact
  orphans := h.orphans
  sessions s := by
    refine ⟨fun k hk => ?_, fun k n hp => ?_, fun k _ j row hp => ?_, fun k hk => ?_⟩
    · obtain ⟨quiz, hp⟩ := hk
      rw [h.fresh.quizzes] at hp
      cases hp
    · rw [h.totals] at hp
      cases hp
    · rw [h.fresh.questions] at hp
      cases hp
    · rw [h.fresh.idle] at hk
      cases hk

theorem tallied_of_reachable
    (h : Runs.Reachable Counted.step Counted.CommitsWhole Counted.Initial c) : Tallied c :=
  h.invariant (fun _ => Counted.Initial.tallied) fun _ _ _ hinv hwhole hstep =>
    hinv.step hwhole hstep

/-- **The question count is exact**: in every state that is committed, whatever the sessions have
done and in whatever order, `total_questions` is the number of active questions of the quiz, if no
draft is committed whose storing `UUID` has stopped. -/
theorem total_questions_exact
    (h : Runs.Reachable Counted.step Counted.CommitsWhole Counted.Initial c) {quiz : Quiz Q}
    (hquiz : c.sys.quizzes.rows k = some quiz) :
    c.totals.rows k = some (activeQuestions c.sys.questions.rows k) :=
  (tallied_of_reachable h).exact k quiz hquiz

end

/-! ## A run -/

/-- No quizzes, no counts. -/
def Counted.empty : Counted Q J S := ⟨System.empty, Store.empty⟩

theorem Counted.empty_initial [Fintype J] [DecidableEq Q] :
    (Counted.empty : Counted Q J S).Initial where
  fresh := System.empty_fresh
  totals _ := rfl
  exact _ _ hquiz := by cases hquiz
  orphans _ _ := Finset.sum_eq_zero fun _ _ => rfl

/-- A question is created between the start of a regeneration and its end. -/
def createdMeanwhile : List (Event Unit (Fin 3) Bool) :=
  let content : Content := { questionText := "?", optionA := "a", optionB := "b" }
  [.generate true () 0 0 [(some 0, content)], .insertQuestion true, .insertQuestion true,
    .commit true,
    .startRegenerate true (), .openEdit false (),
    .createQuestion false 1 { quizId := (), content := content }, .commit false,
    .replaceQuiz true none [(some 2, content)], .deleteQuestions true, .insertQuestion true,
    .insertQuestion true, .commit true]

/-- The replacement counts its own questions and has deleted the one that was created. -/
theorem replaced_after_created :
    ∃ c : Counted Unit (Fin 3) Bool,
      Runs.Reachable Counted.step Counted.CommitsWhole Counted.Initial c ∧
        c.totals.rows () = some 1 ∧
        c.totals.rows () = some (activeQuestions c.sys.questions.rows ()) := by
  have hrun : Runs.run (fun c e => if c.CommitsWhole e then c.step e else none)
      (Counted.empty : Counted Unit (Fin 3) Bool) createdMeanwhile = some _ := rfl
  have hreached : Runs.Reachable Counted.step Counted.CommitsWhole Counted.Initial _ :=
    Runs.reachable_of_checked Counted.empty_initial hrun
  exact ⟨_, hreached, rfl, total_questions_exact hreached rfl⟩

/-- A replacement is stopped at an id, and its run fails. -/
def stoppedReplacement : List (Event Unit (Fin 3) Bool) :=
  let content : Content := { questionText := "?", optionA := "a", optionB := "b" }
  [.generate true () 0 0 [(some 0, content)], .insertQuestion true, .insertQuestion true,
    .commit true, .startRegenerate true (), .replaceQuiz true none [(none, content)],
    .deleteQuestions true, .commit true]

/-- **A replacement that is stopped is counted and has no question.** -/
theorem stopped_replacement_miscounts :
    ∃ (c : Counted Unit (Fin 3) Bool) (quiz : Quiz Unit),
      Runs.Reachable Counted.step (fun _ _ => True) Counted.Initial c ∧
        c.sys.quizzes.rows () = some quiz ∧ c.totals.rows () = some 1 ∧
        activeQuestions c.sys.questions.rows () = 0 := by
  have hrun : Runs.run Counted.step (Counted.empty : Counted Unit (Fin 3) Bool)
      stoppedReplacement = some _ := rfl
  exact ⟨_, _, Runs.reachable_of_run Counted.empty_initial hrun, rfl, rfl, rfl⟩

end StudyAgent.Lifecycle
