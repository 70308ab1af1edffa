import StudyAgent.Progress.AttemptOrder

/-!
# The life of an attempt

The answers and the submission of an attempt are written by requests that have seen it in progress
a while ago, and neither asks again.

Main results:

* `Orderly.step` — what one statement keeps, if what it relies on is still so.
* `attempt_lifecycle` — **one attempt in progress, no change after its end, and a submission
  counted once.**
-/

namespace StudyAgent.Progress.AttemptRequests

open ReadCommitted

variable {A κ S : Type}

/-! ## Timely statements -/

section

variable [DecidableEq S]

/-- An attempt is submitted, and its answers are committed, while it is still in progress; and the
count that was read is still the count when a submission is counted. -/
def System.Timely (sys : System A κ S) : Event A κ S → Prop
  | .markSubmitted s => ∀ a ∈ (sys.phase s).attempt, sys.status s a = some .inProgress
  | .writeProgress s _ =>
    ∀ loaded ∈ (sys.phase s).progressRead,
      attemptCount (sys.progress.reread s () loaded) = attemptCount (sys.progress.rows ())
  | .commit s =>
    ∀ a ∈ (sys.phase s).answered,
      (sys.attempts.rows a).map QuizAttempt.status = some .inProgress
  | _ => True

instance (sys : System A κ S) (e : Event A κ S) : Decidable (sys.Timely e) := by
  cases e <;> dsimp only [System.Timely] <;> infer_instance

end

/-! ## Events -/

section

variable [Fintype A] [DecidableEq A] [DecidableEq κ] [DecidableEq S]
  {earlier : ℕ} {sys sys' : System A κ S} {s : S}

theorem Orderly.readPublishedQuiz (h : Orderly earlier sys)
    (hstep : sys.step (.readPublishedQuiz s) = some sys') : Keeps earlier sys sys' := by
  rw [System.step] at hstep
  split at hstep
  · rename_i hphase
    split_ifs at hstep
    cases hstep
    exact h.enter { h.ownAt hphase with }
  · cases hstep

theorem Orderly.lockQuiz (h : Orderly earlier sys) (hstep : sys.step (.lockQuiz s) = some sys') :
    Keeps earlier sys sys' := by
  rw [System.step] at hstep
  split at hstep
  · rename_i hphase
    obtain ⟨isPublished, -, hstep⟩ := Option.bind_eq_some_iff.1 hstep
    obtain ⟨quiz, hquiz, rfl⟩ := Option.map_eq_some_iff.1 hstep
    have hput := Store.Put.of_putOne hquiz
    refine h.putQuiz hput { h.ownAt hphase with quiz := fun _ => ?_ }
    exact ⟨isPublished, hput.written (only_eq_some.2 ⟨rfl, rfl⟩)⟩
  · cases hstep

theorem Orderly.createAttempt (h : Orderly earlier sys) {a : A}
    (hstep : sys.step (.createAttempt s a) = some sys') : Keeps earlier sys sys' := by
  rw [System.step] at hstep
  split at hstep
  · rename_i hphase
    split_ifs at hstep with hnone
    obtain ⟨attempts, hinsert, rfl⟩ := Option.map_eq_some_iff.1 hstep
    obtain ⟨hput, hfree⟩ := Store.Put.of_insert hinsert
    have hown := h.ownAt hphase
    refine h.putAttempts hput { hown with
      attempts := hown.wroteAttempts rfl rfl hput fun b r hb => ?_
      clean := nofun
      created := fun _ b r hr hstatus => ?_
      locks := nofun
      submitted := nofun }
    · obtain ⟨rfl, rfl⟩ := only_eq_some.1 hb
      exact Or.inr ⟨hfree, rfl, rfl⟩
    · change attempts.rows b = some r at hr
      rw [hput.rows] at hr
      refine hnone b ?_
      rw [System.status, Store.view_of_not_own (hown.clean rfl b), hr, Option.map_some, hstatus]
  · cases hstep

theorem Orderly.lockAttempt (h : Orderly earlier sys) {a : A}
    (hstep : sys.step (.lockAttempt s a) = some sys') : Keeps earlier sys sys' := by
  rw [System.step] at hstep
  split at hstep
  · rename_i hphase
    obtain ⟨attempt, hview, hstep⟩ := Option.bind_eq_some_iff.1 hstep
    split_ifs at hstep with hstatus
    obtain ⟨attempts, hattempts, rfl⟩ := Option.map_eq_some_iff.1 hstep
    have hput := Store.Put.of_putOne hattempts
    have hown := h.ownAt hphase
    obtain ⟨old, hold, holdStatus⟩ := hown.of_view rfl hview hstatus
    refine h.putAttempts hput { hown with
      attempts := hown.wroteAttempts rfl rfl hput fun b r hb => ?_
      clean := nofun
      created := fun hne => absurd rfl hne
      locks := fun b hb => ?_
      submitted := nofun }
    · obtain ⟨rfl, rfl⟩ := only_eq_some.1 hb
      exact Or.inl ⟨old, hold, holdStatus, fun hsub => by simp [hstatus] at hsub⟩
    · cases hb
      exact ⟨attempt, hput.written (only_eq_some.2 ⟨rfl, rfl⟩)⟩
  · cases hstep

theorem Orderly.patchState (h : Orderly earlier sys) {questions : List (Question κ)} {questionId : κ}
    {isVisited isFlagged wasSkipped : Option Bool} {resumeQuestionId : Option κ}
    (hstep : sys.step (.patchState s questions questionId isVisited isFlagged wasSkipped
      resumeQuestionId) = some sys') : Keeps earlier sys sys' := by
  rw [System.step] at hstep
  split at hstep
  · rename_i a hphase
    split_ifs at hstep
    obtain ⟨attempt, hview, hstep⟩ := Option.bind_eq_some_iff.1 hstep
    obtain ⟨attempts, hattempts, rfl⟩ := Option.map_eq_some_iff.1 hstep
    have hput := Store.Put.of_putOne hattempts
    have hown := h.ownAt hphase
    obtain ⟨r, hp⟩ := hown.locks a rfl
    rw [Store.view_of_pending hp] at hview
    cases hview
    refine h.putAttempts hput { hown with
      attempts := hown.wroteAttempts rfl rfl hput fun b r' hb => ?_
      clean := fun hclean => by cases hclean
      created := fun hne => absurd rfl hne
      locks := fun b hb => ?_
      submitted := fun b hb => by cases hb
      responses := fun b k r' hp' => by cases hown.responses b k r' hp' }
    · obtain ⟨rfl, rfl⟩ := only_eq_some.1 hb
      rcases hown.attempts b attempt hp with ⟨old, hold, hstatus, hsub⟩ | ⟨-, hnew, -⟩
      · exact Or.inl ⟨old, hold, hstatus, fun hr => by cases hsub hr⟩
      · cases hnew
    · cases hb
      exact ⟨_, hput.written (only_eq_some.2 ⟨rfl, rfl⟩)⟩
  · cases hstep

theorem Orderly.openResponse (h : Orderly earlier sys) {a : A}
    (hstep : sys.step (.openResponse s a) = some sys') : Keeps earlier sys sys' := by
  rw [System.step] at hstep
  split at hstep
  · rename_i hphase
    split_ifs at hstep
    cases hstep
    exact h.enter { h.ownAt hphase with clean := nofun }
  · cases hstep

theorem Orderly.answer (h : Orderly earlier sys) {questions : List (Question κ)} {questionId : κ}
    {selectedOption : CorrectOption}
    (hstep : sys.step (.answer s questions questionId selectedOption) = some sys') :
    Keeps earlier sys sys' := by
  rw [System.step] at hstep
  split at hstep
  · rename_i a hphase
    obtain ⟨upsert, -, rfl⟩ := Option.map_eq_some_iff.1 hstep
    have hown := h.ownAt hphase
    exact h.enter { hown with
      responses := fun b k r hp => absurd (hown.responses b k r hp) nofun }
  · cases hstep

theorem Orderly.openSubmit (h : Orderly earlier sys) {a : A}
    (hstep : sys.step (.openSubmit s a) = some sys') : Keeps earlier sys sys' := by
  rw [System.step] at hstep
  split at hstep
  · rename_i hphase
    split_ifs at hstep
    cases hstep
    exact h.enter { h.ownAt hphase with clean := nofun }
  · cases hstep

theorem Orderly.finalize (h : Orderly earlier sys) {questions : List (Question κ)}
    (hstep : sys.step (.finalize s questions) = some sys') : Keeps earlier sys sys' := by
  rw [System.step] at hstep
  split at hstep
  · rename_i a hphase
    cases hstep
    have hown := h.ownAt hphase
    exact h.enter { hown with
      responses := fun b k r hp => absurd (hown.responses b k r hp) nofun }
  · cases hstep

theorem Orderly.writeResponse (h : Orderly earlier sys)
    (hstep : sys.step (.writeResponse s) = some sys') : Keeps earlier sys sys' := by
  rw [System.step] at hstep
  split at hstep
  · rename_i a purpose upsert todo hphase
    obtain ⟨responses, hresponses, rfl⟩ := Option.map_eq_some_iff.1 hstep
    have hown := h.ownAt hphase
    obtain ⟨r, hput⟩ : ∃ r, sys.responses.Put s (only (a, upsert.questionId) r) responses := by
      split at hresponses
      · exact ⟨_, (Store.Put.of_insert hresponses).1⟩
      · obtain ⟨stored, -, hresponses⟩ := Option.bind_eq_some_iff.1 hresponses
        exact ⟨_, Store.Put.of_putOne hresponses⟩
    refine h.putResponses hput { hown with
      locks := fun b hb => hown.locks b (by cases purpose <;> exact hb)
      responses := fun b k r' hp => ?_ }
    rcases hput.cases hp with hnew | ⟨-, hold⟩
    · obtain ⟨hkey, -⟩ := only_eq_some.1 hnew
      cases hkey
      rfl
    · exact hown.responses b k r' hold
  · cases hstep

theorem Orderly.markSubmitted (h : Orderly earlier sys) (htimely : sys.Timely (.markSubmitted s))
    (hstep : sys.step (.markSubmitted s) = some sys') : Keeps earlier sys sys' := by
  rw [System.step] at hstep
  split at hstep
  · rename_i a questions loaded hphase
    obtain ⟨attempt, hview, hstep⟩ := Option.bind_eq_some_iff.1 hstep
    obtain ⟨attempts, hattempts, rfl⟩ := Option.map_eq_some_iff.1 hstep
    have hput := Store.Put.of_putOne hattempts
    have hown := h.ownAt hphase
    have hstatus : attempt.status = .inProgress := by
      have hread := htimely a (by rw [hphase]; rfl)
      rw [System.status, hview] at hread
      simpa using hread
    obtain ⟨old, hold, holdStatus⟩ := hown.of_view rfl hview hstatus
    refine h.putAttempts hput { hown with
      attempts := hown.wroteAttempts rfl rfl hput fun b r hb => ?_
      clean := nofun
      created := fun hne => absurd rfl hne
      locks := fun b hb => ?_
      submitted := fun b hb => ?_ }
    · obtain ⟨rfl, rfl⟩ := only_eq_some.1 hb
      exact Or.inl ⟨old, hold, holdStatus, fun _ => rfl⟩
    · cases hb
      exact ⟨_, hput.written (only_eq_some.2 ⟨rfl, rfl⟩)⟩
    · cases hb
      exact ⟨_, hput.written (only_eq_some.2 ⟨rfl, rfl⟩), rfl⟩
  · cases hstep

theorem Orderly.readProgress (h : Orderly earlier sys) (hstep : sys.step (.readProgress s) = some sys') :
    Keeps earlier sys sys' := by
  rw [System.step] at hstep
  split at hstep
  · rename_i a score hphase
    cases hstep
    exact h.enter { h.ownAt hphase with }
  · cases hstep

omit [Fintype A] [DecidableEq A] [DecidableEq κ] in
theorem count_recordSubmission {loaded row : Option (Row ℚ)} {score : ℚ} {threshold : Option ℕ} :
    (recordSubmission loaded row score threshold).quizAttemptCount = attemptCount row + 1 := by
  cases row <;> rfl

omit [Fintype A] [DecidableEq A] [DecidableEq κ] in
theorem count_flushProgress {loaded new stored : Row ℚ}
    (h : new.quizAttemptCount = loaded.quizAttemptCount + 1) :
    (flushProgress loaded new stored).quizAttemptCount = loaded.quizAttemptCount + 1 := by
  simp [flushProgress, setColumn, h]

theorem Orderly.writeProgress (h : Orderly earlier sys) {threshold : Option ℕ}
    (htimely : sys.Timely (.writeProgress s threshold))
    (hstep : sys.step (.writeProgress s threshold) = some sys') : Keeps earlier sys sys' := by
  rw [System.step] at hstep
  split at hstep
  · rename_i a score loaded hphase
    obtain ⟨progress, hprogress, rfl⟩ := Option.map_eq_some_iff.1 hstep
    have hown := h.ownAt hphase
    have hcurrent := htimely loaded (by rw [hphase]; rfl)
    obtain ⟨row, hput, hrow⟩ : ∃ row, sys.progress.Put s (only () row) progress ∧
        row.quizAttemptCount = attemptCount (sys.progress.reread s () loaded) + 1 := by
      split at hprogress
      · rename_i hread
        rw [hread]
        exact ⟨_, (Store.Put.of_insert hprogress).1, count_recordSubmission⟩
      · rename_i row hread
        obtain ⟨stored, -, hprogress⟩ := Option.bind_eq_some_iff.1 hprogress
        rw [hread]
        exact ⟨_, Store.Put.of_putOne hprogress, count_flushProgress count_recordSubmission⟩
    have hwritten := hput.written (only_eq_some.2 ⟨rfl, rfl⟩)
    refine h.putProgress hput { hown with
      progress := fun row' hp => ⟨rfl, ?_⟩
      counted := fun _ => ⟨row, hwritten⟩ }
    change progress.pending () = some (s, row') at hp
    rw [hwritten] at hp
    cases hp
    rw [hrow, hcurrent]
    exact congrArg (fun rows => attemptCount (rows ()) + 1) hput.rows.symm
  · cases hstep

theorem Orderly.archiveQuiz (h : Orderly earlier sys) (hstep : sys.step (.archiveQuiz s) = some sys') :
    Keeps earlier sys sys' := by
  rw [System.step] at hstep
  split at hstep
  · rename_i hphase
    split_ifs at hstep
    obtain ⟨quiz, hquiz, rfl⟩ := Option.map_eq_some_iff.1 hstep
    exact h.putQuiz (Store.Put.of_putOne hquiz) { h.ownAt hphase with
      clean := fun hclean => by cases hclean
      quiz := fun hholds => by cases hholds }
  · cases hstep

theorem Orderly.abandonAttempts (h : Orderly earlier sys)
    (hstep : sys.step (.abandonAttempts s) = some sys') : Keeps earlier sys sys' := by
  rw [System.step] at hstep
  split at hstep
  · rename_i hphase
    obtain ⟨attempts, hattempts, rfl⟩ := Option.map_eq_some_iff.1 hstep
    have hput := Store.Put.of_put hattempts
    have hown := h.ownAt hphase
    refine h.putAttempts hput { hown with
      attempts := hown.wroteAttempts rfl rfl hput fun a r ha => ?_
      created := fun hne => absurd rfl hne
      locks := nofun
      submitted := nofun
      clean := nofun }
    obtain ⟨attempt, hfound, rfl⟩ := Option.map_eq_some_iff.1 ha
    obtain ⟨hview, hstatus⟩ := Option.filter_eq_some_iff.1 hfound
    obtain ⟨old, hold, holdStatus⟩ := hown.of_view rfl hview (of_decide_eq_true hstatus)
    exact Or.inl ⟨old, hold, holdStatus, nofun⟩
  · cases hstep

theorem Orderly.publishQuiz (h : Orderly earlier sys) (hstep : sys.step (.publishQuiz s) = some sys') :
    Keeps earlier sys sys' := by
  rw [System.step] at hstep
  split at hstep
  · rename_i hphase
    split_ifs at hstep
    obtain ⟨quiz, hquiz, rfl⟩ := Option.map_eq_some_iff.1 hstep
    exact h.putQuiz (Store.Put.of_putOne hquiz) { h.ownAt hphase with
      clean := fun hclean => by cases hclean
      quiz := fun hholds => by cases hholds }
  · cases hstep

/-- **One statement keeps the attempts in order**, if what it relies on is still so. -/
theorem Orderly.step (h : Orderly earlier sys) {e : Event A κ S} (htimely : sys.Timely e)
    (hstep : sys.step e = some sys') : Keeps earlier sys sys' := by
  cases e with
  | readPublishedQuiz s => exact h.readPublishedQuiz hstep
  | lockQuiz s => exact h.lockQuiz hstep
  | createAttempt s a => exact h.createAttempt hstep
  | lockAttempt s a => exact h.lockAttempt hstep
  | patchState => exact h.patchState hstep
  | openResponse s a => exact h.openResponse hstep
  | answer => exact h.answer hstep
  | openSubmit s a => exact h.openSubmit hstep
  | finalize s questions => exact h.finalize hstep
  | writeResponse s => exact h.writeResponse hstep
  | markSubmitted s => exact h.markSubmitted htimely hstep
  | readProgress s => exact h.readProgress hstep
  | writeProgress s threshold => exact h.writeProgress htimely hstep
  | archiveQuiz s => exact h.archiveQuiz hstep
  | abandonAttempts s => exact h.abandonAttempts hstep
  | publishQuiz s => exact h.publishQuiz hstep
  | commit s =>
    rw [System.step] at hstep
    split_ifs at hstep with hcommits
    cases hstep
    exact h.commit hcommits htimely
  | rollback s =>
    cases hstep
    exact h.rollback

/-! ## Runs -/

/-- The requests have not begun: at most one attempt is in progress, and the submitted ones are
counted, beside those on earlier quizzes of the node. -/
structure Start (earlier : ℕ) (sys : System A κ S) : Prop where
  fresh : sys.Fresh
  one : ∀ a b, InProgress sys a → InProgress sys b → a = b
  count : attemptCount (sys.progress.rows ()) = earlier + submissions sys

omit [DecidableEq A] [DecidableEq κ] [DecidableEq S] in
theorem Start.orderly (h : Start earlier sys) : Orderly earlier sys := by
  refine ⟨h.one, h.count, fun t => ?_⟩
  rw [h.fresh.idle t]
  refine .of_none (fun a r hp => ?_) (fun k r hp => ?_) (fun k row hp => ?_)
  · simp [h.fresh.attempts a] at hp
  · simp [h.fresh.responses k] at hp
  · simp [h.fresh.progress k] at hp

theorem orderly_of_reachable
    (h : Runs.Reachable System.step System.Timely (Start earlier) sys) : Orderly earlier sys :=
  h.invariant (fun _ hs => hs.orderly) fun _ _ _ hinv htimely hstep =>
    (hinv.step htimely hstep).orderly

/-- **The life of an attempt**: in every run whose steps are timely at most one attempt is in
progress and the submitted ones are counted, and no step changes an attempt that has ended or a
response of it. -/
theorem attempt_lifecycle (h : Runs.Reachable System.step System.Timely (Start earlier) sys) :
    (∀ a b, InProgress sys a → InProgress sys b → a = b) ∧
      attemptCount (sys.progress.rows ()) = earlier + submissions sys ∧
      ∀ e sys', sys.Timely e → sys.step e = some sys' →
        ∀ a r, sys.attempts.rows a = some r → r.status ≠ .inProgress →
          sys'.attempts.rows a = some r ∧
            ∀ k, sys'.responses.rows (a, k) = sys.responses.rows (a, k) := by
  have horderly := orderly_of_reachable h
  refine ⟨horderly.one, horderly.count, fun e sys' htimely hstep a r hr hended => ?_⟩
  have hkeeps := horderly.step htimely hstep
  exact ⟨hkeeps.attempts a r hr hended, hkeeps.responses a r hr hended⟩

end

/-! ## Two requests -/

/-- A quiz is published, and nobody has tried it. -/
def published : System A κ S where
  quiz := { Store.empty with rows := fun _ => some true }
  attempts := Store.empty
  responses := Store.empty
  progress := Store.empty
  phase := fun _ => .idle

theorem published_start [Fintype A] : Start 0 (published : System A κ S) := by
  refine ⟨⟨fun _ => rfl, fun _ => rfl, fun _ => rfl, fun _ => rfl, fun _ => rfl⟩, ?_, ?_⟩
  · rintro a b ⟨r, hr, -⟩
    cases hr
  · rw [Nat.zero_add]
    exact (Finset.card_eq_zero.2 (Finset.filter_eq_empty_iff.2 fun a _ => nofun)).symm

/-- An attempt is started. -/
def starting : List (Event Unit Unit Bool) :=
  [.readPublishedQuiz true, .lockQuiz true, .createAttempt true (), .commit true]

/-- A request submits what it has seen in progress. -/
def submitting (s : Bool) : List (Event Unit Unit Bool) :=
  [.finalize s [], .markSubmitted s, .readProgress s, .writeProgress s none]

/-- An attempt is started and submitted. -/
theorem submitted_once :
    ∃ sys : System Unit Unit Bool, Runs.Reachable System.step System.Timely (Start 0) sys ∧
      attemptCount (sys.progress.rows ()) = 1 ∧
      attemptCount (sys.progress.rows ()) = 0 + submissions sys := by
  have hrun : Runs.run (fun s e => if System.Timely s e then System.step s e else none)
      (published : System Unit Unit Bool)
      (starting ++ [Event.openSubmit true ()] ++ submitting true ++ [Event.commit true]) =
        some _ := rfl
  have hreached : Runs.Reachable System.step System.Timely (Start 0) _ :=
    Runs.reachable_of_checked published_start hrun
  exact ⟨_, hreached, rfl, (attempt_lifecycle hreached).2.1⟩

/-- An attempt that has been abandoned is submitted by a request that has seen it in progress, and
an attempt that is submitted by two requests is counted twice. -/
theorem abandoned_submitted :
    (∃ sys sys' : System Unit Unit Bool,
      Runs.Reachable System.step (fun _ _ => True) (Start 0) sys ∧ sys.step (.commit true) = some sys' ∧
        (sys.attempts.rows ()).map QuizAttempt.status = some .abandoned ∧
        (sys'.attempts.rows ()).map QuizAttempt.status = some .submitted) ∧
    ∃ sys : System Unit Unit Bool,
      Runs.Reachable System.step (fun _ _ => True) (Start 0) sys ∧
        attemptCount (sys.progress.rows ()) = 2 ∧ submissions sys = 1 := by
  have hrun : Runs.run System.step (published : System Unit Unit Bool)
      (starting ++ [Event.openSubmit true (), .archiveQuiz false, .abandonAttempts false,
        .commit false] ++ submitting true) = some _ := rfl
  have hreached : Runs.Reachable System.step (fun _ _ => True) (Start 0) _ :=
    Runs.reachable_of_run published_start hrun
  have htwice : Runs.run System.step (published : System Unit Unit Bool)
      (starting ++ [Event.openSubmit true (), .openSubmit false ()] ++ submitting true ++
        [Event.commit true] ++ submitting false ++ [Event.commit false]) = some _ := rfl
  have hreached' : Runs.Reachable System.step (fun _ _ => True) (Start 0) _ :=
    Runs.reachable_of_run published_start htwice
  exact ⟨⟨_, _, hreached, rfl, rfl, rfl⟩, _, hreached', rfl, rfl⟩

end StudyAgent.Progress.AttemptRequests
