import StudyAgent.Progress.NodeProgress

/-!
# What the progress of a node keeps

The stored status of a row is the one that is computed from it, but for rows with attempts
and nothing read when the quiz is unpublished.  The best score is the best of all submitted
attempts, on whatever quiz; so a row passes by the quiz that is published as long as no
attempt on an earlier one would.

Main results:

* `rowOk_step` — finished material has been read.
* `statuses_match` — **the rows an action writes match, exactly when an unpublish finds no row
  with attempts only.**
* `bestOk_step` — the best score is the best of all submitted attempts.
* `passed_by_current_quiz` — **a trainee passes by an attempt on the published quiz, exactly when
  no attempt on another quiz meets the live threshold alone.**
-/

namespace StudyAgent.Progress

variable {τ κ S : Type}

/-! ## Rows -/

/-- Finished material has been read. -/
def Row.Ok (row : Row S) : Prop :=
  row.studyMaterialCompleted = true → 0 < row.studyMaterialReadPercent

theorem resetRead_ok (row : Row S) : row.resetRead.Ok := fun h => nomatch h

theorem upsertNodeProgress_ok {existing : Option (Row S)} {percent : ℕ} {hasPublishedQuiz : Bool}
    (hexisting : ∀ row ∈ existing, row.Ok)
    (hgrows : ∀ row ∈ existing, row.studyMaterialReadPercent ≤ percent) :
    (upsertNodeProgress existing percent (percent = 100) hasPublishedQuiz).Ok := by
  intro hcompleted
  cases existing with
  | none =>
    have hpercent : percent = 100 := by simpa [upsertNodeProgress] using hcompleted
    show 0 < percent
    omega
  | some row =>
    show 0 < percent
    have hgrow := hgrows row rfl
    have hor : row.studyMaterialCompleted = true ∨ percent = 100 := by
      simpa [upsertNodeProgress] using hcompleted
    rcases hor with hold | hpercent
    · have := hexisting row rfl hold
      omega
    · omega

/-! ## Stored and computed status -/

section Status

theorem resetRead_matches (row : Row S) (hasPublishedQuiz : Bool) :
    row.resetRead.Matches hasPublishedQuiz := by
  simp [Row.Matches, Row.computed, Row.resetRead, computeCompletionStatus,
    completionAfterReadReset]

/-- What has been finished adds no activity of its own. -/
theorem Row.Ok.active_iff {row : Row S} (h : row.Ok) :
    (0 < row.studyMaterialReadPercent ∨ 0 < row.quizAttemptCount ∨
      row.studyMaterialCompleted = true) ↔
        0 < row.studyMaterialReadPercent ∨ 0 < row.quizAttemptCount := by
  rw [← or_assoc]
  exact or_iff_left_of_imp fun hcompleted => Or.inl (h hcompleted)

theorem resetQuizPassed_matches {row : Row S} (h : row.Ok) : row.resetQuizPassed.Matches true := by
  simp [Row.Matches, Row.computed, Row.resetQuizPassed, computeCompletionStatus,
    completionAfterQuizPassedReset, h.active_iff]

theorem recomputePassed_matches [LinearOrder S] {fraction : ℕ → S} {row : Row S} (h : row.Ok)
    (percent : ℕ) : (row.recomputePassed fraction percent).Matches true := by
  simp [Row.Matches, Row.computed, Row.recomputePassed, computeCompletionStatus, h.active_iff]

/-- **After an unpublish a row matches** unless it has attempts and nothing read. -/
theorem afterQuizUnpublish_matches {row : Row S} (h : row.Ok) :
    row.afterQuizUnpublish.Matches false ↔
      ¬ (0 < row.quizAttemptCount ∧ row.studyMaterialReadPercent = 0) := by
  by_cases hcompleted : row.studyMaterialCompleted = true
  · have hread := h hcompleted
    refine iff_of_true ?_ fun hbad => by omega
    simp [Row.Matches, Row.computed, Row.afterQuizUnpublish, computeCompletionStatus,
      completionAfterQuizPassedReset, hcompleted]
  · by_cases hread : row.studyMaterialReadPercent = 0
    · by_cases hattempts : 0 < row.quizAttemptCount
      · refine iff_of_false ?_ fun hok => hok ⟨hattempts, hread⟩
        simp [Row.Matches, Row.computed, Row.afterQuizUnpublish, computeCompletionStatus,
          completionAfterQuizPassedReset, hcompleted, hread, hattempts]
      · refine iff_of_true ?_ fun hbad => hattempts hbad.1
        simp [Row.Matches, Row.computed, Row.afterQuizUnpublish, computeCompletionStatus,
          completionAfterQuizPassedReset, hcompleted, hread, hattempts]
    · refine iff_of_true ?_ fun hbad => hread hbad.2
      have hpos : 0 < row.studyMaterialReadPercent := Nat.pos_of_ne_zero hread
      simp [Row.Matches, Row.computed, Row.afterQuizUnpublish, computeCompletionStatus,
        completionAfterQuizPassedReset, hcompleted, hpos]

theorem markStudyMaterialViewed_matches (existing : Option (Row S)) (hasPublishedQuiz : Bool) :
    (markStudyMaterialViewed existing hasPublishedQuiz).Matches hasPublishedQuiz := rfl

theorem upsertNodeProgress_matches (existing : Option (Row S)) (percent : ℕ)
    (completed hasPublishedQuiz : Bool) :
    (upsertNodeProgress existing percent completed hasPublishedQuiz).Matches
      hasPublishedQuiz := by
  cases existing with
  | none => rfl
  | some row => rfl

end Status

/-! ## Rows of a node -/

section Rows

variable {n : Node τ κ S}

/-- A law of all rows. -/
def Node.Rows (n : Node τ κ S) (law : τ → Row S → Prop) : Prop :=
  ∀ t, ∀ row ∈ n.rows t, law t row

theorem rows_setRow [DecidableEq τ] {law : τ → Row S → Prop} {t : τ} {row : Row S}
    (h : ∀ t' ≠ t, ∀ row ∈ n.rows t', law t' row) (hrow : law t row) :
    (n.setRow t row).Rows law := by
  intro t' row' hrow'
  by_cases ht : t' = t
  · subst ht
    rw [Node.setRow_rows_self, Option.mem_some_iff] at hrow'
    exact hrow' ▸ hrow
  · rw [Node.setRow_rows_of_ne _ _ ht] at hrow'
    exact h t' ht row' hrow'

theorem rows_updateRows (law : τ → Row S → Prop) {f : Row S → Row S} :
    (n.updateRows f).Rows law ↔ n.Rows fun t row => law t (f row) := by
  refine forall_congr' fun t => ?_
  simp [Node.updateRows]

theorem default_ok : ({} : Row S).Ok := fun h => nomatch h

theorem getD_ok {existing : Option (Row S)} (h : ∀ row ∈ existing, row.Ok) :
    (existing.getD {}).Ok := by
  cases existing with
  | none => exact default_ok
  | some row => exact h row rfl

/-- **Finished material has been read**, whatever is done. -/
theorem rowOk_step [DecidableEq τ] [DecidableEq κ] [LinearOrder S] {fraction : ℕ → S}
    {n' : Node τ κ S} {a : Action τ κ S} (h : n.Rows fun _ row => row.Ok)
    (hstep : step fraction n a = some n') : n'.Rows fun _ row => row.Ok := by
  cases a with
  | view t =>
    cases hstep
    exact rows_setRow (fun t' _ => h t') (getD_ok (h t))
  | read t percent =>
    rw [step] at hstep
    split_ifs at hstep with hrange hgrow
    cases hstep
    refine rows_setRow (fun t' _ => h t') (upsertNodeProgress_ok (h t) fun row hrow => ?_)
    rw [Option.mem_def] at hrow
    simpa [hrow] using hgrow
  | start t quiz =>
    rw [step] at hstep
    split_ifs at hstep
    cases hstep
    exact h
  | submit i score =>
    rw [step] at hstep
    split at hstep
    · cases hstep
    · split_ifs at hstep
      cases hstep
      exact rows_setRow (fun t' _ => h t') (getD_ok (h _))
  | publishQuiz quiz percent =>
    rw [step] at hstep
    split_ifs at hstep
    cases hstep
    exact (rows_updateRows _).2 fun t row hrow => h t row hrow
  | unpublishQuiz =>
    rw [step] at hstep
    split_ifs at hstep
    cases hstep
    exact (rows_updateRows _).2 fun t row hrow => h t row hrow
  | setThreshold quiz percent =>
    rw [step] at hstep
    split_ifs at hstep
    · cases hstep
      exact (rows_updateRows _).2 fun t row hrow => h t row hrow
    · cases hstep
      exact h
  | supersedeMaterial =>
    cases hstep
    exact (rows_updateRows _).2 fun t row _ => resetRead_ok row

end Rows

/-! ## The statuses of a run -/

section Runs

variable [DecidableEq τ] [DecidableEq κ] [LinearOrder S] {fraction : ℕ → S}

/-- The nodes reached by any actions. -/
abbrev Reached (fraction : ℕ → S) : Node τ κ S → Prop :=
  Runs.Reachable (step fraction) (fun _ _ => True) Node.Fresh

theorem Reached.rowsOk {n : Node τ κ S} (h : Reached fraction n) :
    n.Rows fun _ row => row.Ok := by
  have hstart : ∀ n : Node τ κ S, n.Fresh → n.Rows fun _ row => row.Ok := by
    intro n hfresh t row hrow
    rw [hfresh.1 t] at hrow
    cases hrow
  exact h.invariant hstart fun _ _ _ hok _ hs => rowOk_step hok hs

/-- The rows an action has written have the status that is computed from them. -/
def StatusesMatch (n n' : Node τ κ S) (a : Action τ κ S) : Prop :=
  ∀ t, touches n t a → ∀ row ∈ n'.rows t, row.Matches n'.hasPublishedQuiz

/-- No row has attempts and nothing read. -/
def NoAttemptsOnly (n : Node τ κ S) : Prop :=
  n.Rows fun _ row => ¬ (0 < row.quizAttemptCount ∧ row.studyMaterialReadPercent = 0)

/-- **Stored statuses are the computed ones** after each action of a run, exactly when no
unpublish finds a row with attempts and nothing read. -/
theorem statuses_match {n n' : Node τ κ S} {a : Action τ κ S} (hn : Reached fraction n)
    (hstep : step fraction n a = some n') :
    StatusesMatch n n' a ↔ (a = .unpublishQuiz → NoAttemptsOnly n) := by
  have hok := hn.rowsOk
  cases a with
  | view t =>
    refine iff_of_true ?_ (fun h => nomatch h)
    cases hstep
    intro t' ht' row hrow
    obtain rfl : t = t' := ht'
    rw [Node.setRow_rows_self, Option.mem_some_iff] at hrow
    subst hrow
    exact markStudyMaterialViewed_matches _ _
  | read t percent =>
    refine iff_of_true ?_ (fun h => nomatch h)
    rw [step] at hstep
    split_ifs at hstep
    cases hstep
    intro t' ht' row hrow
    obtain rfl : t = t' := ht'
    rw [Node.setRow_rows_self, Option.mem_some_iff] at hrow
    subst hrow
    exact upsertNodeProgress_matches _ _ _ _
  | start t quiz => exact iff_of_true (fun _ ht => ht.elim) (fun h => nomatch h)
  | submit i score =>
    refine iff_of_true ?_ (fun h => nomatch h)
    rw [step] at hstep
    split at hstep
    · cases hstep
    next attempt hattempt =>
      split_ifs at hstep
      cases hstep
      intro t' ht' row hrow
      have ht : attempt.trainee = t' := by
        rw [touches, hattempt, Option.map_some] at ht'
        exact Option.some.inj ht'
      subst ht
      rw [Node.setRow_rows_self, Option.mem_some_iff] at hrow
      subst hrow
      have hmatch : (recordQuizAttemptSubmission fraction (n.rows attempt.trainee) score
          n.publishedThreshold).Matches n.publishedThreshold.isSome := rfl
      rwa [Node.publishedThreshold, Option.isSome_map] at hmatch
  | publishQuiz quiz percent =>
    refine iff_of_true ?_ (fun h => nomatch h)
    rw [step] at hstep
    split_ifs at hstep
    cases hstep
    intro t _
    exact (rows_updateRows fun _ row => row.Matches true).2
      (fun t row hrow => resetQuizPassed_matches (hok t row hrow)) t
  | unpublishQuiz =>
    rw [step] at hstep
    split_ifs at hstep
    cases hstep
    have hall : (({ n with publishedQuiz := none }.updateRows Row.afterQuizUnpublish).Rows
        fun _ row => row.Matches false) ↔ NoAttemptsOnly n := by
      refine (rows_updateRows _).trans (forall_congr' fun t => forall_congr' fun row => ?_)
      exact forall_congr' fun hrow => afterQuizUnpublish_matches (hok t row hrow)
    exact ⟨fun h _ => hall.1 fun t => h t trivial, fun h t _ => hall.2 (h rfl) t⟩
  | setThreshold quiz percent =>
    refine iff_of_true ?_ (fun h => nomatch h)
    rw [step] at hstep
    intro t ht
    rw [touches] at ht
    rw [if_pos ht] at hstep
    cases hstep
    have hall := (rows_updateRows (n := n) (f := Row.recomputePassed fraction percent)
      fun _ row => row.Matches true).2
        (fun t row hrow => recomputePassed_matches (hok t row hrow) percent) t
    have hlive : n.hasPublishedQuiz = true := by rw [Node.hasPublishedQuiz, ht, Option.isSome_some]
    rw [← hlive] at hall
    exact hall
  | supersedeMaterial =>
    refine iff_of_true ?_ (fun h => nomatch h)
    cases hstep
    intro t _
    exact (rows_updateRows fun _ row => row.Matches n.hasPublishedQuiz).2
      (fun t row _ => resetRead_matches row _) t

end Runs

/-- A node nobody has been on, with scores in percent. -/
def newNode : Node ℕ ℕ ℕ where
  rows _ := none
  publishedQuiz := none
  passThresholdPercent _ := 70
  attempts := []

theorem newNode_fresh : newNode.Fresh := ⟨fun _ => rfl, rfl, rfl⟩

/-- A row with something read keeps a right status when its quiz is unpublished. -/
theorem status_after_reading :
    ∃ n n', Runs.run (step id) newNode [.publishQuiz 0 none, .read 0 40] = some n ∧
      step id n .unpublishQuiz = some n' ∧ StatusesMatch n n' .unpublishQuiz := by
  have hreached : Runs.run (step id) newNode [.publishQuiz 0 none, .read 0 40] = some _ := rfl
  refine ⟨_, _, hreached, rfl,
    (statuses_match (Runs.reachable_of_run newNode_fresh hreached) rfl).2 ?_⟩
  intro _ t row hrow hbad
  by_cases ht : t = 0
  · subst ht
    cases hrow
    exact absurd hbad.2 (by decide)
  · rw [Option.mem_def, Node.setRow_rows_of_ne _ _ ht] at hrow
    cases hrow

/-- A row with an attempt and nothing read is stored as not started. -/
theorem status_of_attempt_only :
    ¬ ∀ (n n' : Node ℕ ℕ ℕ) (a : Action ℕ ℕ ℕ), Reached id n → step id n a = some n' →
      StatusesMatch n n' a := by
  intro h
  have hreached : Runs.run (step id) newNode
      [.publishQuiz 0 none, .start 0 0, .submit 0 50] = some _ := rfl
  have hmatch := h _ _ .unpublishQuiz (Runs.reachable_of_run newNode_fresh hreached) rfl 0 trivial
    _ rfl
  exact absurd hmatch (by decide)

/-! ## The best score -/

section Best

variable {n n' : Node τ κ S} {t : τ} {a : Action τ κ S}

/-- `quiz_best_score` of a trainee. -/
def Node.best (n : Node τ κ S) (t : τ) : Option S := (n.rows t).bind Row.quizBestScore

theorem best_updateRows {f : Row S → Row S}
    (h : ∀ row, (f row).quizBestScore = row.quizBestScore) :
    (n.updateRows f).best t = n.best t := by
  unfold Node.best
  cases hrow : n.rows t with
  | none => simp [hrow]
  | some row => simp [hrow, h]

theorem best_setRow [DecidableEq τ] {row : Row S} {t' : τ} :
    (n.setRow t row).best t' = if t' = t then row.quizBestScore else n.best t' := by
  unfold Node.best
  split_ifs with ht
  · subst ht
    simp
  · simp [ht]

theorem best_eq_getD : ((n.rows t).getD {}).quizBestScore = n.best t := by
  unfold Node.best
  cases n.rows t with
  | none => rfl
  | some row => rfl

theorem upsertNodeProgress_best (percent : ℕ) (completed hasPublishedQuiz : Bool) :
    (upsertNodeProgress (n.rows t) percent completed hasPublishedQuiz).quizBestScore =
      n.best t := by
  unfold Node.best
  cases n.rows t with
  | none => rfl
  | some row => rfl

/-- A submitted attempt of a trainee, with its score. -/
def Submitted (n : Node τ κ S) (t : τ) (quiz : κ) (score : S) : Prop :=
  { trainee := t, quiz := quiz, status := .submitted, score := some score } ∈ n.attempts

theorem submitted_abandonAttempts [DecidableEq κ] {quiz : κ} {score : S} :
    Submitted n.abandonAttempts t quiz score ↔ Submitted n t quiz score := by
  unfold Submitted Node.abandonAttempts
  rw [List.mem_map]
  constructor
  · rintro ⟨a, ha, heq⟩
    split_ifs at heq with habandon
    · cases a
      simp at heq
    · exact heq ▸ ha
  · intro h
    exact ⟨_, h, if_neg fun habandon => nomatch habandon.2⟩

theorem submitted_append {a : QuizAttempt τ κ S} {quiz : κ} {score : S}
    (ha : a.status = .inProgress) :
    Submitted { n with attempts := n.attempts ++ [a] } t quiz score ↔
      Submitted n t quiz score := by
  unfold Submitted
  rw [List.mem_append, List.mem_singleton]
  refine or_iff_left fun h => ?_
  rw [← h] at ha
  cases ha

/-- Submitting an attempt adds its score. -/
theorem submitted_set {i : ℕ} {a : QuizAttempt τ κ S} {quiz : κ} {score score' : S}
    (ha : n.attempts[i]? = some a) (hstatus : a.status = .inProgress) :
    Submitted { n with
        attempts := n.attempts.set i { a with status := .submitted, score := some score } }
      t quiz score' ↔
        Submitted n t quiz score' ∨ (a.trainee = t ∧ a.quiz = quiz ∧ score = score') := by
  obtain ⟨hi, hget⟩ := List.getElem?_eq_some_iff.1 ha
  unfold Submitted
  constructor
  · intro h
    rcases List.mem_or_eq_of_mem_set h with h | h
    · exact Or.inl h
    · right
      cases a
      simp only [QuizAttempt.mk.injEq, Option.some.injEq, true_and] at h
      exact ⟨h.1.symm, h.2.1.symm, h.2.2.symm⟩
  · rintro (h | ⟨rfl, rfl, rfl⟩)
    · obtain ⟨j, hj, hjget⟩ := List.mem_iff_getElem.1 h
      refine List.mem_iff_getElem.2 ⟨j, by rwa [List.length_set], ?_⟩
      rw [List.getElem_set_of_ne, hjget]
      rintro rfl
      rw [hget] at hjget
      rw [hjget] at hstatus
      cases hstatus
    · exact List.mem_set hi _

/-- The submitted attempts once the action is done. -/
def Counted (n : Node τ κ S) : Action τ κ S → τ → κ → S → Prop
  | .submit i score => fun t quiz score' => Submitted n t quiz score' ∨
      ∃ a ∈ n.attempts[i]?, a.trainee = t ∧ a.quiz = quiz ∧ score = score'
  | _ => Submitted n

/-- The best score is the best of all submitted attempts, on whatever quiz. -/
def BestOk [LinearOrder S] (n : Node τ κ S) : Prop :=
  ∀ t s, (∃ b ∈ n.best t, s ≤ b) ↔ ∃ quiz score, Submitted n t quiz score ∧ s ≤ score

/-- A submission makes the best score the better of the old one and its own. -/
theorem le_bestScore_iff [LinearOrder S] {best : Option S} {score s : S} :
    s ≤ bestScore best score ↔ (∃ b ∈ best, s ≤ b) ∨ s ≤ score := by
  cases best with
  | none => simp [bestScore]
  | some b => simp [bestScore]

theorem le_submission_iff [LinearOrder S] {fraction : ℕ → S} {score s : S}
    {threshold : Option ℕ} :
    (∃ b ∈ (recordQuizAttemptSubmission fraction (n.rows t) score threshold).quizBestScore,
      s ≤ b) ↔ (∃ b ∈ n.best t, s ≤ b) ∨ s ≤ score := by
  rw [← best_eq_getD, ← le_bestScore_iff]
  simp [recordQuizAttemptSubmission]

variable [DecidableEq τ] [DecidableEq κ] [LinearOrder S] {fraction : ℕ → S}

/-- **Only submissions add submitted attempts.** -/
theorem submitted_step (hstep : step fraction n a = some n') {quiz : κ} {score : S} :
    Submitted n' t quiz score ↔ Counted n a t quiz score := by
  cases a with
  | view t =>
    cases hstep
    rfl
  | read t percent =>
    rw [step] at hstep
    split_ifs at hstep
    cases hstep
    rfl
  | start t quiz =>
    rw [step] at hstep
    split_ifs at hstep
    cases hstep
    exact submitted_append rfl
  | submit i score =>
    rw [step] at hstep
    split at hstep
    · cases hstep
    next attempt hattempt =>
      split_ifs at hstep with hstatus
      cases hstep
      refine (submitted_set hattempt (not_not.1 hstatus)).trans (or_congr_right ?_)
      simp [hattempt]
  | publishQuiz quiz percent =>
    rw [step] at hstep
    split_ifs at hstep
    cases hstep
    exact submitted_abandonAttempts
  | unpublishQuiz =>
    rw [step] at hstep
    split_ifs at hstep
    cases hstep
    rfl
  | setThreshold quiz percent =>
    rw [step] at hstep
    split_ifs at hstep
    all_goals
      cases hstep
      rfl
  | supersedeMaterial =>
    cases hstep
    rfl

/-- What an action that submits nothing does not count. -/
theorem bestOk_of_same (h : BestOk n) (hstep : step fraction n a = some n')
    (hcounted : Counted n a = Submitted n) (hbest : ∀ t, n'.best t = n.best t) : BestOk n' := by
  intro t s
  simp only [hbest, submitted_step hstep, hcounted]
  exact h t s

/-- **The best score stays the best of all submitted attempts.** -/
theorem bestOk_step (h : BestOk n) (hstep : step fraction n a = some n') : BestOk n' := by
  have hsame := bestOk_of_same h hstep
  cases a with
  | view t =>
    cases hstep
    refine hsame rfl fun t' => ?_
    rw [best_setRow]
    split_ifs with ht
    · subst ht
      exact best_eq_getD
    · rfl
  | read t percent =>
    rw [step] at hstep
    split_ifs at hstep
    cases hstep
    refine hsame rfl fun t' => ?_
    rw [best_setRow]
    split_ifs with ht
    · subst ht
      exact upsertNodeProgress_best _ _ _
    · rfl
  | start t quiz =>
    rw [step] at hstep
    split_ifs at hstep
    cases hstep
    exact hsame rfl fun _ => rfl
  | submit i score =>
    intro t s
    simp only [submitted_step hstep, Counted, or_and_right, exists_or, ← h t s]
    rw [step] at hstep
    split at hstep
    · cases hstep
    next attempt hattempt =>
      split_ifs at hstep
      cases hstep
      have hown : (∃ quiz score', (∃ a ∈ n.attempts[i]?,
          a.trainee = t ∧ a.quiz = quiz ∧ score = score') ∧ s ≤ score') ↔
            attempt.trainee = t ∧ s ≤ score := by
        simp [hattempt]
      rw [hown, best_setRow]
      split_ifs with ht
      · subst ht
        rw [le_submission_iff]
        simp
      · exact (or_iff_left fun hself => ht hself.1.symm).symm
  | publishQuiz quiz percent =>
    rw [step] at hstep
    split_ifs at hstep
    cases hstep
    exact hsame rfl fun _ => best_updateRows fun _ => rfl
  | unpublishQuiz =>
    rw [step] at hstep
    split_ifs at hstep
    cases hstep
    exact hsame rfl fun _ => best_updateRows fun _ => rfl
  | setThreshold quiz percent =>
    rw [step] at hstep
    split_ifs at hstep
    · cases hstep
      exact hsame rfl fun _ => best_updateRows fun _ => rfl
    · cases hstep
      exact h
  | supersedeMaterial =>
    cases hstep
    exact hsame rfl fun _ => best_updateRows fun _ => rfl

theorem Reached.bestOk (h : Reached fraction n) : BestOk n := by
  refine h.invariant (fun n hfresh t s => ?_) fun _ _ _ hok _ hs => bestOk_step hok hs
  have hbest : n.best t = none := by rw [Node.best, hfresh.1 t, Option.bind_none]
  refine iff_of_false ?_ ?_
  · rintro ⟨b, hb, -⟩
    rw [hbest] at hb
    cases hb
  · rintro ⟨quiz, score, hsubmitted, -⟩
    rw [Submitted, hfresh.2.2] at hsubmitted
    cases hsubmitted

end Best

/-! ## Passing -/

section Passing

variable {n n' : Node τ κ S} {t : τ}

/-- `quiz_passed` of a trainee. -/
def Node.passed (n : Node τ κ S) (t : τ) : Bool := (n.rows t).any Row.quizPassed

theorem passed_setRow [DecidableEq τ] {row : Row S} {t' : τ} :
    (n.setRow t row).passed t' = if t' = t then row.quizPassed else n.passed t' := by
  unfold Node.passed
  split_ifs with ht
  · subst ht
    simp
  · simp [ht]

theorem passed_updateRows {f : Row S → Row S}
    (h : ∀ row, (f row).quizPassed = row.quizPassed) :
    (n.updateRows f).passed t = n.passed t := by
  unfold Node.passed
  cases hrow : n.rows t with
  | none => simp [hrow]
  | some row => simp [hrow, h]

theorem resetQuizPassed_passed : (n.updateRows Row.resetQuizPassed).passed t = false := by
  unfold Node.passed
  cases hrow : n.rows t with
  | none => simp [hrow]
  | some row => simp [hrow, Row.resetQuizPassed]

theorem passed_eq_getD : ((n.rows t).getD {}).quizPassed = n.passed t := by
  unfold Node.passed
  cases n.rows t with
  | none => rfl
  | some row => rfl

theorem upsertNodeProgress_passed (percent : ℕ) (completed hasPublishedQuiz : Bool) :
    (upsertNodeProgress (n.rows t) percent completed hasPublishedQuiz).quizPassed =
      n.passed t := by
  unfold Node.passed
  cases n.rows t with
  | none => rfl
  | some row => rfl

variable [LinearOrder S] {fraction : ℕ → S}

theorem scoreMeetsPassThreshold_iff {best : Option S} {percent : ℕ} :
    scoreMeetsPassThreshold fraction best (some percent) = true ↔
      ∃ b ∈ best, fraction percent ≤ b := by
  cases best with
  | none => simp [scoreMeetsPassThreshold]
  | some b => simp [scoreMeetsPassThreshold]

/-- A submission of a trainee who has not passed passes by the best score. -/
theorem submission_passed (hpassed : n.passed t = false) {score : S} {threshold : Option ℕ} :
    (recordQuizAttemptSubmission fraction (n.rows t) score threshold).quizPassed = true ↔
      ∃ percent ∈ threshold, (∃ b ∈ n.best t, fraction percent ≤ b) ∨ fraction percent ≤ score := by
  rw [← passed_eq_getD] at hpassed
  cases threshold with
  | none => simp [recordQuizAttemptSubmission, scoreMeetsPassThreshold, hpassed]
  | some percent =>
    simp only [recordQuizAttemptSubmission, hpassed, scoreMeetsPassThreshold_iff,
      Option.mem_some_iff, exists_eq_left', le_bestScore_iff, best_eq_getD, Bool.if_false_right,
      Bool.and_true, decide_eq_true_eq]

theorem recomputePassed_passed {percent : ℕ} :
    (n.updateRows (Row.recomputePassed fraction percent)).passed t = true ↔
      ∃ b ∈ n.best t, fraction percent ≤ b := by
  unfold Node.passed Node.best
  cases hrow : n.rows t with
  | none => simp [hrow]
  | some row => simp [hrow, Row.recomputePassed, scoreMeetsPassThreshold_iff]

variable [DecidableEq τ] [DecidableEq κ] {a : Action τ κ S}

/-- The action compares the best score of a trainee with this threshold of this quiz, which is
live. -/
def ComparesWith (n : Node τ κ S) (t : τ) (quiz : κ) (percent : ℕ) : Action τ κ S → Prop
  | .submit i _ => n.attempts[i]?.map QuizAttempt.trainee = some t ∧
      n.publishedQuiz = some quiz ∧ n.passThresholdPercent quiz = percent
  | .setThreshold quiz' percent' =>
      n.publishedQuiz = some quiz ∧ quiz' = quiz ∧ percent' = percent
  | _ => False

theorem ComparesWith.live {quiz : κ} {percent : ℕ} (h : ComparesWith n t quiz percent a)
    (hstep : step fraction n a = some n') :
    n'.publishedQuiz = some quiz ∧ n'.passThresholdPercent quiz = percent := by
  cases a with
  | submit i score =>
    rw [step] at hstep
    split at hstep
    · cases hstep
    · split_ifs at hstep
      cases hstep
      exact h.2
  | setThreshold quiz' percent' =>
    obtain ⟨hlive, rfl, rfl⟩ := h
    rw [step, if_pos hlive] at hstep
    cases hstep
    exact ⟨hlive, Function.update_self ..⟩
  | _ => exact h.elim

/-- **When a trainee comes to have passed**: a submitted attempt on some quiz meets the
threshold that the action compares with. -/
theorem passed_step (hok : BestOk n) (hstep : step fraction n a = some n')
    (hpassed : n.passed t = false) :
    n'.passed t = true ↔ ∃ quiz percent, ComparesWith n t quiz percent a ∧
      ∃ quiz' score, Counted n a t quiz' score ∧ fraction percent ≤ score := by
  have hkept : (∀ quiz percent, ¬ ComparesWith n t quiz percent a) → n'.passed t = n.passed t →
      (n'.passed t = true ↔ ∃ quiz percent, ComparesWith n t quiz percent a ∧
        ∃ quiz' score, Counted n a t quiz' score ∧ fraction percent ≤ score) := by
    intro hno hsame
    refine iff_of_false (by simp [hsame, hpassed]) ?_
    rintro ⟨quiz, percent, hcompare, -⟩
    exact hno quiz percent hcompare
  cases a with
  | view t' =>
    refine hkept (fun _ _ h => h) ?_
    cases hstep
    rw [passed_setRow]
    split_ifs with ht
    · subst ht
      exact passed_eq_getD
    · rfl
  | read t' percent =>
    refine hkept (fun _ _ h => h) ?_
    rw [step] at hstep
    split_ifs at hstep
    cases hstep
    rw [passed_setRow]
    split_ifs with ht
    · subst ht
      exact upsertNodeProgress_passed _ _ _
    · rfl
  | start t' quiz =>
    refine hkept (fun _ _ h => h) ?_
    rw [step] at hstep
    split_ifs at hstep
    cases hstep
    rfl
  | submit i score =>
    rw [step] at hstep
    split at hstep
    · cases hstep
    next attempt hattempt =>
      split_ifs at hstep
      cases hstep
      rw [passed_setRow]
      split_ifs with ht
      · subst ht
        rw [submission_passed hpassed]
        have hcounted : ∀ percent, (∃ quiz' score', Counted n (.submit i score) attempt.trainee
            quiz' score' ∧ fraction percent ≤ score') ↔
              (∃ b ∈ n.best attempt.trainee, fraction percent ≤ b) ∨ fraction percent ≤ score := by
          intro percent
          rw [hok]
          simp [Counted, hattempt, or_and_right, exists_or]
        simp [ComparesWith, hcounted, hattempt, Node.publishedThreshold]
      · refine iff_of_false (fun hnew => ?_) ?_
        · exact absurd hnew (by rw [Bool.not_eq_true]; exact hpassed)
        rintro ⟨quiz, percent, hcompare, -⟩
        rw [ComparesWith, hattempt, Option.map_some, Option.some.injEq] at hcompare
        exact ht hcompare.1.symm
  | publishQuiz quiz percent =>
    refine hkept (fun _ _ h => h) ?_
    rw [step] at hstep
    split_ifs at hstep
    cases hstep
    exact resetQuizPassed_passed.trans hpassed.symm
  | unpublishQuiz =>
    refine hkept (fun _ _ h => h) ?_
    rw [step] at hstep
    split_ifs at hstep
    cases hstep
    exact passed_updateRows fun _ => rfl
  | setThreshold quiz percent =>
    rw [step] at hstep
    split_ifs at hstep with hlive
    · cases hstep
      refine recomputePassed_passed.trans ?_
      show (∃ b ∈ n.best t, _) ↔ _
      rw [hok]
      simp [ComparesWith, Counted, hlive]
    · refine hkept (fun quiz' percent' h => hlive (h.2.1 ▸ h.1)) ?_
      cases hstep
      rfl
  | supersedeMaterial =>
    refine hkept (fun _ _ h => h) ?_
    cases hstep
    exact passed_updateRows fun _ => rfl

/-- Who comes to have passed has an attempt on the published quiz that meets its threshold. -/
def PassedByCurrent (fraction : ℕ → S) (n n' : Node τ κ S) : Prop :=
  ∀ t, n.passed t = false → n'.passed t = true →
    ∃ quiz score, n'.publishedQuiz = some quiz ∧ Submitted n' t quiz score ∧
      fraction (n'.passThresholdPercent quiz) ≤ score

/-- Where an attempt on another quiz meets the live threshold that the best score of a trainee is
compared with, an attempt on the live quiz meets it too. -/
def LiveAttemptToo (fraction : ℕ → S) (n : Node τ κ S) (a : Action τ κ S) : Prop :=
  ∀ t quiz percent, n.passed t = false → ComparesWith n t quiz percent a →
    (∃ other score, other ≠ quiz ∧ Counted n a t other score ∧ fraction percent ≤ score) →
      ∃ score, Counted n a t quiz score ∧ fraction percent ≤ score

/-- **A trainee passes by an attempt on the published quiz**, exactly when no attempt on another
quiz meets the live threshold alone. -/
theorem passed_by_current_quiz (hn : Reached fraction n) (hstep : step fraction n a = some n') :
    PassedByCurrent fraction n n' ↔ LiveAttemptToo fraction n a := by
  have hbecomes := fun t => passed_step (t := t) hn.bestOk hstep
  constructor
  · rintro h t quiz percent hpassed hcompare ⟨other, score, -, hcounted, hmeets⟩
    have hnew := (hbecomes t hpassed).2 ⟨quiz, percent, hcompare, other, score, hcounted, hmeets⟩
    obtain ⟨quiz', score', hlive', hsubmitted, hmeets'⟩ := h t hpassed hnew
    obtain ⟨hlive, rfl⟩ := hcompare.live hstep
    obtain rfl : quiz = quiz' := Option.some.inj (hlive.symm.trans hlive')
    exact ⟨score', (submitted_step hstep).1 hsubmitted, hmeets'⟩
  · intro h t hpassed hnew
    obtain ⟨quiz, percent, hcompare, quiz', score, hcounted, hmeets⟩ := (hbecomes t hpassed).1 hnew
    obtain ⟨score', hcounted', hmeets'⟩ :
        ∃ score, Counted n a t quiz score ∧ fraction percent ≤ score := by
      by_cases hquiz : quiz' = quiz
      · exact ⟨score, hquiz ▸ hcounted, hmeets⟩
      · exact h t quiz percent hpassed hcompare ⟨quiz', score, hquiz, hcounted, hmeets⟩
    obtain ⟨hlive, rfl⟩ := hcompare.live hstep
    exact ⟨quiz, score', hlive, (submitted_step hstep).2 hcounted', hmeets'⟩

end Passing

/-- An attempt on the published quiz passes, after one on an earlier quiz that would not. -/
theorem passed_on_second_quiz :
    ∃ n n', Runs.run (step id) newNode
        [.publishQuiz 0 none, .start 0 0, .submit 0 40, .publishQuiz 1 none, .start 0 1] = some n ∧
      step id n (.submit 1 80) = some n' ∧ n'.passed 0 = true ∧ PassedByCurrent id n n' := by
  have hreached : Runs.run (step id) newNode
    [.publishQuiz 0 none, .start 0 0, .submit 0 40, .publishQuiz 1 none, .start 0 1] = some _ := rfl
  refine ⟨_, ?_, hreached, ?hstep, ?hpassed,
    (passed_by_current_quiz (Runs.reachable_of_run newNode_fresh hreached) ?hstep).2 ?_⟩
  case hstep => rfl
  case hpassed => decide
  rintro t quiz percent - ⟨ht, hlive, rfl⟩ -
  cases ht
  cases hlive
  exact ⟨80, Or.inr ⟨_, rfl, rfl, rfl, rfl⟩, by decide⟩

/-- A failed attempt on the published quiz passes by one on an earlier quiz. -/
theorem passed_by_earlier_quiz :
    ¬ ∀ (n n' : Node ℕ ℕ ℕ) (a : Action ℕ ℕ ℕ), Reached id n → step id n a = some n' →
      PassedByCurrent id n n' := by
  intro h
  have hreached : Runs.run (step id) newNode
    [.publishQuiz 0 none, .start 0 0, .submit 0 90, .publishQuiz 1 none, .start 0 1] = some _ := rfl
  have hpassed := h _ _ (.submit 1 10) (Runs.reachable_of_run newNode_fresh hreached) rfl
  obtain ⟨quiz, score, hlive, hsubmitted, hmeets⟩ := hpassed 0 (by decide) (by decide)
  cases hlive
  rcases List.mem_cons.1 hsubmitted with hfirst | hrest
  · cases hfirst
  · cases List.mem_singleton.1 hrest
    exact absurd hmeets (by decide)

end StudyAgent.Progress
