import StudyAgent.Quiz.GraphRuns

/-!
# Delivered quizzes

A quiz is persisted after the quality check, or after a prune, which only looks at the number of
questions.  What is persisted is as sound as what was pruned.

Main results:

* `prunedQuestions_sound` — **a prune keeps a quiz of sound questions sound**, whatever ids are
  answered.
* `delivered_sound` — **a quiz that is persisted passes all structural checks** if every quiz
  that was pruned had sound questions and distinct ids.
-/

namespace StudyAgent.Quiz

open Py

/-! ## Pruning -/

theorem prunedQuestions_partOf (questions : List Question) (n : ℕ) (prefer : List String)
    (reply : PruneReply) : PartOf (prunedQuestions questions n prefer reply) questions := by
  have hfallback := pruneQuestionsToCount_partOf questions n prefer
  unfold prunedQuestions
  dsimp only
  split_ifs with hlength
  · exact hfallback
  · cases reply with
    | failed => exact hfallback
    | unreadable => exact hfallback
    | ids raw =>
      dsimp only
      split_ifs
      · exact removeQuestionsByIds_partOf _ _
      · exact (pruneQuestionsToCount_partOf _ _ _).trans (removeQuestionsByIds_partOf _ _)
      · exact pruneQuestionsToCount_partOf _ _ _
      · exact hfallback

/-- **A prune of a quiz with distinct ids leaves the requested number**: where the answer does
not, the fallback does. -/
theorem prunedQuestions_length {questions : List Question} (hids : DistinctIds questions) {n : ℕ}
    (hle : n ≤ questions.length) (prefer : List String) (reply : PruneReply) :
    (prunedQuestions questions n prefer reply).length = n := by
  unfold prunedQuestions
  dsimp only
  split_ifs with hlength
  · exact pruneQuestionsToCount_length hids hle prefer
  · exact not_not.1 hlength

/-- **A prune keeps a quiz of sound questions sound.** -/
theorem prunedQuestions_sound {questions : List Question} {n m : ℕ} (hsound : Sound questions m)
    (hids : DistinctIds questions) (hle : n ≤ questions.length) (prefer : List String)
    (reply : PruneReply) : Sound (prunedQuestions questions n prefer reply) n :=
  (prunedQuestions_partOf questions n prefer reply).sound hsound
    (prunedQuestions_length hids hle prefer reply)

/-! ## Delivery -/

/-- The quiz that a prune is about to cut has sound questions, with different stems and
different ids. -/
def PrunesSound (c : Config) : Prop :=
  c.node = .quizGenerator → Pruning c.state →
    Sound c.state.current c.state.current.length ∧ DistinctIds c.state.current

instance (c : Config) : Decidable (PrunesSound c) :=
  inferInstanceAs (Decidable (_ → _))

/-- A quiz is only persisted as good if it is sound. -/
def DeliversSound (node : Node) (s : GraphState) : Prop :=
  node = .persistQuizDraft → s.qcFailedPermanently = false → s.terminalLlmFailure = false →
    Sound (s.validatedQuestions.getD []) s.questionCount

theorem deliversSound_law : Law DeliversSound where
  elsewhere hnode hpersist := by
    subst hpersist
    exact absurd (by decide) hnode
  marks _ h := h
  untouched _ hpersist := nomatch hpersist
  again _ _ _ _ _ hpersist := nomatch hpersist

variable {L : Library} {s s' : GraphState} {c c' : Config} {o : Outcome}

theorem deliversSound_generator (h : AtGenerator s) (hprunes : PrunesSound ⟨.quizGenerator, s⟩)
    (hs : quizGeneratorNode L s o = some s') : DeliversSound (routeAfterQuizGenerator s') s' := by
  intro hpersist hpermanent hterminal
  rcases quizGenerator_cases hs with rfl | ⟨e, raw, rfl⟩ | ⟨hmode, -, -, hshort, -⟩ |
    ⟨hmode, -, hover, rfl⟩ | ⟨-, -, retry, -, rfl⟩ | ⟨-, text, parsed, -, -, rfl⟩
  · cases hterminal
  · rw [routeAfterQuizGenerator_aborted h.terminal] at hpersist
    cases hpersist
  · exact absurd (h.overflows hmode) (Nat.not_lt.2 hshort)
  · obtain ⟨hsound, hids⟩ := hprunes rfl ⟨hmode, hover⟩
    exact prunedQuestions_sound hsound hids hover.le s.qcReverifyQuestionIds o.pruned
  · rw [routeAfterQuizGenerator_afterRetry h.terminal h.present] at hpersist
    cases hpersist
  · rw [routeAfterQuizGenerator_afterGeneration h.terminal h.present h.error] at hpersist
    cases hpersist

theorem deliversSound_validate (h : AtValidator s) (hs : deterministicValidateNode L s = some s') :
    DeliversSound (routeAfterDeterministicValidate s') s' := by
  intro hpersist hpermanent _
  rcases validate_next h hs with ⟨-, hnext, -⟩ |
    ⟨-, ⟨hnext, -⟩ | ⟨-, det, -, ⟨-, hfailed⟩ | ⟨hnext, -⟩⟩⟩
  · rw [hpersist] at hnext
    cases hnext
  · rw [hpersist] at hnext
    cases hnext
  · rw [hpermanent] at hfailed
    cases hfailed
  · rw [hpersist] at hnext
    cases hnext

theorem deliversSound_qualityCheck (h : AtQualityCheck s) (hs : qualityCheckNode L s o = some s') :
    DeliversSound (routeAfterQualityCheck s') s' := by
  intro _ _ _
  rcases qualityCheck_next h hs with ⟨-, -, rfl⟩ | ⟨-, det, -, ⟨-, rfl, -⟩ |
    ⟨v, r, routing, passed, -, -, rfl, -⟩⟩
  all_goals exact h.sound

theorem deliversSound_kept (hprunes : PrunesSound c) : KeptBy L DeliversSound c o where
  generator hnode h hs := by
    obtain ⟨node, s⟩ := c
    subst hnode
    exact deliversSound_generator h hprunes hs
  validate _ h hs := deliversSound_validate h hs
  qualityCheck _ h hs := deliversSound_qualityCheck h hs

/-- **What a run delivers is sound** if every quiz that it prunes has sound questions and
distinct ids: whatever the models answer, and however often the run is resumed. -/
theorem delivered_sound
    (hreached : Runs.Reachable (step L) (fun c _ => PrunesSound c) Fresh c)
    (hnode : c.node = .persistQuizDraft) (hpermanent : c.state.qcFailedPermanently = false)
    (hterminal : c.state.terminalLlmFailure = false) :
    ∃ checks, runDeterministicQuizChecks L (c.state.validatedQuestions.getD [])
      c.state.questionCount = some checks ∧ extractFailedChecks checks = [] := by
  have hholds : Holds DeliversSound c :=
    hreached.invariant (fun _ => deliversSound_law.fresh) fun c e c' h hprunes hstep =>
      deliversSound_law.step h.1 (fun _ => h.2) (fun _ => deliversSound_kept hprunes) hstep
  have hpersist : c.resolved = .persistQuizDraft := by
    rw [resolved_of_ne (by rw [hnode]; decide), hnode]
  exact failedChecks_runDeterministicQuizChecks.2 (hholds.2 hpersist hpermanent hterminal)

/-- A reply that misses a concept. -/
def lackingReply : Reply :=
  { replyWith [resultFor "q1" true true] "none" with
    quizSummary := some
      { difficultyOk := some (.bool false)
        difficultyCounts := some
          { easy := some (.str "1"), medium := some (.str "0"), hard := some (.str "0") }
        duplicateConcepts := some []
        coverageIssues := some [] }
    retryRecommendation := some (some
      { mode := some (.str "question_insert")
        missingConcepts := some [.str "chlorophyll"] }) }

/-- A quiz of one question to which one on a missing concept is added; the first is removed. -/
def insertThenPrune (option : String) : List Event :=
  [{}, {}, generating [itemFor "q1" "What do plants take in?" "A"], {}, verifying lackingReply,
    inserting [itemFor "q2" "What makes leaves green?" option], {},
    { outcome := { pruned := .ids ["q1"] } }]

theorem inserted_delivered :
    ∃ c, (Runs.Reachable (step plainLibrary) (fun c _ => PrunesSound c) Fresh c ∧
        c.node = .persistQuizDraft) ∧
      ∃ checks, runDeterministicQuizChecks plainLibrary (c.state.validatedQuestions.getD [])
        c.state.questionCount = some checks ∧ extractFailedChecks checks = [] := by
  have hrun : Runs.run (fun c e => if PrunesSound c then step plainLibrary c e else none)
      ⟨.entryRouter, { questionCount := 1 }⟩ (insertThenPrune "B") = some _ := rfl
  have hreached : Runs.Reachable (step plainLibrary) (fun c _ => PrunesSound c) Fresh _ :=
    Runs.reachable_of_checked ⟨.generate, [], 1, rfl⟩ hrun
  exact ⟨_, ⟨hreached, rfl⟩, delivered_sound hreached rfl rfl rfl⟩

/-- The new question marks an option that there is none of, and is all that is delivered. -/
theorem invalid_delivered :
    ∃ c, Runs.Reachable (step plainLibrary) (fun _ _ => True) Fresh c ∧
      c.node = .persistQuizDraft ∧ c.state.qcFailedPermanently = false ∧
      c.state.terminalLlmFailure = false ∧
      ¬ ∃ checks, runDeterministicQuizChecks plainLibrary (c.state.validatedQuestions.getD [])
        c.state.questionCount = some checks ∧ extractFailedChecks checks = [] := by
  have hrun : generated plainLibrary 1 (insertThenPrune "E") = some _ := rfl
  refine ⟨_, reachable_of_generated hrun, rfl, rfl, rfl, ?_⟩
  rintro ⟨checks, hchecks, hfailed⟩
  have hnone : extractFailedChecks _ = [] := (Option.some.inj hchecks) ▸ hfailed
  revert hnone
  decide

end StudyAgent.Quiz
