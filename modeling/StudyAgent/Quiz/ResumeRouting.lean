import StudyAgent.Quiz.RetryTargets

/-!
# Where a resumed run goes on

The edges of the graph and the resume router are two decisions over one state.  They differ after
a node that persists, after a node that has left nothing to go on with, and after a quality check
that is withheld without a way to retry.

Main results:

* `resume_load` — only the loading of the context leads a resumed run back to it.
* `resume_follows_iff` — **the resume router picks the node that the edges lead to exactly if there
  is something to go on with**, and it picks a node that persists again.
-/

namespace StudyAgent.Quiz

variable {L : Library} {s s' : GraphState} {c c' : Config} {o : Outcome}

/-! ## The state that is left -/

/-- The nodes that persist. -/
def persistingNodes : List Node := [.persistQuizDraft, .persistQuestionPatches]

/-- The nodes that load a context. -/
def loadingNodes : List Node := [.loadGenerationContext, .loadQuizSingleRegenContext]

/-- What a node has left is enough to go on with. -/
def GoesOn (node : Node) (s : GraphState) : Prop :=
  match node with
  | .loadGenerationContext => s.studyMaterialContent = true
  | .qualityCheck =>
    s.qcPassed = true ∨ s.qcFailedPermanently = true ∨ s.qcResult = some .infraError ∨
      s.qcRetryMode ≠ .none
  | .loadQuizSingleRegenContext => s.allQuestions ≠ []
  | .invokeQuizSingleRegenLlm => s.parsedPatches = none ∧ s.hasRaw = true
  | .deterministicValidateQuestionPatches => s.validatedPatches ≠ []
  | _ => node ∉ persistingNodes

/-! ## Runs -/

theorem onTrack_of_reachable {allowed : Config → Event → Prop}
    (hreached : Runs.Reachable (step L) allowed Fresh c) : OnTrack c.resolved c.state := by
  have law : Law fun _ _ => True :=
    ⟨fun _ => trivial, fun _ _ => trivial, fun _ => trivial, fun _ _ _ _ _ => trivial⟩
  have hholds : Holds (fun _ _ => True) c :=
    hreached.invariant (fun _ => law.fresh) fun c e c' h _ hstep =>
      law.step h.1 (fun _ => trivial)
        (fun _ => ⟨fun _ _ _ => trivial, fun _ _ _ => trivial, fun _ _ _ => trivial⟩) hstep
  exact hholds.1

/-- No edge leads back to the loading of the context. -/
theorem visit_ne_load (hentry : c.node ≠ .entryRouter) (hvisit : visit L c o = some c') :
    c'.node ≠ .loadGenerationContext := by
  obtain ⟨node, s⟩ := c
  cases node with
  | entryRouter => exact absurd rfl hentry
  | quizGenerator =>
    cases hvisit
    cases quizGeneratorNode L s o with
    | none => simp [Config.follow]
    | some s' =>
      rw [Config.follow, routeAfterQuizGenerator]
      split_ifs
      all_goals simp
  | deterministicValidate =>
    cases hvisit
    cases deterministicValidateNode L s with
    | none => simp [Config.follow]
    | some s' =>
      rw [Config.follow, routeAfterDeterministicValidate]
      split_ifs
      all_goals simp
  | qualityCheck =>
    cases hvisit
    cases qualityCheckNode L s o with
    | none => simp [Config.follow]
    | some s' =>
      rw [Config.follow, routeAfterQualityCheck]
      split_ifs
      all_goals simp
  | loadGenerationContext =>
    cases hvisit
    rw [Config.follow, routeAfterLoadContext]
    split_ifs
    all_goals simp
  | parseQuizOutput =>
    cases hvisit
    rw [Config.follow, routeAfterParse]
    split_ifs
    all_goals simp
  | invokeQuizSingleRegenLlm =>
    cases hvisit
    rw [Config.follow, routeAfterReworkInvoke]
    split_ifs
    all_goals simp
  | parseQuizSingleRegenOutput =>
    cases hvisit
    rw [Config.follow, routeAfterReworkParse]
    split_ifs
    all_goals simp
  | deterministicValidateQuestionPatches =>
    cases hvisit
    cases deterministicValidateQuestionPatches L s with
    | none => simp [Config.follow]
    | some s' =>
      rw [Config.follow, routeAfterReworkValidate]
      split_ifs
      all_goals simp
  | persistQuizDraft =>
    obtain ⟨-, hnode | hnode⟩ := visit_persistQuizDraft hvisit
    · simp [hnode]
    · simp [hnode]
  | persistQuestionPatches =>
    obtain ⟨-, hnode | hnode⟩ := visit_persistQuestionPatches hvisit
    · simp [hnode]
    · simp [hnode]
  | ended => cases hvisit
  | raised => cases hvisit
  | _ =>
    cases hvisit
    simp [Config.follow]

/-- **Only the loading of the context leads a resumed run back to it.** -/
theorem resume_load (hentry : c.node ≠ .entryRouter) (h : OnTrack c.node c.state)
    (hvisit : visit L c o = some c') (hraised : c'.node ≠ .raised)
    (hload : resolveResumeNextNode c'.state (some c.node) = .loadGenerationContext) :
    c.node = .loadGenerationContext := by
  unfold resolveResumeNextNode at hload
  split_ifs at hload with hrework
  · unfold resolveReworkResumeNextNode at hload
    split at hload
    all_goals try split_ifs at hload
    all_goals cases hload
  · rw [visit_rework hvisit] at hrework
    obtain ⟨node, s⟩ := c
    cases node with
    | loadGenerationContext => rfl
    | entryRouter => exact absurd rfl hentry
    | qualityCheck =>
      cases hvisit
      cases hnext : qualityCheckNode L s o with
      | none =>
        rw [hnext] at hraised
        exact absurd rfl hraised
      | some s' =>
        rw [hnext] at hload
        change resolveGenerateResumeNextNode s' (some .qualityCheck) = _ at hload
        rcases resume_qualityCheck h hnext with hsame | ⟨hagain, -⟩
        · rw [hsame, routeAfterQualityCheck] at hload
          split_ifs at hload
        · rw [hagain] at hload
          cases hload
    | parseQuizOutput => exact h.elim
    | ended => cases hvisit
    | raised => cases hvisit
    | quizGenerator =>
      rw [resolveGenerateResumeNextNode] at hload
      split_ifs at hload
    | deterministicValidate =>
      rw [resolveGenerateResumeNextNode] at hload
      split_ifs at hload
    | loadExistingQuizIfRegenerate => cases hload
    | persistQuizDraft => cases hload
    | _ => exact absurd h hrework

/-- A quiz is loaded after the context only. -/
def ContextFirst (c : Config) : Prop :=
  c.resolved = .loadGenerationContext → c.state.existingQuizQuestions = false

theorem contextFirst_of_reachable {allowed : Config → Event → Prop}
    (hreached : Runs.Reachable (step L) allowed Fresh c) : ContextFirst c := by
  induction hreached with
  | init hfresh =>
    obtain ⟨mode, questionIds, questionCount, rfl⟩ := hfresh
    exact fun _ => rfl
  | @next c c' e hreached _ hstep ih =>
    have htrack := onTrack_of_reachable hreached
    obtain ⟨c₁, hc₁, rfl⟩ := Option.map_eq_some_iff.1 hstep
    by_cases hentry : c.node = .entryRouter
    · rw [if_neg fun hboth => hboth.2.1 hentry]
      obtain ⟨node, s⟩ := c
      dsimp only at hentry
      subst hentry
      cases hc₁
      intro hload
      rw [resolved_of_ne (routeFromEntry_ne s).1] at hload
      exact ih hload
    · rw [resolved_of_ne hentry] at htrack
      split_ifs with hresumes
      · intro hload
        rw [Config.resolved, if_pos rfl] at hload
        have hnode := resume_load hentry htrack hc₁ hresumes.2.2.1 hload
        obtain ⟨node, s⟩ := c
        dsimp only at hnode
        subst hnode
        cases hc₁
        exact ih (resolved_of_ne hentry)
      · intro hload
        have hne := onTrack_ne_entry (onTrack_visit hentry htrack hc₁)
        rw [resolved_of_ne hne] at hload
        exact absurd hload (visit_ne_load hentry hc₁)

/-! ## The two decisions -/

/-- After a quality check with a verdict, the router does without a retry mode only if the quiz
has passed or failed for good. -/
theorem resume_qualityCheck_iff (h : AtQualityCheck s) (hs : qualityCheckNode L s o = some s') :
    resolveGenerateResumeNextNode s' (some .qualityCheck) = routeAfterQualityCheck s' ↔
      GoesOn .qualityCheck s' := by
  constructor
  · intro hsame
    by_contra hstuck
    obtain ⟨hpassed, hpermanent, hresult, hmode⟩ : s'.qcPassed = false ∧
        s'.qcFailedPermanently = false ∧ s'.qcResult ≠ some .infraError ∧
          s'.qcRetryMode = .none := by
      simpa [GoesOn] using hstuck
    have hquiz : s'.validatedQuestions.getD [] ≠ [] := by
      rcases qualityCheck_next h hs with ⟨-, -, rfl⟩ | ⟨hquiz, -, -, ⟨-, rfl, -⟩ |
        ⟨-, -, -, -, -, -, rfl, -⟩⟩
      · cases hpassed
      · exact hquiz
      · exact hquiz
    simp [resolveGenerateResumeNextNode, routeAfterQualityCheck, hpassed, hpermanent,
      hresult, hmode,
      hquiz, QUESTION_GENERATOR_RETRY_MODES, QUESTION_RETRY_MODES] at hsame
  · intro hgoes
    rcases resume_qualityCheck h hs with hsame | ⟨-, hnext, hmode, hquiz, -⟩
    · exact hsame
    · rcases hgoes with hpassed | hpermanent | hresult | hother
      · simp [resolveGenerateResumeNextNode, routeAfterQualityCheck, hpassed]
      · simp [resolveGenerateResumeNextNode, routeAfterQualityCheck, hpermanent]
      · rcases qualityCheck_next h hs with ⟨-, -, rfl⟩ | ⟨-, -, -, ⟨-, rfl, hroute⟩ |
          ⟨v, r, routing, passed, -, -, rfl, -⟩⟩
        · rfl
        · rcases hroute with hroute | ⟨hroute, -⟩
          · rw [hroute] at hnext
            cases hnext
          · rw [hroute] at hnext
            cases hnext
        · simp [GraphState.afterVisit] at hresult
      · exact absurd hmode hother

/-- **Where a resumed run goes on**: where the edges of the graph lead to if and only if the last
node has left enough for it; a node that persists, or has loaded nothing, is run again. -/
theorem resume_follows_iff (hreached : Runs.Reachable (step L) (fun _ _ => True) Fresh c)
    (hentry : c.node ≠ .entryRouter) (hvisit : visit L c o = some c') (hraised : c'.node ≠ .raised)
    (hok : nodeSucceeded c'.state = true) :
    (resolveResumeNextNode c'.state (some c.node) = c'.node ↔ GoesOn c.node c'.state) ∧
      (c.node ∈ persistingNodes ∨ c.node ∈ loadingNodes ∧ ¬ GoesOn c.node c'.state →
        resolveResumeNextNode c'.state (some c.node) = c.node) := by
  have htrack := onTrack_of_reachable hreached
  have hcontext := contextFirst_of_reachable hreached
  rw [ContextFirst, resolved_of_ne hentry] at hcontext
  rw [resolved_of_ne hentry] at htrack
  obtain ⟨herror, hterminal⟩ : c'.state.error = none ∧ c'.state.terminalLlmFailure = false := by
    simpa [nodeSucceeded] using hok
  rw [resolveResumeNextNode, visit_rework hvisit]
  obtain ⟨node, s⟩ := c
  dsimp only at *
  cases node with
  | entryRouter => exact absurd rfl hentry
  | loadGenerationContext =>
    cases hvisit
    rw [if_neg (by simp [Running.generates htrack.toRunning])]
    dsimp only [Config.follow]
    rw [resolveGenerateResumeNextNode, routeAfterLoadContext, GoesOn]
    dsimp only
    rw [hcontext rfl]
    by_cases hmode : s.mode = .regenerate
    · cases o.material with
      | false => simp [persistingNodes, loadingNodes, hmode]
      | true => simp [persistingNodes, loadingNodes, hmode]
    · cases o.material with
      | false => simp [persistingNodes, loadingNodes, hmode]
      | true => simp [persistingNodes, loadingNodes, hmode]
  | loadExistingQuizIfRegenerate =>
    cases hvisit
    rw [if_neg (by simp [Running.generates htrack.toRunning])]
    simp [resolveGenerateResumeNextNode, Config.follow, GoesOn, persistingNodes, loadingNodes]
  | quizGenerator =>
    cases hvisit
    rw [if_neg (by simp [Running.generates htrack.toRunning])]
    cases hnext : quizGeneratorNode L s o with
    | none =>
      rw [hnext] at hraised
      exact absurd rfl hraised
    | some s' =>
      rw [hnext] at hok
      refine ⟨iff_of_true (resume_generator htrack hnext hok)
        (by simp [GoesOn, persistingNodes]), fun hagain => ?_⟩
      simp [persistingNodes, loadingNodes] at hagain
  | deterministicValidate =>
    cases hvisit
    rw [if_neg (by simp [Running.generates htrack.toRunning])]
    cases hnext : deterministicValidateNode L s with
    | none =>
      rw [hnext] at hraised
      exact absurd rfl hraised
    | some s' =>
      refine ⟨iff_of_true rfl (by simp [GoesOn, persistingNodes]), fun hagain => ?_⟩
      simp [persistingNodes, loadingNodes] at hagain
  | qualityCheck =>
    cases hvisit
    rw [if_neg (by simp [Running.generates htrack.toRunning])]
    cases hnext : qualityCheckNode L s o with
    | none =>
      rw [hnext] at hraised
      exact absurd rfl hraised
    | some s' =>
      refine ⟨resume_qualityCheck_iff htrack hnext, fun hagain => ?_⟩
      simp [persistingNodes, loadingNodes] at hagain
  | persistQuizDraft =>
    obtain ⟨-, hnode⟩ := visit_persistQuizDraft hvisit
    have hended : c'.node = .ended := hnode.resolve_right hraised
    rw [if_neg (by simpa [OnTrack] using htrack)]
    exact ⟨iff_of_false (by simp [resolveGenerateResumeNextNode, hended])
      (by simp [GoesOn, persistingNodes]), fun _ => rfl⟩
  | parseQuizOutput => exact htrack.elim
  | loadQuizSingleRegenContext =>
    cases hvisit
    rw [if_pos (show isQuestionReworkRun s = true from htrack)]
    by_cases hquestions : o.existing = []
    · simp [resolveReworkResumeNextNode, GoesOn, hquestions, persistingNodes, loadingNodes]
    · simp [resolveReworkResumeNextNode, GoesOn, hquestions, persistingNodes]
  | buildQuizSingleRegenPrompt =>
    cases hvisit
    rw [if_pos (show isQuestionReworkRun s = true from htrack)]
    simp [resolveReworkResumeNextNode, GoesOn, persistingNodes, loadingNodes]
  | invokeQuizSingleRegenLlm =>
    cases hvisit
    rw [if_pos (show isQuestionReworkRun s = true from htrack)]
    dsimp only [Config.follow] at herror hterminal ⊢
    rw [resolveReworkResumeNextNode, routeAfterReworkInvoke]
    simp only [herror, hterminal, GoesOn, persistingNodes, loadingNodes]
    by_cases hpatches : (invokeQuizSingleRegenLlm s o).parsedPatches = none
    · cases hraw : (invokeQuizSingleRegenLlm s o).hasRaw with
      | false => simp [hpatches]
      | true => simp [hpatches]
    · simp [hpatches]
  | parseQuizSingleRegenOutput =>
    cases hvisit
    rw [if_pos (show isQuestionReworkRun s = true from htrack)]
    dsimp only [Config.follow] at herror hterminal ⊢
    rw [resolveReworkResumeNextNode, routeAfterReworkParse]
    simp [herror, GoesOn, persistingNodes, loadingNodes]
  | deterministicValidateQuestionPatches =>
    cases hvisit
    rw [if_pos (show isQuestionReworkRun s = true from htrack)]
    cases hnext : deterministicValidateQuestionPatches L s with
    | none =>
      rw [hnext] at hraised
      exact absurd rfl hraised
    | some s' =>
      rw [hnext] at herror
      dsimp only [Config.follow] at herror ⊢
      rw [resolveReworkResumeNextNode, routeAfterReworkValidate]
      by_cases hpatches : s'.validatedPatches = []
      · simp [herror, hpatches, GoesOn, persistingNodes, loadingNodes]
      · simp [herror, hpatches, GoesOn, persistingNodes, loadingNodes]
  | persistQuestionPatches =>
    rw [if_pos (show isQuestionReworkRun s = true from htrack)]
    have hnext : c'.node ≠ .persistQuestionPatches := by
      rcases (visit_persistQuestionPatches hvisit).2 with hnode | hnode
      · rw [hnode]
        decide
      · rw [hnode]
        decide
    exact ⟨iff_of_false (fun h => hnext h.symm) (by simp [GoesOn, persistingNodes]), fun _ => rfl⟩
  | ended => cases hvisit
  | raised => cases hvisit

/-- The quality check of a sound quiz, and what follows it. -/
theorem checked_goes_on :
    ∃ c c' : Config, (Runs.Reachable (step plainLibrary) (fun _ _ => True) Fresh c ∧
        c.node = .qualityCheck ∧ GoesOn c.node c'.state) ∧
      resolveResumeNextNode c'.state (some c.node) = c'.node := by
  have hrun : generated plainLibrary 2 toFirstCheck = some _ := rfl
  refine ⟨_, _, ⟨reachable_of_generated hrun, rfl, ?_⟩,
    (resume_follows_iff (reachable_of_generated hrun) (by decide)
      (o := (verifying bothReply).outcome) rfl (by decide) rfl).1.2 ?_⟩
  · exact .inl rfl
  · exact .inl rfl

/-- A quiz whose ids are read by `UUID`, its check, and its persist. -/
def storableQuiz : List Event :=
  [{}, {}, generating
      [itemFor "00000000-0000-4000-8000-000000000001" "What do plants take in?" "A",
        itemFor "00000000-0000-4000-8000-000000000002" "What do cells burn?" "A"], {},
    verifying (replyWith
      [resultFor "00000000-0000-4000-8000-000000000001" true true,
        resultFor "00000000-0000-4000-8000-000000000002" true true] "none")]

/-- After a quiz is persisted, a resumed run persists it again, where the edges lead to the end. -/
theorem persisted_again :
    ∃ c o c', Runs.Reachable (step plainLibrary) (fun _ _ => True) Fresh c ∧
      c.node = .persistQuizDraft ∧ visit plainLibrary c o = some c' ∧ c'.node = .ended ∧
      nodeSucceeded c'.state = true ∧
      resolveResumeNextNode c'.state (some c.node) ≠ c'.node := by
  have hrun : generated plainLibrary 2 storableQuiz = some _ := rfl
  refine ⟨_, {}, _, reachable_of_generated hrun, rfl, rfl, rfl, ?_, ?_⟩
  · exact rfl
  · exact by decide

end StudyAgent.Quiz
