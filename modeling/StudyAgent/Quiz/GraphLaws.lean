import StudyAgent.Quiz.Graph

/-!
# What the nodes of the quiz graph do

Each node of the loop returns one of a few states.  The laws here say which, under which
conditions, and when a node raises, so that what a run keeps can be proved without looking into
the nodes again.

Main results:

* `quizGenerator_cases`, `deterministicValidate_cases`, `qualityCheck_cases` — **what a visit
  returns**.
* `quizGenerator_eq_none`, `deterministicValidate_eq_none`, `qualityCheck_eq_none`,
  `persistQuizDraft_eq_none` — **when it raises**.
-/

namespace StudyAgent.Quiz

open Py

variable {L : Library} {s s' : GraphState} {o : Outcome}

/-- The nodes of the loop. -/
def loopNodes : List Node := [.quizGenerator, .deterministicValidate, .qualityCheck]

/-! ## Generator replies -/

/-- A reply is read into questions. -/
def ReadsAs (L : Library) (reply : LlmReply) (freshId : ℕ → String) (text : LlmText)
    (questions : List Question) : Prop :=
  reply = .content text ∧
    ∃ items, text = .items items ∧ normalizeParsedItems L freshId items = .ok questions

/-- A reply is an array with an element that is no question. -/
def MalformedItems (reply : LlmReply) : Prop :=
  ∃ items, reply = .content (.items items) ∧ ¬ Readable items

theorem callAndParse_cases {generationType : String} {reply : LlmReply} {freshId : ℕ → String}
    {result : Except GraphState (List Question × LlmText)}
    (h : callAndParseQuestions L s generationType reply freshId = some result) :
    (∃ s', result = .error s' ∧ (s' = s.terminalFailure ∨ ∃ e raw, s' = s.aborted e raw)) ∨
      ∃ questions text, result = .ok (questions, text) ∧
        ReadsAs L reply freshId text questions := by
  cases reply with
  | failed =>
    cases h
    exact .inl ⟨_, rfl, .inl rfl⟩
  | content text =>
    cases text with
    | empty =>
      cases h
      exact .inl ⟨_, rfl, .inr ⟨_, _, rfl⟩⟩
    | malformed exc =>
      cases h
      exact .inl ⟨_, rfl, .inr ⟨_, _, rfl⟩⟩
    | vague message =>
      cases h
      exact .inl ⟨_, rfl, .inr ⟨_, _, rfl⟩⟩
    | items l =>
      simp only [callAndParseQuestions, LlmText.read, parseJsonArray] at h
      cases hparse : normalizeParsedItems L freshId l with
      | error e =>
        rw [hparse] at h
        cases h
      | ok questions =>
        rw [hparse] at h
        cases h
        exact .inr ⟨questions, _, rfl, rfl, l, rfl, hparse⟩

variable (L s) in
theorem callAndParse_eq_none {generationType : String} {reply : LlmReply} (freshId : ℕ → String) :
    callAndParseQuestions L s generationType reply freshId = none ↔ MalformedItems reply := by
  cases reply with
  | failed => exact iff_of_false (fun h => by cases h) (by simp [MalformedItems])
  | content text =>
    cases text with
    | empty => exact iff_of_false (fun h => by cases h) (by simp [MalformedItems])
    | malformed exc => exact iff_of_false (fun h => by cases h) (by simp [MalformedItems])
    | vague message => exact iff_of_false (fun h => by cases h) (by simp [MalformedItems])
    | items l =>
      simp only [callAndParseQuestions, LlmText.read, parseJsonArray]
      cases hparse : normalizeParsedItems L freshId l with
      | error e =>
        refine iff_of_true rfl ⟨l, rfl, fun hread => ?_⟩
        have hok : normalizeParsedItems L freshId l = .ok _ :=
          normalizeParsedItems_eq_ok.2 ⟨hread, rfl⟩
        rw [hparse] at hok
        cases hok
      | ok questions =>
        refine iff_of_false (by simp) ?_
        rintro ⟨items, heq, hnot⟩
        cases heq
        exact hnot (normalizeParsedItems_eq_ok.1 hparse).1

/-! ## The generator -/

/-- The next thing to do is to cut the quiz down. -/
def Pruning (s : GraphState) : Prop :=
  s.qcRetryMode = .questionPrune ∧ s.questionCount < s.current.length

instance (s : GraphState) : Decidable (Pruning s) :=
  inferInstanceAs (Decidable (_ ∧ _))

/-- What a surgical retry gathers. -/
inductive Retried (L : Library) (s : GraphState) (o : Outcome) : Retry → Prop
  | patch {patches : List Question} {text : LlmText} :
      s.qcRetryMode = .questionPatch → ReadsAs L o.generated o.freshId text patches →
      Retried L s o
        { merged := prepareQuestionPatchesForMerge s.current patches s.qcReverifyQuestionIds
          fixed := (prepareQuestionPatchesForMerge s.current patches
            s.qcReverifyQuestionIds).filter fun q => q.id ∈ s.appliedIds
          raw := some text }
  | insert {new : List Question} {text : LlmText} :
      s.qcRetryMode = .questionInsert → ReadsAs L o.inserted o.insertedId text new →
      Retried L s o
        { merged := insertQuestions s.current new o.newId
          fixed := new
          raw := some text }
  | patchThenInsert {patches new : List Question} {text text' : LlmText} :
      s.qcRetryMode = .questionPatchThenInsert → ReadsAs L o.generated o.freshId text patches →
      ReadsAs L o.inserted o.insertedId text' new →
      Retried L s o
        { merged := insertQuestions
            (prepareQuestionPatchesForMerge s.current patches s.qcReverifyQuestionIds) new o.newId
          fixed := ((prepareQuestionPatchesForMerge s.current patches
            s.qcReverifyQuestionIds).filter fun q => q.id ∈ s.appliedIds) ++ new
          raw := some text' }

theorem runQuestionRetry_cases (hmode : s.qcRetryMode ∈ QUESTION_RETRY_MODES)
    (h : runQuestionRetry L s o = some s') :
    s' = s.terminalFailure ∨ (∃ e raw, s' = s.aborted e raw) ∨
      s.current ≠ [] ∧ ∃ retry, Retried L s o retry ∧ s' = s.afterRetry retry := by
  rw [runQuestionRetry] at h
  by_cases hcurrent : s.current = []
  · rw [if_pos hcurrent] at h
    cases h
    exact .inr (.inl ⟨_, _, rfl⟩)
  · rw [if_neg hcurrent] at h
    obtain ⟨patched, hpatch, h⟩ := Option.bind_eq_some_iff.1 h
    have hstop : ∀ {s'' : GraphState},
        (s'' = s.terminalFailure ∨ ∃ e raw, s'' = s.aborted e raw) → s' = s'' →
        s' = s.terminalFailure ∨ (∃ e raw, s' = s.aborted e raw) ∨
          s.current ≠ [] ∧ ∃ retry, Retried L s o retry ∧ s' = s.afterRetry retry := by
      rintro s'' hwhy rfl
      rcases hwhy with hwhy | hwhy
      · exact .inl hwhy
      · exact .inr (.inl hwhy)
    simp only [QUESTION_RETRY_MODES, List.mem_cons, List.not_mem_nil, or_false] at hmode
    rcases hmode with hmode | hmode | hmode
    · rw [patchStage, if_pos (.inl hmode)] at hpatch
      obtain ⟨result, hcall, rfl⟩ := Option.map_eq_some_iff.1 hpatch
      rcases callAndParse_cases hcall with ⟨s'', rfl, hwhy⟩ | ⟨patches, text, rfl, hreads⟩
      · exact hstop hwhy (Option.some.inj h).symm
      · rw [Except.map] at h
        dsimp only at h
        rw [insertStage, if_neg (by simp [hmode])] at h
        exact .inr (.inr ⟨hcurrent, _, .patch hmode hreads, (Option.some.inj h).symm⟩)
    · rw [patchStage, if_neg (by simp [hmode])] at hpatch
      cases hpatch
      dsimp only at h
      rw [insertStage, if_pos (.inl hmode)] at h
      obtain ⟨result, hinsert, rfl⟩ := Option.map_eq_some_iff.1 h
      obtain ⟨result, hcall, rfl⟩ := Option.map_eq_some_iff.1 hinsert
      rcases callAndParse_cases hcall with ⟨s'', rfl, hwhy⟩ | ⟨new, text, rfl, hreads⟩
      · exact hstop hwhy rfl
      · exact .inr (.inr ⟨hcurrent, _, .insert hmode hreads, rfl⟩)
    · rw [patchStage, if_pos (.inr hmode)] at hpatch
      obtain ⟨result, hcall, rfl⟩ := Option.map_eq_some_iff.1 hpatch
      rcases callAndParse_cases hcall with ⟨s'', rfl, hwhy⟩ | ⟨patches, text, rfl, hreads⟩
      · exact hstop hwhy (Option.some.inj h).symm
      · rw [Except.map] at h
        dsimp only at h
        rw [insertStage, if_pos (.inr hmode)] at h
        obtain ⟨result, hinsert, rfl⟩ := Option.map_eq_some_iff.1 h
        obtain ⟨result, hcall', rfl⟩ := Option.map_eq_some_iff.1 hinsert
        rcases callAndParse_cases hcall' with ⟨s'', rfl, hwhy⟩ | ⟨new, text', rfl, hreads'⟩
        · exact hstop hwhy rfl
        · exact .inr (.inr ⟨hcurrent, _, .patchThenInsert hmode hreads hreads', rfl⟩)

/-- **What the generator returns.** -/
theorem quizGenerator_cases (h : quizGeneratorNode L s o = some s') :
    s' = s.terminalFailure ∨ (∃ e raw, s' = s.aborted e raw) ∨
      (s.qcRetryMode = .questionPrune ∧ s.current ≠ [] ∧ 0 < s.questionCount ∧
        s.current.length ≤ s.questionCount ∧ s' = s.afterNoPrune) ∨
      (s.qcRetryMode = .questionPrune ∧ 0 < s.questionCount ∧
        s.questionCount < s.current.length ∧ s' = s.afterPrune
          (prunedQuestions s.current s.questionCount s.qcReverifyQuestionIds o.pruned)) ∨
      (s.qcRetryMode ∈ QUESTION_RETRY_MODES ∧ s.current ≠ [] ∧
        ∃ retry, Retried L s o retry ∧ s' = s.afterRetry retry) ∨
      (s.qcRetryMode = .fullRegeneration ∨ s.qcRetryMode = .none) ∧
        ∃ text parsed, o.generated = .content text ∧
          parseQuiz L text s.questionCount o.freshId = .ok parsed ∧
          s' = s.afterGeneration text parsed := by
  rw [quizGeneratorNode] at h
  by_cases hprune : s.qcRetryMode = .questionPrune
  · rw [if_pos hprune, runQuestionPrune] at h
    split_ifs at h with hcurrent hcount hlength
    · exact .inr (.inl ⟨_, _, (Option.some.inj h).symm⟩)
    · exact .inr (.inl ⟨_, _, (Option.some.inj h).symm⟩)
    · exact .inr (.inr (.inl ⟨hprune, hcurrent, Nat.pos_of_ne_zero hcount, hlength,
        (Option.some.inj h).symm⟩))
    · exact .inr (.inr (.inr (.inl ⟨hprune, Nat.pos_of_ne_zero hcount, Nat.lt_of_not_le hlength,
        (Option.some.inj h).symm⟩)))
  · rw [if_neg hprune] at h
    by_cases hretry : s.qcRetryMode ∈ QUESTION_RETRY_MODES
    · rw [if_pos hretry] at h
      rcases runQuestionRetry_cases hretry h with hstop | hstop | ⟨hcurrent, hretried⟩
      · exact .inl hstop
      · exact .inr (.inl hstop)
      · exact .inr (.inr (.inr (.inr (.inl ⟨hretry, hcurrent, hretried⟩))))
    · rw [if_neg hretry, generateQuiz] at h
      have hmode : s.qcRetryMode = .fullRegeneration ∨ s.qcRetryMode = .none := by
        cases hm : s.qcRetryMode with
        | fullRegeneration => exact .inl rfl
        | none => exact .inr rfl
        | questionPrune => exact absurd hm hprune
        | questionPatch => exact absurd (by simp [hm, QUESTION_RETRY_MODES]) hretry
        | questionInsert => exact absurd (by simp [hm, QUESTION_RETRY_MODES]) hretry
        | questionPatchThenInsert => exact absurd (by simp [hm, QUESTION_RETRY_MODES]) hretry
      cases hreply : o.generated with
      | failed =>
        rw [hreply] at h
        exact .inl (Option.some.inj h).symm
      | content text =>
        rw [hreply] at h
        dsimp only at h
        cases hparse : parseQuiz L text s.questionCount o.freshId with
        | error exc =>
          rw [hparse] at h
          exact .inr (.inl ⟨_, _, (Option.some.inj h).symm⟩)
        | ok parsed =>
          rw [hparse] at h
          exact .inr (.inr (.inr (.inr (.inr ⟨hmode, text, parsed, rfl, hparse,
            (Option.some.inj h).symm⟩))))

theorem routeAfterQuizGenerator_aborted (h : s.terminalLlmFailure = false) (error : String)
    (raw : Option LlmText) : routeAfterQuizGenerator (s.aborted error raw) = .ended := by
  simp [routeAfterQuizGenerator, GraphState.aborted, h]

theorem routeAfterQuizGenerator_afterPrune (pruned : List Question) :
    routeAfterQuizGenerator (s.afterPrune pruned) = .persistQuizDraft := by
  simp [routeAfterQuizGenerator, GraphState.afterPrune]

theorem routeAfterQuizGenerator_afterRetry (hterminal : s.terminalLlmFailure = false)
    (hpresent : s.presentWithoutQc = false) (retry : Retry) :
    routeAfterQuizGenerator (s.afterRetry retry) = .deterministicValidate := by
  simp [routeAfterQuizGenerator, GraphState.afterRetry, hterminal, hpresent]

theorem routeAfterQuizGenerator_afterGeneration (hterminal : s.terminalLlmFailure = false)
    (hpresent : s.presentWithoutQc = false) (herror : s.error = none) (text : LlmText)
    (parsed : List Question) :
    routeAfterQuizGenerator (s.afterGeneration text parsed) = .deterministicValidate := by
  simp [routeAfterQuizGenerator, GraphState.afterGeneration, hterminal, hpresent, herror]

/-- The replies of a surgical retry on which it raises. -/
def RetryRaises (L : Library) (s : GraphState) (o : Outcome) : Prop :=
  s.current ≠ [] ∧
    ((s.qcRetryMode = .questionPatch ∨ s.qcRetryMode = .questionPatchThenInsert) ∧
        MalformedItems o.generated ∨
      s.qcRetryMode = .questionInsert ∧ MalformedItems o.inserted ∨
      s.qcRetryMode = .questionPatchThenInsert ∧
        (∃ text patches, ReadsAs L o.generated o.freshId text patches) ∧
        MalformedItems o.inserted)

/-- **When the generator raises.** -/
theorem quizGenerator_eq_none : quizGeneratorNode L s o = none ↔ RetryRaises L s o := by
  rw [quizGeneratorNode]
  by_cases hretry : s.qcRetryMode ∈ QUESTION_RETRY_MODES
  · have hprune : s.qcRetryMode ≠ .questionPrune := by
      intro hprune
      rw [hprune] at hretry
      simp [QUESTION_RETRY_MODES] at hretry
    rw [if_neg hprune, if_pos hretry, runQuestionRetry, RetryRaises]
    by_cases hcurrent : s.current = []
    · rw [if_pos hcurrent]
      exact iff_of_false (by simp) fun h => h.1 hcurrent
    · rw [if_neg hcurrent, and_iff_right hcurrent]
      simp only [QUESTION_RETRY_MODES, List.mem_cons, List.not_mem_nil, or_false] at hretry
      rcases hretry with hmode | hmode | hmode
      · rw [patchStage, if_pos (.inl hmode)]
        simp only [hmode, true_and, reduceCtorEq, false_and, or_false]
        rw [← callAndParse_eq_none L s o.freshId]
        cases hcall : callAndParseQuestions L s "question_patch" o.generated o.freshId with
        | none => exact iff_of_true rfl rfl
        | some result =>
          refine iff_of_false ?_ (by simp)
          cases result with
          | error payload =>
            intro hnone
            cases hnone
          | ok p => simp [Except.map, insertStage, hmode]
      · rw [patchStage, if_neg (by simp [hmode])]
        simp only [hmode, true_and, reduceCtorEq, or_false, false_or, false_and]
        rw [Option.bind_some]
        dsimp only
        rw [insertStage, if_pos (.inl hmode), Option.map_map, Option.map_eq_none_iff]
        exact callAndParse_eq_none L s _
      · rw [patchStage, if_pos (.inr hmode)]
        simp only [hmode, or_true, true_and, reduceCtorEq, false_and, false_or]
        cases hcall : callAndParseQuestions L s "question_patch" o.generated o.freshId with
        | none => exact iff_of_true rfl (.inl ((callAndParse_eq_none L s _).1 hcall))
        | some result =>
          have hwell : ¬ MalformedItems o.generated := fun hbad => by
            rw [(callAndParse_eq_none L s _).2 hbad] at hcall
            cases hcall
          rcases callAndParse_cases hcall with ⟨payload, rfl, -⟩ | ⟨patches, text, rfl, hreads⟩
          · refine iff_of_false (fun hnone => by cases hnone) ?_
            rintro (hbad | ⟨⟨text, patches, hreads⟩, -⟩)
            · exact hwell hbad
            · obtain ⟨hreply, items, rfl, hparse⟩ := hreads
              rw [hreply] at hcall
              simp [callAndParseQuestions, LlmText.read, parseJsonArray, hparse] at hcall
          · rw [Option.map_some, Option.bind_some, Except.map]
            dsimp only
            rw [insertStage, if_pos (.inr hmode), Option.map_map, Option.map_eq_none_iff,
              callAndParse_eq_none]
            exact ⟨fun hbad => .inr ⟨⟨text, patches, hreads⟩, hbad⟩,
              fun h => (h.resolve_left hwell).2⟩
  · rw [if_neg hretry]
    refine iff_of_false (by split_ifs <;> simp) ?_
    rintro ⟨-, ⟨hmode | hmode, -⟩ | ⟨hmode, -⟩ | ⟨hmode, -⟩⟩
    all_goals exact hretry (by simp [hmode, QUESTION_RETRY_MODES])

/-! ## Parsing -/

/-- What the parser returns. -/
theorem parseQuizOutput_cases (L : Library) (s : GraphState) (o : Outcome) :
    (s.parsedQuestions ≠ none ∧ parseQuizOutput L s o = s) ∨
      s.parsedQuestions = none ∧
        ((∃ e, parseQuizOutput L s o = { s with error := some e }) ∨
          ∃ parsed, parseQuizOutput L s o = { s with parsedQuestions := some parsed }) := by
  rw [parseQuizOutput]
  by_cases hparsed : s.parsedQuestions = none
  · rw [if_neg (not_not.2 hparsed)]
    refine .inr ⟨hparsed, ?_⟩
    rcases s.rawLlmOutput with _ | _ | exc | message | items
    · exact .inl ⟨_, rfl⟩
    · exact .inl ⟨_, rfl⟩
    all_goals
      dsimp only
      split
      · exact .inl ⟨_, rfl⟩
      · exact .inr ⟨_, rfl⟩
  · exact .inl ⟨hparsed, if_pos hparsed⟩

theorem parseQuizSingleRegenOutput_eq (L : Library) (s : GraphState) (o : Outcome) :
    ∃ e patches, parseQuizSingleRegenOutput L s o =
      { s with error := e, parsedPatches := patches } := by
  rw [parseQuizSingleRegenOutput]
  by_cases hpatches : s.parsedPatches = none
  · rw [if_neg (not_not.2 hpatches)]
    rcases s.rawLlmOutput with _ | _ | exc | message | items
    · exact ⟨_, _, rfl⟩
    · exact ⟨_, _, rfl⟩
    · exact ⟨_, _, rfl⟩
    · exact ⟨_, _, rfl⟩
    · dsimp only
      split
      · exact ⟨_, _, rfl⟩
      · split_ifs
        · exact ⟨_, _, rfl⟩
        · exact ⟨_, _, rfl⟩
  · exact ⟨_, _, if_pos hpatches⟩

/-! ## The validator -/

section

variable (s : GraphState) (parsed : List Question) (det : List Check)

@[simp]
theorem afterStructuralFailure_genAttempt :
    (s.afterStructuralFailure parsed det).genAttempt = s.genAttempt + 1 := by
  rw [GraphState.afterStructuralFailure, apply_ite GraphState.genAttempt, ite_self]

@[simp]
theorem afterStructuralFailure_qcAttempt :
    (s.afterStructuralFailure parsed det).qcAttempt = s.qcAttempt := by
  rw [GraphState.afterStructuralFailure, apply_ite GraphState.qcAttempt, ite_self]

@[simp]
theorem afterStructuralFailure_pruneAttempt :
    (s.afterStructuralFailure parsed det).pruneAttempt = s.pruneAttempt := by
  rw [GraphState.afterStructuralFailure, apply_ite GraphState.pruneAttempt, ite_self]

@[simp]
theorem afterStructuralFailure_structValidationPassed :
    (s.afterStructuralFailure parsed det).structValidationPassed = false := by
  rw [GraphState.afterStructuralFailure, apply_ite GraphState.structValidationPassed, ite_self]

/-- The last attempt fails for good. -/
theorem afterStructuralFailure_last (h : MAX_GEN_ATTEMPTS ≤ s.genAttempt + 1) :
    (s.afterStructuralFailure parsed det).qcFailedPermanently = true := by
  rw [GraphState.afterStructuralFailure, if_pos h]

@[simp]
theorem afterStructuralPass_genAttempt :
    (s.afterStructuralPass parsed).genAttempt = s.genAttempt := by
  rw [GraphState.afterStructuralPass, apply_ite GraphState.genAttempt, ite_self]

@[simp]
theorem afterStructuralPass_qcAttempt : (s.afterStructuralPass parsed).qcAttempt = s.qcAttempt := by
  rw [GraphState.afterStructuralPass, apply_ite GraphState.qcAttempt, ite_self]

@[simp]
theorem afterStructuralPass_pruneAttempt :
    (s.afterStructuralPass parsed).pruneAttempt = s.pruneAttempt := by
  rw [GraphState.afterStructuralPass, apply_ite GraphState.pruneAttempt, ite_self]

@[simp]
theorem afterStructuralPass_structValidationPassed :
    (s.afterStructuralPass parsed).structValidationPassed = true := by
  rw [GraphState.afterStructuralPass, apply_ite GraphState.structValidationPassed, ite_self]

@[simp]
theorem afterStructuralPass_validatedQuestions :
    (s.afterStructuralPass parsed).validatedQuestions = some parsed := by
  rw [GraphState.afterStructuralPass, apply_ite GraphState.validatedQuestions, ite_self]

end

/-- **What the validator returns.** -/
theorem deterministicValidate_cases (h : deterministicValidateNode L s = some s') :
    (Sound (s.parsedQuestions.getD []) s.questionCount ∧
        s' = s.afterStructuralPass (s.parsedQuestions.getD [])) ∨
      ¬ Sound (s.parsedQuestions.getD []) s.questionCount ∧
        ((s.questionCount < (s.parsedQuestions.getD []).length ∧
            (1 ≤ s.pruneAttempt ∨ s.presentWithoutQc = true) ∧
            s' = s.afterFallbackPrune (s.parsedQuestions.getD [])) ∨
          (s.questionCount < (s.parsedQuestions.getD []).length ∧ s.pruneAttempt = 0 ∧
            s.presentWithoutQc = false ∧ s' = s.toPrune) ∨
          (s.parsedQuestions.getD []).length ≤ s.questionCount ∧
            ∃ det, s' = s.afterStructuralFailure (s.parsedQuestions.getD []) det) := by
  obtain ⟨det, hdet, rfl⟩ := Option.map_eq_some_iff.1 h
  by_cases hfailed : extractFailedChecks det = []
  · rw [if_pos hfailed]
    exact .inl ⟨failedChecks_runDeterministicQuizChecks.1 ⟨det, hdet, hfailed⟩, rfl⟩
  · rw [if_neg hfailed]
    refine .inr ⟨fun hsound => ?_, ?_⟩
    · obtain ⟨det', hdet', hnone⟩ := failedChecks_runDeterministicQuizChecks.2 hsound
      rw [hdet] at hdet'
      cases hdet'
      exact hfailed hnone
    · split_ifs with hover hpruned
      · exact .inl ⟨hover, hpruned, rfl⟩
      · rw [not_or, Nat.not_le, Nat.lt_one_iff, Bool.not_eq_true] at hpruned
        exact .inr (.inl ⟨hover, hpruned.1, hpruned.2, rfl⟩)
      · exact .inr (.inr ⟨Nat.le_of_not_lt hover, det, rfl⟩)

theorem deterministicValidate_eq_none : deterministicValidateNode L s = none ↔
    ∃ q ∈ s.parsedQuestions.getD [], isContainer q.correctOption = true := by
  rw [deterministicValidateNode, Option.map_eq_none_iff, runDeterministicQuizChecks_eq_none]

/-! ## The quality check -/

/-- A visit that verifies nothing. -/
def SkipsQc (s : GraphState) : Prop :=
  s.terminalLlmFailure = true ∨ s.error ≠ none ∨ s.validatedQuestions.getD [] = []

instance (s : GraphState) : Decidable (SkipsQc s) :=
  inferInstanceAs (Decidable (_ ∨ _))

/-- **What the quality check returns.** -/
theorem qualityCheck_cases (h : qualityCheckNode L s o = some s') :
    (SkipsQc s ∧ (s' = { s with qcPassed := true } ∨
        s' = { s with qcPassed := true, qcResult := none, qcFailedPermanently := false })) ∨
      ¬ SkipsQc s ∧ ∃ det,
        runDeterministicQuizChecks L (s.validatedQuestions.getD []) s.questionCount = some det ∧
        ((verificationPass L s o.verified = none ∧ s' = s.afterInfraFailure) ∨
          ∃ v r routing passed, verificationPass L s o.verified = some v ∧
            visitResult L s v det = some (r, routing, passed) ∧
            s' = s.afterVisit r routing passed) := by
  rw [qualityCheckNode] at h
  split_ifs at h with hterminal hempty
  · exact .inl ⟨.inl hterminal, .inl (Option.some.inj h).symm⟩
  · exact .inl ⟨.inr hempty, .inr (Option.some.inj h).symm⟩
  · refine .inr ⟨not_or.2 ⟨hterminal, hempty⟩, ?_⟩
    obtain ⟨det, hdet, h⟩ := Option.bind_eq_some_iff.1 h
    refine ⟨det, hdet, ?_⟩
    cases hpass : verificationPass L s o.verified with
    | none =>
      rw [hpass] at h
      exact .inl ⟨rfl, (Option.some.inj h).symm⟩
    | some v =>
      rw [hpass] at h
      obtain ⟨⟨r, routing, passed⟩, hvisit, rfl⟩ := Option.map_eq_some_iff.1 h
      exact .inr ⟨v, r, routing, passed, rfl, hvisit, rfl⟩

/-- What a visit makes of its reply. -/
theorem visitResult_eq_some {v : Verification} {det : List Check} {r : QcResult}
    {routing : Routing} {passed : Bool} (h : visitResult L s v det = some (r, routing, passed)) :
    buildFinalQuizQcResult (some { v with checks := mergedChecks s v.checks }) det = some r ∧
      classifyQuizRetryRouting L r (s.validatedQuestions.getD []) = some routing ∧
      isQuizQcDeliverable r = some passed := by
  obtain ⟨r', hbuild, h⟩ := Option.bind_eq_some_iff.1 h
  obtain ⟨routing', hclassify, h⟩ := Option.bind_eq_some_iff.1 h
  obtain ⟨passed', hdeliverable, h⟩ := Option.bind_eq_some_iff.1 h
  obtain ⟨_, -, h⟩ := Option.map_eq_some_iff.1 h
  cases h
  exact ⟨hbuild, hclassify, hdeliverable⟩

/-- The checks of the result that a visit builds. -/
def builtChecks (s : GraphState) (v : Verification) (det : List Check) : List Check :=
  det ++ (mergedChecks s v.checks).filter fun c => c.id ∉ det.map Check.id

/-- What a visit reads and cannot iterate or evaluate. -/
def VisitRaises (L : Library) (s : GraphState) (v : Verification) (det : List Check) : Prop :=
  v.issues = none ∨ missingConceptsFromRecommendation v.retryRecommendation.join = none ∨
    ∃ c ∈ builtChecks s v det, c.category = .duplicateOverlap ∧ c.passed = false ∧
      parseCoverageFromEvidence L c.evidence = none

theorem buildFinal_eq_none {v : Verification} {det : List Check} :
    buildFinalQuizQcResult (some { v with checks := mergedChecks s v.checks }) det = none ↔
      v.issues = none := Option.map_eq_none_iff

/-- A failed check can be routed iff the concepts of both sources are read. -/
theorem classify_eq_none {r : QcResult} (questions : List Question) {concepts : List String}
    (hconcepts : missingConceptsFromRecommendation r.retryRecommendation = some concepts) :
    classifyQuizRetryRouting L r questions = none ↔
      ∃ c ∈ r.checks, c.category = .duplicateOverlap ∧ c.passed = false ∧
        parseCoverageFromEvidence L c.evidence = none := by
  have hread : missingConceptsFromQc L (extractFailedChecks r.checks) = none ↔
      ∃ c ∈ r.checks, c.category = .duplicateOverlap ∧ c.passed = false ∧
        parseCoverageFromEvidence L c.evidence = none := by
    simp only [missingConceptsFromQc_eq_none, mem_extractFailedChecks]
    exact exists_congr fun c => ⟨fun h => ⟨h.1.1, h.2⟩, fun h => ⟨⟨h.1, h.2.2.1⟩, h.2⟩⟩
  rw [classifyQuizRetryRouting, routedConcepts, hconcepts, failedChecks_eq]
  by_cases hfailed : extractFailedChecks r.checks = []
  · rw [if_pos hfailed]
    refine iff_of_false (by simp) ?_
    rintro ⟨c, hc, -, hfails, -⟩
    have hmem := mem_extractFailedChecks.2 ⟨hc, hfails⟩
    rw [hfailed] at hmem
    cases hmem
  · rw [if_neg hfailed, Option.map_some]
    rw [← hread]
    cases missingConceptsFromQc L (extractFailedChecks r.checks) with
    | none => exact iff_of_true rfl rfl
    | some fromQc => exact iff_of_false (by simp) (by simp)

theorem visitResult_eq_none {v : Verification} {det : List Check} :
    visitResult L s v det = none ↔ VisitRaises L s v det := by
  rw [visitResult, VisitRaises]
  cases hbuild : buildFinalQuizQcResult
      (some { v with checks := mergedChecks s v.checks }) det with
  | none => exact iff_of_true rfl (.inl (buildFinal_eq_none.1 hbuild))
  | some r =>
    have hissues : v.issues ≠ none := by
      intro hnone
      rw [buildFinal_eq_none.2 hnone] at hbuild
      cases hbuild
    obtain ⟨hchecks, -, hrec⟩ := buildFinalQuizQcResult_eq_some hbuild
    dsimp only at hchecks hrec
    rw [Option.bind_some, builtChecks, ← hchecks, ← hrec]
    simp only [hissues, false_or]
    cases hconcepts : missingConceptsFromRecommendation r.retryRecommendation with
    | none =>
      refine iff_of_true ?_ (.inl rfl)
      rw [Option.bind_eq_none_iff]
      intro routing _
      rw [Option.bind_eq_none_iff]
      exact fun passed _ => rfl
    | some concepts =>
      simp only [reduceCtorEq, false_or]
      have hdeliverable : ∃ passed, isQuizQcDeliverable r = some passed := by
        rw [isQuizQcDeliverable, hconcepts]
        split_ifs
        all_goals exact ⟨_, rfl⟩
      obtain ⟨passed, hpassed⟩ := hdeliverable
      rw [← classify_eq_none (s.validatedQuestions.getD []) hconcepts]
      cases classifyQuizRetryRouting L r (s.validatedQuestions.getD []) with
      | none => exact iff_of_true rfl rfl
      | some routing =>
        rw [Option.bind_some, hpassed]
        exact iff_of_false (by simp) (by simp)

/-- **When the quality check raises.** -/
theorem qualityCheck_eq_none : qualityCheckNode L s o = none ↔
    ¬ SkipsQc s ∧ ((∃ q ∈ s.validatedQuestions.getD [], isContainer q.correctOption = true) ∨
      ∃ det v,
        runDeterministicQuizChecks L (s.validatedQuestions.getD []) s.questionCount = some det ∧
        verificationPass L s o.verified = some v ∧ VisitRaises L s v det) := by
  rw [qualityCheckNode]
  split_ifs with hterminal hempty
  · exact iff_of_false (by simp) fun h => h.1 (.inl hterminal)
  · exact iff_of_false (by simp) fun h => h.1 (.inr hempty)
  · rw [and_iff_right (show ¬ SkipsQc s from not_or.2 ⟨hterminal, hempty⟩)]
    cases hdet : runDeterministicQuizChecks L (s.validatedQuestions.getD []) s.questionCount with
    | none => exact iff_of_true rfl (.inl (runDeterministicQuizChecks_eq_none.1 hdet))
    | some det =>
      have hplain : ¬ ∃ q ∈ s.validatedQuestions.getD [], isContainer q.correctOption = true := by
        intro hbad
        rw [runDeterministicQuizChecks_eq_none.2 hbad] at hdet
        cases hdet
      rw [Option.bind_some]
      cases hpass : verificationPass L s o.verified with
      | none =>
        refine iff_of_false (by simp) ?_
        rintro (hbad | ⟨_, _, -, hv, -⟩)
        · exact hplain hbad
        · cases hv
      | some v =>
        simp only [Option.map_eq_none_iff, visitResult_eq_none, hplain, false_or,
          Option.some.injEq]
        constructor
        · exact fun h => ⟨det, v, rfl, rfl, h⟩
        · rintro ⟨_, _, rfl, rfl, h⟩
          exact h

/-! ## Persisting -/

/-- The rows of questions cannot be inserted: an id is a text that `UUID` does not read, two ids
are read as one, or a field does not fit its column. -/
def Unstorable (L : Library) (questions : List Question) : Prop :=
  (∃ text ∈ textIds questions, L.uuid text = none) ∨
    ¬ ((textIds questions).map L.uuid).Nodup ∨ ∃ q ∈ questions, fitsColumns q = false

/-- What reads all texts reads each. -/
theorem mapM_uuid_eq_some {texts : List String} {ids : List ℕ}
    (h : texts.mapM L.uuid = some ids) : texts.map L.uuid = ids.map some := by
  induction texts generalizing ids with
  | nil =>
    cases h
    rfl
  | cons text texts ih =>
    rw [List.mapM_cons] at h
    obtain ⟨n, hn, hrest⟩ := Option.bind_eq_some_iff.1 h
    obtain ⟨ids', hids, heq⟩ := Option.bind_eq_some_iff.1 hrest
    cases heq
    rw [List.map_cons, List.map_cons, hn, ih hids]

theorem rowsInserted_eq_false {questions : List Question} :
    rowsInserted L questions = false ↔ Unstorable L questions := by
  unfold rowsInserted Unstorable
  rw [← mapM_eq_none]
  cases hids : (textIds questions).mapM L.uuid with
  | none => simp
  | some ids =>
    have hnodup : ((textIds questions).map L.uuid).Nodup ↔ ids.Nodup := by
      rw [mapM_uuid_eq_some hids]
      exact List.nodup_map_iff (Option.some_injective _)
    simp [hnodup, imp_iff_not_or]

/-- **When the persist raises.** -/
theorem persistQuizDraft_eq_none :
    persistQuizDraftNode L s = none ↔ Unstorable L (s.validatedQuestions.getD []) := by
  rw [← rowsInserted_eq_false, persistQuizDraftNode]
  cases rowsInserted L (s.validatedQuestions.getD []) <;> simp

/-- What a persist does: the rows are inserted and the run ends, or it is left. -/
theorem visit_persistQuizDraft {c' : Config} (h : visit L ⟨.persistQuizDraft, s⟩ o = some c') :
    c'.state = s ∧ (c'.node = .ended ∨ c'.node = .raised) := by
  rw [visit, persistQuizDraftNode] at h
  cases h
  dsimp only
  split_ifs
  · exact ⟨rfl, .inl rfl⟩
  · exact ⟨rfl, .inr rfl⟩

/-- A patch cannot be written: its id is a text that `UUID` does not read, or the row is there
and a field does not fit its column. -/
def Unwritable (L : Library) (rowFound : ℕ → Bool) (patch : Question) : Prop :=
  ∃ text, patch.questionId = some (.str text) ∧
    (L.uuid text = none ∨
      ∃ row, L.uuid text = some row ∧ rowFound row = true ∧ fitsColumns patch = false)

theorem patchWritten_eq_none {rowFound : ℕ → Bool} {patch : Question} :
    patchWritten L rowFound patch = none ↔ Unwritable L rowFound patch := by
  unfold patchWritten Unwritable
  split
  next text htext =>
    cases hrow : L.uuid text with
    | none => simp [htext, hrow]
    | some row =>
      cases hfound : rowFound row with
      | false => simp [htext, hrow, hfound]
      | true => cases fitsColumns patch <;> simp [htext, hrow, hfound]
  next hother =>
    refine iff_of_false (by simp) ?_
    rintro ⟨text, htext, -⟩
    exact hother text htext

/-- **When the persist of patches raises.** -/
theorem persistQuestionPatches_eq_none :
    persistQuestionPatches L s o = none ↔
      ∃ patch ∈ s.validatedPatches, Unwritable L o.rowFound patch := by
  simp only [← patchWritten_eq_none]
  rw [persistQuestionPatches, ← mapM_eq_none]
  split_ifs with hempty
  · rw [hempty]
    simp
  · rw [Option.map_eq_none_iff, patchQuestionsFromAi, Option.map_eq_none_iff]

/-- A persist of patches sets at most the error. -/
theorem persistQuestionPatches_eq_some {s' : GraphState}
    (h : persistQuestionPatches L s o = some s') : ∃ e, s' = { s with error := e } := by
  rw [persistQuestionPatches] at h
  split_ifs at h with hempty
  · cases h
    exact ⟨_, rfl⟩
  · obtain ⟨patched, -, rfl⟩ := Option.map_eq_some_iff.1 h
    cases patched
    · exact ⟨_, rfl⟩
    · exact ⟨s.error, rfl⟩

/-- What a persist of patches does: the run ends, with an error at most, or it is left. -/
theorem visit_persistQuestionPatches {c' : Config}
    (h : visit L ⟨.persistQuestionPatches, s⟩ o = some c') :
    (∃ e, c'.state = { s with error := e }) ∧ (c'.node = .ended ∨ c'.node = .raised) := by
  cases h
  dsimp only
  cases hnext : persistQuestionPatches L s o with
  | none => exact ⟨⟨s.error, rfl⟩, .inr rfl⟩
  | some s' => exact ⟨persistQuestionPatches_eq_some hnext, .inl rfl⟩

/-! ## The entry -/

/-- The router picks a node to go on at. -/
theorem routeFromEntry_ne (s : GraphState) :
    routeFromEntry s ≠ .entryRouter ∧ routeFromEntry s ≠ .raised := by
  have hrework : ∀ last, resolveReworkResumeNextNode s last ≠ .entryRouter ∧
      resolveReworkResumeNextNode s last ≠ .raised := by
    intro last
    unfold resolveReworkResumeNextNode
    split
    all_goals try split_ifs
    all_goals decide
  have hgenerate : ∀ last, resolveGenerateResumeNextNode s last ≠ .entryRouter ∧
      resolveGenerateResumeNextNode s last ≠ .raised := by
    intro last
    unfold resolveGenerateResumeNextNode
    split
    all_goals try split_ifs
    all_goals decide
  rw [routeFromEntry, resolveResumeNextNode]
  split_ifs
  · exact hrework _
  · exact hgenerate _
  · decide
  · decide

end StudyAgent.Quiz
