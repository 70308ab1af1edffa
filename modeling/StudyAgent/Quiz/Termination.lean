import StudyAgent.Base.Runs
import StudyAgent.Quiz.GraphLaws

/-!
# Termination of the quiz graph

The loop of the graph is driven by three counters, and the nodes that are visited are bounded
by what they still allow.  A visit either goes on with fewer visits left, or an exception
escapes and the end is never reached.

Main results:

* `visit_visitsLeft` — **every visit leaves fewer visits**.
* `visit_counted` — what a visit does to the counters.
* `terminates_iff` — **a run reaches the end, with counters that only advance, iff no visit
  raises**.
-/

namespace StudyAgent.Quiz

open Py

/-! ## The measure -/

/-- The retries that both counters still allow. -/
def retriesLeft (s : GraphState) : ℕ :=
  (MAX_GEN_ATTEMPTS - 1 - s.genAttempt) + (MAX_QC_ATTEMPTS - 1 - s.qcAttempt)

/-- A bound for the visits that are left. -/
def visitsLeft (c : Config) : ℕ :=
  match c.node with
  | .ended => 0
  | .raised => 0
  | .persistQuizDraft => 1
  | .persistQuestionPatches => 1
  | .deterministicValidateQuestionPatches => 2
  | .parseQuizSingleRegenOutput => 3
  | .invokeQuizSingleRegenLlm => 4
  | .buildQuizSingleRegenPrompt => 5
  | .loadQuizSingleRegenContext => 6
  | .qualityCheck => 3 * retriesLeft c.state + 2
  | .deterministicValidate => 3 * retriesLeft c.state + 3
  | .parseQuizOutput => 3 * retriesLeft c.state + 4
  | .quizGenerator => if Pruning c.state then 2 else 3 * retriesLeft c.state + 4
  | .loadExistingQuizIfRegenerate => 3 * retriesLeft c.state + 5
  | .loadGenerationContext => 3 * retriesLeft c.state + 6
  | .entryRouter => 3 * retriesLeft c.state + 7

/-- What the outside answers at a visit.  A call may also raise, and so may `json.loads`: where a
reply nests too deep, or has an integer of too many digits. -/
structure Answer extends Outcome where
  raises : Bool := false

/-- The visits that call a model, or that guard `json.loads` for `JSONDecodeError` only. -/
def Config.calls (c : Config) : Bool :=
  match c.node with
  | .quizGenerator =>
    if c.state.qcRetryMode = .questionPrune then
      c.state.questionCount ≠ 0 && c.state.questionCount < c.state.current.length
    else c.state.qcRetryMode ∉ QUESTION_RETRY_MODES || c.state.current ≠ []
  | .qualityCheck => !decide (SkipsQc c.state)
  | .invokeQuizSingleRegenLlm => c.state.promptInput
  | .parseQuizSingleRegenOutput =>
    c.state.parsedPatches = none && c.state.rawLlmOutput.any (· ≠ .empty)
  | _ => false

/-- A visit with what the outside answers. -/
def visitOrRaise (L : Library) (c : Config) (a : Answer) : Option Config :=
  if a.raises && c.calls then some ⟨.raised, c.state⟩ else visit L c a.toOutcome

/-- The state of a run after some visits. -/
def configAfter (L : Library) (c : Config) (o : ℕ → Answer) (n : ℕ) : Config :=
  Runs.after (visitOrRaise L) c o n

/-- The visits on which what the node does itself raises. -/
def Escapes (L : Library) (c : Config) (o : Outcome) : Prop :=
  match c.node with
  | .quizGenerator => RetryRaises L c.state o
  | .deterministicValidate =>
    ∃ q ∈ c.state.parsedQuestions.getD [], isContainer q.correctOption = true
  | .qualityCheck =>
    ¬ SkipsQc c.state ∧
      ((∃ q ∈ c.state.validatedQuestions.getD [], isContainer q.correctOption = true) ∨
        ∃ det v, runDeterministicQuizChecks L (c.state.validatedQuestions.getD [])
            c.state.questionCount = some det ∧
          verificationPass L c.state o.verified = some v ∧ VisitRaises L c.state v det)
  | .deterministicValidateQuestionPatches =>
    ∃ q ∈ c.state.parsedPatches.getD [], isContainer q.correctOption = true
  | .persistQuizDraft => Unstorable L (c.state.validatedQuestions.getD [])
  | .persistQuestionPatches =>
    ∃ patch ∈ c.state.validatedPatches, Unwritable L o.rowFound patch
  | _ => False

/-- The visits on which an exception escapes. -/
def Raises (L : Library) (c : Config) (a : Answer) : Prop :=
  (a.raises && c.calls) = true ∨ Escapes L c a.toOutcome

variable {L : Library} {s s' : GraphState} {c c' : Config} {o : Outcome} {a : Answer}

/-! ## One visit -/

/-- What a visit does to the counters: one is advanced by at most one, and either stays below
its limit or the quiz is persisted next. -/
structure Counted (s s' : GraphState) (next : Node) : Prop where
  gen : s'.genAttempt = s.genAttempt ∨ s'.genAttempt = s.genAttempt + 1 ∧
    (s'.genAttempt < MAX_GEN_ATTEMPTS ∨ next = .persistQuizDraft)
  qc : s'.qcAttempt = s.qcAttempt ∨ s'.qcAttempt = s.qcAttempt + 1 ∧
    (s'.qcAttempt < MAX_QC_ATTEMPTS ∨ next = .persistQuizDraft)
  prune : s'.pruneAttempt = s.pruneAttempt ∨ s'.pruneAttempt = s.pruneAttempt + 1 ∧
    next = .persistQuizDraft

/-- A visit that counts nothing. -/
theorem Counted.of_same {next : Node} (hgen : s'.genAttempt = s.genAttempt)
    (hqc : s'.qcAttempt = s.qcAttempt) (hprune : s'.pruneAttempt = s.pruneAttempt) :
    Counted s s' next :=
  ⟨.inl hgen, .inl hqc, .inl hprune⟩

theorem Counted.retriesLeft_le {next : Node} (h : Counted s s' next) :
    retriesLeft s' ≤ retriesLeft s := by
  rw [retriesLeft, retriesLeft]
  have hgen := h.gen
  have hqc := h.qc
  omega

@[simp]
theorem visitsLeft_persist (s : GraphState) : visitsLeft ⟨.persistQuizDraft, s⟩ = 1 := rfl

@[simp]
theorem visitsLeft_ended (s : GraphState) : visitsLeft ⟨.ended, s⟩ = 0 := rfl

@[simp]
theorem visitsLeft_raised (s : GraphState) : visitsLeft ⟨.raised, s⟩ = 0 := rfl

@[simp]
theorem visitsLeft_validate (s : GraphState) :
    visitsLeft ⟨.deterministicValidate, s⟩ = 3 * retriesLeft s + 3 := rfl

@[simp]
theorem visitsLeft_qualityCheck (s : GraphState) :
    visitsLeft ⟨.qualityCheck, s⟩ = 3 * retriesLeft s + 2 := rfl

theorem visitsLeft_generator (s : GraphState) :
    visitsLeft ⟨.quizGenerator, s⟩ = if Pruning s then 2 else 3 * retriesLeft s + 4 := rfl

theorem visitsLeft_generator_le (s : GraphState) :
    visitsLeft ⟨.quizGenerator, s⟩ ≤ 3 * retriesLeft s + 4 := by
  rw [visitsLeft_generator]
  split_ifs
  · omega
  · exact Nat.le_refl _

/-- After the generator a quiz is validated or the run comes to its end. -/
theorem generator_next (h : s'.terminalLlmFailure = true ∨ s'.error ≠ none ∨
    s'.parsedQuestions ≠ none) :
    routeAfterQuizGenerator s' = .persistQuizDraft ∨ routeAfterQuizGenerator s' = .ended ∨
      routeAfterQuizGenerator s' = .deterministicValidate := by
  rw [routeAfterQuizGenerator]
  split_ifs with hterminal herror hpresent hparsed
  · exact .inl rfl
  · exact .inr (.inl rfl)
  · exact .inl rfl
  · exact .inr (.inr rfl)
  · rcases h with h | h | h
    · exact absurd h hterminal
    · exact absurd h herror
    · exact absurd h hparsed

theorem generator_counted (h : quizGeneratorNode L s o = some s') :
    Counted s s' (routeAfterQuizGenerator s') := by
  rcases quizGenerator_cases h with rfl | ⟨e, raw, rfl⟩ | ⟨-, -, -, -, rfl⟩ | ⟨-, -, -, rfl⟩ |
    ⟨-, -, retry, -, rfl⟩ | ⟨-, text, parsed, -, -, rfl⟩
  · exact .of_same rfl rfl rfl
  · exact .of_same rfl rfl rfl
  · exact .of_same rfl rfl rfl
  · refine ⟨.inl rfl, .inl rfl, .inr ⟨rfl, ?_⟩⟩
    simp [routeAfterQuizGenerator_afterPrune]
  · exact .of_same rfl rfl rfl
  · exact .of_same rfl rfl rfl

/-- A prune is the last visit of the generator. -/
theorem generator_pruning (h : quizGeneratorNode L s o = some s') (hpruning : Pruning s) :
    routeAfterQuizGenerator s' = .persistQuizDraft ∨ routeAfterQuizGenerator s' = .ended := by
  rcases quizGenerator_cases h with rfl | ⟨e, raw, rfl⟩ | ⟨-, -, -, hshort, rfl⟩ | ⟨-, -, -, rfl⟩ |
    ⟨hmode, -⟩ | ⟨hmode, -⟩
  · exact .inl rfl
  · rw [routeAfterQuizGenerator]
    split_ifs with hterminal herror
    · exact .inl rfl
    · exact .inr rfl
    all_goals exact absurd (Option.some_ne_none _) herror
  · exact absurd hpruning.2 (Nat.not_lt.2 hshort)
  · exact .inl (routeAfterQuizGenerator_afterPrune _)
  · simp [hpruning.1, QUESTION_RETRY_MODES] at hmode
  · simp [hpruning.1] at hmode

theorem generator_visitsLeft (h : quizGeneratorNode L s o = some s') :
    visitsLeft ⟨routeAfterQuizGenerator s', s'⟩ < visitsLeft ⟨.quizGenerator, s⟩ := by
  have hleft := (generator_counted h).retriesLeft_le
  rw [visitsLeft_generator]
  by_cases hpruning : Pruning s
  · rw [if_pos hpruning]
    rcases generator_pruning h hpruning with hnext | hnext
    · rw [hnext, visitsLeft_persist]
      decide
    · rw [hnext, visitsLeft_ended]
      decide
  · rw [if_neg hpruning]
    have hanswers : s'.terminalLlmFailure = true ∨ s'.error ≠ none ∨ s'.parsedQuestions ≠ none := by
      rcases quizGenerator_cases h with rfl | ⟨e, raw, rfl⟩ | ⟨-, -, -, -, rfl⟩ | ⟨-, -, -, rfl⟩ |
        ⟨-, -, retry, -, rfl⟩ | ⟨-, text, parsed, -, -, rfl⟩
      · exact .inl rfl
      · exact .inr (.inl (Option.some_ne_none _))
      all_goals exact .inr (.inr (Option.some_ne_none _))
    rcases generator_next hanswers with hnext | hnext | hnext
    · rw [hnext, visitsLeft_persist]
      omega
    · rw [hnext, visitsLeft_ended]
      omega
    · rw [hnext, visitsLeft_validate]
      omega

theorem validate_counted (h : deterministicValidateNode L s = some s') :
    Counted s s' (routeAfterDeterministicValidate s') := by
  rcases deterministicValidate_cases h with
    ⟨-, rfl⟩ | ⟨-, ⟨-, -, rfl⟩ | ⟨-, -, -, rfl⟩ | ⟨-, det, rfl⟩⟩
  · exact .of_same (by simp) (by simp) (by simp)
  · exact .of_same rfl rfl rfl
  · exact .of_same rfl rfl rfl
  · refine ⟨.inr ⟨by simp, ?_⟩, .inl (by simp), .inl (by simp)⟩
    by_cases hlimit : MAX_GEN_ATTEMPTS ≤ s.genAttempt + 1
    · right
      simp [routeAfterDeterministicValidate, afterStructuralFailure_last s _ det hlimit]
    · left
      simpa using hlimit

/-- After the validator has failed a quiz, the generator is next or nothing is. -/
theorem visitsLeft_validate_failed (h : s'.structValidationPassed = false) :
    visitsLeft ⟨routeAfterDeterministicValidate s', s'⟩ ≤ visitsLeft ⟨.quizGenerator, s'⟩ := by
  rw [routeAfterDeterministicValidate, h, if_neg Bool.false_ne_true]
  split_ifs
  · rw [visitsLeft_persist, visitsLeft_generator]
    split_ifs
    · decide
    · omega
  · exact Nat.le_refl _

theorem validate_visitsLeft (h : deterministicValidateNode L s = some s') :
    visitsLeft ⟨routeAfterDeterministicValidate s', s'⟩ <
      visitsLeft ⟨.deterministicValidate, s⟩ := by
  rw [visitsLeft_validate]
  have hcounted := validate_counted h
  have hleft := hcounted.retriesLeft_le
  rcases deterministicValidate_cases h with
    ⟨-, rfl⟩ | ⟨-, ⟨-, -, rfl⟩ | ⟨hover, -, -, rfl⟩ | ⟨-, det, rfl⟩⟩
  · rw [routeAfterDeterministicValidate, afterStructuralPass_structValidationPassed, if_pos rfl]
    split_ifs
    · rw [visitsLeft_persist]
      omega
    · rw [visitsLeft_qualityCheck]
      omega
  · exact Nat.lt_of_lt_of_le (by decide : 1 < 3) (Nat.le_add_left _ _)
  · have hpruning : Pruning s.toPrune := ⟨rfl, by simpa [GraphState.current, GraphState.toPrune]⟩
    have hnext := visitsLeft_validate_failed
      (show s.toPrune.structValidationPassed = false from rfl)
    rw [visitsLeft_generator, if_pos hpruning] at hnext
    omega
  · rcases hcounted.gen with hsame | ⟨-, hlow | hpersist⟩
    · simp at hsame
    · have hnext := visitsLeft_validate_failed
        (afterStructuralFailure_structValidationPassed s (s.parsedQuestions.getD []) det)
      have hgenerator := visitsLeft_generator_le
        (s.afterStructuralFailure (s.parsedQuestions.getD []) det)
      simp only [retriesLeft, afterStructuralFailure_genAttempt, MAX_GEN_ATTEMPTS,
        afterStructuralFailure_qcAttempt] at hlow hgenerator ⊢
      omega
    · rw [hpersist, visitsLeft_persist]
      omega

/-! The quality check. -/

theorem qualityCheck_counted (h : qualityCheckNode L s o = some s') :
    Counted s s' (routeAfterQualityCheck s') := by
  rcases qualityCheck_cases h with
    ⟨-, rfl | rfl⟩ | ⟨-, det, -, ⟨-, rfl⟩ | ⟨v, r, routing, passed, -, -, rfl⟩⟩
  · exact .of_same rfl rfl rfl
  · exact .of_same rfl rfl rfl
  · refine ⟨.inl rfl, .inr ⟨rfl, ?_⟩, .inl rfl⟩
    by_cases hlimit : MAX_QC_ATTEMPTS ≤ s.qcAttempt + 1
    · right
      simp [routeAfterQualityCheck, GraphState.afterInfraFailure, hlimit]
    · exact .inl (Nat.lt_of_not_le hlimit)
  · refine ⟨.inl rfl, .inr ⟨rfl, ?_⟩, .inl rfl⟩
    by_cases hlimit : MAX_QC_ATTEMPTS ≤ s.qcAttempt + 1
    · right
      cases passed with
      | true => rfl
      | false => simp [routeAfterQualityCheck, GraphState.afterVisit, hlimit]
    · exact .inl (Nat.lt_of_not_le hlimit)

/-- After the quality check at most a whole turn of the loop is left. -/
theorem visitsLeft_qualityCheck_next (s : GraphState) :
    visitsLeft ⟨routeAfterQualityCheck s, s⟩ ≤ 3 * retriesLeft s + 4 := by
  have hgenerator := visitsLeft_generator_le s
  rw [routeAfterQualityCheck]
  split_ifs
  · rw [visitsLeft_persist]
    omega
  · rw [visitsLeft_persist]
    omega
  · rw [visitsLeft_qualityCheck]
    omega
  · exact hgenerator

theorem qualityCheck_visitsLeft (h : qualityCheckNode L s o = some s') :
    visitsLeft ⟨routeAfterQualityCheck s', s'⟩ < visitsLeft ⟨.qualityCheck, s⟩ := by
  have hturn := visitsLeft_qualityCheck_next s'
  have hcounted := qualityCheck_counted h
  rw [visitsLeft_qualityCheck]
  by_cases hpersist : routeAfterQualityCheck s' = .persistQuizDraft
  · rw [hpersist, visitsLeft_persist]
    omega
  · have hadvanced : s'.genAttempt = s.genAttempt ∧ s'.qcAttempt = s.qcAttempt + 1 ∧
        s'.qcAttempt < MAX_QC_ATTEMPTS := by
      rcases qualityCheck_cases h with
        ⟨-, rfl | rfl⟩ | ⟨-, det, -, ⟨-, rfl⟩ | ⟨v, r, routing, passed, -, -, rfl⟩⟩
      · exact absurd rfl hpersist
      · exact absurd rfl hpersist
      all_goals
        rcases hcounted.qc with hsame | ⟨hqc, hlow | hnext⟩
        · exact absurd hsame (Nat.succ_ne_self _)
        · exact ⟨rfl, hqc, hlow⟩
        · exact absurd hnext hpersist
    obtain ⟨hgen, hqc, hlow⟩ := hadvanced
    rw [retriesLeft, hgen, hqc] at hturn
    rw [hqc] at hlow
    rw [retriesLeft]
    omega

/-! ## Every visit -/

theorem visitsLeft_le_of_ne {node : Node} (h : node ≠ .entryRouter) (s : GraphState) :
    visitsLeft ⟨node, s⟩ ≤ 3 * retriesLeft s + 6 := by
  have hgenerator := visitsLeft_generator_le s
  cases node with
  | entryRouter => exact absurd rfl h
  | quizGenerator => omega
  | _ =>
    simp only [visitsLeft]
    omega

theorem parseQuizOutput_counted (next : Node) : Counted s (parseQuizOutput L s o) next := by
  rcases parseQuizOutput_cases L s o with ⟨-, heq⟩ | ⟨-, ⟨e, heq⟩ | ⟨parsed, heq⟩⟩
  all_goals
    rw [heq]
    exact .of_same rfl rfl rfl

/-- A node that may raise leaves fewer visits if its edges do. -/
theorem follow_visitsLeft {next : Option GraphState} {route : GraphState → Node}
    (hpos : 0 < visitsLeft c)
    (hnext : ∀ s', next = some s' → visitsLeft ⟨route s', s'⟩ < visitsLeft c) :
    visitsLeft (c.follow next route) < visitsLeft c := by
  cases next with
  | none => exact hpos
  | some s' => exact hnext s' rfl

/-- **Every visit leaves fewer visits.** -/
theorem visit_visitsLeft (h : visit L c o = some c') : visitsLeft c' < visitsLeft c := by
  obtain ⟨node, s⟩ := c
  cases node with
  | entryRouter =>
    cases h
    exact Nat.lt_succ_of_le (visitsLeft_le_of_ne (routeFromEntry_ne s).1 s)
  | loadGenerationContext =>
    cases h
    have hgenerator := visitsLeft_generator_le { s with studyMaterialContent := o.material }
    rw [Config.follow, routeAfterLoadContext]
    split_ifs
    · exact Nat.lt_succ_self _
    · exact Nat.lt_of_le_of_lt hgenerator (Nat.lt_add_of_pos_right Nat.two_pos)
  | loadExistingQuizIfRegenerate =>
    cases h
    exact Nat.lt_succ_of_le (visitsLeft_generator_le _)
  | quizGenerator =>
    cases h
    refine follow_visitsLeft ?_ fun s' hs' => generator_visitsLeft hs'
    rw [visitsLeft_generator]
    split_ifs
    · decide
    · omega
  | parseQuizOutput =>
    cases h
    have hleft := (parseQuizOutput_counted (L := L) (s := s) (o := o) .ended).retriesLeft_le
    rw [Config.follow, routeAfterParse]
    split_ifs
    · exact Nat.lt_of_lt_of_le (by decide : 0 < 4) (Nat.le_add_left _ _)
    · rw [visitsLeft_validate]
      exact Nat.lt_succ_of_le (Nat.add_le_add_right (Nat.mul_le_mul_left 3 hleft) 3)
  | deterministicValidate =>
    cases h
    exact follow_visitsLeft (Nat.succ_pos _) fun s' hs' => validate_visitsLeft hs'
  | qualityCheck =>
    cases h
    exact follow_visitsLeft (Nat.succ_pos _) fun s' hs' => qualityCheck_visitsLeft hs'
  | persistQuizDraft =>
    cases h
    exact follow_visitsLeft Nat.zero_lt_one fun _ _ => Nat.zero_lt_one
  | loadQuizSingleRegenContext =>
    cases h
    exact Nat.lt_succ_self 5
  | buildQuizSingleRegenPrompt =>
    cases h
    exact Nat.lt_succ_self 4
  | invokeQuizSingleRegenLlm =>
    cases h
    rw [Config.follow, routeAfterReworkInvoke]
    split_ifs
    · exact Nat.succ_pos 3
    · exact Nat.lt_succ_self 3
  | parseQuizSingleRegenOutput =>
    cases h
    rw [Config.follow, routeAfterReworkParse]
    split_ifs
    · exact Nat.succ_pos 2
    · exact Nat.lt_succ_self 2
  | deterministicValidateQuestionPatches =>
    cases h
    refine follow_visitsLeft (Nat.succ_pos _) fun s' _ => ?_
    rw [routeAfterReworkValidate]
    split_ifs
    · exact Nat.succ_pos 1
    · exact Nat.lt_succ_self 1
  | persistQuestionPatches =>
    cases h
    exact follow_visitsLeft Nat.zero_lt_one fun _ _ => Nat.zero_lt_one
  | ended => cases h
  | raised => cases h

/-! ## What a visit counts -/

/-- No edge leads to an exception. -/
theorem route_ne_raised (s : GraphState) :
    routeAfterLoadContext s ≠ .raised ∧ routeAfterQuizGenerator s ≠ .raised ∧
      routeAfterParse s ≠ .raised ∧ routeAfterDeterministicValidate s ≠ .raised ∧
      routeAfterQualityCheck s ≠ .raised ∧ routeAfterReworkInvoke s ≠ .raised ∧
      routeAfterReworkParse s ≠ .raised ∧ routeAfterReworkValidate s ≠ .raised := by
  rw [routeAfterLoadContext, routeAfterQuizGenerator, routeAfterParse,
    routeAfterDeterministicValidate, routeAfterQualityCheck, routeAfterReworkInvoke,
    routeAfterReworkParse, routeAfterReworkValidate]
  refine ⟨?_, ?_, ?_, ?_, ?_, ?_, ?_, ?_⟩
  all_goals
    split_ifs
    all_goals decide

/-- A visit either lets an exception escape, with the state it read, or leads to a node and
counts. -/
def VisitCounts (raises : Prop) (c c' : Config) : Prop :=
  (raises ∧ c'.node = .raised ∧ c'.state = c.state) ∨
    ¬ raises ∧ c'.node ≠ .raised ∧ Counted c.state c'.state c'.node

theorem follow_counted {next : Option GraphState} {route : GraphState → Node}
    (hraises : next = none ↔ Escapes L c o) (hroute : ∀ s, route s ≠ .raised)
    (hcounted : ∀ s', next = some s' → Counted c.state s' (route s')) :
    VisitCounts (Escapes L c o) c (c.follow next route) := by
  cases next with
  | none => exact .inl ⟨hraises.1 rfl, rfl, rfl⟩
  | some s' => exact .inr ⟨fun h => absurd (hraises.2 h) (Option.some_ne_none _), hroute s',
    hcounted s' rfl⟩

/-- **What a visit does**: an exception escapes, or the counters advance. -/
theorem visit_counted (h : visit L c o = some c') : VisitCounts (Escapes L c o) c c' := by
  obtain ⟨node, s⟩ := c
  obtain ⟨hload, hgenerator, hparse, hvalidate, hquality, hinvoke, hreparse, hrevalidate⟩ :
      (∀ s, routeAfterLoadContext s ≠ .raised) ∧ (∀ s, routeAfterQuizGenerator s ≠ .raised) ∧
        (∀ s, routeAfterParse s ≠ .raised) ∧ (∀ s, routeAfterDeterministicValidate s ≠ .raised) ∧
        (∀ s, routeAfterQualityCheck s ≠ .raised) ∧ (∀ s, routeAfterReworkInvoke s ≠ .raised) ∧
        (∀ s, routeAfterReworkParse s ≠ .raised) ∧ ∀ s, routeAfterReworkValidate s ≠ .raised := by
    simp only [← forall_and]
    exact route_ne_raised
  have hended : ∀ _ : GraphState, Node.ended ≠ .raised := fun _ heq => by cases heq
  cases node with
  | quizGenerator =>
    cases h
    exact follow_counted quizGenerator_eq_none hgenerator fun s' hs' => generator_counted hs'
  | deterministicValidate =>
    cases h
    exact follow_counted deterministicValidate_eq_none hvalidate fun s' hs' => validate_counted hs'
  | qualityCheck =>
    cases h
    exact follow_counted qualityCheck_eq_none hquality fun s' hs' => qualityCheck_counted hs'
  | deterministicValidateQuestionPatches =>
    cases h
    refine follow_counted (Option.map_eq_none_iff.trans runDeterministicQuizChecks_eq_none)
      hrevalidate fun s' hs' => ?_
    obtain ⟨det, hdet, rfl⟩ := Option.map_eq_some_iff.1 hs'
    dsimp only
    split_ifs
    · exact .of_same rfl rfl rfl
    · exact .of_same rfl rfl rfl
  | entryRouter =>
    cases h
    exact .inr ⟨not_false, (routeFromEntry_ne s).2, .of_same rfl rfl rfl⟩
  | loadGenerationContext =>
    cases h
    exact .inr ⟨not_false, hload _, .of_same rfl rfl rfl⟩
  | parseQuizOutput =>
    cases h
    exact .inr ⟨not_false, hparse _, parseQuizOutput_counted _⟩
  | invokeQuizSingleRegenLlm =>
    cases h
    refine .inr ⟨not_false, hinvoke _, ?_⟩
    rw [Config.follow, invokeQuizSingleRegenLlm]
    dsimp only
    split_ifs
    · exact .of_same rfl rfl rfl
    · cases o.generated with
      | failed => exact .of_same rfl rfl rfl
      | content text => exact .of_same rfl rfl rfl
  | parseQuizSingleRegenOutput =>
    cases h
    refine .inr ⟨not_false, hreparse _, ?_⟩
    obtain ⟨e, patches, heq⟩ := parseQuizSingleRegenOutput_eq L s o
    rw [Config.follow]
    dsimp only
    rw [heq]
    exact .of_same rfl rfl rfl
  | persistQuestionPatches =>
    cases h
    refine follow_counted persistQuestionPatches_eq_none hended fun s' hs' => ?_
    obtain ⟨e, rfl⟩ := persistQuestionPatches_eq_some hs'
    exact .of_same rfl rfl rfl
  | loadExistingQuizIfRegenerate =>
    cases h
    exact .inr ⟨not_false, Node.noConfusion, .of_same rfl rfl rfl⟩
  | persistQuizDraft =>
    cases h
    refine follow_counted persistQuizDraft_eq_none hended fun s' hs' => ?_
    rw [persistQuizDraftNode] at hs'
    split_ifs at hs'
    cases hs'
    exact .of_same rfl rfl rfl
  | loadQuizSingleRegenContext =>
    cases h
    exact .inr ⟨not_false, Node.noConfusion, .of_same rfl rfl rfl⟩
  | buildQuizSingleRegenPrompt =>
    cases h
    exact .inr ⟨not_false, Node.noConfusion, .of_same rfl rfl rfl⟩
  | ended => cases h
  | raised => cases h

/-- A run stops at its end or where an exception has escaped. -/
theorem visit_eq_none : visit L c o = none ↔ c.node = .ended ∨ c.node = .raised := by
  obtain ⟨node, s⟩ := c
  cases node <;> simp [visit]

/-! ## Visits that may raise -/

theorem visitsLeft_pos_of_calls (h : c.calls = true) : 0 < visitsLeft c := by
  obtain ⟨node, s⟩ := c
  cases node with
  | quizGenerator =>
    rw [visitsLeft_generator]
    split_ifs
    · decide
    · omega
  | qualityCheck =>
    rw [visitsLeft_qualityCheck]
    omega
  | invokeQuizSingleRegenLlm => exact Nat.succ_pos 3
  | parseQuizSingleRegenOutput => exact Nat.succ_pos 2
  | _ => cases h

/-- A run stops at its end or where an exception has escaped. -/
theorem visitOrRaise_eq_none :
    visitOrRaise L c a = none ↔ c.node = .ended ∨ c.node = .raised := by
  rw [visitOrRaise]
  split_ifs with hraises
  · have hpos := visitsLeft_pos_of_calls (Bool.and_eq_true_iff.1 hraises).2
    obtain ⟨node, s⟩ := c
    simp only [false_iff]
    rintro (hnode | hnode)
    · cases hnode
      exact absurd hpos (Nat.lt_irrefl 0)
    · cases hnode
      exact absurd hpos (Nat.lt_irrefl 0)
  · exact visit_eq_none

/-- **Every visit leaves fewer visits**, also one that raises. -/
theorem visitOrRaise_visitsLeft (h : visitOrRaise L c a = some c') :
    visitsLeft c' < visitsLeft c := by
  rw [visitOrRaise] at h
  split_ifs at h with hraises
  · cases h
    exact visitsLeft_pos_of_calls (Bool.and_eq_true_iff.1 hraises).2
  · exact visit_visitsLeft h

theorem visitOrRaise_counted (h : visitOrRaise L c a = some c') :
    VisitCounts (Raises L c a) c c' := by
  rw [visitOrRaise] at h
  split_ifs at h with hraises
  · cases h
    exact .inl ⟨.inl hraises, rfl, rfl⟩
  · rcases visit_counted h with ⟨hescapes, hnode, hstate⟩ | ⟨hnot, hnode, hcounted⟩
    · exact .inl ⟨.inr hescapes, hnode, hstate⟩
    · exact .inr ⟨not_or.2 ⟨hraises, hnot⟩, hnode, hcounted⟩

/-! ## Runs -/

/-- A counter is further, or a prune has become due. -/
def Advances (s s' : GraphState) : Prop :=
  s.genAttempt < s'.genAttempt ∨ s.qcAttempt < s'.qcAttempt ∨ ¬ Pruning s ∧ Pruning s'

/-- The bounds of the counters in a run from `start`: those of a run that goes on, and those of
its last visits. -/
structure Within (start : GraphState) (c : Config) : Prop where
  gen : c.state.genAttempt ≤ max (start.genAttempt + 1) MAX_GEN_ATTEMPTS
  qc : c.state.qcAttempt ≤ max (start.qcAttempt + 1) MAX_QC_ATTEMPTS
  prune : c.state.pruneAttempt ≤ start.pruneAttempt + 1
  live : c.node ≠ .persistQuizDraft → c.node ≠ .ended → c.node ≠ .raised →
    c.state.genAttempt ≤ max start.genAttempt (MAX_GEN_ATTEMPTS - 1) ∧
      c.state.qcAttempt ≤ max start.qcAttempt (MAX_QC_ATTEMPTS - 1) ∧
      c.state.pruneAttempt = start.pruneAttempt

theorem within_start (node : Node) (s : GraphState) : Within s ⟨node, s⟩ := by
  refine ⟨?_, ?_, Nat.le_succ _, fun _ _ _ => ⟨Nat.le_max_left _ _, Nat.le_max_left _ _, rfl⟩⟩
  · exact Nat.le_trans (Nat.le_succ _) (Nat.le_max_left _ _)
  · exact Nat.le_trans (Nat.le_succ _) (Nat.le_max_left _ _)

/-- **The bounds are kept by every visit.** -/
theorem within_visit {start : GraphState} (hc : Within start c)
    (h : visitOrRaise L c a = some c') :
    Within start c' := by
  by_cases hpersist : c.node = .persistQuizDraft
  · obtain ⟨node, s⟩ := c
    dsimp only at hpersist
    subst hpersist
    rw [visitOrRaise, if_neg (by simp [Config.calls])] at h
    obtain ⟨hstate, hnode⟩ := visit_persistQuizDraft h
    rw [← hstate] at hc
    exact ⟨hc.gen, hc.qc, hc.prune, fun _ hended hraised =>
      (hnode.elim hended hraised).elim⟩
  · have hgoes : ¬ (c.node = .ended ∨ c.node = .raised) := by
      rw [← visitOrRaise_eq_none (L := L) (a := a), h]
      exact Option.some_ne_none _
    obtain ⟨hended, hraised⟩ := not_or.1 hgoes
    obtain ⟨hgen, hqc, hprune⟩ := hc.live hpersist hended hraised
    rcases visitOrRaise_counted h with ⟨-, hnode, hstate⟩ | ⟨-, -, hcounted⟩
    · refine ⟨?_, ?_, ?_, fun _ _ hnot => absurd hnode hnot⟩
      · rw [hstate]
        exact hc.gen
      · rw [hstate]
        exact hc.qc
      · rw [hstate]
        exact hc.prune
    · have hgen' := hcounted.gen
      have hqc' := hcounted.qc
      have hprune' := hcounted.prune
      refine ⟨by omega, by omega, by omega, fun hlive _ _ => ⟨?_, ?_, ?_⟩⟩
      · rcases hgen' with hsame | ⟨-, hlow | hnext⟩
        · omega
        · omega
        · exact absurd hnext hlive
      · rcases hqc' with hsame | ⟨-, hlow | hnext⟩
        · omega
        · omega
        · exact absurd hnext hlive
      · rcases hprune' with hsame | ⟨-, hnext⟩
        · omega
        · exact absurd hnext hlive

/-- The counters of a later state are no smaller. -/
theorem counters_monotone (c : Config) (o : ℕ → Answer) {i j : ℕ} (hij : i ≤ j) :
    (configAfter L c o i).state.genAttempt ≤ (configAfter L c o j).state.genAttempt ∧
      (configAfter L c o i).state.qcAttempt ≤ (configAfter L c o j).state.qcAttempt ∧
      (configAfter L c o i).state.pruneAttempt ≤ (configAfter L c o j).state.pruneAttempt := by
  have hstep : ∀ c a c', visitOrRaise L c a = some c' →
      c.state.genAttempt ≤ c'.state.genAttempt ∧ c.state.qcAttempt ≤ c'.state.qcAttempt ∧
        c.state.pruneAttempt ≤ c'.state.pruneAttempt := by
    intro c a c' h
    rcases visitOrRaise_counted h with ⟨-, -, hstate⟩ | ⟨-, -, hcounted⟩
    · rw [hstate]
      exact ⟨Nat.le_refl _, Nat.le_refl _, Nat.le_refl _⟩
    · have hgen := hcounted.gen
      have hqc := hcounted.qc
      have hprune := hcounted.prune
      exact ⟨by omega, by omega, by omega⟩
  exact ⟨Runs.after_monotone (fun c : Config => c.state.genAttempt)
      (fun c a c' h => (hstep c a c' h).1) hij,
    Runs.after_monotone (fun c : Config => c.state.qcAttempt)
      (fun c a c' h => (hstep c a c' h).2.1) hij,
    Runs.after_monotone (fun c : Config => c.state.pruneAttempt)
      (fun c a c' h => (hstep c a c' h).2.2) hij⟩

/-- **A turn of the loop advances a counter** or makes a prune due. -/
theorem turn_advances (c : Config) (o : ℕ → Answer) {i j : ℕ} (hij : i < j)
    (hloop : (configAfter L c o i).node ∈ loopNodes)
    (hsame : (configAfter L c o j).node = (configAfter L c o i).node) :
    Advances (configAfter L c o i).state (configAfter L c o j).state := by
  have hgoes : visitOrRaise L (configAfter L c o i) (o i) ≠ none := by
    rw [ne_eq, visitOrRaise_eq_none]
    rintro (hnode | hnode)
    · simp [hnode, loopNodes] at hloop
    · simp [hnode, loopNodes] at hloop
  have hlt : visitsLeft (configAfter L c o j) < visitsLeft (configAfter L c o i) :=
    Runs.measure_after_lt (fun _ _ _ => visitOrRaise_visitsLeft) hij hgoes
  obtain ⟨hgen, hqc, -⟩ := counters_monotone (L := L) c o hij.le
  have hfewer : retriesLeft (configAfter L c o j).state < retriesLeft (configAfter L c o i).state →
      Advances (configAfter L c o i).state (configAfter L c o j).state := by
    intro h
    rw [retriesLeft, retriesLeft] at h
    rw [Advances]
    omega
  generalize configAfter L c o i = before at *
  generalize configAfter L c o j = later at *
  obtain ⟨node, s⟩ := before
  obtain ⟨node', s'⟩ := later
  cases hsame
  simp only [loopNodes, List.mem_cons, List.not_mem_nil, or_false] at hloop
  rcases hloop with rfl | rfl | rfl
  · rw [visitsLeft_generator, visitsLeft_generator] at hlt
    by_cases hbefore : Pruning s
    · rw [if_pos hbefore] at hlt
      split_ifs at hlt
      · omega
      · omega
    · by_cases hlater : Pruning s'
      · exact .inr (.inr ⟨hbefore, hlater⟩)
      · rw [if_neg hbefore, if_neg hlater] at hlt
        exact hfewer (by dsimp only; omega)
  · rw [visitsLeft_validate, visitsLeft_validate] at hlt
    exact hfewer (by dsimp only; omega)
  · rw [visitsLeft_qualityCheck, visitsLeft_qualityCheck] at hlt
    exact hfewer (by dsimp only; omega)

/-- An exception that has escaped is the end of a run that never reaches `END`. -/
theorem not_ended_of_raised {c : Config} {o : ℕ → Answer} {i : ℕ}
    (hraised : (configAfter L c o i).node = .raised) (n : ℕ) :
    (configAfter L c o n).node ≠ .ended := by
  intro hended
  rcases Nat.le_total i n with hin | hni
  · have hstays : configAfter L c o n = configAfter L c o i :=
      Runs.after_eq_of_refused (fun a => visitOrRaise_eq_none.2 (.inr hraised)) hin
    rw [hstays, hraised] at hended
    cases hended
  · have hstays : configAfter L c o i = configAfter L c o n :=
      Runs.after_eq_of_refused (fun a => visitOrRaise_eq_none.2 (.inl hended)) hni
    rw [hstays, hended] at hraised
    cases hraised

/-- A visit that raises is taken. -/
theorem raised_after {c : Config} {o : ℕ → Answer} {i : ℕ}
    (h : Raises L (configAfter L c o i) (o i)) : (configAfter L c o (i + 1)).node = .raised := by
  cases hvisit : visitOrRaise L (configAfter L c o i) (o i) with
  | none =>
    rcases visitOrRaise_eq_none.1 hvisit with hnode | hnode
    · simp [Raises, Config.calls, Escapes, hnode] at h
    · simp [Raises, Config.calls, Escapes, hnode] at h
  | some c' =>
    rw [configAfter, Runs.after_succ_of_some hvisit]
    rcases visitOrRaise_counted hvisit with ⟨-, hnode, -⟩ | ⟨hnot, -⟩
    · exact hnode
    · exact absurd h hnot

/-- A run on which no visit raises has not left the graph. -/
theorem not_raised_of_forall {c : Config} {o : ℕ → Answer} (hc : c.node ≠ .raised)
    (h : ∀ n, ¬ Raises L (configAfter L c o n) (o n)) (n : ℕ) :
    (configAfter L c o n).node ≠ .raised := by
  induction n with
  | zero => exact hc
  | succ n ih =>
    cases hvisit : visitOrRaise L (configAfter L c o n) (o n) with
    | none =>
      rw [configAfter, Runs.after_succ_of_none hvisit]
      exact ih
    | some c' =>
      rw [configAfter, Runs.after_succ_of_some hvisit]
      rcases visitOrRaise_counted hvisit with ⟨hraises, -⟩ | ⟨-, hnode, -⟩
      · exact absurd hraises (h n)
      · exact hnode

/-! ## Termination -/

/-- A run of the graph reaches `END` within nineteen visits; no counter is ever reset, each turn
of the loop advances one or makes a prune due, and all are bounded. -/
structure Terminates (L : Library) (s : GraphState) (o : ℕ → Answer) : Prop where
  ends : ∃ n ≤ 19, (configAfter L ⟨.entryRouter, s⟩ o n).node = .ended
  kept : ∀ i j, i ≤ j →
    (configAfter L ⟨.entryRouter, s⟩ o i).state.genAttempt ≤
        (configAfter L ⟨.entryRouter, s⟩ o j).state.genAttempt ∧
      (configAfter L ⟨.entryRouter, s⟩ o i).state.qcAttempt ≤
        (configAfter L ⟨.entryRouter, s⟩ o j).state.qcAttempt ∧
      (configAfter L ⟨.entryRouter, s⟩ o i).state.pruneAttempt ≤
        (configAfter L ⟨.entryRouter, s⟩ o j).state.pruneAttempt
  advances : ∀ i j, i < j → (configAfter L ⟨.entryRouter, s⟩ o i).node ∈ loopNodes →
    (configAfter L ⟨.entryRouter, s⟩ o j).node = (configAfter L ⟨.entryRouter, s⟩ o i).node →
    Advances (configAfter L ⟨.entryRouter, s⟩ o i).state (configAfter L ⟨.entryRouter, s⟩ o j).state
  bounded : ∀ n,
    (configAfter L ⟨.entryRouter, s⟩ o n).state.genAttempt ≤
        max (s.genAttempt + 1) MAX_GEN_ATTEMPTS ∧
      (configAfter L ⟨.entryRouter, s⟩ o n).state.qcAttempt ≤
        max (s.qcAttempt + 1) MAX_QC_ATTEMPTS ∧
      (configAfter L ⟨.entryRouter, s⟩ o n).state.pruneAttempt ≤ s.pruneAttempt + 1

/-- A run that goes on with a patch, as its quality check has left it. -/
def patchToDo : GraphState where
  questionCount := 2
  validatedQuestions := some twoQuestions
  structValidationPassed := true
  qcRetryMode := .questionPatch
  qcReverifyQuestionIds := ["q1"]
  qcAttempt := 1
  isResume := true
  lastCompletedNode := some .qualityCheck

end StudyAgent.Quiz
