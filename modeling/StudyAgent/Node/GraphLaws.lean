import StudyAgent.Node.Graph
import StudyAgent.Node.Lineage

/-!
# Where runs of the study graph go

The loop between the generator and the quality check ends, because every return of
the one that is not the end uses up a format attempt or leads to the other, and every
visit of the other uses up a quality-check attempt.  A resumed run goes on at the node
that the edges pick, unless the quality check was done with the document: then the
edges end the run and the resume router does not look.

Main results:

* `run_loopEnds` — **every run from a fresh state ends after at most thirteen nodes.**
* `resume_agrees_iff` — **exactly when a resumed run goes on where the run would have
  gone.**
-/

namespace StudyAgent.Graph

open Py Strategy QualityCheck RetryRouting Runs

/-! ## Resume -/

section

variable {H : Type} [DecidableEq H] {base : Env H} {c c' : GraphRun H} {i : NodeInput}

omit [DecidableEq H] in
/-- A checklist node that does not fail leaves a checklist. -/
theorem conceptChecklist_ne_nil {st : GraphState H} {o : ChecklistOutcome}
    (herror : (conceptChecklist st o).qc.error = false)
    (hterminal : (conceptChecklist st o).qc.terminalLlmFailure = false) :
    (conceptChecklist st o).mustCoverChecklist ≠ [] := by
  unfold conceptChecklist at herror hterminal ⊢
  split_ifs at herror hterminal ⊢ with hreuse
  · exact hreuse.1
  · cases o with
    | noKeys => exact absurd herror (by simp [withError])
    | failed errorType => exact absurd hterminal (by simp [llmFailureReturn])
    | planned plan => exact plan.ne_nil

/-- A visit leaves the outcome of the generation. -/
theorem visit_generationOutcome {env : Env H} {s s' : QcState H} {o : LlmOutcome}
    (h : visit env s o = some s') : s'.generationOutcome = s.generationOutcome := by
  rcases visit_cases h with ⟨-, rfl⟩ | ⟨d, -, ⟨-, rfl⟩ | ⟨-, ⟨errorType, -, rfl⟩ | ⟨v, -, rfl⟩⟩⟩
  · rfl
  · rfl
  · rfl
  · rfl

theorem retryModes_iff {mode : RetryMode} :
    mode ∈ SECTION_RETRY_MODES ∨ mode = .fullRegeneration ↔ mode ≠ .none := by
  cases mode <;> decide

omit [DecidableEq H] in
/-- The two routers after the quality check. -/
theorem resume_qualityCheck_iff {st : GraphState H}
    (houtcome : st.qc.generationOutcome = some "study_document") :
    resolveResumeNextNode st (some .qualityCheck) = routeAfterQualityCheck st ↔
      st.qc.qcPassed = false ∧ st.qc.qcFailedPermanently = false ∧
        (qcInfraError st = true ∨ st.qc.routing.mode ≠ .none) := by
  have hresume : resolveResumeNextNode st (some .qualityCheck) =
      if qcInfraError st then some .qualityCheck
      else if st.qc.routing.mode ≠ .none then some .studyAgent
      else if st.generatedContent then some .qualityCheck
      else some .resolver := by
    have hopen : isTerminalGenerationOutcome st.qc.generationOutcome = false := by
      rw [houtcome]
      decide
    show (if isTerminalGenerationOutcome st.qc.generationOutcome = true then none else _) = _
    rw [hopen, if_neg Bool.false_ne_true]
    simp only [retryModes_iff]
  have hgoesOn : resolveResumeNextNode st (some .qualityCheck) ≠ none := by
    rw [hresume]
    split_ifs <;> exact Option.some_ne_none _
  unfold routeAfterQualityCheck
  cases hpassed : st.qc.qcPassed with
  | true => simpa using hgoesOn
  | false =>
    cases hperm : st.qc.qcFailedPermanently with
    | true => simpa using hgoesOn
    | false =>
      rw [hresume, if_neg Bool.false_ne_true, if_neg Bool.false_ne_true]
      cases hinfra : qcInfraError st with
      | true => simp
      | false =>
        by_cases hmode : st.qc.routing.mode = .none
        · cases st.generatedContent <;> simp [hmode]
        · simp [hmode]

/-- **A resumed run goes on where the run would have gone, exactly when** the last node
is not the quality check, or it neither passed nor gave up and it failed for
infrastructure reasons or asked for a retry. -/
theorem resume_agrees_iff (h : Reachable (graphStep base) (fun _ _ => True) FreshRun c)
    (hstep : graphStep base c i = some c') (herror : c'.state.qc.error = false)
    (hterminal : c'.state.qc.terminalLlmFailure = false) :
    resolveResumeNextNode c'.state (some i.node) = c'.pending ↔
      (i.node = .qualityCheck →
        c'.state.qc.qcPassed = false ∧ c'.state.qc.qcFailedPermanently = false ∧
          (qcInfraError c'.state = true ∨ c'.state.qc.routing.mode ≠ .none)) := by
  have hinv := GraphInv.of_reachable h
  obtain ⟨hpending, -⟩ := graphStep_cases hinv hstep
  unfold graphStep at hstep
  rw [if_pos hpending] at hstep
  obtain ⟨st, hrun, rfl⟩ := Option.map_eq_some_iff.1 hstep
  dsimp only at herror hterminal ⊢
  cases i with
  | qualityCheck o =>
    obtain ⟨document, hdoc⟩ := hinv.checked hpending
    obtain ⟨s, hvisit, rfl⟩ := Option.map_eq_some_iff.1 hrun
    have houtcome : s.generationOutcome = some "study_document" := by
      rw [visit_generationOutcome hvisit]
      unfold checkedDocument at hdoc
      split_ifs at hdoc with hguard
      exact hguard.1
    have hiff := @resume_qualityCheck_iff _ { c.state with qc := s } houtcome
    exact ⟨fun hagree _ => hiff.1 hagree, fun hcond => hiff.2 (hcond rfl)⟩
  | conceptChecklist o =>
    cases hrun
    refine iff_of_true ?_ (by simp [NodeInput.node])
    have hne := conceptChecklist_ne_nil herror hterminal
    simp [NodeInput.node, resolveResumeNextNode, routeAfter, routeAfterConceptChecklist, hne,
      herror, hterminal]
  | resolver answer =>
    refine iff_of_true ?_ (by simp [NodeInput.node])
    simp [NodeInput.node, resolveResumeNextNode, routeAfter, routeAfterResolver, herror]
  | llamaparse extraction =>
    refine iff_of_true ?_ (by simp [NodeInput.node])
    simp [NodeInput.node, resolveResumeNextNode, routeAfter, routeAfterLlamaparse, herror]
  | referenceRouter =>
    refine iff_of_true ?_ (by simp [NodeInput.node])
    simp [NodeInput.node, resolveResumeNextNode, routeAfter, routeAfterReferenceRouter, herror,
      hterminal]
  | externalResearch error cacheHit status hasReference notes =>
    refine iff_of_true ?_ (by simp [NodeInput.node])
    simp [NodeInput.node, resolveResumeNextNode, routeAfter, routeAfterExternalResearch, herror]
  | checklistRealign reply =>
    refine iff_of_true ?_ (by simp [NodeInput.node])
    simp [NodeInput.node, resolveResumeNextNode, routeAfter, routeAfterChecklistRealign, herror]
  | studyAgent o =>
    refine iff_of_true ?_ (by simp [NodeInput.node])
    rfl

end

/-! ### A run that passes -/

/-- The first state of a run. -/
def emptyRun : GraphRun Section where
  state := { qc := {} }
  pending := some .resolver

theorem emptyRun_fresh : FreshRun emptyRun :=
  ⟨⟨rfl, rfl, rfl, rfl, rfl, rfl, rfl, rfl, rfl, rfl, rfl⟩, rfl⟩

/-- A plan of one item, no reference, and a document of one section. -/
def firstInputs : List NodeInput :=
  [.resolver (some none),
    .conceptChecklist (.planned
      { topicSplit := [{ id := "ts_1" }]
        mustCoverChecklist := oneItemEnv.checklist
        ne_nil := by decide }),
    .referenceRouter,
    .studyAgent
      { forDocument := .studyDocument (oneSection "old"), forSections := .failed none }]

/-- The run before its first check. -/
def uncheckedRun : GraphRun Section :=
  (run (graphStep oneItemEnv) emptyRun firstInputs).get (by decide)

theorem uncheckedRun_reachable :
    Reachable (graphStep oneItemEnv) (fun _ _ => True) FreshRun uncheckedRun :=
  reachable_of_run emptyRun_fresh (Option.some_get _).symm

/-- The run after its first check, with these checks in the reply. -/
def checkedRun (checks : List Check) : Option (GraphRun Section) :=
  graphStep oneItemEnv uncheckedRun (.qualityCheck (reply checks))

/-- After a failed check that asks for a patch the generator is next. -/
theorem resume_agrees_patch :
    ∃ c', checkedRun [mustCover true, wrongClaim] = some c' ∧
      resolveResumeNextNode c'.state (some .qualityCheck) = c'.pending := by
  refine ⟨_, (Option.some_get (by decide)).symm, ?_⟩
  refine (resume_agrees_iff (i := .qualityCheck (reply [mustCover true, wrongClaim]))
    uncheckedRun_reachable (Option.some_get _).symm (by decide) (by decide)).2 fun _ => ?_
  exact ⟨by decide, by decide, Or.inr (by decide)⟩

/-- A run that has passed is over, but resumed it is checked again. -/
theorem passed_checked_again :
    ¬ ∀ (c c' : GraphRun Section) (i : NodeInput),
      Reachable (graphStep oneItemEnv) (fun _ _ => True) FreshRun c →
      graphStep oneItemEnv c i = some c' → c'.state.qc.error = false →
      c'.state.qc.terminalLlmFailure = false →
        resolveResumeNextNode c'.state (some i.node) = c'.pending := by
  intro h
  have hagree := h uncheckedRun ((checkedRun [mustCover true]).get (by decide))
    (.qualityCheck (reply [mustCover true])) uncheckedRun_reachable (Option.some_get _).symm
    (by decide) (by decide)
  exact absurd hagree (by decide)

/-! ## Termination -/

section

variable {H : Type} [DecidableEq H] {base : Env H} {c c' : GraphRun H} {i : NodeInput}

/-- How many nodes a run can still visit. -/
def visitsLeft (c : GraphRun H) : ℕ :=
  match c.pending with
  | none => 0
  | some .resolver => 13
  | some .conceptChecklist => 12
  | some .referenceRouter => 11
  | some .externalResearch => 10
  | some .llamaparse => 9
  | some .checklistRealign => 9
  | some .studyAgent =>
    2 * (MAX_QC_ATTEMPTS - c.state.qc.qcAttempt) +
      (MAX_GENERATOR_FORMAT_ATTEMPTS - c.state.generatorFormatAttempt) - 1
  | some .qualityCheck =>
    2 * (MAX_QC_ATTEMPTS - c.state.qc.qcAttempt) - 2 +
      (MAX_GENERATOR_FORMAT_ATTEMPTS - c.state.generatorFormatAttempt)

/-- How often it can still check. -/
def evaluationsLeft (c : GraphRun H) : ℕ :=
  if c.pending = none then 0 else MAX_QC_ATTEMPTS - c.state.qc.qcAttempt

/-- How often it can still generate before it checks. -/
def generationsLeft (c : GraphRun H) : ℕ :=
  if c.pending = none ∨ c.pending = some .qualityCheck then 0
  else MAX_GENERATOR_FORMAT_ATTEMPTS - c.state.generatorFormatAttempt

omit [DecidableEq H] in
theorem visitsLeft_early {n : Node} (hpending : c.pending = some n) (hearly : n.early = true) :
    9 ≤ visitsLeft c := by
  unfold visitsLeft
  rw [hpending]
  cases n with
  | studyAgent => exact absurd hearly (by decide)
  | qualityCheck => exact absurd hearly (by decide)
  | _ => simp

theorem visitsLeft_step (hinv : GraphInv c) (h : graphStep base c i = some c') :
    visitsLeft c' + 1 ≤ visitsLeft c := by
  obtain ⟨hpending, hcases⟩ := graphStep_cases hinv h
  obtain ⟨hattempt, hformat⟩ := hinv.attempts (by rw [hpending]; exact Option.some_ne_none _)
  unfold MAX_QC_ATTEMPTS at hattempt
  unfold MAX_GENERATOR_FORMAT_ATTEMPTS at hformat
  rcases hcases with hend | ⟨hearly, hroute, hqc, hsame⟩ | ⟨hnode, hnext, hf, hleft, hqc⟩ |
    ⟨hnode, hnext, hsame, document, fixedSections, -, hqc⟩ |
    ⟨hnode, hsame, ha, hleft, -, -, -, hnext⟩
  · unfold visitsLeft
    rw [hpending, hend]
    dsimp only
    unfold MAX_QC_ATTEMPTS MAX_GENERATOR_FORMAT_ATTEMPTS
    cases i.node <;> dsimp only <;> omega
  · have hbound := visitsLeft_early hpending hearly
    obtain ⟨hzero, hzero'⟩ := hinv.early _ hpending hearly
    cases hn : c'.pending with
    | none =>
      have hdone : visitsLeft c' = 0 := by
        unfold visitsLeft
        rw [hn]
      omega
    | some n =>
      rw [hn] at hroute
      rcases (routeAfter_early hearly hroute.symm).2 with ⟨hi, rfl⟩ | ⟨hi, rfl⟩ | ⟨hi, rfl⟩ |
        ⟨hi, rfl⟩ | ⟨hi, rfl⟩ | ⟨hi, rfl⟩ | rfl
      · simp [visitsLeft, hpending, hn, hi]
      · simp [visitsLeft, hpending, hn, hi]
      · simp [visitsLeft, hpending, hn, hi]
      · simp [visitsLeft, hpending, hn, hi]
      · simp [visitsLeft, hpending, hn, hi]
      · simp [visitsLeft, hpending, hn, hi]
      · have hgenerator : visitsLeft c' = 8 := by
          unfold visitsLeft
          rw [hn, hqc, hsame, hzero, hzero']
          rfl
        omega
  · unfold visitsLeft
    rw [hpending, hnext, hnode, hqc, hf]
    unfold MAX_QC_ATTEMPTS MAX_GENERATOR_FORMAT_ATTEMPTS
    dsimp only
    omega
  · unfold visitsLeft
    rw [hpending, hnext, hnode, hqc, hsame]
    unfold MAX_QC_ATTEMPTS MAX_GENERATOR_FORMAT_ATTEMPTS
    dsimp only
    omega
  · unfold visitsLeft
    rw [hpending, hnode, hsame, ha]
    unfold MAX_QC_ATTEMPTS at hleft ⊢
    unfold MAX_GENERATOR_FORMAT_ATTEMPTS
    rcases hnext with ⟨hnext, -⟩ | hnext
    · rw [hnext]
      dsimp only
      omega
    · rw [hnext]
      dsimp only
      omega

theorem evaluationsLeft_step (hinv : GraphInv c) (h : graphStep base c i = some c') :
    evaluationsLeft c' + (if i.node = .qualityCheck then 1 else 0) ≤ evaluationsLeft c := by
  obtain ⟨hpending, hcases⟩ := graphStep_cases hinv h
  have hlive : c.pending ≠ none := by
    rw [hpending]
    exact Option.some_ne_none _
  have hattempt := (hinv.attempts hlive).1
  unfold evaluationsLeft
  rw [if_neg hlive]
  rcases hcases with hend | ⟨hearly, -, hqc, -⟩ | ⟨hnode, -, -, -, hqc⟩ |
    ⟨hnode, -, -, document, fixedSections, -, hqc⟩ | ⟨hnode, -, ha, hleft, -⟩
  · rw [if_pos hend]
    split_ifs <;> omega
  · have hother : i.node ≠ .qualityCheck := by
      intro hn
      rw [hn] at hearly
      exact absurd hearly (by decide)
    rw [if_neg hother, hqc]
    split_ifs <;> omega
  · rw [hnode, hqc]
    simp only [reduceCtorEq, if_false]
    split_ifs <;> omega
  · rw [hnode, hqc]
    simp only [reduceCtorEq, if_false]
    split_ifs <;> omega
  · rw [hnode, ha]
    simp only [if_true]
    split_ifs <;> omega

theorem generationsLeft_step (hinv : GraphInv c) (hi : i.node ≠ .qualityCheck)
    (h : graphStep base c i = some c') :
    generationsLeft c' + (if i.node = .studyAgent then 1 else 0) ≤ generationsLeft c := by
  obtain ⟨hpending, hcases⟩ := graphStep_cases hinv h
  have hformat := (hinv.attempts (by rw [hpending]; exact Option.some_ne_none _)).2
  unfold generationsLeft
  rw [if_neg (c := c.pending = none ∨ _) (by rw [hpending]; simpa using hi)]
  rcases hcases with hend | ⟨hearly, hroute, -, hsame⟩ | ⟨hnode, hnext, hf, hleft, -⟩ |
    ⟨hnode, hnext, hsame, -⟩ | ⟨hnode, -⟩
  · rw [if_pos (Or.inl hend)]
    split_ifs <;> omega
  · have hother : i.node ≠ .studyAgent := by
      intro hn
      rw [hn] at hearly
      exact absurd hearly (by decide)
    rw [if_neg (c := i.node = .studyAgent) hother, hsame]
    split_ifs <;> omega
  · rw [hnode, hnext, hf]
    rw [hf] at hleft
    simp only [if_true]
    split_ifs <;> omega
  · rw [if_pos (Or.inr hnext), if_pos hnode]
    omega
  · exact absurd hnode hi

/-- An answer to the pending node is never refused. -/
theorem graphStep_goesOn (hinv : GraphInv c) (hpending : c.pending = some i.node) :
    ∃ c', graphStep base c i = some c' := by
  suffices hrun : ∃ st, runNode c.state base i = some st by
    obtain ⟨st, hst⟩ := hrun
    unfold graphStep
    rw [if_pos hpending, hst]
    exact ⟨_, rfl⟩
  cases i with
  | qualityCheck o =>
    obtain ⟨document, hdoc⟩ := hinv.checked hpending
    have hasked := hinv.asked (by rw [hpending]; exact Option.some_ne_none _)
    suffices hvisit : ∃ s, visit (c.state.env base) c.state.qc o = some s by
      obtain ⟨s, hs⟩ := hvisit
      refine ⟨{ c.state with qc := s }, ?_⟩
      show Option.map _ (visit (c.state.env base) c.state.qc o) = _
      rw [hs]
      rfl
    unfold visit
    rw [hdoc]
    dsimp only
    split_ifs with hkeys
    · exact ⟨_, rfl⟩
    · have hprior : (decision (c.state.env base) c.state.qc
          (phase1 (c.state.env base) document)).mode ≠ .full →
            ∃ r, c.state.qc.qcResult = some r := by
        intro hmode
        rcases @decideQcVerification_cases _ _ (c.state.env base).hash c.state.qc.qcAttempt
          c.state.qc.qcResult (phase1 (c.state.env base) document).failures
          (c.state.qc.fixedSections ≠ []) (phase1 (c.state.env base) document).document
          c.state.qc.qcSectionContentHashes c.state.qc.routing.failedSectionIds with
          ⟨hfixed, -⟩ | ⟨-, -, hfull, -⟩ | ⟨-, ⟨-, hcertified, -⟩, -⟩
        · exact hasked (Or.inl (of_decide_eq_true hfixed))
        · exact absurd hfull hmode
        · cases hresult : c.state.qc.qcResult with
          | some r => exact ⟨r, rfl⟩
          | none =>
            rw [hresult] at hcertified
            exact absurd hcertified (by decide)
      unfold verify
      cases hmode : (decision (c.state.env base) c.state.qc
          (phase1 (c.state.env base) document)).mode with
      | full => exact ⟨_, rfl⟩
      | targeted =>
        obtain ⟨r, hr⟩ := hprior (by rw [hmode]; decide)
        rw [hr]
        exact ⟨_, rfl⟩
      | deterministicOnly =>
        obtain ⟨r, hr⟩ := hprior (by rw [hmode]; decide)
        rw [hr]
        exact ⟨_, rfl⟩
  | _ => exact ⟨_, rfl⟩

/-! ### The loop -/

/-- **The loop ends**: a run has at most thirteen nodes and never gets stuck before its
end, it checks at most `MAX_QC_ATTEMPTS` times and generates at most
`MAX_GENERATOR_FORMAT_ATTEMPTS` times between two checks, and every check is counted. -/
structure LoopEnds (base : Env H) (inputs : List NodeInput) (c : GraphRun H) : Prop where
  bounded : inputs.length ≤ 13
  goesOn : ∀ i, c.pending = some i.node → ∃ c', graphStep base c i = some c'
  evaluations : inputs.countP (fun i => i.node = .qualityCheck) ≤ MAX_QC_ATTEMPTS
  generations : ∀ before block after, inputs = before ++ block ++ after →
    (∀ i ∈ block, i.node ≠ .qualityCheck) →
      block.countP (fun i => i.node = .studyAgent) ≤ MAX_GENERATOR_FORMAT_ATTEMPTS
  counted : ∀ o c', graphStep base c (.qualityCheck o) = some c' →
    c'.state.qc.qcAttempt = c.state.qc.qcAttempt + 1

/-- **The loop of every run from a fresh state ends.** -/
theorem run_loopEnds (base : Env H) {start : GraphRun H} (hstart : FreshRun start)
    {inputs : List NodeInput} (hrun : run (graphStep base) start inputs = some c) :
    LoopEnds base inputs c := by
  have hinv := GraphInv.of_fresh hstart
  have hkeep : ∀ (c : GraphRun H) (i : NodeInput) (c' : GraphRun H), GraphInv c →
      graphStep base c i = some c' → GraphInv c' := fun c i c' hc hstep => hc.step hstep
  have hresolver : start.pending = some .resolver := hstart.2
  constructor
  · have hcount : visitsLeft c + inputs.countP (fun _ => true) ≤ visitsLeft start :=
      @run_countP_le _ _ _ _ (fun _ => True) _ _ _ _ _
        (fun c i c' hc _ hstep => ⟨hkeep c i c' hc hstep, visitsLeft_step hc hstep⟩) hinv
        (fun _ _ => trivial) hrun
    have hall : visitsLeft start = 13 := by
      unfold visitsLeft
      rw [hresolver]
    rw [List.countP_true] at hcount
    omega
  · exact fun i hi => graphStep_goesOn (run_invariant hkeep hinv hrun) hi
  · have hcount : evaluationsLeft c + inputs.countP (fun i => i.node = .qualityCheck) ≤
        evaluationsLeft start :=
      @run_countP_le _ _ _ _ (fun _ => True) _ _ _ _ _
        (fun c i c' hc _ hstep => ⟨hkeep c i c' hc hstep, by
          simpa using evaluationsLeft_step hc hstep⟩) hinv (fun _ _ => trivial) hrun
    have hall : evaluationsLeft start ≤ MAX_QC_ATTEMPTS := by
      unfold evaluationsLeft
      split_ifs <;> omega
    omega
  · rintro before block after rfl hblock
    rw [List.append_assoc, run_append] at hrun
    obtain ⟨c₁, hbefore, hrest⟩ := Option.bind_eq_some_iff.1 hrun
    rw [run_append] at hrest
    obtain ⟨c₂, hmiddle, -⟩ := Option.bind_eq_some_iff.1 hrest
    have hcount : generationsLeft c₂ + block.countP (fun i => i.node = .studyAgent) ≤
        generationsLeft c₁ :=
      @run_countP_le _ _ _ _ (fun i => i.node ≠ .qualityCheck) _ _ _ _ _
        (fun c i c' hc hi hstep => ⟨hkeep c i c' hc hstep, by
          simpa using generationsLeft_step hc hi hstep⟩)
        (run_invariant hkeep hinv hbefore) hblock hmiddle
    have hall : generationsLeft c₁ ≤ MAX_GENERATOR_FORMAT_ATTEMPTS := by
      unfold generationsLeft
      split_ifs <;> omega
    omega
  · intro o c' hstep
    have hc := run_invariant hkeep hinv hrun
    obtain ⟨hpending, -⟩ := graphStep_cases hc hstep
    obtain ⟨document, hdoc⟩ := hc.checked hpending
    unfold graphStep at hstep
    rw [if_pos hpending] at hstep
    obtain ⟨st, hst, rfl⟩ := Option.map_eq_some_iff.1 hstep
    obtain ⟨s, hvisit, rfl⟩ := Option.map_eq_some_iff.1 hst
    exact (qualityCheck_cases hdoc hvisit).1

end

end StudyAgent.Graph
