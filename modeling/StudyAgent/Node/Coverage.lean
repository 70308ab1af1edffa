import StudyAgent.Node.GraphLaws

/-!
# What the verifier has seen

A document passes on the word of the verifier, so each of its sections should have
been in a request that was answered.  A list of the sections shown so far, kept beside
the run, says what that means.  A visit that skips the verifier trusts the prior result
and the stored hashes; after an infrastructure failure the prior result is an empty
one, which nothing contradicts.

Main results:

* `runNode_frame` — only the quality check writes the verdict and the hashes.
* `passed_covered` — **in runs whose results cover their document, a document that
  passes has been seen in full.**
-/

namespace StudyAgent.Graph

open Py Strategy QualityCheck RetryRouting Runs

/-! ## Requests -/

/-- What of the sections a request is built from its text shows, after truncation. -/
structure Requests where
  full : Document → List Section
  targeted : List Section → List Section

section

variable {H : Type} [DecidableEq H] (requests : Requests) (base : Env H)

/-- `revised_sections` of a targeted visit. -/
def revisedSections (env : Env H) (s : QcState H) (p : Phase1) : List Section :=
  if s.fixedSections ≠ [] then s.fixedSections
  else p.document.sections.filter fun t => t.idText ∈ reverifySectionIds env s p

/-- The sections that the request of a visit shows. -/
def requested (env : Env H) (s : QcState H) (p : Phase1) : List Section :=
  match (decision env s p).mode with
  | .full => requests.full p.document
  | .targeted => requests.targeted (revisedSections env s p)
  | .deterministicOnly => []

/-- The sections that a visit shows in a request with a valid reply. -/
def visitCovers (env : Env H) (s : QcState H) (o : LlmOutcome) : List Section :=
  match checkedDocument s with
  | none => []
  | some document =>
    if o.keysConfigured = false then []
    else
      match runLlmVerificationPass o with
      | .ok _ => requested requests env s (phase1 env document)
      | .error _ => []

/-! ## Runs -/

/-- A run, and beside it every section that an answered request has shown. -/
structure CoverRun (H : Type) where
  run : GraphRun H
  covered : List Section

def coverStep (c : CoverRun H) (i : NodeInput) : Option (CoverRun H) :=
  (graphStep base c.run i).map fun run =>
    { run := run
      covered := c.covered ++
        match i with
        | .qualityCheck o => visitCovers requests (c.run.state.env base) c.run.state.qc o
        | _ => [] }

def FreshCover (c : CoverRun H) : Prop := FreshRun c.run ∧ c.covered = []

/-- **A document that passes has been seen in full.** -/
def PassedCovered (c : CoverRun H) : Prop :=
  c.run.state.qc.qcPassed = true → ∀ document, c.run.state.qc.document = some document →
    ∀ t ∈ document.sections, t ∈ c.covered

/-- A visit that reaches a result shows each section of the document in its answered
request, or an earlier visit reached a result and the section has the hash that is
stored under its id. -/
def CoveringVisit (c : CoverRun H) : NodeInput → Prop
  | .qualityCheck o => ∀ document, checkedDocument c.run.state.qc = some document →
      (∃ v, verify (c.run.state.env base) c.run.state.qc
        (phase1 (c.run.state.env base) document) o = some (.ok v)) →
      ∀ t ∈ (phase1 (c.run.state.env base) document).document.sections,
        t ∈ visitCovers requests (c.run.state.env base) c.run.state.qc o ∨
          (c.run.state.qc.qcEvaluated = true ∧
            c.run.state.qc.qcSectionContentHashes.lookup t.idText = some (base.hash t))
  | _ => True

/-- What such runs keep. -/
structure CoverInv (c : CoverRun H) : Prop where
  graph : GraphInv c.run
  open_of_pending : c.run.pending ≠ none → c.run.state.qc.qcPassed = false
  passed : PassedCovered c
  hashes : c.run.state.qc.qcEvaluated = true → ∀ sid x,
    c.run.state.qc.qcSectionContentHashes.lookup sid = some x → ∃ t ∈ c.covered, base.hash t = x

variable {requests} {base} {c c' : CoverRun H} {i : NodeInput}

/-- Only the quality check writes the verdict and the hashes. -/
theorem runNode_frame {st st' : GraphState H} (hnode : i.node ≠ .qualityCheck)
    (h : runNode st base i = some st') :
    st'.qc.qcPassed = st.qc.qcPassed ∧ st'.qc.qcEvaluated = st.qc.qcEvaluated ∧
      st'.qc.qcSectionContentHashes = st.qc.qcSectionContentHashes := by
  cases i with
  | qualityCheck o => exact absurd rfl hnode
  | resolver answer =>
    cases h
    unfold resolveInstruction
    cases answer with
    | none => exact ⟨rfl, rfl, rfl⟩
    | some path =>
      dsimp only
      split_ifs <;> exact ⟨rfl, rfl, rfl⟩
  | llamaparse extraction =>
    cases h
    unfold llamaparse
    split_ifs
    · exact ⟨rfl, rfl, rfl⟩
    · cases extraction <;> exact ⟨rfl, rfl, rfl⟩
    · exact ⟨rfl, rfl, rfl⟩
  | conceptChecklist o =>
    cases h
    unfold conceptChecklist
    split_ifs
    · exact ⟨rfl, rfl, rfl⟩
    · cases o <;> exact ⟨rfl, rfl, rfl⟩
  | referenceRouter =>
    cases h
    exact ⟨rfl, rfl, rfl⟩
  | externalResearch error cacheHit status hasReference notes =>
    cases h
    exact ⟨rfl, rfl, rfl⟩
  | checklistRealign reply =>
    cases h
    unfold checklistRealign
    split_ifs
    · cases reply <;> exact ⟨rfl, rfl, rfl⟩
    · exact ⟨rfl, rfl, rfl⟩
  | studyAgent o =>
    cases h
    unfold studyAgent
    split_ifs
    · exact ⟨rfl, rfl, rfl⟩
    · unfold runSectionRetry
      cases st.qc.document with
      | none => exact ⟨rfl, rfl, rfl⟩
      | some d => cases o.forSections <;> exact ⟨rfl, rfl, rfl⟩
    · unfold runDocument
      cases o.forDocument <;> exact ⟨rfl, rfl, rfl⟩

omit [DecidableEq H] in
theorem CoverInv.of_fresh (h : FreshCover c) : CoverInv base c := by
  obtain ⟨hfresh, -⟩ := h
  constructor
  · exact GraphInv.of_fresh hfresh
  · exact fun _ => hfresh.1.qcPassed
  · intro hpassed
    rw [hfresh.1.qcPassed] at hpassed
    exact absurd hpassed Bool.false_ne_true
  · intro hevaluated
    rw [hfresh.1.qcEvaluated] at hevaluated
    exact absurd hevaluated Bool.false_ne_true

/-- **One step keeps the invariant.** -/
theorem CoverInv.step (hinj : Function.Injective base.hash) (hinv : CoverInv base c)
    (hcovering : CoveringVisit requests base c i)
    (h : coverStep requests base c i = some c') : CoverInv base c' := by
  obtain ⟨run', hgraph, rfl⟩ := Option.map_eq_some_iff.1 h
  have hgraphInv := hinv.graph.step hgraph
  obtain ⟨hpending, -⟩ := graphStep_cases hinv.graph hgraph
  have hopen := hinv.open_of_pending (by rw [hpending]; exact Option.some_ne_none _)
  have hstep := hgraph
  unfold graphStep at hstep
  rw [if_pos hpending] at hstep
  obtain ⟨st, hrun, rfl⟩ := Option.map_eq_some_iff.1 hstep
  by_cases hnode : i.node = .qualityCheck
  swap
  · obtain ⟨hpassed, hevaluated, hhashes⟩ := runNode_frame hnode hrun
    refine ⟨hgraphInv, fun _ => ?_, fun hp => ?_, ?_⟩
    · show st.qc.qcPassed = false
      rw [hpassed, hopen]
    · change st.qc.qcPassed = true at hp
      rw [hpassed, hopen] at hp
      exact absurd hp Bool.false_ne_true
    · show st.qc.qcEvaluated = true → _
      rw [hevaluated]
      intro he sid x hx
      change st.qc.qcSectionContentHashes.lookup sid = some x at hx
      rw [hhashes] at hx
      obtain ⟨t, ht, htx⟩ := hinv.hashes he sid x hx
      exact ⟨t, List.mem_append_left _ ht, htx⟩
  · cases i with
    | qualityCheck o =>
      obtain ⟨document, hdoc⟩ := hinv.graph.checked hpending
      obtain ⟨s, hvisit, rfl⟩ := Option.map_eq_some_iff.1 hrun
      have hopen' : routeAfterQualityCheck { c.run.state with qc := s } ≠ none →
          s.qcPassed = false := by
        intro hne
        by_contra hp
        exact hne (if_pos (by simpa using hp))
      have hinfra : ∀ errorType, s = infraFailureReturn c.run.state.qc errorType →
          ∀ seen, CoverInv base
            { run :=
                { state := { c.run.state with qc := s }
                  pending := routeAfterQualityCheck { c.run.state with qc := s } }
              covered := c.covered ++ seen } := by
        intro errorType hs seen
        refine ⟨hgraphInv, hopen', ?_, ?_⟩
        · intro hp
          rw [hs] at hp
          exact absurd hp Bool.false_ne_true
        · intro he sid x hx
          rw [hs] at he hx
          obtain ⟨t, ht, htx⟩ := hinv.hashes he sid x hx
          exact ⟨t, List.mem_append_left _ ht, htx⟩
      rcases visit_cases hvisit with ⟨hnone, -⟩ | ⟨d, hd, ⟨-, hs⟩ | ⟨-, ⟨errorType, -, hs⟩ |
        ⟨v, hverify, hs⟩⟩⟩
      · rw [hdoc] at hnone
        cases hnone
      · exact hinfra _ hs _
      · exact hinfra _ hs _
      · have hall : ∀ t ∈ (phase1 (c.run.state.env base) d).document.sections,
            t ∈ c.covered ++ visitCovers requests (c.run.state.env base) c.run.state.qc o := by
          intro t ht
          rcases hcovering d hd ⟨v, hverify⟩ t ht with hseen | ⟨hevaluated, hstored⟩
          · exact List.mem_append_right _ hseen
          · obtain ⟨t', ht', heq⟩ := hinv.hashes hevaluated _ _ hstored
            rw [← hinj heq]
            exact List.mem_append_left _ ht'
        refine ⟨hgraphInv, hopen', ?_, ?_⟩
        · intro _ document' hdocument' t ht
          rw [hs] at hdocument'
          cases hdocument'
          exact hall t ht
        · intro _ sid x hx
          rw [hs] at hx
          change (buildSectionHashes base.hash
            (phase1 (c.run.state.env base) d).document).lookup sid = some x at hx
          rw [lookup_buildSectionHashes] at hx
          split_ifs at hx
          obtain ⟨t, ht, htx⟩ := Option.map_eq_some_iff.1 hx
          exact ⟨t, hall t (lastSection_eq_some ht).1, htx⟩
    | resolver _ => cases hnode
    | llamaparse _ => cases hnode
    | conceptChecklist _ => cases hnode
    | referenceRouter => cases hnode
    | externalResearch _ _ _ _ _ => cases hnode
    | checklistRealign _ => cases hnode
    | studyAgent _ => cases hnode

/-- **In every run whose results cover their document, a document that passes has been
seen in full.** -/
theorem passed_covered (hinj : Function.Injective base.hash)
    (h : Reachable (coverStep requests base) (CoveringVisit requests base) FreshCover c) :
    PassedCovered c :=
  (@Reachable.invariant _ _ _ _ _ (CoverInv base) _ h (fun _ hs => CoverInv.of_fresh hs)
    fun _ _ _ hinv hcovering hstep => hinv.step hinj hcovering hstep).passed

end

/-! ## A pass without a reply -/

/-- Requests that show everything. -/
def wholeRequests : Requests where
  full document := document.sections
  targeted sections := sections

def emptyCover : CoverRun Section := { run := emptyRun, covered := [] }

theorem emptyCover_fresh : FreshCover emptyCover := ⟨emptyRun_fresh, rfl⟩

/-- The run before its first check. -/
def unseenRun : CoverRun Section :=
  (run (coverStep wholeRequests oneItemEnv) emptyCover firstInputs).get (by decide)

theorem passed_covered_first :
    ∃ c, coverStep wholeRequests oneItemEnv unseenRun (.qualityCheck (reply [mustCover true])) =
      some c ∧ c.run.state.qc.qcPassed = true ∧ PassedCovered c := by
  refine ⟨_, (Option.some_get (by decide)).symm, by decide, ?_⟩
  refine @passed_covered _ _ wholeRequests _ _ Function.injective_id
    (.next (i := .qualityCheck (reply [mustCover true])) (s := unseenRun) ?_ ?_
      (Option.some_get _).symm)
  · refine Reachable.run (.init emptyCover_fresh) ?_ (Option.some_get _).symm
    intro i hi c
    simp only [firstInputs, List.mem_cons, List.not_mem_nil, or_false] at hi
    rcases hi with rfl | rfl | rfl | rfl <;> trivial
  · intro document hdoc _
    cases hdoc
    intro t ht
    left
    revert t
    decide

/-- The run after two checks without an answer. -/
def unansweredRun : CoverRun Section :=
  (run (coverStep wholeRequests oneItemEnv) emptyCover
    (firstInputs ++
      [.qualityCheck { first := .failed (some "rate_limited") },
        .qualityCheck { first := .failed (some "rate_limited") }])).get (by decide)

/-- The second of them passes the document, which no request has shown. -/
theorem passed_unseen :
    ¬ ∀ c, Reachable (coverStep wholeRequests oneItemEnv) (fun _ _ => True) FreshCover c →
      PassedCovered c := by
  intro h
  have hsound := h unansweredRun (reachable_of_run emptyCover_fresh (Option.some_get _).symm)
  have hseen := hsound (by decide) (oneSection "old") (by decide) _ (List.mem_singleton_self _)
  revert hseen
  decide

end StudyAgent.Graph
