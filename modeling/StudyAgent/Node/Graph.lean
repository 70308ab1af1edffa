import StudyAgent.Base.Runs
import StudyAgent.Node.QualityCheck

/-!
# The study graph

The nodes of the study material graph as functions of the state and of what the
outside answers, the conditional edges between them, and the router that picks the
node at which an interrupted run goes on.

Main results:

* `GraphInv.step` — **what every run from a fresh state keeps.**
-/

namespace StudyAgent.Graph

open Py Strategy QualityCheck RetryRouting Runs

/-! ## State -/

inductive Node where
  | resolver
  | llamaparse
  | conceptChecklist
  | referenceRouter
  | externalResearch
  | checklistRealign
  | studyAgent
  | qualityCheck
  deriving DecidableEq

/-- `MAX_GENERATOR_FORMAT_ATTEMPTS`. -/
def MAX_GENERATOR_FORMAT_ATTEMPTS : ℕ := 3

/-- The fields of the graph state that an edge reads.  Of the generated content and
the parsed reference only it is kept whether they are there. -/
structure GraphState (H : Type) where
  qc : QcState H
  generatedContent : Bool := false
  generatorFormatAttempt : ℕ := 0
  generationMode : String := "generate"
  domain : String := ""
  topicSplit : List TopicSplitEntry := []
  mustCoverChecklist : List ChecklistItem := []
  referenceMaterialId : Option String := none
  hasReferenceMaterial : Bool := false
  referenceFilePath : Option String := none
  skipLlamaparse : Bool := false
  parsedSections : Bool := false
  referenceMode : Option String := none
  externalResearchEnabled : Bool := false
  externalResearchCacheHit : Bool := false
  externalResearchStatus : Option String := none
  researchNotes : String := ""

/-- `state.get(key)` of a text as a truth value. -/
def present (text : Option String) : Bool := text.getD "" ≠ ""

/-! ## Inputs -/

/-- A concept plan; the parser and the fallback both give at least one item. -/
structure ConceptPlan where
  domain : String := ""
  topicSplit : List TopicSplitEntry := []
  mustCoverChecklist : List ChecklistItem
  ne_nil : mustCoverChecklist ≠ []

inductive ChecklistOutcome where
  | noKeys
  | failed (errorType : Option String)
  | planned (plan : ConceptPlan)

/-- The reply to a request for a whole document, and how it is classified. -/
inductive DocumentOutcome where
  | failed (errorType : Option String)
  | invalidJson (blank : Bool)
  | malformed
  | referenceRequired (document : Document)
  | vagueFeedback (document : Document)
  | studyDocument (document : Document)

/-- The replies to the requests of a section retry: the revised sections, and the
document after they are merged. -/
inductive SectionOutcome where
  | failed (errorType : Option String)
  | invalidJson (blank : Bool)
  | revised (document : Document) (fixedSections : List Section)

structure GeneratorOutcome where
  keysConfigured : Bool := true
  forDocument : DocumentOutcome
  forSections : SectionOutcome

/-- What the outside answers to a node; `none` is an answer that fails. -/
inductive NodeInput where
  | resolver (referenceFilePath : Option (Option String))
  | llamaparse (extraction : Option (Bool × String))
  | conceptChecklist (o : ChecklistOutcome)
  | referenceRouter
  | externalResearch (error cacheHit : Bool) (status : Option String) (hasReference : Bool)
      (notes : String)
  | checklistRealign (reply : Option ConceptPlan)
  | studyAgent (o : GeneratorOutcome)
  | qualityCheck (o : LlmOutcome)

/-- The node that an input answers. -/
def NodeInput.node : NodeInput → Node
  | .resolver _ => .resolver
  | .llamaparse _ => .llamaparse
  | .conceptChecklist _ => .conceptChecklist
  | .referenceRouter => .referenceRouter
  | .externalResearch .. => .externalResearch
  | .checklistRealign _ => .checklistRealign
  | .studyAgent _ => .studyAgent
  | .qualityCheck _ => .qualityCheck

/-! ## Nodes -/

section

variable {H : Type} (st : GraphState H)

/-- `{"error": …}`. -/
def withError : GraphState H := { st with qc := { st.qc with error := true } }

def withPlan (plan : ConceptPlan) : GraphState H :=
  { st with
    domain := plan.domain
    topicSplit := plan.topicSplit
    mustCoverChecklist := plan.mustCoverChecklist }

/-- `resolve_instruction_node`. -/
def resolveInstruction (answer : Option (Option String)) : GraphState H :=
  match answer with
  | none => withError st
  | some path =>
    if st.referenceMaterialId.isSome then
      { st with hasReferenceMaterial := true, referenceFilePath := path }
    else { st with hasReferenceMaterial := false, referenceFilePath := none }

/-- `llamaparse_node`. -/
def llamaparse (extraction : Option (Bool × String)) : GraphState H :=
  if st.parsedSections then st
  else if present st.referenceFilePath then
    match extraction with
    | none => withError st
    | some (sections, text) => { st with parsedSections := sections, researchNotes := text }
  else { st with parsedSections := false, researchNotes := "" }

/-- `checklist_llm_failure_return` and `study_llm_failure_return`. -/
def llmFailureReturn (errorType : Option String) : GraphState H :=
  { st with
    generatedContent := true
    qc := { st.qc with
      terminalLlmFailure := true
      llmErrorType := errorType
      qcFailedPermanently := true
      qcResult := some { errorType := errorType } } }

/-- `concept_checklist_node`. -/
def conceptChecklist (o : ChecklistOutcome) : GraphState H :=
  if st.mustCoverChecklist ≠ [] ∧ st.generationMode = "generate" then st
  else
    match o with
    | .noKeys => withError st
    | .failed errorType => llmFailureReturn st errorType
    | .planned plan => withPlan st plan

/-- `resolve_reference_mode`. -/
def resolveReferenceMode : String :=
  if st.externalResearchEnabled then "external"
  else if st.referenceMode = some "pdf" then "pdf"
  else if st.referenceMode = some "external" then "external"
  else if st.referenceMode = some "none" then "none"
  else if st.hasReferenceMaterial ∨ st.referenceMaterialId.isSome then "pdf"
  else "none"

/-- `reference_router_node`. -/
def referenceRouter : GraphState H :=
  { st with referenceMode := some (resolveReferenceMode st) }

/-- `external_research_node`. -/
def externalResearch (error cacheHit : Bool) (status : Option String) (hasReference : Bool)
    (notes : String) : GraphState H :=
  { st with
    qc := { st.qc with error := error }
    externalResearchCacheHit := cacheHit
    externalResearchStatus := status
    hasReferenceMaterial := hasReference
    researchNotes := notes }

/-- `checklist_realign_node`; the domain stays, and any failure keeps the draft. -/
def checklistRealign (reply : Option ConceptPlan) : GraphState H :=
  if st.referenceMode = some "external" ∧ strip st.researchNotes ≠ "" ∧
      st.mustCoverChecklist ≠ [] then
    match reply with
    | none => st
    | some plan => { withPlan st plan with domain := st.domain }
  else st

/-- `SECTION_RETRY_MODES`. -/
def SECTION_RETRY_MODES : List RetryMode :=
  [.sectionPatch, .sectionInsert, .sectionPatchThenInsert]

/-- `run_section_retry`. -/
def runSectionRetry (o : SectionOutcome) : GraphState H :=
  match st.qc.document with
  | none => withError st
  | some _ =>
    match o with
    | .failed errorType => llmFailureReturn st errorType
    | .invalidJson blank => withError { st with generatedContent := !blank }
    | .revised document fixedSections =>
      { st with
        generatedContent := true
        qc := { st.qc with
          document := some document
          fixedSections := fixedSections
          generationOutcome := some "study_document" } }

/-- `study_agent_node` outside a section retry. -/
def runDocument (o : DocumentOutcome) : GraphState H :=
  match o with
  | .failed errorType => llmFailureReturn st errorType
  | .invalidJson blank =>
    withError
      { st with
        generatedContent := !blank
        qc := { st.qc with generationOutcome := some "generator_error" } }
  | .malformed =>
    { st with
      generatedContent := true
      generatorFormatAttempt := st.generatorFormatAttempt + 1
      qc := { st.qc with document := none, generationOutcome := some "malformed_document" } }
  | .referenceRequired document =>
    { st with
      generatedContent := true
      qc := { st.qc with
        document := some document
        generationOutcome := some "reference_required" } }
  | .vagueFeedback document =>
    { st with
      generatedContent := true
      qc := { st.qc with document := some document, generationOutcome := some "vague_feedback" } }
  | .studyDocument document =>
    { st with
      generatedContent := true
      qc := { st.qc with document := some document, generationOutcome := some "study_document" } }

/-- `study_agent_node`. -/
def studyAgent (o : GeneratorOutcome) : GraphState H :=
  if o.keysConfigured = false then withError st
  else if st.qc.routing.mode ∈ SECTION_RETRY_MODES then runSectionRetry st o.forSections
  else runDocument st o.forDocument

/-- The plan of the state, as a visit of the quality check reads it. -/
def GraphState.env (base : Env H) : Env H :=
  { base with
    checklist := st.mustCoverChecklist
    topicSplit := st.topicSplit
    domain := st.domain }

/-- One node; `none` when an assertion fails. -/
def runNode [DecidableEq H] (base : Env H) : NodeInput → Option (GraphState H)
  | .resolver answer => some (resolveInstruction st answer)
  | .llamaparse extraction => some (llamaparse st extraction)
  | .conceptChecklist o => some (conceptChecklist st o)
  | .referenceRouter => some (referenceRouter st)
  | .externalResearch error cacheHit status hasReference notes =>
    some (externalResearch st error cacheHit status hasReference notes)
  | .checklistRealign reply => some (checklistRealign st reply)
  | .studyAgent o => some (studyAgent st o)
  | .qualityCheck o => (visit (st.env base) st.qc o).map fun s => { st with qc := s }

/-! ## Edges; `none` is the end of the graph -/

/-- `_route_after_resolver`. -/
def routeAfterResolver : Option Node :=
  if st.qc.error then none else some .conceptChecklist

/-- `_needs_llamaparse`, and `_needs_llamaparse_on_resume`. -/
def needsLlamaparse : Bool :=
  if st.skipLlamaparse then false
  else if !st.hasReferenceMaterial then false
  else if !present st.referenceFilePath then false
  else if st.parsedSections then false
  else true

/-- `_route_after_concept_checklist`. -/
def routeAfterConceptChecklist : Option Node :=
  if st.qc.terminalLlmFailure then none
  else if st.qc.error then none
  else some .referenceRouter

/-- The edges out of `reference_router` in a run without an error, and
`_route_after_reference_mode`. -/
def routeAfterReferenceMode : Node :=
  if resolveReferenceMode st = "external" then
    if st.externalResearchCacheHit ∨ present st.externalResearchStatus then .checklistRealign
    else .externalResearch
  else if resolveReferenceMode st = "pdf" ∧ needsLlamaparse st then .llamaparse
  else .studyAgent

/-- `_route_after_reference_router`. -/
def routeAfterReferenceRouter : Option Node :=
  if st.qc.terminalLlmFailure then none
  else if st.qc.error then none
  else some (routeAfterReferenceMode st)

/-- `_route_after_llamaparse`. -/
def routeAfterLlamaparse : Option Node :=
  if st.qc.error then none else some .studyAgent

/-- `_route_after_external_research`. -/
def routeAfterExternalResearch : Option Node :=
  if st.qc.error then none else some .checklistRealign

/-- `_route_after_checklist_realign`. -/
def routeAfterChecklistRealign : Option Node :=
  if st.qc.error then none else some .studyAgent

/-- `_TERMINAL_GENERATION_OUTCOMES`. -/
def TERMINAL_GENERATION_OUTCOMES : List String :=
  ["reference_required", "vague_feedback", "generator_error"]

/-- `route_after_study_agent`. -/
def routeAfterStudyAgent : Option Node :=
  if st.qc.terminalLlmFailure ∨ st.qc.error then none
  else
    match st.qc.generationOutcome with
    | some outcome =>
      if outcome = "study_document" then some .qualityCheck
      else if outcome = "malformed_document" then
        if st.generatorFormatAttempt < MAX_GENERATOR_FORMAT_ATTEMPTS then some .studyAgent else none
      else none
    | none => if st.generatedContent then some .qualityCheck else some .studyAgent

/-- `qc_result.get("qcInfraError")`. -/
def qcInfraError : Bool := (st.qc.qcResult.map QcResult.qcInfraError).getD false

/-- `_route_after_quality_check`. -/
def routeAfterQualityCheck : Option Node :=
  if st.qc.qcPassed then none
  else if st.qc.qcFailedPermanently then none
  else if qcInfraError st then some .qualityCheck
  else some .studyAgent

/-- The conditional edges of the graph. -/
def routeAfter : Node → Option Node
  | .resolver => routeAfterResolver st
  | .llamaparse => routeAfterLlamaparse st
  | .conceptChecklist => routeAfterConceptChecklist st
  | .referenceRouter => routeAfterReferenceRouter st
  | .externalResearch => routeAfterExternalResearch st
  | .checklistRealign => routeAfterChecklistRealign st
  | .studyAgent => routeAfterStudyAgent st
  | .qualityCheck => routeAfterQualityCheck st

/-! ## Resume -/

/-- `_is_terminal_generation_outcome`. -/
def isTerminalGenerationOutcome : Option String → Bool
  | none => false
  | some outcome =>
    if outcome ∈ TERMINAL_GENERATION_OUTCOMES then true
    else if outcome = "malformed_document" then true
    else false

/-- `resolve_resume_next_node`. -/
def resolveResumeNextNode : Option Node → Option Node
  | none => some .resolver
  | some .resolver => some .conceptChecklist
  | some .conceptChecklist =>
    if st.mustCoverChecklist = [] then some .conceptChecklist else some .referenceRouter
  | some .referenceRouter => some (routeAfterReferenceMode st)
  | some .llamaparse => some .studyAgent
  | some .externalResearch => some .checklistRealign
  | some .checklistRealign => some .studyAgent
  | some .studyAgent => routeAfterStudyAgent st
  | some .qualityCheck =>
    if isTerminalGenerationOutcome st.qc.generationOutcome then none
    else if qcInfraError st then some .qualityCheck
    else if st.qc.routing.mode ∈ SECTION_RETRY_MODES ∨ st.qc.routing.mode = .fullRegeneration then
      some .studyAgent
    else if st.generatedContent then some .qualityCheck
    else some .resolver

/-- `_route_from_entry`. -/
def routeFromEntry (isResume : Bool) (lastCompletedNode : Option Node) : Option Node :=
  if !isResume then some .resolver else resolveResumeNextNode st lastCompletedNode

end

/-! ## Runs -/

/-- A run between two nodes. -/
structure GraphRun (H : Type) where
  state : GraphState H
  pending : Option Node

section

variable {H : Type} [DecidableEq H] (base : Env H)

/-- The pending node is answered and runs, and an edge picks the next. -/
def graphStep (c : GraphRun H) (i : NodeInput) : Option (GraphRun H) :=
  if c.pending = some i.node then
    (runNode c.state base i).map fun st => { state := st, pending := routeAfter st i.node }
  else none

/-- The states that the three entry points of the runner build: nothing is generated
or checked yet.  Hashes and frozen ids may come from an earlier version. -/
structure Fresh (st : GraphState H) : Prop where
  generationOutcome : st.qc.generationOutcome = none
  terminalLlmFailure : st.qc.terminalLlmFailure = false
  error : st.qc.error = false
  fixedSections : st.qc.fixedSections = []
  qcAttempt : st.qc.qcAttempt = 0
  qcPassed : st.qc.qcPassed = false
  qcEvaluated : st.qc.qcEvaluated = false
  qcFailedPermanently : st.qc.qcFailedPermanently = false
  qcResult : st.qc.qcResult = none
  routing : st.qc.routing.mode = .none
  generatorFormatAttempt : st.generatorFormatAttempt = 0

/-- The start of a run that is not resumed. -/
def FreshRun (c : GraphRun H) : Prop :=
  Fresh c.state ∧ c.pending = routeFromEntry c.state false none

end

/-! ## What a node leaves -/

/-- The nodes before the document is written. -/
def Node.early : Node → Bool
  | .studyAgent => false
  | .qualityCheck => false
  | _ => true

section

variable {H : Type} [DecidableEq H] {base : Env H} {st st' : GraphState H}

/-- A node before the generator leaves the quality-control state alone or ends the
run. -/
theorem runNode_early {i : NodeInput} (hearly : i.node.early = true)
    (herror : st.qc.error = false) (h : runNode st base i = some st') :
    st'.generatorFormatAttempt = st.generatorFormatAttempt ∧
      (st'.qc = st.qc ∨ routeAfter st' i.node = none) := by
  cases i with
  | studyAgent o => exact absurd hearly (by simp [NodeInput.node, Node.early])
  | qualityCheck o => exact absurd hearly (by simp [NodeInput.node, Node.early])
  | resolver answer =>
    cases h
    cases answer with
    | none => exact ⟨rfl, Or.inr rfl⟩
    | some path =>
      show (resolveInstruction st (some path)).generatorFormatAttempt = _ ∧ _
      unfold resolveInstruction
      dsimp only
      split_ifs
      · exact ⟨rfl, Or.inl rfl⟩
      · exact ⟨rfl, Or.inl rfl⟩
  | llamaparse extraction =>
    cases h
    unfold llamaparse
    split_ifs
    · exact ⟨rfl, Or.inl rfl⟩
    · cases extraction with
      | none => exact ⟨rfl, Or.inr rfl⟩
      | some e => exact ⟨rfl, Or.inl rfl⟩
    · exact ⟨rfl, Or.inl rfl⟩
  | conceptChecklist o =>
    cases h
    unfold conceptChecklist
    split_ifs
    · exact ⟨rfl, Or.inl rfl⟩
    · cases o with
      | noKeys =>
        refine ⟨rfl, Or.inr ?_⟩
        show routeAfterConceptChecklist (withError st) = none
        unfold routeAfterConceptChecklist
        exact ite_eq_left_iff.2 fun _ => rfl
      | failed errorType => exact ⟨rfl, Or.inr rfl⟩
      | planned plan => exact ⟨rfl, Or.inl rfl⟩
  | referenceRouter =>
    cases h
    exact ⟨rfl, Or.inl rfl⟩
  | externalResearch error cacheHit status hasReference notes =>
    cases h
    refine ⟨rfl, ?_⟩
    cases error with
    | true => exact Or.inr rfl
    | false =>
      left
      show { st.qc with error := false } = st.qc
      rw [← herror]
  | checklistRealign reply =>
    cases h
    unfold checklistRealign
    split_ifs
    · cases reply with
      | none => exact ⟨rfl, Or.inl rfl⟩
      | some plan => exact ⟨rfl, Or.inl rfl⟩
    · exact ⟨rfl, Or.inl rfl⟩

omit [DecidableEq H] in
/-- The generator ends the run, asks for another try, or leaves a document; revised
sections only in a section retry. -/
theorem studyAgent_cases (o : GeneratorOutcome) :
    routeAfterStudyAgent (studyAgent st o) = none ∨
    ((studyAgent st o).generatorFormatAttempt = st.generatorFormatAttempt + 1 ∧
      (studyAgent st o).qc = { st.qc with
        document := none, generationOutcome := some "malformed_document" }) ∨
    ∃ document fixedSections,
      (fixedSections = st.qc.fixedSections ∨ st.qc.routing.mode ∈ SECTION_RETRY_MODES) ∧
      (studyAgent st o).generatorFormatAttempt = st.generatorFormatAttempt ∧
      (studyAgent st o).qc = { st.qc with
        document := some document
        fixedSections := fixedSections
        generationOutcome := some "study_document" } := by
  have herror : ∀ st : GraphState H, routeAfterStudyAgent (withError st) = none :=
    fun st => if_pos (Or.inr rfl)
  have hfailed : ∀ errorType, routeAfterStudyAgent (llmFailureReturn st errorType) = none :=
    fun errorType => if_pos (Or.inl rfl)
  unfold studyAgent
  split_ifs with hkeys hmode
  · exact Or.inl (herror st)
  · unfold runSectionRetry
    cases st.qc.document with
    | none => exact Or.inl (herror st)
    | some d =>
      cases o.forSections with
      | failed errorType => exact Or.inl (hfailed errorType)
      | invalidJson blank => exact Or.inl (herror _)
      | revised document fixedSections =>
        exact Or.inr (Or.inr ⟨document, fixedSections, Or.inr hmode, rfl, rfl⟩)
  · unfold runDocument
    cases o.forDocument with
    | failed errorType => exact Or.inl (hfailed errorType)
    | invalidJson blank => exact Or.inl (herror _)
    | malformed => exact Or.inr (Or.inl ⟨rfl, rfl⟩)
    | studyDocument document =>
      exact Or.inr (Or.inr ⟨document, st.qc.fixedSections, Or.inl rfl, rfl, rfl⟩)
    | referenceRequired document =>
      left
      unfold routeAfterStudyAgent
      split_ifs <;> rfl
    | vagueFeedback document =>
      left
      unfold routeAfterStudyAgent
      split_ifs <;> rfl

/-- A visit of the quality check that passes its guards ends the run, is repeated after
an infrastructure failure, or goes back to the generator with a result. -/
theorem qualityCheck_cases {s : QcState H} {document : Document} {o : LlmOutcome}
    (hdoc : checkedDocument st.qc = some document)
    (h : visit (st.env base) st.qc o = some s) :
    s.qcAttempt = st.qc.qcAttempt + 1 ∧ (∃ r, s.qcResult = some r) ∧
    (routeAfterQualityCheck { st with qc := s } = none ∨
      (s.qcAttempt < MAX_QC_ATTEMPTS ∧ s.error = st.qc.error ∧
        s.terminalLlmFailure = st.qc.terminalLlmFailure ∧
        ((routeAfterQualityCheck { st with qc := s } = some .qualityCheck ∧
            checkedDocument s = some document) ∨
          routeAfterQualityCheck { st with qc := s } = some .studyAgent))) := by
  have hinfra : ∀ errorType, s = infraFailureReturn st.qc errorType →
      s.qcAttempt = st.qc.qcAttempt + 1 ∧ (∃ r, s.qcResult = some r) ∧
      (routeAfterQualityCheck { st with qc := s } = none ∨
        (s.qcAttempt < MAX_QC_ATTEMPTS ∧ s.error = st.qc.error ∧
          s.terminalLlmFailure = st.qc.terminalLlmFailure ∧
          ((routeAfterQualityCheck { st with qc := s } = some .qualityCheck ∧
              checkedDocument s = some document) ∨
            routeAfterQualityCheck { st with qc := s } = some .studyAgent))) := by
    rintro errorType rfl
    refine ⟨rfl, ⟨_, rfl⟩, ?_⟩
    by_cases hperm : MAX_QC_ATTEMPTS ≤ st.qc.qcAttempt + 1
    · left
      show (if decide (MAX_QC_ATTEMPTS ≤ st.qc.qcAttempt + 1) = true then none else _) = none
      exact if_pos (decide_eq_true hperm)
    · refine Or.inr ⟨Nat.lt_of_not_le hperm, rfl, rfl, Or.inl ⟨?_, hdoc⟩⟩
      show (if decide (MAX_QC_ATTEMPTS ≤ st.qc.qcAttempt + 1) = true then none else _) = _
      rw [if_neg (by simpa using hperm)]
      rfl
  rcases visit_cases h with ⟨hnone, -⟩ | ⟨d, -, ⟨-, hs⟩ | ⟨-, ⟨errorType, -, hs⟩ | ⟨v, -, rfl⟩⟩⟩
  · rw [hdoc] at hnone
    cases hnone
  · exact hinfra _ hs
  · exact hinfra _ hs
  · refine ⟨rfl, ⟨_, rfl⟩, ?_⟩
    generalize hs : finish (st.env base) st.qc (phase1 (st.env base) d) o v = s
    have hperm : s.qcFailedPermanently =
        (!s.qcPassed && decide (MAX_QC_ATTEMPTS ≤ s.qcAttempt)) := by
      rw [← hs]
      rfl
    have hresult : qcInfraError { st with qc := s } = false := by
      rw [← hs]
      rfl
    have hsame : s.error = st.qc.error ∧ s.terminalLlmFailure = st.qc.terminalLlmFailure := by
      rw [← hs]
      exact ⟨rfl, rfl⟩
    unfold routeAfterQualityCheck
    dsimp only
    rw [hresult]
    cases hpassed : s.qcPassed with
    | true => exact Or.inl rfl
    | false =>
      rw [hpassed] at hperm
      by_cases hlast : MAX_QC_ATTEMPTS ≤ s.qcAttempt
      · left
        rw [hperm]
        simp [hlast]
      · refine Or.inr ⟨Nat.lt_of_not_le hlast, hsame.1, hsame.2, Or.inr ?_⟩
        rw [hperm]
        simp [hlast]

end

/-! ## What a run keeps -/

section

variable {H : Type} [DecidableEq H]

/-- The invariant of runs from a fresh state, as far as a node is pending: no failure,
attempts left, and a document to check. -/
structure GraphInv (c : GraphRun H) : Prop where
  clean : c.pending ≠ none → c.state.qc.error = false ∧ c.state.qc.terminalLlmFailure = false
  attempts : c.pending ≠ none → c.state.qc.qcAttempt < MAX_QC_ATTEMPTS ∧
    c.state.generatorFormatAttempt < MAX_GENERATOR_FORMAT_ATTEMPTS
  early : ∀ n, c.pending = some n → n.early = true →
    c.state.qc.qcAttempt = 0 ∧ c.state.generatorFormatAttempt = 0
  asked : c.pending ≠ none → c.state.qc.fixedSections ≠ [] ∨
    c.state.qc.routing.mode ∈ SECTION_RETRY_MODES → ∃ r, c.state.qc.qcResult = some r
  checked : c.pending = some .qualityCheck → ∃ document, checkedDocument c.state.qc = some document

variable {base : Env H} {c c' : GraphRun H}

omit [DecidableEq H] in
theorem GraphInv.of_fresh (h : FreshRun c) : GraphInv c := by
  obtain ⟨hfresh, hpending⟩ := h
  have hresolver : c.pending = some .resolver := hpending
  constructor
  · exact fun _ => ⟨hfresh.error, hfresh.terminalLlmFailure⟩
  · intro _
    rw [hfresh.qcAttempt, hfresh.generatorFormatAttempt]
    decide
  · exact fun _ _ _ => ⟨hfresh.qcAttempt, hfresh.generatorFormatAttempt⟩
  · intro _ hasked
    rw [hfresh.fixedSections, hfresh.routing] at hasked
    exact absurd hasked (by decide)
  · intro hcheck
    rw [hresolver] at hcheck
    exact absurd hcheck (by decide)

omit [DecidableEq H] in
/-- The edges of early nodes lead to later nodes. -/
theorem routeAfter_early {st : GraphState H} {X n : Node} (hX : X.early = true)
    (h : routeAfter st X = some n) : n ≠ .qualityCheck ∧
      (X = .resolver ∧ n = .conceptChecklist ∨ X = .conceptChecklist ∧ n = .referenceRouter ∨
        X = .referenceRouter ∧ n = .llamaparse ∨ X = .referenceRouter ∧ n = .externalResearch ∨
        X = .referenceRouter ∧ n = .checklistRealign ∨
        X = .externalResearch ∧ n = .checklistRealign ∨ n = .studyAgent) := by
  cases X with
  | studyAgent => exact absurd hX (by decide)
  | qualityCheck => exact absurd hX (by decide)
  | resolver =>
    obtain ⟨-, rfl⟩ : st.qc.error = false ∧ Node.conceptChecklist = n := by
      simpa [routeAfter, routeAfterResolver] using h
    simp
  | llamaparse =>
    obtain ⟨-, rfl⟩ : st.qc.error = false ∧ Node.studyAgent = n := by
      simpa [routeAfter, routeAfterLlamaparse] using h
    simp
  | conceptChecklist =>
    obtain ⟨-, -, rfl⟩ : st.qc.terminalLlmFailure = false ∧ st.qc.error = false ∧
        Node.referenceRouter = n := by
      simpa [routeAfter, routeAfterConceptChecklist] using h
    simp
  | externalResearch =>
    obtain ⟨-, rfl⟩ : st.qc.error = false ∧ Node.checklistRealign = n := by
      simpa [routeAfter, routeAfterExternalResearch] using h
    simp
  | checklistRealign =>
    obtain ⟨-, rfl⟩ : st.qc.error = false ∧ Node.studyAgent = n := by
      simpa [routeAfter, routeAfterChecklistRealign] using h
    simp
  | referenceRouter =>
    obtain ⟨-, -, rfl⟩ : st.qc.terminalLlmFailure = false ∧ st.qc.error = false ∧
        routeAfterReferenceMode st = n := by
      simpa [routeAfter, routeAfterReferenceRouter] using h
    unfold routeAfterReferenceMode
    split_ifs <;> simp

/-- **Everything a step of a live run can do.** -/
theorem graphStep_cases (hinv : GraphInv c) {i : NodeInput} (h : graphStep base c i = some c') :
    c.pending = some i.node ∧
    (c'.pending = none ∨
      (i.node.early = true ∧ c'.pending = routeAfter c'.state i.node ∧
        c'.state.qc = c.state.qc ∧
        c'.state.generatorFormatAttempt = c.state.generatorFormatAttempt) ∨
      (i.node = .studyAgent ∧ c'.pending = some .studyAgent ∧
        c'.state.generatorFormatAttempt = c.state.generatorFormatAttempt + 1 ∧
        c'.state.generatorFormatAttempt < MAX_GENERATOR_FORMAT_ATTEMPTS ∧
        c'.state.qc = { c.state.qc with
          document := none, generationOutcome := some "malformed_document" }) ∨
      (i.node = .studyAgent ∧ c'.pending = some .qualityCheck ∧
        c'.state.generatorFormatAttempt = c.state.generatorFormatAttempt ∧
        ∃ document fixedSections,
          (fixedSections = c.state.qc.fixedSections ∨
            c.state.qc.routing.mode ∈ SECTION_RETRY_MODES) ∧
          c'.state.qc = { c.state.qc with
            document := some document
            fixedSections := fixedSections
            generationOutcome := some "study_document" }) ∨
      (i.node = .qualityCheck ∧
        c'.state.generatorFormatAttempt = c.state.generatorFormatAttempt ∧
        c'.state.qc.qcAttempt = c.state.qc.qcAttempt + 1 ∧
        c'.state.qc.qcAttempt < MAX_QC_ATTEMPTS ∧
        (∃ r, c'.state.qc.qcResult = some r) ∧ c'.state.qc.error = c.state.qc.error ∧
        c'.state.qc.terminalLlmFailure = c.state.qc.terminalLlmFailure ∧
        ((c'.pending = some .qualityCheck ∧
            ∃ document, checkedDocument c'.state.qc = some document) ∨
          c'.pending = some .studyAgent))) := by
  unfold graphStep at h
  by_cases hpending : c.pending = some i.node
  swap
  · rw [if_neg hpending] at h
    cases h
  rw [if_pos hpending] at h
  obtain ⟨st, hrun, rfl⟩ := Option.map_eq_some_iff.1 h
  refine ⟨hpending, ?_⟩
  have hlive : c.pending ≠ none := by
    rw [hpending]
    exact Option.some_ne_none _
  obtain ⟨herror, hterminal⟩ := hinv.clean hlive
  by_cases hearly : i.node.early = true
  · obtain ⟨hformat, hqc | hend⟩ := runNode_early hearly herror hrun
    · exact Or.inr (Or.inl ⟨hearly, rfl, hqc, hformat⟩)
    · exact Or.inl hend
  cases i with
  | studyAgent o =>
    cases hrun
    rcases @studyAgent_cases _ c.state o with hend | ⟨hformat, hqc⟩ |
      ⟨document, fixedSections, hfixed, hformat, hqc⟩
    · exact Or.inl hend
    · by_cases hlast : (studyAgent c.state o).generatorFormatAttempt <
          MAX_GENERATOR_FORMAT_ATTEMPTS
      · refine Or.inr (Or.inr (Or.inl ⟨rfl, ?_, hformat, hlast, hqc⟩))
        show routeAfterStudyAgent (studyAgent c.state o) = some .studyAgent
        unfold routeAfterStudyAgent
        rw [hqc]
        simp [herror, hterminal, hlast]
      · left
        show routeAfterStudyAgent (studyAgent c.state o) = none
        unfold routeAfterStudyAgent
        rw [hqc]
        simp [herror, hterminal, hlast]
    · refine Or.inr (Or.inr (Or.inr (Or.inl
        ⟨rfl, ?_, hformat, document, fixedSections, hfixed, hqc⟩)))
      show routeAfterStudyAgent (studyAgent c.state o) = some .qualityCheck
      unfold routeAfterStudyAgent
      rw [hqc]
      simp [herror, hterminal]
  | qualityCheck o =>
    obtain ⟨document, hdoc⟩ := hinv.checked hpending
    obtain ⟨s, hvisit, rfl⟩ := Option.map_eq_some_iff.1 hrun
    obtain ⟨hattempt, hresult, hend | ⟨hleft, hsame, hsame', hnext⟩⟩ :=
      qualityCheck_cases hdoc hvisit
    · exact Or.inl hend
    · refine Or.inr (Or.inr (Or.inr (Or.inr
        ⟨rfl, rfl, hattempt, hleft, hresult, hsame, hsame', ?_⟩)))
      exact hnext.imp_left fun ⟨hpending, hchecked⟩ => ⟨hpending, document, hchecked⟩
  | resolver _ => exact absurd rfl hearly
  | llamaparse _ => exact absurd rfl hearly
  | conceptChecklist _ => exact absurd rfl hearly
  | referenceRouter => exact absurd rfl hearly
  | externalResearch _ _ _ _ _ => exact absurd rfl hearly
  | checklistRealign _ => exact absurd rfl hearly

/-- **One step keeps the invariant.** -/
theorem GraphInv.step (hinv : GraphInv c) {i : NodeInput} (h : graphStep base c i = some c') :
    GraphInv c' := by
  obtain ⟨hpending, hcases⟩ := graphStep_cases hinv h
  have hlive : c.pending ≠ none := by
    rw [hpending]
    exact Option.some_ne_none _
  obtain ⟨herror, hterminal⟩ := hinv.clean hlive
  obtain ⟨hattempt, hformat⟩ := hinv.attempts hlive
  have hasked := hinv.asked hlive
  rcases hcases with hend | ⟨hearly, hroute, hqc, hsame⟩ | ⟨-, hnext, hf, hleft, hqc⟩ |
    ⟨-, hnext, hsame, document, fixedSections, hfixed, hqc⟩ |
    ⟨-, hsame, -, hleft, hresult, he, ht, hnext⟩
  · constructor
    · exact fun hne => absurd hend hne
    · exact fun hne => absurd hend hne
    · intro n hn
      rw [hend] at hn
      cases hn
    · exact fun hne => absurd hend hne
    · intro hn
      rw [hend] at hn
      cases hn
  · constructor
    · rw [hqc]
      exact fun _ => ⟨herror, hterminal⟩
    · rw [hqc, hsame]
      exact fun _ => ⟨hattempt, hformat⟩
    · rw [hqc, hsame]
      exact fun _ _ _ => hinv.early _ hpending hearly
    · rw [hqc]
      exact fun _ => hasked
    · intro hn
      rw [hn] at hroute
      exact absurd rfl (routeAfter_early hearly hroute.symm).1
  · constructor
    · rw [hqc]
      exact fun _ => ⟨herror, hterminal⟩
    · rw [hqc]
      exact fun _ => ⟨hattempt, hleft⟩
    · intro n hn hearly
      rw [hnext] at hn
      cases hn
      exact absurd hearly (by decide)
    · rw [hqc]
      exact fun _ => hasked
    · intro hn
      rw [hnext] at hn
      exact absurd hn (by decide)
  · constructor
    · rw [hqc]
      exact fun _ => ⟨herror, hterminal⟩
    · rw [hqc, hsame]
      exact fun _ => ⟨hattempt, hformat⟩
    · intro n hn hearly
      rw [hnext] at hn
      cases hn
      exact absurd hearly (by decide)
    · rw [hqc]
      rintro - (hne | hmode)
      · rcases hfixed with rfl | hmode
        · exact hasked (Or.inl hne)
        · exact hasked (Or.inr hmode)
      · exact hasked (Or.inr hmode)
    · intro _
      refine ⟨document, ?_⟩
      rw [hqc]
      exact if_pos ⟨rfl, hterminal, herror⟩
  · constructor
    · intro _
      rw [he, ht]
      exact ⟨herror, hterminal⟩
    · intro _
      rw [hsame]
      exact ⟨hleft, hformat⟩
    · intro n hn hearly
      rcases hnext with ⟨hnext, -⟩ | hnext
      · rw [hnext] at hn
        cases hn
        exact absurd hearly (by decide)
      · rw [hnext] at hn
        cases hn
        exact absurd hearly (by decide)
    · exact fun _ _ => hresult
    · intro hn
      rcases hnext with ⟨-, hchecked⟩ | hnext
      · exact hchecked
      · rw [hnext] at hn
        exact absurd hn (by decide)

theorem GraphInv.of_reachable {allowed : GraphRun H → NodeInput → Prop}
    (h : Reachable (graphStep base) allowed FreshRun c) : GraphInv c :=
  h.invariant (fun _ hs => GraphInv.of_fresh hs) fun _ _ _ hinv _ hstep => hinv.step hstep

end

end StudyAgent.Graph
