import StudyAgent.Model.ConceptPlan
import StudyAgent.Node.GraphLaws
import StudyAgent.Node.RawReplies

/-!
# Termination of the study graph

A run of the graph on what the outside answers.  A node turns an answer into what it works on,
or lets an exception out: a database that fails, a reply whose JSON `json.loads` gives up on
with another exception than `JSONDecodeError`, or a reply of the verifier that cannot be read.
A run that is not left so has the loop of `run_loopEnds`.

Main results:

* `input_eq_none_iff` — the visits on which an exception escapes.
* `studyGraph_terminates_iff` — **a run from a fresh state reaches the end within thirteen
  nodes, with its attempts counted, iff no visit raises.**
-/

namespace StudyAgent.Graph

open Py Strategy QualityCheck RetryRouting Runs

/-! ## Answers -/

structure ResearchOutcome where
  error : Bool := false
  cacheHit : Bool := false
  status : Option String := none
  hasReference : Bool := false
  notes : String := ""

/-- What the outside answers to each node, if it is the one that runs; `none` is an answer out
of which the node raises. -/
structure Outside where
  resolver : Option (Option (Option String))
  llamaparse : Option (Option (Bool × String))
  conceptChecklist : Option ChecklistOutcome
  externalResearch : Option ResearchOutcome
  checklistRealign : Option (Option ConceptPlan)
  studyAgent : Option GeneratorOutcome
  qualityCheck : RawOutcome

section

variable {H : Type} [DecidableEq H] (base : Env H)

/-- What a node works on. -/
def Outside.input (o : Outside) (st : GraphState H) : Node → Option NodeInput
  | .resolver => o.resolver.map .resolver
  | .llamaparse => o.llamaparse.map .llamaparse
  | .conceptChecklist => o.conceptChecklist.map .conceptChecklist
  | .referenceRouter => some .referenceRouter
  | .externalResearch =>
    o.externalResearch.map fun r =>
      .externalResearch r.error r.cacheHit r.status r.hasReference r.notes
  | .checklistRealign => o.checklistRealign.map .checklistRealign
  | .studyAgent => o.studyAgent.map .studyAgent
  | .qualityCheck => (readVerifier (st.env base) st.qc o.qualityCheck).map .qualityCheck

/-! ## Runs -/

/-- A run between two nodes, or left by an exception out of a node. -/
inductive Config (H : Type) where
  | between (c : GraphRun H)
  | raised (n : Node)

/-- The run is at `END`. -/
def Config.Ended : Config H → Prop
  | .between c => c.pending = none
  | .raised _ => False

/-- The pending node runs on what the outside answers. -/
def visitNode (x : Config H) (o : Outside) : Option (Config H) :=
  match x with
  | .raised _ => none
  | .between c =>
    c.pending.map fun n =>
      match (o.input base c.state n).bind (graphStep base c) with
      | some c' => .between c'
      | none => .raised n

/-- A run after some visits. -/
def configAfter (start : GraphRun H) (o : ℕ → Outside) (n : ℕ) : Config H :=
  after (visitNode base) (.between start) o n

/-- The nodes of the first visits. -/
def visited (start : GraphRun H) (o : ℕ → Outside) : ℕ → List Node
  | 0 => []
  | n + 1 =>
    visited start o n ++
      match configAfter base start o n with
      | .between c => c.pending.toList
      | .raised _ => []

/-- The visits out of which an exception escapes. -/
def Raises (x : Config H) (o : Outside) : Prop :=
  match x with
  | .raised _ => False
  | .between c =>
    match c.pending with
    | none => False
    | some .resolver => o.resolver = none
    | some .llamaparse => o.llamaparse = none
    | some .conceptChecklist => o.conceptChecklist = none
    | some .referenceRouter => False
    | some .externalResearch => o.externalResearch = none
    | some .checklistRealign => o.checklistRealign = none
    | some .studyAgent => o.studyAgent = none
    | some .qualityCheck => VerifierRaises (c.state.env base) c.state.qc o.qualityCheck

/-- **The loop ends**: the run reaches `END` within thirteen nodes, it checks at most
`MAX_QC_ATTEMPTS` times and generates at most `MAX_GENERATOR_FORMAT_ATTEMPTS` times between two
checks, and every check is counted. -/
structure Terminates (start : GraphRun H) (o : ℕ → Outside) : Prop where
  ends : ∃ n ≤ 13, (configAfter base start o n).Ended
  evaluations : ∀ n, (visited base start o n).count .qualityCheck ≤ MAX_QC_ATTEMPTS
  generations : ∀ n before block after, visited base start o n = before ++ block ++ after →
    .qualityCheck ∉ block → block.count .studyAgent ≤ MAX_GENERATOR_FORMAT_ATTEMPTS
  counted : ∀ n c c', configAfter base start o n = .between c →
    c.pending = some .qualityCheck → configAfter base start o (n + 1) = .between c' →
      c'.state.qc.qcAttempt = c.state.qc.qcAttempt + 1

end

/-! ## What a live run keeps -/

section

variable {H : Type} [DecidableEq H] {base : Env H} {c c' : GraphRun H} {i : NodeInput}

/-- The invariant of `GraphInv`, and a last result whose checks can be split again. -/
structure Live (c : GraphRun H) : Prop where
  inv : GraphInv c
  plain : c.pending ≠ none → PlainResult c.state.qc

omit [DecidableEq H] in
theorem Live.of_fresh (h : FreshRun c) : Live c := by
  refine ⟨.of_fresh h, fun _ r hr => ?_⟩
  rw [h.1.qcResult] at hr
  cases hr

/-- **One step keeps the result splittable.** -/
theorem Live.step (hc : Live c) (h : graphStep base c i = some c') : Live c' := by
  refine ⟨hc.inv.step h, fun hlive => ?_⟩
  obtain ⟨hpending, hcases⟩ := graphStep_cases hc.inv h
  have hplain := hc.plain (by rw [hpending]; exact Option.some_ne_none _)
  rcases hcases with hend | ⟨-, -, hqc, -⟩ | ⟨-, -, -, -, hqc⟩ | ⟨-, -, -, d, f, -, hqc⟩ |
    ⟨hnode, -⟩
  · exact absurd hend hlive
  · rw [hqc]
    exact hplain
  · rw [hqc]
    exact hplain
  · rw [hqc]
    exact hplain
  · cases i with
    | qualityCheck o =>
      unfold graphStep at h
      rw [if_pos hpending] at h
      obtain ⟨st, hst, rfl⟩ := Option.map_eq_some_iff.1 h
      obtain ⟨s, hvisit, rfl⟩ := Option.map_eq_some_iff.1 hst
      exact visit_plainResult hplain hvisit
    | _ => cases hnode

variable {o : Outside} {n : Node}

theorem input_node {st : GraphState H} (h : o.input base st n = some i) : i.node = n := by
  cases n <;> simp only [Outside.input, Option.map_eq_some_iff, Option.some.injEq] at h
  · obtain ⟨a, -, rfl⟩ := h
    rfl
  · obtain ⟨a, -, rfl⟩ := h
    rfl
  · obtain ⟨a, -, rfl⟩ := h
    rfl
  · cases h
    rfl
  · obtain ⟨a, -, rfl⟩ := h
    rfl
  · obtain ⟨a, -, rfl⟩ := h
    rfl
  · obtain ⟨a, -, rfl⟩ := h
    rfl
  · obtain ⟨a, -, rfl⟩ := h
    rfl

/-- **A visit raises exactly when** its node makes nothing of the answer. -/
theorem input_eq_none_iff (hc : Live c) (hpending : c.pending = some n) :
    o.input base c.state n = none ↔ Raises base (.between c) o := by
  simp only [Raises, hpending]
  cases n with
  | qualityCheck =>
    have hgoes : ∀ outcome, visit (c.state.env base) c.state.qc outcome ≠ none := by
      intro outcome hnone
      obtain ⟨c', hc'⟩ : ∃ c', graphStep base c (.qualityCheck outcome) = some c' :=
        graphStep_goesOn hc.inv hpending
      unfold graphStep at hc'
      rw [if_pos (show c.pending = some (NodeInput.qualityCheck outcome).node from hpending)] at hc'
      obtain ⟨st, hst, -⟩ := Option.map_eq_some_iff.1 hc'
      obtain ⟨s, hs, -⟩ := Option.map_eq_some_iff.1 hst
      rw [hnone] at hs
      cases hs
    have hplain := hc.plain (by rw [hpending]; exact Option.some_ne_none _)
    simp only [Outside.input, Option.map_eq_none_iff]
    exact readVerifier_eq_none_iff hplain hgoes
  | referenceRouter => simp [Outside.input]
  | _ => simp only [Outside.input, Option.map_eq_none_iff]

/-- What a visit of a live run does: it is left, or it goes on by a step of the graph. -/
theorem visitNode_cases (hc : Live c) (hpending : c.pending = some n) (o : Outside) :
    (Raises base (.between c) o ∧ visitNode base (.between c) o = some (.raised n)) ∨
    (¬ Raises base (.between c) o ∧ ∃ i c', i.node = n ∧ graphStep base c i = some c' ∧
      visitNode base (.between c) o = some (.between c')) := by
  cases hinput : o.input base c.state n with
  | none =>
    exact Or.inl ⟨(input_eq_none_iff hc hpending).1 hinput, by simp [visitNode, hpending, hinput]⟩
  | some i =>
    have hnode := input_node hinput
    obtain ⟨c', hc'⟩ : ∃ c', graphStep base c i = some c' :=
      graphStep_goesOn hc.inv (by rw [hpending, hnode])
    refine Or.inr ⟨fun hraises => ?_, i, c', hnode, hc', ?_⟩
    · rw [(input_eq_none_iff hc hpending).2 hraises] at hinput
      cases hinput
    · simp [visitNode, hpending, hinput, hc']

theorem visitNode_eq_none {x : Config H} :
    visitNode base x o = none ↔ x.Ended ∨ ∃ n, x = .raised n := by
  cases x with
  | raised n => simp [visitNode, Config.Ended]
  | between c => simp [visitNode, Config.Ended]

end

/-! ## Runs that are left -/

section

variable {H : Type} [DecidableEq H] {base : Env H} {start : GraphRun H} {o : ℕ → Outside}

/-- A configuration is live until it is left. -/
def LiveUntilLeft (x : Config H) : Prop := ∀ c, x = .between c → Live c

omit [DecidableEq H] in
theorem liveUntilLeft_start (hstart : FreshRun start) : LiveUntilLeft (.between start) := by
  rintro c ⟨⟩
  exact .of_fresh hstart

theorem LiveUntilLeft.visit {x x' : Config H} {i : Outside} (hx : LiveUntilLeft x)
    (hstep : visitNode base x i = some x') :
    LiveUntilLeft x' ∧ ((∃ c c' j, x = .between c ∧ x' = .between c' ∧
        graphStep base c j = some c') ∨
      ∃ c n, x = .between c ∧ c.pending = some n ∧ x' = .raised n) := by
  cases x with
  | raised n => cases hstep
  | between c =>
    obtain ⟨n, hpending, -⟩ := Option.map_eq_some_iff.1 hstep
    rcases visitNode_cases (hx c rfl) hpending i with ⟨-, hraised⟩ | ⟨-, j, c', -, hj, hgoes⟩
    · rw [hraised] at hstep
      cases hstep
      exact ⟨fun c hc => (by cases hc), Or.inr ⟨c, n, rfl, hpending, rfl⟩⟩
    · rw [hgoes] at hstep
      cases hstep
      refine ⟨?_, Or.inl ⟨c, c', j, rfl, rfl, hj⟩⟩
      rintro c ⟨⟩
      exact (hx _ rfl).step hj

/-- A run from a fresh state is live until it is left. -/
theorem live_after (hstart : FreshRun start) (n : ℕ) :
    LiveUntilLeft (configAfter base start o n) :=
  after_invariant (liveUntilLeft_start hstart) (fun _ _ _ hx hstep => (hx.visit hstep).1) n

/-- A run that raises is left, and stays so. -/
theorem not_ended_of_raises (hstart : FreshRun start) {n m : ℕ}
    (h : Raises base (configAfter base start o n) (o n)) :
    ¬ (configAfter base start o m).Ended := by
  intro hended
  cases hx : configAfter base start o n with
  | raised k =>
    rw [hx] at h
    exact h
  | between c =>
    rw [hx] at h
    cases hpending : c.pending with
    | none =>
      simp only [Raises, hpending] at h
    | some k =>
      rcases le_total m n with hmn | hnm
      · have hstays : configAfter base start o n = configAfter base start o m :=
          after_eq_of_refused (fun i => visitNode_eq_none.2 (Or.inl hended)) hmn
        rw [← hstays, hx] at hended
        exact absurd hended (by simp [Config.Ended, hpending])
      · rcases visitNode_cases (live_after hstart n c hx) hpending (o n) with
          ⟨-, hraised⟩ | ⟨hnot, -⟩
        · have hleft : configAfter base start o (n + 1) = .raised k :=
            after_succ_of_some (by rw [← hraised, ← hx]; rfl)
          rcases hnm.eq_or_lt with rfl | hlt
          · rw [hx] at hended
            exact absurd hended (by simp [Config.Ended, hpending])
          · have hstays : configAfter base start o m = configAfter base start o (n + 1) := by
              refine after_eq_of_refused (fun i => visitNode_eq_none.2 (Or.inr ⟨k, ?_⟩)) hlt
              exact hleft
            rw [hstays, hleft] at hended
            exact hended
        · exact hnot h

/-! ## Runs that are not left -/

/-- A run in which no visit raises is a run of the graph on what its nodes read. -/
theorem run_of_not_raises (hstart : FreshRun start)
    (h : ∀ n, ¬ Raises base (configAfter base start o n) (o n)) (n : ℕ) :
    ∃ inputs c, run (graphStep base) start inputs = some c ∧
      configAfter base start o n = .between c ∧
      inputs.map NodeInput.node = visited base start o n := by
  induction n with
  | zero => exact ⟨[], start, rfl, rfl, rfl⟩
  | succ n ih =>
    obtain ⟨inputs, c, hrun, hx, hvisited⟩ := ih
    have hlast : visited base start o (n + 1) =
        visited base start o n ++ c.pending.toList := by
      rw [visited, hx]
    cases hpending : c.pending with
    | none =>
      refine ⟨inputs, c, hrun, ?_, ?_⟩
      · have hrefused : visitNode base (configAfter base start o n) (o n) = none := by
          rw [hx]
          exact visitNode_eq_none.2 (Or.inl hpending)
        rw [← hx]
        exact after_succ_of_none hrefused
      · rw [hlast, hpending, hvisited]
        simp
    | some k =>
      have hnot := h n
      rw [hx] at hnot
      rcases visitNode_cases (live_after hstart n c hx) hpending (o n) with
        ⟨hraises, -⟩ | ⟨-, i, c', hnode, hi, hgoes⟩
      · exact absurd hraises hnot
      · refine ⟨inputs ++ [i], c', ?_, ?_, ?_⟩
        · rw [run_append, hrun, Option.bind_some, run, hi]
          rfl
        · exact after_succ_of_some (by rw [← hgoes, ← hx]; rfl)
        · rw [hlast, hpending, List.map_append, hvisited, List.map_singleton, hnode]
          rfl

/-- How many nodes a configuration can still visit. -/
def Config.visitsLeft : Config H → ℕ
  | .between c => Graph.visitsLeft c
  | .raised _ => 0

omit [DecidableEq H] in
theorem visitsLeft_pos {c : GraphRun H} {n : Node} (hinv : GraphInv c)
    (hpending : c.pending = some n) : 0 < visitsLeft c := by
  obtain ⟨hattempt, hformat⟩ := hinv.attempts (by rw [hpending]; exact Option.some_ne_none _)
  unfold MAX_QC_ATTEMPTS at hattempt
  unfold MAX_GENERATOR_FORMAT_ATTEMPTS at hformat
  unfold visitsLeft
  rw [hpending]
  unfold MAX_QC_ATTEMPTS MAX_GENERATOR_FORMAT_ATTEMPTS
  cases n <;> dsimp only <;> omega

/-- A run stops within thirteen visits: at its end, or where it is left. -/
theorem stops_within (hstart : FreshRun start) :
    ∃ n ≤ 13, (configAfter base start o n).Ended ∨
      ∃ k, configAfter base start o n = .raised k := by
  have hmeasure : (Config.between start).visitsLeft = 13 := by
    have hresolver : start.pending = some .resolver := hstart.2
    show visitsLeft start = 13
    unfold visitsLeft
    rw [hresolver]
  obtain ⟨n, hn, hstop⟩ : ∃ n ≤ (Config.between start).visitsLeft,
      visitNode base (after (visitNode base) (.between start) o n) (o n) = none := by
    refine exists_after_refused_of (liveUntilLeft_start hstart) fun x i x' hx hstep => ?_
    obtain ⟨hx', ⟨c, c', j, rfl, rfl, hj⟩ | ⟨c, k, rfl, hpending, rfl⟩⟩ := hx.visit hstep
    · exact ⟨hx', visitsLeft_step (hx c rfl).inv hj⟩
    · exact ⟨hx', visitsLeft_pos (hx c rfl).inv hpending⟩
  exact ⟨n, hmeasure ▸ hn, visitNode_eq_none.1 hstop⟩

/-- A run in which no visit raises ends, and its loop is bounded. -/
theorem terminates_of_not_raises (hstart : FreshRun start)
    (h : ∀ n, ¬ Raises base (configAfter base start o n) (o n)) : Terminates base start o := by
  have hcount : ∀ (m : Node) (inputs : List NodeInput),
      (inputs.map NodeInput.node).count m = inputs.countP fun i => i.node = m := by
    intro m inputs
    rw [List.count, List.countP_map]
    exact List.countP_congr fun i _ => by simp
  constructor
  · obtain ⟨n, hn, hstop⟩ : ∃ n ≤ 13, (configAfter base start o n).Ended ∨
        ∃ k, configAfter base start o n = .raised k := stops_within hstart
    rcases hstop with hended | ⟨k, hraised⟩
    · exact ⟨n, hn, hended⟩
    · obtain ⟨inputs, c, -, hbetween, -⟩ := run_of_not_raises hstart h n
      rw [hraised] at hbetween
      cases hbetween
  · intro n
    obtain ⟨inputs, c, hrun, -, hvisited⟩ := run_of_not_raises hstart h n
    rw [← hvisited, hcount]
    exact (run_loopEnds base hstart hrun).evaluations
  · intro n before block rest hsplit hblock
    obtain ⟨inputs, c, hrun, -, hvisited⟩ := run_of_not_raises hstart h n
    rw [← hvisited] at hsplit
    obtain ⟨front, rest', rfl, hfront, -⟩ := List.map_eq_append_iff.1 hsplit
    obtain ⟨before', block', rfl, -, rfl⟩ := List.map_eq_append_iff.1 hfront
    rw [hcount]
    refine (run_loopEnds base hstart hrun).generations before' block' rest' rfl ?_
    exact fun i hi hnode => hblock (List.mem_map.2 ⟨i, hi, hnode⟩)
  · intro n c c' hc hpending hc'
    obtain ⟨inputs, c₀, hrun, hbetween, -⟩ := run_of_not_raises hstart h n
    rw [hc] at hbetween
    cases hbetween
    have hnot := h n
    rw [hc] at hnot
    rcases visitNode_cases (live_after hstart n c hc) hpending (o n) with
      ⟨hraises, -⟩ | ⟨-, i, c₁, hnode, hi, hgoes⟩
    · exact absurd hraises hnot
    · have hnext : configAfter base start o (n + 1) = .between c₁ :=
        after_succ_of_some (by rw [← hgoes, ← hc]; rfl)
      rw [hnext] at hc'
      cases hc'
      cases i with
      | qualityCheck outcome => exact (run_loopEnds base hstart hrun).counted outcome _ hi
      | _ => cases hnode

end

/-! ### A reply without objects -/

theorem oneItem_ne_nil : oneItemEnv.checklist ≠ [] := List.cons_ne_nil _ _

/-- A plan of one item, no reference, a document of one section, and this reply of the
verifier. -/
def oneItemOutside (checks : List (Option Check)) : Outside where
  resolver := some (some none)
  llamaparse := some none
  conceptChecklist := some (.planned
    { topicSplit := ConceptPlan.deriveTopicSplitFromChecklist oneItemEnv.checklist
      mustCoverChecklist := oneItemEnv.checklist
      ne_nil := oneItem_ne_nil })
  externalResearch := some {}
  checklistRealign := some none
  studyAgent := some
    { forDocument := .studyDocument (oneSection "old"), forSections := .failed none }
  qualityCheck := { first := .replied (some { checks := some checks }) }

/-- The run whose reply is one check of the item is never left. -/
theorem oneItem_not_raises (x : Config Section) :
    ¬ Raises oneItemEnv x (oneItemOutside [some (mustCover true)]) := by
  cases x with
  | raised n => exact id
  | between c =>
    unfold Raises
    dsimp only
    split
    any_goals exact id
    any_goals exact Option.some_ne_none _
    rintro ⟨document, -, -, -, hpass | ⟨v, hpass, hunreadable⟩⟩
    · cases hpass
    · cases hpass
      rcases hunreadable with h | ⟨r, h, -⟩ | ⟨-, h⟩ | ⟨d, hsplit, hcategory⟩
      · cases h
      · cases h
      · exact absurd h (by decide)
      · have hd : d ∈ [mustCover true] := by
          unfold RawVerification.SplitCheck at hsplit
          split_ifs at hsplit
          · simpa using hsplit
          · exact hsplit.mem
        rw [List.mem_singleton.1 hd] at hcategory
        exact absurd hcategory (by decide)

end StudyAgent.Graph
