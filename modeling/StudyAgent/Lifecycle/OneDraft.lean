import StudyAgent.Base.Runs
import StudyAgent.Base.MarkedRows
import StudyAgent.Lifecycle.Quizzes
import StudyAgent.Quiz.Graph

/-!
# One draft for each node

The requests for quizzes, each run to its end before the next.  A generation works on the draft
of its node where there is one; a quiz that is no draft any more is the source of a new one.

Main results:

* `step_oneDraft` — what one request keeps.
* `drafts_of_node_unique` — **no node has two drafts**, where no result is stored beside one.
-/

namespace StudyAgent.Lifecycle

open StudyAgent.Quiz (GenerationMode)
open MarkedRows (AtMostOne)

/-! ## Requests -/

/-- `get_quiz_by_id`. -/
def getQuizById (quizzes : List (Quiz ℕ)) (quizId : ℕ) : Option (Quiz ℕ) :=
  MarkedRows.find Quiz.quizId quizzes quizId

/-- `get_active_quiz_draft_for_node`; the rows are in the order of their creation. -/
def getActiveQuizDraftForNode (quizzes : List (Quiz ℕ)) (nodeId : ℕ) : Option (Quiz ℕ) :=
  (quizzes.filter fun q =>
    q.nodeId = nodeId ∧ q.lifecycleStatus = .draft ∧ q.isPublished = false).getLast?

/-- What a statement does to the row of one quiz. -/
def updateQuiz (quizzes : List (Quiz ℕ)) (quizId : ℕ) (f : Quiz ℕ → Quiz ℕ) : List (Quiz ℕ) :=
  MarkedRows.update Quiz.quizId quizzes quizId f

/-- `QuizGenerateRequest`. -/
structure QuizGenerateRequest where
  mode : GenerationMode := .generate
  quizId : Option ℕ := none
  deriving DecidableEq

/-- `_prepare_quiz_generation`: the mode and the quiz of the run, or nothing where the quiz is not
found. -/
def prepareQuizGeneration (quizzes : List (Quiz ℕ)) (nodeId sourceSm : ℕ)
    (request : QuizGenerateRequest) : Option (GenerationMode × Option ℕ) :=
  match request.mode, request.quizId with
  | .regenerate, some k =>
    (getQuizById quizzes k).bind fun source =>
      if source.nodeId ≠ nodeId then none
      else if source.lifecycleStatus ≠ .draft then some (.generate, none)
      else some (.regenerate, some k)
  | .generate, quizId =>
    match getActiveQuizDraftForNode quizzes nodeId with
    | some draft =>
      let smStale := draft.studyMaterialVersionId ≠ none ∧
        draft.studyMaterialVersionId ≠ some sourceSm
      some (if smStale then .generate else .regenerate, some draft.quizId)
    | none => some (.generate, quizId)
  | mode, quizId => some (mode, quizId)

/-- `persist_quiz_draft`. -/
def persistDraft (quizzes : List (Quiz ℕ)) (nodeId sourceSm newId : ℕ) :
    Option ℕ → Option (List (Quiz ℕ))
  | some k =>
    (getQuizById quizzes k).map fun _ =>
      updateQuiz quizzes k fun q => q.replaceDraft (some sourceSm)
  | none =>
    some (quizzes ++
      [{ quizId := newId, nodeId := nodeId, studyMaterialVersionId := some sourceSm }])

/-- The run of a generation that gets to the end of its graph.  A rework stores no draft, and a
regeneration loads its quiz. -/
def runQuizGeneration (quizzes : List (Quiz ℕ)) (nodeId sourceSm newId : ℕ) :
    GenerationMode × Option ℕ → Option (List (Quiz ℕ))
  | (.improve, _) => none
  | (.regenerate, quizId) =>
    (quizId.bind (getQuizById quizzes)).bind fun existing =>
      if existing.nodeId ≠ nodeId then none
      else persistDraft quizzes nodeId sourceSm newId quizId
  | (_, quizId) => persistDraft quizzes nodeId sourceSm newId quizId

/-- The requests on the quizzes of a node.  A generation comes with the study material that is its
source, with whether its run gets to the end, and with the id of a quiz it may create; a publish
comes with whether its other checks pass. -/
inductive Request where
  | generate (nodeId : ℕ) (request : QuizGenerateRequest) (sourceSm : Option ℕ) (completes : Bool)
      (newId : ℕ)
  | publish (nodeId quizId : ℕ) (ready : Bool)
  | unpublish (nodeId quizId : ℕ) (retention : RetentionMode)
  | discard (nodeId quizId : ℕ)

/-- `publish_quiz`: the other published quizzes of the node are archived. -/
def publishQuiz (quizzes : List (Quiz ℕ)) (nodeId quizId : ℕ) : List (Quiz ℕ) :=
  updateQuiz
    (quizzes.map fun q =>
      if q.nodeId = nodeId ∧ q.isPublished = true ∧ q.quizId ≠ quizId then q.transitionToArchived
      else q)
    quizId Quiz.transitionToActive

/-- A request that is refused, or a run that stores nothing, is no step. -/
def step (quizzes : List (Quiz ℕ)) : Request → Option (List (Quiz ℕ))
  | .generate nodeId request sourceSm completes newId =>
    sourceSm.bind fun sm =>
      if completes = false ∨ newId ∈ quizzes.map Quiz.quizId then none
      else (prepareQuizGeneration quizzes nodeId sm request).bind
        (runQuizGeneration quizzes nodeId sm newId)
  | .publish nodeId quizId ready =>
    (getQuizById quizzes quizId).bind fun quiz =>
      if quiz.nodeId ≠ nodeId ∨ quiz.isPublished = true ∨ ready = false then none
      else some (publishQuiz quizzes nodeId quizId)
  | .unpublish nodeId quizId retention =>
    (getQuizById quizzes quizId).bind fun quiz =>
      if quiz.nodeId ≠ nodeId ∨ quiz.isPublished = false then none
      else some (updateQuiz quizzes quizId fun q => q.unpublish retention)
  | .discard nodeId quizId =>
    (getQuizById quizzes quizId).bind fun quiz =>
      if quiz.nodeId ≠ nodeId ∨ quiz.lifecycleStatus = .discarded ∨
          quiz.lifecycleStatus = .active ∨ quiz.isPublished = true ∨
          quiz.lifecycleStatus = .archived then none
      else some (updateQuiz quizzes quizId Quiz.discard)

/-! ## Drafts -/

variable {quizzes quizzes' : List (Quiz ℕ)} {n k : ℕ}

/-- The drafts of a node. -/
def draftsOf (quizzes : List (Quiz ℕ)) (n : ℕ) : List (Quiz ℕ) :=
  quizzes.filter fun q => q.nodeId = n ∧ q.lifecycleStatus = .draft

/-- The ids are distinct, and two drafts of one node are the same. -/
def OneDraft (quizzes : List (Quiz ℕ)) : Prop :=
  AtMostOne Quiz.quizId (fun q => q.lifecycleStatus = .draft) Quiz.nodeId quizzes

theorem OneDraft.length_draftsOf_le (h : OneDraft quizzes) (n : ℕ) :
    (draftsOf quizzes n).length ≤ 1 :=
  h.length_le n

/-- A change of one quiz that makes no draft. -/
theorem OneDraft.updateQuiz_of_keeps {f : Quiz ℕ → Quiz ℕ} (h : OneDraft quizzes) (k : ℕ)
    (hid : ∀ q, (f q).quizId = q.quizId) (hnode : ∀ q, (f q).nodeId = q.nodeId)
    (hdraft : ∀ q, (f q).lifecycleStatus ≠ .draft) : OneDraft (updateQuiz quizzes k f) :=
  h.update k hid hnode fun q _ _ hd => absurd hd (hdraft q)

theorem OneDraft.publishQuiz (h : OneDraft quizzes) (n k : ℕ) :
    OneDraft (publishQuiz quizzes n k) := by
  refine OneDraft.updateQuiz_of_keeps (h.map ?_ ?_ ?_) k (fun _ => rfl) (fun _ => rfl) nofun
  · intro q
    split_ifs <;> rfl
  · intro q
    split_ifs <;> rfl
  · intro q _ hd
    split_ifs at hd
    · exact absurd hd nofun
    · exact Or.inl hd

/-! ## Storing a result -/

theorem mem_of_getActiveQuizDraft {q : Quiz ℕ} (h : getActiveQuizDraftForNode quizzes n = some q) :
    q ∈ quizzes ∧ q.nodeId = n ∧ q.lifecycleStatus = .draft := by
  have hmem := List.mem_of_getLast? h
  simp only [List.mem_filter, decide_eq_true_eq] at hmem
  exact ⟨hmem.1, hmem.2.1, hmem.2.2.1⟩

/-- **A stored result keeps the drafts apart** if it takes the place of a draft, or if the node
it is for has none. -/
theorem OneDraft.persistDraft {sm newId : ℕ} {quizId : Option ℕ} (h : OneDraft quizzes)
    (hnew : newId ∉ quizzes.map Quiz.quizId)
    (hstored : persistDraft quizzes n sm newId quizId = some quizzes')
    (hnone : quizId = none → ∀ q ∈ quizzes, q.lifecycleStatus = .draft → q.nodeId ≠ n)
    (hsome : ∀ k ∈ quizId, ∀ q ∈ quizzes, q.quizId = k → q.lifecycleStatus = .draft ∨
      ∀ q' ∈ quizzes, q'.lifecycleStatus = .draft → q'.nodeId ≠ q.nodeId) :
    OneDraft quizzes' := by
  cases quizId with
  | none =>
    obtain rfl := Option.some.inj hstored
    exact h.append hnew fun _ => hnone rfl
  | some k =>
    obtain ⟨existing, -, rfl⟩ := Option.map_eq_some_iff.1 hstored
    refine h.update k (fun _ => rfl) (fun _ => rfl) fun q hq hk _ => ?_
    exact (hsome k rfl q hq hk).imp id fun hfree q' hq' hd' hn => absurd hn (hfree q' hq' hd')

/-! ## Requests that spare the drafts -/

/-- The node whose quiz the result of a request is: that of the quiz that is named. -/
def landing (quizzes : List (Quiz ℕ)) (nodeId : ℕ) (request : QuizGenerateRequest) : ℕ :=
  ((request.quizId.bind (getQuizById quizzes)).map Quiz.nodeId).getD nodeId

/-- A result that is stored is that of a generation on a node with an unpublished draft, or of a
quiz that is named and is a draft, or it lands on a node without a draft. -/
def Spares (quizzes : List (Quiz ℕ)) : Request → Prop
  | .generate nodeId request _ completes _ =>
    completes = true → request.mode ≠ .improve →
      (request.mode = .generate ∧ getActiveQuizDraftForNode quizzes nodeId ≠ none) ∨
      (∃ k ∈ request.quizId, ∃ q ∈ getQuizById quizzes k, q.lifecycleStatus = .draft) ∨
      draftsOf quizzes (landing quizzes nodeId request) = []
  | _ => True

instance (quizzes : List (Quiz ℕ)) : ∀ r : Request, Decidable (Spares quizzes r)
  | .generate .. => inferInstanceAs (Decidable (_ → _ → _))
  | .publish .. | .unpublish .. | .discard .. => inferInstanceAs (Decidable True)

theorem draftsOf_eq_nil :
    draftsOf quizzes n = [] ↔ ∀ q ∈ quizzes, q.lifecycleStatus = .draft → q.nodeId ≠ n := by
  simp [draftsOf, List.filter_eq_nil_iff, imp_not_comm]

/-- What the condition says where a request works on the quiz that it names, or on none. -/
theorem OneDraft.free_of_named {request : QuizGenerateRequest} (h : OneDraft quizzes)
    (hspares : (∃ k ∈ request.quizId, ∃ q ∈ getQuizById quizzes k, q.lifecycleStatus = .draft) ∨
      draftsOf quizzes (landing quizzes n request) = []) :
    (request.quizId = none → ∀ q ∈ quizzes, q.lifecycleStatus = .draft → q.nodeId ≠ n) ∧
      ∀ k ∈ request.quizId, ∀ q ∈ quizzes, q.quizId = k → q.lifecycleStatus = .draft ∨
        ∀ q' ∈ quizzes, q'.lifecycleStatus = .draft → q'.nodeId ≠ q.nodeId := by
  rcases hspares with ⟨k, hk, q, hfound, hdraft⟩ | hfree
  · rw [Option.mem_def.1 hk]
    refine ⟨nofun, fun j hj q' hq' hid => Or.inl ?_⟩
    obtain rfl : k = j := by simpa using hj
    obtain ⟨hq, hqid⟩ := MarkedRows.mem_of_find hfound
    rwa [h.eq_of_key hq' hq (hid.trans hqid.symm)]
  · refine ⟨fun hnone => ?_, fun k hk q hq hid => Or.inr ?_⟩
    · rw [landing, hnone] at hfree
      exact draftsOf_eq_nil.1 hfree
    · have hland : landing quizzes n request = q.nodeId := by
        rw [landing, Option.mem_def.1 hk, Option.bind_some, ← hid, getQuizById, h.find_eq hq]
        rfl
      rw [hland] at hfree
      exact draftsOf_eq_nil.1 hfree

/-- A generation that stores a result stores it in the quiz that was prepared. -/
theorem persistDraft_of_run {sm newId : ℕ} {mode : GenerationMode} {quizId : Option ℕ}
    (h : runQuizGeneration quizzes n sm newId (mode, quizId) = some quizzes') :
    mode ≠ .improve ∧ (mode = .regenerate → quizId ≠ none) ∧
      persistDraft quizzes n sm newId quizId = some quizzes' := by
  cases mode with
  | improve => exact absurd h nofun
  | regenerate =>
    rw [runQuizGeneration, Option.bind_eq_some_iff] at h
    obtain ⟨existing, hfound, h⟩ := h
    split_ifs at h
    exact ⟨nofun, fun _ hnone => by simp [hnone] at hfound, h⟩
  | generate => exact ⟨nofun, nofun, h⟩
  | unset => exact ⟨nofun, nofun, h⟩

/-- **A generation that spares the drafts keeps them apart.** -/
theorem OneDraft.generate {request : QuizGenerateRequest} {sm newId : ℕ}
    {prepared : GenerationMode × Option ℕ} (h : OneDraft quizzes)
    (hnew : newId ∉ quizzes.map Quiz.quizId)
    (hspares : Spares quizzes (.generate n request (some sm) true newId))
    (hprepared : prepareQuizGeneration quizzes n sm request = some prepared)
    (hrun : runQuizGeneration quizzes n sm newId prepared = some quizzes') :
    OneDraft quizzes' := by
  obtain ⟨mode, quizId⟩ := prepared
  obtain ⟨himprove, hregenerate, hstored⟩ := persistDraft_of_run hrun
  obtain ⟨reqMode, reqId⟩ := request
  cases reqMode with
  | generate =>
    rw [prepareQuizGeneration.eq_def] at hprepared
    dsimp only at hprepared
    cases hactive : getActiveQuizDraftForNode quizzes n with
    | some draft =>
      rw [hactive] at hprepared
      obtain rfl : some draft.quizId = quizId := by
        simpa using congrArg (Option.map Prod.snd) hprepared
      obtain ⟨hmem, -, hdraft⟩ := mem_of_getActiveQuizDraft hactive
      refine h.persistDraft hnew hstored (by simp) fun k hk q hq hid => Or.inl ?_
      obtain rfl : draft.quizId = k := by simpa using hk
      rwa [h.eq_of_key hq hmem hid]
    | none =>
      rw [hactive] at hprepared
      obtain rfl : reqId = quizId := by simpa using congrArg (Option.map Prod.snd) hprepared
      have hnamed := h.free_of_named ((hspares rfl nofun).resolve_left fun hnot => hnot.2 hactive)
      exact h.persistDraft hnew hstored hnamed.1 hnamed.2
  | regenerate =>
    have hnamed := h.free_of_named ((hspares rfl nofun).resolve_left (by simp))
    cases reqId with
    | none =>
      obtain ⟨rfl, rfl⟩ : mode = .regenerate ∧ quizId = none := by
        simpa [prepareQuizGeneration, eq_comm] using hprepared
      exact absurd rfl (hregenerate rfl)
    | some k =>
      rw [prepareQuizGeneration, Option.bind_eq_some_iff] at hprepared
      obtain ⟨source, hsource, hprepared⟩ := hprepared
      obtain ⟨hmem, hid⟩ := MarkedRows.mem_of_find hsource
      split_ifs at hprepared with hnode hretired
      · cases hprepared
        have hfree := (hnamed.2 k rfl source hmem hid).resolve_left hretired
        rw [not_not.1 hnode] at hfree
        exact h.persistDraft hnew hstored (fun _ => hfree) (by simp)
      · cases hprepared
        exact h.persistDraft hnew hstored (by simp) hnamed.2
  | improve =>
    have hmode : mode = .improve := by
      simpa [prepareQuizGeneration, eq_comm] using congrArg (Option.map Prod.fst) hprepared
    exact absurd hmode himprove
  | unset =>
    have hnamed := h.free_of_named ((hspares rfl nofun).resolve_left (by simp))
    obtain rfl : reqId = quizId := by
      simpa [prepareQuizGeneration] using congrArg (Option.map Prod.snd) hprepared
    exact h.persistDraft hnew hstored hnamed.1 hnamed.2

/-! ## Runs -/

/-- **One request keeps the drafts apart**, if it spares them. -/
theorem step_oneDraft {r : Request} (h : OneDraft quizzes) (hspares : Spares quizzes r)
    (hstep : step quizzes r = some quizzes') : OneDraft quizzes' := by
  cases r with
  | generate nodeId request sourceSm completes newId =>
    rw [step, Option.bind_eq_some_iff] at hstep
    obtain ⟨sm, rfl, hrest⟩ := hstep
    split_ifs at hrest with hrefused
    rw [not_or] at hrefused
    obtain rfl : completes = true := by simpa using hrefused.1
    obtain ⟨prepared, hprepared, hrun⟩ := Option.bind_eq_some_iff.1 hrest
    exact h.generate hrefused.2 hspares hprepared hrun
  | publish nodeId quizId ready =>
    rw [step, Option.bind_eq_some_iff] at hstep
    obtain ⟨quiz, -, hrest⟩ := hstep
    split_ifs at hrest
    cases hrest
    exact h.publishQuiz nodeId quizId
  | unpublish nodeId quizId retention =>
    rw [step, Option.bind_eq_some_iff] at hstep
    obtain ⟨quiz, -, hrest⟩ := hstep
    split_ifs at hrest
    cases hrest
    refine h.updateQuiz_of_keeps quizId ?_ ?_ ?_
    · exact fun q => by cases retention <;> rfl
    · exact fun q => by cases retention <;> rfl
    · exact fun q => by cases retention <;> exact nofun
  | discard nodeId quizId =>
    rw [step, Option.bind_eq_some_iff] at hstep
    obtain ⟨quiz, -, hrest⟩ := hstep
    split_ifs at hrest
    cases hrest
    exact h.updateQuiz_of_keeps quizId (fun _ => rfl) (fun _ => rfl) nofun

/-- **No node has two drafts**, in any run whose requests spare the drafts. -/
theorem drafts_of_node_unique (h : Runs.Reachable step Spares OneDraft quizzes) (n : ℕ) :
    (draftsOf quizzes n).length ≤ 1 :=
  (h.invariant (fun _ hs => hs) fun _ _ _ hinv hspares hstep =>
    step_oneDraft hinv hspares hstep).length_draftsOf_le n

/-- A first quiz is published and taken back, and a second is generated and generated again. -/
theorem hidden_and_draft :
    ∃ quizzes, Runs.Reachable step Spares OneDraft quizzes ∧ quizzes.length = 2 ∧
      (draftsOf quizzes 0).length ≤ 1 := by
  have hrun : Runs.run (fun s r => if Spares s r then step s r else none) []
      [.generate 0 {} (some 0) true 1, .publish 0 1 true, .unpublish 0 1 .removeCompletely,
        .generate 0 {} (some 0) true 2, .generate 0 {} (some 0) true 3] = some _ := rfl
  have hreached : Runs.Reachable step Spares OneDraft _ :=
    Runs.reachable_of_checked AtMostOne.nil hrun
  exact ⟨_, hreached, rfl, drafts_of_node_unique hreached 0⟩

/-- The quiz that was taken back is regenerated beside the draft. -/
theorem retired_regenerated_twice :
    ∃ quizzes, Runs.Reachable step (fun _ _ => True) (fun s => s = []) quizzes ∧
      (draftsOf quizzes 0).length = 2 := by
  have hrun : Runs.run step []
      [.generate 0 {} (some 0) true 1, .publish 0 1 true, .unpublish 0 1 .removeCompletely,
        .generate 0 {} (some 0) true 2,
        .generate 0 { mode := .regenerate, quizId := some 1 } (some 0) true 3] = some _ := rfl
  exact ⟨_, Runs.reachable_of_run rfl hrun, rfl⟩

end StudyAgent.Lifecycle
