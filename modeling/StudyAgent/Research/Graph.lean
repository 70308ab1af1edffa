import StudyAgent.Base.Flows
import StudyAgent.Research.Stages

/-!
# The external research graph

The nodes of the research subgraph as functions of the state, of the cache rows and of what the
outside answers, and the edges between them.  A run on a node without a row settles its outcome
and writes a row; a run that finds one takes the outcome from it.

Main results:

* `holds_step` — what every node hands on to the next.
* `research_cached` — **a run that finds a row takes its outcome from it**, without a call.
* `research_all_or_nothing` — **a run ends with a reference and its sources or with nothing**,
  and a later run ends the same.
-/

namespace StudyAgent.Research

open Py Flows

/-! ## State -/

inductive YoutubeStatus where
  | success
  | skipped
  | failed
  deriving DecidableEq

/-- What the subgraph keeps in the state.  A key that is absent is `none`, an empty list or
`false`, as the reads take it. -/
structure State extends Finding where
  nodeId : Option String
  nodeTitle : Option String
  extractedReferenceText : Option String
  hasReferenceMaterial : Bool
  error : Option String := none
  cacheHit : Bool := false
  query : Option String := none
  resolvedTopic : Option String := none
  resolvedSubtopic : Option String := none
  modelUsed : Option String := none
  videoUrls : List String := []
  youtubeAttachStatus : Option YoutubeStatus := none
  youtubeFailReason : Option String := none
  youtubeBackfillOnly : Bool := false
  searchResultUrls : List String := []
  extractedPages : List ExtractedPage := []
  cleanedPages : List CleanedPage := []
  chunkedPages : List ChunkedPage := []
  distilledPages : List DistilledPage := []
  reducedPages : List ReducedPage := []

/-- A row of `externalresearchreference`. -/
structure Row where
  status : Status
  failReason : Option String
  searchQueryUsed : Option String
  resolvedTopic : Option String
  resolvedSubtopic : Option String
  groundTruthReference : Option String
  sourceUrls : List String
  videoUrls : List String
  perWebsiteSummaryCount : ℕ
  tokenCount : ℕ
  modelUsed : Option String

/-- A node of the topic tree with its ancestors' titles, from the root to the parent. -/
structure TopicNode where
  title : Option String
  ancestorTitles : List (Option String)

inductive YoutubeAnswer where
  | videos (urls : List String)
  | apiError (message : String)
  | otherError (message typeName : String)

/-- What a run meets outside: its session and user, the node as it is found twice, the answers of
the search, which may raise, of YouTube and of the page fetches, and the replies to the calls. -/
structure Outside where
  session : Bool
  userId : Bool
  nodeAtResolve : Option TopicNode
  nodeAtPersist : Bool
  searchExternalUrls : String → Option (List String)
  searchAndRank : String → YoutubeAnswer
  extractSinglePage : String → Option String
  replies : ℕ → Reply

/-- The state of a run, the cache rows by node, and how many calls have been made. -/
structure World where
  state : State
  rows : String → Option Row
  calls : ℕ

/-! ## Nodes -/

inductive Node where
  | cacheCheck
  | resolveQuery
  | youtubeDiscover
  | search
  | contentExtraction
  | contentDistillation
  | chunkIfNeeded
  | knowledgeDistillation
  | websiteReduction
  | crossWebsiteMerge
  | persistCache
  | attachSources
  | attachVideos
  deriving DecidableEq

/-- A text that is there and not empty. -/
def filled (text : Option String) : Option String := text.filter (· ≠ "")

section

variable (L : Library) (S : Settings) (o : Outside) (s : State)

/-- What a row makes of the state. -/
def restored (row : Row) : State :=
  let s := { s with
    cacheHit := true
    status := some row.status
    failReason := row.failReason
    query := row.searchQueryUsed
    resolvedTopic := row.resolvedTopic
    resolvedSubtopic := row.resolvedSubtopic
    modelUsed := row.modelUsed
    videoUrls := row.videoUrls
    youtubeBackfillOnly := row.videoUrls = [] ∧ strip S.youtubeApiKey ≠ "" }
  if row.status = .success ∧ filled row.groundTruthReference ≠ none then
    { s with
      groundTruth := row.groundTruthReference
      sourceUrls := row.sourceUrls
      extractedReferenceText := row.groundTruthReference
      hasReferenceMaterial := true }
  else
    { s with
      groundTruth := none
      sourceUrls := []
      extractedReferenceText := some (s.extractedReferenceText.getD "") }

/-- `external_research_cache_check_node`. -/
def cacheCheckNode (rows : String → Option Row) : State :=
  match o.session, s.nodeId with
  | true, some nodeId =>
    match rows nodeId with
    | none => { s with cacheHit := false }
    | some row => restored S s row
  | _, _ =>
    { s with
      error := some "session and node_id are required for external research cache check." }

/-- `resolve_research_query`: the query, the topic and the subtopic. -/
def resolveResearchQuery (nodeTitle : String) (ancestorTitlesNearestFirst : List String) :
    String × Option String × String :=
  let nonGeneric := ancestorTitlesNearestFirst.filter fun title => !L.isGenericTitle title
  match nonGeneric with
  | [] => (strip nodeTitle, none, nodeTitle)
  | nearest :: rest =>
    if rest.length ≤ 1 then
      let levels := (nearest :: rest).reverse
      (strip (" ".intercalate (levels ++ [nodeTitle])), some (" ".intercalate levels), nodeTitle)
    else (strip (nearest ++ " " ++ nodeTitle), some nearest, nodeTitle)

/-- `external_research_resolve_query_node`. -/
def resolveQueryNode : State :=
  match o.session, s.nodeId with
  | true, some nodeId =>
    match o.nodeAtResolve with
    | none => { s with error := some ("Node not found: " ++ nodeId) }
    | some node =>
      let nearestFirst := (node.ancestorTitles.filterMap filled).reverse
      let nodeTitle := ((filled s.nodeTitle).or (filled node.title)).getD "topic"
      let resolved := resolveResearchQuery L nodeTitle nearestFirst
      { s with
        nodeTitle := some nodeTitle
        query := some resolved.1
        resolvedTopic := resolved.2.1
        resolvedSubtopic := some resolved.2.2
        youtubeBackfillOnly := false }
  | _, _ => { s with error := some "session and node_id are required for query resolution." }

/-- The query of a search. -/
def searchQuery : String := ((filled s.query).or (filled s.nodeTitle)).getD ""

/-- A text, or another where it is empty. -/
def orText (text other : String) : String := if text = "" then other else text

/-- `external_research_youtube_discover_node`. -/
def youtubeDiscoverNode : State :=
  if strip S.youtubeApiKey = "" then
    { s with
      videoUrls := []
      youtubeAttachStatus := some .skipped
      youtubeFailReason := some "no_api_key" }
  else
    let query := strip (searchQuery s)
    let answer := if query = "" then .videos [] else o.searchAndRank query
    match answer with
    | .videos urls =>
      { s with
        videoUrls := urls
        youtubeAttachStatus := some .success
        youtubeFailReason := none }
    | .apiError message =>
      { s with
        videoUrls := []
        youtubeAttachStatus := some .failed
        youtubeFailReason := some (orText message "youtube_api_error") }
    | .otherError message typeName =>
      { s with
        videoUrls := []
        youtubeAttachStatus := some .failed
        youtubeFailReason := some (orText message typeName) }

/-- A stage without pages gives up. -/
def givingUp (nothing : Prop) [Decidable nothing] : State :=
  if nothing then { s with toFinding := failSoft "all_extractions_failed" } else s

/-- `external_research_content_extraction_node`. -/
def contentExtractionNode : State :=
  let extracted := extractUntilTarget S o.extractSinglePage [] s.searchResultUrls
  givingUp { s with extractedPages := extracted } (extracted = [])

/-- The row that `external_research_persist_cache_node` writes. -/
def rowOf : Row :=
  let status := s.status.getD .failSoft
  let groundTruth := if status = .success then s.groundTruth else none
  { status := status
    failReason := s.failReason
    searchQueryUsed := s.query
    resolvedTopic := s.resolvedTopic
    resolvedSubtopic := s.resolvedSubtopic
    groundTruthReference := groundTruth
    sourceUrls := if status = .success then s.sourceUrls else []
    videoUrls := s.videoUrls
    perWebsiteSummaryCount := s.reducedPages.length
    tokenCount := roughTokenCount (groundTruth.getD "")
    modelUsed := s.modelUsed }

/-- The updates of `external_research_persist_cache_node`. -/
def persisted : State :=
  if s.status = some .success ∧ filled s.groundTruth ≠ none then
    { s with extractedReferenceText := s.groundTruth, hasReferenceMaterial := true }
  else { s with extractedReferenceText := some (s.extractedReferenceText.getD "") }

end

section

variable (L : Library) (S : Settings) (o : Outside)

/-- `external_research_persist_cache_node`: a row is inserted where there is none. -/
def persistCacheNode (w : World) : World :=
  match o.session, w.state.nodeId, o.userId with
  | true, some nodeId, true =>
    if o.nodeAtPersist then
      { w with
        state := persisted w.state
        rows := Function.update w.rows nodeId (some ((w.rows nodeId).getD (rowOf w.state))) }
    else { w with state := { w.state with error := some ("Node not found: " ++ nodeId) } }
  | _, _, _ =>
    { w with state := { w.state with
        error := some "session, node_id, and user_id are required to persist research cache." } }

/-- One node.  The attaching nodes write media rows and update nothing. -/
def perform (node : Node) (w : World) : Option World :=
  let s := w.state
  match node with
  | .cacheCheck => some { w with state := cacheCheckNode S o s w.rows }
  | .resolveQuery => some { w with state := resolveQueryNode L o s }
  | .youtubeDiscover => some { w with state := youtubeDiscoverNode S o s }
  | .search => (o.searchExternalUrls (searchQuery s)).map fun urls =>
      { w with state := { s with searchResultUrls := urls } }
  | .contentExtraction => some { w with state := contentExtractionNode S o s }
  | .contentDistillation =>
    some { w with state := { s with cleanedPages := distillExtractedPages L s.extractedPages } }
  | .chunkIfNeeded =>
    some { w with state := { s with chunkedPages := chunkCleanedPages L S s.cleanedPages } }
  | .knowledgeDistillation =>
    (distillChunkedPages L S o.replies s.chunkedPages w.calls).map fun distilled =>
      { w with
        state := givingUp
          { s with distilledPages := distilled.1, modelUsed := some S.llmModel } (distilled.1 = [])
        calls := distilled.2 }
  | .websiteReduction =>
    (reduceDistilledPages o.replies s.distilledPages w.calls).map fun reduced =>
      { w with
        state := givingUp { s with reducedPages := reduced.1 } (reduced.1 = [])
        calls := reduced.2 }
  | .crossWebsiteMerge =>
    (mergeWebsiteSummaries S o.replies s.reducedPages w.calls).map fun merged =>
      { w with state := { s with toFinding := merged.1 }, calls := merged.2 }
  | .persistCache => some (persistCacheNode o w)
  | .attachSources => some w
  | .attachVideos => some w

end

/-! ## Edges -/

/-- A state that has given up skips to the row. -/
def unlessGivenUp (s : State) (next : Node) : Node :=
  if s.status = some .failSoft then .persistCache else next

/-- The edges of `build_external_research_graph`. -/
def nextNode (node : Node) (w : World) : Option Node :=
  let s := w.state
  match node with
  | .cacheCheck =>
    if filled s.error ≠ none then none
    else if s.cacheHit = false then some .resolveQuery
    else if s.youtubeBackfillOnly then some .youtubeDiscover
    else none
  | .resolveQuery => some .youtubeDiscover
  | .youtubeDiscover => some (if s.youtubeBackfillOnly then .attachVideos else .search)
  | .search => some .contentExtraction
  | .contentExtraction => some (unlessGivenUp s .contentDistillation)
  | .contentDistillation => some .chunkIfNeeded
  | .chunkIfNeeded => some .knowledgeDistillation
  | .knowledgeDistillation => some (unlessGivenUp s .websiteReduction)
  | .websiteReduction => some (unlessGivenUp s .crossWebsiteMerge)
  | .crossWebsiteMerge => some .persistCache
  | .persistCache => if filled s.error ≠ none then none else some .attachSources
  | .attachSources => some .attachVideos
  | .attachVideos => none

/-- How far a node is from the end, at most. -/
def Node.rank : Node → ℕ
  | .cacheCheck => 12
  | .resolveQuery => 11
  | .youtubeDiscover => 10
  | .search => 9
  | .contentExtraction => 8
  | .contentDistillation => 7
  | .chunkIfNeeded => 6
  | .knowledgeDistillation => 5
  | .websiteReduction => 4
  | .crossWebsiteMerge => 3
  | .persistCache => 2
  | .attachSources => 1
  | .attachVideos => 0

/-- A run of the subgraph. -/
def research (L : Library) (S : Settings) (o : Outside) (w : World) : Ending World :=
  follow (perform L S o) nextNode 13 .cacheCheck w

/-! ## Outcomes -/

/-- The sources are those of extracted pages. -/
def Sourced (s : State) : Prop :=
  ∀ url ∈ s.sourceUrls, ∃ page ∈ s.extractedPages, page.url = url

/-- The outcome is settled: a reference that is not blank with its sources, or nothing. -/
def Decided (s : State) : Prop :=
  (s.status = some .success ∧ ∃ reference, s.groundTruth = some reference ∧
    strip reference ≠ "" ∧ Sourced s) ∨
  (s.status = some .failSoft ∧ s.groundTruth = none ∧ s.sourceUrls = [])

/-- All or nothing: the outcome is settled, and a reference that was found is the reference
text, which is otherwise the one that was given. -/
structure AllOrNothing (given : Option String) (s : State) : Prop where
  decided : Decided s
  reference : s.status = some .success → s.extractedReferenceText = s.groundTruth
  untouched : s.status = some .failSoft → s.extractedReferenceText = some (given.getD "")

/-- A row says what a state says, and says all or nothing. -/
structure Recorded (given : Option String) (row : Row) (s : State) : Prop where
  status : s.status = some row.status
  groundTruth : s.groundTruth = row.groundTruthReference
  sourceUrls : s.sourceUrls = row.sourceUrls
  query : s.query = row.searchQueryUsed
  resolvedTopic : s.resolvedTopic = row.resolvedTopic
  success : row.status = .success → filled row.groundTruthReference ≠ none ∧
    s.extractedReferenceText = row.groundTruthReference
  nothing : row.status = .failSoft → row.groundTruthReference = none ∧ row.sourceUrls = [] ∧
    s.extractedReferenceText = some (given.getD "")

/-- Two states with the same outcome, of runs that were given two texts. -/
structure SameOutcome (given given' : Option String) (s t : State) : Prop where
  status : t.status = s.status
  groundTruth : t.groundTruth = s.groundTruth
  sourceUrls : t.sourceUrls = s.sourceUrls
  query : t.query = s.query
  resolvedTopic : t.resolvedTopic = s.resolvedTopic
  reference : s.status = some .success ∨ given'.getD "" = given.getD "" →
    t.extractedReferenceText = s.extractedReferenceText

/-! ## A run that finds a row -/

section

variable {L : Library} {S : Settings} {o : Outside} {w : World} {nodeId : String}
  {given : Option String}

theorem restored_sameOutcome {row : Row} {s : State} (h : Recorded given row s) (t : State) :
    SameOutcome given t.extractedReferenceText s (restored S t row) := by
  unfold restored
  dsimp only
  split_ifs with hfound
  · exact {
      status := h.status.symm
      groundTruth := h.groundTruth.symm
      sourceUrls := h.sourceUrls.symm
      query := h.query.symm
      resolvedTopic := h.resolvedTopic.symm
      reference := fun _ => (h.success hfound.1).2.symm }
  · have hfail : row.status = .failSoft := by
      cases hstatus : row.status with
      | failSoft => rfl
      | success => exact absurd ⟨hstatus, (h.success hstatus).1⟩ hfound
    obtain ⟨hnone, hnil, htext⟩ := h.nothing hfail
    refine {
      status := h.status.symm
      groundTruth := (h.groundTruth.trans hnone).symm
      sourceUrls := (h.sourceUrls.trans hnil).symm
      query := h.query.symm
      resolvedTopic := h.resolvedTopic.symm
      reference := ?_ }
    rintro (hsuccess | hsame)
    · rw [h.status, hfail] at hsuccess
      cases hsuccess
    · rw [htext, ← hsame]

theorem restored_error (row : Row) (s : State) : (restored S s row).error = s.error := by
  unfold restored
  dsimp only
  split_ifs
  · rfl
  · rfl

theorem restored_cacheHit (row : Row) (s : State) : (restored S s row).cacheHit = true := by
  unfold restored
  dsimp only
  split_ifs
  · rfl
  · rfl

/-- YouTube touches its own three keys. -/
theorem youtubeDiscoverNode_eq (s : State) : ∃ urls status reason,
    youtubeDiscoverNode S o s = { s with
      videoUrls := urls
      youtubeAttachStatus := status
      youtubeFailReason := reason } := by
  unfold youtubeDiscoverNode
  dsimp only
  split_ifs
  · exact ⟨_, _, _, rfl⟩
  · exact ⟨_, _, _, rfl⟩
  · split
    · exact ⟨_, _, _, rfl⟩
    · exact ⟨_, _, _, rfl⟩
    · exact ⟨_, _, _, rfl⟩

theorem cacheCheckNode_some {s : State} {rows : String → Option Row} {row : Row}
    (hsession : o.session = true) (hnode : s.nodeId = some nodeId) (hrow : rows nodeId = some row) :
    cacheCheckNode S o s rows = restored S s row := by
  unfold cacheCheckNode
  rw [hsession, hnode]
  dsimp only
  rw [hrow]

/-- **A run that finds a row takes its outcome from it**, and makes no call. -/
theorem research_cached (hsession : o.session = true) (hnode : w.state.nodeId = some nodeId)
    {row : Row} (hrow : w.rows nodeId = some row) {s : State} (hrecorded : Recorded given row s) :
    ∃ w', research L S o w = .ended w' ∧ w'.calls = w.calls ∧ w'.rows = w.rows ∧
      SameOutcome given w.state.extractedReferenceText s w'.state := by
  have hcheck : cacheCheckNode S o w.state w.rows = restored S w.state row :=
    cacheCheckNode_some hsession hnode hrow
  have hsame := restored_sameOutcome (S := S) hrecorded w.state
  have hplain : filled (restored S w.state row).error = filled w.state.error := by
    rw [restored_error]
  have hfirst : perform L S o .cacheCheck w = some { w with state := restored S w.state row } := by
    rw [perform, hcheck]
  by_cases hbackfill : filled w.state.error = none ∧
      (restored S w.state row).youtubeBackfillOnly = true
  · obtain ⟨herror, hbackfill⟩ := hbackfill
    obtain ⟨urls, status, reason, hyoutube⟩ :=
      youtubeDiscoverNode_eq (S := S) (o := o) (restored S w.state row)
    have hdiscover : nextNode .cacheCheck { w with state := restored S w.state row } =
        some .youtubeDiscover := by
      simp [nextNode, hplain, herror, restored_cacheHit, hbackfill]
    have hattach : nextNode .youtubeDiscover
        { w with state := youtubeDiscoverNode S o (restored S w.state row) } =
          some .attachVideos := by
      simp [nextNode, hyoutube, hbackfill]
    refine ⟨{ w with state := youtubeDiscoverNode S o (restored S w.state row) }, ?_, rfl, rfl, ?_⟩
    · rw [research, follow_next hfirst hdiscover, follow_next rfl hattach]
      exact follow_last rfl rfl
    · rw [hyoutube]
      exact ⟨hsame.status, hsame.groundTruth, hsame.sourceUrls, hsame.query,
        hsame.resolvedTopic, hsame.reference⟩
  · have hlast : nextNode .cacheCheck { w with state := restored S w.state row } = none := by
      by_cases herror : filled w.state.error = none
      · have hdone : (restored S w.state row).youtubeBackfillOnly = false :=
          Bool.eq_false_iff.2 fun h => hbackfill ⟨herror, h⟩
        simp [nextNode, hplain, herror, restored_cacheHit, hdone]
      · simp [nextNode, hplain, herror]
    exact ⟨_, follow_last hfirst hlast, rfl, rfl, hsame⟩

/-! ## A run that finds none -/

/-- No url that has been found has blanks around it. -/
structure Trimmed (s : State) : Prop where
  found : ∀ url ∈ s.searchResultUrls, strip url = url
  extracted : ∀ page ∈ s.extractedPages, strip page.url = page.url

/-- The run works on its node, which has no row, and nothing is settled yet. -/
structure Underway (o : Outside) (nodeId : String) (given : Option String) (w : World) : Prop where
  session : o.session = true
  node : w.state.nodeId = some nodeId
  unwritten : w.rows nodeId = none
  undecided : w.state.toFinding = {}
  untouched : w.state.extractedReferenceText = given
  trimmed : Trimmed w.state

theorem Underway.update (h : Underway o nodeId given w) {s : State} {calls : ℕ}
    (hnode : s.nodeId = w.state.nodeId) (hfinding : s.toFinding = w.state.toFinding)
    (htext : s.extractedReferenceText = w.state.extractedReferenceText) (htrimmed : Trimmed s) :
    Underway o nodeId given { state := s, rows := w.rows, calls := calls } where
  session := h.session
  node := hnode.trans h.node
  unwritten := h.unwritten
  undecided := hfinding.trans h.undecided
  untouched := htext.trans h.untouched
  trimmed := htrimmed

/-- The row is written and says what the state says. -/
structure Written (nodeId : String) (given : Option String) (w : World) : Prop where
  allOrNothing : AllOrNothing given w.state
  recorded : ∃ row, w.rows nodeId = some row ∧ Recorded given row w.state

/-- How a run ends: unless it reports an error with all or nothing and a row; and a row that is
there says what the state says. -/
structure Ended (nodeId : String) (given : Option String) (w : World) : Prop where
  allOrNothing : filled w.state.error = none → AllOrNothing given w.state ∧ w.rows nodeId ≠ none
  recorded : ∀ row, w.rows nodeId = some row → Recorded given row w.state

/-- What a node can rely on when it is reached. -/
def Holds (o : Outside) (nodeId : String) (given : Option String) (node : Node) (w : World) :
    Prop :=
  let urls := w.state.extractedPages.map ExtractedPage.url
  match node with
  | .cacheCheck => w.state.nodeId = some nodeId ∧ w.rows nodeId = none ∧
      w.state.toFinding = {} ∧ w.state.youtubeBackfillOnly = false ∧
      w.state.extractedReferenceText = given ∧ Trimmed w.state
  | .resolveQuery => Underway o nodeId given w ∧ w.state.youtubeBackfillOnly = false
  | .youtubeDiscover => Underway o nodeId given w ∧ w.state.youtubeBackfillOnly = false
  | .search => Underway o nodeId given w
  | .contentExtraction => Underway o nodeId given w
  | .contentDistillation => Underway o nodeId given w
  | .chunkIfNeeded => Underway o nodeId given w ∧ w.state.cleanedPages.map CleanedPage.url ⊆ urls
  | .knowledgeDistillation =>
    Underway o nodeId given w ∧ w.state.chunkedPages.map ChunkedPage.url ⊆ urls
  | .websiteReduction =>
    Underway o nodeId given w ∧ w.state.distilledPages.map DistilledPage.url ⊆ urls
  | .crossWebsiteMerge =>
    Underway o nodeId given w ∧ w.state.reducedPages.map ReducedPage.url ⊆ urls
  | .persistCache => o.session = true ∧ w.state.nodeId = some nodeId ∧
      w.rows nodeId = none ∧ Decided w.state ∧ w.state.extractedReferenceText = given
  | .attachSources => Written nodeId given w
  | .attachVideos => Written nodeId given w

theorem ended_of_error (hunwritten : w.rows nodeId = none) (herror : filled w.state.error ≠ none) :
    Ended nodeId given w where
  allOrNothing := fun h => absurd h herror
  recorded := fun row hrow => by
    rw [hrow] at hunwritten
    cases hunwritten

theorem ended_of_written (h : Written nodeId given w) : Ended nodeId given w := by
  obtain ⟨hall, row, hrow, hrecorded⟩ := h
  refine ⟨fun _ => ⟨hall, by rw [hrow]; simp⟩, fun row' hrow' => ?_⟩
  obtain rfl : row = row' := Option.some.inj (hrow.symm.trans hrow')
  exact hrecorded

theorem cacheCheckNode_none {s : State} {rows : String → Option Row}
    (hsession : o.session = true) (hnode : s.nodeId = some nodeId) (hrow : rows nodeId = none) :
    cacheCheckNode S o s rows = { s with cacheHit := false } := by
  unfold cacheCheckNode
  rw [hsession, hnode]
  dsimp only
  rw [hrow]

theorem holds_cacheCheck (h : Holds o nodeId given .cacheCheck w) :
    ∃ w', perform L S o .cacheCheck w = some w' ∧
      ((nextNode .cacheCheck w' = none ∧ Ended nodeId given w') ∨
        ∃ m, nextNode .cacheCheck w' = some m ∧ m.rank < Node.cacheCheck.rank ∧
          Holds o nodeId given m w') := by
  obtain ⟨hnode, hunwritten, hundecided, hbackfill, hgiven, htrimmed⟩ := h
  cases hsession : o.session with
  | false =>
    have herrs : cacheCheckNode S o w.state w.rows = { w.state with
        error := some "session and node_id are required for external research cache check." } := by
      unfold cacheCheckNode
      rw [hsession]
    refine ⟨_, rfl, .inl ?_⟩
    rw [herrs]
    exact ⟨rfl, ended_of_error hunwritten (by simp [filled])⟩
  | true =>
    have hmiss := cacheCheckNode_none (S := S) hsession hnode hunwritten
    by_cases herror : filled w.state.error = none
    · refine ⟨_, rfl, .inr ⟨.resolveQuery, ?_, by decide, ?_⟩⟩
      · simp [nextNode, hmiss, herror]
      · rw [hmiss]
        exact ⟨⟨hsession, hnode, hunwritten, hundecided, hgiven,
          ⟨htrimmed.found, htrimmed.extracted⟩⟩, hbackfill⟩
    · refine ⟨_, rfl, .inl ?_⟩
      rw [hmiss]
      exact ⟨if_pos herror, ended_of_error hunwritten herror⟩

theorem resolveQueryNode_kept (s : State) :
    (resolveQueryNode L o s).nodeId = s.nodeId ∧
      (resolveQueryNode L o s).toFinding = s.toFinding ∧
      (resolveQueryNode L o s).extractedReferenceText = s.extractedReferenceText ∧
      (Trimmed s → Trimmed (resolveQueryNode L o s)) ∧
      (s.youtubeBackfillOnly = false → (resolveQueryNode L o s).youtubeBackfillOnly = false) := by
  unfold resolveQueryNode
  split
  · split
    · exact ⟨rfl, rfl, rfl, fun h => ⟨h.found, h.extracted⟩, id⟩
    · exact ⟨rfl, rfl, rfl, fun h => ⟨h.found, h.extracted⟩, fun _ => rfl⟩
  · exact ⟨rfl, rfl, rfl, fun h => ⟨h.found, h.extracted⟩, id⟩

theorem decided_failSoft (s : State) (reason : String) :
    Decided { s with toFinding := failSoft reason } := .inr ⟨rfl, rfl, rfl⟩

/-- A stage gives up, and the row is next, or it hands on. -/
theorem holds_givingUp (h : Underway o nodeId given w) (nothing : Prop) [Decidable nothing]
    {next : Node} (hnext : ¬ nothing → Holds o nodeId given next w) :
    Holds o nodeId given (unlessGivenUp (givingUp w.state nothing) next)
      { w with state := givingUp w.state nothing } := by
  unfold givingUp
  by_cases hnothing : nothing
  · rw [if_pos hnothing]
    exact ⟨h.session, h.node, h.unwritten, decided_failSoft _ _, h.untouched⟩
  · have hstatus : w.state.status = none := congrArg Finding.status h.undecided
    rw [if_neg hnothing, unlessGivenUp, if_neg (by rw [hstatus]; simp)]
    exact hnext hnothing

theorem rank_unlessGivenUp {s : State} {next node : Node}
    (hpersist : Node.persistCache.rank < node.rank) (hnext : next.rank < node.rank) :
    (unlessGivenUp s next).rank < node.rank := by
  unfold unlessGivenUp
  split_ifs
  · exact hpersist
  · exact hnext

/-- Nothing is extracted but what has been found. -/
theorem extracted_url {extractSinglePage : String → Option String} {urls : List String}
    {extracted : List ExtractedPage} {P : String → Prop}
    (hextracted : ∀ page ∈ extracted, P page.url) (hurls : ∀ url ∈ urls, P url) :
    ∀ page ∈ extractUntilTarget S extractSinglePage extracted urls, P page.url := by
  induction urls generalizing extracted with
  | nil => exact hextracted
  | cons url urls ih =>
    rw [extractUntilTarget]
    split_ifs
    · exact hextracted
    · refine ih (fun page hpage => ?_) fun other hother => hurls other
        (List.mem_cons_of_mem _ hother)
      rcases List.mem_append.1 hpage with hold | hnew
      · exact hextracted page hold
      · obtain ⟨other, hother, heq⟩ := List.mem_filterMap.1 hnew
        obtain rfl := List.mem_singleton.1 hother
        split at heq
        · cases heq
        · split_ifs at heq
          cases heq
          exact hurls other List.mem_cons_self

/-- A settled merge settles the state whose pages it merges. -/
theorem decided_of_settled {s : State} {f : Finding} (htrimmed : Trimmed s)
    (hurls : s.reducedPages.map ReducedPage.url ⊆ s.extractedPages.map ExtractedPage.url)
    (h : Settled s.reducedPages f) : Decided { s with toFinding := f } := by
  have hpage : ∀ url ∈ s.reducedPages.map ReducedPage.url, ∃ page ∈ s.extractedPages,
      page.url = url := fun url hurl => List.mem_map.1 (hurls hurl)
  rcases h with ⟨hstatus, reference, hreference, hblank, hsources⟩ | hnothing
  · refine .inl ⟨hstatus, reference, hreference, hblank, ?_⟩
    rcases hsources with hall | ⟨reduced, hreduced, -, hurl⟩
    · exact fun url hmem => hpage url (hall url hmem)
    · obtain ⟨page, hmem, heq⟩ := hpage reduced.url (List.mem_map_of_mem hreduced)
      intro url hsource
      rw [hurl, List.mem_singleton, ← heq, htrimmed.extracted page hmem] at hsource
      exact ⟨page, hmem, hsource.symm⟩
  · exact .inr hnothing

theorem filled_of_nonblank {text : String} (h : strip text ≠ "") :
    filled (some text) = some text := by
  have hne : text ≠ "" := by
    rintro rfl
    exact h strip_empty
  simp [filled, hne]

/-- What is settled is recorded, and the reference becomes the reference text. -/
theorem recorded_persisted {s : State} (h : Decided s) :
    AllOrNothing s.extractedReferenceText (persisted s) ∧
      Recorded s.extractedReferenceText (rowOf s) (persisted s) := by
  rcases h with ⟨hstatus, reference, hreference, hblank, hsources⟩ | ⟨hstatus, hnone, hnil⟩
  · have hfilled : filled s.groundTruth ≠ none := by
      rw [hreference, filled_of_nonblank hblank]
      simp
    have hpersisted : persisted s =
        { s with extractedReferenceText := s.groundTruth, hasReferenceMaterial := true } := by
      unfold persisted
      rw [if_pos ⟨hstatus, hfilled⟩]
    rw [hpersisted]
    refine ⟨⟨.inl ⟨hstatus, reference, hreference, hblank, hsources⟩, fun _ => rfl,
      fun hfail => ?_⟩, ?_⟩
    · rw [show s.status = some .failSoft from hfail] at hstatus
      cases hstatus
    exact {
      status := by simp [rowOf, hstatus]
      groundTruth := by simp [rowOf, hstatus]
      sourceUrls := by simp [rowOf, hstatus]
      query := rfl
      resolvedTopic := rfl
      success := fun _ => by simpa [rowOf, hstatus] using hfilled
      nothing := fun hfail => by simp [rowOf, hstatus] at hfail }
  · have hnot : ¬ (s.status = some .success ∧ filled s.groundTruth ≠ none) := by
      rw [hstatus]
      simp
    have hpersisted : persisted s =
        { s with extractedReferenceText := some (s.extractedReferenceText.getD "") } := by
      unfold persisted
      rw [if_neg hnot]
    rw [hpersisted]
    refine ⟨⟨.inr ⟨hstatus, hnone, hnil⟩, fun hsuccess => ?_, fun _ => rfl⟩, ?_⟩
    · rw [show s.status = some .success from hsuccess] at hstatus
      cases hstatus
    · exact {
        status := by simp [rowOf, hstatus]
        groundTruth := by simp [rowOf, hstatus, hnone]
        sourceUrls := by simp [rowOf, hstatus, hnil]
        query := rfl
        resolvedTopic := rfl
        success := fun hsuccess => by simp [rowOf, hstatus] at hsuccess
        nothing := fun _ => by simp [rowOf, hstatus] }

theorem holds_persistCache (h : Holds o nodeId given .persistCache w) :
    ∃ w', perform L S o .persistCache w = some w' ∧
      ((nextNode .persistCache w' = none ∧ Ended nodeId given w') ∨
        ∃ m, nextNode .persistCache w' = some m ∧ m.rank < Node.persistCache.rank ∧
          Holds o nodeId given m w') := by
  obtain ⟨hsession, hnode, hunwritten, hdecided, rfl⟩ := h
  cases huser : o.userId with
  | false =>
    have herrs : persistCacheNode o w = { w with
        state := { w.state with
          error :=
            some "session, node_id, and user_id are required to persist research cache." } } := by
      unfold persistCacheNode
      rw [huser]
      split
      · rename_i hfalse
        cases hfalse
      · rfl
    refine ⟨_, rfl, .inl ?_⟩
    rw [herrs]
    exact ⟨rfl, ended_of_error hunwritten (by simp [filled])⟩
  | true =>
    by_cases hpersist : o.nodeAtPersist = true
    · obtain ⟨hall, hrecorded⟩ := recorded_persisted hdecided
      have hwrites : persistCacheNode o w = { w with
          state := persisted w.state
          rows := Function.update w.rows nodeId (some (rowOf w.state)) } := by
        unfold persistCacheNode
        rw [hsession, hnode, huser]
        dsimp only
        rw [if_pos hpersist, hunwritten, Option.getD_none]
      have hwritten : Written nodeId w.state.extractedReferenceText (persistCacheNode o w) := by
        rw [hwrites]
        exact ⟨hall, rowOf w.state, Function.update_self .., hrecorded⟩
      by_cases herror : filled (persistCacheNode o w).state.error = none
      · exact ⟨_, rfl, .inr ⟨.attachSources, by simp [nextNode, herror], by decide, hwritten⟩⟩
      · exact ⟨_, rfl, .inl ⟨by simp [nextNode, herror], ended_of_written hwritten⟩⟩
    · have hne : "Node not found: " ++ nodeId ≠ "" := by
        intro hempty
        have hlist := congrArg String.toList hempty
        simp at hlist
      have herrs : persistCacheNode o w = { w with
          state := { w.state with error := some ("Node not found: " ++ nodeId) } } := by
        unfold persistCacheNode
        rw [hsession, hnode, huser]
        dsimp only
        rw [if_neg hpersist]
      refine ⟨_, rfl, .inl ?_⟩
      rw [herrs]
      exact ⟨by simp [nextNode, filled, hne], ended_of_error hunwritten (by simp [filled, hne])⟩

/-- No call raises, and the search returns urls without blanks around them. -/
structure Answers (o : Outside) : Prop where
  replies : ∀ n, o.replies n ≠ .raises
  search : ∀ query, ∃ urls, o.searchExternalUrls query = some urls ∧ ∀ url ∈ urls, strip url = url

/-- **What every node hands on.** -/
theorem holds_step (hfloor : 0 < S.minMergeAbsoluteTokens) (hanswers : Answers o) (node : Node)
    (w : World) (h : Holds o nodeId given node w) :
    ∃ w', perform L S o node w = some w' ∧
      ((nextNode node w' = none ∧ Ended nodeId given w') ∨
        ∃ m, nextNode node w' = some m ∧ m.rank < node.rank ∧ Holds o nodeId given m w') := by
  cases node with
  | cacheCheck => exact holds_cacheCheck h
  | resolveQuery =>
    obtain ⟨hway, hbackfill⟩ := h
    obtain ⟨hnode, hfinding, htext, htrimmed, hkept⟩ :=
      resolveQueryNode_kept (L := L) (o := o) w.state
    exact ⟨_, rfl, .inr ⟨.youtubeDiscover, rfl, by decide,
      hway.update hnode hfinding htext (htrimmed hway.trimmed), hkept hbackfill⟩⟩
  | youtubeDiscover =>
    obtain ⟨hway, hbackfill⟩ := h
    obtain ⟨urls, status, reason, hyoutube⟩ := youtubeDiscoverNode_eq (S := S) (o := o) w.state
    refine ⟨_, rfl, .inr ⟨.search, ?_, by decide, ?_⟩⟩
    · simp [nextNode, hyoutube, hbackfill]
    · rw [hyoutube]
      exact hway.update rfl rfl rfl ⟨hway.trimmed.found, hway.trimmed.extracted⟩
  | search =>
    obtain ⟨urls, hurls, htrimmed⟩ := hanswers.search (searchQuery w.state)
    refine ⟨{ w with state := { w.state with searchResultUrls := urls } }, ?_,
      .inr ⟨.contentExtraction, rfl, by decide,
        h.update rfl rfl rfl ⟨htrimmed, h.trimmed.extracted⟩⟩⟩
    simp [perform, hurls]
  | contentExtraction =>
    refine ⟨_, rfl, .inr ⟨_, rfl, rank_unlessGivenUp (by decide) (by decide), ?_⟩⟩
    have hway : Underway o nodeId given { w with
        state := { w.state with
          extractedPages :=
            extractUntilTarget S o.extractSinglePage [] w.state.searchResultUrls } } :=
      h.update rfl rfl rfl ⟨h.trimmed.found,
        extracted_url (P := fun url => strip url = url)
          (fun _ hpage => absurd hpage List.not_mem_nil) h.trimmed.found⟩
    exact holds_givingUp hway _ fun _ => hway
  | contentDistillation =>
    refine ⟨_, rfl, .inr ⟨.chunkIfNeeded, rfl, by decide,
      h.update rfl rfl rfl ⟨h.trimmed.found, h.trimmed.extracted⟩, ?_⟩⟩
    dsimp only
    rw [cleaned_url]
    exact List.Subset.refl _
  | chunkIfNeeded =>
    obtain ⟨hway, hurls⟩ := h
    refine ⟨_, rfl, .inr ⟨.knowledgeDistillation, rfl, by decide,
      hway.update rfl rfl rfl ⟨hway.trimmed.found, hway.trimmed.extracted⟩, ?_⟩⟩
    dsimp only
    rw [chunked_url]
    exact hurls
  | knowledgeDistillation =>
    obtain ⟨hway, hurls⟩ := h
    obtain ⟨distilled, hdistilled⟩ := distillChunkedPages_returns (L := L) (S := S)
      hanswers.replies w.state.chunkedPages w.calls
    refine ⟨_, by rw [perform, hdistilled, Option.map_some],
      .inr ⟨_, rfl, rank_unlessGivenUp (by decide) (by decide), ?_⟩⟩
    have hway' : Underway o nodeId given { w with
        state := { w.state with
          distilledPages := distilled.1
          modelUsed := some S.llmModel }
        calls := distilled.2 } :=
      hway.update rfl rfl rfl ⟨hway.trimmed.found, hway.trimmed.extracted⟩
    refine holds_givingUp hway' _ fun _ => ⟨hway', ?_⟩
    exact List.Subset.trans (distilled_url hdistilled).subset hurls
  | websiteReduction =>
    obtain ⟨hway, hurls⟩ := h
    obtain ⟨reduced, hreduced⟩ := reduceDistilledPages_returns hanswers.replies
      w.state.distilledPages w.calls
    refine ⟨_, by rw [perform, hreduced, Option.map_some],
      .inr ⟨_, rfl, rank_unlessGivenUp (by decide) (by decide), ?_⟩⟩
    have hway' : Underway o nodeId given { w with
        state := { w.state with reducedPages := reduced.1 }
        calls := reduced.2 } :=
      hway.update rfl rfl rfl ⟨hway.trimmed.found, hway.trimmed.extracted⟩
    refine holds_givingUp hway' _ fun _ => ⟨hway', ?_⟩
    exact List.Subset.trans (reduced_url hreduced).subset hurls
  | crossWebsiteMerge =>
    obtain ⟨hway, hurls⟩ := h
    obtain ⟨merged, hmerged⟩ := mergeWebsiteSummaries_returns (S := S) hanswers.replies
      w.state.reducedPages w.calls
    refine ⟨{ w with state := { w.state with toFinding := merged.1 }, calls := merged.2 },
      by rw [perform, hmerged, Option.map_some], .inr ⟨.persistCache, rfl, by decide,
        hway.session, hway.node, hway.unwritten, ?_, hway.untouched⟩⟩
    exact decided_of_settled hway.trimmed hurls (mergeWebsiteSummaries_found hfloor hmerged)
  | persistCache => exact holds_persistCache h
  | attachSources => exact ⟨w, rfl, .inr ⟨.attachVideos, rfl, by decide, h⟩⟩
  | attachVideos => exact ⟨w, rfl, .inl ⟨rfl, ended_of_written h⟩⟩

/-- The state of a run that has nothing of the research yet. -/
def freshState (nodeId nodeTitle extractedReferenceText error : Option String)
    (hasReferenceMaterial : Bool) : State where
  nodeId := nodeId
  nodeTitle := nodeTitle
  extractedReferenceText := extractedReferenceText
  hasReferenceMaterial := hasReferenceMaterial
  error := error

def sampleLibrary : Library where
  cleanExtractedText := fun text => text
  splitIntoChunks := fun text _ => [text]
  sourceHasHighRiskContent := fun _ => false
  highRiskGapCount := fun _ _ => 0
  isGenericTitle := fun _ => false

def sampleSettings : Settings where
  youtubeApiKey := ""
  targetResults := 1
  minExtractionTokens := 1
  chunkTokenThreshold := 9
  minMergeTokens := 1
  minMergeAbsoluteTokens := 1
  mergeInputRatio := fun tokens => tokens
  minBestAvailableTokens := 1
  minDistillNoteTokens := 1
  minDistillKeepRatio := fun _ => 1
  distillContentRetentionRetry := false
  llmModel := "m"

/-- One page is found; its only note is "a b", and no merge succeeds. -/
def sampleOutside (url : String) : Outside where
  session := true
  userId := true
  nodeAtResolve := some { title := some "t", ancestorTitles := [] }
  nodeAtPersist := true
  searchExternalUrls := fun _ => some [url]
  searchAndRank := fun _ => .videos []
  extractSinglePage := fun _ => some "a b"
  replies := fun n =>
    if n = 0 then .content (some { knowledgeNotes := some (.str "a b") }) else .failed

def sampleWorld : World where
  state := freshState (some "n") none none none false
  rows := fun _ => none
  calls := 0

/-- **A run ends with all or nothing, and its row is as good as the run.**  Where the node has no
row, no call raises and the search returns, the run ends; unless it reports an error, it ends with a
reference and its sources or with nothing, and has written a row.  A later run, in whatever
state, that finds its row makes no call and has the same outcome. -/
theorem research_all_or_nothing (L : Library) (S : Settings) (o : Outside) (nodeId : String)
    (nodeTitle extractedReferenceText error : Option String) (hasReferenceMaterial : Bool)
    (rows : String → Option Row) (calls : ℕ) (hrows : rows nodeId = none)
    (hfloor : 0 < S.minMergeAbsoluteTokens) (hanswers : Answers o) :
    ∃ w, research L S o
        { state := freshState (some nodeId) nodeTitle extractedReferenceText error
            hasReferenceMaterial
          rows := rows
          calls := calls } = .ended w ∧
      (filled w.state.error = none →
        AllOrNothing extractedReferenceText w.state ∧ w.rows nodeId ≠ none) ∧
      ∀ (L' : Library) (S' : Settings) (o' : Outside) (v : World), w.rows nodeId ≠ none →
        v.rows nodeId = w.rows nodeId → o'.session = true → v.state.nodeId = some nodeId →
        ∃ v', research L' S' o' v = .ended v' ∧ v'.calls = v.calls ∧ v'.rows = v.rows ∧
          SameOutcome extractedReferenceText v.state.extractedReferenceText w.state v'.state := by
  have hstart : Holds o nodeId extractedReferenceText .cacheCheck
      { state := freshState (some nodeId) nodeTitle extractedReferenceText error
          hasReferenceMaterial
        rows := rows
        calls := calls } :=
    ⟨rfl, hrows, rfl, rfl, rfl, ⟨fun _ h => absurd h List.not_mem_nil,
      fun _ h => absurd h List.not_mem_nil⟩⟩
  obtain ⟨w, hrun, hended⟩ := follow_ends (holds_step (L := L) hfloor hanswers)
    (show Node.cacheCheck.rank < 13 by decide) hstart
  refine ⟨w, hrun, hended.allOrNothing, fun L' S' o' v hfound hsame hsession hnode => ?_⟩
  obtain ⟨row, hrow⟩ := Option.ne_none_iff_exists'.1 hfound
  exact research_cached hsession hnode (hsame.trans hrow) (hended.recorded row hrow)

theorem research_all_or_nothing_sample :
    ∃ w, research sampleLibrary sampleSettings (sampleOutside "https://a.org/x") sampleWorld =
        .ended w ∧
      (filled w.state.error = none → AllOrNothing none w.state ∧ w.rows "n" ≠ none) := by
  have hanswers : Answers (sampleOutside "https://a.org/x") := by
    refine ⟨fun n => ?_, fun _ => ⟨_, rfl, by decide⟩⟩
    dsimp only [sampleOutside]
    split_ifs <;> simp
  obtain ⟨w, hrun, hall, -⟩ := research_all_or_nothing sampleLibrary sampleSettings
    (sampleOutside "https://a.org/x") "n" none none none false (fun _ => none) 0 rfl (by decide)
    hanswers
  exact ⟨w, hrun, hall⟩

/-- **A reply that raises takes the run with it**, and so does a search that raises. -/
theorem raising_reply_escapes :
    research sampleLibrary sampleSettings
        { sampleOutside "https://a.org/x" with replies := fun _ => .raises } sampleWorld =
      .raised ∧
    research sampleLibrary sampleSettings
        { sampleOutside "https://a.org/x" with searchExternalUrls := fun _ => none } sampleWorld =
      .raised :=
  ⟨rfl, rfl⟩

-- the source of the best-source fall-back is stripped, and may be that of no extracted page
example : ∃ w, research sampleLibrary sampleSettings (sampleOutside "https://a.org/x ")
    sampleWorld =
      .ended w ∧ w.state.sourceUrls = ["https://a.org/x"] ∧
      w.state.extractedPages.map ExtractedPage.url = ["https://a.org/x "] :=
  ⟨_, rfl, by decide, by decide⟩

end

end StudyAgent.Research
