import StudyAgent.Topics.Instructions
import StudyAgent.Topics.Preorder

/-!
# What a batch is planned to generate

A batch is previewed and created from one plan: the subtrees of the chosen roots, one behind
the other, less the topics that are not selected.

Main results:

* `mem_planned_iff` — **the topics of a plan are the selected ones that only active topics lead
  to.**
* `pairwise_planned` — **no topic is planned before one above it, or twice.**
* `batch_planned` — **the steps of a batch that is created.**
* `preview_warned` — **a preview shows what the generation of each topic will go by.**
-/

namespace StudyAgent.Topics

inductive BatchPolicyMode where
  | skipExisting
  | regenerateAll
  deriving DecidableEq

structure BatchPolicyIn where
  mode : BatchPolicyMode := .skipExisting
  referenceMaterialId : Option ℕ := none
  externalResearchNodeIds : List Uuid := []
  deriving DecidableEq

structure BatchCreateRequest where
  rootNodeIds : List Uuid := []
  nodeIds : List Uuid := []
  policy : BatchPolicyIn := {}
  externalResearchNodeIds : List Uuid := []
  deriving DecidableEq

structure BatchJob where
  spaceId : ℕ
  mentorId : ℕ
  selectedRootNodeIds : List Uuid
  policy : BatchPolicyIn
  totalSteps : ℕ
  deriving DecidableEq

structure BatchJobStep where
  nodeId : Uuid
  rootSegmentNodeId : Uuid
  position : ℕ
  depthLevel : ℕ
  pathTitles : List String
  nodeTitle : String
  deriving DecidableEq

structure BatchPreviewItemOut where
  nodeId : Uuid
  title : String
  depthLevel : ℕ
  pathNodeIds : List Uuid
  pathTitles : List String
  rootSegmentNodeId : Uuid
  /-- `none` stands for a `KeyError`. -/
  rootSegmentTitle : Option String
  canGenerate : Bool := true
  blockReason : Option String := none
  deriving DecidableEq

structure BatchWarningNodeOut where
  nodeId : Uuid
  title : String
  pathTitles : List String
  deriving DecidableEq

structure BatchPreviewWarningsOut where
  missingInstructionNodes : List BatchWarningNodeOut
  inheritsSectionDefaultNodes : List BatchWarningNodeOut
  showNoInstructionWarning : Bool
  showInheritanceWarning : Bool
  deriving DecidableEq

structure BatchPreviewResponse where
  roots : List (Uuid × String)
  items : List BatchPreviewItemOut
  warnings : BatchPreviewWarningsOut
  deriving DecidableEq

/-- An item of a plan, with the root it is below. -/
abbrev PlanItem := SubtreePreviewNode × Uuid

def UNKNOWN_TOPICS : String := "One or more selected topics are not in this space."

def NO_TOPICS : String := "No topics selected for generation."

def ACTIVE_RUN : String := "This topic already has an active generation run."

namespace TopicTable

variable (t : TopicTable) (spaceId : ℕ)

/-- The roots that `_resolve_roots` selects. -/
def resolveRoots (rootNodeIds : List Uuid) : List TopicNode :=
  let roots := t.getSpaceRootNodes spaceId
  if rootNodeIds = [] then roots
  else rootNodeIds.filterMap fun id => roots.find? fun root => root.nodeId = id

/-- The items below some roots, as far as they are selected. -/
def planItems (roots : List TopicNode) (nodeIds : List Uuid) : List PlanItem :=
  roots.flatMap fun root =>
    ((t.getSubtreeNodesPreorder root.nodeId).filter fun item =>
      nodeIds = [] ∨ item.node.nodeId ∈ nodeIds).map fun item => (item, root.nodeId)

/-- `_build_plan_items`. -/
def buildPlanItems (rootNodeIds nodeIds : List Uuid) :
    Except String (List PlanItem × List TopicNode) :=
  let roots := t.resolveRoots spaceId rootNodeIds
  let items := t.planItems roots nodeIds
  if ∃ id ∈ nodeIds, id ∉ items.map fun item => item.1.node.nodeId then .error UNKNOWN_TOPICS
  else .ok (items, roots.filter fun root => root.nodeId ∈ items.map Prod.snd)

end TopicTable

/-- `_preview_item_from_subtree_node`, with `can_generate` as it is set behind it. -/
def previewItem (roots : List TopicNode) (activeRuns : List Uuid) (item : PlanItem) :
    BatchPreviewItemOut :=
  let running := item.1.node.nodeId ∈ activeRuns
  { nodeId := item.1.node.nodeId, title := item.1.node.title, depthLevel := item.1.depthLevel,
    pathNodeIds := item.1.pathNodeIds, pathTitles := item.1.pathTitles,
    rootSegmentNodeId := item.2,
    rootSegmentTitle := (roots.find? fun root => root.nodeId = item.2).map TopicNode.title,
    canGenerate := !decide running, blockReason := if running then some ACTIVE_RUN else none }

def warningNode (item : PlanItem) : BatchWarningNodeOut :=
  ⟨item.1.node.nodeId, item.1.node.title, item.1.pathTitles⟩

/-- The warnings of `preview_generate_all`. -/
def previewWarnings (items : List PlanItem) : BatchPreviewWarningsOut :=
  let missing := (items.filter fun item => !item.1.hasEffectiveInstruction).map warningNode
  let inherits := (items.filter fun item => item.1.inheritsSectionDefault).map warningNode
  ⟨missing, inherits, !missing.isEmpty, !inherits.isEmpty⟩

namespace TopicTable

/-- `preview_generate_all`, with the topics that have an active run. -/
def previewGenerateAll (t : TopicTable) (spaceId : ℕ) (rootNodeIds nodeIds activeRuns : List Uuid) :
    Except String BatchPreviewResponse :=
  (t.buildPlanItems spaceId rootNodeIds nodeIds).map fun plan =>
    ⟨plan.2.map fun root => (root.nodeId, root.title), plan.1.map (previewItem plan.2 activeRuns),
      previewWarnings plan.1⟩

/-- The policy that a batch keeps. -/
def policyPayload (payload : BatchCreateRequest) (plannedIds : List Uuid) : BatchPolicyIn :=
  let researchIds :=
    if payload.externalResearchNodeIds = [] then payload.policy.externalResearchNodeIds
    else payload.externalResearchNodeIds
  { payload.policy with externalResearchNodeIds := researchIds.filter (· ∈ plannedIds) }

/-- The step of an item and its place, counted from 1. -/
def stepOf (item : PlanItem × ℕ) : BatchJobStep :=
  ⟨item.1.1.node.nodeId, item.1.2, item.2, item.1.1.depthLevel, item.1.1.pathTitles,
    item.1.1.node.title⟩

/-- `create_batch`. -/
def createBatch (t : TopicTable) (spaceId : ℕ) (payload : BatchCreateRequest) (mentorId : ℕ) :
    Except String (BatchJob × List BatchJobStep) := do
  let (items, _) ← t.buildPlanItems spaceId payload.rootNodeIds payload.nodeIds
  if items = [] then throw NO_TOPICS
  let involved := (items.map Prod.snd).dedup.mergeSort fun x y => decide (x ≤ y)
  let policy := policyPayload payload (items.map fun item => item.1.node.nodeId)
  return (⟨spaceId, mentorId, involved, policy, items.length⟩, (items.zipIdx 1).map stepOf)

/-! ## What a plan may hold -/

/-- The topic is active, and so are all above it, up to a root of the space that was chosen. -/
def Offered (t : TopicTable) (spaceId : ℕ) (rootNodeIds : List Uuid) (n : TopicNode) : Prop :=
  n ∈ t.rows ∧ (∀ m ∈ t.lineage n, m.isActive = true) ∧ (t.rootOf n).spaceId = spaceId ∧
    (rootNodeIds = [] ∨ (t.rootOf n).nodeId ∈ rootNodeIds)

/-- Only what was asked for, when anything was. -/
def Selected (nodeIds : List Uuid) (n : TopicNode) : Prop := nodeIds = [] ∨ n.nodeId ∈ nodeIds

/-- The topics of a plan, in order. -/
def planned (t : TopicTable) (spaceId : ℕ) (rootNodeIds nodeIds : List Uuid) : List TopicNode :=
  (t.planItems (t.resolveRoots spaceId rootNodeIds) nodeIds).map fun item => item.1.node

variable {t : TopicTable} {spaceId : ℕ} {rootNodeIds nodeIds : List Uuid} {n m root : TopicNode}

theorem mem_getSpaceRootNodes : root ∈ t.getSpaceRootNodes spaceId ↔
    root ∈ t.rows ∧ root.spaceId = spaceId ∧ root.parentId = none ∧ root.isActive = true := by
  rw [getSpaceRootNodes, List.mem_mergeSort, List.mem_filter, decide_eq_true_iff]

theorem nodup_getSpaceRootNodes :
    ((t.getSpaceRootNodes spaceId).map TopicNode.nodeId).Nodup := by
  rw [getSpaceRootNodes]
  exact (((List.mergeSort_perm _ _).map _).nodup_iff).2
    (t.nodup.sublist (List.filter_sublist.map _))

theorem mem_resolveRoots : root ∈ t.resolveRoots spaceId rootNodeIds ↔
    root ∈ t.getSpaceRootNodes spaceId ∧ (rootNodeIds = [] ∨ root.nodeId ∈ rootNodeIds) := by
  rw [resolveRoots]
  split_ifs with hnil
  · exact (and_iff_left (Or.inl hnil)).symm
  · rw [List.mem_filterMap, or_iff_right hnil]
    constructor
    · rintro ⟨id, hid, hfind⟩
      obtain ⟨hroot, rfl⟩ := (KeyedRows.find_eq_some nodup_getSpaceRootNodes).1 hfind
      exact ⟨hroot, hid⟩
    · rintro ⟨hroot, hid⟩
      exact ⟨_, hid, (KeyedRows.find_eq_some nodup_getSpaceRootNodes).2 ⟨hroot, rfl⟩⟩

/-- Roots that are asked for once are resolved once. -/
theorem nodup_resolveRoots (h : rootNodeIds.Nodup) :
    (t.resolveRoots spaceId rootNodeIds).Nodup := by
  rw [resolveRoots]
  split_ifs
  · exact List.Nodup.of_map _ nodup_getSpaceRootNodes
  · refine h.filterMap fun id id' root hid hid' => ?_
    obtain ⟨-, rfl⟩ := (KeyedRows.find_eq_some nodup_getSpaceRootNodes).1 hid
    exact ((KeyedRows.find_eq_some nodup_getSpaceRootNodes).1 hid').2

/-! ## The topics of a plan -/

theorem getAncestors_of_root (hroot : root ∈ t.resolveRoots spaceId rootNodeIds) :
    root ∈ t.rows ∧ root.isActive = true ∧ t.getAncestors root = [] := by
  obtain ⟨hrow, -, hnone, hactive⟩ := mem_getSpaceRootNodes.1 (mem_resolveRoots.1 hroot).1
  exact ⟨hrow, hactive, getAncestors_root hnone⟩

/-- The items of a plan are the topics below its roots, each with its whole path. -/
theorem planItems_eq (hplaced : ∀ c ∈ t.rows, Placed c) :
    t.planItems (t.resolveRoots spaceId rootNodeIds) nodeIds =
      (t.resolveRoots spaceId rootNodeIds).flatMap fun root =>
        ((t.preorder root).filter fun n => nodeIds = [] ∨ n.nodeId ∈ nodeIds).map fun n =>
          (t.itemOf 0 n, root.nodeId) := by
  rw [planItems]
  refine List.flatMap_congr fun root hroot => ?_
  obtain ⟨hrow, hactive, hnone⟩ := getAncestors_of_root hroot
  rw [getSubtreeNodesPreorder_eq hplaced hrow hactive, hnone, List.length_nil, List.filter_map,
    List.map_map]
  rfl

theorem planned_eq (hplaced : ∀ c ∈ t.rows, Placed c) :
    t.planned spaceId rootNodeIds nodeIds =
      (t.resolveRoots spaceId rootNodeIds).flatMap fun root =>
        (t.preorder root).filter fun n => nodeIds = [] ∨ n.nodeId ∈ nodeIds := by
  rw [planned, planItems_eq hplaced, List.map_flatMap]
  refine List.flatMap_congr fun root _ => ?_
  rw [List.map_map]
  exact List.map_id _

/-- Below a root is what it heads. -/
theorem rootOf_of_mem_preorder (hroot : root ∈ t.resolveRoots spaceId rootNodeIds)
    (hn : n ∈ t.preorder root) : t.rootOf n = root := by
  obtain ⟨hrow, -, hnone⟩ := getAncestors_of_root hroot
  obtain ⟨-, below, hbelow, -⟩ := (mem_preorder_iff hrow).1 hn
  have hhead := t.head_lineage n
  rw [hbelow, lineage, hnone] at hhead
  exact (Option.some.inj hhead).symm

/-- **The topics of a plan are the selected ones that only active topics lead to.** -/
theorem mem_planned_iff (hplaced : ∀ c ∈ t.rows, Placed c) :
    n ∈ t.planned spaceId rootNodeIds nodeIds ↔
      Offered t spaceId rootNodeIds n ∧ Selected nodeIds n := by
  rw [planned_eq hplaced, List.mem_flatMap]
  constructor
  · rintro ⟨root, hroot, hn⟩
    obtain ⟨hn, hselected⟩ := List.mem_filter.1 hn
    have hchoice : nodeIds = [] ∨ n.nodeId ∈ nodeIds := of_decide_eq_true hselected
    obtain ⟨hrow, hactive, hnone⟩ := getAncestors_of_root hroot
    obtain ⟨hnrow, below, hbelow, hall⟩ := (mem_preorder_iff hrow).1 hn
    obtain ⟨hspace, hchosen⟩ := mem_resolveRoots.1 hroot
    refine ⟨⟨hnrow, fun m hm => ?_, ?_⟩, hchoice⟩
    · rw [hbelow, lineage, hnone] at hm
      rcases List.mem_append.1 hm with hm | hm
      · exact List.mem_singleton.1 hm ▸ hactive
      · exact hall m hm
    · rw [rootOf_of_mem_preorder hroot hn]
      exact ⟨(mem_getSpaceRootNodes.1 hspace).2.1, hchosen⟩
  · rintro ⟨⟨hn, hactive, hspace, hchosen⟩, hselected⟩
    have hchoice : nodeIds = [] ∨ n.nodeId ∈ nodeIds := hselected
    obtain ⟨hrow, hnone, hmem⟩ := rootOf_spec hn
    obtain ⟨below, hbelow⟩ := List.head?_eq_some_iff.1 (t.head_lineage n)
    have hroot : t.rootOf n ∈ t.resolveRoots spaceId rootNodeIds := mem_resolveRoots.2
      ⟨mem_getSpaceRootNodes.2 ⟨hrow, hspace, hnone, hactive _ hmem⟩, hchosen⟩
    refine ⟨_, hroot, List.mem_filter.2 ⟨(mem_preorder_iff hrow).2 ⟨hn, below, ?_, ?_⟩,
      decide_eq_true hchoice⟩⟩
    · rw [hbelow, lineage, getAncestors_root hnone]
      rfl
    · exact fun m hm => hactive m (hbelow ▸ List.mem_cons_of_mem _ hm)

/-- **No topic is planned before one above it, or twice.** -/
theorem pairwise_planned (hplaced : ∀ c ∈ t.rows, Placed c) (hroots : rootNodeIds.Nodup) :
    (t.planned spaceId rootNodeIds nodeIds).Pairwise fun m n => n ∉ t.lineage m := by
  rw [planned_eq hplaced, List.pairwise_flatMap]
  refine ⟨fun root hroot =>
    (pairwise_preorder hplaced (getAncestors_of_root hroot).1).filter _, ?_⟩
  refine (nodup_resolveRoots hroots).imp_of_mem fun {root root'} hroot hroot' hne m hm n hn hmem =>
    hne ?_
  -- topics that share a lineage share its root
  have hm := List.mem_of_mem_filter hm
  obtain ⟨rest, hrest⟩ := lineage_prefix
    (mem_rows_of_mem_preorder (getAncestors_of_root hroot).1 hm) hmem
  have hhead := t.head_lineage m
  rw [← hrest, List.head?_append, head_lineage, Option.some_or, rootOf_of_mem_preorder hroot hm,
    rootOf_of_mem_preorder hroot' (List.mem_of_mem_filter hn)] at hhead
  exact (Option.some.inj hhead).symm

/-- The item of a topic of a plan. -/
def plannedItem (t : TopicTable) (n : TopicNode) : PlanItem := (t.itemOf 0 n, (t.rootOf n).nodeId)

theorem planItems_eq_map (hplaced : ∀ c ∈ t.rows, Placed c) :
    t.planItems (t.resolveRoots spaceId rootNodeIds) nodeIds =
      (t.planned spaceId rootNodeIds nodeIds).map t.plannedItem := by
  rw [planItems_eq hplaced, planned_eq hplaced, List.map_flatMap]
  refine List.flatMap_congr fun root hroot => List.map_congr_left fun n hn => ?_
  rw [plannedItem, rootOf_of_mem_preorder hroot (List.mem_of_mem_filter hn)]

/-! ## The batch that is created -/

theorem nodeIds_planItems (t : TopicTable) (spaceId : ℕ) (rootNodeIds nodeIds : List Uuid) :
    ((t.planItems (t.resolveRoots spaceId rootNodeIds) nodeIds).map fun item =>
      item.1.node.nodeId) = (t.planned spaceId rootNodeIds nodeIds).map TopicNode.nodeId := by
  rw [planned, List.map_map]
  rfl

/-- A plan is refused when something is asked for that is not offered. -/
theorem buildPlanItems_ok_iff (hplaced : ∀ c ∈ t.rows, Placed c) :
    (∃ plan, t.buildPlanItems spaceId rootNodeIds nodeIds = .ok plan) ↔
      ∀ id ∈ nodeIds, ∃ n, Offered t spaceId rootNodeIds n ∧ n.nodeId = id := by
  have hiff : (∃ id ∈ nodeIds, id ∉ (t.planItems (t.resolveRoots spaceId rootNodeIds) nodeIds).map
      fun item => item.1.node.nodeId) ↔
      ¬ ∀ id ∈ nodeIds, ∃ n, Offered t spaceId rootNodeIds n ∧ n.nodeId = id := by
    push Not
    refine exists_congr fun id => and_congr_right fun hid => ?_
    rw [nodeIds_planItems, List.mem_map, not_exists]
    refine forall_congr' fun n => ?_
    rw [mem_planned_iff hplaced, not_and, and_imp]
    refine ⟨fun h hoffered heq => h hoffered (Or.inr (heq ▸ hid)) heq,
      fun h hoffered _ => h hoffered⟩
  rw [buildPlanItems]
  split_ifs with hunknown
  · exact iff_of_false (fun ⟨_, h⟩ => nomatch h) (hiff.1 hunknown)
  · exact iff_of_true ⟨_, rfl⟩ (not_not.1 fun h => hunknown (hiff.2 h))

theorem buildPlanItems_eq_ok {items : List PlanItem} {roots : List TopicNode}
    (h : t.buildPlanItems spaceId rootNodeIds nodeIds = .ok (items, roots)) :
    items = t.planItems (t.resolveRoots spaceId rootNodeIds) nodeIds ∧
      roots = (t.resolveRoots spaceId rootNodeIds).filter fun root =>
        root.nodeId ∈ items.map Prod.snd := by
  rw [buildPlanItems] at h
  split_ifs at h
  obtain ⟨rfl, rfl⟩ := Prod.mk.inj (Except.ok.inj h)
  exact ⟨rfl, rfl⟩

variable {payload : BatchCreateRequest} {mentorId : ℕ}

/-- What `create_batch` makes of a plan. -/
theorem createBatch_eq : t.createBatch spaceId payload mentorId =
    match t.buildPlanItems spaceId payload.rootNodeIds payload.nodeIds with
    | .error e => .error e
    | .ok (items, _) =>
      if items = [] then .error NO_TOPICS
      else .ok (⟨spaceId, mentorId, (items.map Prod.snd).dedup.mergeSort fun x y => decide (x ≤ y),
        policyPayload payload (items.map fun item => item.1.node.nodeId), items.length⟩,
        (items.zipIdx 1).map stepOf) := by
  unfold createBatch
  cases t.buildPlanItems spaceId payload.rootNodeIds payload.nodeIds with
  | error e => rfl
  | ok plan =>
    dsimp only [bind, Except.bind]
    split_ifs <;> rfl

/-- A batch is created of what is offered, unless nothing is. -/
theorem createBatch_ok_iff (hplaced : ∀ c ∈ t.rows, Placed c) :
    (∃ result, t.createBatch spaceId payload mentorId = .ok result) ↔
      (∀ id ∈ payload.nodeIds, ∃ n, Offered t spaceId payload.rootNodeIds n ∧ n.nodeId = id) ∧
        ∃ n, Offered t spaceId payload.rootNodeIds n ∧ Selected payload.nodeIds n := by
  rw [← buildPlanItems_ok_iff hplaced, createBatch_eq]
  have hne : (∃ n, Offered t spaceId payload.rootNodeIds n ∧ Selected payload.nodeIds n) ↔
      t.planItems (t.resolveRoots spaceId payload.rootNodeIds) payload.nodeIds ≠ [] := by
    rw [planItems_eq_map hplaced, ne_eq, List.map_eq_nil_iff]
    refine ⟨fun ⟨n, hn⟩ => List.ne_nil_of_mem ((mem_planned_iff hplaced).2 hn), fun hne => ?_⟩
    obtain ⟨n, hn⟩ := List.exists_mem_of_ne_nil _ hne
    exact ⟨n, (mem_planned_iff hplaced).1 hn⟩
  rw [hne]
  cases hplan : t.buildPlanItems spaceId payload.rootNodeIds payload.nodeIds with
  | error e => exact iff_of_false (fun ⟨_, h⟩ => nomatch h) fun ⟨⟨_, h⟩, _⟩ => nomatch h
  | ok plan =>
    obtain ⟨items, roots⟩ := plan
    rw [← (buildPlanItems_eq_ok hplan).1]
    dsimp only
    split_ifs with hnil
    · exact iff_of_false (fun ⟨_, h⟩ => nomatch h) fun h => h.2 hnil
    · exact iff_of_true ⟨_, rfl⟩ ⟨⟨_, rfl⟩, hnil⟩

/-- The step of a topic, at its place. -/
def plannedStep (t : TopicTable) (n : TopicNode × ℕ) : BatchJobStep :=
  ⟨n.1.nodeId, (t.rootOf n.1).nodeId, n.2, (t.lineage n.1).length,
    (t.lineage n.1).map TopicNode.title, n.1.title⟩

theorem steps_of_createBatch (hplaced : ∀ c ∈ t.rows, Placed c) {batch : BatchJob}
    {steps : List BatchJobStep}
    (h : t.createBatch spaceId payload mentorId = .ok (batch, steps)) :
    steps = ((t.planned spaceId payload.rootNodeIds payload.nodeIds).zipIdx 1).map t.plannedStep ∧
      batch.totalSteps = steps.length ∧
      ∀ id ∈ batch.policy.externalResearchNodeIds, id ∈ steps.map BatchJobStep.nodeId := by
  rw [createBatch_eq] at h
  cases hplan : t.buildPlanItems spaceId payload.rootNodeIds payload.nodeIds with
  | error e =>
    rw [hplan] at h
    cases h
  | ok plan =>
    obtain ⟨items, roots⟩ := plan
    have hitems := (buildPlanItems_eq_ok hplan).1.trans (planItems_eq_map hplaced)
    rw [hplan] at h
    dsimp only at h
    split_ifs at h
    obtain ⟨hbatch, hsteps⟩ := Prod.mk.inj (Except.ok.inj h)
    have hmap : steps = ((t.planned spaceId payload.rootNodeIds payload.nodeIds).zipIdx 1).map
        t.plannedStep := by
      rw [← hsteps, hitems, List.zipIdx_map, List.map_map]
      rfl
    refine ⟨hmap, ?_, fun id hid => ?_⟩
    · rw [← hbatch, ← hsteps, List.length_map, List.length_zipIdx]
    · have hnodes : steps.map BatchJobStep.nodeId = items.map fun item => item.1.node.nodeId := by
        rw [← hsteps, List.map_map, ← List.zipIdx_map_fst 1 items, List.map_map,
          List.zipIdx_map_fst]
        rfl
      rw [← hbatch] at hid
      rw [hnodes]
      exact of_decide_eq_true (List.mem_filter.1 hid).2

/-- **The steps of a batch that is created.** -/
theorem batch_planned (hplaced : ∀ c ∈ t.rows, Placed c) (hroots : payload.rootNodeIds.Nodup) :
    ((∃ result, t.createBatch spaceId payload mentorId = .ok result) ↔
      (∀ id ∈ payload.nodeIds, ∃ n, Offered t spaceId payload.rootNodeIds n ∧ n.nodeId = id) ∧
        ∃ n, Offered t spaceId payload.rootNodeIds n ∧ Selected payload.nodeIds n) ∧
    ∀ batch steps, t.createBatch spaceId payload mentorId = .ok (batch, steps) →
      ∃ topics : List TopicNode, steps = (topics.zipIdx 1).map t.plannedStep ∧
        (∀ n, n ∈ topics ↔ Offered t spaceId payload.rootNodeIds n ∧ Selected payload.nodeIds n) ∧
        topics.Pairwise (fun m n => n ∉ t.lineage m) ∧ batch.totalSteps = steps.length ∧
        ∀ id ∈ batch.policy.externalResearchNodeIds, id ∈ steps.map BatchJobStep.nodeId := by
  refine ⟨createBatch_ok_iff hplaced, fun batch steps h => ?_⟩
  obtain ⟨hsteps, hlength, hresearch⟩ := steps_of_createBatch hplaced h
  exact ⟨_, hsteps, fun n => mem_planned_iff hplaced, pairwise_planned hplaced hroots, hlength,
    hresearch⟩

/-! ## The preview -/

/-- A warning about a topic. -/
def warningOf (t : TopicTable) (n : TopicNode) : BatchWarningNodeOut :=
  ⟨n.nodeId, n.title, (t.lineage n).map TopicNode.title⟩

/-- A topic as it is shown. -/
def previewOf (t : TopicTable) (activeRuns : List Uuid) (n : TopicNode) : BatchPreviewItemOut :=
  { nodeId := n.nodeId, title := n.title, depthLevel := (t.lineage n).length,
    pathNodeIds := (t.lineage n).map TopicNode.nodeId,
    pathTitles := (t.lineage n).map TopicNode.title,
    rootSegmentNodeId := (t.rootOf n).nodeId, rootSegmentTitle := some (t.rootOf n).title,
    canGenerate := !decide (n.nodeId ∈ activeRuns),
    blockReason := if n.nodeId ∈ activeRuns then some ACTIVE_RUN else none }

/-- Something is inherited unless the topic has its own instruction. -/
theorem any_inherited_iff {ancestors : List TopicNode} :
    ((resolveEffectiveInstructionParts n ancestors).any fun part => part.type = .inherited) = true ↔
      nonempty n.nodeSpecificInstruction = none ∧
        ∃ m ∈ ancestors, nonempty m.treeDefaultInstruction ≠ none := by
  rw [resolveEffectiveInstructionParts]
  cases hown : nonempty n.nodeSpecificInstruction with
  | some text =>
    rw [partOf, hown]
    simp
  | none =>
    rw [partOf, hown]
    simp only [Option.map_none, List.any_append, Bool.or_eq_true, List.any_eq_true,
      List.mem_filterMap, Option.mem_toList, decide_eq_true_iff, true_and]
    constructor
    · rintro (⟨part, ⟨m, hm, hpart⟩, -⟩ | ⟨part, hpart, htype⟩ | ⟨part, hpart, htype⟩)
      · refine ⟨m, hm, fun hnone => ?_⟩
        rw [inheritedPart, partOf, hnone] at hpart
        cases hpart
      · obtain ⟨text, -, rfl⟩ := Option.map_eq_some_iff.1 hpart
        cases htype
      · obtain ⟨text, -, rfl⟩ := Option.map_eq_some_iff.1 hpart
        cases htype
    · rintro ⟨m, hm, hne⟩
      obtain ⟨text, htext⟩ := Option.ne_none_iff_exists'.1 hne
      exact Or.inl ⟨_, ⟨m, hm, by rw [inheritedPart, partOf, htext]; rfl⟩, rfl⟩

/-- The root of a planned topic is among those that are shown. -/
theorem find_root {roots : List TopicNode} (hroots : ∀ r ∈ roots, r ∈ t.rows)
    (hmem : t.rootOf n ∈ roots) :
    (roots.find? fun root => root.nodeId = (t.rootOf n).nodeId) = some (t.rootOf n) := by
  cases hfind : roots.find? fun root => root.nodeId = (t.rootOf n).nodeId with
  | none => exact absurd (decide_eq_true rfl) (List.find?_eq_none.1 hfind _ hmem)
  | some found =>
    have hid : found.nodeId = (t.rootOf n).nodeId := by simpa using List.find?_some hfind
    rw [eq_of_nodeId (hroots _ (List.mem_of_find?_eq_some hfind)) (hroots _ hmem) hid]

theorem rootOf_mem_resolveRoots (h : Offered t spaceId rootNodeIds n) :
    t.rootOf n ∈ t.resolveRoots spaceId rootNodeIds := by
  obtain ⟨hn, hactive, hspace, hchosen⟩ := h
  obtain ⟨hrow, hnone, hmem⟩ := rootOf_spec hn
  exact mem_resolveRoots.2
    ⟨mem_getSpaceRootNodes.2 ⟨hrow, hspace, hnone, hactive _ hmem⟩, hchosen⟩

theorem previewItem_plannedItem {roots : List TopicNode} {activeRuns : List Uuid}
    (hroots : ∀ r ∈ roots, r ∈ t.rows) (hmem : t.rootOf n ∈ roots) :
    previewItem roots activeRuns (t.plannedItem n) = t.previewOf activeRuns n := by
  have hfind := find_root hroots hmem
  rw [previewItem, show (t.plannedItem n).2 = (t.rootOf n).nodeId from rfl, hfind, previewOf]
  rfl

theorem hasEffectiveInstruction_plannedItem (n : TopicNode) :
    (!(t.plannedItem n).1.hasEffectiveInstruction) =
      decide (t.resolveInstruction n = NO_INSTRUCTION_FALLBACK) := by
  have hfallback : formatEffectiveInstruction (resolveEffectiveInstructionParts n
      (t.getAncestors n)) = NO_INSTRUCTION_FALLBACK ↔
      resolveEffectiveInstructionParts n (t.getAncestors n) = [] :=
    formatEffectiveInstruction_eq_fallback fun _ => labelled_resolve
  rw [resolveInstruction, decide_eq_decide.2 hfallback, show
    (t.plannedItem n).1.hasEffectiveInstruction =
      !(resolveEffectiveInstructionParts n (t.getAncestors n)).isEmpty from rfl, Bool.not_not]
  rw [Bool.eq_iff_iff, List.isEmpty_iff, decide_eq_true_iff]

/-- The warnings about some items of a plan. -/
theorem map_warningNode {topics : List TopicNode} {p : PlanItem → Bool} {q : TopicNode → Bool}
    (h : ∀ n, p (t.plannedItem n) = q n) :
    ((topics.map t.plannedItem).filter p).map warningNode = (topics.filter q).map t.warningOf := by
  rw [List.filter_map, List.map_map, show p ∘ t.plannedItem = q from funext h]
  rfl

/-- **A preview shows what the generation of each topic will go by.** -/
theorem preview_warned (hplaced : ∀ c ∈ t.rows, Placed c) {activeRuns : List Uuid}
    {response : BatchPreviewResponse}
    (h : t.previewGenerateAll spaceId rootNodeIds nodeIds activeRuns = .ok response) :
    ∃ topics : List TopicNode,
      (∀ n, n ∈ topics ↔ Offered t spaceId rootNodeIds n ∧ Selected nodeIds n) ∧
      response.items = topics.map (t.previewOf activeRuns) ∧
      response.warnings.missingInstructionNodes =
        (topics.filter fun n => t.resolveInstruction n = NO_INSTRUCTION_FALLBACK).map t.warningOf ∧
      response.warnings.inheritsSectionDefaultNodes =
        (topics.filter fun n => nonempty n.nodeSpecificInstruction = none ∧
          ∃ m ∈ t.getAncestors n, nonempty m.treeDefaultInstruction ≠ none).map t.warningOf := by
  refine ⟨t.planned spaceId rootNodeIds nodeIds, fun n => mem_planned_iff hplaced, ?_⟩
  rw [previewGenerateAll] at h
  cases hplan : t.buildPlanItems spaceId rootNodeIds nodeIds with
  | error e =>
    rw [hplan] at h
    cases h
  | ok plan =>
    obtain ⟨items, roots⟩ := plan
    rw [hplan] at h
    obtain ⟨hitems, hroots⟩ := buildPlanItems_eq_ok hplan
    rw [planItems_eq_map hplaced] at hitems
    obtain rfl := Except.ok.inj h
    dsimp only
    refine ⟨?_, ?_, ?_⟩
    · rw [hitems, List.map_map]
      refine List.map_congr_left fun n hn => previewItem_plannedItem (fun r hr => ?_) ?_
      · rw [hroots] at hr
        exact (getAncestors_of_root (List.mem_of_mem_filter hr)).1
      · rw [hroots]
        refine List.mem_filter.2
          ⟨rootOf_mem_resolveRoots ((mem_planned_iff hplaced).1 hn).1, decide_eq_true ?_⟩
        rw [hitems, List.map_map]
        exact List.mem_map.2 ⟨n, hn, rfl⟩
    · rw [previewWarnings, hitems]
      exact map_warningNode hasEffectiveInstruction_plannedItem
    · rw [previewWarnings, hitems]
      refine map_warningNode fun n => Bool.eq_iff_iff.2 ?_
      rw [decide_eq_true_iff]
      exact any_inherited_iff

end TopicTable

/-! ## One topic of a small space -/

theorem sample_lineage : sampleTable.lineage sampleTopic = [sampleRoot, sampleTopic] := by decide

theorem sample_offered : TopicTable.Offered sampleTable 7 [] sampleTopic := by
  refine ⟨by decide, ?_, ?_, Or.inl rfl⟩
  · rw [sample_lineage]
    decide
  · rw [show sampleTable.rootOf sampleTopic = sampleRoot from
      Option.some.inj ((sampleTable.head_lineage sampleTopic).symm.trans
        (by rw [sample_lineage]; rfl))]
    rfl

/-- One topic is asked for. -/
theorem sample_selected {n : TopicNode}
    (h : TopicTable.Offered sampleTable 7 [] n ∧ TopicTable.Selected [2] n) : n = sampleTopic := by
  obtain ⟨⟨hn, -⟩, hselected⟩ := h
  have hid : n.nodeId = 2 := by simpa [TopicTable.Selected] using hselected
  exact TopicTable.eq_of_nodeId hn sample_offered.1 hid

theorem batch_planned_sample : ∃ batch steps,
    sampleTable.createBatch 7 { nodeIds := [2] } 5 = .ok (batch, steps) ∧
      ∀ step ∈ steps, step.pathTitles = ["Graphs", "Paths"] := by
  obtain ⟨hcreated, hplan⟩ := @TopicTable.batch_planned sampleTable 7 { nodeIds := [2] } 5
    sample_placed List.nodup_nil
  obtain ⟨⟨batch, steps⟩, hresult⟩ := hcreated.2
    ⟨fun id hid => ⟨sampleTopic, sample_offered, (List.mem_singleton.1 hid).symm⟩, sampleTopic,
      sample_offered, Or.inr (List.mem_singleton_self _)⟩
  obtain ⟨topics, hsteps, htopics, -⟩ := hplan batch steps hresult
  refine ⟨batch, steps, hresult, fun step hstep => ?_⟩
  rw [hsteps] at hstep
  obtain ⟨⟨n, place⟩, hn, rfl⟩ := List.mem_map.1 hstep
  have heq := sample_selected ((htopics n).1 (List.fst_mem_of_mem_zipIdx hn))
  rw [TopicTable.plannedStep, heq]
  dsimp only
  rw [sample_lineage]
  rfl

def silentRoot : TopicNode := { sampleRoot with treeDefaultInstruction := none }

def silentTopic : TopicNode := { sampleTopic with nodeAdditiveInstruction := none }

/-- Of the topics below a root without instructions one has its own. -/
def silentTable : TopicTable where
  rows := [silentRoot, silentTopic, sampleLeaf]
  nodup := by decide
  parent_mem := by simp [silentRoot, silentTopic, sampleRoot, sampleTopic, sampleLeaf]
  depth := sampleTable.depth
  depth_lt := by simp [silentRoot, silentTopic, sampleRoot, sampleTopic, sampleLeaf, sampleTable]

theorem silent_placed : ∀ c ∈ silentTable.rows, Placed c := by
  simp [silentTable, silentRoot, silentTopic, sampleRoot, sampleTopic, sampleLeaf, Placed]

/-- A preview warns of the topic that nobody has said anything about, and not of the other. -/
theorem preview_warned_sample : ∃ response,
    silentTable.previewGenerateAll 7 [] [] [] = .ok response ∧
      ⟨2, "Paths", ["Graphs", "Paths"]⟩ ∈ response.warnings.missingInstructionNodes ∧
      ∀ w ∈ response.warnings.missingInstructionNodes, w.nodeId ≠ 3 := by
  obtain ⟨plan, hplan⟩ := (@TopicTable.buildPlanItems_ok_iff silentTable 7 [] [] silent_placed).2
    fun id hid => nomatch hid
  have hresponse : ∃ response, silentTable.previewGenerateAll 7 [] [] [] = .ok response := by
    rw [TopicTable.previewGenerateAll, hplan]
    exact ⟨_, rfl⟩
  obtain ⟨response, hresponse⟩ := hresponse
  obtain ⟨topics, htopics, -, hmissing, -⟩ := TopicTable.preview_warned silent_placed hresponse
  refine ⟨response, hresponse, ?_, fun w hw => ?_⟩
  · have hoffered : TopicTable.Offered silentTable 7 [] silentTopic :=
      ⟨by decide, by decide, by decide, Or.inl rfl⟩
    rw [hmissing]
    exact List.mem_map.2 ⟨silentTopic,
      List.mem_filter.2 ⟨(htopics _).2 ⟨hoffered, Or.inl rfl⟩, by decide +kernel⟩, by decide⟩
  · rw [hmissing] at hw
    obtain ⟨n, hn, rfl⟩ := List.mem_map.1 hw
    obtain ⟨hn, hfallback⟩ := List.mem_filter.1 hn
    rintro hid
    have heq : n = sampleLeaf := TopicTable.eq_of_nodeId ((htopics n).1 hn).1.1 (by decide) hid
    subst heq
    revert hfallback
    decide +kernel

end StudyAgent.Topics
