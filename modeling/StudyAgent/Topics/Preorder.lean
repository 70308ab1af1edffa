import StudyAgent.Topics.Tree
import Mathlib.Data.List.Induction

/-!
# A subtree is listed in preorder

The recursive query, its textual keys and the ancestors that are looked up in memory are
compared with the plain listing: a topic, then the subtrees of its active children by place.

Main results:

* `traversalRows_eq` — the query lists the topics in preorder, each with its path.
* `mem_preorder_iff` — **what is listed is what only active topics lead to.**
* `subtree_preorder` — **the items of a whole tree are what is resolved topic by topic.**
-/

namespace StudyAgent.Topics

open PaddedNumbers RecursiveQuery

namespace TopicTable

/-- The active children of a topic, in order. -/
def orderedChildren (t : TopicTable) (n : TopicNode) : List TopicNode :=
  (t.rows.filter fun c => c.parentId = some n.nodeId ∧ c.isActive).mergeSort
    fun c d => decide (c.position ≤ d.position)

/-- A topic and all below it, depth first. -/
def preorder (t : TopicTable) (n : TopicNode) : List TopicNode :=
  walk t.orderedChildren t.rounds n

/-- The path of a topic, from that many levels down. -/
def rowOf (t : TopicTable) (above : ℕ) (n : TopicNode) : SubtreeRow :=
  let path := (t.lineage n).drop above
  ⟨n.nodeId, path.length, path.map (·.nodeId), path.map (·.title), path.map (·.sortText)⟩

/-- The item of a topic, as `resolve_instruction_node` sees it from that many levels down. -/
def itemOf (t : TopicTable) (above : ℕ) (n : TopicNode) : SubtreePreviewNode :=
  let path := (t.lineage n).drop above
  let parts := resolveEffectiveInstructionParts n ((t.getAncestors n).drop above)
  ⟨n, path.length, path.map (·.nodeId), path.map (·.title), formatEffectiveInstruction parts,
    !parts.isEmpty, parts.any fun part => part.type = .inherited⟩

variable {t : TopicTable} {n m root : TopicNode} {above : ℕ}

theorem mem_orderedChildren :
    m ∈ t.orderedChildren n ↔ m ∈ t.rows ∧ m.parentId = some n.nodeId ∧ m.isActive = true := by
  rw [orderedChildren, List.mem_mergeSort, List.mem_filter, decide_eq_true_iff]

/-- The levels that can still be below an id. -/
def levelsBelow (t : TopicTable) (id : Uuid) : ℕ := t.rounds - 1 - t.depth id

theorem depth_lt_rounds (hn : n ∈ t.rows) : t.depth n.nodeId < t.rounds := by
  have hmax : ∀ l : List TopicNode, n ∈ l →
      t.depth n.nodeId ≤ (l.map fun n => t.depth n.nodeId).foldr max 0 := by
    intro l hl
    induction l with
    | nil => exact absurd hl List.not_mem_nil
    | cons m l ih =>
      rw [List.map_cons, List.foldr_cons]
      rcases List.mem_cons.1 hl with rfl | hl
      · exact le_max_left _ _
      · exact (ih hl).trans (le_max_right _ _)
  exact Nat.lt_succ_of_le (hmax t.rows hn)

theorem levelsBelow_lt {p : Uuid} (hn : n ∈ t.rows) (hp : n.parentId = some p) :
    t.levelsBelow n.nodeId < t.levelsBelow p := by
  have := t.depth_lt n hn p hp
  have := depth_lt_rounds hn
  rw [levelsBelow, levelsBelow]
  omega

theorem levelsBelow_lt_rounds (id : Uuid) : t.levelsBelow id < t.rounds := by
  have hpos : 0 < t.rounds := Nat.succ_pos _
  rw [levelsBelow]
  omega

theorem levelsBelow_child : ∀ n, ∀ m ∈ t.orderedChildren n,
    t.levelsBelow m.nodeId < t.levelsBelow n.nodeId := fun _ _ hm =>
  levelsBelow_lt (mem_orderedChildren.1 hm).1 (mem_orderedChildren.1 hm).2.1

/-- **A topic, then the subtrees of its children.** -/
theorem preorder_eq (t : TopicTable) (n : TopicNode) :
    t.preorder n = n :: (t.orderedChildren n).flatMap t.preorder := by
  rw [preorder, rounds, walk]
  refine congrArg _ (List.flatMap_congr fun m hm => ?_)
  have hlt := levelsBelow_child n m hm
  have hn : t.levelsBelow n.nodeId < t.rounds := levelsBelow_lt_rounds _
  rw [rounds] at hn
  exact walk_eq_walk (levelsBelow_child (t := t)) (by omega) (levelsBelow_lt_rounds _)

theorem mem_preorder : m ∈ t.preorder n ↔
    Relation.ReflTransGen (fun x y => y ∈ t.orderedChildren x) n m :=
  mem_walk_iff (levelsBelow_child (t := t)) (levelsBelow_lt_rounds _)

theorem mem_preorder_self : n ∈ t.preorder n := mem_preorder.2 .refl

theorem mem_preorder_child (hm : m ∈ t.preorder root) (hn : n ∈ t.orderedChildren m) :
    n ∈ t.preorder root := mem_preorder.2 ((mem_preorder.1 hm).tail hn)

/-- An induction over a subtree. -/
theorem preorder_induction {motive : ∀ n ∈ t.preorder root, Prop}
    (self : motive root mem_preorder_self)
    (child : ∀ m hm n hn, motive m hm → motive n (mem_preorder_child hm hn))
    (n : TopicNode) (hn : n ∈ t.preorder root) : motive n hn := by
  induction mem_preorder.1 hn with
  | refl => exact self
  | tail hm hstep ih => exact child _ (mem_preorder.2 hm) _ hstep (ih _)

/-! ## Paths -/

theorem mem_rows_of_mem_preorder (hroot : root ∈ t.rows) (hn : n ∈ t.preorder root) :
    n ∈ t.rows := by
  induction n, hn using preorder_induction with
  | self => exact hroot
  | child m _ n hn _ => exact (mem_orderedChildren.1 hn).1

/-- What is below a topic is at least as deep. -/
theorem length_getAncestors_le (hroot : root ∈ t.rows) (hn : n ∈ t.preorder root) :
    (t.getAncestors root).length ≤ (t.getAncestors n).length := by
  induction n, hn using preorder_induction with
  | self => exact le_rfl
  | child m hm n hn ih =>
    obtain ⟨hrow, hparent, -⟩ := mem_orderedChildren.1 hn
    rw [getAncestors_eq (mem_rows_of_mem_preorder hroot hm) hrow hparent, List.length_append]
    omega

theorem lineage_child (hm : m ∈ t.rows) (hn : n ∈ t.orderedChildren m) :
    t.lineage n = t.lineage m ++ [n] :=
  lineage_eq hm (mem_orderedChildren.1 hn).1 (mem_orderedChildren.1 hn).2.1

theorem path_child (hm : m ∈ t.rows) (hn : n ∈ t.orderedChildren m)
    (habove : above ≤ (t.getAncestors m).length) :
    (t.lineage n).drop above = (t.lineage m).drop above ++ [n] := by
  rw [lineage_child hm hn, List.drop_append_of_le_length (by rw [length_lineage]; omega)]

theorem rowOf_child (hm : m ∈ t.rows) (hn : n ∈ t.orderedChildren m)
    (habove : above ≤ (t.getAncestors m).length) :
    t.rowOf above n = joinRow (t.rowOf above m) n := by
  rw [rowOf, path_child hm hn habove, joinRow, rowOf]
  simp only [List.map_append, List.length_append, List.map_cons, List.map_nil, List.length_cons,
    List.length_nil]

theorem rowOf_root : t.rowOf (t.getAncestors n).length n = anchorRow n := by
  rw [rowOf, lineage, List.drop_left]
  rfl

/-! ## The query -/

theorem extends_activeChildren : Extends t.activeChildren SubtreeRow.sortKey := by
  intro st row hrow
  obtain ⟨c, -, rfl⟩ := List.mem_map.1 hrow
  exact ⟨c.sortText, rfl⟩

theorem pairwise_activeChildren (st : SubtreeRow) :
    (t.activeChildren st).Pairwise fun x y => x.sortKey ≠ y.sortKey := by
  rw [activeChildren, List.pairwise_map]
  refine (List.Pairwise.filter _ (List.pairwise_map.1 t.nodup)).imp fun {c d} hne hkey => ?_
  exact hne (nodeId_eq_of_sortText (List.cons.inj (List.append_cancel_left hkey)).1)

theorem sortText_le_iff (hm : Placed m) (hn : Placed n) :
    m.sortText ≤ n.sortText ↔ m.position ≤ n.position := by
  rw [← not_lt, ← not_lt, sortText_lt_iff hn hm]

theorem append_sortText_le_iff {p : List (List Char)} {s s' : List Char} :
    p ++ [s] ≤ p ++ [s'] ↔ s ≤ s' := by
  have hmono : StrictMono fun s : List Char => p ++ [s] := fun _ _ h => append_lt_append_left
    (List.Lex.rel h)
  exact hmono.le_iff_le

/-- Under a row of the query are the children of its topic, in order. -/
theorem sortedNext_rowOf (hplaced : ∀ c ∈ t.rows, Placed c) (hn : n ∈ t.rows)
    (habove : above ≤ (t.getAncestors n).length) :
    sortedNext t.activeChildren SubtreeRow.sortKey (t.rowOf above n) =
      (t.orderedChildren n).map (t.rowOf above) := by
  have hnext : t.activeChildren (t.rowOf above n) = (t.rows.filter fun c =>
      c.parentId = some n.nodeId ∧ c.isActive).map (joinRow (t.rowOf above n)) := rfl
  rw [sortedNext, hnext, ← List.map_mergeSort
    (r := fun c d => decide (c.position ≤ d.position)), ← orderedChildren]
  · exact List.map_congr_left fun c hc => (rowOf_child hn hc habove).symm
  · intro c hc d hd
    refine decide_eq_decide.2 ?_
    rw [joinRow, joinRow]
    dsimp only
    rw [append_sortText_le_iff, sortText_le_iff (hplaced c (List.mem_of_mem_filter hc))
      (hplaced d (List.mem_of_mem_filter hd))]

theorem subtreeAnchor_eq (hroot : root ∈ t.rows) (hactive : root.isActive = true) :
    t.subtreeAnchor root.nodeId = [anchorRow root] := by
  have hfilter : (t.rows.filter fun n => n.nodeId = root.nodeId ∧ n.isActive) = [root] := by
    rw [show (fun n : TopicNode => decide (n.nodeId = root.nodeId ∧ n.isActive = true)) =
      fun n => n.isActive && decide (n.nodeId = root.nodeId) from
        funext fun n => by simp [and_comm], ← List.filter_filter,
      KeyedRows.filter_eq_singleton t.nodup hroot, List.filter_cons_of_pos hactive,
      List.filter_nil]
  rw [subtreeAnchor, hfilter]
  rfl

theorem walk_rowOf (hplaced : ∀ c ∈ t.rows, Placed c) (hroot : root ∈ t.rows) :
    walk (sortedNext t.activeChildren SubtreeRow.sortKey) t.rounds (anchorRow root) =
      (t.preorder root).map (t.rowOf (t.getAncestors root).length) := by
  rw [← rowOf_root]
  refine walk_map (P := fun n => n ∈ t.rows ∧ (t.getAncestors root).length ≤
    (t.getAncestors n).length) (fun m hm n hn => ?_)
    (fun n hn => sortedNext_rowOf hplaced hn.1 hn.2) _ ⟨hroot, le_rfl⟩
  obtain ⟨hrow, hparent, -⟩ := mem_orderedChildren.1 hn
  refine ⟨hrow, ?_⟩
  rw [getAncestors_eq hm.1 hrow hparent, List.length_append]
  exact hm.2.trans (Nat.le_add_right _ _)

/-- **The query lists the topics in preorder, each with its path.** -/
theorem traversalRows_eq (hplaced : ∀ c ∈ t.rows, Placed c) (hroot : root ∈ t.rows)
    (hactive : root.isActive = true) :
    t.traversalRows root.nodeId = (t.preorder root).map (t.rowOf (t.getAncestors root).length) := by
  rw [traversalRows, subtreeAnchor_eq hroot hactive,
    mergeSort_closure extends_activeChildren pairwise_activeChildren, walk_rowOf hplaced hroot]

/-- **No topic is listed before one above it, or twice.** -/
theorem pairwise_preorder (hplaced : ∀ c ∈ t.rows, Placed c) (hroot : root ∈ t.rows) :
    (t.preorder root).Pairwise fun m n => n ∉ t.lineage m := by
  have hwalk := pairwise_walk_sortedNext (extends_activeChildren (t := t)) pairwise_activeChildren
    t.rounds (anchorRow root)
  rw [walk_rowOf hplaced hroot, List.pairwise_map] at hwalk
  refine hwalk.imp_of_mem fun {m n} hm hn hlt hmem => ?_
  obtain ⟨rest, hrest⟩ := lineage_prefix (mem_rows_of_mem_preorder hroot hm) hmem
  have hlength := length_getAncestors_le hroot hn
  have hdrop : (t.lineage n).drop (t.getAncestors root).length <+:
      (t.lineage m).drop (t.getAncestors root).length := by
    rw [← hrest, List.drop_append_of_le_length (by rw [length_lineage]; omega)]
    exact List.prefix_append _ _
  exact (isPrefix_le (hdrop.map _)).not_gt hlt

/-! ## What is listed -/

/-- Only active topics are below the root, and lead there. -/
theorem lineage_of_mem_preorder (hroot : root ∈ t.rows) (hn : n ∈ t.preorder root) :
    ∃ below, t.lineage n = t.lineage root ++ below ∧ ∀ m ∈ below, m.isActive = true := by
  induction n, hn using preorder_induction with
  | self => exact ⟨[], (List.append_nil _).symm, nofun⟩
  | child m hm n hn ih =>
    obtain ⟨below, hbelow, hactive⟩ := ih
    refine ⟨below ++ [n], ?_, fun x hx => ?_⟩
    · rw [lineage_child (mem_rows_of_mem_preorder hroot hm) hn, hbelow, List.append_assoc]
    · rcases List.mem_append.1 hx with hx | hx
      · exact hactive x hx
      · exact List.mem_singleton.1 hx ▸ (mem_orderedChildren.1 hn).2.2

/-- **What is listed is what only active topics lead to.** -/
theorem mem_preorder_iff (hroot : root ∈ t.rows) : n ∈ t.preorder root ↔ n ∈ t.rows ∧
    ∃ below, t.lineage n = t.lineage root ++ below ∧ ∀ m ∈ below, m.isActive = true := by
  refine ⟨fun hn => ⟨mem_rows_of_mem_preorder hroot hn, lineage_of_mem_preorder hroot hn⟩, ?_⟩
  rintro ⟨hn, below, hbelow, hactive⟩
  induction below using List.reverseRecOn generalizing n with
  | nil =>
    have hlast := getLast_lineage (t := t) n
    rw [hbelow, List.append_nil, getLast_lineage] at hlast
    exact Option.some.inj hlast ▸ mem_preorder_self
  | append_singleton below m ih =>
    have hlast := getLast_lineage (t := t) n
    rw [hbelow, ← List.append_assoc, List.getLast?_concat] at hlast
    obtain rfl := Option.some.inj hlast
    -- there is a root above `m`, so `m` has a parent, which is listed
    cases hp : m.parentId with
    | none =>
      rw [lineage, getAncestors_root hp, ← List.append_assoc] at hbelow
      have hnil := (List.append_eq_nil_iff.1 (List.append_cancel_right hbelow).symm).1
      exact absurd (congrArg List.length hnil) (by rw [length_lineage]; exact Nat.succ_ne_zero _)
    | some p =>
      obtain ⟨parent, hparent, rfl, -⟩ := exists_parent hn hp
      rw [lineage_eq hparent hn hp, ← List.append_assoc] at hbelow
      have hup := ih hparent (List.append_cancel_right hbelow)
        fun x hx => hactive x (List.mem_append_left _ hx)
      refine mem_preorder_child hup (mem_orderedChildren.2 ⟨hn, hp, hactive m ?_⟩)
      exact List.mem_append_right _ (List.mem_singleton_self _)

/-! ## The items -/

/-- What lies between the root and a topic is listed too. -/
theorem mem_preorder_of_mem_path (hroot : root ∈ t.rows) (hn : n ∈ t.preorder root)
    (hm : m ∈ (t.lineage n).drop (t.getAncestors root).length) : m ∈ t.preorder root := by
  induction n, hn using preorder_induction with
  | self =>
    rw [lineage, List.drop_left, List.mem_singleton] at hm
    exact hm ▸ mem_preorder_self
  | child p hp n hn ih =>
    rw [path_child (mem_rows_of_mem_preorder hroot hp) hn (length_getAncestors_le hroot hp),
      List.mem_append, List.mem_singleton] at hm
    rcases hm with hm | rfl
    · exact ih hm
    · exact mem_preorder_child hp hn

/-- The topics that are loaded for the rows of the query. -/
theorem nodeById_of_mem (hroot : root ∈ t.rows) {ids : List Uuid}
    (hids : ids = (t.preorder root).map (·.nodeId)) (hn : n ∈ t.preorder root) :
    (if n.nodeId ∈ ids then t.getNodeById n.nodeId else none) = some n := by
  rw [if_pos (hids ▸ List.mem_map_of_mem hn),
    getNodeById_nodeId (mem_rows_of_mem_preorder hroot hn)]

/-- Looked up in memory, the ancestors are those of the table from the root on. -/
theorem pathAncestors_rowOf {nodeById : Uuid → Option TopicNode} (hroot : root ∈ t.rows)
    (hloaded : ∀ m ∈ t.preorder root, nodeById m.nodeId = some m) (hn : n ∈ t.preorder root) :
    pathAncestors (t.rowOf (t.getAncestors root).length n).pathNodeIds nodeById =
      (t.getAncestors n).drop (t.getAncestors root).length := by
  have hpath : (t.lineage n).drop (t.getAncestors root).length =
      (t.getAncestors n).drop (t.getAncestors root).length ++ [n] :=
    List.drop_append_of_le_length (length_getAncestors_le hroot hn)
  rw [pathAncestors, rowOf]
  dsimp only
  rw [← List.map_dropLast, hpath, List.dropLast_concat, List.filterMap_map]
  refine (List.filterMap_congr fun m hm => ?_).trans List.filterMap_some
  refine hloaded m (mem_preorder_of_mem_path hroot hn ?_)
  exact hpath ▸ List.mem_append_left _ hm

/-- The items below any active topic. -/
theorem getSubtreeNodesPreorder_eq (hplaced : ∀ c ∈ t.rows, Placed c) (hroot : root ∈ t.rows)
    (hactive : root.isActive = true) :
    t.getSubtreeNodesPreorder root.nodeId =
      (t.preorder root).map (t.itemOf (t.getAncestors root).length) := by
  have hids : (t.traversalRows root.nodeId).map SubtreeRow.nodeId =
      (t.preorder root).map (·.nodeId) := by
    rw [traversalRows_eq hplaced hroot hactive, List.map_map]
    rfl
  have hloaded := fun m => nodeById_of_mem (n := m) hroot hids
  rw [getSubtreeNodesPreorder]
  dsimp only
  rw [traversalRows_eq hplaced hroot hactive] at hloaded ⊢
  rw [List.filterMap_map]
  refine (List.filterMap_congr fun n hn => ?_).trans
    (congrFun (List.filterMap_eq_map (f := t.itemOf (t.getAncestors root).length)) _)
  rw [Function.comp_apply, show (t.rowOf (t.getAncestors root).length n).nodeId = n.nodeId from rfl,
    hloaded n hn, Option.map_some, Function.comp_apply, previewNode,
    pathAncestors_rowOf hroot hloaded hn]
  rfl

/-- **A subtree is listed in preorder**, with the ancestors of each topic looked up in memory. -/
theorem subtree_preorder (hplaced : ∀ c ∈ t.rows, Placed c) (hroot : root ∈ t.rows)
    (hactive : root.isActive = true) :
    t.getSubtreeNodesPreorder root.nodeId =
        (t.preorder root).map (t.itemOf (t.getAncestors root).length) ∧
      (∀ n, t.preorder n = n :: (t.orderedChildren n).flatMap t.preorder) ∧
      (∀ n, n ∈ t.preorder root ↔ n ∈ t.rows ∧
        ∃ below, t.lineage n = t.lineage root ++ below ∧ ∀ m ∈ below, m.isActive = true) ∧
      (t.preorder root).Pairwise fun m n => n ∉ t.lineage m :=
  ⟨getSubtreeNodesPreorder_eq hplaced hroot hactive, preorder_eq t,
    fun _ => mem_preorder_iff hroot, pairwise_preorder hplaced hroot⟩

end TopicTable

/-! ## A small space -/

theorem sample_placed : ∀ c ∈ sampleTable.rows, Placed c := by
  simp [sampleTable, sampleRoot, sampleTopic, sampleLeaf, Placed]

theorem sample_children : sampleTable.orderedChildren sampleRoot = [sampleLeaf, sampleTopic] ∧
    sampleTable.orderedChildren sampleLeaf = [] ∧ sampleTable.orderedChildren sampleTopic = [] := by
  have hroot : (sampleTable.rows.filter fun c =>
      c.parentId = some sampleRoot.nodeId ∧ c.isActive) = [sampleTopic, sampleLeaf] := by decide
  have hleaf : (sampleTable.rows.filter fun c =>
      c.parentId = some sampleLeaf.nodeId ∧ c.isActive) = [] := by decide
  have htopic : (sampleTable.rows.filter fun c =>
      c.parentId = some sampleTopic.nodeId ∧ c.isActive) = [] := by decide
  refine ⟨?_, ?_, ?_⟩
  · have hle : ¬ sampleTopic.position ≤ sampleLeaf.position := by decide
    rw [TopicTable.orderedChildren, hroot]
    simp [List.mergeSort, hle]
  · rw [TopicTable.orderedChildren, hleaf, List.mergeSort_nil]
  · rw [TopicTable.orderedChildren, htopic, List.mergeSort_nil]

/-- The topic in front in the table comes behind its sibling. -/
theorem subtree_preorder_sample :
    (sampleTable.getSubtreeNodesPreorder 1).map (fun item => item.node.title) =
      ["Graphs", "Trees", "Paths"] := by
  obtain ⟨hlist, heq, -⟩ := @TopicTable.subtree_preorder sampleTable sampleRoot sample_placed
    (by decide) rfl
  obtain ⟨hroot, hleaf, htopic⟩ := sample_children
  have hpreorder : sampleTable.preorder sampleRoot = [sampleRoot, sampleLeaf, sampleTopic] := by
    rw [heq, hroot, List.flatMap_cons, List.flatMap_singleton, heq, hleaf, heq, htopic]
    rfl
  rw [show (1 : Uuid) = sampleRoot.nodeId from rfl, hlist, hpreorder]
  rfl

end StudyAgent.Topics
