import StudyAgent.Base.KeyedRows
import StudyAgent.Base.PaddedNumbers
import StudyAgent.Base.RecursiveQuery
import StudyAgent.Base.Text
import Mathlib.Data.Prod.Lex

/-!
# The topic tree and the instructions in it

A space has its topics in one table, each row with its parent.  The ancestors of a topic are
read row by row, a subtree in one recursive query that carries the path of every row and sorts
by a textual key.  A topic is taught by its own instruction, or by the default instructions
above it and its additions.

Main results:

* `sortText_lt_iff` — **the textual keys compare as place and id.**
* `getAncestors_eq` — the ancestors of a topic are those of its parent, and the parent.
-/

namespace StudyAgent.Topics

open PaddedNumbers RecursiveQuery

/-- A node id. -/
abbrev Uuid := Fin (2 ^ 128)

instance : LawfulBEq Uuid where
  eq_of_beq := of_decide_eq_true
  rfl := decide_eq_true rfl

def insertDash (k : ℕ) (s : List Char) : List Char := s.take k ++ (['-'] ++ s.drop k)

/-- The 32 hex digits of an id, in groups. -/
def uuidText (id : Uuid) : List Char :=
  insertDash 8 (insertDash 12 (insertDash 16 (insertDash 20 (fixedDigits 16 32 id))))

/-- A row of `topicnodes`. -/
structure TopicNode where
  nodeId : Uuid
  spaceId : ℕ
  parentId : Option Uuid
  title : String
  orderIndex : ℤ := 0
  nodeSpecificInstruction : Option String := none
  treeDefaultInstruction : Option String := none
  nodeAdditiveInstruction : Option String := none
  isActive : Bool := true
  createdAt : ℕ := 0
  deriving DecidableEq

/-- The table: ids are its key, parents are rows of it, and no topic is above itself. -/
structure TopicTable where
  rows : List TopicNode
  nodup : (rows.map TopicNode.nodeId).Nodup
  parent_mem : ∀ n ∈ rows, ∀ p, n.parentId = some p → ∃ m ∈ rows, m.nodeId = p
  /-- The certificate that parents never loop. -/
  depth : Uuid → ℕ
  depth_lt : ∀ n ∈ rows, ∀ p, n.parentId = some p → depth p < depth n.nodeId

namespace TopicTable

variable (t : TopicTable)

/-- `get_node_by_id`. -/
def getNodeById (id : Uuid) : Option TopicNode := t.rows.find? fun n => n.nodeId = id

/-- The loop of `get_ancestors`, upwards from a parent, as many turns long. -/
def ancestorsUp : ℕ → Option Uuid → List TopicNode
  | 0, _ => []
  | _, none => []
  | turns + 1, some p =>
    match t.getNodeById p with
    | none => []
    | some parent => parent :: ancestorsUp turns parent.parentId

/-- `get_ancestors`: from the root to the parent. -/
def getAncestors (node : TopicNode) : List TopicNode :=
  (t.ancestorsUp (t.depth node.nodeId) node.parentId).reverse

/-- The order of `get_space_root_nodes`. -/
def rootBefore (m n : TopicNode) : Bool :=
  decide (m.orderIndex < n.orderIndex ∨ m.orderIndex = n.orderIndex ∧ m.createdAt ≤ n.createdAt)

/-- `get_space_root_nodes`. -/
def getSpaceRootNodes (spaceId : ℕ) : List TopicNode :=
  (t.rows.filter fun n => n.spaceId = spaceId ∧ n.parentId = none ∧ n.isActive).mergeSort
    rootBefore

end TopicTable

/-! ## The instruction of a topic -/

inductive InstructionPartType where
  | inherited
  | branchDefault
  | extra
  | override
  deriving DecidableEq

structure EffectiveInstructionPart where
  sourceNodeId : Uuid
  sourceNodeTitle : String
  text : String
  type : InstructionPartType
  label : String
  deriving DecidableEq

def NO_INSTRUCTION_FALLBACK : String :=
  "No specific teaching instruction provided. Write clear, accurate introductory " ++
    "study material for a learner who is new to this topic."

/-- `_nonempty`. -/
def nonempty (s : Option String) : Option String :=
  match s with
  | none => none
  | some s => if Py.strip s = "" then none else some (Py.strip s)

/-- `format_effective_instruction`. -/
def formatEffectiveInstruction (parts : List EffectiveInstructionPart) : String :=
  if parts = [] then NO_INSTRUCTION_FALLBACK
  else "\n\n".intercalate (parts.map fun part => part.label ++ "\n" ++ part.text)

/-- A part of an instruction, when its text is there. -/
def partOf (node : TopicNode) (type : InstructionPartType) (label : String)
    (text : Option String) : Option EffectiveInstructionPart :=
  (nonempty text).map fun text => ⟨node.nodeId, node.title, text, type, label⟩

/-- What a topic has from one above it. -/
def inheritedPart (ancestor : TopicNode) : Option EffectiveInstructionPart :=
  partOf ancestor .inherited ("From parent section (" ++ ancestor.title ++ "):")
    ancestor.treeDefaultInstruction

/-- `resolve_effective_instruction_parts`. -/
def resolveEffectiveInstructionParts (node : TopicNode) (ancestors : List TopicNode) :
    List EffectiveInstructionPart :=
  match partOf node .override "Your custom instruction:" node.nodeSpecificInstruction with
  | some part => [part]
  | none =>
    ancestors.filterMap inheritedPart ++
      ((partOf node .branchDefault "Instruction for This Topic Branch:"
          node.treeDefaultInstruction).toList ++
        (partOf node .extra "Prompt for this topic:" node.nodeAdditiveInstruction).toList)

/-- The `effective_instruction` of `resolve_instruction_node`. -/
def TopicTable.resolveInstruction (t : TopicTable) (node : TopicNode) : String :=
  formatEffectiveInstruction (resolveEffectiveInstructionParts node (t.getAncestors node))

/-! ## Subtrees -/

/-- A row of the recursive query. -/
structure SubtreeRow where
  nodeId : Uuid
  depthLevel : ℕ
  pathNodeIds : List Uuid
  pathTitles : List String
  sortKey : List (List Char)
  deriving DecidableEq

/-- `orderindex::text`. -/
def indexText (n : ℤ) : List Char := (toString n).toList

/-- One entry of a sort key. -/
def TopicNode.sortText (n : TopicNode) : List Char :=
  lpad (indexText n.orderIndex) 10 '0' ++ ':' :: uuidText n.nodeId

/-- The row that the query begins with. -/
def anchorRow (n : TopicNode) : SubtreeRow := ⟨n.nodeId, 1, [n.nodeId], [n.title], [n.sortText]⟩

/-- The row of a child, behind that of its parent. -/
def joinRow (st : SubtreeRow) (c : TopicNode) : SubtreeRow :=
  ⟨c.nodeId, st.depthLevel + 1, st.pathNodeIds ++ [c.nodeId], st.pathTitles ++ [c.title],
    st.sortKey ++ [c.sortText]⟩

structure SubtreePreviewNode where
  node : TopicNode
  depthLevel : ℕ
  pathNodeIds : List Uuid
  pathTitles : List String
  effectiveInstruction : String
  hasEffectiveInstruction : Bool
  inheritsSectionDefault : Bool
  deriving DecidableEq

namespace TopicTable

variable (t : TopicTable)

/-- The recursive member of the query. -/
def activeChildren (st : SubtreeRow) : List SubtreeRow :=
  (t.rows.filter fun c => c.parentId = some st.nodeId ∧ c.isActive).map (joinRow st)

/-- The anchor member of the query. -/
def subtreeAnchor (rootNodeId : Uuid) : List SubtreeRow :=
  (t.rows.filter fun n => n.nodeId = rootNodeId ∧ n.isActive).map anchorRow

/-- More rounds than there are levels. -/
def rounds : ℕ := (t.rows.map fun n => t.depth n.nodeId).foldr max 0 + 1

/-- The traversal query. -/
def traversalRows (rootNodeId : Uuid) : List SubtreeRow :=
  (closure t.activeChildren t.rounds (t.subtreeAnchor rootNodeId)).mergeSort
    fun x y => decide (x.sortKey ≤ y.sortKey)

/-- `_path_ancestors`. -/
def pathAncestors (pathNodeIds : List Uuid) (nodeById : Uuid → Option TopicNode) :
    List TopicNode :=
  pathNodeIds.dropLast.filterMap nodeById

/-- The item that a row becomes. -/
def previewNode (nodeById : Uuid → Option TopicNode) (row : SubtreeRow) (node : TopicNode) :
    SubtreePreviewNode :=
  let parts := resolveEffectiveInstructionParts node (pathAncestors row.pathNodeIds nodeById)
  { node, depthLevel := row.depthLevel, pathNodeIds := row.pathNodeIds,
    pathTitles := row.pathTitles,
    effectiveInstruction := formatEffectiveInstruction parts,
    hasEffectiveInstruction := !parts.isEmpty,
    inheritsSectionDefault := parts.any fun part => part.type = .inherited }

/-- `get_subtree_nodes_preorder`. -/
def getSubtreeNodesPreorder (rootNodeId : Uuid) : List SubtreePreviewNode :=
  let rawRows := t.traversalRows rootNodeId
  let nodeById := fun id => if id ∈ rawRows.map SubtreeRow.nodeId then t.getNodeById id else none
  rawRows.filterMap fun row => (nodeById row.nodeId).map (previewNode nodeById row)

end TopicTable

/-! ## Sort keys -/

theorem length_insertDash {s s' : List Char} (k : ℕ) (h : s.length = s'.length) :
    (insertDash k s).length = (insertDash k s').length := by
  simp [insertDash, h]

theorem insertDash_lt {s s' : List Char} (k : ℕ) (hlength : s.length = s'.length) (h : s < s') :
    insertDash k s < insertDash k s' := by
  refine insert_lt_insert ['-'] (by simp [hlength]) ?_
  rwa [List.take_append_drop, List.take_append_drop]

/-- The texts of ids compare as the ids. -/
theorem uuidText_lt {id id' : Uuid} (h : id < id') : uuidText id < uuidText id' := by
  have hlt : fixedDigits 16 32 id < fixedDigits 16 32 id' :=
    fixedDigits_lt (by omega) le_rfl h (by have := id'.isLt; omega)
  have h20 : (fixedDigits 16 32 id).length = (fixedDigits 16 32 id').length := by simp
  have h16 := length_insertDash 20 h20
  have h12 := length_insertDash 16 h16
  exact insertDash_lt 8 (length_insertDash 12 h12)
    (insertDash_lt 12 h12 (insertDash_lt 16 h16 (insertDash_lt 20 h20 hlt)))

theorem uuidText_strictMono : StrictMono uuidText := fun _ _ => uuidText_lt

theorem uuidText_injective : Function.Injective uuidText := uuidText_strictMono.injective

/-- Places that the padding has room for. -/
def Placed (n : TopicNode) : Prop := 0 ≤ n.orderIndex ∧ n.orderIndex < 10 ^ 10

theorem lpad_indexText {k : ℤ} (hk : 0 ≤ k ∧ k < 10 ^ 10) :
    lpad (indexText k) 10 '0' = fixedDigits 10 10 k.toNat := by
  obtain ⟨n, rfl⟩ := Int.eq_ofNat_of_zero_le hk.1
  have htext : indexText n = Nat.toDigits 10 n := Nat.toList_repr
  rw [htext, Int.toNat_natCast]
  exact lpad_toDigits (by omega) (by omega)

/-- The place of a topic among its siblings, and its id. -/
def TopicNode.position (n : TopicNode) : ℤ ×ₗ Uuid := toLex (n.orderIndex, n.nodeId)

theorem sortText_lt {m n : TopicNode} (hm : Placed m) (hn : Placed n)
    (h : m.position < n.position) : m.sortText < n.sortText := by
  rw [TopicNode.sortText, TopicNode.sortText, lpad_indexText hm, lpad_indexText hn]
  rcases Prod.Lex.toLex_lt_toLex.1 h with hlt | ⟨heq, hid⟩
  · refine append_lt_append (by simp) (fixedDigits_lt (by omega) (by omega) ?_ ?_)
    · obtain ⟨hm, -⟩ := hm
      omega
    · obtain ⟨hn, hn'⟩ := hn
      omega
  · rw [show m.orderIndex = n.orderIndex from heq]
    exact append_lt_append_left (List.Lex.cons (uuidText_lt hid))

/-- **The textual keys compare as place and id.** -/
theorem sortText_lt_iff {m n : TopicNode} (hm : Placed m) (hn : Placed n) :
    m.sortText < n.sortText ↔ m.position < n.position := by
  refine ⟨fun h => ?_, sortText_lt hm hn⟩
  rcases lt_trichotomy m.position n.position with hlt | heq | hlt
  · exact hlt
  · obtain ⟨hindex, hid⟩ := Prod.mk.inj (toLex.injective heq)
    rw [TopicNode.sortText, TopicNode.sortText, hindex, hid] at h
    exact absurd h (lt_irrefl _)
  · exact absurd h (sortText_lt hn hm hlt).asymm

theorem length_lpad (s : List Char) (width : ℕ) (fill : Char) :
    (lpad s width fill).length = width := by
  rw [lpad, List.length_append, List.length_replicate, List.length_take]
  omega

/-- Two topics never have one key. -/
theorem nodeId_eq_of_sortText {m n : TopicNode} (h : m.sortText = n.sortText) :
    m.nodeId = n.nodeId :=
  uuidText_injective (List.cons.inj (List.append_inj h (by rw [length_lpad, length_lpad])).2).2

/-! ## Reading the table -/

namespace TopicTable

variable {t : TopicTable} {n m : TopicNode} {id : Uuid}

theorem getNodeById_eq_some : t.getNodeById id = some n ↔ n ∈ t.rows ∧ n.nodeId = id :=
  KeyedRows.find_eq_some t.nodup

theorem getNodeById_nodeId (hn : n ∈ t.rows) : t.getNodeById n.nodeId = some n :=
  getNodeById_eq_some.2 ⟨hn, rfl⟩

theorem eq_of_nodeId (hm : m ∈ t.rows) (hn : n ∈ t.rows) (h : m.nodeId = n.nodeId) : m = n :=
  Option.some.inj ((getNodeById_nodeId hm).symm.trans (h ▸ getNodeById_nodeId hn))

/-- The parent of a topic is a row, and it is less deep. -/
theorem exists_parent (hn : n ∈ t.rows) (hp : n.parentId = some id) :
    ∃ m, m ∈ t.rows ∧ m.nodeId = id ∧ t.depth m.nodeId < t.depth n.nodeId := by
  obtain ⟨m, hm, hid⟩ := t.parent_mem n hn id hp
  exact ⟨m, hm, hid, hid ▸ t.depth_lt n hn id hp⟩

/-- More turns than the depth of the parent change nothing. -/
theorem ancestorsUp_eq {turns turns' : ℕ} {o : Option Uuid} (h : ∀ p ∈ o, t.depth p < turns)
    (h' : ∀ p ∈ o, t.depth p < turns') : t.ancestorsUp turns o = t.ancestorsUp turns' o := by
  induction turns generalizing turns' o with
  | zero =>
    cases o with
    | none => cases turns' <;> rfl
    | some p => exact absurd (h p rfl) (Nat.not_lt_zero _)
  | succ turns ih =>
    cases o with
    | none => cases turns' <;> rfl
    | some p =>
      cases turns' with
      | zero => exact absurd (h' p rfl) (Nat.not_lt_zero _)
      | succ turns' =>
        rw [ancestorsUp, ancestorsUp]
        cases hparent : t.getNodeById p with
        | none => rfl
        | some parent =>
          obtain ⟨hmem, rfl⟩ := getNodeById_eq_some.1 hparent
          have hup : ∀ q ∈ parent.parentId, t.depth q < t.depth parent.nodeId :=
            t.depth_lt parent hmem
          refine congrArg _ (ih (fun q hq => ?_) fun q hq => ?_)
          · have := hup q hq
            have := h _ rfl
            omega
          · have := hup q hq
            have := h' _ rfl
            omega

theorem getAncestors_root (h : n.parentId = none) : t.getAncestors n = [] := by
  rw [getAncestors, h]
  cases t.depth n.nodeId <;> rfl

/-- **The ancestors of a topic are those of its parent, and the parent.** -/
theorem getAncestors_eq (hm : m ∈ t.rows) (hn : n ∈ t.rows) (hp : n.parentId = some m.nodeId) :
    t.getAncestors n = t.getAncestors m ++ [m] := by
  have hlt := t.depth_lt n hn _ hp
  obtain ⟨turns, hturns⟩ := Nat.exists_eq_add_of_lt hlt
  rw [getAncestors, getAncestors, hp,
    show t.depth n.nodeId = t.depth m.nodeId + turns + 1 from hturns,
    ancestorsUp, getNodeById_nodeId hm]
  dsimp only
  have hturns : ∀ q ∈ m.parentId, t.depth q < t.depth m.nodeId + turns := fun q hq =>
    (t.depth_lt m hm q hq).trans_le (Nat.le_add_right _ _)
  rw [List.reverse_cons, ancestorsUp_eq hturns (t.depth_lt m hm)]

/-- An induction from the roots downwards. -/
theorem induction_down {motive : ∀ n ∈ t.rows, Prop}
    (root : ∀ n hn, n.parentId = none → motive n hn)
    (child : ∀ m hm n hn, n.parentId = some m.nodeId → motive m hm → motive n hn)
    (n : TopicNode) (hn : n ∈ t.rows) : motive n hn := by
  induction hdepth : t.depth n.nodeId using Nat.strong_induction_on generalizing n with
  | _ d ih =>
    cases hp : n.parentId with
    | none => exact root n hn hp
    | some p =>
      obtain ⟨m, hm, rfl, hlt⟩ := exists_parent hn hp
      exact child m hm n hn hp (ih _ (hdepth ▸ hlt) m hm rfl)

theorem mem_of_mem_getAncestors (hn : n ∈ t.rows) (h : m ∈ t.getAncestors n) : m ∈ t.rows := by
  induction n, hn using induction_down with
  | root n hn hp =>
    rw [getAncestors_root hp] at h
    exact absurd h List.not_mem_nil
  | child p hp n hn hparent ih =>
    rw [getAncestors_eq hp hn hparent, List.mem_append, List.mem_singleton] at h
    rcases h with h | rfl
    · exact ih h
    · exact hp

/-- A topic with those above it, from its root. -/
def lineage (t : TopicTable) (n : TopicNode) : List TopicNode := t.getAncestors n ++ [n]

theorem lineage_eq (hm : m ∈ t.rows) (hn : n ∈ t.rows) (hp : n.parentId = some m.nodeId) :
    t.lineage n = t.lineage m ++ [n] := by
  rw [lineage, getAncestors_eq hm hn hp, lineage]

theorem length_lineage : (t.lineage n).length = (t.getAncestors n).length + 1 :=
  List.length_append

theorem getLast_lineage (n : TopicNode) : (t.lineage n).getLast? = some n :=
  List.getLast?_concat

theorem mem_of_mem_lineage (hn : n ∈ t.rows) (h : m ∈ t.lineage n) : m ∈ t.rows := by
  rcases List.mem_append.1 h with h | h
  · exact mem_of_mem_getAncestors hn h
  · exact List.mem_singleton.1 h ▸ hn

/-- The lineage of a topic begins with that of each topic in it. -/
theorem lineage_prefix (hn : n ∈ t.rows) (h : m ∈ t.lineage n) : t.lineage m <+: t.lineage n := by
  induction n, hn using induction_down with
  | root n hn hp =>
    rw [lineage, getAncestors_root hp, List.nil_append, List.mem_singleton] at h
    exact h ▸ List.prefix_rfl
  | child p hp n hn hparent ih =>
    have hn' := lineage_eq hp hn hparent
    rw [hn', List.mem_append, List.mem_singleton] at h
    rcases h with h | rfl
    · exact (ih h).trans (hn' ▸ List.prefix_append _ _)
    · exact List.prefix_rfl

theorem lineage_ne_nil (t : TopicTable) (n : TopicNode) : t.lineage n ≠ [] :=
  List.append_ne_nil_of_right_ne_nil _ (List.cons_ne_nil _ _)

/-- The topic at the top of a lineage. -/
def rootOf (t : TopicTable) (n : TopicNode) : TopicNode := (t.lineage n).head (t.lineage_ne_nil n)

theorem head_lineage (t : TopicTable) (n : TopicNode) :
    (t.lineage n).head? = some (t.rootOf n) := List.head?_eq_some_head _

/-- It is a root. -/
theorem rootOf_spec (hn : n ∈ t.rows) :
    t.rootOf n ∈ t.rows ∧ (t.rootOf n).parentId = none ∧ t.rootOf n ∈ t.lineage n := by
  have hmem : t.rootOf n ∈ t.lineage n := List.head_mem _
  refine ⟨mem_of_mem_lineage hn hmem, ?_, hmem⟩
  induction n, hn using induction_down with
  | root n hn hp =>
    rw [show t.rootOf n = n from Option.some.inj ((t.head_lineage n).symm.trans
      (by rw [lineage, getAncestors_root hp]; rfl))]
    exact hp
  | child p hp n hn hparent ih =>
    have heq : t.rootOf n = t.rootOf p := Option.some.inj ((t.head_lineage n).symm.trans
      (by rw [lineage_eq hp hn hparent, List.head?_append, head_lineage, Option.some_or]))
    rw [heq]
    exact ih (List.head_mem _)

end TopicTable

/-! ## A small space -/

def sampleRoot : TopicNode := ⟨1, 7, none, "Graphs", 0, none, some "Be brief", none, true, 0⟩

def sampleTopic : TopicNode := ⟨2, 7, some 1, "Paths", 1, none, none, some " Draw ", true, 0⟩

def sampleLeaf : TopicNode := ⟨3, 7, some 1, "Trees", 0, some "Own", none, none, true, 0⟩

/-- A root with two topics, of which the second in the table comes first. -/
def sampleTable : TopicTable where
  rows := [sampleRoot, sampleTopic, sampleLeaf]
  nodup := by decide
  parent_mem := by simp [sampleRoot, sampleTopic, sampleLeaf]
  depth id := if id = 1 then 0 else 1
  depth_lt := by simp [sampleRoot, sampleTopic, sampleLeaf]

end StudyAgent.Topics
