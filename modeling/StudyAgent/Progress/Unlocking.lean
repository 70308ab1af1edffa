import StudyAgent.Base.Forest
import StudyAgent.Progress.NodeProgress

/-!
# Unlocking nodes

A node of a space whose parent has published material waits until the trainee has completed
the parent, unless the trainee holds a durable grant.  Grants are written when a parent is
completed, and when material is published below a parent that trainees have completed.

Main results:

* `hasAccessibleLearningContent_iff` — a node has content if something at or below it is
  published.
* `available_below_locked_iff` — **below a locked topic whatever has content and no gate is
  open.**
* `granted_iff_resetsKeepAccess` — **grants are complete exactly when no reset locks a node.**
* `publish_granted_iff` — **publishing keeps grants complete, exactly when it turns no
  ungranted node into a gated one with content but the children of the parent.**
-/

namespace StudyAgent.Progress

/-- A space: its nodes, what is published, and the rows and grants of the trainees. -/
structure Space (ι τ S : Type) where
  forest : Forest ι
  nodeTitle : ι → String
  published : ι → Bool
  quizPublished : ι → Bool
  rows : τ → ι → Option (Row S)
  unlocked : τ → ι → Bool

/-- `AccessStatus`. -/
inductive AccessStatus where
  | comingSoon
  | prerequisiteLocked
  | available
  deriving DecidableEq

/-- `AccessResult`. -/
structure AccessResult (ι : Type) where
  status : AccessStatus
  blockedByNodeId : Option ι := none
  blockedByTitle : Option String := none
  unlockMessage : Option String := none
  newlyGranted : Bool := false

variable {ι τ S : Type} [DecidableEq ι]

namespace Space

variable (s : Space ι τ S)

/-! ## Access -/

/-- `count_learning_units`. -/
def countLearningUnits (root : ι) : ℕ :=
  (if s.published root then 1 else 0) + (s.forest.descendants root).countP s.published

/-- `has_accessible_learning_content`. -/
def hasAccessibleLearningContent (root : ι) : Bool := 0 < s.countLearningUnits root

/-- `is_parent_learning_unit`, with the parent that is one. -/
def gate (node : ι) : Option ι := (s.forest.parent node).filter s.published

/-- `is_progress_complete`, on the row of a trainee. -/
def isProgressComplete (t : τ) (node : ι) : Bool :=
  (s.rows t node).any fun row => row.computed (s.quizPublished node) = .completed

/-- `prerequisite_message`. -/
def prerequisiteMessage (parentTitle : String) : String := "Finish " ++ parentTitle ++ " first"

/-- `resolve_node_access`. -/
def resolveNodeAccess (t : τ) (node : ι) : AccessResult ι :=
  if !s.hasAccessibleLearningContent node then { status := .comingSoon }
  else
    match s.gate node with
    | none => { status := .available }
    | some parent =>
      if s.unlocked t node then { status := .available }
      else if s.isProgressComplete t parent then { status := .available }
      else
        let title := if parent ∈ s.forest.nodes then s.nodeTitle parent else "the previous topic"
        { status := .prerequisiteLocked
          blockedByNodeId := some parent
          blockedByTitle := some title
          unlockMessage := some (prerequisiteMessage title) }

/-! ## Grants -/

/-- `eligible_children_for_unlock`. -/
def eligibleChildrenForUnlock (parent : ι) : List ι :=
  (s.forest.children parent).filter s.hasAccessibleLearningContent

/-- `grant_unlocks_for_completed_trainees_on_node`. -/
def grantUnlocksForCompletedTraineesOnNode (node : ι) : Space ι τ S :=
  { s with
    unlocked := fun t child =>
      s.unlocked t child ||
        (s.isProgressComplete t node && (s.eligibleChildrenForUnlock node).contains child) }

/-- `grant_unlocks_after_child_content_published`. -/
def grantUnlocksAfterChildContentPublished (node : ι) : Space ι τ S :=
  if !s.hasAccessibleLearningContent node then s
  else
    match s.gate node with
    | none => s
    | some parent => s.grantUnlocksForCompletedTraineesOnNode parent

/-- `resolve_node_access_with_grant`. -/
def resolveNodeAccessWithGrant [DecidableEq τ] (t : τ) (node : ι) :
    AccessResult ι × Space ι τ S :=
  let result := s.resolveNodeAccess t node
  if result.status ≠ .available then (result, s)
  else
    match s.gate node with
    | none => (result, s)
    | some parent =>
      if s.unlocked t node then (result, s)
      else if !s.isProgressComplete t parent then (result, s)
      else
        ({ status := .available, newlyGranted := true },
          { s with unlocked := fun t' x => (t' = t && x = node) || s.unlocked t' x })

/-- `reset_node_read_progress_for_all_trainees`. -/
def resetReadProgress (node : ι) : Space ι τ S :=
  { s with rows := fun t x => if x = node then (s.rows t x).map Row.resetRead else s.rows t x }

/-- `reset_node_quiz_passed_for_all_trainees`. -/
def resetQuizPassed (node : ι) : Space ι τ S :=
  { s with
    rows := fun t x => if x = node then (s.rows t x).map Row.resetQuizPassed else s.rows t x }

/-- `execute_publish_version_cascade`, for another version than the one that is published, if
there is one, or for the same. -/
def publishVersion (node : ι) (otherVersion : Bool) : Space ι τ S :=
  let isSupersede := s.published node && otherVersion
  let live : Space ι τ S := { s with published := fun x => x = node || s.published x }
  (if isSupersede then live.resetReadProgress node
    else live).grantUnlocksAfterChildContentPublished node

end Space

/-! ## Content and gates -/

section Access

variable {s : Space ι τ S} {t : τ} {node parent x : ι}

theorem hasAccessibleLearningContent_iff :
    s.hasAccessibleLearningContent x = true ↔
      ∃ y, s.forest.AtOrBelow x y ∧ s.published y = true := by
  have hcount : 0 < (s.forest.descendants x).countP s.published ↔
      ∃ y, s.forest.Below x y ∧ s.published y = true := by
    simp only [List.countP_pos_iff, Forest.mem_descendants_iff]
  rw [Space.hasAccessibleLearningContent, decide_eq_true_iff, Space.countLearningUnits]
  constructor
  · intro h
    cases hx : s.published x with
    | true => exact ⟨x, Relation.ReflTransGen.refl, hx⟩
    | false =>
      rw [hx, if_neg Bool.false_ne_true, Nat.zero_add, hcount] at h
      obtain ⟨y, hbelow, hy⟩ := h
      exact ⟨y, hbelow.atOrBelow, hy⟩
  · rintro ⟨y, hbelow, hy⟩
    rcases hbelow.eq_or_below with rfl | hbelow
    · rw [if_pos hy]
      omega
    · have := hcount.2 ⟨y, hbelow, hy⟩
      omega

omit [DecidableEq ι] in
theorem gate_eq_some_iff :
    s.gate node = some parent ↔ s.forest.parent node = some parent ∧ s.published parent = true := by
  rw [Space.gate, Option.filter_eq_some_iff]

/-- **Who may open a node**: whoever has a grant, or has completed its gate. -/
theorem resolveNodeAccess_available_iff :
    (s.resolveNodeAccess t node).status = .available ↔
      s.hasAccessibleLearningContent node = true ∧
        ∀ parent, s.gate node = some parent →
          s.unlocked t node = true ∨ s.isProgressComplete t parent = true := by
  rw [Space.resolveNodeAccess]
  cases hcontent : s.hasAccessibleLearningContent node with
  | false => simp
  | true =>
    cases hgate : s.gate node with
    | none => simp
    | some parent =>
      cases hgrant : s.unlocked t node with
      | true => simp
      | false =>
        cases hcomplete : s.isProgressComplete t parent with
        | true => simp [hcomplete]
        | false => simp [hcomplete]

/-- What has been completed: all of it read, and the quiz passed if there is one. -/
theorem computed_eq_completed_iff {row : Row S} {hasPublishedQuiz : Bool} :
    row.computed hasPublishedQuiz = .completed ↔
      row.studyMaterialCompleted = true ∧ (hasPublishedQuiz = true → row.quizPassed = true) := by
  have hactive : ∀ p : Prop, [Decidable p] →
      (if p then CompletionStatus.inProgress else .notStarted) ≠ .completed := by
    intro p _
    split_ifs
    · simp
    · simp
  rw [Row.computed, computeCompletionStatus]
  cases row.studyMaterialCompleted <;> cases row.quizPassed <;> cases hasPublishedQuiz <;>
    simp [hactive]

/-- A trainee whose reading of a node is reset has not completed it. -/
theorem isProgressComplete_resetReadProgress :
    (s.resetReadProgress node).isProgressComplete t x =
      if x = node then false else s.isProgressComplete t x := by
  unfold Space.isProgressComplete Space.resetReadProgress
  dsimp only
  split_ifs with hx
  · cases s.rows t x with
    | none => rfl
    | some row => simp [computed_eq_completed_iff, Row.resetRead]
  · rfl

end Access

/-! ## Locked topics -/

section LockedTopic

variable {s : Space ι τ S} {t : τ} {x y : ι}

omit [DecidableEq ι] in
/-- Where nothing between has been completed, a gate below a node is completed only if it is the
node itself. -/
theorem gate_complete_iff {parent : ι} (hbelow : s.forest.Below x y)
    (hbetween : ∀ z, s.forest.Below x z → s.forest.Below z y →
      s.unlocked t z = false ∧ s.isProgressComplete t z = false)
    (hgate : s.gate y = some parent) :
    s.isProgressComplete t parent = true ↔ parent = x ∧ s.isProgressComplete t x = true := by
  have hparent := (gate_eq_some_iff.1 hgate).1
  rcases (hbelow.parent_atOrBelow hparent).eq_or_below with rfl | hstrict
  · simp
  · have hopen := (hbetween parent hstrict (Relation.TransGen.single hparent)).2
    have hne : parent ≠ x := by
      rintro rfl
      exact Forest.not_below_self _ hstrict
    simp [hopen, hne]

/-- **What is open below a locked topic**, with no grant of its own and nothing granted or
completed on the way: what has content and no gate, and the children of the topic itself if the
trainee has completed it. -/
theorem available_below_locked_iff (t : τ) (x : ι) :
    (s.resolveNodeAccess t x).status = .prerequisiteLocked →
      ∀ y, s.forest.Below x y → s.unlocked t y = false →
        (∀ z, s.forest.Below x z → s.forest.Below z y →
          s.unlocked t z = false ∧ s.isProgressComplete t z = false) →
        ((s.resolveNodeAccess t y).status = .available ↔
          s.hasAccessibleLearningContent y = true ∧
            ∀ parent, s.gate y = some parent →
              parent = x ∧ s.isProgressComplete t x = true) := by
  intro _ y hbelow hungranted hbetween
  rw [resolveNodeAccess_available_iff]
  refine and_congr_right fun _ => forall₂_congr fun parent hgate => ?_
  rw [hungranted, gate_complete_iff hbelow hbetween hgate]
  simp

end LockedTopic

/-! ## Complete grants -/

section Granted

variable {s : Space ι τ S}

/-- Every node that is open through a completed gate is granted. -/
def Granted (s : Space ι τ S) : Prop :=
  ∀ t node parent, s.hasAccessibleLearningContent node = true → s.gate node = some parent →
    s.isProgressComplete t parent = true → s.unlocked t node = true

/-- No reset of a gate locks a node. -/
def ResetsKeepAccess (s : Space ι τ S) : Prop :=
  ∀ gate t node, (s.resolveNodeAccess t node).status = .available →
    ((s.resetReadProgress gate).resolveNodeAccess t node).status = .available ∧
      ((s.resetQuizPassed gate).resolveNodeAccess t node).status = .available

/-- **Grants are complete exactly when no reset locks a node.** -/
theorem granted_iff_resetsKeepAccess : Granted s ↔ ResetsKeepAccess s := by
  constructor
  · intro h gate t node hopen
    obtain ⟨hcontent, hgates⟩ := resolveNodeAccess_available_iff.1 hopen
    have hgranted : ∀ parent, s.gate node = some parent → s.unlocked t node = true := by
      intro parent hparent
      rcases hgates parent hparent with hgrant | hcomplete
      · exact hgrant
      · exact h t node parent hcontent hparent hcomplete
    exact ⟨resolveNodeAccess_available_iff.2 ⟨hcontent, fun p hp => Or.inl (hgranted p hp)⟩,
      resolveNodeAccess_available_iff.2 ⟨hcontent, fun p hp => Or.inl (hgranted p hp)⟩⟩
  · intro h t node parent hcontent hparent hcomplete
    have hopen : (s.resolveNodeAccess t node).status = .available := by
      refine resolveNodeAccess_available_iff.2 ⟨hcontent, fun p hp => Or.inr ?_⟩
      rw [hparent, Option.some.injEq] at hp
      exact hp ▸ hcomplete
    obtain ⟨-, hgates⟩ := resolveNodeAccess_available_iff.1 (h parent t node hopen).1
    rcases hgates parent hparent with hgrant | hstill
    · exact hgrant
    · rw [isProgressComplete_resetReadProgress, if_pos rfl] at hstill
      cases hstill

/-- What a grant to the children of a node adds. -/
theorem unlocked_grant_iff {node child : ι} {t : τ} :
    (s.grantUnlocksForCompletedTraineesOnNode node).unlocked t child = true ↔
      s.unlocked t child = true ∨ (s.isProgressComplete t node = true ∧
        s.forest.parent child = some node ∧ s.hasAccessibleLearningContent child = true) := by
  simp [Space.grantUnlocksForCompletedTraineesOnNode, Space.eligibleChildrenForUnlock,
    Forest.mem_children_iff]

/-- **What the grants after a publish add**: the children of the gate that have content. -/
theorem unlocked_grantAfterPublish_iff {node child : ι} {t : τ}
    (hcontent : s.hasAccessibleLearningContent node = true) :
    (s.grantUnlocksAfterChildContentPublished node).unlocked t child = true ↔
      s.unlocked t child = true ∨ ∃ parent, s.gate node = some parent ∧
        s.isProgressComplete t parent = true ∧ s.forest.parent child = some parent ∧
          s.hasAccessibleLearningContent child = true := by
  rw [Space.grantUnlocksAfterChildContentPublished, hcontent]
  cases hgate : s.gate node with
  | none => simp
  | some parent => simp [unlocked_grant_iff]

end Granted

/-! ## Publishing -/

section Publish

variable (s : Space ι τ S) (node : ι) (otherVersion : Bool)

/-- The space with the version published, before the grants. -/
def Space.withPublished : Space ι τ S :=
  let live : Space ι τ S := { s with published := fun x => x = node || s.published x }
  if s.published node && otherVersion then live.resetReadProgress node else live

variable {s node otherVersion}

@[simp] theorem withPublished_forest : (s.withPublished node otherVersion).forest = s.forest := by
  unfold Space.withPublished
  split_ifs <;> rfl

@[simp] theorem withPublished_unlocked :
    (s.withPublished node otherVersion).unlocked = s.unlocked := by
  unfold Space.withPublished
  split_ifs <;> rfl

@[simp] theorem withPublished_published {x : ι} :
    (s.withPublished node otherVersion).published x = true ↔ x = node ∨ s.published x = true := by
  unfold Space.withPublished
  split_ifs <;> simp [Space.resetReadProgress]

theorem publishVersion_eq : s.publishVersion node otherVersion =
    (s.withPublished node otherVersion).grantUnlocksAfterChildContentPublished node := rfl

/-- Only the reading of the published node is reset. -/
theorem isProgressComplete_withPublished {t : τ} {x : ι} (hx : x ≠ node) :
    (s.withPublished node otherVersion).isProgressComplete t x = s.isProgressComplete t x := by
  unfold Space.withPublished
  split_ifs
  · rw [isProgressComplete_resetReadProgress, if_neg hx]
    rfl
  · rfl

theorem content_withPublished {x : ι} :
    (s.withPublished node otherVersion).hasAccessibleLearningContent x = true ↔
      s.hasAccessibleLearningContent x = true ∨ s.forest.AtOrBelow x node := by
  simp only [hasAccessibleLearningContent_iff, withPublished_published, withPublished_forest,
    and_or_left, exists_or, exists_eq_right]
  exact or_comm

/-- What is granted once the node is published. -/
theorem unlocked_publishVersion_iff {t : τ} {x : ι} :
    (s.publishVersion node otherVersion).unlocked t x = true ↔ s.unlocked t x = true ∨
      ∃ parent, s.forest.parent node = some parent ∧ s.published parent = true ∧
        s.isProgressComplete t parent = true ∧ s.forest.parent x = some parent ∧
          (s.hasAccessibleLearningContent x = true ∨ s.forest.AtOrBelow x node) := by
  have hcontent : (s.withPublished node otherVersion).hasAccessibleLearningContent node = true :=
    content_withPublished.2 (Or.inr Relation.ReflTransGen.refl)
  rw [publishVersion_eq, unlocked_grantAfterPublish_iff hcontent, withPublished_unlocked]
  refine or_congr_right (exists_congr fun parent => ?_)
  rw [gate_eq_some_iff, withPublished_forest, withPublished_published, content_withPublished,
    and_assoc]
  refine and_congr_right fun hparent => ?_
  have hne := Forest.parent_ne_self hparent
  rw [isProgressComplete_withPublished hne]
  simp [hne]

/-- **What publishing a node may leave ungranted.**  A node that becomes a gate has granted its
children with content to whoever has completed it; and what gets content by a node below it is
granted to whoever has completed its gate. -/
structure GrantsAhead (s : Space ι τ S) (node : ι) : Prop where
  children : ∀ t child, s.published node = false → s.isProgressComplete t node = true →
    s.forest.parent child = some node → s.hasAccessibleLearningContent child = true →
      s.unlocked t child = true
  above : ∀ t x, s.forest.Below x node → ∀ parent, s.gate x = some parent →
    s.isProgressComplete t parent = true → s.unlocked t x = true

theorem granted_grantAfterPublish_iff :
    Granted (s.publishVersion node otherVersion) ↔
      ∀ t x parent, (s.hasAccessibleLearningContent x = true ∨ s.forest.AtOrBelow x node) →
        s.forest.parent x = some parent → (parent = node ∨ s.published parent = true) →
          (s.withPublished node otherVersion).isProgressComplete t parent = true →
            (s.publishVersion node otherVersion).unlocked t x = true := by
  have hsame : ∀ s' : Space ι τ S, ∃ unlocked,
      s'.grantUnlocksAfterChildContentPublished node = { s' with unlocked := unlocked } := by
    intro s'
    rw [Space.grantUnlocksAfterChildContentPublished]
    split_ifs
    · exact ⟨s'.unlocked, rfl⟩
    · cases s'.gate node with
      | none => exact ⟨s'.unlocked, rfl⟩
      | some parent => exact ⟨_, rfl⟩
  obtain ⟨unlocked, heq⟩ := hsame (s.withPublished node otherVersion)
  have hpublished := publishVersion_eq.trans heq
  rw [Granted, hpublished]
  show (∀ t x parent, (s.withPublished node otherVersion).hasAccessibleLearningContent x = true →
    (s.withPublished node otherVersion).gate x = some parent →
      (s.withPublished node otherVersion).isProgressComplete t parent = true → _) ↔ _
  simp only [content_withPublished, gate_eq_some_iff, withPublished_forest,
    withPublished_published, and_imp]

/-- **Publishing keeps grants complete**, and so keeps open what is open, exactly when what it
gives content or a gate is granted ahead. -/
theorem publish_granted_iff (h : Granted s) :
    (Granted (s.publishVersion node otherVersion) ∧
      ResetsKeepAccess (s.publishVersion node otherVersion)) ↔ GrantsAhead s node := by
  rw [← granted_iff_resetsKeepAccess, and_self, granted_grantAfterPublish_iff]
  constructor
  · intro hgranted
    constructor
    · intro t child hnew hcomplete hchild hcontent
      have hlive : (s.withPublished node otherVersion).isProgressComplete t node = true := by
        rw [Space.withPublished, hnew]
        exact hcomplete
      have hafter := hgranted t child node (Or.inl hcontent) hchild (Or.inl rfl) hlive
      rcases unlocked_publishVersion_iff.1 hafter with hbefore | ⟨parent, hparent, -, -, hsame, -⟩
      · exact hbefore
      · rw [hchild, Option.some.injEq] at hsame
        exact absurd hsame.symm (Forest.parent_ne_self hparent)
    · intro t x hbelow parent hgate hcomplete
      obtain ⟨hparent, hpublished⟩ := gate_eq_some_iff.1 hgate
      have hne : parent ≠ node := by
        rintro rfl
        exact Forest.not_below_self _ (hbelow.tail hparent)
      have hafter := hgranted t x parent (Or.inr hbelow.atOrBelow) hparent (Or.inr hpublished)
        ((isProgressComplete_withPublished hne).trans hcomplete)
      rcases unlocked_publishVersion_iff.1 hafter with hbefore | ⟨gate, hgate', -, -, hsame, -⟩
      · exact hbefore
      · exact absurd hgate' (hbelow.parent_ne hsame)
  · intro hahead t x parent hcontent hparent hpublished hcomplete
    rw [unlocked_publishVersion_iff]
    by_cases hgate : parent = node
    · subst hgate
      left
      have hnot : ¬ s.forest.AtOrBelow x parent := fun hloop =>
        Forest.not_below_self parent (Relation.TransGen.head' hparent hloop)
      have hold := hcontent.resolve_right hnot
      cases hlive : s.published parent with
      | false =>
        have hbefore : s.isProgressComplete t parent = true := by
          rw [Space.withPublished, hlive] at hcomplete
          exact hcomplete
        exact hahead.children t x hlive hbefore hparent hold
      | true =>
        rw [Space.withPublished, hlive, Bool.true_and] at hcomplete
        split_ifs at hcomplete
        · rw [isProgressComplete_resetReadProgress, if_pos rfl] at hcomplete
          cases hcomplete
        · exact h t x parent hold (gate_eq_some_iff.2 ⟨hparent, hlive⟩) hcomplete
    · have hlive := hpublished.resolve_left hgate
      rw [isProgressComplete_withPublished hgate] at hcomplete
      have hgated : s.gate x = some parent := gate_eq_some_iff.2 ⟨hparent, hlive⟩
      rcases hcontent with hold | hbelow
      · exact Or.inl (h t x parent hold hgated hcomplete)
      · rcases hbelow.eq_or_below with rfl | hbelow
        · exact Or.inr ⟨parent, hparent, hlive, hcomplete, hparent,
            Or.inr Relation.ReflTransGen.refl⟩
        · exact Or.inl (hahead.above t x hbelow parent hgated hcomplete)

end Publish

/-- Three nodes below one another, of which the trainee has completed the first. -/
def chain (published : ℕ → Bool) : Space ℕ Unit ℕ where
  forest := {
    nodes := [0, 1, 2]
    parent := fun x => if x = 1 then some 0 else if x = 2 then some 1 else none
    mem_of_parent := by
      intro x p h
      split_ifs at h with h1 h2
      · simp [h1]
      · simp [h2]
    height := fun x => if x = 0 then 2 else if x = 1 then 1 else 0
    height_lt := by
      intro x p h
      split_ifs at h with h1 h2
      · cases h
        simp [h1]
      · cases h
        simp [h2] }
  nodeTitle _ := ""
  published := published
  quizPublished _ := false
  rows _ x := if x = 0 then some { studyMaterialReadPercent := 100, studyMaterialCompleted := true }
    else none
  unlocked _ _ := false

theorem chain_parent {published : ℕ → Bool} {x p : ℕ}
    (h : (chain published).forest.parent x = some p) :
    x = 1 ∧ p = 0 ∨ x = 2 ∧ p = 1 := by
  change (if x = 1 then some 0 else if x = 2 then some 1 else none) = some p at h
  split_ifs at h with h1 h2
  · exact Or.inl ⟨h1, (Option.some.inj h).symm⟩
  · exact Or.inr ⟨h2, (Option.some.inj h).symm⟩

theorem chain_granted : Granted (chain fun x => x = 0) := by
  intro t node parent hcontent hgate hcomplete
  obtain ⟨hparent, hpublished⟩ := gate_eq_some_iff.1 hgate
  rcases chain_parent hparent with ⟨rfl, rfl⟩ | ⟨rfl, rfl⟩
  · exact absurd hcontent (by decide)
  · exact absurd hpublished (by decide)

/-- Publishing a child of a completed node grants it. -/
theorem granted_after_child :
    Granted ((chain fun x => x = 0).publishVersion 1 false) ∧
      ResetsKeepAccess ((chain fun x => x = 0).publishVersion 1 false) := by
  refine (publish_granted_iff chain_granted).2 ⟨?_, ?_⟩
  · rintro ⟨⟩ child - hcomplete
    exact absurd hcomplete (by decide)
  · intro t x hbelow parent hgate
    obtain ⟨hparent, hpublished⟩ := gate_eq_some_iff.1 hgate
    rcases chain_parent hparent with ⟨rfl, rfl⟩ | ⟨rfl, rfl⟩
    · exact absurd hbelow (Forest.not_below_self 1)
    · exact absurd hpublished (by decide)

/-- A node that gets content by what is published below it is not granted. -/
theorem ungranted_above_published :
    ¬ ∀ (s : Space ℕ Unit ℕ) (node : ℕ) (otherVersion : Bool), Granted s →
      Granted (s.publishVersion node otherVersion) ∧
        ResetsKeepAccess (s.publishVersion node otherVersion) := by
  intro h
  have hgranted := (h _ 2 false chain_granted).1 () 1 0 (by decide) (by decide) (by decide)
  exact absurd hgranted (by decide)

/-- Three nodes below one another, of which the trainee has read none. -/
def unread (published : ℕ → Bool) : Space ℕ Unit ℕ :=
  { chain published with rows := fun _ _ => none }

theorem unread_below : (unread published).forest.Below 1 2 := Relation.TransGen.single rfl

/-- Below a locked topic with material of its own nothing is open. -/
theorem locked_below_locked :
    ((unread fun _ => true).resolveNodeAccess () 2).status ≠ .available := by
  intro hopen
  obtain ⟨-, hgates⟩ := (available_below_locked_iff () 1 (by decide) 2 unread_below rfl
    fun _ _ _ => ⟨rfl, rfl⟩).1 hopen
  exact absurd (hgates 1 (by decide)).2 (by decide)

/-- Below a locked topic without material of its own the next one is open. -/
theorem open_below_locked :
    ¬ ∀ (s : Space ℕ Unit ℕ) (t : Unit) (x y : ℕ),
      (s.resolveNodeAccess t x).status = .prerequisiteLocked → s.forest.Below x y →
        s.unlocked t y = false →
        (∀ z, s.forest.Below x z → s.forest.Below z y →
          s.unlocked t z = false ∧ s.isProgressComplete t z = false) →
        (s.resolveNodeAccess t y).status ≠ .available := by
  intro h
  refine h (unread fun x => x ≠ 1) () 1 2 (by decide) unread_below rfl ?_ (by decide)
  exact fun _ _ _ => ⟨rfl, rfl⟩

end StudyAgent.Progress
