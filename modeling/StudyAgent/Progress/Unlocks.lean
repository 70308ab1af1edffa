import StudyAgent.Base.Runs
import StudyAgent.Progress.NodeLaws
import StudyAgent.Progress.Unlocking

/-!
# Unlocks are durable

A space whose published material stays what it is, with the progress of every node.  Trainees
read and take quizzes; mentors publish quizzes, take them back, change thresholds and replace
material.  Whatever makes a trainee complete a node writes the grants of its children in the
same request, so no later loss of the completion takes an open node away.

Main results:

* `leads_step` — a request keeps every grant, and grants the children of what it completes.
* `unlocks_durable` — **what is open to a trainee stays open.**
-/

namespace StudyAgent.Progress

/-- A space with the progress of its nodes.  What is published does not change. -/
structure Course (ι τ κ S : Type) where
  forest : Forest ι
  nodeTitle : ι → String
  published : ι → Bool
  nodes : ι → Node τ κ S
  unlocked : τ → ι → Bool

/-- What is asked of a space: who may open a node, or an action on it. -/
inductive Request (ι τ κ S : Type) where
  /-- `resolve_node_access_with_grant` and nothing else, as for the panel. -/
  | resolve (t : τ) (node : ι)
  | act (node : ι) (action : Action τ κ S)
  deriving DecidableEq

variable {ι τ κ S : Type}

namespace Node

/-- `is_progress_complete`, on the row of a trainee. -/
def complete (n : Node τ κ S) (t : τ) : Bool :=
  (n.rows t).any fun row => row.computed n.hasPublishedQuiz = .completed

end Node

namespace Course

variable (c : Course ι τ κ S)

/-- What access is resolved by. -/
def space : Space ι τ S where
  forest := c.forest
  nodeTitle := c.nodeTitle
  published := c.published
  quizPublished x := (c.nodes x).hasPublishedQuiz
  rows t x := (c.nodes x).rows t
  unlocked := c.unlocked

/-- Nobody has been on a node, and nobody holds a grant. -/
def Untouched : Prop :=
  (∀ x t, (c.nodes x).rows t = none) ∧ ∀ t x, c.unlocked t x = false

def withGrants (s : Space ι τ S) : Course ι τ κ S := { c with unlocked := s.unlocked }

variable [DecidableEq ι] [DecidableEq τ]

/-- `assert_trainee_node_unlocked`; `none` where it raises. -/
def assertTraineeNodeUnlocked (t : τ) (node : ι) : Option (Course ι τ κ S) :=
  let (result, s) := c.space.resolveNodeAccessWithGrant t node
  if result.status = .prerequisiteLocked then none else some (c.withGrants s)

/-- `grant_unlocks_after_node_completed`. -/
def grantUnlocksAfterNodeCompleted (t : τ) (completedNode : ι) : Course ι τ κ S :=
  { c with
    unlocked := fun t' x => c.unlocked t' x ||
      (decide (t' = t) && (c.space.eligibleChildrenForUnlock completedNode).contains x) }

/-- The grants of a reading or a submission, where the row it has written is completed and the
row before was not. -/
def grantNewlyCompleted (before : Node τ κ S) (t : τ) (node : ι) : Course ι τ κ S :=
  if (((c.nodes node).rows t).any fun row => row.completionStatus = .completed) &&
      !before.complete t then
    c.grantUnlocksAfterNodeCompleted t node
  else c

/-- `grant_unlocks_for_completed_trainees_on_node`. -/
def grantCompletedTrainees (node : ι) : Course ι τ κ S :=
  c.withGrants (c.space.grantUnlocksForCompletedTraineesOnNode node)

variable [DecidableEq κ] [LinearOrder S]

def onNode (fraction : ℕ → S) (node : ι) (action : Action τ κ S) : Option (Course ι τ κ S) :=
  (Progress.step fraction (c.nodes node) action).map fun n =>
    { c with nodes := Function.update c.nodes node n }

/-- One request; `none` where it is refused. -/
def step (fraction : ℕ → S) (c : Course ι τ κ S) : Request ι τ κ S → Option (Course ι τ κ S)
  | .resolve t node => some (c.withGrants (c.space.resolveNodeAccessWithGrant t node).2)
  | .act node (.view t) =>
    (c.assertTraineeNodeUnlocked t node).bind fun c => c.onNode fraction node (.view t)
  | .act node (.start t quiz) =>
    (c.assertTraineeNodeUnlocked t node).bind fun c => c.onNode fraction node (.start t quiz)
  | .act node (.read t percent) =>
    if !c.published node then none
    else
      (c.assertTraineeNodeUnlocked t node).bind fun c =>
        (c.onNode fraction node (.read t percent)).map fun c' =>
          c'.grantNewlyCompleted (c.nodes node) t node
  | .act node (.submit i score) =>
    match (c.nodes node).attempts[i]? with
    | none => none
    | some attempt =>
      (c.onNode fraction node (.submit i score)).map fun c' =>
        c'.grantNewlyCompleted (c.nodes node) attempt.trainee node
  | .act node (.publishQuiz quiz percent) =>
    if !c.published node then none else c.onNode fraction node (.publishQuiz quiz percent)
  | .act node .unpublishQuiz =>
    (c.onNode fraction node .unpublishQuiz).map fun c' => c'.grantCompletedTrainees node
  | .act node (.setThreshold quiz percent) =>
    (c.onNode fraction node (.setThreshold quiz percent)).map fun c' =>
      if (c.nodes node).publishedQuiz = some quiz then c'.grantCompletedTrainees node else c'
  | .act node .supersedeMaterial =>
    if !c.published node then none
    else
      (c.onNode fraction node .supersedeMaterial).map fun c' =>
        c'.withGrants (c'.space.grantUnlocksAfterChildContentPublished node)

end Course

/-! ## Completion of one node -/

section Complete

variable {n n' : Node τ κ S} {t : τ}

theorem complete_iff : n.complete t = true ↔ ∃ row ∈ n.rows t,
    row.studyMaterialCompleted = true ∧ (n.hasPublishedQuiz = true → row.quizPassed = true) := by
  simp only [Node.complete, Option.any_eq_true, decide_eq_true_iff, computed_eq_completed_iff,
    Option.mem_def]

variable [DecidableEq τ] [DecidableEq κ] [LinearOrder S] {fraction : ℕ → S}

/-- Only the trainee who reads completes the node by reading, with a row that says so. -/
theorem complete_read {percent : ℕ} (hstep : step fraction n (.read t percent) = some n')
    {t' : τ} (hcomplete : n'.complete t' = true) : n.complete t' = true ∨
      t' = t ∧ ((n'.rows t).any fun row => row.completionStatus = .completed) = true := by
  simp only [step] at hstep
  split_ifs at hstep
  cases hstep
  by_cases ht : t' = t
  · subst ht
    right
    refine ⟨rfl, ?_⟩
    rw [Node.complete, Node.setRow_rows_self] at hcomplete
    rw [Node.setRow_rows_self, Option.any_some, upsertNodeProgress_matches]
    exact hcomplete
  · left
    rw [Node.complete, Node.setRow_rows_of_ne _ _ ht] at hcomplete
    exact hcomplete

/-- Only the trainee of the attempt completes the node by submitting it. -/
theorem complete_submit {i : ℕ} {score : S} {attempt : QuizAttempt τ κ S}
    (hattempt : n.attempts[i]? = some attempt)
    (hstep : step fraction n (.submit i score) = some n') {t' : τ}
    (hcomplete : n'.complete t' = true) : n.complete t' = true ∨
      t' = attempt.trainee ∧
        ((n'.rows attempt.trainee).any fun row => row.completionStatus = .completed) = true := by
  simp only [step, hattempt] at hstep
  split_ifs at hstep
  cases hstep
  by_cases ht : t' = attempt.trainee
  · subst ht
    right
    refine ⟨rfl, ?_⟩
    rw [Node.complete, Node.setRow_rows_self] at hcomplete
    rw [Node.setRow_rows_self]
    have hquiz : n.publishedThreshold.isSome = n.publishedQuiz.isSome := Option.isSome_map ..
    simpa [recordQuizAttemptSubmission, Row.computed, hquiz, Node.hasPublishedQuiz,
      Node.setRow] using hcomplete
  · left
    rw [Node.complete, Node.setRow_rows_of_ne _ _ ht] at hcomplete
    exact hcomplete

/-- Viewing, starting, publishing a quiz and replacing material complete nothing. -/
theorem complete_of_other {a : Action τ κ S} (hstep : step fraction n a = some n')
    (hkind : match a with
      | .view _ | .start _ _ | .publishQuiz _ _ | .supersedeMaterial => True
      | .setThreshold quiz _ => n.publishedQuiz ≠ some quiz
      | _ => False)
    (hcomplete : n'.complete t = true) : n.complete t = true := by
  cases a with
  | view t' =>
    cases hstep
    by_cases ht : t = t'
    · subst ht
      rw [complete_iff] at hcomplete ⊢
      obtain ⟨row, hrow, hread, hpassed⟩ := hcomplete
      rw [Node.setRow_rows_self, Option.mem_some_iff] at hrow
      subst hrow
      cases hold : n.rows t with
      | none => simp [markStudyMaterialViewed, hold] at hread
      | some row =>
        refine ⟨row, rfl, ?_, ?_⟩
        · simpa [markStudyMaterialViewed, hold] using hread
        · simpa [markStudyMaterialViewed, hold, Node.hasPublishedQuiz, Node.setRow] using hpassed
    · rw [Node.complete, Node.setRow_rows_of_ne _ _ ht] at hcomplete
      exact hcomplete
  | start t' quiz =>
    simp only [step] at hstep
    split_ifs at hstep
    cases hstep
    exact hcomplete
  | publishQuiz quiz percent =>
    simp only [step] at hstep
    split_ifs at hstep
    cases hstep
    obtain ⟨row, hrow, -, hpassed⟩ := complete_iff.1 hcomplete
    rw [Node.updateRows_rows, Option.mem_def, Option.map_eq_some_iff] at hrow
    obtain ⟨old, -, rfl⟩ := hrow
    cases hpassed rfl
  | setThreshold quiz percent =>
    simp only [step, if_neg hkind] at hstep
    cases hstep
    exact hcomplete
  | supersedeMaterial =>
    cases hstep
    obtain ⟨row, hrow, hread, -⟩ := complete_iff.1 hcomplete
    rw [Node.updateRows_rows, Option.mem_def, Option.map_eq_some_iff] at hrow
    obtain ⟨old, -, rfl⟩ := hrow
    cases hread
  | read t' percent => exact hkind.elim
  | submit i score => exact hkind.elim
  | unpublishQuiz => exact hkind.elim

end Complete

/-! ## What a request leads to -/

section Leads

/-- What is published stays, grants stay, and a node that a trainee completes grants them its
children. -/
structure Leads [DecidableEq ι] (c c' : Course ι τ κ S) : Prop where
  forest : c'.forest = c.forest
  published : c'.published = c.published
  unlocked : ∀ t x, c.unlocked t x = true → c'.unlocked t x = true
  completed : ∀ t node child, (c'.nodes node).complete t = true →
    child ∈ c.space.eligibleChildrenForUnlock node →
      (c.nodes node).complete t = true ∨ c'.unlocked t child = true

variable [DecidableEq ι] {c c' c'' : Course ι τ κ S} {t : τ} {node : ι}

theorem content_congr (hforest : c'.forest = c.forest) (hpublished : c'.published = c.published)
    (x : ι) : c'.space.hasAccessibleLearningContent x = c.space.hasAccessibleLearningContent x := by
  unfold Space.hasAccessibleLearningContent Space.countLearningUnits Course.space
  rw [hforest, hpublished]

theorem eligible_congr (hforest : c'.forest = c.forest) (hpublished : c'.published = c.published)
    (x : ι) : c'.space.eligibleChildrenForUnlock x = c.space.eligibleChildrenForUnlock x := by
  have hcontent := funext (content_congr hforest hpublished)
  unfold Space.eligibleChildrenForUnlock
  rw [hcontent]
  show (c'.forest.children x).filter _ = (c.forest.children x).filter _
  rw [hforest]

theorem mem_eligible_iff {child : ι} : child ∈ c.space.eligibleChildrenForUnlock node ↔
    c.forest.parent child = some node ∧ c.space.hasAccessibleLearningContent child = true := by
  rw [Space.eligibleChildrenForUnlock, List.mem_filter, Forest.mem_children_iff]
  rfl

theorem Leads.trans (h : Leads c c') (h' : Leads c' c'') : Leads c c'' where
  forest := h'.forest.trans h.forest
  published := h'.published.trans h.published
  unlocked t x hx := h'.unlocked t x (h.unlocked t x hx)
  completed t node child hcomplete hchild := by
    have hchild' : child ∈ c'.space.eligibleChildrenForUnlock node := by
      rwa [eligible_congr h.forest h.published]
    rcases h'.completed t node child hcomplete hchild' with hold | hgranted
    · exact (h.completed t node child hold hchild).imp_right (h'.unlocked t child)
    · exact Or.inr hgranted

/-- More grants and nothing else. -/
theorem leads_withGrants {s : Space ι τ S}
    (h : ∀ t x, c.unlocked t x = true → s.unlocked t x = true) : Leads c (c.withGrants s) where
  forest := rfl
  published := rfl
  unlocked := h
  completed _ _ _ hcomplete _ := Or.inl hcomplete

theorem unlocked_resolveNodeAccessWithGrant [DecidableEq τ] {s : Space ι τ S} {t' : τ} {x : ι}
    (h : s.unlocked t x = true) : (s.resolveNodeAccessWithGrant t' node).2.unlocked t x = true := by
  unfold Space.resolveNodeAccessWithGrant
  cases s.gate node with
  | none =>
    dsimp only
    split_ifs
    · exact h
    · exact h
  | some parent =>
    dsimp only
    split_ifs
    · exact h
    · exact h
    · exact h
    · simp [h]

theorem unlocked_grantAfterChildContent {s : Space ι τ S} {x : ι} (h : s.unlocked t x = true) :
    (s.grantUnlocksAfterChildContentPublished node).unlocked t x = true := by
  cases hcontent : s.hasAccessibleLearningContent node with
  | false =>
    rw [Space.grantUnlocksAfterChildContentPublished, hcontent]
    exact h
  | true => exact (unlocked_grantAfterPublish_iff hcontent).2 (Or.inl h)

theorem leads_assert [DecidableEq τ] (h : c.assertTraineeNodeUnlocked t node = some c') :
    Leads c c' ∧ c'.nodes = c.nodes ∧ c'.published = c.published := by
  unfold Course.assertTraineeNodeUnlocked at h
  dsimp only at h
  split_ifs at h
  cases h
  refine ⟨leads_withGrants fun t' x hx => ?_, rfl, rfl⟩
  exact unlocked_resolveNodeAccessWithGrant hx

/-- An action on a node, with the grants that follow it. -/
theorem leads_node {n' : Node τ κ S} {unlocked : τ → ι → Bool}
    (hmono : ∀ t x, c.unlocked t x = true → unlocked t x = true)
    (hgrants : ∀ t child, n'.complete t = true → child ∈ c.space.eligibleChildrenForUnlock node →
      (c.nodes node).complete t = true ∨ unlocked t child = true) :
    Leads c { c with nodes := Function.update c.nodes node n', unlocked := unlocked } where
  forest := rfl
  published := rfl
  unlocked := hmono
  completed t x child hcomplete hchild := by
    dsimp only at hcomplete
    by_cases hx : x = node
    · subst hx
      rw [Function.update_self] at hcomplete
      exact hgrants t child hcomplete hchild
    · rw [Function.update_of_ne hx] at hcomplete
      exact Or.inl hcomplete

section Requests

variable [DecidableEq τ] [DecidableEq κ] [LinearOrder S] {fraction : ℕ → S} {a : Action τ κ S}

theorem onNode_eq_some (h : c.onNode fraction node a = some c') :
    ∃ n', step fraction (c.nodes node) a = some n' ∧
      c' = { c with nodes := Function.update c.nodes node n' } := by
  obtain ⟨n', hstep, rfl⟩ := Option.map_eq_some_iff.1 h
  exact ⟨n', hstep, rfl⟩

/-- An action that completes the node for nobody. -/
theorem leads_onNode (h : c.onNode fraction node a = some c')
    (hnone : ∀ t n', step fraction (c.nodes node) a = some n' → n'.complete t = true →
      (c.nodes node).complete t = true) : Leads c c' := by
  obtain ⟨n', hstep, rfl⟩ := onNode_eq_some h
  exact leads_node (fun _ _ hx => hx) fun t _ hcomplete _ => Or.inl (hnone t n' hstep hcomplete)

/-- A reading or submission with its grants. -/
theorem leads_grantNewlyCompleted (h : c.onNode fraction node a = some c')
    (hone : ∀ n', step fraction (c.nodes node) a = some n' → ∀ t', n'.complete t' = true →
      (c.nodes node).complete t' = true ∨ t' = t ∧
        ((n'.rows t).any fun row => row.completionStatus = .completed) = true) :
    Leads c (c'.grantNewlyCompleted (c.nodes node) t node) := by
  obtain ⟨n', hstep, rfl⟩ := onNode_eq_some h
  have hself : (Function.update c.nodes node n') node = n' := Function.update_self ..
  unfold Course.grantNewlyCompleted
  simp only [hself]
  split_ifs with hnew
  · refine leads_node (fun t' x hx => by simp [hx]) fun t' child hcomplete hchild => ?_
    rcases hone n' hstep t' hcomplete with hold | ⟨rfl, -⟩
    · exact Or.inl hold
    · right
      have hsame : ∀ after : Course ι τ κ S, after.forest = c.forest →
          after.published = c.published → child ∈ after.space.eligibleChildrenForUnlock node := by
        intro after hforest hpublished
        rwa [eligible_congr hforest hpublished]
      simp [hsame]
  · refine leads_node (fun _ _ hx => hx) fun t' child hcomplete _ => Or.inl ?_
    rcases hone n' hstep t' hcomplete with hold | ⟨rfl, hstored⟩
    · exact hold
    · simpa [hstored] using hnew

/-- An action whose grants go to all who have completed the node. -/
theorem leads_grantCompletedTrainees (h : c.onNode fraction node a = some c') :
    Leads c (c'.grantCompletedTrainees node) := by
  obtain ⟨n', -, rfl⟩ := onNode_eq_some h
  have hgrant : ∀ t x, (c.unlocked t x = true ∨
      (n'.complete t = true ∧ x ∈ c.space.eligibleChildrenForUnlock node)) →
        (Course.grantCompletedTrainees { c with nodes := Function.update c.nodes node n' }
          node).unlocked t x = true := by
    intro t x hx
    refine unlocked_grant_iff.2 (hx.imp_right ?_)
    rintro ⟨hcomplete, hchild⟩
    refine ⟨?_, ?_⟩
    · show (Function.update c.nodes node n' node).complete t = true
      rwa [Function.update_self]
    · rw [mem_eligible_iff] at hchild
      exact ⟨hchild.1, (content_congr rfl rfl x).trans hchild.2⟩
  refine leads_node (fun t x hx => hgrant t x (Or.inl hx)) fun t x hcomplete hchild => ?_
  exact Or.inr (hgrant t x (Or.inr ⟨hcomplete, hchild⟩))

/-- **Every request leads on**: it keeps the grants, and grants the children of what a trainee
completes by it. -/
theorem leads_step {r : Request ι τ κ S} (h : c.step fraction r = some c') : Leads c c' := by
  cases r with
  | resolve t node =>
    cases h
    exact leads_withGrants fun t' x hx => unlocked_resolveNodeAccessWithGrant hx
  | act node a =>
    cases a with
    | view t =>
      obtain ⟨c₁, hopen, hact⟩ := Option.bind_eq_some_iff.1 h
      have hview := leads_onNode hact fun t n' hs hc => complete_of_other hs trivial hc
      exact (leads_assert hopen).1.trans hview
    | start t quiz =>
      obtain ⟨c₁, hopen, hact⟩ := Option.bind_eq_some_iff.1 h
      have hstart := leads_onNode hact fun t n' hs hc => complete_of_other hs trivial hc
      exact (leads_assert hopen).1.trans hstart
    | read t percent =>
      simp only [Course.step] at h
      split_ifs at h
      obtain ⟨c₁, hopen, hact⟩ := Option.bind_eq_some_iff.1 h
      obtain ⟨c₂, hread, rfl⟩ := Option.map_eq_some_iff.1 hact
      obtain ⟨hleads, hnodes, -⟩ := leads_assert hopen
      exact hleads.trans (leads_grantNewlyCompleted hread fun n' hs t' hc => complete_read hs hc)
    | submit i score =>
      simp only [Course.step] at h
      cases hattempt : (c.nodes node).attempts[i]? with
      | none =>
        rw [hattempt] at h
        cases h
      | some attempt =>
        rw [hattempt] at h
        obtain ⟨c₁, hsubmit, rfl⟩ := Option.map_eq_some_iff.1 h
        exact leads_grantNewlyCompleted hsubmit fun n' hs t' hc => complete_submit hattempt hs hc
    | publishQuiz quiz percent =>
      simp only [Course.step] at h
      split_ifs at h
      exact leads_onNode h fun t n' hs hc => complete_of_other hs trivial hc
    | unpublishQuiz =>
      obtain ⟨c₁, hact, rfl⟩ := Option.map_eq_some_iff.1 h
      exact leads_grantCompletedTrainees hact
    | setThreshold quiz percent =>
      obtain ⟨c₁, hact, rfl⟩ := Option.map_eq_some_iff.1 h
      split_ifs with hlive
      · exact leads_grantCompletedTrainees hact
      · exact leads_onNode hact fun t n' hs hc => complete_of_other hs hlive hc
    | supersedeMaterial =>
      simp only [Course.step] at h
      split_ifs at h
      obtain ⟨c₁, hact, rfl⟩ := Option.map_eq_some_iff.1 h
      have hreset := leads_onNode hact fun t n' hs hc => complete_of_other hs trivial hc
      refine hreset.trans (leads_withGrants fun t x hx => ?_)
      exact unlocked_grantAfterChildContent hx

end Requests

end Leads

/-! ## Durable unlocks -/

section Durable

variable [DecidableEq ι] {c c' c'' : Course ι τ κ S} {t : τ} {x : ι}

theorem granted_of_untouched (h : c.Untouched) : Granted c.space := by
  intro t node parent _ _ hcomplete
  have hnone : c.space.rows t parent = none := h.1 parent t
  rw [Space.isProgressComplete, hnone] at hcomplete
  cases hcomplete

theorem gate_congr (h : Leads c c') : c'.space.gate x = c.space.gate x := by
  show (c'.forest.parent x).filter c'.published = (c.forest.parent x).filter c.published
  rw [h.forest, h.published]

/-- Grants stay complete. -/
theorem granted_of_leads (hgranted : Granted c.space) (h : Leads c c') : Granted c'.space := by
  intro t node parent hcontent hgate hcomplete
  rw [content_congr h.forest h.published] at hcontent
  rw [gate_congr h] at hgate
  have hchild := mem_eligible_iff.2 ⟨(gate_eq_some_iff.1 hgate).1, hcontent⟩
  rcases h.completed t parent node hcomplete hchild with hold | hgrant
  · exact h.unlocked t node (hgranted t node parent hcontent hgate hold)
  · exact hgrant

/-- What is open by complete grants stays open. -/
theorem available_of_leads (hgranted : Granted c.space) (h : Leads c c')
    (hopen : (c.space.resolveNodeAccess t x).status = .available) :
    (c'.space.resolveNodeAccess t x).status = .available := by
  obtain ⟨hcontent, hgates⟩ := resolveNodeAccess_available_iff.1 hopen
  refine resolveNodeAccess_available_iff.2 ⟨?_, fun parent hgate => Or.inl ?_⟩
  · rwa [content_congr h.forest h.published]
  · rw [gate_congr h] at hgate
    apply h.unlocked t x
    rcases hgates parent hgate with hgrant | hcomplete
    · exact hgrant
    · exact hgranted t x parent hcontent hgate hcomplete

variable [DecidableEq τ] [DecidableEq κ] [LinearOrder S] {fraction : ℕ → S}

/-- **What is open to a trainee stays open**, whatever is read, submitted, published, taken back
and reset. -/
theorem unlocks_durable {history later : List (Request ι τ κ S)} (hstart : c.Untouched)
    (hrun : Runs.run (Course.step fraction) c history = some c')
    (hopen : (c'.space.resolveNodeAccess t x).status = .available)
    (hlater : Runs.run (Course.step fraction) c' later = some c'') :
    (c''.space.resolveNodeAccess t x).status = .available := by
  have hgranting : ∀ (c : Course ι τ κ S) r c', Granted c.space → c.step fraction r = some c' →
      Granted c'.space := fun _ _ _ h hs => granted_of_leads h (leads_step hs)
  have hkeeping : ∀ (c : Course ι τ κ S) r c',
      Granted c.space ∧ (c.space.resolveNodeAccess t x).status = .available →
        c.step fraction r = some c' →
          Granted c'.space ∧ (c'.space.resolveNodeAccess t x).status = .available := by
    intro c r c' h hs
    have hleads := leads_step hs
    exact ⟨granted_of_leads h.1 hleads, available_of_leads h.1 hleads h.2⟩
  have hgranted := Runs.run_invariant hgranting (granted_of_untouched hstart) hrun
  exact (Runs.run_invariant hkeeping ⟨hgranted, hopen⟩ hlater).2

end Durable

/-- The first two nodes of a chain have material, and nobody has been there. -/
def twoPublished : Course ℕ Unit Unit ℕ where
  forest := (chain fun _ => true).forest
  nodeTitle _ := ""
  published x := decide (x < 2)
  nodes _ := {
    rows := fun _ => none
    publishedQuiz := none
    passThresholdPercent := fun _ => 60
    attempts := [] }
  unlocked _ _ := false

/-- The first node has been read. -/
def firstRead : Course ℕ Unit Unit ℕ :=
  (twoPublished.step id (.act 0 (.read () 100))).getD twoPublished

/-- A node unlocked by reading its parent is open after the parent's material is replaced. -/
theorem open_after_replacement :
    ∃ c, Runs.run (Course.step id) firstRead [.act 0 .supersedeMaterial] = some c ∧
      c.space.isProgressComplete () 0 = false ∧
      (c.space.resolveNodeAccess () 1).status = .available := by
  have huntouched : twoPublished.Untouched := ⟨fun _ _ => rfl, fun _ _ => rfl⟩
  have hread : Runs.run (Course.step id) twoPublished [.act 0 (.read () 100)] =
    some firstRead := rfl
  have hreset : Runs.run (Course.step id) firstRead [.act 0 .supersedeMaterial] = some _ := rfl
  exact ⟨_, hreset, by decide, unlocks_durable huntouched hread (by decide) hreset⟩

end StudyAgent.Progress
