import StudyAgent.Progress.Unlocking
import Mathlib.Data.Finset.Lattice.Fold
import Mathlib.Data.List.Sort
import Mathlib.Data.Prod.Lex

/-!
# What is next

The panel of a node points the trainee on: to the first node behind it, among its siblings, that can
be opened, or back to its parent.  Each panel is made for itself; here they are followed from one to
the next.

Main results:

* `nextUp_eq` — what a panel points to.
* `siblingSuggestions_eq` — what it suggests beside are the first two other open siblings.
* `tour_route` — **who follows the panels is led through the open nodes behind, level by level, up
  to a root**, and meets no node twice.
-/

namespace StudyAgent.Progress

variable {ι τ S : Type} [LinearOrder ι]

/-! ## Panels -/

/-- `NavSuggestionOut`. -/
structure NavSuggestion (ι : Type) where
  nodeId : ι
  title : String
  labelPrefix : String := "Next up"
  deriving DecidableEq

namespace Space

variable (s : Space ι τ S) (orderIndex : ι → ℤ) (t : τ)

/-- `get_siblings`; rows of one order index come in the order of the table. -/
def getSiblings (node : ι) : List ι :=
  (s.forest.nodes.filter fun x => s.forest.parent x = s.forest.parent node).insertionSort
    fun x y => orderIndex x ≤ orderIndex y

/-- The siblings that the trainee can open, as `get_node_panel` collects them. -/
def siblingNavigableIds (node : ι) (siblings : List ι) : List ι :=
  siblings.filter fun x => x ≠ node ∧ (s.resolveNodeAccess t x).status = .available

/-- The loop of `find_available_siblings`, from the results so far. -/
def availableSiblingsLoop (node : ι) (limit : ℕ) (navigableNodeIds : List ι) :
    List ι → List ι → List ι
  | results, [] => results
  | results, sibling :: rest =>
    if sibling = node then availableSiblingsLoop node limit navigableNodeIds results rest
    else if s.hasAccessibleLearningContent sibling = false then
      availableSiblingsLoop node limit navigableNodeIds results rest
    else if sibling ∉ navigableNodeIds then
      availableSiblingsLoop node limit navigableNodeIds results rest
    else if limit ≤ (results ++ [sibling]).length then results ++ [sibling]
    else availableSiblingsLoop node limit navigableNodeIds (results ++ [sibling]) rest

/-- The loop of `find_next_up`. -/
def nextUpLoop (node : ι) (navigableNodeIds : List ι) : Bool → List ι → Option ι
  | _, [] => none
  | seenCurrent, sibling :: rest =>
    if sibling = node then nextUpLoop node navigableNodeIds true rest
    else if seenCurrent = false then nextUpLoop node navigableNodeIds seenCurrent rest
    else if s.hasAccessibleLearningContent sibling = false then
      nextUpLoop node navigableNodeIds seenCurrent rest
    else if sibling ∉ navigableNodeIds then nextUpLoop node navigableNodeIds seenCurrent rest
    else some sibling

def suggestion (labelPrefix : String) (node : ι) : NavSuggestion ι where
  nodeId := node
  title := s.nodeTitle node
  labelPrefix := labelPrefix

/-- `find_next_up`; ids are ordered as their texts. -/
def findNextUp (node : ι) (siblings : List ι) (parent : Option ι) (navigableNodeIds : List ι) :
    Option (NavSuggestion ι) :=
  let ordered := siblings.insertionSort fun x y =>
    toLex (orderIndex x, x) ≤ toLex (orderIndex y, y)
  match s.nextUpLoop node navigableNodeIds false ordered with
  | some sibling => some (s.suggestion "Next up" sibling)
  | none => parent.map (s.suggestion "Back to")

/-- The `next_up` of `get_node_panel`. -/
def nextUp (node : ι) : Option (NavSuggestion ι) :=
  let siblings := s.getSiblings orderIndex node
  s.findNextUp orderIndex node siblings
    ((s.forest.parent node).filter fun p => p ∈ s.forest.nodes)
    (s.siblingNavigableIds t node siblings)

/-- The `sibling_suggestions` of `get_node_panel`. -/
def siblingSuggestions (node : ι) : List (NavSuggestion ι) :=
  let siblings := s.getSiblings orderIndex node
  let navigableNodeIds := s.siblingNavigableIds t node siblings
  (s.availableSiblingsLoop node 2 navigableNodeIds [] siblings).map fun x =>
    { nodeId := x, title := s.nodeTitle x }

/-- The panels, followed from one to the next. -/
def tour : ℕ → ι → List (NavSuggestion ι)
  | 0, _ => []
  | n + 1, node =>
    match s.nextUp orderIndex t node with
    | some next => next :: tour n next.nodeId
    | none => []

/-! ## Routes -/

end Space

/-- What comes behind an entry of a list. -/
def after (x : ι) (l : List ι) : List ι := (l.dropWhile fun y => y ≠ x).tail

namespace Space

variable (s : Space ι τ S) (orderIndex : ι → ℤ) (t : τ)

/-- The siblings of a node, in the order of the course. -/
def ordered (node : ι) : List ι :=
  (s.getSiblings orderIndex node).insertionSort fun x y =>
    toLex (orderIndex x, x) ≤ toLex (orderIndex y, y)

/-- The siblings behind a node that the trainee can open. -/
def behind (node : ι) : List ι :=
  (after node (s.ordered orderIndex node)).filter fun x =>
    (s.resolveNodeAccess t x).status = .available

/-- The route from a node: the open siblings behind it, then its parent, and the route from
there. -/
inductive Route : ι → List (NavSuggestion ι) → Prop
  | top {x : ι} (h : ∀ p ∈ s.forest.parent x, p ∉ s.forest.nodes) :
      Route x ((s.behind orderIndex t x).map (s.suggestion "Next up"))
  | up {x p : ι} {rest : List (NavSuggestion ι)} (h : s.forest.parent x = some p)
      (hp : p ∈ s.forest.nodes) (hrest : Route p rest) :
      Route x ((s.behind orderIndex t x).map (s.suggestion "Next up") ++
        s.suggestion "Back to" p :: rest)

end Space

/-! ## Lists -/

section Lists

variable {x y : ι} {l rest : List ι} {p : ι → Bool}

@[simp] theorem after_cons_self : after x (x :: l) = l := by simp [after]

theorem after_cons_ne (h : y ≠ x) : after x (y :: l) = after x l := by simp [after, h]

theorem after_sublist : (after x l).Sublist l :=
  (List.tail_sublist _).trans (List.dropWhile_sublist _)

theorem not_mem_after (h : l.Nodup) : x ∉ after x l := by
  induction l with
  | nil => simp [after]
  | cons a l ih =>
    obtain ⟨hnot, hrest⟩ := List.nodup_cons.1 h
    by_cases ha : a = x
    · subst ha
      simpa using hnot
    · rw [after_cons_ne ha]
      exact ih hrest

theorem after_of_filter (hnodup : l.Nodup) (h : l.filter p = y :: rest) :
    y ∈ l ∧ (after y l).filter p = rest := by
  induction l with
  | nil => cases h
  | cons a l ih =>
    obtain ⟨hnot, htail⟩ := List.nodup_cons.1 hnodup
    by_cases hp : p a = true
    · rw [List.filter_cons_of_pos hp] at h
      obtain ⟨rfl, rfl⟩ := List.cons.inj h
      exact ⟨List.mem_cons_self, by rw [after_cons_self]⟩
    · rw [List.filter_cons_of_neg hp] at h
      obtain ⟨hy, hrest⟩ := ih htail h
      have hne : a ≠ y := fun heq => hnot (heq ▸ hy)
      exact ⟨List.mem_cons_of_mem _ hy, by rwa [after_cons_ne hne]⟩

/-- **What is behind the next entry is the rest of what is behind.** -/
theorem filter_after (hnodup : l.Nodup) (h : (after x l).filter p = y :: rest) :
    y ∈ l ∧ (after y l).filter p = rest := by
  induction l with
  | nil => cases h
  | cons a l ih =>
    obtain ⟨hnot, htail⟩ := List.nodup_cons.1 hnodup
    have hlater : y ∈ l ∧ (after y l).filter p = rest := by
      by_cases ha : a = x
      · subst ha
        rw [after_cons_self] at h
        exact after_of_filter htail h
      · rw [after_cons_ne ha] at h
        exact ih htail h
    have hne : a ≠ y := fun heq => hnot (heq ▸ hlater.1)
    exact ⟨List.mem_cons_of_mem _ hlater.1, by rw [after_cons_ne hne]; exact hlater.2⟩

end Lists

/-! ## What a panel points to -/

section

variable {s : Space ι τ S} {orderIndex : ι → ℤ} {t : τ} {x y p : ι} {l rest : List ι}
  {route : List (NavSuggestion ι)}

open Space

theorem nextUpLoop_true {navigable : List ι} (hnot : x ∉ l) :
    s.nextUpLoop x navigable true l = (l.filter fun y =>
      s.hasAccessibleLearningContent y = true ∧ y ∈ navigable).head? := by
  induction l with
  | nil => rfl
  | cons a l ih =>
    obtain ⟨hne, hrest⟩ := not_or.1 (mt List.mem_cons.2 hnot)
    rw [nextUpLoop, if_neg (Ne.symm hne), if_neg (by simp)]
    split_ifs with hempty hopen
    · rw [List.filter_cons_of_neg (by simp [hempty]), ih hrest]
    · rw [List.filter_cons_of_pos (by simp [hempty, hopen]), List.head?_cons]
    · rw [List.filter_cons_of_neg (by simp [hopen]), ih hrest]

theorem nextUpLoop_false {navigable : List ι} (hnodup : l.Nodup) (hx : x ∈ l) :
    s.nextUpLoop x navigable false l = ((after x l).filter fun y =>
      s.hasAccessibleLearningContent y = true ∧ y ∈ navigable).head? := by
  induction l with
  | nil => cases hx
  | cons a l ih =>
    obtain ⟨hnot, htail⟩ := List.nodup_cons.1 hnodup
    rw [nextUpLoop]
    by_cases ha : a = x
    · subst ha
      rw [if_pos rfl, nextUpLoop_true hnot, after_cons_self]
    · rw [if_neg ha, if_pos rfl, after_cons_ne ha]
      exact ih htail ((List.mem_cons.1 hx).resolve_left (Ne.symm ha))

theorem availableSiblingsLoop_eq {limit : ℕ} {navigable results : List ι}
    (h : results.length < limit) :
    s.availableSiblingsLoop x limit navigable results l = results ++ (l.filter fun y =>
      y ≠ x ∧ s.hasAccessibleLearningContent y = true ∧ y ∈ navigable).take
        (limit - results.length) := by
  induction l generalizing results with
  | nil => simp [availableSiblingsLoop]
  | cons a l ih =>
    rw [availableSiblingsLoop]
    split_ifs with hself hempty hopen hlast
    · rw [List.filter_cons_of_neg (by simp [hself]), ih h]
    · rw [List.filter_cons_of_neg (by simp [hempty]), ih h]
    · rw [List.length_append, List.length_singleton] at hlast
      have hone : limit - results.length = 1 := by omega
      rw [List.filter_cons_of_pos (by simp [hself, hempty, hopen]), hone, List.take_succ_cons,
        List.take_zero]
    · rw [List.length_append, List.length_singleton] at hlast
      have hmore : limit - results.length = limit - (results ++ [a]).length + 1 := by
        rw [List.length_append, List.length_singleton]
        omega
      rw [List.filter_cons_of_pos (by simp [hself, hempty, hopen]), hmore, List.take_succ_cons,
        ih (by rw [List.length_append, List.length_singleton]; omega), List.append_assoc,
        List.singleton_append]
    · rw [List.filter_cons_of_neg (by simp [hopen]), ih h]

theorem content_of_available (h : (s.resolveNodeAccess t y).status = .available) :
    s.hasAccessibleLearningContent y = true := (resolveNodeAccess_available_iff.1 h).1

theorem mem_siblingNavigableIds : y ∈ s.siblingNavigableIds t x l ↔
    y ∈ l ∧ y ≠ x ∧ (s.resolveNodeAccess t y).status = .available := by
  simp [siblingNavigableIds]

/-- **What a panel suggests beside**: the first two other siblings that can be opened. -/
theorem siblingSuggestions_eq : s.siblingSuggestions orderIndex t x =
    (((s.getSiblings orderIndex x).filter fun y =>
      y ≠ x ∧ (s.resolveNodeAccess t y).status = .available).take 2).map
        (s.suggestion "Next up") := by
  rw [siblingSuggestions, availableSiblingsLoop_eq (by simp), List.nil_append]
  congr 2
  refine List.filter_congr fun y hy => ?_
  simp only [mem_siblingNavigableIds, decide_eq_decide]
  exact ⟨fun h => h.2.2.2, fun h => ⟨h.1, content_of_available h.2, hy, h⟩⟩

theorem mem_ordered : y ∈ s.ordered orderIndex x ↔
    y ∈ s.forest.nodes ∧ s.forest.parent y = s.forest.parent x := by
  simp [ordered, getSiblings]

theorem ordered_congr (h : s.forest.parent y = s.forest.parent x) :
    s.ordered orderIndex y = s.ordered orderIndex x := by
  simp only [ordered, getSiblings, h]

theorem nodup_ordered (h : s.forest.nodes.Nodup) : (s.ordered orderIndex x).Nodup :=
  (List.perm_insertionSort _ _).nodup_iff.2
    ((List.perm_insertionSort _ _).nodup_iff.2 (h.filter _))

/-- **What a panel points to**: the first open sibling behind the node, or else its parent. -/
theorem nextUp_eq (hnodup : s.forest.nodes.Nodup) (hx : x ∈ s.forest.nodes) :
    s.nextUp orderIndex t x = ((s.behind orderIndex t x).head?.map (s.suggestion "Next up")).or
      (((s.forest.parent x).filter fun p => p ∈ s.forest.nodes).map (s.suggestion "Back to")) := by
  have hordered : (s.ordered orderIndex x).Nodup := nodup_ordered hnodup
  have hloop : s.nextUpLoop x (s.siblingNavigableIds t x (s.getSiblings orderIndex x)) false
      (s.ordered orderIndex x) = (s.behind orderIndex t x).head? := by
    rw [nextUpLoop_false hordered (mem_ordered.2 ⟨hx, rfl⟩), behind]
    congr 1
    refine List.filter_congr fun y hy => ?_
    have hsibling : y ∈ s.getSiblings orderIndex x := by
      have hmem := mem_ordered.1 (after_sublist.subset hy)
      simpa [getSiblings] using hmem
    have hne : y ≠ x := fun heq => not_mem_after hordered (heq ▸ hy)
    simp only [mem_siblingNavigableIds, decide_eq_decide]
    exact ⟨fun h => h.2.2.2, fun h => ⟨content_of_available h, hsibling, hne, h⟩⟩
  rw [nextUp, findNextUp, ← ordered, hloop]
  cases (s.behind orderIndex t x).head? <;> rfl

theorem behind_next (hnodup : s.forest.nodes.Nodup)
    (h : s.behind orderIndex t x = y :: rest) :
    y ∈ s.forest.nodes ∧ s.forest.parent y = s.forest.parent x ∧
      s.behind orderIndex t y = rest := by
  obtain ⟨hy, hrest⟩ := filter_after (nodup_ordered hnodup) h
  obtain ⟨hmem, hparent⟩ := mem_ordered.1 hy
  refine ⟨hmem, hparent, ?_⟩
  rw [behind, ordered_congr hparent]
  exact hrest

theorem parent_of_mem_behind (h : y ∈ s.behind orderIndex t x) :
    s.forest.parent y = s.forest.parent x :=
  (mem_ordered.1 (after_sublist.subset (List.mem_filter.1 h).1)).2

/-- A node and the open siblings behind it are apart. -/
theorem nodup_behind (hnodup : s.forest.nodes.Nodup) : (x :: s.behind orderIndex t x).Nodup := by
  have hordered : (s.ordered orderIndex x).Nodup := nodup_ordered hnodup
  refine List.nodup_cons.2 ⟨fun hmem => ?_, (hordered.sublist after_sublist).filter _⟩
  exact not_mem_after hordered (List.mem_filter.1 hmem).1

omit [LinearOrder ι] in
theorem map_nodeId_suggestion (labelPrefix : String) :
    (l.map (s.suggestion labelPrefix)).map NavSuggestion.nodeId = l := by
  rw [List.map_map]
  exact List.map_id _

/-! ## Following the panels -/

/-- The route from the next sibling is the rest of the route. -/
theorem Space.Route.next (hnodup : s.forest.nodes.Nodup) (h : s.Route orderIndex t x route)
    (hbehind : s.behind orderIndex t x = y :: rest) :
    ∃ route', route = s.suggestion "Next up" y :: route' ∧ s.Route orderIndex t y route' := by
  obtain ⟨-, hparent, hrest⟩ := behind_next hnodup hbehind
  cases h with
  | top htop =>
    refine ⟨_, by rw [hbehind]; rfl, ?_⟩
    rw [← hrest]
    exact .top (hparent ▸ htop)
  | up hp hmem hroute =>
    refine ⟨_, by rw [hbehind]; rfl, ?_⟩
    rw [← hrest]
    exact .up (hparent.trans hp) hmem hroute

/-- **The panels follow the route**, and end where it ends. -/
theorem tour_eq_take (hnodup : s.forest.nodes.Nodup) (hx : x ∈ s.forest.nodes)
    (h : s.Route orderIndex t x route) (n : ℕ) : s.tour orderIndex t n x = route.take n := by
  induction n generalizing x route with
  | zero => rfl
  | succ n ih =>
    rw [tour, nextUp_eq hnodup hx]
    cases hbehind : s.behind orderIndex t x with
    | cons y rest =>
      obtain ⟨route', rfl, hroute⟩ := h.next hnodup hbehind
      have hy := (behind_next hnodup hbehind).1
      exact congrArg _ (ih hy hroute)
    | nil =>
      cases h with
      | top htop =>
        have hnone : (s.forest.parent x).filter (fun p => p ∈ s.forest.nodes) = none :=
          Option.filter_eq_none_iff.2 fun p hp => by simpa using htop p hp
        rw [hnone, hbehind]
        rfl
      | up hp hmem hroute =>
        rw [hp, Option.filter_some, if_pos (by simpa using hmem), hbehind]
        exact congrArg _ (ih hmem hroute)

/-- From every node there is a route: its parents are ever higher. -/
theorem exists_route (hx : x ∈ s.forest.nodes) : ∃ route, s.Route orderIndex t x route := by
  have hbound : ∀ y ∈ s.forest.nodes,
      s.forest.height y ≤ s.forest.nodes.toFinset.sup s.forest.height := fun y hy =>
    Finset.le_sup (f := s.forest.height) (List.mem_toFinset.2 hy)
  generalize s.forest.nodes.toFinset.sup s.forest.height = top at hbound
  induction hn : top - s.forest.height x using Nat.strong_induction_on generalizing x with
  | _ n ih =>
    by_cases hup : ∃ p, s.forest.parent x = some p ∧ p ∈ s.forest.nodes
    · obtain ⟨p, hp, hmem⟩ := hup
      have hhigher := s.forest.height_lt x p hp
      have hle := hbound p hmem
      obtain ⟨rest, hrest⟩ := ih (top - s.forest.height p) (by omega) hmem rfl
      exact ⟨_, .up hp hmem hrest⟩
    · exact ⟨_, .top fun p hp hmem => hup ⟨p, hp, hmem⟩⟩

/-- What is on a route is at the level of a node that the start is at or below. -/
theorem Space.Route.level (h : s.Route orderIndex t x route) :
    ∀ y ∈ route.map NavSuggestion.nodeId, ∃ q, s.forest.AtOrBelow q x ∧
      s.forest.parent y = s.forest.parent q := by
  induction h with
  | top _ =>
    intro y hy
    rw [map_nodeId_suggestion] at hy
    exact ⟨_, .refl, parent_of_mem_behind hy⟩
  | up hp hmem hrest ih =>
    intro y hy
    rw [List.map_append, map_nodeId_suggestion, List.map_cons] at hy
    rcases List.mem_append.1 hy with hy | hy
    · exact ⟨_, .refl, parent_of_mem_behind hy⟩
    · rcases List.mem_cons.1 hy with rfl | hy
      · exact ⟨_, Relation.ReflTransGen.single hp, rfl⟩
      · obtain ⟨q, hq, hlevel⟩ := ih y hy
        exact ⟨q, hq.tail hp, hlevel⟩

/-- **No node comes twice on a route.** -/
theorem Space.Route.nodup (hnodup : s.forest.nodes.Nodup) (h : s.Route orderIndex t x route) :
    (x :: route.map NavSuggestion.nodeId).Nodup := by
  induction h with
  | top _ =>
    rw [map_nodeId_suggestion]
    exact nodup_behind hnodup
  | @up x p rest hp hmem hrest ih =>
    rw [List.map_append, map_nodeId_suggestion, List.map_cons, ← List.cons_append]
    refine List.nodup_append.2 ⟨nodup_behind hnodup, ih, fun a ha b hb heq => ?_⟩
    subst heq
    -- the node is at the level of the start, and at that of its parent or above
    have hbelow : s.forest.parent a = some p := by
      rcases List.mem_cons.1 ha with rfl | ha
      · exact hp
      · exact (parent_of_mem_behind ha).trans hp
    have habove : ∃ q, s.forest.AtOrBelow q p ∧ s.forest.parent a = s.forest.parent q := by
      rcases List.mem_cons.1 hb with rfl | hb
      · exact ⟨_, .refl, rfl⟩
      · exact hrest.level a hb
    obtain ⟨q, hq, hsame⟩ := habove
    have hchild : s.forest.Below p q := Relation.TransGen.single (hsame ▸ hbelow)
    exact Forest.not_below_self p (Relation.TransGen.trans_left hchild hq)

/-- **Who follows the panels goes the whole route and no further**: the open siblings behind the
node in the order of the course, then the parent, the open siblings behind that, and so on up to a
root; no node is met twice, so the panels never lead in a circle. -/
theorem tour_route (hnodup : s.forest.nodes.Nodup) (hx : x ∈ s.forest.nodes) :
    ∃ route, s.Route orderIndex t x route ∧ (x :: route.map NavSuggestion.nodeId).Nodup ∧
      ∀ n, s.tour orderIndex t n x = route.take n := by
  obtain ⟨route, hroute⟩ := exists_route hx
  exact ⟨route, hroute, hroute.nodup hnodup, tour_eq_take hnodup hx hroute⟩

/-- Five topics below a published one that the trainee has not completed.  Three of them were
unlocked, and of the other two one has no content. -/
def fiveTopics : Space ℕ Unit ℕ where
  forest := {
    nodes := [0, 1, 2, 3, 4, 5]
    parent := fun x => if x ∈ [1, 2, 3, 4, 5] then some 0 else none
    mem_of_parent := by
      intro x p h
      split_ifs at h with hx
      exact List.mem_cons_of_mem 0 hx
    height := fun x => if x = 0 then 1 else 0
    height_lt := by
      intro x p h
      split_ifs at h with hx
      cases h
      have hne : x ≠ 0 := by
        rintro rfl
        simp at hx
      simp [hne] }
  nodeTitle _ := ""
  published x := x ≠ 4
  quizPublished _ := false
  rows _ _ := none
  unlocked _ x := x ∈ [1, 3, 5]

/-- The third topic comes last. -/
def thirdLast (x : ℕ) : ℤ := if x = 3 then 1 else 0

/-- The panels pass over the locked topic and the one without content, and lead back to the
parent. -/
theorem tour_route_siblings :
    (fiveTopics.resolveNodeAccess () 2).status = .prerequisiteLocked ∧
      (fiveTopics.resolveNodeAccess () 4).status = .comingSoon ∧
      fiveTopics.tour thirdLast () 9 1 =
        [fiveTopics.suggestion "Next up" 5, fiveTopics.suggestion "Next up" 3,
          fiveTopics.suggestion "Back to" 0] ∧
      ∃ route, fiveTopics.Route thirdLast () 1 route ∧
        ∀ n, fiveTopics.tour thirdLast () n 1 = route.take n := by
  obtain ⟨route, hroute, -, htour⟩ : ∃ route, fiveTopics.Route thirdLast () 1 route ∧
      (1 :: route.map NavSuggestion.nodeId).Nodup ∧
        ∀ n, fiveTopics.tour thirdLast () n 1 = route.take n :=
    tour_route (by decide) (by decide)
  exact ⟨by decide, by decide, by decide, route, hroute, htour⟩

end

end StudyAgent.Progress
