import StudyAgent.Material.Desk

/-!
# Clearing the drafts

The drafts of a node are discarded together, if no quiz and no live version is in the way.  Whether
that can be done is asked before, with a reason for the case that it cannot.

Main results:

* `cleared_exactly` — **a clearing takes as many versions as it was said to take, and leaves the
shelf and the history of the node**; the reason for a refusal is what the history shows.
-/

namespace StudyAgent.Material

open Lifecycle (LifecycleStatus)
open StudyMaterialVersion

namespace StudyMaterialVersion

/-- `is_mentor_accessible_sm`. -/
def MentorAccessible (v : StudyMaterialVersion) : Prop :=
  v.lifecycleStatus ≠ .discarded ∧ v.isArchived = false ∧ v.lifecycleStatus ≠ .archived ∧
    (v.lifecycleStatus = .draft ∨ v.lifecycleStatus = .hidden ∨ v.lifecycleStatus = .active)

instance (v : StudyMaterialVersion) : Decidable v.MentorAccessible :=
  inferInstanceAs (Decidable (_ ∧ _))

/-- `is_mentor_openable_sm`. -/
def MentorOpenable (v : StudyMaterialVersion) : Prop :=
  v.MentorAccessible ∧ (v.TraineeLive ∨ v.lifecycleStatus = .draft ∨ v.lifecycleStatus = .hidden)

instance (v : StudyMaterialVersion) : Decidable v.MentorOpenable :=
  inferInstanceAs (Decidable (_ ∧ _))

end StudyMaterialVersion

/-- The reason for a node with a history, none of which can be cleared. -/
def previousKept : String :=
  "Previous student material is kept as history and cannot be cleared. " ++
    "Generate creates a new draft beside it, or open History to review past versions."

/-- The reason for a node whose drafts are all on the shelf. -/
def draftsShelved : String :=
  "Your drafts are in the archive. Restore one from the Archive panel, " ++
    "or use Generate draft to create new material."

/-- The reason for a node without any version. -/
def nothingGenerated : String := "No study material has been generated for this topic yet."

/-- How many quizzes are in the way. -/
def blockingQuizzes (blockingQuizCount : ℕ) : String :=
  "This topic has " ++ toString blockingQuizCount ++ " live or active draft " ++
    (if blockingQuizCount = 1 then "quiz" else "quizzes") ++ ". "

/-- `_clear_drafts_block_reason_no_discardable_versions`. -/
def clearDraftsBlockReasonNoDiscardableVersions (versions : List StudyMaterialVersion)
    (blockingQuizCount : ℕ) : String :=
  let liveSmCount := versions.countP fun v => v.TraineeLive
  let accessibleCount := versions.countP fun v => v.MentorOpenable
  let traineePreviousCount := versions.countP fun v => v.TraineePrevious
  let mentorArchivedCount := versions.countP fun v =>
    v.isArchived = true ∧ v.lifecycleStatus ≠ .discarded
  if 0 < liveSmCount ∧ 0 < blockingQuizCount then
    "Study material and a quiz are live for trainees. " ++
      "Unpublish both before regenerating from scratch."
  else if 0 < liveSmCount then
    "Study material is live for trainees. Unpublish it before regenerating from scratch."
  else if 0 < blockingQuizCount then
    blockingQuizzes blockingQuizCount ++
      "Delete or unpublish them before regenerating from scratch."
  else if 0 < accessibleCount then
    "There are no unpublished drafts to discard—only live or student-archive versions remain. " ++
      "Open existing material to edit or improve it."
  else if 0 < traineePreviousCount then previousKept
  else if 0 < mentorArchivedCount then draftsShelved
  else nothingGenerated

/-- `StudyMaterialClearDraftsEligibilityOut`. -/
structure ClearDraftsEligibility where
  canClear : Bool
  versionCount : ℕ
  quizCount : ℕ
  blockReason : Option String
  deriving DecidableEq

/-- `get_clear_drafts_eligibility`. -/
def getClearDraftsEligibility (versions : List StudyMaterialVersion)
    (nodeId blockingQuizCount : ℕ) : ClearDraftsEligibility :=
  let history := getAllVersions versions nodeId
  let versionCount := history.countP fun v => v.MentorDiscardable
  let liveSmCount := history.countP fun v => v.TraineeLive
  if versionCount = 0 then
    { canClear := false
      versionCount := 0
      quizCount := blockingQuizCount
      blockReason := some (clearDraftsBlockReasonNoDiscardableVersions history blockingQuizCount) }
  else if 0 < blockingQuizCount then
    { canClear := false
      versionCount := versionCount
      quizCount := blockingQuizCount
      blockReason := some (blockingQuizzes blockingQuizCount ++
        "Delete or unpublish them before discarding study material drafts.") }
  else if 0 < liveSmCount then
    { canClear := false
      versionCount := versionCount
      quizCount := 0
      blockReason := some (toString liveSmCount ++ " live study material " ++
        (if liveSmCount = 1 then "version is" else "versions are") ++
        " visible to trainees. Unpublish before discarding drafts.") }
  else
    { canClear := true
      versionCount := versionCount
      quizCount := 0
      blockReason := none }

/-- Why a clearing is refused. -/
inductive ClearRefusal where
  | blockedByQuiz (quizCount : ℕ)
  | noDrafts
  deriving DecidableEq

/-- `discard_draft_versions_for_node`, with the number of the rows that it has changed. -/
def discardDraftVersionsForNode (versions : List StudyMaterialVersion) (nodeId : ℕ) :
    List StudyMaterialVersion × ℕ :=
  (versions.map fun v =>
      if v.nodeId = nodeId ∧ v.MentorDiscardable then v.transitionToDiscarded else v,
    versions.countP fun v => v.nodeId = nodeId ∧ v.MentorDiscardable)

/-- `clear_all_drafts`. -/
def clearAllDrafts (versions : List StudyMaterialVersion) (nodeId blockingQuizCount : ℕ) :
    Except ClearRefusal (List StudyMaterialVersion × ℕ) :=
  let eligibility := getClearDraftsEligibility versions nodeId blockingQuizCount
  if eligibility.canClear = false then
    if 0 < eligibility.quizCount then .error (.blockedByQuiz eligibility.quizCount)
    else .error .noDrafts
  else .ok (discardDraftVersionsForNode versions nodeId)

variable {versions versions' : List StudyMaterialVersion} {v : StudyMaterialVersion}
  {n q count : ℕ}

theorem visible_of_discardable (h : v.MentorDiscardable) : v.MentorVisible := by
  unfold MentorVisible
  rcases h.2 with hstage | hstage | ⟨hstage, -⟩ <;> simp [hstage]

/-- What is neither live nor to be discarded is on the shelf or in the history. -/
theorem behind_of_not_discardable (hvisible : v.MentorVisible) (hlive : ¬ v.TraineeLive) :
    ¬ v.MentorDiscardable ↔ v.isArchived = true ∨ v.TraineePrevious := by
  unfold MentorVisible at hvisible
  unfold TraineeLive at hlive
  unfold MentorDiscardable TraineePrevious
  cases v.isArchived <;> cases hstage : v.lifecycleStatus <;> simp_all

/-- What can be opened and is not live can be discarded. -/
theorem discardable_of_openable (h : v.MentorOpenable) (hlive : ¬ v.TraineeLive) :
    v.MentorDiscardable := by
  obtain ⟨⟨-, hdesk, -⟩, hstage⟩ := h
  exact ⟨hdesk, (hstage.resolve_left hlive).imp id Or.inl⟩

theorem getAllVersions_perm (versions : List StudyMaterialVersion) (n : ℕ) :
    (getAllVersions versions n).Perm
      (versions.filter fun v => v.nodeId = n ∧ v.lifecycleStatus ≠ .discarded) :=
  List.perm_insertionSort _ _

/-- The count in the history is the count of the rows that are changed. -/
theorem countP_discardable (versions : List StudyMaterialVersion) (n : ℕ) :
    ((getAllVersions versions n).countP fun v => v.MentorDiscardable) =
      versions.countP fun v => v.nodeId = n ∧ v.MentorDiscardable := by
  rw [(getAllVersions_perm versions n).countP_eq, List.countP_filter]
  refine List.countP_congr fun v _ => ?_
  simp only [Bool.and_eq_true, decide_eq_true_eq]
  constructor
  · rintro ⟨hdiscardable, hn, -⟩
    exact ⟨hn, hdiscardable⟩
  · rintro ⟨hn, hdiscardable⟩
    exact ⟨hdiscardable, hn, visible_of_discardable hdiscardable⟩

/-- What the mentor sees after the drafts of a node have been discarded. -/
theorem mem_getAllVersions_discard {m : ℕ} :
    v ∈ getAllVersions (discardDraftVersionsForNode versions n).1 m ↔
      v ∈ getAllVersions versions m ∧ (m = n → ¬ v.MentorDiscardable) := by
  simp only [mem_getAllVersions, discardDraftVersionsForNode, List.mem_map]
  constructor
  · rintro ⟨⟨u, hu, rfl⟩, hm, hvisible⟩
    split_ifs at hm hvisible ⊢ with hdraft
    · exact absurd rfl hvisible
    · exact ⟨⟨hu, hm, hvisible⟩, fun hmn hdiscardable => hdraft ⟨hm.trans hmn, hdiscardable⟩⟩
  · rintro ⟨⟨hv, hm, hvisible⟩, hkept⟩
    refine ⟨⟨v, hv, if_neg ?_⟩, hm, hvisible⟩
    rintro ⟨hn, hdiscardable⟩
    exact hkept (hm.symm.trans hn) hdiscardable

theorem length_getAllVersions_discard :
    (getAllVersions versions n).length =
      (getAllVersions (discardDraftVersionsForNode versions n).1 n).length +
        (discardDraftVersionsForNode versions n).2 := by
  simp only [(getAllVersions_perm _ _).length_eq, discardDraftVersionsForNode]
  induction versions with
  | nil => rfl
  | cons v rest ih =>
    rw [List.map_cons, List.countP_cons]
    by_cases hn : v.nodeId = n
    · by_cases hdraft : v.MentorDiscardable
      · have hvisible : v.lifecycleStatus ≠ .discarded := visible_of_discardable hdraft
        simp [hn, hdraft, hvisible, transitionToDiscarded] at ih ⊢
        omega
      · by_cases hvisible : v.lifecycleStatus = .discarded <;>
          simp [hn, hdraft, hvisible] at ih ⊢ <;> omega
    · simp [hn] at ih ⊢
      omega

/-- When a clearing is offered. -/
theorem canClear_iff :
    (getClearDraftsEligibility versions n q).canClear = true ↔
      0 < versions.countP (fun v => v.nodeId = n ∧ v.MentorDiscardable) ∧ q = 0 ∧
        ∀ v ∈ getAllVersions versions n, ¬ v.TraineeLive := by
  simp only [getClearDraftsEligibility, countP_discardable]
  split_ifs with hcount hquiz hlive
  · exact iff_of_false (by simp) fun h => h.1.ne' hcount
  · exact iff_of_false (by simp) fun h => hquiz.ne' h.2.1
  · obtain ⟨v, hv, hv'⟩ := List.countP_pos_iff.1 hlive
    exact iff_of_false (by simp) fun h => h.2.2 v hv (by simpa using hv')
  · refine iff_of_true rfl ⟨Nat.pos_of_ne_zero hcount, by omega, fun v hv hv' => ?_⟩
    exact hlive (List.countP_pos_iff.2 ⟨v, hv, by simpa using hv'⟩)

/-- Where nothing can be discarded and nothing is in the way, what is left says why. -/
def behindReason (history : List StudyMaterialVersion) : String :=
  if ∃ v ∈ history, v.TraineePrevious then previousKept
  else if history = [] then nothingGenerated
  else draftsShelved

theorem blockReason_of_behind
    (hbehind : ∀ v ∈ getAllVersions versions n, ¬ v.TraineeLive ∧ ¬ v.MentorDiscardable) :
    (getClearDraftsEligibility versions n 0).blockReason =
      some (behindReason (getAllVersions versions n)) := by
  have hvisible : ∀ v ∈ getAllVersions versions n, v.MentorVisible :=
    fun v hv => (mem_getAllVersions.1 hv).2.2
  have hnone : ((getAllVersions versions n).countP fun v => v.MentorDiscardable) = 0 :=
    List.countP_eq_zero.2 fun v hv => by simpa using (hbehind v hv).2
  simp only [getClearDraftsEligibility, hnone, if_true]
  generalize getAllVersions versions n = history at hbehind hvisible ⊢
  have hlive : (history.countP fun v => v.TraineeLive) = 0 :=
    List.countP_eq_zero.2 fun v hv => by simpa using (hbehind v hv).1
  -- the branch for a version that can be opened is never taken
  have haccessible : (history.countP fun v => v.MentorOpenable) = 0 := by
    refine List.countP_eq_zero.2 fun v hv hopenable => (hbehind v hv).2 ?_
    exact discardable_of_openable (by simpa using hopenable) (hbehind v hv).1
  simp only [clearDraftsBlockReasonNoDiscardableVersions, hlive, haccessible, lt_irrefl, false_and,
    if_false, behindReason]
  by_cases hprevious : ∃ v ∈ history, v.TraineePrevious
  · rw [if_pos hprevious, if_pos (List.countP_pos_iff.2 (by simpa using hprevious))]
  · rw [if_neg hprevious, if_neg (by simpa [List.countP_pos_iff] using hprevious)]
    cases history with
    | nil => simp
    | cons v rest =>
      have hshelf : v.isArchived = true := by
        have hv : v ∈ v :: rest := List.mem_cons_self
        have hsplit := (behind_of_not_discardable (hvisible v hv) (hbehind v hv).1).1
        exact (hsplit (hbehind v hv).2).resolve_right fun h => hprevious ⟨v, hv, h⟩
      have hmentor : v.lifecycleStatus ≠ .discarded := hvisible v List.mem_cons_self
      rw [if_pos (List.countP_pos_iff.2 ⟨v, List.mem_cons_self, by simp [hshelf, hmentor]⟩)]
      simp

theorem versionCount_of_canClear (h : (getClearDraftsEligibility versions n q).canClear = true) :
    (getClearDraftsEligibility versions n q).versionCount =
      versions.countP fun v => v.nodeId = n ∧ v.MentorDiscardable := by
  rw [← countP_discardable]
  simp only [getClearDraftsEligibility] at h ⊢
  split_ifs at h ⊢
  rfl

theorem clearAllDrafts_of_behind
    (h : ∀ v ∈ getAllVersions versions n, ¬ v.MentorDiscardable) :
    clearAllDrafts versions n 0 = .error .noDrafts := by
  have hnone : ((getAllVersions versions n).countP fun v => v.MentorDiscardable) = 0 :=
    List.countP_eq_zero.2 fun v hv => by simpa using h v hv
  simp [clearAllDrafts, getClearDraftsEligibility, hnone]

/-- **A clearing takes as many versions as it was said to take, and leaves the shelf and the history
of the node, and the other nodes, as they are**; after it there is nothing to clear.  The reason for
a refusal is what the history shows: no node is told of drafts that can be opened. -/
theorem cleared_exactly (versions : List StudyMaterialVersion) (n q : ℕ) :
    (∀ versions' count, clearAllDrafts versions n q = .ok (versions', count) →
      step versions (.clearDrafts n q) = some versions' ∧
        0 < count ∧ count = (getClearDraftsEligibility versions n q).versionCount ∧
        (getAllVersions versions n).length = (getAllVersions versions' n).length + count ∧
        (∀ v, v ∈ getAllVersions versions' n ↔
          v ∈ getAllVersions versions n ∧ (v.isArchived = true ∨ v.TraineePrevious)) ∧
        (∀ m v, m ≠ n → (v ∈ getAllVersions versions' m ↔ v ∈ getAllVersions versions m)) ∧
        clearAllDrafts versions' n q = .error .noDrafts ∧
        (getClearDraftsEligibility versions' n q).blockReason =
          some (behindReason (getAllVersions versions' n))) ∧
    ((∀ v ∈ getAllVersions versions n, ¬ v.TraineeLive) →
      clearAllDrafts versions n 0 = .error .noDrafts →
        (getClearDraftsEligibility versions n 0).blockReason =
          some (behindReason (getAllVersions versions n))) := by
  constructor
  · intro versions' count hok
    have hclear : (getClearDraftsEligibility versions n q).canClear = true := by
      by_contra hnot
      simp only [clearAllDrafts, Bool.not_eq_true] at hok hnot
      rw [if_pos hnot] at hok
      split_ifs at hok
    obtain ⟨hcount, rfl, hlive⟩ := canClear_iff.1 hclear
    have hdone : discardDraftVersionsForNode versions n = (versions', count) := by
      simpa [clearAllDrafts, hclear] using hok
    obtain rfl : versions' = (discardDraftVersionsForNode versions n).1 := by rw [hdone]
    have hleft : ∀ v, v ∈ getAllVersions (discardDraftVersionsForNode versions n).1 n ↔
        v ∈ getAllVersions versions n ∧ (v.isArchived = true ∨ v.TraineePrevious) := by
      intro v
      rw [mem_getAllVersions_discard, and_congr_right_iff]
      intro hv
      rw [← behind_of_not_discardable (mem_getAllVersions.1 hv).2.2 (hlive v hv)]
      simp
    have hbehind : ∀ v ∈ getAllVersions (discardDraftVersionsForNode versions n).1 n,
        ¬ v.TraineeLive ∧ ¬ v.MentorDiscardable := by
      intro v hv
      obtain ⟨hold, hkept⟩ := mem_getAllVersions_discard.1 hv
      exact ⟨hlive v hold, hkept rfl⟩
    obtain rfl : count = (discardDraftVersionsForNode versions n).2 := by rw [hdone]
    refine ⟨?_, hcount, (versionCount_of_canClear hclear).symm, length_getAllVersions_discard,
      hleft, fun m v hm => ?_, ?_, blockReason_of_behind hbehind⟩
    · refine if_neg ?_
      rintro (hquiz | ⟨v, hv, hn, hv'⟩)
      · exact hquiz.ne rfl
      · refine hlive v (mem_getAllVersions.2 ⟨hv, hn, ?_⟩) hv'
        simp [MentorVisible, hv'.1]
    · rw [mem_getAllVersions_discard]
      simp [hm]
    · exact clearAllDrafts_of_behind fun v hv => (hbehind v hv).2
  · intro hlive hrefused
    refine blockReason_of_behind fun v hv => ⟨hlive v hv, fun hdraft => ?_⟩
    have hclear : (getClearDraftsEligibility versions n 0).canClear = true := by
      refine canClear_iff.2 ⟨?_, rfl, hlive⟩
      rw [← countP_discardable]
      exact List.countP_pos_iff.2 ⟨v, hv, by simpa using hdraft⟩
    simp [clearAllDrafts, hclear] at hrefused

/-- Of four versions the draft is cleared, and the shelf and the history are left. -/
def fourLayers : List StudyMaterialVersion :=
  [{ versionId := 1, nodeId := 5, versionNumber := 1, isActive := false, publishedAt := true,
     lifecycleStatus := .archived },
   { versionId := 2, nodeId := 5, versionNumber := 2, isActive := false, isArchived := true },
   { versionId := 3, nodeId := 5, versionNumber := 3 },
   { versionId := 4, nodeId := 6, versionNumber := 1 }]

theorem fourLayers_cleared :
    ∃ versions', clearAllDrafts fourLayers 5 0 = .ok (versions', 1) ∧
      (getAllVersions fourLayers 5).length = (getAllVersions versions' 5).length + 1 ∧
      (getClearDraftsEligibility versions' 5 0).blockReason = some previousKept ∧
      (getClearDraftsEligibility versions' 5 0).blockReason =
        some (behindReason (getAllVersions versions' 5)) := by
  have hok : clearAllDrafts fourLayers 5 0 = .ok (_, 1) := rfl
  obtain ⟨-, -, -, hlength, -, -, hrefused, hreason⟩ := (cleared_exactly fourLayers 5 0).1 _ _ hok
  have hlive : ∀ v ∈ getAllVersions (discardDraftVersionsForNode fourLayers 5).1 5,
      ¬ v.TraineeLive := by decide
  exact ⟨_, hok, hlength, rfl, (cleared_exactly _ 5 0).2 hlive hrefused⟩

end StudyAgent.Material
