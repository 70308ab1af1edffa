import Mathlib.Data.List.Sort
import StudyAgent.Material.OneActive
import StudyAgent.Material.PublishRequests

/-!
# The mentor's desk

The mentor sees the versions of a node in layers (live, previous, on the shelf, removed, draft),
with a badge for each.  The badge, the hint and the history hub are computed apart from the layers;
here they are compared in every state that the requests lead to.

Main results:

* `step_tidy` — what every request keeps: the stage of a version's life, its flags and its ids.
* `badge_of_layer` — **every version that the mentor sees lies in one layer, which its badge and its
hint name**, and the history hub stands in for a desk without a live version or a draft.
-/

namespace StudyAgent.Material

open Lifecycle (LifecycleStatus RetentionMode)

namespace StudyMaterialVersion

/-! ## Layers -/

/-- `is_trainee_previous_sm`. -/
def TraineePrevious (v : StudyMaterialVersion) : Prop := v.lifecycleStatus = .archived

instance (v : StudyMaterialVersion) : Decidable v.TraineePrevious :=
  inferInstanceAs (Decidable (_ = _))

/-- `is_mentor_visible_sm`. -/
def MentorVisible (v : StudyMaterialVersion) : Prop := v.lifecycleStatus ≠ .discarded

instance (v : StudyMaterialVersion) : Decidable v.MentorVisible :=
  inferInstanceAs (Decidable (_ ≠ _))

/-- `is_removed_from_students_sm`. -/
def RemovedFromStudents (v : StudyMaterialVersion) : Prop :=
  ¬ v.TraineeLive ∧ ¬ v.TraineePrevious ∧ v.isArchived = false ∧ v.publishedAt = true ∧
    (v.lifecycleStatus = .draft ∨ v.lifecycleStatus = .hidden)

instance (v : StudyMaterialVersion) : Decidable v.RemovedFromStudents :=
  inferInstanceAs (Decidable (_ ∧ _))

/-- `is_workspace_draft_sm`. -/
def WorkspaceDraft (v : StudyMaterialVersion) : Prop :=
  v.lifecycleStatus ≠ .discarded ∧ v.isArchived = false ∧ ¬ v.TraineePrevious ∧
    ¬ v.TraineeLive ∧ v.publishedAt = false ∧
    (v.lifecycleStatus = .draft ∨ v.lifecycleStatus = .hidden ∨
      v.lifecycleStatus = .active ∧ v.isPublished = false)

instance (v : StudyMaterialVersion) : Decidable v.WorkspaceDraft :=
  inferInstanceAs (Decidable (_ ∧ _))

/-- `compute_mentor_display_badge`. -/
def mentorDisplayBadge (v : StudyMaterialVersion) : String :=
  if v.isPublished = true then "Live for students"
  else if v.lifecycleStatus = .archived then "Previous for students"
  else if v.isArchived = true then "In your archive"
  else if v.publishedAt = true then "Removed from students"
  else "Your draft"

/-- `compute_student_visibility_hint`. -/
def studentVisibilityHint (v : StudyMaterialVersion) (isViewing : Bool) : Option String :=
  if isViewing = false then none
  else if v.isPublished = true then
    some "Students currently see this version as the live study material."
  else if v.lifecycleStatus = .archived then
    some "Students can read this version in Previous versions."
  else if v.isArchived = true then some "Students do not see archived drafts."
  else if v.publishedAt = true then
    some "Students no longer see this version. It does not appear in Previous versions."
  else some "Students do not see unpublished drafts."

end StudyMaterialVersion

open StudyMaterialVersion

/-- The layers in which the mentor thinks of the versions. -/
inductive Layer where
  | live
  | previous
  | shelf
  | removed
  | draft
  deriving DecidableEq

/-- A version lies in a layer: the predicates of the visibility module, and the shelf. -/
def InLayer (v : StudyMaterialVersion) : Layer → Prop
  | .live => v.TraineeLive
  | .previous => v.TraineePrevious
  | .shelf => v.MentorVisible ∧ v.isArchived = true ∧ ¬ v.TraineeLive ∧ ¬ v.TraineePrevious
  | .removed => v.RemovedFromStudents
  | .draft => v.WorkspaceDraft

/-- The badge of a layer. -/
def Layer.badge : Layer → String
  | .live => "Live for students"
  | .previous => "Previous for students"
  | .shelf => "In your archive"
  | .removed => "Removed from students"
  | .draft => "Your draft"

/-- The hint of a layer. -/
def Layer.hint : Layer → String
  | .live => "Students currently see this version as the live study material."
  | .previous => "Students can read this version in Previous versions."
  | .shelf => "Students do not see archived drafts."
  | .removed => "Students no longer see this version. It does not appear in Previous versions."
  | .draft => "Students do not see unpublished drafts."

/-! ## The history -/

/-- `get_all_versions`, of both shelves. -/
def getAllVersions (versions : List StudyMaterialVersion) (nodeId : ℕ) :
    List StudyMaterialVersion :=
  (versions.filter fun v => v.nodeId = nodeId ∧ v.lifecycleStatus ≠ .discarded).insertionSort
    fun v w => w.versionNumber ≤ v.versionNumber

/-- `_compute_show_history_hub`. -/
def computeShowHistoryHub (versions : List StudyMaterialVersion) : Bool :=
  let visibleVersions := versions.filter fun v => v.MentorVisible
  let hasLiveVersion := visibleVersions.any fun v => v.isPublished
  let hasWorkspaceDraft := visibleVersions.any fun v => v.WorkspaceDraft
  let hasHistoricalVersion := visibleVersions.any fun v =>
    v.TraineePrevious ∨ v.RemovedFromStudents ∨ v.isArchived = true
  !hasLiveVersion && !hasWorkspaceDraft && hasHistoricalVersion

@[simp] theorem mem_getAllVersions {versions : List StudyMaterialVersion}
    {v : StudyMaterialVersion} {n : ℕ} :
    v ∈ getAllVersions versions n ↔ v ∈ versions ∧ v.nodeId = n ∧ v.MentorVisible := by
  simp [getAllVersions, MentorVisible]

/-! ## What the requests keep -/

/-- The flag, the stage of the life and the time of the first publish agree, and no version is
hidden: an unpublished version goes back to the drafts. -/
structure Coherent (v : StudyMaterialVersion) : Prop where
  consistent : v.Consistent
  wasLive : v.isPublished = true ∨ v.lifecycleStatus = .archived → v.publishedAt = true
  notHidden : v.lifecycleStatus ≠ .hidden

/-- The versions of a table are coherent, and have ids of their own. -/
structure Tidy (versions : List StudyMaterialVersion) : Prop where
  ids : (versions.map versionId).Nodup
  coherent : ∀ v ∈ versions, Coherent v

section

variable {versions versions' : List StudyMaterialVersion} {v w : StudyMaterialVersion} {n k : ℕ}

theorem Coherent.transitionToArchived (h : v.publishedAt = true) :
    Coherent v.transitionToArchived where
  consistent := by simp [StudyMaterialVersion.Consistent, StudyMaterialVersion.transitionToArchived]
  wasLive _ := h
  notHidden := by simp [StudyMaterialVersion.transitionToArchived]

theorem Coherent.transitionToHidden : Coherent v.transitionToHidden where
  consistent := by simp [StudyMaterialVersion.Consistent, StudyMaterialVersion.transitionToHidden]
  wasLive := by simp [StudyMaterialVersion.transitionToHidden]
  notHidden := by simp [StudyMaterialVersion.transitionToHidden]

theorem Coherent.transitionToActive : Coherent v.transitionToActive where
  consistent := by simp [StudyMaterialVersion.Consistent, StudyMaterialVersion.transitionToActive]
  wasLive _ := rfl
  notHidden := by simp [StudyMaterialVersion.transitionToActive]

theorem Coherent.transitionToDiscarded : Coherent v.transitionToDiscarded where
  consistent := by
    simp [StudyMaterialVersion.Consistent, StudyMaterialVersion.transitionToDiscarded]
  wasLive := by simp [StudyMaterialVersion.transitionToDiscarded]
  notHidden := by simp [StudyMaterialVersion.transitionToDiscarded]

theorem Coherent.retire (h : v.publishedAt = true) (retention : RetentionMode) :
    Coherent (v.retire retention) := by
  cases retention with
  | keepForReview => exact .transitionToArchived h
  | removeCompletely => exact .transitionToHidden

/-- The other flags have no part in it. -/
theorem Coherent.deactivate (h : Coherent v) : Coherent v.deactivate :=
  ⟨h.consistent, h.wasLive, h.notHidden⟩

theorem Coherent.activate (h : Coherent v) : Coherent v.activate :=
  ⟨h.consistent, h.wasLive, h.notHidden⟩

theorem Coherent.archive (h : Coherent v) : Coherent v.archive :=
  ⟨h.consistent, h.wasLive, h.notHidden⟩

theorem Coherent.unarchive (h : Coherent v) : Coherent v.unarchive :=
  ⟨h.consistent, h.wasLive, h.notHidden⟩

theorem Coherent.cascadeNodeDelete (h : Coherent v) :
    Coherent (Material.cascadeNodeDelete v) := by
  unfold Material.cascadeNodeDelete
  split_ifs with hlive hhidden hdraft
  · exact .transitionToArchived (h.wasLive (Or.inl hlive.2))
  · exact .transitionToArchived hhidden.2
  · exact .transitionToDiscarded
  · exact h

/-- A change of rows that keeps the ids. -/
theorem Tidy.map {f : StudyMaterialVersion → StudyMaterialVersion} (h : Tidy versions)
    (hid : ∀ v, (f v).versionId = v.versionId) (hf : ∀ v ∈ versions, Coherent v → Coherent (f v)) :
    Tidy (versions.map f) where
  ids := by
    rw [List.map_map, show versionId ∘ f = versionId from funext hid]
    exact h.ids
  coherent := by
    intro w hw
    obtain ⟨v, hv, rfl⟩ := List.mem_map.1 hw
    exact hf v hv (h.coherent v hv)

theorem Tidy.updateVersion {f : StudyMaterialVersion → StudyMaterialVersion} (h : Tidy versions)
    (k : ℕ) (hid : ∀ v, (f v).versionId = v.versionId)
    (hf : ∀ v ∈ versions, v.versionId = k → Coherent v → Coherent (f v)) :
    Tidy (updateVersion versions k f) := by
  refine h.map (fun v => ?_) fun v hv hcoherent => ?_
  · split_ifs
    · exact hid v
    · rfl
  · split_ifs with hk
    · exact hf v hv hk hcoherent
    · exact hcoherent

theorem Tidy.deactivated (h : Tidy versions) (active : Option StudyMaterialVersion) :
    Tidy (Material.deactivated versions active) := by
  cases active with
  | none => exact h
  | some a => exact h.updateVersion _ (fun _ => rfl) fun v _ _ hv => hv.deactivate

theorem Tidy.createVersion (h : Tidy versions) {newId : ℕ}
    (hnew : newId ∉ versions.map versionId) (basedOn generationRunId : Option ℕ) :
    Tidy (Material.createVersion versions n newId basedOn generationRunId) := by
  have hold := h.deactivated (getActiveVersion versions n)
  refine ⟨?_, fun w hw => ?_⟩
  · rw [Material.createVersion, List.map_append, map_versionId_deactivated, List.nodup_append]
    refine ⟨h.ids, List.nodup_singleton _, fun a ha b hb heq => ?_⟩
    obtain rfl : b = newId := by simpa using hb
    exact hnew (heq ▸ ha)
  · rcases List.mem_append.1 hw with hw | hw
    · exact hold.coherent w hw
    · obtain rfl := List.mem_singleton.1 hw
      exact ⟨by simp [StudyMaterialVersion.Consistent], by simp, by simp⟩

theorem Tidy.activateInstead (h : Tidy versions) :
    Tidy (Material.activateInstead versions n k) :=
  (h.deactivated _).updateVersion k (fun _ => rfl) fun _ _ _ hv => hv.activate

theorem Tidy.publishVersion (h : Tidy versions) (retention : RetentionMode) :
    Tidy (Material.publishVersion versions n k retention) := by
  refine Tidy.updateVersion (h.map (fun v => ?_) fun v _ hv => ?_) k (fun _ => rfl)
    fun _ _ _ _ => .transitionToActive
  · split_ifs
    · exact versionId_retire retention
    · rfl
  · split_ifs with hother
    · exact .retire (hv.wasLive (Or.inl hother.2.1)) retention
    · exact hv

theorem Tidy.discardWhere (h : Tidy versions) (p : StudyMaterialVersion → Prop)
    [DecidablePred p] :
    Tidy (versions.map fun v => if p v then v.transitionToDiscarded else v) := by
  refine h.map (fun v => ?_) fun v _ hv => ?_
  · split_ifs <;> rfl
  · split_ifs
    · exact .transitionToDiscarded
    · exact hv

theorem Tidy.abandon (h : Tidy versions) (run : GenerationRun) :
    Tidy (discardArtifactsForGenerationRun versions run) := by
  simp only [discardArtifactsForGenerationRun]
  split_ifs
  · exact h
  · have hdiscarded : Tidy (discardVersionsByIds versions (run.versionIds versions)) :=
      h.discardWhere fun v => v.versionId ∈ run.versionIds versions ∧ v.OnDesk
    unfold restoreWorkingDraftAfterDiscard
    split
    · exact hdiscarded.updateVersion _ (fun _ => rfl) fun _ _ _ hv => hv.activate
    · exact hdiscarded

/-- **Every request keeps the table tidy.** -/
theorem step_tidy {r : Request} (h : Tidy versions) (hstep : step versions r = some versions') :
    Tidy versions' := by
  cases r with
  | generate nodeId runId newId =>
    rw [step] at hstep
    split_ifs at hstep with hnew
    cases hstep
    exact h.createVersion hnew _ _
  | feedback nodeId runId newId =>
    rw [step] at hstep
    split_ifs at hstep with hnew
    obtain ⟨active, -, rfl⟩ := Option.map_eq_some_iff.1 hstep
    exact h.createVersion hnew _ _
  | manualEdit nodeId newId =>
    rw [step] at hstep
    split_ifs at hstep with hnew
    cases hstep
    exact h.createVersion hnew _ _
  | activate nodeId versionId =>
    obtain ⟨v, -, rfl⟩ := Option.map_eq_some_iff.1 hstep
    have hunarchived : Tidy (updateVersion versions versionId unarchive) :=
      h.updateVersion _ (fun _ => rfl) fun _ _ _ hv => hv.unarchive
    split_ifs
    · exact hunarchived.activateInstead
    · exact h.activateInstead
  | archive nodeId versionId =>
    obtain ⟨v, -, hv⟩ := Option.bind_eq_some_iff.1 hstep
    split_ifs at hv
    cases hv
    exact h.updateVersion _ (fun _ => rfl) fun _ _ _ hv => hv.archive
  | unarchive nodeId versionId =>
    obtain ⟨v, -, hv⟩ := Option.bind_eq_some_iff.1 hstep
    split_ifs at hv
    cases hv
    have hunarchived : Tidy (updateVersion versions versionId unarchive) :=
      h.updateVersion _ (fun _ => rfl) fun _ _ _ hv => hv.unarchive
    exact hunarchived.activateInstead
  | publish nodeId versionId superseded =>
    obtain ⟨v, -, hv⟩ := Option.bind_eq_some_iff.1 hstep
    split_ifs at hv
    cases hv
    exact h.publishVersion superseded
  | unpublish nodeId versionId retention =>
    obtain ⟨v, hfound, hv⟩ := Option.bind_eq_some_iff.1 hstep
    split_ifs at hv with hunpublished
    cases hv
    obtain ⟨hmem, hid, -⟩ := target_eq_some hfound
    refine h.updateVersion _ (fun _ => versionId_retire retention) fun u hu hk hcoherent => ?_
    obtain rfl : u = v := List.inj_on_of_nodup_map h.ids hu hmem (hk.trans hid.symm)
    exact .retire (hcoherent.wasLive (Or.inl (by simpa using hunpublished))) retention
  | clearDrafts nodeId blockingQuizzes =>
    rw [step] at hstep
    split_ifs at hstep
    cases hstep
    exact h.discardWhere fun v => v.nodeId = nodeId ∧ v.MentorDiscardable
  | abandon run =>
    cases hstep
    exact h.abandon run
  | deleteNodes nodeIds =>
    cases hstep
    refine h.map (fun v => ?_) fun v _ hv => ?_
    · unfold Material.cascadeNodeDelete
      split_ifs <;> rfl
    · split_ifs
      · exact hv.cascadeNodeDelete
      · exact hv

theorem tidy_of_reachable (h : Runs.Reachable step (fun _ _ => True) Tidy versions) :
    Tidy versions :=
  h.invariant (fun _ hs => hs) fun _ _ _ hs _ hstep => step_tidy hs hstep

/-! ## The badge -/

/-- A version that the mentor sees lies in one layer. -/
theorem Coherent.layer (h : Coherent v) (hvisible : v.MentorVisible) :
    ∃ l, InLayer v l ∧ (∀ l', InLayer v l' → l' = l) ∧ v.mentorDisplayBadge = l.badge ∧
      v.studentVisibilityHint true = some l.hint := by
  obtain ⟨hconsistent, hwasLive, hhidden⟩ := h
  unfold StudyMaterialVersion.Consistent at hconsistent
  unfold MentorVisible at hvisible
  cases hpublished : v.isPublished with
  | true =>
    have hactive : v.lifecycleStatus = .active := hconsistent.1 hpublished
    refine ⟨.live, ⟨hactive, hpublished⟩, fun l' hl' => ?_, by simp [mentorDisplayBadge,
      hpublished, Layer.badge], by simp [studentVisibilityHint, hpublished, Layer.hint]⟩
    cases l' <;> simp_all [InLayer, TraineeLive, TraineePrevious, RemovedFromStudents,
      WorkspaceDraft]
  | false =>
    have hnot : v.lifecycleStatus ≠ .active := fun hactive => by
      simp [hconsistent.2 hactive] at hpublished
    have hstage : v.lifecycleStatus = .archived ∨ v.lifecycleStatus = .draft := by
      cases hstatus : v.lifecycleStatus <;> simp_all
    rcases hstage with hstatus | hstatus
    · refine ⟨.previous, hstatus, fun l' hl' => ?_, by simp [mentorDisplayBadge, hpublished,
        hstatus, Layer.badge], by simp [studentVisibilityHint, hpublished, hstatus, Layer.hint]⟩
      cases l' <;> simp_all [InLayer, TraineeLive, TraineePrevious, RemovedFromStudents,
        WorkspaceDraft]
    · -- a draft: on the shelf, removed from students, or neither
      cases hshelf : v.isArchived with
      | true =>
        refine ⟨.shelf, ?_, fun l' hl' => ?_, by simp [mentorDisplayBadge, hpublished, hstatus,
          hshelf, Layer.badge], by simp [studentVisibilityHint, hpublished, hstatus, hshelf,
          Layer.hint]⟩
        · simp [InLayer, MentorVisible, TraineeLive, TraineePrevious, hstatus, hshelf]
        · cases l' <;> simp_all [InLayer, TraineeLive, TraineePrevious, RemovedFromStudents,
            WorkspaceDraft]
      | false =>
        cases hwas : v.publishedAt with
        | true =>
          refine ⟨.removed, ?_, fun l' hl' => ?_, by simp [mentorDisplayBadge, hpublished,
            hstatus, hshelf, hwas, Layer.badge], by simp [studentVisibilityHint, hpublished,
            hstatus, hshelf, hwas, Layer.hint]⟩
          · simp [InLayer, RemovedFromStudents, TraineeLive, TraineePrevious, hstatus, hshelf, hwas]
          · cases l' <;> simp_all [InLayer, TraineeLive, TraineePrevious, RemovedFromStudents,
              WorkspaceDraft]
        | false =>
          refine ⟨.draft, ?_, fun l' hl' => ?_, by simp [mentorDisplayBadge, hpublished, hstatus,
            hshelf, hwas, Layer.badge], by simp [studentVisibilityHint, hpublished, hstatus,
            hshelf, hwas, Layer.hint]⟩
          · simp [InLayer, WorkspaceDraft, TraineeLive, TraineePrevious, hstatus, hshelf, hwas]
          · cases l' <;> simp_all [InLayer, TraineeLive, TraineePrevious, RemovedFromStudents,
              WorkspaceDraft]

/-- What the history hub asks of a version. -/
theorem Coherent.historical (h : Coherent v) (hvisible : v.MentorVisible) :
    (v.isPublished = false ∧ ¬ v.WorkspaceDraft) ↔
      InLayer v .previous ∨ InLayer v .shelf ∨ InLayer v .removed := by
  obtain ⟨l, hl, hone, -, -⟩ := h.layer hvisible
  have hlive : InLayer v .live ↔ v.isPublished = true :=
    ⟨fun hlive => hlive.2, fun hpublished => ⟨h.consistent.1 hpublished, hpublished⟩⟩
  have hlayer : ∀ l', InLayer v l' ↔ l' = l := fun l' => ⟨hone l', fun heq => heq ▸ hl⟩
  have hdraft : v.WorkspaceDraft ↔ Layer.draft = l := hlayer .draft
  rw [← Bool.not_eq_true, ← hlive, hlayer, hdraft, hlayer, hlayer, hlayer]
  cases l <;> decide

/-- **The badge of a version and its hint name the one layer in which it lies**, after every run of
requests; and the history hub is shown exactly if there is a history and all of it is behind. -/
theorem badge_of_layer (h : Runs.Reachable step (fun _ _ => True) Tidy versions) (n : ℕ) :
    (∀ v ∈ getAllVersions versions n, ∃ l, InLayer v l ∧ (∀ l', InLayer v l' → l' = l) ∧
      v.mentorDisplayBadge = l.badge ∧ v.studentVisibilityHint true = some l.hint) ∧
    (computeShowHistoryHub (getAllVersions versions n) = true ↔
      getAllVersions versions n ≠ [] ∧ ∀ v ∈ getAllVersions versions n,
        InLayer v .previous ∨ InLayer v .shelf ∨ InLayer v .removed) := by
  have htidy := tidy_of_reachable h
  have hcoherent : ∀ v ∈ getAllVersions versions n, Coherent v ∧ v.MentorVisible := by
    intro v hv
    obtain ⟨hmem, -, hvisible⟩ := mem_getAllVersions.1 hv
    exact ⟨htidy.coherent v hmem, hvisible⟩
  refine ⟨fun v hv => (hcoherent v hv).1.layer (hcoherent v hv).2, ?_⟩
  have hall : (getAllVersions versions n).filter (fun v => v.MentorVisible) =
      getAllVersions versions n :=
    List.filter_eq_self.2 fun v hv => by simpa using (hcoherent v hv).2
  generalize getAllVersions versions n = history at hcoherent hall ⊢
  simp only [computeShowHistoryHub, hall, Bool.and_eq_true, Bool.not_eq_true',
    List.any_eq_false, List.any_eq_true, decide_eq_true_eq, Bool.not_eq_true]
  constructor
  · rintro ⟨⟨hlive, hdraft⟩, v, hv, -⟩
    refine ⟨List.ne_nil_of_mem hv, fun w hw => ?_⟩
    exact ((hcoherent w hw).1.historical (hcoherent w hw).2).1 ⟨hlive w hw, hdraft w hw⟩
  · rintro ⟨hne, hbehind⟩
    have hsplit := fun w hw =>
      ((hcoherent w hw).1.historical (hcoherent w hw).2).2 (hbehind w hw)
    obtain ⟨v, hv⟩ := List.exists_mem_of_ne_nil _ hne
    refine ⟨⟨fun w hw => (hsplit w hw).1, fun w hw => (hsplit w hw).2⟩, v, hv, ?_⟩
    rcases hbehind v hv with hprevious | hshelf | hremoved
    · exact Or.inl hprevious
    · exact Or.inr (Or.inr hshelf.2.1)
    · exact Or.inr (Or.inl hremoved)

end

/-- Two drafts are made, the first is published, and removed from the students again. -/
def broughtBack : List Request :=
  [.generate 5 40 1, .manualEdit 5 2, .publish 5 1 .keepForReview, .unpublish 5 1 .removeCompletely]

/-- The versions after that. -/
def broughtBackVersions : List StudyMaterialVersion := (Runs.run step [] broughtBack).getD []

theorem reachable_broughtBack :
    Runs.Reachable step (fun _ _ => True) Tidy broughtBackVersions := by
  have hempty : Tidy [] := ⟨List.nodup_nil, by simp⟩
  have hrun : Runs.run step [] broughtBack = some broughtBackVersions := rfl
  exact Runs.reachable_of_run hempty hrun

theorem broughtBack_badges :
    (getAllVersions broughtBackVersions 5).map mentorDisplayBadge =
        ["Your draft", "Removed from students"] ∧
      ∀ v ∈ getAllVersions broughtBackVersions 5, ∃ l, InLayer v l ∧ (∀ l', InLayer v l' → l' = l) ∧
        v.mentorDisplayBadge = l.badge ∧ v.studentVisibilityHint true = some l.hint :=
  ⟨by decide, (badge_of_layer reachable_broughtBack 5).1⟩

end StudyAgent.Material
