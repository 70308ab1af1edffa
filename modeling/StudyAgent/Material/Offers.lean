import StudyAgent.Material.Desk

/-!
# What the mentor is offered

The page of a node shows one version, with the actions that the mentor may take on it.  The
requests behind the actions check the version again, each in its own way.

Main results:

* `publish_eq_ok`, `archive_eq_ok` — the requests as they are made are the steps.
* `offered_iff_accepted` — **an action is offered exactly if the request would be accepted and the
version is not on the shelf**, but for the archiving of what is no draft; the label on the button
says what the publish replaces.
-/

namespace StudyAgent.Material

open Lifecycle (LifecycleStatus RetentionMode)
open StudyMaterialVersion

/-! ## Actions -/

/-- The version has no text yet: reference material is required first. -/
def referenceRequired : Option String → Bool
  | some content => "GENERATION STATUS: Reference material required".toList <:+: content.toList
  | none => false

/-- `VersionAllowedActionsOut`. -/
structure VersionAllowedActions where
  versionId : ℕ
  canPublish : Bool
  canUnpublish : Bool
  canArchive : Bool
  canEditActiveDraft : Bool
  isViewingNonActive : Bool
  isViewingArchived : Bool
  publishButtonLabel : String
  publishDisabledTooltip : Option String
  unpublishButtonLabel : String
  unpublishTooltip : Option String
  unpublishDisabledTooltip : Option String
  deriving DecidableEq

/-- The label on the button for a publish. -/
def publishButtonLabel (v : StudyMaterialVersion) : Option StudyMaterialVersion → String
  | some published =>
    if v.isPublished = true then "Make live for students"
    else if published.versionId ≠ v.versionId ∧ v.versionNumber < published.versionNumber then
      "Restore as live version"
    else if published.versionId ≠ v.versionId then "Replace live version"
    else "Make live for students"
  | none => "Make live for students"

/-- The version that is viewed is not the active one. -/
def viewingNonActive : Option ℕ → Option ℕ → Bool
  | some viewing, some active => viewing ≠ active
  | _, _ => false

/-- `compute_version_allowed_actions`. -/
def computeVersionAllowedActions (v : StudyMaterialVersion)
    (activeVersionId viewingVersionId : Option ℕ) (published : Option StudyMaterialVersion)
    (spaceIsPublished : Bool) (content : Option String) : VersionAllowedActions :=
  let isViewingNonActive := viewingNonActive viewingVersionId activeVersionId
  let canUnpublish := v.isPublished && !v.isArchived
  let required := referenceRequired content
  { versionId := v.versionId
    canPublish := !required && (!v.isPublished && !v.isArchived && spaceIsPublished)
    canUnpublish := canUnpublish
    canArchive := !v.isPublished && !v.isArchived
    canEditActiveDraft := !required && (v.isActive && !isViewingNonActive && !v.isArchived)
    isViewingNonActive := isViewingNonActive
    isViewingArchived := v.isArchived
    publishButtonLabel := Material.publishButtonLabel v published
    publishDisabledTooltip :=
      if required = true then
        some "Reference material required to generate study material before publishing."
      else if (!v.isPublished && !v.isArchived && !spaceIsPublished) = true then
        some "Re-publish this space first to make content visible to students."
      else none
    unpublishButtonLabel := "Remove from students"
    unpublishTooltip :=
      if canUnpublish = true then
        some ("Students will no longer see this topic. This version returns to your drafts and " ++
          "does not appear in Previous versions.")
      else none
    unpublishDisabledTooltip := none }

section Flags

variable (v : StudyMaterialVersion) (active viewing : Option ℕ)
  (published : Option StudyMaterialVersion) (space : Bool) (content : Option String)

@[simp] theorem canPublish_compute :
    (computeVersionAllowedActions v active viewing published space content).canPublish =
      (!referenceRequired content && (!v.isPublished && !v.isArchived && space)) := rfl

@[simp] theorem canUnpublish_compute :
    (computeVersionAllowedActions v active viewing published space content).canUnpublish =
      (v.isPublished && !v.isArchived) := rfl

@[simp] theorem canArchive_compute :
    (computeVersionAllowedActions v active viewing published space content).canArchive =
      (!v.isPublished && !v.isArchived) := rfl

@[simp] theorem canEditActiveDraft_compute :
    (computeVersionAllowedActions v active viewing published space content).canEditActiveDraft =
      (!referenceRequired content &&
        (v.isActive && !viewingNonActive viewing active && !v.isArchived)) := rfl

end Flags

/-- The actions in `get_mentor_ui_state`, on the version that is viewed or the active one. -/
def displayedVersionActions (versions : List StudyMaterialVersion) (content : ℕ → Option String)
    (spaceIsPublished : Bool) (nodeId : ℕ) (viewingVersionId : Option ℕ) :
    Option VersionAllowedActions :=
  let activeVersionId := (getActiveVersion versions nodeId).map versionId
  (viewingVersionId.or activeVersionId).bind fun targetVersionId =>
    (target versions nodeId targetVersionId).map fun v =>
      computeVersionAllowedActions v activeVersionId viewingVersionId
        (getPublishedVersion versions nodeId) spaceIsPublished (content v.versionId)

/-! ## Requests -/

/-- Why a request is refused. -/
inductive Refusal where
  | spaceUnpublished
  | versionMismatch
  | alreadyPublished
  | referenceMaterialRequired
  | notPublished
  | alreadyArchived
  | cannotArchivePublished
  | cannotArchiveNonDraft
  deriving DecidableEq

/-- The confirmation that a publish asks for. -/
structure PublishPreview where
  requiresConfirmation : Bool
  isRepublishingOlder : Bool
  willResetTraineeReadProgress : Bool
  isReplacingLiveVersion : Bool
  deriving DecidableEq

section Requests

variable (versions : List StudyMaterialVersion) (content : ℕ → Option String)
  (spaceIsPublished : Bool) (nodeId versionId : ℕ)

/-- `_load_publish_target`. -/
def loadPublishTarget : Except Refusal StudyMaterialVersion :=
  if spaceIsPublished = false then .error .spaceUnpublished
  else match target versions nodeId versionId with
    | none => .error .versionMismatch
    | some v =>
      if v.isPublished = true then .error .alreadyPublished
      else if referenceRequired (content v.versionId) = true then
        .error .referenceMaterialRequired
      else .ok v

/-- `preview_publish_study_material`. -/
def previewPublishStudyMaterial : Except Refusal PublishPreview :=
  (loadPublishTarget versions content spaceIsPublished nodeId versionId).map fun v =>
    let previous := getPublishedVersion versions nodeId
    { requiresConfirmation := previous.isSome
      isRepublishingOlder := previous.any fun p => v.versionNumber < p.versionNumber
      willResetTraineeReadProgress := previous.any fun p => p.versionId ≠ v.versionId
      isReplacingLiveVersion := previous.isSome }

/-- `publish_study_material`. -/
def publishStudyMaterial (superseded : Option RetentionMode) :
    Except Refusal (List StudyMaterialVersion) :=
  (loadPublishTarget versions content spaceIsPublished nodeId versionId).map fun v =>
    publishVersion versions nodeId v.versionId (superseded.getD .keepForReview)

/-- `unpublish_study_material`. -/
def unpublishStudyMaterial (retention : RetentionMode) :
    Except Refusal (List StudyMaterialVersion) :=
  match target versions nodeId versionId with
  | none => .error .versionMismatch
  | some v =>
    if v.isPublished = false then .error .notPublished
    else .ok (updateVersion versions v.versionId fun v => v.retire retention)

/-- `archive_study_material_version`. -/
def archiveStudyMaterialVersion : Except Refusal (List StudyMaterialVersion) :=
  match target versions nodeId versionId with
  | none => .error .versionMismatch
  | some v =>
    if v.isArchived = true then .error .alreadyArchived
    else if v.isPublished = true then .error .cannotArchivePublished
    else if v.lifecycleStatus ≠ .draft then .error .cannotArchiveNonDraft
    else .ok (updateVersion versions v.versionId archive)

/-- `manual_edit_study_material`; the row that is added has the id that is given. -/
def manualEditStudyMaterial (newId : ℕ) : Except Refusal (List StudyMaterialVersion) :=
  let active := getActiveVersion versions nodeId
  if active.any (fun a => referenceRequired (content a.versionId)) = true then
    .error .referenceMaterialRequired
  else .ok (createVersion versions nodeId newId (active.map StudyMaterialVersion.versionId) none)

end Requests

variable {versions versions' : List StudyMaterialVersion} {content : ℕ → Option String}
  {spaceIsPublished : Bool} {v w : StudyMaterialVersion} {n k : ℕ} {a : VersionAllowedActions}

/-! ## What the requests accept -/

theorem target_versionId (h : target versions n k = some v) : v.versionId = k :=
  (target_eq_some h).2.1

theorem loadPublishTarget_eq_ok :
    loadPublishTarget versions content spaceIsPublished n k = .ok v ↔
      spaceIsPublished = true ∧ target versions n k = some v ∧ v.isPublished = false ∧
        referenceRequired (content v.versionId) = false := by
  unfold loadPublishTarget
  cases htarget : target versions n k with
  | none => split_ifs <;> simp
  | some u =>
    simp only [Option.some.injEq]
    split_ifs with hspace hpublished hrequired
    · simp [hspace]
    · refine iff_of_false (by simp) ?_
      rintro ⟨-, rfl, hnot, -⟩
      simp [hpublished] at hnot
    · refine iff_of_false (by simp) ?_
      rintro ⟨-, rfl, -, hnot⟩
      simp [hrequired] at hnot
    · simp only [Except.ok.injEq]
      constructor
      · rintro rfl
        exact ⟨by simpa using hspace, rfl, by simpa using hpublished, by simpa using hrequired⟩
      · exact fun h => h.2.1

/-- **A publish that is accepted is the step**, and it is refused for the space or the text too. -/
theorem publish_eq_ok {superseded : Option RetentionMode} :
    publishStudyMaterial versions content spaceIsPublished n k superseded = .ok versions' ↔
      spaceIsPublished = true ∧ referenceRequired (content k) = false ∧
        step versions (.publish n k (superseded.getD .keepForReview)) = some versions' := by
  have hok : publishStudyMaterial versions content spaceIsPublished n k superseded =
      .ok versions' ↔ ∃ v, loadPublishTarget versions content spaceIsPublished n k = .ok v ∧
        publishVersion versions n v.versionId (superseded.getD .keepForReview) = versions' := by
    unfold publishStudyMaterial
    cases loadPublishTarget versions content spaceIsPublished n k <;> simp [Except.map]
  rw [hok]
  constructor
  · rintro ⟨v, hload, rfl⟩
    obtain ⟨hspace, htarget, hpublished, hrequired⟩ := loadPublishTarget_eq_ok.1 hload
    obtain rfl := target_versionId htarget
    exact ⟨hspace, hrequired, by simp [step, htarget, hpublished]⟩
  · rintro ⟨hspace, hrequired, hstep⟩
    obtain ⟨v, htarget, hrest⟩ := Option.bind_eq_some_iff.1 hstep
    split_ifs at hrest with hpublished
    obtain rfl := target_versionId htarget
    have hhidden : v.isPublished = false := by simpa using hpublished
    refine ⟨v, loadPublishTarget_eq_ok.2 ⟨hspace, htarget, hhidden, hrequired⟩, ?_⟩
    simpa using hrest

theorem unpublish_eq_ok {retention : RetentionMode} :
    unpublishStudyMaterial versions n k retention = .ok versions' ↔
      step versions (.unpublish n k retention) = some versions' := by
  simp only [unpublishStudyMaterial, step]
  cases htarget : target versions n k with
  | none => simp
  | some v =>
    simp only [target_versionId htarget, Option.bind_some]
    split_ifs <;> simp

theorem archive_eq_ok :
    archiveStudyMaterialVersion versions n k = .ok versions' ↔
      step versions (.archive n k) = some versions' := by
  simp only [archiveStudyMaterialVersion, step]
  cases htarget : target versions n k with
  | none => simp
  | some v =>
    simp only [target_versionId htarget, Option.bind_some]
    split_ifs <;> simp_all

theorem manualEdit_eq_ok {newId : ℕ} (hnew : newId ∉ versions.map versionId) :
    manualEditStudyMaterial versions content n newId = .ok versions' ↔
      (∀ a ∈ getActiveVersion versions n, referenceRequired (content a.versionId) = false) ∧
        step versions (.manualEdit n newId) = some versions' := by
  simp only [manualEditStudyMaterial, step, if_neg hnew]
  cases getActiveVersion versions n with
  | none => simp
  | some a =>
    simp only [Option.any_some]
    split_ifs with hrequired <;> simp [hrequired]

/-! ## What is offered -/

/-- What the page shows is computed from the version that a request would name. -/
theorem displayedVersionActions_eq_some {viewing : Option ℕ}
    (h : displayedVersionActions versions content spaceIsPublished n viewing = some a) :
    ∃ v, target versions n a.versionId = some v ∧
      (viewing = none → (getActiveVersion versions n).map versionId = some v.versionId) ∧
      (∀ k ∈ viewing, k = v.versionId) ∧
      a = computeVersionAllowedActions v ((getActiveVersion versions n).map versionId) viewing
        (getPublishedVersion versions n) spaceIsPublished (content v.versionId) := by
  obtain ⟨k, hk, hmap⟩ := Option.bind_eq_some_iff.1 h
  obtain ⟨v, htarget, rfl⟩ := Option.map_eq_some_iff.1 hmap
  obtain rfl := target_versionId htarget
  refine ⟨v, htarget, ?_, ?_, rfl⟩
  · rintro rfl
    simpa using hk
  · rintro k rfl
    simpa using hk

/-- A published version that is found is one, and none is found only if there is none. -/
theorem getPublishedVersion_eq_some (h : getPublishedVersion versions n = some w) :
    w ∈ versions ∧ w.nodeId = n ∧ w.isPublished = true := by
  obtain ⟨hmem, hfilter⟩ := List.mem_filter.1 (List.argmax_mem (Option.mem_def.2 h))
  simp only [decide_eq_true_eq] at hfilter
  exact ⟨hmem, hfilter.1, hfilter.2.1⟩

theorem Tidy.getPublishedVersion_eq_none (h : Tidy versions) :
    getPublishedVersion versions n = none ↔
      ∀ w ∈ versions, w.nodeId = n → w.isPublished = false := by
  rw [getPublishedVersion, List.argmax_eq_none, List.filter_eq_nil_iff]
  refine forall₂_congr fun w hw => ?_
  have hactive := (h.coherent w hw).consistent
  unfold StudyMaterialVersion.Consistent at hactive
  cases hpublished : w.isPublished <;> simp_all

theorem Coherent.unpublished_iff (h : Coherent v) :
    v.isPublished = false ↔ v.lifecycleStatus = .draft ∨ v.lifecycleStatus = .archived ∨
      v.lifecycleStatus = .discarded := by
  have hconsistent := h.consistent
  have hhidden := h.notHidden
  unfold StudyMaterialVersion.Consistent at hconsistent
  rw [← Bool.not_eq_true, hconsistent]
  cases hstage : v.lifecycleStatus <;> simp_all

theorem Coherent.archive_accepted (h : Coherent v) (htarget : target versions n k = some v) :
    (∃ versions', archiveStudyMaterialVersion versions n k = .ok versions') ↔
      v.isArchived = false ∧ v.lifecycleStatus = .draft := by
  have hdraft : v.lifecycleStatus = .draft → v.isPublished = false :=
    fun hdraft => h.unpublished_iff.2 (Or.inl hdraft)
  simp only [archive_eq_ok, step, htarget, Option.bind_some]
  split_ifs with hrefused
  · refine iff_of_false (by simp) ?_
    rintro ⟨hdesk, hstage⟩
    simp [hdesk, hstage, hdraft hstage] at hrefused
  · simp_all

/-- What the label of a publish promises. -/
def PublishPreview.buttonLabel (p : PublishPreview) : String :=
  if p.isRepublishingOlder = true then "Restore as live version"
  else if p.isReplacingLiveVersion = true then "Replace live version"
  else "Make live for students"

theorem Tidy.publishButtonLabel_eq (h : Tidy versions) {p : PublishPreview}
    (hpreview : previewPublishStudyMaterial versions content spaceIsPublished n k = .ok p)
    (htarget : target versions n k = some v) :
    publishButtonLabel v (getPublishedVersion versions n) = p.buttonLabel ∧
      (publishButtonLabel v (getPublishedVersion versions n) = "Make live for students" ↔
        ∀ w ∈ versions, w.nodeId = n → w.isPublished = false) := by
  rw [← h.getPublishedVersion_eq_none]
  unfold previewPublishStudyMaterial at hpreview
  cases hload : loadPublishTarget versions content spaceIsPublished n k with
  | error r =>
    rw [hload] at hpreview
    cases hpreview
  | ok u =>
    rw [hload] at hpreview
    cases hpreview
    obtain ⟨-, hfound, hhidden, -⟩ := loadPublishTarget_eq_ok.1 hload
    obtain rfl : u = v := by simpa [hfound] using htarget
    cases hlive : getPublishedVersion versions n with
    | none => exact ⟨rfl, by simp [publishButtonLabel]⟩
    | some w =>
      obtain ⟨hw, -, hpublished⟩ := getPublishedVersion_eq_some hlive
      -- the live version is another one, since the ids tell the rows apart
      have hne : w.versionId ≠ u.versionId := by
        intro hid
        have hsame := List.inj_on_of_nodup_map h.ids hw (target_eq_some hfound).1 hid
        rw [hsame, hhidden] at hpublished
        cases hpublished
      by_cases holder : u.versionNumber < w.versionNumber <;>
        simp [publishButtonLabel, PublishPreview.buttonLabel, hhidden, hne, holder]

/-- **An action is offered exactly if its request would be accepted and the version is not on the
shelf**, after every run of requests.  Only to put a version on the shelf is offered, and refused,
for one that the students can still read or that has been discarded; and an edit is of the working
draft, whichever version is viewed. -/
theorem offered_iff_accepted (h : Runs.Reachable step (fun _ _ => True) Tidy versions)
    {viewing : Option ℕ}
    (ha : displayedVersionActions versions content spaceIsPublished n viewing = some a) :
    ∃ v, target versions n a.versionId = some v ∧
      (∀ superseded, a.canPublish = true ↔ v.isArchived = false ∧ ∃ versions',
        publishStudyMaterial versions content spaceIsPublished n a.versionId superseded =
          .ok versions') ∧
      (∀ retention, a.canUnpublish = true ↔ v.isArchived = false ∧ ∃ versions',
        unpublishStudyMaterial versions n a.versionId retention = .ok versions') ∧
      (a.canArchive = true ↔ (∃ versions',
        archiveStudyMaterialVersion versions n a.versionId = .ok versions') ∨
        v.isArchived = false ∧ (v.lifecycleStatus = .archived ∨ v.lifecycleStatus = .discarded)) ∧
      (∀ newId, a.canEditActiveDraft = true → ∃ versions',
        manualEditStudyMaterial versions content n newId = .ok versions') ∧
      (∀ newId versions', getActiveVersion versions n = some v →
        manualEditStudyMaterial versions content n newId = .ok versions' →
          a.canEditActiveDraft = true) ∧
      (∀ p, previewPublishStudyMaterial versions content spaceIsPublished n a.versionId = .ok p →
        a.publishButtonLabel = p.buttonLabel ∧
          (a.publishButtonLabel = "Make live for students" ↔
            ∀ w ∈ versions, w.nodeId = n → w.isPublished = false)) := by
  have htidy := tidy_of_reachable h
  obtain ⟨v, htarget, hunviewed, hviewed, heq⟩ := displayedVersionActions_eq_some ha
  obtain ⟨hmem, hid, hnode⟩ := target_eq_some htarget
  have hcoherent := htidy.coherent v hmem
  refine ⟨v, htarget, fun superseded => ?_, fun retention => ?_, ?_, fun newId hedit => ?_,
    fun newId versions' hactive hedit => ?_, fun p hp => ?_⟩
  · simp only [← hid] at htarget ⊢
    simp only [publish_eq_ok, step, htarget, Option.bind_some]
    rw [heq]
    cases hpublished : v.isPublished <;> simp [hpublished, and_comm, and_assoc, and_left_comm]
  · simp only [unpublish_eq_ok, step, htarget, Option.bind_some]
    rw [heq]
    cases hpublished : v.isPublished <;> simp [hpublished]
  · have hoffered : a.canArchive = true ↔ v.isPublished = false ∧ v.isArchived = false := by
      simp [heq]
    rw [hcoherent.archive_accepted htarget, hoffered, hcoherent.unpublished_iff]
    tauto
  · simp only [heq, canEditActiveDraft_compute, Bool.and_eq_true, Bool.not_eq_true'] at hedit
    obtain ⟨hrequired, ⟨-, hsame⟩, -⟩ := hedit
    refine ⟨_, if_neg ?_⟩
    cases hactive : getActiveVersion versions n with
    | none => simp
    | some b =>
      rw [hactive, Option.map_some] at hunviewed hsame
      have hb : b.versionId = v.versionId := by
        cases viewing with
        | none => simpa using hunviewed rfl
        | some k =>
          obtain rfl := hviewed k rfl
          have hseen : v.versionId = b.versionId := by simpa [viewingNonActive] using hsame
          exact hseen.symm
      simp [hb, hrequired]
  · have hworking := (getActiveVersion_eq_some hactive).2.2
    have hrequired : referenceRequired (content v.versionId) = false := by
      simp only [manualEditStudyMaterial, hactive, Option.any_some] at hedit
      split_ifs at hedit with hrequired
      simpa using hrequired
    have hsame : viewingNonActive viewing (some v.versionId) = false := by
      cases viewing with
      | none => rfl
      | some k => simpa [viewingNonActive] using hviewed k rfl
    rw [hactive, Option.map_some] at heq
    simp [heq, hrequired, hworking.1, hworking.2.1, hsame]
  · rw [heq]
    exact htidy.publishButtonLabel_eq hp htarget

/-- The version that was removed from the students is viewed, and may be made live again. -/
theorem offered_broughtBack :
    ∃ a, displayedVersionActions broughtBackVersions (fun _ => some "A lesson.") true 5 (some 1) =
        some a ∧
      a.canPublish = true ∧ a.publishButtonLabel = "Make live for students" ∧
      ∃ versions', publishStudyMaterial broughtBackVersions (fun _ => some "A lesson.") true 5
        a.versionId none = .ok versions' := by
  have hflags : (displayedVersionActions broughtBackVersions (fun _ => some "A lesson.") true 5
      (some 1)).map (fun a => (a.canPublish, a.publishButtonLabel)) =
        some (true, "Make live for students") := by decide
  obtain ⟨a, hshown, ha⟩ := Option.map_eq_some_iff.1 hflags
  obtain ⟨hoffered, hlabel⟩ := Prod.mk.inj ha
  obtain ⟨v, -, hpublish, -⟩ := offered_iff_accepted reachable_broughtBack hshown
  exact ⟨a, hshown, hoffered, hlabel, ((hpublish none).1 hoffered).2⟩

end StudyAgent.Material
