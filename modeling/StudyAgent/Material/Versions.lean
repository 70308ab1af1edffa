import StudyAgent.Base.MarkedRows
import StudyAgent.Lifecycle.Quizzes
import Mathlib.Data.List.MinMax

/-!
# Versions of study material

The rows of the versions of a node, their transitions, and the queries that the services make.
A version is active while it is the working draft of the mentor; that is apart from the stage of
its life, and from the shelf on which the mentor may put it.

Main results:

* `getActiveVersion_eq_some` — what the query for the active version finds.
-/

namespace StudyAgent.Material

open Lifecycle (LifecycleStatus RetentionMode)

/-- A row of `study_material_versions`; `publishedAt` says whether the version ever was live. -/
structure StudyMaterialVersion where
  versionId : ℕ
  nodeId : ℕ
  versionNumber : ℕ
  basedOnVersionId : Option ℕ := none
  generationRunId : Option ℕ := none
  isActive : Bool := true
  isPublished : Bool := false
  publishedAt : Bool := false
  isArchived : Bool := false
  lifecycleStatus : LifecycleStatus := .draft
  deriving DecidableEq

namespace StudyMaterialVersion

/-- `transition_sm_to_archived`. -/
def transitionToArchived (v : StudyMaterialVersion) : StudyMaterialVersion :=
  { v with isPublished := false, lifecycleStatus := .archived, isActive := false }

/-- `transition_sm_to_hidden`. -/
def transitionToHidden (v : StudyMaterialVersion) : StudyMaterialVersion :=
  { v with isPublished := false, lifecycleStatus := .draft, isActive := false }

/-- `transition_sm_to_active`; the flag `is_active` is left as it is. -/
def transitionToActive (v : StudyMaterialVersion) : StudyMaterialVersion :=
  { v with isPublished := true, publishedAt := true, lifecycleStatus := .active }

/-- `transition_sm_to_discarded`. -/
def transitionToDiscarded (v : StudyMaterialVersion) : StudyMaterialVersion :=
  { v with isPublished := false, lifecycleStatus := .discarded, isActive := false }

/-- How a version that was live is retired. -/
def retire (v : StudyMaterialVersion) : RetentionMode → StudyMaterialVersion
  | .keepForReview => v.transitionToArchived
  | .removeCompletely => v.transitionToHidden

/-- `deactivate_version`. -/
def deactivate (v : StudyMaterialVersion) : StudyMaterialVersion := { v with isActive := false }

/-- `activate_version`. -/
def activate (v : StudyMaterialVersion) : StudyMaterialVersion := { v with isActive := true }

/-- `archive_version`. -/
def archive (v : StudyMaterialVersion) : StudyMaterialVersion :=
  { v with isArchived := true, isActive := false }

/-- `unarchive_version`. -/
def unarchive (v : StudyMaterialVersion) : StudyMaterialVersion := { v with isArchived := false }

/-- `is_trainee_live_sm`. -/
def TraineeLive (v : StudyMaterialVersion) : Prop :=
  v.lifecycleStatus = .active ∧ v.isPublished = true

instance (v : StudyMaterialVersion) : Decidable v.TraineeLive := inferInstanceAs (Decidable (_ ∧ _))

/-- `is_mentor_discardable_sm`; the rows that `discard_draft_versions_for_node` discards. -/
def MentorDiscardable (v : StudyMaterialVersion) : Prop :=
  v.isArchived = false ∧ (v.lifecycleStatus = .draft ∨ v.lifecycleStatus = .hidden ∨
    (v.lifecycleStatus = .active ∧ v.isPublished = false))

instance (v : StudyMaterialVersion) : Decidable v.MentorDiscardable :=
  inferInstanceAs (Decidable (_ ∧ _))

/-- Neither discarded nor on the shelf. -/
def OnDesk (v : StudyMaterialVersion) : Prop :=
  v.isArchived = false ∧ v.lifecycleStatus ≠ .discarded

instance (v : StudyMaterialVersion) : Decidable v.OnDesk := inferInstanceAs (Decidable (_ ∧ _))

/-- The version is the working draft: it is active, and neither discarded nor on the shelf. -/
def Working (v : StudyMaterialVersion) : Prop := v.isActive = true ∧ v.OnDesk

instance (v : StudyMaterialVersion) : Decidable v.Working := inferInstanceAs (Decidable (_ ∧ _))

variable {v : StudyMaterialVersion}

theorem not_working_retire (retention : RetentionMode) : ¬ (v.retire retention).Working := by
  cases retention <;> simp [retire, Working, transitionToArchived, transitionToHidden]

theorem not_working_discarded : ¬ v.transitionToDiscarded.Working := by
  simp [Working, transitionToDiscarded]

theorem not_working_deactivate : ¬ v.deactivate.Working := by
  simp [Working, deactivate]

@[simp] theorem versionId_retire (retention : RetentionMode) :
    (v.retire retention).versionId = v.versionId := by
  cases retention <;> rfl

@[simp] theorem nodeId_retire (retention : RetentionMode) :
    (v.retire retention).nodeId = v.nodeId := by
  cases retention <;> rfl

@[simp] theorem isActive_retire (retention : RetentionMode) :
    (v.retire retention).isActive = false := by
  cases retention <;> rfl

end StudyMaterialVersion

open StudyMaterialVersion

/-! ## Queries -/

variable {versions : List StudyMaterialVersion} {v : StudyMaterialVersion} {n k : ℕ}

/-- `get_version_by_id`. -/
def getVersionById (versions : List StudyMaterialVersion) (versionId : ℕ) :
    Option StudyMaterialVersion :=
  MarkedRows.find StudyMaterialVersion.versionId versions versionId

/-- What a statement does to the row of one version. -/
def updateVersion (versions : List StudyMaterialVersion) (versionId : ℕ)
    (f : StudyMaterialVersion → StudyMaterialVersion) : List StudyMaterialVersion :=
  MarkedRows.update StudyMaterialVersion.versionId versions versionId f

/-- `get_active_version`. -/
def getActiveVersion (versions : List StudyMaterialVersion) (nodeId : ℕ) :
    Option StudyMaterialVersion :=
  versions.find? fun v => v.nodeId = nodeId ∧ v.Working

/-- `get_latest_workspace_draft`. -/
def getLatestWorkspaceDraft (versions : List StudyMaterialVersion) (nodeId : ℕ) :
    Option StudyMaterialVersion :=
  (versions.filter fun v => v.nodeId = nodeId ∧ v.isPublished = false ∧ v.OnDesk).argmax
    StudyMaterialVersion.versionNumber

/-- `list_versions_by_generation_run_id`. -/
def listVersionsByGenerationRunId (versions : List StudyMaterialVersion) (nodeId runId : ℕ) :
    List StudyMaterialVersion :=
  versions.filter fun v =>
    v.nodeId = nodeId ∧ v.generationRunId = some runId ∧ v.lifecycleStatus ≠ .discarded

/-- `get_next_version_number`. -/
def getNextVersionNumber (versions : List StudyMaterialVersion) (nodeId : ℕ) : ℕ :=
  ((versions.filter fun v => v.nodeId = nodeId).map StudyMaterialVersion.versionNumber).foldl
    max 0 + 1

theorem getActiveVersion_eq_some (h : getActiveVersion versions n = some v) :
    v ∈ versions ∧ v.nodeId = n ∧ v.Working :=
  ⟨List.mem_of_find?_eq_some h, by simpa using List.find?_some h⟩

theorem exists_getActiveVersion (hv : v ∈ versions) (hn : v.nodeId = n) (hw : v.Working) :
    ∃ a, getActiveVersion versions n = some a := by
  refine Option.isSome_iff_exists.1 ?_
  rw [getActiveVersion, List.find?_isSome]
  exact ⟨v, hv, by simp [hn, hw]⟩

theorem mem_of_getLatest (h : getLatestWorkspaceDraft versions n = some v) :
    v ∈ versions ∧ v.nodeId = n ∧ v.isPublished = false ∧ v.OnDesk := by
  have hmem := List.argmax_mem (Option.mem_def.2 h)
  simpa using hmem

end StudyAgent.Material
