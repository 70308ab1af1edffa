import Mathlib.Data.Fintype.Basic
import StudyAgent.Base.Runs
import StudyAgent.Material.Versions

/-!
# One working draft for each node

The requests on the study material of the nodes, each run to its end before the next.  Most of
them deactivate the working draft before they activate another version; the restore after a
discard, and a publish, do not look for it.

Main results:

* `step_orderly` — what one request keeps.
* `working_of_node_unique` — **no node has two working drafts**, where a restore finds none
  besides its own, and no discarded version is published beside one.
-/

namespace StudyAgent.Material

open Lifecycle (RetentionMode)
open MarkedRows (AtMostOne)
open StudyMaterialVersion

variable {versions versions' : List StudyMaterialVersion} {v w : StudyMaterialVersion} {n k : ℕ}

/-! ## Requests -/

/-- The version that is given, if any, is deactivated. -/
def deactivated (versions : List StudyMaterialVersion) :
    Option StudyMaterialVersion → List StudyMaterialVersion
  | some active => updateVersion versions active.versionId deactivate
  | none => versions

/-- The ends of `_persist_new_version` and of `manual_edit_study_material`. -/
def createVersion (versions : List StudyMaterialVersion) (nodeId newId : ℕ)
    (basedOn generationRunId : Option ℕ) : List StudyMaterialVersion :=
  deactivated versions (getActiveVersion versions nodeId) ++
    [{ versionId := newId
       nodeId := nodeId
       versionNumber := getNextVersionNumber versions nodeId
       basedOnVersionId := basedOn
       generationRunId := generationRunId }]

/-- The end of `activate_study_material` and of `unarchive_study_material_version`: the version
takes the place of the active one. -/
def activateInstead (versions : List StudyMaterialVersion) (nodeId versionId : ℕ) :
    List StudyMaterialVersion :=
  let current := (getActiveVersion versions nodeId).filter fun v => v.versionId ≠ versionId
  updateVersion (deactivated versions current) versionId activate

/-- `publish_version`: the other published versions of the node are retired. -/
def publishVersion (versions : List StudyMaterialVersion) (nodeId versionId : ℕ)
    (retention : RetentionMode) : List StudyMaterialVersion :=
  updateVersion
    (versions.map fun v =>
      if v.nodeId = nodeId ∧ v.isPublished = true ∧ v.versionId ≠ versionId then v.retire retention
      else v)
    versionId transitionToActive

/-- A generation run, as the discard of its artifacts reads it; two ids are in its result. -/
structure GenerationRun where
  runId : ℕ
  nodeId : ℕ
  artifactRunId : Option ℕ := none
  generateVersionId : Option ℕ := none
  feedbackVersionId : Option ℕ := none
  deriving DecidableEq

/-- The versions that `discard_artifacts_for_generation_run` takes for the output of a run. -/
def GenerationRun.versionIds (run : GenerationRun) (versions : List StudyMaterialVersion) :
    List ℕ :=
  run.generateVersionId.toList ++ run.feedbackVersionId.toList ++
    (run.artifactRunId.toList ++ [run.runId]).flatMap fun id =>
      (listVersionsByGenerationRunId versions run.nodeId id).map StudyMaterialVersion.versionId

/-- `discard_versions_by_ids`. -/
def discardVersionsByIds (versions : List StudyMaterialVersion) (ids : List ℕ) :
    List StudyMaterialVersion :=
  versions.map fun v => if v.versionId ∈ ids ∧ v.OnDesk then v.transitionToDiscarded else v

/-- The version that `restore_working_draft_after_discard` activates. -/
def restoredVersion (versions : List StudyMaterialVersion) (nodeId : ℕ) (preferred : Option ℕ) :
    Option StudyMaterialVersion :=
  ((preferred.bind (getVersionById versions)).filter fun v => v.nodeId = nodeId ∧ v.OnDesk).or
    (getLatestWorkspaceDraft versions nodeId)

/-- `restore_working_draft_after_discard`. -/
def restoreWorkingDraftAfterDiscard (versions : List StudyMaterialVersion) (nodeId : ℕ)
    (preferred : Option ℕ) : List StudyMaterialVersion :=
  match restoredVersion versions nodeId preferred with
  | some v => updateVersion versions v.versionId activate
  | none => versions

/-- `discard_artifacts_for_generation_run`. -/
def discardArtifactsForGenerationRun (versions : List StudyMaterialVersion)
    (run : GenerationRun) : List StudyMaterialVersion :=
  let ids := run.versionIds versions
  if ids = [] then versions
  else
    let fallback := ((getActiveVersion versions run.nodeId).filter fun v => v.versionId ∈ ids).bind
      StudyMaterialVersion.basedOnVersionId
    restoreWorkingDraftAfterDiscard (discardVersionsByIds versions ids) run.nodeId fallback

/-- What `cascade_node_delete_content` does to a version of a node that is deleted. -/
def cascadeNodeDelete (v : StudyMaterialVersion) : StudyMaterialVersion :=
  if v.lifecycleStatus = .active ∧ v.isPublished = true then v.transitionToArchived
  else if v.lifecycleStatus = .hidden ∧ v.publishedAt = true then v.transitionToArchived
  else if v.lifecycleStatus = .draft ∨ v.lifecycleStatus = .hidden then v.transitionToDiscarded
  else v

/-- The requests on the study material of a node.  A generation and a feedback come with the id of
the version that they make; a clearing comes with the number of quizzes that block it. -/
inductive Request where
  | generate (nodeId runId newId : ℕ)
  | feedback (nodeId runId newId : ℕ)
  | manualEdit (nodeId newId : ℕ)
  | activate (nodeId versionId : ℕ)
  | archive (nodeId versionId : ℕ)
  | unarchive (nodeId versionId : ℕ)
  | publish (nodeId versionId : ℕ) (superseded : RetentionMode)
  | unpublish (nodeId versionId : ℕ) (retention : RetentionMode)
  | clearDrafts (nodeId blockingQuizzes : ℕ)
  | abandon (run : GenerationRun)
  | deleteNodes (nodeIds : List ℕ)

/-- The version of a node that a request names. -/
def target (versions : List StudyMaterialVersion) (nodeId versionId : ℕ) :
    Option StudyMaterialVersion :=
  (getVersionById versions versionId).filter fun v => v.nodeId = nodeId

/-- A request that is refused is no step. -/
def step (versions : List StudyMaterialVersion) : Request → Option (List StudyMaterialVersion)
  | .generate nodeId runId newId =>
    if newId ∈ versions.map StudyMaterialVersion.versionId then none
    else some (createVersion versions nodeId newId none (some runId))
  | .feedback nodeId runId newId =>
    if newId ∈ versions.map StudyMaterialVersion.versionId then none
    else (getActiveVersion versions nodeId).map fun active =>
      createVersion versions nodeId newId (some active.versionId) (some runId)
  | .manualEdit nodeId newId =>
    if newId ∈ versions.map StudyMaterialVersion.versionId then none
    else some (createVersion versions nodeId newId
      ((getActiveVersion versions nodeId).map StudyMaterialVersion.versionId) none)
  | .activate nodeId versionId =>
    (target versions nodeId versionId).map fun v =>
      activateInstead (if v.isArchived = true then updateVersion versions versionId unarchive
        else versions) nodeId versionId
  | .archive nodeId versionId =>
    (target versions nodeId versionId).bind fun v =>
      if v.isArchived = true ∨ v.isPublished = true ∨ v.lifecycleStatus ≠ .draft then none
      else some (updateVersion versions versionId archive)
  | .unarchive nodeId versionId =>
    (target versions nodeId versionId).bind fun v =>
      if v.isArchived = false ∨ v.lifecycleStatus = .archived then none
      else some (activateInstead (updateVersion versions versionId unarchive) nodeId versionId)
  | .publish nodeId versionId superseded =>
    (target versions nodeId versionId).bind fun v =>
      if v.isPublished = true then none
      else some (publishVersion versions nodeId versionId superseded)
  | .unpublish nodeId versionId retention =>
    (target versions nodeId versionId).bind fun v =>
      if v.isPublished = false then none
      else some (updateVersion versions versionId fun v => v.retire retention)
  | .clearDrafts nodeId blockingQuizzes =>
    if 0 < blockingQuizzes ∨ ∃ v ∈ versions, v.nodeId = nodeId ∧ v.TraineeLive then none
    else some (versions.map fun v =>
      if v.nodeId = nodeId ∧ v.MentorDiscardable then v.transitionToDiscarded else v)
  | .abandon run => some (discardArtifactsForGenerationRun versions run)
  | .deleteNodes nodeIds =>
    some (versions.map fun v =>
      if v.nodeId ∈ nodeIds ∧ v.lifecycleStatus ≠ .discarded then cascadeNodeDelete v else v)

/-! ## Working drafts -/

/-- No node has two working drafts, and what is on the shelf is not active. -/
structure Orderly (versions : List StudyMaterialVersion) : Prop where
  working : AtMostOne versionId Working nodeId versions
  shelved : ∀ v ∈ versions, v.isArchived = true → v.isActive = false

/-- A change of rows that makes no version a working draft. -/
theorem Orderly.map {f : StudyMaterialVersion → StudyMaterialVersion} (h : Orderly versions)
    (hid : ∀ v, (f v).versionId = v.versionId) (hnode : ∀ v, (f v).nodeId = v.nodeId)
    (hworking : ∀ v ∈ versions, (f v).Working → v.Working)
    (hshelved : ∀ v ∈ versions, (f v).isArchived = true → (f v).isActive = false) :
    Orderly (versions.map f) := by
  refine ⟨h.working.map hid hnode fun v hv hw => Or.inl (hworking v hv hw), ?_⟩
  intro w hw harchived
  obtain ⟨v, hv, rfl⟩ := List.mem_map.1 hw
  exact hshelved v hv harchived

/-- The same for the row of one version. -/
theorem Orderly.update {f : StudyMaterialVersion → StudyMaterialVersion}
    (h : Orderly versions) (k : ℕ) (hid : ∀ v, (f v).versionId = v.versionId)
    (hnode : ∀ v, (f v).nodeId = v.nodeId)
    (hworking : ∀ v ∈ versions, v.versionId = k → (f v).Working → v.Working)
    (hshelved : ∀ v ∈ versions, v.versionId = k → (f v).isArchived = true →
      (f v).isActive = false) : Orderly (updateVersion versions k f) := by
  refine ⟨h.working.update k hid hnode fun v hv hk hw => Or.inl (hworking v hv hk hw), ?_⟩
  intro w hw harchived
  rcases MarkedRows.mem_update hw with ⟨v, hv, hk, rfl⟩ | ⟨hold, -⟩
  · exact hshelved v hv hk harchived
  · exact h.shelved w hold harchived

/-- **A version is activated** if no other version of its node is the working draft. -/
theorem Orderly.activated (h : Orderly versions)
    (hdesk : ∀ v ∈ versions, v.versionId = k → v.isArchived = false)
    (halone : ∀ v ∈ versions, v.versionId = k → ∀ w ∈ versions, w.Working →
      w.nodeId = v.nodeId → w.versionId = k) : Orderly (updateVersion versions k activate) := by
  refine ⟨h.working.update k (fun _ => rfl) (fun _ => rfl) ?_, ?_⟩
  · exact fun v hv hk _ => Or.inr (halone v hv hk)
  · intro w hw harchived
    rcases MarkedRows.mem_update hw with ⟨v, hv, hk, rfl⟩ | ⟨hold, -⟩
    · exact absurd harchived (by simp [StudyMaterialVersion.activate, hdesk v hv hk])
    · exact h.shelved w hold harchived

theorem map_versionId_deactivated (versions : List StudyMaterialVersion)
    (active : Option StudyMaterialVersion) :
    (Material.deactivated versions active).map StudyMaterialVersion.versionId =
      versions.map StudyMaterialVersion.versionId := by
  cases active with
  | none => rfl
  | some a => exact MarkedRows.map_key_update fun _ => rfl

theorem Orderly.deactivated (h : Orderly versions) (active : Option StudyMaterialVersion) :
    Orderly (deactivated versions active) := by
  cases active with
  | none => exact h
  | some a =>
    refine h.update a.versionId (fun _ => rfl) (fun _ => rfl) ?_ fun _ _ _ _ => rfl
    exact fun v _ _ hw => absurd hw not_working_deactivate

/-- Where the active version is deactivated, unless it is spared, no other version of the node is
the working draft. -/
theorem Orderly.spared_of_working (h : Orderly versions) {p : StudyMaterialVersion → Bool}
    (hv : v ∈ Material.deactivated versions ((getActiveVersion versions n).filter p))
    (hw : v.Working) (hn : v.nodeId = n) : p v = false := by
  have hmem : v ∈ versions := by
    cases hactive : (getActiveVersion versions n).filter p with
    | none => rwa [hactive] at hv
    | some a =>
      rw [hactive] at hv
      rcases MarkedRows.mem_update hv with ⟨u, -, -, rfl⟩ | ⟨hold, -⟩
      · exact absurd hw not_working_deactivate
      · exact hold
  obtain ⟨a, ha⟩ := exists_getActiveVersion hmem hn hw
  obtain ⟨hamem, han, haw⟩ := getActiveVersion_eq_some ha
  obtain rfl : a = v := h.working.one a hamem v hmem haw hw (han.trans hn.symm)
  by_contra hp
  rw [ha, Option.filter_some, if_pos (by simpa using hp)] at hv
  rcases MarkedRows.mem_update hv with ⟨u, -, -, rfl⟩ | ⟨-, hother⟩
  · exact not_working_deactivate hw
  · exact hother rfl

theorem Orderly.createVersion (h : Orderly versions) {newId : ℕ}
    (hnew : newId ∉ versions.map StudyMaterialVersion.versionId) (basedOn runId : Option ℕ) :
    Orderly (createVersion versions n newId basedOn runId) := by
  have hdeactivated := h.deactivated (getActiveVersion versions n)
  have hids : (Material.deactivated versions (getActiveVersion versions n)).map
      StudyMaterialVersion.versionId = versions.map StudyMaterialVersion.versionId :=
    map_versionId_deactivated versions _
  refine ⟨hdeactivated.working.append (by rwa [hids]) ?_, ?_⟩
  · intro _ w hw hworking hnode
    have hall : (getActiveVersion versions n).filter (fun _ => true) =
        getActiveVersion versions n := by
      cases getActiveVersion versions n <;> rfl
    have hspared := h.spared_of_working (p := fun _ => true) (by rwa [hall]) hworking hnode
    exact absurd hspared (by simp)
  · intro w hw harchived
    rcases List.mem_append.1 hw with hold | hadded
    · exact hdeactivated.shelved w hold harchived
    · obtain rfl := List.mem_singleton.1 hadded
      exact absurd harchived (by simp)

/-- **A version takes the place of the working draft**, if it is not on the shelf. -/
theorem Orderly.activateInstead (h : Orderly versions)
    (hk : ∀ v ∈ versions, v.versionId = k → v.isArchived = false ∧ v.nodeId = n) :
    Orderly (activateInstead versions n k) := by
  have hfrom : ∀ v ∈ Material.deactivated versions
      ((getActiveVersion versions n).filter fun v => v.versionId ≠ k), v.versionId = k →
        v.isArchived = false ∧ v.nodeId = n := by
    intro v hv hid
    cases hactive : (getActiveVersion versions n).filter fun v => v.versionId ≠ k with
    | none =>
      rw [hactive] at hv
      exact hk v hv hid
    | some a =>
      rw [hactive] at hv
      rcases MarkedRows.mem_update hv with ⟨u, hu, -, rfl⟩ | ⟨hold, -⟩
      · exact hk u hu hid
      · exact hk v hold hid
  refine (h.deactivated _).activated (fun v hv hid => (hfrom v hv hid).1) ?_
  intro v hv hid w hw hworking hnode
  have hspared := h.spared_of_working hw hworking (hnode.trans (hfrom v hv hid).2)
  simpa using hspared

/-- **The publish of a version** that is no discarded working copy keeps the drafts apart. -/
theorem Orderly.publishVersion (h : Orderly versions) (retention : RetentionMode)
    (hk : ∀ v ∈ versions, v.versionId = k → v.nodeId = n)
    (hspares : ∀ v ∈ versions, v.versionId = k → v.lifecycleStatus = .discarded →
      v.isActive = true → v.isArchived = false →
      ∀ w ∈ versions, w.Working → w.nodeId = n → w.isPublished = true) :
    Orderly (publishVersion versions n k retention) := by
  have hretired : Orderly (versions.map fun v =>
      if v.nodeId = n ∧ v.isPublished = true ∧ v.versionId ≠ k then v.retire retention else v) := by
    refine h.map ?_ ?_ ?_ ?_
    · intro v
      split_ifs <;> simp
    · intro v
      split_ifs <;> simp
    · intro v _ hw
      split_ifs at hw
      · exact absurd hw (not_working_retire retention)
      · exact hw
    · intro v hv harchived
      split_ifs at harchived ⊢
      · simp
      · exact h.shelved v hv harchived
  have hsame : ∀ v ∈ versions.map (fun v =>
      if v.nodeId = n ∧ v.isPublished = true ∧ v.versionId ≠ k then v.retire retention else v),
      v.versionId = k ∨ v.Working → v ∈ versions ∧
        (v.nodeId = n → v.isPublished = true → v.versionId = k) := by
    intro v hv hcase
    obtain ⟨u, hu, rfl⟩ := List.mem_map.1 hv
    split_ifs at hcase ⊢ with hother
    · rcases hcase with hid | hw
      · exact absurd (by simpa using hid) hother.2.2
      · exact absurd hw (not_working_retire retention)
    · exact ⟨hu, fun hn hp => not_not.1 fun hne => hother ⟨hn, hp, hne⟩⟩
  refine ⟨hretired.working.update k (fun _ => rfl) (fun _ => rfl) ?_, ?_⟩
  · intro v hv hid hw
    have hv' := (hsame v hv (Or.inl hid)).1
    by_cases hdiscarded : v.lifecycleStatus = .discarded
    · refine Or.inr fun w hw' hworking hnode => ?_
      obtain ⟨hmem, hpublished⟩ := hsame w hw' (Or.inr hworking)
      have hn : w.nodeId = n := hnode.trans (hk v hv' hid)
      exact hpublished hn (hspares v hv' hid hdiscarded hw.1 hw.2.1 w hmem hworking hn)
    · exact Or.inl ⟨hw.1, hw.2.1, hdiscarded⟩
  · intro w hw harchived
    rcases MarkedRows.mem_update hw with ⟨v, hv, -, rfl⟩ | ⟨hold, -⟩
    · exact hretired.shelved v hv harchived
    · exact hretired.shelved w hold harchived

/-! ## Restoring a draft -/

theorem mem_discardVersionsByIds {ids : List ℕ} (hv : v ∈ discardVersionsByIds versions ids)
    (hdesk : v.OnDesk) : v ∈ versions ∧ v.versionId ∉ ids := by
  obtain ⟨u, hu, rfl⟩ := List.mem_map.1 hv
  split_ifs at hdesk ⊢ with hhit
  · exact absurd rfl hdesk.2
  · exact ⟨hu, fun hid => hhit ⟨hid, hdesk⟩⟩

theorem Orderly.discardWhere (h : Orderly versions) (p : StudyMaterialVersion → Prop)
    [DecidablePred p] :
    Orderly (versions.map fun v => if p v then v.transitionToDiscarded else v) := by
  refine h.map ?_ ?_ ?_ ?_
  · intro v
    split_ifs <;> rfl
  · intro v
    split_ifs <;> rfl
  · intro v _ hw
    split_ifs at hw
    · exact absurd hw not_working_discarded
    · exact hw
  · intro v hv harchived
    split_ifs at harchived ⊢
    · rfl
    · exact h.shelved v hv harchived

theorem Orderly.discardVersionsByIds (h : Orderly versions) (ids : List ℕ) :
    Orderly (discardVersionsByIds versions ids) :=
  h.discardWhere fun v => v.versionId ∈ ids ∧ v.OnDesk

theorem restoredVersion_cases {preferred : Option ℕ}
    (h : restoredVersion versions n preferred = some v) :
    v ∈ versions ∧ v.nodeId = n ∧ v.OnDesk ∧
      (preferred ≠ none ∨ getLatestWorkspaceDraft versions n = some v) := by
  rw [restoredVersion, Option.or_eq_some_iff] at h
  rcases h with hpreferred | ⟨-, hlatest⟩
  · rw [Option.filter_eq_some_iff, Option.bind_eq_some_iff] at hpreferred
    obtain ⟨⟨k, rfl, hfound⟩, hv⟩ := hpreferred
    obtain ⟨hn, hdesk⟩ : v.nodeId = n ∧ v.OnDesk := by simpa using hv
    exact ⟨(MarkedRows.mem_of_find hfound).1, hn, hdesk, Or.inl nofun⟩
  · obtain ⟨hmem, hn, -, hdesk⟩ := mem_of_getLatest hlatest
    exact ⟨hmem, hn, hdesk, Or.inr hlatest⟩

theorem Orderly.restore (h : Orderly versions) {preferred : Option ℕ}
    (halone : ∀ v, restoredVersion versions n preferred = some v → ∀ w ∈ versions, w.Working →
      w.nodeId = n → w.versionId = v.versionId) :
    Orderly (restoreWorkingDraftAfterDiscard versions n preferred) := by
  unfold restoreWorkingDraftAfterDiscard
  cases hrestored : restoredVersion versions n preferred with
  | none => exact h
  | some v =>
    obtain ⟨hmem, hn, hdesk, -⟩ := restoredVersion_cases hrestored
    have hsame : ∀ u ∈ versions, u.versionId = v.versionId → u = v :=
      fun u hu hid => h.working.eq_of_key hu hmem hid
    refine h.activated (fun u hu hid => ?_) fun u hu hid w hw hworking hnode => ?_
    · rw [hsame u hu hid]
      exact hdesk.1
    · rw [hsame u hu hid] at hnode
      exact halone v hrestored w hw hworking (hnode.trans hn)

/-- The newest draft after a discard is the newest of those that are not discarded. -/
theorem getLatest_discardVersionsByIds (ids : List ℕ) :
    getLatestWorkspaceDraft (discardVersionsByIds versions ids) n =
      getLatestWorkspaceDraft (versions.filter fun v => v.versionId ∉ ids) n := by
  unfold getLatestWorkspaceDraft
  congr 1
  induction versions with
  | nil => rfl
  | cons v rest ih =>
    rw [discardVersionsByIds, List.map_cons, ← discardVersionsByIds]
    by_cases hid : v.versionId ∈ ids
    · rw [List.filter_cons_of_neg (l := rest) (by simpa using hid), ← ih]
      refine List.filter_cons_of_neg ?_
      by_cases hdesk : v.OnDesk
      · rw [if_pos ⟨hid, hdesk⟩]
        simp [OnDesk, transitionToDiscarded]
      · simp [hdesk]
    · rw [List.filter_cons_of_pos (l := rest) (by simpa using hid), if_neg fun hhit => hid hhit.1,
        List.filter_cons, List.filter_cons, ih]

/-! ## Runs -/

/-- A discarded version that is still active is published only where no unpublished version of the
node is the working draft.  The artifacts of a run are discarded only where the working draft is
one of them, or where no draft is newer that the run has not made. -/
def Spares (versions : List StudyMaterialVersion) : Request → Prop
  | .publish nodeId versionId _ =>
    ∀ v ∈ versions, v.versionId = versionId → v.lifecycleStatus = .discarded →
      v.isActive = true → v.isArchived = false →
      ∀ w ∈ versions, w.Working → w.nodeId = nodeId → w.isPublished = true
  | .abandon run =>
    run.versionIds versions = [] ∨ ∀ w ∈ getActiveVersion versions run.nodeId,
      w.versionId ∈ run.versionIds versions ∨
      ∀ v ∈ getLatestWorkspaceDraft
        (versions.filter fun v => v.versionId ∉ run.versionIds versions) run.nodeId, v = w
  | _ => True

instance (versions : List StudyMaterialVersion) (r : Request) : Decidable (Spares versions r) := by
  cases r <;> dsimp only [Spares] <;> infer_instance

/-- **The discard of the artifacts of a run** keeps the drafts apart, if it spares them. -/
theorem Orderly.abandon (h : Orderly versions) {run : GenerationRun}
    (hspares : Spares versions (.abandon run)) :
    Orderly (discardArtifactsForGenerationRun versions run) := by
  unfold discardArtifactsForGenerationRun
  dsimp only
  split_ifs with hnone
  · exact h
  have hspares := hspares.resolve_left hnone
  refine (h.discardVersionsByIds _).restore ?_
  intro v hv w hw hworking hn
  obtain ⟨hmem, hkept⟩ := mem_discardVersionsByIds hw hworking.2
  obtain ⟨a, ha⟩ := exists_getActiveVersion hmem hn hworking
  obtain ⟨hamem, han, haw⟩ := getActiveVersion_eq_some ha
  obtain rfl : a = w := h.working.one a hamem w hmem haw hworking (han.trans hn.symm)
  have hfallback : (getActiveVersion versions run.nodeId).filter
      (fun v => v.versionId ∈ run.versionIds versions) = none := by
    rw [ha, Option.filter_some, if_neg (by simpa using hkept)]
  rw [hfallback, Option.bind_none] at hv
  have hlatest := (restoredVersion_cases hv).2.2.2.resolve_left (· rfl)
  rw [getLatest_discardVersionsByIds] at hlatest
  rw [(hspares a ha).resolve_left hkept v hlatest]

theorem Orderly.cascade (h : Orderly versions) (nodeIds : List ℕ) :
    Orderly (versions.map fun v =>
      if v.nodeId ∈ nodeIds ∧ v.lifecycleStatus ≠ .discarded then cascadeNodeDelete v else v) := by
  unfold cascadeNodeDelete
  refine h.map ?_ ?_ ?_ ?_
  · intro v
    split_ifs <;> rfl
  · intro v
    split_ifs <;> rfl
  · intro v _ hw
    split_ifs at hw
    · exact absurd hw.1 (by simp [transitionToArchived])
    · exact absurd hw.1 (by simp [transitionToArchived])
    · exact absurd hw not_working_discarded
    · exact hw
    · exact hw
  · intro v hv harchived
    split_ifs at harchived ⊢
    · rfl
    · rfl
    · rfl
    · exact h.shelved v hv harchived
    · exact h.shelved v hv harchived

theorem target_eq_some (h : target versions n k = some v) :
    v ∈ versions ∧ v.versionId = k ∧ v.nodeId = n := by
  rw [target, Option.filter_eq_some_iff] at h
  obtain ⟨hfound, hn⟩ := h
  obtain ⟨hmem, hid⟩ := MarkedRows.mem_of_find hfound
  exact ⟨hmem, hid, by simpa using hn⟩

/-- What is taken off the shelf is not active. -/
theorem Orderly.unarchive (h : Orderly versions) (hv : v ∈ versions) (hid : v.versionId = k)
    (harchived : v.isArchived = true) : Orderly (updateVersion versions k unarchive) := by
  refine h.update k (fun _ => rfl) (fun _ => rfl) ?_ fun u _ _ hshelf => absurd hshelf nofun
  intro u hu hk hw
  obtain rfl : u = v := h.working.eq_of_key hu hv (hk.trans hid.symm)
  exact absurd hw.1 (by simp [StudyMaterialVersion.unarchive, h.shelved u hu harchived])

theorem Orderly.activateUnarchived (h : Orderly versions) (hv : v ∈ versions)
    (hid : v.versionId = k) (hn : v.nodeId = n) (harchived : v.isArchived = true) :
    Orderly (Material.activateInstead
      (updateVersion versions k StudyMaterialVersion.unarchive) n k) := by
  refine (h.unarchive hv hid harchived).activateInstead fun u hu hk => ?_
  rcases MarkedRows.mem_update hu with ⟨u', hu', hk', rfl⟩ | ⟨-, hother⟩
  · obtain rfl : u' = v := h.working.eq_of_key hu' hv (hk'.trans hid.symm)
    exact ⟨rfl, hn⟩
  · exact absurd hk hother

/-- **One request keeps the drafts apart**, if it spares them. -/
theorem step_orderly {r : Request} (h : Orderly versions) (hspares : Spares versions r)
    (hstep : step versions r = some versions') : Orderly versions' := by
  cases r with
  | generate nodeId runId newId =>
    rw [step] at hstep
    split_ifs at hstep with hnew
    cases hstep
    exact h.createVersion hnew none (some runId)
  | feedback nodeId runId newId =>
    rw [step] at hstep
    split_ifs at hstep with hnew
    obtain ⟨active, -, rfl⟩ := Option.map_eq_some_iff.1 hstep
    exact h.createVersion hnew (some active.versionId) (some runId)
  | manualEdit nodeId newId =>
    rw [step] at hstep
    split_ifs at hstep with hnew
    cases hstep
    exact h.createVersion hnew _ none
  | activate nodeId versionId =>
    rw [step, Option.map_eq_some_iff] at hstep
    obtain ⟨v, htarget, rfl⟩ := hstep
    obtain ⟨hmem, hid, hn⟩ := target_eq_some htarget
    split_ifs with harchived
    · exact h.activateUnarchived hmem hid hn harchived
    · refine h.activateInstead fun u hu hk => ?_
      obtain rfl : u = v := h.working.eq_of_key hu hmem (hk.trans hid.symm)
      exact ⟨by simpa using harchived, hn⟩
  | archive nodeId versionId =>
    rw [step, Option.bind_eq_some_iff] at hstep
    obtain ⟨v, -, hrest⟩ := hstep
    split_ifs at hrest
    cases hrest
    refine h.update versionId (fun _ => rfl) (fun _ => rfl) ?_ fun _ _ _ _ => rfl
    exact fun u _ _ hw => absurd hw.1 (by simp [StudyMaterialVersion.archive])
  | unarchive nodeId versionId =>
    rw [step, Option.bind_eq_some_iff] at hstep
    obtain ⟨v, htarget, hrest⟩ := hstep
    split_ifs at hrest with hrefused
    cases hrest
    obtain ⟨hmem, hid, hn⟩ := target_eq_some htarget
    exact h.activateUnarchived hmem hid hn (by simpa using (not_or.1 hrefused).1)
  | publish nodeId versionId superseded =>
    rw [step, Option.bind_eq_some_iff] at hstep
    obtain ⟨v, htarget, hrest⟩ := hstep
    split_ifs at hrest
    cases hrest
    obtain ⟨hmem, hid, hn⟩ := target_eq_some htarget
    refine h.publishVersion superseded (fun u hu hk => ?_) hspares
    rwa [h.working.eq_of_key hu hmem (hk.trans hid.symm)]
  | unpublish nodeId versionId retention =>
    rw [step, Option.bind_eq_some_iff] at hstep
    obtain ⟨v, -, hrest⟩ := hstep
    split_ifs at hrest
    cases hrest
    refine h.update versionId (fun u => versionId_retire retention)
      (fun u => nodeId_retire retention) ?_ fun u _ _ _ => isActive_retire retention
    exact fun u _ _ hw => absurd hw (not_working_retire retention)
  | clearDrafts nodeId blockingQuizzes =>
    rw [step] at hstep
    split_ifs at hstep
    cases hstep
    exact h.discardWhere fun v => v.nodeId = nodeId ∧ v.MentorDiscardable
  | abandon run =>
    cases hstep
    exact h.abandon hspares
  | deleteNodes nodeIds =>
    cases hstep
    exact h.cascade nodeIds

/-- **No node has two working drafts**, in any run whose requests spare them. -/
theorem working_of_node_unique (h : Runs.Reachable step Spares Orderly versions) (n : ℕ) :
    (versions.filter fun v => v.nodeId = n ∧ v.Working).length ≤ 1 :=
  (h.invariant (fun _ hs => hs) fun _ _ _ hinv hspares hstep =>
    step_orderly hinv hspares hstep).working.length_le n

/-- A second draft is generated, the first is activated in its place, and the run of the second is
abandoned. -/
theorem working_after_abandon :
    ∃ versions, Runs.Reachable step Spares Orderly versions ∧ versions.length = 2 ∧
      (versions.filter fun v => v.nodeId = 0 ∧ v.Working).length ≤ 1 := by
  have hrun : Runs.run (fun s r => if Spares s r then step s r else none) []
      [.generate 0 10 1, .feedback 0 11 2, .abandon { runId := 11, nodeId := 0 }] = some _ := rfl
  have hreached : Runs.Reachable step Spares Orderly _ :=
    Runs.reachable_of_checked ⟨AtMostOne.nil, nofun⟩ hrun
  exact ⟨_, hreached, rfl, working_of_node_unique hreached 0⟩

/-- The mentor has gone back to the first of three drafts, and the run of the third is
abandoned. -/
theorem two_working_drafts :
    ∃ versions, Runs.Reachable step (fun _ _ => True) (fun s => s = []) versions ∧
      (versions.filter fun v => v.nodeId = 0 ∧ v.Working).length = 2 := by
  have hrun : Runs.run step []
      [.generate 0 10 1, .manualEdit 0 2, .feedback 0 11 3, .activate 0 1,
        .abandon { runId := 11, nodeId := 0 }] = some _ := rfl
  exact ⟨_, Runs.reachable_of_run rfl hrun, rfl⟩

end StudyAgent.Material
