import StudyAgent.Base.Runs
import StudyAgent.Material.OneActive
import StudyAgent.Material.PublishRequests
import StudyAgent.Progress.NodeLaws

/-!
# Reading credit and the published version

The versions of the material of a node and the reading progress of the trainees.  A version that
is published in place of another resets what has been read; a version that is published while
none is live does not.

Main results:

* `publish_keeps_iff` — **what has been read stays the credit of the live version, exactly when
  the version that goes live alone was live last, or nothing has been read.**
* `credit_of_published` — **all credit of a reader comes from the version that is published**, in
  every run that publishes so.
-/

namespace StudyAgent.Progress

open Lifecycle (RetentionMode)
open Material (StudyMaterialVersion getPublishedVersion)
open Material.StudyMaterialVersion (versionId versionId_retire)

/-- The versions of the nodes and the rows of the trainees on one of them, with two records that
the service does not keep: for each trainee the versions that were live when progress was
credited since the last reset, and the version that was live last. -/
structure Readers (τ S : Type) where
  versions : List StudyMaterialVersion
  rows : τ → Option (Row S)
  credited : τ → List ℕ
  liveLast : Option ℕ

inductive ReaderEvent (τ : Type) where
  /-- `publish_study_material`. -/
  | publish (versionId : ℕ) (superseded : RetentionMode)
  /-- `unpublish_study_material`. -/
  | unpublish (versionId : ℕ) (retention : RetentionMode)
  /-- `update_study_material_progress`, with what it reads of the quiz. -/
  | read (t : τ) (readPercent : ℕ) (hasPublishedQuiz : Bool)
  deriving DecidableEq

variable {τ S : Type}

namespace Readers

/-- `reset_node_read_progress_for_all_trainees`. -/
def resetReadProgress (s : Readers τ S) : Readers τ S :=
  { s with
    rows := fun t => (s.rows t).map Row.resetRead
    credited := fun _ => [] }

/-- The version that `node_has_published_study_material` counts. -/
def published (s : Readers τ S) (nodeId : ℕ) : Option StudyMaterialVersion :=
  s.versions.find? fun v => v.nodeId = nodeId ∧ v.isPublished = true

/-- One request on a node; `none` where it is refused. -/
def step [DecidableEq τ] (nodeId : ℕ) (s : Readers τ S) : ReaderEvent τ → Option (Readers τ S)
  | .publish versionId superseded =>
    let isSupersede := (getPublishedVersion s.versions nodeId).any fun v => v.versionId ≠ versionId
    (Material.step s.versions (.publish nodeId versionId superseded)).map fun versions =>
      let live := { s with versions := versions, liveLast := some versionId }
      if isSupersede then live.resetReadProgress else live
  | .unpublish versionId retention =>
    (Material.step s.versions (.unpublish nodeId versionId retention)).map fun versions =>
      { s with versions := versions }
  | .read t readPercent hasPublishedQuiz =>
    (s.published nodeId).bind fun v =>
      if 100 < readPercent then none
      else if (s.rows t).any fun row => readPercent < row.studyMaterialReadPercent then none
      else
        some { s with
          rows := Function.update s.rows t
            (some (upsertNodeProgress (s.rows t) readPercent (readPercent = 100) hasPublishedQuiz))
          credited := Function.update s.credited t
            (if readPercent = 0 then s.credited t else v.versionId :: s.credited t) }

/-- Versions of which none is published, and nothing read. -/
structure Fresh (nodeId : ℕ) (s : Readers τ S) : Prop where
  ids : (s.versions.map versionId).Nodup
  unpublished : ∀ v ∈ s.versions, v.nodeId = nodeId → v.isPublished = false
  unread : ∀ t, ∀ row ∈ s.rows t,
    row.studyMaterialReadPercent = 0 ∧ row.studyMaterialCompleted = false
  credited : ∀ t, s.credited t = []

/-- A version that is published while none is live was live last, or nobody has read anything. -/
def Resumes (nodeId : ℕ) (s : Readers τ S) : ReaderEvent τ → Prop
  | .publish versionId _ =>
    getPublishedVersion s.versions nodeId = none → s.liveLast = some versionId ∨
      ∀ t, ∀ row ∈ s.rows t, row.studyMaterialReadPercent = 0
  | _ => True

instance [Fintype τ] {nodeId : ℕ} {s : Readers τ S} (e : ReaderEvent τ) :
    Decidable (s.Resumes nodeId e) :=
  match e with
  | .publish versionId _ => inferInstanceAs (Decidable (_ → s.liveLast = some versionId ∨ ∀ t,
      ∀ row ∈ s.rows t, row.studyMaterialReadPercent = 0))
  | .unpublish _ _ => isTrue trivial
  | .read _ _ _ => isTrue trivial

/-- The version that is live was live last, and all credit is its own. -/
structure Inv (nodeId : ℕ) (s : Readers τ S) : Prop where
  ids : (s.versions.map versionId).Nodup
  live : ∀ v ∈ s.versions, v.nodeId = nodeId → v.isPublished = true →
    s.liveLast = some v.versionId ∧ v.lifecycleStatus = .active
  ok : ∀ t, ∀ row ∈ s.rows t, row.Ok
  own : ∀ t, ∀ w ∈ s.credited t, s.liveLast = some w
  credited : ∀ t, s.credited t ≠ [] ↔ ∃ row ∈ s.rows t, 0 < row.studyMaterialReadPercent

theorem Fresh.inv {nodeId : ℕ} {s : Readers τ S} (h : s.Fresh nodeId) : s.Inv nodeId where
  ids := h.ids
  live v hv hn hp := by
    rw [h.unpublished v hv hn] at hp
    cases hp
  ok t row hrow hcompleted := by
    rw [(h.unread t row hrow).2] at hcompleted
    cases hcompleted
  own t w hw := by
    rw [h.credited t] at hw
    cases hw
  credited t := by
    refine iff_of_false (fun hsome => hsome (h.credited t)) ?_
    rintro ⟨row, hrow, hread⟩
    have := (h.unread t row hrow).1
    omega

section Publish

variable {nodeId k : ℕ} {s s' : Readers τ S} {superseded retention : RetentionMode}

/-- What a publish does to the versions of its node. -/
theorem published_of_publish {versions versions' : List StudyMaterialVersion}
    (hstep : Material.step versions (.publish nodeId k superseded) = some versions')
    (hids : (versions.map versionId).Nodup) :
    (versions'.map versionId).Nodup ∧
      (∀ v ∈ versions', v.nodeId = nodeId → v.isPublished = true →
        v.versionId = k ∧ v.lifecycleStatus = .active) ∧
      ∀ v ∈ versions, v.isPublished = true → v.versionId ≠ k := by
  obtain ⟨target, htarget, hrest⟩ := Option.bind_eq_some_iff.1 hstep
  split_ifs at hrest with hpublished
  cases hrest
  refine ⟨?_, ?_, ?_⟩
  · have hkey : ∀ v : StudyMaterialVersion, v.transitionToActive.versionId = v.versionId :=
      fun _ => rfl
    rw [Material.publishVersion, Material.updateVersion, MarkedRows.map_key_update hkey,
      List.map_map]
    have hsame : versionId ∘ (fun v : StudyMaterialVersion =>
        if v.nodeId = nodeId ∧ v.isPublished = true ∧ v.versionId ≠ k then v.retire superseded
        else v) = versionId := by
      funext v
      simp only [Function.comp_apply]
      split_ifs
      · exact versionId_retire superseded
      · rfl
    rwa [hsame]
  · intro v hv hnode hlive
    rcases MarkedRows.mem_update hv with ⟨u, -, hk, rfl⟩ | ⟨hold, hk⟩
    · exact ⟨hk, rfl⟩
    · obtain ⟨u, -, rfl⟩ := List.mem_map.1 hold
      split_ifs at hnode hlive hk with hretired
      · cases superseded <;> cases hlive
      · exact absurd ⟨hnode, hlive, hk⟩ hretired
  · rintro v hv hlive rfl
    obtain ⟨hfound, -⟩ := Option.filter_eq_some_iff.1 htarget
    obtain ⟨hmem, hid⟩ := MarkedRows.mem_of_find hfound
    have hsame := List.inj_on_of_nodup_map hids hmem hv hid
    exact hpublished (hsame ▸ hlive)

/-- What an unpublish does to them. -/
theorem published_of_unpublish {versions versions' : List StudyMaterialVersion}
    (hstep : Material.step versions (.unpublish nodeId k retention) = some versions') :
    versions'.map versionId = versions.map versionId ∧
      ∀ v ∈ versions', v.isPublished = true → v ∈ versions := by
  obtain ⟨target, -, hrest⟩ := Option.bind_eq_some_iff.1 hstep
  split_ifs at hrest
  cases hrest
  refine ⟨MarkedRows.map_key_update fun _ => versionId_retire retention, fun v hv hlive => ?_⟩
  rcases MarkedRows.mem_update hv with ⟨u, -, -, rfl⟩ | ⟨hold, -⟩
  · cases retention <;> cases hlive
  · exact hold

theorem mem_of_getPublishedVersion {versions : List StudyMaterialVersion}
    {v : StudyMaterialVersion} (h : getPublishedVersion versions nodeId = some v) :
    v ∈ versions ∧ v.nodeId = nodeId ∧ v.isPublished = true := by
  have hmem := List.argmax_mem h
  simp only [List.mem_filter, decide_eq_true_eq] at hmem
  exact ⟨hmem.1, hmem.2.1, hmem.2.2.1⟩

variable [DecidableEq τ]

/-- A publish in place of another version resets what has been read; a publish while none is live
leaves it. -/
theorem step_publish (h : s.Inv nodeId) (hstep : s.step nodeId (.publish k superseded) = some s') :
    ∃ versions', Material.step s.versions (.publish nodeId k superseded) = some versions' ∧
      s' = if getPublishedVersion s.versions nodeId = none then
          { s with versions := versions', liveLast := some k }
        else
          ({ s with versions := versions', liveLast := some k } : Readers τ S).resetReadProgress :=
      by
  obtain ⟨versions', hversions, rfl⟩ := Option.map_eq_some_iff.1 hstep
  refine ⟨versions', hversions, ?_⟩
  have hothers := (published_of_publish hversions h.ids).2.2
  cases hprevious : getPublishedVersion s.versions nodeId with
  | none => rfl
  | some v =>
    obtain ⟨hv, -, hlive⟩ := mem_of_getPublishedVersion hprevious
    simp [hothers v hv hlive]

omit [DecidableEq τ] in
/-- What has been reset is not credited. -/
theorem inv_resetReadProgress {versions' : List StudyMaterialVersion}
    (hids : (versions'.map versionId).Nodup)
    (hlive : ∀ v ∈ versions', v.nodeId = nodeId → v.isPublished = true →
      v.versionId = k ∧ v.lifecycleStatus = .active) :
    (({ s with versions := versions', liveLast := some k } : Readers τ S).resetReadProgress).Inv
      nodeId where
  ids := hids
  live v hv hnode hpublished := by
    obtain ⟨hk, hactive⟩ := hlive v hv hnode hpublished
    exact ⟨congrArg some hk.symm, hactive⟩
  ok t row hrow := by
    obtain ⟨old, -, rfl⟩ := Option.map_eq_some_iff.1 hrow
    exact resetRead_ok old
  own t w hw := nomatch hw
  credited t := by
    refine iff_of_false (fun hsome => hsome rfl) ?_
    rintro ⟨row, hrow, hread⟩
    obtain ⟨old, -, rfl⟩ := Option.map_eq_some_iff.1 hrow
    exact absurd hread (Nat.lt_irrefl 0)

/-- **What has been read stays the credit of the live version**, exactly when the publish resumes
the version that was live last, or nothing has been read. -/
theorem publish_keeps_iff (h : s.Inv nodeId)
    (hstep : s.step nodeId (.publish k superseded) = some s') :
    s'.Inv nodeId ↔ s.Resumes nodeId (.publish k superseded) := by
  obtain ⟨versions', hversions, rfl⟩ := step_publish h hstep
  obtain ⟨hids, hlive, -⟩ := published_of_publish hversions h.ids
  split_ifs with hnone
  · rw [Resumes, imp_iff_right hnone]
    constructor
    · intro hinv
      by_contra hbad
      obtain ⟨hlast, hread⟩ := not_or.1 hbad
      push Not at hread
      obtain ⟨t, row, hrow, hpercent⟩ := hread
      have hsome := (h.credited t).2 ⟨row, hrow, Nat.pos_of_ne_zero hpercent⟩
      obtain ⟨w, hw⟩ := List.exists_mem_of_ne_nil _ hsome
      have hk : some k = some w := hinv.own t w hw
      exact hlast ((h.own t w hw).trans hk.symm)
    · intro hresumes
      refine ⟨hids, fun v hv hnode hpublished => ?_, h.ok, fun t w hw => ?_, h.credited⟩
      · obtain ⟨hk, hactive⟩ := hlive v hv hnode hpublished
        exact ⟨congrArg some hk.symm, hactive⟩
      · rcases hresumes with hlast | hunread
        · exact hlast.symm.trans (h.own t w hw)
        · obtain ⟨row, hrow, hread⟩ := (h.credited t).1 (List.ne_nil_of_mem hw)
          have := hunread t row hrow
          omega
  · exact iff_of_true (inv_resetReadProgress hids hlive) fun hno => absurd hno hnone

end Publish

section Runs

variable [DecidableEq τ] {nodeId : ℕ} {s s' : Readers τ S}

/-- A reading is the credit of the version that is live. -/
theorem inv_read {t : τ} {readPercent : ℕ} {hasPublishedQuiz : Bool} (h : s.Inv nodeId)
    (hstep : s.step nodeId (.read t readPercent hasPublishedQuiz) = some s') : s'.Inv nodeId := by
  obtain ⟨v, hfound, hrest⟩ := Option.bind_eq_some_iff.1 hstep
  have hv := List.find?_some hfound
  rw [decide_eq_true_iff] at hv
  have hlast := (h.live v (List.mem_of_find?_eq_some hfound) hv.1 hv.2).1
  by_cases hrange : 100 < readPercent
  · rw [if_pos hrange] at hrest
    cases hrest
  by_cases hback : (s.rows t).any fun row => readPercent < row.studyMaterialReadPercent
  · rw [if_neg hrange, if_pos hback] at hrest
    cases hrest
  rw [if_neg hrange, if_neg hback] at hrest
  cases hrest
  have hgrows : ∀ row ∈ s.rows t, row.studyMaterialReadPercent ≤ readPercent := by
    intro row hrow
    by_contra hless
    apply hback
    rw [Option.mem_def.1 hrow, Option.any_some, decide_eq_true_iff]
    omega
  have hpercent : ∀ existing : Option (Row S), (upsertNodeProgress existing readPercent
      (readPercent = 100) hasPublishedQuiz).studyMaterialReadPercent = readPercent := by
    rintro (_ | _) <;> rfl
  refine ⟨h.ids, h.live, fun t' row hrow => ?_, fun t' w hw => ?_, fun t' => ?_⟩
  · by_cases ht : t' = t
    · subst ht
      simp only [Function.update_self, Option.mem_some_iff] at hrow
      exact hrow ▸ upsertNodeProgress_ok (h.ok t') hgrows
    · simp only [Function.update_of_ne ht] at hrow
      exact h.ok t' row hrow
  · by_cases ht : t' = t
    · subst ht
      simp only [Function.update_self] at hw
      split_ifs at hw with hzero
      · exact h.own t' w hw
      · rcases List.mem_cons.1 hw with rfl | hold
        · exact hlast
        · exact h.own t' w hold
    · simp only [Function.update_of_ne ht] at hw
      exact h.own t' w hw
  · by_cases ht : t' = t
    · subst ht
      simp only [Function.update_self, Option.mem_some_iff, exists_eq_left', hpercent]
      split_ifs with hzero
      · rw [h.credited t', hzero]
        refine iff_of_false ?_ (Nat.lt_irrefl 0)
        rintro ⟨row, hrow, hread⟩
        have := hgrows row hrow
        omega
      · exact iff_of_true (List.cons_ne_nil _ _) (Nat.pos_of_ne_zero hzero)
    · simp only [Function.update_of_ne ht]
      exact h.credited t'

/-- **A request keeps the credit with the live version** if a publish resumes it. -/
theorem inv_step {e : ReaderEvent τ} (h : s.Inv nodeId) (hresumes : s.Resumes nodeId e)
    (hstep : s.step nodeId e = some s') : s'.Inv nodeId := by
  cases e with
  | publish k superseded => exact (publish_keeps_iff h hstep).2 hresumes
  | unpublish k retention =>
    obtain ⟨versions', hversions, rfl⟩ := Option.map_eq_some_iff.1 hstep
    obtain ⟨hids, hold⟩ := published_of_unpublish hversions
    refine ⟨hids ▸ h.ids, fun v hv hnode hlive => ?_, h.ok, h.own, h.credited⟩
    exact h.live v (hold v hv hlive) hnode hlive
  | read t readPercent hasPublishedQuiz => exact inv_read h hstep

/-- **All credit of a reader comes from the version that is published**, where a version that is
published while none is live was live last, or nobody has read anything. -/
theorem credit_of_published
    (hreached : Runs.Reachable (step nodeId) (Resumes nodeId) (Fresh nodeId) s)
    {v : StudyMaterialVersion} (hv : v ∈ s.versions) (hnode : v.nodeId = nodeId)
    (hlive : v.isPublished = true) (t : τ) :
    (∀ w ∈ s.credited t, w = v.versionId) ∧
      ∀ row ∈ s.rows t,
        0 < row.studyMaterialReadPercent ∨ row.studyMaterialCompleted = true →
          v.versionId ∈ s.credited t := by
  have hinv : s.Inv nodeId :=
    hreached.invariant (fun _ h => h.inv) fun _ _ _ h hresumes hstep => inv_step h hresumes hstep
  have hlast := (hinv.live v hv hnode hlive).1
  have hown : ∀ w ∈ s.credited t, w = v.versionId := by
    intro w hw
    have hsame := (hinv.own t w hw).symm.trans hlast
    exact Option.some.inj hsame
  refine ⟨hown, fun row hrow hread => ?_⟩
  have hpercent : 0 < row.studyMaterialReadPercent := hread.elim id (hinv.ok t row hrow)
  obtain ⟨w, hw⟩ := List.exists_mem_of_ne_nil _ ((hinv.credited t).2 ⟨row, hrow, hpercent⟩)
  exact hown w hw ▸ hw

end Runs

end Readers

/-- Two versions of a node, neither of them published. -/
def twoVersions : Readers Unit ℕ where
  versions := [
    { versionId := 1, nodeId := 0, versionNumber := 1 },
    { versionId := 2, nodeId := 0, versionNumber := 2 }]
  rows _ := none
  credited _ := []
  liveLast := none

theorem twoVersions_fresh : twoVersions.Fresh 0 where
  ids := by decide
  unpublished := by decide
  unread _ _ := nofun
  credited _ := rfl

/-- A version is published, read to the end and taken back; then a version is published. -/
def readAndPublish (versionId : ℕ) : List (ReaderEvent Unit) :=
  [.publish 1 .keepForReview, .read () 100 false, .unpublish 1 .keepForReview,
    .publish versionId .keepForReview]

/-- The same version keeps its credit. -/
theorem credit_after_republish :
    ∃ s : Readers Unit ℕ,
      Runs.run (Readers.step 0) twoVersions (readAndPublish 1) = some s ∧
      s.credited () = [1] ∧ ∀ v ∈ s.versions, v.nodeId = 0 → v.isPublished = true →
        ∀ w ∈ s.credited (), w = v.versionId := by
  have hrun : Runs.run (fun s e => if s.Resumes 0 e then s.step 0 e else none) twoVersions
      (readAndPublish 1) = some _ := rfl
  have hreached : Runs.Reachable (Readers.step 0) (Readers.Resumes 0) (Readers.Fresh 0) _ :=
    Runs.reachable_of_checked twoVersions_fresh hrun
  refine ⟨_, rfl, rfl, fun v hv hnode hlive => ?_⟩
  exact (Readers.credit_of_published hreached hv hnode hlive ()).1

/-- Another version takes the credit over. -/
theorem credit_of_other_version :
    ¬ ∀ s : Readers Unit ℕ, Runs.Reachable (Readers.step 0) (fun _ _ => True) (Readers.Fresh 0) s →
      ∀ v ∈ s.versions, v.nodeId = 0 → v.isPublished = true →
        ∀ w ∈ s.credited (), w = v.versionId := by
  intro h
  have hrun : Runs.run (Readers.step 0) twoVersions (readAndPublish 2) = some _ := rfl
  have hbad := h _ (Runs.reachable_of_run twoVersions_fresh hrun)
  exact absurd hbad (by decide)

end StudyAgent.Progress
