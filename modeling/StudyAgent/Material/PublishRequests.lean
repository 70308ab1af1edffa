import StudyAgent.Base.ReadCommitted
import StudyAgent.Base.Runs
import StudyAgent.Material.Versions

/-!
# Requests to publish study material

A request to publish a version loads it, loads the version that is published, lists the others that
are, and retires those it has listed when it commits.  No row is locked before that.  A version that
a request still refers to is not loaded again, and a commit writes the columns that the request has
changed.

Main results:

* `Sound.commitPublish`, `Sound.retire` — what the commits keep.
* `one_published` — **a node has at most one published version, and the published versions are the
  active ones**, where a request that publishes a version is seen by every other that has listed.
-/

namespace StudyAgent.Material

open Lifecycle (RetentionMode)
open ReadCommitted (setColumn)
open StudyMaterialVersion

/-! ## Statements -/

/-- The row behind a flush of a version that was loaded and has been changed. -/
def flushed (loaded new stored : StudyMaterialVersion) : StudyMaterialVersion :=
  { stored with
    isActive := setColumn loaded.isActive new.isActive stored.isActive
    isPublished := setColumn loaded.isPublished new.isPublished stored.isPublished
    publishedAt := setColumn loaded.publishedAt new.publishedAt stored.publishedAt
    lifecycleStatus := setColumn loaded.lifecycleStatus new.lifecycleStatus stored.lifecycleStatus }

/-- `get_published_version`. -/
def getPublishedVersion (versions : List StudyMaterialVersion) (nodeId : ℕ) :
    Option StudyMaterialVersion :=
  (versions.filter fun v =>
    v.nodeId = nodeId ∧ v.isPublished = true ∧ v.lifecycleStatus ≠ .discarded).argmax
      StudyMaterialVersion.versionNumber

/-- The version that a session already refers to, or the row that a query has found. -/
def identityMapped (held : List StudyMaterialVersion) (v : StudyMaterialVersion) :
    StudyMaterialVersion :=
  (MarkedRows.find StudyMaterialVersion.versionId held v.versionId).getD v

/-- The rows that `unpublish_other_versions` finds. -/
def otherPublished (versions held : List StudyMaterialVersion) (nodeId exceptVersionId : ℕ) :
    List StudyMaterialVersion :=
  (versions.filter fun v =>
    v.nodeId = nodeId ∧ v.isPublished = true ∧ v.versionId ≠ exceptVersionId).map
      (identityMapped held)

/-- The versions that were listed are retired. -/
def retireListed (others : List StudyMaterialVersion) (retention : RetentionMode)
    (v : StudyMaterialVersion) : StudyMaterialVersion :=
  match MarkedRows.find StudyMaterialVersion.versionId others v.versionId with
  | some other => flushed other (other.retire retention) v
  | none => v

/-! ## Requests -/

/-- What a client is doing; the versions are those it has loaded. -/
inductive PublishPhase where
  | idle
  | publishing (target : StudyMaterialVersion) (superseded : RetentionMode)
  | replacing (target : StudyMaterialVersion) (previous : Option StudyMaterialVersion)
      (superseded : RetentionMode)
  | retiring (target : StudyMaterialVersion) (others : List StudyMaterialVersion)
      (superseded : RetentionMode)
  | unpublishing (version : StudyMaterialVersion) (retention : RetentionMode)
  | reconciling (nodeId : ℕ) (published : List StudyMaterialVersion)
  | reconciled (others : List StudyMaterialVersion)
  deriving DecidableEq

/-- The committed rows, and what each client is doing. -/
structure PublishSystem (S : Type) where
  versions : List StudyMaterialVersion
  phase : S → PublishPhase

inductive PublishEvent (S : Type) where
  | publish (s : S) (nodeId versionId : ℕ) (superseded : RetentionMode)
  | readPrevious (s : S)
  | listOthers (s : S)
  | commitPublish (s : S)
  | unpublish (s : S) (nodeId versionId : ℕ) (retention : RetentionMode)
  | commitUnpublish (s : S)
  | reconcile (s : S) (nodeId : ℕ)
  | listReconciled (s : S)
  | commitReconcile (s : S)
  | rollback (s : S)

variable {S : Type}

/-- A client goes on. -/
def PublishSystem.enter [DecidableEq S] (sys : PublishSystem S) (s : S) (phase : PublishPhase) :
    PublishSystem S :=
  { sys with phase := Function.update sys.phase s phase }

/-- A client has committed. -/
def PublishSystem.commit [DecidableEq S] (sys : PublishSystem S) (s : S)
    (f : StudyMaterialVersion → StudyMaterialVersion) : PublishSystem S where
  versions := sys.versions.map f
  phase := Function.update sys.phase s .idle

/-- The version that a request names. -/
def PublishSystem.load (sys : PublishSystem S) (nodeId versionId : ℕ) :
    Option StudyMaterialVersion :=
  (getVersionById sys.versions versionId).filter fun v => v.nodeId = nodeId

/-- One step; a request that is refused is none. -/
def PublishSystem.step [DecidableEq S] (sys : PublishSystem S) :
    PublishEvent S → Option (PublishSystem S)
  | .publish s nodeId versionId superseded =>
    (sys.load nodeId versionId).bind fun target =>
      if sys.phase s = .idle ∧ target.isPublished = false then
        some (sys.enter s (.publishing target superseded))
      else none
  | .readPrevious s =>
    match sys.phase s with
    | .publishing target superseded =>
      some (sys.enter s (.replacing target
        ((getPublishedVersion sys.versions target.nodeId).map (identityMapped [target]))
        superseded))
    | _ => none
  | .listOthers s =>
    match sys.phase s with
    | .replacing target previous superseded =>
      some (sys.enter s (.retiring target
        (otherPublished sys.versions previous.toList target.nodeId target.versionId) superseded))
    | _ => none
  | .commitPublish s =>
    match sys.phase s with
    | .retiring target others superseded =>
      some (sys.commit s fun v =>
        if v.versionId = target.versionId then flushed target target.transitionToActive v
        else retireListed others superseded v)
    | _ => none
  | .unpublish s nodeId versionId retention =>
    (sys.load nodeId versionId).bind fun version =>
      if sys.phase s = .idle ∧ version.isPublished = true then
        some (sys.enter s (.unpublishing version retention))
      else none
  | .commitUnpublish s =>
    match sys.phase s with
    | .unpublishing version retention => some (sys.commit s (retireListed [version] retention))
    | _ => none
  | .reconcile s nodeId =>
    if sys.phase s = .idle then
      some (sys.enter s (.reconciling nodeId
        (sys.versions.filter fun v => v.nodeId = nodeId ∧ v.isPublished = true)))
    else none
  | .listReconciled s =>
    match sys.phase s with
    | .reconciling nodeId published =>
      some (sys.enter s
        (match published.argmax StudyMaterialVersion.versionNumber with
        | some keeper =>
          if published.length ≤ 1 then .idle
          else .reconciled (otherPublished sys.versions published nodeId keeper.versionId)
        | none => .idle))
    | _ => none
  | .commitReconcile s =>
    match sys.phase s with
    | .reconciled others => some (sys.commit s (retireListed others .keepForReview))
    | _ => none
  | .rollback s => some (sys.enter s .idle)

/-- The flag and the stage of the life agree. -/
def StudyMaterialVersion.Consistent (v : StudyMaterialVersion) : Prop :=
  v.isPublished = true ↔ v.lifecycleStatus = .active

/-- No node has two published versions, and nobody is at work. -/
structure PublishSystem.Start (sys : PublishSystem S) : Prop where
  published : MarkedRows.AtMostOne StudyMaterialVersion.versionId
    (fun v => v.isPublished = true) StudyMaterialVersion.nodeId sys.versions
  consistent : ∀ v ∈ sys.versions, v.Consistent
  idle : ∀ s, sys.phase s = .idle

/-- The request that is about to publish. -/
def PublishPhase.retiring? : PublishPhase →
    Option (StudyMaterialVersion × List StudyMaterialVersion)
  | .retiring target others _ => some (target, others)
  | _ => none

/-- A version is published only where every other request on the node that has listed the versions
to retire has it among them, or publishes the same version. -/
def PublishSystem.Listed [DecidableEq S] (sys : PublishSystem S) : PublishEvent S → Prop
  | .commitPublish s => ∀ p ∈ (sys.phase s).retiring?, ∀ t, t ≠ s →
    ∀ p' ∈ (sys.phase t).retiring?, p'.1.nodeId = p.1.nodeId →
      p.1.versionId = p'.1.versionId ∨
        p.1.versionId ∈ p'.2.map StudyMaterialVersion.versionId
  | _ => True

instance [DecidableEq S] [Fintype S] (sys : PublishSystem S) : ∀ e, Decidable (sys.Listed e)
  | .commitPublish s =>
    inferInstanceAs (Decidable (∀ p ∈ (sys.phase s).retiring?, ∀ t, t ≠ s → ∀ p' ∈ _, _ → _ ∨ _))
  | .publish .. | .readPrevious _ | .listOthers _ | .unpublish .. | .commitUnpublish _
  | .reconcile .. | .listReconciled _ | .commitReconcile _ | .rollback _ => isTrue trivial

/-! ## Rows -/

section Rows

variable {v loaded : StudyMaterialVersion} {others held : List StudyMaterialVersion}
  {retention : RetentionMode}

/-- A version that was loaded while it was published. -/
def StudyMaterialVersion.LoadedLive (v : StudyMaterialVersion) : Prop :=
  v.isPublished = true ∧ v.Consistent

@[simp] theorem versionId_retireListed :
    (retireListed others retention v).versionId = v.versionId := by
  unfold retireListed
  split <;> rfl

@[simp] theorem nodeId_retireListed : (retireListed others retention v).nodeId = v.nodeId := by
  unfold retireListed
  split <;> rfl

@[simp] theorem versionId_identityMapped : (identityMapped held v).versionId = v.versionId := by
  unfold identityMapped
  cases hfound : MarkedRows.find StudyMaterialVersion.versionId held v.versionId with
  | none => rfl
  | some w => exact (MarkedRows.mem_of_find hfound).2

/-- Both columns are written when a hidden version is published. -/
theorem flushed_active (h : loaded.isPublished = false) (hconsistent : loaded.Consistent) :
    (flushed loaded loaded.transitionToActive v).isPublished = true ∧
      (flushed loaded loaded.transitionToActive v).lifecycleStatus = .active := by
  have hstage : loaded.lifecycleStatus ≠ .active := by
    intro hactive
    simp [hconsistent.2 hactive] at h
  simp [flushed, setColumn, transitionToActive, h, hstage.symm]

/-- Both columns are written when a live version is retired. -/
theorem flushed_retired (h : loaded.LoadedLive) :
    (flushed loaded (loaded.retire retention) v).isPublished = false ∧
      (flushed loaded (loaded.retire retention) v).lifecycleStatus ≠ .active := by
  have hstage : loaded.lifecycleStatus = .active := h.2.1 h.1
  cases retention <;>
    simp [flushed, setColumn, retire, transitionToArchived, transitionToHidden, h.1, hstage]

/-- **What a commit leaves of a row**: it is retired, or it was not listed. -/
theorem retireListed_cases (h : ∀ o ∈ others, o.LoadedLive) :
    ((retireListed others retention v).isPublished = false ∧
      (retireListed others retention v).lifecycleStatus ≠ .active) ∨
    (retireListed others retention v = v ∧
      v.versionId ∉ others.map StudyMaterialVersion.versionId) := by
  unfold retireListed
  cases hfound : MarkedRows.find StudyMaterialVersion.versionId others v.versionId with
  | some other => exact Or.inl (flushed_retired (h other (MarkedRows.mem_of_find hfound).1))
  | none =>
    refine Or.inr ⟨rfl, fun hmem => ?_⟩
    obtain ⟨o, ho, hid⟩ := List.mem_map.1 hmem
    rw [MarkedRows.find, List.find?_eq_none] at hfound
    exact hfound o ho (by simpa using hid)

theorem consistent_retireListed (h : ∀ o ∈ others, o.LoadedLive) (hv : v.Consistent) :
    (retireListed others retention v).Consistent := by
  rcases retireListed_cases h with ⟨hhidden, hstage⟩ | ⟨hsame, -⟩
  · refine iff_of_false ?_ hstage
    rw [hhidden]
    exact Bool.false_ne_true
  · rwa [hsame]

theorem published_of_retireListed (h : ∀ o ∈ others, o.LoadedLive)
    (hpublished : (retireListed others retention v).isPublished = true) :
    v.isPublished = true ∧ v.versionId ∉ others.map StudyMaterialVersion.versionId := by
  rcases retireListed_cases h with ⟨hhidden, -⟩ | ⟨hsame, hnot⟩
  · rw [hhidden] at hpublished
    cases hpublished
  · rw [hsame] at hpublished
    exact ⟨hpublished, hnot⟩

/-- The versions that are listed are live, in what has been loaded of them. -/
theorem live_otherPublished {versions : List StudyMaterialVersion} {nodeId exceptVersionId : ℕ}
    (hconsistent : ∀ v ∈ versions, v.Consistent)
    (hheld : ∀ w ∈ held, w.versionId = exceptVersionId ∨ w.LoadedLive) :
    ∀ o ∈ otherPublished versions held nodeId exceptVersionId, o.LoadedLive := by
  intro o ho
  obtain ⟨v, hv, rfl⟩ := List.mem_map.1 ho
  obtain ⟨hmem, hfilter⟩ := List.mem_filter.1 hv
  simp only [decide_eq_true_eq] at hfilter
  unfold identityMapped
  cases hfound : MarkedRows.find StudyMaterialVersion.versionId held v.versionId with
  | none => exact ⟨hfilter.2.1, hconsistent v hmem⟩
  | some w =>
    obtain ⟨hw, hid⟩ := MarkedRows.mem_of_find hfound
    refine (hheld w hw).resolve_left fun hexcept => ?_
    exact hfilter.2.2 (hid.symm.trans hexcept)

theorem mem_otherPublished {versions : List StudyMaterialVersion} {nodeId exceptVersionId : ℕ}
    (hv : v ∈ versions) (hnode : v.nodeId = nodeId) (hpublished : v.isPublished = true)
    (hne : v.versionId ≠ exceptVersionId) :
    v.versionId ∈ (otherPublished versions held nodeId exceptVersionId).map
      StudyMaterialVersion.versionId := by
  rw [otherPublished, List.map_map]
  refine List.mem_map.2 ⟨v, List.mem_filter.2 ⟨hv, ?_⟩, by simp⟩
  simpa using ⟨hnode, hpublished, hne⟩

end Rows

/-! ## The invariant -/

/-- What a client knows of the version that it is to publish. -/
structure Target (versions : List StudyMaterialVersion) (target : StudyMaterialVersion) : Prop where
  hidden : target.isPublished = false
  consistent : target.Consistent
  node : ∀ v ∈ versions, v.versionId = target.versionId → v.nodeId = target.nodeId

/-- What holds of a client. -/
def PublishPhase.Sound (versions : List StudyMaterialVersion) : PublishPhase → Prop
  | .idle => True
  | .publishing target _ => Target versions target
  | .replacing target previous _ => Target versions target ∧
      ∀ v ∈ previous, v.versionId = target.versionId ∨ v.LoadedLive
  | .retiring target others _ => Target versions target ∧ (∀ o ∈ others, o.LoadedLive) ∧
      ∀ v ∈ versions, v.nodeId = target.nodeId → v.isPublished = true →
        v.versionId = target.versionId ∨ v.versionId ∈ others.map StudyMaterialVersion.versionId
  | .unpublishing version _ => version.LoadedLive
  | .reconciling _ published => ∀ v ∈ published, v.LoadedLive
  | .reconciled others => ∀ v ∈ others, v.LoadedLive

structure Sound (sys : PublishSystem S) : Prop where
  published : MarkedRows.AtMostOne StudyMaterialVersion.versionId
    (fun v => v.isPublished = true) StudyMaterialVersion.nodeId sys.versions
  consistent : ∀ v ∈ sys.versions, v.Consistent
  phases : ∀ s, (sys.phase s).Sound sys.versions

theorem start_sound {sys : PublishSystem S} (h : sys.Start) : Sound sys where
  published := h.published
  consistent := h.consistent
  phases := fun s => by
    rw [h.idle s]
    trivial

theorem Target.map {versions : List StudyMaterialVersion} {target : StudyMaterialVersion}
    {f : StudyMaterialVersion → StudyMaterialVersion} (h : Target versions target)
    (hid : ∀ v, (f v).versionId = v.versionId) (hnode : ∀ v, (f v).nodeId = v.nodeId) :
    Target (versions.map f) target := by
  refine ⟨h.hidden, h.consistent, fun v' hv' heq => ?_⟩
  obtain ⟨v, hv, rfl⟩ := List.mem_map.1 hv'
  rw [hid] at heq
  rw [hnode]
  exact h.node v hv heq

/-- Rows change under a client; what is published by that it has listed, or publishes itself. -/
theorem PublishPhase.Sound.map {versions : List StudyMaterialVersion} {phase : PublishPhase}
    {f : StudyMaterialVersion → StudyMaterialVersion} (h : phase.Sound versions)
    (hid : ∀ v, (f v).versionId = v.versionId) (hnode : ∀ v, (f v).nodeId = v.nodeId)
    (hnew : ∀ v ∈ versions, (f v).isPublished = true → v.isPublished = true ∨
      ∀ p ∈ phase.retiring?, v.nodeId = p.1.nodeId → v.versionId = p.1.versionId ∨
        v.versionId ∈ p.2.map StudyMaterialVersion.versionId) :
    phase.Sound (versions.map f) := by
  cases phase with
  | idle => trivial
  | publishing target superseded => exact Target.map h hid hnode
  | replacing target previous superseded => exact ⟨h.1.map hid hnode, h.2⟩
  | retiring target others superseded =>
    refine ⟨h.1.map hid hnode, h.2.1, fun v' hv' hsame hpublished => ?_⟩
    obtain ⟨v, hv, rfl⟩ := List.mem_map.1 hv'
    rw [hnode] at hsame
    rw [hid]
    rcases hnew v hv hpublished with hold | hlisted
    · exact h.2.2 v hv hsame hold
    · exact hlisted _ rfl hsame
  | unpublishing version retention => exact h
  | reconciling nodeId published => exact h
  | reconciled others => exact h

/-! ## Steps -/

/-- The version that a request names is loaded. -/
theorem load_eq_some {sys : PublishSystem S} {nodeId versionId : ℕ} {v : StudyMaterialVersion}
    (h : sys.load nodeId versionId = some v) : v ∈ sys.versions := by
  obtain ⟨hfound, -⟩ := Option.filter_eq_some_iff.1 h
  exact (MarkedRows.mem_of_find hfound).1

section Steps

variable [DecidableEq S] {sys sys' : PublishSystem S} {s : S}

theorem Sound.enter (h : Sound sys) {phase : PublishPhase} (hphase : phase.Sound sys.versions) :
    Sound (sys.enter s phase) := by
  refine ⟨h.published, h.consistent, fun t => ?_⟩
  rw [PublishSystem.enter]
  dsimp only
  rw [Function.update_apply]
  split_ifs
  · exact hphase
  · exact h.phases t

/-- The committed rows change. -/
theorem Sound.commit (h : Sound sys) {f : StudyMaterialVersion → StudyMaterialVersion}
    (hid : ∀ v, (f v).versionId = v.versionId) (hnode : ∀ v, (f v).nodeId = v.nodeId)
    (hconsistent : ∀ v ∈ sys.versions, (f v).Consistent)
    (hone : ∀ v ∈ sys.versions, (f v).isPublished = true → v.isPublished = true ∨
      ∀ w ∈ sys.versions, (f w).isPublished = true → w.nodeId = v.nodeId → w = v)
    (hnew : ∀ v ∈ sys.versions, (f v).isPublished = true → v.isPublished = true ∨
      ∀ t, t ≠ s → ∀ p ∈ (sys.phase t).retiring?, v.nodeId = p.1.nodeId →
        v.versionId = p.1.versionId ∨ v.versionId ∈ p.2.map StudyMaterialVersion.versionId) :
    Sound (sys.commit s f) := by
  refine ⟨h.published.map hid hnode hone, fun v' hv' => ?_, fun t => ?_⟩
  · obtain ⟨v, hv, rfl⟩ := List.mem_map.1 hv'
    exact hconsistent v hv
  · rw [PublishSystem.commit]
    dsimp only
    rw [Function.update_apply]
    split_ifs with ht
    · trivial
    · exact (h.phases t).map hid hnode fun v hv hpublished =>
        (hnew v hv hpublished).imp id fun hlisted => hlisted t ht

/-- **Versions are retired.** -/
theorem Sound.retire (h : Sound sys) {others : List StudyMaterialVersion}
    (hlive : ∀ o ∈ others, o.LoadedLive) (retention : RetentionMode) :
    Sound (sys.commit s (retireListed others retention)) := by
  have hold : ∀ v ∈ sys.versions, (retireListed others retention v).isPublished = true →
      v.isPublished = true := fun v _ hpublished => (published_of_retireListed hlive hpublished).1
  refine h.commit (fun _ => versionId_retireListed) (fun _ => nodeId_retireListed) ?_ ?_ ?_
  · exact fun v hv => consistent_retireListed hlive (h.consistent v hv)
  · exact fun v hv hpublished => Or.inl (hold v hv hpublished)
  · exact fun v hv hpublished => Or.inl (hold v hv hpublished)

/-- **A version is published**, and those that were listed are retired. -/
theorem Sound.commitPublish (h : Sound sys) {target : StudyMaterialVersion}
    {others : List StudyMaterialVersion} {superseded : RetentionMode}
    (hphase : sys.phase s = .retiring target others superseded)
    (hlisted : sys.Listed (.commitPublish s)) :
    Sound (sys.commit s fun v =>
      if v.versionId = target.versionId then flushed target target.transitionToActive v
      else retireListed others superseded v) := by
  have hsession := h.phases s
  rw [hphase] at hsession
  obtain ⟨htarget, hlive, hcovered⟩ := hsession
  have hactive := fun v => flushed_active (v := v) htarget.hidden htarget.consistent
  -- a version that stays published was not listed, so it is of another node
  have hstays : ∀ v ∈ sys.versions, v.versionId ≠ target.versionId →
      (retireListed others superseded v).isPublished = true →
        v.isPublished = true ∧ v.nodeId ≠ target.nodeId := by
    intro v hv hne hpublished
    obtain ⟨hold, hnot⟩ := published_of_retireListed hlive hpublished
    exact ⟨hold, fun hsame => (hcovered v hv hsame hold).elim hne hnot⟩
  refine h.commit ?_ ?_ ?_ ?_ ?_
  · intro v
    split_ifs
    · rfl
    · exact versionId_retireListed
  · intro v
    split_ifs
    · rfl
    · exact nodeId_retireListed
  · intro v hv
    split_ifs
    · exact iff_of_true (hactive v).1 (hactive v).2
    · exact consistent_retireListed hlive (h.consistent v hv)
  · intro v hv hpublished
    split_ifs at hpublished with hid
    · refine Or.inr fun w hw hpublished' hsame => ?_
      split_ifs at hpublished' with hid'
      · exact h.published.eq_of_key hw hv (hid'.trans hid.symm)
      · refine absurd ?_ (hstays w hw hid' hpublished').2
        exact hsame.trans (htarget.node v hv hid)
    · exact Or.inl (hstays v hv hid hpublished).1
  · intro v hv hpublished
    split_ifs at hpublished with hid
    · refine Or.inr fun t ht p hp hsame => ?_
      rw [hid]
      refine hlisted (target, others) (by rw [hphase]; rfl) t ht p hp ?_
      rw [← hsame]
      exact htarget.node v hv hid
    · exact Or.inl (hstays v hv hid hpublished).1

theorem step_sound {e : PublishEvent S} (h : Sound sys) (hlisted : sys.Listed e)
    (hstep : sys.step e = some sys') : Sound sys' := by
  cases e with
  | publish s nodeId versionId superseded =>
    obtain ⟨target, hload, hrest⟩ := Option.bind_eq_some_iff.1 hstep
    split_ifs at hrest with hidle
    cases hrest
    have hmem := load_eq_some hload
    refine h.enter ⟨hidle.2, h.consistent target hmem, fun v hv hid => ?_⟩
    rw [h.published.eq_of_key hv hmem hid]
  | readPrevious s =>
    rw [PublishSystem.step] at hstep
    split at hstep
    · rename_i target superseded hphase
      cases hstep
      have htarget := h.phases s
      rw [hphase] at htarget
      refine h.enter ⟨htarget, fun v hv => ?_⟩
      obtain ⟨w, hw, rfl⟩ := Option.map_eq_some_iff.1 hv
      have hfound := List.argmax_mem (Option.mem_def.2 hw)
      obtain ⟨hmem, hfilter⟩ := List.mem_filter.1 hfound
      simp only [decide_eq_true_eq] at hfilter
      unfold identityMapped
      cases hheld : MarkedRows.find StudyMaterialVersion.versionId [target] w.versionId with
      | none => exact Or.inr ⟨hfilter.2.1, h.consistent w hmem⟩
      | some u =>
        obtain rfl := List.mem_singleton.1 (MarkedRows.mem_of_find hheld).1
        exact Or.inl rfl
    · cases hstep
  | listOthers s =>
    rw [PublishSystem.step] at hstep
    split at hstep
    · rename_i target previous superseded hphase
      cases hstep
      have hsession := h.phases s
      rw [hphase] at hsession
      refine h.enter ⟨hsession.1, ?_, fun v hv hsame hpublished => ?_⟩
      · refine live_otherPublished h.consistent fun w hw => ?_
        exact hsession.2 w (Option.mem_toList.1 hw)
      · by_cases hid : v.versionId = target.versionId
        · exact Or.inl hid
        · exact Or.inr (mem_otherPublished hv hsame hpublished hid)
    · cases hstep
  | commitPublish s =>
    rw [PublishSystem.step] at hstep
    split at hstep
    · rename_i target others superseded hphase
      cases hstep
      exact h.commitPublish hphase hlisted
    · cases hstep
  | unpublish s nodeId versionId retention =>
    obtain ⟨version, hload, hrest⟩ := Option.bind_eq_some_iff.1 hstep
    split_ifs at hrest with hidle
    cases hrest
    exact h.enter ⟨hidle.2, h.consistent version (load_eq_some hload)⟩
  | commitUnpublish s =>
    rw [PublishSystem.step] at hstep
    split at hstep
    · rename_i version retention hphase
      cases hstep
      have hlive := h.phases s
      rw [hphase] at hlive
      refine h.retire (fun o ho => ?_) retention
      rw [List.mem_singleton.1 ho]
      exact hlive
    · cases hstep
  | reconcile s nodeId =>
    rw [PublishSystem.step] at hstep
    split_ifs at hstep
    cases hstep
    refine h.enter fun v hv => ?_
    obtain ⟨hmem, hfilter⟩ := List.mem_filter.1 hv
    simp only [decide_eq_true_eq] at hfilter
    exact ⟨hfilter.2, h.consistent v hmem⟩
  | listReconciled s =>
    rw [PublishSystem.step] at hstep
    split at hstep
    · rename_i nodeId published hphase
      cases hstep
      have hlive := h.phases s
      rw [hphase] at hlive
      refine h.enter ?_
      split
      · split_ifs
        · trivial
        · exact live_otherPublished h.consistent fun w hw => Or.inr (hlive w hw)
      · trivial
    · cases hstep
  | commitReconcile s =>
    rw [PublishSystem.step] at hstep
    split at hstep
    · rename_i others hphase
      cases hstep
      have hlive := h.phases s
      rw [hphase] at hlive
      exact h.retire hlive .keepForReview
    · cases hstep
  | rollback s =>
    cases hstep
    exact h.enter trivial

/-- **A node has at most one published version, and the published versions are exactly the active
ones**, in every run of requests in which a version is published only where the others that have
listed will retire it. -/
theorem one_published (h : Runs.Reachable PublishSystem.step PublishSystem.Listed
    PublishSystem.Start sys) :
    (∀ nodeId, (sys.versions.filter fun v =>
      v.nodeId = nodeId ∧ v.isPublished = true).length ≤ 1) ∧
      ∀ v ∈ sys.versions, v.isPublished = true ↔ v.lifecycleStatus = .active := by
  have hinv : Sound sys :=
    h.invariant (fun _ hs => start_sound hs) fun _ _ _ hinv hlisted hstep =>
      step_sound hinv hlisted hstep
  exact ⟨fun nodeId => hinv.published.length_le nodeId, hinv.consistent⟩

end Steps

/-- Two drafts of one node, and two mentors. -/
def twoDrafts : PublishSystem Bool where
  versions := [{ versionId := 1, nodeId := 5, versionNumber := 1 },
    { versionId := 2, nodeId := 5, versionNumber := 2 }]
  phase := fun _ => .idle

theorem twoDrafts_start : twoDrafts.Start where
  published := ⟨by decide, by simp [twoDrafts]⟩
  consistent := by simp [twoDrafts, Consistent]
  idle := fun _ => rfl

/-- A client publishes a version, up to its commit. -/
def publishing (s : Bool) (versionId : ℕ) : List (PublishEvent Bool) :=
  [.publish s 5 versionId .keepForReview, .readPrevious s, .listOthers s]

/-- Version 1 is published, and then version 2. -/
theorem published_one_by_one :
    ∃ sys : PublishSystem Bool, Runs.Reachable PublishSystem.step PublishSystem.Listed
      PublishSystem.Start sys ∧
      (sys.versions.filter fun v => v.nodeId = 5 ∧ v.isPublished = true).map
        StudyMaterialVersion.versionId = [2] ∧
      ∀ nodeId, (sys.versions.filter fun v =>
        v.nodeId = nodeId ∧ v.isPublished = true).length ≤ 1 := by
  have hrun : Runs.run (fun sys e => if PublishSystem.Listed sys e then sys.step e else none)
      twoDrafts (publishing true 1 ++ [.commitPublish true] ++ publishing false 2 ++
        [.commitPublish false]) = some _ := rfl
  have hreached := Runs.reachable_of_checked twoDrafts_start hrun
  exact ⟨_, hreached, rfl, (one_published hreached).1⟩

/-- Both mentors list before either commits. -/
theorem both_published :
    ∃ sys : PublishSystem Bool, Runs.Reachable PublishSystem.step
      (fun _ _ => True) PublishSystem.Start sys ∧
      ¬ ∀ nodeId, (sys.versions.filter fun v =>
        v.nodeId = nodeId ∧ v.isPublished = true).length ≤ 1 := by
  have hrun : Runs.run PublishSystem.step twoDrafts (publishing true 1 ++ publishing false 2 ++
      [.commitPublish true, .commitPublish false]) = some _ := rfl
  refine ⟨_, Runs.reachable_of_run twoDrafts_start hrun, fun hone => ?_⟩
  exact absurd (hone 5) (by decide)

end StudyAgent.Material
