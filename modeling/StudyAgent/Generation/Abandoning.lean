import StudyAgent.Generation.OneOutput

/-!
# Abandoning a run

A request to abandon a run of study material reads the run and checks its status, reads the
versions of the run, discards them and commits, restores a working draft and commits, and only then
asks in one `UPDATE` whether the run may be abandoned.  It does not look whether a version is live.

Main results:

* `Safe.mapVersions`, `Safe.setRun` — what a change of the versions or of a row has to respect.
* `abandoning_safe` — **an abandonment discards no live version and no output of a completed run,
  reports a refusal only before it has changed anything, and leaves no version of its run**, where
  the run is left alone while it is abandoned.
-/

namespace StudyAgent.Generation.Workers

open Material (StudyMaterialVersion listVersionsByGenerationRunId getActiveVersion)
open Material.StudyMaterialVersion

variable {S : Type}

/-! ## The condition -/

/-- The request still works on its run. -/
def AbandonStage.underway : AbandonStage → Bool
  | .reported | .refused => false
  | _ => true

/-- The run that a session is about to abandon. -/
def Phase.abandons : Phase → Option ℕ
  | .abandoning a stage => if stage.underway then some a.runId else none
  | _ => none

/-- A request to abandon the run is underway. -/
def System.Underway (sys : System S) (runId : ℕ) : Prop := ∃ s, (sys.phase s).abandons = some runId

instance [Fintype S] (sys : System S) (runId : ℕ) : Decidable (sys.Underway runId) :=
  inferInstanceAs (Decidable (∃ s, (sys.phase s).abandons = some runId))

/-- The run has not been abandoned. -/
def System.Live (sys : System S) (runId : ℕ) : Prop :=
  ∀ row ∈ sys.runs runId, row.status ≠ .abandoned

instance (sys : System S) (runId : ℕ) : Decidable (sys.Live runId) :=
  inferInstanceAs (Decidable (∀ row ∈ sys.runs runId, _))

/-- A request to abandon a run finds no live version of it.  While it is underway no version of the
run is published or inserted, and the run is neither completed nor superseded; an abandoned run gets
no version, none of its versions is published, and it is not resumed. -/
def Undisturbed (sys : System S) : Event S → Prop
  | .readAbandon _ runId _ =>
    ∀ v ∈ sys.versions, v.generationRunId = some runId → ¬ v.TraineeLive
  | .publish _ versionId _ => ∀ v ∈ sys.versions, v.versionId = versionId →
    ∀ runId ∈ v.generationRunId, ¬ sys.Underway runId ∧ sys.Live runId
  | .persist s _ _ => ∀ p ∈ (sys.phase s).worker?,
    ¬ sys.Underway p.2.job.runId ∧ sys.Live p.2.job.runId
  | .complete s _ => ∀ p ∈ (sys.phase s).worker?, ¬ sys.Underway p.2.job.runId
  | .start q _ _ _ _ => ∀ s, ∀ runId ∈ (sys.phase s).abandons, ∀ row ∈ sys.runs runId,
    (q.supersedeExisting && supersedable q.place row.toGenerationRun) = false
  | .resume s _ _ => ∀ runId ∈ (sys.phase s).resumed?, ∀ row ∈ sys.runs runId,
    row.status ∈ RESUMABLE_RUN_STATUSES
  | _ => True

instance [Fintype S] (sys : System S) : ∀ e, Decidable (Undisturbed sys e)
  | .readAbandon .. => inferInstanceAs (Decidable (∀ v ∈ sys.versions, _ → _))
  | .publish .. => inferInstanceAs (Decidable (∀ v ∈ sys.versions, _ → ∀ runId ∈ _, _ ∧ _))
  | .persist s .. => inferInstanceAs (Decidable (∀ p ∈ (sys.phase s).worker?, _ ∧ _))
  | .complete s .. => inferInstanceAs (Decidable (∀ p ∈ (sys.phase s).worker?, _))
  | .start .. => inferInstanceAs (Decidable (∀ _, ∀ runId ∈ _, ∀ row ∈ _, _))
  | .resume s .. => inferInstanceAs (Decidable (∀ runId ∈ (sys.phase s).resumed?, ∀ row ∈ _, _))
  | .deliver .. | .load _ | .lock _ | .giveUp _ | .settle .. | .list _ | .startGraph ..
  | .check _ | .checkpoint .. | .skip .. | .finalize _ | .vague _ | .store _ | .raise _
  | .readFail .. | .fail .. | .unlock _ | .endJob _ | .reconcile .. | .leave _ | .pause ..
  | .readResume .. | .clearResume .. | .sweep .. | .listOutput _ | .select _ | .discard _
  | .readRestore _ | .restore _ | .abandon .. => isTrue trivial

/-- An abandonment has to leave the version: it is live, or the output of a completed run. -/
def System.Protected (sys : System S) (v : StudyMaterialVersion) : Prop :=
  v.TraineeLive ∨ ∃ runId ∈ v.generationRunId, ∃ row ∈ sys.runs runId, row.status = .completed

/-! ## The invariant -/

/-- A version of the run has the id. -/
def OfRun (versions : List StudyMaterialVersion) (runId k : ℕ) : Prop :=
  ∃ v ∈ versions, v.versionId = k ∧ v.generationRunId = some runId

/-- Every version of the run is discarded. -/
def Gone (versions : List StudyMaterialVersion) (runId : ℕ) : Prop :=
  ∀ v ∈ versions, v.generationRunId = some runId → v.lifecycleStatus = .discarded

/-- What holds of a worker. -/
structure Works (sys : System S) (stage : Stage) (w : Worker) : Prop where
  row : ∃ row, sys.runs w.job.runId = some row ∧ row.place = w.run.place ∧
    row.nodeId = w.run.nodeId
  material : stage.ofMaterial = true → w.run.place.pipeline = .studyMaterial
  persisted : ∀ k, stage = .persisted k → OfRun sys.versions w.job.runId k

/-- What holds of a request to abandon a run. -/
structure Asks (sys : System S) (a : Abandonment) (stage : AbandonStage) : Prop where
  row : stage.underway = true → ∃ row, sys.runs a.runId = some row ∧ row.place = a.run.place ∧
    row.nodeId = a.run.nodeId ∧ (row.status ∈ ACTIVE_RUN_STATUSES ∨ row.status = .abandoned)
  hidden : stage.underway = true → ∀ v ∈ sys.versions, v.generationRunId = some a.runId →
    ¬ v.TraineeLive
  result : ∀ k, a.run.result = some (.version k) → OfRun sys.versions a.runId k
  chosen : ∀ ids fallback, stage = .listed ids fallback ∨ stage = .selected ids fallback →
    (∀ k ∈ ids, OfRun sys.versions a.runId k) ∧
    ∀ v ∈ sys.versions, v.generationRunId = some a.runId →
      v.lifecycleStatus = .discarded ∨ v.versionId ∈ ids
  gone : (∃ fallback, stage = .discarded fallback) ∨ (∃ k, stage = .restoring k) ∨ stage = .ready →
    Gone sys.versions a.runId
  refused : stage ≠ .refused

structure Safe (sys : System S) : Prop where
  keys : (sys.versions.map StudyMaterialVersion.versionId).Nodup
  published : ∀ v ∈ sys.versions, v.isPublished = true → v.lifecycleStatus = .active
  made : ∀ {v k}, v ∈ sys.versions → v.generationRunId = some k → v.isArchived = false ∧
    ∃ row, sys.runs k = some row ∧ v.nodeId = row.nodeId ∧ row.place.pipeline = .studyMaterial
  results : ∀ {j row k}, sys.runs j = some row → row.result = some (.version k) →
    OfRun sys.versions j k
  reported : ∀ k ∈ sys.abandoned, ∃ row, sys.runs k = some row ∧ row.status = .abandoned
  gone : ∀ {k row}, sys.runs k = some row → row.status = .abandoned → Gone sys.versions k
  works : ∀ {s stage w}, sys.phase s = .working stage w → Works sys stage w
  asks : ∀ {s a stage}, sys.phase s = .abandoning a stage → Asks sys a stage

variable {sys sys' : System S} {s t : S} {w w' : Worker} {stage stage' : Stage} {e : Event S}
  {a : Abandonment} {at' : AbandonStage} {k : ℕ} {row row' : WorkedRun}

theorem underway_of_phase (h : sys.phase s = .abandoning a at') (hat : at'.underway = true) :
    sys.Underway a.runId :=
  ⟨s, by rw [h, Phase.abandons, if_pos hat]⟩

theorem fresh_safe (h : Fresh sys) : Safe sys where
  keys := h.keys
  published := fun v hv => (h.versions v hv).2
  made := fun {v k} hv hk => by
    rw [(h.versions v hv).1] at hk
    cases hk
  results := fun {j row k} hrow => by
    rw [h.runs j] at hrow
    cases hrow
  reported := by
    rw [h.abandoned]
    simp
  gone := fun {k row} hrow => by
    rw [h.runs k] at hrow
    cases hrow
  works := fun {s stage w} hworking => by
    rw [h.idle s] at hworking
    cases hworking
  asks := fun {s a stage} hasks => by
    rw [h.idle s] at hasks
    cases hasks

/-! ## Changes of versions -/

/-- Locks, tokens and the log do not matter. -/
theorem Safe.of_same (h : Safe sys) (hruns : sys'.runs = sys.runs)
    (hversions : sys'.versions = sys.versions) (hphase : sys'.phase = sys.phase)
    (habandoned : sys'.abandoned = sys.abandoned) : Safe sys' := by
  obtain ⟨runs, ids, versions, held, phase, issued, written, abandoned⟩ := sys
  obtain ⟨runs', ids', versions', held', phase', issued', written', abandoned'⟩ := sys'
  cases hruns
  cases hversions
  cases hphase
  cases habandoned
  exact ⟨h.keys, h.published, h.made, h.results, h.reported, h.gone,
    fun hworking => ⟨(h.works hworking).row, (h.works hworking).material,
      (h.works hworking).persisted⟩,
    fun hphase => ⟨(h.asks hphase).row, (h.asks hphase).hidden, (h.asks hphase).result,
      (h.asks hphase).chosen, (h.asks hphase).gone, (h.asks hphase).refused⟩⟩

/-- A change of versions that keeps their tags. -/
structure Tags (f : StudyMaterialVersion → StudyMaterialVersion) : Prop where
  versionId : ∀ v, (f v).versionId = v.versionId
  nodeId : ∀ v, (f v).nodeId = v.nodeId
  run : ∀ v, (f v).generationRunId = v.generationRunId
  archived : ∀ v, (f v).isArchived = v.isArchived

theorem Tags.update {f : StudyMaterialVersion → StudyMaterialVersion} (h : Tags f) (k : ℕ) :
    Tags fun v => if v.versionId = k then f v else v := by
  constructor <;> intro v
  all_goals split_ifs
  · exact h.versionId v
  · rfl
  · exact h.nodeId v
  · rfl
  · exact h.run v
  · rfl
  · exact h.archived v
  · rfl

theorem tags_activate : Tags activate := ⟨fun _ => rfl, fun _ => rfl, fun _ => rfl, fun _ => rfl⟩

theorem tags_deactivate : Tags deactivate :=
  ⟨fun _ => rfl, fun _ => rfl, fun _ => rfl, fun _ => rfl⟩

theorem ofRun_map {versions : List StudyMaterialVersion}
    {f : StudyMaterialVersion → StudyMaterialVersion} (hf : Tags f) {j : ℕ}
    (h : OfRun versions j k) : OfRun (versions.map f) j k := by
  obtain ⟨v, hv, hid, hrun⟩ := h
  exact ⟨f v, List.mem_map_of_mem hv, (hf.versionId v).trans hid, (hf.run v).trans hrun⟩

/-- **The versions are changed**: none of a run that is abandoned or about to be becomes live or
is taken back from the discarded ones. -/
theorem Safe.mapVersions (h : Safe sys) {f : StudyMaterialVersion → StudyMaterialVersion}
    (hf : Tags f)
    (hpublished : ∀ v ∈ sys.versions, (f v).isPublished = true → (f v).lifecycleStatus = .active)
    (hlive : ∀ v ∈ sys.versions, (f v).TraineeLive → v.TraineeLive ∨
      ∀ k, v.generationRunId = some k → ¬ sys.Underway k)
    (hgone : ∀ v ∈ sys.versions, v.lifecycleStatus = .discarded →
    (f v).lifecycleStatus = .discarded ∨
      ∀ k, v.generationRunId = some k → ¬ sys.Underway k ∧ sys.Live k) :
    Safe (sys.setVersions (sys.versions.map f)) := by
  have hstays : ∀ {k}, (sys.Underway k ∨ ¬ sys.Live k) → Gone sys.versions k →
      Gone (sys.versions.map f) k := by
    intro k hk hold v' hv' hrun
    obtain ⟨v, hv, rfl⟩ := List.mem_map.1 hv'
    rw [hf.run] at hrun
    refine (hgone v hv (hold v hv hrun)).resolve_right fun hfree => ?_
    exact hk.elim (hfree k hrun).1 fun hdead => hdead (hfree k hrun).2
  refine ⟨?_, ?_, ?_, ?_, h.reported, ?_, ?_, ?_⟩
  · rw [versions_setVersions, List.map_map,
      show StudyMaterialVersion.versionId ∘ f = StudyMaterialVersion.versionId from
        funext hf.versionId]
    exact h.keys
  · intro v' hv'
    obtain ⟨v, hv, rfl⟩ := List.mem_map.1 hv'
    exact hpublished v hv
  · intro v' k hv' hk
    obtain ⟨v, hv, rfl⟩ := List.mem_map.1 hv'
    rw [hf.run] at hk
    rw [hf.archived, hf.nodeId]
    exact h.made hv hk
  · exact fun hrow hresult => ofRun_map hf (h.results hrow hresult)
  · intro k row hrow hstatus
    refine hstays (Or.inr fun hfree => ?_) (h.gone hrow hstatus)
    exact hfree row hrow hstatus
  · intro s stage w hworking
    have hworks := h.works hworking
    exact ⟨hworks.row, hworks.material, fun k hk => ofRun_map hf (hworks.persisted k hk)⟩
  · intro s a stage hphase
    have hasks := h.asks hphase
    have hunder := fun hstage => underway_of_phase (s := s) hphase hstage
    refine ⟨hasks.row, fun hstage v' hv' hrun => ?_, fun k hk => ofRun_map hf (hasks.result k hk),
      fun ids fallback hstage => ⟨fun k hk => ?_, fun v' hv' hrun => ?_⟩, fun hstage => ?_,
      hasks.refused⟩
    · obtain ⟨v, hv, rfl⟩ := List.mem_map.1 hv'
      rw [hf.run] at hrun
      refine fun hnow => (hlive v hv hnow).elim (hasks.hidden hstage v hv hrun) fun hfree => ?_
      exact hfree _ hrun (hunder hstage)
    · exact ofRun_map hf ((hasks.chosen ids fallback hstage).1 k hk)
    · obtain ⟨v, hv, rfl⟩ := List.mem_map.1 hv'
      rw [hf.run] at hrun
      rw [hf.versionId]
      refine ((hasks.chosen ids fallback hstage).2 v hv hrun).imp (fun hold => ?_) id
      refine (hgone v hv hold).resolve_right fun hfree => ?_
      exact (hfree _ hrun).1 (hunder (by rcases hstage with rfl | rfl <;> rfl))
    · refine hstays (Or.inl (hunder ?_)) (hasks.gone hstage)
      rcases hstage with ⟨_, rfl⟩ | ⟨_, rfl⟩ | rfl <;> rfl

/-- A version becomes the working draft, or stops being it. -/
theorem Safe.setActive (h : Safe sys) (k : ℕ) {f : StudyMaterialVersion → StudyMaterialVersion}
    (hf : Tags f) (hpublished : ∀ v, (f v).isPublished = v.isPublished)
    (hstatus : ∀ v, (f v).lifecycleStatus = v.lifecycleStatus) :
    Safe (sys.setVersions (Material.updateVersion sys.versions k f)) := by
  refine h.mapVersions (hf.update k) ?_ ?_ ?_
  · intro v hv hnow
    split_ifs at hnow ⊢
    · rw [hpublished] at hnow
      rw [hstatus]
      exact h.published v hv hnow
    · exact h.published v hv hnow
  · intro v _ hnow
    split_ifs at hnow
    · refine Or.inl ?_
      unfold TraineeLive at hnow ⊢
      rwa [hstatus, hpublished] at hnow
    · exact Or.inl hnow
  · intro v _ hold
    refine Or.inl ?_
    split_ifs
    · rwa [hstatus]
    · exact hold

/-- **A version is published** that is of no run that is abandoned or about to be. -/
theorem Safe.publishVersion (h : Safe sys) (nodeId versionId : ℕ)
    (retention : Lifecycle.RetentionMode)
    (hfree : ∀ v ∈ sys.versions, v.versionId = versionId →
      ∀ k, v.generationRunId = some k → ¬ sys.Underway k ∧ sys.Live k) :
    Safe (sys.setVersions (Material.publishVersion sys.versions nodeId versionId retention)) := by
  have htags : Tags fun v : StudyMaterialVersion => v.retire retention := by
    constructor <;> intro v <;> cases retention <;> rfl
  have hretired : Safe (sys.setVersions (sys.versions.map fun v =>
      if v.nodeId = nodeId ∧ v.isPublished = true ∧ v.versionId ≠ versionId then
        v.retire retention
      else v)) := by
    refine h.mapVersions ⟨?_, ?_, ?_, ?_⟩ ?_ ?_ ?_
    · intro v
      split_ifs
      · exact htags.versionId v
      · rfl
    · intro v
      split_ifs
      · exact htags.nodeId v
      · rfl
    · intro v
      split_ifs
      · exact htags.run v
      · rfl
    · intro v
      split_ifs
      · exact htags.archived v
      · rfl
    · intro v hv hnow
      split_ifs at hnow ⊢
      · cases retention <;> cases hnow
      · exact h.published v hv hnow
    · intro v _ hnow
      split_ifs at hnow
      · obtain ⟨-, hpublished⟩ := hnow
        cases retention <;> cases hpublished
      · exact Or.inl hnow
    · intro v hv hold
      split_ifs with hpublished
      · -- a discarded version is not published, so it is not retired
        rw [h.published v hv hpublished.2.1] at hold
        cases hold
      · exact Or.inl hold
  have hactive : Tags transitionToActive :=
    ⟨fun _ => rfl, fun _ => rfl, fun _ => rfl, fun _ => rfl⟩
  -- the row that is published is that of the version, retired or not
  have hmine : ∀ v ∈ (sys.setVersions (sys.versions.map fun v =>
      if v.nodeId = nodeId ∧ v.isPublished = true ∧ v.versionId ≠ versionId then
        v.retire retention
      else v)).versions, v.versionId = versionId → ∀ k, v.generationRunId = some k →
        ¬ sys.Underway k ∧ sys.Live k := by
    intro v hv hid k hk
    obtain ⟨u, hu, rfl⟩ := List.mem_map.1 hv
    split_ifs at hid hk
    · rw [htags.versionId] at hid
      rw [htags.run] at hk
      exact hfree u hu hid k hk
    · exact hfree u hu hid k hk
  refine hretired.mapVersions (hactive.update versionId) ?_ ?_ ?_
  · intro v hv hnow
    split_ifs at hnow ⊢
    · rfl
    · exact hretired.published v hv hnow
  · intro v hv hnow
    split_ifs at hnow with hid
    · exact Or.inr fun k hk => (hmine v hv hid k hk).1
    · exact Or.inl hnow
  · intro v hv hold
    split_ifs with hid
    · exact Or.inr (hmine v hv hid)
    · exact Or.inl hold

/-- **A version is inserted** for a run of study material that is not abandoned, nor about to
be. -/
theorem Safe.append (h : Safe sys) {v : StudyMaterialVersion} {j : ℕ}
    (hnew : v.versionId ∉ sys.versions.map StudyMaterialVersion.versionId)
    (hrun : v.generationRunId = some j) (hunpublished : v.isPublished = false)
    (hdesk : v.isArchived = false)
    (hrow : ∃ row, sys.runs j = some row ∧ v.nodeId = row.nodeId ∧
      row.place.pipeline = .studyMaterial)
    (hfree : ¬ sys.Underway j ∧ sys.Live j) : Safe (sys.setVersions (sys.versions ++ [v])) := by
  have hmono : ∀ {j k}, OfRun sys.versions j k → OfRun (sys.versions ++ [v]) j k := by
    rintro j k ⟨u, hu, hid, hof⟩
    exact ⟨u, List.mem_append_left _ hu, hid, hof⟩
  have hold : ∀ {u i}, u ∈ sys.versions ++ [v] → u.generationRunId = some i →
      (sys.Underway i ∨ ¬ sys.Live i) → u ∈ sys.versions := by
    intro u i hu hof hi
    rcases List.mem_append.1 hu with hmem | hlast
    · exact hmem
    · obtain rfl := List.mem_singleton.1 hlast
      rw [hrun] at hof
      cases hof
      exact hi.elim (fun hi => absurd hi hfree.1) fun hi => absurd hfree.2 hi
  refine ⟨?_, ?_, ?_, fun hk hresult => hmono (h.results hk hresult), h.reported, ?_, ?_, ?_⟩
  · rw [versions_setVersions, List.map_append, List.nodup_append]
    refine ⟨h.keys, List.nodup_singleton _, ?_⟩
    intro i hi i' hi' heq
    obtain rfl : i' = v.versionId := by simpa using hi'
    exact hnew (heq ▸ hi)
  · intro u hu hpublished
    rcases List.mem_append.1 hu with hmem | hlast
    · exact h.published u hmem hpublished
    · obtain rfl := List.mem_singleton.1 hlast
      rw [hunpublished] at hpublished
      cases hpublished
  · intro u i hu hof
    rcases List.mem_append.1 hu with hmem | hlast
    · exact h.made hmem hof
    · obtain rfl := List.mem_singleton.1 hlast
      rw [hrun] at hof
      cases hof
      exact ⟨hdesk, hrow⟩
  · intro i row hi hstatus u hu hof
    have hdead : ¬ sys.Live i := fun hlive => hlive row hi hstatus
    exact h.gone hi hstatus u (hold hu hof (Or.inr hdead)) hof
  · intro s stage w hworking
    have hworks := h.works hworking
    exact ⟨hworks.row, hworks.material, fun k hk => hmono (hworks.persisted k hk)⟩
  · intro s a stage hphase
    have hasks := h.asks hphase
    have hunder := fun hstage => underway_of_phase (s := s) hphase hstage
    refine ⟨hasks.row, fun hstage u hu hof => ?_, fun k hk => hmono (hasks.result k hk),
      fun ids fallback hstage => ⟨fun k hk => ?_, fun u hu hof => ?_⟩, fun hstage u hu hof => ?_,
      hasks.refused⟩
    · exact hasks.hidden hstage u (hold hu hof (Or.inl (hunder hstage))) hof
    · exact hmono ((hasks.chosen ids fallback hstage).1 k hk)
    · refine (hasks.chosen ids fallback hstage).2 u (hold hu hof (Or.inl (hunder ?_))) hof
      rcases hstage with rfl | rfl <;> rfl
    · refine hasks.gone hstage u (hold hu hof (Or.inl (hunder ?_))) hof
      rcases hstage with ⟨_, rfl⟩ | ⟨_, rfl⟩ | rfl <;> rfl

/-- **A worker inserts its version.** -/
theorem Safe.createVersion (h : Safe sys) (hworks : Works sys stage w)
    (hstage : stage.ofMaterial = true) {newId : ℕ}
    (hnew : newId ∉ sys.versions.map StudyMaterialVersion.versionId) (basedOn : Option ℕ)
    (hfree : ¬ sys.Underway w.job.runId ∧ sys.Live w.job.runId) :
    Safe (sys.setVersions (Material.createVersion sys.versions w.run.nodeId newId basedOn
      (some w.job.runId))) := by
  have hdeactivated : Safe (sys.setVersions (Material.deactivated sys.versions
      (getActiveVersion sys.versions w.run.nodeId))) := by
    cases getActiveVersion sys.versions w.run.nodeId with
    | none => exact h.of_same rfl rfl rfl rfl
    | some active => exact h.setActive active.versionId tags_deactivate (fun _ => rfl) fun _ => rfl
  obtain ⟨row, hrow, hplace, hnode⟩ := hworks.row
  refine hdeactivated.append (j := w.job.runId) ?_ rfl rfl rfl ?_ hfree
  · rwa [versions_setVersions, Material.map_versionId_deactivated]
  · exact ⟨row, hrow, hnode.symm, by rw [hplace]; exact hworks.material hstage⟩

/-! ## Changes of rows -/

/-- **A row is changed**: a result that is stored is a version of the run, an abandoned run stays
abandoned, and a run that is about to be abandoned stays so that it can be. -/
theorem Safe.setRun (h : Safe sys) (hrow : sys.runs k = some row) (hplace : row'.place = row.place)
    (hnode : row'.nodeId = row.nodeId)
    (hresult : ∀ i, row'.result = some (.version i) → OfRun sys.versions k i)
    (hgone : row'.status = .abandoned → Gone sys.versions k)
    (hkept : row.status = .abandoned → row'.status = .abandoned)
    (hactive : sys.Underway k → row'.status ∈ ACTIVE_RUN_STATUSES ∨ row'.status = .abandoned) :
    Safe (sys.setRun k row') := by
  have hrows : ∀ {j old}, sys.runs j = some old → ∃ new, (sys.setRun k row').runs j = some new ∧
      new.place = old.place ∧ new.nodeId = old.nodeId ∧
      (old.status = .abandoned → new.status = .abandoned) := by
    intro j old hold
    rw [runs_setRun]
    by_cases hj : j = k
    · subst hj
      rw [hrow] at hold
      cases hold
      exact ⟨row', by rw [if_pos rfl], hplace, hnode, hkept⟩
    · exact ⟨old, by rw [if_neg hj, hold], rfl, rfl, id⟩
  refine ⟨h.keys, h.published, fun hv hj => ?_, fun {j new i} hnew hi => ?_, fun j hj => ?_,
    fun {j new} hnew hstatus => ?_, fun hworking => ?_, fun {s a stage} hphase => ?_⟩
  · obtain ⟨hdesk, old, hold, hsame, hpipeline⟩ := h.made hv hj
    obtain ⟨new, hnew, hplace', hnode', -⟩ := hrows hold
    exact ⟨hdesk, new, hnew, hsame.trans hnode'.symm, by rwa [hplace']⟩
  · rw [runs_setRun] at hnew
    split_ifs at hnew with hj
    · cases hnew
      subst hj
      exact hresult i hi
    · exact h.results hnew hi
  · obtain ⟨old, hold, hstatus⟩ := h.reported j hj
    obtain ⟨new, hnew, -, -, hstays⟩ := hrows hold
    exact ⟨new, hnew, hstays hstatus⟩
  · rw [runs_setRun] at hnew
    split_ifs at hnew with hj
    · cases hnew
      subst hj
      exact hgone hstatus
    · exact h.gone hnew hstatus
  · have hworks := h.works hworking
    obtain ⟨old, hold, hplace', hnode'⟩ := hworks.row
    obtain ⟨new, hnew, hplace'', hnode'', -⟩ := hrows hold
    exact ⟨⟨new, hnew, hplace''.trans hplace', hnode''.trans hnode'⟩, hworks.material,
      hworks.persisted⟩
  · have hasks := h.asks hphase
    refine ⟨fun hstage => ?_, hasks.hidden, hasks.result, hasks.chosen, hasks.gone, hasks.refused⟩
    obtain ⟨old, hold, hplace', hnode', hstatus⟩ := hasks.row hstage
    obtain ⟨new, hnew, hplace'', hnode'', -⟩ := hrows hold
    refine ⟨new, hnew, hplace''.trans hplace', hnode''.trans hnode', ?_⟩
    rw [runs_setRun] at hnew
    split_ifs at hnew with hj
    · cases hnew
      exact hactive (hj ▸ underway_of_phase hphase hstage)
    · rw [hold] at hnew
      cases hnew
      exact hstatus

/-- A run that is about to be abandoned can be, or is abandoned already. -/
theorem Safe.abandonable (h : Safe sys) (hu : sys.Underway k) (hrow : sys.runs k = some row) :
    row.status ∈ ACTIVE_RUN_STATUSES ∨ row.status = .abandoned := by
  obtain ⟨s, hs⟩ := hu
  cases hphase : sys.phase s with
  | abandoning a stage =>
    rw [hphase, Phase.abandons] at hs
    split_ifs at hs with hstage
    cases hs
    obtain ⟨row', hrow', -, -, hstatus⟩ := (h.asks hphase).row hstage
    rw [hrow] at hrow'
    cases hrow'
    exact hstatus
  | _ =>
    rw [hphase] at hs
    cases hs

/-- A worker writes its row: the status becomes one that can still be abandoned, or nobody is about
to. -/
theorem Safe.writeRun (h : Safe sys) (w : Worker) (guard : WorkedRun → Bool)
    (f : WorkedRun → WorkedRun) (hplace : ∀ row, (f row).place = row.place)
    (hnode : ∀ row, (f row).nodeId = row.nodeId) (hresult : ∀ row, (f row).result = row.result)
    (hstatus : ∀ row, guard row = true → row.status ≠ .abandoned ∧ (f row).status ≠ .abandoned ∧
      (sys.Underway w.job.runId → (f row).status ∈ ACTIVE_RUN_STATUSES)) :
    Safe (sys.writeRun w guard f) := by
  rcases writeRun_cases sys w guard f with hsame | ⟨row, hrow, hmatch, hwrite⟩
  · rwa [hsame]
  · obtain ⟨hold, hnew, hunder⟩ := hstatus row hmatch
    have hset : Safe (sys.setRun w.job.runId (f row)) :=
      h.setRun hrow (hplace row) (hnode row)
        (fun i hi => h.results hrow ((hresult row).symm.trans hi)) (fun heq => absurd heq hnew)
        (fun heq => absurd heq hold) fun hu => Or.inl (hunder hu)
    rw [hwrite]
    exact ⟨hset.keys, hset.published, hset.made, hset.results, hset.reported, hset.gone,
      fun hworking => ⟨(hset.works hworking).row, (hset.works hworking).material,
        (hset.works hworking).persisted⟩,
      fun hphase => ⟨(hset.asks hphase).row, (hset.asks hphase).hidden, (hset.asks hphase).result,
        (hset.asks hphase).chosen, (hset.asks hphase).gone, (hset.asks hphase).refused⟩⟩

/-- A worker fails its run. -/
theorem Safe.failRun (h : Safe sys) (w : Worker) (guard : WorkedRun → Bool) (retryAt : Option ℕ)
    (now : ℕ) (hguard : ∀ row, guard row = true → row.status = .running) :
    Safe (sys.writeRun w guard fun row => row.change (.fail retryAt) now) := by
  refine h.writeRun w _ _ (fun _ => rfl) (fun _ => rfl) (fun _ => rfl) fun row hmatch => ?_
  simp [hguard row hmatch, WorkedRun.change, ChangeKind.apply, ACTIVE_RUN_STATUSES]

theorem Safe.storeResult (h : Safe sys) (w : Worker) {result : RunResult}
    (hresult : ∀ i, result = .version i → OfRun sys.versions w.job.runId i) :
    Safe (sys.storeResult w result) := by
  rcases storeResult_cases sys w result with hsame | ⟨row, hrow, hstore⟩
  · rwa [hsame]
  · rw [hstore]
    refine h.setRun hrow rfl rfl (fun i hi => ?_) (fun hstatus => ?_) id fun hu => ?_
    · cases hi
      exact hresult i rfl
    · have hold : row.status = .abandoned := hstatus
      exact h.gone hrow hold
    · have hstatus := h.abandonable hu hrow
      exact hstatus

theorem phase_writeRun (sys : System S) (w : Worker) (guard : WorkedRun → Bool)
    (f : WorkedRun → WorkedRun) : (sys.writeRun w guard f).phase = sys.phase := by
  rcases writeRun_cases sys w guard f with hsame | ⟨row, -, -, hwrite⟩
  · rw [hsame]
  · rw [hwrite]
    rfl

theorem phase_storeResult (sys : System S) (w : Worker) (result : RunResult) :
    (sys.storeResult w result).phase = sys.phase := by
  rcases storeResult_cases sys w result with hsame | ⟨row, -, hstore⟩
  · rw [hsame]
  · rw [hstore]
    rfl

/-- **A run is started**; a run that is superseded is not about to be abandoned. -/
theorem Safe.start (h : Safe sys) {q : StartRequest} {nodeId now : ℕ} {mode : GenerationMode}
    {choice : Option ℕ} (hcalm : Undisturbed sys (.start q nodeId mode now choice))
    (hstep : sys.start q nodeId mode now choice = some sys') : Safe sys' := by
  rw [System.start] at hstep
  split_ifs at hstep with hnew
  cases hstep
  have hold : ∀ {k row}, sys.runs k = some row → k ≠ q.runId := by
    rintro k row hrow rfl
    rw [hnew.1] at hrow
    cases hrow
  -- what becomes of a row that there was
  have hrows : ∀ {k row}, sys.runs k = some row → ∃ row',
      ((sys.supersede q now).setRun q.runId
        { newRun now q with nodeId := nodeId, mode := mode }).runs k = some row' ∧
      row'.place = row.place ∧ row'.nodeId = row.nodeId ∧
      (row.status = .abandoned → row'.status = .abandoned) ∧
      (sys.Underway k → row'.status = row.status) := by
    intro k row hrow
    refine ⟨if q.supersedeExisting && supersedable q.place row.toGenerationRun then
      { row with status := .superseded, updatedAt := now } else row, ?_, ?_, ?_, ?_, ?_⟩
    · rw [runs_setRun, if_neg (hold hrow)]
      simp [System.supersede, hrow]
    · split_ifs <;> rfl
    · split_ifs <;> rfl
    · intro habandoned
      have hkept : supersedable q.place row.toGenerationRun = false := by
        simp [supersedable, habandoned, RESUMABLE_RUN_STATUSES]
      simpa [hkept] using habandoned
    · rintro ⟨s, hs⟩
      rw [hcalm s k hs row hrow]
      rfl
  -- where a row comes from
  have hfrom : ∀ {k row'}, ((sys.supersede q now).setRun q.runId
      { newRun now q with nodeId := nodeId, mode := mode }).runs k = some row' →
      (row'.result = none ∧ row'.status = .running) ∨
      ∃ row, sys.runs k = some row ∧ row'.result = row.result ∧
        (row'.status = .abandoned → row.status = .abandoned) := by
    intro k row' hrow'
    rw [runs_setRun] at hrow'
    split_ifs at hrow' with hk
    · cases hrow'
      exact Or.inl ⟨rfl, rfl⟩
    · obtain ⟨row, hrow, rfl⟩ := Option.map_eq_some_iff.1 hrow'
      refine Or.inr ⟨row, hrow, ?_, ?_⟩
      · split_ifs <;> rfl
      · split_ifs
        · exact fun habandoned => by cases habandoned
        · exact id
  refine ⟨h.keys, h.published, fun hv hk => ?_, fun {j row' k} hrow' hresult => ?_, fun k hk => ?_,
    fun {k row'} hrow' hstatus => ?_, fun hworking => ?_, fun {s a stage} hphase => ?_⟩
  · obtain ⟨hdesk, row, hrow, hnode, hpipeline⟩ := h.made hv hk
    obtain ⟨row', hrow', hplace', hnode', -⟩ := hrows hrow
    exact ⟨hdesk, row', hrow', hnode.trans hnode'.symm, by rwa [hplace']⟩
  · rcases hfrom hrow' with ⟨hnone, -⟩ | ⟨row, hrow, hsame, -⟩
    · rw [hnone] at hresult
      cases hresult
    · exact h.results hrow (hsame.symm.trans hresult)
  · obtain ⟨row, hrow, hstatus⟩ := h.reported k hk
    obtain ⟨row', hrow', -, -, hstays, -⟩ := hrows hrow
    exact ⟨row', hrow', hstays hstatus⟩
  · rcases hfrom hrow' with ⟨-, hrunning⟩ | ⟨row, hrow, -, hback⟩
    · rw [hrunning] at hstatus
      cases hstatus
    · exact h.gone hrow (hback hstatus)
  · have hworks := h.works hworking
    obtain ⟨row, hrow, hplace, hnode⟩ := hworks.row
    obtain ⟨row', hrow', hplace', hnode', -⟩ := hrows hrow
    exact ⟨⟨row', hrow', hplace'.trans hplace, hnode'.trans hnode⟩, hworks.material,
      hworks.persisted⟩
  · have hasks := h.asks hphase
    refine ⟨fun hstage => ?_, hasks.hidden, hasks.result, hasks.chosen, hasks.gone, hasks.refused⟩
    obtain ⟨row, hrow, hplace, hnode, hstatus⟩ := hasks.row hstage
    obtain ⟨row', hrow', hplace', hnode', -, hsame⟩ := hrows hrow
    refine ⟨row', hrow', hplace'.trans hplace, hnode'.trans hnode, ?_⟩
    rwa [hsame (underway_of_phase hphase hstage)]

/-- A run is reported abandoned. -/
theorem Safe.report (h : Safe sys) (hrow : sys.runs k = some row)
    (hstatus : row.status = .abandoned) :
    Safe { sys with abandoned := k :: sys.abandoned } := by
  refine ⟨h.keys, h.published, h.made, h.results, fun j hj => ?_, h.gone,
    fun hworking => ⟨(h.works hworking).row, (h.works hworking).material,
      (h.works hworking).persisted⟩,
    fun hphase => ⟨(h.asks hphase).row, (h.asks hphase).hidden, (h.asks hphase).result,
      (h.asks hphase).chosen, (h.asks hphase).gone, (h.asks hphase).refused⟩⟩
  rcases List.mem_cons.1 hj with rfl | hmem
  · exact ⟨row, hrow, hstatus⟩
  · exact h.reported j hmem

theorem Works.advance (h : Works sys stage w)
    (hmaterial : stage'.ofMaterial = true → w.run.place.pipeline = .studyMaterial)
    (hpersisted : ∀ k, stage' = .persisted k → OfRun sys.versions w.job.runId k) :
    Works sys stage' w := ⟨h.row, hmaterial, hpersisted⟩

/-- A worker comes to a stage of every pipeline. -/
theorem Works.plain (h : Works sys stage w) (hstage : stage'.ofMaterial = false) :
    Works sys stage' w := by
  refine h.advance (fun hmaterial => ?_) ?_
  · rw [hstage] at hmaterial
    cases hmaterial
  · rintro k rfl
    cases hstage

theorem Works.reread {fresh : Bool} (h : Works sys stage w) (hstage : stage.ofMaterial = false)
    (hread : sys.reread w fresh = some w') : Works sys stage w' := by
  rcases reread_cases hread with rfl | ⟨-, row, hrow, rfl⟩
  · exact h
  · refine ⟨⟨row, hrow, rfl, rfl⟩, fun hmaterial => ?_, ?_⟩
    · rw [hstage] at hmaterial
      cases hmaterial
    · rintro k rfl
      cases hstage

/-- **The versions of a run are listed**: those of its result and those that it has tagged. -/
theorem Safe.mem_versionIds (h : Safe sys) (hphase : sys.phase s = .abandoning a .checked) :
    (∀ i ∈ (a.run.toMaterial a.runId).versionIds sys.versions, OfRun sys.versions a.runId i) ∧
      ∀ v ∈ sys.versions, v.generationRunId = some a.runId → v.lifecycleStatus = .discarded ∨
        v.versionId ∈ (a.run.toMaterial a.runId).versionIds sys.versions := by
  have hasks := h.asks hphase
  have hlisted : ∀ v, v ∈ listVersionsByGenerationRunId sys.versions a.run.nodeId a.runId ↔
      v ∈ sys.versions ∧ v.nodeId = a.run.nodeId ∧ v.generationRunId = some a.runId ∧
        v.lifecycleStatus ≠ .discarded := by
    intro v
    rw [listVersionsByGenerationRunId, List.mem_filter, decide_eq_true_eq]
  have hids : (a.run.toMaterial a.runId).versionIds sys.versions =
      (a.run.toMaterial a.runId).generateVersionId.toList ++
        (a.run.toMaterial a.runId).feedbackVersionId.toList ++
        (listVersionsByGenerationRunId sys.versions a.run.nodeId a.runId).map
          StudyMaterialVersion.versionId := by
    simp [Material.GenerationRun.versionIds, WorkedRun.toMaterial]
  refine ⟨fun i hi => ?_, fun v hv hrun => ?_⟩
  · rw [hids, List.mem_append, List.mem_append] at hi
    rcases hi with (hgenerated | himproved) | htagged
    · obtain ⟨result, hresult, hi⟩ := Option.bind_eq_some_iff.1 (Option.mem_toList.1 hgenerated)
      cases result with
      | vague => cases hi
      | version j =>
        dsimp only at hi
        split_ifs at hi
        cases hi
        exact hasks.result i hresult
    · obtain ⟨result, hresult, hi⟩ := Option.bind_eq_some_iff.1 (Option.mem_toList.1 himproved)
      cases result with
      | vague => cases hi
      | version j =>
        dsimp only at hi
        split_ifs at hi
        cases hi
        exact hasks.result i hresult
    · obtain ⟨v, hv, rfl⟩ := List.mem_map.1 htagged
      obtain ⟨hmem, -, hrun, -⟩ := (hlisted v).1 hv
      exact ⟨v, hmem, rfl, hrun⟩
  · by_cases hdiscarded : v.lifecycleStatus = .discarded
    · exact Or.inl hdiscarded
    · obtain ⟨-, row, hrow, hnode, -⟩ := h.made hv hrun
      obtain ⟨row', hrow', -, hnode', -⟩ := hasks.row rfl
      rw [hrow] at hrow'
      cases hrow'
      refine Or.inr ?_
      rw [hids]
      exact List.mem_append_right _
        (List.mem_map_of_mem ((hlisted v).2 ⟨hv, hnode.trans hnode', hrun, hdiscarded⟩))

/-- A request to abandon goes on, and remembers what it has changed. -/
theorem Asks.advance (h : Asks sys a at') {at'' : AbandonStage} {changed : List ℕ}
    (hunderway : at''.underway = true → at'.underway = true)
    (hchosen : ∀ ids fallback, at'' = .listed ids fallback ∨ at'' = .selected ids fallback →
      (∀ k ∈ ids, OfRun sys.versions a.runId k) ∧
      ∀ v ∈ sys.versions, v.generationRunId = some a.runId →
        v.lifecycleStatus = .discarded ∨ v.versionId ∈ ids)
    (hgone : (∃ fallback, at'' = .discarded fallback) ∨ (∃ k, at'' = .restoring k) ∨ at'' = .ready →
      Gone sys.versions a.runId)
    (hrefused : at'' ≠ .refused) : Asks sys { a with changed := changed } at'' where
  row := fun hstage => h.row (hunderway hstage)
  hidden := fun hstage => h.hidden (hunderway hstage)
  result := h.result
  chosen := hchosen
  gone := hgone
  refused := hrefused

/-- The versions that were selected are hidden, and of a run that is not completed. -/
theorem Safe.not_protected (h : Safe sys) {ids : List ℕ} {fallback : Option ℕ}
    (hphase : sys.phase s = .abandoning a (.selected ids fallback)) {v : StudyMaterialVersion}
    (hv : v ∈ sys.versions) (hid : v.versionId ∈ ids) : ¬ sys.Protected v := by
  have hasks := h.asks hphase
  obtain ⟨u, hu, hsame, hrun⟩ := (hasks.chosen ids fallback (Or.inr rfl)).1 _ hid
  obtain rfl : u = v := List.inj_on_of_nodup_map h.keys hu hv hsame
  obtain ⟨row, hrow, -, -, hstatus⟩ := hasks.row rfl
  rintro (hlive | ⟨runId, hof, row', hrow', hcompleted⟩)
  · exact hasks.hidden rfl u hv hrun hlive
  · rw [hrun] at hof
    cases hof
    rw [hrow] at hrow'
    cases hrow'
    rw [hcompleted] at hstatus
    simp [ACTIVE_RUN_STATUSES] at hstatus

/-- A request to abandon reports. -/
theorem Asks.report (h : Asks sys a at') : Asks sys a .reported where
  row := by simp [AbandonStage.underway]
  hidden := by simp [AbandonStage.underway]
  result := h.result
  chosen := by simp
  gone := by simp
  refused := by simp

section Steps

variable [DecidableEq S]

/-- A session goes on. -/
theorem Safe.enter (h : Safe sys) {phase : Phase}
    (hworks : ∀ {stage w}, phase = .working stage w → Works sys stage w)
    (hasks : ∀ {a stage}, phase = .abandoning a stage → Asks sys a stage) :
    Safe (sys.enter s phase) := by
  refine ⟨h.keys, h.published, h.made, h.results, h.reported, h.gone,
    fun {t stage w} hworking => ?_, fun {t a stage} habandoning => ?_⟩
  · have hold : Works sys stage w := by
      rw [phase_enter] at hworking
      split_ifs at hworking
      · exact hworks hworking
      · exact h.works hworking
    exact ⟨hold.row, hold.material, hold.persisted⟩
  · have hold : Asks sys a stage := by
      rw [phase_enter] at habandoning
      split_ifs at habandoning
      · exact hasks habandoning
      · exact h.asks habandoning
    exact ⟨hold.row, hold.hidden, hold.result, hold.chosen, hold.gone, hold.refused⟩

/-- A worker goes on. -/
theorem Safe.working (h : Safe sys) (hworks : Works sys stage w) :
    Safe (sys.enter s (.working stage w)) := by
  refine h.enter (fun heq => ?_) fun heq => by cases heq
  cases heq
  exact hworks

/-- A request to abandon goes on. -/
theorem Safe.abandoning (h : Safe sys) (hasks : Asks sys a at') :
    Safe (sys.enter s (.abandoning a at')) := by
  refine h.enter (fun heq => by cases heq) fun heq => ?_
  cases heq
  exact hasks

/-- A session goes on to a phase with no worker and no abandonment. -/
theorem Safe.stopped (h : Safe sys) {phase : Phase} (hworking : ∀ stage w, phase ≠ .working stage w)
    (habandoning : ∀ a stage, phase ≠ .abandoning a stage) : Safe (sys.enter s phase) :=
  h.enter (fun heq => absurd heq (hworking _ _)) fun heq => absurd heq (habandoning _ _)

theorem Safe.release (h : Safe sys) : Safe (sys.release s) := h.of_same rfl rfl rfl rfl

/-! ## Steps -/

omit [DecidableEq S] in
/-- A worker that writes nothing. -/
theorem Works.moves (h : Works sys stage w) (hmoves : Moves sys w stage stage') :
    Works sys stage' w := by
  cases hmoves with
  | found hlist =>
    obtain ⟨hmem, hrun⟩ := of_found hlist
    refine h.advance (fun _ => h.material rfl) fun k hk => ?_
    cases hk
    exact ⟨_, hmem, rfl, hrun⟩
  | active hpipeline => exact h.advance (fun _ => hpipeline) (by simp)
  | skipped last => exact h.plain (by cases last <;> rfl)
  | givenUp | settled | notFound | checked | halted | inactive | handedOver | raised | ended =>
    exact h.plain rfl

omit [DecidableEq S] in
/-- A worker that reads its row again. -/
theorem Works.rereads {fresh : Bool} (h : Works sys stage w)
    (hread : sys.reread w fresh = some w') (hrereads : Rereads w w' s fresh e stage stage') :
    Works sys stage' w' := by
  have hworks : Works sys stage w' := h.reread (by cases hrereads <;> rfl) hread
  cases hrereads with
  | halted | done | failed => exact hworks.plain rfl
  | graph empty => exact hworks.plain (by cases empty <;> rfl)
  | settled hpipeline =>
    obtain ⟨row, hrow, hplace, -⟩ := h.row
    obtain ⟨row', hrow', hplace', -⟩ := hworks.row
    rw [job_reread hread, hrow] at hrow'
    cases hrow'
    exact hworks.advance (fun _ => by rw [← hplace', hplace, hpipeline]) (by simp)

/-- A worker that writes its row, and completes it only where nobody is about to abandon it. -/
theorem Safe.writes (h : Safe sys) (hcalm : Undisturbed sys e)
    (hphase : sys.phase s = .working stage w) {guard : WorkedRun → Bool}
    {f : WorkedRun → WorkedRun} (hwrites : Writes w s e stage guard f stage') :
    Safe ((sys.writeRun w guard f).enter s (.working stage' w)) := by
  have hset : Safe (sys.writeRun w guard f) := by
    refine h.writeRun w guard f (fun row => (hwrites.keeps row).1)
      (fun row => (hwrites.keeps row).2.1) (fun row => (hwrites.keeps row).2.2.1)
      fun row hguard => ?_
    cases hwrites with
    | checkpoint state last =>
      have hrunning : row.status = .running := by simpa using hguard
      simp [hrunning, ACTIVE_RUN_STATUSES]
    | complete now =>
      refine ⟨fun heq => ?_, by simp [WorkedRun.change, ChangeKind.apply], fun hu => ?_⟩
      · simp [ChangeKind.guard, heq] at hguard
      · exact absurd hu (hcalm (.stored, w) (by rw [hphase]; rfl))
    | fail now retryAt =>
      simp only [ChangeKind.guard, Bool.and_eq_true, decide_eq_true_eq] at hguard
      simp [hguard.1, WorkedRun.change, ChangeKind.apply, ACTIVE_RUN_STATUSES]
  refine hset.working ((hset.works ((congrFun (phase_writeRun ..) s).trans hphase)).plain ?_)
  cases hwrites with
  | checkpoint state last => cases last <;> rfl
  | complete | fail => rfl

/-- A worker stores its result. -/
theorem Safe.stores (h : Safe sys) (hphase : sys.phase s = .working stage w)
    {result : RunResult} (hresult : HasResult w stage result) :
    Safe ((sys.storeResult w result).enter s (.working .stored w)) := by
  have hset : Safe (sys.storeResult w result) := by
    refine h.storeResult w fun i hi => ?_
    cases hresult with
    | vague => cases hi
    | version k =>
      cases hi
      exact (h.works hphase).persisted i rfl
  exact hset.working ((hset.works ((congrFun (phase_storeResult ..) s).trans hphase)).plain rfl)

/-- **A step of a worker.** -/
theorem work_safe (h : Safe sys) (hcalm : Undisturbed sys e) (hstep : sys.work e = some sys') :
    Safe sys' := by
  obtain ⟨s, hworked⟩ := work_cases hstep
  cases hworked with
  | stopped hphase =>
    rcases hphase with rfl | ⟨job, rfl⟩
    · exact h.stopped (by simp) (by simp)
    · exact h.stopped (by simp) (by simp)
  | @loaded job row hphase hrow hrunning =>
    refine h.working ⟨⟨row, hrow, rfl, rfl⟩, ?_, ?_⟩ <;> simp [Stage.ofMaterial]
  | @locked w hphase hfree =>
    have hheld : Safe { sys with held := Function.update sys.held w.run.place (some s) } :=
      h.of_same rfl rfl rfl rfl
    exact hheld.working ((hheld.works hphase).plain rfl)
  | moved hphase hmoves => exact h.working ((h.works hphase).moves hmoves)
  | reread hphase hread hrereads => exact h.working ((h.works hphase).rereads hread hrereads)
  | wrote hphase hwrites => exact h.writes hcalm hphase hwrites
  | @inserted w newId basedOn hphase hnew =>
    have hset := h.createVersion (h.works hphase) rfl hnew basedOn
      (hcalm (.active, w) (by rw [hphase]; rfl))
    refine hset.working ((hset.works hphase).advance (fun _ => (h.works hphase).material rfl) ?_)
    intro k hk
    cases hk
    exact ⟨_, List.mem_append_right _ (List.mem_singleton.2 rfl), rfl, rfl⟩
  | stored hphase hresult => exact h.stores hphase hresult
  | unlocked => exact h.release
  | @reconciled _ w now hphase =>
    have hset := h.failRun w (fun row => row.status = .running &&
      row.executionToken = w.loadedToken) none now fun row hguard => by
        simp only [Bool.and_eq_true, decide_eq_true_eq] at hguard
        exact hguard.1
    exact hset.release.stopped (by simp) (by simp)
  | left => exact h.release.stopped (by simp) (by simp)

/-- **A step of a request on a run.** -/
theorem request_safe (h : Safe sys) (hcalm : Undisturbed sys e)
    (hstep : sys.request e = some sys') :
    Safe sys' := by
  cases e with
  | start q nodeId mode now choice => exact h.start hcalm hstep
  | pause runId mentorId now =>
    obtain ⟨row, hrow, hrest⟩ := Option.bind_eq_some_iff.1 hstep
    split_ifs at hrest with hadmits
    cases hrest
    have hrunning : row.status = .running := by
      simp only [ChangeKind.admits, Bool.and_eq_true, decide_eq_true_eq] at hadmits
      exact hadmits.2
    refine h.setRun hrow rfl rfl (fun i hi => h.results hrow hi) (fun heq => by cases heq) ?_ ?_
    · simp [hrunning]
    · exact fun _ => Or.inl (by simp [WorkedRun.change, ChangeKind.apply, ACTIVE_RUN_STATUSES])
  | readResume s runId mentorId now =>
    obtain ⟨row, -, hrest⟩ := Option.bind_eq_some_iff.1 hstep
    split_ifs at hrest
    cases hrest
    exact h.stopped (by simp) (by simp)
  | clearResume s choice =>
    rw [System.request] at hstep
    split at hstep
    · split_ifs at hstep
      cases hstep
      exact h.stopped (by simp) (by simp)
    · cases hstep
  | resume s token now =>
    rw [System.request] at hstep
    split at hstep
    · rename_i runId run hphase
      split_ifs at hstep
      obtain ⟨row, hrow, rfl⟩ := Option.map_eq_some_iff.1 hstep
      have hresumable : row.status ∈ RESUMABLE_RUN_STATUSES :=
        hcalm runId (by rw [hphase]; rfl) row hrow
      have hset : Safe (sys.setRun runId { row with
          status := .running
          executionToken := some token
          attemptCount := run.attemptCount + 1
          updatedAt := now }) := by
        have hresults : ∀ i, row.result = some (.version i) → OfRun sys.versions runId i :=
          fun i hi => h.results hrow hi
        refine h.setRun hrow rfl rfl hresults (fun heq => by cases heq) (fun heq => ?_)
          fun _ => Or.inl (by simp [ACTIVE_RUN_STATUSES])
        rw [heq] at hresumable
        exact absurd hresumable (by decide)
      refine Safe.stopped ?_ (by simp) (by simp)
      exact hset.of_same rfl rfl rfl rfl
    · cases hstep
  | sweep runId threshold now =>
    obtain ⟨row, hrow, hrest⟩ := Option.bind_eq_some_iff.1 hstep
    split_ifs at hrest with hstale
    cases hrest
    have hrunning : row.status = .running := by
      simp only [staleRunning, Bool.and_eq_true, decide_eq_true_eq] at hstale
      exact hstale.1.1
    refine h.setRun hrow rfl rfl (fun i hi => h.results hrow hi) (fun heq => by cases heq) ?_ ?_
    · simp [hrunning]
    · exact fun _ => Or.inl (by simp [WorkedRun.change, ChangeKind.apply, ACTIVE_RUN_STATUSES])
  | _ => cases hstep

/-- **The versions that were selected are discarded.** -/
theorem Safe.discard (h : Safe sys) {ids : List ℕ} {fallback : Option ℕ}
    (hphase : sys.phase s = .abandoning a (.selected ids fallback)) :
    Safe ((sys.setVersions (sys.versions.map fun v =>
      if v.versionId ∈ ids then v.transitionToDiscarded else v)).enter s
        (.abandoning { a with changed := ids ++ a.changed } (.discarded fallback))) := by
  have hset : Safe (sys.setVersions (sys.versions.map fun v =>
      if v.versionId ∈ ids then v.transitionToDiscarded else v)) := by
    refine h.mapVersions ⟨?_, ?_, ?_, ?_⟩ ?_ ?_ ?_
    · intro v
      split_ifs <;> rfl
    · intro v
      split_ifs <;> rfl
    · intro v
      split_ifs <;> rfl
    · intro v
      split_ifs <;> rfl
    · intro v hv hnow
      split_ifs at hnow ⊢
      · cases hnow
      · exact h.published v hv hnow
    · intro v _ hnow
      split_ifs at hnow
      · exact absurd hnow.2 (by simp [transitionToDiscarded])
      · exact Or.inl hnow
    · intro v _ hold
      refine Or.inl ?_
      split_ifs
      · rfl
      · exact hold
  have hchosen := ((h.asks hphase).chosen ids fallback (Or.inr rfl)).2
  have hgone : Gone (sys.versions.map fun v =>
      if v.versionId ∈ ids then v.transitionToDiscarded else v) a.runId := by
    intro v' hv' hrun
    obtain ⟨v, hv, rfl⟩ := List.mem_map.1 hv'
    have hrun' : v.generationRunId = some a.runId := by
      split_ifs at hrun <;> exact hrun
    split_ifs with hid
    · rfl
    · exact (hchosen v hv hrun').resolve_right hid
  exact hset.abandoning ((hset.asks hphase).advance (fun _ => rfl) (by simp) (fun _ => hgone)
    (by simp))

/-- **A step of a request on study material.** -/
theorem discarding_safe (h : Safe sys) (hcalm : Undisturbed sys e)
    (hstep : sys.discarding e = some sys') : Safe sys' := by
  cases e with
  | publish nodeId versionId superseded =>
    obtain ⟨versions, hpublish, rfl⟩ := Option.map_eq_some_iff.1 hstep
    obtain ⟨v, -, hrest⟩ := Option.bind_eq_some_iff.1 hpublish
    split_ifs at hrest
    cases hrest
    exact h.publishVersion nodeId versionId superseded hcalm
  | readAbandon s runId mentorId =>
    obtain ⟨row, hrow, hrest⟩ := Option.bind_eq_some_iff.1 hstep
    split_ifs at hrest with hadmits
    cases hrest
    have hactive : row.status ∈ ACTIVE_RUN_STATUSES := by
      have hstatus := hadmits.2
      simp only [ChangeKind.admits, Bool.and_eq_true, decide_eq_true_eq] at hstatus
      exact hstatus.2
    refine h.abandoning ⟨fun _ => ⟨row, hrow, rfl, rfl, Or.inl hactive⟩, fun _ => hcalm,
      fun k hk => h.results hrow hk, ?_, ?_, ?_⟩ <;> simp
  | listOutput s =>
    obtain ⟨a, ha, rfl⟩ := Option.map_eq_some_iff.1 hstep
    have hphase := abandonment_eq_some.1 ha
    have hasks := h.asks hphase
    obtain ⟨hof, hcovered⟩ := h.mem_versionIds hphase
    dsimp only
    split_ifs with hnone
    · refine h.abandoning (hasks.advance (fun _ => rfl) (by simp) (fun _ v hv hrun => ?_) (by simp))
      rcases hnone with hpipeline | hempty
      · -- only study material has versions
        obtain ⟨-, row, hrow, -, hmaterial⟩ := h.made hv hrun
        obtain ⟨row', hrow', hplace, -⟩ := hasks.row rfl
        rw [hrow] at hrow'
        cases hrow'
        rw [hplace] at hmaterial
        exact absurd hmaterial hpipeline
      · have hmem := hcovered v hv hrun
        rw [hempty] at hmem
        exact hmem.resolve_right List.not_mem_nil
    · refine h.abandoning (hasks.advance (fun _ => rfl) ?_ (by simp) (by simp))
      rintro ids fallback (heq | heq) <;> cases heq
      exact ⟨hof, hcovered⟩
  | select s =>
    rw [System.discarding] at hstep
    split at hstep
    · rename_i a ids fallback hphase
      cases hstep
      have hasks := h.asks hphase
      obtain ⟨hof, hcovered⟩ := hasks.chosen ids fallback (Or.inl rfl)
      refine h.abandoning (hasks.advance (fun _ => rfl) ?_ (by simp) (by simp))
      rintro ids' fallback' (heq | heq) <;> cases heq
      refine ⟨fun k hk => ?_, fun v hv hrun => ?_⟩
      · obtain ⟨v, hv, rfl⟩ := List.mem_map.1 hk
        have hselected := (List.mem_filter.1 hv).2
        simp only [decide_eq_true_eq] at hselected
        exact hof _ hselected.1
      · refine (hcovered v hv hrun).elim Or.inl fun hid => ?_
        by_cases hdiscarded : v.lifecycleStatus = .discarded
        · exact Or.inl hdiscarded
        · refine Or.inr (List.mem_map_of_mem (List.mem_filter.2 ⟨hv, ?_⟩))
          simp only [decide_eq_true_eq]
          exact ⟨hid, (h.made hv hrun).1, hdiscarded⟩
    · cases hstep
  | discard s =>
    rw [System.discarding] at hstep
    split at hstep
    · rename_i a ids fallback hphase
      cases hstep
      exact h.discard hphase
    · cases hstep
  | readRestore s =>
    rw [System.discarding] at hstep
    split at hstep
    · rename_i a fallback hphase
      cases hstep
      have hasks := h.asks hphase
      have hgone := hasks.gone (Or.inl ⟨fallback, rfl⟩)
      refine h.abandoning (hasks.advance (fun _ => rfl) ?_ (fun _ => hgone) ?_)
      · intro ids fallback heq
        split at heq <;> simp at heq
      · split <;> simp
    · cases hstep
  | restore s =>
    rw [System.discarding] at hstep
    split at hstep
    · rename_i a versionId hphase
      cases hstep
      have hset := h.setActive versionId tags_activate (fun _ => rfl) fun _ => rfl
      have hasks := hset.asks hphase
      exact hset.abandoning (hasks.advance (fun _ => rfl) (by simp)
        (fun _ => hasks.gone (Or.inr (Or.inl ⟨versionId, rfl⟩))) (by simp))
    · cases hstep
  | abandon s now fresh =>
    obtain ⟨a, ha, hrest⟩ := Option.bind_eq_some_iff.1 hstep
    obtain ⟨row, hrow, rfl⟩ := Option.map_eq_some_iff.1 hrest
    have hphase := abandonment_eq_some.1 ha
    have hasks := h.asks hphase
    have hgone := hasks.gone (Or.inr (Or.inr rfl))
    have hunderway := underway_of_phase (s := s) hphase rfl
    have hstatus := h.abandonable hunderway hrow
    dsimp only
    split_ifs with hactive hrefused
    · have hset : Safe (sys.setRun a.runId (row.change (.abandon a.run.mentorId) now)) :=
        h.setRun hrow rfl rfl (fun i hi => h.results hrow hi) (fun _ => hgone) (fun _ => rfl)
          fun _ => Or.inr rfl
      have hreport := hset.report (k := a.runId) (by rw [runs_setRun, if_pos rfl]) rfl
      exact hreport.abandoning (hreport.asks hphase).report
    · exact absurd (hstatus.resolve_left hactive) hrefused.2
    · have hreport := h.report hrow (hstatus.resolve_left hactive)
      exact hreport.abandoning (hreport.asks hphase).report
  | _ => cases hstep

/-! ## Runs -/

theorem reachable_safe (h : Runs.Reachable step Undisturbed Fresh sys) : Safe sys := by
  refine h.invariant (fun _ hs => fresh_safe hs) fun s e s' hinv hcalm hstep => ?_
  rcases step_cases hstep with hwork | hrequest | hdiscarding
  · exact work_safe hinv hcalm hwork
  · exact request_safe hinv hcalm hrequest
  · exact discarding_safe hinv hcalm hdiscarding

/-- **An abandonment discards no live version and no output of a completed run, reports a refusal
only before it has changed a version, and leaves no version of its run**, where no version is live
and the run is left alone while it is abandoned. -/
theorem abandoning_safe (h : Runs.Reachable step Undisturbed Fresh sys) :
    (∀ s sys', step sys (.discard s) = some sys' →
      ∀ v ∈ sys.versions, sys.Protected v → v ∈ sys'.versions) ∧
    (∀ s a, sys.phase s = .abandoning a .refused → a.changed = []) ∧
    ∀ runId ∈ sys.abandoned, ∀ v ∈ sys.versions, v.generationRunId = some runId →
      v.lifecycleStatus = .discarded := by
  have hsafe := reachable_safe h
  refine ⟨fun s sys' hstep v hv hprotected => ?_, fun s a hphase => ?_, fun runId hdone => ?_⟩
  · replace hstep : sys.discarding (.discard s) = some sys' := hstep
    rw [System.discarding] at hstep
    split at hstep
    · rename_i a ids fallback hphase
      cases hstep
      refine List.mem_map.2 ⟨v, hv, if_neg fun hid => ?_⟩
      exact hsafe.not_protected hphase hv hid hprotected
    · cases hstep
  · exact absurd rfl (hsafe.asks hphase).refused
  · obtain ⟨row, hrow, hstatus⟩ := hsafe.reported runId hdone
    exact hsafe.gone hrow hstatus

end Steps

/-! ### A run that fails after its version is inserted -/

/-- The worker inserts version 40 and fails. -/
def failedRun : List (Event Bool) :=
  startedRun ++ toGraph ++ [.check true, .checkpoint true 7 true, .finalize true,
    .persist true 40 none, .raise true, .readFail true true, .fail true 0 none, .leave true]

/-- The run is abandoned, and its version is gone. -/
theorem failed_run_abandoned :
    ∃ sys : System Bool, Runs.Reachable step Undisturbed Fresh sys ∧ sys.abandoned = [1] ∧
      (∀ runId ∈ sys.abandoned, ∀ v ∈ sys.versions, v.generationRunId = some runId →
        v.lifecycleStatus = .discarded) ∧
      sys.versions.map StudyMaterialVersion.versionId = [40] := by
  have hrun : Runs.run (fun sys e => if Undisturbed sys e then step sys e else none) emptySystem
      (failedRun ++ [Event.readAbandon true 1 9, .listOutput true, .select true, .discard true,
        .readRestore true, .abandon true 0 true]) = some _ := rfl
  have hreached := Runs.reachable_of_checked emptySystem_fresh hrun
  exact ⟨_, hreached, rfl, (abandoning_safe hreached).2.2, rfl⟩

/-- The version of the failed run is published before the run is abandoned. -/
theorem live_version_discarded :
    ∃ sys sys' : System Bool, Runs.Reachable step (fun _ _ => True) Fresh sys ∧
      step sys (.discard true) = some sys' ∧
      ¬ ∀ v ∈ sys.versions, sys.Protected v → v ∈ sys'.versions := by
  have hrun : Runs.run step emptySystem
      (failedRun ++ [Event.publish 5 40 .keepForReview, .readAbandon true 1 9, .listOutput true,
        .select true]) = some _ := rfl
  refine ⟨_, _, Runs.reachable_of_run emptySystem_fresh hrun, rfl, fun hkept => ?_⟩
  have hlive := hkept _ List.mem_cons_self (Or.inl (by decide))
  exact absurd hlive (by decide)

end StudyAgent.Generation.Workers
