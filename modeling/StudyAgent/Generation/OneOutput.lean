import StudyAgent.Generation.CurrentAttempt

/-!
# One version of study material for each run

A worker looks for the output of its run after it has taken the session lock, and inserts a version
minutes later, behind a check of the status that does not name the token.  It holds the lock all
the time, so no other worker of the run looks or inserts in between.

Main results:

* `Attempt.alone` — the session lock admits one worker of a run.
* `work_outputs`, `request_outputs`, `discarding_outputs` — what one step keeps.
* `one_output` — **a run has at most one version, and a completed run has one or has stored the
  result that its goal was too vague**, as long as no version is discarded.
-/

namespace StudyAgent.Generation.Workers

open Material (StudyMaterialVersion listVersionsByGenerationRunId)
open Material.StudyMaterialVersion

variable {S : Type}

/-! ## Outputs -/

/-- The versions that a run has made. -/
def outputs (versions : List StudyMaterialVersion) (runId : ℕ) : List StudyMaterialVersion :=
  versions.filter fun v => v.generationRunId = some runId

theorem mem_outputs {versions : List StudyMaterialVersion} {runId : ℕ} {v : StudyMaterialVersion} :
    v ∈ outputs versions runId ↔ v ∈ versions ∧ v.generationRunId = some runId := by
  simp [outputs]

/-- A run has made a version or has stored a vague result. -/
def HasOutput (sys : System S) (runId : ℕ) : Prop :=
  outputs sys.versions runId ≠ [] ∨ ∃ row, sys.runs runId = some row ∧ row.result = some .vague

/-- The stages at which a worker holds the session lock of its run. -/
def Stage.holds : Stage → Bool
  | .loaded | .failing | .failRead | .ended => false
  | _ => true

/-- The stages between the search for an output and its insertion. -/
def Stage.empty : Stage → Bool
  | .ready | .graph | .checked | .finished | .active => true
  | _ => false

/-- The stages that only study material runs come to. -/
def Stage.ofMaterial : Stage → Bool
  | .listing | .active | .persisted _ => true
  | _ => false

/-- What holds of a worker. -/
structure Attempt (sys : System S) (s : S) (stage : Stage) (w : Worker) : Prop where
  row : ∃ row, sys.runs w.job.runId = some row ∧ row.place = w.run.place ∧
    row.nodeId = w.run.nodeId
  holds : stage.holds = true → sys.held w.run.place = some s
  material : stage.ofMaterial = true → w.run.place.pipeline = .studyMaterial
  stored : w.run.place.pipeline = .studyMaterial → w.run.result ≠ none → HasOutput sys w.job.runId
  empty : w.run.place.pipeline = .studyMaterial → stage.empty = true →
    outputs sys.versions w.job.runId = []
  persisted : ∀ k, stage = .persisted k → outputs sys.versions w.job.runId ≠ []
  delivered : w.run.place.pipeline = .studyMaterial → stage = .stored → HasOutput sys w.job.runId

structure Outputs (sys : System S) : Prop where
  own : ∀ {s stage w}, sys.phase s = .working stage w → Attempt sys s stage w
  rows : ∀ {k row}, sys.runs k = some row → row.place.pipeline = .studyMaterial →
    row.result ≠ none ∨ row.status = .completed → HasOutput sys k
  versions : ∀ {v k}, v ∈ sys.versions → v.generationRunId = some k →
    v.lifecycleStatus ≠ .discarded ∧ ∃ row, sys.runs k = some row ∧ v.nodeId = row.nodeId
  one : ∀ k, (outputs sys.versions k).length ≤ 1

variable {sys sys' : System S} {s t : S} {w w' : Worker} {stage stage' : Stage} {e : Event S}

/-- **The session lock admits one worker of a run.** -/
theorem Attempt.alone (hs : Attempt sys s stage w) (ht : Attempt sys t stage' w')
    (hstage : stage.holds = true) (hstage' : stage'.holds = true)
    (hrun : w'.job.runId = w.job.runId) : t = s := by
  obtain ⟨row, hrow, hplace, -⟩ := hs.row
  obtain ⟨row', hrow', hplace', -⟩ := ht.row
  rw [hrun, hrow] at hrow'
  cases hrow'
  have hheld := hs.holds hstage
  rw [← hplace, hplace', ht.holds hstage'] at hheld
  exact Option.some.inj hheld

/-- Rows keep their places and outputs stay. -/
structure Extends (sys sys' : System S) : Prop where
  row : ∀ {k row}, sys.runs k = some row → ∃ row', sys'.runs k = some row' ∧
    row'.place = row.place ∧ row'.nodeId = row.nodeId
  output : ∀ {k}, HasOutput sys k → HasOutput sys' k
  made : ∀ {k}, outputs sys.versions k ≠ [] → outputs sys'.versions k ≠ []

theorem Attempt.mono (h : Attempt sys s stage w) (hext : Extends sys sys')
    (hheld : stage.holds = true → sys.held w.run.place = some s → sys'.held w.run.place = some s)
    (hempty : stage.empty = true → outputs sys.versions w.job.runId = [] →
      outputs sys'.versions w.job.runId = []) : Attempt sys' s stage w where
  row := by
    obtain ⟨row, hrow, hplace, hnode⟩ := h.row
    obtain ⟨row', hrow', hplace', hnode'⟩ := hext.row hrow
    exact ⟨row', hrow', hplace'.trans hplace, hnode'.trans hnode⟩
  holds := fun hstage => hheld hstage (h.holds hstage)
  material := h.material
  stored := fun hmaterial hresult => hext.output (h.stored hmaterial hresult)
  empty := fun hmaterial hstage => hempty hstage (h.empty hmaterial hstage)
  persisted := fun k hk => hext.made (h.persisted k hk)
  delivered := fun hmaterial hstage => hext.output (h.delivered hmaterial hstage)

/-- A worker goes on with the same row. -/
theorem Attempt.advance (h : Attempt sys s stage w)
    (hholds : stage'.holds = true → stage.holds = true)
    (hmaterial : stage'.ofMaterial = true → w.run.place.pipeline = .studyMaterial)
    (hempty : w.run.place.pipeline = .studyMaterial → stage'.empty = true →
      outputs sys.versions w.job.runId = [])
    (hpersisted : ∀ k, stage' = .persisted k → outputs sys.versions w.job.runId ≠ [])
    (hdelivered : w.run.place.pipeline = .studyMaterial → stage' = .stored →
      HasOutput sys w.job.runId) : Attempt sys s stage' w :=
  ⟨h.row, fun hstage => h.holds (hholds hstage), hmaterial, h.stored, hempty, hpersisted,
    hdelivered⟩

/-- A worker stops. -/
theorem Attempt.stop (h : Attempt sys s stage w)
    (hstage : stage' = .failing ∨ stage' = .failRead ∨ stage' = .ended) :
    Attempt sys s stage' w := by
  rcases hstage with rfl | rfl | rfl
  all_goals
    refine h.advance ?_ ?_ ?_ ?_ ?_
    all_goals simp [Stage.holds, Stage.ofMaterial, Stage.empty]

/-- A worker goes on between the search for an output and its insertion. -/
theorem Attempt.onward (h : Attempt sys s stage w) (hstage : stage.empty = true)
    (hstage' : stage'.empty = true)
    (hmaterial : stage'.ofMaterial = true → w.run.place.pipeline = .studyMaterial) :
    Attempt sys s stage' w := by
  refine h.advance (fun _ => ?_) hmaterial (fun hpipeline _ => h.empty hpipeline hstage) ?_ ?_
  · cases stage <;> simp [Stage.empty, Stage.holds] at hstage ⊢
  · rintro k rfl
    cases hstage'
  · rintro - rfl
    cases hstage'

/-- A worker reads its row again. -/
theorem Attempt.reread (h : Outputs sys) {fresh : Bool} (hown : Attempt sys s stage w)
    (hread : sys.reread w fresh = some w') : Attempt sys s stage w' := by
  rcases reread_cases hread with rfl | ⟨-, row, hrow, rfl⟩
  · exact hown
  · obtain ⟨row', hrow', hplace, hnode⟩ := hown.row
    rw [hrow] at hrow'
    cases hrow'
    refine ⟨⟨row, hrow, rfl, rfl⟩, ?_, ?_, ?_, ?_, hown.persisted, ?_⟩
    · exact fun hstage => hplace ▸ hown.holds hstage
    · exact fun hstage => hplace ▸ hown.material hstage
    · exact fun hmaterial hresult => h.rows hrow hmaterial (Or.inl hresult)
    · exact fun hmaterial hstage => hown.empty (hplace ▸ hmaterial) hstage
    · exact fun hmaterial hstage => hown.delivered (hplace ▸ hmaterial) hstage

/-! ## Parts of a step -/

theorem Extends.of_same (hruns : sys'.runs = sys.runs) (hversions : sys'.versions = sys.versions) :
    Extends sys sys' where
  row := fun {_ row} hrow => ⟨row, by rw [hruns, hrow], rfl, rfl⟩
  output := fun houtput => by
    unfold HasOutput
    rwa [hruns, hversions]
  made := fun hmade => by rwa [hversions]

theorem Outputs.of_same (h : Outputs sys) (hphase : sys'.phase = sys.phase)
    (hruns : sys'.runs = sys.runs) (hversions : sys'.versions = sys.versions)
    (hheld : ∀ {t stage w}, sys.phase t = .working stage w → stage.holds = true →
      sys.held w.run.place = some t → sys'.held w.run.place = some t) : Outputs sys' where
  own := fun {t stage w} hworking => by
    rw [hphase] at hworking
    refine (h.own hworking).mono (.of_same hruns hversions) (hheld hworking) fun _ hempty => ?_
    rwa [hversions]
  rows := fun hrow hmaterial hdone => by
    rw [hruns] at hrow
    exact (Extends.of_same hruns hversions).output (h.rows hrow hmaterial hdone)
  versions := fun hv hk => by
    rw [hversions] at hv
    rw [hruns]
    exact h.versions hv hk
  one := fun k => by
    rw [hversions]
    exact h.one k

/-- A row is written: it keeps its place, and it is not completed and says nothing of a result
without an output. -/
theorem Extends.setRun {k : ℕ} {row row' : WorkedRun} (hrow : sys.runs k = some row)
    (hplace : row'.place = row.place) (hnode : row'.nodeId = row.nodeId)
    (hresult : row.result = some .vague →
      row'.result = some .vague ∨ outputs sys.versions k ≠ []) :
    Extends sys (sys.setRun k row') where
  row := fun {j old} hold => by
    rw [runs_setRun]
    by_cases hj : j = k
    · subst hj
      rw [hrow] at hold
      cases hold
      exact ⟨row', by rw [if_pos rfl], hplace, hnode⟩
    · exact ⟨old, by rw [if_neg hj, hold], rfl, rfl⟩
  output := fun {j} houtput => by
    rcases houtput with hmade | ⟨old, hold, hvague⟩
    · exact Or.inl hmade
    · by_cases hj : j = k
      · subst hj
        rw [hrow] at hold
        cases hold
        rcases hresult hvague with hvague' | hmade
        · exact Or.inr ⟨row', by rw [runs_setRun, if_pos rfl], hvague'⟩
        · exact Or.inl hmade
      · exact Or.inr ⟨old, by rw [runs_setRun, if_neg hj, hold], hvague⟩
  made := id

theorem Outputs.setRun (h : Outputs sys) {k : ℕ} {row row' : WorkedRun}
    (hrow : sys.runs k = some row) (hplace : row'.place = row.place)
    (hnode : row'.nodeId = row.nodeId)
    (hresult : row.result = some .vague →
      row'.result = some .vague ∨ outputs sys.versions k ≠ [])
    (hdone : row'.place.pipeline = .studyMaterial →
      row'.result ≠ none ∨ row'.status = .completed → HasOutput (sys.setRun k row') k) :
    Outputs (sys.setRun k row') := by
  have hext := Extends.setRun hrow hplace hnode hresult
  refine ⟨fun hworking => ?_, fun {j old} hold hmaterial hfinished => ?_, fun {v j} hv hj => ?_,
    h.one⟩
  · exact (h.own hworking).mono hext (fun _ => id) fun _ => id
  · rw [runs_setRun] at hold
    split_ifs at hold with hj
    · cases hold
      subst hj
      exact hdone hmaterial hfinished
    · exact hext.output (h.rows hold hmaterial hfinished)
  · obtain ⟨hdesk, old, hold, hsame⟩ := h.versions hv hj
    obtain ⟨new, hnew, -, hnode'⟩ := hext.row hold
    exact ⟨hdesk, new, hnew, hsame.trans hnode'.symm⟩

/-- The status of a row is written; it is completed only with an output. -/
theorem Outputs.change (h : Outputs sys) {k : ℕ} {row row' : WorkedRun}
    (hrow : sys.runs k = some row) (hplace : row'.place = row.place)
    (hnode : row'.nodeId = row.nodeId) (hresult : row'.result = row.result)
    (hcompleted : row'.status = .completed → row.place.pipeline = .studyMaterial →
      HasOutput sys k) : Outputs (sys.setRun k row') := by
  have hvague : row.result = some .vague →
      row'.result = some .vague ∨ outputs sys.versions k ≠ [] := fun hvague =>
    Or.inl (hresult.trans hvague)
  refine h.setRun hrow hplace hnode hvague fun hmaterial hdone => ?_
  rw [hplace] at hmaterial
  refine (Extends.setRun hrow hplace hnode hvague).output ?_
  rcases hdone with hstored | hdone
  · rw [hresult] at hstored
    exact h.rows hrow hmaterial (Or.inl hstored)
  · exact hcompleted hdone hmaterial

theorem Outputs.writeRun (h : Outputs sys) (w : Worker) (guard : WorkedRun → Bool)
    (f : WorkedRun → WorkedRun) (hplace : ∀ row, (f row).place = row.place)
    (hnode : ∀ row, (f row).nodeId = row.nodeId)
    (hresult : ∀ row, (f row).result = row.result)
    (hcompleted : ∀ row, sys.runs w.job.runId = some row → guard row = true →
      (f row).status = .completed → row.place.pipeline = .studyMaterial →
        HasOutput sys w.job.runId) :
    Outputs (sys.writeRun w guard f) ∧ Extends sys (sys.writeRun w guard f) ∧
      (sys.writeRun w guard f).held = sys.held ∧
      (sys.writeRun w guard f).versions = sys.versions ∧
      (sys.writeRun w guard f).phase = sys.phase := by
  rcases writeRun_cases sys w guard f with hsame | ⟨row, hrow, hmatch, hwrite⟩
  · rw [hsame]
    exact ⟨h, .of_same rfl rfl, rfl, rfl, rfl⟩
  · rw [hwrite]
    have hset := h.change hrow (hplace row) (hnode row) (hresult row) (hcompleted row hrow hmatch)
    have hext : Extends sys (sys.setRun w.job.runId (f row)) :=
      .setRun hrow (hplace row) (hnode row) fun hvague => Or.inl ((hresult row).trans hvague)
    exact ⟨hset.of_same rfl rfl rfl fun _ _ => id, ⟨hext.row, hext.output, hext.made⟩, rfl,
      rfl, rfl⟩

/-- **A result is stored**: a vague one, or that of a version. -/
theorem Outputs.storeResult (h : Outputs sys) {row : WorkedRun}
    (hrow : sys.runs w.job.runId = some row) (result : RunResult)
    (hresult : result = .vague ∨ outputs sys.versions w.job.runId ≠ []) :
    Outputs (sys.storeResult w result) ∧ Extends sys (sys.storeResult w result) ∧
      (sys.storeResult w result).held = sys.held ∧
      HasOutput (sys.storeResult w result) w.job.runId := by
  rw [storeResult_eq hrow]
  have hvague : row.result = some .vague → some result = some RunResult.vague ∨
      outputs sys.versions w.job.runId ≠ [] := fun _ => hresult.imp (congrArg some) id
  have houtput : HasOutput (sys.setRun w.job.runId { row with result := some result })
      w.job.runId := by
    rcases hresult with rfl | hmade
    · exact Or.inr ⟨_, by rw [runs_setRun, if_pos rfl], rfl⟩
    · exact Or.inl hmade
  exact ⟨h.setRun hrow rfl rfl hvague fun _ _ => houtput, .setRun hrow rfl rfl hvague, rfl, houtput⟩

/-- The rows of versions are changed, and none is discarded. -/
theorem outputs_map {versions : List StudyMaterialVersion}
    {f : StudyMaterialVersion → StudyMaterialVersion}
    (hrun : ∀ v, (f v).generationRunId = v.generationRunId) (k : ℕ) :
    outputs (versions.map f) k = (outputs versions k).map f := by
  unfold outputs
  rw [List.filter_map]
  congr 2
  funext v
  simp [hrun]

theorem Outputs.mapVersions (h : Outputs sys) {f : StudyMaterialVersion → StudyMaterialVersion}
    (hrun : ∀ v, (f v).generationRunId = v.generationRunId) (hnode : ∀ v, (f v).nodeId = v.nodeId)
    (hdesk : ∀ v, v.lifecycleStatus ≠ .discarded → (f v).lifecycleStatus ≠ .discarded) :
    Outputs (sys.setVersions (sys.versions.map f)) := by
  have hext : Extends sys (sys.setVersions (sys.versions.map f)) := by
    refine ⟨fun {_ row} hrow => ⟨row, hrow, rfl, rfl⟩, fun houtput => ?_, fun hmade => ?_⟩
    · refine houtput.imp (fun hmade => ?_) id
      simpa [outputs_map hrun] using hmade
    · simpa [outputs_map hrun] using hmade
  refine ⟨fun hworking => ?_, fun hrow hmaterial hdone => ?_, fun hv hk => ?_, fun k => ?_⟩
  · refine (h.own hworking).mono hext (fun _ => id) fun _ hempty => ?_
    simpa [outputs_map hrun] using hempty
  · exact hext.output (h.rows hrow hmaterial hdone)
  · obtain ⟨old, hold, rfl⟩ := List.mem_map.1 hv
    rw [hrun] at hk
    obtain ⟨hlive, row, hrow, hsame⟩ := h.versions hold hk
    exact ⟨hdesk old hlive, row, hrow, (hnode old).trans hsame⟩
  · rw [versions_setVersions, outputs_map hrun, List.length_map]
    exact h.one k

/-- The row of one version is changed. -/
theorem Outputs.updateVersion (h : Outputs sys) (k : ℕ)
    {f : StudyMaterialVersion → StudyMaterialVersion}
    (hrun : ∀ v, (f v).generationRunId = v.generationRunId) (hnode : ∀ v, (f v).nodeId = v.nodeId)
    (hdesk : ∀ v, v.lifecycleStatus ≠ .discarded → (f v).lifecycleStatus ≠ .discarded) :
    Outputs (sys.setVersions (Material.updateVersion sys.versions k f)) := by
  refine h.mapVersions ?_ ?_ ?_
  · intro v
    split_ifs
    · exact hrun v
    · rfl
  · intro v
    split_ifs
    · exact hnode v
    · rfl
  · intro v hv
    split_ifs
    · exact hdesk v hv
    · exact hv

theorem Outputs.publishVersion (h : Outputs sys) (nodeId versionId : ℕ)
    (retention : Lifecycle.RetentionMode) :
    Outputs
      (sys.setVersions (Material.publishVersion sys.versions nodeId versionId retention)) := by
  have hretired : Outputs (sys.setVersions (sys.versions.map fun v =>
      if v.nodeId = nodeId ∧ v.isPublished = true ∧ v.versionId ≠ versionId then
        v.retire retention
      else v)) := by
    refine h.mapVersions ?_ ?_ ?_
    · intro v
      split_ifs
      · cases retention <;> rfl
      · rfl
    · intro v
      split_ifs
      · exact nodeId_retire retention
      · rfl
    · intro v hv
      split_ifs
      · cases retention <;> simp [retire, transitionToArchived, transitionToHidden]
      · exact hv
  exact hretired.updateVersion versionId (fun _ => rfl) (fun _ => rfl)
    fun _ _ => by simp [transitionToActive]

/-- The search for an output finds every version of a run whose versions are not discarded. -/
theorem Outputs.outputs_eq_nil (h : Outputs sys) (hown : Attempt sys s stage w)
    (hlist : listVersionsByGenerationRunId sys.versions w.run.nodeId w.job.runId = []) :
    outputs sys.versions w.job.runId = [] := by
  rw [List.eq_nil_iff_forall_not_mem]
  intro v hv
  obtain ⟨hmem, hrun⟩ := mem_outputs.1 hv
  obtain ⟨hdesk, row, hrow, hnode⟩ := h.versions hmem hrun
  obtain ⟨row', hrow', -, hnode'⟩ := hown.row
  rw [hrow] at hrow'
  cases hrow'
  have hnot : v ∉ listVersionsByGenerationRunId sys.versions w.run.nodeId w.job.runId := by
    rw [hlist]
    exact List.not_mem_nil
  refine hnot ?_
  simp [listVersionsByGenerationRunId, hmem, hnode, hnode', hrun, hdesk]

/-- A start retires the runs that are paused or failed, and adds a row without a result. -/
theorem Outputs.start (h : Outputs sys) {q : StartRequest} {nodeId now : ℕ}
    {mode : GenerationMode} {choice : Option ℕ}
    (hstep : sys.start q nodeId mode now choice = some sys') :
    Outputs sys' := by
  rw [System.start] at hstep
  split_ifs at hstep with hnew
  cases hstep
  have hold : ∀ {k row}, sys.runs k = some row → k ≠ q.runId := by
    rintro k row hrow rfl
    rw [hnew.1] at hrow
    cases hrow
  -- what becomes of a row that there was
  have hrow : ∀ {k row}, sys.runs k = some row → ∃ row',
      ((sys.supersede q now).setRun q.runId
        { newRun now q with nodeId := nodeId, mode := mode }).runs k = some row' ∧
      row'.place = row.place ∧ row'.nodeId = row.nodeId ∧ row'.result = row.result := by
    intro k row hrow
    refine ⟨if q.supersedeExisting && supersedable q.place row.toGenerationRun then
      { row with status := .superseded, updatedAt := now } else row, ?_, ?_, ?_, ?_⟩
    · rw [runs_setRun, if_neg (hold hrow)]
      simp [System.supersede, hrow]
    all_goals split_ifs <;> rfl
  have hext : Extends sys { ((sys.supersede q now).setRun q.runId
      { newRun now q with nodeId := nodeId, mode := mode }).issue q.runId q.executionToken with
        ids := q.runId :: sys.ids } := by
    refine ⟨fun hk => ?_, fun houtput => houtput.imp id ?_, id⟩
    · obtain ⟨row', hrow', hplace, hnode, -⟩ := hrow hk
      exact ⟨row', hrow', hplace, hnode⟩
    · rintro ⟨row, hk, hvague⟩
      obtain ⟨row', hrow', -, -, hresult⟩ := hrow hk
      exact ⟨row', hrow', hresult.trans hvague⟩
  refine ⟨fun hworking => ?_, fun {k row} hk hmaterial hdone => ?_, fun hv hk => ?_, h.one⟩
  · exact (h.own hworking).mono hext (fun _ => id) fun _ => id
  · change ((sys.supersede q now).setRun q.runId
      { newRun now q with nodeId := nodeId, mode := mode }).runs k = some row at hk
    rw [runs_setRun] at hk
    split_ifs at hk with hsame
    · cases hk
      simp [newRun] at hdone
    · obtain ⟨old, hold, rfl⟩ := Option.map_eq_some_iff.1 hk
      refine hext.output (h.rows hold ?_ ?_)
      · split_ifs at hmaterial <;> exact hmaterial
      · split_ifs at hdone
        · exact Or.inl (hdone.resolve_right (by simp))
        · exact hdone
  · obtain ⟨hdesk, row, hrow', hsame⟩ := h.versions hv hk
    obtain ⟨row', hnew', -, hnode⟩ := hext.row hrow'
    exact ⟨hdesk, row', hnew', hsame.trans hnode.symm⟩

theorem fresh_outputs (h : Fresh sys) : Outputs sys where
  own := fun {s stage w} hworking => by
    rw [h.idle s] at hworking
    cases hworking
  rows := fun {k row} hrow => by
    rw [h.runs k] at hrow
    cases hrow
  versions := fun {v k} hv hk => by
    rw [(h.versions v hv).1] at hk
    cases hk
  one := fun k => by
    have hnone : outputs sys.versions k = [] := by
      rw [List.eq_nil_iff_forall_not_mem]
      intro v hv
      obtain ⟨hmem, hrun⟩ := mem_outputs.1 hv
      rw [(h.versions v hmem).1] at hrun
      cases hrun
    rw [hnone]
    exact Nat.zero_le 1

section Steps

variable [DecidableEq S]

theorem Outputs.enter (h : Outputs sys) {phase : Phase}
    (hown : ∀ {stage w}, phase = .working stage w → Attempt sys s stage w) :
    Outputs (sys.enter s phase) := by
  refine ⟨fun {t stage w} hworking => ?_, h.rows, h.versions, h.one⟩
  rw [phase_enter] at hworking
  split_ifs at hworking with ht
  · rw [ht]
    exact (hown hworking).mono (.of_same rfl rfl) (fun _ => id) fun _ => id
  · exact (h.own hworking).mono (.of_same rfl rfl) (fun _ => id) fun _ => id

/-- A worker goes on. -/
theorem Outputs.working (h : Outputs sys) (hown : Attempt sys s stage w) :
    Outputs (sys.enter s (.working stage w)) :=
  h.enter fun heq => by
    cases heq
    exact hown

/-- The locks of a session that holds none for a run, or that stops. -/
theorem Outputs.release (h : Outputs sys) {phase : Phase}
    (hphase : ∀ {stage w}, phase = .working stage w → Attempt sys s stage w ∧ stage.holds = false) :
    Outputs ((sys.release s).enter s phase) := by
  refine ⟨fun {t stage w} hworking => ?_, h.rows, h.versions, h.one⟩
  rw [phase_enter] at hworking
  split_ifs at hworking with ht
  · obtain ⟨hown, hnot⟩ := hphase hworking
    rw [ht]
    refine hown.mono (.of_same rfl rfl) (fun hstage => ?_) fun _ => id
    rw [hnot] at hstage
    cases hstage
  · refine (h.own hworking).mono (.of_same rfl rfl) (fun _ hheld => ?_) fun _ => id
    simp [System.enter, System.release, hheld, ht]

/-- A worker that has stopped releases its locks. -/
theorem Outputs.unlock (h : Outputs sys) (hphase : sys.phase s = .working stage w)
    (hstage : stage.holds = false) : Outputs (sys.release s) := by
  refine h.of_same rfl rfl rfl fun {t stage' w'} hworking hholds hheld => ?_
  have hne : t ≠ s := by
    rintro rfl
    rw [hphase] at hworking
    cases hworking
    rw [hstage] at hholds
    cases hholds
  simp [System.release, hheld, hne]

theorem Outputs.stopped (h : Outputs sys) {phase : Phase}
    (hphase : ∀ stage w, phase ≠ .working stage w) : Outputs (sys.enter s phase) :=
  h.enter fun heq => absurd heq (hphase _ _)

theorem outputs_append (versions : List StudyMaterialVersion) (v : StudyMaterialVersion) (k : ℕ) :
    outputs (versions ++ [v]) k =
      outputs versions k ++ if v.generationRunId = some k then [v] else [] := by
  unfold outputs
  rw [List.filter_append]
  congr 1
  by_cases hk : v.generationRunId = some k <;> simp [hk]

/-- **A worker inserts a version** of a run that has none. -/
theorem Outputs.insert (h : Outputs sys) (hactive : sys.phase s = .working .active w)
    {v : StudyMaterialVersion} (hrun : v.generationRunId = some w.job.runId)
    (hnode : v.nodeId = w.run.nodeId) (hdesk : v.lifecycleStatus ≠ .discarded) (k : ℕ) :
    Outputs ((sys.setVersions (sys.versions ++ [v])).enter s (.working (.persisted k) w)) := by
  have hown := h.own hactive
  have hnone : outputs sys.versions w.job.runId = [] := hown.empty (hown.material rfl) rfl
  have hmade : outputs (sys.versions ++ [v]) w.job.runId ≠ [] := by
    rw [outputs_append, if_pos hrun]
    simp
  have hext : Extends sys ((sys.setVersions (sys.versions ++ [v])).enter s
      (.working (.persisted k) w)) := by
    have hmono : ∀ {j}, outputs sys.versions j ≠ [] → outputs (sys.versions ++ [v]) j ≠ [] := by
      intro j hj
      rw [outputs_append]
      simp [hj]
    exact ⟨fun {_ row} hrow => ⟨row, hrow, rfl, rfl⟩, fun houtput => houtput.imp hmono id, hmono⟩
  refine ⟨fun {t stage w'} hworking => ?_, fun hrow hmaterial hdone => ?_, fun {u j} hu hj => ?_,
    fun j => ?_⟩
  · rw [phase_enter] at hworking
    split_ifs at hworking with ht
    · cases hworking
      rw [ht]
      exact ⟨hown.row, fun _ => hown.holds rfl, fun _ => hown.material rfl,
        fun _ _ => Or.inl hmade, fun _ hstage => (by cases hstage), fun _ _ => hmade,
        fun _ hstage => by cases hstage⟩
    · refine (h.own hworking).mono hext (fun _ => id) fun hstage hempty => ?_
      -- the lock keeps the other workers of the run away
      have hother : w'.job.runId ≠ w.job.runId := by
        intro hsame
        refine ht (hown.alone (h.own hworking) rfl ?_ hsame)
        cases stage <;> simp [Stage.empty, Stage.holds] at hstage ⊢
      have hskip : v.generationRunId ≠ some w'.job.runId := by
        rw [hrun]
        exact fun heq => hother (Option.some.inj heq).symm
      show outputs (sys.versions ++ [v]) _ = []
      rw [outputs_append, if_neg hskip, hempty, List.append_nil]
  · exact hext.output (h.rows hrow hmaterial hdone)
  · rcases List.mem_append.1 hu with hold | hnew
    · exact h.versions hold hj
    · obtain rfl := List.mem_singleton.1 hnew
      rw [hrun] at hj
      cases hj
      obtain ⟨row, hrow, -, hsame⟩ := hown.row
      exact ⟨hdesk, row, hrow, hnode.trans hsame.symm⟩
  · show (outputs (sys.versions ++ [v]) j).length ≤ 1
    rw [outputs_append]
    split_ifs with hj
    · rw [hrun] at hj
      cases hj
      simp [hnone]
    · rw [List.append_nil]
      exact h.one j

/-! ## Steps -/

/-- A worker takes the lock of its place, which nobody holds. -/
theorem Outputs.lock (h : Outputs sys) (hphase : sys.phase s = .working .loaded w)
    (hfree : sys.held w.run.place = none) :
    Outputs (System.enter { sys with held := Function.update sys.held w.run.place (some s) } s
      (.working .locked w)) := by
  have hown := h.own hphase
  have hheld : Outputs { sys with held := Function.update sys.held w.run.place (some s) } := by
    refine h.of_same rfl rfl rfl fun {t stage w'} _ _ hold => ?_
    have hne : w'.run.place ≠ w.run.place := by
      intro hsame
      rw [hsame, hfree] at hold
      cases hold
    simp [hne, hold]
  refine hheld.working ⟨hown.row, fun _ => ?_, ?_, hown.stored, ?_, ?_, ?_⟩
  · simp
  · exact fun hstage => by cases hstage
  · exact fun _ hstage => by cases hstage
  · exact fun _ hstage => by cases hstage
  · exact fun _ hstage => by cases hstage

omit [DecidableEq S] in
/-- A worker that writes nothing. -/
theorem Attempt.moves (h : Outputs sys) (hown : Attempt sys s stage w)
    (hmoves : Moves sys w stage stage') : Attempt sys s stage' w := by
  cases hmoves with
  | givenUp | halted | inactive | raised | ended => exact hown.stop (by simp)
  | settled hpipeline =>
    exact hown.advance (fun _ => rfl) (fun hstage => by cases hstage)
      (fun hmaterial => absurd hmaterial hpipeline) (fun _ hstage => by cases hstage)
      fun _ hstage => by cases hstage
  | found hlist =>
    have hmade : outputs sys.versions w.job.runId ≠ [] :=
      List.ne_nil_of_mem (mem_outputs.2 (of_found hlist))
    exact hown.advance (fun _ => rfl) (fun _ => hown.material rfl)
      (fun _ hstage => by cases hstage) (fun _ _ => hmade) fun _ hstage => by cases hstage
  | notFound hlist =>
    exact hown.advance (fun _ => rfl) (fun hstage => by cases hstage)
      (fun _ _ => h.outputs_eq_nil hown hlist) (fun _ hstage => by cases hstage)
      fun _ hstage => by cases hstage
  | checked => exact hown.onward rfl rfl fun hstage => by cases hstage
  | skipped last =>
    cases last with
    | true => exact hown.onward rfl rfl fun hstage => by cases hstage
    | false => exact hown.onward rfl rfl fun hstage => by cases hstage
  | active hpipeline => exact hown.onward rfl rfl fun _ => hpipeline
  | handedOver hpipeline =>
    exact hown.advance (fun _ => rfl) (fun hstage => by cases hstage)
      (fun hmaterial => absurd hmaterial hpipeline) (fun _ hstage => by cases hstage)
      fun hmaterial => absurd hmaterial hpipeline

omit [DecidableEq S] in
/-- The row that a worker reads again has the place of the one it had. -/
theorem Attempt.place_reread {fresh : Bool} (hown : Attempt sys s stage w)
    (hread : sys.reread w fresh = some w') : w'.run.place = w.run.place := by
  obtain ⟨row, hrow, hplace, -⟩ := hown.row
  rcases reread_cases hread with rfl | ⟨-, row', hrow', rfl⟩
  · rfl
  · rw [hrow] at hrow'
    cases hrow'
    exact hplace

omit [DecidableEq S] in
/-- A worker that reads its row again. -/
theorem Attempt.rereads {fresh : Bool} (h : Outputs sys) (hown : Attempt sys s stage w)
    (hread : sys.reread w fresh = some w') (hrereads : Rereads w w' s fresh e stage stage') :
    Attempt sys s stage' w' := by
  have hown' : Attempt sys s stage w' := hown.reread h hread
  have hplace := hown.place_reread hread
  cases hrereads with
  | halted | failed => exact hown'.stop (by simp)
  | done hpipeline hresult =>
    rw [← hplace] at hpipeline
    exact hown'.advance (fun _ => rfl) (fun hstage => by cases hstage)
      (fun _ hstage => by cases hstage) (fun _ hstage => by cases hstage)
      fun _ _ => hown'.stored hpipeline hresult
  | settled hpipeline =>
    rw [← hplace] at hpipeline
    exact hown'.advance (fun _ => rfl) (fun _ => hpipeline) (fun _ hstage => by cases hstage)
      (fun _ hstage => by cases hstage) fun _ hstage => by cases hstage
  | graph empty =>
    cases empty with
    | true => exact hown'.onward rfl rfl fun hstage => by cases hstage
    | false => exact hown'.onward rfl rfl fun hstage => by cases hstage

/-- A worker that writes its row: a run is completed only with an output. -/
theorem Outputs.writes (h : Outputs sys) (hphase : sys.phase s = .working stage w)
    {guard : WorkedRun → Bool} {f : WorkedRun → WorkedRun}
    (hwrites : Writes w s e stage guard f stage') :
    Outputs ((sys.writeRun w guard f).enter s (.working stage' w)) := by
  have hown := h.own hphase
  have hcompleted : ∀ row, sys.runs w.job.runId = some row → guard row = true →
      (f row).status = .completed → row.place.pipeline = .studyMaterial →
        HasOutput sys w.job.runId := by
    intro row hrow _ hdone hmaterial
    cases hwrites with
    | checkpoint state last => exact h.rows hrow hmaterial (Or.inr hdone)
    | complete now =>
      obtain ⟨row', hrow', hplace, -⟩ := hown.row
      rw [hrow] at hrow'
      cases hrow'
      exact hown.delivered (hplace ▸ hmaterial) rfl
    | fail now retryAt => cases hdone
  obtain ⟨hwritten, -, -, -, hphase'⟩ := h.writeRun w guard f (fun row => (hwrites.keeps row).1)
    (fun row => (hwrites.keeps row).2.1) (fun row => (hwrites.keeps row).2.2.1) hcompleted
  have hown' := hwritten.own (hphase'.symm ▸ hphase)
  refine hwritten.working ?_
  cases hwrites with
  | checkpoint state last =>
    cases last with
    | true => exact hown'.onward rfl rfl fun hstage => by cases hstage
    | false => exact hown'.onward rfl rfl fun hstage => by cases hstage
  | complete | fail => exact hown'.stop (by simp)

/-- A worker stores its result. -/
theorem Outputs.stores (h : Outputs sys) (hphase : sys.phase s = .working stage w)
    {result : RunResult} (hresult : HasResult w stage result) :
    Outputs ((sys.storeResult w result).enter s (.working .stored w)) := by
  have hown := h.own hphase
  have hmade : result = .vague ∨ outputs sys.versions w.job.runId ≠ [] := by
    cases hresult with
    | vague => exact Or.inl rfl
    | version versionId => exact Or.inr (hown.persisted versionId rfl)
  obtain ⟨row, hrow, -, -⟩ := hown.row
  obtain ⟨hwritten, hext, hheld, houtput⟩ := h.storeResult hrow result hmade
  have hown' := hown.mono hext (fun _ hold => by rwa [hheld]) fun _ hempty => by
    rwa [storeResult_eq hrow]
  refine hwritten.working (hown'.advance (fun _ => ?_) (fun hstage => by cases hstage)
    (fun _ hstage => by cases hstage) (fun _ hstage => by cases hstage) fun _ _ => houtput)
  cases hresult <;> rfl

/-- A worker inserts its version. -/
theorem Outputs.creates (h : Outputs sys) (hphase : sys.phase s = .working .active w)
    (newId : ℕ) (basedOn : Option ℕ) :
    Outputs ((sys.setVersions (Material.createVersion sys.versions w.run.nodeId newId basedOn
      (some w.job.runId))).enter s (.working (.persisted newId) w)) := by
  cases hactive : Material.getActiveVersion sys.versions w.run.nodeId with
  | none =>
    rw [Material.createVersion, hactive]
    exact h.insert hphase rfl rfl (by simp) newId
  | some active =>
    rw [Material.createVersion, hactive]
    have hdeactivated : Outputs (sys.setVersions
        (Material.deactivated sys.versions (some active))) :=
      h.updateVersion active.versionId (fun _ => rfl) (fun _ => rfl) fun _ => id
    exact hdeactivated.insert hphase rfl rfl (by simp) newId

/-- **A step of a worker.** -/
theorem work_outputs (h : Outputs sys) (hstep : sys.work e = some sys') : Outputs sys' := by
  obtain ⟨s, hworked⟩ := work_cases hstep
  cases hworked with
  | stopped hphase =>
    rcases hphase with rfl | ⟨job, rfl⟩
    · exact h.stopped (by simp)
    · exact h.stopped (by simp)
  | @loaded job row hphase hrow hrunning =>
    refine h.working ⟨⟨row, hrow, rfl, rfl⟩, ?_, ?_, ?_, ?_, ?_, ?_⟩
    · exact fun hstage => by cases hstage
    · exact fun hstage => by cases hstage
    · exact fun hmaterial hresult => h.rows hrow hmaterial (Or.inl hresult)
    · exact fun _ hstage => by cases hstage
    · exact fun _ hstage => by cases hstage
    · exact fun _ hstage => by cases hstage
  | locked hphase hfree => exact h.lock hphase hfree
  | moved hphase hmoves => exact h.working ((h.own hphase).moves h hmoves)
  | reread hphase hread hrereads => exact h.working ((h.own hphase).rereads h hread hrereads)
  | wrote hphase hwrites => exact h.writes hphase hwrites
  | inserted hphase hnew => exact h.creates hphase _ _
  | stored hphase hresult => exact h.stores hphase hresult
  | unlocked hphase hstage =>
    refine h.unlock hphase ?_
    rcases hstage with rfl | rfl <;> rfl
  | @reconciled _ w now hphase =>
    obtain ⟨hwritten, -⟩ := h.writeRun w
      (fun row => row.status = .running && row.executionToken = w.loadedToken)
      (fun row => row.change (.fail none) now) (fun _ => rfl) (fun _ => rfl) (fun _ => rfl)
      fun row _ _ hdone => by cases hdone
    exact hwritten.release (fun heq => by cases heq)
  | left => exact h.release (fun heq => by cases heq)

/-- **A step of a request on a run.** -/
theorem request_outputs (h : Outputs sys) (hstep : sys.request e = some sys') : Outputs sys' := by
  cases e with
  | start q nodeId mode now choice => exact h.start hstep
  | pause runId mentorId now =>
    obtain ⟨row, hrow, hrest⟩ := Option.bind_eq_some_iff.1 hstep
    split_ifs at hrest
    cases hrest
    exact h.change hrow rfl rfl rfl fun hdone => by cases hdone
  | readResume s runId mentorId now =>
    obtain ⟨row, -, hrest⟩ := Option.bind_eq_some_iff.1 hstep
    split_ifs at hrest
    cases hrest
    exact h.stopped (by simp)
  | clearResume s choice =>
    rw [System.request] at hstep
    split at hstep
    · split_ifs at hstep
      cases hstep
      exact h.stopped (by simp)
    · cases hstep
  | resume s token now =>
    rw [System.request] at hstep
    split at hstep
    · rename_i runId run hphase
      split_ifs at hstep
      obtain ⟨row, hrow, rfl⟩ := Option.map_eq_some_iff.1 hstep
      refine Outputs.stopped ?_ (by simp)
      refine Outputs.of_same (h.change hrow ?_ ?_ ?_ ?_) rfl rfl rfl ?_
      · exact rfl
      · exact rfl
      · exact rfl
      · exact fun hdone => by cases hdone
      · exact fun _ _ => id
    · cases hstep
  | sweep runId threshold now =>
    obtain ⟨row, hrow, hrest⟩ := Option.bind_eq_some_iff.1 hstep
    split_ifs at hrest
    cases hrest
    exact h.change hrow rfl rfl rfl fun hdone => by cases hdone
  | _ => cases hstep

/-- The steps that discard no version; of the requests here, only an abandonment discards. -/
def Undiscarded (_ : System S) : Event S → Prop
  | .discard _ => False
  | _ => True

/-- **A step of a request on study material** that discards no version. -/
theorem discarding_outputs (h : Outputs sys) (hkept : Undiscarded sys e)
    (hstep : sys.discarding e = some sys') : Outputs sys' := by
  cases e with
  | publish nodeId versionId superseded =>
    obtain ⟨versions, hpublish, rfl⟩ := Option.map_eq_some_iff.1 hstep
    rw [Material.step, Option.bind_eq_some_iff] at hpublish
    obtain ⟨v, -, hrest⟩ := hpublish
    split_ifs at hrest
    cases hrest
    exact h.publishVersion nodeId versionId superseded
  | readAbandon s runId mentorId =>
    obtain ⟨row, -, hrest⟩ := Option.bind_eq_some_iff.1 hstep
    split_ifs at hrest
    cases hrest
    exact h.stopped (by simp)
  | listOutput s =>
    obtain ⟨a, -, rfl⟩ := Option.map_eq_some_iff.1 hstep
    dsimp only
    split_ifs
    · exact h.stopped (by simp)
    · exact h.stopped (by simp)
  | select s =>
    rw [System.discarding] at hstep
    split at hstep
    · cases hstep
      exact h.stopped (by simp)
    · cases hstep
  | discard s => exact hkept.elim
  | readRestore s =>
    rw [System.discarding] at hstep
    split at hstep
    · cases hstep
      exact h.stopped (by simp)
    · cases hstep
  | restore s =>
    rw [System.discarding] at hstep
    split at hstep
    · cases hstep
      refine Outputs.stopped ?_ (by simp)
      exact h.updateVersion _ (fun _ => rfl) (fun _ => rfl) fun _ => id
    · cases hstep
  | abandon s now fresh =>
    obtain ⟨a, -, hrest⟩ := Option.bind_eq_some_iff.1 hstep
    obtain ⟨row, hrow, rfl⟩ := Option.map_eq_some_iff.1 hrest
    have habandoned : Outputs { sys with abandoned := a.runId :: sys.abandoned } :=
      h.of_same rfl rfl rfl fun _ _ => id
    have hreported : Outputs (System.enter { sys with abandoned := a.runId :: sys.abandoned } s
        (.abandoning a .reported)) := habandoned.stopped (by simp)
    dsimp only
    split_ifs
    · exact hreported.change hrow rfl rfl rfl fun hdone => by cases hdone
    · exact h.stopped (by simp)
    · exact hreported
  | _ => cases hstep

/-! ## Runs -/

/-- **Each run has at most one version, and a completed run of study material has exactly one or
has stored a vague result**, in every run of starts, workers, pauses, resumes and sweeps, and of
any other requests that discard no version. -/
theorem one_output (h : Runs.Reachable step Undiscarded Fresh sys) (runId : ℕ) :
    (outputs sys.versions runId).length ≤ 1 ∧
      ∀ row, sys.runs runId = some row → row.place.pipeline = .studyMaterial →
        row.status = .completed →
          (outputs sys.versions runId).length = 1 ∨ row.result = some .vague := by
  have hinv : Outputs sys := by
    refine h.invariant (fun _ hs => fresh_outputs hs) fun s e s' hinv hkept hstep => ?_
    rcases step_cases hstep with hwork | hrequest | hdiscarding
    · exact work_outputs hinv hwork
    · exact request_outputs hinv hrequest
    · exact discarding_outputs hinv hkept hdiscarding
  refine ⟨hinv.one runId, fun row hrow hmaterial hdone => ?_⟩
  rcases hinv.rows hrow hmaterial (Or.inr hdone) with hmade | ⟨row', hrow', hvague⟩
  · exact Or.inl (Nat.le_antisymm (hinv.one runId) (List.length_pos_iff.2 hmade))
  · rw [hrow] at hrow'
    cases hrow'
    exact Or.inr hvague

instance (sys : System S) : ∀ e, Decidable (Undiscarded sys e)
  | .discard _ => isFalse id
  | .start .. | .deliver .. | .load _ | .lock _ | .giveUp _ | .settle .. | .list _ | .startGraph ..
  | .check _ | .checkpoint .. | .skip .. | .finalize _ | .persist .. | .vague _ | .store _
  | .complete .. | .raise _ | .readFail .. | .fail .. | .unlock _ | .endJob _ | .reconcile ..
  | .leave _ | .pause .. | .readResume .. | .clearResume .. | .resume .. | .sweep .. | .publish ..
  | .readAbandon .. | .listOutput _ | .select _ | .readRestore _ | .restore _ | .abandon .. =>
    isTrue trivial

end Steps

/-- The first worker dies behind its insertion, the run is swept and resumed, and the second worker
finds the version. -/
theorem completed_by_second_worker :
    ∃ sys : System Bool, Runs.Reachable step Undiscarded Fresh sys ∧
      (∃ row, sys.runs 1 = some row ∧ row.status = .completed ∧ row.result = some (.version 40)) ∧
      (outputs sys.versions 1).length ≤ 1 := by
  have hrun : Runs.run (fun sys e => if Undiscarded sys e then step sys e else none) emptySystem
      (startedRun ++ toGraph ++ [Event.check true, .checkpoint true 1 true, .finalize true,
        .persist true 40 none, .leave true, .sweep 1 60 70, .readResume false 1 9 80,
        .clearResume false (some 1), .resume false 200 80, .deliver true ⟨1, 200⟩, .load true,
        .lock true, .settle true false, .list true, .store true, .complete true 90]) =
      some _ := rfl
  have hreached := Runs.reachable_of_checked emptySystem_fresh hrun
  exact ⟨_, hreached, ⟨_, rfl, rfl, rfl⟩, (one_output hreached 1).1⟩

end StudyAgent.Generation.Workers
