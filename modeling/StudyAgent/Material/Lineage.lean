import StudyAgent.Base.PointerChase
import StudyAgent.Material.Desk

/-!
# The lineage of a version

A version may be based on another, and the history shows for each what it comes from, as far as
that can be followed.  The loop that follows it guards itself against a version that comes again.

Main results:

* `origin_step` — what a request leaves of the origins of the versions.
* `lineage_complete` — **the versions of a node are numbered in the order in which they were made,
and a lineage leads back through ever older versions** to one that was made from nothing, or from a
version that is discarded.
-/

namespace StudyAgent.Material

open StudyMaterialVersion
open MarkedRows (find mem_of_find)

/-- What no request changes of a row. -/
structure Origin where
  versionId : ℕ
  nodeId : ℕ
  versionNumber : ℕ
  basedOnVersionId : Option ℕ
  deriving DecidableEq

def StudyMaterialVersion.origin (v : StudyMaterialVersion) : Origin where
  versionId := v.versionId
  nodeId := v.nodeId
  versionNumber := v.versionNumber
  basedOnVersionId := v.basedOnVersionId

/-- The `lineage_chain` in `from_version_row`: what a version is based on, what that is based on,
and so on. -/
def lineageChain (versionLookup : List StudyMaterialVersion) (v : StudyMaterialVersion) :
    List StudyMaterialVersion :=
  PointerChase.chase versionId basedOnVersionId versionLookup (versionLookup.length + 1) []
    v.basedOnVersionId

/-- The `based_on_version_number` in `from_version_row`. -/
def basedOnVersionNumber (versionLookup : List StudyMaterialVersion) (v : StudyMaterialVersion) :
    Option ℕ :=
  (v.basedOnVersionId.bind (getVersionById versionLookup)).map versionNumber

variable {versions versions' : List StudyMaterialVersion} {v : StudyMaterialVersion} {n k : ℕ}

/-! ## Origins -/

@[simp] theorem origin_retire (retention : Lifecycle.RetentionMode) :
    (v.retire retention).origin = v.origin := by
  cases retention <;> rfl

theorem map_origin_map {f : StudyMaterialVersion → StudyMaterialVersion}
    (hf : ∀ v, (f v).origin = v.origin) : (versions.map f).map origin = versions.map origin := by
  rw [List.map_map]
  exact List.map_congr_left fun v _ => hf v

theorem map_origin_update {f : StudyMaterialVersion → StudyMaterialVersion}
    (hf : ∀ v, (f v).origin = v.origin) :
    (updateVersion versions k f).map origin = versions.map origin := by
  refine map_origin_map fun v => ?_
  split_ifs
  · exact hf v
  · rfl

theorem map_origin_deactivated (active : Option StudyMaterialVersion) :
    (deactivated versions active).map origin = versions.map origin := by
  cases active with
  | none => rfl
  | some a => exact map_origin_update fun _ => rfl

theorem map_origin_activateInstead :
    (activateInstead versions n k).map origin = versions.map origin := by
  rw [activateInstead, map_origin_update (f := activate) fun _ => rfl]
  exact map_origin_deactivated _

theorem map_origin_publishVersion (retention : Lifecycle.RetentionMode) :
    (publishVersion versions n k retention).map origin = versions.map origin := by
  rw [publishVersion, map_origin_update (f := transitionToActive) fun _ => rfl]
  refine map_origin_map fun v => ?_
  split_ifs
  · exact origin_retire retention
  · rfl

theorem map_origin_discardWhere (p : StudyMaterialVersion → Prop) [DecidablePred p] :
    (versions.map fun v => if p v then v.transitionToDiscarded else v).map origin =
      versions.map origin := by
  refine map_origin_map fun v => ?_
  split_ifs <;> rfl

theorem map_origin_abandon (run : GenerationRun) :
    (discardArtifactsForGenerationRun versions run).map origin = versions.map origin := by
  simp only [discardArtifactsForGenerationRun]
  split_ifs
  · rfl
  · have hdiscarded : (discardVersionsByIds versions (run.versionIds versions)).map origin =
        versions.map origin :=
      map_origin_discardWhere fun v => v.versionId ∈ run.versionIds versions ∧ v.OnDesk
    unfold restoreWorkingDraftAfterDiscard
    split
    · rw [map_origin_update (f := activate) fun _ => rfl]
      exact hdiscarded
    · exact hdiscarded

/-- **What a request leaves of the origins**: all of them, and it may make one version, from nothing
or from the active one of its node. -/
theorem origin_step {r : Request} (hstep : step versions r = some versions') :
    versions'.map origin = versions.map origin ∨
      ∃ n newId basedOn runId, newId ∉ versions.map versionId ∧
        (∀ k ∈ basedOn, ∃ a, getActiveVersion versions n = some a ∧ a.versionId = k) ∧
        versions' = createVersion versions n newId basedOn runId := by
  cases r with
  | generate nodeId runId newId =>
    rw [step] at hstep
    split_ifs at hstep with hnew
    cases hstep
    exact Or.inr ⟨nodeId, newId, none, some runId, hnew, by simp, rfl⟩
  | feedback nodeId runId newId =>
    rw [step] at hstep
    split_ifs at hstep with hnew
    obtain ⟨active, hactive, rfl⟩ := Option.map_eq_some_iff.1 hstep
    exact Or.inr ⟨nodeId, newId, some active.versionId, some runId, hnew,
      fun k hk => ⟨active, hactive, by simpa using hk⟩, rfl⟩
  | manualEdit nodeId newId =>
    rw [step] at hstep
    split_ifs at hstep with hnew
    cases hstep
    refine Or.inr ⟨nodeId, newId, _, none, hnew, fun k hk => ?_, rfl⟩
    exact Option.map_eq_some_iff.1 hk
  | activate nodeId versionId =>
    obtain ⟨v, -, rfl⟩ := Option.map_eq_some_iff.1 hstep
    refine Or.inl (map_origin_activateInstead.trans ?_)
    split_ifs
    · exact map_origin_update fun _ => rfl
    · rfl
  | archive nodeId versionId =>
    obtain ⟨v, -, hv⟩ := Option.bind_eq_some_iff.1 hstep
    split_ifs at hv
    cases hv
    exact Or.inl (map_origin_update fun _ => rfl)
  | unarchive nodeId versionId =>
    obtain ⟨v, -, hv⟩ := Option.bind_eq_some_iff.1 hstep
    split_ifs at hv
    cases hv
    exact Or.inl (map_origin_activateInstead.trans (map_origin_update fun _ => rfl))
  | publish nodeId versionId superseded =>
    obtain ⟨v, -, hv⟩ := Option.bind_eq_some_iff.1 hstep
    split_ifs at hv
    cases hv
    exact Or.inl (map_origin_publishVersion superseded)
  | unpublish nodeId versionId retention =>
    obtain ⟨v, -, hv⟩ := Option.bind_eq_some_iff.1 hstep
    split_ifs at hv
    cases hv
    exact Or.inl (map_origin_update fun _ => origin_retire retention)
  | clearDrafts nodeId blockingQuizzes =>
    rw [step] at hstep
    split_ifs at hstep
    cases hstep
    exact Or.inl (map_origin_discardWhere fun v => v.nodeId = nodeId ∧ v.MentorDiscardable)
  | abandon run =>
    cases hstep
    exact Or.inl (map_origin_abandon run)
  | deleteNodes nodeIds =>
    cases hstep
    refine Or.inl (map_origin_map fun v => ?_)
    unfold cascadeNodeDelete
    split_ifs <;> rfl

/-! ## Numbers -/

/-- The versions of a node are numbered one after the other, and a version is based on an older one
of its node. -/
structure Descends (rows : List Origin) : Prop where
  ids : (rows.map Origin.versionId).Nodup
  numbers : ∀ n, (rows.filter fun o => o.nodeId = n).map Origin.versionNumber =
    List.range' 1 (rows.filter fun o => o.nodeId = n).length
  older : ∀ o ∈ rows, ∀ k ∈ o.basedOnVersionId, ∃ p ∈ rows, p.versionId = k ∧
    p.nodeId = o.nodeId ∧ p.versionNumber < o.versionNumber

theorem foldl_max_range' (k : ℕ) : (List.range' 1 k).foldl max 0 = k := by
  induction k with
  | zero => rfl
  | succ k ih =>
    rw [List.range'_concat, List.foldl_append, ih]
    simp
    omega

theorem filter_origin (versions : List StudyMaterialVersion) (n : ℕ) :
    (versions.map origin).filter (fun o => o.nodeId = n) =
      (versions.filter fun v => v.nodeId = n).map origin := by
  rw [List.filter_map]
  rfl

theorem Descends.next (h : Descends (versions.map origin)) :
    getNextVersionNumber versions n =
      ((versions.map origin).filter fun o => o.nodeId = n).length + 1 := by
  have hnumbers := h.numbers n
  rw [filter_origin, List.map_map] at hnumbers
  have hsame : (versions.filter fun v => v.nodeId = n).map versionNumber =
      List.range' 1 ((versions.filter fun v => v.nodeId = n).map origin).length := hnumbers
  rw [getNextVersionNumber, hsame, foldl_max_range', filter_origin]

/-- The numbers of a node are below the next one. -/
theorem Descends.lt_next (h : Descends (versions.map origin)) (hv : v ∈ versions)
    (hn : v.nodeId = n) : v.versionNumber < getNextVersionNumber versions n := by
  have hmem : v.versionNumber ∈
      ((versions.map origin).filter fun o => o.nodeId = n).map Origin.versionNumber := by
    refine List.mem_map.2 ⟨v.origin, List.mem_filter.2 ⟨List.mem_map_of_mem hv, ?_⟩, rfl⟩
    exact decide_eq_true hn
  rw [h.numbers, List.mem_range'_1] at hmem
  rw [h.next]
  omega

theorem Descends.createVersion (h : Descends (versions.map origin)) {newId : ℕ}
    {basedOn runId : Option ℕ} (hnew : newId ∉ versions.map versionId)
    (hbased : ∀ k ∈ basedOn, ∃ a, getActiveVersion versions n = some a ∧ a.versionId = k) :
    Descends ((Material.createVersion versions n newId basedOn runId).map origin) := by
  have hrows : (Material.createVersion versions n newId basedOn runId).map origin =
      versions.map origin ++ [⟨newId, n, getNextVersionNumber versions n, basedOn⟩] := by
    rw [Material.createVersion, List.map_append, map_origin_deactivated]
    rfl
  rw [hrows]
  refine ⟨?_, fun m => ?_, fun o ho k hk => ?_⟩
  · rw [List.map_append, List.nodup_append]
    refine ⟨h.ids, List.nodup_singleton _, fun a ha b hb heq => hnew ?_⟩
    obtain rfl : b = newId := by simpa using hb
    rw [List.map_map] at ha
    exact heq ▸ ha
  · rw [List.filter_append, List.map_append, List.length_append, h.numbers]
    by_cases hm : n = m
    · subst hm
      rw [List.filter_cons_of_pos (by simp), List.filter_nil, List.length_singleton,
        List.range'_concat]
      simp [h.next, Nat.add_comm]
    · simp [hm]
  · rcases List.mem_append.1 ho with hold | hadded
    · obtain ⟨p, hp, hrest⟩ := h.older o hold k hk
      exact ⟨p, List.mem_append_left _ hp, hrest⟩
    · obtain rfl := List.mem_singleton.1 hadded
      obtain ⟨a, hactive, rfl⟩ := hbased k hk
      obtain ⟨hmem, hn, -⟩ := getActiveVersion_eq_some hactive
      refine ⟨a.origin, List.mem_append_left _ (List.mem_map_of_mem hmem), rfl, hn, ?_⟩
      exact h.lt_next hmem hn

theorem descends_of_reachable
    (h : Runs.Reachable step (fun _ _ => True) (fun rows => Descends (rows.map origin)) versions) :
    Descends (versions.map origin) := by
  refine h.invariant (fun _ hs => hs) fun s s' r hs _ hstep => ?_
  rcases origin_step hstep with hsame | ⟨n, newId, basedOn, runId, hnew, hbased, rfl⟩
  · rwa [hsame]
  · exact hs.createVersion hnew hbased

/-! ## Lineages -/

/-- Among the versions that the mentor sees, what a version is based on is older. -/
theorem Descends.down (h : Descends (versions.map origin)) :
    ∀ u ∈ getAllVersions versions n, ∀ k ∈ u.basedOnVersionId, ∀ w,
      find versionId (getAllVersions versions n) k = some w →
        w.versionNumber < u.versionNumber := by
  intro u hu k hk w hw
  obtain ⟨hmem, rfl⟩ := mem_of_find hw
  have hu' := List.mem_map_of_mem (f := origin) (mem_getAllVersions.1 hu).1
  have hw' := List.mem_map_of_mem (f := origin) (mem_getAllVersions.1 hmem).1
  obtain ⟨p, hp, hid, -, hlower⟩ := h.older _ hu' _ hk
  obtain rfl : p = w.origin := List.inj_on_of_nodup_map h.ids hp hw' hid
  exact hlower

/-- **The versions of a node are numbered in the order in which they were made, and the lineage of a
version is whole**, after every run of requests: the numbers fall along it, each version of it is
the one that the version before is based on, and it ends with a version that is based on none, or on
one that has been discarded. -/
theorem lineage_complete
    (h : Runs.Reachable step (fun _ _ => True) (fun rows => Descends (rows.map origin)) versions)
    (n : ℕ) :
    (versions.filter fun v => v.nodeId = n).map versionNumber =
        List.range' 1 (versions.filter fun v => v.nodeId = n).length ∧
      ∀ v ∈ getAllVersions versions n,
        (v :: lineageChain (getAllVersions versions n) v).Pairwise
          (fun u w => w.versionNumber < u.versionNumber) ∧
        List.IsChain (fun u w => u.basedOnVersionId = some w.versionId)
          (v :: lineageChain (getAllVersions versions n) v) ∧
        basedOnVersionNumber (getAllVersions versions n) v =
          (lineageChain (getAllVersions versions n) v).head?.map versionNumber ∧
        ∀ u ∈ (v :: lineageChain (getAllVersions versions n) v).getLast?,
          ∀ k ∈ u.basedOnVersionId, ∃ w ∈ versions, w.versionId = k ∧ w.nodeId = n ∧
            w.lifecycleStatus = .discarded := by
  have hdescends := descends_of_reachable h
  refine ⟨?_, fun v hv => ?_⟩
  · have hnumbers := hdescends.numbers n
    rw [filter_origin, List.map_map, List.length_map] at hnumbers
    exact hnumbers
  · have hchain : PointerChase.Chain versionId basedOnVersionId (getAllVersions versions n)
        v.basedOnVersionId (lineageChain (getAllVersions versions n) v) := by
      refine PointerChase.chase_chain hdescends.down ?_ (by simp)
      exact Nat.lt_succ_of_le (List.length_filter_le _ _)
    have hlower := hchain.lower hdescends.down (hdescends.down v hv)
    have hfirst : basedOnVersionNumber (getAllVersions versions n) v =
        (lineageChain (getAllVersions versions n) v).head?.map versionNumber := by
      rw [hchain.head_eq]
      rfl
    refine ⟨.cons hlower (hchain.descending hdescends.down), hchain.links, hfirst, ?_⟩
    intro u hu k hk
    have hlost := hchain.last u hu k hk
    have hmem : u ∈ getAllVersions versions n := by
      rcases List.mem_cons.1 (List.mem_of_getLast? hu) with rfl | hin
      · exact hv
      · exact hchain.mem u hin
    obtain ⟨huv, hun, -⟩ := mem_getAllVersions.1 hmem
    obtain ⟨p, hp, hid, hnode, -⟩ := hdescends.older _ (List.mem_map_of_mem huv) k hk
    obtain ⟨w, hw, rfl⟩ := List.mem_map.1 hp
    refine ⟨w, hw, hid, hnode.trans hun, ?_⟩
    by_contra hseen
    have hvisible : w ∈ getAllVersions versions n :=
      mem_getAllVersions.2 ⟨hw, hnode.trans hun, hseen⟩
    rw [find, List.find?_eq_none] at hlost
    exact hlost w hvisible (by simpa [origin] using hid)

/-- The second of three versions has been discarded, and the third is based on it. -/
def discardedBetween : List Request :=
  [.generate 5 40 1, .feedback 5 41 2, .feedback 5 42 3,
    .abandon { runId := 41, nodeId := 5, generateVersionId := none, feedbackVersionId := some 2 },
    .feedback 5 43 4]

/-- The versions after that. -/
def discardedBetweenVersions : List StudyMaterialVersion :=
  (Runs.run step [] discardedBetween).getD []

theorem discardedBetween_lineage :
    ((getAllVersions discardedBetweenVersions 5).map fun v =>
        (lineageChain (getAllVersions discardedBetweenVersions 5) v).map versionId) =
          [[3], [], []] ∧
      (discardedBetweenVersions.filter fun v => v.nodeId = 5).map versionNumber =
        List.range' 1 (discardedBetweenVersions.filter fun v => v.nodeId = 5).length := by
  have hempty : Descends (([] : List StudyMaterialVersion).map origin) :=
    ⟨List.nodup_nil, fun _ => rfl, by simp⟩
  have hrun : Runs.run step [] discardedBetween = some discardedBetweenVersions := rfl
  have hreached : Runs.Reachable step (fun _ _ => True)
      (fun rows => Descends (rows.map origin)) discardedBetweenVersions :=
    Runs.reachable_of_run hempty hrun
  exact ⟨by decide, (lineage_complete hreached 5).1⟩

end StudyAgent.Material
