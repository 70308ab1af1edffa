import StudyAgent.Batch.Counters

/-!
# One running step for each batch

A worker looks for a running step, locks a pending one, and writes its claim later.  Where
both answers still hold when the claim is written, no two steps run, and a step is reset
before it is claimed again.

Main results:

* `flush_claimInv` — what a flush does to the running steps and to the record of each.
* `one_running_step` — **then at most one step is ever running, and between two claims of a
  step lies a reset.**
-/

namespace StudyAgent.Batch

open ReadCommitted

variable {n : ℕ}

/-! ## Records of statuses -/

/-- A step has the status written last, and is claimed only when that was pending. -/
def RecordOk (r : StepRecord) : Prop :=
  r.step.status = r.written.getLastD .pending ∧
    ∀ a c, r.written = a ++ .running :: c → a.getLastD .pending = .pending

/-- Between two claims of the step lies a reset. -/
def ClaimsSeparated (r : StepRecord) : Prop :=
  ∀ a b c, r.written = a ++ .running :: (b ++ .running :: c) → .pending ∈ b

theorem RecordOk.claimsSeparated {r : StepRecord} (h : RecordOk r) : ClaimsSeparated r := by
  intro a b c hwritten
  have hlast := h.2 (a ++ .running :: b) c (by simp [hwritten])
  rcases List.eq_nil_or_concat b with rfl | ⟨b', status, rfl⟩
  · simp at hlast
  · have hsnoc : a ++ .running :: b'.concat status = (a ++ .running :: b') ++ [status] := by simp
    rw [hsnoc] at hlast
    have hstatus : status = .pending := by
      rwa [List.getLastD_concat] at hlast
    simp [hstatus]

/-- A flush appends the status that it writes; a claim finds the step pending. -/
theorem RecordOk.updated {r : StepRecord} {c : Copy BatchJobStep} (h : RecordOk r)
    (hclaim : c.now.status = .running → c.loaded.status = .running ∨ r.step.status = .pending) :
    RecordOk (r.updated c) := by
  by_cases hsame : c.now.status = c.loaded.status
  · simpa [RecordOk, StepRecord.updated, column, hsame] using h
  · have hwritten : (r.updated c).written = r.written ++ [c.now.status] := if_neg hsame
    have hstatus : (r.updated c).step.status = c.now.status := if_neg hsame
    refine ⟨by rw [hwritten, hstatus]; simp, fun a d hsplit => ?_⟩
    rw [hwritten] at hsplit
    rcases List.eq_nil_or_concat d with rfl | ⟨d', status, rfl⟩
    · obtain ⟨rfl, hrun⟩ := List.append_inj' hsplit rfl
      have hrun' : c.now.status = .running := by simpa using hrun
      have hpending := (hclaim hrun').resolve_left fun hloaded => hsame (hrun'.trans hloaded.symm)
      exact h.1.symm.trans hpending
    · have hsnoc : r.written ++ [c.now.status] = (a ++ .running :: d') ++ [status] := by
        simpa using hsplit
      exact h.2 a d' (List.append_inj' hsnoc rfl).1

/-! ## The condition -/

/-- A step is running, as committed or as some session has written it. -/
def Tables.RunningAt (tb : Tables n) (k : Fin n) : Prop :=
  (∃ r ∈ tb.steps.rows k, r.step.status = .running) ∨
    ∃ w ∈ tb.steps.pending k, w.2.step.status = .running

instance (tb : Tables n) (k : Fin n) : Decidable (tb.RunningAt k) :=
  inferInstanceAs (Decidable ((∃ r ∈ tb.steps.rows k, _) ∨ ∃ w ∈ tb.steps.pending k, _))

/-- The step is still pending, and no other step is running. -/
def Claimable (tb : Tables n) (t : ℕ) (k : Fin n) : Prop :=
  (∀ row ∈ tb.steps.view t k, row.step.status = .pending) ∧ ∀ j, j ≠ k → ¬ tb.RunningAt j

instance (tb : Tables n) (t : ℕ) (k : Fin n) : Decidable (Claimable tb t k) :=
  inferInstanceAs (Decidable ((∀ row ∈ tb.steps.view t k, _) ∧ ∀ _, _))

/-- What a worker has found before its claim still holds when it writes the claim. -/
def ClaimsAlone (s : System n) (i : ℕ × Action n) : Prop :=
  match s.sessions i.1, i.2 with
  | some session, .next _ answer => ∀ k ∈ claims answer session, Claimable s.tables i.1 k
  | _, _ => True

instance (s : System n) (i : ℕ × Action n) : Decidable (ClaimsAlone s i) := by
  obtain ⟨t, a⟩ := i
  dsimp only [ClaimsAlone]
  split <;> infer_instance

/-! ## The tables -/

structure ClaimInv (tb : Tables n) : Prop where
  one : ∀ {j k}, tb.RunningAt j → tb.RunningAt k → j = k
  rows : ∀ {k}, ∀ r ∈ tb.steps.rows k, RecordOk r
  writes : tb.steps.Writes fun _ _ _ r => RecordOk r

section Tables

variable {tb tb' : Tables n} {t : ℕ} {m : Memory n} {k : Fin n} {r : StepRecord}

theorem runningAt_of_view (h : r ∈ tb.steps.view t k) (hrun : r.step.status = .running) :
    tb.RunningAt k := by
  rcases tb.steps.view_cases t k with ⟨r', hr', hview⟩ | ⟨-, hview⟩
  · rw [hview] at h
    cases h
    exact Or.inr ⟨_, hr', hrun⟩
  · rw [hview] at h
    exact Or.inl ⟨r, h, hrun⟩

theorem ClaimInv.view (hinv : ClaimInv tb) (h : r ∈ tb.steps.view t k) : RecordOk r := by
  rcases tb.steps.view_cases t k with ⟨r', hr', hview⟩ | ⟨-, hview⟩
  · rw [hview] at h
    cases h
    exact hinv.writes k t r hr'
  · rw [hview] at h
    exact hinv.rows r h

theorem mem_stepWrites (h : tb.stepWrites t m k = some r) :
    ∃ c ∈ m.steps k, ∃ row ∈ tb.steps.view t k, r = row.updated c := by
  obtain ⟨c, hc, hwrite⟩ := Option.bind_eq_some_iff.1 h
  split_ifs at hwrite
  obtain ⟨row, hrow, rfl⟩ := Option.map_eq_some_iff.1 hwrite
  exact ⟨c, hc, row, hrow, rfl⟩

/-- A written step runs only if it did before, or has been claimed. -/
theorem running_updated {row : StepRecord} {c : Copy BatchJobStep} {claimed : Option (Fin n)}
    (hclaims : c.now.status = .running → c.loaded.status = .running ∨ k ∈ claimed)
    (h : (row.updated c).step.status = .running) :
    row.step.status = .running ∨ k ∈ claimed := by
  by_cases hsame : c.now.status = c.loaded.status
  · have hstatus : (row.updated c).step.status = row.step.status := if_pos hsame
    exact Or.inl (hstatus ▸ h)
  · have hstatus : (row.updated c).step.status = c.now.status := if_neg hsame
    rw [hstatus] at h
    exact Or.inr ((hclaims h).resolve_left fun hloaded => hsame (h.trans hloaded.symm))

/-- **What a flush does to the running steps and to the records.** -/
theorem flush_claimInv {claimed : Option (Fin n)} (hinv : ClaimInv tb)
    (hclaims : ∀ k, ∀ c ∈ m.steps k, c.now.status = .running →
      c.loaded.status = .running ∨ k ∈ claimed)
    (hclaimable : ∀ k ∈ claimed, Claimable tb t k) (h : tb.flush t m = some tb') :
    ClaimInv tb' := by
  obtain ⟨-, -, rfl⟩ := flush_eq_some h
  have hrunning : ∀ {k}, Tables.RunningAt ⟨tb.batch.writeAll t (tb.batchWrites t m),
      tb.steps.writeAll t (tb.stepWrites t m)⟩ k → tb.RunningAt k ∨ k ∈ claimed := by
    rintro k (hrow | ⟨⟨u, r⟩, hw, hrun⟩)
    · exact Or.inl (Or.inl hrow)
    · rcases Store.pending_writeAll hw with ⟨hwrite, -⟩ | ⟨-, hold⟩
      · obtain ⟨c, hc, row, hrow, rfl⟩ := mem_stepWrites hwrite
        exact (running_updated (hclaims k c hc) hrun).imp_left (runningAt_of_view hrow)
      · exact Or.inl (Or.inr ⟨_, hold, hrun⟩)
  refine ⟨fun {j k} hj hk => ?_, hinv.rows, fun k u r hp => ?_⟩
  · rcases hrunning hj with hj | hj
    · rcases hrunning hk with hk | hk
      · exact hinv.one hj hk
      · by_contra hne
        exact (hclaimable k hk).2 j hne hj
    · rcases hrunning hk with hk | hk
      · by_contra hne
        exact (hclaimable j hj).2 k (Ne.symm hne) hk
      · exact Option.some.inj (hj.symm.trans hk)
  · rcases Store.pending_writeAll hp with ⟨hwrite, -⟩ | ⟨-, hold⟩
    · obtain ⟨c, hc, row, hrow, rfl⟩ := mem_stepWrites hwrite
      refine (hinv.view hrow).updated fun hrun => (hclaims k c hc hrun).imp_right fun hk => ?_
      exact (hclaimable k hk).1 row hrow
    · exact hinv.writes k u r hold

theorem lock_claimInv (hinv : ClaimInv tb) {steps : Store (Fin n) StepRecord Empty ℕ}
    (h : tb.steps.update t k (fun _ => true) id = some steps) :
    ClaimInv { tb with steps := steps } := by
  rcases Store.update_cases h with ⟨rfl, -⟩ | ⟨row, hrow, -, -, rfl⟩
  · exact hinv
  · have hrunning : ∀ {j}, Tables.RunningAt { tb with steps := tb.steps.write t k row } j →
        tb.RunningAt j := by
      rintro j (hr | ⟨w, hw, hrun⟩)
      · exact Or.inl hr
      · change (tb.steps.write t k row).pending j = some w at hw
        rw [Store.pending_write] at hw
        split_ifs at hw with hj
        · cases hw
          exact hj ▸ runningAt_of_view hrow hrun
        · exact Or.inr ⟨w, hw, hrun⟩
    exact ⟨fun hj hk => hinv.one (hrunning hj) (hrunning hk), hinv.rows,
      hinv.writes.write (hinv.view hrow)⟩

theorem commit_claimInv (hinv : ClaimInv tb) : ClaimInv (tb.commit t) := by
  have hrunning : ∀ {j}, (tb.commit t).RunningAt j → tb.RunningAt j := by
    rintro j (⟨r, hr, hrun⟩ | ⟨⟨u, r⟩, hw, hrun⟩)
    · exact runningAt_of_view hr hrun
    · exact Or.inr ⟨_, (Store.pending_commit.1 hw).1, hrun⟩
  exact ⟨fun hj hk => hinv.one (hrunning hj) (hrunning hk), fun r hr => hinv.view hr,
    hinv.writes.commit t⟩

theorem rollback_claimInv (hinv : ClaimInv tb) : ClaimInv (tb.rollback t) := by
  have hrunning : ∀ {j}, (tb.rollback t).RunningAt j → tb.RunningAt j := by
    rintro j (hr | ⟨⟨u, r⟩, hw, hrun⟩)
    · exact Or.inl hr
    · exact Or.inr ⟨_, (Store.pending_rollback.1 hw).1, hrun⟩
  exact ⟨fun hj hk => hinv.one (hrunning hj) (hrunning hk), hinv.rows, hinv.writes.rollback t⟩

theorem perform_claimInv {mv : Move n} {claimed : Option (Fin n)} (hinv : ClaimInv tb)
    (hmove : MoveOk claimed mv) (hclaimable : ∀ k ∈ claimed, Claimable tb t k)
    (h : perform tb t mv = some tb') : ClaimInv tb' := by
  refine perform_keeps hinv (fun k steps hsteps => lock_claimInv hinv hsteps)
    (fun _ tb'' hflush => ?_) (fun tb'' hclaims => commit_claimInv hclaims) h
  exact flush_claimInv hinv hmove.claims hclaimable hflush

end Tables

/-! ## Runs -/

theorem created_claimInv {s : System n} (h : Created s) : ClaimInv s.tables := by
  obtain ⟨mode, rfl⟩ := h
  have hnot : ∀ k, ¬ (System.initial n mode).tables.RunningAt k := by
    rintro k (⟨r, hr, hrun⟩ | ⟨w, hw, -⟩)
    · cases hr
      cases hrun
    · cases hw
  refine ⟨fun hj => absurd hj (hnot _), fun r hr => ?_, fun k t r hp => nomatch hp⟩
  cases hr
  exact ⟨rfl, fun a c h => by simp at h⟩

theorem step_claimInv {s s' : System n} {i : ℕ × Action n} (hsessions : SessionsOk s)
    (hinv : ClaimInv s.tables) (hallowed : ClaimsAlone s i) (h : step s i = some s') :
    ClaimInv s'.tables := by
  obtain ⟨t, a⟩ := i
  rcases step_cases h with ⟨request, -, -, rfl⟩ |
    ⟨session, now, answer, mv, tb, rfl, hsession, hplan, hperform, rfl⟩ | ⟨-, rfl⟩
  · exact hinv
  · unfold ClaimsAlone at hallowed
    simp only [hsession] at hallowed
    exact perform_claimInv hinv (plan_ok (hsessions t session hsession) hplan) hallowed hperform
  · exact rollback_claimInv hinv

/-- A step is running, as committed. -/
def Tables.StepRunning (tb : Tables n) (k : Fin n) : Prop :=
  ∃ r ∈ tb.steps.rows k, r.step.status = .running

instance (tb : Tables n) (k : Fin n) : Decidable (tb.StepRunning k) :=
  inferInstanceAs (Decidable (∃ r ∈ tb.steps.rows k, _))

/-- **Where a step is still pending and no other step is running whenever a worker writes its
claim, at most one step of the batch is ever running, and between two claims of a step lies
a reset.** -/
theorem one_running_step {s : System n} (hs : Runs.Reachable step ClaimsAlone Created s) :
    {k | s.tables.StepRunning k}.Subsingleton ∧
      ∀ k, ∀ r ∈ s.tables.steps.rows k, ClaimsSeparated r := by
  have hinv : SessionsOk s ∧ ClaimInv s.tables := by
    refine @Runs.Reachable.invariant _ _ _ _ _ (fun s => SessionsOk s ∧ ClaimInv s.tables) _ hs
      ?_ ?_
    · exact fun s h => ⟨created_sessionsOk h, created_claimInv h⟩
    · rintro s i s' ⟨hsessions, hinv⟩ hallowed hstep
      exact ⟨step_sessionsOk hsessions hstep, step_claimInv hsessions hinv hallowed hstep⟩
  refine ⟨fun j hj k hk => hinv.2.one (Or.inl hj) (Or.inl hk), fun k r hr => ?_⟩
  exact (hinv.2.rows r hr).claimsSeparated

/-- The statuses written to a step. -/
def Tables.writtenTo (tb : Tables n) (k : Fin n) : List StepStatus :=
  (tb.steps.rows k).elim [] StepRecord.written

/-- A claim meets a conflict, and the step is claimed again. -/
def reclaimedSystem : System 1 :=
  (Runs.run (fun s i => if ClaimsAlone s i then step s i else none)
    (System.initial 1 .skipExisting) ([(0, .start .process)] ++ statements 0 6 ++
      claimedStep 1 5)).get (by decide)

/-- The step is running, and was reset between its two claims. -/
theorem reclaimed_one_running :
    ({k | reclaimedSystem.tables.StepRunning k}.Subsingleton ∧
      ∀ k, ∀ r ∈ reclaimedSystem.tables.steps.rows k, ClaimsSeparated r) ∧
      reclaimedSystem.tables.writtenTo 0 = [.running, .pending, .running] :=
  ⟨one_running_step (Runs.reachable_of_checked ⟨_, rfl⟩ (Option.some_get _).symm), by decide⟩

/-! ### Two workers that look before either claims -/

/-- Both find no running step, lock different steps, and claim them. -/
def crossedSystem : System 2 :=
  (Runs.run step (System.initial 2 .skipExisting)
    ([(0, .start .process), (1, .start .process)] ++ statements 0 3 ++ statements 1 3 ++
      statements 0 1 ++ [(0, .next 0 { start := .started 5 })] ++ statements 1 1 ++
      [(1, .next 1 { start := .started 6 })])).get (by decide)

/-- The node has drafts to be cleared before it is generated again. -/
def draftMaterial : NodeMaterial := { hasVersion := true, canClear := true, hasDrafts := true }

/-- Worker 0 unlocks the step it has picked, worker 1 claims it, and so does worker 0. -/
def unlockedSystem : System 1 :=
  (Runs.run step (System.initial 1 .regenerateAll)
    ([(0, .start .process), (1, .start .process)] ++ statements 0 3 ++
      [(0, .next 0 { material := draftMaterial })] ++ statements 1 4 ++
      [(1, .next 1 { start := .started 6 })] ++ statements 0 3)).get (by decide)

/-- Two steps are running; and a step has been claimed twice without a reset in between. -/
theorem claimed_twice :
    (Runs.Reachable step (fun _ _ => True) Created crossedSystem ∧
      crossedSystem.tables.StepRunning 0 ∧ crossedSystem.tables.StepRunning 1) ∧
    (Runs.Reachable step (fun _ _ => True) Created unlockedSystem ∧
      unlockedSystem.tables.writtenTo 0 = [.running, .running, .pending]) :=
  ⟨⟨Runs.reachable_of_run ⟨_, rfl⟩ (Option.some_get _).symm, by decide, by decide⟩,
    Runs.reachable_of_run ⟨_, rfl⟩ (Option.some_get _).symm, by decide⟩

end StudyAgent.Batch
