import StudyAgent.Generation.RunRequests

/-!
# One running run for each resource and pipeline

A start clears the place under the coordinator lock before it looks for a running run,
so it never makes a second one.  A resume looks before it takes the lock.

Main results:

* `OneRunInv.next` — what one statement keeps, if no other run of the place is running when a
  resume marks its run.
* `one_running` — **then no two runs of one resource and pipeline are ever running.**
-/

namespace StudyAgent.Generation

open ReadCommitted

/-! ## The invariant -/

/-- A run of the place is running, as committed. -/
def RunsAt (tb : Table) (k : ℕ) (place : Place) : Prop :=
  ∃ o ∈ tb.rows k, o.place = place ∧ o.status = .running

instance (tb : Table) (k : ℕ) (place : Place) : Decidable (RunsAt tb k place) :=
  inferInstanceAs (Decidable (∃ o ∈ tb.rows k, _))

/-- A session that has written nothing yet. -/
def NoPending (tb : Table) (t : ℕ) : Prop := ∀ k r, tb.pending k ≠ some (t, r)

/-- A session that has written only rows that could be resumed. -/
def OwnStale (tb : Table) (t : ℕ) : Prop :=
  ∀ k r, tb.pending k = some (t, r) → ∃ o ∈ tb.rows k, o.status ∈ RESUMABLE_RUN_STATUSES

/-- While a run of the place is running, what is still to be superseded is listed. -/
def StaleLeft (tb : Table) (t : ℕ) (place : Place) (left : List ℕ) : Prop :=
  (∃ k, RunsAt tb k place) →
    ∀ k r, tb.view t k = some r → supersedable place r = true → k ∈ left

def StoredAt (tb : Table) (k : ℕ) (place : Place) : Prop := ∃ o ∈ tb.rows k, o.place = place

/-- A run made running by an uncommitted write is alone at its place, and the place locked. -/
def MadeAlone (tb : Table) (t k : ℕ) : Prop :=
  ∃ r, tb.pending k = some (t, r) ∧ r.status = .running ∧ (∀ o ∈ tb.rows k, o.place = r.place) ∧
    tb.held r.place = some t ∧ ∀ j, RunsAt tb j r.place → j = k

/-- What holds of a session in each phase. -/
def PhaseOk (tb : Table) (t : ℕ) : Phase → Prop
  | .startOpen _ | .resumeOpen _ => NoPending tb t
  | .startLocked q => tb.held q.place = some t ∧ OwnStale tb t
  | .superseding q left => tb.held q.place = some t ∧ OwnStale tb t ∧
      (q.supersedeExisting = true → StaleLeft tb t q.place left)
  | .startClear q => tb.held q.place = some t ∧
      (q.supersedeExisting = true → ∀ k, ¬ RunsAt tb k q.place)
  | .resumeRead q run | .resumeClear q run => StoredAt tb q.runId run.place
  | .resumeLocked q run | .resumeCounted q run =>
    StoredAt tb q.runId run.place ∧ tb.held run.place = some t
  | .done (some k) => MadeAlone tb t k
  | _ => True

/-- A write that makes no run running and stops only running ones. -/
def Quiet (a b : GenerationRun) : Prop :=
  b.place = a.place ∧ (b.status = a.status ∨ (a.status = .running ∧ b.status ≠ .running) ∨
    b.status.terminal = true)

theorem Quiet.trans {a b c : GenerationRun} (hab : Quiet a b) (hbc : Quiet b c) : Quiet a c := by
  refine ⟨hbc.1.trans hab.1, ?_⟩
  rcases hbc.2 with hsame | ⟨hrun, hstop⟩ | hterm
  · rw [hsame]
    exact hab.2
  · rcases hab.2 with hsame | ⟨-, hnot⟩ | hterm
    · exact Or.inr (Or.inl ⟨hsame ▸ hrun, hstop⟩)
    · exact absurd hrun hnot
    · rw [hrun] at hterm
      exact absurd hterm (by decide)
  · exact Or.inr (Or.inr hterm)

/-- A run is running behind a quiet write only if it was running before. -/
theorem Quiet.running {a b : GenerationRun} (h : Quiet a b) (hb : b.status = .running) :
    a.status = .running := by
  rcases h.2 with hsame | ⟨-, hnot⟩ | hterm
  · rw [← hsame, hb]
  · exact absurd hb hnot
  · rw [hb] at hterm
    exact absurd hterm (by decide)

/-- A run can be superseded behind a quiet write only if it could before, or was running. -/
theorem Quiet.supersedable {a b : GenerationRun} {place : Place} (h : Quiet a b)
    (hb : supersedable place b = true) :
    Generation.supersedable place a = true ∨ (a.place = place ∧ a.status = .running) := by
  simp only [Generation.supersedable, Bool.and_eq_true, decide_eq_true_eq] at hb ⊢
  rcases h.2 with hsame | ⟨hrun, -⟩ | hterm
  · exact Or.inl ⟨h.1 ▸ hb.1, hsame ▸ hb.2⟩
  · exact Or.inr ⟨h.1 ▸ hb.1, hrun⟩
  · simp only [RunStatus.terminal, decide_eq_true_eq] at hterm
    refine absurd ?_ hterm
    have hres := hb.2
    simp only [RESUMABLE_RUN_STATUSES, ACTIVE_RUN_STATUSES, List.mem_cons, List.not_mem_nil,
      or_false] at hres ⊢
    exact Or.inr hres

theorem quiet_apply {kind : ChangeKind} {run row : GenerationRun} (now : ℕ)
    (h : kind.guard run row = true) : Quiet row (kind.apply now row) := by
  cases kind with
  | pause mentorId => exact ⟨rfl, Or.inr (Or.inl ⟨of_decide_eq_true h, by simp [ChangeKind.apply]⟩)⟩
  | abandon mentorId => exact ⟨rfl, Or.inr (Or.inr rfl)⟩
  | complete => exact ⟨rfl, Or.inr (Or.inr rfl)⟩
  | fail retryAt =>
    have hs := (Bool.and_eq_true _ _).mp h
    exact ⟨rfl, Or.inr (Or.inl ⟨of_decide_eq_true hs.1, by simp [ChangeKind.apply]⟩)⟩

structure OneRunInv (s : System) : Prop where
  known : ∀ k, s.table.rows k ≠ none ∨ s.table.pending k ≠ none → k ∈ s.ids
  one : ∀ {place k k'}, RunsAt s.table k place → RunsAt s.table k' place → k = k'
  writes : ∀ {k t r}, s.table.pending k = some (t, r) →
    (∃ o ∈ s.table.rows k, Quiet o r) ∨ s.phase t = some (.done (some k))
  phases : ∀ {t phase}, s.phase t = some phase → PhaseOk s.table t phase
  idle : ∀ {t}, s.phase t = none → NoPending s.table t

/-- A run is made running only where no other run of its place is running. -/
def NoOtherRunning (s : System) (i : ℕ × Action) : Prop :=
  match s.phase i.1, i.2 with
  | some (.resumeCounted q run), .next _ _ =>
    ∀ k ∈ s.ids, k ≠ q.runId → ¬ RunsAt s.table k run.place
  | some (.startClear q), .next _ _ =>
    q.supersedeExisting = false → ∀ k ∈ s.ids, ¬ RunsAt s.table k q.place
  | _, _ => True

instance (s : System) (i : ℕ × Action) : Decidable (NoOtherRunning s i) := by
  obtain ⟨t, a⟩ := i
  dsimp only [NoOtherRunning]
  split <;> infer_instance

/-! ## The other sessions during a statement -/

/-- **What a phase relies on**: what keeps all of that keeps the phase. -/
theorem PhaseOk.keep {tb tb' : Table} {u : ℕ} (hnone : NoPending tb u → NoPending tb' u)
    (hheld : ∀ {place : Place}, tb.held place = some u → tb'.held place = some u)
    (hstale : OwnStale tb u → OwnStale tb' u)
    (hleft : ∀ {place : Place} {left : List ℕ}, tb.held place = some u →
      StaleLeft tb u place left → StaleLeft tb' u place left)
    (hruns : ∀ {k : ℕ} {place : Place}, tb.held place = some u → RunsAt tb' k place →
      RunsAt tb k place)
    (hstored : ∀ {k : ℕ} {place : Place}, StoredAt tb k place → StoredAt tb' k place)
    (hmade : ∀ {k : ℕ}, MadeAlone tb u k → MadeAlone tb' u k) {phase : Phase}
    (hu : PhaseOk tb u phase) : PhaseOk tb' u phase := by
  cases phase with
  | startOpen q => exact hnone hu
  | startLocked q => exact ⟨hheld hu.1, hstale hu.2⟩
  | superseding q left =>
    exact ⟨hheld hu.1, hstale hu.2.1, fun hq => hleft hu.1 (hu.2.2 hq)⟩
  | startClear q => exact ⟨hheld hu.1, fun hq k hk => hu.2 hq k (hruns hu.1 hk)⟩
  | resumeOpen q => exact hnone hu
  | resumeRead q run => exact hstored hu
  | resumeClear q run => exact hstored hu
  | resumeLocked q run => exact ⟨hstored hu.1, hheld hu.2⟩
  | resumeCounted q run => exact ⟨hstored hu.1, hheld hu.2⟩
  | changeOpen c => trivial
  | changeRead c run => trivial
  | recoverOpen threshold => trivial
  | recovering threshold left => trivial
  | done made =>
    cases made with
    | none => trivial
    | some k => exact hmade hu

section Frame

variable {tb tb' : Table} {t u : ℕ}

theorem runsAt_frame (h : tb.Frame tb' t) {k : ℕ} {place : Place} :
    RunsAt tb' k place ↔ RunsAt tb k place := by
  unfold RunsAt
  rw [h.rows]

theorem noPending_frame (h : tb.Frame tb' t) (hne : u ≠ t) (hu : NoPending tb u) :
    NoPending tb' u :=
  fun k r hp => hu k r ((h.pending hne).1 hp)

theorem ownStale_frame (h : tb.Frame tb' t) (hne : u ≠ t) (hu : OwnStale tb u) :
    OwnStale tb' u := by
  intro k r hp
  rw [h.rows]
  exact hu k r ((h.pending hne).1 hp)

theorem staleLeft_frame (h : tb.Frame tb' t) (hne : u ≠ t) {place : Place} {left : List ℕ}
    (hu : StaleLeft tb u place left) : StaleLeft tb' u place left := by
  intro hruns k r hview
  rw [h.view hne] at hview
  exact hu (hruns.imp fun j hj => (runsAt_frame h).1 hj) k r hview

theorem storedAt_frame (h : tb.Frame tb' t) {k : ℕ} {place : Place} (hk : StoredAt tb k place) :
    StoredAt tb' k place := by
  unfold StoredAt
  rw [h.rows]
  exact hk

theorem madeAlone_frame (h : tb.Frame tb' t) (hne : u ≠ t) {k : ℕ} (hk : MadeAlone tb u k) :
    MadeAlone tb' u k := by
  obtain ⟨r, hr, hrun, hplace, hheld, halone⟩ := hk
  refine ⟨r, (h.pending hne).2 hr, hrun, ?_, h.held hheld, fun j hj =>
    halone j ((runsAt_frame h).1 hj)⟩
  rw [h.rows]
  exact hplace

theorem phaseOk_frame (h : tb.Frame tb' t) (hne : u ≠ t) {phase : Phase}
    (hu : PhaseOk tb u phase) : PhaseOk tb' u phase :=
  hu.keep (noPending_frame h hne) h.held (ownStale_frame h hne) (fun _ => staleLeft_frame h hne)
    (fun _ => (runsAt_frame h).1) (storedAt_frame h) (madeAlone_frame h hne)

end Frame

/-! ## The other sessions at the end of a transaction -/

/-- The system behind the end of a transaction. -/
def System.afterEnd (s : System) (tb : Table) (t : ℕ) : System :=
  { s with table := tb, phase := Function.update s.phase t none }

theorem System.phase_afterEnd_self (s : System) (tb : Table) (t : ℕ) :
    (s.afterEnd tb t).phase t = none := Function.update_self ..

theorem System.phase_afterEnd_of_ne (s : System) (tb : Table) {t u : ℕ} (hne : u ≠ t) :
    (s.afterEnd tb t).phase u = s.phase u := Function.update_of_ne hne _ _

section End

variable {s : System} (hinv : OneRunInv s) {t : ℕ}

include hinv

/-- The row of an uncommitted write that makes no run running. -/
theorem OneRunInv.own_cases {k : ℕ} {r : GenerationRun} (hp : s.table.pending k = some (t, r)) :
    (∃ o ∈ s.table.rows k, Quiet o r) ∨ MadeAlone s.table t k := by
  rcases hinv.writes hp with hquiet | hmade
  · exact Or.inl hquiet
  · exact Or.inr (hinv.phases hmade)

/-- **A run that is running behind a commit was running before, or was made so alone.** -/
theorem OneRunInv.runsAt_commit {k : ℕ} {place : Place}
    (h : RunsAt (s.table.commit t) k place) :
    RunsAt s.table k place ∨ (s.phase t = some (.done (some k)) ∧ s.table.held place = some t ∧
      ∀ j, RunsAt s.table j place → j = k) := by
  obtain ⟨o, ho, hplace, hrun⟩ := h
  rw [Store.rows_commit] at ho
  rcases s.table.view_cases t k with ⟨r, hr, hview⟩ | ⟨-, hview⟩
  · rw [hview] at ho
    obtain rfl := Option.some.inj ho
    rcases hinv.writes hr with ⟨o, ho, hquiet⟩ | hmade
    · exact Or.inl ⟨o, ho, hquiet.1 ▸ hplace, hquiet.running hrun⟩
    · obtain ⟨r', hr', -, -, hheld, halone⟩ := hinv.phases hmade
      obtain ⟨-, rfl⟩ := Prod.mk.inj (Option.some.inj (hr.symm.trans hr'))
      rw [hplace] at hheld halone
      exact Or.inr ⟨hmade, hheld, halone⟩
  · rw [hview] at ho
    exact Or.inl ⟨o, ho, hplace, hrun⟩

/-- Under a lock of another session no run of the place is made running by a commit. -/
theorem OneRunInv.runsAt_commit_of_held {u k : ℕ} {place : Place} (hne : u ≠ t)
    (hheld : s.table.held place = some u) (h : RunsAt (s.table.commit t) k place) :
    RunsAt s.table k place := by
  refine (hinv.runsAt_commit h).resolve_right fun hmade => hne ?_
  exact Option.some.inj (hheld.symm.trans hmade.2.1)

theorem OneRunInv.storedAt_commit {k : ℕ} {place : Place} (h : StoredAt s.table k place) :
    StoredAt (s.table.commit t) k place := by
  obtain ⟨o, ho, hplace⟩ := h
  unfold StoredAt
  rw [Store.rows_commit]
  rcases s.table.view_cases t k with ⟨r, hr, hview⟩ | ⟨-, hview⟩
  · refine ⟨r, hview, ?_⟩
    rcases hinv.own_cases hr with ⟨o', ho', hquiet⟩ | ⟨r', hr', -, hsame, -⟩
    · obtain rfl := Option.some.inj (ho.symm.trans ho')
      exact hquiet.1.trans hplace
    · obtain ⟨-, rfl⟩ := Prod.mk.inj (Option.some.inj (hr.symm.trans hr'))
      exact (hsame o ho).symm.trans hplace
  · exact ⟨o, hview.trans ho, hplace⟩

/-- **What is left to supersede stays listed when another session commits.** -/
theorem OneRunInv.staleLeft_commit {u : ℕ} {place : Place} {left : List ℕ} (hne : u ≠ t)
    (hheld : s.table.held place = some u) (h : StaleLeft s.table u place left) :
    StaleLeft (s.table.commit t) u place left := by
  rintro ⟨j, hj⟩ k r hview hstale
  have hjold := hinv.runsAt_commit_of_held hne hheld hj
  rcases Store.view_commit hne k with ⟨⟨r', hr'⟩, hnew, hold⟩ | ⟨hsame, -⟩
  · rw [hnew, Store.view_of_pending hr', Option.some.injEq] at hview
    subst hview
    rcases hinv.own_cases hr' with ⟨o, ho, hquiet⟩ | ⟨r'', hr'', hrun, -⟩
    · rcases hquiet.supersedable hstale with hbefore | ⟨hplace, hrun⟩
      · exact h ⟨j, hjold⟩ k o (hold.trans ho) hbefore
      · -- the run that was stopped was the only one running, and `j` still is
        have hjk : j = k := hinv.one hjold ⟨o, ho, hplace, hrun⟩
        subst hjk
        obtain ⟨o', ho', -, hrun'⟩ := hj
        rw [Store.rows_commit, Store.view_of_pending hr'] at ho'
        obtain rfl := Option.some.inj ho'
        simp [supersedable, hrun', RESUMABLE_RUN_STATUSES] at hstale
    · obtain ⟨-, rfl⟩ := Prod.mk.inj (Option.some.inj (hr'.symm.trans hr''))
      simp [supersedable, hrun, RESUMABLE_RUN_STATUSES] at hstale
  · rw [hsame] at hview
    exact h ⟨j, hjold⟩ k r hview hstale

theorem OneRunInv.phaseOk_commit {u : ℕ} (hne : u ≠ t) {phase : Phase}
    (hu : PhaseOk s.table u phase) : PhaseOk (s.table.commit t) u phase := by
  have hheld : ∀ {place : Place}, s.table.held place = some u →
      (s.table.commit t).held place = some u := fun h => Store.held_commit.2 ⟨h, hne⟩
  have hrows : ∀ {k r}, s.table.pending k = some (u, r) → s.table.view t k = s.table.rows k :=
    fun hp => Store.view_of_other hp hne
  refine hu.keep (fun h k r hp => h k r (Store.pending_commit.1 hp).1) hheld (fun h k r hp => ?_)
    (hinv.staleLeft_commit hne) (hinv.runsAt_commit_of_held hne) hinv.storedAt_commit ?_
  · have hp' := (Store.pending_commit.1 hp).1
    rw [Store.rows_commit, hrows hp']
    exact h k r hp'
  · rintro k ⟨r, hr, hrun, hplace, hlock, halone⟩
    refine ⟨r, Store.pending_commit.2 ⟨hr, hne⟩, hrun, ?_, hheld hlock, fun j hj => ?_⟩
    · rw [Store.rows_commit, hrows hr]
      exact hplace
    · exact halone j (hinv.runsAt_commit_of_held hne hlock hj)

/-- **A commit keeps the invariant.** -/
theorem OneRunInv.commit : OneRunInv (s.afterEnd (s.table.commit t) t) := by
  refine ⟨fun k hk => ?_, fun {place k k'} hk hk' => ?_, fun {k u r} hp => ?_,
    fun {u phase} hu => ?_,
    fun {u} hu => ?_⟩
  · rcases hk with hk | hk
    · change s.table.view t k ≠ none at hk
      rcases s.table.view_cases t k with ⟨r, hr, -⟩ | ⟨-, hview⟩
      · exact hinv.known k (Or.inr (by rw [hr]; exact Option.some_ne_none _))
      · exact hinv.known k (Or.inl (hview ▸ hk))
    · obtain ⟨⟨u, r⟩, hp⟩ := Option.ne_none_iff_exists'.1 hk
      have hdone := (Store.pending_commit.1 hp).1
      exact hinv.known k (Or.inr (hdone ▸ Option.some_ne_none _))
  · rcases hinv.runsAt_commit hk with hold | ⟨hmade, -, halone⟩
    · rcases hinv.runsAt_commit hk' with hold' | ⟨-, -, halone'⟩
      · exact hinv.one hold hold'
      · exact halone' k hold
    · rcases hinv.runsAt_commit hk' with hold' | ⟨hmade', -, -⟩
      · exact (halone k' hold').symm
      · rw [hmade] at hmade'
        injection hmade' with hdone
        injection hdone with hsome
        exact Option.some.inj hsome
  · obtain ⟨hp', hne⟩ := Store.pending_commit.1 hp
    rw [s.phase_afterEnd_of_ne _ hne]
    show (∃ o ∈ (s.table.commit t).rows k, Quiet o r) ∨ _
    rw [Store.rows_commit, Store.view_of_other hp' hne]
    exact hinv.writes hp'
  · by_cases hne : u = t
    · rw [hne, s.phase_afterEnd_self] at hu
      exact absurd hu (by simp)
    · rw [s.phase_afterEnd_of_ne _ hne] at hu
      exact hinv.phaseOk_commit hne (hinv.phases hu)
  · intro k r hp
    obtain ⟨hp', hne⟩ := Store.pending_commit.1 hp
    rw [s.phase_afterEnd_of_ne _ hne] at hu
    exact hinv.idle hu k r hp'

omit hinv in
theorem phaseOk_rollback {u : ℕ} (hne : u ≠ t) {phase : Phase}
    (hu : PhaseOk s.table u phase) : PhaseOk (s.table.rollback t) u phase := by
  have hheld : ∀ {place : Place}, s.table.held place = some u →
      (s.table.rollback t).held place = some u := fun h => Store.held_rollback.2 ⟨h, hne⟩
  refine hu.keep (fun h k r hp => h k r (Store.pending_rollback.1 hp).1) hheld
    (fun h k r hp => h k r (Store.pending_rollback.1 hp).1) (fun _ h hruns k r hview => ?_)
    (fun _ => id) id ?_
  · rw [Store.view_rollback hne] at hview
    exact h hruns k r hview
  · rintro k ⟨r, hr, hrun, hplace, hlock, halone⟩
    exact ⟨r, Store.pending_rollback.2 ⟨hr, hne⟩, hrun, hplace, hheld hlock, halone⟩

theorem OneRunInv.rollback : OneRunInv (s.afterEnd (s.table.rollback t) t) := by
  refine ⟨fun k hk => ?_, hinv.one, fun {k u r} hp => ?_, fun {u phase} hu => ?_, fun {u} hu => ?_⟩
  · rcases hk with hk | hk
    · exact hinv.known k (Or.inl hk)
    · obtain ⟨⟨u, r⟩, hp⟩ := Option.ne_none_iff_exists'.1 hk
      exact hinv.known k
        (Or.inr (by rw [(Store.pending_rollback.1 hp).1]; exact Option.some_ne_none _))
  · obtain ⟨hp', hne⟩ := Store.pending_rollback.1 hp
    rw [s.phase_afterEnd_of_ne _ hne]
    exact hinv.writes hp'
  · by_cases hne : u = t
    · rw [hne, s.phase_afterEnd_self] at hu
      exact absurd hu (by simp)
    · rw [s.phase_afterEnd_of_ne _ hne] at hu
      exact phaseOk_rollback hne (hinv.phases hu)
  · intro k r hp
    obtain ⟨hp', hne⟩ := Store.pending_rollback.1 hp
    rw [s.phase_afterEnd_of_ne _ hne] at hu
    exact hinv.idle hu k r hp'

end End

/-! ## Statements -/

section Statement

variable {s : System} (hinv : OneRunInv s) {t now : ℕ} {choice : Option ℕ} {phase phase' : Phase}
  {tb : Table} {ids : List ℕ}

include hinv

/-- A statement keeps the invariant if its session is in order behind it. -/
theorem OneRunInv.statement (hst : s.table.Statement t tb) (hok : PhaseOk tb t phase')
    (hknown : ∀ k, tb.pending k ≠ none → s.table.pending k ≠ none ∨ k ∈ ids)
    (hids : ∀ k ∈ s.ids, k ∈ ids)
    (hown : ∀ k r, tb.pending k = some (t, r) →
      (∃ o ∈ s.table.rows k, Quiet o r) ∨ phase' = .done (some k)) :
    OneRunInv ⟨tb, ids, Function.update s.phase t (some phase')⟩ := by
  have hframe := hst.frame
  have hupdate : ∀ {u}, u ≠ t → Function.update s.phase t (some phase') u = s.phase u :=
    fun hne => Function.update_of_ne hne _ _
  refine ⟨fun k hk => ?_, fun {place k k'} hk hk' => ?_, fun {k u r} hp => ?_, fun {u ph} hu => ?_,
    fun {u} hu => ?_⟩
  · rcases hk with hk | hk
    · exact hids k (hinv.known k (Or.inl (hframe.rows ▸ hk)))
    · rcases hknown k hk with hold | hnew
      · exact hids k (hinv.known k (Or.inr hold))
      · exact hnew
  · exact hinv.one ((runsAt_frame hframe).1 hk) ((runsAt_frame hframe).1 hk')
  · show (∃ o ∈ tb.rows k, Quiet o r) ∨ Function.update s.phase t (some phase') u = _
    rw [hframe.rows]
    by_cases hne : u = t
    · subst hne
      rw [Function.update_self]
      exact (hown k r hp).imp_right (congrArg some)
    · rw [hupdate hne]
      exact hinv.writes ((hframe.pending hne).1 hp)
  · change Function.update s.phase t (some phase') u = some ph at hu
    by_cases hne : u = t
    · subst hne
      rw [Function.update_self] at hu
      exact Option.some.inj hu ▸ hok
    · rw [hupdate hne] at hu
      exact phaseOk_frame hframe hne (hinv.phases hu)
  · change Function.update s.phase t (some phase') u = none at hu
    by_cases hne : u = t
    · subst hne
      rw [Function.update_self] at hu
      exact absurd hu (by simp)
    · rw [hupdate hne] at hu
      exact noPending_frame hframe hne (hinv.idle hu)

omit hinv in
/-- What an update writes. -/
theorem pending_update {k : ℕ} {guard : GenerationRun → Bool} {f : GenerationRun → GenerationRun}
    (h : s.table.update t k guard f = some tb) {j : ℕ} {r : GenerationRun}
    (hp : tb.pending j = some (t, r)) :
    s.table.pending j = some (t, r) ∨
      j = k ∧ ∃ row, s.table.view t k = some row ∧ guard row = true ∧ r = f row := by
  rcases Store.update_cases h with ⟨rfl, -⟩ | ⟨row, hview, hguard, -, rfl⟩
  · exact Or.inl hp
  · rw [Store.pending_write] at hp
    split_ifs at hp with hj
    · exact Or.inr ⟨hj, row, hview, hguard, (Prod.mk.inj (Option.some.inj hp)).2.symm⟩
    · exact Or.inl hp

omit hinv in
theorem pending_update_ne_none {k : ℕ} {guard : GenerationRun → Bool}
    {f : GenerationRun → GenerationRun} (h : s.table.update t k guard f = some tb) {j : ℕ}
    (hp : tb.pending j ≠ none) : s.table.pending j ≠ none ∨ j = k ∧ s.table.view t k ≠ none := by
  rcases Store.update_cases h with ⟨rfl, -⟩ | ⟨row, hview, -, -, rfl⟩
  · exact Or.inl hp
  · rw [Store.pending_write] at hp
    split_ifs at hp with hj
    · exact Or.inr ⟨hj, hview ▸ Option.some_ne_none _⟩
    · exact Or.inl hp

theorem OneRunInv.known_of_view {k : ℕ} (h : s.table.view t k ≠ none) : k ∈ s.ids := by
  rcases s.table.view_cases t k with ⟨r, hr, -⟩ | ⟨-, hview⟩
  · exact hinv.known k (Or.inr (hr ▸ Option.some_ne_none _))
  · exact hinv.known k (Or.inl (hview ▸ h))

/-- What a session in the middle of its request has written is quiet. -/
theorem OneRunInv.own_quiet (hphase : s.phase t = some phase) (hnot : ∀ k, phase ≠ .done (some k))
    {k : ℕ} {r : GenerationRun} (hp : s.table.pending k = some (t, r)) :
    ∃ o ∈ s.table.rows k, Quiet o r := by
  refine (hinv.writes hp).resolve_right fun hdone => hnot k ?_
  exact Option.some.inj (hphase.symm.trans hdone)

/-- A row that the session reads is a quiet successor of the committed one. -/
theorem OneRunInv.view_quiet (hphase : s.phase t = some phase)
    (hnot : ∀ k, phase ≠ .done (some k)) {k : ℕ} {row : GenerationRun}
    (hview : s.table.view t k = some row) : ∃ o ∈ s.table.rows k, Quiet o row := by
  rcases s.table.view_cases t k with ⟨r, hr, hown⟩ | ⟨-, hrows⟩
  · obtain rfl := Option.some.inj (hview.symm.trans hown)
    exact hinv.own_quiet hphase hnot hr
  · exact ⟨row, hrows ▸ hview, rfl, Or.inl rfl⟩

/-- **A quiet update keeps the invariant.** -/
theorem OneRunInv.update (hphase : s.phase t = some phase) (hnot : ∀ k, phase ≠ .done (some k))
    {k : ℕ} {guard : GenerationRun → Bool} {f : GenerationRun → GenerationRun}
    (hquiet : ∀ row, guard row = true → Quiet row (f row))
    (h : s.table.update t k guard f = some tb) (hok : PhaseOk tb t phase') :
    OneRunInv ⟨tb, s.ids, Function.update s.phase t (some phase')⟩ := by
  refine hinv.statement (.update h) hok (fun j hj => ?_) (fun _ hj => hj)
    fun j r hp => Or.inl ?_
  · refine (pending_update_ne_none h hj).imp_right fun hk => ?_
    exact hk.1 ▸ hinv.known_of_view hk.2
  · rcases pending_update h hp with hold | ⟨rfl, row, hview, hguard, rfl⟩
    · exact hinv.own_quiet hphase hnot hold
    · obtain ⟨o, ho, hor⟩ := hinv.view_quiet hphase hnot hview
      exact ⟨o, ho, hor.trans (hquiet row hguard)⟩

/-- A statement that writes nothing keeps the invariant. -/
theorem OneRunInv.read (hphase : s.phase t = some phase) (hnot : ∀ k, phase ≠ .done (some k))
    (hok : PhaseOk s.table t phase') :
    OneRunInv ⟨s.table, s.ids, Function.update s.phase t (some phase')⟩ :=
  hinv.statement .read hok (fun _ hk => Or.inl hk) (fun _ hk => hk)
    fun _ _ hp => Or.inl (hinv.own_quiet hphase hnot hp)

/-- Taking a lock keeps the invariant. -/
theorem OneRunInv.acquire (hphase : s.phase t = some phase) (hnot : ∀ k, phase ≠ .done (some k))
    {place : Place} (h : s.table.acquire t place = some tb) (hok : PhaseOk tb t phase') :
    OneRunInv ⟨tb, s.ids, Function.update s.phase t (some phase')⟩ := by
  refine hinv.statement (.lock h) hok ?_ (fun _ hk => hk) ?_
  · obtain ⟨-, rfl⟩ := Store.acquire_eq_some h
    exact fun _ hk => Or.inl hk
  · obtain ⟨-, rfl⟩ := Store.acquire_eq_some h
    exact fun _ _ hp => Or.inl (hinv.own_quiet hphase hnot hp)

omit hinv in
/-- One run superseded, or no longer to be superseded. -/
theorem superseded_phaseOk {q : StartRequest} {k : ℕ} {left : List ℕ}
    (hok : PhaseOk s.table t (.superseding q (k :: left)))
    (h : s.table.update t k (supersedable q.place) (fun row =>
      { row with status := .superseded, updatedAt := now }) = some tb) :
    PhaseOk tb t (.superseding q left) := by
  obtain ⟨hheld, hown, hleft⟩ := hok
  have hframe := (Store.Statement.update h).frame
  refine ⟨hframe.held hheld, fun j r hp => ?_, fun hq hruns j r hview hstale => ?_⟩
  · rw [hframe.rows]
    rcases pending_update h hp with hold | ⟨rfl, row, hview, hguard, -⟩
    · exact hown j r hold
    · rcases s.table.view_cases t j with ⟨r', hr', -⟩ | ⟨-, hrows⟩
      · exact hown j r' hr'
      · simp only [supersedable, Bool.and_eq_true, decide_eq_true_eq] at hguard
        exact ⟨row, hrows ▸ hview, hguard.2⟩
  · have hruns' := hruns.imp fun j hj => (runsAt_frame hframe).1 hj
    rcases Store.update_cases h with ⟨rfl, hfalse⟩ | ⟨row, -, -, -, rfl⟩
    · rcases List.mem_cons.1 (hleft hq hruns' j r hview hstale) with rfl | hmem
      · exact absurd hstale (by rw [hfalse r hview]; decide)
      · exact hmem
    · rw [Store.view_write_self] at hview
      split_ifs at hview with hj
      · obtain rfl := Option.some.inj hview
        exact absurd hstale (by simp [supersedable, RESUMABLE_RUN_STATUSES])
      · exact (List.mem_cons.1 (hleft hq hruns' j r hview hstale)).resolve_left hj

/-- **When everything has been superseded and no running run is found, none is there.** -/
theorem OneRunInv.clear {q : StartRequest} (hok : PhaseOk s.table t (.superseding q []))
    (hq : q.supersedeExisting = true) (hactive : IsActiveRun s.table s.ids t q.place choice)
    (hnone : ¬ FoundRunning s.table t choice) (k : ℕ) : ¬ RunsAt s.table k q.place := by
  rintro ⟨o, ho, hplace, hrun⟩
  obtain ⟨-, hown, hleft⟩ := hok
  -- the session has not written the running run, so it sees it
  have hview : s.table.view t k = some o := by
    rcases s.table.view_cases t k with ⟨r, hr, -⟩ | ⟨-, hrows⟩
    · obtain ⟨o', ho', hstale⟩ := hown k r hr
      obtain rfl := Option.some.inj (ho.symm.trans ho')
      rw [hrun] at hstale
      exact absurd hstale (by decide)
    · exact hrows.trans ho
  have hmem : k ∈ s.ids := hinv.known k (Or.inl (Option.ne_none_iff_exists'.2 ⟨o, ho⟩))
  cases choice with
  | none => exact hactive k hmem o hview hplace (by rw [hrun]; decide)
  | some j =>
    obtain ⟨r, hr, hrplace, hractive, -⟩ := hactive
    have hnot : r.status ≠ .running := fun h => hnone ⟨j, rfl, r, hr, h⟩
    have hstale : supersedable q.place r = true := by
      simp only [supersedable, Bool.and_eq_true, decide_eq_true_eq]
      refine ⟨hrplace, ?_⟩
      simp only [ACTIVE_RUN_STATUSES, RESUMABLE_RUN_STATUSES, List.mem_cons, List.not_mem_nil,
        or_false] at hractive ⊢
      exact hractive.resolve_left hnot
    exact absurd (hleft hq ⟨k, o, ho, hplace, hrun⟩ j r hr hstale) List.not_mem_nil

/-- A resumed run is marked running alone. -/
theorem OneRunInv.markRunning {q : ResumeRequest} {run : GenerationRun}
    (hphase : s.phase t = some (.resumeCounted q run))
    (halone : ∀ k ∈ s.ids, k ≠ q.runId → ¬ RunsAt s.table k run.place)
    (h : s.table.update t q.runId (fun _ => true) (fun row =>
      { row with status := .running, executionToken := some q.executionToken,
                 updatedAt := now }) = some tb) :
    OneRunInv ⟨tb, s.ids, Function.update s.phase t (some (.done (some q.runId)))⟩ := by
  obtain ⟨⟨o, ho, hplace⟩, hheld⟩ := hinv.phases hphase
  have hframe := (Store.Statement.update h).frame
  have hseen : s.table.view t q.runId ≠ none := by
    rcases s.table.view_cases t q.runId with ⟨r, -, hview⟩ | ⟨-, hview⟩
    · rw [hview]
      exact Option.some_ne_none _
    · rw [hview, Option.mem_def.1 ho]
      exact Option.some_ne_none _
  have hrow : ∃ row, s.table.view t q.runId = some row ∧ tb = s.table.write t q.runId
      { row with status := .running, executionToken := some q.executionToken,
                 updatedAt := now } := by
    rcases Store.update_cases h with ⟨-, hfalse⟩ | ⟨row, hview, -, -, rfl⟩
    · obtain ⟨row, hrow⟩ := Option.ne_none_iff_exists'.1 hseen
      exact absurd (hfalse row hrow) (by decide)
    · exact ⟨row, hview, rfl⟩
  obtain ⟨row, hview, rfl⟩ := hrow
  obtain ⟨o', ho', hquiet⟩ := hinv.view_quiet hphase (by simp) hview
  obtain rfl := Option.some.inj (ho.symm.trans ho')
  have hrowplace : row.place = run.place := hquiet.1.trans hplace
  refine hinv.statement (.update h) ⟨_, Store.pending_write .. |>.trans (if_pos rfl), rfl,
    ?_, ?_, ?_⟩
    (fun j hj => ?_) (fun _ hj => hj) fun j r hp => ?_
  · intro o'' ho''
    obtain rfl := Option.some.inj (ho.symm.trans ho'')
    exact hquiet.1.symm
  · exact hrowplace.symm ▸ hheld
  · intro j hj
    by_contra hne
    have hold := (runsAt_frame hframe).1 hj
    obtain ⟨o'', ho'', -⟩ := hold
    refine halone j (hinv.known j (Or.inl (Option.ne_none_iff_exists'.2 ⟨o'', ho''⟩))) hne ?_
    exact hrowplace ▸ (runsAt_frame hframe).1 hj
  · refine (pending_update_ne_none h hj).imp_right fun hk => ?_
    exact hk.1 ▸ hinv.known_of_view hk.2
  · rcases pending_update h hp with hold | ⟨rfl, -⟩
    · exact Or.inl (hinv.own_quiet hphase (by simp) hold)
    · exact Or.inr rfl

/-- A new run is running alone. -/
theorem OneRunInv.create {q : StartRequest} (hphase : s.phase t = some (.startClear q))
    (halone : ∀ k, ¬ RunsAt s.table k q.place) (hrows : s.table.rows q.runId = none)
    (hpending : s.table.pending q.runId = none) :
    OneRunInv ⟨s.table.write t q.runId (newRun now q), q.runId :: s.ids,
      Function.update s.phase t (some (.done (some q.runId)))⟩ := by
  have hheld := (hinv.phases hphase).1
  refine hinv.statement (.insert hrows hpending)
    ⟨newRun now q, Store.pending_write .. |>.trans (if_pos rfl), rfl, ?_, hheld, ?_⟩
    (fun j hj => ?_) (fun _ hj => List.mem_cons_of_mem _ hj) fun j r hp => ?_
  · intro o ho
    rw [Store.rows_write, hrows] at ho
    exact absurd ho (by simp)
  · exact fun j hj => absurd hj (halone j)
  · rw [Store.pending_write] at hj
    split_ifs at hj with hjk
    · exact Or.inr (hjk ▸ List.mem_cons_self)
    · exact Or.inl hj
  · rw [Store.pending_write] at hp
    split_ifs at hp with hjk
    · exact Or.inr (hjk ▸ rfl)
    · exact Or.inl (hinv.own_quiet hphase (by simp) hp)

/-- **What one statement keeps**, if no other run of the place is running when a run is made
running. -/
theorem OneRunInv.next (hphase : s.phase t = some phase)
    (hallowed : NoOtherRunning s (t, .next now choice)) {p : Table × List ℕ × Phase}
    (h : next s t now choice phase = some p) :
    OneRunInv ⟨p.1, p.2.1, Function.update s.phase t (some p.2.2)⟩ := by
  have hok := hinv.phases hphase
  unfold NoOtherRunning at hallowed
  simp only [hphase] at hallowed
  cases phase with
  | startOpen q =>
    obtain ⟨tb, htb, rfl⟩ := Option.map_eq_some_iff.1 h
    refine hinv.acquire hphase (by simp) htb ?_
    obtain ⟨-, rfl⟩ := Store.acquire_eq_some htb
    exact ⟨Function.update_self .., fun k r hp => absurd hp (hok k r)⟩
  | startLocked q =>
    cases h
    refine hinv.read hphase (by simp) ⟨hok.1, hok.2, fun hq _ k r hview hstale => ?_⟩
    refine List.mem_filter.2 ⟨hinv.known_of_view (hview ▸ Option.some_ne_none _), ?_⟩
    simp [hq, hview, hstale]
  | superseding q left =>
    cases left with
    | nil =>
      rw [Generation.next] at h
      split_ifs at h with hclear
      cases h
      exact hinv.read hphase (by simp) ⟨hok.1, fun hq => hinv.clear hok hq hclear.1 hclear.2⟩
    | cons k left =>
      obtain ⟨tb, htb, rfl⟩ := Option.map_eq_some_iff.1 h
      refine hinv.update hphase (by simp) ?_ htb (superseded_phaseOk hok htb)
      exact fun row _ => ⟨rfl, Or.inr (Or.inr rfl)⟩
  | startClear q =>
    rw [Generation.next] at h
    split_ifs at h with hfresh
    cases h
    refine hinv.create hphase (fun k hk => ?_) hfresh.1 hfresh.2
    cases hq : q.supersedeExisting with
    | true => exact hok.2 hq k hk
    | false =>
      obtain ⟨o, ho, hrest⟩ := hk
      exact hallowed hq k (hinv.known k (Or.inl (Option.ne_none_iff_exists'.2 ⟨o, ho⟩)))
        ⟨o, ho, hrest⟩
  | resumeOpen q =>
    rw [Generation.next] at h
    split at h
    · rename_i run hview
      split_ifs at h
      cases h
      have hrows : s.table.rows q.runId = some run := by
        rw [← Store.view_of_not_own (hok q.runId), hview]
      exact hinv.read hphase (by simp) ⟨run, hrows, rfl⟩
    · cases h
  | resumeRead q run =>
    rw [Generation.next] at h
    split_ifs at h
    cases h
    exact hinv.read hphase (by simp) hok
  | resumeClear q run =>
    obtain ⟨tb, htb, rfl⟩ := Option.map_eq_some_iff.1 h
    refine hinv.acquire hphase (by simp) htb ?_
    obtain ⟨-, rfl⟩ := Store.acquire_eq_some htb
    exact ⟨hok, Function.update_self ..⟩
  | resumeLocked q run =>
    obtain ⟨tb, htb, rfl⟩ := Option.map_eq_some_iff.1 h
    have hframe := (Store.Statement.update htb).frame
    refine hinv.update hphase (by simp) ?_ htb ⟨storedAt_frame hframe hok.1, hframe.held hok.2⟩
    exact fun row _ => ⟨rfl, Or.inl rfl⟩
  | resumeCounted q run =>
    obtain ⟨tb, htb, rfl⟩ := Option.map_eq_some_iff.1 h
    exact hinv.markRunning hphase hallowed htb
  | changeOpen c =>
    rw [Generation.next] at h
    split at h
    · split_ifs at h
      cases h
      exact hinv.read hphase (by simp) trivial
    · cases h
  | changeRead c run =>
    obtain ⟨tb, htb, rfl⟩ := Option.map_eq_some_iff.1 h
    exact hinv.update hphase (by simp) (fun row hrow => quiet_apply now hrow) htb trivial
  | recoverOpen threshold =>
    cases h
    exact hinv.read hphase (by simp) trivial
  | recovering threshold left =>
    cases left with
    | nil =>
      cases h
      exact hinv.read hphase (by simp) trivial
    | cons entry left =>
      obtain ⟨tb, htb, rfl⟩ := Option.map_eq_some_iff.1 h
      refine hinv.update hphase (by simp) ?_ htb trivial
      intro row hrow
      exact ⟨rfl, Or.inr (Or.inl ⟨running_of_staleRunning hrow, by simp⟩)⟩
  | done made => cases h

/-- Beginning a request keeps the invariant. -/
theorem OneRunInv.start (hnone : s.phase t = none) {request : Phase}
    (hopens : request.opens = true) :
    OneRunInv { s with phase := Function.update s.phase t (some request) } := by
  have hupdate : ∀ {u}, u ≠ t → Function.update s.phase t (some request) u = s.phase u :=
    fun hne => Function.update_of_ne hne _ _
  refine ⟨hinv.known, hinv.one, fun {k u r} hp => ?_, fun {u ph} hu => ?_, fun {u} hu => ?_⟩
  · have hne : u ≠ t := fun h => hinv.idle (h ▸ hnone) k r hp
    show _ ∨ Function.update s.phase t (some request) u = _
    rw [hupdate hne]
    exact hinv.writes hp
  · change Function.update s.phase t (some request) u = some ph at hu
    by_cases hne : u = t
    · subst hne
      rw [Function.update_self] at hu
      obtain rfl := Option.some.inj hu
      have hidle := hinv.idle hnone
      cases request with
      | startOpen q => exact hidle
      | resumeOpen q => exact hidle
      | changeOpen c => trivial
      | recoverOpen threshold => trivial
      | startLocked q => exact absurd hopens (by simp [Phase.opens])
      | superseding q left => exact absurd hopens (by simp [Phase.opens])
      | startClear q => exact absurd hopens (by simp [Phase.opens])
      | resumeRead q run => exact absurd hopens (by simp [Phase.opens])
      | resumeClear q run => exact absurd hopens (by simp [Phase.opens])
      | resumeLocked q run => exact absurd hopens (by simp [Phase.opens])
      | resumeCounted q run => exact absurd hopens (by simp [Phase.opens])
      | changeRead c run => exact absurd hopens (by simp [Phase.opens])
      | recovering threshold left => exact absurd hopens (by simp [Phase.opens])
      | done made => exact absurd hopens (by simp [Phase.opens])
    · rw [hupdate hne] at hu
      exact hinv.phases hu
  · change Function.update s.phase t (some request) u = none at hu
    by_cases hne : u = t
    · subst hne
      rw [Function.update_self] at hu
      exact absurd hu (by simp)
    · rw [hupdate hne] at hu
      exact hinv.idle hu

end Statement

/-! ## Runs -/

theorem initial_oneRunInv : OneRunInv System.initial := by
  refine ⟨fun k hk => ?_, fun hk _ => ?_, fun hp => ?_, fun hu => ?_, fun _ k r hp => ?_⟩
  · exact absurd hk (by simp [System.initial, Store.empty])
  · obtain ⟨o, ho, -⟩ := hk
    exact absurd ho (by simp [System.initial, Store.empty])
  · exact absurd hp (by simp [System.initial, Store.empty])
  · exact absurd hu (by simp [System.initial])
  · exact absurd hp (by simp [System.initial, Store.empty])

theorem step_oneRunInv {s s' : System} {i : ℕ × Action} (hinv : OneRunInv s)
    (hallowed : NoOtherRunning s i) (h : step s i = some s') : OneRunInv s' := by
  obtain ⟨t, a⟩ := i
  rcases step_cases h with ⟨request, -, hnone, hopens, rfl⟩ |
    ⟨phase, now, choice, p, rfl, hphase, hp, rfl⟩ | ⟨-, rfl⟩ | ⟨-, rfl⟩
  · exact hinv.start hnone hopens
  · exact hinv.next hphase hallowed hp
  · exact hinv.commit
  · exact hinv.rollback

/-- **Where no other run of the place is running whenever a run is made running, at most one
run of each resource and pipeline is ever running.** -/
theorem one_running {s : System}
    (hs : Runs.Reachable step NoOtherRunning (· = System.initial) s) (place : Place) :
    {k | RunsAt s.table k place}.Subsingleton := by
  have hinv : OneRunInv s := hs.invariant (fun s hs => hs ▸ initial_oneRunInv)
    fun s i s' hinv hallowed hstep => step_oneRunInv hinv hallowed hstep
  exact fun k hk k' hk' => hinv.one hk hk'

/-- The place of `startedRun`. -/
def quizPlace : Place := ⟨.quiz, 3⟩

/-- A client starts a run and supersedes one run of the place. -/
def replacedRun (t k : ℕ) : List (ℕ × Action) :=
  [(t, .start (.startOpen ⟨k, quizPlace, 1, 100 + k, true, true⟩))] ++ statements t 5 ++
    [(t, .commit)]

/-- Run 7 is paused, and run 8 is started in its stead. -/
def replacedSystem : System :=
  (Runs.run (fun s i => if NoOtherRunning s i then step s i else none) System.initial
    (startedRun 0 7 ++ changedRun 1 7 (.pause 1) ++ replacedRun 2 8)).get (by decide)

/-- Run 8 alone is running. -/
theorem replaced_one_running :
    RunsAt replacedSystem.table 8 quizPlace ∧
      {k | RunsAt replacedSystem.table k quizPlace}.Subsingleton :=
  ⟨by decide, one_running (Runs.reachable_of_checked rfl (Option.some_get _).symm) quizPlace⟩

/-! ### A resume that looks before it locks -/

/-- The resume of run 7 finds no other run, run 8 is started, and the resume goes on. -/
def crossedSystem : System :=
  (Runs.run step System.initial (startedRun 0 7 ++ changedRun 1 7 (.pause 1) ++
    [(2, .start (.resumeOpen ⟨7, 1, 200⟩)), (2, .next 0 none), (2, .next 0 (some 7))] ++
    replacedRun 3 8 ++ statements 2 3 ++ [(2, .commit)])).get (by decide)

/-- Two runs of one quiz are running. -/
theorem two_running :
    Runs.Reachable step (fun _ _ => True) (· = System.initial) crossedSystem ∧
      RunsAt crossedSystem.table 7 quizPlace ∧ RunsAt crossedSystem.table 8 quizPlace :=
  ⟨Runs.reachable_of_run rfl (Option.some_get _).symm, by decide, by decide⟩

end StudyAgent.Generation
