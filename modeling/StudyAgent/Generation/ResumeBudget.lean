import StudyAgent.Generation.RunRequests

/-!
# The budget of resumes

A resume checks the status, the number of attempts and the retry time of the row that it has read,
then takes the coordinator lock, and does not read the row again: it writes one attempt more than it
has read and sets the run running, whatever has become of the run.  Here the requests have a clock,
and the resumes of each run are counted when they are committed.

Main results:

* `Holds.next`, `Budgeted.commit` — what a statement and a commit keep.
* `resume_budget` — **a run is resumed at most `MAX_RESUME_ATTEMPTS` times, each of them counted,
  and never while it runs or too early**, where each resume finds the row as it has read it.
-/

namespace StudyAgent.Generation

open ReadCommitted

/-! ## Counting -/

/-- The requests, the time, and how often each run has been resumed. -/
structure Counted where
  system : System
  clock : ℕ
  resumes : ℕ → ℕ

/-- The run that a session resumes once it commits; a run that it has made is not there yet. -/
def System.resumed (s : System) (t : ℕ) : Option ℕ :=
  match s.phase t with
  | some (.done (some k)) => if (s.table.rows k).isSome then some k else none
  | _ => none

/-- The session has written the attempt, and not yet the status. -/
def System.counting (s : System) (t : ℕ) : Bool :=
  match s.phase t with
  | some (.resumeCounted _ _) => true
  | _ => false

/-- One step; a statement comes with the time. -/
def countedStep (c : Counted) (i : ℕ × Action) : Option Counted :=
  match i.2 with
  | .next now _ =>
    if c.clock ≤ now then
      (step c.system i).map fun s => { c with system := s, clock := now }
    else none
  | .commit =>
    -- nothing is committed between the two statements of a resume
    if c.system.counting i.1 then none
    else (step c.system i).map fun s =>
      { c with
        system := s
        resumes := fun k =>
          if c.system.resumed i.1 = some k then c.resumes k + 1 else c.resumes k }
  | _ => (step c.system i).map fun s => { c with system := s }

/-- Nothing has happened yet. -/
def Counted.initial : Counted := ⟨System.initial, 0, fun _ => 0⟩

/-- The resume that counts its attempt, and the row that it has read. -/
def System.counted? (s : System) : ℕ × Action → Option (ResumeRequest × GenerationRun)
  | (t, .next _ _) =>
    match s.phase t with
    | some (.resumeLocked q run) => some (q, run)
    | _ => none
  | _ => none

/-- A resume that counts its attempt finds the status, the number of attempts and the retry time
that it has read. -/
def FindsAsRead (c : Counted) (i : ℕ × Action) : Prop :=
  ∀ p ∈ c.system.counted? i, ∀ r ∈ c.system.table.rows p.1.runId,
    r.status = p.2.status ∧ r.attemptCount = p.2.attemptCount ∧
      r.nextLlmRetryAt = p.2.nextLlmRetryAt

instance (c : Counted) (i : ℕ × Action) : Decidable (FindsAsRead c i) :=
  inferInstanceAs (Decidable (∀ p ∈ _, ∀ r ∈ _, _ ∧ _ ∧ _))

/-! ## The invariant -/

/-- The run may be resumed: it is paused or has failed, and a failed one may be retried by now. -/
def Ready (clock : ℕ) (row : GenerationRun) : Prop :=
  row.status ∈ RESUMABLE_RUN_STATUSES ∧
    (row.status = .failed → ∀ retryAt ∈ row.nextLlmRetryAt, retryAt ≤ clock)

theorem Ready.mono {clock clock' : ℕ} {row : GenerationRun} (h : Ready clock row)
    (hclock : clock ≤ clock') : Ready clock' row :=
  ⟨h.1, fun hfailed retryAt hretry => (h.2 hfailed retryAt hretry).trans hclock⟩

theorem ready_of_validate {now : ℕ} {row : GenerationRun} (h : validateResumable now row = true) :
    Ready now row ∧ row.attemptCount < MAX_RESUME_ATTEMPTS := by
  simp only [validateResumable, Bool.and_eq_true, decide_eq_true_eq, Bool.not_eq_true',
    Bool.and_eq_false_iff, decide_eq_false_iff_not] at h
  obtain ⟨⟨⟨hstatus, -⟩, hattempts⟩, hretry⟩ := h
  refine ⟨⟨hstatus, fun hfailed retryAt hat => ?_⟩, hattempts⟩
  have hlate := hretry.resolve_left fun hne => hne hfailed
  rw [Option.mem_def.1 hat, Option.any_some, decide_eq_false_iff_not] at hlate
  exact Nat.le_of_not_lt hlate

/-- A session has written nothing. -/
def Clean (tb : Table) (t : ℕ) : Prop := ∀ k r, tb.pending k ≠ some (t, r)

/-- What a session has written of a run counts no attempt. -/
def Plain (tb : Table) (t k : ℕ) : Prop :=
  ∀ r, tb.pending k = some (t, r) → ∃ o, tb.rows k = some o ∧ r.attemptCount = o.attemptCount

/-- A session has made a run, or counted an attempt of one that may be resumed. -/
def Marked (tb : Table) (clock t k : ℕ) : Prop :=
  ∃ r, tb.pending k = some (t, r) ∧
    match tb.rows k with
    | none => r.attemptCount = 0
    | some o => r.attemptCount = o.attemptCount + 1 ∧ o.attemptCount < MAX_RESUME_ATTEMPTS ∧
        Ready clock o

/-- What a session that resumes a run has read of it. -/
structure Checked (tb : Table) (clock t : ℕ) (q : ResumeRequest) (run : GenerationRun) : Prop where
  clean : Clean tb t
  ready : Ready clock run
  attempts : run.attemptCount < MAX_RESUME_ATTEMPTS
  known : tb.rows q.runId ≠ none

/-- What holds of a session. -/
def Holds (tb : Table) (clock t : ℕ) : Option Phase → Prop
  | none | some (.startOpen _) | some (.startLocked _) | some (.resumeOpen _)
  | some (.changeOpen _) | some (.changeRead _ _) | some (.recoverOpen _) => Clean tb t
  | some (.resumeRead q run) | some (.resumeClear q run) | some (.resumeLocked q run) =>
    Checked tb clock t q run
  | some (.resumeCounted q _) => Marked tb clock t q.runId ∧ ∀ j ≠ q.runId, Plain tb t j
  | some (.done (some k)) => Marked tb clock t k ∧ ∀ j ≠ k, Plain tb t j
  | some (.superseding _ _) | some (.startClear _) | some (.recovering _ _) | some (.done none) =>
    ∀ j, Plain tb t j

structure Budgeted (c : Counted) : Prop where
  rows : ∀ {k r}, c.system.table.rows k = some r →
    r.attemptCount = c.resumes k ∧ r.attemptCount ≤ MAX_RESUME_ATTEMPTS
  absent : ∀ {k}, c.system.table.rows k = none → c.resumes k = 0
  sessions : ∀ t, Holds c.system.table c.clock t (c.system.phase t)

variable {tb tb' : Table} {clock clock' t k now : ℕ} {phase : Phase} {q : ResumeRequest}
  {run : GenerationRun}

theorem Clean.plain (h : Clean tb t) (k : ℕ) : Plain tb t k := fun r hr => absurd hr (h k r)

/-! ## Other sessions -/

/-- What a session has written is left alone, and no row goes. -/
structure Left (tb tb' : Table) (t : ℕ) : Prop where
  pending : ∀ {k r}, tb'.pending k = some (t, r) ↔ tb.pending k = some (t, r)
  rows : ∀ {k r}, tb.pending k = some (t, r) → tb'.rows k = tb.rows k
  known : ∀ {k}, tb.rows k ≠ none → tb'.rows k ≠ none

theorem Clean.left (h : Clean tb t) (hleft : Left tb tb' t) : Clean tb' t :=
  fun k r hr => h k r (hleft.pending.1 hr)

theorem Plain.left (h : Plain tb t k) (hleft : Left tb tb' t) : Plain tb' t k := by
  intro r hr
  have hold := hleft.pending.1 hr
  rw [hleft.rows hold]
  exact h r hold

theorem Marked.left (h : Marked tb clock t k) (hleft : Left tb tb' t) (hclock : clock ≤ clock') :
    Marked tb' clock' t k := by
  obtain ⟨r, hr, hmark⟩ := h
  refine ⟨r, hleft.pending.2 hr, ?_⟩
  rw [hleft.rows hr]
  cases hrow : tb.rows k with
  | none =>
    rw [hrow] at hmark
    exact hmark
  | some o =>
    rw [hrow] at hmark
    exact ⟨hmark.1, hmark.2.1, hmark.2.2.mono hclock⟩

theorem Checked.left (h : Checked tb clock t q run) (hleft : Left tb tb' t)
    (hclock : clock ≤ clock') : Checked tb' clock' t q run :=
  ⟨h.clean.left hleft, h.ready.mono hclock, h.attempts, hleft.known h.known⟩

/-- **What holds of a session still does when others have gone on.** -/
theorem Holds.left {phase : Option Phase} (h : Holds tb clock t phase) (hleft : Left tb tb' t)
    (hclock : clock ≤ clock') : Holds tb' clock' t phase := by
  cases phase with
  | none => exact Clean.left h hleft
  | some phase =>
    cases phase with
    | startOpen | startLocked | resumeOpen | changeOpen | changeRead | recoverOpen =>
      exact Clean.left h hleft
    | resumeRead | resumeClear | resumeLocked => exact Checked.left h hleft hclock
    | resumeCounted q run =>
      exact ⟨h.1.left hleft hclock, fun j hj => (h.2 j hj).left hleft⟩
    | superseding | startClear | recovering => exact fun j => (h j).left hleft
    | done made =>
      cases made with
      | none => exact fun j => (h j).left hleft
      | some k => exact ⟨h.1.left hleft hclock, fun j hj => (h.2 j hj).left hleft⟩

theorem left_of_statement {s : ℕ} (h : tb.Statement s tb') (hne : t ≠ s) : Left tb tb' t :=
  ⟨fun {_ _} => h.frame.pending hne, fun _ => by rw [h.frame.rows], fun hknown => by
    rw [h.frame.rows]
    exact hknown⟩

/-! ## Statements -/

theorem plain_update {f : GenerationRun → GenerationRun} {guard : GenerationRun → Bool}
    (h : ∀ j, Plain tb t j) (hf : ∀ row, (f row).attemptCount = row.attemptCount)
    (hupdate : tb.update t k guard f = some tb') (j : ℕ) : Plain tb' t j := by
  rcases Store.update_cases hupdate with ⟨rfl, -⟩ | ⟨r, hview, -, -, rfl⟩
  · exact h j
  · intro r' hr'
    rw [Store.pending_write] at hr'
    split_ifs at hr' with hj
    · cases hr'
      subst hj
      rw [Store.rows_write, hf]
      rcases tb.view_cases t j with ⟨r'', hown, hview'⟩ | ⟨-, hview'⟩
      · rw [hview, Option.some.injEq] at hview'
        exact hview' ▸ h j r'' hown
      · exact ⟨r, hview'.symm.trans hview, rfl⟩
    · exact h j r' hr'

theorem checked_of_view (h : Clean tb t) (hview : tb.view t q.runId = some run)
    (hvalid : validateResumable now run = true) : Checked tb now t q run where
  clean := h
  ready := (ready_of_validate hvalid).1
  attempts := (ready_of_validate hvalid).2
  known := by
    rw [← Store.view_of_not_own (h q.runId), hview]
    simp

/-- **The attempt is counted**, on the row as it has been read. -/
theorem marked_of_checked {f : GenerationRun → GenerationRun} (h : Checked tb clock t q run)
    (hclock : clock ≤ now) (hf : ∀ row, (f row).attemptCount = run.attemptCount + 1)
    (hfinds : ∀ r ∈ tb.rows q.runId, r.status = run.status ∧ r.attemptCount = run.attemptCount ∧
      r.nextLlmRetryAt = run.nextLlmRetryAt)
    (hupdate : tb.update t q.runId (fun _ => true) f = some tb') :
    Marked tb' now t q.runId ∧ ∀ j ≠ q.runId, Plain tb' t j := by
  obtain ⟨o, ho⟩ := Option.ne_none_iff_exists'.1 h.known
  have hview : tb.view t q.runId = some o := (Store.view_of_not_own (h.clean q.runId)).trans ho
  obtain ⟨hstatus, hattempts, hretry⟩ := hfinds o ho
  rcases Store.update_cases hupdate with ⟨-, hno⟩ | ⟨r, -, -, -, rfl⟩
  · exact absurd (hno o hview) (by simp)
  · refine ⟨⟨f r, ?_, ?_⟩, fun j hj r' hr' => ?_⟩
    · rw [Store.pending_write, if_pos rfl]
    · rw [Store.rows_write, ho]
      have hready := h.ready.mono hclock
      refine ⟨by rw [hf, hattempts], by rw [hattempts]; exact h.attempts, ?_, ?_⟩
      · rw [hstatus]
        exact hready.1
      · rw [hstatus, hretry]
        exact hready.2
    · rw [Store.pending_write, if_neg hj] at hr'
      exact absurd hr' (h.clean j r')

/-- The status is written behind the attempt. -/
theorem marked_update {f : GenerationRun → GenerationRun}
    (h : Marked tb clock t k ∧ ∀ j ≠ k, Plain tb t j) (hclock : clock ≤ now)
    (hf : ∀ row, (f row).attemptCount = row.attemptCount)
    (hupdate : tb.update t k (fun _ => true) f = some tb') :
    Marked tb' now t k ∧ ∀ j ≠ k, Plain tb' t j := by
  obtain ⟨⟨r, hr, hmark⟩, hplain⟩ := h
  have hview := Store.view_of_pending hr
  rcases Store.update_cases hupdate with ⟨-, hno⟩ | ⟨r', hview', -, -, rfl⟩
  · exact absurd (hno r hview) (by simp)
  · rw [hview, Option.some.injEq] at hview'
    subst hview'
    refine ⟨⟨f r, ?_, ?_⟩, fun j hj r' hr' => ?_⟩
    · rw [Store.pending_write, if_pos rfl]
    · rw [Store.rows_write]
      cases hrow : tb.rows k with
      | none =>
        rw [hrow] at hmark
        exact (hf r).trans hmark
      | some o =>
        rw [hrow] at hmark
        exact ⟨(hf r).trans hmark.1, hmark.2.1, hmark.2.2.mono hclock⟩
    · rw [Store.pending_write, if_neg hj] at hr'
      exact hplain j hj r' hr'

/-- **A statement keeps what holds of its session.** -/
theorem Holds.next {s : System} {choice : Option ℕ} {p : Table × List ℕ × Phase}
    (h : Holds s.table clock t (some phase)) (hclock : clock ≤ now)
    (hfinds : ∀ q run, phase = .resumeLocked q run → ∀ r ∈ s.table.rows q.runId,
      r.status = run.status ∧ r.attemptCount = run.attemptCount ∧
        r.nextLlmRetryAt = run.nextLlmRetryAt)
    (hnext : next s t now choice phase = some p) : Holds p.1 now t (some p.2.2) := by
  cases phase with
  | startOpen q =>
    obtain ⟨tb, hlock, rfl⟩ := Option.map_eq_some_iff.1 hnext
    obtain ⟨-, rfl⟩ := Store.acquire_eq_some hlock
    exact h
  | startLocked q =>
    cases hnext
    exact Clean.plain h
  | superseding q left =>
    cases left with
    | nil =>
      rw [Generation.next] at hnext
      split_ifs at hnext
      cases hnext
      exact h
    | cons k left =>
      obtain ⟨tb, hupdate, rfl⟩ := Option.map_eq_some_iff.1 hnext
      refine plain_update h (fun row => ?_) hupdate
      rfl
  | startClear q =>
    rw [Generation.next] at hnext
    split_ifs at hnext with hfresh
    cases hnext
    refine ⟨⟨newRun now q, ?_, ?_⟩, fun j hj r hr => ?_⟩
    · rw [Store.pending_write, if_pos rfl]
    · rw [Store.rows_write, hfresh.1]
      rfl
    · rw [Store.pending_write, if_neg hj] at hr
      exact h j r hr
  | resumeOpen q =>
    rw [Generation.next] at hnext
    split at hnext
    · rename_i run hview
      split_ifs at hnext with hvalid
      cases hnext
      exact checked_of_view h hview hvalid.2
    · cases hnext
  | resumeRead q run =>
    rw [Generation.next] at hnext
    split_ifs at hnext
    cases hnext
    exact ⟨h.clean, h.ready.mono hclock, h.attempts, h.known⟩
  | resumeClear q run =>
    obtain ⟨tb, hlock, rfl⟩ := Option.map_eq_some_iff.1 hnext
    obtain ⟨-, rfl⟩ := Store.acquire_eq_some hlock
    exact ⟨h.clean, h.ready.mono hclock, h.attempts, h.known⟩
  | resumeLocked q run =>
    obtain ⟨tb, hupdate, rfl⟩ := Option.map_eq_some_iff.1 hnext
    exact marked_of_checked h hclock (fun _ => rfl) (hfinds q run rfl) hupdate
  | resumeCounted q run =>
    obtain ⟨tb, hupdate, rfl⟩ := Option.map_eq_some_iff.1 hnext
    refine marked_update h hclock (fun row => ?_) hupdate
    rfl
  | changeOpen c =>
    rw [Generation.next] at hnext
    split at hnext
    · split_ifs at hnext
      cases hnext
      exact h
    · cases hnext
  | changeRead c run =>
    obtain ⟨tb, hupdate, rfl⟩ := Option.map_eq_some_iff.1 hnext
    refine plain_update (Clean.plain h) (fun row => ?_) hupdate
    cases c.kind <;> rfl
  | recoverOpen threshold =>
    cases hnext
    exact Clean.plain h
  | recovering threshold left =>
    cases left with
    | nil =>
      cases hnext
      exact h
    | cons entry left =>
      obtain ⟨tb, hupdate, rfl⟩ := Option.map_eq_some_iff.1 hnext
      refine plain_update h (fun row => ?_) hupdate
      rfl
  | done made => cases hnext

/-! ## The end of a transaction -/

/-- A transaction has ended, and another session has not noticed. -/
theorem left_of_commit {s : ℕ} (hne : t ≠ s) : Left tb (tb.commit s) t where
  pending := fun {k r} => by
    rw [Store.pending_commit]
    exact and_iff_left hne
  rows := fun {k r} hr => Store.view_of_other hr hne
  known := fun {k} hknown => by
    rw [Store.rows_commit]
    rcases tb.view_cases s k with ⟨r, -, hview⟩ | ⟨-, hview⟩
    · rw [hview]
      simp
    · rw [hview]
      exact hknown

theorem left_of_rollback {s : ℕ} (hne : t ≠ s) : Left tb (tb.rollback s) t where
  pending := fun {k r} => by
    rw [Store.pending_rollback]
    exact and_iff_left hne
  rows := fun _ => rfl
  known := id

theorem clean_commit (s : ℕ) : Clean (tb.commit s) s :=
  fun _ _ hr => (Store.pending_commit.1 hr).2 rfl

theorem clean_rollback (s : ℕ) : Clean (tb.rollback s) s :=
  fun _ _ hr => (Store.pending_rollback.1 hr).2 rfl

variable {c c' : Counted} {i : ℕ × Action}

/-- What a session that commits does to a run. -/
inductive Ends (c : Counted) (t k : ℕ) : Prop
  | same (hview : c.system.table.view t k = c.system.table.rows k)
      (hnot : c.system.resumed t ≠ some k)
  | made {r : GenerationRun} (hview : c.system.table.view t k = some r)
      (habsent : c.system.table.rows k = none) (hzero : r.attemptCount = 0)
      (hnot : c.system.resumed t ≠ some k)
  | changed {r o : GenerationRun} (hview : c.system.table.view t k = some r)
      (ho : c.system.table.rows k = some o) (hsame : r.attemptCount = o.attemptCount)
      (hnot : c.system.resumed t ≠ some k)
  | resumed {r o : GenerationRun} (hview : c.system.table.view t k = some r)
      (ho : c.system.table.rows k = some o) (hmore : r.attemptCount = o.attemptCount + 1)
      (hless : o.attemptCount < MAX_RESUME_ATTEMPTS) (hready : Ready c.clock o)
      (hresumed : c.system.resumed t = some k)

theorem Plain.ends (h : Plain c.system.table t k) (hnot : c.system.resumed t ≠ some k) :
    Ends c t k := by
  rcases c.system.table.view_cases t k with ⟨r, hr, hview⟩ | ⟨-, hview⟩
  · obtain ⟨o, ho, hsame⟩ := h r hr
    exact .changed hview ho hsame hnot
  · exact .same hview hnot

theorem Marked.ends (h : Marked c.system.table c.clock t k)
    (hphase : c.system.phase t = some (.done (some k))) : Ends c t k := by
  obtain ⟨r, hr, hmark⟩ := h
  have hview := Store.view_of_pending hr
  cases hrow : c.system.table.rows k with
  | none =>
    rw [hrow] at hmark
    exact .made hview hrow hmark (by simp [System.resumed, hphase, hrow])
  | some o =>
    rw [hrow] at hmark
    obtain ⟨hmore, hless, hready⟩ := hmark
    exact .resumed hview hrow hmore hless hready (by simp [System.resumed, hphase, hrow])

/-- **What a session that commits has written of a run**: nothing that counts, or the run is new,
or it was resumed. -/
theorem Budgeted.ends (h : Budgeted c) (hcounting : c.system.counting t = false) (k : ℕ) :
    Ends c t k := by
  have hheld := h.sessions t
  unfold System.counting at hcounting
  have hresumed : ∀ j, c.system.resumed t = some j → c.system.phase t = some (.done (some j)) := by
    intro j hj
    unfold System.resumed at hj
    split at hj
    · split_ifs at hj
      cases hj
      assumption
    · cases hj
  cases hphase : c.system.phase t with
  | none =>
    rw [hphase] at hheld
    refine (Clean.plain hheld k).ends fun hk => ?_
    simpa [hphase] using hresumed k hk
  | some phase =>
    rw [hphase] at hheld hcounting
    cases phase with
    | startOpen | startLocked | resumeOpen | changeOpen | changeRead | recoverOpen =>
      refine (Clean.plain hheld k).ends fun hk => ?_
      simpa [hphase] using hresumed k hk
    | resumeRead | resumeClear | resumeLocked =>
      refine (hheld.clean.plain k).ends fun hk => ?_
      simpa [hphase] using hresumed k hk
    | resumeCounted q run => cases hcounting
    | superseding | startClear | recovering =>
      refine Plain.ends (hheld k) fun hk => ?_
      simpa [hphase] using hresumed k hk
    | done made =>
      cases made with
      | none =>
        refine Plain.ends (hheld k) fun hk => ?_
        simpa [hphase] using hresumed k hk
      | some j =>
        by_cases hk : k = j
        · subst hk
          exact hheld.1.ends hphase
        · refine (hheld.2 k hk).ends fun hk' => ?_
          have hsame := hresumed k hk'
          rw [hphase] at hsame
          cases hsame
          exact hk rfl

/-- **A commit** counts a resume for each attempt. -/
theorem Budgeted.commit (h : Budgeted c) (hcounting : c.system.counting t = false) :
    Budgeted { c with
      system := { c.system with
        table := c.system.table.commit t
        phase := Function.update c.system.phase t none }
      resumes := fun k =>
        if c.system.resumed t = some k then c.resumes k + 1 else c.resumes k } := by
  refine ⟨fun {k r} hrow => ?_, fun {k} hrow => ?_, fun t' => ?_⟩
  · change c.system.table.view t k = some r at hrow
    dsimp only
    cases h.ends hcounting k with
    | same hview hnot =>
      rw [if_neg hnot]
      exact h.rows (hview.symm.trans hrow)
    | made hview habsent hzero hnot =>
      rw [hview, Option.some.injEq] at hrow
      rw [if_neg hnot, h.absent habsent, ← hrow, hzero]
      exact ⟨rfl, Nat.zero_le _⟩
    | changed hview ho hsame hnot =>
      rw [hview, Option.some.injEq] at hrow
      rw [if_neg hnot, ← hrow, hsame]
      exact h.rows ho
    | resumed hview ho hmore hless hready hresumed =>
      rw [hview, Option.some.injEq] at hrow
      obtain ⟨hcount, -⟩ := h.rows ho
      rw [if_pos hresumed, ← hrow, hmore, hcount]
      exact ⟨rfl, by omega⟩
  · change c.system.table.view t k = none at hrow
    dsimp only
    cases h.ends hcounting k with
    | same hview hnot =>
      rw [if_neg hnot]
      exact h.absent (hview.symm.trans hrow)
    | made hview | changed hview | resumed hview =>
      rw [hview] at hrow
      cases hrow
  · dsimp only
    by_cases ht : t' = t
    · subst ht
      rw [Function.update_self]
      exact clean_commit t'
    · rw [Function.update_of_ne ht]
      exact (h.sessions t').left (left_of_commit ht) le_rfl

/-! ## Runs -/

theorem initial_budgeted : Budgeted Counted.initial where
  rows := fun {k r} hrow => by cases hrow
  absent := fun _ => rfl
  sessions := fun t k r hr => by cases hr

/-- **A step keeps the budget**, if a resume finds the row as it has read it. -/
theorem countedStep_budgeted (h : Budgeted c) (hfinds : FindsAsRead c i)
    (hstep : countedStep c i = some c') : Budgeted c' := by
  obtain ⟨t, a⟩ := i
  unfold countedStep at hstep
  cases a with
  | start request =>
    obtain ⟨s, hs, rfl⟩ := Option.map_eq_some_iff.1 hstep
    rcases step_cases hs with ⟨request', -, hnone, hopens, rfl⟩ | ⟨_, _, _, _, ha, -⟩ | ⟨ha, -⟩ |
      ⟨ha, -⟩
    · refine ⟨h.rows, h.absent, fun t' => ?_⟩
      dsimp only
      by_cases ht : t' = t
      · subst ht
        rw [Function.update_self]
        have hclean := h.sessions t'
        rw [hnone] at hclean
        cases request' <;> first | exact hclean | cases hopens
      · rw [Function.update_of_ne ht]
        exact h.sessions t'
    · cases ha
    · cases ha
    · cases ha
  | next now choice =>
    dsimp only at hstep
    split_ifs at hstep with hclock
    obtain ⟨s, hs, rfl⟩ := Option.map_eq_some_iff.1 hstep
    rcases step_cases hs with ⟨_, ha, -⟩ | ⟨phase, now', choice', p, ha, hphase, hnext, rfl⟩ |
      ⟨ha, -⟩ | ⟨ha, -⟩
    · cases ha
    · cases ha
      have hrows : p.1.rows = c.system.table.rows := (next_statement hnext).frame.rows
      refine ⟨fun {k r} hrow => ?_, fun {k} hrow => ?_, fun t' => ?_⟩
      · exact h.rows ((congrFun hrows k).symm.trans hrow)
      · exact h.absent ((congrFun hrows k).symm.trans hrow)
      · dsimp only
        by_cases ht : t' = t
        · subst ht
          rw [Function.update_self]
          have hheld := h.sessions t'
          rw [hphase] at hheld
          refine hheld.next hclock ?_ hnext
          rintro q run rfl
          exact hfinds (q, run) (by simp [System.counted?, hphase])
        · rw [Function.update_of_ne ht]
          exact (h.sessions t').left (left_of_statement (next_statement hnext) ht) hclock
    · cases ha
    · cases ha
  | commit =>
    dsimp only at hstep
    split_ifs at hstep with hcounting
    obtain ⟨s, hs, rfl⟩ := Option.map_eq_some_iff.1 hstep
    rcases step_cases hs with ⟨_, ha, -⟩ | ⟨_, _, _, _, ha, -⟩ | ⟨-, rfl⟩ | ⟨ha, -⟩
    · cases ha
    · cases ha
    · exact h.commit (by simpa using hcounting)
    · cases ha
  | rollback =>
    obtain ⟨s, hs, rfl⟩ := Option.map_eq_some_iff.1 hstep
    rcases step_cases hs with ⟨_, ha, -⟩ | ⟨_, _, _, _, ha, -⟩ | ⟨ha, -⟩ | ⟨-, rfl⟩
    · cases ha
    · cases ha
    · cases ha
    · refine ⟨h.rows, h.absent, fun t' => ?_⟩
      dsimp only
      by_cases ht : t' = t
      · subst ht
        rw [Function.update_self]
        exact clean_rollback t'
      · rw [Function.update_of_ne ht]
        exact (h.sessions t').left (left_of_rollback ht) le_rfl

/-- **The budget of resumes is respected**: no run is resumed more than `MAX_RESUME_ATTEMPTS` times,
`attempt_count` counts every resume, and a resume that is committed finds no run that is running and
none that has failed and is not to be retried yet, as long as every resume finds the row as it has
read it. -/
theorem resume_budget (h : Runs.Reachable countedStep FindsAsRead (· = Counted.initial) c) :
    (∀ k, c.resumes k ≤ MAX_RESUME_ATTEMPTS) ∧
    (∀ k, ∀ r ∈ c.system.table.rows k, r.attemptCount = c.resumes k) ∧
    ∀ t, countedStep c (t, .commit) ≠ none → ∀ k ∈ c.system.resumed t,
      ∀ o ∈ c.system.table.rows k, o.status ≠ .running ∧
        ¬ (o.status = .failed ∧ ∃ retryAt ∈ o.nextLlmRetryAt, c.clock < retryAt) := by
  have hinv : Budgeted c := by
    refine h.invariant ?_ fun c i c' hinv hfinds hstep => countedStep_budgeted hinv hfinds hstep
    rintro c rfl
    exact initial_budgeted
  refine ⟨fun k => ?_, fun k r hr => (hinv.rows hr).1, fun t hcommit k hk o ho => ?_⟩
  · cases hrow : c.system.table.rows k with
    | none =>
      rw [hinv.absent hrow]
      exact Nat.zero_le _
    | some r =>
      obtain ⟨hcount, hmax⟩ := hinv.rows hrow
      omega
  · have hcounting : c.system.counting t = false := by
      by_contra hnot
      refine hcommit ?_
      simp [countedStep, eq_true_of_ne_false hnot]
    cases hinv.ends hcounting k with
    | same _ hnot | made _ _ _ hnot | changed _ _ _ hnot => exact absurd hk hnot
    | resumed _ ho' _ _ hready _ =>
      rw [ho', Option.mem_some_iff] at ho
      subst ho
      refine ⟨fun hrunning => ?_, fun hfailed => ?_⟩
      · have hresumable := hready.1
        rw [hrunning] at hresumable
        exact absurd hresumable (by decide)
      · obtain ⟨hstatus, retryAt, hat, hearly⟩ := hfailed
        exact absurd (hready.2 hstatus retryAt hat) (by omega)

/-- A paused run is resumed by a client. -/
def resuming (t token : ℕ) : List (ℕ × Action) :=
  [(t, .start (.resumeOpen ⟨7, 1, token⟩)), (t, .next 0 none), (t, .next 0 (some 7))]

/-- Run 7 is started, paused and resumed. -/
theorem paused_run_resumed :
    ∃ c, Runs.Reachable countedStep FindsAsRead (· = Counted.initial) c ∧ c.resumes 7 = 1 ∧
      ∀ r ∈ c.system.table.rows 7, r.attemptCount = c.resumes 7 := by
  have hrun : Runs.run (fun c i => if FindsAsRead c i then countedStep c i else none)
      Counted.initial (startedRun 0 7 ++ changedRun 1 7 (.pause 1) ++ resuming 2 200 ++
        statements 2 3 ++ [(2, .commit)]) = some _ := rfl
  have hreached : Runs.Reachable countedStep FindsAsRead (· = Counted.initial) _ :=
    Runs.reachable_of_checked rfl hrun
  exact ⟨_, hreached, rfl, (resume_budget hreached).2.1 7⟩

/-- Two clients have checked the paused run before either takes the lock. -/
theorem running_run_resumed :
    ∃ c, Runs.Reachable countedStep (fun _ _ => True) (· = Counted.initial) c ∧
      c.resumes 7 = 2 ∧ ¬ ∀ r ∈ c.system.table.rows 7, r.attemptCount = c.resumes 7 := by
  have hrun : Runs.run countedStep Counted.initial (startedRun 0 7 ++ changedRun 1 7 (.pause 1) ++
      resuming 2 200 ++ resuming 3 300 ++ statements 2 3 ++ [(2, .commit)] ++ statements 3 3 ++
      [(3, .commit)]) = some _ := rfl
  refine ⟨_, Runs.reachable_of_run rfl hrun, rfl, fun hcounted => ?_⟩
  exact absurd (hcounted _ rfl) (by decide)

end StudyAgent.Generation
