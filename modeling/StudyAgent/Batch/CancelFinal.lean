import StudyAgent.Batch.CancelReading

/-!
# Cancelling is final

A session that writes what it has read long ago can take a cancellation back, claim a step
that was skipped, or leave a run behind that no cancel has seen.  Where statuses are
written over what was read, and a claim does not cross a cancel, none of this happens.

Main results:

* `step_worldInv` — a step that meets the condition keeps the invariant.
* `cancel_final` — **then a cancelled batch stays cancelled, and behind a cancel no step is
  open and no run goes on, in every state reached.**
-/

namespace StudyAgent.Batch

open ReadCommitted
open Generation (RunStatus)

variable {n : ℕ}

/-! ## Worlds -/

/-- What holds in every state reached. -/
structure WorldInv (w : World n) : Prop where
  sessions : SessionsOk w.system
  knows : ∀ t session, w.system.sessions t = some session → SessionKnows session
  tables : CancelInv w.system.tables
  runs : RunsInv w.runs
  started : ∀ run, w.runs.rows run ≠ none → run ∈ w.started
  claimed : ∀ t m k, w.system.sessions t = some (.working m (.claimed k)) →
    ∃ r, w.system.tables.steps.pending k = some (t, r) ∧ r.step.status = .running
  readers : ∀ t ∈ w.readers, ∃ m phase left, w.system.sessions t = some (.working m phase) ∧
    CancelPhase left phase ∧ Reading w.system.tables w.runs t m left
  alone : w.readers ≠ [] ∨ w.done = true →
    ∀ t m k, w.system.sessions t ≠ some (.working m (.claimed k))
  cancelled : w.cancelled = true →
    ∀ row ∈ w.system.tables.batch.rows (), row.status = .cancelled
  committed : w.done = true → w.cancelled = true
  settled : w.done = true →
    ∀ k, ∀ row ∈ w.system.tables.steps.rows k, row.step.status.isOpen = false
  ended : w.done = true → ∀ run, ∀ r ∈ w.runs.rows run, r.status ≠ .running

theorem new_worldInv {w : World n} (h : w.New) : WorldInv w := by
  obtain ⟨mode, rfl⟩ := h
  exact
    { sessions := created_sessionsOk ⟨mode, rfl⟩
      knows := fun _ _ h => nomatch h
      tables :=
        { batchKnown := fun _ => Option.some_ne_none _
          stepsKnown := fun _ => Option.some_ne_none _
          batch := fun _ _ _ h => nomatch h
          steps := fun _ _ _ h => nomatch h }
      runs := ⟨fun _ _ _ h => nomatch h⟩
      started := fun _ h => absurd rfl h
      claimed := fun _ _ _ h => nomatch h
      readers := fun _ h => nomatch h
      alone := fun _ _ _ _ h => nomatch h
      cancelled := fun h => nomatch h
      committed := fun h => nomatch h
      settled := fun h => nomatch h
      ended := fun h => nomatch h }

section Steps

variable {w w' : World n} {t : ℕ}

/-- A session of the others, behind a step of `t`. -/
theorem other_session {new : Option (Session n)} {u : ℕ} (hne : u ≠ t) :
    Function.update w.system.sessions t new u = w.system.sessions u :=
  Function.update_of_ne hne _ _

theorem start_worldInv (h : WorldInv w) (hsession : w.system.sessions t = none)
    (request : Request n) :
    WorldInv { w with system := { w.system with
      sessions := Function.update w.system.sessions t (some (.opened request)) } } := by
  have hold : ∀ {u m phase}, Function.update w.system.sessions t (some (.opened request)) u =
      some (.working m phase) → w.system.sessions u = some (.working m phase) := by
    intro u m phase hu
    rw [Function.update_apply] at hu
    split_ifs at hu
    · cases hu
    · exact hu
  have hnew : ∀ {P : Session n → Prop}, (∀ u session, w.system.sessions u = some session →
      P session) → P (.opened request) → ∀ u session,
      Function.update w.system.sessions t (some (.opened request)) u = some session →
        P session := by
    intro P hP hopened u session hu
    rw [Function.update_apply] at hu
    split_ifs at hu
    · cases hu
      exact hopened
    · exact hP u session hu
  exact
    { h with
      sessions := hnew h.sessions trivial
      knows := hnew h.knows trivial
      claimed := fun u m k hu => h.claimed u m k (hold hu)
      readers := by
        intro u hu
        obtain ⟨m, phase, left, hworking, hrest⟩ := h.readers u hu
        refine ⟨m, phase, left, ?_, hrest⟩
        have hne : u ≠ t := by
          rintro rfl
          rw [hsession] at hworking
          cases hworking
        exact (other_session hne).trans hworking
      alone := fun hyes u m k hu => h.alone hyes u m k (hold hu) }

theorem ends_worldInv (h : WorldInv w) {run : ℕ} {status : RunStatus} {r : GenerationRun n}
    (hrow : w.runs.rows run = some r) (hstatus : status ≠ .running) :
    WorldInv { w with runs := { w.runs with
      rows := Function.update w.runs.rows run (some { r with status := status }) } } := by
  have hrows : ∀ run' r', Function.update w.runs.rows run (some { r with status := status }) run' =
      some r' → r'.status = .running → w.runs.rows run' = some r' := by
    intro run' r' hr' hrunning
    rw [Function.update_apply] at hr'
    split_ifs at hr' with hrun
    · cases hr'
      exact absurd hrunning hstatus
    · exact hr'
  have hview : ∀ u run', GoesOn { w.runs with
      rows := Function.update w.runs.rows run (some { r with status := status }) } u run' →
      GoesOn w.runs u run' := by
    rintro u run' ⟨r', hr', hrunning⟩
    refine ⟨r', ?_, hrunning⟩
    rcases w.runs.view_cases u run' with ⟨r'', hp, hview⟩ | ⟨hown, hview⟩
    · rw [hview]
      rwa [Store.view_of_pending (by exact hp)] at hr'
    · rw [hview]
      rw [Store.view_of_not_own (by exact hown)] at hr'
      exact hrows run' r' hr' hrunning
  exact
    { h with
      runs := by
        refine ⟨fun run' u r' hp => ?_⟩
        obtain ⟨hnot, hold⟩ := h.runs.writes run' u r' hp
        refine ⟨hnot, ?_⟩
        show Function.update w.runs.rows run _ run' ≠ none
        rw [Function.update_apply]
        split_ifs
        · exact Option.some_ne_none _
        · exact hold
      started := by
        intro run' hknown
        by_cases hrun : run' = run
        · refine h.started run' ?_
          rw [hrun, hrow]
          exact Option.some_ne_none r
        · change Function.update w.runs.rows run _ run' ≠ none at hknown
          rw [Function.update_of_ne hrun] at hknown
          exact h.started run' hknown
      readers := by
        intro u hu
        obtain ⟨m, phase, left, hworking, hphase, hreading⟩ := h.readers u hu
        exact ⟨m, phase, left, hworking, hphase,
          { hreading with runs := fun run' hgoes => hreading.runs run' (hview u run' hgoes) }⟩
      ended := fun hdone run' r' hr' hrunning =>
        h.ended hdone run' r' (hrows run' r' hr' hrunning) hrunning }

theorem rollback_worldInv (h : WorldInv w) (t : ℕ) :
    WorldInv { w with
      system := ⟨w.system.tables.rollback t, Function.update w.system.sessions t none⟩
      runs := w.runs.rollback t
      readers := w.readers.filter (· ≠ t) } := by
  have hold : ∀ {u session}, Function.update w.system.sessions t none u = some session →
      u ≠ t ∧ w.system.sessions u = some session := by
    intro u session hu
    rw [Function.update_apply] at hu
    split_ifs at hu with hut
    exact ⟨hut, hu⟩
  have hquiet := quiet_rollback (t := t) h.runs
  exact
    { sessions := fun u session hu => h.sessions u session (hold hu).2
      knows := fun u session hu => h.knows u session (hold hu).2
      tables := rollback_cancelInv h.tables
      runs := hquiet.inv
      started := fun run hknown => h.started run (hquiet.known run hknown)
      claimed := by
        intro u m k hu
        obtain ⟨hne, hsession⟩ := hold hu
        obtain ⟨r, hr, hrunning⟩ := h.claimed u m k hsession
        exact ⟨r, Store.pending_rollback.2 ⟨hr, hne⟩, hrunning⟩
      readers := by
        intro u hu
        obtain ⟨hmem, hne⟩ := List.mem_filter.1 hu
        have hne : u ≠ t := by simpa using hne
        obtain ⟨m, phase, left, hworking, hphase, hreading⟩ := h.readers u hmem
        refine ⟨m, phase, left, (other_session hne).trans hworking, hphase, ?_⟩
        exact
          { batch := hreading.batch
            written := fun hloaded row hrow =>
              hreading.written hloaded row (by rwa [← Store.view_rollback hne])
            copies := by
              intro k
              obtain ⟨c, hc, hnow, hloaded⟩ := hreading.copies k
              exact ⟨c, hc, hnow, fun hsettled row hrow =>
                hloaded hsettled row (by rwa [← Store.view_rollback hne])⟩
            runs := fun run hgoes => hreading.runs run (hquiet.view u hne run hgoes) }
      alone := by
        intro hyes u m k hu
        refine h.alone (hyes.imp_left fun hreaders hnil => hreaders ?_) u m k (hold hu).2
        show w.readers.filter _ = []
        rw [hnil]
        rfl
      cancelled := h.cancelled
      committed := h.committed
      settled := h.settled
      ended := h.ended }

/-! ## A statement -/

/-- All that is known of a statement in an undisturbed world. -/
structure Statement (w : World n) (t now : ℕ) (answer : Answer) (session : Session n)
    (mv : Move n) (tb : Tables n) (runs : Store ℕ (GenerationRun n) Empty ℕ) : Prop where
  inv : WorldInv w
  working : w.system.sessions t = some session
  planned : plan w.system.tables t now answer session = some mv
  performed : perform w.system.tables t mv = some tb
  wrote : ∃ owns, ((abandons answer session).isSome = true → owns = true) ∧
    w.writeRuns t owns answer session = some runs
  current : mv.effect.flushes = true → StatusesCurrent w.system.tables t mv.memory
  outside : (claims answer session).isSome = true → w.readers = []
  reads : session.readsSteps = true → NoClaimUnderway w.system.tables ∧ RunsAttached w t

section Statement

variable {now : ℕ} {answer : Answer} {session : Session n} {mv : Move n} {tb : Tables n}
  {runs : Store ℕ (GenerationRun n) Empty ℕ}

theorem Statement.moveOk (h : Statement w t now answer session mv tb runs) :
    MoveOk (claims answer session) mv :=
  plan_ok (h.inv.sessions t session h.working) h.planned

theorem Statement.knows (h : Statement w t now answer session mv tb runs) : MoveKnows mv :=
  plan_knows (h.inv.knows t session h.working) h.planned

theorem Statement.moved (h : Statement w t now answer session mv tb runs) :
    Moved w.system.tables tb t mv := by
  obtain ⟨hafter, hflushed⟩ := perform_cancelInv h.inv.tables h.knows.memory h.moveOk.memory
    h.current h.performed
  exact ⟨h.inv.tables, hafter, hflushed, h.performed⟩

/-- While a cancel reads, and behind it, no session claims. -/
theorem Statement.not_claimed (h : Statement w t now answer session mv tb runs)
    (hyes : w.readers ≠ [] ∨ w.done = true) (k : Fin n) : mv.phase ≠ some (.claimed k) := by
  intro hphase
  obtain ⟨m, -, -, hclaims⟩ := plan_claimed h.planned hphase
  rcases hyes with hreaders | hdone
  · exact hreaders (h.outside (by rw [hclaims]; rfl))
  · exact not_claim_of_settled h.inv.tables (h.inv.knows t session h.working) h.planned hphase
      h.current (h.inv.settled hdone k)

/-- Nor does one start a run. -/
theorem Statement.starts_none (h : Statement w t now answer session mv tb runs)
    (hyes : w.readers ≠ [] ∨ w.done = true) : starts answer session = none := by
  by_contra hstarts
  obtain ⟨⟨k, run⟩, hrun⟩ := Option.ne_none_iff_exists'.1 hstarts
  obtain ⟨m, rfl, -⟩ := plan_starts h.planned hrun
  exact h.inv.alone hyes t m k h.working

/-- The runs behind a statement, and behind its commit. -/
def Move.runsAfter (mv : Move n) (t : ℕ) (runs : Store ℕ (GenerationRun n) Empty ℕ) :
    Store ℕ (GenerationRun n) Empty ℕ :=
  if mv.effect.commits then runs.commit t else runs

/-- A statement that starts no run, and the runs that go on behind it for its session. -/
theorem Statement.quiet (h : Statement w t now answer session mv tb runs)
    (hstarts : starts answer session = none) :
    Quiet w.runs (mv.runsAfter t runs) t ∧
      (∀ run, GoesOn (mv.runsAfter t runs) t run → GoesOn w.runs t run) ∧
      ∀ run, abandons answer session = some run → ¬ GoesOn (mv.runsAfter t runs) t run := by
  have hown : ∀ run, GoesOn (mv.runsAfter t runs) t run ↔ GoesOn runs t run := by
    intro run
    unfold Move.runsAfter GoesOn
    split
    · rw [Store.view_commit_self]
    · exact Iff.rfl
  have hwritten : Quiet w.runs runs t ∧ (∀ run, GoesOn runs t run → GoesOn w.runs t run) ∧
      ∀ run, abandons answer session = some run → ¬ GoesOn runs t run := by
    have hcases : (runs = w.runs ∧
          ∀ run, abandons answer session = some run → ¬ GoesOn w.runs t run) ∨
        ∃ run r, abandons answer session = some run ∧ w.runs.view t run = some r ∧
          w.runs.Free t run ∧ runs = w.runs.write t run { r with status := .abandoned } := by
      obtain ⟨owns, howns, hwrote⟩ := h.wrote
      rcases writeRuns_cases hwrote with ⟨k, run, hrun, -⟩ | ⟨-, rfl, hnot⟩ | ⟨-, hrest⟩
      · rw [hstarts] at hrun
        cases hrun
      · exact Or.inl ⟨rfl, fun run hrun => hnot run hrun (howns (by rw [hrun]; rfl))⟩
      · exact Or.inr hrest
    rcases hcases with ⟨rfl, hnot⟩ | ⟨run, r, habandons, hr, hfree, rfl⟩
    · exact ⟨.refl h.inv.runs, fun _ => id, hnot⟩
    · have hview := w.runs.view_write_self t run { r with status := .abandoned }
      refine ⟨quiet_abandon h.inv.runs hr hfree, ?_, ?_⟩
      · rintro run' ⟨r', hr', hrunning⟩
        rw [hview] at hr'
        split_ifs at hr'
        · cases hr'
          cases hrunning
        · exact ⟨r', hr', hrunning⟩
      · rintro run' hrun' ⟨r', hr', hrunning⟩
        obtain rfl := Option.some.inj (habandons.symm.trans hrun')
        rw [hview, if_pos rfl] at hr'
        cases hr'
        cases hrunning
  obtain ⟨hquiet, hgoes, habandoned⟩ := hwritten
  refine ⟨?_, fun run hrun => hgoes run ((hown run).1 hrun),
    fun run hrun hyes => habandoned run hrun ((hown run).1 hyes)⟩
  unfold Move.runsAfter
  split
  · exact hquiet.commit
  · exact hquiet

/-- The session of the statement, behind it. -/
theorem Statement.session_after {next : Phase n} (hphase : mv.phase = some next) :
    Function.update w.system.sessions t (mv.phase.map (Session.working mv.after)) t =
      some (.working mv.after next) := by
  rw [Function.update_self, hphase]
  rfl

theorem mem_readersAfter {readers : List ℕ} {after : Option (Phase n)} {u : ℕ}
    (h : u ∈ readersAfter readers t session after) :
    (u ∈ readers ∧ (u = t → after ≠ none)) ∨
      (u = t ∧ after ≠ none ∧ session.readsSteps = true) := by
  unfold readersAfter at h
  split_ifs at h with hend hreads
  · obtain ⟨hmem, hne⟩ := List.mem_filter.1 h
    exact Or.inl ⟨hmem, fun hut => absurd hut (by simpa using hne)⟩
  · have hend : after ≠ none := by simpa using hend
    rcases List.mem_cons.1 h with rfl | hmem
    · exact Or.inr ⟨rfl, hend, hreads⟩
    · exact Or.inl ⟨hmem, fun _ => hend⟩
  · exact Or.inl ⟨h, fun _ => by simpa using hend⟩

/-- **A cancel that begins to read.** -/
theorem Statement.new_reader (h : Statement w t now answer session mv tb runs)
    (hreads : session.readsSteps = true) :
    ∃ phase left, mv.phase = some phase ∧ CancelPhase left phase ∧
      Reading tb (mv.runsAfter t runs) t mv.after left := by
  obtain ⟨m, rfl⟩ : ∃ m, session = .working m .cancelRead := by
    unfold Session.readsSteps at hreads
    split at hreads
    · exact ⟨_, rfl⟩
    · cases hreads
  obtain ⟨-, hgoes, -⟩ := h.quiet rfl
  have hattached := (h.reads rfl).2
  have hmv := h.planned
  cases hmv
  have htb := h.performed
  cases htb
  refine ⟨_, List.finRange n, rfl, rfl, ?_⟩
  refine reading_of_read (h.inv.knows t _ h.working).2 h.inv.tables ?_
  rintro run hrun
  obtain ⟨r, hr, hrunning⟩ := hgoes run hrun
  have hrow := h.inv.runs.rows_of_view hr hrunning
  have hstarted := h.inv.started run (by rw [hrow]; exact Option.some_ne_none r)
  exact ⟨r.step, hattached run hstarted r hrow hrunning⟩

/-- **Every cancel that has read goes on to know what it knows.** -/
theorem Statement.readers (h : Statement w t now answer session mv tb runs) :
    ∀ u ∈ readersAfter w.readers t session mv.phase, ∃ m phase left,
      Function.update w.system.sessions t (mv.phase.map (Session.working mv.after)) u =
        some (.working m phase) ∧
      CancelPhase left phase ∧ Reading tb (mv.runsAfter t runs) u m left := by
  intro u hu
  rcases mem_readersAfter hu with ⟨hmem, hgoesOn⟩ | ⟨rfl, -, hreads⟩
  · obtain ⟨hquiet, hgoes, habandoned⟩ :=
      h.quiet (h.starts_none (Or.inl (List.ne_nil_of_mem hmem)))
    obtain ⟨m, phase, left, hworking, hphase, hreading⟩ := h.inv.readers u hmem
    by_cases hut : u = t
    · subst hut
      obtain rfl := Option.some.inj (hworking.symm.trans h.working)
      rcases hreading.plan hphase h.planned h.performed hgoes habandoned with
        ⟨next, left', hnext, hleft', hreading'⟩ | ⟨hnone, -⟩
      · exact ⟨_, next, left', session_after hnext, hleft', hreading'⟩
      · exact absurd hnone (hgoesOn rfl)
    · exact ⟨m, phase, left, (other_session hut).trans hworking, hphase,
        hreading.other hut h.moved fun run => hquiet.view u hut run⟩
  · obtain ⟨phase, left, hphase, hleft, hreading⟩ := h.new_reader hreads
    exact ⟨_, phase, left, session_after hphase, hleft, hreading⟩

/-- **The last commit of a cancel**: what it has written is committed. -/
theorem Statement.last (h : Statement w t now answer session mv tb runs) (hread : t ∈ w.readers)
    (hnone : mv.phase = none) :
    (∀ row ∈ tb.batch.rows (), row.status = .cancelled) ∧
      (∀ k, ∀ row ∈ tb.steps.rows k, row.step.status.isOpen = false) ∧
      ∀ run, ∀ r ∈ (mv.runsAfter t runs).rows run, r.status ≠ .running := by
  obtain ⟨-, hgoes, habandoned⟩ := h.quiet (h.starts_none (Or.inl (List.ne_nil_of_mem hread)))
  obtain ⟨m, phase, left, hworking, hphase, hreading⟩ := h.inv.readers t hread
  obtain rfl := Option.some.inj (hworking.symm.trans h.working)
  rcases hreading.plan hphase h.planned h.performed hgoes habandoned with
    ⟨next, left', hnext, -⟩ | ⟨-, hcommit, hlast⟩
  · rw [hnone] at hnext
    cases hnext
  · -- behind a commit a session reads the committed rows
    have hrows : tb.batch.rows = tb.batch.view t ∧ tb.steps.rows = tb.steps.view t := by
      rcases perform_cases h.performed with ⟨hnot, -⟩ | ⟨-, tb'', -, rfl⟩
      · rw [hcommit] at hnot
        cases hnot
      · exact ⟨(tb''.batch.view_commit_self t).symm, (tb''.steps.view_commit_self t).symm⟩
    have hruns : (mv.runsAfter t runs).rows = (mv.runsAfter t runs).view t := by
      have hafter : mv.runsAfter t runs = runs.commit t := by
        unfold Move.runsAfter
        rw [hcommit]
        rfl
      rw [hafter]
      exact (runs.view_commit_self t).symm
    rw [hrows.1, hrows.2, hruns]
    refine ⟨hlast.written hlast.batch, fun k => ?_, fun run r hr hrunning => ?_⟩
    · obtain ⟨c, hc, hnow, hloaded⟩ := hlast.copies k
      obtain ⟨c', -, rfl⟩ := mem_flushed hc
      exact hloaded (hnow List.not_mem_nil)
    · obtain ⟨k, hk, -⟩ := hlast.runs run ⟨r, hr, hrunning⟩
      cases hk

/-- **A statement keeps the invariant.** -/
theorem Statement.worldInv (h : Statement w t now answer session mv tb runs) :
    WorldInv (w.after t session answer mv tb runs) := by
  have hmoved := h.moved
  have hsessionsOk : SessionsOk ⟨tb, Function.update w.system.sessions t
      (mv.phase.map (Session.working mv.after))⟩ := by
    refine @step_sessionsOk _ _ _ (t, .next now answer) h.inv.sessions ?_
    simp only [step, h.working, h.planned, Option.bind_some, h.performed, Option.map_some]
  have hupdate : ∀ {u session'}, Function.update w.system.sessions t
      (mv.phase.map (Session.working mv.after)) u = some session' →
      (u = t ∧ ∃ phase, mv.phase = some phase ∧ session' = .working mv.after phase) ∨
        (u ≠ t ∧ w.system.sessions u = some session') := by
    intro u session' hu
    rw [Function.update_apply] at hu
    split_ifs at hu with hut
    · obtain ⟨phase, hphase, rfl⟩ := Option.map_eq_some_iff.1 hu
      exact Or.inl ⟨hut, phase, hphase, rfl⟩
    · exact Or.inr ⟨hut, hu⟩
  have hdone : (w.after t session answer mv tb runs).done = true →
      w.done = true ∨ (mv.phase = none ∧ t ∈ w.readers) := by
    intro hd
    simpa [World.after] using hd
  have hcancelledRow : ∀ row ∈ tb.batch.rows (), row.status = .cancelled → tb.cancelled = true := by
    intro row hrow hstatus
    simp [Tables.cancelled, Option.mem_def.1 hrow, hstatus]
  exact
    { sessions := hsessionsOk
      knows := by
        intro u session' hu
        rcases hupdate hu with ⟨-, phase, hphase, rfl⟩ | ⟨-, hold⟩
        · exact ⟨h.knows.after, h.knows.phase phase hphase⟩
        · exact h.inv.knows u session' hold
      tables := hmoved.after
      runs := by
        cases hstarts : starts answer session with
        | none => exact (h.quiet hstarts).1.inv
        | some p =>
          obtain ⟨m, rfl, rfl⟩ := plan_starts h.planned hstarts
          obtain ⟨owns, -, hwrote⟩ := h.wrote
          rcases writeRuns_cases hwrote with ⟨k, run, -, hinsert⟩ | ⟨hnone, -⟩ | ⟨hnone, -⟩
          · exact (insert_runsInv h.inv.runs hinsert).1
          · rw [hstarts] at hnone
            cases hnone
          · rw [hstarts] at hnone
            cases hnone
      started := by
        intro run hknown
        cases hstarts : starts answer session with
        | none =>
          show run ∈ (starts answer session).elim w.started fun p => p.2 :: w.started
          rw [hstarts]
          exact h.inv.started run ((h.quiet hstarts).1.known run hknown)
        | some p =>
          show run ∈ (starts answer session).elim w.started fun p => p.2 :: w.started
          obtain ⟨m, rfl, rfl⟩ := plan_starts h.planned hstarts
          obtain ⟨owns, -, hwrote⟩ := h.wrote
          rcases writeRuns_cases hwrote with ⟨k, run', hrun', hinsert⟩ | ⟨hnone, -⟩ | ⟨hnone, -⟩
          · rw [hrun']
            rcases (insert_runsInv h.inv.runs hinsert).2 run hknown with rfl | hold
            · exact List.mem_cons_self
            · exact List.mem_cons_of_mem _ (h.inv.started run hold)
          · rw [hstarts] at hnone
            cases hnone
          · rw [hstarts] at hnone
            cases hnone
      claimed := by
        intro u m k hu
        rcases hupdate hu with ⟨rfl, phase, hphase, hsession⟩ | ⟨hne, hold⟩
        · cases hsession
          exact claim_pending h.inv.tables (h.inv.knows u session h.working) h.planned hphase
            h.performed
        · obtain ⟨r, hr, hrunning⟩ := h.inv.claimed u m k hold
          exact ⟨r, (hmoved.steps_pending hne).2 hr, hrunning⟩
      readers := h.readers
      alone := by
        intro hyes u m k hu
        have hbefore : (w.readers ≠ [] ∨ w.done = true) ∨
            (mv.phase ≠ none ∧ session.readsSteps = true) := by
          rcases hyes with hreaders | hd
          · obtain ⟨v, hv⟩ := List.exists_mem_of_ne_nil _ hreaders
            rcases mem_readersAfter hv with ⟨hmem, -⟩ | ⟨-, hend, hreads⟩
            · exact Or.inl (Or.inl (List.ne_nil_of_mem hmem))
            · exact Or.inr ⟨hend, hreads⟩
          · rcases hdone hd with hd | ⟨-, hmem⟩
            · exact Or.inl (Or.inr hd)
            · exact Or.inl (Or.inl (List.ne_nil_of_mem hmem))
        rcases hupdate hu with ⟨rfl, phase, hphase, hsession⟩ | ⟨hne, hold⟩
        · cases hsession
          rcases hbefore with hyes | ⟨-, hreads⟩
          · exact h.not_claimed hyes k hphase
          · obtain ⟨phase, left, hphase', hleft, -⟩ := h.new_reader hreads
            rw [hphase] at hphase'
            cases hphase'
            exact hleft
        · rcases hbefore with hyes | ⟨-, hreads⟩
          · exact h.inv.alone hyes u m k hold
          · obtain ⟨r, hr, hrunning⟩ := h.inv.claimed u m k hold
            exact (h.reads hreads).1 k _ hr hrunning
      cancelled := by
        intro hc row hrow
        have hc : w.cancelled = true ∨ tb.cancelled = true := by simpa [World.after] using hc
        rcases hc with hc | hc
        · obtain ⟨o, ho⟩ := Option.ne_none_iff_exists'.1 (h.inv.tables.batchKnown ())
          exact hmoved.batch_keeps ho hrow (h.inv.cancelled hc o ho)
        · have hrow : tb.batch.rows () = some row := hrow
          simpa [Tables.cancelled, hrow] using hc
      committed := by
        intro hd
        show (w.cancelled || tb.cancelled) = true
        rcases hdone hd with hd | ⟨hnone, hmem⟩
        · rw [h.inv.committed hd]
          rfl
        · obtain ⟨row, hrow⟩ := Option.ne_none_iff_exists'.1 (hmoved.after.batchKnown ())
          rw [hcancelledRow row hrow ((h.last hmem hnone).1 row hrow), Bool.or_true]
      settled := by
        intro hd k row hrow
        rcases hdone hd with hd | ⟨hnone, hmem⟩
        · obtain ⟨o, ho⟩ := Option.ne_none_iff_exists'.1 (h.inv.tables.stepsKnown k)
          exact (hmoved.step_keeps ho hrow).settled (h.inv.settled hd k o ho)
        · exact (h.last hmem hnone).2.1 k row hrow
      ended := by
        intro hd run r hr hrunning
        rcases hdone hd with hd | ⟨hnone, hmem⟩
        · have hquiet := (h.quiet (h.starts_none (Or.inr hd))).1
          exact h.inv.ended hd run r (hquiet.rows run r hr hrunning) hrunning
        · exact (h.last hmem hnone).2.2 run r hr hrunning }

end Statement

end Steps

/-! ## Every run -/

/-- **A step that meets the condition keeps the invariant.** -/
theorem step_worldInv {w w' : World n} {e : Event n} (hinv : WorldInv w)
    (hallowed : Undisturbed w e) (h : w.step e = some w') : WorldInv w' := by
  rcases World.step_cases h with ⟨t, request, owns, -, hsession, rfl⟩ |
    ⟨t, now, answer, owns, session, mv, tb, runs, rfl, hsession, hplan, hperform, hruns, rfl⟩ |
    ⟨t, owns, -, rfl⟩ | ⟨run, status, r, -, hrow, -, hstatus, rfl⟩
  · exact start_worldInv hinv hsession request
  · obtain ⟨hcurrent, houtside, hreads, howns⟩ := hallowed session hsession
    have hstatement : Statement w t now answer session mv tb runs :=
      { inv := hinv
        working := hsession
        planned := hplan
        performed := hperform
        wrote := ⟨owns, howns, hruns⟩
        current := hcurrent mv hplan
        outside := houtside
        reads := hreads }
    exact hstatement.worldInv
  · exact rollback_worldInv hinv t
  · exact ends_worldInv hinv hrow hstatus

/-- Cancelling is final, as far as it has come: a batch that has been committed as cancelled
is cancelled, and behind a cancel no step is open and no run goes on. -/
structure CancelledForGood (w : World n) : Prop where
  batch : w.cancelled = true → ∃ row ∈ w.system.tables.batch.rows (), row.status = .cancelled
  committed : w.done = true → w.cancelled = true
  steps : w.done = true →
    ∀ k, ∃ row ∈ w.system.tables.steps.rows k, row.step.status ≠ .pending ∧
      row.step.status ≠ .running
  runs : w.done = true → ∀ run, ∀ r ∈ w.runs.rows run, r.status ≠ .running

/-- **Where statuses are written over what was read, claims do not cross a cancel and the
mentor of the runs cancels, cancelling a batch is final in every state reached.** -/
theorem cancel_final {w : World n} (hw : Runs.Reachable World.step Undisturbed World.New w) :
    CancelledForGood w := by
  have hinv : WorldInv w :=
    hw.invariant (fun _ => new_worldInv) fun _ _ _ hinv hallowed hstep =>
      step_worldInv hinv hallowed hstep
  obtain ⟨batch, hbatch⟩ := Option.ne_none_iff_exists'.1 (hinv.tables.batchKnown ())
  refine ⟨fun hc => ⟨batch, hbatch, hinv.cancelled hc batch hbatch⟩, hinv.committed, ?_,
    hinv.ended⟩
  intro hd k
  obtain ⟨row, hrow⟩ := Option.ne_none_iff_exists'.1 (hinv.tables.stepsKnown k)
  have hsettled := hinv.settled hd k row hrow
  refine ⟨row, hrow, ?_, ?_⟩
  · intro hpending
    rw [hpending] at hsettled
    cases hsettled
  · intro hrunning
    rw [hrunning] at hsettled
    cases hsettled

/-- Sessions of the mentor who owns the runs. -/
def events (steps : List (ℕ × Action n)) : List (Event n) :=
  steps.map fun i => .session i.1 i.2 true

/-- A worker attaches the run of its step, and another session cancels, with a commit half
way. -/
def cancelledWorld : World 2 :=
  (Runs.run (fun w e => if Undisturbed w e then w.step e else none)
    (World.initial 2 .skipExisting) (events (claimedStep 0 5 ++ [(2, .start .cancel)] ++
      statements 2 2 ++ [(2, .next 2 { abandoned := .committed })] ++ statements 2 4))).get
    (by decide)

/-- The batch is cancelled and its run abandoned. -/
theorem cancelled_for_good : CancelledForGood cancelledWorld ∧ cancelledWorld.done = true ∧
    cancelledWorld.runs.rows 5 = some ⟨0, .abandoned⟩ :=
  ⟨cancel_final (Runs.reachable_of_checked ⟨_, rfl⟩ (Option.some_get _).symm), by decide, by decide⟩

/-! ### Cancels that are taken back -/

/-- Everything that a cancel of a batch with one step does. -/
def cancelStatements : List (ℕ × Action 1) := [(2, .start .cancel)] ++ statements 2 5

/-- A worker has read the batch, and finds no step left behind the cancel. -/
def completedWorld : World 1 :=
  (Runs.run World.step (World.initial 1 .skipExisting)
    (events ([(0, .start .process)] ++ statements 0 2 ++ cancelStatements ++
      statements 0 5))).get (by decide)

/-- A worker clears drafts while the batch is cancelled, and claims its step behind it. -/
def reclaimedWorld : World 1 :=
  (Runs.run World.step (World.initial 1 .regenerateAll)
    (events ([(0, .start .process)] ++ statements 0 3 ++
      [(0, .next 0 { material := draftMaterial })] ++ cancelStatements ++ statements 0 1 ++
      [(0, .next 0 { start := .started 5 })]))).get (by decide)

/-- The batch is cancelled before the run is attached. -/
def strayRunWorld : World 1 :=
  (Runs.run World.step (World.initial 1 .skipExisting)
    (events ([(0, .start .process)] ++ statements 0 4 ++
      [(0, .next 0 { start := .started 5 })] ++ cancelStatements))).get (by decide)

/-- A cancelled batch is completed; a step runs that was skipped; a run goes on. -/
theorem cancel_taken_back :
    (Runs.Reachable World.step (fun _ _ => True) World.New completedWorld ∧
      completedWorld.cancelled = true ∧ ¬ CancelledForGood completedWorld) ∧
    (Runs.Reachable World.step (fun _ _ => True) World.New reclaimedWorld ∧
      reclaimedWorld.system.tables.StepRunning 0 ∧ ¬ CancelledForGood reclaimedWorld) ∧
    (Runs.Reachable World.step (fun _ _ => True) World.New strayRunWorld ∧
      strayRunWorld.runs.rows 5 = some ⟨0, .running⟩ ∧ ¬ CancelledForGood strayRunWorld) := by
  refine ⟨⟨Runs.reachable_of_run ⟨_, rfl⟩ (Option.some_get _).symm, by decide, fun h => ?_⟩,
    ⟨Runs.reachable_of_run ⟨_, rfl⟩ (Option.some_get _).symm, by decide, fun h => ?_⟩,
    Runs.reachable_of_run ⟨_, rfl⟩ (Option.some_get _).symm, by decide, fun h => ?_⟩
  · exact absurd (h.batch (by decide)) (by decide)
  · exact absurd (h.steps (by decide) 0) (by decide)
  · exact h.runs (by decide) 5 ⟨0, .running⟩ (by decide) rfl

end StudyAgent.Batch
