import StudyAgent.Base.ReadCommitted
import StudyAgent.Base.Runs
import StudyAgent.Progress.NodeLaws
import StudyAgent.Progress.Unlocking

/-!
# Scroll updates of one trainee on one node

Any number of requests update the reading progress of one trainee on one node.  Each reads the
row, refuses a percentage below the one it has read, reads the row again if it has found none,
and commits the columns that differ from what it has read.  Nothing locks the row in between,
so it may have moved on when the columns are written.

Main results:

* `written_keeps_iff` — **what a write keeps, exactly when the row has not overtaken it.**
* `reading_never_regresses` — **between two resets the percentage never falls and a completed node
  stays completed**, in every run whose writes are not overtaken.
-/

namespace StudyAgent.Progress

open ReadCommitted (setColumn)

/-- How far a request has come, with the row it has read. -/
inductive Scroll (S : Type) where
  | idle
  /-- The percentage has been checked against the row. -/
  | checked (readPercent : ℕ) (progressRow : Option (Row S))
  /-- `upsert_node_progress` has read the row. -/
  | upserting (readPercent : ℕ) (existing : Option (Row S))
  deriving DecidableEq

/-- The percentage a request is to write, and the row it has read. -/
def Scroll.held {S : Type} : Scroll S → Option (ℕ × Option (Row S))
  | .idle => none
  | .checked readPercent row | .upserting readPercent row => some (readPercent, row)

/-- The row of the trainee, and the requests. -/
structure Scrolls (S : Type) where
  row : Option (Row S)
  requests : ℕ → Scroll S

inductive ScrollEvent where
  /-- `get_node_progress`, and the checks of the percentage. -/
  | check (request readPercent : ℕ)
  /-- `get_node_progress` of `upsert_node_progress`. -/
  | read (request : ℕ)
  /-- The flush of `upsert_node_progress`, which locks the row, up to the commit. -/
  | write (request : ℕ)
  /-- `reset_node_read_progress_for_all_trainees`. -/
  | reset
  deriving DecidableEq

variable {S : Type} (hasPublishedQuiz : Bool)

/-- The columns of a row that differ from what was read, written to the row that is stored. -/
def flush (read new stored : Row S) : Row S :=
  { stored with
    studyMaterialReadPercent := setColumn read.studyMaterialReadPercent
      new.studyMaterialReadPercent stored.studyMaterialReadPercent
    studyMaterialCompleted := setColumn read.studyMaterialCompleted
      new.studyMaterialCompleted stored.studyMaterialCompleted
    completionStatus := setColumn read.completionStatus
      new.completionStatus stored.completionStatus }

namespace Scrolls

def setRequest (s : Scrolls S) (k : ℕ) (request : Scroll S) : Scrolls S :=
  { s with requests := Function.update s.requests k request }

/-- One event; `none` where the request refuses or is elsewhere. -/
def step (s : Scrolls S) : ScrollEvent → Option (Scrolls S)
  | .check k readPercent =>
    match s.requests k with
    | .idle =>
      if 100 < readPercent then none
      else if s.row.any fun row => readPercent < row.studyMaterialReadPercent then none
      else some (s.setRequest k (.checked readPercent s.row))
    | _ => none
  | .read k =>
    match s.requests k with
    -- A row that has been read is not read again: the session keeps it.
    | .checked readPercent (some row) => some (s.setRequest k (.upserting readPercent (some row)))
    | .checked readPercent none => some (s.setRequest k (.upserting readPercent s.row))
    | _ => none
  | .write k =>
    match s.requests k with
    | .upserting readPercent none =>
      match s.row with
      -- The row is unique to the trainee and the node.
      | some _ => some (s.setRequest k .idle)
      | none =>
        some { s.setRequest k .idle with
          row := some (upsertNodeProgress none readPercent (readPercent = 100) hasPublishedQuiz) }
    | .upserting readPercent (some read) =>
      let new := upsertNodeProgress (some read) readPercent (readPercent = 100) hasPublishedQuiz
      some { s.setRequest k .idle with row := s.row.map (flush read new) }
    | _ => none
  | .reset => some { s with row := s.row.map Row.resetRead }

/-- The percentage that is stored. -/
def percent (s : Scrolls S) : ℕ := s.row.elim 0 Row.studyMaterialReadPercent

/-- What an event is about to write over a row that its request has read. -/
def overwrite (s : Scrolls S) : ScrollEvent → Option (ℕ × Row S)
  | .write k =>
    match s.requests k with
    | .upserting readPercent (some read) => some (readPercent, read)
    | _ => none
  | _ => none

end Scrolls

/-! ## One write -/

/-- Finished material is what has been read to the end, and the status is completed when the
requirements are met. -/
structure Row.Settled (row : Row S) (hasPublishedQuiz : Bool) : Prop where
  le : row.studyMaterialReadPercent ≤ 100
  completed : row.studyMaterialCompleted = true ↔ row.studyMaterialReadPercent = 100
  status : row.completionStatus = .completed ↔ row.computed hasPublishedQuiz = .completed

/-- The row has not overtaken a write: it is no further than the percentage, unless the write
leaves the percentage as it is; and if it is complete then the write leaves its status as it
is too. -/
def NotOvertaken (readPercent : ℕ) (read stored : Row S) : Prop :=
  (readPercent = read.studyMaterialReadPercent ∨ stored.studyMaterialReadPercent ≤ readPercent) ∧
    (readPercent = read.studyMaterialReadPercent → read.Matches hasPublishedQuiz ∨
      stored.computed hasPublishedQuiz ≠ .completed)

instance (readPercent : ℕ) (read stored : Row S) :
    Decidable (NotOvertaken hasPublishedQuiz readPercent read stored) :=
  inferInstanceAs (Decidable (_ ∧ (_ → _)))

section Write

variable {hasPublishedQuiz} {readPercent : ℕ} {read stored : Row S}

/-- What is written over a row. -/
def Row.written (hasPublishedQuiz : Bool) (readPercent : ℕ) (read stored : Row S) : Row S :=
  flush read (upsertNodeProgress (some read) readPercent (readPercent = 100) hasPublishedQuiz)
    stored

theorem settled_iff {row : Row S} : row.Settled hasPublishedQuiz ↔
    row.studyMaterialReadPercent ≤ 100 ∧
      (row.studyMaterialCompleted = true ↔ row.studyMaterialReadPercent = 100) ∧
      (row.completionStatus = .completed ↔ row.studyMaterialCompleted = true ∧
        (hasPublishedQuiz = true → row.quizPassed = true)) := by
  rw [← computed_eq_completed_iff]
  exact ⟨fun h => ⟨h.le, h.completed, h.status⟩, fun h => ⟨h.1, h.2.1, h.2.2⟩⟩

theorem upsert_completed_iff : (upsertNodeProgress (some read) readPercent (readPercent = 100)
    hasPublishedQuiz).completionStatus = .completed ↔
      (read.studyMaterialCompleted = true ∨ readPercent = 100) ∧
        (hasPublishedQuiz = true → read.quizPassed = true) := by
  have hmatches := upsertNodeProgress_matches (some read) readPercent (readPercent = 100)
    hasPublishedQuiz
  rw [hmatches, computed_eq_completed_iff]
  simp [upsertNodeProgress]

/-- A write that repeats the percentage it has read changes the status at most. -/
theorem written_same (hread : read.Settled hasPublishedQuiz)
    (hsame : readPercent = read.studyMaterialReadPercent) :
    Row.written hasPublishedQuiz readPercent read stored = { stored with
      completionStatus := setColumn read.completionStatus (read.computed hasPublishedQuiz)
        stored.completionStatus } := by
  have hcompleted : (read.studyMaterialCompleted || decide (readPercent = 100)) =
      read.studyMaterialCompleted := by
    rw [Bool.or_eq_left_iff_imp, decide_eq_true_iff, hsame]
    exact hread.completed.2
  subst hsame
  unfold Row.written flush upsertNodeProgress
  simp only [hcompleted, setColumn, if_true]
  rfl

theorem written_percent (hmoved : readPercent ≠ read.studyMaterialReadPercent) :
    (Row.written hasPublishedQuiz readPercent read stored).studyMaterialReadPercent =
      readPercent := by
  simp [Row.written, flush, upsertNodeProgress, setColumn, hmoved]

/-- Where the write repeats the percentage, it keeps the row settled unless it takes the status
of a completed row back. -/
theorem settled_written_same (hread : read.Settled hasPublishedQuiz)
    (hstored : stored.Settled hasPublishedQuiz)
    (hsame : readPercent = read.studyMaterialReadPercent) :
    (Row.written hasPublishedQuiz readPercent read stored).Settled hasPublishedQuiz ↔
      (read.Matches hasPublishedQuiz ∨ stored.computed hasPublishedQuiz ≠ .completed) := by
  rw [written_same hread hsame]
  by_cases hmatches : read.Matches hasPublishedQuiz
  · refine iff_of_true ?_ (Or.inl hmatches)
    rw [setColumn, if_pos (show read.computed _ = _ from hmatches.symm)]
    exact hstored
  · have hchanged : read.computed hasPublishedQuiz ≠ read.completionStatus :=
      fun h => hmatches h.symm
    have hopen : read.computed hasPublishedQuiz ≠ .completed :=
      fun h => hchanged (h.trans (hread.status.2 h).symm)
    rw [setColumn, if_neg hchanged, or_iff_right hmatches]
    constructor
    · intro h hcomplete
      exact hopen (h.status.2 hcomplete)
    · intro hstill
      exact ⟨hstored.le, hstored.completed, iff_of_false hopen hstill⟩

/-- Where the write moves the percentage, it keeps the row settled unless the row has come
further. -/
theorem settled_written_moved (hread : read.Settled hasPublishedQuiz)
    (hstored : stored.Settled hasPublishedQuiz) (hquiz : read.quizPassed = stored.quizPassed)
    (hle : readPercent ≤ 100) (hmoved : readPercent ≠ read.studyMaterialReadPercent)
    (hbehind : stored.studyMaterialReadPercent ≤ readPercent) :
    (Row.written hasPublishedQuiz readPercent read stored).Settled hasPublishedQuiz := by
  obtain ⟨-, hreadCompleted, hreadStatus⟩ := settled_iff.1 hread
  obtain ⟨-, hstoredCompleted, hstoredStatus⟩ := settled_iff.1 hstored
  have hnew : (upsertNodeProgress (some read) readPercent (readPercent = 100)
      hasPublishedQuiz).completionStatus = .completed ↔ _ := upsert_completed_iff
  have hcompleted : (Row.written hasPublishedQuiz readPercent read stored).studyMaterialCompleted
      = true ↔ readPercent = 100 := by
    by_cases hend : readPercent = 100
    · have hunread : read.studyMaterialCompleted = false := by
        rw [← Bool.not_eq_true, hreadCompleted]
        omega
      simp [Row.written, flush, upsertNodeProgress, setColumn, hend, hunread]
    · have hopen : stored.studyMaterialCompleted = false := by
        rw [← Bool.not_eq_true, hstoredCompleted]
        omega
      simp [Row.written, flush, upsertNodeProgress, setColumn, hend, hopen]
  rw [settled_iff, written_percent hmoved, hcompleted]
  refine ⟨hle, Iff.rfl, ?_⟩
  show setColumn read.completionStatus (upsertNodeProgress (some read) readPercent
    (readPercent = 100) hasPublishedQuiz).completionStatus stored.completionStatus = .completed ↔
      readPercent = 100 ∧ (hasPublishedQuiz = true → stored.quizPassed = true)
  rw [hquiz] at hnew hreadStatus
  unfold setColumn
  split_ifs with hkept
  · -- A status that reaches the end is another one than was read.
    have hnot : ¬ (readPercent = 100 ∧ (hasPublishedQuiz = true → stored.quizPassed = true)) := by
      rintro ⟨hend, hpassed⟩
      have hread := hreadStatus.1 (hkept ▸ hnew.2 ⟨Or.inr hend, hpassed⟩)
      exact hmoved (hend.trans (hreadCompleted.1 hread.1).symm)
    refine iff_of_false (fun hstill => ?_) hnot
    obtain ⟨hcomplete, hpassed⟩ := hstoredStatus.1 hstill
    have hend := hstoredCompleted.1 hcomplete
    exact hnot ⟨by omega, hpassed⟩
  · rw [hnew]
    refine and_congr_left fun hpassed => or_iff_right fun hcomplete => hkept ?_
    rw [hnew.2 ⟨Or.inl hcomplete, hpassed⟩, hreadStatus.2 ⟨hcomplete, hpassed⟩]

/-- **What a write keeps**: the percentage does not fall and the row stays settled, exactly when
the row has not overtaken it. -/
theorem written_keeps_iff (hread : read.Settled hasPublishedQuiz)
    (hstored : stored.Settled hasPublishedQuiz) (hquiz : read.quizPassed = stored.quizPassed)
    (hle : readPercent ≤ 100) :
    (stored.studyMaterialReadPercent ≤
        (Row.written hasPublishedQuiz readPercent read stored).studyMaterialReadPercent ∧
      (Row.written hasPublishedQuiz readPercent read stored).Settled hasPublishedQuiz) ↔
        NotOvertaken hasPublishedQuiz readPercent read stored := by
  by_cases hsame : readPercent = read.studyMaterialReadPercent
  · rw [settled_written_same hread hstored hsame, written_same hread hsame]
    simp [NotOvertaken, hsame]
  · rw [written_percent hsame, NotOvertaken, or_iff_right hsame]
    refine and_congr_right fun hbehind => ?_
    exact iff_of_true (settled_written_moved hread hstored hquiz hle hsame hbehind)
      fun h => absurd h hsame

end Write

/-! ## Runs -/

section Invariant

variable {s s' s'' : Scrolls S}

/-- A row that a request may hold: a settled one with the quiz as it is stored. -/
def Holds (hasPublishedQuiz : Bool) (row : Option (Row S)) (read : Row S) : Prop :=
  read.Settled hasPublishedQuiz ∧ ∃ stored ∈ row, read.quizPassed = stored.quizPassed

/-- The stored row is settled, and so are the rows that requests have read. -/
structure Scrolls.Inv (hasPublishedQuiz : Bool) (s : Scrolls S) : Prop where
  row : ∀ row ∈ s.row, row.Settled hasPublishedQuiz
  held : ∀ k, ∀ w ∈ (s.requests k).held,
    w.1 ≤ 100 ∧ ∀ read ∈ w.2, Holds hasPublishedQuiz s.row read

/-- The row has come no less far, with the quiz as it was. -/
def Grows (s s' : Scrolls S) : Prop :=
  ∀ row ∈ s.row, ∃ row' ∈ s'.row,
    row.studyMaterialReadPercent ≤ row'.studyMaterialReadPercent ∧
      row'.quizPassed = row.quizPassed

theorem Grows.refl (s : Scrolls S) : Grows s s := fun row hrow => ⟨row, hrow, le_rfl, rfl⟩

theorem Grows.trans (h : Grows s s') (h' : Grows s' s'') : Grows s s'' := by
  intro row hrow
  obtain ⟨row', hrow', hle, hquiz⟩ := h row hrow
  obtain ⟨row'', hrow'', hle', hquiz'⟩ := h' row' hrow'
  exact ⟨row'', hrow'', hle.trans hle', hquiz'.trans hquiz⟩

variable {hasPublishedQuiz} {k : ℕ} {request : Scroll S}

theorem Scrolls.Inv.setRequest (h : s.Inv hasPublishedQuiz)
    (hrequest : ∀ w ∈ request.held,
      w.1 ≤ 100 ∧ ∀ read ∈ w.2, Holds hasPublishedQuiz s.row read) :
    (s.setRequest k request).Inv hasPublishedQuiz where
  row := h.row
  held j w hw := by
    by_cases hj : j = k
    · subst hj
      simp only [Scrolls.setRequest, Function.update_self] at hw
      exact hrequest w hw
    · simp only [Scrolls.setRequest, Function.update_of_ne hj] at hw
      exact h.held j w hw

/-- Another row with the same quiz. -/
theorem Scrolls.Inv.setRow {row' : Option (Row S)} (h : s.Inv hasPublishedQuiz)
    (hsettled : ∀ row ∈ row', row.Settled hasPublishedQuiz)
    (hquiz : ∀ row ∈ s.row, ∃ new ∈ row', row.quizPassed = new.quizPassed) :
    ({ s with row := row' } : Scrolls S).Inv hasPublishedQuiz where
  row := hsettled
  held j w hw := by
    obtain ⟨hle, hread⟩ := h.held j w hw
    refine ⟨hle, fun read hmem => ?_⟩
    obtain ⟨hsettled, stored, hstored, hsame⟩ := hread read hmem
    obtain ⟨new, hnew, hkept⟩ := hquiz stored hstored
    exact ⟨hsettled, new, hnew, hsame.trans hkept⟩

theorem settled_resetRead (row : Row S) : row.resetRead.Settled hasPublishedQuiz where
  le := Nat.zero_le _
  completed := by simp [Row.resetRead]
  status := by rw [resetRead_matches row hasPublishedQuiz]

theorem settled_insert {readPercent : ℕ} (hle : readPercent ≤ 100) :
    (upsertNodeProgress (none : Option (Row S)) readPercent (readPercent = 100)
      hasPublishedQuiz).Settled hasPublishedQuiz where
  le := hle
  completed := by simp [upsertNodeProgress]
  status := by rw [upsertNodeProgress_matches none readPercent _ hasPublishedQuiz]

/-- The writes of an event do not come too late. -/
def InTime (hasPublishedQuiz : Bool) (s : Scrolls S) (e : ScrollEvent) : Prop :=
  ∀ w ∈ s.overwrite e, ∀ stored ∈ s.row, NotOvertaken hasPublishedQuiz w.1 w.2 stored

instance (s : Scrolls S) (e : ScrollEvent) : Decidable (InTime hasPublishedQuiz s e) :=
  inferInstanceAs (Decidable (∀ w ∈ s.overwrite e, ∀ stored ∈ s.row,
    NotOvertaken hasPublishedQuiz w.1 w.2 stored))

/-- **An event in time keeps the rows settled**, and but for a reset the percentage does not
fall. -/
theorem inv_step {e : ScrollEvent} (h : s.Inv hasPublishedQuiz)
    (htime : InTime hasPublishedQuiz s e)
    (hstep : s.step hasPublishedQuiz e = some s') :
    s'.Inv hasPublishedQuiz ∧ (e ≠ .reset → Grows s s') := by
  cases e with
  | check k readPercent =>
    simp only [Scrolls.step] at hstep
    cases hphase : s.requests k with
    | idle =>
      simp only [hphase] at hstep
      split_ifs at hstep with hrange hback
      cases hstep
      refine ⟨h.setRequest ?_, fun _ => Grows.refl s⟩
      rintro w ⟨⟩
      refine ⟨by omega, fun read hread => ⟨h.row read hread, read, hread, rfl⟩⟩
    | checked _ _ => simp [hphase] at hstep
    | upserting _ _ => simp [hphase] at hstep
  | read k =>
    simp only [Scrolls.step] at hstep
    cases hphase : s.requests k with
    | idle => simp [hphase] at hstep
    | checked readPercent progressRow =>
      have hheld := h.held k (readPercent, progressRow) (by rw [hphase]; rfl)
      cases progressRow with
      | none =>
        simp only [hphase] at hstep
        cases hstep
        refine ⟨h.setRequest ?_, fun _ => Grows.refl s⟩
        rintro w ⟨⟩
        exact ⟨hheld.1, fun read hread => ⟨h.row read hread, read, hread, rfl⟩⟩
      | some read =>
        simp only [hphase] at hstep
        cases hstep
        refine ⟨h.setRequest ?_, fun _ => Grows.refl s⟩
        rintro w ⟨⟩
        exact hheld
    | upserting _ _ => simp [hphase] at hstep
  | write k =>
    simp only [Scrolls.step] at hstep
    cases hphase : s.requests k with
    | idle => simp [hphase] at hstep
    | checked _ _ => simp [hphase] at hstep
    | upserting readPercent existing =>
      have hheld := h.held k (readPercent, existing) (by rw [hphase]; rfl)
      have hidle : (s.setRequest k .idle).Inv hasPublishedQuiz := h.setRequest fun w hw =>
        nomatch hw
      cases existing with
      | none =>
        cases hrow : s.row with
        | some row =>
          simp only [hphase, hrow] at hstep
          cases hstep
          exact ⟨hidle, fun _ => Grows.refl s⟩
        | none =>
          simp only [hphase, hrow] at hstep
          cases hstep
          refine ⟨hidle.setRow ?_ ?_, fun _ row hmem => ?_⟩
          · rintro row ⟨⟩
            exact settled_insert hheld.1
          · intro row hmem
            rw [Scrolls.setRequest, hrow] at hmem
            cases hmem
          · rw [hrow] at hmem
            cases hmem
      | some read =>
        simp only [hphase] at hstep
        cases hstep
        obtain ⟨hread, stored, hstored, hquiz⟩ := hheld.2 read rfl
        have hover : s.overwrite (.write k) = some (readPercent, read) := by
          simp only [Scrolls.overwrite, hphase]
        obtain ⟨hgrows, hsettled⟩ :=
          (written_keeps_iff hread (h.row stored hstored) hquiz hheld.1).2
            (htime (readPercent, read) hover stored hstored)
        rw [Option.mem_def] at hstored
        refine ⟨hidle.setRow ?_ ?_, fun _ row hmem => ?_⟩
        · intro row hmem
          rw [hstored] at hmem
          cases hmem
          exact hsettled
        · intro row hmem
          change row ∈ s.row at hmem
          rw [hstored] at hmem ⊢
          cases hmem
          exact ⟨_, rfl, rfl⟩
        · rw [hstored] at hmem
          cases hmem
          refine ⟨Row.written hasPublishedQuiz readPercent read stored, ?_, hgrows, rfl⟩
          show s.row.map _ = _
          rw [hstored]
          rfl
  | reset =>
    cases hstep
    refine ⟨h.setRow ?_ ?_, fun hno => absurd rfl hno⟩
    · intro row hmem
      obtain ⟨old, -, rfl⟩ := Option.map_eq_some_iff.1 hmem
      exact settled_resetRead old
    · intro row hmem
      exact ⟨row.resetRead, Option.mem_map_of_mem _ hmem, rfl⟩

/-- A settled row, or none, and no requests yet. -/
def Scrolls.Fresh (hasPublishedQuiz : Bool) (s : Scrolls S) : Prop :=
  (∀ row ∈ s.row, row.Settled hasPublishedQuiz) ∧ ∀ k, s.requests k = .idle

/-- From one state to a later one the percentage does not fall, and a node whose requirements
are met is completed. -/
def ReadingKept (hasPublishedQuiz : Bool) (s s' : Scrolls S) : Prop :=
  s.percent ≤ s'.percent ∧ ∀ row ∈ s.row, row.computed hasPublishedQuiz = .completed →
    ∃ row' ∈ s'.row, row'.completionStatus = .completed

theorem Scrolls.Fresh.inv (h : s.Fresh hasPublishedQuiz) : s.Inv hasPublishedQuiz where
  row := h.1
  held k w hw := by
    rw [h.2 k] at hw
    cases hw

theorem Grows.readingKept (h : Grows s s') (hinv : s.Inv hasPublishedQuiz)
    (hinv' : s'.Inv hasPublishedQuiz) : ReadingKept hasPublishedQuiz s s' := by
  constructor
  · cases hrow : s.row with
    | none =>
      rw [Scrolls.percent, hrow]
      exact Nat.zero_le _
    | some row =>
      obtain ⟨row', hrow', hle, -⟩ := h row hrow
      rw [Option.mem_def] at hrow'
      simp only [Scrolls.percent, hrow, hrow', Option.elim_some]
      exact hle
  · intro row hrow hcomplete
    obtain ⟨row', hrow', hle, hquiz⟩ := h row hrow
    obtain ⟨hread, hpassed⟩ := computed_eq_completed_iff.1 hcomplete
    have hend := (hinv.row row hrow).completed.1 hread
    obtain ⟨hle', hread', hstatus'⟩ := settled_iff.1 (hinv'.row row' hrow')
    refine ⟨row', hrow', hstatus'.2 ⟨hread'.2 (by omega), ?_⟩⟩
    rwa [hquiz]

/-- **Between two resets the percentage never falls and a completed node stays completed**, and
material is finished exactly when it has been read to the end, in every run whose writes are
not overtaken. -/
theorem reading_never_regresses
    (hreached : Runs.Reachable (Scrolls.step hasPublishedQuiz) (InTime hasPublishedQuiz)
      (Scrolls.Fresh hasPublishedQuiz) s) :
    (∀ row ∈ s.row, row.studyMaterialCompleted = true ↔ row.studyMaterialReadPercent = 100) ∧
      ∀ s', Runs.Reachable (Scrolls.step hasPublishedQuiz)
        (fun s e => InTime hasPublishedQuiz s e ∧ e ≠ .reset) (· = s) s' →
          ReadingKept hasPublishedQuiz s s' := by
  have hinv : s.Inv hasPublishedQuiz :=
    hreached.invariant (fun _ h => h.inv) fun _ _ _ h htime hstep => (inv_step h htime hstep).1
  refine ⟨fun row hrow => (hinv.row row hrow).completed, fun s' hlater => ?_⟩
  have hstart : ∀ s₁, s₁ = s → s₁.Inv hasPublishedQuiz ∧ Grows s s₁ := by
    rintro s rfl
    exact ⟨hinv, Grows.refl s⟩
  have hkeep : ∀ s₁ e s₂, s₁.Inv hasPublishedQuiz ∧ Grows s s₁ →
      InTime hasPublishedQuiz s₁ e ∧ e ≠ .reset → s₁.step hasPublishedQuiz e = some s₂ →
        s₂.Inv hasPublishedQuiz ∧ Grows s s₂ := by
    rintro s₁ e s₂ ⟨hinv₁, hgrows⟩ ⟨htime, hno⟩ hstep
    obtain ⟨hinv₂, hstill⟩ := inv_step hinv₁ htime hstep
    exact ⟨hinv₂, hgrows.trans (hstill hno)⟩
  obtain ⟨hinv', hgrows⟩ := hlater.invariant hstart hkeep
  exact hgrows.readingKept hinv hinv'

end Invariant

/-- A trainee who has not been on the node. -/
def unvisited : Scrolls ℕ := ⟨none, fun _ => .idle⟩

theorem unvisited_fresh : unvisited.Fresh false := ⟨nofun, fun _ => rfl⟩

/-- A first update has been written. -/
def openedRow : Scrolls ℕ :=
  (Runs.run (Scrolls.step false) unvisited [.check 0 40, .read 0, .write 0]).getD unvisited

theorem openedRow_reached :
    Runs.Reachable (Scrolls.step false) (InTime false) (Scrolls.Fresh false) openedRow := by
  have hrun : Runs.run (fun s e => if InTime false s e then s.step false e else none) unvisited
      [.check 0 40, .read 0, .write 0] = some openedRow := rfl
  exact Runs.reachable_of_checked unvisited_fresh hrun

/-- One update read and written after another. -/
theorem read_in_two_updates :
    ∃ s : Scrolls ℕ,
      Runs.run (Scrolls.step false) openedRow [.check 1 100, .read 1, .write 1] = some s ∧
      s.percent = 100 ∧ ReadingKept false openedRow s := by
  have hrun : Runs.run
      (fun s e => if InTime false s e ∧ e ≠ .reset then s.step false e else none) openedRow
      [.check 1 100, .read 1, .write 1] = some _ := rfl
  have hlater : Runs.Reachable (Scrolls.step false) (fun s e => InTime false s e ∧ e ≠ .reset)
      (· = openedRow) _ := Runs.reachable_of_checked rfl hrun
  exact ⟨_, rfl, by decide, (reading_never_regresses openedRow_reached).2 _ hlater⟩

/-- Two updates have read the row, and the one that has reached the end is written. -/
def readToTheEnd : Scrolls ℕ :=
  (Runs.run (Scrolls.step false) openedRow
    [.check 1 50, .check 2 100, .read 1, .read 2, .write 2]).getD openedRow

/-- The other one is written after it. -/
theorem reading_overwritten :
    ¬ ∀ s s' : Scrolls ℕ,
      Runs.Reachable (Scrolls.step false) (fun _ _ => True) (Scrolls.Fresh false) s →
      Runs.Reachable (Scrolls.step false) (fun _ e => e ≠ .reset) (· = s) s' →
      (∀ row ∈ s'.row, row.studyMaterialCompleted = true ↔ row.studyMaterialReadPercent = 100) ∧
        ReadingKept false s s' := by
  intro h
  have hopened := openedRow_reached.mono (fun _ _ _ => trivial)
  have hread : Runs.Reachable (Scrolls.step false) (fun _ _ => True) (Scrolls.Fresh false)
      readToTheEnd := by
    have hrun : Runs.run (Scrolls.step false) openedRow
        [.check 1 50, .check 2 100, .read 1, .read 2, .write 2] = some readToTheEnd := rfl
    exact hopened.run (fun _ _ _ => trivial) hrun
  have hlast : readToTheEnd.step false (.write 1) = some _ := rfl
  have hwritten : Runs.Reachable (Scrolls.step false) (fun _ e => e ≠ .reset)
    (· = readToTheEnd) _ :=
    .next (.init rfl) (by decide) hlast
  exact absurd (h _ _ hread hwritten).2.1 (by decide)

end StudyAgent.Progress
