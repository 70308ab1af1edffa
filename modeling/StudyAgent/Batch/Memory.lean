import StudyAgent.Batch.Steps
import Mathlib.Algebra.BigOperators.Group.Finset.Piecewise

/-!
# What a session has assigned

Between two statements the counters in memory have moved with the statuses in memory,
only steps that were open get another status, and a claim never waits in memory.

Main results:

* `settle_ok`, `setStep_ok`, `load_ok`, `flushed_ok` — what each kind of assignment keeps.
* `plan_ok` — **every move of a session keeps all of it.**
-/

namespace StudyAgent.Batch

open ReadCommitted
open Generation (RunStatus)

variable {n : ℕ}

/-! ## Laws of the copies -/

def counted (outcome : Outcome) (status : StepStatus) : ℤ :=
  if status = outcome.status then 1 else 0

theorem counted_of_open {status : StepStatus} (h : status.isOpen = true) (outcome : Outcome) :
    counted outcome status = 0 := by
  cases status <;> cases outcome <;> first | rfl | exact absurd h (by decide)

/-- What a flush of the copy adds to the steps with an outcome. -/
def gain (outcome : Outcome) (copy : Option (Copy BatchJobStep)) : ℤ :=
  copy.elim 0 fun c => counted outcome c.now.status - counted outcome c.loaded.status

theorem gain_of_same {copy : Option (Copy BatchJobStep)}
    (h : ∀ c ∈ copy, c.now.status = c.loaded.status) (outcome : Outcome) :
    gain outcome copy = 0 := by
  cases copy with
  | none => rfl
  | some c =>
    show counted outcome c.now.status - counted outcome c.loaded.status = 0
    rw [h c rfl, sub_self]

structure Memory.Ok (m : Memory n) : Prop where
  balanced : ∀ outcome, (m.batch.now.counter outcome : ℤ) - m.batch.loaded.counter outcome =
    ∑ k, gain outcome (m.steps k)
  opened : ∀ {k}, ∀ c ∈ m.steps k, c.now.status ≠ c.loaded.status →
    c.loaded.status.isOpen = true

/-- No status has been assigned since the last flush. -/
def Memory.Clean (m : Memory n) : Prop :=
  ∀ k, ∀ c ∈ m.steps k, c.now.status = c.loaded.status

def Memory.NoClaim (m : Memory n) : Prop :=
  ∀ k, ∀ c ∈ m.steps k, c.now.status = .running → c.loaded.status = .running

def Memory.StatusAt (m : Memory n) (k : Fin n) (status : StepStatus) : Prop :=
  ∃ c ∈ m.steps k, c.now.status = status

/-! ## Assignments -/

section Assign

variable {m : Memory n} {k : Fin n} {f : BatchJobStep → BatchJobStep}

theorem setStep_steps (j : Fin n) : (m.setStep k f).steps j =
    if j = k then (m.steps k).map fun c => ⟨c.loaded, f c.now⟩ else m.steps j := by
  unfold Memory.setStep
  dsimp only
  rw [Function.update_apply]

theorem mem_setStep {j : Fin n} {c : Copy BatchJobStep} (h : c ∈ (m.setStep k f).steps j) :
    (j = k ∧ ∃ c' ∈ m.steps k, c = ⟨c'.loaded, f c'.now⟩) ∨ (j ≠ k ∧ c ∈ m.steps j) := by
  rw [setStep_steps] at h
  split_ifs at h with hj
  · obtain ⟨c', hc', rfl⟩ := Option.mem_map.1 h
    exact Or.inl ⟨hj, c', hc', rfl⟩
  · exact Or.inr ⟨hj, h⟩

/-- The gains after one copy has been assigned to. -/
theorem sum_gain_setStep (outcome : Outcome) {c : Copy BatchJobStep} (hc : c ∈ m.steps k) :
    ∑ j, gain outcome ((m.setStep k f).steps j) =
      ∑ j, gain outcome (m.steps j) +
        (counted outcome (f c.now).status - counted outcome c.now.status) := by
  have hterm : ∀ j, gain outcome ((m.setStep k f).steps j) = gain outcome (m.steps j) +
      if j = k then counted outcome (f c.now).status - counted outcome c.now.status else 0 := by
    intro j
    rw [setStep_steps]
    split_ifs with hj
    · subst hj
      rw [Option.mem_def.1 hc]
      simp only [gain, Option.map_some, Option.elim_some]
      omega
    · rw [add_zero]
  rw [Finset.sum_congr rfl fun j _ => hterm j, Finset.sum_add_distrib, Finset.sum_ite_eq',
    if_pos (Finset.mem_univ k)]

theorem open_loaded (h : m.Ok) {c : Copy BatchJobStep} (hc : c ∈ m.steps k)
    (hopen : c.now.status.isOpen = true) : c.loaded.status.isOpen = true := by
  by_cases hsame : c.now.status = c.loaded.status
  · exact hsame ▸ hopen
  · exact h.opened c hc hsame

/-- An open step gets a status that is open as well, or keeps its own. -/
theorem setStep_ok (h : m.Ok)
    (hf : ∀ c ∈ m.steps k, (f c.now).status = c.now.status ∨
      (c.now.status.isOpen = true ∧ (f c.now).status.isOpen = true)) : (m.setStep k f).Ok := by
  refine ⟨fun outcome => ?_, fun {j} c hc hne => ?_⟩
  · show (m.batch.now.counter outcome : ℤ) - m.batch.loaded.counter outcome = _
    rw [h.balanced outcome]
    cases hk : m.steps k with
    | none =>
      refine Finset.sum_congr rfl fun j _ => ?_
      rw [setStep_steps]
      split_ifs with hj
      · rw [hj, hk]
        rfl
      · rfl
    | some c =>
      rw [sum_gain_setStep outcome hk]
      rcases hf c hk with hsame | ⟨hopen, hopen'⟩
      · rw [hsame, sub_self, add_zero]
      · rw [counted_of_open hopen, counted_of_open hopen', sub_self, add_zero]
  · rcases mem_setStep hc with ⟨rfl, c', hc', rfl⟩ | ⟨-, hold⟩
    · show c'.loaded.status.isOpen = true
      rcases hf c' hc' with hsame | ⟨hopen, -⟩
      · exact h.opened c' hc' (hsame ▸ hne)
      · exact open_loaded h hc' hopen
    · exact h.opened c hold hne

theorem setBatch_ok {g : BatchJob → BatchJob} (h : m.Ok)
    (hg : ∀ batch outcome, (g batch).counter outcome = batch.counter outcome) :
    (m.setBatch g).Ok := by
  refine ⟨fun outcome => ?_, h.opened⟩
  show ((g m.batch.now).counter outcome : ℤ) - m.batch.loaded.counter outcome = _
  rw [hg]
  exact h.balanced outcome

theorem counter_countOne (batch : BatchJob) (outcome o : Outcome) :
    ((batch.countOne outcome).counter o : ℤ) =
      batch.counter o + counted o outcome.status := by
  cases outcome <;> cases o <;> simp [BatchJob.countOne, BatchJob.counter, counted, Outcome.status]

theorem settle_steps (outcome : Outcome) :
    (m.settle k outcome).steps = (m.setStep k fun step => step.settled outcome).steps := rfl

/-- **Settling an open step moves its counter with its status.** -/
theorem settle_ok (h : m.Ok) {c : Copy BatchJobStep} (hc : c ∈ m.steps k)
    (hopen : c.now.status.isOpen = true) (outcome : Outcome) : (m.settle k outcome).Ok := by
  refine ⟨fun o => ?_, fun {j} c' hc' hne => ?_⟩
  · show ((m.batch.now.countOne outcome).counter o : ℤ) - m.batch.loaded.counter o = _
    rw [settle_steps, sum_gain_setStep o hc, ← h.balanced o, counter_countOne,
      counted_of_open hopen]
    simp only [BatchJobStep.settled]
    omega
  · rw [settle_steps] at hc'
    rcases mem_setStep hc' with ⟨rfl, c'', hc'', rfl⟩ | ⟨-, hold⟩
    · obtain rfl := Option.some.inj (hc.symm.trans hc'')
      show c.loaded.status.isOpen = true
      exact open_loaded h hc hopen
    · exact h.opened c' hold hne

theorem touch_ok (h : m.Ok) (now : ℕ) : (m.touch now).Ok :=
  setBatch_ok h fun _ outcome => by cases outcome <;> rfl

theorem claim_steps (now : ℕ) :
    (m.claim k now).steps = (m.setStep k fun step => { step with status := .running }).steps := rfl

theorem claim_ok (h : m.Ok) {c : Copy BatchJobStep} (hc : c ∈ m.steps k)
    (hopen : c.now.status.isOpen = true) (now : ℕ) : (m.claim k now).Ok := by
  refine touch_ok (setStep_ok h fun c' hc' => Or.inr ⟨?_, rfl⟩) now
  obtain rfl := Option.some.inj (hc.symm.trans hc')
  exact hopen

theorem reset_ok (h : m.Ok) {c : Copy BatchJobStep} (hc : c ∈ m.steps k)
    (hopen : c.now.status.isOpen = true) : (m.reset k).Ok := by
  refine setStep_ok h fun c' hc' => Or.inr ⟨?_, rfl⟩
  obtain rfl := Option.some.inj (hc.symm.trans hc')
  exact hopen

/-- With no status assigned the counters are as loaded. -/
theorem counters_of_clean (h : m.Ok) (hclean : m.Clean) (outcome : Outcome) :
    (m.batch.now.counter outcome : ℤ) - m.batch.loaded.counter outcome = 0 := by
  rw [h.balanced outcome]
  exact Finset.sum_eq_zero fun k _ => gain_of_same (hclean k) outcome

/-- Fresh copies of steps replace clean ones. -/
theorem fresh_ok {steps : Fin n → Option (Copy BatchJobStep)} (h : m.Ok) (hclean : m.Clean)
    (hfresh : ∀ k, ∀ c ∈ steps k, c.now = c.loaded) :
    ({ m with steps := steps } : Memory n).Ok := by
  have hsame : ∀ k, ∀ c ∈ steps k, c.now.status = c.loaded.status :=
    fun k c hc => congrArg _ (hfresh k c hc)
  refine ⟨fun outcome => ?_, fun {k} c hc hne => absurd (hsame k c hc) hne⟩
  show (m.batch.now.counter outcome : ℤ) - m.batch.loaded.counter outcome = _
  rw [counters_of_clean h hclean outcome]
  exact (Finset.sum_eq_zero fun k _ => gain_of_same (hsame k) outcome).symm

theorem load_ok (h : m.Ok) (hclean : m.Clean) (row : BatchJobStep) : (m.load k row).Ok := by
  refine fresh_ok h hclean fun j c hc => ?_
  split_ifs at hc
  · cases hc
    rfl
  · cases hc

theorem mem_flushed {j : Fin n} {c : Copy BatchJobStep} (hc : c ∈ m.flushed.steps j) :
    ∃ c' ∈ m.steps j, c = .fresh c'.now := by
  obtain ⟨c', hc', rfl⟩ := Option.mem_map.1 hc
  exact ⟨c', hc', rfl⟩

theorem flushed_clean (m : Memory n) : m.flushed.Clean := by
  intro j c hc
  obtain ⟨c', -, rfl⟩ := mem_flushed hc
  rfl

theorem flushed_ok (m : Memory n) : m.flushed.Ok := by
  refine ⟨fun outcome => ?_, fun {k} c hc hne => absurd (flushed_clean m k c hc) hne⟩
  show (m.batch.now.counter outcome : ℤ) - m.batch.now.counter outcome = _
  rw [sub_self]
  exact (Finset.sum_eq_zero fun k _ => gain_of_same (flushed_clean m k) outcome).symm

theorem noClaim_of_clean (h : m.Clean) : m.NoClaim :=
  fun k c hc hrun => h k c hc ▸ hrun

theorem setStep_noClaim (h : m.NoClaim)
    (hf : ∀ c ∈ m.steps k, (f c.now).status = .running → c.now.status = .running) :
    (m.setStep k f).NoClaim := by
  intro j c hc hrun
  rcases mem_setStep hc with ⟨rfl, c', hc', rfl⟩ | ⟨-, hold⟩
  · exact h j c' hc' (hf c' hc' hrun)
  · exact h j c hold hrun

theorem settle_noClaim (h : m.NoClaim) (outcome : Outcome) : (m.settle k outcome).NoClaim := by
  refine @setStep_noClaim _ m k (fun step => step.settled outcome) h fun c _ hrun => ?_
  cases outcome <;> cases hrun

theorem reset_noClaim (h : m.NoClaim) : (m.reset k).NoClaim :=
  setStep_noClaim h fun _ _ hrun => nomatch hrun

theorem load_clean (row : BatchJobStep) : (m.load k row).Clean := by
  intro j c hc
  show c.now.status = c.loaded.status
  change c ∈ (if j = k then some (Copy.fresh row) else none) at hc
  split_ifs at hc
  · cases hc
    rfl
  · cases hc

theorem mem_load (row : BatchJobStep) : .fresh row ∈ (m.load k row).steps k :=
  if_pos rfl

theorem flushed_statusAt {status : StepStatus} (h : m.StatusAt k status) :
    m.flushed.StatusAt k status := by
  obtain ⟨c, hc, hstatus⟩ := h
  exact ⟨.fresh c.now, Option.mem_map.2 ⟨c, hc, rfl⟩, hstatus⟩

end Assign

/-! ## Moves -/

/-- What holds of the memory in each phase. -/
def PhaseOk (m : Memory n) : Phase n → Prop
  | .picked k | .cleared k => m.StatusAt k .pending
  | .claimed k | .started k _ | .found k => m.StatusAt k .running
  | .finalizing _ _ | .cancelling _ | .closing => True
  | _ => m.Clean

def SessionOk : Session n → Prop
  | .opened _ => True
  | .working m phase => m.Ok ∧ m.NoClaim ∧ PhaseOk m phase

/-- The step that a session claims with its next statement. -/
def claims (answer : Answer) : Session n → Option (Fin n)
  | .working m (.picked k) =>
    if verdict m.batch.now.policyMode answer.material = .claim then some k else none
  | .working _ (.cleared k) => some k
  | _ => none

/-- A move whose flush claims the given step and no other one. -/
structure MoveOk (claimed : Option (Fin n)) (mv : Move n) : Prop where
  memory : mv.memory.Ok
  claims : ∀ k, ∀ c ∈ mv.memory.steps k, c.now.status = .running →
    c.loaded.status = .running ∨ k ∈ claimed
  noClaim : mv.after.NoClaim
  phase : ∀ phase ∈ mv.phase, PhaseOk mv.after phase

section Move

variable {m : Memory n} {claimed : Option (Fin n)} {phase : Phase n}

theorem MoveOk.keep {effect : Effect n} (heffect : effect.flushes = false) (hm : m.Ok)
    (hn : m.NoClaim) (hphase : PhaseOk m phase) : MoveOk claimed ⟨m, effect, some phase⟩ := by
  have hafter : Move.after ⟨m, effect, some phase⟩ = m := if_neg (by simp [heffect])
  refine ⟨hm, fun k c hc hrun => Or.inl (hn k c hc hrun), ?_, fun p hp => ?_⟩
  · rw [hafter]
    exact hn
  · cases hp
    rw [hafter]
    exact hphase

theorem MoveOk.write {effect : Effect n} (heffect : effect.flushes = true) (hm : m.Ok)
    (hclaims : ∀ k, ∀ c ∈ m.steps k, c.now.status = .running →
      c.loaded.status = .running ∨ k ∈ claimed) {next : Option (Phase n)}
    (hphase : ∀ phase ∈ next, PhaseOk m.flushed phase) : MoveOk claimed ⟨m, effect, next⟩ := by
  have hafter : Move.after ⟨m, effect, next⟩ = m.flushed := if_pos heffect
  refine ⟨hm, hclaims, ?_, ?_⟩
  · rw [hafter]
    exact noClaim_of_clean (flushed_clean m)
  · rw [hafter]
    exact hphase

theorem MoveOk.flush (hm : m.Ok) (hn : m.NoClaim) (hphase : PhaseOk m.flushed phase) :
    MoveOk claimed ⟨m, .flush, some phase⟩ := by
  refine .write rfl hm (fun k c hc hrun => Or.inl (hn k c hc hrun)) fun p hp => ?_
  cases hp
  exact hphase

/-- The flush that claims a step. -/
theorem MoveOk.claim {k : Fin n} (hm : m.Ok) (hn : m.NoClaim) (hk : m.StatusAt k .pending)
    (now : ℕ) : MoveOk (some k) ⟨m.claim k now, .flush, some (.claimed k)⟩ := by
  obtain ⟨c, hc, hstatus⟩ := hk
  refine .write rfl (claim_ok hm hc (by rw [hstatus]; rfl) now) (fun j c' hc' hrun => ?_)
    fun p hp => ?_
  · rw [claim_steps] at hc'
    rcases mem_setStep hc' with ⟨rfl, -⟩ | ⟨-, hold⟩
    · exact Or.inr rfl
    · exact Or.inl (hn j c' hold hrun)
  · cases hp
    refine flushed_statusAt ⟨⟨c.loaded, { c.now with status := .running }⟩, ?_, rfl⟩
    rw [claim_steps, setStep_steps, if_pos rfl, Option.mem_def.1 hc]
    rfl

theorem planOpened_ok (row : BatchJob) (now : ℕ) (request : Request n) :
    MoveOk claimed (planOpened row now request) := by
  have hclean : ∀ copy, Memory.Clean (⟨copy, fun _ => none⟩ : Memory n) := fun _ k c hc =>
    nomatch hc
  have hok : Memory.Ok (⟨.fresh row, fun _ => none⟩ : Memory n) := by
    refine ⟨fun outcome => ?_, fun c hc => nomatch hc⟩
    show (row.counter outcome : ℤ) - row.counter outcome = _
    rw [sub_self]
    exact Finset.sum_const_zero.symm
  have hn := noClaim_of_clean (hclean (.fresh row))
  cases request with
  | process =>
    refine .keep rfl hok hn ?_
    split_ifs
    · trivial
    · exact hclean _
  | finalize k run => exact .keep rfl hok hn (hclean _)
  | cancel =>
    unfold planOpened
    split_ifs
    · exact .keep rfl hok hn trivial
    · exact .keep rfl (setBatch_ok hok fun _ outcome => by cases outcome <;> rfl)
        (noClaim_of_clean (hclean _)) (hclean _)

theorem planPicked_ok {k : Fin n} (hm : m.Ok) (hn : m.NoClaim) (hk : m.StatusAt k .pending)
    (now : ℕ) (v : Verdict) :
    MoveOk (if v = .claim then some k else none) (planPicked m k now v) := by
  obtain ⟨c, hc, hstatus⟩ := hk
  have hopen : c.now.status.isOpen = true := by rw [hstatus]; rfl
  have hsettle : ∀ outcome, MoveOk none
      ⟨(m.settle k outcome).touch now, .flush, some .picking⟩ := fun outcome =>
    .flush (touch_ok (settle_ok hm hc hopen outcome) now) (settle_noClaim hn outcome)
      (flushed_clean _)
  cases v with
  | skip => exact hsettle .skipped
  | block => exact hsettle .failed
  | clear =>
    refine .write rfl hm (fun k c hc hrun => Or.inl (hn k c hc hrun)) fun p hp => ?_
    cases hp
    exact flushed_statusAt ⟨c, hc, hstatus⟩
  | claim => exact .claim hm hn ⟨c, hc, hstatus⟩ now

theorem planClaimed_ok {k : Fin n} (hm : m.Ok) (hn : m.NoClaim) (hk : m.StatusAt k .running)
    (result : StartResult) : MoveOk claimed (planClaimed m k result) := by
  obtain ⟨c, hc, hstatus⟩ := hk
  cases result with
  | started run =>
    refine .write rfl hm (fun k c hc hrun => Or.inl (hn k c hc hrun)) fun p hp => ?_
    cases hp
    exact flushed_statusAt ⟨c, hc, hstatus⟩
  | conflict =>
    exact .flush (reset_ok hm hc (by rw [hstatus]; rfl)) (reset_noClaim hn) trivial
  | failed => exact .keep rfl hm hn trivial

theorem planFound_ok {k : Fin n} {c : Copy BatchJobStep} (hm : m.Ok) (hn : m.NoClaim)
    (hc : c ∈ m.steps k) (hstatus : c.now.status = .running) (run : Option RunStatus) :
    MoveOk claimed (planFound m k c.now run) := by
  have hreset : MoveOk claimed ⟨m.reset k, .flush, some .closing⟩ :=
    .flush (reset_ok hm hc (by rw [hstatus]; rfl)) (reset_noClaim hn) trivial
  unfold planFound
  split
  · split_ifs
    · exact .keep rfl hm hn trivial
    · exact .keep rfl hm hn trivial
  · exact hreset

theorem planCancelling_ok {k : Fin n} {left : List (Fin n)} {c : Copy BatchJobStep} (hm : m.Ok)
    (hn : m.NoClaim) (hc : c ∈ m.steps k) (abandoned : Abandoned) :
    MoveOk claimed (planCancelling m k left c.now abandoned) := by
  have hwrite : ∀ {effect : Effect n}, effect.flushes = true →
      MoveOk claimed ⟨m, effect, some (.cancelling (k :: left))⟩ := fun heffect => by
    refine .write heffect hm (fun k c hc hrun => Or.inl (hn k c hc hrun)) fun p hp => ?_
    cases hp
    trivial
  have hsettle : c.now.status.isOpen = true → ∀ outcome, MoveOk claimed
      ⟨m.settle k outcome, .read, some (.cancelling left)⟩ := fun hopen outcome =>
    .keep rfl (settle_ok hm hc hopen outcome) (settle_noClaim hn outcome) trivial
  unfold planCancelling
  split
  · rename_i hstatus
    split
    · exact hwrite rfl
    · exact hwrite rfl
    · exact hsettle (by rw [hstatus]; rfl) .failed
  · rename_i hstatus
    exact hsettle (by rw [hstatus]; rfl) .skipped
  · exact .keep rfl hm hn trivial

theorem afterSettling_ok (hclean : m.Clean) (claims : Bool) : PhaseOk m (afterSettling claims) := by
  cases claims with
  | false => trivial
  | true => exact hclean

theorem planWorking_ok {tb : Tables n} {t now : ℕ} {answer : Answer} {mv : Move n} (hm : m.Ok)
    (hn : m.NoClaim) (hphase : PhaseOk m phase)
    (h : planWorking tb t now answer m phase = some mv) :
    MoveOk (claims answer (.working m phase)) mv := by
  cases phase with
  | checking =>
    rw [planWorking] at h
    split_ifs at h
    · cases h
      exact .keep rfl hm hn hphase
    · cases h
      refine .keep rfl (setBatch_ok hm fun batch outcome => ?_) hn hphase
      split_ifs <;> cases outcome <;> rfl
  | picking =>
    rw [planWorking] at h
    split at h
    · cases h
      exact .keep rfl hm hn hphase
    · rename_i k hk
      obtain ⟨row, hrow, rfl⟩ := Option.map_eq_some_iff.1 h
      refine .keep rfl (load_ok hm hphase row.step) (noClaim_of_clean (load_clean row.step)) ?_
      refine ⟨_, mem_load row.step, ?_⟩
      have hpending := List.find?_some hk
      rw [hrow, Bool.and_eq_true] at hpending
      simpa [statusIn, Copy.fresh] using hpending.1
  | picked k =>
    cases h
    exact planPicked_ok hm hn hphase now _
  | cleared k =>
    cases h
    exact .claim hm hn hphase now
  | claimed k =>
    cases h
    exact planClaimed_ok hm hn hphase answer.start
  | started k run =>
    rw [planWorking] at h
    split_ifs at h
    · cases h
      exact .keep rfl hm hn trivial
    · cases h
      exact .flush (setStep_ok hm fun _ _ => Or.inl rfl) (setStep_noClaim hn fun _ _ hrun => hrun)
        trivial
  | finalizeRead k run =>
    obtain ⟨row, -, rfl⟩ := Option.map_eq_some_iff.1 h
    exact .keep rfl (load_ok hm hphase row.step) (noClaim_of_clean (load_clean row.step)) trivial
  | finalizing k run =>
    obtain ⟨c, hc, rfl⟩ := Option.map_eq_some_iff.1 h
    split_ifs with hstatus
    · exact .flush (touch_ok (settle_ok hm hc (by rw [hstatus]; rfl) _) now)
        (settle_noClaim hn _) (flushed_clean _)
    · exact .keep rfl hm hn trivial
  | settling more =>
    rw [planWorking] at h
    split_ifs at h
    · cases h
      exact .keep rfl hm hn (afterSettling_ok hphase more)
    · cases h
      exact .keep rfl (setBatch_ok hm fun _ outcome => by cases outcome <;> rfl) hn hphase
  | completing more =>
    cases h
    exact .flush hm hn (afterSettling_ok (flushed_clean m) more)
  | reconciling =>
    rw [planWorking] at h
    split at h
    · cases h
      exact .keep rfl hm hn trivial
    · rename_i k hk
      obtain ⟨row, hrow, rfl⟩ := Option.map_eq_some_iff.1 h
      refine .keep rfl (load_ok hm hphase row.step) (noClaim_of_clean (load_clean row.step)) ?_
      refine ⟨_, mem_load row.step, ?_⟩
      have hrunning := List.find?_some hk
      rw [hrow] at hrunning
      simpa [statusIn, Copy.fresh] using hrunning
  | found k =>
    obtain ⟨c, hc, rfl⟩ := Option.map_eq_some_iff.1 h
    obtain ⟨c', hc', hstatus⟩ := hphase
    obtain rfl := Option.some.inj (hc.symm.trans hc')
    exact planFound_ok hm hn hc hstatus answer.run
  | cancelRead =>
    cases h
    have hfresh : ∀ k, ∀ c ∈ (tb.steps.view t k).map fun row => Copy.fresh row.step,
        c.now = c.loaded := fun k c hc => by
      obtain ⟨row, -, rfl⟩ := Option.mem_map.1 hc
      rfl
    exact .keep rfl (fresh_ok hm hphase hfresh)
      (noClaim_of_clean fun k c hc => congrArg _ (hfresh k c hc)) trivial
  | cancelling left =>
    cases left with
    | nil =>
      cases h
      exact .flush hm hn trivial
    | cons k left =>
      obtain ⟨c, hc, rfl⟩ := Option.map_eq_some_iff.1 h
      exact planCancelling_ok hm hn hc answer.abandoned
  | closing =>
    cases h
    exact .write rfl hm (fun k c hc hrun => Or.inl (hn k c hc hrun)) fun p hp => by cases hp

/-- **Every move of a session keeps the laws of its memory.** -/
theorem plan_ok {tb : Tables n} {t now : ℕ} {answer : Answer} {session : Session n} {mv : Move n}
    (hs : SessionOk session) (h : plan tb t now answer session = some mv) :
    MoveOk (claims answer session) mv := by
  cases session with
  | opened request =>
    obtain ⟨row, -, rfl⟩ := Option.map_eq_some_iff.1 h
    exact planOpened_ok row now request
  | working m phase => exact planWorking_ok hs.1 hs.2.1 hs.2.2 h

end Move

/-! ## All sessions -/

def SessionsOk (s : System n) : Prop :=
  ∀ t session, s.sessions t = some session → SessionOk session

theorem created_sessionsOk {s : System n} (h : Created s) : SessionsOk s := by
  obtain ⟨mode, rfl⟩ := h
  exact fun _ _ hs => nomatch hs

/-- **A step keeps the laws of every session.** -/
theorem step_sessionsOk {s s' : System n} {i : ℕ × Action n} (hs : SessionsOk s)
    (h : step s i = some s') : SessionsOk s' := by
  obtain ⟨t, a⟩ := i
  have hupdate : ∀ {new : Option (Session n)}, (∀ session ∈ new, SessionOk session) →
      ∀ u session, Function.update s.sessions t new u = some session → SessionOk session := by
    intro new hnew u session hu
    rw [Function.update_apply] at hu
    split_ifs at hu
    · exact hnew session hu
    · exact hs u session hu
  rcases step_cases h with ⟨request, -, -, rfl⟩ |
    ⟨session, now, answer, mv, tb, -, hsession, hplan, -, rfl⟩ | ⟨-, rfl⟩
  · refine hupdate fun session hsession => ?_
    cases hsession
    trivial
  · have hmove := plan_ok (hs t session hsession) hplan
    refine hupdate fun session' hsession' => ?_
    obtain ⟨phase, hphase, rfl⟩ := Option.mem_map.1 hsession'
    refine ⟨?_, hmove.noClaim, hmove.phase phase hphase⟩
    unfold Move.after
    split_ifs
    · exact flushed_ok mv.memory
    · exact hmove.memory
  · exact hupdate fun session hsession => nomatch hsession

end StudyAgent.Batch
