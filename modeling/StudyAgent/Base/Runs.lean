import Mathlib.Data.List.Basic
import Mathlib.Order.Monotone.Basic
import Mathlib.Order.Nat

/-!
# Runs

A system that takes one input a step and may refuse it.  Its runs are restricted by
what is allowed in each state, so that a law can be proved of all runs whose steps
meet a condition.

Main results:

* `Reachable.invariant` — **what holds at the start and is kept by every allowed step
  holds in every state reached.**
* `reachable_of_run` — the end of a computed run is reached.
* `run_countP_le`, `run_countP_le_total` — **a counted kind of input is bounded by what it uses
  up.**
* `exists_after_refused` — **a measure that every step decreases bounds the steps of a run.**
-/

namespace Runs

variable {S I : Type}

/-- The states reached from a start by allowed steps. -/
inductive Reachable (step : S → I → Option S) (allowed : S → I → Prop) (start : S → Prop) :
    S → Prop
  | init {s : S} : start s → Reachable step allowed start s
  | next {s s' : S} {i : I} : Reachable step allowed start s → allowed s i →
      step s i = some s' → Reachable step allowed start s'

/-- Take the inputs one after another. -/
def run (step : S → I → Option S) : S → List I → Option S
  | s, [] => some s
  | s, i :: is => (step s i).bind fun s' => run step s' is

section

variable {step : S → I → Option S} {allowed allowed' : S → I → Prop} {start : S → Prop}

/-- **The invariant rule.** -/
theorem Reachable.invariant {Inv : S → Prop} {s : S} (h : Reachable step allowed start s)
    (hstart : ∀ s, start s → Inv s)
    (hstep : ∀ s i s', Inv s → allowed s i → step s i = some s' → Inv s') : Inv s := by
  induction h with
  | init hs => exact hstart _ hs
  | next _ hallowed hs ih => exact hstep _ _ _ ih hallowed hs

theorem Reachable.mono {s : S} (h : Reachable step allowed start s)
    (himp : ∀ s i, allowed s i → allowed' s i) : Reachable step allowed' start s := by
  induction h with
  | init hs => exact .init hs
  | next _ hallowed hs ih => exact .next ih (himp _ _ hallowed) hs

/-- A run of inputs that are always allowed goes on from the state it has reached. -/
theorem Reachable.run {s s' : S} {is : List I} (h : Reachable step allowed start s)
    (hall : ∀ i ∈ is, ∀ s, allowed s i) (hrun : Runs.run step s is = some s') :
    Reachable step allowed start s' := by
  induction is generalizing s with
  | nil =>
    cases hrun
    exact h
  | cons i is ih =>
    obtain ⟨t, ht, hrest⟩ := Option.bind_eq_some_iff.1 hrun
    refine ih (.next h (hall i List.mem_cons_self s) ht) ?_ hrest
    exact fun j hj => hall j (List.mem_cons_of_mem i hj)

theorem reachable_of_run {s s' : S} {is : List I} (hs : start s)
    (hrun : run step s is = some s') : Reachable step (fun _ _ => True) start s' :=
  Reachable.run (.init hs) (fun _ _ _ => trivial) hrun

/-- A computed run in which every step is checked to be allowed. -/
theorem reachable_of_checked [∀ s i, Decidable (allowed s i)] {s s' : S} {is : List I}
    (hs : start s) (hrun : run (fun s i => if allowed s i then step s i else none) s is = some s') :
    Reachable step allowed start s' := by
  have hgo : ∀ {s : S}, Reachable step allowed start s →
      run (fun s i => if allowed s i then step s i else none) s is = some s' →
      Reachable step allowed start s' := by
    clear hs hrun
    induction is with
    | nil =>
      intro s h hrun
      cases hrun
      exact h
    | cons i is ih =>
      intro s h hrun
      obtain ⟨t, ht, hrest⟩ := Option.bind_eq_some_iff.1 hrun
      dsimp only at ht
      split_ifs at ht with hallowed
      exact ih (.next h hallowed ht) hrest
  exact hgo (.init hs) hrun

theorem run_append (s : S) (is js : List I) :
    run step s (is ++ js) = (run step s is).bind fun t => run step t js := by
  induction is generalizing s with
  | nil => rfl
  | cons i is ih =>
    rw [List.cons_append, run, run, Option.bind_assoc]
    exact congrArg _ (funext fun t => ih t)

/-- A run keeps what its steps keep. -/
theorem run_invariant {Inv : S → Prop} {s s' : S} {is : List I}
    (hstep : ∀ s i s', Inv s → step s i = some s' → Inv s') (hs : Inv s)
    (hrun : run step s is = some s') : Inv s' := by
  induction is generalizing s with
  | nil =>
    cases hrun
    exact hs
  | cons i is ih =>
    obtain ⟨t, ht, hrest⟩ := Option.bind_eq_some_iff.1 hrun
    exact ih (hstep _ _ _ hs ht) hrest

/-- **Counted inputs are bounded by a quantity that each of them uses up** and no input
of the run renews. -/
theorem run_countP_le {Inv : S → Prop} {ok : I → Prop} {p : I → Bool} {left : S → ℕ} {s s' : S}
    {is : List I}
    (hstep : ∀ s i s', Inv s → ok i → step s i = some s' →
      Inv s' ∧ left s' + (if p i then 1 else 0) ≤ left s)
    (hs : Inv s) (hok : ∀ i ∈ is, ok i) (hrun : run step s is = some s') :
    left s' + is.countP p ≤ left s := by
  induction is generalizing s with
  | nil =>
    cases hrun
    simp
  | cons i is ih =>
    obtain ⟨t, ht, hrest⟩ := Option.bind_eq_some_iff.1 hrun
    obtain ⟨hinv, hleft⟩ := hstep _ _ _ hs (hok i List.mem_cons_self) ht
    have hlater := ih hinv (fun j hj => hok j (List.mem_cons_of_mem i hj)) hrest
    rw [List.countP_cons]
    omega

/-- What the steps of a run bring, all together. -/
def total (step : S → I → Option S) (gain : S → I → ℕ) : S → List I → ℕ
  | _, [] => 0
  | s, i :: is => gain s i + (step s i).elim 0 fun s' => total step gain s' is

theorem total_mul (gain : S → I → ℕ) (m : ℕ) (s : S) (is : List I) :
    total step (fun s i => m * gain s i) s is = m * total step gain s is := by
  induction is generalizing s with
  | nil => rfl
  | cons i is ih =>
    rw [total, total, Nat.mul_add]
    cases step s i with
    | none => simp
    | some t => rw [Option.elim_some, Option.elim_some, ih]

/-- **Counted inputs are bounded by a quantity that each of them uses up** and by what the steps
bring to it. -/
theorem run_countP_le_total {Inv : S → Prop} {p : I → Bool} {left : S → ℕ} {gain : S → I → ℕ}
    {s s' : S} {is : List I}
    (hstep : ∀ s i s', Inv s → step s i = some s' →
      Inv s' ∧ left s' + (if p i then 1 else 0) ≤ left s + gain s i)
    (hs : Inv s) (hrun : run step s is = some s') :
    left s' + is.countP p ≤ left s + total step gain s is := by
  induction is generalizing s with
  | nil =>
    cases hrun
    simp [total]
  | cons i is ih =>
    obtain ⟨t, ht, hrest⟩ := Option.bind_eq_some_iff.1 hrun
    obtain ⟨hinv, hleft⟩ := hstep _ _ _ hs ht
    have hlater := ih hinv hrest
    rw [List.countP_cons, total, ht, Option.elim_some]
    omega

end

/-! ## Streams of inputs -/

/-- The state after some inputs of a stream; an input that is refused changes nothing. -/
def after (step : S → I → Option S) (s : S) (input : ℕ → I) : ℕ → S
  | 0 => s
  | n + 1 => (step (after step s input n) (input n)).getD (after step s input n)

section

variable {step : S → I → Option S} {s : S} {input : ℕ → I}

theorem after_succ_of_some {n : ℕ} {t : S}
    (h : step (after step s input n) (input n) = some t) : after step s input (n + 1) = t := by
  rw [after, h, Option.getD_some]

theorem after_succ_of_none {n : ℕ} (h : step (after step s input n) (input n) = none) :
    after step s input (n + 1) = after step s input n := by
  rw [after, h, Option.getD_none]

/-- Where every input is refused the run stays. -/
theorem after_eq_of_refused {n m : ℕ} (h : ∀ i, step (after step s input n) i = none)
    (hnm : n ≤ m) : after step s input m = after step s input n := by
  induction hnm with
  | refl => rfl
  | step _ ih => rw [after_succ_of_none (by rw [ih]; exact h _), ih]

/-- What holds at the start and is kept by every step holds after any number of inputs. -/
theorem after_invariant {Inv : S → Prop} (hs : Inv s)
    (hstep : ∀ s i s', Inv s → step s i = some s' → Inv s') (n : ℕ) :
    Inv (after step s input n) := by
  induction n with
  | zero => exact hs
  | succ n ih =>
    cases hn : step (after step s input n) (input n) with
    | none => rwa [after_succ_of_none hn]
    | some t =>
      rw [after_succ_of_some hn]
      exact hstep _ _ _ ih hn

/-- What every step leaves at least as large grows along a run. -/
theorem after_monotone (value : S → ℕ)
    (hstep : ∀ s i s', step s i = some s' → value s ≤ value s') :
    Monotone fun n => value (after step s input n) := by
  refine monotone_nat_of_le_succ fun n => ?_
  cases hn : step (after step s input n) (input n) with
  | none => rw [after_succ_of_none hn]
  | some t =>
    rw [after_succ_of_some hn]
    exact hstep _ _ _ hn

/-- A run stops within as many steps as a measure says that the steps decrease where an
invariant holds. -/
theorem exists_after_refused_of {Inv : S → Prop} {measure : S → ℕ} (hs : Inv s)
    (hstep : ∀ s i s', Inv s → step s i = some s' → Inv s' ∧ measure s' < measure s) :
    ∃ n ≤ measure s, step (after step s input n) (input n) = none := by
  have hinv : ∀ n, Inv (after step s input n) :=
    after_invariant hs fun s i s' h hs => (hstep s i s' h hs).1
  by_contra hgoes
  have hdrop : ∀ n ≤ measure s + 1, measure (after step s input n) + n ≤ measure s := by
    intro n
    induction n with
    | zero => exact fun _ => Nat.le_refl _
    | succ n ih =>
      intro hn
      obtain ⟨t, ht⟩ := Option.ne_none_iff_exists'.1 fun hnone => hgoes ⟨n, by omega, hnone⟩
      have hlt : measure t < measure (after step s input n) := (hstep _ _ _ (hinv n) ht).2
      have hbefore := ih (by omega)
      rw [after_succ_of_some ht]
      omega
  have hlast := hdrop (measure s + 1) (Nat.le_refl _)
  omega

section

variable {measure : S → ℕ} (hmeasure : ∀ s i s', step s i = some s' → measure s' < measure s)

include hmeasure

theorem after_antitone : Antitone fun n => measure (after step s input n) := by
  refine antitone_nat_of_succ_le fun n => ?_
  cases hn : step (after step s input n) (input n) with
  | none => rw [after_succ_of_none hn]
  | some t =>
    rw [after_succ_of_some hn]
    exact (hmeasure _ _ _ hn).le

/-- The measure is smaller at every later point than before a step that is taken. -/
theorem measure_after_lt {i j : ℕ} (hij : i < j)
    (h : step (after step s input i) (input i) ≠ none) :
    measure (after step s input j) < measure (after step s input i) := by
  obtain ⟨t, ht⟩ := Option.ne_none_iff_exists'.1 h
  calc measure (after step s input j)
      ≤ measure (after step s input (i + 1)) := after_antitone hmeasure hij
    _ < measure (after step s input i) := by
        rw [after_succ_of_some ht]
        exact hmeasure _ _ _ ht

/-- **A run stops within as many steps as its measure says.** -/
theorem exists_after_refused :
    ∃ n ≤ measure s, step (after step s input n) (input n) = none :=
  @exists_after_refused_of _ _ _ _ _ (fun _ => True) _ trivial
    fun s i s' _ hs => ⟨trivial, hmeasure s i s' hs⟩

end

end

end Runs
