import Mathlib.Logic.Basic

/-!
# Simulation

Machines that take an input and give an output, and what it takes for all that one of them answers
to be what another answers.

Main results:

* `Trace.simulates` — **a simulation of single steps is one of whole traces**, with the same
  outputs.
* `Trace.invariant` — what every step keeps holds at the end of a trace.
-/

namespace Simulation

variable {S T I O : Type}

/-- A run with its inputs and outputs, by steps that are allowed. -/
inductive Trace (step : S → I → Option (S × O)) (allowed : S → I → Prop) :
    S → List (I × O) → S → Prop
  | nil (s : S) : Trace step allowed s [] s
  | cons {s s' s'' : S} {i : I} {o : O} {l : List (I × O)} : allowed s i →
      step s i = some (s', o) → Trace step allowed s' l s'' →
      Trace step allowed s ((i, o) :: l) s''

variable {step : S → I → Option (S × O)} {allowed : S → I → Prop}

/-- **What another machine answers to every step it answers to a whole trace.** -/
theorem Trace.simulates {step' : T → I → Option (T × O)} {R : S → T → Prop}
    (hstep : ∀ s t i s' o, R s t → allowed s i → step s i = some (s', o) →
      ∃ t', step' t i = some (t', o) ∧ R s' t')
    {s s' : S} {l : List (I × O)} (h : Trace step allowed s l s') :
    ∀ {t : T}, R s t → ∃ t', Trace step' (fun _ _ => True) t l t' ∧ R s' t' := by
  induction h with
  | nil s => exact fun {t} hR => ⟨t, .nil t, hR⟩
  | cons hallowed hs _ ih =>
    intro t hR
    obtain ⟨t', ht', hR'⟩ := hstep _ _ _ _ _ hR hallowed hs
    obtain ⟨t'', htrace, hR''⟩ := ih hR'
    exact ⟨t'', .cons trivial ht' htrace, hR''⟩

theorem Trace.invariant {Inv : S → Prop}
    (hstep : ∀ s i s' o, Inv s → allowed s i → step s i = some (s', o) → Inv s')
    {s s' : S} {l : List (I × O)} (h : Trace step allowed s l s') (hs : Inv s) : Inv s' := by
  induction h with
  | nil s => exact hs
  | cons hallowed hstep' _ ih => exact ih (hstep _ _ _ _ hs hallowed hstep')

end Simulation
