import Mathlib.Order.Basic
import Mathlib.Tactic.SplitIfs

/-!
# Flows

A flow goes from node to node, each of which changes what it works on and may raise, until no
node comes next.  A flow whose nodes go down in some rank ends, and ends well if every node
hands on what the next one needs.

Main results:

* `follow_ends` — **a flow that goes down and keeps an invariant ends.**
-/

namespace Flows

variable {N W : Type}

/-- How a flow ends. -/
inductive Ending (W : Type) where
  | ended (w : W)
  | raised
  | unfinished

/-- Go on from a node, for a number of nodes at most. -/
def follow (perform : N → W → Option W) (next : N → W → Option N) : ℕ → N → W → Ending W
  | 0, _, _ => .unfinished
  | fuel + 1, n, w =>
    match perform n w with
    | none => .raised
    | some w' =>
      match next n w' with
      | none => .ended w'
      | some m => follow perform next fuel m w'

section

variable {perform : N → W → Option W} {next : N → W → Option N}

theorem follow_last {fuel : ℕ} {n : N} {w w' : W} (hperform : perform n w = some w')
    (hnext : next n w' = none) : follow perform next (fuel + 1) n w = .ended w' := by
  rw [follow, hperform]
  dsimp only
  rw [hnext]

theorem follow_next {fuel : ℕ} {n m : N} {w w' : W} (hperform : perform n w = some w')
    (hnext : next n w' = some m) :
    follow perform next (fuel + 1) n w = follow perform next fuel m w' := by
  rw [follow, hperform]
  dsimp only
  rw [hnext]

/-- **The rule of flows.**  Where every node that is reached with its invariant does not raise,
and leads to the end with the postcondition or to a lower node with the invariant of that one,
the flow ends with the postcondition. -/
theorem follow_ends {Inv : N → W → Prop} {Post : W → Prop} {rank : N → ℕ}
    (hstep : ∀ n w, Inv n w → ∃ w', perform n w = some w' ∧
      ((next n w' = none ∧ Post w') ∨ ∃ m, next n w' = some m ∧ rank m < rank n ∧ Inv m w'))
    {fuel : ℕ} {n : N} {w : W} (hfuel : rank n < fuel) (h : Inv n w) :
    ∃ w', follow perform next fuel n w = .ended w' ∧ Post w' := by
  induction fuel generalizing n w with
  | zero => exact absurd hfuel (Nat.not_lt_zero _)
  | succ fuel ih =>
    obtain ⟨w', hperform, ⟨hnext, hpost⟩ | ⟨m, hnext, hrank, hinv⟩⟩ := hstep n w h
    · exact ⟨w', follow_last hperform hnext, hpost⟩
    · rw [follow_next hperform hnext]
      exact ih (by omega) hinv

end

end Flows
