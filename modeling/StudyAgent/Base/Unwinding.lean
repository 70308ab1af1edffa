import Mathlib.Data.List.Infix

/-!
# What an observer is told

Two machines that take the same events and answer each of them.  An observer sees the answers to
some events only.  Both machines tell it the same once their states stay related whatever happens,
and related states answer what it sees alike.

What the observer has been told may relate the machines more closely: `P` is what it takes for
granted on the states of the first machine, such as that both agree on all it has found out.

Main results:

* `Machine.after_invariant` — an invariant of the events holds in every run.
* `Machine.told_eq` — **related machines tell the observer the same**.
-/

namespace StudyAgent.Unwinding

variable {S S' E O : Type}

/-- A machine that answers each event. -/
structure Machine (S E O : Type) where
  step : S → E → S × O

namespace Machine

/-- The state after some events. -/
def after (m : Machine S E O) (s : S) (events : List E) : S :=
  events.foldl (fun s e => (m.step s e).1) s

/-- The answers to the events that the observer sees. -/
def told (m : Machine S E O) (sees : E → Bool) : S → List E → List O
  | _, [] => []
  | s, e :: events =>
    let (t, answer) := m.step s e
    if sees e then answer :: m.told sees t events else m.told sees t events

variable {m : Machine S E O} {m' : Machine S' E O} {sees : E → Bool} {R : S → S' → Prop}
  {P : S → Prop}

@[simp] theorem after_nil (s : S) : m.after s [] = s := rfl

@[simp] theorem after_cons (s : S) (e : E) (events : List E) :
    m.after s (e :: events) = m.after (m.step s e).1 events := rfl

/-- An invariant of the events holds in every run. -/
theorem after_invariant (hstep : ∀ s e, P s → P (m.step s e).1) {s : S} (h : P s)
    (events : List E) : P (m.after s events) := by
  induction events generalizing s with
  | nil => exact h
  | cons e events ih => exact ih (hstep s e h)

/-- What holds of all states that the prefixes of a run lead to holds along its rest. -/
theorem holds_tail {s : S} {e : E} {events : List E}
    (h : ∀ before, before <+: e :: events → P (m.after s before)) :
    ∀ before, before <+: events → P (m.after (m.step s e).1 before) := by
  intro before hbefore
  exact h (e :: before) ((List.prefix_cons_inj e).2 hbefore)

/-- **Related machines tell the observer the same.** -/
theorem told_eq
    (hstep : ∀ s s' e, R s s' → P (m.step s e).1 →
      R (m.step s e).1 (m'.step s' e).1 ∧
        (sees e = true → (m.step s e).2 = (m'.step s' e).2))
    {s : S} {s' : S'} {events : List E} (hR : R s s')
    (hP : ∀ before, before <+: events → P (m.after s before)) :
    m.told sees s events = m'.told sees s' events := by
  induction events generalizing s s' with
  | nil => rfl
  | cons e events ih =>
    have hnext : P (m.step s e).1 := hP [e] ((List.prefix_cons_inj e).2 (List.nil_prefix))
    obtain ⟨hrelated, hanswer⟩ := hstep s s' e hR hnext
    have hrest := ih hrelated (holds_tail hP)
    by_cases hsees : sees e = true
    · simp only [told, hsees, if_true, hanswer hsees, hrest]
    · simp only [told, hsees, hrest]
      rfl

end Machine

end StudyAgent.Unwinding
