import Mathlib.Data.Char
import Mathlib.Data.List.Lex
import Mathlib.Tactic.IntervalCases

/-!
# Numbers padded with zeros

Numbers are written to one length, with zeros in front, so that their texts compare as they do.

Main results:

* `fixedDigits_lt` — **the texts compare as the numbers.**
* `lpad_toDigits` — padding the digits of a number from the left gives that text.
-/

namespace PaddedNumbers

/-! ## Comparing texts -/

section Compare

variable {κ : Type*} [LinearOrder κ] {a b s t : List κ}

/-- Texts of one length compare, whatever follows them. -/
theorem append_lt_append (hlength : a.length = b.length) (h : a < b) : a ++ s < b ++ t := by
  induction a generalizing b with
  | nil =>
    rw [List.length_nil, eq_comm, List.length_eq_zero_iff] at hlength
    exact absurd (hlength ▸ h) (lt_irrefl _)
  | cons x a ih =>
    cases b with
    | nil => cases hlength
    | cons y b =>
      rcases List.cons_lt_cons_iff.1 h with hxy | ⟨rfl, hab⟩
      · exact List.Lex.rel hxy
      · exact List.Lex.cons (ih (Nat.succ.inj hlength) hab)

theorem append_lt_append_left (h : s < t) : a ++ s < a ++ t := by
  induction a with
  | nil => exact h
  | cons x a ih => exact List.Lex.cons ih

/-- The same text set in at the same place leaves the comparison as it is. -/
theorem insert_lt_insert (c : List κ) (hlength : a.length = b.length) (h : a ++ s < b ++ t) :
    a ++ (c ++ s) < b ++ (c ++ t) := by
  rcases lt_trichotomy a b with hab | rfl | hab
  · exact append_lt_append hlength hab
  · refine append_lt_append_left (append_lt_append_left ?_)
    by_contra hst
    rcases (not_lt.1 hst).lt_or_eq with hts | rfl
    · exact (append_lt_append_left hts).asymm h
    · exact lt_irrefl _ h
  · exact absurd h (append_lt_append hlength.symm hab).asymm

end Compare

/-! ## Digits -/

/-- The last digits of a number, as many as asked for. -/
def fixedDigits (b : ℕ) : ℕ → ℕ → List Char
  | 0, _ => []
  | w + 1, n => fixedDigits b w (n / b) ++ [(n % b).digitChar]

variable {b w n m : ℕ}

@[simp] theorem length_fixedDigits (b w n : ℕ) : (fixedDigits b w n).length = w := by
  induction w generalizing n with
  | zero => rfl
  | succ w ih => rw [fixedDigits, List.length_append, ih, List.length_singleton]

theorem digitChar_lt (h : n < m) (hm : m < 16) : n.digitChar < m.digitChar := by
  interval_cases m <;> interval_cases n <;> decide

/-- **Texts of one length compare as the numbers do.** -/
theorem fixedDigits_lt (hb : 0 < b) (h16 : b ≤ 16) (h : n < m) (hm : m < b ^ w) :
    fixedDigits b w n < fixedDigits b w m := by
  induction w generalizing n m with
  | zero =>
    rw [pow_zero] at hm
    omega
  | succ w ih =>
    rw [fixedDigits, fixedDigits]
    have hdiv : m / b < b ^ w := by rwa [Nat.div_lt_iff_lt_mul hb, ← pow_succ]
    rcases (Nat.div_le_div_right (c := b) h.le).lt_or_eq with hlt | heq
    · exact append_lt_append (by simp) (ih hlt hdiv)
    · rw [heq]
      have hn := Nat.div_add_mod n b
      have hm' := Nat.div_add_mod m b
      rw [heq] at hn
      exact append_lt_append_left (List.Lex.rel
        (digitChar_lt (by omega) ((Nat.mod_lt m hb).trans_le h16)))

/-- `lpad`: filled up from the left, or cut off at the right. -/
def lpad (s : List Char) (width : ℕ) (fill : Char) : List Char :=
  List.replicate (width - s.length) fill ++ s.take width

theorem fixedDigits_zero (b w : ℕ) : fixedDigits b w 0 = List.replicate w '0' := by
  induction w with
  | zero => rfl
  | succ w ih => rw [fixedDigits, Nat.zero_div, ih, Nat.zero_mod, List.replicate_succ']; rfl

/-- **Padding the digits of a number gives its text of that length.** -/
theorem lpad_toDigits (hb : 1 < b) (hn : n < b ^ w) :
    lpad (Nat.toDigits b n) w '0' = fixedDigits b w n := by
  induction w generalizing n with
  | zero => simp [lpad, fixedDigits]
  | succ w ih =>
    rw [fixedDigits]
    by_cases hlt : n < b
    · rw [Nat.div_eq_of_lt hlt, fixedDigits_zero, Nat.mod_eq_of_lt hlt, lpad,
        Nat.toDigits_of_lt_base hlt, List.length_singleton, Nat.add_sub_cancel,
        List.take_succ_cons, List.take_nil]
    · have hdiv : n / b < b ^ w := by
        rwa [Nat.div_lt_iff_lt_mul (by omega), ← pow_succ]
      have hw : w ≠ 0 := by
        rintro rfl
        rw [zero_add, pow_one] at hn
        exact hlt hn
      have hlength : (Nat.toDigits b (n / b)).length ≤ w :=
        (Nat.length_toDigits_le_iff hb (Nat.pos_of_ne_zero hw)).2 hdiv
      rw [← ih hdiv, lpad, lpad, Nat.toDigits_of_base_le hb (not_lt.1 hlt), List.length_append,
        List.length_singleton, Nat.add_sub_add_right, List.take_of_length_le hlength,
        List.take_of_length_le (by simpa using hlength), List.append_assoc]

end PaddedNumbers
