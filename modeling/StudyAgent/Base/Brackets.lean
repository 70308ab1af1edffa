import Mathlib.Data.List.Basic
import Mathlib.Data.List.Induction

/-!
# Delimiters that are opened and closed

A text is read as characters and delimiters of several kinds, each of which opens or closes.  A
stack holds the kinds that are open.

Main results:

* `closes_append` — reading goes on from the stack that it has reached.
* `closes_frame` — what is open outside is left alone.
* `exists_inside` — **where the first delimiter stays open to the end, the last one closes it**,
  and what is between them is balanced by itself.
* `staysOpen_pair` — and conversely.
-/

namespace Brackets

variable {δ α : Type}

/-- A character or a delimiter. -/
inductive Token (δ α : Type) where
  | char (a : α)
  | opening (d : δ)
  | closing (d : δ)
  deriving DecidableEq

variable [DecidableEq δ]

/-- The kinds that are open behind some tokens, the last one first; none, if a delimiter closes
that was not opened. -/
def closes : List δ → List (Token δ α) → Option (List δ)
  | st, [] => some st
  | st, .char _ :: ts => closes st ts
  | st, .opening d :: ts => closes (d :: st) ts
  | [], .closing _ :: _ => none
  | d :: st, .closing d' :: ts => if d = d' then closes st ts else none

/-- Every delimiter is opened and closed. -/
def Balanced (ts : List (Token δ α)) : Prop := closes [] ts = some []

instance (ts : List (Token δ α)) : Decidable (Balanced ts) :=
  inferInstanceAs (Decidable (closes [] ts = some []))

/-- What was opened first stays open up to the last token. -/
def StaysOpen (ts : List (Token δ α)) : Prop :=
  ∀ before behind, ts = before ++ behind → before ≠ [] → behind ≠ [] → ¬ Balanced before

variable {st : List δ} {ts a b : List (Token δ α)}

/-- **Reading goes on** from the stack that it has reached. -/
theorem closes_append (st : List δ) (a b : List (Token δ α)) :
    closes st (a ++ b) = (closes st a).bind fun st' => closes st' b := by
  induction a generalizing st with
  | nil => rfl
  | cons t a ih =>
    cases t with
    | char c => simpa [closes] using ih st
    | opening d => simpa [closes] using ih (d :: st)
    | closing d' =>
      cases st with
      | nil => simp [closes]
      | cons d st =>
        by_cases h : d = d'
        · simpa [closes, h] using ih st
        · simp [closes, h]

/-- **What is open outside is left alone.** -/
theorem closes_frame {st st' : List δ} (h : closes st ts = some st') (outer : List δ) :
    closes (st ++ outer) ts = some (st' ++ outer) := by
  induction ts generalizing st with
  | nil =>
    cases h
    rfl
  | cons t ts ih =>
    cases t with
    | char c => exact ih h
    | opening d => exact ih h
    | closing d' =>
      cases st with
      | nil => simp [closes] at h
      | cons d st =>
        simp only [closes, Option.ite_none_right_eq_some] at h
        obtain ⟨rfl, h⟩ := h
        simpa [closes] using ih h

theorem closes_of_append (h : closes st (a ++ b) ≠ none) : ∃ st', closes st a = some st' := by
  cases ha : closes st a with
  | some st' => exact ⟨st', rfl⟩
  | none =>
    rw [closes_append, ha] at h
    exact absurd rfl h

theorem balanced_chars (l : List α) : Balanced (δ := δ) (l.map .char) := by
  induction l with
  | nil => rfl
  | cons c l ih => exact ih

theorem Balanced.append (ha : Balanced a) (hb : Balanced b) : Balanced (a ++ b) := by
  rw [Balanced, closes_append, ha]
  exact hb

/-- A pair of delimiters around balanced tokens. -/
theorem balanced_pair (d : δ) (h : Balanced ts) :
    Balanced (.opening d :: (ts ++ [.closing d])) := by
  have hframe : closes [d] ts = some [d] := by
    simpa using closes_frame h [d]
  simp [Balanced, closes, closes_append, hframe]

/-- Below what was opened outside nothing closes, if the outer delimiter stays open. -/
theorem closes_above {d : δ} (hopen : ∀ before behind, ts = before ++ behind →
      closes [d] before ≠ some []) {st : List δ} (h : closes [d] ts = some st) :
    ∃ inner, closes [] ts = some inner ∧ st = inner ++ [d] := by
  induction ts using List.reverseRecOn generalizing st with
  | nil =>
    cases h
    exact ⟨[], rfl, rfl⟩
  | append_singleton ts t ih =>
    rw [closes_append, Option.bind_eq_some_iff] at h
    obtain ⟨mid, hmid, hlast⟩ := h
    have hbefore : ∀ before behind, ts = before ++ behind → closes [d] before ≠ some [] := by
      rintro before behind rfl
      exact hopen before (behind ++ [t]) (by simp)
    obtain ⟨inner, hinner, rfl⟩ := ih hbefore hmid
    have hgoes : ∀ inner', closes inner [t] = some inner' →
        ∃ out, closes [] (ts ++ [t]) = some out ∧ inner' ++ [d] = out ++ [d] := by
      intro inner' hinner'
      exact ⟨inner', by rw [closes_append, hinner]; exact hinner', rfl⟩
    cases inner with
    | nil =>
      cases t with
      | char c =>
        cases hlast
        exact hgoes [] rfl
      | opening e =>
        cases hlast
        exact hgoes [e] rfl
      | closing e =>
        -- the outer delimiter would be closed
        simp only [List.nil_append, closes, Option.ite_none_right_eq_some] at hlast
        obtain ⟨rfl, hlast⟩ := hlast
        refine absurd ?_ (hopen (ts ++ [.closing d]) [] (by simp))
        rw [closes_append, hmid]
        simp [closes]
    | cons e inner =>
      cases t with
      | char c =>
        cases hlast
        exact hgoes (e :: inner) rfl
      | opening f =>
        cases hlast
        exact hgoes (f :: e :: inner) rfl
      | closing f =>
        simp only [List.cons_append, closes, Option.ite_none_right_eq_some] at hlast
        obtain ⟨rfl, hlast⟩ := hlast
        cases hlast
        exact hgoes inner (by simp [closes])

/-- **Where the first delimiter stays open to the end, the last one closes it.** -/
theorem exists_inside {d : δ} (h : Balanced (.opening d :: ts))
    (hopen : StaysOpen (.opening d :: ts)) :
    ∃ inner, ts = inner ++ [.closing d] ∧ Balanced inner := by
  rcases List.eq_nil_or_concat' ts with rfl | ⟨inner, t, rfl⟩
  · simp [Balanced, closes] at h
  · have hclosed : closes [d] (inner ++ [t]) = some [] := h
    rw [closes_append, Option.bind_eq_some_iff] at hclosed
    obtain ⟨mid, hmid, hlast⟩ := hclosed
    have hbefore : ∀ before behind, inner = before ++ behind → closes [d] before ≠ some [] := by
      rintro before behind rfl
      exact hopen (.opening d :: before) (behind ++ [t]) (by simp) (by simp) (by simp)
    obtain ⟨out, hout, rfl⟩ := closes_above hbefore hmid
    cases t with
    | char c => simp [closes] at hlast
    | opening e => simp [closes] at hlast
    | closing e =>
      cases out with
      | nil =>
        simp only [List.nil_append, closes, Option.ite_none_right_eq_some] at hlast
        obtain ⟨rfl, -⟩ := hlast
        exact ⟨inner, rfl, hout⟩
      | cons f out => simp [closes] at hlast

/-- The delimiters of a pair belong together. -/
theorem staysOpen_pair {d : δ} (h : Balanced ts) :
    StaysOpen (.opening d :: (ts ++ [.closing d])) := by
  intro before behind hsplit hbefore hbehind hbalanced
  obtain ⟨t, rest, rfl⟩ := List.exists_cons_of_ne_nil hbefore
  rw [List.cons_append, List.cons.injEq] at hsplit
  obtain ⟨rfl, hsplit⟩ := hsplit
  obtain ⟨last, x, rfl⟩ := (List.eq_nil_or_concat' behind).resolve_left hbehind
  rw [← List.append_assoc] at hsplit
  obtain ⟨hts, -⟩ := List.append_inj' hsplit rfl
  obtain ⟨st, hst⟩ : ∃ st, closes [] rest = some st := by
    refine @closes_of_append _ _ _ [] rest last ?_
    rw [← hts, h]
    simp
  have hframe : closes [d] rest = some (st ++ [d]) := by
    simpa using closes_frame hst [d]
  have hempty : closes [d] rest = some [] := hbalanced
  rw [hframe] at hempty
  simp at hempty

end Brackets
