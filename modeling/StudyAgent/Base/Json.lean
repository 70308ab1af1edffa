import Mathlib.Data.List.TakeDrop
import Mathlib.Tactic.Common

/-!
# JSON values and their decoder

A decoder reads the JSON value that a text begins with.  What is used of it is that the text of an
object is in braces and that what follows an object is ignored.

Main results:

* `Decoder.Text.rawDecode_append` — an object is decoded from its text, whatever follows.
* `Decoder.Text.not_object_of_prefix` — **no beginning of the text of an object is decoded to
  one.**
* `Decoder.only` — the decoder that knows one text.
-/

/-- A JSON value.  Numbers are kept as they are printed. -/
inductive Json where
  | null
  | bool (b : Bool)
  | num (t : String)
  | str (s : String)
  | arr (l : List Json)
  | obj (d : List (String × Json))

namespace Json

/-- A JSON object. -/
abbrev Dict := List (String × Json)

/-- `d.get(key)`, where a key that is not there differs from `null`. -/
def get (d : Dict) (key : String) : Option Json := d.lookup key

/-- What the decoder skips around a value. -/
def isBlank (c : Char) : Bool := c = ' ' || c = '\t' || c = '\n' || c = '\r'

/-- A decoder: the value that a text begins with, and the length of its text. -/
structure Decoder where
  rawDecode : List Char → Option (Json × ℕ)
  /-- What is decoded to an object begins with a brace. -/
  object_begins : ∀ {t d n}, rawDecode t = some (obj d, n) → t.head? = some '{'
  /-- The text of an object ends with a brace. -/
  object_ends : ∀ {t d n}, rawDecode t = some (obj d, n) → (t.take n).getLast? = some '}'
  /-- What follows the text of an object is ignored. -/
  ignores : ∀ {t d n}, rawDecode t = some (obj d, n) →
    n ≤ t.length ∧ ∀ s, rawDecode (t.take n ++ s) = some (obj d, n)

namespace Decoder

variable (D : Decoder)

/-- `json.loads`: nothing but blanks around one value. -/
def loads (t : List Char) : Option Json :=
  match D.rawDecode (t.dropWhile isBlank) with
  | some (v, n) => if ((t.dropWhile isBlank).drop n).all isBlank then some v else none
  | none => none

/-- A text of an object, without blanks around it. -/
def Text (d : Dict) (t : List Char) : Prop := D.rawDecode t = some (obj d, t.length)

variable {D}

theorem rawDecode_of_loads {t : List Char} {v : Json} (h : D.loads t = some v) :
    ∃ n, D.rawDecode (t.dropWhile isBlank) = some (v, n) := by
  unfold loads at h
  split at h
  next w n hraw =>
    split_ifs at h
    obtain rfl : w = v := by simpa using h
    exact ⟨n, hraw⟩
  next => simp at h

section

variable {d : Dict} {t : List Char} (h : D.Text d t)

include h

theorem Text.head : t.head? = some '{' := D.object_begins h

theorem Text.last : t.getLast? = some '}' := by
  have hlast := D.object_ends h
  rwa [List.take_length] at hlast

theorem Text.eq_cons : ∃ rest, t = '{' :: rest := by
  have hhead := h.head
  cases t with
  | nil => simp at hhead
  | cons c rest => exact ⟨rest, by simpa using hhead⟩

/-- **An object is decoded from its text, whatever follows.** -/
theorem Text.rawDecode_append (s : List Char) : D.rawDecode (t ++ s) = some (obj d, t.length) := by
  have hignores := (D.ignores h).2 s
  rwa [List.take_length] at hignores

omit h in
/-- What is decoded to an object begins with its text. -/
theorem text_of_rawDecode {u : List Char} {n : ℕ} (hraw : D.rawDecode u = some (obj d, n)) :
    D.Text d (u.take n) := by
  obtain ⟨hn, hmore⟩ := D.ignores hraw
  have hself := hmore []
  rw [List.append_nil] at hself
  rw [Text, hself, List.length_take_of_le hn]

/-- **No beginning of the text of an object is decoded to one.** -/
theorem Text.not_object_of_prefix {q : List Char} (hq : q <+: t) (hne : q ≠ t) (d' : Dict) (n : ℕ) :
    D.rawDecode q ≠ some (obj d', n) := by
  intro hraw
  obtain ⟨hn, hmore⟩ := D.ignores hraw
  obtain ⟨s, rfl⟩ := hq
  have hwhole := hmore (q.drop n ++ s)
  rw [← List.append_assoc, List.take_append_drop, h] at hwhole
  have hlength : (q ++ s).length = n := by simpa using (Prod.mk.inj (Option.some.inj hwhole)).2
  rw [List.length_append] at hlength
  refine hne ?_
  rw [List.eq_nil_of_length_eq_zero (l := s) (by omega), List.append_nil]

end

/-- The decoder that knows one text, that of one object. -/
def only (d : Dict) (rest : List Char) : Decoder where
  rawDecode t :=
    if '{' :: rest ++ ['}'] <+: t then some (obj d, rest.length + 2) else none
  object_begins {t d' n} h := by
    split_ifs at h with hpre
    obtain ⟨s, rfl⟩ := hpre
    rfl
  object_ends {t d' n} h := by
    split_ifs at h with hpre
    obtain ⟨s, rfl⟩ := hpre
    obtain rfl : rest.length + 2 = n := by simpa using (Prod.mk.inj (Option.some.inj h)).2
    rw [List.take_left' (by simp)]
    exact List.getLast?_concat
  ignores {t d' n} h := by
    split_ifs at h with hpre
    obtain ⟨s, rfl⟩ := hpre
    obtain ⟨hd, rfl⟩ := Prod.mk.inj (Option.some.inj h)
    refine ⟨by simp, fun s' => ?_⟩
    rw [List.take_left' (by simp), if_pos (List.prefix_append _ _), hd]

theorem only_text (d : Dict) (rest : List Char) :
    (only d rest).Text d ('{' :: rest ++ ['}']) := by
  simp [Text, only]

theorem only_object {d d' : Dict} {rest t : List Char} {n : ℕ}
    (h : (only d rest).rawDecode t = some (obj d', n)) : d' = d := by
  simp only [only, Option.ite_none_right_eq_some, Option.some.injEq, Prod.mk.injEq,
    obj.injEq] at h
  exact h.2.1.symm

theorem only_loads (d : Dict) (rest : List Char) :
    (only d rest).loads ('{' :: rest ++ ['}']) = some (obj d) := by
  have hkeep : ('{' :: rest ++ ['}']).dropWhile isBlank = '{' :: rest ++ ['}'] := rfl
  rw [loads, hkeep, only_text]
  simp

end Decoder

end Json
