import Mathlib.Data.List.Sort
import Mathlib.Data.List.Dedup

/-!
# Dynamic scalars, stripped text and sorted id sets

The values a Python program finds under a JSON key, as far as the program can
observe them: their text (`str(x)`), their truth value and whether they are one
given string.  The module also has the two text operations that id handling
rests on, `strip` and an ASCII-exact `lower`, names made from a number, and the idiom
`sorted(set(...))`.

Main results:

* `strip_strip` — stripping is idempotent, so a stripped id is its own key.
* `strip_append_toString`, `append_toString_injective` — a numbered name is not touched by
  stripping, and tells its number.
* `mem_sortedSet` and `sortedSet_eq_iff` — a sorted id set has exactly the
  members of its source and is determined by them.
-/

namespace Py

/-! ## Characters and stripping -/

/-- The characters `str.strip` removes at both ends. -/
def isSpace (c : Char) : Bool :=
  let n := c.toNat
  (9 ≤ n && n ≤ 13) || (28 ≤ n && n ≤ 32) || n == 0x85 || n == 0xA0 || n == 0x1680 ||
    (0x2000 ≤ n && n ≤ 0x200A) || n == 0x2028 || n == 0x2029 || n == 0x202F ||
    n == 0x205F || n == 0x3000

/-- `str.strip` on the characters of a text. -/
def stripChars (l : List Char) : List Char :=
  ((l.dropWhile isSpace).reverse.dropWhile isSpace).reverse

/-- `str.strip`. -/
def strip (s : String) : String := String.ofList (stripChars s.toList)

theorem dropWhile_idem {α : Type} (p : α → Bool) (l : List α) :
    (l.dropWhile p).dropWhile p = l.dropWhile p := by
  induction l with
  | nil => rfl
  | cons a l ih =>
    by_cases h : p a
    · rw [List.dropWhile_cons_of_pos h, ih]
    · rw [List.dropWhile_cons_of_neg h, List.dropWhile_cons_of_neg h]

/-- Dropping from the right never exposes a character that was to be dropped on
the left: a text whose head is kept keeps that head. -/
theorem dropWhile_stripRight {α : Type} {p : α → Bool} {l : List α}
    (h : l.dropWhile p = l) :
    ((l.reverse.dropWhile p).reverse).dropWhile p = (l.reverse.dropWhile p).reverse := by
  cases l with
  | nil => rfl
  | cons a l =>
    have ha : ¬ p a = true := by
      intro ha
      rw [List.dropWhile_cons_of_pos ha] at h
      have hlen := congrArg List.length h
      have hle : (l.dropWhile p).length ≤ l.length := (List.dropWhile_suffix p).length_le
      rw [List.length_cons] at hlen
      omega
    cases hr : (List.dropWhile p (a :: l).reverse).reverse with
    | nil => rfl
    | cons b r =>
      have hpre : (List.dropWhile p (a :: l).reverse).reverse <+: (a :: l) := by
        have hsuf : List.dropWhile p (a :: l).reverse <:+ (a :: l).reverse :=
          List.dropWhile_suffix p
        have hrev := List.reverse_prefix.2 hsuf
        rwa [List.reverse_reverse] at hrev
      rw [hr] at hpre
      have hb : b = a := by
        obtain ⟨t, ht⟩ := hpre
        exact (List.cons_eq_cons.1 ht).1
      rw [hb, List.dropWhile_cons_of_neg ha]

theorem stripChars_idem (l : List Char) : stripChars (stripChars l) = stripChars l := by
  have hkeep : (stripChars l).dropWhile isSpace = stripChars l :=
    dropWhile_stripRight (dropWhile_idem isSpace l)
  rw [stripChars, hkeep, stripChars, List.reverse_reverse, dropWhile_idem]

/-- **Stripping is idempotent.** -/
@[simp] theorem strip_strip (s : String) : strip (strip s) = strip s := by
  rw [strip, strip, String.toList_ofList, stripChars_idem]

@[simp] theorem strip_empty : strip "" = "" := by decide

/-! ## Lower case -/

/-- `str.lower` on one character, exact for every character whose lower case
contains an ASCII letter: the capitals, the Kelvin sign and the dotted capital I.
Any other character is left alone, which never turns it into an ASCII one. -/
def lowerChar (c : Char) : List Char :=
  if c = '\u212A' then ['k']
  else if c = '\u0130' then ['i', '\u0307']
  else [c.toLower]

/-- `str.lower`, exact for comparisons with ASCII text. -/
def lower (s : String) : String := String.ofList (s.toList.flatMap lowerChar)

/-- `s.startswith(p)`. -/
def startsWith (s p : String) : Bool := p.toList.isPrefixOf s.toList

/-- Stripping keeps a head that is no space. -/
theorem stripChars_cons {c : Char} (l : List Char) (h : isSpace c = false) :
    ∃ r, stripChars (c :: l) = c :: r := by
  unfold stripChars
  rw [List.dropWhile_cons_of_neg (by rw [h]; decide), List.reverse_cons, List.dropWhile_append]
  split
  · rw [List.dropWhile_cons_of_neg (by rw [h]; decide)]
    exact ⟨[], rfl⟩
  · exact ⟨_, by rw [List.reverse_append]; rfl⟩

theorem head_ofList (c : Char) (l : List Char) :
    (String.ofList (c :: l)).toList.head? = some c := by
  simp

theorem head_append {s : String} {c : Char} (h : s.toList.head? = some c) (r : String) :
    (s ++ r).toList.head? = some c := by
  simp [h]

/-- A stripped and lowered text starts as its first character does. -/
theorem startsWith_lower_strip {s p : String} {c : Char} (hs : s.toList.head? = some c)
    (hspace : isSpace c = false) (hp : p.toList.head? ≠ (lowerChar c).head?)
    (hne : p.toList ≠ []) : startsWith (lower (strip s)) p = false := by
  obtain ⟨l, hl⟩ : ∃ l, s.toList = c :: l := by
    cases hchars : s.toList with
    | nil =>
      rw [hchars] at hs
      cases hs
    | cons a l =>
      rw [hchars] at hs
      cases hs
      exact ⟨l, rfl⟩
  obtain ⟨r, hr⟩ := stripChars_cons l hspace
  obtain ⟨d, ds, hd⟩ : ∃ d ds, lowerChar c = d :: ds := by
    unfold lowerChar
    split_ifs
    · exact ⟨_, _, rfl⟩
    · exact ⟨_, _, rfl⟩
    · exact ⟨_, _, rfl⟩
  unfold startsWith lower strip
  rw [String.toList_ofList, String.toList_ofList, hl, hr, List.flatMap_cons, hd]
  cases hchars : p.toList with
  | nil => exact absurd hchars hne
  | cons a q =>
    rw [hchars, hd] at hp
    have hne' : a ≠ d := fun had => hp (by rw [had]; rfl)
    rw [List.cons_append, List.isPrefixOf_cons_cons]
    simp [hne']

/-- `s.endswith(p)`. -/
def endsWith (s p : String) : Bool := p.toList.isSuffixOf s.toList

/-! ## Numbered names -/

/-- A text that neither begins nor ends with a space is its own stripped text. -/
theorem strip_eq_self {s : String} (hfirst : ∀ c ∈ s.toList.head?, isSpace c = false)
    (hlast : ∀ c ∈ s.toList.reverse.head?, isSpace c = false) : strip s = s := by
  have hkeep : ∀ l : List Char, (∀ c ∈ l.head?, isSpace c = false) → l.dropWhile isSpace = l := by
    intro l h
    cases l with
    | nil => rfl
    | cons c l => exact List.dropWhile_cons_of_neg (by simp [h c rfl])
  unfold strip stripChars
  rw [hkeep _ hfirst, hkeep _ hlast, List.reverse_reverse, String.ofList_toList]

theorem isSpace_of_isDigit {c : Char} (h : c.isDigit = true) : isSpace c = false := by
  have hrange : 48 ≤ c.toNat ∧ c.toNat ≤ 57 := Char.isDigit_iff_toNat.1 h
  simp only [isSpace, Bool.or_eq_false_iff, Bool.and_eq_false_iff, decide_eq_false_iff_not,
    beq_eq_false_iff_ne]
  omega

/-- A numbered name is not touched by stripping. -/
theorem strip_append_toString {pre : String} {c : Char} (hpre : pre.toList.head? = some c)
    (hc : isSpace c = false) (index : ℕ) :
    strip (pre ++ toString index) = pre ++ toString index := by
  have hdigits : (toString index).toList = Nat.toDigits 10 index := Nat.toList_repr
  apply strip_eq_self
  · intro d hd
    rw [head_append hpre, Option.mem_some_iff] at hd
    rwa [← hd]
  · intro d hd
    rw [String.toList_append, hdigits, List.reverse_append, List.head?_append_of_ne_nil] at hd
    · have hmem : d ∈ (Nat.toDigits 10 index).reverse := List.mem_of_mem_head? hd
      exact isSpace_of_isDigit
        (Nat.isDigit_of_mem_toDigits (by decide) (by decide) (List.mem_reverse.1 hmem))
    · exact List.reverse_ne_nil_iff.2 Nat.toDigits_ne_nil

theorem append_toString_injective (pre : String) :
    Function.Injective fun index : ℕ => pre ++ toString index := by
  intro i j h
  have hrepr : toString i = toString j := (String.append_right_inj pre).1 h
  have hdigits : Nat.toDigits 10 i = Nat.toDigits 10 j := by
    rw [← Nat.toList_repr, ← Nat.toList_repr]
    exact congrArg String.toList hrepr
  rw [← Nat.ofDigitChars_ten_toDigits (n := i), hdigits, Nat.ofDigitChars_ten_toDigits]

theorem append_toString_ne_empty {pre : String} {c : Char} (hpre : pre.toList.head? = some c)
    (index : ℕ) : pre ++ toString index ≠ "" := by
  intro h
  have hhead := head_append hpre (toString index)
  rw [h] at hhead
  cases hhead

/-! ## Dynamic scalars -/

/-- A text that begins like a word.  No number, list or object is printed as
one, apart from the two float names. -/
def isWord (s : String) : Bool :=
  s ≠ "nan" && s ≠ "inf" &&
    match s.toList with
    | c :: _ => c.isAlpha
    | [] => true

/-- A value under a JSON key, as observable through `str`, truth and comparison
with a string.  Numbers, lists and objects are `other`: their printed text, which
is never a word, and their truth value. -/
inductive Value where
  | null
  | bool (b : Bool)
  | str (s : String)
  | other (text : String) (truthy : Bool) (not_word : isWord text = false)
  deriving DecidableEq

namespace Value

/-- `str(x)`. -/
def text : Value → String
  | null => "None"
  | bool true => "True"
  | bool false => "False"
  | str s => s
  | other t _ _ => t

/-- `bool(x)`. -/
def truthy : Value → Bool
  | null => false
  | bool b => b
  | str s => s ≠ ""
  | other _ t _ => t

@[simp] theorem text_str (s : String) : (str s).text = s := rfl

@[simp] theorem truthy_str (s : String) : (str s).truthy = decide (s ≠ "") := rfl

/-- Only the string itself prints as a given word, the constants' names apart. -/
theorem text_eq_iff {v : Value} {w : String} (hw : isWord w = true)
    (hconst : w ∉ ["None", "True", "False"]) : v.text = w ↔ v = str w := by
  simp only [List.mem_cons, List.not_mem_nil, or_false, not_or] at hconst
  obtain ⟨hnone, htrue, hfalse⟩ := hconst
  cases v with
  | null => exact iff_of_false (Ne.symm hnone) (by simp)
  | bool b =>
    cases b with
    | true => exact iff_of_false (Ne.symm htrue) (by simp)
    | false => exact iff_of_false (Ne.symm hfalse) (by simp)
  | str s => simp
  | other t b h =>
    refine iff_of_false (fun ht => ?_) (by simp)
    have ht : t = w := ht
    rw [ht, hw] at h
    exact absurd h (by decide)

end Value

/-- `str(d.get(key, dflt))` for the value `x` of the key, if it is there. -/
def getText (x : Option Value) (dflt : String) : String :=
  match x with
  | some v => v.text
  | none => dflt

/-- `str(d.get(key, "") or "")`. -/
def getTextOr (x : Option Value) : String :=
  match x with
  | some v => if v.truthy then v.text else ""
  | none => ""

/-- `bool(d.get(key, dflt))`. -/
def getTruthy (x : Option Value) (dflt : Bool) : Bool :=
  match x with
  | some v => v.truthy
  | none => dflt

@[simp] theorem getText_none (d : String) : getText none d = d := rfl
@[simp] theorem getText_some (v : Value) (d : String) : getText (some v) d = v.text := rfl
@[simp] theorem getTextOr_none : getTextOr none = "" := rfl
@[simp] theorem getTruthy_none (d : Bool) : getTruthy none d = d := rfl
@[simp] theorem getTruthy_some (v : Value) (d : Bool) :
    getTruthy (some v) d = v.truthy := rfl

@[simp] theorem getTextOr_str (s : String) : getTextOr (some (.str s)) = s := by
  by_cases h : s = "" <;> simp [getTextOr, h]

/-! ## Sorted id sets -/

/-- `sorted(set(l))`. -/
def sortedSet (l : List String) : List String := l.dedup.insertionSort (· ≤ ·)

@[simp] theorem mem_sortedSet {l : List String} {x : String} : x ∈ sortedSet l ↔ x ∈ l := by
  rw [sortedSet, List.mem_insertionSort, List.mem_dedup]

theorem sortedSet_nodup (l : List String) : (sortedSet l).Nodup :=
  (List.perm_insertionSort _ _).nodup_iff.2 (List.nodup_dedup l)

/-- **A sorted id set is determined by its members.** -/
theorem sortedSet_eq_iff {l m : List String} :
    sortedSet l = sortedSet m ↔ ∀ x, x ∈ l ↔ x ∈ m := by
  constructor
  · intro h x
    rw [← mem_sortedSet, h, mem_sortedSet]
  · intro h
    refine List.Perm.eq_of_pairwise (fun a b _ _ => String.le_antisymm)
      (List.pairwise_insertionSort _ _) (List.pairwise_insertionSort _ _) ?_
    refine (List.perm_ext_iff_of_nodup (sortedSet_nodup l) (sortedSet_nodup m)).2 fun x => ?_
    rw [mem_sortedSet, mem_sortedSet, h x]

@[simp] theorem sortedSet_sortedSet (l : List String) : sortedSet (sortedSet l) = sortedSet l :=
  sortedSet_eq_iff.2 fun _ => mem_sortedSet

@[simp] theorem sortedSet_eq_nil {l : List String} : sortedSet l = [] ↔ l = [] := by
  constructor
  · intro h
    refine List.eq_nil_iff_forall_not_mem.2 fun x hx => ?_
    have := mem_sortedSet.2 hx
    rw [h] at this
    exact absurd this List.not_mem_nil
  · rintro rfl
    rfl

end Py
