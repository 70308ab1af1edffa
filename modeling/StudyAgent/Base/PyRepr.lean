import Mathlib.Algebra.Group.Nat.Defs
import StudyAgent.Base.Text

/-!
# Printed string literals

`repr` of a string and the string literals of `ast.literal_eval`.  A literal is
scanned one character at a time; the scanner's state says which escape it is in.
Which characters beyond ASCII are printable is a table of the Python version, and
texts that are no single plain literal are left to a parameter.

Main results:

* `literalEval_repr` — **a printed string is read back.**
* `literalEval_prefix` — a proper prefix of a printed string is no literal at all.
* `infix_repr_iff` — a text without escapes occurs in a printed string exactly when
  it occurs in the string.
-/

namespace Py

/-! ## Printing -/

/-- The last `w` hexadecimal digits of `n`. -/
def hexDigits : ℕ → ℕ → List Char
  | 0, _ => []
  | w + 1, n => hexDigits w (n / 16) ++ [Nat.digitChar (n % 16)]

/-- The two quotes. -/
abbrev IsQuote (q : Char) : Prop := q = '\'' ∨ q = '"'

/-- The quote that `repr` puts around a text. -/
def quoteFor (l : List Char) : Char := if '\'' ∈ l ∧ '"' ∉ l then '"' else '\''

section Printing

variable (printable : Char → Bool)

/-- One character of a `repr`. -/
def reprChar (q c : Char) : List Char :=
  if c = q ∨ c = '\\' then ['\\', c]
  else if c = '\t' then ['\\', 't']
  else if c = '\n' then ['\\', 'n']
  else if c = '\r' then ['\\', 'r']
  else if c.toNat < 32 ∨ c.toNat = 127 then '\\' :: 'x' :: hexDigits 2 c.toNat
  else if c.toNat < 127 ∨ printable c then [c]
  else if c.toNat < 256 then '\\' :: 'x' :: hexDigits 2 c.toNat
  else if c.toNat < 65536 then '\\' :: 'u' :: hexDigits 4 c.toNat
  else '\\' :: 'U' :: hexDigits 8 c.toNat

/-- What `repr` writes between the quotes. -/
def reprBody (q : Char) (l : List Char) : List Char := l.flatMap (reprChar printable q)

/-- `repr` on the characters of a text. -/
def reprChars (l : List Char) : List Char :=
  quoteFor l :: reprBody printable (quoteFor l) l ++ [quoteFor l]

/-- `repr(s)`. -/
def repr (s : String) : String := String.ofList (reprChars printable s.toList)

end Printing

/-! ## Reading -/

/-- The value of a hexadecimal digit. -/
def hexValue (c : Char) : Option ℕ :=
  if '0' ≤ c ∧ c ≤ '9' then some (c.toNat - 48)
  else if 'a' ≤ c ∧ c ≤ 'f' then some (c.toNat - 87)
  else if 'A' ≤ c ∧ c ≤ 'F' then some (c.toNat - 55)
  else none

/-- The value of an octal digit. -/
def octalValue (c : Char) : Option ℕ :=
  if '0' ≤ c ∧ c ≤ '7' then some (c.toNat - 48) else none

/-- Where the scanner is: outside escapes, behind a backslash, or among the digits
of a numeric escape with its value so far. -/
inductive LiteralState where
  | plain
  | escape
  | hex (left value : ℕ)
  | octal (left value : ℕ)
  deriving DecidableEq

/-- What one character does. -/
inductive Move where
  | go (out : List Char) (next : LiteralState)
  | close (out : List Char)
  | bad
  | unknown
  deriving DecidableEq

/-- A character outside escapes, with what was read before it. -/
def plainMove (q c : Char) (out : List Char) : Move :=
  if c = q then .close out
  else if c = '\\' then .go out .escape
  else if c = '\n' ∨ c = '\r' ∨ c.toNat = 0 then .bad
  else .go (out ++ [c]) .plain

/-- The escapes of one character. -/
def simpleEscape (c : Char) : Option Char :=
  if c = '\\' ∨ c = '\'' ∨ c = '"' then some c
  else if c = 't' then some '\t'
  else if c = 'n' then some '\n'
  else if c = 'r' then some '\r'
  else if c = 'a' then some (Char.ofNat 7)
  else if c = 'b' then some (Char.ofNat 8)
  else if c = 'f' then some (Char.ofNat 12)
  else if c = 'v' then some (Char.ofNat 11)
  else none

/-- The character behind a backslash.  Named characters need a table, and a carriage
return depends on what follows it. -/
def escapeMove (c : Char) : Move :=
  match simpleEscape c with
  | some d => .go [d] .plain
  | none =>
    if c = '\n' then .go [] .plain
    else if c = 'x' then .go [] (.hex 2 0)
    else if c = 'u' then .go [] (.hex 4 0)
    else if c = 'U' then .go [] (.hex 8 0)
    else if c = 'N' ∨ c = '\r' then .unknown
    else if c.toNat = 0 then .bad
    else
      match octalValue c with
      | some d => .go [] (.octal 2 d)
      | none => .go ['\\', c] .plain

/-- A complete numeric escape.  A lone surrogate is no character here. -/
def codePoint (v : ℕ) : Move :=
  if 0x110000 ≤ v then .bad
  else if 0xD800 ≤ v ∧ v ≤ 0xDFFF then .unknown
  else .go [Char.ofNat v] .plain

/-- One step of the scanner. -/
def literalMove (q : Char) : LiteralState → Char → Move
  | .plain, c => plainMove q c []
  | .escape, c => escapeMove c
  | .hex left v, c =>
    match hexValue c with
    | none => .bad
    | some d => if left ≤ 1 then codePoint (16 * v + d) else .go [] (.hex (left - 1) (16 * v + d))
  | .octal left v, c =>
    match octalValue c with
    | some d =>
      if 0 < left then .go [] (.octal (left - 1) (8 * v + d))
      else plainMove q c [Char.ofNat v]
    | none => plainMove q c [Char.ofNat v]

/-- A scanned literal: its value and the text behind it, an error, or a text the
scanner does not decide. -/
inductive Scanned where
  | text (value rest : List Char)
  | bad
  | unknown
  deriving DecidableEq

/-- A scanned literal with more characters in front. -/
def Scanned.prepend (out : List Char) : Scanned → Scanned
  | .text value rest => .text (out ++ value) rest
  | .bad => .bad
  | .unknown => .unknown

/-- Scan a literal up to its closing quote. -/
def scanLiteral (q : Char) : LiteralState → List Char → Scanned
  | _, [] => .bad
  | st, c :: l =>
    match literalMove q st c with
    | .go out next => (scanLiteral q next l).prepend out
    | .close out => .text out l
    | .bad => .bad
    | .unknown => .unknown

/-- `ast.literal_eval`, as the text its value prints as: a text that is one plain string
literal, or begins with a broken one, is read here; any other text by `other`. -/
def literalEval (other : String → Option String) (text : String) : Option String :=
  match text.toList with
  | [] => other text
  | q :: l =>
    if IsQuote q then
      match scanLiteral q .plain l with
      | .text value [] => some (String.ofList value)
      | .text _ _ => other text
      | .bad => none
      | .unknown => other text
    else other text

/-! ## Reading back what was printed -/

@[simp] theorem prepend_nil (r : Scanned) : r.prepend [] = r := by
  cases r <;> rfl

theorem prepend_prepend (a b : List Char) (r : Scanned) :
    (r.prepend b).prepend a = r.prepend (a ++ b) := by
  cases r with
  | text value rest => simp [Scanned.prepend]
  | bad => rfl
  | unknown => rfl

theorem scan_go {q c : Char} {l out : List Char} {st next : LiteralState}
    (h : literalMove q st c = .go out next) :
    scanLiteral q st (c :: l) = (scanLiteral q next l).prepend out := by
  rw [scanLiteral, h]

theorem hexValue_digitChar : ∀ d < 16, hexValue (Nat.digitChar d) = some d := by decide

/-- The scanner reads digits as long as more are due. -/
theorem scan_hexDigits {q : Char} {l : List Char} {k : ℕ} (hk : 1 ≤ k) (w : ℕ) :
    ∀ n v, n < 16 ^ w → scanLiteral q (.hex (w + k) v) (hexDigits w n ++ l) =
      scanLiteral q (.hex k (16 ^ w * v + n)) l := by
  induction w generalizing l k with
  | zero =>
    intro n v hn
    have hzero : n = 0 := by simpa using hn
    simp [hexDigits, hzero]
  | succ w ih =>
    intro n v hn
    have hlow : n % 16 < 16 := Nat.mod_lt _ (by decide)
    have hhigh : n / 16 < 16 ^ w := by
      rw [Nat.pow_succ] at hn
      omega
    have hmove : literalMove q (.hex (k + 1) (16 ^ w * v + n / 16)) (Nat.digitChar (n % 16)) =
        .go [] (.hex k (16 * (16 ^ w * v + n / 16) + n % 16)) := by
      simp only [literalMove, hexValue_digitChar _ hlow]
      rw [if_neg (by omega)]
      rfl
    have hvalue : 16 * (16 ^ w * v + n / 16) + n % 16 = 16 ^ (w + 1) * v + n := by
      rw [Nat.pow_succ, Nat.mul_add, ← Nat.mul_assoc, Nat.mul_comm 16 (16 ^ w)]
      omega
    rw [hexDigits, List.append_assoc, List.singleton_append, Nat.add_assoc, Nat.add_comm 1 k,
      ih (by omega) _ _ hhigh, scan_go hmove, prepend_nil, hvalue]

theorem codePoint_toNat (c : Char) : codePoint c.toNat = .go [c] .plain := by
  have hvalid : c.toNat < 0xD800 ∨ 0xDFFF < c.toNat ∧ c.toNat < 0x110000 := c.valid
  unfold codePoint
  rw [if_neg (by omega), if_neg (by omega), Char.ofNat_toNat]

/-- A numeric escape is read back as its character. -/
theorem scan_hexEscape {q c : Char} {l : List Char} {w : ℕ} (h : c.toNat < 16 ^ (w + 1)) :
    scanLiteral q (.hex (w + 1) 0) (hexDigits (w + 1) c.toNat ++ l) =
      (scanLiteral q .plain l).prepend [c] := by
  have hlow : c.toNat % 16 < 16 := Nat.mod_lt _ (by decide)
  have hhigh : c.toNat / 16 < 16 ^ w := by
    rw [Nat.pow_succ] at h
    omega
  have hmove : literalMove q (.hex 1 (c.toNat / 16)) (Nat.digitChar (c.toNat % 16)) =
      .go [c] .plain := by
    simp only [literalMove, hexValue_digitChar _ hlow]
    rw [if_pos (le_refl 1), Nat.div_add_mod, codePoint_toNat]
  rw [hexDigits, List.append_assoc, List.singleton_append,
    scan_hexDigits (le_refl 1) w _ _ hhigh, Nat.mul_zero, Nat.zero_add, scan_go hmove]

theorem isQuote_quoteFor (l : List Char) : IsQuote (quoteFor l) := by
  unfold quoteFor
  split
  · exact Or.inr rfl
  · exact Or.inl rfl

section

variable {printable : Char → Bool} {q : Char}

theorem scan_backslash (hq : IsQuote q) (l : List Char) :
    scanLiteral q .plain ('\\' :: l) = scanLiteral q .escape l := by
  have hmove : literalMove q .plain '\\' = .go [] .escape := by
    rcases hq with rfl | rfl <;> decide
  rw [scan_go hmove, prepend_nil]

theorem scan_escape {c d : Char} (h : simpleEscape c = some d) (l : List Char) :
    scanLiteral q .escape (c :: l) = (scanLiteral q .plain l).prepend [d] := by
  refine scan_go ?_
  simp only [literalMove, escapeMove, h]

/-- A numeric escape of fixed width is read back. -/
theorem scan_numeric (hq : IsQuote q) {m c : Char} {w : ℕ}
    (hm : escapeMove m = .go [] (.hex (w + 1) 0)) (hc : c.toNat < 16 ^ (w + 1)) (l : List Char) :
    scanLiteral q .plain ('\\' :: m :: hexDigits (w + 1) c.toNat ++ l) =
      (scanLiteral q .plain l).prepend [c] := by
  have hmove : literalMove q .escape m = .go [] (.hex (w + 1) 0) := hm
  rw [List.cons_append, List.cons_append, scan_backslash hq, scan_go hmove, prepend_nil,
    scan_hexEscape hc]

/-- **One printed character is read back.** -/
theorem scan_reprChar (hq : IsQuote q) (c : Char) (l : List Char) :
    scanLiteral q .plain (reprChar printable q c ++ l) =
      (scanLiteral q .plain l).prepend [c] := by
  have hbound : c.toNat < 16 ^ 8 := by
    have hvalid : c.toNat < 0xD800 ∨ 0xDFFF < c.toNat ∧ c.toNat < 0x110000 := c.valid
    omega
  have hsimple : ∀ m d, simpleEscape m = some d →
      scanLiteral q .plain (['\\', m] ++ l) = (scanLiteral q .plain l).prepend [d] :=
    fun m d h => (scan_backslash hq (m :: l)).trans (scan_escape h l)
  unfold reprChar
  split_ifs with hquote htab hnewline hreturn hcontrol hplain hlatin hbasic
  · refine hsimple c c ?_
    unfold simpleEscape
    rcases hquote with rfl | rfl
    · rcases hq with rfl | rfl <;> decide
    · decide
  · rw [htab]
    exact hsimple 't' _ rfl
  · rw [hnewline]
    exact hsimple 'n' _ rfl
  · rw [hreturn]
    exact hsimple 'r' _ rfl
  · exact scan_numeric hq (by decide) (by omega) l
  · refine scan_go ?_
    rw [not_or] at hquote
    have hzero : ¬ (c = '\n' ∨ c = '\r' ∨ c.toNat = 0) := by
      rintro (h | h | h)
      · exact hnewline h
      · exact hreturn h
      · exact hcontrol (Or.inl (by omega))
    rw [literalMove, plainMove, if_neg hquote.1, if_neg hquote.2, if_neg hzero]
    rfl
  · exact scan_numeric hq (by decide) (by omega) l
  · exact scan_numeric hq (by decide) (by omega) l
  · exact scan_numeric hq (by decide) hbound l

theorem scan_reprBody (hq : IsQuote q) (l rest : List Char) :
    scanLiteral q .plain (reprBody printable q l ++ rest) =
      (scanLiteral q .plain rest).prepend l := by
  unfold reprBody
  induction l with
  | nil => simp
  | cons c l ih =>
    rw [List.flatMap_cons, List.append_assoc, scan_reprChar hq, ih, prepend_prepend]
    rfl

/-- A closing quote closes. -/
theorem scan_quote (rest : List Char) : scanLiteral q .plain (q :: rest) = .text [] rest := by
  simp [scanLiteral, literalMove, plainMove]

theorem scan_repr (hq : IsQuote q) (l : List Char) :
    scanLiteral q .plain (reprBody printable q l ++ [q]) = .text l [] := by
  rw [scan_reprBody hq, scan_quote]
  simp [Scanned.prepend]

/-- **A printed string is read back.** -/
theorem literalEval_repr (other : String → Option String) (s : String) :
    literalEval other (repr printable s) = some s := by
  have hquote := isQuote_quoteFor s.toList
  unfold literalEval repr reprChars
  rw [String.toList_ofList, List.cons_append]
  dsimp only
  rw [if_pos hquote, scan_repr hquote]
  exact congrArg some String.ofList_toList

/-! ## Prefixes -/

/-- A scanned literal with more text behind. -/
def Scanned.extend (t : List Char) : Scanned → Scanned
  | .text value rest => .text value (rest ++ t)
  | .bad => .bad
  | .unknown => .unknown

/-- What was decided is not changed by what follows. -/
theorem scan_append {st : LiteralState} {l : List Char} (t : List Char)
    (h : scanLiteral q st l ≠ .bad) :
    scanLiteral q st (l ++ t) = (scanLiteral q st l).extend t := by
  induction l generalizing st with
  | nil => exact absurd rfl h
  | cons c l ih =>
    rw [scanLiteral] at h
    rw [List.cons_append, scanLiteral, scanLiteral]
    cases hmove : literalMove q st c with
    | go out next =>
      rw [hmove] at h
      dsimp only at h ⊢
      have hne : scanLiteral q next l ≠ .bad := fun hbad => h (by rw [hbad]; rfl)
      rw [ih hne]
      cases scanLiteral q next l with
      | text value rest => rfl
      | bad => rfl
      | unknown => rfl
    | close out => rfl
    | bad => rfl
    | unknown => rfl

/-- **A proper prefix of a printed string is no literal.** -/
theorem literalEval_prefix {other : String → Option String} {l g : List Char} (hne : g ≠ [])
    (hpre : g <+: reprChars printable l) (hproper : g ≠ reprChars printable l) :
    literalEval other (String.ofList g) = none := by
  have hquote := isQuote_quoteFor l
  obtain ⟨t, ht⟩ := hpre
  cases g with
  | nil => exact absurd rfl hne
  | cons c g =>
    obtain ⟨hc, hrest⟩ : c = quoteFor l ∧
        g ++ t = reprBody printable (quoteFor l) l ++ [quoteFor l] := List.cons_eq_cons.1 ht
    have hbad : scanLiteral (quoteFor l) .plain g = .bad := by
      by_contra hgood
      have hwhole := scan_append t hgood
      rw [hrest, scan_repr hquote] at hwhole
      cases hscan : scanLiteral (quoteFor l) .plain g with
      | text value rest =>
        rw [hscan] at hwhole
        obtain ⟨-, hnil⟩ := Scanned.text.inj hwhole
        have ht : t = [] := (List.append_eq_nil_iff.1 hnil.symm).2
        rw [ht, List.append_nil] at hrest
        exact hproper (by rw [hc, hrest]; rfl)
      | bad => exact hgood hscan
      | unknown =>
        rw [hscan] at hwhole
        cases hwhole
    unfold literalEval
    rw [String.toList_ofList]
    dsimp only
    rw [hc, if_pos hquote, hbad]

/-! ## What a printed string contains -/

/-- The letters behind the backslash of an escape, the escaped character apart. -/
def escapeLetters : List Char := "tnrxuU0123456789abcdef".toList

theorem digitChar_mem : ∀ d < 16, Nat.digitChar d ∈ escapeLetters := by decide

theorem mem_hexDigits {w n : ℕ} {d : Char} (h : d ∈ hexDigits w n) : d ∈ escapeLetters := by
  induction w generalizing n with
  | zero => exact absurd h List.not_mem_nil
  | succ w ih =>
    rcases List.mem_append.1 h with h | h
    · exact ih h
    · rw [List.mem_singleton.1 h]
      exact digitChar_mem _ (Nat.mod_lt _ (by decide))

/-- **A character is printed as itself or as an escape.** -/
theorem reprChar_cases (q c : Char) : reprChar printable q c = [c] ∨
    ∃ tail, reprChar printable q c = '\\' :: tail ∧ ∀ d ∈ tail, d = c ∨ d ∈ escapeLetters := by
  have hletter : ∀ m : Char, m ∈ escapeLetters → ∀ w n, ∀ d ∈ m :: hexDigits w n,
      d = c ∨ d ∈ escapeLetters := by
    intro m hm w n d hd
    rcases List.mem_cons.1 hd with rfl | hd
    · exact Or.inr hm
    · exact Or.inr (mem_hexDigits hd)
  unfold reprChar
  split_ifs
  · exact Or.inr ⟨[c], rfl, fun d hd => Or.inl (List.mem_singleton.1 hd)⟩
  · exact Or.inr ⟨_, rfl, hletter 't' (by decide) 0 0⟩
  · exact Or.inr ⟨_, rfl, hletter 'n' (by decide) 0 0⟩
  · exact Or.inr ⟨_, rfl, hletter 'r' (by decide) 0 0⟩
  · exact Or.inr ⟨_, rfl, hletter 'x' (by decide) 2 _⟩
  · exact Or.inl rfl
  · exact Or.inr ⟨_, rfl, hletter 'x' (by decide) 2 _⟩
  · exact Or.inr ⟨_, rfl, hletter 'u' (by decide) 4 _⟩
  · exact Or.inr ⟨_, rfl, hletter 'U' (by decide) 8 _⟩

theorem reprChar_backslash : reprChar printable q '\\' = ['\\', '\\'] := by
  simp [reprChar]

@[simp] theorem reprBody_cons (c : Char) (l : List Char) :
    reprBody printable q (c :: l) = reprChar printable q c ++ reprBody printable q l := by
  simp [reprBody]

@[simp] theorem reprBody_append (l m : List Char) :
    reprBody printable q (l ++ m) = reprBody printable q l ++ reprBody printable q m := by
  simp [reprBody]

theorem length_le_reprBody (l : List Char) : l.length ≤ (reprBody printable q l).length := by
  induction l with
  | nil => simp
  | cons c l ih =>
    have hchar : 1 ≤ (reprChar printable q c).length := by
      rcases @reprChar_cases printable q c with h | ⟨tail, h, -⟩
      · simp [h]
      · simp [h]
    rw [reprBody_cons, List.length_append, List.length_cons]
    omega

/-- A string with a closing quote behind never begins its own escaped text. -/
theorem not_quoted_prefix (hq : IsQuote q) (l : List Char) : ∀ k,
    ¬ l ++ [q] <+: List.replicate k '\\' ++ reprBody printable q l := by
  have hne : q ≠ '\\' := by
    rcases hq with rfl | rfl <;> decide
  induction l with
  | nil =>
    intro k h
    cases k with
    | zero => simp [reprBody] at h
    | succ k => exact hne (List.cons_prefix_cons.1 h).1
  | cons c l ih =>
    intro k h
    rw [reprBody_cons] at h
    cases k with
    | zero =>
      rcases @reprChar_cases printable q c with hc | ⟨tail, hc, -⟩
      · rw [hc] at h
        exact ih 0 (List.cons_prefix_cons.1 h).2
      · have hhead : c = '\\' := by
          rw [hc] at h
          exact (List.cons_prefix_cons.1 h).1
        rw [hhead, reprChar_backslash] at h
        exact ih 1 (List.cons_prefix_cons.1 h).2
    | succ k =>
      have hhead : c = '\\' := (List.cons_prefix_cons.1 h).1
      have htail : l ++ [q] <+: List.replicate k '\\' ++
          (reprChar printable q c ++ reprBody printable q l) := (List.cons_prefix_cons.1 h).2
      rw [hhead, reprChar_backslash, ← List.append_assoc] at htail
      have hmore : List.replicate k '\\' ++ ['\\', '\\'] = List.replicate (k + 2) '\\' := by
        rw [List.replicate_add]
        rfl
      rw [hmore] at htail
      exact ih (k + 2) htail

/-- **A printed string does not begin with the string.** -/
theorem not_prefix_repr {l : List Char} (hne : l ≠ []) : ¬ l <+: reprChars printable l := by
  intro h
  cases l with
  | nil => exact hne rfl
  | cons c l =>
    have hhead : c = quoteFor (c :: l) := (List.cons_prefix_cons.1 h).1
    have hmem : quoteFor (c :: l) ∈ c :: l := by
      rw [← hhead]
      exact List.mem_cons_self
    have hboth : quoteFor (c :: l) = '\'' ∧ '"' ∈ c :: l := by
      unfold quoteFor at hmem ⊢
      by_cases hsingle : '\'' ∈ c :: l ∧ '"' ∉ c :: l
      · rw [if_pos hsingle] at hmem
        exact absurd hmem hsingle.2
      · rw [if_neg hsingle] at hmem ⊢
        exact ⟨rfl, by_contra fun hno => hsingle ⟨hmem, hno⟩⟩
    obtain ⟨a, b, hsplit, hfirst⟩ := List.eq_append_cons_of_mem hboth.2
    have hpre : a ++ ['"'] <+: '\'' :: reprBody printable '\'' a := by
      have hstart : a ++ ['"'] <+: c :: l := ⟨b, by simp [hsplit]⟩
      have hwhole : a ++ ['"'] <+: reprChars printable (c :: l) := hstart.trans h
      rw [reprChars, hboth.1, hsplit, reprBody_append, ← List.cons_append, List.append_assoc]
        at hwhole
      refine List.prefix_of_prefix_length_le hwhole (List.prefix_append _ _) ?_
      have := @length_le_reprBody printable '\'' a
      simp only [List.length_append, List.length_cons, List.length_nil]
      omega
    have hdouble : '"' ∈ '\'' :: reprBody printable '\'' a := hpre.subset (by simp)
    rcases List.mem_cons.1 hdouble with hquote | hbody
    · exact absurd hquote (by decide)
    · obtain ⟨d, hd, hmemd⟩ := List.mem_flatMap.1 hbody
      have hdne : d ≠ '"' := fun hd' => hfirst (hd' ▸ hd)
      rcases @reprChar_cases printable '\'' d with hc | ⟨tail, hc, htail⟩
      · rw [hc] at hmemd
        exact hdne (List.mem_singleton.1 hmemd).symm
      · rw [hc] at hmemd
        rcases List.mem_cons.1 hmemd with hback | hmemd
        · exact absurd hback (by decide)
        · rcases htail _ hmemd with hsame | hletter
          · exact hdne hsame.symm
          · exact absurd hletter (by decide)

/-! ## Texts without escapes -/

/-- A character that every `repr` writes as itself. -/
def IsPlain (c : Char) : Prop :=
  32 ≤ c.toNat ∧ c.toNat < 127 ∧ c ≠ '\\' ∧ ¬ IsQuote c

instance (c : Char) : Decidable (IsPlain c) := by
  unfold IsPlain
  infer_instance

theorem reprChar_plain (hq : IsQuote q) {c : Char} (h : IsPlain c) :
    reprChar printable q c = [c] := by
  obtain ⟨hlow, hhigh, hback, hquote⟩ := h
  have hne : ¬ (c = q ∨ c = '\\') := by
    rintro (rfl | h)
    · exact hquote hq
    · exact hback h
  have hcontrol : ∀ d : Char, d.toNat < 32 → c ≠ d := by
    rintro d hd rfl
    omega
  unfold reprChar
  rw [if_neg hne, if_neg (hcontrol _ (by decide)), if_neg (hcontrol _ (by decide)),
    if_neg (hcontrol _ (by decide)), if_neg (by omega), if_pos (Or.inl hhigh)]

theorem prefix_reprBody {ps l : List Char} (hback : '\\' ∉ ps)
    (h : ps <+: reprBody printable q l) : ps <+: l := by
  induction ps generalizing l with
  | nil => exact List.nil_prefix
  | cons p ps ih =>
    cases l with
    | nil => exact absurd h (by simp [reprBody])
    | cons c l =>
      rw [reprBody_cons] at h
      rcases @reprChar_cases printable q c with hc | ⟨tail, hc, -⟩
      · rw [hc] at h
        obtain ⟨rfl, hrest⟩ := List.cons_prefix_cons.1 h
        exact List.cons_prefix_cons.2 ⟨rfl, ih (fun hm => hback (List.mem_cons_of_mem _ hm)) hrest⟩
      · rw [hc] at h
        have hhead : p = '\\' := (List.cons_prefix_cons.1 h).1
        exact absurd (hhead ▸ List.mem_cons_self) hback

/-- A text cannot begin where its first character does not stand. -/
theorem infix_of_infix_append {α : Type} {p : α} {ps a b : List α} (hp : p ∉ a)
    (h : p :: ps <:+: a ++ b) : p :: ps <:+: b := by
  induction a with
  | nil => exact h
  | cons c a ih =>
    rcases List.infix_cons_iff.1 h with hpre | hinf
    · exact absurd ((List.cons_prefix_cons.1 hpre).1 ▸ List.mem_cons_self) hp
    · exact ih (fun hm => hp (List.mem_cons_of_mem c hm)) hinf

theorem infix_reprBody_iff (hq : IsQuote q) {p : Char} {ps l : List Char}
    (hplain : ∀ c ∈ p :: ps, IsPlain c) (hp : p ∉ escapeLetters) :
    p :: ps <:+: reprBody printable q l ↔ p :: ps <:+: l := by
  have hback : '\\' ∉ p :: ps := fun h => absurd (hplain _ h) (by decide)
  have hself : reprBody printable q (p :: ps) = p :: ps := by
    have hall : ∀ m : List Char, (∀ c ∈ m, IsPlain c) → reprBody printable q m = m := by
      intro m hm
      induction m with
      | nil => rfl
      | cons c m ih =>
        rw [reprBody_cons, reprChar_plain hq (hm c List.mem_cons_self),
          ih fun d hd => hm d (List.mem_cons_of_mem c hd)]
        rfl
    exact hall _ hplain
  constructor
  · intro h
    induction l with
    | nil => exact h
    | cons c l ih =>
      rw [reprBody_cons] at h
      rcases @reprChar_cases printable q c with hc | ⟨tail, hc, htail⟩
      · rw [hc, List.singleton_append] at h
        rcases List.infix_cons_iff.1 h with hpre | hinf
        · obtain ⟨rfl, hrest⟩ := List.cons_prefix_cons.1 hpre
          have hps : ps <+: l :=
            prefix_reprBody (fun hm => hback (List.mem_cons_of_mem _ hm)) hrest
          exact (List.cons_prefix_cons.2 ⟨rfl, hps⟩).isInfix
        · exact List.infix_cons (ih hinf)
      · have hnot : p ∉ '\\' :: tail := by
          intro hm
          rcases List.mem_cons.1 hm with rfl | hm
          · exact hback List.mem_cons_self
          · rcases htail p hm with rfl | hletter
            · rw [reprChar_plain hq (hplain p List.mem_cons_self)] at hc
              obtain ⟨rfl, -⟩ := List.cons_eq_cons.1 hc
              exact hback List.mem_cons_self
            · exact hp hletter
        rw [hc] at h
        exact List.infix_cons (ih (infix_of_infix_append hnot h))
  · rintro ⟨a, b, rfl⟩
    rw [reprBody_append, reprBody_append, hself]
    exact ⟨_, _, rfl⟩

/-- **A plain text occurs in a printed string exactly when it occurs in the string.** -/
theorem infix_repr_iff {p : Char} {ps l : List Char} (hplain : ∀ c ∈ p :: ps, IsPlain c)
    (hp : p ∉ escapeLetters) : p :: ps <:+: reprChars printable l ↔ p :: ps <:+: l := by
  have hquote := isQuote_quoteFor l
  have hnot : quoteFor l ∉ p :: ps := fun h => (hplain _ h).2.2.2 hquote
  refine Iff.trans ?_ (@infix_reprBody_iff printable _ hquote _ _ l hplain hp)
  unfold reprChars
  constructor
  · intro h
    rcases List.infix_concat_iff.1 h with hsuf | h
    · obtain ⟨a, ha⟩ := hsuf
      have hlast := congrArg List.getLast? ha
      rw [List.getLast?_append_cons, List.getLast?_concat] at hlast
      exact absurd (List.mem_of_getLast? hlast) hnot
    · rcases List.infix_cons_iff.1 h with hpre | h
      · exact absurd ((List.cons_prefix_cons.1 hpre).1 ▸ List.mem_cons_self) hnot
      · exact h
  · intro h
    exact (List.infix_cons h).trans (List.prefix_append _ _).isInfix

end

end Py
