import StudyAgent.Base.Brackets
import StudyAgent.Rendering.Markdown

/-!
# The math delimiters that a formula keeps

Formulas come with delimiters of their own, which are taken off before the formula is put between
dollar lines.  Only the first and the last characters are looked at, so that of a formula that
consists of several delimited pieces the first opens what the last does not close.

Main results:

* `text_read` — a text is read into characters and delimiters without loss.
* `read_split` — reading goes on from the delimiters that are open.
* `body_closed_iff` — **the delimiters of the body are closed exactly if those of the formula are
  and the two that are taken off belong together.**
* `read_pieces`, `balanced_pieces` — those of a concatenation of delimited pieces are closed.
* `two_pieces_torn` — but its first and last delimiters need not belong together.
-/

namespace StudyAgent.Rendering

open Py Brackets

/-! ## Reading -/

/-- The kinds of math delimiters. -/
inductive Delimiter where
  | inline
  | display
  | paren
  | bracket
  deriving DecidableEq

def Delimiter.opens : Delimiter → List Char
  | inline => ['$']
  | display => ['$', '$']
  | paren => ['\\', '(']
  | bracket => ['\\', '[']

def Delimiter.closes : Delimiter → List Char
  | inline => ['$']
  | display => ['$', '$']
  | paren => ['\\', ')']
  | bracket => ['\\', ']']

abbrev MathToken : Type := Token Delimiter Char

/-- What a token looks like. -/
def text : MathToken → List Char
  | .char c => [c]
  | .opening d => d.opens
  | .closing d => d.closes

/-- The stack behind a closing delimiter. -/
def close (d : Delimiter) : List Delimiter → List Delimiter
  | [] => []
  | e :: st => if e = d then st else e :: st

/-- A text as a reader takes it, with the delimiters that are open: a dollar closes inline math if
that is open, two of them open or close display math. -/
def read : List Delimiter → List Char → List MathToken
  | _, [] => []
  | .inline :: st, '$' :: l => .closing .inline :: read st l
  | .display :: st, '$' :: '$' :: l => .closing .display :: read st l
  | st, '$' :: '$' :: l => .opening .display :: read (.display :: st) l
  | st, '$' :: l => .opening .inline :: read (.inline :: st) l
  | st, '\\' :: '(' :: l => .opening .paren :: read (.paren :: st) l
  | st, '\\' :: '[' :: l => .opening .bracket :: read (.bracket :: st) l
  | st, '\\' :: ')' :: l => .closing .paren :: read (close .paren st) l
  | st, '\\' :: ']' :: l => .closing .bracket :: read (close .bracket st) l
  | st, c :: l => .char c :: read st l

/-- **A text is read without loss.** -/
theorem text_read (st : List Delimiter) (l : List Char) : (read st l).flatMap text = l := by
  fun_induction read st l <;> simp_all [text, Delimiter.opens, Delimiter.closes]

theorem text_ne_nil (t : MathToken) : text t ≠ [] := by
  cases t with
  | char c => simp [text]
  | opening d => cases d <;> simp [text, Delimiter.opens]
  | closing d => cases d <;> simp [text, Delimiter.closes]

/-- The first token, and the stack behind it. -/
theorem read_cons {st st' : List Delimiter} {l : List Char} {t : MathToken} {ts : List MathToken}
    (h : read st l = t :: ts) (hst : Brackets.closes st [t] = some st') :
    ∃ rest, ts = read st' rest := by
  unfold read at h
  split at h <;> simp only [List.cons.injEq, reduceCtorEq] at h
  all_goals obtain ⟨rfl, rfl⟩ := h
  -- a closing delimiter that is not open would not do
  case h_8 | h_9 =>
    cases st with
    | nil => simp [Brackets.closes] at hst
    | cons d st =>
      simp only [Brackets.closes, Option.ite_none_right_eq_some, Option.some.injEq] at hst
      obtain ⟨rfl, rfl⟩ := hst
      simp [close]
  all_goals simp [Brackets.closes] at hst
  all_goals subst hst
  all_goals exact ⟨_, rfl⟩

/-- **Reading goes on** from the delimiters that are open. -/
theorem read_split {st st' : List Delimiter} {l : List Char} {a b : List MathToken}
    (h : read st l = a ++ b) (hst : Brackets.closes st a = some st') :
    b = read st' (b.flatMap text) := by
  induction a generalizing st l with
  | nil =>
    cases hst
    rw [List.nil_append] at h
    rw [← h, text_read]
  | cons t a ih =>
    have hsplit := closes_append st [t] a
    rw [List.singleton_append, hst, eq_comm, Option.bind_eq_some_iff] at hsplit
    obtain ⟨st₁, hone, hrest⟩ := hsplit
    obtain ⟨rest, hread⟩ := read_cons h hone
    exact ih hread.symm hrest

/-! ## What is taken off -/

/-- A text that is taken off begins and ends with delimiters of one kind, and if these are single
dollars, not with two of them. -/
theorem cutWidth_cases (u : List Char) :
    cutWidth u = 0 ∨ ∃ d : Delimiter, cutWidth u = d.opens.length ∧ d.opens <+: u ∧
      d.closes <:+ u ∧
      (d = .inline → ['$', '$'] <+: u → ['$', '$'] <:+ u → u.length ≤ 4) := by
  unfold cutWidth isBetween
  split_ifs with hdisplay hbracket hinline hparen
  · simp only [Bool.and_eq_true, decide_eq_true_eq] at hdisplay
    exact Or.inr ⟨.display, rfl, hdisplay.1.1, hdisplay.1.2, by simp⟩
  · simp only [Bool.and_eq_true, decide_eq_true_eq] at hbracket
    exact Or.inr ⟨.bracket, rfl, hbracket.1.1, hbracket.1.2, by simp⟩
  · simp only [Bool.and_eq_true, decide_eq_true_eq] at hinline hdisplay
    refine Or.inr ⟨.inline, rfl, hinline.1.1, hinline.1.2, fun _ hfirst hlast => ?_⟩
    by_contra hlong
    exact hdisplay ⟨⟨hfirst, hlast⟩, by omega⟩
  · simp only [Bool.and_eq_true, decide_eq_true_eq] at hparen
    exact Or.inr ⟨.paren, rfl, hparen.1.1, hparen.1.2, by simp⟩
  · exact Or.inl rfl

theorem two_mul_cutWidth_le (u : List Char) : 2 * cutWidth u ≤ u.length := by
  unfold cutWidth isBetween
  split_ifs with hdisplay hbracket hinline hparen
  · simp only [Bool.and_eq_true, decide_eq_true_eq] at hdisplay
    omega
  · simp only [Bool.and_eq_true, decide_eq_true_eq] at hbracket
    omega
  · simp only [Bool.and_eq_true, decide_eq_true_eq] at hinline
    omega
  · simp only [Bool.and_eq_true, decide_eq_true_eq] at hparen
    omega
  · omega

theorem length_closes (d : Delimiter) : d.closes.length = d.opens.length := by
  cases d <;> rfl

theorem read_closes (d : Delimiter) : read [d] d.closes = [.closing d] := by
  cases d <;> rfl

/-- A text that begins with a delimiter is read so, two dollars as one. -/
theorem read_opens {d : Delimiter} {u : List Char} (h : d.opens <+: u) :
    ∃ e ts, read [] u = .opening e :: ts ∧
      (e = d ∨ d = .inline ∧ e = .display) := by
  obtain ⟨l, rfl⟩ := h
  cases d with
  | inline =>
    cases l with
    | nil => exact ⟨.inline, _, rfl, Or.inl rfl⟩
    | cons c l =>
      by_cases hc : c = '$'
      · subst hc
        exact ⟨.display, read [.display] l, rfl, Or.inr ⟨rfl, rfl⟩⟩
      · refine ⟨.inline, read [.inline] (c :: l), ?_, Or.inl rfl⟩
        simp [Delimiter.opens, read, hc]
  | display => exact ⟨.display, _, rfl, Or.inl rfl⟩
  | paren => exact ⟨.paren, _, rfl, Or.inl rfl⟩
  | bracket => exact ⟨.bracket, _, rfl, Or.inl rfl⟩

theorem within_append {a m b : List Char} {n : ℕ} (ha : a.length = n) (hb : b.length = n) :
    within n (a ++ m ++ b) = m := by
  have hlen : (a ++ m ++ b).length - 2 * n = m.length := by
    simp only [List.length_append]
    omega
  rw [within, hlen, List.append_assoc, ← ha, List.drop_left]
  exact List.take_left

theorem eq_nil_of_text_length {ts : List MathToken} (h : (ts.flatMap text).length = 0) :
    ts = [] := by
  cases ts with
  | nil => rfl
  | cons t ts =>
    rw [List.flatMap_cons, List.length_eq_zero_iff, List.append_eq_nil_iff] at h
    exact absurd h.1 (text_ne_nil t)

/-! ## The body -/

/-- The body is what is left when something is taken off at both ends of the formula; none of its
delimiters is torn, and each is opened and closed in it. -/
def ClosedBody (u body : List Char) : Prop :=
  ∃ before mid behind, read [] u = before ++ mid ++ behind ∧
    (before.flatMap text).length = cutWidth u ∧ (behind.flatMap text).length = cutWidth u ∧
    stripChars (mid.flatMap text) = body ∧ Balanced mid

/-- Where something is taken off at the ends, the first delimiter stays open up to the last; and
the text is not one of two empty delimiters of display math. -/
def EndsBelong (u : List Char) : Prop :=
  cutWidth u ≠ 0 → u ≠ ['$', '$', '$', '$'] ∧ StaysOpen (read [] u)

/-- The first token of a text that loses `d` at both ends, if the ends belong together. -/
theorem opening_of_staysOpen {u : List Char} {d : Delimiter} (hcut : cutWidth u = d.opens.length)
    (hopens : d.opens <+: u)
    (hsingle : d = .inline → ['$', '$'] <+: u → ['$', '$'] <:+ u → u.length ≤ 4)
    (hbalanced : Balanced (read [] u)) (hne : u ≠ ['$', '$', '$', '$'])
    (hopen : StaysOpen (read [] u)) :
    ∃ inner, read [] u = .opening d :: (inner ++ [.closing d]) ∧ Balanced inner := by
  obtain ⟨e, ts, hread, he⟩ := read_opens hopens
  rw [hread] at hbalanced hopen
  obtain ⟨inner, rfl, hinner⟩ := exists_inside hbalanced hopen
  rcases he with rfl | ⟨rfl, rfl⟩
  · exact ⟨inner, hread, hinner⟩
  · -- two dollars at both ends, of which only one would be taken off
    have htext : u = ['$', '$'] ++ inner.flatMap text ++ ['$', '$'] := by
      rw [← text_read [] u, hread]
      simp [text, Delimiter.opens, Delimiter.closes]
    have hlen := hsingle rfl ⟨inner.flatMap text ++ ['$', '$'], by rw [htext]; simp⟩
      ⟨['$', '$'] ++ inner.flatMap text, htext.symm⟩
    have hnil : inner.flatMap text = [] := by
      rw [htext] at hlen
      simp only [List.length_append, List.length_cons, List.length_nil] at hlen
      exact List.length_eq_zero_iff.1 (by omega)
    rw [hnil] at htext
    exact absurd htext hne

theorem closedBody_of_ends {u : List Char} (hu : stripChars u = u)
    (hbalanced : Balanced (read [] u)) (hends : EndsBelong u) :
    ClosedBody u (stripMathDelimiters u) := by
  rw [stripMathDelimiters_eq, hu]
  rcases cutWidth_cases u with hzero | ⟨d, hcut, hopens, -, hsingle⟩
  · refine ⟨[], read [] u, [], by simp, by simp [hzero], by simp [hzero], ?_, hbalanced⟩
    rw [text_read, hzero, within_zero]
  · have hpos : cutWidth u ≠ 0 := by
      rw [hcut]
      cases d <;> simp [Delimiter.opens]
    obtain ⟨hne, hopen⟩ := hends hpos
    obtain ⟨inner, hread, hinner⟩ :=
      opening_of_staysOpen hcut hopens hsingle hbalanced hne hopen
    have htext : u = d.opens ++ inner.flatMap text ++ d.closes := by
      rw [← text_read [] u, hread]
      simp [text]
    refine ⟨[.opening d], inner, [.closing d], by simpa using hread, ?_, ?_, ?_, hinner⟩
    · simp [text, hcut]
    · simp [text, hcut, length_closes]
    · rw [hcut]
      conv_rhs => rw [htext]
      rw [within_append rfl (length_closes d)]

theorem ends_of_closedBody {u body : List Char} (h : ClosedBody u body) :
    Balanced (read [] u) ∧ EndsBelong u := by
  obtain ⟨before, mid, behind, hread, hbefore, hbehind, -, hmid⟩ := h
  rcases cutWidth_cases u with hzero | ⟨d, hcut, hopens, hcloses, -⟩
  · rw [hzero] at hbefore hbehind
    rw [hread, eq_nil_of_text_length hbefore, eq_nil_of_text_length hbehind]
    exact ⟨by simpa using hmid, fun hne => absurd hzero hne⟩
  · -- the first token is all that is taken off in front
    obtain ⟨e, ts, hfirst, he⟩ := read_opens hopens
    have hone : before = [.opening d] := by
      cases before with
      | nil =>
        rw [hcut] at hbefore
        cases d <;> simp [Delimiter.opens] at hbefore
      | cons t before =>
        rw [hfirst, List.append_assoc, List.cons_append, List.cons.injEq] at hread
        obtain ⟨rfl, -⟩ := hread
        rw [hcut, List.flatMap_cons, List.length_append] at hbefore
        rcases he with rfl | ⟨rfl, rfl⟩
        · have hzero : (before.flatMap text).length = 0 := by
            change e.opens.length + _ = _ at hbefore
            omega
          rw [eq_nil_of_text_length hzero]
        · change 2 + (before.flatMap text).length = 1 at hbefore
          omega
    subst hone
    -- and what is read behind the body closes it
    have hstack : Brackets.closes [] (.opening d :: mid) = some [d] := by
      simpa [Brackets.closes] using closes_frame hmid [d]
    have hlast : behind = read [d] (behind.flatMap text) :=
      read_split (by simpa using hread) hstack
    have htext : behind.flatMap text <:+ u := by
      rw [← text_read [] u, hread, List.flatMap_append]
      exact List.suffix_append _ _
    have hsame : behind.flatMap text = d.closes := by
      refine List.IsSuffix.eq_of_length (List.suffix_of_suffix_length_le htext hcloses ?_) ?_
      · rw [hbehind, hcut, length_closes]
      · rw [hbehind, hcut, length_closes]
    rw [hsame, read_closes] at hlast
    subst hlast
    have hpair : read [] u = .opening d :: (mid ++ [.closing d]) := by simpa using hread
    refine ⟨hpair ▸ balanced_pair d hmid, fun _ => ⟨?_, hpair ▸ staysOpen_pair hmid⟩⟩
    rintro rfl
    have hwidth : cutWidth ['$', '$', '$', '$'] = 1 := by decide
    rw [hwidth] at hcut
    rw [show read [] ['$', '$', '$', '$'] =
      [.opening .display, .closing .display] from rfl] at hpair
    rw [List.cons.injEq, Token.opening.injEq] at hpair
    rw [← hpair.1] at hcut
    simp [Delimiter.opens] at hcut

section

variable (isWordChar : Char → Bool)

/-- **The delimiters of the body are closed** exactly if those of the formula are, outer fences
apart, and the two that are taken off belong together. -/
theorem body_closed_iff {formula : List Char} {mathNotation : String} {body : List Char}
    (h : renderFormulaBlock isWordChar formula mathNotation = [.math body]) :
    ClosedBody (bareFormula formula) body ↔
      Balanced (read [] (bareFormula formula)) ∧ EndsBelong (bareFormula formula) := by
  have hbody : body = stripMathDelimiters (bareFormula formula) := by
    unfold renderFormulaBlock at h
    dsimp only at h
    split_ifs at h <;> simp at h
    exact h.symm
  subst hbody
  refine ⟨ends_of_closedBody, fun hends => ?_⟩
  exact closedBody_of_ends (stripChars_idem _) hends.1 hends.2

end

/-! ## Concatenations of pieces -/

/-- A text without dollar signs and backslash brackets. -/
def Plain (t : List Char) : Prop :=
  '$' ∉ t ∧ ∀ b ∈ ['(', ')', '[', ']'], ¬ ['\\', b] <:+: t

/-- A plain text, or one between delimiters. -/
inductive Piece where
  | plain (t : List Char)
  | math (d : Delimiter) (content : List Char)

def Piece.tokens : Piece → List MathToken
  | plain t => t.map .char
  | math d content => .opening d :: (content.map .char ++ [.closing d])

/-- The text of some pieces. -/
def textOf (ps : List Piece) : List Char := (ps.flatMap Piece.tokens).flatMap text

/-- No plain text is empty or goes on in the next one, and inline math is not empty: two dollars
are read as one delimiter. -/
def Proper : List Piece → Prop
  | [] => True
  | .plain t :: ps =>
    t ≠ [] ∧ Plain t ∧ (∀ s ∈ ps.head?, ∃ d content, s = .math d content) ∧ Proper ps
  | .math d content :: ps => Plain content ∧ (d = .inline → content ≠ []) ∧ Proper ps

theorem Plain.tail {c : Char} {t : List Char} (h : Plain (c :: t)) : Plain t :=
  ⟨fun hm => h.1 (List.mem_cons_of_mem c hm), fun b hb hinf => h.2 b hb (List.infix_cons hinf)⟩

theorem flatMap_text_chars (t : List Char) :
    (t.map Token.char : List MathToken).flatMap text = t := by
  induction t with
  | nil => rfl
  | cons c t ih => simpa [text] using ih

theorem read_char {st : List Delimiter} {c : Char} {l : List Char} (hc : c ≠ '$')
    (hb : c = '\\' → ∀ b ∈ l.head?, b ∉ ['(', ')', '[', ']']) :
    read st (c :: l) = .char c :: read st l := by
  conv_lhs => unfold read
  split <;> simp_all

/-- Plain text is read character by character. -/
theorem read_plain {st : List Delimiter} {t l : List Char} (ht : Plain t)
    (hl : ∀ c ∈ l.head?, c = '$' ∨ c = '\\') :
    read st (t ++ l) = t.map .char ++ read st l := by
  induction t with
  | nil => rfl
  | cons c t ih =>
    have hc : c ≠ '$' := fun heq => ht.1 (heq ▸ List.mem_cons_self)
    have hb : c = '\\' → ∀ b ∈ (t ++ l).head?, b ∉ ['(', ')', '[', ']'] := by
      rintro rfl b hhead hmem
      cases t with
      | nil =>
        rcases hl b hhead with rfl | rfl <;> simp at hmem
      | cons e t =>
        obtain rfl : e = b := by simpa using hhead
        exact ht.2 e hmem ⟨[], t, rfl⟩
    rw [List.cons_append, read_char hc hb, ih ht.tail]
    rfl

theorem head_closes (d : Delimiter) (l : List Char) :
    ∀ c ∈ (d.closes ++ l).head?, c = '$' ∨ c = '\\' := by
  cases d <;> simp [Delimiter.closes]

theorem head_opens (d : Delimiter) (l : List Char) :
    ∀ c ∈ (d.opens ++ l).head?, c = '$' ∨ c = '\\' := by
  cases d <;> simp [Delimiter.opens]

theorem read_opens_append {d : Delimiter} {l : List Char}
    (hl : d = .inline → ∃ c ∈ l.head?, c ≠ '$') :
    read [] (d.opens ++ l) = .opening d :: read [d] l := by
  cases d with
  | inline =>
    obtain ⟨c, hhead, hc⟩ := hl rfl
    cases l with
    | nil => simp at hhead
    | cons e l =>
      obtain rfl : e = c := by simpa using hhead
      simp [Delimiter.opens, read, hc]
  | display => rfl
  | paren => rfl
  | bracket => rfl

theorem read_closes_append (d : Delimiter) (l : List Char) :
    read [d] (d.closes ++ l) = .closing d :: read [] l := by
  cases d <;> rfl

/-- A delimited piece is read so. -/
theorem read_math {d : Delimiter} {content : List Char} (hplain : Plain content)
    (hne : d = .inline → content ≠ []) (l : List Char) :
    read [] (d.opens ++ content ++ d.closes ++ l) = (Piece.math d content).tokens ++ read [] l := by
  have hfirst : d = .inline → ∃ c ∈ (content ++ (d.closes ++ l)).head?, c ≠ '$' := by
    intro hd
    obtain ⟨c, t, rfl⟩ := List.exists_cons_of_ne_nil (hne hd)
    exact ⟨c, rfl, fun heq => hplain.1 (heq ▸ List.mem_cons_self)⟩
  rw [List.append_assoc, List.append_assoc, read_opens_append hfirst,
    read_plain hplain (head_closes d l), read_closes_append]
  simp [Piece.tokens]

theorem textOf_cons_math (d : Delimiter) (content : List Char) (ps : List Piece) :
    textOf (.math d content :: ps) = d.opens ++ content ++ d.closes ++ textOf ps := by
  simp [textOf, Piece.tokens, text, flatMap_text_chars]

theorem textOf_cons_plain (t : List Char) (ps : List Piece) :
    textOf (.plain t :: ps) = t ++ textOf ps := by
  simp [textOf, Piece.tokens, flatMap_text_chars]

/-- **A concatenation is read piece by piece.** -/
theorem read_pieces {ps : List Piece} (h : Proper ps) :
    read [] (textOf ps) = ps.flatMap Piece.tokens := by
  induction ps with
  | nil => rfl
  | cons p ps ih =>
    cases p with
    | plain t =>
      obtain ⟨-, hplain, hnext, hrest⟩ := h
      have hhead : ∀ c ∈ (textOf ps).head?, c = '$' ∨ c = '\\' := by
        cases ps with
        | nil => simp [textOf]
        | cons q ps =>
          obtain ⟨d, content, rfl⟩ := hnext q rfl
          rw [textOf_cons_math, List.append_assoc, List.append_assoc]
          exact head_opens d _
      rw [textOf_cons_plain, read_plain hplain hhead, ih hrest]
      rfl
    | math d content =>
      obtain ⟨hplain, hne, hrest⟩ := h
      rw [textOf_cons_math, read_math hplain hne, ih hrest]
      rfl

/-- **The delimiters of a concatenation of pieces are closed.** -/
theorem balanced_pieces (ps : List Piece) : Balanced (ps.flatMap Piece.tokens) := by
  induction ps with
  | nil => rfl
  | cons p ps ih =>
    rw [List.flatMap_cons]
    refine Balanced.append ?_ ih
    cases p with
    | plain t => exact balanced_chars t
    | math d content => exact balanced_pair d (balanced_chars content)

theorem tokens_ne_nil {p : Piece} {ps : List Piece} (h : Proper (p :: ps)) : p.tokens ≠ [] := by
  cases p with
  | plain t =>
    intro hnil
    exact h.1 (List.map_eq_nil_iff.1 hnil)
  | math d content => simp [Piece.tokens]

/-- **The ends of a concatenation belong together only if it is one piece.** -/
theorem endsBelong_pieces {ps : List Piece} (h : Proper ps) :
    EndsBelong (textOf ps) ↔ (cutWidth (textOf ps) ≠ 0 →
      textOf ps ≠ ['$', '$', '$', '$'] ∧ ∃ d content, ps = [.math d content]) := by
  refine forall_congr' fun hcut => and_congr_right fun _ => ?_
  rw [read_pieces h]
  constructor
  · intro hopen
    obtain ⟨d, -, hopens, -⟩ := (cutWidth_cases (textOf ps)).resolve_left hcut
    obtain ⟨e, ts, hread, -⟩ := read_opens hopens
    rw [read_pieces h] at hread
    cases ps with
    | nil => simp at hread
    | cons p ps =>
      cases p with
      | plain t =>
        cases t with
        | nil => exact absurd rfl h.1
        | cons c t => simp [Piece.tokens] at hread
      | math d' content =>
        cases ps with
        | nil => exact ⟨d', content, rfl⟩
        | cons q ps =>
          -- the first piece is closed before the others begin
          refine absurd ?_ (hopen (Piece.math d' content).tokens ((q :: ps).flatMap Piece.tokens)
            rfl (by simp [Piece.tokens]) ?_)
          · simpa using balanced_pieces [Piece.math d' content]
          · intro hnil
            rw [List.flatMap_cons, List.append_eq_nil_iff] at hnil
            exact tokens_ne_nil h.2.2 hnil.1
  · rintro ⟨d, content, rfl⟩
    simpa [Piece.tokens] using staysOpen_pair (balanced_chars content)

/-! ## Several pieces -/

/-- Two inline pieces with a plain text between them. -/
def twoPieces : List Piece := [.math .paren ['a'], .plain [' ', '+', ' '], .math .paren ['b']]

theorem proper_twoPieces : Proper twoPieces := by
  simp [twoPieces, Proper, Plain]
  decide

/-- **The first and the last delimiter are taken off though they do not belong together**: the body
of `\(a\) + \(b\)` is `a\) + \(b`. -/
theorem two_pieces_torn :
    renderFormulaBlock (fun _ => false) (textOf twoPieces) "" =
        [.math ['a', '\\', ')', ' ', '+', ' ', '\\', '(', 'b']] ∧
      Proper twoPieces ∧
      ¬ ClosedBody (bareFormula (textOf twoPieces))
        ['a', '\\', ')', ' ', '+', ' ', '\\', '(', 'b'] := by
  refine ⟨by decide, proper_twoPieces, fun hclosed => ?_⟩
  have hbare : bareFormula (textOf twoPieces) = textOf twoPieces := by decide
  have hends := (ends_of_closedBody hclosed).2
  rw [hbare, endsBelong_pieces proper_twoPieces] at hends
  obtain ⟨-, d, content, hone⟩ := hends (by decide)
  simp [twoPieces] at hone

/-- Two inline pieces in a text that neither begins nor ends the formula. -/
def amongText : List Piece := .plain ['y', ' ', '=', ' '] :: (twoPieces ++ [.plain ['.']])

theorem proper_amongText : Proper amongText := by
  simp [amongText, twoPieces, Proper, Plain]
  decide

/-- Nothing is taken off, and each of the two is closed in the body. -/
theorem pieces_among_text_closed :
    renderFormulaBlock (fun _ => false) (textOf amongText) "" = [.math (textOf amongText)] ∧
      ClosedBody (bareFormula (textOf amongText)) (textOf amongText) := by
  have hrender : renderFormulaBlock (fun _ => false) (textOf amongText) "" =
      [.math (textOf amongText)] := by decide
  have hbare : bareFormula (textOf amongText) = textOf amongText := by decide
  refine ⟨hrender, (body_closed_iff _ hrender).2 ?_⟩
  rw [hbare, read_pieces proper_amongText]
  exact ⟨balanced_pieces _, fun hcut => absurd (by decide) hcut⟩

end StudyAgent.Rendering
