import Mathlib.Data.List.DropRight
import StudyAgent.Base.Json
import StudyAgent.Base.Text
import StudyAgent.Base.TextEdits

/-!
# The JSON object in an answer

A model wraps the JSON object that it is asked for: in a preamble, between code fences, with
commentary behind.  The parser takes off one outer fence, begins at the first brace or bracket, and
decodes what it finds there.

Main results:

* `parseLlmJsonObject_eq` — the parser looks for an object behind the first brace or bracket of
  what the fence stripping leaves.
* `objectIn_whole`, `objectIn_bracket`, `objectIn_torn` — what it finds: the object if its text is
  there as a whole and no bracket stands before it, and nothing otherwise.
* `object_extracted_iff` — **the object of an answer is found exactly if so.**
* `bracket_or_inner_fence_fails` — two answers whose object is not found.
-/

namespace StudyAgent.Parsing

open Py Json

/-! ## The parser -/

/-- Three backticks. -/
def fence : List Char := ['`', '`', '`']

/-- `text.rfind(p)`, if `p` is in the text. -/
def rfind (p : List Char) : List Char → Option ℕ
  | [] => if p = [] then some 0 else none
  | c :: t =>
    match rfind p t with
    | some i => some (i + 1)
    | none => if p <+: c :: t then some 0 else none

/-- What is behind the first line break, or everything if there is none. -/
def afterFirstLine (inner : List Char) : List Char :=
  match inner.dropWhile (· ≠ '\n') with
  | [] => inner
  | _ :: rest => rest

/-- `_strip_outer_fence`. -/
def stripOuterFence (text : List Char) : List Char :=
  if fence <+: text then
    match rfind fence text with
    | none => text
    | some fenceEnd =>
      if fenceEnd ≤ 2 then text
      else stripChars (afterFirstLine ((text.take fenceEnd).drop 3))
  else text

/-- `text[_find_json_start(text):]`, and nothing if there is no brace or bracket. -/
def fromJsonStart (text : List Char) : List Char :=
  text.dropWhile fun c => c ≠ '{' && c ≠ '['

def asObject : Option Json → Option Dict
  | some (.obj d) => some d
  | _ => none

section

variable (D : Decoder)

/-- `_try_raw_decode`. -/
def tryRawDecode (text : List Char) : Option Dict :=
  if fromJsonStart text = [] then none
  else asObject ((D.rawDecode (fromJsonStart text)).map Prod.fst)

/-- The loop of `_try_trim_trailing_braces`. -/
def trimTrailingBraces : ℕ → List Char → Option Dict
  | 0, _ => none
  | n + 1, candidate =>
    match D.loads candidate with
    | some v => asObject (some v)
    | none =>
      if ['}'] <:+ candidate.rdropWhile isSpace then
        trimTrailingBraces n ((candidate.rdropWhile isSpace).dropLast.rdropWhile isSpace)
      else none

/-- `_try_trim_trailing_braces`. -/
def tryTrimTrailingBraces (text : List Char) : Option Dict :=
  if fromJsonStart text = [] then none
  else trimTrailingBraces D 5 (stripChars (fromJsonStart text))

/-- What `parse_llm_json_object` does from the start of the JSON on. -/
def firstObject (text : List Char) : Option Dict :=
  tryRawDecode D text <|> tryTrimTrailingBraces D text <|> asObject (D.loads text)

/-- `parse_llm_json_object`. -/
def parseLlmJsonObject (raw : List Char) : Option Dict :=
  let text := stripOuterFence (stripChars raw)
  if text = [] then none
  else if ['{'] <+: text ∨ ['['] <+: text then firstObject D text
  else if fromJsonStart text = [] then none
  else firstObject D (fromJsonStart text)

end

/-! ## The start of the JSON -/

theorem fromJsonStart_cons {c : Char} (hc : c = '{' ∨ c = '[') (t : List Char) :
    fromJsonStart (c :: t) = c :: t := by
  rcases hc with rfl | rfl
  · rfl
  · rfl

theorem fromJsonStart_append {a : List Char} (hbrace : '{' ∉ a) (hbracket : '[' ∉ a)
    (b : List Char) : fromJsonStart (a ++ b) = fromJsonStart b := by
  induction a with
  | nil => rfl
  | cons c a ih =>
    rw [List.mem_cons, not_or] at hbrace hbracket
    rw [List.cons_append, fromJsonStart, List.dropWhile_cons_of_pos]
    · exact ih hbrace.2 hbracket.2
    · simp [Ne.symm hbrace.1, Ne.symm hbracket.1]

theorem fromJsonStart_bracket {a : List Char} (hbrace : '{' ∉ a) (hbracket : '[' ∈ a)
    (b : List Char) : ∃ rest, fromJsonStart (a ++ b) = '[' :: rest := by
  induction a with
  | nil => simp at hbracket
  | cons c a ih =>
    rw [List.mem_cons, not_or] at hbrace
    by_cases hc : c = '['
    · subst hc
      exact ⟨a ++ b, rfl⟩
    · obtain ⟨rest, hrest⟩ := ih hbrace.2 ((List.mem_cons.1 hbracket).resolve_left (Ne.symm hc))
      refine ⟨rest, ?_⟩
      rw [List.cons_append, fromJsonStart, List.dropWhile_cons_of_pos]
      · exact hrest
      · simp [Ne.symm hbrace.1, hc]

theorem fromJsonStart_cases (t : List Char) :
    fromJsonStart t = [] ∨ ∃ c rest, (c = '{' ∨ c = '[') ∧ fromJsonStart t = c :: rest := by
  cases hstart : fromJsonStart t with
  | nil => exact Or.inl rfl
  | cons c rest =>
    refine Or.inr ⟨c, rest, ?_, rfl⟩
    have hc := List.head?_dropWhile_not (fun c => c ≠ '{' && c ≠ '[') t
    rw [← fromJsonStart, hstart] at hc
    by_contra hnot
    rw [not_or] at hnot
    simp [hnot] at hc

theorem fromJsonStart_space {c : Char} (hc : isSpace c = true) (t : List Char) :
    fromJsonStart (c :: t) = fromJsonStart t := by
  refine fromJsonStart_append (a := [c]) ?_ ?_ t
  · rw [List.mem_singleton]
    rintro rfl
    exact absurd hc (by decide)
  · rw [List.mem_singleton]
    rintro rfl
    exact absurd hc (by decide)

theorem fromJsonStart_concat (t : List Char) (c : Char) :
    fromJsonStart (t ++ [c]) =
      if fromJsonStart t = [] then fromJsonStart [c] else fromJsonStart t ++ [c] := by
  simp [fromJsonStart, List.dropWhile_append]

/-- Stripping does not move the start of the JSON. -/
theorem fromJsonStart_stripChars (t : List Char) :
    fromJsonStart (stripChars t) = (fromJsonStart t).rdropWhile isSpace := by
  have hleft : ∀ t, fromJsonStart (t.dropWhile isSpace) = fromJsonStart t := by
    intro t
    induction t with
    | nil => rfl
    | cons c t ih =>
      rw [List.dropWhile_cons]
      split_ifs with hc
      · rw [ih, fromJsonStart_space hc]
      · rfl
  have hright : ∀ t : List Char,
      fromJsonStart (t.rdropWhile isSpace) = (fromJsonStart t).rdropWhile isSpace := by
    intro t
    induction t using List.reverseRecOn with
    | nil => rfl
    | append_singleton t c ih =>
      rw [List.rdropWhile_concat, fromJsonStart_concat]
      by_cases hc : isSpace c = true
      · have hone : fromJsonStart [c] = [] := fromJsonStart_space hc []
        rw [if_pos hc, ih, hone]
        split_ifs with hnil
        · rw [hnil]
        · rw [List.rdropWhile_concat_pos _ _ _ hc]
      · rw [if_neg hc, fromJsonStart_concat]
        split_ifs with hnil
        · rcases fromJsonStart_cases [c] with hone | ⟨b, rest, hb, hone⟩
          · rw [hone]
            rfl
          · have hlast : [c] = [] ++ [c] := rfl
            have hself : fromJsonStart [c] = [c] := by
              rw [fromJsonStart, List.dropWhile_cons] at hone ⊢
              split_ifs at hone ⊢
              · simp at hone
              · rfl
            rw [hself, hlast, List.rdropWhile_concat_neg _ _ _ hc]
        · rw [List.rdropWhile_concat_neg _ _ _ hc]
  exact (hright _).trans (by rw [hleft])

/-! ## What the parser finds -/

theorem asObject_eq_some {x : Option Json} {d : Dict} (h : asObject x = some d) :
    x = some (.obj d) := by
  unfold asObject at h
  split at h
  next d' => rw [Option.some.inj h]
  next => simp at h

theorem asObject_eq_none {x : Option Json} (h : ∀ d, x ≠ some (.obj d)) : asObject x = none := by
  unfold asObject
  split
  next d => exact absurd rfl (h d)
  next => rfl

section

variable {D : Decoder}

/-- What the parser finds in a text. -/
def objectIn (D : Decoder) (text : List Char) : Option Dict :=
  firstObject D ((fromJsonStart text).rdropWhile isSpace)

theorem firstObject_nil : firstObject D [] = none := by
  have hno : ∀ v, D.loads [] = some v → asObject (some v) = none := by
    intro v hv
    obtain ⟨n, hraw⟩ := Decoder.rawDecode_of_loads hv
    refine asObject_eq_none fun d hd => ?_
    rw [Option.some.inj hd] at hraw
    simpa using D.object_begins hraw
  have hloads : asObject (D.loads []) = none := by
    cases hv : D.loads [] with
    | none => rfl
    | some v => exact hno v hv
  rw [firstObject, hloads]
  rfl

/-- Nothing is found where no beginning of a text is decoded to an object. -/
theorem firstObject_eq_none {c : Char} {t : List Char} (hc : c = '{' ∨ c = '[')
    (hno : ∀ q, q <+: c :: t → ∀ d n, D.rawDecode q ≠ some (.obj d, n)) :
    firstObject D (c :: t) = none := by
  have hblank : ∀ q, q <+: c :: t → q.dropWhile isBlank = q := by
    intro q hq
    cases q with
    | nil => rfl
    | cons b q =>
      obtain rfl : b = c := (List.cons_prefix_cons.1 hq).1
      exact List.dropWhile_cons_of_neg (by rcases hc with rfl | rfl <;> decide)
  have hloads : ∀ q, q <+: c :: t → asObject (D.loads q) = none := by
    intro q hq
    refine asObject_eq_none fun d hd => ?_
    obtain ⟨n, hraw⟩ := Decoder.rawDecode_of_loads hd
    rw [hblank q hq] at hraw
    exact hno q hq d n hraw
  -- what the loop cuts off leaves a beginning of the text
  have htrim : ∀ n q, q <+: c :: t → trimTrailingBraces D n q = none := by
    intro n
    induction n with
    | zero => exact fun _ _ => rfl
    | succ n ih =>
      intro q hq
      have hq' := hloads q hq
      rw [trimTrailingBraces]
      split
      next v hv => rwa [hv] at hq'
      next =>
        split_ifs
        · refine ih _ (List.IsPrefix.trans ?_ hq)
          exact (List.rdropWhile_prefix _ _).trans
            ((List.dropLast_prefix _).trans (List.rdropWhile_prefix _ _))
        · rfl
  have hstrip : stripChars (c :: t) <+: c :: t := by
    have hspace : isSpace c = false := by rcases hc with rfl | rfl <;> decide
    have hkeep : (c :: t).dropWhile isSpace = c :: t :=
      List.dropWhile_cons_of_neg (by simp [hspace])
    rw [stripChars, hkeep]
    exact List.rdropWhile_prefix _ _
  have hdecode : asObject ((D.rawDecode (c :: t)).map Prod.fst) = none := by
    refine asObject_eq_none fun d hd => ?_
    obtain ⟨⟨v, n⟩, hraw, rfl⟩ := Option.map_eq_some_iff.1 hd
    exact hno _ List.prefix_rfl d n hraw
  rw [firstObject, tryRawDecode, tryTrimTrailingBraces, fromJsonStart_cons hc, if_neg (by simp),
    if_neg (by simp), hdecode, htrim 5 _ hstrip, hloads _ List.prefix_rfl]
  rfl

/-- Spaces around the text of an object are stripped, the text itself is not. -/
theorem rstrip_text {d : Dict} {t : List Char} (ht : D.Text d t) (b : List Char) :
    (t ++ b).rdropWhile isSpace = t ++ b.rdropWhile isSpace := by
  refine TextEdits.rdropWhile_append_of_last fun c hc => ?_
  rw [ht.last, Option.mem_some_iff] at hc
  rw [← hc]
  decide

theorem lstrip_append_cons {c : Char} (hc : isSpace c = false) (a b : List Char) :
    (a ++ c :: b).dropWhile isSpace = a.dropWhile isSpace ++ c :: b := by
  rw [List.dropWhile_append, List.dropWhile_cons_of_neg (by simp [hc])]
  split_ifs with hnil
  · rw [List.isEmpty_iff.1 hnil, List.nil_append]
  · rfl

theorem lstrip_text {d : Dict} {t : List Char} (ht : D.Text d t) (a b : List Char) :
    (a ++ (t ++ b)).dropWhile isSpace = a.dropWhile isSpace ++ (t ++ b) := by
  obtain ⟨rest, rfl⟩ := ht.eq_cons
  exact lstrip_append_cons (by decide) a (rest ++ b)

/-- The object is found if its text is there as a whole and no bracket stands before it. -/
theorem objectIn_whole {d : Dict} {t : List Char} (ht : D.Text d t) {a : List Char}
    (hbrace : '{' ∉ a) (hbracket : '[' ∉ a) (b : List Char) :
    objectIn D (a ++ (t ++ b)) = some d := by
  have hself : ∀ s, fromJsonStart (t ++ s) = t ++ s := by
    intro s
    obtain ⟨rest, rfl⟩ := ht.eq_cons
    exact fromJsonStart_cons (Or.inl rfl) _
  have hne : ∀ s, t ++ s ≠ [] := by
    intro s
    obtain ⟨rest, rfl⟩ := ht.eq_cons
    simp
  rw [objectIn, fromJsonStart_append hbrace hbracket, hself, rstrip_text ht, firstObject,
    tryRawDecode, hself, if_neg (hne _), ht.rawDecode_append]
  rfl

/-- Nothing is found behind a bracket. -/
theorem objectIn_bracket {a : List Char} (hbrace : '{' ∉ a) (hbracket : '[' ∈ a) (b : List Char) :
    objectIn D (a ++ b) = none := by
  obtain ⟨rest, hrest⟩ := fromJsonStart_bracket hbrace hbracket b
  have hkeep : ('[' :: rest).rdropWhile isSpace = '[' :: rest.rdropWhile isSpace :=
    TextEdits.rdropWhile_append_of_last (a := ['[']) (b := rest) fun c hc => by
      obtain rfl : '[' = c := by simpa using hc
      decide
  rw [objectIn, hrest, hkeep]
  refine firstObject_eq_none (Or.inr rfl) fun q hq d n hraw => ?_
  have hhead := D.object_begins hraw
  cases q with
  | nil => simp at hhead
  | cons c q =>
    obtain rfl : c = '[' := (List.cons_prefix_cons.1 hq).1
    simp at hhead

/-- Nothing is found in a text that is torn off before its end. -/
theorem objectIn_torn {d : Dict} {t : List Char} (ht : D.Text d t) {a : List Char}
    (hbrace : '{' ∉ a) {q : List Char} (hq : q <+: t) (hne : q ≠ t) :
    objectIn D (a ++ q) = none := by
  by_cases hbracket : '[' ∈ a
  · exact objectIn_bracket hbrace hbracket q
  · rw [objectIn, fromJsonStart_append hbrace hbracket]
    obtain ⟨rest, hcons⟩ := ht.eq_cons
    cases q with
    | nil => exact firstObject_nil
    | cons c q =>
      obtain rfl : c = '{' := by
        rw [hcons] at hq
        exact (List.cons_prefix_cons.1 hq).1
      have hkeep : ('{' :: q).rdropWhile isSpace = '{' :: q.rdropWhile isSpace :=
        TextEdits.rdropWhile_append_of_last (a := ['{']) (b := q) fun c hc => by
          obtain rfl : '{' = c := by simpa using hc
          decide
      rw [fromJsonStart_cons (Or.inl rfl), hkeep]
      refine firstObject_eq_none (Or.inl rfl) fun q' hq' d' n => ?_
      rw [← hkeep] at hq'
      have hshorter : q' <+: '{' :: q := hq'.trans (List.rdropWhile_prefix _ _)
      refine ht.not_object_of_prefix (hshorter.trans hq) ?_ d' n
      rintro rfl
      exact hne (hq.eq_of_length (le_antisymm hq.length_le hshorter.length_le))

/-- The parser looks for an object in what the fence stripping leaves. -/
theorem parseLlmJsonObject_eq {raw text : List Char}
    (h : stripOuterFence (stripChars raw) = stripChars text) :
    parseLlmJsonObject D raw = objectIn D text := by
  rw [parseLlmJsonObject, h, objectIn, ← fromJsonStart_stripChars]
  split_ifs with hnil hstart hnone
  · rw [hnil]
    exact firstObject_nil.symm
  · have hself : fromJsonStart (stripChars text) = stripChars text := by
      rcases hstart with ⟨s, hs⟩ | ⟨s, hs⟩
      · rw [← hs]
        exact fromJsonStart_cons (Or.inl rfl) s
      · rw [← hs]
        exact fromJsonStart_cons (Or.inr rfl) s
    rw [hself]
  · rw [hnone, firstObject_nil]
  · rfl

end

/-! ## Fences and lines -/

theorem fence_prefix_of_append {a b : List Char} (hb : b.head? ≠ some '`')
    (h : fence <+: a ++ b) : fence <+: a := by
  cases b with
  | nil => rwa [List.append_nil] at h
  | cons c b =>
    have hc : '`' ≠ c := by
      rintro rfl
      exact hb rfl
    rcases a with _ | ⟨x, _ | ⟨y, _ | ⟨z, l⟩⟩⟩
    · simp [fence, hc] at h
    · simp [fence, hc] at h
    · simp [fence, hc] at h
    · simpa [fence] using h

theorem afterFirstLine_of_not_mem {l : List Char} (h : '\n' ∉ l) : afterFirstLine l = l := by
  have hnil : l.dropWhile (· ≠ '\n') = [] := by
    rw [List.dropWhile_eq_nil_iff]
    intro c hc
    simpa using ne_of_mem_of_not_mem hc h
  rw [afterFirstLine, hnil]

theorem afterFirstLine_append {a : List Char} (h : '\n' ∈ a) (b : List Char) :
    afterFirstLine (a ++ b) = afterFirstLine a ++ b := by
  have hne : a.dropWhile (· ≠ '\n') ≠ [] := by
    intro hnil
    simpa using List.dropWhile_eq_nil_iff.1 hnil _ h
  obtain ⟨c, rest, hcons⟩ := List.exists_cons_of_ne_nil hne
  have happend : (a ++ b).dropWhile (· ≠ '\n') = c :: rest ++ b := by
    rw [List.dropWhile_append, hcons]
    rfl
  rw [afterFirstLine, afterFirstLine, hcons, happend]
  rfl

theorem afterFirstLine_suffix (l : List Char) : afterFirstLine l <:+ l := by
  rw [afterFirstLine]
  split
  next => exact List.suffix_rfl
  next c rest hcons =>
    exact (List.suffix_cons c rest).trans (hcons ▸ List.dropWhile_suffix _)

/-! ## Answers -/

/-- An answer: the text of an object, with a preamble, an opening fence with the tag of a language,
and a closing fence with commentary, each of which may be missing. -/
structure Wrapped (D : Decoder) where
  preamble : List Char := []
  tag : Option (List Char) := none
  lead : List Char := []
  text : List Char
  trail : List Char := []
  commentary : Option (List Char) := none
  object : Dict
  preamble_no_brace : '{' ∉ preamble ∧ '}' ∉ preamble := by decide
  tag_line : ∀ l ∈ tag, '\n' ∉ l ∧ '{' ∉ l ∧ '}' ∉ l := by decide
  lead_blank : lead.all isBlank = true := by decide
  trail_blank : trail.all isBlank = true := by decide
  text_object : D.Text object text

namespace Wrapped

variable {D : Decoder} (w : Wrapped D)

def opening : List Char :=
  match w.tag with
  | some l => fence ++ l ++ ['\n']
  | none => []

def closing : List Char :=
  match w.commentary with
  | some l => fence ++ l
  | none => []

/-- The answer. -/
def raw : List Char := w.preamble ++ w.opening ++ w.lead ++ (w.text ++ (w.trail ++ w.closing))

/-- What stands before the object in the stripped answer. -/
def before : List Char := (w.preamble ++ w.opening ++ w.lead).dropWhile isSpace

/-- The stripped answer. -/
def body : List Char := w.before ++ (w.text ++ (w.trail ++ w.closing).rdropWhile isSpace)

/-- Where the last fence of the stripped answer begins. -/
def lastFence : ℕ := (rfind fence w.body).getD 0

/-- A fence is stripped: the answer begins with one, and another one stands behind. -/
def Fenced : Prop := fence <+: w.before ∧ 2 < w.lastFence

instance : Decidable w.Fenced := inferInstanceAs (Decidable (_ ∧ _))

/-- What is between the outer fences. -/
def inner : List Char := (w.body.take w.lastFence).drop 3

/-- The text of the object is left as a whole, and no bracket before it. -/
def Intact : Prop :=
  if w.Fenced then
    w.before.length + w.text.length ≤ w.lastFence ∧ ('\n' ∈ w.before.drop 3 ∨ '\n' ∉ w.inner) ∧
      '[' ∉ afterFirstLine (w.before.drop 3)
  else '[' ∉ w.before

instance : Decidable w.Intact := inferInstanceAs (Decidable (if w.Fenced then _ else _))

/-- The first line break between the outer fences stands in the text of the object or behind it. -/
def CutLate : Prop := w.Fenced ∧ '\n' ∉ w.before.drop 3 ∧ '\n' ∈ w.inner

theorem brace_not_mem_before : '{' ∉ w.before := by
  intro hmem
  have hmem := (List.dropWhile_sublist _).mem hmem
  rw [List.mem_append, List.mem_append] at hmem
  rcases hmem with (hmem | hmem) | hmem
  · exact w.preamble_no_brace.1 hmem
  · unfold opening at hmem
    split at hmem
    next l htag => simp [fence, (w.tag_line l htag).2.1] at hmem
    next => simp at hmem
  · exact absurd (List.all_eq_true.1 w.lead_blank _ hmem) (by decide)

theorem stripChars_raw : stripChars w.raw = w.body := by
  have hlast : ∀ c ∈ (w.before ++ w.text).getLast?, isSpace c = false := by
    intro c hc
    rw [List.getLast?_append, w.text_object.last, Option.some_or, Option.mem_some_iff] at hc
    rw [← hc]
    decide
  rw [stripChars, raw, lstrip_text w.text_object, ← before, ← List.append_assoc]
  exact (TextEdits.rdropWhile_append_of_last hlast).trans (List.append_assoc _ _ _)

/-- The answer begins with a fence if what stands before the object does. -/
theorem fence_prefix_body : fence <+: w.body ↔ fence <+: w.before := by
  obtain ⟨rest, hcons⟩ := w.text_object.eq_cons
  rw [body, hcons]
  exact ⟨fence_prefix_of_append (by simp), fun hpre => hpre.trans (List.prefix_append _ _)⟩

/-- What the fence stripping leaves, up to spaces around it. -/
theorem stripOuterFence_raw :
    stripOuterFence (stripChars w.raw) =
      stripChars (if w.Fenced then afterFirstLine w.inner else w.body) := by
  have hself : stripChars w.body = w.body := by
    rw [← stripChars_raw, stripChars_idem]
  rw [stripChars_raw, stripOuterFence]
  simp only [fence_prefix_body]
  by_cases hfenced : w.Fenced
  · have hlast := hfenced.2
    rw [if_pos hfenced, if_pos hfenced.1, inner, lastFence]
    rw [lastFence] at hlast
    cases hrfind : rfind fence w.body with
    | none => simp [hrfind] at hlast
    | some e =>
      rw [hrfind, Option.getD_some] at hlast
      exact if_neg (by omega)
  · rw [if_neg hfenced, hself]
    split_ifs with hfence
    · cases hrfind : rfind fence w.body with
      | none => rfl
      | some e =>
        refine if_pos (Nat.le_of_not_lt fun he => hfenced ⟨hfence, ?_⟩)
        rwa [lastFence, hrfind, Option.getD_some]
    · rfl

theorem three_le_before (h : w.Fenced) : 3 ≤ w.before.length := h.1.length_le

/-- Between the fences the object is left as a whole, or torn off, or not there at all. -/
theorem inner_cases (h : w.Fenced) :
    (w.before.length + w.text.length ≤ w.lastFence ∧
      ∃ s, w.inner = w.before.drop 3 ++ (w.text ++ s)) ∨
    (w.lastFence < w.before.length + w.text.length ∧
      ((∃ q, q <+: w.text ∧ q ≠ w.text ∧ w.inner = w.before.drop 3 ++ q) ∨ '{' ∉ w.inner)) := by
  have hthree := w.three_le_before h
  rw [inner, body]
  by_cases hwhole : w.before.length + w.text.length ≤ w.lastFence
  · refine Or.inl ⟨hwhole, ((w.trail ++ w.closing).rdropWhile isSpace).take
      (w.lastFence - w.before.length - w.text.length), ?_⟩
    rw [List.take_append, List.take_append, List.take_of_length_le (by omega),
      List.take_of_length_le (by omega), List.drop_append_of_le_length hthree]
  · refine Or.inr ⟨by omega, ?_⟩
    by_cases hin : w.before.length ≤ w.lastFence
    · refine Or.inl ⟨w.text.take (w.lastFence - w.before.length), List.take_prefix _ _, ?_, ?_⟩
      · intro heq
        have hlen := congrArg List.length heq
        rw [List.length_take] at hlen
        omega
      · rw [List.take_append, List.take_append, List.take_of_length_le hin,
          List.drop_append_of_le_length hthree]
        have hzero : w.lastFence - w.before.length - w.text.length = 0 := by omega
        rw [hzero, List.take_zero, List.append_nil]
    · refine Or.inr fun hmem => w.brace_not_mem_before ?_
      rw [List.take_append_of_le_length (by omega)] at hmem
      exact List.mem_of_mem_take (List.mem_of_mem_drop hmem)

/-- A cut through the first line is in front of the object, if it is not late. -/
theorem afterFirstLine_inner (hline : '\n' ∈ w.before.drop 3 ∨ '\n' ∉ w.inner) {b : List Char}
    (hinner : w.inner = w.before.drop 3 ++ b) :
    afterFirstLine w.inner = afterFirstLine (w.before.drop 3) ++ b := by
  rcases hline with hline | hline
  · rw [hinner, afterFirstLine_append hline]
  · have hline' := hline
    rw [hinner, List.mem_append, not_or] at hline'
    rw [afterFirstLine_of_not_mem hline, afterFirstLine_of_not_mem hline'.1, hinner]

theorem brace_not_mem_afterFirstLine : '{' ∉ afterFirstLine (w.before.drop 3) := fun hmem =>
  w.brace_not_mem_before (List.mem_of_mem_drop ((afterFirstLine_suffix _).mem hmem))

/-- The object is found if its text is left as a whole. -/
theorem extracted_of_intact (h : w.Intact) : parseLlmJsonObject D w.raw = some w.object := by
  rw [parseLlmJsonObject_eq w.stripOuterFence_raw]
  unfold Intact at h
  split_ifs at h ⊢ with hfenced
  · obtain ⟨hwhole, hline, hbracket⟩ := h
    rcases w.inner_cases hfenced with ⟨-, s, hinner⟩ | ⟨htorn, -⟩
    · rw [w.afterFirstLine_inner hline hinner]
      exact objectIn_whole w.text_object w.brace_not_mem_afterFirstLine hbracket s
    · omega
  · exact objectIn_whole w.text_object w.brace_not_mem_before h _

/-- And nothing is found otherwise, unless the first line ends in the text of the object. -/
theorem lost_of_not_intact (h : ¬ w.Intact) (hcut : ¬ w.CutLate) :
    parseLlmJsonObject D w.raw = none := by
  rw [parseLlmJsonObject_eq w.stripOuterFence_raw]
  unfold Intact at h
  split_ifs at h ⊢ with hfenced
  · have hbrace := w.brace_not_mem_afterFirstLine
    have hline : '\n' ∈ w.before.drop 3 ∨ '\n' ∉ w.inner := by
      by_contra hnot
      rw [not_or, not_not] at hnot
      exact hcut ⟨hfenced, hnot⟩
    rcases w.inner_cases hfenced with ⟨hwhole, s, hinner⟩ | ⟨-, ⟨q, hq, hne, hinner⟩ | hfree⟩
    · have hbracket : '[' ∈ afterFirstLine (w.before.drop 3) := by
        by_contra hbracket
        exact h ⟨hwhole, hline, hbracket⟩
      rw [w.afterFirstLine_inner hline hinner]
      exact objectIn_bracket hbrace hbracket _
    · rw [w.afterFirstLine_inner hline hinner]
      exact objectIn_torn w.text_object hbrace hq hne
    · have hfree' : '{' ∉ afterFirstLine w.inner := fun hmem =>
        hfree ((afterFirstLine_suffix _).mem hmem)
      have hne : [] ≠ w.text := by
        obtain ⟨rest, hcons⟩ := w.text_object.eq_cons
        rw [hcons]
        simp
      have hnone := objectIn_torn w.text_object hfree' List.nil_prefix hne
      rwa [List.append_nil] at hnone
  · exact objectIn_bracket w.brace_not_mem_before (not_not.1 h) _

/-- The first line ends so late only if the preamble begins with a fence of its own. -/
theorem preamble_of_cutLate (h : w.CutLate) :
    w.tag = none ∧ fence <+: w.preamble.dropWhile isSpace := by
  obtain ⟨⟨hfence, -⟩, hline, -⟩ := h
  have hbreak : '\n' ∉ w.before := by
    obtain ⟨rest, hrest⟩ := hfence
    rw [← hrest] at hline ⊢
    simpa [fence] using hline
  cases htag : w.tag with
  | some l =>
    have hbefore : w.before = w.preamble.dropWhile isSpace ++ '`' :: (['`', '`'] ++ l ++ ['\n'] ++
        w.lead) := by
      rw [before, opening, htag, ← lstrip_append_cons (by decide)]
      simp [fence]
    rw [hbefore] at hbreak
    simp at hbreak
  | none =>
    refine ⟨rfl, ?_⟩
    have hblank : ∀ c ∈ w.lead, c ≠ '`' := by
      rintro c hc rfl
      exact absurd (List.all_eq_true.1 w.lead_blank _ hc) (by decide)
    rw [before, opening, htag, List.append_nil, List.dropWhile_append] at hfence
    split_ifs at hfence with hnil
    · have hmem : '`' ∈ w.lead.dropWhile isSpace := hfence.subset (by simp [fence])
      exact absurd rfl (hblank _ ((List.dropWhile_sublist _).mem hmem))
    · exact fence_prefix_of_append (fun hhead => hblank _ (List.mem_of_head? hhead) rfl) hfence

end Wrapped

/-- **The object of an answer is found exactly if its text is left as a whole, and no bracket before
it.**  Where the preamble begins with a fence of its own, the first line may end in the text of the
object; what is found then depends on the objects in the rest. -/
theorem object_extracted_iff {D : Decoder} (w : Wrapped D) :
    (w.Intact → parseLlmJsonObject D w.raw = some w.object) ∧
      (¬ w.CutLate → (parseLlmJsonObject D w.raw = some w.object ↔ w.Intact)) ∧
      (w.CutLate → w.tag = none ∧ fence <+: w.preamble.dropWhile isSpace) := by
  refine ⟨w.extracted_of_intact, fun hcut => ⟨fun hfound => ?_, w.extracted_of_intact⟩,
    w.preamble_of_cutLate⟩
  by_contra hnot
  rw [w.lost_of_not_intact hnot hcut] at hfound
  simp at hfound

/-! ## Answers whose object is found, and is not -/

def noteDecoder : Decoder := Decoder.only [("a", .num "1")] "\"a\": 1".toList

def codeDecoder : Decoder := Decoder.only [("code", .str "```py")] "\"code\": \"```py\"".toList

/-- `{"a": 1}`. -/
def noteText : List Char := "\x7b\"a\": 1\x7d".toList

/-- An object with a fence in a string. -/
def codeText : List Char := "\x7b\"code\": \"```py\"\x7d".toList

/-- A preamble with a bracket. -/
def behindBracket : Wrapped noteDecoder where
  preamble := "Note [see below]: ".toList
  text := noteText
  object := [("a", .num "1")]
  text_object := Decoder.only_text _ _

/-- An opening fence that is not closed. -/
def notClosed : Wrapped codeDecoder where
  tag := some "json".toList
  text := codeText
  object := [("code", .str "```py")]
  text_object := Decoder.only_text _ _

/-- Fences around the object, and commentary. -/
def closed : Wrapped codeDecoder where
  tag := some "json".toList
  text := codeText
  trail := ['\n']
  commentary := some " See [1].".toList
  object := [("code", .str "```py")]
  text_object := Decoder.only_text _ _

/-- **A bracket in the preamble hides the object, and so does a fence in a string behind an opening
fence that is not closed.** -/
theorem bracket_or_inner_fence_fails :
    behindBracket.raw = "Note [see below]: ".toList ++ noteText ∧
      parseLlmJsonObject noteDecoder behindBracket.raw = none ∧
      notClosed.raw = "```json\n".toList ++ codeText ∧
      parseLlmJsonObject codeDecoder notClosed.raw = none :=
  ⟨rfl, rfl, rfl, rfl⟩

theorem closed_extracted :
    parseLlmJsonObject codeDecoder closed.raw = some [("code", .str "```py")] :=
  (object_extracted_iff closed).1 (by decide)

end StudyAgent.Parsing
