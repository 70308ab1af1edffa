import Mathlib.Data.List.DropRight
import StudyAgent.Placement.EquationSpans

/-!
# Where an equation span begins

The clause of an equation is scanned back to the end of the sentence before it, and then moved
to the first "if" that is found from 120 characters before that point on.

Main results:

* `findIf_append` — looking for the word behind the end of a sentence.
* `staysInSentence_iff` — **when no earlier sentence is pulled into the span.**
-/

namespace StudyAgent.Placement

section

variable (isWord : Char → Bool)

/-- The left end of the span is in the sentence of the match: no sentence ends between them. -/
def StaysInSentence (text : List Char) (start stop : ℕ) : Prop :=
  ∀ c ∈ (text.take start).drop (expandToEquationClause isWord text start stop).1,
    endsClause c = false

/-- The text up to the end of the last sentence that ends before a position. -/
def earlierSentences (text : List Char) (start : ℕ) : List Char :=
  (text.take start).rdropWhile fun c => !endsClause c

/-- The last 120 characters of the earlier sentences, or all of them, hold the word "if". -/
def IfBeforeSentence (text : List Char) (start : ℕ) : Prop :=
  findIf isWord none ((earlierSentences text start).drop
    ((earlierSentences text start).length - 120)) ≠ none

instance (text : List Char) (start : ℕ) : Decidable (IfBeforeSentence isWord text start) :=
  inferInstanceAs (Decidable (_ ≠ _))

variable {isWord}

/-! ## Looking for the word -/

theorem not_letter_of_endsClause {c : Char} (h : endsClause c = true) :
    c ∉ ['i', 'I', '\u0130', '\u0131'] ∧ c ∉ ['f', 'F'] := by
  unfold endsClause at h
  rw [decide_eq_true_eq] at h
  simp only [List.mem_cons, List.not_mem_nil, or_false] at h
  rcases h with rfl | rfl | rfl | rfl <;> decide

/-- **Looking for the word behind the end of a sentence**: it is found before the end, or else
the rest is searched. -/
theorem findIf_append {t : Char} (ht : endsClause t = true) (before : Option Char)
    (a rest : List Char) :
    findIf isWord before (a ++ t :: rest) = (findIf isWord before (a ++ [t])).or
      ((findIf isWord (some t) rest).map (· + (a.length + 1))) := by
  obtain ⟨hi, hf⟩ := not_letter_of_endsClause ht
  induction a generalizing before with
  | nil =>
    rw [List.nil_append, List.nil_append, findIf, findIf, decide_eq_false hi]
    simp [findIf]
  | cons c a ih =>
    rw [List.cons_append, List.cons_append, findIf, findIf]
    -- the two characters behind `c` are the same on both sides, or the first of them is `t`
    have hsame : (c ∈ ['i', 'I', '\u0130', '\u0131'] &&
          (a ++ t :: rest).head?.any (· ∈ ['f', 'F']) && boundary isWord before (some c) &&
          boundary isWord (a ++ t :: rest).head? ((a ++ t :: rest).drop 1).head?) =
        (c ∈ ['i', 'I', '\u0130', '\u0131'] && (a ++ [t]).head?.any (· ∈ ['f', 'F']) &&
          boundary isWord before (some c) &&
          boundary isWord (a ++ [t]).head? ((a ++ [t]).drop 1).head?) := by
      cases a with
      | nil =>
        have hhead : (some t).any (· ∈ ['f', 'F']) = false := decide_eq_false hf
        simp only [List.nil_append, List.head?_cons, hhead, Bool.and_false, Bool.false_and]
      | cons d a => cases a <;> rfl
    rw [hsame]
    split_ifs
    · rfl
    · rw [ih]
      cases findIf isWord (some c) (a ++ [t]) with
      | some k => rfl
      | none =>
        rw [Option.none_or, Option.map_none, Option.none_or, Option.map_map, List.length_cons]
        congr 1

/-! ## The span and its sentence -/

variable (isWord) in
/-- In a text of earlier sentences and one more, the first word "if" from some point of the earlier
ones on is in an earlier sentence, or none of these holds one from there on. -/
theorem findIf_earlier {earlier : List Char}
    (hends : ∀ t ∈ earlier.getLast?, endsClause t = true) (sentence : List Char) :
    (∃ k < earlier.length, findIf isWord none earlier = some k ∧
        findIf isWord none (earlier ++ sentence) = some k) ∨
      findIf isWord none earlier = none ∧
        ∀ k, findIf isWord none (earlier ++ sentence) = some k → earlier.length ≤ k := by
  rcases List.eq_nil_or_concat' earlier with rfl | ⟨a, t, rfl⟩
  · exact Or.inr ⟨rfl, fun k _ => Nat.zero_le k⟩
  · have ht : endsClause t = true := hends t (by simp)
    rw [List.append_assoc, List.singleton_append, findIf_append ht none a sentence]
    cases hearlier : findIf isWord none (a ++ [t]) with
    | some k => exact Or.inl ⟨k, findIf_lt isWord hearlier, rfl, rfl⟩
    | none =>
      refine Or.inr ⟨rfl, fun k hk => ?_⟩
      rw [Option.none_or] at hk
      obtain ⟨j, -, rfl⟩ := Option.map_eq_some_iff.1 hk
      rw [List.length_append, List.length_singleton]
      exact Nat.le_add_left _ _

variable {text : List Char} {start : ℕ}

/-- The earlier sentences end with the end of one. -/
theorem getLast_earlierSentences {t : Char} (h : t ∈ (earlierSentences text start).getLast?) :
    endsClause t = true := by
  have hne : earlierSentences text start ≠ [] := by
    rintro hnil
    rw [hnil] at h
    cases h
  have hlast := List.rdropWhile_last_not (fun c => !endsClause c) (text.take start) hne
  rw [List.getLast?_eq_some_getLast hne, Option.mem_some_iff] at h
  rw [← h]
  simpa [earlierSentences] using hlast

/-- From a point of the earlier sentences on a sentence ends, and from their end on none does. -/
theorem ends_drop_iff {earlier sentence : List Char}
    (hends : ∀ t ∈ earlier.getLast?, endsClause t = true)
    (hsentence : ∀ c ∈ sentence, endsClause c = false) (left : ℕ) :
    (∀ c ∈ (earlier ++ sentence).drop left, endsClause c = false) ↔ earlier.length ≤ left := by
  constructor
  · intro h
    by_contra hlt
    have hne : earlier.drop left ≠ [] := by
      rw [Ne, List.drop_eq_nil_iff]
      exact hlt
    have hlast : (earlier.drop left).getLast hne ∈ (earlier ++ sentence).drop left := by
      rw [List.drop_append]
      exact List.mem_append_left _ (List.getLast_mem hne)
    have hends' := hends ((earlier.drop left).getLast hne) (by
      rw [List.getLast_drop]
      exact List.getLast?_eq_some_getLast _)
    rw [h _ hlast] at hends'
    cases hends'
  · intro hle c hc
    rw [List.drop_append, List.drop_eq_nil_of_le hle, List.nil_append] at hc
    exact hsentence c (List.mem_of_mem_drop hc)

/-- The left end, in terms of the earlier sentences and the beginning of the sentence of the
match. -/
theorem expandToEquationClause_left (isWord : Char → Bool) (stop : ℕ) (h : start ≤ text.length) :
    ∃ sentence : List Char, text.take start = earlierSentences text start ++ sentence ∧
      (∀ c ∈ sentence, endsClause c = false) ∧
      (expandToEquationClause isWord text start stop).1 =
        ((findIf isWord none ((earlierSentences text start).drop
            ((earlierSentences text start).length - 120) ++ sentence)).map
          ((earlierSentences text start).length - 120 + ·)).getD
            (earlierSentences text start).length := by
  have htake : text.take start = earlierSentences text start ++
      (text.take start).rtakeWhile fun c => !endsClause c :=
    (List.rdropWhile_append_rtakeWhile ..).symm
  refine ⟨_, htake, fun c hc => by simpa using List.mem_rtakeWhile_imp hc, ?_⟩
  have hleft : start - ((text.take start).reverse.takeWhile fun c => !endsClause c).length =
      (earlierSentences text start).length := by
    have hlen := congrArg List.length htake
    rw [List.length_take, min_eq_left h, List.length_append, List.rtakeWhile,
      List.length_reverse] at hlen
    omega
  unfold expandToEquationClause
  rw [hleft]
  generalize (text.take start).rtakeWhile (fun c => !endsClause c) = sentence at *
  dsimp only
  rw [htake, List.drop_append_of_le_length (Nat.sub_le _ _)]
  split
  · rename_i k hk
    rw [hk]
    rfl
  · rename_i hnone
    rw [hnone]
    rfl

/-- **When no earlier sentence is pulled into the span**: no word "if" stands among the last 120
characters of the earlier sentences. -/
theorem staysInSentence_iff (stop : ℕ) (h : start ≤ text.length) :
    StaysInSentence isWord text start stop ↔ ¬ IfBeforeSentence isWord text start := by
  obtain ⟨sentence, htake, hsentence, hleft⟩ := expandToEquationClause_left isWord stop h
  have hends : ∀ t ∈ (earlierSentences text start).getLast?, endsClause t = true :=
    fun t => getLast_earlierSentences
  unfold StaysInSentence IfBeforeSentence
  rw [hleft, htake, ends_drop_iff hends hsentence]
  generalize earlierSentences text start = earlier at *
  have hwindow : ∀ t ∈ (earlier.drop (earlier.length - 120)).getLast?, endsClause t = true := by
    intro t ht
    rw [List.getLast?_drop] at ht
    split_ifs at ht
    · cases ht
    · exact hends t ht
  have hlen : (earlier.drop (earlier.length - 120)).length =
      earlier.length - (earlier.length - 120) := List.length_drop
  rcases findIf_earlier isWord hwindow sentence with
    ⟨k, hk, hfound, hfirst⟩ | ⟨hnone, hlater⟩
  · rw [hfirst, hfound, Option.map_some, Option.getD_some]
    exact iff_of_false (by omega) (not_not_intro (Option.some_ne_none k))
  · refine iff_of_true ?_ (not_not_intro hnone)
    cases hfirst : findIf isWord none (earlier.drop (earlier.length - 120) ++ sentence) with
    | none => exact le_rfl
    | some k =>
      have hle := hlater k hfirst
      rw [Option.map_some, Option.getD_some]
      omega

/-- A span that stays in its sentence: the sentence before it has no "if". -/
theorem recalled_stays : StaysInSentence Char.isAlphanum "Recall this. Then f = 2.".toList 20 21 :=
  (staysInSentence_iff 21 (by decide)).2 (by decide)

/-- **An earlier sentence that is pulled in**: the span of the equation begins at its "if". -/
theorem asked_pulled_in :
    ¬ StaysInSentence Char.isAlphanum "Ask if unsure. Then f = 2.".toList 22 23 ∧
      (findEquationSpans Char.isAlphanum "Ask if unsure. Then f = 2.").map EquationSpan.text =
        ["if unsure. Then f = 2"] := by
  refine ⟨fun h => ?_, by decide +kernel⟩
  have hends := h '.' (by decide)
  cases hends

end

end StudyAgent.Placement
