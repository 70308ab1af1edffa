import Mathlib.Data.List.DropRight
import Mathlib.Data.List.Pairwise

/-!
# Edits of a text at its own offsets

Stretches of a text are put away or replaced one after another, each at the offsets that
it had in the first text.  That is right as long as no edit moves a stretch that a later
one is about.

Main results:

* `words_append_cons` — spaces separate words, however many.
* `Steady.step` — what one edit leaves of the edits behind it.
* `words_foldl_apply` — **edits that keep the offsets of those behind them give the words of
  the text that was planned.**
-/

namespace TextEdits

variable {α : Type} {sp : α → Bool}

/-! ## Words -/

/-- The runs of a text between its spaces. -/
def words (sp : α → Bool) (l : List α) : List (List α) :=
  (l.splitOnP sp).filter fun w => !w.isEmpty

@[simp] theorem words_nil : words sp [] = [] := by simp [words]

theorem words_append_cons {c : α} (hc : sp c = true) (a b : List α) :
    words sp (a ++ c :: b) = words sp a ++ words sp b := by
  simp [words, List.splitOnP_append_cons a b hc]

theorem words_append_spaces {w : List α} (hw : ∀ c ∈ w, sp c = true) (a : List α) :
    words sp (a ++ w) = words sp a := by
  induction w generalizing a with
  | nil => rw [List.append_nil]
  | cons c w ih =>
    have hrest : words sp w = [] := by
      simpa using ih (fun d hd => hw d (List.mem_cons_of_mem c hd)) []
    rw [words_append_cons (hw c List.mem_cons_self), hrest, List.append_nil]

theorem words_spaces_append {w : List α} (hw : ∀ c ∈ w, sp c = true) (b : List α) :
    words sp (w ++ b) = words sp b := by
  induction w with
  | nil => rfl
  | cons c w ih =>
    have hcons := words_append_cons (hw c List.mem_cons_self) [] (w ++ b)
    rw [List.nil_append, words_nil, List.nil_append] at hcons
    rw [List.cons_append, hcons, ih fun d hd => hw d (List.mem_cons_of_mem c hd)]

theorem words_dropWhile (l : List α) : words sp (l.dropWhile sp) = words sp l := by
  conv_rhs => rw [← List.takeWhile_append_dropWhile (p := sp) (l := l)]
  exact (words_spaces_append (fun c hc => List.mem_takeWhile_imp hc) _).symm

variable (sp) in
/-- The spaces at the end of a text. -/
theorem rdropWhile_append_spaces (l : List α) :
    ∃ w, l = l.rdropWhile sp ++ w ∧ ∀ c ∈ w, sp c = true :=
  ⟨l.rtakeWhile sp, List.rdropWhile_append_rtakeWhile.symm, fun _ hc => List.mem_rtakeWhile_imp hc⟩

variable (sp) in
theorem words_append_rdropWhile (a l : List α) :
    words sp (a ++ l.rdropWhile sp) = words sp (a ++ l) := by
  obtain ⟨w, hl, hw⟩ := rdropWhile_append_spaces sp l
  conv_rhs => rw [hl, ← List.append_assoc]
  exact (words_append_spaces hw _).symm

/-- Both ends of a text without spaces. -/
def strip (sp : α → Bool) (l : List α) : List α := (l.dropWhile sp).rdropWhile sp

theorem words_strip (l : List α) : words sp (strip sp l) = words sp l := by
  have hright := words_append_rdropWhile sp [] (l.dropWhile sp)
  rw [List.nil_append, List.nil_append] at hright
  rw [strip, hright, words_dropWhile]

/-! ## Edits -/

/-- A stretch of a text and what is put in its place; it is cut where nothing is. -/
structure Edit (α : Type) where
  start : ℕ
  stop : ℕ
  put : Option (List α)

namespace Edit

def slice (e : Edit α) (l : List α) : List α := (l.drop e.start).take (e.stop - e.start)

/-- What stands for the stretch: at a cut, one space. -/
def standIn (blank : α) (e : Edit α) : List α := e.put.getD [blank]

/-- One edit; a cut closes up the spaces around it, and those at both ends of the text. -/
def apply (sp : α → Bool) (blank : α) (e : Edit α) (l : List α) : List α :=
  match e.put with
  | some r => l.take e.start ++ r ++ l.drop e.stop
  | none =>
    strip sp ((l.take e.start).rdropWhile sp ++ blank :: (l.drop e.stop).dropWhile sp)

def Fits (e : Edit α) (l : List α) : Prop := e.start < e.stop ∧ e.stop ≤ l.length

end Edit

/-- The text from a position on, less what the edits cover, with what stands for it. -/
def planned (blank : α) (es : List (Edit α)) : ℕ → List α → List α
  | _, [] => []
  | p, c :: l =>
    (es.filter fun e => e.start = p).flatMap (Edit.standIn blank) ++
      (if es.any fun e => e.start ≤ p && p < e.stop then [] else [c]) ++
      planned blank es (p + 1) l

/-- The second edit finds its stretch where it was: it lies before the first, which does not
take spaces away from it, or behind, and the first puts as much as it takes. -/
def Keeps (sp : α → Bool) (l : List α) (e e' : Edit α) : Prop :=
  (e'.stop ≤ e.start ∧ (e.put = none →
    (∀ c ∈ l.head?, sp c = false) ∧ ∀ c ∈ (e'.slice l).getLast?, sp c = false)) ∨
  (e.stop ≤ e'.start ∧ ∃ r, e.put = some r ∧ r.length = e.stop - e.start)

/-- Edits in the order in which they are made, each of which finds its stretch. -/
structure Steady (sp : α → Bool) (l : List α) (es : List (Edit α)) : Prop where
  fits : ∀ e ∈ es, e.Fits l
  heads : ∀ e ∈ es, ∀ r ∈ e.put, ∃ c r', r = c :: r' ∧ sp c = false
  order : es.Pairwise (Keeps sp l)

/-! ## The planned text -/

section Planned

variable {blank : α} {es : List (Edit α)} {e : Edit α} {p : ℕ}

theorem planned_append (a b : List α) :
    planned blank es p (a ++ b) = planned blank es p a ++ planned blank es (p + a.length) b := by
  induction a generalizing p with
  | nil => rfl
  | cons c a ih =>
    rw [List.cons_append, planned, planned, ih, List.length_cons]
    simp [Nat.add_assoc, Nat.add_comm 1]

/-- No edit reaches into the text. -/
def Untouched (es : List (Edit α)) (p count : ℕ) : Prop :=
  ∀ e ∈ es, e.start < e.stop ∧ (e.stop ≤ p ∨ p + count ≤ e.start)

theorem Untouched.tail {count : ℕ} (h : Untouched es p (count + 1)) :
    Untouched es (p + 1) count := by
  intro e he
  have := h e he
  omega

theorem planned_untouched {l : List α} (h : Untouched es p l.length) :
    planned blank es p l = l := by
  induction l generalizing p with
  | nil => rfl
  | cons c l ih =>
    have hstart : (es.filter fun e => e.start = p) = [] := by
      refine List.filter_eq_nil_iff.2 fun e he => ?_
      have := h e he
      rw [List.length_cons] at this
      simp only [decide_eq_true_eq]
      omega
    have hcover : (es.any fun e => e.start ≤ p && p < e.stop) = false := by
      rw [List.any_eq_false]
      intro e he
      have := h e he
      rw [List.length_cons] at this
      simp only [Bool.and_eq_true, decide_eq_true_eq]
      omega
    rw [planned, hstart, hcover, ih h.tail]
    rfl

/-- An edit elsewhere changes nothing of the plan. -/
theorem planned_cons_untouched {l : List α} (h : Untouched [e] p l.length) :
    planned blank (e :: es) p l = planned blank es p l := by
  induction l generalizing p with
  | nil => rfl
  | cons c l ih =>
    have he := h e List.mem_cons_self
    rw [List.length_cons] at he
    have hstart : ¬ e.start = p := by omega
    have hcover : (decide (e.start ≤ p) && decide (p < e.stop)) = false := by
      simp only [Bool.and_eq_false_iff, decide_eq_false_iff_not]
      omega
    rw [planned, planned, ih h.tail, List.filter_cons_of_neg (by simpa using hstart),
      List.any_cons, hcover, Bool.false_or]

/-- Behind its first position an edit covers its stretch. -/
theorem planned_covered {l : List α} (hp : e.start < p) (hstop : p + l.length ≤ e.stop)
    (h : Untouched es p l.length) : planned blank (e :: es) p l = [] := by
  induction l generalizing p with
  | nil => rfl
  | cons c l ih =>
    rw [List.length_cons] at hstop h
    have hstart : ((e :: es).filter fun e => e.start = p) = [] := by
      refine List.filter_eq_nil_iff.2 fun e' he' => ?_
      simp only [decide_eq_true_eq]
      rcases List.mem_cons.1 he' with rfl | he'
      · omega
      · have := h e' he'
        omega
    have hcover : ((e :: es).any fun e => e.start ≤ p && p < e.stop) = true := by
      rw [List.any_cons, Bool.or_eq_true]
      left
      simp only [Bool.and_eq_true, decide_eq_true_eq]
      omega
    rw [planned, hstart, hcover, ih (by omega) (by omega) h.tail]
    rfl

/-- **On its own stretch an edit has its stand-in planned.** -/
theorem planned_self {l : List α} (hlt : e.start < e.stop) (hlen : l.length = e.stop - e.start)
    (h : Untouched es e.start l.length) :
    planned blank (e :: es) e.start l = e.standIn blank := by
  cases l with
  | nil =>
    rw [List.length_nil] at hlen
    omega
  | cons c l =>
    rw [List.length_cons] at hlen h
    have hstart : ((e :: es).filter fun e' => e'.start = e.start) = [e] := by
      rw [List.filter_cons_of_pos (by simp), List.filter_eq_nil_iff.2]
      intro e' he'
      have := h e' he'
      simp only [decide_eq_true_eq]
      omega
    have hcover : ((e :: es).any fun e' => e'.start ≤ e.start && e.start < e'.stop) = true := by
      rw [List.any_cons, Bool.or_eq_true]
      left
      simp only [Bool.and_eq_true, decide_eq_true_eq]
      omega
    rw [planned, hstart, hcover, planned_covered (by omega) (by omega) h.tail]
    simp

end Planned

/-! ## One edit -/

section Step

variable {blank : α} {e : Edit α} {es : List (Edit α)} {l l' a : List α}

theorem Edit.Fits.split (h : e.Fits l) : l = l.take e.start ++ (e.slice l ++ l.drop e.stop) := by
  obtain ⟨hlt, hle⟩ := h
  have hrest : l.drop e.start = e.slice l ++ l.drop e.stop := by
    have hdrop : l.drop e.stop = (l.drop e.start).drop (e.stop - e.start) := by
      rw [List.drop_drop]
      congr 1
      omega
    rw [Edit.slice, hdrop, List.take_append_drop]
  rw [← hrest, List.take_append_drop]

theorem Edit.Fits.slice_length (h : e.Fits l) : (e.slice l).length = e.stop - e.start := by
  obtain ⟨hlt, hle⟩ := h
  rw [Edit.slice, List.length_take, List.length_drop]
  omega

/-- What is planned for a text, around the stretch of one edit. -/
theorem planned_around (h : e.Fits l)
    (hes : ∀ e' ∈ es, e'.start < e'.stop ∧ (e'.stop ≤ e.start ∨ e.stop ≤ e'.start)) :
    planned blank (e :: es) 0 l =
      planned blank es 0 (l.take e.start) ++
        (e.standIn blank ++ planned blank es e.stop (l.drop e.stop)) := by
  have hself := h
  obtain ⟨hlt, hle⟩ := h
  have htake : (l.take e.start).length = e.start := by
    rw [List.length_take]
    omega
  have hlen := hself.slice_length
  conv_lhs => rw [hself.split]
  rw [planned_append, planned_append, htake, Nat.zero_add, hlen,
    planned_self hlt hlen fun e' he' => ?_, show e.start + (e.stop - e.start) = e.stop by omega,
    planned_cons_untouched fun e' he' => ?_, planned_cons_untouched fun e' he' => ?_]
  · rw [List.mem_singleton] at he'
    subst he'
    exact ⟨hlt, Or.inl le_rfl⟩
  · rw [List.mem_singleton] at he'
    subst he'
    rw [htake]
    exact ⟨hlt, Or.inr (by omega)⟩
  · have := hes e' he'
    rw [hlen]
    omega

theorem slice_of_prefix (ha : a <+: l) (ha' : a <+: l') (hstop : e.stop ≤ a.length) :
    e.slice l' = e.slice l := by
  have hslice : ∀ {m : List α}, a <+: m → e.slice m = (a.take e.stop).drop e.start := by
    rintro m ⟨t, rfl⟩
    rw [Edit.slice, ← List.drop_take, List.take_append_of_le_length hstop]
  rw [hslice ha, hslice ha']

theorem head_of_startsWith (ha : a <+: l) (ha' : a <+: l') (hne : a ≠ []) : l'.head? = l.head? := by
  obtain ⟨t, rfl⟩ := ha
  obtain ⟨t', rfl⟩ := ha'
  rw [List.head?_append_of_ne_nil _ hne, List.head?_append_of_ne_nil _ hne]

/-- Edits of a text are as steady on a text with the same stretches. -/
theorem Steady.of_slices (h : Steady sp l es) (hfits : ∀ e ∈ es, e.Fits l')
    (hslice : ∀ e ∈ es, e.slice l' = e.slice l)
    (hhead : es ≠ [] → (∀ c ∈ l.head?, sp c = false) → ∀ c ∈ l'.head?, sp c = false) :
    Steady sp l' es := by
  refine ⟨hfits, h.heads, h.order.imp_of_mem fun {e e'} he he' hkeeps => ?_⟩
  refine hkeeps.imp_left fun ⟨hstop, hcut⟩ => ⟨hstop, fun hput => ?_⟩
  obtain ⟨hl, hlast⟩ := hcut hput
  rw [hslice e' he']
  exact ⟨hhead (List.ne_nil_of_mem he) hl, hlast⟩

/-- Behind a change no edit reaches, the edits find all they found. -/
theorem Steady.of_prefix (h : Steady sp l es) (ha : a <+: l) (ha' : a <+: l')
    (hstop : ∀ e ∈ es, e.stop ≤ a.length) :
    Steady sp l' es ∧ ∀ e ∈ es, e.slice l' = e.slice l := by
  have hslice : ∀ e ∈ es, e.slice l' = e.slice l := fun e he => slice_of_prefix ha ha' (hstop e he)
  refine ⟨h.of_slices (fun e he => ⟨(h.fits e he).1, (hstop e he).trans ha'.length_le⟩) hslice
    fun hne hl => ?_, hslice⟩
  obtain ⟨e, he⟩ := List.exists_mem_of_ne_nil es hne
  have hpos : a ≠ [] := by
    rintro rfl
    have hlt := (h.fits e he).1
    have := hstop e he
    rw [List.length_nil] at this
    omega
  rw [head_of_startsWith ha ha' hpos]
  exact hl

theorem Steady.tail (h : Steady sp l (e :: es)) : Steady sp l es :=
  ⟨fun e' he' => h.fits e' (List.mem_cons_of_mem e he'),
    fun e' he' => h.heads e' (List.mem_cons_of_mem e he'), (List.pairwise_cons.1 h.order).2⟩

theorem Steady.apart (h : Steady sp l (e :: es)) :
    ∀ e' ∈ es, e'.start < e'.stop ∧ (e'.stop ≤ e.start ∨ e.stop ≤ e'.start) := by
  intro e' he'
  refine ⟨(h.tail.fits e' he').1, ?_⟩
  exact ((List.pairwise_cons.1 h.order).1 e' he').imp And.left And.left

/-- What a step has to give: the later edits stay steady and find what they found, and the
plan for what is left has the words of the whole plan. -/
structure Carries (sp : α → Bool) (blank : α) (l : List α) (e : Edit α) (es : List (Edit α)) :
    Prop where
  steady : Steady sp (e.apply sp blank l) es
  slices : ∀ e' ∈ es, e'.slice (e.apply sp blank l) = e'.slice l
  words : words sp (planned blank es 0 (e.apply sp blank l)) =
    words sp (planned blank (e :: es) 0 l)

/-- An edit that puts as much as it takes moves nothing. -/
theorem Steady.step_even (h : Steady sp l (e :: es)) {r : List α} (hput : e.put = some r)
    (hlen : r.length = e.stop - e.start) : Carries sp blank l e es := by
  have hfit := h.fits e List.mem_cons_self
  have happly : e.apply sp blank l = (l.take e.start ++ r) ++ l.drop e.stop := by
    simp only [Edit.apply, hput]
  have htake : (l.take e.start).length = e.start := by
    rw [List.length_take]
    exact min_eq_left (hfit.1.le.trans hfit.2)
  have hfront : (l.take e.start ++ r).length = e.stop := by
    have := hfit.1
    rw [List.length_append, htake, hlen]
    omega
  have hlength : (e.apply sp blank l).length = l.length := by
    have := hfit.2
    rw [happly, List.length_append, hfront, List.length_drop]
    omega
  have hslices : ∀ e' ∈ es, e'.slice (e.apply sp blank l) = e'.slice l := by
    intro e' he'
    rcases (h.apart e' he').2 with hbefore | hbehind
    · refine slice_of_prefix (l.take_prefix e.start) ?_ (by rw [htake]; exact hbefore)
      rw [happly, List.append_assoc]
      exact List.prefix_append _ _
    · have hdrop : (e.apply sp blank l).drop e'.start = l.drop e'.start := by
        rw [happly, List.drop_append, hfront, List.drop_eq_nil_of_le (by omega), List.nil_append,
          List.drop_drop]
        congr 1
        omega
      rw [Edit.slice, Edit.slice, hdrop]
  refine ⟨h.tail.of_slices (fun e' he' => ?_) hslices fun _ hl c hc => ?_, hslices, ?_⟩
  · obtain ⟨hlt, hle⟩ := h.tail.fits e' he'
    exact ⟨hlt, hlength ▸ hle⟩
  · by_cases hA : l.take e.start = []
    · obtain ⟨d, r', rfl, hd⟩ := h.heads e List.mem_cons_self r hput
      rw [happly, hA] at hc
      cases hc
      exact hd
    · refine hl c ?_
      rwa [← head_of_startsWith (l.take_prefix e.start)
        (List.prefix_append _ (r ++ l.drop e.stop)) hA,
        ← List.append_assoc, ← happly]
  · have huntouched : Untouched es e.start r.length := fun e' he' => by
      have hapart := h.apart e' he'
      have hlt := hfit.1
      rw [hlen]
      omega
    rw [planned_around hfit h.apart, happly, planned_append, planned_append, htake, hfront,
      Nat.zero_add, Nat.zero_add, planned_untouched huntouched, Edit.standIn, hput,
      Option.getD_some, List.append_assoc]

/-- An edit that only earlier stretches are left behind of may put anything. -/
theorem Steady.step_put (h : Steady sp l (e :: es)) {r : List α} (hput : e.put = some r)
    (hbefore : ∀ e' ∈ es, e'.stop ≤ e.start) : Carries sp blank l e es := by
  have hfit := h.fits e List.mem_cons_self
  have happly : e.apply sp blank l = l.take e.start ++ (r ++ l.drop e.stop) := by
    simp only [Edit.apply, hput, List.append_assoc]
  have htake : (l.take e.start).length = e.start := by
    rw [List.length_take]
    exact min_eq_left (hfit.1.le.trans hfit.2)
  have hpre : l.take e.start <+: e.apply sp blank l := happly ▸ List.prefix_append _ _
  obtain ⟨hsteady, hslices⟩ := h.tail.of_prefix (l.take_prefix e.start) hpre
    (by rwa [htake])
  have huntouched : ∀ {p count}, e.start ≤ p → Untouched es p count := fun hp e' he' =>
    ⟨(h.apart e' he').1, Or.inl ((hbefore e' he').trans hp)⟩
  refine ⟨hsteady, hslices, ?_⟩
  rw [planned_around hfit h.apart, happly, planned_append, htake, Nat.zero_add,
    planned_untouched (huntouched le_rfl), planned_untouched (huntouched hfit.1.le), Edit.standIn,
    hput, Option.getD_some]

theorem rdropWhile_append_of_last {b : List α} (ha : ∀ c ∈ a.getLast?, sp c = false) :
    (a ++ b).rdropWhile sp = a ++ b.rdropWhile sp := by
  induction b using List.reverseRecOn with
  | nil =>
    rw [List.append_nil, List.rdropWhile_nil, List.append_nil, List.rdropWhile_eq_self_iff]
    intro hl
    rw [ha _ (List.getLast?_eq_some_getLast hl)]
    exact Bool.false_ne_true
  | append_singleton b c ih =>
    rw [← List.append_assoc, List.rdropWhile_concat, List.rdropWhile_concat]
    split_ifs
    · exact ih
    · rw [List.append_assoc]

/-- A cut with nothing behind it. -/
theorem words_cut (hblank : sp blank = true) (hput : e.put = none) :
    words sp (e.apply sp blank l) =
      words sp (l.take e.start ++ (e.standIn blank ++ l.drop e.stop)) := by
  have hleft := words_append_rdropWhile sp [] (l.take e.start)
  rw [List.nil_append, List.nil_append] at hleft
  simp only [Edit.apply, Edit.standIn, hput, Option.getD_none]
  rw [words_strip, words_append_cons hblank, words_dropWhile, hleft, List.singleton_append,
    words_append_cons hblank]

/-- The last character of a stretch is the last one up to its end. -/
theorem Edit.Fits.getLast?_slice (h : e.Fits l) :
    (e.slice l).getLast? = (l.take e.stop).getLast? := by
  have hslice : e.slice l = (l.take e.stop).drop e.start := by rw [Edit.slice, List.drop_take]
  have hlt : e.start < (l.take e.stop).length := by
    rw [List.length_take, min_eq_left h.2]
    exact h.1
  rw [hslice, List.getLast?_drop, if_neg (by omega)]

/-- A stretch that ends in no space reaches into no spaces behind a text. -/
theorem stop_le_of_last {w : List α} (h : e.Fits l) (hw : ∀ c ∈ w, sp c = true)
    (hlast : ∀ c ∈ (e.slice l).getLast?, sp c = false) (hpre : a ++ w <+: l)
    (hstop : e.stop ≤ (a ++ w).length) : e.stop ≤ a.length := by
  by_contra hlt
  rw [List.length_append] at hstop
  have htake : l.take e.stop = a ++ w.take (e.stop - a.length) := by
    obtain ⟨t, rfl⟩ := hpre
    rw [List.append_assoc, List.take_append, List.take_of_length_le (by omega),
      List.take_append_of_le_length (by omega)]
  have hne : w.take (e.stop - a.length) ≠ [] := by
    intro hnil
    have hlen := congrArg List.length hnil
    rw [List.length_take, List.length_nil] at hlen
    omega
  have hc := List.getLast?_eq_some_getLast hne
  have hspace := hw _ (List.mem_of_mem_take (List.getLast_mem hne))
  rw [h.getLast?_slice, htake, List.getLast?_append_of_ne_nil _ hne] at hlast
  rw [hlast _ hc] at hspace
  exact Bool.false_ne_true hspace

/-- A cut that only earlier stretches are left behind of, in a text with no space in front. -/
theorem Steady.step_cut (h : Steady sp l (e :: es)) (hblank : sp blank = true)
    (hput : e.put = none) (hne : es ≠ [])
    (hcut : ∀ e' ∈ es, e'.stop ≤ e.start ∧ (∀ c ∈ l.head?, sp c = false) ∧
      ∀ c ∈ (e'.slice l).getLast?, sp c = false) : Carries sp blank l e es := by
  have hfit := h.fits e List.mem_cons_self
  obtain ⟨e₀, he₀⟩ := List.exists_mem_of_ne_nil es hne
  have htake : (l.take e.start).length = e.start := by
    rw [List.length_take]
    exact min_eq_left (hfit.1.le.trans hfit.2)
  obtain ⟨w, hA, hw⟩ := rdropWhile_append_spaces sp (l.take e.start)
  generalize ha : (l.take e.start).rdropWhile sp = a at hA
  have hpre : a ++ w <+: l := hA ▸ l.take_prefix e.start
  have hstop : ∀ e' ∈ es, e'.stop ≤ a.length := fun e' he' =>
    stop_le_of_last (h.tail.fits e' he') hw (hcut e' he').2.2 hpre
      (by rw [← hA, htake]; exact (hcut e' he').1)
  have hne' : a ≠ [] := by
    rintro rfl
    have hlt := (h.tail.fits e₀ he₀).1
    have hzero := hstop e₀ he₀
    rw [List.length_nil] at hzero
    omega
  have hal : a <+: l := (List.prefix_append a w).trans hpre
  have hhead : ∀ c ∈ a.head?, sp c = false := by
    rw [head_of_startsWith hal List.prefix_rfl hne']
    exact (hcut e₀ he₀).2.1
  have hlast : ∀ c ∈ a.getLast?, sp c = false := by
    intro c hc
    rw [List.getLast?_eq_some_getLast hne'] at hc
    cases hc
    subst ha
    exact Bool.eq_false_iff.2 (List.rdropWhile_last_not sp (l.take e.start) hne')
  have happly : e.apply sp blank l =
      a ++ (blank :: (l.drop e.stop).dropWhile sp).rdropWhile sp := by
    have hfront : (a ++ blank :: (l.drop e.stop).dropWhile sp).dropWhile sp =
        a ++ blank :: (l.drop e.stop).dropWhile sp := by
      cases a with
      | nil => exact absurd rfl hne'
      | cons c a =>
        rw [List.cons_append, List.dropWhile_cons_of_neg]
        rw [hhead c rfl]
        exact Bool.false_ne_true
    simp only [Edit.apply, hput]
    rw [ha, strip, hfront, rdropWhile_append_of_last hlast]
  obtain ⟨hsteady, hslices⟩ := h.tail.of_prefix hal (happly ▸ List.prefix_append _ _) hstop
  have huntouched : ∀ {p count}, a.length ≤ p → Untouched es p count := fun hp e' he' =>
    ⟨(h.apart e' he').1, Or.inl ((hstop e' he').trans hp)⟩
  have hle : a.length ≤ e.stop := by
    have hlen := congrArg List.length hA
    have hlt := hfit.1
    rw [htake, List.length_append] at hlen
    omega
  refine ⟨hsteady, hslices, ?_⟩
  rw [planned_around hfit h.apart, hA, happly, planned_append, planned_append, Nat.zero_add,
    planned_untouched (huntouched le_rfl), planned_untouched (huntouched le_rfl),
    planned_untouched (huntouched hle), words_append_rdropWhile, words_append_cons hblank,
    words_dropWhile, Edit.standIn, hput, Option.getD_none, List.singleton_append,
    words_append_cons hblank, words_append_spaces hw]

/-- **One edit leaves the edits behind it steady, and the words of the plan as they are.** -/
theorem Steady.step (h : Steady sp l (e :: es)) (hblank : sp blank = true) :
    Carries sp blank l e es := by
  have hkeeps := (List.pairwise_cons.1 h.order).1
  have hfit := h.fits e List.mem_cons_self
  cases hput : e.put with
  | some r =>
    by_cases hlen : r.length = e.stop - e.start
    · exact h.step_even hput hlen
    · refine h.step_put hput fun e' he' => ?_
      rcases hkeeps e' he' with ⟨hbefore, -⟩ | ⟨-, r', hput', hlen'⟩
      · exact hbefore
      · rw [hput] at hput'
        cases hput'
        exact absurd hlen' hlen
  | none =>
    by_cases hne : es = []
    · subst hne
      have hsteady : Steady sp (e.apply sp blank l) [] :=
        h.tail.of_slices (fun _ he' => nomatch he') (fun _ he' => nomatch he')
          fun hne => absurd rfl hne
      refine ⟨hsteady, (fun _ he' => nomatch he'), ?_⟩
      have huntouched : ∀ {p count}, Untouched ([] : List (Edit α)) p count :=
        fun _ he' => nomatch he'
      rw [planned_around hfit h.apart, planned_untouched huntouched, planned_untouched huntouched,
        planned_untouched huntouched, words_cut hblank hput]
    · refine h.step_cut hblank hput hne fun e' he' => ?_
      rcases hkeeps e' he' with ⟨hbefore, hcut⟩ | ⟨-, r', hput', -⟩
      · exact ⟨hbefore, hcut hput⟩
      · rw [hput] at hput'
        cases hput'

end Step

/-- **Edits each of which finds its stretch give the words of the planned text.** -/
theorem words_foldl_apply {blank : α} {es : List (Edit α)} {l : List α} (h : Steady sp l es)
    (hblank : sp blank = true) :
    words sp (es.foldl (fun l e => e.apply sp blank l) l) = words sp (planned blank es 0 l) := by
  induction es generalizing l with
  | nil =>
    have huntouched : Untouched ([] : List (Edit α)) 0 l.length := fun _ he => nomatch he
    rw [List.foldl_nil, planned_untouched huntouched]
  | cons e es ih =>
    obtain ⟨hsteady, -, hwords⟩ := h.step hblank
    rw [List.foldl_cons, ih hsteady, hwords]

end TextEdits
