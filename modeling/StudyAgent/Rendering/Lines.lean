import StudyAgent.Rendering.Delimiters

/-!
# The lines of a block

What a rendered block keeps of the lines of the block that it is made from.  Lines are compared up
to spaces at their ends, those of formulas up to math delimiters at their ends too; blank lines do
not count, and neither do the fences around the whole.

Main results:

* `filled_stripChars` — stripping a text leaves its lines.
* `filled_unfence` — one round of fence stripping in lines.
* `peel_unfenceTimes`, `length_unfenceTimes_lt` — **all lines but the outer fences are kept,
  exactly if nothing stands behind the last fence in any round.**
* `shown_stripMathDelimiters` — taking off delimiters leaves the lines of a formula.
-/

namespace StudyAgent.Rendering

open Py

/-! ## Lines -/

@[simp] theorem lines_nil : lines [] = [[]] := rfl

@[simp] theorem lines_break (t : List Char) : lines ('\n' :: t) = [] :: lines t := by
  simp [lines, List.splitOn_eq_splitOnP, List.splitOnP_cons_eq_if_modifyHead]

theorem lines_char {c : Char} (hc : c ≠ '\n') (t : List Char) :
    lines (c :: t) = (lines t).modifyHead (c :: ·) := by
  simp [lines, List.splitOn_eq_splitOnP, List.splitOnP_cons_eq_if_modifyHead, hc]

theorem lines_ne_nil (t : List Char) : lines t ≠ [] := List.splitOn_ne_nil _ _

theorem break_not_mem {t l : List Char} (h : l ∈ lines t) : '\n' ∉ l := by
  induction t generalizing l with
  | nil =>
    obtain rfl : l = [] := by simpa using h
    simp
  | cons c t ih =>
    by_cases hc : c = '\n'
    · subst hc
      rw [lines_break, List.mem_cons] at h
      rcases h with rfl | h
      · simp
      · exact ih h
    · rw [lines_char hc] at h
      obtain ⟨first, rest, hsplit⟩ := List.exists_cons_of_ne_nil (lines_ne_nil t)
      rw [hsplit] at h ih
      rw [List.modifyHead_cons, List.mem_cons] at h
      rcases h with rfl | h
      · rw [List.mem_cons, not_or]
        exact ⟨Ne.symm hc, ih List.mem_cons_self⟩
      · exact ih (List.mem_cons_of_mem _ h)

theorem lines_joinLines {ls : List (List Char)} (h : ∀ l ∈ ls, '\n' ∉ l) (hne : ls ≠ []) :
    lines (joinLines ls) = ls := List.splitOn_intercalate '\n' h hne

section

variable {β : Type} {φ : List Char → List β}

/-- What is made of lines, with something in front of the first. -/
def flatFrom (φ : List Char → List β) (p t : List Char) : List β :=
  ((lines t).modifyHead (p ++ ·)).flatMap φ

theorem flatFrom_nil_left (t : List Char) : flatFrom φ [] t = (lines t).flatMap φ := by
  obtain ⟨first, rest, hsplit⟩ := List.exists_cons_of_ne_nil (lines_ne_nil t)
  simp [flatFrom, hsplit]

@[simp] theorem flatFrom_nil (p : List Char) : flatFrom φ p [] = φ p := by
  simp [flatFrom]

@[simp] theorem flatFrom_break (p t : List Char) :
    flatFrom φ p ('\n' :: t) = φ p ++ flatFrom φ [] t := by
  rw [flatFrom_nil_left]
  simp [flatFrom]

theorem flatFrom_char {c : Char} (hc : c ≠ '\n') (p t : List Char) :
    flatFrom φ p (c :: t) = flatFrom φ (p ++ [c]) t := by
  obtain ⟨first, rest, hsplit⟩ := List.exists_cons_of_ne_nil (lines_ne_nil t)
  simp [flatFrom, lines_char hc, hsplit]

/-- What is blind to something at the end of a line is blind to it at the end of a text. -/
theorem flatFrom_append {y : List Char} (hbreak : '\n' ∉ y) (hy : ∀ l, φ (l ++ y) = φ l)
    (p t : List Char) : flatFrom φ p (t ++ y) = flatFrom φ p t := by
  have hline : ∀ p, flatFrom φ p y = φ (p ++ y) := by
    clear hy
    induction y with
    | nil => simp
    | cons c y ih =>
      intro p
      rw [List.mem_cons, not_or] at hbreak
      rw [flatFrom_char (Ne.symm hbreak.1), ih hbreak.2, List.append_assoc]
      rfl
  induction t generalizing p with
  | nil => rw [List.nil_append, hline, hy, flatFrom_nil]
  | cons c t ih =>
    by_cases hc : c = '\n'
    · subst hc
      rw [List.cons_append, flatFrom_break, flatFrom_break, ih]
    · rw [List.cons_append, flatFrom_char hc, flatFrom_char hc, ih]

theorem flatFrom_append_break (hnil : φ [] = []) (p t : List Char) :
    flatFrom φ p (t ++ ['\n']) = flatFrom φ p t := by
  induction t generalizing p with
  | nil => simp [hnil]
  | cons c t ih =>
    by_cases hc : c = '\n'
    · subst hc
      rw [List.cons_append, flatFrom_break, flatFrom_break, ih]
    · rw [List.cons_append, flatFrom_char hc, flatFrom_char hc, ih]

/-- Something in front of a text is in front of its first line. -/
theorem flatFrom_prefix {x : List Char} (hbreak : '\n' ∉ x) (p t : List Char) :
    flatFrom φ p (x ++ t) = flatFrom φ (p ++ x) t := by
  induction x generalizing p with
  | nil => simp
  | cons c x ih =>
    rw [List.mem_cons, not_or] at hbreak
    rw [List.cons_append, flatFrom_char (Ne.symm hbreak.1), ih hbreak.2, List.append_assoc]
    rfl

/-- What is made of a line does not depend on spaces at its ends, and is nothing for a blank
line. -/
structure Blind (φ : List Char → List β) : Prop where
  nil : φ [] = []
  left : ∀ c l, isSpace c = true → φ (c :: l) = φ l
  right : ∀ l c, isSpace c = true → φ (l ++ [c]) = φ l

variable (h : Blind φ)

include h

theorem Blind.flatFrom_space {c : Char} (hc : isSpace c = true) (t : List Char) :
    flatFrom φ [] (c :: t) = flatFrom φ [] t := by
  by_cases hbreak : c = '\n'
  · subst hbreak
    simp [h.nil]
  · obtain ⟨first, rest, hsplit⟩ := List.exists_cons_of_ne_nil (lines_ne_nil t)
    rw [flatFrom_char hbreak]
    simp [flatFrom, hsplit, h.left c first hc]

theorem Blind.flatFrom_concat {c : Char} (hc : isSpace c = true) (t : List Char) :
    flatFrom φ [] (t ++ [c]) = flatFrom φ [] t := by
  by_cases hbreak : c = '\n'
  · subst hbreak
    exact flatFrom_append_break h.nil [] t
  · exact flatFrom_append (by simpa using Ne.symm hbreak) (fun l => h.right l c hc) [] t

theorem Blind.flatMap_dropWhile {p : Char → Bool} (hp : ∀ c, p c = true → isSpace c = true)
    (t : List Char) : (lines (t.dropWhile p)).flatMap φ = (lines t).flatMap φ := by
  rw [← flatFrom_nil_left, ← flatFrom_nil_left]
  induction t with
  | nil => rfl
  | cons c t ih =>
    rw [List.dropWhile_cons]
    split_ifs with hc
    · rw [ih, h.flatFrom_space (hp c hc)]
    · rfl

theorem Blind.flatMap_rdropWhile {p : Char → Bool} (hp : ∀ c, p c = true → isSpace c = true)
    (t : List Char) : (lines (t.rdropWhile p)).flatMap φ = (lines t).flatMap φ := by
  rw [← flatFrom_nil_left, ← flatFrom_nil_left]
  induction t using List.reverseRecOn with
  | nil => rfl
  | append_singleton t c ih =>
    rw [List.rdropWhile_concat]
    split_ifs with hc
    · rw [ih, h.flatFrom_concat (hp c hc)]
    · rfl

/-- **Stripping a text leaves what is made of its lines.** -/
theorem Blind.flatMap_stripChars (t : List Char) :
    (lines (stripChars t)).flatMap φ = (lines t).flatMap φ :=
  (h.flatMap_rdropWhile (fun _ => id) _).trans (h.flatMap_dropWhile (fun _ => id) t)

/-- And so does joining lines and stripping the breaks. -/
theorem Blind.flatMap_stripBreaks {ls : List (List Char)} (hls : ∀ l ∈ ls, '\n' ∉ l) :
    (lines (stripBreaks (joinLines ls))).flatMap φ = ls.flatMap φ := by
  have hspace : ∀ c : Char, (c == '\n') = true → isSpace c = true := by
    intro c hc
    rw [beq_iff_eq] at hc
    subst hc
    decide
  rw [stripBreaks, h.flatMap_rdropWhile hspace, h.flatMap_dropWhile hspace]
  by_cases hnil : ls = []
  · subst hnil
    simp [joinLines, h.nil]
  · rw [lines_joinLines hls hnil]

end

/-! ## Forms of lines -/

/-- A form in which lines are compared: spaces at the ends do not matter, and a fence stays. -/
structure LineForm (form : List Char → List Char) : Prop where
  nil : form [] = []
  left : ∀ c l, isSpace c = true → form (c :: l) = form l
  right : ∀ l c, isSpace c = true → form (l ++ [c]) = form l
  fence : ∀ l, fence <+: l → form l ≠ []

/-- The lines of a text that are not blank in a form. -/
def filled (form : List Char → List Char) (t : List Char) : List (List Char) :=
  (lines t).flatMap fun l => if form l = [] then [] else [stripChars l]

/-- The lines of a text in a form. -/
def shown (form : List Char → List Char) (t : List Char) : List (List Char) :=
  (filled form t).map form

theorem stripChars_space {c : Char} (hc : isSpace c = true) (l : List Char) :
    stripChars (c :: l) = stripChars l := by
  simp [stripChars, hc]

theorem stripChars_concat {c : Char} (hc : isSpace c = true) (l : List Char) :
    stripChars (l ++ [c]) = stripChars l := by
  by_cases hall : ∀ d ∈ l, isSpace d = true
  · have hleft : (l ++ [c]).dropWhile isSpace = [] := by
      rw [List.dropWhile_eq_nil_iff]
      intro d hd
      rcases List.mem_append.1 hd with hd | hd
      · exact hall d hd
      · rwa [List.mem_singleton.1 hd]
    have hright : l.dropWhile isSpace = [] := List.dropWhile_eq_nil_iff.2 hall
    simp [stripChars, hleft, hright]
  · have hne : l.dropWhile isSpace ≠ [] := fun hnil =>
      hall (List.dropWhile_eq_nil_iff.1 hnil)
    have happend : (l ++ [c]).dropWhile isSpace = l.dropWhile isSpace ++ [c] := by
      rw [List.dropWhile_append]
      simp [hne]
    simp [stripChars, happend, hc]

/-- A fence at the beginning of a line is not stripped. -/
theorem fence_prefix_stripChars {l : List Char} (h : fence <+: l) : fence <+: stripChars l := by
  obtain ⟨rest, rfl⟩ := h
  have hfirst : ∀ r, (fence ++ r).dropWhile isSpace = fence ++ r := by
    intro r
    rw [fence, List.cons_append, List.dropWhile_cons_of_neg (by decide)]
  have hlast : fence.dropWhile isSpace = fence := by decide
  have hreverse : fence.reverse = fence := rfl
  rw [stripChars, hfirst, List.reverse_append, hreverse, List.dropWhile_append, hlast]
  split_ifs
  · exact List.prefix_rfl
  · rw [List.reverse_append, hreverse]
    exact List.prefix_append _ _

theorem stripChars_lineForm : LineForm stripChars where
  nil := rfl
  left _ _ hc := stripChars_space hc _
  right _ _ hc := stripChars_concat hc _
  fence l hl hnil := by
    have hpre := fence_prefix_stripChars hl
    rw [hnil] at hpre
    simp [fence] at hpre

section

variable {form : List Char → List Char} (hform : LineForm form)

include hform

theorem LineForm.form_stripChars (l : List Char) : form (stripChars l) = form l := by
  have hleft : ∀ l, form (l.dropWhile isSpace) = form l := by
    intro l
    induction l with
    | nil => rfl
    | cons c l ih =>
      rw [List.dropWhile_cons]
      split_ifs with hc
      · rw [ih, hform.left c l hc]
      · rfl
  have hright : ∀ l, form (l.rdropWhile isSpace) = form l := by
    intro l
    induction l using List.reverseRecOn with
    | nil => rfl
    | append_singleton l c ih =>
      rw [List.rdropWhile_concat]
      split_ifs with hc
      · rw [ih, hform.right l c hc]
      · rfl
  exact (hright _).trans (hleft l)

theorem LineForm.blind :
    Blind fun l => if form l = [] then ([] : List (List Char)) else [stripChars l] where
  nil := by simp [hform.nil]
  left c l hc := by simp [hform.left c l hc, stripChars_space hc]
  right l c hc := by simp [hform.right l c hc, stripChars_concat hc]

/-- **Stripping a text leaves its lines.** -/
theorem filled_stripChars (t : List Char) : filled form (stripChars t) = filled form t :=
  hform.blind.flatMap_stripChars t

theorem filled_rstrip (t : List Char) : filled form (t.rdropWhile isSpace) = filled form t :=
  hform.blind.flatMap_rdropWhile (fun _ => id) t

theorem filled_nil : filled form [] = [] := by
  simp [filled, hform.nil]

end

/-! ## Rounds of fence stripping -/

theorem beforeLastFence_eq_some {ls before : List (List Char)}
    (h : beforeLastFence ls = some before) :
    ∃ f behind, ls = before ++ f :: behind ∧ isFence f = true ∧
      ∀ l ∈ behind, isFence l = false := by
  have hnone : ∀ ls, beforeLastFence ls = none → ∀ l ∈ ls, isFence l = false := by
    intro ls
    induction ls with
    | nil => simp
    | cons l ls ih =>
      intro hnone
      rw [beforeLastFence] at hnone
      cases hls : beforeLastFence ls with
      | some before => simp [hls] at hnone
      | none =>
        simp only [hls, ite_eq_right_iff, reduceCtorEq, imp_false, Bool.not_eq_true] at hnone
        simpa [hnone] using ih hls
  induction ls generalizing before with
  | nil => simp [beforeLastFence] at h
  | cons l ls ih =>
    rw [beforeLastFence] at h
    cases hls : beforeLastFence ls with
    | some before' =>
      simp only [hls, Option.some.injEq] at h
      subst h
      obtain ⟨f, behind, hsplit, hf, hbehind⟩ := ih hls
      exact ⟨f, behind, by rw [hsplit, List.cons_append], hf, hbehind⟩
    | none =>
      simp only [hls, Option.ite_none_right_eq_some, Option.some.injEq] at h
      obtain ⟨hf, rfl⟩ := h
      exact ⟨l, ls, rfl, hf, hnone ls hls⟩

/-- The lines behind the last fence of a text. -/
def linesBehind (body : List Char) : List (List Char) :=
  (lines body).tail.rtakeWhile fun l => !isFence l

theorem rtakeWhile_behind {before behind : List (List Char)} {f : List Char}
    (hf : isFence f = true) (hbehind : ∀ l ∈ behind, isFence l = false) :
    (before ++ f :: behind).rtakeWhile (fun l => !isFence l) = behind := by
  have hall : ∀ l ∈ behind.reverse, (!isFence l) = true := by
    intro l hl
    simp [hbehind l (List.mem_reverse.1 hl)]
  rw [List.rtakeWhile, List.reverse_append, List.reverse_cons, List.append_assoc,
    List.takeWhile_append_of_pos hall]
  simp [hf]

/-- What a round takes apart. -/
theorem unfence_eq_some {body inner : List Char} (h : unfence body = some inner) :
    ∃ first before f, lines body = first :: (before ++ f :: linesBehind body) ∧
      fence <+: first ∧ isFence f = true ∧ (∀ l ∈ linesBehind body, isFence l = false) ∧
      inner = stripBreaks (joinLines before) := by
  unfold unfence at h
  split_ifs at h with hfence
  obtain ⟨before, hbefore, rfl⟩ := Option.map_eq_some_iff.1 h
  obtain ⟨f, behind, hsplit, hf, hbehind⟩ := beforeLastFence_eq_some hbefore
  obtain ⟨first, rest, hlines⟩ := List.exists_cons_of_ne_nil (lines_ne_nil body)
  have hbehindeq : linesBehind body = behind := by
    rw [linesBehind, hsplit, rtakeWhile_behind hf hbehind]
  rw [hlines, List.tail_cons] at hsplit
  refine ⟨first, before, f, ?_, ?_, hf, ?_, rfl⟩
  · rw [hlines, hsplit, hbehindeq]
  · -- the fence is on the first line
    obtain ⟨r, rfl⟩ := hfence
    rw [fence, List.cons_append, List.cons_append, List.cons_append, List.nil_append,
      lines_char (by decide), lines_char (by decide), lines_char (by decide)] at hlines
    obtain ⟨first', rest', hrest⟩ := List.exists_cons_of_ne_nil (lines_ne_nil r)
    rw [hrest] at hlines
    simp only [List.modifyHead_cons, List.cons.injEq] at hlines
    rw [← hlines.1]
    exact ⟨first', rfl⟩
  · rw [hbehindeq]
    exact hbehind

/-- All lines but the fences around the whole. -/
def peel : List (List Char) → List (List Char)
  | [] => []
  | l :: ls =>
    if fence <+: l ∧ ls.getLast? = some fence then peel ls.dropLast else l :: ls
termination_by ls => ls.length
decreasing_by simp only [List.length_dropLast, List.length_cons]; omega

theorem peel_sublist (ls : List (List Char)) : (peel ls).Sublist ls := by
  fun_induction peel ls with
  | case1 => exact List.Sublist.slnil
  | case2 l ls _ ih => exact (ih.trans (List.dropLast_sublist ls)).cons l
  | case3 l ls _ => exact List.Sublist.refl _

theorem peel_wrapped {first : List Char} (hfirst : fence <+: first) (ls : List (List Char)) :
    peel (first :: (ls ++ [fence])) = peel ls := by
  rw [peel, if_pos ⟨hfirst, by simp⟩, List.dropLast_concat]

theorem peel_of_last {ls : List (List Char)} (h : ls.getLast? ≠ some fence) : peel ls = ls := by
  cases ls with
  | nil => rw [peel]
  | cons l ls =>
    rw [peel, if_neg]
    rintro ⟨-, hlast⟩
    cases ls with
    | nil => simp at hlast
    | cons m ls => exact h (by rwa [List.getLast?_cons_cons])

/-- Nothing stands behind the last fence, in each round of fence stripping. -/
def nothingBehind (form : List Char → List Char) : ℕ → List Char → Bool
  | 0, _ => true
  | n + 1, body =>
    match unfence body with
    | none => true
    | some inner =>
      (linesBehind body).all (fun l => form l = []) && (inner = body || nothingBehind form n inner)

/-- The lines of a block that its rendering has to show. -/
def requiredLines (form : List Char → List Char) (t : List Char) : List (List Char) :=
  (peel (filled form t)).map form

section

variable {form : List Char → List Char} (hform : LineForm form)

include hform

/-- **One round in lines.** -/
theorem filled_unfence {body inner : List Char} (h : unfence body = some inner) :
    ∃ first, fence <+: first ∧
      filled form body = first :: (filled form inner ++ fence ::
        (linesBehind body).flatMap fun l => if form l = [] then [] else [stripChars l]) := by
  obtain ⟨first, before, f, hlines, hfirst, hf, -, rfl⟩ := unfence_eq_some h
  have hfence : stripChars f = fence := by simpa [isFence] using hf
  have hform_first : form first ≠ [] := hform.fence first hfirst
  have hform_f : form f ≠ [] := by
    rw [← hform.form_stripChars, hfence]
    exact hform.fence fence List.prefix_rfl
  have hbreaks : ∀ l ∈ before, '\n' ∉ l := by
    intro l hl
    refine break_not_mem (t := body) ?_
    rw [hlines]
    simp [hl]
  refine ⟨stripChars first, fence_prefix_stripChars hfirst, ?_⟩
  have hinner : filled form (stripBreaks (joinLines before)) = _ :=
    hform.blind.flatMap_stripBreaks hbreaks
  rw [hinner, filled, hlines]
  simp [hform_first, hform_f, hfence]

omit hform in
/-- No line behind the last fence is a fence. -/
theorem getLast_behind {body : List Char} (hbehind : ∀ l ∈ linesBehind body, isFence l = false)
    (front : List (List Char))
    (hne : ((linesBehind body).flatMap fun l => if form l = [] then [] else [stripChars l]) ≠ []) :
    (front ++ (linesBehind body).flatMap fun l =>
      if form l = [] then [] else [stripChars l]).getLast? ≠ some fence := by
  rw [List.getLast?_append_of_ne_nil _ hne]
  intro hlast
  obtain ⟨l, hl, hmem⟩ := List.mem_flatMap.1 (List.mem_of_getLast? hlast)
  split_ifs at hmem
  · simp at hmem
  · have hnot := hbehind l hl
    rw [isFence, ← List.mem_singleton.1 hmem] at hnot
    simp at hnot

theorem peel_unfence {body inner : List Char} (h : unfence body = some inner)
    (hnothing : (linesBehind body).all (fun l => form l = []) = true) :
    peel (filled form body) = peel (filled form inner) := by
  obtain ⟨first, hfirst, hfilled⟩ := filled_unfence hform h
  have hnil : ((linesBehind body).flatMap fun l =>
      if form l = [] then [] else [stripChars l]) = [] := by
    rw [List.flatMap_eq_nil_iff]
    intro l hl
    simpa using List.all_eq_true.1 hnothing l hl
  rw [hfilled, hnil, peel_wrapped hfirst]

theorem length_unfence_lt {body inner : List Char} (h : unfence body = some inner)
    (hsomething : (linesBehind body).all (fun l => form l = []) = false) :
    (filled form inner).length < (peel (filled form body)).length := by
  obtain ⟨first, hfirst, hfilled⟩ := filled_unfence hform h
  obtain ⟨-, -, -, -, -, -, hbehind, -⟩ := unfence_eq_some h
  have hne : ((linesBehind body).flatMap fun l =>
      if form l = [] then [] else [stripChars l]) ≠ [] := by
    rw [List.all_eq_false] at hsomething
    obtain ⟨l, hl, hform_l⟩ := hsomething
    rw [Ne, List.flatMap_eq_nil_iff]
    intro hall
    have hone := hall l hl
    rw [decide_eq_true_eq] at hform_l
    simp [hform_l] at hone
  have hlast := getLast_behind hbehind (first :: (filled form inner ++ [fence])) hne
  have hsame : filled form body = (first :: (filled form inner ++ [fence])) ++
      (linesBehind body).flatMap fun l => if form l = [] then [] else [stripChars l] := by
    rw [hfilled]
    simp
  rw [← hsame] at hlast
  rw [peel_of_last hlast, hsame]
  simp only [List.length_append, List.length_cons]
  omega

theorem filled_unfenceTimes_sublist (n : ℕ) (body : List Char) :
    (filled form (unfenceTimes n body)).Sublist (filled form body) := by
  induction n generalizing body with
  | zero => exact List.Sublist.refl _
  | succ n ih =>
    rw [unfenceTimes]
    cases h : unfence body with
    | none => exact List.Sublist.refl _
    | some inner =>
      dsimp only
      split_ifs
      · exact List.Sublist.refl _
      · obtain ⟨first, -, hfilled⟩ := filled_unfence hform h
        rw [hfilled]
        exact ((ih inner).trans (List.sublist_append_left _ _)).cons first

/-- **All lines but the outer fences are kept**, if nothing stands behind the last fence. -/
theorem peel_unfenceTimes {n : ℕ} {body : List Char} (h : nothingBehind form n body = true) :
    peel (filled form (unfenceTimes n body)) = peel (filled form body) := by
  induction n generalizing body with
  | zero => rfl
  | succ n ih =>
    rw [unfenceTimes]
    rw [nothingBehind] at h
    cases hround : unfence body with
    | none => rfl
    | some inner =>
      simp only [hround, Bool.and_eq_true, Bool.or_eq_true, decide_eq_true_eq] at h
      dsimp only
      split_ifs with hsame
      · rfl
      · rw [ih (h.2.resolve_left hsame), peel_unfence hform hround h.1]

/-- **And a line is lost otherwise.** -/
theorem length_unfenceTimes_lt {n : ℕ} {body : List Char} (h : nothingBehind form n body = false) :
    (filled form (unfenceTimes n body)).length < (peel (filled form body)).length := by
  induction n generalizing body with
  | zero => simp [nothingBehind] at h
  | succ n ih =>
    rw [nothingBehind] at h
    rw [unfenceTimes]
    cases hround : unfence body with
    | none => simp [hround] at h
    | some inner =>
      simp only [hround, Bool.and_eq_false_iff, Bool.or_eq_false_iff, decide_eq_false_iff_not] at h
      have hshorter : inner ≠ body := by
        rintro rfl
        obtain ⟨first, -, hfilled⟩ := filled_unfence hform hround
        have hlen := congrArg List.length hfilled
        simp only [List.length_cons, List.length_append] at hlen
        omega
      dsimp only
      rw [if_neg hshorter]
      cases hall : (linesBehind body).all fun l => form l = [] with
      | true =>
        rw [peel_unfence hform hround hall]
        exact ih (h.resolve_left (by simp [hall])).2
      | false =>
        exact lt_of_le_of_lt (filled_unfenceTimes_sublist hform n inner).length_le
          (length_unfence_lt hform hround hall)

/-- What is required of a text is shown exactly if nothing stands behind its last fence. -/
theorem requiredLines_unfenceTimes (n : ℕ) (t : List Char) :
    (requiredLines form t).Sublist (shown form (unfenceTimes n (stripChars t))) ↔
      nothingBehind form n (stripChars t) = true := by
  rw [requiredLines, shown, ← filled_stripChars hform]
  constructor
  · intro hsub
    by_contra hsomething
    have hlt := length_unfenceTimes_lt hform (Bool.not_eq_true _ ▸ hsomething)
    have hle := hsub.length_le
    simp only [List.length_map] at hle
    omega
  · intro hnothing
    rw [← peel_unfenceTimes hform hnothing]
    exact (peel_sublist _).map form

end

/-! ## Formulas -/

/-- A line without the delimiters that open math, and spaces, in front. -/
def trimOpening : List Char → List Char
  | [] => []
  | '\\' :: '(' :: l => trimOpening l
  | '\\' :: '[' :: l => trimOpening l
  | c :: l => if c = '$' || isSpace c then trimOpening l else c :: l

/-- A line from its end on, without the delimiters that close math, and spaces. -/
def trimClosing : List Char → List Char
  | [] => []
  | ')' :: '\\' :: l => trimClosing l
  | ']' :: '\\' :: l => trimClosing l
  | c :: l => if c = '$' || isSpace c then trimClosing l else c :: l

/-- The form of a line of a formula: without spaces and math delimiters at its ends. -/
def bareLine (l : List Char) : List Char := (trimClosing (trimOpening l).reverse).reverse

theorem backtick_mem_trimOpening {l : List Char} (h : '`' ∈ l) : '`' ∈ trimOpening l := by
  fun_induction trimOpening l with
  | case1 => simp at h
  | case2 l ih => exact ih (by simpa using h)
  | case3 l ih => exact ih (by simpa using h)
  | case4 c l _ _ hc ih =>
    rcases List.mem_cons.1 h with rfl | h
    · exact absurd hc (by decide)
    · exact ih h
  | case5 c l => exact h

theorem backtick_mem_trimClosing {l : List Char} (h : '`' ∈ l) : '`' ∈ trimClosing l := by
  fun_induction trimClosing l with
  | case1 => simp at h
  | case2 l ih => exact ih (by simpa using h)
  | case3 l ih => exact ih (by simpa using h)
  | case4 c l _ _ hc ih =>
    rcases List.mem_cons.1 h with rfl | h
    · exact absurd hc (by decide)
    · exact ih h
  | case5 c l => exact h

theorem trimOpening_space {c : Char} (hc : (c = '$' || isSpace c) = true) (l : List Char) :
    trimOpening (c :: l) = trimOpening l := by
  have hne : c ≠ '\\' := by
    rintro rfl
    exact absurd hc (by decide)
  rw [trimOpening, if_pos hc]
  · exact fun _ heq => absurd heq hne
  · exact fun _ heq => absurd heq hne

theorem trimClosing_space {c : Char} (hc : (c = '$' || isSpace c) = true) (l : List Char) :
    trimClosing (c :: l) = trimClosing l := by
  have hparen : c ≠ ')' := by
    rintro rfl
    exact absurd hc (by decide)
  have hbracket : c ≠ ']' := by
    rintro rfl
    exact absurd hc (by decide)
  rw [trimClosing, if_pos hc]
  · exact fun _ heq => absurd heq hparen
  · exact fun _ heq => absurd heq hbracket

/-- What stands behind a line stays behind what is left of it. -/
theorem trimOpening_append {y : List Char} (hy : ∀ c ∈ y.head?, c ≠ '(' ∧ c ≠ '[') (l : List Char) :
    trimOpening (l ++ y) = if trimOpening l = [] then trimOpening y else trimOpening l ++ y := by
  fun_induction trimOpening l with
  | case1 => simp
  | case2 l ih => simpa [trimOpening] using ih
  | case3 l ih => simpa [trimOpening] using ih
  | case4 c l _ _ hc ih =>
    rw [List.cons_append, trimOpening_space hc]
    exact ih
  | case5 c l hparen hbracket hc =>
    have hstays : ∀ b, b ∈ ['(', '['] → c = '\\' → ∀ rest, l ++ y ≠ b :: rest := by
      intro b hb hc' rest heq
      cases l with
      | nil =>
        rw [List.nil_append] at heq
        have hhead := hy b (by simp [heq])
        simp [hhead] at hb
      | cons d l =>
        obtain rfl : d = b := by simpa using (List.cons.inj heq).1
        simp only [List.mem_cons, List.not_mem_nil, or_false] at hb
        rcases hb with rfl | rfl
        · exact hparen l hc' rfl
        · exact hbracket l hc' rfl
    rw [if_neg (by simp), List.cons_append, trimOpening, if_neg hc]
    · exact fun rest hc' heq => hstays '(' (by simp) hc' rest heq
    · exact fun rest hc' heq => hstays '[' (by simp) hc' rest heq

/-- What closes math, or a space, does not matter at the end of a line. -/
theorem bareLine_append {y : List Char} (hy : ∀ c ∈ y.head?, c ≠ '(' ∧ c ≠ '[')
    (hclosing : ∀ r, trimClosing (y.reverse ++ r) = trimClosing r)
    (hself : trimClosing (trimOpening y).reverse = []) (l : List Char) :
    bareLine (l ++ y) = bareLine l := by
  rw [bareLine, bareLine, trimOpening_append hy]
  split_ifs with hnil
  · rw [hself, hnil]
    rfl
  · rw [List.reverse_append, hclosing]

theorem bareLine_lineForm : LineForm bareLine where
  nil := rfl
  left c l hc := by
    rw [bareLine, trimOpening_space (by simp [hc])]
    rfl
  right l c hc := by
    have hmark : (c = '$' || isSpace c) = true := by simp [hc]
    refine bareLine_append (y := [c]) ?_ (fun r => trimClosing_space hmark r) ?_ l
    · intro d hd
      obtain rfl : c = d := by simpa using hd
      constructor
      · rintro rfl
        exact absurd hc (by decide)
      · rintro rfl
        exact absurd hc (by decide)
    · rw [trimOpening_space hmark]
      rfl
  fence l hl hnil := by
    obtain ⟨rest, rfl⟩ := hl
    have hmem : '`' ∈ trimClosing (trimOpening (fence ++ rest)).reverse := by
      refine backtick_mem_trimClosing (List.mem_reverse.2 (backtick_mem_trimOpening ?_))
      simp [fence]
    rw [bareLine, List.reverse_eq_nil_iff] at hnil
    rw [hnil] at hmem
    simp at hmem

theorem bareLine_opens (d : Delimiter) (l : List Char) : bareLine (d.opens ++ l) = bareLine l := by
  have htrim : trimOpening (d.opens ++ l) = trimOpening l := by
    cases d with
    | inline => exact trimOpening_space (by decide) l
    | display =>
      exact (trimOpening_space (by decide) _).trans (trimOpening_space (by decide) l)
    | paren => simp [Delimiter.opens, trimOpening]
    | bracket => simp [Delimiter.opens, trimOpening]
  rw [bareLine, htrim]
  rfl

theorem bareLine_closes (d : Delimiter) (l : List Char) :
    bareLine (l ++ d.closes) = bareLine l := by
  refine bareLine_append (y := d.closes) ?_ (fun r => ?_) ?_ l
  · cases d <;> simp [Delimiter.closes]
  · cases d with
    | inline => exact trimClosing_space (by decide) r
    | display =>
      exact (trimClosing_space (by decide) _).trans (trimClosing_space (by decide) r)
    | paren => simp [Delimiter.closes, trimClosing]
    | bracket => simp [Delimiter.closes, trimClosing]
  · cases d <;> decide

theorem break_opens (d : Delimiter) : '\n' ∉ d.opens := by
  cases d <;> decide

theorem break_closes (d : Delimiter) : '\n' ∉ d.closes := by
  cases d <;> decide

theorem flatMap_bare (t : List Char) :
    shown bareLine t = (lines t).flatMap fun l => if bareLine l = [] then [] else [bareLine l] := by
  rw [shown, filled, List.map_flatMap]
  refine List.flatMap_congr fun l _ => ?_
  split_ifs
  · rfl
  · rw [List.map_singleton, bareLine_lineForm.form_stripChars]

/-- **Taking off delimiters leaves the lines of a formula.** -/
theorem shown_stripMathDelimiters (formula : List Char) :
    shown bareLine (stripMathDelimiters formula) = shown bareLine formula := by
  rw [stripMathDelimiters_eq]
  have hstrip : ∀ t, shown bareLine (stripChars t) = shown bareLine t := fun t => by
    rw [shown, filled_stripChars bareLine_lineForm, shown]
  rw [hstrip, ← hstrip formula]
  generalize stripChars formula = u
  rcases cutWidth_cases u with hzero | ⟨d, hcut, hopens, hcloses, -⟩
  · rw [hzero, within_zero]
  · -- the first line loses what opens, and the last one what closes
    have hlen := two_mul_cutWidth_le u
    obtain ⟨rest, rfl⟩ := hopens
    have hsuffix : d.closes <:+ rest := by
      refine List.suffix_of_suffix_length_le hcloses (List.suffix_append _ _) ?_
      rw [hcut, List.length_append] at hlen
      rw [length_closes]
      omega
    obtain ⟨m, rfl⟩ := hsuffix
    rw [hcut, ← List.append_assoc, within_append rfl (length_closes d), flatMap_bare, flatMap_bare,
      ← flatFrom_nil_left, ← flatFrom_nil_left, List.append_assoc, flatFrom_prefix (break_opens d)]
    rw [flatFrom_append (break_closes d) fun l => by rw [bareLine_closes]]
    obtain ⟨first, others, hsplit⟩ := List.exists_cons_of_ne_nil (lines_ne_nil m)
    simp [flatFrom, hsplit, bareLine_opens]

theorem shown_bareFormula (formula : List Char) :
    shown bareLine (stripMathDelimiters (bareFormula formula)) =
      shown bareLine (stripMarkdownFences formula) := by
  rw [shown_stripMathDelimiters, bareFormula, shown, filled_stripChars bareLine_lineForm, shown]

end StudyAgent.Rendering
