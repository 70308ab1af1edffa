import StudyAgent.Placement.Apply

/-!
# The places of a section

A relocation changes one container: that of the section or of the first
subsection with its heading.  Seen as a list of places under their keys, a section
therefore changes place by place: the first place of a key undergoes the
relocations of that key, and a later place with the same key never changes.

Main results:

* `modifyContainer_places` — a relocation changes the first place with its heading
  and no other.
* `foldl_relocate_place` — **what a list of relocations does to one place.**
* `foldl_relocate_hidden` — a place behind one of its own key stays as it is.
-/

namespace StudyAgent.Placement

open Py

/-! ## The places of a section -/

/-- The containers of a section under their keys: its own, then those of its
subsections under their headings. -/
def places (s : Section) : List (Option String × Container) :=
  (none, sectionContainer s) ::
    (subsectionList s).map fun sub => (subsectionKey sub, subsectionContainer sub)

/-- The places as a change of one container leaves them. -/
def modifyPlace (key : Option String) (f : Container → Option Container)
    (l : List (Option String × Container)) : Option (List (Option String × Container)) :=
  modifyFirst (fun p => p.1 = key) (fun p => (f p.2).map fun c => (p.1, c)) l

theorem modifyFirst_cons {α : Type} {p : α → Bool} {f : α → Option α} (a : α) (l : List α) :
    modifyFirst p f (a :: l) =
      if p a then (f a).map fun a' => a' :: l else (modifyFirst p f l).map fun l' => a :: l' := rfl

theorem modifyFirst_map {α β : Type} {p : α → Bool} {q : β → Bool} {f : α → Option α}
    {g : β → Option β} (h : α → β) (hpq : ∀ a, q (h a) = p a)
    (hfg : ∀ a, p a = true → g (h a) = (f a).map h) (l : List α) :
    modifyFirst q g (l.map h) = (modifyFirst p f l).map (List.map h) := by
  induction l with
  | nil => rfl
  | cons a l ih =>
    rw [List.map_cons, modifyFirst_cons, modifyFirst_cons, hpq, ih]
    by_cases hp : p a = true
    · rw [if_pos hp, if_pos hp, hfg a hp]
      cases f a <;> rfl
    · rw [if_neg hp, if_neg hp]
      cases modifyFirst p f l <;> rfl

/-- An element that is replaced by one with the same image. -/
theorem map_set_same {α β : Type} {f : α → β} {l : List α} {i : ℕ} {a b : α}
    (ha : l[i]? = some a) (hf : f b = f a) : (l.set i b).map f = l.map f := by
  obtain ⟨hi, rfl⟩ := List.getElem?_eq_some_iff.1 ha
  have hi' : i < (l.map f).length := by simpa using hi
  rw [List.map_set, hf, ← List.getElem_map f]
  exact List.set_getElem_self hi'

/-- A filled explanation changes nothing else of a block. -/
theorem applyFillExplanation_map {β γ : Type} {f : CodeBlock → β} {g : FormulaBlock → γ}
    (hf : ∀ b e, f { b with explanation := e } = f b)
    (hg : ∀ b e, g { b with explanation := e } = g b) {r : Relocation} {c c' : Container}
    (h : applyFillExplanation r c = some c') :
    c'.code.map f = c.code.map f ∧ c'.formulas.map g = c.formulas.map g := by
  unfold applyFillExplanation at h
  split at h
  · split_ifs at h
    obtain ⟨b, hb, h⟩ := Option.bind_eq_some_iff.1 h
    split_ifs at h
    cases h
    exact ⟨map_set_same hb (hf _ _), rfl⟩
  · split_ifs at h
    obtain ⟨b, hb, h⟩ := Option.bind_eq_some_iff.1 h
    split_ifs at h
    cases h
    exact ⟨rfl, map_set_same hb (hg _ _)⟩
  · cases h

theorem subsectionKey_eq_some {sub : Subsection} {heading : String} (h : heading ≠ "") :
    subsectionKey sub = some heading ↔ strip (sub.heading.getD "") = heading := by
  unfold subsectionKey
  dsimp only
  by_cases hempty : strip (sub.heading.getD "") = ""
  · rw [if_pos hempty, hempty]
    exact iff_of_false (by simp) (Ne.symm h)
  · rw [if_neg hempty, Option.some.injEq]

/-- **A relocation changes the first place with its heading.** -/
theorem modifyContainer_places {key : Option String} (hkey : key ≠ some "")
    (f : Container → Option Container) (s : Section) :
    (modifyContainer key f s).map places = modifyPlace key f (places s) := by
  unfold modifyContainer modifyPlace
  cases key with
  | none =>
    rw [Option.getD_none]
    simp only [if_true]
    unfold places modifyFirst
    simp only [decide_true, if_true]
    cases hf : f (sectionContainer s) with
    | none => rfl
    | some c => rfl
  | some heading =>
    have hne : heading ≠ "" := fun h => hkey (by rw [h])
    rw [Option.getD_some]
    simp only [if_neg hne]
    rw [show places s = (none, sectionContainer s) ::
      (subsectionList s).map fun sub => (subsectionKey sub, subsectionContainer sub) from rfl]
    rw [modifyFirst_cons, if_neg (by simp)]
    rw [modifyFirst_map (p := fun sub : Subsection =>
      decide (strip (sub.heading.getD "") = heading))
      (f := fun sub => (f (subsectionContainer sub)).map (setSubsectionContainer sub))]
    · simp only [Option.map_map]
      rfl
    · intro sub
      simp only [subsectionKey_eq_some hne]
    · intro sub hsub
      simp only [Option.map_map]
      rfl

/-! ## Many relocations -/

section

variable (P : Patterns)

/-- One relocation on the places of a section. -/
def placeStep (l : List (Option String × Container)) (r : Relocation) :
    List (Option String × Container) :=
  if r.highConfidence = true then
    (modifyPlace r.subsectionHeading (relocateIn P r) l).getD l
  else l

/-- One relocation on the container it finds. -/
def containerStep (c : Container) (r : Relocation) : Container := (relocateIn P r c).getD c

/-- The relocations that are applied to the places with a key. -/
def relocationsOf (key : Option String) (rs : List Relocation) : List Relocation :=
  rs.filter fun r => r.highConfidence && r.subsectionHeading = key

end

section

variable {P : Patterns}

theorem relocate_places {s : Section} {r : Relocation} (hr : r.subsectionHeading ≠ some "") :
    places (relocate P s r) = placeStep P (places s) r := by
  unfold relocate placeStep applyRelocation
  split
  · rw [← modifyContainer_places hr]
    cases modifyContainer r.subsectionHeading (relocateIn P r) s <;> rfl
  · rfl

theorem foldl_relocate_places {rs : List Relocation} {s : Section}
    (hrs : ∀ r ∈ rs, r.subsectionHeading ≠ some "") :
    places (rs.foldl (relocate P) s) = rs.foldl (placeStep P) (places s) := by
  induction rs generalizing s with
  | nil => rfl
  | cons r rs ih =>
    rw [List.foldl_cons, List.foldl_cons, ih fun q hq => hrs q (List.mem_cons_of_mem _ hq),
      relocate_places (hrs r List.mem_cons_self)]

theorem modifyFirst_append {α : Type} {p : α → Bool} {f : α → Option α} (l m : List α) :
    modifyFirst p f (l ++ m) =
      if l.any p then (modifyFirst p f l).map (· ++ m) else (modifyFirst p f m).map (l ++ ·) := by
  induction l with
  | nil => simp
  | cons a l ih =>
    rw [List.cons_append, modifyFirst_cons, modifyFirst_cons, List.any_cons]
    by_cases ha : p a = true
    · rw [if_pos ha, if_pos ha, ha]
      cases f a <;> rfl
    · have ha' : p a = false := by simpa using ha
      rw [if_neg ha, if_neg ha, ih, ha', Bool.false_or]
      split
      · cases modifyFirst p f l <;> rfl
      · cases modifyFirst p f m <;> rfl

theorem modifyPlace_keys {key : Option String} {f : Container → Option Container}
    {l l' : List (Option String × Container)} (h : modifyPlace key f l = some l') :
    l'.map Prod.fst = l.map Prod.fst := by
  induction l generalizing l' with
  | nil => exact absurd h (by simp [modifyPlace, modifyFirst])
  | cons p l ih =>
    unfold modifyPlace at h
    rw [modifyFirst_cons] at h
    split at h
    · obtain ⟨q, hq, rfl⟩ := Option.map_eq_some_iff.1 h
      obtain ⟨c, -, rfl⟩ := Option.map_eq_some_iff.1 hq
      rfl
    · obtain ⟨m, hm, rfl⟩ := Option.map_eq_some_iff.1 h
      rw [List.map_cons, List.map_cons, ih hm]

theorem placeStep_keys (l : List (Option String × Container)) (r : Relocation) :
    (placeStep P l r).map Prod.fst = l.map Prod.fst := by
  unfold placeStep
  split
  · cases h : modifyPlace r.subsectionHeading (relocateIn P r) l with
    | none => rfl
    | some l' => exact modifyPlace_keys h
  · rfl

/-- One relocation changes what stands before a place, the place or what stands
behind it. -/
theorem placeStep_append {l m : List (Option String × Container)} {r : Relocation} :
    placeStep P (l ++ m) r =
      if r.subsectionHeading ∈ l.map Prod.fst then placeStep P l r ++ m
      else l ++ placeStep P m r := by
  have hany : (l.any fun p => decide (p.1 = r.subsectionHeading)) = true ↔
      r.subsectionHeading ∈ l.map Prod.fst := by
    rw [List.any_eq_true, List.mem_map]
    exact exists_congr fun p => and_congr_right fun _ => decide_eq_true_iff
  unfold placeStep
  split
  · unfold modifyPlace
    rw [modifyFirst_append]
    by_cases hmem : r.subsectionHeading ∈ l.map Prod.fst
    · rw [if_pos (hany.2 hmem), if_pos hmem]
      cases modifyFirst (fun p => decide (p.1 = r.subsectionHeading))
        (fun p => (relocateIn P r p.2).map fun c => (p.1, c)) l <;> rfl
    · rw [if_neg (mt hany.1 hmem), if_neg hmem]
      cases modifyFirst (fun p => decide (p.1 = r.subsectionHeading))
        (fun p => (relocateIn P r p.2).map fun c => (p.1, c)) m <;> rfl
  · split <;> rfl

theorem placeStep_cons {key : Option String} {c : Container}
    {m : List (Option String × Container)} {r : Relocation} :
    placeStep P ((key, c) :: m) r =
      if r.subsectionHeading = key then
        (key, if r.highConfidence = true then containerStep P c r else c) :: m
      else (key, c) :: placeStep P m r := by
  unfold placeStep containerStep
  by_cases hhigh : r.highConfidence = true
  · simp only [if_pos hhigh]
    unfold modifyPlace
    rw [modifyFirst_cons]
    by_cases hkey : r.subsectionHeading = key
    · rw [if_pos (by simpa using hkey.symm), if_pos hkey]
      cases relocateIn P r c <;> rfl
    · rw [if_neg (by simpa using Ne.symm hkey), if_neg hkey]
      cases modifyFirst (fun p => decide (p.1 = r.subsectionHeading))
        (fun p => (relocateIn P r p.2).map fun c => (p.1, c)) m <;> rfl
  · simp only [if_neg hhigh]
    split <;> rfl

theorem relocationsOf_cons {key : Option String} {r : Relocation} {rs : List Relocation} :
    relocationsOf key (r :: rs) =
      if r.highConfidence = true ∧ r.subsectionHeading = key then r :: relocationsOf key rs
      else relocationsOf key rs := by
  unfold relocationsOf
  rw [List.filter_cons]
  simp only [Bool.and_eq_true, decide_eq_true_eq]

/-- **The first place of a key undergoes the relocations of the key**, whatever
the other places undergo. -/
theorem foldl_relocate_place {rs : List Relocation} {l m : List (Option String × Container)}
    {key : Option String} {c : Container} (hfirst : key ∉ l.map Prod.fst) :
    ∃ l' m', rs.foldl (placeStep P) (l ++ (key, c) :: m) =
        l' ++ (key, (relocationsOf key rs).foldl (containerStep P) c) :: m' ∧
      l'.map Prod.fst = l.map Prod.fst := by
  induction rs generalizing l m c with
  | nil => exact ⟨l, m, rfl, rfl⟩
  | cons r rs ih =>
    rw [List.foldl_cons, placeStep_append, relocationsOf_cons]
    by_cases hmem : r.subsectionHeading ∈ l.map Prod.fst
    · have hne : r.subsectionHeading ≠ key := fun h => hfirst (h ▸ hmem)
      rw [if_pos hmem, if_neg fun h => hne h.2]
      have hfirst' : key ∉ (placeStep P l r).map Prod.fst := by rwa [placeStep_keys]
      obtain ⟨l', m', hfold, hkeys⟩ := ih (m := m) (c := c) hfirst'
      exact ⟨l', m', hfold, hkeys.trans (placeStep_keys l r)⟩
    · rw [if_neg hmem, placeStep_cons]
      by_cases hkey : r.subsectionHeading = key
      · rw [if_pos hkey]
        obtain ⟨l', m', hfold, hkeys⟩ := ih (m := m)
          (c := if r.highConfidence = true then containerStep P c r else c) hfirst
        refine ⟨l', m', ?_, hkeys⟩
        rw [hfold]
        by_cases hhigh : r.highConfidence = true
        · rw [if_pos hhigh, if_pos ⟨hhigh, hkey⟩, List.foldl_cons]
        · rw [if_neg hhigh, if_neg fun h => hhigh h.1]
      · rw [if_neg hkey, if_neg fun h => hkey h.2]
        exact ih hfirst

/-- **A place behind one of its own key stays as it is.** -/
theorem foldl_relocate_hidden {rs : List Relocation} {l m : List (Option String × Container)}
    {key : Option String} {c : Container} (hhidden : key ∈ l.map Prod.fst) :
    ∃ l' m', rs.foldl (placeStep P) (l ++ (key, c) :: m) = l' ++ (key, c) :: m' ∧
      l'.map Prod.fst = l.map Prod.fst := by
  induction rs generalizing l m with
  | nil => exact ⟨l, m, rfl, rfl⟩
  | cons r rs ih =>
    rw [List.foldl_cons, placeStep_append]
    by_cases hmem : r.subsectionHeading ∈ l.map Prod.fst
    · rw [if_pos hmem]
      have hhidden' : key ∈ (placeStep P l r).map Prod.fst := by rwa [placeStep_keys]
      obtain ⟨l', m', hfold, hkeys⟩ := ih (m := m) hhidden'
      exact ⟨l', m', hfold, hkeys.trans (placeStep_keys l r)⟩
    · have hne : r.subsectionHeading ≠ key := fun h => hmem (h ▸ hhidden)
      rw [if_neg hmem, placeStep_cons, if_neg hne]
      exact ih hhidden

end

end StudyAgent.Placement
