import StudyAgent.Base.StaleIndex
import StudyAgent.Placement.Places

/-!
# The relocation of one section

The placement checks of a section, the plans built from them and their application,
followed through to what they do to each container of the section.  Plans address
blocks by indices that are taken once, though the lists shrink under the moves, and
every check plans all blocks of its kind again; so a container undergoes passes of
removals over indices that go stale.

Main results:

* `code_phase`, `formula_phase` — moves are removals at the planned indices.
* `relocationsOf_section` — the relocations of one key, kind by kind.
* `relocated_place` — **what becomes of a container that can be addressed.**
* `hidden_place` — one behind another with its key stays as it is.
-/

namespace StudyAgent.Placement

open Py StaleIndex

/-! ## Bodies of blocks -/

/-- What a block says, its explanation apart: its language or notation and its
code or formula. -/
abbrev Body := Option String × Option String

def codeBody (b : CodeBlock) : Body := (b.language, b.code)

def formulaBody (b : FormulaBlock) : Body := (b.mathNotation, b.formula)

/-- The body of the formula block made from a code block. -/
def toFormulaBody (b : Body) : Body := (some (b.1.getD "plain-text"), some (b.2.getD ""))

/-- The body of the code block made from a formula block. -/
def toCodeBody (b : Body) : Body := (some "python", some (b.2.getD ""))

def Container.codeBodies (c : Container) : List Body := c.code.map codeBody

def Container.formulaBodies (c : Container) : List Body := c.formulas.map formulaBody

@[simp] theorem formulaBody_toFormulaBlock (b : CodeBlock) :
    formulaBody (toFormulaBlock b) = toFormulaBody (codeBody b) := rfl

@[simp] theorem codeBody_toCodeBlock (b : FormulaBlock) :
    codeBody (toCodeBlock b) = toCodeBody (formulaBody b) := rfl

/-! ## Before and after -/

section

variable (P : Patterns) (domain : String) (s : Section)

/-- The section after the plans built from some of its checks. -/
def afterChecks (checks : List Check) : Section :=
  (applyRelocationPlans P { sections := [s] }
    (buildRelocationPlans P { sections := [s] } checks)).1.sections.headD s

/-- The section after the plans of its equation checks only. -/
def afterEquations : Section := afterChecks P s (equationChecks P domain s)

/-- The section after the plans of all its placement checks. -/
def relocatedSection : Section := afterChecks P s (sectionPlacementChecks P domain s)

/-! ## Passes -/

/-- How many math checks of the section plan the math blocks of the containers
with a key. -/
def mathPasses (key : Option String) : ℕ :=
  (codeBlockLocations s).countP fun p =>
    isMathBlock p.1 &&
      inScope (evidenceSubsection P (mathCheck P s (strip (p.1.language.getD "")) p.2)) key

/-- How many checks of the section plan the programming code in the formula
blocks of the containers with a key. -/
def codePasses (key : Option String) : ℕ :=
  (formulaBlockLocations s).countP fun p =>
    isCodeBlockInFormula P p.1 && inScope (evidenceSubsection P (codeInFormulaCheck P s p.2)) key

/-- The indices planned for the places with a key. -/
def plannedIndices {α : Type} (good : α → Bool) (key : Option String)
    (indexed : List (α × Option String × ℕ)) : List ℕ :=
  (indexed.filter fun p => decide (p.2.1 = key) && good p.1).map fun p => p.2.2

end

/-! ## What one relocation does to a container -/

section

variable {P : Patterns} {s : Section}

/-- The index of the block a relocation moves, if it moves one. -/
def moveIndex (r : Relocation) : Option ℕ :=
  if r.action = .moveBlock then r.blockIndex else none

/-- A relocation within the prose of a container. -/
def IsProse (r : Relocation) : Prop := r.action = .extract ∨ r.action = .dereference

def IsFill (r : Relocation) : Prop := r.action = .fillExplanation

/-- A move of a block from one kind to the other. -/
def IsMove (source target : BlockKind) (r : Relocation) : Prop :=
  r.action = .moveBlock ∧ r.blockKind = some source ∧ r.targetKind = some target ∧
    ∃ i, r.blockIndex = some i

theorem containerStep_prose {r : Relocation} (h : IsProse r) (c : Container) :
    (containerStep P c r).code = c.code ∧
      ∃ extracted, (containerStep P c r).formulas = c.formulas ++ extracted := by
  unfold containerStep relocateIn
  rcases h with h | h <;> rw [h]
  · show ((applyExtract P r c).getD c).code = _ ∧ ∃ x, ((applyExtract P r c).getD c).formulas = _
    unfold applyExtract
    dsimp only
    split
    · split_ifs
      · exact ⟨rfl, [], (List.append_nil _).symm⟩
      · exact ⟨rfl, [], (List.append_nil _).symm⟩
      · exact ⟨rfl, _, rfl⟩
    · exact ⟨rfl, [], (List.append_nil _).symm⟩
  · show ((applyDereference r c).getD c).code = _ ∧
      ∃ x, ((applyDereference r c).getD c).formulas = _
    unfold applyDereference
    dsimp only
    split
    · exact ⟨rfl, [], (List.append_nil _).symm⟩
    · exact ⟨rfl, [], (List.append_nil _).symm⟩

theorem containerStep_fill {r : Relocation} (h : IsFill r) (c : Container) :
    (containerStep P c r).codeBodies = c.codeBodies ∧
      (containerStep P c r).formulaBodies = c.formulaBodies := by
  have hstep : containerStep P c r = (applyFillExplanation r c).getD c := by
    unfold containerStep relocateIn
    rw [h]
  rw [hstep]
  cases happ : applyFillExplanation r c with
  | none => exact ⟨rfl, rfl⟩
  | some c' =>
    exact applyFillExplanation_map (f := codeBody) (g := formulaBody) (fun _ _ => rfl)
      (fun _ _ => rfl) happ

/-- What is removed from the images of the elements. -/
theorem popStep_map {α β : Type} (f : α → β) (l : List α) (i : ℕ) :
    popStep (l.map f, []) i =
      ((l[i]?.map fun a => ((l.eraseIdx i).map f, [f a])).getD (l.map f, [])) := by
  unfold popStep
  dsimp only
  rw [List.getElem?_map]
  cases l[i]? with
  | none => rfl
  | some a =>
    rw [Option.map_some, Option.map_some, Option.getD_some, List.eraseIdx_map]
    rfl

theorem containerStep_moveBlock {r : Relocation} (haction : r.action = .moveBlock) {i : ℕ}
    (hi : moveIndex r = some i) (c : Container) :
    r.blockIndex = some i ∧ containerStep P c r = (applyMoveBlock r c).getD c := by
  unfold moveIndex at hi
  rw [if_pos haction] at hi
  refine ⟨hi, ?_⟩
  unfold containerStep relocateIn
  rw [haction]

/-- A move out of the code blocks. -/
theorem containerStep_moveOut {r : Relocation} (h : IsMove .codeBlocks .formulaBlocks r) {i : ℕ}
    (hi : moveIndex r = some i) (c : Container) :
    (containerStep P c r).codeBodies = (popStep (c.codeBodies, []) i).1 ∧
      (containerStep P c r).formulaBodies =
        c.formulaBodies ++ (popStep (c.codeBodies, []) i).2.map toFormulaBody := by
  obtain ⟨haction, hkind, htarget, -⟩ := h
  obtain ⟨hindex, hstep⟩ := containerStep_moveBlock (P := P) haction hi c
  rw [hstep, show c.codeBodies = c.code.map codeBody from rfl, popStep_map]
  unfold applyMoveBlock
  rw [hkind, htarget, hindex]
  dsimp only
  cases c.code[i]? with
  | none => exact ⟨rfl, (List.append_nil _).symm⟩
  | some b =>
    constructor
    · rfl
    · show (c.formulas ++ [toFormulaBlock b]).map formulaBody = _
      rw [List.map_append]
      rfl

/-- A move into the code blocks. -/
theorem containerStep_moveIn {r : Relocation} (h : IsMove .formulaBlocks .codeBlocks r) {i : ℕ}
    (hi : moveIndex r = some i) (c : Container) :
    (containerStep P c r).formulaBodies = (popStep (c.formulaBodies, []) i).1 ∧
      (containerStep P c r).codeBodies =
        c.codeBodies ++ (popStep (c.formulaBodies, []) i).2.map toCodeBody := by
  obtain ⟨haction, hkind, htarget, -⟩ := h
  obtain ⟨hindex, hstep⟩ := containerStep_moveBlock (P := P) haction hi c
  rw [hstep, show c.formulaBodies = c.formulas.map formulaBody from rfl, popStep_map]
  unfold applyMoveBlock
  rw [hkind, htarget, hindex]
  dsimp only
  cases c.formulas[i]? with
  | none => exact ⟨rfl, (List.append_nil _).symm⟩
  | some b =>
    constructor
    · rfl
    · show (c.code ++ [toCodeBlock b]).map codeBody = _
      rw [List.map_append]
      rfl

/-! ## Phases -/

theorem prose_phase {rs : List Relocation} (h : ∀ r ∈ rs, IsProse r) (c : Container) :
    (rs.foldl (containerStep P) c).code = c.code ∧
      ∃ extracted, (rs.foldl (containerStep P) c).formulas = c.formulas ++ extracted := by
  induction rs generalizing c with
  | nil => exact ⟨rfl, [], (List.append_nil _).symm⟩
  | cons r rs ih =>
    obtain ⟨hcode, x, hx⟩ := containerStep_prose (P := P) (h r List.mem_cons_self) c
    obtain ⟨hcode', y, hy⟩ := ih (fun q hq => h q (List.mem_cons_of_mem _ hq)) (containerStep P c r)
    refine ⟨hcode'.trans hcode, x ++ y, ?_⟩
    rw [List.foldl_cons, hy, hx, List.append_assoc]

/-- Fills and moves out of the code blocks remove the code blocks at the planned
indices. -/
theorem code_phase {rs : List Relocation}
    (h : ∀ r ∈ rs, IsFill r ∨ IsMove .codeBlocks .formulaBlocks r) (c : Container) :
    (rs.foldl (containerStep P) c).codeBodies =
        (popAll (rs.filterMap moveIndex) (c.codeBodies, [])).1 ∧
      (rs.foldl (containerStep P) c).formulaBodies = c.formulaBodies ++
        (popAll (rs.filterMap moveIndex) (c.codeBodies, [])).2.map toFormulaBody := by
  refine foldl_pop (fun r hr hi c => ?_) (fun r hr i hi c => ?_) c
  · rcases h r hr with hfill | ⟨haction, -, -, j, hj⟩
    · exact containerStep_fill hfill c
    · unfold moveIndex at hi
      rw [if_pos haction, hj] at hi
      exact absurd hi (by simp)
  · rcases h r hr with hfill | hmove
    · unfold moveIndex at hi
      rw [hfill] at hi
      exact absurd hi (by simp)
    · exact containerStep_moveOut hmove hi c

/-- Fills and moves into the code blocks remove the formula blocks at the planned
indices. -/
theorem formula_phase {rs : List Relocation}
    (h : ∀ r ∈ rs, IsFill r ∨ IsMove .formulaBlocks .codeBlocks r) (c : Container) :
    (rs.foldl (containerStep P) c).formulaBodies =
        (popAll (rs.filterMap moveIndex) (c.formulaBodies, [])).1 ∧
      (rs.foldl (containerStep P) c).codeBodies = c.codeBodies ++
        (popAll (rs.filterMap moveIndex) (c.formulaBodies, [])).2.map toCodeBody := by
  refine foldl_pop (fun r hr hi c => ?_) (fun r hr i hi c => ?_) c
  · rcases h r hr with hfill | ⟨haction, -, -, j, hj⟩
    · exact (containerStep_fill hfill c).symm
    · unfold moveIndex at hi
      rw [if_pos haction, hj] at hi
      exact absurd hi (by simp)
  · rcases h r hr with hfill | hmove
    · unfold moveIndex at hi
      rw [hfill] at hi
      exact absurd hi (by simp)
    · exact containerStep_moveIn hmove hi c

/-! ## The relocations of a section -/

theorem placementSectionId_eq_some {sid : String} (h : placementSectionId s = some sid) :
    s.idText = sid ∧ sid ≠ "" := by
  unfold placementSectionId at h
  split at h
  next given hgiven =>
    split at h
    · exact absurd h (by simp)
    next hne =>
      cases h
      exact ⟨Section.idText_of_givenId hgiven, hne⟩
  next => exact absurd h (by simp)

/-- A placement check of this section. -/
def IsOwn (s : Section) (c : Check) : Prop :=
  c.sectionId = (placementSectionId s).map .str ∧ c.idText ∈ PLACEMENT_CHECK_IDS

theorem isOwn_failedCheck {checkId question evidence hint : String}
    (h : checkId ∈ PLACEMENT_CHECK_IDS) :
    IsOwn s (failedCheck checkId (placementSectionId s) question evidence hint) := ⟨rfl, h⟩

theorem isOwn_equationChecks {domain : String} {c : Check} (h : c ∈ equationChecks P domain s) :
    IsOwn s c := by
  obtain ⟨p, -, rfl⟩ := List.mem_map.1 h
  exact isOwn_failedCheck (by decide)

theorem isOwn_codeBlockChecks {p : CodeBlock × Option String} {c : Check}
    (h : c ∈ codeBlockChecks P s p) : IsOwn s c := by
  rcases (mem_codeBlockChecks.1 h).2 with ⟨-, rfl⟩ | ⟨-, rfl⟩ | ⟨-, rfl⟩
  · exact isOwn_failedCheck (by decide)
  · exact isOwn_failedCheck (by decide)
  · exact isOwn_failedCheck (by decide)

theorem isOwn_formulaBlockChecks {p : FormulaBlock × Option String} {c : Check}
    (h : c ∈ formulaBlockChecks P s p) : IsOwn s c := by
  rcases (mem_formulaBlockChecks.1 h).2 with ⟨-, rfl⟩ | ⟨-, rfl⟩
  · exact isOwn_failedCheck (by decide)
  · exact isOwn_failedCheck (by decide)

theorem isOwn_sectionPlacementChecks {domain : String} {c : Check}
    (h : c ∈ sectionPlacementChecks P domain s) : IsOwn s c := by
  rcases mem_sectionPlacementChecks.1 h with h | ⟨-, rfl⟩ | ⟨p, -, hp⟩ | ⟨p, -, hp⟩
  · exact isOwn_equationChecks h
  · exact isOwn_failedCheck (by decide)
  · exact isOwn_codeBlockChecks hp
  · exact isOwn_formulaBlockChecks hp

/-- A section without an id is left alone. -/
theorem afterChecks_of_no_id {checks : List Check} (h : placementSectionId s = none)
    (hown : ∀ c ∈ checks, IsOwn s c) : afterChecks P s checks = s := by
  have hplans : buildRelocationPlans P { sections := [s] } checks = [] := by
    refine List.filterMap_eq_nil_iff.2 fun c hc => ?_
    have hsec : c.sectionText = "" := by
      unfold Check.sectionText
      rw [(hown c hc).1, h]
      decide
    unfold relocationPlan
    rw [if_pos (Or.inr hsec)]
  unfold afterChecks
  rw [hplans]
  rfl

/-- A section with an id undergoes the relocations of its checks one after
another. -/
theorem afterChecks_eq {checks : List Check} {sid : String} (h : placementSectionId s = some sid)
    (hown : ∀ c ∈ checks, IsOwn s c) :
    afterChecks P s checks = (checks.flatMap (relocationsFor P s)).foldl (relocate P) s := by
  obtain ⟨hid, hne⟩ := placementSectionId_eq_some h
  have hsec : ∀ c ∈ checks, c.sectionText = sid := by
    intro c hc
    unfold Check.sectionText
    rw [(hown c hc).1, h, Option.map_some, getTextOr_str, ← hid, Section.strip_idText]
  have hlast : lastSection [s] sid = some s := by simp [lastSection, hid]
  have hplan : ∀ c ∈ checks, relocationPlan P { sections := [s] } c =
      if relocationsFor P s c = [] then none
      else some { checkId := c.idText, sectionId := sid, relocations := relocationsFor P s c } := by
    intro c hc
    unfold relocationPlan
    rw [hsec c hc, if_neg (not_or.2 ⟨not_not.2 (hown c hc).2, hne⟩), hlast]
  have hplans : ∀ l : List Check, (∀ c ∈ l, c ∈ checks) →
      (buildRelocationPlans P { sections := [s] } l).flatMap RelocationPlan.relocations =
        l.flatMap (relocationsFor P s) := by
    intro l
    induction l with
    | nil => intro _; rfl
    | cons c l ih =>
      intro hl
      have ih' := ih fun d hd => hl d (List.mem_cons_of_mem _ hd)
      unfold buildRelocationPlans at ih' ⊢
      rw [List.filterMap_cons, hplan c (hl c List.mem_cons_self), List.flatMap_cons, ← ih']
      by_cases hnil : relocationsFor P s c = []
      · rw [if_pos hnil, hnil]
        rfl
      · rw [if_neg hnil]
        rfl
  unfold afterChecks
  rw [applyRelocationPlans_single (s := s), hplans checks fun _ hc => hc]
  · rfl
  · intro plan hmem
    obtain ⟨c, hc, hp⟩ := List.mem_filterMap.1 hmem
    rw [hplan c hc] at hp
    split at hp
    · exact absurd hp (by simp)
    · rw [← Option.some.inj hp, hid]
  · rw [hid]
    exact hne

/-! ## Relocations by place -/

theorem subsectionKey_ne (sub : Subsection) : subsectionKey sub ≠ some "" := by
  unfold subsectionKey
  dsimp only
  split
  · simp
  next h => simpa using h

theorem evidenceSubsection_ne (c : Check) : evidenceSubsection P c ≠ some "" := by
  unfold evidenceSubsection
  split
  · dsimp only
    split
    · simp
    next h => simpa using h
  · simp

theorem indexedCodeBlocks_eq (s : Section) :
    indexedCodeBlocks s = (places s).flatMap fun q => q.2.code.zipIdx.map fun p =>
      (p.1, q.1, p.2) := by
  unfold indexedCodeBlocks places
  rw [List.flatMap_cons, List.flatMap_map]
  dsimp only [Container.code, sectionContainer, subsectionContainer]

theorem indexedFormulaBlocks_eq (s : Section) :
    indexedFormulaBlocks s = (places s).flatMap fun q => q.2.formulas.zipIdx.map fun p =>
      (p.1, q.1, p.2) := by
  unfold indexedFormulaBlocks places
  rw [List.flatMap_cons, List.flatMap_map]
  dsimp only [Container.formulas, sectionContainer, subsectionContainer]

theorem indexed_key_ne {q : Option String × Container} (h : q ∈ places s) : q.1 ≠ some "" := by
  rcases List.mem_cons.1 h with rfl | h
  · simp
  · obtain ⟨sub, -, rfl⟩ := List.mem_map.1 h
    dsimp only
    exact subsectionKey_ne sub

theorem indexedCodeBlocks_key {p : CodeBlock × Option String × ℕ} (h : p ∈ indexedCodeBlocks s) :
    p.2.1 ≠ some "" := by
  rw [indexedCodeBlocks_eq] at h
  obtain ⟨q, hq, hp⟩ := List.mem_flatMap.1 h
  obtain ⟨b, -, rfl⟩ := List.mem_map.1 hp
  exact indexed_key_ne hq

theorem indexedFormulaBlocks_key {p : FormulaBlock × Option String × ℕ}
    (h : p ∈ indexedFormulaBlocks s) : p.2.1 ≠ some "" := by
  rw [indexedFormulaBlocks_eq] at h
  obtain ⟨q, hq, hp⟩ := List.mem_flatMap.1 h
  obtain ⟨b, -, rfl⟩ := List.mem_map.1 hp
  exact indexed_key_ne hq

/-- Every relocation about prose has the heading its check was read to name. -/
theorem planEquation_cases {c : Check} {r : Relocation} (h : r ∈ planEquationInContent P s c) :
    IsProse r ∧ (r.subsectionHeading = none ∨ r.subsectionHeading = evidenceSubsection P c) := by
  obtain ⟨⟨content, sub⟩, htarget, hr⟩ := List.mem_flatMap.1 h
  have hsub : sub = none ∨ sub = evidenceSubsection P c := by
    unfold contentTargets at htarget
    split at htarget
    next heading hscope =>
      split at htarget
      · rw [hscope]
        exact Or.inr (Prod.mk.inj (List.mem_singleton.1 htarget)).2
      · exact absurd htarget List.not_mem_nil
    next =>
      split at htarget
      · exact absurd htarget List.not_mem_nil
      · exact Or.inl (Prod.mk.inj (List.mem_singleton.1 htarget)).2
  dsimp only at hr
  rcases List.mem_append.1 hr with hr | hr
  · obtain ⟨span, -, hspan⟩ := List.mem_filterMap.1 hr
    have hcases : IsProse r ∧ r.subsectionHeading = sub := by
      unfold equationRelocation at hspan
      dsimp only at hspan
      split at hspan
      · exact absurd hspan (by simp)
      · split at hspan
        · cases hspan
          exact ⟨Or.inr rfl, rfl⟩
        · split at hspan
          · split at hspan
            · split at hspan
              · cases hspan
                exact ⟨Or.inr rfl, rfl⟩
              · cases hspan
                exact ⟨Or.inl rfl, rfl⟩
            · cases hspan
              exact ⟨Or.inr rfl, rfl⟩
          · cases hspan
            exact ⟨Or.inl rfl, rfl⟩
    rw [hcases.2]
    exact ⟨hcases.1, hsub⟩
  · obtain ⟨span, -, rfl⟩ := List.mem_map.1 hr
    exact ⟨Or.inr rfl, hsub⟩

theorem planEmpty_cases {c : Check} {r : Relocation} (h : r ∈ planEmptyBlockExplanation P s c) :
    IsFill r ∧ r.subsectionHeading ≠ some "" := by
  unfold planEmptyBlockExplanation at h
  split at h
  · obtain ⟨p, hp, rfl⟩ := List.mem_map.1 h
    exact ⟨rfl, indexedFormulaBlocks_key (List.mem_filter.1 hp).1⟩
  · obtain ⟨p, hp, rfl⟩ := List.mem_map.1 h
    exact ⟨rfl, indexedCodeBlocks_key (List.mem_filter.1 hp).1⟩

theorem planMath_cases {c : Check} {r : Relocation} (h : r ∈ planMathInCodeBlock P s c) :
    IsMove .codeBlocks .formulaBlocks r ∧ r.subsectionHeading ≠ some "" := by
  obtain ⟨p, hp, rfl⟩ := List.mem_map.1 h
  exact ⟨⟨rfl, rfl, rfl, p.2.2, rfl⟩, indexedCodeBlocks_key (List.mem_filter.1 hp).1⟩

theorem planCode_cases {c : Check} {r : Relocation} (h : r ∈ planCodeInFormulaBlock P s c) :
    IsMove .formulaBlocks .codeBlocks r ∧ r.subsectionHeading ≠ some "" := by
  obtain ⟨p, hp, rfl⟩ := List.mem_map.1 h
  exact ⟨⟨rfl, rfl, rfl, p.2.2, rfl⟩, indexedFormulaBlocks_key (List.mem_filter.1 hp).1⟩

theorem relocationsFor_heading {c : Check} {r : Relocation} (h : r ∈ relocationsFor P s c) :
    r.subsectionHeading ≠ some "" := by
  unfold relocationsFor at h
  split_ifs at h
  · rcases (planEquation_cases h).2 with h' | h' <;> rw [h']
    · simp
    · exact evidenceSubsection_ne c
  · exact (planMath_cases h).2
  · exact (planCode_cases h).2
  · exact (planEmpty_cases h).2
  · rw [List.mem_singleton.1 h]
    simp
  · exact absurd h List.not_mem_nil

/-! ## The planned indices -/

/-- A check that is read to be about the key plans all its indices, any other
check none. -/
theorem moveIndices_planned {α : Type} {good : α → Bool} {key scope : Option String}
    {indexed : List (α × Option String × ℕ)} {sectionId : String} {source target : BlockKind} :
    (relocationsOf key ((indexed.filter fun p => inScope scope p.2.1 && good p.1).map fun p =>
        moveRelocation sectionId p.2.1 source target p.2.2)).filterMap moveIndex =
      if inScope scope key = true then plannedIndices good key indexed else [] := by
  unfold relocationsOf plannedIndices
  rw [List.filter_map, List.filterMap_map, List.filter_filter]
  have hindex : ∀ l : List (α × Option String × ℕ),
      l.filterMap (moveIndex ∘ fun p => moveRelocation sectionId p.2.1 source target p.2.2) =
        l.map fun p => p.2.2 := by
    intro l
    rw [← List.filterMap_eq_map]
    rfl
  rw [hindex]
  by_cases hscope : inScope scope key = true
  · rw [if_pos hscope]
    congr 1
    refine List.filter_congr fun p _ => ?_
    by_cases hkey : p.2.1 = key
    · simp [moveRelocation, hkey, hscope]
    · simp [moveRelocation, hkey]
  · rw [if_neg hscope, List.map_eq_nil_iff, List.filter_eq_nil_iff]
    intro p _ hp
    simp only [Function.comp_apply, moveRelocation, Bool.and_eq_true, decide_eq_true_eq] at hp
    rw [hp.1.2] at hp
    exact hscope hp.2.1

theorem moveIndices_fill {key : Option String} {rs : List Relocation} (h : ∀ r ∈ rs, IsFill r) :
    (relocationsOf key rs).filterMap moveIndex = [] := by
  refine List.filterMap_eq_nil_iff.2 fun r hr => ?_
  have hfill := h r (List.mem_filter.1 hr).1
  unfold moveIndex
  rw [hfill]
  rfl

theorem relocationsOf_append (key : Option String) (rs qs : List Relocation) :
    relocationsOf key (rs ++ qs) = relocationsOf key rs ++ relocationsOf key qs :=
  List.filter_append ..

theorem relocationsOf_flatMap {α : Type} (key : Option String) (l : List α)
    (f : α → List Relocation) :
    relocationsOf key (l.flatMap f) = l.flatMap fun a => relocationsOf key (f a) :=
  List.filter_flatMap

theorem flatMap_ite {α β : Type} (p : α → Bool) (l : List α) (m : List β) :
    (l.flatMap fun a => if p a = true then m else []) =
      (List.replicate (l.countP p) m).flatten := by
  induction l with
  | nil => rfl
  | cons a l ih =>
    rw [List.flatMap_cons, ih, List.countP_cons]
    by_cases ha : p a = true
    · rw [if_pos ha, if_pos ha, List.replicate_succ, List.flatten_cons]
    · rw [if_neg ha, if_neg ha]
      rfl

theorem relocationsFor_mathCheck (lang : String) (key : Option String) :
    relocationsFor P s (mathCheck P s lang key) =
      planMathInCodeBlock P s (mathCheck P s lang key) := by
  have hid : (mathCheck P s lang key).idText = "det_math_in_code_block" := rfl
  unfold relocationsFor
  rw [hid, if_neg (by decide), if_pos rfl]

theorem relocationsFor_pseudocodeCheck (key : Option String) :
    relocationsFor P s (pseudocodeCheck P s key) = [] := by
  have hid : (pseudocodeCheck P s key).idText = "det_pseudocode_in_code_block" := rfl
  unfold relocationsFor
  rw [hid, if_neg (by decide), if_neg (by decide), if_neg (by decide), if_neg (by decide),
    if_neg (by decide)]

theorem relocationsFor_emptyExplanation {c : Check} (h : c.idText = "det_empty_block_explanation") :
    relocationsFor P s c = planEmptyBlockExplanation P s c := by
  unfold relocationsFor
  rw [h, if_neg (by decide), if_neg (by decide), if_neg (by decide), if_pos rfl]

/-- The check of a missing explanation fills it. -/
theorem fill_of_emptyExplanation {c : Check} (hid : c.idText = "det_empty_block_explanation")
    (missing : Prop) [Decidable missing] :
    ∀ r ∈ (if missing then [c] else []).flatMap (relocationsFor P s), IsFill r := by
  intro r hr
  split at hr
  · rw [List.flatMap_singleton, relocationsFor_emptyExplanation hid] at hr
    exact (planEmpty_cases hr).1
  · exact absurd hr List.not_mem_nil

theorem relocationsFor_codeInFormulaCheck (key : Option String) :
    relocationsFor P s (codeInFormulaCheck P s key) =
      planCodeInFormulaBlock P s (codeInFormulaCheck P s key) := by
  have hid : (codeInFormulaCheck P s key).idText = "det_code_in_formula_block" := rfl
  unfold relocationsFor
  rw [hid, if_neg (by decide), if_neg (by decide), if_pos rfl]

/-- The relocations of the checks of one code block. -/
theorem codeBlock_relocations (p : CodeBlock × Option String) (key : Option String) :
    (∀ r ∈ (codeBlockChecks P s p).flatMap (relocationsFor P s),
      IsFill r ∨ IsMove .codeBlocks .formulaBlocks r) ∧
    (relocationsOf key ((codeBlockChecks P s p).flatMap (relocationsFor P s))).filterMap moveIndex =
      if (isMathBlock p.1 && inScope
          (evidenceSubsection P (mathCheck P s (strip (p.1.language.getD "")) p.2)) key) = true then
        plannedIndices isMathBlock key (indexedCodeBlocks s)
      else [] := by
  have hgood : isMathBlock p.1 = (decide (strip (p.1.code.getD "") ≠ "") &&
    isMathLikeLanguage (strip (p.1.language.getD ""))) := rfl
  unfold codeBlockChecks
  dsimp only
  by_cases hcode : strip (p.1.code.getD "") = ""
  · simp [hgood, hcode, relocationsOf]
  simp only [if_neg hcode, List.flatMap_append, relocationsOf_append, List.filterMap_append]
  have hlast := fill_of_emptyExplanation (P := P) (s := s)
    (c := emptyCodeExplanationCheck P s p.2) rfl (strip (p.1.explanation.getD "") = "")
  have hmid : (if lower (strip (p.1.language.getD "")) ∈ PROGRAMMING_LANGUAGES ∧
        P.looksLikePseudocode (strip (p.1.code.getD "")) = true then
        [pseudocodeCheck P s p.2] else []).flatMap (relocationsFor P s) = [] := by
    split
    · rw [List.flatMap_singleton, relocationsFor_pseudocodeCheck]
    · rfl
  rw [hmid, moveIndices_fill hlast]
  constructor
  · intro r hr
    rw [List.append_nil, List.mem_append] at hr
    rcases hr with hr | hr
    · split at hr
      · rw [List.flatMap_singleton, relocationsFor_mathCheck] at hr
        exact Or.inr (planMath_cases hr).1
      · exact absurd hr List.not_mem_nil
    · exact Or.inl (hlast r hr)
  · simp only [relocationsOf, List.filter_nil, List.filterMap_nil, List.append_nil]
    by_cases hlang : isMathLikeLanguage (strip (p.1.language.getD "")) = true
    · rw [if_pos hlang, List.flatMap_singleton, relocationsFor_mathCheck]
      have hplan := @moveIndices_planned _ isMathBlock key
        (evidenceSubsection P (mathCheck P s (strip (p.1.language.getD "")) p.2))
        (indexedCodeBlocks s) (mathCheck P s (strip (p.1.language.getD "")) p.2).sectionText
        .codeBlocks .formulaBlocks
      unfold relocationsOf at hplan
      unfold planMathInCodeBlock
      rw [hplan, hgood, hlang, decide_eq_true hcode]
      rfl
    · rw [if_neg hlang, hgood, Bool.eq_false_iff.2 hlang, Bool.and_false, Bool.false_and]
      rfl

/-- The relocations of the checks of one formula block. -/
theorem formulaBlock_relocations (p : FormulaBlock × Option String) (key : Option String) :
    (∀ r ∈ (formulaBlockChecks P s p).flatMap (relocationsFor P s),
      IsFill r ∨ IsMove .formulaBlocks .codeBlocks r) ∧
    (relocationsOf key ((formulaBlockChecks P s p).flatMap (relocationsFor P s))).filterMap
        moveIndex =
      if (isCodeBlockInFormula P p.1 && inScope
          (evidenceSubsection P (codeInFormulaCheck P s p.2)) key) = true then
        plannedIndices (isCodeBlockInFormula P) key (indexedFormulaBlocks s)
      else [] := by
  have hgood : isCodeBlockInFormula P p.1 = (decide (strip (p.1.formula.getD "") ≠ "") &&
    P.looksLikeProgrammingCode (strip (p.1.formula.getD ""))) := rfl
  unfold formulaBlockChecks
  dsimp only
  by_cases hformula : strip (p.1.formula.getD "") = ""
  · simp [hgood, hformula, relocationsOf]
  simp only [if_neg hformula, List.flatMap_append, relocationsOf_append, List.filterMap_append]
  have hlast := fill_of_emptyExplanation (P := P) (s := s)
    (c := emptyFormulaExplanationCheck P s p.2) rfl (strip (p.1.explanation.getD "") = "")
  rw [moveIndices_fill hlast]
  constructor
  · intro r hr
    rw [List.mem_append] at hr
    rcases hr with hr | hr
    · split at hr
      · rw [List.flatMap_singleton, relocationsFor_codeInFormulaCheck] at hr
        exact Or.inr (planCode_cases hr).1
      · exact absurd hr List.not_mem_nil
    · exact Or.inl (hlast r hr)
  · rw [List.append_nil]
    by_cases hcode : P.looksLikeProgrammingCode (strip (p.1.formula.getD "")) = true
    · rw [if_pos hcode, List.flatMap_singleton, relocationsFor_codeInFormulaCheck]
      have hplan := @moveIndices_planned _ (isCodeBlockInFormula P) key
        (evidenceSubsection P (codeInFormulaCheck P s p.2)) (indexedFormulaBlocks s)
        (codeInFormulaCheck P s p.2).sectionText .formulaBlocks .codeBlocks
      unfold planCodeInFormulaBlock
      rw [hplan, hgood, hcode, decide_eq_true hformula]
      rfl
    · rw [if_neg hcode, hgood, Bool.eq_false_iff.2 hcode, Bool.and_false, Bool.false_and]
      rfl

/-- The indices planned for a key are those of its first place, when no later
place with the key holds a block to be moved. -/
theorem plannedIndices_of_first {α : Type} {good : α → Bool} {key : Option String}
    {blocks : Container → List α} {l m : List (Option String × Container)} {c : Container}
    (hfirst : key ∉ l.map Prod.fst)
    (hlater : ∀ q ∈ m, q.1 = key → (blocks q.2).filter good = []) :
    plannedIndices good key ((l ++ (key, c) :: m).flatMap fun q =>
        (blocks q.2).zipIdx.map fun p => (p.1, q.1, p.2)) = indicesOf good 0 (blocks c) := by
  have hplace : ∀ q : Option String × Container,
      plannedIndices good key ((blocks q.2).zipIdx.map fun p => (p.1, q.1, p.2)) =
        if q.1 = key then indicesOf good 0 (blocks q.2) else [] := by
    intro q
    unfold plannedIndices indicesOf
    rw [List.filter_map, List.map_map]
    by_cases hkey : q.1 = key
    · rw [if_pos hkey]
      congr 1
      refine List.filter_congr fun p _ => ?_
      simp [hkey]
    · rw [if_neg hkey, List.map_eq_nil_iff, List.filter_eq_nil_iff]
      intro p _
      simp [hkey]
  have happend : ∀ is js : List (α × Option String × ℕ), plannedIndices good key (is ++ js) =
      plannedIndices good key is ++ plannedIndices good key js := by
    intro is js
    unfold plannedIndices
    rw [List.filter_append, List.map_append]
  have hnil : ∀ n : List (Option String × Container),
      (∀ q ∈ n, q.1 = key → (blocks q.2).filter good = []) →
      plannedIndices good key (n.flatMap fun q =>
        (blocks q.2).zipIdx.map fun p => (p.1, q.1, p.2)) = [] := by
    intro n
    induction n with
    | nil => intro _; rfl
    | cons q n ih =>
      intro hn
      rw [List.flatMap_cons, happend, ih fun r hr => hn r (List.mem_cons_of_mem _ hr), hplace,
        List.append_nil]
      split
      next hkey =>
        refine indicesOf_none 0 fun a ha => ?_
        have hq := hn q List.mem_cons_self hkey
        simpa using List.filter_eq_nil_iff.1 hq a ha
      next => rfl
  rw [List.flatMap_append, List.flatMap_cons, happend, happend, hplace, if_pos rfl,
    hnil m hlater, hnil l fun q hq hkey => absurd (List.mem_map.2 ⟨q, hq, hkey⟩) hfirst,
    List.nil_append, List.append_nil]

/-! ## The relocation of a section -/

/-- The relocations of one key: those about prose, those of the code checks, those
of the formula checks. -/
theorem relocationsOf_section (domain : String) (key : Option String) :
    relocationsOf key ((sectionPlacementChecks P domain s).flatMap (relocationsFor P s)) =
      relocationsOf key ((equationChecks P domain s).flatMap (relocationsFor P s)) ++
      relocationsOf key ((codeBlockLocations s).flatMap fun p =>
        (codeBlockChecks P s p).flatMap (relocationsFor P s)) ++
      relocationsOf key ((formulaBlockLocations s).flatMap fun p =>
        (formulaBlockChecks P s p).flatMap (relocationsFor P s)) := by
  have hconceptual : ∀ b : Prop, [Decidable b] →
      relocationsOf key ((if b then [conceptualCheck P s] else []).flatMap
        (relocationsFor P s)) = [] := by
    intro b _
    have hid : (conceptualCheck P s).idText = "det_conceptual_has_blocks" := rfl
    split
    · rw [List.flatMap_singleton]
      unfold relocationsFor
      rw [hid, if_neg (by decide), if_neg (by decide), if_neg (by decide), if_neg (by decide),
        if_pos rfl]
      rfl
    · rfl
  unfold sectionPlacementChecks
  rw [List.flatMap_append, List.flatMap_append, List.flatMap_append, relocationsOf_append,
    relocationsOf_append, relocationsOf_append, hconceptual, List.append_nil, List.flatMap_assoc,
    List.flatMap_assoc]

theorem isProse_of_mem_equations {domain : String} {key : Option String} {r : Relocation}
    (h : r ∈ relocationsOf key ((equationChecks P domain s).flatMap (relocationsFor P s))) :
    IsProse r := by
  obtain ⟨c, hc, hr⟩ := List.mem_flatMap.1 (List.mem_filter.1 h).1
  obtain ⟨p, -, rfl⟩ := List.mem_map.1 hc
  have hid : (equationCheck P s p.2).idText = "det_equation_in_content" := rfl
  unfold relocationsFor at hr
  rw [hid, if_pos rfl] at hr
  exact (planEquation_cases hr).1

/-- The indices the code checks use for a key, pass after pass. -/
theorem moveIndices_code (key : Option String) :
    (relocationsOf key ((codeBlockLocations s).flatMap fun p =>
        (codeBlockChecks P s p).flatMap (relocationsFor P s))).filterMap moveIndex =
      (List.replicate (mathPasses P s key)
        (plannedIndices isMathBlock key (indexedCodeBlocks s))).flatten := by
  rw [relocationsOf_flatMap, List.filterMap_flatMap]
  simp only [(codeBlock_relocations _ key).2]
  exact flatMap_ite _ _ _

theorem moveIndices_formula (key : Option String) :
    (relocationsOf key ((formulaBlockLocations s).flatMap fun p =>
        (formulaBlockChecks P s p).flatMap (relocationsFor P s))).filterMap moveIndex =
      (List.replicate (codePasses P s key)
        (plannedIndices (isCodeBlockInFormula P) key (indexedFormulaBlocks s))).flatten := by
  rw [relocationsOf_flatMap, List.filterMap_flatMap]
  simp only [(formulaBlock_relocations _ key).2]
  exact flatMap_ite _ _ _

/-- What the passes of the code checks leave of the code blocks, and what they
remove. -/
def codeOut (P : Patterns) (s : Section) (key : Option String) (c : Container) :
    List Body × List Body :=
  popAll (List.replicate (mathPasses P s key)
    (plannedIndices isMathBlock key (indexedCodeBlocks s))).flatten (c.codeBodies, [])

/-- What the passes of the formula checks leave of formula blocks, and what they
remove. -/
def formulaOut (P : Patterns) (s : Section) (key : Option String) (bodies : List Body) :
    List Body × List Body :=
  popAll (List.replicate (codePasses P s key)
    (plannedIndices (isCodeBlockInFormula P) key (indexedFormulaBlocks s))).flatten (bodies, [])

theorem getElem?_of_keys {l l' m : List (Option String × Container)} {key : Option String}
    {d : Container} (hkeys : l'.map Prod.fst = l.map Prod.fst) :
    (l' ++ (key, d) :: m)[l.length]? = some (key, d) := by
  have hlen := congrArg List.length hkeys
  rw [List.length_map, List.length_map] at hlen
  rw [← hlen]
  simp

theorem relocations_heading {checks : List Check} {r : Relocation}
    (h : r ∈ checks.flatMap (relocationsFor P s)) : r.subsectionHeading ≠ some "" := by
  obtain ⟨d, -, hd⟩ := List.mem_flatMap.1 h
  exact relocationsFor_heading hd

/-- **What becomes of a container that can be addressed**: it gains formula blocks
from the prose, then passes over the planned indices take code blocks to the formula
blocks, and then formula blocks to the code blocks. -/
theorem relocated_place {domain sid : String} {l m : List (Option String × Container)}
    {key : Option String} {c : Container} (hid : placementSectionId s = some sid)
    (hplaces : places s = l ++ (key, c) :: m) (hfirst : key ∉ l.map Prod.fst) :
    ∃ e c', (places (afterEquations P domain s))[l.length]? = some (key, e) ∧
      (places (relocatedSection P domain s))[l.length]? = some (key, c') ∧
      (∃ extracted, e.formulaBodies = c.formulaBodies ++ extracted) ∧
      c'.codeBodies = (codeOut P s key c).1 ++ (formulaOut P s key
        (e.formulaBodies ++ (codeOut P s key c).2.map toFormulaBody)).2.map toCodeBody ∧
      c'.formulaBodies = (formulaOut P s key
        (e.formulaBodies ++ (codeOut P s key c).2.map toFormulaBody)).1 := by
  obtain ⟨le, me, he, hkeyse⟩ := @foldl_relocate_place P
    ((equationChecks P domain s).flatMap (relocationsFor P s)) l m key c hfirst
  obtain ⟨l', m', hc', hkeys'⟩ := @foldl_relocate_place P
    ((sectionPlacementChecks P domain s).flatMap (relocationsFor P s)) l m key c hfirst
  rw [relocationsOf_section, List.foldl_append, List.foldl_append] at hc'
  -- the prose
  have hprose : ∀ r ∈ relocationsOf key ((equationChecks P domain s).flatMap
      (relocationsFor P s)), IsProse r := fun r hr => isProse_of_mem_equations hr
  obtain ⟨hcode, extracted, hextracted⟩ := prose_phase (P := P) hprose c
  have hprosePlace : (places (afterEquations P domain s))[l.length]? = some (key,
      (relocationsOf key ((equationChecks P domain s).flatMap (relocationsFor P s))).foldl
        (containerStep P) c) := by
    unfold afterEquations
    rw [afterChecks_eq hid fun c hc => isOwn_equationChecks hc, foldl_relocate_places
      fun r hr => relocations_heading hr, hplaces, he]
    exact getElem?_of_keys hkeyse
  have hplace := congrArg (fun t => t[l.length]?) hc'
  simp only [getElem?_of_keys hkeys'] at hplace
  rw [← hplaces, ← foldl_relocate_places fun r hr => relocations_heading hr,
    ← afterChecks_eq hid fun c hc => isOwn_sectionPlacementChecks hc] at hplace
  refine ⟨_, _, hprosePlace, hplace, ⟨extracted.map formulaBody, ?_⟩, ?_⟩
  · unfold Container.formulaBodies
    rw [hextracted, List.map_append]
  -- the code checks
  have hcodeCases : ∀ r ∈ relocationsOf key ((codeBlockLocations s).flatMap fun p =>
      (codeBlockChecks P s p).flatMap (relocationsFor P s)),
      IsFill r ∨ IsMove .codeBlocks .formulaBlocks r := by
    intro r hr
    obtain ⟨p, -, hp⟩ := List.mem_flatMap.1 (List.mem_filter.1 hr).1
    exact (codeBlock_relocations p key).1 r hp
  obtain ⟨hmathCode, hmathFormulas⟩ := code_phase (P := P) hcodeCases
    ((relocationsOf key ((equationChecks P domain s).flatMap (relocationsFor P s))).foldl
      (containerStep P) c)
  have hbodies : ((relocationsOf key ((equationChecks P domain s).flatMap
      (relocationsFor P s))).foldl (containerStep P) c).codeBodies = c.codeBodies := by
    unfold Container.codeBodies
    rw [hcode]
  rw [moveIndices_code, hbodies] at hmathCode hmathFormulas
  -- the formula checks
  have hformulaCases : ∀ r ∈ relocationsOf key ((formulaBlockLocations s).flatMap fun p =>
      (formulaBlockChecks P s p).flatMap (relocationsFor P s)),
      IsFill r ∨ IsMove .formulaBlocks .codeBlocks r := by
    intro r hr
    obtain ⟨p, -, hp⟩ := List.mem_flatMap.1 (List.mem_filter.1 hr).1
    exact (formulaBlock_relocations p key).1 r hp
  obtain ⟨hformulas, hcodes⟩ := formula_phase (P := P) hformulaCases
    ((relocationsOf key ((codeBlockLocations s).flatMap fun p =>
      (codeBlockChecks P s p).flatMap (relocationsFor P s))).foldl (containerStep P)
        ((relocationsOf key ((equationChecks P domain s).flatMap (relocationsFor P s))).foldl
          (containerStep P) c))
  rw [moveIndices_formula, hmathFormulas] at hformulas hcodes
  exact ⟨hcodes.trans (by rw [hmathCode]; rfl), hformulas⟩

/-- A container behind another one with its key is not reached. -/
theorem hidden_place {checks : List Check} {sid : String}
    {l m : List (Option String × Container)} {key : Option String} {c : Container}
    (hid : placementSectionId s = some sid) (hown : ∀ d ∈ checks, IsOwn s d)
    (hplaces : places s = l ++ (key, c) :: m) (hhidden : key ∈ l.map Prod.fst) :
    (places (afterChecks P s checks))[l.length]? = some (key, c) := by
  obtain ⟨l', m', hfold, hkeys⟩ := @foldl_relocate_hidden P
    (checks.flatMap (relocationsFor P s)) l m key c hhidden
  rw [afterChecks_eq hid hown, foldl_relocate_places fun r hr => relocations_heading hr, hplaces,
    hfold]
  exact getElem?_of_keys hkeys

/-- What a section's containers before and behind a place are. -/
theorem places_split {i : ℕ} {key : Option String} {c : Container}
    (h : (places s)[i]? = some (key, c)) :
    places s = (places s).take i ++ (key, c) :: (places s).drop (i + 1) ∧
      ((places s).take i).length = i := by
  obtain ⟨hlt, hget⟩ := List.getElem?_eq_some_iff.1 h
  constructor
  · rw [← hget, List.getElem_cons_drop, List.take_append_drop]
  · rw [List.length_take]
    omega

/-- A place behind another one with its key. -/
theorem mem_keys_of_later {i : ℕ} {key : Option String} {c : Container}
    {q : Option String × Container} (h : (places s)[i]? = some (key, c))
    (hq : q ∈ (places s).drop (i + 1)) :
    ∃ j, (places s)[j]? = some q ∧ key ∈ ((places s).take j).map Prod.fst := by
  obtain ⟨j, hj⟩ := List.mem_iff_getElem?.1 hq
  rw [List.getElem?_drop] at hj
  refine ⟨i + 1 + j, hj, List.mem_map.2 ⟨(key, c), List.mem_iff_getElem?.2 ⟨i, ?_⟩, rfl⟩⟩
  rw [List.getElem?_take_of_lt (by omega)]
  exact h

end

end StudyAgent.Placement
