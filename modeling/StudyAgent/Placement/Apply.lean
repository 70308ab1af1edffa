import StudyAgent.Placement.Plan

/-!
# Applying relocation plans

The relocations of all plans are applied one after another to one copy of the
document.  Each finds its container by heading and its block by index, in the
document as the relocations before it have left it.

Main results:

* `modifyContainer_idText` — a relocation never touches the id of its section.
* `applyRelocationPlans_single` — what all plans do to a section is what their
  relocations do to it one after another.
-/

namespace StudyAgent.Placement

open Py

/-! ## Containers -/

/-- What sections and subsections have in common. -/
structure Container where
  content : Option String := none
  codeBlocks : Option (List CodeBlock) := none
  formulaBlocks : Option (List FormulaBlock) := none
  deriving DecidableEq

/-- `container.get("code_blocks") or []`. -/
def Container.code (c : Container) : List CodeBlock := c.codeBlocks.getD []

/-- `container.get("formula_blocks") or []`. -/
def Container.formulas (c : Container) : List FormulaBlock := c.formulaBlocks.getD []

def sectionContainer (s : Section) : Container where
  content := s.content
  codeBlocks := s.codeBlocks
  formulaBlocks := s.formulaBlocks

def setSectionContainer (s : Section) (c : Container) : Section :=
  { s with content := c.content, codeBlocks := c.codeBlocks, formulaBlocks := c.formulaBlocks }

def subsectionContainer (sub : Subsection) : Container where
  content := sub.content
  codeBlocks := sub.codeBlocks
  formulaBlocks := sub.formulaBlocks

def setSubsectionContainer (sub : Subsection) (c : Container) : Subsection :=
  { sub with content := c.content, codeBlocks := c.codeBlocks, formulaBlocks := c.formulaBlocks }

/-- Change the first element a test accepts, if there is one and it can change. -/
def modifyFirst {α : Type} (p : α → Bool) (f : α → Option α) : List α → Option (List α)
  | [] => none
  | a :: l => if p a then (f a).map fun a' => a' :: l else (modifyFirst p f l).map fun l' => a :: l'

/-- Change the container `_container_for_relocation` finds. -/
def modifyContainer (subsectionHeading : Option String) (f : Container → Option Container)
    (s : Section) : Option Section :=
  let heading := subsectionHeading.getD ""
  if heading = "" then (f (sectionContainer s)).map (setSectionContainer s)
  else
    (modifyFirst (fun sub : Subsection => strip (sub.heading.getD "") = heading)
      (fun sub => (f (subsectionContainer sub)).map (setSubsectionContainer sub))
      (subsectionList s)).map fun subs => { s with subsections := some subs }

/-! ## One relocation -/

/-- `str.rstrip` and `str.lstrip`. -/
def rstrip (s : String) : String :=
  String.ofList ((s.toList.reverse.dropWhile isSpace).reverse)

def lstrip (s : String) : String := String.ofList (s.toList.dropWhile isSpace)

section Apply

variable (P : Patterns)

/-- `equation_text_for_formula_block`. -/
def equationTextForFormulaBlock (clause : String) : String :=
  match P.extractEquationCore clause with
  | some core => if core ≠ "" ∧ core.length < clause.length then core else strip clause
  | none => strip clause

/-- The formula block made from a span of prose. -/
def extractedBlock (spanText : String) : FormulaBlock where
  mathNotation := some "LaTeX"
  formula := some (equationTextForFormulaBlock P (strip spanText))
  explanation := some "Equation relocated from prose; content otherwise unchanged."

/-- `_apply_extract`. -/
def applyExtract (r : Relocation) (c : Container) : Option Container :=
  let content := c.content.getD ""
  match r.spanStart, r.spanEnd, r.spanText with
  | some start, some stop, some spanText =>
    if spanText = "" then none
    else if strip (sliceText content start stop) ≠ strip spanText then none
    else
      let before := rstrip (sliceText content 0 start)
      let after := lstrip (String.ofList (content.toList.drop stop))
      some { c with
        content := some (strip (before ++ " " ++ after))
        formulaBlocks := some (c.formulas ++ [extractedBlock P spanText]) }
  | _, _, _ => none

/-- `_apply_dereference`. -/
def applyDereference (r : Relocation) (c : Container) : Option Container :=
  let content := c.content.getD ""
  match r.spanStart, r.spanEnd, r.replacement with
  | some start, some stop, some replacement =>
    some { c with
      content := some (sliceText content 0 start ++ replacement ++
        String.ofList (content.toList.drop stop)) }
  | _, _, _ => none

/-- `str(block.get("explanation", "")).strip() or default`. -/
def explanationOr (explanation : Option String) (dflt : String) : String :=
  let text := strip (explanation.getD "")
  if text = "" then dflt else text

/-- The formula block made from a code block. -/
def toFormulaBlock (b : CodeBlock) : FormulaBlock where
  mathNotation := some (b.language.getD "plain-text")
  formula := some (b.code.getD "")
  explanation := some (explanationOr b.explanation "Notation relocated from code_blocks.")

/-- The code block made from a formula block. -/
def toCodeBlock (b : FormulaBlock) : CodeBlock where
  language := some "python"
  code := some (b.formula.getD "")
  explanation := some (explanationOr b.explanation "Code relocated from formula_blocks.")

/-- `_apply_move_block`. -/
def applyMoveBlock (r : Relocation) (c : Container) : Option Container :=
  match r.blockKind, r.targetKind, r.blockIndex with
  | some .codeBlocks, some .formulaBlocks, some index =>
    c.code[index]?.map fun b =>
      { c with
        codeBlocks := some (c.code.eraseIdx index)
        formulaBlocks := some (c.formulas ++ [toFormulaBlock b]) }
  | some .formulaBlocks, some .codeBlocks, some index =>
    c.formulas[index]?.map fun b =>
      { c with
        formulaBlocks := some (c.formulas.eraseIdx index)
        codeBlocks := some (c.code ++ [toCodeBlock b]) }
  | _, _, _ => none

/-- `_apply_fill_explanation`. -/
def applyFillExplanation (r : Relocation) (c : Container) : Option Container :=
  match r.blockKind, r.blockIndex, r.explanation with
  | some .codeBlocks, some index, some explanation =>
    if explanation = "" then none
    else
      c.code[index]?.bind fun b =>
        if strip (b.explanation.getD "") ≠ "" then none
        else
          some { c with
            codeBlocks := some (c.code.set index { b with explanation := some explanation }) }
  | some .formulaBlocks, some index, some explanation =>
    if explanation = "" then none
    else
      c.formulas[index]?.bind fun b =>
        if strip (b.explanation.getD "") ≠ "" then none
        else
          some { c with
            formulaBlocks := some (c.formulas.set index
              { b with explanation := some explanation }) }
  | _, _, _ => none

/-- What a relocation does to its container; `none` when it is not applied. -/
def relocateIn (r : Relocation) : Container → Option Container :=
  match r.action with
  | .extract => applyExtract P r
  | .dereference => applyDereference r
  | .moveBlock => applyMoveBlock r
  | .fillExplanation => applyFillExplanation r

/-- `_apply_relocation`. -/
def applyRelocation (r : Relocation) (s : Section) : Option Section :=
  modifyContainer r.subsectionHeading (relocateIn P r) s

/-! ## All plans -/

/-- `RemediationReport`. -/
structure RemediationReport where
  fixedSectionIds : List String
  allResolved : Bool
  needsLlmFallback : Bool
  appliedPlans : List RelocationPlan := []
  skippedLowConfidence : ℕ := 0
  deriving DecidableEq

/-- The state of the loop over the relocations of one plan. -/
structure PlanProgress where
  section_ : Section
  applied : List Relocation := []
  skippedLowConfidence : ℕ := 0
  needsLlmFallback : Bool := false

/-- One relocation of a plan: low confidence is skipped. -/
def planStep (p : PlanProgress) (r : Relocation) : PlanProgress :=
  if r.highConfidence = false then
    { p with
      skippedLowConfidence := p.skippedLowConfidence + 1
      needsLlmFallback := true }
  else
    match applyRelocation P r p.section_ with
    | some s => { p with section_ := s, applied := p.applied ++ [r] }
    | none => { p with needsLlmFallback := true }

/-- The relocations of one plan, on its section. -/
def runPlan (s : Section) (plan : RelocationPlan) : PlanProgress :=
  plan.relocations.foldl (planStep P) { section_ := s }

/-- Replace the last section with a given id. -/
def setLastSection (sections : List Section) (sid : String) (s : Section) : List Section :=
  match modifyFirst (fun t : Section => t.idText = sid) (fun _ => some s) sections.reverse with
  | some l => l.reverse
  | none => sections

/-- The state of the loop over the plans. -/
structure RemediationProgress where
  sections : List Section
  fixedSectionIds : List String := []
  appliedPlans : List RelocationPlan := []
  skippedLowConfidence : ℕ := 0
  needsLlmFallback : Bool := false

/-- One plan. -/
def remediationStep (p : RemediationProgress) (plan : RelocationPlan) : RemediationProgress :=
  if plan.sectionId = "" then { p with needsLlmFallback := true }
  else
    match lastSection p.sections plan.sectionId with
    | none => { p with needsLlmFallback := true }
    | some s =>
      let done := runPlan P s plan
      { sections := setLastSection p.sections plan.sectionId done.section_
        fixedSectionIds :=
          if done.applied ≠ [] ∧ plan.sectionId ∉ p.fixedSectionIds then
            p.fixedSectionIds ++ [plan.sectionId]
          else p.fixedSectionIds
        appliedPlans :=
          if done.applied ≠ [] then
            p.appliedPlans ++ [{ plan with relocations := done.applied }]
          else p.appliedPlans
        skippedLowConfidence := p.skippedLowConfidence + done.skippedLowConfidence
        needsLlmFallback := p.needsLlmFallback || done.needsLlmFallback }

/-- `apply_relocation_plans`. -/
def applyRelocationPlans (document : Document) (plans : List RelocationPlan) :
    Document × RemediationReport :=
  let done := plans.foldl (remediationStep P) { sections := document.sections }
  let needsLlmFallback := done.needsLlmFallback || plans.any RelocationPlan.hasLowConfidence
  ({ document with sections := done.sections },
    { fixedSectionIds := done.fixedSectionIds
      allResolved :=
        if plans = [] then !needsLlmFallback
        else
          !needsLlmFallback && done.skippedLowConfidence = 0 && done.appliedPlans ≠ []
      needsLlmFallback := needsLlmFallback
      appliedPlans := done.appliedPlans
      skippedLowConfidence := done.skippedLowConfidence })

/-! ## Phase 1b -/

/-- `PlacementRemediationResult`, less the texts for the generator's prompts. -/
structure PlacementRemediationResult where
  document : Document
  blockPlacementFailures : List Check
  structureChecks : List Check
  remediationReport : Option RemediationReport := none
  documentPatched : Bool := false

/-- `run_placement_remediation_phase`. -/
def runPlacementRemediationPhase (document : Document) (domain : String)
    (checklist : List ChecklistItem) (optionalStructureCheck : Option Check) :
    PlacementRemediationResult :=
  let failures := blockPlacementChecks P document domain checklist
  let placementFailures := failures.filter isPlacementCheck
  if placementFailures = [] then
    { document := document
      blockPlacementFailures := failures
      structureChecks := optionalStructureCheck.toList ++ failures }
  else
    let plans := buildRelocationPlans P document placementFailures
    let (patched, report) := applyRelocationPlans P document plans
    if report.fixedSectionIds = [] then
      { document := document
        blockPlacementFailures := failures
        structureChecks := optionalStructureCheck.toList ++ failures
        remediationReport := some report }
    else
      let failuresAfter := blockPlacementChecks P patched domain checklist
      { document := patched
        blockPlacementFailures := failuresAfter
        structureChecks := optionalStructureCheck.toList ++ failuresAfter
        remediationReport := some { report with
          allResolved := failuresAfter = []
          needsLlmFallback := report.needsLlmFallback || failuresAfter ≠ [] }
        documentPatched := true }

/-- The checks that phase 1b passes on are those of the document it leaves. -/
theorem runPlacementRemediationPhase_checks (document : Document) (domain : String)
    (checklist : List ChecklistItem) (optionalStructureCheck : Option Check) :
    (runPlacementRemediationPhase P document domain checklist
      optionalStructureCheck).structureChecks = optionalStructureCheck.toList ++
        blockPlacementChecks P (runPlacementRemediationPhase P document domain checklist
          optionalStructureCheck).document domain checklist := by
  unfold runPlacementRemediationPhase
  dsimp only
  split
  · rfl
  · split <;> rfl

/-! ## A document of one section -/

/-- One relocation on a section; nothing happens where it is not applied. -/
def relocate (s : Section) (r : Relocation) : Section :=
  if r.highConfidence = true then (applyRelocation P r s).getD s else s

end Apply

section

variable {P : Patterns}

/-- **A relocation never touches the id of its section.** -/
theorem modifyContainer_idText {key : Option String} {f : Container → Option Container}
    {s s' : Section} (h : modifyContainer key f s = some s') : s'.idText = s.idText := by
  unfold modifyContainer at h
  dsimp only at h
  split at h
  · obtain ⟨c, -, rfl⟩ := Option.map_eq_some_iff.1 h
    rfl
  · obtain ⟨subs, -, rfl⟩ := Option.map_eq_some_iff.1 h
    rfl

@[simp] theorem relocate_idText (s : Section) (r : Relocation) :
    (relocate P s r).idText = s.idText := by
  unfold relocate
  split
  · cases happ : applyRelocation P r s with
    | none => rfl
    | some s' => exact modifyContainer_idText happ
  · rfl

theorem foldl_relocate_idText (rs : List Relocation) (s : Section) :
    (rs.foldl (relocate P) s).idText = s.idText := by
  induction rs generalizing s with
  | nil => rfl
  | cons r rs ih => rw [List.foldl_cons, ih, relocate_idText]

theorem foldl_planStep_section (rs : List Relocation) (p : PlanProgress) :
    (rs.foldl (planStep P) p).section_ = rs.foldl (relocate P) p.section_ := by
  induction rs generalizing p with
  | nil => rfl
  | cons r rs ih =>
    rw [List.foldl_cons, List.foldl_cons, ih]
    congr 1
    unfold planStep relocate
    cases r.highConfidence with
    | false => rfl
    | true =>
      simp only [Bool.true_eq_false, if_false, if_true]
      cases applyRelocation P r p.section_ <;> rfl

theorem remediationStep_single {p : RemediationProgress} {plan : RelocationPlan} {s : Section}
    (hs : p.sections = [s]) (hid : plan.sectionId = s.idText) (hne : s.idText ≠ "") :
    (remediationStep P p plan).sections = [plan.relocations.foldl (relocate P) s] := by
  unfold remediationStep
  rw [if_neg (by rw [hid]; exact hne), hs, hid]
  have hlast : lastSection [s] s.idText = some s := by simp [lastSection]
  rw [hlast]
  dsimp only
  unfold setLastSection runPlan
  simp only [List.reverse_singleton, modifyFirst, decide_true, if_true, Option.map_some]
  rw [foldl_planStep_section]

/-- **What all plans do to a section** is what their relocations do to it one
after another. -/
theorem applyRelocationPlans_single {s : Section} {otherKeys : String}
    {plans : List RelocationPlan} (hid : ∀ plan ∈ plans, plan.sectionId = s.idText)
    (hne : s.idText ≠ "") :
    (applyRelocationPlans P { sections := [s], otherKeys := otherKeys } plans).1.sections =
      [(plans.flatMap RelocationPlan.relocations).foldl (relocate P) s] := by
  have hloop : ∀ (l : List RelocationPlan) (p : RemediationProgress) (t : Section),
      (∀ plan ∈ l, plan.sectionId = t.idText) → t.idText ≠ "" → p.sections = [t] →
      (l.foldl (remediationStep P) p).sections =
        [(l.flatMap RelocationPlan.relocations).foldl (relocate P) t] := by
    intro l
    induction l with
    | nil => intro p t _ _ hp; exact hp
    | cons plan l ih =>
      intro p t hl ht hp
      rw [List.foldl_cons, List.flatMap_cons, List.foldl_append]
      have hplan := hl plan List.mem_cons_self
      have hstep := remediationStep_single (P := P) hp hplan ht
      refine ih _ _ (fun q hq => ?_) ?_ hstep
      · rw [foldl_relocate_idText]
        exact hl q (List.mem_cons_of_mem _ hq)
      · rw [foldl_relocate_idText]
        exact ht
  exact hloop plans _ s hid hne rfl

end

end StudyAgent.Placement
