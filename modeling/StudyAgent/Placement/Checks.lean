import StudyAgent.Qc.FailureClass

/-!
# Block placement checks

The deterministic phase looks for blocks in the wrong place: equations in prose,
math notation in code blocks, programming code in formula blocks, blocks without
an explanation, and blocks where a conceptual section should have none.  Texts are
recognised by regular expressions, which are parameters here; everything said
about the checks holds whatever the expressions match.

Main results:

* `mem_blockPlacementChecks` — every check comes from a section or from a
  checklist item of a STEM plan.
* `mem_sectionPlacementChecks`, `mem_codeBlockChecks`, `mem_formulaBlockChecks` —
  **which checks a section and its blocks give.**
-/

namespace StudyAgent.Placement

open Py

/-! ## Patterns -/

/-- A stretch of prose that looks like an equation. -/
structure EquationSpan where
  start : ℕ
  stop : ℕ
  text : String
  high : Bool
  deriving DecidableEq

/-- The recognisers of `placement_patterns` and the two text functions of the
standard library that evidence passes through. -/
structure Patterns where
  findEquationSpans : String → List EquationSpan
  derivativeSpans : String → List EquationSpan
  isNarrativeEquationClause : String → Bool
  extractEquationCore : String → Option String
  normalizeMath : String → String
  looksLikeProgrammingCode : String → Bool
  looksLikePseudocode : String → Bool
  checklistRequiresFormulaWork : String → String → Bool
  repr : String → String
  literalEval : String → Option String

/-- `_is_math_like_language`. -/
def isMathLikeLanguage (language : String) : Bool :=
  lower (strip language) ∈
    ["math", "mathematics", "latex", "tex", "chemical equation", "chemistry"]

/-- `_PROGRAMMING_LANGUAGES`. -/
def PROGRAMMING_LANGUAGES : List String :=
  ["python", "java", "javascript", "typescript", "c", "c++", "cpp", "csharp", "c#", "go", "rust",
    "ruby", "php", "kotlin", "swift", "scala", "bash", "shell", "sql"]

/-! ## Locations -/

/-- `str(subsection.get("heading", "")).strip() or None`. -/
def subsectionKey (sub : Subsection) : Option String :=
  let heading := strip (sub.heading.getD "")
  if heading = "" then none else some heading

section Locations

variable (s : Section)

/-- The subsections of a section, if it has any. -/
def subsectionList : List Subsection := s.subsections.getD []

/-- `_content_locations`. -/
def contentLocations : List (String × Option String) :=
  let here := strip (s.content.getD "")
  (if here = "" then [] else [(here, none)]) ++
    (subsectionList s).filterMap fun sub =>
      let text := strip (sub.content.getD "")
      if text = "" then none else some (text, subsectionKey sub)

/-- `_code_block_locations`. -/
def codeBlockLocations : List (CodeBlock × Option String) :=
  (s.codeBlocks.getD []).map (fun b => (b, none)) ++
    (subsectionList s).flatMap fun sub =>
      (sub.codeBlocks.getD []).map fun b => (b, subsectionKey sub)

/-- `_formula_block_locations`. -/
def formulaBlockLocations : List (FormulaBlock × Option String) :=
  (s.formulaBlocks.getD []).map (fun b => (b, none)) ++
    (subsectionList s).flatMap fun sub =>
      (sub.formulaBlocks.getD []).map fun b => (b, subsectionKey sub)

/-- `_has_executable_blocks`. -/
def hasExecutableBlocks : Bool :=
  s.codeBlocks.getD [] ≠ [] || s.formulaBlocks.getD [] ≠ [] ||
    (subsectionList s).any fun sub =>
      sub.codeBlocks.getD [] ≠ [] || sub.formulaBlocks.getD [] ≠ []

/-- `_section_has_formula_blocks`. -/
def sectionHasFormulaBlocks : Bool :=
  (formulaBlockLocations s).any fun p => strip (p.1.formula.getD "") ≠ ""

/-- `_section_has_code_blocks`. -/
def sectionHasCodeBlocks : Bool :=
  (codeBlockLocations s).any fun p => strip (p.1.code.getD "") ≠ ""

/-- `_section_id`. -/
def placementSectionId : Option String :=
  match s.givenId with
  | some sid => if sid = "" then none else some sid
  | none => none

end Locations

/-! ## Checks -/

section Checks

variable (P : Patterns)

/-- `_location_evidence`. -/
def locationEvidence (sectionHeading : String) (subsectionHeading : Option String)
    (detail : String) : String :=
  let heading := subsectionHeading.getD ""
  if heading ≠ "" then
    "Section " ++ P.repr sectionHeading ++ ", subsection " ++ P.repr heading ++ ": " ++ detail
  else "Section " ++ P.repr sectionHeading ++ ": " ++ detail

/-- `_failed_check`. -/
def failedCheck (checkId : String) (sectionId : Option String)
    (question evidence correctiveHint : String) : Check where
  id := some (.str checkId)
  category := some (.str "document_coherence")
  passed := some (.bool false)
  severity := some (.str "critical")
  evidence := some (.str evidence)
  correctiveHint := some (.str correctiveHint)
  sectionId := sectionId.map .str
  otherKeys := question

/-- `str(section.get("heading", "")).strip()`. -/
def sectionHeading (s : Section) : String := strip (s.heading.getD "")

/-- The check of a piece of prose. -/
def equationCheck (s : Section) (subsectionHeading : Option String) : Check :=
  failedCheck "det_equation_in_content" (placementSectionId s)
    "Are equations stored in formula_blocks rather than prose content?"
    (locationEvidence P (sectionHeading s) subsectionHeading
      "Prose contains display-math patterns")
    ("Move equations and derivation steps from content into " ++
      "formula_blocks with non-empty explanation fields.")

def conceptualCheck (s : Section) : Check :=
  failedCheck "det_conceptual_has_blocks" (placementSectionId s)
    "Does a Conceptual section avoid code_blocks and formula_blocks?"
    (locationEvidence P (sectionHeading s) none
      ("Section contains code_blocks or formula_blocks, conceptual sections " ++
        "should not contain code_blocks or formula_blocks"))
    ("Remove code_blocks and formula_blocks from Conceptual " ++
      "sections; express examples in prose. Instead of using code_blocks or formula_blocks, " ++
      "use prose to explain the example. Give a detailed step by step explanation of the example.")

def mathCheck (s : Section) (lang : String) (subsectionHeading : Option String) : Check :=
  failedCheck "det_math_in_code_block" (placementSectionId s)
    "Is math notation stored in formula_blocks instead of code_blocks?"
    (locationEvidence P (sectionHeading s) subsectionHeading
      ("code_blocks language=" ++ P.repr lang))
    "Move math notation from code_blocks into formula_blocks."

def pseudocodeCheck (s : Section) (subsectionHeading : Option String) : Check :=
  failedCheck "det_pseudocode_in_code_block" (placementSectionId s)
    "Does each code_block contain real programming code?"
    (locationEvidence P (sectionHeading s) subsectionHeading
      "code_blocks body matches pseudocode heuristics")
    ("Replace pseudocode with valid executable code or move " ++
      "algorithmic notation into formula_blocks.")

def emptyCodeExplanationCheck (s : Section) (subsectionHeading : Option String) : Check :=
  failedCheck "det_empty_block_explanation" (placementSectionId s)
    "Does every code_block have a non-empty explanation?"
    (locationEvidence P (sectionHeading s) subsectionHeading
      "code_blocks has content but empty explanation")
    "Add a 2-3 sentence explanation to the code_block."

def codeInFormulaCheck (s : Section) (subsectionHeading : Option String) : Check :=
  failedCheck "det_code_in_formula_block" (placementSectionId s)
    "Do formula_blocks contain equations rather than programming code?"
    (locationEvidence P (sectionHeading s) subsectionHeading
      "formula_blocks body contains programming keywords")
    ("Move programming code into code_blocks; keep only " ++
      "equations or derivations in formula_blocks.")

def emptyFormulaExplanationCheck (s : Section) (subsectionHeading : Option String) : Check :=
  failedCheck "det_empty_block_explanation" (placementSectionId s)
    "Does every formula_block have a non-empty explanation?"
    (locationEvidence P (sectionHeading s) subsectionHeading
      "formula_blocks has content but empty explanation")
    "Add a 2-3 sentence explanation to the formula_block."

/-- A code block that is to become a formula block. -/
def isMathBlock (b : CodeBlock) : Bool :=
  strip (b.code.getD "") ≠ "" && isMathLikeLanguage (strip (b.language.getD ""))

/-- A formula block that is to become a code block. -/
def isCodeBlockInFormula (b : FormulaBlock) : Bool :=
  strip (b.formula.getD "") ≠ "" && P.looksLikeProgrammingCode (strip (b.formula.getD ""))

/-- The checks of one code block. -/
def codeBlockChecks (s : Section) (p : CodeBlock × Option String) : List Check :=
  let lang := strip (p.1.language.getD "")
  let code := strip (p.1.code.getD "")
  if code = "" then []
  else
    (if isMathLikeLanguage lang then [mathCheck P s lang p.2] else []) ++
    (if lower lang ∈ PROGRAMMING_LANGUAGES ∧ P.looksLikePseudocode code then
      [pseudocodeCheck P s p.2] else []) ++
    (if strip (p.1.explanation.getD "") = "" then [emptyCodeExplanationCheck P s p.2] else [])

/-- The checks of one formula block. -/
def formulaBlockChecks (s : Section) (p : FormulaBlock × Option String) : List Check :=
  let formula := strip (p.1.formula.getD "")
  if formula = "" then []
  else
    (if P.looksLikeProgrammingCode formula then [codeInFormulaCheck P s p.2] else []) ++
    (if strip (p.1.explanation.getD "") = "" then [emptyFormulaExplanationCheck P s p.2] else [])

/-- The equation checks of one section. -/
def equationChecks (domain : String) (s : Section) : List Check :=
  ((contentLocations s).filter fun p =>
    strip domain ∈ ["STEM", "Mixed"] && (P.findEquationSpans p.1).any (·.high)).map fun p =>
      equationCheck P s p.2

/-- The checks of one section: prose, conceptual blocks, code blocks, formula
blocks. -/
def sectionPlacementChecks (domain : String) (s : Section) : List Check :=
  equationChecks P domain s ++
    (if strip domain = "Conceptual" ∧ hasExecutableBlocks s then [conceptualCheck P s] else []) ++
    (codeBlockLocations s).flatMap (codeBlockChecks P s) ++
    (formulaBlockLocations s).flatMap (formulaBlockChecks P s)

/-! ### STEM derivations -/

/-- `str(item.get("section_id") or item.get("id") or "").strip()`. -/
def derivationTarget (item : ChecklistItem) : String :=
  strip (if item.sectionId.getD "" ≠ "" then item.sectionId.getD "" else item.id)

/-- The section of a checklist item that demands formula work. -/
def derivationSection (document : Document) (item : ChecklistItem) : Option Section :=
  if P.checklistRequiresFormulaWork item.requirement (item.depthGate.getD "") then
    if derivationTarget item = "" then none
    else (document.sections.reverse.find? fun s =>
      placementSectionId s = some (derivationTarget item))
  else none

/-- `depth_gate or requirement`. -/
def derivationDemand (item : ChecklistItem) : String :=
  if item.depthGate.getD "" ≠ "" then item.depthGate.getD "" else item.requirement

/-- `section_heading or 'untitled'`. -/
def headingOrUntitled (s : Section) : String :=
  if sectionHeading s ≠ "" then sectionHeading s else "untitled"

/-- `_stem_derivation_missing_formula_checks`. -/
def stemDerivationMissingFormulaChecks (document : Document) (checklist : List ChecklistItem) :
    List Check :=
  checklist.filterMap fun item =>
    match derivationSection P document item with
    | none => none
    | some s =>
      if sectionHasFormulaBlocks s then none
      else some <| failedCheck "det_stem_derivation_missing_formula" (some (derivationTarget item))
        "Does a STEM derivation checklist item have formula_blocks showing the steps?"
        ("Section " ++ P.repr (derivationTarget item) ++ " (" ++ headingOrUntitled s ++
          ") requires derivation depth (" ++ P.repr (derivationDemand item) ++
          ") but has no formula_blocks.")
        "Add formula_blocks with step-by-step derivation for this section."

/-- `_stem_code_substitutes_derivation_checks`. -/
def stemCodeSubstitutesDerivationChecks (document : Document) (checklist : List ChecklistItem) :
    List Check :=
  checklist.filterMap fun item =>
    match derivationSection P document item with
    | none => none
    | some s =>
      if sectionHasCodeBlocks s then
        some <| failedCheck "det_stem_code_substitutes_derivation" (some (derivationTarget item))
          ("Does a STEM section with formula-work checklist requirements " ++
            "avoid code_blocks when algebraic steps are required?")
          ("Section " ++ P.repr (derivationTarget item) ++ " (" ++ headingOrUntitled s ++
            ") has code_blocks but checklist item requires formula_block work (" ++
            P.repr (derivationDemand item) ++ ").")
          ("Remove code_blocks from this section and show the derivation " ++
            "as sequential steps in formula_blocks.")
      else none

/-- `block_placement_checks`. -/
def blockPlacementChecks (document : Document) (domain : String)
    (checklist : List ChecklistItem) : List Check :=
  document.sections.flatMap (sectionPlacementChecks P domain) ++
    (if strip domain = "STEM" then
      stemDerivationMissingFormulaChecks P document checklist ++
        stemCodeSubstitutesDerivationChecks P document checklist
    else [])

/-! ## Which checks there are -/

section

variable {P} {s : Section} {c : Check}

theorem mem_ite_singleton {α : Type} {b : Prop} [Decidable b] {a x : α} :
    a ∈ (if b then [x] else []) ↔ b ∧ a = x := by
  by_cases hb : b <;> simp [hb]

/-- **The checks of a code block** with code: for math notation, for pseudocode and
for a missing explanation. -/
theorem mem_codeBlockChecks {p : CodeBlock × Option String} :
    c ∈ codeBlockChecks P s p ↔ strip (p.1.code.getD "") ≠ "" ∧
      ((isMathLikeLanguage (strip (p.1.language.getD "")) = true ∧
          c = mathCheck P s (strip (p.1.language.getD "")) p.2) ∨
        ((lower (strip (p.1.language.getD "")) ∈ PROGRAMMING_LANGUAGES ∧
          P.looksLikePseudocode (strip (p.1.code.getD "")) = true) ∧
            c = pseudocodeCheck P s p.2) ∨
        (strip (p.1.explanation.getD "") = "" ∧ c = emptyCodeExplanationCheck P s p.2)) := by
  unfold codeBlockChecks
  dsimp only
  by_cases hcode : strip (p.1.code.getD "") = ""
  · rw [if_pos hcode]
    exact iff_of_false List.not_mem_nil fun h => h.1 hcode
  · rw [if_neg hcode, List.mem_append, List.mem_append, mem_ite_singleton, mem_ite_singleton,
      mem_ite_singleton, or_assoc]
    exact (and_iff_right hcode).symm

/-- **The checks of a formula block** with a formula: for programming code and for a
missing explanation. -/
theorem mem_formulaBlockChecks {p : FormulaBlock × Option String} :
    c ∈ formulaBlockChecks P s p ↔ strip (p.1.formula.getD "") ≠ "" ∧
      ((P.looksLikeProgrammingCode (strip (p.1.formula.getD "")) = true ∧
          c = codeInFormulaCheck P s p.2) ∨
        (strip (p.1.explanation.getD "") = "" ∧ c = emptyFormulaExplanationCheck P s p.2)) := by
  unfold formulaBlockChecks
  dsimp only
  by_cases hformula : strip (p.1.formula.getD "") = ""
  · rw [if_pos hformula]
    exact iff_of_false List.not_mem_nil fun h => h.1 hformula
  · rw [if_neg hformula, List.mem_append, mem_ite_singleton, mem_ite_singleton]
    exact (and_iff_right hformula).symm

/-- **The checks of a section**: of its prose, for blocks where a conceptual section
has none, and of its blocks. -/
theorem mem_sectionPlacementChecks {domain : String} :
    c ∈ sectionPlacementChecks P domain s ↔
      c ∈ equationChecks P domain s ∨
      ((strip domain = "Conceptual" ∧ hasExecutableBlocks s = true) ∧ c = conceptualCheck P s) ∨
      (∃ p ∈ codeBlockLocations s, c ∈ codeBlockChecks P s p) ∨
      ∃ p ∈ formulaBlockLocations s, c ∈ formulaBlockChecks P s p := by
  unfold sectionPlacementChecks
  rw [List.mem_append, List.mem_append, List.mem_append, mem_ite_singleton, List.mem_flatMap,
    List.mem_flatMap, or_assoc, or_assoc]

/-- **All checks of a document.** -/
theorem mem_blockPlacementChecks {document : Document} {domain : String}
    {checklist : List ChecklistItem} :
    c ∈ blockPlacementChecks P document domain checklist ↔
      (∃ s ∈ document.sections, c ∈ sectionPlacementChecks P domain s) ∨
      (strip domain = "STEM" ∧
        (c ∈ stemDerivationMissingFormulaChecks P document checklist ∨
          c ∈ stemCodeSubstitutesDerivationChecks P document checklist)) := by
  unfold blockPlacementChecks
  rw [List.mem_append, List.mem_flatMap]
  by_cases hdomain : strip domain = "STEM"
  · rw [if_pos hdomain, List.mem_append]
    simp [hdomain]
  · rw [if_neg hdomain]
    simp [hdomain]

end

end Checks

end StudyAgent.Placement
