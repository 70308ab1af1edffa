import StudyAgent.Placement.Checks

/-!
# Relocation plans

A failed placement check is turned into a plan: the section it names is searched
again for the blocks and spans the check is about, and each becomes one
relocation, addressed by its container and by its index in the section as it is
now.  The container is read back from the text of the check's evidence.

Main results:

* `mem_planMathInCodeBlock` — **a plan for a math check lists every math block of
  the containers it is about**, not only the block of the check.
-/

namespace StudyAgent.Placement

open Py

/-! ## Relocations -/

inductive RelocationAction where
  | extract
  | dereference
  | moveBlock
  | fillExplanation
  deriving DecidableEq

inductive BlockKind where
  | codeBlocks
  | formulaBlocks
  deriving DecidableEq

structure Relocation where
  action : RelocationAction
  highConfidence : Bool
  sectionId : String
  subsectionHeading : Option String := none
  spanStart : Option ℕ := none
  spanEnd : Option ℕ := none
  spanText : Option String := none
  replacement : Option String := none
  blockKind : Option BlockKind := none
  blockIndex : Option ℕ := none
  targetKind : Option BlockKind := none
  explanation : Option String := none
  deriving DecidableEq

structure RelocationPlan where
  checkId : String
  sectionId : String
  relocations : List Relocation := []
  deriving DecidableEq

/-- `has_low_confidence`. -/
def RelocationPlan.hasLowConfidence (plan : RelocationPlan) : Bool :=
  plan.relocations.any fun r => !r.highConfidence

/-! ## Text -/

/-- `hay.find(needle)`. -/
def findChars (needle : List Char) : List Char → Option ℕ
  | [] => if needle = [] then some 0 else none
  | c :: l => if needle.isPrefixOf (c :: l) then some 0 else (findChars needle l).map (· + 1)

/-- `needle in hay`. -/
def containsText (hay needle : String) : Bool := (findChars needle.toList hay.toList).isSome

/-- `text[start:stop]`. -/
def sliceText (text : String) (start stop : ℕ) : String :=
  String.ofList ((text.toList.drop start).take (stop - start))

/-! ## The location in the evidence -/

/-- The shortest non-empty text before `": "`. -/
def untilColon : List Char → Option (List Char)
  | [] => none
  | c :: l =>
    if (": ".toList).isPrefixOf l then some [c] else (untilColon l).map fun g => c :: g

/-- `(?:, subsection (.+?))?: ` at the beginning of a text, with its group. -/
def matchSubsection (l : List Char) : Option (Option (List Char)) :=
  if (", subsection ".toList).isPrefixOf l then
    (untilColon (l.drop ", subsection ".length)).map some
  else if (": ".toList).isPrefixOf l then some none
  else none

/-- `(.+?)(?:, subsection (.+?))?: ` at the beginning of a text, with its groups. -/
def matchHeadings : List Char → Option (List Char × Option (List Char))
  | [] => none
  | c :: l =>
    match matchSubsection l with
    | some sub => some ([c], sub)
    | none => (matchHeadings l).map fun p => (c :: p.1, p.2)

/-- `_EVIDENCE_LOCATION_RE`. -/
def matchEvidence (evidence : String) : Option (List Char × Option (List Char)) :=
  if startsWith evidence "Section " then
    matchHeadings (evidence.toList.drop "Section ".length)
  else none

section Plans

variable (P : Patterns)

/-- `_parse_repr_string`. -/
def parseReprString (raw : String) : String :=
  let text := strip raw
  if text = "" then ""
  else
    match P.literalEval text with
    | some value => value
    | none =>
      let chars := text.toList
      if 2 ≤ chars.length ∧ chars.head? = chars.getLast? ∧
          (chars.head? = some '\'' ∨ chars.head? = some '"') then
        String.ofList (chars.tail.dropLast)
      else text

/-- The subsection heading of `_parse_evidence_location`. -/
def evidenceSubsection (c : Check) : Option String :=
  match matchEvidence (getText c.evidence "") with
  | some (_, some raw) =>
    let heading := parseReprString P (String.ofList raw)
    if heading = "" then none else some heading
  | _ => none

/-! ## Handlers -/

/-- `_content_targets`. -/
def contentTargets (s : Section) (subsectionHeading : Option String) :
    List (String × Option String) :=
  match subsectionHeading with
  | some heading =>
    match (subsectionList s).find? fun sub => strip (sub.heading.getD "") = heading with
    | some sub => [(sub.content.getD "", some heading)]
    | none => []
  | none => if s.content.getD "" = "" then [] else [(s.content.getD "", none)]

/-- `_all_formula_texts`. -/
def allFormulaTexts (s : Section) : List String :=
  ((formulaBlockLocations s).map fun p => strip (p.1.formula.getD "")).filter (· ≠ "")

/-- `_span_in_formula_blocks`. -/
def spanInFormulaBlocks (spanText : String) (s : Section) : Bool :=
  let spanNorm := P.normalizeMath spanText
  spanNorm ≠ "" && (allFormulaTexts s).any fun formula =>
    let formulaNorm := P.normalizeMath formula
    containsText formulaNorm spanNorm || containsText spanNorm formulaNorm

/-- `_dereference_replacement`. -/
def dereferenceReplacement (spanText : String) : String :=
  if containsText (lower spanText) "derivative" || containsText spanText "f'" then
    "the derivative"
  else if containsText (lower spanText) "integral" || containsText spanText "∫" then
    "the integral"
  else "the expression"

/-- The relocation that replaces a span by a reference to the formula. -/
def dereferenceSpan (sectionId : String) (sub : Option String) (span : EquationSpan) :
    Relocation where
  action := .dereference
  highConfidence := true
  sectionId := sectionId
  subsectionHeading := sub
  spanStart := some span.start
  spanEnd := some span.stop
  spanText := some span.text
  replacement := some (dereferenceReplacement span.text)

/-- The relocation that moves a span of prose to a formula block. -/
def extractSpan (sectionId : String) (sub : Option String) (start stop : ℕ) (text : String) :
    Relocation where
  action := .extract
  highConfidence := true
  sectionId := sectionId
  subsectionHeading := sub
  spanStart := some start
  spanEnd := some stop
  spanText := some text

/-- What becomes of one equation span. -/
def equationRelocation (s : Section) (sectionId content : String) (sub : Option String)
    (span : EquationSpan) : Option Relocation :=
  let inFormulaBlocks := spanInFormulaBlocks P span.text s
  if !span.high && !inFormulaBlocks then none
  else if inFormulaBlocks then some (dereferenceSpan sectionId sub span)
  else if P.isNarrativeEquationClause span.text then
    let core := (P.extractEquationCore span.text).getD ""
    match findChars core.toList (sliceText content span.start span.stop).toList with
    | some offset =>
      if core = "" then some (dereferenceSpan sectionId sub span)
      else some (extractSpan sectionId sub (span.start + offset)
        (span.start + offset + core.length) core)
    | none => some (dereferenceSpan sectionId sub span)
  else some (extractSpan sectionId sub span.start span.stop span.text)

/-- The first span of each place. -/
def firstSpans (seen : List (ℕ × ℕ)) : List EquationSpan → List EquationSpan
  | [] => []
  | span :: rest =>
    if (span.start, span.stop) ∈ seen then firstSpans seen rest
    else span :: firstSpans (seen ++ [(span.start, span.stop)]) rest

/-- `_plan_equation_in_content`. -/
def planEquationInContent (s : Section) (c : Check) : List Relocation :=
  (contentTargets s (evidenceSubsection P c)).flatMap fun (content, sub) =>
    let spans := firstSpans [] (P.findEquationSpans content)
    let derivatives := firstSpans (spans.map fun span => (span.start, span.stop))
      ((P.derivativeSpans content).filter fun span => spanInFormulaBlocks P span.text s)
    spans.filterMap (equationRelocation P s c.sectionText content sub) ++
      derivatives.map (dereferenceSpan c.sectionText sub)

/-- `_indexed_code_blocks`. -/
def indexedCodeBlocks (s : Section) : List (CodeBlock × Option String × ℕ) :=
  (s.codeBlocks.getD []).zipIdx.map (fun p => (p.1, none, p.2)) ++
    (subsectionList s).flatMap fun sub =>
      (sub.codeBlocks.getD []).zipIdx.map fun p => (p.1, subsectionKey sub, p.2)

/-- `_indexed_formula_blocks`. -/
def indexedFormulaBlocks (s : Section) : List (FormulaBlock × Option String × ℕ) :=
  (s.formulaBlocks.getD []).zipIdx.map (fun p => (p.1, none, p.2)) ++
    (subsectionList s).flatMap fun sub =>
      (sub.formulaBlocks.getD []).zipIdx.map fun p => (p.1, subsectionKey sub, p.2)

/-- `not (subsection_heading and sub_heading != subsection_heading)`. -/
def inScope (scope sub : Option String) : Bool := scope = none || sub = scope

/-- The move of one block to the other kind. -/
def moveRelocation (sectionId : String) (sub : Option String) (kind target : BlockKind)
    (index : ℕ) : Relocation where
  action := .moveBlock
  highConfidence := true
  sectionId := sectionId
  subsectionHeading := sub
  blockKind := some kind
  blockIndex := some index
  targetKind := some target

/-- `_plan_math_in_code_block`. -/
def planMathInCodeBlock (s : Section) (c : Check) : List Relocation :=
  ((indexedCodeBlocks s).filter fun p =>
    inScope (evidenceSubsection P c) p.2.1 && isMathBlock p.1).map fun p =>
      moveRelocation c.sectionText p.2.1 .codeBlocks .formulaBlocks p.2.2

/-- `_plan_code_in_formula_block`. -/
def planCodeInFormulaBlock (s : Section) (c : Check) : List Relocation :=
  ((indexedFormulaBlocks s).filter fun p =>
    inScope (evidenceSubsection P c) p.2.1 && isCodeBlockInFormula P p.1).map fun p =>
      moveRelocation c.sectionText p.2.1 .formulaBlocks .codeBlocks p.2.2

/-- `_EMPTY_EXPLANATION_TEMPLATE`. -/
def EMPTY_EXPLANATION_TEMPLATE : String := "Notation relocated from prose; content unchanged."

/-- The filling of one empty explanation. -/
def fillRelocation (sectionId : String) (sub : Option String) (kind : BlockKind)
    (index : ℕ) : Relocation where
  action := .fillExplanation
  highConfidence := true
  sectionId := sectionId
  subsectionHeading := sub
  blockKind := some kind
  blockIndex := some index
  explanation := some EMPTY_EXPLANATION_TEMPLATE

/-- `_plan_empty_block_explanation`. -/
def planEmptyBlockExplanation (s : Section) (c : Check) : List Relocation :=
  if containsText (lower (getText c.evidence "")) "formula_blocks" then
    ((indexedFormulaBlocks s).filter fun p =>
      inScope (evidenceSubsection P c) p.2.1 && strip (p.1.formula.getD "") ≠ "" &&
        strip (p.1.explanation.getD "") = "").map fun p =>
          fillRelocation c.sectionText p.2.1 .formulaBlocks p.2.2
  else
    ((indexedCodeBlocks s).filter fun p =>
      inScope (evidenceSubsection P c) p.2.1 && strip (p.1.code.getD "") ≠ "" &&
        strip (p.1.explanation.getD "") = "").map fun p =>
          fillRelocation c.sectionText p.2.1 .codeBlocks p.2.2

/-- `_plan_conceptual_has_blocks`. -/
def planConceptualHasBlocks (c : Check) : List Relocation :=
  [{ action := .moveBlock, highConfidence := false, sectionId := c.sectionText }]

/-- `_CHECK_HANDLERS`. -/
def relocationsFor (s : Section) (c : Check) : List Relocation :=
  if c.idText = "det_equation_in_content" then planEquationInContent P s c
  else if c.idText = "det_math_in_code_block" then planMathInCodeBlock P s c
  else if c.idText = "det_code_in_formula_block" then planCodeInFormulaBlock P s c
  else if c.idText = "det_empty_block_explanation" then planEmptyBlockExplanation P s c
  else if c.idText = "det_conceptual_has_blocks" then planConceptualHasBlocks c
  else []

/-- The plan of one failed check, if there is anything to relocate. -/
def relocationPlan (document : Document) (c : Check) : Option RelocationPlan :=
  if c.idText ∉ PLACEMENT_CHECK_IDS ∨ c.sectionText = "" then none
  else
    match lastSection document.sections c.sectionText with
    | none => none
    | some s =>
      if relocationsFor P s c = [] then none
      else
        some {
          checkId := c.idText
          sectionId := c.sectionText
          relocations := relocationsFor P s c }

/-- `build_relocation_plans`. -/
def buildRelocationPlans (document : Document) (failedChecks : List Check) :
    List RelocationPlan :=
  failedChecks.filterMap (relocationPlan P document)

/-- **A plan for a math check** moves every math block of the containers the check is
read to be about, at its index in the section as it is. -/
theorem mem_planMathInCodeBlock {P : Patterns} {s : Section} {c : Check} {r : Relocation} :
    r ∈ planMathInCodeBlock P s c ↔ ∃ p ∈ indexedCodeBlocks s,
      (inScope (evidenceSubsection P c) p.2.1 = true ∧ isMathBlock p.1 = true) ∧
        moveRelocation c.sectionText p.2.1 .codeBlocks .formulaBlocks p.2.2 = r := by
  unfold planMathInCodeBlock
  simp only [List.mem_map, List.mem_filter, Bool.and_eq_true, and_assoc]

end Plans

end StudyAgent.Placement
