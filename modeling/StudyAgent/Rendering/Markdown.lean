import Mathlib.Data.List.DropRight
import Mathlib.Data.List.Infix
import StudyAgent.Model.Document

/-!
# Study material as markdown

A study document is rendered part by part: headings and texts as they are, code between fences,
formulas between the dollar lines of display math.  The model of the language often writes fences
and math delimiters of its own around a block; they are taken off before.

Main results:

* `stripMathDelimiters_eq` — what is taken off a formula is one stretch of the same length at both
  ends.
* `renderSectionsToMarkdown_study` — a document without a status is rendered from its parts.
-/

namespace StudyAgent.Rendering

open Py

/-! ## Fences -/

/-- Three backticks. -/
def fence : List Char := ['`', '`', '`']

/-- `text.split("\n")`. -/
def lines (text : List Char) : List (List Char) := text.splitOn '\n'

/-- `"\n".join(lines)`. -/
def joinLines (ls : List (List Char)) : List Char := ['\n'].intercalate ls

/-- `text.strip("\n")`. -/
def stripBreaks (text : List Char) : List Char :=
  (text.dropWhile (· == '\n')).rdropWhile (· == '\n')

/-- A line that holds a fence and nothing else. -/
def isFence (line : List Char) : Bool := stripChars line = fence

/-- The lines before the last fence, if there is one. -/
def beforeLastFence : List (List Char) → Option (List (List Char))
  | [] => none
  | line :: ls =>
    match beforeLastFence ls with
    | some before => some (line :: before)
    | none => if isFence line then some [] else none

/-- One round of `_strip_markdown_fences`: what is between the first line and the last fence, if
the text begins with a fence. -/
def unfence (body : List Char) : Option (List Char) :=
  if fence <+: body then
    (beforeLastFence (lines body).tail).map fun ls => stripBreaks (joinLines ls)
  else none

/-- The rounds of `_strip_markdown_fences`. -/
def unfenceTimes : ℕ → List Char → List Char
  | 0, body => body
  | n + 1, body =>
    match unfence body with
    | none => body
    | some inner => if inner = body then body else unfenceTimes n inner

/-- `_strip_markdown_fences`. -/
def stripMarkdownFences (text : List Char) : List Char := unfenceTimes 3 (stripChars text)

/-! ## Math delimiters -/

/-- A text of more than `least` characters that begins and ends so. -/
def isBetween (opening closing : String) (least : ℕ) (body : List Char) : Bool :=
  opening.toList <+: body && closing.toList <:+ body && least < body.length

/-- `body[n:-n]`. -/
def within (n : ℕ) (body : List Char) : List Char := (body.drop n).take (body.length - 2 * n)

/-- `_strip_math_delimiters`. -/
def stripMathDelimiters (formula : List Char) : List Char :=
  let body := stripChars formula
  if isBetween "$$" "$$" 4 body then stripChars (within 2 body)
  else if isBetween "\\[" "\\]" 4 body then stripChars (within 2 body)
  else if isBetween "$" "$" 2 body then stripChars (within 1 body)
  else if isBetween "\\(" "\\)" 4 body then stripChars (within 2 body)
  else body

/-- How many characters `_strip_math_delimiters` takes off at each end of a stripped text. -/
def cutWidth (body : List Char) : ℕ :=
  if isBetween "$$" "$$" 4 body then 2
  else if isBetween "\\[" "\\]" 4 body then 2
  else if isBetween "$" "$" 2 body then 1
  else if isBetween "\\(" "\\)" 4 body then 2
  else 0

theorem within_zero (body : List Char) : within 0 body = body := by
  simp [within]

/-- **What is taken off is one stretch of the same length at both ends.** -/
theorem stripMathDelimiters_eq (formula : List Char) :
    stripMathDelimiters formula =
      stripChars (within (cutWidth (stripChars formula)) (stripChars formula)) := by
  unfold stripMathDelimiters cutWidth
  dsimp only
  split_ifs
  · rfl
  · rfl
  · rfl
  · rfl
  · rw [within_zero, stripChars_idem]

/-! ## Formulas -/

def pseudocodeNotations : List String := ["pseudo-code", "pseudocode"]

def latexNotationKeys : List String :=
  ["", "latex", "tex", "math", "mathematics", "mathematical", "chemical equation", "chemistry"]

/-- `_is_math_like_language`. -/
def isMathLikeLanguage (language : String) : Bool :=
  lower (strip language) ∈
    ["math", "mathematics", "latex", "tex", "chemical equation", "chemistry"]

section

variable (isWordChar : Char → Bool)

/-- `_LATEX_BODY_PATTERN.search(body)`. -/
def isLatexBody (body : List Char) : Bool :=
  body.tails.any fun rest =>
    (["\\frac", "\\lim", "\\int", "\\sum", "\\sqrt", "_\x7b", "^\x7b"].any fun p =>
      p.toList <+: rest) ||
    ["\\to", "\\cdot", "\\partial"].any fun p =>
      p.toList <+: rest && (rest.drop p.length).head?.all fun c => !isWordChar c

/-- `_formula_renders_as_display_math`; which characters `\b` takes for parts of a word is a
parameter. -/
def formulaRendersAsDisplayMath (body : List Char) (mathNotation : String) : Bool :=
  let key := lower (strip mathNotation)
  if key ∈ pseudocodeNotations then false
  else if key ∈ latexNotationKeys then true
  else if ["math", "latex", "chem"].any fun word => word.toList <:+: key.toList then true
  else if key ∈ ["plain-text", "plain text"] then true
  else isLatexBody isWordChar body

/-- A part of the markdown: a text, a block of code with its language, a formula as display math or
one between fences. -/
inductive Part where
  | text (t : List Char)
  | code (language body : List Char)
  | math (body : List Char)
  | fenced (body : List Char)
  deriving DecidableEq

def Part.render : Part → List Char
  | .text t => t
  | .code language body => fence ++ language ++ '\n' :: body ++ '\n' :: fence
  | .math body => ['$', '$', '\n'] ++ body ++ ['\n', '$', '$']
  | .fenced body => fence ++ '\n' :: body ++ '\n' :: fence

/-- What `_render_formula_block` takes the math delimiters off. -/
def bareFormula (formula : List Char) : List Char := stripChars (stripMarkdownFences formula)

/-- `_render_formula_block`. -/
def renderFormulaBlock (formula : List Char) (mathNotation : String) : List Part :=
  let body := stripMathDelimiters (bareFormula formula)
  if body = [] then []
  else if formulaRendersAsDisplayMath isWordChar body mathNotation then [.math body]
  else [.fenced body]

/-! ## Blocks -/

/-- A text as a part of its own, if it is not blank. -/
def textParts (text : Option String) : List Part :=
  let text := stripChars (text.getD "").toList
  if text = [] then [] else [.text text]

/-- The body of the loop of `_append_code_or_formula_blocks`. -/
def codeParts (block : CodeBlock) : List Part :=
  let lang := strip (block.language.getD "")
  let code := stripMarkdownFences ((block.code.getD "").toList.rdropWhile isSpace)
  if code = [] then []
  else
    (if isMathLikeLanguage lang then renderFormulaBlock isWordChar code ""
      else [.code lang.toList code]) ++ textParts block.explanation

/-- The body of the loop of `_append_formula_blocks`. -/
def formulaParts (block : FormulaBlock) : List Part :=
  let formula := (block.formula.getD "").toList.rdropWhile isSpace
  if formula = [] then []
  else
    renderFormulaBlock isWordChar formula (strip (block.mathNotation.getD "")) ++
      textParts block.explanation

/-! ## Documents -/

/-- `_heading_line`. -/
def headingLine (heading : List Char) (level : ℕ) : List Char :=
  let text := stripChars heading
  if text = [] then []
  else if ['#'] <+: text then text
  else List.replicate level '#' ++ ' ' :: text

def headingParts (heading : Option String) (level : ℕ) : List Part :=
  let line := headingLine (heading.getD "").toList level
  if line = [] then [] else [.text line]

def subsectionParts (subsection : Subsection) : List Part :=
  headingParts subsection.heading 3 ++ textParts subsection.content ++
    (subsection.codeBlocks.getD []).flatMap (codeParts isWordChar) ++
    (subsection.formulaBlocks.getD []).flatMap (formulaParts isWordChar)

def sectionParts (s : Section) : List Part :=
  headingParts s.heading 2 ++ textParts s.content ++
    (s.codeBlocks.getD []).flatMap (codeParts isWordChar) ++
    (s.formulaBlocks.getD []).flatMap (formulaParts isWordChar) ++
    (s.subsections.getD []).flatMap (subsectionParts isWordChar)

/-- `GenerationDocument`, as the dictionary that it was validated from. -/
structure GenerationDocument where
  sections : Option (List Section) := none
  generationStatus : Option String := none
  improveStatus : Option String := none
  regenerateStatus : Option String := none
  topicReceived : Option Value := none
  reason : Option Value := none
  message : Option Value := none
  deriving DecidableEq

/-- `is_reference_required_response`. -/
def isReferenceRequired (doc : GenerationDocument) : Bool :=
  doc.generationStatus = some "reference_required"

/-- `is_vague_improve_response`. -/
def isVagueImprove (doc : GenerationDocument) : Bool :=
  strip (doc.improveStatus.getD "") = "vague"

/-- `is_vague_regenerate_response`. -/
def isVagueRegenerate (doc : GenerationDocument) : Bool :=
  strip (doc.regenerateStatus.getD "") = "vague"

/-- `is_status_only`. -/
def isStatusOnly (doc : GenerationDocument) : Bool :=
  strip (doc.generationStatus.getD "") = "reference_required" || isVagueImprove doc ||
    isVagueRegenerate doc

/-- The parts of a document with sections. -/
def documentParts (doc : GenerationDocument) : List Part :=
  (doc.sections.getD []).flatMap (sectionParts isWordChar)

/-- `render_sections_to_markdown`. -/
def renderSectionsToMarkdown (doc : GenerationDocument) : List Char :=
  if isReferenceRequired doc then
    let ls := [
      "GENERATION STATUS: Reference material required",
      strip (getText doc.message "")] ++
      (if getTruthy doc.topicReceived false then
        ["Topic received: " ++ getText doc.topicReceived ""] else []) ++
      if getTruthy doc.reason false then ["Reason: " ++ getText doc.reason ""] else []
    stripChars (joinLines ((ls.filter (· ≠ "")).map String.toList))
  else if isVagueImprove doc then
    stripChars (getText doc.message "IMPROVE STATUS: Feedback too vague to apply.").toList
  else if isVagueRegenerate doc then
    stripChars
      (getText doc.message "REGENERATE STATUS: Regeneration goal too vague to apply.").toList
  else stripChars (['\n', '\n'].intercalate ((documentParts isWordChar doc).map Part.render))

/-- **A document without a status is rendered from its parts.** -/
theorem renderSectionsToMarkdown_study {doc : GenerationDocument} (h : isStatusOnly doc = false) :
    renderSectionsToMarkdown isWordChar doc =
      stripChars (['\n', '\n'].intercalate ((documentParts isWordChar doc).map Part.render)) := by
  simp only [isStatusOnly, Bool.or_eq_false_iff, decide_eq_false_iff_not] at h
  obtain ⟨⟨hstatus, himprove⟩, hregenerate⟩ := h
  have href : isReferenceRequired doc = false := by
    rw [isReferenceRequired, decide_eq_false_iff_not]
    intro heq
    rw [heq] at hstatus
    exact hstatus (by decide)
  rw [renderSectionsToMarkdown, href, himprove, hregenerate]
  simp

end

end StudyAgent.Rendering
