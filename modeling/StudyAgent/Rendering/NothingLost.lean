import StudyAgent.Rendering.Lines

/-!
# What rendering keeps

A document is rendered item by item: headings, texts, and blocks with their explanations.  Headings
and texts are always shown.  A block loses what stands behind the last fence in it, and its
explanation if nothing else is left of it.

Main results:

* `documentParts_eq` — the parts are those of the items, in the order of the document.
* `requiredLines_twice` — blocks of mathematics go through the fence stripping twice.
* `shown_iff` — one item is shown exactly if it is kept.
* `nothing_lost_iff` — **so is a document.**
* `line_and_explanation_lost` — a line and an explanation that are lost.
-/

namespace StudyAgent.Rendering

open Py

/-! ## Items -/

/-- What a document consists of. -/
inductive Item where
  | heading (t : Option String) (level : ℕ)
  | text (t : Option String)
  | code (block : CodeBlock)
  | formula (block : FormulaBlock)

def blockItems (codeBlocks : Option (List CodeBlock)) (formulaBlocks : Option (List FormulaBlock)) :
    List Item :=
  (codeBlocks.getD []).map Item.code ++ (formulaBlocks.getD []).map Item.formula

def subsectionItems (subsection : Subsection) : List Item :=
  [Item.heading subsection.heading 3, .text subsection.content] ++
    blockItems subsection.codeBlocks subsection.formulaBlocks

def sectionItems (s : Section) : List Item :=
  [Item.heading s.heading 2, .text s.content] ++ blockItems s.codeBlocks s.formulaBlocks ++
    (s.subsections.getD []).flatMap subsectionItems

/-- The items of a document, in its order. -/
def items (doc : GenerationDocument) : List Item := (doc.sections.getD []).flatMap sectionItems

section

variable (isWordChar : Char → Bool)

/-- The parts that an item is rendered to. -/
def Item.parts : Item → List Part
  | heading t level => headingParts t level
  | text t => textParts t
  | code block => codeParts isWordChar block
  | formula block => formulaParts isWordChar block

theorem parts_blockItems (codeBlocks : Option (List CodeBlock))
    (formulaBlocks : Option (List FormulaBlock)) :
    (blockItems codeBlocks formulaBlocks).flatMap (Item.parts isWordChar) =
      (codeBlocks.getD []).flatMap (codeParts isWordChar) ++
        (formulaBlocks.getD []).flatMap (formulaParts isWordChar) := by
  simp [blockItems, List.flatMap_map, Item.parts]

theorem parts_subsectionItems (subsection : Subsection) :
    (subsectionItems subsection).flatMap (Item.parts isWordChar) =
      subsectionParts isWordChar subsection := by
  rw [subsectionItems, List.flatMap_append, parts_blockItems]
  simp [subsectionParts, Item.parts]

theorem parts_sectionItems (s : Section) :
    (sectionItems s).flatMap (Item.parts isWordChar) = sectionParts isWordChar s := by
  have hsub : ((s.subsections.getD []).flatMap subsectionItems).flatMap (Item.parts isWordChar) =
      (s.subsections.getD []).flatMap (subsectionParts isWordChar) := by
    rw [List.flatMap_assoc]
    exact List.flatMap_congr fun subsection _ => parts_subsectionItems isWordChar subsection
  rw [sectionItems, List.flatMap_append, List.flatMap_append, hsub, parts_blockItems]
  simp [sectionParts, Item.parts]

/-- **The parts of a document are those of its items.** -/
theorem documentParts_eq (doc : GenerationDocument) :
    documentParts isWordChar doc = (items doc).flatMap (Item.parts isWordChar) := by
  rw [documentParts, items, List.flatMap_assoc]
  exact List.flatMap_congr fun s _ => (parts_sectionItems isWordChar s).symm

end

/-! ## What is to be shown -/

/-- The lines of a block that a part shows. -/
def Part.lines : Part → List (List Char)
  | .text _ => []
  | .code _ body => shown stripChars body
  | .math body => shown bareLine body
  | .fenced body => shown bareLine body

/-- Some parts show the lines of a block, and its explanation behind them. -/
def ShowsBlock (required : List (List Char)) (explanation : Option String) (parts : List Part) :
    Prop :=
  ∃ body rest, parts = body ++ rest ∧ required.Sublist (body.flatMap Part.lines) ∧
    (stripChars (explanation.getD "").toList ≠ [] →
      rest = [.text (stripChars (explanation.getD "").toList)])

/-- The form in which the lines of a block of code are compared. -/
def codeForm (block : CodeBlock) : List Char → List Char :=
  if isMathLikeLanguage (strip (block.language.getD "")) then bareLine else stripChars

/-- Some parts show an item: a heading behind its mark, a text as it is, the lines of a block that
are not fences around it, and its explanation. -/
def Item.Shown : Item → List Part → Prop
  | heading t _, parts =>
    stripChars (t.getD "").toList ≠ [] →
      ∃ mark, parts = [.text (mark ++ stripChars (t.getD "").toList)] ∧
        ∀ c ∈ mark, c = '#' ∨ c = ' '
  | text t, parts =>
    stripChars (t.getD "").toList ≠ [] → parts = [.text (stripChars (t.getD "").toList)]
  | code block, parts =>
    ShowsBlock (requiredLines (codeForm block) (block.code.getD "").toList) block.explanation parts
  | formula block, parts =>
    ShowsBlock (requiredLines bareLine (block.formula.getD "").toList) block.explanation parts

/-- A text of a block, stripped as the rendering does first. -/
def blockText (text : Option String) : List Char := (text.getD "").toList.rdropWhile isSpace

/-- Nothing is lost of an item: in each round of fence stripping nothing stands behind the last
fence of a block, and where nothing is left of it there is no explanation either. -/
def Item.kept : Item → Bool
  | heading _ _ => true
  | text _ => true
  | code block =>
    nothingBehind (codeForm block) 3 (stripChars (blockText block.code)) &&
      (!isMathLikeLanguage (strip (block.language.getD "")) ||
        nothingBehind bareLine 3 (stripChars (stripMarkdownFences (blockText block.code)))) &&
      (stripMarkdownFences (blockText block.code) ≠ [] ||
        stripChars (block.explanation.getD "").toList = [])
  | formula block =>
    nothingBehind bareLine 3 (stripChars (blockText block.formula)) &&
      (blockText block.formula ≠ [] || stripChars (block.explanation.getD "").toList = [])

theorem codeForm_lineForm (block : CodeBlock) : LineForm (codeForm block) := by
  unfold codeForm
  split_ifs
  · exact bareLine_lineForm
  · exact stripChars_lineForm

theorem requiredLines_blockText {form : List Char → List Char} (hform : LineForm form)
    (text : Option String) :
    requiredLines form (blockText text) = requiredLines form (text.getD "").toList := by
  rw [requiredLines, blockText, filled_rstrip hform, requiredLines]

/-! ## Blocks -/

theorem lines_textParts (text : Option String) : (textParts text).flatMap Part.lines = [] := by
  unfold textParts
  dsimp only
  split_ifs <;> simp [Part.lines]

/-- A block whose explanation is rendered shows what its body does. -/
theorem showsBlock_append {required : List (List Char)} (explanation : Option String)
    (body : List Part) :
    ShowsBlock required explanation (body ++ textParts explanation) ↔
      required.Sublist (body.flatMap Part.lines) := by
  constructor
  · rintro ⟨front, rest, hsplit, hsub, -⟩
    have hall : body.flatMap Part.lines = front.flatMap Part.lines ++ rest.flatMap Part.lines := by
      rw [← List.flatMap_append, ← hsplit, List.flatMap_append, lines_textParts, List.append_nil]
    rw [hall]
    exact hsub.trans (List.sublist_append_left _ _)
  · intro hsub
    refine ⟨body, textParts explanation, rfl, hsub, fun hne => ?_⟩
    simp [textParts, hne]

/-- Nothing shows a block of which nothing is required and that has no explanation. -/
theorem showsBlock_nil {required : List (List Char)} (explanation : Option String) :
    ShowsBlock required explanation [] ↔
      required.Sublist [] ∧ stripChars (explanation.getD "").toList = [] := by
  constructor
  · rintro ⟨front, rest, hsplit, hsub, hrest⟩
    obtain ⟨rfl, rfl⟩ := List.append_eq_nil_iff.1 hsplit.symm
    refine ⟨hsub, ?_⟩
    by_contra hne
    simpa using hrest hne
  · rintro ⟨hsub, hnil⟩
    exact ⟨[], [], rfl, hsub, fun hne => absurd hnil hne⟩

/-- **Blocks of mathematics go through the fence stripping twice.** -/
theorem requiredLines_twice {form : List Char → List Char} (hform : LineForm form)
    (t : List Char) :
    (requiredLines form t).Sublist (shown form (stripMarkdownFences (stripMarkdownFences t))) ↔
      nothingBehind form 3 (stripChars t) = true ∧
        nothingBehind form 3 (stripChars (stripMarkdownFences t)) = true := by
  constructor
  · intro hsub
    have hless : (shown form (stripMarkdownFences (stripMarkdownFences t))).Sublist
        (shown form (stripMarkdownFences t)) := by
      have hrounds := filled_unfenceTimes_sublist hform 3 (stripChars (stripMarkdownFences t))
      rw [filled_stripChars hform] at hrounds
      exact hrounds.map form
    have hfirst := (requiredLines_unfenceTimes hform 3 t).1 (hsub.trans hless)
    refine ⟨hfirst, (requiredLines_unfenceTimes hform 3 _).1 ?_⟩
    have hsame : requiredLines form (stripMarkdownFences t) = requiredLines form t := by
      rw [requiredLines, stripMarkdownFences, peel_unfenceTimes hform hfirst,
        filled_stripChars hform, requiredLines]
    rw [hsame]
    exact hsub
  · rintro ⟨hfirst, hsecond⟩
    have hsame : requiredLines form (stripMarkdownFences t) = requiredLines form t := by
      rw [requiredLines, stripMarkdownFences, peel_unfenceTimes hform hfirst,
        filled_stripChars hform, requiredLines]
    rw [← hsame]
    exact (requiredLines_unfenceTimes hform 3 _).2 hsecond

section

variable (isWordChar : Char → Bool)

/-- A rendered formula shows the lines between its outer fences. -/
theorem lines_renderFormulaBlock (formula : List Char) (mathNotation : String) :
    (renderFormulaBlock isWordChar formula mathNotation).flatMap Part.lines =
      shown bareLine (stripMarkdownFences formula) := by
  rw [← shown_bareFormula, renderFormulaBlock]
  split_ifs with hnil
  · rw [hnil, shown, filled_nil bareLine_lineForm]
    rfl
  · simp [Part.lines]
  · simp [Part.lines]

theorem codeParts_eq (block : CodeBlock) :
    codeParts isWordChar block =
      if stripMarkdownFences (blockText block.code) = [] then []
      else
        (if isMathLikeLanguage (strip (block.language.getD "")) then
          renderFormulaBlock isWordChar (stripMarkdownFences (blockText block.code)) ""
        else [.code (strip (block.language.getD "")).toList
          (stripMarkdownFences (blockText block.code))]) ++ textParts block.explanation := rfl

theorem formulaParts_eq (block : FormulaBlock) :
    formulaParts isWordChar block =
      if blockText block.formula = [] then []
      else
        renderFormulaBlock isWordChar (blockText block.formula)
          (strip (block.mathNotation.getD "")) ++ textParts block.explanation := rfl

theorem code_shown_iff (block : CodeBlock) :
    (Item.code block).Shown (codeParts isWordChar block) ↔ (Item.code block).kept = true := by
  have hform := codeForm_lineForm block
  have honce : (requiredLines (codeForm block) (block.code.getD "").toList).Sublist
        (shown (codeForm block) (stripMarkdownFences (blockText block.code))) ↔
      nothingBehind (codeForm block) 3 (stripChars (blockText block.code)) = true := by
    rw [← requiredLines_blockText hform]
    exact requiredLines_unfenceTimes hform 3 _
  rw [Item.Shown, Item.kept, codeParts_eq]
  split_ifs with hnil hmath
  · -- nothing is left of the block
    have hblank : nothingBehind bareLine 3 (stripChars []) = true := by decide
    have hshown : shown (codeForm block) (stripMarkdownFences (blockText block.code)) = [] := by
      rw [hnil, shown, filled_nil hform]
      rfl
    rw [hshown] at honce
    rw [showsBlock_nil, honce, hnil, hblank]
    simp
  · have htwice := requiredLines_twice hform (blockText block.code)
    rw [requiredLines_blockText hform] at htwice
    have hbare : codeForm block = bareLine := by rw [codeForm, if_pos hmath]
    rw [showsBlock_append, lines_renderFormulaBlock]
    rw [hbare] at htwice ⊢
    rw [htwice]
    simp [hnil, hmath]
  · have hstrip : codeForm block = stripChars := by rw [codeForm, if_neg hmath]
    rw [showsBlock_append]
    rw [hstrip] at honce ⊢
    simpa [Part.lines, hnil, hmath] using honce

theorem formula_shown_iff (block : FormulaBlock) :
    (Item.formula block).Shown (formulaParts isWordChar block) ↔
      (Item.formula block).kept = true := by
  have honce : (requiredLines bareLine (block.formula.getD "").toList).Sublist
        (shown bareLine (stripMarkdownFences (blockText block.formula))) ↔
      nothingBehind bareLine 3 (stripChars (blockText block.formula)) = true := by
    rw [← requiredLines_blockText bareLine_lineForm]
    exact requiredLines_unfenceTimes bareLine_lineForm 3 _
  rw [Item.Shown, Item.kept, formulaParts_eq]
  split_ifs with hnil
  · have hrequired : requiredLines bareLine (block.formula.getD "").toList = [] := by
      rw [← requiredLines_blockText bareLine_lineForm, hnil, requiredLines,
        filled_nil bareLine_lineForm, peel]
      rfl
    have hblank : nothingBehind bareLine 3 (stripChars []) = true := by decide
    rw [showsBlock_nil, hrequired, hnil, hblank]
    simp
  · rw [showsBlock_append, lines_renderFormulaBlock]
    simpa [hnil] using honce

/-- **One item is shown exactly if it is kept.** -/
theorem shown_iff (item : Item) : item.Shown (item.parts isWordChar) ↔ item.kept = true := by
  cases item with
  | heading t level =>
    refine iff_of_true (fun hne => ?_) rfl
    by_cases hmark : ['#'] <+: stripChars (t.getD "").toList
    · exact ⟨[], by simp [Item.parts, headingParts, headingLine, hne, hmark], by simp⟩
    · refine ⟨List.replicate level '#' ++ [' '], ?_, ?_⟩
      · simp [Item.parts, headingParts, headingLine, hne, hmark]
      · intro c hc
        rcases List.mem_append.1 hc with hc | hc
        · exact Or.inl (List.eq_of_mem_replicate hc)
        · exact Or.inr (List.mem_singleton.1 hc)
  | text t => exact iff_of_true (fun hne => by simp [Item.parts, textParts, hne]) rfl
  | code block => exact code_shown_iff isWordChar block
  | formula block => exact formula_shown_iff isWordChar block

/-- **Rendering loses nothing** exactly if it loses nothing of any item.  The markdown of a study
document consists of the parts of its items, in their order, and these show each item if and only
if each is kept. -/
theorem nothing_lost_iff {doc : GenerationDocument} (h : isStatusOnly doc = false) :
    renderSectionsToMarkdown isWordChar doc = stripChars (['\n', '\n'].intercalate
        (((items doc).flatMap (Item.parts isWordChar)).map Part.render)) ∧
      ((∀ item ∈ items doc, item.Shown (item.parts isWordChar)) ↔
        ∀ item ∈ items doc, item.kept = true) := by
  refine ⟨?_, forall₂_congr fun item _ => shown_iff isWordChar item⟩
  rw [renderSectionsToMarkdown_study isWordChar h, documentParts_eq]

end

/-! ## A document that loses something -/

/-- A code block with a line behind its closing fence, and an empty one with an explanation. -/
def lossyDocument : GenerationDocument :=
  { sections := some [
      { heading := some "Loops"
        codeBlocks := some [
          { language := some "py", code := some "```py\na = 1\n```\nb = 2" },
          { language := some "py", code := some "", explanation := some "Then b." }] }] }

/-- A code block in fences with an explanation. -/
def wholeDocument : GenerationDocument :=
  { sections := some [
      { heading := some "Loops"
        codeBlocks := some [
          { language := some "py", code := some "```py\na = 1\n```",
            explanation := some "So." }] }] }

/-- **A line behind the closing fence is lost, and so is the explanation of an empty block.** -/
theorem line_and_explanation_lost :
    isStatusOnly lossyDocument = false ∧
      renderSectionsToMarkdown (fun _ => false) lossyDocument =
        "## Loops\n\n```py\na = 1\n```".toList ∧
      ¬ ∀ item ∈ items lossyDocument, item.Shown (item.parts fun _ => false) := by
  refine ⟨by decide, by decide, fun hshown => ?_⟩
  have hitem : Item.code { language := some "py", code := some "```py\na = 1\n```\nb = 2" } ∈
      items lossyDocument := by
    simp [items, lossyDocument, sectionItems, blockItems]
  have hkept := (shown_iff (fun _ => false) _).1 (hshown _ hitem)
  exact absurd hkept (by decide)

theorem whole_document_shown :
    renderSectionsToMarkdown (fun _ => false) wholeDocument = stripChars (['\n', '\n'].intercalate
        (((items wholeDocument).flatMap (Item.parts fun _ => false)).map Part.render)) ∧
      ((∀ item ∈ items wholeDocument, item.Shown (item.parts fun _ => false)) ↔
        ∀ item ∈ items wholeDocument, item.kept = true) :=
  nothing_lost_iff _ (by decide)

end StudyAgent.Rendering
