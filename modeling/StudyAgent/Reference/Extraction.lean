import StudyAgent.Base.GroupNumbering
import StudyAgent.Base.Text
import Mathlib.Algebra.Order.Ring.Rat
import Mathlib.Data.List.Infix
import Mathlib.Data.String.Basic

/-!
# The parse of a reference PDF

What an extract job returns for a PDF, in the shape of the schema it is asked for, and the figures
that a parse job returns beside it.  The figures are numbered on their pages from the top, the
image entries of the sections in reading order, and a figure takes its title from the entry with
its number.

Main results:

* `figuresInOrder_assign` — the figures of each page are numbered from 1 from the top, and a page
  and a number determine a figure.
* `figures_titled` — **a figure has the title of the image entry with its number on its page**,
  and its filename where its page has fewer entries.
-/

namespace StudyAgent.Reference

open Py GroupNumbering

/-! ## The structured data -/

/-- An entry of `code_blocks`. -/
structure CodeBlock where
  language : Option String
  code : Option String
  caption : Option String
  deriving DecidableEq

/-- An entry of `images`. -/
structure ImageMeta where
  sourcePage : Option ℤ
  pageNumber : Option ℤ
  figureLabel : Option String
  semanticName : Option String
  imageType : Option String
  fullDescription : Option String
  purpose : Option String
  deriving DecidableEq

/-- An entry of `tables`. -/
structure TableMeta where
  caption : Option String
  markdownTable : Option String
  deriving DecidableEq

structure Section where
  sectionIndex : Option ℤ
  heading : Option String
  bodyText : Option String
  codeBlocks : List CodeBlock
  images : List ImageMeta
  tables : List TableMeta
  deriving DecidableEq

/-- The result of an extract job; `other` are the fields that are carried along unread. -/
structure StructuredData where
  detectedTitle : Option String
  detectedTopics : List String
  unsectionedContent : Option String
  sections : List Section
  extractionNotes : List String
  other : List (String × String)
  deriving DecidableEq

/-- `_structured_json_is_complete`. -/
def structuredJsonIsComplete (data : StructuredData) : Bool := data.sections ≠ []

/-- A text that is not empty. -/
def filled (x : Option String) : Option String := x.filter (· ≠ "")

/-! ## The text for the study agent -/

/-- `_DIAGRAM_CODE_LANGUAGES`. -/
def diagramCodeLanguages : List String :=
  ["mermaid", "flowchart", "graphviz", "dot", "plantuml", "graph"]

/-- Python's `part in text`. -/
def contains (text part : String) : Bool := part.toList <:+: text.toList

/-- Python's `text.lstrip()`. -/
def lstrip (text : String) : String := String.ofList (text.toList.dropWhile isSpace)

/-- `_is_diagram_code_block`. -/
def isDiagramCodeBlock (language code : String) : Bool :=
  let head := lower (String.ofList (code.toList.take 300))
  decide (lower (strip language) ∈ diagramCodeLanguages) || contains head "graph td" ||
    contains head "graph lr" || startsWith (lstrip head) "flowchart "

/-- `_iter_section_images`. -/
def iterSectionImages (data : StructuredData) : List (Section × ImageMeta) :=
  data.sections.flatMap fun s => s.images.map fun image => (s, image)

def codeBlockParts (block : CodeBlock) : List String :=
  let language := block.language.getD ""
  let code := block.code.getD ""
  if isDiagramCodeBlock language code then []
  else (filled block.caption).toList ++ ["```" ++ language ++ "\n" ++ code ++ "\n```"]

def imagePart (s : Section) (image : ImageMeta) : String :=
  let figureLabel := ((filled image.figureLabel).or (filled image.semanticName)).getD ""
  let index := (s.sectionIndex.map toString).getD ""
  let sectionLabel := (filled (some (strip (s.heading.getD "")))).getD ("section " ++ index)
  "[IMAGE: " ++ figureLabel ++ "]\nReference section: " ++ sectionLabel ++
    "\nType: " ++ image.imageType.getD "other" ++
    "\nDescription: " ++ image.fullDescription.getD "" ++ "\nPurpose: " ++ image.purpose.getD ""

def sectionParts (s : Section) : List String :=
  let heading := s.heading.getD ""
  let body := s.bodyText.getD ""
  (if heading ≠ "" ∨ body ≠ "" then [strip (heading ++ "\n" ++ body)] else []) ++
    s.codeBlocks.flatMap codeBlockParts ++ s.images.map (imagePart s) ++
    s.tables.flatMap fun table =>
      (filled table.caption).toList ++ (filled table.markdownTable).toList

/-- The numbered line of an image in the inventory. -/
def inventoryLine (index : ℕ) (entry : Section × ImageMeta) : String :=
  let heading := strip (entry.1.heading.getD "")
  let label := ((filled entry.2.figureLabel).or (filled entry.2.semanticName)).getD
    ("diagram_" ++ toString index)
  toString index ++ ". " ++ label ++ " — section: " ++
    (filled (some heading)).getD "(no heading)"

def inventoryIntro : String :=
  "The following diagrams were extracted from the reference. " ++
  "Each MUST receive detailed coverage in Section 3 (How It Works) — " ++
  "expand on its Description using the section body text. Do not skip any entry."

/-- The lines under the heading of the inventory. -/
def inventoryLines (data : StructuredData) : List String :=
  inventoryIntro :: "" ::
    ((iterSectionImages data).zipIdx 1).map fun x => inventoryLine x.2 x.1

/-- `format_parsed_reference`. -/
def formatParsedReference (data : StructuredData) : String :=
  let parts :=
    ((filled data.detectedTitle).map ("Document: " ++ ·)).toList ++
    (if data.detectedTopics ≠ [] then ["Topics: " ++ ", ".intercalate data.detectedTopics]
      else []) ++
    (filled data.unsectionedContent).toList ++
    data.sections.flatMap sectionParts ++
    (if iterSectionImages data ≠ [] then
      ["## DIAGRAMS TO COVER IN SECTION 3\n" ++ "\n".intercalate (inventoryLines data)] else []) ++
    (if data.extractionNotes ≠ [] then
      ["Extraction notes:\n" ++ "\n".intercalate (data.extractionNotes.map ("- " ++ ·))] else [])
  "\n\n".intercalate (parts.filter fun part => strip part ≠ "")

/-! ## Figures -/

/-- A downloaded figure. -/
structure ParseImageRecord where
  parseIndex : ℤ
  pageNumber : ℤ
  figureIndexOnPage : ℤ
  filename : String
  path : String
  category : Option String
  bboxY : ℚ
  deriving DecidableEq

/-- The key by which the figures of a page are sorted. -/
def figureKey (r : ParseImageRecord) : ℚ ×ₗ ℤ ×ₗ String :=
  toLex (r.bboxY, toLex (r.parseIndex, r.filename))

/-- From the top of the page. -/
def above (r s : ParseImageRecord) : Prop := figureKey r ≤ figureKey s

instance : DecidableRel above := fun r s => inferInstanceAs (Decidable (figureKey r ≤ figureKey s))

instance : Std.Total above := ⟨fun _ _ => le_total _ _⟩

instance : IsTrans ParseImageRecord above := ⟨fun _ _ _ => le_trans⟩

/-- Give a figure its number. -/
def withOrdinal (x : ParseImageRecord × ℕ) : ParseImageRecord :=
  { x.1 with figureIndexOnPage := x.2 }

/-- `_assign_figure_ordinals_on_page`.  The records are numbered in place and sorted by page and
number then; since no two have the same page and number, the order they had before is lost. -/
def assignFigureOrdinalsOnPage (records : List ParseImageRecord) : List ParseImageRecord :=
  (numberGroups ParseImageRecord.pageNumber above records).map withOrdinal

/-! ## Titles -/

/-- The page of an image entry. -/
def entryPage (entry : Section × ImageMeta) : Option ℤ :=
  (entry.2.sourcePage.filter (· ≠ 0)).or entry.2.pageNumber

/-- The title that an image entry gives to the figure with its number. -/
def entryLabel (page : ℤ) (entry : Section × ImageMeta) : String :=
  strip ((((filled entry.2.figureLabel).or (filled entry.2.semanticName)).or
    (filled entry.1.heading)).getD ("Figure on page " ++ toString page))

/-- The variables of the loop over the image entries. -/
structure TitleScan where
  ordinalByPage : ℤ → ℕ
  lookup : ℤ × ℤ → Option String

def TitleScan.entry (st : TitleScan) (entry : Section × ImageMeta) : TitleScan :=
  match entryPage entry with
  | none => st
  | some page =>
    let ordinal := st.ordinalByPage page + 1
    { ordinalByPage := Function.update st.ordinalByPage page ordinal
      lookup := Function.update st.lookup (page, ordinal) (some (entryLabel page entry)) }

/-- `_build_image_title_lookup`. -/
def buildImageTitleLookup (data : StructuredData) : ℤ × ℤ → Option String :=
  ((iterSectionImages data).foldl TitleScan.entry ⟨fun _ => 0, fun _ => none⟩).lookup

/-- The title of a figure without an image entry. -/
def untitled (r : ParseImageRecord) : String :=
  (filled (some r.filename)).getD ("Reference figure (page " ++ toString r.pageNumber ++ ")")

/-- `_title_for_reference_image`. -/
def titleForReferenceImage (r : ParseImageRecord) (titles : ℤ × ℤ → Option String) : String :=
  (titles (r.pageNumber, r.figureIndexOnPage)).getD (untitled r)

/-! ### The lookup, entry by entry -/

/-- The image entries on a page, in reading order. -/
def entriesOn (entries : List (Section × ImageMeta)) (page : ℤ) : List (Section × ImageMeta) :=
  entries.filter fun entry => entryPage entry = some page

theorem entriesOn_concat (entries : List (Section × ImageMeta)) (entry : Section × ImageMeta)
    (page : ℤ) : entriesOn (entries ++ [entry]) page =
      entriesOn entries page ++ if entryPage entry = some page then [entry] else [] := by
  rw [entriesOn, List.filter_append, List.filter_singleton]
  simp only [Bool.cond_decide, entriesOn]

/-- What the scan knows when it has seen some entries. -/
structure ScanOf (entries : List (Section × ImageMeta)) (st : TitleScan) : Prop where
  counted : ∀ page, st.ordinalByPage page = (entriesOn entries page).length
  known : ∀ page (n : ℕ), st.lookup (page, n + 1) =
    (entriesOn entries page)[n]?.map (entryLabel page)

theorem ScanOf.entry {entries : List (Section × ImageMeta)} {st : TitleScan}
    (h : ScanOf entries st) (entry : Section × ImageMeta) :
    ScanOf (entries ++ [entry]) (st.entry entry) := by
  unfold TitleScan.entry
  cases hpage : entryPage entry with
  | none =>
    refine ⟨fun page => ?_, fun page n => ?_⟩
    · rw [entriesOn_concat, hpage, if_neg (by simp), List.append_nil, h.counted]
    · rw [entriesOn_concat, hpage, if_neg (by simp), List.append_nil, h.known]
  | some own =>
    refine ⟨fun page => ?_, fun page n => ?_⟩ <;> rw [entriesOn_concat, hpage] <;> dsimp only
    · rw [Function.update_apply]
      by_cases hp : page = own
      · subst hp
        rw [if_pos rfl, if_pos rfl, h.counted, List.length_append, List.length_singleton]
      · rw [if_neg hp, if_neg (by simpa using Ne.symm hp), List.append_nil, h.counted]
    · rw [Function.update_apply, h.counted]
      by_cases hp : page = own
      · subst hp
        rw [if_pos rfl, List.getElem?_append]
        rcases lt_trichotomy n (entriesOn entries page).length with hlt | heq | hgt
        · rw [if_neg (by simp; omega), if_pos hlt, h.known]
        · subst heq
          rw [if_pos (by simp), if_neg (Nat.lt_irrefl _), Nat.sub_self]
          rfl
        · rw [if_neg (by simp; omega), if_neg (by omega), h.known,
            List.getElem?_eq_none (by omega), List.getElem?_eq_none (by simp; omega)]
      · rw [if_neg (by simp [hp]), if_neg (by simpa using Ne.symm hp), List.append_nil, h.known]

theorem scanOf_foldl (entries : List (Section × ImageMeta)) :
    ScanOf entries (entries.foldl TitleScan.entry ⟨fun _ => 0, fun _ => none⟩) := by
  induction entries using List.reverseRecOn with
  | nil => exact ⟨fun _ => rfl, fun _ _ => rfl⟩
  | append_singleton entries entry ih =>
    rw [List.foldl_append]
    exact ih.entry entry

/-- The title for a page and a number is that of the entry with the number on the page. -/
theorem buildImageTitleLookup_eq (data : StructuredData) (page : ℤ) (n : ℕ) :
    buildImageTitleLookup data (page, n + 1) =
      (entriesOn (iterSectionImages data) page)[n]?.map (entryLabel page) :=
  (scanOf_foldl (iterSectionImages data)).known page n

/-! ## The figures of a page -/

/-- A figure apart from its number. -/
def unnumbered (r : ParseImageRecord) : ParseImageRecord := { r with figureIndexOnPage := 0 }

/-- The figures on a page. -/
def figuresOn (records : List ParseImageRecord) (page : ℤ) : List ParseImageRecord :=
  records.filter fun r => r.pageNumber = page

/-- The figures are those that were downloaded, page by page, from the top of each page and
numbered so. -/
structure FiguresInOrder (downloaded figures : List ParseImageRecord) : Prop where
  same : (figures.map unnumbered).Perm (downloaded.map unnumbered)
  pages : figures.Pairwise fun r s => r.pageNumber ≤ s.pageNumber
  fromTop : ∀ page, (figuresOn figures page).Pairwise above
  numbered : ∀ page (n : ℕ) r, (figuresOn figures page)[n]? = some r →
    r.figureIndexOnPage = n + 1
  determined : (figures.map fun r => (r.pageNumber, r.figureIndexOnPage)).Nodup

theorem figuresOn_assign (records : List ParseImageRecord) (page : ℤ) :
    figuresOn (assignFigureOrdinalsOnPage records) page =
      ((ordered ParseImageRecord.pageNumber above records page).zipIdx 1).map withOrdinal := by
  rw [figuresOn, assignFigureOrdinalsOnPage, List.filter_map, ← filter_numberGroups]
  rfl

theorem figuresInOrder_assign (records : List ParseImageRecord) :
    FiguresInOrder records (assignFigureOrdinalsOnPage records) where
  same := by
    have hperm := (@perm_numberGroups _ _ ParseImageRecord.pageNumber above _ _ records).map
      unnumbered
    rw [List.map_map] at hperm
    rw [assignFigureOrdinalsOnPage, List.map_map]
    exact hperm
  pages := by
    rw [assignFigureOrdinalsOnPage, List.pairwise_map]
    refine (pairwise_numberGroups records).imp fun {x y} hxy => ?_
    rcases Prod.Lex.toLex_le_toLex.1 hxy with hlt | ⟨heq, -⟩
    · exact hlt.le
    · exact heq.le
  fromTop page := by
    have hsorted : (((ordered ParseImageRecord.pageNumber above records page).zipIdx 1).map
        Prod.fst).Pairwise above := by
      rw [List.zipIdx_map_fst]
      exact List.pairwise_insertionSort _ _
    rw [List.pairwise_map] at hsorted
    rw [figuresOn_assign, List.pairwise_map]
    exact hsorted
  numbered page n r hr := by
    rw [figuresOn_assign, List.getElem?_map, List.getElem?_zipIdx] at hr
    obtain ⟨s, -, rfl⟩ : ∃ s, _ ∧ withOrdinal (s, 1 + n) = r := by
      simpa [Option.map_eq_some_iff] using hr
    simp [withOrdinal, Int.add_comm]
  determined := by
    rw [assignFigureOrdinalsOnPage, List.map_map]
    have hinj : Function.Injective fun x : ℤ × ℕ => (x.1, (x.2 : ℤ)) := fun x y hxy => by
      simpa [Prod.ext_iff] using hxy
    have hnodup :=
      (@nodup_numberGroups _ _ ParseImageRecord.pageNumber above _ _ records).map hinj
    rw [List.map_map] at hnodup
    exact hnodup

/-- **The figures of each page are numbered from 1 from the top, and each has the title of the
image entry with its number on its page**; the figures beyond the entries keep their filenames. -/
theorem figures_titled (records : List ParseImageRecord) (data : StructuredData) :
    FiguresInOrder records (assignFigureOrdinalsOnPage records) ∧
      ∀ page (n : ℕ) r, (figuresOn (assignFigureOrdinalsOnPage records) page)[n]? = some r →
        titleForReferenceImage r (buildImageTitleLookup data) =
          ((entriesOn (iterSectionImages data) page)[n]?.map (entryLabel page)).getD
            (untitled r) := by
  have hfigures := figuresInOrder_assign records
  refine ⟨hfigures, fun page n r hr => ?_⟩
  have hpage : r.pageNumber = page :=
    of_decide_eq_true (List.mem_filter.1 (List.mem_of_getElem? hr)).2
  rw [titleForReferenceImage, hpage, hfigures.numbered page n r hr, buildImageTitleLookup_eq]

/-- Two figures on one page, the lower one first. -/
def sampleFigures : List ParseImageRecord :=
  [⟨0, 1, 1, "b.png", "/b.png", none, 40⟩, ⟨1, 1, 1, "a.png", "/a.png", none, 10⟩]

/-- A section with one image entry. -/
def sampleData : StructuredData where
  detectedTitle := none
  detectedTopics := []
  unsectionedContent := none
  sections := [⟨some 1, some "Heaps", none, [], [⟨some 1, none, some "Heap", none, none, none,
    none⟩], []⟩]
  extractionNotes := []
  other := []

/-- The upper figure has the title of the entry, the lower one its filename. -/
theorem figures_titled_sample :
    ((figuresOn (assignFigureOrdinalsOnPage sampleFigures) 1).map fun r =>
      titleForReferenceImage r (buildImageTitleLookup sampleData)) = ["Heap", "b.png"] := by
  obtain ⟨r, s, hrs⟩ : ∃ r s, figuresOn (assignFigureOrdinalsOnPage sampleFigures) 1 = [r, s] ∧
      s.filename = "b.png" := ⟨_, _, rfl, rfl⟩
  have htitles := (figures_titled sampleFigures sampleData).2 1
  rw [hrs.1] at htitles ⊢
  have hr := htitles 0 r rfl
  have hs := htitles 1 s rfl
  have hname : untitled s = "b.png" := by
    rw [untitled, hrs.2]
    rfl
  rw [hname] at hs
  rw [List.map_cons, List.map_cons, hr, hs]
  rfl

end StudyAgent.Reference
