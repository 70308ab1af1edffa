import StudyAgent.Base.KeyedRows
import StudyAgent.Base.Runs
import StudyAgent.Reference.Extraction

/-!
# The cache of parsed references

Runs on different nodes parse their reference PDFs at the same time.  A run looks for a parse of
the same bytes, first at its own reference and node and then anywhere, and extracts the PDF if it
finds none; what it used is stored at its reference and node.  A file never changes under the id of
its material.

Main results:

* `Moved`, `moved_of_step` — everything that a step can do.
-/

namespace StudyAgent.Reference

open Runs KeyedRows

/-! ## Rows -/

/-- A reference material and a node. -/
structure Key where
  referenceMaterialId : ℕ
  nodeId : ℕ
  deriving DecidableEq

structure LlamaParseExtractionResult (H : Type) where
  structuredData : StructuredData
  extractJobId : String
  parseJobId : Option String
  contentHash : H
  parseImages : List ParseImageRecord
  reusedFromCache : Bool
  skipPersist : Bool

/-- A row of `referencellamaparsepdf`. -/
structure ReferenceLlamaParsePdf (H : Type) where
  llamaparsePdfId : ℕ
  key : Key
  spaceId : ℕ
  llamaParseJobId : String
  llamaParseParseJobId : Option String
  contentHash : H
  structuredJson : StructuredData
  formattedText : String
  parsedBy : ℕ
  createdAt : ℕ
  updatedAt : ℕ

/-- A row of `referencellamaparseimages`. -/
structure ReferenceLlamaParseImage where
  llamaparsePdfId : ℕ
  key : Key
  title : Option String
  filename : String
  fileUrl : String
  sourcePageNumber : Option ℤ
  figureIndexOnPage : Option ℤ
  parseIndex : Option ℤ
  category : Option String
  orderIndex : ℕ
  deriving DecidableEq

structure Tables (H : Type) where
  pdfs : List (ReferenceLlamaParsePdf H)
  images : List ReferenceLlamaParseImage

variable {H : Type}

/-! ## The repository -/

namespace Tables

/-- `get_by_reference_and_node`. -/
def getByReferenceAndNode (t : Tables H) (key : Key) : Option (ReferenceLlamaParsePdf H) :=
  t.pdfs.find? fun row => row.key = key

/-- `list_images_for_pdf`. -/
def listImagesForPdf (t : Tables H) (pdfId : ℕ) : List ReferenceLlamaParseImage :=
  (t.images.filter fun image => image.llamaparsePdfId = pdfId).insertionSort
    fun i j => i.orderIndex ≤ j.orderIndex

/-- `get_by_content_hash`: a newest row with the hash, by its id, or none if there is none. -/
def getByContentHash [DecidableEq H] (t : Tables H) (hash : H) :
    Option ℕ → Option (Option (ReferenceLlamaParsePdf H))
  | none => if ∀ row ∈ t.pdfs, row.contentHash ≠ hash then some none else none
  | some pdfId =>
    match t.pdfs.find? fun row => row.llamaparsePdfId = pdfId with
    | some row =>
      if row.contentHash = hash ∧
          ∀ other ∈ t.pdfs, other.contentHash = hash → other.createdAt ≤ row.createdAt
      then some (some row) else none
    | none => none

end Tables

/-- What is stored of a run; the images carry their titles. -/
structure Payload (H : Type) where
  spaceId : ℕ
  llamaParseJobId : String
  llamaParseParseJobId : Option String
  contentHash : H
  structuredJson : StructuredData
  formattedText : String
  parsedBy : ℕ
  images : List (ParseImageRecord × String)

/-- The rows of the figures. -/
def imageRows (pdfId : ℕ) (key : Key) (images : List (ParseImageRecord × String)) :
    List ReferenceLlamaParseImage :=
  images.zipIdx.map fun x =>
    { llamaparsePdfId := pdfId
      key := key
      title := some x.1.2
      filename := x.1.1.filename
      fileUrl := x.1.1.path
      sourcePageNumber := some x.1.1.pageNumber
      figureIndexOnPage := some x.1.1.figureIndexOnPage
      parseIndex := some x.1.1.parseIndex
      category := x.1.1.category
      orderIndex := x.2 }

/-- The row with new values; the space and the time of its creation stay. -/
def ReferenceLlamaParsePdf.update (row : ReferenceLlamaParsePdf H) (p : Payload H) (now : ℕ) :
    ReferenceLlamaParsePdf H :=
  { row with
    llamaParseJobId := p.llamaParseJobId
    llamaParseParseJobId := p.llamaParseParseJobId
    contentHash := p.contentHash
    structuredJson := p.structuredJson
    formattedText := p.formattedText
    parsedBy := p.parsedBy
    updatedAt := now }

/-- A new row. -/
def Payload.toRow (p : Payload H) (pdfId : ℕ) (key : Key) (now : ℕ) : ReferenceLlamaParsePdf H where
  llamaparsePdfId := pdfId
  key := key
  spaceId := p.spaceId
  llamaParseJobId := p.llamaParseJobId
  llamaParseParseJobId := p.llamaParseParseJobId
  contentHash := p.contentHash
  structuredJson := p.structuredJson
  formattedText := p.formattedText
  parsedBy := p.parsedBy
  createdAt := now
  updatedAt := now

/-- `upsert_parse_result`; `pdfId` is the id for a new row. -/
def Tables.upsertParseResult (t : Tables H) (key : Key) (p : Payload H) (pdfId now : ℕ) :
    Tables H :=
  match t.getByReferenceAndNode key with
  | some row =>
    { pdfs := modify (·.llamaparsePdfId) row.llamaparsePdfId (·.update p now) t.pdfs
      images := (t.images.filter fun i => i.llamaparsePdfId ≠ row.llamaparsePdfId) ++
        imageRows row.llamaparsePdfId key p.images }
  | none =>
    { pdfs := t.pdfs ++ [p.toRow pdfId key now]
      images := t.images ++ imageRows pdfId key p.images }

/-! ## The cache -/

/-- Python's `int(x or other)`. -/
def orDefault (x : Option ℤ) (other : ℤ) : ℤ := (x.filter (· ≠ 0)).getD other

/-- `_images_to_parse_records`. -/
def imagesToParseRecords (images : List ReferenceLlamaParseImage) : List ParseImageRecord :=
  images.zipIdx.map fun x =>
    { parseIndex := orDefault x.1.parseIndex x.2
      pageNumber := orDefault x.1.sourcePageNumber 1
      figureIndexOnPage := orDefault x.1.figureIndexOnPage 1
      filename := x.1.filename
      path := x.1.fileUrl
      category := x.1.category
      bboxY := 0 }

/-- `_build_extraction_from_cached_row`. -/
def buildExtractionFromCachedRow (row : ReferenceLlamaParsePdf H)
    (images : List ReferenceLlamaParseImage) (contentHash : H) (structuredData : StructuredData)
    (skipPersist : Bool) : LlamaParseExtractionResult H where
  structuredData := structuredData
  extractJobId := row.llamaParseJobId
  parseJobId := row.llamaParseParseJobId
  contentHash := contentHash
  parseImages := imagesToParseRecords images
  reusedFromCache := true
  skipPersist := skipPersist

/-- What LlamaCloud has of an extract job and of the parse job that was run with it. -/
structure CloudJob (B : Type) where
  pdf : B
  result : StructuredData
  parseJobId : Option String
  downloaded : List ParseImageRecord

/-- `_resolve_structured_json`; `fetched` is what the extract job gives if it is asked. -/
def resolveStructuredJson (row : ReferenceLlamaParsePdf H) (fetched : Option StructuredData) :
    Option (StructuredData × Bool) :=
  if structuredJsonIsComplete row.structuredJson then some (row.structuredJson, false)
  else fetched.map fun data => (data, true)

/-- The payload that a run stores, if the space of its node is known. -/
def persistPayload (e : LlamaParseExtractionResult H) (spaceId parsedBy : ℕ) : Payload H where
  spaceId := spaceId
  llamaParseJobId := e.extractJobId
  llamaParseParseJobId := e.parseJobId
  contentHash := e.contentHash
  structuredJson := e.structuredData
  formattedText := formatParsedReference e.structuredData
  parsedBy := parsedBy
  images := e.parseImages.map fun r =>
    (r, titleForReferenceImage r (buildImageTitleLookup e.structuredData))

/-! ## What a run is given -/

/-- An entry of `reference_images` in the state of a run; `title` is there in a loaded one. -/
structure ReferenceImage where
  filename : String
  storagePath : String
  sourcePage : Option ℤ
  figureIndexOnPage : Option ℤ
  parseIndex : Option ℤ
  category : Option String
  title : Option String
  deriving DecidableEq

/-- `parsed_reference_data`. -/
structure ParsedReferenceData where
  structured : StructuredData
  referenceImages : List ReferenceImage
  deriving DecidableEq

/-- The images of an extraction. -/
def referenceImages (records : List ParseImageRecord) : List ReferenceImage :=
  records.map fun r =>
    { filename := r.filename
      storagePath := r.path
      sourcePage := some r.pageNumber
      figureIndexOnPage := some r.figureIndexOnPage
      parseIndex := some r.parseIndex
      category := r.category
      title := none }

/-- The images of stored rows. -/
def storedImages (images : List ReferenceLlamaParseImage) : List ReferenceImage :=
  images.map fun i =>
    { filename := i.filename
      storagePath := i.fileUrl
      sourcePage := i.sourcePageNumber
      figureIndexOnPage := i.figureIndexOnPage
      parseIndex := i.parseIndex
      category := i.category
      title := i.title }

/-- `build_parsed_reference_data_from_extraction`. -/
def buildParsedReferenceDataFromExtraction (e : LlamaParseExtractionResult H) :
    ParsedReferenceData :=
  ⟨e.structuredData, referenceImages e.parseImages⟩

/-- `build_parsed_reference_data`. -/
def buildParsedReferenceData (structured : StructuredData)
    (images : List ReferenceLlamaParseImage) : ParsedReferenceData :=
  ⟨structured, storedImages images⟩

/-- `_load_persisted_reference`, which raises where nothing is stored. -/
def loadPersistedReference (t : Tables H) (key : Key) : Option (String × ParsedReferenceData) :=
  (t.getByReferenceAndNode key).map fun row =>
    (row.formattedText,
      buildParsedReferenceData row.structuredJson (t.listImagesForPdf row.llamaparsePdfId))

/-- Images with the numbers that the cache puts where there is none, and without titles. -/
def settle (images : List ReferenceImage) : List ReferenceImage :=
  images.zipIdx.map fun x =>
    { x.1 with
      sourcePage := some (orDefault x.1.sourcePage 1)
      figureIndexOnPage := some (orDefault x.1.figureIndexOnPage 1)
      parseIndex := some (orDefault x.1.parseIndex x.2)
      title := none }

/-- The data of a run, but for the numbers that the cache puts in and the titles. -/
def ParsedReferenceData.settled (d : ParsedReferenceData) : ParsedReferenceData :=
  { d with referenceImages := settle d.referenceImages }

/-! ## The system -/

/-- How far a run has come with its reference. -/
inductive Phase (H : Type) where
  | idle
  /-- A row of the reference and the node, with the hash of the file. -/
  | current (key : Key) (row : ReferenceLlamaParsePdf H)
  /-- There is none that can be used. -/
  | missed (key : Key)
  /-- A row of the same content. -/
  | found (key : Key) (row : ReferenceLlamaParsePdf H)
  | extracting (key : Key)
  | holding (key : Key) (e : LlamaParseExtractionResult H)
  /-- What was found or extracted is stored, and the run goes on with it. -/
  | used (key : Key) (e : LlamaParseExtractionResult H)

/-- The reference and node that a run works on. -/
def Phase.key? : Phase H → Option Key
  | .idle => none
  | .current key _ | .missed key | .found key _ | .extracting key | .holding key _
  | .used key _ => some key

/-- The tables, what LlamaCloud has, and the runs. -/
structure System (B H S : Type) where
  tables : Tables H
  jobs : String → Option (CloudJob B)
  phase : S → Phase H

/-- What can happen.  Reading the figures and the structured data comes with what the storage and
LlamaCloud answer, a lookup with the row that is found, and an extraction with its job. -/
inductive Event (B S : Type) where
  | enter (s : S) (key : Key)
  | useCurrent (s : S) (stored : String → Bool) (available : Bool)
  | lookup (s : S) (pdfId : Option ℕ)
  | useFound (s : S) (stored : String → Bool) (available : Bool)
  | extract (s : S) (jobId : String) (job : CloudJob B)
  | store (s : S) (spaceId : Option ℕ) (parsedBy pdfId now : ℕ)
  /-- An error, an abort, or the end of the run. -/
  | leave (s : S)

section

variable {B S : Type} [DecidableEq S]

namespace System

/-- A run goes on to another phase. -/
def go (sys : System B H S) (s : S) (phase : Phase H) : System B H S :=
  { sys with phase := Function.update sys.phase s phase }

@[simp] theorem tables_go (sys : System B H S) (s : S) (phase : Phase H) :
    (sys.go s phase).tables = sys.tables := rfl

@[simp] theorem jobs_go (sys : System B H S) (s : S) (phase : Phase H) :
    (sys.go s phase).jobs = sys.jobs := rfl

theorem phase_go (sys : System B H S) (s t : S) (phase : Phase H) :
    (sys.go s phase).phase t = if t = s then phase else sys.phase t := Function.update_apply ..

/-- LlamaCloud has run a job. -/
def create (sys : System B H S) (jobId : String) (job : CloudJob B) : System B H S :=
  { sys with jobs := Function.update sys.jobs jobId (some job) }

/-- A payload is stored. -/
def put (sys : System B H S) (key : Key) (p : Payload H) (pdfId now : ℕ) : System B H S :=
  { sys with tables := sys.tables.upsertParseResult key p pdfId now }

variable (hash : Key → H)

/-- What the extract job of a row gives, if it is asked. -/
def fetched (sys : System B H S) (row : ReferenceLlamaParsePdf H) (available : Bool) :
    Option StructuredData :=
  if available then (sys.jobs row.llamaParseJobId).map CloudJob.result else none

/-- The use of a row: its figures must be readable, then its structured data is taken or fetched.
Without the figures the run goes on otherwise; a fetch that fails ends the search. -/
def useRow (sys : System B H S) (key : Key) (row : ReferenceLlamaParsePdf H)
    (stored : String → Bool) (available mayskip : Bool) (otherwise : Phase H) : Phase H :=
  let images := sys.tables.listImagesForPdf row.llamaparsePdfId
  if images.all fun image => stored image.fileUrl then
    match resolveStructuredJson row (sys.fetched row available) with
    | some (data, jsonFetched) =>
      .holding key
        (buildExtractionFromCachedRow row images (hash key) data (mayskip && !jsonFetched))
    | none => .extracting key
  else otherwise

/-- What a fresh extraction gives. -/
def extracted (key : Key) (jobId : String) (job : CloudJob B) : LlamaParseExtractionResult H where
  structuredData := job.result
  extractJobId := jobId
  parseJobId := job.parseJobId
  contentHash := hash key
  parseImages := assignFigureOrdinalsOnPage job.downloaded
  reusedFromCache := false
  skipPersist := false

end System

variable [DecidableEq B] [DecidableEq H] (sha : B → H) (file : ℕ → B)

omit [DecidableEq S] [DecidableEq B] [DecidableEq H] in
/-- The hash of the file of a reference. -/
def contentHash (key : Key) : H := sha (file key.referenceMaterialId)

/-- One step of `llamaparse_node` on some run. -/
def step (sys : System B H S) : Event B S → Option (System B H S)
  | .enter s key =>
    match sys.phase s with
    | .idle => some (sys.go s
        (match sys.tables.getByReferenceAndNode key with
        | some row =>
          if row.contentHash = contentHash sha file key then .current key row else .missed key
        | none => .missed key))
    | _ => none
  | .useCurrent s stored available =>
    match sys.phase s with
    | .current key row => some (sys.go s
        (sys.useRow (contentHash sha file) key row stored available true (.missed key)))
    | _ => none
  | .lookup s pdfId =>
    match sys.phase s with
    | .missed key =>
      (sys.tables.getByContentHash (contentHash sha file key) pdfId).map fun found =>
        sys.go s (match found with
          | some row => .found key row
          | none => .extracting key)
    | _ => none
  | .useFound s stored available =>
    match sys.phase s with
    | .found key row => some (sys.go s
        (sys.useRow (contentHash sha file) key row stored available false (.extracting key)))
    | _ => none
  | .extract s jobId job =>
    match sys.phase s with
    | .extracting key =>
      if sys.jobs jobId = none ∧ job.pdf = file key.referenceMaterialId then
        some ((sys.create jobId job).go s
          (.holding key (System.extracted (contentHash sha file) key jobId job)))
      else none
    | _ => none
  | .store s spaceId parsedBy pdfId now =>
    match sys.phase s with
    | .holding key e =>
      if e.skipPersist then some (sys.go s (.used key e))
      else match spaceId with
        | none => some (sys.go s .idle)
        | some space =>
          if ∀ row ∈ sys.tables.pdfs, row.llamaparsePdfId ≠ pdfId then
            some ((sys.put key (persistPayload e space parsedBy) pdfId now).go s (.used key e))
          else none
    | _ => none
  | .leave s => some (sys.go s .idle)

variable {sha file}

/-- **Everything that a step can do.** -/
inductive Moved (sha : B → H) (file : ℕ → B) (sys : System B H S) (s : S) :
    Event B S → System B H S → Prop
  | toCurrent {key : Key} {row : ReferenceLlamaParsePdf H} : sys.phase s = .idle →
      sys.tables.getByReferenceAndNode key = some row →
      row.contentHash = contentHash sha file key →
      Moved sha file sys s (.enter s key) (sys.go s (.current key row))
  | toMissed {key : Key} : sys.phase s = .idle →
      Moved sha file sys s (.enter s key) (sys.go s (.missed key))
  | useCurrent {key : Key} {row : ReferenceLlamaParsePdf H} {stored : String → Bool}
      {available : Bool} : sys.phase s = .current key row →
      Moved sha file sys s (.useCurrent s stored available) (sys.go s
        (sys.useRow (contentHash sha file) key row stored available true (.missed key)))
  | toFound {key : Key} {pdfId : Option ℕ} {row : ReferenceLlamaParsePdf H} :
      sys.phase s = .missed key →
      sys.tables.getByContentHash (contentHash sha file key) pdfId = some (some row) →
      Moved sha file sys s (.lookup s pdfId) (sys.go s (.found key row))
  | toExtracting {key : Key} {pdfId : Option ℕ} : sys.phase s = .missed key →
      sys.tables.getByContentHash (contentHash sha file key) pdfId = some none →
      Moved sha file sys s (.lookup s pdfId) (sys.go s (.extracting key))
  | useFound {key : Key} {row : ReferenceLlamaParsePdf H} {stored : String → Bool}
      {available : Bool} : sys.phase s = .found key row →
      Moved sha file sys s (.useFound s stored available) (sys.go s
        (sys.useRow (contentHash sha file) key row stored available false (.extracting key)))
  | extract {key : Key} {jobId : String} {job : CloudJob B} : sys.phase s = .extracting key →
      sys.jobs jobId = none → job.pdf = file key.referenceMaterialId →
      Moved sha file sys s (.extract s jobId job) ((sys.create jobId job).go s
        (.holding key (System.extracted (contentHash sha file) key jobId job)))
  | skip {key : Key} {e : LlamaParseExtractionResult H} {spaceId : Option ℕ}
      {parsedBy pdfId now : ℕ} : sys.phase s = .holding key e → e.skipPersist = true →
      Moved sha file sys s (.store s spaceId parsedBy pdfId now) (sys.go s (.used key e))
  | nodeGone {key : Key} {e : LlamaParseExtractionResult H} {parsedBy pdfId now : ℕ} :
      sys.phase s = .holding key e →
      Moved sha file sys s (.store s none parsedBy pdfId now) (sys.go s .idle)
  | put {key : Key} {e : LlamaParseExtractionResult H} {spaceId parsedBy pdfId now : ℕ} :
      sys.phase s = .holding key e →
      (∀ row ∈ sys.tables.pdfs, row.llamaparsePdfId ≠ pdfId) →
      Moved sha file sys s (.store s (some spaceId) parsedBy pdfId now)
        ((sys.put key (persistPayload e spaceId parsedBy) pdfId now).go s (.used key e))
  | leave : Moved sha file sys s (.leave s) (sys.go s .idle)

theorem moved_of_step {sys sys' : System B H S} {event : Event B S}
    (h : step sha file sys event = some sys') : ∃ s, Moved sha file sys s event sys' := by
  cases event with
  | enter s key =>
    simp only [step] at h
    split at h <;> cases h
    rename_i hphase
    cases hget : sys.tables.getByReferenceAndNode key with
    | none => exact ⟨s, .toMissed hphase⟩
    | some row =>
      dsimp only
      split_ifs with hhash
      · exact ⟨s, .toCurrent hphase hget hhash⟩
      · exact ⟨s, .toMissed hphase⟩
  | useCurrent s stored available =>
    simp only [step] at h
    split at h <;> cases h
    exact ⟨s, .useCurrent ‹_›⟩
  | lookup s pdfId =>
    simp only [step] at h
    split at h
    · rename_i key hphase
      obtain ⟨found, hfound, rfl⟩ := Option.map_eq_some_iff.1 h
      cases found with
      | none => exact ⟨s, .toExtracting hphase hfound⟩
      | some row => exact ⟨s, .toFound hphase hfound⟩
    · cases h
  | useFound s stored available =>
    simp only [step] at h
    split at h <;> cases h
    exact ⟨s, .useFound ‹_›⟩
  | extract s jobId job =>
    simp only [step] at h
    split at h
    · split_ifs at h with hguard
      cases h
      exact ⟨s, .extract ‹_› hguard.1 hguard.2⟩
    · cases h
  | store s spaceId parsedBy pdfId now =>
    simp only [step] at h
    split at h
    · rename_i key e hphase
      split at h
      · rename_i hskip
        cases h
        exact ⟨s, .skip hphase hskip⟩
      · cases spaceId with
        | none =>
          cases h
          exact ⟨s, .nodeGone hphase⟩
        | some space =>
          dsimp only at h
          split_ifs at h with hfresh
          cases h
          exact ⟨s, .put hphase hfresh⟩
    · cases h
  | leave s =>
    cases h
    exact ⟨s, .leave⟩

end

end StudyAgent.Reference
