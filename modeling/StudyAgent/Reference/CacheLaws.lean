import StudyAgent.Reference.ParseCache

/-!
# What the cache of parsed references keeps

Every row comes from a job that was run on a PDF with the hash of its reference, and its figures
from such a job, though not always from the same one.  A row may be written again while a run is
about to read its figures, but only for the same reference, so for the same content.

Main results:

* `Good.step` — what every step of every run keeps.
* `served_coherent` — **whatever a run is given for a PDF, a job gave for a PDF with the same
  hash.**
* `stored_never_extracted` — **once a content is stored it is never extracted again**, as long as
  its figures can be read.
-/

namespace StudyAgent.Reference

open Runs KeyedRows

variable {B H S : Type}

/-! ## Figures -/

theorem orDefault_orDefault (x : Option ℤ) (other : ℤ) :
    orDefault (some (orDefault x other)) other = orDefault x other := by
  unfold orDefault
  by_cases h : (x.filter (· ≠ 0)).getD other = 0
  · have hfalse : decide (((x.filter (· ≠ 0)).getD other) ≠ 0) = false := by simpa using h
    rw [Option.filter_some, hfalse]
    cases hx : x.filter (· ≠ 0) with
    | none => rfl
    | some y =>
      have hy := (Option.filter_eq_some_iff.1 hx).2
      rw [hx] at h
      exact absurd h (by simpa using hy)
  · have htrue : decide (((x.filter (· ≠ 0)).getD other) ≠ 0) = true := by simpa using h
    rw [Option.filter_some, htrue]
    rfl

/-- Numbers are put in once. -/
theorem settle_settle (images : List ReferenceImage) : settle (settle images) = settle images := by
  refine List.ext_getElem? fun n => ?_
  simp only [settle, List.getElem?_map, List.getElem?_zipIdx, Option.map_map]
  cases images[n]? with
  | none => rfl
  | some image => simp [orDefault_orDefault]

theorem settle_congr {images images' : List ReferenceImage}
    (h : images.map (fun i => { i with title := none }) =
      images'.map fun i => { i with title := none }) : settle images = settle images' := by
  have hsettle : ∀ l : List ReferenceImage,
      settle l = settle (l.map fun i => { i with title := none }) := fun l => by
    refine List.ext_getElem? fun n => ?_
    simp only [settle, List.getElem?_map, List.getElem?_zipIdx, Option.map_map]
    cases l[n]? <;> rfl
  rw [hsettle images, hsettle images', h]

/-- The figures that the cache reads are those that are stored, with the numbers put in. -/
theorem referenceImages_imagesToParseRecords (images : List ReferenceLlamaParseImage) :
    referenceImages (imagesToParseRecords images) = settle (storedImages images) := by
  refine List.ext_getElem? fun n => ?_
  simp only [referenceImages, imagesToParseRecords, settle, storedImages, List.getElem?_map,
    List.getElem?_zipIdx, Option.map_map]
  cases images[n]? <;> rfl

/-- The rows of figures are those of the figures, but for the titles. -/
theorem settle_storedImages_imageRows (pdfId : ℕ) (key : Key)
    (images : List (ParseImageRecord × String)) :
    settle (storedImages (imageRows pdfId key images)) =
      settle (referenceImages (images.map Prod.fst)) := by
  refine settle_congr (List.ext_getElem? fun n => ?_)
  simp only [storedImages, imageRows, referenceImages, List.getElem?_map, List.getElem?_zipIdx,
    Option.map_map]
  cases images[n]? <;> rfl

/-! ## Tables -/

/-- The rows of the figures are in the order of their index. -/
theorem pairwise_imageRows (pdfId : ℕ) (key : Key) (images : List (ParseImageRecord × String)) :
    (imageRows pdfId key images).Pairwise fun i j => i.orderIndex ≤ j.orderIndex := by
  have hindex : ((imageRows pdfId key images).map (·.orderIndex)).Pairwise (· ≤ ·) := by
    have hrange : (imageRows pdfId key images).map (·.orderIndex) =
        List.range' 0 images.length := by
      rw [imageRows, List.map_map, ← List.zipIdx_map_snd 0 images]
      rfl
    rw [hrange]
    exact List.pairwise_le_range'
  exact List.pairwise_map.1 hindex

/-- The unique keys of the tables, and the figures as they are written. -/
structure TablesOk (t : Tables H) : Prop where
  keys : (t.pdfs.map (·.key)).Nodup
  ids : (t.pdfs.map (·.llamaparsePdfId)).Nodup
  /-- The figures of a row have been written at once. -/
  written : ∀ row ∈ t.pdfs, ∃ images,
    t.listImagesForPdf row.llamaparsePdfId = imageRows row.llamaparsePdfId row.key images
  /-- Figures belong to a row. -/
  owned : ∀ image ∈ t.images, ∃ row ∈ t.pdfs, row.llamaparsePdfId = image.llamaparsePdfId

section

variable {t : Tables H} {key : Key} {p : Payload H} {pdfId now : ℕ}

theorem getBy_eq_some (ht : TablesOk t) {row : ReferenceLlamaParsePdf H} :
    t.getByReferenceAndNode key = some row ↔ row ∈ t.pdfs ∧ row.key = key :=
  find_eq_some ht.keys

theorem mem_of_getByContentHash [DecidableEq H] {hash : H} {pick : Option ℕ}
    {row : ReferenceLlamaParsePdf H} (h : t.getByContentHash hash pick = some (some row)) :
    row ∈ t.pdfs ∧ row.contentHash = hash := by
  cases pick with
  | none =>
    rw [Tables.getByContentHash] at h
    split_ifs at h
    cases h
  | some pdfId =>
    rw [Tables.getByContentHash] at h
    split at h
    · rename_i found hfind
      split_ifs at h with hnewest
      cases h
      exact ⟨List.mem_of_find?_eq_some hfind, hnewest.1⟩
    · cases h

theorem filter_imageRows_self (id : ℕ) (images : List (ParseImageRecord × String)) :
    (imageRows id key images).filter (fun i => i.llamaparsePdfId = id) =
      imageRows id key images := by
  rw [List.filter_eq_self]
  intro i hi
  obtain ⟨x, -, rfl⟩ := List.mem_map.1 hi
  simp

theorem filter_imageRows_other {id other : ℕ} (hne : id ≠ other)
    (images : List (ParseImageRecord × String)) :
    (imageRows id key images).filter (fun i => i.llamaparsePdfId = other) = [] := by
  rw [List.filter_eq_nil_iff]
  intro i hi
  obtain ⟨x, -, rfl⟩ := List.mem_map.1 hi
  simpa using hne

/-- The figures of a row after they were written in place of others. -/
theorem listImages_of_written {t' : Tables H} {id : ℕ} {images : List (ParseImageRecord × String)}
    (h : t'.images.filter (fun i => i.llamaparsePdfId = id) = imageRows id key images) :
    t'.listImagesForPdf id = imageRows id key images := by
  rw [Tables.listImagesForPdf, h]
  exact (pairwise_imageRows id key images).insertionSort_eq

/-- A row that holds a payload. -/
structure Holds (t : Tables H) (row : ReferenceLlamaParsePdf H) (p : Payload H) : Prop where
  job : row.llamaParseJobId = p.llamaParseJobId
  hash : row.contentHash = p.contentHash
  json : row.structuredJson = p.structuredJson
  text : row.formattedText = p.formattedText
  images : t.listImagesForPdf row.llamaparsePdfId = imageRows row.llamaparsePdfId row.key p.images

/-- **Everything that an upsert does**: the row of the key holds the payload, and the other rows
stay with their figures. -/
structure Upserted (t t' : Tables H) (key : Key) (p : Payload H) : Prop where
  ok : TablesOk t'
  row : ∃ row ∈ t'.pdfs, row.key = key ∧ Holds t' row p
  kept : ∀ row ∈ t.pdfs, ∃ row' ∈ t'.pdfs, row'.key = row.key ∧
    row'.llamaparsePdfId = row.llamaparsePdfId
  old : ∀ row ∈ t'.pdfs, row.key ≠ key → row ∈ t.pdfs ∧
    t'.listImagesForPdf row.llamaparsePdfId = t.listImagesForPdf row.llamaparsePdfId
  stays : ∀ row ∈ t.pdfs, row.key ≠ key → row ∈ t'.pdfs

theorem listImages_congr {t' : Tables H} {id : ℕ}
    (h : t'.images.filter (fun i => i.llamaparsePdfId = id) =
      t.images.filter fun i => i.llamaparsePdfId = id) :
    t'.listImagesForPdf id = t.listImagesForPdf id := by
  rw [Tables.listImagesForPdf, h, Tables.listImagesForPdf]

/-- The figures of a row are written in the place of those it had. -/
theorem upserted_update (ht : TablesOk t) {row : ReferenceLlamaParsePdf H}
    (hrow : row ∈ t.pdfs) (hkey : row.key = key) :
    Upserted t
      { pdfs := modify (·.llamaparsePdfId) row.llamaparsePdfId (·.update p now) t.pdfs
        images := (t.images.filter fun i => i.llamaparsePdfId ≠ row.llamaparsePdfId) ++
          imageRows row.llamaparsePdfId key p.images } key p := by
  set t' : Tables H := ⟨modify (·.llamaparsePdfId) row.llamaparsePdfId (·.update p now) t.pdfs,
    (t.images.filter fun i => i.llamaparsePdfId ≠ row.llamaparsePdfId) ++
      imageRows row.llamaparsePdfId key p.images⟩ with ht'
  have hown : t'.listImagesForPdf row.llamaparsePdfId =
      imageRows row.llamaparsePdfId key p.images := by
    refine listImages_of_written ?_
    rw [ht']
    dsimp only
    rw [List.filter_append, filter_imageRows_self, List.filter_filter]
    simp
  have hother : ∀ id, id ≠ row.llamaparsePdfId →
      t'.listImagesForPdf id = t.listImagesForPdf id := by
    intro id hid
    refine listImages_congr ?_
    rw [ht']
    dsimp only
    rw [List.filter_append, filter_imageRows_other (Ne.symm hid), List.append_nil,
      List.filter_filter]
    refine List.filter_congr fun i _ => ?_
    by_cases hi : i.llamaparsePdfId = id
    · simp [hi, hid]
    · simp [hi]
  have hmem : ∀ r ∈ t'.pdfs, (r ∈ t.pdfs ∧ r.llamaparsePdfId ≠ row.llamaparsePdfId) ∨
      r = row.update p now := by
    intro r hr
    rcases mem_modify.1 hr with hstays | ⟨s, hs, hid, rfl⟩
    · exact Or.inl hstays
    · rw [List.inj_on_of_nodup_map ht.ids hs hrow hid]
      exact Or.inr rfl
  have hnew : row.update p now ∈ t'.pdfs := mem_modify.2 (Or.inr ⟨row, hrow, rfl, rfl⟩)
  have hkeep : ∀ r ∈ t.pdfs, r.llamaparsePdfId ≠ row.llamaparsePdfId → r ∈ t'.pdfs :=
    fun r hr hid => mem_modify.2 (Or.inl ⟨hr, hid⟩)
  refine ⟨⟨?_, ?_, ?_, ?_⟩, ⟨row.update p now, hnew, hkey, ⟨rfl, rfl, rfl, rfl, ?_⟩⟩, ?_, ?_, ?_⟩
  · have hkeys : t'.pdfs.map (·.key) = t.pdfs.map (·.key) := map_modify fun _ => rfl
    rw [hkeys]
    exact ht.keys
  · have hids : t'.pdfs.map (·.llamaparsePdfId) = t.pdfs.map (·.llamaparsePdfId) :=
      map_modify fun _ => rfl
    rw [hids]
    exact ht.ids
  · intro r hr
    rcases hmem r hr with ⟨hr, hid⟩ | rfl
    · rw [hother _ hid]
      exact ht.written r hr
    · exact ⟨p.images, hkey ▸ hown⟩
  · intro i hi
    rcases List.mem_append.1 hi with hi | hi
    · obtain ⟨r, hr, hid⟩ := ht.owned i (List.mem_filter.1 hi).1
      have hne : r.llamaparsePdfId ≠ row.llamaparsePdfId := by
        rw [hid]
        simpa using (List.mem_filter.1 hi).2
      exact ⟨r, hkeep r hr hne, hid⟩
    · obtain ⟨x, -, rfl⟩ := List.mem_map.1 hi
      exact ⟨_, hnew, rfl⟩
  · exact hkey ▸ hown
  · intro r hr
    by_cases hid : r.llamaparsePdfId = row.llamaparsePdfId
    · rw [List.inj_on_of_nodup_map ht.ids hr hrow hid]
      exact ⟨_, hnew, rfl, rfl⟩
    · exact ⟨r, hkeep r hr hid, rfl, rfl⟩
  · intro r hr hne
    rcases hmem r hr with ⟨hr, hid⟩ | rfl
    · exact ⟨hr, hother _ hid⟩
    · exact absurd hkey hne
  · intro r hr hne
    refine hkeep r hr fun hid => hne ?_
    rw [List.inj_on_of_nodup_map ht.ids hr hrow hid, hkey]

/-- A row that is new. -/
theorem upserted_insert (ht : TablesOk t) (hnone : ∀ row ∈ t.pdfs, row.key ≠ key)
    (hfresh : ∀ row ∈ t.pdfs, row.llamaparsePdfId ≠ pdfId) :
    Upserted t
      { pdfs := t.pdfs ++ [p.toRow pdfId key now]
        images := t.images ++ imageRows pdfId key p.images } key p := by
  set t' : Tables H := ⟨t.pdfs ++ [p.toRow pdfId key now],
    t.images ++ imageRows pdfId key p.images⟩ with ht'
  have hown : t'.listImagesForPdf pdfId = imageRows pdfId key p.images := by
    refine listImages_of_written ?_
    rw [ht']
    dsimp only
    have hnothing : t.images.filter (fun i => i.llamaparsePdfId = pdfId) = [] := by
      rw [List.filter_eq_nil_iff]
      intro i hi heq
      obtain ⟨r, hr, hid⟩ := ht.owned i hi
      exact hfresh r hr (hid.trans (of_decide_eq_true heq))
    rw [List.filter_append, filter_imageRows_self, hnothing, List.nil_append]
  have hother : ∀ id, id ≠ pdfId → t'.listImagesForPdf id = t.listImagesForPdf id := by
    intro id hid
    refine listImages_congr ?_
    rw [ht']
    dsimp only
    rw [List.filter_append, filter_imageRows_other (Ne.symm hid), List.append_nil]
  have hmem : ∀ r ∈ t'.pdfs, r ∈ t.pdfs ∨ r = p.toRow pdfId key now := by
    intro r hr
    simpa [ht'] using hr
  have hnew : p.toRow pdfId key now ∈ t'.pdfs := by simp [ht']
  have hkeep : ∀ r ∈ t.pdfs, r ∈ t'.pdfs := fun r hr => List.mem_append_left _ hr
  refine ⟨⟨?_, ?_, ?_, ?_⟩, ⟨_, hnew, rfl, ⟨rfl, rfl, rfl, rfl, hown⟩⟩, ?_, ?_, ?_⟩
  · rw [ht']
    dsimp only
    rw [List.map_append, List.nodup_append]
    refine ⟨ht.keys, List.nodup_singleton _, ?_⟩
    rintro k hk _ hk' rfl
    obtain ⟨r, hr, rfl⟩ := List.mem_map.1 hk
    exact hnone r hr (List.mem_singleton.1 hk')
  · rw [ht']
    dsimp only
    rw [List.map_append, List.nodup_append]
    refine ⟨ht.ids, List.nodup_singleton _, ?_⟩
    rintro k hk _ hk' rfl
    obtain ⟨r, hr, rfl⟩ := List.mem_map.1 hk
    exact hfresh r hr (List.mem_singleton.1 hk')
  · intro r hr
    rcases hmem r hr with hr | rfl
    · rw [hother _ (hfresh r hr)]
      exact ht.written r hr
    · exact ⟨p.images, hown⟩
  · intro i hi
    rcases List.mem_append.1 hi with hi | hi
    · obtain ⟨r, hr, hid⟩ := ht.owned i hi
      exact ⟨r, hkeep r hr, hid⟩
    · obtain ⟨x, -, rfl⟩ := List.mem_map.1 hi
      exact ⟨_, hnew, rfl⟩
  · exact fun r hr => ⟨r, hkeep r hr, rfl, rfl⟩
  · intro r hr hne
    rcases hmem r hr with hr | rfl
    · exact ⟨hr, hother _ (hfresh r hr)⟩
    · exact absurd rfl hne
  · exact fun r hr _ => hkeep r hr

theorem upserted (ht : TablesOk t) (key : Key) (p : Payload H) (now : ℕ)
    (hfresh : ∀ row ∈ t.pdfs, row.llamaparsePdfId ≠ pdfId) :
    Upserted t (t.upsertParseResult key p pdfId now) key p := by
  rw [Tables.upsertParseResult]
  cases hget : t.getByReferenceAndNode key with
  | none => exact upserted_insert ht (find_eq_none.1 hget) hfresh
  | some row =>
    obtain ⟨hrow, hkey⟩ := (getBy_eq_some ht).1 hget
    exact upserted_update ht hrow hkey

end

/-! ## Coherence -/

section

variable (sha : B → H)

/-- Some job, run on a PDF with this hash, gave this data. -/
def DataOf (jobs : String → Option (CloudJob B)) (hash : H) (jobId : String)
    (data : StructuredData) : Prop :=
  ∃ job, jobs jobId = some job ∧ sha job.pdf = hash ∧ job.result = data

/-- These are the figures of some job that was run on a PDF with this hash. -/
def FiguresOf (jobs : String → Option (CloudJob B)) (hash : H) (images : List ReferenceImage) :
    Prop :=
  ∃ jobId job, jobs jobId = some job ∧ sha job.pdf = hash ∧
    settle images = settle (referenceImages (assignFigureOrdinalsOnPage job.downloaded))

variable {sha} {jobs jobs' : String → Option (CloudJob B)} {hash : H}

theorem DataOf.mono (hjobs : ∀ i job, jobs i = some job → jobs' i = some job) {jobId : String}
    {data : StructuredData} (h : DataOf sha jobs hash jobId data) :
    DataOf sha jobs' hash jobId data := by
  obtain ⟨job, hjob, hpdf, hdata⟩ := h
  exact ⟨job, hjobs _ _ hjob, hpdf, hdata⟩

theorem FiguresOf.mono (hjobs : ∀ i job, jobs i = some job → jobs' i = some job)
    {images : List ReferenceImage} (h : FiguresOf sha jobs hash images) :
    FiguresOf sha jobs' hash images := by
  obtain ⟨jobId, job, hjob, hpdf, hfigures⟩ := h
  exact ⟨jobId, job, hjobs _ _ hjob, hpdf, hfigures⟩

theorem FiguresOf.congr {images images' : List ReferenceImage} (h : FiguresOf sha jobs hash images)
    (heq : settle images' = settle images) : FiguresOf sha jobs hash images' := by
  obtain ⟨jobId, job, hjob, hpdf, hfigures⟩ := h
  exact ⟨jobId, job, hjob, hpdf, heq.trans hfigures⟩

end

section

variable (sha : B → H) (file : ℕ → B)

/-- A row comes from jobs on a PDF with the hash of its reference. -/
structure RowOk (sys : System B H S) (row : ReferenceLlamaParsePdf H) : Prop where
  hash : row.contentHash = contentHash sha file row.key
  data : DataOf sha sys.jobs row.contentHash row.llamaParseJobId row.structuredJson
  figures : FiguresOf sha sys.jobs row.contentHash
    (storedImages (sys.tables.listImagesForPdf row.llamaparsePdfId))
  text : row.formattedText = formatParsedReference row.structuredJson

/-- A run has what jobs on a PDF with the hash of its reference gave. -/
structure Coherent (sys : System B H S) (key : Key) (e : LlamaParseExtractionResult H) : Prop where
  hash : e.contentHash = contentHash sha file key
  data : DataOf sha sys.jobs e.contentHash e.extractJobId e.structuredData
  figures : FiguresOf sha sys.jobs e.contentHash (referenceImages e.parseImages)

/-- A row that a run has read; it may have been written again since then. -/
structure ReadRow (sys : System B H S) (key : Key) (row : ReferenceLlamaParsePdf H) : Prop where
  hash : row.contentHash = contentHash sha file key
  own : row.contentHash = contentHash sha file row.key
  data : DataOf sha sys.jobs row.contentHash row.llamaParseJobId row.structuredJson
  there : ∃ now ∈ sys.tables.pdfs, now.key = row.key ∧
    now.llamaparsePdfId = row.llamaparsePdfId

/-- What holds of a run in each phase. -/
def PhaseOk (sys : System B H S) : Phase H → Prop
  | .idle | .missed _ | .extracting _ => True
  | .current key row | .found key row => ReadRow sha file sys key row
  | .holding key e | .used key e => Coherent sha file sys key e

/-- What holds in every state. -/
structure Good (sys : System B H S) : Prop where
  tables : TablesOk sys.tables
  rows : ∀ row ∈ sys.tables.pdfs, RowOk sha file sys row
  phases : ∀ s, PhaseOk sha file sys (sys.phase s)

variable {sha file} {sys : System B H S} {s : S} {key : Key}

/-- What a run has read or holds stays so as long as jobs and rows stay. -/
theorem PhaseOk.mono {phase : Phase H} (h : PhaseOk sha file sys phase) (sys' : System B H S)
    (hjobs : ∀ i job, sys.jobs i = some job → sys'.jobs i = some job)
    (hrows : ∀ row ∈ sys.tables.pdfs, ∃ row' ∈ sys'.tables.pdfs, row'.key = row.key ∧
      row'.llamaparsePdfId = row.llamaparsePdfId) : PhaseOk sha file sys' phase := by
  have hread : ∀ {key row}, ReadRow sha file sys key row → ReadRow sha file sys' key row := by
    intro key row h
    obtain ⟨now, hnow, hkey, hid⟩ := h.there
    obtain ⟨later, hlater, hkey', hid'⟩ := hrows now hnow
    exact ⟨h.hash, h.own, h.data.mono hjobs, later, hlater, hkey'.trans hkey, hid'.trans hid⟩
  have hheld : ∀ {key e}, Coherent sha file sys key e → Coherent sha file sys' key e :=
    fun h => ⟨h.hash, h.data.mono hjobs, h.figures.mono hjobs⟩
  cases phase with
  | idle => trivial
  | missed key => trivial
  | extracting key => trivial
  | current key row => exact hread h
  | found key row => exact hread h
  | holding key e => exact hheld h
  | used key e => exact hheld h

/-- A run goes on to a phase that is all right. -/
theorem Good.go [DecidableEq S] (h : Good sha file sys) {phase : Phase H}
    (hphase : PhaseOk sha file sys phase) :
    Good sha file (sys.go s phase) where
  tables := h.tables
  rows row hrow := ⟨(h.rows row hrow).hash, (h.rows row hrow).data, (h.rows row hrow).figures,
    (h.rows row hrow).text⟩
  phases t := by
    have hstays : ∀ p, PhaseOk sha file sys p → PhaseOk sha file (sys.go s phase) p := fun p hp =>
      hp.mono (sys.go s phase) (fun _ _ hi => hi) fun row hrow => ⟨row, hrow, rfl, rfl⟩
    rw [System.phase_go]
    split_ifs
    · exact hstays _ hphase
    · exact hstays _ (h.phases t)

theorem readRow_of_mem (h : Good sha file sys) {row : ReferenceLlamaParsePdf H}
    (hrow : row ∈ sys.tables.pdfs) (hhash : row.contentHash = contentHash sha file key) :
    ReadRow sha file sys key row :=
  ⟨hhash, (h.rows row hrow).hash, (h.rows row hrow).data, row, hrow, rfl, rfl⟩

/-- **What a row gives that a run has read**, though it may have been written again. -/
theorem useRow_ok (h : Good sha file sys) {row : ReferenceLlamaParsePdf H}
    (hread : ReadRow sha file sys key row) (stored : String → Bool) (available mayskip : Bool)
    {otherwise : Phase H} (hother : PhaseOk sha file sys otherwise) :
    PhaseOk sha file sys
      (sys.useRow (contentHash sha file) key row stored available mayskip otherwise) := by
  obtain ⟨now, hnow, hkey, hid⟩ := hread.there
  have hnowOk := h.rows now hnow
  have hfigures : FiguresOf sha sys.jobs (contentHash sha file key) (referenceImages
      (imagesToParseRecords (sys.tables.listImagesForPdf row.llamaparsePdfId))) := by
    rw [referenceImages_imagesToParseRecords, ← hid]
    have hstored := hnowOk.figures
    rw [hnowOk.hash, hkey, ← hread.own, hread.hash] at hstored
    exact hstored.congr (settle_settle _)
  obtain ⟨job, hjob, hpdf, hresult⟩ := hread.data
  unfold System.useRow
  dsimp only
  split
  · split
    · rename_i data jsonFetched hresolve
      refine ⟨rfl, ⟨job, hjob, hpdf.trans hread.hash, ?_⟩, hfigures⟩
      -- the stored data or, fetched again, the result of the same job
      unfold resolveStructuredJson System.fetched at hresolve
      split_ifs at hresolve
      · exact hresult.trans (Prod.mk.inj (Option.some.inj hresolve)).1
      · rw [hjob] at hresolve
        exact (Prod.mk.inj (Option.some.inj hresolve)).1
      · cases hresolve
    · trivial
  · exact hother

theorem Good.put (h : Good sha file sys) {e : LlamaParseExtractionResult H}
    (he : Coherent sha file sys key e) (spaceId parsedBy : ℕ) {pdfId : ℕ} (now : ℕ)
    (hfresh : ∀ row ∈ sys.tables.pdfs, row.llamaparsePdfId ≠ pdfId) :
    Good sha file (sys.put key (persistPayload e spaceId parsedBy) pdfId now) := by
  have hup := upserted h.tables key (persistPayload e spaceId parsedBy) now hfresh
  refine ⟨hup.ok, fun row hrow => ?_, fun t =>
    (h.phases t).mono _ (fun _ _ hi => hi) hup.kept⟩
  by_cases hkey : row.key = key
  · obtain ⟨own, hown, hownKey, hholds⟩ := hup.row
    obtain rfl := List.inj_on_of_nodup_map hup.ok.keys hrow hown (hkey.trans hownKey.symm)
    have hhash : row.contentHash = e.contentHash := hholds.hash
    refine ⟨by rw [hhash, he.hash, hkey], ?_, ?_, ?_⟩
    · rw [hhash, hholds.job, hholds.json]
      exact he.data
    · rw [hhash, System.put, hholds.images]
      refine he.figures.congr ?_
      rw [settle_storedImages_imageRows, persistPayload, List.map_map]
      exact congrArg _ (congrArg _ (List.map_id _))
    · rw [hholds.text, hholds.json]
      rfl
  · obtain ⟨hold, himages⟩ := hup.old row hrow hkey
    have hrowOk := h.rows row hold
    refine ⟨hrowOk.hash, hrowOk.data, ?_, hrowOk.text⟩
    rw [System.put, himages]
    exact hrowOk.figures

theorem Good.create (h : Good sha file sys) {jobId : String} (hfresh : sys.jobs jobId = none)
    (job : CloudJob B) : Good sha file (sys.create jobId job) ∧
      ∀ i j, sys.jobs i = some j → (sys.create jobId job).jobs i = some j := by
  have hjobs : ∀ i j, sys.jobs i = some j → (sys.create jobId job).jobs i = some j := by
    intro i j hij
    rw [System.create]
    dsimp only
    rw [Function.update_apply, if_neg]
    · exact hij
    · rintro rfl
      rw [hfresh] at hij
      cases hij
  refine ⟨⟨h.tables, fun row hrow => ?_, fun t =>
    (h.phases t).mono _ hjobs fun row hrow => ⟨row, hrow, rfl, rfl⟩⟩, hjobs⟩
  have hrowOk := h.rows row hrow
  exact ⟨hrowOk.hash, hrowOk.data.mono hjobs, hrowOk.figures.mono hjobs, hrowOk.text⟩

end

section

variable [DecidableEq B] [DecidableEq H] [DecidableEq S] {sha : B → H} {file : ℕ → B}
  {sys sys' : System B H S}

/-- **Every step keeps it.** -/
theorem Good.step {event : Event B S} (h : Good sha file sys)
    (hstep : step sha file sys event = some sys') : Good sha file sys' := by
  obtain ⟨s, hmoved⟩ := moved_of_step hstep
  have hphase := h.phases s
  cases hmoved with
  | toCurrent _ hget hhash =>
    exact h.go (readRow_of_mem h ((getBy_eq_some h.tables).1 hget).1 hhash)
  | toMissed => exact h.go trivial
  | useCurrent hs =>
    rw [hs] at hphase
    exact h.go (useRow_ok h hphase _ _ _ trivial)
  | toFound _ hfound =>
    obtain ⟨hrow, hhash⟩ := mem_of_getByContentHash hfound
    exact h.go (readRow_of_mem h hrow hhash)
  | toExtracting => exact h.go trivial
  | useFound hs =>
    rw [hs] at hphase
    exact h.go (useRow_ok h hphase _ _ _ trivial)
  | @extract key jobId job _ hfresh hpdf =>
    have hjob : (sys.create jobId job).jobs jobId = some job := Function.update_self ..
    have hsha : sha job.pdf = contentHash sha file key := congrArg sha hpdf
    exact (h.create hfresh job).1.go
      ⟨rfl, ⟨job, hjob, hsha, rfl⟩, jobId, job, hjob, hsha, rfl⟩
  | skip hs =>
    rw [hs] at hphase
    exact h.go hphase
  | nodeGone => exact h.go trivial
  | @put key e spaceId parsedBy pdfId now hs hfresh =>
    rw [hs] at hphase
    have hused : PhaseOk sha file sys (.used key e) := hphase
    exact (h.put hphase spaceId parsedBy now hfresh).go
      (hused.mono _ (fun _ _ hi => hi) (upserted h.tables key _ now hfresh).kept)
  | leave => exact h.go trivial

/-! ## What a run is given -/

/-- Nothing is parsed and nobody is at work. -/
structure Fresh (sys : System B H S) : Prop where
  pdfs : sys.tables.pdfs = []
  images : sys.tables.images = []
  idle : ∀ s, sys.phase s = .idle

omit [DecidableEq B] [DecidableEq H] [DecidableEq S] in
theorem good_of_fresh (h : Fresh sys) : Good sha file sys where
  tables := by
    refine ⟨?_, ?_, ?_, ?_⟩
    · rw [h.pdfs]
      exact List.nodup_nil
    · rw [h.pdfs]
      exact List.nodup_nil
    · rw [h.pdfs]
      nofun
    · rw [h.images]
      nofun
  rows := by
    rw [h.pdfs]
    nofun
  phases s := by
    rw [h.idle s]
    trivial

theorem good_of_reachable {allowed : System B H S → Event B S → Prop}
    (h : Reachable (step sha file) allowed Fresh sys) : Good sha file sys :=
  h.invariant (fun _ hfresh => good_of_fresh hfresh) fun _ _ _ hgood _ hstep => hgood.step hstep

/-- **Whatever a run is given for a PDF, jobs gave for a PDF with the same hash**, and so it is
with everything stored, in any interleaving of runs that find, extract and store. -/
theorem served_coherent
    (h : Reachable (step sha file) (fun _ _ => True) Fresh sys) :
    (∀ s key e, sys.phase s = .holding key e ∨ sys.phase s = .used key e →
      Coherent sha file sys key e) ∧
    ∀ row ∈ sys.tables.pdfs, RowOk sha file sys row := by
  have hgood := good_of_reachable h
  refine ⟨fun s key e hs => ?_, hgood.rows⟩
  have hphase := hgood.phases s
  rcases hs with hs | hs <;> rw [hs] at hphase <;> exact hphase

def sampleJob : CloudJob ℕ := ⟨1, sampleData, none, sampleFigures⟩

/-- Nothing is stored and two runs begin. -/
def sampleStart : System ℕ ℕ Bool := ⟨⟨[], []⟩, fun _ => none, fun _ => .idle⟩

/-- A run extracts the reference 1 for the node 10 and stores it. -/
def sampleStoring : List (Event ℕ Bool) :=
  [.enter false ⟨1, 10⟩, .lookup false none, .extract false "job" sampleJob,
    .store false (some 5) 7 3 100]

theorem sampleStart_fresh : Fresh sampleStart := ⟨rfl, rfl, fun _ => rfl⟩

/-- Another run, on the node 20, finds what the first has stored. -/
theorem sample_found : ∃ sys e, run (Reference.step id id) sampleStart (sampleStoring ++
    [.enter true ⟨1, 20⟩, .lookup true (some 3), .useFound true (fun _ => true) true]) = some sys ∧
      sys.phase true = .holding ⟨1, 20⟩ e ∧ e.extractJobId = "job" :=
  ⟨_, _, rfl, rfl, rfl⟩

theorem served_coherent_sample : ∃ (sys : System ℕ ℕ Bool) (e : LlamaParseExtractionResult ℕ),
    e.extractJobId = "job" ∧ Coherent id id sys ⟨1, 20⟩ e ∧
      ∀ row ∈ sys.tables.pdfs, RowOk id id sys row := by
  obtain ⟨sys, e, hrun, he, hjob⟩ := sample_found
  obtain ⟨hruns, hrows⟩ := served_coherent (reachable_of_run sampleStart_fresh hrun)
  exact ⟨sys, e, hjob, hruns true _ e (Or.inl he), hrows⟩

/-! ## Nothing is extracted twice -/

/-- The figures that are stored can be read, and jobs can be asked. -/
def Readable (sys : System B H S) : Event B S → Prop
  | .useCurrent _ stored available | .useFound _ stored available =>
    (∀ image ∈ sys.tables.images, stored image.fileUrl = true) ∧ available = true
  | _ => True

/-- A content is stored and nobody extracts it. -/
structure Kept (sha : B → H) (file : ℕ → B) (hash : H) (sys : System B H S) : Prop where
  good : Good sha file sys
  stored : ∃ row ∈ sys.tables.pdfs, row.contentHash = hash
  never : ∀ s key, contentHash sha file key = hash → sys.phase s ≠ .extracting key

omit [DecidableEq B] [DecidableEq H] [DecidableEq S] in
/-- A row whose figures can be read is used. -/
theorem useRow_ne_extracting {key : Key} {row : ReferenceLlamaParsePdf H}
    {stored : String → Bool} {available mayskip : Bool} {otherwise : Phase H}
    (hread : ReadRow sha file sys key row)
    (hstored : ∀ image ∈ sys.tables.images, stored image.fileUrl = true)
    (havailable : available = true) (key' : Key) :
    sys.useRow (contentHash sha file) key row stored available mayskip otherwise ≠
      .extracting key' := by
  have hall : ((sys.tables.listImagesForPdf row.llamaparsePdfId).all
      fun image => stored image.fileUrl) = true := by
    rw [List.all_eq_true]
    intro image himage
    exact hstored image (List.mem_of_mem_filter ((List.mem_insertionSort _).1 himage))
  obtain ⟨job, hjob, -, -⟩ := hread.data
  unfold System.useRow
  dsimp only
  rw [if_pos hall]
  unfold resolveStructuredJson System.fetched
  rw [if_pos havailable, hjob]
  split_ifs <;> simp

omit [DecidableEq B] [DecidableEq H] in
/-- A run elsewhere, or one that does not extract this content, may go on. -/
theorem Kept.go {hash : H} {s : S} {phase : Phase H} (hgood : Good sha file (sys.go s phase))
    (h : Kept sha file hash sys)
    (hphase : ∀ key, contentHash sha file key = hash → phase ≠ .extracting key) :
    Kept sha file hash (sys.go s phase) where
  good := hgood
  stored := h.stored
  never t key hkey := by
    rw [System.phase_go]
    split_ifs
    · exact hphase key hkey
    · exact h.never t key hkey

theorem Kept.step {hash : H} {event : Event B S} (h : Kept sha file hash sys)
    (hread : Readable sys event) (hstep : step sha file sys event = some sys') :
    Kept sha file hash sys' := by
  have hgood := h.good.step hstep
  obtain ⟨s, hmoved⟩ := moved_of_step hstep
  have hphase := h.good.phases s
  cases hmoved with
  | toCurrent => exact h.go hgood nofun
  | toMissed => exact h.go hgood nofun
  | useCurrent hs =>
    rw [hs] at hphase
    exact h.go hgood fun key _ => useRow_ne_extracting hphase hread.1 hread.2 key
  | toFound => exact h.go hgood nofun
  | toExtracting hs hnone =>
    -- the lookup says that nothing is stored
    obtain ⟨row, hrow, hhash⟩ := h.stored
    refine h.go hgood fun key' hkey' heq => ?_
    cases heq
    rename_i pdfId
    cases pdfId with
    | none =>
      rw [Tables.getByContentHash] at hnone
      split_ifs at hnone with hno
      exact hno row hrow (hhash.trans hkey'.symm)
    | some id =>
      rw [Tables.getByContentHash] at hnone
      split at hnone
      · split_ifs at hnone
        cases hnone
      · cases hnone
  | useFound hs =>
    rw [hs] at hphase
    exact h.go hgood fun key _ => useRow_ne_extracting hphase hread.1 hread.2 key
  | @extract key jobId job _ hfresh _ =>
    have hkept : Kept sha file hash (sys.create jobId job) :=
      ⟨(h.good.create hfresh job).1, h.stored, h.never⟩
    exact hkept.go hgood nofun
  | skip => exact h.go hgood nofun
  | nodeGone => exact h.go hgood nofun
  | @put key e spaceId parsedBy pdfId now hs hfresh =>
    rw [hs] at hphase
    have hput := h.good.put hphase spaceId parsedBy now hfresh
    have hkept : Kept sha file hash
        (sys.put key (persistPayload e spaceId parsedBy) pdfId now) := by
      refine ⟨hput, ?_, h.never⟩
      -- the row is there under its key, and its hash is that of its reference
      obtain ⟨row, hrow, hhash⟩ := h.stored
      obtain ⟨row', hrow', hkey, -⟩ := (upserted h.good.tables key
        (persistPayload e spaceId parsedBy) now hfresh).kept row hrow
      refine ⟨row', hrow', ?_⟩
      rw [(hput.rows row' hrow').hash, hkey, ← (h.good.rows row hrow).hash, hhash]
    exact hkept.go hgood nofun
  | leave => exact h.go hgood nofun

/-- **Once a content is stored it is never extracted again**: from a state in which it is stored
and nobody is extracting it, no run extracts it, if stored figures can be read and jobs can be
asked. -/
theorem stored_never_extracted {hash : H}
    (h : Reachable (step sha file) Readable (fun start =>
      Reachable (step sha file) (fun _ _ => True) Fresh start ∧
        (∃ row ∈ start.tables.pdfs, row.contentHash = hash) ∧
        ∀ s key, contentHash sha file key = hash → start.phase s ≠ .extracting key) sys)
    {s : S} {key : Key} (hkey : contentHash sha file key = hash) :
    sys.phase s ≠ .extracting key := by
  have hkept : Kept sha file hash sys :=
    h.invariant (fun _ hstart => ⟨good_of_reachable hstart.1, hstart.2.1, hstart.2.2⟩)
      fun _ _ _ hinv hread hstep => hinv.step hread hstep
  exact hkept.never s key hkey

/-- A run on another node looks for the reference, and finds it. -/
def sampleFinding : List (Event ℕ Bool) :=
  [.enter true ⟨1, 20⟩, .lookup true (some 3), .useFound true (fun _ => true) true]

theorem sampleFinding_readable :
    ∀ event ∈ sampleFinding, ∀ sys : System ℕ ℕ Bool, Readable sys event := by
  simp [sampleFinding, Readable]

theorem sample_stored : ∃ start sys : System ℕ ℕ Bool,
    run (Reference.step id id) sampleStart (sampleStoring ++ [.leave false]) = some start ∧
      (∃ row ∈ start.tables.pdfs, row.contentHash = 1) ∧ start.phase = (fun _ => .idle) ∧
      run (Reference.step id id) start sampleFinding = some sys ∧
      ∃ e, sys.phase true = .holding ⟨1, 20⟩ e := by
  refine ⟨_, _, rfl, ⟨_, List.mem_cons_self, rfl⟩, ?_, rfl, _, rfl⟩
  funext s
  cases s <;> rfl

theorem stored_never_extracted_sample : ∃ sys : System ℕ ℕ Bool,
    (∃ e, sys.phase true = .holding ⟨1, 20⟩ e) ∧ ∀ s, sys.phase s ≠ .extracting ⟨1, 20⟩ := by
  obtain ⟨start, sys, hrun, hstored, hidle, hfinding, hheld⟩ := sample_stored
  have hstart : Reachable (Reference.step id id) Readable (fun start =>
      Reachable (Reference.step id id) (fun _ _ => True) Fresh start ∧
        (∃ row ∈ start.tables.pdfs, row.contentHash = 1) ∧
        ∀ s key, contentHash id id key = 1 → start.phase s ≠ .extracting key) start := by
    refine .init ⟨reachable_of_run sampleStart_fresh hrun, hstored, fun s key _ => ?_⟩
    rw [hidle]
    nofun
  exact ⟨sys, hheld, fun s =>
    stored_never_extracted (hstart.run sampleFinding_readable hfinding) rfl⟩

end

end StudyAgent.Reference
