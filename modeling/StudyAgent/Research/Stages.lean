import Mathlib.Algebra.Ring.Nat
import Mathlib.Data.List.Infix
import Mathlib.Data.List.Sort
import StudyAgent.Base.Text
import StudyAgent.Base.TextEdits

/-!
# Stages of the external research

What becomes of the pages that a search has found: their texts are extracted and cleaned, split
into chunks, distilled chunk by chunk into notes, reduced to one summary a page, and merged.  The
calls of the language model are numbered, and each may raise, fail or answer anything.

Main results:

* `distillChunkedPages_returns`, `reduceDistilledPages_returns`, `mergeWebsiteSummaries_returns` —
  no stage raises where no call does.
* `distilled_url`, `reduced_url` — no stage makes up a page.
* `mergeWebsiteSummaries_found` — **a merge gives a text with its sources, or nothing at all.**
-/

namespace StudyAgent.Research

open Py

/-! ## Settings and replies -/

/-- `ExternalResearchSettings`.  The two ratios are given as what they make of a number of
tokens, rounded towards zero. -/
structure Settings where
  youtubeApiKey : String
  targetResults : ℤ
  minExtractionTokens : ℤ
  chunkTokenThreshold : ℤ
  minMergeTokens : ℤ
  minMergeAbsoluteTokens : ℤ
  mergeInputRatio : ℕ → ℤ
  minBestAvailableTokens : ℤ
  minDistillNoteTokens : ℤ
  minDistillKeepRatio : ℕ → ℤ
  distillContentRetentionRetry : Bool
  llmModel : String

/-- The rules on texts that the stages look up: the residual cleanup, the splitting at
paragraphs, the heuristics for code and equations, and the titles that say nothing. -/
structure Library where
  cleanExtractedText : String → String
  splitIntoChunks : String → ℤ → List String
  sourceHasHighRiskContent : String → Bool
  highRiskGapCount : String → String → ℕ
  isGenericTitle : String → Bool

/-- The keys of a JSON reply that some stage reads. -/
structure ReplyObject where
  knowledgeNotes : Option Value := none
  continuesNextChunk : Option Value := none
  websiteSummary : Option Value := none
  groundTruthReference : Option Value := none

/-- One call: an exception comes out of it or out of the reading of its answer, it fails or says
nothing, or it answers, with an object or with no such thing.  `json.loads` raises not only the
`JSONDecodeError` that is caught: an integer may have too many digits, and a text nest too deep. -/
inductive Reply where
  | raises
  | failed
  | content (parsed : Option ReplyObject)

/-- A value under a key of a reply that is there and not blank, stripped. -/
def filledText (parsed : Option ReplyObject) (key : ReplyObject → Option Value) : Option String :=
  match parsed with
  | none => none
  | some o =>
    if getTruthy (key o) false = false ∨ strip (getText (key o) "") = "" then none
    else some (strip (getText (key o) ""))

/-! ## Tokens -/

/-- `rough_token_count`: 1.3 tokens a word, rounded down. -/
def roughTokenCount (text : String) : ℕ :=
  if strip text = "" then 0 else 13 * (TextEdits.words isSpace text.toList).length / 10

theorem ne_blank_of_tokens {text : String} (h : 0 < roughTokenCount text) : strip text ≠ "" := by
  intro hblank
  rw [roughTokenCount, if_pos hblank] at h
  exact absurd h (lt_irrefl 0)

/-! ## Extraction -/

structure ExtractedPage where
  url : String
  rawText : String
  deriving DecidableEq

def MARKETING_DENSITY_SIGNALS : List String :=
  ["learners enrolled", "certificate of completion", "skill level", "unlock additional features"]

/-- `is_marketing_dense`. -/
def isMarketingDense (text : String) : Bool :=
  3 ≤ (MARKETING_DENSITY_SIGNALS.filter fun signal =>
    signal.toList <:+: (lower text).toList).length

section Extraction

variable (S : Settings) (extractSinglePage : String → Option String)

/-- `extract_pages_from_urls`. -/
def extractPagesFromUrls (urls : List String) : List ExtractedPage :=
  urls.filterMap fun url =>
    match extractSinglePage url with
    | none => none
    | some text =>
      if text ≠ "" ∧ isMarketingDense text = false ∧
        S.minExtractionTokens ≤ roughTokenCount text then some ⟨url, text⟩ else none

/-- The loop of `external_research_content_extraction_node`. -/
def extractUntilTarget : List ExtractedPage → List String → List ExtractedPage
  | extracted, [] => extracted
  | extracted, url :: urls =>
    if S.targetResults ≤ extracted.length then extracted
    else extractUntilTarget (extracted ++ extractPagesFromUrls S extractSinglePage [url]) urls

end Extraction

/-! ## Cleaning and chunking -/

structure CleanedPage where
  url : String
  cleanedText : String

/-- `distill_extracted_pages`. -/
def distillExtractedPages (L : Library) (pages : List ExtractedPage) : List CleanedPage :=
  pages.map fun page => ⟨page.url, L.cleanExtractedText page.rawText⟩

structure ChunkedPage where
  url : String
  chunks : List String
  wasChunked : Bool

/-- `chunk_cleaned_pages`. -/
def chunkCleanedPages (L : Library) (S : Settings) (pages : List CleanedPage) : List ChunkedPage :=
  pages.map fun page =>
    let chunks :=
      if (roughTokenCount page.cleanedText : ℤ) ≤ S.chunkTokenThreshold then [page.cleanedText]
      else L.splitIntoChunks page.cleanedText S.chunkTokenThreshold
    ⟨page.url, chunks, 1 < chunks.length⟩

/-! ## Knowledge distillation -/

structure DistilledPage where
  url : String
  notes : List String
  wasChunked : Bool

section Distillation

variable (L : Library) (S : Settings) (replies : ℕ → Reply)

/-- `_min_distill_note_tokens`. -/
def minDistillNoteTokens (chunkText : String) : ℤ :=
  max S.minDistillNoteTokens (S.minDistillKeepRatio (roughTokenCount chunkText))

/-- `notes_missing_high_risk`. -/
def notesMissingHighRisk (chunkText notes : String) : Bool :=
  L.sourceHasHighRiskContent chunkText && 0 < L.highRiskGapCount chunkText notes

/-- `_should_retry_for_content_gap`. -/
def shouldRetryForContentGap (chunkText notes : String) : Bool :=
  S.distillContentRetentionRetry && L.sourceHasHighRiskContent chunkText &&
    notesMissingHighRisk L chunkText notes

/-- `_prefer_retry_notes`: notes with whether the thought goes on. -/
def preferRetryNotes (chunkText : String) (first retry : String × Bool) (contentGap : Bool) :
    String × Bool :=
  let byLength :=
    if roughTokenCount first.1 ≤ roughTokenCount retry.1 then retry else first
  if contentGap || L.sourceHasHighRiskContent chunkText then
    if L.highRiskGapCount chunkText retry.1 < L.highRiskGapCount chunkText first.1 then retry
    else if L.highRiskGapCount chunkText first.1 < L.highRiskGapCount chunkText retry.1 then first
    else byLength
  else byLength

/-- `_parse_distill_response`. -/
def parseDistillResponse : Reply → Option (Option (String × Bool))
  | .raises => none
  | .failed => some none
  | .content parsed => some ((filledText parsed ReplyObject.knowledgeNotes).map fun notes =>
      (notes, getTruthy (parsed.bind ReplyObject.continuesNextChunk) false))

/-- `_distill_single_chunk`, which calls once or twice from the `n`-th call on. -/
def distillSingleChunk (chunkText : String) (n : ℕ) : Option (Option (String × Bool) × ℕ) :=
  (parseDistillResponse (replies n)).bind fun
    | none => some (none, n + 1)
    | some first =>
      let tooShort := decide ((roughTokenCount first.1 : ℤ) < minDistillNoteTokens S chunkText)
      let contentGap := shouldRetryForContentGap L S chunkText first.1
      if !tooShort && !contentGap then some (some first, n + 1)
      else
        (parseDistillResponse (replies (n + 1))).map fun
          | none => (some first, n + 2)
          | some retry => (some (preferRetryNotes L chunkText first retry contentGap), n + 2)

/-- The chunks of one page; a chunk without notes fails the page. -/
def distillChunks : List String → ℕ → Option (Option (List String) × ℕ)
  | [], n => some (some [], n)
  | chunk :: chunks, n =>
    (distillSingleChunk L S replies chunk n).bind fun
      | (none, n) => some (none, n)
      | (some (notes, _), n) => (distillChunks chunks n).map fun rest =>
          (rest.1.map (notes :: ·), rest.2)

/-- `distill_chunked_pages`, less the name of the model. -/
def distillChunkedPages : List ChunkedPage → ℕ → Option (List DistilledPage × ℕ)
  | [], n => some ([], n)
  | page :: pages, n =>
    if page.chunks = [] then distillChunkedPages pages n
    else
      (distillChunks L S replies page.chunks n).bind fun notes =>
        (distillChunkedPages pages notes.2).map fun rest =>
          match notes.1 with
          | none => rest
          | some [] => rest
          | some chunkNotes => (⟨page.url, chunkNotes, page.wasChunked⟩ :: rest.1, rest.2)

end Distillation

/-! ## Website reduction -/

structure ReducedPage where
  url : String
  websiteSummary : String

section Reduction

variable (replies : ℕ → Reply)

/-- The summary of one page with more than one note. -/
def reducedSummary (combinedNotes : String) : Reply → Option String
  | .raises => none
  | .failed => some combinedNotes
  | .content parsed =>
    some ((filledText parsed ReplyObject.websiteSummary).getD (strip combinedNotes))

/-- `reduce_distilled_pages`. -/
def reduceDistilledPages : List DistilledPage → ℕ → Option (List ReducedPage × ℕ)
  | [], n => some ([], n)
  | page :: pages, n =>
    match page.notes with
    | [] => reduceDistilledPages pages n
    | [note] => (reduceDistilledPages pages n).map fun rest =>
        (⟨page.url, note⟩ :: rest.1, rest.2)
    | notes =>
      (reducedSummary ("\n\n---\n\n".intercalate notes) (replies n)).bind fun summary =>
        (reduceDistilledPages pages (n + 1)).map fun rest =>
          (⟨page.url, summary⟩ :: rest.1, rest.2)

end Reduction

/-! ## Cross-website merge -/

inductive Status where
  | success
  | failSoft
  deriving DecidableEq

/-- What a research run has found: the updates that settle its outcome. -/
structure Finding where
  status : Option Status := none
  failReason : Option String := none
  groundTruth : Option String := none
  sourceUrls : List String := []
  deriving DecidableEq

/-- The outcome of a run that gives up. -/
def failSoft (reason : String) : Finding :=
  { status := some .failSoft, failReason := some reason }

section Merge

variable (S : Settings) (replies : ℕ → Reply)

/-- `_parse_merge_response`. -/
def parseMergeResponse (parsed : Option ReplyObject) : String :=
  match parsed with
  | none => ""
  | some o =>
    if getTruthy o.groundTruthReference false then strip (getText o.groundTruthReference "") else ""

/-- `effective_merge_min_tokens`. -/
def effectiveMergeMinTokens (sourceSummaries : List String) : ℤ :=
  let sourceTokens := (sourceSummaries.map roughTokenCount).sum
  if sourceTokens = 0 then S.minMergeAbsoluteTokens
  else max S.minMergeAbsoluteTokens (min S.minMergeTokens (S.mergeInputRatio sourceTokens))

/-- `_best_available_fallback`. -/
def bestAvailableFallback (pages : List ReducedPage) : Option Finding :=
  let ranked := ((pages.filter fun page => strip page.websiteSummary ≠ "").map fun page =>
    (roughTokenCount (strip page.websiteSummary), page)).insertionSort fun a b => b.1 ≤ a.1
  match ranked with
  | [] => none
  | (bestTokens, bestPage) :: _ =>
    if (bestTokens : ℤ) < S.minBestAvailableTokens then none
    else
      let url := strip bestPage.url
      some { status := some .success, groundTruth := some (strip bestPage.websiteSummary),
             sourceUrls := if url = "" then [] else [url] }

/-- `_success_payload`. -/
def successPayload (mergedText : String) (pages : List ReducedPage) : Finding :=
  { status := some .success, groundTruth := some mergedText,
    sourceUrls := (pages.map ReducedPage.url).filter (· ≠ "") }

/-- The best source, or giving up. -/
def fallback (pages : List ReducedPage) : Finding :=
  (bestAvailableFallback S pages).getD (failSoft "merged_output_below_min_tokens")

/-- The longer one of the merged text and that of a second call. -/
def retriedMerge (mergedText : String) : Reply → Option String
  | .raises => none
  | .failed => some mergedText
  | .content parsed =>
    let retryText := parseMergeResponse parsed
    some (if roughTokenCount mergedText ≤ roughTokenCount retryText then retryText else mergedText)

/-- `merge_website_summaries`. -/
def mergeWebsiteSummaries (pages : List ReducedPage) (n : ℕ) : Option (Finding × ℕ) :=
  if pages = [] then some (failSoft "all_extractions_failed", n)
  else
    let minTokens := effectiveMergeMinTokens S (pages.map ReducedPage.websiteSummary)
    match replies n with
    | .raises => none
    | .failed => some (fallback S pages, n + 1)
    | .content parsed =>
      let mergedText := parseMergeResponse parsed
      if (roughTokenCount mergedText : ℤ) < minTokens then
        (retriedMerge mergedText (replies (n + 1))).map fun mergedText =>
          if (roughTokenCount mergedText : ℤ) < minTokens then (fallback S pages, n + 2)
          else (successPayload mergedText pages, n + 2)
      else some (successPayload mergedText pages, n + 1)

end Merge

section

variable {L : Library} {S : Settings} {extractSinglePage : String → Option String}
  {replies : ℕ → Reply}

/-! ## No stage raises where no call does -/

theorem parseDistillResponse_returns {reply : Reply} (h : reply ≠ .raises) :
    ∃ parsed, parseDistillResponse reply = some parsed := by
  cases reply with
  | raises => exact absurd rfl h
  | failed => exact ⟨none, rfl⟩
  | content parsed => exact ⟨_, rfl⟩

theorem distillSingleChunk_returns (h : ∀ n, replies n ≠ .raises) (chunkText : String) (n : ℕ) :
    ∃ result, distillSingleChunk L S replies chunkText n = some result := by
  obtain ⟨parsed, hparsed⟩ := parseDistillResponse_returns (h n)
  obtain ⟨again, hagain⟩ := parseDistillResponse_returns (h (n + 1))
  rw [distillSingleChunk, hparsed, Option.bind_some]
  cases parsed with
  | none => exact ⟨_, rfl⟩
  | some first =>
    dsimp only
    split_ifs
    · exact ⟨_, rfl⟩
    · exact ⟨_, congrArg _ hagain⟩

theorem distillChunks_returns (h : ∀ n, replies n ≠ .raises) (chunks : List String) (n : ℕ) :
    ∃ result, distillChunks L S replies chunks n = some result := by
  induction chunks generalizing n with
  | nil => exact ⟨_, rfl⟩
  | cons chunk chunks ih =>
    obtain ⟨⟨notes, m⟩, hnotes⟩ := distillSingleChunk_returns (L := L) (S := S) h chunk n
    rw [distillChunks, hnotes, Option.bind_some]
    cases notes with
    | none => exact ⟨_, rfl⟩
    | some notes =>
      obtain ⟨rest, hrest⟩ := ih m
      dsimp only
      rw [hrest]
      exact ⟨_, rfl⟩

theorem distillChunkedPages_returns (h : ∀ n, replies n ≠ .raises) (pages : List ChunkedPage)
    (n : ℕ) : ∃ result, distillChunkedPages L S replies pages n = some result := by
  induction pages generalizing n with
  | nil => exact ⟨_, rfl⟩
  | cons page pages ih =>
    rw [distillChunkedPages]
    split_ifs
    · exact ih n
    · obtain ⟨notes, hnotes⟩ := distillChunks_returns (L := L) (S := S) h page.chunks n
      obtain ⟨rest, hrest⟩ := ih notes.2
      rw [hnotes, Option.bind_some, hrest]
      exact ⟨_, rfl⟩

theorem reduceDistilledPages_returns (h : ∀ n, replies n ≠ .raises) (pages : List DistilledPage)
    (n : ℕ) : ∃ result, reduceDistilledPages replies pages n = some result := by
  induction pages generalizing n with
  | nil => exact ⟨_, rfl⟩
  | cons page pages ih =>
    rw [reduceDistilledPages]
    split
    · exact ih n
    · obtain ⟨rest, hrest⟩ := ih n
      exact ⟨_, congrArg _ hrest⟩
    · obtain ⟨rest, hrest⟩ := ih (n + 1)
      rw [hrest]
      cases hreply : replies n with
      | raises => exact absurd hreply (h n)
      | failed => exact ⟨_, rfl⟩
      | content parsed => exact ⟨_, rfl⟩

theorem mergeWebsiteSummaries_returns (h : ∀ n, replies n ≠ .raises) (pages : List ReducedPage)
    (n : ℕ) : ∃ result, mergeWebsiteSummaries S replies pages n = some result := by
  rw [mergeWebsiteSummaries]
  split_ifs
  · exact ⟨_, rfl⟩
  · cases hreply : replies n with
    | raises => exact absurd hreply (h n)
    | failed => exact ⟨_, rfl⟩
    | content parsed =>
      dsimp only
      split_ifs
      · cases hretry : replies (n + 1) with
        | raises => exact absurd hretry (h (n + 1))
        | failed => exact ⟨_, rfl⟩
        | content parsed => exact ⟨_, rfl⟩
      · exact ⟨_, rfl⟩

/-! ## No stage makes up a page -/

theorem cleaned_url (pages : List ExtractedPage) :
    (distillExtractedPages L pages).map CleanedPage.url = pages.map ExtractedPage.url := by
  unfold distillExtractedPages
  rw [List.map_map]
  rfl

theorem chunked_url (pages : List CleanedPage) :
    (chunkCleanedPages L S pages).map ChunkedPage.url = pages.map CleanedPage.url := by
  unfold chunkCleanedPages
  rw [List.map_map]
  rfl

theorem distilled_url {pages : List ChunkedPage} {n : ℕ} {result : List DistilledPage × ℕ}
    (h : distillChunkedPages L S replies pages n = some result) :
    (result.1.map DistilledPage.url).Sublist (pages.map ChunkedPage.url) := by
  induction pages generalizing n result with
  | nil =>
    cases h
    exact List.Sublist.refl _
  | cons page pages ih =>
    rw [distillChunkedPages] at h
    split_ifs at h with hnone
    · exact (ih h).cons _
    · obtain ⟨notes, -, h⟩ := Option.bind_eq_some_iff.1 h
      obtain ⟨rest, hrest, rfl⟩ := Option.map_eq_some_iff.1 h
      split
      · exact (ih hrest).cons _
      · exact (ih hrest).cons _
      · exact (ih hrest).cons_cons _

theorem reduced_url {pages : List DistilledPage} {n : ℕ} {result : List ReducedPage × ℕ}
    (h : reduceDistilledPages replies pages n = some result) :
    (result.1.map ReducedPage.url).Sublist (pages.map DistilledPage.url) := by
  induction pages generalizing n result with
  | nil =>
    cases h
    exact List.Sublist.refl _
  | cons page pages ih =>
    rw [reduceDistilledPages] at h
    split at h
    · exact (ih h).cons _
    · obtain ⟨rest, hrest, rfl⟩ := Option.map_eq_some_iff.1 h
      exact (ih hrest).cons_cons _
    · obtain ⟨summary, -, h⟩ := Option.bind_eq_some_iff.1 h
      obtain ⟨rest, hrest, rfl⟩ := Option.map_eq_some_iff.1 h
      exact (ih hrest).cons_cons _

/-! ## What a merge gives -/

/-- The sources are those of the pages; or the reference is the summary of one page, and the
source is its url without the blanks around it. -/
def SourcedFrom (pages : List ReducedPage) (reference : String) (sourceUrls : List String) : Prop :=
  (∀ url ∈ sourceUrls, url ∈ pages.map ReducedPage.url) ∨
    ∃ page ∈ pages, reference = strip page.websiteSummary ∧ sourceUrls = [strip page.url]

/-- The run has an outcome: a reference that is not blank with its sources, or nothing at all. -/
def Settled (pages : List ReducedPage) (f : Finding) : Prop :=
  (f.status = some .success ∧ ∃ reference, f.groundTruth = some reference ∧
    strip reference ≠ "" ∧ SourcedFrom pages reference f.sourceUrls) ∨
  (f.status = some .failSoft ∧ f.groundTruth = none ∧ f.sourceUrls = [])

theorem settled_failSoft (pages : List ReducedPage) (reason : String) :
    Settled pages (failSoft reason) := .inr ⟨rfl, rfl, rfl⟩

theorem effectiveMergeMinTokens_pos (hfloor : 0 < S.minMergeAbsoluteTokens)
    (summaries : List String) : 0 < effectiveMergeMinTokens S summaries := by
  unfold effectiveMergeMinTokens
  dsimp only
  split_ifs
  · exact hfloor
  · exact lt_of_lt_of_le hfloor (le_max_left _ _)

theorem settled_fallback (pages : List ReducedPage) : Settled pages (fallback S pages) := by
  unfold fallback bestAvailableFallback
  dsimp only
  generalize hranked : ((pages.filter fun page => strip page.websiteSummary ≠ "").map fun page =>
    (roughTokenCount (strip page.websiteSummary), page)).insertionSort
      (fun a b => b.1 ≤ a.1) = ranked
  cases ranked with
  | nil => exact settled_failSoft _ _
  | cons best ranked =>
    obtain ⟨bestTokens, bestPage⟩ := best
    dsimp only
    split_ifs with hfew hurl
    · exact settled_failSoft _ _
    all_goals
      have hmem : (bestTokens, bestPage) ∈ ((pages.filter fun page =>
          strip page.websiteSummary ≠ "").map fun page =>
            (roughTokenCount (strip page.websiteSummary), page)) := by
        rw [← List.mem_insertionSort (fun a b : ℕ × ReducedPage => b.1 ≤ a.1), hranked]
        exact List.mem_cons_self
      obtain ⟨page, hpage, heq⟩ := List.mem_map.1 hmem
      obtain rfl : page = bestPage := congrArg Prod.snd heq
      obtain ⟨hin, hblank⟩ := List.mem_filter.1 hpage
      have hreference : strip (strip page.websiteSummary) ≠ "" := by
        rw [strip_strip]
        simpa using hblank
    · exact .inl ⟨rfl, _, rfl, hreference, .inl fun url hmem' => absurd hmem' List.not_mem_nil⟩
    · exact .inl ⟨rfl, _, rfl, hreference, .inr ⟨page, hin, rfl, rfl⟩⟩

theorem settled_successPayload {mergedText : String} (h : strip mergedText ≠ "")
    (pages : List ReducedPage) : Settled pages (successPayload mergedText pages) :=
  .inl ⟨rfl, mergedText, rfl, h, .inl fun _ hurl => (List.mem_filter.1 hurl).1⟩

/-- **A merge gives a text with its sources, or nothing at all.** -/
theorem mergeWebsiteSummaries_found (hfloor : 0 < S.minMergeAbsoluteTokens)
    {pages : List ReducedPage} {n : ℕ} {result : Finding × ℕ}
    (h : mergeWebsiteSummaries S replies pages n = some result) : Settled pages result.1 := by
  have hlong : ∀ text : String, ¬ (roughTokenCount text : ℤ) <
      effectiveMergeMinTokens S (pages.map ReducedPage.websiteSummary) → strip text ≠ "" := by
    intro text hlong
    have hpos := effectiveMergeMinTokens_pos hfloor (pages.map ReducedPage.websiteSummary)
    exact ne_blank_of_tokens (by omega)
  unfold mergeWebsiteSummaries at h
  split_ifs at h with hnone
  · cases h
    exact settled_failSoft _ _
  · cases hreply : replies n with
    | raises =>
      rw [hreply] at h
      cases h
    | failed =>
      rw [hreply] at h
      cases h
      exact settled_fallback pages
    | content parsed =>
      rw [hreply] at h
      dsimp only at h
      split_ifs at h with hshort
      · obtain ⟨mergedText, -, rfl⟩ := Option.map_eq_some_iff.1 h
        split_ifs with hagain
        · exact settled_fallback pages
        · exact settled_successPayload (hlong _ hagain) pages
      · cases h
        exact settled_successPayload (hlong _ hshort) pages

end

end StudyAgent.Research
