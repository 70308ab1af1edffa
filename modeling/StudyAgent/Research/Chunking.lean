import StudyAgent.Base.TextSplit
import StudyAgent.Research.Stages

/-!
# Chunks of a long page

A cleaned page that is too long for one call is cut at its paragraphs, or at its lines if it has
one paragraph only.  The pieces are packed up to a number of tokens; a piece that is larger by
itself is cut at its sentences, which are packed in the same way, and in the end at its words.

Main results:

* `normalizeNewlines_words`, `segmentsFromText_words` — the segments have the words of the text.
* `length_words_sentence_lt` — a sentence has fewer words than the segment that is cut, by which
  `hardSplitSegment` and `packUnits` end.
* `packLoop_eq_pack` — the loop is a packing in which oversized units are special.
* `chunks_lossless_bounded` — **the chunks have the words of the text, in order, and a chunk with
  more than one word is within the target.**
-/

namespace StudyAgent.Research

open Py TextEdits TextSplit

/-! ## Texts -/

/-- `rough_token_count` of a text that is given by its characters. -/
def tokenCount (text : List Char) : ℕ := roughTokenCount (String.ofList text)

/-- A piece that is not blank. -/
def isFilled (text : List Char) : Bool := stripChars text ≠ []

theorem words_stripChars (text : List Char) :
    words isSpace (stripChars text) = words isSpace text :=
  TextEdits.words_strip text

theorem all_spaces {text : List Char} (h : text.all isSpace = true) :
    ∀ c ∈ text, isSpace c = true := List.all_eq_true.1 h

theorem isFilled_iff {text : List Char} : isFilled text = true ↔ words isSpace text ≠ [] := by
  rw [isFilled, decide_eq_true_eq, not_iff_not]
  constructor
  · intro h
    rw [← words_stripChars, h, words_nil]
  · intro h
    have hall := words_eq_nil_iff.1 h
    have hdrop : text.dropWhile isSpace = [] := List.dropWhile_eq_nil_iff.2 hall
    simp [stripChars, hdrop]

/-- **Tokens are counted by words.** -/
theorem tokenCount_eq (text : List Char) :
    tokenCount text = 13 * (words isSpace text).length / 10 := by
  rw [tokenCount, roughTokenCount, String.toList_ofList]
  split_ifs with h
  · have hblank : stripChars text = [] := by
      have hlist := congrArg String.toList h
      simpa [Py.strip] using hlist
    have hwords : words isSpace text = [] := by
      rw [← words_stripChars, hblank, words_nil]
    simp [hwords]
  · rfl

/-! ## Patterns -/

/-- `_BLANK_LINE_RUN`. -/
def blankLineRun : Pattern Char
  | _, '\n' :: l =>
    let blanks := l.takeWhile fun c => c = ' ' || c = '\t'
    let breaks := (l.dropWhile fun c => c = ' ' || c = '\t').takeWhile fun c => c = '\n'
    if breaks = [] then 0 else 1 + blanks.length + breaks.length
  | _, _ => 0

/-- `_SENTENCE_BOUNDARY`. -/
def sentenceBoundary : Pattern Char
  | some before, l => if before ∈ ['.', '!', '?'] then (l.takeWhile isSpace).length else 0
  | none, _ => 0

theorem sentenceBoundary_spaces : MatchesSpaces isSpace sentenceBoundary := by
  intro before l c hc
  cases before with
  | none => simp [sentenceBoundary] at hc
  | some before =>
    simp only [sentenceBoundary] at hc
    split_ifs at hc
    · rw [← List.prefix_iff_eq_take.1 (List.takeWhile_prefix isSpace)] at hc
      exact List.mem_takeWhile_imp hc
    · simp at hc

theorem blankLineRun_spaces : MatchesSpaces isSpace blankLineRun := by
  intro before l c hc
  unfold blankLineRun at hc
  split at hc
  · next l =>
    dsimp only at hc
    split_ifs at hc
    · simp at hc
    · -- the match is a line break, blanks and line breaks, in this order
      have hsplit : '\n' :: l = ('\n' :: l.takeWhile fun c => c = ' ' || c = '\t') ++
          ((l.dropWhile fun c => c = ' ' || c = '\t').takeWhile (fun c => c = '\n') ++
            (l.dropWhile fun c => c = ' ' || c = '\t').dropWhile fun c => c = '\n') := by
        rw [List.takeWhile_append_dropWhile, List.cons_append, List.takeWhile_append_dropWhile]
      rw [hsplit, ← List.append_assoc,
        List.take_append_of_le_length (by simp only [List.length_append, List.length_cons]; omega),
        List.take_of_length_le (by simp only [List.length_append, List.length_cons]; omega)] at hc
      rcases List.mem_append.1 hc with hc | hc
      · rcases List.mem_cons.1 hc with rfl | hc
        · decide
        · have hblank := List.mem_takeWhile_imp hc
          simp only [Bool.or_eq_true, decide_eq_true_eq] at hblank
          rcases hblank with rfl | rfl <;> decide
      · have hbreak := List.mem_takeWhile_imp hc
        simp only [decide_eq_true_eq] at hbreak
        subst hbreak
        decide
  · simp at hc

/-! ## Segments -/

/-- `_normalize_newlines`. -/
def normalizeNewlines (text : List Char) : List Char :=
  let normalized := sub (literal ['\r']) ['\n'] (sub (literal ['\r', '\n']) ['\n'] text)
  stripChars (sub blankLineRun ['\n', '\n'] normalized)

/-- `_line_groups`. -/
def lineGroups (block : List Char) (target : ℤ) : List (List Char) :=
  let groups := pack (fun line => if isFilled line then none else some [])
    (fun prospective => (tokenCount prospective : ℤ) ≤ target) ['\n'] []
    (split (literal ['\n']) block)
  if groups = [] then [block] else groups

/-- `_segments_from_text`. -/
def segmentsFromText (text : List Char) (target : ℤ) : List (List Char) :=
  let normalized := normalizeNewlines text
  if normalized = [] then
    if text ≠ [] then [text] else [[]]
  else
    match (split (literal ['\n', '\n']) normalized).filter isFilled with
    | [] => [normalized]
    | [paragraph] => if '\n' ∈ paragraph then lineGroups paragraph target else [paragraph]
    | paragraphs => paragraphs

/-- Blank pieces have no words. -/
theorem flatMap_words_filter (pieces : List (List Char)) :
    (pieces.filter isFilled).flatMap (words isSpace) = pieces.flatMap (words isSpace) := by
  induction pieces with
  | nil => rfl
  | cons piece pieces ih =>
    rw [List.filter_cons]
    split_ifs with h
    · rw [List.flatMap_cons, List.flatMap_cons, ih]
    · have hblank : words isSpace piece = [] := by
        by_contra hne
        exact h (isFilled_iff.2 hne)
      rw [List.flatMap_cons, hblank, ih, List.nil_append]

theorem normalizeNewlines_words (text : List Char) :
    words isSpace (normalizeNewlines text) = words isSpace text := by
  rw [normalizeNewlines, words_stripChars,
    sub_words blankLineRun_spaces (all_spaces (by decide)) (by decide),
    sub_words (literal_spaces (all_spaces (by decide))) (all_spaces (by decide)) (by decide),
    sub_words (literal_spaces (all_spaces (by decide))) (all_spaces (by decide)) (by decide)]

theorem lineGroups_words (block : List Char) (target : ℤ) :
    (lineGroups block target).flatMap (words isSpace) = words isSpace block := by
  have hpack : (pack (fun line => if isFilled line then none else some [])
      (fun prospective => (tokenCount prospective : ℤ) ≤ target) ['\n'] []
      (split (literal ['\n']) block)).flatMap (words isSpace) = words isSpace block := by
    rw [pack_words (all_spaces (by decide)) (by decide), List.flatMap_nil, List.nil_append,
      split_words (literal_spaces (all_spaces (by decide)))]
    -- a blank line puts nothing and has no words
    intro line _ pieces hpieces
    split_ifs at hpieces with hfilled
    · simp at hpieces
    · obtain rfl := Option.some.inj hpieces
      rw [isFilled_iff, not_not] at hfilled
      rw [hfilled, List.flatMap_nil]
  rw [lineGroups]
  split_ifs
  · simp
  · exact hpack

theorem segmentsFromText_words (text : List Char) (target : ℤ) :
    (segmentsFromText text target).flatMap (words isSpace) = words isSpace text := by
  have hparagraphs := (flatMap_words_filter
    (split (literal ['\n', '\n']) (normalizeNewlines text))).trans
    ((split_words (literal_spaces (all_spaces (by decide))) _).trans (normalizeNewlines_words text))
  rw [segmentsFromText]
  split_ifs with hnormal htext
  · simp
  · simp [not_not.1 htext]
  · split
    · simp [normalizeNewlines_words]
    · next paragraph hone =>
      rw [hone] at hparagraphs
      split_ifs
      · rw [lineGroups_words, ← hparagraphs]
        simp
      · exact hparagraphs
    · exact hparagraphs

/-! ## Packing -/

/-- `_hard_split_by_words`. -/
def hardSplitByWords (segment : List Char) (target : ℤ) : List (List Char) :=
  match words isSpace segment with
  | [] | [_] => [segment]
  | ws =>
    pack (fun _ => none) (fun prospective => (tokenCount prospective : ℤ) ≤ target) [' '] [] ws

/-- The pieces of a segment between its sentence boundaries that are not blank. -/
def sentences (segment : List Char) : List (List Char) :=
  (split sentenceBoundary segment).filter isFilled

/-- The greatest number of words of a unit. -/
def maxWords (units : List (List Char)) : ℕ :=
  units.foldr (fun unit n => max (words isSpace unit).length n) 0

@[simp] theorem maxWords_cons (unit : List Char) (units : List (List Char)) :
    maxWords (unit :: units) = max (words isSpace unit).length (maxWords units) := rfl

theorem maxWords_lt {n : ℕ} (hn : 0 < n) {units : List (List Char)}
    (h : ∀ unit ∈ units, (words isSpace unit).length < n) : maxWords units < n := by
  induction units with
  | nil => exact hn
  | cons unit units ih =>
    have hhead := h unit List.mem_cons_self
    have htail := ih fun v hv => h v (List.mem_cons_of_mem unit hv)
    simp only [maxWords_cons]
    omega

theorem sentences_words (segment : List Char) :
    (sentences segment).flatMap (words isSpace) = words isSpace segment :=
  (flatMap_words_filter _).trans (split_words sentenceBoundary_spaces segment)

/-- Of several pieces that all have words, each has fewer than all together. -/
theorem length_words_lt_flatMap {pieces : List (List Char)}
    (hfilled : ∀ piece ∈ pieces, words isSpace piece ≠ []) (hlen : 1 < pieces.length)
    {piece : List Char} (h : piece ∈ pieces) :
    (words isSpace piece).length < (pieces.flatMap (words isSpace)).length := by
  obtain ⟨before, behind, rfl⟩ := List.append_of_mem h
  have hother : ∃ other, other ∈ before ++ behind := by
    refine List.exists_mem_of_ne_nil _ fun hnil => ?_
    have hzero := congrArg List.length hnil
    simp only [List.length_append, List.length_nil, List.length_cons] at hzero hlen
    omega
  obtain ⟨other, hmem⟩ := hother
  have hpos : 0 < ((before ++ behind).flatMap (words isSpace)).length := by
    refine List.length_pos_iff.2 fun hnil => ?_
    refine hfilled other ?_ (List.flatMap_eq_nil_iff.1 hnil other hmem)
    rcases List.mem_append.1 hmem with hmem | hmem <;> simp [hmem]
  simp only [List.flatMap_append, List.flatMap_cons, List.length_append] at hpos ⊢
  omega

/-- **A sentence has fewer words than a segment of several.** -/
theorem length_words_sentence_lt {segment : List Char} (hlen : ¬ (sentences segment).length ≤ 1)
    {sentence : List Char} (h : sentence ∈ sentences segment) :
    (words isSpace sentence).length < (words isSpace segment).length := by
  conv_rhs => rw [← sentences_words]
  refine length_words_lt_flatMap (fun piece hpiece => ?_) (by omega) h
  exact isFilled_iff.1 (List.mem_filter.1 hpiece).2

theorem maxWords_sentences_lt {segment : List Char} (hlen : ¬ (sentences segment).length ≤ 1) :
    maxWords (sentences segment) < (words isSpace segment).length := by
  have hone : ∃ sentence, sentence ∈ sentences segment :=
    List.exists_mem_of_length_pos (by omega)
  obtain ⟨sentence, hmem⟩ := hone
  have hlt := length_words_sentence_lt hlen hmem
  exact maxWords_lt (by omega) fun _ h => length_words_sentence_lt hlen h

mutual

/-- `_hard_split_segment`. -/
def hardSplitSegment (target : ℤ) (segment : List Char) : List (List Char) :=
  if (tokenCount segment : ℤ) ≤ target then [segment]
  else if _hlen : (sentences segment).length ≤ 1 then hardSplitByWords segment target
  else
    (packUnits target [' '] (sentences segment)).flatMap fun piece =>
      if target < tokenCount piece then hardSplitByWords piece target else [piece]
termination_by ((words isSpace segment).length, 0, 0)
decreasing_by exact Prod.Lex.left _ _ (maxWords_sentences_lt _hlen)

/-- The loop of `_pack_units`. -/
def packLoop (target : ℤ) (joiner : List Char) (current : List (List Char)) :
    List (List Char) → List (List Char)
  | [] => flush joiner current
  | unit :: units =>
    if target < tokenCount unit then
      flush joiner current ++ hardSplitSegment target unit ++ packLoop target joiner [] units
    else if current ≠ [] ∧ target < tokenCount (joiner.intercalate (current ++ [unit])) then
      joiner.intercalate current :: packLoop target joiner [unit] units
    else packLoop target joiner (current ++ [unit]) units
termination_by units => (maxWords units, 1, units.length)
decreasing_by all_goals simp_wf; simp [Prod.lex_def]; omega

/-- `_pack_units`. -/
def packUnits (target : ℤ) (joiner : List Char) (units : List (List Char)) : List (List Char) :=
  let chunks := packLoop target joiner [] units
  if chunks = [] then units else chunks
termination_by (maxWords units, 2, 0)

end

section

variable {target : ℤ}

/-- **The loop is a packing** in which oversized units are special. -/
theorem packLoop_eq_pack (joiner : List Char) (current units : List (List Char)) :
    packLoop target joiner current units =
      pack
        (fun unit => if target < tokenCount unit then some (hardSplitSegment target unit) else none)
        (fun prospective => (tokenCount prospective : ℤ) ≤ target) joiner current units := by
  induction units generalizing current with
  | nil => rw [packLoop, pack]
  | cons unit units ih =>
    rw [packLoop, pack]
    by_cases hbig : target < tokenCount unit
    · rw [if_pos hbig, if_pos hbig, ih]
    · rw [if_neg hbig, if_neg hbig]
      dsimp only
      rw [ih, ih]
      simp only [decide_eq_false_iff_not, not_le]

/-! ## Bounds -/

/-- A chunk that could be cut further is within the target. -/
def Fits (target : ℤ) (chunk : List Char) : Prop :=
  1 < (words isSpace chunk).length → (tokenCount chunk : ℤ) ≤ target

/-- What a piece is cut into has its words, and fits. -/
structure Cut (target : ℤ) (text : List Char) (chunks : List (List Char)) : Prop where
  words : chunks.flatMap (words isSpace) = words isSpace text
  fits : ∀ chunk ∈ chunks, Fits target chunk

theorem cut_self {text : List Char} (h : Fits target text) : Cut target text [text] :=
  ⟨by simp, by simpa using h⟩

theorem fits_of_length_le_one {text : List Char} (h : (words isSpace text).length ≤ 1) :
    Fits target text := fun hlen => absurd hlen (by omega)

/-- What is cut piece by piece. -/
theorem Cut.flatMap {text : List Char} {pieces : List (List Char)}
    {cut : List Char → List (List Char)}
    (hpieces : pieces.flatMap (TextEdits.words isSpace) = TextEdits.words isSpace text)
    (hcut : ∀ piece ∈ pieces, Cut target piece (cut piece)) :
    Cut target text (pieces.flatMap cut) := by
  refine ⟨?_, fun chunk hchunk => ?_⟩
  · rw [← hpieces, List.flatMap_assoc]
    exact List.flatMap_congr fun piece hpiece => (hcut piece hpiece).words
  · obtain ⟨piece, hpiece, hmem⟩ := List.mem_flatMap.1 hchunk
    exact (hcut piece hpiece).fits chunk hmem

theorem hardSplitByWords_cut (segment : List Char) :
    Cut target segment (hardSplitByWords segment target) := by
  unfold hardSplitByWords
  split
  · next h => exact cut_self (fits_of_length_le_one (by simp [h]))
  · next h => exact cut_self (fits_of_length_le_one (by simp [h]))
  · refine ⟨?_, ?_⟩
    · rw [pack_words (all_spaces (by decide)) (by decide) (by simp), List.flatMap_nil,
        List.nil_append,
        flatMap_words_words]
    · refine pack_fits (fun l hl _ => ?_) (by simp) (fun word hword _ => ?_) (by simp)
      · simpa using hl
      · exact fits_of_length_le_one (by simp [words_word hword])

/-- What is packed, if oversized units are cut to fit. -/
theorem packUnits_cut {joiner : List Char} (hjoiner : ∀ c ∈ joiner, isSpace c = true)
    (hne : joiner ≠ []) {text : List Char} {units : List (List Char)}
    (hunits : units.flatMap (words isSpace) = words isSpace text)
    (hcut : ∀ unit ∈ units, Cut target unit (hardSplitSegment target unit)) :
    Cut target text (packUnits target joiner units) := by
  have hwords : (packLoop target joiner [] units).flatMap (words isSpace) = words isSpace text := by
    rw [packLoop_eq_pack, pack_words hjoiner hne, List.flatMap_nil, List.nil_append, hunits]
    intro unit hunit pieces hpieces
    split_ifs at hpieces
    · obtain rfl := Option.some.inj hpieces
      exact (hcut unit hunit).words
    · simp at hpieces
  have hfits : ∀ chunk ∈ packLoop target joiner [] units, Fits target chunk := by
    rw [packLoop_eq_pack]
    refine pack_fits (fun l hl _ => ?_) ?_ (fun unit _ hplain _ => ?_) (by simp)
    · simpa using hl
    · intro unit hunit pieces hpieces
      split_ifs at hpieces
      · obtain rfl := Option.some.inj hpieces
        exact (hcut unit hunit).fits
      · simp at hpieces
    · simpa using hplain
  rw [packUnits]
  split_ifs with hnil
  · -- no chunks: none of the units has a word
    refine ⟨hunits, fun unit hunit => fits_of_length_le_one ?_⟩
    rw [hnil, List.flatMap_nil, ← hunits, eq_comm, List.flatMap_eq_nil_iff] at hwords
    simp [hwords unit hunit]
  · exact ⟨hwords, hfits⟩

/-- A chunk is cut again if it is oversized. -/
theorem cut_ite {chunk : List Char} {pieces : List (List Char)} (h : Cut target chunk pieces) :
    Cut target chunk (if target < tokenCount chunk then pieces else [chunk]) := by
  split_ifs with hbig
  · exact h
  · exact cut_self fun _ => not_lt.1 hbig

/-- **A segment is cut to fit**, by induction on its words. -/
theorem hardSplitSegment_cut (segment : List Char) :
    Cut target segment (hardSplitSegment target segment) := by
  induction hn : (words isSpace segment).length using Nat.strong_induction_on
    generalizing segment with
  | h n ih =>
    rw [hardSplitSegment]
    split_ifs with hsmall hlen
    · exact cut_self fun _ => hsmall
    · exact hardSplitByWords_cut segment
    · have hpacked : Cut target segment (packUnits target [' '] (sentences segment)) := by
        refine packUnits_cut (all_spaces (by decide)) (by decide) (sentences_words segment)
          fun unit hunit => ?_
        exact ih _ (hn ▸ length_words_sentence_lt hlen hunit) unit rfl
      exact Cut.flatMap hpacked.words fun piece _ => cut_ite (hardSplitByWords_cut piece)

end

/-! ## Chunks -/

/-- `split_into_chunks` on the characters of a text. -/
def chunksOf (text : List Char) (target : ℤ) : List (List Char) :=
  if isFilled text = false then [text]
  else if target ≤ 0 then [text]
  else
    let packed := packUnits target ['\n', '\n'] (segmentsFromText text target)
    let result := packed.flatMap fun chunk =>
      if target < tokenCount chunk then hardSplitSegment target chunk else [chunk]
    if result = [] then [text] else result

/-- `split_into_chunks`. -/
def splitIntoChunks (text : String) (target : ℤ) : List String :=
  (chunksOf text.toList target).map String.ofList

theorem chunksOf_cut (text : List Char) {target : ℤ} (h : 1 ≤ target) :
    Cut target text (chunksOf text target) := by
  rw [chunksOf]
  split_ifs with hblank hzero
  · refine cut_self (fits_of_length_le_one ?_)
    have hwords : words isSpace text = [] := by
      by_contra hne
      simp [isFilled_iff.2 hne] at hblank
    simp [hwords]
  · omega
  · have hpacked : Cut target text (packUnits target ['\n', '\n'] (segmentsFromText text target)) :=
      packUnits_cut (all_spaces (by decide)) (by decide) (segmentsFromText_words text target)
        fun unit _ => hardSplitSegment_cut unit
    have hresult : Cut target text ((packUnits target ['\n', '\n']
        (segmentsFromText text target)).flatMap fun chunk =>
          if target < tokenCount chunk then hardSplitSegment target chunk else [chunk]) :=
      Cut.flatMap hpacked.words fun chunk _ => cut_ite (hardSplitSegment_cut chunk)
    dsimp only
    split_ifs with hnil
    · -- no chunks: the text has no words
      refine cut_self (fits_of_length_le_one ?_)
      have hwords := hresult.words
      rw [hnil, List.flatMap_nil] at hwords
      simp [← hwords]
    · exact hresult

/-- **Chunking is lossless and bounded.**  The words of the chunks are the words of the text, in
order, and a chunk with more than one word is within the target. -/
theorem chunks_lossless_bounded (text : String) {target : ℤ} (h : 1 ≤ target) :
    (splitIntoChunks text target).flatMap (fun chunk => words isSpace chunk.toList) =
        words isSpace text.toList ∧
      ∀ chunk ∈ splitIntoChunks text target, 1 < (words isSpace chunk.toList).length →
        (roughTokenCount chunk : ℤ) ≤ target := by
  have hcut := chunksOf_cut text.toList h
  refine ⟨?_, fun chunk hchunk hlen => ?_⟩
  · rw [splitIntoChunks, List.flatMap_map, ← hcut.words]
    simp
  · obtain ⟨piece, hpiece, rfl⟩ := List.mem_map.1 hchunk
    rw [String.toList_ofList] at hlen
    exact hcut.fits piece hpiece hlen

/-- Two sentences that are one token over the target. -/
theorem two_sentences_chunked :
    (splitIntoChunks "One two. Three four." 3).flatMap (fun chunk => words isSpace chunk.toList) =
        words isSpace "One two. Three four.".toList ∧
      ∀ chunk ∈ splitIntoChunks "One two. Three four." 3,
        1 < (words isSpace chunk.toList).length → (roughTokenCount chunk : ℤ) ≤ 3 :=
  chunks_lossless_bounded "One two. Three four." (by decide)

/-- **The chunked pages have the words of the cleaned pages**, in the pipeline that chunks so. -/
theorem chunkCleanedPages_words {L : Library} {S : Settings}
    (hL : L.splitIntoChunks = splitIntoChunks) (hS : 1 ≤ S.chunkTokenThreshold)
    (pages : List CleanedPage) :
    (chunkCleanedPages L S pages).map
        (fun page => page.chunks.flatMap fun chunk => words isSpace chunk.toList) =
      pages.map fun page => words isSpace page.cleanedText.toList := by
  rw [chunkCleanedPages, List.map_map]
  refine List.map_congr_left fun page _ => ?_
  have hcut := chunksOf_cut page.cleanedText.toList hS
  simp only [Function.comp_apply]
  split_ifs
  · simp
  · rw [hL, splitIntoChunks, List.flatMap_map, ← hcut.words]
    simp

end StudyAgent.Research
