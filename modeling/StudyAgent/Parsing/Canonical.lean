import StudyAgent.Parsing.JsonExtraction
import StudyAgent.Rendering.Markdown

/-!
# Classified output of the generator

The answer of the generator is parsed, validated and put into one of five classes.  What is stored
is the object that was parsed, written anew; it is classified once more before it is shown.

Main results:

* `parse_dumps` — an object that was parsed is parsed from what `json.dumps` writes of it.
* `classify_congr` — the class of an answer depends on nothing but the object that is parsed.
* `classify_canonical` — **the stored text is classified as the answer was.**
* `content_of_document` — what is shown of a stored document is the document.
-/

namespace StudyAgent.Parsing

open Py Json Rendering

/-! ## Validation -/

/-- The errors that the classification catches: an object that `model_validate` refuses, and an
answer without an object. -/
inductive ValueError where
  | validation
  | notJson
  deriving DecidableEq

/-- A field of type `str` with a default. -/
def textField (d : Dict) (key : String) : Option (Option String) :=
  match Json.get d key with
  | none => some none
  | some (.str s) => some (some s)
  | some _ => none

/-- A field of type `str | None`. -/
def optionalField (d : Dict) (key : String) : Option (Option Value) :=
  match Json.get d key with
  | none => some none
  | some .null => some (some .null)
  | some (.str s) => some (some (.str s))
  | some _ => none

/-- The text of such a field. -/
def fieldText : Option Value → Option String
  | some (.str s) => some s
  | _ => none

/-- A list field with a default. -/
def listField {α : Type} (f : Json → Option α) (d : Dict) (key : String) :
    Option (Option (List α)) :=
  match Json.get d key with
  | none => some none
  | some (.arr l) => (l.mapM f).map some
  | some _ => none

def validateCodeBlock : Json → Option CodeBlock
  | .obj d => do
    return {
      language := ← textField d "language"
      code := ← textField d "code"
      explanation := ← textField d "explanation" }
  | _ => none

def validateFormulaBlock : Json → Option FormulaBlock
  | .obj d => do
    return {
      mathNotation := ← textField d "notation"
      formula := ← textField d "formula"
      explanation := ← textField d "explanation" }
  | _ => none

def validateSubsection : Json → Option Subsection
  | .obj d => do
    return {
      heading := ← textField d "heading"
      content := ← textField d "content"
      codeBlocks := ← listField validateCodeBlock d "code_blocks"
      formulaBlocks := ← listField validateFormulaBlock d "formula_blocks" }
  | _ => none

def validateSection : Json → Option Section
  | .obj d => do
    return {
      id := ← optionalField d "id"
      heading := ← textField d "heading"
      content := ← textField d "content"
      codeBlocks := ← listField validateCodeBlock d "code_blocks"
      formulaBlocks := ← listField validateFormulaBlock d "formula_blocks"
      subsections := ← listField validateSubsection d "subsections" }
  | _ => none

/-- The field `sections`, of type `list[Section] | None`. -/
def sectionsField (d : Dict) : Option (Option (List Section)) :=
  match Json.get d "sections" with
  | some .null => some none
  | _ => listField validateSection d "sections"

def validateDocument (d : Dict) : Option GenerationDocument := do
  return {
    sections := ← sectionsField d
    generationStatus := fieldText (← optionalField d "generation_status")
    topicReceived := ← optionalField d "topic_received"
    reason := ← optionalField d "reason"
    message := ← optionalField d "message"
    improveStatus := fieldText (← optionalField d "improve_status")
    regenerateStatus := fieldText (← optionalField d "regenerate_status") }

/-- `GenerationDocument.from_dict`. -/
def fromDict (d : Dict) : Except ValueError GenerationDocument :=
  match validateDocument d with
  | some doc => .ok doc
  | none => .error .validation

/-- `is_status_only_response`. -/
def isStatusOnlyResponse (d : Dict) : Except ValueError Bool := (fromDict d).map isStatusOnly

/-- `is_reference_required_response`. -/
def isReferenceRequiredResponse (d : Dict) : Except ValueError Bool :=
  (fromDict d).map isReferenceRequired

/-! ## Classification -/

/-- The decoder together with `json.dumps`. -/
structure Codec extends Decoder where
  dumps : Dict → List Char
  dumps_begins : ∀ d, (dumps d).head? = some '{'
  /-- What was decoded once is decoded again from what is written of it. -/
  loads_dumps : ∀ {t d n}, rawDecode t = some (.obj d, n) →
    toDecoder.loads (dumps d) = some (.obj d)

inductive Outcome where
  | studyDocument
  | referenceRequired
  | vagueFeedback
  | malformedDocument
  | generatorError
  deriving DecidableEq

structure OutcomeDetail where
  message : Option String := none
  reason : Option String := none
  topicReceived : Option String := none
  rawPreview : Option String := none
  deriving DecidableEq

structure ClassifiedGenerationOutput where
  canonicalJson : List Char
  outcome : Outcome
  document : Option Dict := none
  detail : OutcomeDetail := {}

def generatorErrorReason : String := "Generator response is not valid JSON"

def malformedReason : String := "Document failed domain validation"

/-- `_raw_preview`. -/
def rawPreview (canonicalJson : List Char) : List Char :=
  if canonicalJson.length ≤ 500 then canonicalJson else canonicalJson.take 500 ++ ['.', '.', '.']

/-- `_optional_str`. -/
def optionalStr : Option Value → Option String
  | none => none
  | some .null => none
  | some v => if strip v.text = "" then none else some (strip v.text)

/-- `_status_outcome_detail`. -/
def statusOutcomeDetail (doc : GenerationDocument) : OutcomeDetail where
  message := optionalStr doc.message
  reason := optionalStr doc.reason
  topicReceived := optionalStr doc.topicReceived

section

variable (C : Codec)

/-- `sections is not None`. -/
def givesSections (parsed : Dict) : Bool :=
  match Json.get parsed "sections" with
  | none => false
  | some .null => false
  | some _ => true

/-- `isinstance(sections, list)`. -/
def listsSections (parsed : Dict) : Bool :=
  match Json.get parsed "sections" with
  | some (.arr _) => true
  | _ => false

/-- `parse_generation_document`, of what `parse_llm_json_object` returns. -/
def documentOf : Option Dict → Except ValueError (Option Dict)
  | none => .ok none
  | some parsed =>
    if givesSections parsed && !listsSections parsed then .ok none
    else
      match isStatusOnlyResponse parsed with
      | .error e => .error e
      | .ok true => .ok (some parsed)
      | .ok false => if listsSections parsed then .ok (some parsed) else .ok none

/-- `parse_generation_document`. -/
def parseGenerationDocument (raw : List Char) : Except ValueError (Option Dict) :=
  documentOf (parseLlmJsonObject C.toDecoder raw)

/-- `_parse_for_canonicalization`. -/
def parseForCanonicalization (raw : List Char) : Except ValueError (Dict × Option Dict) :=
  match parseGenerationDocument C raw with
  | .error e => .error e
  | .ok (some document) => .ok (document, some document)
  | .ok none =>
    match parseLlmJsonObject C.toDecoder raw with
    | none => .error .notJson
    | some parsed => .ok (parsed, none)

/-- `classify_generation_output`. -/
def classifyGenerationOutput (raw : List Char) : Except ValueError ClassifiedGenerationOutput :=
  match parseForCanonicalization C raw with
  | .error _ => .ok {
      canonicalJson := stripChars raw
      outcome := .generatorError
      detail := { reason := some generatorErrorReason } }
  | .ok (parsed, none) => .ok {
      canonicalJson := C.dumps parsed
      outcome := .malformedDocument
      detail := {
        reason := some malformedReason
        rawPreview := some (String.ofList (rawPreview (C.dumps parsed))) } }
  | .ok (parsed, some document) => do
    if ← isStatusOnlyResponse document then
      return {
        canonicalJson := C.dumps parsed
        outcome :=
          if ← isReferenceRequiredResponse document then .referenceRequired else .vagueFeedback
        document := some document
        detail := statusOutcomeDetail (← fromDict document) }
    else
      return {
        canonicalJson := C.dumps parsed
        outcome := .studyDocument
        document := some document }

variable (isWordChar : Char → Bool)

/-- `render_outcome_content`. -/
def renderOutcomeContent (canonicalJson : List Char) (outcome : Outcome) (detail : OutcomeDetail) :
    Except ValueError (List Char) :=
  match outcome with
  | .studyDocument | .referenceRequired | .vagueFeedback =>
    match C.toDecoder.loads canonicalJson with
    | some (.obj document) => (fromDict document).map (renderSectionsToMarkdown isWordChar)
    | some _ => .error .validation
    | none => .error .notJson
  | .malformedDocument =>
    .ok (joinLines (([
      "GENERATION STATUS: Malformed document",
      "The generator returned JSON that could not be validated as a study document."] ++
      ((detail.rawPreview.filter (· ≠ "")).map ("Preview: " ++ ·)).toList ++
      ((detail.reason.filter (· ≠ "")).map ("Reason: " ++ ·)).toList).map String.toList))
  | .generatorError =>
    .ok ("GENERATION ERROR: " ++ ((detail.message.filter (· ≠ "")).getD
      ((detail.reason.filter (· ≠ "")).getD generatorErrorReason))).toList

/-- `content_for_persistence`. -/
def contentForPersistence (rawContent : List Char) : Except ValueError (List Char) :=
  let text := stripChars rawContent
  if ['{'] <+: text then
    match classifyGenerationOutput C text with
    | .error e => .error e
    | .ok classified =>
      if classified.outcome = .generatorError then .ok text
      else
        renderOutcomeContent C isWordChar classified.canonicalJson classified.outcome
          classified.detail
  else .ok text

end

/-! ## Parsing what was written -/

section

variable {D : Decoder}

/-- What is parsed was decoded somewhere. -/
theorem decoded_of_parse {raw : List Char} {d : Dict} (h : parseLlmJsonObject D raw = some d) :
    ∃ t n, D.rawDecode t = some (.obj d, n) := by
  have hobject : ∀ t, asObject (D.loads t) = some d → ∃ t n, D.rawDecode t = some (.obj d, n) := by
    intro t ht
    obtain ⟨n, hraw⟩ := Decoder.rawDecode_of_loads (asObject_eq_some ht)
    exact ⟨_, n, hraw⟩
  have htrim : ∀ n t, trimTrailingBraces D n t = some d →
      ∃ t n, D.rawDecode t = some (.obj d, n) := by
    intro n
    induction n with
    | zero => simp [trimTrailingBraces]
    | succ n ih =>
      intro t ht
      rw [trimTrailingBraces] at ht
      split at ht
      next v hv => exact hobject t (by rw [hv, ht])
      next =>
        split_ifs at ht
        exact ih _ ht
  have hfirst : ∀ t, firstObject D t = some d → ∃ t n, D.rawDecode t = some (.obj d, n) := by
    intro t ht
    simp only [firstObject, Option.orElse_eq_orElse, Option.orElse_eq_or,
      Option.or_eq_some_iff] at ht
    rcases ht with hraw | ⟨-, htrailing | ⟨-, hloads⟩⟩
    · rw [tryRawDecode] at hraw
      split_ifs at hraw
      obtain ⟨⟨v, n⟩, hdecode, rfl⟩ := Option.map_eq_some_iff.1 (asObject_eq_some hraw)
      exact ⟨_, n, hdecode⟩
    · rw [tryTrimTrailingBraces] at htrailing
      split_ifs at htrailing
      exact htrim _ _ htrailing
    · exact hobject t hloads
  rw [parseLlmJsonObject] at h
  split_ifs at h
  · exact hfirst _ h
  · exact hfirst _ h

/-- Stripping an answer does not change what is parsed. -/
theorem parseLlmJsonObject_stripChars (raw : List Char) :
    parseLlmJsonObject D (stripChars raw) = parseLlmJsonObject D raw := by
  rw [parseLlmJsonObject, parseLlmJsonObject, stripChars_idem]

/-- An object is parsed from a text that begins with it. -/
theorem parse_of_loads {t : List Char} {d : Dict} (hbegins : t.head? = some '{')
    (hloads : D.loads t = some (.obj d)) : parseLlmJsonObject D t = some d := by
  obtain ⟨rest, rfl⟩ := List.head?_eq_some_iff.1 hbegins
  obtain ⟨n, hraw⟩ := Decoder.rawDecode_of_loads hloads
  rw [List.dropWhile_cons_of_neg (by decide)] at hraw
  have hfence : stripOuterFence (stripChars ('{' :: rest)) = stripChars ('{' :: rest) := by
    obtain ⟨r, hr⟩ := stripChars_cons rest (c := '{') (by decide)
    rw [hr, stripOuterFence, if_neg (by simp [fence])]
  rw [parseLlmJsonObject_eq hfence, ← List.take_append_drop n ('{' :: rest),
    ← List.nil_append (_ ++ _)]
  exact objectIn_whole (Decoder.text_of_rawDecode hraw) (by simp) (by simp) _

end

section

variable {C : Codec}

/-- **An object that was parsed is parsed from what is written of it.** -/
theorem parse_dumps {raw : List Char} {d : Dict}
    (h : parseLlmJsonObject C.toDecoder raw = some d) :
    parseLlmJsonObject C.toDecoder (C.dumps d) = some d := by
  obtain ⟨t, n, hraw⟩ := decoded_of_parse h
  exact parse_of_loads (C.dumps_begins d) (C.loads_dumps hraw)

/-! ## Classifying once more -/

/-- What an answer is classified by is the object that is parsed. -/
theorem parseForCanonicalization_congr {raw raw' : List Char}
    (h : parseLlmJsonObject C.toDecoder raw = parseLlmJsonObject C.toDecoder raw') :
    parseForCanonicalization C raw = parseForCanonicalization C raw' := by
  rw [parseForCanonicalization, parseForCanonicalization, parseGenerationDocument,
    parseGenerationDocument, h]

theorem isStatusOnlyResponse_eq_ok {d : Dict} {b : Bool} (h : isStatusOnlyResponse d = .ok b) :
    ∃ doc, fromDict d = .ok doc := by
  cases hvalid : fromDict d with
  | error e => simp [isStatusOnlyResponse, hvalid, Except.map] at h
  | ok doc => exact ⟨doc, rfl⟩

/-- The document is the object that was parsed, and it is valid. -/
theorem documentOf_eq_some {x : Option Dict} {document : Dict}
    (h : documentOf x = .ok (some document)) :
    x = some document ∧ ∃ doc, fromDict document = .ok doc := by
  cases x with
  | none => simp [documentOf] at h
  | some parsed =>
    rw [documentOf] at h
    split at h
    next => simp at h
    next =>
      split at h
      next => simp at h
      next hstatus =>
        obtain rfl : parsed = document := by simpa using h
        exact ⟨rfl, isStatusOnlyResponse_eq_ok hstatus⟩
      next hstatus =>
        split at h
        next =>
          obtain rfl : parsed = document := by simpa using h
          exact ⟨rfl, isStatusOnlyResponse_eq_ok hstatus⟩
        next => simp at h

/-- What is put into canonical form was parsed. -/
theorem parseForCanonicalization_eq_ok {raw : List Char} {parsed : Dict} {document : Option Dict}
    (h : parseForCanonicalization C raw = .ok (parsed, document)) :
    parseLlmJsonObject C.toDecoder raw = some parsed ∧
      ∀ d ∈ document, d = parsed ∧ ∃ doc, fromDict d = .ok doc := by
  rw [parseForCanonicalization, parseGenerationDocument] at h
  split at h
  next => simp at h
  next d hdocument =>
    obtain ⟨hparse, hvalid⟩ := documentOf_eq_some hdocument
    obtain ⟨rfl, rfl⟩ := Prod.mk.inj (Except.ok.inj h)
    refine ⟨hparse, fun d' hd' => ?_⟩
    obtain rfl := Option.mem_some_iff.1 hd'
    exact ⟨rfl, hvalid⟩
  next =>
    split at h
    next => simp at h
    next d hparse =>
      obtain ⟨rfl, rfl⟩ := Prod.mk.inj (Except.ok.inj h)
      exact ⟨hparse, by simp⟩

/-- Answers with the same object are classified alike. -/
theorem classify_congr {raw raw' : List Char}
    (h : parseLlmJsonObject C.toDecoder raw = parseLlmJsonObject C.toDecoder raw')
    {found : Dict × Option Dict} (hfound : parseForCanonicalization C raw = .ok found) :
    classifyGenerationOutput C raw' = classifyGenerationOutput C raw := by
  obtain ⟨parsed, document⟩ := found
  rw [classifyGenerationOutput, classifyGenerationOutput, ← parseForCanonicalization_congr h,
    hfound]
  cases document with
  | none => rfl
  | some document => rfl

/-- The class of a document. -/
def documentOutcome (doc : GenerationDocument) : Outcome :=
  if isStatusOnly doc then
    if isReferenceRequired doc then .referenceRequired else .vagueFeedback
  else .studyDocument

def documentDetail (doc : GenerationDocument) : OutcomeDetail :=
  if isStatusOnly doc then statusOutcomeDetail doc else {}

/-- The classification of a document. -/
def classifiedDocument (C : Codec) (parsed document : Dict) (doc : GenerationDocument) :
    ClassifiedGenerationOutput where
  canonicalJson := C.dumps parsed
  outcome := documentOutcome doc
  document := some document
  detail := documentDetail doc

@[simp] theorem classifiedDocument_outcome (parsed document : Dict) (doc : GenerationDocument) :
    (classifiedDocument C parsed document doc).outcome = documentOutcome doc := by
  rw [classifiedDocument]

theorem documentOutcome_mem (doc : GenerationDocument) :
    documentOutcome doc ∈ [.studyDocument, .referenceRequired, .vagueFeedback] := by
  unfold documentOutcome
  split_ifs <;> simp

/-- A document is classified by its status, and it is valid. -/
theorem classify_document {raw : List Char} {parsed document : Dict}
    (hfound : parseForCanonicalization C raw = .ok (parsed, some document)) :
    ∃ doc, fromDict document = .ok doc ∧
      classifyGenerationOutput C raw = .ok (classifiedDocument C parsed document doc) := by
  obtain ⟨-, hdocument⟩ := parseForCanonicalization_eq_ok hfound
  obtain ⟨-, doc, hvalid⟩ := hdocument document rfl
  refine ⟨doc, hvalid, ?_⟩
  rw [classifyGenerationOutput, hfound]
  simp only [isStatusOnlyResponse, isReferenceRequiredResponse, hvalid, Except.map, bind,
    Except.bind, pure, Except.pure]
  by_cases hstatus : isStatusOnly doc = true
  · simp [classifiedDocument, documentOutcome, documentDetail, hstatus]
  · simp [classifiedDocument, documentOutcome, documentDetail, hstatus]

/-- What the classification makes of an answer. -/
theorem classify_cases (C : Codec) (raw : List Char) :
    (classifyGenerationOutput C raw = .ok {
        canonicalJson := stripChars raw
        outcome := .generatorError
        detail := { reason := some generatorErrorReason } }) ∨
      (∃ parsed, parseForCanonicalization C raw = .ok (parsed, none) ∧
        classifyGenerationOutput C raw = .ok {
          canonicalJson := C.dumps parsed
          outcome := .malformedDocument
          detail := {
            reason := some malformedReason
            rawPreview := some (String.ofList (rawPreview (C.dumps parsed))) } }) ∨
      ∃ parsed document doc, parseForCanonicalization C raw = .ok (parsed, some document) ∧
        classifyGenerationOutput C raw = .ok (classifiedDocument C parsed document doc) := by
  cases hfound : parseForCanonicalization C raw with
  | error e => exact Or.inl (by rw [classifyGenerationOutput, hfound])
  | ok found =>
    obtain ⟨parsed, document⟩ := found
    cases document with
    | none => exact Or.inr (Or.inl ⟨parsed, rfl, by rw [classifyGenerationOutput, hfound]⟩)
    | some document =>
      obtain ⟨doc, -, hclass⟩ := classify_document hfound
      exact Or.inr (Or.inr ⟨parsed, document, doc, rfl, hclass⟩)

/-- Without an object there is no document. -/
theorem document_of_generatorError {raw : List Char} {c : ClassifiedGenerationOutput}
    (h : classifyGenerationOutput C raw = .ok c) (herror : c.outcome = .generatorError) :
    c.document = none := by
  rcases classify_cases C raw with hclass | ⟨_, -, hclass⟩ | ⟨_, _, doc, -, hclass⟩
  · obtain rfl := Except.ok.inj (hclass.symm.trans h)
    rfl
  · obtain rfl := Except.ok.inj (hclass.symm.trans h)
    rfl
  · obtain rfl := Except.ok.inj (hclass.symm.trans h)
    have hmem := documentOutcome_mem doc
    rw [classifiedDocument_outcome] at herror
    rw [herror] at hmem
    simp at hmem

/-- What is stored is written of the object that was parsed. -/
theorem canonicalJson_eq {raw : List Char} {c : ClassifiedGenerationOutput}
    (h : classifyGenerationOutput C raw = .ok c) (hne : c.outcome ≠ .generatorError) :
    ∃ parsed, parseForCanonicalization C raw = .ok (parsed, c.document) ∧
      c.canonicalJson = C.dumps parsed := by
  rcases classify_cases C raw with hclass | ⟨parsed, hfound, hclass⟩ |
    ⟨parsed, document, doc, hfound, hclass⟩
  · obtain rfl := Except.ok.inj (hclass.symm.trans h)
    exact absurd rfl hne
  · obtain rfl := Except.ok.inj (hclass.symm.trans h)
    exact ⟨parsed, hfound, rfl⟩
  · obtain rfl := Except.ok.inj (hclass.symm.trans h)
    exact ⟨parsed, hfound, rfl⟩

/-- What is shown of the stored text is rendered by the class of the answer. -/
theorem content_canonical {raw : List Char} {c : ClassifiedGenerationOutput}
    (h : classifyGenerationOutput C raw = .ok c) (hne : c.outcome ≠ .generatorError)
    (isWordChar : Char → Bool) :
    contentForPersistence C isWordChar c.canonicalJson =
      renderOutcomeContent C isWordChar c.canonicalJson c.outcome c.detail := by
  obtain ⟨parsed, hfound, hcanonical⟩ := canonicalJson_eq h hne
  obtain ⟨hparse, -⟩ := parseForCanonicalization_eq_ok hfound
  have hsame : parseLlmJsonObject C.toDecoder raw =
      parseLlmJsonObject C.toDecoder (stripChars (C.dumps parsed)) := by
    rw [parseLlmJsonObject_stripChars, parse_dumps hparse, hparse]
  have hbrace : ['{'] <+: stripChars (C.dumps parsed) := by
    obtain ⟨rest, hrest⟩ := List.head?_eq_some_iff.1 (C.dumps_begins parsed)
    obtain ⟨r, hr⟩ := stripChars_cons rest (c := '{') (by decide)
    rw [hrest, hr]
    exact ⟨r, rfl⟩
  rw [hcanonical, contentForPersistence, if_pos hbrace, classify_congr hsame hfound, h]
  dsimp only
  rw [if_neg hne, hcanonical]

theorem renderOutcomeContent_document {canonicalJson : List Char} {d : Dict}
    {doc : GenerationDocument} {outcome : Outcome} {detail : OutcomeDetail}
    (houtcome : outcome ∈ [.studyDocument, .referenceRequired, .vagueFeedback])
    (hloads : C.toDecoder.loads canonicalJson = some (.obj d)) (hvalid : fromDict d = .ok doc)
    (isWordChar : Char → Bool) :
    renderOutcomeContent C isWordChar canonicalJson outcome detail =
      .ok (renderSectionsToMarkdown isWordChar doc) := by
  have hrender : (fromDict d).map (renderSectionsToMarkdown isWordChar) =
      .ok (renderSectionsToMarkdown isWordChar doc) := by
    rw [hvalid]
    rfl
  simp only [List.mem_cons, List.not_mem_nil, or_false] at houtcome
  rcases houtcome with rfl | rfl | rfl
  · rw [renderOutcomeContent, hloads, ← hrender]
  · rw [renderOutcomeContent, hloads, ← hrender]
  · rw [renderOutcomeContent, hloads, ← hrender]

/-- **What is shown of a stored document is the document.** -/
theorem content_of_document {raw : List Char} {c : ClassifiedGenerationOutput} {d : Dict}
    (h : classifyGenerationOutput C raw = .ok c) (hd : c.document = some d)
    (isWordChar : Char → Bool) :
    ∃ doc, fromDict d = .ok doc ∧
      contentForPersistence C isWordChar c.canonicalJson =
        .ok (renderSectionsToMarkdown isWordChar doc) := by
  have hne : c.outcome ≠ .generatorError := by
    intro herror
    rw [document_of_generatorError h herror] at hd
    simp at hd
  obtain ⟨parsed, hfound, hcanonical⟩ := canonicalJson_eq h hne
  rw [hd] at hfound
  obtain ⟨doc, hvalid, hclass⟩ := classify_document hfound
  obtain ⟨hparse, hdocument⟩ := parseForCanonicalization_eq_ok hfound
  obtain ⟨rfl, -⟩ := hdocument d rfl
  obtain ⟨t, n, hraw⟩ := decoded_of_parse hparse
  refine ⟨doc, hvalid, ?_⟩
  rw [content_canonical h hne, hcanonical]
  obtain rfl : _ = c := Except.ok.inj (hclass.symm.trans h)
  rw [classifiedDocument_outcome]
  exact renderOutcomeContent_document (documentOutcome_mem doc) (C.loads_dumps hraw) hvalid
    isWordChar

/-- **The stored text is classified as the answer was**, and rendered by that class. -/
theorem classify_canonical {raw : List Char} {c : ClassifiedGenerationOutput}
    (h : classifyGenerationOutput C raw = .ok c) (hne : c.outcome ≠ .generatorError)
    (isWordChar : Char → Bool) :
    classifyGenerationOutput C c.canonicalJson = .ok c ∧
      contentForPersistence C isWordChar c.canonicalJson =
        renderOutcomeContent C isWordChar c.canonicalJson c.outcome c.detail := by
  refine ⟨?_, content_canonical h hne isWordChar⟩
  obtain ⟨parsed, hfound, hcanonical⟩ := canonicalJson_eq h hne
  obtain ⟨hparse, -⟩ := parseForCanonicalization_eq_ok hfound
  rw [hcanonical, classify_congr (hparse.trans (parse_dumps hparse).symm) hfound, h]

end

/-! ## A status that is stored -/

/-- The decoder that knows one text, and writes it. -/
def Codec.only (d : Dict) (rest : List Char) : Codec where
  toDecoder := Decoder.only d rest
  dumps _ := '{' :: rest ++ ['}']
  dumps_begins _ := rfl
  loads_dumps {t d' n} h := by
    obtain rfl : d' = d := Decoder.only_object h
    exact Decoder.only_loads d' rest

/-- An object that asks for more precise feedback, and an answer with it. -/
def vagueText : List Char := "\x7b\"improve_status\":\"vague\"\x7d".toList

def vagueAnswer : List Char := "```json\n".toList ++ vagueText ++ "\n```".toList

def vagueCodec : Codec :=
  Codec.only [("improve_status", .str "vague")] "\"improve_status\":\"vague\"".toList

theorem vague_answer_stable :
    classifyGenerationOutput vagueCodec vagueText = .ok {
        canonicalJson := vagueText
        outcome := .vagueFeedback
        document := some [("improve_status", .str "vague")] } ∧
      contentForPersistence vagueCodec (fun _ => false) vagueText =
        renderOutcomeContent vagueCodec (fun _ => false) vagueText .vagueFeedback {} :=
  @classify_canonical vagueCodec vagueAnswer {
    canonicalJson := vagueText
    outcome := .vagueFeedback
    document := some [("improve_status", .str "vague")] } rfl (by decide) _

end StudyAgent.Parsing
