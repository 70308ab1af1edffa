import StudyAgent.Qc.Scoring
import StudyAgent.Qc.TargetedMerge

/-!
# Building the final result

The deterministic checks of a visit are joined with the verification (the LLM's
reply, the targeted merge or the carried-forward checks): ids are normalised,
code checks get the section of their artifact, failures the verifier itself calls
harmless are passed, and of the document-level checks one per category remains.

Main results:

* `mem_finalChecks` — which checks the final result contains.
* `reconcileCheck_of_failed` — a check that still fails has gone through unchanged.
-/

namespace StudyAgent.ResultBuilder

open Py Scoring Dedup

/-! ## Document-level checks -/

/-- `_DOCUMENT_LEVEL_CATEGORIES`. -/
def DOCUMENT_LEVEL_CATEGORIES : List String := ["teaching_alignment", "document_coherence"]

/-- `_is_document_level_check`. -/
def isDocumentLevelCheck (c : Check) : Bool :=
  if c.categoryText ∉ DOCUMENT_LEVEL_CATEGORIES then false else c.sectionText = ""

/-- `dedup_document_level_checks`: one document-level check per category, the
last one. -/
def dedupDocumentLevelChecks (checks : List Check) : List Check :=
  if checks.any isDocumentLevelCheck then
    keepLastWhere isDocumentLevelCheck Check.categoryText checks
  else checks

theorem mem_dedupDocumentLevelChecks {checks : List Check} {c : Check} :
    c ∈ dedupDocumentLevelChecks checks ↔
      (isDocumentLevelCheck c = false ∧ c ∈ checks) ∨
      (isDocumentLevelCheck c = true ∧
        IsLast Check.categoryText (checks.filter isDocumentLevelCheck) c) := by
  unfold dedupDocumentLevelChecks
  by_cases h : checks.any isDocumentLevelCheck = true
  · rw [if_pos h, mem_keepLastWhere]
  · have hnone : ∀ d ∈ checks, isDocumentLevelCheck d = false := by simpa using h
    rw [if_neg h]
    constructor
    · exact fun hc => Or.inl ⟨hnone c hc, hc⟩
    · rintro (⟨-, hc⟩ | ⟨hdoc, hlast⟩)
      · exact hc
      · exact (List.mem_filter.1 hlast.mem).1

/-! ## Processing the verification's checks -/

/-- `split_verification_checks`, the prose half. -/
def proseChecks (v : Verification) : List Check :=
  v.checks.filter fun c => c.categoryIn PROSE_CATEGORIES

/-- `split_verification_checks`, the code half. -/
def codeChecks (v : Verification) : List Check :=
  v.checks.filter fun c => c.categoryIn CODE_CATEGORIES

/-- `_is_no_action_needed_hint`. -/
def isNoActionNeededHint (hint : Option Value) : Bool :=
  startsWith (lower (strip (getTextOr hint))) "no action needed"

/-- `reconcile_no_action_needed_checks` on one check. -/
def reconcileCheck (c : Check) : Check :=
  if c.failed && isNoActionNeededHint c.correctiveHint then c.setPassed else c

/-- `reconcile_no_action_needed_checks`. -/
def reconcileNoActionNeededChecks (checks : List Check) : List Check :=
  checks.map reconcileCheck

/-- A code block of the document, as `extract_structure_from_document` numbers
it: an id and the id of its section. -/
structure CodeArtifact where
  id : String
  sectionId : Option String
  deriving DecidableEq

/-- The artifacts of the document in order, `code_1`, `code_2`, …: the blocks of
each section, then those of its subsections. -/
def codeArtifacts (document : Document) : List CodeArtifact :=
  let owners := document.sections.flatMap fun s =>
    (s.codeBlocks.getD [] ++
      (s.subsections.getD []).flatMap fun sub => sub.codeBlocks.getD []).map
      fun _ => s.givenId
  owners.zipIdx.map fun p => { id := "code_" ++ toString (p.2 + 1), sectionId := p.1 }

/-- The artifact a code check is about: its `code_artifact_id`, or the one its
own `det_code_…` id names. -/
def checkArtifactId (c : Check) : String :=
  let artifactId := strip (getText c.codeArtifactId "")
  if artifactId ≠ "" then artifactId
  else if startsWith c.idText "det_code_" then String.ofList (c.idText.toList.drop 4)
  else ""

/-- `attach_code_artifact_ids_from_document` on one check. -/
def attachCheck (artifacts : List CodeArtifact) (c : Check) : Check :=
  if getText c.category "None" ∉ CODE_CATEGORIES then c
  else if getTruthy c.sectionId false then c
  else
    let artifactId := checkArtifactId c
    if artifactId = "" then c
    else
      match artifacts.find? fun a => a.id = artifactId with
      | some { sectionId := some sid, .. } => if sid ≠ "" then c.setSection sid else c
      | _ => c

/-- `attach_code_artifact_ids_from_document`. -/
def attachCodeArtifactIds (checks : List Check) (document : Document) : List Check :=
  checks.map (attachCheck (codeArtifacts document))

/-! ## The final result -/

/-- What becomes of one prose check. -/
def processProse (checklist : List ChecklistItem) (c : Check) : Check :=
  reconcileCheck (normalizeIds checklist c)

/-- What becomes of one code check. -/
def processCode (document : Document) (c : Check) : Check :=
  reconcileCheck (attachCheck (codeArtifacts document) c)

/-- The checks of the final result. -/
def finalChecks (verification : Verification) (structureChecks : List Check)
    (document : Document) (checklist : List ChecklistItem) : List Check :=
  let prose := reconcileNoActionNeededChecks
    (normalizeMustCoverSectionIds
      (normalizeChecklistIds (proseChecks verification) checklist) checklist)
  let code := reconcileNoActionNeededChecks
    (attachCodeArtifactIds (codeChecks verification) document)
  dedupDocumentLevelChecks (structureChecks ++ prose ++ code)

/-- `build_final_qc_result`. -/
def buildFinalQcResult (verification : Verification) (structureChecks : List Check)
    (document : Document) (checklist : List ChecklistItem) (model : Option String) : QcResult :=
  let allChecks := finalChecks verification structureChecks document checklist
  let hallucinationRisk := getText verification.hallucinationRisk "none"
  let isRefusal := getTruthy verification.isRefusal false
  { overallStatus := some (deriveOverallStatus allChecks hallucinationRisk isRefusal)
    isRefusal := some isRefusal
    hallucinationRisk := some hallucinationRisk
    checks := some allChecks
    failedChecks := some (extractFailedChecks allChecks)
    issues := verification.issues
    correctiveInstructions := some (strip (getText verification.correctiveInstructions ""))
    summary := some (strip (getText verification.summary ""))
    model := model
    retryRecommendation := verification.retryRecommendation.map fun r =>
      sanitizeRetryRecommendation r allChecks document checklist }

/-! ## What processing keeps -/

section

variable {checklist : List ChecklistItem} {document : Document}

@[simp] theorem reconcileCheck_category (c : Check) : (reconcileCheck c).category = c.category := by
  unfold reconcileCheck
  split <;> simp

@[simp] theorem reconcileCheck_sectionId (c : Check) :
    (reconcileCheck c).sectionId = c.sectionId := by
  unfold reconcileCheck
  split <;> simp

/-- A reconciled check that still fails was left alone. -/
theorem reconcileCheck_of_failed {c : Check} (h : (reconcileCheck c).failed = true) :
    reconcileCheck c = c := by
  unfold reconcileCheck at h ⊢
  split at h
  next => simp at h
  next hc => exact if_neg hc

theorem attachCheck_cases (artifacts : List CodeArtifact) (c : Check) :
    attachCheck artifacts c = c ∨
      getTruthy c.sectionId false = false ∧ ∃ sid, attachCheck artifacts c = c.setSection sid := by
  unfold attachCheck
  split
  · exact Or.inl rfl
  · split
    · exact Or.inl rfl
    next hsec =>
      dsimp only
      split
      · exact Or.inl rfl
      · split
        · split
          · exact Or.inr ⟨by simpa using hsec, _, rfl⟩
          · exact Or.inl rfl
        · exact Or.inl rfl

@[simp] theorem attachCheck_passed (artifacts : List CodeArtifact) (c : Check) :
    (attachCheck artifacts c).passed = c.passed := by
  rcases attachCheck_cases artifacts c with h | ⟨-, sid, h⟩ <;> rw [h]
  simp

@[simp] theorem attachCheck_category (artifacts : List CodeArtifact) (c : Check) :
    (attachCheck artifacts c).category = c.category := by
  rcases attachCheck_cases artifacts c with h | ⟨-, sid, h⟩ <;> rw [h]
  simp

@[simp] theorem processProse_category (c : Check) :
    (processProse checklist c).category = c.category := by
  unfold processProse
  rw [reconcileCheck_category, normalizeIds_category]

@[simp] theorem processCode_category (c : Check) :
    (processCode document c).category = c.category := by
  unfold processCode
  rw [reconcileCheck_category, attachCheck_category]

/-- The joined checks before document-level deduplication. -/
def assembledChecks (verification : Verification) (structureChecks : List Check)
    (document : Document) (checklist : List ChecklistItem) : List Check :=
  structureChecks ++ (proseChecks verification).map (processProse checklist) ++
    (codeChecks verification).map (processCode document)

theorem finalChecks_eq (verification : Verification) (structureChecks : List Check)
    (document : Document) (checklist : List ChecklistItem) :
    finalChecks verification structureChecks document checklist =
      dedupDocumentLevelChecks
        (assembledChecks verification structureChecks document checklist) := by
  unfold finalChecks assembledChecks
  rw [normalize_eq_map]
  unfold reconcileNoActionNeededChecks attachCodeArtifactIds processProse processCode
  simp only [List.map_map]
  rfl

/-- **The checks of the final result**: the assembled ones, of the
document-level ones the last of each category. -/
theorem mem_finalChecks {verification : Verification} {structureChecks : List Check} {c : Check} :
    c ∈ finalChecks verification structureChecks document checklist ↔
      (isDocumentLevelCheck c = false ∧
        c ∈ assembledChecks verification structureChecks document checklist) ∨
      (isDocumentLevelCheck c = true ∧ IsLast Check.categoryText
        ((assembledChecks verification structureChecks document checklist).filter
          isDocumentLevelCheck) c) := by
  rw [finalChecks_eq, mem_dedupDocumentLevelChecks]

theorem mem_assembled_of_mem_final {verification : Verification} {structureChecks : List Check}
    {c : Check} (h : c ∈ finalChecks verification structureChecks document checklist) :
    c ∈ assembledChecks verification structureChecks document checklist := by
  rcases mem_finalChecks.1 h with ⟨-, h⟩ | ⟨-, h⟩
  · exact h
  · exact (List.mem_filter.1 h.mem).1

theorem mem_assembledChecks {verification : Verification} {structureChecks : List Check}
    {c : Check} :
    c ∈ assembledChecks verification structureChecks document checklist ↔
      c ∈ structureChecks ∨ (∃ d ∈ proseChecks verification, processProse checklist d = c) ∨
        ∃ d ∈ codeChecks verification, processCode document d = c := by
  unfold assembledChecks
  rw [List.mem_append, List.mem_append, List.mem_map, List.mem_map, or_assoc]

end

end StudyAgent.ResultBuilder
