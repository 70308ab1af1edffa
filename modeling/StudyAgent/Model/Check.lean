import StudyAgent.Model.Document

/-!
# Quality-check records

The checks that quality control passes around (the deterministic ones and those
an LLM verifier emits), the verifier's reply, the result written to the graph
state and the verdict words.  A check is a JSON object of which any key may be
missing, so every field a modelled function reads is an optional dynamic scalar
and the accessors carry the source's defaults.

Main results:

* `Check.failed_iff` — a check fails exactly when its `passed` key is there and
  falsy.
* the `@[simp]` frame facts of the three in-place updates the pipeline makes.
-/

namespace StudyAgent

open Py

/-! ## Checks -/

/-- One check.  `otherKeys` stands for the keys no modelled function reads. -/
structure Check where
  id : Option Value := none
  category : Option Value := none
  passed : Option Value := none
  severity : Option Value := none
  sectionId : Option Value := none
  checklistId : Option Value := none
  codeArtifactId : Option Value := none
  evidence : Option Value := none
  correctiveHint : Option Value := none
  otherKeys : String := ""
  deriving DecidableEq

/-- Python's `a or b` on values looked up in a dictionary. -/
def pyOr (a b : Option Value) : Option Value := if getTruthy a false then a else b

namespace Check

/-- `str(check.get("id", ""))`. -/
def idText (c : Check) : String := getText c.id ""

/-- `str(check.get("category", ""))`. -/
def categoryText (c : Check) : String := getText c.category ""

/-- `str(check.get("section_id", "") or "").strip()`. -/
def sectionText (c : Check) : String := strip (getTextOr c.sectionId)

/-- `str(check.get("checklist_id", "") or "").strip()`. -/
def checklistText (c : Check) : String := strip (getTextOr c.checklistId)

/-- `check.get("passed", True)` as a truth value. -/
def isPassed (c : Check) : Bool := getTruthy c.passed true

/-- `not check.get("passed", True)`. -/
def failed (c : Check) : Bool := !c.isPassed

/-- `check.get("category") in names`: membership of the string itself. -/
def categoryIn (c : Check) (names : List String) : Bool :=
  match c.category with
  | some (.str s) => s ∈ names
  | _ => false

/-- `check.get("severity") == level`. -/
def severityIs (c : Check) (level : String) : Bool := c.severity = some (.str level)

theorem failed_iff {c : Check} : c.failed = true ↔ ∃ v, c.passed = some v ∧ v.truthy = false := by
  obtain ⟨_, _, passed, _⟩ := c
  cases passed with
  | none => simp [failed, isPassed]
  | some v => simp [failed, isPassed]

/-- For category words, exact membership is membership of the text. -/
theorem categoryIn_iff {c : Check} {names : List String}
    (hnames : ∀ w ∈ names, isWord w = true ∧ w ∉ ["", "None", "True", "False"]) :
    c.categoryIn names = true ↔ c.categoryText ∈ names := by
  unfold categoryIn categoryText
  cases hcat : c.category with
  | none =>
    refine iff_of_false (by simp) fun hmem => ?_
    exact (hnames _ hmem).2 List.mem_cons_self
  | some v =>
    rw [getText_some]
    constructor
    · intro h
      cases v with
      | str s => simpa using h
      | null => exact absurd h Bool.false_ne_true
      | bool b => exact absurd h Bool.false_ne_true
      | other t b hw => exact absurd h Bool.false_ne_true
    · intro h
      obtain ⟨hword, hconst⟩ := hnames _ h
      have hv := (Value.text_eq_iff hword fun hc => hconst (List.mem_cons_of_mem _ hc)).1 rfl
      rw [hv]
      simpa using h

/-! ### In-place updates -/

/-- `check["passed"] = True; check["corrective_hint"] = ""`. -/
def setPassed (c : Check) : Check :=
  { c with passed := some (.bool true), correctiveHint := some (.str "") }

/-- `check["section_id"] = sid`. -/
def setSection (c : Check) (sid : String) : Check := { c with sectionId := some (.str sid) }

/-- `check["checklist_id"] = check["id"] = item_id`. -/
def setChecklist (c : Check) (itemId : String) : Check :=
  { c with checklistId := some (.str itemId), id := some (.str itemId) }

@[simp] theorem setPassed_isPassed (c : Check) : c.setPassed.isPassed = true := rfl
@[simp] theorem setPassed_failed (c : Check) : c.setPassed.failed = false := rfl
@[simp] theorem setPassed_id (c : Check) : c.setPassed.id = c.id := rfl
@[simp] theorem setPassed_category (c : Check) : c.setPassed.category = c.category := rfl
@[simp] theorem setPassed_sectionId (c : Check) : c.setPassed.sectionId = c.sectionId := rfl
@[simp] theorem setPassed_checklistId (c : Check) :
    c.setPassed.checklistId = c.checklistId := rfl

@[simp] theorem setSection_passed (c : Check) (sid : String) :
    (c.setSection sid).passed = c.passed := rfl
@[simp] theorem setSection_id (c : Check) (sid : String) : (c.setSection sid).id = c.id := rfl
@[simp] theorem setSection_category (c : Check) (sid : String) :
    (c.setSection sid).category = c.category := rfl
@[simp] theorem setSection_sectionId (c : Check) (sid : String) :
    (c.setSection sid).sectionId = some (.str sid) := rfl
@[simp] theorem setSection_checklistId (c : Check) (sid : String) :
    (c.setSection sid).checklistId = c.checklistId := rfl
@[simp] theorem setSection_correctiveHint (c : Check) (sid : String) :
    (c.setSection sid).correctiveHint = c.correctiveHint := rfl

@[simp] theorem setChecklist_passed (c : Check) (itemId : String) :
    (c.setChecklist itemId).passed = c.passed := rfl
@[simp] theorem setChecklist_id (c : Check) (itemId : String) :
    (c.setChecklist itemId).id = some (.str itemId) := rfl
@[simp] theorem setChecklist_category (c : Check) (itemId : String) :
    (c.setChecklist itemId).category = c.category := rfl
@[simp] theorem setChecklist_sectionId (c : Check) (itemId : String) :
    (c.setChecklist itemId).sectionId = c.sectionId := rfl
@[simp] theorem setChecklist_checklistId (c : Check) (itemId : String) :
    (c.setChecklist itemId).checklistId = some (.str itemId) := rfl
@[simp] theorem setChecklist_correctiveHint (c : Check) (itemId : String) :
    (c.setChecklist itemId).correctiveHint = c.correctiveHint := rfl

end Check

/-! ## Categories -/

/-- `PROSE_CATEGORIES`. -/
def PROSE_CATEGORIES : List String :=
  ["must_cover", "content_accuracy", "teaching_alignment", "document_coherence"]

/-- `CODE_CATEGORIES`. -/
def CODE_CATEGORIES : List String := ["code_quality", "stack_fidelity"]

/-- `FROZEN_SECTION_CATEGORIES`. -/
def FROZEN_SECTION_CATEGORIES : List String := CODE_CATEGORIES

theorem categoryIn_prose {c : Check} :
    c.categoryIn PROSE_CATEGORIES = true ↔ c.categoryText ∈ PROSE_CATEGORIES :=
  Check.categoryIn_iff (by decide)

theorem categoryIn_code {c : Check} :
    c.categoryIn CODE_CATEGORIES = true ↔ c.categoryText ∈ CODE_CATEGORIES :=
  Check.categoryIn_iff (by decide)

theorem categoryIn_verified {c : Check} :
    c.categoryIn (PROSE_CATEGORIES ++ CODE_CATEGORIES) = true ↔
      c.categoryText ∈ PROSE_CATEGORIES ++ CODE_CATEGORIES :=
  Check.categoryIn_iff (by decide)

/-! ## The verifier's reply and the stored result -/

/-- A `retry_recommendation` object, less its rationale text. -/
structure Recommendation where
  mode : Option Value := none
  failedSectionIds : List Value := []
  missingChecklistIds : List Value := []
  deriving DecidableEq

/-- A parsed verification: what an LLM pass returned, or what is carried forward
in its place. -/
structure Verification where
  checks : List Check := []
  hallucinationRisk : Option Value := none
  isRefusal : Option Value := none
  issues : List Value := []
  correctiveInstructions : Option Value := none
  summary : Option Value := none
  retryRecommendation : Option Recommendation := none
  deriving DecidableEq

inductive OverallStatus where
  | pass
  | warn
  | fail
  deriving DecidableEq

inductive QcVerificationMode where
  | full
  | targeted
  | deterministicOnly
  deriving DecidableEq

/-- `state["qc_result"]`.  A verified visit fills every field; an infrastructure
failure leaves an object with `qcInfraError` and no checks at all. -/
structure QcResult where
  overallStatus : Option OverallStatus := none
  isRefusal : Option Bool := none
  hallucinationRisk : Option String := none
  checks : Option (List Check) := none
  failedChecks : Option (List Check) := none
  issues : List Value := []
  correctiveInstructions : Option String := none
  summary : Option String := none
  model : Option String := none
  retryRecommendation : Option Recommendation := none
  verificationMode : Option QcVerificationMode := none
  qcInfraError : Bool := false
  errorType : Option String := none
  deriving DecidableEq

/-- `qc_result.get("checks") or []`. -/
def QcResult.checkList (r : QcResult) : List Check := r.checks.getD []

/-- `qc_result.get("failed_checks") or []`. -/
def QcResult.failedCheckList (r : QcResult) : List Check := r.failedChecks.getD []

end StudyAgent
