import StudyAgent.Base.Runs
import StudyAgent.Node.QualityCheck
import StudyAgent.Placement.Exactness

/-!
# Frozen lineage

A frozen id should mean that its check passed when it was last evaluated, on the
content its section has now.  A history of evaluations, kept beside the state, says
what that means.  The gate compares content with the hashes of the last visit, but a
visit renews all hashes while it drops frozen ids only in its re-verified scope: an
id whose section changed, or whose check has just failed, is valid again.

Main results:

* `finish_frozen` — where the frozen targets of a visit come from.
* `frozenLineage_sound` — **in runs whose visits freeze soundly, what passes the gate
  passed last on the present content.**
-/

namespace StudyAgent.QualityCheck

open Py Dedup TargetedMerge Strategy Freshness ResultBuilder FrozenSets Runs

/-! ## Evaluations -/

/-- One evaluation of a target: its verdict and the section it is about. -/
structure Evaluation where
  target : Target
  passed : Bool
  content : Option Section
  deriving DecidableEq

/-- The most recent evaluation of a target. -/
def lastEvaluation (history : List Evaluation) (target : Target) : Option Evaluation :=
  history.reverse.find? fun e => e.target = target

theorem lastEvaluation_append (history new : List Evaluation) (target : Target) :
    lastEvaluation (history ++ new) target =
      (lastEvaluation new target).or (lastEvaluation history target) := by
  unfold lastEvaluation
  rw [List.reverse_append, List.find?_append]

theorem lastEvaluation_target {history : List Evaluation} {target : Target} {e : Evaluation}
    (h : lastEvaluation history target = some e) : e ∈ history ∧ e.target = target := by
  refine ⟨List.mem_reverse.1 (List.mem_of_find?_eq_some h), ?_⟩
  simpa using List.find?_some h

section

variable {H : Type} [DecidableEq H] (env : Env H) (s : QcState H) (p : Phase1) (o : LlmOutcome)

/-- The checks of the verifier's reply. -/
def replyChecks : List Check :=
  match runLlmVerificationPass o with
  | .ok v => v.checks
  | .error _ => []

/-- Those that the visit keeps. -/
def newChecks : List Check :=
  match (decision env s p).mode with
  | .full => replyChecks o
  | .targeted => dedupChecks (replyChecks o)
  | .deterministicOnly => []

/-- The prior checks that the visit uses again. -/
def carriedChecks : List Check :=
  match (decision env s p).mode, s.qcResult with
  | .targeted, some prior =>
    keptChecks prior (reverifySectionIds env s p) (missingChecklistIds env s p) env.checklist
  | .deterministicOnly, some prior =>
    checksSafeToCarryForward env.hash (priorLlmChecks (some prior)) s.qcSectionContentHashes
      p.document
  | _, _ => []

/-- Checks as they enter the result. -/
def processed (checks : List Check) : List Check :=
  assembledChecks { checks := checks } [] p.document env.checklist

/-- What a check says about its target. -/
def evaluation (c : Check) : Option Evaluation :=
  (frozenTarget c).map fun target =>
    { target := target
      passed := c.isPassed
      content := lastSection p.document.sections (target.sectionId env.checklist) }

/-- What the reply of a visit evaluates. -/
def evaluations : List Evaluation :=
  (processed env p (newChecks env s p o)).filterMap (evaluation env p)

/-- The targets that prior checks pass again without an evaluation. -/
def carriedTargets : List Target :=
  ((processed env p (carriedChecks env s p)).filter Check.isPassed).filterMap frozenTarget

/-! ## The condition -/

/-- A target that is frozen after the visit: it was frozen and is not dropped, a prior
check passes it again, or the reply passes it. -/
def Standing (target : Target) : Prop :=
  (target ∈ frozenTargets s.qcFrozenCheckIds s.qcFrozenSectionKeys ∧
    ¬ Pruned env.checklist (reverifySectionIds env s p) (missingChecklistIds env s p) target) ∨
  target ∈ carriedTargets env s p ∨
  ∃ e ∈ evaluations env s p o, e.target = target ∧ e.passed = true

/-- No standing target fails last in the reply, and one that the reply does not
evaluate was frozen before and its section, if present, has the stored hash. -/
structure FreezesSoundly : Prop where
  notFailed : ∀ target, Standing env s p o target →
    ∀ e, lastEvaluation (evaluations env s p o) target = some e → e.passed = true
  unchanged : ∀ target, Standing env s p o target →
    lastEvaluation (evaluations env s p o) target = none →
      target ∈ frozenTargets s.qcFrozenCheckIds s.qcFrozenSectionKeys ∧
      ∀ t, lastSection p.document.sections (target.sectionId env.checklist) = some t →
        s.qcSectionContentHashes.lookup (target.sectionId env.checklist) = some (env.hash t)

end

/-! ## Where frozen targets come from -/

section

variable {H : Type} [DecidableEq H] {env : Env H} {s : QcState H} {p : Phase1} {o : LlmOutcome}
  {v : Verification}

theorem no_target_of_deterministic {c : Check} (h : Deterministic c) : frozenTarget c = none := by
  have hmust : c.categoryIn ["must_cover"] = false := by
    rw [← Bool.not_eq_true, Check.categoryIn_iff (by decide)]
    intro hmem
    exact h.ne_must_cover (List.mem_singleton.1 hmem)
  have hcode : c.categoryIn FROZEN_SECTION_CATEGORIES = false := h.not_code
  unfold frozenTarget frozenCheckId frozenSectionId
  rw [hmust, hcode]
  rfl

/-- The checks a result is built from are new or carried. -/
theorem verify_checks (h : verify env s p o = some (.ok v)) {c : Check} (hc : c ∈ v.checks) :
    c ∈ newChecks env s p o ∨ c ∈ carriedChecks env s p := by
  unfold newChecks carriedChecks replyChecks
  rcases verify_cases h with ⟨hmode, hreply⟩ | ⟨prior, reply, hmode, hprior, hreply, rfl⟩ |
    ⟨prior, hmode, hprior, rfl⟩
  · rw [hmode, hreply]
    exact Or.inl hc
  · rw [hmode, hreply, hprior]
    rcases mem_mergeTargetedQcChecks.1 hc with hnew | ⟨hkept, -⟩
    · left
      show c ∈ dedupChecks reply.checks
      unfold dedupChecks
      rw [keepLast_eq_lastWins]
      exact mem_lastWins.2 hnew
    · exact Or.inr hkept.mem
  · rw [hmode, hprior]
    exact Or.inr hc

omit [DecidableEq H] in
theorem mem_processed {checks : List Check} {c : Check} :
    c ∈ processed env p checks ↔
      (∃ d ∈ checks, d.categoryIn PROSE_CATEGORIES = true ∧ processProse env.checklist d = c) ∨
        ∃ d ∈ checks, d.categoryIn CODE_CATEGORIES = true ∧ processCode p.document d = c := by
  unfold processed
  rw [mem_assembledChecks]
  simp [proseChecks, codeChecks, and_assoc]

/-- **Where the frozen targets of a visit come from.** -/
theorem finish_frozen {document : Document} (hp : p = phase1 env document)
    (h : verify env s p o = some (.ok v))
    (hstrip : ∀ sid ∈ s.qcFrozenSectionKeys, strip sid = sid) {target : Target}
    (htarget : target ∈ frozenTargets (finish env s p o v).qcFrozenCheckIds
      (finish env s p o v).qcFrozenSectionKeys) : Standing env s p o target := by
  rcases @mem_refreshed _ _ env.hash _ _ p.document _ _ _ _ hstrip htarget with
    hold | ⟨c, hc, hpassed, hcheck⟩
  · exact Or.inl hold
  · have hmem : c ∈ assembledChecks v p.structureChecks p.document env.checklist :=
      mem_assembled_of_mem_final hc
    rcases mem_assembledChecks.1 hmem with hdet | hverified
    · rw [hp] at hdet
      rw [no_target_of_deterministic (phase1_deterministic hdet)] at hcheck
      exact absurd hcheck (by simp)
    · have hsource : c ∈ processed env p (newChecks env s p o) ∨
          c ∈ processed env p (carriedChecks env s p) := by
        rw [mem_processed, mem_processed]
        rcases hverified with ⟨d, hd, hdc⟩ | ⟨d, hd, hdc⟩
        · obtain ⟨hd, hcat⟩ := List.mem_filter.1 hd
          rcases verify_checks h hd with hnew | hcarried
          · exact Or.inl (Or.inl ⟨d, hnew, hcat, hdc⟩)
          · exact Or.inr (Or.inl ⟨d, hcarried, hcat, hdc⟩)
        · obtain ⟨hd, hcat⟩ := List.mem_filter.1 hd
          rcases verify_checks h hd with hnew | hcarried
          · exact Or.inl (Or.inr ⟨d, hnew, hcat, hdc⟩)
          · exact Or.inr (Or.inr ⟨d, hcarried, hcat, hdc⟩)
      rcases hsource with hnew | hcarried
      · have heval : evaluation env p c = some
            { target := target
              passed := c.isPassed
              content := lastSection p.document.sections (target.sectionId env.checklist) } := by
          unfold evaluation
          rw [hcheck]
          rfl
        exact Or.inr (Or.inr ⟨_, List.mem_filterMap.2 ⟨c, hnew, heval⟩, rfl, hpassed⟩)
      · refine Or.inr (Or.inl (List.mem_filterMap.2 ⟨c, List.mem_filter.2 ⟨hcarried, ?_⟩, hcheck⟩))
        exact hpassed

end

/-! ## Runs -/

section

variable {H : Type} [DecidableEq H] (env : Env H)

/-- The graph state, and beside it every evaluation of the run so far. -/
structure LineageState (H : Type) where
  qc : QcState H
  history : List Evaluation

/-- A visit, or what another node writes between two visits: a document, and the
sections that it has revised. -/
inductive LineageEvent where
  | visit (o : LlmOutcome)
  | edit (document : Document) (fixedSections : List Section)

/-- What a visit evaluates; nothing unless it calls the verifier. -/
def visitEvaluations (s : QcState H) (o : LlmOutcome) : List Evaluation :=
  match checkedDocument s with
  | none => []
  | some document =>
    if o.keysConfigured = false then [] else evaluations env s (phase1 env document) o

def lineageStep (st : LineageState H) : LineageEvent → Option (LineageState H)
  | .visit o =>
    (visit env st.qc o).map fun s' =>
      { qc := s', history := st.history ++ visitEvaluations env st.qc o }
  | .edit document fixedSections =>
    some { st with
      qc := { st.qc with
        document := some document
        fixedSections := fixedSections
        generationOutcome := some "study_document" } }

/-- Where a run starts. -/
def NothingFrozen (st : LineageState H) : Prop :=
  st.qc.qcFrozenCheckIds = [] ∧ st.qc.qcFrozenSectionKeys = [] ∧ st.history = []

/-- The last evaluation of a target passed, on the content its section has now. -/
def PassedOnPresent (st : LineageState H) (document : Document) (target : Target) : Prop :=
  ∃ e, lastEvaluation st.history target = some e ∧ e.passed = true ∧
    ∃ t, e.content = some t ∧
      lastSection document.sections (target.sectionId env.checklist) = some t

/-- **What passes the gate passed last on the present content**, whatever the document
is that the next visit sees. -/
def LineageSound (st : LineageState H) : Prop :=
  ∀ document : Document,
    (∀ id ∈ (resolveFrozenForFullQc env.hash st.qc.qcFrozenCheckIds st.qc.qcFrozenSectionKeys
      st.qc.qcSectionContentHashes document env.checklist).1,
        PassedOnPresent env st document (.item id)) ∧
    ∀ sid ∈ (resolveFrozenForFullQc env.hash st.qc.qcFrozenCheckIds st.qc.qcFrozenSectionKeys
      st.qc.qcSectionContentHashes document env.checklist).2,
        PassedOnPresent env st document (.code (strip sid))

/-- A visit that reaches a result freezes soundly. -/
def SoundVisit (st : LineageState H) : LineageEvent → Prop
  | .visit o => ∀ document, checkedDocument st.qc = some document →
      (∃ v, verify env st.qc (phase1 env document) o = some (.ok v)) →
        FreezesSoundly env st.qc (phase1 env document) o
  | .edit _ _ => True

/-- What a sound run keeps: a frozen target with a stored hash passed last on content
of that hash. -/
structure LineageInv (st : LineageState H) : Prop where
  stripped : ∀ sid ∈ st.qc.qcFrozenSectionKeys, strip sid = sid
  passed : ∀ target ∈ frozenTargets st.qc.qcFrozenCheckIds st.qc.qcFrozenSectionKeys,
    ∀ x, st.qc.qcSectionContentHashes.lookup (target.sectionId env.checklist) = some x →
      ∃ e, lastEvaluation st.history target = some e ∧ e.passed = true ∧
        ∃ t, e.content = some t ∧ env.hash t = x

variable {env} {st st' : LineageState H}

omit [DecidableEq H] in
theorem LineageInv.of_start (h : NothingFrozen st) : LineageInv env st := by
  obtain ⟨hchecks, hsections, -⟩ := h
  constructor
  · rw [hsections]
    exact fun sid hsid => absurd hsid List.not_mem_nil
  · rw [hchecks, hsections]
    exact fun target htarget => absurd htarget List.not_mem_nil

omit [DecidableEq H] in
/-- What is written without a result changes neither the frozen ids nor the hashes. -/
theorem LineageInv.of_frozen_eq (h : LineageInv env st)
    (hchecks : st'.qc.qcFrozenCheckIds = st.qc.qcFrozenCheckIds)
    (hsections : st'.qc.qcFrozenSectionKeys = st.qc.qcFrozenSectionKeys)
    (hhashes : st'.qc.qcSectionContentHashes = st.qc.qcSectionContentHashes)
    (hhistory : st'.history = st.history) : LineageInv env st' := by
  constructor
  · rw [hsections]
    exact h.stripped
  · rw [hchecks, hsections, hhashes, hhistory]
    exact h.passed

theorem content_of_mem_evaluations {s : QcState H} {p : Phase1} {o : LlmOutcome} {e : Evaluation}
    (h : e ∈ evaluations env s p o) :
    e.content = lastSection p.document.sections (e.target.sectionId env.checklist) := by
  obtain ⟨c, -, hc⟩ := List.mem_filterMap.1 h
  obtain ⟨target, -, rfl⟩ := Option.map_eq_some_iff.1 hc
  rfl

/-- A visit that freezes soundly keeps the invariant. -/
theorem LineageInv.finish (h : LineageInv env st) {document : Document} {o : LlmOutcome}
    {v : Verification}
    (hverify : verify env st.qc (phase1 env document) o = some (.ok v))
    (hsound : FreezesSoundly env st.qc (phase1 env document) o) :
    LineageInv env
      { qc := finish env st.qc (phase1 env document) o v
        history := st.history ++ evaluations env st.qc (phase1 env document) o } := by
  constructor
  · exact fun sid hsid => @strip_refreshed _ _ env.hash _ _ (phase1 env document).document _ _ _
      h.stripped _ hsid
  · intro target htarget x hx
    have hstanding := finish_frozen rfl hverify h.stripped htarget
    change (buildSectionHashes env.hash (phase1 env document).document).lookup _ = some x at hx
    rw [lookup_buildSectionHashes] at hx
    split_ifs at hx
    obtain ⟨t, ht, rfl⟩ := Option.map_eq_some_iff.1 hx
    rw [lastEvaluation_append]
    cases hlast : lastEvaluation (evaluations env st.qc (phase1 env document) o) target with
    | some e =>
      obtain ⟨hmem, htarget⟩ := lastEvaluation_target hlast
      refine ⟨e, rfl, hsound.notFailed target hstanding e hlast, t, ?_, rfl⟩
      rw [content_of_mem_evaluations hmem, htarget, ht]
    | none =>
      obtain ⟨hold, hstored⟩ := hsound.unchanged target hstanding hlast
      obtain ⟨e, he, hpassed, hcontent⟩ := h.passed target hold _ (hstored t ht)
      exact ⟨e, by rw [he]; rfl, hpassed, hcontent⟩

/-- One step keeps the invariant. -/
theorem LineageInv.step (h : LineageInv env st) {event : LineageEvent}
    (hsound : SoundVisit env st event) (hstep : lineageStep env st event = some st') :
    LineageInv env st' := by
  cases event with
  | edit document fixedSections =>
    cases hstep
    exact h.of_frozen_eq rfl rfl rfl rfl
  | visit o =>
    obtain ⟨s', hvisit, rfl⟩ := Option.map_eq_some_iff.1 hstep
    rcases visit_cases hvisit with ⟨hdoc, rfl⟩ | ⟨document, hdoc, ⟨hkeys, rfl⟩ | ⟨hkeys, hcall⟩⟩
    · refine h.of_frozen_eq rfl rfl rfl ?_
      unfold visitEvaluations
      rw [hdoc]
      exact List.append_nil _
    · refine h.of_frozen_eq rfl rfl rfl ?_
      unfold visitEvaluations
      rw [hdoc]
      dsimp only
      rw [if_pos hkeys]
      exact List.append_nil _
    · have hevals : visitEvaluations env st.qc o =
          evaluations env st.qc (phase1 env document) o := by
        unfold visitEvaluations
        rw [hdoc]
        dsimp only
        rw [if_neg (by simp [hkeys])]
      rcases hcall with ⟨errorType, hverify, rfl⟩ | ⟨v, hverify, rfl⟩
      · refine h.of_frozen_eq rfl rfl rfl ?_
        have hreply : replyChecks o = [] := by
          unfold replyChecks
          rw [(verify_error hverify).2]
        have hnone : evaluations env st.qc (phase1 env document) o = [] := by
          unfold evaluations newChecks
          rw [hreply]
          cases (decision env st.qc (phase1 env document)).mode <;> rfl
        rw [hevals, hnone]
        exact List.append_nil _
      · rw [hevals]
        exact h.finish hverify (hsound document hdoc ⟨v, hverify⟩)

theorem LineageInv.sound (hinj : Function.Injective env.hash) (h : LineageInv env st) :
    LineageSound env st := by
  have hpassed : ∀ (document : Document) (target : Target),
      target ∈ frozenTargets st.qc.qcFrozenCheckIds st.qc.qcFrozenSectionKeys →
      (∃ t, lastSection document.sections (target.sectionId env.checklist) = some t ∧
        st.qc.qcSectionContentHashes.lookup (target.sectionId env.checklist) =
          some (env.hash t)) → PassedOnPresent env st document target := by
    intro document target htarget hgate
    obtain ⟨t, ht, hstored⟩ := hgate
    obtain ⟨e, he, hok, t', hcontent, hhash⟩ := h.passed target htarget _ hstored
    exact ⟨e, he, hok, t, by rw [hcontent, hinj hhash], ht⟩
  intro document
  constructor
  · intro id hid
    obtain ⟨htarget, hgate⟩ := mem_effective_checks hid
    exact hpassed document _ htarget hgate
  · intro sid hsid
    obtain ⟨htarget, hgate⟩ := mem_effective_sections hsid
    exact hpassed document _ htarget hgate

/-- **Frozen lineage is sound in every run whose visits freeze soundly.** -/
theorem frozenLineage_sound (hinj : Function.Injective env.hash)
    (h : Reachable (lineageStep env) (SoundVisit env) NothingFrozen st) : LineageSound env st :=
  LineageInv.sound hinj (h.invariant (fun _ hs => LineageInv.of_start hs)
    fun _ _ _ hinv hsound hstep => hinv.step hsound hstep)

end

/-! ## Two visits -/

/-- One checklist item, and hashes that are the sections themselves. -/
def oneItemEnv : Env Section where
  hash := id
  patterns := Placement.plainPatterns
  checklist := [{ id := "mc_1", sectionId := some "ts_1" }]

def oneSection (content : String) : Document where
  sections := [{ id := some (.str "ts_1"), content := some content }]

/-- The state after the generator has written a document of one section. -/
def writtenState (content : String) : QcState Section where
  generationOutcome := some "study_document"
  document := some (oneSection content)

def mustCover (passed : Bool) : Check where
  id := some (.str "mc_1")
  category := some (.str "must_cover")
  passed := some (.bool passed)
  checklistId := some (.str "mc_1")

def wrongClaim : Check where
  id := some (.str "ca_1")
  category := some (.str "content_accuracy")
  passed := some (.bool false)
  severity := some (.str "critical")
  sectionId := some (.str "ts_1")

/-- The verifier replies with these checks. -/
def reply (checks : List Check) : LlmOutcome where
  first := .replied (some { checks := checks })

theorem frozenLineage_sound_first :
    ∃ st, lineageStep oneItemEnv { qc := writtenState "old", history := [] }
        (.visit (reply [mustCover true])) = some st ∧ st.qc.qcFrozenCheckIds = ["mc_1"] ∧
      LineageSound oneItemEnv st := by
  cases hstep : lineageStep oneItemEnv { qc := writtenState "old", history := [] }
      (.visit (reply [mustCover true])) with
  | none =>
    have hsome : (lineageStep oneItemEnv { qc := writtenState "old", history := [] }
      (.visit (reply [mustCover true]))).isSome = true := by decide
    rw [hstep] at hsome
    exact absurd hsome (by decide)
  | some st =>
    have hfrozen : (lineageStep oneItemEnv { qc := writtenState "old", history := [] }
        (.visit (reply [mustCover true]))).map (fun st => st.qc.qcFrozenCheckIds) =
          some ["mc_1"] := by decide
    rw [hstep] at hfrozen
    refine ⟨st, rfl, Option.some.inj hfrozen, ?_⟩
    refine frozenLineage_sound Function.injective_id (.next (.init ⟨rfl, rfl, rfl⟩) ?_ hstep)
    intro document hdoc _
    cases hdoc
    have hevals : evaluations oneItemEnv (writtenState "old")
        (phase1 oneItemEnv (oneSection "old")) (reply [mustCover true]) =
          [⟨.item "mc_1", true, (oneSection "old").sections.head?⟩] := by
      decide
    have hcarried : carriedTargets oneItemEnv (writtenState "old")
        (phase1 oneItemEnv (oneSection "old")) = [] := by decide
    have hstanding : ∀ target, Standing oneItemEnv (writtenState "old")
        (phase1 oneItemEnv (oneSection "old")) (reply [mustCover true]) target →
          target = .item "mc_1" := by
      rintro target (⟨hold, -⟩ | hcarry | ⟨e, he, rfl, -⟩)
      · exact absurd hold List.not_mem_nil
      · rw [hcarried] at hcarry
        exact absurd hcarry List.not_mem_nil
      · rw [hevals] at he
        rw [List.mem_singleton.1 he]
    constructor
    · intro target htarget e he
      rw [hevals] at he
      have hmem := (lastEvaluation_target he).1
      rw [List.mem_singleton.1 hmem]
    · intro target htarget hnone
      rw [hstanding target htarget, hevals] at hnone
      exact absurd hnone (by decide)

/-- A full visit that fails a frozen item on new content still renews its hash. -/
theorem renewed_hash_revalidates :
    ¬ ∀ st, Reachable (lineageStep oneItemEnv) (fun _ _ => True) NothingFrozen st →
      LineageSound oneItemEnv st := by
  intro h
  cases hrun : run (lineageStep oneItemEnv) { qc := writtenState "old", history := [] }
      [.visit (reply [mustCover true, wrongClaim]), .edit (oneSection "new") [],
        .visit (reply [mustCover false])] with
  | none =>
    have hsome : (run (lineageStep oneItemEnv) { qc := writtenState "old", history := [] }
      [.visit (reply [mustCover true, wrongClaim]), .edit (oneSection "new") [],
        .visit (reply [mustCover false])]).isSome = true := by decide
    rw [hrun] at hsome
    exact absurd hsome (by decide)
  | some st =>
    have hgate : (run (lineageStep oneItemEnv) { qc := writtenState "old", history := [] }
        [.visit (reply [mustCover true, wrongClaim]), .edit (oneSection "new") [],
          .visit (reply [mustCover false])]).map (fun st =>
            ((resolveFrozenForFullQc id st.qc.qcFrozenCheckIds st.qc.qcFrozenSectionKeys
              st.qc.qcSectionContentHashes (oneSection "new") oneItemEnv.checklist).1,
              (lastEvaluation st.history (.item "mc_1")).map Evaluation.passed)) =
        some (["mc_1"], some false) := by decide
    rw [hrun] at hgate
    obtain ⟨hids, hlast⟩ := Prod.mk.inj (Option.some.inj hgate)
    have hsound := h st (reachable_of_run ⟨rfl, rfl, rfl⟩ hrun)
    obtain ⟨e, he, hpassed, -⟩ := (hsound (oneSection "new")).1 "mc_1"
      (hids ▸ List.mem_singleton_self _)
    rw [he] at hlast
    rw [Option.map_some, Option.some.injEq, hpassed] at hlast
    exact absurd hlast (by decide)

end StudyAgent.QualityCheck
