import StudyAgent.Quiz.RetryTargets

/-!
# Verified questions

What the verifier is asked about is decided by ids that are frozen, fixed or to be verified
again, and what changes is decided by the ids that the generator answers.  A record of the
verdicts of a run ties the two together: a question is verified if the last verdict under its id
is about its present content, and passed.

Main results:

* `Visit.verified` — **what a visit leaves verified**: all questions but those it finds at fault.
* `passed_verified` — **a quiz that passes has only verified questions**, if the patches of the
  run stay on their targets, no new question takes a frozen id and ids differ.
-/

namespace StudyAgent.Quiz

open Py

/-! ## Verdicts -/

/-- A verdict of the verifier on the answer of a question, with what it was asked about. -/
structure Verdict where
  qid : String
  content : Content
  passed : Bool
  deriving DecidableEq

/-- The last verdict under an id. -/
def latest (log : List Verdict) (qid : String) : Option Verdict :=
  log.reverse.find? fun verdict => verdict.qid = qid

/-- The last verdict on a question is on what it asks now, and it passed. -/
def VerifiedIn (log : List Verdict) (q : Question) : Prop :=
  latest log q.id = some ⟨q.id, q.toContent, true⟩

instance (log : List Verdict) (q : Question) : Decidable (VerifiedIn log q) :=
  inferInstanceAs (Decidable (_ = _))

/-- The answer of a question is reported as correct. -/
def reportsPassed (v : Verification) (qid : String) : Bool :=
  v.results.any fun result => result.id = qid && getTruthy result.answerCorrectnessPassed false

/-- The verdicts of a visit with an accepted reply. -/
def verdicts (s : GraphState) (v : Verification) : List Verdict :=
  (requestedQuestions s).map fun q => ⟨q.id, q.toContent, reportsPassed v q.id⟩

/-- What a step adds to the record. -/
def recorded (L : Library) (c : Config) (o : Outcome) : List Verdict :=
  if c.node = .qualityCheck ∧ ¬ SkipsQc c.state then
    match verificationPass L c.state o.verified with
    | none => []
    | some v => verdicts c.state v
  else []

theorem verifiedIn_congr {log : List Verdict} {q r : Question} (h : r.bare = q.bare) :
    VerifiedIn log r ↔ VerifiedIn log q := by
  have hid : r.id = q.id := congrArg Prod.fst h
  have hcontent : r.toContent = q.toContent := congrArg Prod.snd h
  rw [VerifiedIn, VerifiedIn, hid, hcontent]

/-- Verdicts on other questions change nothing. -/
theorem latest_append_of_notMem {log new : List Verdict} {qid : String}
    (h : ∀ verdict ∈ new, verdict.qid ≠ qid) : latest (log ++ new) qid = latest log qid := by
  have hnone : (new.reverse.find? fun verdict => verdict.qid = qid) = none := by
    rw [List.find?_eq_none]
    exact fun verdict hverdict => by simpa using h verdict (List.mem_reverse.1 hverdict)
  rw [latest, List.reverse_append, List.find?_append, hnone, Option.none_or, latest]

/-- The only new verdict under an id is the last one. -/
theorem latest_append_of_mem (log : List Verdict) {new : List Verdict} {verdict : Verdict}
    (h : verdict ∈ new)
    (hone : ∀ other ∈ new, other.qid = verdict.qid → other = verdict) :
    latest (log ++ new) verdict.qid = some verdict := by
  have hfound : (new.reverse.find? fun other => other.qid = verdict.qid) = some verdict := by
    cases hfind : new.reverse.find? fun other => other.qid = verdict.qid with
    | none =>
      have hnot := List.find?_eq_none.1 hfind verdict (List.mem_reverse.2 h)
      simp at hnot
    | some other =>
      have hmem := List.mem_reverse.1 (List.mem_of_find?_eq_some hfind)
      have hqid : other.qid = verdict.qid := by simpa using List.find?_some hfind
      rw [hone other hmem hqid]
  rw [latest, List.reverse_append, List.find?_append, hfound, Option.some_or]

variable {L : Library} {s s' : GraphState} {c c' : Config} {o : Outcome} {log : List Verdict}

/-! ## What is asked -/

/-- The id of a question is asked about as it is. -/
theorem bare_forQc {q : Question} (h : q.id ≠ "") :
    ({ q with questionId := some (.str (q.questionId.getD .null).text) } : Question).bare =
      q.bare := by
  cases hid : q.questionId with
  | none =>
    rw [Question.id, hid] at h
    exact absurd (by decide) h
  | some value =>
    rw [Question.bare, Question.bare, Question.id, Question.id, hid]
    rfl

/-- **What is asked is a part of the quiz** where the ids differ. -/
theorem requested_partOf (hids : DistinctIds (s.validatedQuestions.getD []))
    (hfixed : PartOf (s.fixedQuestions.getD []) (s.validatedQuestions.getD [])) :
    PartOf (requestedQuestions s) (s.validatedQuestions.getD []) := by
  unfold requestedQuestions
  split_ifs
  · exact hfixed
  · have hmap : (questionsForQc (s.validatedQuestions.getD [])).map Question.bare =
        (s.validatedQuestions.getD []).map Question.bare := by
      rw [questionsForQc, List.map_map]
      exact List.map_congr_left fun q hq => bare_forQc (hids.present q hq)
    rw [PartOf, ← hmap]
    exact List.filter_sublist.map _

/-! ## One visit -/

/-- A reply reports on each question that it was asked about, once. -/
def ReportsEach (s : GraphState) (v : Verification) : Prop :=
  v.reportedIds.Perm ((requestedQuestions s).map Question.id)

/-- The questions that the result finds no fault with: no check of the answer fails. -/
def Faultless (r : QcResult) (q : Question) : Prop :=
  ∀ check ∈ r.checks, check.category = .answerCorrectness → check.question = q.id →
    check.passed = true

/-- What was verified before a visit: the questions that it is not asked about. -/
def OthersVerified (log : List Verdict) (s : GraphState) : Prop :=
  ∀ q ∈ s.validatedQuestions.getD [], q.id ∉ (requestedQuestions s).map Question.id →
    VerifiedIn log q

section

variable {v : Verification} {r : QcResult} {routing : Routing} {passed : Bool}

/-- The answer check of the only result under an id is in the result. -/
theorem Visit.answer_mem (h : Visit L s o v r routing passed) (htraced : Traced (priorChecks s))
    (hnodup : v.reportedIds.Nodup) {result : QuestionResult} (hresult : result ∈ v.results) :
    result.check "answer_correctness_" .answerCorrectness .critical result.answerCorrectnessPassed
      result.answerEvidence ∈ r.checks := by
  obtain ⟨obj, rfl⟩ := h.normalized
  refine (h.mem_checks_iff htraced (by simp [QuestionResult.check, PER_QUESTION_CATEGORIES])).2 ?_
  refine mem_mergedChecks_of_new (mem_normalized_of_result hresult List.mem_cons_self) ?_
  intro d hd hkey
  obtain ⟨hcategory, hname⟩ :
      d.category = .answerCorrectness ∧ d.questionId.getD "" = result.id := by
    have hcat := (question_eq_of_dedupKey hkey
      (by simp [QuestionResult.check, PER_QUESTION_CATEGORIES])).1
    rw [dedupKey, if_pos hcat] at hkey
    exact ⟨congrArg Prod.fst hkey, congrArg Prod.snd hkey⟩
  obtain ⟨other, hother, hmem⟩ := mem_normalized_perQuestion hd
    (by simp [hcategory, PER_QUESTION_CATEGORIES])
  have hid : other.id = result.id := by
    rw [← hname, (mem_resultChecks hmem).1]
    rfl
  rw [List.inj_on_of_nodup_map hnodup hother hresult hid] at hmem
  rcases List.mem_pair.1 hmem with rfl | rfl
  · rfl
  · cases hcategory

/-- What a visit is not asked about stays verified. -/
theorem verifiedIn_append_of_not_asked {q : Question}
    (hnot : q.id ∉ (requestedQuestions s).map Question.id) (h : VerifiedIn log q) :
    VerifiedIn (log ++ verdicts s v) q := by
  have hother : ∀ verdict ∈ verdicts s v, verdict.qid ≠ q.id := by
    intro verdict hverdict hqid
    obtain ⟨asked, hmem, rfl⟩ := List.mem_map.1 hverdict
    exact hnot (List.mem_map.2 ⟨asked, hmem, hqid⟩)
  rw [VerifiedIn, latest_append_of_notMem hother]
  exact h

/-- **What a visit leaves verified**: the questions that it finds no fault with. -/
theorem Visit.verified (h : Visit L s o v r routing passed) (htraced : Traced (priorChecks s))
    (hids : DistinctIds (s.validatedQuestions.getD []))
    (hfixed : PartOf (s.fixedQuestions.getD []) (s.validatedQuestions.getD []))
    (hreports : ReportsEach s v) (hothers : OthersVerified log s) {q : Question}
    (hq : q ∈ s.validatedQuestions.getD []) (hfaultless : Faultless r q) :
    VerifiedIn (log ++ verdicts s v) q := by
  have hpart := requested_partOf hids hfixed
  have hrequested := hpart.distinctIds hids
  by_cases hasked : q.id ∈ (requestedQuestions s).map Question.id
  · obtain ⟨asked, hmem, hid⟩ := List.mem_map.1 hasked
    have hbare : asked.bare = q.bare := by
      obtain ⟨q', hq', heq⟩ := List.mem_map.1 (List.Sublist.subset hpart (List.mem_map_of_mem hmem))
      have hsame : q'.id = q.id := (congrArg Prod.fst heq).trans hid
      rw [← heq, bare_eq_of_id hids hq hq' hsame]
    have hpasses : reportsPassed v q.id = true := by
      have hreported : q.id ∈ v.reportedIds := hreports.mem_iff.2 hasked
      obtain ⟨result, hresult, hrid⟩ := List.mem_map.1 hreported
      have hnodup : v.reportedIds.Nodup := hreports.nodup_iff.2 hrequested.nodup
      have hcheck := h.answer_mem htraced hnodup hresult
      have hpassed : getTruthy result.answerCorrectnessPassed false = true :=
        hfaultless _ hcheck rfl
          ((question_of_mem_checks (r := result) List.mem_cons_self).trans hrid)
      exact List.any_eq_true.2 ⟨result, hresult, by simpa [hrid] using hpassed⟩
    rw [VerifiedIn, ← hid]
    have hverdict : (⟨asked.id, asked.toContent, reportsPassed v asked.id⟩ : Verdict) ∈
        verdicts s v := List.mem_map.2 ⟨asked, hmem, rfl⟩
    have hlast := latest_append_of_mem log hverdict fun other hother hqid => ?_
    · rw [hid, hpasses] at hlast
      rw [hid]
      rw [show q.toContent = asked.toContent from (congrArg Prod.snd hbare).symm]
      exact hlast
    · obtain ⟨asked', hmem', rfl⟩ := List.mem_map.1 hother
      rw [bare_eq_of_id hrequested hmem hmem' hqid]
  · exact verifiedIn_append_of_not_asked hasked (hothers q hq hasked)

end

/-! ## What the record says of a quiz -/

/-- What the record says of the questions at work: those that are frozen are verified, and in a
retry all are but its targets.  No target is frozen, and the earlier failures are targets. -/
structure Ledger (log : List Verdict) (s : GraphState) (questions : List Question) : Prop where
  traced : Traced (priorChecks s)
  frozen : ∀ q ∈ questions, q.id ∈ frozenIdSet s → VerifiedIn log q
  retry : s.qcRetryMode ∈ QUESTION_RETRY_MODES →
    ∀ q ∈ questions, q.id ∉ s.appliedIds → VerifiedIn log q
  apart : ∀ qid ∈ frozenIdSet s, qid ∉ s.appliedIds
  failing : ∀ check ∈ priorChecks s, check.passed = false → check.question ≠ "" →
    check.question ∈ s.appliedIds

/-- The questions that are fixed are of the quiz, and where there are any the others are
verified. -/
structure FixedLedger (log : List Verdict) (s : GraphState) (questions : List Question) : Prop where
  part : PartOf (s.fixedQuestions.getD []) questions
  others : s.fixedQuestions.getD [] ≠ [] → ∀ q ∈ questions,
    q.id ∉ (s.fixedQuestions.getD []).map Question.id → VerifiedIn log q

theorem verifiedIn_of_keptIn {questions : List Question} {q : Question} (h : KeptIn q questions)
    (hverified : ∀ r ∈ questions, r.id = q.id → VerifiedIn log r) : VerifiedIn log q := by
  obtain ⟨r, hr, hbare⟩ := h
  exact (verifiedIn_congr hbare).1 (hverified r hr (congrArg Prod.fst hbare))

/-- A record is carried over to questions that are those of before, as far as it says something
of them. -/
theorem Ledger.carry {old new : List Question} (h : Ledger log s old)
    (hfrozen : s'.qcFrozenQuestionIds = s.qcFrozenQuestionIds)
    (hreverify : s'.qcReverifyQuestionIds = s.qcReverifyQuestionIds)
    (hprior : ∀ check ∈ priorChecks s', check ∈ priorChecks s)
    (hmode : s'.qcRetryMode ∈ QUESTION_RETRY_MODES → s.qcRetryMode ∈ QUESTION_RETRY_MODES)
    (hkept : ∀ q ∈ new, q.id ∉ s.appliedIds →
      q.id ∈ frozenIdSet s ∨ s'.qcRetryMode ∈ QUESTION_RETRY_MODES → KeptIn q old) :
    Ledger log s' new := by
  have hids : frozenIdSet s' = frozenIdSet s := by rw [frozenIdSet, frozenIdSet, hfrozen]
  have happlied : s'.appliedIds = s.appliedIds := by
    rw [GraphState.appliedIds, GraphState.appliedIds, hreverify]
  refine ⟨fun check hcheck => h.traced check (hprior check hcheck), ?_, ?_, ?_, ?_⟩
  · intro q hq hid
    rw [hids] at hid
    exact verifiedIn_of_keptIn (hkept q hq (h.apart _ hid) (.inl hid)) fun r hr hrid =>
      h.frozen r hr (hrid ▸ hid)
  · intro hretry q hq hid
    rw [happlied] at hid
    exact verifiedIn_of_keptIn (hkept q hq hid (.inr hretry)) fun r hr hrid =>
      h.retry (hmode hretry) r hr (hrid ▸ hid)
  · rw [hids, happlied]
    exact h.apart
  · rw [happlied]
    exact fun check hcheck => h.failing check (hprior check hcheck)

/-- What a visit is not asked about is verified. -/
theorem Ledger.othersVerified (h : Ledger log s (s.validatedQuestions.getD []))
    (hfixed : FixedLedger log s (s.validatedQuestions.getD []))
    (hids : DistinctIds (s.validatedQuestions.getD [])) : OthersVerified log s := by
  intro q hq hnot
  unfold requestedQuestions isTargeted at hnot
  split_ifs at hnot with htargeted
  · exact hfixed.others (by simpa using htargeted) q hq hnot
  · refine h.frozen q hq ?_
    by_contra hfrozen
    have hbare := bare_forQc (hids.present q hq)
    refine hnot (List.mem_map.2 ⟨_, List.mem_filter.2 ⟨List.mem_map_of_mem hq, ?_⟩,
      congrArg Prod.fst hbare⟩)
    rw [decide_eq_true_eq, show Question.id _ = q.id from congrArg Prod.fst hbare]
    exact hfrozen

section

variable {v : Verification} {r : QcResult} {routing : Routing} {passed : Bool}

/-- The targets after a visit are the questions of its failures. -/
theorem mem_appliedIds_afterVisit
    (hrouted : classifyQuizRetryRouting L r (s.validatedQuestions.getD []) = some routing)
    {qid : String} :
    qid ∈ (s.afterVisit r routing passed).appliedIds ↔
      qid ≠ "" ∧ ∃ check ∈ r.checks, check.passed = false ∧
        check.category ∈ PER_QUESTION_CATEGORIES ∧ check.question = qid := by
  rw [show (s.afterVisit r routing passed).appliedIds =
    strippedIds routing.failedQuestionIds from rfl,
    mem_strippedIds]
  constructor
  · rintro ⟨⟨raw, hraw, rfl⟩, hne⟩
    obtain ⟨-, check, hcheck, hfails, hcat, rfl⟩ := (classify_failedQuestionIds hrouted).1 hraw
    exact ⟨hne, check, hcheck, hfails, hcat, (strip_strip _).symm⟩
  · rintro ⟨hne, check, hcheck, hfails, hcat, rfl⟩
    exact ⟨⟨_, (classify_failedQuestionIds hrouted).2 ⟨hne, check, hcheck, hfails, hcat, rfl⟩,
      strip_strip _⟩, hne⟩

/-- What is frozen after a visit was frozen before, or has passed all its checks. -/
theorem mem_frozenIdSet_afterVisit {qid : String}
    (h : qid ∈ frozenIdSet (s.afterVisit r routing passed)) :
    isTargeted s = false ∧ (qid ∈ frozenIdSet s ∨ ∀ check ∈ r.checks,
      check.category ∈ PER_QUESTION_CATEGORIES → check.question = qid → check.passed = true) := by
  rw [frozenIdSet, show (s.afterVisit r routing passed).qcFrozenQuestionIds =
    if isTargeted s then none else some (accumulateFrozenQuestionIds r.checks s.qcFrozenQuestionIds)
    from rfl] at h
  split_ifs at h with htargeted
  · cases h
  · refine ⟨by simpa using htargeted, ?_⟩
    obtain ⟨⟨raw, hraw, hstrip⟩, hne⟩ := mem_strippedIds.1 h
    rcases mem_accumulateFrozenQuestionIds.1 hraw with hold | ⟨hnamed, hall⟩
    · exact .inl (mem_strippedIds.2 ⟨⟨raw, hold, hstrip⟩, hne⟩)
    · obtain ⟨-, check, -, -, hquestion⟩ := mem_perQuestionIds.1 hnamed
      have hraw' : raw = qid := by
        rw [← hstrip, ← hquestion]
        exact (strip_strip _).symm
      rw [← hraw']
      exact .inr hall

/-- What is frozen is not asked about in a full verification. -/
theorem not_asked_of_frozen (hfull : isTargeted s = false) {qid : String}
    (h : qid ∈ frozenIdSet s) : qid ∉ (requestedQuestions s).map Question.id := by
  intro hasked
  obtain ⟨q, hq, rfl⟩ := List.mem_map.1 hasked
  rw [requestedQuestions, hfull, if_neg Bool.false_ne_true] at hq
  have hnot := (List.mem_filter.1 hq).2
  rw [decide_eq_true_eq] at hnot
  exact hnot h

/-- **The record after a visit**: it is right for the quiz, with the verdicts of the visit. -/
theorem Visit.ledger (h : Visit L s o v r routing passed)
    (hledger : Ledger log s (s.validatedQuestions.getD []))
    (hfixed : FixedLedger log s (s.validatedQuestions.getD []))
    (hids : DistinctIds (s.validatedQuestions.getD [])) (hreports : ReportsEach s v) :
    Ledger (log ++ verdicts s v) (s.afterVisit r routing passed)
      (s.validatedQuestions.getD []) := by
  have hothers := hledger.othersVerified hfixed hids
  have htraced : Traced r.checks := h.traced hledger.traced
  have hverified : ∀ q ∈ s.validatedQuestions.getD [], Faultless r q →
      VerifiedIn (log ++ verdicts s v) q := fun q hq =>
    h.verified hledger.traced hids hfixed.part hreports hothers hq
  have hanswer : Category.answerCorrectness ∈ PER_QUESTION_CATEGORIES := by decide
  refine ⟨htraced, fun q hq hfrozen => ?_, fun _ q hq hid => ?_, fun qid hfrozen htarget => ?_,
    fun check hcheck hfails hquestion => ?_⟩
  · obtain ⟨hfull, hold | hpassed⟩ := mem_frozenIdSet_afterVisit hfrozen
    · exact verifiedIn_append_of_not_asked (not_asked_of_frozen hfull hold)
        (hledger.frozen q hq hold)
    · exact hverified q hq fun check hcheck hcat =>
        hpassed check hcheck (by rw [hcat]; exact hanswer)
  · refine hverified q hq fun check hcheck hcat hquestion => ?_
    by_contra hfails
    refine hid ((mem_appliedIds_afterVisit h.routed).2 ⟨hids.present q hq, check, hcheck, ?_, ?_,
      hquestion⟩)
    · simpa using hfails
    · rw [hcat]
      exact hanswer
  · obtain ⟨hne, check, hcheck, hfails, hcat, hquestion⟩ :=
      (mem_appliedIds_afterVisit h.routed).1 htarget
    obtain ⟨hfull, hold | hpassed⟩ := mem_frozenIdSet_afterVisit hfrozen
    · obtain ⟨obj, rfl⟩ := h.normalized
      rcases mem_mergedChecks ((h.mem_checks_iff hledger.traced hcat).1 hcheck) with hnew | hkept
      · obtain ⟨result, hresult, hmem⟩ := mem_normalized_perQuestion hnew hcat
        rw [question_of_mem_checks hmem] at hquestion
        refine not_asked_of_frozen hfull hold (hreports.mem_iff.1 ?_)
        exact List.mem_map.2 ⟨result, hresult, hquestion⟩
      · refine hledger.apart qid hold ?_
        rw [← hquestion] at hne ⊢
        exact hledger.failing check (mem_keptChecks hkept) hfails hne
    · rw [hpassed check hcheck hcat hquestion] at hfails
      cases hfails
  · exact (mem_appliedIds_afterVisit h.routed).2
      ⟨hquestion, check, hcheck, hfails, (htraced check hcheck).1 hquestion, rfl⟩

end

/-! ## Conditions -/

/-- The patches that are applied, in a quiz that is not pruned for its insertions, stay on their
targets. -/
def PatchesStay (L : Library) (s : GraphState) (o : Outcome) : Prop :=
  ∀ text patches, ReadsAs L o.generated o.freshId text patches →
    (s.qcRetryMode = .questionPatch ∨ s.qcRetryMode = .questionPatchThenInsert ∧
      ∃ text', ReadsAs L o.inserted o.insertedId text' []) →
    StaysOnTargets s.current patches s.qcReverifyQuestionIds

/-- A new question under a frozen id is the one of the quiz, or it is merged into a quiz that has
the id. -/
def NewIdsStay (L : Library) (s : GraphState) (o : Outcome) : Prop :=
  s.qcRetryMode = .fullRegeneration ∨ s.qcRetryMode = .none →
    ∀ text parsed, o.generated = .content text →
      parseQuiz L text s.questionCount o.freshId = .ok parsed →
      ∀ q ∈ parsed, q.id ∈ frozenIdSet s → KeptIn q s.current ∨
        s.qcRetryMode = .fullRegeneration ∧ s.qcReverifyQuestionIds ≠ [] ∧
          q.id ∈ existingQuestionIds s.current

/-- What changes is what is verified again, and ids tell the questions of a quiz apart. -/
structure IdsHold (L : Library) (c : Config) (o : Outcome) : Prop where
  patches : c.node = .quizGenerator → PatchesStay L c.state o
  regenerated : c.node = .quizGenerator → NewIdsStay L c.state o
  distinct : c.node = .qualityCheck → DistinctIds (c.state.validatedQuestions.getD [])

/-- Accepted replies report on each question that they were asked about, once. -/
def RepliesReport (L : Library) (c : Config) (o : Outcome) : Prop :=
  c.node = .qualityCheck → ∀ v, verificationPass L c.state o.verified = some v →
    ReportsEach c.state v

/-! ## The nodes of the loop -/

/-- What the record says at each node of the loop, of a quiz that is not on its way to a prune. -/
def Ledgered (log : List Verdict) (node : Node) (s : GraphState) : Prop :=
  match node with
  | .quizGenerator => s.qcRetryMode ≠ .questionPrune → Ledger log s s.current
  | .deterministicValidate => (s.parsedQuestions.getD []).length ≤ s.questionCount →
    Ledger log s (s.parsedQuestions.getD []) ∧ FixedLedger log s (s.parsedQuestions.getD [])
  | .qualityCheck => Ledger log s (s.validatedQuestions.getD []) ∧
    FixedLedger log s (s.validatedQuestions.getD [])
  | _ => True

theorem current_of_validated (h : s.validatedQuestions.getD [] ≠ []) :
    s.current = s.validatedQuestions.getD [] := if_pos h

theorem Ledger.hydrate {questions : List Question} (h : Ledger log s questions) (last : Node) :
    Ledger log (hydrateCheckpointState s last) questions :=
  ⟨h.traced, h.frozen, h.retry, h.apart, h.failing⟩

theorem FixedLedger.hydrate {questions : List Question} (h : FixedLedger log s questions)
    (last : Node) : FixedLedger log (hydrateCheckpointState s last) questions :=
  ⟨h.part, h.others⟩

/-- Nothing is fixed. -/
theorem FixedLedger.none {questions : List Question} (h : s.fixedQuestions.getD [] = []) :
    FixedLedger log s questions := by
  refine ⟨?_, fun hsome => absurd h hsome⟩
  rw [h]
  exact List.nil_sublist _

/-- The record of a run that has not made a quiz. -/
theorem Untouched.ledger (h : Untouched s) : Ledger log s s.current := by
  have hcurrent : s.current = [] := by
    rw [GraphState.current, h.validated, h.parsed]
    rfl
  have hprior : priorChecks s = [] := by
    rw [priorChecks, h.result]
    rfl
  have hfrozen : frozenIdSet s = [] := by
    rw [frozenIdSet, h.frozen]
    rfl
  rw [hcurrent]
  refine ⟨?_, fun q hq => (by cases hq), fun _ q hq => (by cases hq), ?_, ?_⟩
  · rw [hprior]
    exact fun check hcheck => by cases hcheck
  · rw [hfrozen]
    exact fun qid hqid => by cases hqid
  · rw [hprior]
    exact fun check hcheck => by cases hcheck

theorem ledgered_law (log : List Verdict) : Law (Ledgered log) where
  elsewhere {node s} hnode := by
    cases node with
    | quizGenerator => exact absurd (by decide) hnode
    | deterministicValidate => exact absurd (by decide) hnode
    | qualityCheck => exact absurd (by decide) hnode
    | _ => trivial
  marks {node s} last h := by
    cases node with
    | quizGenerator => exact fun hmode => Ledger.hydrate (h hmode) last
    | deterministicValidate =>
      exact fun hshort => ⟨Ledger.hydrate (h hshort).1 last, FixedLedger.hydrate (h hshort).2 last⟩
    | qualityCheck => exact ⟨Ledger.hydrate h.1 last, FixedLedger.hydrate h.2 last⟩
    | _ => trivial
  untouched h _ := h.ledger
  again {s} _ hmode hquiz hfixed h := by
    have hledger := h (by rw [hmode]; decide)
    rw [current_of_validated hquiz] at hledger
    exact ⟨hledger, .none (by rw [hfixed]; rfl)⟩

/-- Insertions that add nothing leave the quiz. -/
theorem bare_insertQuestions_nil (questions : List Question) (newId : ℕ → String) :
    (insertQuestions questions [] newId).map Question.bare = questions.map Question.bare := by
  rw [insertQuestions, map_bare_reindexQuestions]
  simp

theorem length_insertQuestions (questions new : List Question) (newId : ℕ → String) :
    (insertQuestions questions new newId).length = questions.length + new.length := by
  simp [insertQuestions]

theorem length_prepareQuestionPatchesForMerge (existing patches : List Question)
    (targetIds : List String) :
    (prepareQuestionPatchesForMerge existing patches targetIds).length = existing.length := by
  unfold prepareQuestionPatchesForMerge
  dsimp only
  split_ifs
  · rfl
  · rfl
  · exact (mergeQuestionPatches_sameOutside fun _ _ hin => hin).length_eq

/-- What a retry changes is what it fixes, and its targets. -/
structure RetryKeeps (s : GraphState) (retry : Retry) : Prop where
  kept : ∀ q ∈ retry.merged, q.id ∉ s.appliedIds → KeptIn q s.current
  part : PartOf retry.fixed retry.merged
  fixed : retry.fixed ≠ [] → ∀ q ∈ retry.merged, q.id ∈ s.appliedIds →
    q.id ∈ retry.fixed.map Question.id

theorem keptIn_iff {questions : List Question} {q : Question} :
    KeptIn q questions ↔ q.bare ∈ questions.map Question.bare := by
  rw [KeptIn, List.mem_map]

/-- A patch that stays on its targets, with what it fixes. -/
theorem patched_keeps {patches : List Question}
    (hstays : StaysOnTargets s.current patches s.qcReverifyQuestionIds) (raw : Option LlmText) :
    RetryKeeps s
      { merged := prepareQuestionPatchesForMerge s.current patches s.qcReverifyQuestionIds
        fixed := (prepareQuestionPatchesForMerge s.current patches
          s.qcReverifyQuestionIds).filter fun q => q.id ∈ s.appliedIds
        raw := raw } := by
  have hsame := prepareQuestionPatchesForMerge_sameOutside hstays
  refine ⟨fun q hq hid => ?_, List.filter_sublist.map _, fun _ q hq hid => ?_⟩
  · obtain ⟨old, hold, hoid, hcontent⟩ := hsame.mem hq
    exact ⟨old, hold, Prod.ext hoid (hcontent hid)⟩
  · exact List.mem_map_of_mem (List.mem_filter.2 ⟨hq, by simpa using hid⟩)

theorem Retried.keeps {retry : Retry} (h : Retried L s o retry) (hpatches : PatchesStay L s o)
    (hfull : s.qcRetryMode = .questionInsert ∨ s.qcRetryMode = .questionPatchThenInsert →
      s.current.length = s.questionCount)
    (hshort : retry.merged.length ≤ s.questionCount) : RetryKeeps s retry := by
  cases h with
  | patch hmode hreads => exact patched_keeps (hpatches _ _ hreads (.inl hmode)) _
  | @insert new text hmode hreads =>
    have hnil : new = [] := by
      rw [length_insertQuestions, hfull (.inl hmode)] at hshort
      exact List.length_eq_zero_iff.1 (by omega)
    subst hnil
    refine ⟨fun q hq _ => ?_, List.nil_sublist _, fun hne => absurd rfl hne⟩
    rw [keptIn_iff, ← bare_insertQuestions_nil _ o.newId]
    exact List.mem_map_of_mem hq
  | @patchThenInsert patches new text text' hmode hreads hreads' =>
    have hnil : new = [] := by
      rw [length_insertQuestions, length_prepareQuestionPatchesForMerge,
        hfull (.inr hmode)] at hshort
      exact List.length_eq_zero_iff.1 (by omega)
    subst hnil
    have hkeeps := patched_keeps (hpatches _ _ hreads (.inr ⟨hmode, _, hreads'⟩)) (some text)
    have hbare := bare_insertQuestions_nil (prepareQuestionPatchesForMerge s.current patches
      s.qcReverifyQuestionIds) o.newId
    have hback : ∀ q ∈ insertQuestions (prepareQuestionPatchesForMerge s.current patches
        s.qcReverifyQuestionIds) [] o.newId, KeptIn q (prepareQuestionPatchesForMerge s.current
          patches s.qcReverifyQuestionIds) := by
      intro q hq
      rw [keptIn_iff, ← hbare]
      exact List.mem_map_of_mem hq
    refine ⟨fun q hq hid => ?_, ?_, fun hne q hq hid => ?_⟩
    · obtain ⟨r, hr, hrbare⟩ := hback q hq
      have hrid : r.id = q.id := congrArg Prod.fst hrbare
      obtain ⟨old, hold, holdbare⟩ := hkeeps.kept r hr (hrid ▸ hid)
      exact ⟨old, hold, holdbare.trans hrbare⟩
    · rw [PartOf, hbare, List.append_nil]
      exact hkeeps.part
    · obtain ⟨r, hr, hrbare⟩ := hback q hq
      have hrid : r.id = q.id := congrArg Prod.fst hrbare
      rw [List.append_nil] at hne ⊢
      rw [← hrid] at hid ⊢
      exact hkeeps.fixed hne r hr hid

theorem ledgered_generator (h : AtGenerator s) (hledger : Ledgered log .quizGenerator s)
    (hpatches : PatchesStay L s o) (hnew : NewIdsStay L s o)
    (hs : quizGeneratorNode L s o = some s') : Ledgered log (routeAfterQuizGenerator s') s' := by
  rcases quizGenerator_cases hs with rfl | ⟨e, raw, rfl⟩ | ⟨hmode, -, -, hshort, -⟩ |
    ⟨-, -, -, rfl⟩ | ⟨hmode, -, retry, hretried, rfl⟩ | ⟨hmode, text, parsed, htext, hparsed, rfl⟩
  · trivial
  · rw [routeAfterQuizGenerator_aborted h.terminal]
    trivial
  · exact absurd (h.overflows hmode) (Nat.not_lt.2 hshort)
  · rw [routeAfterQuizGenerator_afterPrune]
    trivial
  · rw [routeAfterQuizGenerator_afterRetry h.terminal h.present]
    intro hshort
    have hprune : s.qcRetryMode ≠ .questionPrune := by
      intro hprune
      simp [hprune, QUESTION_RETRY_MODES] at hmode
    have hfull : s.qcRetryMode = .questionInsert ∨ s.qcRetryMode = .questionPatchThenInsert →
        s.current.length = s.questionCount := by
      intro hinsert
      have hquiz := h.complete hinsert
      rw [current_of_validated hquiz]
      exact ((h.checked hprune).resolve_left hquiz).count
    have hkeeps := hretried.keeps hpatches hfull hshort
    have hbefore : Ledger log s s.current := hledger hprune
    refine ⟨hbefore.carry rfl rfl (fun _ hcheck => hcheck) (fun _ => hmode)
      fun q hq hid _ => hkeeps.kept q hq hid, hkeeps.part, fun hne q hq hid => ?_⟩
    have htarget : q.id ∉ s.appliedIds := fun hin => hid (hkeeps.fixed hne q hq hin)
    exact verifiedIn_of_keptIn (hkeeps.kept q hq htarget) fun r hr hrid =>
      hbefore.retry hmode r hr (hrid ▸ htarget)
  · rw [routeAfterQuizGenerator_afterGeneration h.terminal h.present h.error]
    intro _
    have hprune : s.qcRetryMode ≠ .questionPrune := by
      intro hprune
      simp [hprune] at hmode
    have hno : s.qcRetryMode ∉ QUESTION_RETRY_MODES := by
      rcases hmode with hmode | hmode
      · simp [hmode, QUESTION_RETRY_MODES]
      · simp [hmode, QUESTION_RETRY_MODES]
    have hbefore : Ledger log s s.current := hledger hprune
    refine ⟨hbefore.carry rfl rfl (fun _ hcheck => hcheck) (fun hin => hin) fun q hq hid hwhy => ?_,
      .none rfl⟩
    have hfrozen : q.id ∈ frozenIdSet s := hwhy.resolve_right hno
    rcases origin_regenerated hq hid (mem_strippedIds.1 hfrozen).2 with hkept |
      ⟨⟨r, hr, hbare⟩, hfresh⟩
    · exact hkept
    · have hrid : r.id = q.id := congrArg Prod.fst hbare
      rcases hnew hmode text parsed htext hparsed r hr (hrid ▸ hfrozen) with
        ⟨old, hold, holdbare⟩ | ⟨hregenerates, hreverify, hin⟩
      · exact ⟨old, hold, holdbare.trans hbare⟩
      · rw [hrid] at hin
        refine absurd hin (hfresh hregenerates ?_ hreverify)
        rintro hnil
        rw [hnil] at hin
        cases hin

theorem ledgered_validate (h : AtValidator s) (hledger : Ledgered log .deterministicValidate s)
    (hs : deterministicValidateNode L s = some s') :
    Ledgered log (routeAfterDeterministicValidate s') s' := by
  rcases validate_next h hs with ⟨hsound, hnext, rfl⟩ |
    ⟨-, ⟨hnext, -, rfl⟩ | ⟨hshort, det, rfl, ⟨hnext, -⟩ | ⟨hnext, hlimit⟩⟩⟩
  · rw [hnext]
    obtain ⟨hrecord, hfixed⟩ := hledger hsound.count.le
    refine ⟨hrecord.carry rfl rfl (fun _ hcheck => hcheck) (fun hmode => hmode) ?_,
      hfixed.part, hfixed.others⟩
    exact fun q hq _ _ => ⟨q, hq, rfl⟩
  · rw [hnext]
    exact fun hmode => absurd rfl hmode
  · rw [hnext]
    trivial
  · rw [hnext, afterStructuralFailure_retry s _ det hlimit]
    intro _
    have hcurrent : GraphState.current { s with validatedQuestions := some [] } =
        s.parsedQuestions.getD [] := if_neg fun hne => hne rfl
    refine (hledger hshort).1.carry rfl rfl (fun _ hcheck => hcheck) (fun hmode => ?_)
      fun q hq _ _ => ⟨q, hcurrent ▸ hq, rfl⟩
    dsimp only at hmode
    split_ifs at hmode with hinsert
    · rcases hinsert with hinsert | hinsert
      · simp [hinsert, QUESTION_RETRY_MODES]
      · simp [hinsert, QUESTION_RETRY_MODES]
    · exact hmode

/-- What a failure of the verifier leaves of the record. -/
theorem Ledger.afterInfraFailure {questions : List Question} (h : Ledger log s questions) :
    Ledger log s.afterInfraFailure questions :=
  h.carry rfl rfl (fun _ hcheck => (nomatch hcheck)) (fun hmode => hmode)
    fun q hq _ _ => ⟨q, hq, rfl⟩

theorem recorded_of_visit (hquiz : s.validatedQuestions.getD [] ≠ []) (hat : AtQualityCheck s)
    {v : Verification} (hpass : verificationPass L s o.verified = some v) :
    recorded L ⟨.qualityCheck, s⟩ o = verdicts s v := by
  rw [recorded, if_pos ⟨rfl, by simp [SkipsQc, hat.terminal, hat.error, hquiz]⟩, hpass]

theorem recorded_of_failure {s : GraphState} (hpass : verificationPass L s o.verified = none) :
    recorded L ⟨.qualityCheck, s⟩ o = [] := by
  unfold recorded
  split_ifs
  · rw [hpass]
  · rfl

theorem recorded_of_ne (h : c.node ≠ .qualityCheck) : recorded L c o = [] :=
  if_neg fun hboth => h hboth.1

theorem ledgered_qualityCheck (h : AtQualityCheck s) (hledger : Ledgered log .qualityCheck s)
    (hids : DistinctIds (s.validatedQuestions.getD []))
    (hreports : ∀ v, verificationPass L s o.verified = some v → ReportsEach s v)
    (hs : qualityCheckNode L s o = some s') :
    Ledgered (log ++ recorded L ⟨.qualityCheck, s⟩ o) (routeAfterQualityCheck s') s' := by
  rcases qualityCheck_next h hs with ⟨-, hnext, rfl⟩ | ⟨hquiz, det, hdet,
    ⟨hpass, rfl, hnext | ⟨hnext, -⟩⟩ |
    ⟨v, r, routing, passed, hpass, hvisit, rfl, hnext | ⟨hnext, -, -⟩⟩⟩
  · rw [hnext]
    trivial
  · rw [hnext]
    trivial
  · rw [hnext, recorded_of_failure hpass, List.append_nil]
    exact ⟨hledger.1.afterInfraFailure, hledger.2.part, hledger.2.others⟩
  · rw [hnext]
    trivial
  · rw [hnext, recorded_of_visit hquiz h hpass]
    intro _
    have hrecord := (visit_of_result h hdet hpass hvisit).ledger hledger.1 hledger.2 hids
      (hreports v hpass)
    rwa [current_of_validated (by exact hquiz)]

theorem ledgered_kept (h : Ledgered log c.node c.state) (hids : IdsHold L c o)
    (hreports : RepliesReport L c o) : KeptBy L (Ledgered (log ++ recorded L c o)) c o where
  generator {s'} hnode hat hs := by
    rw [recorded_of_ne (by rw [hnode]; decide), List.append_nil]
    rw [hnode] at h
    exact ledgered_generator hat h (hids.patches hnode) (hids.regenerated hnode) hs
  validate {s'} hnode hat hs := by
    rw [recorded_of_ne (by rw [hnode]; decide), List.append_nil]
    rw [hnode] at h
    exact ledgered_validate hat h hs
  qualityCheck {s'} hnode hat hs := by
    obtain ⟨node, s⟩ := c
    subst hnode
    exact ledgered_qualityCheck hat h (hids.distinct rfl) (hreports rfl) hs

/-! ## Runs -/

/-- A run with the verdicts that it has got. -/
structure Run where
  config : Config
  log : List Verdict

/-- One step, with its verdicts. -/
def stepVerified (L : Library) (run : Run) (e : Event) : Option Run :=
  (step L run.config e).map fun c => ⟨c, run.log ++ recorded L run.config e.outcome⟩

/-- A run starts with no verdict. -/
def FreshRun (run : Run) : Prop := Fresh run.config ∧ run.log = []

/-- Every step of a run meets what is asked of its replies. -/
def Allowed (L : Library) (run : Run) (e : Event) : Prop :=
  RepliesReport L run.config e.outcome ∧ IdsHold L run.config e.outcome

/-- **The record is right at every step of a run.** -/
theorem ledgered_of_reachable {run : Run}
    (hreached : Runs.Reachable (stepVerified L) (Allowed L) FreshRun run) :
    Holds (Ledgered run.log) run.config := by
  refine hreached.invariant (fun run hfresh => (ledgered_law run.log).fresh hfresh.1) ?_
  intro run e run' h hallowed hstep
  obtain ⟨c', hc', rfl⟩ := Option.map_eq_some_iff.1 hstep
  refine (ledgered_law _).step h.1 (fun hnode => ?_) (fun hentry => ?_) hc'
  · rw [recorded_of_ne (by rcases hnode with hnode | hnode <;> rw [hnode] <;> decide),
      List.append_nil]
    exact h.2
  · have hnode := h.2
    rw [resolved_of_ne hentry] at hnode
    exact ledgered_kept hnode hallowed.2 hallowed.1

/-- **A quiz that passes has only verified questions.** -/
theorem passed_verified {run : Run}
    (hreached : Runs.Reachable (stepVerified L) (Allowed L) FreshRun run)
    (hnode : run.config.node = .qualityCheck) (hallowed : Allowed L run ⟨o, false⟩)
    (hs : qualityCheckNode L run.config.state o = some s') (hpassed : s'.qcPassed = true)
    {q : Question} (hq : q ∈ s'.validatedQuestions.getD []) :
    VerifiedIn (run.log ++ recorded L run.config o) q := by
  have hholds := ledgered_of_reachable hreached
  have hresolved : run.config.resolved = .qualityCheck := by
    rw [resolved_of_ne (by rw [hnode]; decide), hnode]
  rw [Holds, hresolved] at hholds
  obtain ⟨hat, hrecord, hfixed⟩ := hholds
  have hids := hallowed.2.distinct hnode
  obtain ⟨⟨node, s⟩, log⟩ := run
  subst hnode
  rcases qualityCheck_next hat hs with ⟨hempty, -, rfl⟩ | ⟨hquiz, det, hdet, ⟨-, rfl, -⟩ |
    ⟨v, r, routing, passed, hpass, hvisit, rfl, -⟩⟩
  · rw [show s.validatedQuestions.getD [] = [] from hempty] at hq
    cases hq
  · cases hpassed
  · have hvisited := visit_of_result hat hdet hpass hvisit
    rw [recorded_of_visit hquiz hat hpass]
    refine hvisited.verified hrecord.traced hids hfixed.part (hallowed.1 rfl v hpass)
      (hrecord.othersVerified hfixed hids) hq fun check hcheck hcat _ => ?_
    have hdeliverable : isQuizQcDeliverable r = some true :=
      hvisited.deliverable.trans (congrArg some hpassed)
    exact passed_of_deliverable hdeliverable hcheck hcat

/-! ### A patch of the question at fault, and one of another -/

instance (s : GraphState) (v : Verification) : Decidable (ReportsEach s v) :=
  inferInstanceAs (Decidable (List.Perm _ _))

instance (L : Library) (c : Config) (o : Outcome) : Decidable (RepliesReport L c o) :=
  decidable_of_iff (c.node = .qualityCheck →
      ∀ v ∈ verificationPass L c.state o.verified, ReportsEach c.state v) Iff.rfl

/-- Only the generator and the quality check take replies. -/
theorem Allowed.elsewhere {run : Run} {e : Event} (h : run.config.node ≠ .quizGenerator)
    (h' : run.config.node ≠ .qualityCheck) : Allowed L run e :=
  ⟨fun hnode => absurd hnode h', ⟨fun hnode => absurd hnode h, fun hnode => absurd hnode h,
    fun hnode => absurd hnode h'⟩⟩

theorem Allowed.check {run : Run} {e : Event} (hnode : run.config.node = .qualityCheck)
    (hreports : RepliesReport L run.config e.outcome)
    (hids : DistinctIds (run.config.state.validatedQuestions.getD [])) : Allowed L run e := by
  refine ⟨hreports, fun hgenerator => ?_, fun hgenerator => ?_, fun _ => hids⟩
  all_goals
    rw [hnode] at hgenerator
    cases hgenerator

/-- A new quiz that is made while nothing is frozen. -/
theorem Allowed.make {run : Run} {e : Event} (hnode : run.config.node = .quizGenerator)
    (hmode : run.config.state.qcRetryMode = .none) (hfrozen : frozenIdSet run.config.state = []) :
    Allowed L run e := by
  refine ⟨fun hcheck => ?_, fun _ text patches _ hpatch => ?_,
    fun _ _ text parsed _ _ q _ hq => ?_, fun hcheck => ?_⟩
  · rw [hnode] at hcheck
    cases hcheck
  · rw [hmode] at hpatch
    simp at hpatch
  · rw [hfrozen] at hq
    cases hq
  · rw [hnode] at hcheck
    cases hcheck

/-- A patch that names a target. -/
theorem Allowed.patch {run : Run} {items : List Item} {patches : List Question}
    (hnode : run.config.node = .quizGenerator)
    (hmode : run.config.state.qcRetryMode = .questionPatch)
    (hreads : normalizeParsedItems L (generating items).outcome.freshId (items.map some) =
      .ok patches)
    (hnames : ∃ qid ∈ existingQuestionIds patches,
      qid ∈ orderedTargets run.config.state.current run.config.state.qcReverifyQuestionIds) :
    Allowed L run (generating items) := by
  refine ⟨fun hcheck => ?_, fun _ text read hread _ => ?_, fun _ hmade => ?_, fun hcheck => ?_⟩
  · rw [hnode] at hcheck
    cases hcheck
  · obtain ⟨htext, items', rfl, hparsed⟩ := hread
    cases htext
    rw [hreads] at hparsed
    cases hparsed
    obtain ⟨qid, hqid, htarget⟩ := hnames
    exact .inr ⟨List.ne_nil_of_mem htarget, .inl ⟨qid, hqid, htarget⟩⟩
  · rw [hmode] at hmade
    simp at hmade
  · rw [hnode] at hcheck
    cases hcheck

/-- A quiz whose third question is answered wrongly. -/
def threeItems : List Item :=
  [itemFor "q1" "What do plants take in?" "A", itemFor "q2" "What do cells burn?" "A",
    itemFor "q3" "What do leaves give?" "B"]

def wrongReply : Reply :=
  replyWith [resultFor "q1" true true, resultFor "q2" true true, resultFor "q3" false true] "none"

/-- What is answered when the third question is asked about again. -/
def thirdReply : Event := verifying (replyWith [resultFor "q3" true true] "none")

theorem patched_verified :
    ∃ (run : Run) (s' : GraphState), (s'.qcPassed = true ∧
        (s'.validatedQuestions.getD []).map Question.id = ["q1", "q2", "q3"] ∧
        Runs.Reachable (stepVerified plainLibrary) (Allowed plainLibrary) FreshRun run) ∧
      ∀ q ∈ s'.validatedQuestions.getD [],
        VerifiedIn (run.log ++ recorded plainLibrary run.config thirdReply.outcome) q := by
  have hstart : Runs.Reachable (stepVerified plainLibrary) (Allowed plainLibrary) FreshRun
      ⟨⟨.entryRouter, { questionCount := 3 }⟩, []⟩ := .init ⟨⟨.generate, [], 3, rfl⟩, rfl⟩
  have hentered := hstart.next (i := {}) (.elsewhere (by decide) (by decide)) rfl
  have hloaded := hentered.next (i := {}) (.elsewhere (by decide) (by decide)) rfl
  have hmade := hloaded.next (i := generating threeItems) (.make rfl rfl rfl) rfl
  have hvalid := hmade.next (i := {}) (.elsewhere (by decide) (by decide)) rfl
  have hchecked := hvalid.next (i := verifying wrongReply) (.check rfl (by decide) (by decide)) rfl
  have hpatched := hchecked.next (i := generating [itemFor "q3" "What do cells breathe?" "A"])
    (.patch rfl rfl rfl ⟨"q3", by decide, by decide⟩) rfl
  have hagain := hpatched.next (i := {}) (.elsewhere (by decide) (by decide)) rfl
  refine ⟨_, _, ⟨?_, ?_, hagain⟩, fun q hq =>
    passed_verified hagain rfl (.check rfl (by decide) (by decide)) rfl rfl hq⟩
  · rfl
  · rfl

/-- Two patches come back for the third question, and they are of the others: those are changed,
and the third is asked about. -/
def toChangedCheck : List Event :=
  [{}, {}, generating threeItems, {}, verifying wrongReply,
    generating [itemFor "q1" "What do stones eat?" "B", itemFor "q2" "What do stones drink?" "C"],
    {}]

theorem changed_unverified :
    ∃ (run : Run) (s' : GraphState), Runs.Reachable (stepVerified plainLibrary)
        (fun run e => RepliesReport plainLibrary run.config e.outcome) FreshRun run ∧
      run.config.node = .qualityCheck ∧
      RepliesReport plainLibrary run.config thirdReply.outcome ∧
      qualityCheckNode plainLibrary run.config.state thirdReply.outcome = some s' ∧
      s'.qcPassed = true ∧
      ∃ q ∈ s'.validatedQuestions.getD [],
        ¬ VerifiedIn (run.log ++ recorded plainLibrary run.config thirdReply.outcome) q := by
  have hrun : Runs.run (fun run e => if RepliesReport plainLibrary run.config e.outcome then
      stepVerified plainLibrary run e else none) ⟨⟨.entryRouter, { questionCount := 3 }⟩, []⟩
      toChangedCheck = some _ := rfl
  have hreached : Runs.Reachable (stepVerified plainLibrary)
      (fun run e => RepliesReport plainLibrary run.config e.outcome) FreshRun _ :=
    Runs.reachable_of_checked ⟨⟨.generate, [], 3, rfl⟩, rfl⟩ hrun
  exact ⟨_, _, hreached, rfl, by decide, rfl, rfl, _, List.mem_cons_self, by decide⟩

end StudyAgent.Quiz
