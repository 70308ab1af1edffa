import StudyAgent.Quiz.GraphRuns

/-!
# What a visit of the quality check targets

The checks of a result are those of the reply, beside the earlier ones outside of what was asked.
Which earlier ones are kept is decided by the ids that are verified again, so a check of a
question that is gone is kept for ever.

Main results:

* `Visit.mem_checks_iff` — a check of a result that says something of a question is a merged one.
* `targets_live_iff` — **the checks of a visit name live questions, and its targets are live, iff
  the reply and the checks that are kept do**.
-/

namespace StudyAgent.Quiz

open Py

variable {L : Library} {s s' : GraphState} {c c' : Config} {o : Outcome}

/-! ## The checks of a visit -/

/-- The checks of the last result. -/
def priorChecks (s : GraphState) : List Check := (s.qcResult.map StoredResult.checks).getD []

/-- The ids whose earlier checks are replaced, where earlier checks are kept. -/
def mergeScope (s : GraphState) : Option (List String) :=
  if isTargeted s then some s.qcReverifyQuestionIds
  else if frozenIdSet s ≠ [] ∧ s.qcResult ≠ none then some (reverifyForMerge s)
  else none

/-- The earlier checks that are kept beside those of a reply. -/
def keptChecks (s : GraphState) : List Check :=
  match mergeScope s with
  | none => []
  | some ids => (priorChecks s).filter fun c => !checkTargetsReverify c (strippedIds ids)

theorem mergedChecks_eq (s : GraphState) (new : List Check) :
    mergedChecks s new = match mergeScope s with
      | none => new
      | some ids => mergeTargetedQcChecks (priorChecks s) new ids := by
  rw [mergedChecks, mergeScope]
  split_ifs
  · rfl
  · rfl
  · rfl

theorem mem_keptChecks {check : Check} (h : check ∈ keptChecks s) : check ∈ priorChecks s := by
  unfold keptChecks at h
  cases hscope : mergeScope s with
  | none =>
    rw [hscope] at h
    cases h
  | some ids =>
    rw [hscope] at h
    exact (List.mem_filter.1 h).1

/-- A merged check is a new one or one that is kept. -/
theorem mem_mergedChecks {new : List Check} {check : Check} (h : check ∈ mergedChecks s new) :
    check ∈ new ∨ check ∈ keptChecks s := by
  rw [mergedChecks_eq] at h
  unfold keptChecks
  cases hscope : mergeScope s with
  | none =>
    rw [hscope] at h
    exact .inl h
  | some ids =>
    rw [hscope] at h
    refine (mem_mergeTargetedQcChecks h).imp_right fun hkept => ?_
    exact List.mem_filter.2 ⟨hkept.1, by simp [hkept.2]⟩

/-- Every new or kept check leaves one of its key. -/
theorem exists_mem_mergedChecks {new : List Check} {check : Check}
    (h : check ∈ new ∨ check ∈ keptChecks s) :
    ∃ d ∈ mergedChecks s new, dedupKey d = dedupKey check := by
  rw [mergedChecks_eq]
  unfold keptChecks at h
  cases hscope : mergeScope s with
  | none =>
    rw [hscope] at h
    rcases h with hnew | hkept
    · exact ⟨check, hnew, rfl⟩
    · cases hkept
  | some ids =>
    rw [hscope] at h
    refine exists_mem_mergeTargetedQcChecks ids (h.imp_right fun hkept => ?_)
    exact ⟨(List.mem_filter.1 hkept).1, by simpa using (List.mem_filter.1 hkept).2⟩

/-- A new check survives if no other new one has its key. -/
theorem mem_mergedChecks_of_new {new : List Check} {check : Check} (h : check ∈ new)
    (hkey : ∀ d ∈ new, dedupKey d = dedupKey check → d = check) : check ∈ mergedChecks s new := by
  rw [mergedChecks_eq]
  cases mergeScope s with
  | none => exact h
  | some ids => exact mem_mergeTargetedQcChecks_of_new h hkey

/-- Checks as results carry them: only those of questions name one, and they are never taken for
deterministic ones. -/
def Traced (checks : List Check) : Prop :=
  ∀ check ∈ checks, (check.question ≠ "" → check.category ∈ PER_QUESTION_CATEGORIES) ∧
    (check.category ∈ PER_QUESTION_CATEGORIES → startsWith check.id "det_" = false)

theorem traced_normalized (obj : Reply) : Traced (normalizeQuizQcResponse L obj).checks := by
  intro check hcheck
  rcases List.mem_append.1 hcheck with hcheck | hcheck
  · obtain ⟨result, -, hmem⟩ := mem_expandQuestionResultsToChecks.1 hcheck
    exact ⟨fun _ => (mem_resultChecks hmem).2, fun _ => not_startsWith_det hmem⟩
  · obtain ⟨hname, hcat⟩ := mem_syntheticWide hcheck
    refine ⟨fun hquestion => absurd ?_ hquestion, fun h => absurd h hcat⟩
    rw [Check.question, hname]
    rfl

/-- What a visit makes of an accepted reply to a sound quiz. -/
structure Visit (L : Library) (s : GraphState) (o : Outcome) (v : Verification) (r : QcResult)
    (routing : Routing) (passed : Bool) : Prop where
  accepted : verificationPass L s o.verified = some v
  normalized : ∃ obj, v = normalizeQuizQcResponse L obj
  checks : r.checks = builtChecks s v
    [detQuestionCount (s.validatedQuestions.getD []) s.questionCount]
  routed : classifyQuizRetryRouting L r (s.validatedQuestions.getD []) = some routing
  deliverable : isQuizQcDeliverable r = some passed

/-- The visits of the quality check with an accepted reply. -/
theorem visit_of_result (h : AtQualityCheck s) {det : List Check} {v : Verification} {r : QcResult}
    {routing : Routing} {passed : Bool}
    (hdet : runDeterministicQuizChecks L (s.validatedQuestions.getD []) s.questionCount = some det)
    (hpass : verificationPass L s o.verified = some v)
    (hvisit : visitResult L s v det = some (r, routing, passed)) :
    Visit L s o v r routing passed := by
  obtain ⟨hbuild, hroute, hdeliverable⟩ := visitResult_eq_some hvisit
  rw [h.sound.checks] at hdet
  cases hdet
  refine ⟨hpass, ?_, (buildFinalQuizQcResult_eq_some hbuild).1, hroute, hdeliverable⟩
  cases hreply : o.verified with
  | failed =>
    rw [hreply] at hpass
    cases hpass
  | content parsed =>
    rw [hreply] at hpass
    obtain ⟨obj, -, -, rfl⟩ := parseQuizQcResponse_eq_some hpass
    exact ⟨obj, rfl⟩

section

variable {v : Verification} {r : QcResult} {routing : Routing} {passed : Bool}

/-- A check of a result that says something of a question is a merged one, and the other way
round. -/
theorem Visit.mem_checks_iff (h : Visit L s o v r routing passed) (htraced : Traced (priorChecks s))
    {check : Check} (hcat : check.category ∈ PER_QUESTION_CATEGORIES) :
    check ∈ r.checks ↔ check ∈ mergedChecks s v.checks := by
  obtain ⟨obj, rfl⟩ := h.normalized
  rw [h.checks, builtChecks, List.mem_append, List.mem_filter, List.mem_singleton]
  constructor
  · rintro (rfl | ⟨hmem, -⟩)
    · simp [detQuestionCount, PER_QUESTION_CATEGORIES] at hcat
    · exact hmem
  · intro hmem
    refine .inr ⟨hmem, ?_⟩
    have hdet : startsWith check.id "det_" = false := by
      rcases mem_mergedChecks hmem with hnew | hkept
      · exact (traced_normalized obj check hnew).2 hcat
      · exact (htraced check (mem_keptChecks hkept)).2 hcat
    have hcount : startsWith "det_question_count" "det_" = true := by decide
    simp only [List.map_cons, List.map_nil, List.mem_singleton, decide_eq_true_eq]
    intro hid
    rw [hid, show (detQuestionCount (s.validatedQuestions.getD []) s.questionCount).id =
      "det_question_count" from rfl, hcount] at hdet
    cases hdet

/-- **Results carry traced checks.** -/
theorem Visit.traced (h : Visit L s o v r routing passed) (htraced : Traced (priorChecks s)) :
    Traced r.checks := by
  obtain ⟨obj, rfl⟩ := h.normalized
  intro check hcheck
  rw [h.checks, builtChecks] at hcheck
  rcases List.mem_append.1 hcheck with hcheck | hcheck
  · rw [List.mem_singleton.1 hcheck]
    refine ⟨fun hquestion => absurd ?_ hquestion, fun hcat => ?_⟩
    · change strip "" = ""
      decide
    · simp [detQuestionCount, PER_QUESTION_CATEGORIES] at hcat
  · rcases mem_mergedChecks (List.mem_filter.1 hcheck).1 with hnew | hkept
    · exact traced_normalized obj check hnew
    · exact htraced check (mem_keptChecks hkept)

/-! ## Live targets -/

/-- The ids of the quiz that is checked. -/
def liveIds (s : GraphState) : List String := existingQuestionIds (s.validatedQuestions.getD [])

/-- Every check that names a question names one of the quiz, and the routing has what its mode
acts on, there. -/
structure TargetsLive (s : GraphState) (r : QcResult) (routing : Routing) : Prop where
  checks : ∀ check ∈ r.checks, check.question ≠ "" → check.question ∈ liveIds s
  fits : ModeFits routing
  targets : ∀ qid ∈ routing.failedQuestionIds, qid ∈ liveIds s

/-- The reply reports on questions of the quiz only, and so do the earlier checks that are kept
beside it. -/
structure NamesLive (s : GraphState) (v : Verification) : Prop where
  reported : ∀ qid ∈ v.reportedIds, qid ≠ "" → qid ∈ liveIds s
  kept : ∀ check ∈ keptChecks s, check.question ≠ "" → check.question ∈ liveIds s

/-- Checks of one key name one question. -/
theorem question_eq_of_dedupKey {a b : Check} (h : dedupKey a = dedupKey b)
    (hcat : b.category ∈ PER_QUESTION_CATEGORIES) :
    a.category ∈ PER_QUESTION_CATEGORIES ∧ a.question = b.question := by
  have hcategory : a.category = b.category := by
    have hfst := congrArg Prod.fst h
    unfold dedupKey at hfst
    split_ifs at hfst
    all_goals exact hfst
  rw [dedupKey, dedupKey, hcategory, if_pos hcat, if_pos hcat, Prod.mk.injEq] at h
  exact ⟨hcategory ▸ hcat, by rw [Check.question, Check.question, h.2]⟩

/-- **The targets of a visit are live iff what it is told is.** -/
theorem Visit.targetsLive_iff (h : Visit L s o v r routing passed)
    (htraced : Traced (priorChecks s)) : TargetsLive s r routing ↔ NamesLive s v := by
  obtain ⟨obj, rfl⟩ := h.normalized
  constructor
  · intro hlive
    have hmerged : ∀ check, check ∈ (normalizeQuizQcResponse L obj).checks ∨ check ∈ keptChecks s →
        check.category ∈ PER_QUESTION_CATEGORIES → check.question ≠ "" →
          check.question ∈ liveIds s := by
      intro check hcheck hcat hquestion
      obtain ⟨d, hd, hkey⟩ := exists_mem_mergedChecks hcheck
      obtain ⟨hdcat, hdquestion⟩ := question_eq_of_dedupKey hkey hcat
      rw [← hdquestion] at hquestion ⊢
      exact hlive.checks d ((h.mem_checks_iff htraced hdcat).2 hd) hquestion
    refine ⟨fun qid hqid hne => ?_, fun check hcheck hquestion => ?_⟩
    · obtain ⟨result, hresult, rfl⟩ := List.mem_map.1 hqid
      obtain ⟨check, hcheck⟩ : ∃ check, check ∈ result.checks := ⟨_, List.mem_cons_self⟩
      rw [← question_of_mem_checks hcheck] at hne ⊢
      exact hmerged check (.inl (mem_normalized_of_result hresult hcheck))
        (mem_resultChecks hcheck).2 hne
    · exact hmerged check (.inr hcheck) ((htraced check (mem_keptChecks hcheck)).1 hquestion)
        hquestion
  · intro hlive
    have hchecks : ∀ check ∈ r.checks, check.question ≠ "" → check.question ∈ liveIds s := by
      intro check hcheck hquestion
      have hcat := (h.traced htraced check hcheck).1 hquestion
      rcases mem_mergedChecks ((h.mem_checks_iff htraced hcat).1 hcheck) with hnew | hkept
      · obtain ⟨result, hresult, hmem⟩ := mem_normalized_perQuestion hnew hcat
        rw [question_of_mem_checks hmem] at hquestion ⊢
        exact hlive.reported _ (List.mem_map_of_mem hresult) hquestion
      · exact hlive.kept check hkept hquestion
    refine ⟨hchecks, classify_modeFits h.routed, fun qid hqid => ?_⟩
    obtain ⟨hne, check, hcheck, -, -, rfl⟩ := (classify_failedQuestionIds h.routed).1 hqid
    exact hchecks check hcheck hne

end

/-! ## Runs -/

/-- The last result carries traced checks wherever a quiz is worked on. -/
def TracesChecks (node : Node) (s : GraphState) : Prop :=
  node ∈ loopNodes → Traced (priorChecks s)

theorem tracesChecks_law : Law TracesChecks where
  elsewhere {node s} hnode hmem := by
    have hsub : loopNodes ⊆ quizNodes := by decide
    exact absurd (hsub hmem) hnode
  marks _ h := h
  untouched h _ := by
    rw [priorChecks, h.result]
    exact nofun
  again _ _ _ _ h _ := h (by decide)

theorem tracesChecks_kept (h : TracesChecks c.node c.state) : KeptBy L TracesChecks c o where
  generator {s'} hnode hat hs hloop := by
    have hprior : Traced (priorChecks c.state) := h (by rw [hnode]; decide)
    rcases quizGenerator_cases hs with rfl | ⟨e, raw, rfl⟩ | ⟨-, -, -, -, rfl⟩ |
      ⟨-, -, -, rfl⟩ | ⟨-, -, retry, -, rfl⟩ | ⟨-, text, parsed, -, -, rfl⟩
    · exact nofun
    all_goals exact hprior
  validate {s'} hnode hat hs hloop := by
    have hprior : Traced (priorChecks c.state) := h (by rw [hnode]; decide)
    rcases validate_next hat hs with ⟨-, -, rfl⟩ |
      ⟨-, ⟨-, -, rfl⟩ | ⟨-, det, rfl, ⟨hnext, -⟩ | ⟨-, hlimit⟩⟩⟩
    · exact hprior
    · exact hprior
    · rw [hnext] at hloop
      exact absurd hloop (by decide)
    · rw [afterStructuralFailure_retry _ _ det hlimit]
      exact hprior
  qualityCheck {s'} hnode hat hs hloop := by
    have hprior : Traced (priorChecks c.state) := h (by rw [hnode]; decide)
    rcases qualityCheck_next hat hs with ⟨-, hnext, -⟩ | ⟨-, det, hdet, ⟨-, rfl, -⟩ |
      ⟨v, r, routing, passed, hpass, hvisit, rfl, -⟩⟩
    · rw [hnext] at hloop
      exact absurd hloop (by decide)
    · exact nofun
    · exact (visit_of_result hat hdet hpass hvisit).traced hprior

/-- **The targets of every visit of a run are live iff what the visit is told is.** -/
theorem targets_live_iff
    (hreached : Runs.Reachable (step L) (fun _ _ => True) Fresh c) (hnode : c.node = .qualityCheck)
    {det : List Check} {v : Verification} {r : QcResult} {routing : Routing} {passed : Bool}
    (hdet : runDeterministicQuizChecks L (c.state.validatedQuestions.getD [])
      c.state.questionCount =
      some det)
    (hpass : verificationPass L c.state o.verified = some v)
    (hvisit : visitResult L c.state v det = some (r, routing, passed)) :
    TargetsLive c.state r routing ↔ NamesLive c.state v := by
  have hholds : Holds TracesChecks c :=
    hreached.invariant (fun _ => tracesChecks_law.fresh) fun c e c' h _ hstep =>
      tracesChecks_law.step h.1 (fun _ => h.2)
        (fun hentry => tracesChecks_kept (by rw [← resolved_of_ne hentry]; exact h.2)) hstep
  have hresolved : c.resolved = .qualityCheck := by
    rw [resolved_of_ne (by rw [hnode]; decide), hnode]
  rw [Holds, hresolved] at hholds
  exact (visit_of_result hholds.1 hdet hpass hvisit).targetsLive_iff (hholds.2 (by decide))

/-- A reply that finds fault with the second of two questions. -/
def faultyReply : Reply := replyWith [resultFor "q1" true true, resultFor "q2" true false] "none"

/-- The way of a first quiz to its check. -/
def toFirstCheck : List Event :=
  [{}, {}, generating [itemFor "q1" "What do plants take in?" "A",
    itemFor "q2" "What do cells burn?" "A"], {}]

theorem faulty_question_live :
    ∃ c v r routing, (Runs.Reachable (step plainLibrary) (fun _ _ => True) Fresh c ∧
        verificationPass plainLibrary c.state (.content (some faultyReply)) = some v ∧
        routing.mode = .questionPatch ∧ routing.failedQuestionIds = ["q2"]) ∧
      TargetsLive c.state r routing := by
  have hrun : generated plainLibrary 2 toFirstCheck = some _ := rfl
  exact ⟨_, _, _, _, ⟨reachable_of_generated hrun, rfl, rfl, rfl⟩,
    (targets_live_iff (reachable_of_generated hrun) rfl
      (o := (verifying faultyReply).outcome) rfl rfl rfl).2 ⟨by decide, by decide⟩⟩

/-- The first quiz is withheld for its risk, and a new one is made in its place. -/
def toSecondCheck : List Event :=
  toFirstCheck ++ [verifying alarmedReply,
    generating [itemFor "q3" "What do roots take in?" "A", itemFor "q4" "What do leaves give?" "A"],
    {}]

/-- The result of the new quiz still says something of the questions of the first. -/
theorem vanished_questions_kept :
    ∃ c v det r routing passed, Runs.Reachable (step plainLibrary) (fun _ _ => True) Fresh c ∧
      c.node = .qualityCheck ∧
      runDeterministicQuizChecks plainLibrary (c.state.validatedQuestions.getD [])
        c.state.questionCount = some det ∧
      verificationPass plainLibrary c.state (.content (some (replyWith
        [resultFor "q3" true true, resultFor "q4" true true] "none"))) = some v ∧
      visitResult plainLibrary c.state v det = some (r, routing, passed) ∧
      ¬ TargetsLive c.state r routing := by
  have hrun : generated plainLibrary 2 toSecondCheck = some _ := rfl
  refine ⟨_, _, _, _, _, _, reachable_of_generated hrun, rfl, rfl, rfl, rfl, fun hlive => ?_⟩
  have hchecks := hlive.checks
  revert hchecks
  decide

end StudyAgent.Quiz
