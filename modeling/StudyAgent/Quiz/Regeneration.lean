import StudyAgent.Quiz.Patches
import StudyAgent.Quiz.Routing

/-!
# Regenerating a quiz

A full regeneration takes the questions that are to be rewritten from the new output and keeps
the others, by their ids or, where the new ids are all fresh, by position.  The module compares
what is kept with what passed, and what is routed with what is not delivered.

Main results:

* `mem_regenerated_iff` — **which questions a regeneration keeps**.
* `withheld_actionable_iff` — **when a result that is not delivered is acted on** and the
  questions that passed survive.
-/

namespace StudyAgent.Quiz

open Py

/-! ## Merging by position -/

/-- A new question in the place of an earlier one. -/
def Question.inPlaceOf (q previous : Question) : Question :=
  { q.withId previous.id with orderIndex := previous.orderIndex }

/-- `_merge_full_regeneration_positional`. -/
def mergeFullRegenerationPositional (newQuestions previousQuestions : List Question)
    (rewriteIds : List String) : Option (List Question) :=
  let sortedPrevious := sortedByOrder previousQuestions
  let sortedNew := sortedByOrder newQuestions
  if sortedPrevious = [] ∨ sortedNew = [] then none
  else if sortedNew.length = sortedPrevious.length then
    some (reindexQuestions (sortedPrevious.zipWith
      (fun previous q => if previous.id ∈ rewriteIds then q.inPlaceOf previous else previous)
      sortedNew))
  else if sortedNew.length = rewriteIds.dedup.length then
    let rewriteOrdered := (sortedPrevious.map Question.id).filter (· ∈ rewriteIds)
    some (reindexQuestions ((rewriteOrdered.zip sortedNew).foldl
      (fun merged p => merged.modify (merged.findIdx fun q => q.id = p.1) p.2.inPlaceOf)
      sortedPrevious))
  else none

/-- The ids of two quizzes, in the order in which they first come. -/
def orderedIds (previousQuestions newQuestions : List Question) : List String :=
  (existingQuestionIds previousQuestions ++ existingQuestionIds newQuestions).eraseDups

/-- `merge_full_regeneration_preserving_passing`. -/
def mergeFullRegenerationPreservingPassing (newQuestions previousQuestions : List Question)
    (rewriteQuestionIds : List String) : List Question :=
  let rewriteIds := strippedIds rewriteQuestionIds
  if ∀ qid ∈ existingQuestionIds newQuestions, qid ∉ existingQuestionIds previousQuestions then
    match mergeFullRegenerationPositional newQuestions previousQuestions rewriteIds with
    | some positional => positional
    | none => bindPatchesByOrderIndex newQuestions previousQuestions
  else
    reindexQuestions ((orderedIds previousQuestions newQuestions).filterMap fun qid =>
      if qid ∈ rewriteIds then (lastWithId newQuestions qid).or (lastWithId previousQuestions qid)
      else (lastWithId previousQuestions qid).or (lastWithId newQuestions qid))

/-- What `quiz_generator_node` makes of its parsed output. -/
def regenerated (mode : RetryMode) (previousQuestions : List Question)
    (rewriteQuestionIds : List String) (parsed : List Question) : List Question :=
  if mode = .fullRegeneration ∧ previousQuestions ≠ [] ∧ rewriteQuestionIds ≠ [] then
    mergeFullRegenerationPreservingPassing parsed previousQuestions rewriteQuestionIds
  else parsed

/-! ## What is kept -/

/-- The question is in a quiz, perhaps under another number. -/
def KeptIn (q : Question) (questions : List Question) : Prop := ∃ r ∈ questions, r.bare = q.bare

theorem keptIn_reindexQuestions {q : Question} {questions : List Question} :
    KeptIn q (reindexQuestions questions) ↔ KeptIn q questions := by
  have hmap := map_bare_reindexQuestions questions
  have hmem : ∀ l : List Question, KeptIn q l ↔ q.bare ∈ l.map Question.bare := by
    intro l
    rw [KeptIn, List.mem_map]
  rw [hmem, hmem, hmap]

theorem lastWithId_eq_some {questions : List Question} {qid : String} {q : Question}
    (h : lastWithId questions qid = some q) : q ∈ questions ∧ q.id = qid := by
  have hmem := List.mem_of_find?_eq_some h
  exact ⟨List.mem_reverse.1 hmem, by simpa using List.find?_some h⟩

/-- A question that is taken from one of two quizzes for an id has that id. -/
theorem id_of_lastWithId_or {questions others : List Question} {qid : String} {q : Question}
    (h : (lastWithId questions qid).or (lastWithId others qid) = some q) : q.id = qid := by
  rcases Option.or_eq_some_iff.1 h with hq | ⟨-, hq⟩
  · exact (lastWithId_eq_some hq).2
  · exact (lastWithId_eq_some hq).2

theorem exists_lastWithId {questions : List Question} {q : Question} (hq : q ∈ questions) :
    ∃ r, lastWithId questions q.id = some r := by
  rw [← Option.isSome_iff_exists, lastWithId, List.find?_isSome]
  exact ⟨q, List.mem_reverse.2 hq, by simp⟩

theorem mem_orderedIds {previous new : List Question} {qid : String} :
    qid ∈ orderedIds previous new ↔
      qid ∈ existingQuestionIds previous ∨ qid ∈ existingQuestionIds new := by
  rw [orderedIds, List.mem_eraseDups, List.mem_append]

/-- A question that is not to be rewritten keeps its place in a merge by position. -/
theorem keptIn_positional {new previous merged : List Question} {rewriteIds : List String}
    (h : mergeFullRegenerationPositional new previous rewriteIds = some merged) {q : Question}
    (hq : q ∈ previous) (hid : q.id ∉ rewriteIds) : KeptIn q merged := by
  unfold mergeFullRegenerationPositional at h
  dsimp only at h
  have hsorted : q ∈ sortedByOrder previous := mem_sortedByOrder.2 hq
  split_ifs at h with hempty hlength hcount
  · rw [← Option.some.inj h, keptIn_reindexQuestions]
    obtain ⟨i, hi, rfl⟩ := List.mem_iff_getElem.1 hsorted
    refine ⟨_, List.mem_iff_getElem.2 ⟨i, ?_, List.getElem_zipWith⟩, ?_⟩
    · rw [List.length_zipWith]
      omega
    · rw [if_neg hid]
  · rw [← Option.some.inj h, keptIn_reindexQuestions]
    have hfold : ∀ (pairs : List (String × Question)) (merged : List Question),
        (∀ p ∈ pairs, p.1 ∈ rewriteIds) → q ∈ merged →
        q ∈ pairs.foldl (fun merged p =>
          merged.modify (merged.findIdx fun q => q.id = p.1) p.2.inPlaceOf) merged := by
      intro pairs
      induction pairs with
      | nil => exact fun _ _ hmem => hmem
      | cons p pairs ih =>
        intro merged hall hmem
        refine ih _ (fun p' hp' => hall p' (List.mem_cons_of_mem _ hp')) ?_
        obtain ⟨i, hi, rfl⟩ := List.mem_iff_getElem.1 hmem
        refine List.mem_iff_getElem.2 ⟨i, by rwa [List.length_modify], ?_⟩
        rw [List.getElem_modify, if_neg]
        intro hindex
        have hlt : merged.findIdx (fun q => q.id = p.1) < merged.length := by omega
        have hfound := List.findIdx_getElem (w := hlt)
        simp only [hindex, decide_eq_true_eq] at hfound
        exact hid (hfound ▸ hall p List.mem_cons_self)
    refine ⟨q, hfold _ _ (fun p hp => ?_) hsorted, rfl⟩
    have hmem := (List.of_mem_zip hp).1
    simpa using (List.mem_filter.1 hmem).2

/-- Where the ids are all fresh and there is no merge by position, the new output is taken. -/
theorem keptIn_bindPatchesByOrderIndex {new previous : List Question}
    (hlength : new.length ≠ previous.length) {q : Question} :
    KeptIn q (bindPatchesByOrderIndex new previous) ↔ KeptIn q new := by
  unfold bindPatchesByOrderIndex
  dsimp only
  rw [if_pos]
  · simp only [KeptIn, mem_sortedByOrder]
  · rwa [(sortedByOrder_perm new).length_eq, (sortedByOrder_perm previous).length_eq]

/-- What is in a merge by ids, of the questions that are not to be rewritten. -/
theorem keptIn_byId {new previous : List Question} {rewriteIds : List String} {q : Question}
    (hq : q ∈ previous) (hid : q.id ∉ rewriteIds) :
    KeptIn q ((orderedIds previous new).filterMap fun qid =>
      if qid ∈ rewriteIds then (lastWithId new qid).or (lastWithId previous qid)
      else (lastWithId previous qid).or (lastWithId new qid)) ↔
    q.id ≠ "" ∧ (lastWithId previous q.id).map Question.bare = some q.bare := by
  have hpick : ∀ qid r, (if qid ∈ rewriteIds then
      (lastWithId new qid).or (lastWithId previous qid)
      else (lastWithId previous qid).or (lastWithId new qid)) = some r → r.id = qid := by
    intro qid r hr
    split_ifs at hr
    · exact id_of_lastWithId_or hr
    · exact id_of_lastWithId_or hr
  obtain ⟨last, hlast⟩ := exists_lastWithId hq
  constructor
  · rintro ⟨r, hr, hbare⟩
    obtain ⟨qid, hqid, hsome⟩ := List.mem_filterMap.1 hr
    have hrid : r.id = q.id := congrArg Prod.fst hbare
    obtain rfl : qid = q.id := by rw [← hrid, hpick qid r hsome]
    have hne : q.id ≠ "" := by
      rcases mem_orderedIds.1 hqid with hmem | hmem
      · exact (mem_existingQuestionIds.1 hmem).2
      · exact (mem_existingQuestionIds.1 hmem).2
    rw [if_neg hid, hlast, Option.some_or] at hsome
    rw [hlast, Option.some.inj hsome, Option.map_some, hbare]
    exact ⟨hne, rfl⟩
  · rintro ⟨hne, hbare⟩
    rw [hlast, Option.map_some, Option.some.injEq] at hbare
    refine ⟨last, List.mem_filterMap.2 ⟨q.id, ?_, by rw [if_neg hid, hlast, Option.some_or]⟩, hbare⟩
    exact mem_orderedIds.2 (.inl (id_mem_existingQuestionIds hq hne))

/-- When there is a merge by place. -/
theorem mergeFullRegenerationPositional_isSome_iff {previous new : List Question}
    {rewriteIds : List String} :
    (∃ merged, mergeFullRegenerationPositional new previous rewriteIds = some merged) ↔
      previous ≠ [] ∧ new ≠ [] ∧
        (new.length = previous.length ∨ new.length = rewriteIds.dedup.length) := by
  unfold mergeFullRegenerationPositional
  dsimp only
  rw [(sortedByOrder_perm new).length_eq, (sortedByOrder_perm previous).length_eq]
  simp only [sortedByOrder_eq_nil]
  split_ifs with hempty hlength hcount
  · simp only [exists_false, false_iff]
    tauto
  · rw [not_or] at hempty
    exact iff_of_true ⟨_, rfl⟩ ⟨hempty.1, hempty.2, .inl hlength⟩
  · rw [not_or] at hempty
    exact iff_of_true ⟨_, rfl⟩ ⟨hempty.1, hempty.2, .inr hcount⟩
  · simp [hlength, hcount]

/-- Where there is no merge by place, the new quiz is not as long as the one before. -/
theorem length_ne_of_positional {previous new : List Question} {rewriteIds : List String}
    (hprevious : previous ≠ [])
    (h : mergeFullRegenerationPositional new previous rewriteIds = none) :
    new.length ≠ previous.length := by
  intro hlength
  have hnew : new ≠ [] := by
    rintro rfl
    exact hprevious (List.length_eq_zero_iff.1 hlength.symm)
  obtain ⟨merged, hmerged⟩ := mergeFullRegenerationPositional_isSome_iff.2
    ⟨hprevious, hnew, .inl hlength⟩
  rw [h] at hmerged
  cases hmerged

/-- A regeneration keeps a question of the quiz: the new output repeats it, or shares an id with
the quiz, which has no later question of the same id, or is laid over the quiz by position. -/
def RegenerationKeeps (previous : List Question) (rewriteIds : List String)
    (new : List Question) (q : Question) : Prop :=
  if rewriteIds = [] then KeptIn q new
  else if ∀ qid ∈ existingQuestionIds new, qid ∉ existingQuestionIds previous then
    KeptIn q new ∨ new ≠ [] ∧ (new.length = previous.length ∨
      new.length = (strippedIds rewriteIds).dedup.length)
  else q.id ≠ "" ∧ (lastWithId previous q.id).map Question.bare = some q.bare

/-- **Which questions a regeneration keeps.** -/
theorem mem_regenerated_iff {previous new : List Question} {rewriteIds : List String}
    {q : Question} (hq : q ∈ previous) (hid : q.id ∉ strippedIds rewriteIds) :
    KeptIn q (regenerated .fullRegeneration previous rewriteIds new) ↔
      RegenerationKeeps previous rewriteIds new q := by
  have hprevious : previous ≠ [] := List.ne_nil_of_mem hq
  unfold regenerated RegenerationKeeps
  by_cases hrewrite : rewriteIds = []
  · rw [if_neg (by simp [hrewrite]), if_pos hrewrite]
  · rw [if_pos ⟨rfl, hprevious, hrewrite⟩, if_neg hrewrite]
    unfold mergeFullRegenerationPreservingPassing
    dsimp only
    split_ifs with hdisjoint
    · have hplaces : (∃ merged, mergeFullRegenerationPositional new previous
          (strippedIds rewriteIds) = some merged) ↔ new ≠ [] ∧ (new.length = previous.length ∨
            new.length = (strippedIds rewriteIds).dedup.length) :=
        mergeFullRegenerationPositional_isSome_iff.trans (and_iff_right hprevious)
      cases hpositional : mergeFullRegenerationPositional new previous
        (strippedIds rewriteIds) with
      | some merged =>
        rw [hpositional] at hplaces
        exact iff_of_true (keptIn_positional hpositional hq hid) (.inr (hplaces.1 ⟨merged, rfl⟩))
      | none =>
        have hnot : ¬ (new ≠ [] ∧ (new.length = previous.length ∨
            new.length = (strippedIds rewriteIds).dedup.length)) := by
          rw [← hplaces, hpositional]
          rintro ⟨merged, hmerged⟩
          cases hmerged
        rw [keptIn_bindPatchesByOrderIndex (length_ne_of_positional hprevious hpositional)]
        exact ⟨.inl, fun h => h.resolve_right hnot⟩
    · rw [keptIn_reindexQuestions, keptIn_byId hq hid]

/-! ## Where the questions come from -/

theorem id_inPlaceOf (q previous : Question) : (q.inPlaceOf previous).id = previous.id :=
  strip_strip _

/-- A merge by position leaves earlier questions, and new ones under ids to be rewritten. -/
theorem origin_positional {new previous merged : List Question} {rewriteIds : List String}
    (h : mergeFullRegenerationPositional new previous rewriteIds = some merged) {q : Question}
    (hq : q ∈ merged) (hid : q.id ∉ rewriteIds) : KeptIn q previous := by
  unfold mergeFullRegenerationPositional at h
  dsimp only at h
  split_ifs at h with hempty hlength hcount
  · rw [← Option.some.inj h] at hq
    obtain ⟨r, hr, hbare⟩ := keptIn_reindexQuestions.1 ⟨q, hq, rfl⟩
    obtain ⟨i, hi, rfl⟩ := List.mem_iff_getElem.1 hr
    rw [List.getElem_zipWith] at hbare
    split_ifs at hbare with hrewrite
    · have hqid : q.id = _ := (congrArg Prod.fst hbare).symm
      rw [show (Question.bare _).1 = _ from id_inPlaceOf _ _] at hqid
      exact absurd (hqid ▸ hrewrite) hid
    · exact ⟨_, mem_sortedByOrder.1 (List.getElem_mem _), hbare⟩
  · rw [← Option.some.inj h] at hq
    obtain ⟨r, hr, hbare⟩ := keptIn_reindexQuestions.1 ⟨q, hq, rfl⟩
    have hfold : ∀ (pairs : List (String × Question)) (merged : List Question),
        (∀ p ∈ pairs, p.1 ∈ rewriteIds) →
        (∀ r ∈ merged, r ∈ previous ∨ r.id ∈ rewriteIds) →
        ∀ r ∈ pairs.foldl (fun merged p =>
          merged.modify (merged.findIdx fun q => q.id = p.1) p.2.inPlaceOf) merged,
          r ∈ previous ∨ r.id ∈ rewriteIds := by
      intro pairs
      induction pairs with
      | nil => exact fun _ _ hmerged => hmerged
      | cons p pairs ih =>
        intro merged hall hmerged
        refine ih _ (fun p' hp' => hall p' (List.mem_cons_of_mem _ hp')) fun r hr => ?_
        obtain ⟨i, hi, rfl⟩ := List.mem_iff_getElem.1 hr
        rw [List.getElem_modify]
        split_ifs with hindex
        · right
          have hlt : merged.findIdx (fun q => q.id = p.1) < merged.length := by
            rw [List.length_modify] at hi
            omega
          have hfound := List.findIdx_getElem (w := hlt)
          simp only [hindex, decide_eq_true_eq] at hfound
          rw [id_inPlaceOf, hfound]
          exact hall p List.mem_cons_self
        · exact hmerged _ (List.getElem_mem _)
    have hqid : r.id = q.id := congrArg Prod.fst hbare
    have horigin := hfold _ _ (fun p hp => by
      have hmem := (List.of_mem_zip hp).1
      simpa using (List.mem_filter.1 hmem).2) (fun r hr => .inl (mem_sortedByOrder.1 hr)) r hr
    rcases horigin with hprevious | hrewrite
    · exact ⟨r, hprevious, hbare⟩
    · exact absurd (hqid ▸ hrewrite) hid

/-- **Where the questions of a new quiz come from** that are not to be rewritten: from the quiz
before, or from the new output, where a merge takes them only under ids that are new. -/
theorem origin_regenerated {mode : RetryMode} {new previous : List Question}
    {rewriteIds : List String} {q : Question} (hq : q ∈ regenerated mode previous rewriteIds new)
    (hid : q.id ∉ strippedIds rewriteIds) (hne : q.id ≠ "") :
    KeptIn q previous ∨ KeptIn q new ∧
      (mode = .fullRegeneration → previous ≠ [] → rewriteIds ≠ [] →
        q.id ∉ existingQuestionIds previous) := by
  unfold regenerated at hq
  split_ifs at hq with hmerges
  · unfold mergeFullRegenerationPreservingPassing at hq
    dsimp only at hq
    split_ifs at hq with hdisjoint
    · cases hpositional : mergeFullRegenerationPositional new previous
        (strippedIds rewriteIds) with
      | some merged =>
        rw [hpositional] at hq
        exact .inl (origin_positional hpositional hq hid)
      | none =>
        rw [hpositional] at hq
        have hlength := length_ne_of_positional hmerges.2.1 hpositional
        have hkept := (keptIn_bindPatchesByOrderIndex hlength).1 ⟨q, hq, rfl⟩
        refine .inr ⟨hkept, fun _ _ _ => hdisjoint q.id ?_⟩
        obtain ⟨r, hr, hbare⟩ := hkept
        exact mem_existingQuestionIds.2 ⟨⟨r, hr, congrArg Prod.fst hbare⟩, hne⟩
    · obtain ⟨r, hr, hbare⟩ := keptIn_reindexQuestions.1 ⟨q, hq, rfl⟩
      obtain ⟨qid, -, hsome⟩ := List.mem_filterMap.1 hr
      have hqid : r.id = q.id := congrArg Prod.fst hbare
      split_ifs at hsome with hrewrite
      · have hrid : r.id = qid := id_of_lastWithId_or hsome
        rw [← hqid, hrid] at hid
        exact absurd hrewrite hid
      · rcases Option.or_eq_some_iff.1 hsome with hfound | ⟨hnone, hfound⟩
        · exact .inl ⟨r, (lastWithId_eq_some hfound).1, hbare⟩
        · obtain ⟨hmem, hrid⟩ := lastWithId_eq_some hfound
          refine .inr ⟨⟨r, hmem, hbare⟩, fun _ _ _ hin => ?_⟩
          obtain ⟨⟨p, hp, hpid⟩, -⟩ := mem_existingQuestionIds.1 hin
          obtain ⟨last, hlast⟩ := exists_lastWithId hp
          rw [hpid, ← hqid, hrid, hnone] at hlast
          cases hlast
  · exact .inr ⟨⟨q, hq, rfl⟩, fun hmode hprevious hrewrite =>
      absurd ⟨hmode, hprevious, hrewrite⟩ hmerges⟩

/-! ## Results that are not delivered -/

/-- All checks of the question passed. -/
def Passing (r : QcResult) (q : Question) : Prop :=
  ∀ c ∈ r.checks, c.questionId ≠ none → c.question = q.id → c.passed = true

/-- A result is acted on: it is routed to some mode, and where the quiz is regenerated, the
questions that passed are kept. -/
def Actionable (L : Library) (r : QcResult) (questions new : List Question) : Prop :=
  ∃ routing, classifyQuizRetryRouting L r questions = some routing ∧ routing.mode ≠ .none ∧
    (routing.mode = .fullRegeneration → ∀ q ∈ questions, Passing r q →
      KeptIn q (regenerated .fullRegeneration questions routing.failedQuestionIds new))

/-- The questions that a failed check names. -/
def failedIds (r : QcResult) : List String := sortedSet (perQuestionIds (failedChecks r))

/-- Whether a regeneration is forced. -/
def regenerationForced (r : QcResult) (questions : List Question) : Bool :=
  shouldForceFullRegeneration (failedChecks r) (failedIds r) r.wrongAnswerRisk
    (unmappedCount (failedChecks r)) questions.length

/-- Some check failed, the concepts can be read, and there is something to act on: a forced
regeneration that keeps what passed, a question or a missing concept. -/
structure HasTargets (L : Library) (r : QcResult) (questions new : List Question) : Prop where
  fails : failedChecks r ≠ []
  target : ∃ fromQc recommended, missingConceptsFromQc L (failedChecks r) = some fromQc ∧
    routedConcepts r.retryRecommendation = some recommended ∧
    (regenerationForced r questions = true ∨ failedIds r ≠ [] ∨ fromQc ≠ [] ∨ recommended ≠ [])
  keeps : regenerationForced r questions = true → ∀ q ∈ questions, Passing r q →
    RegenerationKeeps questions (failedIds r) new q

/-- A question that passed is not to be rewritten. -/
theorem not_mem_failedIds {r : QcResult} {q : Question} (h : Passing r q) :
    q.id ∉ strippedIds (failedIds r) := by
  intro hmem
  obtain ⟨⟨raw, hraw, hstrip⟩, hne⟩ := mem_strippedIds.1 hmem
  rw [failedIds, mem_sortedSet, mem_perQuestionIds, failedChecks_eq] at hraw
  obtain ⟨-, c, hc, -, rfl⟩ := hraw
  obtain ⟨hcheck, hfails⟩ := mem_extractFailedChecks.1 hc
  have hid : c.question = q.id := by
    rw [← hstrip]
    exact (strip_strip _).symm
  have hnamed : c.questionId ≠ none := by
    intro hnone
    rw [Check.question, hnone, Option.getD_none, strip_empty] at hid
    exact hne hid.symm
  rw [h c hcheck hnamed hid] at hfails
  cases hfails

theorem actionable_iff {L : Library} {r : QcResult} {questions new : List Question} :
    Actionable L r questions new ↔ HasTargets L r questions new := by
  have hkeeps : (∀ q ∈ questions, Passing r q →
      KeptIn q (regenerated .fullRegeneration questions (failedIds r) new)) ↔
        ∀ q ∈ questions, Passing r q → RegenerationKeeps questions (failedIds r) new q :=
    forall₂_congr fun q hq => forall_congr' fun hpass =>
      mem_regenerated_iff hq (not_mem_failedIds hpass)
  constructor
  · rintro ⟨routing, hclassify, hmode, hkept⟩
    rcases classify_cases hclassify with ⟨-, rfl⟩ | ⟨hfails, fromQc, recommended, hrouted⟩
    · exact absurd rfl hmode
    · have hids : routing.failedQuestionIds = failedIds r := by
        rw [hrouted.failedIds, failedIds, failedChecks_eq]
      have hforce := hrouted.mode
      rw [hids, ← failedChecks_eq] at hforce
      change routing.mode = if regenerationForced r questions = true then _ else _ at hforce
      refine ⟨by rwa [failedChecks_eq], ⟨fromQc, recommended, ?_, hrouted.concepts_recommended, ?_⟩,
        fun hforced => ?_⟩
      · rw [failedChecks_eq]
        exact hrouted.concepts_qc
      · by_cases hforced : regenerationForced r questions = true
        · exact .inl hforced
        · rw [if_neg hforced] at hforce
          rcases deterministicMode_cases (failedIds r) routing.missingConcepts with
            ⟨hdet, -⟩ | ⟨-, hfailed, -⟩ | ⟨-, -, hmissing⟩ | ⟨-, hfailed, -⟩
          · exact absurd (hforce.trans hdet) hmode
          · exact .inr (.inl hfailed)
          · rw [hrouted.missing, ne_eq, sortedSet_eq_nil, List.append_eq_nil_iff, not_and_or]
              at hmissing
            exact .inr (.inr hmissing)
          · exact .inr (.inl hfailed)
      · rw [if_pos hforced] at hforce
        rw [← hkeeps, ← hids]
        exact hkept hforce
  · rintro ⟨hfails, ⟨fromQc, recommended, hqc, hrec, htarget⟩, hkept⟩
    refine ⟨_, by rw [classifyQuizRetryRouting, if_neg hfails, hqc, hrec]; rfl, ?_, ?_⟩
    · dsimp only
      rw [reconcileMode_deterministicMode]
      change (if regenerationForced r questions = true then _ else
        deterministicMode (failedIds r) _) ≠ _
      split_ifs with hforced
      · simp
      · rcases deterministicMode_cases (failedIds r) (sortedSet (fromQc ++ recommended)) with
          ⟨-, hids, hmissing⟩ | ⟨hdet, -⟩ | ⟨hdet, -⟩ | ⟨hdet, -⟩
        · rw [sortedSet_eq_nil, List.append_eq_nil_iff] at hmissing
          simp [hforced, hids, hmissing] at htarget
        · simp [hdet]
        · simp [hdet]
        · simp [hdet]
    · dsimp only
      rw [reconcileMode_deterministicMode]
      change (if regenerationForced r questions = true then _ else
        deterministicMode (failedIds r) _) = _ → _
      split_ifs with hforced
      · exact fun _ => hkeeps.2 (hkept hforced)
      · intro hmode
        rcases deterministicMode_cases (failedIds r) (sortedSet (fromQc ++ recommended)) with
          ⟨hdet, -⟩ | ⟨hdet, -⟩ | ⟨hdet, -⟩ | ⟨hdet, -⟩
        all_goals
          rw [hdet] at hmode
          cases hmode

/-- **When a result that is not delivered is acted on**: it has targets, and a regeneration that
is forced keeps what passed. -/
theorem withheld_actionable_iff {L : Library} {r : QcResult} {questions new : List Question} :
    (isQuizQcDeliverable r = some false → Actionable L r questions new) ↔
      (isQuizQcDeliverable r = some false → HasTargets L r questions new) :=
  forall_congr' fun _ => actionable_iff

/-- A reply that finds nothing wrong and still calls the risk high. -/
def alarmedReply : Reply := replyWith [resultFor "q1" true true, resultFor "q2" true true] "high"

/-- The quiz is withheld for its risk, and nothing is done about it: a new quiz replaces it. -/
theorem alarmed_unrouted :
    ∃ v det r, parseQuizQcResponse plainLibrary (some alarmedReply) (some 2) = some v ∧
      runDeterministicQuizChecks plainLibrary twoQuestions 2 = some det ∧
      buildFinalQuizQcResult (some v) det = some r ∧
      classifyQuizRetryRouting plainLibrary r twoQuestions = some { mode := .none } ∧
      ¬ ∀ new, isQuizQcDeliverable r = some false →
        Actionable plainLibrary r twoQuestions new := by
  refine ⟨_, _, _, rfl, rfl, rfl, rfl, fun h => ?_⟩
  obtain ⟨routing, hclassify, hmode, -⟩ := h [] (by decide)
  obtain rfl : { mode := .none } = routing := Option.some.inj hclassify
  exact hmode rfl

end StudyAgent.Quiz
