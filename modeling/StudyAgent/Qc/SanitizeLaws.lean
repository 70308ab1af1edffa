import StudyAgent.Base.FirstOccurrences
import StudyAgent.Qc.Scoring

/-!
# What is left of a retry recommendation

A recommendation is cleaned when the result is built and again when the retry is routed, so
cleaning twice must change nothing, and what is left must agree with the checks and with the
document.

Main results:

* `sanitizeRetryRecommendation_idem` — **cleaning twice changes nothing.**
* `sanitizedMode_eq_none_iff` — when nothing is left to retry.
* `sanitize_sound` — **what is left, and what is not.**
-/

namespace StudyAgent.Scoring

open Py

/-! ## The checks of an item -/

/-- A must_cover check is about an item if its id is that of the item in one of the three forms. -/
def Covers (c : Check) (itemId : String) : Prop :=
  c.categoryText = "must_cover" ∧
    (let checkItem := strip (getTextOr (pyOr c.checklistId c.id))
     checkItem = itemId ∨ checkItem = "must_cover_" ++ itemId ∨
      (endsWith checkItem ("_" ++ itemId) = true ∧ itemId ≠ ""))

instance (c : Check) (itemId : String) : Decidable (Covers c itemId) :=
  inferInstanceAs (Decidable (_ ∧ (_ ∨ _ ∨ (_ ∧ _))))

/-- The first must_cover check about an item says whether it is covered. -/
def Judged (checks : List Check) (itemId : String) (passed : Bool) : Prop :=
  ∃ before c after, checks = before ++ c :: after ∧ Covers c itemId ∧ c.isPassed = passed ∧
    ∀ b ∈ before, ¬ Covers b itemId

/-- **The verdict on an item** is that of the first check about it. -/
theorem mustCoverPassedForId_eq_some {checks : List Check} {itemId : String} {passed : Bool} :
    mustCoverPassedForId checks itemId = some passed ↔ Judged checks itemId passed := by
  have hcovers : ∀ c : Check, (c.categoryText = "must_cover" &&
      (let checkItem := strip (getTextOr (pyOr c.checklistId c.id))
       checkItem = itemId || checkItem = "must_cover_" ++ itemId ||
        (endsWith checkItem ("_" ++ itemId) && itemId ≠ ""))) = decide (Covers c itemId) := by
    intro c
    rw [Bool.eq_iff_iff, decide_eq_true_eq, Covers]
    simp [or_assoc]
  unfold mustCoverPassedForId Judged
  simp only [hcovers, Option.map_eq_some_iff, List.find?_eq_some_iff_append, decide_eq_true_eq,
    Bool.not_eq_true', decide_eq_false_iff_not]
  constructor
  · rintro ⟨c, ⟨hc, before, after, hchecks, hbefore⟩, hpassed⟩
    exact ⟨before, c, after, hchecks, hc, hpassed, hbefore⟩
  · rintro ⟨before, c, after, hchecks, hc, hpassed, hbefore⟩
    exact ⟨c, ⟨hc, before, after, hchecks, hbefore⟩, hpassed⟩

/-! ## Cleaning twice -/

variable {r : Recommendation} {checks : List Check} {document : Document}
  {checklist : List ChecklistItem}

/-- What has been collected is collected again. -/
theorem collect_collected {α β : Type} [DecidableEq β] {f : α → β} {g : β → α}
    {keep : β → Bool} {l : List β} (hnodup : l.Nodup) (hback : ∀ x ∈ l, f (g x) = x)
    (hkeep : ∀ x ∈ l, keep x = true) : Dedup.collect f keep [] (l.map g) = l := by
  have hmap : (l.map g).map f = l := by
    rw [List.map_map]
    exact (List.map_congr_left hback).trans (List.map_id l)
  have hall : (l.filter fun x => keep x && decide (x ∉ ([] : List β))) = l := by
    refine List.filter_eq_self.2 fun x hx => ?_
    simp [hkeep x hx]
  rw [Dedup.collect_eq_append, List.nil_append, hmap, hall, Dedup.firsts_of_nodup hnodup]

theorem nodup_cleanedFailedSections : (cleanedFailedSections r checks document).Nodup :=
  Dedup.nodup_collect List.nodup_nil _

theorem nodup_cleanedMissing : (cleanedMissing r checks document checklist).Nodup :=
  Dedup.nodup_collect List.nodup_nil _

theorem cleanedFailedSections_again :
    cleanedFailedSections (sanitizeRetryRecommendation r checks document checklist) checks
      document = cleanedFailedSections r checks document := by
  refine collect_collected nodup_cleanedFailedSections (fun sid hsid => ?_) (fun sid hsid => ?_)
  · obtain ⟨-, v, -, rfl⟩ := mem_cleanedFailedSections.1 hsid
    exact strip_strip _
  · obtain ⟨⟨hne, hknown, hfailed⟩, -⟩ := mem_cleanedFailedSections.1 hsid
    simp [hne, hknown, hfailed]

theorem cleanedMissing_again :
    cleanedMissing (sanitizeRetryRecommendation r checks document checklist) checks document
      checklist = cleanedMissing r checks document checklist := by
  refine collect_collected nodup_cleanedMissing (fun itemId hid => ?_) (fun itemId hid => ?_)
  · obtain ⟨-, v, -, rfl⟩ := mem_cleanedMissing.1 hid
    by_cases hlist : checklist = [] <;> simp [hlist]
  · obtain ⟨⟨hne, hpassed, hsection⟩, -⟩ := mem_cleanedMissing.1 hid
    simp [hne, hpassed, hsection]

/-- Sections are only patched because of failed checks. -/
theorem failed_of_cleanedFailedSections (h : cleanedFailedSections r checks document ≠ []) :
    extractFailedChecks checks ≠ [] :=
  fun hnone => h (cleanedFailedSections_of_none_failed hnone)

/-! ## The mode -/

theorem previousMode_sanitized :
    previousMode (sanitizeRetryRecommendation r checks document checklist) =
      sanitizedMode r checks document checklist := by
  have hwords : sanitizedMode r checks document checklist ∈ ["full_regeneration", "none",
      "section_patch_then_insert", "section_insert", "section_patch"] := by
    unfold sanitizedMode deriveModeFromTargets
    split_ifs <;> simp
  simp only [List.mem_cons, List.not_mem_nil, or_false] at hwords
  change previousMode { mode := some (.str (sanitizedMode r checks document checklist)) } = _
  rcases hwords with h | h | h | h | h <;> rw [h] <;> decide

/-- **When nothing is left to retry.** -/
theorem sanitizedMode_eq_none_iff :
    sanitizedMode r checks document checklist = "none" ↔
      cleanedFailedSections r checks document = [] ∧
        cleanedMissing r checks document checklist = [] ∧
          ¬ (previousMode r = "full_regeneration" ∧ extractFailedChecks checks ≠ []) := by
  unfold sanitizedMode deriveModeFromTargets
  constructor
  · intro h
    by_cases hfull : previousMode r = "full_regeneration" ∧ extractFailedChecks checks ≠ []
    · simp [hfull] at h
    rw [if_neg hfull] at h
    by_cases hnone : cleanedFailedSections r checks document = [] ∧
        cleanedMissing r checks document checklist = []
    · exact ⟨hnone.1, hnone.2, hfull⟩
    · rw [if_neg hnone] at h
      split_ifs at h <;> simp at h
  · rintro ⟨hfailed, hmissing, hfull⟩
    rw [if_neg hfull, if_pos ⟨hfailed, hmissing⟩]

theorem sanitizedMode_again :
    sanitizedMode (sanitizeRetryRecommendation r checks document checklist) checks document
      checklist = sanitizedMode r checks document checklist := by
  rw [sanitizedMode, previousMode_sanitized, cleanedFailedSections_again, cleanedMissing_again]
  unfold sanitizedMode deriveModeFromTargets
  by_cases hfull : previousMode r = "full_regeneration" ∧ extractFailedChecks checks ≠ []
  · simp [hfull]
  by_cases hsections : cleanedFailedSections r checks document = []
  · by_cases hmissing : cleanedMissing r checks document checklist = [] <;>
      simp [hfull, hsections, hmissing]
  -- a section is left, so a check failed and a full regeneration was not asked for
  have hprevious : previousMode r ≠ "full_regeneration" :=
    fun hmode => hfull ⟨hmode, failed_of_cleanedFailedSections hsections⟩
  by_cases hmissing : cleanedMissing r checks document checklist = [] <;>
    simp [hprevious, hsections, hmissing]

/-- **Cleaning twice changes nothing.** -/
theorem sanitizeRetryRecommendation_idem :
    sanitizeRetryRecommendation (sanitizeRetryRecommendation r checks document checklist) checks
      document checklist = sanitizeRetryRecommendation r checks document checklist := by
  rw [sanitizeRetryRecommendation, sanitizedMode_again, cleanedFailedSections_again,
    cleanedMissing_again, ← sanitizeRetryRecommendation]

/-! ## What is left -/

/-- What a cleaned recommendation is, beside the one it was made from. -/
structure Sanitized (r : Recommendation) (checks : List Check) (document : Document)
    (checklist : List ChecklistItem) (s : Recommendation) : Prop where
  idem : sanitizeRetryRecommendation s checks document checklist = s
  distinct : s.failedSectionIds.Nodup
  sections : document.sectionIds ≠ [] →
    ∀ v ∈ s.failedSectionIds, ∃ sid ∈ document.sectionIds, v = .str sid
  failed : extractFailedChecks checks = [] → s.failedSectionIds = []
  missing : ∀ v ∈ s.missingChecklistIds, ∃ itemId, v = .str itemId ∧
    ¬ Judged checks itemId true ∧ insertSectionId checklist itemId ∉ document.sectionIds
  /-- An item that is asked for and has failed is kept, if it has no section yet. -/
  kept : ∀ v ∈ r.missingChecklistIds, ∀ itemId, normalizeChecklistId v.text checklist = itemId →
    itemId ≠ "" → Judged checks itemId false →
    insertSectionId checklist itemId ∉ document.sectionIds → .str itemId ∈ s.missingChecklistIds
  none_iff : s.mode = some (.str "none") ↔ s.failedSectionIds = [] ∧ s.missingChecklistIds = [] ∧
    ¬ (previousMode r = "full_regeneration" ∧ extractFailedChecks checks ≠ [])

/-- **What is left of a recommendation, and what is not.** -/
theorem sanitize_sound (r : Recommendation) (checks : List Check) (document : Document)
    (checklist : List ChecklistItem) :
    Sanitized r checks document checklist
      (sanitizeRetryRecommendation r checks document checklist) where
  idem := sanitizeRetryRecommendation_idem
  distinct := nodup_cleanedFailedSections.map fun _ _ h => by simpa using h
  sections hdocument v hv := by
    obtain ⟨sid, hsid, rfl⟩ := List.mem_map.1 hv
    exact ⟨sid, (mem_cleanedFailedSections.1 hsid).1.2.1.resolve_left hdocument, rfl⟩
  failed hnone := by
    rw [sanitizeRetryRecommendation, cleanedFailedSections_of_none_failed hnone]
    rfl
  missing v hv := by
    obtain ⟨itemId, hid, rfl⟩ := List.mem_map.1 hv
    obtain ⟨⟨-, hpassed, hsection⟩, -⟩ := mem_cleanedMissing.1 hid
    refine ⟨itemId, rfl, ?_, hsection⟩
    rwa [← mustCoverPassedForId_eq_some]
  kept v hv itemId hid hne hjudged hsection := by
    refine List.mem_map_of_mem (mem_cleanedMissing.2 ⟨⟨hne, ?_, hsection⟩, v, hv, hid⟩)
    rw [mustCoverPassedForId_eq_some.2 hjudged]
    decide
  none_iff := by
    simp [sanitizeRetryRecommendation, sanitizedMode_eq_none_iff]

/-- An item whose check failed is kept although a later check about it passed. -/
theorem failed_before_passed :
    let item : ChecklistItem := { id := "mc_1" }
    let check : Check := { category := some (.str "must_cover"), id := some (.str "mc_1") }
    let failed : Check := { check with passed := some (.bool false) }
    let r : Recommendation := { missingChecklistIds := [.str "mc_1"] }
    let s := sanitizeRetryRecommendation r [failed, check] { sections := [] } [item]
    .str "mc_1" ∈ s.missingChecklistIds ∧
      ∃ c ∈ [failed, check], Covers c "mc_1" ∧ c.isPassed = true := by
  decide

end StudyAgent.Scoring
