import StudyAgent.Hints.GraphRuns

/-!
# The stored answer of a hint run

The answer of the model is stored with the checkpoint of its node, and every resumption begins
behind it.  That saves a second call for the batch; it also means that an answer that cannot be
used is read again each time.

Main results:

* `stored_of_reachable` — what lies behind a stored answer.
* `answer_kept` — **a stored answer stays, and the model is not asked for the batch again.**
* `unusable_never_completes` — **a run with an answer that cannot be used is never completed**,
  however often it is taken up.
-/

namespace StudyAgent.Hints.Graph

open Py OrderedDict Runs Hints

/-! ## Behind the answer -/

/-- The answer that a state holds; an empty one is as good as none. -/
def HintState.answer (s : HintState) : String := s.rawLlmOutput.getD ""

/-- Hints for this batch can be read from the answer, no two of them of one question. -/
def usable (p : Params) (questions : List String) (raw : String) : Bool :=
  match parseHints p questions raw with
  | .ok parsed => decide (parsed.map (·.questionId)).Nodup
  | .error _ => false

/-- The nodes up to the call. -/
def upToCall : HintNode → Bool
  | .loadHintContext | .buildHintPromptPayload | .invokeHintLlm => true
  | _ => false

/-- The nodes behind the call. -/
def behindCall : HintNode → Bool
  | .parseHintOutput | .validateHintQuality | .persistHintsToQuestions => true
  | _ => false

/-- A checkpoint, as far as its answer is concerned. -/
structure Kept (p : Params) (s : HintState) (n : HintNode) : Prop where
  bare : HintState.answer s = "" → Bare s ∧ upToCall n = true
  called : HintState.answer s ≠ "" → n = .invokeHintLlm ∨ behindCall n = true
  first : n = .invokeHintLlm → Bare s
  parsed : behindCall n = true →
    parseHints p s.questionsForHinting (HintState.answer s) = .ok s.parsedHints

/-- A graph at work, as far as the answer is concerned. -/
structure Follows (p : Params) (c : Config) (l : Live) : Prop where
  parsed : l.next = some .validateHintQuality ∨ l.next = some .persistHintsToQuestions →
    parseHints p l.state.questionsForHinting (HintState.answer l.state) = .ok l.state.parsedHints
  before : ∀ n, l.next = some n → upToCall n = true →
    Bare l.state ∧ HintState.answer l.state = ""
  behind : ∀ s n, c.checkpoint = some (s, n) → HintState.answer s ≠ "" →
    HintState.answer l.state = HintState.answer s ∧
      l.state.questionsForHinting = s.questionsForHinting ∧
      ∀ m, l.next = some m → behindCall m = true

/-- What holds of the answer throughout a run that is only ever taken up at its checkpoint. -/
structure Stored (p : Params) (c : Config) : Prop where
  kept : ∀ s n, c.checkpoint = some (s, n) → Kept p s n
  live : ∀ l, c.live = some l → Follows p c l

section

variable {p : Params} {reply : Option String} {replies : ℕ → Option (List ReplyItem)}
  {s s' : HintState} {quiz quiz' : Quiz} {n : HintNode} {c c' : Config}

/-- The nodes behind the call keep the batch and the answer. -/
theorem runNode_behind (hn : behindCall n = true)
    (hrun : runNode p reply replies s quiz n = some (s', quiz')) :
    HintState.answer s' = HintState.answer s ∧ s'.questionsForHinting = s.questionsForHinting := by
  cases n with
  | parseHintOutput =>
    cases hrun
    unfold parseHintOutput
    split
    · exact ⟨rfl, rfl⟩
    · exact ⟨rfl, rfl⟩
  | validateHintQuality =>
    obtain ⟨out, hout, heq⟩ := Option.map_eq_some_iff.1 hrun
    cases heq
    obtain ⟨-, hraw, hquestions, -⟩ := validate_kept hout
    exact ⟨congrArg (·.getD "") hraw, hquestions⟩
  | persistHintsToQuestions =>
    obtain ⟨t, ht, heq⟩ := Option.map_eq_some_iff.1 hrun
    cases heq
    exact ⟨rfl, rfl⟩
  | _ => simp [behindCall] at hn

/-- The nodes of a resumption behind a stored answer. -/
theorem resume_behindCall (hclean : Clean c s) (hkept : Kept p s n)
    (hanswer : HintState.answer s ≠ "") :
    behindCall (resolveResumeNextNode s (some n)) = true := by
  have herror : s.error.getD "" = "" := by simp [hclean.error]
  have hraw : s.rawLlmOutput.getD "" ≠ "" := hanswer
  rcases hkept.called hanswer with rfl | hn
  · simp [resolveResumeNextNode, hclean.terminal, hraw, behindCall]
  · cases n with
    | parseHintOutput => simp [resolveResumeNextNode, herror, behindCall]
    | validateHintQuality =>
      simp only [resolveResumeNextNode]
      split_ifs <;> rfl
    | persistHintsToQuestions => rfl
    | _ => simp [behindCall] at hn

/-- The edges behind the call lead to nodes behind the call. -/
theorem successor_behind {m : HintNode} (hn : behindCall n = true)
    (hm : successor s n = some m) : behindCall m = true := by
  cases n with
  | parseHintOutput =>
    simp only [successor] at hm
    split_ifs at hm
    cases hm
    rfl
  | validateHintQuality =>
    simp only [successor] at hm
    split_ifs at hm
    cases hm
    rfl
  | persistHintsToQuestions => cases hm
  | _ => simp [behindCall] at hn

/-- Up to the call there is one way. -/
theorem successor_upToCall {m : HintNode} (hterminal : s.terminalLlmFailure = false)
    (hm : successor s n = some m) (hcall : upToCall m = true) :
    upToCall n = true ∧ n ≠ .invokeHintLlm := by
  cases n with
  | loadHintContext => exact ⟨rfl, by simp⟩
  | buildHintPromptPayload => exact ⟨rfl, by simp⟩
  | persistHintsToQuestions => cases hm
  | persistHintFailureDiagnostics => cases hm
  | _ =>
    simp only [successor, hterminal, Bool.false_eq_true, if_false] at hm
    split_ifs at hm
    cases hm
    cases hcall

theorem not_behindCall (h : upToCall n = true) : behindCall n = false := by
  cases n <;> first | rfl | cases h

theorem answer_ne_empty {questions : List String} {raw : String} {parsed : List HintPayload}
    (h : parseHints p questions raw = .ok parsed) : raw ≠ "" := by
  rintro rfl
  simp [parseHints] at h

theorem Stored.start (h : Start c) : Stored p c where
  kept s n hsaved := by simp [h.checkpoint] at hsaved
  live l hl := by simp [h.live] at hl

/-- The checkpoint is left and the graph has gone, or it is the same one. -/
theorem Stored.keep (h : Stored p c) (hcheckpoint : c'.checkpoint = c.checkpoint)
    (hlive : c'.live = none ∨ c'.live = c.live) : Stored p c' where
  kept s n hsaved := h.kept s n (hcheckpoint ▸ hsaved)
  live l hl := by
    rcases hlive with hnone | hsame
    · simp [hnone] at hl
    · obtain ⟨hparsed, hbefore, hbehind⟩ := h.live l (hsame ▸ hl)
      refine ⟨hparsed, hbefore, fun s n hsaved => ?_⟩
      rw [hcheckpoint] at hsaved
      exact hbehind s n hsaved

theorem Stored.enter (hinv : Accounted p c) (h : Stored p c) {resume : Bool}
    (hresumes : Resumes p c (.enter resume))
    (hstep : Graph.step p c (.enter resume) = some c') : Stored p c' := by
  obtain ⟨-, hstep⟩ := Option.ite_none_right_eq_some.1 hstep
  cases hstep
  refine ⟨h.kept, fun l hl => ?_⟩
  obtain rfl := Option.some.inj hl
  cases hcheckpoint : c.checkpoint with
  | none =>
    have hentered : entered none resume = ⟨initialState, some .loadHintContext⟩ := by
      cases resume <;> rfl
    rw [hentered]
    exact ⟨by simp, fun _ _ _ => ⟨⟨rfl, rfl, rfl⟩, rfl⟩, by simp⟩
  | some saved =>
    obtain ⟨s, n⟩ := saved
    cases resume with
    | false =>
      have hnone := hresumes.2 rfl
      simp [hcheckpoint] at hnone
    | true =>
      have hkept := h.kept s n hcheckpoint
      have hclean := (hinv.saved s n hcheckpoint).clean
      have hready := (hinv.saved s n hcheckpoint).ready_resume hcheckpoint
      simp only [entered, if_true]
      refine ⟨fun hnext => hkept.parsed ?_, fun m hm hcall => ?_, fun t m hsaved hanswer => ?_⟩
      · -- a validation or what comes behind it is next
        by_contra hn
        have hanswer : HintState.answer s ≠ "" ∨ HintState.answer s = "" := ne_or_eq _ _
        cases n with
        | loadHintContext =>
          simp only [resolveResumeNextNode] at hnext
          split_ifs at hnext <;> simp at hnext
        | buildHintPromptPayload =>
          simp only [resolveResumeNextNode] at hnext
          split_ifs at hnext <;> simp at hnext
        | invokeHintLlm =>
          simp only [resolveResumeNextNode] at hnext
          split_ifs at hnext <;> simp at hnext
        | persistHintFailureDiagnostics => simp [resolveResumeNextNode] at hnext
        | _ => simp [behindCall] at hn
      · by_cases hanswer : HintState.answer s = ""
        · exact ⟨(hkept.bare hanswer).1, hanswer⟩
        · have hbehind := resume_behindCall hclean hkept hanswer
          rw [Option.some.inj hm, not_behindCall hcall] at hbehind
          cases hbehind
      · obtain ⟨rfl, rfl⟩ : s = t ∧ n = m := by simpa [hcheckpoint] using hsaved
        refine ⟨rfl, rfl, fun m hm => ?_⟩
        rw [← Option.some.inj hm]
        exact resume_behindCall hclean hkept hanswer

/-- **What a node that ends well leaves behind.** -/
theorem Follows.saved (hready : Ready c s (some n)) (h : Follows p c ⟨s, some n⟩)
    (hrun : runNode p reply replies s quiz n = some (s', quiz'))
    (hok : nodeSucceeded s' = true) :
    Kept p s' n ∧ (upToCall n = true → n ≠ .invokeHintLlm → HintState.answer s' = "") := by
  cases n with
  | loadHintContext =>
    obtain ⟨t, ht, heq⟩ := Option.map_eq_some_iff.1 hrun
    cases heq
    obtain ⟨-, hbare, -, -, -, hraw⟩ := loadHintContext_cases (hready.bare rfl) ht
    have hanswer : HintState.answer s' = "" :=
      (congrArg (·.getD "") hraw).trans (h.before _ rfl rfl).2
    exact ⟨⟨fun _ => ⟨hbare, rfl⟩, fun hne => absurd hanswer hne, by simp, by simp [behindCall]⟩,
      fun _ _ => hanswer⟩
  | buildHintPromptPayload =>
    cases hrun
    obtain ⟨hbare, hanswer⟩ := h.before _ rfl rfl
    exact ⟨⟨fun _ => ⟨⟨hbare.written, hbare.failed, hbare.validated⟩, rfl⟩,
      fun hne => absurd hanswer hne, by simp, by simp [behindCall]⟩, fun _ _ => hanswer⟩
  | invokeHintLlm =>
    cases hrun
    obtain ⟨hbare, -⟩ := h.before _ rfl rfl
    unfold invokeHintLlm at hok ⊢
    split_ifs at hok ⊢
    · cases reply with
      | none => simp [nodeSucceeded] at hok
      | some content =>
        exact ⟨⟨fun _ => ⟨⟨hbare.written, hbare.failed, hbare.validated⟩, rfl⟩,
          fun _ => Or.inl rfl, fun _ => ⟨hbare.written, hbare.failed, hbare.validated⟩,
          by simp [behindCall]⟩, by simp⟩
    · simp [nodeSucceeded] at hok
  | parseHintOutput =>
    cases hrun
    unfold parseHintOutput at hok ⊢
    split at hok
    · next message hparse =>
      simp [nodeSucceeded, parseHints_ne_empty hparse] at hok
    · next parsed hparse =>
      exact ⟨⟨fun hempty => absurd hempty (answer_ne_empty hparse), fun _ => Or.inr rfl, by simp,
        fun _ => hparse⟩, by simp [upToCall]⟩
  | validateHintQuality =>
    have hparsed := h.parsed (Or.inl rfl)
    obtain ⟨out, hout, heq⟩ := Option.map_eq_some_iff.1 hrun
    cases heq
    obtain ⟨-, hraw, hquestions, hsame⟩ := validate_kept hout
    have hanswer : HintState.answer out.state = HintState.answer s := congrArg (·.getD "") hraw
    rw [← hanswer, ← hquestions, ← hsame] at hparsed
    exact ⟨⟨fun hempty => absurd hempty (answer_ne_empty hparsed), fun _ => Or.inr rfl, by simp,
      fun _ => hparsed⟩, by simp [upToCall]⟩
  | persistHintsToQuestions =>
    have hparsed := h.parsed (Or.inr rfl)
    obtain ⟨t, ht, heq⟩ := Option.map_eq_some_iff.1 hrun
    cases heq
    exact ⟨⟨fun hempty => absurd hempty (answer_ne_empty hparsed), fun _ => Or.inr rfl, by simp,
      fun _ => hparsed⟩, by simp [upToCall]⟩
  | persistHintFailureDiagnostics => exact absurd rfl hready.failure

theorem Stored.node (hinv : Accounted p c) (h : Stored p c)
    (hstep : step p c (.node reply replies) = some c') : Stored p c' := by
  simp only [step] at hstep
  split at hstep
  case h_2 => cases hstep
  next s n hl =>
  obtain ⟨-, hstep⟩ := Option.ite_none_left_eq_some.1 hstep
  obtain ⟨⟨s', quiz⟩, hrun, rfl⟩ := Option.map_eq_some_iff.1 hstep
  have hfollows := h.live _ hl
  rcases hinv.live _ hl with hready | hstopped | hfailed
  · cases hok : nodeSucceeded s' with
    | true =>
      obtain ⟨hkept, hempty⟩ := hfollows.saved hready hrun hok
      have hterminal : s'.terminalLlmFailure = false := by
        simpa [nodeSucceeded] using (Bool.and_eq_true_iff.1 hok).2
      simp only [if_true]
      refine ⟨fun t m hsaved => ?_, fun l hlive => ?_⟩
      · cases hsaved
        exact hkept
      · cases hlive
        refine ⟨fun hnext => hkept.parsed ?_, fun m hm hcall => ?_, fun t m hsaved hanswer => ?_⟩
        · cases n <;> simp [successor, hterminal] at hnext <;> rfl
        · have hn := successor_upToCall hterminal hm hcall
          exact ⟨(hkept.bare (hempty hn.1 hn.2)).1, hempty hn.1 hn.2⟩
        · cases hsaved
          refine ⟨rfl, rfl, fun m hm => ?_⟩
          rcases hkept.called hanswer with rfl | hn
          · simp only [successor, hterminal, Bool.false_eq_true, if_false] at hm
            split_ifs at hm
            cases hm
            rfl
          · exact successor_behind hn hm
    | false =>
      have hdead := hready.not_saved c hrun hok rfl
      simp only [Bool.false_eq_true, if_false]
      refine ⟨h.kept, fun l hlive => ?_⟩
      cases hlive
      have hnext : successor s' n = none ∨
          successor s' n = some .persistHintFailureDiagnostics := by
        rcases hdead with hstopped | hfailed
        · exact Or.inl hstopped.next
        · exact hfailed.next.symm.imp_left And.left
      refine ⟨fun hor => ?_, fun m hm hcall => ?_, fun t m hsaved hanswer => ?_⟩
      · rcases hnext with hnone | hrecord
        · simp [hnone] at hor
        · simp [hrecord] at hor
      · rcases hnext with hnone | hrecord
        · simp [hnone] at hm
        · simp only [hrecord, Option.some.injEq] at hm
          subst hm
          cases hcall
      · obtain ⟨hsame, hquestions, hbehind⟩ := hfollows.behind t m hsaved hanswer
        have hn := hbehind n rfl
        obtain ⟨hsame', hquestions'⟩ := runNode_behind hn hrun
        exact ⟨hsame'.trans hsame, hquestions'.trans hquestions,
          fun m hm => successor_behind hn hm⟩
  · cases hstopped.next
  · -- behind a stored answer no call can have failed
    rcases hfailed.next with hnext | ⟨hnone, -⟩
    · cases hnext
      cases hrun
      have hfail : nodeSucceeded s = false := by
        have hterminal : s.terminalLlmFailure = true := hfailed.terminal
        simp [nodeSucceeded, hterminal]
      simp only [hfail, Bool.false_eq_true, if_false]
      refine ⟨h.kept, fun l hlive => ?_⟩
      cases hlive
      refine ⟨by simp [successor], by simp [successor], fun t m hsaved hanswer => ?_⟩
      obtain ⟨-, -, hbehind⟩ := hfollows.behind t m hsaved hanswer
      cases hbehind _ rfl
    · cases hnone

theorem Stored.step (hinv : Accounted p c) (h : Stored p c) {e : Event} (hresumes : Resumes p c e)
    (hstep : step p c e = some c') : Stored p c' := by
  cases e with
  | enter resume => exact h.enter hinv hresumes hstep
  | node reply replies => exact h.node hinv hstep
  | broken reply replies looked committed =>
    simp only [Graph.step] at hstep
    split at hstep <;> cases hstep
    · exact h.keep rfl (Or.inl rfl)
    · exact h.keep rfl (Or.inl rfl)
  | finish =>
    simp only [Graph.step] at hstep
    split at hstep <;> cases hstep
    exact h.keep rfl (Or.inl rfl)
  | others questionIds quiz =>
    cases hstep
    exact h.keep rfl (Or.inr rfl)
  | replace quiz =>
    cases hstep
    exact h.keep rfl (Or.inr rfl)

/-- Both invariants hold throughout a run that is only ever taken up at its checkpoint. -/
theorem stored_of_reachable (hmax : 0 ≤ p.maxRetries)
    (h : Reachable (Graph.step p) (Resumes p) Start c) : Accounted p c ∧ Stored p c := by
  induction h with
  | init hs => exact ⟨.start hs, .start hs⟩
  | next _ hresumes hstep ih =>
    exact ⟨ih.1.step hmax hresumes.1 hstep, ih.2.step ih.1 hresumes hstep⟩

/-! ## The answer stays -/

/-- The checkpoint holds this answer for this batch, and the model was asked so often. -/
structure Holds (c : Config) (questions : List String) (raw : String) (asked : ℕ) : Prop where
  checkpoint : ∃ s n, c.checkpoint = some (s, n) ∧ HintState.answer s = raw ∧
    s.questionsForHinting = questions
  asked : c.asked = asked

theorem not_asks (hn : behindCall n = true) : asks s n = false := by
  cases n <;> first | rfl | cases hn

/-- **No step replaces a stored answer**, or asks for the batch again. -/
theorem Holds.step {questions : List String} {raw : String} {asked : ℕ} (hstored : Stored p c)
    (h : Holds c questions raw asked) (hraw : raw ≠ "") {e : Event}
    (hstep : Graph.step p c e = some c') : Holds c' questions raw asked := by
  obtain ⟨⟨s, n, hcheckpoint, hanswer, hquestions⟩, hasked⟩ := h
  have hbehind : ∀ l, c.live = some l → ∀ m, l.next = some m → behindCall m = true := by
    intro l hl
    exact ((hstored.live l hl).behind s n hcheckpoint (hanswer ▸ hraw)).2.2
  cases e with
  | enter resume =>
    obtain ⟨-, hstep⟩ := Option.ite_none_right_eq_some.1 hstep
    cases hstep
    exact ⟨⟨s, n, hcheckpoint, hanswer, hquestions⟩, hasked⟩
  | node reply replies =>
    simp only [Graph.step] at hstep
    split at hstep
    case h_2 => cases hstep
    next t m hl =>
    obtain ⟨-, hstep⟩ := Option.ite_none_left_eq_some.1 hstep
    obtain ⟨⟨t', quiz⟩, hrun, rfl⟩ := Option.map_eq_some_iff.1 hstep
    have hm := hbehind _ hl m rfl
    obtain ⟨hsame, hbatch⟩ := runNode_behind hm hrun
    obtain ⟨hbefore, hbatch', -⟩ :=
      (hstored.live _ hl).behind s n hcheckpoint (hanswer ▸ hraw)
    refine ⟨?_, ?_⟩
    · cases hok : nodeSucceeded t' with
      | true =>
        exact ⟨t', m, by simp, hsame.trans (hbefore.trans hanswer),
          hbatch.trans (hbatch'.trans hquestions)⟩
      | false => exact ⟨s, n, by simpa using hcheckpoint, hanswer, hquestions⟩
    · simpa [not_asks hm] using hasked
  | broken reply replies looked committed =>
    simp only [Graph.step] at hstep
    split at hstep
    case h_3 => cases hstep
    case h_2 =>
      cases hstep
      exact ⟨⟨s, n, hcheckpoint, hanswer, hquestions⟩, hasked⟩
    next t m hl =>
    cases hstep
    refine ⟨⟨s, n, hcheckpoint, hanswer, hquestions⟩, ?_⟩
    simpa [not_asks (hbehind _ hl m rfl)] using hasked
  | finish =>
    simp only [Graph.step] at hstep
    split at hstep <;> cases hstep
    exact ⟨⟨s, n, hcheckpoint, hanswer, hquestions⟩, hasked⟩
  | others questionIds quiz =>
    cases hstep
    exact ⟨⟨s, n, hcheckpoint, hanswer, hquestions⟩, hasked⟩
  | replace quiz =>
    cases hstep
    exact ⟨⟨s, n, hcheckpoint, hanswer, hquestions⟩, hasked⟩

/-- What is behind a configuration of a run is part of the run. -/
theorem stored_behind
    (hc : Reachable (Graph.step p) (Resumes p) Start c)
    (h : Reachable (Graph.step p) (Resumes p) (· = c) c') :
    Reachable (Graph.step p) (Resumes p) Start c' := by
  induction h with
  | init hs => exact hs ▸ hc
  | next _ hresumes hstep ih => exact .next ih hresumes hstep

theorem holds_of_reachable (hmax : 0 ≤ p.maxRetries)
    (hc : Reachable (Graph.step p) (Resumes p) Start c) (hcheckpoint : c.checkpoint = some (s, n))
    (hanswer : HintState.answer s ≠ "")
    (h : Reachable (Graph.step p) (Resumes p) (· = c) c') :
    Holds c' s.questionsForHinting (HintState.answer s) c.asked := by
  induction h with
  | init hs =>
    subst hs
    exact ⟨⟨s, n, hcheckpoint, rfl, rfl⟩, rfl⟩
  | next hbefore _ hstep ih =>
    exact ih.step (stored_of_reachable hmax (stored_behind hc hbefore)).2 hanswer hstep

/-- **A stored answer is never asked for again.**  Once an answer that is not empty is part of the
checkpoint of a run that is only taken up there, it stays whatever happens, the batch stays with
it, and the model is not asked for the batch any more. -/
theorem answer_kept (hmax : 0 ≤ p.maxRetries)
    (hc : Reachable (Graph.step p) (Resumes p) Start c) (hcheckpoint : c.checkpoint = some (s, n))
    (hanswer : HintState.answer s ≠ "")
    (h : Reachable (Graph.step p) (Resumes p) (· = c) c') :
    Holds c' s.questionsForHinting (HintState.answer s) c.asked :=
  holds_of_reachable hmax hc hcheckpoint hanswer h

/-! ## An answer that cannot be used -/

/-- Where a run with an unusable answer stands: nothing is written, and it goes back and forth
between the call and the validation. -/
structure Stuck (c : Config) (s : HintState) (n : HintNode) : Prop where
  unsettled : c.completed = false
  bare : Bare s
  early : n = .invokeHintLlm ∨ n = .parseHintOutput
  live : ∀ l, c.live = some l → l.next = some .parseHintOutput ∨
    l.next = some .validateHintQuality ∨ Stopped l.state l.next

/-- Every stored answer that cannot be used has the run stuck. -/
def StuckIfUnusable (p : Params) (c : Config) : Prop :=
  ∀ s n, c.checkpoint = some (s, n) → HintState.answer s ≠ "" →
    usable p s.questionsForHinting (HintState.answer s) = false → Stuck c s n

/-- A validation refuses the hints of an unusable answer. -/
theorem validate_unusable
    (hparsed : parseHints p s.questionsForHinting (HintState.answer s) = .ok s.parsedHints)
    (hunusable : usable p s.questionsForHinting (HintState.answer s) = false)
    (hrun : runNode p reply replies s quiz .validateHintQuality = some (s', quiz')) :
    nodeSucceeded s' = false := by
  have hdup : ¬ (s.parsedHints.map (·.questionId)).Nodup := by
    simpa [usable, hparsed] using hunusable
  obtain ⟨out, hout, heq⟩ := Option.map_eq_some_iff.1 hrun
  cases heq
  unfold validateHintQuality at hout
  rw [if_pos hdup] at hout
  cases hout
  simp [nodeSucceeded]

theorem StuckIfUnusable.start (h : Start c) : StuckIfUnusable p c := by
  intro s n hsaved
  simp [h.checkpoint] at hsaved

theorem StuckIfUnusable.keep (h : StuckIfUnusable p c) (hcheckpoint : c'.checkpoint = c.checkpoint)
    (hlive : c'.live = none ∨ c'.live = c.live)
    (hcompleted : c.completed = false → c'.completed = false) : StuckIfUnusable p c' := by
  intro s n hsaved hanswer hunusable
  rw [hcheckpoint] at hsaved
  obtain ⟨hopen, hbare, hearly, hstuck⟩ := h s n hsaved hanswer hunusable
  refine ⟨hcompleted hopen, hbare, hearly, fun l hl => ?_⟩
  rcases hlive with hnone | hsame
  · simp [hnone] at hl
  · exact hstuck l (hsame ▸ hl)

theorem StuckIfUnusable.enter (hinv : Accounted p c)
    (h : StuckIfUnusable p c) {resume : Bool} (hresumes : Resumes p c (.enter resume))
    (hstep : Graph.step p c (.enter resume) = some c') : StuckIfUnusable p c' := by
  obtain ⟨-, hstep⟩ := Option.ite_none_right_eq_some.1 hstep
  cases hstep
  intro s n hsaved hanswer hunusable
  obtain ⟨hopen, hbare, hearly, -⟩ := h s n hsaved hanswer hunusable
  refine ⟨hopen, hbare, hearly, fun l hl => ?_⟩
  have hcheckpoint : c.checkpoint = some (s, n) := hsaved
  have hclean := (hinv.saved s n hcheckpoint).clean
  cases hl
  cases resume with
  | false =>
    have hnone := hresumes.2 rfl
    simp [hcheckpoint] at hnone
  | true =>
    have hraw : s.rawLlmOutput.getD "" ≠ "" := hanswer
    simp only [entered, hcheckpoint, if_true]
    rcases hearly with rfl | rfl
    · exact Or.inl (by simp [resolveResumeNextNode, hclean.terminal, hraw])
    · exact Or.inr (Or.inl (by simp [resolveResumeNextNode, hclean.error]))

theorem StuckIfUnusable.node (hinv : Accounted p c) (hstored : Stored p c)
    (h : StuckIfUnusable p c) (hstep : Graph.step p c (.node reply replies) = some c') :
    StuckIfUnusable p c' := by
  simp only [Graph.step] at hstep
  split at hstep
  case h_2 => cases hstep
  next t m hl =>
  obtain ⟨-, hstep⟩ := Option.ite_none_left_eq_some.1 hstep
  obtain ⟨⟨t', quiz⟩, hrun, rfl⟩ := Option.map_eq_some_iff.1 hstep
  have hnot := hinv.not_completed hl
  have hfollows := hstored.live _ hl
  intro s n hsaved hanswer hunusable
  rcases hinv.live _ hl with hready | hstopped | hfailed
  · cases hok : nodeSucceeded t' with
    | true =>
      obtain ⟨hkept, hempty⟩ := hfollows.saved hready hrun hok
      obtain ⟨rfl, rfl⟩ : t' = s ∧ m = n := by simpa [hok] using hsaved
      have hterminal : t'.terminalLlmFailure = false := by
        simpa [nodeSucceeded] using (Bool.and_eq_true_iff.1 hok).2
      have herror : t'.error.getD "" = "" := by
        simpa [nodeSucceeded] using (Bool.and_eq_true_iff.1 hok).1
      -- behind the call the run was stuck before
      have hbefore : behindCall m = true → ∃ k, c.checkpoint = some (t, k) ∧ Stuck c t k := by
        intro hm
        obtain ⟨k, hk⟩ := hready.linked (by rintro ⟨⟩; cases hm)
        obtain ⟨hsame, hbatch⟩ := runNode_behind hm hrun
        exact ⟨k, hk, h t k hk (hsame ▸ hanswer) (hsame ▸ hbatch ▸ hunusable)⟩
      cases m with
      | loadHintContext => exact absurd (hempty rfl (by simp)) hanswer
      | buildHintPromptPayload => exact absurd (hempty rfl (by simp)) hanswer
      | invokeHintLlm =>
        refine ⟨hnot, hkept.first rfl, Or.inl rfl, fun l hlive => Or.inl ?_⟩
        cases hlive
        simp [successor, hterminal, herror]
      | parseHintOutput =>
        obtain ⟨k, hk, hstuck⟩ := hbefore rfl
        refine ⟨hnot, ?_, Or.inr rfl, fun l hlive => Or.inr (Or.inl ?_)⟩
        · cases hrun
          unfold parseHintOutput
          split
          · exact ⟨hstuck.bare.written, hstuck.bare.failed, hstuck.bare.validated⟩
          · exact ⟨hstuck.bare.written, hstuck.bare.failed, hstuck.bare.validated⟩
        · cases hlive
          simp [successor, herror]
      | validateHintQuality =>
        obtain ⟨hsame, hbatch⟩ := runNode_behind rfl hrun
        have hfail := validate_unusable (hfollows.parsed (Or.inl rfl))
          (hsame ▸ hbatch ▸ hunusable) hrun
        simp [hok] at hfail
      | persistHintsToQuestions =>
        obtain ⟨k, hk, hstuck⟩ := hbefore rfl
        rcases hstuck.live _ hl with hnext | hnext | hstopped
        · cases hnext
        · cases hnext
        · cases hstopped.next
      | persistHintFailureDiagnostics => exact absurd rfl hready.failure
    | false =>
      have hcheckpoint : c.checkpoint = some (s, n) := by simpa [hok] using hsaved
      obtain ⟨-, hbare, hearly, hlive⟩ := h s n hcheckpoint hanswer hunusable
      refine ⟨hnot, hbare, hearly, fun l hl' => Or.inr (Or.inr ?_)⟩
      cases hl'
      have hm := (hfollows.behind s n hcheckpoint hanswer).2.2 m rfl
      rcases hready.not_saved c hrun hok rfl with hstopped | hfailed
      · exact hstopped
      · -- only the call can fail for good
        have hterminal : t'.terminalLlmFailure = t.terminalLlmFailure := by
          cases m with
          | parseHintOutput =>
            cases hrun
            unfold parseHintOutput
            split <;> rfl
          | validateHintQuality =>
            obtain ⟨out, hout, heq⟩ := Option.map_eq_some_iff.1 hrun
            cases heq
            exact (validate_kept hout).1
          | persistHintsToQuestions =>
            obtain ⟨t, ht, heq⟩ := Option.map_eq_some_iff.1 hrun
            cases heq
            rfl
          | _ => cases hm
        have hclean : t.terminalLlmFailure = false := hready.clean.terminal
        have hfailing := hfailed.terminal
        simp [hterminal, hclean] at hfailing
  · cases hstopped.next
  · have hfail : nodeSucceeded t' = false := by
      have hterminal : t.terminalLlmFailure = true := hfailed.terminal
      rcases hfailed.next with hnext | ⟨hnone, -⟩
      · cases hnext
        cases hrun
        simp [nodeSucceeded, hterminal]
      · cases hnone
    have hcheckpoint : c.checkpoint = some (s, n) := by simpa [hfail] using hsaved
    have hm := (hfollows.behind s n hcheckpoint hanswer).2.2 m rfl
    rcases hfailed.next with hnext | ⟨hnone, -⟩
    · cases hnext
      cases hm
    · cases hnone

theorem StuckIfUnusable.step (hinv : Accounted p c) (hstored : Stored p c)
    (h : StuckIfUnusable p c) {e : Event} (hresumes : Resumes p c e)
    (hstep : Graph.step p c e = some c') : StuckIfUnusable p c' := by
  cases e with
  | enter resume => exact h.enter hinv hresumes hstep
  | node reply replies => exact h.node hinv hstored hstep
  | broken reply replies looked committed =>
    simp only [Graph.step] at hstep
    split at hstep <;> cases hstep
    · exact h.keep rfl (Or.inl rfl) id
    · exact h.keep rfl (Or.inl rfl) id
  | finish =>
    simp only [Graph.step] at hstep
    split at hstep
    case h_2 => cases hstep
    next t hl =>
    cases hstep
    intro s n hsaved hanswer hunusable
    obtain ⟨-, hbare, hearly, hlive⟩ := h s n hsaved hanswer hunusable
    refine ⟨?_, hbare, hearly, by simp⟩
    rcases hlive _ hl with hnext | hnext | hstopped
    · cases hnext
    · cases hnext
    · have hterminal : t.terminalLlmFailure = false := hstopped.terminal
      have herror : t.error.getD "" ≠ "" := hstopped.error
      simp [hterminal, herror]
  | others questionIds quiz =>
    cases hstep
    exact h.keep rfl (Or.inr rfl) id
  | replace quiz =>
    cases hstep
    exact h.keep rfl (Or.inr rfl) id

theorem stuck_of_reachable (hmax : 0 ≤ p.maxRetries)
    (h : Reachable (Graph.step p) (Resumes p) Start c) : StuckIfUnusable p c := by
  induction h with
  | init hs => exact .start hs
  | next hbefore hresumes hstep ih =>
    obtain ⟨hinv, hstored⟩ := stored_of_reachable hmax hbefore
    exact ih.step hinv hstored hresumes hstep

/-- **An answer that cannot be used has a run stuck.**  However often a run with such an answer is
taken up at its checkpoint, it is not completed, and it writes no hints. -/
theorem unusable_never_completes (hmax : 0 ≤ p.maxRetries)
    (hc : Reachable (Graph.step p) (Resumes p) Start c) (hcheckpoint : c.checkpoint = some (s, n))
    (hanswer : HintState.answer s ≠ "")
    (hunusable : usable p s.questionsForHinting (HintState.answer s) = false)
    (h : Reachable (Graph.step p) (Resumes p) (· = c) c') :
    c'.completed = false ∧ ∀ t m, c'.checkpoint = some (t, m) → t.hintsWritten = [] := by
  obtain ⟨⟨t, m, ht, hsame, hbatch⟩, -⟩ := holds_of_reachable hmax hc hcheckpoint hanswer h
  have hstuck := stuck_of_reachable hmax (stored_behind hc h) t m ht (hsame ▸ hanswer)
    (by rw [hsame, hbatch]; exact hunusable)
  refine ⟨hstuck.unsettled, fun t' m' ht' => ?_⟩
  obtain ⟨rfl, rfl⟩ : t = t' ∧ m = m' := by simpa [ht] using ht'
  exact hstuck.bare.written

end

/-- Like the sample, but no answer is JSON. -/
def talkingParams : Params := { sampleParams with loads := fun _ => .error "Expecting value" }

/-- The model answers with a sentence, and the run stops. -/
def talkingEvents : List Event :=
  [.node none fun _ => none, .node none fun _ => none, .node (some "Here they are.") fun _ => none,
    .node none fun _ => none, .finish]

/-- The run is taken up, and stops again. -/
def againEvents : List Event := [.enter true, .node none fun _ => none, .finish]

theorem resumes_talking (e : Event) (he : e ∈ talkingEvents ∨ e ∈ againEvents) (c : Config) :
    Resumes talkingParams c e := by
  simp only [talkingEvents, againEvents, List.mem_cons, List.not_mem_nil, or_false] at he
  rcases he with (rfl | rfl | rfl | rfl | rfl) | (rfl | rfl | rfl) <;>
    exact ⟨trivial, fun h => nomatch h⟩

/-- The state behind the call. -/
def talkingState : HintState :=
  { initialState with
    questionsForHinting := ["q"]
    promptInput := true
    rawLlmOutput := some "Here they are." }

/-- The run when it has stopped. -/
def talkingConfig : Config where
  quiz := sampleQuiz
  checkpoint := some (talkingState, .invokeHintLlm)
  live := none
  completed := false
  touched := []
  replaced := false
  asked := 1
  returned :=
    some { talkingState with error := some "Malformed hint output: Expecting value" }

theorem talking_reachable :
    Reachable (step talkingParams) (Resumes talkingParams) Start talkingConfig := by
  have hentered : Reachable (step talkingParams) (Resumes talkingParams) Start
      { sampleStart with live := some (entered none false) } :=
    .next (i := .enter false) (.init (s := sampleStart) ⟨rfl, rfl, rfl⟩) ⟨trivial, fun _ => rfl⟩ rfl
  exact hentered.run (fun e he => resumes_talking e (Or.inl he))
    (show run (step talkingParams) _ talkingEvents = some talkingConfig from rfl)

/-- A resumption reads the sentence again. -/
theorem answer_kept_sample :
    Holds { talkingConfig with attemptCount := 1 } ["q"] "Here they are." 1 ∧
      run (step talkingParams) talkingConfig againEvents =
        some { talkingConfig with attemptCount := 1 } := by
  have hrun : run (step talkingParams) talkingConfig againEvents =
      some { talkingConfig with attemptCount := 1 } := rfl
  have hagain : Reachable (step talkingParams) (Resumes talkingParams) (· = talkingConfig)
      { talkingConfig with attemptCount := 1 } :=
    Reachable.run (.init rfl) (fun e he => resumes_talking e (Or.inr he)) hrun
  exact ⟨answer_kept (by decide) talking_reachable (s := talkingState) (n := .invokeHintLlm) rfl
    (by decide) hagain, hrun⟩

/-- So the run is not completed. -/
theorem unusable_never_completes_sample :
    (run (step talkingParams) talkingConfig againEvents).map Config.completed = some false := by
  have hrun : run (step talkingParams) talkingConfig againEvents = some _ := rfl
  have hagain : Reachable (step talkingParams) (Resumes talkingParams) (· = talkingConfig) _ :=
    Reachable.run (.init rfl) (fun e he => resumes_talking e (Or.inr he)) hrun
  rw [hrun, Option.map_some]
  exact congrArg some (unusable_never_completes (by decide) talking_reachable (s := talkingState)
    (n := .invokeHintLlm) rfl (by decide) (by decide) hagain).1

end StudyAgent.Hints.Graph
