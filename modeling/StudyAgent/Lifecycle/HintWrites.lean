import StudyAgent.Lifecycle.Locks

/-!
# Hints and the questions they are for

A hint run loads the questions, and writes their hints when the model has answered.  In between
other sessions may change the questions: the start of a rework asks for running hint runs, but the
start of a hint run does not ask for running reworks, nor does a regeneration for hint runs.

Main results:

* `Present.step` — what is loaded stays what the question is, if no statement changes the
  contents of a loaded question.
* `hints_of_present_question` — **hints are written to the question they were made from.**
-/

namespace StudyAgent.Lifecycle

open ReadCommitted

variable {Q J S : Type}

/-! ## What is loaded -/

/-- The content from which the hints of a question are being made. -/
def Phase.loaded : Phase Q J → J → Option Content
  | .hinting _ loaded _, j => loaded j
  | _, _ => none

/-- A session that has no transaction, or a hint run that has loaded nothing. -/
def Phase.clean : Phase Q J → Bool
  | .idle | .hintStarted _ => true
  | _ => false

/-- Nobody has loaded another content of a question than this. -/
def KeepsLoaded (sys : System Q J S) (j : J) (content : Content) : Prop :=
  ∀ t, ∀ c ∈ (sys.phase t).loaded j, content = c

/-- The committed question and every question that is about to be committed have a content. -/
def Shows (sys : System Q J S) (j : J) (c : Content) : Prop :=
  (∀ question, sys.questions.rows j = some (some question) → question.content = c) ∧
    ∀ s question, sys.questions.pending j = some (s, some question) → question.content = c

/-- **The invariant.** -/
structure Present (sys : System Q J S) : Prop where
  clean : ∀ s, (sys.phase s).clean = true → NoEdits sys s
  loaded : ∀ t j c, (sys.phase t).loaded j = some c → Shows sys j c

theorem present_of_fresh {sys : System Q J S} (h : sys.Fresh) : Present sys := by
  refine ⟨fun s _ j row hp => ?_, fun t j c hc => ?_⟩
  · simp [h.questions j] at hp
  · rw [h.idle t] at hc
    cases hc

section

variable [DecidableEq S]

/-- A question that was loaded is loaded by all in the present content, and it is changed, if at
all, in something else. -/
def System.HintsStay (sys : System Q J S) : Event Q J S → Prop
  | .edit s j e => ∀ question ∈ sys.question s j, KeepsLoaded sys j (e.apply question).content
  | .createQuestion _ j row => KeepsLoaded sys j row.content
  | .insertQuestion s =>
    ∀ next ∈ (sys.phase s).nextInserted, KeepsLoaded sys next.1 next.2
  | .flushPatch s =>
    ∀ next ∈ (sys.phase s).nextPatched, ∀ question ∈ sys.question s next.1,
      KeepsLoaded sys next.1 (next.2.2.flush next.2.1 question).content
  | .loadHints s _ =>
    ∀ j, ∀ question ∈ sys.question s j, ∀ write ∈ sys.questions.pending j,
      ∀ other ∈ write.2, other.content = question.content
  | _ => True

instance [Fintype S] (sys : System Q J S) (j : J) (content : Content) :
    Decidable (KeepsLoaded sys j content) :=
  inferInstanceAs (Decidable (∀ t, ∀ c ∈ (sys.phase t).loaded j, content = c))

instance [Fintype S] [Fintype J] (sys : System Q J S) (e : Event Q J S) :
    Decidable (sys.HintsStay e) := by
  cases e <;> dsimp only [System.HintsStay] <;> infer_instance

variable {sys sys' : System Q J S} {s : S} {j : J} {c : Content}

theorem Shows.content (h : Shows sys j c) {question : QuizQuestion Q}
    (hread : sys.question s j = some question) : question.content = c := by
  rw [question_eq_some] at hread
  rcases sys.questions.view_cases s j with ⟨row, hp, hview⟩ | ⟨-, hview⟩
  · rw [hview] at hread
    cases hread
    exact h.2 s question hp
  · exact h.1 question (hview.symm.trans hread)

/-! ## Statements -/

/-- One session goes on, and no question is written. -/
theorem Present.go (h : Present sys) {phase : Phase Q J} (haside : Aside sys sys' s)
    (hquestions : sys'.questions = sys.questions) (hphase : sys'.phase s = phase)
    (hloaded : ∀ j c, phase.loaded j = some c → Shows sys j c)
    (hclean : phase.clean = true → NoEdits sys s) : Present sys' := by
  refine ⟨fun t ht => ?_, fun t j c hc => ?_⟩
  · rw [NoEdits, hquestions]
    by_cases hts : t = s
    · subst hts
      rw [hphase] at ht
      exact hclean ht
    · rw [haside.phase hts] at ht
      exact h.clean t ht
  · rw [Shows, hquestions]
    by_cases hts : t = s
    · subst hts
      rw [hphase] at hc
      exact hloaded j c hc
    · rw [haside.phase hts] at hc
      exact h.loaded t j c hc

/-- **Questions are written** in what was loaded of them. -/
theorem Present.wroteQuestions (h : Present sys) {phase : Phase Q J}
    {g : J → Option (Option (QuizQuestion Q))} (hwrote : WroteQuestions sys s g phase sys')
    (hkeeps : ∀ j question, g j = some (some question) → KeepsLoaded sys j question.content)
    (hloaded : ∀ j c, phase.loaded j = some c → (sys.phase s).loaded j = some c)
    (hclean : phase.clean = false) : Present sys' := by
  have hold : ∀ t j c, (sys'.phase t).loaded j = some c → (sys.phase t).loaded j = some c := by
    intro t j c hc
    by_cases hts : t = s
    · subst hts
      rw [hwrote.phase] at hc
      exact hloaded j c hc
    · rwa [hwrote.aside.phase hts] at hc
  refine ⟨fun t ht => ?_, fun t j c hc => ⟨?_, fun u question hp => ?_⟩⟩
  · by_cases hts : t = s
    · subst hts
      rw [hwrote.phase, hclean] at ht
      cases ht
    · rw [hwrote.aside.phase hts] at ht
      exact fun j row hp => h.clean t ht j row ((hwrote.aside.questions hts).1 hp)
  · rw [hwrote.aside.questionRows]
    exact (h.loaded t j c (hold t j c hc)).1
  · by_cases hus : u = s
    · subst hus
      rcases hwrote.cases hp with hg | ⟨-, hp⟩
      · exact hkeeps j question hg t c (hold t j c hc)
      · exact (h.loaded t j c (hold t j c hc)).2 u question hp
    · exact (h.loaded t j c (hold t j c hc)).2 u question ((hwrote.aside.questions hus).1 hp)

/-- The end of a transaction. -/
theorem Present.closed (h : Present sys) {phase : Phase Q J} (hother : ∀ t ≠ s,
      sys'.phase t = sys.phase t) (hphase : sys'.phase s = phase)
    (hrows : ∀ j, sys'.questions.rows j = sys.questions.view s j ∨
      sys'.questions.rows j = sys.questions.rows j)
    (hpending : ∀ j t row, sys'.questions.pending j = some (t, row) ↔
      sys.questions.pending j = some (t, row) ∧ t ≠ s)
    (hloaded : ∀ j c, phase.loaded j = some c → (sys.phase s).loaded j = some c) :
    Present sys' := by
  refine ⟨fun t ht j row hp => ?_, fun t j c hc => ?_⟩
  · obtain ⟨hp, hts⟩ := (hpending j t row).1 hp
    rw [hother t hts] at ht
    exact h.clean t ht j row hp
  · have hold : (sys.phase t).loaded j = some c := by
      by_cases hts : t = s
      · subst hts
        rw [hphase] at hc
        exact hloaded j c hc
      · rwa [hother t hts] at hc
    have hshows := h.loaded t j c hold
    refine ⟨fun question hrow => ?_, fun u question hp => ?_⟩
    · rcases hrows j with hview | hsame
      · exact hshows.content (question_eq_some.2 (hview.symm.trans hrow))
      · exact hshows.1 question (hsame.symm.trans hrow)
    · exact hshows.2 u question ((hpending j u (some question)).1 hp).1

theorem Present.enter (h : Present sys) {phase : Phase Q J} (hloaded : ∀ j, phase.loaded j = none)
    (hclean : phase.clean = false) : Present (sys.enter s phase) :=
  h.go System.aside_enter rfl System.phase_enter_self
    (fun j c hc => by simp [hloaded j] at hc) (fun hc => by simp [hclean] at hc)

theorem Present.start (h : Present sys) {phase : Phase Q J} {pipeline : Pipeline} {k : Q}
    (hphase : sys.phase s = .idle) (hloaded : ∀ j, phase.loaded j = none) :
    Present (sys.start s pipeline k phase) := by
  have haside : Aside sys (sys.start s pipeline k phase) s :=
    ⟨rfl, rfl, fun _ => Iff.rfl, fun _ => Iff.rfl, System.phase_enter_other⟩
  exact h.go haside rfl System.phase_enter_self (fun j c hc => by simp [hloaded j] at hc)
    fun _ => h.clean s (by rw [hphase]; rfl)

theorem Present.wroteQuizzes (h : Present sys) {f : Q → Option (Quiz Q)} {phase : Phase Q J}
    (hwrote : WroteQuizzes sys s f phase sys') (hloaded : ∀ j, phase.loaded j = none)
    (hclean : phase.clean = false) : Present sys' :=
  h.go hwrote.aside hwrote.questions hwrote.phase
    (fun j c hc => by simp [hloaded j] at hc) (fun hc => by simp [hclean] at hc)

omit [DecidableEq S] in
theorem Present.running (h : Present sys) (running : S → Option (Pipeline × Q)) :
    Present { sys with running := running } :=
  ⟨h.clean, fun t j c hc => ⟨(h.loaded t j c hc).1, (h.loaded t j c hc).2⟩⟩

theorem Phase.loaded_of_quiet {phase : Phase Q J} (h : phase.quiet = true) (j : J) :
    phase.loaded j = none := by
  cases phase with
  | hinting _ _ _ => cases h
  | _ => rfl

theorem Phase.clean_of_quiet {phase : Phase Q J} (h : phase.quiet = true) (hopen : phase ≠ .idle) :
    phase.clean = false := by
  cases phase with
  | idle => exact absurd rfl hopen
  | hintStarted _ => cases h
  | _ => rfl

omit [DecidableEq S] in
theorem loaded_committed (phase : Phase Q J) (h : phase.committed.loaded j = some c) :
    phase.loaded j = some c := by
  cases phase with
  | hinting k loaded written =>
    simp only [Phase.committed, Phase.loaded] at h ⊢
    split_ifs at h
    exact h
  | inserting k questions replaces => cases replaces <;> cases h
  | _ => cases h

theorem loaded_rolledBack (phase : Phase Q J) (h : phase.rolledBack.loaded j = some c) :
    phase.loaded j = some c := by
  cases phase with
  | hinting k loaded written => exact h
  | inserting k questions replaces => cases replaces <;> cases h
  | _ => cases h

end

/-! ## Events -/

section

variable [Fintype Q] [DecidableEq Q] [Fintype J] [DecidableEq J] [Fintype S] [DecidableEq S]
  {sys sys' : System Q J S} {s : S} {j : J} {c : Content}

theorem Present.loadHints (h : Present sys) {filterIds : Option (List J)}
    (hstay : sys.HintsStay (.loadHints s filterIds))
    (hstep : sys.step (.loadHints s filterIds) = some sys') : Present sys' := by
  rw [System.step] at hstep
  split at hstep
  · rename_i k hphase
    obtain ⟨quiz, -, hstep⟩ := Option.bind_eq_some_iff.1 hstep
    split_ifs at hstep
    cases hstep
    have hedits : NoEdits sys s := h.clean s (by rw [hphase]; rfl)
    refine h.go System.aside_enter rfl System.phase_enter_self (fun j c hc => ?_) fun _ => hedits
    obtain ⟨question, hfound, rfl⟩ := Option.map_eq_some_iff.1 hc
    have hread : sys.question s j = some question := (Option.filter_eq_some_iff.1 hfound).1
    refine ⟨fun committed hrow => ?_, fun t other hp => ?_⟩
    · rw [question_eq_some, hedits.view, hrow] at hread
      cases hread
      rfl
    · exact hstay j question hread (t, some other) hp other rfl
  · cases hstep

/-- What a write of hints does to the question. -/
theorem Present.writeHints (h : Present sys) {hint1 hint2 hint3 : String}
    (hstep : sys.step (.writeHints s j hint1 hint2 hint3) = some sys') :
    Present sys' ∧ ∃ question, sys'.question s j = some question ∧
      (sys.phase s).loaded j = some question.content := by
  rw [System.step] at hstep
  split at hstep
  · rename_i k loaded written hphase
    split_ifs at hstep with hwanted
    obtain ⟨question, hread, hstep⟩ := Option.bind_eq_some_iff.1 hstep
    obtain ⟨quiz, -, hstep⟩ := Option.bind_eq_some_iff.1 hstep
    split_ifs at hstep
    obtain ⟨locked, hlock, hstep⟩ := Option.bind_eq_some_iff.1 hstep
    have hlocked := System.wroteQuizzes hlock
    have hwrote := System.wroteQuestions hstep
    have hload : ∀ j, (sys.phase s).loaded j = loaded j := fun j => by rw [hphase]; rfl
    have hpresent : Present locked := by
      refine h.go hlocked.aside hlocked.questions hlocked.phase (fun j c hc => ?_) fun hclean => ?_
      · exact h.loaded s j c ((hload j).trans hc)
      · cases hclean
    have hread' : locked.question s j = some question := by
      rw [System.question, hlocked.questions]
      exact hread
    refine ⟨hpresent.wroteQuestions hwrote (fun i new hi t c hc => ?_) (fun i c hc => ?_) rfl,
      question.withHints (some hint1) (some hint2) (some hint3), ?_, ?_⟩
    · obtain ⟨rfl, hnew⟩ := only_eq_some.1 hi
      cases hnew
      have hcontent : question.content = c := (hpresent.loaded t i c hc).content hread'
      exact hcontent
    · rw [hlocked.phase]
      exact hc
    · rw [question_eq_some, System.view_question_writeQuestions hstep, only_eq_some.2 ⟨rfl, rfl⟩]
      rfl
    · obtain ⟨c, hc⟩ := Option.ne_none_iff_exists'.1 fun hnone => hwanted (Or.inl hnone)
      have hcontent := (h.loaded s j c ((hload j).trans hc)).content hread
      rw [hload, hc, ← hcontent]
      rfl
  · cases hstep

omit [DecidableEq Q] [Fintype J] [DecidableEq J] [Fintype S] in
/-- A statement that leaves the questions alone. -/
theorem Present.quiet (h : Present sys) (hquiet : Quiet sys s sys') : Present sys' := by
  cases hquiet with
  | wrote hwrite hread hold hnew hopen =>
    exact h.wroteQuizzes (System.wroteQuizzes hwrite) (Phase.loaded_of_quiet hnew)
      (Phase.clean_of_quiet hnew hopen)
  | went hold hnew hopen =>
    exact h.enter (Phase.loaded_of_quiet hnew) (Phase.clean_of_quiet hnew hopen)
  | started hidle hphase =>
    refine h.start hidle fun j => ?_
    rcases hphase with rfl | rfl | rfl <;> rfl

/-- The mentor opens a quiz. -/
theorem Present.openEdit (h : Present sys) {k : Q}
    (hstep : sys.step (.openEdit s k) = some sys') : Present sys' := by
  rw [System.step] at hstep
  split at hstep
  · obtain ⟨quiz, -, hstep⟩ := Option.bind_eq_some_iff.1 hstep
    split_ifs at hstep
    exact h.wroteQuizzes (System.wroteQuizzes hstep) (fun _ => rfl) rfl
  · cases hstep

theorem Present.edit (h : Present sys) {e : Edit Q} (hstay : sys.HintsStay (.edit s j e))
    (hstep : sys.step (.edit s j e) = some sys') : Present sys' := by
  rw [System.step] at hstep
  split at hstep
  · obtain ⟨question, hread, hstep⟩ := Option.bind_eq_some_iff.1 hstep
    split_ifs at hstep
    refine h.wroteQuestions (System.wroteQuestions hstep) (fun i new hi => ?_)
      (fun i c hc => by cases hc) rfl
    obtain ⟨rfl, hnew⟩ := only_eq_some.1 hi
    cases hnew
    exact hstay question hread
  · cases hstep

theorem Present.createQuestion (h : Present sys) {row : QuizQuestion Q}
    (hstay : sys.HintsStay (.createQuestion s j row))
    (hstep : sys.step (.createQuestion s j row) = some sys') : Present sys' := by
  rw [System.step] at hstep
  split at hstep
  · split_ifs at hstep
    refine h.wroteQuestions (System.wroteQuestions hstep) (fun i new hi => ?_)
      (fun i c hc => by cases hc) rfl
    obtain ⟨rfl, hnew⟩ := only_eq_some.1 hi
    cases hnew
    exact hstay
  · cases hstep

/-- A draft is created. -/
theorem Present.generate (h : Present sys) {k : Q} {n version : ℕ}
    {questions : List (Option J × Content)}
    (hstep : sys.step (.generate s k n version questions) = some sys') : Present sys' := by
  rw [System.step] at hstep
  split at hstep
  · split_ifs at hstep
    exact h.wroteQuizzes (System.wroteQuizzes hstep) (fun _ => rfl) rfl
  · cases hstep

/-- A draft is replaced. -/
theorem Present.replaceQuiz (h : Present sys) {version : Option ℕ}
    {questions : List (Option J × Content)}
    (hstep : sys.step (.replaceQuiz s version questions) = some sys') : Present sys' := by
  rw [System.step] at hstep
  split at hstep
  · obtain ⟨quiz, -, hstep⟩ := Option.bind_eq_some_iff.1 hstep
    exact h.wroteQuizzes (System.wroteQuizzes hstep) (fun _ => rfl) rfl
  · cases hstep

theorem Present.deleteQuestions (h : Present sys)
    (hstep : sys.step (.deleteQuestions s) = some sys') : Present sys' := by
  rw [System.step] at hstep
  split at hstep
  · refine h.wroteQuestions (System.wroteQuestions hstep) (fun i new hi => ?_)
      (fun i c hc => by cases hc) rfl
    obtain ⟨question, -, hnone⟩ := Option.map_eq_some_iff.1 hi
    cases hnone
  · cases hstep

theorem Present.insertQuestion (h : Present sys) (hstay : sys.HintsStay (.insertQuestion s))
    (hstep : sys.step (.insertQuestion s) = some sys') : Present sys' := by
  rw [System.step] at hstep
  split at hstep
  · cases hstep
    exact h.enter (fun _ => rfl) rfl
  · rename_i k j content questions replaces hphase
    split_ifs at hstep
    refine h.wroteQuestions (System.wroteQuestions hstep) (fun i new hi => ?_)
      (fun i c hc => by cases hc) rfl
    obtain ⟨rfl, hnew⟩ := only_eq_some.1 hi
    cases hnew
    exact hstay (i, content) (by rw [hphase]; rfl)
  · cases hstep

theorem Present.flushPatch (h : Present sys) (hstay : sys.HintsStay (.flushPatch s))
    (hstep : sys.step (.flushPatch s) = some sys') : Present sys' := by
  rw [System.step] at hstep
  split at hstep
  · cases hstep
    exact h.enter (fun _ => rfl) rfl
  · rename_i k j loaded patch dirty hphase
    obtain ⟨question, hread, hstep⟩ := Option.bind_eq_some_iff.1 hstep
    refine h.wroteQuestions (System.wroteQuestions hstep) (fun i new hi => ?_)
      (fun i c hc => by cases hc) rfl
    obtain ⟨rfl, hnew⟩ := only_eq_some.1 hi
    cases hnew
    exact hstay (i, loaded, patch) (by rw [hphase]; rfl) question hread
  · cases hstep

/-- **A statement keeps what is loaded up to date**, if it keeps the contents. -/
theorem Present.step (h : Present sys) {e : Event Q J S} (hstay : sys.HintsStay e)
    (hstep : sys.step e = some sys') : Present sys' := by
  cases e with
  | lockNode | lockTarget | checkHints | archiveOthers | activate | unpublish | discard
  | discardDrafts | startHints | startRegenerate | startRework | readPatched | lockPatched =>
    exact h.quiet (quiet_of_step rfl hstep)
  | openEdit => exact h.openEdit hstep
  | edit => exact h.edit hstay hstep
  | createQuestion => exact h.createQuestion hstay hstep
  | loadHints => exact h.loadHints hstay hstep
  | writeHints => exact (h.writeHints hstep).1
  | replaceQuiz => exact h.replaceQuiz hstep
  | deleteQuestions => exact h.deleteQuestions hstep
  | generate => exact h.generate hstep
  | insertQuestion => exact h.insertQuestion hstay hstep
  | flushPatch => exact h.flushPatch hstay hstep
  | commit s =>
    rw [System.step] at hstep
    split_ifs at hstep
    cases hstep
    exact h.closed (fun t hts => System.phase_enter_other hts) System.phase_enter_self
      (fun j => Or.inl rfl) (fun j t row => Store.pending_commit) fun j c => loaded_committed _
  | rollback s =>
    cases hstep
    exact h.closed (fun t hts => System.phase_enter_other hts) System.phase_enter_self
      (fun j => Or.inr rfl) (fun j t row => Store.pending_rollback) fun j c => loaded_rolledBack _
  | settle s =>
    cases hstep
    exact h.running _
  | resume s =>
    obtain ⟨run, -, hstep⟩ := Option.bind_eq_some_iff.1 hstep
    split_ifs at hstep
    cases hstep
    exact h.running _
  | finish s =>
    cases hstep
    exact h.closed (fun t hts => System.phase_enter_other hts) System.phase_enter_self
      (fun j => Or.inr rfl) (fun j t row => Store.pending_rollback) fun j c hc => by cases hc

/-! ## Runs -/

theorem present_of_reachable
    (h : Runs.Reachable System.step System.HintsStay System.Fresh sys) : Present sys :=
  h.invariant (fun _ => present_of_fresh) fun _ _ _ hinv hstay hstep => hinv.step hstay hstep

/-- **Hints belong to the present question**: where a hint run writes them, the content of the
question is the one that was loaded. -/
theorem hints_of_present_question
    (h : Runs.Reachable System.step System.HintsStay System.Fresh sys)
    {hint1 hint2 hint3 : String}
    (hstep : sys.step (.writeHints s j hint1 hint2 hint3) = some sys') :
    ∃ question, sys'.question s j = some question ∧
      (sys.phase s).loaded j = some question.content :=
  ((present_of_reachable h).writeHints hstep).2

end

/-! ## Two runs -/

/-- A quiz with one question, which has no hints yet. -/
def newQuiz : List (Event Unit Unit Bool) :=
  [.generate true () 0 0 [(some (), { questionText := "?", optionA := "a", optionB := "b" })],
    .insertQuestion true, .insertQuestion true, .commit true]

/-- The question is reworked. -/
def patching : List (Event Unit Unit Bool) :=
  [.readPatched true () { content := { questionText := "!", optionA := "c", optionB := "d" } },
    .lockPatched true, .flushPatch true, .flushPatch true, .commit true]

/-- A rework before the hints are loaded does no harm. -/
theorem patched_before_loaded :
    ∃ sys sys' : System Unit Unit Bool,
      Runs.Reachable System.step System.HintsStay System.Fresh sys ∧
        sys.step (.writeHints false () "h" "h" "h") = some sys' ∧
        ∃ question, sys'.question false () = some question ∧
          (sys.phase false).loaded () = some question.content := by
  have hrun : Runs.run (fun s e => if System.HintsStay s e then System.step s e else none)
      (System.empty : System Unit Unit Bool)
      (newQuiz ++ [Event.startRework true (), .startHints false ()] ++ patching ++
        [Event.loadHints false none]) = some _ := rfl
  have hreached : Runs.Reachable System.step System.HintsStay System.Fresh _ :=
    Runs.reachable_of_checked System.empty_fresh hrun
  exact ⟨_, _, hreached, rfl, hints_of_present_question hreached rfl⟩

/-- A hint run is started beside a rework, loads the question, and writes its hints to the question
that the rework has made of it. -/
theorem patched_after_loaded :
    ∃ sys sys' : System Unit Unit Bool,
      Runs.Reachable System.step (fun _ _ => True) System.Fresh sys ∧
        sys.step (.writeHints false () "h" "h" "h") = some sys' ∧
        ∃ question, sys'.question false () = some question ∧
          (sys.phase false).loaded () ≠ some question.content := by
  have hrun : Runs.run System.step (System.empty : System Unit Unit Bool)
      (newQuiz ++ [Event.startRework true (), .startHints false (),
        .loadHints false none] ++ patching) =
        some _ := rfl
  have hreached : Runs.Reachable System.step (fun _ _ => True) System.Fresh _ :=
    Runs.reachable_of_run System.empty_fresh hrun
  exact ⟨_, _, hreached, rfl, _, rfl, by decide⟩

end StudyAgent.Lifecycle
