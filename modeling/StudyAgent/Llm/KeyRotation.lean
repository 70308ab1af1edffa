import StudyAgent.Llm.KeyPool

/-!
# How often a call asks

A call of `call_groq_with_rotation` asks with one key after another.  A key that has refused it
is handed out again only when its rate limit is over, so every limit that expires while the call
runs may cost it another round.  A limit whose deadline is no `datetime` ends it with an
exception.

Main results:

* `free_step` — the keys that are left to a call, and what a step makes of them.
* `rotation_bounded` — **a call asks at most as often as there are keys and expiries**, times the
  attempts for each, takes a bounded number of steps, and returns unless a deadline overflows.
-/

namespace StudyAgent.Llm

/-! ## What is counted -/

namespace KeyEntry

def isHealthy (entry : KeyEntry) : Bool := entry.status = .healthy

/-- The rate limit of an entry is over. -/
def isExpired (now : ℕ) (entry : KeyEntry) : Bool :=
  entry.status = .rateLimited && entry.rateLimitedUntil.any (· ≤ now)

end KeyEntry

namespace Call

/-- The key that a call has. -/
def held : Call → Option String
  | .asking keyAlias _ | .markingBlocked keyAlias | .markingRateLimited keyAlias _ => some keyAlias
  | _ => none

def isDone : Call → Bool
  | .done _ => true
  | _ => false

/-- The call has returned, or an exception has left it. -/
def isOver : Call → Bool
  | .done _ | .raised => true
  | _ => false

def isAsking : Call → Bool
  | .asking _ _ => true
  | _ => false

end Call

namespace Event

def call : Event → ℕ
  | .begin call | .acquire call _ _ _ | .allBlocked call | .earliest call _ _
  | .answer call _ _ | .mark call => call

/-- A step of a call. -/
def isOf (call : ℕ) (e : Event) : Bool := e.call = call

/-- The provider answers a call. -/
def answers (call : ℕ) : Event → Bool
  | .answer call' _ _ => call' = call
  | _ => false

/-- No rate limit that a call is told of has a deadline that `datetime` cannot represent. -/
def InRange (call : ℕ) : Event → Prop
  | .answer call' now (.rateLimited retryAfter) =>
    call' = call → deadlineAfter now retryAfter ≤ datetimeMax
  | _ => True

end Event

namespace System

/-- The rate limits that a step finds to be over: those it refreshes, and that of the key it hands
out, if it has passed since. -/
def expiries (s : System) : Event → ℕ
  | .acquire _ now reading _ =>
    let pool := s.pool.refreshExpiredRateLimits now
    s.pool.entries.countP (KeyEntry.isExpired now) +
      (pool.healthyOffset reading).elim 0 fun offset =>
        if pool.entries[pool.place offset]?.any KeyEntry.isHealthy then 0 else 1
  | .earliest _ now _ => s.pool.entries.countP (KeyEntry.isExpired now)
  | _ => 0

/-- The healthy keys that a call does not have. -/
def healthyBeside (held : Option String) (entries : List KeyEntry) : ℕ :=
  entries.countP fun entry => entry.isHealthy && held ≠ some entry.keyAlias

/-- The keys that are left to a call. -/
def free (s : System) (call : ℕ) : ℕ :=
  if (s.calls call).isOver then 0 else healthyBeside (s.calls call).held s.pool.entries

/-- A call takes a key. -/
def takes (before after : Call) : Bool := before.held.isNone && after.held.isSome

/-! ## The entries -/

variable {held : Option String} {keyAlias : String} {entries : List KeyEntry}

/-- A refresh makes as many keys healthy as limits are over. -/
theorem healthyBeside_refreshed (held : Option String) (entries : List KeyEntry) (now : ℕ) :
    healthyBeside held (entries.map (KeyEntry.refreshed now)) ≤
      healthyBeside held entries + entries.countP (KeyEntry.isExpired now) := by
  unfold healthyBeside
  induction entries with
  | nil => simp
  | cons entry entries ih =>
    simp only [List.map_cons, List.countP_cons]
    have hentry : (if ((entry.refreshed now).isHealthy &&
          decide (held ≠ some (entry.refreshed now).keyAlias)) = true then 1 else 0) ≤
        (if (entry.isHealthy && decide (held ≠ some entry.keyAlias)) = true then 1 else 0) +
          if entry.isExpired now = true then 1 else 0 := by
      by_cases hexpired : entry.isExpired now = true
      · rw [if_pos hexpired]
        split_ifs <;> omega
      · have hsame : entry.refreshed now = entry := by
          rw [KeyEntry.refreshed, if_neg]
          simpa [KeyEntry.isExpired] using hexpired
        rw [hsame]
        omega
    omega

/-- A mark makes no key healthy. -/
theorem healthyBeside_markFirst_le {f : KeyEntry → KeyEntry}
    (hf : ∀ entry, (f entry).isHealthy = false) :
    healthyBeside held (markFirst keyAlias f entries) ≤ healthyBeside held entries := by
  unfold healthyBeside
  induction entries with
  | nil => simp [markFirst]
  | cons entry entries ih =>
    rw [markFirst]
    split_ifs
    · simp [hf, List.countP_cons]
    · simp only [List.countP_cons]
      omega

/-- **A call that has marked its key** has as many left as before. -/
theorem healthyBeside_marked {f : KeyEntry → KeyEntry}
    (hf : ∀ entry, (f entry).isHealthy = false)
    (hnodup : (entries.map KeyEntry.keyAlias).Nodup) :
    healthyBeside none (markFirst keyAlias f entries) ≤ healthyBeside (some keyAlias) entries := by
  unfold healthyBeside
  induction entries with
  | nil => simp [markFirst]
  | cons entry entries ih =>
    rw [List.map_cons, List.nodup_cons] at hnodup
    rw [markFirst]
    split_ifs with halias
    · have hrest : entries.countP (fun e => e.isHealthy && decide (none ≠ some e.keyAlias)) ≤
          entries.countP fun e => e.isHealthy && decide (some keyAlias ≠ some e.keyAlias) := by
        refine List.countP_mono_left fun e he hhealthy => ?_
        have hother : keyAlias ≠ e.keyAlias := by
          rintro rfl
          exact hnodup.1 (halias ▸ List.mem_map_of_mem he)
        simpa [hother] using hhealthy
      simp only [List.countP_cons, hf]
      simpa [halias] using hrest
    · have hlater := ih hnodup.2
      have hentry : keyAlias ≠ entry.keyAlias := fun h => halias h.symm
      simp only [List.countP_cons]
      simp only [ne_eq, reduceCtorEq, not_false_eq_true, decide_true, Bool.and_true,
        Option.some_inj, hentry] at hlater ⊢
      omega

theorem healthyBeside_le_none : healthyBeside held entries ≤ healthyBeside none entries := by
  refine List.countP_mono_left fun entry _ hentry => ?_
  simp only [Bool.and_eq_true] at hentry
  simp [hentry.1]

/-- **A call that takes a healthy key** has one less left. -/
theorem healthyBeside_taken {entry : KeyEntry} (hentry : entry ∈ entries)
    (hhealthy : entry.isHealthy = true) :
    healthyBeside (some entry.keyAlias) entries + 1 ≤ healthyBeside none entries := by
  unfold healthyBeside
  induction entries with
  | nil => cases hentry
  | cons first entries ih =>
    have hmono : healthyBeside (some entry.keyAlias) entries ≤ healthyBeside none entries :=
      healthyBeside_le_none
    unfold healthyBeside at hmono
    simp only [List.countP_cons]
    rcases List.mem_cons.1 hentry with rfl | hlater
    · simp only [hhealthy, ne_eq, not_true_eq_false, decide_false, Bool.and_false,
        Bool.false_eq_true, if_false]
      simpa using hmono
    · have hrest := ih hlater
      have hfirst : (if (first.isHealthy &&
            decide (some entry.keyAlias ≠ some first.keyAlias)) = true then 1 else 0) ≤
          if (first.isHealthy && decide (none ≠ some first.keyAlias)) = true then 1 else 0 := by
        cases first.isHealthy <;> simp
        split_ifs <;> omega
      omega

/-! ## Steps -/

variable {s s' : System} {k call : ℕ} {e : Event}

/-- What holds of every state of a run. -/
structure Numbered (k : ℕ) (s : System) : Prop where
  aliases : (s.pool.entries.map KeyEntry.keyAlias).Nodup
  attempts : ∀ {call keyAlias attempt}, s.calls call = .asking keyAlias attempt → attempt < k

/-- A step of a call leaves the other calls where they are. -/
theorem calls_of_ne (hstep : s.step k e = some s') (hne : e.call ≠ call) :
    s'.calls call = s.calls call := by
  have hset : ∀ {other : ℕ} {phase : Call}, other ≠ call →
      (s.setCall other phase).calls call = s.calls call :=
    fun hother => Function.update_of_ne hother.symm _ _
  cases e with
  | begin other | allBlocked other =>
    obtain ⟨-, hsome⟩ := Option.ite_none_right_eq_some.1 hstep
    cases hsome
    exact hset hne
  | acquire other now reading later | earliest other now later =>
    obtain ⟨-, hsome⟩ := Option.ite_none_right_eq_some.1 hstep
    cases hsome
    exact hset hne
  | answer other now outcome =>
    simp only [step] at hstep
    split at hstep
    · obtain ⟨-, hsome⟩ := Option.ite_none_right_eq_some.1 hstep
      cases hsome
      exact hset hne
    · cases hstep
  | mark other =>
    simp only [step] at hstep
    split at hstep
    · cases hstep
      exact hset hne
    · cases hstep
      exact hset hne
    · cases hstep

/-- **What an acquisition does**: it refreshes the entries and finds none usable, or hands out one
that is. -/
theorem acquire_spec {now later : ℕ} {reading : ℕ → ℕ} (hk : 0 < k)
    (hstep : s.step k (.acquire call now reading later) = some s') :
    s.calls call = .acquiring ∧
      s'.pool.entries = s.pool.entries.map (KeyEntry.refreshed now) ∧
      (s'.calls call = .exhausted ∨ ∃ offset entry,
        (s.pool.refreshExpiredRateLimits now).healthyOffset reading = some offset ∧
        (s.pool.refreshExpiredRateLimits now).entries[
          (s.pool.refreshExpiredRateLimits now).place offset]? = some entry ∧
        s'.calls call = .asking entry.keyAlias 0) := by
  obtain ⟨⟨hcall, -⟩, hsome⟩ := Option.ite_none_right_eq_some.1 hstep
  cases hsome
  refine ⟨hcall, entries_acquireHealthyKey _ _ _, ?_⟩
  cases hoffset : (s.pool.refreshExpiredRateLimits now).healthyOffset reading with
  | none => exact Or.inl (Function.update_self _ _ _)
  | some offset =>
    have husable := List.find?_some hoffset
    obtain ⟨entry, hentry, -⟩ := (Option.any_eq_true _ _).1 husable
    refine Or.inr ⟨offset, entry, rfl, hentry, ?_⟩
    simp only [hentry, Option.map_some, if_pos hk]
    exact Function.update_self _ _ _

/-- Where a call goes on its own step. -/
inductive Moves (k : ℕ) : Call → Event → Call → Prop
  | begin {other} : Moves k .idle (.begin other) .acquiring
  | exhausted {other now reading later} :
    Moves k .acquiring (.acquire other now reading later) .exhausted
  | asked {other now reading later keyAlias} :
    0 < k → Moves k .acquiring (.acquire other now reading later) (.asking keyAlias 0)
  | limited {other} : Moves k .exhausted (.allBlocked other) .limited
  | allBlocked {other result} : Moves k .exhausted (.allBlocked other) (.done result)
  | earliest {other now later result} : Moves k .limited (.earliest other now later) (.done result)
  | again {other now outcome keyAlias attempt} : attempt + 1 < k →
    Moves k (.asking keyAlias attempt) (.answer other now outcome) (.asking keyAlias (attempt + 1))
  | blocked {other now outcome keyAlias attempt} :
    Moves k (.asking keyAlias attempt) (.answer other now outcome) (.markingBlocked keyAlias)
  | rateLimited {other now outcome keyAlias attempt deadline} :
    Moves k (.asking keyAlias attempt) (.answer other now outcome)
      (.markingRateLimited keyAlias deadline)
  | answered {other now outcome keyAlias attempt result} :
    Moves k (.asking keyAlias attempt) (.answer other now outcome) (.done result)
  | raised {other now outcome keyAlias attempt} :
    Moves k (.asking keyAlias attempt) (.answer other now outcome) .raised
  | markedBlocked {other keyAlias} : Moves k (.markingBlocked keyAlias) (.mark other) .acquiring
  | markedRateLimited {other keyAlias deadline} :
    Moves k (.markingRateLimited keyAlias deadline) (.mark other) .acquiring

/-- A call that is over makes no step. -/
theorem Moves.open {before after : Call} (h : Moves k before e after) : before.isOver = false := by
  cases h <;> rfl

/-- An acquisition and a mark apart, a call keeps its key until it is over. -/
theorem Moves.keeps {before after : Call} (h : Moves k before e after)
    (hacquire : ∀ other now reading later, e ≠ .acquire other now reading later)
    (hmark : ∀ other, e ≠ .mark other) : after.isOver = true ∨ after.held = before.held := by
  cases h with
  | exhausted | asked _ => exact absurd rfl (hacquire _ _ _ _)
  | markedBlocked | markedRateLimited => exact absurd rfl (hmark _)
  | begin | limited | again _ | blocked | rateLimited => exact Or.inr rfl
  | allBlocked | earliest | answered | raised => exact Or.inl rfl

/-- **Where a call goes on its own step**, if it has attempts. -/
theorem moves_of_step (hk : 0 < k) (hstep : s.step k e = some s') :
    Moves k (s.calls e.call) e (s'.calls e.call) := by
  have hset : ∀ {other : ℕ} {phase : Call}, (s.setCall other phase).calls other = phase :=
    Function.update_self _ _ _
  cases e with
  | begin other =>
    obtain ⟨hcall, hsome⟩ := Option.ite_none_right_eq_some.1 hstep
    cases hsome
    simp only [Event.call, hcall, hset]
    exact .begin
  | acquire other now reading later =>
    obtain ⟨hcall, -, hexhausted | ⟨offset, entry, -, -, hasking⟩⟩ := acquire_spec hk hstep
    · rw [Event.call, hcall, hexhausted]
      exact .exhausted
    · rw [Event.call, hcall, hasking]
      exact .asked hk
  | allBlocked other =>
    obtain ⟨hcall, hsome⟩ := Option.ite_none_right_eq_some.1 hstep
    cases hsome
    simp only [Event.call, hcall, hset]
    split_ifs
    · exact .allBlocked
    · exact .limited
  | earliest other now later =>
    obtain ⟨⟨hcall, -⟩, hsome⟩ := Option.ite_none_right_eq_some.1 hstep
    cases hsome
    simp only [Event.call, hcall, hset]
    exact .earliest
  | answer other now outcome =>
    simp only [step] at hstep
    split at hstep
    · rename_i keyAlias attempt hcall
      obtain ⟨-, hsome⟩ := Option.ite_none_right_eq_some.1 hstep
      cases hsome
      simp only [Event.call, hcall, hset]
      cases outcome with
      | success | tokenLimit | other => exact .answered
      | unauthorized => exact .blocked
      | rateLimited retryAfter =>
        rw [answered]
        split_ifs
        · exact .rateLimited
        · exact .raised
      | infra =>
        rw [answered]
        split_ifs with hattempt
        · exact .again hattempt
        · exact .answered
    · cases hstep
  | mark other =>
    simp only [step] at hstep
    split at hstep
    · rename_i keyAlias hcall
      cases hstep
      simp only [Event.call, hcall, hset]
      exact .markedBlocked
    · rename_i keyAlias deadline hcall
      cases hstep
      simp only [Event.call, hcall, hset]
      exact .markedRateLimited
    · cases hstep

/-! ### The entries and the attempts -/

/-- The call of an event has the key that it had, or is over. -/
def KeepsKey (s : System) (e : Event) (s' : System) : Prop :=
  (s'.calls e.call).isOver = true ∨ (s'.calls e.call).held = (s.calls e.call).held

/-- What a step does to the entries and to the key of its call. -/
inductive Effect (s : System) (e : Event) (s' : System) : Prop
  | refreshed (now : ℕ) :
    s'.pool.entries = s.pool.entries.map (KeyEntry.refreshed now) →
      s.pool.entries.countP (KeyEntry.isExpired now) ≤ s.expiries e → KeepsKey s e s' →
        Effect s e s'
  | taken (now : ℕ) (entry : KeyEntry) :
    s'.pool.entries = s.pool.entries.map (KeyEntry.refreshed now) → entry ∈ s'.pool.entries →
      s.pool.entries.countP (KeyEntry.isExpired now) + (if entry.isHealthy then 0 else 1) ≤
        s.expiries e →
        (s.calls e.call).held = none → (s'.calls e.call).held = some entry.keyAlias → Effect s e s'
  | marked (keyAlias : String) (f : KeyEntry → KeyEntry) :
    s'.pool.entries = markFirst keyAlias f s.pool.entries →
      (∀ entry : KeyEntry, (f entry).isHealthy = false) →
        (∀ entry : KeyEntry, (f entry).keyAlias = entry.keyAlias) →
          (s.calls e.call).held = some keyAlias → (s'.calls e.call).held = none → Effect s e s'
  | kept : s'.pool.entries = s.pool.entries → KeepsKey s e s' → Effect s e s'

/-- **What a step does to the entries**, and to the key of its call. -/
theorem effect_of_step (hk : 0 < k) (hstep : s.step k e = some s') : Effect s e s' := by
  have hmove := moves_of_step hk hstep
  cases e with
  | begin other | allBlocked other =>
    obtain ⟨-, hsome⟩ := Option.ite_none_right_eq_some.1 hstep
    exact .kept (by cases hsome; rfl) (hmove.keeps (by simp) (by simp))
  | acquire other now reading later =>
    obtain ⟨hcall, hentries, hexhausted | ⟨offset, entry, hoffset, hentry, hasking⟩⟩ :=
      acquire_spec hk hstep
    · refine .refreshed now hentries (Nat.le_add_right _ _) (Or.inr ?_)
      rw [Event.call, hcall, hexhausted]
      rfl
    · refine .taken now entry hentries ?_ ?_ ?_ ?_
      · rw [hentries]
        exact List.mem_of_getElem? hentry
      · simp only [expiries, hoffset, Option.elim_some, hentry, Option.any_some]
        exact le_rfl
      · rw [Event.call, hcall]
        rfl
      · rw [Event.call, hasking]
        rfl
  | earliest other now later =>
    obtain ⟨-, hsome⟩ := Option.ite_none_right_eq_some.1 hstep
    exact .refreshed now (by cases hsome; rfl) le_rfl (hmove.keeps (by simp) (by simp))
  | answer other now outcome =>
    simp only [step] at hstep
    split at hstep
    · obtain ⟨-, hsome⟩ := Option.ite_none_right_eq_some.1 hstep
      exact .kept (by cases hsome; rfl) (hmove.keeps (by simp) (by simp))
    · cases hstep
  | mark other =>
    simp only [step] at hstep
    split at hstep
    · rename_i keyAlias hcall
      cases hstep
      refine .marked keyAlias KeyEntry.block rfl (fun _ => rfl) (fun _ => rfl) ?_ ?_
      · rw [Event.call, hcall]
        rfl
      · exact congrArg Call.held (Function.update_self other Call.acquiring s.calls)
    · rename_i keyAlias deadline hcall
      cases hstep
      refine .marked keyAlias (KeyEntry.limit deadline) rfl (fun _ => rfl) (fun _ => rfl) ?_ ?_
      · rw [Event.call, hcall]
        rfl
      · exact congrArg Call.held (Function.update_self other Call.acquiring s.calls)
    · cases hstep

/-- The aliases stay as they are, and no call makes more attempts than it may. -/
theorem Numbered.step (h : s.Numbered k) (hk : 0 < k) (hstep : s.step k e = some s') :
    s'.Numbered k ∧ s'.pool.entries.length = s.pool.entries.length := by
  have hrefreshed : ∀ now, (s.pool.entries.map (KeyEntry.refreshed now)).map KeyEntry.keyAlias =
      s.pool.entries.map KeyEntry.keyAlias := by
    intro now
    rw [List.map_map]
    exact List.map_congr_left fun entry _ => refreshed_keyAlias now entry
  have haliases : s'.pool.entries.map KeyEntry.keyAlias =
      s.pool.entries.map KeyEntry.keyAlias := by
    cases effect_of_step hk hstep with
    | refreshed now hentries _ _ => rw [hentries, hrefreshed]
    | taken now entry hentries _ _ _ _ => rw [hentries, hrefreshed]
    | marked keyAlias f hentries _ hf _ _ => rw [hentries, map_keyAlias_markFirst hf]
    | kept hentries _ => rw [hentries]
  refine ⟨⟨haliases ▸ h.aliases, fun {call keyAlias attempt} hasking => ?_⟩, ?_⟩
  · by_cases hown : e.call = call
    · subst hown
      have hmove := moves_of_step hk hstep
      rw [hasking] at hmove
      generalize s.calls e.call = before at hmove
      cases hmove with
      | asked hpos => exact hpos
      | again hattempt => exact hattempt
    · rw [calls_of_ne hstep hown] at hasking
      exact h.attempts hasking
  · simpa using congrArg List.length haliases

theorem takes_of_held {before after : Call} (h : after.held = before.held) :
    takes before after = false := by
  rw [takes, h]
  cases before.held <;> rfl

/-- What the steps of other calls leave to a call. -/
theorem free_of_other (hk : 0 < k) (hstep : s.step k e = some s') (hne : e.call ≠ call) :
    s'.free call ≤ s.free call + s.expiries e := by
  unfold free
  rw [calls_of_ne hstep hne]
  split_ifs
  · exact Nat.zero_le _
  · cases effect_of_step hk hstep with
    | refreshed now hentries hexpired _ =>
      rw [hentries]
      exact (healthyBeside_refreshed _ _ now).trans (Nat.add_le_add_left hexpired _)
    | taken now entry hentries _ hexpired _ _ =>
      rw [hentries]
      refine (healthyBeside_refreshed _ _ now).trans (Nat.add_le_add_left ?_ _)
      omega
    | marked keyAlias f hentries hf _ _ _ =>
      rw [hentries]
      exact (healthyBeside_markFirst_le hf).trans (Nat.le_add_right _ _)
    | kept hentries _ =>
      rw [hentries]
      exact Nat.le_add_right _ _

/-- **The keys that are left to a call**: it uses one up when it takes one, and gets one for each
limit that is over. -/
theorem free_step (h : s.Numbered k) (hk : 0 < k) (hstep : s.step k e = some s') (call : ℕ) :
    s'.free call + (if takes (s.calls call) (s'.calls call) then 1 else 0) ≤
      s.free call + s.expiries e := by
  by_cases hown : e.call = call
  · subst hown
    unfold free
    by_cases hdone : (s'.calls e.call).isOver = true
    · have hnone : takes (s.calls e.call) (s'.calls e.call) = false := by
        rw [takes]
        cases hafter : s'.calls e.call with
        | done result => exact Bool.and_false _
        | raised => exact Bool.and_false _
        | _ => simp [hafter, Call.isOver] at hdone
      simp [hdone, hnone]
    rw [if_neg hdone, (moves_of_step hk hstep).open, if_neg Bool.false_ne_true]
    cases effect_of_step hk hstep with
    | refreshed now hentries hexpired hkeeps =>
      have hsame := hkeeps.resolve_left hdone
      rw [takes_of_held hsame, hsame, hentries]
      exact (healthyBeside_refreshed _ _ now).trans (Nat.add_le_add_left hexpired _)
    | taken now entry hentries hentry hexpired hnone hsome =>
      rw [takes, hnone, hsome, hentries]
      rw [hentries] at hentry
      have hrefreshed := healthyBeside_refreshed none s.pool.entries now
      by_cases hhealthy : entry.isHealthy = true
      · have htaken := healthyBeside_taken hentry hhealthy
        simp only [Option.isNone_none, Option.isSome_some, Bool.and_self, if_true]
        omega
      · rw [if_neg hhealthy] at hexpired
        have hmono : healthyBeside (some entry.keyAlias)
          (s.pool.entries.map (KeyEntry.refreshed now))
            ≤ healthyBeside none (s.pool.entries.map (KeyEntry.refreshed now)) :=
          healthyBeside_le_none
        simp only [Option.isNone_none, Option.isSome_some, Bool.and_self, if_true]
        omega
    | marked keyAlias f hentries hf _ hsome hnone =>
      have hmarked : healthyBeside none (markFirst keyAlias f s.pool.entries) ≤
          healthyBeside (some keyAlias) s.pool.entries := healthyBeside_marked hf h.aliases
      rw [takes, hsome, hnone, hentries]
      exact hmarked.trans (Nat.le_add_right _ _)
    | kept hentries hkeeps =>
      have hsame := hkeeps.resolve_left hdone
      rw [takes_of_held hsame, hsame, hentries]
      exact Nat.le_add_right _ _
  · rw [takes_of_held (congrArg Call.held (calls_of_ne hstep hown))]
    exact free_of_other hk hstep hown

/-! ## The bounds -/

/-- The answers that a call may still get with its key. -/
def answersLeft (k : ℕ) : Call → ℕ
  | .asking _ attempt => k - attempt
  | _ => 0

/-- The steps that a call may still make without another key. -/
def stepsLeft (k : ℕ) : Call → ℕ
  | .idle => 4
  | .acquiring => 3
  | .exhausted => 2
  | .limited => 1
  | .asking _ attempt => k - attempt + 4
  | .markingBlocked _ | .markingRateLimited _ _ => 4
  | .done _ | .raised => 0

theorem Moves.answersLeft {before after : Call} (h : Moves k before e after)
    (hattempt : ∀ {keyAlias attempt}, before = .asking keyAlias attempt → attempt < k) :
    System.answersLeft k after + (if e.answers e.call then 1 else 0) ≤
      System.answersLeft k before + if takes before after then k else 0 := by
  cases h with
  | begin | exhausted | limited | allBlocked | earliest | markedBlocked | markedRateLimited =>
    exact Nat.zero_le _
  | asked _ => exact Nat.le_of_eq (Nat.zero_add k).symm
  | again hlater =>
    simp only [System.answersLeft, Event.answers, Event.call, decide_true, if_true]
    omega
  | blocked | rateLimited | answered | raised =>
    have hlt := hattempt rfl
    simp only [System.answersLeft, Event.answers, Event.call, decide_true, if_true]
    omega

theorem Moves.stepsLeft {before after : Call} (h : Moves k before e after)
    (hattempt : ∀ {keyAlias attempt}, before = .asking keyAlias attempt → attempt < k) :
    System.stepsLeft k after + 1 ≤
      System.stepsLeft k before + if takes before after then k + 2 else 0 := by
  cases h with
  | asked _ =>
    simp only [System.stepsLeft, takes, Call.held, Option.isNone_none, Option.isSome_some,
      Bool.and_self, if_true]
    omega
  | again _ | blocked | rateLimited | answered | raised =>
    have hlt := hattempt rfl
    simp only [System.stepsLeft]
    omega
  | _ =>
    simp only [System.stepsLeft]
    omega

/-- **What a step costs a call** is paid from what its phase has left, and from the keys that it
has left. -/
theorem charge_step (h : s.Numbered k) (hk : 0 < k) (hstep : s.step k e = some s') {m cost : ℕ}
    {weight : Call → ℕ}
    (hmove : weight (s'.calls call) + cost ≤
      weight (s.calls call) + if takes (s.calls call) (s'.calls call) then m else 0) :
    m * s'.free call + weight (s'.calls call) + cost ≤
      m * s.free call + weight (s.calls call) + m * s.expiries e := by
  have hfree := Nat.mul_le_mul_left m (free_step h hk hstep call)
  rw [Nat.mul_add, Nat.mul_add, mul_ite, Nat.mul_one, Nat.mul_zero] at hfree
  omega

/-- Nothing is charged to a call for the steps of another. -/
theorem moves_of_other (hstep : s.step k e = some s') (hne : e.call ≠ call) {m : ℕ}
    {weight : Call → ℕ} :
    weight (s'.calls call) + 0 ≤
      weight (s.calls call) + if takes (s.calls call) (s'.calls call) then m else 0 := by
  rw [calls_of_ne hstep hne]
  exact Nat.le_add_right _ _

theorem answers_step (h : s.Numbered k) (hk : 0 < k) (hstep : s.step k e = some s') :
    k * s'.free call + answersLeft k (s'.calls call) + (if e.answers call then 1 else 0) ≤
      k * s.free call + answersLeft k (s.calls call) + k * s.expiries e := by
  refine charge_step h hk hstep ?_
  by_cases hown : e.call = call
  · subst hown
    exact (moves_of_step hk hstep).answersLeft h.attempts
  · have hnot : e.answers call = false := by
      cases e with
      | answer other now outcome => simpa [Event.answers, Event.call] using hown
      | _ => rfl
    rw [hnot]
    exact moves_of_other hstep hown

theorem own_step (h : s.Numbered k) (hk : 0 < k) (hstep : s.step k e = some s') :
    (k + 2) * s'.free call + stepsLeft k (s'.calls call) + (if e.isOf call then 1 else 0) ≤
      (k + 2) * s.free call + stepsLeft k (s.calls call) + (k + 2) * s.expiries e := by
  refine charge_step h hk hstep ?_
  by_cases hown : e.call = call
  · subst hown
    rw [if_pos (by simp [Event.isOf])]
    exact (moves_of_step hk hstep).stepsLeft h.attempts
  · rw [if_neg (by simpa [Event.isOf] using hown)]
    exact moves_of_other hstep hown

/-! ## Runs -/

theorem Fresh.numbered (h : s.Fresh) : s.Numbered k := by
  obtain ⟨⟨apiKeys, hpool⟩, hidle, -, -⟩ := h
  refine ⟨?_, fun {call _ _} hasking => ?_⟩
  · rw [hpool]
    exact nodup_buildKeyEntries apiKeys
  · rw [hidle call] at hasking
    cases hasking

theorem numbered_of_reachable (hk : 0 < k)
    (h : Runs.Reachable (System.step k) (fun _ _ => True) Fresh s) : s.Numbered k :=
  h.invariant (fun _ hs => hs.numbered) fun _ _ _ hinv _ hstep => (hinv.step hk hstep).1

/-! ### Exceptions -/

theorem answered_eq_raised {keyAlias : String} {attempt now : ℕ} {outcome : Outcome} :
    answered k keyAlias attempt now outcome = .raised ↔
      ¬ (Event.answer call now outcome).InRange call := by
  cases outcome with
  | infra =>
    rw [answered]
    split_ifs <;> simp [Event.InRange]
  | rateLimited retryAfter =>
    rw [answered]
    split_ifs with hrange <;> simp [Event.InRange, hrange]
  | _ => simp [answered, Event.InRange]

/-- **A call raises** at an answer whose deadline is out of range, and at no other step. -/
theorem raised_step (hk : 0 < k) (hstep : s.step k e = some s') :
    s'.calls call = .raised ↔ s.calls call = .raised ∨ ¬ e.InRange call := by
  by_cases hown : e.call = call
  · subst hown
    have hmove := moves_of_step hk hstep
    have hopen : s.calls e.call ≠ .raised := fun hraised => by
      rw [hraised] at hmove
      cases hmove
    rw [or_iff_right hopen]
    cases e with
    | answer other now outcome =>
      simp only [step] at hstep
      split at hstep
      · rename_i keyAlias attempt hcall
        obtain ⟨-, hsome⟩ := Option.ite_none_right_eq_some.1 hstep
        cases hsome
        have hnext : (s.setCall other (answered k keyAlias attempt now outcome)).calls other =
            answered k keyAlias attempt now outcome := Function.update_self ..
        exact (iff_of_eq (congrArg (· = Call.raised) hnext)).trans answered_eq_raised
      · cases hstep
    | _ =>
      refine iff_of_false (fun hraised => ?_) (by simp [Event.InRange])
      rw [hraised] at hmove
      generalize s.calls _ = before at hmove
      cases hmove
  · have hrange : e.InRange call := by
      cases e with
      | answer other now outcome =>
        cases outcome with
        | rateLimited retryAfter => exact fun hsame => absurd hsame hown
        | _ => exact trivial
      | _ => exact trivial
    rw [calls_of_ne hstep hown, or_iff_left (not_not_intro hrange)]

theorem raised_run (hk : 0 < k) {events : List Event}
    (hrun : Runs.run (System.step k) s events = some s') :
    s'.calls call = .raised ↔ s.calls call = .raised ∨ ∃ e ∈ events, ¬ e.InRange call := by
  induction events generalizing s with
  | nil =>
    cases hrun
    simp
  | cons e events ih =>
    obtain ⟨t, hstep, hrest⟩ := Option.bind_eq_some_iff.1 hrun
    rw [ih hrest, raised_step hk hstep]
    simp only [List.mem_cons, exists_eq_or_imp, or_assoc]

/-- A call that an exception has left makes no step. -/
theorem not_step_of_raised (hraised : s.calls e.call = .raised) : s.step k e = none := by
  cases e <;> simp_all [step, Event.call]

/-- A call that is not over goes on: its method returns, or the provider answers. -/
theorem goes_on (s : System) (call : ℕ) (hover : (s.calls call).isOver = false) :
    ∃ e, e.call = call ∧ (s.step k e).isSome := by
  cases hcall : s.calls call with
  | idle => exact ⟨.begin call, rfl, by simp [step, hcall]⟩
  | acquiring =>
    refine ⟨.acquire call s.clock (fun _ => s.clock) s.clock, rfl, ?_⟩
    have hreads : s.Reads s.clock (fun _ => s.clock) s.clock :=
      ⟨le_rfl, le_rfl, fun _ _ => ⟨le_rfl, le_rfl⟩⟩
    simp [step, hcall, hreads]
  | exhausted => exact ⟨.allBlocked call, rfl, by simp [step, hcall]⟩
  | limited => exact ⟨.earliest call s.clock s.clock, rfl, by simp [step, hcall]⟩
  | asking keyAlias attempt => exact ⟨.answer call s.clock .success, rfl, by simp [step, hcall]⟩
  | markingBlocked keyAlias => exact ⟨.mark call, rfl, by simp [step, hcall]⟩
  | markingRateLimited keyAlias deadline => exact ⟨.mark call, rfl, by simp [step, hcall]⟩
  | done result => simp [hcall, Call.isOver] at hover
  | raised => simp [hcall, Call.isOver] at hover

/-- **A call returns or goes on**, unless an exception has left it. -/
theorem done_or_goes_on (s : System) (call : ℕ) :
    ((s.calls call).isDone = true ∨ ∃ e, e.call = call ∧ (s.step k e).isSome) ↔
      s.calls call ≠ .raised := by
  constructor
  · rintro (hdone | ⟨e, rfl, hstep⟩) hraised
    · rw [hraised] at hdone
      cases hdone
    · rw [not_step_of_raised hraised] at hstep
      cases hstep
  · intro hraised
    cases hcall : s.calls call with
    | done result => exact Or.inl rfl
    | raised => exact absurd hcall hraised
    | _ => exact Or.inr (goes_on s call (by rw [hcall]; rfl))

/-- The calls of the provider that a call makes in a run: those that are answered, and the one that
it waits for. -/
def providerCalls (events : List Event) (call : ℕ) (s' : System) : ℕ :=
  events.countP (Event.answers call) + if (s'.calls call).isAsking then 1 else 0

end System

/-! ## One key -/

/-- The key is limited for a second, and then handed out again. -/
def limitedTwice : List Event :=
  limitedOnce ++ [.acquire 0 1000000 (fun _ => 1000000) 1000000, .answer 0 1000000 .success]

-- the key is asked twice, with one key and one attempt
example : (Runs.run (System.step 1) oneKey limitedTwice).map
    (System.providerCalls limitedTwice 0) = some 2 := by decide

/-- The key is limited for longer than there are years. -/
def limitedForEver : List Event :=
  [.begin 0, .acquire 0 0 (fun _ => 0) 0, .answer 0 0 (.rateLimited (some 1000000000000))]

end StudyAgent.Llm
