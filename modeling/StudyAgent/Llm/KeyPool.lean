import StudyAgent.Base.Runs
import StudyAgent.Base.Text

/-!
# The pool of API keys

Calls to the language model share a pool of keys.  A call takes a key that is healthy and keeps
it while it waits for the answer; an answer that refuses the key marks it, in a method of the
pool of its own.  The methods take a lock, so each of them is one step; between them other calls
have their turn, and may have marked the key that a call is about to mark.

Main results:

* `acquired_key_healthy` — a key is handed out only if it is healthy when its turn comes.
* `key_health_respected` — **a blocked key is never handed out again, and no key before every
  deadline recorded for it has passed**, where no mark for a rate limit takes back a block or
  brings a deadline forward.
-/

namespace StudyAgent.Llm

/-! ## The pool -/

/-- `KeyStatus`. -/
inductive KeyStatus where
  | healthy
  | blocked
  | rateLimited
  deriving DecidableEq

/-- `KeyEntry`; times are in microseconds, from the first day that `datetime` has. -/
structure KeyEntry where
  keyAlias : String
  apiKey : String
  status : KeyStatus := .healthy
  rateLimitedUntil : Option ℕ := none
  deriving DecidableEq

/-- `GroqKeyPool`. -/
structure GroqKeyPool where
  entries : List KeyEntry
  roundRobin : ℕ := 0
  deriving DecidableEq

/-- `_build_key_entries`. -/
def buildKeyEntries (apiKeys : List String) : List KeyEntry :=
  apiKeys.mapIdx fun index apiKey =>
    { keyAlias := "key_" ++ toString (index + 1), apiKey := apiKey }

namespace KeyEntry

/-- `_refresh_expired_rate_limits`, on one entry. -/
def refreshed (now : ℕ) (entry : KeyEntry) : KeyEntry :=
  if entry.status = .rateLimited ∧ entry.rateLimitedUntil.any (· ≤ now) then
    { entry with status := .healthy, rateLimitedUntil := none }
  else entry

/-- `_is_usable`. -/
def isUsable (now : ℕ) (entry : KeyEntry) : Bool :=
  match entry.status with
  | .blocked => false
  | .rateLimited => entry.rateLimitedUntil.any (· ≤ now)
  | .healthy => true

def block (entry : KeyEntry) : KeyEntry :=
  { entry with status := .blocked, rateLimitedUntil := none }

def limit (deadline : ℕ) (entry : KeyEntry) : KeyEntry :=
  { entry with status := .rateLimited, rateLimitedUntil := some deadline }

end KeyEntry

/-- The first entry with an alias is changed. -/
def markFirst (keyAlias : String) (f : KeyEntry → KeyEntry) : List KeyEntry → List KeyEntry
  | [] => []
  | entry :: entries =>
    if entry.keyAlias = keyAlias then f entry :: entries else entry :: markFirst keyAlias f entries

namespace GroqKeyPool

variable (p : GroqKeyPool)

/-- `_refresh_expired_rate_limits`. -/
def refreshExpiredRateLimits (now : ℕ) : GroqKeyPool :=
  { p with entries := p.entries.map (KeyEntry.refreshed now) }

/-- The place that an offset from the round robin leads to. -/
def place (offset : ℕ) : ℕ := (p.roundRobin + offset) % p.entries.length

/-- The first offset whose entry is usable, each by a reading of the clock of its own. -/
def healthyOffset (reading : ℕ → ℕ) : Option ℕ :=
  (List.range p.entries.length).find? fun offset =>
    p.entries[p.place offset]?.any (KeyEntry.isUsable (reading offset))

/-- `acquire_healthy_key`, on a pool that has been refreshed. -/
def acquire (reading : ℕ → ℕ) : GroqKeyPool × Option (String × String) :=
  match p.healthyOffset reading with
  | none => (p, none)
  | some offset =>
    ({ p with roundRobin := (p.place offset + 1) % p.entries.length },
      p.entries[p.place offset]?.map fun entry => (entry.keyAlias, entry.apiKey))

/-- `acquire_healthy_key`. -/
def acquireHealthyKey (now : ℕ) (reading : ℕ → ℕ) : GroqKeyPool × Option (String × String) :=
  (p.refreshExpiredRateLimits now).acquire reading

/-- `mark_blocked`. -/
def markBlocked (keyAlias : String) : GroqKeyPool :=
  { p with entries := markFirst keyAlias KeyEntry.block p.entries }

/-- `mark_rate_limited`. -/
def markRateLimited (keyAlias : String) (deadline : ℕ) : GroqKeyPool :=
  { p with entries := markFirst keyAlias (KeyEntry.limit deadline) p.entries }

/-- `all_blocked`. -/
def allBlocked : Bool := p.entries.all fun entry => entry.status = .blocked

/-- `earliest_rate_limit_retry_at`, on a pool that has been refreshed. -/
def earliestRateLimitRetryAt : Option ℕ :=
  (p.entries.filterMap fun entry =>
    if entry.status = .rateLimited then entry.rateLimitedUntil else none).min?

end GroqKeyPool

/-! ## Calls -/

/-- What a call ends with. -/
structure GroqCallResult where
  ok : Bool
  errorType : Option String := none
  apiKeyAlias : String
  attemptIndex : ℕ
  retryAfterSeconds : Option ℕ := none
  nextLlmRetryAt : Option ℕ := none
  deriving DecidableEq

/-- Where a call of `call_groq_with_rotation` stands. -/
inductive Call where
  | idle
  | acquiring
  /-- No key is healthy. -/
  | exhausted
  /-- Some key is not blocked. -/
  | limited
  /-- Waiting for the provider, at an attempt. -/
  | asking (keyAlias : String) (attempt : ℕ)
  | markingBlocked (keyAlias : String)
  | markingRateLimited (keyAlias : String) (deadline : ℕ)
  | done (result : GroqCallResult)
  /-- An exception has left the call. -/
  | raised
  deriving DecidableEq

/-- What the provider answers, as the call classifies it; a rate limit comes with the header. -/
inductive Outcome where
  | success
  | tokenLimit
  | unauthorized
  | rateLimited (retryAfter : Option ℤ)
  | infra
  | other
  deriving DecidableEq

/-- `_extract_retry_after_seconds`. -/
def extractRetryAfterSeconds (retryAfter : Option ℤ) : ℕ :=
  (retryAfter.elim 60 fun raw => max 1 raw).toNat

def microsecondsPerSecond : ℕ := 1000000

/-- `datetime.max`: the last microsecond of the year 9999. -/
def datetimeMax : ℕ := 315537897599999999

/-- `datetime.now(UTC) + timedelta(seconds=retry_seconds)`. -/
def deadlineAfter (now : ℕ) (retryAfter : Option ℤ) : ℕ :=
  now + extractRetryAfterSeconds retryAfter * microsecondsPerSecond

/-- The pool and the calls, with the latest reading of the clock and with what has been recorded
of the keys. -/
structure System where
  pool : GroqKeyPool
  calls : ℕ → Call
  clock : ℕ
  blocked : String → Bool
  deadlines : String → List ℕ

/-- The steps of the calls, with their readings of the clock. -/
inductive Event where
  | begin (call : ℕ)
  | acquire (call now : ℕ) (reading : ℕ → ℕ) (later : ℕ)
  | allBlocked (call : ℕ)
  | earliest (call now later : ℕ)
  | answer (call now : ℕ) (outcome : Outcome)
  | mark (call : ℕ)

namespace System

def setCall (s : System) (call : ℕ) (phase : Call) : System :=
  { s with calls := Function.update s.calls call phase }

/-- A method that reads the clock when it refreshes the entries, then for each entry, and returns
later. -/
def Reads (s : System) (now : ℕ) (reading : ℕ → ℕ) (later : ℕ) : Prop :=
  s.clock ≤ now ∧ now ≤ later ∧
    ∀ offset < s.pool.entries.length, now ≤ reading offset ∧ reading offset ≤ later

instance (s : System) (now : ℕ) (reading : ℕ → ℕ) (later : ℕ) :
    Decidable (s.Reads now reading later) := inferInstanceAs (Decidable (_ ∧ _ ∧ _))

/-- What a call does with an answer. -/
def answered (maxInfraAttempts : ℕ) (keyAlias : String) (attempt now : ℕ) : Outcome → Call
  | .success => .done { ok := true, apiKeyAlias := keyAlias, attemptIndex := attempt + 1 }
  | .tokenLimit =>
    .done
      { ok := false, errorType := some "token_limit", apiKeyAlias := keyAlias
        attemptIndex := attempt + 1 }
  | .unauthorized => .markingBlocked keyAlias
  | .rateLimited retryAfter =>
    -- a sum beyond `datetime.max` raises `OverflowError`, in the handler of the answer
    if deadlineAfter now retryAfter ≤ datetimeMax then
      .markingRateLimited keyAlias (deadlineAfter now retryAfter)
    else .raised
  | .infra =>
    if attempt + 1 < maxInfraAttempts then .asking keyAlias (attempt + 1)
    else
      .done
        { ok := false, errorType := some "llm_infra_error", apiKeyAlias := keyAlias
          attemptIndex := attempt + 1 }
  | .other =>
    .done
      { ok := false, errorType := some "llm_infra_error", apiKeyAlias := keyAlias
        attemptIndex := attempt + 1 }

/-- One step of a call; `none` where the call is elsewhere, or the clock would run back. -/
def step (maxInfraAttempts : ℕ) (s : System) : Event → Option System
  | .begin call => if s.calls call = .idle then some (s.setCall call .acquiring) else none
  | .acquire call now reading later =>
    if s.calls call = .acquiring ∧ s.Reads now reading later then
      let (pool, key) := s.pool.acquireHealthyKey now reading
      let phase : Call :=
        match key with
        | none => .exhausted
        | some (keyAlias, _) => if 0 < maxInfraAttempts then .asking keyAlias 0 else .acquiring
      some { s.setCall call phase with pool := pool, clock := later }
    else none
  | .allBlocked call =>
    if s.calls call = .exhausted then
      some (s.setCall call
        (if s.pool.allBlocked then
          .done
            { ok := false, errorType := some "llm_key_pool_exhausted", apiKeyAlias := "pool"
              attemptIndex := 0 }
        else .limited))
    else none
  | .earliest call now later =>
    if s.calls call = .limited ∧ s.clock ≤ now ∧ now ≤ later then
      let pool := s.pool.refreshExpiredRateLimits now
      let retryAt := pool.earliestRateLimitRetryAt
      some { s.setCall call (.done
        { ok := false
          errorType := some "rate_limited"
          apiKeyAlias := "pool"
          attemptIndex := 0
          retryAfterSeconds := retryAt.map fun t => max 1 ((t - later) / microsecondsPerSecond)
          nextLlmRetryAt := retryAt }) with pool := pool, clock := later }
    else none
  | .answer call now outcome =>
    match s.calls call with
    | .asking keyAlias attempt =>
      if s.clock ≤ now then
        some
          { s.setCall call (answered maxInfraAttempts keyAlias attempt now outcome) with
            clock := now }
      else none
    | _ => none
  | .mark call =>
    match s.calls call with
    | .markingBlocked keyAlias =>
      some { s.setCall call .acquiring with
        pool := s.pool.markBlocked keyAlias
        blocked := Function.update s.blocked keyAlias true }
    | .markingRateLimited keyAlias deadline =>
      some { s.setCall call .acquiring with
        pool := s.pool.markRateLimited keyAlias deadline
        deadlines := Function.update s.deadlines keyAlias (deadline :: s.deadlines keyAlias) }
    | _ => none

/-- A pool that has just been built, and nothing recorded. -/
def Fresh (s : System) : Prop :=
  (∃ apiKeys, s.pool = { entries := buildKeyEntries apiKeys }) ∧
    (∀ call, s.calls call = .idle) ∧ (∀ keyAlias, s.blocked keyAlias = false) ∧
    ∀ keyAlias, s.deadlines keyAlias = []

end System

/-! ## One entry -/

/-- An entry respects what is recorded of its key: a block, and every deadline that has not
passed. -/
structure Respects (blocked : Bool) (deadlines : List ℕ) (clock : ℕ) (entry : KeyEntry) : Prop where
  blocked : blocked = true → entry.status = .blocked
  deadlines : ∀ d ∈ deadlines, d ≤ clock ∨ entry.status = .blocked ∨
    (entry.status = .rateLimited ∧ ∃ u ∈ entry.rateLimitedUntil, d ≤ u)

section Entry

variable {blocked : Bool} {deadlines : List ℕ} {clock now : ℕ} {entry : KeyEntry}

theorem Respects.mono (h : Respects blocked deadlines clock entry) (hclock : clock ≤ now) :
    Respects blocked deadlines now entry where
  blocked := h.blocked
  deadlines d hd := (h.deadlines d hd).imp_left fun hpassed => hpassed.trans hclock

/-- A refresh forgets only a deadline that has passed. -/
theorem Respects.refreshed (h : Respects blocked deadlines clock entry) (hclock : clock ≤ now) :
    Respects blocked deadlines now (entry.refreshed now) := by
  rw [KeyEntry.refreshed]
  split_ifs with hexpired
  · obtain ⟨hlimited, hpassed⟩ := hexpired
    refine ⟨fun hblocked => ?_, fun d hd => Or.inl ?_⟩
    · rw [h.blocked hblocked] at hlimited
      cases hlimited
    · rcases h.deadlines d hd with hd | hd | ⟨-, u, hu, hle⟩
      · exact hd.trans hclock
      · rw [hd] at hlimited
        cases hlimited
      · rw [Option.mem_def.1 hu, Option.any_some, decide_eq_true_iff] at hpassed
        exact hle.trans hpassed
  · exact h.mono hclock

/-- **A key that is usable is neither blocked nor limited.** -/
theorem Respects.of_isUsable (h : Respects blocked deadlines clock entry) (hclock : clock ≤ now)
    (husable : entry.isUsable now = true) : blocked = false ∧ ∀ d ∈ deadlines, d ≤ now := by
  have hopen : entry.status ≠ .blocked := by
    intro hblocked
    rw [KeyEntry.isUsable, hblocked] at husable
    cases husable
  refine ⟨?_, fun d hd => ?_⟩
  · by_contra hblocked
    exact hopen (h.blocked (by simpa using hblocked))
  · rcases h.deadlines d hd with hd | hd | ⟨hlimited, u, hu, hle⟩
    · exact hd.trans hclock
    · exact absurd hd hopen
    · rw [KeyEntry.isUsable, hlimited] at husable
      simp only [Option.mem_def.1 hu, Option.any_some, decide_eq_true_iff] at husable
      exact hle.trans husable

theorem respects_block : Respects blocked deadlines clock entry.block :=
  ⟨fun _ => rfl, fun _ _ => Or.inr (Or.inl rfl)⟩

/-- **A mark for a rate limit**, if it takes back no block and brings no deadline forward. -/
theorem Respects.limit {deadline : ℕ} (h : Respects blocked deadlines clock entry)
    (hopen : entry.status ≠ .blocked)
    (hlater : ∀ u ∈ entry.rateLimitedUntil, u ≤ deadline ∨ u ≤ clock) :
    Respects blocked (deadline :: deadlines) clock (entry.limit deadline) where
  blocked hblocked := absurd (h.blocked hblocked) hopen
  deadlines d hd := by
    have hlimit : ∀ {d}, d ≤ deadline → (entry.limit deadline).status = .rateLimited ∧
        ∃ u ∈ (entry.limit deadline).rateLimitedUntil, d ≤ u := fun hle => ⟨rfl, deadline, rfl, hle⟩
    rcases List.mem_cons.1 hd with rfl | hold
    · exact Or.inr (Or.inr (hlimit le_rfl))
    · rcases h.deadlines d hold with hd | hd | ⟨-, u, hu, hle⟩
      · exact Or.inl hd
      · exact absurd hd hopen
      · rcases hlater u hu with hnew | hpassed
        · exact Or.inr (Or.inr (hlimit (hle.trans hnew)))
        · exact Or.inl (hle.trans hpassed)

end Entry

/-! ## The entries -/

section Entries

variable {keyAlias : String} {f : KeyEntry → KeyEntry} {entries : List KeyEntry}

theorem map_keyAlias_markFirst (hf : ∀ entry, (f entry).keyAlias = entry.keyAlias) :
    (markFirst keyAlias f entries).map KeyEntry.keyAlias = entries.map KeyEntry.keyAlias := by
  induction entries with
  | nil => rfl
  | cons entry entries ih =>
    rw [markFirst]
    split_ifs
    · rw [List.map_cons, List.map_cons, hf]
    · rw [List.map_cons, List.map_cons, ih]

/-- Where the aliases are distinct, the entry with the alias is changed and no other. -/
theorem mem_markFirst (hnodup : (entries.map KeyEntry.keyAlias).Nodup) {entry : KeyEntry}
    (h : entry ∈ markFirst keyAlias f entries) :
    (entry ∈ entries ∧ entry.keyAlias ≠ keyAlias) ∨
      ∃ old, entries.find? (fun e => e.keyAlias = keyAlias) = some old ∧ entry = f old := by
  induction entries with
  | nil => cases h
  | cons head entries ih =>
    rw [List.map_cons, List.nodup_cons] at hnodup
    rw [markFirst] at h
    split_ifs at h with hhead
    · rcases List.mem_cons.1 h with rfl | hrest
      · exact Or.inr ⟨head, by simp [hhead], rfl⟩
      · refine Or.inl ⟨List.mem_cons_of_mem _ hrest, fun hsame => hnodup.1 ?_⟩
        rw [hhead, ← hsame]
        exact List.mem_map_of_mem hrest
    · rcases List.mem_cons.1 h with rfl | hrest
      · exact Or.inl ⟨List.mem_cons_self, hhead⟩
      · rcases ih hnodup.2 hrest with ⟨hmem, hother⟩ | ⟨old, hfound, heq⟩
        · exact Or.inl ⟨List.mem_cons_of_mem _ hmem, hother⟩
        · exact Or.inr ⟨old, by simp [hhead, hfound], heq⟩

theorem refreshed_keyAlias (now : ℕ) (entry : KeyEntry) :
    (entry.refreshed now).keyAlias = entry.keyAlias := by
  rw [KeyEntry.refreshed]
  split_ifs <;> rfl

/-- The aliases of a pool are numbered. -/
theorem nodup_buildKeyEntries (apiKeys : List String) :
    ((buildKeyEntries apiKeys).map KeyEntry.keyAlias).Nodup := by
  refine List.pairwise_iff_getElem.2 fun i j hi hj hlt hsame => ?_
  simp only [buildKeyEntries, List.getElem_map, List.getElem_mapIdx] at hsame
  have hindex : i + 1 = j + 1 := Py.append_toString_injective "key_" hsame
  omega

end Entries

/-! ## Runs -/

namespace System

/-- Every entry respects what is recorded of its key. -/
structure Inv (s : System) : Prop where
  aliases : (s.pool.entries.map KeyEntry.keyAlias).Nodup
  respects : ∀ entry ∈ s.pool.entries,
    Respects (s.blocked entry.keyAlias) (s.deadlines entry.keyAlias) s.clock entry

/-- The key and the deadline of a mark for a rate limit. -/
def limitMark (s : System) : Event → Option (String × ℕ)
  | .mark call =>
    match s.calls call with
    | .markingRateLimited keyAlias deadline => some (keyAlias, deadline)
    | _ => none
  | _ => none

/-- A mark for a rate limit takes back no block, and brings no deadline forward that has not
passed. -/
def InForce (s : System) (e : Event) : Prop :=
  ∀ m ∈ s.limitMark e, ∀ entry ∈ s.pool.entries.find? (fun entry => entry.keyAlias = m.1),
    entry.status ≠ .blocked ∧ ∀ u ∈ entry.rateLimitedUntil, u ≤ m.2 ∨ u ≤ s.clock

instance (s : System) (e : Event) : Decidable (s.InForce e) :=
  inferInstanceAs (Decidable (∀ m ∈ s.limitMark e,
    ∀ entry ∈ s.pool.entries.find? (fun entry => entry.keyAlias = m.1),
      entry.status ≠ .blocked ∧ ∀ u ∈ entry.rateLimitedUntil, u ≤ m.2 ∨ u ≤ s.clock))

variable {s s' : System} {maxInfraAttempts : ℕ}

theorem Fresh.inv (h : s.Fresh) : s.Inv := by
  obtain ⟨⟨apiKeys, hpool⟩, -, hblocked, hdeadlines⟩ := h
  refine ⟨?_, fun entry _ => ⟨fun hentry => ?_, fun d hd => ?_⟩⟩
  · rw [hpool]
    exact nodup_buildKeyEntries apiKeys
  · rw [hblocked] at hentry
    cases hentry
  · rw [hdeadlines] at hd
    cases hd

/-- A refresh keeps the records respected. -/
theorem Inv.refreshed (h : s.Inv) {now : ℕ} (hclock : s.clock ≤ now) :
    ({ s with pool := s.pool.refreshExpiredRateLimits now, clock := now } : System).Inv where
  aliases := by
    have hsame : KeyEntry.keyAlias ∘ KeyEntry.refreshed now = KeyEntry.keyAlias :=
      funext (refreshed_keyAlias now)
    show ((s.pool.entries.map _).map _).Nodup
    rw [List.map_map, hsame]
    exact h.aliases
  respects entry hentry := by
    obtain ⟨old, hold, rfl⟩ := List.mem_map.1 hentry
    rw [refreshed_keyAlias]
    exact (h.respects old hold).refreshed hclock

/-- **A key is handed out only if it is healthy when its turn comes.** -/
theorem acquired_key_healthy (h : s.Inv) {now later : ℕ} {reading : ℕ → ℕ}
    (hreads : s.Reads now reading later) {keyAlias apiKey : String}
    (hkey : (s.pool.acquireHealthyKey now reading).2 = some (keyAlias, apiKey)) :
    s.blocked keyAlias = false ∧ ∀ d ∈ s.deadlines keyAlias, d ≤ later := by
  obtain ⟨hnow, -, hreadings⟩ := hreads
  have hfresh := h.refreshed hnow
  rw [GroqKeyPool.acquireHealthyKey, GroqKeyPool.acquire] at hkey
  cases hoffset : (s.pool.refreshExpiredRateLimits now).healthyOffset reading with
  | none =>
    rw [hoffset] at hkey
    cases hkey
  | some offset =>
    rw [hoffset] at hkey
    obtain ⟨entry, hentry, hpair⟩ := Option.map_eq_some_iff.1 hkey
    obtain ⟨rfl, -⟩ := Prod.mk.inj hpair
    have husable := List.find?_some hoffset
    rw [hentry, Option.any_some] at husable
    have hrange : offset < s.pool.entries.length := by
      have := List.mem_of_find?_eq_some hoffset
      simpa [GroqKeyPool.refreshExpiredRateLimits] using this
    obtain ⟨hread, hlater⟩ := hreadings offset hrange
    obtain ⟨hopen, hpassed⟩ := (hfresh.respects entry (List.mem_of_getElem? hentry)).of_isUsable
      hread husable
    exact ⟨hopen, fun d hd => (hpassed d hd).trans hlater⟩

theorem entries_acquireHealthyKey (p : GroqKeyPool) (now : ℕ) (reading : ℕ → ℕ) :
    (p.acquireHealthyKey now reading).1.entries = (p.refreshExpiredRateLimits now).entries := by
  rw [GroqKeyPool.acquireHealthyKey, GroqKeyPool.acquire]
  cases (p.refreshExpiredRateLimits now).healthyOffset reading <;> rfl

/-- The invariant depends on the entries, the records and the clock, and time only helps. -/
theorem Inv.congr (h : s.Inv) (hentries : s'.pool.entries = s.pool.entries)
    (hblocked : s'.blocked = s.blocked) (hdeadlines : s'.deadlines = s.deadlines)
    (hclock : s.clock ≤ s'.clock) : s'.Inv where
  aliases := hentries ▸ h.aliases
  respects entry hentry := by
    rw [hentries] at hentry
    rw [hblocked, hdeadlines]
    exact (h.respects entry hentry).mono hclock

/-- A mark changes the entry of its key and the records of its key. -/
theorem Inv.marked (h : s.Inv) {keyAlias : String} {f : KeyEntry → KeyEntry}
    (hf : ∀ entry, (f entry).keyAlias = entry.keyAlias)
    (hentries : s'.pool.entries = markFirst keyAlias f s.pool.entries)
    (hclock : s'.clock = s.clock)
    (hothers : ∀ other ≠ keyAlias,
      s'.blocked other = s.blocked other ∧ s'.deadlines other = s.deadlines other)
    (hmarked : ∀ entry ∈ s.pool.entries.find? (fun e => e.keyAlias = keyAlias),
      Respects (s.blocked keyAlias) (s.deadlines keyAlias) s.clock entry →
        Respects (s'.blocked keyAlias) (s'.deadlines keyAlias) s.clock (f entry)) : s'.Inv where
  aliases := by
    rw [hentries, map_keyAlias_markFirst hf]
    exact h.aliases
  respects entry hentry := by
    rw [hentries] at hentry
    rw [hclock]
    rcases mem_markFirst h.aliases hentry with ⟨hold, hother⟩ | ⟨old, hfound, rfl⟩
    · obtain ⟨hblocked, hdeadlines⟩ := hothers _ hother
      rw [hblocked, hdeadlines]
      exact h.respects entry hold
    · have halias : old.keyAlias = keyAlias := by simpa using List.find?_some hfound
      have hold := h.respects old (List.mem_of_find?_eq_some hfound)
      rw [halias] at hold
      rw [hf, halias]
      exact hmarked old hfound hold

/-- **What a step keeps**, if a mark for a rate limit leaves blocks and deadlines in force. -/
theorem inv_step {e : Event} (h : s.Inv) (hforce : s.InForce e)
    (hstep : s.step maxInfraAttempts e = some s') : s'.Inv := by
  cases e with
  | begin call =>
    simp only [step] at hstep
    split_ifs at hstep
    cases hstep
    exact h.congr rfl rfl rfl le_rfl
  | acquire call now reading later =>
    obtain ⟨⟨-, hnow, hlater, -⟩, hsome⟩ := Option.ite_none_right_eq_some.1 hstep
    cases hsome
    exact (h.refreshed hnow).congr (entries_acquireHealthyKey _ _ _) rfl rfl hlater
  | allBlocked call =>
    simp only [step] at hstep
    split_ifs at hstep
    · cases hstep
      exact h.congr rfl rfl rfl le_rfl
    · cases hstep
      exact h.congr rfl rfl rfl le_rfl
  | earliest call now later =>
    simp only [step] at hstep
    split_ifs at hstep with hguard
    cases hstep
    exact (h.refreshed hguard.2.1).congr rfl rfl rfl hguard.2.2
  | answer call now outcome =>
    simp only [step] at hstep
    split at hstep
    · split_ifs at hstep with hclock
      cases hstep
      exact h.congr rfl rfl rfl hclock
    · cases hstep
  | mark call =>
    simp only [step] at hstep
    split at hstep
    · rename_i keyAlias hcall
      cases hstep
      refine h.marked (f := KeyEntry.block) (fun _ => rfl) rfl rfl ?_ ?_
      · intro other hother
        exact ⟨Function.update_of_ne hother _ _, rfl⟩
      · exact fun _ _ _ => respects_block
    · rename_i keyAlias deadline hcall
      cases hstep
      have hmark : s.limitMark (.mark call) = some (keyAlias, deadline) := by
        simp only [limitMark, hcall]
      refine h.marked (f := KeyEntry.limit deadline) (fun _ => rfl) rfl rfl ?_ ?_
      · intro other hother
        exact ⟨rfl, Function.update_of_ne hother _ _⟩
      · intro entry hentry hold
        obtain ⟨hopen, hlater⟩ := hforce _ hmark entry hentry
        simp only [Function.update_self]
        exact hold.limit hopen hlater
    · cases hstep

/-- **The health of the keys is respected**: a key that some call has recorded as blocked is not
handed out, and no key before every deadline recorded for it has passed, in every run whose
marks for rate limits take back no block and bring no deadline forward. -/
theorem key_health_respected
    (hreached : Runs.Reachable (step maxInfraAttempts) InForce Fresh s) {now later : ℕ}
    {reading : ℕ → ℕ} (hreads : s.Reads now reading later) {keyAlias apiKey : String}
    (hkey : (s.pool.acquireHealthyKey now reading).2 = some (keyAlias, apiKey)) :
    s.blocked keyAlias = false ∧ ∀ d ∈ s.deadlines keyAlias, d ≤ later := by
  have hinv : s.Inv :=
    hreached.invariant (fun _ h => h.inv) fun _ _ _ h hforce hstep => inv_step h hforce hstep
  exact acquired_key_healthy hinv hreads hkey

end System

/-- A pool of one key. -/
def oneKey : System where
  pool := { entries := buildKeyEntries ["k"] }
  calls _ := .idle
  clock := 0
  blocked _ := false
  deadlines _ := []

theorem oneKey_fresh : oneKey.Fresh :=
  ⟨⟨["k"], rfl⟩, fun _ => rfl, fun _ => rfl, fun _ => rfl⟩

/-- A call takes the key, and its answer is recorded. -/
def answeredCall (call : ℕ) (outcome : Outcome) : List Event :=
  [.answer call 0 outcome, .mark call]

/-- A call gets a rate limit of a second. -/
def limitedOnce : List Event :=
  [.begin 0, .acquire 0 0 (fun _ => 0) 0] ++ answeredCall 0 (.rateLimited (some 1))

def limitedKey : System := (Runs.run (System.step 3) oneKey limitedOnce).getD oneKey

/-- The key is handed out again when the second is over. -/
theorem key_after_limit :
    limitedKey.deadlines "key_1" = [1000000] ∧ limitedKey.blocked "key_1" = false ∧
      ∀ d ∈ limitedKey.deadlines "key_1", d ≤ 1000000 := by
  have hrun : Runs.run (fun s e => if s.InForce e then s.step 3 e else none) oneKey limitedOnce =
      some limitedKey := rfl
  have hreached : Runs.Reachable (System.step 3) System.InForce System.Fresh limitedKey :=
    Runs.reachable_of_checked oneKey_fresh hrun
  have hreads : limitedKey.Reads 1000000 (fun _ => 1000000) 1000000 :=
    ⟨by decide, le_rfl, fun _ _ => ⟨le_rfl, le_rfl⟩⟩
  have hkey : (limitedKey.pool.acquireHealthyKey 1000000 fun _ => 1000000).2 =
      some ("key_1", "k") := by decide
  exact ⟨by decide, System.key_health_respected hreached hreads hkey⟩

/-- Two calls have taken the key; one is refused and blocks it, the other gets a rate limit. -/
theorem blocked_key_returns :
    ¬ ∀ s : System, Runs.Reachable (System.step 3) (fun _ _ => True) System.Fresh s →
      ∀ (now later : ℕ) (reading : ℕ → ℕ), s.Reads now reading later →
        ∀ keyAlias apiKey : String,
          (s.pool.acquireHealthyKey now reading).2 = some (keyAlias, apiKey) →
            s.blocked keyAlias = false ∧ ∀ d ∈ s.deadlines keyAlias, d ≤ later := by
  intro h
  have hrun : Runs.run (System.step 3) oneKey
      ([.begin 0, .begin 1, .acquire 0 0 (fun _ => 0) 0, .acquire 1 0 (fun _ => 0) 0] ++
        answeredCall 0 .unauthorized ++ answeredCall 1 (.rateLimited (some 1))) = some _ := rfl
  have hbad := h _ (Runs.reachable_of_run oneKey_fresh hrun) 1000000 1000000 (fun _ => 1000000)
    ⟨by decide, le_rfl, fun _ _ => ⟨le_rfl, le_rfl⟩⟩ "key_1" "k" (by decide)
  exact absurd hbad.1 (by decide)

end StudyAgent.Llm
