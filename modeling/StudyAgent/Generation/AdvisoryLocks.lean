import StudyAgent.Base.Simulation
import Mathlib.Data.List.Nodup
import Mathlib.Data.List.Perm.Basic
import Mathlib.Tactic.Common

/-!
# Advisory locks

The lock of a resource is an advisory lock of Postgres that belongs to a connection, with a count,
while a session of the program keeps a set of the locks it has taken.  Sessions come and go and
take their connections from a pool; the session of a job keeps one to its end, that of a request
gives it back with every transaction.

Main results:

* `Implements.step` — one step of the sessions is one of a table with one entry for each lock.
* `locks_refine` — **every answer is that of a table with one entry for each lock**, however keys
  collide, as long as jobs take the locks of resources and keep their connections.
* `locks_exclusive` — **no two sessions have the same lock**, Postgres holds for each what it has
  tracked, and a connection in the pool holds nothing.
-/

namespace StudyAgent.Generation.AdvisoryLocks

open Simulation

/-- `_lock_token`. -/
structure Token where
  pipeline : String
  resourceId : String
  deriving DecidableEq

/-- The token of `require_generation_coordinator_lock`. -/
def Token.coordinator (t : Token) : Token := { t with pipeline := "coordinator:" ++ t.pipeline }

/-- Until when a lock is held. -/
inductive Level where
  | session
  | transaction
  deriving DecidableEq

/-! ## Postgres -/

/-- An entry of the lock table; a lock that a connection has taken twice has two. -/
structure Lock (C K : Type) where
  conn : C
  key : K
  level : Level
  deriving DecidableEq

section

variable {C K : Type} [DecidableEq C] [DecidableEq K]

/-- `pg_try_advisory_lock` and `pg_try_advisory_xact_lock`. -/
def pgTryLock (locks : List (Lock C K)) (c : C) (k : K) (level : Level) :
    List (Lock C K) × Bool :=
  if ∀ l ∈ locks, l.key = k → l.conn = c then (locks ++ [⟨c, k, level⟩], true) else (locks, false)

/-- `pg_advisory_unlock`. -/
def pgUnlock (locks : List (Lock C K)) (c : C) (k : K) : List (Lock C K) × Bool :=
  if ⟨c, k, .session⟩ ∈ locks then (locks.erase ⟨c, k, .session⟩, true) else (locks, false)

/-- The locks of a connection at a level are gone: `pg_advisory_unlock_all`, or the end of its
transaction. -/
def pgDrop (locks : List (Lock C K)) (c : C) (level : Level) : List (Lock C K) :=
  locks.filter fun l => ¬ (l.conn = c ∧ l.level = level)

end

/-! ## Sessions -/

/-- The lock table, the connections that sessions have taken from the pool, the sessions that keep
theirs, and what the sessions have in `session.info`. -/
structure System (S C K : Type) where
  locks : List (Lock C K)
  out : List (S × C)
  bound : S → Bool
  tracked : S → List Token

inductive Event (S C : Type) where
  /-- A session takes a connection from the pool; `run_generation_job` binds its session to it. -/
  | checkout (s : S) (c : C) (bind : Bool)
  | tryAcquire (s : S) (t : Token)
  | tryAcquireXact (s : S) (t : Token)
  | release (s : S) (t : Token)
  | releaseAll (s : S)
  /-- A commit or a rollback. -/
  | endTransaction (s : S)
  | close (s : S)
  /-- The connection is lost, and the server drops what it held; `session.info` stays. -/
  | lost (s : S)

section

variable {S C K : Type} [DecidableEq S] (keys : Token → K)

namespace System

/-- The connection of a session. -/
def conn (sys : System S C K) (s : S) : Option C := sys.out.lookup s

/-- The session has taken a lock, or given it back. -/
def track (sys : System S C K) (s : S) (tokens : List Token) : System S C K :=
  { sys with tracked := Function.update sys.tracked s tokens }

theorem tracked_track (sys : System S C K) (s u : S) (tokens : List Token) :
    (sys.track s tokens).tracked u = if u = s then tokens else sys.tracked u :=
  Function.update_apply ..

/-- The connection of a session goes back to the pool. -/
def giveBack (sys : System S C K) (s : S) : System S C K :=
  { sys with out := sys.out.filter fun o => o.1 ≠ s }

end System

/-- One step, with what the session is answered. -/
def step [DecidableEq C] [DecidableEq K] (sys : System S C K) :
    Event S C → Option (System S C K × Option Bool)
  | .checkout s c bind =>
    if s ∉ sys.out.map Prod.fst ∧ c ∉ sys.out.map Prod.snd then
      some ({ sys with
        out := (s, c) :: sys.out
        bound := Function.update sys.bound s bind }, none)
    else none
  | .tryAcquire s t =>
    if t ∈ sys.tracked s then some (sys, some true)
    else (sys.conn s).map fun c =>
      let answer := pgTryLock sys.locks c (keys t) .session
      ({ sys with locks := answer.1 }.track s
        (if answer.2 then t :: sys.tracked s else sys.tracked s), some answer.2)
  | .tryAcquireXact s t => (sys.conn s).map fun c =>
    let answer := pgTryLock sys.locks c (keys t) .transaction
    ({ sys with locks := answer.1 }, some answer.2)
  | .release s t =>
    if t ∉ sys.tracked s then some (sys, some false)
    else (sys.conn s).map fun c =>
      let answer := pgUnlock sys.locks c (keys t)
      ({ sys with locks := answer.1 }.track s
        (if answer.2 then (sys.tracked s).erase t else sys.tracked s), some answer.2)
  | .releaseAll s => (sys.conn s).map fun c =>
    ({ sys with locks := pgDrop sys.locks c .session }.track s [], none)
  | .endTransaction s => (sys.conn s).map fun c =>
    let ended := { sys with locks := pgDrop sys.locks c .transaction }
    (if sys.bound s then ended else ended.giveBack s, none)
  | .close s =>
    match sys.conn s with
    | some c =>
      some (({ sys with locks := pgDrop sys.locks c .transaction }.track s []).giveBack s, none)
    | none => some (sys.track s [], none)
  | .lost s => (sys.conn s).map fun c =>
    ({ sys with locks := sys.locks.filter fun l => l.conn ≠ c }.giveBack s, none)

/-- The locks of resources are taken by jobs, whose sessions are bound to a connection; a job has
released all its locks when its session is closed, and loses its connection only then. -/
def Orderly (sys : System S C K) : Event S C → Prop
  | .tryAcquire s _ => sys.bound s = true
  | .close s => sys.tracked s = []
  | .lost s => sys.tracked s = []
  | _ => True

/-! ## One entry for each lock -/

/-- A lock and who has it. -/
structure Held (S : Type) where
  owner : S
  token : Token
  level : Level
  deriving DecidableEq

/-- Nobody else has a lock with these keys. -/
def Grants (held : List (Held S)) (s : S) (t : Token) : Prop :=
  ∀ h ∈ held, keys h.token = keys t → h.owner = s

instance [DecidableEq K] (held : List (Held S)) (s : S) (t : Token) :
    Decidable (Grants keys held s t) :=
  inferInstanceAs (Decidable (∀ h ∈ held, keys h.token = keys t → h.owner = s))

/-- What the sessions do, on a table with one entry for each lock. -/
def tableStep [DecidableEq K] (held : List (Held S)) :
    Event S C → Option (List (Held S) × Option Bool)
  | .checkout _ _ _ => some (held, none)
  | .tryAcquire s t =>
    if ⟨s, t, .session⟩ ∈ held then some (held, some true)
    else if Grants keys held s t then some (held ++ [⟨s, t, .session⟩], some true)
    else some (held, some false)
  | .tryAcquireXact s t =>
    if Grants keys held s t then some (held ++ [⟨s, t, .transaction⟩], some true)
    else some (held, some false)
  | .release s t =>
    if ⟨s, t, .session⟩ ∈ held then some (held.erase ⟨s, t, .session⟩, some true)
    else some (held, some false)
  | .releaseAll s => some (held.filter fun h => ¬ (h.owner = s ∧ h.level = .session), none)
  | .endTransaction s => some (held.filter fun h => ¬ (h.owner = s ∧ h.level = .transaction), none)
  | .close s | .lost s => some (held.filter fun h => h.owner ≠ s, none)

/-! ## The sessions implement the table -/

/-- The entry of Postgres for a lock. -/
def entry (sys : System S C K) (h : Held S) : Option (Lock C K) :=
  (sys.conn h.owner).map fun c => ⟨c, keys h.token, h.level⟩

/-- The lock table of Postgres has an entry for each lock, and the sessions track theirs. -/
structure Implements (sys : System S C K) (held : List (Held S)) : Prop where
  locks : sys.locks.Perm (held.filterMap (entry keys sys))
  connected : ∀ h ∈ held, ∃ c, sys.conn h.owner = some c
  tracked : ∀ s t, t ∈ sys.tracked s ↔ ⟨s, t, .session⟩ ∈ held
  sets : ∀ s, (sys.tracked s).Nodup
  once : (held.filter fun h => h.level = .session).Nodup
  sessions : (sys.out.map Prod.fst).Nodup
  conns : (sys.out.map Prod.snd).Nodup
  bound : ∀ s, sys.tracked s ≠ [] → sys.bound s = true

namespace Implements

variable {keys} {sys : System S C K} {held : List (Held S)} {s : S} {c : C}

theorem mem_out_of_conn (h : sys.conn s = some c) : (s, c) ∈ sys.out := by
  rw [System.conn] at h
  obtain ⟨l₁, l₂, heq, -⟩ := List.lookup_eq_some_iff.1 h
  rw [heq]
  simp

/-- A connection belongs to one session. -/
theorem owner_eq (h : Implements keys sys held) {t : S} (hs : sys.conn s = some c)
    (ht : sys.conn t = some c) : s = t :=
  (Prod.mk.inj (List.inj_on_of_nodup_map h.conns (mem_out_of_conn hs) (mem_out_of_conn ht) rfl)).1

theorem owner_iff (h : Implements keys sys held) {t : S} {c' : C} (hs : sys.conn s = some c)
    (ht : sys.conn t = some c') : c' = c ↔ t = s := by
  constructor
  · rintro rfl
    exact h.owner_eq ht hs
  · rintro rfl
    exact Option.some.inj (ht.symm.trans hs)

theorem mem_locks (h : Implements keys sys held) {l : Lock C K} :
    l ∈ sys.locks ↔ ∃ x ∈ held, sys.conn x.owner = some l.conn ∧ keys x.token = l.key ∧
      x.level = l.level := by
  rw [h.locks.mem_iff, List.mem_filterMap]
  constructor
  · rintro ⟨x, hx, hl⟩
    obtain ⟨c, hc, rfl⟩ := Option.map_eq_some_iff.1 hl
    exact ⟨x, hx, hc, rfl, rfl⟩
  · rintro ⟨x, hx, hc, hkey, hlevel⟩
    refine ⟨x, hx, ?_⟩
    rw [entry, hc, Option.map_some, hkey, hlevel]

/-- **Postgres grants a lock exactly when nobody else has one with its keys.** -/
theorem grants_iff (h : Implements keys sys held) (hs : sys.conn s = some c) (t : Token) :
    (∀ l ∈ sys.locks, l.key = keys t → l.conn = c) ↔ Grants keys held s t := by
  constructor
  · intro hfree x hx hkey
    obtain ⟨c', hc'⟩ := h.connected x hx
    have hl : (⟨c', keys x.token, x.level⟩ : Lock C K) ∈ sys.locks :=
      h.mem_locks.2 ⟨x, hx, hc', rfl, rfl⟩
    obtain rfl : c' = c := hfree _ hl hkey
    exact h.owner_eq hc' hs
  · intro hgrants l hl hkey
    obtain ⟨x, hx, hc, hxkey, -⟩ := h.mem_locks.1 hl
    rw [hgrants x hx (hxkey.trans hkey), hs] at hc
    exact (Option.some.inj hc).symm

/-- Locks dropped on both sides. -/
theorem perm_filter (h : Implements keys sys held) {p : Lock C K → Bool} {q : Held S → Bool}
    (hpq : ∀ x ∈ held, ∀ c', sys.conn x.owner = some c' → p ⟨c', keys x.token, x.level⟩ = q x) :
    (sys.locks.filter p).Perm ((held.filter q).filterMap (entry keys sys)) := by
  refine (h.locks.filter p).trans (List.Perm.of_eq ?_)
  rw [List.filter_filterMap, List.filterMap_filter]
  refine List.filterMap_congr fun x hx => ?_
  obtain ⟨c', hc'⟩ := h.connected x hx
  have hcase := hpq x hx c' hc'
  rw [entry, hc', Option.map_some, Option.filter_some, hcase]

/-- A lock that is granted. -/
theorem perm_concat (h : Implements keys sys held) (hs : sys.conn s = some c) (t : Token)
    (level : Level) : (sys.locks ++ [(⟨c, keys t, level⟩ : Lock C K)]).Perm
      ((held ++ [(⟨s, t, level⟩ : Held S)]).filterMap (entry keys sys)) := by
  have hentry : entry keys sys ⟨s, t, level⟩ = some ⟨c, keys t, level⟩ := by
    rw [entry, hs]
    rfl
  rw [List.filterMap_append, List.filterMap_cons, hentry]
  exact h.locks.append_right _

/-- A lock that is given back. -/
theorem perm_erase [DecidableEq C] [DecidableEq K] (h : Implements keys sys held)
    (hs : sys.conn s = some c) {t : Token} {level : Level} (hmem : ⟨s, t, level⟩ ∈ held) :
    (sys.locks.erase ⟨c, keys t, level⟩).Perm
      ((held.erase ⟨s, t, level⟩).filterMap (entry keys sys)) := by
  have hentry : entry keys sys ⟨s, t, level⟩ = some ⟨c, keys t, level⟩ := by
    rw [entry, hs]
    rfl
  have hperm := h.locks.trans ((List.perm_cons_erase hmem).filterMap (entry keys sys))
  rw [List.filterMap_cons, hentry] at hperm
  have herase := hperm.erase ⟨c, keys t, level⟩
  rwa [List.erase_cons_head] at herase

/-! ### Steps -/

omit [DecidableEq S] in
theorem lookup_filter_ne {α β : Type} [DecidableEq α] (l : List (α × β)) {a b : α} (hne : b ≠ a) :
    (l.filter fun o => o.1 ≠ a).lookup b = l.lookup b := by
  induction l with
  | nil => rfl
  | cons o l ih =>
    rw [List.filter_cons]
    by_cases ho : o.1 = a
    · have hob : (b == o.1) = false := by simpa [ho] using hne
      rw [if_neg (by simpa using ho), ih, List.lookup_cons, hob]
    · rw [if_pos (by simpa using ho), List.lookup_cons, List.lookup_cons, ih]

theorem conn_giveBack {t : S} (hne : t ≠ s) : (sys.giveBack s).conn t = sys.conn t :=
  lookup_filter_ne sys.out hne

/-- A session without locks gives its connection back. -/
theorem giveBack (h : Implements keys sys held) (hnone : ∀ x ∈ held, x.owner ≠ s) :
    Implements keys (sys.giveBack s) held where
  locks := by
    have hentry : held.filterMap (entry keys (sys.giveBack s)) =
        held.filterMap (entry keys sys) := by
      refine List.filterMap_congr fun x hx => ?_
      rw [entry, entry, conn_giveBack (hnone x hx)]
    rw [hentry]
    exact h.locks
  connected x hx := by
    rw [conn_giveBack (hnone x hx)]
    exact h.connected x hx
  tracked := h.tracked
  sets := h.sets
  once := h.once
  sessions := (List.filter_sublist.map Prod.fst).nodup h.sessions
  conns := (List.filter_sublist.map Prod.snd).nodup h.conns
  bound := h.bound

/-- Locks of one session are dropped. -/
theorem drop (h : Implements keys sys held) (s : S) (tokens : List Token) {p : Lock C K → Bool}
    {q : Held S → Bool}
    (hpq : ∀ x ∈ held, ∀ c', sys.conn x.owner = some c' → p ⟨c', keys x.token, x.level⟩ = q x)
    (hother : ∀ u ≠ s, ∀ t, q ⟨u, t, .session⟩ = true)
    (htokens : ∀ t, t ∈ tokens ↔ t ∈ sys.tracked s ∧ q ⟨s, t, .session⟩ = true)
    (hsets : tokens.Nodup) :
    Implements keys ({ sys with locks := sys.locks.filter p }.track s tokens)
      (held.filter q) where
  locks := h.perm_filter hpq
  connected x hx := h.connected x (List.mem_filter.1 hx).1
  tracked u t := by
    rw [System.tracked_track, List.mem_filter, ← h.tracked]
    split_ifs with hu
    · subst hu
      exact htokens t
    · exact ⟨fun ht => ⟨ht, hother u hu t⟩, fun ht => ht.1⟩
  sets u := by
    rw [System.tracked_track]
    split_ifs
    · exact hsets
    · exact h.sets u
  once := by
    rw [List.filter_comm]
    exact h.once.filter _
  sessions := h.sessions
  conns := h.conns
  bound u := by
    rw [System.tracked_track]
    split_ifs with hu
    · subst hu
      intro hne
      obtain ⟨t, ht⟩ := List.exists_mem_of_ne_nil _ hne
      exact h.bound u (List.ne_nil_of_mem ((htokens t).1 ht).1)
    · exact h.bound u

/-- A lock is granted. -/
theorem grant (h : Implements keys sys held) (hs : sys.conn s = some c) {t : Token}
    (hnew : t ∉ sys.tracked s) (hbound : sys.bound s = true) :
    Implements keys ({ sys with locks := sys.locks ++ [(⟨c, keys t, .session⟩ : Lock C K)] }.track s
      (t :: sys.tracked s)) (held ++ [(⟨s, t, .session⟩ : Held S)]) where
  locks := h.perm_concat hs t .session
  connected x hx := by
    rcases List.mem_append.1 hx with hx | hx
    · exact h.connected x hx
    · rw [List.mem_singleton.1 hx]
      exact ⟨c, hs⟩
  tracked u t' := by
    rw [System.tracked_track, List.mem_append, ← h.tracked, List.mem_singleton]
    split_ifs with hu
    · subst hu
      rw [List.mem_cons, or_comm]
      simp
    · simp [hu]
  sets u := by
    rw [System.tracked_track]
    split_ifs with hu
    · exact List.nodup_cons.2 ⟨hnew, h.sets s⟩
    · exact h.sets u
  once := by
    rw [List.filter_append, List.nodup_append]
    refine ⟨h.once, List.Nodup.filter _ (List.nodup_singleton _), ?_⟩
    rintro x hx _ hy rfl
    obtain rfl := List.mem_singleton.1 (List.mem_filter.1 hy).1
    exact hnew ((h.tracked s t).2 (List.mem_filter.1 hx).1)
  sessions := h.sessions
  conns := h.conns
  bound u := by
    rw [System.tracked_track]
    split_ifs with hu
    · subst hu
      exact fun _ => hbound
    · exact h.bound u

/-- A lock is granted to the end of the transaction. -/
theorem grantXact (h : Implements keys sys held) (hs : sys.conn s = some c) (t : Token) :
    Implements keys { sys with locks := sys.locks ++ [(⟨c, keys t, .transaction⟩ : Lock C K)] }
      (held ++ [(⟨s, t, .transaction⟩ : Held S)]) where
  locks := h.perm_concat hs t .transaction
  connected x hx := by
    rcases List.mem_append.1 hx with hx | hx
    · exact h.connected x hx
    · rw [List.mem_singleton.1 hx]
      exact ⟨c, hs⟩
  tracked u t' := by
    rw [List.mem_append, ← h.tracked]
    simp
  sets := h.sets
  once := by
    rw [List.filter_append]
    simpa using h.once
  sessions := h.sessions
  conns := h.conns
  bound := h.bound

/-- A lock is released. -/
theorem unlock [DecidableEq C] [DecidableEq K] (h : Implements keys sys held)
    (hs : sys.conn s = some c) {t : Token} (hmem : t ∈ sys.tracked s) :
    Implements keys ({ sys with locks := sys.locks.erase ⟨c, keys t, .session⟩ }.track s
      ((sys.tracked s).erase t)) (held.erase ⟨s, t, .session⟩) where
  locks := h.perm_erase hs ((h.tracked s t).1 hmem)
  connected x hx := h.connected x (List.mem_of_mem_erase hx)
  tracked u t' := by
    have hgone : (⟨s, t, .session⟩ : Held S) ∉ held.erase ⟨s, t, .session⟩ := by
      intro hagain
      have hcount : 1 < held.count ⟨s, t, .session⟩ := by
        have hpos := List.count_pos_iff.2 hagain
        rw [List.count_erase_self] at hpos
        omega
      have honce := List.nodup_iff_count_le_one.1 h.once ⟨s, t, .session⟩
      rw [List.count_filter (by simp)] at honce
      omega
    rw [System.tracked_track]
    split_ifs with hu
    · subst hu
      rw [(h.sets u).mem_erase_iff, h.tracked]
      constructor
      · rintro ⟨hne, hx⟩
        exact (List.mem_erase_of_ne (by simpa using hne)).2 hx
      · intro hx
        exact ⟨fun heq => hgone (heq ▸ hx), List.mem_of_mem_erase hx⟩
    · rw [h.tracked, List.mem_erase_of_ne]
      simp [hu]
  sets u := by
    rw [System.tracked_track]
    split_ifs with hu
    · exact (h.sets s).erase t
    · exact h.sets u
  once := (List.erase_sublist.filter _).nodup h.once
  sessions := h.sessions
  conns := h.conns
  bound u := by
    rw [System.tracked_track]
    split_ifs with hu
    · subst hu
      exact fun _ => h.bound u (List.ne_nil_of_mem hmem)
    · exact h.bound u

/-- A session takes a connection. -/
theorem checkout (h : Implements keys sys held) (hs : s ∉ sys.out.map Prod.fst)
    (hc : c ∉ sys.out.map Prod.snd) (bind : Bool) :
    Implements keys { sys with
      out := (s, c) :: sys.out
      bound := Function.update sys.bound s bind } held := by
  have hnone : ∀ x ∈ held, x.owner ≠ s := by
    rintro x hx rfl
    obtain ⟨c', hc'⟩ := h.connected x hx
    exact hs (List.mem_map_of_mem (mem_out_of_conn hc'))
  have hconn : ∀ t ≠ s, ((s, c) :: sys.out).lookup t = sys.conn t := by
    intro t ht
    rw [List.lookup_cons, beq_eq_false_iff_ne.2 ht]
    rfl
  refine ⟨?_, fun x hx => ?_, h.tracked, h.sets, h.once, List.nodup_cons.2 ⟨hs, h.sessions⟩,
    List.nodup_cons.2 ⟨hc, h.conns⟩, fun u hu => ?_⟩
  · refine h.locks.trans (List.Perm.of_eq (List.filterMap_congr fun x hx => ?_))
    rw [entry, entry, System.conn, System.conn, hconn _ (hnone x hx)]
    rfl
  · rw [System.conn, hconn _ (hnone x hx)]
    exact h.connected x hx
  · dsimp only
    rw [Function.update_apply, if_neg]
    · exact h.bound u hu
    · rintro rfl
      obtain ⟨t, ht⟩ := List.exists_mem_of_ne_nil _ hu
      exact hnone _ ((h.tracked u t).1 ht) rfl

/-- A session that ends, or that has lost its connection, has no locks. -/
theorem leave (h : Implements keys sys held) {p : Lock C K → Bool}
    (hp : ∀ x ∈ held, ∀ c', sys.conn x.owner = some c' →
      p ⟨c', keys x.token, x.level⟩ = decide (x.owner ≠ s)) :
    Implements keys (({ sys with locks := sys.locks.filter p }.track s []).giveBack s)
      (held.filter fun x => x.owner ≠ s) := by
  refine (h.drop s [] hp (fun u hu t => by simpa using hu) (fun t => by simp)
    List.nodup_nil).giveBack fun x hx => ?_
  simpa using (List.mem_filter.1 hx).2

/-- The locks of a transaction end with it. -/
theorem endTransaction [DecidableEq C] (h : Implements keys sys held)
    (hs : sys.conn s = some c) :
    Implements keys { sys with locks := pgDrop sys.locks c .transaction }
      (held.filter fun x => ¬ (x.owner = s ∧ x.level = .transaction)) := by
  have hdrop := h.drop s (sys.tracked s)
    (p := fun l => ¬ (l.conn = c ∧ l.level = .transaction))
    (q := fun x => ¬ (x.owner = s ∧ x.level = .transaction))
    (fun x hx c' hc' => by simp only [h.owner_iff hs hc'])
    (fun u hu t => by simp) (fun t => by simp) (h.sets s)
  rwa [System.track, Function.update_eq_self] at hdrop

variable [DecidableEq C] [DecidableEq K]

/-- **One step of the sessions is one of the table**, with the same answer. -/
theorem step (h : Implements keys sys held) {event : Event S C} {sys' : System S C K}
    {answer : Option Bool} (horderly : Orderly sys event)
    (hstep : AdvisoryLocks.step keys sys event = some (sys', answer)) :
    ∃ held', tableStep keys held event = some (held', answer) ∧ Implements keys sys' held' := by
  cases event with
  | checkout s c bind =>
    rw [AdvisoryLocks.step] at hstep
    split_ifs at hstep with hfree
    cases hstep
    exact ⟨held, rfl, h.checkout hfree.1 hfree.2 bind⟩
  | tryAcquire s t =>
    rw [AdvisoryLocks.step] at hstep
    rw [tableStep]
    by_cases hmem : t ∈ sys.tracked s
    · rw [if_pos hmem] at hstep
      cases hstep
      exact ⟨held, if_pos ((h.tracked s t).1 hmem), h⟩
    · rw [if_neg hmem] at hstep
      rw [if_neg fun hheld => hmem ((h.tracked s t).2 hheld)]
      obtain ⟨c, hc, heq⟩ := Option.map_eq_some_iff.1 hstep
      dsimp only at heq
      rw [pgTryLock] at heq
      by_cases hfree : ∀ l ∈ sys.locks, l.key = keys t → l.conn = c
      · rw [if_pos hfree] at heq
        cases heq
        exact ⟨_, if_pos ((h.grants_iff hc t).1 hfree), h.grant hc hmem horderly⟩
      · rw [if_neg hfree, if_neg Bool.false_ne_true, System.track, Function.update_eq_self] at heq
        cases heq
        exact ⟨held, if_neg fun hgrants => hfree ((h.grants_iff hc t).2 hgrants), h⟩
  | tryAcquireXact s t =>
    rw [AdvisoryLocks.step] at hstep
    rw [tableStep]
    obtain ⟨c, hc, heq⟩ := Option.map_eq_some_iff.1 hstep
    dsimp only at heq
    rw [pgTryLock] at heq
    by_cases hfree : ∀ l ∈ sys.locks, l.key = keys t → l.conn = c
    · rw [if_pos hfree] at heq
      cases heq
      exact ⟨_, if_pos ((h.grants_iff hc t).1 hfree), h.grantXact hc t⟩
    · rw [if_neg hfree] at heq
      cases heq
      exact ⟨held, if_neg fun hgrants => hfree ((h.grants_iff hc t).2 hgrants), h⟩
  | release s t =>
    rw [AdvisoryLocks.step] at hstep
    rw [tableStep]
    by_cases hmem : t ∈ sys.tracked s
    · rw [if_neg (not_not.2 hmem)] at hstep
      rw [if_pos ((h.tracked s t).1 hmem)]
      obtain ⟨c, hc, heq⟩ := Option.map_eq_some_iff.1 hstep
      have hlock : (⟨c, keys t, .session⟩ : Lock C K) ∈ sys.locks :=
        h.mem_locks.2 ⟨_, (h.tracked s t).1 hmem, hc, rfl, rfl⟩
      dsimp only at heq
      rw [pgUnlock, if_pos hlock] at heq
      cases heq
      exact ⟨_, rfl, h.unlock hc hmem⟩
    · rw [if_pos hmem] at hstep
      rw [if_neg fun hheld => hmem ((h.tracked s t).2 hheld)]
      cases hstep
      exact ⟨held, rfl, h⟩
  | releaseAll s =>
    obtain ⟨c, hc, heq⟩ := Option.map_eq_some_iff.1 hstep
    cases heq
    exact ⟨_, rfl, h.drop s [] (fun x hx c' hc' => by simp only [h.owner_iff hc hc'])
      (fun u hu t => by simp [hu]) (fun t => by simp) List.nodup_nil⟩
  | endTransaction s =>
    obtain ⟨c, hc, heq⟩ := Option.map_eq_some_iff.1 hstep
    cases heq
    refine ⟨_, rfl, ?_⟩
    have hended := h.endTransaction hc
    by_cases hbound : sys.bound s = true
    · rwa [if_pos hbound]
    · rw [if_neg hbound]
      refine hended.giveBack fun x hx howner => ?_
      obtain ⟨hmem, hlevel⟩ := List.mem_filter.1 hx
      -- a session that is not bound has no lock of its own level
      have hsession : x.level = .session := by
        cases hx' : x.level with
        | session => rfl
        | transaction => simp [howner, hx'] at hlevel
      have htracked : x.token ∈ sys.tracked s := by
        rw [h.tracked, ← howner, ← hsession]
        exact hmem
      exact hbound (h.bound s (List.ne_nil_of_mem htracked))
  | close s =>
    have hbrief : ∀ x ∈ held, x.owner = s → x.level = .transaction := by
      rintro ⟨owner, token, level⟩ hx rfl
      cases level with
      | transaction => rfl
      | session => exact absurd ((h.tracked _ _).2 hx) (by rw [horderly]; exact List.not_mem_nil)
    rw [AdvisoryLocks.step] at hstep
    cases hc : sys.conn s with
    | some c =>
      rw [hc] at hstep
      cases hstep
      refine ⟨_, rfl, h.leave fun x hx c' hc' => ?_⟩
      by_cases howner : x.owner = s
      · simp [(h.owner_iff hc hc').2 howner, howner, hbrief x hx howner]
      · have hcc : c' ≠ c := fun heq => howner ((h.owner_iff hc hc').1 heq)
        simp [hcc, howner]
    | none =>
      rw [hc] at hstep
      cases hstep
      have hall : held.filter (fun x => x.owner ≠ s) = held := by
        rw [List.filter_eq_self]
        intro x hx
        obtain ⟨c, hc'⟩ := h.connected x hx
        refine decide_eq_true fun howner => ?_
        rw [howner, hc] at hc'
        cases hc'
      have hsame : sys.track s [] = sys := by
        rw [System.track, ← horderly, Function.update_eq_self]
      refine ⟨_, rfl, ?_⟩
      rwa [hall, hsame]
  | lost s =>
    obtain ⟨c, hc, heq⟩ := Option.map_eq_some_iff.1 hstep
    cases heq
    have hleft := h.leave (s := s) (p := fun l => l.conn ≠ c) fun x hx c' hc' => by
      simp only [ne_eq, h.owner_iff hc hc']
    have hsame : { sys with locks := sys.locks.filter fun l => l.conn ≠ c }.track s [] =
        { sys with locks := sys.locks.filter fun l => l.conn ≠ c } := by
      rw [System.track, ← show sys.tracked s = [] from horderly, Function.update_eq_self]
    rw [hsame] at hleft
    exact ⟨_, rfl, hleft⟩

end Implements

/-! ## What the sessions are answered -/

variable [DecidableEq C] [DecidableEq K] {keys} {sys sys' : System S C K}

/-- All connections are in the pool, nothing is locked and nothing tracked. -/
structure Fresh (sys : System S C K) : Prop where
  locks : sys.locks = []
  out : sys.out = []
  tracked : ∀ s, sys.tracked s = []

omit [DecidableEq C] [DecidableEq K] in
theorem implements_of_fresh (h : Fresh sys) : Implements keys sys ([] : List (Held S)) where
  locks := by rw [h.locks]; exact .nil
  connected := nofun
  tracked s t := by simp [h.tracked s]
  sets s := by rw [h.tracked s]; exact .nil
  once := .nil
  sessions := by rw [h.out]; exact .nil
  conns := by rw [h.out]; exact .nil
  bound s hs := absurd (h.tracked s) hs

/-- **Every answer is that of a table with one entry for each lock**, however keys collide, in a run
whose events are all orderly; what a session tracks are its entries. -/
theorem locks_refine {trace : List (Event S C × Option Bool)} (hfresh : Fresh sys)
    (h : Trace (step keys) Orderly sys trace sys') :
    ∃ held, Trace (tableStep keys) (fun _ _ => True) ([] : List (Held S)) trace held ∧
      ∀ s t, t ∈ sys'.tracked s ↔ ⟨s, t, .session⟩ ∈ held := by
  obtain ⟨held, htrace, himpl⟩ := h.simulates
    (fun _ _ _ _ _ himpl horderly hstep => himpl.step horderly hstep) (implements_of_fresh hfresh)
  exact ⟨held, htrace, himpl.tracked⟩

/-- Two owners never have locks with the same keys. -/
def Exclusive (keys : Token → K) (held : List (Held S)) : Prop :=
  ∀ x ∈ held, ∀ y ∈ held, keys x.token = keys y.token → x.owner = y.owner

omit [DecidableEq S] [DecidableEq K] in
theorem Exclusive.subset {held held' : List (Held S)} (h : Exclusive keys held)
    (hsub : held' ⊆ held) : Exclusive keys held' :=
  fun x hx y hy => h x (hsub hx) y (hsub hy)

omit [DecidableEq S] [DecidableEq K] in
theorem Exclusive.grant {held : List (Held S)} (h : Exclusive keys held) {s : S} {t : Token}
    (hgrants : Grants keys held s t) (level : Level) :
    Exclusive keys (held ++ [(⟨s, t, level⟩ : Held S)]) := by
  intro x hx y hy hkeys
  rw [List.mem_append, List.mem_singleton] at hx hy
  rcases hx with hx | rfl <;> rcases hy with hy | rfl
  · exact h x hx y hy hkeys
  · exact hgrants x hx hkeys
  · exact (hgrants y hy hkeys.symm).symm
  · rfl

omit [DecidableEq C] in
theorem Exclusive.step {held held' : List (Held S)} {event : Event S C} {answer : Option Bool}
    (h : Exclusive keys held) (hstep : tableStep keys held event = some (held', answer)) :
    Exclusive keys held' := by
  cases event with
  | checkout =>
    cases hstep
    exact h
  | tryAcquire s t =>
    rw [tableStep] at hstep
    split_ifs at hstep with _ hgrants <;> cases hstep
    · exact h
    · exact h.grant hgrants _
    · exact h
  | tryAcquireXact s t =>
    rw [tableStep] at hstep
    split_ifs at hstep with hgrants <;> cases hstep
    · exact h.grant hgrants _
    · exact h
  | release s t =>
    rw [tableStep] at hstep
    split_ifs at hstep <;> cases hstep
    · exact h.subset List.erase_subset
    · exact h
  | releaseAll s =>
    cases hstep
    exact h.subset (List.filter_subset_self _)
  | endTransaction s =>
    cases hstep
    exact h.subset (List.filter_subset_self _)
  | close s =>
    cases hstep
    exact h.subset (List.filter_subset_self _)
  | lost s =>
    cases hstep
    exact h.subset (List.filter_subset_self _)

omit [DecidableEq C] [DecidableEq K] in
/-- What a session tracks are the tokens of its entries. -/
theorem Implements.perm_tracked {held : List (Held S)} (h : Implements keys sys held) (s : S) :
    (sys.tracked s).Perm
      ((held.filter fun x => x.owner = s ∧ x.level = .session).map Held.token) := by
  refine (List.perm_ext_iff_of_nodup (h.sets s) ?_).2 fun t => ?_
  · have hnodup : (held.filter fun x => x.owner = s ∧ x.level = .session).Nodup := by
      have hcut := h.once.filter fun x => x.owner = s
      rw [List.filter_filter] at hcut
      simpa using hcut
    refine hnodup.map_on fun x hx y hy htoken => ?_
    obtain ⟨ox, tx, lx⟩ := x
    obtain ⟨oy, ty, ly⟩ := y
    simp only [List.mem_filter, decide_eq_true_eq] at hx hy
    obtain ⟨-, rfl, rfl⟩ := hx
    obtain ⟨-, rfl, rfl⟩ := hy
    rw [show tx = ty from htoken]
  · rw [h.tracked, List.mem_map]
    constructor
    · exact fun hmem => ⟨_, List.mem_filter.2 ⟨hmem, by simp⟩, rfl⟩
    · rintro ⟨⟨owner, token, level⟩, hmem, rfl⟩
      simp only [List.mem_filter, decide_eq_true_eq] at hmem
      obtain ⟨hmem, rfl, rfl⟩ := hmem
      exact hmem

/-- **No two sessions have the same lock**; for each lock that a session tracks Postgres has one
entry, and a connection in the pool holds nothing. -/
theorem locks_exclusive {trace : List (Event S C × Option Bool)} (hfresh : Fresh sys)
    (h : Trace (step keys) Orderly sys trace sys') :
    (∀ s t, ∀ a ∈ sys'.tracked s, ∀ b ∈ sys'.tracked t, keys a = keys b → s = t) ∧
    (∀ s c k, sys'.conn s = some c → sys'.locks.count ⟨c, k, .session⟩ =
      (sys'.tracked s).countP fun t => keys t = k) ∧
    ∀ lock ∈ sys'.locks, lock.conn ∈ sys'.out.map Prod.snd := by
  obtain ⟨held, htrace, himpl⟩ := h.simulates
    (fun _ _ _ _ _ himpl horderly hstep => himpl.step horderly hstep) (implements_of_fresh hfresh)
  have hexclusive : Exclusive keys held :=
    htrace.invariant (fun _ _ _ _ hinv _ hstep => Exclusive.step hinv hstep) nofun
  refine ⟨fun s t a ha b hb hkeys => ?_, fun s c k hc => ?_, fun lock hlock => ?_⟩
  · exact hexclusive _ ((himpl.tracked s a).1 ha) _ ((himpl.tracked t b).1 hb) hkeys
  · rw [himpl.locks.count_eq, List.count_filterMap, (himpl.perm_tracked s).countP_eq,
      List.countP_map, List.countP_filter]
    refine List.countP_congr fun x hx => ?_
    obtain ⟨c', hc'⟩ := himpl.connected x hx
    rw [entry, hc']
    simp only [Option.map_some, beq_iff_eq, Option.some.injEq, Lock.mk.injEq, Function.comp_apply,
      Bool.and_eq_true, decide_eq_true_eq, himpl.owner_iff hc hc']
    tauto
  · obtain ⟨x, -, hc, -⟩ := himpl.mem_locks.1 hlock
    exact List.mem_map_of_mem (Implements.mem_out_of_conn hc)

end

/-! ## Two jobs and a request -/

/-- Two jobs and a request, all without a connection. -/
def sampleStart : System ℕ ℕ Token := ⟨[], [], fun _ => false, fun _ => []⟩

def sampleToken : Token := ⟨"quiz", "q"⟩

/-- The second job gets the lock when the first has released it; the lock of the request is
another one. -/
def sampleTrace : List (Event ℕ ℕ × Option Bool) :=
  [(.checkout 0 10 true, none), (.checkout 1 11 true, none), (.checkout 2 12 false, none),
    (.tryAcquire 0 sampleToken, some true), (.tryAcquireXact 2 sampleToken.coordinator, some true),
    (.tryAcquire 1 sampleToken, some false), (.release 0 sampleToken, some true),
    (.endTransaction 2, none), (.tryAcquire 1 sampleToken, some true)]

theorem sampleTrace_runs :
    ∃ sys, Trace (step id) Orderly sampleStart sampleTrace sys ∧ sys.tracked 1 = [sampleToken] :=
  ⟨_, .cons trivial rfl <| .cons trivial rfl <| .cons trivial rfl <| .cons rfl rfl <|
    .cons trivial rfl <| .cons rfl rfl <| .cons trivial rfl <| .cons trivial rfl <|
    .cons rfl rfl <| .nil _, rfl⟩

theorem sampleStart_fresh : Fresh sampleStart := ⟨rfl, rfl, fun _ => rfl⟩

theorem locks_refine_sample : ∃ held : List (Held ℕ),
    Trace (tableStep id) (fun _ _ => True) [] sampleTrace held ∧
      ⟨1, sampleToken, .session⟩ ∈ held := by
  obtain ⟨sys, htrace, htracked⟩ := sampleTrace_runs
  obtain ⟨held, htable, hiff⟩ := locks_refine sampleStart_fresh htrace
  exact ⟨held, htable, (hiff 1 sampleToken).1 (by rw [htracked]; exact List.mem_singleton_self _)⟩

theorem locks_exclusive_sample : ∃ sys : System ℕ ℕ Token,
    sys.tracked 1 = [sampleToken] ∧ ∀ s, sampleToken ∈ sys.tracked s → s = 1 := by
  obtain ⟨sys, htrace, htracked⟩ := sampleTrace_runs
  refine ⟨sys, htracked, fun s hs => (locks_exclusive sampleStart_fresh htrace).1 s 1 _ hs _ ?_ rfl⟩
  rw [htracked]
  exact List.mem_singleton_self _

end StudyAgent.Generation.AdvisoryLocks
