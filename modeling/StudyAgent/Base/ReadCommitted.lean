import Mathlib.Algebra.BigOperators.Group.Finset.Basic
import Mathlib.Data.Fintype.Basic
import Mathlib.Data.Option.Basic

/-!
# A table under READ COMMITTED

Sessions write rows in transactions.  A written row is locked until its session commits
or rolls back, a session reads its own writes and otherwise what is committed, and
advisory locks last as long as the transaction that took them.

Main results:

* `Writes.write`, `Writes.commit`, `Writes.rollback` — **a law of single writes, proved
  when a row is written, still holds when it is committed.**
* `update_cases` — all that an `UPDATE` of one row can do.
* `Statement.frame` — a statement leaves the other sessions alone.
* `frame_writeAll` — the same for several rows written at once.
* `Put.of_put`, `Put.of_putOne` — all that is known after rows have been written.
* `sum_view_commit` — what a commit adds to a sum over the rows, seen by another session.
-/

namespace ReadCommitted

/-- One row. -/
def only {K R : Type} [DecidableEq K] (k : K) (r : R) (i : K) : Option R :=
  if i = k then some r else none

theorem only_eq_some {K R : Type} [DecidableEq K] {k i : K} {r r' : R} :
    only k r i = some r' ↔ i = k ∧ r = r' := by
  unfold only
  split_ifs with h <;> simp [h]

/-- A flush writes the columns whose values have changed since they were loaded. -/
def setColumn {α : Type} [DecidableEq α] (loaded new stored : α) : α :=
  if new = loaded then stored else new

structure Store (K R L S : Type) where
  rows : K → Option R
  pending : K → Option (S × R)
  held : L → Option S

variable {K R L S : Type}

namespace Store

/-- No rows, no transactions. -/
def empty : Store K R L S := ⟨fun _ => none, fun _ => none, fun _ => none⟩

variable [DecidableEq S]

/-- What a session reads. -/
def view (st : Store K R L S) (s : S) (k : K) : Option R :=
  match st.pending k with
  | some (t, r) => if t = s then some r else st.rows k
  | none => st.rows k

/-- No other session has the row. -/
def Free (st : Store K R L S) (s : S) (k : K) : Prop := ∀ w ∈ st.pending k, w.1 = s

instance (st : Store K R L S) (s : S) (k : K) : Decidable (st.Free s k) :=
  inferInstanceAs (Decidable (∀ w ∈ st.pending k, w.1 = s))

/-- The end of a transaction that makes its writes visible. -/
def commit (st : Store K R L S) (s : S) : Store K R L S where
  rows := st.view s
  pending := fun k => (st.pending k).filter fun w => w.1 ≠ s
  held := fun l => (st.held l).filter fun t => t ≠ s

/-- The end of a transaction that undoes them. -/
def rollback (st : Store K R L S) (s : S) : Store K R L S where
  rows := st.rows
  pending := fun k => (st.pending k).filter fun w => w.1 ≠ s
  held := fun l => (st.held l).filter fun t => t ≠ s

/-- Write a row; the caller has made sure that it is free. -/
def write [DecidableEq K] (st : Store K R L S) (s : S) (k : K) (r : R) : Store K R L S :=
  { st with pending := Function.update st.pending k (some (s, r)) }

/-- Write the rows that are given; the caller has made sure that they are free. -/
def writeAll (st : Store K R L S) (s : S) (f : K → Option R) : Store K R L S :=
  { st with pending := fun k => ((f k).map (Prod.mk s)).or (st.pending k) }

/-- Take an advisory lock until the end of the transaction. -/
def acquire [DecidableEq L] (st : Store K R L S) (s : S) (l : L) : Option (Store K R L S) :=
  if ∀ t ∈ st.held l, t = s then some { st with held := Function.update st.held l (some s) }
  else none

/-- `UPDATE … WHERE key = k AND guard`: wait for the row, and write it if it still matches. -/
def update [DecidableEq K] (st : Store K R L S) (s : S) (k : K) (guard : R → Bool) (f : R → R) :
    Option (Store K R L S) :=
  match st.view s k with
  | some r =>
    if guard r then if st.Free s k then some (st.write s k (f r)) else none else some st
  | none => some st

/-! ## Reading -/

theorem view_of_pending {st : Store K R L S} {s : S} {k : K} {r : R}
    (h : st.pending k = some (s, r)) : st.view s k = some r := by
  simp [view, h]

theorem view_of_not_own {st : Store K R L S} {s : S} {k : K}
    (h : ∀ r, st.pending k ≠ some (s, r)) : st.view s k = st.rows k := by
  unfold view
  split
  · rename_i t r hp
    rw [if_neg]
    rintro rfl
    exact h r hp
  · rfl

theorem view_of_other {st : Store K R L S} {s t : S} {k : K} {r : R}
    (h : st.pending k = some (t, r)) (hne : t ≠ s) : st.view s k = st.rows k := by
  simp [view, h, hne]

/-- A session reads its own write or the committed row. -/
theorem view_cases (st : Store K R L S) (s : S) (k : K) :
    (∃ r, st.pending k = some (s, r) ∧ st.view s k = some r) ∨
      ((∀ r, st.pending k ≠ some (s, r)) ∧ st.view s k = st.rows k) := by
  by_cases h : ∃ r, st.pending k = some (s, r)
  · obtain ⟨r, hr⟩ := h
    exact Or.inl ⟨r, hr, view_of_pending hr⟩
  · have hnone : ∀ r, st.pending k ≠ some (s, r) := fun r hr => h ⟨r, hr⟩
    exact Or.inr ⟨hnone, view_of_not_own hnone⟩

/-- A session goes on seeing what it saw, if neither its own writes nor the committed rows
change. -/
theorem view_congr {st st' : Store K R L S} {t : S} (hrows : st'.rows = st.rows)
    (hpending : ∀ {k r}, st'.pending k = some (t, r) ↔ st.pending k = some (t, r)) :
    st'.view t = st.view t := by
  funext k
  rcases st.view_cases t k with ⟨r, hr, hview⟩ | ⟨hown, hview⟩
  · rw [hview, view_of_pending (hpending.2 hr)]
  · rw [hview, view_of_not_own fun r hr => hown r (hpending.1 hr), hrows]

omit [DecidableEq S] in
theorem not_own_of_free {st : Store K R L S} {s t : S} {k : K} (h : st.Free s k) (hne : t ≠ s)
    (r : R) : st.pending k ≠ some (t, r) :=
  fun hp => hne (h (t, r) hp)

/-! ## Single writes -/

section Write

variable [DecidableEq K]

omit [DecidableEq S] in
@[simp] theorem rows_write (st : Store K R L S) (s : S) (k : K) (r : R) :
    (st.write s k r).rows = st.rows := rfl

omit [DecidableEq S] in
@[simp] theorem held_write (st : Store K R L S) (s : S) (k : K) (r : R) :
    (st.write s k r).held = st.held := rfl

omit [DecidableEq S] in
theorem pending_write (st : Store K R L S) (s : S) (k : K) (r : R) (j : K) :
    (st.write s k r).pending j = if j = k then some (s, r) else st.pending j := by
  unfold write
  dsimp only
  rw [Function.update_apply]

theorem view_write_self (st : Store K R L S) (s : S) (k : K) (r : R) (j : K) :
    (st.write s k r).view s j = if j = k then some r else st.view s j := by
  unfold view
  rw [pending_write]
  by_cases h : j = k <;> simp [h]

theorem view_write_other {st : Store K R L S} {s t : S} {k : K} (hfree : st.Free s k)
    (hne : t ≠ s) (r : R) (j : K) : (st.write s k r).view t j = st.view t j := by
  by_cases h : j = k
  · subst h
    rw [view_of_not_own (not_own_of_free hfree hne),
      view_of_other (by rw [pending_write, if_pos rfl]) hne.symm]
    rfl
  · unfold view
    rw [pending_write, if_neg h]
    rfl

/-- **All that an `UPDATE` of one row can do.** -/
theorem update_cases {st st' : Store K R L S} {s : S} {k : K} {guard : R → Bool} {f : R → R}
    (h : st.update s k guard f = some st') :
    (st' = st ∧ ∀ r ∈ st.view s k, guard r = false) ∨
      ∃ r, st.view s k = some r ∧ guard r = true ∧ st.Free s k ∧ st' = st.write s k (f r) := by
  unfold update at h
  cases hview : st.view s k with
  | none =>
    rw [hview] at h
    exact Or.inl ⟨(Option.some.inj h).symm, fun r hr => absurd hr (by simp)⟩
  | some r =>
    rw [hview] at h
    dsimp only at h
    split_ifs at h with hguard hfree
    · exact Or.inr ⟨r, rfl, hguard, hfree, (Option.some.inj h).symm⟩
    · refine Or.inl ⟨(Option.some.inj h).symm, fun r' hr' => ?_⟩
      obtain rfl := Option.some.inj hr'
      simpa using hguard

end Write

/-! ## The end of a transaction -/

@[simp] theorem rows_commit (st : Store K R L S) (s : S) : (st.commit s).rows = st.view s := rfl

@[simp] theorem rows_rollback (st : Store K R L S) (s : S) : (st.rollback s).rows = st.rows := rfl

theorem pending_commit {st : Store K R L S} {s t : S} {k : K} {r : R} :
    (st.commit s).pending k = some (t, r) ↔ st.pending k = some (t, r) ∧ t ≠ s := by
  simp [commit]

theorem pending_rollback {st : Store K R L S} {s t : S} {k : K} {r : R} :
    (st.rollback s).pending k = some (t, r) ↔ st.pending k = some (t, r) ∧ t ≠ s := by
  simp [rollback]

theorem held_commit {st : Store K R L S} {s t : S} {l : L} :
    (st.commit s).held l = some t ↔ st.held l = some t ∧ t ≠ s := by
  simp [commit]

theorem held_rollback {st : Store K R L S} {s t : S} {l : L} :
    (st.rollback s).held l = some t ↔ st.held l = some t ∧ t ≠ s := by
  simp [rollback]

theorem view_commit_self (st : Store K R L S) (s : S) : (st.commit s).view s = st.view s :=
  funext fun _ => view_of_not_own fun _ h => (pending_commit.1 h).2 rfl

theorem view_rollback_self (st : Store K R L S) (s : S) : (st.rollback s).view s = st.rows :=
  funext fun _ => view_of_not_own fun _ h => (pending_rollback.1 h).2 rfl

/-- Another session sees what was committed, or goes on seeing what it saw. -/
theorem view_commit {st : Store K R L S} {s t : S} (hne : t ≠ s) (k : K) :
    ((∃ r, st.pending k = some (s, r)) ∧ (st.commit s).view t k = st.view s k ∧
      st.view t k = st.rows k) ∨
    ((st.commit s).view t k = st.view t k ∧ st.view s k = st.rows k) := by
  by_cases hs : ∃ r, st.pending k = some (s, r)
  · obtain ⟨r, hr⟩ := hs
    refine Or.inl ⟨⟨r, hr⟩, view_of_not_own fun r' hr' => ?_, view_of_other hr hne.symm⟩
    exact hne (Prod.mk.inj (Option.some.inj ((pending_commit.1 hr').1.symm.trans hr))).1
  · have hrows : st.view s k = st.rows k := view_of_not_own fun r hr => hs ⟨r, hr⟩
    refine Or.inr ⟨?_, hrows⟩
    rcases st.view_cases t k with ⟨r, hr, hview⟩ | ⟨hown, hview⟩
    · rw [view_of_pending (pending_commit.2 ⟨hr, hne⟩), hview]
    · rw [view_of_not_own fun r hr => hown r (pending_commit.1 hr).1, hview, rows_commit, hrows]

theorem view_rollback {st : Store K R L S} {s t : S} (hne : t ≠ s) (k : K) :
    (st.rollback s).view t k = st.view t k := by
  rcases st.view_cases t k with ⟨r, hr, hview⟩ | ⟨hown, hview⟩
  · rw [view_of_pending (pending_rollback.2 ⟨hr, hne⟩), hview]
  · rw [view_of_not_own fun r hr => hown r (pending_rollback.1 hr).1, hview]
    rfl

/-! ## Laws of writes -/

/-- Every uncommitted write satisfies a law, which may speak of the committed row below it. -/
def Writes (st : Store K R L S) (P : K → Option R → S → R → Prop) : Prop :=
  ∀ k t r, st.pending k = some (t, r) → P k (st.rows k) t r

variable {st : Store K R L S} {P : K → Option R → S → R → Prop}

omit [DecidableEq S] in
theorem Writes.write [DecidableEq K] (h : st.Writes P) {s : S} {k : K} {r : R}
    (hP : P k (st.rows k) s r) : (st.write s k r).Writes P := by
  intro j t r' hp
  rw [pending_write] at hp
  split_ifs at hp with hj
  · obtain ⟨rfl, rfl⟩ := Prod.mk.inj (Option.some.inj hp)
    exact hj ▸ hP
  · exact h j t r' hp

/-- A law that relates rows to their successors is kept by an `UPDATE` that obeys it. -/
theorem Writes.update [DecidableEq K] {T : R → R → Prop} (htrans : ∀ a b c, T a b → T b c → T a c)
    (h : st.Writes fun _ old _ r => ∀ o ∈ old, T o r) {st' : Store K R L S} {s : S} {k : K}
    {guard : R → Bool} {f : R → R} (hf : ∀ r, guard r = true → T r (f r))
    (hupdate : st.update s k guard f = some st') :
    st'.Writes fun _ old _ r => ∀ o ∈ old, T o r := by
  rcases update_cases hupdate with ⟨rfl, -⟩ | ⟨r, hview, hguard, -, rfl⟩
  · exact h
  · refine h.write fun o ho => ?_
    rcases st.view_cases s k with ⟨r', hr', hown⟩ | ⟨-, hrows⟩
    · rw [hown] at hview
      obtain rfl := Option.some.inj hview
      exact htrans _ _ _ (h k s r' hr' o ho) (hf r' hguard)
    · rw [hrows, Option.mem_def.1 ho] at hview
      exact Option.some.inj hview ▸ hf r hguard

theorem Writes.commit (h : st.Writes P) (s : S) : (st.commit s).Writes P := by
  intro k t r hp
  obtain ⟨hp, hne⟩ := pending_commit.1 hp
  rw [rows_commit, view_of_other hp hne]
  exact h k t r hp

theorem Writes.rollback (h : st.Writes P) (s : S) : (st.rollback s).Writes P :=
  fun k t r hp => h k t r (pending_rollback.1 hp).1

/-- A row changes at a commit only as a write of that session says. -/
theorem Writes.view_cases (h : st.Writes P) (s : S) (k : K) :
    st.view s k = st.rows k ∨ ∃ r, st.view s k = some r ∧ P k (st.rows k) s r := by
  rcases st.view_cases s k with ⟨r, hr, hview⟩ | ⟨-, hview⟩
  · exact Or.inr ⟨r, hview, h k s r hr⟩
  · exact Or.inl hview

section Related

variable {T : R → R → Prop} (hrefl : ∀ r, T r r)
  (h : st.Writes fun _ old _ r => ∀ o ∈ old, T o r)
include hrefl h

/-- What a session reads is related to the committed row as single writes are. -/
theorem Writes.rel_view {s : S} {k : K} {o r : R} (ho : o ∈ st.rows k) (hr : r ∈ st.view s k) :
    T o r := by
  rcases st.view_cases s k with ⟨r', hr', hview⟩ | ⟨-, hview⟩
  · rw [hview] at hr
    cases hr
    exact h k s r hr' o ho
  · rw [hview] at hr
    obtain rfl := Option.some.inj (ho.symm.trans hr)
    exact hrefl o

/-- What another session reads after a commit is related to what it has read before. -/
theorem Writes.rel_view_commit {s t : S} (hne : t ≠ s) {k : K} {o r : R} (ho : o ∈ st.view t k)
    (hr : r ∈ (st.commit s).view t k) : T o r := by
  rcases view_commit hne k with ⟨-, hnew, hold⟩ | ⟨hsame, -⟩
  · rw [hnew] at hr
    rw [hold] at ho
    exact Writes.rel_view hrefl h ho hr
  · rw [hsame] at hr
    obtain rfl := Option.some.inj (ho.symm.trans hr)
    exact hrefl o

/-- Several rows are written, each over what the session reads. -/
theorem Writes.writeAll (htrans : ∀ a b c, T a b → T b c → T a c) {s : S}
    {f : K → Option R} (hf : ∀ k r, f k = some r → ∃ v ∈ st.view s k, T v r) :
    (st.writeAll s f).Writes fun _ old _ r => ∀ o ∈ old, T o r := by
  intro k t r hp o ho
  cases hk : f k with
  | none =>
    have hold : st.pending k = some (t, r) := by simpa [Store.writeAll, hk] using hp
    exact h k t r hold o ho
  | some r' =>
    obtain ⟨v, hv, hvr⟩ := hf k r' hk
    have heq : r' = r := by
      have hpair : some (s, r') = some (t, r) := by simpa [Store.writeAll, hk] using hp
      exact (Prod.mk.inj (Option.some.inj hpair)).2
    subst heq
    exact htrans _ _ _ (Writes.rel_view hrefl h ho hv) hvr

end Related

/-! ## Advisory locks -/

section Acquire

variable [DecidableEq L]

theorem acquire_eq_some {st' : Store K R L S} {s : S} {l : L} (h : st.acquire s l = some st') :
    (∀ t ∈ st.held l, t = s) ∧ st' = { st with held := Function.update st.held l (some s) } := by
  unfold acquire at h
  split_ifs at h with hfree
  exact ⟨hfree, (Option.some.inj h).symm⟩

/-- Locks that were held are still held. -/
theorem held_acquire {st' : Store K R L S} {s t : S} {l l' : L}
    (h : st.acquire s l = some st') (hheld : st.held l' = some t) : st'.held l' = some t := by
  obtain ⟨hfree, rfl⟩ := acquire_eq_some h
  dsimp only
  rw [Function.update_apply]
  split_ifs with hl
  · rw [hl] at hheld
    rw [hfree t hheld]
  · exact hheld

end Acquire

/-! ## Statements -/

section Statement

variable [DecidableEq K] [DecidableEq L]

/-- What one statement of a session does to the table. -/
inductive Statement (st : Store K R L S) (s : S) : Store K R L S → Prop where
  | read : Statement st s st
  | lock {st' : Store K R L S} {l : L} : st.acquire s l = some st' → Statement st s st'
  | update {st' : Store K R L S} {k : K} {guard : R → Bool} {f : R → R} :
      st.update s k guard f = some st' → Statement st s st'
  | insert {k : K} {r : R} : st.rows k = none → st.pending k = none →
      Statement st s (st.write s k r)

/-- What a statement leaves alone: the committed rows, and all that other sessions have. -/
structure Frame (st st' : Store K R L S) (s : S) : Prop where
  rows : st'.rows = st.rows
  pending : ∀ {k t r}, t ≠ s → (st'.pending k = some (t, r) ↔ st.pending k = some (t, r))
  view : ∀ {t}, t ≠ s → st'.view t = st.view t
  held : ∀ {l t}, st.held l = some t → st'.held l = some t

omit [DecidableEq L] in
theorem frame_write {st : Store K R L S} {s : S} {k : K} (hfree : st.Free s k) (r : R) :
    st.Frame (st.write s k r) s where
  rows := rfl
  pending := fun {j t r'} hne => by
    rw [pending_write]
    split_ifs with hj
    · subst hj
      refine ⟨fun h => ?_, fun h => absurd h (not_own_of_free hfree hne r')⟩
      exact absurd (Prod.mk.inj (Option.some.inj h)).1.symm hne
    · exact Iff.rfl
  view := fun hne => funext fun j => view_write_other hfree hne r j
  held := fun h => h

/-- **A statement leaves the other sessions alone.** -/
theorem Statement.frame {st st' : Store K R L S} {s : S} (h : st.Statement s st') :
    st.Frame st' s := by
  cases h with
  | read => exact ⟨rfl, fun _ => Iff.rfl, fun _ => rfl, fun h => h⟩
  | lock hlock =>
    have hheld := fun {l t} => @held_acquire _ _ _ _ _ st _ st' s t _ l hlock
    obtain ⟨-, rfl⟩ := acquire_eq_some hlock
    exact ⟨rfl, fun _ => Iff.rfl, fun _ => rfl, hheld⟩
  | update hupdate =>
    rcases update_cases hupdate with ⟨rfl, -⟩ | ⟨r, -, -, hfree, rfl⟩
    · exact ⟨rfl, fun _ => Iff.rfl, fun _ => rfl, fun h => h⟩
    · exact frame_write hfree _
  | insert _ hpending =>
    refine frame_write (fun w hw => ?_) _
    rw [hpending] at hw
    exact absurd hw (by simp)

end Statement

/-! ## Several rows at once -/

section WriteAll

variable {f : K → Option R}

omit [DecidableEq S] in
theorem pending_writeAll {s t : S} {k : K} {r : R}
    (h : (st.writeAll s f).pending k = some (t, r)) :
    (f k = some r ∧ t = s) ∨ (f k = none ∧ st.pending k = some (t, r)) := by
  unfold writeAll at h
  dsimp only at h
  cases hf : f k with
  | none =>
    rw [hf] at h
    exact Or.inr ⟨rfl, h⟩
  | some r' =>
    rw [hf] at h
    obtain ⟨rfl, rfl⟩ := Prod.mk.inj (Option.some.inj h)
    exact Or.inl ⟨rfl, rfl⟩

theorem view_writeAll_self (s : S) (k : K) :
    (st.writeAll s f).view s k = (f k).or (st.view s k) := by
  unfold view writeAll
  dsimp only
  cases f k with
  | none => rfl
  | some r => simp

theorem frame_writeAll {s : S} (hfree : ∀ k, f k ≠ none → st.Free s k) :
    st.Frame (st.writeAll s f) s := by
  have hpending : ∀ {k t r}, t ≠ s →
      ((st.writeAll s f).pending k = some (t, r) ↔ st.pending k = some (t, r)) := by
    intro k t r hne
    refine ⟨fun h => ?_, fun h => ?_⟩
    · rcases pending_writeAll h with ⟨-, hts⟩ | ⟨-, hp⟩
      · exact absurd hts hne
      · exact hp
    · have hf : f k = none := by
        by_contra hf
        exact not_own_of_free (hfree k hf) hne r h
      simp [writeAll, hf, h]
  exact ⟨rfl, hpending, fun hne => view_congr rfl (hpending hne), fun h => h⟩

end WriteAll

/-! ## Writing what is free -/

/-- Write the rows that are given, if they are free. -/
def put [Fintype K] (st : Store K R L S) (s : S) (f : K → Option R) : Option (Store K R L S) :=
  if ∀ k, f k ≠ none → st.Free s k then some (st.writeAll s f) else none

/-- Write one row, if it is free. -/
def putOne [DecidableEq K] (st : Store K R L S) (s : S) (k : K) (r : R) :
    Option (Store K R L S) :=
  if st.Free s k then some (st.writeAll s (only k r)) else none

/-- Insert a row, if there is none and nobody is about to insert it. -/
def insert [DecidableEq K] (st : Store K R L S) (s : S) (k : K) (r : R) :
    Option (Store K R L S) :=
  if st.rows k = none ∧ st.pending k = none then some (st.writeAll s (only k r)) else none

/-- What a session reads of a row that it may have loaded before. -/
def reread (st : Store K R L S) (s : S) (k : K) (loaded : Option R) : Option R :=
  match st.pending k with
  | some (t, r) => if t = s then some r else loaded.or (st.rows k)
  | none => loaded.or (st.rows k)

omit [DecidableEq S] in
/-- All that is known after rows have been written. -/
structure Put (st : Store K R L S) (s : S) (f : K → Option R) (st' : Store K R L S) : Prop where
  rows : st'.rows = st.rows
  others : ∀ {k t r}, t ≠ s → (st'.pending k = some (t, r) ↔ st.pending k = some (t, r))
  written : ∀ {k r}, f k = some r → st'.pending k = some (s, r)
  kept : ∀ {k}, f k = none → st'.pending k = st.pending k
  cases : ∀ {k r}, st'.pending k = some (s, r) →
    f k = some r ∨ (f k = none ∧ st.pending k = some (s, r))

section

variable {f : K → Option R} {st' : Store K R L S} {s : S}

theorem Put.of_writeAll (hfree : ∀ k, f k ≠ none → st.Free s k) : Put st s f (st.writeAll s f) where
  rows := rfl
  others := (frame_writeAll hfree).pending
  written := fun hf => by simp [writeAll, hf]
  kept := fun hf => by simp [writeAll, hf]
  cases := fun hp => (pending_writeAll hp).imp And.left id

theorem Put.of_put [Fintype K] (h : st.put s f = some st') : Put st s f st' := by
  unfold put at h
  split_ifs at h with hfree
  cases h
  exact .of_writeAll hfree

variable [DecidableEq K] {k : K} {r : R}

theorem Put.of_putOne (h : st.putOne s k r = some st') : Put st s (only k r) st' := by
  unfold putOne at h
  split_ifs at h with hfree
  cases h
  refine .of_writeAll fun i hi => ?_
  obtain ⟨r', hr'⟩ := Option.ne_none_iff_exists'.1 hi
  rwa [(only_eq_some.1 hr').1]

theorem Put.of_insert (h : st.insert s k r = some st') :
    Put st s (only k r) st' ∧ st.rows k = none := by
  unfold insert at h
  split_ifs at h with hnew
  cases h
  refine ⟨.of_writeAll fun i hi w hw => ?_, hnew.1⟩
  obtain ⟨r', hr'⟩ := Option.ne_none_iff_exists'.1 hi
  rw [(only_eq_some.1 hr').1, hnew.2] at hw
  exact absurd hw (by simp)

end

/-! ## Sums over the rows -/

/-- **What another session sees grows at a commit by what the commit adds.** -/
theorem sum_view_commit [Fintype K] {s t : S} (hne : t ≠ s) (w : Option R → ℤ) :
    ∑ k, w ((st.commit s).view t k) + ∑ k, w (st.rows k) =
      ∑ k, w (st.view t k) + ∑ k, w (st.view s k) := by
  rw [← Finset.sum_add_distrib, ← Finset.sum_add_distrib]
  refine Finset.sum_congr rfl fun k _ => ?_
  rcases view_commit hne k with ⟨-, hnew, hold⟩ | ⟨hsame, hown⟩
  · rw [hnew, hold]
    exact add_comm _ _
  · rw [hsame, hown]

end Store

end ReadCommitted
