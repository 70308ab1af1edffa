import StudyAgent.Base.MarkedRows

/-!
# Chasing pointers

Rows that may name another row by its key.  A loop goes from row to row until no row is named, the
named row is not there, or its key has been met before.

Main results:

* `chase_chain` — **where the rows that are named rank lower, the loop lists a whole chain**: it is
never cut off because a key comes again.
* `Chain.descending`, `Chain.last` — what a chain is like, and how it ends.
-/

namespace PointerChase

open MarkedRows (find)

variable {R K : Type} [DecidableEq K] {key : R → K} {next : R → Option K} {rows : List R}

/-- The loop, with the keys that it has met. -/
def chase (key : R → K) (next : R → Option K) (rows : List R) :
    ℕ → List K → Option K → List R
  | 0, _, _ => []
  | _ + 1, _, none => []
  | fuel + 1, seen, some k =>
    if k ∈ seen then []
    else match find key rows k with
      | none => []
      | some r => r :: chase key next rows fuel (k :: seen) (next r)

/-- The rows from a key on, one after the other. -/
inductive Chain (key : R → K) (next : R → Option K) (rows : List R) : Option K → List R → Prop
  | ended : Chain key next rows none []
  | lost {k : K} (h : find key rows k = none) : Chain key next rows (some k) []
  | link {k : K} {r : R} {rest : List R} (h : find key rows k = some r)
      (hrest : Chain key next rows (next r) rest) : Chain key next rows (some k) (r :: rest)

section

variable {rank : R → ℕ} {cursor : Option K} {chain : List R} {r : R}

/-- The rows with keys that have not been met become fewer. -/
theorem length_unseen_lt {seen : List K} {k : K} (hfound : find key rows k = some r)
    (hk : k ∉ seen) :
    (rows.filter fun r => key r ∉ k :: seen).length <
      (rows.filter fun r => key r ∉ seen).length := by
  obtain ⟨hmem, hkey⟩ := MarkedRows.mem_of_find hfound
  have hsub : (rows.filter fun r => key r ∉ k :: seen) =
      (rows.filter fun r => key r ∉ seen).filter fun r => key r ≠ k := by
    rw [List.filter_filter]
    refine List.filter_congr fun r _ => ?_
    simp [List.mem_cons, not_or]
  rw [hsub]
  refine List.length_filter_lt_length_iff_exists.2 ⟨r, ?_, by simpa using hkey⟩
  exact List.mem_filter.2 ⟨hmem, by simpa [hkey] using hk⟩

/-- **The loop lists the whole chain** where ranks fall along it, with a turn for every row. -/
theorem chase_chain (hdown : ∀ r ∈ rows, ∀ k ∈ next r, ∀ r', find key rows k = some r' →
      rank r' < rank r) {fuel : ℕ} {seen : List K}
    (hfuel : (rows.filter fun r => key r ∉ seen).length < fuel)
    (hseen : ∀ k ∈ cursor, ∀ r, find key rows k = some r → ∀ k' ∈ seen, ∀ r',
      find key rows k' = some r' → rank r < rank r') :
    Chain key next rows cursor (chase key next rows fuel seen cursor) := by
  induction fuel generalizing seen cursor with
  | zero => omega
  | succ fuel ih =>
    cases cursor with
    | none => exact .ended
    | some k =>
      rw [chase]
      cases hfound : find key rows k with
      | none =>
        split_ifs
        · exact .lost hfound
        · exact .lost hfound
      | some r =>
        -- a key that has been met names a row of a higher rank
        have hnew : k ∉ seen := fun hk => Nat.lt_irrefl _ (hseen k rfl r hfound k hk r hfound)
        rw [if_neg hnew]
        have hmem := (MarkedRows.mem_of_find hfound).1
        refine .link hfound (ih ?_ fun k' hk' r' hfound' k'' hk'' r'' hfound'' => ?_)
        · have hfewer := length_unseen_lt hfound hnew
          omega
        · have hlower := hdown r hmem k' hk' r' hfound'
          rcases List.mem_cons.1 hk'' with rfl | hold
          · obtain rfl : r = r'' := by simpa [hfound] using hfound''
            exact hlower
          · exact Nat.lt_trans hlower (hseen k rfl r hfound k'' hold r'' hfound'')

theorem Chain.lower {b : ℕ} (h : Chain key next rows cursor chain)
    (hdown : ∀ r ∈ rows, ∀ k ∈ next r, ∀ r', find key rows k = some r' → rank r' < rank r)
    (hb : ∀ k ∈ cursor, ∀ r, find key rows k = some r → rank r < b) : ∀ r ∈ chain, rank r < b := by
  induction h with
  | ended => simp
  | lost => simp
  | link hfound hrest ih =>
    have hfirst := hb _ rfl _ hfound
    have hmem := (MarkedRows.mem_of_find hfound).1
    intro r hr
    rcases List.mem_cons.1 hr with rfl | hr
    · exact hfirst
    · refine ih (fun k hk r' hfound' => ?_) r hr
      exact Nat.lt_trans (hdown _ hmem k hk r' hfound') hfirst

theorem Chain.mem (h : Chain key next rows cursor chain) : ∀ r ∈ chain, r ∈ rows := by
  induction h with
  | ended => simp
  | lost => simp
  | link hfound hrest ih =>
    intro r hr
    rcases List.mem_cons.1 hr with rfl | hr
    · exact (MarkedRows.mem_of_find hfound).1
    · exact ih r hr

/-- What a chain begins with. -/
theorem Chain.head_eq (h : Chain key next rows cursor chain) :
    chain.head? = cursor.bind (find key rows) := by
  cases h with
  | ended => rfl
  | lost hlost => exact hlost.symm
  | link hfound _ => exact hfound.symm

/-- **Ranks fall along a chain.** -/
theorem Chain.descending (h : Chain key next rows cursor chain)
    (hdown : ∀ r ∈ rows, ∀ k ∈ next r, ∀ r', find key rows k = some r' → rank r' < rank r) :
    chain.Pairwise fun r r' => rank r' < rank r := by
  induction h with
  | ended => exact .nil
  | lost => exact .nil
  | link hfound hrest ih =>
    have hmem := (MarkedRows.mem_of_find hfound).1
    exact .cons (hrest.lower hdown fun k hk => hdown _ hmem k hk) ih

/-- Each row of a chain is named by the one before. -/
theorem Chain.links (h : Chain key next rows (next r) chain) :
    List.IsChain (fun r r' => next r = some (key r')) (r :: chain) := by
  induction chain generalizing r with
  | nil => exact .singleton _
  | cons r' rest ih =>
    generalize hnext : next r = cursor at h
    cases h with
    | link hfound hrest =>
      have hkey := (MarkedRows.mem_of_find hfound).2
      exact .cons_cons (by rw [hnext, hkey]) (ih hrest)

/-- **A chain ends** where no row is named, or none is there. -/
theorem Chain.last (h : Chain key next rows (next r) chain) :
    ∀ u ∈ (r :: chain).getLast?, ∀ k ∈ next u, find key rows k = none := by
  induction chain generalizing r with
  | nil =>
    intro u hu k hk
    obtain rfl : r = u := by simpa using hu
    generalize hnext : next r = cursor at h hk
    cases h with
    | ended => cases hk
    | lost hlost =>
      cases hk
      exact hlost
  | cons r' rest ih =>
    generalize next r = cursor at h
    cases h with
    | link hfound hrest =>
      rw [List.getLast?_cons_cons]
      exact ih hrest

end

end PointerChase
