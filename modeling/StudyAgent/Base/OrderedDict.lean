import Mathlib.Data.List.Nodup
import Mathlib.Data.List.Induction

/-!
# Dictionaries that keep the order of insertion

A Python dictionary as the list of its items: a key that comes again keeps its place
and takes the new value.

Main results:

* `get_ofList` — **a dictionary built from a list holds the last element of each key.**
* `mem_ofList` — its items are its lookups.
* `ofList_append` — new keys go to the end.
-/

namespace OrderedDict

variable {κ β α : Type} [DecidableEq κ]

/-- `d[k] = v`. -/
def insert (k : κ) (v : β) : List (κ × β) → List (κ × β)
  | [] => [(k, v)]
  | p :: d => if p.1 = k then (k, v) :: d else p :: insert k v d

/-- `d.get(k)`. -/
def get (d : List (κ × β)) (k : κ) : Option β := (d.find? fun p => p.1 = k).map Prod.snd

/-- `{key(a): a for a in l}`. -/
def ofList (key : α → κ) (l : List α) : List (κ × α) :=
  l.foldl (fun d a => insert (key a) a d) []

@[simp] theorem get_nil (k : κ) : get ([] : List (κ × β)) k = none := rfl

theorem get_cons (p : κ × β) (d : List (κ × β)) (k : κ) :
    get (p :: d) k = if p.1 = k then some p.2 else get d k := by
  unfold get
  by_cases h : p.1 = k <;> simp [h]

theorem get_insert (d : List (κ × β)) (k k' : κ) (v : β) :
    get (insert k v d) k' = if k = k' then some v else get d k' := by
  induction d with
  | nil => simp [insert, get_cons]
  | cons p d ih =>
    rw [insert]
    by_cases h : p.1 = k
    · rw [if_pos h, get_cons, get_cons, h]
      by_cases hk : k = k' <;> simp [hk]
    · rw [if_neg h, get_cons, get_cons, ih]
      by_cases hp : p.1 = k'
      · rw [if_pos hp, if_pos hp, if_neg fun hk => h (hp.trans hk.symm)]
      · rw [if_neg hp, if_neg hp]

theorem keys_insert (d : List (κ × β)) (k : κ) (v : β) :
    (insert k v d).map Prod.fst =
      if k ∈ d.map Prod.fst then d.map Prod.fst else d.map Prod.fst ++ [k] := by
  induction d with
  | nil => simp [insert]
  | cons p d ih =>
    rw [insert]
    by_cases h : p.1 = k
    · simp [h]
    · rw [if_neg h, List.map_cons, ih, List.map_cons]
      have hne : k ≠ p.1 := Ne.symm h
      by_cases hmem : k ∈ d.map Prod.fst
      · rw [if_pos hmem, if_pos (List.mem_cons_of_mem _ hmem)]
      · rw [if_neg hmem, if_neg fun hm => hmem ((List.mem_cons.1 hm).resolve_left hne)]
        rfl

/-- A new key goes to the end. -/
theorem insert_of_not_mem {d : List (κ × β)} {k : κ} (v : β) (h : k ∉ d.map Prod.fst) :
    insert k v d = d ++ [(k, v)] := by
  induction d with
  | nil => rfl
  | cons p d ih =>
    have hne : ¬ p.1 = k := fun hp => h (hp ▸ List.mem_cons_self)
    rw [insert, if_neg hne, ih fun hm => h (List.mem_cons_of_mem _ hm)]
    rfl

theorem nodup_insert {d : List (κ × β)} (h : (d.map Prod.fst).Nodup) (k : κ) (v : β) :
    ((insert k v d).map Prod.fst).Nodup := by
  rw [keys_insert]
  split_ifs with hmem
  · exact h
  · exact List.nodup_append.2 ⟨h, List.nodup_singleton k, by
      intro a ha b hb hab
      rw [List.mem_singleton.1 hb] at hab
      exact hmem (hab ▸ ha)⟩

theorem mem_iff_get {d : List (κ × β)} (h : (d.map Prod.fst).Nodup) {k : κ} {v : β} :
    (k, v) ∈ d ↔ get d k = some v := by
  induction d with
  | nil => simp
  | cons p d ih =>
    obtain ⟨hp, hd⟩ := List.nodup_cons.1 h
    rw [get_cons, List.mem_cons]
    by_cases hk : p.1 = k
    · rw [if_pos hk]
      have hnot : (k, v) ∉ d := fun hm => hp (hk ▸ List.mem_map_of_mem hm)
      constructor
      · rintro (rfl | hm)
        · rfl
        · exact absurd hm hnot
      · intro hv
        exact Or.inl (Prod.ext hk.symm (Option.some.inj hv).symm)
    · rw [if_neg hk, ← ih hd]
      exact or_iff_right fun heq => hk (congrArg Prod.fst heq).symm

section OfList

variable {key : α → κ}

theorem ofList_concat (l : List α) (a : α) :
    ofList key (l ++ [a]) = insert (key a) a (ofList key l) := by
  unfold ofList
  rw [List.foldl_append]
  rfl

/-- **The last element of each key is held.** -/
theorem get_ofList (l : List α) (k : κ) :
    get (ofList key l) k = l.reverse.find? fun a => key a = k := by
  induction l using List.reverseRecOn with
  | nil => rfl
  | append_singleton l a ih =>
    rw [ofList_concat, get_insert, ih, List.reverse_append, List.reverse_singleton,
      List.singleton_append]
    by_cases h : key a = k <;> simp [h]

theorem nodup_ofList (l : List α) : ((ofList key l).map Prod.fst).Nodup := by
  induction l using List.reverseRecOn with
  | nil => exact List.nodup_nil
  | append_singleton l a ih =>
    rw [ofList_concat]
    exact nodup_insert ih _ _

/-- **The items of the dictionary are its lookups.** -/
theorem mem_ofList {l : List α} {k : κ} {a : α} :
    (k, a) ∈ ofList key l ↔ (l.reverse.find? fun a => key a = k) = some a := by
  rw [mem_iff_get (nodup_ofList l), get_ofList]

theorem mem_keys_ofList {l : List α} {k : κ} :
    k ∈ (ofList key l).map Prod.fst ↔ k ∈ l.map key := by
  induction l using List.reverseRecOn with
  | nil => rfl
  | append_singleton l a ih =>
    rw [ofList_concat, keys_insert, List.map_append, List.mem_append, ← ih]
    by_cases h : key a ∈ (ofList key l).map Prod.fst
    · rw [if_pos h]
      refine ⟨Or.inl, fun hk => hk.elim id fun hk => ?_⟩
      rw [List.map_singleton, List.mem_singleton] at hk
      exact hk ▸ h
    · rw [if_neg h, List.mem_append, List.map_singleton]

/-- **New and different keys go to the end.** -/
theorem ofList_append {l m : List α} (hnew : ∀ a ∈ m, key a ∉ l.map key)
    (hdiff : (m.map key).Nodup) :
    ofList key (l ++ m) = ofList key l ++ m.map fun a => (key a, a) := by
  induction m using List.reverseRecOn with
  | nil => simp
  | append_singleton m a ih =>
    rw [List.map_append, List.map_singleton, List.nodup_append] at hdiff
    obtain ⟨hm, -, hlast⟩ := hdiff
    have hprev := ih (fun b hb => hnew b (List.mem_append_left _ hb)) hm
    have hfresh : key a ∉ (ofList key (l ++ m)).map Prod.fst := by
      rw [mem_keys_ofList, List.map_append, List.mem_append]
      rintro (h | h)
      · exact hnew a (List.mem_append_right _ List.mem_cons_self) h
      · exact hlast _ h _ List.mem_cons_self rfl
    rw [← List.append_assoc, ofList_concat, insert_of_not_mem a hfresh, hprev, List.map_append,
      List.append_assoc]
    rfl

end OfList

end OrderedDict
