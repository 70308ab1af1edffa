import StudyAgent.Placement.Location
import StudyAgent.Placement.SpanCover
import StudyAgent.Topics.Tree

/-!
# The instruction that a version keeps

The instruction a version was generated by is set in front of its prompt snapshot between two
markers.  It is read from there when the mentor opens the version, and compared with the
instruction that the tree gives now.

Main results:

* `formatEffectiveInstruction_eq_fallback` — only a topic without instructions is taught by the
  fallback.
* `extract_between` — what is read is what stands before the first end marker.
* `instruction_changed` — **the instruction has changed when the text is another one**, but for a
  text with the end marker in it.
-/

namespace StudyAgent.Topics

open Py Placement

/-! ## Texts that are joined -/

/-- The text neither begins nor ends with a space, and is not empty. -/
structure Solid (s : String) : Prop where
  head : ∃ c, s.toList.head? = some c ∧ isSpace c = false
  last : ∃ c, s.toList.getLast? = some c ∧ isSpace c = false

theorem Solid.ne_empty {s : String} (h : Solid s) : s ≠ "" := by
  rintro rfl
  obtain ⟨c, hc, -⟩ := h.head
  cases hc

theorem Solid.strip {s : String} (h : Solid s) : strip s = s := by
  obtain ⟨c, hc, hcs⟩ := h.head
  obtain ⟨d, hd, hds⟩ := h.last
  refine strip_eq_self (fun x hx => ?_) fun x hx => ?_
  · exact Option.some.inj (hc.symm.trans hx) ▸ hcs
  · rw [List.head?_reverse] at hx
    exact Option.some.inj (hd.symm.trans hx) ▸ hds

theorem Solid.append {s t : String} (hs : Solid s) (ht : Solid t) (sep : String) :
    Solid (s ++ (sep ++ t)) := by
  obtain ⟨c, hc, hcs⟩ := hs.head
  obtain ⟨d, hd, hds⟩ := ht.last
  refine ⟨⟨c, head_append hc _, hcs⟩, d, ?_, hds⟩
  rw [String.toList_append, String.toList_append, ← List.append_assoc, List.getLast?_append, hd,
    Option.some_or]

theorem length_stripChars_le (l : List Char) : (stripChars l).length ≤ l.length := by
  rw [stripChars, List.length_reverse]
  refine ((List.dropWhile_suffix _).length_le).trans ?_
  rw [List.length_reverse]
  exact (List.dropWhile_suffix _).length_le

/-- What is left of a text is solid. -/
theorem solid_strip {s : String} (h : strip s ≠ "") : Solid (strip s) := by
  have hchars : (strip s).toList = stripChars s.toList := String.toList_ofList
  have hidem := stripChars_idem s.toList
  have hne : stripChars s.toList ≠ [] := fun hnil =>
    h (String.toList_inj.1 (hchars.trans hnil))
  refine ⟨?_, ?_⟩
  · cases hl : stripChars s.toList with
    | nil => exact absurd hl hne
    | cons c l =>
      refine ⟨c, by rw [hchars, hl]; rfl, Bool.eq_false_iff.2 fun hc => ?_⟩
      rw [hl] at hidem
      have hlength := length_stripChars_le l
      rw [stripChars, List.dropWhile_cons_of_pos hc, ← stripChars] at hidem
      have := congrArg List.length hidem
      rw [List.length_cons] at this
      omega
  · have hreverse : (stripChars s.toList).reverse =
        (s.toList.dropWhile isSpace).reverse.dropWhile isSpace := List.reverse_reverse _
    have hne' : (s.toList.dropWhile isSpace).reverse.dropWhile isSpace ≠ [] := by
      rw [← hreverse]
      exact List.reverse_ne_nil_iff.2 hne
    refine ⟨_, ?_, List.head_dropWhile_not isSpace hne'⟩
    rw [hchars, ← List.head?_reverse, hreverse]
    exact List.head?_eq_some_head hne'

theorem solid_nonempty {o : Option String} {s : String} (h : nonempty o = some s) : Solid s := by
  cases o with
  | none => cases h
  | some text =>
    rw [nonempty] at h
    split_ifs at h with hempty
    cases h
    exact solid_strip hempty

theorem solid_intercalate {sep : String} {l : List String} (hne : l ≠ [])
    (h : ∀ s ∈ l, Solid s) : Solid (sep.intercalate l) := by
  induction l with
  | nil => exact absurd rfl hne
  | cons s l ih =>
    cases l with
    | nil =>
      rw [String.intercalate_singleton]
      exact h s List.mem_cons_self
    | cons t l =>
      rw [String.intercalate_cons_cons, String.append_assoc]
      exact (h s List.mem_cons_self).append
        (ih (List.cons_ne_nil _ _) fun x hx => h x (List.mem_cons_of_mem _ hx)) sep

/-! ## Formatted instructions -/

/-- What a label begins with. -/
def LABEL_STARTS : List Char := ['F', 'Y', 'I', 'P']

/-- A part that `resolve_effective_instruction_parts` makes. -/
structure Labelled (part : EffectiveInstructionPart) : Prop where
  label : ∃ c ∈ LABEL_STARTS, part.label.toList.head? = some c
  text : Solid part.text

theorem labelled_partOf {node : TopicNode} {type : InstructionPartType} {label : String}
    {text : Option String} {part : EffectiveInstructionPart}
    (hlabel : ∃ c ∈ LABEL_STARTS, label.toList.head? = some c)
    (h : partOf node type label text = some part) : Labelled part := by
  obtain ⟨s, hs, rfl⟩ := Option.map_eq_some_iff.1 h
  exact ⟨hlabel, solid_nonempty hs⟩

theorem labelled_inheritedPart {node : TopicNode} {part : EffectiveInstructionPart}
    (h : inheritedPart node = some part) : Labelled part := by
  refine labelled_partOf ⟨'F', by decide, ?_⟩ h
  rw [String.append_assoc]
  exact head_append (by decide) _

theorem labelled_resolve {node : TopicNode} {ancestors : List TopicNode}
    {part : EffectiveInstructionPart}
    (h : part ∈ resolveEffectiveInstructionParts node ancestors) : Labelled part := by
  rw [resolveEffectiveInstructionParts] at h
  split at h
  · rename_i own hown
    rw [List.mem_singleton] at h
    exact labelled_partOf ⟨'Y', by decide, by decide⟩ (h ▸ hown)
  · rw [List.mem_append, List.mem_append, Option.mem_toList, Option.mem_toList,
      List.mem_filterMap] at h
    rcases h with ⟨ancestor, -, h⟩ | h | h
    · exact labelled_inheritedPart h
    · exact labelled_partOf ⟨'I', by decide, by decide⟩ h
    · exact labelled_partOf ⟨'P', by decide, by decide⟩ h

theorem isSpace_of_mem_starts {c : Char} (h : c ∈ LABEL_STARTS) : isSpace c = false := by
  simp only [LABEL_STARTS, List.mem_cons, List.not_mem_nil, or_false] at h
  rcases h with rfl | rfl | rfl | rfl <;> decide

/-- A part as it is rendered. -/
def rendered (part : EffectiveInstructionPart) : String := part.label ++ "\n" ++ part.text

theorem Labelled.solid {part : EffectiveInstructionPart} (h : Labelled part) :
    Solid (rendered part) := by
  obtain ⟨c, hc, hlabel⟩ := h.label
  obtain ⟨d, hd, hds⟩ := h.text.last
  rw [rendered, String.append_assoc]
  refine ⟨⟨c, head_append hlabel _, isSpace_of_mem_starts hc⟩, d, ?_, hds⟩
  rw [String.toList_append, String.toList_append, ← List.append_assoc, List.getLast?_append, hd,
    Option.some_or]

theorem formatEffectiveInstruction_eq {parts : List EffectiveInstructionPart} (h : parts ≠ []) :
    formatEffectiveInstruction parts = "\n\n".intercalate (parts.map rendered) := by
  rw [formatEffectiveInstruction, if_neg h]
  rfl

theorem head_intercalate {sep s : String} {c : Char} (hs : s.toList.head? = some c)
    (l : List String) : (sep.intercalate (s :: l)).toList.head? = some c := by
  cases l with
  | nil => rwa [String.intercalate_singleton]
  | cons t l =>
    rw [String.intercalate_cons_cons, String.append_assoc]
    exact head_append hs _

/-- A formatted instruction begins as its first label does. -/
theorem head_format {parts : List EffectiveInstructionPart} (hne : parts ≠ [])
    (h : ∀ part ∈ parts, Labelled part) :
    ∃ c ∈ LABEL_STARTS, (formatEffectiveInstruction parts).toList.head? = some c := by
  rw [formatEffectiveInstruction_eq hne]
  cases parts with
  | nil => exact absurd rfl hne
  | cons part parts =>
    obtain ⟨c, hc, hlabel⟩ := (h part List.mem_cons_self).label
    refine ⟨c, hc, head_intercalate ?_ _⟩
    rw [rendered, String.append_assoc]
    exact head_append hlabel _

theorem head_fallback : NO_INSTRUCTION_FALLBACK.toList.head? = some 'N' := by
  unfold NO_INSTRUCTION_FALLBACK
  have hhead :
    "No specific teaching instruction provided. Write clear, accurate introductory ".toList.head? =
      some 'N' := by simp
  exact head_append hhead _

theorem last_fallback : NO_INSTRUCTION_FALLBACK.toList.getLast? = some '.' := by
  unfold NO_INSTRUCTION_FALLBACK
  have hlast :
      ("study material for a learner who is new to this topic.").toList.getLast? =
      some '.' := by
    simp
  rw [String.toList_append, List.getLast?_append, hlast, Option.some_or]

/-- **Only a topic without instructions is taught by the fallback.** -/
theorem formatEffectiveInstruction_eq_fallback {parts : List EffectiveInstructionPart}
    (h : ∀ part ∈ parts, Labelled part) :
    formatEffectiveInstruction parts = NO_INSTRUCTION_FALLBACK ↔ parts = [] := by
  refine ⟨fun heq => ?_, fun heq => if_pos heq⟩
  by_contra hne
  obtain ⟨c, hc, hhead⟩ := head_format hne h
  rw [heq, head_fallback] at hhead
  cases hhead
  exact absurd hc (by decide)

/-- What a formatted instruction begins with. -/
def INSTRUCTION_STARTS : List Char := 'N' :: LABEL_STARTS

/-- A formatted instruction is solid, and begins with a letter. -/
theorem solid_format {parts : List EffectiveInstructionPart} (h : ∀ part ∈ parts, Labelled part) :
    Solid (formatEffectiveInstruction parts) ∧
      ∃ c ∈ INSTRUCTION_STARTS, (formatEffectiveInstruction parts).toList.head? = some c := by
  by_cases hne : parts = []
  · rw [formatEffectiveInstruction, if_pos hne]
    exact ⟨⟨⟨'N', head_fallback, by decide⟩, '.', last_fallback, by decide⟩, 'N', by decide,
      head_fallback⟩
  · refine ⟨?_, ?_⟩
    · rw [formatEffectiveInstruction_eq hne]
      refine solid_intercalate (by simpa using hne) fun s hs => ?_
      obtain ⟨part, hpart, rfl⟩ := List.mem_map.1 hs
      exact (h part hpart).solid
    · obtain ⟨c, hc, hhead⟩ := head_format hne h
      exact ⟨c, List.mem_cons_of_mem _ hc, hhead⟩

/-! ## Snapshots -/

def MARKER_START : String := "[EFFECTIVE_INSTRUCTION_AT_GENERATION]\n"

def MARKER_END : String := "\n[/EFFECTIVE_INSTRUCTION_AT_GENERATION]"

/-- `embed_effective_instruction_snapshot`. -/
def embedEffectiveInstructionSnapshot (promptSnapshot effectiveInstruction : Option String) :
    Option String :=
  match promptSnapshot with
  | none => none
  | some prompt =>
    let instruction := strip (effectiveInstruction.getD "")
    if prompt = "" ∨ instruction = "" then some prompt
    else some (MARKER_START ++ instruction ++ MARKER_END ++ "\n\n" ++ prompt)

/-- `extract_effective_instruction_snapshot`. -/
def extractEffectiveInstructionSnapshot (promptSnapshot : Option String) : Option String :=
  match promptSnapshot with
  | none => none
  | some prompt =>
    match findChars MARKER_START.toList prompt.toList with
    | none => none
    | some start =>
      match findChars MARKER_END.toList (prompt.toList.drop start) with
      | none => none
      | some offset =>
        let text := strip (sliceText prompt (start + MARKER_START.length) (start + offset))
        if text = "" then none else some text

/-- `instruction_changed_since_generation` of `get_mentor_ui_state`, for an active version with
that snapshot. -/
def instructionChanged (promptSnapshot : Option String) (currentInstruction : String) : Bool :=
  match extractEffectiveInstructionSnapshot promptSnapshot with
  | none => false
  | some generation => generation ≠ currentInstruction

/-! ## The first occurrence -/

section Occurrence

variable {c : Char} {rest l pre post : List Char}

/-- A text whose first character is in it once is first found where it first stands. -/
theorem findChars_append (hc : c ∉ rest) (h : ¬ c :: rest <:+: pre) :
    findChars (c :: rest) (pre ++ (c :: rest ++ post)) = some pre.length := by
  induction pre with
  | nil =>
    have hprefix : c :: rest <+: c :: (rest ++ post) := List.prefix_append (c :: rest) post
    rw [List.nil_append, List.cons_append, findChars, if_pos (List.isPrefixOf_iff_prefix.2 hprefix)]
    rfl
  | cons x pre ih =>
    rw [List.infix_cons_iff, not_or] at h
    have hnot : ¬ c :: rest <+: x :: (pre ++ (c :: rest ++ post)) := by
      intro hprefix
      obtain ⟨rfl, htail⟩ := List.cons_prefix_cons.1 hprefix
      rcases le_or_gt rest.length pre.length with hle | hlt
      · exact h.1 (List.cons_prefix_cons.2
          ⟨rfl, List.prefix_of_prefix_length_le htail (List.prefix_append _ _) hle⟩)
      · -- the text would overlap with itself
        have hget := List.prefix_iff_getElem?.1 htail pre.length hlt
        rw [List.getElem?_append_right le_rfl, Nat.sub_self] at hget
        exact hc (Option.some.inj hget ▸ List.getElem_mem hlt)
    rw [List.cons_append, findChars, if_neg (fun hp => hnot (List.isPrefixOf_iff_prefix.1 hp)),
      ih h.2]
    rfl

theorem findChars_prefix (needle post : List Char) :
    findChars needle (needle ++ post) = some 0 := by
  cases needle with
  | nil => cases post <;> rfl
  | cons c needle =>
    have hprefix : c :: needle <+: c :: (needle ++ post) := List.prefix_append (c :: needle) post
    rw [List.cons_append, findChars, if_pos (List.isPrefixOf_iff_prefix.2 hprefix)]

/-- A text that is found stands somewhere first. -/
theorem exists_first (h : c :: rest <:+: l) :
    ∃ pre post, l = pre ++ (c :: rest ++ post) ∧ ¬ c :: rest <:+: pre := by
  induction l with
  | nil => exact absurd (List.eq_nil_of_infix_nil h) (List.cons_ne_nil _ _)
  | cons x l ih =>
    by_cases hprefix : c :: rest <+: x :: l
    · obtain ⟨post, hpost⟩ := hprefix
      exact ⟨[], post, hpost.symm, fun h => List.cons_ne_nil _ _ (List.eq_nil_of_infix_nil h)⟩
    · obtain ⟨pre, post, rfl, hpre⟩ := ih ((List.infix_cons_iff.1 h).resolve_left hprefix)
      refine ⟨x :: pre, post, rfl, fun hinfix => ?_⟩
      rcases List.infix_cons_iff.1 hinfix with hp | hp
      · exact hprefix (hp.trans (List.prefix_append _ _))
      · exact hpre hp

end Occurrence

/-! ## What is read from a snapshot -/

theorem toList_MARKER_END : ∃ rest, MARKER_END.toList = '\n' :: rest ∧ '\n' ∉ rest ∧
    rest.head? = some '[' := ⟨MARKER_END.toList.tail, by decide, by decide, by decide⟩

theorem toList_MARKER_START : ∃ l, MARKER_START.toList = l ++ ['\n'] ∧ '\n' ∉ l :=
  ⟨MARKER_START.toList.dropLast, by decide, by decide⟩

/-- No end marker begins in what stands before a text. -/
theorem infix_behind {c : Char} {rest a b : List Char} (ha : c ∉ a) (h : c :: rest <:+: a ++ b) :
    c :: rest <:+: b := by
  induction a with
  | nil => exact h
  | cons x a ih =>
    rw [List.mem_cons, not_or] at ha
    refine ih ha.2 ((List.infix_cons_iff.1 h).resolve_left fun hprefix => ?_)
    exact ha.1 (List.cons_prefix_cons.1 hprefix).1

/-- **What is read is what stands before the first end marker.** -/
theorem extract_between {pre post : List Char} (hhead : pre.head? ≠ some '[')
    (hpre : ¬ MARKER_END.toList <:+: pre) :
    extractEffectiveInstructionSnapshot
        (some (String.ofList (MARKER_START.toList ++ (pre ++ (MARKER_END.toList ++ post))))) =
      if strip (String.ofList pre) = "" then none else some (strip (String.ofList pre)) := by
  obtain ⟨rest, hend, hrest, hopen⟩ := toList_MARKER_END
  obtain ⟨start, hstart, hbefore⟩ := toList_MARKER_START
  have hfirst : ¬ '\n' :: rest <:+: MARKER_START.toList ++ pre := by
    rw [hstart, List.append_assoc, List.singleton_append]
    intro hinfix
    rcases List.infix_cons_iff.1 (infix_behind hbefore hinfix) with hprefix | hinfix
    · -- the marker would begin with the end of the first one
      obtain ⟨post', hpost'⟩ := (List.cons_prefix_cons.1 hprefix).2
      rw [← hpost', List.head?_append, hopen, Option.some_or] at hhead
      exact hhead rfl
    · exact hpre (hend ▸ hinfix)
  have hends := @findChars_append '\n' rest _ post hrest hfirst
  rw [← hend, List.append_assoc] at hends
  rw [extractEffectiveInstructionSnapshot]
  dsimp only
  rw [String.toList_ofList, findChars_prefix]
  dsimp only
  rw [List.drop_zero, hends]
  dsimp only
  have hslice : sliceText (String.ofList
    (MARKER_START.toList ++ (pre ++ (MARKER_END.toList ++ post))))
      (0 + MARKER_START.length) (0 + (MARKER_START.toList ++ pre).length) = String.ofList pre := by
    rw [sliceText, String.toList_ofList, Nat.zero_add, Nat.zero_add, List.length_append,
      ← String.length_toList, Nat.add_sub_cancel_left, List.drop_left, List.take_left]
  rw [hslice]

/-- A snapshot with a formatted instruction in front. -/
theorem embed_eq {prompt instruction : String} (hprompt : prompt ≠ "") (h : Solid instruction) :
    embedEffectiveInstructionSnapshot (some prompt) (some instruction) =
      some (String.ofList (MARKER_START.toList ++ (instruction.toList ++ (MARKER_END.toList ++
        ("\n\n" ++ prompt).toList)))) := by
  rw [embedEffectiveInstructionSnapshot]
  dsimp only [Option.getD_some]
  rw [if_neg (not_or.2 ⟨hprompt, by rw [h.strip]; exact h.ne_empty⟩), h.strip]
  refine congrArg some (String.toList_inj.1 ?_)
  simp only [String.toList_append, String.toList_ofList, List.append_assoc]

theorem starts_of_mem {c : Char} (h : c ∈ INSTRUCTION_STARTS) :
    c ≠ '[' ∧ c ≠ '\n' ∧ isSpace c = false := by
  simp only [INSTRUCTION_STARTS, LABEL_STARTS, List.mem_cons, List.not_mem_nil, or_false] at h
  rcases h with rfl | rfl | rfl | rfl | rfl <;> decide

variable {t t' : TopicTable} {n n' : TopicNode} {prompt : String}

theorem solid_resolveInstruction (t : TopicTable) (n : TopicNode) :
    Solid (t.resolveInstruction n) ∧
      ∃ c ∈ INSTRUCTION_STARTS, (t.resolveInstruction n).toList.head? = some c :=
  solid_format fun _ => labelled_resolve

/-- An instruction without the end marker is read as it was. -/
theorem extract_embed (hprompt : prompt ≠ "")
    (hmarker : ¬ MARKER_END.toList <:+: (t.resolveInstruction n).toList) :
    extractEffectiveInstructionSnapshot
        (embedEffectiveInstructionSnapshot (some prompt) (some (t.resolveInstruction n))) =
      some (t.resolveInstruction n) := by
  obtain ⟨hsolid, c, hc, hhead⟩ := solid_resolveInstruction t n
  have hopen : (t.resolveInstruction n).toList.head? ≠ some '[' := by
    rw [hhead]
    exact fun h => (starts_of_mem hc).1 (Option.some.inj h)
  rw [embed_eq hprompt hsolid, extract_between hopen hmarker, String.ofList_toList,
    hsolid.strip, if_neg hsolid.ne_empty]

/-- Of an instruction with the end marker less is read than there was. -/
theorem extract_embed_short (hprompt : prompt ≠ "")
    (hmarker : MARKER_END.toList <:+: (t.resolveInstruction n).toList) :
    ∃ s, extractEffectiveInstructionSnapshot
        (embedEffectiveInstructionSnapshot (some prompt) (some (t.resolveInstruction n))) = some s ∧
      s.length < (t.resolveInstruction n).length := by
  obtain ⟨hsolid, c, hc, hhead⟩ := solid_resolveInstruction t n
  obtain ⟨rest, hend, -⟩ := toList_MARKER_END
  rw [hend] at hmarker
  obtain ⟨pre, post, hsplit, hfirst⟩ := exists_first hmarker
  rw [← hend] at hsplit hfirst
  -- the instruction does not begin with the marker
  cases pre with
  | nil =>
    rw [hsplit, hend] at hhead
    cases hhead
    exact absurd rfl (starts_of_mem hc).2.1
  | cons x pre =>
    have hx : x = c := by
      rw [hsplit] at hhead
      exact Option.some.inj hhead
    subst hx
    obtain ⟨hopen, -, hspace⟩ := starts_of_mem hc
    have hblank : strip (String.ofList (x :: pre)) ≠ "" := fun hempty => by
      have := strip_eq_empty_iff.1 hempty x (by rw [String.toList_ofList]; exact List.mem_cons_self)
      rw [hspace] at this
      cases this
    have hhead' : (x :: pre).head? ≠ some '[' := fun h => hopen (Option.some.inj h)
    refine ⟨strip (String.ofList (x :: pre)), ?_, ?_⟩
    · rw [embed_eq hprompt hsolid, hsplit, List.append_assoc, List.append_assoc,
        extract_between hhead' hfirst, if_neg hblank]
    · have hle := length_stripChars_le (x :: pre)
      rw [← String.length_toList, ← String.length_toList, hsplit, strip, String.toList_ofList,
        String.toList_ofList, List.length_append, List.length_append, hend]
      simp only [List.length_cons] at hle ⊢
      omega

/-- **The instruction has changed when the text is another one**, but with the end marker in the
text it has changed as soon as it is generated by. -/
theorem instruction_changed (hprompt : prompt ≠ "") :
    (¬ MARKER_END.toList <:+: (t.resolveInstruction n).toList →
      (instructionChanged (embedEffectiveInstructionSnapshot (some prompt)
        (some (t.resolveInstruction n))) (t'.resolveInstruction n') = true ↔
          t'.resolveInstruction n' ≠ t.resolveInstruction n)) ∧
    (MARKER_END.toList <:+: (t.resolveInstruction n).toList →
      instructionChanged (embedEffectiveInstructionSnapshot (some prompt)
        (some (t.resolveInstruction n))) (t.resolveInstruction n) = true) := by
  refine ⟨fun hmarker => ?_, fun hmarker => ?_⟩
  · rw [instructionChanged, extract_embed hprompt hmarker, decide_eq_true_iff, ne_comm]
  · obtain ⟨s, hs, hlt⟩ := extract_embed_short hprompt hmarker
    rw [instructionChanged, hs]
    exact decide_eq_true fun heq => hlt.ne (congrArg String.length heq)

/-- The section of a topic gets another default instruction. -/
theorem instruction_changed_sample :
    instructionChanged (embedEffectiveInstructionSnapshot (some "SYSTEM")
      (some (sampleTable.resolveInstruction sampleTopic)))
      (sampleTable.resolveInstruction { sampleTopic with nodeAdditiveInstruction := some "More" }) =
        true := by
  have hmarker : ¬ MARKER_END.toList <:+:
      (sampleTable.resolveInstruction sampleTopic).toList := by
    decide +kernel
  refine ((instruction_changed (by decide)).1 hmarker).2 ?_
  decide +kernel

end StudyAgent.Topics
