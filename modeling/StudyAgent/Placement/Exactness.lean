import StudyAgent.Placement.Phases

/-!
# Is the relocation of math blocks exact?

Relocation should move the math blocks from code blocks to formula blocks, each
once and within its container, and disturb no other code block.  It does where
every container with a math block can be addressed and the planned indices outlive
the removals; a math block before another code block takes that block along.

Main results:

* `mathRelocated_place` — **one container is relocated exactly** when its indices
  hold.
* `relocatable_of_exact` — the condition is necessary where every math block gets a
  pass.
* `mathRelocation_exact` — **when the relocation of a section is exact.**
-/

namespace StudyAgent.Placement

open Py StaleIndex

/-! ## Exactness -/

section

variable (P : Patterns) (domain : String) (s : Section)

/-- What an exact relocation makes of a container: `c` is how it was, `e` how
equations found in the prose leave it.  The other code blocks come first, in
their order, and only blocks made from formula blocks behind them; the math
blocks, each once, join the formula blocks that stay. -/
def MathRelocated (c e c' : Container) : Prop :=
  ∃ kept fromFormula : List Body,
    (kept ++ fromFormula).Perm e.formulaBodies ∧
    c'.codeBodies =
      (c.code.filter fun b => !isMathBlock b).map codeBody ++ fromFormula.map toCodeBody ∧
    c'.formulaBodies.Perm
      (kept ++ (c.code.filter isMathBlock).map fun b => toFormulaBody (codeBody b))

/-- The relocation is exact in every container of the section. -/
def MathRelocationExact : Prop :=
  ∀ (i : ℕ) (key : Option String) (c : Container), (places s)[i]? = some (key, c) →
    ∃ e c', (places (afterEquations P domain s))[i]? = some (key, e) ∧
      (places (relocatedSection P domain s))[i]? = some (key, c') ∧ MathRelocated c e c'

/-! ## The condition -/

/-- The math blocks of a container are last and get enough passes, or there is one
of them and one pass. -/
def MathIndicesHold (key : Option String) (c : Container) : Prop :=
  (AtEnd isMathBlock c.code ∧ (c.code.filter isMathBlock).length < 2 ^ mathPasses P s key) ∨
    ((c.code.filter isMathBlock).length = 1 ∧ mathPasses P s key = 1)

/-- The formula blocks planned to be moved the other way are so far from the end
that no math block comes within their indices. -/
def CodeIndicesHold (key : Option String) (c : Container) : Prop :=
  ∀ i ∈ plannedIndices (isCodeBlockInFormula P) key (indexedFormulaBlocks s),
    i + codePasses P s key *
      (plannedIndices (isCodeBlockInFormula P) key (indexedFormulaBlocks s)).length ≤
        c.formulas.length

/-- A section whose math blocks can be relocated: every container that holds one
can be addressed, which takes an id of the section and a key that no earlier
container has, and the planned indices still mean the right blocks when they are
used. -/
def Relocatable : Prop :=
  ∀ (i : ℕ) (key : Option String) (c : Container), (places s)[i]? = some (key, c) →
    c.code.filter isMathBlock ≠ [] →
      placementSectionId s ≠ none ∧ key ∉ ((places s).take i).map Prod.fst ∧
        MathIndicesHold P s key c ∧ CodeIndicesHold P s key c

end

section

variable {P : Patterns} {s : Section}

/-! ## The condition is enough -/

/-- The code checks leave the other code blocks and remove the math blocks. -/
theorem codeOut_exact {l m : List (Option String × Container)} {key : Option String}
    {c : Container} (hplaces : places s = l ++ (key, c) :: m) (hfirst : key ∉ l.map Prod.fst)
    (hlater : ∀ q ∈ m, q.1 = key → q.2.code.filter isMathBlock = [])
    (h : MathIndicesHold P s key c) :
    ∃ popped : List CodeBlock, codeOut P s key c =
        ((c.code.filter fun b => !isMathBlock b).map codeBody, popped.map codeBody) ∧
      popped.Perm (c.code.filter isMathBlock) := by
  obtain ⟨popped, hpop, hperm⟩ := popAll_indicesOf h
  refine ⟨popped, ?_, hperm⟩
  have hindices : plannedIndices isMathBlock key (indexedCodeBlocks s) =
      indicesOf isMathBlock 0 c.code := by
    rw [indexedCodeBlocks_eq, hplaces]
    exact plannedIndices_of_first hfirst hlater
  have hmap := popAll_map codeBody (List.replicate (mathPasses P s key)
    (indicesOf isMathBlock 0 c.code)).flatten c.code []
  rw [hpop] at hmap
  unfold codeOut
  rw [hindices, ← hmap]
  rfl

/-- The formula checks move formula blocks only, when no math block has moved
behind these or the indices stay in range before it. -/
theorem formulaOut_exact {key : Option String} {c : Container} {extracted moved : List Body}
    (h : moved = [] ∨ CodeIndicesHold P s key c) :
    ∃ kept fromFormula, (kept ++ fromFormula).Perm (c.formulaBodies ++ extracted) ∧
      formulaOut P s key (c.formulaBodies ++ extracted ++ moved) =
        (kept ++ moved, fromFormula) := by
  have hpop : formulaOut P s key (c.formulaBodies ++ extracted ++ moved) =
      ((formulaOut P s key (c.formulaBodies ++ extracted)).1 ++ moved,
        (formulaOut P s key (c.formulaBodies ++ extracted)).2) := by
    rcases h with rfl | hrange
    · simp
    · refine popAll_append_left (fun i hi => ?_) moved []
      obtain ⟨is, his, hmem⟩ := List.mem_flatten.1 hi
      rw [(List.mem_replicate.1 his).2] at hmem
      have hle := hrange i hmem
      simp only [List.length_flatten, List.map_replicate, List.sum_replicate_nat,
        List.length_append, Container.formulaBodies, List.length_map]
      omega
  have hperm := popAll_perm (List.replicate (codePasses P s key) (plannedIndices
    (isCodeBlockInFormula P) key (indexedFormulaBlocks s))).flatten
      (c.formulaBodies ++ extracted) []
  rw [List.append_nil] at hperm
  exact ⟨_, _, hperm, hpop⟩

/-- **A container that can be addressed is relocated exactly** when the indices
planned for it hold. -/
theorem mathRelocated_place {domain sid : String} {l m : List (Option String × Container)}
    {key : Option String} {c : Container} (hid : placementSectionId s = some sid)
    (hplaces : places s = l ++ (key, c) :: m) (hfirst : key ∉ l.map Prod.fst)
    (hlater : ∀ q ∈ m, q.1 = key → q.2.code.filter isMathBlock = [])
    (hmath : MathIndicesHold P s key c)
    (hcode : c.code.filter isMathBlock = [] ∨ CodeIndicesHold P s key c) :
    ∃ e c', (places (afterEquations P domain s))[l.length]? = some (key, e) ∧
      (places (relocatedSection P domain s))[l.length]? = some (key, c') ∧
      MathRelocated c e c' := by
  obtain ⟨e, c', he, hc', ⟨extracted, hextracted⟩, hcodes, hformulas⟩ :=
    @relocated_place P s domain sid l m key c hid hplaces hfirst
  obtain ⟨popped, hout, hperm⟩ := codeOut_exact hplaces hfirst hlater hmath
  have hmoved : (popped.map codeBody).map toFormulaBody = [] ∨ CodeIndicesHold P s key c := by
    refine hcode.imp_left fun hnone => ?_
    rw [hnone] at hperm
    rw [hperm.eq_nil]
    rfl
  obtain ⟨kept, fromFormula, hkept, hback⟩ := @formulaOut_exact P s key c extracted _ hmoved
  rw [hout] at hcodes hformulas
  rw [hextracted, hback] at hcodes hformulas
  refine ⟨e, c', he, hc', kept, fromFormula, ?_, hcodes, ?_⟩
  · rw [hextracted]
    exact hkept
  · rw [hformulas, List.map_map]
    exact (hperm.map _).append_left kept

/-- A container that relocations cannot reach stays as it is, which is right when
it holds no math block. -/
theorem mathRelocated_self {c : Container} (h : c.code.filter isMathBlock = []) :
    MathRelocated c c c := by
  refine ⟨c.formulaBodies, [], by simp, ?_, ?_⟩
  · rw [filter_not_self fun b hb => by simpa using List.filter_eq_nil_iff.1 h b hb]
    simp [Container.codeBodies]
  · rw [h]
    simp

theorem mathRelocationExact_of_relocatable (domain : String) (h : Relocatable P s) :
    MathRelocationExact P domain s := by
  intro i key c hplace
  cases hid : placementSectionId s with
  | none =>
    have hnone : c.code.filter isMathBlock = [] := by
      by_contra hne
      exact (h i key c hplace hne).1 hid
    refine ⟨c, c, ?_, ?_, mathRelocated_self hnone⟩
    · unfold afterEquations
      rw [afterChecks_of_no_id hid fun d hd => isOwn_equationChecks hd]
      exact hplace
    · unfold relocatedSection
      rw [afterChecks_of_no_id hid fun d hd => isOwn_sectionPlacementChecks hd]
      exact hplace
  | some sid =>
    obtain ⟨hsplit, hlen⟩ := places_split hplace
    by_cases hmem : key ∈ ((places s).take i).map Prod.fst
    · have hnone : c.code.filter isMathBlock = [] := by
        by_contra hne
        exact (h i key c hplace hne).2.1 hmem
      have hstays : ∀ checks : List Check, (∀ d ∈ checks, IsOwn s d) →
          (places (afterChecks P s checks))[i]? = some (key, c) := by
        intro checks hown
        have hres := hidden_place (P := P) hid hown hsplit hmem
        rwa [hlen] at hres
      exact ⟨c, c, hstays _ fun d hd => isOwn_equationChecks hd,
        hstays _ fun d hd => isOwn_sectionPlacementChecks hd, mathRelocated_self hnone⟩
    · have hlater : ∀ q ∈ (places s).drop (i + 1), q.1 = key →
          q.2.code.filter isMathBlock = [] := by
        intro q hq hkey
        obtain ⟨j, hj, hhidden⟩ := mem_keys_of_later hplace hq
        by_contra hne
        exact (h j q.1 q.2 hj hne).2.1 (hkey ▸ hhidden)
      have hres : ∃ e c', (places (afterEquations P domain s))[((places s).take i).length]? =
          some (key, e) ∧ (places (relocatedSection P domain s))[((places s).take i).length]? =
            some (key, c') ∧ MathRelocated c e c' := by
        by_cases hnone : c.code.filter isMathBlock = []
        · refine mathRelocated_place hid hsplit hmem hlater (Or.inl ⟨?_, ?_⟩) (Or.inl hnone)
          · show c.code = _ ++ _
            rw [hnone, List.append_nil, filter_not_self fun b hb => by
              simpa using List.filter_eq_nil_iff.1 hnone b hb]
          · rw [hnone]
            exact Nat.two_pow_pos _
        · obtain ⟨-, -, hmath, hcode⟩ := h i key c hplace hnone
          exact mathRelocated_place hid hsplit hmem hlater hmath (Or.inr hcode)
      rwa [hlen] at hres

/-! ## The condition is necessary -/

/-- Whether a body is that of a math block. -/
def isMathBody (b : Body) : Bool :=
  strip (b.2.getD "") ≠ "" && isMathLikeLanguage (strip (b.1.getD ""))

@[simp] theorem isMathBody_codeBody (b : CodeBlock) : isMathBody (codeBody b) = isMathBlock b := rfl

/-- A block made from a formula block is in a programming language. -/
@[simp] theorem isMathBody_toCodeBody (b : Body) : isMathBody (toCodeBody b) = false := by
  have hpython : isMathLikeLanguage (strip ((toCodeBody b).1.getD "")) = false := by
    show isMathLikeLanguage (strip "python") = false
    decide
  unfold isMathBody
  rw [hpython, Bool.and_false]

theorem isMathBody_of_exact {c : Container} {fromFormula : List Body} {b : Body}
    (h : b ∈ (c.code.filter fun b => !isMathBlock b).map codeBody ++ fromFormula.map toCodeBody) :
    isMathBody b = false := by
  rcases List.mem_append.1 h with h | h
  · obtain ⟨x, hx, rfl⟩ := List.mem_map.1 h
    simpa using (List.mem_filter.1 hx).2
  · obtain ⟨x, -, rfl⟩ := List.mem_map.1 h
    exact isMathBody_toCodeBody x

/-- A container that stays as it is has no math block, if that is exact. -/
theorem noMath_of_untouched {c e : Container} (h : MathRelocated c e c) :
    c.code.filter isMathBlock = [] := by
  obtain ⟨kept, fromFormula, -, hcode, -⟩ := h
  refine List.filter_eq_nil_iff.2 fun b hb => ?_
  have hmem : codeBody b ∈ c.codeBodies := List.mem_map_of_mem hb
  rw [hcode] at hmem
  have hbody := isMathBody_of_exact hmem
  rw [isMathBody_codeBody] at hbody
  rw [hbody]
  decide

/-- When every math block gets a pass, the indices hold if the other code blocks
are all that is left. -/
theorem mathIndicesHold_of_left {key : Option String} {c : Container} {fromFormula : List Body}
    (hpasses : (c.code.filter isMathBlock).length ≤ mathPasses P s key)
    (h : (popAll (List.replicate (mathPasses P s key) (indicesOf isMathBlock 0 c.code)).flatten
        (c.codeBodies, [])).1 =
      (c.code.filter fun b => !isMathBlock b).map codeBody ++ fromFormula.map toCodeBody) :
    MathIndicesHold P s key c := by
  have hfilter : c.codeBodies.filter isMathBody = (c.code.filter isMathBlock).map codeBody := by
    have hmath : isMathBody ∘ codeBody = isMathBlock := by
      funext b
      rw [Function.comp_apply, isMathBody_codeBody]
    rw [← hmath]
    exact List.filter_map
  have hfilter' : c.codeBodies.filter (fun b => !isMathBody b) =
      (c.code.filter fun b => !isMathBlock b).map codeBody := by
    have hother : (fun b => !isMathBody b) ∘ codeBody = fun b => !isMathBlock b := by
      funext b
      rw [Function.comp_apply, isMathBody_codeBody]
    rw [← hother]
    exact List.filter_map
  -- all math blocks are among the removed ones
  have hremoved : (c.code.filter isMathBlock).length ≤
      (popAll (List.replicate (mathPasses P s key) (indicesOf isMathBlock 0 c.code)).flatten
        (c.codeBodies, [])).2.length := by
    have hperm := (popAll_perm (List.replicate (mathPasses P s key)
      (indicesOf isMathBlock 0 c.code)).flatten c.codeBodies []).filter isMathBody
    rw [List.append_nil, List.filter_append, h, List.filter_eq_nil_iff.2 fun b hb => by
      rw [isMathBody_of_exact hb]; decide, List.nil_append, hfilter] at hperm
    have hlen := hperm.length_eq
    rw [List.length_map] at hlen
    rw [← hlen]
    exact List.length_filter_le _ _
  have hnil : fromFormula = [] := by
    have hlen := (popAll_perm (List.replicate (mathPasses P s key)
      (indicesOf isMathBlock 0 c.code)).flatten c.codeBodies []).length_eq
    have hcount := length_filter_not isMathBlock c.code
    rw [List.length_append, h] at hlen
    simp only [List.length_append, List.length_map, Container.codeBodies, List.length_nil] at *
    refine List.length_eq_zero_iff.1 ?_
    omega
  rw [hnil, List.map_nil, List.append_nil, ← hfilter'] at h
  have hindices : indicesOf isMathBlock 0 c.code = indicesOf isMathBody 0 c.codeBodies := by
    have hmap := indicesOf_map codeBody isMathBody 0 c.code
    simp only [isMathBody_codeBody] at hmap
    exact hmap.symm
  have hlength : (c.codeBodies.filter isMathBody).length = (c.code.filter isMathBlock).length := by
    rw [hfilter, List.length_map]
  rw [hindices] at h
  rcases (popAll_indicesOf_iff (hlength.trans_le hpasses)).1 h with hend | hone
  · have hend' : AtEnd (fun b => isMathBody (codeBody b)) c.code := AtEnd.of_map hend
    simp only [isMathBody_codeBody] at hend'
    exact Or.inl ⟨hend', lt_of_le_of_lt hpasses Nat.lt_two_pow_self⟩
  · exact Or.inr (hlength ▸ hone)

/-- Every math block gets a pass over its container, and no formula block holds
programming code. -/
def Readable (P : Patterns) (s : Section) : Prop :=
  ∀ (i : ℕ) (key : Option String) (c : Container), (places s)[i]? = some (key, c) →
    (c.code.filter isMathBlock).length ≤ mathPasses P s key ∧
      c.formulas.filter (isCodeBlockInFormula P) = []

theorem plannedIndices_formulas (h : Readable P s) (key : Option String) :
    plannedIndices (isCodeBlockInFormula P) key (indexedFormulaBlocks s) = [] := by
  unfold plannedIndices
  rw [List.map_eq_nil_iff, List.filter_eq_nil_iff]
  intro p hp
  rw [indexedFormulaBlocks_eq] at hp
  obtain ⟨q, hq, hp⟩ := List.mem_flatMap.1 hp
  obtain ⟨b, hb, rfl⟩ := List.mem_map.1 hp
  obtain ⟨i, hi⟩ := List.mem_iff_getElem?.1 hq
  have hnone := List.filter_eq_nil_iff.1 (h i q.1 q.2 hi).2 b.1 (List.fst_mem_of_mem_zipIdx hb)
  simp [hnone]

/-- Where no relocation reaches, exactness leaves no math block. -/
theorem noMath_of_unreached {domain : String} {i : ℕ} {key : Option String} {c : Container}
    (h : MathRelocationExact P domain s) (hplace : (places s)[i]? = some (key, c))
    (hunreached : placementSectionId s = none ∨ key ∈ ((places s).take i).map Prod.fst) :
    c.code.filter isMathBlock = [] := by
  obtain ⟨e, c', -, hc', hexact⟩ := h i key c hplace
  have hstays : (places (relocatedSection P domain s))[i]? = some (key, c) := by
    unfold relocatedSection
    cases hid : placementSectionId s with
    | none =>
      rw [afterChecks_of_no_id hid fun d hd => isOwn_sectionPlacementChecks hd]
      exact hplace
    | some sid =>
      have hmem := hunreached.resolve_left (by rw [hid]; simp)
      obtain ⟨hsplit, hlen⟩ := places_split hplace
      have hres := @hidden_place P s (sectionPlacementChecks P domain s) sid _ _ key c hid
        (fun d hd => isOwn_sectionPlacementChecks hd) hsplit hmem
      rwa [hlen] at hres
  rw [hstays] at hc'
  obtain ⟨-, rfl⟩ := Prod.mk.inj (Option.some.inj hc')
  exact noMath_of_untouched hexact

theorem relocatable_of_exact {domain : String} (hread : Readable P s)
    (h : MathRelocationExact P domain s) : Relocatable P s := by
  intro i key c hplace hne
  have hid : placementSectionId s ≠ none := fun hid =>
    hne (noMath_of_unreached h hplace (Or.inl hid))
  have hfirst : key ∉ ((places s).take i).map Prod.fst := fun hmem =>
    hne (noMath_of_unreached h hplace (Or.inr hmem))
  obtain ⟨sid, hsid⟩ := Option.ne_none_iff_exists'.1 hid
  obtain ⟨hsplit, hlen⟩ := places_split hplace
  refine ⟨hid, hfirst, ?_, ?_⟩
  · obtain ⟨e, c', -, hc', kept, fromFormula, -, hcode, -⟩ := h i key c hplace
    obtain ⟨e₂, c₂, -, hc₂, -, hcodes, -⟩ :=
      @relocated_place P s domain sid _ _ key c hsid hsplit hfirst
    rw [hlen, hc'] at hc₂
    obtain ⟨-, rfl⟩ := Prod.mk.inj (Option.some.inj hc₂)
    have hindices : plannedIndices isMathBlock key (indexedCodeBlocks s) =
        indicesOf isMathBlock 0 c.code := by
      rw [indexedCodeBlocks_eq, hsplit]
      refine plannedIndices_of_first hfirst fun q hq hkey => ?_
      obtain ⟨j, hj, hhidden⟩ := mem_keys_of_later hplace hq
      exact noMath_of_unreached h hj (Or.inr (hkey ▸ hhidden))
    rw [hcode] at hcodes
    unfold formulaOut codeOut at hcodes
    rw [plannedIndices_formulas hread, hindices] at hcodes
    refine @mathIndicesHold_of_left P s key c fromFormula (hread i key c hplace).1 ?_
    rw [hcodes]
    simp
  · unfold CodeIndicesHold
    rw [plannedIndices_formulas hread]
    simp

end

/-- **The relocation of math blocks is exact on every relocatable section**, and on
no other one in which every math block gets a pass over its container and no
formula block holds programming code. -/
theorem mathRelocation_exact (P : Patterns) (domain : String) (s : Section) :
    (Relocatable P s → MathRelocationExact P domain s) ∧
      (Readable P s → MathRelocationExact P domain s → Relocatable P s) :=
  ⟨mathRelocationExact_of_relocatable domain, relocatable_of_exact⟩

/-- Recognisers for sections without prose and formulas whose texts need no escapes. -/
def plainPatterns : Patterns where
  findEquationSpans _ := []
  derivativeSpans _ := []
  isNarrativeEquationClause _ := false
  extractEquationCore _ := none
  normalizeMath text := text
  looksLikeProgrammingCode _ := false
  looksLikePseudocode _ := false
  checklistRequiresFormulaWork _ _ := false
  repr text := "'" ++ text ++ "'"
  literalEval text := some (String.ofList text.toList.tail.dropLast)

/-- A section of code blocks only. -/
def codeSection (blocks : List CodeBlock) : Section where
  id := some (.str "s1")
  heading := some "Energy"
  codeBlocks := some blocks

def latexBlock (code : String) : CodeBlock where
  language := some "latex"
  code := some code
  explanation := some "Restates the law."

def scriptBlock : CodeBlock where
  language := some "python"
  code := some "print(m)"
  explanation := some "Prints the mass."

theorem place_codeSection {blocks : List CodeBlock} {i : ℕ} {key : Option String} {c : Container}
    (h : (places (codeSection blocks))[i]? = some (key, c)) :
    i = 0 ∧ key = none ∧ c = { codeBlocks := some blocks } := by
  have hplaces : places (codeSection blocks) = [(none, { codeBlocks := some blocks })] := rfl
  rw [hplaces] at h
  obtain ⟨hlt, hget⟩ := List.getElem?_eq_some_iff.1 h
  have hi : i = 0 := by
    rw [List.length_singleton] at hlt
    omega
  subst hi
  obtain ⟨hkey, hc⟩ := Prod.mk.inj hget
  exact ⟨rfl, hkey.symm, hc.symm⟩

/-- Two math blocks behind a script are moved, and the script stays. -/
theorem mathBlocks_behind_script :
    MathRelocationExact plainPatterns "STEM"
      (codeSection [scriptBlock, latexBlock "E=m", latexBlock "m=E"]) := by
  apply (mathRelocation_exact plainPatterns "STEM" _).1
  intro i key c hplace _
  obtain ⟨rfl, rfl, rfl⟩ := place_codeSection hplace
  refine ⟨by decide, by decide, Or.inl ⟨by decide, by decide⟩, ?_⟩
  have hnone : plannedIndices (isCodeBlockInFormula plainPatterns) none (indexedFormulaBlocks
      (codeSection [scriptBlock, latexBlock "E=m", latexBlock "m=E"])) = [] := by decide
  unfold CodeIndicesHold
  rw [hnone]
  simp

/-- Two math blocks before a script take the script along. -/
theorem script_taken_along :
    ¬ MathRelocationExact plainPatterns "STEM"
      (codeSection [latexBlock "E=m", latexBlock "m=E", scriptBlock]) := by
  intro h
  obtain ⟨e, c', -, hc', kept, fromFormula, -, hcode, -⟩ := h 0 none _ rfl
  have hempty : ((places (relocatedSection plainPatterns "STEM" (codeSection
      [latexBlock "E=m", latexBlock "m=E", scriptBlock])))[0]?).map (fun p => p.2.codeBodies) =
        some [] := by decide
  rw [hc'] at hempty
  have hnone : c'.codeBodies = [] := Option.some.inj hempty
  have hscript : (sectionContainer (codeSection
      [latexBlock "E=m", latexBlock "m=E", scriptBlock])).code.filter (fun b => !isMathBlock b) =
        [scriptBlock] := by decide
  rw [hnone, hscript] at hcode
  exact absurd hcode (by simp)

end StudyAgent.Placement
