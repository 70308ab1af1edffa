import Mathlib.Data.Fintype.Basic
import StudyAgent.Reference.CacheLaws

/-!
# Reading a parsed reference again

Material is regenerated from what was stored for the reference and the node.  A run that finds a
row of its own stores nothing, and one that finds or extracts anything else writes the row; while
it works nobody else works on its node.

Main results:

* `Settled.step` — what a run relies on while others work on other nodes.
* `Rests.step` — what a run has used stays what is loaded, until somebody enters its node.
* `reads_back` — **what is loaded for a reference and a node is what the run used**, but for numbers
  of figures that the cache puts in and for titles.
-/

namespace StudyAgent.Reference

open Runs KeyedRows

variable {B H S : Type}

/-! ## What is stored -/

/-- What a run used is what is loaded for its reference and node. -/
def Rereads (t : Tables H) (key : Key) (e : LlamaParseExtractionResult H) : Prop :=
  ∃ data, loadPersistedReference t key = some (formatParsedReference e.structuredData, data) ∧
    data.settled = (buildParsedReferenceDataFromExtraction e).settled

/-- The row of a key and its figures, as both are loaded. -/
def SameAt (t t' : Tables H) (key : Key) : Prop :=
  t'.getByReferenceAndNode key = t.getByReferenceAndNode key ∧
    ∀ row ∈ t.getByReferenceAndNode key,
      t'.listImagesForPdf row.llamaparsePdfId = t.listImagesForPdf row.llamaparsePdfId

theorem Rereads.congr {t t' : Tables H} {key : Key} {e : LlamaParseExtractionResult H}
    (h : Rereads t key e) (hsame : SameAt t t' key) : Rereads t' key e := by
  obtain ⟨data, hload, hdata⟩ := h
  refine ⟨data, ?_, hdata⟩
  rw [← hload, loadPersistedReference, loadPersistedReference, hsame.1]
  refine Option.map_congr fun row hrow => ?_
  rw [hsame.2 row hrow]

/-- An upsert leaves the rows of other keys as they are. -/
theorem sameAt_of_upserted {t t' : Tables H} {key other : Key} {p : Payload H} (ht : TablesOk t)
    (h : Upserted t t' key p) (hne : other ≠ key) : SameAt t t' other := by
  refine ⟨Option.ext fun row => ?_, fun row hrow => ?_⟩
  · rw [getBy_eq_some h.ok, getBy_eq_some ht]
    constructor
    · rintro ⟨hrow, rfl⟩
      exact ⟨(h.old row hrow hne).1, rfl⟩
    · rintro ⟨hrow, rfl⟩
      exact ⟨h.stays row hrow hne, rfl⟩
  · obtain ⟨hmem, rfl⟩ := (getBy_eq_some ht).1 hrow
    exact (h.old row (h.stays row hmem hne) hne).2

/-- What was stored is loaded. -/
theorem rereads_of_upserted {t t' : Tables H} {key : Key} {e : LlamaParseExtractionResult H}
    {spaceId parsedBy : ℕ} (h : Upserted t t' key (persistPayload e spaceId parsedBy)) :
    Rereads t' key e := by
  obtain ⟨row, hrow, hkey, hholds⟩ := h.row
  refine ⟨buildParsedReferenceData row.structuredJson (t'.listImagesForPdf row.llamaparsePdfId),
    ?_, ?_⟩
  · rw [loadPersistedReference, (getBy_eq_some h.ok).2 ⟨hrow, hkey⟩, Option.map_some, hholds.text]
    rfl
  · rw [ParsedReferenceData.settled, ParsedReferenceData.settled, buildParsedReferenceData,
      buildParsedReferenceDataFromExtraction, hholds.json, hholds.images]
    dsimp only
    rw [settle_storedImages_imageRows, persistPayload, List.map_map]
    exact congrArg _ (congrArg _ (congrArg _ (List.map_id _)))

/-- What a row of its own gives a run is what is stored in it. -/
theorem rereads_of_row {t : Tables H} {key : Key} {row : ReferenceLlamaParsePdf H}
    (hget : t.getByReferenceAndNode key = some row)
    (htext : row.formattedText = formatParsedReference row.structuredJson) (hash : H)
    (skipPersist : Bool) :
    Rereads t key (buildExtractionFromCachedRow row (t.listImagesForPdf row.llamaparsePdfId) hash
      row.structuredJson skipPersist) := by
  refine ⟨buildParsedReferenceData row.structuredJson (t.listImagesForPdf row.llamaparsePdfId),
    ?_, ?_⟩
  · rw [loadPersistedReference, hget, Option.map_some, htext]
    rfl
  · rw [ParsedReferenceData.settled, ParsedReferenceData.settled, buildParsedReferenceData,
      buildParsedReferenceDataFromExtraction, buildExtractionFromCachedRow]
    dsimp only
    rw [referenceImages_imagesToParseRecords, settle_settle]

/-! ## Runs on different nodes -/

section

variable {sha : B → H} {file : ℕ → B} {sys sys' : System B H S}

/-- What a run relies on: its own row, once it has read it, and what it has stored. -/
def Relies (t : Tables H) : Phase H → Prop
  | .idle | .missed _ | .found _ _ | .extracting _ => True
  | .current key row => t.getByReferenceAndNode key = some row
  | .holding key e => e.skipPersist = true → Rereads t key e
  | .used key e => Rereads t key e

/-- Nobody else works on the node that a run enters: the run holds the lock of the node. -/
def Exclusive (sys : System B H S) : Event B S → Prop
  | .enter s key => ∀ t ≠ s, ∀ other ∈ (sys.phase t).key?, other.nodeId ≠ key.nodeId
  | _ => True

/-- No two runs work on one node. -/
def Apart (phase : S → Phase H) : Prop :=
  ∀ s t, s ≠ t → ∀ key ∈ (phase s).key?, ∀ other ∈ (phase t).key?, other.nodeId ≠ key.nodeId

/-- No two runs work on one node, and each finds what it relies on. -/
structure Settled (sha : B → H) (file : ℕ → B) (sys : System B H S) : Prop where
  good : Good sha file sys
  apart : Apart sys.phase
  relies : ∀ s, Relies sys.tables (sys.phase s)

theorem Relies.congr {t t' : Tables H} {phase : Phase H} (h : Relies t phase)
    (hsame : ∀ key ∈ phase.key?, SameAt t t' key) : Relies t' phase := by
  cases phase with
  | idle => trivial
  | missed key => trivial
  | found key row => trivial
  | extracting key => trivial
  | current key row => exact (hsame key rfl).1.trans h
  | holding key e => exact fun hskip => (h hskip).congr (hsame key rfl)
  | used key e => exact Rereads.congr h (hsame key rfl)

/-- What the use of a row leads to is about the same reference. -/
theorem key?_useRow (hash : Key → H) (key : Key) (row : ReferenceLlamaParsePdf H)
    (stored : String → Bool) (available mayskip : Bool) {otherwise : Phase H}
    (hother : otherwise.key? = some key) :
    (sys.useRow hash key row stored available mayskip otherwise).key? = some key := by
  unfold System.useRow
  dsimp only
  split
  · split <;> rfl
  · exact hother

/-- A run that skips the storing has used its own row as it is. -/
theorem relies_useRow (hash : Key → H) {key : Key} {row : ReferenceLlamaParsePdf H}
    {stored : String → Bool} {available mayskip : Bool} {otherwise : Phase H}
    (hget : mayskip = true → sys.tables.getByReferenceAndNode key = some row ∧
      row.formattedText = formatParsedReference row.structuredJson)
    (hother : Relies sys.tables otherwise) :
    Relies sys.tables (sys.useRow hash key row stored available mayskip otherwise) := by
  unfold System.useRow
  dsimp only
  split
  · split
    · rename_i data jsonFetched hresolve
      intro hskip
      obtain ⟨hmay, hstored⟩ : mayskip = true ∧ jsonFetched = false := by
        simpa [buildExtractionFromCachedRow] using hskip
      obtain ⟨hrow, htext⟩ := hget hmay
      subst hstored
      unfold resolveStructuredJson at hresolve
      split_ifs at hresolve with hcomplete
      · cases hresolve
        exact rereads_of_row hrow htext _ _
      · obtain ⟨_, -, heq⟩ := Option.map_eq_some_iff.1 hresolve
        cases heq
    · trivial
  · exact hother

variable [DecidableEq S] {s : S}

/-- A run goes on with its reference, or with one on whose node nobody works. -/
theorem Apart.go {phase : Phase H} (h : Apart sys.phase)
    (hkey : ∀ key ∈ phase.key?, (sys.phase s).key? = some key ∨
      ∀ t ≠ s, ∀ other ∈ (sys.phase t).key?, other.nodeId ≠ key.nodeId) :
    Apart (sys.go s phase).phase := by
  intro t u htu key hkey' other hother
  rw [System.phase_go] at hkey' hother
  split_ifs at hkey' hother with ht hu hu
  · exact absurd (ht.trans hu.symm) htu
  · rcases hkey key hkey' with hown | hfree
    · exact h s u (Ne.symm hu) key hown other hother
    · exact hfree u hu other hother
  · rcases hkey other hother with hown | hfree
    · exact h t s ht key hkey' other hown
    · exact (hfree t ht key hkey').symm
  · exact h t u htu key hkey' other hother

theorem Settled.go {phase : Phase H} (h : Settled sha file sys)
    (hgood : Good sha file (sys.go s phase))
    (hkey : ∀ key ∈ phase.key?, (sys.phase s).key? = some key ∨
      ∀ t ≠ s, ∀ other ∈ (sys.phase t).key?, other.nodeId ≠ key.nodeId)
    (hrelies : Relies sys.tables phase) : Settled sha file (sys.go s phase) where
  good := hgood
  apart := h.apart.go hkey
  relies t := by
    rw [System.phase_go]
    split_ifs
    · exact hrelies
    · exact h.relies t

variable [DecidableEq B] [DecidableEq H]

/-- **Every step keeps it.** -/
theorem Settled.step {event : Event B S} (h : Settled sha file sys)
    (hexclusive : Exclusive sys event) (hstep : step sha file sys event = some sys') :
    Settled sha file sys' := by
  have hgood := h.good.step hstep
  obtain ⟨s, hmoved⟩ := moved_of_step hstep
  have hrelies := h.relies s
  -- a run that stays with its reference
  have hown : ∀ {phase : Phase H} {key : Key}, sys.phase s = phase → phase.key? = some key →
      ∀ k ∈ some key, (sys.phase s).key? = some k ∨
        ∀ t ≠ s, ∀ other ∈ (sys.phase t).key?, other.nodeId ≠ k.nodeId := by
    rintro phase key rfl hkey k hk
    exact Or.inl (hkey.trans hk)
  cases hmoved with
  | toCurrent _ hget _ =>
    exact h.go hgood (fun _ hkey => Or.inr (Option.mem_some.1 hkey ▸ hexclusive)) hget
  | toMissed =>
    exact h.go hgood (fun _ hkey => Or.inr (Option.mem_some.1 hkey ▸ hexclusive)) trivial
  | useCurrent hs =>
    rw [hs] at hrelies
    refine h.go hgood ?_ (relies_useRow _ (fun _ => ⟨hrelies, ?_⟩) trivial)
    · rw [key?_useRow _ _ _ _ _ _ rfl]
      exact hown hs rfl
    · exact (h.good.rows _ ((getBy_eq_some h.good.tables).1 hrelies).1).text
  | toFound hs => exact h.go hgood (hown hs rfl) trivial
  | toExtracting hs => exact h.go hgood (hown hs rfl) trivial
  | useFound hs =>
    refine h.go hgood ?_ (relies_useRow _ nofun trivial)
    rw [key?_useRow _ _ _ _ _ _ rfl]
    exact hown hs rfl
  | @extract key jobId job hs hfresh _ =>
    have hcreated : Settled sha file (sys.create jobId job) :=
      ⟨(h.good.create hfresh job).1, h.apart, h.relies⟩
    exact hcreated.go hgood (hown hs rfl) nofun
  | skip hs hskip =>
    rw [hs] at hrelies
    exact h.go hgood (hown hs rfl) (hrelies hskip)
  | nodeGone => exact h.go hgood nofun trivial
  | @put key e spaceId parsedBy pdfId now hs hfresh =>
    have hup := upserted h.good.tables key (persistPayload e spaceId parsedBy) now hfresh
    have hapart : Apart (sys.go s (.used key e)).phase := h.apart.go (hown hs rfl)
    refine ⟨hgood, hapart, fun t => ?_⟩
    rw [System.phase_go]
    split_ifs with ht
    · exact rereads_of_upserted hup
    · -- a run on another node does not see what is written
      refine (h.relies t).congr fun other hother => sameAt_of_upserted h.good.tables hup ?_
      rintro rfl
      exact h.apart s t (Ne.symm ht) other (by rw [hs]; rfl) other hother rfl
  | leave => exact h.go hgood nofun trivial

theorem settled_of_reachable (h : Reachable (Reference.step sha file) Exclusive Fresh sys) :
    Settled sha file sys := by
  refine h.invariant (fun start hfresh => ⟨good_of_fresh hfresh, fun t _ _ key hkey => ?_,
    fun t => ?_⟩) fun _ _ _ hinv hallowed hstep => hinv.step hallowed hstep
  · rw [hfresh.idle t] at hkey
    cases hkey
  · rw [hfresh.idle t]
    trivial

/-! ## After a run -/

/-- Nobody enters a node. -/
def Spares (nodeId : ℕ) : Event B S → Prop
  | .enter _ key => key.nodeId ≠ nodeId
  | _ => True

/-- A run has used its reference, and whoever else works on its node has used it too. -/
structure Rests (sha : B → H) (file : ℕ → B) (key : Key) (e : LlamaParseExtractionResult H)
    (sys : System B H S) : Prop where
  settled : Settled sha file sys
  rereads : Rereads sys.tables key e
  node : ∀ s, ∀ other ∈ (sys.phase s).key?, other.nodeId = key.nodeId →
    ∃ e', sys.phase s = .used other e'

omit [DecidableEq B] [DecidableEq H] in
theorem Rests.go {key : Key} {e : LlamaParseExtractionResult H} {phase : Phase H}
    (h : Rests sha file key e sys) (hsettled : Settled sha file (sys.go s phase))
    (hphase : ∀ other ∈ phase.key?, other.nodeId = key.nodeId → ∃ e', phase = .used other e') :
    Rests sha file key e (sys.go s phase) where
  settled := hsettled
  rereads := h.rereads
  node t other hother hnode := by
    rw [System.phase_go] at hother ⊢
    split_ifs at hother ⊢ with ht
    · exact hphase other hother hnode
    · exact h.node t other hother hnode

/-- **What was used stays what is loaded**, until somebody enters the node. -/
theorem Rests.step {key : Key} {e : LlamaParseExtractionResult H} {event : Event B S}
    (h : Rests sha file key e sys) (hexclusive : Exclusive sys event)
    (hspares : Spares key.nodeId event) (hstep : Reference.step sha file sys event = some sys') :
    Rests sha file key e sys' := by
  have hsettled := h.settled.step hexclusive hstep
  obtain ⟨s, hmoved⟩ := moved_of_step hstep
  -- a run that has not used its reference yet works on another node
  have hother : ∀ {phase : Phase H} {k : Key}, sys.phase s = phase → phase.key? = some k →
      (∀ e', phase ≠ .used k e') → k.nodeId ≠ key.nodeId := by
    rintro phase k rfl hk hunused hnode
    obtain ⟨e', he'⟩ := h.node s k hk hnode
    exact hunused e' he'
  have hgo : ∀ {phase : Phase H} {k : Key}, Settled sha file (sys.go s phase) →
      phase.key? = some k → k.nodeId ≠ key.nodeId → Rests sha file key e (sys.go s phase) := by
    intro phase k hsettled hk hne
    refine h.go hsettled fun other hmem hnode => absurd hnode ?_
    rw [hk] at hmem
    cases hmem
    exact hne
  cases hmoved with
  | toCurrent => exact hgo hsettled rfl hspares
  | toMissed => exact hgo hsettled rfl hspares
  | useCurrent hs =>
    exact hgo hsettled (key?_useRow _ _ _ _ _ _ rfl) (hother hs rfl nofun)
  | toFound hs => exact hgo hsettled rfl (hother hs rfl nofun)
  | toExtracting hs => exact hgo hsettled rfl (hother hs rfl nofun)
  | useFound hs =>
    exact hgo hsettled (key?_useRow _ _ _ _ _ _ rfl) (hother hs rfl nofun)
  | @extract k jobId job hs hfresh _ =>
    have hcreated : Rests sha file key e (sys.create jobId job) :=
      ⟨⟨(h.settled.good.create hfresh job).1, h.settled.apart, h.settled.relies⟩, h.rereads, h.node⟩
    refine hcreated.go hsettled fun other hmem hnode => absurd hnode ?_
    cases hmem
    exact hother hs rfl nofun
  | skip hs => exact hgo hsettled rfl (hother hs rfl nofun)
  | nodeGone => exact h.go hsettled nofun
  | @put k e' spaceId parsedBy pdfId now hs hfresh =>
    have hne : k.nodeId ≠ key.nodeId := hother hs rfl nofun
    have hup := upserted h.settled.good.tables k (persistPayload e' spaceId parsedBy) now hfresh
    refine ⟨hsettled, h.rereads.congr (sameAt_of_upserted h.settled.good.tables hup ?_), ?_⟩
    · rintro rfl
      exact hne rfl
    · intro t other hmem hnode
      rw [System.phase_go] at hmem ⊢
      split_ifs at hmem ⊢ with ht
      · exact ⟨e', by cases hmem; rfl⟩
      · exact h.node t other hmem hnode
  | leave => exact h.go hsettled nofun

/-- **What is loaded for a reference and a node is what the run used** that worked on the node,
from when it has used it until another run enters the node, whatever runs on other nodes do. -/
theorem reads_back {start : System B H S}
    (h : Reachable (Reference.step sha file) Exclusive Fresh start) {s : S} {key : Key}
    {e : LlamaParseExtractionResult H} (hused : start.phase s = .used key e)
    (hlater : Reachable (Reference.step sha file)
      (fun sys event => Exclusive sys event ∧ Spares key.nodeId event) (· = start) sys) :
    Rereads sys.tables key e := by
  have hsettled := settled_of_reachable h
  have hrelies := hsettled.relies s
  rw [hused] at hrelies
  have hstart : Rests sha file key e start := by
    refine ⟨hsettled, hrelies, fun t other hother hnode => ?_⟩
    by_cases ht : t = s
    · subst ht
      rw [hused] at hother ⊢
      cases hother
      exact ⟨e, rfl⟩
    · exact absurd hnode (hsettled.apart s t (Ne.symm ht) key (by rw [hused]; rfl) other hother)
  have hrests : Rests sha file key e sys :=
    hlater.invariant (by rintro _ rfl; exact hstart)
      fun _ _ _ hinv hallowed hstep => hinv.step hallowed.1 hallowed.2 hstep
  exact hrests.rereads

instance [Fintype S] (sys : System B H S) (event : Event B S) :
    Decidable (Exclusive sys event) := by
  cases event <;> unfold Exclusive <;> infer_instance

/-- One run extracts the reference 1 for the node 10 while another enters the node 20. -/
def sampleUse : List (Event ℕ Bool) :=
  [.enter false ⟨1, 10⟩, .enter true ⟨1, 20⟩, .lookup false none, .extract false "job" sampleJob,
    .store false (some 5) 7 3 100]

theorem sample_used : ∃ sys e,
    run (fun sys event => if Exclusive sys event then Reference.step id id sys event else none)
      sampleStart sampleUse = some sys ∧ sys.phase false = .used ⟨1, 10⟩ e :=
  ⟨_, _, rfl, rfl⟩

/-- The run leaves; the other one finds what is stored and stores it for its own node. -/
def sampleLater : List (Event ℕ Bool) :=
  [.leave false, .lookup true (some 3), .useFound true (fun _ => true) true,
    .store true (some 5) 7 4 200]

theorem reads_back_sample : ∃ (start sys : System ℕ ℕ Bool) (e : LlamaParseExtractionResult ℕ),
    start.phase false = .used ⟨1, 10⟩ e ∧ run (Reference.step id id) start sampleLater = some sys ∧
      sys.phase false = .idle ∧ Rereads sys.tables ⟨1, 10⟩ e := by
  obtain ⟨start, e, hrun, he⟩ := sample_used
  obtain ⟨sys, hlater, hidle⟩ : ∃ sys, run (Reference.step id id) start sampleLater = some sys ∧
      sys.phase false = .idle := by
    cases hrun
    exact ⟨_, rfl, rfl⟩
  have hall : ∀ event ∈ sampleLater, ∀ sys : System ℕ ℕ Bool,
      Exclusive sys event ∧ Spares 10 event := by
    simp [sampleLater, Exclusive, Spares]
  exact ⟨start, sys, e, he, hlater, hidle, reads_back (reachable_of_checked sampleStart_fresh hrun)
    he (Reachable.run (.init rfl) hall hlater)⟩

end

end StudyAgent.Reference
