import CorpusFeed.DenseRebuild

/-! Histories of re-ingest and re-embed: upserts, work lists, insertions of the
vectors of loaded items and final coverage checks, in any order. -/

namespace CorpusFeed

/-- `loaded` holds the items of every work list handed out so far. -/
structure DenseSystem (V : Type*) where
  store : ProjectionStore V
  loaded : List ChunkEmbeddingInput

/-- `embed` gives the vector of a text under a fingerprint. -/
structure DenseSetup (V : Type*) where
  embed : Text → Text → V
  collate : Text → Text → Bool

inductive DenseAction where
  | upsert (d : CanonicalRecord) (fingerprint : Option Text)
  | load (fingerprint model : Text) (dimension : Int) (limit : Option Nat)
  | insert (fingerprint model : Text) (dimension : Nat) (items : List ChunkEmbeddingInput)
  | finalize (spec : DenseRebuildSpec)

variable {V : Type*}

namespace DenseSystem

def start : DenseSystem V := ⟨ProjectionStore.empty, []⟩

def vectorOf (setup : DenseSetup V) (fingerprint model : Text) (dimension : Nat) (item : ChunkEmbeddingInput) :
    ChunkEmbeddingInsert V :=
  ⟨item.chunkId, fingerprint, setup.embed fingerprint item.embeddingText, model, dimension⟩

def settleFinal (store : ProjectionStore V) :
    Except StoreError (ProjectionStore V × DenseRebuildReport) → ProjectionStore V
  | .ok (store', _) => store'
  | .error _ => store

def step (setup : DenseSetup V) (s : DenseSystem V) : DenseAction → DenseSystem V
  | .upsert d fingerprint => ⟨s.store.settle (s.store.upsert d fingerprint), s.loaded⟩
  | .load fingerprint model dimension limit =>
    ⟨s.store, s.loaded ++ s.store.loadChunkEmbeddingInputs setup.collate fingerprint model dimension limit⟩
  | .insert fingerprint model dimension items =>
    if items.all fun item => item ∈ s.loaded then
      ⟨s.store.settle (s.store.insertChunkEmbeddings setup.collate
        (items.map (vectorOf setup fingerprint model dimension))), s.loaded⟩
    else s
  | .finalize spec => ⟨settleFinal s.store (s.store.finalizeDenseRebuild spec), s.loaded⟩

/-- Every chunk is stamped and has the vector of its text. -/
def FullyEmbedded (setup : DenseSetup V) (store : ProjectionStore V) (spec : DenseRebuildSpec) : Prop :=
  ∀ row ∈ store.chunks, row.embeddingFingerprint = some spec.embeddingFingerprint ∧
    ∃ e ∈ store.chunkEmbeddings, e.chunkId = row.id ∧ e.embeddingFingerprint = spec.embeddingFingerprint ∧
      e.model = spec.model ∧ e.dimension = spec.dimension ∧
      e.embedding = setup.embed spec.embeddingFingerprint (embeddingText row.chunk)

/-- A finalize call that succeeds leaves every chunk embedded, and had no work
list left. -/
def FinalizeSound (setup : DenseSetup V) (s : DenseSystem V) : DenseAction → Prop
  | .finalize spec => ∀ store' report, s.store.finalizeDenseRebuild spec = .ok (store', report) →
    FullyEmbedded setup store' spec ∧ s.store.loadChunkEmbeddingInputs setup.collate spec.embeddingFingerprint
      spec.model spec.dimension none = []
  | _ => True

/-- No upsert brings a fingerprint to an unchanged chunk that lost its own and
still has the vector of another text, no vector is inserted for a text that
changed since it was loaded, and no finalize call meets a chunk without a
fingerprint when no vector is missing. -/
def StepTimely (setup : DenseSetup V) (s : DenseSystem V) : DenseAction → Prop
  | .upsert d fingerprint => ∀ chunk ∈ d.chunks, ∀ row ∈ s.store.chunks, row.id = chunk.chunkId →
    row.embeddingFingerprint = none → row.chunk.body = chunk.body →
    row.chunk.contextualizedBody = chunk.contextualizedBody → fingerprint ≠ none →
    ∀ e ∈ s.store.chunkEmbeddings, e.chunkId = row.id →
      e.embedding = setup.embed e.embeddingFingerprint (embeddingText row.chunk)
  | .load _ _ _ _ => True
  | .insert _ _ _ items => ∀ item ∈ items, ∀ row ∈ s.store.chunks, row.id = item.chunkId →
    embeddingText row.chunk = item.embeddingText
  -- The half of the work list that the coverage query leaves out.
  | .finalize spec => (∃ row ∈ s.store.chunks,
      s.store.uncovered spec.embeddingFingerprint spec.model spec.dimension row = true) ∨
    ∀ row ∈ s.store.chunks, row.embeddingFingerprint ≠ none

/-- A vector belongs to a stored chunk, and it is the vector of the chunk's text
unless the chunk has lost its fingerprint. -/
structure VectorsFresh (setup : DenseSetup V) (store : ProjectionStore V) : Prop where
  owned : ∀ e ∈ store.chunkEmbeddings, ∃ row ∈ store.chunks, row.id = e.chunkId
  fresh : ∀ row ∈ store.chunks, row.embeddingFingerprint ≠ none → ∀ e ∈ store.chunkEmbeddings,
    e.chunkId = row.id → e.embedding = setup.embed e.embeddingFingerprint (embeddingText row.chunk)

open ProjectionStore

variable {setup : DenseSetup V} {store store' : ProjectionStore V}

theorem VectorsFresh.empty : VectorsFresh setup (ProjectionStore.empty : ProjectionStore V) :=
  ⟨by simp [ProjectionStore.empty], by simp [ProjectionStore.empty]⟩

/-- A fingerprint that survives an upsert, or comes with it, is on an unchanged
text. -/
theorem chunkFingerprint_keeps {stored : ChunkRow} {chunk : CanonicalChunk} {fingerprint : Option Text}
    (h : chunkFingerprint (some stored) chunk fingerprint ≠ none) :
    stored.chunk.body = chunk.body ∧ stored.chunk.contextualizedBody = chunk.contextualizedBody ∧
      (fingerprint = none → stored.embeddingFingerprint ≠ none) := by
  unfold chunkFingerprint at h
  dsimp only at h
  split at h
  · exact absurd rfl h
  · next hsame =>
    simp only [not_or, not_not] at hsame
    refine ⟨hsame.1, hsame.2, fun hnone => ?_⟩
    subst hnone
    exact h

theorem embeddingText_congr {c d : CanonicalChunk} (hbody : c.body = d.body)
    (hcontext : c.contextualizedBody = d.contextualizedBody) : embeddingText c = embeddingText d := by
  rw [embeddingText, embeddingText, hbody, hcontext]

theorem VectorsFresh.upsert {d : CanonicalRecord} {fingerprint : Option Text} (hs : VectorsFresh setup store)
    (hclear : StepTimely setup ⟨store, []⟩ (.upsert d fingerprint)) (h : Upserted fingerprint d store store') :
    VectorsFresh setup store' := by
  constructor
  · intro e he
    rw [h.embeddings] at he
    obtain ⟨row, hr, hid⟩ := hs.owned e he
    by_cases hmem : row.id ∈ d.chunks.map CanonicalChunk.chunkId
    · obtain ⟨chunk, hc, hchunk⟩ := List.mem_map.mp hmem
      exact ⟨⟨chunk, chunkFingerprint (store.chunks.find? chunk.chunkId) chunk fingerprint⟩,
        (h.mem_iff _).mpr (Or.inl ⟨hc, rfl⟩), hchunk.trans hid⟩
    · exact ⟨row, (h.mem_iff row).mpr (Or.inr ⟨hr, hmem⟩), hid⟩
  · intro row hr hfp e he hid
    rw [h.embeddings] at he
    rcases (h.mem_iff row).mp hr with ⟨hc, hrow⟩ | ⟨hr, _⟩
    · obtain ⟨stored, hstored, hstoredId⟩ := hs.owned e he
      have hfind : store.chunks.find? row.id = some stored :=
        Table.find?_eq_some.mpr ⟨hstored, hstoredId.trans hid⟩
      rw [hrow, hfind] at hfp
      obtain ⟨hbody, hcontext, hnone⟩ := chunkFingerprint_keeps hfp
      rw [← embeddingText_congr hbody hcontext]
      by_cases hlost : stored.embeddingFingerprint = none
      · exact hclear row.chunk hc stored hstored (hstoredId.trans hid) hlost hbody hcontext
          (fun hcleared => hnone hcleared hlost) e he hstoredId.symm
      · exact hs.fresh stored hstored hlost e he hstoredId.symm
    · exact hs.fresh row hr hfp e he hid

theorem VectorsFresh.insert {fingerprint model : Text} {dimension : Nat} {items : List ChunkEmbeddingInput}
    (hs : VectorsFresh setup store) (hclear : StepTimely setup ⟨store, []⟩ (.insert fingerprint model dimension items))
    (h : store.insertChunkEmbeddings setup.collate (items.map (vectorOf setup fingerprint model dimension)) =
      .ok store') : VectorsFresh setup store' := by
  rcases insertChunkEmbeddings_cases h with ⟨_, rfl⟩ | ⟨hnodup, haccepts, rfl⟩
  · exact hs
  have hkept : ∀ row ∈ store.chunks, ∃ row' ∈ store.chunks.update (fun _ => true)
      (stampStaged (items.map (vectorOf setup fingerprint model dimension))) (stampStaged_id _), row'.id = row.id :=
    fun row hr => ⟨_, Table.mem_update.mpr (Or.inl ⟨row, hr, rfl, rfl⟩), stampStaged_id _ row⟩
  have hunique : ∀ e ∈ (items.map (vectorOf setup fingerprint model dimension)).map embeddingRow,
      ∀ e' ∈ (items.map (vectorOf setup fingerprint model dimension)).map embeddingRow,
      e.chunkId = e'.chunkId → e = e' := by
    intro e he e' he' hid
    obtain ⟨item, hi, rfl⟩ := List.mem_map.mp he
    obtain ⟨item', hi', rfl⟩ := List.mem_map.mp he'
    exact congrArg embeddingRow (List.inj_on_of_nodup_map hnodup hi hi' hid)
  constructor
  · intro e he
    rcases (Table.mem_upsertAll_of_unique hunique).mp he with he | ⟨he, _⟩
    · obtain ⟨item, hi, rfl⟩ := List.mem_map.mp he
      have haccept := haccepts item hi
      unfold acceptsVector at haccept
      split at haccept
      · cases haccept
      · next row hf =>
        obtain ⟨hr, hid⟩ := Table.find?_eq_some.mp hf
        obtain ⟨row', hr', hid'⟩ := hkept row hr
        exact ⟨row', hr', hid'.trans hid⟩
    · obtain ⟨row, hr, hid⟩ := hs.owned e he
      obtain ⟨row', hr', hid'⟩ := hkept row hr
      exact ⟨row', hr', hid'.trans hid⟩
  · intro row' hr' hfp e he hid
    obtain ⟨row, hr, rfl⟩ : ∃ row ∈ store.chunks,
        stampStaged (items.map (vectorOf setup fingerprint model dimension)) row = row' := by
      simpa [Table.mem_update] using hr'
    rw [stampStaged_id] at hid
    rw [stampStaged_chunk]
    rcases (Table.mem_upsertAll_of_unique hunique).mp he with he | ⟨he, hno⟩
    · obtain ⟨insert, hinsert, rfl⟩ := List.mem_map.mp he
      obtain ⟨item, hi, rfl⟩ := List.mem_map.mp hinsert
      have htext := hclear item hi row hr hid.symm
      simp only [embeddingRow, vectorOf, htext]
    · have hunstaged : staged (items.map (vectorOf setup fingerprint model dimension)) row.id = none := by
        refine List.find?_eq_none.mpr fun item hi => ?_
        simp only [decide_eq_true_eq]
        intro hitem
        exact hno (List.mem_map.mpr ⟨embeddingRow item, List.mem_map_of_mem hi, hitem.trans hid.symm⟩)
      rw [stampStaged, hunstaged] at hfp
      exact hs.fresh row hr hfp e he hid

theorem VectorsFresh.finalize {spec : DenseRebuildSpec} {report : DenseRebuildReport}
    (hs : VectorsFresh setup store) (hclear : StepTimely setup ⟨store, []⟩ (.finalize spec))
    (h : store.finalizeDenseRebuild spec = .ok (store', report)) :
    VectorsFresh setup store' ∧ FullyEmbedded setup store' spec ∧
      store.loadChunkEmbeddingInputs setup.collate spec.embeddingFingerprint spec.model spec.dimension none = [] := by
  obtain ⟨hcovered, rfl⟩ := finalizeDenseRebuild_cases h
  have hstamped : ∀ row ∈ store.chunks, row.embeddingFingerprint ≠ none := by
    rcases hclear with ⟨row, hr, hmissing⟩ | hstamped
    · simp [hcovered row hr] at hmissing
    · exact hstamped
  have hrow : ∀ row', row' ∈ store.chunks.update
      (fun row => row.embeddingFingerprint != some spec.embeddingFingerprint)
      (stampFingerprint spec.embeddingFingerprint) (fun _ => rfl) → ∃ row ∈ store.chunks,
        row'.chunk = row.chunk ∧ row'.embeddingFingerprint = some spec.embeddingFingerprint := by
    intro row' hr'
    rcases Table.mem_update.mp hr' with ⟨row, hr, _, rfl⟩ | ⟨hr, hsame⟩
    · exact ⟨row, hr, rfl, rfl⟩
    · exact ⟨row', hr, rfl, by simpa using hsame⟩
  have hkept : ∀ row ∈ store.chunks, ∃ row' ∈ store.chunks.update
      (fun row => row.embeddingFingerprint != some spec.embeddingFingerprint)
      (stampFingerprint spec.embeddingFingerprint) (fun _ => rfl), row'.id = row.id := by
    intro row hr
    by_cases hsame : row.embeddingFingerprint = some spec.embeddingFingerprint
    · exact ⟨row, Table.mem_update.mpr (Or.inr ⟨hr, by simp [hsame]⟩), rfl⟩
    · exact ⟨stampFingerprint spec.embeddingFingerprint row,
        Table.mem_update.mpr (Or.inl ⟨row, hr, by simp [hsame], rfl⟩), rfl⟩
  refine ⟨⟨fun e he => ?_, fun row' hr' _ e he hid => ?_⟩, fun row' hr' => ?_, ?_⟩
  · obtain ⟨row, hr, hid⟩ := hs.owned e he
    obtain ⟨row', hr', hid'⟩ := hkept row hr
    exact ⟨row', hr', hid'.trans hid⟩
  · obtain ⟨row, hr, hchunk, _⟩ := hrow row' hr'
    rw [hchunk]
    exact hs.fresh row hr (hstamped row hr) e he (hid.trans (congrArg CanonicalChunk.chunkId hchunk))
  · obtain ⟨row, hr, hchunk, hfp⟩ := hrow row' hr'
    obtain ⟨e, he, hid, hefp, hmodel, hdimension⟩ := uncovered_eq_false.mp (hcovered row hr)
    have hfresh := hs.fresh row hr (hstamped row hr) e he hid
    refine ⟨hfp, e, he, hid.trans (congrArg CanonicalChunk.chunkId hchunk.symm), hefp, hmodel, hdimension, ?_⟩
    rw [hchunk, hfresh, hefp]
  · refine List.eq_nil_iff_forall_not_mem.mpr fun item hitem => ?_
    obtain ⟨row, hr, hneeds, _⟩ := mem_load_iff.mp hitem
    rw [needsEmbedding, hcovered row hr, Bool.or_false, Option.isNone_iff_eq_none] at hneeds
    exact hstamped row hr hneeds

theorem step_fresh (s : DenseSystem V) (a : DenseAction) (hs : VectorsFresh setup s.store)
    (hclear : StepTimely setup s a) : VectorsFresh setup (step setup s a).store := by
  cases a with
  | upsert d fingerprint =>
    cases h : s.store.upsert d fingerprint with
    | error e => simpa [step, settle, h] using hs
    | ok store' => simpa [step, settle, h] using hs.upsert hclear (upsert_cases h)
  | load fingerprint model dimension limit => exact hs
  | insert fingerprint model dimension items =>
    unfold step
    dsimp only
    split
    · cases h : s.store.insertChunkEmbeddings setup.collate
          (items.map (vectorOf setup fingerprint model dimension)) with
      | error e => simpa [settle, h] using hs
      | ok store' => simpa [settle, h] using hs.insert hclear h
    · exact hs
  | finalize spec =>
    cases h : s.store.finalizeDenseRebuild spec with
    | error e => simpa [step, settleFinal, h] using hs
    | ok result =>
      obtain ⟨store', report⟩ := result
      simpa [step, settleFinal, h] using (hs.finalize hclear h).1

/-- In a history whose steps are timely every finalize call is sound. -/
theorem dense_run_sound (setup : DenseSetup V) (actions : List DenseAction)
    (htimely : RunMeets (step setup) (StepTimely setup) start actions) :
    RunMeets (step setup) (FinalizeSound setup) start actions := by
  refine RunMeets.mono step_fresh (fun s a hs hclear => ?_) VectorsFresh.empty htimely
  cases a with
  | finalize spec => exact fun store' report h => (hs.finalize hclear h).2
  | upsert d fingerprint => trivial
  | load fingerprint model dimension limit => trivial
  | insert fingerprint model dimension items => trivial

/-- A decision of one chunk, whose text is its date and its body. -/
def bodyOnlyDecision (body : Text) : CanonicalRecord :=
  let header : CanonicalDecision :=
    { documentId := "cass:JURITEXT1".toList, source := "cass".toList, sourceFamily := .judicial,
      kind := "decision".toList, sourceUid := "JURITEXT1".toList, citation := none, title := none,
      body := body, decisionDate := "2020-01-01".toList, jurisdiction := none, ecli := none,
      sourceUrl := none, sourcePayloadHash := "sha256:0".toList, chunkingProvenance := "heuristic".toList,
      summaries := [], publisherEdges := [], inferredEdges := [], chunks := [],
      canonicalVersion := juriDecisionCanonicalVersion }
  .decision { header with chunks := buildDecisionChunks header }

def bodyItem (body : Text) : ChunkEmbeddingInput :=
  ⟨"chunk:cass:JURITEXT1:0".toList, "2020-01-01\n\n".toList ++ body⟩

def bgeSpec : DenseRebuildSpec := ⟨"bge-m3:1024:normalize:true".toList, "bge-m3".toList, 1024, true⟩

/-- The vector of a text is the text. -/
def echoSetup : DenseSetup Text := ⟨fun _ text => text, fun _ _ => true⟩

def embedOnce : List DenseAction :=
  [.upsert (bodyOnlyDecision "a".toList) none,
    .load bgeSpec.embeddingFingerprint bgeSpec.model bgeSpec.dimension none,
    .insert bgeSpec.embeddingFingerprint bgeSpec.model 1024 [bodyItem "a".toList]]

theorem embedOnce_timely : RunMeets (step echoSetup) (StepTimely echoSetup) start embedOnce := by
  refine ⟨fun _ _ row hr => absurd hr (Table.not_mem_empty row), trivial, ?_, trivial⟩
  intro item hitem row hr _
  have htexts : (runFrom (step echoSetup) start (embedOnce.take 2)).store.chunks.rows.map
      (fun row => embeddingText row.chunk) = [(bodyItem "a".toList).embeddingText] := by decide
  have htext : embeddingText row.chunk ∈ [(bodyItem "a".toList).embeddingText] :=
    htexts ▸ List.mem_map.mpr ⟨row, hr, rfl⟩
  rw [List.mem_singleton.mp hitem]
  exact List.mem_singleton.mp htext

theorem embedOnce_finalize_sound : RunMeets (step echoSetup) (FinalizeSound echoSetup) start
    (embedOnce ++ [.finalize bgeSpec]) := by
  have hstamped : (runFrom (step echoSetup) start embedOnce).store.chunks.rows.map ChunkRow.embeddingFingerprint =
      [some bgeSpec.embeddingFingerprint] := by decide
  have hfinal : StepTimely echoSetup (runFrom (step echoSetup) start embedOnce) (.finalize bgeSpec) := by
    refine Or.inr fun row hr hlost => ?_
    have hmem : row.embeddingFingerprint ∈ [some bgeSpec.embeddingFingerprint] :=
      hstamped ▸ List.mem_map.mpr ⟨row, hr, rfl⟩
    simp [hlost] at hmem
  exact dense_run_sound echoSetup _ (RunMeets.append_iff.mpr ⟨embedOnce_timely, hfinal, trivial⟩)

def reingested : ProjectionStore Text :=
  (step echoSetup (runFrom (step echoSetup) start embedOnce) (.upsert (bodyOnlyDecision "b".toList) none)).store

/-- The second text of the document passes with the vector of the first. -/
theorem reingested_chunk_finalizes :
    ¬ RunMeets (step echoSetup) (FinalizeSound echoSetup) start
      (embedOnce ++ [.upsert (bodyOnlyDecision "b".toList) none, .finalize bgeSpec]) := by
  intro hrun
  obtain ⟨_, _, hfinal, _⟩ := RunMeets.append_iff.mp hrun
  have haccepted : (reingested.finalizeDenseRebuild bgeSpec).isOk = true := by decide
  have hvectors : reingested.chunkEmbeddings.rows.map EmbeddingRow.embedding =
      [(bodyItem "a".toList).embeddingText] := by decide
  have htexts : (reingested.chunks.update
      (fun row => row.embeddingFingerprint != some bgeSpec.embeddingFingerprint)
      (stampFingerprint bgeSpec.embeddingFingerprint) (fun _ => rfl)).rows.map
        (fun row => embeddingText row.chunk) = [(bodyItem "b".toList).embeddingText] := by decide
  cases h : reingested.finalizeDenseRebuild bgeSpec with
  | error e => simp [h, Except.isOk, Except.toBool] at haccepted
  | ok result =>
    obtain ⟨store', report⟩ := result
    have hsound := (hfinal store' report h).1
    obtain ⟨_, rfl⟩ := finalizeDenseRebuild_cases h
    have hmem := htexts.symm ▸ List.mem_singleton_self (bodyItem "b".toList).embeddingText
    obtain ⟨row, hr, htext⟩ := List.mem_map.mp hmem
    obtain ⟨_, e, he, _, _, _, _, hvector⟩ := hsound row hr
    have hstale : e.embedding ∈ [(bodyItem "a".toList).embeddingText] :=
      hvectors ▸ List.mem_map.mpr ⟨e, he, rfl⟩
    rw [List.mem_singleton.mp hstale, htext] at hvector
    exact absurd hvector (by decide)

end DenseSystem

end CorpusFeed
