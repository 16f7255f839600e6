import CorpusFeed.DocumentProjection

/-! What retrieval sees of a document after its upsert. The writers never
delete, so a version that has fewer chunks or other edges than an earlier one
leaves rows of the earlier one behind. -/

namespace CorpusFeed

namespace ProjectionStore

variable {V : Type*}

def upsertStep (s : ProjectionStore V) (a : ParsedDocument × Option Text) : ProjectionStore V :=
  s.settle (s.upsert a.1.record a.2)

/-- The stored chunks and edges of the document are the parsed ones. -/
structure StoredExactly (s : ProjectionStore V) (d : CanonicalRecord) : Prop where
  chunks : ∀ chunk, (∃ row ∈ s.chunks, row.chunk = chunk ∧ chunk.documentId = d.documentId) ↔ chunk ∈ d.chunks
  edges : ∀ edge, (edge ∈ s.graphEdges ∧ edge.fromDocumentId = d.documentId) ↔ edge ∈ d.edges

/-- No stored chunk of the document lies after its new last chunk, and no stored
edge of it has an id that the new version lacks. -/
structure Covers (s : ProjectionStore V) (d : CanonicalRecord) : Prop where
  chunks : ∀ row ∈ s.chunks, row.chunk.documentId = d.documentId → row.chunk.chunkIndex < d.chunks.length
  edges : ∀ edge ∈ s.graphEdges, edge.fromDocumentId = d.documentId →
    edge.edgeId ∈ d.edges.map CanonicalGraphEdge.edgeId
  distinct : ∀ edge ∈ d.edges, ∀ edge' ∈ d.edges, edge.edgeId = edge'.edgeId → edge = edge'

def ExactAfter (s : ProjectionStore V) (a : ParsedDocument × Option Text) : Prop :=
  ∀ s', s.upsert a.1.record a.2 = .ok s' → s'.StoredExactly a.1.record

def CoveredBefore (s : ProjectionStore V) (a : ParsedDocument × Option Text) : Prop :=
  (s.upsert a.1.record a.2).isOk = true → s.Covers a.1.record

/-- Every stored chunk has the id of its position. -/
def RowsNumbered (s : ProjectionStore V) : Prop :=
  ∀ row ∈ s.chunks, row.id = chunkIdOf row.chunk.documentId row.chunk.chunkIndex

section Upsert

variable {s s' : ProjectionStore V} {d : CanonicalRecord} {fingerprint : Option Text}

theorem mem_numbered {documentId : Text} {chunks : List CanonicalChunk} {chunk : CanonicalChunk}
    (h : ChunksNumbered documentId chunks) (hc : chunk ∈ chunks) : chunk.documentId = documentId ∧
      chunk.chunkIndex < chunks.length ∧ chunk.chunkId = chunkIdOf documentId chunk.chunkIndex := by
  obtain ⟨i, hi, rfl⟩ := List.mem_iff_getElem.mp hc
  obtain ⟨hdocument, hindex, hid⟩ := h i hi
  exact ⟨hdocument, hindex.symm ▸ hi, hindex.symm ▸ hid⟩

theorem chunkId_mem_iff {documentId : Text} {chunks : List CanonicalChunk} (h : ChunksNumbered documentId chunks)
    {document : Text} {i : Nat} :
    chunkIdOf document i ∈ chunks.map CanonicalChunk.chunkId ↔ document = documentId ∧ i < chunks.length := by
  constructor
  · intro hmem
    obtain ⟨chunk, hc, hid⟩ := List.mem_map.mp hmem
    obtain ⟨_, hindex, hid'⟩ := mem_numbered h hc
    obtain ⟨hd, hi⟩ := chunkIdOf_inj (hid'.symm.trans hid)
    exact ⟨hd.symm, hi ▸ hindex⟩
  · rintro ⟨rfl, hi⟩
    exact List.mem_map.mpr ⟨chunks[i], List.getElem_mem hi, (h i hi).2.2⟩

theorem Upserted.rowsNumbered (h : Upserted fingerprint d s s') (hs : s.RowsNumbered) : s'.RowsNumbered := by
  intro row hr
  rcases (h.mem_iff row).mp hr with ⟨hc, _⟩ | ⟨hr, _⟩
  · obtain ⟨hdocument, _, hid⟩ := mem_numbered h.numbered hc
    rw [hdocument]
    exact hid
  · exact hs row hr

theorem Upserted.chunks_exact_iff (h : Upserted fingerprint d s s') (hs : s.RowsNumbered) :
    (∀ chunk, (∃ row ∈ s'.chunks, row.chunk = chunk ∧ chunk.documentId = d.documentId) ↔ chunk ∈ d.chunks) ↔
      ∀ row ∈ s.chunks, row.chunk.documentId = d.documentId → row.chunk.chunkIndex < d.chunks.length := by
  constructor
  · intro hexact row hr hdocument
    by_contra hlt
    have hid : row.id ∉ d.chunks.map CanonicalChunk.chunkId := by
      rw [hs row hr, chunkId_mem_iff h.numbered]
      exact fun hmem => hlt hmem.2
    have hkept : row ∈ s'.chunks := (h.mem_iff row).mpr (Or.inr ⟨hr, hid⟩)
    exact hlt (mem_numbered h.numbered ((hexact row.chunk).mp ⟨row, hkept, rfl, hdocument⟩)).2.1
  · intro hcovers chunk
    constructor
    · rintro ⟨row, hr, rfl, hdocument⟩
      rcases (h.mem_iff row).mp hr with ⟨hc, _⟩ | ⟨hr, hid⟩
      · exact hc
      · rw [hs row hr, chunkId_mem_iff h.numbered] at hid
        exact absurd ⟨hdocument, hcovers row hr hdocument⟩ hid
    · intro hc
      exact ⟨⟨chunk, chunkFingerprint (s.chunks.find? chunk.chunkId) chunk fingerprint⟩,
        (h.mem_iff _).mpr (Or.inl ⟨hc, rfl⟩), rfl, (mem_numbered h.numbered hc).1⟩

theorem Upserted.edges_exact_iff (h : Upserted fingerprint d s s')
    (hown : ∀ edge ∈ d.edges, edge.fromDocumentId = d.documentId) :
    (∀ edge, (edge ∈ s'.graphEdges ∧ edge.fromDocumentId = d.documentId) ↔ edge ∈ d.edges) ↔
      (∀ edge ∈ s.graphEdges, edge.fromDocumentId = d.documentId →
        edge.edgeId ∈ d.edges.map CanonicalGraphEdge.edgeId) ∧
      ∀ edge ∈ d.edges, ∀ edge' ∈ d.edges, edge.edgeId = edge'.edgeId → edge = edge' := by
  rw [h.edges]
  constructor
  · intro hexact
    refine ⟨fun edge he hfrom => ?_, fun edge he edge' he' hid => ?_⟩
    · by_contra hno
      have hkept := Table.mem_upsertAll.mpr (Or.inr ⟨he, hno⟩)
      exact hno (List.mem_map_of_mem ((hexact edge).mp ⟨hkept, hfrom⟩))
    · exact Table.eq_of_key_eq ((hexact edge).mpr he).1 ((hexact edge').mpr he').1 hid
  · rintro ⟨hcovers, hdistinct⟩ edge
    rw [Table.mem_upsertAll_of_unique hdistinct]
    constructor
    · rintro ⟨he | ⟨he, hid⟩, hfrom⟩
      · exact he
      · exact absurd (hcovers edge he hfrom) hid
    · exact fun he => ⟨Or.inl he, hown edge he⟩

/-- After an accepted upsert the document is stored exactly when the new version
covers what was stored of it before. -/
theorem Upserted.exact_iff (h : Upserted fingerprint d s s') (hs : s.RowsNumbered)
    (hown : ∀ edge ∈ d.edges, edge.fromDocumentId = d.documentId) :
    s'.StoredExactly d ↔ s.Covers d := by
  have hchunks := h.chunks_exact_iff hs
  have hedges := h.edges_exact_iff hown
  constructor
  · intro hexact
    obtain ⟨hcovers, hdistinct⟩ := hedges.mp hexact.edges
    exact ⟨hchunks.mp hexact.chunks, hcovers, hdistinct⟩
  · intro hcovers
    exact ⟨hchunks.mpr hcovers.chunks, hedges.mpr ⟨hcovers.edges, hcovers.distinct⟩⟩

end Upsert

theorem rowsNumbered_empty : (empty : ProjectionStore V).RowsNumbered := by
  simp [RowsNumbered, empty]

theorem upsertStep_numbered (s : ProjectionStore V) (a : ParsedDocument × Option Text) (hs : s.RowsNumbered) :
    (s.upsertStep a).RowsNumbered := by
  unfold upsertStep
  cases h : s.upsert a.1.record a.2 with
  | error e => exact hs
  | ok s' => exact (upsert_cases h).rowsNumbered hs

theorem exactAfter_iff {s : ProjectionStore V} (hs : s.RowsNumbered) (a : ParsedDocument × Option Text) :
    s.ExactAfter a ↔ s.CoveredBefore a := by
  unfold ExactAfter CoveredBefore
  cases h : s.upsert a.1.record a.2 with
  | error e => simp [Except.isOk, Except.toBool]
  | ok s' =>
    have hiff := (upsert_cases h).exact_iff hs a.1.edges_own
    simp [Except.isOk, Except.toBool, hiff]

/-- In every sequence of upserts each accepted one leaves exactly the parsed
chunks and edges of its document, if and only if each of them covers what the
earlier versions have left. -/
theorem projection_exact_iff (upserts : List (ParsedDocument × Option Text)) :
    RunMeets upsertStep ExactAfter (empty : ProjectionStore V) upserts ↔
      RunMeets upsertStep CoveredBefore (empty : ProjectionStore V) upserts := by
  have hruns : ∀ s : ProjectionStore V, s.RowsNumbered →
      (RunMeets upsertStep ExactAfter s upserts ↔ RunMeets upsertStep CoveredBefore s upserts) := by
    induction upserts with
    | nil => exact fun s _ => Iff.rfl
    | cons a upserts ih => exact fun s hs => and_congr (exactAfter_iff hs a) (ih _ (upsertStep_numbered s a hs))
  exact hruns empty rowsNumbered_empty

/-- A decision with a summary, and the same decision once the summary is gone. -/
def decisionWith (summaries : List DecisionSummary) : ParsedDecision where
  toCanonicalDecision :=
    let header : CanonicalDecision :=
      { documentId := "cass:JURITEXT1".toList, source := "cass".toList, sourceFamily := .judicial,
        kind := "decision".toList, sourceUid := "JURITEXT1".toList, citation := none, title := none,
        body := "b".toList, decisionDate := "2020-01-01".toList, jurisdiction := none, ecli := none,
        sourceUrl := none, sourcePayloadHash := "sha256:0".toList, chunkingProvenance := "heuristic".toList,
        summaries := summaries, publisherEdges := [], inferredEdges := [], chunks := [],
        canonicalVersion := juriDecisionCanonicalVersion }
    { header with chunks := buildDecisionChunks header }
  chunks_built := rfl
  edges_own := by simp

def summarisedDecision : ParsedDocument := .decision (decisionWith [⟨"analyse".toList, "s".toList⟩])

def unsummarisedDecision : ParsedDocument := .decision (decisionWith [])

/-- The body chunk of the first version stays at position 1. -/
theorem shrunk_decision_keeps_chunk :
    ¬ RunMeets upsertStep ExactAfter (empty : ProjectionStore Unit)
      [(summarisedDecision, none), (unsummarisedDecision, none)] := by
  rintro ⟨_, hsecond, _⟩
  have hfirst : ((empty : ProjectionStore Unit).upsertStep (summarisedDecision, none)).chunks.rows.map
      (fun row => (row.chunk.documentId, row.chunk.chunkIndex)) =
        [(unsummarisedDecision.record.documentId, 1), (unsummarisedDecision.record.documentId, 0)] := by decide
  have haccepted : (((empty : ProjectionStore Unit).upsertStep (summarisedDecision, none)).upsert
      unsummarisedDecision.record none).isOk = true := by decide
  have hone : unsummarisedDecision.record.chunks.length = 1 := by decide
  have hnumbered := upsertStep_numbered (empty : ProjectionStore Unit) (summarisedDecision, none) rowsNumbered_empty
  have hcovers := ((exactAfter_iff hnumbered _).mp hsecond) haccepted
  have hmem : (unsummarisedDecision.record.documentId, 1) ∈
      ((empty : ProjectionStore Unit).upsertStep (summarisedDecision, none)).chunks.rows.map
        (fun row => (row.chunk.documentId, row.chunk.chunkIndex)) := by simp [hfirst]
  obtain ⟨row, hr, heq⟩ := List.mem_map.mp hmem
  obtain ⟨hdocument, hindex⟩ := Prod.mk.inj heq
  have hlt := hcovers.chunks row hr hdocument
  simp only [hindex, hone] at hlt
  omega

end ProjectionStore

end CorpusFeed
