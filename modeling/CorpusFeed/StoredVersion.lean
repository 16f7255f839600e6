import CorpusFeed.HierarchyStore
import CorpusFeed.ProjectionExact

/-! One version of a document in the working tables, while other documents are
upserted and the hierarchy backfill writes its columns. -/

namespace CorpusFeed

/-- A chunk without the columns that the hierarchy backfill writes. -/
def CanonicalChunk.bare (chunk : CanonicalChunk) : CanonicalChunk :=
  { chunk with contextualizedBody := [], chunking := [], boundary := [], hierarchyPath := [] }

def DocumentRow.bare (row : DocumentRow) : DocumentRow := { row with hierarchyPath := [] }

/-- The newer version takes the place of every chunk and edge of the older one. -/
structure CanonicalRecord.Replaces (newer older : CanonicalRecord) : Prop where
  chunks : older.chunks.length ≤ newer.chunks.length
  edges : ∀ edge ∈ older.edges, edge.edgeId ∈ newer.edges.map CanonicalGraphEdge.edgeId

namespace ProjectionStore

variable {V : Type*}

/-- The statements of the hierarchy backfill for one enriched record. -/
def applyHierarchy (s : ProjectionStore V) (update : CanonicalDocument) : ProjectionStore V :=
  { s with
    documents := s.documents.update (fun row => row.documentId == update.documentId)
      (fun row => { row with hierarchyPath := update.hierarchyPath }) fun _ => rfl
    chunks := s.chunks.update (fun row => row.chunk.documentId == update.documentId) (HierarchyStore.updateChunk update)
      (HierarchyStore.updateChunk_id update)
    chunkEmbeddings := s.chunkEmbeddings.filter fun embedding =>
      !(s.chunks.find? embedding.chunkId).any fun row => row.chunk.documentId == update.documentId }

def backfillHierarchy (s : ProjectionStore V) (updates : List CanonicalDocument) : ProjectionStore V :=
  updates.foldl applyHierarchy s

/-- The row, the chunks and the edges of the document are those of the version, but
for the columns that the hierarchy backfill writes. -/
structure StoredAs (s : ProjectionStore V) (d : CanonicalRecord) : Prop where
  document : ∃ row ∈ s.documents, row.bare = d.row.bare
  chunks : ∀ chunk, (∃ row ∈ s.chunks, row.chunk.bare = chunk ∧ row.chunk.documentId = d.documentId) ↔
    chunk ∈ d.chunks.map CanonicalChunk.bare
  edges : ∀ edge, (edge ∈ s.graphEdges ∧ edge.fromDocumentId = d.documentId) ↔ edge ∈ d.edges

section Upsert

variable {s s' : ProjectionStore V} {d other : CanonicalRecord} {fingerprint : Option Text}

theorem StoredExactly.storedAs (h : s.StoredExactly d) (hrow : d.row ∈ s.documents) : s.StoredAs d where
  document := ⟨d.row, hrow, rfl⟩
  chunks := by
    intro chunk
    rw [List.mem_map]
    constructor
    · rintro ⟨row, hr, hbare, hdocument⟩
      exact ⟨row.chunk, (h.chunks row.chunk).mp ⟨row, hr, rfl, hdocument⟩, hbare⟩
    · rintro ⟨stored, hstored, hbare⟩
      obtain ⟨row, hr, rfl, hdocument⟩ := (h.chunks stored).mpr hstored
      exact ⟨row, hr, hbare, hdocument⟩
  edges := h.edges

theorem Upserted.storedAs (h : Upserted fingerprint d s s') (hs : s.RowsNumbered)
    (hown : ∀ edge ∈ d.edges, edge.fromDocumentId = d.documentId) (hcovers : s.Covers d) : s'.StoredAs d := by
  refine ((h.exact_iff hs hown).mpr hcovers).storedAs ?_
  rw [h.documents]
  exact Table.mem_upsert.mpr (Or.inl rfl)

/-- The chunk rows of a document stay when another one is upserted. -/
theorem Upserted.mem_chunks_of_ne (h : Upserted fingerprint d s s') (hs : s.RowsNumbered) {row : ChunkRow}
    (hne : row.chunk.documentId ≠ d.documentId) : row ∈ s'.chunks ↔ row ∈ s.chunks := by
  rw [h.mem_iff]
  constructor
  · rintro (⟨hc, -⟩ | ⟨hr, -⟩)
    · exact absurd (mem_numbered h.numbered hc).1 hne
    · exact hr
  · intro hr
    refine Or.inr ⟨hr, ?_⟩
    rw [hs row hr, chunkId_mem_iff h.numbered]
    exact fun hmem => hne hmem.1

/-- A stored version outlives the upsert of another document that shares no edge id
with it. -/
theorem Upserted.storedAs_other (h : Upserted fingerprint d s s') (hs : s.RowsNumbered)
    (hown : ∀ edge ∈ d.edges, edge.fromDocumentId = d.documentId)
    (hapart : ∀ edge ∈ other.edges, edge.edgeId ∉ d.edges.map CanonicalGraphEdge.edgeId)
    (hne : other.documentId ≠ d.documentId) (hstored : s.StoredAs other) : s'.StoredAs other where
  document := by
    obtain ⟨row, hr, hbare⟩ := hstored.document
    have hid : row.documentId = other.documentId := by
      have hsame := congrArg DocumentRow.documentId hbare
      exact hsame.trans other.row_documentId
    refine ⟨row, ?_, hbare⟩
    rw [h.documents]
    refine Table.mem_upsert.mpr (Or.inr ⟨hr, ?_⟩)
    rw [hid, d.row_documentId]
    exact hne
  chunks := by
    intro chunk
    rw [← hstored.chunks chunk]
    refine exists_congr fun row => ?_
    constructor
    · rintro ⟨hr, hbare, hdocument⟩
      exact ⟨(h.mem_chunks_of_ne hs (hdocument ▸ hne)).mp hr, hbare, hdocument⟩
    · rintro ⟨hr, hbare, hdocument⟩
      exact ⟨(h.mem_chunks_of_ne hs (hdocument ▸ hne)).mpr hr, hbare, hdocument⟩
  edges := by
    intro edge
    rw [← hstored.edges edge, h.edges, Table.mem_upsertAll]
    constructor
    · rintro ⟨⟨before, after, hsplit, -⟩ | ⟨he, -⟩, hfrom⟩
      · have hmem : edge ∈ d.edges := by
          rw [hsplit]
          exact List.mem_append_right _ List.mem_cons_self
        exact absurd (hfrom.symm.trans (hown edge hmem)) hne
      · exact ⟨he, hfrom⟩
    · rintro ⟨he, hfrom⟩
      exact ⟨Or.inr ⟨he, hapart edge ((hstored.edges edge).mp ⟨he, hfrom⟩)⟩, hfrom⟩

/-- A version covers what is stored after an upsert if it covers what was stored
before, and the upserted version where that is of its document. -/
theorem Upserted.covers (h : Upserted fingerprint d s s')
    (hown : ∀ edge ∈ d.edges, edge.fromDocumentId = d.documentId) (hcovers : s.Covers other)
    (hreplaces : d.documentId = other.documentId → other.Replaces d) : s'.Covers other where
  chunks := by
    intro row hr hdocument
    rcases (h.mem_iff row).mp hr with ⟨hc, -⟩ | ⟨hr, -⟩
    · obtain ⟨hid, hindex, -⟩ := mem_numbered h.numbered hc
      exact lt_of_lt_of_le hindex (hreplaces (hid.symm.trans hdocument)).chunks
    · exact hcovers.chunks row hr hdocument
  edges := by
    intro edge he hfrom
    rw [h.edges, Table.mem_upsertAll] at he
    rcases he with ⟨before, after, hsplit, -⟩ | ⟨he, -⟩
    · have hmem : edge ∈ d.edges := by
        rw [hsplit]
        exact List.mem_append_right _ List.mem_cons_self
      exact (hreplaces ((hown edge hmem).symm.trans hfrom)).edges edge hmem
    · exact hcovers.edges edge he hfrom
  distinct := hcovers.distinct

end Upsert

section Backfill

variable {s : ProjectionStore V} {d : CanonicalRecord}

theorem updateChunk_bare (update : CanonicalDocument) (row : ChunkRow) :
    (HierarchyStore.updateChunk update row).chunk.bare = row.chunk.bare := by
  unfold HierarchyStore.updateChunk
  cases update.chunks[row.chunk.chunkIndex]? with
  | none => rfl
  | some chunk => rfl

theorem updateChunk_documentId (update : CanonicalDocument) (row : ChunkRow) :
    (HierarchyStore.updateChunk update row).chunk.documentId = row.chunk.documentId := by
  have hsame := congrArg CanonicalChunk.documentId (updateChunk_bare update row)
  exact hsame

theorem updateChunk_chunkIndex (update : CanonicalDocument) (row : ChunkRow) :
    (HierarchyStore.updateChunk update row).chunk.chunkIndex = row.chunk.chunkIndex := by
  have hsame := congrArg CanonicalChunk.chunkIndex (updateChunk_bare update row)
  exact hsame

theorem StoredAs.applyHierarchy (h : s.StoredAs d) (update : CanonicalDocument) :
    (s.applyHierarchy update).StoredAs d where
  document :=
    (@Table.exists_mem_update _ _ _ _ _ (fun row : DocumentRow => { row with hierarchyPath := update.hierarchyPath })
      (fun _ => rfl) (fun row => row.bare = d.row.bare) fun _ => Iff.rfl).mpr h.document
  chunks := by
    intro chunk
    rw [← h.chunks chunk]
    refine @Table.exists_mem_update _ _ _ _ _ _ (HierarchyStore.updateChunk_id update) _ fun row => ?_
    rw [updateChunk_bare, updateChunk_documentId]
  edges := h.edges

theorem RowsNumbered.applyHierarchy (h : s.RowsNumbered) (update : CanonicalDocument) :
    (s.applyHierarchy update).RowsNumbered := by
  intro row hr
  rcases (@Table.mem_update _ _ _ _ _ _ (HierarchyStore.updateChunk_id update) _).mp hr with
    ⟨old, hold, -, rfl⟩ | ⟨hr, -⟩
  · rw [HierarchyStore.updateChunk_id, updateChunk_documentId, updateChunk_chunkIndex]
    exact h old hold
  · exact h row hr

theorem StoredAs.backfillHierarchy (h : s.StoredAs d) (updates : List CanonicalDocument) :
    (s.backfillHierarchy updates).StoredAs d := by
  induction updates generalizing s with
  | nil => exact h
  | cons update updates ih => exact ih (h.applyHierarchy update)

theorem RowsNumbered.backfillHierarchy (h : s.RowsNumbered) (updates : List CanonicalDocument) :
    (s.backfillHierarchy updates).RowsNumbered := by
  induction updates generalizing s with
  | nil => exact h
  | cons update updates ih => exact ih (h.applyHierarchy update)

end Backfill

end ProjectionStore

def versionRecord (body : Text) : CanonicalDocument where
  documentId := "legi:LEGIARTI000000000001@2015-01-01".toList
  source := "legi".toList
  kind := "article".toList
  sourceUid := "LEGIARTI000000000001".toList
  versionGroup := none
  citation := none
  title := none
  body := body
  validFrom := "2015-01-01".toList
  validTo := none
  validToRaw := none
  sourceUrl := none
  sourcePayloadHash := "sha256:".toList ++ body
  hierarchyPath := []
  publisherEdges := [⟨"publisher-edge:1".toList, "legi:LEGIARTI000000000001@2015-01-01".toList,
    "LEGIARTI000000000001".toList, some "LEGIARTI000000000002".toList, none, "refers_to".toList, "publisher".toList,
    "LIEN".toList, some body, "sha256:".toList ++ body, none, none, []⟩]
  chunks := []

theorem versionRecord_edges_own (body : Text) :
    ∀ edge ∈ (versionRecord body).publisherEdges, edge.fromDocumentId = (versionRecord body).documentId := by
  intro edge hedge
  rw [List.mem_singleton.mp hedge]
  rfl

/-- An article of one chunk, with a link that quotes it. -/
def articleVersion (body : Text) : ParsedArticle where
  toCanonicalDocument := { versionRecord body with chunks := buildArticleChunks (versionRecord body) }
  chunks_built := (buildArticleChunks_with (versionRecord body) _).symm
  edges_own := versionRecord_edges_own body

end CorpusFeed
