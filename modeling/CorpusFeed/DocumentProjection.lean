import CorpusFeed.ChunkBuilders
import CorpusFeed.KeyedTable
import CorpusFeed.Runs

/-! The projection of parsed documents into the working tables: one upsert of
the document row, and one upsert for each of its chunks and edges. -/

namespace CorpusFeed

structure DocumentRow where
  documentId : Text
  source : Text
  kind : Text
  sourceUid : Text
  versionGroup : Option Text
  citation : Option Text
  title : Option Text
  body : Text
  validFrom : Text
  validTo : Option Text
  validToRaw : Option Text
  sourceUrl : Option Text
  sourcePayloadHash : Text
  hierarchyPath : List Text

structure ChunkRow where
  chunk : CanonicalChunk
  embeddingFingerprint : Option Text

def ChunkRow.id (row : ChunkRow) : Text := row.chunk.chunkId

structure EmbeddingRow (V : Type*) where
  chunkId : Text
  embeddingFingerprint : Text
  embedding : V
  model : Text
  dimension : Int

/-- `V` is the type of the stored vectors. -/
structure ProjectionStore (V : Type*) where
  documents : Table DocumentRow.documentId
  chunks : Table ChunkRow.id
  chunkEmbeddings : Table (EmbeddingRow.chunkId : EmbeddingRow V → Text)
  graphEdges : Table CanonicalGraphEdge.edgeId

def CanonicalDocument.documentRow (d : CanonicalDocument) : DocumentRow :=
  ⟨d.documentId, d.source, d.kind, d.sourceUid, d.versionGroup, d.citation, d.title, d.body, d.validFrom, d.validTo,
    d.validToRaw, d.sourceUrl, d.sourcePayloadHash, d.hierarchyPath⟩

def CanonicalDecision.documentRow (d : CanonicalDecision) : DocumentRow :=
  ⟨d.documentId, d.source, d.kind, d.sourceUid, none, d.citation, d.title, d.body, d.decisionDate, none, none,
    d.sourceUrl, d.sourcePayloadHash, []⟩

inductive StoreError where
  | postgresClient (message : String)
  | projection (message : String)
  | denseRebuild (message : String)
deriving DecidableEq

variable {V : Type*}

namespace ProjectionStore

def empty : ProjectionStore V := ⟨Table.empty, Table.empty, Table.empty, Table.empty⟩

def hasDocument (s : ProjectionStore V) (documentId : Text) : Bool := (s.documents.find? documentId).isSome

/-- The fingerprint column after `INSERT .. ON CONFLICT (chunk_id) DO UPDATE`: a
changed text is marked by NULL. -/
def chunkFingerprint (stored : Option ChunkRow) (chunk : CanonicalChunk) (fingerprint : Option Text) : Option Text :=
  match stored with
  | none => fingerprint
  | some row =>
    if row.chunk.body ≠ chunk.body ∨ row.chunk.contextualizedBody ≠ chunk.contextualizedBody then none
    else match fingerprint with
      | some fingerprint => some fingerprint
      | none => row.embeddingFingerprint

def takesPlaceOf (chunk : CanonicalChunk) (row : ChunkRow) : Bool :=
  row.chunk.documentId == chunk.documentId && row.chunk.chunkIndex == chunk.chunkIndex && row.id != chunk.chunkId

def upsertChunk (fingerprint : Option Text) (s : ProjectionStore V) (chunk : CanonicalChunk) :
    Except StoreError (ProjectionStore V) :=
  if 2 ^ 31 ≤ chunk.chunkIndex then .error (.projection
    s!"chunk `{String.ofList chunk.chunkId}` has chunk_index too large for storage: {chunk.chunkIndex}")
  else if s.hasDocument chunk.documentId = false then
    .error (.postgresClient "insert or update on table \"chunks\" violates foreign key constraint")
  else if chunk.contextualizedBody.all (· == ' ') then
    .error (.postgresClient "new row for relation \"chunks\" violates check constraint \"chunks_contextualized_body_not_empty\"")
  else if s.chunks.rows.any (takesPlaceOf chunk) then
    .error (.postgresClient "duplicate key value violates unique constraint \"chunks_document_id_chunk_index_key\"")
  else .ok { s with
    chunks := s.chunks.upsert ⟨chunk, chunkFingerprint (s.chunks.find? chunk.chunkId) chunk fingerprint⟩ }

def upsertChunks (fingerprint : Option Text) (s : ProjectionStore V) :
    List CanonicalChunk → Except StoreError (ProjectionStore V)
  | [] => .ok s
  | chunk :: rest =>
    match s.upsertChunk fingerprint chunk with
    | .error e => .error e
    | .ok s' => upsertChunks fingerprint s' rest

def insertGraphEdges (s : ProjectionStore V) (edges : List CanonicalGraphEdge) :
    Except StoreError (ProjectionStore V) :=
  if edges.all fun edge => s.hasDocument edge.fromDocumentId && edge.toDocumentId.all s.hasDocument then
    .ok { s with graphEdges := s.graphEdges.upsertAll edges }
  else .error (.postgresClient "insert or update on table \"graph_edges\" violates foreign key constraint")

def project (s : ProjectionStore V) (row : DocumentRow) (chunks : List CanonicalChunk)
    (edges : List CanonicalGraphEdge) (fingerprint : Option Text) : Except StoreError (ProjectionStore V) :=
  match upsertChunks fingerprint { s with documents := s.documents.upsert row } chunks with
  | .error e => .error e
  | .ok s' => s'.insertGraphEdges edges

def insertLegiDocument (s : ProjectionStore V) (d : CanonicalDocument) (fingerprint : Option Text) :
    Except StoreError (ProjectionStore V) :=
  match d.validate with
  | some error => .error (.projection
      s!"canonical document `{String.ofList d.documentId}` failed validation before storage projection: {error}")
  | none => s.project d.documentRow d.chunks d.publisherEdges fingerprint

def insertDecisionDocument (s : ProjectionStore V) (d : CanonicalDecision) (fingerprint : Option Text) :
    Except StoreError (ProjectionStore V) :=
  match d.validate with
  | some error => .error (.projection
      s!"canonical decision `{String.ofList d.documentId}` failed validation before storage projection: {error}")
  | none => s.project d.documentRow d.chunks (d.publisherEdges ++ d.inferredEdges) fingerprint

end ProjectionStore

/-- An article as its parser returns it. -/
structure ParsedArticle extends CanonicalDocument where
  chunks_built : chunks = buildArticleChunks toCanonicalDocument
  edges_own : ∀ edge ∈ publisherEdges, edge.fromDocumentId = documentId

structure ParsedDecision extends CanonicalDecision where
  chunks_built : chunks = buildDecisionChunks toCanonicalDecision
  edges_own : ∀ edge ∈ publisherEdges ++ inferredEdges, edge.fromDocumentId = documentId

inductive CanonicalRecord where
  | article (d : CanonicalDocument)
  | decision (d : CanonicalDecision)

namespace CanonicalRecord

def documentId : CanonicalRecord → Text
  | .article d => d.documentId
  | .decision d => d.documentId

def chunks : CanonicalRecord → List CanonicalChunk
  | .article d => d.chunks
  | .decision d => d.chunks

def edges : CanonicalRecord → List CanonicalGraphEdge
  | .article d => d.publisherEdges
  | .decision d => d.publisherEdges ++ d.inferredEdges

def row : CanonicalRecord → DocumentRow
  | .article d => d.documentRow
  | .decision d => d.documentRow

theorem row_documentId (d : CanonicalRecord) : d.row.documentId = d.documentId := by
  cases d with
  | article d => rfl
  | decision d => rfl

end CanonicalRecord

inductive ParsedDocument where
  | article (d : ParsedArticle)
  | decision (d : ParsedDecision)

def ParsedDocument.record : ParsedDocument → CanonicalRecord
  | .article d => .article d.toCanonicalDocument
  | .decision d => .decision d.toCanonicalDecision

theorem ParsedDocument.edges_own (d : ParsedDocument) :
    ∀ edge ∈ d.record.edges, edge.fromDocumentId = d.record.documentId := by
  cases d with
  | article d => exact d.edges_own
  | decision d => exact d.edges_own

namespace ProjectionStore

def upsert (s : ProjectionStore V) (d : CanonicalRecord) (fingerprint : Option Text) :
    Except StoreError (ProjectionStore V) :=
  match d with
  | .article d => s.insertLegiDocument d fingerprint
  | .decision d => s.insertDecisionDocument d fingerprint

def settle (s : ProjectionStore V) : Except StoreError (ProjectionStore V) → ProjectionStore V
  | .ok s' => s'
  | .error _ => s

theorem upsertChunk_cases {fingerprint : Option Text} {s s' : ProjectionStore V} {chunk : CanonicalChunk}
    (h : s.upsertChunk fingerprint chunk = .ok s') :
    s' = { s with
      chunks := s.chunks.upsert ⟨chunk, chunkFingerprint (s.chunks.find? chunk.chunkId) chunk fingerprint⟩ } := by
  unfold upsertChunk at h
  split at h
  · cases h
  split at h
  · cases h
  split at h
  · cases h
  split at h
  · cases h
  · cases h
    rfl

theorem insertGraphEdges_cases {s s' : ProjectionStore V} {edges : List CanonicalGraphEdge}
    (h : s.insertGraphEdges edges = .ok s') : s' = { s with graphEdges := s.graphEdges.upsertAll edges } := by
  unfold insertGraphEdges at h
  split at h
  · cases h
    rfl
  · cases h

/-- What the chunks of one document do to the chunk rows. -/
structure ChunksUpserted (fingerprint : Option Text) (chunks : List CanonicalChunk) (s s' : ProjectionStore V) :
    Prop where
  mem_iff : ∀ row, row ∈ s'.chunks ↔
    (row.chunk ∈ chunks ∧ row.embeddingFingerprint =
        chunkFingerprint (s.chunks.find? row.id) row.chunk fingerprint) ∨
      (row ∈ s.chunks ∧ row.id ∉ chunks.map CanonicalChunk.chunkId)
  documents : s'.documents = s.documents
  embeddings : s'.chunkEmbeddings = s.chunkEmbeddings
  edges : s'.graphEdges = s.graphEdges

theorem upsertChunks_upserted {fingerprint : Option Text} {s s' : ProjectionStore V} {chunks : List CanonicalChunk}
    (hids : (chunks.map CanonicalChunk.chunkId).Nodup) (h : upsertChunks fingerprint s chunks = .ok s') :
    ChunksUpserted fingerprint chunks s s' := by
  induction chunks generalizing s with
  | nil =>
    cases h
    exact ⟨by simp, rfl, rfl, rfl⟩
  | cons chunk rest ih =>
    unfold upsertChunks at h
    split at h
    · cases h
    next middle hchunk =>
    obtain rfl := upsertChunk_cases hchunk
    obtain ⟨hno, hrest⟩ := List.nodup_cons.mp hids
    have htail := ih hrest h
    have hfind : ∀ id, id ≠ chunk.chunkId → (s.chunks.upsert
        ⟨chunk, chunkFingerprint (s.chunks.find? chunk.chunkId) chunk fingerprint⟩).find? id = s.chunks.find? id :=
      fun id hid => (Table.find?_upsert _ _ _).trans (if_neg hid)
    have hneq : ∀ row : ChunkRow, row.chunk ∈ rest → row.id ≠ chunk.chunkId := fun row hr heq =>
      hno (heq ▸ List.mem_map_of_mem hr)
    refine ⟨fun row => ?_, htail.documents, htail.embeddings, htail.edges⟩
    rw [htail.mem_iff, List.map_cons, List.mem_cons, List.mem_cons, not_or]
    simp only [Table.mem_upsert]
    constructor
    · rintro (⟨hr, hf⟩ | ⟨rfl | ⟨hr, hid⟩, hid'⟩)
      · exact Or.inl ⟨Or.inr hr, hf.trans (by rw [hfind _ (hneq row hr)])⟩
      · exact Or.inl ⟨Or.inl rfl, rfl⟩
      · exact Or.inr ⟨hr, hid, hid'⟩
    · rintro (⟨heq | hr, hf⟩ | ⟨hr, hid, hid'⟩)
      · have hrow : row = ⟨chunk, chunkFingerprint (s.chunks.find? chunk.chunkId) chunk fingerprint⟩ := by
          rw [ChunkRow.id, heq] at hf
          calc row = ⟨row.chunk, row.embeddingFingerprint⟩ := rfl
            _ = _ := by rw [heq, hf]
        exact Or.inr ⟨Or.inl hrow, fun hmem => hno (by rwa [ChunkRow.id, heq] at hmem)⟩
      · exact Or.inl ⟨hr, hf.trans (by rw [hfind _ (hneq row hr)])⟩
      · exact Or.inr ⟨Or.inr ⟨hr, hid⟩, hid'⟩

theorem chunkIds_nodup {documentId : Text} {chunks : List CanonicalChunk} (h : ChunksNumbered documentId chunks) :
    (chunks.map CanonicalChunk.chunkId).Nodup := by
  refine List.nodup_iff_injective_getElem.mpr fun i j hij => ?_
  have hi : (i : Nat) < chunks.length := by simpa using i.isLt
  have hj : (j : Nat) < chunks.length := by simpa using j.isLt
  simp only [List.getElem_map, (h i hi).2.2, (h j hj).2.2] at hij
  exact Fin.ext (chunkIdOf_inj hij).2

/-- The effect of an accepted upsert. -/
structure Upserted (fingerprint : Option Text) (d : CanonicalRecord) (s s' : ProjectionStore V) : Prop where
  numbered : ChunksNumbered d.documentId d.chunks
  documents : s'.documents = s.documents.upsert d.row
  mem_iff : ∀ row, row ∈ s'.chunks ↔
    (row.chunk ∈ d.chunks ∧ row.embeddingFingerprint =
        chunkFingerprint (s.chunks.find? row.id) row.chunk fingerprint) ∨
      (row ∈ s.chunks ∧ row.id ∉ d.chunks.map CanonicalChunk.chunkId)
  embeddings : s'.chunkEmbeddings = s.chunkEmbeddings
  edges : s'.graphEdges = s.graphEdges.upsertAll d.edges

theorem project_cases {fingerprint : Option Text} {s s' : ProjectionStore V} {row : DocumentRow}
    {chunks : List CanonicalChunk} {edges : List CanonicalGraphEdge}
    (hids : (chunks.map CanonicalChunk.chunkId).Nodup) (h : s.project row chunks edges fingerprint = .ok s') :
    ∃ middle, ChunksUpserted fingerprint chunks { s with documents := s.documents.upsert row } middle ∧
      s' = { middle with graphEdges := middle.graphEdges.upsertAll edges } := by
  unfold project at h
  split at h
  · cases h
  next middle hmiddle => exact ⟨middle, upsertChunks_upserted hids hmiddle, insertGraphEdges_cases h⟩

theorem upsert_cases {fingerprint : Option Text} {s s' : ProjectionStore V} {d : CanonicalRecord}
    (h : s.upsert d fingerprint = .ok s') : Upserted fingerprint d s s' := by
  have hproject : ChunksNumbered d.documentId d.chunks ∧ s.project d.row d.chunks d.edges fingerprint = .ok s' := by
    cases d with
    | article d =>
      simp only [upsert, insertLegiDocument] at h
      split at h
      · cases h
      next hvalid => exact ⟨CanonicalDocument.validate_numbered hvalid, h⟩
    | decision d =>
      simp only [upsert, insertDecisionDocument] at h
      split at h
      · cases h
      next hvalid => exact ⟨CanonicalDecision.validate_numbered hvalid, h⟩
  obtain ⟨hnumbered, hrow⟩ := hproject
  obtain ⟨middle, hchunks, rfl⟩ := project_cases (chunkIds_nodup hnumbered) hrow
  exact ⟨hnumbered, hchunks.documents, hchunks.mem_iff, hchunks.embeddings, by rw [hchunks.edges]⟩

end ProjectionStore

end CorpusFeed
