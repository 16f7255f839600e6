import CorpusFeed.DocumentProjection
import Mathlib.Data.List.Sort

/-! The embedding work list, the insertion of chunk vectors and the final
coverage check. A chunk whose text changed keeps its old vector and loses its
fingerprint. -/

namespace CorpusFeed

def denseVectorDimension : Int := 1024

structure DenseRebuildSpec where
  embeddingFingerprint : Text
  model : Text
  dimension : Int
  normalize : Bool

structure DenseRebuildReport where
  chunks : Nat
  embeddings : Nat
  embeddingFingerprint : Text

structure ChunkEmbeddingInput where
  chunkId : Text
  embeddingText : Text
deriving DecidableEq

structure ChunkEmbeddingInsert (V : Type*) where
  chunkId : Text
  embeddingFingerprint : Text
  embedding : V
  model : Text
  dimension : Nat

/-- The text that is sent to the embedder for a chunk. -/
def embeddingText (chunk : CanonicalChunk) : Text :=
  if isBlank chunk.contextualizedBody then chunk.body else chunk.contextualizedBody

def fingerprintOf (spec : DenseRebuildSpec) : Text :=
  spec.model ++ ":".toList ++ intText spec.dimension ++ ":normalize:".toList ++
    (if spec.normalize then "true".toList else "false".toList)

def validateDenseSpec (spec : DenseRebuildSpec) : Option String :=
  firstFailure
    [(isBlank spec.embeddingFingerprint, "embedding_fingerprint must not be empty"),
      (isBlank spec.model, "model must not be empty"),
      (spec.dimension != denseVectorDimension,
        s!"dense rebuild dimension must match schema vector({denseVectorDimension}), got {spec.dimension}"),
      (spec.embeddingFingerprint != fingerprintOf spec,
        s!"embedding_fingerprint `{String.ofList spec.embeddingFingerprint}` does not match model/dimension/normalize spec `{String.ofList (fingerprintOf spec)}`")]

/-- `ORDER BY document_id, chunk_index, chunk_id` under the database collation. -/
def chunkOrder (collate : Text → Text → Bool) (a b : ChunkRow) : Bool :=
  if a.chunk.documentId ≠ b.chunk.documentId then collate a.chunk.documentId b.chunk.documentId
  else if a.chunk.chunkIndex ≠ b.chunk.chunkIndex then decide (a.chunk.chunkIndex < b.chunk.chunkIndex)
  else collate a.id b.id

variable {V : Type*}

namespace ProjectionStore

/-- Whether the chunk's row in `chunk_embeddings` is missing or of another model. -/
def uncovered (s : ProjectionStore V) (fingerprint model : Text) (dimension : Int) (row : ChunkRow) : Bool :=
  match s.chunkEmbeddings.find? row.id with
  | none => true
  | some e => e.embeddingFingerprint != fingerprint || e.model != model || e.dimension != dimension

def needsEmbedding (s : ProjectionStore V) (fingerprint model : Text) (dimension : Int) (row : ChunkRow) : Bool :=
  row.embeddingFingerprint.isNone || s.uncovered fingerprint model dimension row

def loadChunkEmbeddingInputs (collate : Text → Text → Bool) (s : ProjectionStore V) (fingerprint model : Text)
    (dimension : Int) (limit : Option Nat) : List ChunkEmbeddingInput :=
  let rows := (s.chunks.rows.filter (s.needsEmbedding fingerprint model dimension)).insertionSort
    fun a b => chunkOrder collate a b = true
  let taken := match limit with
    | some limit => rows.take limit
    | none => rows
  taken.map fun row => ⟨row.id, embeddingText row.chunk⟩

def acceptsVector (s : ProjectionStore V) (item : ChunkEmbeddingInsert V) : Bool :=
  match s.chunks.find? item.chunkId with
  | none => false
  | some row => row.embeddingFingerprint.isNone || row.embeddingFingerprint == some item.embeddingFingerprint

def staged (items : List (ChunkEmbeddingInsert V)) (chunkId : Text) : Option (ChunkEmbeddingInsert V) :=
  items.find? fun item => item.chunkId = chunkId

def stampStaged (items : List (ChunkEmbeddingInsert V)) (row : ChunkRow) : ChunkRow :=
  match staged items row.id with
  | some item => { row with embeddingFingerprint := some item.embeddingFingerprint }
  | none => row

theorem stampStaged_chunk (items : List (ChunkEmbeddingInsert V)) (row : ChunkRow) :
    (stampStaged items row).chunk = row.chunk := by
  unfold stampStaged
  split <;> rfl

theorem stampStaged_id (items : List (ChunkEmbeddingInsert V)) (row : ChunkRow) :
    (stampStaged items row).id = row.id := congrArg CanonicalChunk.chunkId (stampStaged_chunk items row)

def embeddingRow (item : ChunkEmbeddingInsert V) : EmbeddingRow V :=
  ⟨item.chunkId, item.embeddingFingerprint, item.embedding, item.model, item.dimension⟩

def offenderMessage (collate : Text → Text → Bool) (s : ProjectionStore V) (items : List (ChunkEmbeddingInsert V)) :
    String :=
  let offenders := (items.filter fun item => !s.acceptsVector item).insertionSort
    fun a b => collate a.chunkId b.chunkId = true
  match offenders with
  | item :: _ =>
    s!"chunk `{String.ofList item.chunkId}` is missing or has a different embedding fingerprint than `{String.ofList item.embeddingFingerprint}`"
  | [] => "a staged chunk is missing or has a conflicting embedding fingerprint"

def insertChunkEmbeddings (collate : Text → Text → Bool) (s : ProjectionStore V)
    (items : List (ChunkEmbeddingInsert V)) : Except StoreError (ProjectionStore V) :=
  if items.isEmpty then .ok s
  else match items.find? fun item => decide (2 ^ 31 ≤ item.dimension) with
  | some item => .error (.projection
      s!"embedding dimension too large for storage on chunk `{String.ofList item.chunkId}`: {item.dimension}")
  | none =>
    if (items.map ChunkEmbeddingInsert.chunkId).Nodup then
      if items.all s.acceptsVector then
        if items.all fun item => (item.dimension : Int) == denseVectorDimension then
          .ok { s with
            chunks := s.chunks.update (fun _ => true) (stampStaged items) (stampStaged_id items)
            chunkEmbeddings := s.chunkEmbeddings.upsertAll (items.map embeddingRow) }
        else .error (.postgresClient "new row for relation \"chunk_embeddings\" violates check constraint")
      else .error (.projection (s.offenderMessage collate items))
    else .error (.postgresClient "duplicate key value violates unique constraint \"stage_chunk_embeddings_pkey\"")

def stampFingerprint (fingerprint : Text) (row : ChunkRow) : ChunkRow :=
  { row with embeddingFingerprint := some fingerprint }

def finalizeDenseRebuild (s : ProjectionStore V) (spec : DenseRebuildSpec) :
    Except StoreError (ProjectionStore V × DenseRebuildReport) :=
  match validateDenseSpec spec with
  | some message => .error (.denseRebuild message)
  | none =>
    let chunks := s.chunks.rows.length
    let embeddings := (s.chunkEmbeddings.rows.filter fun e => e.embeddingFingerprint == spec.embeddingFingerprint &&
      e.model == spec.model && e.dimension == spec.dimension).length
    let missing := (s.chunks.rows.filter (s.uncovered spec.embeddingFingerprint spec.model spec.dimension)).length
    if chunks = 0 then .error (.denseRebuild "cannot finalize dense rebuild for an empty chunk corpus")
    else if missing ≠ 0 then .error (.denseRebuild
      s!"{missing} chunks are missing embeddings for fingerprint `{String.ofList spec.embeddingFingerprint}`")
    else .ok ({ s with
      chunks := s.chunks.update (fun row => row.embeddingFingerprint != some spec.embeddingFingerprint)
        (stampFingerprint spec.embeddingFingerprint) (fun _ => rfl) },
      ⟨chunks, embeddings, spec.embeddingFingerprint⟩)

variable {s s' : ProjectionStore V}

theorem uncovered_eq_false {fingerprint model : Text} {dimension : Int} {row : ChunkRow} :
    s.uncovered fingerprint model dimension row = false ↔ ∃ e ∈ s.chunkEmbeddings, e.chunkId = row.id ∧
      e.embeddingFingerprint = fingerprint ∧ e.model = model ∧ e.dimension = dimension := by
  unfold uncovered
  cases h : s.chunkEmbeddings.find? row.id with
  | none =>
    have hno := Table.find?_eq_none.mp h
    simp only [Bool.true_eq_false, false_iff, not_exists, not_and]
    exact fun e he hid => absurd hid (hno e he)
  | some e =>
    obtain ⟨he, hid⟩ := Table.find?_eq_some.mp h
    simp only [Bool.or_eq_false_iff, bne_eq_false_iff_eq]
    constructor
    · rintro ⟨⟨hf, hm⟩, hd⟩
      exact ⟨e, he, hid, hf, hm, hd⟩
    · rintro ⟨e', he', hid', hf, hm, hd⟩
      rw [Table.eq_of_key_eq he he' (hid.trans hid'.symm)]
      exact ⟨⟨hf, hm⟩, hd⟩

theorem mem_load_iff {collate : Text → Text → Bool} {fingerprint model : Text} {dimension : Int}
    {item : ChunkEmbeddingInput} :
    item ∈ s.loadChunkEmbeddingInputs collate fingerprint model dimension none ↔
      ∃ row ∈ s.chunks, s.needsEmbedding fingerprint model dimension row = true ∧
        item = ⟨row.id, embeddingText row.chunk⟩ := by
  simp only [loadChunkEmbeddingInputs, List.mem_map, List.mem_insertionSort, List.mem_filter, Table.mem_rows]
  constructor
  · rintro ⟨row, ⟨hr, hneeds⟩, rfl⟩
    exact ⟨row, hr, hneeds, rfl⟩
  · rintro ⟨row, hr, hneeds, rfl⟩
    exact ⟨row, ⟨hr, hneeds⟩, rfl⟩

theorem insertChunkEmbeddings_cases {collate : Text → Text → Bool} {items : List (ChunkEmbeddingInsert V)}
    (h : s.insertChunkEmbeddings collate items = .ok s') : (items = [] ∧ s' = s) ∨
      ((items.map ChunkEmbeddingInsert.chunkId).Nodup ∧ (∀ item ∈ items, s.acceptsVector item = true) ∧
        s' = { s with
          chunks := s.chunks.update (fun _ => true) (stampStaged items) (stampStaged_id items)
          chunkEmbeddings := s.chunkEmbeddings.upsertAll (items.map embeddingRow) }) := by
  unfold insertChunkEmbeddings at h
  split at h
  · next hempty =>
    cases h
    exact Or.inl ⟨List.isEmpty_iff.mp hempty, rfl⟩
  split at h
  · cases h
  split at h
  · next hnodup =>
    split at h
    · next hall =>
      split at h
      · cases h
        exact Or.inr ⟨hnodup, List.all_eq_true.mp hall, rfl⟩
      · cases h
    · cases h
  · cases h

theorem finalizeDenseRebuild_cases {spec : DenseRebuildSpec} {report : DenseRebuildReport}
    (h : s.finalizeDenseRebuild spec = .ok (s', report)) :
    (∀ row ∈ s.chunks, s.uncovered spec.embeddingFingerprint spec.model spec.dimension row = false) ∧
      s' = { s with
        chunks := s.chunks.update (fun row => row.embeddingFingerprint != some spec.embeddingFingerprint)
          (stampFingerprint spec.embeddingFingerprint) (fun _ => rfl) } := by
  unfold finalizeDenseRebuild at h
  split at h
  · cases h
  dsimp only at h
  split at h
  · cases h
  split at h
  · cases h
  next hmissing =>
  cases h
  refine ⟨fun row hr => ?_, rfl⟩
  have hnil := List.filter_eq_nil_iff.mp (List.length_eq_zero_iff.mp (not_not.mp hmissing)) row hr
  simpa using hnil

end ProjectionStore

end CorpusFeed
