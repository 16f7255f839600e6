import CorpusFeed.DocumentProjection
import CorpusFeed.HierarchyPath
import CorpusFeed.OrderKeys

/-! The tables behind the hierarchy backfill: what ingestion stores, the query
for candidate sections and the statements that write the chosen paths. -/

namespace CorpusFeed

structure HierarchyStore where
  /-- The LEGI articles by their canonical record, from which the other columns are read. -/
  documents : Table CanonicalDocument.documentId
  chunks : Table ChunkRow.id
  /-- The chunks with an embedding. -/
  embeddings : Table (id : Text → Text)
  graphEdges : Table CanonicalGraphEdge.edgeId
  sections : Table SectionTa.metadataKey
  textStructs : Table TextStruct.metadataKey

/-- An article as the projection accepts it. -/
structure AcceptedArticle extends ParsedArticle where
  accepted : toCanonicalDocument.validate = none

inductive LegiItem where
  | article (article : AcceptedArticle)
  | sectionTa (root : SectionTa)
  | textStruct (root : TextStruct)

structure LegiHierarchyBackfillScope where
  documentIds : List Text
  sectionSourceUids : List Text
  textSourceUids : List Text

structure LegiHierarchyBackfillReport where
  documentsUpdated : Nat
  embeddingsInvalidated : Nat
deriving DecidableEq

def LegiHierarchyBackfillScope.isEmpty (scope : LegiHierarchyBackfillScope) : Bool :=
  scope.documentIds.isEmpty && scope.sectionSourceUids.isEmpty && scope.textSourceUids.isEmpty

def fullScope : LegiHierarchyBackfillScope := ⟨[], [], []⟩

def lienSectionTa : Text := "LIEN_SECTION_TA".toList

def lienArt : Text := "LIEN_ART".toList

namespace LegiItem

def documentId? : LegiItem → Option Text
  | .article a => some a.documentId
  | _ => none

def sectionSourceUid? : LegiItem → Option Text
  | .sectionTa root => root.sourceUid
  | _ => none

def textSourceUid? : LegiItem → Option Text
  | .textStruct root => some root.sourceUid
  | _ => none

end LegiItem

/-- What a run ingested. -/
def scopeOf (items : List LegiItem) : LegiHierarchyBackfillScope where
  documentIds := items.filterMap LegiItem.documentId?
  sectionSourceUids := items.filterMap LegiItem.sectionSourceUid?
  textSourceUids := items.filterMap LegiItem.textSourceUid?

namespace HierarchyStore

def empty : HierarchyStore := ⟨Table.empty, Table.empty, Table.empty, Table.empty, Table.empty, Table.empty⟩

def upsertArticleChunk (chunks : Table ChunkRow.id) (chunk : CanonicalChunk) : Table ChunkRow.id :=
  chunks.upsert ⟨chunk, ProjectionStore.chunkFingerprint (chunks.find? chunk.chunkId) chunk none⟩

def ingest (s : HierarchyStore) : LegiItem → HierarchyStore
  | .article a =>
    { s with
      documents := s.documents.upsert a.toCanonicalDocument
      chunks := a.chunks.foldl upsertArticleChunk s.chunks
      graphEdges := s.graphEdges.upsertAll a.publisherEdges }
  | .sectionTa root => { s with sections := s.sections.upsert root }
  | .textStruct root => { s with textStructs := s.textStructs.upsert root }

def ingestAll (s : HierarchyStore) (items : List LegiItem) : HierarchyStore := items.foldl ingest s

def isDirectEdge (document : CanonicalDocument) (edge : CanonicalGraphEdge) : Bool :=
  edge.fromDocumentId == document.documentId && edge.edgeSource == "publisher".toList &&
    edge.sourceTag == lienSectionTa

/-- `SECTION_TA` rows of one source uid. A missing uid joins nothing. -/
def sectionsOf (s : HierarchyStore) (uid : Option Text) : List SectionTa :=
  s.sections.rows.filter fun root => root.sourceUid.isSome && root.sourceUid == uid

def directCandidates (s : HierarchyStore) (scope : LegiHierarchyBackfillScope) (document : CanonicalDocument) :
    List HierarchyCandidate :=
  (s.graphEdges.rows.filter (isDirectEdge document)).flatMap fun edge =>
    if scope.isEmpty || scope.documentIds.contains document.documentId ||
        edge.toSourceUid.any scope.sectionSourceUids.contains then
      (s.sectionsOf edge.toSourceUid).map fun root => ⟨document, edge.attributes, root, none, 0, edge.edgeId⟩
    else []

/-- The section links before a position of a structure. -/
def sectionLinksBefore (text : TextStruct) (index : Nat) : List TextStructLink :=
  (text.structureLinks.take index).filter fun link => link.sourceTag == lienSectionTa

/-- The target of the nearest section link before a position. -/
def pairedSection (text : TextStruct) (index : Nat) : Option Text :=
  ((sectionLinksBefore text index).filterMap TextStructLink.targetSourceUid).getLast?

def isArticleLink (document : CanonicalDocument) (link : TextStructLink) : Bool :=
  link.sourceTag == lienArt && link.targetSourceUid == some document.sourceUid

def textCandidatesAt (s : HierarchyStore) (scope : LegiHierarchyBackfillScope) (document : CanonicalDocument)
    (text : TextStruct) (link : TextStructLink) (index : Nat) : List HierarchyCandidate :=
  match pairedSection text index with
  | none => []
  | some uid =>
    if scope.isEmpty || scope.documentIds.contains document.documentId || scope.sectionSourceUids.contains uid ||
        scope.textSourceUids.contains text.sourceUid then
      (s.sectionsOf (some uid)).map fun root => ⟨document, link.attributes, root,
        some (sectionLinksBefore text index), 1, text.metadataKey ++ ':' :: padDecimal 1 (index + 1)⟩
    else []

/-- The fallback of articles without a direct edge. -/
def textCandidates (s : HierarchyStore) (scope : LegiHierarchyBackfillScope) (document : CanonicalDocument) :
    List HierarchyCandidate :=
  if s.graphEdges.rows.any (isDirectEdge document) then []
  else s.textStructs.rows.flatMap fun text =>
    (text.structureLinks.zipIdx.filter fun entry => isArticleLink document entry.1).flatMap fun entry =>
      s.textCandidatesAt scope document text entry.1 entry.2

def documentCandidates (s : HierarchyStore) (scope : LegiHierarchyBackfillScope) (document : CanonicalDocument) :
    List HierarchyCandidate :=
  s.directCandidates scope document ++ s.textCandidates scope document

def hierarchyCandidates (s : HierarchyStore) (scope : LegiHierarchyBackfillScope) : List HierarchyCandidate :=
  s.documents.rows.flatMap (s.documentCandidates scope)

def candidateOrder (collation : Collation) : KeyOrder HierarchyCandidate :=
  ((KeyOrder.text collation).on fun c => c.document.documentId).thenBy <|
    (KeyOrder.number.on HierarchyCandidate.sourceRank).thenBy <|
    ((KeyOrder.text collation).descNullsLast.on fun c => c.root.validFrom).thenBy <|
    ((KeyOrder.text collation).on fun c => c.root.metadataKey).thenBy <|
    (KeyOrder.text collation).on HierarchyCandidate.tieBreaker

def orderedCandidates (collation : Collation) (s : HierarchyStore) (scope : LegiHierarchyBackfillScope) :
    List HierarchyCandidate :=
  (candidateOrder collation).sort (s.hierarchyCandidates scope)

/-- The enriched records, one for each article whose chosen path is deeper. -/
def hierarchyUpdates (collation : Collation) (s : HierarchyStore) (scope : LegiHierarchyBackfillScope) :
    List CanonicalDocument :=
  (selectHierarchyBackfillCandidates [] (s.orderedCandidates collation scope)).filterMap enrichedArticleHierarchy

def updateDocument (update document : CanonicalDocument) : CanonicalDocument :=
  { update with documentId := document.documentId }

theorem updateDocument_id (update document : CanonicalDocument) :
    (updateDocument update document).documentId = document.documentId := rfl

/-- The columns that the chunk of the same position in the record gives. -/
def updateChunk (update : CanonicalDocument) (row : ChunkRow) : ChunkRow where
  chunk := match update.chunks[row.chunk.chunkIndex]? with
    | none => row.chunk
    | some chunk =>
      { row.chunk with
        contextualizedBody := chunk.contextualizedBody
        chunking := if chunk.chunking.isEmpty then row.chunk.chunking else chunk.chunking
        boundary := if chunk.boundary.isEmpty then row.chunk.boundary else chunk.boundary
        hierarchyPath := chunk.hierarchyPath }
  embeddingFingerprint := none

theorem updateChunk_id (update : CanonicalDocument) (row : ChunkRow) : (updateChunk update row).id = row.id := by
  unfold updateChunk ChunkRow.id
  dsimp only
  split <;> rfl

def embeddingsOf (s : HierarchyStore) (documentId chunkId : Text) : Bool :=
  (s.chunks.find? chunkId).any fun row => row.chunk.documentId == documentId

def applyUpdate (s : HierarchyStore) (update : CanonicalDocument) : HierarchyStore :=
  { s with
    embeddings := s.embeddings.filter fun chunkId => !s.embeddingsOf update.documentId chunkId
    documents := s.documents.update (fun document => document.documentId == update.documentId)
      (updateDocument update) (updateDocument_id update)
    chunks := s.chunks.update (fun row => row.chunk.documentId == update.documentId) (updateChunk update)
      (updateChunk_id update) }

/-- The updates in one transaction, with the number of embeddings they delete. -/
def applyUpdates (s : HierarchyStore) (invalidated : Nat) : List CanonicalDocument → HierarchyStore × Nat
  | [] => (s, invalidated)
  | update :: updates =>
    applyUpdates (s.applyUpdate update)
      (invalidated + (s.embeddings.rows.filter (s.embeddingsOf update.documentId)).length) updates

def backfill (collation : Collation) (s : HierarchyStore) (scope : LegiHierarchyBackfillScope) :
    HierarchyStore × LegiHierarchyBackfillReport :=
  let updates := s.hierarchyUpdates collation scope
  let (s', invalidated) := s.applyUpdates 0 updates
  (s', ⟨updates.length, invalidated⟩)

/-- An ingest run: its members, then the backfill of what it ingested. -/
def ingestRun (collation : Collation) (s : HierarchyStore) (items : List LegiItem) : HierarchyStore :=
  let ingested := s.ingestAll items
  if (scopeOf items).isEmpty then ingested else (ingested.backfill collation (scopeOf items)).1

def ingestRuns (collation : Collation) (s : HierarchyStore) (runs : List (List LegiItem)) : HierarchyStore :=
  runs.foldl (ingestRun collation) s

def pathOf (s : HierarchyStore) (documentId : Text) : Option (List Text) :=
  (s.documents.find? documentId).map CanonicalDocument.hierarchyPath

def contextualizedBodyOf (s : HierarchyStore) (chunkId : Text) : Option Text :=
  (s.chunks.find? chunkId).map fun row => row.chunk.contextualizedBody

end HierarchyStore

end CorpusFeed
