import CorpusFeed.ScopedTables
import CorpusFeed.ReplaceSetDigest
import CorpusFeed.Corpus
import CorpusFeed.CanonicalDocument

/-! The replicated tables of one corpus, as the producer's `public` schema and a
client's generation both hold them: the primary keys, the foreign keys and the
statements an incremental package is applied with. `columns` stands for the
columns that no key and no statement looks at; in the tables of the replace-sets they
have names and cells, which the digest of a set is taken of. -/

namespace CorpusFeed

namespace Replica

structure DocumentRow where
  documentId : Text
  columns : Json

structure OfficialApiResponseRow where
  responseId : Nat
  columns : Json

structure GraphEdgeRow where
  edgeId : Text
  fromDocumentId : Option Text
  toDocumentId : Option Text
  columns : Json

structure LegiMetadataRootRow where
  metadataKey : Text
  columns : Json

structure CitationResolutionRow where
  corpus : Text
  citationKey : Text
  legifranceResponseId : Option Nat
  columns : Json

structure DecisionCitationRow where
  decisionDocumentId : Text
  sourceResponseId : Nat
  visaIndex : Nat
  citationKey : Text
  columns : Json

structure ChunkRow where
  documentId : Text
  chunkIndex : Nat
  columns : List (Text × Cell)

structure ChunkEmbeddingRow where
  chunkId : Text
  columns : List (Text × Cell)

def zoneNames : List Text :=
  ["motivations", "moyens", "dispositif", "expose", "introduction", "annexes"].map String.toList

structure ZoneUnitRow where
  documentId : Text
  zone : Text
  fragmentIndex : Nat
  columns : List (Text × Cell)
  zoneChecked : zone ∈ zoneNames

structure ZoneUnitEmbeddingRow where
  zoneUnitId : Text
  columns : List (Text × Cell)

structure DecisionZonesRow where
  documentId : Text
  columns : List (Text × Cell)

namespace CitationResolutionRow

def key (row : CitationResolutionRow) : Text × Text := (row.corpus, row.citationKey)

/-- `ON DELETE SET NULL` for the response that is gone. -/
def forget (responseId : Nat) (row : CitationResolutionRow) : CitationResolutionRow :=
  if row.legifranceResponseId = some responseId then { row with legifranceResponseId := none } else row

@[simp] theorem key_forget (responseId : Nat) (row : CitationResolutionRow) :
    (row.forget responseId).key = row.key := by
  rw [forget]
  split
  · rfl
  · rfl

end CitationResolutionRow

/-- The primary key spells out the columns of the table's second unique key. -/
def DecisionCitationRow.occurrenceId (row : DecisionCitationRow) : Text :=
  row.decisionDocumentId ++ '#' :: (padDecimal 1 row.visaIndex ++ '#' :: row.citationKey)

def ChunkRow.chunkId (row : ChunkRow) : Text := chunkIdOf row.documentId row.chunkIndex

def ZoneUnitRow.zoneUnitId (row : ZoneUnitRow) : Text :=
  (row.documentId ++ '#' :: row.zone) ++ '#' :: padDecimal 1 row.fragmentIndex

/-- How a response id is written as a scope key. -/
def responseKey (responseId : Nat) : Text := padDecimal 1 responseId

structure Tables where
  documents : Table DocumentRow.documentId
  officialApiResponses : Table OfficialApiResponseRow.responseId
  graphEdges : Table GraphEdgeRow.edgeId
  legiMetadataRoots : Table LegiMetadataRootRow.metadataKey
  citationResolutions : Table CitationResolutionRow.key
  decisionCitations : Table DecisionCitationRow.occurrenceId
  chunks : Table ChunkRow.chunkId
  chunkEmbeddings : Table ChunkEmbeddingRow.chunkId
  zoneUnits : Table ZoneUnitRow.zoneUnitId
  zoneUnitEmbeddings : Table ZoneUnitEmbeddingRow.zoneUnitId
  decisionZones : Table DecisionZonesRow.documentId

structure ForeignKeys (db : Tables) : Prop where
  edgeFrom : ∀ e ∈ db.graphEdges, ∀ d, e.fromDocumentId = some d → db.documents.hasKey d = true
  edgeTo : ∀ e ∈ db.graphEdges, ∀ d, e.toDocumentId = some d → db.documents.hasKey d = true
  citationDocument : ∀ c ∈ db.decisionCitations, db.documents.hasKey c.decisionDocumentId = true
  citationResponse : ∀ c ∈ db.decisionCitations, db.officialApiResponses.hasKey c.sourceResponseId = true
  resolutionResponse : ∀ r ∈ db.citationResolutions, ∀ id, r.legifranceResponseId = some id →
    db.officialApiResponses.hasKey id = true
  chunkDocument : ∀ c ∈ db.chunks, db.documents.hasKey c.documentId = true
  embeddingChunk : ∀ e ∈ db.chunkEmbeddings, db.chunks.hasKey e.chunkId = true
  unitDocument : ∀ u ∈ db.zoneUnits, db.documents.hasKey u.documentId = true
  embeddingUnit : ∀ e ∈ db.zoneUnitEmbeddings, db.zoneUnits.hasKey e.zoneUnitId = true
  zonesDocument : ∀ z ∈ db.decisionZones, db.documents.hasKey z.documentId = true

/-- Table by table the same rows. -/
structure Tables.Same (a b : Tables) : Prop where
  documents : a.documents.Same b.documents
  officialApiResponses : a.officialApiResponses.Same b.officialApiResponses
  graphEdges : a.graphEdges.Same b.graphEdges
  legiMetadataRoots : a.legiMetadataRoots.Same b.legiMetadataRoots
  citationResolutions : a.citationResolutions.Same b.citationResolutions
  decisionCitations : a.decisionCitations.Same b.decisionCitations
  chunks : a.chunks.Same b.chunks
  chunkEmbeddings : a.chunkEmbeddings.Same b.chunkEmbeddings
  zoneUnits : a.zoneUnits.Same b.zoneUnits
  zoneUnitEmbeddings : a.zoneUnitEmbeddings.Same b.zoneUnitEmbeddings
  decisionZones : a.decisionZones.Same b.decisionZones

namespace Tables

variable (db : Tables)

/-- `chunk_id IN (SELECT chunk_id FROM chunks WHERE document_id = …)`. -/
def chunkOf (documentId : Text) (chunkId : Text) : Bool :=
  db.chunks.rows.any fun c => c.documentId == documentId && c.chunkId == chunkId

def zoneUnitOf (documentId : Text) (zoneUnitId : Text) : Bool :=
  db.zoneUnits.rows.any fun u => u.documentId == documentId && u.zoneUnitId == zoneUnitId

/-- The embeddings go with their chunks. -/
def deleteChunks (documentId : Text) : Tables :=
  { db with
    chunks := db.chunks.filter fun c => c.documentId ≠ documentId
    chunkEmbeddings := db.chunkEmbeddings.filter fun e => !db.chunkOf documentId e.chunkId }

def deleteChunkEmbeddings (documentId : Text) : Tables :=
  { db with chunkEmbeddings := db.chunkEmbeddings.filter fun e => !db.chunkOf documentId e.chunkId }

def deleteZoneUnits (documentId : Text) : Tables :=
  { db with
    zoneUnits := db.zoneUnits.filter fun u => u.documentId ≠ documentId
    zoneUnitEmbeddings := db.zoneUnitEmbeddings.filter fun e => !db.zoneUnitOf documentId e.zoneUnitId }

def deleteDecisionZones (documentId : Text) : Tables :=
  { db with decisionZones := db.decisionZones.filter fun z => z.documentId ≠ documentId }

/-- A document goes with everything that refers to it. -/
def deleteDocument (documentId : Text) : Tables :=
  { ((db.deleteChunks documentId).deleteZoneUnits documentId).deleteDecisionZones documentId with
    documents := db.documents.filter fun d => d.documentId ≠ documentId
    graphEdges := db.graphEdges.filter fun e => e.fromDocumentId ≠ some documentId ∧ e.toDocumentId ≠ some documentId
    decisionCitations := db.decisionCitations.filter fun c => c.decisionDocumentId ≠ documentId }

def deleteResponse (responseId : Nat) : Tables :=
  { db with
    officialApiResponses := db.officialApiResponses.filter fun r => r.responseId ≠ responseId
    decisionCitations := db.decisionCitations.filter fun c => c.sourceResponseId ≠ responseId
    citationResolutions := db.citationResolutions.update (fun _ => true) (CitationResolutionRow.forget responseId)
      (CitationResolutionRow.key_forget responseId) }

def deleteMetadataRoot (metadataKey : Text) : Tables :=
  { db with legiMetadataRoots := db.legiMetadataRoots.filter fun r => r.metadataKey ≠ metadataKey }

/-- The delete key is rebuilt from the package's corpus and the scope key. -/
def deleteResolution (corpus : Corpus) (citationKey : Text) : Tables :=
  { db with citationResolutions := db.citationResolutions.filter fun r => r.key ≠ (corpus.name, citationKey) }

/-- The delete key is read as a response id. -/
def deleteResponseKey (scopeKey : Text) : Tables :=
  match db.officialApiResponses.rows.find? fun r => responseKey r.responseId = scopeKey with
  | none => db
  | some row => db.deleteResponse row.responseId

def upsertDocuments (rows : List DocumentRow) : Option Tables :=
  (db.documents.upsertRows (fun _ => true) rows).map fun t => { db with documents := t }

def upsertResponses (rows : List OfficialApiResponseRow) : Option Tables :=
  (db.officialApiResponses.upsertRows (fun _ => true) rows).map fun t => { db with officialApiResponses := t }

def upsertEdges (rows : List GraphEdgeRow) : Option Tables :=
  (db.graphEdges.upsertRows (fun e => e.fromDocumentId.all db.documents.hasKey &&
    e.toDocumentId.all db.documents.hasKey) rows).map fun t => { db with graphEdges := t }

def upsertMetadataRoots (rows : List LegiMetadataRootRow) : Option Tables :=
  (db.legiMetadataRoots.upsertRows (fun _ => true) rows).map fun t => { db with legiMetadataRoots := t }

def upsertResolutions (rows : List CitationResolutionRow) : Option Tables :=
  (db.citationResolutions.upsertRows (fun r => r.legifranceResponseId.all db.officialApiResponses.hasKey) rows).map
    fun t => { db with citationResolutions := t }

def upsertCitations (rows : List DecisionCitationRow) : Option Tables :=
  (db.decisionCitations.upsertRows (fun c => db.documents.hasKey c.decisionDocumentId &&
    db.officialApiResponses.hasKey c.sourceResponseId) rows).map fun t => { db with decisionCitations := t }

def insertChunks (rows : List ChunkRow) : Option Tables :=
  (db.chunks.insertRows (fun c => db.documents.hasKey c.documentId) rows).map fun t => { db with chunks := t }

def insertChunkEmbeddings (rows : List ChunkEmbeddingRow) : Option Tables :=
  (db.chunkEmbeddings.insertRows (fun e => db.chunks.hasKey e.chunkId) rows).map
    fun t => { db with chunkEmbeddings := t }

def insertZoneUnits (rows : List ZoneUnitRow) : Option Tables :=
  (db.zoneUnits.insertRows (fun u => db.documents.hasKey u.documentId) rows).map fun t => { db with zoneUnits := t }

def insertZoneUnitEmbeddings (rows : List ZoneUnitEmbeddingRow) : Option Tables :=
  (db.zoneUnitEmbeddings.insertRows (fun e => db.zoneUnits.hasKey e.zoneUnitId) rows).map
    fun t => { db with zoneUnitEmbeddings := t }

def insertDecisionZones (rows : List DecisionZonesRow) : Option Tables :=
  (db.decisionZones.insertRows (fun z => db.documents.hasKey z.documentId) rows).map
    fun t => { db with decisionZones := t }

end Tables

theorem zone_hash_not_mem {zone : Text} (h : zone ∈ zoneNames) : '#' ∉ zone := by
  have hall : ∀ name ∈ zoneNames, '#' ∉ name := by decide
  exact hall zone h

theorem chunkId_inj {a b : ChunkRow} (h : a.chunkId = b.chunkId) : a.documentId = b.documentId :=
  (chunkIdOf_inj h).1

theorem zoneUnitId_inj {a b : ZoneUnitRow} (h : a.zoneUnitId = b.zoneUnitId) : a.documentId = b.documentId := by
  have hdigits : ∀ n, '#' ∉ padDecimal 1 n := fun n hn => absurd (isDigit_of_mem_padDecimal hn) (by decide)
  have hstem := (stem_suffix_unique (hdigits _) (hdigits _) h).1
  exact (stem_suffix_unique (zone_hash_not_mem a.zoneChecked) (zone_hash_not_mem b.zoneChecked) hstem).1

theorem responseKey_inj {a b : Nat} (h : responseKey a = responseKey b) : a = b := padDecimal_injective 1 h

end Replica

end CorpusFeed
