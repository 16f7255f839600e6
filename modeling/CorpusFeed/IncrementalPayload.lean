import CorpusFeed.ReplicatedTables
import CorpusFeed.OutboxFence

/-! What an incremental build makes of the scopes of its window: the touched
keys, coalesced table by table with the widest operation winning, and the rows
that the producer holds for them now. The client applies them in a fixed order. -/

namespace CorpusFeed

namespace Replica

/-- The key sets a build coalesces its scopes into. -/
inductive TouchedTable where
  | documents
  | officialApiResponses
  | legiMetadataRoots
  | citationResolutions
  | decisionCitations
  | chunks
  | chunkEmbeddings
  | zoneUnits
  | decisionZones
deriving DecidableEq

def touchedTable (name : Text) : Option TouchedTable :=
  if name = "documents".toList then some .documents
  else if name = "official_api_responses".toList then some .officialApiResponses
  else if name = "legi_metadata_roots".toList then some .legiMetadataRoots
  else if name = "legislation_citation_resolutions".toList then some .citationResolutions
  else if name = "decision_legislation_citations".toList then some .decisionCitations
  else if name = "chunks".toList then some .chunks
  else if name = "chunk_embeddings".toList then some .chunkEmbeddings
  else if name = "zone_units".toList ∨ name = "zone_unit_embeddings".toList then some .zoneUnits
  else if name = "decision_zones".toList then some .decisionZones
  else none

/-- The keys of a sorted set. -/
def insertKey (key : Text) : List Text → List Text
  | [] => [key]
  | k :: keys => if key = k then k :: keys else if key < k then key :: k :: keys else k :: insertKey key keys

abbrev Touched := TouchedTable → List Text

def noteScope (touched : Touched) (scope : ChangedScope) : Except BuildError Touched :=
  match touchedTable scope.tableName with
  | none => .error (.storage (.outbox
      s!"unknown replicated table in outbox scope: `{String.ofList scope.tableName}`"))
  | some table => .ok (Function.update touched table (insertKey scope.scopeKey (touched table)))

def coalesce : List ChangedScope → Touched → Except BuildError Touched
  | [], touched => .ok touched
  | scope :: scopes, touched =>
    match noteScope touched scope with
    | .error e => .error e
    | .ok touched => coalesce scopes touched

/-- A document scope affects its chunks: the two widen to one set. -/
def chunksWide (touched : Touched) : List Text :=
  (touched .documents).foldl (fun keys k => insertKey k keys) (touched .chunks)

def chunkEmbeddingsOnly (touched : Touched) : List Text :=
  (touched .chunkEmbeddings).filter fun k => k ∉ chunksWide touched

/-- The rows of a replace-set, by its table group. -/
inductive ReplaceSetRows where
  | chunksWithEmbeddings (chunks : List ChunkRow) (embeddings : List ChunkEmbeddingRow)
  | chunkEmbeddings (embeddings : List ChunkEmbeddingRow)
  | zoneUnits (units : List ZoneUnitRow) (embeddings : List ZoneUnitEmbeddingRow)
  | decisionZones (zones : List DecisionZonesRow)

def ReplaceSetRows.group : ReplaceSetRows → ReplaceSetGroup
  | .chunksWithEmbeddings _ _ => .chunksWithEmbeddings
  | .chunkEmbeddings _ => .chunkEmbeddings
  | .zoneUnits _ _ => .zoneUnits
  | .decisionZones _ => .decisionZones

/-! What the digest of a set is taken of: each row as a JSON object, its timestamps in the
time zone of the session that reads it. -/

def ChunkRow.cells (row : ChunkRow) : List (Text × Cell) :=
  ("chunk_id".toList, .text row.chunkId) :: ("document_id".toList, .text row.documentId) ::
    ("chunk_index".toList, .integer row.chunkIndex) :: row.columns

def ChunkEmbeddingRow.cells (row : ChunkEmbeddingRow) : List (Text × Cell) :=
  ("chunk_id".toList, .text row.chunkId) :: row.columns

def ZoneUnitRow.cells (row : ZoneUnitRow) : List (Text × Cell) :=
  ("zone_unit_id".toList, .text row.zoneUnitId) :: ("document_id".toList, .text row.documentId) ::
    ("zone".toList, .text row.zone) :: ("fragment_index".toList, .integer row.fragmentIndex) :: row.columns

def ZoneUnitEmbeddingRow.cells (row : ZoneUnitEmbeddingRow) : List (Text × Cell) :=
  ("zone_unit_id".toList, .text row.zoneUnitId) :: row.columns

def DecisionZonesRow.cells (row : DecisionZonesRow) : List (Text × Cell) :=
  ("document_id".toList, .text row.documentId) :: row.columns

/-- The rows of each table, by the table's name. -/
def ReplaceSetRows.tables : ReplaceSetRows → List (Text × List (List (Text × Cell)))
  | .chunksWithEmbeddings chunks embeddings =>
    [("chunk_embeddings".toList, embeddings.map ChunkEmbeddingRow.cells), ("chunks".toList, chunks.map ChunkRow.cells)]
  | .chunkEmbeddings embeddings => [("chunk_embeddings".toList, embeddings.map ChunkEmbeddingRow.cells)]
  | .zoneUnits units embeddings =>
    [("zone_unit_embeddings".toList, embeddings.map ZoneUnitEmbeddingRow.cells),
      ("zone_units".toList, units.map ZoneUnitRow.cells)]
  | .decisionZones zones => [("decision_zones".toList, zones.map DecisionZonesRow.cells)]

/-- A connection to one of the databases: the order of its texts, and its session. -/
structure Reader where
  collation : Collation
  session : Session

def cellsObject (s : Session) (cells : List (Text × Cell)) : Json :=
  .object ((cells.insertionSort fun a b => a.1 ≤ b.1).map fun entry => (entry.1, s.cellJson entry.2))

def Reader.digest (digestBytes : Text → Text) (reader : Reader) (rows : ReplaceSetRows) : Text :=
  setDigestOverRows digestBytes (rows.tables.map fun entry => (entry.1, entry.2.map (cellsObject reader.session)))

structure ReplaceSet (D : Type) where
  documentId : Text
  rows : ReplaceSetRows
  setDigest : D

structure IncrementalPayload (D : Type) where
  documents : List DocumentRow × List Text
  officialApiResponses : List OfficialApiResponseRow × List Text
  graphEdges : List GraphEdgeRow
  legiMetadataRoots : List LegiMetadataRootRow × List Text
  citationResolutions : List CitationResolutionRow × List Text
  decisionCitations : List DecisionCitationRow
  replaceSets : List (ReplaceSet D)

section Build

variable {D : Type} (collation : Collation) (digest : ReplaceSetRows → D)

def byText {R : Type} (key : R → Text) : KeyOrder R := (KeyOrder.text collation).on key

/-- The current rows of each key; a key without a row is a delete. -/
def baseOps {R : Type} (read : Text → List R) (keys : List Text) : List R × List Text :=
  (keys.flatMap read, keys.filter fun k => (read k).isEmpty)

namespace Tables

variable (db : Tables)

/-- The single read path of a replace-set, for the builder and for the client's check. -/
def replaceSetRows (group : ReplaceSetGroup) (documentId : Text) : ReplaceSetRows :=
  match group with
  | .chunksWithEmbeddings =>
    .chunksWithEmbeddings
      (db.chunks.scopeRows (byText collation ChunkRow.chunkId) fun c => c.documentId == documentId)
      (db.chunkEmbeddings.scopeRows (byText collation ChunkEmbeddingRow.chunkId)
        fun e => db.chunkOf documentId e.chunkId)
  | .chunkEmbeddings =>
    .chunkEmbeddings
      (db.chunkEmbeddings.scopeRows (byText collation ChunkEmbeddingRow.chunkId)
        fun e => db.chunkOf documentId e.chunkId)
  | .zoneUnits =>
    .zoneUnits
      (db.zoneUnits.scopeRows (byText collation ZoneUnitRow.zoneUnitId) fun u => u.documentId == documentId)
      (db.zoneUnitEmbeddings.scopeRows (byText collation ZoneUnitEmbeddingRow.zoneUnitId)
        fun e => db.zoneUnitOf documentId e.zoneUnitId)
  | .decisionZones =>
    .decisionZones (db.decisionZones.scopeRows (byText collation DecisionZonesRow.documentId)
      fun z => z.documentId == documentId)

def materializeReplaceSet (group : ReplaceSetGroup) (documentId : Text) : ReplaceSet D :=
  ⟨documentId, db.replaceSetRows collation group documentId, digest (db.replaceSetRows collation group documentId)⟩

/-- The set of a deleted document is left to the cascade of its delete. -/
def skipsSet (touched : Touched) (documentId : Text) : Bool :=
  decide (documentId ∈ touched .documents) && !db.documents.hasKey documentId

def documentOps (keys : List Text) : List DocumentRow × List Text :=
  baseOps (fun k => db.documents.scopeRows (byText collation DocumentRow.documentId) fun d => d.documentId == k) keys

def responseOps (keys : List Text) : List OfficialApiResponseRow × List Text :=
  baseOps (fun k => db.officialApiResponses.scopeRows (KeyOrder.number.on OfficialApiResponseRow.responseId)
    fun r => responseKey r.responseId == k) keys

/-- A document scope re-upserts the document's current edges. -/
def edgeRows (keys : List Text) : List GraphEdgeRow :=
  keys.flatMap fun k => db.graphEdges.scopeRows (byText collation GraphEdgeRow.edgeId)
    fun e => e.fromDocumentId == some k

def rootOps (keys : List Text) : List LegiMetadataRootRow × List Text :=
  baseOps (fun k => db.legiMetadataRoots.scopeRows (byText collation LegiMetadataRootRow.metadataKey)
    fun r => r.metadataKey == k) keys

/-- The key is looked up among the resolutions of the package's corpus. -/
def resolutionOps (corpus : Corpus) (keys : List Text) : List CitationResolutionRow × List Text :=
  baseOps (fun k => db.citationResolutions.scopeRows
    (((byText collation Prod.fst).thenBy (byText collation Prod.snd)).on CitationResolutionRow.key)
    fun r => r.key == (corpus.name, k)) keys

/-- A decision's citations as they are now; their deletes are deferred. -/
def citationRows (keys : List Text) : List DecisionCitationRow :=
  keys.flatMap fun k => db.decisionCitations.scopeRows (byText collation DecisionCitationRow.occurrenceId)
    fun c => c.decisionDocumentId == k

def replaceSets (touched : Touched) : List (ReplaceSet D) :=
  ((chunksWide touched).filter fun k => !db.skipsSet touched k).map
      (db.materializeReplaceSet collation digest .chunksWithEmbeddings) ++
    ((chunkEmbeddingsOnly touched).map (db.materializeReplaceSet collation digest .chunkEmbeddings) ++
    ((touched .zoneUnits).map (db.materializeReplaceSet collation digest .zoneUnits) ++
    (touched .decisionZones).map (db.materializeReplaceSet collation digest .decisionZones)))

def materialize (corpus : Corpus) (touched : Touched) : IncrementalPayload D where
  documents := db.documentOps collation (touched .documents)
  officialApiResponses := db.responseOps (touched .officialApiResponses)
  graphEdges := db.edgeRows collation (touched .documents)
  legiMetadataRoots := db.rootOps collation (touched .legiMetadataRoots)
  citationResolutions := db.resolutionOps collation corpus (touched .citationResolutions)
  decisionCitations := db.citationRows collation (touched .decisionCitations)
  replaceSets := db.replaceSets collation digest touched

end Tables

/-- The content of an incremental package, or `none` for an empty window. -/
def buildPayload (db : Tables) (corpus : Corpus) (scopes : List ChangedScope) :
    Except BuildError (Option (IncrementalPayload D)) :=
  match scopes with
  | [] => .ok none
  | scopes =>
    match coalesce scopes fun _ => [] with
    | .error e => .error e
    | .ok touched => .ok (some (db.materialize collation digest corpus touched))

end Build

section Apply

variable {D : Type} [DecidableEq D] (collation : Collation) (digest : ReplaceSetRows → D)

/-- The statements of a transaction fail on a violated constraint. -/
def statement {α : Type} (result : Option α) : Except SyncError α :=
  match result with
  | none => .error (.storage (.postgresClient "constraint violated"))
  | some a => .ok a

namespace Tables

variable (db : Tables)

/-- The scope's rows are cleared, then the set's rows go in, parents first. -/
def applyReplaceSet (documentId : Text) : ReplaceSetRows → Option Tables
  | .chunksWithEmbeddings chunks embeddings =>
    ((db.deleteChunks documentId).insertChunks chunks).bind fun db => db.insertChunkEmbeddings embeddings
  | .chunkEmbeddings embeddings => (db.deleteChunkEmbeddings documentId).insertChunkEmbeddings embeddings
  | .zoneUnits units embeddings =>
    ((db.deleteZoneUnits documentId).insertZoneUnits units).bind fun db => db.insertZoneUnitEmbeddings embeddings
  | .decisionZones zones => (db.deleteDecisionZones documentId).insertDecisionZones zones

def applyCheckedSet (set : ReplaceSet D) : Except SyncError Tables :=
  match db.applyReplaceSet set.documentId set.rows with
  | none => .error (.storage (.postgresClient "constraint violated"))
  | some db =>
    if digest (db.replaceSetRows collation set.rows.group set.documentId) = set.setDigest then .ok db
    else .error (.reject .digestMismatch
      s!"replace_set set_digest mismatch for document `{String.ofList set.documentId}`")

def applySets : List (ReplaceSet D) → Tables → Except SyncError Tables
  | [], db => .ok db
  | set :: sets, db =>
    match applyCheckedSet collation digest db set with
    | .error e => .error e
    | .ok db => applySets sets db

/-- The files of a package in the manifest's apply order. -/
def applyIncrementalFiles (corpus : Corpus) (payload : IncrementalPayload D) : Except SyncError Tables := do
  let db ← statement (db.upsertDocuments payload.documents.1)
  let db := payload.documents.2.foldl deleteDocument db
  let db ← statement (db.upsertResponses payload.officialApiResponses.1)
  let db := payload.officialApiResponses.2.foldl deleteResponseKey db
  let db ← statement (db.upsertEdges payload.graphEdges)
  let db ← statement (db.upsertMetadataRoots payload.legiMetadataRoots.1)
  let db := payload.legiMetadataRoots.2.foldl deleteMetadataRoot db
  let db ← statement (db.upsertResolutions payload.citationResolutions.1)
  let db := payload.citationResolutions.2.foldl (fun db k => db.deleteResolution corpus k) db
  let db ← statement (db.upsertCitations payload.decisionCitations)
  applySets collation digest payload.replaceSets db

end Tables

end Apply

end Replica

end CorpusFeed
