import CorpusFeed.ArchivePlan
import CorpusFeed.DecimalText
import CorpusFeed.StoredVersion

/-! The ingest of the members of the planned archives, and the accounting rows
that decide whether a member is processed again. -/

namespace CorpusFeed

structure IngestCompatibility where
  parserVersion : Text
  schemaVersion : Text
  codeVersion : Text
  sourcePayloadHash : Text
deriving DecidableEq

inductive IngestMemberStatus where
  | discovered
  | parsed
  | inserted
  | skipped
  | failed
deriving DecidableEq

structure IngestMemberRow where
  runId : Text
  archiveName : Archive
  memberPath : Text
  status : IngestMemberStatus
  compatibility : IngestCompatibility

inductive IngestResumeAction where
  | process
  | skip
  | retry
  | blockedIncompatible
deriving DecidableEq

structure IngestResumeDecision where
  action : IngestResumeAction
  previousRunId : Option Text
  mismatchedFields : List String

def compatibilityMismatches (actual expected : IngestCompatibility) : List String :=
  (if actual.parserVersion ≠ expected.parserVersion then ["parser_version"] else []) ++
    (if actual.schemaVersion ≠ expected.schemaVersion then ["schema_version"] else []) ++
    (if actual.codeVersion ≠ expected.codeVersion then ["code_version"] else []) ++
    (if actual.sourcePayloadHash ≠ expected.sourcePayloadHash then ["source_payload_hash"] else [])

/-- The rows of `ingest_member`, the last updated one first. -/
def latestRow (rows : List IngestMemberRow) (archive : Archive) (path : Text) : Option IngestMemberRow :=
  rows.find? fun row => row.archiveName = archive ∧ row.memberPath = path

def ingestResumeDecision (rows : List IngestMemberRow) (archive : Archive) (path : Text)
    (compatibility : IngestCompatibility) : IngestResumeDecision :=
  match latestRow rows archive path with
  | none => ⟨.process, none, []⟩
  | some row =>
    let mismatched := compatibilityMismatches row.compatibility compatibility
    if mismatched ≠ [] then ⟨.blockedIncompatible, some row.runId, mismatched⟩
    else match row.status with
      | .inserted | .skipped => ⟨.skip, some row.runId, []⟩
      | .failed | .discovered | .parsed => ⟨.retry, some row.runId, []⟩

def recordIngestMember (rows : List IngestMemberRow) (row : IngestMemberRow) : List IngestMemberRow :=
  row :: rows.filter fun old => !(old.runId = row.runId ∧ old.archiveName = row.archiveName ∧
    old.memberPath = row.memberPath)

/-- What the parser makes of a member. -/
inductive ParsedMember (D : Type*) where
  | article (document : D)
  | metadata
  | unsupportedRoot
  | noText
  | invalid

structure ArchiveMember (P : Type*) where
  archive : Archive
  index : Nat
  path : Text
  payload : P

/-- The files of every archive, each under a path of its own. -/
structure ArchiveContents (P : Type*) where
  files : Archive → List (Text × P)
  paths_nodup : ∀ a, ((files a).map Prod.fst).Nodup

/-- The parser, the hash of a payload and the parsed document with its chunks and edges. -/
structure IngestSetup (P D : Type*) where
  contents : ArchiveContents P
  payloadHash : P → Text
  parse : P → ParsedMember D
  document : D → ParsedDocument

def IngestSetup.record {P D : Type*} (setup : IngestSetup P D) (d : D) : CanonicalRecord := (setup.document d).record

def IngestSetup.documentId {P D : Type*} (setup : IngestSetup P D) (d : D) : Text := (setup.record d).documentId

/-- `rejects` holds the members that this run fails to parse, and `endsBatch` those
whose batch is committed after them. A run can end after `stopAfter` members. The
hierarchy backfill that comes last writes the records of `enriched`. -/
structure IngestRequest where
  runId : Text
  parserVersion : Text
  schemaVersion : Text
  codeVersion : Text
  filter : ArchiveSyncFilter
  rejects : Archive → Text → Bool
  endsBatch : Archive → Text → Bool
  stopAfter : Option Nat
  enriched : List CanonicalDocument

variable {P D : Type*}

def ArchiveContents.membersOf (contents : ArchiveContents P) (a : Archive) : List (ArchiveMember P) :=
  (contents.files a).zipIdx.map fun entry => ⟨a, entry.2, entry.1.1, entry.1.2⟩

/-- The vectors of embedded chunks are left out. -/
structure IngestStore (setup : IngestSetup P D) where
  rows : List IngestMemberRow
  projection : ProjectionStore Unit

namespace IngestStore

variable {setup : IngestSetup P D}

def compatibility (setup : IngestSetup P D) (req : IngestRequest) (m : ArchiveMember P) : IngestCompatibility :=
  ⟨req.parserVersion, req.schemaVersion, req.codeVersion, setup.payloadHash m.payload⟩

def record (s : IngestStore setup) (req : IngestRequest) (m : ArchiveMember P) (status : IngestMemberStatus) :
    IngestStore setup :=
  { s with rows := recordIngestMember s.rows ⟨req.runId, m.archive, m.path, status, compatibility setup req m⟩ }

def decision (s : IngestStore setup) (req : IngestRequest) (m : ArchiveMember P) : IngestResumeDecision :=
  ingestResumeDecision s.rows m.archive m.path (compatibility setup req m)

def parsed (setup : IngestSetup P D) (req : IngestRequest) (m : ArchiveMember P) : ParsedMember D :=
  if req.rejects m.archive m.path then .invalid else setup.parse m.payload

def insertDocument (req : IngestRequest) (s : IngestStore setup) (m : ArchiveMember P) (document : D) :
    IngestStore setup × Except StoreError Nat :=
  match s.projection.upsert (setup.record document) none with
  | .error e => (s.record req m .parsed, .error e)
  | .ok projection => ({ s.record req m .inserted with projection := projection }, .ok 0)

/-- A member that is processed for the first time or again. -/
def projectMember (req : IngestRequest) (s : IngestStore setup) (m : ArchiveMember P) :
    IngestStore setup × Except StoreError Nat :=
  match parsed setup req m with
  | .article document => insertDocument req s m document
  | .metadata | .unsupportedRoot | .noText => (s.record req m .skipped, .ok 0)
  | .invalid => (s.record req m .failed, .ok 1)

/-- The store within the transaction of the batch and the number of failed members,
after one member. -/
def processMember (req : IngestRequest) (s : IngestStore setup) (m : ArchiveMember P) :
    IngestStore setup × Except StoreError Nat :=
  match (s.decision req m).action with
  | .skip => (if (s.decision req m).previousRunId = some req.runId then s else s.record req m .skipped, .ok 0)
  | .blockedIncompatible => (s.record req m .failed, .ok 1)
  | .process | .retry => projectMember req s m

/-- An error of the store gives up what follows the last committed batch, and ends the run. -/
def processMembers (req : IngestRequest) (committed s : IngestStore setup) :
    List (ArchiveMember P) → IngestStore setup × Except StoreError Nat
  | [] => (s, .ok 0)
  | m :: rest =>
    match processMember req s m with
    | (_, .error e) => (committed, .error e)
    | (s', .ok failed) =>
      let (s'', failed') := processMembers req (if req.endsBatch m.archive m.path then s' else committed) s' rest
      (s'', failed'.map (failed + ·))

def backfill (s : IngestStore setup) (updates : List CanonicalDocument) : IngestStore setup :=
  { s with projection := s.projection.backfillHierarchy updates }

def work (setup : IngestSetup P D) (archives : List Archive) : List (ArchiveMember P) :=
  archives.flatMap setup.contents.membersOf

/-- The members that the run visits. -/
def visited (setup : IngestSetup P D) (req : IngestRequest) (plan : ArchivePlan) : List (ArchiveMember P) :=
  match req.stopAfter with
  | none => work setup (selectArchivesToProcess plan req.filter)
  | some n => (work setup (selectArchivesToProcess plan req.filter)).take n

/-- The store after a run, and whether the run is completed. -/
def ingestLegiArchives (mirror : List Archive) (s : IngestStore setup) (req : IngestRequest) : IngestStore setup × Bool :=
  match planFromPaths mirror with
  | none => (s, false)
  | some plan =>
    match processMembers req s s (visited setup req plan) with
    | (s', .error _) => (s', false)
    | (s', .ok failed) =>
      (s'.backfill req.enriched, failed = 0 && req.stopAfter.isNone)

end IngestStore

end CorpusFeed
