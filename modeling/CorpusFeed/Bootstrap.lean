import CorpusFeed.ProducerCycle
import CorpusFeed.PublishedVerify

/-! The first baseline of a corpus: built when no media package is catalogued,
finished when an earlier run stopped, refused when it is already served. -/

namespace CorpusFeed

def StorageError.text : StorageError → String
  | .storageLockBusy path => s!"another jurisearch process is using this storage root: {path}"
  | .advisoryLockBusy dataDir key =>
    s!"another session owns the Postgres data-dir advisory lock for {dataDir} ({key})"
  | .postgresClient message => s!"postgres client error: {message}"
  | .applyLockBusy message => s!"apply/switch advisory lock is busy: {message}"
  | .generations message => s!"generation topology failed: {message}"
  | .ingestAccounting message => s!"ingest accounting failed: {message}"
  | .packageCatalog message => s!"package catalog conflict: {message}"
  | .outbox message => s!"change-log outbox failed: {message}"

def BuildError.text : BuildError → String
  | .storage error => s!"storage error: {error.text}"
  | .io message => s!"io error: {message}"
  | .json message => s!"json error: {message}"

/-- The stamps of a row of `chunks` or `zone_units` and of its embeddings. -/
structure EmbeddingStamp where
  embeddingFingerprint : Text
  model : Text
  dimension : Int

structure StampedRow where
  embeddingFingerprint : Option Text
  embeddings : List EmbeddingStamp

structure StampedTables where
  schemaVersion : Int
  chunks : List StampedRow
  zoneUnits : List StampedRow

def saturateI32 (n : Nat) : Int := (min n (2 ^ 31 - 1) : Nat)

def missingEmbeddings (params : BaselineParams) (rows : List StampedRow) : Nat :=
  (rows.filter fun row => !row.embeddings.any fun e =>
    e.embeddingFingerprint == params.embeddingFingerprint && e.model == params.embeddingModel &&
      e.dimension == saturateI32 params.embeddingDimension).length

def inconsistentFingerprints (params : BaselineParams) (rows : List StampedRow) : Nat :=
  (rows.filter fun row => row.embeddingFingerprint != some params.embeddingFingerprint).length

def bootstrapPreflight (params : BaselineParams) (tables : StampedTables) : Except BuildError Unit :=
  let fingerprint := String.ofList params.embeddingFingerprint
  let model := String.ofList params.embeddingModel
  let dimension := saturateI32 params.embeddingDimension
  let missingChunks := missingEmbeddings params tables.chunks
  let inconsistentChunks := inconsistentFingerprints params tables.chunks
  let missingZones := missingEmbeddings params tables.zoneUnits
  let inconsistentZones := inconsistentFingerprints params tables.zoneUnits
  rejectIf (tables.schemaVersion ≠ currentSchemaVersion) (missing
    s!"producer schema_version {tables.schemaVersion} != CURRENT_SCHEMA_VERSION {currentSchemaVersion}; migrate the producer database before publishing the first baseline") <|
  rejectIf (0 < missingChunks) (missing
    s!"{missingChunks} `chunks` row(s) have no matching `chunk_embeddings` under fingerprint `{fingerprint}` / model `{model}` / dimension {dimension}; the corpus is not fully embedded — re-embed before publishing") <|
  rejectIf (0 < inconsistentChunks) (missing
    s!"{inconsistentChunks} `chunks` row(s) carry an embedding_fingerprint other than `{fingerprint}`; the stored fingerprint is inconsistent with the publish fingerprint") <|
  rejectIf (0 < missingZones) (missing
    s!"{missingZones} `zone_units` row(s) have no matching `zone_unit_embeddings` under fingerprint `{fingerprint}` / model `{model}` / dimension {dimension}; zone units are not fully embedded") <|
  rejectIf (0 < inconsistentZones) (missing
    s!"{inconsistentZones} `zone_units` row(s) carry an embedding_fingerprint other than `{fingerprint}`") <|
  .ok ()

/-- The field in which a media row is not the canonical first baseline. -/
def divergingField (row : CatalogRow) (corpus : Corpus) (params : BaselineParams) : Option String :=
  let expectedId := corpus.name ++ "-1-1".toList
  let expectedGeneration := generationName corpus.name 1
  if row.packageId ≠ expectedId then
    some s!"package_id `{String.ofList row.packageId}` != `{String.ofList expectedId}`"
  else if row.packageSequence ≠ 1 then some s!"package_sequence {row.packageSequence} != 1"
  else if row.packageKind ≠ .baseline then some s!"package_kind `{row.packageKind.asStr}` != `baseline`"
  else if row.generation ≠ expectedGeneration then
    some s!"generation `{String.ofList row.generation}` != `{String.ofList expectedGeneration}`"
  else if row.baselineId ≠ params.baselineId then
    some s!"baseline_id `{String.ofList row.baselineId}` != `{String.ofList params.baselineId}`"
  else if row.embeddingFingerprint ≠ params.embeddingFingerprint then
    some s!"embedding_fingerprint `{String.ofList row.embeddingFingerprint}` != `{String.ofList params.embeddingFingerprint}`"
  else if row.status ≠ .built ∧ row.status ≠ .published then
    some s!"status `{row.status.text}` is neither `built` nor `published`"
  else none

def classifyFirstBaselineRow (row : CatalogRow) (corpus : Corpus) (params : BaselineParams) : Except BuildError Unit :=
  match divergingField row corpus params with
  | some field => .error (missing
      s!"an existing `{String.ofList corpus.name}` media row diverges from the canonical first baseline ({field}); manual repair required before a bootstrap can resume — refusing to rebuild over it")
  | none => .ok ()

structure BootstrapBaselineConfig where
  baselineParams : BaselineParams
  remoteManifestParams : RemoteManifestParams

structure BootstrapIdentity where
  packageId : Text
  generation : Text
  baselineId : Text
  includedChangeSeqHigh : Nat
  totalRows : Nat
deriving DecidableEq

structure BootstrapBaselineReport where
  identity : BootstrapIdentity
  sequence : Nat
  artifactSha256 : Text
  headSequence : Nat
  artifactsVerified : Nat
deriving DecidableEq

/-- Everything that is fixed between the runs of a bootstrap. -/
structure BootstrapSetup where
  env : ProducerEnv
  verifier : Verifier
  corpus : Corpus
  config : BootstrapBaselineConfig

namespace FeedScript

variable (setup : BootstrapSetup)

def refuseServed (row : CatalogRow) (s : FeedState) : Except BuildError Unit :=
  match s.root.manifest, verifyPublishedRoot setup.verifier setup.corpus s.root
    setup.config.remoteManifestParams.uriBase with
  | some _, .ok _ => .error (missing
      s!"a `{String.ofList setup.corpus.name}` first baseline `{String.ofList row.packageId}` is already published and its served manifest verifies; nothing to resume — refusing to republish")
  | _, _ => .ok ()

def hasManifest : Option ArtifactDir → Bool
  | some dir => dir.manifest != .absent
  | none => false

/-- Whether the artifact still has to be published from the staging slot. -/
def resumeFromSlot (row : CatalogRow) (s : FeedState) : Except BuildError Bool :=
  if hasManifest (s.root.publishedPackageDir row.packageId) then .ok false
  else if hasManifest s.root.bootstrapSlot then .ok true
  else .error (missing
    s!"cannot resume `{String.ofList setup.corpus.name}` first baseline `{String.ofList row.packageId}`: the published artifact is absent from `packages/` and no `.staging/bootstrap-baseline` slot holds it — manual repair required")

def readServed (packageId : Text) (s : FeedState) : Except BuildError (Signed EmbeddedManifest) :=
  match s.root.publishedPackageDir packageId with
  | none => .error (.io "No such file or directory")
  | some dir => readEmbedded dir

def recoverArtifact (row : CatalogRow) (s : FeedState) : Except BuildError (Signed EmbeddedManifest) :=
  match readServed row.packageId s with
  | .error e => .error e
  | .ok signed =>
    match verifyCatalogIdentity setup.env row signed false with
    | .ok _ => .ok signed
    | .error error => .error (missing
        s!"cannot resume `{String.ofList setup.corpus.name}` first baseline `{String.ofList row.packageId}`: the published artifact does not match its catalog row ({error.text}); manual repair required")

def publishFromSlot (packageId : Text) : Bool → FeedScript PUnit
  | true => publishSlot .bootstrap packageId
  | false => pure ⟨⟩

def markBuilt (row : CatalogRow) : FeedScript PUnit :=
  match row.status with
  | .built => markPublished setup.corpus row.packageId
  | _ => pure ⟨⟩

def resumeFirstBaseline (row : CatalogRow) : FeedScript BootstrapIdentity := do
  let fromSlot ← Script.check (resumeFromSlot setup row)
  publishFromSlot row.packageId fromSlot
  let signed ← Script.check (recoverArtifact setup row)
  markBuilt setup row
  cleanSlot .bootstrap
  pure ⟨row.packageId, row.generation, row.baselineId, row.includedChangeSeqHigh.toNat,
    (signed.payload.apply.postconditions.rowCounts.map Prod.snd).sum⟩

def buildFirstBaseline (snapshot : MediaSnapshot) : FeedScript BootstrapIdentity := do
  cleanSlot .bootstrap
  createSlot .bootstrap
  let spec ← buildBaseline setup.env setup.corpus .bootstrap setup.config.baselineParams snapshot
  publishStaged setup.corpus .bootstrap spec.packageId
  pure ⟨spec.packageId, spec.generation, spec.baselineId, snapshot.changeSeqHigh,
    (snapshot.tables.map fun table => countOf snapshot.rowCounts table.1).sum⟩

def bootstrapLocked (tables : StampedTables) (snapshot : MediaSnapshot) : FeedScript BootstrapIdentity := do
  match ← Script.read fun s => s.catalog.latestMediaPackage with
  | none =>
    Script.check fun _ => bootstrapPreflight setup.config.baselineParams tables
    buildFirstBaseline setup snapshot
  | some row =>
    Script.check fun _ => classifyFirstBaselineRow row setup.corpus setup.config.baselineParams
    Script.check (refuseServed setup row)
    resumeFirstBaseline setup row

/-- The remote manifest becomes visible only after it has been verified. -/
def publishVerified : FeedScript PublishedVerifyReport := do
  let params := setup.config.remoteManifestParams
  let signed ← Script.check fun s => buildRemoteManifest setup.env params setup.corpus s.catalog s.root
  let _ ← Script.check fun s => verifySignedRemoteManifest setup.verifier setup.corpus s.root params.uriBase signed
  Script.write fun s => { s with root := publishRemoteManifest s.root signed }
  Script.check fun s => verifyPublishedRoot setup.verifier setup.corpus s.root params.uriBase

def bootstrapFirstBaseline (tables : StampedTables) (snapshot : MediaSnapshot) :
    FeedScript BootstrapBaselineReport := do
  let identity ← bootstrapLocked setup tables snapshot
  let verified ← publishVerified setup
  let signed ← Script.check (readServed identity.packageId)
  let head ← Script.read publishedHead
  pure ⟨identity, 1, signed.payload.integrity.artifactSha256, (head.map Prod.fst).getD 1, verified.artifactsChecked⟩

end FeedScript

end CorpusFeed
