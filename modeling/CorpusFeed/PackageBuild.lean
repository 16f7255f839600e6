import CorpusFeed.ManifestBuild
import CorpusFeed.CrashScript
import CorpusFeed.ClientGates

/-! The package builders: a full snapshot or the changes of an outbox window go
to a staging slot, then the manifest, then the catalog row. -/

namespace CorpusFeed

/-- What a producer keeps of one corpus outside its tables. -/
structure FeedState where
  catalog : Catalog
  root : ServedRoot

abbrev FeedScript := Script FeedState BuildError

inductive Slot where
  | pending
  | bootstrap
deriving DecidableEq

namespace FeedState

def slot (s : FeedState) : Slot → Option ArtifactDir
  | .pending => s.root.pending
  | .bootstrap => s.root.bootstrapSlot

def setSlot (s : FeedState) (slot : Slot) (dir : Option ArtifactDir) : FeedState :=
  match slot with
  | .pending => { s with root := { s.root with pending := dir } }
  | .bootstrap => { s with root := { s.root with bootstrapSlot := dir } }

@[simp] theorem setSlot_catalog (s : FeedState) (slot : Slot) (dir : Option ArtifactDir) :
    (s.setSlot slot dir).catalog = s.catalog := by
  cases slot <;> rfl

@[simp] theorem setSlot_packages (s : FeedState) (slot : Slot) (dir : Option ArtifactDir) :
    (s.setSlot slot dir).root.packages = s.root.packages := by
  cases slot <;> rfl

@[simp] theorem setSlot_manifest (s : FeedState) (slot : Slot) (dir : Option ArtifactDir) :
    (s.setSlot slot dir).root.manifest = s.root.manifest := by
  cases slot <;> rfl

@[simp] theorem slot_setSlot (s : FeedState) (slot : Slot) (dir : Option ArtifactDir) :
    (s.setSlot slot dir).slot slot = dir := by
  cases slot <;> rfl

end FeedState

structure BaselineParams where
  baselineId : Text
  builderRunId : Text
  createdAt : Text
  embeddingFingerprint : Text
  embeddingModel : Text
  embeddingDimension : Nat
  embeddingNormalize : Bool
  builderVersions : BuilderVersions
  minimumClientVersion : Version
deriving DecidableEq

/-- What a media build reads in its one snapshot of the tables. -/
structure MediaSnapshot where
  changeSeqHigh : Nat
  tables : List (Text × Text)
  rowCounts : List (Text × Nat)
  tableDigests : List (Text × Text)
  bundleDigest : Text
  serverMajor : Nat
deriving DecidableEq

structure MediaSpec where
  packageKind : PackageKind
  fromSequence : Nat
  toSequence : Nat
  packageId : Text
  generation : Text
  baselineId : Text
  previousPackageId : Option Text
  previousPackageSha256 : Option Text
  includedChangeSeqLow : Int

def packageIdOf (corpus : Corpus) (start stop : Nat) : Text :=
  corpus.name ++ "-".toList ++ padDecimal 1 start ++ "-".toList ++ padDecimal 1 stop

def baselineFileName (table : Text) : Text := table ++ ".copybin".toList

/-- The digests by file name, in name order. -/
def insertDigest (digests : List (Text × Text)) (file : Text × Text) : List (Text × Text) :=
  match digests with
  | [] => [file]
  | (name, digest) :: rest =>
    if file.1 = name then file :: rest
    else if file.1 < name then file :: (name, digest) :: rest
    else (name, digest) :: insertDigest rest file

def perFileDigests (env : ProducerEnv) (files : List (Text × Text)) : List (Text × Text) :=
  (files.map fun file => (file.1, env.digestBytes file.2)).foldl insertDigest []

def countOf (rowCounts : List (Text × Nat)) (table : Text) : Nat := (rowCounts.lookup table).getD 0

def requiredExtensions : List Text := ["vector".toList, "pg_search".toList]

def mediaApplyOrder : List Text :=
  ["documents", "official_api_responses", "chunks", "chunk_embeddings", "graph_edges", "legi_metadata_roots",
    "zone_units", "zone_unit_embeddings", "decision_zones", "decision_legislation_citations",
    "legislation_citation_resolutions"].map String.toList

def mediaFiles (snapshot : MediaSnapshot) : List (Text × Text) :=
  snapshot.tables.map fun table => (baselineFileName table.1, table.2)

def mediaManifest (env : ProducerEnv) (corpus : Corpus) (params : BaselineParams) (snapshot : MediaSnapshot)
    (spec : MediaSpec) : EmbeddedManifest :=
  let digests := perFileDigests env (mediaFiles snapshot)
  let payloadDigest := aggregatePayloadDigest env.digestBytes digests
  { identity :=
      { packageId := spec.packageId
        corpus := corpus
        packageKind := spec.packageKind
        fromSequence := spec.fromSequence
        toSequence := spec.toSequence
        previousPackageId := spec.previousPackageId
        previousPackageSha256 := spec.previousPackageSha256
        baselineId := spec.baselineId
        generation := spec.generation
        createdAt := params.createdAt
        builderRunId := params.builderRunId }
    compatibility :=
      { minimumClientVersion := params.minimumClientVersion
        schemaVersion := currentSchemaVersion
        schemaMigrationBundleDigest := snapshot.bundleDigest
        requiresExtensions := requiredExtensions
        embeddingFingerprint := params.embeddingFingerprint
        embeddingModel := params.embeddingModel
        embeddingDimension := params.embeddingDimension
        embeddingNormalize := params.embeddingNormalize
        builderVersions := params.builderVersions
        postgresMajorMin := some snapshot.serverMajor
        postgresMajorMax := some snapshot.serverMajor }
    entitlement := ⟨corpus, "all".toList, 0⟩
    integrity := ⟨payloadDigest, payloadDigest, digests⟩
    apply :=
      { expectedClientFromSequence := 0
        resultSequence := spec.toSequence
        operations := snapshot.tables.map fun table => ⟨table.1, countOf snapshot.rowCounts table.1⟩
        preconditions := ⟨currentSchemaVersion, params.embeddingFingerprint, params.builderVersions, none, none⟩
        postconditions := ⟨snapshot.rowCounts, snapshot.tableDigests⟩ }
    payload :=
      { files := snapshot.tables.map fun table =>
          ⟨baselineFileName table.1, table.1, .upsert, .copyBinary, env.digestBytes table.2⟩
        applyOrder := mediaApplyOrder } }

def sealManifest (env : ProducerEnv) (manifest : EmbeddedManifest) : Signed EmbeddedManifest :=
  ⟨manifest, env.signEmbedded manifest⟩

def mediaRow (env : ProducerEnv) (params : BaselineParams) (snapshot : MediaSnapshot) (spec : MediaSpec)
    (manifest : EmbeddedManifest) : CatalogRow where
  packageSequence := saturateI64 spec.toSequence
  packageId := spec.packageId
  packageKind := spec.packageKind
  baselineId := spec.baselineId
  generation := spec.generation
  includedChangeSeqLow := spec.includedChangeSeqLow
  includedChangeSeqHigh := saturateI64 snapshot.changeSeqHigh
  previousPackageId := spec.previousPackageId
  previousPackageDigest := spec.previousPackageSha256
  packageDigest := some manifest.integrity.artifactSha256
  manifestDigest := some (env.canonicalDigest manifest)
  schemaVersion := currentSchemaVersion
  embeddingFingerprint := params.embeddingFingerprint
  builderVersions := params.builderVersions
  status := .built

namespace FeedScript

def insertRow (row : CatalogRow) : FeedScript PUnit :=
  Script.tryWrite fun s =>
    match s.catalog.insertPackageCatalogRow row with
    | .error e => .error e
    | .ok catalog => .ok { s with catalog := catalog }

def createSlot (slot : Slot) : FeedScript PUnit := Script.write fun s => s.setSlot slot (some ⟨.absent, []⟩)

/-- What removing a directory tree halfway can leave of it. -/
def remains (dir : ArtifactDir) : List ArtifactDir :=
  dir.files.sublists.flatMap fun files => [⟨dir.manifest, files⟩, ⟨.absent, files⟩]

def cleanSlot (slot : Slot) : FeedScript PUnit := do
  Script.mayLeave fun s =>
    match s.slot slot with
    | none => []
    | some dir => (remains dir).map fun left => s.setSlot slot (some left)
  Script.write fun s => s.setSlot slot none

/-- The payload and then the manifest. Stopping within the write of the
manifest leaves a torn file. -/
def stageArtifact (slot : Slot) (files : List (Text × Text)) (signed : Signed EmbeddedManifest) :
    FeedScript PUnit := do
  Script.mayLeave fun s => files.inits.map fun part => s.setSlot slot (some ⟨.absent, part⟩)
  Script.write fun s => s.setSlot slot (some ⟨.absent, files⟩)
  Script.mayLeave fun s => [s.setSlot slot (some ⟨.torn, files⟩)]
  Script.write fun s => s.setSlot slot (some ⟨.whole signed, files⟩)

def buildMediaPackage (env : ProducerEnv) (corpus : Corpus) (slot : Slot) (params : BaselineParams)
    (snapshot : MediaSnapshot) (spec : MediaSpec) : FeedScript PUnit := do
  let manifest := mediaManifest env corpus params snapshot spec
  stageArtifact slot (mediaFiles snapshot) (sealManifest env manifest)
  insertRow (mediaRow env params snapshot spec manifest)

end FeedScript

def firstBaselineSpec (corpus : Corpus) (params : BaselineParams) : MediaSpec where
  packageKind := .baseline
  fromSequence := 1
  toSequence := 1
  packageId := packageIdOf corpus 1 1
  generation := generationName corpus.name 1
  baselineId := params.baselineId
  previousPackageId := none
  previousPackageSha256 := none
  includedChangeSeqLow := 0

def rebaselineSpec (corpus : Corpus) (params : BaselineParams) (prev : CatalogRow) (counter : UInt32) : MediaSpec where
  packageKind := .rebaseline
  fromSequence := prev.packageSequence.toNat
  toSequence := prev.packageSequence.toNat + 1
  packageId := packageIdOf corpus prev.packageSequence.toNat (prev.packageSequence.toNat + 1)
  generation := generationName corpus.name (counter + 1)
  baselineId := params.baselineId
  previousPackageId := some prev.packageId
  previousPackageSha256 := prev.packageDigest
  includedChangeSeqLow := prev.includedChangeSeqHigh

/-- The head a re-baseline supersedes and the spec that follows it. -/
def rebaselineHead (corpus : Corpus) (params : BaselineParams) (s : FeedState) : Except BuildError MediaSpec :=
  match s.catalog.latestPackage with
  | none => .error (missing
      s!"no baseline cataloged for corpus `{String.ofList corpus.name}`; build a baseline before a re-baseline")
  | some prev =>
    match generationCounterOf corpus.name prev.generation with
    | none => .error (missing
        s!"cataloged generation `{String.ofList prev.generation}` is not a <corpus>_g<NNNN> label")
    | some counter => .ok (rebaselineSpec corpus params prev counter)

namespace FeedScript

def buildBaseline (env : ProducerEnv) (corpus : Corpus) (slot : Slot) (params : BaselineParams)
    (snapshot : MediaSnapshot) : FeedScript MediaSpec := do
  let spec := firstBaselineSpec corpus params
  buildMediaPackage env corpus slot params snapshot spec
  pure spec

def buildRebaseline (env : ProducerEnv) (corpus : Corpus) (slot : Slot) (params : BaselineParams)
    (snapshot : MediaSnapshot) : FeedScript MediaSpec := do
  let spec ← Script.check (rebaselineHead corpus params)
  buildMediaPackage env corpus slot params snapshot spec
  pure spec

end FeedScript

structure IncrementalParams where
  builderRunId : Text
  createdAt : Text
  embeddingFingerprint : Text
  embeddingModel : Text
  embeddingDimension : Nat
  embeddingNormalize : Bool
  builderVersions : BuilderVersions
  minimumClientVersion : Version
deriving DecidableEq

structure PayloadOp where
  table : Text
  op : EventKind
  bytes : Text
  count : Nat
deriving DecidableEq

/-- What an incremental build reads in its snapshot. `window` has no operations
when no scope changed between its bounds, and fails on an unknown table. -/
structure IncrementalSnapshot where
  changeSeqHigh : Nat
  window : Int → Nat → Except BuildError (Option (List PayloadOp))
  rowCounts : List (Text × Nat)
  tableDigests : List (Text × Text)
  bundleDigest : Text

def EventKind.text : EventKind → Text
  | .upsert => "upsert".toList
  | .delete => "delete".toList
  | .replaceSet => "replace_set".toList

def incrementalFileName (op : PayloadOp) : Text :=
  op.table ++ ".".toList ++ op.op.text ++ ".jsonl".toList

def incrementalFiles (ops : List PayloadOp) : List (Text × Text) :=
  ops.map fun op => (incrementalFileName op, op.bytes)

def incrementalApplyOrder : List Text :=
  ["documents", "official_api_responses", "graph_edges", "legi_metadata_roots", "legislation_citation_resolutions",
    "decision_legislation_citations", "chunks_with_embeddings", "chunk_embeddings", "zone_units",
    "decision_zones"].map String.toList

def incrementalManifest (env : ProducerEnv) (corpus : Corpus) (params : IncrementalParams)
    (snapshot : IncrementalSnapshot) (prev : CatalogRow) (ops : List PayloadOp) : EmbeddedManifest :=
  let start := prev.packageSequence.toNat
  let digests := perFileDigests env (incrementalFiles ops)
  let payloadDigest := aggregatePayloadDigest env.digestBytes digests
  { identity :=
      { packageId := packageIdOf corpus start (start + 1)
        corpus := corpus
        packageKind := .incremental
        fromSequence := start
        toSequence := start + 1
        previousPackageId := some prev.packageId
        previousPackageSha256 := prev.packageDigest
        baselineId := prev.baselineId
        generation := prev.generation
        createdAt := params.createdAt
        builderRunId := params.builderRunId }
    compatibility :=
      { minimumClientVersion := params.minimumClientVersion
        schemaVersion := currentSchemaVersion
        schemaMigrationBundleDigest := snapshot.bundleDigest
        requiresExtensions := requiredExtensions
        embeddingFingerprint := params.embeddingFingerprint
        embeddingModel := params.embeddingModel
        embeddingDimension := params.embeddingDimension
        embeddingNormalize := params.embeddingNormalize
        builderVersions := params.builderVersions
        postgresMajorMin := none
        postgresMajorMax := none }
    entitlement := ⟨corpus, "all".toList, 0⟩
    integrity := ⟨payloadDigest, payloadDigest, digests⟩
    apply :=
      { expectedClientFromSequence := start
        resultSequence := start + 1
        operations := ops.map fun op => ⟨op.table, op.count⟩
        preconditions := ⟨currentSchemaVersion, params.embeddingFingerprint, params.builderVersions,
          some prev.baselineId, some prev.generation⟩
        postconditions := ⟨snapshot.rowCounts, snapshot.tableDigests⟩ }
    payload :=
      { files := ops.map fun op =>
          ⟨incrementalFileName op, op.table, op.op, .jsonl, env.digestBytes op.bytes⟩
        applyOrder := incrementalApplyOrder } }

def incrementalRow (env : ProducerEnv) (params : IncrementalParams) (snapshot : IncrementalSnapshot)
    (prev : CatalogRow) (manifest : EmbeddedManifest) : CatalogRow where
  packageSequence := saturateI64 manifest.identity.toSequence
  packageId := manifest.identity.packageId
  packageKind := .incremental
  baselineId := prev.baselineId
  generation := prev.generation
  includedChangeSeqLow := prev.includedChangeSeqHigh
  includedChangeSeqHigh := saturateI64 snapshot.changeSeqHigh
  previousPackageId := some prev.packageId
  previousPackageDigest := prev.packageDigest
  packageDigest := some manifest.integrity.artifactSha256
  manifestDigest := some (env.canonicalDigest manifest)
  schemaVersion := currentSchemaVersion
  embeddingFingerprint := params.embeddingFingerprint
  builderVersions := params.builderVersions
  status := .built

/-- The chain link of the next incremental, refused when the parameters cross a
compatibility boundary, and the changes of its window. -/
def incrementalWindow (corpus : Corpus) (params : IncrementalParams) (snapshot : IncrementalSnapshot)
    (s : FeedState) : Except BuildError (Option (CatalogRow × List PayloadOp)) :=
  match s.catalog.latestPackage with
  | none => .error (missing
      s!"no baseline cataloged for corpus `{String.ofList corpus.name}`; build a baseline first")
  | some prev =>
    rejectIf (params.embeddingFingerprint ≠ prev.embeddingFingerprint) (missing
      s!"incremental embedding_fingerprint `{String.ofList params.embeddingFingerprint}` != cataloged `{String.ofList prev.embeddingFingerprint}`; a re-baseline is required") <|
    rejectIf (params.builderVersions ≠ prev.builderVersions) (missing
      "incremental builder_versions differ from the cataloged set; a re-baseline is required") <|
    rejectIf (currentSchemaVersion ≠ prev.schemaVersion) (missing
      s!"incremental schema_version {currentSchemaVersion} != cataloged {prev.schemaVersion}; a re-baseline is required") <|
    match snapshot.window prev.includedChangeSeqHigh snapshot.changeSeqHigh with
    | .error e => .error e
    | .ok none => .ok none
    | .ok (some ops) => .ok (some (prev, ops))

namespace FeedScript

def buildIncremental (env : ProducerEnv) (corpus : Corpus) (params : IncrementalParams)
    (snapshot : IncrementalSnapshot) : FeedScript (Option Text) := do
  match ← Script.check (incrementalWindow corpus params snapshot) with
  | none => pure none
  | some (prev, ops) =>
    let manifest := incrementalManifest env corpus params snapshot prev ops
    stageArtifact .pending (incrementalFiles ops) (sealManifest env manifest)
    insertRow (incrementalRow env params snapshot prev manifest)
    pure (some manifest.identity.packageId)

end FeedScript

end CorpusFeed
