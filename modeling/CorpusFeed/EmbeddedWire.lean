import CorpusFeed.JsonlWriter
import CorpusFeed.ReplaceSetDigest
import CorpusFeed.WireScalars

/-! The embedded manifest as it is written: all fields, in the widths and the order
that they have in the artifact. -/

namespace CorpusFeed.Wire

open JsonlOp (Compression)

def eventKindToken : EventKind → String
  | .upsert => "upsert"
  | .delete => "delete"
  | .replaceSet => "replace_set"

def eventKind : Codec EventKind :=
  Codec.tokens eventKindToken [.upsert, .delete, .replaceSet] (by intro a; cases a <;> rfl)

def replaceSetGroupToken : ReplaceSetGroup → String
  | .zoneUnits => "zone_units"
  | .chunksWithEmbeddings => "chunks_with_embeddings"
  | .chunkEmbeddings => "chunk_embeddings"
  | .decisionZones => "decision_zones"

def replaceSetGroup : Codec ReplaceSetGroup :=
  Codec.tokens replaceSetGroupToken [.zoneUnits, .chunksWithEmbeddings, .chunkEmbeddings, .decisionZones]
    (by intro a; cases a <;> rfl)

structure Identity where
  packageFormatVersion : UInt32
  packageId : Text
  corpus : Corpus
  packageKind : PackageKind
  fromSequence : UInt64
  toSequence : UInt64
  previousPackageId : Option Text
  previousPackageSha256 : Option Text
  baselineId : Text
  generation : Text
  createdAt : Text
  builderRunId : Text

def Identity.codec : Codec Identity :=
  Fields.codec
    (.cons (.required "package_format_version" u32) <|
      .cons (.required "package_id" .text) <|
      .cons (.required "corpus" Wire.corpus) <|
      .cons (.required "package_kind" Wire.packageKind) <|
      .cons (.required "from_sequence" u64) <|
      .cons (.required "to_sequence" u64) <|
      .cons (.optional "previous_package_id" .text) <|
      .cons (.optional "previous_package_sha256" .text) <|
      .cons (.required "baseline_id" .text) <|
      .cons (.required "generation" .text) <|
      .cons (.required "created_at" .text) <|
      .cons (.required "builder_run_id" .text) .nil)
    (fun i => (i.packageFormatVersion, i.packageId, i.corpus, i.packageKind, i.fromSequence, i.toSequence,
      i.previousPackageId, i.previousPackageSha256, i.baselineId, i.generation, i.createdAt, i.builderRunId, ()))
    Identity.mk (fun _ => rfl) (by decide +kernel)

structure ExtensionRequirement where
  name : Text
  minimumVersion : Option Text

def ExtensionRequirement.codec : Codec ExtensionRequirement :=
  Fields.codec
    (.cons (.required "name" .text) <|
      .cons (.optional "minimum_version" .text) .nil)
    (fun e => (e.name, e.minimumVersion, ()))
    ExtensionRequirement.mk (fun _ => rfl) (by decide +kernel)

structure Compatibility where
  minimumClientVersion : Version
  maximumClientVersion : Option Version
  schemaVersion : Int32
  schemaMigrationBundleDigest : Text
  requiresExtensions : List ExtensionRequirement
  embeddingFingerprint : Text
  embeddingModel : Text
  embeddingDimension : UInt32
  embeddingNormalize : Bool
  builderVersions : BTreeMap Text
  postgresMajorMin : Option UInt32
  postgresMajorMax : Option UInt32

def Compatibility.codec : Codec Compatibility :=
  Fields.codec
    (.cons (.required "minimum_client_version" version) <|
      .cons (.optional "maximum_client_version" version) <|
      .cons (.required "schema_version" i32) <|
      .cons (.required "schema_migration_bundle_digest" .text) <|
      .cons (.required "requires_extensions" (.list ExtensionRequirement.codec)) <|
      .cons (.required "embedding_fingerprint" .text) <|
      .cons (.required "embedding_model" .text) <|
      .cons (.required "embedding_dimension" u32) <|
      .cons (.required "embedding_normalize" .bool) <|
      .cons (.required "builder_versions" (map .text)) <|
      .cons (.optional "postgres_major_min" u32) <|
      .cons (.optional "postgres_major_max" u32) .nil)
    (fun c => (c.minimumClientVersion, c.maximumClientVersion, c.schemaVersion, c.schemaMigrationBundleDigest,
      c.requiresExtensions, c.embeddingFingerprint, c.embeddingModel, c.embeddingDimension, c.embeddingNormalize,
      c.builderVersions, c.postgresMajorMin, c.postgresMajorMax, ()))
    Compatibility.mk (fun _ => rfl) (by decide +kernel)

structure Entitlement where
  entitlementCorpus : Corpus
  tier : Text
  licenseEpoch : UInt32
  audience : Option Text
  entitlementPolicyDigest : Text

def Entitlement.codec : Codec Entitlement :=
  Fields.codec
    (.cons (.required "entitlement_corpus" corpus) <|
      .cons (.required "tier" .text) <|
      .cons (.required "license_epoch" u32) <|
      .cons (.optional "audience" .text) <|
      .cons (.required "entitlement_policy_digest" .text) .nil)
    (fun e => (e.entitlementCorpus, e.tier, e.licenseEpoch, e.audience, e.entitlementPolicyDigest, ()))
    Entitlement.mk (fun _ => rfl) (by decide +kernel)

structure Integrity where
  artifactSha256 : Text
  uncompressedPayloadDigest : Text
  perFileDigests : BTreeMap Text
  canonicalisationAlgorithm : Text
  signatureAlgorithm : Text
  transparencyLogIndex : Option UInt64

def Integrity.codec : Codec Integrity :=
  Fields.codec
    (.cons (.required "artifact_sha256" .text) <|
      .cons (.required "uncompressed_payload_digest" .text) <|
      .cons (.required "per_file_digests" (map .text)) <|
      .cons (.required "canonicalisation_algorithm" .text) <|
      .cons (.required "signature_algorithm" .text) <|
      .cons (.optional "transparency_log_index" u64) .nil)
    (fun i => (i.artifactSha256, i.uncompressedPayloadDigest, i.perFileDigests, i.canonicalisationAlgorithm,
      i.signatureAlgorithm, i.transparencyLogIndex, ()))
    Integrity.mk (fun _ => rfl) (by decide +kernel)

structure OperationCount where
  table : Text
  op : EventKind
  count : UInt64

def OperationCount.codec : Codec OperationCount :=
  Fields.codec
    (.cons (.required "table" .text) <|
      .cons (.required "op" eventKind) <|
      .cons (.required "count" u64) .nil)
    (fun o => (o.table, o.op, o.count, ()))
    OperationCount.mk (fun _ => rfl) (by decide +kernel)

structure ReplaceScopeCount where
  tableGroup : ReplaceSetGroup
  scopeCount : UInt64
  scopesDigest : Option Text

def ReplaceScopeCount.codec : Codec ReplaceScopeCount :=
  Fields.codec
    (.cons (.required "table_group" replaceSetGroup) <|
      .cons (.required "scope_count" u64) <|
      .cons (.optional "scopes_digest" .text) .nil)
    (fun r => (r.tableGroup, r.scopeCount, r.scopesDigest, ()))
    ReplaceScopeCount.mk (fun _ => rfl) (by decide +kernel)

structure Preconditions where
  schemaVersion : Int32
  embeddingFingerprint : Text
  builderVersions : BTreeMap Text
  activeBaselineId : Option Text
  activeGeneration : Option Text

def Preconditions.codec : Codec Preconditions :=
  Fields.codec
    (.cons (.required "schema_version" i32) <|
      .cons (.required "embedding_fingerprint" .text) <|
      .cons (.required "builder_versions" (map .text)) <|
      .cons (.optional "active_baseline_id" .text) <|
      .cons (.optional "active_generation" .text) .nil)
    (fun p => (p.schemaVersion, p.embeddingFingerprint, p.builderVersions, p.activeBaselineId, p.activeGeneration,
      ()))
    Preconditions.mk (fun _ => rfl) (by decide +kernel)

structure Postconditions where
  rowCounts : BTreeMap UInt64
  tableDigests : BTreeMap Text

def Postconditions.codec : Codec Postconditions :=
  Fields.codec
    (.cons (.required "row_counts" (map u64)) <|
      .cons (.required "table_digests" (map .text)) .nil)
    (fun p => (p.rowCounts, p.tableDigests, ()))
    Postconditions.mk (fun _ => rfl) (by decide +kernel)

structure IvfflatFinalize where
  index : Text
  lists : UInt32
  probes : UInt32

def IvfflatFinalize.codec : Codec IvfflatFinalize :=
  Fields.codec
    (.cons (.required "index" .text) <|
      .cons (.required "lists" u32) <|
      .cons (.required "probes" u32) .nil)
    (fun f => (f.index, f.lists, f.probes, ()))
    IvfflatFinalize.mk (fun _ => rfl) (by decide +kernel)

structure IndexBuildContract where
  bm25Indexes : List Text
  ivfflatFinalize : List IvfflatFinalize
  rowLevelMaintenanceOnly : Bool
  queryableBeforeFinalize : Bool

def IndexBuildContract.codec : Codec IndexBuildContract :=
  Fields.codec
    (.cons (.defaulted "bm25_indexes" (.list .text) []) <|
      .cons (.defaulted "ivfflat_finalize" (.list IvfflatFinalize.codec) []) <|
      .cons (.required "row_level_maintenance_only" .bool) <|
      .cons (.required "queryable_before_finalize" .bool) .nil)
    (fun c => (c.bm25Indexes, c.ivfflatFinalize, c.rowLevelMaintenanceOnly, c.queryableBeforeFinalize, ()))
    IndexBuildContract.mk (fun _ => rfl) (by decide +kernel)

inductive RollbackPolicy where
  | transactionRollback
  | keepPreviousGenerationUntilValidated

def rollbackPolicyToken : RollbackPolicy → String
  | .transactionRollback => "transaction_rollback"
  | .keepPreviousGenerationUntilValidated => "keep_previous_generation_until_validated"

def rollbackPolicy : Codec RollbackPolicy :=
  Codec.tokens rollbackPolicyToken [.transactionRollback, .keepPreviousGenerationUntilValidated]
    (by intro a; cases a <;> rfl)

structure ApplyContract where
  expectedClientFromSequence : UInt64
  resultSequence : UInt64
  requiresEmptyGeneration : Bool
  schemaOpsDigest : Text
  operations : List OperationCount
  replaceScopes : List ReplaceScopeCount
  preconditions : Preconditions
  postconditions : Postconditions
  indexBuild : IndexBuildContract
  idempotencyKey : Text
  rollbackPolicy : RollbackPolicy

def ApplyContract.codec : Codec ApplyContract :=
  Fields.codec
    (.cons (.required "expected_client_from_sequence" u64) <|
      .cons (.required "result_sequence" u64) <|
      .cons (.required "requires_empty_generation" .bool) <|
      .cons (.required "schema_ops_digest" .text) <|
      .cons (.required "operations" (.list OperationCount.codec)) <|
      .cons (.required "replace_scopes" (.list ReplaceScopeCount.codec)) <|
      .cons (.required "preconditions" Preconditions.codec) <|
      .cons (.required "postconditions" Postconditions.codec) <|
      .cons (.required "index_build" IndexBuildContract.codec) <|
      .cons (.required "idempotency_key" .text) <|
      .cons (.required "rollback_policy" Wire.rollbackPolicy) .nil)
    (fun a => (a.expectedClientFromSequence, a.resultSequence, a.requiresEmptyGeneration, a.schemaOpsDigest,
      a.operations, a.replaceScopes, a.preconditions, a.postconditions, a.indexBuild, a.idempotencyKey,
      a.rollbackPolicy, ()))
    ApplyContract.mk (fun _ => rfl) (by decide +kernel)

def payloadFormatToken : PayloadFormat → String
  | .copyBinary => "copy-binary"
  | .jsonl => "jsonl"
  | .parquet => "parquet"

def payloadFormat : Codec PayloadFormat :=
  Codec.tokens payloadFormatToken [.copyBinary, .jsonl, .parquet] (by intro a; cases a <;> rfl)

def compressionToken : Compression → String
  | .none => "none"
  | .zstd => "zstd"
  | .gzip => "gzip"

def compression : Codec Compression :=
  Codec.tokens compressionToken [.none, .zstd, .gzip] (by intro a; cases a <;> rfl)

structure PayloadFile where
  fileName : Text
  table : Text
  columns : List Text
  op : EventKind
  format : PayloadFormat
  compression : Compression
  rowCount : UInt64
  digest : Text

def PayloadFile.codec : Codec PayloadFile :=
  Fields.codec
    (.cons (.required "file_name" .text) <|
      .cons (.required "table" .text) <|
      .cons (.required "columns" (.list .text)) <|
      .cons (.required "op" eventKind) <|
      .cons (.required "format" payloadFormat) <|
      .cons (.required "compression" Wire.compression) <|
      .cons (.required "row_count" u64) <|
      .cons (.required "digest" .text) .nil)
    (fun f => (f.fileName, f.table, f.columns, f.op, f.format, f.compression, f.rowCount, f.digest, ()))
    PayloadFile.mk (fun _ => rfl) (by decide +kernel)

structure PayloadLayout where
  files : List PayloadFile
  applyOrder : List Text

def PayloadLayout.codec : Codec PayloadLayout :=
  Fields.codec
    (.cons (.required "files" (.list PayloadFile.codec)) <|
      .cons (.required "apply_order" (.list .text)) .nil)
    (fun p => (p.files, p.applyOrder, ()))
    PayloadLayout.mk (fun _ => rfl) (by decide +kernel)

structure EmbeddedManifest where
  identity : Identity
  compatibility : Compatibility
  entitlement : Entitlement
  integrity : Integrity
  apply : ApplyContract
  payload : PayloadLayout

def EmbeddedManifest.codec : Codec EmbeddedManifest :=
  Fields.codec
    (.cons (.required "identity" Identity.codec) <|
      .cons (.required "compatibility" Compatibility.codec) <|
      .cons (.required "entitlement" Entitlement.codec) <|
      .cons (.required "integrity" Integrity.codec) <|
      .cons (.required "apply" ApplyContract.codec) <|
      .cons (.required "payload" PayloadLayout.codec) .nil)
    (fun m => (m.identity, m.compatibility, m.entitlement, m.integrity, m.apply, m.payload, ()))
    EmbeddedManifest.mk (fun _ => rfl) (by decide +kernel)

end CorpusFeed.Wire
