import CorpusFeed.RemoteManifest
import CorpusFeed.WireScalars

/-! The remote manifest as it is written. -/

namespace CorpusFeed.Wire

def catchupModeToken : CatchupMode → String
  | .incrementalOk => "incremental_ok"
  | .requiresBaseline => "requires_baseline"

def catchupMode : Codec CatchupMode :=
  Codec.tokens catchupModeToken [.incrementalOk, .requiresBaseline] (by intro a; cases a <;> rfl)

def entitlementTierToken : EntitlementTier → String
  | .openTier => "open"
  | .subscription => "subscription"

def entitlementTier : Codec EntitlementTier :=
  Codec.tokens entitlementTierToken [.openTier, .subscription] (by intro a; cases a <;> rfl)

structure Signature where
  algorithm : Text
  keyId : Text
  keyEpoch : UInt32
  signatureHex : Text

def Signature.codec : Codec Signature :=
  Fields.codec
    (.cons (.required "algorithm" .text) <|
      .cons (.required "key_id" .text) <|
      .cons (.required "key_epoch" u32) <|
      .cons (.required "signature_hex" .text) .nil)
    (fun s => (s.algorithm, s.keyId, s.keyEpoch, s.signatureHex, ()))
    Signature.mk (fun _ => rfl) (by decide +kernel)

structure BaselineRef where
  baselineId : Text
  generation : Text
  packageKind : PackageKind
  sequence : UInt64
  schemaVersion : Int32
  minimumClientVersion : Version
  artifactUri : Text
  compressedSizeBytes : UInt64
  uncompressedSizeBytes : UInt64
  estimatedLoadSeconds : UInt32
  sha256 : Text
  signature : Signature

def BaselineRef.codec : Codec BaselineRef :=
  Fields.codec
    (.cons (.required "baseline_id" .text) <|
      .cons (.required "generation" .text) <|
      .cons (.required "package_kind" Wire.packageKind) <|
      .cons (.required "sequence" u64) <|
      .cons (.required "schema_version" i32) <|
      .cons (.required "minimum_client_version" version) <|
      .cons (.required "artifact_uri" .text) <|
      .cons (.required "compressed_size_bytes" u64) <|
      .cons (.required "uncompressed_size_bytes" u64) <|
      .cons (.required "estimated_load_seconds" u32) <|
      .cons (.required "sha256" .text) <|
      .cons (.required "signature" Signature.codec) .nil)
    (fun b => (b.baselineId, b.generation, b.packageKind, b.sequence, b.schemaVersion, b.minimumClientVersion,
      b.artifactUri, b.compressedSizeBytes, b.uncompressedSizeBytes, b.estimatedLoadSeconds, b.sha256, b.signature,
      ()))
    BaselineRef.mk (fun _ => rfl) (by decide +kernel)

structure RemotePackageEntry where
  packageId : Text
  fromSequence : UInt64
  toSequence : UInt64
  artifactUri : Text
  compressedSizeBytes : UInt64
  uncompressedSizeBytes : UInt64
  estimatedApplySeconds : UInt32
  rowCounts : BTreeMap UInt64
  requiresBaseline : Bool
  minimumClientVersion : Version
  schemaVersion : Int32
  embeddingFingerprint : Text
  builderVersions : BTreeMap Text
  sha256 : Text
  signature : Signature

def RemotePackageEntry.codec : Codec RemotePackageEntry :=
  Fields.codec
    (.cons (.required "package_id" .text) <|
      .cons (.required "from_sequence" u64) <|
      .cons (.required "to_sequence" u64) <|
      .cons (.required "artifact_uri" .text) <|
      .cons (.required "compressed_size_bytes" u64) <|
      .cons (.required "uncompressed_size_bytes" u64) <|
      .cons (.required "estimated_apply_seconds" u32) <|
      .cons (.defaulted "row_counts" (map u64) .empty) <|
      .cons (.required "requires_baseline" .bool) <|
      .cons (.required "minimum_client_version" version) <|
      .cons (.required "schema_version" i32) <|
      .cons (.required "embedding_fingerprint" .text) <|
      .cons (.defaulted "builder_versions" (map .text) .empty) <|
      .cons (.required "sha256" .text) <|
      .cons (.required "signature" Signature.codec) .nil)
    (fun e => (e.packageId, e.fromSequence, e.toSequence, e.artifactUri, e.compressedSizeBytes,
      e.uncompressedSizeBytes, e.estimatedApplySeconds, e.rowCounts, e.requiresBaseline, e.minimumClientVersion,
      e.schemaVersion, e.embeddingFingerprint, e.builderVersions, e.sha256, e.signature, ()))
    RemotePackageEntry.mk (fun _ => rfl) (by decide +kernel)

structure CatchupRange where
  fromSequence : UInt64
  toSequence : Option UInt64
  mode : CatchupMode
  baselineId : Option Text

def CatchupRange.codec : Codec CatchupRange :=
  Fields.codec
    (.cons (.required "from_sequence" u64) <|
      .cons (.optional "to_sequence" u64) <|
      .cons (.required "mode" catchupMode) <|
      .cons (.optional "baseline_id" .text) .nil)
    (fun r => (r.fromSequence, r.toSequence, r.mode, r.baselineId, ()))
    CatchupRange.mk (fun _ => rfl) (by decide +kernel)

structure CatchupPolicy where
  maxIncrementalPackages : UInt32
  maxCumulativeDiffToBaselinePermille : UInt32
  maxCumulativeUncompressedToBaselinePermille : UInt32
  maxApplySecondsBudget : UInt32

def CatchupPolicy.codec : Codec CatchupPolicy :=
  Fields.codec
    (.cons (.required "max_incremental_packages" u32) <|
      .cons (.required "max_cumulative_diff_to_baseline_permille" u32) <|
      .cons (.required "max_cumulative_uncompressed_to_baseline_permille" u32) <|
      .cons (.required "max_apply_seconds_budget" u32) .nil)
    (fun p => (p.maxIncrementalPackages, p.maxCumulativeDiffToBaselinePermille,
      p.maxCumulativeUncompressedToBaselinePermille, p.maxApplySecondsBudget, ()))
    CatchupPolicy.mk (fun _ => rfl) (by decide +kernel)

structure EntitlementListing where
  corpus : Corpus
  tier : EntitlementTier
  licenseEpoch : UInt32
  audience : Option Text

def EntitlementListing.codec : Codec EntitlementListing :=
  Fields.codec
    (.cons (.required "corpus" Wire.corpus) <|
      .cons (.required "tier" entitlementTier) <|
      .cons (.required "license_epoch" u32) <|
      .cons (.optional "audience" .text) .nil)
    (fun l => (l.corpus, l.tier, l.licenseEpoch, l.audience, ()))
    EntitlementListing.mk (fun _ => rfl) (by decide +kernel)

structure SigningInfo where
  keyId : Text
  algorithm : Text

def SigningInfo.codec : Codec SigningInfo :=
  Fields.codec
    (.cons (.required "key_id" .text) <|
      .cons (.required "algorithm" .text) .nil)
    (fun s => (s.keyId, s.algorithm, ()))
    SigningInfo.mk (fun _ => rfl) (by decide +kernel)

structure RemoteManifest where
  manifestVersion : UInt32
  generatedAt : Text
  publisher : Text
  corpus : Corpus
  environment : Text
  headSequence : UInt64
  minAvailableSequence : UInt64
  activeBaseline : BaselineRef
  packages : List RemotePackageEntry
  catchupRanges : List CatchupRange
  catchupPolicy : CatchupPolicy
  entitlement : EntitlementListing
  signing : SigningInfo

def RemoteManifest.codec : Codec RemoteManifest :=
  Fields.codec
    (.cons (.required "manifest_version" u32) <|
      .cons (.required "generated_at" .text) <|
      .cons (.required "publisher" .text) <|
      .cons (.required "corpus" Wire.corpus) <|
      .cons (.required "environment" .text) <|
      .cons (.required "head_sequence" u64) <|
      .cons (.required "min_available_sequence" u64) <|
      .cons (.required "active_baseline" BaselineRef.codec) <|
      .cons (.required "packages" (.list RemotePackageEntry.codec)) <|
      .cons (.required "catchup_ranges" (.list CatchupRange.codec)) <|
      .cons (.required "catchup_policy" CatchupPolicy.codec) <|
      .cons (.required "entitlement" EntitlementListing.codec) <|
      .cons (.required "signing" SigningInfo.codec) .nil)
    (fun m => (m.manifestVersion, m.generatedAt, m.publisher, m.corpus, m.environment, m.headSequence,
      m.minAvailableSequence, m.activeBaseline, m.packages, m.catchupRanges, m.catchupPolicy, m.entitlement,
      m.signing, ()))
    RemoteManifest.mk (fun _ => rfl) (by decide +kernel)

end CorpusFeed.Wire
