import CorpusFeed.Corpus

/-! The package contract: kinds, versions, reject codes and the manifest that
travels inside an artifact. Sequences are the per-corpus chain counter. -/

namespace CorpusFeed

/-- Builder versions in key order, as the source's ordered map. -/
abbrev BuilderVersions := List (Text × Text)

inductive PackageKind where
  | baseline
  | rebaseline
  | incremental
deriving DecidableEq

def PackageKind.asStr : PackageKind → String
  | .baseline => "baseline"
  | .rebaseline => "rebaseline"
  | .incremental => "incremental"

def PackageKind.isMedia : PackageKind → Bool
  | .baseline | .rebaseline => true
  | .incremental => false

inductive RejectCode where
  | clientTooOld
  | schemaAhead
  | missingEntitlement
  | sequenceGap
  | wrongGeneration
  | embeddingFingerprintMismatch
  | builderVersionMismatch
  | signatureInvalid
  | digestMismatch
  | extensionMissing
  | baselineRequired
deriving DecidableEq

structure Version where
  major : Nat
  minor : Nat
  patch : Nat
deriving DecidableEq

def Version.show (v : Version) : String := s!"{v.major}.{v.minor}.{v.patch}"

/-- Numeric comparison, component by component. -/
def Version.satisfiesMinimum (client minimum : Version) : Bool :=
  if client.major ≠ minimum.major then decide (minimum.major < client.major)
  else if client.minor ≠ minimum.minor then decide (minimum.minor < client.minor)
  else decide (minimum.patch ≤ client.patch)

def clientVersion : Version := ⟨0, 1, 0⟩

def currentSchemaVersion : Int := 24

structure Signature where
  algorithm : Text
  keyId : Text
  keyEpoch : Nat
  signatureHex : Text
deriving DecidableEq

structure Signed (T : Type*) where
  payload : T
  signature : Signature
deriving DecidableEq

structure Identity where
  packageId : Text
  corpus : Corpus
  packageKind : PackageKind
  fromSequence : Nat
  toSequence : Nat
  previousPackageId : Option Text
  previousPackageSha256 : Option Text
  baselineId : Text
  generation : Text
  createdAt : Text
  builderRunId : Text
deriving DecidableEq

structure Compatibility where
  minimumClientVersion : Version
  schemaVersion : Int
  schemaMigrationBundleDigest : Text
  requiresExtensions : List Text
  embeddingFingerprint : Text
  embeddingModel : Text
  embeddingDimension : Nat
  embeddingNormalize : Bool
  builderVersions : BuilderVersions
  postgresMajorMin : Option Nat
  postgresMajorMax : Option Nat
deriving DecidableEq

structure Entitlement where
  entitlementCorpus : Corpus
  tier : Text
  licenseEpoch : Nat
deriving DecidableEq

/-- `perFileDigests` is in file name order. -/
structure Integrity where
  artifactSha256 : Text
  uncompressedPayloadDigest : Text
  perFileDigests : List (Text × Text)
deriving DecidableEq

structure Preconditions where
  schemaVersion : Int
  embeddingFingerprint : Text
  builderVersions : BuilderVersions
  activeBaselineId : Option Text
  activeGeneration : Option Text
deriving DecidableEq

structure Postconditions where
  rowCounts : List (Text × Nat)
  tableDigests : List (Text × Text)
deriving DecidableEq

inductive EventKind where
  | upsert
  | delete
  | replaceSet
deriving DecidableEq

inductive PayloadFormat where
  | copyBinary
  | jsonl
  | parquet
deriving DecidableEq

structure PayloadFile where
  fileName : Text
  table : Text
  op : EventKind
  format : PayloadFormat
  digest : Text
deriving DecidableEq

structure PayloadLayout where
  files : List PayloadFile
  applyOrder : List Text
deriving DecidableEq

structure OperationCount where
  table : Text
  count : Nat
deriving DecidableEq

structure ApplyContract where
  expectedClientFromSequence : Nat
  resultSequence : Nat
  operations : List OperationCount
  preconditions : Preconditions
  postconditions : Postconditions
deriving DecidableEq

structure EmbeddedManifest where
  identity : Identity
  compatibility : Compatibility
  entitlement : Entitlement
  integrity : Integrity
  apply : ApplyContract
  payload : PayloadLayout
deriving DecidableEq

end CorpusFeed
