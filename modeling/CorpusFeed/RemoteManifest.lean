import CorpusFeed.PackageContract

/-! The remote manifest a client polls: chain head, retained window, active
baseline and the entries of the retained chain. -/

namespace CorpusFeed

structure BaselineRef where
  baselineId : Text
  generation : Text
  packageKind : PackageKind
  sequence : Nat
  schemaVersion : Int
  minimumClientVersion : Version
  artifactUri : Text
  compressedSizeBytes : UInt64
  uncompressedSizeBytes : UInt64
  estimatedLoadSeconds : UInt32
  sha256 : Text
  signature : Signature
deriving DecidableEq

structure RemotePackageEntry where
  packageId : Text
  fromSequence : Nat
  toSequence : Nat
  artifactUri : Text
  compressedSizeBytes : UInt64
  uncompressedSizeBytes : UInt64
  estimatedApplySeconds : UInt32
  rowCounts : List (Text × Nat)
  requiresBaseline : Bool
  minimumClientVersion : Version
  schemaVersion : Int
  embeddingFingerprint : Text
  builderVersions : BuilderVersions
  sha256 : Text
  signature : Signature
deriving DecidableEq

inductive CatchupMode where
  | incrementalOk
  | requiresBaseline
deriving DecidableEq

structure CatchupRange where
  fromSequence : Nat
  toSequence : Option Nat
  mode : CatchupMode
  baselineId : Option Text
deriving DecidableEq

structure CatchupPolicy where
  maxIncrementalPackages : UInt32
  maxCumulativeDiffToBaselinePermille : UInt32
  maxCumulativeUncompressedToBaselinePermille : UInt32
  maxApplySecondsBudget : UInt32
deriving DecidableEq

inductive EntitlementTier where
  | openTier
  | subscription
deriving DecidableEq

structure EntitlementListing where
  corpus : Corpus
  tier : EntitlementTier
  licenseEpoch : Nat
  audience : Option Text
deriving DecidableEq

structure SigningInfo where
  keyId : Text
  algorithm : Text
deriving DecidableEq

structure RemoteManifest where
  manifestVersion : Nat
  generatedAt : Text
  publisher : Text
  corpus : Corpus
  environment : Text
  headSequence : Nat
  minAvailableSequence : Nat
  activeBaseline : BaselineRef
  packages : List RemotePackageEntry
  catchupRanges : List CatchupRange
  catchupPolicy : CatchupPolicy
  entitlement : EntitlementListing
  signing : SigningInfo
deriving DecidableEq

/-- A client older than the retained window needs a baseline. -/
def RemoteManifest.requiresBaselineFor (manifest : RemoteManifest) (clientSequence : Nat) : Bool :=
  clientSequence < manifest.minAvailableSequence

end CorpusFeed
