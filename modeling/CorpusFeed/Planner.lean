import CorpusFeed.RemoteManifest

/-! The catch-up planner: a pure decision from the verified remote manifest
and the local cursor. -/

namespace CorpusFeed

structure ClientCursor where
  corpus : Corpus
  sequence : Nat
  activeGeneration : Text
  baselineId : Text
  schemaVersion : Int
  embeddingFingerprint : Text
  builderVersions : BuilderVersions
  lastPackageId : Option Text
  lastPackageDigest : Option Text
deriving DecidableEq

inductive CatchupPlan where
  | upToDate
  | freshBaseline (baseline : BaselineRef)
  | incremental (chain : List RemotePackageEntry)
  | blocked (code : RejectCode) (reason : String)
deriving DecidableEq

def debugClientVersion : String :=
  s!"Version \x7b major: {clientVersion.major}, minor: {clientVersion.minor}, patch: {clientVersion.patch} \x7d"

/-- The route of a client without a cursor, who can apply either media kind. -/
def baselineCompatOrBlocked (baseline : BaselineRef) : CatchupPlan :=
  if clientVersion.satisfiesMinimum baseline.minimumClientVersion = false then
    .blocked .clientTooOld
      s!"baseline {String.ofList baseline.baselineId} requires a newer client than {debugClientVersion}"
  else if currentSchemaVersion < baseline.schemaVersion then
    .blocked .schemaAhead
      s!"baseline {String.ofList baseline.baselineId} schema {baseline.schemaVersion} is ahead of this client ({currentSchemaVersion})"
  else .freshBaseline baseline

/-- The route of an installed client: only a forward re-baseline helps it. -/
def installedBaselineOrBlocked (baseline : BaselineRef) (cursor : ClientCursor) : CatchupPlan :=
  if baseline.packageKind ≠ .rebaseline then
    .blocked .baselineRequired
      s!"installed corpus `{String.ofList cursor.corpus.name}` needs a re-baseline supersession, but the active media root `{String.ofList baseline.baselineId}` is a first baseline (not catch-up-capable)"
  else if baseline.sequence ≤ cursor.sequence then
    .blocked .baselineRequired
      s!"active re-baseline {String.ofList baseline.baselineId} (sequence {baseline.sequence}) does not advance client `{String.ofList cursor.corpus.name}` at sequence {cursor.sequence}"
  else baselineCompatOrBlocked baseline

/-- The loop of the source, which runs `steps` times from `current` to the
head. A missing, duplicate or longer edge ends it. -/
def chainFrom (packages : List RemotePackageEntry) : (steps current : Nat) → Option (List RemotePackageEntry)
  | 0, _ => some []
  | steps + 1, current =>
    match packages.filter fun p => p.fromSequence == current with
    | [entry] =>
      if entry.toSequence ≠ current + 1 then none
      else (chainFrom packages steps entry.toSequence).map (entry :: ·)
    | _ => none

def buildChain (manifest : RemoteManifest) (start head : Nat) : Option (List RemotePackageEntry) :=
  if head < start then none else chainFrom manifest.packages (head - start) start

def requiresBaselineRange (manifest : RemoteManifest) (sequence : Nat) : Bool :=
  manifest.catchupRanges.any fun r =>
    r.mode == .requiresBaseline && decide (r.fromSequence ≤ sequence) &&
      r.toSequence.any fun top => decide (sequence ≤ top)

def u128Limit : Nat := 2 ^ 128

def saturatingMul (a b : Nat) : Nat := min (a * b) (u128Limit - 1)

def ratioExceeds (cumulative baseline permille : Nat) : Bool :=
  if baseline = 0 then decide (0 < cumulative)
  else decide (saturatingMul baseline permille < saturatingMul cumulative 1000)

/-- The sums wrap at their machine widths. -/
def preferBaseline (manifest : RemoteManifest) (cursor : ClientCursor) (chain : List RemotePackageEntry) : Bool :=
  let policy := manifest.catchupPolicy
  let baseline := manifest.activeBaseline
  let cumCompressed := (chain.map fun e => e.compressedSizeBytes.toNat).sum % u128Limit
  let cumUncompressed := (chain.map fun e => e.uncompressedSizeBytes.toNat).sum % u128Limit
  let cumApply := (chain.map fun e => e.estimatedApplySeconds.toNat).sum % 2 ^ 64
  (chain.any fun e => e.requiresBaseline) ||
  (chain.any fun e => e.embeddingFingerprint != cursor.embeddingFingerprint ||
    e.builderVersions != cursor.builderVersions) ||
  decide (policy.maxIncrementalPackages.toNat < chain.length) ||
  ratioExceeds cumCompressed baseline.compressedSizeBytes.toNat
    policy.maxCumulativeDiffToBaselinePermille.toNat ||
  ratioExceeds cumUncompressed baseline.uncompressedSizeBytes.toNat
    policy.maxCumulativeUncompressedToBaselinePermille.toNat ||
  decide (policy.maxApplySecondsBudget.toNat < cumApply) ||
  decide (baseline.estimatedLoadSeconds.toNat < cumApply)

def CatchupPlan.isFreshBaseline : CatchupPlan → Bool
  | .freshBaseline _ => true
  | _ => false

/-- The routes of an installed client behind the head, after its chain was
reconstructed. -/
def routeChain (manifest : RemoteManifest) (cursor : ClientCursor) (chain : List RemotePackageEntry) :
    CatchupPlan :=
  let fallback := installedBaselineOrBlocked manifest.activeBaseline cursor
  if requiresBaselineRange manifest cursor.sequence then fallback
  else match chain.find? fun e => clientVersion.satisfiesMinimum e.minimumClientVersion == false with
  | some entry => .blocked .clientTooOld
      s!"package {String.ofList entry.packageId} requires a newer client than {debugClientVersion}"
  | none =>
    match chain.find? fun e => decide (currentSchemaVersion < e.schemaVersion) with
    | some entry =>
      if fallback.isFreshBaseline then fallback
      else .blocked .schemaAhead
        s!"package {String.ofList entry.packageId} schema {entry.schemaVersion} is ahead of this client ({currentSchemaVersion}); upgrade required"
    | none => if preferBaseline manifest cursor chain then fallback else .incremental chain

def planCatchup (manifest : RemoteManifest) (cursor : Option ClientCursor) : CatchupPlan :=
  let head := manifest.headSequence
  if head < manifest.activeBaseline.sequence then
    .blocked .wrongGeneration "malformed remote manifest: active_baseline is ahead of head_sequence"
  else match cursor with
  | none => baselineCompatOrBlocked manifest.activeBaseline
  | some cursor =>
    if cursor.sequence = head then .upToDate
    else if head < cursor.sequence then
      .blocked .wrongGeneration
        s!"client sequence {cursor.sequence} is ahead of remote head {head} (wrong feed/environment)"
    else if manifest.requiresBaselineFor cursor.sequence then
      installedBaselineOrBlocked manifest.activeBaseline cursor
    else match buildChain manifest cursor.sequence head with
    | none => installedBaselineOrBlocked manifest.activeBaseline cursor
    | some chain => routeChain manifest cursor chain

end CorpusFeed
