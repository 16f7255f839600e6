import CorpusFeed.PublishedRoot
import CorpusFeed.IncrementalApply
import Mathlib.Data.List.Sort

/-! The producer's remote-manifest builder: the newest media root, the retained
incrementals after it, and the identity of every artifact it lists. -/

namespace CorpusFeed

structure RemoteManifestParams where
  publisher : Text
  environment : Text
  generatedAt : Text
  catchupPolicy : CatchupPolicy
  entitlementTier : EntitlementTier
  licenseEpoch : Nat
  audience : Option Text
  signingKeyId : Text
  uriBase : Text
  maxRetainedIncrementals : Nat
  defaultApplySeconds : UInt32
  defaultLoadSeconds : UInt32

/-- The signer and the digests of a producer. -/
structure ProducerEnv where
  algorithm : Text
  signEmbedded : EmbeddedManifest → Signature
  signRemote : RemoteManifest → Signature
  digestBytes : Text → Text
  canonicalDigest : EmbeddedManifest → Text
  manifestBytes : Signed EmbeddedManifest → Nat

def debugOption : Option Text → String
  | none => "None"
  | some text => s!"Some({(String.ofList text).quote})"

def catalogMismatch (row : CatalogRow) (field : String) (found : String) : BuildError :=
  missing s!"published artifact `{String.ofList row.packageId}` {field} `{found}` != cataloged row"

/-- The published manifest against its catalog row. -/
def verifyCatalogIdentity (env : ProducerEnv) (row : CatalogRow) (signed : Signed EmbeddedManifest)
    (expectIncremental : Bool) : Except BuildError Unit :=
  let manifest := signed.payload
  let identity := manifest.identity
  let packageId := String.ofList row.packageId
  let canonical := env.canonicalDigest manifest
  rejectIf (row.packageDigest ≠ some manifest.integrity.artifactSha256) (missing
    s!"published artifact `{packageId}` payload digest {String.ofList manifest.integrity.artifactSha256} != cataloged {debugOption row.packageDigest}") <|
  rejectIf (row.manifestDigest ≠ some canonical) (missing
    s!"published artifact `{packageId}` embedded-manifest digest {String.ofList canonical} != cataloged {debugOption row.manifestDigest}") <|
  rejectIf (identity.packageId ≠ row.packageId)
    (catalogMismatch row "package_id" (String.ofList identity.packageId)) <|
  rejectIf (identity.packageKind ≠ row.packageKind)
    (catalogMismatch row "package_kind" identity.packageKind.asStr) <|
  rejectIf (identity.baselineId ≠ row.baselineId)
    (catalogMismatch row "baseline_id" (String.ofList identity.baselineId)) <|
  rejectIf (identity.generation ≠ row.generation)
    (catalogMismatch row "generation" (String.ofList identity.generation)) <|
  rejectIf (saturateI64 identity.toSequence ≠ row.packageSequence)
    (catalogMismatch row "to_sequence" s!"{identity.toSequence}") <|
  rejectIf (expectIncremental = true ∧ identity.packageKind ≠ .incremental)
    (catalogMismatch row "package_kind (expected incremental)" identity.packageKind.asStr) <|
  rejectIf (expectIncremental = true ∧ identity.toSequence ≠ identity.fromSequence + 1) (missing
    s!"incremental `{packageId}` is not a +1 link ({identity.fromSequence} -> {identity.toSequence})") <|
  .ok ()

def readPublishedManifest (root : ServedRoot) (packageId : Text) : Except BuildError (ArtifactDir × Signed EmbeddedManifest) :=
  match root.publishedPackageDir packageId with
  | none => .error (missing
      s!"published artifact `{String.ofList packageId}` is missing (No such file or directory)")
  | some dir =>
    match dir.manifest with
    | .absent => .error (missing
        s!"published artifact `{String.ofList packageId}` is missing (No such file or directory)")
    | .torn => .error (.json "EOF while parsing a value")
    | .whole signed => .ok (dir, signed)

def artifactUri (params : RemoteManifestParams) (corpus : Corpus) (packageId : Text) : Text :=
  params.uriBase ++ corpus.name ++ "/packages/".toList ++ packageId

/-- Every file of the directory, its manifest included. -/
def artifactDirSizeBytes (env : ProducerEnv) (dir : ArtifactDir) (signed : Signed EmbeddedManifest) : UInt64 :=
  UInt64.ofNat (env.manifestBytes signed + (dir.files.map fun file => file.2.length).sum)

/-- Counts by table, in table order. -/
def addCount (counts : List (Text × Nat)) (op : OperationCount) : List (Text × Nat) :=
  match counts with
  | [] => [(op.table, op.count)]
  | (table, n) :: rest =>
    if op.table = table then (table, n + op.count) :: rest
    else if op.table < table then (op.table, op.count) :: (table, n) :: rest
    else (table, n) :: addCount rest op

def rowCounts (manifest : EmbeddedManifest) : List (Text × Nat) :=
  manifest.apply.operations.foldl addCount []

def activeBaselineRef (env : ProducerEnv) (params : RemoteManifestParams) (corpus : Corpus) (media : CatalogRow)
    (dir : ArtifactDir) (signed : Signed EmbeddedManifest) : BaselineRef where
  baselineId := signed.payload.identity.baselineId
  generation := signed.payload.identity.generation
  packageKind := signed.payload.identity.packageKind
  sequence := signed.payload.identity.toSequence
  schemaVersion := signed.payload.compatibility.schemaVersion
  minimumClientVersion := signed.payload.compatibility.minimumClientVersion
  artifactUri := artifactUri params corpus media.packageId
  compressedSizeBytes := artifactDirSizeBytes env dir signed
  uncompressedSizeBytes := artifactDirSizeBytes env dir signed
  estimatedLoadSeconds := params.defaultLoadSeconds
  sha256 := signed.payload.integrity.artifactSha256
  signature := signed.signature

def retainedEntry (env : ProducerEnv) (params : RemoteManifestParams) (corpus : Corpus) (row : CatalogRow)
    (dir : ArtifactDir) (signed : Signed EmbeddedManifest) : RemotePackageEntry where
  packageId := row.packageId
  fromSequence := signed.payload.identity.fromSequence
  toSequence := signed.payload.identity.toSequence
  artifactUri := artifactUri params corpus row.packageId
  compressedSizeBytes := artifactDirSizeBytes env dir signed
  uncompressedSizeBytes := artifactDirSizeBytes env dir signed
  estimatedApplySeconds := params.defaultApplySeconds
  rowCounts := rowCounts signed.payload
  requiresBaseline := false
  minimumClientVersion := signed.payload.compatibility.minimumClientVersion
  schemaVersion := signed.payload.compatibility.schemaVersion
  embeddingFingerprint := signed.payload.compatibility.embeddingFingerprint
  builderVersions := signed.payload.compatibility.builderVersions
  sha256 := signed.payload.integrity.artifactSha256
  signature := signed.signature

def retainedEntries (env : ProducerEnv) (params : RemoteManifestParams) (corpus : Corpus) (root : ServedRoot) :
    List CatalogRow → Except BuildError (List RemotePackageEntry)
  | [] => .ok []
  | row :: rows => do
    let (dir, signed) ← readPublishedManifest root row.packageId
    verifyCatalogIdentity env row signed true
    let entries ← retainedEntries env params corpus root rows
    pure (retainedEntry env params corpus row dir signed :: entries)

/-- The newest incrementals after the media root, at most `limit` of them. -/
def retainedIncrementals (rows : List CatalogRow) (mediaSequence : Int) (limit : Nat) : List CatalogRow :=
  let incrementals := (rows.filter fun r =>
    r.packageKind == .incremental && decide (mediaSequence < r.packageSequence)).insertionSort
      fun a b => a.packageSequence ≤ b.packageSequence
  incrementals.drop (incrementals.length - limit)

def ensureGapFree : List RemotePackageEntry → Except BuildError Unit
  | first :: second :: rest =>
    if first.toSequence ≠ second.fromSequence then .error (missing
      s!"retained incremental chain has a gap: {first.fromSequence} -> {first.toSequence} then {second.fromSequence} -> {second.toSequence}")
    else ensureGapFree (second :: rest)
  | _ => .ok ()

def catchupRangesFor (minAvailable : Nat) (baselineId : Text) : List CatchupRange :=
  if 1 < minAvailable then [⟨0, some (minAvailable - 1), .requiresBaseline, some baselineId⟩] else []

def assembleManifest (env : ProducerEnv) (params : RemoteManifestParams) (corpus : Corpus) (active : BaselineRef)
    (packages : List RemotePackageEntry) : RemoteManifest :=
  let head := (packages.getLast?.map RemotePackageEntry.toSequence).getD active.sequence
  let minAvailable := (packages.head?.map RemotePackageEntry.fromSequence).getD active.sequence
  { manifestVersion := 1
    generatedAt := params.generatedAt
    publisher := params.publisher
    corpus := corpus
    environment := params.environment
    headSequence := head
    minAvailableSequence := minAvailable
    activeBaseline := active
    packages := packages
    catchupRanges := catchupRangesFor minAvailable active.baselineId
    catchupPolicy := params.catchupPolicy
    entitlement := ⟨corpus, params.entitlementTier, params.licenseEpoch, params.audience⟩
    signing := ⟨params.signingKeyId, env.algorithm⟩ }

def buildRemoteManifest (env : ProducerEnv) (params : RemoteManifestParams) (corpus : Corpus)
    (catalog : Catalog) (root : ServedRoot) : Except BuildError (Signed RemoteManifest) :=
  match catalog.latestMediaPackage with
  | none => .error (missing s!"no media root cataloged for corpus `{String.ofList corpus.name}`")
  | some media => do
    let (dir, signed) ← readPublishedManifest root media.packageId
    verifyCatalogIdentity env media signed false
    let active := activeBaselineRef env params corpus media dir signed
    let packages ← retainedEntries env params corpus root
      (retainedIncrementals catalog.rows media.packageSequence params.maxRetainedIncrementals)
    ensureGapFree packages
    let manifest := assembleManifest env params corpus active packages
    pure ⟨manifest, env.signRemote manifest⟩

section Packages

variable {env : ProducerEnv} {params : RemoteManifestParams} {corpus : Corpus} {root root' : ServedRoot}

theorem readPublishedManifest_congr (h : root.packages = root'.packages) (packageId : Text) :
    readPublishedManifest root packageId = readPublishedManifest root' packageId := by
  simp only [readPublishedManifest, ServedRoot.publishedPackageDir, h]

theorem retainedEntries_congr (h : root.packages = root'.packages) (rows : List CatalogRow) :
    retainedEntries env params corpus root rows = retainedEntries env params corpus root' rows := by
  induction rows with
  | nil => rfl
  | cons row rows ih => simp only [retainedEntries, readPublishedManifest_congr h, ih]

theorem buildRemoteManifest_congr (h : root.packages = root'.packages) (catalog : Catalog) :
    buildRemoteManifest env params corpus catalog root = buildRemoteManifest env params corpus catalog root' := by
  simp only [buildRemoteManifest, readPublishedManifest_congr h, retainedEntries_congr h]

end Packages

end CorpusFeed
