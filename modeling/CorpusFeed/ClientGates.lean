import CorpusFeed.PackageContract
import CorpusFeed.RegistrySafety

/-! What a client checks before it touches a row: the signature, the
compatibility gates, the entitlement and the payload digests of an artifact. -/

namespace CorpusFeed

inductive SyncError where
  | storage (error : StorageError)
  | io (message : String)
  | json (message : String)
  | postgres (message : String)
  | reject (code : RejectCode) (message : String)
  | lockBusy (message : String)
deriving DecidableEq

/-- An artifact directory as a reader finds it. The manifest is absent when it
cannot be read or parsed. -/
structure Artifact where
  manifest : Option (Signed EmbeddedManifest)
  files : List (Text × Text)
deriving DecidableEq

/-- The client an artifact is applied on: its schema, extensions and trust
anchors, and the row-level work on the tables `α` of one generation. -/
structure ClientEnv (α : Type*) where
  verify : EmbeddedManifest → Signature → Bool
  entitled : EmbeddedManifest → Except SyncError Unit
  digestBytes : Text → Text
  appliedSchema : Int
  bundleDigest : Text
  extensions : List Text
  postgresMajor : Nat
  tables : α
  hasCascadeFks : α → Bool
  copyPayloadIn : Artifact → EmbeddedManifest → α → Option α
  buildIndexes : EmbeddedManifest → α → Option α
  applyIncrementalFiles : Artifact → EmbeddedManifest → α → Option α
  postconditionsHold : EmbeddedManifest → α → Bool
  ready : Database α → Text → Bool

variable {α : Type*}

def readManifest (artifact : Artifact) : Except SyncError (Signed EmbeddedManifest) :=
  match artifact.manifest with
  | some signed => .ok signed
  | none => .error (.io "manifest.json cannot be read")

def checkSignature (env : ClientEnv α) (signed : Signed EmbeddedManifest) : Except SyncError Unit :=
  if env.verify signed.payload signed.signature then .ok ()
  else .error (.reject .signatureInvalid "signature verification failed")

def checkClientVersion (manifest : EmbeddedManifest) : Except SyncError Unit :=
  if clientVersion.satisfiesMinimum manifest.compatibility.minimumClientVersion then .ok ()
  else .error (.reject .clientTooOld
    s!"client {clientVersion.show} is older than the package minimum {manifest.compatibility.minimumClientVersion.show}")

def checkSchemaCompatibility (env : ClientEnv α) (manifest : EmbeddedManifest) : Except SyncError Unit :=
  if currentSchemaVersion < env.appliedSchema then .error (.reject .schemaAhead
    s!"client DB schema {env.appliedSchema} is ahead of this binary ({currentSchemaVersion})")
  else if manifest.compatibility.schemaVersion ≠ env.appliedSchema then .error (.reject .schemaAhead
    s!"package schema_version {manifest.compatibility.schemaVersion} != client DB schema {env.appliedSchema}; migrate the client first")
  else if env.bundleDigest ≠ manifest.compatibility.schemaMigrationBundleDigest then .error (.reject .schemaAhead
    s!"client schema bundle digest {String.ofList env.bundleDigest} != package {String.ofList manifest.compatibility.schemaMigrationBundleDigest}; the client's migration set differs")
  else .ok ()

def checkExtensions (env : ClientEnv α) (manifest : EmbeddedManifest) : Except SyncError Unit :=
  match manifest.compatibility.requiresExtensions.find? fun ext => !env.extensions.contains ext with
  | some ext => .error (.reject .extensionMissing
      s!"required extension `{String.ofList ext}` is not installed on the client")
  | none => .ok ()

def checkCopyBinaryGuard (env : ClientEnv α) (manifest : EmbeddedManifest) : Except SyncError Unit :=
  if manifest.payload.files.any fun file => file.format == .copyBinary then
    match manifest.compatibility.postgresMajorMin, manifest.compatibility.postgresMajorMax with
    | some low, some high =>
      if env.postgresMajor < low ∨ high < env.postgresMajor then .error (.reject .extensionMissing
        s!"client PostgreSQL major {env.postgresMajor} outside the package window [{low},{high}]")
      else .ok ()
    | _, _ => .error (.reject .extensionMissing
        "binary COPY payload must declare postgres_major_min/max (loopback guard)")
  else .ok ()

def openTiers : List Text := ["all".toList, "open".toList]

def tierIsOpen (tier : Text) : Bool := openTiers.contains tier

def missingEntitlement (entitlement : Entitlement) : SyncError :=
  .reject .missingEntitlement
    s!"no valid installed license token covers corpus `{String.ofList entitlement.entitlementCorpus.name}` tier `{String.ofList entitlement.tier}` at epoch {entitlement.licenseEpoch}"

/-- `entitled` looks for a valid license token among the installed ones. -/
def checkEntitlement (env : ClientEnv α) (manifest : EmbeddedManifest) : Except SyncError Unit :=
  if tierIsOpen manifest.entitlement.tier then .ok () else env.entitled manifest

def aggregatePayloadDigest (digestBytes : Text → Text) (perFile : List (Text × Text)) : Text :=
  digestBytes (List.intercalate "|".toList (perFile.map fun entry => entry.1 ++ "=".toList ++ entry.2))

/-- The digests of the payload files, read in order into `verified`. -/
def verifyFiles (env : ClientEnv α) (artifact : Artifact) :
    List PayloadFile → List (Text × Text) → Except SyncError (List (Text × Text))
  | [], verified => .ok verified
  | file :: rest, verified =>
    match artifact.files.lookup file.fileName with
    | none => .error (.io "payload file cannot be read")
    | some bytes =>
      let digest := env.digestBytes bytes
      if digest ≠ file.digest then .error (.reject .digestMismatch
        s!"payload `{String.ofList file.fileName}` digest {String.ofList digest} != declared {String.ofList file.digest}")
      else if (verified.lookup file.fileName).isSome then .error (.reject .digestMismatch
        s!"duplicate payload file `{String.ofList file.fileName}` in payload.files")
      else verifyFiles env artifact rest ((file.fileName, digest) :: verified)

def verifyPerFileDigests (env : ClientEnv α) (artifact : Artifact) (manifest : EmbeddedManifest) :
    Except SyncError Unit :=
  match verifyFiles env artifact manifest.payload.files [] with
  | .error e => .error e
  | .ok verified =>
    let aggregate := aggregatePayloadDigest env.digestBytes manifest.integrity.perFileDigests
    if verified.isPerm manifest.integrity.perFileDigests = false then .error (.reject .digestMismatch
      "integrity.per_file_digests does not exactly match the verified payload files")
    else if aggregate ≠ manifest.integrity.artifactSha256 then .error (.reject .digestMismatch
      s!"aggregate payload digest {String.ofList aggregate} != integrity.artifact_sha256 {String.ofList manifest.integrity.artifactSha256}")
    else if aggregate ≠ manifest.integrity.uncompressedPayloadDigest then .error (.reject .digestMismatch
      s!"aggregate payload digest {String.ofList aggregate} != integrity.uncompressed_payload_digest {String.ofList manifest.integrity.uncompressedPayloadDigest}")
    else .ok ()

def wrongKind (expected got : PackageKind) : String :=
  match expected with
  | .incremental => s!"apply_incremental only applies `incremental` packages, got `{got.asStr}`"
  | kind => s!"apply expected a `{kind.asStr}` package, got `{got.asStr}`"

/-- The gates of an applier of `kind` packages. Binary payloads are guarded
for media packages only. -/
def checkGates (env : ClientEnv α) (artifact : Artifact) (signed : Signed EmbeddedManifest)
    (kind : PackageKind) : Except SyncError Unit := do
  let manifest := signed.payload
  checkSignature env signed
  if manifest.identity.packageKind ≠ kind then
    throw (.reject .baselineRequired (wrongKind kind manifest.identity.packageKind))
  checkClientVersion manifest
  checkSchemaCompatibility env manifest
  checkExtensions env manifest
  if kind.isMedia then
    checkCopyBinaryGuard env manifest
  checkEntitlement env manifest
  verifyPerFileDigests env artifact manifest

theorem checkGates_kind {env : ClientEnv α} {artifact : Artifact} {signed : Signed EmbeddedManifest}
    {kind : PackageKind} (h : checkGates env artifact signed kind = .ok ()) :
    signed.payload.identity.packageKind = kind := by
  by_contra hk
  cases hs : checkSignature env signed <;>
    simp [checkGates, hs, hk, bind, Except.bind, throw, throwThe, MonadExceptOf.throw] at h

end CorpusFeed
