import CorpusFeed.ClientGates

/-! The incremental applier: one transaction on the active generation, gated
by the cursor. -/

namespace CorpusFeed

variable {α : Type*}

/-- The stored cursor is a signed 64-bit integer, and larger results saturate. -/
def saturateI64 (n : Nat) : Int := (min n (2 ^ 63 - 1) : Nat)

inductive ApplyOutcome where
  | applied (corpus : Corpus) (sequence : Nat)
  | alreadyApplied (corpus : Corpus) (sequence : Nat)
deriving DecidableEq

def advanceCursor (resultSequence : Nat) (packageId packageDigest : Text) (cursor : CorpusState) : CorpusState :=
  { cursor with
    sequence := saturateI64 resultSequence
    lastPackageId := some packageId
    lastPackageDigest := some packageDigest }

theorem advanceCursor_corpus (resultSequence : Nat) (packageId packageDigest : Text) (cursor : CorpusState) :
    (advanceCursor resultSequence packageId packageDigest cursor).corpus = cursor.corpus := rfl

def rejectIf {ε β : Type*} (cond : Prop) [Decidable cond] (e : ε) (next : Except ε β) : Except ε β :=
  if cond then .error e else next

theorem rejectIf_ok {ε β : Type*} {cond : Prop} [Decidable cond] {e : ε} {next : Except ε β} {b : β} :
    rejectIf cond e next = .ok b ↔ ¬ cond ∧ next = .ok b := by
  unfold rejectIf
  split <;> simp_all

/-- Ordering, chain link and content preconditions against the cursor row. -/
def checkLinks (manifest : EmbeddedManifest) (cursor : CorpusState) : Except SyncError Unit :=
  let current := cursor.sequence.toNat
  let result := manifest.apply.resultSequence
  let pre := manifest.apply.preconditions
  let corpus := String.ofList cursor.corpus.name
  rejectIf (result < current) (.reject .wrongGeneration
    s!"corpus `{corpus}` is at {current}, ahead of this package's {result}") <|
  rejectIf (current ≠ manifest.apply.expectedClientFromSequence) (.reject .sequenceGap
    s!"corpus `{corpus}` is at {current}, package expects from-sequence {manifest.apply.expectedClientFromSequence}") <|
  rejectIf (manifest.identity.previousPackageId ≠ cursor.lastPackageId) (.reject .wrongGeneration
    "previous_package_id does not match the corpus cursor") <|
  rejectIf (manifest.identity.previousPackageSha256 ≠ cursor.lastPackageDigest) (.reject .digestMismatch
    "previous_package_sha256 does not match the corpus cursor") <|
  rejectIf (pre.activeBaselineId.any fun expected => expected != cursor.baselineId) (.reject .wrongGeneration
    "active_baseline_id precondition mismatch") <|
  rejectIf (pre.activeGeneration.any fun expected => expected != cursor.activeGeneration)
    (.reject .wrongGeneration "active_generation precondition mismatch") <|
  rejectIf (pre.schemaVersion ≠ cursor.schemaVersion) (.reject .schemaAhead
    s!"precondition schema_version {pre.schemaVersion} != cursor {cursor.schemaVersion}") <|
  rejectIf (pre.embeddingFingerprint ≠ cursor.embeddingFingerprint) (.reject .embeddingFingerprintMismatch
    s!"precondition embedding_fingerprint `{String.ofList pre.embeddingFingerprint}` != cursor `{String.ofList cursor.embeddingFingerprint}`") <|
  rejectIf (pre.builderVersions ≠ cursor.builderVersions) (.reject .builderVersionMismatch
    "precondition builder_versions != cursor builder_versions") <|
  .ok ()

/-- The decision on the cursor row. `none` means the package is already applied. -/
def checkIncremental (manifest : EmbeddedManifest) (cursor : CorpusState) : Except SyncError (Option Unit) :=
  if cursor.sequence.toNat = manifest.apply.resultSequence then
    rejectIf (¬(cursor.lastPackageId = some manifest.identity.packageId ∧
        cursor.lastPackageDigest = some manifest.integrity.artifactSha256)) (.reject .digestMismatch
      s!"corpus `{String.ofList cursor.corpus.name}` already at {cursor.sequence.toNat} with a different package; refusing") <|
    .ok none
  else match checkLinks manifest cursor with
  | .error e => .error e
  | .ok () => .ok (some ())

namespace Database

def setRows (db : Database α) (identifier : Text) (rows : α) : Database α :=
  { db with schemas := db.schemas.upsert (identifier, rows) }

def advanceCorpusCursor (db : Database α) (manifest : EmbeddedManifest) : Database α :=
  { db with
    cursors := db.cursors.update (fun cursor => cursor.corpus = manifest.identity.corpus)
      (advanceCursor manifest.apply.resultSequence manifest.identity.packageId manifest.integrity.artifactSha256)
      (advanceCursor_corpus manifest.apply.resultSequence manifest.identity.packageId
        manifest.integrity.artifactSha256) }

/-- The rows, the postconditions, the cursor and the readiness stamp of one
incremental, on the active generation. -/
def applyIncrementalRows (env : ClientEnv α) (db : Database α) (artifact : Artifact)
    (manifest : EmbeddedManifest) (cursor : CorpusState) : Except SyncError (Database α) :=
  let identifier := schemaIdentifier cursor.activeGeneration
  match db.schemas.find? identifier with
  | none => .error (.storage (.postgresClient "schema does not exist"))
  | some (_, rows) =>
    if env.hasCascadeFks rows = false then .error (.reject .wrongGeneration
      s!"generation `{String.ofList (schemaForGeneration cursor.activeGeneration)}` is missing the cascade FKs replace-sets rely on")
    else match env.applyIncrementalFiles artifact manifest rows with
    | none => .error (.reject .digestMismatch "replace_set set_digest mismatch")
    | some rows =>
      if env.postconditionsHold manifest rows = false then .error (.reject .digestMismatch
        "postcondition mismatch after incremental apply")
      else
        let advanced := (db.setRows identifier rows).advanceCorpusCursor manifest
        if env.ready advanced cursor.activeGeneration then .ok advanced
        else .error (.storage (.ingestAccounting "generation not query-ready"))

end Database

def applyIncremental (env : ClientEnv α) (lockFree : Bool) (db : Database α) (artifact : Artifact) :
    Except SyncError (Database α × ApplyOutcome) :=
  match readManifest artifact with
  | .error e => .error e
  | .ok signed =>
    let manifest := signed.payload
    match checkGates env artifact signed .incremental with
    | .error e => .error e
    | .ok () =>
      if lockFree = false then .error (.lockBusy "another apply holds the advisory lock")
      else match db.cursors.find? manifest.identity.corpus with
      | none => .error (.reject .baselineRequired
          s!"corpus `{String.ofList manifest.identity.corpus.name}` is not installed; apply a baseline first")
      | some cursor =>
        match checkIncremental manifest cursor with
        | .error e => .error e
        | .ok none =>
          if env.ready db cursor.activeGeneration then
            .ok (db, .alreadyApplied manifest.identity.corpus cursor.sequence.toNat)
          else .error (.storage (.ingestAccounting "generation not query-ready"))
        | .ok (some ()) =>
          match db.applyIncrementalRows env artifact manifest cursor with
          | .error e => .error e
          | .ok db' => .ok (db', .applied manifest.identity.corpus manifest.apply.resultSequence)

end CorpusFeed
