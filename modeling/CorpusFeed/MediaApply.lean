import CorpusFeed.IncrementalApply

/-! The media applier: a baseline or re-baseline is loaded into a fresh
generation in autocommitted phases and switched in by the last one. -/

namespace CorpusFeed

variable {α : Type*}

inductive MediaApplyMode where
  | baseline
  | rebaseline
deriving DecidableEq

def MediaApplyMode.expectedKind : MediaApplyMode → PackageKind
  | .baseline => .baseline
  | .rebaseline => .rebaseline

def MediaApplyMode.behindIsApplicable : MediaApplyMode → Bool
  | .baseline => false
  | .rebaseline => true

def MediaApplyMode.guard (mode : MediaApplyMode) (resultSequence : Nat) : CursorGuard :=
  match mode with
  | .baseline => .firstBaseline
  | .rebaseline => .rebaselineForward (saturateI64 resultSequence)

/-- `none` lets the apply proceed. -/
def idempotencyDecision (db : Database α) (manifest : EmbeddedManifest) (behindIsApplicable : Bool) :
    Except SyncError (Option ApplyOutcome) :=
  let corpus := manifest.identity.corpus
  let result := manifest.apply.resultSequence
  match db.cursors.find? corpus with
  | none => .ok none
  | some cursor =>
    let current := cursor.sequence.toNat
    if current = result then
      if cursor.lastPackageId = some manifest.identity.packageId ∧
          cursor.lastPackageDigest = some manifest.integrity.artifactSha256 then
        .ok (some (.alreadyApplied corpus current))
      else .error (.reject .digestMismatch
        s!"corpus `{String.ofList corpus.name}` already at sequence {current} with a DIFFERENT package id/digest; refusing")
    else if result < current then .error (.reject .wrongGeneration
      s!"corpus `{String.ofList corpus.name}` is at sequence {current}, ahead of this package's {result}")
    else if behindIsApplicable then .ok none
    else .error (.reject .baselineRequired
      s!"corpus `{String.ofList corpus.name}` already installed at {current}; a re-baseline is P5, not P3")

/-- A media apply that holds its corpus lock and decided to build. -/
structure MediaApply where
  mode : MediaApplyMode
  artifact : Artifact
  manifest : EmbeddedManifest
  counter : UInt32

namespace MediaApply

def corpus (m : MediaApply) : Corpus := m.manifest.identity.corpus

def label (m : MediaApply) : Text := m.manifest.identity.generation

/-- The label the created schema gets, from the parsed counter. -/
def createdLabel (m : MediaApply) : Text := generationName m.corpus.name m.counter

def stamps (m : MediaApply) : ActivationStamps where
  sequence := saturateI64 m.manifest.apply.resultSequence
  baselineId := m.manifest.identity.baselineId
  schemaVersion := m.manifest.compatibility.schemaVersion
  embeddingFingerprint := m.manifest.compatibility.embeddingFingerprint
  builderVersions := m.manifest.compatibility.builderVersions
  lastPackageId := some m.manifest.identity.packageId
  lastPackageDigest := some m.manifest.integrity.artifactSha256

end MediaApply

inductive MediaPhase where
  | reset
  | register
  | clone
  | copy
  | index
  | validate
  | activate
deriving DecidableEq

def mediaPhases : List MediaPhase :=
  [.reset, .register, .clone, .copy, .index, .validate, .activate]

def liftStorage (result : Except StorageError (Database α)) : Except SyncError (Database α) :=
  match result with
  | .ok db => .ok db
  | .error e => .error (.storage e)

/-- Row-level work on the schema of a label. -/
def Database.mapSchema (db : Database α) (identifier : Text) (f : α → Option α) :
    Except SyncError (Database α) :=
  match db.schemas.find? identifier with
  | none => .error (.storage (.postgresClient "schema does not exist"))
  | some (_, rows) =>
    match f rows with
    | some rows => .ok (db.setRows identifier rows)
    | none => .error (.reject .digestMismatch "payload rows cannot be loaded")

def mediaStep (env : ClientEnv α) (lockFree : Bool) (m : MediaApply) (db : Database α) :
    MediaPhase → Except SyncError (Database α)
  | .reset => liftStorage (db.resetBuildingGeneration m.corpus m.label)
  | .register => liftStorage (db.registerGeneration m.corpus m.counter (some m.manifest.identity.baselineId))
  | .clone => liftStorage (db.cloneSchema env.tables m.corpus m.counter)
  | .copy => db.mapSchema (schemaIdentifier m.createdLabel) (env.copyPayloadIn m.artifact m.manifest)
  | .index => db.mapSchema (schemaIdentifier m.label) (env.buildIndexes m.manifest)
  | .validate =>
    match db.schemas.find? (schemaIdentifier m.createdLabel) with
    | none => .error (.storage (.postgresClient "schema does not exist"))
    | some (_, rows) =>
      if env.postconditionsHold m.manifest rows then .ok db
      else .error (.reject .digestMismatch "postcondition mismatch")
  | .activate => liftStorage (db.activateGeneration env.ready lockFree m.corpus m.label m.stamps
      (m.mode.guard m.manifest.apply.resultSequence))

/-- The gates, then under the corpus lock the idempotency decision and the
counter of the label. -/
def startMedia (env : ClientEnv α) (mode : MediaApplyMode) (db : Database α) (artifact : Artifact) :
    Except SyncError (ApplyOutcome ⊕ MediaApply) :=
  match readManifest artifact with
  | .error e => .error e
  | .ok signed =>
    let manifest := signed.payload
    match checkGates env artifact signed mode.expectedKind with
    | .error e => .error e
    | .ok () =>
      match idempotencyDecision db manifest mode.behindIsApplicable with
      | .error e => .error e
      | .ok (some outcome) =>
        match db.cursors.find? manifest.identity.corpus with
        | none => .error (.storage (.postgresClient "query returned an unexpected number of rows"))
        | some cursor =>
          if env.ready db cursor.activeGeneration then .ok (.inl outcome)
          else .error (.storage (.ingestAccounting "generation not query-ready"))
      | .ok none =>
        match generationCounterOf manifest.identity.corpus.name manifest.identity.generation with
        | none => .error (.reject .digestMismatch
            s!"manifest generation `{String.ofList manifest.identity.generation}` is not a <corpus>_g<NNNN> label")
        | some counter => .ok (.inr ⟨mode, artifact, manifest, counter⟩)

/-- The phases in order. A failed phase keeps what the earlier ones committed. -/
def runMedia (env : ClientEnv α) (lockFree : Bool) (m : MediaApply) :
    List MediaPhase → Database α → Database α × Except SyncError ApplyOutcome
  | [], db => (db, .ok (.applied m.corpus m.manifest.apply.resultSequence))
  | phase :: phases, db =>
    match mediaStep env lockFree m db phase with
    | .ok db' => runMedia env lockFree m phases db'
    | .error e => (db, .error e)

/-- An uninterrupted media apply. -/
def applyMedia (env : ClientEnv α) (mode : MediaApplyMode) (lockFree : Bool) (db : Database α)
    (artifact : Artifact) : Database α × Except SyncError ApplyOutcome :=
  match startMedia env mode db artifact with
  | .error e => (db, .error e)
  | .ok (.inl outcome) => (db, .ok outcome)
  | .ok (.inr m) => runMedia env lockFree m mediaPhases db

end CorpusFeed
