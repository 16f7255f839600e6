import CorpusFeed.GenerationName
import CorpusFeed.KeyedTable

/-! The client database as the generation functions see it: the registry, the
cursors, the physical schemas and the stable views. Every function is one
transaction, and an error returns no new database. -/

namespace CorpusFeed

inductive GenerationState where
  | building
  | active
  | retired
  | failed
deriving DecidableEq

def GenerationState.text : GenerationState → String
  | .building => "building"
  | .active => "active"
  | .retired => "retired"
  | .failed => "failed"

structure GenerationRow where
  corpus : Corpus
  generation : Text
  physicalSchema : Text
  state : GenerationState
  sourceBaselineId : Option Text
  sourcePackageId : Option Text
  validationDigest : Option Text
deriving DecidableEq

def GenerationRow.key (row : GenerationRow) : Corpus × Text := (row.corpus, row.generation)

theorem GenerationRow.key_eq_iff {row : GenerationRow} {c : Corpus} {g : Text} :
    row.key = (c, g) ↔ row.corpus = c ∧ row.generation = g := by
  simp [key]

structure ActivationStamps where
  sequence : Int
  baselineId : Text
  schemaVersion : Int
  embeddingFingerprint : Text
  builderVersions : List (Text × Text)
  lastPackageId : Option Text
  lastPackageDigest : Option Text

def GenerationRow.retire (row : GenerationRow) : GenerationRow := { row with state := .retired }

def GenerationRow.activate (stamps : ActivationStamps) (row : GenerationRow) : GenerationRow :=
  { row with
    state := .active
    sourcePackageId := stamps.lastPackageId
    validationDigest := stamps.lastPackageDigest }

@[simp] theorem GenerationRow.retire_key (row : GenerationRow) : row.retire.key = row.key := rfl

@[simp] theorem GenerationRow.activate_key (stamps : ActivationStamps) (row : GenerationRow) :
    (row.activate stamps).key = row.key := rfl

structure CorpusState where
  corpus : Corpus
  activeGeneration : Text
  sequence : Int
  baselineId : Text
  schemaVersion : Int
  embeddingFingerprint : Text
  builderVersions : List (Text × Text)
  lastPackageId : Option Text
  lastPackageDigest : Option Text
deriving DecidableEq

def ActivationStamps.cursor (stamps : ActivationStamps) (corpus : Corpus) (generation : Text) : CorpusState where
  corpus := corpus
  activeGeneration := generation
  sequence := stamps.sequence
  baselineId := stamps.baselineId
  schemaVersion := stamps.schemaVersion
  embeddingFingerprint := stamps.embeddingFingerprint
  builderVersions := stamps.builderVersions
  lastPackageId := stamps.lastPackageId
  lastPackageDigest := stamps.lastPackageDigest

/-- `α` is the content of the replicated tables of one schema. The stable
views list the schemas they read, and are absent after a cascading drop. -/
structure Database (α : Type*) where
  registry : Table GenerationRow.key
  cursors : Table CorpusState.corpus
  schemas : Table (Prod.fst : Text × α → Text)
  views : Option (List (Corpus × Text))

inductive StorageError where
  | storageLockBusy (path : String)
  | advisoryLockBusy (dataDir : String) (key : Int)
  | postgresClient (message : String)
  | applyLockBusy (message : String)
  | generations (message : String)
  | ingestAccounting (message : String)
  | packageCatalog (message : String)
  | outbox (message : String)
deriving DecidableEq

inductive CursorGuard where
  | firstBaseline
  | exactPrevious (expected : Int)
  | rebaselineForward (resultSequence : Int)

variable {α : Type*}

namespace Database

def empty : Database α := ⟨Table.empty, Table.empty, Table.empty, some []⟩

/-- The first, autocommitted statement of a generation's creation. -/
def registerGeneration (db : Database α) (corpus : Corpus) (counter : UInt32)
    (sourceBaselineId : Option Text) : Except StorageError (Database α) :=
  let generation := generationName corpus.name counter
  match db.registry.insert
      ⟨corpus, generation, generationSchema corpus.name counter, .building, sourceBaselineId, none, none⟩ with
  | none => .error (.postgresClient "duplicate key value violates unique constraint")
  | some registry => .ok { db with registry := registry }

def cloneSchema (db : Database α) (tables : α) (corpus : Corpus) (counter : UInt32) :
    Except StorageError (Database α) :=
  match db.schemas.insert (schemaIdentifier (generationName corpus.name counter), tables) with
  | none => .error (.postgresClient "schema already exists")
  | some schemas => .ok { db with schemas := schemas }

/-- `DROP SCHEMA .. CASCADE` takes every view that reads the schema with it. -/
def dropSchema (db : Database α) (identifier : Text) : Database α :=
  { db with
    schemas := db.schemas.filter fun schema => schema.1 ≠ identifier
    views := match db.views with
      | some entries => if entries.any fun entry => entry.2 == identifier then none else some entries
      | none => none }

def resetBuildingGeneration (db : Database α) (corpus : Corpus) (generation : Text) :
    Except StorageError (Database α) :=
  match db.registry.find? (corpus, generation) with
  | none => .ok db
  | some row =>
    if row.state = .building then
      let dropped := db.dropSchema (truncateIdentifier row.physicalSchema)
      .ok { dropped with registry := db.registry.filter fun r => r.key ≠ (corpus, generation) }
    else .error (.generations
      s!"refusing to reset generation `{String.ofList generation}` for `{String.ofList corpus.name}` in state `{row.state.text}` (only a half-built `building` generation may be reset)")

def dropRetiredGeneration (db : Database α) (corpus : Corpus) (generation : Text) :
    Except StorageError (Database α) :=
  match db.registry.find? (corpus, generation) with
  | none => .error (.generations
      s!"refusing to drop generation `{String.ofList generation}` for `{String.ofList corpus.name}`: no retired registry row")
  | some row =>
    if row.state = .retired then
      if (db.schemas.find? (truncateIdentifier row.physicalSchema)).isSome then
        let dropped := db.dropSchema (truncateIdentifier row.physicalSchema)
        .ok { dropped with registry := db.registry.filter fun r => r.key ≠ (corpus, generation) }
      else .error (.postgresClient "schema does not exist")
    else .error (.generations
      s!"refusing to drop generation `{String.ofList generation}` for `{String.ofList corpus.name}`: no retired registry row")

def currentSequence (db : Database α) (corpus : Corpus) : Option Int :=
  (db.cursors.find? corpus).map CorpusState.sequence

def debugSequence : Option Int → String
  | none => "None"
  | some n => s!"Some({n})"

def checkCursorGuard (corpus : Corpus) (guard : CursorGuard) (current : Option Int) :
    Except StorageError Unit :=
  match guard, current with
  | .firstBaseline, some found => .error (.generations
      s!"cursor guard for `{String.ofList corpus.name}`: FirstBaseline requires no cursor, found {found}")
  | .firstBaseline, none => .ok ()
  | .exactPrevious expected, current =>
    if current = some expected then .ok () else .error (.generations
      s!"cursor mismatch for `{String.ofList corpus.name}`: expected previous sequence {expected}, found {debugSequence current}")
  | .rebaselineForward resultSequence, some current =>
    if resultSequence ≤ current then .error (.generations
      s!"re-baseline forward guard for `{String.ofList corpus.name}`: current sequence {current} is not behind result {resultSequence} (idempotency/regression decided pre-build)")
    else .ok ()
  | .rebaselineForward _, none => .ok ()

def activeGenerationSchemas (db : Database α) : List (Corpus × Text) :=
  db.cursors.rows.map fun cursor => (cursor.corpus, schemaIdentifier cursor.activeGeneration)

def rebuildServerViews (db : Database α) : Except StorageError (Database α) :=
  if db.activeGenerationSchemas.all fun entry => (db.schemas.find? entry.2).isSome then
    .ok { db with views := some db.activeGenerationSchemas }
  else .error (.postgresClient "relation does not exist")

def switchGeneration (db : Database α) (corpus : Corpus) (generation : Text)
    (stamps : ActivationStamps) : Database α :=
  let retired := db.registry.update
    (fun row => row.corpus = corpus && row.state = .active && row.generation ≠ generation)
    GenerationRow.retire GenerationRow.retire_key
  { db with
    registry := retired.update (fun row => row.key = (corpus, generation))
      (GenerationRow.activate stamps) (GenerationRow.activate_key stamps)
    cursors := db.cursors.upsert (stamps.cursor corpus generation) }

/-- `lockFree` is the outcome of the advisory lock attempt, and `ready` the
readiness stamp with the visibility probe on the switched database. -/
def activateGeneration (ready : Database α → Text → Bool) (lockFree : Bool) (db : Database α)
    (corpus : Corpus) (generation : Text) (stamps : ActivationStamps) (guard : CursorGuard) :
    Except StorageError (Database α) :=
  if lockFree = false then
    .error (.applyLockBusy "another apply/switch holds the advisory lock")
  else match db.registry.find? (corpus, generation) with
  | none => .error (.generations
      s!"generation `{String.ofList generation}` is not registered for corpus `{String.ofList corpus.name}`")
  | some row =>
    if row.state = .building then
      match checkCursorGuard corpus guard (db.currentSequence corpus) with
      | .error e => .error e
      | .ok () =>
        match (db.switchGeneration corpus generation stamps).rebuildServerViews with
        | .error e => .error e
        | .ok switched =>
          if ready switched generation then .ok switched
          else .error (.ingestAccounting "generation not query-ready")
    else .error (.generations
      s!"cannot activate generation `{String.ofList generation}` in state `{row.state.text}` (expected building)")

end Database

end CorpusFeed
