import CorpusFeed.SchemaIsolation

/-! Runs of the generation registry: creations in two autocommitted
statements, resets, activations and cleanups of any corpora, in any order. -/

namespace CorpusFeed

/-- `pending` holds the creations whose row is committed and whose schema is
not created yet. -/
structure RegistrySystem (α : Type*) where
  db : Database α
  pending : List (Corpus × UInt32)

inductive RegistryAction (α : Type*) where
  | register (corpus : Corpus) (counter : UInt32) (sourceBaselineId : Option Text)
  | clone (corpus : Corpus) (counter : UInt32)
  | abandon (corpus : Corpus) (counter : UInt32)
  | create (corpus : Corpus) (counter : UInt32) (sourceBaselineId : Option Text)
  | reset (corpus : Corpus) (generation : Text)
  | activate (lockFree : Bool) (corpus : Corpus) (generation : Text) (stamps : ActivationStamps)
      (guard : CursorGuard)
  | dropRetired (corpus : Corpus) (generation : Text)
  | write (identifier : Text) (rows : α → α)

variable {α : Type*}

namespace Database

def settle (db : Database α) : Except StorageError (Database α) → Database α
  | .ok db' => db'
  | .error _ => db

def createGeneration (db : Database α) (tables : α) (corpus : Corpus) (counter : UInt32)
    (sourceBaselineId : Option Text) : Except StorageError (Database α) :=
  match db.registerGeneration corpus counter sourceBaselineId with
  | .ok registered => registered.cloneSchema tables corpus counter
  | .error e => .error e

def onRows (rows : α → α) (schema : Text × α) : Text × α := (schema.1, rows schema.2)

theorem onRows_fst (rows : α → α) (schema : Text × α) : (onRows rows schema).1 = schema.1 := rfl

def writeRows (db : Database α) (identifier : Text) (rows : α → α) : Database α :=
  { db with
    schemas := db.schemas.update (fun schema => schema.1 = identifier) (onRows rows) (onRows_fst rows) }

end Database

namespace RegistrySystem

def start : RegistrySystem α := ⟨Database.empty, []⟩

def step (ready : Database α → Text → Bool) (tables : α) (s : RegistrySystem α) :
    RegistryAction α → RegistrySystem α
  | .register corpus counter sourceBaselineId =>
    match s.db.registerGeneration corpus counter sourceBaselineId with
    | .ok db => ⟨db, (corpus, counter) :: s.pending⟩
    | .error _ => s
  | .clone corpus counter =>
    if (corpus, counter) ∈ s.pending then
      ⟨s.db.settle (s.db.cloneSchema tables corpus counter), s.pending.erase (corpus, counter)⟩
    else s
  | .abandon corpus counter => ⟨s.db, s.pending.erase (corpus, counter)⟩
  | .create corpus counter sourceBaselineId =>
    ⟨s.db.settle (s.db.createGeneration tables corpus counter sourceBaselineId), s.pending⟩
  | .reset corpus generation => ⟨s.db.settle (s.db.resetBuildingGeneration corpus generation), s.pending⟩
  | .activate lockFree corpus generation stamps guard =>
    ⟨s.db.settle (s.db.activateGeneration ready lockFree corpus generation stamps guard), s.pending⟩
  | .dropRetired corpus generation => ⟨s.db.settle (s.db.dropRetiredGeneration corpus generation), s.pending⟩
  | .write identifier rows => ⟨s.db.writeRows identifier rows, s.pending⟩

def run (ready : Database α → Text → Bool) (tables : α) (s : RegistrySystem α)
    (actions : List (RegistryAction α)) : RegistrySystem α :=
  actions.foldl (step ready tables) s

/-- No other label that is active shares the kept part of its schema name. -/
def LabelClear (db : Database α) (generation : Text) : Prop :=
  ∀ row ∈ db.registry, row.state = .active → row.generation.take 45 = generation.take 45 →
    row.generation = generation

/-- A reset that meets a building row and a cleanup that meets a retired one name
a clear label. -/
def StepClear (db : Database α) : RegistryAction α → Prop
  | .reset corpus generation =>
    (∃ row ∈ db.registry, row.key = (corpus, generation) ∧ row.state = .building) → LabelClear db generation
  | .dropRetired corpus generation =>
    (∃ row ∈ db.registry, row.key = (corpus, generation) ∧ row.state = .retired) → LabelClear db generation
  | _ => True

def RunClear (ready : Database α → Text → Bool) (tables : α) :
    RegistrySystem α → List (RegistryAction α) → Prop
  | _, [] => True
  | s, a :: actions => StepClear s.db a ∧ RunClear ready tables (step ready tables s a) actions

end RegistrySystem

/-- One active row for each corpus, named by the cursor, whose schema exists
and is the one the stable views read. -/
structure RegistrySafe (db : Database α) : Prop where
  one_active : ∀ row ∈ db.registry, ∀ row' ∈ db.registry, row.state = .active → row'.state = .active →
    row.corpus = row'.corpus → row = row'
  cursor_iff : ∀ c g, (∃ cursor ∈ db.cursors, cursor.corpus = c ∧ cursor.activeGeneration = g) ↔
    ∃ row ∈ db.registry, row.key = (c, g) ∧ row.state = .active
  views_live : ∃ entries, db.views = some entries ∧
    (∀ entry, entry ∈ entries ↔ entry ∈ db.activeGenerationSchemas) ∧
    ∀ entry ∈ entries, (db.schemas.find? entry.2).isSome = true

/-- The views and the content of every schema they read are unchanged. -/
def LiveSchemasKept (db db' : Database α) : Prop :=
  db'.views = db.views ∧ ∀ entry ∈ db.activeGenerationSchemas, Database.KeepsSchema entry.2 db db'

/-- The building row becomes active, the row the cursor named is retired, and
no other row and no schema changes. -/
structure ActivationMoves (db db' : Database α) (c : Corpus) (g : Text) : Prop where
  activated : ∃ row ∈ db.registry, row.key = (c, g) ∧ row.state = .building ∧
    ∃ row' ∈ db'.registry, row'.key = (c, g) ∧ row'.state = .active
  retired_iff : ∀ row ∈ db.registry,
    (row.state ≠ .retired ∧ row.retire ∈ db'.registry) ↔
      ∃ cursor ∈ db.cursors, cursor.corpus = c ∧ row.key = (c, cursor.activeGeneration)
  others_kept : ∀ row ∈ db.registry, row.key ≠ (c, g) →
    (∀ cursor ∈ db.cursors, cursor.corpus = c → row.key ≠ (c, cursor.activeGeneration)) → row ∈ db'.registry
  schemas_kept : db'.schemas = db.schemas

end CorpusFeed
