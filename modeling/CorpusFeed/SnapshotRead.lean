import CorpusFeed.Collation
import CorpusFeed.RegistrySafety
import CorpusFeed.Runs

/-! A read request against the client database: its snapshot and the generations
it resolved are fixed when it opens, while each of its reads looks its tables up
in the catalog as it is then. -/

namespace CorpusFeed

structure ActiveCorpus where
  corpus : Corpus
  generation : Text
  schema : Text
  sequence : Int
  fingerprint : Text

def CorpusState.resolve (cursor : CorpusState) : ActiveCorpus where
  corpus := cursor.corpus
  generation := cursor.activeGeneration
  schema := schemaForGeneration cursor.activeGeneration
  sequence := cursor.sequence
  fingerprint := cursor.embeddingFingerprint

variable {α : Type*}

def resolveActiveCorpora (collation : Collation) (db : Database α) : List ActiveCorpus :=
  (db.cursors.rows.insertionSort fun a b => collation.le a.corpus.name b.corpus.name = true).map CorpusState.resolve

inductive PathEntry where
  | generation (identifier : Text)
  | serverViews
  | publicSchema
deriving DecidableEq

def ActiveCorpus.identifier (corpus : ActiveCorpus) : Text := truncateIdentifier corpus.schema

def readSearchPath : List ActiveCorpus → List PathEntry
  | [] => [.publicSchema]
  | [one] => [.generation one.identifier, .publicSchema]
  | _ => [.serverViews, .publicSchema]

/-- Where the tables of a read are found. -/
inductive Relations where
  | generation (identifier : Text)
  | views (entries : List (Corpus × Text))
  | publicSchema
deriving DecidableEq

/-- The first entry of the path that is there. The tables of `public` always are. -/
def findRelations (db : Database α) : List PathEntry → Relations
  | [] | .publicSchema :: _ => .publicSchema
  | .serverViews :: rest =>
    match db.views with
    | some entries => .views entries
    | none => findRelations db rest
  | .generation identifier :: rest =>
    if (db.schemas.find? identifier).isSome then .generation identifier else findRelations db rest

def Relations.schemas : Relations → List Text
  | .generation identifier => [identifier]
  | .views entries => entries.map Prod.snd
  | .publicSchema => []

/-- An open request. It keeps the locks on what it has read, and sees no row of a
schema that was dropped and created again meanwhile. -/
structure ReadRequest (α : Type*) where
  snapshot : Database α
  corpora : List ActiveCorpus
  locked : List Text
  viewsLocked : Bool
  dropped : List Text

/-- The rows of each schema that was read, where the snapshot has it. -/
inductive ReadResult (α : Type*) where
  | publicRows
  | schemaRows (rows : List (Text × Option α))

namespace ReadRequest

def visibleRows (request : ReadRequest α) (identifier : Text) : Option α :=
  if identifier ∈ request.dropped then none else (request.snapshot.schemas.find? identifier).map Prod.snd

def result (request : ReadRequest α) : Relations → ReadResult α
  | .publicSchema => .publicRows
  | relations => .schemaRows (relations.schemas.map fun identifier => (identifier, request.visibleRows identifier))

def lock (request : ReadRequest α) (relations : Relations) : ReadRequest α :=
  { request with
    locked := relations.schemas ++ request.locked
    viewsLocked := request.viewsLocked || relations matches .views _ }

end ReadRequest

/-- The schema that a cleanup or a reset would drop. -/
def droppedIdentifier (db : Database α) : RegistryAction α → Option Text
  | .dropRetired corpus generation =>
    match db.registry.find? (corpus, generation) with
    | some row => if row.state = .retired then some (truncateIdentifier row.physicalSchema) else none
    | none => none
  | .reset corpus generation =>
    match db.registry.find? (corpus, generation) with
    | some row => if row.state = .building then some (truncateIdentifier row.physicalSchema) else none
    | none => none
  | _ => none

/-- A drop waits for the locks on the schema and on the views that go with it,
and a new view for those on the old one, until its lock timeout. -/
def ReadRequest.blocks (request : ReadRequest α) (db : Database α) (action : RegistryAction α) : Bool :=
  match droppedIdentifier db action, action with
  | some identifier, _ => request.locked.contains identifier ||
      (request.viewsLocked && (db.views.getD []).any fun entry => entry.2 == identifier)
  | none, .activate .. => request.viewsLocked
  | none, _ => false

structure ReadSystem (α : Type*) where
  registry : RegistrySystem α
  request : Option (ReadRequest α)

inductive ReadAction (α : Type*) where
  | beginSnapshot
  | readText
  | readTextForCorpus (index : Nat)
  | endSnapshot
  | registry (action : RegistryAction α)

namespace ReadSystem

variable (ready : Database α → Text → Bool) (tables : α) (collation : Collation)

def start : ReadSystem α := ⟨RegistrySystem.start, none⟩

/-- The search path of a read. -/
def readPath (request : ReadRequest α) : ReadAction α → Option (List PathEntry)
  | .readText => some (readSearchPath request.corpora)
  | .readTextForCorpus index => (request.corpora[index]?).map fun corpus => [.generation corpus.identifier, .publicSchema]
  | _ => none

def read (s : ReadSystem α) (request : ReadRequest α) (path : List PathEntry) : ReadResult α :=
  request.result (findRelations s.registry.db path)

/-- The schemas that a step of the registry removed. -/
def removed (before after : Database α) : List Text :=
  (before.schemas.rows.map Prod.fst).filter fun identifier => (after.schemas.find? identifier).isNone

def step (s : ReadSystem α) : ReadAction α → ReadSystem α
  | .beginSnapshot =>
    { s with request := some ⟨s.registry.db, resolveActiveCorpora collation s.registry.db, [], false, []⟩ }
  | .endSnapshot => { s with request := none }
  | .registry action =>
    if s.request.any fun request => request.blocks s.registry.db action then s
    else
      let registry := RegistrySystem.step ready tables s.registry action
      ⟨registry, s.request.map fun request =>
        { request with dropped := removed s.registry.db registry.db ++ request.dropped }⟩
  | action =>
    match s.request with
    | none => s
    | some request =>
      match readPath request action with
      | none => s
      | some path => { s with request := some (request.lock (findRelations s.registry.db path)) }

end ReadSystem

end CorpusFeed
