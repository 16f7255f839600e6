import CorpusFeed.BaselineBoundary

/-! The update runs of a producer host. Fetches go on beside them; what a run does to the
corpus it does under the update lock, and it marks a baseline as adopted only after it has
published the rebaseline that it decided on under the lock. -/

namespace CorpusFeed

abbrev BaselineSet := List (ArchiveSource × Archive)

/-- One invocation; `auto` is the refresh mode of its configuration. -/
structure UpdateOptions where
  sources : List ArchiveSource
  auto : Bool
  dryRun : Bool
  forceRebaseline : Bool
  snapshotOnly : Bool
deriving DecidableEq

/-- Where a run stands. The sources are those still to be handled, the baselines those it
has chosen, or has still to mark. -/
inductive UpdateStage where
  | fetching (rest : List ArchiveSource)
  | planning (rest : List ArchiveSource) (found : Bool)
  | waiting
  | routing (rest : List ArchiveSource) (newBaselines : BaselineSet)
  | refusing (rest : List ArchiveSource) (newBaselines : BaselineSet)
  | ingesting (rest : List ArchiveSource) (newBaselines : BaselineSet)
  | confirming (rest : List ArchiveSource)
  | adopting (rest : BaselineSet)
  | seeding (rest : List ArchiveSource)
  | reporting
deriving DecidableEq

/-- A run, with the fetched baselines as it last read them. -/
structure UpdateProcess where
  options : UpdateOptions
  stage : UpdateStage
  read : ArchiveSource → Option Archive

/-- A published package, with the baselines that it adopts. -/
structure Publication where
  run : ℕ
  options : UpdateOptions
  baselines : BaselineSet
deriving DecidableEq

def Publication.automatic (publication : Publication) : Bool := !publication.options.forceRebaseline

inductive UpdateEvent where
  | published (publication : Publication)
  | adopted (run : ℕ) (source : ArchiveSource) (baseline : Archive)
  | stopped (run : ℕ)
deriving DecidableEq

/-- The log has the latest event first. -/
structure UpdateHost where
  fetched : ArchiveSource → Option Archive
  adopted : ArchiveSource → Option Archive
  runs : ℕ → Option UpdateProcess
  lock : Option ℕ
  nextRun : ℕ
  log : List UpdateEvent

/-- What a run does next. -/
inductive UpdateEffect where
  | move (stage : UpdateStage)
  | note (source : ArchiveSource) (stage : UpdateStage)
  | acquire (stage : UpdateStage)
  | publish (baselines : BaselineSet) (stage : UpdateStage)
  | adopt (source : ArchiveSource) (baseline : Archive) (stage : UpdateStage)
  | stop
  | finish

namespace UpdateHost

variable (s : UpdateHost)

def start (initial : ArchiveSource → Option Archive) : UpdateHost :=
  ⟨fun _ => none, initial, fun _ => none, none, 0, []⟩

def baselineDecision (source : ArchiveSource) : BaselineDecision :=
  BaselineDecision.decide (s.fetched source) (s.adopted source)

/-- The baseline of a forced run, of a snapshot from the marker if none was fetched. -/
def plannedRebaselineBaseline (options : UpdateOptions) (source : ArchiveSource) : Option Archive :=
  if options.snapshotOnly then (s.fetched source).or (s.adopted source) else s.fetched source

def newBaseline (options : UpdateOptions) (source : ArchiveSource) : Option Archive :=
  if options.forceRebaseline then s.plannedRebaselineBaseline options source else (s.baselineDecision source).pending

end UpdateHost

namespace UpdateProcess

variable (u : UpdateProcess)

def doRebaseline (newBaselines : BaselineSet) : Bool :=
  u.options.forceRebaseline || (!newBaselines.isEmpty && u.options.auto)

/-- The sources that are ingested. A snapshot ingests none. -/
def ingested : List ArchiveSource := if u.options.snapshotOnly then [] else u.options.sources

/-- The next step of `run_update_inner`, if nothing in it fails. -/
def next (s : UpdateHost) : UpdateEffect :=
  match u.stage with
  | .fetching (_ :: rest) => .move (.fetching rest)
  | .fetching [] =>
    if u.options.dryRun then .finish
    else if u.options.forceRebaseline then .move (.planning u.options.sources false)
    else .move .waiting
  | .planning (source :: rest) found =>
    .move (.planning rest (found || (s.plannedRebaselineBaseline u.options source).isSome))
  | .planning [] found => if found then .move .waiting else .stop
  | .waiting => if s.lock.isNone then .acquire (.routing u.options.sources []) else .move .waiting
  | .routing (source :: rest) newBaselines =>
    .note source (.routing rest (newBaselines ++ (s.newBaseline u.options source).toList.map fun b => (source, b)))
  | .routing [] newBaselines =>
    if u.options.forceRebaseline then
      if newBaselines.isEmpty then .stop else .move (.ingesting u.ingested newBaselines)
    else if newBaselines.isEmpty || u.options.auto then .move (.ingesting u.ingested newBaselines)
    else .move (.refusing u.options.sources newBaselines)
  | .refusing (source :: rest) newBaselines =>
    if (s.baselineDecision source).pending.isSome then .stop else .move (.refusing rest newBaselines)
  | .refusing [] newBaselines => .move (.ingesting u.ingested newBaselines)
  | .ingesting (_ :: rest) newBaselines => .move (.ingesting rest newBaselines)
  | .ingesting [] newBaselines =>
    if u.doRebaseline newBaselines then .publish newBaselines (.adopting newBaselines)
    else .move (.confirming u.options.sources)
  | .confirming (source :: rest) =>
    if (s.baselineDecision source).pending.isSome then .stop else .note source (.confirming rest)
  | .confirming [] => .publish [] .reporting
  | .adopting ((source, baseline) :: rest) => .adopt source baseline (.adopting rest)
  | .adopting [] => if u.options.snapshotOnly then .move (.seeding u.options.sources) else .move .reporting
  | .seeding (_ :: rest) => .move (.seeding rest)
  | .seeding [] => .move .reporting
  | .reporting => .finish

end UpdateProcess

/-- `fetched` is the save of a fetch cursor. A run may stop at any step: it fails, it
waits for the lock too long, or it crashes. -/
inductive UpdateAction where
  | start (options : UpdateOptions)
  | fetched (source : ArchiveSource) (baseline : Option Archive)
  | advance (run : ℕ)
  | stop (run : ℕ)

namespace UpdateHost

variable (s : UpdateHost)

/-- The lock goes with the process. -/
def drop (id : ℕ) : UpdateHost :=
  { s with runs := Function.update s.runs id none, lock := if s.lock = some id then none else s.lock }

def put (id : ℕ) (u : UpdateProcess) (stage : UpdateStage) : UpdateHost :=
  { s with runs := Function.update s.runs id (some { u with stage := stage }) }

def apply (id : ℕ) (u : UpdateProcess) : UpdateEffect → UpdateHost
  | .move stage => s.put id u stage
  | .note source stage => s.put id { u with read := Function.update u.read source (s.fetched source) } stage
  | .acquire stage => { s.put id u stage with lock := some id }
  | .publish baselines stage =>
    { s.put id u stage with log := .published ⟨id, u.options, baselines⟩ :: s.log }
  | .adopt source baseline stage =>
    { s.put id u stage with
      adopted := Function.update s.adopted source (some baseline)
      log := .adopted id source baseline :: s.log }
  | .stop => { s.drop id with log := .stopped id :: s.log }
  | .finish => s.drop id

def step (s : UpdateHost) : UpdateAction → UpdateHost
  | .start options =>
    { s with
      runs := Function.update s.runs s.nextRun (some ⟨options, .fetching options.sources, fun _ => none⟩)
      nextRun := s.nextRun + 1 }
  | .fetched source baseline => { s with fetched := Function.update s.fetched source baseline }
  | .advance id =>
    match s.runs id with
    | some u => s.apply id u (u.next s)
    | none => s
  | .stop id =>
    match s.runs id with
    | some u => s.apply id u .stop
    | none => s

end UpdateHost

end CorpusFeed
