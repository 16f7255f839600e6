import CorpusFeed.FetchEngine
import CorpusFeed.Runs

/-! The baseline boundary of a producer. An update reads the saved fetch cursors
to decide whether a baseline waits for adoption, and later lists the mirror
directories. Fetch runs go on beside it: they do not take the update lock. -/

namespace CorpusFeed

inductive ArchiveSource where
  | legi
  | cass
  | capp
  | inca
  | jade
deriving DecidableEq

inductive BaselineDecision where
  | noBaselineFetched
  | current (baseline : Archive)
  | rebaselinePending (fetched : Archive) (adopted : Option Archive)
deriving DecidableEq

namespace BaselineDecision

def decide (fetchedBaseline adoptedBaseline : Option Archive) : BaselineDecision :=
  match fetchedBaseline with
  | none => .noBaselineFetched
  | some fetched => if adoptedBaseline = some fetched then .current fetched else .rebaselinePending fetched adoptedBaseline

def pending : BaselineDecision → Option Archive
  | .rebaselinePending fetched _ => some fetched
  | _ => none

theorem pending_eq_none {fetched adopted : Option Archive} (h : (decide fetched adopted).pending = none) :
    ∀ b, fetched = some b → adopted = some b := by
  rintro b rfl
  by_contra hne
  simp [decide, hne, pending] at h

theorem pending_eq_some {fetched adopted : Option Archive} {b : Archive} (h : (decide fetched adopted).pending = some b) :
    fetched = some b := by
  cases fetched with
  | none => cases h
  | some fetched =>
    by_cases hsame : adopted = some fetched
    · simp [decide, hsame, pending] at h
    · simpa [decide, hsame, pending] using h

end BaselineDecision

/-- The `baseline_refresh` mode, or the operator's `rebaseline` command. -/
inductive UpdateMode where
  | manual
  | auto
  | forced
deriving DecidableEq

/-- `checking` and `confirming` hold the sources whose cursors are still to be
read, `ingesting` those whose mirrors are still to be listed. -/
inductive UpdatePhase where
  | checking (rest : List ArchiveSource)
  | confirming (rest : List ArchiveSource)
  | ingesting (rest : List ArchiveSource)

/-- The update that holds the lock, with the cursors as it last read them. -/
structure UpdateRun where
  mode : UpdateMode
  sources : List ArchiveSource
  phase : UpdatePhase
  read : ArchiveSource → FetchCursor
  newBaselines : List (ArchiveSource × Archive)

namespace UpdateRun

def ordinary (u : UpdateRun) : Prop :=
  u.mode ≠ .forced ∧ (u.mode = .auto → u.newBaselines = [])

instance (u : UpdateRun) : Decidable u.ordinary := by
  unfold ordinary
  infer_instance

/-- The routing after the last cursor is read. -/
def route (u : UpdateRun) : UpdateRun :=
  if u.mode = .manual ∧ u.newBaselines ≠ [] then { u with phase := .confirming u.sources }
  else { u with phase := .ingesting u.sources }

theorem route_read (u : UpdateRun) : u.route.read = u.read := by
  unfold route
  split <;> rfl

theorem route_newBaselines (u : UpdateRun) : u.route.newBaselines = u.newBaselines := by
  unfold route
  split <;> rfl

end UpdateRun

/-- The files that fetch runs and updates share, and the processes under way. -/
structure ProducerHost where
  mirror : ArchiveSource → List Archive
  cursor : ArchiveSource → FetchCursor
  adopted : ArchiveSource → Option Archive
  fetches : Nat → Option (ArchiveSource × FetchRun)
  update : Option UpdateRun

inductive HostAction where
  | fetchStart (id : Nat) (source : ArchiveSource) (listing : List Archive)
  | fetchNext (id : Nat) (outcome : DownloadOutcome)
  | fetchSave (id : Nat)
  | fetchCrash (id : Nat)
  | updateStart (mode : UpdateMode) (sources : List ArchiveSource)
  | updateCheck
  | updateIngest (filter : ArchiveSyncFilter)
  | updatePublish
  | updateStop

namespace ProducerHost

def start : ProducerHost := ⟨fun _ => [], fun _ => .new, fun _ => none, fun _ => none, none⟩

def pendingBaseline (s : ProducerHost) (source : ArchiveSource) : Option Archive :=
  (BaselineDecision.decide (s.cursor source).baselineFileName (s.adopted source)).pending

/-- The baseline that a run of this mode adopts for the source. -/
def plannedBaseline (s : ProducerHost) (mode : UpdateMode) (source : ArchiveSource) : Option Archive :=
  match mode with
  | .forced => (s.cursor source).baselineFileName
  | _ => s.pendingBaseline source

/-- One cursor is read; after the last one the run is routed. -/
def check (s : ProducerHost) (u : UpdateRun) : Option UpdateRun :=
  match u.phase with
  | .checking [] => if u.mode = .forced ∧ u.newBaselines = [] then none else some u.route
  | .checking (source :: rest) => some
    { u with
      phase := .checking rest
      read := Function.update u.read source (s.cursor source)
      newBaselines := u.newBaselines ++ (s.plannedBaseline u.mode source).toList.map fun b => (source, b) }
  | .confirming [] => some { u with phase := .ingesting u.sources }
  | .confirming (source :: rest) =>
    match s.pendingBaseline source with
    | some _ => none
    | none => some { u with phase := .confirming rest, read := Function.update u.read source (s.cursor source) }
  | .ingesting _ => some u

def adoptNewBaselines (adopted : ArchiveSource → Option Archive) (newBaselines : List (ArchiveSource × Archive)) :
    ArchiveSource → Option Archive :=
  newBaselines.foldl (fun adopted entry => Function.update adopted entry.1 (some entry.2)) adopted

def step (s : ProducerHost) : HostAction → ProducerHost
  | .fetchStart id source listing =>
    { s with fetches := Function.update s.fetches id (some (source, FetchRun.start (s.cursor source) listing)) }
  | .fetchNext id outcome =>
    match s.fetches id with
    | none => s
    | some (source, run) =>
      { s with
        mirror := Function.update s.mirror source (run.next (s.mirror source) outcome).1
        fetches := Function.update s.fetches id (some (source, (run.next (s.mirror source) outcome).2)) }
  | .fetchSave id =>
    match s.fetches id with
    | none => s
    | some (source, run) =>
      { s with
        cursor := Function.update s.cursor source run.cursor
        fetches := Function.update s.fetches id none }
  | .fetchCrash id => { s with fetches := Function.update s.fetches id none }
  | .updateStart mode sources =>
    match s.update with
    | none => { s with update := some ⟨mode, sources, .checking sources, fun _ => .new, []⟩ }
    | some _ => s
  | .updateCheck => { s with update := s.update.bind s.check }
  | .updateIngest _ =>
    match s.update with
    | some u =>
      match u.phase with
      | .ingesting (_ :: rest) => { s with update := some { u with phase := .ingesting rest } }
      | _ => s
    | none => s
  | .updatePublish =>
    match s.update with
    | some u =>
      match u.phase with
      | .ingesting [] =>
        { s with
          adopted := if u.ordinary then s.adopted else adoptNewBaselines s.adopted u.newBaselines
          update := none }
      | _ => s
    | none => s
  | .updateStop => { s with update := none }

/-- The source that an ordinary incremental update is about to ingest. -/
def ordinaryIngest (s : ProducerHost) : Option (UpdateRun × ArchiveSource) :=
  match s.update with
  | some u =>
    match u.phase with
    | .ingesting (source :: _) => if u.ordinary then some (u, source) else none
    | _ => none
  | none => none

/-- The plan starts from the adopted baseline, no other baseline is ingested, and
no delta after the adopted baseline is dropped. -/
def OrdinarySound (s : ProducerHost) : HostAction → Prop
  | .updateIngest filter => ∀ u source plan, s.ordinaryIngest = some (u, source) →
    planFromPaths (s.mirror source) = some plan →
      s.adopted source = some plan.baseline ∧
      (∀ a ∈ selectArchivesToProcess plan filter, a.kind = .baseline → s.adopted source = some a) ∧
      ∀ b, s.adopted source = some b → ∀ a ∈ s.mirror source, a.kind = .delta → b.timestamp < a.timestamp → a ∈ plan.deltas
  | _ => True

/-- Every mirrored baseline that is newer than the adopted one is in the cursor
that the update read. -/
def BoundarySeen (s : ProducerHost) : HostAction → Prop
  | .updateIngest _ => ∀ u source, s.ordinaryIngest = some (u, source) → ∀ b ∈ s.mirror source, b.kind = .baseline →
    (∀ adopted ∈ s.adopted source, adopted.timestamp < b.timestamp) → b ∈ (u.read source).fetched
  | _ => True

end ProducerHost

end CorpusFeed
