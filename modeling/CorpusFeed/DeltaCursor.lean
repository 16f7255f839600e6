import Mathlib.Algebra.Order.Ring.Int
import CorpusFeed.BaselineBoundary

/-! The archive cursor of one source: the newest timestamp over its completed
ingest runs. A delta-only run starts from the cursor, so a delta that arrives
below it is not looked at again. -/

namespace CorpusFeed

def staleCursorMaxDays : Nat := 45

/-- Seconds from 1970 of the fourteen digits `YYYYMMDDHHMMSS`. -/
def unixFromCompact (compact : Nat) : Option Nat :=
  let year : Int := compact / 10 ^ 10
  let month : Int := compact / 10 ^ 8 % 100
  let day : Int := compact / 10 ^ 6 % 100
  let hour : Int := compact / 10 ^ 4 % 100
  let minute : Int := compact / 100 % 100
  let second : Int := compact % 100
  if month < 1 ∨ 12 < month ∨ day < 1 ∨ 31 < day ∨ 23 < hour ∨ 59 < minute ∨ 59 < second then none
  else
    let y := if month ≤ 2 then year - 1 else year
    let era := y / 400
    let yoe := y - era * 400
    let mp := if 2 < month then month - 3 else month + 9
    let doy := (153 * mp + 2) / 5 + day - 1
    let doe := yoe * 365 + yoe / 4 - yoe / 100 + doy
    let secs := (era * 146097 + doe - 719468) * 86400 + hour * 3600 + minute * 60 + second
    if 0 ≤ secs then some secs.toNat else none

/-- A row of `ingest_run`. The freshness of its manifest is that of the last
archive it was to process. -/
structure IngestRun where
  selected : List Archive
  completed : Bool
  memberLimited : Bool

def IngestRun.latestArchiveCompact (run : IngestRun) : Option Nat := run.selected.getLast?.map Archive.timestamp

def IngestRun.cursorCompact (run : IngestRun) : Option Nat :=
  if run.completed && !run.memberLimited then run.latestArchiveCompact else none

def latestCompletedIngestArchiveCompact (runs : List IngestRun) : Option Nat :=
  (runs.filterMap IngestRun.cursorCompact).max?

/-- A cursor that has no age counts as too old. -/
def isStaleCursor (compact nowUnix : Nat) (acceptStaleCursor : Bool) : Bool :=
  match unixFromCompact compact with
  | some cursorUnix => decide (staleCursorMaxDays * 86400 < nowUnix - cursorUnix) && !acceptStaleCursor
  | none => true

/-- `none` is the error of a cursor that is too old to be trusted. -/
def chooseIngestMode (fullScan : Bool) (cursor : Option Nat) (nowUnix : Nat) (acceptStaleCursor : Bool) :
    Option ArchiveSyncFilter :=
  if fullScan then some ⟨false, none⟩
  else match cursor with
    | none => some ⟨false, none⟩
    | some compact => if isStaleCursor compact nowUnix acceptStaleCursor then none else some ⟨true, some compact⟩

/-- How far an update gets: it can stop before the source is ingested, with a run
that does not complete, or before the new baseline is adopted. -/
inductive UpdateReach where
  | beforeIngest
  | ingestFailed
  | ingested
  | published
deriving DecidableEq

structure UpdateInput where
  auto : Bool
  othersPending : Bool
  nowUnix : Nat
  acceptStaleCursor : Bool

/-- The update that holds the lock, with the baseline it is to adopt. -/
inductive SourceUpdate where
  | routed (pending : Option Archive) (filter : ArchiveSyncFilter)
  | ingesting (pending : Option Archive) (listed selected : List Archive)

structure SourceHost where
  mirror : List Archive
  cursor : FetchCursor
  fetches : Nat → Option FetchRun
  adopted : Option Archive
  runs : List IngestRun
  update : Option SourceUpdate

inductive SourceAction where
  | fetchStart (id : Nat) (listing : List Archive)
  | fetchNext (id : Nat) (outcome : DownloadOutcome)
  | fetchSave (id : Nat)
  | fetchCrash (id : Nat)
  | updateStart (input : UpdateInput)
  | updateList
  | updateEnd (reach : UpdateReach)

namespace SourceHost

def start : SourceHost := ⟨[], .new, fun _ => none, none, [], none⟩

def latestCompact (s : SourceHost) : Option Nat := latestCompletedIngestArchiveCompact s.runs

def pendingBaseline (s : SourceHost) : Option Archive :=
  (BaselineDecision.decide s.cursor.baselineFileName s.adopted).pending

/-- The marker after an update that gets this far. -/
def adoptedAfter (s : SourceHost) (pending : Option Archive) (reach : UpdateReach) : Option Archive :=
  if reach = .published then pending.or s.adopted else s.adopted

/-- The cursor once the selected archives are completed. -/
def cursorAfter (s : SourceHost) (selected : List Archive) : Option Nat :=
  latestCompletedIngestArchiveCompact (⟨selected, true, false⟩ :: s.runs)

/-- In `manual` mode a pending baseline of any source of the group is refused. -/
def refuses (s : SourceHost) (input : UpdateInput) : Bool :=
  (s.pendingBaseline.isSome || input.othersPending) && !input.auto

def ingestMode (s : SourceHost) (input : UpdateInput) : Option ArchiveSyncFilter :=
  chooseIngestMode s.pendingBaseline.isSome s.latestCompact input.nowUnix input.acceptStaleCursor

/-- What an update decides under the lock, before it looks at the mirror. -/
def route (s : SourceHost) (input : UpdateInput) : Option SourceUpdate :=
  if s.refuses input then none else (s.ingestMode input).map (.routed s.pendingBaseline)

/-- The mirror directory is listed and planned. -/
def list (s : SourceHost) : Option SourceUpdate :=
  match s.update with
  | some (.routed pending filter) =>
    (planFromPaths s.mirror).map fun plan => .ingesting pending s.mirror (selectArchivesToProcess plan filter)
  | update => update

def finish (s : SourceHost) (reach : UpdateReach) : SourceHost :=
  match s.update with
  | some (.ingesting pending _ selected) =>
    if reach = .beforeIngest then { s with update := none }
    else
      { s with
        runs := ⟨selected, reach != .ingestFailed, false⟩ :: s.runs
        adopted := s.adoptedAfter pending reach
        update := none }
  | _ => { s with update := none }

def step (s : SourceHost) : SourceAction → SourceHost
  | .fetchStart id listing => { s with fetches := Function.update s.fetches id (some (FetchRun.start s.cursor listing)) }
  | .fetchNext id outcome =>
    match s.fetches id with
    | none => s
    | some run =>
      { s with
        mirror := (run.next s.mirror outcome).1
        fetches := Function.update s.fetches id (some (run.next s.mirror outcome).2) }
  | .fetchSave id =>
    match s.fetches id with
    | none => s
    | some run => { s with cursor := run.cursor, fetches := Function.update s.fetches id none }
  | .fetchCrash id => { s with fetches := Function.update s.fetches id none }
  | .updateStart input =>
    match s.update with
    | none => { s with update := s.route input }
    | some _ => s
  | .updateList => { s with update := s.list }
  | .updateEnd reach => s.finish reach

/-- A completed run has processed the archive. -/
def Processed (s : SourceHost) (a : Archive) : Prop := ∃ run ∈ s.runs, run.completed = true ∧ a ∈ run.selected

/-- No delta between the adopted baseline and the cursor is lost. -/
def DeltasProcessed (s : SourceHost) : Prop :=
  ∀ b compact, s.adopted = some b → s.latestCompact = some compact → ∀ a ∈ s.mirror, a.kind = .delta →
    b.timestamp < a.timestamp → a.timestamp ≤ compact → s.Processed a

/-- No delta is accepted below the cursor, and no update completes an ingest and
leaves an unprocessed delta behind: one between the adopted baseline and a newer one
that it listed, or one that was accepted after it listed the mirror, at or before
the cursor that it moves to. -/
def Timely (s : SourceHost) : SourceAction → Prop
  | .fetchNext id .accepted => ∀ run a rest, s.fetches id = some run → run.toFetch = a :: rest → a.kind = .delta →
    ∀ b compact, s.adopted = some b → s.latestCompact = some compact →
      b.timestamp < a.timestamp → a.timestamp ≤ compact → s.Processed a
  | .updateEnd reach => ∀ pending listed selected, s.update = some (.ingesting pending listed selected) →
    reach = .ingested ∨ reach = .published → ∀ b, s.adoptedAfter pending reach = some b →
      ∀ a ∈ s.mirror, a.kind = .delta → b.timestamp < a.timestamp →
        (∃ n ∈ listed, n.kind = .baseline ∧ a.timestamp ≤ n.timestamp) ∨
          (a ∉ listed ∧ ∃ compact, s.cursorAfter selected = some compact ∧ a.timestamp ≤ compact) → s.Processed a
  | _ => True

end SourceHost

end CorpusFeed
