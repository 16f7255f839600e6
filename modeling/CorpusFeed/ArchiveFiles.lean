import CorpusFeed.ArchiveName
import CorpusFeed.OrderKeys

/-! The plan of an archive directory over its paths: every file is the baseline,
a delta or a skipped file with its reason. -/

namespace CorpusFeed.ArchiveFiles

structure PlannedArchive (P : Type*) where
  source : ArchiveSource
  kind : ArchiveKind
  timestamp : ArchiveTimestamp
  fileName : Text
  path : P

structure SkippedArchive (P : Type*) where
  path : P
  reason : Text

structure ArchivePlan (P : Type*) where
  source : ArchiveSource
  baseline : PlannedArchive P
  deltas : List (PlannedArchive P)
  skipped : List (SkippedArchive P)

inductive ArchivePlanError where
  | missingBaseline (archiveSource : ArchiveSource)

structure ArchiveSyncFilter where
  incremental : Bool
  sinceCompact : Option Text

/-- The two lists that a loop of the planner fills. -/
structure Listing (P : Type*) where
  archives : List (PlannedArchive P)
  skipped : List (SkippedArchive P)

variable {P : Type*}

def Listing.plan (listing : Listing P) (archive : PlannedArchive P) : Listing P :=
  { listing with archives := listing.archives ++ [archive] }

def Listing.skip (listing : Listing P) (path : P) (reason : Text) : Listing P :=
  { listing with skipped := listing.skipped ++ [⟨path, reason⟩] }

section Plan

/- `fileName` is the last component of a path, where it is UTF-8. -/
variable (digit : Char → Bool) (fileName : P → Option Text)

def parsePath (source : ArchiveSource) (path : P) : Except ArchiveParseError ParsedArchive :=
  match fileName path with
  | none => .error .missingFileName
  | some name => ParsedArchive.parseFileName digit source name

def recognize (source : ArchiveSource) (listing : Listing P) (path : P) : Listing P :=
  match parsePath digit fileName source path with
  | .ok parsed => listing.plan ⟨parsed.source, parsed.kind, parsed.timestamp, parsed.fileName, path⟩
  | .error (.unrecognized _ _) => listing.skip path "unrecognized_filename".toList
  | .error error => listing.skip path error.toText

/-- By timestamp, then by name. -/
def chronological : KeyOrder (PlannedArchive P) :=
  ((KeyOrder.text codePointCollation).on fun archive => archive.timestamp.compact).thenBy
    ((KeyOrder.text codePointCollation).on fun archive => archive.fileName)

def PlannedArchive.newerThan (archive baseline : PlannedArchive P) : Bool :=
  codePointCollation.lt baseline.timestamp.compact archive.timestamp.compact

def distribute (baseline : PlannedArchive P) (listing : Listing P) (archive : PlannedArchive P) : Listing P :=
  match archive.kind with
  | .baseline =>
    if archive.fileName ≠ baseline.fileName then listing.skip archive.path "older_baseline".toList else listing
  | .delta =>
    if archive.newerThan baseline then listing.plan archive
    else listing.skip archive.path "delta_not_after_selected_baseline".toList

def isBaselineArchive (archive : PlannedArchive P) : Bool := archive.kind = .baseline

/-- Paths that have the same components are one path. -/
def planFromPaths [LinearOrder P] (source : ArchiveSource) (paths : List P) : Except ArchivePlanError (ArchivePlan P) :=
  let found := paths.foldl (recognize digit fileName source) ⟨[], []⟩
  let recognized := chronological.sort found.archives
  match chronological.max (recognized.filter isBaselineArchive) with
  | none => .error (.missingBaseline source)
  | some baseline =>
    let split := recognized.foldl (distribute baseline) ⟨[], found.skipped⟩
    .ok
      { source := source
        baseline := baseline
        deltas := chronological.sort split.archives
        skipped := (KeyOrder.natural.on SkippedArchive.path).sort split.skipped }

end Plan

def passesSince (since : Option Text) (delta : PlannedArchive P) : Bool :=
  match since with
  | none => true
  | some since => codePointCollation.le since delta.timestamp.compact

def selectArchivesToProcess (plan : ArchivePlan P) (filter : ArchiveSyncFilter) : List (PlannedArchive P) :=
  (if filter.incremental then [] else [plan.baseline]) ++ plan.deltas.filter (passesSince filter.sinceCompact)

end CorpusFeed.ArchiveFiles
