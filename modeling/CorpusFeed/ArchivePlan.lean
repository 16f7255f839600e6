import Mathlib.Data.List.MinMax
import Mathlib.Data.List.Sort

/-! The plan over the mirror directory of one source: the newest baseline, and
the deltas after it by timestamp. The file name of an archive is fixed by its
kind and its timestamp, so a mirror is a list of these pairs. -/

namespace CorpusFeed

inductive ArchiveKind where
  | baseline
  | delta
deriving DecidableEq

/-- The timestamp is the number with the fourteen digits of the file name. -/
structure Archive where
  kind : ArchiveKind
  timestamp : Nat
deriving DecidableEq

inductive SkipReason where
  | olderBaseline
  | deltaNotAfterSelectedBaseline
deriving DecidableEq

structure ArchivePlan where
  baseline : Archive
  deltas : List Archive
  skipped : List (Archive × SkipReason)

structure ArchiveSyncFilter where
  incremental : Bool
  sinceCompact : Option Nat

def isBaseline (a : Archive) : Bool := a.kind = .baseline

def isDeltaAfter (timestamp : Nat) (a : Archive) : Bool := a.kind = .delta && timestamp < a.timestamp

def skipReason (baseline a : Archive) : Option (Archive × SkipReason) :=
  match a.kind with
  | .baseline => if a = baseline then none else some (a, .olderBaseline)
  | .delta => if baseline.timestamp < a.timestamp then none else some (a, .deltaNotAfterSelectedBaseline)

/-- `none` is the error of a mirror without a baseline. -/
def planFromPaths (mirror : List Archive) : Option ArchivePlan :=
  match (mirror.filter isBaseline).argmax Archive.timestamp with
  | none => none
  | some baseline => some
    { baseline := baseline
      deltas := (mirror.filter (isDeltaAfter baseline.timestamp)).insertionSort fun a b => a.timestamp ≤ b.timestamp
      skipped := mirror.filterMap (skipReason baseline) }

def passesSince (since : Option Nat) (a : Archive) : Bool :=
  match since with
  | none => true
  | some since => since ≤ a.timestamp

def selectArchivesToProcess (plan : ArchivePlan) (filter : ArchiveSyncFilter) : List Archive :=
  (if filter.incremental then [] else [plan.baseline]) ++ plan.deltas.filter (passesSince filter.sinceCompact)

/-- What a plan of a mirror says about its archives. -/
structure PlanOf (mirror : List Archive) (plan : ArchivePlan) : Prop where
  baseline_mem : plan.baseline ∈ mirror
  baseline_kind : plan.baseline.kind = .baseline
  baseline_newest : ∀ a ∈ mirror, a.kind = .baseline → a.timestamp ≤ plan.baseline.timestamp
  mem_deltas : ∀ a, a ∈ plan.deltas ↔ a ∈ mirror ∧ a.kind = .delta ∧ plan.baseline.timestamp < a.timestamp
  deltas_sorted : plan.deltas.Pairwise fun a b => a.timestamp ≤ b.timestamp
  deltas_nodup : mirror.Nodup → plan.deltas.Nodup

theorem planFromPaths_cases {mirror : List Archive} {plan : ArchivePlan} (h : planFromPaths mirror = some plan) :
    PlanOf mirror plan := by
  unfold planFromPaths at h
  split at h
  · cases h
  next baseline hbaseline =>
  cases h
  have hmem := List.mem_filter.mp (List.argmax_mem hbaseline)
  have htotal : Std.Total fun a b : Archive => a.timestamp ≤ b.timestamp := ⟨fun a b => Nat.le_total _ _⟩
  have htrans : IsTrans Archive fun a b => a.timestamp ≤ b.timestamp := ⟨fun a b c => Nat.le_trans⟩
  constructor
  · exact hmem.1
  · simpa [isBaseline] using hmem.2
  · intro a ha hkind
    exact List.le_of_mem_argmax (List.mem_filter.mpr ⟨ha, by simp [isBaseline, hkind]⟩) hbaseline
  · intro a
    simp [List.mem_filter, isDeltaAfter]
  · exact List.pairwise_insertionSort _ _
  · intro hnodup
    exact (List.perm_insertionSort _ _).nodup_iff.mpr (hnodup.filter _)

theorem planFromPaths_deltas {mirror : List Archive} {plan : ArchivePlan} (h : planFromPaths mirror = some plan) :
    plan.deltas.Perm (mirror.filter (isDeltaAfter plan.baseline.timestamp)) := by
  unfold planFromPaths at h
  split at h
  · cases h
  · cases h
    exact List.perm_insertionSort _ _

theorem planFromPaths_isSome {mirror : List Archive} {a : Archive} (ha : a ∈ mirror) (hkind : a.kind = .baseline) :
    ∃ plan, planFromPaths mirror = some plan := by
  unfold planFromPaths
  cases h : (mirror.filter isBaseline).argmax Archive.timestamp with
  | none =>
    have hnil := List.argmax_eq_none.mp h
    have hmem : a ∈ mirror.filter isBaseline := List.mem_filter.mpr ⟨ha, by simp [isBaseline, hkind]⟩
    simp [hnil] at hmem
  | some baseline => exact ⟨_, rfl⟩

theorem mem_select {plan : ArchivePlan} {filter : ArchiveSyncFilter} {a : Archive} :
    a ∈ selectArchivesToProcess plan filter ↔
      (filter.incremental = false ∧ a = plan.baseline) ∨ (a ∈ plan.deltas ∧ passesSince filter.sinceCompact a = true) := by
  cases hincremental : filter.incremental <;> simp [selectArchivesToProcess, hincremental]

end CorpusFeed
