import Mathlib.Data.List.Nodup
import Mathlib.Data.List.Sort
import Mathlib.Logic.Relation

/-! A log whose rows are stamped as they are written and seen only once their
writer commits, so that the order of the stamps is not the order of the commits.
A bound taken while nobody writes is final: no row at or below it appears later. -/

namespace CorpusFeed

structure StampedLog (W R : Type*) where
  next : Nat
  writers : List W
  uncommitted : List (W × R)
  committed : List R

namespace StampedLog

variable {W R : Type*} [DecidableEq W]

def empty : StampedLog W R := ⟨1, [], [], []⟩

def enter (log : StampedLog W R) (w : W) : StampedLog W R := { log with writers := w :: log.writers }

/-- The row takes the next stamp, which no rollback gives back. -/
def write (log : StampedLog W R) (w : W) (row : Nat → R) : StampedLog W R :=
  { log with next := log.next + 1, uncommitted := log.uncommitted ++ [(w, row log.next)] }

def rowsOf (log : StampedLog W R) (w : W) : List R :=
  (log.uncommitted.filter fun p => p.1 = w).map Prod.snd

def rollback (log : StampedLog W R) (w : W) : StampedLog W R :=
  { log with
    writers := log.writers.filter fun v => v ≠ w
    uncommitted := log.uncommitted.filter fun p => p.1 ≠ w }

def commit (log : StampedLog W R) (w : W) : StampedLog W R :=
  { log.rollback w with committed := log.committed ++ log.rowsOf w }

section Stamps

variable (stamp : R → Nat)

/-- What the writers of a log can do, one at a time. -/
inductive Step : StampedLog W R → StampedLog W R → Prop where
  | enter (log : StampedLog W R) (w : W) : Step log (log.enter w)
  | write {log : StampedLog W R} {w : W} {row : Nat → R} (hw : w ∈ log.writers)
      (hrow : ∀ n, stamp (row n) = n) : Step log (log.write w row)
  | rollback (log : StampedLog W R) (w : W) : Step log (log.rollback w)
  | commit (log : StampedLog W R) (w : W) : Step log (log.commit w)

structure WellStamped (log : StampedLog W R) : Prop where
  positive : ∀ r ∈ log.committed, 0 < stamp r
  below : ∀ r ∈ log.committed, stamp r < log.next
  pending : ∀ p ∈ log.uncommitted, 0 < stamp p.2 ∧ stamp p.2 < log.next ∧ p.1 ∈ log.writers
  next_pos : 0 < log.next
  distinct : ((log.committed ++ log.uncommitted.map Prod.snd).map stamp).Nodup

/-- The rows at or below the bound are these, now and after any further step. -/
structure Frozen (bound : Nat) (rows : List R) (log : StampedLog W R) : Prop where
  lt_next : bound < log.next
  pending : ∀ p ∈ log.uncommitted, bound < stamp p.2
  rows_eq : log.committed.filter (fun r => stamp r ≤ bound) = rows

variable {stamp} {log log' : StampedLog W R} {bound : Nat} {rows : List R}

omit [DecidableEq W] in
theorem wellStamped_empty : WellStamped stamp (empty : StampedLog W R) where
  positive := by simp [empty]
  below := by simp [empty]
  pending := by simp [empty]
  next_pos := by simp [empty]
  distinct := by simp [empty]

theorem mem_rowsOf {w : W} {r : R} : r ∈ log.rowsOf w ↔ (w, r) ∈ log.uncommitted := by
  simp only [rowsOf, List.mem_map, List.mem_filter, decide_eq_true_eq]
  constructor
  · rintro ⟨p, ⟨hp, hw⟩, hr⟩
    have heq : p = (w, r) := Prod.ext hw hr
    rwa [← heq]
  · intro h
    exact ⟨(w, r), ⟨h, rfl⟩, rfl⟩

/-- Between a commit and the rest of the log no row is lost. -/
theorem split_uncommitted (log : StampedLog W R) (w : W) :
    (log.uncommitted.map Prod.snd).Perm
      (log.rowsOf w ++ (log.uncommitted.filter fun p => p.1 ≠ w).map Prod.snd) := by
  rw [rowsOf, ← List.map_append]
  apply List.Perm.map
  have h := List.filter_append_perm (fun p : W × R => decide (p.1 = w)) log.uncommitted
  simpa using h.symm

theorem WellStamped.rollback (h : WellStamped stamp log) (w : W) : WellStamped stamp (log.rollback w) where
  positive := h.positive
  below := h.below
  pending := by
    intro p hp
    obtain ⟨hmem, hne⟩ := List.mem_filter.mp hp
    obtain ⟨hpos, hlt, hw⟩ := h.pending p hmem
    exact ⟨hpos, hlt, List.mem_filter.mpr ⟨hw, hne⟩⟩
  next_pos := h.next_pos
  distinct := by
    have hsub : (log.uncommitted.filter fun p => p.1 ≠ w).Sublist log.uncommitted := List.filter_sublist
    have hrows := (List.Sublist.refl log.committed).append (hsub.map Prod.snd)
    exact (hrows.map stamp).nodup h.distinct

theorem WellStamped.commit (h : WellStamped stamp log) (w : W) : WellStamped stamp (log.commit w) where
  positive := by
    intro r hr
    rcases List.mem_append.mp hr with hold | hnew
    · exact h.positive r hold
    · exact (h.pending _ (mem_rowsOf.mp hnew)).1
  below := by
    intro r hr
    rcases List.mem_append.mp hr with hold | hnew
    · exact h.below r hold
    · exact (h.pending _ (mem_rowsOf.mp hnew)).2.1
  pending := (h.rollback w).pending
  next_pos := h.next_pos
  distinct := by
    show ((log.committed ++ log.rowsOf w ++ (log.uncommitted.filter fun p => p.1 ≠ w).map Prod.snd).map stamp).Nodup
    rw [List.append_assoc]
    have hperm := (split_uncommitted log w).append_left log.committed
    exact (hperm.map stamp).nodup_iff.mp h.distinct

omit [DecidableEq W] in
theorem WellStamped.write (h : WellStamped stamp log) {w : W} {row : Nat → R} (hw : w ∈ log.writers)
    (hrow : ∀ n, stamp (row n) = n) : WellStamped stamp (log.write w row) where
  positive := h.positive
  below := fun r hr => Nat.lt_succ_of_lt (h.below r hr)
  pending := by
    intro p hp
    rcases List.mem_append.mp hp with hold | hnew
    · obtain ⟨hpos, hlt, hmem⟩ := h.pending p hold
      exact ⟨hpos, Nat.lt_succ_of_lt hlt, hmem⟩
    · have heq : p = (w, row log.next) := by simpa using hnew
      rw [heq]
      have hpos := h.next_pos
      simp only [hrow]
      exact ⟨hpos, Nat.lt_succ_self _, hw⟩
  next_pos := Nat.succ_pos _
  distinct := by
    have hfresh : log.next ∉ (log.committed ++ log.uncommitted.map Prod.snd).map stamp := by
      intro hmem
      obtain ⟨r, hr, heq⟩ := List.mem_map.mp hmem
      rcases List.mem_append.mp hr with hold | hpend
      · have := h.below r hold
        omega
      · obtain ⟨p, hp, hpr⟩ := List.mem_map.mp hpend
        have := (h.pending p hp).2.1
        rw [hpr] at this
        omega
    have hrows : (log.write w row).committed ++ (log.write w row).uncommitted.map Prod.snd =
        (log.committed ++ log.uncommitted.map Prod.snd) ++ [row log.next] := by
      simp [StampedLog.write]
    rw [hrows, List.map_append]
    apply List.nodup_append.mpr
    refine ⟨h.distinct, by simp, ?_⟩
    intro a ha b hb heq
    have hb' : b = log.next := by simpa [hrow] using hb
    rw [heq, hb'] at ha
    exact hfresh ha

omit [DecidableEq W] in
theorem WellStamped.enter (h : WellStamped stamp log) (w : W) : WellStamped stamp (log.enter w) where
  positive := h.positive
  below := h.below
  pending := by
    intro p hp
    obtain ⟨hpos, hlt, hw⟩ := h.pending p hp
    exact ⟨hpos, hlt, List.mem_cons_of_mem _ hw⟩
  next_pos := h.next_pos
  distinct := h.distinct

theorem WellStamped.step (h : WellStamped stamp log) (hstep : Step stamp log log') : WellStamped stamp log' := by
  cases hstep with
  | enter w => exact h.enter w
  | write hw hrow => exact h.write hw hrow
  | rollback w => exact h.rollback w
  | commit w => exact h.commit w

omit [DecidableEq W] in
/-- While nobody writes, every row that was ever stamped is resolved. -/
theorem WellStamped.freeze (h : WellStamped stamp log) (hwriters : log.writers = [])
    (hbound : bound < log.next) (hle : ∀ r ∈ log.committed, stamp r ≤ bound) :
    Frozen stamp bound log.committed log where
  lt_next := hbound
  pending := by
    intro p hp
    have hw := (h.pending p hp).2.2
    rw [hwriters] at hw
    simp at hw
  rows_eq := by
    apply List.filter_eq_self.mpr
    intro r hr
    simpa using hle r hr

theorem Frozen.step (h : Frozen stamp bound rows log) (hstep : Step stamp log log') :
    Frozen stamp bound rows log' := by
  cases hstep with
  | enter w => exact ⟨h.lt_next, h.pending, h.rows_eq⟩
  | @write w row hw hrow =>
    refine ⟨Nat.lt_succ_of_lt h.lt_next, ?_, h.rows_eq⟩
    intro p hp
    rcases List.mem_append.mp hp with hold | hnew
    · exact h.pending p hold
    · have heq : p = (w, row log.next) := by simpa using hnew
      rw [heq, hrow]
      exact h.lt_next
  | rollback w =>
    refine ⟨h.lt_next, ?_, h.rows_eq⟩
    intro p hp
    exact h.pending p (List.mem_filter.mp hp).1
  | commit w =>
    refine ⟨h.lt_next, ?_, ?_⟩
    · intro p hp
      exact h.pending p (List.mem_filter.mp hp).1
    · have hnone : (log.rowsOf w).filter (fun r => stamp r ≤ bound) = [] := by
        apply List.filter_eq_nil_iff.mpr
        intro r hr
        have hlt := h.pending _ (mem_rowsOf.mp hr)
        simpa using hlt
      show (log.committed ++ log.rowsOf w).filter (fun r => stamp r ≤ bound) = rows
      rw [List.filter_append, hnone, List.append_nil, h.rows_eq]

end Stamps

end StampedLog

section Ranges

variable {R : Type*} (stamp : R → Nat)

def inRange (low high : Nat) (r : R) : Bool := decide (low < stamp r) && decide (stamp r ≤ high)

/-- The rows of a half-open range, in the order of their stamps. -/
def rangeOf (low high : Nat) (rows : List R) : List R :=
  (rows.filter (inRange stamp low high)).insertionSort fun a b => stamp a ≤ stamp b

variable {stamp} {rows : List R} {low mid high : Nat}

@[simp] theorem mem_rangeOf {r : R} :
    r ∈ rangeOf stamp low high rows ↔ r ∈ rows ∧ low < stamp r ∧ stamp r ≤ high := by
  simp [rangeOf, inRange]

theorem rangeOf_perm : (rangeOf stamp low high rows).Perm (rows.filter (inRange stamp low high)) :=
  List.perm_insertionSort _ _

theorem rangeOf_sorted : (rangeOf stamp low high rows).Pairwise fun a b => stamp a ≤ stamp b := by
  have : Std.Total fun a b : R => stamp a ≤ stamp b := ⟨fun _ _ => Nat.le_total _ _⟩
  have : IsTrans R fun a b => stamp a ≤ stamp b := ⟨fun _ _ _ => Nat.le_trans⟩
  exact List.pairwise_insertionSort _ _

/-- The rows below a bound decide every range below it. -/
theorem rangeOf_filter_le : rangeOf stamp low high (rows.filter fun r => stamp r ≤ high) =
    rangeOf stamp low high rows := by
  rw [rangeOf, rangeOf, List.filter_filter]
  congr 1
  apply List.filter_congr
  intro r hr
  simp [inRange]

theorem rangeOf_nil_of_le (h : high ≤ low) : rangeOf stamp low high rows = [] := by
  apply List.eq_nil_iff_forall_not_mem.mpr
  intro r hr
  have := mem_rangeOf.mp hr
  omega

/-- Adjacent ranges follow each other. -/
theorem rangeOf_append (hnodup : (rows.map stamp).Nodup) (hlow : low ≤ mid) (hhigh : mid ≤ high) :
    rangeOf stamp low mid rows ++ rangeOf stamp mid high rows = rangeOf stamp low high rows := by
  have hrows : rows.Nodup := hnodup.of_map stamp
  have hinj := List.inj_on_of_nodup_map hnodup
  have hleft : (rangeOf stamp low mid rows).Nodup := rangeOf_perm.nodup_iff.mpr (hrows.filter _)
  have hright : (rangeOf stamp mid high rows).Nodup := rangeOf_perm.nodup_iff.mpr (hrows.filter _)
  have hboth : (rangeOf stamp low mid rows ++ rangeOf stamp mid high rows).Nodup := by
    refine List.nodup_append.mpr ⟨hleft, hright, ?_⟩
    intro a ha b hb hab
    have hle := (mem_rangeOf.mp ha).2.2
    have hlt := (mem_rangeOf.mp hb).2.1
    rw [hab] at hle
    omega
  have hwhole : (rangeOf stamp low high rows).Nodup := rangeOf_perm.nodup_iff.mpr (hrows.filter _)
  have hperm : (rangeOf stamp low mid rows ++ rangeOf stamp mid high rows).Perm (rangeOf stamp low high rows) := by
    apply (List.perm_ext_iff_of_nodup hboth hwhole).mpr
    intro r
    rw [List.mem_append, mem_rangeOf, mem_rangeOf, mem_rangeOf]
    by_cases hmid : stamp r ≤ mid
    · constructor
      · rintro (⟨hr, h1, h2⟩ | ⟨hr, h1, h2⟩)
        · exact ⟨hr, h1, by omega⟩
        · exact ⟨hr, by omega, h2⟩
      · rintro ⟨hr, h1, h2⟩
        exact Or.inl ⟨hr, h1, hmid⟩
    · constructor
      · rintro (⟨hr, h1, h2⟩ | ⟨hr, h1, h2⟩)
        · exact ⟨hr, h1, by omega⟩
        · exact ⟨hr, by omega, h2⟩
      · rintro ⟨hr, h1, h2⟩
        exact Or.inr ⟨hr, by omega, h2⟩
  have hsorted : (rangeOf stamp low mid rows ++ rangeOf stamp mid high rows).Pairwise
      fun a b => stamp a ≤ stamp b := by
    refine List.pairwise_append.mpr ⟨rangeOf_sorted, rangeOf_sorted, ?_⟩
    intro a ha b hb
    have hle := (mem_rangeOf.mp ha).2.2
    have hlt := (mem_rangeOf.mp hb).2.1
    omega
  refine hperm.eq_of_pairwise (fun a b ha hb hab hba => ?_) hsorted rangeOf_sorted
  have hmem : a ∈ rows := by
    rcases List.mem_append.mp ha with h | h
    · exact (mem_rangeOf.mp h).1
    · exact (mem_rangeOf.mp h).1
  exact hinj hmem (mem_rangeOf.mp hb).1 (by omega)

end Ranges

end CorpusFeed
