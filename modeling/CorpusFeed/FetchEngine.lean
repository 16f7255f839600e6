import CorpusFeed.ArchivePlan

/-! The fetch of one source: every archive of the listing that the cursor does
not name is downloaded, and an accepted one is renamed into the mirror. The
cursor of a run is in memory until the end of the run, when it is saved. -/

namespace CorpusFeed

structure FetchCursor where
  baselineFileName : Option Archive
  fetched : List Archive

namespace FetchCursor

def new : FetchCursor := ⟨none, []⟩

def isFetched (c : FetchCursor) (a : Archive) : Bool := a ∈ c.fetched

def isNewerBaseline (c : FetchCursor) (a : Archive) : Bool :=
  match c.baselineFileName with
  | none => true
  | some existing => !c.isFetched existing || existing.timestamp < a.timestamp

/-- Recorded only after the integrity check of the archive. -/
def record (c : FetchCursor) (a : Archive) : FetchCursor where
  baselineFileName := if isBaseline a && c.isNewerBaseline a then some a else c.baselineFileName
  fetched := a :: c.fetched

end FetchCursor

inductive DownloadOutcome where
  | accepted
  | quarantined
  | failed
deriving DecidableEq

structure FetchRun where
  toFetch : List Archive
  cursor : FetchCursor

namespace FetchRun

def start (saved : FetchCursor) (listing : List Archive) : FetchRun where
  toFetch := (listing.insertionSort fun a b => a.timestamp ≤ b.timestamp).filter fun a => !saved.isFetched a
  cursor := saved

/-- One download. A transport error ends the loop over the listing. -/
def next (mirror : List Archive) (run : FetchRun) (outcome : DownloadOutcome) : List Archive × FetchRun :=
  match run.toFetch with
  | [] => (mirror, run)
  | a :: rest =>
    match outcome with
    | .accepted => (mirror.insert a, ⟨rest, run.cursor.record a⟩)
    | .quarantined => (mirror, ⟨rest, run.cursor⟩)
    | .failed => (mirror, ⟨[], run.cursor⟩)

end FetchRun

/-- The baseline of the cursor is the newest of those fetched. -/
structure FetchCursor.Newest (c : FetchCursor) : Prop where
  named : ∀ b, c.baselineFileName = some b → b ∈ c.fetched ∧ b.kind = .baseline
  newest : ∀ a ∈ c.fetched, a.kind = .baseline → ∃ b, c.baselineFileName = some b ∧ a.timestamp ≤ b.timestamp

namespace FetchCursor

variable {c : FetchCursor} {a : Archive}

theorem Newest.new : Newest new := by constructor <;> simp [FetchCursor.new]

theorem record_takes (h : (isBaseline a && c.isNewerBaseline a) = true) :
    c.record a = ⟨some a, a :: c.fetched⟩ := by simp [record, h]

theorem record_keeps (h : ¬ (isBaseline a && c.isNewerBaseline a) = true) :
    c.record a = ⟨c.baselineFileName, a :: c.fetched⟩ := by simp [record, h]

theorem Newest.isNewerBaseline_iff (h : c.Newest) {n : Archive} (hn : c.baselineFileName = some n) :
    c.isNewerBaseline a = true ↔ n.timestamp < a.timestamp := by
  simp [isNewerBaseline, hn, isFetched, (h.named n hn).1]

theorem Newest.record (h : c.Newest) (a : Archive) : (c.record a).Newest := by
  by_cases htakes : (isBaseline a && c.isNewerBaseline a) = true
  · rw [record_takes htakes]
    obtain ⟨hbaseline, hnewer⟩ := Bool.and_eq_true_iff.mp htakes
    constructor
    · intro b hb
      simp only [Option.some.injEq] at hb
      subst hb
      exact ⟨List.mem_cons_self, by simpa [isBaseline] using hbaseline⟩
    · intro b hb hkind
      refine ⟨a, rfl, ?_⟩
      rcases List.mem_cons.mp hb with rfl | hb
      · exact Nat.le_refl _
      · obtain ⟨n, hn, hle⟩ := h.newest b hb hkind
        have hlt := (h.isNewerBaseline_iff hn).mp hnewer
        omega
  · rw [record_keeps htakes]
    constructor
    · intro b hb
      exact ⟨List.mem_cons_of_mem a (h.named b hb).1, (h.named b hb).2⟩
    · intro b hb hkind
      rcases List.mem_cons.mp hb with rfl | hb
      · cases hn : c.baselineFileName with
        | none => simp [isBaseline, hkind, isNewerBaseline, hn] at htakes
        | some n =>
          refine ⟨n, rfl, ?_⟩
          by_contra hlt
          exact htakes (by simp [isBaseline, hkind, (h.isNewerBaseline_iff hn).mpr (Nat.lt_of_not_le hlt)])
      · obtain ⟨n, hn, hle⟩ := h.newest b hb hkind
        exact ⟨n, hn, hle⟩

end FetchCursor

namespace FetchRun

variable {mirror : List Archive} {run : FetchRun} {outcome : DownloadOutcome}

theorem next_newest (h : run.cursor.Newest) : (run.next mirror outcome).2.cursor.Newest := by
  unfold next
  split
  · exact h
  · cases outcome with
    | accepted => exact h.record _
    | quarantined => exact h
    | failed => exact h

end FetchRun

end CorpusFeed
