import CorpusFeed.DeltaCursor

/-! Histories of fetch runs and updates of one source, and the deltas that they
leave behind the cursor. -/

namespace CorpusFeed

namespace SourceHost

variable {s : SourceHost}

/-- A delta-only run starts from the cursor; every other run has no lower bound. -/
theorem chooseIngestMode_cases {fullScan : Bool} {cursor : Option Nat} {nowUnix : Nat} {acceptStaleCursor : Bool}
    {filter : ArchiveSyncFilter} (h : chooseIngestMode fullScan cursor nowUnix acceptStaleCursor = some filter) :
    filter.sinceCompact = none ∨ (fullScan = false ∧ filter.sinceCompact = cursor) := by
  unfold chooseIngestMode at h
  split at h
  · cases h
    exact Or.inl rfl
  · next hfull =>
    split at h
    · cases h
      exact Or.inl rfl
    · split at h
      · cases h
      · cases h
        exact Or.inr ⟨by simpa using hfull, rfl⟩

theorem Processed.add {a : Archive} (h : s.Processed a) (run : IngestRun) (adopted : Option Archive) :
    Processed { s with runs := run :: s.runs, adopted := adopted, update := none } a := by
  obtain ⟨old, hold, hcompleted, hmem⟩ := h
  exact ⟨old, List.mem_cons_of_mem run hold, hcompleted, hmem⟩

theorem latestCompact_incomplete (run : IngestRun) (hrun : run.completed = false) (adopted : Option Archive) :
    latestCompact { s with runs := run :: s.runs, adopted := adopted, update := none } = s.latestCompact := by
  simp [latestCompact, latestCompletedIngestArchiveCompact, IngestRun.cursorCompact, hrun]

theorem adoptedAfter_of_not_published {pending : Option Archive} {reach : UpdateReach} (h : reach ≠ .published) :
    s.adoptedAfter pending reach = s.adopted := if_neg h

theorem adoptedAfter_none (reach : UpdateReach) : s.adoptedAfter none reach = s.adopted := by
  simp [adoptedAfter]

/-- Only the cursor bounds what an update selects, and only where no baseline is pending. -/
def StartsAtCursor (s : SourceHost) (pending : Option Archive) (filter : ArchiveSyncFilter) : Prop :=
  filter.sinceCompact = none ∨ (pending = none ∧ filter.sinceCompact = s.latestCompact)

/-- What the update under way has decided and listed. -/
def UpdateHolds (s : SourceHost) : Prop :=
  match s.update with
  | none => True
  | some (.routed pending filter) => s.StartsAtCursor pending filter
  | some (.ingesting pending listed selected) => ∃ plan filter, planFromPaths listed = some plan ∧
      selected = selectArchivesToProcess plan filter ∧ s.StartsAtCursor pending filter

theorem UpdateHolds.route (input : UpdateInput) : UpdateHolds { s with update := s.route input } := by
  unfold SourceHost.route
  by_cases hrefuses : s.refuses input = true
  · rw [if_pos hrefuses]
    trivial
  rw [if_neg hrefuses]
  cases hmode : s.ingestMode input with
  | none => trivial
  | some filter =>
    rcases chooseIngestMode_cases hmode with hsince | ⟨hpending, hsince⟩
    · exact Or.inl hsince
    · refine Or.inr ⟨?_, hsince⟩
      rwa [Option.isSome_eq_false_iff, Option.isNone_iff_eq_none] at hpending

theorem UpdateHolds.list (h : s.UpdateHolds) : UpdateHolds { s with update := s.list } := by
  unfold SourceHost.list
  cases hupdate : s.update with
  | none => trivial
  | some update =>
    rw [UpdateHolds, hupdate] at h
    cases update with
    | ingesting pending listed selected => exact h
    | routed pending filter =>
      cases hplan : planFromPaths s.mirror with
      | none => trivial
      | some plan => exact ⟨plan, filter, hplan, rfl, h⟩

/-- A delta that was listed after the planned baseline is selected, or it is below
the cursor. -/
theorem DeltasProcessed.ingest {pending : Option Archive} {listed selected : List Archive} {reach : UpdateReach}
    (h : s.DeltasProcessed) (hholds : s.UpdateHolds) (hupdate : s.update = some (.ingesting pending listed selected))
    (htimely : s.Timely (.updateEnd reach)) (hreach : reach = .ingested ∨ reach = .published) :
    DeltasProcessed { s with
      runs := ⟨selected, true, false⟩ :: s.runs
      adopted := s.adoptedAfter pending reach
      update := none } := by
  rw [UpdateHolds, hupdate] at hholds
  obtain ⟨plan, filter, hplan, rfl, hstarts⟩ := hholds
  intro b compact hb hcompact a ha hkind hafter hle
  have hof := planFromPaths_cases hplan
  have hprocessed := htimely pending listed _ hupdate hreach b hb a ha hkind hafter
  by_cases hlisted : a ∈ listed
  · by_cases hbefore : a.timestamp ≤ plan.baseline.timestamp
    · exact (hprocessed (Or.inl ⟨plan.baseline, hof.baseline_mem, hof.baseline_kind, hbefore⟩)).add _ _
    have hdelta := (hof.mem_deltas a).mpr ⟨hlisted, hkind, Nat.lt_of_not_le hbefore⟩
    by_cases hselected : passesSince filter.sinceCompact a = true
    · exact ⟨_, List.mem_cons_self, rfl, mem_select.mpr (Or.inr ⟨hdelta, hselected⟩)⟩
    rcases hstarts with hsince | ⟨rfl, hsince⟩
    · simp [hsince, passesSince] at hselected
    · cases hcursor : s.latestCompact with
      | none => simp [hsince, hcursor, passesSince] at hselected
      | some since =>
        simp only [hsince, hcursor, passesSince, decide_eq_true_eq, Nat.not_le] at hselected
        rw [adoptedAfter_none] at hb
        exact (h b since hb hcursor a ha hkind hafter (Nat.le_of_lt hselected)).add _ _
  · exact (hprocessed (Or.inr ⟨hlisted, compact, hcompact, hle⟩)).add _ _

theorem DeltasProcessed.finish {reach : UpdateReach} (h : s.DeltasProcessed) (hholds : s.UpdateHolds)
    (htimely : s.Timely (.updateEnd reach)) : (s.finish reach).DeltasProcessed := by
  unfold SourceHost.finish
  split
  · next pending listed selected hupdate =>
    cases hreach : reach with
    | beforeIngest => exact h
    | ingestFailed =>
      rw [if_neg (by simp)]
      intro b compact hb hcompact a ha hkind hafter hle
      rw [latestCompact_incomplete _ (by simp)] at hcompact
      rw [adoptedAfter_of_not_published (by simp)] at hb
      exact (h b compact hb hcompact a ha hkind hafter hle).add _ _
    | ingested => exact h.ingest hholds hupdate (hreach ▸ htimely) (Or.inl rfl)
    | published => exact h.ingest hholds hupdate (hreach ▸ htimely) (Or.inr rfl)
  · exact h

theorem UpdateHolds.finish (reach : UpdateReach) : (s.finish reach).UpdateHolds := by
  unfold SourceHost.finish
  split
  · split <;> trivial
  · trivial

theorem DeltasProcessed.fetchNext {id : Nat} {outcome : DownloadOutcome} (h : s.DeltasProcessed)
    (htimely : s.Timely (.fetchNext id outcome)) : (s.step (.fetchNext id outcome)).DeltasProcessed := by
  cases hfetch : s.fetches id with
  | none => simpa [step, hfetch] using h
  | some run =>
    simp only [step, hfetch]
    intro b compact hb hcompact a ha hkind hafter hle
    by_cases hold : a ∈ s.mirror
    · exact h b compact hb hcompact a hold hkind hafter hle
    dsimp only at ha
    unfold FetchRun.next at ha
    split at ha
    · exact absurd ha hold
    next first rest htodo =>
    cases outcome with
    | accepted =>
      rcases List.mem_insert_iff.mp ha with rfl | hmem
      · exact htimely run a rest hfetch htodo hkind b compact hb hcompact hafter hle
      · exact absurd hmem hold
    | quarantined => exact absurd ha hold
    | failed => exact absurd ha hold

theorem UpdateHolds.step (a : SourceAction) (h : s.UpdateHolds) : (s.step a).UpdateHolds := by
  cases a with
  | fetchStart id listing => exact h
  | fetchNext id outcome =>
    cases hfetch : s.fetches id with
    | none => simpa [SourceHost.step, hfetch] using h
    | some run =>
      simp only [SourceHost.step, hfetch]
      exact h
  | fetchSave id =>
    cases hfetch : s.fetches id with
    | none => simpa [SourceHost.step, hfetch] using h
    | some run =>
      simp only [SourceHost.step, hfetch]
      exact h
  | fetchCrash id => exact h
  | updateStart input =>
    rw [SourceHost.step]
    split
    · exact UpdateHolds.route input
    · exact h
  | updateList => exact h.list
  | updateEnd reach => exact UpdateHolds.finish reach

theorem DeltasProcessed.step (a : SourceAction) (h : s.DeltasProcessed) (hholds : s.UpdateHolds) (htimely : s.Timely a) :
    (s.step a).DeltasProcessed := by
  cases a with
  | fetchStart id listing => exact h
  | fetchNext id outcome => exact h.fetchNext htimely
  | fetchSave id =>
    cases hfetch : s.fetches id with
    | none => simpa [SourceHost.step, hfetch] using h
    | some run =>
      simp only [SourceHost.step, hfetch]
      exact h
  | fetchCrash id => exact h
  | updateStart input =>
    rw [SourceHost.step]
    split
    · exact h
    · exact h
  | updateList => exact h
  | updateEnd reach => exact h.finish hholds htimely

theorem deltasProcessed_start : start.DeltasProcessed := by
  intro b compact hb
  cases hb

/-- In a history whose steps are timely no delta is lost in any state. -/
theorem no_delta_lost (actions : List SourceAction) (htimely : RunMeets step Timely start actions) :
    RunMeets step (fun s a => (s.step a).DeltasProcessed) start actions := by
  have hkeep : ∀ s a, DeltasProcessed s ∧ UpdateHolds s → Timely s a →
      (s.step a).DeltasProcessed ∧ (s.step a).UpdateHolds :=
    fun s a h htimely => ⟨h.1.step a h.2 htimely, h.2.step a⟩
  exact RunMeets.mono hkeep (fun s a h htimely => (hkeep s a h htimely).1) ⟨deltasProcessed_start, trivial⟩ htimely

def january : Archive := ⟨.baseline, 20250101000000⟩

def february : Archive := ⟨.delta, 20250201000000⟩

def march : Archive := ⟨.delta, 20250301000000⟩

/-- An update on 2025-03-15. -/
def midMarchUpdate : List SourceAction :=
  [.updateStart ⟨true, false, 1742000000, false⟩, .updateList, .updateEnd .published]

def fetchMarch (february : DownloadOutcome) : List SourceAction :=
  [.fetchStart 0 [SourceHost.january, SourceHost.february, march], .fetchNext 0 .accepted, .fetchNext 0 february,
    .fetchNext 0 .accepted, .fetchSave 0] ++ midMarchUpdate

theorem fetchMarch_lost_nothing :
    RunMeets step (fun s a => (s.step a).DeltasProcessed) start (fetchMarch .accepted) := by
  refine no_delta_lost (fetchMarch .accepted) ⟨trivial, ?_, ?_, ?_, trivial, trivial, trivial, ?_, trivial⟩
  · intro run a rest _ _ _ b compact hb
    cases hb
  · intro run a rest _ _ _ b compact hb
    cases hb
  · intro run a rest _ _ _ b compact hb
    cases hb
  · intro pending listed selected hupdate _ b hb a ha _ hafter hcase
    have hmirror : (runFrom step start ((fetchMarch .accepted).take 7)).mirror = [march, february, january] := by decide
    have hplanned : (runFrom step start ((fetchMarch .accepted).take 7)).update =
        some (.ingesting (some january) [march, february, january] [january, february, march]) := by rfl
    obtain ⟨rfl, rfl, rfl⟩ : pending = some january ∧ listed = [march, february, january] ∧
        selected = [january, february, march] := by
      have hsame := hupdate.symm.trans hplanned
      simpa using hsame
    have ha' : a ∈ [march, february, january] := hmirror ▸ ha
    obtain rfl : january = b := Option.some.inj hb
    rcases hcase with ⟨n, hn, hbaseline, hle⟩ | ⟨hlisted, _⟩
    · simp only [List.mem_cons, List.not_mem_nil, or_false] at hn
      rcases hn with rfl | rfl | rfl
      · cases hbaseline
      · cases hbaseline
      · omega
    · exact absurd ha' hlisted

/-- The quarantined delta is accepted by a later run, and the update after it
does not select it. -/
theorem late_delta_is_lost : ¬ RunMeets step (fun s a => (s.step a).DeltasProcessed) start
    (fetchMarch .quarantined ++ [.fetchStart 1 [january, february, march], .fetchNext 1 .accepted, .fetchSave 1] ++
      midMarchUpdate) := by
  intro hrun
  obtain ⟨_, _, _, hprocessed, _⟩ := RunMeets.append_iff.mp hrun
  have hselected : (runFrom step start (fetchMarch .quarantined ++ [.fetchStart 1 [january, february, march],
      .fetchNext 1 .accepted, .fetchSave 1] ++ midMarchUpdate)).runs.map IngestRun.selected =
        [[march], [january, march]] := by decide
  obtain ⟨run, hrun, _, hmem⟩ := hprocessed january march.timestamp (by decide) (by decide) february (by decide)
    (by decide) (by decide) (by decide)
  have hone : run.selected ∈ [[march], [january, march]] := hselected ▸ List.mem_map.mpr ⟨run, hrun, rfl⟩
  rcases List.mem_cons.mp hone with hone | hone
  · simp [hone, february, march] at hmem
  · simp [List.mem_singleton.mp hone, february, january, march] at hmem

end SourceHost

end CorpusFeed
