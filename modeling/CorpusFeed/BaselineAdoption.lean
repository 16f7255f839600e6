import CorpusFeed.Runs
import CorpusFeed.UpdateRuns

/-! However update runs and fetches interleave, a baseline is adopted only after it was
published, and no automatic run publishes again a rebaseline that another run finished. -/

namespace CorpusFeed

namespace UpdateHost

variable {s s' : UpdateHost} {initial : ArchiveSource → Option Archive}

/-- The marker that the log leaves. -/
def lastAdopted : List UpdateEvent → ArchiveSource → Option Archive
  | [], _ => none
  | .adopted _ source baseline :: log, other => if other = source then some baseline else lastAdopted log other
  | _ :: log, other => lastAdopted log other

/-- An automatic run has chosen no baseline that is marked as adopted. -/
def Unadopted (s : UpdateHost) (u : UpdateProcess) (newBaselines : BaselineSet) : Prop :=
  u.options.forceRebaseline = false → ∀ entry ∈ newBaselines, s.adopted entry.1 ≠ some entry.2

/-- The baseline that the run read of a source is the marker or is still to be marked. -/
structure Kept (adopted : ArchiveSource → Option Archive) (sources : List ArchiveSource)
    (read : ArchiveSource → Option Archive) (todo : List ArchiveSource) (entries : BaselineSet) : Prop where
  todo_nodup : todo.Nodup
  todo_new : ∀ entry ∈ entries, entry.1 ∉ todo
  entry_read : ∀ entry ∈ entries, ∀ b, read entry.1 = some b → entry.2 = b
  source_read : ∀ source ∈ sources, source ∉ todo → ∀ b, read source = some b →
    adopted source = some b ∨ (source, b) ∈ entries

/-- Under the lock, and for a group that names no source twice. -/
def Holds (s : UpdateHost) (id : ℕ) (u : UpdateProcess) (todo : List ArchiveSource) (entries : BaselineSet) : Prop :=
  s.lock = some id ∧ (u.options.sources.Nodup → Kept s.adopted u.options.sources u.read todo entries)

/-- What a run relies on where it stands. -/
def StageHolds (s : UpdateHost) (id : ℕ) (u : UpdateProcess) : UpdateStage → Prop
  | .fetching _ | .planning _ _ | .waiting => True
  | .routing rest newBaselines => s.Holds id u rest newBaselines ∧ s.Unadopted u newBaselines
  | .refusing _ newBaselines | .ingesting _ newBaselines => s.Holds id u [] newBaselines ∧ s.Unadopted u newBaselines
  | .confirming rest => s.Holds id u rest []
  | .adopting rest => s.Holds id u [] rest ∧
    ∀ entry ∈ rest, ∃ p, .published p ∈ s.log ∧ p.run = id ∧ entry ∈ p.baselines
  | .seeding _ | .reporting => s.Holds id u [] []

/-- A run that published has stopped, or has marked each of its baselines or is about to. -/
def Carried (s : UpdateHost) (newer : List UpdateEvent) (p : Publication) : Prop :=
  .stopped p.run ∈ newer ∨ ∀ entry ∈ p.baselines, .adopted p.run entry.1 entry.2 ∈ newer ∨
    ∃ u rest, s.runs p.run = some u ∧ u.stage = .adopting rest ∧ entry ∈ rest

/-- A mark was published before by the same run. -/
def Marked (log : List UpdateEvent) : Prop :=
  ∀ newer older id source baseline, log = newer ++ .adopted id source baseline :: older →
    ∃ p, .published p ∈ older ∧ p.run = id ∧ (source, baseline) ∈ p.baselines

/-- An automatic run publishes a baseline again only if the run that published it before
stopped, or if another baseline of the source was marked in between. -/
def Once (log : List UpdateEvent) : Prop :=
  ∀ newer between older p q source baseline,
    log = newer ++ .published q :: (between ++ .published p :: older) → q.automatic = true →
      (source, baseline) ∈ p.baselines → (source, baseline) ∈ q.baselines →
        .stopped p.run ∈ between ∨ ∃ id other, other ≠ baseline ∧ .adopted id source other ∈ between

structure Invariant (initial : ArchiveSource → Option Archive) (s : UpdateHost) : Prop where
  fresh : ∀ id, s.nextRun ≤ id → s.runs id = none
  stages : ∀ id u, s.runs id = some u → s.StageHolds id u u.stage
  marker : ∀ source, s.adopted source = (lastAdopted s.log source).or (initial source)
  carried : ∀ newer older p, s.log = newer ++ .published p :: older → s.Carried newer p
  marked : Marked s.log
  once : Once s.log

section Logs

variable {log : List UpdateEvent} {e : UpdateEvent}

theorem Marked.cons (h : Marked log) (hnew : ∀ id source baseline, e = .adopted id source baseline →
    ∃ p, .published p ∈ log ∧ p.run = id ∧ (source, baseline) ∈ p.baselines) : Marked (e :: log) := by
  intro newer older id source baseline hlog
  cases newer with
  | nil =>
    obtain ⟨rfl, rfl⟩ := List.cons.inj hlog
    exact hnew id source baseline rfl
  | cons first newer => exact h newer older id source baseline (List.cons.inj hlog).2

theorem Once.cons (h : Once log) (hnew : ∀ between older p q source baseline, e = .published q →
    log = between ++ .published p :: older → q.automatic = true → (source, baseline) ∈ p.baselines →
      (source, baseline) ∈ q.baselines →
        .stopped p.run ∈ between ∨ ∃ id other, other ≠ baseline ∧ .adopted id source other ∈ between) :
    Once (e :: log) := by
  intro newer between older p q source baseline hlog
  cases newer with
  | nil =>
    obtain ⟨hfirst, hrest⟩ := List.cons.inj hlog
    exact hnew between older p q source baseline hfirst hrest
  | cons first newer => exact h newer between older p q source baseline (List.cons.inj hlog).2

theorem lastAdopted_append {between rest : List UpdateEvent} {source : ArchiveSource} {baseline : Archive} {id : ℕ}
    (hmem : .adopted id source baseline ∈ between)
    (hall : ∀ id other, .adopted id source other ∈ between → other = baseline) :
    lastAdopted (between ++ rest) source = some baseline := by
  induction between with
  | nil => cases hmem
  | cons first between ih =>
    have hall' : ∀ id other, .adopted id source other ∈ between → other = baseline :=
      fun id other h => hall id other (List.mem_cons_of_mem first h)
    rcases List.mem_cons.mp hmem with hfirst | hrest
    · rw [← hfirst, List.cons_append, lastAdopted, if_pos rfl]
    · have hlater := ih hrest hall'
      cases first with
      | adopted id' source' other =>
        rw [List.cons_append, lastAdopted]
        by_cases hsame : source = source'
        · subst hsame
          rw [if_pos rfl, hall id' other List.mem_cons_self]
        · rw [if_neg hsame]
          exact hlater
      | published p => exact hlater
      | stopped id' => exact hlater

end Logs

section Frames

variable {id : ℕ} {u : UpdateProcess} {stage : UpdateStage}

theorem Holds.congr {todo : List ArchiveSource} {entries : BaselineSet} (h : s.Holds id u todo entries)
    (hlock : s'.lock = s.lock) (hadopted : s'.adopted = s.adopted) : s'.Holds id u todo entries :=
  ⟨hlock.trans h.1, hadopted ▸ h.2⟩

theorem Unadopted.congr {newBaselines : BaselineSet} (h : s.Unadopted u newBaselines)
    (hadopted : s'.adopted = s.adopted) : s'.Unadopted u newBaselines := by
  unfold Unadopted
  rw [hadopted]
  exact h

/-- What a run relies on is not touched while it holds the lock. -/
theorem StageHolds.congr (h : s.StageHolds id u stage) (hlock : s'.lock = s.lock) (hadopted : s'.adopted = s.adopted)
    (hlog : ∀ e ∈ s.log, e ∈ s'.log) : s'.StageHolds id u stage := by
  cases stage with
  | fetching rest => trivial
  | planning rest found => trivial
  | waiting => trivial
  | routing rest newBaselines => exact ⟨h.1.congr hlock hadopted, h.2.congr hadopted⟩
  | refusing rest newBaselines => exact ⟨h.1.congr hlock hadopted, h.2.congr hadopted⟩
  | ingesting rest newBaselines => exact ⟨h.1.congr hlock hadopted, h.2.congr hadopted⟩
  | confirming rest => exact Holds.congr h hlock hadopted
  | adopting rest =>
    refine ⟨h.1.congr hlock hadopted, fun entry hentry => ?_⟩
    obtain ⟨p, hp, hrest⟩ := h.2 entry hentry
    exact ⟨p, hlog _ hp, hrest⟩
  | seeding rest => exact Holds.congr h hlock hadopted
  | reporting => exact Holds.congr h hlock hadopted

theorem StageHolds.unlocked (h : s.StageHolds id u stage) (hlock : s.lock ≠ some id) : s'.StageHolds id u stage := by
  cases stage with
  | fetching rest => trivial
  | planning rest found => trivial
  | waiting => trivial
  | routing rest newBaselines => exact absurd h.1.1 hlock
  | refusing rest newBaselines => exact absurd h.1.1 hlock
  | ingesting rest newBaselines => exact absurd h.1.1 hlock
  | confirming rest => exact absurd h.1 hlock
  | adopting rest => exact absurd h.1.1 hlock
  | seeding rest => exact absurd h.1 hlock
  | reporting => exact absurd h.1 hlock

end Frames

section Changes

variable {id : ℕ} {u : UpdateProcess}

/-- A step of one run: the others keep what they rely on, since they have not the lock. -/
theorem Invariant.stages_of (h : Invariant initial s) (hlog : ∀ e ∈ s.log, e ∈ s'.log)
    (hother : ∀ other, other ≠ id → s'.runs other = s.runs other)
    (hlock : ∀ other, other ≠ id → s.lock = some other → s'.lock = s.lock ∧ s'.adopted = s.adopted)
    (hown : ∀ u', s'.runs id = some u' → s'.StageHolds id u' u'.stage) :
    ∀ other u', s'.runs other = some u' → s'.StageHolds other u' u'.stage := by
  intro other u' hrun
  by_cases hsame : other = id
  · subst hsame
    exact hown u' hrun
  · rw [hother other hsame] at hrun
    have hstage := h.stages other u' hrun
    by_cases hheld : s.lock = some other
    · obtain ⟨hlock', hadopted⟩ := hlock other hsame hheld
      exact hstage.congr hlock' hadopted hlog
    · exact hstage.unlocked hheld

theorem Invariant.fresh_of (h : Invariant initial s) (hrun : s.runs id = some u) (hnext : s'.nextRun = s.nextRun)
    (hother : ∀ other, other ≠ id → s'.runs other = s.runs other) :
    ∀ other, s'.nextRun ≤ other → s'.runs other = none := by
  intro other hle
  rw [hnext] at hle
  have hne : other ≠ id := by
    rintro rfl
    have hnone := h.fresh other hle
    rw [hrun] at hnone
    cases hnone
  rw [hother other hne]
  exact h.fresh other hle

/-- What a run has still to mark, it marks next, or it keeps it, or it stops. -/
def Passes (s' : UpdateHost) (id : ℕ) (u : UpdateProcess) (news : List UpdateEvent) : Prop :=
  ∀ rest entry, u.stage = .adopting rest → entry ∈ rest → .stopped id ∈ news ∨ .adopted id entry.1 entry.2 ∈ news ∨
    ∃ u' rest', s'.runs id = some u' ∧ u'.stage = .adopting rest' ∧ entry ∈ rest'

theorem Carried.step {newer news : List UpdateEvent} {p : Publication} (h : s.Carried newer p)
    (hrun : s.runs id = some u) (hother : ∀ other, other ≠ id → s'.runs other = s.runs other)
    (hpasses : Passes s' id u news) :
    s'.Carried (news ++ newer) p := by
  rcases h with hstopped | hentries
  · exact Or.inl (List.mem_append_right news hstopped)
  by_cases hsame : p.run = id
  · subst hsame
    by_cases hstops : .stopped p.run ∈ news
    · exact Or.inl (List.mem_append_left newer hstops)
    · refine Or.inr fun entry hentry => ?_
      rcases hentries entry hentry with hmarked | ⟨u', rest, hrun', hstage, hrest⟩
      · exact Or.inl (List.mem_append_right news hmarked)
      · rw [hrun] at hrun'
        cases hrun'
        rcases hpasses rest entry hstage hrest with h | h | h
        · exact absurd h hstops
        · exact Or.inl (List.mem_append_left newer h)
        · exact Or.inr h
  · refine Or.inr fun entry hentry => ?_
    rcases hentries entry hentry with hmarked | ⟨u', rest, hrun', hstage, hrest⟩
    · exact Or.inl (List.mem_append_right news hmarked)
    · exact Or.inr ⟨u', rest, (hother p.run hsame).trans hrun', hstage, hrest⟩

theorem Invariant.silent (h : Invariant initial s) (hrun : s.runs id = some u) (hlog : s'.log = s.log)
    (hadopted : s'.adopted = s.adopted) (hnext : s'.nextRun = s.nextRun)
    (hother : ∀ other, other ≠ id → s'.runs other = s.runs other)
    (hlock : ∀ other, other ≠ id → s.lock = some other → s'.lock = s.lock)
    (hown : ∀ u', s'.runs id = some u' → s'.StageHolds id u' u'.stage)
    (hidle : ∀ rest, u.stage = .adopting rest → rest = []) : Invariant initial s' := by
  have hpasses : Passes s' id u [] := by
    intro rest entry hstage hentry
    rw [hidle rest hstage] at hentry
    cases hentry
  refine ⟨h.fresh_of hrun hnext hother, h.stages_of (fun e he => hlog ▸ he) hother ?_ hown, ?_, ?_, hlog ▸ h.marked,
    hlog ▸ h.once⟩
  · intro other hne hheld
    exact ⟨hlock other hne hheld, hadopted⟩
  · intro source
    rw [hadopted, hlog]
    exact h.marker source
  · intro newer older p hsplit
    rw [hlog] at hsplit
    exact (h.carried newer older p hsplit).step hrun hother hpasses

theorem Invariant.logged (h : Invariant initial s) (hrun : s.runs id = some u) {e : UpdateEvent}
    (hlog : s'.log = e :: s.log) (hnext : s'.nextRun = s.nextRun)
    (hother : ∀ other, other ≠ id → s'.runs other = s.runs other)
    (hlock : ∀ other, other ≠ id → s.lock = some other → s'.lock = s.lock ∧ s'.adopted = s.adopted)
    (hown : ∀ u', s'.runs id = some u' → s'.StageHolds id u' u'.stage)
    (hmarker : ∀ source, s'.adopted source = (lastAdopted (e :: s.log) source).or (initial source))
    (hpasses : Passes s' id u [e]) (hpublished : ∀ p, e = .published p → s'.Carried [] p)
    (hmarked : Marked (e :: s.log)) (honce : Once (e :: s.log)) : Invariant initial s' := by
  refine ⟨h.fresh_of hrun hnext hother, h.stages_of ?_ hother hlock hown, ?_, ?_, hlog ▸ hmarked, hlog ▸ honce⟩
  · intro other hother
    rw [hlog]
    exact List.mem_cons_of_mem e hother
  · rw [hlog]
    exact hmarker
  · intro newer older p hsplit
    rw [hlog] at hsplit
    cases newer with
    | nil => exact hpublished p (List.cons.inj hsplit).1
    | cons first newer =>
      obtain ⟨rfl, hrest⟩ := List.cons.inj hsplit
      exact (h.carried newer older p hrest).step hrun hother hpasses

end Changes

section Effects

variable {id : ℕ} {u : UpdateProcess}

theorem put_runs_ne (u : UpdateProcess) (stage : UpdateStage) (other : ℕ) (h : other ≠ id) :
    (s.put id u stage).runs other = s.runs other := Function.update_of_ne h _ _

theorem put_own {stage : UpdateStage} {u' : UpdateProcess} (h : (s.put id u stage).runs id = some u') :
    u' = { u with stage := stage } := by
  have hself : (s.put id u stage).runs id = some { u with stage := stage } := Function.update_self _ _ _
  rw [hself] at h
  exact (Option.some.inj h).symm

theorem Invariant.move (h : Invariant initial s) (hrun : s.runs id = some u) {stage : UpdateStage}
    (hto : s.StageHolds id { u with stage := stage } stage) (hidle : ∀ rest, u.stage = .adopting rest → rest = []) :
    Invariant initial (s.apply id u (.move stage)) := by
  refine h.silent hrun rfl rfl rfl (put_runs_ne u stage) (fun _ _ _ => rfl) ?_ hidle
  intro u' hown
  rw [put_own hown]
  exact hto.congr rfl rfl fun e he => he

theorem Invariant.note (h : Invariant initial s) (hrun : s.runs id = some u) {source : ArchiveSource}
    {stage : UpdateStage}
    (hto : s.StageHolds id { u with read := Function.update u.read source (s.fetched source), stage := stage } stage)
    (hidle : ∀ rest, u.stage = .adopting rest → rest = []) : Invariant initial (s.apply id u (.note source stage)) := by
  refine h.silent hrun rfl rfl rfl (put_runs_ne _ stage) (fun _ _ _ => rfl) ?_ hidle
  intro u' hown
  rw [put_own hown]
  exact hto.congr rfl rfl fun e he => he

theorem Invariant.acquire (h : Invariant initial s) (hrun : s.runs id = some u) (hfree : s.lock = none)
    {stage : UpdateStage} (hto : StageHolds { s with lock := some id } id { u with stage := stage } stage)
    (hidle : ∀ rest, u.stage = .adopting rest → rest = []) : Invariant initial (s.apply id u (.acquire stage)) := by
  refine h.silent hrun rfl rfl rfl (put_runs_ne u stage) ?_ ?_ hidle
  · intro other _ hheld
    rw [hfree] at hheld
    cases hheld
  · intro u' hown
    rw [put_own hown]
    exact hto.congr rfl rfl fun e he => he

theorem drop_runs_ne (other : ℕ) (h : other ≠ id) : (s.drop id).runs other = s.runs other := Function.update_of_ne h _ _

theorem drop_own {u' : UpdateProcess} (h : (s.drop id).runs id = some u') : False := by
  have hself : (s.drop id).runs id = none := Function.update_self _ _ _
  rw [hself] at h
  cases h

theorem drop_lock (other : ℕ) (hne : other ≠ id) (hheld : s.lock = some other) : (s.drop id).lock = s.lock := by
  have hnot : s.lock ≠ some id := by
    rw [hheld]
    exact fun h => hne (Option.some.inj h)
  exact if_neg hnot

theorem Invariant.finish (h : Invariant initial s) (hrun : s.runs id = some u)
    (hidle : ∀ rest, u.stage = .adopting rest → rest = []) : Invariant initial (s.apply id u .finish) :=
  h.silent hrun rfl rfl rfl drop_runs_ne drop_lock (fun _ hown => (drop_own hown).elim) hidle

theorem Invariant.stop (h : Invariant initial s) (hrun : s.runs id = some u) :
    Invariant initial (s.apply id u .stop) := by
  refine h.logged hrun (e := .stopped id) rfl rfl drop_runs_ne ?_ ?_ ?_ ?_ ?_ ?_ ?_
  · intro other hne hheld
    exact ⟨drop_lock other hne hheld, rfl⟩
  · intro u' hown
    exact (drop_own hown).elim
  · exact h.marker
  · intro rest entry _ _
    exact Or.inl List.mem_cons_self
  · intro p hp
    cases hp
  · apply h.marked.cons
    intro id source baseline he
    cases he
  · apply h.once.cons
    intro between older p q source baseline he
    cases he

/-- Under the lock a rebaseline is published for baselines that are not marked, and what the
earlier runs published is settled. -/
theorem Invariant.publish (h : Invariant initial s) (hrun : s.runs id = some u) (hheld : s.lock = some id)
    {baselines : BaselineSet} {stage : UpdateStage}
    (hto : StageHolds { s with log := .published ⟨id, u.options, baselines⟩ :: s.log } id
      { u with stage := stage } stage)
    (hunadopted : s.Unadopted u baselines) (hnot : ∀ rest, u.stage ≠ .adopting rest)
    (hstage : ∀ entry ∈ baselines, ∃ rest, stage = .adopting rest ∧ entry ∈ rest) :
    Invariant initial (s.apply id u (.publish baselines stage)) := by
  refine h.logged hrun (e := .published ⟨id, u.options, baselines⟩) rfl rfl (put_runs_ne u stage) ?_ ?_ ?_ ?_ ?_ ?_ ?_
  · intro other _ _
    exact ⟨rfl, rfl⟩
  · intro u' hown
    rw [put_own hown]
    exact hto.congr rfl rfl fun e he => he
  · exact h.marker
  · intro rest entry hadopting
    exact absurd hadopting (hnot rest)
  · intro p hp
    cases hp
    refine Or.inr fun entry hentry => Or.inr ?_
    obtain ⟨rest, hrest, hmem⟩ := hstage entry hentry
    exact ⟨{ u with stage := stage }, rest, Function.update_self _ _ _, hrest, hmem⟩
  · apply h.marked.cons
    intro id source baseline he
    cases he
  · apply h.once.cons
    intro between older p q source baseline he hlog hauto hp hq
    cases he
    rcases h.carried between older p hlog with hstopped | hentries
    · exact Or.inl hstopped
    right
    rcases hentries _ hp with hmarked | ⟨u', rest, hrun', hadopting, _⟩
    · by_contra hnone
      have hall : ∀ id other, .adopted id source other ∈ between → other = baseline := by
        intro id other hmem
        by_contra hne
        exact hnone ⟨id, other, hne, hmem⟩
      have hmarker := h.marker source
      rw [hlog, lastAdopted_append hmarked hall] at hmarker
      have hforced : u.options.forceRebaseline = false := by simpa [Publication.automatic] using hauto
      exact hunadopted hforced _ hq hmarker
    · -- the other run would hold the lock
      have hother := h.stages p.run u' hrun'
      rw [hadopting] at hother
      have hsame : p.run = id := Option.some.inj (hother.1.1.symm.trans hheld)
      rw [hsame, hrun] at hrun'
      cases hrun'
      exact absurd hadopting (hnot rest)

theorem adopt_adopted {source : ArchiveSource} {baseline : Archive} {stage : UpdateStage} :
    (s.apply id u (.adopt source baseline stage)).adopted = Function.update s.adopted source (some baseline) := rfl

theorem Invariant.adopt (h : Invariant initial s) (hrun : s.runs id = some u) {source : ArchiveSource}
    {baseline : Archive} {rest : BaselineSet} (hadopting : u.stage = .adopting ((source, baseline) :: rest)) :
    Invariant initial (s.apply id u (.adopt source baseline (.adopting rest))) := by
  have hstage := h.stages id u hrun
  rw [hadopting] at hstage
  obtain ⟨⟨hheld, hkept⟩, hpublished⟩ := hstage
  refine h.logged hrun (e := .adopted id source baseline) rfl rfl (put_runs_ne u (.adopting rest)) ?_ ?_ ?_ ?_ ?_ ?_ ?_
  · intro other hne hother
    rw [hheld] at hother
    exact absurd (Option.some.inj hother).symm hne
  · intro u' hown
    rw [put_own hown]
    refine ⟨⟨hheld, fun hnodup => ?_⟩, fun entry hentry => ?_⟩
    · have hk := hkept hnodup
      refine ⟨hk.todo_nodup, fun entry _ => List.not_mem_nil, fun entry hentry =>
        hk.entry_read entry (List.mem_cons_of_mem _ hentry), ?_⟩
      intro other hother htodo b hread
      by_cases hsame : other = source
      · have hb := hk.entry_read (source, baseline) List.mem_cons_self b (hsame ▸ hread)
        left
        rw [adopt_adopted, hsame, Function.update_self]
        exact congrArg some hb
      · rcases hk.source_read other hother htodo b hread with hmarked | hmem
        · left
          rw [adopt_adopted, Function.update_of_ne hsame]
          exact hmarked
        · right
          rcases List.mem_cons.mp hmem with heq | hmem
          · exact absurd (Prod.mk.inj heq).1 hsame
          · exact hmem
    · obtain ⟨p, hp, hrest⟩ := hpublished entry (List.mem_cons_of_mem _ hentry)
      exact ⟨p, List.mem_cons_of_mem _ hp, hrest⟩
  · intro other
    rw [lastAdopted, adopt_adopted]
    by_cases hsame : other = source
    · rw [if_pos hsame, hsame, Function.update_self]
      rfl
    · rw [if_neg hsame, Function.update_of_ne hsame]
      exact h.marker other
  · intro rest' entry hother hentry
    rw [hadopting] at hother
    cases hother
    rcases List.mem_cons.mp hentry with rfl | hentry
    · exact Or.inr (Or.inl List.mem_cons_self)
    · exact Or.inr (Or.inr ⟨{ u with stage := .adopting rest }, rest, Function.update_self _ _ _, rfl, hentry⟩)
  · intro p hp
    cases hp
  · apply h.marked.cons
    intro id' source' baseline' he
    cases he
    exact hpublished _ List.mem_cons_self
  · apply h.once.cons
    intro between older p q source baseline he
    cases he

end Effects

section Choice

variable {options : UpdateOptions} {source : ArchiveSource} {b b' : Archive}

theorem not_adopted_of_pending {fetched adopted : Option Archive}
    (h : (BaselineDecision.decide fetched adopted).pending = some b) : adopted ≠ some b := by
  have hfetched := BaselineDecision.pending_eq_some h
  rintro rfl
  rw [hfetched, BaselineDecision.decide, if_pos rfl] at h
  cases h

/-- A run chooses the baseline that it reads, and leaves out only what is marked already. -/
theorem newBaseline_fetched (options : UpdateOptions) (hread : s.fetched source = some b) :
    s.newBaseline options source = some b ∨
      (s.newBaseline options source = none ∧ s.adopted source = some b) := by
  unfold newBaseline plannedRebaselineBaseline
  by_cases hforced : options.forceRebaseline
  · left
    rw [if_pos hforced, hread]
    by_cases hsnapshot : options.snapshotOnly
    · rw [if_pos hsnapshot]
      rfl
    · rw [if_neg hsnapshot]
  · rw [if_neg hforced]
    cases hpending : (s.baselineDecision source).pending with
    | some b' =>
      have hfetched := BaselineDecision.pending_eq_some hpending
      rw [hread] at hfetched
      exact Or.inl hfetched.symm
    | none => exact Or.inr ⟨rfl, BaselineDecision.pending_eq_none hpending b hread⟩

theorem newBaseline_read (h : s.newBaseline options source = some b) (hread : s.fetched source = some b') : b = b' := by
  rcases newBaseline_fetched options hread with hnew | ⟨hnone, _⟩
  · rw [hnew] at h
    exact (Option.some.inj h).symm
  · rw [hnone] at h
    cases h

theorem read_newBaseline (hread : s.fetched source = some b) :
    s.adopted source = some b ∨ s.newBaseline options source = some b := by
  rcases newBaseline_fetched options hread with hnew | ⟨_, hmarked⟩
  · exact Or.inr hnew
  · exact Or.inl hmarked

theorem Kept.note {adopted : ArchiveSource → Option Archive} {sources rest : List ArchiveSource}
    {read : ArchiveSource → Option Archive} {entries : BaselineSet} {fetched chosen : Option Archive}
    (h : Kept adopted sources read (source :: rest) entries)
    (hchosen : ∀ b b', chosen = some b → fetched = some b' → b = b')
    (hleft : ∀ b, fetched = some b → adopted source = some b ∨ chosen = some b) :
    Kept adopted sources (Function.update read source fetched) rest
      (entries ++ chosen.toList.map fun b => (source, b)) := by
  obtain ⟨hsource, hrest⟩ := List.nodup_cons.mp h.todo_nodup
  have hcases : ∀ entry ∈ entries ++ chosen.toList.map fun b => (source, b),
      (entry ∈ entries ∧ entry.1 ≠ source) ∨ (entry.1 = source ∧ chosen = some entry.2) := by
    intro entry hentry
    rcases List.mem_append.mp hentry with hold | hnew
    · refine Or.inl ⟨hold, ?_⟩
      rintro rfl
      exact h.todo_new entry hold List.mem_cons_self
    · obtain ⟨b, hb, rfl⟩ := List.mem_map.mp hnew
      exact Or.inr ⟨rfl, Option.mem_toList.mp hb⟩
  refine ⟨hrest, ?_, ?_, ?_⟩
  · intro entry hentry
    rcases hcases entry hentry with ⟨hold, _⟩ | ⟨hnew, _⟩
    · exact fun hmem => h.todo_new entry hold (List.mem_cons_of_mem source hmem)
    · rw [hnew]
      exact hsource
  · intro entry hentry b hread
    rcases hcases entry hentry with ⟨hold, hne⟩ | ⟨hnew, hb⟩
    · rw [Function.update_of_ne hne] at hread
      exact h.entry_read entry hold b hread
    · rw [hnew, Function.update_self] at hread
      exact hchosen _ _ hb hread
  · intro other hother htodo b hread
    by_cases hsame : other = source
    · rw [hsame, Function.update_self] at hread
      rw [hsame]
      refine (hleft b hread).imp_right fun hb => List.mem_append_right _ ?_
      exact List.mem_map.mpr ⟨b, Option.mem_toList.mpr hb, rfl⟩
    · rw [Function.update_of_ne hsame] at hread
      have hnot : other ∉ source :: rest := List.not_mem_cons_of_ne_of_not_mem hsame htodo
      exact (h.source_read other hother hnot b hread).imp_right fun hmem => List.mem_append_left _ hmem

end Choice

section Steps

variable {id : ℕ} {u : UpdateProcess}

theorem Kept.unread {adopted read : ArchiveSource → Option Archive} {sources : List ArchiveSource} (h : sources.Nodup) :
    Kept adopted sources read sources [] :=
  ⟨h, fun _ hentry => absurd hentry List.not_mem_nil, fun _ hentry => absurd hentry List.not_mem_nil,
    fun _ hsource htodo => absurd hsource htodo⟩

theorem idle_of_stage {stage : UpdateStage} (hown : u.stage = stage) (hnot : ∀ rest, stage ≠ .adopting rest) :
    ∀ rest, u.stage = .adopting rest → rest = [] :=
  fun rest hadopting => absurd (hown.symm.trans hadopting) (hnot rest)

variable {rest : List ArchiveSource} {newBaselines : BaselineSet}

theorem Invariant.fetching (h : Invariant initial s) (hrun : s.runs id = some u)
    (hown : u.stage = .fetching rest) : Invariant initial (s.apply id u (u.next s)) := by
  unfold UpdateProcess.next
  have hno := idle_of_stage hown fun rest => by simp
  rw [hown]
  cases rest with
  | cons source rest => exact h.move hrun trivial hno
  | nil =>
    dsimp only
    by_cases hdry : u.options.dryRun
    · rw [if_pos hdry]
      exact h.finish hrun hno
    · rw [if_neg hdry]
      by_cases hforced : u.options.forceRebaseline
      · rw [if_pos hforced]
        exact h.move hrun trivial hno
      · rw [if_neg hforced]
        exact h.move hrun trivial hno

theorem Invariant.planning (h : Invariant initial s) (hrun : s.runs id = some u) {found : Bool}
    (hown : u.stage = .planning rest found) : Invariant initial (s.apply id u (u.next s)) := by
  unfold UpdateProcess.next
  have hno := idle_of_stage hown fun rest => by simp
  rw [hown]
  cases rest with
  | cons source rest => exact h.move hrun trivial hno
  | nil =>
    dsimp only
    by_cases hfound : found
    · rw [if_pos hfound]
      exact h.move hrun trivial hno
    · rw [if_neg hfound]
      exact h.stop hrun

theorem Invariant.waiting (h : Invariant initial s) (hrun : s.runs id = some u)
    (hown : u.stage = .waiting) : Invariant initial (s.apply id u (u.next s)) := by
  unfold UpdateProcess.next
  have hno := idle_of_stage hown fun rest => by simp
  rw [hown]
  dsimp only
  by_cases hfree : s.lock.isNone
  · rw [if_pos hfree]
    refine h.acquire hrun (Option.isNone_iff_eq_none.mp hfree) ⟨⟨rfl, Kept.unread⟩, ?_⟩ hno
    intro _ entry hentry
    cases hentry
  · rw [if_neg hfree]
    exact h.move hrun trivial hno

theorem Invariant.routing (h : Invariant initial s) (hrun : s.runs id = some u)
    (hown : u.stage = .routing rest newBaselines) : Invariant initial (s.apply id u (u.next s)) := by
  have hstage := h.stages id u hrun
  unfold UpdateProcess.next
  have hno := idle_of_stage hown fun rest => by simp
  rw [hown] at hstage ⊢
  obtain ⟨⟨hheld, hkept⟩, hunadopted⟩ := hstage
  cases rest with
  | cons source rest =>
    refine h.note hrun ⟨⟨hheld, fun hnodup => ?_⟩, ?_⟩ hno
    · exact (hkept hnodup).note (fun b b' => newBaseline_read) fun b => read_newBaseline
    · intro hforced entry hentry
      rcases List.mem_append.mp hentry with hold | hnew
      · exact hunadopted hforced entry hold
      · obtain ⟨b, hb, rfl⟩ := List.mem_map.mp hnew
        have hpending := Option.mem_toList.mp hb
        unfold newBaseline at hpending
        replace hforced : u.options.forceRebaseline = false := hforced
        rw [hforced] at hpending
        exact not_adopted_of_pending hpending
  | nil =>
    have hingest : Invariant initial (s.apply id u (.move (.ingesting u.ingested newBaselines))) :=
      h.move hrun ⟨⟨hheld, hkept⟩, hunadopted⟩ hno
    dsimp only
    by_cases hforced : u.options.forceRebaseline
    · rw [if_pos hforced]
      by_cases hempty : newBaselines.isEmpty
      · rw [if_pos hempty]
        exact h.stop hrun
      · rw [if_neg hempty]
        exact hingest
    · rw [if_neg hforced]
      by_cases hproceeds : newBaselines.isEmpty || u.options.auto
      · rw [if_pos hproceeds]
        exact hingest
      · rw [if_neg hproceeds]
        exact h.move hrun ⟨⟨hheld, hkept⟩, hunadopted⟩ hno

theorem Invariant.refusing (h : Invariant initial s) (hrun : s.runs id = some u)
    (hown : u.stage = .refusing rest newBaselines) : Invariant initial (s.apply id u (u.next s)) := by
  have hstage := h.stages id u hrun
  unfold UpdateProcess.next
  have hno := idle_of_stage hown fun rest => by simp
  rw [hown] at hstage ⊢
  cases rest with
  | nil => exact h.move hrun hstage hno
  | cons source rest =>
    dsimp only
    by_cases hpending : (s.baselineDecision source).pending.isSome
    · rw [if_pos hpending]
      exact h.stop hrun
    · rw [if_neg hpending]
      exact h.move hrun hstage hno

theorem Invariant.ingesting (h : Invariant initial s) (hrun : s.runs id = some u)
    (hown : u.stage = .ingesting rest newBaselines) : Invariant initial (s.apply id u (u.next s)) := by
  have hstage := h.stages id u hrun
  unfold UpdateProcess.next
  have hno := idle_of_stage hown fun rest => by simp
  rw [hown] at hstage ⊢
  obtain ⟨⟨hheld, hkept⟩, hunadopted⟩ := hstage
  cases rest with
  | cons source rest => exact h.move hrun ⟨⟨hheld, hkept⟩, hunadopted⟩ hno
  | nil =>
    dsimp only
    by_cases hrebaseline : u.doRebaseline newBaselines
    · rw [if_pos hrebaseline]
      refine h.publish hrun hheld ⟨⟨hheld, hkept⟩, ?_⟩ hunadopted (fun rest => ?_) fun entry hentry =>
        ⟨newBaselines, rfl, hentry⟩
      · intro entry hentry
        exact ⟨_, List.mem_cons_self, rfl, hentry⟩
      · rw [hown]
        simp
    · rw [if_neg hrebaseline]
      exact h.move hrun ⟨hheld, Kept.unread⟩ hno

theorem Invariant.confirming (h : Invariant initial s) (hrun : s.runs id = some u)
    (hown : u.stage = .confirming rest) : Invariant initial (s.apply id u (u.next s)) := by
  have hstage := h.stages id u hrun
  unfold UpdateProcess.next
  have hno := idle_of_stage hown fun rest => by simp
  rw [hown] at hstage ⊢
  obtain ⟨hheld, hkept⟩ := hstage
  cases rest with
  | nil =>
    refine h.publish hrun hheld ⟨hheld, hkept⟩ (fun _ entry hentry => ?_) (fun rest => ?_) fun entry hentry => ?_
    · cases hentry
    · rw [hown]
      simp
    · cases hentry
  | cons source rest =>
    dsimp only
    by_cases hpending : (s.baselineDecision source).pending.isSome
    · rw [if_pos hpending]
      exact h.stop hrun
    · rw [if_neg hpending]
      have hsettled : (s.baselineDecision source).pending = none := by simpa using hpending
      refine h.note hrun ⟨hheld, fun hnodup => ?_⟩ hno
      have hnoted := (hkept hnodup).note (fun b b' (hb : none = some b) => by cases hb)
        fun b (hb : s.fetched source = some b) => Or.inl (BaselineDecision.pending_eq_none hsettled b hb)
      exact hnoted

theorem Invariant.adopting (h : Invariant initial s) (hrun : s.runs id = some u) {rest : BaselineSet}
    (hown : u.stage = .adopting rest) : Invariant initial (s.apply id u (u.next s)) := by
  have hstage := h.stages id u hrun
  unfold UpdateProcess.next
  rw [hown]
  cases rest with
  | cons entry rest => exact h.adopt hrun hown
  | nil =>
    have hno : ∀ rest, u.stage = .adopting rest → rest = [] := by
      intro rest hadopting
      rw [hown] at hadopting
      cases hadopting
      rfl
    rw [hown] at hstage
    dsimp only
    by_cases hsnapshot : u.options.snapshotOnly
    · rw [if_pos hsnapshot]
      exact h.move hrun hstage.1 hno
    · rw [if_neg hsnapshot]
      exact h.move hrun hstage.1 hno

theorem Invariant.advance (h : Invariant initial s) (hrun : s.runs id = some u) :
    Invariant initial (s.apply id u (u.next s)) := by
  cases hown : u.stage with
  | fetching rest => exact h.fetching hrun hown
  | planning rest found => exact h.planning hrun hown
  | waiting => exact h.waiting hrun hown
  | routing rest newBaselines => exact h.routing hrun hown
  | refusing rest newBaselines => exact h.refusing hrun hown
  | ingesting rest newBaselines => exact h.ingesting hrun hown
  | confirming rest => exact h.confirming hrun hown
  | adopting rest => exact h.adopting hrun hown
  | seeding rest =>
    have hstage := h.stages id u hrun
    have hno := idle_of_stage hown fun rest => by simp
    unfold UpdateProcess.next
    rw [hown] at hstage ⊢
    cases rest with
    | nil => exact h.move hrun hstage hno
    | cons source rest => exact h.move hrun hstage hno
  | reporting =>
    unfold UpdateProcess.next
    rw [hown]
    exact h.finish hrun (idle_of_stage hown fun rest => by simp)

theorem Invariant.begin (h : Invariant initial s) (options : UpdateOptions) :
    Invariant initial (s.step (.start options)) := by
  have hnone := h.fresh s.nextRun (le_refl _)
  have hother : ∀ other, other ≠ s.nextRun → (s.step (.start options)).runs other = s.runs other :=
    fun other hne => Function.update_of_ne hne _ _
  refine ⟨?_, ?_, h.marker, ?_, h.marked, h.once⟩
  · intro other hle
    replace hle : s.nextRun + 1 ≤ other := hle
    rw [hother other (by omega)]
    exact h.fresh other (by omega)
  · intro other u' hrun
    by_cases hsame : other = s.nextRun
    · subst hsame
      have hself : (s.step (.start options)).runs s.nextRun =
          some ⟨options, .fetching options.sources, fun _ => none⟩ := Function.update_self _ _ _
      rw [hself] at hrun
      cases hrun
      trivial
    · rw [hother other hsame] at hrun
      exact (h.stages other u' hrun).congr rfl rfl fun e he => he
  · intro newer older p hsplit
    refine (h.carried newer older p hsplit).imp_right fun hentries entry hentry => ?_
    refine (hentries entry hentry).imp_right ?_
    rintro ⟨u', rest, hrun, hstage⟩
    have hne : p.run ≠ s.nextRun := by
      intro hsame
      rw [hsame, hnone] at hrun
      cases hrun
    exact ⟨u', rest, (hother p.run hne).trans hrun, hstage⟩

theorem Invariant.step (h : Invariant initial s) (a : UpdateAction) : Invariant initial (s.step a) := by
  cases a with
  | start options => exact h.begin options
  | fetched source baseline =>
    refine ⟨h.fresh, ?_, h.marker, h.carried, h.marked, h.once⟩
    intro id u hrun
    exact (h.stages id u hrun).congr rfl rfl fun e he => he
  | advance id =>
    rw [UpdateHost.step]
    cases hrun : s.runs id with
    | none => exact h
    | some u => exact h.advance hrun
  | stop id =>
    rw [UpdateHost.step]
    cases hrun : s.runs id with
    | none => exact h
    | some u => exact h.stop hrun

theorem Invariant.start (initial : ArchiveSource → Option Archive) : Invariant initial (start initial) := by
  refine ⟨fun _ _ => rfl, ?_, fun source => rfl, ?_, ?_, ?_⟩
  · intro id u hrun
    cases hrun
  · intro newer older p hsplit
    exact absurd (List.append_eq_nil_iff.mp hsplit.symm).2 (List.cons_ne_nil _ _)
  · intro newer older id source baseline hsplit
    exact absurd (List.append_eq_nil_iff.mp hsplit.symm).2 (List.cons_ne_nil _ _)
  · intro newer between older p q source baseline hsplit
    exact absurd (List.append_eq_nil_iff.mp hsplit.symm).2 (List.cons_ne_nil _ _)

end Steps

/-- However runs, fetches and crashes interleave: a marker was published before by the run
that set it; an automatic run publishes a baseline again only if the run before it stopped
or another baseline of the source was marked in between; and a run that comes to its report
leaves as marker of each of its sources the baseline that it read. -/
theorem baselines_adopted_once (initial : ArchiveSource → Option Archive) (actions : List UpdateAction) :
    let s := runFrom UpdateHost.step (start initial) actions
    Marked s.log ∧ Once s.log ∧ (∀ source, s.adopted source = (lastAdopted s.log source).or (initial source)) ∧
      ∀ id u, s.runs id = some u → u.stage = .reporting → u.options.sources.Nodup →
        ∀ source ∈ u.options.sources, ∀ b, u.read source = some b → s.adopted source = some b := by
  have h : Invariant initial (runFrom UpdateHost.step (start initial) actions) :=
    runFrom_keeps_all (fun s a hs => hs.step a) (Invariant.start initial)
  refine ⟨h.marked, h.once, h.marker, ?_⟩
  intro id u hrun hreporting hnodup source hsource b hread
  have hstage := h.stages id u hrun
  rw [hreporting] at hstage
  rcases (hstage.2 hnodup).source_read source hsource List.not_mem_nil b hread with hmarked | hmem
  · exact hmarked
  · cases hmem

end UpdateHost

end CorpusFeed
