import CorpusFeed.BaselineBoundary

/-! Interleavings of fetch runs and updates. The fetched archives of every
cursor, saved or in memory, stay in the mirror, and an ordinary update has found
no pending baseline in the cursors it read. -/

namespace CorpusFeed

/-- The cursor names mirrored archives, and its baseline is the newest of them. -/
structure FetchCursor.Kept (mirror : List Archive) (c : FetchCursor) : Prop where
  newest : c.Newest
  mirrored : ∀ a ∈ c.fetched, a ∈ mirror

namespace FetchCursor.Kept

variable {mirror mirror' : List Archive} {c : FetchCursor}

theorem new : Kept mirror FetchCursor.new := ⟨Newest.new, by simp [FetchCursor.new]⟩

theorem mono (h : c.Kept mirror) (hsub : ∀ a ∈ mirror, a ∈ mirror') : c.Kept mirror' :=
  ⟨h.newest, fun a ha => hsub a (h.mirrored a ha)⟩

theorem next {run : FetchRun} (h : run.cursor.Kept mirror) (outcome : DownloadOutcome) :
    (run.next mirror outcome).2.cursor.Kept (run.next mirror outcome).1 := by
  refine ⟨FetchRun.next_newest h.newest, ?_⟩
  unfold FetchRun.next
  split
  · exact h.mirrored
  · next a rest _ =>
    cases outcome with
    | accepted =>
      intro b hb
      rcases List.mem_cons.mp hb with rfl | hb
      · exact List.mem_insert_self
      · exact List.mem_insert_of_mem (h.mirrored b hb)
    | quarantined => exact h.mirrored
    | failed => exact h.mirrored

end FetchCursor.Kept

theorem FetchRun.subset_next (mirror : List Archive) (run : FetchRun) (outcome : DownloadOutcome) :
    ∀ a ∈ mirror, a ∈ (run.next mirror outcome).1 := by
  intro a ha
  unfold FetchRun.next
  split
  · exact ha
  · cases outcome with
    | accepted => exact List.mem_insert_of_mem ha
    | quarantined => exact ha
    | failed => exact ha

namespace ProducerHost

open FetchCursor

variable {s s' : ProducerHost} {u : UpdateRun}

/-- The cursor that the update read shows no pending baseline of the source. -/
def Clear (s : ProducerHost) (u : UpdateRun) (source : ArchiveSource) : Prop :=
  ∀ b, (u.read source).baselineFileName = some b → s.adopted source = some b

def Checked (s : ProducerHost) (u : UpdateRun) : Prop :=
  match u.phase with
  | .checking rest => u.mode ≠ .forced → u.newBaselines = [] → ∀ source ∈ u.sources, source ∈ rest ∨ s.Clear u source
  | .confirming rest => u.mode = .manual ∧ ∀ source ∈ u.sources, source ∈ rest ∨ s.Clear u source
  | .ingesting rest => (∀ source ∈ rest, source ∈ u.sources) ∧ (u.ordinary → ∀ source ∈ u.sources, s.Clear u source)

def MirroredBaseline (s : ProducerHost) (source : ArchiveSource) (b : Archive) : Prop :=
  b ∈ s.mirror source ∧ b.kind = .baseline

structure UpdateChecked (s : ProducerHost) (u : UpdateRun) : Prop where
  reads : ∀ source, (u.read source).Kept (s.mirror source)
  planned : ∀ entry ∈ u.newBaselines, s.MirroredBaseline entry.1 entry.2
  checked : s.Checked u

structure CursorsKept (s : ProducerHost) : Prop where
  saved : ∀ source, (s.cursor source).Kept (s.mirror source)
  adopted : ∀ source b, s.adopted source = some b → s.MirroredBaseline source b
  running : ∀ id source run, s.fetches id = some (source, run) → run.cursor.Kept (s.mirror source)
  update : ∀ u, s.update = some u → s.UpdateChecked u

theorem cursorsKept_start : CursorsKept start := by
  constructor
  · exact fun source => Kept.new
  · intro source b h
    cases h
  · intro id source run h
    cases h
  · intro u h
    cases h

theorem UpdateChecked.mono (h : s.UpdateChecked u) (hmirror : ∀ source, ∀ a ∈ s.mirror source, a ∈ s'.mirror source)
    (hadopted : s'.adopted = s.adopted) : s'.UpdateChecked u := by
  refine ⟨fun source => (h.reads source).mono (hmirror source), fun entry hentry => ?_, ?_⟩
  · obtain ⟨hmem, hkind⟩ := h.planned entry hentry
    exact ⟨hmirror entry.1 entry.2 hmem, hkind⟩
  have hchecked := h.checked
  unfold Checked Clear at *
  rw [hadopted]
  exact hchecked

theorem CursorsKept.of_fetch (h : s.CursorsKept) (hmirror : ∀ source, ∀ a ∈ s.mirror source, a ∈ s'.mirror source)
    (hadopted : s'.adopted = s.adopted) (hupdate : s'.update = s.update)
    (hsaved : ∀ source, (s'.cursor source).Kept (s'.mirror source))
    (hrunning : ∀ id source run, s'.fetches id = some (source, run) → run.cursor.Kept (s'.mirror source)) :
    s'.CursorsKept :=
  ⟨hsaved, fun source b hb => ⟨hmirror source b (h.adopted source b (hadopted ▸ hb)).1,
    (h.adopted source b (hadopted ▸ hb)).2⟩, hrunning, fun u hu => (h.update u (hupdate ▸ hu)).mono hmirror hadopted⟩

theorem CursorsKept.fetchStart (h : s.CursorsKept) (id : Nat) (source : ArchiveSource) (listing : List Archive) :
    (s.step (.fetchStart id source listing)).CursorsKept := by
  refine h.of_fetch (fun _ _ ha => ha) rfl rfl h.saved fun id' source' run hrun => ?_
  by_cases hid : id' = id
  · subst hid
    simp only [step, Function.update_self, Option.some.injEq, Prod.mk.injEq] at hrun
    obtain ⟨rfl, rfl⟩ := hrun
    exact h.saved source
  · simp only [step, Function.update_of_ne hid] at hrun
    exact h.running id' source' run hrun

theorem CursorsKept.fetchNext (h : s.CursorsKept) (id : Nat) (outcome : DownloadOutcome) :
    (s.step (.fetchNext id outcome)).CursorsKept := by
  cases hfetch : s.fetches id with
  | none => simpa [step, hfetch] using h
  | some entry =>
    obtain ⟨source, run⟩ := entry
    have hmirror : ∀ source', ∀ a ∈ s.mirror source',
        a ∈ Function.update s.mirror source (run.next (s.mirror source) outcome).1 source' := by
      intro source' a ha
      by_cases hsource : source' = source
      · subst hsource
        rw [Function.update_self]
        exact run.subset_next _ _ a ha
      · rwa [Function.update_of_ne hsource]
    simp only [step, hfetch]
    refine h.of_fetch hmirror rfl rfl (fun source' => (h.saved source').mono (hmirror source')) ?_
    intro id' source' run' hrun
    by_cases hid : id' = id
    · subst hid
      simp only [Function.update_self, Option.some.injEq, Prod.mk.injEq] at hrun
      obtain ⟨rfl, rfl⟩ := hrun
      simpa using (h.running id' source run hfetch).next outcome
    · simp only [Function.update_of_ne hid] at hrun
      exact (h.running id' source' run' hrun).mono (hmirror source')

theorem CursorsKept.running_erase (h : s.CursorsKept) (id : Nat) : ∀ id' source run,
    Function.update s.fetches id none id' = some (source, run) → run.cursor.Kept (s.mirror source) := by
  intro id' source run hrun
  by_cases hid : id' = id
  · subst hid
    simp at hrun
  · rw [Function.update_of_ne hid] at hrun
    exact h.running id' source run hrun

theorem CursorsKept.fetchSave (h : s.CursorsKept) (id : Nat) : (s.step (.fetchSave id)).CursorsKept := by
  cases hfetch : s.fetches id with
  | none => simpa [step, hfetch] using h
  | some entry =>
    obtain ⟨source, run⟩ := entry
    simp only [step, hfetch]
    refine h.of_fetch (fun _ _ ha => ha) rfl rfl ?_ (h.running_erase id)
    intro source'
    by_cases hsource : source' = source
    · subst hsource
      simpa using h.running id source' run hfetch
    · simpa [Function.update_of_ne hsource] using h.saved source'

theorem CursorsKept.fetchCrash (h : s.CursorsKept) (id : Nat) : (s.step (.fetchCrash id)).CursorsKept :=
  h.of_fetch (fun _ _ ha => ha) rfl rfl h.saved (h.running_erase id)

theorem clear_read {source : ArchiveSource} (hpending : s.pendingBaseline source = none)
    {u' : UpdateRun} (hread : u'.read = Function.update u.read source (s.cursor source)) (other : ArchiveSource)
    (hother : other = source ∨ s.Clear u other) : s.Clear u' other := by
  by_cases hsource : other = source
  · subst hsource
    intro b hb
    rw [hread, Function.update_self] at hb
    exact BaselineDecision.pending_eq_none hpending b hb
  · intro b hb
    rw [hread, Function.update_of_ne hsource] at hb
    exact (hother.resolve_left hsource) b hb

theorem checked_route (h : u.mode ≠ .forced → u.newBaselines = [] → ∀ source ∈ u.sources, source ∈ [] ∨ s.Clear u source) :
    s.Checked u.route := by
  unfold UpdateRun.route
  split
  · next hmanual => exact ⟨hmanual.1, fun source hsource => Or.inl hsource⟩
  · next hmanual =>
    refine ⟨fun source hsource => hsource, fun hordinary source hsource => ?_⟩
    have hnew : u.newBaselines = [] := by
      by_contra hne
      have hmode : u.mode ≠ .manual := fun hmode => hmanual ⟨hmode, hne⟩
      cases hm : u.mode with
      | manual => exact hmode hm
      | auto => exact hne (hordinary.2 hm)
      | forced => exact hordinary.1 hm
    exact (h hordinary.1 hnew source hsource).resolve_left List.not_mem_nil

/-- The baselines that a run is to adopt are mirrored. -/
theorem CursorsKept.planned_mirrored (h : s.CursorsKept) {mode : UpdateMode} {source : ArchiveSource} {b : Archive}
    (hb : s.plannedBaseline mode source = some b) : s.MirroredBaseline source b := by
  have hfetched : (s.cursor source).baselineFileName = some b := by
    cases mode with
    | forced => exact hb
    | manual => exact BaselineDecision.pending_eq_some hb
    | auto => exact BaselineDecision.pending_eq_some hb
  obtain ⟨hmem, hkind⟩ := (h.saved source).newest.named b hfetched
  exact ⟨(h.saved source).mirrored b hmem, hkind⟩

theorem adoptNewBaselines_cases {adopted : ArchiveSource → Option Archive} {newBaselines : List (ArchiveSource × Archive)}
    (hold : ∀ source b, adopted source = some b → s.MirroredBaseline source b)
    (hnew : ∀ entry ∈ newBaselines, s.MirroredBaseline entry.1 entry.2) {source : ArchiveSource} {b : Archive}
    (hb : adoptNewBaselines adopted newBaselines source = some b) : s.MirroredBaseline source b := by
  induction newBaselines generalizing adopted with
  | nil => exact hold source b hb
  | cons entry rest ih =>
    refine ih (fun other b' hb' => ?_) (fun entry' hentry' => hnew entry' (List.mem_cons_of_mem entry hentry')) hb
    dsimp only at hb'
    by_cases hother : other = entry.1
    · subst hother
      rw [Function.update_self, Option.some.injEq] at hb'
      subst hb'
      exact hnew entry List.mem_cons_self
    · rw [Function.update_of_ne hother] at hb'
      exact hold other b' hb'

theorem CursorsKept.check (h : s.CursorsKept) {u' : UpdateRun} (hu : s.update = some u) (hcheck : s.check u = some u') :
    s.UpdateChecked u' := by
  obtain ⟨hreads, hplanned, hchecked⟩ := h.update u hu
  have hupdated : ∀ source other, (Function.update u.read source (s.cursor source) other).Kept (s.mirror other) := by
    intro source other
    by_cases hother : other = source
    · subst hother
      simpa using h.saved other
    · simpa [Function.update_of_ne hother] using hreads other
  unfold ProducerHost.check at hcheck
  unfold Checked at hchecked
  split at hcheck
  · next hphase =>
    rw [hphase] at hchecked
    split at hcheck
    · cases hcheck
    cases hcheck
    exact ⟨UpdateRun.route_read u ▸ hreads, UpdateRun.route_newBaselines u ▸ hplanned, checked_route hchecked⟩
  · next source rest hphase =>
    rw [hphase] at hchecked
    cases hcheck
    refine ⟨hupdated source, fun entry hentry => ?_, fun hmode hnew other hother => ?_⟩
    · rcases List.mem_append.mp hentry with hentry | hentry
      · exact hplanned entry hentry
      · obtain ⟨b, hb, rfl⟩ := List.mem_map.mp hentry
        exact h.planned_mirrored (Option.mem_toList.mp hb)
    obtain ⟨hold, hnone⟩ := List.append_eq_nil_iff.mp hnew
    have hpending : s.pendingBaseline source = none := by
      cases hm : u.mode <;> simp [plannedBaseline, hm] at hnone hmode <;> exact hnone
    rcases hchecked hmode hold other hother with hmem | hclear
    · rcases List.mem_cons.mp hmem with hsource | hrest
      · exact Or.inr (clear_read hpending rfl other (Or.inl hsource))
      · exact Or.inl hrest
    · exact Or.inr (clear_read hpending rfl other (Or.inr hclear))
  · next hphase =>
    rw [hphase] at hchecked
    cases hcheck
    refine ⟨hreads, hplanned, fun source hsource => hsource, fun _ source hsource => ?_⟩
    exact (hchecked.2 source hsource).resolve_left List.not_mem_nil
  · next source rest hphase =>
    rw [hphase] at hchecked
    split at hcheck
    · cases hcheck
    next hpending =>
    cases hcheck
    refine ⟨hupdated source, hplanned, hchecked.1, fun other hother => ?_⟩
    rcases hchecked.2 other hother with hmem | hclear
    · rcases List.mem_cons.mp hmem with hsource | hrest
      · exact Or.inr (clear_read hpending rfl other (Or.inl hsource))
      · exact Or.inl hrest
    · exact Or.inr (clear_read hpending rfl other (Or.inr hclear))
  · cases hcheck
    exact h.update u hu

theorem step_kept (s : ProducerHost) (a : HostAction) (h : s.CursorsKept) : (s.step a).CursorsKept := by
  cases a with
  | fetchStart id source listing => exact h.fetchStart id source listing
  | fetchNext id outcome => exact h.fetchNext id outcome
  | fetchSave id => exact h.fetchSave id
  | fetchCrash id => exact h.fetchCrash id
  | updateStart mode sources =>
    cases hupdate : s.update with
    | some u => simpa [step, hupdate] using h
    | none =>
      simp only [step, hupdate]
      refine ⟨h.saved, h.adopted, h.running, fun u hu => ?_⟩
      cases hu
      exact ⟨fun _ => Kept.new, by simp, fun _ _ source hsource => Or.inl hsource⟩
  | updateCheck =>
    refine ⟨h.saved, h.adopted, h.running, fun u' hu' => ?_⟩
    obtain ⟨u, hu, hcheck⟩ := Option.bind_eq_some_iff.mp hu'
    exact (h.check hu hcheck).mono (fun _ _ ha => ha) rfl
  | updateIngest filter =>
    unfold step
    dsimp only
    split
    · next u hu =>
      split
      · next source rest hphase =>
        obtain ⟨hreads, hplanned, hchecked⟩ := h.update u hu
        rw [Checked, hphase] at hchecked
        refine ⟨h.saved, h.adopted, h.running, fun u' hu' => ?_⟩
        cases hu'
        exact ⟨hreads, hplanned, fun other hother => hchecked.1 other (List.mem_cons_of_mem source hother), hchecked.2⟩
      · exact h
    · exact h
  | updatePublish =>
    unfold step
    dsimp only
    split
    · next u hu =>
      split
      · refine ⟨h.saved, fun source b hb => ?_, h.running, fun u' hu' => ?_⟩
        · dsimp only at hb
          split at hb
          · exact h.adopted source b hb
          · exact adoptNewBaselines_cases h.adopted (h.update u hu).planned hb
        · cases hu'
      · exact h
    · exact h
  | updateStop =>
    refine ⟨h.saved, h.adopted, h.running, fun u hu => ?_⟩
    cases hu

theorem ordinaryIngest_cases {source : ArchiveSource} (h : s.ordinaryIngest = some (u, source)) :
    s.update = some u ∧ u.ordinary ∧ ∃ rest, u.phase = .ingesting (source :: rest) := by
  unfold ordinaryIngest at h
  split at h
  · next u' hu =>
    split at h
    · next source' rest hphase =>
      split at h
      · next hordinary =>
        cases h
        exact ⟨hu, hordinary, rest, hphase⟩
      · cases h
    · cases h
  · cases h

theorem eq_of_baselines {a b : Archive} (ha : a.kind = .baseline) (hb : b.kind = .baseline)
    (htimestamp : a.timestamp = b.timestamp) : a = b := by
  cases a
  cases b
  simp_all

theorem CursorsKept.sound (h : s.CursorsKept) {a : HostAction} (hseen : s.BoundarySeen a) : s.OrdinarySound a := by
  cases a with
  | updateIngest filter =>
    intro u source plan hingest hplan
    obtain ⟨hu, hordinary, rest, hphase⟩ := ordinaryIngest_cases hingest
    obtain ⟨hreads, _, hchecked⟩ := h.update u hu
    rw [Checked, hphase] at hchecked
    have hclear := hchecked.2 hordinary source (hchecked.1 source List.mem_cons_self)
    have hof := planFromPaths_cases hplan
    have hadopted : s.adopted source = some plan.baseline := by
      by_cases hnewer : ∀ adopted ∈ s.adopted source, adopted.timestamp < plan.baseline.timestamp
      · have hfetched := hseen u source hingest plan.baseline hof.baseline_mem hof.baseline_kind hnewer
        obtain ⟨b, hb, hle⟩ := (hreads source).newest.newest plan.baseline hfetched hof.baseline_kind
        have hlt := hnewer b (hclear b hb)
        omega
      · push Not at hnewer
        obtain ⟨b, hb, hle⟩ := hnewer
        obtain ⟨hmem, hkind⟩ := h.adopted source b hb
        have hge := hof.baseline_newest b hmem hkind
        rw [eq_of_baselines hof.baseline_kind hkind (Nat.le_antisymm hle hge)]
        exact hb
    refine ⟨hadopted, fun a ha hkind => ?_, fun b' hb' a ha hkind hlt => ?_⟩
    · rcases mem_select.mp ha with ⟨_, rfl⟩ | ⟨hdelta, _⟩
      · exact hadopted
      · simp [((hof.mem_deltas a).mp hdelta).2.1] at hkind
    · rw [hadopted, Option.some.injEq] at hb'
      subst hb'
      exact (hof.mem_deltas a).mpr ⟨ha, hkind, hlt⟩
  | _ => trivial

theorem OrdinarySound.seen {a : HostAction} (hsound : s.OrdinarySound a) : s.BoundarySeen a := by
  cases a with
  | updateIngest filter =>
    intro u source hingest b hb hkind hnewer
    obtain ⟨plan, hplan⟩ := planFromPaths_isSome hb hkind
    have hlt := hnewer plan.baseline (hsound u source plan hingest hplan).1
    have hle := (planFromPaths_cases hplan).baseline_newest b hb hkind
    omega
  | _ => trivial

/-- Ordinary updates stay behind the baseline boundary if and only if each of
them lists no newer baseline than the adopted one that was not in the cursor it
read. -/
theorem ordinary_update_sound_iff (actions : List HostAction) :
    RunMeets step OrdinarySound start actions ↔ RunMeets step BoundarySeen start actions := by
  constructor
  · exact RunMeets.mono (fun s a h _ => step_kept s a h) (fun _ _ _ hsound => hsound.seen) cursorsKept_start
  · exact RunMeets.mono (fun s a h _ => step_kept s a h) (fun _ _ h hseen => h.sound hseen) cursorsKept_start

instance (s : ProducerHost) : (a : HostAction) → Decidable (s.BoundarySeen a)
  | .updateIngest _ => decidable_of_iff
    (∀ entry ∈ s.ordinaryIngest, ∀ b ∈ s.mirror entry.2, b.kind = .baseline →
      (∀ adopted ∈ s.adopted entry.2, adopted.timestamp < b.timestamp) → b ∈ (entry.1.read entry.2).fetched)
    ⟨fun h u source hingest => h (u, source) hingest, fun h entry hentry => h entry.1 entry.2 hentry⟩
  | .fetchStart _ _ _ | .fetchNext _ _ | .fetchSave _ | .fetchCrash _ | .updateStart _ _ | .updateCheck
  | .updatePublish | .updateStop => isTrue trivial

def january : Archive := ⟨.baseline, 20250101000000⟩

def march : Archive := ⟨.delta, 20250301000000⟩

def april : Archive := ⟨.baseline, 20250401000000⟩

def adoptJanuary : List HostAction :=
  [.fetchStart 0 .legi [january], .fetchNext 0 .accepted, .fetchSave 0, .updateStart .auto [.legi], .updateCheck,
    .updateCheck, .updateIngest ⟨false, none⟩, .updatePublish]

def ingestMarch : List HostAction :=
  adoptJanuary ++ [.fetchStart 1 .legi [january, march], .fetchNext 1 .accepted, .fetchSave 1,
    .updateStart .auto [.legi], .updateCheck, .updateCheck, .updateIngest ⟨true, some january.timestamp⟩]

example : RunMeets step BoundarySeen start ingestMarch := by decide

/-- The fetch run has renamed a new baseline into the mirror and has not saved
its cursor. -/
def unsavedApril : List HostAction :=
  adoptJanuary ++ [.fetchStart 1 .legi [january, march, april], .fetchNext 1 .accepted, .fetchNext 1 .accepted,
    .updateStart .auto [.legi], .updateCheck, .updateCheck]

/-- The update plans from the new baseline and drops the delta of March. -/
theorem unsaved_baseline_is_planned :
    ¬ RunMeets step OrdinarySound start (unsavedApril ++ [.updateIngest ⟨true, some january.timestamp⟩]) := by
  intro hrun
  obtain ⟨_, hsound, _⟩ := RunMeets.append_iff.mp hrun
  have hplan : (planFromPaths ((runFrom step start unsavedApril).mirror .legi)).map
      (fun plan => (plan.baseline, plan.deltas)) = some (april, []) := by decide
  have hadopted : (runFrom step start unsavedApril).adopted .legi = some january := by decide
  have hsource : (runFrom step start unsavedApril).ordinaryIngest.map Prod.snd = some .legi := by decide
  obtain ⟨⟨u, source⟩, hingest, hlegi⟩ := Option.map_eq_some_iff.mp hsource
  obtain ⟨plan, hplan, hentry⟩ := Option.map_eq_some_iff.mp hplan
  dsimp only at hlegi
  subst hlegi
  have hbaseline := (hsound u .legi plan hingest hplan).1
  rw [hadopted, (Prod.mk.inj hentry).1] at hbaseline
  exact absurd hbaseline (by decide)

end ProducerHost

end CorpusFeed
