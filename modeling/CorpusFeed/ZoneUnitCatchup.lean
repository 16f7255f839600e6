import CorpusFeed.ZoneUnitRun

/-! What a whole pass does. An unlimited one reaches every decision that is stale
or, on a rebuild, eligible, and after it the next pass has nothing left to write. -/

namespace CorpusFeed

open ZoneSetup ZoneSystem

variable {setup : ZoneSetup} {sha256 : Text → Text} {s s' : ZoneSystem} {pass : ZonePass} {row : DecisionZonesRow}
  {a : ZoneAction} {actions : List ZoneAction}

theorem stale_iff {store : ZoneStore} {builderVersion : Text} : stale store builderVersion row = true ↔
    (∀ unit ∈ store.units, unit.documentId ≠ row.documentId) ∨ ∃ unit ∈ store.units, unit.documentId = row.documentId ∧
      ((∃ textHash ∈ row.textHash, unit.textHash ≠ textHash) ∨ unit.builderVersion ≠ builderVersion) := by
  simp only [stale, Bool.or_eq_true, List.isEmpty_iff, List.filter_eq_nil_iff, decide_eq_true_eq, List.any_eq_true,
    List.mem_filter, Option.any_eq_true, bne_iff_ne, Table.mem_rows]
  simp only [and_assoc, Option.mem_def]

/-- The units of a decision are the same in both stores. -/
def SameUnits (documentId : Text) (store store' : ZoneStore) : Prop :=
  ∀ unit, unit.documentId = documentId → (unit ∈ store'.units ↔ unit ∈ store.units)

theorem SameUnits.stale_eq {store store' : ZoneStore} {builderVersion : Text}
    (h : SameUnits row.documentId store store') : stale store' builderVersion row = stale store builderVersion row := by
  rw [Bool.eq_iff_iff, stale_iff, stale_iff]
  have hall : (∀ unit ∈ store'.units, unit.documentId ≠ row.documentId) ↔
      ∀ unit ∈ store.units, unit.documentId ≠ row.documentId :=
    ⟨fun hne unit hunit hid => hne unit ((h unit hid).mpr hunit) hid,
      fun hne unit hunit hid => hne unit ((h unit hid).mp hunit) hid⟩
  have hsome : ∀ P : ZoneUnitRow → Prop, (∃ unit ∈ store'.units, unit.documentId = row.documentId ∧ P unit) ↔
      ∃ unit ∈ store.units, unit.documentId = row.documentId ∧ P unit := fun P =>
    ⟨fun ⟨unit, hunit, hid, hp⟩ => ⟨unit, (h unit hid).mp hunit, hid, hp⟩,
      fun ⟨unit, hunit, hid, hp⟩ => ⟨unit, (h unit hid).mpr hunit, hid, hp⟩⟩
  rw [hall, hsome]

theorem SameUnits.current {store store' : ZoneStore} (h : SameUnits row.documentId store store')
    (hcurrent : UnitsCurrent setup store row) : UnitsCurrent setup store' row := by
  intro unit
  rw [← hcurrent unit]
  exact and_congr_left fun hid => h unit hid

theorem Coherent.current (h : Coherent setup sha256 s) (hsha : Function.Injective sha256) (hr : row ∈ s.store.zones)
    (hok : row.status = statusOk) (hhash : row.textHash.isSome = true)
    (hfresh : stale s.store zoneUnitBuilderVersion row = false) : UnitsCurrent setup s.store row := by
  obtain ⟨textHash, htext⟩ := Option.isSome_iff_exists.mp hhash
  rw [Bool.eq_false_iff, ne_eq, stale_iff] at hfresh
  push Not at hfresh
  obtain ⟨⟨unit, hunit, hid⟩, hsame⟩ := hfresh
  have hequal : unit.textHash = textHash := (hsame unit hunit hid).1 textHash htext
  obtain ⟨zones, hzones, hwhole⟩ := h.whole unit hunit
  have heq : zones = row.zonesJson :=
    ZoneHash.zones_eq hsha (hequal ▸ hzones) (h.hashed row hr hok textHash htext).2
  intro other
  have hshape : (setup.candidate row).units =
      deriveZoneUnitRows unit.documentId (setup.sourceOf unit.documentId) unit.textHash zones := by
    rw [hid, hequal, heq]
    simp [ZoneCandidate.units, candidate, htext, sourceOf]
  rw [hshape, ← hwhole other, hid]

theorem Coherent.not_stale (h : Coherent setup sha256 s) (hr : row ∈ s.store.zones) (hok : row.status = statusOk)
    (hhash : row.textHash.isSome = true) (hcurrent : UnitsCurrent setup s.store row) :
    stale s.store zoneUnitBuilderVersion row = false := by
  obtain ⟨textHash, htext⟩ := Option.isSome_iff_exists.mp hhash
  rw [Bool.eq_false_iff, ne_eq, stale_iff]
  rintro (hnone | ⟨unit, hunit, hid, hdiffers⟩)
  · have hne : (setup.candidate row).units ≠ [] := derive_ne_nil.mpr (h.hashed row hr hok textHash htext).1
    obtain ⟨unit, hunit⟩ := List.exists_mem_of_ne_nil _ hne
    have hmem := (hcurrent unit).mpr hunit
    exact hnone unit hmem.1 hmem.2
  · obtain ⟨_, hequal, hversion⟩ := mem_candidate_units ((hcurrent unit).mp ⟨hunit, hid⟩)
    rcases hdiffers with ⟨textHash', htext', hne⟩ | hne
    · rw [htext'] at hequal
      exact hne hequal
    · exact hne hversion

/-- A step that stores no new row for a decision leaves its row, and its units
unless it derives them. -/
structure Framed (setup : ZoneSetup) (row : DecisionZonesRow) (visited : Option Text) (store store' : ZoneStore) :
    Prop where
  zones : row ∈ store'.zones ↔ row ∈ store.zones
  units : visited ≠ some row.documentId → SameUnits row.documentId store store'
  derived : visited = some row.documentId → row ∈ store.zones → UnitsCurrent setup store' row

theorem Framed.of_same {store store' : ZoneStore} (hzones : row ∈ store'.zones ↔ row ∈ store.zones)
    (hunits : SameUnits row.documentId store store') : Framed setup row none store store' :=
  ⟨hzones, fun _ => hunits, fun h => by cases h⟩

theorem Framed.rfl {store : ZoneStore} : Framed setup row none store store :=
  Framed.of_same Iff.rfl fun _ _ => Iff.rfl

theorem step_frame (h : Coherent setup sha256 s) (ha : a.upserts ≠ some row.documentId) :
    Framed setup row (s.visit a) s.store (s.step setup a).store := by
  cases a with
  | upsert upsert emit =>
    have hne : row.documentId ≠ upsert.documentId := fun heq => ha (congrArg some heq.symm)
    simp only [step, visit]
    split
    next store' hupsert =>
      have hupserted := upsertDecisionZones_cases hupsert
      refine Framed.of_same ?_ fun unit hid => ?_
      · simp only [hupserted.zones, Table.mem_upsert]
        constructor
        · rintro (heq | ⟨hr, _⟩)
          · exact absurd (congrArg DecisionZonesRow.documentId heq) hne
          · exact hr
        · exact fun hr => Or.inr ⟨hr, hne⟩
      · rw [hupserted.units]
        exact and_iff_left fun _ => hid ▸ hne
    next => exact Framed.rfl
  | elapse seconds => exact Framed.of_same Iff.rfl fun _ _ => Iff.rfl
  | beginPass rebuild limit =>
    simp only [step, visit]
    split <;> exact Framed.rfl
  | passStep =>
    simp only [step, visit]
    cases hpass : s.pass with
    | none =>
      rw [passStep_idle hpass]
      exact Framed.rfl
    | some pass =>
      cases hpending : pass.pending with
      | nil =>
        rw [(@passStep_loads setup s pass hpass hpending).1]
        simpa [hpending] using Framed.rfl
      | cons candidate rest =>
        obtain ⟨⟨derived, hderived, _, _, rfl⟩, hreplaced, _⟩ := passStep_derives h hpass hpending
        have hvisit : (some pass).bind (fun pass => pass.pending.head?.map ZoneCandidate.documentId) =
            some derived.documentId := by
          simp [hpending, ZoneSetup.candidate]
        rw [hvisit]
        refine ⟨by rw [hreplaced.zones], fun hne unit hsame => ?_, fun heq hr unit => ?_⟩
        · have hid : derived.documentId ≠ row.documentId := fun heq => hne (congrArg some heq)
          rw [hreplaced.units]
          constructor
          · rintro (hunit | ⟨hunit, _⟩)
            · exact absurd ((mem_candidate_units hunit).1.symm.trans hsame) hid
            · exact hunit
          · exact fun hunit => Or.inr ⟨hunit, fun heq => hid (heq.symm.trans hsame)⟩
        · obtain rfl := Table.eq_of_key_eq hderived hr (Option.some.inj heq)
          rw [hreplaced.units]
          constructor
          · rintro ⟨hunit | ⟨_, hne⟩, hsame⟩
            · exact hunit
            · exact absurd hsame hne
          · exact fun hunit => ⟨Or.inl hunit, (mem_candidate_units hunit).1⟩

theorem step_now (h : Coherent setup sha256 s) : s.store.now ≤ (s.step setup a).store.now := by
  cases a with
  | upsert row emit =>
    simp only [step]
    split
    next store' hupsert => exact (upsertDecisionZones_cases hupsert).now.ge
    next => exact le_refl _
  | elapse seconds =>
    simp only [step]
    omega
  | beginPass rebuild limit =>
    simp only [step]
    split <;> exact le_refl _
  | passStep =>
    simp only [step]
    cases hpass : s.pass with
    | none => rw [passStep_idle hpass]
    | some pass =>
      cases hpending : pass.pending with
      | nil => rw [(@passStep_loads setup s pass hpass hpending).1]
      | cons candidate rest => exact (passStep_derives h hpass hpending).2.replaced.now.ge

theorem eligible_earlier {store store' : ZoneStore} (hnow : store.now ≤ store'.now)
    (h : setup.eligible store' row = true) : setup.eligible store row = true := by
  simp only [eligible, Bool.and_eq_true, Option.all_eq_true, decide_eq_true_eq] at h ⊢
  refine ⟨⟨h.1.1, fun expiry hexpiry => ?_⟩, h.2⟩
  have hlt := h.1.2 expiry hexpiry
  omega

theorem not_upserted {documentId : Text} (h : documentId ∉ upserted (a :: actions)) :
    a.upserts ≠ some documentId ∧ documentId ∉ upserted actions := by
  simp only [upserted, List.mem_filterMap, List.mem_cons] at h
  push Not at h
  refine ⟨h a (Or.inl rfl), ?_⟩
  simp only [upserted, List.mem_filterMap]
  push Not
  exact fun b hb => h b (Or.inr hb)

/-- A row that no action stores anew is the same after a run, and not expired
before if it is not expired after. -/
theorem run_frame (h : Coherent setup sha256 s) (hrun : WriterRun setup sha256 s actions)
    (hrow : row.documentId ∉ upserted actions) :
    (row ∈ (runFrom (step setup) s actions).store.zones ↔ row ∈ s.store.zones) ∧
      s.store.now ≤ (runFrom (step setup) s actions).store.now := by
  induction actions generalizing s with
  | nil => exact ⟨Iff.rfl, le_refl _⟩
  | cons a actions ih =>
    obtain ⟨ha, hrest⟩ := not_upserted hrow
    obtain ⟨hzones, hnow⟩ := ih (step_coherent h hrun.1) hrun.2 hrest
    exact ⟨hzones.trans (step_frame h ha).zones, (step_now h).trans hnow⟩

theorem run_current (h : Coherent setup sha256 s) (hrun : WriterRun setup sha256 s actions)
    (hrow : row.documentId ∉ upserted actions) (hr : row ∈ s.store.zones) (hcurrent : UnitsCurrent setup s.store row) :
    UnitsCurrent setup (runFrom (step setup) s actions).store row := by
  induction actions generalizing s with
  | nil => exact hcurrent
  | cons a actions ih =>
    obtain ⟨ha, hrest⟩ := not_upserted hrow
    have hframe := @step_frame setup sha256 s row a h ha
    refine ih (step_coherent h hrun.1) hrun.2 hrest (hframe.zones.mpr hr) ?_
    by_cases hvisit : s.visit a = some row.documentId
    · exact hframe.derived hvisit hr
    · exact (hframe.units hvisit).current hcurrent

/-- A decision that an unlimited pass has still to come to is derived by a step,
or stays ahead of it, or is found fresh when the last page is empty. -/
theorem passStep_ahead (h : Coherent setup sha256 s) (hpass : s.pass = some pass) (hlimit : pass.limit = none)
    (hr : row ∈ s.store.zones) (hahead : Ahead setup pass row.documentId)
    (heligible : setup.eligible s.store row = true) : s.visit .passStep = some row.documentId ∨
      (∃ next, (s.passStep setup).pass = some next ∧ next.rebuild = pass.rebuild ∧ next.limit = none ∧
        Ahead setup next row.documentId) ∨
      pass.rebuild = false ∧ stale s.store zoneUnitBuilderVersion row = false := by
  cases hpending : pass.pending with
  | cons candidate rest =>
    obtain ⟨_, _, next, hnext, hrebuild, hnone, hcursor, _, hrest⟩ := passStep_derives h hpass hpending
    rcases hahead with hmem | hafter
    · rw [hpending, List.map_cons, List.mem_cons] at hmem
      rcases hmem with heq | hmem
      · exact Or.inl (by simp [visit, hpass, hpending, heq])
      · refine Or.inr (Or.inl ⟨next, hnext, hrebuild, hnone.trans hlimit, Or.inl ?_⟩)
        rw [hrest hlimit]
        exact hmem
    · exact Or.inr (Or.inl ⟨next, hnext, hrebuild, hnone.trans hlimit, Or.inr (hcursor ▸ hafter)⟩)
  | nil =>
    have hafter : ∀ key ∈ pass.cursor, setup.collation.lt key row.documentId = true := by
      rcases hahead with hmem | hafter
      · simp [hpending] at hmem
      · exact hafter
    by_cases hwanted : pass.rebuild = true ∨ stale s.store zoneUnitBuilderVersion row = true
    · have hselected : setup.selected s.store zoneUnitBuilderVersion pass.rebuild pass.cursor row = true := by
        simp only [selected, Bool.and_eq_true, Bool.or_eq_true, Option.all_eq_true]
        exact ⟨⟨heligible, hwanted⟩, hafter⟩
      cases (@passStep_loads setup s pass hpass hpending).2 with
      | finished _ _ hempty =>
        rw [hempty hlimit row hr] at hselected
        cases hselected
      | page limit last hlast hpage =>
        refine Or.inr (Or.inl ⟨_, hpage, rfl, hlimit, ?_⟩)
        rcases @load_covers setup s.store zoneUnitBuilderVersion pass.rebuild pass.cursor limit row hr hselected with
          ⟨candidate, hc, hid⟩ | ⟨last', hlast', hlt⟩
        · exact Or.inl (hid ▸ List.mem_map_of_mem hc)
        · obtain rfl : last = last' := Option.some.inj (hlast.symm.trans hlast')
          refine Or.inr fun key hkey => ?_
          obtain rfl : last.documentId = key := Option.some.inj hkey
          exact hlt
    · simp only [not_or, Bool.not_eq_true] at hwanted
      exact Or.inr (Or.inr hwanted)

theorem pass_reaches (hsha : Function.Injective sha256) (h : Coherent setup sha256 s)
    (hrun : WriterRun setup sha256 s actions) (hbegin : ∀ a ∈ actions, a.isBegin = false)
    (hpass : s.pass = some pass) (hlimit : pass.limit = none) (hrow : row.documentId ∉ upserted actions)
    (hr : row ∈ s.store.zones) (hahead : Ahead setup pass row.documentId)
    (heligible : setup.eligible (runFrom (step setup) s actions).store row = true)
    (hend : (runFrom (step setup) s actions).pass = none) :
    UnitsCurrent setup (runFrom (step setup) s actions).store row ∧
      (pass.rebuild = true ∨ stale s.store zoneUnitBuilderVersion row = true →
        row.documentId ∈ visits setup s actions) := by
  induction actions generalizing s pass with
  | nil =>
    rw [runFrom_nil, hpass] at hend
    cases hend
  | cons a actions ih =>
    obtain ⟨ha, hrest⟩ := not_upserted hrow
    have hcoherent := step_coherent h hrun.1
    have hnow := eligible_earlier (run_frame h hrun hrow).2 heligible
    have hframe := @step_frame setup sha256 s row a h ha
    have hlater : UnitsCurrent setup (s.step setup a).store row → UnitsCurrent setup (runFrom (step setup) s (a :: actions)).store row :=
      run_current hcoherent hrun.2 hrest (hframe.zones.mpr hr)
    by_cases hvisit : s.visit a = some row.documentId
    · refine ⟨hlater (hframe.derived hvisit hr), fun _ => List.mem_append_left _ ?_⟩
      rw [hvisit]
      exact List.mem_singleton_self _
    have hsame := hframe.units hvisit
    have hnext : (∃ next, (s.step setup a).pass = some next ∧ next.rebuild = pass.rebuild ∧ next.limit = none ∧
        Ahead setup next row.documentId) ∨ pass.rebuild = false ∧ stale s.store zoneUnitBuilderVersion row = false := by
      by_cases hstep : a.isPassStep = true
      · obtain rfl : a = .passStep := by cases a <;> simp_all [ZoneAction.isPassStep]
        exact (passStep_ahead h hpass hlimit hr hahead hnow).resolve_left hvisit
      · have hkept := @step_pass setup s a (by simpa using hstep) (hbegin a List.mem_cons_self)
        exact Or.inl ⟨pass, hkept.trans hpass, rfl, hlimit, hahead⟩
    rcases hnext with ⟨next, hnext, hrebuild, hnone, hahead'⟩ | ⟨hrebuild, hfresh⟩
    · obtain ⟨hcurrent, hvisits⟩ := ih hcoherent hrun.2 (fun b hb => hbegin b (List.mem_cons_of_mem a hb)) hnext hnone
        hrest (hframe.zones.mpr hr) hahead' heligible hend
      refine ⟨hcurrent, fun hwanted => List.mem_append_right _ (hvisits ?_)⟩
      rw [hrebuild, hsame.stale_eq]
      exact hwanted
    · obtain ⟨hok, hhash⟩ := eligible_ok hnow
      refine ⟨hlater (hsame.current (h.current hsha hr hok hhash hfresh)), ?_⟩
      rintro (hwanted | hwanted)
      · rw [hrebuild] at hwanted
        cases hwanted
      · rw [hfresh] at hwanted
        cases hwanted

/-- No decision outside the set has anything for a pass to write. -/
structure UnitsSettled (setup : ZoneSetup) (upsertedIds : List Text) (s : ZoneSystem) : Prop where
  fresh : ∀ row ∈ s.store.zones, row.documentId ∉ upsertedIds → setup.eligible s.store row = true →
    stale s.store zoneUnitBuilderVersion row = false
  pending : ∀ pass ∈ s.pass, pass.rebuild = false ∧ ∀ candidate ∈ pass.pending, candidate.documentId ∈ upsertedIds

theorem step_settled {upsertedIds : List Text} (h : Coherent setup sha256 s) (hsettled : UnitsSettled setup upsertedIds s)
    (hbegin : a.isBegin = false) (ha : ∀ id, a.upserts = some id → id ∈ upsertedIds) :
    UnitsSettled setup upsertedIds (s.step setup a) ∧ ∀ id, s.visit a = some id → id ∈ upsertedIds := by
  have hvisits : ∀ id, s.visit a = some id → id ∈ upsertedIds := by
    intro id hid
    cases a with
    | passStep =>
      simp only [visit, Option.bind_eq_some_iff, Option.map_eq_some_iff] at hid
      obtain ⟨pass, hpass, candidate, hc, rfl⟩ := hid
      exact (hsettled.pending pass hpass).2 candidate (List.mem_of_head? hc)
    | _ => simp [visit] at hid
  refine ⟨⟨fun row hr hnot heligible => ?_, ?_⟩, hvisits⟩
  · have hframe := @step_frame setup sha256 s row a h fun heq => hnot (ha _ heq)
    rw [(hframe.units fun hvisit => hnot (hvisits _ hvisit)).stale_eq]
    exact hsettled.fresh row (hframe.zones.mp hr) hnot (eligible_earlier (step_now h) heligible)
  · by_cases hstep : a.isPassStep = true
    · obtain rfl : a = .passStep := by cases a <;> simp_all [ZoneAction.isPassStep]
      simp only [step]
      cases hpass : s.pass with
      | none =>
        rw [passStep_idle hpass]
        exact hsettled.pending
      | some pass =>
        obtain ⟨hrebuild, hcandidates⟩ := hsettled.pending pass hpass
        cases hpending : pass.pending with
        | cons candidate rest =>
          obtain ⟨_, _, next, hnext, hsame, _, _, hsuffix, _⟩ := passStep_derives h hpass hpending
          rw [hnext]
          rintro _ ⟨⟩
          refine ⟨hsame.trans hrebuild, fun c hc => hcandidates c ?_⟩
          rw [hpending]
          exact List.mem_cons_of_mem _ (hsuffix.subset hc)
        | nil =>
          cases (@passStep_loads setup s pass hpass hpending).2 with
          | finished hnone =>
            rw [hnone]
            simp
          | page limit last hlast hpage =>
            rw [hpage]
            rintro _ ⟨⟩
            refine ⟨hrebuild, fun candidate hc => ?_⟩
            obtain ⟨row, hr, hselected, rfl⟩ := mem_load hc
            by_contra hnot
            have hfresh := hsettled.fresh row hr hnot (selected_eligible hselected)
            simp [selected, hrebuild, hfresh] at hselected
    · rw [@step_pass setup s a (by simpa using hstep) hbegin]
      exact hsettled.pending

theorem settled_visits {upsertedIds : List Text} (h : Coherent setup sha256 s) (hsettled : UnitsSettled setup upsertedIds s)
    (hrun : WriterRun setup sha256 s actions) (hbegin : ∀ a ∈ actions, a.isBegin = false)
    (hsubset : upserted actions ⊆ upsertedIds) : ∀ id ∈ visits setup s actions, id ∈ upsertedIds := by
  induction actions generalizing s with
  | nil => simp [visits]
  | cons a actions ih =>
    have hupserts : ∀ id, a.upserts = some id → id ∈ upsertedIds := fun id hid =>
      hsubset (List.mem_filterMap.mpr ⟨a, List.mem_cons_self, hid⟩)
    obtain ⟨hnext, hvisit⟩ := step_settled h hsettled (hbegin a List.mem_cons_self) hupserts
    have hrest : upserted actions ⊆ upsertedIds := fun id hid => by
      obtain ⟨b, hb, hid⟩ := List.mem_filterMap.mp hid
      exact hsubset (List.mem_filterMap.mpr ⟨b, List.mem_cons_of_mem a hb, hid⟩)
    intro id hid
    rcases List.mem_append.mp hid with hid | hid
    · exact hvisit id (by simpa using hid)
    · exact ih (step_coherent h hrun.1) hnext hrun.2 (fun b hb => hbegin b (List.mem_cons_of_mem a hb)) hrest id hid

/-- Without an upsert or a visit nothing is written, not even to the outbox. -/
theorem unvisited_store (hupserts : upserted actions = []) (hvisits : visits setup s actions = []) :
    (runFrom (step setup) s actions).store = { s.store with now := (runFrom (step setup) s actions).store.now } := by
  induction actions generalizing s with
  | nil => rfl
  | cons a actions ih =>
    obtain ⟨hvisit, hvisits⟩ := List.append_eq_nil_iff.mp hvisits
    have hrest : upserted actions = [] ∧ a.upserts = none := by
      cases ha : a.upserts with
      | none =>
        rw [upserted, List.filterMap_cons_none ha] at hupserts
        exact ⟨hupserts, rfl⟩
      | some id =>
        rw [upserted, List.filterMap_cons_some ha] at hupserts
        cases hupserts
    have hstore : (s.step setup a).store = { s.store with now := (s.step setup a).store.now } := by
      cases a with
      | upsert row emit => simp [ZoneAction.upserts] at hrest
      | elapse seconds => rfl
      | beginPass rebuild limit =>
        simp only [step]
        split <;> rfl
      | passStep =>
        simp only [step]
        cases hpass : s.pass with
        | none => rw [passStep_idle hpass]
        | some pass =>
          cases hpending : pass.pending with
          | nil => rw [(@passStep_loads setup s pass hpass hpending).1]
          | cons candidate rest => simp [visit, hpass, hpending] at hvisit
    rw [runFrom_cons, ih hrest.1 hvisits, hstore]

theorem pass_outcome (h : Coherent setup sha256 s) (hrun : WriterRun setup sha256 s actions)
    (hbegin : ∀ a ∈ actions, a.isBegin = false) (hidle : s.pass = none → s.outcome.isSome = true)
    (hend : (runFrom (step setup) s actions).pass = none) :
    (runFrom (step setup) s actions).outcome.isSome = true := by
  induction actions generalizing s with
  | nil => exact hidle hend
  | cons a actions ih =>
    refine ih (step_coherent h hrun.1) hrun.2 (fun b hb => hbegin b (List.mem_cons_of_mem a hb)) ?_ hend
    cases a with
    | upsert row emit =>
      simp only [step]
      split <;> exact hidle
    | elapse seconds => exact hidle
    | beginPass rebuild limit => simp [ZoneAction.isBegin] at hbegin
    | passStep =>
      simp only [step]
      intro hnone
      cases hpass : s.pass with
      | none =>
        rw [passStep_idle hpass]
        exact hidle hpass
      | some pass =>
        cases hpending : pass.pending with
        | cons candidate rest =>
          obtain ⟨_, _, next, hnext, _⟩ := passStep_derives h hpass hpending
          rw [hnone] at hnext
          cases hnext
        | nil =>
          cases (@passStep_loads setup s pass hpass hpending).2 with
          | finished _ houtcome => exact houtcome
          | page limit last hlast hpage =>
            rw [hnone] at hpage
            cases hpage

end CorpusFeed
