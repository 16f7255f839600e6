import CorpusFeed.ZoneUnitKeyset

/-! Runs of the zone subsystem. What an enrichment writer stores ties the hash of
a row to its zones, so the units of a decision are always whole, and an unlimited
pass leaves every decision with the units of its row. -/

namespace CorpusFeed

open ZoneSetup ZoneSystem

/-- A hash that was taken of the zones, in some snapshot. -/
def ZoneHash (sha256 : Text → Text) (textHash : Text) (zones : Json) : Prop :=
  ∃ decision providerId, nul ∉ providerId ∧ nul ∉ ((decision.index "update_date".toList).asStr).getD [] ∧
    textHash = zoneTextHash sha256 decision zones providerId

theorem ZoneHash.zones_eq {sha256 : Text → Text} (hsha : Function.Injective sha256) {textHash : Text} {zones zones' : Json}
    (h : ZoneHash sha256 textHash zones) (h' : ZoneHash sha256 textHash zones') : zones = zones' := by
  obtain ⟨decision, providerId, hp, hu, rfl⟩ := h
  obtain ⟨decision', providerId', hp', hu', heq⟩ := h'
  exact zoneTextHash_zones hsha hp hp' hu hu' heq

/-- An `ok` row with a hash has a unit to derive, and the hash of its own snapshot. -/
def WriterRow (sha256 : Text → Text) (row : UpsertDecisionZones) : Prop :=
  row.status = statusOk → ∀ textHash ∈ row.textHash, hasFragmentText row.zonesJson = true ∧
    ∃ decision : Json, row.upstreamUpdateDate = (decision.index "update_date".toList).asStr ∧
      textHash = zoneTextHash sha256 decision row.zonesJson (row.providerDecisionId.getD [])

section Writers

variable (sha256 : Text → Text) (documentId sourceUid : Text) (ecli : Option Text)

/-- The row of a decision that the provider answered for. -/
def enrichedRow (decision : Json) (providerId : Text) (ttlDays : Int) : UpsertDecisionZones :=
  let (zonesJson, validZones) := normalizeJudilibreZones decision
  ⟨documentId, "judilibre".toList, some providerId, sourceUid, ecli,
    if validZones then statusOk else "invalid_offsets".toList, (decision.index "update_date".toList).asStr,
    (decision.index "decision_date".toList).asStr, some (zoneTextHash sha256 decision zonesJson providerId),
    some "char".toList, zonesJson, decision, none, some (max ttlDays 0 * 86400)⟩

/-- The row of a negative or a failed answer. -/
def cacheZoneStatus (decisionDate : Option Text) (status : Text) (error : Option Text) (errorTtl negativeTtlDays : Int) :
    UpsertDecisionZones :=
  ⟨documentId, "judilibre".toList, none, sourceUid, ecli, status, none, decisionDate, none, none, .object [], .object [],
    error, some (if status = "upstream_error".toList then max errorTtl 0 else max negativeTtlDays 0 * 86400)⟩

variable {sha256 documentId sourceUid ecli}

theorem enrichedRow_writer {decision : Json} {providerId : Text} {ttlDays : Int} :
    WriterRow sha256 (enrichedRow sha256 documentId sourceUid ecli decision providerId ttlDays) := by
  intro hok textHash hhash
  obtain rfl : zoneTextHash sha256 decision (normalizeJudilibreZones decision).1 providerId = textHash :=
    Option.some.inj hhash
  refine ⟨normalize_hasFragmentText ?_, decision, rfl, rfl⟩
  by_contra hvalid
  simp only [enrichedRow, hvalid, if_false] at hok
  exact absurd hok (by decide)

theorem cacheZoneStatus_writer {decisionDate error : Option Text} {status : Text} {errorTtl negativeTtlDays : Int} :
    WriterRow sha256 (cacheZoneStatus documentId sourceUid ecli decisionDate status error errorTtl negativeTtlDays) := by
  intro _ textHash hhash
  have hnone : (cacheZoneStatus documentId sourceUid ecli decisionDate status error errorTtl negativeTtlDays).textHash =
      none := rfl
  simp [hnone] at hhash

end Writers

def ZoneAction.upserts : ZoneAction → Option Text
  | .upsert row _ => some row.documentId
  | _ => none

def upserted (actions : List ZoneAction) : List Text := actions.filterMap ZoneAction.upserts

/-- A writer's upsert, of a decision that no pass has loaded and not derived yet. -/
def WriterAction (sha256 : Text → Text) (s : ZoneSystem) : ZoneAction → Prop
  | .upsert row _ => WriterRow sha256 row ∧
      ∀ pass ∈ s.pass, row.documentId ∉ pass.pending.map ZoneCandidate.documentId
  | _ => True

abbrev WriterRun (setup : ZoneSetup) (sha256 : Text → Text) : ZoneSystem → List ZoneAction → Prop :=
  RunMeets (step setup) (WriterAction sha256)

def ZoneSetup.sourceOf (setup : ZoneSetup) (documentId : Text) : Text :=
  ((setup.documents.find? documentId).map ZonedDocument.source).getD []

def ZoneCandidate.units (candidate : ZoneCandidate) : List ZoneUnitRow :=
  deriveZoneUnitRows candidate.documentId candidate.source candidate.textHash candidate.zones

/-- The decision has exactly the units of its row. -/
def UnitsCurrent (setup : ZoneSetup) (store : ZoneStore) (row : DecisionZonesRow) : Prop :=
  ∀ unit, unit ∈ store.units ∧ unit.documentId = row.documentId ↔ unit ∈ (setup.candidate row).units

structure Coherent (setup : ZoneSetup) (sha256 : Text → Text) (s : ZoneSystem) : Prop where
  hashed : ∀ row ∈ s.store.zones, row.status = statusOk → ∀ textHash ∈ row.textHash,
    hasFragmentText row.zonesJson = true ∧ ZoneHash sha256 textHash row.zonesJson
  backed : ∀ unit ∈ s.store.units, ∃ row ∈ s.store.zones,
    row.documentId = unit.documentId ∧ row.status = statusOk ∧ row.textHash.isSome = true
  /-- The units of a decision are all those of one snapshot. -/
  whole : ∀ unit ∈ s.store.units, ∃ zones, ZoneHash sha256 unit.textHash zones ∧
    ∀ other, other ∈ s.store.units ∧ other.documentId = unit.documentId ↔
      other ∈ deriveZoneUnitRows unit.documentId (setup.sourceOf unit.documentId) unit.textHash zones
  pending : ∀ pass ∈ s.pass, ∀ candidate ∈ pass.pending, ∃ row ∈ s.store.zones, row.status = statusOk ∧
    row.textHash.isSome = true ∧ (setup.documents.find? row.documentId).isSome = true ∧ candidate = setup.candidate row

section Steps

variable {setup : ZoneSetup} {sha256 : Text → Text} {s : ZoneSystem} {pass : ZonePass} {row : DecisionZonesRow}
  {a : ZoneAction}

theorem eligible_ok (h : setup.eligible s.store row = true) : row.status = statusOk ∧ row.textHash.isSome = true := by
  simp only [eligible, Bool.and_eq_true, beq_iff_eq] at h
  exact h.1.1

/-- The effect of deriving the first pending candidate. -/
structure Derived (pass : ZonePass) (candidate : ZoneCandidate) (rest : List ZoneCandidate) (s s' : ZoneSystem) : Prop where
  replaced : Replaced candidate.documentId candidate.units s.store s'.store
  pass : ∃ next, s'.pass = some next ∧ next.rebuild = pass.rebuild ∧ next.limit = pass.limit ∧
    next.cursor = pass.cursor ∧ next.pending <:+ rest ∧ (pass.limit = none → next.pending = rest)

theorem passStep_derives {candidate : ZoneCandidate} {rest : List ZoneCandidate} (h : Coherent setup sha256 s)
    (hpass : s.pass = some pass) (hpending : pass.pending = candidate :: rest) :
    (∃ row ∈ s.store.zones, row.status = statusOk ∧ row.textHash.isSome = true ∧ candidate = setup.candidate row) ∧
      Derived pass candidate rest s (s.passStep setup) := by
  obtain ⟨row, hr, hok, hhash, hdocument, rfl⟩ := h.pending pass hpass candidate (hpending ▸ List.mem_cons_self)
  refine ⟨⟨row, hr, hok, hhash, rfl⟩, ?_⟩
  have hnamed : (setup.candidate row).documentId.isEmpty = false := by
    obtain ⟨document, hfind⟩ := Option.isSome_iff_exists.mp hdocument
    have hid : document.documentId = row.documentId := (Table.find?_eq_some.mp hfind).2
    have hne := document.named
    rw [hid] at hne
    simpa [candidate] using hne
  obtain ⟨store', hreplace, hreplaced⟩ := @replace_derived setup s.store row.documentId
    (setup.candidate row).source (setup.candidate row).textHash row.zonesJson hdocument
  have hstep : ∃ counted : ZonePass, counted.rebuild = pass.rebuild ∧ counted.limit = pass.limit ∧
      counted.cursor = pass.cursor ∧ s.passStep setup =
        ⟨store', some { counted with pending := if counted.limitReached then [] else rest }, s.outcome⟩ := by
    refine ⟨{ pass with
      decisions := pass.decisions + 1
      unitsWritten := pass.unitsWritten + (setup.candidate row).units.length }, rfl, rfl, rfl, ?_⟩
    simp only [passStep, hpass, hpending, deriveCandidate, hnamed, Bool.false_eq_true, if_false]
    rw [show (setup.candidate row).documentId = row.documentId from rfl,
      show (setup.candidate row).zones = row.zonesJson from rfl, hreplace]
    rfl
  obtain ⟨counted, hrebuild, hlimit, hcursor, hstep⟩ := hstep
  rw [hstep]
  refine ⟨hreplaced, _, rfl, hrebuild, hlimit, hcursor, ?_, ?_⟩
  · dsimp only
    split
    · exact List.nil_suffix
    · exact List.suffix_rfl
  · intro hnone
    have hreached : counted.limitReached = false := by
      simp [ZonePass.limitReached, hlimit, hnone]
    simp [hreached]

/-- The effect of asking for the next page. -/
inductive Loaded (setup : ZoneSetup) (pass : ZonePass) (s s' : ZoneSystem) : Prop where
  | finished (hpass : s'.pass = none) (houtcome : s'.outcome.isSome = true)
      (hempty : pass.limit = none → ∀ row ∈ s.store.zones,
        setup.selected s.store zoneUnitBuilderVersion pass.rebuild pass.cursor row = false)
  | page (limit : Nat) (last : ZoneCandidate)
      (hlast : (setup.loadDerivableDecisionZones s.store zoneUnitBuilderVersion pass.rebuild pass.cursor
        limit).getLast? = some last)
      (hpass : s'.pass = some { pass with
        cursor := some last.documentId
        pending := setup.loadDerivableDecisionZones s.store zoneUnitBuilderVersion pass.rebuild pass.cursor limit })

theorem passStep_loads (hpass : s.pass = some pass) (hpending : pass.pending = []) :
    (s.passStep setup).store = s.store ∧ Loaded setup pass s (s.passStep setup) := by
  have hstep : s.passStep setup = s.loadPage setup pass := by
    simp only [passStep, hpass, hpending]
  rw [hstep, loadPage]
  cases hlimit : pass.pageLimit with
  | none =>
    refine ⟨rfl, .finished rfl rfl fun hnone => ?_⟩
    simp [ZonePass.pageLimit, hnone] at hlimit
  | some limit =>
    dsimp only
    cases hlast : (setup.loadDerivableDecisionZones s.store zoneUnitBuilderVersion pass.rebuild pass.cursor limit).getLast? with
    | some last => exact ⟨rfl, .page limit last hlast rfl⟩
    | none =>
      refine ⟨rfl, .finished rfl rfl fun _ row hr => ?_⟩
      by_contra hselected
      rcases @load_covers setup s.store zoneUnitBuilderVersion pass.rebuild pass.cursor limit row hr
        (by simpa using hselected) with ⟨candidate, hc, _⟩ | ⟨last, hsome, _⟩
      · rw [List.getLast?_eq_none_iff.mp hlast] at hc
        exact List.not_mem_nil hc
      · rw [hlast] at hsome
        cases hsome

theorem passStep_idle (hpass : s.pass = none) : s.passStep setup = s := by
  simp [passStep, hpass]

theorem mem_candidate_units {unit : ZoneUnitRow} (h : unit ∈ (setup.candidate row).units) :
    unit.documentId = row.documentId ∧ unit.textHash = row.textHash.getD [] ∧
      unit.builderVersion = zoneUnitBuilderVersion := by
  obtain ⟨hid, hhash, hversion, _⟩ := mem_derive h
  exact ⟨hid, hhash, hversion⟩

theorem coherent_start : Coherent setup sha256 ZoneSystem.start :=
  ⟨fun _ hr => absurd hr (Table.not_mem_empty _), fun _ hu => absurd hu (Table.not_mem_empty _),
    fun _ hu => absurd hu (Table.not_mem_empty _), fun _ hp => absurd hp (by simp [ZoneSystem.start])⟩

theorem upsert_coherent {row : UpsertDecisionZones} {store' : ZoneStore} (h : Coherent setup sha256 s)
    (ha : WriterRow sha256 row) (hpending : ∀ pass ∈ s.pass, row.documentId ∉ pass.pending.map ZoneCandidate.documentId)
    (hupserted : Upserted setup row s.store store') : Coherent setup sha256 { s with store := store' } := by
  have hzones : ∀ r, r ∈ store'.zones ↔ r = row.stored s.store.now ∨ r ∈ s.store.zones ∧ r.documentId ≠ row.documentId := by
    intro r
    rw [hupserted.zones]
    exact Table.mem_upsert
  refine ⟨?_, ?_, ?_, ?_⟩
  · intro r hr hok textHash hhash
    rcases (hzones r).mp hr with rfl | ⟨hr, _⟩
    · obtain ⟨htext, decision, hupdate, rfl⟩ := ha hok textHash hhash
      refine ⟨htext, decision, row.providerDecisionId.getD [], ?_, ?_, rfl⟩
      · cases hp : row.providerDecisionId with
        | none => simp
        | some providerId => exact hupserted.noNul providerId (by simp [UpsertDecisionZones.texts, hp])
      · rw [← hupdate]
        cases hu : row.upstreamUpdateDate with
        | none => simp
        | some date => exact hupserted.noNul date (by simp [UpsertDecisionZones.texts, hu])
    · exact h.hashed r hr hok textHash hhash
  · intro unit hunit
    obtain ⟨hunit, hcleared⟩ := (hupserted.units unit).mp hunit
    obtain ⟨r, hr, hid, hok, hhash⟩ := h.backed unit hunit
    by_cases hdoc : unit.documentId = row.documentId
    · have hderivable : row.notDerivable = false := by
        by_contra hnot
        exact hcleared (by simpa using hnot) hdoc
      simp only [UpsertDecisionZones.notDerivable, Bool.or_eq_false_iff, decide_eq_false_iff_not, not_not,
        ne_eq] at hderivable
      refine ⟨row.stored s.store.now, (hzones _).mpr (Or.inl rfl), hdoc.symm, hderivable.1, ?_⟩
      simpa [UpsertDecisionZones.stored] using hderivable.2
    · exact ⟨r, (hzones r).mpr (Or.inr ⟨hr, hid ▸ hdoc⟩), hid, hok, hhash⟩
  · intro unit hunit
    obtain ⟨hunit, hcleared⟩ := (hupserted.units unit).mp hunit
    obtain ⟨zones, hhash, hwhole⟩ := h.whole unit hunit
    refine ⟨zones, hhash, fun other => ?_⟩
    rw [← hwhole other]
    constructor
    · rintro ⟨hother, hid⟩
      exact ⟨((hupserted.units other).mp hother).1, hid⟩
    · rintro ⟨hother, hid⟩
      exact ⟨(hupserted.units other).mpr ⟨hother, fun hnot => hid ▸ hcleared hnot⟩, hid⟩
  · intro pass hpass candidate hc
    obtain ⟨r, hr, hok, hhash, hdocument, rfl⟩ := h.pending pass hpass candidate hc
    have hne : r.documentId ≠ row.documentId := fun heq =>
      hpending pass hpass (heq ▸ List.mem_map_of_mem hc)
    exact ⟨r, (hzones r).mpr (Or.inr ⟨hr, hne⟩), hok, hhash, hdocument, rfl⟩

theorem replaced_coherent {store' : ZoneStore} {pass' : Option ZonePass} {outcome' : Option BuildZoneUnitsOutcome}
    (h : Coherent setup sha256 s) (hr : row ∈ s.store.zones) (hok : row.status = statusOk)
    (hhash : row.textHash.isSome = true) (hreplaced : Replaced row.documentId (setup.candidate row).units s.store store')
    (hpending : ∀ pass ∈ pass', ∃ before ∈ s.pass, pass.pending ⊆ before.pending) :
    Coherent setup sha256 ⟨store', pass', outcome'⟩ := by
  obtain ⟨textHash, htextHash⟩ := Option.isSome_iff_exists.mp hhash
  have hzones := (h.hashed row hr hok textHash htextHash).2
  refine ⟨?_, ?_, ?_, ?_⟩
  · simp only [hreplaced.zones]
    exact h.hashed
  · intro unit hunit
    simp only [hreplaced.zones]
    rcases (hreplaced.units unit).mp hunit with hunit | ⟨hunit, _⟩
    · exact ⟨row, hr, (mem_candidate_units hunit).1.symm, hok, hhash⟩
    · exact h.backed unit hunit
  · intro unit hunit
    rcases (hreplaced.units unit).mp hunit with hunit | ⟨hunit, hne⟩
    · obtain ⟨hid, htext, _⟩ := mem_derive hunit
      have heq : unit.textHash = textHash := by
        rw [htext]
        simp [candidate, htextHash]
      refine ⟨row.zonesJson, heq ▸ hzones, fun other => ?_⟩
      have hshape : (setup.candidate row).units =
          deriveZoneUnitRows unit.documentId (setup.sourceOf unit.documentId) unit.textHash row.zonesJson := by
        rw [hid, htext]
        rfl
      rw [← hshape]
      constructor
      · rintro ⟨hother, hsame⟩
        rcases (hreplaced.units other).mp hother with hother | ⟨_, hne⟩
        · exact hother
        · exact absurd (hsame.trans hid) hne
      · intro hother
        exact ⟨(hreplaced.units other).mpr (Or.inl hother), (mem_derive hother).1.trans hid.symm⟩
    · obtain ⟨zones, hhash, hwhole⟩ := h.whole unit hunit
      refine ⟨zones, hhash, fun other => ?_⟩
      rw [← hwhole other]
      constructor
      · rintro ⟨hother, hsame⟩
        rcases (hreplaced.units other).mp hother with hother | ⟨hother, _⟩
        · exact absurd (hsame.symm.trans (mem_candidate_units hother).1) hne
        · exact ⟨hother, hsame⟩
      · rintro ⟨hother, hsame⟩
        exact ⟨(hreplaced.units other).mpr (Or.inr ⟨hother, hsame ▸ hne⟩), hsame⟩
  · intro pass hpass candidate hc
    obtain ⟨before, hbefore, hsubset⟩ := hpending pass hpass
    simp only [hreplaced.zones]
    exact h.pending before hbefore candidate (hsubset hc)

theorem passStep_coherent (h : Coherent setup sha256 s) : Coherent setup sha256 (s.passStep setup) := by
  cases hpass : s.pass with
  | none =>
    rw [passStep_idle hpass]
    exact h
  | some pass =>
    cases hpending : pass.pending with
    | cons candidate rest =>
      obtain ⟨⟨row, hr, hok, hhash, rfl⟩, hreplaced, next, hnext, _, _, _, hsuffix, _⟩ :=
        passStep_derives h hpass hpending
      refine replaced_coherent h hr hok hhash hreplaced fun other hother => ⟨pass, hpass, ?_⟩
      obtain rfl : next = other := Option.some.inj (hnext.symm.trans hother)
      rw [hpending]
      exact fun c hc => List.mem_cons_of_mem _ (hsuffix.subset hc)
    | nil =>
      obtain ⟨hstore, hloaded⟩ := @passStep_loads setup s pass hpass hpending
      refine ⟨hstore ▸ h.hashed, hstore ▸ h.backed, hstore ▸ h.whole, fun next hnext candidate hc => ?_⟩
      cases hloaded with
      | finished hnone =>
        rw [hnone] at hnext
        cases hnext
      | page limit last hlast hpage =>
        rw [hpage] at hnext
        obtain rfl := Option.some.inj hnext
        obtain ⟨row, hr, hselected, rfl⟩ := mem_load hc
        have heligible := selected_eligible hselected
        obtain ⟨hok, hhash⟩ := eligible_ok heligible
        exact ⟨row, hstore ▸ hr, hok, hhash, eligible_document heligible, rfl⟩

theorem step_coherent (h : Coherent setup sha256 s) (ha : WriterAction sha256 s a) :
    Coherent setup sha256 (s.step setup a) := by
  cases a with
  | upsert row emit =>
    simp only [step]
    split
    next store' hupsert => exact upsert_coherent h ha.1 ha.2 (upsertDecisionZones_cases hupsert)
    next => exact h
  | elapse seconds => exact ⟨h.hashed, h.backed, h.whole, h.pending⟩
  | beginPass rebuild limit =>
    simp only [step]
    split
    · refine ⟨h.hashed, h.backed, h.whole, fun pass hpass candidate hc => ?_⟩
      obtain rfl := Option.some.inj hpass
      simp at hc
    · exact h
  | passStep => exact passStep_coherent h

theorem run_coherent {actions : List ZoneAction} (h : Coherent setup sha256 s) (hrun : WriterRun setup sha256 s actions) :
    Coherent setup sha256 (runFrom (step setup) s actions) :=
  runFrom_keeps (fun _ _ => step_coherent) h hrun

end Steps

end CorpusFeed
