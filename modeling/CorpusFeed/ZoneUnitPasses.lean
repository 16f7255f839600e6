import CorpusFeed.ZoneUnitCatchup

/-! Unlimited passes in a history of upserts: what each one leaves, and what the
one after it does. -/

namespace CorpusFeed

open ZoneSetup ZoneSystem

variable {setup : ZoneSetup} {sha256 : Text → Text} {s : ZoneSystem} {rebuild : Bool} {limit : Option Nat}
  {actions : List ZoneAction}

/-- An unlimited pass from its begin, whatever is upserted meanwhile. -/
structure PassProgress (setup : ZoneSetup) (s : ZoneSystem) (rebuild : Bool) (actions : List ZoneAction)
    (s' : ZoneSystem) : Prop where
  ends : 2 * setup.documents.rows.length + 1 ≤ actions.countP ZoneAction.isPassStep → s'.pass = none
  increasing : (visits setup s (.beginPass rebuild none :: actions)).Pairwise fun a b => setup.collation.lt a b = true

/-- An unlimited pass beside the upserts of the writers. -/
structure PassSound (setup : ZoneSetup) (sha256 : Text → Text) (s : ZoneSystem) (rebuild : Bool)
    (actions : List ZoneAction) (s' : ZoneSystem) : Prop extends PassProgress setup s rebuild actions s' where
  succeeds : s'.pass = none → s'.outcome.isSome = true
  reached : s'.pass = none → ∀ row ∈ s'.store.zones, row.documentId ∉ upserted actions →
    setup.eligible s'.store row = true → UnitsCurrent setup s'.store row ∧
      (rebuild = true ∨ stale s.store zoneUnitBuilderVersion row = true →
        row.documentId ∈ visits setup s (.beginPass rebuild none :: actions))
  /-- The next pass writes what was upserted meanwhile, and nothing otherwise. -/
  settled : s'.pass = none → ∀ limit later, (∀ a ∈ later, a.isBegin = false) →
    WriterRun setup sha256 s' (.beginPass false limit :: later) →
      (∀ id ∈ visits setup s' (.beginPass false limit :: later), id ∈ upserted (actions ++ later)) ∧
        (upserted (actions ++ later) = [] → (runFrom (step setup) s' (.beginPass false limit :: later)).store =
          { s'.store with now := (runFrom (step setup) s' (.beginPass false limit :: later)).store.now })

theorem step_begin (hidle : s.pass = none) :
    s.step setup (.beginPass rebuild limit) = { s with pass := some ⟨rebuild, limit, 0, 0, none, []⟩ } := by
  simp [step, hidle]

theorem visits_begin : visits setup s (.beginPass rebuild limit :: actions) =
    visits setup (s.step setup (.beginPass rebuild limit)) actions := by
  simp [visits, visit]

theorem upserted_begin : upserted (.beginPass rebuild limit :: actions) = upserted actions := by
  rw [upserted, List.filterMap_cons_none rfl, upserted]

theorem pass_progress (hidle : s.pass = none) (hbegin : ∀ a ∈ actions, a.isBegin = false) :
    PassProgress setup s rebuild actions (runFrom (step setup) s (.beginPass rebuild none :: actions)) := by
  refine ⟨fun hcount => ?_, ?_⟩
  · refine @pass_ends setup _ ⟨rebuild, none, 0, 0, none, []⟩ actions hbegin (by rw [step_begin hidle]) ?_
    simpa [remaining, documentsAfter] using hcount
  · rw [visits_begin]
    refine (@visits_increase setup _ ⟨rebuild, none, 0, 0, none, []⟩ actions hbegin (by rw [step_begin hidle]) ?_).1
    exact ⟨List.Pairwise.nil, by simp⟩

theorem pass_sound (hsha : Function.Injective sha256) (h : Coherent setup sha256 s) (hidle : s.pass = none)
    (hbegin : ∀ a ∈ actions, a.isBegin = false)
    (hrun : WriterRun setup sha256 s (.beginPass rebuild none :: actions)) :
    PassSound setup sha256 s rebuild actions (runFrom (step setup) s (.beginPass rebuild none :: actions)) := by
  have hcoherent := run_coherent h hrun
  have hfirst := step_coherent h hrun.1
  have hreached : (runFrom (step setup) s (.beginPass rebuild none :: actions)).pass = none →
      ∀ row ∈ (runFrom (step setup) s (.beginPass rebuild none :: actions)).store.zones,
      row.documentId ∉ upserted actions →
      setup.eligible (runFrom (step setup) s (.beginPass rebuild none :: actions)).store row = true →
      UnitsCurrent setup (runFrom (step setup) s (.beginPass rebuild none :: actions)).store row ∧
        (rebuild = true ∨ stale s.store zoneUnitBuilderVersion row = true →
          row.documentId ∈ visits setup s (.beginPass rebuild none :: actions)) := by
    intro hend row hr hnot heligible
    have hrow := (run_frame hfirst hrun.2 hnot).1.mp hr
    have hpass : (s.step setup (.beginPass rebuild none)).pass = some ⟨rebuild, none, 0, 0, none, []⟩ := by
      rw [step_begin hidle]
    have hstore : (s.step setup (.beginPass rebuild none)).store = s.store := by rw [step_begin hidle]
    have hreaches := pass_reaches hsha hfirst hrun.2 hbegin hpass rfl hnot hrow (Or.inr (by simp)) heligible hend
    rw [hstore, ← visits_begin] at hreaches
    exact hreaches
  refine ⟨pass_progress hidle hbegin, fun hend => ?_, hreached, ?_⟩
  · exact @pass_outcome setup sha256 _ actions hfirst hrun.2 hbegin (by simp [step_begin hidle]) hend
  · intro hend limit later hbegin' hlater
    have hsettled : UnitsSettled setup (upserted (actions ++ later))
        ((runFrom (step setup) s (.beginPass rebuild none :: actions)).step setup (.beginPass false limit)) := by
      rw [step_begin hend]
      refine ⟨fun row hr hnot heligible => ?_, by simp⟩
      have hnot' : row.documentId ∉ upserted actions := fun hid =>
        hnot (by rw [upserted, List.filterMap_append]; exact List.mem_append_left _ hid)
      obtain ⟨hok, hhash⟩ := eligible_ok heligible
      exact hcoherent.not_stale hr hok hhash (hreached hend row hr hnot' heligible).1
    have hsubset : upserted later ⊆ upserted (actions ++ later) := fun id hid => by
      rw [upserted, List.filterMap_append]
      exact List.mem_append_right _ hid
    have hvisits := settled_visits (step_coherent hcoherent hlater.1) hsettled hlater.2 hbegin' hsubset
    rw [visits_begin]
    refine ⟨hvisits, fun hnone => unvisited_store ?_ ?_⟩
    · rw [upserted_begin]
      rw [hnone] at hsubset
      exact List.subset_nil.mp hsubset
    · rw [visits_begin]
      rw [hnone] at hvisits
      exact List.eq_nil_iff_forall_not_mem.mpr fun id hid => List.not_mem_nil (hvisits id hid)

/-- In every history of upserts and passes each unlimited pass ends, in key order. In
one of writers' upserts, only `ok` rows with a hash have units, and each unlimited
pass is sound. -/
theorem zone_units_follow_zones (hsha : Function.Injective sha256) (history : List ZoneAction) :
    ((runFrom (step setup) ZoneSystem.start history).pass = none → ∀ rebuild actions,
      (∀ a ∈ actions, a.isBegin = false) →
      PassProgress setup (runFrom (step setup) ZoneSystem.start history) rebuild actions
        (runFrom (step setup) ZoneSystem.start (history ++ .beginPass rebuild none :: actions))) ∧
    (WriterRun setup sha256 ZoneSystem.start history →
      (∀ unit ∈ (runFrom (step setup) ZoneSystem.start history).store.units,
        ∃ row ∈ (runFrom (step setup) ZoneSystem.start history).store.zones,
          row.documentId = unit.documentId ∧ row.status = statusOk ∧ row.textHash.isSome = true) ∧
      ((runFrom (step setup) ZoneSystem.start history).pass = none → ∀ rebuild actions,
        (∀ a ∈ actions, a.isBegin = false) →
        WriterRun setup sha256 (runFrom (step setup) ZoneSystem.start history) (.beginPass rebuild none :: actions) →
        PassSound setup sha256 (runFrom (step setup) ZoneSystem.start history) rebuild actions
          (runFrom (step setup) ZoneSystem.start (history ++ .beginPass rebuild none :: actions)))) := by
  refine ⟨fun hidle rebuild actions hbegin => ?_, fun hhistory => ?_⟩
  · rw [runFrom_append]
    exact pass_progress hidle hbegin
  · have h := run_coherent coherent_start hhistory
    refine ⟨h.backed, fun hidle rebuild actions hbegin hrun => ?_⟩
    rw [runFrom_append]
    exact pass_sound hsha h hidle hbegin hrun

def cassationSetup : ZoneSetup where
  documents := ⟨[⟨"cass:JURITEXT000049131700".toList, by decide, "core".toList, "decision".toList, "cass".toList,
    ["22-12.345".toList]⟩], by simp⟩
  collation := codePointCollation

def cassationAnswer : Json :=
  .object [("text".toList, .string "Sur le moyen".toList),
    ("zones".toList, .object [("motivations".toList, .array [.object [("start".toList, .number (numberOfInt 0)),
      ("end".toList, .number (numberOfInt 12))]])]), ("update_date".toList, .string "2024-01-31".toList)]

/-- What the hash of the answer is taken of, and its digest. -/
def cassationSnapshot : Text :=
  "Sur le moyen".toList ++ nul ::
    ("\x7b\"dispositif\":[],\"motivations\":[\x7b\"end\":12,\"start\":0,\"text\":\"Sur le moyen\"\x7d],\"moyens\":[]\x7d".toList ++
      nul :: ("5fca2b6e".toList ++ nul :: "2024-01-31".toList))

def cassationDigest : Text := "65f36616ba2a8f3e07d48867849d7ceb3267ff2b2c477a2c56811da7993d587b".toList

def snapshotDigest (t : Text) : Text := if t = cassationSnapshot then cassationDigest else 'x' :: t

theorem snapshotDigest_injective : Function.Injective snapshotDigest := by
  have hfirst : cassationDigest.head? = some '6' := by decide
  have hhead : ∀ t, 'x' :: t ≠ cassationDigest := by
    intro t h
    rw [← h] at hfirst
    cases hfirst
  intro a b h
  unfold snapshotDigest at h
  split at h <;> split at h
  next ha hb => rw [ha, hb]
  · exact absurd h.symm (hhead b)
  · exact absurd h (hhead a)
  · exact List.tail_eq_of_cons_eq h

def cassationRow : UpsertDecisionZones :=
  enrichedRow snapshotDigest "cass:JURITEXT000049131700".toList "JURITEXT000049131700".toList none cassationAnswer
    "5fca2b6e".toList 30

theorem zone_units_follow_zones_cassation : PassSound cassationSetup snapshotDigest
    (runFrom (step cassationSetup) ZoneSystem.start [.upsert cassationRow true]) false [.passStep, .passStep, .passStep]
    (runFrom (step cassationSetup) ZoneSystem.start
      ([.upsert cassationRow true] ++ [.beginPass false none, .passStep, .passStep, .passStep])) := by
  have hhistory : WriterRun cassationSetup snapshotDigest ZoneSystem.start [.upsert cassationRow true] :=
    ⟨⟨enrichedRow_writer, by simp [ZoneSystem.start]⟩, trivial⟩
  refine ((zone_units_follow_zones snapshotDigest_injective [.upsert cassationRow true]).2 hhistory).2 ?_ false _ ?_ ?_
  · decide +kernel
  · simp [ZoneAction.isBegin]
  · exact ⟨trivial, trivial, trivial, trivial, trivial⟩

def wholePass : List ZoneAction := [.beginPass false none, .passStep, .passStep, .passStep]

/-- Rows that no writer stores are derived again by every pass when their zones
have no text, and not again when only their zones changed; and a candidate of a
page is written even if its row failed since. -/
theorem fabricated_rows_not_followed :
    (runFrom (step cassationSetup) ZoneSystem.start
        (.upsert { cassationRow with zonesJson := .object [] } true :: wholePass)).store.outbox.length = 2 ∧
      (runFrom (step cassationSetup) ZoneSystem.start
        (.upsert { cassationRow with zonesJson := .object [] } true :: wholePass ++ wholePass)).store.outbox.length = 3 ∧
      (runFrom (step cassationSetup) ZoneSystem.start (.upsert cassationRow true :: wholePass ++
        .upsert { cassationRow with zonesJson := .object [] } true :: wholePass)).store.units.rows.length = 1 ∧
      ((runFrom (step cassationSetup) ZoneSystem.start [.upsert cassationRow true, .beginPass false none, .passStep,
          .upsert (cacheZoneStatus "cass:JURITEXT000049131700".toList "JURITEXT000049131700".toList none none
            "upstream_error".toList none 3600 7) true, .passStep]).store.units.rows.length = 1 ∧
        (runFrom (step cassationSetup) ZoneSystem.start [.upsert cassationRow true, .beginPass false none, .passStep,
          .upsert (cacheZoneStatus "cass:JURITEXT000049131700".toList "JURITEXT000049131700".toList none none
            "upstream_error".toList none 3600 7) true, .passStep]).store.zones.rows.map DecisionZonesRow.status =
          ["upstream_error".toList]) := by
  decide +kernel

end CorpusFeed
