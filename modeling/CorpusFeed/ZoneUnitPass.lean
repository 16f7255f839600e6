import CorpusFeed.Runs
import CorpusFeed.ZoneUnitStore
import Mathlib.Data.List.Sort

/-! A pass of the zone-unit builder, page by page and decision by decision, among
upserts and the passing of time. It ends, and visits no decision twice. -/

namespace CorpusFeed

def buildZoneUnitsPageSize : Nat := 500

/-- A running pass: its request, its counts, the last key of the page that was
loaded and the candidates of that page that are still to be derived. -/
structure ZonePass where
  rebuild : Bool
  limit : Option Nat
  decisions : Nat
  unitsWritten : Nat
  cursor : Option Text
  pending : List ZoneCandidate

structure BuildZoneUnitsOutcome where
  decisionsDerived : Nat
  zoneUnitsWritten : Nat
deriving DecidableEq

structure ZoneSystem where
  store : ZoneStore
  pass : Option ZonePass
  outcome : Option BuildZoneUnitsOutcome

inductive ZoneAction where
  | upsert (row : UpsertDecisionZones) (emit : Bool)
  | elapse (seconds : Nat)
  | beginPass (rebuild : Bool) (limit : Option Nat)
  | passStep

namespace ZonePass

def limitReached (pass : ZonePass) : Bool := pass.limit.any fun limit => decide (limit ≤ pass.decisions)

def pageLimit (pass : ZonePass) : Option Nat :=
  match pass.limit with
  | some limit =>
    if limit ≤ pass.decisions then none else some (min (limit - pass.decisions) buildZoneUnitsPageSize)
  | none => some buildZoneUnitsPageSize

end ZonePass

namespace ZoneSystem

def start : ZoneSystem := ⟨⟨0, Table.empty, Table.empty, []⟩, none, none⟩

def finish (s : ZoneSystem) (pass : ZonePass) : ZoneSystem :=
  ⟨s.store, none, some ⟨pass.decisions, pass.unitsWritten⟩⟩

variable (setup : ZoneSetup)

/-- One iteration over the candidates of the page. -/
def deriveCandidate (s : ZoneSystem) (pass : ZonePass) (candidate : ZoneCandidate) (rest : List ZoneCandidate) :
    ZoneSystem :=
  if candidate.documentId.isEmpty then { s with pass := some { pass with pending := rest } }
  else
    let rows := deriveZoneUnitRows candidate.documentId candidate.source candidate.textHash candidate.zones
    match setup.replaceZoneUnitsForDocument s.store candidate.documentId rows with
    | .error _ => ⟨s.store, none, none⟩
    | .ok store =>
      let counted := { pass with decisions := pass.decisions + 1, unitsWritten := pass.unitsWritten + rows.length }
      ⟨store, some { counted with pending := if counted.limitReached then [] else rest }, s.outcome⟩

/-- The next page. Its last key is its greatest one. -/
def loadPage (s : ZoneSystem) (pass : ZonePass) : ZoneSystem :=
  match pass.pageLimit with
  | none => s.finish pass
  | some limit =>
    let page := setup.loadDerivableDecisionZones s.store zoneUnitBuilderVersion pass.rebuild pass.cursor limit
    match page.getLast? with
    | none => s.finish pass
    | some last => { s with pass := some { pass with cursor := some last.documentId, pending := page } }

def passStep (s : ZoneSystem) : ZoneSystem :=
  match s.pass with
  | none => s
  | some pass =>
    match pass.pending with
    | candidate :: rest => s.deriveCandidate setup pass candidate rest
    | [] => s.loadPage setup pass

def step (s : ZoneSystem) : ZoneAction → ZoneSystem
  | .upsert row emit =>
    match setup.upsertDecisionZones s.store row emit with
    | .ok store => { s with store := store }
    | .error _ => s
  | .elapse seconds => { s with store := { s.store with now := s.store.now + seconds } }
  | .beginPass rebuild limit =>
    match s.pass with
    | none => { s with pass := some ⟨rebuild, limit, 0, 0, none, []⟩ }
    | some _ => s
  | .passStep => s.passStep setup

/-- The decision that a step of the pass derives. -/
def visit (s : ZoneSystem) : ZoneAction → Option Text
  | .passStep => s.pass.bind fun pass => pass.pending.head?.map ZoneCandidate.documentId
  | _ => none

def visits : ZoneSystem → List ZoneAction → List Text
  | _, [] => []
  | s, a :: actions => (s.visit a).toList ++ visits (s.step setup a) actions

end ZoneSystem

def ZoneAction.isBegin : ZoneAction → Bool
  | .beginPass .. => true
  | _ => false

def ZoneAction.isPassStep : ZoneAction → Bool
  | .passStep => true
  | _ => false

namespace ZoneSetup

variable {setup : ZoneSetup} {store : ZoneStore} {builderVersion : Text} {rebuild : Bool} {cursor : Option Text}
  {limit : Nat}

/-- The rows of a page, before they are cut to its size. -/
def orderedSelection (setup : ZoneSetup) (store : ZoneStore) (builderVersion : Text) (rebuild : Bool)
    (cursor : Option Text) : List DecisionZonesRow :=
  (store.zones.rows.filter (setup.selected store builderVersion rebuild cursor)).insertionSort
    fun a b => setup.collation.le a.documentId b.documentId = true

theorem mem_orderedSelection {row : DecisionZonesRow} : row ∈ setup.orderedSelection store builderVersion rebuild cursor ↔
    row ∈ store.zones ∧ setup.selected store builderVersion rebuild cursor row = true := by
  rw [orderedSelection, List.mem_insertionSort, List.mem_filter]
  exact Iff.rfl

theorem orderedSelection_sorted : (setup.orderedSelection store builderVersion rebuild cursor).Pairwise
    fun a b => setup.collation.lt a.documentId b.documentId = true := by
  have htotal : Std.Total fun a b : DecisionZonesRow => setup.collation.le a.documentId b.documentId = true :=
    ⟨fun a b => setup.collation.total _ _⟩
  have htrans : IsTrans DecisionZonesRow fun a b => setup.collation.le a.documentId b.documentId = true :=
    ⟨fun a b c => setup.collation.trans _ _ _⟩
  have hle : (setup.orderedSelection store builderVersion rebuild cursor).Pairwise
      fun a b => setup.collation.le a.documentId b.documentId = true := List.pairwise_insertionSort _ _
  have hnodup : ((setup.orderedSelection store builderVersion rebuild cursor).map DecisionZonesRow.documentId).Nodup := by
    refine ((List.perm_insertionSort _ _).map _).nodup_iff.mpr ?_
    exact (List.Sublist.map _ List.filter_sublist).nodup store.zones.nodup
  have hne := List.pairwise_map.mp hnodup
  exact (hle.and hne).imp fun h => Collation.lt_of_le_of_ne h.1 h.2

theorem load_eq : setup.loadDerivableDecisionZones store builderVersion rebuild cursor limit =
    ((setup.orderedSelection store builderVersion rebuild cursor).take (max limit 1)).map setup.candidate := rfl

theorem mem_load {candidate : ZoneCandidate}
    (h : candidate ∈ setup.loadDerivableDecisionZones store builderVersion rebuild cursor limit) :
    ∃ row ∈ store.zones, setup.selected store builderVersion rebuild cursor row = true ∧ candidate = setup.candidate row := by
  rw [load_eq] at h
  obtain ⟨row, hr, rfl⟩ := List.mem_map.mp h
  obtain ⟨hzone, hselected⟩ := mem_orderedSelection.mp (List.mem_of_mem_take hr)
  exact ⟨row, hzone, hselected, rfl⟩

theorem load_sorted : (setup.loadDerivableDecisionZones store builderVersion rebuild cursor limit).Pairwise
    fun a b => setup.collation.lt a.documentId b.documentId = true := by
  rw [load_eq, List.pairwise_map]
  exact orderedSelection_sorted.sublist (List.take_sublist _ _)

theorem load_le_last {candidate last : ZoneCandidate}
    (hc : candidate ∈ setup.loadDerivableDecisionZones store builderVersion rebuild cursor limit)
    (hlast : (setup.loadDerivableDecisionZones store builderVersion rebuild cursor limit).getLast? = some last) :
    setup.collation.le candidate.documentId last.documentId = true := by
  obtain ⟨before, heq⟩ := List.getLast?_eq_some_iff.mp hlast
  have hsorted := @load_sorted setup store builderVersion rebuild cursor limit
  rw [heq] at hsorted hc
  rcases List.mem_append.mp hc with hc | hc
  · exact Collation.le_of_lt ((List.pairwise_append.mp hsorted).2.2 candidate hc last List.mem_cons_self)
  · rw [List.mem_singleton.mp hc]
    exact (setup.collation.total _ _).elim id id

theorem load_covers {row : DecisionZonesRow} (hr : row ∈ store.zones)
    (hselected : setup.selected store builderVersion rebuild cursor row = true) :
    (∃ candidate ∈ setup.loadDerivableDecisionZones store builderVersion rebuild cursor limit,
        candidate.documentId = row.documentId) ∨
      ∃ last, (setup.loadDerivableDecisionZones store builderVersion rebuild cursor limit).getLast? = some last ∧
        setup.collation.lt last.documentId row.documentId = true := by
  have hmem := mem_orderedSelection.mpr ⟨hr, hselected⟩
  have hsorted := @orderedSelection_sorted setup store builderVersion rebuild cursor
  rw [load_eq]
  generalize setup.orderedSelection store builderVersion rebuild cursor = rows at hmem hsorted
  rw [← List.take_append_drop (max limit 1) rows] at hmem hsorted
  rcases List.mem_append.mp hmem with htake | hdrop
  · exact Or.inl ⟨setup.candidate row, List.mem_map_of_mem htake, rfl⟩
  · have hne : rows.take (max limit 1) ≠ [] := by
      intro hnil
      have hrows : rows = [] := by
        rcases List.take_eq_nil_iff.mp hnil with hzero | hrows
        · omega
        · exact hrows
      simp [hrows] at hdrop
    refine Or.inr ⟨setup.candidate ((rows.take (max limit 1)).getLast hne), ?_, ?_⟩
    · rw [List.getLast?_map, List.getLast?_eq_getLast_of_ne_nil hne, Option.map_some]
    · exact (List.pairwise_append.mp hsorted).2.2 _ (List.getLast_mem hne) row hdrop

theorem selected_after {row : DecisionZonesRow} (h : setup.selected store builderVersion rebuild cursor row = true) :
    ∀ key ∈ cursor, setup.collation.lt key row.documentId = true := by
  simp only [selected, Bool.and_eq_true, Option.all_eq_true] at h
  exact h.2

theorem eligible_document {row : DecisionZonesRow} (h : setup.eligible store row = true) :
    (setup.documents.find? row.documentId).isSome = true := by
  simp only [eligible, Bool.and_eq_true] at h
  cases hfind : setup.documents.find? row.documentId with
  | none => simp [hfind] at h
  | some document => rfl

theorem selected_eligible {row : DecisionZonesRow} (h : setup.selected store builderVersion rebuild cursor row = true) :
    setup.eligible store row = true := by
  simp only [selected, Bool.and_eq_true] at h
  exact h.1.1

end ZoneSetup

end CorpusFeed
