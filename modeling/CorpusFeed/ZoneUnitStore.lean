import CorpusFeed.Collation
import CorpusFeed.DocumentProjection
import CorpusFeed.SeparatedText
import CorpusFeed.ZoneNormalization

/-! The store of the zone subsystem: the cached zones of each decision, the units
derived from them and the outbox, with the upsert, the candidate page and the
replacement of a decision's units. -/

namespace CorpusFeed

def zoneEnrichableSources : List Text := ["cass".toList, "inca".toList]

/-- A row of `documents`, whose id starts with its source. -/
structure ZonedDocument where
  documentId : Text
  named : documentId ≠ []
  corpus : Text
  kind : Text
  source : Text
  caseNumbers : List Text

def normalizedCaseNumber (caseNumber : Text) : Text := caseNumber.filter fun c => c ≠ '.' && c ≠ ' '

/-- Two digits, a dash and four to six digits. -/
def parserValidPourvoi (caseNumber : Text) : Bool :=
  match caseNumber with
  | a :: b :: '-' :: digits => a.isDigit && b.isDigit && digits.all Char.isDigit &&
      decide (4 ≤ digits.length ∧ digits.length ≤ 6)
  | _ => false

def parserValidPourvoiExists (document : ZonedDocument) : Bool :=
  document.caseNumbers.any fun caseNumber => parserValidPourvoi (normalizedCaseNumber caseNumber)

structure UpsertDecisionZones where
  documentId : Text
  provider : Text
  providerDecisionId : Option Text
  sourceUid : Text
  ecli : Option Text
  status : Text
  upstreamUpdateDate : Option Text
  upstreamDecisionDate : Option Text
  textHash : Option Text
  offsetUnit : Option Text
  zonesJson : Json
  rawJson : Json
  error : Option Text
  ttlSeconds : Option Int

structure DecisionZonesRow where
  documentId : Text
  provider : Text
  providerDecisionId : Option Text
  sourceUid : Text
  ecli : Option Text
  status : Text
  fetchedAt : Int
  expiresAt : Option Int
  upstreamUpdateDate : Option Text
  upstreamDecisionDate : Option Text
  textHash : Option Text
  offsetUnit : Option Text
  zonesJson : Json
  rawJson : Json
  error : Option Text

def statusOk : Text := "ok".toList

def zoneStatuses : List Text :=
  [statusOk, "not_found".toList, "unsupported".toList, "invalid_offsets".toList, "upstream_error".toList]

def hasNul (t : Text) : Bool := t.contains nul

namespace Json

mutual

def hasNul : Json → Bool
  | string s => CorpusFeed.hasNul s
  | array items => itemsHaveNul items
  | object fields => fieldsHaveNul fields
  | _ => false

def itemsHaveNul : List Json → Bool
  | [] => false
  | item :: items => hasNul item || itemsHaveNul items

def fieldsHaveNul : List (Text × Json) → Bool
  | [] => false
  | (key, value) :: fields => CorpusFeed.hasNul key || hasNul value || fieldsHaveNul fields

end

end Json

namespace UpsertDecisionZones

/-- The text parameters of the statement. -/
def texts (row : UpsertDecisionZones) : List Text :=
  [row.documentId, row.provider, row.sourceUid, row.status] ++
    [row.providerDecisionId, row.ecli, row.upstreamUpdateDate, row.upstreamDecisionDate, row.textHash, row.offsetUnit,
      row.error].filterMap id

def stored (row : UpsertDecisionZones) (now : Int) : DecisionZonesRow :=
  ⟨row.documentId, row.provider, row.providerDecisionId, row.sourceUid, row.ecli, row.status, now,
    row.ttlSeconds.map (now + ·), row.upstreamUpdateDate, row.upstreamDecisionDate, row.textHash, row.offsetUnit,
    row.zonesJson, row.rawJson, row.error⟩

/-- The row cannot be derived into units. -/
def notDerivable (row : UpsertDecisionZones) : Bool := row.status ≠ statusOk || row.textHash.isNone

end UpsertDecisionZones

def zoneUnitId (row : ZoneUnitRow) : Text :=
  row.documentId ++ "#".toList ++ row.zone.text ++ "#".toList ++ padDecimal 1 row.fragmentIndex

/-- A document-scoped `replace_set` row of the outbox. -/
structure ReplaceSetEvent where
  corpus : Text
  tableName : Text
  documentId : Text
deriving DecidableEq

structure ZoneStore where
  now : Int
  zones : Table DecisionZonesRow.documentId
  units : Table zoneUnitId
  outbox : List ReplaceSetEvent

structure ZoneSetup where
  documents : Table ZonedDocument.documentId
  collation : Collation

/-- What the builder reads of a candidate's row. -/
structure ZoneCandidate where
  documentId : Text
  source : Text
  textHash : Text
  zones : Json

def insertUnits : Table zoneUnitId → List ZoneUnitRow → Option (Table zoneUnitId)
  | units, [] => some units
  | units, row :: rows =>
    match units.insert row with
    | none => none
    | some units => insertUnits units rows

namespace ZoneSetup

variable (setup : ZoneSetup)

def upsertDecisionZones (store : ZoneStore) (row : UpsertDecisionZones) (emit : Bool) : Except StoreError ZoneStore :=
  if row.texts.any hasNul then .error (.postgresClient "invalid byte sequence for encoding \"UTF8\": 0x00")
  else if row.zonesJson.hasNul || row.rawJson.hasNul then .error (.postgresClient "unsupported Unicode escape sequence")
  else if row.status ∉ zoneStatuses then
    .error (.postgresClient "new row for relation \"decision_zones\" violates check constraint")
  else match setup.documents.find? row.documentId with
  | none => .error (.postgresClient "insert or update on table \"decision_zones\" violates foreign key constraint")
  | some document =>
    let written := ⟨document.corpus, "decision_zones".toList, row.documentId⟩ :: store.outbox
    .ok { store with
      zones := store.zones.upsert (row.stored store.now)
      units := if row.notDerivable then store.units.filter fun unit => unit.documentId ≠ row.documentId else store.units
      outbox := if emit then
          if row.notDerivable then ⟨document.corpus, "zone_units".toList, row.documentId⟩ :: written else written
        else store.outbox }

/-- Outside the zone's freshness: a row that units can be derived from. -/
def eligible (store : ZoneStore) (row : DecisionZonesRow) : Bool :=
  row.status == statusOk && row.textHash.isSome && row.expiresAt.all (fun expiry => decide (store.now < expiry)) &&
    (setup.documents.find? row.documentId).any fun document => document.kind == "decision".toList &&
      zoneEnrichableSources.contains document.source && parserValidPourvoiExists document

/-- No units yet, or units of another hash or builder version. -/
def stale (store : ZoneStore) (builderVersion : Text) (row : DecisionZonesRow) : Bool :=
  let units := store.units.rows.filter fun unit => unit.documentId = row.documentId
  units.isEmpty || units.any fun unit => row.textHash.any (unit.textHash != ·) || unit.builderVersion != builderVersion

def selected (store : ZoneStore) (builderVersion : Text) (rebuild : Bool) (afterCursor : Option Text)
    (row : DecisionZonesRow) : Bool :=
  setup.eligible store row && (rebuild || stale store builderVersion row) &&
    afterCursor.all fun cursor => setup.collation.lt cursor row.documentId

def candidate (row : DecisionZonesRow) : ZoneCandidate :=
  ⟨row.documentId, ((setup.documents.find? row.documentId).map ZonedDocument.source).getD [], row.textHash.getD [],
    row.zonesJson⟩

def loadDerivableDecisionZones (store : ZoneStore) (builderVersion : Text) (rebuild : Bool)
    (afterCursor : Option Text) (limit : Nat) : List ZoneCandidate :=
  let rows := (store.zones.rows.filter (setup.selected store builderVersion rebuild afterCursor)).insertionSort
    fun a b => setup.collation.le a.documentId b.documentId = true
  (rows.take (max limit 1)).map setup.candidate

/-- The replacement of a decision's units by a pass, which always has an outbox. -/
def replaceZoneUnitsForDocument (store : ZoneStore) (documentId : Text) (rows : List ZoneUnitRow) :
    Except StoreError ZoneStore :=
  match rows.find? fun row => row.documentId ≠ documentId with
  | some foreign => .error (.projection
      s!"replace_zone_units_for_document: row for `{String.ofList foreign.documentId}` does not match document `{String.ofList documentId}`")
  | none =>
    if rows.any fun row => row.searchBody.all (· = ' ') then
      .error (.postgresClient "new row for relation \"zone_units\" violates check constraint")
    else match insertUnits (store.units.filter fun unit => unit.documentId ≠ documentId) rows with
    | none => .error (.postgresClient "duplicate key value violates unique constraint \"zone_units_pkey\"")
    | some units =>
      match setup.documents.find? documentId with
      | none => .error (.postgresClient "query returned an unexpected number of rows")
      | some document => .ok { store with
          units := units
          outbox := ⟨document.corpus, "zone_units".toList, documentId⟩ :: store.outbox }

end ZoneSetup

theorem ZoneKey.hash_not_mem (zone : ZoneKey) : '#' ∉ zone.text := by
  cases zone <;> decide

theorem ZoneKey.text_injective : Function.Injective ZoneKey.text := by
  intro a b h
  cases a <;> cases b <;> first | rfl | exact absurd h (by decide)

/-- An id names its document, its zone and its fragment. -/
theorem zoneUnitId_injective {a b : ZoneUnitRow} (h : zoneUnitId a = zoneUnitId b) :
    a.documentId = b.documentId ∧ a.zone = b.zone ∧ a.fragmentIndex = b.fragmentIndex := by
  have hshape : ∀ row : ZoneUnitRow, zoneUnitId row =
      (row.documentId ++ '#' :: row.zone.text) ++ '#' :: padDecimal 1 row.fragmentIndex := by
    intro row
    simp [zoneUnitId]
  have hdigits : ∀ n, '#' ∉ padDecimal 1 n := fun n hn => by simpa using isDigit_of_mem_padDecimal hn
  rw [hshape, hshape] at h
  obtain ⟨hstem, hindex⟩ := stem_suffix_unique (hdigits _) (hdigits _) h
  obtain ⟨hdocument, hzone⟩ := stem_suffix_unique a.zone.hash_not_mem b.zone.hash_not_mem hstem
  exact ⟨hdocument, ZoneKey.text_injective hzone, padDecimal_injective 1 hindex⟩

theorem insertUnits_some {rows : List ZoneUnitRow} {units : Table zoneUnitId} (hnodup : (rows.map zoneUnitId).Nodup)
    (hfresh : ∀ row ∈ rows, ∀ unit ∈ units, zoneUnitId unit ≠ zoneUnitId row) :
    ∃ filled, insertUnits units rows = some filled ∧ ∀ unit, unit ∈ filled ↔ unit ∈ rows ∨ unit ∈ units := by
  induction rows generalizing units with
  | nil => exact ⟨units, rfl, by simp⟩
  | cons row rows ih =>
    obtain ⟨hnot, hnodup⟩ := List.nodup_cons.mp hnodup
    obtain ⟨next, hinsert⟩ := Table.insert_isSome (hfresh row List.mem_cons_self)
    have hnext : ∀ r ∈ rows, ∀ unit ∈ next, zoneUnitId unit ≠ zoneUnitId r := by
      intro r hr unit hunit
      rcases (Table.mem_insert hinsert).mp hunit with rfl | hunit
      · exact fun heq => hnot (heq ▸ List.mem_map_of_mem hr)
      · exact hfresh r (List.mem_cons_of_mem row hr) unit hunit
    obtain ⟨filled, hfilled, hmem⟩ := ih hnodup hnext
    refine ⟨filled, by simp [insertUnits, hinsert, hfilled], fun unit => ?_⟩
    rw [hmem, Table.mem_insert hinsert, List.mem_cons]
    tauto

theorem derive_positions_nodup (documentId source textHash : Text) (zones : Json) :
    ((deriveZoneUnitRows documentId source textHash zones).map fun row => (row.zone, row.fragmentIndex)).Nodup := by
  rw [deriveZoneUnitRows, List.map_flatMap, List.nodup_flatMap]
  constructor
  · intro zone _
    cases (zones.index zone.text).asArray with
    | none => simp
    | some fragments =>
      refine List.Nodup.of_map Prod.snd ?_
      rw [List.map_map]
      exact fragmentRows_nodup zone 0 fragments
  · have hzones : zoneKeys.Nodup := by decide
    refine hzones.imp fun {a b} hne => ?_
    refine List.disjoint_left.mpr fun position ha hb => ?_
    obtain ⟨row, hr, rfl⟩ := List.mem_map.mp ha
    obtain ⟨other, ho, heq⟩ := List.mem_map.mp hb
    have hrow : row.zone = a := by
      split at hr
      · exact (mem_fragmentRows hr).2.1
      · cases hr
    have hother : other.zone = b := by
      split at ho
      · exact (mem_fragmentRows ho).2.1
      · cases ho
    exact hne (hrow.symm.trans ((Prod.mk.inj heq).1.symm.trans hother))

theorem derive_ids_nodup (documentId source textHash : Text) (zones : Json) :
    ((deriveZoneUnitRows documentId source textHash zones).map zoneUnitId).Nodup := by
  have hpositions := derive_positions_nodup documentId source textHash zones
  refine (List.Nodup.of_map _ hpositions).map_on fun a ha b hb h => ?_
  obtain ⟨_, hzone, hindex⟩ := zoneUnitId_injective h
  exact List.inj_on_of_nodup_map hpositions ha hb (by rw [hzone, hindex])

theorem not_spaces_of_not_blank {t : Text} (h : isBlank t = false) : (t.all (· = ' ')) = false := by
  rw [Bool.eq_false_iff] at h ⊢
  intro hall
  refine h (isBlank_iff.mpr fun c hc => ?_)
  have hspace : c = ' ' := by simpa using List.all_eq_true.mp hall c hc
  rw [hspace]
  rfl

namespace ZoneSetup

variable {setup : ZoneSetup} {store store' : ZoneStore}

/-- The effect of an upsert. -/
structure Upserted (setup : ZoneSetup) (row : UpsertDecisionZones) (store store' : ZoneStore) : Prop where
  noNul : ∀ t ∈ row.texts, nul ∉ t
  now : store'.now = store.now
  zones : store'.zones = store.zones.upsert (row.stored store.now)
  units : ∀ unit, unit ∈ store'.units ↔ unit ∈ store.units ∧ (row.notDerivable = true → unit.documentId ≠ row.documentId)

theorem upsertDecisionZones_cases {row : UpsertDecisionZones} {emit : Bool}
    (h : setup.upsertDecisionZones store row emit = .ok store') : Upserted setup row store store' := by
  unfold upsertDecisionZones at h
  split at h
  · cases h
  next hnul =>
  split at h
  · cases h
  split at h
  · cases h
  split at h
  · cases h
  cases h
  refine ⟨fun t ht => ?_, rfl, rfl, fun unit => ?_⟩
  · simp only [List.any_eq_true, not_exists, not_and, hasNul, List.contains_iff_mem] at hnul
    exact hnul t ht
  · by_cases hnot : row.notDerivable = true
    · simp [hnot]
    · simp [hnot]

/-- The effect of replacing a decision's units. -/
structure Replaced (documentId : Text) (rows : List ZoneUnitRow) (store store' : ZoneStore) : Prop where
  now : store'.now = store.now
  zones : store'.zones = store.zones
  units : ∀ unit, unit ∈ store'.units ↔ unit ∈ rows ∨ (unit ∈ store.units ∧ unit.documentId ≠ documentId)

/-- The units of a known decision can always be replaced by derived ones. -/
theorem replace_derived {documentId source textHash : Text} {zones : Json}
    (hdocument : (setup.documents.find? documentId).isSome = true) :
    ∃ store', setup.replaceZoneUnitsForDocument store documentId
        (deriveZoneUnitRows documentId source textHash zones) = .ok store' ∧
      Replaced documentId (deriveZoneUnitRows documentId source textHash zones) store store' := by
  obtain ⟨document, hfind⟩ := Option.isSome_iff_exists.mp hdocument
  have hown : (deriveZoneUnitRows documentId source textHash zones).find?
      (fun row => row.documentId ≠ documentId) = none := by
    refine List.find?_eq_none.mpr fun row hr => ?_
    simp [(mem_derive hr).1]
  have htext : ((deriveZoneUnitRows documentId source textHash zones).any fun row => row.searchBody.all (· = ' ')) = false := by
    refine List.any_eq_false.mpr fun row hr => ?_
    rw [not_spaces_of_not_blank (mem_derive hr).2.2.2]
    simp
  have hfresh : ∀ row ∈ deriveZoneUnitRows documentId source textHash zones,
      ∀ unit ∈ store.units.filter (fun unit => unit.documentId ≠ documentId), zoneUnitId unit ≠ zoneUnitId row := by
    intro row hr unit hunit heq
    have hne := (Table.mem_filter.mp hunit).2
    simp only [ne_eq, decide_eq_true_eq] at hne
    exact hne ((zoneUnitId_injective heq).1.trans (mem_derive hr).1)
  obtain ⟨units, hunits, hmem⟩ := insertUnits_some (derive_ids_nodup documentId source textHash zones) hfresh
  refine ⟨{ store with units := units, outbox := ⟨document.corpus, "zone_units".toList, documentId⟩ :: store.outbox },
    ?_, rfl, rfl, fun unit => ?_⟩
  · rw [replaceZoneUnitsForDocument, hown]
    simp only [htext, hunits, hfind]
    rfl
  · rw [hmem, Table.mem_filter]
    simp

end ZoneSetup

end CorpusFeed
