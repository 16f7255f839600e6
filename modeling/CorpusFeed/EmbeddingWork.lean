import CorpusFeed.DenseRebuild
import CorpusFeed.WorkListLoop

/-! The embedding work lists of chunks and of zone units against the guards of their
writers. -/

namespace CorpusFeed

def embedStreamPageSize : ℕ := 20000

/-- What the embedding configuration contributes: its fingerprint and model, under the
dimension of the schema, and the vector of each text. -/
structure EmbeddingSpec (V : Type*) where
  fingerprint : Text
  model : Text
  embed : Text → V

variable {V : Type*}

def EmbeddingSpec.dimension : ℕ := 1024

def EmbeddingSpec.insertOf (spec : EmbeddingSpec V) (item : ChunkEmbeddingInput) : ChunkEmbeddingInsert V :=
  ⟨item.chunkId, spec.fingerprint, spec.embed item.embeddingText, spec.model, EmbeddingSpec.dimension⟩

/-- A row of `zone_units`, as far as embedding it is concerned. -/
structure ZoneUnitTarget where
  zoneUnitId : Text
  documentId : Text
  zone : Text
  fragmentIndex : ℕ
  body : Text
  embeddingFingerprint : Option Text
deriving DecidableEq

/-- In the rows of `zone_unit_embeddings` and in the items of the pool, `chunkId` is the
id of the zone unit. -/
structure ZoneEmbeddingStore (V : Type*) where
  zoneUnits : Table ZoneUnitTarget.zoneUnitId
  zoneUnitEmbeddings : Table (EmbeddingRow.chunkId : EmbeddingRow V → Text)

/-- Whether the embedding of a row is missing or of another model. -/
def uncoveredId (embeddings : Table (EmbeddingRow.chunkId : EmbeddingRow V → Text)) (fingerprint model : Text)
    (dimension : Int) (id : Text) : Bool :=
  match embeddings.find? id with
  | none => true
  | some e => e.embeddingFingerprint != fingerprint || e.model != model || e.dimension != dimension

/-- `ORDER BY document_id, zone, fragment_index, zone_unit_id` under the database collation. -/
def zoneUnitOrder (collate : Text → Text → Bool) (a b : ZoneUnitTarget) : Bool :=
  if a.documentId ≠ b.documentId then collate a.documentId b.documentId
  else if a.zone ≠ b.zone then collate a.zone b.zone
  else if a.fragmentIndex ≠ b.fragmentIndex then decide (a.fragmentIndex < b.fragmentIndex)
  else collate a.zoneUnitId b.zoneUnitId

namespace ZoneEmbeddingStore

def loadZoneUnitEmbeddingInputs (collate : Text → Text → Bool) (s : ZoneEmbeddingStore V) (fingerprint model : Text)
    (dimension : Int) (limit : Option ℕ) : List ChunkEmbeddingInput :=
  let rows := (s.zoneUnits.rows.filter fun row =>
    uncoveredId s.zoneUnitEmbeddings fingerprint model dimension row.zoneUnitId).insertionSort
      fun a b => zoneUnitOrder collate a b = true
  let taken := match limit with
    | some limit => rows.take limit
    | none => rows
  taken.map fun row => ⟨row.zoneUnitId, row.body⟩

def acceptsVector (s : ZoneEmbeddingStore V) (item : ChunkEmbeddingInsert V) : Bool :=
  match s.zoneUnits.find? item.chunkId with
  | none => false
  | some row => row.embeddingFingerprint.isNone || row.embeddingFingerprint == some item.embeddingFingerprint

def stampStaged (items : List (ChunkEmbeddingInsert V)) (row : ZoneUnitTarget) : ZoneUnitTarget :=
  match ProjectionStore.staged items row.zoneUnitId with
  | some item => { row with embeddingFingerprint := some item.embeddingFingerprint }
  | none => row

theorem stampStaged_id (items : List (ChunkEmbeddingInsert V)) (row : ZoneUnitTarget) :
    (stampStaged items row).zoneUnitId = row.zoneUnitId := by
  unfold stampStaged
  split <;> rfl

def offenderMessage (collate : Text → Text → Bool) (s : ZoneEmbeddingStore V) (items : List (ChunkEmbeddingInsert V)) :
    String :=
  let offenders := (items.filter fun item => !s.acceptsVector item).insertionSort
    fun a b => collate a.chunkId b.chunkId = true
  match offenders with
  | item :: _ =>
    s!"zone unit `{String.ofList item.chunkId}` is missing or has a different embedding fingerprint than `{String.ofList item.embeddingFingerprint}`"
  | [] => "a staged zone unit is missing or has a conflicting embedding fingerprint"

def insertZoneUnitEmbeddings (collate : Text → Text → Bool) (s : ZoneEmbeddingStore V)
    (items : List (ChunkEmbeddingInsert V)) : Except StoreError (ZoneEmbeddingStore V) :=
  if items.isEmpty then .ok s
  else match items.find? fun item => decide (2 ^ 31 ≤ item.dimension) with
  | some item => .error (.projection
      s!"embedding dimension too large for storage on zone unit `{String.ofList item.chunkId}`: {item.dimension}")
  | none =>
    if (items.map ChunkEmbeddingInsert.chunkId).Nodup then
      if items.all s.acceptsVector then
        if items.all fun item => (item.dimension : Int) == denseVectorDimension then
          .ok { s with
            zoneUnits := s.zoneUnits.update (fun _ => true) (stampStaged items) (stampStaged_id items)
            zoneUnitEmbeddings := s.zoneUnitEmbeddings.upsertAll (items.map ProjectionStore.embeddingRow) }
        else .error (.postgresClient "new row for relation \"zone_unit_embeddings\" violates check constraint")
      else .error (.projection (s.offenderMessage collate items))
    else .error (.postgresClient "duplicate key value violates unique constraint \"stage_zone_unit_embeddings_pkey\"")

end ZoneEmbeddingStore

section Lists

variable (collate : Text → Text → Bool) (spec : EmbeddingSpec V)

/-- `ingest embed-chunks`: what it loads, and what it writes for it. -/
def chunkWork : WorkList (ProjectionStore V) ChunkEmbeddingInput Text StoreError where
  key := ChunkEmbeddingInput.chunkId
  load s limit := s.loadChunkEmbeddingInputs collate spec.fingerprint spec.model EmbeddingSpec.dimension limit
  write s items := s.insertChunkEmbeddings collate (items.map spec.insertOf)

/-- `ingest embed-zone-units`, in the same way. -/
def zoneUnitWork : WorkList (ZoneEmbeddingStore V) ChunkEmbeddingInput Text StoreError where
  key := ChunkEmbeddingInput.chunkId
  load s limit := s.loadZoneUnitEmbeddingInputs collate spec.fingerprint spec.model EmbeddingSpec.dimension limit
  write s items := s.insertZoneUnitEmbeddings collate (items.map spec.insertOf)

end Lists

theorem uncoveredId_upsertAll {spec : EmbeddingSpec V} {items : List ChunkEmbeddingInput}
    (hnodup : (items.map ChunkEmbeddingInput.chunkId).Nodup)
    (embeddings : Table (EmbeddingRow.chunkId : EmbeddingRow V → Text)) (id : Text) :
    uncoveredId (embeddings.upsertAll ((items.map spec.insertOf).map ProjectionStore.embeddingRow)) spec.fingerprint
        spec.model EmbeddingSpec.dimension id = true ↔
      id ∉ items.map ChunkEmbeddingInput.chunkId ∧
        uncoveredId embeddings spec.fingerprint spec.model EmbeddingSpec.dimension id = true := by
  set rows := (items.map spec.insertOf).map ProjectionStore.embeddingRow with hrows
  have hmem : ∀ e, e ∈ rows ↔ ∃ item ∈ items, ProjectionStore.embeddingRow (spec.insertOf item) = e := by
    intro e
    simp [hrows]
  have hkeys : rows.map EmbeddingRow.chunkId = items.map ChunkEmbeddingInput.chunkId := by
    rw [hrows, List.map_map, List.map_map]
    rfl
  have hunique : ∀ a ∈ rows, ∀ b ∈ rows, a.chunkId = b.chunkId → a = b :=
    fun a ha b hb => List.inj_on_of_nodup_map (hkeys ▸ hnodup) ha hb
  have hupsert : ∀ e, e ∈ embeddings.upsertAll rows ↔ e ∈ rows ∨ (e ∈ embeddings ∧ e.chunkId ∉ rows.map EmbeddingRow.chunkId) :=
    fun e => Table.mem_upsertAll_of_unique hunique
  by_cases hid : id ∈ items.map ChunkEmbeddingInput.chunkId
  · obtain ⟨item, hitem, rfl⟩ := List.mem_map.mp hid
    have hfind : (embeddings.upsertAll rows).find? item.chunkId = some (ProjectionStore.embeddingRow (spec.insertOf item)) :=
      Table.find?_eq_some.mpr ⟨(hupsert _).mpr (Or.inl ((hmem _).mpr ⟨item, hitem, rfl⟩)), rfl⟩
    have hcovered : uncoveredId (embeddings.upsertAll rows) spec.fingerprint spec.model EmbeddingSpec.dimension
        item.chunkId = false := by
      rw [uncoveredId, hfind]
      simp [ProjectionStore.embeddingRow, EmbeddingSpec.insertOf]
    simp [hcovered, hid]
  · have hsame : (embeddings.upsertAll rows).find? id = embeddings.find? id := by
      cases hfind : embeddings.find? id with
      | none =>
        refine Table.find?_eq_none.mpr fun e he hk => ?_
        rcases (hupsert e).mp he with he | ⟨he, _⟩
        · exact hid (hkeys ▸ hk ▸ List.mem_map_of_mem he)
        · exact Table.find?_eq_none.mp hfind e he hk
      | some e =>
        obtain ⟨he, hk⟩ := Table.find?_eq_some.mp hfind
        have hnew : e.chunkId ∉ rows.map EmbeddingRow.chunkId := by rwa [hkeys, hk]
        exact Table.find?_eq_some.mpr ⟨(hupsert e).mpr (Or.inr ⟨he, hnew⟩), hk⟩
    simp only [uncoveredId, hsame, hid, not_false_eq_true, true_and]

/-- A work list whose rows carry the fingerprint of their vector: what it lists and what
its writer takes and leaves, with `nulls` when a row without a fingerprint is listed. -/
structure StampedWork (spec : EmbeddingSpec V) {S : Type*} (work : WorkList S ChunkEmbeddingInput Text StoreError)
    (R : Type*) where
  rows : S → R → Prop
  embeddings : S → Table (EmbeddingRow.chunkId : EmbeddingRow V → Text)
  rowId : R → Text
  text : R → Text
  stamp : R → Option Text
  restamp : R → R
  nulls : Bool
  uncovered : S → R → Bool
  key_eq : work.key = ChunkEmbeddingInput.chunkId
  uncovered_eq : ∀ s row, uncovered s row =
    uncoveredId (embeddings s) spec.fingerprint spec.model EmbeddingSpec.dimension (rowId row)
  unique : ∀ s row row', rows s row → rows s row' → rowId row = rowId row' → row = row'
  restamp_id : ∀ row, rowId (restamp row) = rowId row
  restamp_stamp : ∀ row, stamp (restamp row) = some spec.fingerprint
  limited : ∀ s limit, work.load s (some limit) = (work.load s none).take limit
  nodup : ∀ s, ((work.load s none).map ChunkEmbeddingInput.chunkId).Nodup
  listed : ∀ s item, item ∈ work.load s none ↔
    ∃ row, rows s row ∧ ((nulls && (stamp row).isNone) || uncovered s row) = true ∧ item = ⟨rowId row, text row⟩
  refused : ∀ s items s', work.write s items = .ok s' → ∀ item ∈ items,
    ∃ row, rows s row ∧ rowId row = item.chunkId ∧ (stamp row = none ∨ stamp row = some spec.fingerprint)
  stamped : ∀ s items, (items.map ChunkEmbeddingInput.chunkId).Nodup →
    (∀ item ∈ items, ∃ row, rows s row ∧ rowId row = item.chunkId ∧ (stamp row = none ∨ stamp row = some spec.fingerprint)) →
    ∃ s', work.write s items = .ok s' ∧
      embeddings s' = (embeddings s).upsertAll ((items.map spec.insertOf).map ProjectionStore.embeddingRow) ∧
      ∀ row, rows s' row ↔ ∃ old, rows s old ∧
        row = if rowId old ∈ items.map ChunkEmbeddingInput.chunkId then restamp old else old

namespace StampedWork

variable {spec : EmbeddingSpec V} {S R : Type*} {work : WorkList S ChunkEmbeddingInput Text StoreError}

/-- No row still to be embedded carries the fingerprint of another model. -/
def Unclaimed (w : StampedWork spec work R) (s : S) : Prop :=
  ∀ row, w.rows s row → w.uncovered s row = true → w.stamp row = none ∨ w.stamp row = some spec.fingerprint

variable (w : StampedWork spec work R)

theorem unclaimed_of_accepted {s : S} (h : ∀ item ∈ work.load s none, ∃ s', work.write s [item] = .ok s') :
    w.Unclaimed s := by
  intro row hrow huncovered
  have hlisted := (w.listed s ⟨w.rowId row, w.text row⟩).mpr ⟨row, hrow, by simp [huncovered], rfl⟩
  obtain ⟨s', hwrite⟩ := h _ hlisted
  obtain ⟨row', hrow', hid, hstamp⟩ := w.refused s _ s' hwrite _ (List.mem_singleton_self _)
  rwa [← w.unique s row' row hrow' hrow hid]

theorem agrees : work.Agrees w.Unclaimed := by
  refine ⟨w.limited, fun s => w.key_eq ▸ w.nodup s, fun s items hs hlisted hnodup => ?_⟩
  rw [w.key_eq] at hnodup ⊢
  have haccepts : ∀ item ∈ items, ∃ row, w.rows s row ∧ w.rowId row = item.chunkId ∧
      (w.stamp row = none ∨ w.stamp row = some spec.fingerprint) := by
    intro item hi
    obtain ⟨row, hrow, hneeds, rfl⟩ := (w.listed s item).mp (hlisted item hi)
    refine ⟨row, hrow, rfl, ?_⟩
    by_cases huncovered : w.uncovered s row = true
    · exact hs row hrow huncovered
    · have hnull : (w.stamp row).isNone = true := by simp_all
      exact Or.inl (Option.isNone_iff_eq_none.mp hnull)
  obtain ⟨s', hwrite, hembeddings, hrows⟩ := w.stamped s items hnodup haccepts
  have huncovered : ∀ row, w.uncovered s' row = true ↔
      w.rowId row ∉ items.map ChunkEmbeddingInput.chunkId ∧ w.uncovered s row = true := by
    intro row
    rw [w.uncovered_eq, w.uncovered_eq, hembeddings]
    exact uncoveredId_upsertAll hnodup (w.embeddings s) (w.rowId row)
  refine ⟨s', hwrite, fun row hrow hun => ?_, fun item => ?_⟩
  · obtain ⟨old, hold, rfl⟩ := (hrows row).mp hrow
    by_cases hmem : w.rowId old ∈ items.map ChunkEmbeddingInput.chunkId
    · rw [if_pos hmem]
      exact Or.inr (w.restamp_stamp old)
    · rw [if_neg hmem] at hun ⊢
      exact hs old hold ((huncovered old).mp hun).2
  · rw [w.listed, w.listed]
    constructor
    · rintro ⟨row, hrow, hneeds, rfl⟩
      obtain ⟨old, hold, rfl⟩ := (hrows row).mp hrow
      by_cases hmem : w.rowId old ∈ items.map ChunkEmbeddingInput.chunkId
      · rw [if_pos hmem] at hneeds
        have hnot : ¬ w.uncovered s' (w.restamp old) = true := fun hun =>
          ((huncovered _).mp hun).1 (by rwa [w.restamp_id])
        simp [w.restamp_stamp, hnot] at hneeds
      · rw [if_neg hmem] at hneeds ⊢
        refine ⟨⟨old, hold, ?_, rfl⟩, hmem⟩
        rw [Bool.or_eq_true] at hneeds ⊢
        exact hneeds.imp id fun hun => ((huncovered old).mp hun).2
    · rintro ⟨⟨row, hrow, hneeds, rfl⟩, hmem⟩
      refine ⟨row, (hrows row).mpr ⟨row, hrow, by rw [if_neg hmem]⟩, ?_, rfl⟩
      rw [Bool.or_eq_true] at hneeds ⊢
      exact hneeds.imp id fun hun => (huncovered row).mpr ⟨hmem, hun⟩

theorem drains_iff (s : S) : work.Drains embedStreamPageSize s ↔ w.Unclaimed s := by
  constructor
  · intro h
    exact w.unclaimed_of_accepted h.accepted
  · intro h
    exact w.agrees.drains (by decide) h

end StampedWork

end CorpusFeed
