import CorpusFeed.DenseRun
import CorpusFeed.EmbeddingWork

/-! Both embedding loops come to their end exactly from the stores in which no row still
to be embedded carries the fingerprint of another model. -/

namespace CorpusFeed

variable {V : Type*} {spec : EmbeddingSpec V}

theorem nodup_insertOf (items : List ChunkEmbeddingInput) :
    ((items.map spec.insertOf).map ChunkEmbeddingInsert.chunkId).Nodup ↔
      (items.map ChunkEmbeddingInput.chunkId).Nodup := by
  rw [List.map_map]
  rfl

theorem find_oversized (items : List ChunkEmbeddingInput) :
    (items.map spec.insertOf).find? (fun item => decide (2 ^ 31 ≤ item.dimension)) = none := by
  rw [List.find?_eq_none]
  intro item hi
  obtain ⟨input, _, rfl⟩ := List.mem_map.mp hi
  simp [EmbeddingSpec.insertOf, EmbeddingSpec.dimension]

theorem all_dimension (items : List ChunkEmbeddingInput) :
    (items.map spec.insertOf).all (fun item => (item.dimension : Int) == denseVectorDimension) = true := by
  rw [List.all_eq_true]
  intro item hi
  obtain ⟨input, _, rfl⟩ := List.mem_map.mp hi
  rfl

theorem staged_insertOf (items : List ChunkEmbeddingInput) (id : Text) :
    ProjectionStore.staged (items.map spec.insertOf) id = (items.find? fun item => item.chunkId = id).map spec.insertOf := by
  rw [ProjectionStore.staged, List.find?_map]
  rfl

theorem find_item_eq_none {items : List ChunkEmbeddingInput} {id : Text} :
    (items.find? fun item => decide (item.chunkId = id)) = none ↔ id ∉ items.map ChunkEmbeddingInput.chunkId := by
  rw [List.find?_eq_none, List.mem_map, not_exists]
  simp

theorem mem_of_find_item {items : List ChunkEmbeddingInput} {item : ChunkEmbeddingInput} {id : Text}
    (h : (items.find? fun item => decide (item.chunkId = id)) = some item) :
    id ∈ items.map ChunkEmbeddingInput.chunkId := by
  have hid : item.chunkId = id := by simpa using List.find?_some h
  exact hid ▸ List.mem_map_of_mem (List.mem_of_find?_eq_some h)

theorem nodup_listed {R : Type*} {key : R → Text} {item : R → ChunkEmbeddingInput} (t : Table key) (p : R → Bool)
    (r : R → R → Prop) [DecidableRel r] (hitem : ∀ row, (item row).chunkId = key row) :
    ((((t.rows.filter p).insertionSort r).map item).map ChunkEmbeddingInput.chunkId).Nodup := by
  have hkey : ChunkEmbeddingInput.chunkId ∘ item = key := funext hitem
  rw [List.map_map, hkey, ((List.perm_insertionSort r _).map key).nodup_iff]
  exact t.nodup.sublist (List.filter_sublist.map key)

theorem admits_iff {fingerprint : Text} {stamp : Option Text} :
    (stamp.isNone || stamp == some fingerprint) = true ↔ stamp = none ∨ stamp = some fingerprint := by
  rw [Bool.or_eq_true, Option.isNone_iff_eq_none, beq_iff_eq]

namespace ProjectionStore

theorem acceptsVector_iff {s : ProjectionStore V} {item : ChunkEmbeddingInput} :
    s.acceptsVector (spec.insertOf item) = true ↔ ∃ row, row ∈ s.chunks ∧ row.id = item.chunkId ∧
      (row.embeddingFingerprint = none ∨ row.embeddingFingerprint = some spec.fingerprint) := by
  unfold acceptsVector
  apply Table.accepts_iff (k := (spec.insertOf item).chunkId)
  · intro hnone
    rw [hnone]
  · intro row hrow
    rw [hrow]
    exact admits_iff

theorem stampStaged_insertOf (items : List ChunkEmbeddingInput) (row : ChunkRow) :
    stampStaged (items.map spec.insertOf) row =
      if row.id ∈ items.map ChunkEmbeddingInput.chunkId then stampFingerprint spec.fingerprint row else row := by
  rw [stampStaged, staged_insertOf]
  cases hfind : items.find? fun item => decide (item.chunkId = row.id) with
  | none => rw [if_neg (find_item_eq_none.mp hfind), Option.map_none]
  | some item =>
    rw [if_pos (mem_of_find_item hfind)]
    rfl

theorem insertChunkEmbeddings_insertOf {s : ProjectionStore V} {collate : Text → Text → Bool}
    {items : List ChunkEmbeddingInput} (hne : items ≠ []) (hnodup : (items.map ChunkEmbeddingInput.chunkId).Nodup)
    (hall : (items.map spec.insertOf).all s.acceptsVector = true) :
    s.insertChunkEmbeddings collate (items.map spec.insertOf) = .ok { s with
      chunks := s.chunks.update (fun _ => true) (stampStaged (items.map spec.insertOf)) (stampStaged_id _)
      chunkEmbeddings := s.chunkEmbeddings.upsertAll ((items.map spec.insertOf).map embeddingRow) } := by
  rw [insertChunkEmbeddings, if_neg (by simpa using hne), find_oversized]
  simp only [nodup_insertOf, hnodup, hall, all_dimension, if_true]

def stampedWork (collate : Text → Text → Bool) (spec : EmbeddingSpec V) :
    StampedWork spec (chunkWork collate spec) ChunkRow where
  rows s row := row ∈ s.chunks
  embeddings s := s.chunkEmbeddings
  rowId := ChunkRow.id
  text row := embeddingText row.chunk
  stamp := ChunkRow.embeddingFingerprint
  restamp := stampFingerprint spec.fingerprint
  nulls := true
  uncovered s := s.uncovered spec.fingerprint spec.model EmbeddingSpec.dimension
  key_eq := rfl
  uncovered_eq _ _ := rfl
  unique _ _ _ h h' hid := Table.eq_of_key_eq h h' hid
  restamp_id _ := rfl
  restamp_stamp _ := rfl
  limited _ _ := List.map_take
  nodup s := nodup_listed s.chunks _ _ fun _ => rfl
  listed s item := mem_load_iff
  refused s items s' h item hi := by
    rcases insertChunkEmbeddings_cases h with ⟨hnil, _⟩ | ⟨_, haccepts, _⟩
    · rw [List.map_eq_nil_iff.mp hnil] at hi
      cases hi
    · exact acceptsVector_iff.mp (haccepts _ (List.mem_map_of_mem hi))
  stamped s items hnodup haccepts := by
    by_cases hne : items = []
    · rw [hne]
      exact ⟨s, rfl, rfl, fun row => by simp⟩
    · have hall : (items.map spec.insertOf).all s.acceptsVector = true := by
        rw [List.all_eq_true]
        intro item hi
        obtain ⟨input, hinput, rfl⟩ := List.mem_map.mp hi
        exact acceptsVector_iff.mpr (haccepts input hinput)
      refine ⟨_, insertChunkEmbeddings_insertOf hne hnodup hall, rfl, fun row => ?_⟩
      simp only [Table.mem_update_all, stampStaged_insertOf, eq_comm]

end ProjectionStore

namespace ZoneEmbeddingStore

variable {collate : Text → Text → Bool} {s s' : ZoneEmbeddingStore V}

theorem mem_load_iff {fingerprint model : Text} {dimension : Int} {item : ChunkEmbeddingInput} :
    item ∈ s.loadZoneUnitEmbeddingInputs collate fingerprint model dimension none ↔
      ∃ row, row ∈ s.zoneUnits ∧
        uncoveredId s.zoneUnitEmbeddings fingerprint model dimension row.zoneUnitId = true ∧
        item = ⟨row.zoneUnitId, row.body⟩ := by
  simp only [loadZoneUnitEmbeddingInputs, List.mem_map, List.mem_insertionSort, List.mem_filter, Table.mem_rows]
  constructor
  · rintro ⟨row, ⟨hr, hneeds⟩, rfl⟩
    exact ⟨row, hr, hneeds, rfl⟩
  · rintro ⟨row, hr, hneeds, rfl⟩
    exact ⟨row, ⟨hr, hneeds⟩, rfl⟩

theorem insertZoneUnitEmbeddings_accepts {items : List (ChunkEmbeddingInsert V)}
    (h : s.insertZoneUnitEmbeddings collate items = .ok s') : ∀ item ∈ items, s.acceptsVector item = true := by
  unfold insertZoneUnitEmbeddings at h
  split at h
  · next hempty =>
    rw [List.isEmpty_iff.mp hempty]
    intro item hi
    cases hi
  split at h
  · cases h
  split at h
  · split at h
    · next hall => exact List.all_eq_true.mp hall
    · cases h
  · cases h

theorem acceptsVector_iff {item : ChunkEmbeddingInput} :
    s.acceptsVector (spec.insertOf item) = true ↔ ∃ row, row ∈ s.zoneUnits ∧ row.zoneUnitId = item.chunkId ∧
      (row.embeddingFingerprint = none ∨ row.embeddingFingerprint = some spec.fingerprint) := by
  unfold acceptsVector
  apply Table.accepts_iff (k := (spec.insertOf item).chunkId)
  · intro hnone
    rw [hnone]
  · intro row hrow
    rw [hrow]
    exact admits_iff

def stampFingerprint (fingerprint : Text) (row : ZoneUnitTarget) : ZoneUnitTarget :=
  { row with embeddingFingerprint := some fingerprint }

theorem stampStaged_insertOf (items : List ChunkEmbeddingInput) (row : ZoneUnitTarget) :
    stampStaged (items.map spec.insertOf) row =
      if row.zoneUnitId ∈ items.map ChunkEmbeddingInput.chunkId then stampFingerprint spec.fingerprint row else row := by
  rw [stampStaged, staged_insertOf]
  cases hfind : items.find? fun item => decide (item.chunkId = row.zoneUnitId) with
  | none => rw [if_neg (find_item_eq_none.mp hfind), Option.map_none]
  | some item =>
    rw [if_pos (mem_of_find_item hfind)]
    rfl

theorem insertZoneUnitEmbeddings_insertOf {items : List ChunkEmbeddingInput} (hne : items ≠ [])
    (hnodup : (items.map ChunkEmbeddingInput.chunkId).Nodup)
    (hall : (items.map spec.insertOf).all s.acceptsVector = true) :
    s.insertZoneUnitEmbeddings collate (items.map spec.insertOf) = .ok { s with
      zoneUnits := s.zoneUnits.update (fun _ => true) (stampStaged (items.map spec.insertOf)) (stampStaged_id _)
      zoneUnitEmbeddings :=
        s.zoneUnitEmbeddings.upsertAll ((items.map spec.insertOf).map ProjectionStore.embeddingRow) } := by
  rw [insertZoneUnitEmbeddings, if_neg (by simpa using hne), find_oversized]
  simp only [nodup_insertOf, hnodup, hall, all_dimension, if_true]

def stampedWork (collate : Text → Text → Bool) (spec : EmbeddingSpec V) :
    StampedWork spec (zoneUnitWork collate spec) ZoneUnitTarget where
  rows s row := row ∈ s.zoneUnits
  embeddings s := s.zoneUnitEmbeddings
  rowId := ZoneUnitTarget.zoneUnitId
  text := ZoneUnitTarget.body
  stamp := ZoneUnitTarget.embeddingFingerprint
  restamp := stampFingerprint spec.fingerprint
  nulls := false
  uncovered s row := uncoveredId s.zoneUnitEmbeddings spec.fingerprint spec.model EmbeddingSpec.dimension row.zoneUnitId
  key_eq := rfl
  uncovered_eq _ _ := rfl
  unique _ _ _ h h' hid := Table.eq_of_key_eq h h' hid
  restamp_id _ := rfl
  restamp_stamp _ := rfl
  limited _ _ := List.map_take
  nodup s := nodup_listed s.zoneUnits _ _ fun _ => rfl
  listed s item := by
    simp only [Bool.false_and, Bool.false_or]
    exact mem_load_iff
  refused s items s' h item hi :=
    acceptsVector_iff.mp (insertZoneUnitEmbeddings_accepts h _ (List.mem_map_of_mem hi))
  stamped s items hnodup haccepts := by
    by_cases hne : items = []
    · rw [hne]
      exact ⟨s, rfl, rfl, fun row => by simp⟩
    · have hall : (items.map spec.insertOf).all s.acceptsVector = true := by
        rw [List.all_eq_true]
        intro item hi
        obtain ⟨input, hinput, rfl⟩ := List.mem_map.mp hi
        exact acceptsVector_iff.mpr (haccepts input hinput)
      refine ⟨_, insertZoneUnitEmbeddings_insertOf hne hnodup hall, rfl, fun row => ?_⟩
      simp only [Table.mem_update_all, stampStaged_insertOf, eq_comm]

end ZoneEmbeddingStore

/-- A row still to be embedded is free, or already claimed for the configured model. -/
theorem embedding_lists_drain_iff (collate : Text → Text → Bool) (spec : EmbeddingSpec V) (s : ProjectionStore V)
    (z : ZoneEmbeddingStore V) :
    ((chunkWork collate spec).Drains embedStreamPageSize s ∧ (zoneUnitWork collate spec).Drains embedStreamPageSize z) ↔
      (∀ row, row ∈ s.chunks → s.uncovered spec.fingerprint spec.model EmbeddingSpec.dimension row = true →
        row.embeddingFingerprint = none ∨ row.embeddingFingerprint = some spec.fingerprint) ∧
      (∀ row, row ∈ z.zoneUnits →
        uncoveredId z.zoneUnitEmbeddings spec.fingerprint spec.model EmbeddingSpec.dimension row.zoneUnitId = true →
        row.embeddingFingerprint = none ∨ row.embeddingFingerprint = some spec.fingerprint) := by
  rw [(ProjectionStore.stampedWork collate spec).drains_iff, (ZoneEmbeddingStore.stampedWork collate spec).drains_iff]
  exact Iff.rfl

/-- The corpus of one chunk, embedded and stamped under the model it was built with. -/
def embeddedOnce : ProjectionStore Text :=
  (runFrom (DenseSystem.step DenseSystem.echoSetup) DenseSystem.start DenseSystem.embedOnce).store

def laterModel : EmbeddingSpec Text := ⟨"e5:1024:normalize:true".toList, "e5".toList, fun text => text⟩

/-- Under a later model the chunk is listed, and the writer refuses it. -/
theorem restamp_refused : ¬ ((chunkWork (fun _ _ => true) laterModel).Drains embedStreamPageSize embeddedOnce ∧
    (zoneUnitWork (fun _ _ => true) laterModel).Drains embedStreamPageSize ⟨Table.empty, Table.empty⟩) := by
  rintro ⟨hchunks, _⟩
  have hlisted : DenseSystem.bodyItem "a".toList ∈ (chunkWork (fun _ _ => true) laterModel).load embeddedOnce none := by decide
  obtain ⟨s', hwrite⟩ := hchunks.accepted _ hlisted
  have hrefused : (embeddedOnce.insertChunkEmbeddings (fun _ _ => true)
      ([DenseSystem.bodyItem "a".toList].map laterModel.insertOf)).isOk = false := by decide
  have hwrite' : embeddedOnce.insertChunkEmbeddings (fun _ _ => true)
      ([DenseSystem.bodyItem "a".toList].map laterModel.insertOf) = .ok s' := hwrite
  rw [hwrite'] at hrefused
  cases hrefused

end CorpusFeed
