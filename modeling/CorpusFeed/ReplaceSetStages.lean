import CorpusFeed.IncrementalStages

/-! The replace-sets of an incremental package: each clears the scope of one
document and refills it with the producer's rows, and reads back the digest the
producer signed. -/

namespace CorpusFeed

namespace Replica

/-- What the replace-sets have left to do, once the base tables are in place. -/
structure SetsLeft (hi : Tables) (wide only units zones : List Text) (db : Tables) : Prop where
  documents : db.documents.Same hi.documents
  responses : db.officialApiResponses.Same hi.officialApiResponses
  edges : db.graphEdges.Same hi.graphEdges
  roots : db.legiMetadataRoots.Same hi.legiMetadataRoots
  resolutions : db.citationResolutions.Same hi.citationResolutions
  citations : db.decisionCitations.Same hi.decisionCitations
  chunks : AgreeOutside ChunkRow.documentId wide db.chunks hi.chunks
  chunkEmbeddings : AgreeOutside (fun e : ChunkEmbeddingRow => chunkOwner e.chunkId) (wide ++ only)
    db.chunkEmbeddings hi.chunkEmbeddings
  zoneUnits : AgreeOutside ZoneUnitRow.documentId units db.zoneUnits hi.zoneUnits
  zoneUnitEmbeddings : AgreeOutside (fun e : ZoneUnitEmbeddingRow => zoneUnitOwner e.zoneUnitId) units
    db.zoneUnitEmbeddings hi.zoneUnitEmbeddings
  decisionZones : AgreeOutside DecisionZonesRow.documentId zones db.decisionZones hi.decisionZones
  embeddingChunk : ∀ e ∈ db.chunkEmbeddings, db.chunks.hasKey e.chunkId = true
  embeddingUnit : ∀ e ∈ db.zoneUnitEmbeddings, db.zoneUnits.hasKey e.zoneUnitId = true

section Scopes

variable {db hi : Tables} {d : Text}

theorem mem_scope_beq {R K D : Type} [BEq D] [LawfulBEq D] {key : R → K} {t : Table key} {order : KeyOrder R}
    (scope : R → D) (k : D) (r : R) : r ∈ t.scopeRows order (fun r => scope r == k) ↔ r ∈ t ∧ scope r = k := by
  rw [Table.mem_scopeRows]
  simp

theorem mem_chunkOf (h : ∀ e ∈ db.chunkEmbeddings, db.chunks.hasKey e.chunkId = true) (e : ChunkEmbeddingRow) :
    e ∈ db.chunkEmbeddings ∧ db.chunkOf d e.chunkId = true ↔ e ∈ db.chunkEmbeddings ∧ chunkOwner e.chunkId = d :=
  and_congr_right fun he => chunkOf_iff (h e he)

theorem mem_zoneUnitOf (h : ∀ e ∈ db.zoneUnitEmbeddings, db.zoneUnits.hasKey e.zoneUnitId = true)
    (e : ZoneUnitEmbeddingRow) : e ∈ db.zoneUnitEmbeddings ∧ db.zoneUnitOf d e.zoneUnitId = true ↔
      e ∈ db.zoneUnitEmbeddings ∧ zoneUnitOwner e.zoneUnitId = d :=
  and_congr_right fun he => zoneUnitOf_iff (h e he)

theorem mem_scope_of_refilled {R K : Type} {key : R → K} {t u next : Table key} {scope : R → Text}
    (h : Refilled scope d t u next) (r : R) : r ∈ next ∧ scope r = d ↔ r ∈ u ∧ scope r = d := by
  apply and_congr_left
  intro hd
  rw [h r, if_pos hd]

end Scopes

section Steps

variable {D : Type} [DecidableEq D] {collation : Collation} {digest digest' : ReplaceSetRows → D} {corpus : Corpus}
  {hi db : Tables} {wide only units zones : List Text} {d : Text}

theorem tied_byText {R : Type} {key : R → Text} {a b : R} (h : (byText collation key).Tied a b) : key a = key b :=
  KeyOrder.tied_text h

variable (collation digest digest') in
/-- The builder and the applier take one digest of each set of these rows. -/
def SameDigests (hi : Tables) : Prop :=
  ∀ group d, digest' (hi.replaceSetRows collation group d) = digest (hi.replaceSetRows collation group d)

/-- The digest a client reads back after a set whose scope it now shares. -/
theorem applyCheckedSet_ok {group : ReplaceSetGroup} {next : Tables} (halike : SameDigests collation digest digest' hi)
    (happly : db.applyReplaceSet d (hi.replaceSetRows collation group d) = some next)
    (hgroup : (hi.replaceSetRows collation group d).group = group)
    (hread : next.replaceSetRows collation group d = hi.replaceSetRows collation group d) :
    db.applyCheckedSet collation digest' (hi.materializeReplaceSet collation digest group d) = .ok next := by
  simp only [Tables.applyCheckedSet, Tables.materializeReplaceSet, happly, hgroup, hread, halike group d, if_true]

theorem chunkEmbeddings_refilled {t : Table ChunkRow.chunkId} (hhi : Consistent corpus hi)
    (hdb : ∀ e ∈ db.chunkEmbeddings, db.chunks.hasKey e.chunkId = true)
    (ht : Refilled ChunkRow.documentId d db.chunks hi.chunks t) :
    ∃ next, (db.chunkEmbeddings.filter fun e => !db.chunkOf d e.chunkId).insertRows (fun e => t.hasKey e.chunkId)
        (hi.chunkEmbeddings.scopeRows (byText collation ChunkEmbeddingRow.chunkId)
          fun e => hi.chunkOf d e.chunkId) = some next ∧
      Refilled (fun e : ChunkEmbeddingRow => chunkOwner e.chunkId) d db.chunkEmbeddings hi.chunkEmbeddings next := by
  have hrows : ∀ e, e ∈ hi.chunkEmbeddings.scopeRows (byText collation ChunkEmbeddingRow.chunkId)
      (fun e => hi.chunkOf d e.chunkId) ↔ e ∈ hi.chunkEmbeddings ∧ chunkOwner e.chunkId = d :=
    fun e => Table.mem_scopeRows.trans (mem_chunkOf hhi.keys.embeddingChunk e)
  exact refs_refilled chunkOwner_chunkId (mem_cleared_embeddings hdb) hrows (Table.scopeRows_nodup _ _)
    (fun _ _ hk => hk) hhi.keys.embeddingChunk ht

theorem chunkEmbeddings_read (hhi : Consistent corpus hi)
    (hdb : ∀ e ∈ db.chunkEmbeddings, db.chunks.hasKey e.chunkId = true)
    (h : ∀ e, e ∈ db.chunkEmbeddings ∧ chunkOwner e.chunkId = d ↔
      e ∈ hi.chunkEmbeddings ∧ chunkOwner e.chunkId = d) :
    db.chunkEmbeddings.scopeRows (byText collation ChunkEmbeddingRow.chunkId) (fun e => db.chunkOf d e.chunkId) =
      hi.chunkEmbeddings.scopeRows (byText collation ChunkEmbeddingRow.chunkId) fun e => hi.chunkOf d e.chunkId := by
  apply Table.scopeRows_congr fun _ _ => tied_byText
  intro e
  exact ((mem_chunkOf hdb e).trans (h e)).trans (mem_chunkOf hhi.keys.embeddingChunk e).symm

theorem unitEmbeddings_read (hhi : Consistent corpus hi)
    (hdb : ∀ e ∈ db.zoneUnitEmbeddings, db.zoneUnits.hasKey e.zoneUnitId = true)
    (h : ∀ e, e ∈ db.zoneUnitEmbeddings ∧ zoneUnitOwner e.zoneUnitId = d ↔
      e ∈ hi.zoneUnitEmbeddings ∧ zoneUnitOwner e.zoneUnitId = d) :
    db.zoneUnitEmbeddings.scopeRows (byText collation ZoneUnitEmbeddingRow.zoneUnitId)
        (fun e => db.zoneUnitOf d e.zoneUnitId) =
      hi.zoneUnitEmbeddings.scopeRows (byText collation ZoneUnitEmbeddingRow.zoneUnitId)
        fun e => hi.zoneUnitOf d e.zoneUnitId := by
  apply Table.scopeRows_congr fun _ _ => tied_byText
  intro e
  exact ((mem_zoneUnitOf hdb e).trans (h e)).trans (mem_zoneUnitOf hhi.keys.embeddingUnit e).symm

/-- A table whose scope of one document was refilled reads it as the target does. -/
theorem scope_read {R : Type} {key : R → Text} {t u next : Table key} {scope : R → Text}
    (h : Refilled scope d t u next) : next.scopeRows (byText collation key) (fun r => scope r == d) =
      u.scopeRows (byText collation key) fun r => scope r == d := by
  apply Table.scopeRows_congr fun _ _ => tied_byText
  intro r
  rw [beq_iff_eq]
  exact mem_scope_of_refilled h r

theorem chunks_refilled (hhi : Consistent corpus hi) (hdocuments : db.documents.Same hi.documents) :
    ∃ next, (db.chunks.filter fun c => c.documentId ≠ d).insertRows (fun c => db.documents.hasKey c.documentId)
        (hi.chunks.scopeRows (byText collation ChunkRow.chunkId) fun c => c.documentId == d) = some next ∧
      Refilled ChunkRow.documentId d db.chunks hi.chunks next := by
  apply refilled_insert _ (mem_scope_beq ChunkRow.documentId d)
  · exact Table.scopeRows_nodup _ _
  · intro r _ s _ hk
    exact chunkId_inj hk
  · intro c hc
    rw [hdocuments.hasKey_eq]
    exact hhi.keys.chunkDocument c ((mem_scope_beq ChunkRow.documentId d c).mp hc).1
  · intro c
    rw [Table.mem_filter, decide_eq_true_eq]

/-- One set of chunks and their embeddings. -/
theorem SetsLeft.chunks_step (hhi : Consistent corpus hi) (halike : SameDigests collation digest digest' hi)
    (h : SetsLeft hi (d :: wide) only units zones db) :
    ∃ db', db.applyCheckedSet collation digest' (hi.materializeReplaceSet collation digest .chunksWithEmbeddings d) =
      .ok db' ∧ SetsLeft hi wide only units zones db' := by
  obtain ⟨t, hinsert, hrefill⟩ : ∃ next, (db.chunks.filter fun c => c.documentId ≠ d).insertRows
      (fun c => db.documents.hasKey c.documentId)
      (hi.chunks.scopeRows (byText collation ChunkRow.chunkId) fun c => c.documentId == d) = some next ∧
      Refilled ChunkRow.documentId d db.chunks hi.chunks next := chunks_refilled hhi h.documents
  obtain ⟨e, hinsertE, hrefillE⟩ : ∃ next, (db.chunkEmbeddings.filter fun e => !db.chunkOf d e.chunkId).insertRows
      (fun e => t.hasKey e.chunkId)
      (hi.chunkEmbeddings.scopeRows (byText collation ChunkEmbeddingRow.chunkId)
        fun e => hi.chunkOf d e.chunkId) = some next ∧
      Refilled (fun e : ChunkEmbeddingRow => chunkOwner e.chunkId) d db.chunkEmbeddings hi.chunkEmbeddings next :=
    chunkEmbeddings_refilled hhi h.embeddingChunk hrefill
  have hkeys : ∀ row ∈ e, t.hasKey row.chunkId = true :=
    refs_resolve chunkOwner_chunkId h.embeddingChunk hhi.keys.embeddingChunk hrefill hrefillE
  let next : Tables := { db with chunks := t, chunkEmbeddings := e }
  have happly : db.applyReplaceSet d (hi.replaceSetRows collation .chunksWithEmbeddings d) = some next := by
    simp only [Tables.applyReplaceSet, Tables.replaceSetRows, Tables.insertChunks, Tables.insertChunkEmbeddings,
      Tables.deleteChunks, hinsert, Option.map_some, Option.bind_some, hinsertE, next]
  refine ⟨next, applyCheckedSet_ok halike happly rfl ?_, ?_⟩
  · have hembeddings : next.chunkEmbeddings.scopeRows (byText collation ChunkEmbeddingRow.chunkId)
        (fun e => next.chunkOf d e.chunkId) =
        hi.chunkEmbeddings.scopeRows (byText collation ChunkEmbeddingRow.chunkId) fun e => hi.chunkOf d e.chunkId :=
      chunkEmbeddings_read hhi hkeys (mem_scope_of_refilled hrefillE)
    simp only [Tables.replaceSetRows, hembeddings]
    rw [show next.chunks = t from rfl, scope_read hrefill]
  · exact { h with
      chunks := h.chunks.refill hrefill
      chunkEmbeddings := h.chunkEmbeddings.refill hrefillE
      embeddingChunk := hkeys }

/-- One set of embeddings alone, over chunks that are already in place. -/
theorem SetsLeft.embeddings_step (hhi : Consistent corpus hi) (halike : SameDigests collation digest digest' hi)
    (h : SetsLeft hi [] (d :: only) units zones db) :
    ∃ db', db.applyCheckedSet collation digest' (hi.materializeReplaceSet collation digest .chunkEmbeddings d) =
      .ok db' ∧ SetsLeft hi [] only units zones db' := by
  have hsame : db.chunks.Same hi.chunks := agreeOutside_nil.mp h.chunks
  have hparents : Refilled ChunkRow.documentId d db.chunks hi.chunks db.chunks := refilled_of_same hsame
  obtain ⟨e, hinsertE, hrefillE⟩ : ∃ next, (db.chunkEmbeddings.filter fun e => !db.chunkOf d e.chunkId).insertRows
      (fun e => db.chunks.hasKey e.chunkId)
      (hi.chunkEmbeddings.scopeRows (byText collation ChunkEmbeddingRow.chunkId)
        fun e => hi.chunkOf d e.chunkId) = some next ∧
      Refilled (fun e : ChunkEmbeddingRow => chunkOwner e.chunkId) d db.chunkEmbeddings hi.chunkEmbeddings next :=
    chunkEmbeddings_refilled hhi h.embeddingChunk hparents
  have hkeys : ∀ row ∈ e, db.chunks.hasKey row.chunkId = true :=
    refs_resolve chunkOwner_chunkId h.embeddingChunk hhi.keys.embeddingChunk hparents hrefillE
  let next : Tables := { db with chunkEmbeddings := e }
  have happly : db.applyReplaceSet d (hi.replaceSetRows collation .chunkEmbeddings d) = some next := by
    simp only [Tables.applyReplaceSet, Tables.replaceSetRows, Tables.insertChunkEmbeddings,
      Tables.deleteChunkEmbeddings, hinsertE, Option.map_some, next]
  refine ⟨next, applyCheckedSet_ok halike happly rfl ?_, ?_⟩
  · have hembeddings : next.chunkEmbeddings.scopeRows (byText collation ChunkEmbeddingRow.chunkId)
        (fun e => next.chunkOf d e.chunkId) =
        hi.chunkEmbeddings.scopeRows (byText collation ChunkEmbeddingRow.chunkId) fun e => hi.chunkOf d e.chunkId :=
      chunkEmbeddings_read hhi hkeys (mem_scope_of_refilled hrefillE)
    simp only [Tables.replaceSetRows, hembeddings]
  · exact { h with
      chunkEmbeddings := AgreeOutside.refill h.chunkEmbeddings hrefillE
      embeddingChunk := hkeys }

/-- One set of zone units and their embeddings. -/
theorem SetsLeft.units_step (hhi : Consistent corpus hi) (halike : SameDigests collation digest digest' hi)
    (h : SetsLeft hi wide only (d :: units) zones db) :
    ∃ db', db.applyCheckedSet collation digest' (hi.materializeReplaceSet collation digest .zoneUnits d) =
      .ok db' ∧ SetsLeft hi wide only units zones db' := by
  obtain ⟨t, hinsert, hrefill⟩ : ∃ next, (db.zoneUnits.filter fun u => u.documentId ≠ d).insertRows
      (fun u => db.documents.hasKey u.documentId)
      (hi.zoneUnits.scopeRows (byText collation ZoneUnitRow.zoneUnitId) fun u => u.documentId == d) = some next ∧
      Refilled ZoneUnitRow.documentId d db.zoneUnits hi.zoneUnits next := by
    apply refilled_insert _ (mem_scope_beq ZoneUnitRow.documentId d)
    · exact Table.scopeRows_nodup _ _
    · intro r _ s _ hk
      exact zoneUnitId_inj hk
    · intro u hu
      rw [h.documents.hasKey_eq]
      exact hhi.keys.unitDocument u ((mem_scope_beq ZoneUnitRow.documentId d u).mp hu).1
    · intro u
      rw [Table.mem_filter, decide_eq_true_eq]
  have hrows : ∀ e, e ∈ hi.zoneUnitEmbeddings.scopeRows (byText collation ZoneUnitEmbeddingRow.zoneUnitId)
      (fun e => hi.zoneUnitOf d e.zoneUnitId) ↔ e ∈ hi.zoneUnitEmbeddings ∧ zoneUnitOwner e.zoneUnitId = d :=
    fun e => Table.mem_scopeRows.trans (mem_zoneUnitOf hhi.keys.embeddingUnit e)
  obtain ⟨e, hinsertE, hrefillE⟩ : ∃ next,
      (db.zoneUnitEmbeddings.filter fun e => !db.zoneUnitOf d e.zoneUnitId).insertRows
      (fun e => t.hasKey e.zoneUnitId)
      (hi.zoneUnitEmbeddings.scopeRows (byText collation ZoneUnitEmbeddingRow.zoneUnitId)
        fun e => hi.zoneUnitOf d e.zoneUnitId) = some next ∧
      Refilled (fun e : ZoneUnitEmbeddingRow => zoneUnitOwner e.zoneUnitId) d db.zoneUnitEmbeddings
        hi.zoneUnitEmbeddings next :=
    refs_refilled zoneUnitOwner_zoneUnitId (mem_cleared_unitEmbeddings h.embeddingUnit) hrows
      (Table.scopeRows_nodup _ _) (fun _ _ hk => hk) hhi.keys.embeddingUnit hrefill
  have hkeys : ∀ row ∈ e, t.hasKey row.zoneUnitId = true :=
    refs_resolve zoneUnitOwner_zoneUnitId h.embeddingUnit hhi.keys.embeddingUnit hrefill hrefillE
  let next : Tables := { db with zoneUnits := t, zoneUnitEmbeddings := e }
  have happly : db.applyReplaceSet d (hi.replaceSetRows collation .zoneUnits d) = some next := by
    simp only [Tables.applyReplaceSet, Tables.replaceSetRows, Tables.insertZoneUnits, Tables.insertZoneUnitEmbeddings,
      Tables.deleteZoneUnits, hinsert, Option.map_some, Option.bind_some, hinsertE, next]
  refine ⟨next, applyCheckedSet_ok halike happly rfl ?_, ?_⟩
  · have hembeddings : next.zoneUnitEmbeddings.scopeRows (byText collation ZoneUnitEmbeddingRow.zoneUnitId)
        (fun e => next.zoneUnitOf d e.zoneUnitId) =
        hi.zoneUnitEmbeddings.scopeRows (byText collation ZoneUnitEmbeddingRow.zoneUnitId)
          fun e => hi.zoneUnitOf d e.zoneUnitId :=
      unitEmbeddings_read hhi hkeys (mem_scope_of_refilled hrefillE)
    simp only [Tables.replaceSetRows, hembeddings]
    rw [show next.zoneUnits = t from rfl, scope_read hrefill]
  · exact { h with
      zoneUnits := h.zoneUnits.refill hrefill
      zoneUnitEmbeddings := h.zoneUnitEmbeddings.refill hrefillE
      embeddingUnit := hkeys }

theorem SetsLeft.zones_step (hhi : Consistent corpus hi) (halike : SameDigests collation digest digest' hi)
    (h : SetsLeft hi wide only units (d :: zones) db) :
    ∃ db', db.applyCheckedSet collation digest' (hi.materializeReplaceSet collation digest .decisionZones d) =
      .ok db' ∧ SetsLeft hi wide only units zones db' := by
  obtain ⟨t, hinsert, hrefill⟩ : ∃ next, (db.decisionZones.filter fun z => z.documentId ≠ d).insertRows
      (fun z => db.documents.hasKey z.documentId)
      (hi.decisionZones.scopeRows (byText collation DecisionZonesRow.documentId) fun z => z.documentId == d) =
        some next ∧ Refilled DecisionZonesRow.documentId d db.decisionZones hi.decisionZones next := by
    apply refilled_insert _ (mem_scope_beq DecisionZonesRow.documentId d)
    · exact Table.scopeRows_nodup _ _
    · intro r _ s _ hk
      exact hk
    · intro z hz
      rw [h.documents.hasKey_eq]
      exact hhi.keys.zonesDocument z ((mem_scope_beq DecisionZonesRow.documentId d z).mp hz).1
    · intro z
      rw [Table.mem_filter, decide_eq_true_eq]
  let next : Tables := { db with decisionZones := t }
  have happly : db.applyReplaceSet d (hi.replaceSetRows collation .decisionZones d) = some next := by
    simp only [Tables.applyReplaceSet, Tables.replaceSetRows, Tables.insertDecisionZones, Tables.deleteDecisionZones,
      hinsert, Option.map_some, next]
  refine ⟨next, applyCheckedSet_ok halike happly rfl ?_, ?_⟩
  · simp only [Tables.replaceSetRows]
    rw [show next.decisionZones = t from rfl, scope_read hrefill]
  · exact { h with decisionZones := h.decisionZones.refill hrefill }

theorem applySets_group {P : List Text → Tables → Prop} {mk : Text → ReplaceSet D}
    (hstep : ∀ d ds db, P (d :: ds) db → ∃ db', db.applyCheckedSet collation digest' (mk d) = .ok db' ∧ P ds db')
    (docs : List Text) (hP : P docs db) (rest : List (ReplaceSet D)) :
    ∃ db', Tables.applySets collation digest' (docs.map mk ++ rest) db = Tables.applySets collation digest' rest db' ∧
      P [] db' := by
  induction docs generalizing db with
  | nil => exact ⟨db, rfl, hP⟩
  | cons d docs ih =>
    obtain ⟨next, hnext, hPnext⟩ := hstep d docs db hP
    obtain ⟨db', hsets, hPlast⟩ := ih hPnext
    refine ⟨db', ?_, hPlast⟩
    rw [List.map_cons, List.cons_append, Tables.applySets, hnext]
    exact hsets

theorem SetsLeft.applySets (hhi : Consistent corpus hi) (halike : SameDigests collation digest digest' hi)
    (h : SetsLeft hi wide only units zones db) :
    ∃ db', Tables.applySets collation digest'
        (wide.map (hi.materializeReplaceSet collation digest .chunksWithEmbeddings) ++
          (only.map (hi.materializeReplaceSet collation digest .chunkEmbeddings) ++
          (units.map (hi.materializeReplaceSet collation digest .zoneUnits) ++
          zones.map (hi.materializeReplaceSet collation digest .decisionZones)))) db = .ok db' ∧
      SetsLeft hi [] [] [] [] db' := by
  have hwide : ∀ d ds db, SetsLeft hi (d :: ds) only units zones db → ∃ db', db.applyCheckedSet collation digest'
      (hi.materializeReplaceSet collation digest .chunksWithEmbeddings d) = .ok db' ∧
      SetsLeft hi ds only units zones db' := fun d ds db hP => SetsLeft.chunks_step hhi halike hP
  have honly : ∀ d ds db, SetsLeft hi [] (d :: ds) units zones db → ∃ db', db.applyCheckedSet collation digest'
      (hi.materializeReplaceSet collation digest .chunkEmbeddings d) = .ok db' ∧
      SetsLeft hi [] ds units zones db' := fun d ds db hP => SetsLeft.embeddings_step hhi halike hP
  have hunits : ∀ d ds db, SetsLeft hi [] [] (d :: ds) zones db → ∃ db', db.applyCheckedSet collation digest'
      (hi.materializeReplaceSet collation digest .zoneUnits d) = .ok db' ∧
      SetsLeft hi [] [] ds zones db' := fun d ds db hP => SetsLeft.units_step hhi halike hP
  have hzones : ∀ d ds db, SetsLeft hi [] [] [] (d :: ds) db → ∃ db', db.applyCheckedSet collation digest'
      (hi.materializeReplaceSet collation digest .decisionZones d) = .ok db' ∧
      SetsLeft hi [] [] [] ds db' := fun d ds db hP => SetsLeft.zones_step hhi halike hP
  obtain ⟨db1, h1, hleft1⟩ := applySets_group (P := fun wide db => SetsLeft hi wide only units zones db) hwide wide h
    (only.map (hi.materializeReplaceSet collation digest .chunkEmbeddings) ++
      (units.map (hi.materializeReplaceSet collation digest .zoneUnits) ++
      zones.map (hi.materializeReplaceSet collation digest .decisionZones)))
  obtain ⟨db2, h2, hleft2⟩ := applySets_group (P := fun only db => SetsLeft hi [] only units zones db) honly only
    hleft1 (units.map (hi.materializeReplaceSet collation digest .zoneUnits) ++
      zones.map (hi.materializeReplaceSet collation digest .decisionZones))
  obtain ⟨db3, h3, hleft3⟩ := applySets_group (P := fun units db => SetsLeft hi [] [] units zones db) hunits units
    hleft2 (zones.map (hi.materializeReplaceSet collation digest .decisionZones))
  obtain ⟨db4, h4, hleft4⟩ := applySets_group (P := fun zones db => SetsLeft hi [] [] [] zones db) hzones zones
    hleft3 []
  refine ⟨db4, ?_, hleft4⟩
  rw [h1, h2, h3]
  rw [List.append_nil] at h4
  rw [h4]
  rfl

end Steps

section Readers

variable {builder applier : Reader} {db : Tables}

/-- The rows that the digests of sets are taken of. -/
def Tables.setCells (db : Tables) : List (List (Text × Cell)) :=
  db.chunks.rows.map ChunkRow.cells ++ (db.chunkEmbeddings.rows.map ChunkEmbeddingRow.cells ++
    (db.zoneUnits.rows.map ZoneUnitRow.cells ++ (db.zoneUnitEmbeddings.rows.map ZoneUnitEmbeddingRow.cells ++
      db.decisionZones.rows.map DecisionZonesRow.cells)))

/-- The two databases sort texts alike, and the two sessions are at one offset from UTC at
each timestamp of the rows. -/
structure ReadsAlike (builder applier : Reader) (db : Tables) : Prop where
  sorted : ∀ a b, applier.collation.le a b = builder.collation.le a b
  offsets : ∀ cells ∈ db.setCells, applier.session.SameOffsets builder.session (cells.map Prod.snd)

theorem ReadsAlike.collation_eq (h : ReadsAlike builder applier db) : applier.collation = builder.collation :=
  Collation.eq_of_le h.sorted

theorem cellsObject_congr {s t : Session} {cells : List (Text × Cell)} (h : s.SameOffsets t (cells.map Prod.snd)) :
    cellsObject s cells = cellsObject t cells := by
  rw [cellsObject, cellsObject]
  congr 1
  apply List.map_congr_left
  intro entry hentry
  have hmem : entry.2 ∈ cells.map Prod.snd := List.mem_map_of_mem ((List.mem_insertionSort _).mp hentry)
  have hcell : s.cellJson entry.2 = t.cellJson entry.2 := by
    apply Session.cellJson_eq_iff.mpr
    intro micros hmicros
    exact h micros (List.mem_singleton.mp hmicros ▸ hmem)
  rw [hcell]

theorem setCells_of_set {collation : Collation} {group : ReplaceSetGroup} {d : Text}
    {entry : Text × List (List (Text × Cell))} (hentry : entry ∈ (db.replaceSetRows collation group d).tables)
    {cells : List (Text × Cell)} (hcells : cells ∈ entry.2) : cells ∈ db.setCells := by
  simp only [Tables.setCells, List.mem_append, List.mem_map]
  cases group with
  | chunksWithEmbeddings =>
    simp only [Tables.replaceSetRows, ReplaceSetRows.tables, List.mem_cons, List.not_mem_nil, or_false] at hentry
    rcases hentry with rfl | rfl
    · obtain ⟨e, he, rfl⟩ := List.mem_map.mp hcells
      exact Or.inr (Or.inl ⟨e, (Table.mem_scopeRows.mp he).1, rfl⟩)
    · obtain ⟨c, hc, rfl⟩ := List.mem_map.mp hcells
      exact Or.inl ⟨c, (Table.mem_scopeRows.mp hc).1, rfl⟩
  | chunkEmbeddings =>
    rw [List.mem_singleton.mp hentry] at hcells
    obtain ⟨e, he, rfl⟩ := List.mem_map.mp hcells
    exact Or.inr (Or.inl ⟨e, (Table.mem_scopeRows.mp he).1, rfl⟩)
  | zoneUnits =>
    simp only [Tables.replaceSetRows, ReplaceSetRows.tables, List.mem_cons, List.not_mem_nil, or_false] at hentry
    rcases hentry with rfl | rfl
    · obtain ⟨e, he, rfl⟩ := List.mem_map.mp hcells
      exact Or.inr (Or.inr (Or.inr (Or.inl ⟨e, (Table.mem_scopeRows.mp he).1, rfl⟩)))
    · obtain ⟨u, hu, rfl⟩ := List.mem_map.mp hcells
      exact Or.inr (Or.inr (Or.inl ⟨u, (Table.mem_scopeRows.mp hu).1, rfl⟩))
  | decisionZones =>
    rw [List.mem_singleton.mp hentry] at hcells
    obtain ⟨z, hz, rfl⟩ := List.mem_map.mp hcells
    exact Or.inr (Or.inr (Or.inr (Or.inr ⟨z, (Table.mem_scopeRows.mp hz).1, rfl⟩)))

/-- Sessions at one offset render the rows alike, and so digest them alike. -/
theorem ReadsAlike.sameDigests (h : ReadsAlike builder applier db) (digestBytes : Text → Text) :
    SameDigests builder.collation (builder.digest digestBytes) (applier.digest digestBytes) db := by
  intro group d
  rw [Reader.digest, Reader.digest]
  congr 1
  apply List.map_congr_left
  intro entry hentry
  have hobjects : entry.2.map (cellsObject applier.session) = entry.2.map (cellsObject builder.session) :=
    List.map_congr_left fun cells hcells => cellsObject_congr (h.offsets cells (setCells_of_set hentry hcells))
  rw [hobjects]

end Readers

end Replica

end CorpusFeed
