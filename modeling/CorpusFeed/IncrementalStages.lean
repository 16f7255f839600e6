import CorpusFeed.IncrementalFrame

/-! The stages of an incremental apply, each of which brings its tables to the
producer's rows and keeps what the later ones rely on. -/

namespace CorpusFeed

namespace Replica

/-- The document that a chunk id belongs to. -/
noncomputable def chunkOwner (chunkId : Text) : Text :=
  Classical.epsilon fun d => ∃ c : ChunkRow, c.chunkId = chunkId ∧ c.documentId = d

noncomputable def zoneUnitOwner (zoneUnitId : Text) : Text :=
  Classical.epsilon fun d => ∃ u : ZoneUnitRow, u.zoneUnitId = zoneUnitId ∧ u.documentId = d

theorem chunkOwner_chunkId (c : ChunkRow) : chunkOwner c.chunkId = c.documentId := by
  have hex : ∃ d, ∃ c' : ChunkRow, c'.chunkId = c.chunkId ∧ c'.documentId = d := ⟨c.documentId, c, rfl, rfl⟩
  obtain ⟨c', hid, hd⟩ := Classical.epsilon_spec hex
  rw [chunkOwner, ← hd]
  exact chunkId_inj hid

theorem zoneUnitOwner_zoneUnitId (u : ZoneUnitRow) : zoneUnitOwner u.zoneUnitId = u.documentId := by
  have hex : ∃ d, ∃ u' : ZoneUnitRow, u'.zoneUnitId = u.zoneUnitId ∧ u'.documentId = d := ⟨u.documentId, u, rfl, rfl⟩
  obtain ⟨u', hid, hd⟩ := Classical.epsilon_spec hex
  rw [zoneUnitOwner, ← hd]
  exact zoneUnitId_inj hid

/-- What is left between a client and its target before any file is applied. -/
structure Toward (corpus : Corpus) (touched : Touched) (hi db : Tables) : Prop where
  documents : AgreeOutside DocumentRow.documentId (touched .documents) db.documents hi.documents
  responses : AgreeOutside (fun r : OfficialApiResponseRow => responseKey r.responseId)
    (touched .officialApiResponses) db.officialApiResponses hi.officialApiResponses
  edgesNew : ∀ e ∈ hi.graphEdges, e ∈ db.graphEdges ∨ ∃ d ∈ touched .documents, e.fromDocumentId = some d
  edgesKept : ∀ e ∈ db.graphEdges, ∃ e' ∈ hi.graphEdges, e'.edgeId = e.edgeId
  roots : AgreeOutside LegiMetadataRootRow.metadataKey (touched .legiMetadataRoots) db.legiMetadataRoots
    hi.legiMetadataRoots
  resolutions : AgreeOutside CitationResolutionRow.citationKey (touched .citationResolutions) db.citationResolutions
    hi.citationResolutions
  attributed : ∀ r ∈ db.citationResolutions, r.corpus = corpus.name
  citationsNew : ∀ c ∈ hi.decisionCitations, c ∈ db.decisionCitations ∨
    c.decisionDocumentId ∈ touched .decisionCitations
  citationsKept : ∀ c ∈ db.decisionCitations, ∃ c' ∈ hi.decisionCitations, c'.occurrenceId = c.occurrenceId
  chunks : AgreeOutside ChunkRow.documentId (chunksWide touched) db.chunks hi.chunks
  chunkEmbeddings : AgreeOutside (fun e : ChunkEmbeddingRow => chunkOwner e.chunkId)
    (chunksWide touched ++ chunkEmbeddingsOnly touched) db.chunkEmbeddings hi.chunkEmbeddings
  zoneUnits : AgreeOutside ZoneUnitRow.documentId (touched .zoneUnits) db.zoneUnits hi.zoneUnits
  zoneUnitEmbeddings : AgreeOutside (fun e : ZoneUnitEmbeddingRow => zoneUnitOwner e.zoneUnitId) (touched .zoneUnits)
    db.zoneUnitEmbeddings hi.zoneUnitEmbeddings
  decisionZones : AgreeOutside DecisionZonesRow.documentId (touched .decisionZones) db.decisionZones hi.decisionZones
  chunkDocument : ∀ c ∈ db.chunks, db.documents.hasKey c.documentId = true
  embeddingChunk : ∀ e ∈ db.chunkEmbeddings, db.chunks.hasKey e.chunkId = true
  embeddingUnit : ∀ e ∈ db.zoneUnitEmbeddings, db.zoneUnits.hasKey e.zoneUnitId = true

section Owners

variable {db : Tables}

theorem chunkOf_iff {d chunkId : Text} (h : db.chunks.hasKey chunkId = true) :
    db.chunkOf d chunkId = true ↔ chunkOwner chunkId = d :=
  any_iff_owner chunkOwner_chunkId h

theorem zoneUnitOf_iff {d zoneUnitId : Text} (h : db.zoneUnits.hasKey zoneUnitId = true) :
    db.zoneUnitOf d zoneUnitId = true ↔ zoneUnitOwner zoneUnitId = d :=
  any_iff_owner zoneUnitOwner_zoneUnitId h

theorem mem_cleared_embeddings {d : Text} (h : ∀ e ∈ db.chunkEmbeddings, db.chunks.hasKey e.chunkId = true)
    (e : ChunkEmbeddingRow) : e ∈ db.chunkEmbeddings.filter (fun e => !db.chunkOf d e.chunkId) ↔
      e ∈ db.chunkEmbeddings ∧ chunkOwner e.chunkId ≠ d :=
  mem_unowned (fun _ => chunkOf_iff) h e

theorem mem_cleared_unitEmbeddings {d : Text}
    (h : ∀ e ∈ db.zoneUnitEmbeddings, db.zoneUnits.hasKey e.zoneUnitId = true) (e : ZoneUnitEmbeddingRow) :
    e ∈ db.zoneUnitEmbeddings.filter (fun e => !db.zoneUnitOf d e.zoneUnitId) ↔
      e ∈ db.zoneUnitEmbeddings ∧ zoneUnitOwner e.zoneUnitId ≠ d :=
  mem_unowned (fun _ => zoneUnitOf_iff) h e

end Owners

section Deletes

variable {corpus : Corpus} {touched : Touched} {hi db : Tables}

/-- Clearing one scope leaves what refers to the others. -/
theorem embeddingChunk_deleteChunks (h : ∀ e ∈ db.chunkEmbeddings, db.chunks.hasKey e.chunkId = true) (d : Text) :
    ∀ e ∈ (db.deleteChunks d).chunkEmbeddings, (db.deleteChunks d).chunks.hasKey e.chunkId = true := by
  intro e he
  obtain ⟨hmem, hown⟩ := (mem_cleared_embeddings h e).mp he
  apply hasKey_filter chunkOwner_chunkId _ (h e hmem)
  intro c hc
  simpa [hc] using hown

theorem embeddingUnit_deleteZoneUnits (h : ∀ e ∈ db.zoneUnitEmbeddings, db.zoneUnits.hasKey e.zoneUnitId = true)
    (d : Text) : ∀ e ∈ (db.deleteZoneUnits d).zoneUnitEmbeddings,
      (db.deleteZoneUnits d).zoneUnits.hasKey e.zoneUnitId = true := by
  intro e he
  obtain ⟨hmem, hown⟩ := (mem_cleared_unitEmbeddings h e).mp he
  apply hasKey_filter zoneUnitOwner_zoneUnitId _ (h e hmem)
  intro u hu
  simpa [hu] using hown

theorem ne_of_hasKey {R K : Type*} {key : R → K} [DecidableEq K] {t : Table key} {k l : K} (hk : t.hasKey k = true)
    (hl : t.hasKey l = false) : k ≠ l := by
  intro heq
  rw [heq, hl] at hk
  exact absurd hk (by simp)

theorem Toward.deleteDocument {d : Text} (hhi : Consistent corpus hi) (hd : hi.documents.hasKey d = false)
    (h : Toward corpus touched hi db) : Toward corpus touched hi (db.deleteDocument d) where
  documents := by
    apply h.documents.filter
    intro r hr
    have hne := ne_of_hasKey (Table.hasKey_iff.mpr ⟨r, hr, rfl⟩) hd
    simpa using hne
  responses := h.responses
  edgesNew := by
    intro e he
    rcases h.edgesNew e he with hold | htouched
    · refine Or.inl (Table.mem_filter.mpr ⟨hold, ?_⟩)
      have hfrom : e.fromDocumentId ≠ some d := by
        intro heq
        exact ne_of_hasKey (hhi.keys.edgeFrom e he d heq) hd rfl
      have hto : e.toDocumentId ≠ some d := by
        intro heq
        exact ne_of_hasKey (hhi.keys.edgeTo e he d heq) hd rfl
      simpa using ⟨hfrom, hto⟩
    · exact Or.inr htouched
  edgesKept := fun e he => h.edgesKept e (Table.mem_filter.mp he).1
  roots := h.roots
  resolutions := h.resolutions
  attributed := h.attributed
  citationsNew := by
    intro c hc
    rcases h.citationsNew c hc with hold | htouched
    · refine Or.inl (Table.mem_filter.mpr ⟨hold, ?_⟩)
      simpa using ne_of_hasKey (hhi.keys.citationDocument c hc) hd
    · exact Or.inr htouched
  citationsKept := fun c hc => h.citationsKept c (Table.mem_filter.mp hc).1
  chunks := by
    apply h.chunks.filter
    intro c hc
    simpa using ne_of_hasKey (hhi.keys.chunkDocument c hc) hd
  chunkEmbeddings := by
    apply h.chunkEmbeddings.filter
    intro e he
    have howner := hasKey_owner chunkOwner_chunkId hhi.keys.chunkDocument (hhi.keys.embeddingChunk e he)
    have hne := ne_of_hasKey howner hd
    have hof : db.chunkOf d e.chunkId ≠ true := by
      intro hof
      exact hne (owner_of_any chunkOwner_chunkId hof)
    simpa using hof
  zoneUnits := by
    apply h.zoneUnits.filter
    intro u hu
    simpa using ne_of_hasKey (hhi.keys.unitDocument u hu) hd
  zoneUnitEmbeddings := by
    apply h.zoneUnitEmbeddings.filter
    intro e he
    have howner := hasKey_owner zoneUnitOwner_zoneUnitId hhi.keys.unitDocument (hhi.keys.embeddingUnit e he)
    have hne := ne_of_hasKey howner hd
    have hof : (db.deleteChunks d).zoneUnitOf d e.zoneUnitId ≠ true := by
      intro hof
      exact hne (owner_of_any zoneUnitOwner_zoneUnitId hof)
    simpa using hof
  decisionZones := by
    apply h.decisionZones.filter
    intro z hz
    simpa using ne_of_hasKey (hhi.keys.zonesDocument z hz) hd
  chunkDocument := by
    intro c hc
    obtain ⟨hmem, hne⟩ := Table.mem_filter.mp hc
    obtain ⟨r, hr, hid⟩ := Table.hasKey_iff.mp (h.chunkDocument c hmem)
    apply Table.hasKey_iff.mpr
    refine ⟨r, Table.mem_filter.mpr ⟨hr, ?_⟩, hid⟩
    rw [hid]
    exact hne
  embeddingChunk := embeddingChunk_deleteChunks h.embeddingChunk d
  embeddingUnit := embeddingUnit_deleteZoneUnits h.embeddingUnit d

theorem mem_deleteResponse_resolutions {id : Nat} {r : CitationResolutionRow} :
    r ∈ (db.deleteResponse id).citationResolutions ↔ ∃ s ∈ db.citationResolutions, s.forget id = r := by
  show r ∈ db.citationResolutions.update (fun _ => true) (CitationResolutionRow.forget id)
    (CitationResolutionRow.key_forget id) ↔ _
  exact Table.mem_update_all

theorem Toward.deleteResponse {id : Nat} (hhi : Consistent corpus hi) (hid : hi.officialApiResponses.hasKey id = false)
    (h : Toward corpus touched hi db) : Toward corpus touched hi (db.deleteResponse id) where
  documents := h.documents
  responses := by
    apply h.responses.filter
    intro r hr
    simpa using ne_of_hasKey (Table.hasKey_iff.mpr ⟨r, hr, rfl⟩) hid
  edgesNew := h.edgesNew
  edgesKept := h.edgesKept
  roots := h.roots
  resolutions := by
    intro r hr
    rw [mem_deleteResponse_resolutions]
    constructor
    · rintro ⟨s, hs, heq⟩
      have hkey : s.citationKey = r.citationKey := by
        have hk : (s.forget id).key = s.key := CitationResolutionRow.key_forget id s
        rw [heq] at hk
        exact (congrArg Prod.snd hk).symm
      have hshi := (h.resolutions s (by rw [hkey]; exact hr)).mp hs
      have hother : s.legifranceResponseId ≠ some id := by
        intro href
        exact ne_of_hasKey (hhi.keys.resolutionResponse s hshi id href) hid rfl
      have hsame : s.forget id = s := by
        rw [CitationResolutionRow.forget, if_neg hother]
      rw [← heq, hsame]
      exact hshi
    · intro hin
      have hother : r.legifranceResponseId ≠ some id := by
        intro href
        exact ne_of_hasKey (hhi.keys.resolutionResponse r hin id href) hid rfl
      refine ⟨r, (h.resolutions r hr).mpr hin, ?_⟩
      rw [CitationResolutionRow.forget, if_neg hother]
  attributed := by
    intro r hr
    obtain ⟨s, hs, heq⟩ := mem_deleteResponse_resolutions.mp hr
    have hk : (s.forget id).key = s.key := CitationResolutionRow.key_forget id s
    rw [heq] at hk
    have hcorpus : r.corpus = s.corpus := congrArg Prod.fst hk
    rw [hcorpus]
    exact h.attributed s hs
  citationsNew := by
    intro c hc
    rcases h.citationsNew c hc with hold | htouched
    · refine Or.inl (Table.mem_filter.mpr ⟨hold, ?_⟩)
      simpa using ne_of_hasKey (hhi.keys.citationResponse c hc) hid
    · exact Or.inr htouched
  citationsKept := fun c hc => h.citationsKept c (Table.mem_filter.mp hc).1
  chunks := h.chunks
  chunkEmbeddings := h.chunkEmbeddings
  zoneUnits := h.zoneUnits
  zoneUnitEmbeddings := h.zoneUnitEmbeddings
  decisionZones := h.decisionZones
  chunkDocument := h.chunkDocument
  embeddingChunk := h.embeddingChunk
  embeddingUnit := h.embeddingUnit

end Deletes

section Bases

variable {R K : Type} {key : R → K} {t u : Table key} {scope : R → Text} {keys : List Text}

theorem mem_baseOps_rows {read : Text → List R} (hread : ∀ k r, r ∈ read k ↔ r ∈ u ∧ scope r = k) {r : R} :
    r ∈ (baseOps read keys).1 ↔ r ∈ u ∧ scope r ∈ keys := by
  show r ∈ keys.flatMap read ↔ _
  rw [List.mem_flatMap]
  constructor
  · rintro ⟨k, hk, hr⟩
    obtain ⟨hu, hs⟩ := (hread k r).mp hr
    rw [hs]
    exact ⟨hu, hk⟩
  · rintro ⟨hu, hk⟩
    exact ⟨scope r, hk, (hread _ r).mpr ⟨hu, rfl⟩⟩

theorem mem_baseOps_gone {read : Text → List R} (hread : ∀ k r, r ∈ read k ↔ r ∈ u ∧ scope r = k) {k : Text} :
    k ∈ (baseOps read keys).2 ↔ k ∈ keys ∧ ∀ r ∈ u, scope r ≠ k := by
  show k ∈ keys.filter (fun k => (read k).isEmpty) ↔ _
  rw [List.mem_filter, List.isEmpty_iff, List.eq_nil_iff_forall_not_mem]
  constructor
  · rintro ⟨hk, hnone⟩
    refine ⟨hk, ?_⟩
    intro r hr hs
    exact hnone r ((hread k r).mpr ⟨hr, hs⟩)
  · rintro ⟨hk, hnone⟩
    refine ⟨hk, ?_⟩
    intro r hr
    obtain ⟨hu, hs⟩ := (hread k r).mp hr
    exact hnone r hu hs

theorem base_same [DecidableEq K] {read : Text → List R} (hread : ∀ k r, r ∈ read k ↔ r ∈ u ∧ scope r = k)
    (hout : AgreeOutside scope keys t u) (hinj : ∀ r ∈ t, ∀ s ∈ u, scope s = scope r → key s = key r) :
    ((t.upsertAll (baseOps read keys).1).filter fun r => !decide (scope r ∈ (baseOps read keys).2)).Same u := by
  apply Table.upsertAll_delete_same
  · intro r hr
    exact ((mem_baseOps_rows hread).mp hr).1
  · intro r hr
    by_cases hk : scope r ∈ keys
    · exact Or.inl ((mem_baseOps_rows hread).mpr ⟨hr, hk⟩)
    · exact Or.inr ((hout r hk).mpr hr)
  · intro r hr
    have hnot : scope r ∉ (baseOps read keys).2 := by
      intro hgone
      exact ((mem_baseOps_gone hread).mp hgone).2 r hr rfl
    simpa using hnot
  · intro r hr
    by_cases hk : scope r ∈ keys
    · by_cases hex : ∃ s ∈ u, scope s = scope r
      · obtain ⟨s, hs, heq⟩ := hex
        exact Or.inr ⟨s, hs, hinj r hr s hs heq⟩
      · left
        have hgone : scope r ∈ (baseOps read keys).2 := by
          apply (mem_baseOps_gone hread).mpr
          refine ⟨hk, ?_⟩
          intro s hs heq
          exact hex ⟨s, hs, heq⟩
        simpa using hgone
    · exact Or.inr ⟨r, (hout r hk).mp hr, rfl⟩

theorem foldl_delete {S : Type} {π : S → Table key} {delete : S → Text → S} {P : S → Prop} {gone : List Text}
    (hkeep : ∀ k ∈ gone, ∀ s, P s → P (delete s k))
    (hdelete : ∀ s, P s → ∀ k r, r ∈ π (delete s k) ↔ r ∈ π s ∧ scope r ≠ k) {s : S} (hs : P s) :
    P (gone.foldl delete s) ∧ ∀ r, r ∈ π (gone.foldl delete s) ↔ r ∈ π s ∧ scope r ∉ gone := by
  induction gone generalizing s with
  | nil => exact ⟨hs, by simp⟩
  | cons k gone ih =>
    have hnext := hkeep k List.mem_cons_self s hs
    obtain ⟨hP, hmem⟩ := ih (fun k' hk' => hkeep k' (List.mem_cons_of_mem k hk')) hnext
    refine ⟨hP, ?_⟩
    intro r
    rw [List.foldl_cons, hmem, hdelete s hs, List.mem_cons, not_or, and_assoc]

/-- The upserts and deletes of one base table, with what the deletes keep. -/
theorem base_stage [DecidableEq K] {S : Type} {π : S → Table key} {delete : S → Text → S} {P : S → Prop}
    {read : Text → List R} {s : S} (hread : ∀ k r, r ∈ read k ↔ r ∈ u ∧ scope r = k)
    (hout : AgreeOutside scope keys t u) (hinj : ∀ r ∈ t, ∀ s ∈ u, scope s = scope r → key s = key r)
    (hdelete : ∀ s, P s → ∀ k r, r ∈ π (delete s k) ↔ r ∈ π s ∧ scope r ≠ k)
    (hkeep : ∀ k, (∀ r ∈ u, scope r ≠ k) → ∀ s, P s → P (delete s k))
    (hs : π s = t.upsertAll (baseOps read keys).1) (hP : P s) :
    P ((baseOps read keys).2.foldl delete s) ∧ (π ((baseOps read keys).2.foldl delete s)).Same u := by
  obtain ⟨hlast, hmem⟩ := foldl_delete
    (fun k hk s hs => hkeep k ((mem_baseOps_gone hread).mp hk).2 s hs) hdelete hP
  refine ⟨hlast, ?_⟩
  intro r
  rw [hmem, hs]
  have hsame := base_same hread hout hinj r
  rw [Table.mem_filter] at hsame
  simpa using hsame

end Bases

end Replica

end CorpusFeed
