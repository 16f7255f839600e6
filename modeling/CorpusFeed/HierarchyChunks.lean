import CorpusFeed.HierarchyBackfill

/-! The chunk rows of the articles: ingestion and backfills keep them equal to
the chunks of the stored records, so the records decide what a reader sees. -/

namespace CorpusFeed

namespace HierarchyStore

structure ChunksFollow (s : HierarchyStore) : Prop where
  numbered : ∀ document ∈ s.documents, ChunksNumbered document.documentId document.chunks
  rows : ∀ chunk, (∃ row ∈ s.chunks, row.chunk = chunk) ↔ ∃ document ∈ s.documents, chunk ∈ document.chunks

variable {s s' : HierarchyStore} {document update : CanonicalDocument}

theorem ChunksFollow.empty : ChunksFollow empty where
  numbered := by simp [HierarchyStore.empty]
  rows := by simp [HierarchyStore.empty]

theorem chunk_of_numbered {documentId : Text} {chunks : List CanonicalChunk} (h : ChunksNumbered documentId chunks)
    {chunk : CanonicalChunk} (hm : chunk ∈ chunks) :
    chunk.documentId = documentId ∧ chunk.chunkId = chunkIdOf documentId chunk.chunkIndex ∧
      chunks[chunk.chunkIndex]? = some chunk := by
  obtain ⟨i, hi, rfl⟩ := List.getElem_of_mem hm
  obtain ⟨hdocument, hindex, hid⟩ := h i hi
  rw [hindex]
  exact ⟨hdocument, hid, List.getElem?_eq_getElem hi⟩

theorem withHierarchy_numbered {path : List Text} (h : ChunksNumbered document.documentId document.chunks) :
    ChunksNumbered (document.withHierarchy path).documentId (document.withHierarchy path).chunks := by
  intro i hi
  simp only [CanonicalDocument.withHierarchy, List.length_map] at hi
  obtain ⟨hdocument, hindex, hid⟩ := h i hi
  simp only [CanonicalDocument.withHierarchy, List.getElem_map]
  exact ⟨hdocument, hindex, hid⟩

/-- The chunk over a new hierarchy. -/
def chunkWithHierarchy (path : List Text) (title : Option Text) (chunk : CanonicalChunk) : CanonicalChunk :=
  { chunk with hierarchyPath := path, contextualizedBody := contextualizedArticleBody path title chunk.body }

theorem withHierarchy_chunks (path : List Text) :
    (document.withHierarchy path).chunks = document.chunks.map (chunkWithHierarchy path document.title) := rfl

theorem updateChunk_chunk {path : List Text} {row : ChunkRow}
    (h : document.chunks[row.chunk.chunkIndex]? = some row.chunk) :
    (updateChunk (document.withHierarchy path) row).chunk = chunkWithHierarchy path document.title row.chunk := by
  simp only [updateChunk, withHierarchy_chunks, List.getElem?_map, h, Option.map_some, chunkWithHierarchy, ite_self]

theorem mem_applyUpdate_documents {d : CanonicalDocument} : d ∈ (s.applyUpdate update).documents ↔
    (∃ old ∈ s.documents, old.documentId = update.documentId ∧ updateDocument update old = d) ∨
      (d ∈ s.documents ∧ d.documentId ≠ update.documentId) := by
  simp only [HierarchyStore.applyUpdate, Table.mem_update, beq_iff_eq, beq_eq_false_iff_ne]

/-- An update that rewrites the record of one article rewrites its chunk rows. -/
theorem ChunksFollow.applyUpdate (h : ChunksFollow s)
    (hupdate : ∀ document ∈ s.documents, document.documentId = update.documentId →
      update = document.withHierarchy update.hierarchyPath) : ChunksFollow (s.applyUpdate update) := by
  have hdocuments : ∀ d, d ∈ (s.applyUpdate update).documents ↔
      (∃ old ∈ s.documents, old.documentId = update.documentId ∧ update = d) ∨
        (d ∈ s.documents ∧ d.documentId ≠ update.documentId) := by
    intro d
    rw [mem_applyUpdate_documents]
    refine or_congr_left (exists_congr fun old => and_congr_right fun _ => and_congr_right fun hid => ?_)
    rw [updateDocument, hid]
  have hnumbered : ∀ old ∈ s.documents, old.documentId = update.documentId →
      ChunksNumbered update.documentId update.chunks := by
    intro old hold hid
    rw [hupdate old hold hid]
    exact withHierarchy_numbered (h.numbered old hold)
  constructor
  · intro d hd
    rcases (hdocuments d).mp hd with ⟨old, hold, hid, rfl⟩ | ⟨hd, _⟩
    · exact hnumbered old hold hid
    · exact h.numbered d hd
  · intro chunk
    have hrows : (∃ row ∈ (s.applyUpdate update).chunks, row.chunk = chunk) ↔
        (∃ row ∈ s.chunks, row.chunk.documentId = update.documentId ∧ (updateChunk update row).chunk = chunk) ∨
          ∃ row ∈ s.chunks, row.chunk.documentId ≠ update.documentId ∧ row.chunk = chunk := by
      simp only [HierarchyStore.applyUpdate, Table.mem_update, beq_iff_eq, beq_eq_false_iff_ne]
      constructor
      · rintro ⟨_, ⟨row, hr, hid, rfl⟩ | ⟨hr, hid⟩, hchunk⟩
        · exact Or.inl ⟨row, hr, hid, hchunk⟩
        · exact Or.inr ⟨_, hr, hid, hchunk⟩
      · rintro (⟨row, hr, hid, hchunk⟩ | ⟨row, hr, hid, hchunk⟩)
        · exact ⟨_, Or.inl ⟨row, hr, hid, rfl⟩, hchunk⟩
        · exact ⟨row, Or.inr ⟨hr, hid⟩, hchunk⟩
    rw [hrows]
    constructor
    · rintro (⟨row, hr, hid, rfl⟩ | ⟨row, hr, hid, rfl⟩)
      · obtain ⟨old, hold, hm⟩ := (h.rows row.chunk).mp ⟨row, hr, rfl⟩
        obtain ⟨hown, _, hget⟩ := chunk_of_numbered (h.numbered old hold) hm
        have hsame := hown.symm.trans hid
        refine ⟨update, (hdocuments update).mpr (Or.inl ⟨old, hold, hsame, rfl⟩), ?_⟩
        rw [hupdate old hold hsame, updateChunk_chunk hget]
        exact List.mem_map.mpr ⟨row.chunk, hm, rfl⟩
      · obtain ⟨old, hold, hm⟩ := (h.rows row.chunk).mp ⟨row, hr, rfl⟩
        obtain ⟨hown, _, _⟩ := chunk_of_numbered (h.numbered old hold) hm
        exact ⟨old, (hdocuments old).mpr (Or.inr ⟨hold, hown ▸ hid⟩), hm⟩
    · rintro ⟨d, hd, hm⟩
      rcases (hdocuments d).mp hd with ⟨old, hold, hid, rfl⟩ | ⟨hd, hid⟩
      · have hchunks := congrArg CanonicalDocument.chunks (hupdate old hold hid)
        rw [hchunks, withHierarchy_chunks] at hm
        obtain ⟨before, hbefore, rfl⟩ := List.mem_map.mp hm
        obtain ⟨hown, _, hget⟩ := chunk_of_numbered (h.numbered old hold) hbefore
        obtain ⟨row, hr, rfl⟩ := (h.rows before).mpr ⟨old, hold, hbefore⟩
        refine Or.inl ⟨row, hr, hown.trans hid, ?_⟩
        rw [hupdate old hold hid]
        exact updateChunk_chunk hget
      · obtain ⟨hown, _, _⟩ := chunk_of_numbered (h.numbered d hd) hm
        obtain ⟨row, hr, rfl⟩ := (h.rows chunk).mpr ⟨d, hd, hm⟩
        exact Or.inr ⟨row, hr, hown ▸ hid, rfl⟩

/-- Induction on the updates: a record that was rewritten already is rewritten
to the same one again. -/
theorem ChunksFollow.applyUpdates {invalidated : Nat} {updates : List CanonicalDocument} (h : ChunksFollow s)
    (hupdates : ∀ update ∈ updates, ∀ document ∈ s.documents, document.documentId = update.documentId →
      update = document.withHierarchy update.hierarchyPath) :
    ChunksFollow (s.applyUpdates invalidated updates).1 := by
  induction updates generalizing s invalidated with
  | nil => exact h
  | cons update updates ih =>
    have hfirst := hupdates update List.mem_cons_self
    refine ih (h.applyUpdate hfirst) fun next hnext d hd hid => ?_
    have hlater := hupdates next (List.mem_cons_of_mem update hnext)
    rcases mem_applyUpdate_documents.mp hd with ⟨old, hold, hold', rfl⟩ | ⟨hd, _⟩
    · have hupdated : updateDocument update old = update := by rw [updateDocument, hold']
      rw [hupdated] at hid ⊢
      have hnextOld := hlater old hold (hold'.trans hid)
      have hsame : update.withHierarchy next.hierarchyPath = old.withHierarchy next.hierarchyPath := by
        conv_lhs => rw [hfirst old hold hold', withHierarchy_withHierarchy]
      rw [hsame]
      exact hnextOld
    · exact hlater d hd hid

theorem ChunksFollow.backfill (h : ChunksFollow s) (collation : Collation) (scope : LegiHierarchyBackfillScope) :
    ChunksFollow (s.backfill collation scope).1 := by
  refine ChunksFollow.applyUpdates h fun update hupdate document hd hid => ?_
  obtain ⟨c, hc, he⟩ := mem_hierarchyUpdates.mp hupdate
  obtain ⟨hfind, _⟩ := chosenCandidate_document hc
  obtain ⟨hmem, hkey⟩ := Table.find?_eq_some.mp hfind
  obtain ⟨_, hupdated⟩ := enriched_eq_some he
  have hsame : c.document = document := Table.eq_of_key_eq hmem hd (hkey.trans hid.symm)
  rw [hupdated, hsame, withHierarchy_hierarchyPath]

theorem mem_upsertArticleChunks {chunks : List CanonicalChunk} {table : Table ChunkRow.id}
    (hids : (chunks.map CanonicalChunk.chunkId).Nodup)
    (hnew : ∀ row ∈ table, row.id ∉ chunks.map CanonicalChunk.chunkId) (chunk : CanonicalChunk) :
    (∃ row ∈ chunks.foldl upsertArticleChunk table, row.chunk = chunk) ↔
      (∃ row ∈ table, row.chunk = chunk) ∨ chunk ∈ chunks := by
  induction chunks generalizing table with
  | nil => simp
  | cons first chunks ih =>
    obtain ⟨hfirst, hids⟩ := List.nodup_cons.mp hids
    have hupserted : ∀ row, row ∈ upsertArticleChunk table first ↔
        row = ⟨first, ProjectionStore.chunkFingerprint (table.find? first.chunkId) first none⟩ ∨ row ∈ table := by
      intro row
      rw [upsertArticleChunk, Table.mem_upsert]
      refine or_congr_right ⟨fun h => h.1, fun h => ⟨h, fun heq => hnew row h ?_⟩⟩
      rw [heq]
      exact List.mem_cons_self
    have hnext : ∀ row ∈ upsertArticleChunk table first, row.id ∉ chunks.map CanonicalChunk.chunkId := by
      intro row hr
      rcases (hupserted row).mp hr with rfl | hr
      · exact hfirst
      · exact fun hm => hnew row hr (List.mem_cons_of_mem _ hm)
    rw [List.foldl_cons, ih hids hnext, List.mem_cons]
    constructor
    · rintro (⟨row, hr, rfl⟩ | hm)
      · rcases (hupserted row).mp hr with rfl | hr
        · exact Or.inr (Or.inl rfl)
        · exact Or.inl ⟨row, hr, rfl⟩
      · exact Or.inr (Or.inr hm)
    · rintro (⟨row, hr, rfl⟩ | rfl | hm)
      · exact Or.inl ⟨row, (hupserted row).mpr (Or.inr hr), rfl⟩
      · exact Or.inl ⟨_, (hupserted _).mpr (Or.inl rfl), rfl⟩
      · exact Or.inr hm

theorem chunkIds_nodup {documentId : Text} {chunks : List CanonicalChunk} (h : ChunksNumbered documentId chunks) :
    (chunks.map CanonicalChunk.chunkId).Nodup := by
  refine List.nodup_iff_injective_get.mpr fun i j heq => ?_
  have hi : i.1 < chunks.length := by simpa using i.2
  have hj : j.1 < chunks.length := by simpa using j.2
  have hids : chunks[i.1].chunkId = chunks[j.1].chunkId := by simpa using heq
  rw [(h i.1 hi).2.2, (h j.1 hj).2.2] at hids
  exact Fin.ext (chunkIdOf_inj hids).2

theorem ChunksFollow.ingest_article (h : ChunksFollow s) {a : AcceptedArticle}
    (hnew : s.documents.find? a.documentId = none) : ChunksFollow (s.ingest (.article a)) := by
  have hnumbered := CanonicalDocument.validate_numbered a.accepted
  have hfresh := Table.find?_eq_none.mp hnew
  have hdocuments : ∀ d, d ∈ (s.ingest (.article a)).documents ↔ d = a.toCanonicalDocument ∨ d ∈ s.documents := by
    intro d
    rw [HierarchyStore.ingest, Table.mem_upsert]
    exact or_congr_right ⟨fun hd => hd.1, fun hd => ⟨hd, hfresh d hd⟩⟩
  constructor
  · intro d hd
    rcases (hdocuments d).mp hd with rfl | hd
    · exact hnumbered
    · exact h.numbered d hd
  · intro chunk
    have hnone : ∀ row ∈ s.chunks, row.id ∉ a.chunks.map CanonicalChunk.chunkId := by
      intro row hr hm
      obtain ⟨own, hown, hid⟩ := List.mem_map.mp hm
      obtain ⟨d, hd, hchunk⟩ := (h.rows row.chunk).mp ⟨row, hr, rfl⟩
      obtain ⟨_, hrow, _⟩ := chunk_of_numbered (h.numbered d hd) hchunk
      obtain ⟨_, hown, _⟩ := chunk_of_numbered hnumbered hown
      have heq : chunkIdOf a.documentId own.chunkIndex = chunkIdOf d.documentId row.chunk.chunkIndex :=
        hown.symm.trans (hid.trans hrow)
      exact hfresh d hd (chunkIdOf_inj heq).1.symm
    rw [HierarchyStore.ingest]
    dsimp only
    rw [mem_upsertArticleChunks (chunkIds_nodup hnumbered) hnone, h.rows]
    constructor
    · rintro (⟨d, hd, hm⟩ | hm)
      · exact ⟨d, (hdocuments d).mpr (Or.inr hd), hm⟩
      · exact ⟨a.toCanonicalDocument, (hdocuments _).mpr (Or.inl rfl), hm⟩
    · rintro ⟨d, hd, hm⟩
      rcases (hdocuments d).mp hd with rfl | hd
      · exact Or.inr hm
      · exact Or.inl ⟨d, hd, hm⟩

theorem ChunksFollow.body_eq (h : ChunksFollow s) (h' : ChunksFollow s')
    (hsame : ∀ id, s.documents.find? id = s'.documents.find? id) (chunkId : Text) :
    s.contextualizedBodyOf chunkId = s'.contextualizedBodyOf chunkId := by
  have hchunk : ∀ {t u : HierarchyStore}, ChunksFollow t → ChunksFollow u →
      (∀ id, t.documents.find? id = u.documents.find? id) → ∀ row ∈ t.chunks, ∃ row' ∈ u.chunks, row'.chunk = row.chunk := by
    intro t u ht hu hdocuments row hr
    obtain ⟨d, hd, hm⟩ := (ht.rows row.chunk).mp ⟨row, hr, rfl⟩
    have hfind := Table.find?_eq_some.mpr ⟨hd, rfl⟩
    rw [hdocuments] at hfind
    exact (hu.rows row.chunk).mpr ⟨d, (Table.find?_eq_some.mp hfind).1, hm⟩
  rw [contextualizedBodyOf, contextualizedBodyOf]
  cases hf : s.chunks.find? chunkId with
  | some row =>
    obtain ⟨hr, hid⟩ := Table.find?_eq_some.mp hf
    obtain ⟨row', hr', heq⟩ := hchunk h h' hsame row hr
    have hf' : s'.chunks.find? chunkId = some row' :=
      Table.find?_eq_some.mpr ⟨hr', (congrArg CanonicalChunk.chunkId heq).trans hid⟩
    rw [hf', Option.map_some, Option.map_some, heq]
  | none =>
    cases hf' : s'.chunks.find? chunkId with
    | none => rfl
    | some row' =>
      obtain ⟨hr', hid⟩ := Table.find?_eq_some.mp hf'
      obtain ⟨row, hr, heq⟩ := hchunk h' h (fun id => (hsame id).symm) row' hr'
      exact absurd ((congrArg CanonicalChunk.chunkId heq).trans hid) (Table.find?_eq_none.mp hf row hr)

end HierarchyStore

end CorpusFeed
