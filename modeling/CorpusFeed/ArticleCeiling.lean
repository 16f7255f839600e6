import CorpusFeed.DecisionCeiling
import CorpusFeed.HierarchyChunks
import CorpusFeed.Runs

/-! The ceiling for the contextualized bodies of articles, over runs of ingestion
and backfills: a backfill writes a longer context over the chunks that are stored. -/

namespace CorpusFeed

/-- The chunk stays under the ceiling, or cannot be split. -/
def ArticleChunkFits (chunk : CanonicalChunk) : Prop :=
  chunk.contextualizedBody.length ≤ legiArticleContextualizedChunkMaxChars ∨
    (structuralArticleBodyUnits chunk.body).length ≤ 1

section Parsed

variable {document : CanonicalDocument} {context : Text}

theorem structuralArticleBodyUnits_unit {body unit : Text} (h : Tidy body) (hne : body ≠ [])
    (hunit : unit ∈ structuralArticleBodyUnits body) : structuralArticleBodyUnits unit = [unit] := by
  rw [structuralArticleBodyUnits_eq h hne] at hunit
  obtain ⟨hunitNe, htidy⟩ := mem_splitOn_tidy h hne unit hunit
  have hfree : '\n' ∉ unit := fun hfeed => absurd (dark_of_mem_splitOnP hunit _ hfeed) (by simp)
  have hsplit := List.splitOn_intercalate '\n' (fun l hl => by rwa [List.mem_singleton.mp hl]) (by simp : [unit] ≠ [])
  rw [List.intercalate_singleton] at hsplit
  rw [structuralArticleBodyUnits_eq htidy hunitNe, hsplit]

theorem mem_alineaChunks {index start : Nat} {groups : List (List Text)} {chunk : CanonicalChunk}
    (h : chunk ∈ alineaChunks document context index start groups) : ∃ units ∈ groups,
      chunk.body = ['\n'].intercalate units ∧ chunk.contextualizedBody = contextualized context chunk.body := by
  induction groups generalizing index start with
  | nil => cases h
  | cons units groups ih =>
    rcases List.mem_cons.mp h with rfl | h
    · exact ⟨units, List.mem_cons_self, rfl, rfl⟩
    · obtain ⟨found, hfound, hchunk⟩ := ih h
      exact ⟨found, List.mem_cons_of_mem units hfound, hchunk⟩

theorem buildArticleChunks_fit (h : Tidy document.body) (hne : document.body ≠ []) :
    ∀ chunk ∈ buildArticleChunks document, ArticleChunkFits chunk := by
  intro chunk hchunk
  rcases buildArticleChunks_cases h hne with ⟨hwhole, hfits⟩ | ⟨groups, _, hflat, hgroups, hpacked⟩
  · rw [hwhole, List.mem_singleton] at hchunk
    rw [hchunk]
    rcases hfits with hone | hle
    · exact Or.inr hone.le
    · exact Or.inl hle
  · rw [hpacked] at hchunk
    obtain ⟨units, hunits, hbody, hcontextualized⟩ := mem_alineaChunks hchunk
    rcases (hgroups units hunits).2 with hone | hle
    · obtain ⟨unit, rfl⟩ := List.length_eq_one_iff.mp hone
      have hmem : unit ∈ structuralArticleBodyUnits document.body := by
        rw [← hflat]
        exact List.mem_flatten.mpr ⟨_, hunits, List.mem_singleton_self unit⟩
      rw [List.intercalate_singleton] at hbody
      refine Or.inr ?_
      rw [hbody, structuralArticleBodyUnits_unit h hne hmem]
      exact Nat.le_refl 1
    · refine Or.inl ?_
      rw [hcontextualized, hbody]
      exact hle

theorem LegiXml.IsParsed.fits {d : LegiXml.ArticleRecord} (h : LegiXml.IsParsed d) :
    ∀ chunk ∈ d.chunks, ArticleChunkFits chunk := by
  rw [h.chunks_built]
  exact buildArticleChunks_fit h.tidy h.nonempty

theorem LegiXml.parseArticle_edges {sha256 : Bytes → Vector UInt8 32} {events : List XmlEvent} {xml : Text}
    {provenance : SourceProvenance} {d : LegiXml.ArticleRecord}
    (h : LegiXml.parseArticle sha256 events xml provenance = .ok d) :
    ∀ edge ∈ d.publisherEdges, edge.fromDocumentId = d.documentId := by
  obtain ⟨s, _, hdocument⟩ := LegiXml.parseRoot_ok.mp h
  unfold LegiXml.RawArticle.intoDocument at hdocument
  cases hheader : LegiXml.articleHeader s.raw.raw with
  | error e =>
    rw [hheader] at hdocument
    cases hdocument
  | ok header =>
    simp only [hheader] at hdocument
    split at hdocument
    · cases hdocument
    · cases hdocument
      intro edge hedge
      obtain ⟨entry, _, rfl⟩ := List.mem_map.mp hedge
      rfl

/-- The article comes out of the parser. -/
def ArticleParsed (document : CanonicalDocument) : Prop :=
  ∃ (P : Type) (setup : ParserSetup P) (member : XmlMember P) (d : LegiXml.ArticleRecord),
    setup.parseLegiMember member = .ok (.article d) ∧ d.toCanonicalDocument = document

theorem ArticleParsed.fits (h : ArticleParsed document) : ∀ chunk ∈ document.chunks, ArticleChunkFits chunk := by
  obtain ⟨P, setup, member, d, hparse, rfl⟩ := h
  exact (ParserSetup.parseLegiMember_isParsed hparse).fits

theorem ArticleParsed.accepted (h : ArticleParsed document) :
    ∃ a : AcceptedArticle, a.toCanonicalDocument = document := by
  obtain ⟨P, setup, member, d, hparse, rfl⟩ := h
  have hparsed := ParserSetup.parseLegiMember_isParsed hparse
  have hown : ∀ edge ∈ d.publisherEdges, edge.fromDocumentId = d.documentId := by
    unfold ParserSetup.parseLegiMember at hparse
    split at hparse
    · cases hparse
    · exact LegiXml.parseArticle_edges (LegiXml.parseLegiEvents_article.mp hparse).2
  exact ⟨⟨⟨d.toCanonicalDocument, hparsed.chunks_built, hown⟩, hparsed.accepted⟩, rfl⟩

end Parsed

namespace HierarchyStore

inductive LegiAction where
  | ingest (item : LegiItem)
  | backfill (scope : LegiHierarchyBackfillScope)

def perform (collation : Collation) (s : HierarchyStore) : LegiAction → HierarchyStore
  | .ingest item => s.ingest item
  | .backfill scope => (s.backfill collation scope).1

/-- The chunks that are stored, in the records and as rows, stay under the ceiling. -/
structure UnderCeiling (s : HierarchyStore) : Prop where
  documents : ∀ document ∈ s.documents, ∀ chunk ∈ document.chunks, ArticleChunkFits chunk
  rows : ∀ row ∈ s.chunks, ArticleChunkFits row.chunk

/-- The path that a backfill offers an article leaves room for each of its chunks
that has several units. -/
def PathsLeaveRoom (collation : Collation) (s : HierarchyStore) : LegiAction → Prop
  | .ingest _ => True
  | .backfill scope => ∀ document ∈ s.documents, ∀ path,
      s.offeredPath collation scope document.documentId = some path →
        document.hierarchyPath.length < path.length → ∀ chunk ∈ document.chunks,
          1 < (structuralArticleBodyUnits chunk.body).length →
            overheadOf (" > ".toList.intercalate (path ++ document.title.toList)) + chunk.body.length ≤
              legiArticleContextualizedChunkMaxChars

variable {collation : Collation} {s : HierarchyStore} {document update : CanonicalDocument}
  {scope : LegiHierarchyBackfillScope}

theorem withHierarchy_fits {path : List Text} :
    (∀ chunk ∈ (document.withHierarchy path).chunks, ArticleChunkFits chunk) ↔
      ∀ chunk ∈ document.chunks, 1 < (structuralArticleBodyUnits chunk.body).length →
      overheadOf (" > ".toList.intercalate (path ++ document.title.toList)) + chunk.body.length ≤
        legiArticleContextualizedChunkMaxChars := by
  rw [withHierarchy_chunks, List.forall_mem_map]
  refine forall₂_congr fun chunk _ => ?_
  rw [← length_contextualized]
  have hfits : ArticleChunkFits (chunkWithHierarchy path document.title chunk) ↔
      (contextualized (" > ".toList.intercalate (path ++ document.title.toList)) chunk.body).length ≤
          legiArticleContextualizedChunkMaxChars ∨ (structuralArticleBodyUnits chunk.body).length ≤ 1 := Iff.rfl
  rw [hfits]
  constructor
  · rintro (hle | hone) hmany
    · exact hle
    · omega
  · intro h
    by_cases hmany : 1 < (structuralArticleBodyUnits chunk.body).length
    · exact Or.inl (h hmany)
    · exact Or.inr (by omega)

/-- The chunks of the records are at their positions, and a row that a record still
has is that chunk of it. A row past the chunks of its record is left from before. -/
structure RowsFollow (s : HierarchyStore) : Prop where
  numbered : ∀ document ∈ s.documents, ChunksNumbered document.documentId document.chunks
  named : ∀ row ∈ s.chunks, row.id = chunkIdOf row.chunk.documentId row.chunk.chunkIndex
  same : ∀ document ∈ s.documents, ∀ row ∈ s.chunks, row.chunk.documentId = document.documentId →
    ∀ chunk, document.chunks[row.chunk.chunkIndex]? = some chunk → chunk = row.chunk

theorem updateChunk_position (update : CanonicalDocument) (row : ChunkRow) :
    (updateChunk update row).chunk.documentId = row.chunk.documentId ∧
      (updateChunk update row).chunk.chunkIndex = row.chunk.chunkIndex := by
  unfold updateChunk
  dsimp only
  split
  · exact ⟨rfl, rfl⟩
  · exact ⟨rfl, rfl⟩

/-- What an update needs: it is the record of a stored article over a new path. -/
def Rewrites (s : HierarchyStore) (update : CanonicalDocument) : Prop :=
  ∃ old ∈ s.documents, old.documentId = update.documentId ∧ update = old.withHierarchy update.hierarchyPath

theorem mem_applyUpdate_chunks {row : ChunkRow} : row ∈ (s.applyUpdate update).chunks ↔
    (∃ old ∈ s.chunks, old.chunk.documentId = update.documentId ∧ updateChunk update old = row) ∨
      (row ∈ s.chunks ∧ row.chunk.documentId ≠ update.documentId) := by
  simp only [HierarchyStore.applyUpdate, Table.mem_update, beq_iff_eq, beq_eq_false_iff_ne]

theorem Rewrites.unique (h : Rewrites s update) (hd : document ∈ s.documents)
    (hid : document.documentId = update.documentId) : update = document.withHierarchy update.hierarchyPath := by
  obtain ⟨old, hold, hsame, hupdate⟩ := h
  rwa [Table.eq_of_key_eq hd hold (hid.trans hsame.symm)]

theorem applyUpdate_cases {d : CanonicalDocument} (hd : d ∈ (s.applyUpdate update).documents) :
    d = update ∨ (d ∈ s.documents ∧ d.documentId ≠ update.documentId) := by
  rcases mem_applyUpdate_documents.mp hd with ⟨old, hold, hid, rfl⟩ | hd
  · exact Or.inl (by rw [updateDocument, hid])
  · exact Or.inr hd

theorem Rewrites.row (h : Rewrites s update) (hs : RowsFollow s) {row : ChunkRow} (hrow : row ∈ s.chunks)
    (hid : row.chunk.documentId = update.documentId) {chunk : CanonicalChunk}
    (hchunk : update.chunks[row.chunk.chunkIndex]? = some chunk) : chunk = (updateChunk update row).chunk := by
  obtain ⟨old, hold, hsame, hupdate⟩ := h
  rw [hupdate, withHierarchy_chunks, List.getElem?_map] at hchunk
  obtain ⟨before, hbefore, rfl⟩ := Option.map_eq_some_iff.mp hchunk
  have heq := hs.same old hold row hrow (hid.trans hsame.symm) before hbefore
  rw [heq] at hbefore ⊢
  rw [hupdate, updateChunk_chunk hbefore, withHierarchy_hierarchyPath]

theorem RowsFollow.applyUpdate (hs : RowsFollow s) (h : Rewrites s update) : RowsFollow (s.applyUpdate update) := by
  constructor
  · intro d hd
    rcases applyUpdate_cases hd with rfl | ⟨hd, _⟩
    · obtain ⟨old, hold, _, hupdate⟩ := h
      rw [hupdate]
      exact withHierarchy_numbered (hs.numbered old hold)
    · exact hs.numbered d hd
  · intro row hrow
    rcases mem_applyUpdate_chunks.mp hrow with ⟨old, hold, _, rfl⟩ | ⟨hrow, _⟩
    · obtain ⟨hdocument, hindex⟩ := updateChunk_position update old
      rw [updateChunk_id, hdocument, hindex]
      exact hs.named old hold
    · exact hs.named row hrow
  · intro d hd row hrow hid chunk hchunk
    rcases mem_applyUpdate_chunks.mp hrow with ⟨old, hold, hown, rfl⟩ | ⟨hrow, hother⟩
    · obtain ⟨hdocument, hindex⟩ := updateChunk_position update old
      rcases applyUpdate_cases hd with rfl | ⟨_, hne⟩
      · rw [hindex] at hchunk
        exact h.row hs hold hown hchunk
      · exact absurd (hid.symm.trans (hdocument.trans hown)) hne
    · rcases applyUpdate_cases hd with rfl | ⟨hd, _⟩
      · exact absurd hid hother
      · exact hs.same d hd row hrow hid chunk hchunk

theorem UnderCeiling.applyUpdate (hs : RowsFollow s) (hceiling : UnderCeiling s) (h : Rewrites s update)
    (hfits : ∀ chunk ∈ update.chunks, ArticleChunkFits chunk) : UnderCeiling (s.applyUpdate update) := by
  constructor
  · intro d hd
    rcases applyUpdate_cases hd with rfl | ⟨hd, _⟩
    · exact hfits
    · exact hceiling.documents d hd
  · intro row hrow
    rcases mem_applyUpdate_chunks.mp hrow with ⟨old, hold, hown, rfl⟩ | ⟨hrow, _⟩
    · cases hchunk : update.chunks[old.chunk.chunkIndex]? with
      | none =>
        have hkept : (updateChunk update old).chunk = old.chunk := by simp only [updateChunk, hchunk]
        rw [hkept]
        exact hceiling.rows old hold
      | some chunk =>
        rw [← h.row hs hold hown hchunk]
        exact hfits chunk (List.mem_of_getElem? hchunk)
    · exact hceiling.rows row hrow

theorem Rewrites.applyUpdate {next : CanonicalDocument} (hnext : Rewrites s next) (h : Rewrites s update) :
    Rewrites (s.applyUpdate update) next := by
  obtain ⟨old, hold, hid, hrewritten⟩ := hnext
  by_cases hsame : old.documentId = update.documentId
  · have hone : updateDocument update old = update := by rw [updateDocument, hsame]
    have hagain : update.withHierarchy next.hierarchyPath = old.withHierarchy next.hierarchyPath := by
      conv_lhs => rw [h.unique hold hsame, withHierarchy_withHierarchy]
    refine ⟨update, ?_, hsame.symm.trans hid, hrewritten.trans hagain.symm⟩
    exact mem_applyUpdate_documents.mpr (Or.inl ⟨old, hold, hsame, hone⟩)
  · exact ⟨old, mem_applyUpdate_documents.mpr (Or.inr ⟨hold, hsame⟩), hid, hrewritten⟩

/-- Induction on the updates of a backfill. -/
theorem applyUpdates_ceiling {invalidated : Nat} {updates : List CanonicalDocument} (hs : RowsFollow s)
    (hceiling : UnderCeiling s) (hupdates : ∀ update ∈ updates, Rewrites s update)
    (hfits : ∀ update ∈ updates, ∀ chunk ∈ update.chunks, ArticleChunkFits chunk) :
    RowsFollow (s.applyUpdates invalidated updates).1 ∧ UnderCeiling (s.applyUpdates invalidated updates).1 := by
  induction updates generalizing s invalidated with
  | nil => exact ⟨hs, hceiling⟩
  | cons update updates ih =>
    have hfirst := hupdates update List.mem_cons_self
    have hfirstFits := hfits update List.mem_cons_self
    have hlater : ∀ next ∈ updates, Rewrites (s.applyUpdate update) next := fun next hnext =>
      (hupdates next (List.mem_cons_of_mem update hnext)).applyUpdate hfirst
    exact ih (hs.applyUpdate hfirst) (hceiling.applyUpdate hs hfirst hfirstFits) hlater
      fun next hnext => hfits next (List.mem_cons_of_mem update hnext)

theorem hierarchyUpdate_offered (h : update ∈ s.hierarchyUpdates collation scope) : ∃ document ∈ s.documents, ∃ path,
    s.offeredPath collation scope document.documentId = some path ∧ document.hierarchyPath.length < path.length ∧
      update = document.withHierarchy path := by
  obtain ⟨c, hc, he⟩ := mem_hierarchyUpdates.mp h
  obtain ⟨hfind, _⟩ := chosenCandidate_document hc
  obtain ⟨hmem, hid⟩ := Table.find?_eq_some.mp hfind
  obtain ⟨hdeeper, hupdate⟩ := enriched_eq_some he
  refine ⟨c.document, hmem, c.path, ?_, hdeeper, hupdate⟩
  rw [offeredPath, hid, hc, Option.map_some]

theorem backfill_ceiling (hs : RowsFollow s) (hceiling : UnderCeiling s)
    (hroom : s.PathsLeaveRoom collation (.backfill scope)) :
    RowsFollow (s.backfill collation scope).1 ∧ UnderCeiling (s.backfill collation scope).1 := by
  refine applyUpdates_ceiling hs hceiling (fun update hupdate => ?_) fun update hupdate => ?_
  · obtain ⟨document, hdocument, path, _, _, rfl⟩ := hierarchyUpdate_offered hupdate
    exact ⟨document, hdocument, rfl, rfl⟩
  · obtain ⟨document, hdocument, path, hoffered, hdeeper, rfl⟩ := hierarchyUpdate_offered hupdate
    exact withHierarchy_fits.mpr (hroom document hdocument path hoffered hdeeper)

/-- After a backfill that keeps the ceiling, the paths it offered left room. -/
theorem leaveRoom_of_backfill (h : UnderCeiling (s.backfill collation scope).1) :
    s.PathsLeaveRoom collation (.backfill scope) := by
  intro document hdocument path hoffered hdeeper
  have hfind := backfill_find? collation s scope document.documentId
  have hrow : s.documents.find? document.documentId = some document := Table.find?_eq_some.mpr ⟨hdocument, rfl⟩
  have htaken : document.offer (some path) = document.withHierarchy path := if_pos hdeeper
  rw [hrow, Option.map_some, hoffered, htaken] at hfind
  exact withHierarchy_fits.mp (h.documents _ (Table.find?_eq_some.mp hfind).1)

theorem mem_upsertedChunks {chunks : List CanonicalChunk} {table : Table ChunkRow.id} {row : ChunkRow}
    (h : row ∈ chunks.foldl upsertArticleChunk table) :
    row.chunk ∈ chunks ∨ (row ∈ table ∧ row.id ∉ chunks.map CanonicalChunk.chunkId) := by
  induction chunks generalizing table with
  | nil => exact Or.inr ⟨h, by simp⟩
  | cons first chunks ih =>
    rcases ih h with hmem | ⟨hmem, hother⟩
    · exact Or.inl (List.mem_cons_of_mem first hmem)
    · rcases Table.mem_upsert.mp hmem with rfl | ⟨hmem, hne⟩
      · exact Or.inl List.mem_cons_self
      · refine Or.inr ⟨hmem, fun hin => ?_⟩
        rcases List.mem_cons.mp hin with heq | hin
        · exact hne heq
        · exact hother hin

theorem ingest_ceiling (hs : RowsFollow s) (hceiling : UnderCeiling s) {item : LegiItem}
    (hparsed : ∀ a, item = .article a → ArticleParsed a.toCanonicalDocument) :
    RowsFollow (s.ingest item) ∧ UnderCeiling (s.ingest item) := by
  cases item with
  | sectionTa root => exact ⟨⟨hs.numbered, hs.named, hs.same⟩, ⟨hceiling.documents, hceiling.rows⟩⟩
  | textStruct root => exact ⟨⟨hs.numbered, hs.named, hs.same⟩, ⟨hceiling.documents, hceiling.rows⟩⟩
  | article a =>
    have hnumbered := CanonicalDocument.validate_numbered a.accepted
    have hfits := (hparsed a rfl).fits
    have hdocuments : ∀ d ∈ (s.ingest (.article a)).documents,
        d = a.toCanonicalDocument ∨ (d ∈ s.documents ∧ d.documentId ≠ a.documentId) :=
      fun d hd => Table.mem_upsert.mp hd
    have hrows : ∀ row ∈ (s.ingest (.article a)).chunks,
        row.chunk ∈ a.chunks ∨ (row ∈ s.chunks ∧ row.id ∉ a.chunks.map CanonicalChunk.chunkId) :=
      fun row hrow => mem_upsertedChunks hrow
    refine ⟨⟨fun d hd => ?_, fun row hrow => ?_, fun d hd row hrow hid chunk hchunk => ?_⟩,
      ⟨fun d hd => ?_, fun row hrow => ?_⟩⟩
    · rcases hdocuments d hd with rfl | ⟨hd, _⟩
      · exact hnumbered
      · exact hs.numbered d hd
    · rcases hrows row hrow with hmem | ⟨hrow, _⟩
      · obtain ⟨hdocument, hname, _⟩ := chunk_of_numbered hnumbered hmem
        rw [hdocument]
        exact hname
      · exact hs.named row hrow
    · rcases hrows row hrow with hmem | ⟨hrow, hother⟩
      · obtain ⟨hdocument, _, hget⟩ := chunk_of_numbered hnumbered hmem
        rcases hdocuments d hd with rfl | ⟨_, hne⟩
        · exact Option.some.inj (hchunk.symm.trans hget)
        · exact absurd (hid.symm.trans hdocument) hne
      · rcases hdocuments d hd with rfl | ⟨hd, _⟩
        · -- The row would carry the id of a chunk that was just written.
          exfalso
          obtain ⟨_, hname, _⟩ := chunk_of_numbered hnumbered (List.mem_of_getElem? hchunk)
          obtain ⟨hi, hget⟩ := List.getElem?_eq_some_iff.mp hchunk
          have hindex := (hnumbered row.chunk.chunkIndex hi).2.1
          rw [hget] at hindex
          have hrowId := hs.named row hrow
          rw [hid, ← hindex, ← hname] at hrowId
          exact hother (List.mem_map.mpr ⟨chunk, List.mem_of_getElem? hchunk, hrowId.symm⟩)
        · exact hs.same d hd row hrow hid chunk hchunk
    · rcases hdocuments d hd with rfl | ⟨hd, _⟩
      · exact hfits
      · exact hceiling.documents d hd
    · rcases hrows row hrow with hmem | ⟨hrow, _⟩
      · exact hfits _ hmem
      · exact hceiling.rows row hrow

theorem RowsFollow.empty : RowsFollow empty where
  numbered := by simp [HierarchyStore.empty]
  named := by simp [HierarchyStore.empty]
  same := by simp [HierarchyStore.empty]

theorem UnderCeiling.empty : UnderCeiling empty where
  documents := by simp [HierarchyStore.empty]
  rows := by simp [HierarchyStore.empty]

/-- Every state of a run keeps the ceiling exactly where each backfill of it offers
paths that leave room. -/
theorem run_underCeiling_iff {actions : List LegiAction}
    (hparsed : ∀ a, LegiAction.ingest (.article a) ∈ actions → ArticleParsed a.toCanonicalDocument)
    (hs : RowsFollow s) (hceiling : UnderCeiling s) :
    RunMeets (perform collation) (PathsLeaveRoom collation) s actions ↔
      ∀ before after, actions = before ++ after → UnderCeiling (runFrom (perform collation) s before) := by
  induction actions generalizing s with
  | nil =>
    simp only [RunMeets, true_iff]
    intro before after hsplit
    rw [(List.append_eq_nil_iff.mp hsplit.symm).1]
    exact hceiling
  | cons action actions ih =>
    have hrest := fun a ha => hparsed a (List.mem_cons_of_mem action ha)
    have hstep : s.PathsLeaveRoom collation action →
        RowsFollow (s.perform collation action) ∧ UnderCeiling (s.perform collation action) := by
      intro hroom
      cases action with
      | ingest item =>
        refine ingest_ceiling hs hceiling fun a ha => hparsed a ?_
        rw [ha]
        exact List.mem_cons_self
      | backfill scope => exact backfill_ceiling hs hceiling hroom
    constructor
    · rintro ⟨hroom, hrun⟩ before after hsplit
      obtain ⟨hfollow, hnext⟩ := hstep hroom
      cases before with
      | nil => exact hceiling
      | cons first before =>
        obtain ⟨rfl, htail⟩ := List.cons.inj hsplit
        exact (ih hrest hfollow hnext).mp hrun before after htail
    · intro h
      have hnext : UnderCeiling (s.perform collation action) := h [action] actions rfl
      have hroom : s.PathsLeaveRoom collation action := by
        cases action with
        | ingest item => trivial
        | backfill scope => exact leaveRoom_of_backfill hnext
      refine ⟨hroom, (ih hrest (hstep hroom).1 hnext).mpr fun before after hsplit => ?_⟩
      exact h (action :: before) after (by rw [hsplit, List.cons_append])

end HierarchyStore

end CorpusFeed
