import CorpusFeed.IncrementalPayload

/-! What the writers' emissions promise about two states of the producer, and
what it leaves to do between a client and its target: rows differ only in the
touched scopes. Cascades remove rows that the target lacks, so they keep it. -/

namespace CorpusFeed

namespace Replica

/-- Some emitted scope names the key in one of the coalesced tables. -/
def Touches (scopes : List ChangedScope) (table : TouchedTable) (key : Text) : Prop :=
  ∃ scope ∈ scopes, touchedTable scope.tableName = some table ∧ scope.scopeKey = key

/-- The rows of one corpus: every reference is met inside it. -/
structure Consistent (corpus : Corpus) (db : Tables) : Prop where
  keys : ForeignKeys db
  attributed : ∀ r ∈ db.citationResolutions, r.corpus = corpus.name

/-- Each changed row has its scope emitted, and no graph edge and no decision
citation is removed, whose deletes no package carries. -/
structure Emitted (scopes : List ChangedScope) (a b : Tables) : Prop where
  known : ∀ scope ∈ scopes, ∃ table, touchedTable scope.tableName = some table
  documents : ∀ d, (d ∈ a.documents ↔ d ∈ b.documents) ∨ Touches scopes .documents d.documentId
  officialApiResponses : ∀ r, (r ∈ a.officialApiResponses ↔ r ∈ b.officialApiResponses) ∨
    Touches scopes .officialApiResponses (responseKey r.responseId)
  graphEdges : ∀ e ∈ b.graphEdges, e ∈ a.graphEdges ∨
    ∃ d, e.fromDocumentId = some d ∧ Touches scopes .documents d
  edgesKept : ∀ e ∈ a.graphEdges, ∃ e' ∈ b.graphEdges, e'.edgeId = e.edgeId
  legiMetadataRoots : ∀ r, (r ∈ a.legiMetadataRoots ↔ r ∈ b.legiMetadataRoots) ∨
    Touches scopes .legiMetadataRoots r.metadataKey
  citationResolutions : ∀ r, (r ∈ a.citationResolutions ↔ r ∈ b.citationResolutions) ∨
    Touches scopes .citationResolutions r.citationKey
  decisionCitations : ∀ c ∈ b.decisionCitations, c ∈ a.decisionCitations ∨
    Touches scopes .decisionCitations c.decisionDocumentId
  citationsKept : ∀ c ∈ a.decisionCitations, ∃ c' ∈ b.decisionCitations, c'.occurrenceId = c.occurrenceId
  chunks : ∀ c, (c ∈ a.chunks ↔ c ∈ b.chunks) ∨ Touches scopes .chunks c.documentId ∨
    Touches scopes .documents c.documentId
  chunkEmbeddings : ∀ e, (e ∈ a.chunkEmbeddings ↔ e ∈ b.chunkEmbeddings) ∨ ∃ c : ChunkRow, c.chunkId = e.chunkId ∧
    (Touches scopes .chunkEmbeddings c.documentId ∨ Touches scopes .chunks c.documentId ∨
      Touches scopes .documents c.documentId)
  zoneUnits : ∀ u, (u ∈ a.zoneUnits ↔ u ∈ b.zoneUnits) ∨ Touches scopes .zoneUnits u.documentId
  zoneUnitEmbeddings : ∀ e, (e ∈ a.zoneUnitEmbeddings ↔ e ∈ b.zoneUnitEmbeddings) ∨
    ∃ u : ZoneUnitRow, u.zoneUnitId = e.zoneUnitId ∧ Touches scopes .zoneUnits u.documentId
  decisionZones : ∀ z, (z ∈ a.decisionZones ↔ z ∈ b.decisionZones) ∨ Touches scopes .decisionZones z.documentId

/-- The transactions that a window's scopes come from, one after the other. -/
inductive History (corpus : Corpus) (start : Tables) : List ChangedScope → Tables → Prop where
  | nil : History corpus start [] start
  | commit {scopes emitted : List ChangedScope} {db next : Tables} (h : History corpus start scopes db)
      (hemitted : Emitted emitted db next) (hnext : Consistent corpus next) :
      History corpus start (scopes ++ emitted) next

section Compose

variable {scopes scopes' : List ChangedScope} {table : TouchedTable} {key : Text} {a b c : Tables}

theorem Touches.mono (hsub : ∀ scope ∈ scopes, scope ∈ scopes') (h : Touches scopes table key) :
    Touches scopes' table key := by
  obtain ⟨scope, hscope, h⟩ := h
  exact ⟨scope, hsub scope hscope, h⟩

theorem Touches.left (h : Touches scopes table key) : Touches (scopes ++ scopes') table key :=
  h.mono fun _ => List.mem_append_left _

theorem Touches.right (h : Touches scopes' table key) : Touches (scopes ++ scopes') table key :=
  h.mono fun _ => List.mem_append_right _

/-- Two changes of a row, and where they are written down. -/
theorem iff_or_trans {p q r s s' t : Prop} (h : (p ↔ q) ∨ s) (h' : (q ↔ r) ∨ s') (hs : s → t) (hs' : s' → t) :
    (p ↔ r) ∨ t := by
  rcases h with heq | hs1
  · rcases h' with heq' | hs2
    · exact Or.inl (heq.trans heq')
    · exact Or.inr (hs' hs2)
  · exact Or.inr (hs hs1)

theorem Tables.Same.emitted (h : a.Same b) : Emitted [] a b where
  known := by simp
  documents := fun d => Or.inl (h.documents d)
  officialApiResponses := fun r => Or.inl (h.officialApiResponses r)
  graphEdges := fun e he => Or.inl ((h.graphEdges e).mpr he)
  edgesKept := fun e he => ⟨e, (h.graphEdges e).mp he, rfl⟩
  legiMetadataRoots := fun r => Or.inl (h.legiMetadataRoots r)
  citationResolutions := fun r => Or.inl (h.citationResolutions r)
  decisionCitations := fun c hc => Or.inl ((h.decisionCitations c).mpr hc)
  citationsKept := fun c hc => ⟨c, (h.decisionCitations c).mp hc, rfl⟩
  chunks := fun c => Or.inl (h.chunks c)
  chunkEmbeddings := fun e => Or.inl (h.chunkEmbeddings e)
  zoneUnits := fun u => Or.inl (h.zoneUnits u)
  zoneUnitEmbeddings := fun e => Or.inl (h.zoneUnitEmbeddings e)
  decisionZones := fun z => Or.inl (h.decisionZones z)

theorem Tables.same_refl (a : Tables) : a.Same a where
  documents := fun _ => Iff.rfl
  officialApiResponses := fun _ => Iff.rfl
  graphEdges := fun _ => Iff.rfl
  legiMetadataRoots := fun _ => Iff.rfl
  citationResolutions := fun _ => Iff.rfl
  decisionCitations := fun _ => Iff.rfl
  chunks := fun _ => Iff.rfl
  chunkEmbeddings := fun _ => Iff.rfl
  zoneUnits := fun _ => Iff.rfl
  zoneUnitEmbeddings := fun _ => Iff.rfl
  decisionZones := fun _ => Iff.rfl

theorem Tables.Same.trans (h : a.Same b) (h' : b.Same c) : a.Same c where
  documents := Table.Same.trans h.documents h'.documents
  officialApiResponses := Table.Same.trans h.officialApiResponses h'.officialApiResponses
  graphEdges := Table.Same.trans h.graphEdges h'.graphEdges
  legiMetadataRoots := Table.Same.trans h.legiMetadataRoots h'.legiMetadataRoots
  citationResolutions := Table.Same.trans h.citationResolutions h'.citationResolutions
  decisionCitations := Table.Same.trans h.decisionCitations h'.decisionCitations
  chunks := Table.Same.trans h.chunks h'.chunks
  chunkEmbeddings := Table.Same.trans h.chunkEmbeddings h'.chunkEmbeddings
  zoneUnits := Table.Same.trans h.zoneUnits h'.zoneUnits
  zoneUnitEmbeddings := Table.Same.trans h.zoneUnitEmbeddings h'.zoneUnitEmbeddings
  decisionZones := Table.Same.trans h.decisionZones h'.decisionZones

theorem Tables.Same.consistent {corpus : Corpus} (h : a.Same b) (hb : Consistent corpus b) : Consistent corpus a where
  keys := {
    edgeFrom := fun e he d hd => by
      rw [h.documents.hasKey_eq]
      exact hb.keys.edgeFrom e ((h.graphEdges e).mp he) d hd
    edgeTo := fun e he d hd => by
      rw [h.documents.hasKey_eq]
      exact hb.keys.edgeTo e ((h.graphEdges e).mp he) d hd
    citationDocument := fun c hc => by
      rw [h.documents.hasKey_eq]
      exact hb.keys.citationDocument c ((h.decisionCitations c).mp hc)
    citationResponse := fun c hc => by
      rw [h.officialApiResponses.hasKey_eq]
      exact hb.keys.citationResponse c ((h.decisionCitations c).mp hc)
    resolutionResponse := fun r hr id hid => by
      rw [h.officialApiResponses.hasKey_eq]
      exact hb.keys.resolutionResponse r ((h.citationResolutions r).mp hr) id hid
    chunkDocument := fun c hc => by
      rw [h.documents.hasKey_eq]
      exact hb.keys.chunkDocument c ((h.chunks c).mp hc)
    embeddingChunk := fun e he => by
      rw [h.chunks.hasKey_eq]
      exact hb.keys.embeddingChunk e ((h.chunkEmbeddings e).mp he)
    unitDocument := fun u hu => by
      rw [h.documents.hasKey_eq]
      exact hb.keys.unitDocument u ((h.zoneUnits u).mp hu)
    embeddingUnit := fun e he => by
      rw [h.zoneUnits.hasKey_eq]
      exact hb.keys.embeddingUnit e ((h.zoneUnitEmbeddings e).mp he)
    zonesDocument := fun z hz => by
      rw [h.documents.hasKey_eq]
      exact hb.keys.zonesDocument z ((h.decisionZones z).mp hz) }
  attributed := fun r hr => hb.attributed r ((h.citationResolutions r).mp hr)

theorem Emitted.trans (h : Emitted scopes a b) (h' : Emitted scopes' b c) : Emitted (scopes ++ scopes') a c where
  known := by
    intro scope hscope
    rcases List.mem_append.mp hscope with hl | hr
    · exact h.known scope hl
    · exact h'.known scope hr
  documents := fun d => iff_or_trans (h.documents d) (h'.documents d) Touches.left Touches.right
  officialApiResponses := fun r =>
    iff_or_trans (h.officialApiResponses r) (h'.officialApiResponses r) Touches.left Touches.right
  graphEdges := by
    intro e he
    rcases h'.graphEdges e he with hb | ⟨d, hd, ht⟩
    · rcases h.graphEdges e hb with ha | ⟨d, hd, ht⟩
      · exact Or.inl ha
      · exact Or.inr ⟨d, hd, ht.left⟩
    · exact Or.inr ⟨d, hd, ht.right⟩
  edgesKept := by
    intro e he
    obtain ⟨e1, he1, hid1⟩ := h.edgesKept e he
    obtain ⟨e2, he2, hid2⟩ := h'.edgesKept e1 he1
    exact ⟨e2, he2, hid2.trans hid1⟩
  legiMetadataRoots := fun r =>
    iff_or_trans (h.legiMetadataRoots r) (h'.legiMetadataRoots r) Touches.left Touches.right
  citationResolutions := fun r =>
    iff_or_trans (h.citationResolutions r) (h'.citationResolutions r) Touches.left Touches.right
  decisionCitations := by
    intro row hrow
    rcases h'.decisionCitations row hrow with hb | ht
    · rcases h.decisionCitations row hb with ha | ht
      · exact Or.inl ha
      · exact Or.inr ht.left
    · exact Or.inr ht.right
  citationsKept := by
    intro row hrow
    obtain ⟨row1, hrow1, hid1⟩ := h.citationsKept row hrow
    obtain ⟨row2, hrow2, hid2⟩ := h'.citationsKept row1 hrow1
    exact ⟨row2, hrow2, hid2.trans hid1⟩
  chunks := fun c => iff_or_trans (h.chunks c) (h'.chunks c) (Or.imp Touches.left Touches.left)
    (Or.imp Touches.right Touches.right)
  chunkEmbeddings := by
    intro e
    apply iff_or_trans (h.chunkEmbeddings e) (h'.chunkEmbeddings e)
    · rintro ⟨chunk, hid, ht⟩
      exact ⟨chunk, hid, Or.imp Touches.left (Or.imp Touches.left Touches.left) ht⟩
    · rintro ⟨chunk, hid, ht⟩
      exact ⟨chunk, hid, Or.imp Touches.right (Or.imp Touches.right Touches.right) ht⟩
  zoneUnits := fun u => iff_or_trans (h.zoneUnits u) (h'.zoneUnits u) Touches.left Touches.right
  zoneUnitEmbeddings := by
    intro e
    apply iff_or_trans (h.zoneUnitEmbeddings e) (h'.zoneUnitEmbeddings e)
    · rintro ⟨unit, hid, ht⟩
      exact ⟨unit, hid, ht.left⟩
    · rintro ⟨unit, hid, ht⟩
      exact ⟨unit, hid, ht.right⟩
  decisionZones := fun z => iff_or_trans (h.decisionZones z) (h'.decisionZones z) Touches.left Touches.right

/-- Further scopes of known tables only widen what is refreshed. -/
theorem Emitted.mono (h : Emitted scopes a b) (hsub : ∀ scope ∈ scopes, scope ∈ scopes')
    (hknown : ∀ scope ∈ scopes', ∃ table, touchedTable scope.tableName = some table) : Emitted scopes' a b where
  known := hknown
  documents := fun d => Or.imp_right (Touches.mono hsub) (h.documents d)
  officialApiResponses := fun r => Or.imp_right (Touches.mono hsub) (h.officialApiResponses r)
  graphEdges := by
    intro e he
    rcases h.graphEdges e he with ha | ⟨d, hd, ht⟩
    · exact Or.inl ha
    · exact Or.inr ⟨d, hd, ht.mono hsub⟩
  edgesKept := h.edgesKept
  legiMetadataRoots := fun r => Or.imp_right (Touches.mono hsub) (h.legiMetadataRoots r)
  citationResolutions := fun r => Or.imp_right (Touches.mono hsub) (h.citationResolutions r)
  decisionCitations := fun c hc => Or.imp_right (Touches.mono hsub) (h.decisionCitations c hc)
  citationsKept := h.citationsKept
  chunks := fun c => Or.imp_right (Or.imp (Touches.mono hsub) (Touches.mono hsub)) (h.chunks c)
  chunkEmbeddings := by
    intro e
    refine Or.imp_right ?_ (h.chunkEmbeddings e)
    rintro ⟨chunk, hid, ht⟩
    exact ⟨chunk, hid, Or.imp (Touches.mono hsub) (Or.imp (Touches.mono hsub) (Touches.mono hsub)) ht⟩
  zoneUnits := fun u => Or.imp_right (Touches.mono hsub) (h.zoneUnits u)
  zoneUnitEmbeddings := by
    intro e
    refine Or.imp_right ?_ (h.zoneUnitEmbeddings e)
    rintro ⟨unit, hid, ht⟩
    exact ⟨unit, hid, ht.mono hsub⟩
  decisionZones := fun z => Or.imp_right (Touches.mono hsub) (h.decisionZones z)

theorem History.emitted {corpus : Corpus} {start db : Tables} (h : History corpus start scopes db) :
    Emitted scopes start db := by
  induction h with
  | nil => exact (Tables.same_refl start).emitted
  | commit h hemitted hnext ih => exact ih.trans hemitted

theorem History.consistent {corpus : Corpus} {start db : Tables} (h : History corpus start scopes db)
    (hstart : Consistent corpus start) : Consistent corpus db := by
  cases h with
  | nil => exact hstart
  | commit h hemitted hnext => exact hnext

end Compose

section Coalesced

theorem mem_insertKey {key k : Text} {keys : List Text} : k ∈ insertKey key keys ↔ k = key ∨ k ∈ keys := by
  induction keys with
  | nil => simp [insertKey]
  | cons k' keys ih =>
    rw [insertKey]
    by_cases heq : key = k'
    · rw [if_pos heq]
      simp [heq]
    · rw [if_neg heq]
      by_cases hlt : key < k'
      · rw [if_pos hlt]
        simp
      · rw [if_neg hlt, List.mem_cons, ih, List.mem_cons]
        exact or_left_comm

theorem mem_foldl_insertKey {more keys : List Text} {k : Text} :
    k ∈ more.foldl (fun keys k => insertKey k keys) keys ↔ k ∈ keys ∨ k ∈ more := by
  induction more generalizing keys with
  | nil => simp
  | cons m more ih =>
    rw [List.foldl_cons, ih, mem_insertKey, List.mem_cons]
    constructor
    · rintro ((heq | hk) | hm)
      · exact Or.inr (Or.inl heq)
      · exact Or.inl hk
      · exact Or.inr (Or.inr hm)
    · rintro (hk | heq | hm)
      · exact Or.inl (Or.inr hk)
      · exact Or.inl (Or.inl heq)
      · exact Or.inr hm

theorem mem_chunksWide {touched : Touched} {k : Text} :
    k ∈ chunksWide touched ↔ k ∈ touched .chunks ∨ k ∈ touched .documents := mem_foldl_insertKey

theorem mem_chunkEmbeddingsOnly {touched : Touched} {k : Text} :
    k ∈ chunkEmbeddingsOnly touched ↔ k ∈ touched .chunkEmbeddings ∧ k ∉ chunksWide touched := by
  simp [chunkEmbeddingsOnly]

/-- Coalescing keeps exactly the emitted keys, table by table. -/
theorem coalesce_ok {scopes : List ChangedScope} {touched : Touched}
    (hknown : ∀ scope ∈ scopes, ∃ table, touchedTable scope.tableName = some table) :
    ∃ all, coalesce scopes touched = .ok all ∧
      ∀ table k, k ∈ all table ↔ k ∈ touched table ∨ Touches scopes table k := by
  induction scopes generalizing touched with
  | nil => exact ⟨touched, rfl, by simp [Touches]⟩
  | cons scope scopes ih =>
    obtain ⟨table, htable⟩ := hknown scope List.mem_cons_self
    have hnote : noteScope touched scope =
        .ok (Function.update touched table (insertKey scope.scopeKey (touched table))) := by
      simp only [noteScope, htable]
    obtain ⟨all, hall, hmem⟩ := @ih (Function.update touched table (insertKey scope.scopeKey (touched table)))
      fun s hs => hknown s (List.mem_cons_of_mem scope hs)
    refine ⟨all, ?_, ?_⟩
    · rw [coalesce, hnote]
      exact hall
    · intro other k
      rw [hmem]
      have hhead : Touches (scope :: scopes) other k ↔
          (table = other ∧ scope.scopeKey = k) ∨ Touches scopes other k := by
        simp [Touches, htable]
      rw [hhead]
      by_cases heq : other = table
      · rw [heq, Function.update_self, mem_insertKey]
        constructor
        · rintro ((hk | hold) | ht)
          · exact Or.inr (Or.inl ⟨rfl, hk.symm⟩)
          · exact Or.inl hold
          · exact Or.inr (Or.inr ht)
        · rintro (hold | ⟨-, hk⟩ | ht)
          · exact Or.inl (Or.inr hold)
          · exact Or.inl (Or.inl hk.symm)
          · exact Or.inr ht
      · rw [Function.update_of_ne heq]
        have hne : table ≠ other := fun h => heq h.symm
        simp [hne]

end Coalesced

end Replica

end CorpusFeed
