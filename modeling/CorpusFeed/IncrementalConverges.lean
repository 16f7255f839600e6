import CorpusFeed.ReplaceSetStages

/-! An incremental package brings a client that holds the producer's rows of
the window's start to the rows of its end, table by table, and its replace-set
digests agree on the way. -/

namespace CorpusFeed

namespace Replica

section Bases

variable (collation : Collation) {corpus : Corpus} {touched : Touched} {hi db : Tables}

theorem hasKey_false {R K : Type} {key : R → K} [DecidableEq K] {t : Table key} {k : K} (h : ∀ r ∈ t, key r ≠ k) :
    t.hasKey k = false := by
  cases hkey : t.hasKey k with
  | false => rfl
  | true =>
    obtain ⟨r, hr, heq⟩ := Table.hasKey_iff.mp hkey
    exact absurd heq (h r hr)

theorem documents_stage (hhi : Consistent corpus hi) (h : Toward corpus touched hi db) :
    ∃ db', db.upsertDocuments (hi.documentOps collation (touched .documents)).1 = some db' ∧
      Toward corpus touched hi ((hi.documentOps collation (touched .documents)).2.foldl Tables.deleteDocument db') ∧
      ((hi.documentOps collation (touched .documents)).2.foldl Tables.deleteDocument db').documents.Same
        hi.documents := by
  have hread : ∀ k r, r ∈ hi.documents.scopeRows (byText collation DocumentRow.documentId)
      (fun d => d.documentId == k) ↔ r ∈ hi.documents ∧ r.documentId = k := fun k r => mem_scope_beq _ k r
  have hrows : ∀ r ∈ (hi.documentOps collation (touched .documents)).1, r ∈ hi.documents :=
    fun r hr => ((mem_baseOps_rows hread).mp hr).1
  refine ⟨{ db with
    documents := db.documents.upsertAll (hi.documentOps collation (touched .documents)).1 }, ?_, ?_⟩
  · rw [Tables.upsertDocuments, Table.upsertRows_ok fun r _ => rfl]
    rfl
  · refine base_stage (π := fun db : Tables => db.documents) hread h.documents (fun r _ s _ heq => heq) ?_ ?_ rfl ?_
    · intro s _ k r
      show r ∈ s.documents.filter (fun d => d.documentId ≠ k) ↔ _
      rw [Table.mem_filter, decide_eq_true_eq]
    · intro k hk s hs
      exact hs.deleteDocument hhi (hasKey_false hk)
    · exact { h with
        documents := h.documents.upsertAll hrows
        chunkDocument := fun c hc => Table.hasKey_upsertAll hrows (h.chunkDocument c hc) }

theorem responses_stage (hhi : Consistent corpus hi) (h : Toward corpus touched hi db)
    (hdocuments : db.documents.Same hi.documents) :
    ∃ db', db.upsertResponses (hi.responseOps (touched .officialApiResponses)).1 = some db' ∧
      (Toward corpus touched hi ((hi.responseOps (touched .officialApiResponses)).2.foldl
          Tables.deleteResponseKey db') ∧
        ((hi.responseOps (touched .officialApiResponses)).2.foldl Tables.deleteResponseKey db').documents.Same
          hi.documents) ∧
      ((hi.responseOps (touched .officialApiResponses)).2.foldl Tables.deleteResponseKey db').officialApiResponses.Same
        hi.officialApiResponses := by
  have hread : ∀ k r, r ∈ hi.officialApiResponses.scopeRows (KeyOrder.number.on OfficialApiResponseRow.responseId)
      (fun r => responseKey r.responseId == k) ↔ r ∈ hi.officialApiResponses ∧ responseKey r.responseId = k :=
    fun k r => mem_scope_beq (fun r : OfficialApiResponseRow => responseKey r.responseId) k r
  have hrows : ∀ r ∈ (hi.responseOps (touched .officialApiResponses)).1, r ∈ hi.officialApiResponses :=
    fun r hr => ((mem_baseOps_rows hread).mp hr).1
  refine ⟨{ db with
    officialApiResponses := db.officialApiResponses.upsertAll
      (hi.responseOps (touched .officialApiResponses)).1 }, ?_, ?_⟩
  · rw [Tables.upsertResponses, Table.upsertRows_ok fun r _ => rfl]
    rfl
  · refine base_stage (π := fun db : Tables => db.officialApiResponses)
      (P := fun db => Toward corpus touched hi db ∧ db.documents.Same hi.documents) hread h.responses
      (fun r _ s _ heq => responseKey_inj heq) ?_ ?_ rfl ?_
    · intro s _ k r
      rw [Tables.deleteResponseKey]
      cases hfind : s.officialApiResponses.rows.find? fun r => responseKey r.responseId = k with
      | none =>
        have hno := List.find?_eq_none.mp hfind
        constructor
        · intro hr
          exact ⟨hr, by simpa using hno r hr⟩
        · exact And.left
      | some row =>
        have hrow : responseKey row.responseId = k := by simpa using List.find?_some hfind
        show r ∈ s.officialApiResponses.filter (fun r => r.responseId ≠ row.responseId) ↔ _
        rw [Table.mem_filter, decide_eq_true_eq, ← hrow]
        apply and_congr_right
        intro _
        exact ⟨fun hne heq => hne (responseKey_inj heq), fun hne heq => hne (by rw [heq])⟩
    · rintro k hk s ⟨hs, hsame⟩
      rw [Tables.deleteResponseKey]
      cases hfind : s.officialApiResponses.rows.find? fun r => responseKey r.responseId = k with
      | none => exact ⟨hs, hsame⟩
      | some row =>
        have hrow : responseKey row.responseId = k := by simpa using List.find?_some hfind
        refine ⟨hs.deleteResponse hhi (hasKey_false ?_), hsame⟩
        intro r hr heq
        apply hk r hr
        rw [heq, hrow]
    · exact ⟨{ h with responses := h.responses.upsertAll hrows }, hdocuments⟩

theorem edges_stage (hhi : Consistent corpus hi) (h : Toward corpus touched hi db)
    (hdocuments : db.documents.Same hi.documents) :
    ∃ t, db.upsertEdges (hi.edgeRows collation (touched .documents)) = some { db with graphEdges := t } ∧
      t.Same hi.graphEdges := by
  have hmem : ∀ e, e ∈ hi.edgeRows collation (touched .documents) ↔
      e ∈ hi.graphEdges ∧ ∃ d ∈ touched .documents, e.fromDocumentId = some d := by
    intro e
    rw [Tables.edgeRows, List.mem_flatMap]
    constructor
    · rintro ⟨d, hd, he⟩
      obtain ⟨hin, hfrom⟩ := (mem_scope_beq GraphEdgeRow.fromDocumentId (some d) e).mp he
      exact ⟨hin, d, hd, hfrom⟩
    · rintro ⟨hin, d, hd, hfrom⟩
      exact ⟨d, hd, (mem_scope_beq GraphEdgeRow.fromDocumentId (some d) e).mpr ⟨hin, hfrom⟩⟩
  refine ⟨db.graphEdges.upsertAll (hi.edgeRows collation (touched .documents)), ?_, ?_⟩
  · rw [Tables.upsertEdges, Table.upsertRows_ok]
    · rfl
    · intro e he
      have hin := ((hmem e).mp he).1
      rw [Bool.and_eq_true, Option.all_eq_true, Option.all_eq_true]
      constructor
      · intro d hd
        rw [hdocuments.hasKey_eq]
        exact hhi.keys.edgeFrom e hin d hd
      · intro d hd
        rw [hdocuments.hasKey_eq]
        exact hhi.keys.edgeTo e hin d hd
  · apply Table.upsertAll_same
    · intro e he
      exact ((hmem e).mp he).1
    · intro e he
      rcases h.edgesNew e he with hold | htouched
      · exact Or.inr hold
      · exact Or.inl ((hmem e).mpr ⟨he, htouched⟩)
    · exact h.edgesKept

theorem roots_stage (h : Toward corpus touched hi db) :
    ∃ db', db.upsertMetadataRoots (hi.rootOps collation (touched .legiMetadataRoots)).1 = some db' ∧
      ∃ t, (hi.rootOps collation (touched .legiMetadataRoots)).2.foldl Tables.deleteMetadataRoot db' =
        { db with legiMetadataRoots := t } ∧ t.Same hi.legiMetadataRoots := by
  have hread : ∀ k r, r ∈ hi.legiMetadataRoots.scopeRows (byText collation LegiMetadataRootRow.metadataKey)
      (fun r => r.metadataKey == k) ↔ r ∈ hi.legiMetadataRoots ∧ r.metadataKey = k := fun k r => mem_scope_beq _ k r
  refine ⟨{ db with
    legiMetadataRoots := db.legiMetadataRoots.upsertAll
      (hi.rootOps collation (touched .legiMetadataRoots)).1 }, ?_, ?_⟩
  · rw [Tables.upsertMetadataRoots, Table.upsertRows_ok fun r _ => rfl]
    rfl
  · have hdelete : ∀ s : Tables, (∃ t, s = { db with legiMetadataRoots := t }) → ∀ k r,
        r ∈ (s.deleteMetadataRoot k).legiMetadataRoots ↔ r ∈ s.legiMetadataRoots ∧ r.metadataKey ≠ k := by
      intro s _ k r
      show r ∈ s.legiMetadataRoots.filter (fun r => r.metadataKey ≠ k) ↔ _
      rw [Table.mem_filter, decide_eq_true_eq]
    have hkeep : ∀ k, (∀ r ∈ hi.legiMetadataRoots, r.metadataKey ≠ k) → ∀ s : Tables,
        (∃ t, s = { db with legiMetadataRoots := t }) →
        ∃ t, s.deleteMetadataRoot k = { db with legiMetadataRoots := t } := by
      rintro k _ s ⟨t, ht⟩
      exact ⟨t.filter fun r => r.metadataKey ≠ k, by rw [ht]; rfl⟩
    obtain ⟨⟨t, ht⟩, hsame⟩ := base_stage (π := fun db : Tables => db.legiMetadataRoots) hread h.roots
      (fun r _ s _ heq => heq) hdelete hkeep rfl ⟨_, rfl⟩
    refine ⟨t, ht, ?_⟩
    rw [ht] at hsame
    exact hsame

theorem resolutions_stage (hhi : Consistent corpus hi) (h : Toward corpus touched hi db)
    (hresponses : db.officialApiResponses.Same hi.officialApiResponses) :
    ∃ db', db.upsertResolutions (hi.resolutionOps collation corpus (touched .citationResolutions)).1 = some db' ∧
      ∃ t, (hi.resolutionOps collation corpus (touched .citationResolutions)).2.foldl
        (fun db k => db.deleteResolution corpus k) db' = { db with citationResolutions := t } ∧
        t.Same hi.citationResolutions := by
  have hread : ∀ k r, r ∈ hi.citationResolutions.scopeRows
      (((byText collation Prod.fst).thenBy (byText collation Prod.snd)).on CitationResolutionRow.key)
      (fun r => r.key == (corpus.name, k)) ↔ r ∈ hi.citationResolutions ∧ r.citationKey = k := by
    intro k r
    rw [Table.mem_scopeRows, beq_iff_eq]
    apply and_congr_right
    intro hr
    have hcorpus := hhi.attributed r hr
    constructor
    · intro heq
      exact congrArg Prod.snd heq
    · intro heq
      exact Prod.ext hcorpus heq
  have hrows : ∀ r ∈ (hi.resolutionOps collation corpus (touched .citationResolutions)).1, r ∈ hi.citationResolutions :=
    fun r hr => ((mem_baseOps_rows hread).mp hr).1
  refine ⟨{ db with
    citationResolutions := db.citationResolutions.upsertAll
      (hi.resolutionOps collation corpus (touched .citationResolutions)).1 }, ?_, ?_⟩
  · rw [Tables.upsertResolutions, Table.upsertRows_ok]
    · rfl
    · intro r hr
      rw [Option.all_eq_true]
      intro id hid
      rw [hresponses.hasKey_eq]
      exact hhi.keys.resolutionResponse r (hrows r hr) id hid
  · let P : Tables → Prop := fun s => (∀ r ∈ s.citationResolutions, r.corpus = corpus.name) ∧
      ∃ t, s = { db with citationResolutions := t }
    have hdelete : ∀ s : Tables, P s → ∀ k r,
        r ∈ (s.deleteResolution corpus k).citationResolutions ↔ r ∈ s.citationResolutions ∧ r.citationKey ≠ k := by
      intro s hs k r
      show r ∈ s.citationResolutions.filter (fun r => r.key ≠ (corpus.name, k)) ↔ _
      rw [Table.mem_filter, decide_eq_true_eq]
      apply and_congr_right
      intro hr
      exact not_congr ⟨fun heq => congrArg Prod.snd heq, fun heq => Prod.ext (hs.1 r hr) heq⟩
    have hkeep : ∀ k, (∀ r ∈ hi.citationResolutions, r.citationKey ≠ k) → ∀ s : Tables, P s →
        P (s.deleteResolution corpus k) := by
      rintro k _ s ⟨hs, t, ht⟩
      refine ⟨fun r hr => hs r (Table.mem_filter.mp hr).1, t.filter fun r => r.key ≠ (corpus.name, k), ?_⟩
      rw [ht]
      rfl
    have hstart : P { db with
        citationResolutions := db.citationResolutions.upsertAll
          (hi.resolutionOps collation corpus (touched .citationResolutions)).1 } := by
      refine ⟨?_, _, rfl⟩
      intro r hr
      rcases (Table.mem_upsertAll_rows hrows).mp hr with hin | ⟨hold, -⟩
      · exact hhi.attributed r (hrows r hin)
      · exact h.attributed r hold
    obtain ⟨⟨-, t, ht⟩, hsame⟩ := base_stage (π := fun db : Tables => db.citationResolutions) hread h.resolutions
      (fun r hr s hs heq => Prod.ext ((hhi.attributed s hs).trans (h.attributed r hr).symm) heq) hdelete hkeep rfl
      hstart
    refine ⟨t, ht, ?_⟩
    rw [ht] at hsame
    exact hsame

theorem citations_stage (hhi : Consistent corpus hi) (h : Toward corpus touched hi db)
    (hdocuments : db.documents.Same hi.documents)
    (hresponses : db.officialApiResponses.Same hi.officialApiResponses) :
    ∃ t, db.upsertCitations (hi.citationRows collation (touched .decisionCitations)) =
        some { db with decisionCitations := t } ∧ t.Same hi.decisionCitations := by
  have hmem : ∀ c, c ∈ hi.citationRows collation (touched .decisionCitations) ↔
      c ∈ hi.decisionCitations ∧ c.decisionDocumentId ∈ touched .decisionCitations := by
    intro c
    rw [Tables.citationRows, List.mem_flatMap]
    constructor
    · rintro ⟨d, hd, hc⟩
      obtain ⟨hin, heq⟩ := (mem_scope_beq DecisionCitationRow.decisionDocumentId d c).mp hc
      rw [heq]
      exact ⟨hin, hd⟩
    · rintro ⟨hin, hd⟩
      exact ⟨c.decisionDocumentId, hd,
        (mem_scope_beq DecisionCitationRow.decisionDocumentId _ c).mpr ⟨hin, rfl⟩⟩
  refine ⟨db.decisionCitations.upsertAll (hi.citationRows collation (touched .decisionCitations)), ?_, ?_⟩
  · rw [Tables.upsertCitations, Table.upsertRows_ok]
    · rfl
    · intro c hc
      have hin := ((hmem c).mp hc).1
      rw [Bool.and_eq_true, hdocuments.hasKey_eq, hresponses.hasKey_eq]
      exact ⟨hhi.keys.citationDocument c hin, hhi.keys.citationResponse c hin⟩
  · apply Table.upsertAll_same
    · intro c hc
      exact ((hmem c).mp hc).1
    · intro c hc
      rcases h.citationsNew c hc with hold | htouched
      · exact Or.inr hold
      · exact Or.inl ((hmem c).mpr ⟨hc, htouched⟩)
    · exact h.citationsKept

end Bases

section Window

variable {D : Type} [DecidableEq D] (collation : Collation) {digest digest' : ReplaceSetRows → D} {corpus : Corpus}
  {touched : Touched} {scopes : List ChangedScope} {lo hi db : Tables}

/-- A document whose set is left to its delete has no rows on either side. -/
theorem not_skipped {d : Text} (hd : hi.documents.hasKey d = true) (hwide : d ∈ chunksWide touched) :
    d ∈ (chunksWide touched).filter fun k => !hi.skipsSet touched k := by
  rw [List.mem_filter]
  exact ⟨hwide, by simp [Tables.skipsSet, hd]⟩

/-- Once the base tables agree, only the replace-sets are left. -/
theorem Toward.setsLeft (hhi : Consistent corpus hi) (h : Toward corpus touched hi db)
    (hdocuments : db.documents.Same hi.documents)
    (hresponses : db.officialApiResponses.Same hi.officialApiResponses) (hedges : db.graphEdges.Same hi.graphEdges)
    (hroots : db.legiMetadataRoots.Same hi.legiMetadataRoots)
    (hresolutions : db.citationResolutions.Same hi.citationResolutions)
    (hcitations : db.decisionCitations.Same hi.decisionCitations) :
    SetsLeft hi ((chunksWide touched).filter fun k => !hi.skipsSet touched k) (chunkEmbeddingsOnly touched)
      (touched .zoneUnits) (touched .decisionZones) db where
  documents := hdocuments
  responses := hresponses
  edges := hedges
  roots := hroots
  resolutions := hresolutions
  citations := hcitations
  chunks := by
    intro c hc
    by_cases hwide : c.documentId ∈ chunksWide touched
    · have hnone : hi.documents.hasKey c.documentId ≠ true := fun hkey => hc (not_skipped hkey hwide)
      constructor
      · intro hdb
        have hkey := h.chunkDocument c hdb
        rw [hdocuments.hasKey_eq] at hkey
        exact absurd hkey hnone
      · intro hin
        exact absurd (hhi.keys.chunkDocument c hin) hnone
    · exact h.chunks c hwide
  chunkEmbeddings := by
    intro e he
    rw [List.mem_append, not_or] at he
    by_cases hwide : chunkOwner e.chunkId ∈ chunksWide touched
    · have hnone : hi.documents.hasKey (chunkOwner e.chunkId) ≠ true := fun hkey => he.1 (not_skipped hkey hwide)
      constructor
      · intro hdb
        have hkey := hasKey_owner chunkOwner_chunkId h.chunkDocument (h.embeddingChunk e hdb)
        rw [hdocuments.hasKey_eq] at hkey
        exact absurd hkey hnone
      · intro hin
        exact absurd (hasKey_owner chunkOwner_chunkId hhi.keys.chunkDocument (hhi.keys.embeddingChunk e hin)) hnone
    · apply h.chunkEmbeddings e
      rw [List.mem_append, not_or]
      exact ⟨hwide, he.2⟩
  zoneUnits := h.zoneUnits
  zoneUnitEmbeddings := h.zoneUnitEmbeddings
  decisionZones := h.decisionZones
  embeddingChunk := h.embeddingChunk
  embeddingUnit := h.embeddingUnit

/-- A client at the window's start is within the coalesced keys of its end. -/
theorem Emitted.toward (hlo : Consistent corpus lo) (h : Emitted scopes lo hi)
    (htouched : ∀ table k, Touches scopes table k → k ∈ touched table) : Toward corpus touched hi lo where
  documents := fun d hd => (h.documents d).resolve_right fun ht => hd (htouched _ _ ht)
  responses := fun r hr => (h.officialApiResponses r).resolve_right fun ht => hr (htouched _ _ ht)
  edgesNew := by
    intro e he
    rcases h.graphEdges e he with hold | ⟨d, hd, ht⟩
    · exact Or.inl hold
    · exact Or.inr ⟨d, htouched _ _ ht, hd⟩
  edgesKept := h.edgesKept
  roots := fun r hr => (h.legiMetadataRoots r).resolve_right fun ht => hr (htouched _ _ ht)
  resolutions := fun r hr => (h.citationResolutions r).resolve_right fun ht => hr (htouched _ _ ht)
  attributed := hlo.attributed
  citationsNew := fun c hc => Or.imp_right (htouched _ _) (h.decisionCitations c hc)
  citationsKept := h.citationsKept
  chunks := by
    intro c hc
    apply (h.chunks c).resolve_right
    intro ht
    exact hc (mem_chunksWide.mpr (Or.imp (htouched _ _) (htouched _ _) ht))
  chunkEmbeddings := by
    intro e he
    rw [List.mem_append, not_or] at he
    apply (h.chunkEmbeddings e).resolve_right
    rintro ⟨c, hid, ht⟩
    have howner : chunkOwner e.chunkId = c.documentId := by rw [← hid, chunkOwner_chunkId]
    simp only [howner] at he
    rcases ht with honly | hwide
    · exact he.2 (mem_chunkEmbeddingsOnly.mpr ⟨htouched _ _ honly, he.1⟩)
    · exact he.1 (mem_chunksWide.mpr (Or.imp (htouched _ _) (htouched _ _) hwide))
  zoneUnits := fun u hu => (h.zoneUnits u).resolve_right fun ht => hu (htouched _ _ ht)
  zoneUnitEmbeddings := by
    intro e he
    apply (h.zoneUnitEmbeddings e).resolve_right
    rintro ⟨u, hid, ht⟩
    have howner : zoneUnitOwner e.zoneUnitId = u.documentId := by rw [← hid, zoneUnitOwner_zoneUnitId]
    simp only [howner] at he
    exact he (htouched _ _ ht)
  decisionZones := fun z hz => (h.decisionZones z).resolve_right fun ht => hz (htouched _ _ ht)
  chunkDocument := hlo.keys.chunkDocument
  embeddingChunk := hlo.keys.embeddingChunk
  embeddingUnit := hlo.keys.embeddingUnit

theorem SetsLeft.same (h : SetsLeft hi [] [] [] [] db) : db.Same hi where
  documents := h.documents
  officialApiResponses := h.responses
  graphEdges := h.edges
  legiMetadataRoots := h.roots
  citationResolutions := h.resolutions
  decisionCitations := h.citations
  chunks := agreeOutside_nil.mp h.chunks
  chunkEmbeddings := agreeOutside_nil.mp h.chunkEmbeddings
  zoneUnits := agreeOutside_nil.mp h.zoneUnits
  zoneUnitEmbeddings := agreeOutside_nil.mp h.zoneUnitEmbeddings
  decisionZones := agreeOutside_nil.mp h.decisionZones

section Placed

variable {edges : Table GraphEdgeRow.edgeId} {roots : Table LegiMetadataRootRow.metadataKey}
  {resolutions : Table CitationResolutionRow.key} {citations : Table DecisionCitationRow.occurrenceId}

theorem Toward.placeEdges (h : Toward corpus touched hi db) (hedges : edges.Same hi.graphEdges) :
    Toward corpus touched hi { db with graphEdges := edges } :=
  { h with
    edgesNew := fun e he => Or.inl ((hedges e).mpr he)
    edgesKept := fun e he => ⟨e, (hedges e).mp he, rfl⟩ }

theorem Toward.placeRoots (h : Toward corpus touched hi db) (hroots : roots.Same hi.legiMetadataRoots) :
    Toward corpus touched hi { db with legiMetadataRoots := roots } :=
  { h with roots := fun r _ => hroots r }

theorem Toward.placeResolutions (hhi : Consistent corpus hi) (h : Toward corpus touched hi db)
    (hresolutions : resolutions.Same hi.citationResolutions) :
    Toward corpus touched hi { db with citationResolutions := resolutions } :=
  { h with
    resolutions := fun r _ => hresolutions r
    attributed := fun r hr => hhi.attributed r ((hresolutions r).mp hr) }

theorem Toward.placeCitations (h : Toward corpus touched hi db) (hcitations : citations.Same hi.decisionCitations) :
    Toward corpus touched hi { db with decisionCitations := citations } :=
  { h with
    citationsNew := fun c hc => Or.inl ((hcitations c).mpr hc)
    citationsKept := fun c hc => ⟨c, (hcitations c).mp hc, rfl⟩ }

end Placed

theorem statement_some_bind {α β : Type} (a : α) (f : α → Except SyncError β) :
    (statement (some a) >>= f) = f a := rfl

/-- The files bring a client within the touched keys to the producer's rows. -/
theorem applyIncrementalFiles_same (hhi : Consistent corpus hi) (halike : SameDigests collation digest digest' hi)
    (h : Toward corpus touched hi db) :
    ∃ last, db.applyIncrementalFiles collation digest' corpus (hi.materialize collation digest corpus touched) =
      .ok last ∧ last.Same hi := by
  obtain ⟨db1, h1, htoward1, hdocuments1⟩ := documents_stage collation hhi h
  obtain ⟨db2, h2, ⟨htoward2, hdocuments⟩, hresponses⟩ := responses_stage hhi htoward1 hdocuments1
  obtain ⟨edges, h3, hedges⟩ := edges_stage collation hhi htoward2 hdocuments
  have htoward3 := htoward2.placeEdges hedges
  obtain ⟨db4, h4, roots, h4', hroots⟩ := roots_stage collation htoward3
  have htoward4 := htoward3.placeRoots hroots
  obtain ⟨db5, h5, resolutions, h5', hresolutions⟩ := resolutions_stage collation hhi htoward4 hresponses
  have htoward5 := htoward4.placeResolutions hhi hresolutions
  obtain ⟨citations, h6, hcitations⟩ := citations_stage collation hhi htoward5 hdocuments hresponses
  have htoward6 := htoward5.placeCitations hcitations
  have hleft := htoward6.setsLeft hhi hdocuments hresponses hedges hroots hresolutions hcitations
  obtain ⟨last, hsets, hdone⟩ := hleft.applySets hhi halike
  refine ⟨last, ?_, hdone.same⟩
  simp only [Tables.applyIncrementalFiles, Tables.materialize, h1, h2, h3, h4, h4', h5, h5', h6, statement_some_bind]
  exact hsets

/-- The client after the package of a window, or as it was for a window without one. -/
def follow (digest : ReplaceSetRows → D) (corpus : Corpus) (db : Tables)
    (payload : Option (IncrementalPayload D)) : Except SyncError Tables :=
  match payload with
  | none => .ok db
  | some payload => db.applyIncrementalFiles collation digest corpus payload

/-- A window without scopes has nothing to carry. -/
theorem Emitted.same_of_nil (h : Emitted [] lo hi) : lo.Same hi where
  documents := fun d => (h.documents d).resolve_right (by simp [Touches])
  officialApiResponses := fun r => (h.officialApiResponses r).resolve_right (by simp [Touches])
  graphEdges := by
    have hsub : ∀ e ∈ hi.graphEdges, e ∈ lo.graphEdges :=
      fun e he => (h.graphEdges e he).resolve_right (by simp [Touches])
    intro e
    constructor
    · intro he
      obtain ⟨e', he', hid⟩ := h.edgesKept e he
      rwa [← Table.eq_of_key_eq (hsub e' he') he hid]
    · exact hsub e
  legiMetadataRoots := fun r => (h.legiMetadataRoots r).resolve_right (by simp [Touches])
  citationResolutions := fun r => (h.citationResolutions r).resolve_right (by simp [Touches])
  decisionCitations := by
    have hsub : ∀ c ∈ hi.decisionCitations, c ∈ lo.decisionCitations :=
      fun c hc => (h.decisionCitations c hc).resolve_right (by simp [Touches])
    intro c
    constructor
    · intro hc
      obtain ⟨c', hc', hid⟩ := h.citationsKept c hc
      rwa [← Table.eq_of_key_eq (hsub c' hc') hc hid]
    · exact hsub c
  chunks := fun c => (h.chunks c).resolve_right (by simp [Touches])
  chunkEmbeddings := fun e => (h.chunkEmbeddings e).resolve_right (by simp [Touches])
  zoneUnits := fun u => (h.zoneUnits u).resolve_right (by simp [Touches])
  zoneUnitEmbeddings := fun e => (h.zoneUnitEmbeddings e).resolve_right (by simp [Touches])
  decisionZones := fun z => (h.decisionZones z).resolve_right (by simp [Touches])

/-- What a client needs of a window: that its scopes cover the changes. -/
theorem follow_same {client : Tables} (hlo : Consistent corpus lo) (hclient : client.Same lo)
    (hhi : Consistent corpus hi) (halike : SameDigests collation digest digest' hi) (hemitted : Emitted scopes lo hi) :
    ∃ payload, buildPayload collation digest hi corpus scopes = .ok payload ∧
      ∃ db, follow collation digest' corpus client payload = .ok db ∧ db.Same hi := by
  have hstart : Emitted scopes client hi := hclient.emitted.trans hemitted
  cases scopes with
  | nil => exact ⟨none, rfl, client, rfl, hstart.same_of_nil⟩
  | cons scope scopes =>
    obtain ⟨touched, hcoalesce, hmem⟩ := @coalesce_ok _ (fun _ => []) hemitted.known
    have htouched : ∀ table k, Touches (scope :: scopes) table k → k ∈ touched table :=
      fun table k ht => (hmem table k).mpr (Or.inr ht)
    have htoward := hstart.toward (hclient.consistent hlo) htouched
    obtain ⟨db, hfiles, hsame⟩ := applyIncrementalFiles_same collation hhi halike htoward
    refine ⟨some (hi.materialize collation digest corpus touched), ?_, db, hfiles, hsame⟩
    simp only [buildPayload, hcoalesce]

/-- Whatever the producer's transactions did in a window, a client that holds the
rows of its start holds those of its end after the window's package, if it reads these
as the builder does. -/
theorem incremental_converges (digestBytes : Text → Text) {builder applier : Reader} {client : Tables}
    (hlo : Consistent corpus lo) (hclient : client.Same lo) (h : History corpus lo scopes hi)
    (halike : ReadsAlike builder applier hi) :
    ∃ payload, buildPayload builder.collation (builder.digest digestBytes) hi corpus scopes = .ok payload ∧
      ∃ db, follow applier.collation (applier.digest digestBytes) corpus client payload = .ok db ∧ db.Same hi := by
  rw [halike.collation_eq]
  exact follow_same builder.collation hlo hclient (h.consistent hlo) (halike.sameDigests digestBytes) h.emitted

end Window

section Sample

def emptyTables : Tables :=
  ⟨.empty, .empty, .empty, .empty, .empty, .empty, .empty, .empty, .empty, .empty, .empty⟩

/-- A chunk made on 2026-01-01 at 00:00 UTC. -/
def onlyChunk (documentId : Text) : ChunkRow :=
  ⟨documentId, 0, [("created_at".toList, .timestamptz (.finite 1767225600000000))]⟩

/-- One document with its only chunk. -/
def oneDocument (documentId : Text) : Tables :=
  { emptyTables with
    documents := ⟨[⟨documentId, .null⟩], List.nodup_singleton _⟩
    chunks := ⟨[onlyChunk documentId], List.nodup_singleton _⟩ }

def replacedScopes : List ChangedScope :=
  [⟨1, "documents".toList, .upsert, "document".toList, "a".toList⟩,
    ⟨2, "documents".toList, .upsert, "document".toList, "b".toList⟩]

theorem mem_oneDocument_documents {d : Text} {r : DocumentRow} : r ∈ (oneDocument d).documents ↔ r = ⟨d, .null⟩ :=
  List.mem_singleton

theorem mem_oneDocument_chunks {d : Text} {c : ChunkRow} : c ∈ (oneDocument d).chunks ↔ c = onlyChunk d :=
  List.mem_singleton

theorem consistent_oneDocument (corpus : Corpus) (d : Text) : Consistent corpus (oneDocument d) where
  keys := {
    edgeFrom := fun e he => absurd he (Table.not_mem_empty e)
    edgeTo := fun e he => absurd he (Table.not_mem_empty e)
    citationDocument := fun c hc => absurd hc (Table.not_mem_empty c)
    citationResponse := fun c hc => absurd hc (Table.not_mem_empty c)
    resolutionResponse := fun r hr => absurd hr (Table.not_mem_empty r)
    chunkDocument := fun c hc => by
      rw [mem_oneDocument_chunks.mp hc]
      exact Table.hasKey_iff.mpr ⟨⟨d, .null⟩, mem_oneDocument_documents.mpr rfl, rfl⟩
    embeddingChunk := fun e he => absurd he (Table.not_mem_empty e)
    unitDocument := fun u hu => absurd hu (Table.not_mem_empty u)
    embeddingUnit := fun e he => absurd he (Table.not_mem_empty e)
    zonesDocument := fun z hz => absurd hz (Table.not_mem_empty z) }
  attributed := fun r hr => absurd hr (Table.not_mem_empty r)

theorem touches_documents {scopes : List ChangedScope} {scope : ChangedScope} (h : scope ∈ scopes)
    (htable : scope.tableName = "documents".toList) : Touches scopes .documents scope.scopeKey :=
  ⟨scope, h, by simp [touchedTable, htable], rfl⟩

/-- The document and its chunk give way to another one's. -/
theorem emitted_oneDocument {scopes : List ChangedScope} {d d' : Text}
    (hdocuments : ∀ scope ∈ scopes, scope.tableName = "documents".toList) (hd : Touches scopes .documents d)
    (hd' : Touches scopes .documents d') : Emitted scopes (oneDocument d) (oneDocument d') where
  known := fun scope hscope => ⟨.documents, by simp [touchedTable, hdocuments scope hscope]⟩
  documents := by
    intro r
    rw [mem_oneDocument_documents, mem_oneDocument_documents]
    by_cases hold : r.documentId = d
    · rw [hold]
      exact Or.inr hd
    · by_cases hnew : r.documentId = d'
      · rw [hnew]
        exact Or.inr hd'
      · left
        constructor
        · intro heq
          exact absurd (by rw [heq]) hold
        · intro heq
          exact absurd (by rw [heq]) hnew
  officialApiResponses := fun r => Or.inl Iff.rfl
  graphEdges := fun e he => Or.inl he
  edgesKept := fun e he => absurd he (Table.not_mem_empty e)
  legiMetadataRoots := fun r => Or.inl Iff.rfl
  citationResolutions := fun r => Or.inl Iff.rfl
  decisionCitations := fun c hc => Or.inl hc
  citationsKept := fun c hc => absurd hc (Table.not_mem_empty c)
  chunks := by
    intro c
    rw [mem_oneDocument_chunks, mem_oneDocument_chunks]
    by_cases hold : c.documentId = d
    · rw [hold]
      exact Or.inr (Or.inr hd)
    · by_cases hnew : c.documentId = d'
      · rw [hnew]
        exact Or.inr (Or.inr hd')
      · left
        constructor
        · intro heq
          exact absurd (by rw [heq]; rfl) hold
        · intro heq
          exact absurd (by rw [heq]; rfl) hnew
  chunkEmbeddings := fun e => Or.inl Iff.rfl
  zoneUnits := fun u => Or.inl Iff.rfl
  zoneUnitEmbeddings := fun e => Or.inl Iff.rfl
  decisionZones := fun z => Or.inl Iff.rfl

/-- A builder in UTC, and a client that is one hour ahead in the summer. -/
def utcReader : Reader := ⟨codePointCollation, utcSession⟩

def londonReader : Reader := ⟨codePointCollation, londonSession⟩

theorem readsAlike_oneDocument (d : Text) : ReadsAlike utcReader londonReader (oneDocument d) where
  sorted := fun _ _ => rfl
  offsets := by
    intro cells hcells micros hmicros
    obtain rfl : cells = (onlyChunk d).cells := List.mem_singleton.mp hcells
    simp [ChunkRow.cells, onlyChunk] at hmicros
    rw [hmicros]
    rfl

/-- SHA-256 of the set of the document `b`. -/
def setSha256 (text : Text) : Text :=
  if text = ("\x7b\"chunk_embeddings\":[]," ++
      "\"chunks\":[\x7b\"chunk_id\":\"chunk:b:0\",\"chunk_index\":0,\"created_at\":\"2026-01-01T00:00:00+00:00\",\"document_id\":\"b\"\x7d]\x7d").toList then
    "sha256:d299ac005eba1f16e6a7544767dc53d8091481aeeddfae7ae4f45ab658de1611".toList
  else []

theorem emitted_replacedScopes : Emitted replacedScopes (oneDocument "a".toList) (oneDocument "b".toList) := by
  apply emitted_oneDocument
  · simp [replacedScopes]
  · exact touches_documents List.mem_cons_self rfl
  · exact touches_documents (List.mem_cons_of_mem _ List.mem_cons_self) rfl

theorem incremental_converges_replaced_document :
    ∃ payload, buildPayload utcReader.collation (utcReader.digest setSha256) (oneDocument "b".toList) coreCorpus
        ([] ++ replacedScopes) = .ok payload ∧
      ∃ db, follow londonReader.collation (londonReader.digest setSha256) coreCorpus (oneDocument "a".toList) payload =
        .ok db ∧ db.Same (oneDocument "b".toList) :=
  incremental_converges setSha256 (consistent_oneDocument coreCorpus _) (Tables.same_refl _)
    (.commit .nil emitted_replacedScopes (consistent_oneDocument coreCorpus _)) (readsAlike_oneDocument _)

end Sample

end Replica

end CorpusFeed
