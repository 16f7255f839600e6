import CorpusFeed.ArticleCeiling

/-! The ceiling of 6000 characters over both corpora. The budget of a decision is
that of its bare body, and a backfill does not look at the ceiling, so each has a
condition of its own. -/

namespace CorpusFeed

open HierarchyStore (LegiAction perform PathsLeaveRoom UnderCeiling RowsFollow run_underCeiling_iff)

theorem chunks_under_ceiling {P : Type*} (setup : ParserSetup P) (collation : Collation) :
    (∀ member source d, setup.parseJuriMember source member = .ok (.decision d) →
      ((∀ chunk ∈ d.chunks, chunk.contextualizedBody.length ≤ juriDecisionChunkMaxChars) ↔
        DecisionLeavesRoom d.toCanonicalDecision)) ∧
    ∀ actions, (∀ a, LegiAction.ingest (.article a) ∈ actions → ArticleParsed a.toCanonicalDocument) →
      (RunMeets (perform collation) (PathsLeaveRoom collation) HierarchyStore.empty actions ↔
        ∀ before after, actions = before ++ after →
          UnderCeiling (runFrom (perform collation) HierarchyStore.empty before)) := by
  constructor
  · intro member source d h
    exact ParserSetup.decision_fits h
  · intro actions hparsed
    exact run_underCeiling_iff hparsed RowsFollow.empty UnderCeiling.empty

section TwoParagraphs

/-- Two paragraphs of 6000 characters together with the line feed between them. -/
theorem two_paragraphs_crowded :
    ∃ d, (setupOf (twoParagraphs (List.replicate 3000 'a') (List.replicate 2999 'b'))).parseJuriMember .cass
        (memberOf (twoParagraphsXml (List.replicate 3000 'a') (List.replicate 2999 'b'))) = .ok (.decision d) ∧
      ¬ ∀ chunk ∈ d.chunks, chunk.contextualizedBody.length ≤ juriDecisionChunkMaxChars := by
  have hp : Dark (List.replicate 3000 'a') := dark_replicate (by simp) (by decide)
  have hq : Dark (List.replicate 2999 'b') := dark_replicate (by simp) (by decide)
  obtain ⟨d, hparse, hbody, hcontext, _⟩ := twoParagraphs_parsed hp hq
  refine ⟨d, hparse, fun hfits => ?_⟩
  obtain ⟨hroom, _⟩ := (ParserSetup.decision_fits hparse).mp hfits
  have hoverhead : overheadOf "2020-01-01".toList = 12 := by decide
  rw [hbody, bodyParagraphs_two hp hq, hcontext, hoverhead] at hroom
  simp only [List.map_cons, List.map_nil, List.length_replicate] at hroom
  exact absurd hroom (by decide)

def shortRecord : CanonicalDocument where
  documentId := "legi:LEGIARTI000000000001@2020-01-01".toList
  source := "legi".toList
  kind := "article".toList
  sourceUid := "LEGIARTI000000000001".toList
  versionGroup := some "LEGIARTI000000000001".toList
  citation := some "LEGI Article LEGIARTI000000000001".toList
  title := some "Article LEGIARTI000000000001".toList
  body := "Un.\nDeux.".toList
  validFrom := "2020-01-01".toList
  validTo := none
  validToRaw := some "2999-01-01".toList
  sourceUrl := none
  sourcePayloadHash := formatSha256 (Vector.replicate 32 0)
  hierarchyPath := []
  publisherEdges := []
  chunks := []

/-- The article of two paragraphs as it is stored. -/
def shortArticle : AcceptedArticle where
  toCanonicalDocument := { shortRecord with chunks := buildArticleChunks shortRecord }
  chunks_built := rfl
  edges_own := by decide
  accepted := by decide

set_option maxRecDepth 4000 in
theorem shortArticle_parsed : ArticleParsed shortArticle.toCanonicalDocument := by
  have hdocument : (LegiXml.parseArticle (setupOf articleEvents).sha256 ((setupOf articleEvents).readEvents articleXml)
      articleXml ((setupOf articleEvents).fromArchiveMember (memberOf articleXml))).toOption.any
        (fun d => decide (d.toCanonicalDocument = shortArticle.toCanonicalDocument)) = true := by decide +kernel
  obtain ⟨d, hparse⟩ := articleMember_parsed
  have hutf8 : JsonlOp.fromUtf8 (memberOf articleXml).bytes = some articleXml := JsonlOp.fromUtf8_asBytes articleXml
  have hparsed := hparse
  rw [ParserSetup.parseLegiMember, hutf8] at hparsed
  have harticle := (LegiXml.parseLegiEvents_article.mp hparsed).2
  rw [harticle] at hdocument
  exact ⟨Unit, _, _, d, hparse, of_decide_eq_true hdocument⟩

def shortSection : SectionTa :=
  ⟨"legi:LEGISCTA000000000001@2000-01-01".toList, some "LEGISCTA000000000001".toList, "Section 1".toList, some "2000-01-01".toList, none,
    ["Code civil".toList]⟩

def codeStruct : TextStruct where
  metadataKey := "legi:LEGITEXT000000000001".toList
  sourceUid := "LEGITEXT000000000001".toList
  structureLinks := [⟨lienSectionTa, some "LEGISCTA000000000001".toList, some 1, some "Section 1".toList, []⟩,
    ⟨lienArt, some "LEGIARTI000000000001".toList, some 2, none, []⟩]

/-- The article is ingested before the section that it is in, and the structure of
their text. -/
def sectionRun : List LegiAction :=
  [.ingest (.article shortArticle), .ingest (.sectionTa shortSection), .ingest (.textStruct codeStruct),
    .backfill fullScope]

def beforeBackfill : HierarchyStore :=
  ((HierarchyStore.empty.ingest (.article shortArticle)).ingest (.sectionTa shortSection)).ingest (.textStruct codeStruct)

theorem section_offered : beforeBackfill.offeredPath codePointCollation fullScope shortArticle.documentId =
    some ["Code civil".toList, "Section 1".toList] := by
  decide +kernel

theorem section_leaves_room : ∀ chunk ∈ shortArticle.chunks,
    overheadOf (" > ".toList.intercalate (["Code civil".toList, "Section 1".toList] ++ shortArticle.title.toList)) +
      chunk.body.length ≤ legiArticleContextualizedChunkMaxChars := by
  decide

theorem sectionRun_leavesRoom :
    RunMeets (perform codePointCollation) (PathsLeaveRoom codePointCollation) HierarchyStore.empty sectionRun := by
  refine ⟨trivial, trivial, trivial, fun document hd path hoffered _ chunk hchunk _ => ?_, trivial⟩
  have hdocument : document = shortArticle.toCanonicalDocument := by
    rcases Table.mem_upsert.mp hd with heq | ⟨hempty, -⟩
    · exact heq
    · exact absurd hempty (Table.not_mem_empty document)
  subst hdocument
  obtain rfl : ["Code civil".toList, "Section 1".toList] = path :=
    Option.some.inj (section_offered.symm.trans hoffered)
  exact section_leaves_room chunk hchunk

/-- Two short paragraphs, and a run whose backfill puts a parsed article under its
section. -/
theorem short_paragraphs_under_ceiling :
    (∃ d, (setupOf (twoParagraphs ['a'] ['b'])).parseJuriMember .cass (memberOf (twoParagraphsXml ['a'] ['b'])) =
        .ok (.decision d) ∧ ∀ chunk ∈ d.chunks, chunk.contextualizedBody.length ≤ juriDecisionChunkMaxChars) ∧
      ∀ before after, sectionRun = before ++ after →
        UnderCeiling (runFrom (perform codePointCollation) HierarchyStore.empty before) := by
  constructor
  · have hp : Dark ['a'] := ⟨by simp, forall_mem_of_all (by decide)⟩
    have hq : Dark ['b'] := ⟨by simp, forall_mem_of_all (by decide)⟩
    obtain ⟨d, hparse, hbody, hcontext, hsummaries⟩ := twoParagraphs_parsed hp hq
    refine ⟨d, hparse, ((chunks_under_ceiling _ codePointCollation).1 _ .cass d hparse).mpr ⟨?_, Or.inl ?_⟩⟩
    · have hoverhead : overheadOf "2020-01-01".toList = 12 := by decide
      rw [hbody, bodyParagraphs_two hp hq, hcontext, hoverhead]
      decide
    · rw [summaryText, hsummaries]
      rfl
  · have hitems : ∀ b, LegiAction.ingest (.article b) ∈ sectionRun → ArticleParsed b.toCanonicalDocument := by
      intro b hb
      simp only [sectionRun, List.mem_cons, LegiAction.ingest.injEq, LegiItem.article.injEq, List.not_mem_nil,
        reduceCtorEq, or_false] at hb
      rw [hb]
      exact shortArticle_parsed
    exact ((chunks_under_ceiling (setupOf []) codePointCollation).2 _ hitems).mp sectionRun_leavesRoom

end TwoParagraphs

end CorpusFeed
