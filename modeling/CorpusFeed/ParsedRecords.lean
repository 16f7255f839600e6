import CorpusFeed.BodyPieces
import CorpusFeed.MemberXml

/-! What the parsers return: articles and decisions whose bodies are tidy and whose
chunks are those of their builders. -/

namespace CorpusFeed

theorem bodyChunks_with (decision : CanonicalDecision) (built chunks : List CanonicalChunk) (context : Text)
    (pieces : List BodyPiece) :
    bodyChunks { decision with chunks := built } context chunks pieces = bodyChunks decision context chunks pieces := by
  have hmake : ∀ (i : Nat) (body kind boundary : Text) (fields : List Text),
      makeChunk { decision with chunks := built } context i body kind boundary fields =
        makeChunk decision context i body kind boundary fields := fun _ _ _ _ _ => rfl
  induction pieces generalizing chunks with
  | nil => rfl
  | cons piece pieces ih => simp only [bodyChunks, hmake, ih]

theorem buildDecisionChunks_with (decision : CanonicalDecision) (built : List CanonicalChunk) :
    buildDecisionChunks { decision with chunks := built } = buildDecisionChunks decision := by
  have hcontext : decisionContext { decision with chunks := built } = decisionContext decision := rfl
  have hsummary : summaryChunks { decision with chunks := built } = summaryChunks decision := rfl
  simp only [buildDecisionChunks, hcontext, hsummary, bodyChunks_with]

namespace LegiXml

theorem collapsed_boundary {raw : RawArticle} {stack : List Text} (h : Collapsed raw.body) :
    Collapsed (appendBoundaryForCurrentTag raw stack).body := by
  unfold appendBoundaryForCurrentTag
  split
  · exact h.appendBlockBoundary
  · exact h

theorem pushPublisherLink_body {raw raw' : RawArticle} {tag : XmlTag} {sourceTag : Text}
    (h : pushPublisherLink raw tag sourceTag = .ok raw') : raw'.body = raw.body := by
  unfold pushPublisherLink at h
  split at h
  · cases h
  · cases h
    rfl

theorem assignArticleText_body (raw : RawArticle) (stack : List Text) (value : Text) :
    (assignArticleText raw stack value).body =
      if inBodyContext stack then appendXmlContent raw.body value else raw.body := by
  unfold assignArticleText
  repeat' split
  all_goals rfl

/-- Every event leaves a collapsed body. -/
theorem step_collapsed {s s' : XmlState ArticleReading} {event : XmlEvent} (h : Collapsed s.raw.raw.body)
    (hstep : articleHandlers.step s event = .ok s') : Collapsed s'.raw.raw.body := by
  have htext : ∀ value, Collapsed (articleHandlers.text s.stack s.raw value).raw.body := by
    intro value
    have hbody := assignArticleText_body s.raw.raw s.stack value
    simp only [articleHandlers, hbody]
    split
    · exact h.appendXmlContent value
    · exact h
  have htake : ∀ value, articleHandlers.takeText s value = .ok s' → Collapsed s'.raw.raw.body := by
    intro value hvalue
    cases value with
    | error message => cases hvalue
    | ok value =>
      cases hvalue
      exact htext value
  cases event with
  | start tag =>
    simp only [XmlHandlers.step, articleHandlers] at hstep
    split at hstep
    · cases hstep
    · next raw hraw =>
      cases hstep
      split at hraw
      · split at hraw
        · cases hraw
        · next pushed hpushed =>
          cases hraw
          rw [pushPublisherLink_body hpushed]
          exact h
      · cases hraw
        exact h
  | empty tag =>
    simp only [XmlHandlers.step, articleHandlers] at hstep
    split at hstep
    · cases hstep
    · next raw hraw =>
      cases hstep
      split at hraw
      · split at hraw
        · cases hraw
        · next pushed hpushed =>
          cases hraw
          exact collapsed_boundary (by rwa [pushPublisherLink_body hpushed])
      · cases hraw
        exact collapsed_boundary h
  | close =>
    cases hstep
    exact collapsed_boundary h
  | text value => exact htake value hstep
  | cdata value => exact htake (.ok value) hstep
  | generalRef reference => exact htake (resolveReference reference) hstep
  | other =>
    cases hstep
    exact h
  | error message => cases hstep

theorem requiredNonEmpty_ok {entity field : String} {value result : Text}
    (h : requiredNonEmpty entity field value = .ok result) : result = trim value ∧ isBlank value = false := by
  unfold requiredNonEmpty at h
  split at h
  · cases h
  · next hblank =>
    cases h
    exact ⟨rfl, by simpa using hblank⟩

theorem articleHeader_body {raw : RawArticle} {header : ArticleHeader} (h : articleHeader raw = .ok header) :
    header.body = trim raw.body ∧ isBlank raw.body = false := by
  unfold articleHeader at h
  split at h
  · cases h
  split at h
  · cases h
  split at h
  · cases h
  split at h
  · cases h
  split at h
  · cases h
  split at h
  · cases h
  split at h
  · cases h
  split at h
  · cases h
  · next body hbody =>
    cases h
    exact requiredNonEmpty_ok hbody

/-- An article as `parse_article` returns it. -/
structure IsParsed (d : ArticleRecord) : Prop where
  tidy : Tidy d.body
  nonempty : d.body ≠ []
  chunks_built : d.chunks = buildArticleChunks d.toCanonicalDocument
  accepted : d.toCanonicalDocument.validate = none

variable {sha256 : Bytes → Vector UInt8 32} {events : List XmlEvent} {xml : Text} {provenance : SourceProvenance}

theorem parseArticle_isParsed {d : ArticleRecord} (h : parseArticle sha256 events xml provenance = .ok d) :
    IsParsed d := by
  obtain ⟨s, hrun, hdocument⟩ := parseRoot_ok.mp h
  have hcollapsed : Collapsed s.raw.raw.body :=
    @XmlHandlers.run_keeps _ _ articleHandlers _ _ _ (fun s => Collapsed s.raw.raw.body)
      (fun _ _ _ hs hstep => step_collapsed hs hstep) Collapsed.nil hrun
  unfold RawArticle.intoDocument at hdocument
  cases hheader : articleHeader s.raw.raw with
  | error e =>
    rw [hheader] at hdocument
    cases hdocument
  | ok header =>
    obtain ⟨hbody, hblank⟩ := articleHeader_body hheader
    simp only [hheader] at hdocument
    split at hdocument
    · cases hdocument
    · next haccepted =>
      cases hdocument
      have htidy : Tidy header.body := by
        rw [hbody]
        exact hcollapsed.trim
      refine ⟨htidy, fun he => ?_, (buildArticleChunks_with _ _).symm, haccepted⟩
      have hempty : trim s.raw.raw.body = [] := hbody.symm.trans he
      simp [isBlank, hempty] at hblank

end LegiXml

namespace JuriXml

open LegiXml (payloadHashOf)

theorem bodyParagraphs_finishBody (buffer : Text) :
    ∀ paragraph ∈ bodyParagraphs (finishBody buffer), paragraph ≠ [] ∧ Tidy paragraph := by
  have hlines : ∀ line ∈ ((buffer.splitOn '\n').map collapseWs).filter fun line => !line.isEmpty,
      Tidy line ∧ '\n' ∉ line := by
    intro line hline
    obtain ⟨value, _, rfl⟩ := List.mem_map.mp (List.mem_filter.mp hline).1
    exact ⟨tidy_collapseWs value, not_mem_collapseWs value⟩
  intro paragraph hparagraph
  obtain ⟨hmem, hne⟩ := List.mem_filter.mp hparagraph
  obtain ⟨line, hline, rfl⟩ := List.mem_map.mp hmem
  have htidy : Tidy line := by
    rw [finishBody] at hline
    generalize hall : ((buffer.splitOn '\n').map collapseWs).filter (fun line => !line.isEmpty) = all at hline hlines
    by_cases he : all = []
    · have hempty : line = [] := by simpa [he] using hline
      exact hempty ▸ Tidy.nil
    · rw [List.splitOn_intercalate '\n' (fun line hl => (hlines line hl).2) he] at hline
      exact (hlines line hline).1
  exact ⟨by simpa using hne, by rwa [htidy.trim_eq]⟩

theorem publisherEdge_source {sha256 : Bytes → Vector UInt8 32} {d : DecisionRecord} {links : List RawLink} :
    ∀ edge ∈ buildPublisherEdges sha256 d links, edge.edgeSource = "publisher".toList := by
  intro edge hedge
  obtain ⟨entry, _, hentry⟩ := List.mem_filterMap.mp hedge
  unfold publisherEdge at hentry
  dsimp only at hentry
  split at hentry
  · cases hentry
  · cases hentry
    rfl

theorem inferEdges_source {sha256 : Bytes → Vector UInt8 32} {patterns : CitationPatterns} {d : DecisionRecord}
    {edges : List CanonicalGraphEdge} {seen : List Text} {captures : List ArticleCapture}
    (h : ∀ edge ∈ edges, edge.edgeSource = "inferred".toList) :
    ∀ edge ∈ inferEdges sha256 patterns d edges seen captures, edge.edgeSource = "inferred".toList := by
  induction captures generalizing edges seen with
  | nil => exact h
  | cons capture rest ih =>
    rw [inferEdges]
    dsimp only
    split
    · exact h
    split
    · exact ih h
    · refine ih fun edge hedge => ?_
      rcases List.mem_append.mp hedge with hedge | hedge
      · exact h edge hedge
      · rw [List.mem_singleton.mp hedge]
        rfl

theorem decisionHeader_ok {family : JuriFamily} {raw : RawDecision} {header : DecisionHeader}
    (h : decisionHeader family raw = .ok header) :
    uidValid family header.sourceUid = true ∧ dateValid header.decisionDate = true ∧
      header.body = finishBody raw.body ∧ isBlank header.body = false := by
  unfold decisionHeader at h
  split at h
  · cases h
  split at h
  · cases h
  · next huid =>
    split at h
    · cases h
    split at h
    · cases h
    · next hdate =>
      split at h
      · cases h
      · next hbody =>
        cases h
        exact ⟨by simpa using huid, by simpa using hdate, rfl, by simpa using hbody⟩

/-- A decision as `parse_juri_member` returns it. -/
structure IsParsed (d : DecisionRecord) : Prop where
  body : ∃ buffer, d.body = finishBody buffer
  nonempty : isBlank d.body = false
  chunks_built : d.chunks = buildDecisionChunks d.toCanonicalDecision
  accepted : d.toCanonicalDecision.validate = none

theorem edgeChecks_pass {edgeSource : Text} {message : String} {edges : List CanonicalGraphEdge}
    (h : ∀ edge ∈ edges, edge.edgeSource = edgeSource) :
    ∀ check ∈ edgeChecks edgeSource message edges, check.1 = false := by
  intro check hcheck
  obtain ⟨edge, hedge, rfl⟩ := List.mem_map.mp hcheck
  simp [h edge hedge]

/-- What the validation of a decision asks for, apart from its chunks and edges. -/
structure HeaderAccepted (d : CanonicalDecision) : Prop where
  kind : d.kind = "decision".toList
  family : juriFamilyOf d.source = some d.sourceFamily
  provenance : d.chunkingProvenance = "heuristic".toList
  version : d.canonicalVersion = juriDecisionCanonicalVersion
  uid : d.sourceFamily.uidPrefix.isPrefixOf d.sourceUid = true
  id : d.documentId = d.source ++ ":".toList ++ d.sourceUid
  date : dateValid d.decisionDate = true
  body : isBlank d.body = false
  hash : payloadHashValid d.sourcePayloadHash = true

theorem HeaderAccepted.validate {d : CanonicalDecision} (h : HeaderAccepted d)
    (hchunks : refusedChunk (validateChunk d) d.chunks = none)
    (hpublisher : ∀ edge ∈ d.publisherEdges, edge.edgeSource = "publisher".toList)
    (hinferred : ∀ edge ∈ d.inferredEdges, edge.edgeSource = "inferred".toList) : d.validate = none := by
  rw [CanonicalDecision.validate, Option.or_eq_none_iff, Option.or_eq_none_iff, hchunks]
  refine ⟨⟨firstFailure_eq_none.mpr fun check hcheck => ?_, rfl⟩, firstFailure_eq_none.mpr fun check hcheck => ?_⟩
  · simp only [List.mem_cons, List.not_mem_nil, or_false] at hcheck
    rcases hcheck with rfl | rfl | rfl | rfl | rfl | rfl | rfl | rfl | rfl
    · simp only [h.kind, bne_self_eq_false]
    · simp only [h.family, bne_self_eq_false]
    · simp only [h.provenance, bne_self_eq_false]
    · simp only [h.version, bne_self_eq_false]
    · simp only [h.uid, Bool.not_true]
    · simp only [h.id, bne_self_eq_false]
    · simp only [h.date, Bool.not_true]
    · exact h.body
    · simp only [h.hash, Bool.not_true]
  · rcases List.mem_append.mp hcheck with hcheck | hcheck
    · exact edgeChecks_pass hpublisher check hcheck
    · exact edgeChecks_pass hinferred check hcheck

theorem uid_prefix {family : JuriFamily} {uid : Text} (h : uidValid family uid = true) :
    family.uidPrefix.isPrefixOf uid = true := by
  unfold uidValid stripPrefix at h
  split at h
  · cases h
  · next suffix hsuffix =>
    split at hsuffix
    · next hprefix => exact hprefix
    · cases hsuffix

variable {sha256 : Bytes → Vector UInt8 32} {patterns : CitationPatterns} {events : List XmlEvent} {xml : Text}
  {provenance : SourceProvenance} {source : ArchiveSource} {family : JuriFamily}

theorem parseDecision_isParsed {d : DecisionRecord} (hfamily : juriFamilyOf source.asStr = some family)
    (hhash : payloadHashValid (payloadHashOf sha256 xml provenance) = true)
    (h : parseDecision sha256 patterns events source family xml provenance = .ok d) : IsParsed d := by
  unfold parseDecision at h
  split at h
  · cases h
  next s hrun =>
  unfold RawDecision.intoDecision at h
  cases hheader : decisionHeader family s.raw with
  | error e =>
    rw [hheader] at h
    cases h
  | ok header =>
    obtain ⟨huid, hdate, hbody, hblank⟩ := decisionHeader_ok hheader
    simp only [hheader] at h
    cases h
    have hpieces : ∀ piece ∈ splitBody header.body juriDecisionChunkMaxChars, isBlank piece.text = false := by
      rw [hbody]
      exact (splitBody_pieces _ _).not_blank (by decide) (bodyParagraphs_finishBody s.raw.body)
    refine ⟨⟨s.raw.body, hbody⟩, hblank, (buildDecisionChunks_with _ _).symm, ?_⟩
    refine HeaderAccepted.validate ⟨rfl, hfamily, rfl, rfl, uid_prefix huid, rfl, hdate, hblank, hhash⟩ ?_
      publisherEdge_source (inferEdges_source (by simp))
    have hchecked := @buildDecisionChunks_accepted (withInferredEdges sha256 patterns (withPublisherEdges sha256
      (decisionShell source family s.raw header (payloadHashOf sha256 xml provenance) provenance)
      s.raw.links)).toCanonicalDecision hpieces hhash
    exact hchecked

end JuriXml

end CorpusFeed
