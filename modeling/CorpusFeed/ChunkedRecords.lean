import CorpusFeed.ParsedRecords
import CorpusFeed.TwoParagraphs

/-! Chunking loses and repeats no text: what the chunks of a parsed record hold,
put together again, is its body. -/

namespace CorpusFeed

/-- Consecutive ranges that go from `start` to `stop`. -/
def Partitions (start stop : Nat) : List (Nat × Nat) → Prop
  | [] => start = stop + 1
  | range :: rest => range.1 = start ∧ range.1 ≤ range.2 ∧ Partitions (range.2 + 1) stop rest

def alineaField (range : Nat × Nat) : Text :=
  "BLOC_TEXTUEL/CONTENU/alinea:".toList ++ padDecimal 1 range.1 ++ "-".toList ++ padDecimal 1 range.2

/-- The chunk names the range, and holds its units. -/
def HoldsRange (units : List Text) (chunk : CanonicalChunk) (range : Nat × Nat) : Prop :=
  alineaField range ∈ chunk.sourceFields ∧
    chunk.body = ['\n'].intercalate ((units.drop (range.1 - 1)).take (range.2 + 1 - range.1))

/-- The chunks of an article are its whole body, or ranges of its units. -/
structure ArticleChunked (d : CanonicalDocument) : Prop where
  text : ['\n'].intercalate (d.chunks.map CanonicalChunk.body) = d.body
  ranges : (∃ chunk, d.chunks = [chunk] ∧ chunk.boundary = "article".toList) ∨
    ∃ ranges, Partitions 1 (structuralArticleBodyUnits d.body).length ranges ∧
      List.Forall₂ (HoldsRange (structuralArticleBodyUnits d.body)) d.chunks ranges
  indices : ∀ i, ∀ h : i < d.chunks.length, d.chunks[i].chunkIndex = i

def isBodyChunk (chunk : CanonicalChunk) : Bool := chunk.chunkKind == "decision_body".toList

/-- What consecutive body chunks hold: a pack of paragraphs, or one paragraph in
slices. -/
def HoldsParagraphs (group : List CanonicalChunk × List Text) : Prop :=
  (group.1.map CanonicalChunk.body).flatten = ['\n'].intercalate group.2 ∧
    ((∃ chunk, group.1 = [chunk] ∧ chunk.boundary = "paragraph".toList) ∨
      (group.2.length = 1 ∧ ∀ chunk ∈ group.1, chunk.boundary = "hard_split".toList))

structure DecisionChunked (d : CanonicalDecision) : Prop where
  text : ∃ groups : List (List CanonicalChunk × List Text), (∀ group ∈ groups, HoldsParagraphs group) ∧
    groups.flatMap Prod.fst = d.chunks.filter isBodyChunk ∧ groups.flatMap Prod.snd = bodyParagraphs d.body ∧
    ['\n'].intercalate (groups.map fun group => (group.1.map CanonicalChunk.body).flatten) =
      ['\n'].intercalate (bodyParagraphs d.body)
  bounded : ∀ chunk ∈ d.chunks.filter isBodyChunk, chunk.body.length ≤ juriDecisionChunkMaxChars
  indices : ∀ i, ∀ h : i < d.chunks.length, d.chunks[i].chunkIndex = i

section Article

variable {document : CanonicalDocument} {context : Text}

def alineaRanges (start : Nat) : List (List Text) → List (Nat × Nat)
  | [] => []
  | units :: groups => (start, start + units.length - 1) :: alineaRanges (start + units.length) groups

theorem partitions_alineaRanges {start : Nat} {groups : List (List Text)} (hstart : 0 < start)
    (hgroups : ∀ group ∈ groups, group ≠ []) :
    Partitions start (start + groups.flatten.length - 1) (alineaRanges start groups) := by
  induction groups generalizing start with
  | nil =>
    simp only [alineaRanges, Partitions, List.flatten_nil, List.length_nil]
    omega
  | cons units groups ih =>
    have hpos : 0 < units.length := List.length_pos_of_ne_nil (hgroups units List.mem_cons_self)
    have hrest := @ih (start + units.length) (by omega) fun group hg => hgroups group (List.mem_cons_of_mem units hg)
    have hnext : start + units.length - 1 + 1 = start + units.length := by omega
    have hstop : start + units.length + groups.flatten.length - 1 =
        start + (units :: groups).flatten.length - 1 := by
      rw [List.flatten_cons, List.length_append]
      omega
    refine ⟨rfl, ?_, ?_⟩
    · change start ≤ start + units.length - 1
      omega
    · change Partitions (start + units.length - 1 + 1) _ (alineaRanges (start + units.length) groups)
      rw [hnext, ← hstop]
      exact hrest

theorem alineaField_mem {index start stop : Nat} {units : List Text} :
    alineaField (start, stop) ∈ (alineaChunk document context index units start stop).sourceFields := by
  have hfields : (alineaChunk document context index units start stop).sourceFields =
      ["BLOC_TEXTUEL/CONTENU".toList, alineaField (start, stop)] := rfl
  rw [hfields]
  exact List.mem_cons_of_mem _ List.mem_cons_self

theorem alineaChunks_hold {index : Nat} {before : List Text} {groups : List (List Text)}
    (hgroups : ∀ group ∈ groups, group ≠ []) :
    List.Forall₂ (HoldsRange (before ++ groups.flatten))
      (alineaChunks document context index (before.length + 1) groups) (alineaRanges (before.length + 1) groups) := by
  induction groups generalizing index before with
  | nil => exact List.Forall₂.nil
  | cons units groups ih =>
    have hpos : 0 < units.length := List.length_pos_of_ne_nil (hgroups units List.mem_cons_self)
    have hrest := @ih (index + 1) (before ++ units) fun group hg => hgroups group (List.mem_cons_of_mem units hg)
    have hnext : (before ++ units).length + 1 = before.length + 1 + units.length := by
      rw [List.length_append]
      omega
    have hall : before ++ units ++ groups.flatten = before ++ (units :: groups).flatten := by simp
    rw [hnext, hall] at hrest
    refine List.Forall₂.cons ⟨?_, ?_⟩ hrest
    · exact alineaField_mem
    · have hdrop : (before ++ (units :: groups).flatten).drop (before.length + 1 - 1) = units ++ groups.flatten := by
        simp
      have htake : before.length + 1 + units.length - 1 + 1 - (before.length + 1) = units.length := by omega
      simp only [hdrop, htake, List.take_left']
      rfl

theorem alineaChunks_bodies {index start : Nat} {groups : List (List Text)} :
    (alineaChunks document context index start groups).map CanonicalChunk.body =
      groups.map ['\n'].intercalate := by
  induction groups generalizing index start with
  | nil => rfl
  | cons units groups ih =>
    rw [alineaChunks, List.map_cons, ih]
    rfl

theorem buildArticleChunks_chunked (htidy : Tidy document.body) (hne : document.body ≠ [])
    (hchunks : document.chunks = buildArticleChunks document) : ArticleChunked document := by
  have hindices : ∀ i, ∀ h : i < document.chunks.length, document.chunks[i].chunkIndex = i := by
    rw [hchunks]
    intro i hi
    obtain ⟨body, boundary, fields, _, hchunk⟩ := buildArticleChunks_at (htidy.not_blank hne) i hi
    rw [hchunk]
    rfl
  rcases buildArticleChunks_cases htidy hne with ⟨hwhole, _⟩ | ⟨groups, _, hflat, hgroups, hpacked⟩
  · refine ⟨?_, Or.inl ⟨_, hchunks.trans hwhole, rfl⟩, hindices⟩
    rw [hchunks, hwhole]
    simp [wholeArticleChunk, buildArticleChunk]
  · have hnonempty : ∀ group ∈ groups, group ≠ [] := fun group hg => (hgroups group hg).1
    have hjoin := join_structuralArticleBodyUnits htidy hne
    refine ⟨?_, Or.inr ⟨alineaRanges 1 groups, ?_, ?_⟩, hindices⟩
    · rw [hchunks, hpacked, alineaChunks_bodies, intercalate_flatten hnonempty, hflat, hjoin]
    · have hpartition := partitions_alineaRanges (by decide : 0 < 1) hnonempty
      rw [hflat] at hpartition
      rwa [Nat.add_sub_cancel_left] at hpartition
    · have hhold := @alineaChunks_hold document (articleChunkContext document) 0 [] groups hnonempty
      rw [List.nil_append, hflat] at hhold
      rw [hchunks, hpacked]
      exact hhold

end Article

section Decision

variable {decision : CanonicalDecision} {context : Text}

def bodyChunksFrom (decision : CanonicalDecision) (context : Text) (index : Nat) :
    List BodyPiece → List CanonicalChunk
  | [] => []
  | piece :: rest => makeChunk decision context index piece.text "decision_body".toList piece.boundary
      ["TEXTE/BLOC_TEXTUEL/CONTENU".toList] :: bodyChunksFrom decision context (index + 1) rest

theorem bodyChunks_eq (chunks : List CanonicalChunk) (pieces : List BodyPiece) :
    bodyChunks decision context chunks pieces = chunks ++ bodyChunksFrom decision context chunks.length pieces := by
  induction pieces generalizing chunks with
  | nil => simp [bodyChunks, bodyChunksFrom]
  | cons piece rest ih =>
    rw [bodyChunks, ih, bodyChunksFrom, List.length_append, List.length_singleton, List.append_assoc,
      List.singleton_append]

theorem bodyChunksFrom_append (index : Nat) (pieces more : List BodyPiece) :
    bodyChunksFrom decision context index (pieces ++ more) =
      bodyChunksFrom decision context index pieces ++ bodyChunksFrom decision context (index + pieces.length) more := by
  induction pieces generalizing index with
  | nil => rfl
  | cons piece pieces ih =>
    have hnext : index + 1 + pieces.length = index + (piece :: pieces).length := by
      rw [List.length_cons]
      omega
    rw [List.cons_append, bodyChunksFrom, bodyChunksFrom, ih, hnext, List.cons_append]

theorem bodyChunksFrom_bodies (index : Nat) (pieces : List BodyPiece) :
    (bodyChunksFrom decision context index pieces).map CanonicalChunk.body = pieces.map BodyPiece.text := by
  induction pieces generalizing index with
  | nil => rfl
  | cons piece pieces ih =>
    rw [bodyChunksFrom, List.map_cons, ih]
    rfl

theorem mem_bodyChunksFrom {index : Nat} {pieces : List BodyPiece} {chunk : CanonicalChunk}
    (h : chunk ∈ bodyChunksFrom decision context index pieces) :
    ∃ piece ∈ pieces, ∃ i, chunk = makeChunk decision context i piece.text "decision_body".toList piece.boundary
      ["TEXTE/BLOC_TEXTUEL/CONTENU".toList] := by
  induction pieces generalizing index with
  | nil => cases h
  | cons piece pieces ih =>
    rcases List.mem_cons.mp h with rfl | h
    · exact ⟨piece, List.mem_cons_self, index, rfl⟩
    · obtain ⟨found, hfound, i, heq⟩ := ih h
      exact ⟨found, List.mem_cons_of_mem piece hfound, i, heq⟩

theorem filter_isBodyChunk (pieces : List BodyPiece) :
    (bodyChunks decision context (summaryChunks decision context) pieces).filter isBodyChunk =
      bodyChunksFrom decision context (summaryChunks decision context).length pieces := by
  have hsummary : (summaryChunks decision context).filter isBodyChunk = [] := by
    refine List.filter_eq_nil_iff.mpr fun chunk hchunk => ?_
    unfold summaryChunks at hchunk
    dsimp only at hchunk
    split at hchunk
    · cases hchunk
    · rw [List.mem_singleton.mp hchunk]
      change ¬ ("decision_summary".toList == "decision_body".toList) = true
      decide
  have hbody : (bodyChunksFrom decision context (summaryChunks decision context).length pieces).filter isBodyChunk =
      bodyChunksFrom decision context (summaryChunks decision context).length pieces := by
    refine List.filter_eq_self.mpr fun chunk hchunk => ?_
    obtain ⟨piece, _, i, rfl⟩ := mem_bodyChunksFrom hchunk
    change ("decision_body".toList == "decision_body".toList) = true
    exact beq_self_eq_true _
  rw [bodyChunks_eq, List.filter_append, hsummary, hbody, List.nil_append]

def chunkGroups (decision : CanonicalDecision) (context : Text) (index : Nat) :
    List (List BodyPiece × List Text) → List (List CanonicalChunk × List Text)
  | [] => []
  | group :: rest => (bodyChunksFrom decision context index group.1, group.2) ::
      chunkGroups decision context (index + group.1.length) rest

theorem chunkGroups_chunks (index : Nat) (groups : List (List BodyPiece × List Text)) :
    (chunkGroups decision context index groups).flatMap Prod.fst =
      bodyChunksFrom decision context index (groups.flatMap Prod.fst) := by
  induction groups generalizing index with
  | nil => rfl
  | cons group groups ih =>
    rw [chunkGroups, List.flatMap_cons, List.flatMap_cons, ih, bodyChunksFrom_append]

theorem chunkGroups_paragraphs (index : Nat) (groups : List (List BodyPiece × List Text)) :
    (chunkGroups decision context index groups).map Prod.snd = groups.map Prod.snd := by
  induction groups generalizing index with
  | nil => rfl
  | cons group groups ih => rw [chunkGroups, List.map_cons, List.map_cons, ih]

theorem holds_chunkGroups {index maxChars : Nat} {groups : List (List BodyPiece × List Text)}
    (hgroups : ∀ group ∈ groups, PieceGroup maxChars group) :
    ∀ group ∈ chunkGroups decision context index groups, HoldsParagraphs group := by
  induction groups generalizing index with
  | nil => simp [chunkGroups]
  | cons first groups ih =>
    intro group hgroup
    have hfirst := hgroups first List.mem_cons_self
    rcases List.mem_cons.mp hgroup with rfl | hgroup
    · have htext : ((bodyChunksFrom decision context index first.1).map CanonicalChunk.body).flatten =
          ['\n'].intercalate first.2 := by
        rw [bodyChunksFrom_bodies]
        exact hfirst.text.1
      refine ⟨htext, ?_⟩
      rcases hfirst with ⟨piece, hpieces, hboundary, _⟩ | ⟨paragraph, hparagraph, _, hpieces⟩
      · have hone : bodyChunksFrom decision context index first.1 = [makeChunk decision context index piece.text
            "decision_body".toList piece.boundary ["TEXTE/BLOC_TEXTUEL/CONTENU".toList]] := by
          rw [hpieces]
          rfl
        exact Or.inl ⟨_, hone, hboundary⟩
      · refine Or.inr ⟨by simp [hparagraph], fun chunk hchunk => ?_⟩
        obtain ⟨piece, hpiece, i, rfl⟩ := mem_bodyChunksFrom hchunk
        rw [hpieces] at hpiece
        obtain ⟨slice, _, rfl⟩ := List.mem_map.mp hpiece
        rfl
    · exact ih (fun g hg => hgroups g (List.mem_cons_of_mem first hg)) group hgroup

theorem buildDecisionChunks_chunked (hparagraphs : ∀ paragraph ∈ bodyParagraphs decision.body,
    paragraph ≠ [] ∧ Tidy paragraph) (hchunks : decision.chunks = buildDecisionChunks decision) :
    DecisionChunked decision := by
  have hpieces := splitBody_pieces decision.body juriDecisionChunkMaxChars
  have hnotBlank := hpieces.not_blank (by decide) hparagraphs
  have hbounded := hpieces.length_le (by decide)
  obtain ⟨groups, hgroups, hfst, hsnd⟩ := hpieces
  have hbody : decision.chunks.filter isBodyChunk =
      bodyChunksFrom decision (decisionContext decision) (summaryChunks decision (decisionContext decision)).length
        (splitBody decision.body juriDecisionChunkMaxChars) := by
    rw [hchunks]
    exact filter_isBodyChunk _
  refine ⟨?_, ?_, ?_⟩
  · generalize hstart : (summaryChunks decision (decisionContext decision)).length = index at hbody
    have hholds := @holds_chunkGroups decision (decisionContext decision) index _ groups hgroups
    have hsecond : (chunkGroups decision (decisionContext decision) index groups).flatMap Prod.snd =
        bodyParagraphs decision.body := by
      rw [List.flatMap_def, chunkGroups_paragraphs, ← List.flatMap_def, hsnd]
    refine ⟨_, hholds, ?_, hsecond, ?_⟩
    · rw [chunkGroups_chunks, hfst, hbody]
    · have htexts : (chunkGroups decision (decisionContext decision) index groups).map
          (fun group => (group.1.map CanonicalChunk.body).flatten) =
            ((chunkGroups decision (decisionContext decision) index groups).map Prod.snd).map ['\n'].intercalate := by
        rw [List.map_map]
        exact List.map_congr_left fun group hg => (hholds group hg).1
      have hnonempty : ∀ group ∈ groups.map Prod.snd, group ≠ [] := by
        intro group hgroup
        obtain ⟨pair, hpair, rfl⟩ := List.mem_map.mp hgroup
        exact (hgroups pair hpair).text.2
      rw [htexts, chunkGroups_paragraphs, intercalate_flatten hnonempty, ← List.flatMap_def, hsnd]
  · intro chunk hchunk
    rw [hbody] at hchunk
    obtain ⟨piece, hpiece, i, rfl⟩ := mem_bodyChunksFrom hchunk
    exact hbounded piece hpiece
  · rw [hchunks]
    intro i hi
    obtain ⟨body, kind, boundary, fields, _, hchunk⟩ := buildDecisionChunks_at hnotBlank i hi
    rw [hchunk]
    rfl

end Decision

theorem LegiXml.IsParsed.chunked {d : LegiXml.ArticleRecord} (h : LegiXml.IsParsed d) :
    ArticleChunked d.toCanonicalDocument :=
  buildArticleChunks_chunked h.tidy h.nonempty h.chunks_built

theorem JuriXml.IsParsed.chunked {d : JuriXml.DecisionRecord} (h : JuriXml.IsParsed d) :
    DecisionChunked d.toCanonicalDecision := by
  refine buildDecisionChunks_chunked ?_ h.chunks_built
  obtain ⟨buffer, hbuffer⟩ := h.body
  rw [hbuffer]
  exact JuriXml.bodyParagraphs_finishBody buffer

namespace ParserSetup

variable {P : Type*} {setup : ParserSetup P} {member : XmlMember P} {source : ArchiveSource}

theorem parseLegiMember_isParsed {d : LegiXml.ArticleRecord}
    (h : setup.parseLegiMember member = .ok (.article d)) : LegiXml.IsParsed d := by
  unfold parseLegiMember at h
  split at h
  · cases h
  · exact LegiXml.parseArticle_isParsed (LegiXml.parseLegiEvents_article.mp h).2

theorem payloadHashValid_formatSha256 (hash : Vector UInt8 32) : payloadHashValid (formatSha256 hash) = true := by
  have hlabel : sha256Label <+: formatSha256 hash := List.prefix_append _ _
  exact List.isPrefixOf_iff_prefix.mpr hlabel

theorem parseJuriMember_isParsed {d : JuriXml.DecisionRecord}
    (h : setup.parseJuriMember source member = .ok (.decision d)) : JuriXml.IsParsed d := by
  unfold parseJuriMember at h
  split at h
  · cases h
  · next xml _ =>
    obtain ⟨family, _, _, hfamily, hparse⟩ := JuriXml.parseJuriEvents_decision.mp h
    have hhash : payloadHashValid (LegiXml.payloadHashOf setup.sha256 xml (setup.fromArchiveMember member)) = true :=
      payloadHashValid_formatSha256 _
    exact JuriXml.parseDecision_isParsed hfamily hhash hparse

/-- What the parsers return is accepted by its own validation, and its chunks hold
its text once and in order. -/
theorem parsed_chunked (setup : ParserSetup P) (member : XmlMember P) :
    (∀ d, setup.parseLegiMember member = .ok (.article d) →
      ArticleChunked d.toCanonicalDocument ∧ d.toCanonicalDocument.validate = none) ∧
    ∀ source d, setup.parseJuriMember source member = .ok (.decision d) →
      DecisionChunked d.toCanonicalDecision ∧ d.toCanonicalDecision.validate = none := by
  constructor
  · intro d h
    have hparsed := parseLegiMember_isParsed h
    exact ⟨hparsed.chunked, hparsed.accepted⟩
  · intro source d h
    have hparsed := parseJuriMember_isParsed h
    exact ⟨hparsed.chunked, hparsed.accepted⟩

end ParserSetup

section Samples

theorem exists_of_isOk {ε α : Type*} {result : Except ε α} (h : result.isOk = true) : ∃ a, result = .ok a := by
  cases result with
  | error e => cases h
  | ok a => exact ⟨a, rfl⟩

open XmlEvent (element plain)

/-- An article of two paragraphs, as the reader yields it. -/
def articleEvents : List XmlEvent :=
  element "ARTICLE"
    (element "META_COMMUN" (element "ID" [plain "LEGIARTI000000000001"] ++ element "NATURE" [plain "Article"]) ++
      element "META_ARTICLE" (element "DATE_DEBUT" [plain "2020-01-01"] ++ element "DATE_FIN" [plain "2999-01-01"]) ++
      element "BLOC_TEXTUEL" (element "CONTENU" (element "p" [plain "Un."] ++ element "p" [plain "Deux."])))

def decisionEvents : List XmlEvent :=
  element "TEXTE_JURI_JUDI"
    (element "ID" [plain "JURITEXT000000000001"] ++ element "DATE_DEC" [plain "2020-01-01"] ++
      element "BLOC_TEXTUEL" (element "CONTENU" (element "p" [plain "Un."] ++ element "p" [plain "Deux."])))

def articleXml : Text :=
  ("<ARTICLE><META_COMMUN><ID>LEGIARTI000000000001</ID><NATURE>Article</NATURE></META_COMMUN>" ++
    "<META_ARTICLE><DATE_DEBUT>2020-01-01</DATE_DEBUT><DATE_FIN>2999-01-01</DATE_FIN></META_ARTICLE>" ++
    "<BLOC_TEXTUEL><CONTENU><p>Un.</p><p>Deux.</p></CONTENU></BLOC_TEXTUEL></ARTICLE>").toList

def decisionXml : Text :=
  ("<TEXTE_JURI_JUDI><ID>JURITEXT000000000001</ID><DATE_DEC>2020-01-01</DATE_DEC>" ++
    "<BLOC_TEXTUEL><CONTENU><p>Un.</p><p>Deux.</p></CONTENU></BLOC_TEXTUEL></TEXTE_JURI_JUDI>").toList

set_option maxRecDepth 4000 in
theorem articleMember_parsed :
    ∃ d, (setupOf articleEvents).parseLegiMember (memberOf articleXml) = .ok (.article d) := by
  have hutf8 : JsonlOp.fromUtf8 (memberOf articleXml).bytes = some articleXml := JsonlOp.fromUtf8_asBytes articleXml
  have hok : (LegiXml.parseArticle (setupOf articleEvents).sha256 ((setupOf articleEvents).readEvents articleXml)
      articleXml ((setupOf articleEvents).fromArchiveMember (memberOf articleXml))).isOk = true := by decide +kernel
  have hroot : LegiXml.detectRoot ((setupOf articleEvents).readEvents articleXml) = .ok "ARTICLE".toList := rfl
  obtain ⟨d, hd⟩ := exists_of_isOk hok
  have hparse : (setupOf articleEvents).parseLegiMember (memberOf articleXml) = .ok (.article d) := by
    rw [ParserSetup.parseLegiMember, hutf8]
    exact LegiXml.parseLegiEvents_article.mpr ⟨hroot, hd⟩
  exact ⟨d, hparse⟩

/-- Two paragraphs that do not fit into one chunk. -/
theorem two_paragraphs_chunked :
    (∃ d, (setupOf (twoAlineas (List.replicate 4000 'a') (List.replicate 4000 'b'))).parseLegiMember
        (memberOf (twoAlineasXml (List.replicate 4000 'a') (List.replicate 4000 'b'))) = .ok (.article d) ∧
      d.body = List.replicate 4000 'a' ++ '\n' :: List.replicate 4000 'b' ∧
      ArticleChunked d.toCanonicalDocument ∧ d.toCanonicalDocument.validate = none) ∧
    ∃ d, (setupOf (twoParagraphs (List.replicate 4000 'a') (List.replicate 4000 'b'))).parseJuriMember .cass
        (memberOf (twoParagraphsXml (List.replicate 4000 'a') (List.replicate 4000 'b'))) = .ok (.decision d) ∧
      d.body = List.replicate 4000 'a' ++ '\n' :: List.replicate 4000 'b' ∧
      DecisionChunked d.toCanonicalDecision ∧ d.toCanonicalDecision.validate = none := by
  have hp : Dark (List.replicate 4000 'a') := dark_replicate (by simp) (by decide)
  have hq : Dark (List.replicate 4000 'b') := dark_replicate (by simp) (by decide)
  obtain ⟨article, harticle, hbody⟩ := twoAlineas_parsed hp hq
  obtain ⟨decision, hdecision, hbody', -, -⟩ := twoParagraphs_parsed hp hq
  exact ⟨⟨article, harticle, hbody, ((setupOf (twoAlineas _ _)).parsed_chunked _).1 article harticle⟩,
    ⟨decision, hdecision, hbody', ((setupOf (twoParagraphs _ _)).parsed_chunked _).2 .cass decision hdecision⟩⟩

end Samples

end CorpusFeed
