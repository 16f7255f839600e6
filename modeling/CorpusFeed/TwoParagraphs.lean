import CorpusFeed.MemberXml
import CorpusFeed.BodyPieces

/-! Members of two paragraphs, through the two parsers: what the text functions
leave of words without white space, and the records that come out. -/

namespace CorpusFeed

/-- A setup for one member, whose events are given. -/
def setupOf (events : List XmlEvent) : ParserSetup Unit where
  readEvents _ := events
  sha256 _ := Vector.replicate 32 0
  patterns := ⟨fun _ => [], fun _ => none, fun _ => none⟩
  fileName _ := none
  display _ := "archive.tar.gz".toList
  utf8Error _ := []

def memberOf (xml : Text) : XmlMember Unit := ⟨(), "member.xml".toList, asBytes xml⟩

theorem memberOf_utf8 (xml : Text) : JsonlOp.fromUtf8 (memberOf xml).bytes = some xml := JsonlOp.fromUtf8_asBytes xml

/-- Text without white space. -/
structure Dark (t : Text) : Prop where
  nonempty : t ≠ []
  dark : ∀ c ∈ t, isWhiteSpace c = false

variable {p q : Text}

theorem Dark.not_mem (h : Dark p) : '\n' ∉ p := fun hmem => absurd (h.dark _ hmem) (by decide)

theorem Dark.appendXmlContent (h : Dark p) (buffer : Text) : appendXmlContent buffer p = buffer ++ p := by
  have hdark := h.dark
  clear h
  induction p generalizing buffer with
  | nil => simp [CorpusFeed.appendXmlContent]
  | cons c p ih =>
    have hc := hdark c List.mem_cons_self
    have hstep : appendXmlChar buffer c = buffer ++ [c] := by simp [appendXmlChar, hc]
    have hrest := ih (buffer ++ [c]) fun d hd => hdark d (List.mem_cons_of_mem c hd)
    rw [CorpusFeed.appendXmlContent, List.foldl_cons, hstep]
    rw [CorpusFeed.appendXmlContent] at hrest
    rw [hrest, List.append_assoc, List.singleton_append]

theorem Dark.last (h : Dark p) : ∃ before c, p = before ++ [c] ∧ isWhiteSpace c = false := by
  refine ⟨p.dropLast, p.getLast h.nonempty, (List.dropLast_append_getLast h.nonempty).symm, ?_⟩
  exact h.dark _ (List.getLast_mem h.nonempty)

theorem Dark.appendBlockBoundary (h : Dark p) (buffer : Text) :
    appendBlockBoundary (buffer ++ p) = buffer ++ p ++ ['\n'] := by
  obtain ⟨before, c, rfl, hc⟩ := h.last
  have hspace : c ≠ ' ' := by
    rintro rfl
    exact absurd hc (by decide)
  have hfeed : c ≠ '\n' := by
    rintro rfl
    exact absurd hc (by decide)
  have htrim : trimEndMatches [' '] (buffer ++ (before ++ [c])) = buffer ++ (before ++ [c]) := by
    rw [trimEndMatches, ← List.append_assoc, List.rdropWhile_concat_neg _ _ _ (by simpa using hspace)]
  unfold CorpusFeed.appendBlockBoundary
  simp only [htrim]
  rw [if_pos (by simp [hfeed])]

theorem Dark.collapseWs (h : Dark p) : collapseWs p = p := by
  have hsplit : p.splitOnP isWhiteSpace = [p] := List.splitOnP_eq_singleton h.dark
  simp [CorpusFeed.collapseWs, splitWhitespace, hsplit, h.nonempty, joinSpaces]

theorem Dark.tidy (h : Dark p) : Tidy p := by
  rw [← h.collapseWs]
  exact tidy_collapseWs p

theorem finishBody_two (hp : Dark p) (hq : Dark q) :
    finishBody (p ++ ['\n'] ++ q ++ ['\n']) = p ++ '\n' :: q := by
  have hjoin : p ++ ['\n'] ++ q ++ ['\n'] = ['\n'].intercalate [p, q, []] := by
    simp [List.intercalate_cons_cons]
  have hsplit : (['\n'].intercalate [p, q, []]).splitOn '\n' = [p, q, []] := by
    refine List.splitOn_intercalate '\n' ?_ (by simp)
    intro line hline
    simp only [List.mem_cons, List.not_mem_nil, or_false] at hline
    rcases hline with rfl | rfl | rfl
    · exact hp.not_mem
    · exact hq.not_mem
    · simp
  have hempty : CorpusFeed.collapseWs [] = [] := rfl
  rw [hjoin, finishBody, hsplit]
  simp [hp.collapseWs, hq.collapseWs, hempty, hp.nonempty, hq.nonempty, List.intercalate_cons_cons]

theorem bodyParagraphs_two (hp : Dark p) (hq : Dark q) : bodyParagraphs (p ++ '\n' :: q) = [p, q] := by
  have hjoin : p ++ '\n' :: q = ['\n'].intercalate [p, q] := by simp [List.intercalate_cons_cons]
  have hsplit : (['\n'].intercalate [p, q]).splitOn '\n' = [p, q] := by
    refine List.splitOn_intercalate '\n' ?_ (by simp)
    intro line hline
    simp only [List.mem_cons, List.not_mem_nil, or_false] at hline
    rcases hline with rfl | rfl
    · exact hp.not_mem
    · exact hq.not_mem
  rw [hjoin, bodyParagraphs, hsplit]
  simp [hp.tidy.trim_eq, hq.tidy.trim_eq, hp.nonempty, hq.nonempty]

theorem dark_replicate {n : Nat} {c : Char} (hn : n ≠ 0) (hc : isWhiteSpace c = false) : Dark (List.replicate n c) where
  nonempty := by simpa using hn
  dark := fun d hd => by rwa [List.eq_of_mem_replicate hd]

open XmlEvent (element plain)

/-- An article whose text is the two paragraphs. -/
def twoAlineas (p q : Text) : List XmlEvent :=
  element "ARTICLE"
    (element "META_COMMUN" (element "ID" [plain "LEGIARTI000000000001"] ++ element "NATURE" [plain "Article"]) ++
      element "META_ARTICLE" (element "DATE_DEBUT" [plain "2020-01-01"] ++ element "DATE_FIN" [plain "2999-01-01"]) ++
      element "BLOC_TEXTUEL" (element "CONTENU" (element "p" [.text (.ok p)] ++ element "p" [.text (.ok q)])))

def twoAlineasXml (p q : Text) : Text :=
  ("<ARTICLE><META_COMMUN><ID>LEGIARTI000000000001</ID><NATURE>Article</NATURE></META_COMMUN>" ++
    "<META_ARTICLE><DATE_DEBUT>2020-01-01</DATE_DEBUT><DATE_FIN>2999-01-01</DATE_FIN></META_ARTICLE>" ++
    "<BLOC_TEXTUEL><CONTENU><p>").toList ++
    p ++ "</p><p>".toList ++ q ++ "</p></CONTENU></BLOC_TEXTUEL></ARTICLE>".toList

theorem twoAlineas_run (p q : Text) : ∃ raw : LegiXml.RawArticle,
    LegiXml.articleHandlers.run ⟨[], LegiXml.emptyReading⟩ (twoAlineas p q) = .ok ⟨[], ⟨raw, []⟩⟩ ∧
      raw.fields .id = some "LEGIARTI000000000001".toList ∧ raw.fields .nature = some "Article".toList ∧
      raw.fields .dateDebut = some "2020-01-01".toList ∧ raw.fields .dateFin = some "2999-01-01".toList ∧
      raw.body = appendBlockBoundary (appendXmlContent (appendBlockBoundary (appendXmlContent [] p)) q) :=
  ⟨_, rfl, rfl, rfl, rfl, rfl, rfl⟩

theorem twoAlineas_body (hp : Dark p) (hq : Dark q) :
    trim (appendBlockBoundary (appendXmlContent (appendBlockBoundary (appendXmlContent [] p)) q)) = p ++ '\n' :: q := by
  have hbody : appendBlockBoundary (appendXmlContent (appendBlockBoundary (appendXmlContent [] p)) q) =
      p ++ '\n' :: q ++ ['\n'] := by
    rw [hp.appendXmlContent, hp.appendBlockBoundary, List.nil_append, hq.appendXmlContent, hq.appendBlockBoundary]
    simp
  have hfirst : (p ++ '\n' :: q ++ ['\n']).dropWhile isWhiteSpace = p ++ '\n' :: q ++ ['\n'] := by
    obtain ⟨c, rest, hcons⟩ := List.exists_cons_of_ne_nil hp.nonempty
    have hc := hp.dark c (by simp [hcons])
    simp [hcons, hc]
  have hlast : (p ++ '\n' :: q).rdropWhile isWhiteSpace = p ++ '\n' :: q := by
    obtain ⟨before, c, rfl, hc⟩ := hq.last
    have hconcat : p ++ '\n' :: (before ++ [c]) = (p ++ '\n' :: before) ++ [c] := by simp
    rw [hconcat, List.rdropWhile_concat_neg _ _ _ (by simpa using hc)]
  rw [hbody, trim, hfirst, List.rdropWhile_concat_pos _ _ _ (by decide), hlast]

theorem not_blank_two (hp : Dark p) : isBlank (p ++ '\n' :: q) = false := by
  obtain ⟨c, rest, hcons⟩ := List.exists_cons_of_ne_nil hp.nonempty
  rw [Bool.eq_false_iff]
  intro hwhite
  have hc := isBlank_iff.mp hwhite c (by simp [hcons])
  rw [hp.dark c (by simp [hcons])] at hc
  cases hc

open LegiXml (articleHeader) in
theorem twoAlineas_header {raw : LegiXml.RawArticle} (hid : raw.fields .id = some "LEGIARTI000000000001".toList)
    (hnature : raw.fields .nature = some "Article".toList) (hfrom : raw.fields .dateDebut = some "2020-01-01".toList)
    (hto : raw.fields .dateFin = some "2999-01-01".toList) (hbody : trim raw.body = p ++ '\n' :: q) :
    articleHeader raw = .ok ⟨"LEGIARTI000000000001".toList, "Article".toList, "2020-01-01".toList, "2999-01-01".toList,
      none, p ++ '\n' :: q⟩ := by
  have hrequiredId : LegiXml.required "article" "META_COMMUN/ID" (some "LEGIARTI000000000001".toList) =
      .ok "LEGIARTI000000000001".toList := rfl
  have hrequiredNature : LegiXml.required "article" "META_COMMUN/NATURE" (some "Article".toList) =
      .ok "Article".toList := rfl
  have hrequiredFrom : LegiXml.required "article" "META_ARTICLE/DATE_DEBUT" (some "2020-01-01".toList) =
      .ok "2020-01-01".toList := rfl
  have hrequiredTo : LegiXml.required "article" "META_ARTICLE/DATE_FIN" (some "2999-01-01".toList) =
      .ok "2999-01-01".toList := rfl
  have hvalidId : legiArticleIdValid "LEGIARTI000000000001".toList = true := by decide
  have hvalidFrom : LegiXml.validateDate "META_ARTICLE/DATE_DEBUT" "2020-01-01".toList = .ok () := by rfl
  have hvalidTo : LegiXml.normalizeEndDate "META_ARTICLE/DATE_FIN" "2999-01-01".toList = .ok none := by rfl
  have hblank : isBlank raw.body = false := by
    simp [isBlank, hbody]
  have hrequiredBody : LegiXml.requiredNonEmpty "article" "BLOC_TEXTUEL/CONTENU" raw.body = .ok (p ++ '\n' :: q) := by
    rw [LegiXml.requiredNonEmpty, hblank, hbody]
    rfl
  unfold LegiXml.articleHeader
  rw [hid, hnature, hfrom, hto, hrequiredId]
  simp only [hvalidId, Bool.true_eq_false, if_false, hrequiredNature, hrequiredFrom, hvalidFrom, hrequiredTo, hvalidTo,
    hrequiredBody]

/-- Validation accepts the record of a header whose fields are valid. -/
theorem intoDocument_accepted {sha256 : Bytes → Vector UInt8 32} {raw : LegiXml.RawArticle}
    {header : LegiXml.ArticleHeader} {xml : Text} {provenance : SourceProvenance}
    (hheader : LegiXml.articleHeader raw = .ok header) (hid : legiArticleIdValid header.id = true)
    (hfrom : dateValid header.validFrom = true) (hto : header.validTo.all dateValid = true)
    (hbody : isBlank header.body = false)
    (hhash : payloadHashValid (LegiXml.payloadHashOf sha256 xml provenance) = true) :
    ∃ d, raw.intoDocument sha256 xml provenance = .ok d ∧ d.body = header.body := by
  have hchunks := @buildArticleChunks_accepted (LegiXml.withEdges sha256 (LegiXml.articleShell raw header
    (LegiXml.payloadHashOf sha256 xml provenance) provenance) raw.publisherLinks).toCanonicalDocument hbody hhash
  have haccepted : (LegiXml.withChunks (LegiXml.withEdges sha256 (LegiXml.articleShell raw header
      (LegiXml.payloadHashOf sha256 xml provenance) provenance) raw.publisherLinks)).toCanonicalDocument.validate =
      none := by
    rw [CanonicalDocument.validate, Option.or_eq_none_iff]
    refine ⟨firstFailure_eq_none.mpr fun check hcheck => ?_, congrArg (chunkError "") hchunks⟩
    simp only [List.mem_cons, List.not_mem_nil, or_false] at hcheck
    rcases hcheck with rfl | rfl | rfl | rfl | rfl | rfl | rfl | rfl
    · rfl
    · rfl
    · exact Bool.not_eq_false' .. ▸ hid
    · exact bne_self_eq_false _
    · exact Bool.not_eq_false' .. ▸ hfrom
    · exact Bool.not_eq_false' .. ▸ hto
    · exact hbody
    · exact Bool.not_eq_false' .. ▸ hhash
  unfold LegiXml.RawArticle.intoDocument
  simp only [hheader, haccepted]
  exact ⟨_, rfl, rfl⟩

theorem twoAlineas_parsed (hp : Dark p) (hq : Dark q) :
    ∃ d, (setupOf (twoAlineas p q)).parseLegiMember (memberOf (twoAlineasXml p q)) = .ok (.article d) ∧
      d.body = p ++ '\n' :: q := by
  have hutf8 : JsonlOp.fromUtf8 (memberOf (twoAlineasXml p q)).bytes = some (twoAlineasXml p q) :=
    memberOf_utf8 _
  have hroot : LegiXml.detectRoot ((setupOf (twoAlineas p q)).readEvents (twoAlineasXml p q)) =
      .ok "ARTICLE".toList := rfl
  obtain ⟨raw, hrun, hid, hnature, hfrom, hto, hbody⟩ := twoAlineas_run p q
  have hheader := twoAlineas_header hid hnature hfrom hto (hbody ▸ twoAlineas_body hp hq)
  have hparsed : ∃ d, LegiXml.parseArticle (setupOf (twoAlineas p q)).sha256
      ((setupOf (twoAlineas p q)).readEvents (twoAlineasXml p q)) (twoAlineasXml p q)
      ((setupOf (twoAlineas p q)).fromArchiveMember (memberOf (twoAlineasXml p q))) = .ok d ∧ d.body = p ++ '\n' :: q := by
    have hvalidId : legiArticleIdValid "LEGIARTI000000000001".toList = true := by decide
    have hvalidFrom : dateValid "2020-01-01".toList = true := by decide
    obtain ⟨d, hd, hfields⟩ := @intoDocument_accepted (setupOf (twoAlineas p q)).sha256 _ _ (twoAlineasXml p q)
      ((setupOf (twoAlineas p q)).fromArchiveMember (memberOf (twoAlineasXml p q))) hheader hvalidId hvalidFrom rfl
      (not_blank_two hp) rfl
    exact ⟨d, LegiXml.parseRoot_ok.mpr ⟨⟨[], ⟨raw, []⟩⟩, hrun, hd⟩, hfields⟩
  obtain ⟨d, hd, hfields⟩ := hparsed
  refine ⟨d, ?_, hfields⟩
  rw [ParserSetup.parseLegiMember, hutf8]
  exact LegiXml.parseLegiEvents_article.mpr ⟨hroot, hd⟩

/-- A decision whose text is the two paragraphs. -/
def twoParagraphs (p q : Text) : List XmlEvent :=
  element "TEXTE_JURI_JUDI"
    (element "ID" [plain "JURITEXT000000000001"] ++ element "DATE_DEC" [plain "2020-01-01"] ++
      element "BLOC_TEXTUEL" (element "CONTENU" (element "p" [.text (.ok p)] ++ element "p" [.text (.ok q)])))

def twoParagraphsXml (p q : Text) : Text :=
  "<TEXTE_JURI_JUDI><ID>JURITEXT000000000001</ID><DATE_DEC>2020-01-01</DATE_DEC><BLOC_TEXTUEL><CONTENU><p>".toList ++
    p ++ "</p><p>".toList ++ q ++ "</p></CONTENU></BLOC_TEXTUEL></TEXTE_JURI_JUDI>".toList

open JuriXml (RawDecision emptyRaw) in
def twoParagraphsRaw (p q : Text) : RawDecision :=
  { emptyRaw with
    fields := Function.update (Function.update emptyRaw.fields "ID".toList (some "JURITEXT000000000001".toList))
      "DATE_DEC".toList (some "2020-01-01".toList)
    body := appendBlockBoundary (appendXmlContent (appendBlockBoundary (appendXmlContent [] p)) q) }

theorem twoParagraphs_run (p q : Text) :
    JuriXml.decisionHandlers.run ⟨[], JuriXml.emptyRaw⟩ (twoParagraphs p q) = .ok ⟨[], twoParagraphsRaw p q⟩ := rfl

theorem twoParagraphs_body (hp : Dark p) (hq : Dark q) :
    finishBody (twoParagraphsRaw p q).body = p ++ '\n' :: q := by
  have hfirst : appendBlockBoundary (appendXmlContent [] p) = p ++ ['\n'] := by
    rw [hp.appendXmlContent, hp.appendBlockBoundary, List.nil_append]
  have hbody : (twoParagraphsRaw p q).body = p ++ ['\n'] ++ q ++ ['\n'] := by
    rw [twoParagraphsRaw, hfirst, hq.appendXmlContent, hq.appendBlockBoundary]
  rw [hbody, finishBody_two hp hq]

theorem twoParagraphs_header (hp : Dark p) (hq : Dark q) :
    JuriXml.decisionHeader .judicial (twoParagraphsRaw p q) =
      .ok ⟨"JURITEXT000000000001".toList, "2020-01-01".toList, p ++ '\n' :: q⟩ := by
  have hid : JuriXml.required (JuriXml.rootElement .judicial) "ID"
      (JuriXml.metadata (twoParagraphsRaw p q) "ID".toList) = .ok "JURITEXT000000000001".toList := rfl
  have hdate : JuriXml.required (JuriXml.rootElement .judicial) "DATE_DEC"
      (JuriXml.metadata (twoParagraphsRaw p q) "DATE_DEC".toList) = .ok "2020-01-01".toList := rfl
  have huid : JuriXml.uidValid .judicial "JURITEXT000000000001".toList = true := by decide
  have hvalid : dateValid "2020-01-01".toList = true := by decide
  have hblank : isBlank (p ++ '\n' :: q) = false := not_blank_two hp
  unfold JuriXml.decisionHeader
  rw [hid]
  simp only [huid, Bool.true_eq_false, if_false, hdate, hvalid, twoParagraphs_body hp hq, hblank, Bool.false_eq_true]

theorem twoParagraphs_parsed (hp : Dark p) (hq : Dark q) :
    ∃ d, (setupOf (twoParagraphs p q)).parseJuriMember .cass (memberOf (twoParagraphsXml p q)) = .ok (.decision d) ∧
      d.body = p ++ '\n' :: q ∧ decisionContext d.toCanonicalDecision = "2020-01-01".toList ∧ d.summaries = [] := by
  have hutf8 : JsonlOp.fromUtf8 (memberOf (twoParagraphsXml p q)).bytes = some (twoParagraphsXml p q) :=
    memberOf_utf8 _
  have hroot : JuriXml.detectRoot ((setupOf (twoParagraphs p q)).readEvents (twoParagraphsXml p q)) =
      .ok (JuriXml.rootElement .judicial) := rfl
  have hrun : JuriXml.decisionHandlers.run ⟨[], JuriXml.emptyRaw⟩
      ((setupOf (twoParagraphs p q)).readEvents (twoParagraphsXml p q)) = .ok ⟨[], twoParagraphsRaw p q⟩ :=
    twoParagraphs_run p q
  have hparsed : ∃ d, JuriXml.parseDecision (setupOf (twoParagraphs p q)).sha256 (setupOf (twoParagraphs p q)).patterns
      ((setupOf (twoParagraphs p q)).readEvents (twoParagraphsXml p q)) .cass .judicial (twoParagraphsXml p q)
      ((setupOf (twoParagraphs p q)).fromArchiveMember (memberOf (twoParagraphsXml p q))) = .ok d ∧
        d.body = p ++ '\n' :: q ∧ decisionContext d.toCanonicalDecision = "2020-01-01".toList ∧ d.summaries = [] := by
    unfold JuriXml.parseDecision JuriXml.RawDecision.intoDecision
    simp only [hrun, twoParagraphs_header hp hq]
    exact ⟨_, rfl, rfl, rfl, rfl⟩
  obtain ⟨d, hd, hfields⟩ := hparsed
  refine ⟨d, ?_, hfields⟩
  rw [ParserSetup.parseJuriMember, hutf8]
  exact JuriXml.parseJuriEvents_decision.mpr ⟨.judicial, by decide, hroot, by decide, hd⟩

end CorpusFeed
