import CorpusFeed.CharacterData
import CorpusFeed.ChunkedRecords

/-! How the character data of a member is cut into events changes what its parser
makes of it only where a text is not appended: the case numbers of a decision, and
the single-valued fields of an article. -/

namespace CorpusFeed

namespace JuriXml

open LegiXml (payloadHashOf)

/-- Raw decisions that differ in their case numbers only. -/
structure SameDecision (a b : RawDecision) : Prop where
  fields : ∀ name, (a.fields name).getD [] = (b.fields name).getD []
  body : a.body = b.body
  summaries : a.summaries = b.summaries
  currentSummary : a.currentSummary = b.currentSummary
  links : a.links = b.links

namespace SameDecision

variable {a b c : RawDecision}

theorem equivalence : Equivalence SameDecision where
  refl := fun _ => ⟨fun _ => rfl, rfl, rfl, rfl, rfl⟩
  symm := fun h =>
    ⟨fun name => (h.fields name).symm, h.body.symm, h.summaries.symm, h.currentSummary.symm, h.links.symm⟩
  trans := fun h h' => ⟨fun name => (h.fields name).trans (h'.fields name), h.body.trans h'.body,
    h.summaries.trans h'.summaries, h.currentSummary.trans h'.currentSummary, h.links.trans h'.links⟩

theorem pushLink (h : SameDecision a b) (tag : XmlTag) : SameDecision (pushLink a tag) (pushLink b tag) :=
  { h with
    links := by
      show a.links ++ _ = b.links ++ _
      rw [h.links] }

theorem setField (h : SameDecision a b) (name value : Text) :
    SameDecision { a with fields := Function.update a.fields name (some value) }
      { b with fields := Function.update b.fields name (some value) } :=
  { h with
    fields := by
      intro other
      show (Function.update a.fields name (some value) other).getD [] =
        (Function.update b.fields name (some value) other).getD []
      by_cases hname : other = name
      · rw [hname, Function.update_self, Function.update_self]
      · rw [Function.update_of_ne hname, Function.update_of_ne hname]
        exact h.fields other }

theorem capturePubliBull (h : SameDecision a b) (tag : XmlTag) :
    SameDecision (capturePubliBull a tag) (capturePubliBull b tag) := by
  rw [JuriXml.capturePubliBull, JuriXml.capturePubliBull]
  cases attributeValue tag.checkedAttributes "publie".toList with
  | none => exact h
  | some publie => exact h.setField _ publie

theorem openSummary (h : SameDecision a b) (kind : Text) (tag : XmlTag) :
    SameDecision (openSummary a kind tag) (openSummary b kind tag) :=
  { h with currentSummary := rfl }

theorem appendBoundary (h : SameDecision a b) :
    SameDecision { a with body := appendBlockBoundary a.body } { b with body := appendBlockBoundary b.body } :=
  { h with body := congrArg appendBlockBoundary h.body }

theorem openElement (h : SameDecision a b) (name : Text) (tag : XmlTag) :
    SameDecision (openElement a name tag) (openElement b name tag) := by
  rw [JuriXml.openElement, JuriXml.openElement]
  by_cases hlink : name = "LIEN".toList
  · rw [if_pos hlink, if_pos hlink]
    exact h.pushLink tag
  · rw [if_neg hlink, if_neg hlink]
    by_cases hsct : name = "SCT".toList
    · rw [if_pos hsct, if_pos hsct]
      exact h.openSummary _ tag
    · rw [if_neg hsct, if_neg hsct]
      by_cases hana : name = "ANA".toList
      · rw [if_pos hana, if_pos hana]
        exact h.openSummary _ tag
      · rw [if_neg hana, if_neg hana]
        by_cases hbull : name = "PUBLI_BULL".toList
        · rw [if_pos hbull, if_pos hbull]
          exact h.capturePubliBull tag
        · rw [if_neg hbull, if_neg hbull]
          exact h

theorem emptyElement (h : SameDecision a b) (stack : List Text) (name : Text) (tag : XmlTag) :
    SameDecision (emptyElement a stack name tag) (emptyElement b stack name tag) := by
  rw [JuriXml.emptyElement, JuriXml.emptyElement]
  by_cases hlink : name = "LIEN".toList
  · rw [if_pos hlink, if_pos hlink]
    exact h.pushLink tag
  · rw [if_neg hlink, if_neg hlink]
    by_cases hbull : name = "PUBLI_BULL".toList
    · rw [if_pos hbull, if_pos hbull]
      exact h.capturePubliBull tag
    · rw [if_neg hbull, if_neg hbull]
      by_cases hboundary : (isBodyBlockBoundary name && inBodyContext stack) = true
      · rw [if_pos hboundary, if_pos hboundary]
        exact h.appendBoundary
      · rw [if_neg hboundary, if_neg hboundary]
        exact h

theorem endParagraph (h : SameDecision a b) (stack : List Text) (name : Text) :
    SameDecision (endParagraph a stack name) (endParagraph b stack name) := by
  rw [JuriXml.endParagraph, JuriXml.endParagraph]
  by_cases hboundary : (isBodyBlockBoundary name && inBodyContext stack) = true
  · rw [if_pos hboundary, if_pos hboundary]
    exact h.appendBoundary
  · rw [if_neg hboundary, if_neg hboundary]
    exact h

theorem endSummary (h : SameDecision a b) (name : Text) : SameDecision (endSummary a name) (endSummary b name) := by
  rw [JuriXml.endSummary, JuriXml.endSummary, h.currentSummary]
  by_cases hsummary : isSummaryTag name = true
  · rw [if_pos hsummary, if_pos hsummary]
    cases b.currentSummary with
    | none => exact h
    | some summary =>
      exact { h with
        currentSummary := rfl
        summaries := by rw [h.summaries] }
  · rw [if_neg hsummary, if_neg hsummary]
    exact h

theorem closeElement (h : SameDecision a b) (stack : List Text) :
    SameDecision (closeElement a stack) (closeElement b stack) := by
  rw [JuriXml.closeElement, JuriXml.closeElement]
  cases stack.getLast? with
  | none => exact h
  | some name => exact (h.endParagraph stack name).endSummary name

end SameDecision

theorem metadata_of_getD (raw : RawDecision) (name : Text) :
    metadata raw name = (some (collapseWs ((raw.fields name).getD []))).filter fun value => !value.isEmpty := by
  rw [metadata]
  cases raw.fields name with
  | none => rfl
  | some value => rfl

theorem metadata_same {a b : RawDecision} (h : SameDecision a b) : metadata a = metadata b := by
  funext name
  rw [metadata_of_getD, metadata_of_getD, h.fields]

/-- Where character data goes: it is appended somewhere, or leaves all but the case numbers. -/
theorem assignText_cases (stack : List Text) :
    (∀ raw value, assignText raw stack value = { raw with body := appendXmlContent raw.body value }) ∨
    (∀ raw value, SameDecision (assignText raw stack value) raw) ∨
    (∀ raw value, assignText raw stack value =
      { raw with currentSummary := raw.currentSummary.map fun summary => summary.append value }) ∨
    (∀ raw value, assignText raw stack value =
      { raw with links := raw.links.modify (raw.links.length - 1) fun link => link.append value }) ∨
    ∃ name, ∀ raw value, assignText raw stack value =
      { raw with fields := Function.update raw.fields name (some ((raw.fields name).getD [] ++ value)) } := by
  by_cases hbody : inBodyContext stack = true
  · left
    intro raw value
    rw [assignText, if_pos hbody]
  · right
    cases hlast : stack.getLast? with
    | none =>
      left
      intro raw value
      rw [assignText, if_neg hbody, hlast]
      exact SameDecision.equivalence.refl raw
    | some current =>
      by_cases hnumber : current = "NUMERO_AFFAIRE".toList
      · left
        intro raw value
        simp only [assignText, if_neg hbody, hlast, if_pos hnumber]
        by_cases hblank : isBlank value = true
        · rw [if_pos hblank]
          exact SameDecision.equivalence.refl raw
        · rw [if_neg hblank]
          exact ⟨fun _ => rfl, rfl, rfl, rfl, rfl⟩
      · by_cases hsummary : isSummaryTag current = true
        · right
          left
          intro raw value
          simp only [assignText, if_neg hbody, hlast, if_neg hnumber, if_pos hsummary]
        · by_cases hlink : current = "LIEN".toList
          · right
            right
            left
            intro raw value
            simp only [assignText, if_neg hbody, hlast, if_neg hnumber, if_neg hsummary, if_pos hlink]
          · by_cases hscalar : isScalarMetadataTag current = true
            · right
              right
              right
              refine ⟨current, ?_⟩
              intro raw value
              simp only [assignText, if_neg hbody, hlast, if_neg hnumber, if_neg hsummary, if_neg hlink, if_pos hscalar]
            · left
              intro raw value
              simp only [assignText, if_neg hbody, hlast, if_neg hnumber, if_neg hsummary, if_neg hlink,
                if_neg hscalar]
              exact SameDecision.equivalence.refl raw

theorem SameDecision.assignText {a b : RawDecision} (h : SameDecision a b) (stack : List Text) (value : Text) :
    SameDecision (assignText a stack value) (assignText b stack value) := by
  rcases assignText_cases stack with hbody | hother | hsummary | hlinks | ⟨name, hfield⟩
  · rw [hbody, hbody]
    exact { h with body := by rw [h.body] }
  · exact equivalence.trans (hother a value) (equivalence.trans h (equivalence.symm (hother b value)))
  · rw [hsummary, hsummary]
    exact { h with currentSummary := by rw [h.currentSummary] }
  · rw [hlinks, hlinks]
    exact { h with links := by rw [h.links] }
  · rw [hfield, hfield, h.fields name]
    exact h.setField name _

theorem assignText_nil (raw : RawDecision) (stack : List Text) : SameDecision (assignText raw stack []) raw := by
  rcases assignText_cases stack with hbody | hother | hsummary | hlinks | ⟨name, hfield⟩
  · rw [hbody]
    exact SameDecision.equivalence.refl raw
  · exact hother raw []
  · have hsame : (raw.currentSummary.map fun summary => summary.append []) = raw.currentSummary := by
      simp [RawSummary.append]
    rw [hsummary, hsame]
    exact SameDecision.equivalence.refl raw
  · have hsame : (raw.links.modify (raw.links.length - 1) fun link => link.append []) = raw.links := by
      have hid : (fun link : RawLink => link.append []) = id := by
        funext link
        simp [RawLink.append]
      rw [hid, List.modify_id]
    rw [hlinks, hsame]
    exact SameDecision.equivalence.refl raw
  · rw [hfield]
    refine ⟨?_, rfl, rfl, rfl, rfl⟩
    intro other
    show (Function.update raw.fields name (some ((raw.fields name).getD [] ++ [])) other).getD [] = _
    by_cases hname : other = name
    · rw [hname, Function.update_self, List.append_nil]
      rfl
    · rw [Function.update_of_ne hname]

theorem assignText_append (raw : RawDecision) (stack : List Text) (value more : Text) :
    SameDecision (assignText (assignText raw stack value) stack more) (assignText raw stack (value ++ more)) := by
  rcases assignText_cases stack with hbody | hother | hsummary | hlinks | ⟨name, hfield⟩
  · rw [hbody, hbody, hbody, appendXmlContent_append]
    exact SameDecision.equivalence.refl _
  · have hboth := SameDecision.equivalence.trans (hother (assignText raw stack value) more) (hother raw value)
    exact SameDecision.equivalence.trans hboth (SameDecision.equivalence.symm (hother raw (value ++ more)))
  · rw [hsummary, hsummary, hsummary]
    refine ⟨fun _ => rfl, rfl, rfl, ?_, rfl⟩
    cases raw.currentSummary with
    | none => rfl
    | some summary => simp [RawSummary.append]
  · rw [hlinks, hlinks, hlinks]
    refine ⟨fun _ => rfl, rfl, rfl, rfl, ?_⟩
    show List.modify _ (List.length (raw.links.modify _ _) - 1) _ = _
    rw [List.length_modify, List.modify_modify_eq]
    congr 1
    funext link
    simp [RawLink.append]
  · rw [hfield, hfield, hfield]
    simp only [Function.update_self, Function.update_idem, Option.getD_some, List.append_assoc]
    exact SameDecision.equivalence.refl _

theorem additive : decisionHandlers.Additive SameDecision where
  equivalence := SameDecision.equivalence
  start := fun _ tag _ _ h => .ok (h.openElement _ tag)
  empty := fun stack tag _ _ h => .ok (h.emptyElement stack _ tag)
  close := fun stack _ _ h => h.closeElement stack
  text := fun stack value _ _ h => h.assignText stack value
  text_append := fun stack r value more => assignText_append r stack value more
  text_nil := fun stack r => assignText_nil r stack

def withoutCaseNumbers (decision : DecisionRecord) : DecisionRecord := { decision with caseNumbers := [] }

section Document

variable {sha256 : Bytes → Vector UInt8 32} {patterns : CitationPatterns} {source : ArchiveSource} {family : JuriFamily}
  {xml xml' : Text} {provenance : SourceProvenance} {a b : RawDecision}

/-- No edge, no chunk and no other column is made of the case numbers. -/
theorem inferEdges_withoutCaseNumbers (document : DecisionRecord) (edges : List CanonicalGraphEdge) (seen : List Text)
    (captures : List ArticleCapture) : inferEdges sha256 patterns (withoutCaseNumbers document) edges seen captures =
      inferEdges sha256 patterns document edges seen captures := by
  induction captures generalizing edges seen with
  | nil => rfl
  | cons capture captures ih =>
    simp only [inferEdges, ih]
    rfl

theorem withInferredEdges_withoutCaseNumbers (document : DecisionRecord) :
    withInferredEdges sha256 patterns (withoutCaseNumbers document) =
      withoutCaseNumbers (withInferredEdges sha256 patterns document) := by
  have hedges : buildInferredCitationEdges sha256 patterns (withoutCaseNumbers document) =
      buildInferredCitationEdges sha256 patterns document :=
    inferEdges_withoutCaseNumbers document [] [] (patterns.articles document.body)
  rw [withInferredEdges, hedges]
  rfl

theorem withoutCaseNumbers_finish (shell : DecisionRecord) (links : List RawLink) :
    withoutCaseNumbers (withChunks (withInferredEdges sha256 patterns (withPublisherEdges sha256 shell links))) =
      withChunks (withInferredEdges sha256 patterns (withPublisherEdges sha256 (withoutCaseNumbers shell) links)) := by
  have hpublisher : withPublisherEdges sha256 (withoutCaseNumbers shell) links =
      withoutCaseNumbers (withPublisherEdges sha256 shell links) := rfl
  rw [hpublisher, withInferredEdges_withoutCaseNumbers]
  rfl

theorem intoDecision_same (h : SameDecision a b)
    (hhash : payloadHashOf sha256 xml provenance = payloadHashOf sha256 xml' provenance) :
    (a.intoDecision sha256 patterns source family xml provenance).map withoutCaseNumbers =
      (b.intoDecision sha256 patterns source family xml' provenance).map withoutCaseNumbers := by
  have hheader : decisionHeader family a = decisionHeader family b := by
    simp only [decisionHeader, metadata_same h, h.body]
  rw [RawDecision.intoDecision, RawDecision.intoDecision, hheader, hhash]
  cases decisionHeader family b with
  | error e => rfl
  | ok header =>
    have hshell : withoutCaseNumbers (decisionShell source family a header
        (payloadHashOf sha256 xml' provenance) provenance) = withoutCaseNumbers (decisionShell source family b header
        (payloadHashOf sha256 xml' provenance) provenance) := by
      simp only [withoutCaseNumbers, decisionShell, metadata_same h, h.summaries]
    simp only [Except.map, withoutCaseNumbers_finish, hshell, h.links]

theorem detectRoot_joinData (value : Text) (events : List XmlEvent) :
    detectRoot (joinData value events) = detectRoot events := by
  cases events with
  | nil => rfl
  | cons event rest =>
    cases event with
    | text data =>
      cases data with
      | error message => rfl
      | ok more => rfl
    | start tag => rfl
    | empty tag => rfl
    | close => rfl
    | cdata data => rfl
    | generalRef reference => rfl
    | other => rfl
    | error message => rfl

/-- The root element is looked for past the character data. -/
theorem detectRoot_xmlContent (events : List XmlEvent) : detectRoot (xmlContent events) = detectRoot events := by
  induction events with
  | nil => rfl
  | cons event events ih =>
    have hdata : ∀ value, event.characters = some value → detectRoot (xmlContent (event :: events)) =
        detectRoot events := by
      intro value hcharacters
      cases value with
      | error message =>
        rw [XmlHandlers.Additive.xmlContent_failed hcharacters]
        exact ih
      | ok value =>
        rw [XmlHandlers.Additive.xmlContent_data hcharacters]
        by_cases hempty : value.isEmpty
        · rw [if_pos hempty]
          exact ih
        · rw [if_neg hempty, detectRoot_joinData]
          exact ih
    cases event with
    | start tag => rfl
    | empty tag => rfl
    | close => exact ih
    | error message => rfl
    | other => exact ih
    | text value => exact hdata value rfl
    | cdata value => exact hdata (.ok value) rfl
    | generalRef reference => exact hdata (resolveReference reference) rfl

variable {events events' : List XmlEvent}

theorem parseDecision_content (hcontent : xmlContent events = xmlContent events')
    (hhash : payloadHashOf sha256 xml provenance = payloadHashOf sha256 xml' provenance) :
    (parseDecision sha256 patterns events source family xml provenance).map withoutCaseNumbers =
      (parseDecision sha256 patterns events' source family xml' provenance).map withoutCaseNumbers := by
  have hrun := additive.run_same_content hcontent ⟨[], emptyRaw⟩
  rw [parseDecision, parseDecision]
  revert hrun
  generalize decisionHandlers.run ⟨[], emptyRaw⟩ events = x
  generalize decisionHandlers.run ⟨[], emptyRaw⟩ events' = y
  intro hrun
  cases hrun with
  | error e => rfl
  | ok hstate => exact intoDecision_same hstate.2 hhash

def ParsedJuriXml.withoutCaseNumbers : ParsedJuriXml → ParsedJuriXml
  | .decision d => .decision (JuriXml.withoutCaseNumbers d)
  | .unsupportedRoot root => .unsupportedRoot root

/-- A member parses to the same outcome however its character data is divided into
texts, CDATA sections and references, except for how the case numbers are listed. -/
theorem parseJuriEvents_content (hcontent : xmlContent events = xmlContent events')
    (hhash : payloadHashOf sha256 xml provenance = payloadHashOf sha256 xml' provenance) :
    (parseJuriEvents sha256 patterns events source xml provenance).map ParsedJuriXml.withoutCaseNumbers =
      (parseJuriEvents sha256 patterns events' source xml' provenance).map ParsedJuriXml.withoutCaseNumbers := by
  have hroot : detectRoot events = detectRoot events' := by
    rw [← detectRoot_xmlContent events, hcontent, detectRoot_xmlContent]
  rw [parseJuriEvents, parseJuriEvents, hroot]
  by_cases hlegi : source = .legi
  · rw [if_pos hlegi, if_pos hlegi]
  · rw [if_neg hlegi, if_neg hlegi]
    cases detectRoot events' with
    | error e => rfl
    | ok root =>
      cases hfamily : familyOfRoot root with
      | none => simp only [hfamily]
      | some family =>
        simp only [hfamily]
        by_cases hsource : juriFamilyOf source.asStr ≠ some family
        · rw [if_pos hsource, if_pos hsource]
        · rw [if_neg hsource, if_neg hsource]
          have hparse : (parseDecision sha256 patterns events source family xml provenance).map withoutCaseNumbers =
              (parseDecision sha256 patterns events' source family xml' provenance).map withoutCaseNumbers :=
            parseDecision_content hcontent hhash
          revert hparse
          generalize parseDecision sha256 patterns events source family xml provenance = x
          generalize parseDecision sha256 patterns events' source family xml' provenance = y
          intro hparse
          cases x with
          | error e =>
            cases y with
            | error e' =>
              rw [Except.error.inj hparse]
            | ok d => exact absurd hparse (by simp [Except.map])
          | ok d =>
            cases y with
            | error e' => exact absurd hparse (by simp [Except.map])
            | ok d' => exact congrArg (fun d => Except.ok (ParsedJuriXml.decision d)) (Except.ok.inj hparse)

end Document

end JuriXml

namespace LegiXml

/-- Readings that differ in the single-valued fields and the titles only. -/
structure SameReading (a b : ArticleReading) : Prop where
  body : a.raw.body = b.raw.body
  publisherLinks : a.raw.publisherLinks = b.raw.publisherLinks
  linkStack : a.linkStack = b.linkStack

theorem SameReading.equivalence : Equivalence SameReading where
  refl := fun _ => ⟨rfl, rfl, rfl⟩
  symm := fun h => ⟨h.body.symm, h.publisherLinks.symm, h.linkStack.symm⟩
  trans := fun h h' => ⟨h.body.trans h'.body, h.publisherLinks.trans h'.publisherLinks, h.linkStack.trans h'.linkStack⟩

theorem appendBoundary_body (raw : RawArticle) (stack : List Text) :
    (appendBoundaryForCurrentTag raw stack).body =
      if (stack.getLast?.any isBodyBlockBoundary && inBodyContext stack) = true then appendBlockBoundary raw.body
      else raw.body := by
  rw [appendBoundaryForCurrentTag]
  by_cases hboundary : (stack.getLast?.any isBodyBlockBoundary && inBodyContext stack) = true
  · rw [if_pos hboundary, if_pos hboundary]
  · rw [if_neg hboundary, if_neg hboundary]

theorem appendBoundary_links (raw : RawArticle) (stack : List Text) :
    (appendBoundaryForCurrentTag raw stack).publisherLinks = raw.publisherLinks := by
  rw [appendBoundaryForCurrentTag]
  by_cases hboundary : (stack.getLast?.any isBodyBlockBoundary && inBodyContext stack) = true
  · rw [if_pos hboundary]
  · rw [if_neg hboundary]

theorem SameReading.start {a b : ArticleReading} (h : SameReading a b) (stack : List Text) (tag : XmlTag) :
    SameOutcome SameReading (articleHandlers.start stack a tag) (articleHandlers.start stack b tag) := by
  simp only [articleHandlers]
  by_cases hlink : isPublisherLinkTag (afterFirstColon tag.name) = true
  · simp only [hlink, if_true, pushPublisherLink]
    cases collectAttributes tag.attributes with
    | error e => exact .error e
    | ok attributes => exact .ok ⟨h.body, by rw [h.publisherLinks], by rw [h.linkStack, h.publisherLinks]⟩
  · simp only [hlink]
    exact .ok h

theorem SameReading.empty {a b : ArticleReading} (h : SameReading a b) (stack : List Text) (tag : XmlTag) :
    SameOutcome SameReading (articleHandlers.empty stack a tag) (articleHandlers.empty stack b tag) := by
  simp only [articleHandlers]
  by_cases hlink : isPublisherLinkTag (afterFirstColon tag.name) = true
  · simp only [hlink, if_true, pushPublisherLink]
    cases collectAttributes tag.attributes with
    | error e => exact .error e
    | ok attributes =>
      refine .ok ⟨?_, ?_, h.linkStack⟩
      · rw [appendBoundary_body, appendBoundary_body, h.body]
      · rw [appendBoundary_links, appendBoundary_links, h.publisherLinks]
  · simp only [hlink]
    refine .ok ⟨?_, ?_, h.linkStack⟩
    · show (appendBoundaryForCurrentTag a.raw _).body = (appendBoundaryForCurrentTag b.raw _).body
      rw [appendBoundary_body, appendBoundary_body, h.body]
    · show (appendBoundaryForCurrentTag a.raw _).publisherLinks = (appendBoundaryForCurrentTag b.raw _).publisherLinks
      rw [appendBoundary_links, appendBoundary_links, h.publisherLinks]

theorem SameReading.close {a b : ArticleReading} (h : SameReading a b) (stack : List Text) :
    SameReading (articleHandlers.close stack a) (articleHandlers.close stack b) where
  body := by
    show (appendBoundaryForCurrentTag a.raw stack).body = (appendBoundaryForCurrentTag b.raw stack).body
    rw [appendBoundary_body, appendBoundary_body, h.body]
  publisherLinks := by
    show (appendBoundaryForCurrentTag a.raw stack).publisherLinks =
      (appendBoundaryForCurrentTag b.raw stack).publisherLinks
    rw [appendBoundary_links, appendBoundary_links, h.publisherLinks]
  linkStack := by
    show (if _ then a.linkStack.dropLast else a.linkStack) = if _ then b.linkStack.dropLast else b.linkStack
    rw [h.linkStack]

theorem text_body (stack : List Text) (reading : ArticleReading) (value : Text) :
    (articleHandlers.text stack reading value).raw.body =
      if inBodyContext stack = true then appendXmlContent reading.raw.body value else reading.raw.body :=
  assignArticleText_body reading.raw stack value

theorem text_links (stack : List Text) (reading : ArticleReading) (value : Text) :
    (articleHandlers.text stack reading value).raw.publisherLinks = assignLinkText reading value := rfl

theorem text_linkStack (stack : List Text) (reading : ArticleReading) (value : Text) :
    (articleHandlers.text stack reading value).linkStack = reading.linkStack := rfl

theorem appendLinkText_nil (links : List RawPublisherLink) (index : Nat) : appendLinkText links index [] = links := by
  have hid : (fun link : RawPublisherLink => { link with text := appendXmlContent link.text [] }) = id := rfl
  rw [appendLinkText, hid, List.modify_id]

theorem appendLinkText_append (links : List RawPublisherLink) (index : Nat) (value more : Text) :
    appendLinkText (appendLinkText links index value) index more = appendLinkText links index (value ++ more) := by
  rw [appendLinkText, appendLinkText, appendLinkText, List.modify_modify_eq]
  congr 1
  funext link
  simp [appendXmlContent_append]

theorem additive : articleHandlers.Additive SameReading where
  equivalence := SameReading.equivalence
  start := fun stack tag _ _ h => h.start stack tag
  empty := fun stack tag _ _ h => h.empty stack tag
  close := fun stack _ _ h => h.close stack
  text := by
    intro stack value a b h
    refine ⟨?_, ?_, h.linkStack⟩
    · rw [text_body, text_body, h.body]
    · rw [text_links, text_links, assignLinkText, assignLinkText, h.linkStack, h.publisherLinks]
  text_append := by
    intro stack reading value more
    refine ⟨?_, ?_, rfl⟩
    · rw [text_body, text_body, text_body]
      by_cases hbody : inBodyContext stack = true
      · rw [if_pos hbody, if_pos hbody, if_pos hbody, appendXmlContent_append]
      · rw [if_neg hbody, if_neg hbody, if_neg hbody]
    · rw [text_links, text_links, assignLinkText, assignLinkText, text_linkStack, text_links, assignLinkText]
      cases reading.linkStack.getLast? with
      | none => rfl
      | some index => exact appendLinkText_append reading.raw.publisherLinks index value more
  text_nil := by
    intro stack reading
    refine ⟨?_, ?_, rfl⟩
    · rw [text_body]
      by_cases hbody : inBodyContext stack = true
      · rw [if_pos hbody]
        rfl
      · rw [if_neg hbody]
    · rw [text_links, assignLinkText]
      cases reading.linkStack.getLast? with
      | none => rfl
      | some index => exact appendLinkText_nil reading.raw.publisherLinks index

section Document

variable {sha256 : Bytes → Vector UInt8 32} {events events' : List XmlEvent} {xml xml' : Text}
  {provenance provenance' : SourceProvenance} {d d' : ArticleRecord}

/-- What an edge says of the link it was made of. -/
def edgeLink (edge : CanonicalGraphEdge) : Text × Option Text × Option Text × List GraphEdgeAttribute :=
  (edge.sourceTag, edge.sourceText, edge.toSourceUid, edge.attributes)

def rawLink (link : RawPublisherLink) : Text × Option Text × Option Text × List GraphEdgeAttribute :=
  (link.sourceTag, optionalNonEmpty (some link.text), link.targetSourceUid, link.attributes)

theorem intoDocument_ok {raw : RawArticle} (h : raw.intoDocument sha256 xml provenance = .ok d) :
    d.body = trim raw.body ∧ d.publisherEdges.map edgeLink = raw.publisherLinks.map rawLink := by
  rw [RawArticle.intoDocument] at h
  cases hheader : articleHeader raw with
  | error e =>
    rw [hheader] at h
    cases h
  | ok header =>
    simp only [hheader] at h
    split at h
    · cases h
    · cases h
      refine ⟨(articleHeader_body hheader).1, ?_⟩
      have hlinks : ∀ shell : ArticleRecord, (raw.publisherLinks.zipIdx.map fun entry =>
          entry.1.intoEdge sha256 entry.2 shell).map edgeLink = raw.publisherLinks.map rawLink := by
        intro shell
        rw [List.map_map]
        have hcomp : (edgeLink ∘ fun entry : RawPublisherLink × Nat => entry.1.intoEdge sha256 entry.2 shell) =
            rawLink ∘ Prod.fst := rfl
        rw [hcomp, ← List.map_map, List.zipIdx_map_fst]
      exact hlinks _

/-- Two readings of the same content give articles of one body and the same links. -/
theorem parseArticle_content (hcontent : xmlContent events = xmlContent events')
    (h : parseArticle sha256 events xml provenance = .ok d)
    (h' : parseArticle sha256 events' xml' provenance' = .ok d') :
    d.body = d'.body ∧ d.publisherEdges.map edgeLink = d'.publisherEdges.map edgeLink := by
  obtain ⟨s, hrun, hdocument⟩ := parseRoot_ok.mp h
  obtain ⟨s', hrun', hdocument'⟩ := parseRoot_ok.mp h'
  have hsame := additive.run_same_content hcontent ⟨[], emptyReading⟩
  rw [hrun, hrun'] at hsame
  obtain ⟨hbody, hlinks⟩ := intoDocument_ok hdocument
  obtain ⟨hbody', hlinks'⟩ := intoDocument_ok hdocument'
  cases hsame with
  | ok hstate => exact ⟨by rw [hbody, hbody', hstate.2.body], by rw [hlinks, hlinks', hstate.2.publisherLinks]⟩

end Document

end LegiXml

section Samples

open XmlEvent (element plain)

def splitDecisionEvents : List XmlEvent :=
  element "TEXTE_JURI_JUDI"
    (element "ID" [plain "JURITEXT", .cdata "000000000001".toList] ++
      element "DATE_DEC" [plain "2020", .other, plain "-01-01"] ++
      element "BLOC_TEXTUEL" (element "CONTENU" (element "p" [plain "U", plain "", .cdata "n.".toList] ++
        element "p" [plain "De", plain "ux."])))

def splitDecisionXml : Text :=
  ("<TEXTE_JURI_JUDI><ID>JURITEXT<![CDATA[000000000001]]></ID><DATE_DEC>2020<!-- -->-01-01</DATE_DEC>" ++
    "<BLOC_TEXTUEL><CONTENU><p>U<![CDATA[n.]]></p><p>Deux.</p></CONTENU></BLOC_TEXTUEL></TEXTE_JURI_JUDI>").toList

def splitArticleEvents : List XmlEvent :=
  element "ARTICLE"
    (element "META_COMMUN" (element "ID" [plain "LEGIARTI000000000001"] ++
        element "NATURE" [plain "Art", .cdata "icle".toList]) ++
      element "META_ARTICLE" (element "DATE_DEBUT" [plain "2020-01-01"] ++ element "DATE_FIN" [plain "2999-01-01"]) ++
      element "BLOC_TEXTUEL" (element "CONTENU" (element "p" [plain "U", .cdata "n.".toList] ++
        element "p" [plain "Deux."])))

def zeroHash (_ : Bytes) : Vector UInt8 32 := Vector.replicate 32 0

def noPatterns : JuriXml.CitationPatterns := ⟨fun _ => [], fun _ => none, fun _ => none⟩

/-- The hash is that of the archive member. -/
def memberProvenance : SourceProvenance := ⟨none, none, some "sha256:00".toList⟩

theorem splitDecision_content : xmlContent splitDecisionEvents = xmlContent decisionEvents := rfl

theorem splitArticle_content : xmlContent splitArticleEvents = xmlContent articleEvents := rfl

theorem memberProvenance_hash (xml xml' : Text) : LegiXml.payloadHashOf zeroHash xml memberProvenance =
    LegiXml.payloadHashOf zeroHash xml' memberProvenance := rfl

theorem parseJuriEvents_content_split :
    (JuriXml.parseJuriEvents zeroHash noPatterns splitDecisionEvents .cass splitDecisionXml memberProvenance).map
        JuriXml.ParsedJuriXml.withoutCaseNumbers =
      (JuriXml.parseJuriEvents zeroHash noPatterns decisionEvents .cass decisionXml memberProvenance).map
        JuriXml.ParsedJuriXml.withoutCaseNumbers :=
  JuriXml.parseJuriEvents_content splitDecision_content (memberProvenance_hash _ _)

set_option maxRecDepth 4000 in
theorem parseArticle_content_split :
    ∃ d d', LegiXml.parseArticle zeroHash splitArticleEvents articleXml memberProvenance = .ok d ∧
      LegiXml.parseArticle zeroHash articleEvents articleXml memberProvenance = .ok d' ∧ d.body = d'.body ∧
      d.publisherEdges.map LegiXml.edgeLink = d'.publisherEdges.map LegiXml.edgeLink := by
  have hok : (LegiXml.parseArticle zeroHash splitArticleEvents articleXml memberProvenance).isOk = true := by
    decide +kernel
  have hok' : (LegiXml.parseArticle zeroHash articleEvents articleXml memberProvenance).isOk = true := by
    decide +kernel
  obtain ⟨d, hd⟩ := exists_of_isOk hok
  obtain ⟨d', hd'⟩ := exists_of_isOk hok'
  exact ⟨d, d', hd, hd', LegiXml.parseArticle_content splitArticle_content hd hd'⟩

end Samples

end CorpusFeed
