import CorpusFeed.ArchiveName
import CorpusFeed.LegiXml

/-! The parser of court decisions: what the events leave in a raw decision, and
the canonical decision that is made of it. -/

namespace CorpusFeed.JuriXml

open LegiXml (publisherEdgeId payloadHashOf)

inductive JuriParseError where
  | xml (message : Text)
  | missingRequiredField (entity field : Text)
  | invalidDate (field value : Text)
  | invalidId (field value expected : Text)
  | notUtf8 (member message : Text)
  | unknownSource (dataset : Text)
  | sourceFamilyMismatch (dataset root : Text)
  | emptyBody (sourceUid : Text)

/-- The root element of a family, which is also the name of the entity in errors. -/
def rootElement : JuriFamily → Text
  | .judicial => "TEXTE_JURI_JUDI".toList
  | .administrative => "TEXTE_JURI_ADMIN".toList

structure RawSummary extends DecisionSummary where
  id : Option Text

structure RawLink where
  text : Text
  attributes : List GraphEdgeAttribute

structure RawDecision where
  fields : Text → Option Text
  caseNumbers : List Text
  body : Text
  summaries : List RawSummary
  currentSummary : Option RawSummary
  links : List RawLink

def scalarMetadataTags : List Text :=
  ["ID".toList, "ANCIEN_ID".toList, "ORIGINE".toList, "URL".toList, "NATURE".toList, "TITRE".toList, "DATE_DEC".toList,
    "JURIDICTION".toList, "NUMERO".toList, "SOLUTION".toList, "ECLI".toList, "FORMATION".toList, "FORM_DEC_ATT".toList,
    "DATE_DEC_ATT".toList, "SIEGE_APPEL".toList, "JURI_PREM".toList, "LIEU_PREM".toList, "PRESIDENT".toList,
    "AVOCAT_GL".toList, "AVOCATS".toList, "RAPPORTEUR".toList, "COMMISSAIRE_GVT".toList, "TYPE_REC".toList,
    "PUBLI_RECUEIL".toList, "PUBLI_BULL".toList]

def isScalarMetadataTag (name : Text) : Bool := decide (name ∈ scalarMetadataTags)

def isSummaryTag (name : Text) : Bool := decide (name = "SCT".toList ∨ name = "ANA".toList)

/-- Attributes that cannot be read are left out. -/
def collectAttributes (attributes : List XmlAttribute) : List GraphEdgeAttribute :=
  attributes.filterMap fun
    | .malformed _ => none
    | .pair key (.error _) => some ⟨afterLastColon key, []⟩
    | .pair key (.ok value) => some ⟨afterLastColon key, value⟩

def keyMatches (key wanted : Text) : Bool := key.map Char.toLower == wanted.map Char.toLower

def attributeValue (attributes : List XmlAttribute) (wanted : Text) : Option Text :=
  attributes.findSome? fun
    | .pair key (.ok value) =>
      if keyMatches (afterLastColon key) wanted && !isBlank value then some (trim value) else none
    | _ => none

def pushLink (raw : RawDecision) (tag : XmlTag) : RawDecision :=
  { raw with links := raw.links ++ [⟨[], collectAttributes tag.checkedAttributes⟩] }

def capturePubliBull (raw : RawDecision) (tag : XmlTag) : RawDecision :=
  match attributeValue tag.checkedAttributes "publie".toList with
  | none => raw
  | some publie => { raw with fields := Function.update raw.fields "PUBLI_BULL_publie".toList (some publie) }

def openSummary (raw : RawDecision) (kind : Text) (tag : XmlTag) : RawDecision :=
  { raw with currentSummary := some ⟨⟨kind, []⟩, attributeValue tag.checkedAttributes "ID".toList⟩ }

def openElement (raw : RawDecision) (name : Text) (tag : XmlTag) : RawDecision :=
  if name = "LIEN".toList then pushLink raw tag
  else if name = "SCT".toList then
    openSummary raw ((attributeValue tag.checkedAttributes "TYPE".toList).getD "PRINCIPAL".toList) tag
  else if name = "ANA".toList then openSummary raw "analyse".toList tag
  else if name = "PUBLI_BULL".toList then capturePubliBull raw tag
  else raw

def emptyElement (raw : RawDecision) (stack : List Text) (name : Text) (tag : XmlTag) : RawDecision :=
  if name = "LIEN".toList then pushLink raw tag
  else if name = "PUBLI_BULL".toList then capturePubliBull raw tag
  else if isBodyBlockBoundary name && inBodyContext stack then { raw with body := appendBlockBoundary raw.body }
  else raw

def endParagraph (raw : RawDecision) (stack : List Text) (name : Text) : RawDecision :=
  if isBodyBlockBoundary name && inBodyContext stack then { raw with body := appendBlockBoundary raw.body } else raw

def endSummary (raw : RawDecision) (name : Text) : RawDecision :=
  if isSummaryTag name then
    match raw.currentSummary with
    | none => raw
    | some summary =>
      { raw with
        currentSummary := none
        summaries := if collapseWs summary.text = [] then raw.summaries
          else raw.summaries ++ [{ summary with text := collapseWs summary.text }] }
  else raw

def closeElement (raw : RawDecision) (stack : List Text) : RawDecision :=
  match stack.getLast? with
  | none => raw
  | some name => endSummary (endParagraph raw stack name) name

def RawSummary.append (summary : RawSummary) (value : Text) : RawSummary :=
  { summary with text := summary.text ++ value }

def RawLink.append (link : RawLink) (value : Text) : RawLink := { link with text := link.text ++ value }

def assignText (raw : RawDecision) (stack : List Text) (value : Text) : RawDecision :=
  if inBodyContext stack then { raw with body := appendXmlContent raw.body value }
  else
    match stack.getLast? with
    | none => raw
    | some current =>
      if current = "NUMERO_AFFAIRE".toList then
        if isBlank value then raw else { raw with caseNumbers := raw.caseNumbers ++ [trim value] }
      else if isSummaryTag current then
        { raw with currentSummary := raw.currentSummary.map fun summary => summary.append value }
      else if current = "LIEN".toList then
        { raw with links := raw.links.modify (raw.links.length - 1) fun link => link.append value }
      else if isScalarMetadataTag current then
        { raw with fields := Function.update raw.fields current (some ((raw.fields current).getD [] ++ value)) }
      else raw

def decisionHandlers : XmlHandlers JuriParseError RawDecision where
  localName := afterLastColon
  xmlError := .xml
  start _ raw tag := .ok (openElement raw (afterLastColon tag.name) tag)
  empty stack raw tag := .ok (emptyElement raw stack (afterLastColon tag.name) tag)
  close stack raw := closeElement raw stack
  text stack raw value := assignText raw stack value

def emptyRaw : RawDecision := ⟨fun _ => none, [], [], [], none, []⟩

/-- The columns of a canonical decision that only its parser fills. The ids stand
beside the summaries. -/
structure DecisionRecord extends CanonicalDecision where
  number : Option Text
  solution : Option Text
  formation : Option Text
  nature : Option Text
  publication : Option Text
  caseNumbers : List Text
  sourceArchive : Option Text
  sourceMemberPath : Option Text
  rawMetadata : Text → Option Text
  summaryIds : List (Option Text)

/-- The scalar fields with their white space collapsed, without those that are empty. -/
def metadata (raw : RawDecision) (name : Text) : Option Text :=
  ((raw.fields name).map collapseWs).filter fun value => !value.isEmpty

def required (entity : Text) (field : String) (value : Option Text) : Except JuriParseError Text :=
  match (value.map collapseWs).filter fun value => !value.isEmpty with
  | none => .error (.missingRequiredField entity field.toList)
  | some value => .ok value

def uidValid (family : JuriFamily) (value : Text) : Bool :=
  match stripPrefix family.uidPrefix value with
  | none => false
  | some suffix => suffix.length == 12 && suffix.all Char.isDigit

structure DecisionHeader where
  sourceUid : Text
  decisionDate : Text
  body : Text

def decisionHeader (family : JuriFamily) (raw : RawDecision) : Except JuriParseError DecisionHeader :=
  match required (rootElement family) "ID" (metadata raw "ID".toList) with
  | .error e => .error e
  | .ok sourceUid =>
    if uidValid family sourceUid = false then
      .error (.invalidId "ID".toList sourceUid (family.uidPrefix ++ "[0-9]\x7b12\x7d".toList))
    else
      match required (rootElement family) "DATE_DEC" (metadata raw "DATE_DEC".toList) with
      | .error e => .error e
      | .ok decisionDate =>
        if dateValid decisionDate = false then .error (.invalidDate "DATE_DEC".toList decisionDate)
        else if isBlank (finishBody raw.body) then .error (.emptyBody sourceUid)
        else .ok ⟨sourceUid, decisionDate, finishBody raw.body⟩

/-- A match of the pattern for article citations: where it ends, and its number. -/
structure ArticleCapture where
  stop : Nat
  whole : Text
  num : Text

structure CodeHint where
  same : Bool
  name : Text

/-- The patterns of the regular expression engine. -/
structure CitationPatterns where
  articles : Text → List ArticleCapture
  nextArticle : Text → Option Nat
  codeHint : Text → Option CodeHint

/-- The longest start of a text that takes up at most so many bytes. -/
def charSafeWindow : Nat → Text → Text
  | _, [] => []
  | maxBytes, c :: rest =>
    if c.utf8Size ≤ maxBytes then c :: charSafeWindow (maxBytes - c.utf8Size) rest else []

def normalizeArticleNumber (raw : Text) : Text :=
  raw.filterMap fun c =>
    if c = 'l' ∨ c = 'L' then some 'L'
    else if c = 'r' ∨ c = 'R' then some 'R'
    else if c = 'd' ∨ c = 'D' then some 'D'
    else if c.isDigit then some c
    else if c = '-' ∨ c = '‑' then some '-'
    else none

def maxInferredCitationEdges : Nat := 64

section Document

/- `sha256` is the hash function of the payloads and of the edge ids. -/
variable (sha256 : Bytes → Vector UInt8 32) (patterns : CitationPatterns)

def linkTargetSourceUid (attributes : List GraphEdgeAttribute) : Option Text :=
  ["id".toList, "cidtexte".toList].findSome? fun wanted =>
    ((attributes.find? fun entry => keyMatches entry.key wanted).map fun entry => trim entry.value).filter
      fun value => !value.isEmpty

def decisionEdgeId (fromDocumentId : Text) (index : Nat) (toSourceUid sourceText : Option Text) : Text :=
  publisherEdgeId sha256 fromDocumentId index "LIEN".toList toSourceUid sourceText

def publisherEdge (document : DecisionRecord) (index : Nat) (link : RawLink) : Option CanonicalGraphEdge :=
  let text := collapseWs link.text
  let attributes := link.attributes.filter fun entry => !isBlank entry.value
  if text.isEmpty && attributes.isEmpty then none
  else
    let toSourceUid := linkTargetSourceUid link.attributes
    let sourceText := if text.isEmpty then none else some text
    some
      { edgeId := decisionEdgeId sha256 document.documentId index toSourceUid sourceText
        fromDocumentId := document.documentId
        fromSourceUid := document.sourceUid
        toSourceUid := toSourceUid
        toDocumentId := none
        relation := "refers_to".toList
        edgeSource := "publisher".toList
        sourceTag := "LIEN".toList
        sourceText := sourceText
        sourcePayloadHash := document.sourcePayloadHash
        sourceArchive := document.sourceArchive
        sourceMemberPath := document.sourceMemberPath
        attributes := attributes }

def buildPublisherEdges (document : DecisionRecord) (links : List RawLink) : List CanonicalGraphEdge :=
  links.zipIdx.filterMap fun entry => publisherEdge sha256 document entry.2 entry.1

def inferredEdgeId (fromDocumentId articleNumber : Text) (codeHint : Option Text) : Text :=
  let evidence := ['|'].intercalate
    [fromDocumentId, "inferred".toList, "cites_article".toList, articleNumber, codeHint.getD []]
  let hash := sourcePayloadHash sha256 (asBytes evidence)
  "inferred-edge:".toList ++ (stripPrefix "sha256:".toList hash).getD hash

def codeHintAfter (body : Text) (capture : ArticleCapture) : Option Text :=
  let window := charSafeWindow 80 (body.drop capture.stop)
  let tail := match patterns.nextArticle window with
    | none => window
    | some next => window.take next
  (patterns.codeHint tail).map fun hint =>
    if hint.same then "même code".toList else trim ("code ".toList ++ collapseWs hint.name)

def inferredEdge (document : DecisionRecord) (capture : ArticleCapture) (number : Text) (codeHint : Option Text) :
    CanonicalGraphEdge where
  edgeId := inferredEdgeId sha256 document.documentId number codeHint
  fromDocumentId := document.documentId
  fromSourceUid := document.sourceUid
  toSourceUid := none
  toDocumentId := none
  relation := "cites_article".toList
  edgeSource := "inferred".toList
  sourceTag := "body_citation".toList
  sourceText := some (collapseWs capture.whole)
  sourcePayloadHash := document.sourcePayloadHash
  sourceArchive := document.sourceArchive
  sourceMemberPath := document.sourceMemberPath
  attributes := ⟨"article_number".toList, number⟩ :: codeHint.toList.map fun hint => ⟨"code_hint".toList, hint⟩

/-- The loop over the matches: `seen` holds the citations that have an edge. -/
def inferEdges (document : DecisionRecord) (edges : List CanonicalGraphEdge) (seen : List Text) :
    List ArticleCapture → List CanonicalGraphEdge
  | [] => edges
  | capture :: rest =>
    if maxInferredCitationEdges ≤ edges.length then edges
    else
      let number := normalizeArticleNumber capture.num
      let codeHint := codeHintAfter patterns document.body capture
      let key := number ++ '|' :: codeHint.getD []
      let statutory := number.head?.any fun c => c == 'L' || c == 'R' || c == 'D'
      if number.isEmpty || (!statutory && codeHint.isNone) || decide (key ∈ seen) then
        inferEdges document edges seen rest
      else inferEdges document (edges ++ [inferredEdge sha256 document capture number codeHint]) (key :: seen) rest

def buildInferredCitationEdges (document : DecisionRecord) : List CanonicalGraphEdge :=
  inferEdges sha256 patterns document [] [] (patterns.articles document.body)

/-- The decision before its edges and chunks are built. -/
def decisionShell (source : ArchiveSource) (family : JuriFamily) (raw : RawDecision) (header : DecisionHeader)
    (payloadHash : Text) (provenance : SourceProvenance) : DecisionRecord where
  documentId := source.asStr ++ ":".toList ++ header.sourceUid
  source := source.asStr
  sourceFamily := family
  kind := "decision".toList
  sourceUid := header.sourceUid
  citation := metadata raw "TITRE".toList
  title := metadata raw "TITRE".toList
  body := header.body
  decisionDate := header.decisionDate
  jurisdiction := metadata raw "JURIDICTION".toList
  ecli := metadata raw "ECLI".toList
  sourceUrl := some ("https://www.legifrance.gouv.fr/juri/id/".toList ++ header.sourceUid)
  sourcePayloadHash := payloadHash
  chunkingProvenance := "heuristic".toList
  summaries := raw.summaries.map RawSummary.toDecisionSummary
  publisherEdges := []
  inferredEdges := []
  chunks := []
  canonicalVersion := juriDecisionCanonicalVersion
  number := metadata raw "NUMERO".toList
  solution := metadata raw "SOLUTION".toList
  formation := metadata raw "FORMATION".toList
  nature := metadata raw "NATURE".toList
  publication := metadata raw (match family with
    | .judicial => "PUBLI_BULL_publie".toList
    | .administrative => "PUBLI_RECUEIL".toList)
  caseNumbers := raw.caseNumbers
  sourceArchive := provenance.archiveName
  sourceMemberPath := provenance.memberPath
  rawMetadata := metadata raw
  summaryIds := raw.summaries.map RawSummary.id

def withPublisherEdges (document : DecisionRecord) (links : List RawLink) : DecisionRecord :=
  { document with publisherEdges := buildPublisherEdges sha256 document links }

def withInferredEdges (document : DecisionRecord) : DecisionRecord :=
  { document with inferredEdges := buildInferredCitationEdges sha256 patterns document }

def withChunks (document : DecisionRecord) : DecisionRecord :=
  { document with chunks := buildDecisionChunks document.toCanonicalDecision }

def RawDecision.intoDecision (raw : RawDecision) (source : ArchiveSource) (family : JuriFamily) (xml : Text)
    (provenance : SourceProvenance) : Except JuriParseError DecisionRecord :=
  match decisionHeader family raw with
  | .error e => .error e
  | .ok header =>
    let shell := decisionShell source family raw header (payloadHashOf sha256 xml provenance) provenance
    .ok (withChunks (withInferredEdges sha256 patterns (withPublisherEdges sha256 shell raw.links)))

def parseDecision (events : List XmlEvent) (source : ArchiveSource) (family : JuriFamily) (xml : Text)
    (provenance : SourceProvenance) : Except JuriParseError DecisionRecord :=
  match decisionHandlers.run ⟨[], emptyRaw⟩ events with
  | .error e => .error e
  | .ok s => s.raw.intoDecision sha256 patterns source family xml provenance

def detectRoot : List XmlEvent → Except JuriParseError Text
  | [] => .ok LegiXml.emptyXmlRoot
  | .start tag :: _ => .ok (afterLastColon tag.name)
  | .empty tag :: _ => .ok (afterLastColon tag.name)
  | .error message :: _ => .error (.xml message)
  | _ :: rest => detectRoot rest

inductive ParsedJuriXml where
  | decision (decision : DecisionRecord)
  | unsupportedRoot (root : Text)

def familyOfRoot (root : Text) : Option JuriFamily :=
  if root = rootElement .judicial then some .judicial
  else if root = rootElement .administrative then some .administrative
  else none

theorem familyOfRoot_iff {root : Text} {family : JuriFamily} :
    familyOfRoot root = some family ↔ root = rootElement family := by
  have hdistinct : rootElement .judicial ≠ rootElement .administrative := by decide
  unfold familyOfRoot
  by_cases hjudicial : root = rootElement .judicial
  · cases family with
    | judicial => simp [hjudicial]
    | administrative => simp [hjudicial, hdistinct]
  · by_cases hadministrative : root = rootElement .administrative
    · cases family with
      | judicial => simp [hadministrative, hdistinct.symm]
      | administrative => simp [hadministrative, hdistinct.symm]
    · cases family with
      | judicial => simp [hjudicial, hadministrative]
      | administrative => simp [hjudicial, hadministrative]

def parseJuriEvents (events : List XmlEvent) (source : ArchiveSource) (xml : Text) (provenance : SourceProvenance) :
    Except JuriParseError ParsedJuriXml :=
  if source = .legi then .error (.unknownSource source.asStr)
  else
    match detectRoot events with
    | .error e => .error e
    | .ok root =>
      match familyOfRoot root with
      | none => .ok (.unsupportedRoot root)
      | some family =>
        if juriFamilyOf source.asStr ≠ some family then
          .error (.sourceFamilyMismatch source.asStr (rootElement family))
        else
          match parseDecision sha256 patterns events source family xml provenance with
          | .error e => .error e
          | .ok decision => .ok (.decision decision)

variable {sha256 patterns} {events : List XmlEvent} {source : ArchiveSource} {xml : Text} {provenance : SourceProvenance}

theorem parseJuriEvents_decision {decision : DecisionRecord} :
    parseJuriEvents sha256 patterns events source xml provenance = .ok (.decision decision) ↔
      ∃ family, source ≠ .legi ∧ detectRoot events = .ok (rootElement family) ∧
        juriFamilyOf source.asStr = some family ∧
        parseDecision sha256 patterns events source family xml provenance = .ok decision := by
  unfold parseJuriEvents
  by_cases hlegi : source = .legi
  · simp [hlegi]
  rw [if_neg hlegi]
  cases hroot : detectRoot events with
  | error e => simp
  | ok root =>
    simp only [Except.ok.injEq, ne_eq, hlegi, not_false_eq_true, true_and]
    cases hfamily : familyOfRoot root with
    | none =>
      have hne : ∀ family, root ≠ rootElement family := fun family he => by
        rw [familyOfRoot_iff.mpr he] at hfamily
        cases hfamily
      simp [hne]
    | some family =>
      have hroot' : ∀ other, root = rootElement other ↔ family = other := fun other => by
        rw [← familyOfRoot_iff, hfamily, Option.some.injEq]
      simp only [hroot', exists_eq_left']
      by_cases hsource : juriFamilyOf source.asStr = some family
      · simp only [hsource, not_true_eq_false, if_false, true_and]
        cases parseDecision sha256 patterns events source family xml provenance with
        | error e => simp
        | ok found => simp
      · simp [hsource]

end Document

end CorpusFeed.JuriXml
