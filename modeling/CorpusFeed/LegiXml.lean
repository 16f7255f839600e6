import CorpusFeed.BodyText
import CorpusFeed.BoundedLine
import CorpusFeed.ChunkBuilders
import CorpusFeed.CitationTarget
import CorpusFeed.PayloadAggregate
import CorpusFeed.XmlEvents

/-! The parser of LEGI articles: what the events leave in a raw article, and the
canonical document that is made of it. -/

namespace CorpusFeed

/-- Where a member comes from. Without `payloadHash` the text itself is hashed. -/
structure SourceProvenance where
  archiveName : Option Text
  memberPath : Option Text
  payloadHash : Option Text

def sourcePayloadHash (sha256 : Bytes → Vector UInt8 32) (bytes : Bytes) : Text := formatSha256 (sha256 bytes)

/-- The local name after the first colon of a qualified name. -/
def afterFirstColon (name : Text) : Text :=
  match name.dropWhile (· ≠ ':') with
  | [] => name
  | _ :: rest => rest

def afterLastColon (name : Text) : Text := (name.splitOn ':').getLast?.getD name

namespace LegiXml

inductive LegiParseError where
  | xml (message : Text)
  | missingRequiredField (entity field : Text)
  | invalidDate (field value : Text)
  | invalidId (field value expected : Text)

structure RawPublisherLink where
  sourceTag : Text
  text : Text
  attributes : List GraphEdgeAttribute

section Fields

variable {F : Type*}

/-- The first field whose path ends the stack. -/
def fieldAt (path : F → List Text) (fields : List F) (stack : List Text) : Option F :=
  fields.find? fun field => pathEndsWith stack (path field)

def assignIfEmpty [DecidableEq F] (values : F → Option Text) (field : F) (value : Text) : F → Option Text :=
  Function.update values field ((values field).or (some value))

end Fields

/-- The fields of an article that hold one text. -/
inductive ArticleField where
  | id
  | url
  | nature
  | etat
  | num
  | articleType
  | dateDebut
  | dateFin
deriving DecidableEq

def ArticleField.path : ArticleField → List Text
  | .id => ["META_COMMUN".toList, "ID".toList]
  | .url => ["META_COMMUN".toList, "URL".toList]
  | .nature => ["META_COMMUN".toList, "NATURE".toList]
  | .etat => ["META_ARTICLE".toList, "ETAT".toList]
  | .num => ["META_ARTICLE".toList, "NUM".toList]
  | .articleType => ["META_ARTICLE".toList, "TYPE".toList]
  | .dateDebut => ["META_ARTICLE".toList, "DATE_DEBUT".toList]
  | .dateFin => ["META_ARTICLE".toList, "DATE_FIN".toList]

/-- In the order of the tests. -/
def articleFields : List ArticleField :=
  [.id, .url, .nature, .etat, .num, .articleType, .dateDebut, .dateFin]

structure RawArticle where
  fields : ArticleField → Option Text
  body : Text
  hierarchyPath : List Text
  publisherLinks : List RawPublisherLink

/-- `linkStack` holds the positions of the links that are open. -/
structure ArticleReading where
  raw : RawArticle
  linkStack : List Nat

def publisherLinkTags : List Text :=
  ["LIEN".toList, "LIEN_ART".toList, "LIEN_SECTION_TA".toList, "LIEN_TXT".toList, "a".toList, "A".toList]

def isPublisherLinkTag (name : Text) : Bool := decide (name ∈ publisherLinkTags)

def collectAttributes : List XmlAttribute → Except LegiParseError (List GraphEdgeAttribute)
  | [] => .ok []
  | .malformed message :: _ => .error (.xml message)
  | .pair _ (.error message) :: _ => .error (.xml message)
  | .pair key (.ok value) :: rest =>
    match collectAttributes rest with
    | .error e => .error e
    | .ok attributes => .ok (⟨afterLastColon key, value⟩ :: attributes)

def isHierarchyTitle (stack : List Text) : Bool :=
  pathContains stack ["CONTEXTE".toList] &&
    (pathEndsWith stack ["TITRE_TXT".toList] || pathEndsWith stack ["TITRE_TM".toList])

def assignArticleText (raw : RawArticle) (stack : List Text) (value : Text) : RawArticle :=
  if inBodyContext stack then { raw with body := appendXmlContent raw.body value }
  else if isBlank value then raw
  else
    match fieldAt ArticleField.path articleFields stack with
    | some field => { raw with fields := assignIfEmpty raw.fields field (trim value) }
    | none => if isHierarchyTitle stack then { raw with hierarchyPath := raw.hierarchyPath ++ [trim value] } else raw

def appendLinkText (links : List RawPublisherLink) (index : Nat) (value : Text) : List RawPublisherLink :=
  links.modify index fun link => { link with text := appendXmlContent link.text value }

def assignLinkText (reading : ArticleReading) (value : Text) : List RawPublisherLink :=
  match reading.linkStack.getLast? with
  | none => reading.raw.publisherLinks
  | some index => appendLinkText reading.raw.publisherLinks index value

def appendBoundaryForCurrentTag (raw : RawArticle) (stack : List Text) : RawArticle :=
  if stack.getLast?.any isBodyBlockBoundary && inBodyContext stack then
    { raw with body := appendBlockBoundary raw.body }
  else raw

def pushPublisherLink (raw : RawArticle) (tag : XmlTag) (sourceTag : Text) :
    Except LegiParseError RawArticle :=
  match collectAttributes tag.attributes with
  | .error e => .error e
  | .ok attributes => .ok { raw with publisherLinks := raw.publisherLinks ++ [⟨sourceTag, [], attributes⟩] }

def articleHandlers : XmlHandlers LegiParseError ArticleReading where
  localName := afterFirstColon
  xmlError := .xml
  start _ reading tag :=
    let name := afterFirstColon tag.name
    if isPublisherLinkTag name then
      match pushPublisherLink reading.raw tag name with
      | .error e => .error e
      | .ok raw => .ok ⟨raw, reading.linkStack ++ [reading.raw.publisherLinks.length]⟩
    else .ok reading
  empty stack reading tag :=
    let name := afterFirstColon tag.name
    if isPublisherLinkTag name then
      match pushPublisherLink reading.raw tag name with
      | .error e => .error e
      | .ok raw => .ok { reading with raw := appendBoundaryForCurrentTag raw (stack ++ [name]) }
    else .ok { reading with raw := appendBoundaryForCurrentTag reading.raw (stack ++ [name]) }
  close stack reading :=
    ⟨appendBoundaryForCurrentTag reading.raw stack,
      if stack.getLast?.any isPublisherLinkTag then reading.linkStack.dropLast else reading.linkStack⟩
  text stack reading value :=
    let raw := assignArticleText reading.raw stack value
    { reading with raw := { raw with publisherLinks := assignLinkText reading value } }

def emptyReading : ArticleReading := ⟨⟨fun _ => none, [], [], []⟩, []⟩

def requiredNonEmpty (entity field : String) (value : Text) : Except LegiParseError Text :=
  if isBlank value then .error (.missingRequiredField entity.toList field.toList) else .ok (trim value)

def required (entity field : String) : Option Text → Except LegiParseError Text
  | none => .error (.missingRequiredField entity.toList field.toList)
  | some value => requiredNonEmpty entity field value

def optionalNonEmpty (value : Option Text) : Option Text := (value.map trim).filter fun value => !value.isEmpty

def validateDate (field : String) (value : Text) : Except LegiParseError Unit :=
  if dateValid value then .ok () else .error (.invalidDate field.toList value)

def normalizeEndDate (field : String) (value : Text) : Except LegiParseError (Option Text) :=
  match validateDate field value with
  | .error e => .error e
  | .ok () => .ok (if value = "2999-01-01".toList ∨ value = "2999-12-31".toList then none else some value)

/-- The fields of an article once they are checked. -/
structure ArticleHeader where
  id : Text
  nature : Text
  validFrom : Text
  validToRaw : Text
  validTo : Option Text
  body : Text

def articleHeader (raw : RawArticle) : Except LegiParseError ArticleHeader :=
  match required "article" "META_COMMUN/ID" (raw.fields .id) with
  | .error e => .error e
  | .ok id =>
    if legiArticleIdValid id = false then
      .error (.invalidId "META_COMMUN/ID".toList id "LEGIARTI[0-9]\x7b12\x7d".toList)
    else
      match required "article" "META_COMMUN/NATURE" (raw.fields .nature) with
      | .error e => .error e
      | .ok nature =>
        match required "article" "META_ARTICLE/DATE_DEBUT" (raw.fields .dateDebut) with
        | .error e => .error e
        | .ok validFrom =>
          match validateDate "META_ARTICLE/DATE_DEBUT" validFrom with
          | .error e => .error e
          | .ok () =>
            match required "article" "META_ARTICLE/DATE_FIN" (raw.fields .dateFin) with
            | .error e => .error e
            | .ok validToRaw =>
              match normalizeEndDate "META_ARTICLE/DATE_FIN" validToRaw with
              | .error e => .error e
              | .ok validTo =>
                match requiredNonEmpty "article" "BLOC_TEXTUEL/CONTENU" raw.body with
                | .error e => .error e
                | .ok body => .ok ⟨id, nature, validFrom, validToRaw, validTo, body⟩

/-- The columns of a canonical article that only its parser fills. -/
structure ArticleRecord extends CanonicalDocument where
  sourceStatus : Option Text
  sourceNature : Option Text
  sourceArticleType : Option Text
  sourceArchive : Option Text
  sourceMemberPath : Option Text
  canonicalVersion : Text

def extractKnownSourceUid (value : Text) : Option Text :=
  ["LEGIARTI".toList, "LEGISCTA".toList, "LEGITEXT".toList, "JORFTEXT".toList].findSome? fun start =>
    match afterFirst start value with
    | none => none
    | some rest =>
      let suffix := (rest.takeWhile Char.isDigit).take 12
      if suffix.length = 12 then some (start ++ suffix) else none

namespace RawPublisherLink

def attributeValue (link : RawPublisherLink) (key : Text) : Option Text :=
  match link.attributes.find? fun entry => entry.key == key with
  | none => none
  | some entry => optionalNonEmpty (some entry.value)

def targetSourceUid (link : RawPublisherLink) : Option Text :=
  (["id".toList, "cid".toList, "cidtexte".toList, "href".toList].findSome? link.attributeValue).map
    fun value => (extractKnownSourceUid value).getD value

end RawPublisherLink

section Document

/- `sha256` is the hash function of the payloads and of the edge ids. -/
variable (sha256 : Bytes → Vector UInt8 32)

def publisherEdgeId (fromDocumentId : Text) (index : Nat) (sourceTag : Text) (toSourceUid sourceText : Option Text) :
    Text :=
  let evidence := ['|'].intercalate
    [fromDocumentId, padDecimal 1 index, sourceTag, toSourceUid.getD [], sourceText.getD []]
  let hash := sourcePayloadHash sha256 (asBytes evidence)
  "publisher-edge:".toList ++ (stripPrefix "sha256:".toList hash).getD hash

def RawPublisherLink.intoEdge (link : RawPublisherLink) (index : Nat) (document : ArticleRecord) :
    CanonicalGraphEdge where
  edgeId := publisherEdgeId sha256 document.documentId index link.sourceTag link.targetSourceUid
    (optionalNonEmpty (some link.text))
  fromDocumentId := document.documentId
  fromSourceUid := document.sourceUid
  toSourceUid := link.targetSourceUid
  toDocumentId := none
  relation := "refers_to".toList
  edgeSource := "publisher".toList
  sourceTag := link.sourceTag
  sourceText := optionalNonEmpty (some link.text)
  sourcePayloadHash := document.sourcePayloadHash
  sourceArchive := document.sourceArchive
  sourceMemberPath := document.sourceMemberPath
  attributes := link.attributes

/-- The document before its edges and chunks are built. -/
def articleShell (raw : RawArticle) (header : ArticleHeader) (payloadHash : Text) (provenance : SourceProvenance) :
    ArticleRecord :=
  let etat := optionalNonEmpty (raw.fields .etat)
  let articleType := optionalNonEmpty (raw.fields .articleType)
  let title := "Article ".toList ++ (optionalNonEmpty (raw.fields .num)).getD header.id
  { documentId := "legi:".toList ++ header.id ++ "@".toList ++ header.validFrom
    source := "legi".toList
    kind := "article".toList
    sourceUid := header.id
    versionGroup := some header.id
    citation := some (raw.hierarchyPath.head?.getD "LEGI".toList ++ ' ' :: title)
    title := some title
    body := header.body
    validFrom := header.validFrom
    validTo := header.validTo
    validToRaw := some header.validToRaw
    sourceUrl := raw.fields .url
    sourcePayloadHash := payloadHash
    hierarchyPath := raw.hierarchyPath
    publisherEdges := []
    chunks := []
    sourceStatus := etat
    sourceNature := some header.nature
    sourceArticleType := articleType
    sourceArchive := provenance.archiveName
    sourceMemberPath := provenance.memberPath
    canonicalVersion := "legi_article:v2:nature=".toList ++ header.nature ++ ":etat=".toList ++
      etat.getD "absent".toList ++ ":type=".toList ++ articleType.getD "absent".toList }

def withEdges (document : ArticleRecord) (links : List RawPublisherLink) : ArticleRecord :=
  { document with
    publisherEdges := links.zipIdx.map fun entry => entry.1.intoEdge sha256 entry.2 document }

def withChunks (document : ArticleRecord) : ArticleRecord :=
  { document with chunks := buildArticleChunks document.toCanonicalDocument }

def payloadHashOf (xml : Text) (provenance : SourceProvenance) : Text :=
  provenance.payloadHash.getD (sourcePayloadHash sha256 (asBytes xml))

def RawArticle.intoDocument (raw : RawArticle) (xml : Text) (provenance : SourceProvenance) :
    Except LegiParseError ArticleRecord :=
  match articleHeader raw with
  | .error e => .error e
  | .ok header =>
    let shell := articleShell raw header (payloadHashOf sha256 xml provenance) provenance
    let document := withChunks (withEdges sha256 shell raw.publisherLinks)
    match document.toCanonicalDocument.validate with
    | some error => .error (.xml ("canonical validation failed: ".toList ++ error.toList))
    | none => .ok document

/-- A parser: its loop over the events, and what it makes of the raw record. -/
def parseRoot {ρ T : Type*} (handlers : XmlHandlers LegiParseError ρ) (raw : ρ)
    (finish : ρ → Except LegiParseError T) (events : List XmlEvent) : Except LegiParseError T :=
  match handlers.run ⟨[], raw⟩ events with
  | .error e => .error e
  | .ok s => finish s.raw

theorem parseRoot_ok {ρ T : Type*} {handlers : XmlHandlers LegiParseError ρ} {raw : ρ}
    {finish : ρ → Except LegiParseError T} {events : List XmlEvent} {result : T} :
    parseRoot handlers raw finish events = .ok result ↔
      ∃ s, handlers.run ⟨[], raw⟩ events = .ok s ∧ finish s.raw = .ok result := by
  unfold parseRoot
  cases handlers.run ⟨[], raw⟩ events with
  | error e => simp
  | ok s => simp

def parseArticle (events : List XmlEvent) (xml : Text) (provenance : SourceProvenance) :
    Except LegiParseError ArticleRecord :=
  parseRoot articleHandlers emptyReading (fun reading => reading.raw.intoDocument sha256 xml provenance) events

end Document

def emptyXmlRoot : Text := "EMPTY_XML".toList

def detectRoot : List XmlEvent → Except LegiParseError Text
  | [] => .ok emptyXmlRoot
  | .start tag :: _ => .ok (afterFirstColon tag.name)
  | .empty tag :: _ => .ok (afterFirstColon tag.name)
  | .error message :: _ => .error (.xml message)
  | _ :: rest => detectRoot rest

end LegiXml

end CorpusFeed
