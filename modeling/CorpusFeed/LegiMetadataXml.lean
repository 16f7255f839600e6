import CorpusFeed.HierarchyPath
import CorpusFeed.LegiXml

/-! The parsers of the other LEGI roots: text versions, sections and structures of
texts, and the choice between the roots. -/

namespace CorpusFeed.LegiXml

inductive TextVersionField where
  | id
  | url
  | nature
  | title
  | titleFull
  | status
  | dateDebut
  | dateFin
deriving DecidableEq

def TextVersionField.path : TextVersionField → List Text
  | .id => ["META_COMMUN".toList, "ID".toList]
  | .url => ["META_COMMUN".toList, "URL".toList]
  | .nature => ["META_COMMUN".toList, "NATURE".toList]
  | .title => ["META_TEXTE_VERSION".toList, "TITRE".toList]
  | .titleFull => ["META_TEXTE_VERSION".toList, "TITREFULL".toList]
  | .status => ["META_TEXTE_VERSION".toList, "ETAT".toList]
  | .dateDebut => ["META_TEXTE_VERSION".toList, "DATE_DEBUT".toList]
  | .dateFin => ["META_TEXTE_VERSION".toList, "DATE_FIN".toList]

def textVersionFields : List TextVersionField :=
  [.id, .url, .nature, .title, .titleFull, .status, .dateDebut, .dateFin]

abbrev RawTextVersion := TextVersionField → Option Text

def assignFieldText {F : Type*} [DecidableEq F] (path : F → List Text) (fields : List F) (stack : List Text)
    (values : F → Option Text) (value : Text) : F → Option Text :=
  if isBlank value then values
  else
    match fieldAt path fields stack with
    | none => values
    | some field => assignIfEmpty values field (trim value)

def textVersionHandlers : XmlHandlers LegiParseError RawTextVersion where
  localName := afterFirstColon
  xmlError := .xml
  start _ raw _ := .ok raw
  empty _ raw _ := .ok raw
  close _ raw := raw
  text := assignFieldText TextVersionField.path textVersionFields

structure ParsedTextVersion where
  textId : Text
  title : Text
  titleFull : Option Text
  status : Text
  nature : Option Text
  validFrom : Text
  validTo : Option Text
  validToRaw : Option Text
  sourceUrl : Option Text
  sourcePayloadHash : Text
  sourceArchive : Option Text
  sourceMemberPath : Option Text
  canonicalVersion : Text

/-- `LEGITEXT` or `LEGISCTA` and twelve digits. -/
def legiIdValid (start : Text) (value : Text) : Bool :=
  match stripPrefix start value with
  | none => false
  | some suffix => suffix.length == 12 && suffix.all Char.isDigit

def validateId (field start : String) (value : Text) : Except LegiParseError Unit :=
  if legiIdValid start.toList value then .ok ()
  else .error (.invalidId field.toList value (start.toList ++ "[0-9]\x7b12\x7d".toList))

def requiredDate (entity field : String) (value : Option Text) : Except LegiParseError Text := do
  let date ← required entity field value
  validateDate field date
  pure date

section Metadata

/- `sha256` is the hash function of the payloads. -/
variable (sha256 : Bytes → Vector UInt8 32)

def RawTextVersion.intoTextVersion (raw : RawTextVersion) (xml : Text) (provenance : SourceProvenance) :
    Except LegiParseError ParsedTextVersion := do
  let id ← required "text_version" "META_COMMUN/ID" (raw .id)
  validateId "META_COMMUN/ID" "LEGITEXT" id
  let nature := optionalNonEmpty (raw .nature)
  let title ← required "text_version" "META_TEXTE_VERSION/TITRE" (raw .title)
  let status ← required "text_version" "META_TEXTE_VERSION/ETAT" (raw .status)
  let validFrom ← requiredDate "text_version" "META_TEXTE_VERSION/DATE_DEBUT" (raw .dateDebut)
  let validToRaw ← required "text_version" "META_TEXTE_VERSION/DATE_FIN" (raw .dateFin)
  let validTo ← normalizeEndDate "META_TEXTE_VERSION/DATE_FIN" validToRaw
  pure
    { textId := id
      title := title
      titleFull := optionalNonEmpty (raw .titleFull)
      status := status
      nature := nature
      validFrom := validFrom
      validTo := validTo
      validToRaw := some validToRaw
      sourceUrl := optionalNonEmpty (raw .url)
      sourcePayloadHash := payloadHashOf sha256 xml provenance
      sourceArchive := provenance.archiveName
      sourceMemberPath := provenance.memberPath
      canonicalVersion := "legi_text_version:v1:nature=".toList ++ nature.getD "absent".toList }

end Metadata

inductive SectionField where
  | id
  | title
deriving DecidableEq

def SectionField.path : SectionField → List Text
  | .id => ["SECTION_TA".toList, "ID".toList]
  | .title => ["SECTION_TA".toList, "TITRE_TA".toList]

structure RawSectionTa where
  fields : SectionField → Option Text
  dateDebut : Option Text
  dateFin : Option Text
  parentTextId : Option Text
  hierarchyPath : List Text
  inContexte : Bool

/-- The first attribute of a name, in an iteration that stops at it. -/
def attributeValue (wanted : Text) : List XmlAttribute → Except LegiParseError (Option Text)
  | [] => .ok none
  | .malformed message :: _ => .error (.xml message)
  | .pair key value :: rest =>
    if afterLastColon key ≠ wanted then attributeValue wanted rest
    else
      match value with
      | .error message => .error (.xml message)
      | .ok value => .ok (some value)

def assignSectionTitleDates (raw : RawSectionTa) (tag : XmlTag) : Except LegiParseError RawSectionTa := do
  let debut ← attributeValue "debut".toList tag.attributes
  let fin ← attributeValue "fin".toList tag.attributes
  pure
    { raw with
      dateDebut := (debut.filter fun value => !isBlank value).or raw.dateDebut
      dateFin := (fin.filter fun value => !isBlank value).or raw.dateFin }

/-- What a start tag and an empty tag have in common. -/
def readSectionTag (raw : RawSectionTa) (name : Text) (tag : XmlTag) : Except LegiParseError RawSectionTa :=
  if raw.inContexte && name = "TEXTE".toList && raw.parentTextId.isNone then
    match attributeValue "cid".toList tag.attributes with
    | .error e => .error e
    | .ok cid => .ok { raw with parentTextId := optionalNonEmpty cid }
  else if raw.inContexte && name = "TITRE_TXT".toList then assignSectionTitleDates raw tag
  else .ok raw

def assignSectionText (stack : List Text) (raw : RawSectionTa) (value : Text) : RawSectionTa :=
  if isBlank value then raw
  else
    match fieldAt SectionField.path [.id, .title] stack with
    | some field => { raw with fields := assignIfEmpty raw.fields field (trim value) }
    | none => if isHierarchyTitle stack then { raw with hierarchyPath := raw.hierarchyPath ++ [trim value] } else raw

def sectionHandlers : XmlHandlers LegiParseError RawSectionTa where
  localName := afterFirstColon
  xmlError := .xml
  start _ raw tag :=
    let name := afterFirstColon tag.name
    if name = "CONTEXTE".toList then .ok { raw with inContexte := true } else readSectionTag raw name tag
  empty _ raw tag := readSectionTag raw (afterFirstColon tag.name) tag
  close stack raw := if stack.getLast? = some "CONTEXTE".toList then { raw with inContexte := false } else raw
  text := assignSectionText

structure ParsedSectionTa where
  sectionId : Option Text
  title : Text
  validFrom : Text
  validTo : Option Text
  validToRaw : Option Text
  parentTextId : Option Text
  hierarchyPath : List Text
  sourcePayloadHash : Text
  sourceArchive : Option Text
  sourceMemberPath : Option Text
  canonicalVersion : Text

def RawSectionTa.intoSectionTa (sha256 : Bytes → Vector UInt8 32) (raw : RawSectionTa) (xml : Text)
    (provenance : SourceProvenance) : Except LegiParseError ParsedSectionTa := do
  let sectionId := optionalNonEmpty (raw.fields .id)
  (sectionId.map (validateId "SECTION_TA/ID" "LEGISCTA")).getD (.ok ())
  let title ← required "section_ta" "SECTION_TA/TITRE_TA" (raw.fields .title)
  let validFrom ← requiredDate "section_ta" "TITRE_TXT@debut" raw.dateDebut
  let validToRaw ← required "section_ta" "TITRE_TXT@fin" raw.dateFin
  let validTo ← normalizeEndDate "TITRE_TXT@fin" validToRaw
  pure
    { sectionId := sectionId
      title := title
      validFrom := validFrom
      validTo := validTo
      validToRaw := some validToRaw
      parentTextId := raw.parentTextId
      hierarchyPath := raw.hierarchyPath
      sourcePayloadHash := payloadHashOf sha256 xml provenance
      sourceArchive := provenance.archiveName
      sourceMemberPath := provenance.memberPath
      canonicalVersion := "legi_section_ta:v1".toList }

inductive TextStructField where
  | id
  | url
  | nature
  | cid
  | num
  | nor
  | datePubli
  | dateTexte
deriving DecidableEq

def TextStructField.path : TextStructField → List Text
  | .id => ["META_COMMUN".toList, "ID".toList]
  | .url => ["META_COMMUN".toList, "URL".toList]
  | .nature => ["META_COMMUN".toList, "NATURE".toList]
  | .cid => ["META_TEXTE_CHRONICLE".toList, "CID".toList]
  | .num => ["META_TEXTE_CHRONICLE".toList, "NUM".toList]
  | .nor => ["META_TEXTE_CHRONICLE".toList, "NOR".toList]
  | .datePubli => ["META_TEXTE_CHRONICLE".toList, "DATE_PUBLI".toList]
  | .dateTexte => ["META_TEXTE_CHRONICLE".toList, "DATE_TEXTE".toList]

def textStructFields : List TextStructField :=
  [.id, .url, .nature, .cid, .num, .nor, .datePubli, .dateTexte]

structure ParsedTextStructLink extends TextStructLink where
  order : Nat
  debut : Option Text
  fin : Option Text

structure RawTextStruct where
  fields : TextStructField → Option Text
  sourceDateDebutHint : Option Text
  structureLinks : List ParsedTextStructLink
  linkStack : List Nat

def textStructLinkTags : List Text := ["LIEN_TXT".toList, "LIEN_SECTION_TA".toList, "LIEN_ART".toList]

def isTextStructLinkTag (name : Text) : Bool := decide (name ∈ textStructLinkTags)

def linkAttribute (attributes : List GraphEdgeAttribute) (key : Text) : Option Text :=
  (attributes.find? fun entry => entry.key == key).bind fun entry => optionalNonEmpty (some entry.value)

/-- `str::parse::<i32>` -/
def parseI32 (value : Text) : Option Int :=
  let magnitude := match value with
    | '-' :: digits => (readDecimal digits).map fun n => -(n : Int)
    | '+' :: digits => (readDecimal digits).map fun n => (n : Int)
    | digits => (readDecimal digits).map fun n => (n : Int)
  magnitude.filter fun n => decide (-2 ^ 31 ≤ n) && decide (n < 2 ^ 31)

def textStructLink (sourceTag : Text) (order : Nat) (attributes : List GraphEdgeAttribute) : ParsedTextStructLink where
  sourceTag := sourceTag
  order := order
  targetSourceUid := ["id".toList, "cid".toList, "cidtexte".toList, "href".toList].findSome? fun key =>
    (linkAttribute attributes key).bind extractKnownSourceUid
  level := (linkAttribute attributes "niv".toList).bind parseI32
  debut := linkAttribute attributes "debut".toList
  fin := linkAttribute attributes "fin".toList
  text := none
  attributes := attributes

/-- The earliest of the dates at which links start. -/
def assignTextStructDateHint (hint : Option Text) (tag : XmlTag) : Except LegiParseError (Option Text) := do
  let debut ← attributeValue "debut".toList tag.attributes
  match optionalNonEmpty debut with
  | none => pure hint
  | some debut =>
    validateDate "LIEN@debut" debut
    match hint with
    | none => pure (some debut)
    | some current => pure (some (if debut < current then debut else current))

/-- A link of a structure, and what its date adds to the hint. -/
def readTextStructTag (raw : RawTextStruct) (name : Text) (tag : XmlTag) : Except LegiParseError RawTextStruct :=
  if isTextStructLinkTag name then do
    let attributes ← collectAttributes tag.attributes
    let hint ← assignTextStructDateHint raw.sourceDateDebutHint tag
    pure
      { raw with
        structureLinks := raw.structureLinks ++ [textStructLink name raw.structureLinks.length attributes]
        sourceDateDebutHint := hint }
  else .ok raw

def assignTextStructLinkText (raw : RawTextStruct) (value : Text) : List ParsedTextStructLink :=
  match raw.linkStack.getLast? with
  | none => raw.structureLinks
  | some index => raw.structureLinks.modify index fun link =>
    let text := appendXmlContent (link.text.getD []) value
    { link with text := if isBlank text then none else some text }

def textStructHandlers : XmlHandlers LegiParseError RawTextStruct where
  localName := afterFirstColon
  xmlError := .xml
  start _ raw tag :=
    let name := afterFirstColon tag.name
    match readTextStructTag raw name tag with
    | .error e => .error e
    | .ok raw' =>
      if isTextStructLinkTag name then .ok { raw' with linkStack := raw.linkStack ++ [raw.structureLinks.length] }
      else .ok raw'
  empty _ raw tag := readTextStructTag raw (afterFirstColon tag.name) tag
  close stack raw :=
    if stack.getLast?.any isTextStructLinkTag then { raw with linkStack := raw.linkStack.dropLast } else raw
  text stack raw value :=
    { raw with
      fields := assignFieldText TextStructField.path textStructFields stack raw.fields value
      structureLinks := assignTextStructLinkText raw value }

structure ParsedTextStruct where
  textId : Text
  nature : Option Text
  sourceUrl : Option Text
  cid : Option Text
  num : Option Text
  nor : Option Text
  datePubli : Option Text
  dateTexte : Option Text
  sourceDateDebutHint : Option Text
  structureLinks : List ParsedTextStructLink
  sourcePayloadHash : Text
  sourceArchive : Option Text
  sourceMemberPath : Option Text
  canonicalVersion : Text

def optionalDate (field : String) (value : Option Text) : Except LegiParseError Unit :=
  match value with
  | none => .ok ()
  | some value => validateDate field value

def RawTextStruct.intoTextStruct (sha256 : Bytes → Vector UInt8 32) (raw : RawTextStruct) (xml : Text)
    (provenance : SourceProvenance) : Except LegiParseError ParsedTextStruct := do
  let id ← required "textelr" "META_COMMUN/ID" (raw.fields .id)
  validateId "META_COMMUN/ID" "LEGITEXT" id
  optionalDate "META_TEXTE_CHRONICLE/DATE_PUBLI" (raw.fields .datePubli)
  optionalDate "META_TEXTE_CHRONICLE/DATE_TEXTE" (raw.fields .dateTexte)
  pure
    { textId := id
      nature := optionalNonEmpty (raw.fields .nature)
      sourceUrl := optionalNonEmpty (raw.fields .url)
      cid := optionalNonEmpty (raw.fields .cid)
      num := optionalNonEmpty (raw.fields .num)
      nor := optionalNonEmpty (raw.fields .nor)
      datePubli := optionalNonEmpty (raw.fields .datePubli)
      dateTexte := optionalNonEmpty (raw.fields .dateTexte)
      sourceDateDebutHint := raw.sourceDateDebutHint
      structureLinks := raw.structureLinks
      sourcePayloadHash := payloadHashOf sha256 xml provenance
      sourceArchive := provenance.archiveName
      sourceMemberPath := provenance.memberPath
      canonicalVersion := "legi_textelr:v2".toList }

inductive ParsedLegiXml where
  | article (document : ArticleRecord)
  | textVersion (text : ParsedTextVersion)
  | sectionTa (root : ParsedSectionTa)
  | textStruct (root : ParsedTextStruct)
  | unsupportedRoot (root : Text)

section Roots

variable (sha256 : Bytes → Vector UInt8 32) (events : List XmlEvent) (xml : Text) (provenance : SourceProvenance)

def parseTextVersion : Except LegiParseError ParsedTextVersion :=
  parseRoot textVersionHandlers (fun _ => none) (fun raw => raw.intoTextVersion sha256 xml provenance) events

def parseSectionTa : Except LegiParseError ParsedSectionTa :=
  parseRoot sectionHandlers ⟨fun _ => none, none, none, none, [], false⟩
    (fun raw => raw.intoSectionTa sha256 xml provenance) events

def parseTextStruct : Except LegiParseError ParsedTextStruct :=
  parseRoot textStructHandlers ⟨fun _ => none, none, [], []⟩
    (fun raw => raw.intoTextStruct sha256 xml provenance) events

def parseLegiEvents : Except LegiParseError ParsedLegiXml :=
  match detectRoot events with
  | .error e => .error e
  | .ok root =>
    if root = "ARTICLE".toList then (parseArticle sha256 events xml provenance).map .article
    else if root = "TEXTE_VERSION".toList then (parseTextVersion sha256 events xml provenance).map .textVersion
    else if root = "SECTION_TA".toList then (parseSectionTa sha256 events xml provenance).map .sectionTa
    else if root = "TEXTELR".toList then (parseTextStruct sha256 events xml provenance).map .textStruct
    else .ok (.unsupportedRoot root)

variable {sha256 events xml provenance}

theorem map_ok {α β : Type*} {result : Except LegiParseError α} {f : α → β} {b : β} :
    result.map f = .ok b ↔ ∃ a, result = .ok a ∧ f a = b := by
  cases result with
  | error e => simp [Except.map]
  | ok a => simp [Except.map]

theorem parseLegiEvents_article {document : ArticleRecord} :
    parseLegiEvents sha256 events xml provenance = .ok (.article document) ↔
      detectRoot events = .ok "ARTICLE".toList ∧ parseArticle sha256 events xml provenance = .ok document := by
  unfold parseLegiEvents
  cases hroot : detectRoot events with
  | error e => simp
  | ok root =>
    by_cases harticle : root = "ARTICLE".toList
    · simp only [harticle, if_true, map_ok, true_and]
      constructor
      · rintro ⟨found, hfound, hd⟩
        cases hd
        exact hfound
      · intro h
        exact ⟨document, h, rfl⟩
    · have hne : (Except.ok root : Except LegiParseError Text) ≠ .ok "ARTICLE".toList := by simpa using harticle
      simp only [harticle, if_false, hne, false_and, iff_false]
      repeat' split
      · intro h
        obtain ⟨_, _, hd⟩ := map_ok.mp h
        cases hd
      · intro h
        obtain ⟨_, _, hd⟩ := map_ok.mp h
        cases hd
      · intro h
        obtain ⟨_, _, hd⟩ := map_ok.mp h
        cases hd
      · intro h
        cases h

end Roots

end CorpusFeed.LegiXml
