import CorpusFeed.Collation
import CorpusFeed.KeyedTable
import CorpusFeed.PackageContract
import CorpusFeed.SiteFrames
import CorpusFeed.VisaCitation

/-! The archive of API exchanges, the citations collected from its decisions, and the run
that collects them. -/

namespace CorpusFeed

structure ApiResponse where
  responseId : ℕ
  provider : Text
  endpoint : Text
  outcome : Text
  subjectDocumentId : Option Text
  subjectSourceUid : Option Text
  responseJson : Option Json

structure CitationOccurrence where
  decisionDocumentId : Text
  decisionSourceUid : Text
  sourceResponseId : ℕ
  visaIndex : ℕ
  citationKey : Text
  articleNumberRaw : Option Text
  articleNumberNorm : Text
  codeNameRaw : Option Text
  codeNameNorm : Text
  canonicalQuery : Text
  legifranceUrl : Option Text
  rawTitle : Text
  extractionMethod : Text
deriving DecidableEq

/-- The columns of the unique constraint. The primary key is a text made of the three. -/
def CitationOccurrence.place (occurrence : CitationOccurrence) : Text × ℕ × Text :=
  (occurrence.decisionDocumentId, occurrence.visaIndex, occurrence.citationKey)

structure CitationResolution where
  corpus : Text
  citationKey : Text
  articleNumberNorm : Text
  codeNameNorm : Text
  canonicalQuery : Text
  occurrenceCount : ℕ
deriving DecidableEq

def CitationResolution.subject (resolution : CitationResolution) : Text × Text :=
  (resolution.corpus, resolution.citationKey)

/-- A row of the outbox, as far as the scope it names. -/
structure CitationEvent where
  corpus : Text
  table : Text
  kind : EventKind
  scopeKind : Text
  scopeKey : Text
deriving DecidableEq

structure CitationStore where
  responses : Table ApiResponse.responseId
  nextResponseId : ℕ
  occurrences : Table CitationOccurrence.place
  resolutions : Table CitationResolution.subject
  outbox : List CitationEvent

/-- The database around the run: its collation, and the corpus of a document. -/
structure CitationEnv where
  collation : Collation
  corpusOf : Text → Option Text
  runtime : CitationRuntime

def occurrenceEvent (corpus document : Text) : CitationEvent :=
  ⟨corpus, "decision_legislation_citations".toList, .upsert, "document".toList, document⟩

def resolutionEvent (corpus citationKey : Text) : CitationEvent :=
  ⟨corpus, "legislation_citation_resolutions".toList, .upsert, "citation_resolution".toList, citationKey⟩

/-- An exchange to archive. -/
structure ArchivedExchange where
  provider : Text
  endpoint : Text
  outcome : Text
  subjectDocumentId : Option Text
  subjectSourceUid : Option Text
  responseJson : Option Json
  corpus : Option Text

/-- The entries of a visa that is there, is an array and has entries. -/
def ApiResponse.visa (response : ApiResponse) : List Json :=
  match response.responseJson with
  | some (.object fields) => match Json.get fields "visa".toList with
    | some (.array items) => items
    | _ => []
  | _ => []

/-- Whether the view of the archived decisions takes the response in. -/
def ApiResponse.carriesVisa (response : ApiResponse) : Bool :=
  response.provider == "judilibre".toList && response.endpoint == "/cassation/judilibre/v1.0/decision".toList &&
    response.outcome == "ok".toList && response.subjectDocumentId.isSome && !response.visa.isEmpty

def ApiResponse.document (response : ApiResponse) : Text := response.subjectDocumentId.getD []

namespace CitationStore

variable (collation : Collation) (s : CitationStore)

def afterCursor (cursor : Option Text) (response : ApiResponse) : Bool :=
  match cursor with
  | none => true
  | some cursor => collation.lt cursor response.document

/-- `DISTINCT ON (subject_document_id)`, the highest `response_id` of each decision. -/
def latestDecisions (cursor : Option Text) : List ApiResponse :=
  let candidates := s.responses.rows.filter fun response => response.carriesVisa && afterCursor collation cursor response
  (candidates.filter fun response => candidates.all fun other =>
    decide (other.document = response.document → other.responseId ≤ response.responseId)).insertionSort
      fun a b => collation.le a.document b.document = true

/-- One page of the view, and the cursor of the next one. -/
def loadArchivedDecisionsWithVisa (afterCursor : Option Text) (limit : ℕ) : List ApiResponse × Option Text :=
  let page := (s.latestDecisions collation afterCursor).take (max limit 1)
  (page, page.getLast?.map ApiResponse.document)

end CitationStore

def titleOf : Json → Option Text
  | .object fields => match Json.get fields "title".toList with
    | some (.string title) => some title
    | _ => none
  | _ => none

def i32Max : ℕ := 2 ^ 31 - 1

/-- What is recorded for an entry of the visa of a response. -/
def occurrenceOf (runtime : CitationRuntime) (response : ApiResponse) (entry : Json × ℕ) : Option CitationOccurrence :=
  match response.subjectSourceUid, titleOf entry.1 with
  | some sourceUid, some title => (runtime.parseVisaCitation title).map fun citation =>
    { decisionDocumentId := response.document
      decisionSourceUid := sourceUid
      sourceResponseId := response.responseId
      visaIndex := min entry.2 i32Max
      citationKey := citation.citationKey
      articleNumberRaw := some citation.articleNumberRaw
      articleNumberNorm := citation.articleNumberNorm
      codeNameRaw := some citation.codeNameRaw
      codeNameNorm := citation.codeNameNorm
      canonicalQuery := citation.canonicalQuery
      legifranceUrl := citation.legifranceUrl
      rawTitle := title
      extractionMethod := citation.extractionMethod }
  | _, _ => none

def occurrencesOf (runtime : CitationRuntime) (response : ApiResponse) : List CitationOccurrence :=
  response.visa.zipIdx.filterMap (occurrenceOf runtime response)

namespace CitationStore

variable (env : CitationEnv) (s : CitationStore)

/-- `ON CONFLICT DO NOTHING`; a decision that is not in `documents` fails. -/
def insertCitationOccurrence (occurrence : CitationOccurrence) : Option CitationStore :=
  match s.occurrences.insert occurrence with
  | none => some s
  | some occurrences => (env.corpusOf occurrence.decisionDocumentId).map fun corpus =>
    { s with
      occurrences := occurrences
      outbox := s.outbox ++ [occurrenceEvent corpus occurrence.decisionDocumentId] }

def upsertCitationResolutionPending (occurrence : CitationOccurrence) : Option CitationStore :=
  (env.corpusOf occurrence.decisionDocumentId).map fun corpus =>
    match s.resolutions.insert ⟨corpus, occurrence.citationKey, occurrence.articleNumberNorm, occurrence.codeNameNorm,
      occurrence.canonicalQuery, 0⟩ with
    | none => s
    | some resolutions =>
      { s with
        resolutions := resolutions
        outbox := s.outbox ++ [resolutionEvent corpus occurrence.citationKey] }

/-- Both in one transaction. -/
def recordCitation (occurrence : CitationOccurrence) : Option CitationStore :=
  (s.insertCitationOccurrence env occurrence).bind fun s => s.upsertCitationResolutionPending env occurrence

/-- The store after the citations that went in, and whether all of them did. -/
def recordCitations : List CitationOccurrence → CitationStore → CitationStore × Bool
  | [], s => (s, true)
  | occurrence :: rest, s => match s.recordCitation env occurrence with
    | none => (s, false)
    | some s => recordCitations rest s

def collectDecisions : List ApiResponse → CitationStore → CitationStore × Bool
  | [], s => (s, true)
  | decision :: rest, s => match recordCitations env (occurrencesOf env.runtime decision) s with
    | (s, true) => collectDecisions rest s
    | (s, false) => (s, false)

def collectCitationsPageSize : ℕ := 500

/-- How many decisions the next page may have; `none` when the limit is reached. -/
def pageLimit (limit : Option ℕ) (scanned : ℕ) : Option ℕ :=
  match limit with
  | none => some collectCitationsPageSize
  | some limit =>
    let done := min scanned (2 ^ 32 - 1)
    if limit ≤ done then none else some (min (limit - done) collectCitationsPageSize)

/-- The loop over the pages; `none` when the rounds run out. -/
def collectPages (limit : Option ℕ) : ℕ → Option Text → ℕ → CitationStore → Option (CitationStore × Bool)
  | 0, _, _, _ => none
  | rounds + 1, cursor, scanned, s => match pageLimit limit scanned with
    | none => some (s, true)
    | some pageLimit => match s.loadArchivedDecisionsWithVisa env.collation cursor pageLimit with
      | ([], _) => some (s, true)
      | (decisions, nextCursor) => match collectDecisions env decisions s with
        | (s, false) => some (s, false)
        | (s, true) => match nextCursor with
          | none => some (s, true)
          | some next => collectPages limit rounds (some next) (scanned + decisions.length) s

def occurrenceCount (corpus citationKey : Text) : ℕ :=
  (s.occurrences.rows.filter fun occurrence =>
    occurrence.citationKey == citationKey && env.corpusOf occurrence.decisionDocumentId == some corpus).length

def recount (resolution : CitationResolution) : CitationResolution :=
  { resolution with occurrenceCount := s.occurrenceCount env resolution.corpus resolution.citationKey }

/-- Only rows whose count changed are updated, with an event each. -/
def finalizeCitationOccurrenceCounts : CitationStore :=
  let stale := fun resolution : CitationResolution =>
    resolution.occurrenceCount != s.occurrenceCount env resolution.corpus resolution.citationKey
  { s with
    resolutions := s.resolutions.update stale (s.recount env) (fun _ => rfl)
    outbox := s.outbox ++ (s.resolutions.rows.filter stale).map fun resolution =>
      resolutionEvent resolution.corpus resolution.citationKey }

/-- The archive only grows; an exchange without a corpus is refused. -/
def insertOfficialApiResponse (exchange : ArchivedExchange) : Option CitationStore :=
  match exchange.corpus <|> exchange.subjectDocumentId.bind env.corpusOf with
  | none => none
  | some corpus => (s.responses.insert ⟨s.nextResponseId, exchange.provider, exchange.endpoint, exchange.outcome,
      exchange.subjectDocumentId, exchange.subjectSourceUid, exchange.responseJson⟩).map fun responses =>
    { s with
      responses := responses
      nextResponseId := s.nextResponseId + 1
      outbox := s.outbox ++ [⟨corpus, "official_api_responses".toList, .upsert, "official_api_response".toList,
        padDecimal 1 s.nextResponseId⟩] }

def closeRun : CitationStore × Bool → CitationStore × Bool
  | (s, true) => (s.finalizeCitationOccurrenceCounts env, true)
  | (s, false) => (s, false)

/-- A run, and whether it was completed. -/
def collectLegislationCitations (limit : Option ℕ) : Option (CitationStore × Bool) :=
  (collectPages env limit (s.responses.rows.length + 2) none 0 s).map (closeRun env)

end CitationStore

end CorpusFeed
