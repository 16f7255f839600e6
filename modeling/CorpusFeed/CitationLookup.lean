import Mathlib.Data.List.ReduceOption
import CorpusFeed.CitationTarget
import CorpusFeed.KeyedTable
import CorpusFeed.LikePattern
import CorpusFeed.OrderKeys

/-! The lookup of a free-text article citation, the state it is answered with,
and the structured lookup that routed searches use. -/

namespace CorpusFeed

/-- A row of `documents` with the columns that the lookups read. -/
structure DocumentVersion where
  documentId : Text
  source : Text
  kind : Text
  sourceUid : Text
  citation : Option Text
  title : Option Text
  validFrom : Option Text
  validTo : Option Text
deriving DecidableEq

structure CitationMatch extends DocumentVersion where
  exactIdentifierMatch : Bool
deriving DecidableEq

inductive CitationState where
  | exact
  | normalized
  | ambiguous
  | staleVersion
  | notFound
  | sourceUnavailable
deriving DecidableEq

/-- What the database brings: its `lower` and the order of its texts. -/
structure CitationDatabase where
  lower : Char → Char
  collation : Collation

def citationLookupLimit : Nat := 25

def articleKind : Text := "article".toList

def articleLabel (articleNumber : Text) : Text := "article ".toList ++ articleNumber

namespace DocumentVersion

/-- `concat_ws(' ', citation, title)`, which skips nulls. -/
def citationLine (v : DocumentVersion) : Text := [' '].intercalate [v.citation, v.title].reduceOption

def validOn (asOf : Text) (v : DocumentVersion) : Bool :=
  v.validFrom.all (fun date => decide (date ≤ asOf)) && v.validTo.all fun date => decide (asOf < date)

end DocumentVersion

def btrim (t : Text) : Text := (t.dropWhile (· == ' ')).rdropWhile (· == ' ')

namespace CitationDatabase

variable (db : CitationDatabase)

def lowered (t : Text) : Text := t.map db.lower

def freeTextArticle (articleNumber : Text) (codeHint : Option Text) (v : DocumentVersion) : Bool :=
  v.kind == articleKind && like (anywhere (articleLabel articleNumber)) (db.lowered v.citationLine) &&
    codeHint.all fun hint => like (anywhere hint) (db.lowered v.citationLine)

/-- The order of the matches, without the keys that are the same in all rows of
`documents` under a free-text citation. -/
def matchOrder : KeyOrder DocumentVersion :=
  ((KeyOrder.text db.collation).descNullsLast.on DocumentVersion.validFrom).thenBy <|
    ((KeyOrder.text db.collation).on DocumentVersion.sourceUid).thenBy <|
    (KeyOrder.text db.collation).on DocumentVersion.documentId

def citationLookup (corpus : Table DocumentVersion.documentId) (articleNumber : Text) (codeHint : Option Text)
    (limit : Nat) : List CitationMatch :=
  ((db.matchOrder.sort (corpus.rows.filter (db.freeTextArticle articleNumber codeHint))).take (max limit 1)).map
    fun v => ⟨v, false⟩

/-- The rows of the structured lookup. Both compare dates of ten characters. -/
def structuredCitation (casing : CaseMapping) (articleNumber : Text) (codeHint : Option Text) (kindFilter : Option Text)
    (asOf : Text) (v : DocumentVersion) : Bool :=
  v.source == "legi".toList && v.kind == articleKind &&
    (v.title.any fun title => db.lowered (btrim title) == articleLabel (casing.lowercase (trim articleNumber))) &&
    ((codeHint.filter fun hint => !isBlank hint).all fun hint =>
      like (likeContains (casing.lowercase (trim hint))) (db.lowered v.citationLine)) &&
    kindFilter.all (· == v.kind) && v.validOn asOf

end CitationDatabase

def ParsedCitationTarget.isDecision : ParsedCitationTarget → Bool
  | .decisionDocumentId _ _ | .decisionSourceUid _ | .decisionEcli _ | .decisionPourvoi _ => true
  | _ => false

def ParsedCitationTarget.isMalformed : ParsedCitationTarget → Bool
  | .malformed _ => true
  | _ => false

/-- The state of a count of candidates, with the state for none and for one. -/
def stateOfCount (none one : CitationState) : Nat → CitationState
  | 0 => none
  | 1 => one
  | _ => .ambiguous

def classifyCitationState (parsed : ParsedCitationTarget) (candidates : List CitationMatch) (effectiveAsOf : Text)
    (requestedAsOf : Option Text) : CitationState :=
  if parsed.isMalformed || candidates.isEmpty then .notFound
  else
    let validMatchCount := candidates.countP fun candidate => candidate.validOn effectiveAsOf
    match parsed with
    | .documentId _ _ =>
      if candidates.any fun candidate =>
          candidate.exactIdentifierMatch && requestedAsOf.all fun asOf => candidate.validOn asOf then .exact
      else .staleVersion
    | .freeTextArticle _ _ => stateOfCount .staleVersion .normalized validMatchCount
    | .articleSourceUid _ | .textSourceUid _ | .sectionSourceUid _ | .nor _ =>
      stateOfCount .staleVersion .exact validMatchCount
    | .decisionDocumentId _ _ | .decisionSourceUid _ | .decisionEcli _ =>
      stateOfCount .notFound .exact candidates.length
    | .decisionPourvoi _ => stateOfCount .notFound .normalized candidates.length
    | .malformed _ => .notFound

def citeState (parsed : ParsedCitationTarget) (candidates : List CitationMatch) (effectiveAsOf : Text)
    (requestedAsOf : Option Text) (onlineRequested : Bool) : CitationState :=
  if onlineRequested && !parsed.isDecision && !parsed.isMalformed && candidates.isEmpty then .sourceUnavailable
  else classifyCitationState parsed candidates effectiveAsOf requestedAsOf

/-- The strict gate over an answer. -/
def enforceStrictCitation (state : CitationState) (strict : Bool) : Bool :=
  !strict || decide (state = .exact ∨ state = .normalized)

end CorpusFeed
