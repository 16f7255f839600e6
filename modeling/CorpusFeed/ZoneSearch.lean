import CorpusFeed.HybridSearch
import CorpusFeed.LikePattern

/-! The search of the official zones of decisions: the scope of the query is part of
each arm, before anything is ranked or cut, and one best unit of each decision is
paged. -/

namespace CorpusFeed

/-- What a zone query reads of a document. Dates are days. -/
structure ZoneDocument where
  documentId : Text
  kind : Text
  jurisdiction : Option Text
  formation : Option Text
  publication : Option Text
  validFrom : Option Int
  validTo : Option Int
deriving DecidableEq

/-- A unit joined with its document, with its embedding by fingerprint and distance from
the query. -/
structure ZoneUnit where
  zoneUnitId : Text
  document : ZoneDocument
  zone : Text
  embedding : Option (Text × ℚ)
deriving DecidableEq

structure DecisionFilters where
  jurisdiction : Option Text
  formation : Option Text
  publication : Option Text
  decidedFrom : Option Int
  decidedTo : Option Int
deriving DecidableEq

/-- What the database brings: its `lower`, the order of its texts, and the BM25 scores for
the text of the query. There is one index over the units of all zones, and the score of a
unit that matches depends on all that are in it. -/
structure ZoneDatabase where
  lower : Char → Char
  collation : Collation
  lexicalScore : List ZoneUnit → ZoneUnit → Option ℚ

structure ZoneQuery where
  zone : Text
  asOf : Int
  decisionFilters : DecisionFilters
  retrievalMode : RetrievalMode
  embeddingFingerprint : Text
  topK : ℕ
  lexicalWeight : ℚ
  denseWeight : ℚ
deriving DecidableEq

namespace DecisionFilters

variable (db : ZoneDatabase) (filters : DecisionFilters)

def isEmpty : Bool :=
  filters.jurisdiction.isNone && filters.formation.isNone && filters.publication.isNone &&
    filters.decidedFrom.isNone && filters.decidedTo.isNone

def ilike (pattern value : Text) : Bool := like (pattern.map db.lower) (value.map db.lower)

/-- The predicate on a row. What compares with a null is not true. -/
def predicate (document : ZoneDocument) : Bool :=
  filters.isEmpty ||
    document.kind = "decision".toList &&
      (filters.jurisdiction.all fun jurisdiction =>
        document.jurisdiction.any (ilike db (['%'] ++ jurisdiction ++ ['%']))) &&
      (filters.formation.all fun formation => document.formation.any (ilike db (['%'] ++ formation ++ ['%']))) &&
      (filters.publication.all fun publication =>
        document.publication.any fun value => value.map db.lower = publication.map db.lower) &&
      (filters.decidedFrom.all fun day => document.validFrom.any fun from' => decide (day ≤ from')) &&
      (filters.decidedTo.all fun day => document.validFrom.any fun from' => decide (from' ≤ day))

end DecisionFilters

def asOfPredicate (asOf : Int) (document : ZoneDocument) : Bool :=
  (document.validFrom.all fun day => decide (day ≤ asOf)) && document.validTo.all fun day => decide (asOf < day)

def ZoneUnit.distance (fingerprint : Text) (unit : ZoneUnit) : Option ℚ :=
  unit.embedding.bind fun embedding => if embedding.1 = fingerprint then some embedding.2 else none

namespace ZoneQuery

variable (db : ZoneDatabase) (query : ZoneQuery)

def inScope (unit : ZoneUnit) : Bool :=
  unit.zone = query.zone && (query.decisionFilters.predicate db unit.document && asOfPredicate query.asOf unit.document)

def lexicalLimit : ℕ := saturatingMulU32 query.topK 20

def denseLimit : ℕ := saturatingMulU32 query.topK 20

def limit : ℕ := saturatingAdd query.topK 1

def densePoolLimit : ℕ := max (saturatingMulU32 (max query.denseLimit 1) 4) 1

def matching (units : List ZoneUnit) (unit : ZoneUnit) : Bool :=
  (db.lexicalScore units unit).isSome && query.inScope db unit

def embedded (unit : ZoneUnit) : Bool := (unit.distance query.embeddingFingerprint).isSome && query.inScope db unit

/-- An order that the database may give the embedded units in scope, nearest first. -/
structure Scan (units : List ZoneUnit) where
  rows : List ZoneUnit
  perm : rows.Perm (units.filter (query.embedded db))
  sorted : rows.Pairwise fun a b =>
    (a.distance query.embeddingFingerprint).getD 0 ≤ (b.distance query.embeddingFingerprint).getD 0

/-- How one query breaks the ties in distance: where it cuts the pool, and where it
numbers the rows. -/
structure Ties (units : List ZoneUnit) where
  cut : Scan db query units
  numbering : Scan db query units

def unitLe (units : List ZoneUnit) (a b : ZoneUnit) : Prop :=
  (db.lexicalScore units b).getD 0 < (db.lexicalScore units a).getD 0 ∨
    (db.lexicalScore units a).getD 0 = (db.lexicalScore units b).getD 0 ∧
      db.collation.le a.zoneUnitId b.zoneUnitId = true

instance (units : List ZoneUnit) : DecidableRel (unitLe db units) := fun _ _ => inferInstanceAs (Decidable (_ ∨ _))

def lexical (units : List ZoneUnit) : List ZoneUnit :=
  ((units.filter (query.matching db units)).insertionSort (unitLe db units)).take (max query.lexicalLimit 1)

variable {units : List ZoneUnit}

def densePool (ties : Ties db query units) : List ZoneUnit :=
  (ties.numbering.rows.filter fun unit => decide (unit ∈ ties.cut.rows.take query.densePoolLimit)).take
    query.densePoolLimit

def dense (ties : Ties db query units) : List ZoneUnit := (query.densePool db ties).take (max query.denseLimit 1)

def unitRank (arm : List ZoneUnit) (unit : ZoneUnit) : Option ℕ := (arm.idxOf? unit).map (· + 1)

def fused (lexicalRank denseRank : Option ℕ) : ℚ :=
  match query.retrievalMode with
  | .bm25 => rankScore 1 lexicalRank
  | .dense => rankScore 1 denseRank
  | .hybrid => rankScore query.lexicalWeight lexicalRank + rankScore query.denseWeight denseRank

def rankedUnits (lexical dense : List ZoneUnit) : List ZoneUnit :=
  match query.retrievalMode with
  | .bm25 => lexical
  | .dense => dense
  | .hybrid => lexical ++ dense.filter fun unit => decide (unit ∉ lexical)

/-- A row of `scored`. The best unit stands in the place of the best chunk. -/
def scoredRow (lexical dense : List ZoneUnit) (unit : ZoneUnit) : SearchRow :=
  let lexicalRank := if query.retrievalMode = .dense then none else unitRank lexical unit
  let denseRank := if query.retrievalMode = .bm25 then none else unitRank dense unit
  { chunkId := some unit.zoneUnitId, documentId := unit.document.documentId, lexicalRank := lexicalRank,
    denseRank := denseRank, score := some (round8 (query.fused lexicalRank denseRank)) }

def scored (ties : Ties db query units) : List SearchRow :=
  let lexical := query.lexical db units
  let dense := query.dense db ties
  (query.rankedUnits lexical dense).map (query.scoredRow lexical dense)

def bestDocument (ties : Ties db query units) : List SearchRow :=
  firstOfDocument ((query.scored db ties).insertionSort (SearchRow.rowLe db.collation .chunk))

def zoneCandidates (ties : Ties db query units) (afterCursor : Option SearchCursor) : List SearchRow :=
  let rows := match afterCursor with
    | some cursor => (query.bestDocument db ties).filter (cursor.before db.collation)
    | none => query.bestDocument db ties
  (rows.insertionSort (SearchRow.rowLe db.collation .document)).take query.limit

/-- What the query past a cursor may find. -/
def answer (units : List ZoneUnit) (cursor : Option SearchCursor) (found : List SearchRow) : Prop :=
  ∃ ties : Ties db query units, found = query.zoneCandidates db ties cursor

end ZoneQuery

end CorpusFeed
