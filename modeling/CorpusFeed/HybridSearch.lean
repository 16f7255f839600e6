import CorpusFeed.Collation
import CorpusFeed.FanoutSearch

/-! The ranked search of one corpus: a lexical and a dense pool fused by reciprocal
rank, grouped by chunk or by document, and paged by score and id. -/

namespace CorpusFeed

def saturatingMulU32 (a b : ℕ) : ℕ := min (a * b) u32Max

/-- A chunk with what one query sees of it: its BM25 score if the text matches, the
distance of its embedding under the query's fingerprint, and whether its document is
valid at the date and passes the kind and decision filters. -/
structure CorpusChunk where
  chunkId : Text
  documentId : Text
  lexicalScore : Option ℚ
  distance : Option ℚ
  inScope : Bool
deriving DecidableEq

/-- The weights are the literals that the SQL is built with. -/
structure SearchRequest where
  groupBy : GroupBy
  retrievalMode : RetrievalMode
  topK : ℕ
  lexicalWeight : ℚ
  denseWeight : ℚ
deriving DecidableEq

structure SearchCursor where
  group : GroupBy
  score : ℚ
  id : Text
deriving DecidableEq

/-- A candidate. Those of the structured citation resolver have no score and no cursor. -/
structure SearchRow where
  chunkId : Option Text
  documentId : Text
  lexicalRank : Option ℕ
  denseRank : Option ℕ
  score : Option ℚ
deriving DecidableEq

namespace SearchRequest

variable (request : SearchRequest)

def poolMultiplier : ℕ :=
  match request.groupBy with
  | .document => 20
  | .chunk => 4

def lexicalLimit : ℕ := saturatingMulU32 request.topK request.poolMultiplier

def denseLimit : ℕ := saturatingMulU32 request.topK request.poolMultiplier

def queryLimit : ℕ := saturatingAdd request.topK 1

end SearchRequest

def densePoolLimit (denseLimit : ℕ) : ℕ := max (saturatingMulU32 denseLimit 4) denseLimit

/-- An order that the database may give the embedded rows, nearest first. -/
structure DistanceOrder (chunks : List CorpusChunk) where
  rows : List CorpusChunk
  perm : rows.Perm (chunks.filter fun chunk => chunk.distance.isSome)
  sorted : rows.Pairwise fun a b => a.distance.getD 0 ≤ b.distance.getD 0

/-- How one query breaks the ties in distance: where it numbers the rows, and where it
cuts the pool. -/
structure TieBreak (chunks : List CorpusChunk) where
  numbering : DistanceOrder chunks
  cut : DistanceOrder chunks

section Pools

variable (collation : Collation) (request : SearchRequest) (chunks : List CorpusChunk)

def lexicalLe (a b : CorpusChunk) : Prop :=
  b.lexicalScore.getD 0 < a.lexicalScore.getD 0 ∨
    a.lexicalScore.getD 0 = b.lexicalScore.getD 0 ∧ collation.le a.chunkId b.chunkId = true

instance : DecidableRel (lexicalLe collation) := fun _ _ => inferInstanceAs (Decidable (_ ∨ _))

def lexicalPool : List CorpusChunk :=
  ((chunks.filter fun chunk => chunk.lexicalScore.isSome && chunk.inScope).insertionSort (lexicalLe collation)).take
    request.lexicalLimit

variable {chunks}

/-- The pool is cut before the filters, and the rows that pass are numbered again. Their
numbers in the pool are distinct, so the chunk id decides nothing there. -/
def densePool (ties : TieBreak chunks) : List CorpusChunk :=
  ((ties.numbering.rows.filter fun chunk => decide (chunk ∈ ties.cut.rows.take (densePoolLimit request.denseLimit))).filter
    fun chunk => chunk.inScope).take request.denseLimit

end Pools

def rankIn (pool : List CorpusChunk) (chunk : CorpusChunk) : Option ℕ := (pool.idxOf? chunk).map (· + 1)

def rankScore (weight : ℚ) : Option ℕ → ℚ
  | some rank => weight / (rrfK + (rank : ℚ))
  | none => 0

/-- The score that a query gives to a pair of ranks. -/
def fusedScore (request : SearchRequest) (lexicalRank denseRank : Option ℕ) : ℚ :=
  match request.retrievalMode with
  | .hybrid => rankScore request.lexicalWeight lexicalRank + rankScore request.denseWeight denseRank
  | .bm25 => rankScore 1 lexicalRank
  | .dense => rankScore 1 denseRank

namespace SearchRow

def id (group : GroupBy) (row : SearchRow) : Text :=
  match group with
  | .chunk => row.chunkId.getD []
  | .document => row.documentId

def cursor (group : GroupBy) (row : SearchRow) : Option SearchCursor :=
  row.score.map fun score => { group := group, score := score, id := row.id group }

def rowLe (collation : Collation) (group : GroupBy) (a b : SearchRow) : Prop :=
  b.score.getD 0 < a.score.getD 0 ∨ a.score.getD 0 = b.score.getD 0 ∧ collation.le (a.id group) (b.id group) = true

instance (collation : Collation) (group : GroupBy) : DecidableRel (rowLe collation group) :=
  fun _ _ => inferInstanceAs (Decidable (_ ∨ _))

end SearchRow

open SearchRow

/-- The cursor predicate of the grouping; a cursor of the other one has been rejected. -/
def SearchCursor.before (collation : Collation) (cursor : SearchCursor) (row : SearchRow) : Bool :=
  decide (row.score.getD 0 < cursor.score) ||
    decide (row.score.getD 0 = cursor.score) && collation.lt cursor.id (row.id cursor.group)

/-- `DISTINCT ON (document_id)` of rows that come best first. -/
def firstOfDocument : List SearchRow → List SearchRow
  | [] => []
  | row :: rows => row :: (firstOfDocument rows).filter fun other => decide (other.documentId ≠ row.documentId)

section Ranked

variable (collation : Collation) (request : SearchRequest) {chunks : List CorpusChunk}

def pooled (lexical dense : List CorpusChunk) : List CorpusChunk :=
  match request.retrievalMode with
  | .hybrid => lexical ++ dense.filter fun chunk => decide (chunk ∉ lexical)
  | .bm25 => lexical
  | .dense => dense

def rankedRow (lexical dense : List CorpusChunk) (chunk : CorpusChunk) : SearchRow :=
  let lexicalRank := if request.retrievalMode = .dense then none else rankIn lexical chunk
  let denseRank := if request.retrievalMode = .bm25 then none else rankIn dense chunk
  { chunkId := some chunk.chunkId, documentId := chunk.documentId, lexicalRank := lexicalRank, denseRank := denseRank,
    score := some (round8 (fusedScore request lexicalRank denseRank)) }

def rankedRows (ties : TieBreak chunks) : List SearchRow :=
  let lexical := lexicalPool collation request chunks
  let dense := densePool request ties
  (pooled request lexical dense).map (rankedRow request lexical dense)

/-- What is paged: the chunks, or the best chunk of each document. -/
def groupedRows (ties : TieBreak chunks) : List SearchRow :=
  let rows := rankedRows collation request ties
  match request.groupBy with
  | .chunk => rows
  | .document => firstOfDocument (rows.insertionSort (rowLe collation .chunk))

def hybridCandidates (ties : TieBreak chunks) (afterCursor : Option SearchCursor) : List SearchRow :=
  let rows := groupedRows collation request ties
  let rows := match afterCursor with
    | some cursor => rows.filter (cursor.before collation)
    | none => rows
  (rows.insertionSort (rowLe collation request.groupBy)).take request.queryLimit

/-- In hybrid mode a citation that `resolved` answers is not searched for. -/
def searchCandidates (resolved : List SearchRow) (ties : TieBreak chunks) (afterCursor : Option SearchCursor) : List SearchRow :=
  let structured := resolved.take (max request.topK 1)
  if request.retrievalMode = .hybrid ∧ structured ≠ [] then structured
  else hybridCandidates collation request ties afterCursor

end Ranked

end CorpusFeed
