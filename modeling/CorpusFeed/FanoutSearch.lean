import CorpusFeed.CursorPages
import CorpusFeed.SnapshotRead
import Mathlib.Data.Char
import Mathlib.Data.List.Lex
import Mathlib.Data.List.Sort
import Mathlib.Data.Prod.Lex
import Mathlib.Data.Rat.Floor

/-! The search over several corpora: every active corpus ranks its own candidates,
and the arms are fused by the reciprocal of the rank in the arm. -/

namespace CorpusFeed

def rrfK : ℚ := 60

def u32Max : ℕ := 2 ^ 32 - 1

def saturatingAdd (a b : ℕ) : ℕ := min (a + b) u32Max

/-- To eight decimals. Scores are positive, so halves go up. -/
def round8 (value : ℚ) : ℚ := (⌊value * 10 ^ 8 + 1 / 2⌋ : ℚ) / 10 ^ 8

inductive GroupBy where
  | chunk
  | document
deriving DecidableEq

inductive RetrievalMode where
  | hybrid
  | bm25
  | dense
deriving DecidableEq

def RetrievalMode.usesDense : RetrievalMode → Bool
  | .hybrid | .dense => true
  | .bm25 => false

/-- A candidate as the SQL of one corpus lists it, both ids always set. -/
structure ArmCandidate where
  chunkId : Text
  documentId : Text
  rrf : ℚ
deriving DecidableEq

def ArmCandidate.candidateId (group : GroupBy) (candidate : ArmCandidate) : Text :=
  match group with
  | .chunk => candidate.chunkId
  | .document => candidate.documentId

structure FusedCandidate where
  corpus : Text
  id : Text
  cross : ℚ
  candidate : ArmCandidate
deriving DecidableEq

/-- The four fields of `mc:<group>:<cross_score>:<corpus>:<id>`. -/
structure MultiCorpusCursor where
  group : GroupBy
  score : ℚ
  corpus : Text
  id : Text
deriving DecidableEq

structure FanoutRow where
  candidate : ArmCandidate
  rrf : ℚ
  localRrf : ℚ
  corpus : Text
  cursor : MultiCorpusCursor
deriving DecidableEq

def FanoutRow.nextCursor (row : FanoutRow) : Option MultiCorpusCursor := some row.cursor

structure FanoutQuery where
  groupBy : GroupBy
  retrievalMode : RetrievalMode
  embeddingFingerprint : Option Text
  afterCursor : Option MultiCorpusCursor
  limit : ℕ
deriving DecidableEq

inductive FanoutError where
  | fingerprintMismatch (corpus fingerprint : Text) (query : Option Text)
deriving DecidableEq

namespace FusedCandidate

/-- What ties in the score are broken by. -/
def place (candidate : FusedCandidate) : Text ×ₗ Text := toLex (candidate.corpus, candidate.id)

def fusedLe (a b : FusedCandidate) : Prop := b.cross < a.cross ∨ a.cross = b.cross ∧ a.place ≤ b.place

def fusedLt (a b : FusedCandidate) : Prop := b.cross < a.cross ∨ a.cross = b.cross ∧ a.place < b.place

instance : DecidableRel fusedLe := fun _ _ => inferInstanceAs (Decidable (_ ∨ _))

instance : DecidableRel fusedLt := fun _ _ => inferInstanceAs (Decidable (_ ∨ _))

def cursor (group : GroupBy) (candidate : FusedCandidate) : MultiCorpusCursor :=
  { group := group, score := round8 candidate.cross, corpus := candidate.corpus, id := candidate.id }

def intoResponseValue (group : GroupBy) (candidate : FusedCandidate) : FanoutRow :=
  { candidate := candidate.candidate, rrf := round8 candidate.cross, localRrf := candidate.candidate.rrf,
    corpus := candidate.corpus, cursor := candidate.cursor group }

end FusedCandidate

open FusedCandidate

def impliedRank (score : ℚ) : ℕ :=
  if score ≤ 0 then 0
  else if 0 < 1 / score - rrfK then min ⌈1 / score - rrfK⌉.toNat u32Max
  else 0

def MultiCorpusCursor.precedes (cursor : MultiCorpusCursor) (candidate : FusedCandidate) : Bool :=
  if round8 cursor.score < round8 candidate.cross then false
  else if round8 candidate.cross < round8 cursor.score then true
  else decide (toLex (cursor.corpus, cursor.id) < candidate.place)

/-- How many rows of each arm are fetched for a page. -/
def fetchDepth (page : ℕ) : Option MultiCorpusCursor → ℕ
  | some cursor => saturatingAdd (saturatingAdd (impliedRank cursor.score) page) 1
  | none => saturatingAdd page 1

def armFused (group : GroupBy) (corpus : ActiveCorpus) (candidates : List ArmCandidate) : List FusedCandidate :=
  candidates.zipIdx.map fun (candidate, index) =>
    { corpus := corpus.corpus.name, id := candidate.candidateId group, cross := 1 / (rrfK + (index + 1 : ℕ)), candidate := candidate }

/-- `ranked` is what the SQL of each corpus lists without a cursor, best first. -/
def hybridCandidatesFanout (ranked : ActiveCorpus → List ArmCandidate) (corpora : List ActiveCorpus)
    (query : FanoutQuery) : Except FanoutError (List FanoutRow) :=
  let mismatch := if query.retrievalMode.usesDense then
    corpora.find? fun corpus => query.embeddingFingerprint != some corpus.fingerprint else none
  match mismatch with
  | some corpus => .error (.fingerprintMismatch corpus.corpus.name corpus.fingerprint query.embeddingFingerprint)
  | none =>
    let page := max query.limit 1
    let depth := fetchDepth page query.afterCursor
    let fused := corpora.flatMap fun corpus => armFused query.groupBy corpus ((ranked corpus).take depth)
    let fused := fused.insertionSort fusedLe
    let fused := match query.afterCursor with
      | some cursor => fused.filter cursor.precedes
      | none => fused
    .ok ((fused.take page).map (intoResponseValue query.groupBy))

end CorpusFeed
