import CorpusFeed.DocumentProjection
import CorpusFeed.SeparatedText
import CorpusFeed.SnapshotRead

/-! The readiness stamp of a client: the writer measures the coverage of every
active generation and stores it with a signature of the topology, and a read
request compares that signature with its own. -/

namespace CorpusFeed

structure CoverageMetric where
  covered : Nat
  total : Nat
deriving DecidableEq

def coverageIsComplete (metric : CoverageMetric) : Bool := 0 < metric.total && metric.covered == metric.total

structure ReadinessReport where
  projectionCoverage : CoverageMetric
  embeddingCoverage : CoverageMetric
deriving DecidableEq

structure CachedReadiness where
  signature : Text
  report : ReadinessReport
deriving DecidableEq

/-- The stamp's row as a reader finds it: absent, malformed or parsed. -/
abbrev StampRow := Option (Except String CachedReadiness)

variable {α V : Type*}

def CoverageMetric.add (a b : CoverageMetric) : CoverageMetric := ⟨a.covered + b.covered, a.total + b.total⟩

def ReadinessReport.add (a b : ReadinessReport) : ReadinessReport :=
  ⟨a.projectionCoverage.add b.projectionCoverage, a.embeddingCoverage.add b.embeddingCoverage⟩

namespace ProjectionStore

def isProjected (store : ProjectionStore V) (document : DocumentRow) : Bool :=
  store.chunks.rows.any fun row => row.chunk.documentId == document.documentId

def isEmbedded (store : ProjectionStore V) (fingerprint : Text) (row : ChunkRow) : Bool :=
  row.embeddingFingerprint == some fingerprint &&
    (store.chunkEmbeddings.find? row.id).any fun embedding => embedding.embeddingFingerprint == fingerprint

def generationCoverage (store : ProjectionStore V) (activeFingerprint : Text) : ReadinessReport where
  projectionCoverage := ⟨store.documents.rows.countP store.isProjected, store.documents.rows.length⟩
  embeddingCoverage := ⟨store.chunks.rows.countP (store.isEmbedded activeFingerprint), store.chunks.rows.length⟩

/-- Every document has a chunk, and every chunk a vector of the fingerprint. -/
structure FullyCovered (store : ProjectionStore V) (fingerprint : Text) : Prop where
  projected : ∀ document ∈ store.documents, ∃ row ∈ store.chunks, row.chunk.documentId = document.documentId
  embedded : ∀ row ∈ store.chunks, row.embeddingFingerprint = some fingerprint ∧
    ∃ embedding ∈ store.chunkEmbeddings, embedding.chunkId = row.id ∧ embedding.embeddingFingerprint = fingerprint

end ProjectionStore

def signatureEntry (corpus generation : Text) (sequence : Int) : Text :=
  corpus ++ ":".toList ++ generation ++ ":".toList ++ intText sequence

/-- The rows of `corpus_state`, in the order of the database. -/
def orderedCursors (collation : Collation) (db : Database α) : List CorpusState :=
  db.cursors.rows.insertionSort fun a b => collation.le a.corpus.name b.corpus.name = true

/-- The aggregate of no rows is null, and stands as `public`. -/
def activeReadSignature (collation : Collation) (db : Database α) : Text :=
  match orderedCursors collation db with
  | [] => "public".toList
  | cursors => List.intercalate ",".toList (cursors.map fun cursor =>
      signatureEntry cursor.corpus.name cursor.activeGeneration cursor.sequence)

/-- The signature of a snapshot, from the corpora that it resolved. -/
def snapshotSignature (corpora : List ActiveCorpus) : Text :=
  List.intercalate ",".toList (corpora.map fun corpus =>
    signatureEntry corpus.corpus.name corpus.generation corpus.sequence)

def loadQueryReadinessInSnapshot (corpora : List ActiveCorpus) (stamp : StampRow) :
    Except StorageError ReadinessReport :=
  let signature := snapshotSignature corpora
  if corpora.length = 0 then .error (.ingestAccounting "no active corpus installed; index unavailable")
  else match stamp with
  | none => .error (.ingestAccounting
      s!"query readiness was never stamped for the active topology `{String.ofList signature}` (writer/apply fault)")
  | some (.error message) => .error (.ingestAccounting s!"malformed query_readiness stamp: {message}")
  | some (.ok cached) =>
    if cached.signature ≠ signature then .error (.ingestAccounting
      s!"stale query readiness stamp: stamped for `{String.ofList cached.signature}` but the active topology is `{String.ofList signature}` (writer/apply fault — the topology changed without restamping)")
    else .ok cached.report

section Stamp

variable (tables : α → ProjectionStore V) (collation : Collation)

/-- The just applied generation may not be empty, the other ones may. -/
def metricOk (justApplied : Bool) (metric : CoverageMetric) : Bool :=
  if justApplied then coverageIsComplete metric else metric.covered == metric.total

/-- The coverage of the remaining cursors, added to the report so far. -/
def aggregateCoverage (db : Database α) (generation : Text) :
    List CorpusState → ReadinessReport → Except StorageError ReadinessReport
  | [], report => .ok report
  | cursor :: rest, report =>
    let schema := String.ofList (schemaForGeneration cursor.activeGeneration)
    match db.schemas.find? (schemaIdentifier cursor.activeGeneration) with
    | none => .error (.postgresClient "relation does not exist")
    | some (_, rows) =>
      let found := (tables rows).generationCoverage cursor.embeddingFingerprint
      let justApplied := decide (cursor.activeGeneration = generation)
      if metricOk justApplied found.projectionCoverage = false then .error (.ingestAccounting
        s!"incomplete projection coverage for `{schema}` ({found.projectionCoverage.covered} / {found.projectionCoverage.total}); generation not query-ready")
      else if metricOk justApplied found.embeddingCoverage = false then .error (.ingestAccounting
        s!"incomplete dense coverage for `{schema}` ({found.embeddingCoverage.covered} / {found.embeddingCoverage.total}); generation not query-ready")
      else aggregateCoverage db generation rest (report.add found)

/-- The value that the stamp stores for the database of its transaction. -/
def stampQueryReadiness (db : Database α) (generation : Text) : Except StorageError CachedReadiness :=
  let signature := activeReadSignature collation db
  if db.cursors.rows.all fun cursor => cursor.activeGeneration ≠ generation then .error (.ingestAccounting
    s!"stamp_query_readiness: no active corpus_state row for generation `{String.ofList generation}`")
  else match aggregateCoverage tables db generation (orderedCursors collation db) ⟨⟨0, 0⟩, ⟨0, 0⟩⟩ with
  | .error e => .error e
  | .ok report => .ok ⟨signature, report⟩

end Stamp

namespace ProjectionStore

variable {store : ProjectionStore V} {fingerprint : Text}

theorem isProjected_iff {document : DocumentRow} :
    store.isProjected document = true ↔ ∃ row ∈ store.chunks, row.chunk.documentId = document.documentId := by
  simp [isProjected, Table.mem_rows]

theorem isEmbedded_iff {row : ChunkRow} : store.isEmbedded fingerprint row = true ↔
    row.embeddingFingerprint = some fingerprint ∧ ∃ embedding ∈ store.chunkEmbeddings,
      embedding.chunkId = row.id ∧ embedding.embeddingFingerprint = fingerprint := by
  simp only [isEmbedded, Bool.and_eq_true, beq_iff_eq, Option.any_eq_true, Table.find?_eq_some, and_assoc]

/-- The two metrics of a generation are both at their total exactly when it is
fully covered. -/
theorem fullyCovered_iff : store.FullyCovered fingerprint ↔
    (store.generationCoverage fingerprint).projectionCoverage.covered =
        (store.generationCoverage fingerprint).projectionCoverage.total ∧
      (store.generationCoverage fingerprint).embeddingCoverage.covered =
        (store.generationCoverage fingerprint).embeddingCoverage.total := by
  simp only [generationCoverage, List.countP_eq_length, isProjected_iff, isEmbedded_iff, Table.mem_rows]
  exact ⟨fun h => ⟨h.projected, h.embedded⟩, fun h => ⟨h.1, h.2⟩⟩

end ProjectionStore

theorem covered_of_metricOk {justApplied : Bool} {metric : CoverageMetric} (h : metricOk justApplied metric = true) :
    metric.covered = metric.total := by
  cases justApplied with
  | true =>
    simp only [metricOk, coverageIsComplete, if_true, Bool.and_eq_true, beq_iff_eq] at h
    exact h.2
  | false => simpa [metricOk] using h

/-- The schema of a cursor's generation exists and is fully covered under the
cursor's own fingerprint. -/
def CursorCovered (tables : α → ProjectionStore V) (db : Database α) (cursor : CorpusState) : Prop :=
  ∃ schema, db.schemas.find? (schemaIdentifier cursor.activeGeneration) = some schema ∧
    (tables schema.2).FullyCovered cursor.embeddingFingerprint

theorem aggregateCoverage_covers {tables : α → ProjectionStore V} {db : Database α} {generation : Text}
    {cursors : List CorpusState} {before report : ReadinessReport}
    (h : aggregateCoverage tables db generation cursors before = .ok report) :
    ∀ cursor ∈ cursors, CursorCovered tables db cursor := by
  induction cursors generalizing before with
  | nil => simp
  | cons cursor rest ih =>
    unfold aggregateCoverage at h
    dsimp only at h
    split at h
    · cases h
    next identifier rows hfind =>
    split at h
    · cases h
    next hprojection =>
    split at h
    · cases h
    next hembedding =>
    have hp := covered_of_metricOk (Bool.not_eq_false _ ▸ hprojection)
    have he := covered_of_metricOk (Bool.not_eq_false _ ▸ hembedding)
    intro other ho
    rcases List.mem_cons.mp ho with rfl | ho
    · exact ⟨_, hfind, ProjectionStore.fullyCovered_iff.mpr ⟨hp, he⟩⟩
    · exact ih h other ho

theorem mem_orderedCursors {collation : Collation} {db : Database α} {cursor : CorpusState} :
    cursor ∈ orderedCursors collation db ↔ cursor ∈ db.cursors := List.mem_insertionSort _

/-- A stamp carries the signature of the database it was taken on, where every
active corpus is fully covered. -/
theorem stampQueryReadiness_cases {tables : α → ProjectionStore V} {collation : Collation} {db : Database α}
    {generation : Text} {stamp : CachedReadiness} (h : stampQueryReadiness tables collation db generation = .ok stamp) :
    stamp.signature = activeReadSignature collation db ∧ (∃ cursor ∈ db.cursors, cursor.activeGeneration = generation) ∧
      ∀ cursor ∈ db.cursors, CursorCovered tables db cursor := by
  unfold stampQueryReadiness at h
  dsimp only at h
  split at h
  · cases h
  next hactive =>
  split at h
  · cases h
  next report hreport =>
  cases h
  refine ⟨rfl, ?_, fun cursor hc => aggregateCoverage_covers hreport cursor (mem_orderedCursors.mpr hc)⟩
  simpa [Table.mem_rows] using hactive

/-- The two signatures of one state differ only when nothing is installed. -/
theorem activeReadSignature_eq {collation : Collation} {db : Database α} (h : db.cursors.rows ≠ []) :
    activeReadSignature collation db = snapshotSignature (resolveActiveCorpora collation db) := by
  obtain ⟨cursor, hc⟩ := List.exists_mem_of_ne_nil _ h
  have hc : cursor ∈ orderedCursors collation db := mem_orderedCursors.mpr hc
  unfold activeReadSignature snapshotSignature resolveActiveCorpora
  split
  · next hnil => simp [hnil] at hc
  · rw [List.map_map]
    rfl

end CorpusFeed
