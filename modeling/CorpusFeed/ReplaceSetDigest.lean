import CorpusFeed.Collation
import CorpusFeed.JsonText
import CorpusFeed.KeyedTable
import CorpusFeed.TimestampText
import Mathlib.Data.List.Sort

/-! The digest of a replace-set: the rows of one document, read as JSON objects
by a database session, and hashed as one JSON text. The builder signs the digest
of its own rows, and the applier compares it with that of the rows it stored. -/

namespace CorpusFeed

inductive ColumnType where
  | text
  | integer
  | boolean
  | jsonb
  | vector
  | timestamptz
deriving DecidableEq

structure Column where
  name : Text
  type : ColumnType
  nullable : Bool

/-- A `jsonb` value is the value its text is read as, a `vector` is its rendering. -/
inductive Cell where
  | null
  | text (t : Text)
  | integer (n : Int)
  | boolean (b : Bool)
  | jsonb (value : Json)
  | vector (rendering : Text)
  | timestamptz (t : Timestamptz)

def Column.accepts (column : Column) : Cell → Bool
  | .null => column.nullable
  | .text _ => column.type = .text
  | .integer _ => column.type = .integer
  | .boolean _ => column.type = .boolean
  | .jsonb _ => column.type = .jsonb
  | .vector _ => column.type = .vector
  | .timestamptz _ => column.type = .timestamptz

inductive PayloadTable where
  | chunks
  | chunkEmbeddings
  | zoneUnits
  | zoneUnitEmbeddings
  | decisionZones
deriving DecidableEq

inductive ReplaceSetGroup where
  | zoneUnits
  | chunksWithEmbeddings
  | chunkEmbeddings
  | decisionZones

def groupPayloadTables : ReplaceSetGroup → List PayloadTable
  | .zoneUnits => [.zoneUnits, .zoneUnitEmbeddings]
  | .chunksWithEmbeddings => [.chunks, .chunkEmbeddings]
  | .chunkEmbeddings => [.chunkEmbeddings]
  | .decisionZones => [.decisionZones]

def required (name : String) (type : ColumnType) : Column := ⟨name.toList, type, false⟩

def optional (name : String) (type : ColumnType) : Column := ⟨name.toList, type, true⟩

namespace PayloadTable

def name : PayloadTable → Text
  | chunks => "chunks".toList
  | chunkEmbeddings => "chunk_embeddings".toList
  | zoneUnits => "zone_units".toList
  | zoneUnitEmbeddings => "zone_unit_embeddings".toList
  | decisionZones => "decision_zones".toList

def embeddingColumns (parent : String) : List Column :=
  [required parent .text, required "embedding_fingerprint" .text, required "embedding" .vector,
    required "model" .text, required "dimension" .integer, required "created_at" .timestamptz]

/-- `replicated_table_columns`: every column that is not generated. -/
def columns : PayloadTable → List Column
  | chunks =>
    [required "chunk_id" .text, required "document_id" .text, required "chunk_index" .integer,
      required "body" .text, required "chunk_kind" .text, required "source_fields" .jsonb,
      required "source_payload_hash" .text, required "chunk_builder_version" .text,
      optional "embedding_fingerprint" .text, required "created_at" .timestamptz,
      required "contextualized_body" .text, required "chunking" .text, required "boundary" .text,
      required "hierarchy_path" .jsonb]
  | chunkEmbeddings => embeddingColumns "chunk_id"
  | zoneUnits =>
    [required "zone_unit_id" .text, required "document_id" .text, required "zone" .text,
      required "fragment_index" .integer, required "body" .text, required "search_body" .text,
      required "provider" .text, required "zone_accurate" .boolean, required "source" .text,
      required "text_hash" .text, required "zone_unit_builder_version" .text,
      required "zone_schema_version" .text, optional "embedding_fingerprint" .text,
      required "created_at" .timestamptz]
  | zoneUnitEmbeddings => embeddingColumns "zone_unit_id"
  | decisionZones =>
    [required "document_id" .text, required "provider" .text, optional "provider_decision_id" .text,
      required "source_uid" .text, optional "ecli" .text, required "status" .text,
      required "fetched_at" .timestamptz, optional "expires_at" .timestamptz,
      optional "upstream_update_date" .text, optional "upstream_decision_date" .text,
      optional "text_hash" .text, optional "offset_unit" .text, required "zones_json" .jsonb,
      required "raw_json" .jsonb, optional "error" .text, required "zone_schema_version" .text]

def primaryKey : PayloadTable → Text
  | chunks => "chunk_id".toList
  | chunkEmbeddings => "chunk_id".toList
  | zoneUnits => "zone_unit_id".toList
  | zoneUnitEmbeddings => "zone_unit_id".toList
  | decisionZones => "document_id".toList

end PayloadTable

/-- A stored row has one value of the right type for each column. -/
structure StoredRow (table : PayloadTable) where
  cells : List Cell
  typed : List.Forall₂ (fun column cell => Column.accepts column cell = true) table.columns cells

namespace StoredRow

variable {table : PayloadTable}

def named (row : StoredRow table) : List (Text × Cell) := (table.columns.map Column.name).zip row.cells

def text (row : StoredRow table) (name : Text) : Text :=
  match row.named.lookup name with
  | some (.text t) => t
  | _ => []

def pk (row : StoredRow table) : Text := row.text table.primaryKey

def documentId (row : StoredRow table) : Text := row.text "document_id".toList

theorem named_map_snd (row : StoredRow table) : row.named.map Prod.snd = row.cells := by
  have hlength : row.cells.length ≤ (table.columns.map Column.name).length := by
    rw [List.length_map, row.typed.length_eq]
  exact List.map_snd_zip hlength

end StoredRow

/-- One schema of a database: the producer's `public` or a client generation. -/
structure PayloadSchema where
  rows : (table : PayloadTable) → Table (StoredRow.pk : StoredRow table → Text)

namespace PayloadSchema

variable (schema : PayloadSchema)

/-- Whether the row of `parent` that `pk` names belongs to the document. -/
def parentInScope (parent : PayloadTable) (documentId pk : Text) : Bool :=
  (schema.rows parent).rows.any fun row => row.documentId == documentId && row.pk == pk

def inScope (documentId : Text) : (table : PayloadTable) → StoredRow table → Bool
  | .chunks, row => row.documentId == documentId
  | .chunkEmbeddings, row => schema.parentInScope .chunks documentId row.pk
  | .zoneUnits, row => row.documentId == documentId
  | .zoneUnitEmbeddings, row => schema.parentInScope .zoneUnits documentId row.pk
  | .decisionZones, row => row.documentId == documentId

/-- The rows of `replace_set_table_select`, in the order of the primary key. -/
def scopeRows (collation : Collation) (documentId : Text) (table : PayloadTable) : List (StoredRow table) :=
  ((schema.rows table).rows.filter (schema.inScope documentId table)).insertionSort
    fun a b => collation.le a.pk b.pk = true

end PayloadSchema

namespace Session

variable (s : Session)

def cellJson : Cell → Json
  | .null => .null
  | .text t => .string t
  | .integer n => .number (numberOfInt n)
  | .boolean b => .bool b
  | .jsonb value => value
  | .vector rendering => .string rendering
  | .timestamptz t => .string (s.timestampText t)

/-- `jsonb_build_object` over the columns. The keys of a read object are sorted. -/
def rowObject {table : PayloadTable} (row : StoredRow table) : Json :=
  .object ((row.named.insertionSort fun a b => a.1 ≤ b.1).map fun entry => (entry.1, s.cellJson entry.2))

def replaceSetRows (collation : Collation) (schema : PayloadSchema) (group : ReplaceSetGroup) (documentId : Text) :
    List (Text × List Json) :=
  ((groupPayloadTables group).map fun table =>
    (table.name, (schema.scopeRows collation documentId table).map s.rowObject)).insertionSort fun a b => a.1 ≤ b.1

end Session

/-- The text that the digest of a set is taken of. -/
def setText (rows : List (Text × List Json)) : Text :=
  Json.print (.object (rows.map fun entry => (entry.1, .array entry.2)))

def setDigestOverRows (digestBytes : Text → Text) (rows : List (Text × List Json)) : Text := digestBytes (setText rows)

theorem setText_injective : Function.Injective setText := by
  intro rows rows' h
  have hfields := Json.object.inj (Json.print_injective h)
  refine List.map_injective_iff.mpr ?_ hfields
  rintro ⟨table, items⟩ ⟨table', items'⟩ hentry
  simpa using hentry

namespace PayloadSchema

variable {collation : Collation} {schema schema' : PayloadSchema} {documentId : Text} {table : PayloadTable}

theorem scopeRows_nodup : (schema.scopeRows collation documentId table).Nodup :=
  ((List.perm_insertionSort _ _).nodup_iff).mpr ((List.Nodup.of_map _ (schema.rows table).nodup).filter _)

theorem scopeRows_sorted : (schema.scopeRows collation documentId table).Pairwise
    fun a b => collation.le a.pk b.pk = true := by
  have htotal : Std.Total fun a b : StoredRow table => collation.le a.pk b.pk = true := ⟨fun a b => collation.total _ _⟩
  have htrans : IsTrans (StoredRow table) fun a b => collation.le a.pk b.pk = true :=
    ⟨fun a b c => collation.trans _ _ _⟩
  exact List.pairwise_insertionSort _ _

theorem mem_scopeRows {row : StoredRow table} (h : row ∈ schema.scopeRows collation documentId table) :
    row ∈ schema.rows table := (List.mem_filter.mp ((List.mem_insertionSort _).mp h)).1

theorem scopeRows_congr (h : ∀ row, row ∈ schema.scopeRows collation documentId table ↔
    row ∈ schema'.scopeRows collation documentId table) :
    schema.scopeRows collation documentId table = schema'.scopeRows collation documentId table := by
  refine List.Perm.eq_of_pairwise ?_ scopeRows_sorted scopeRows_sorted
    ((List.perm_ext_iff_of_nodup scopeRows_nodup scopeRows_nodup).mpr h)
  intro a b ha hb hab hba
  exact Table.eq_of_key_eq (mem_scopeRows ((h a).mp ha)) (mem_scopeRows hb) (collation.antisymm _ _ hab hba)

/-- The second schema holds the same rows of the scope as the first. -/
def SameScope (collation : Collation) (schema schema' : PayloadSchema) (group : ReplaceSetGroup) (documentId : Text) :
    Prop :=
  ∀ table ∈ groupPayloadTables group, ∀ row, row ∈ schema.scopeRows collation documentId table ↔
    row ∈ schema'.scopeRows collation documentId table

end PayloadSchema

namespace Session

variable {s t : Session}

/-- Both sessions are at one offset from UTC at the instants of the cells. -/
def SameOffsets (s t : Session) (cells : List Cell) : Prop :=
  ∀ micros, Cell.timestamptz (.finite micros) ∈ cells → s.utcOffset (secondsOf micros) = t.utcOffset (secondsOf micros)

theorem cellJson_eq_iff {cell : Cell} : s.cellJson cell = t.cellJson cell ↔ s.SameOffsets t [cell] := by
  cases cell with
  | timestamptz value =>
    cases value with
    | finite micros =>
      have htext : s.cellJson (.timestamptz (.finite micros)) = t.cellJson (.timestamptz (.finite micros)) ↔
          s.finiteText micros = t.finiteText micros := ⟨fun h => Json.string.inj h, fun h => congrArg Json.string h⟩
      rw [htext, finiteText_eq_iff]
      simp [SameOffsets]
    | infinity => exact ⟨fun _ micros hmem => by simp at hmem, fun _ => rfl⟩
    | negInfinity => exact ⟨fun _ micros hmem => by simp at hmem, fun _ => rfl⟩
  | _ => simp [SameOffsets, cellJson]

theorem rowObject_eq_iff {table : PayloadTable} {row : StoredRow table} :
    s.rowObject row = t.rowObject row ↔ s.SameOffsets t row.cells := by
  simp only [rowObject, Json.object.injEq, List.map_inj_left, List.mem_insertionSort, Prod.mk.injEq, true_and,
    cellJson_eq_iff]
  rw [← row.named_map_snd]
  constructor
  · intro h micros hmem
    obtain ⟨entry, he, hcell⟩ := List.mem_map.mp hmem
    exact h entry he micros (by simp [hcell])
  · intro h entry he micros hmem
    exact h micros (List.mem_singleton.mp hmem ▸ List.mem_map_of_mem he)

theorem replaceSetRows_eq {collation : Collation} {schema : PayloadSchema} {group : ReplaceSetGroup} {documentId : Text} :
    s.replaceSetRows collation schema group documentId =
      ((groupPayloadTables group).insertionSort fun a b => a.name ≤ b.name).map fun table =>
        (table.name, (schema.scopeRows collation documentId table).map s.rowObject) :=
  (List.map_insertionSort (fun a b : PayloadTable => a.name ≤ b.name) (fun a b : Text × List Json => a.1 ≤ b.1) _ _
    fun _ _ _ _ => Iff.rfl).symm

end Session

open PayloadSchema Session

/-- Rows of one scope have one text in both sessions if and only if the sessions
are at one offset from UTC at every timestamp of the rows. -/
theorem setText_eq_iff {collation : Collation} {producer client : PayloadSchema} {group : ReplaceSetGroup}
    {documentId : Text} {s t : Session} (hrows : SameScope collation producer client group documentId) :
    setText (s.replaceSetRows collation client group documentId) =
        setText (t.replaceSetRows collation producer group documentId) ↔
      ∀ table ∈ groupPayloadTables group, ∀ row ∈ producer.scopeRows collation documentId table,
        s.SameOffsets t row.cells := by
  rw [setText_injective.eq_iff, replaceSetRows_eq, replaceSetRows_eq, List.map_inj_left]
  simp only [List.mem_insertionSort, Prod.mk.injEq, true_and]
  refine forall₂_congr fun table ht => ?_
  have hscope : client.scopeRows collation documentId table = producer.scopeRows collation documentId table :=
    (scopeRows_congr (hrows table ht)).symm
  simp only [hscope, List.map_inj_left, rowObject_eq_iff]

/-- For a client generation with the packaged rows, the digest that is computed
when the set is applied is the signed one if and only if the two sessions are at
one offset from UTC at every timestamp of the rows. -/
theorem set_digest_agrees_iff {digestBytes : Text → Text} {collation : Collation} {producer client : PayloadSchema}
    {group : ReplaceSetGroup} {documentId : Text} {builder applier : Session}
    (hrows : SameScope collation producer client group documentId)
    (hcollision : digestBytes (setText (applier.replaceSetRows collation client group documentId)) =
        digestBytes (setText (builder.replaceSetRows collation producer group documentId)) →
      setText (applier.replaceSetRows collation client group documentId) =
        setText (builder.replaceSetRows collation producer group documentId)) :
    setDigestOverRows digestBytes (applier.replaceSetRows collation client group documentId) =
        setDigestOverRows digestBytes (builder.replaceSetRows collation producer group documentId) ↔
      ∀ table ∈ groupPayloadTables group, ∀ row ∈ producer.scopeRows collation documentId table,
        applier.SameOffsets builder row.cells := by
  rw [← setText_eq_iff hrows]
  constructor
  · exact hcollision
  · exact congrArg digestBytes

/-- A decision without zones, fetched on 2026-01-01 at 00:00 UTC. -/
def missingDecisionRow : StoredRow .decisionZones where
  cells :=
    [.text "cass:JURITEXT1".toList, .text "judilibre".toList, .null, .text "JURITEXT1".toList, .null,
      .text "not_found".toList, .timestamptz (.finite 1767225600000000), .null, .null, .null, .null, .null,
      .jsonb (.object []), .jsonb (.object []), .null, .text "judilibre:v1".toList]
  typed := by decide

def missingDecision : PayloadSchema where
  rows
    | .decisionZones => Table.empty.upsert missingDecisionRow
    | _ => Table.empty

def utcSession : Session := ⟨fun _ => 0⟩

def cetSession : Session := ⟨fun _ => 3600⟩

/-- One hour ahead of UTC during the summer time of 2026. -/
def londonSession : Session := ⟨fun seconds => if 1774746000 ≤ seconds ∧ seconds < 1792890000 then 3600 else 0⟩

def missingDecisionText (session : Session) : Text :=
  setText (session.replaceSetRows codePointCollation missingDecision .decisionZones "cass:JURITEXT1".toList)

/-- SHA-256 of the two texts that the sessions write. -/
def sampleDigest (text : Text) : Text :=
  if text = missingDecisionText utcSession then
    "sha256:5fadaf81ed2461bad4b794fa185ad60acb45901dca74ae2041a8c1327a5d8f35".toList
  else if text = missingDecisionText cetSession then
    "sha256:41704ee7f13882b5e9c57a309402020ecb430f78608d740c109338f215f09adf".toList
  else []

theorem missingDecision_row {table : PayloadTable} (ht : table ∈ groupPayloadTables .decisionZones)
    {row : StoredRow table} (hr : row ∈ missingDecision.scopeRows codePointCollation "cass:JURITEXT1".toList table) :
    row.cells = missingDecisionRow.cells := by
  obtain rfl := List.mem_singleton.mp ht
  have hmem := mem_scopeRows hr
  rcases Table.mem_upsert.mp hmem with rfl | ⟨hempty, _⟩
  · rfl
  · exact absurd hempty (Table.not_mem_empty row)

theorem london_digest_agrees :
    setDigestOverRows sampleDigest (londonSession.replaceSetRows codePointCollation missingDecision .decisionZones
        "cass:JURITEXT1".toList) =
      setDigestOverRows sampleDigest (utcSession.replaceSetRows codePointCollation missingDecision .decisionZones
        "cass:JURITEXT1".toList) := by
  have hoffsets : ∀ table ∈ groupPayloadTables .decisionZones,
      ∀ row ∈ missingDecision.scopeRows codePointCollation "cass:JURITEXT1".toList table,
        londonSession.SameOffsets utcSession row.cells := by
    intro table ht row hr micros hmem
    rw [missingDecision_row ht hr] at hmem
    simp [missingDecisionRow] at hmem
    subst hmem
    rfl
  have hrows : SameScope codePointCollation missingDecision missingDecision .decisionZones "cass:JURITEXT1".toList :=
    fun _ _ _ => Iff.rfl
  exact (set_digest_agrees_iff hrows fun _ => (setText_eq_iff hrows).mpr hoffsets).mpr hoffsets

/-- One hour between the sessions changes the text of `fetched_at`. -/
theorem cet_digest_differs :
    setDigestOverRows sampleDigest (cetSession.replaceSetRows codePointCollation missingDecision .decisionZones
        "cass:JURITEXT1".toList) ≠
      setDigestOverRows sampleDigest (utcSession.replaceSetRows codePointCollation missingDecision .decisionZones
        "cass:JURITEXT1".toList) := by
  have htexts : missingDecisionText cetSession ≠ missingDecisionText utcSession := by
    intro htexts
    have hrow : missingDecisionRow ∈ missingDecision.scopeRows codePointCollation "cass:JURITEXT1".toList
        .decisionZones :=
      (List.mem_insertionSort _).mpr (List.mem_filter.mpr ⟨Table.mem_upsert.mpr (Or.inl rfl), by decide⟩)
    have hoffsets := (setText_eq_iff fun _ _ _ => Iff.rfl).mp htexts .decisionZones (List.mem_singleton_self _)
      missingDecisionRow hrow 1767225600000000 (by simp [missingDecisionRow])
    exact absurd hoffsets (by decide)
  have hcet : sampleDigest (missingDecisionText cetSession) = "sha256:41704ee7f13882b5e9c57a309402020ecb430f78608d740c109338f215f09adf".toList := by
    rw [sampleDigest, if_neg htexts, if_pos rfl]
  have hutc : sampleDigest (missingDecisionText utcSession) = "sha256:5fadaf81ed2461bad4b794fa185ad60acb45901dca74ae2041a8c1327a5d8f35".toList := by
    rw [sampleDigest, if_pos rfl]
  intro h
  have hdigests := hcet.symm.trans (h.trans hutc)
  exact absurd hdigests (by decide)

end CorpusFeed
