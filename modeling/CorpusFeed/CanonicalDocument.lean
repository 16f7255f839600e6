import CorpusFeed.TextLines

/-! Canonical documents of the two parsers, and the checks that they pass before
they are stored. -/

namespace CorpusFeed

structure GraphEdgeAttribute where
  key : Text
  value : Text
deriving DecidableEq

structure CanonicalGraphEdge where
  edgeId : Text
  fromDocumentId : Text
  fromSourceUid : Text
  toSourceUid : Option Text
  toDocumentId : Option Text
  relation : Text
  edgeSource : Text
  sourceTag : Text
  sourceText : Option Text
  sourcePayloadHash : Text
  sourceArchive : Option Text
  sourceMemberPath : Option Text
  attributes : List GraphEdgeAttribute
deriving DecidableEq

structure CanonicalChunk where
  chunkId : Text
  documentId : Text
  chunkIndex : Nat
  body : Text
  contextualizedBody : Text
  chunkKind : Text
  chunking : Text
  boundary : Text
  sourceFields : List Text
  sourcePayloadHash : Text
  chunkBuilderVersion : Text
  hierarchyPath : List Text
deriving DecidableEq

structure CanonicalDocument where
  documentId : Text
  source : Text
  kind : Text
  sourceUid : Text
  versionGroup : Option Text
  citation : Option Text
  title : Option Text
  body : Text
  validFrom : Text
  validTo : Option Text
  validToRaw : Option Text
  sourceUrl : Option Text
  sourcePayloadHash : Text
  hierarchyPath : List Text
  publisherEdges : List CanonicalGraphEdge
  chunks : List CanonicalChunk
deriving DecidableEq

inductive JuriFamily where
  | judicial
  | administrative
deriving DecidableEq

def JuriFamily.uidPrefix : JuriFamily → Text
  | .judicial => "JURITEXT".toList
  | .administrative => "CETATEXT".toList

def juriFamilyOf (source : Text) : Option JuriFamily :=
  if source ∈ ["cass".toList, "capp".toList, "inca".toList] then some .judicial
  else if source = "jade".toList then some .administrative
  else none

structure DecisionSummary where
  kind : Text
  text : Text
deriving DecidableEq

structure CanonicalDecision where
  documentId : Text
  source : Text
  sourceFamily : JuriFamily
  kind : Text
  sourceUid : Text
  citation : Option Text
  title : Option Text
  body : Text
  decisionDate : Text
  jurisdiction : Option Text
  ecli : Option Text
  sourceUrl : Option Text
  sourcePayloadHash : Text
  chunkingProvenance : Text
  summaries : List DecisionSummary
  publisherEdges : List CanonicalGraphEdge
  inferredEdges : List CanonicalGraphEdge
  chunks : List CanonicalChunk
  canonicalVersion : Text
deriving DecidableEq

def juriDecisionCanonicalVersion : Text := "juri_decision:v1".toList

def juriDecisionChunkBuilderVersion : Text := "juri_decision_heuristic:v1".toList

def chunkIdOf (documentId : Text) (chunkIndex : Nat) : Text :=
  "chunk:".toList ++ documentId ++ ':' :: padDecimal 1 chunkIndex

/-- The message of the first check that fails. -/
def firstFailure (checks : List (Bool × String)) : Option String :=
  (checks.find? fun check => check.1).map Prod.snd

def isLeapYear (year : Nat) : Bool := (year % 4 == 0 && year % 100 != 0) || year % 400 == 0

def daysInMonth (year : Nat) : Nat → Option Nat
  | 1 | 3 | 5 | 7 | 8 | 10 | 12 => some 31
  | 4 | 6 | 9 | 11 => some 30
  | 2 => some (if isLeapYear year then 29 else 28)
  | _ => none

def dateValid (value : Text) : Bool :=
  match value with
  | [y1, y2, y3, y4, dash1, m1, m2, dash2, d1, d2] =>
    dash1 == '-' && dash2 == '-' &&
      match readDecimal [y1, y2, y3, y4], readDecimal [m1, m2], readDecimal [d1, d2] with
      | some year, some month, some day => decide (0 < day) && decide (day ≤ (daysInMonth year month).getD 0)
      | _, _, _ => false
  | _ => false

def legiArticleIdValid (value : Text) : Bool :=
  match value.dropPrefix? "LEGIARTI".toList with
  | some suffix => suffix.length == 12 && suffix.all Char.isDigit
  | none => false

def payloadHashValid (hash : Text) : Bool := "sha256:".toList.isPrefixOf hash

/-- The checks that the chunks of both families share. -/
def chunkIdentityChecks (parent : String) (documentId : Text) (expectedIndex : Nat) (chunk : CanonicalChunk) :
    List (Bool × String) :=
  [(chunk.documentId != documentId, s!"document_id does not match parent {parent}"),
    (chunk.chunkIndex != expectedIndex, s!"chunk_index must be {expectedIndex}"),
    (chunk.chunkId != chunkIdOf documentId chunk.chunkIndex,
      s!"chunk_id must be `{String.ofList (chunkIdOf documentId chunk.chunkIndex)}`"),
    (isBlank chunk.body, "body must not be empty")]

def validateForDocument (document : CanonicalDocument) (chunk : CanonicalChunk) (expectedIndex : Nat) : Option String :=
  firstFailure (chunkIdentityChecks "document" document.documentId expectedIndex chunk ++
    [(!payloadHashValid chunk.sourcePayloadHash, "source_payload_hash must be sha256-prefixed"),
      (chunk.chunking != "structural".toList, "chunking must be `structural`")])

def validateChunk (decision : CanonicalDecision) (chunk : CanonicalChunk) (expectedIndex : Nat) : Option String :=
  firstFailure (chunkIdentityChecks "decision" decision.documentId expectedIndex chunk ++
    [(chunk.chunking != "heuristic".toList, "bulk decision chunking must be `heuristic`"),
      (chunk.chunkBuilderVersion != juriDecisionChunkBuilderVersion,
        s!"chunk_builder_version must be `{String.ofList juriDecisionChunkBuilderVersion}`"),
      (!payloadHashValid chunk.sourcePayloadHash, "source_payload_hash must be sha256-prefixed")])

/-- The message of the first chunk that is refused, with its id. -/
def refusedChunk (check : CanonicalChunk → Nat → Option String) (chunks : List CanonicalChunk) :
    Option (Text × String) :=
  chunks.zipIdx.findSome? fun entry => (check entry.1 entry.2).map fun message => (entry.1.chunkId, message)

def chunkError (family : String) : Option (Text × String) → Option String
  | some (chunkId, message) => some s!"canonical {family}chunk `{String.ofList chunkId}` is invalid: {message}"
  | none => none

def CanonicalDocument.validate (d : CanonicalDocument) : Option String :=
  (firstFailure
    [(d.source != "legi".toList, s!"canonical document source must be `legi`, got `{String.ofList d.source}`"),
      (d.kind != "article".toList, s!"canonical document kind must be `article`, got `{String.ofList d.kind}`"),
      (!legiArticleIdValid d.sourceUid,
        s!"canonical document source_uid is not a LEGI article id: `{String.ofList d.sourceUid}`"),
      (d.documentId != "legi:".toList ++ d.sourceUid ++ "@".toList ++ d.validFrom,
        s!"canonical document_id does not match legi:<source_uid>@<valid_from>: `{String.ofList d.documentId}`"),
      (!dateValid d.validFrom, s!"canonical document has invalid valid_from: `{String.ofList d.validFrom}`"),
      (!d.validTo.all dateValid,
        s!"canonical document has invalid valid_to: `{String.ofList (d.validTo.getD [])}`"),
      (isBlank d.body, "canonical document body must not be empty"),
      (!payloadHashValid d.sourcePayloadHash,
        s!"canonical document source_payload_hash must be sha256-prefixed: `{String.ofList d.sourcePayloadHash}`")]).or
    (chunkError "" (refusedChunk (validateForDocument d) d.chunks))

def edgeError (message : String) (edge : CanonicalGraphEdge) : String :=
  s!"canonical decision edge `{String.ofList edge.edgeId}` is invalid: {message}"

def edgeChecks (edgeSource : Text) (message : String) (edges : List CanonicalGraphEdge) : List (Bool × String) :=
  edges.map fun edge => (edge.edgeSource != edgeSource, edgeError message edge)

def CanonicalDecision.validate (d : CanonicalDecision) : Option String :=
  ((firstFailure
    [(d.kind != "decision".toList, s!"canonical decision kind must be `decision`, got `{String.ofList d.kind}`"),
      (juriFamilyOf d.source != some d.sourceFamily,
        s!"canonical decision source must be a jurisprudence dataset whose family matches the record, got `{String.ofList d.source}`"),
      (d.chunkingProvenance != "heuristic".toList,
        s!"bulk decision chunking_provenance must be `heuristic`, got `{String.ofList d.chunkingProvenance}`"),
      (d.canonicalVersion != juriDecisionCanonicalVersion,
        s!"canonical decision canonical_version must be `juri_decision:v1`, got `{String.ofList d.canonicalVersion}`"),
      (!d.sourceFamily.uidPrefix.isPrefixOf d.sourceUid,
        s!"canonical decision source_uid `{String.ofList d.sourceUid}` must start with `{String.ofList d.sourceFamily.uidPrefix}`"),
      (d.documentId != d.source ++ ":".toList ++ d.sourceUid,
        s!"canonical decision document_id does not match <source>:<source_uid>: `{String.ofList d.documentId}`"),
      (!dateValid d.decisionDate,
        s!"canonical decision decision_date is invalid: `{String.ofList d.decisionDate}`"),
      (isBlank d.body, "canonical decision body must not be empty"),
      (!payloadHashValid d.sourcePayloadHash,
        s!"canonical decision source_payload_hash must be sha256-prefixed: `{String.ofList d.sourcePayloadHash}`")]).or
    (chunkError "decision " (refusedChunk (validateChunk d) d.chunks))).or
    (firstFailure
      (edgeChecks "publisher".toList "publisher edge must have edge_source `publisher`" d.publisherEdges ++
        edgeChecks "inferred".toList "inferred edge must have edge_source `inferred`" d.inferredEdges))

theorem firstFailure_eq_none {checks : List (Bool × String)} :
    firstFailure checks = none ↔ ∀ check ∈ checks, check.1 = false := by
  simp [firstFailure]

/-- The chunks have the ids of their positions in the document. -/
def ChunksNumbered (documentId : Text) (chunks : List CanonicalChunk) : Prop :=
  ∀ i, ∀ h : i < chunks.length, chunks[i].documentId = documentId ∧ chunks[i].chunkIndex = i ∧
    chunks[i].chunkId = chunkIdOf documentId i

theorem chunkIdOf_inj {d d' : Text} {i i' : Nat} (h : chunkIdOf d i = chunkIdOf d' i') : d = d' ∧ i = i' := by
  have hno : ∀ n, ':' ∉ padDecimal 1 n := fun n hk => absurd (isDigit_of_mem_padDecimal hk) (by decide)
  unfold chunkIdOf at h
  obtain ⟨hstem, hdigits⟩ := stem_suffix_unique (hno i) (hno i') h
  exact ⟨List.append_cancel_left hstem, padDecimal_injective 1 hdigits⟩

theorem refusedChunk_none {check : CanonicalChunk → Nat → Option String} {chunks : List CanonicalChunk}
    (h : refusedChunk check chunks = none) {i : Nat} (hi : i < chunks.length) : check chunks[i] i = none := by
  have hmem : (chunks[i], i) ∈ chunks.zipIdx := by simp [List.mem_zipIdx_iff_getElem?, hi]
  simpa using List.findSome?_eq_none_iff.mp h _ hmem

theorem chunksNumbered_of_checks {parent : String} {documentId : Text} {chunks : List CanonicalChunk}
    {check : CanonicalChunk → Nat → Option String}
    (hcheck : ∀ chunk i, ∃ rest, check chunk i = firstFailure (chunkIdentityChecks parent documentId i chunk ++ rest))
    (h : refusedChunk check chunks = none) : ChunksNumbered documentId chunks := by
  intro i hi
  obtain ⟨rest, hrest⟩ := hcheck chunks[i] i
  have hnone := firstFailure_eq_none.mp (hrest.symm.trans (refusedChunk_none h hi))
  simp only [chunkIdentityChecks, List.cons_append, List.mem_cons, forall_eq_or_imp, bne_eq_false_iff_eq] at hnone
  obtain ⟨hdocument, hindex, hid, _⟩ := hnone
  exact ⟨hdocument, hindex, by rw [hid, hindex]⟩

theorem chunkError_eq_none {family : String} {refused : Option (Text × String)}
    (h : chunkError family refused = none) : refused = none := by
  cases refused with
  | none => rfl
  | some refused => cases h

theorem CanonicalDocument.validate_numbered {d : CanonicalDocument} (h : d.validate = none) :
    ChunksNumbered d.documentId d.chunks := by
  rw [CanonicalDocument.validate, Option.or_eq_none_iff] at h
  exact chunksNumbered_of_checks (fun chunk i => ⟨_, rfl⟩) (chunkError_eq_none h.2)

theorem CanonicalDecision.validate_numbered {d : CanonicalDecision} (h : d.validate = none) :
    ChunksNumbered d.documentId d.chunks := by
  rw [CanonicalDecision.validate, Option.or_eq_none_iff, Option.or_eq_none_iff] at h
  exact chunksNumbered_of_checks (fun chunk i => ⟨_, rfl⟩) (chunkError_eq_none h.1.2)

end CorpusFeed
