import CorpusFeed.CanonicalDocument

/-! The chunk builders of articles and decisions. The id of a chunk is its
position, so an edit of the text moves bodies between ids and changes their
number. -/

namespace CorpusFeed

def legiArticleContextualizedChunkMaxChars : Nat := 6000

def legiArticleChunkBuilderVersion : Text := "legi_article_structural:v2".toList

def juriDecisionChunkMaxChars : Nat := 6000

def contextualized (context body : Text) : Text :=
  if context.isEmpty then body else context ++ "\n\n".toList ++ body

def articleChunkContext (document : CanonicalDocument) : Text :=
  " > ".toList.intercalate (document.hierarchyPath ++ document.title.toList)

def structuralArticleBodyUnits (body : Text) : List Text :=
  ((lines body).map trim).filter fun line => !line.isEmpty

def joinArticleBodyUnits (units : List Text) (extra : Option Text) : Text :=
  let body := ['\n'].intercalate units
  match extra with
  | none => body
  | some extra => if body.isEmpty then extra else body ++ '\n' :: extra

def buildArticleChunk (document : CanonicalDocument) (context : Text) (chunkIndex : Nat) (body : Text)
    (boundary : Text) (sourceFields : List Text) : CanonicalChunk where
  chunkId := chunkIdOf document.documentId chunkIndex
  documentId := document.documentId
  chunkIndex := chunkIndex
  contextualizedBody := contextualized context body
  body := body
  chunkKind := "article_body".toList
  chunking := "structural".toList
  boundary := boundary
  sourceFields := sourceFields
  sourcePayloadHash := document.sourcePayloadHash
  chunkBuilderVersion := legiArticleChunkBuilderVersion
  hierarchyPath := document.hierarchyPath

def alineaChunk (document : CanonicalDocument) (context : Text) (chunkIndex : Nat) (units : List Text)
    (start stop : Nat) : CanonicalChunk :=
  buildArticleChunk document context chunkIndex (joinArticleBodyUnits units none)
    (if start = stop then "alinea".toList else "alinea_range".toList)
    ["BLOC_TEXTUEL/CONTENU".toList, "BLOC_TEXTUEL/CONTENU/alinea:".toList ++ padDecimal 1 start ++ "-".toList ++
      padDecimal 1 stop]

/-- The packing loop: `index` units are consumed, and `current` starts at the
unit numbered `start`. -/
def packUnits (document : CanonicalDocument) (context : Text) (chunks : List CanonicalChunk) (current : List Text)
    (start index : Nat) : List Text → List CanonicalChunk
  | [] =>
    if current.isEmpty then chunks
    else chunks ++ [alineaChunk document context chunks.length current start index]
  | unit :: rest =>
    if !current.isEmpty && decide (legiArticleContextualizedChunkMaxChars <
        (contextualized context (joinArticleBodyUnits current (some unit))).length) then
      packUnits document context (chunks ++ [alineaChunk document context chunks.length current start index])
        [unit] (index + 1) (index + 1) rest
    else packUnits document context chunks (current ++ [unit]) start (index + 1) rest

def wholeArticleChunk (document : CanonicalDocument) : CanonicalChunk :=
  buildArticleChunk document (articleChunkContext document) 0 document.body "article".toList
    ["BLOC_TEXTUEL/CONTENU".toList]

def buildArticleChunks (document : CanonicalDocument) : List CanonicalChunk :=
  let context := articleChunkContext document
  if (contextualized context document.body).length ≤ legiArticleContextualizedChunkMaxChars then
    [wholeArticleChunk document]
  else
    let units := structuralArticleBodyUnits document.body
    if units.length ≤ 1 then [wholeArticleChunk document]
    else
      let chunks := packUnits document context [] [] 1 0 units
      if chunks.length ≤ 1 then [wholeArticleChunk document] else chunks

structure BodyPiece where
  text : Text
  boundary : Text

/-- `chunks(n)` of a slice, for `0 < n`. -/
def sliceChunks (n : Nat) : Nat → Text → List Text
  | 0, _ => []
  | fuel + 1, t => if t.isEmpty then [] else t.take n :: sliceChunks n fuel (t.drop n)

def hardSplit (text : Text) (maxChars : Nat) : List Text := sliceChunks (max maxChars 1) text.length text

def flushParagraphs (current : Text) (pieces : List BodyPiece) : List BodyPiece :=
  if current.isEmpty then pieces else pieces ++ [⟨current, "paragraph".toList⟩]

def splitParagraphs (maxChars : Nat) (current : Text) (pieces : List BodyPiece) : List Text → List BodyPiece
  | [] => flushParagraphs current pieces
  | paragraph :: rest =>
    if maxChars < paragraph.length then
      splitParagraphs maxChars [] (flushParagraphs current pieces ++
        (hardSplit paragraph maxChars).map fun text => ⟨text, "hard_split".toList⟩) rest
    else if current.isEmpty then splitParagraphs maxChars paragraph pieces rest
    else if maxChars < current.length + 1 + paragraph.length then
      splitParagraphs maxChars paragraph (flushParagraphs current pieces) rest
    else splitParagraphs maxChars (current ++ '\n' :: paragraph) pieces rest

def bodyParagraphs (body : Text) : List Text :=
  ((body.splitOn '\n').map trim).filter fun line => !line.isEmpty

def splitBody (body : Text) (maxChars : Nat) : List BodyPiece :=
  splitParagraphs maxChars [] [] (bodyParagraphs body)

def decisionContext (decision : CanonicalDecision) : Text :=
  let parts := match decision.title with
    | some title => [title]
    | none => decision.jurisdiction.toList ++ [decision.decisionDate]
  " — ".toList.intercalate (parts ++ decision.ecli.toList)

def makeChunk (decision : CanonicalDecision) (context : Text) (chunkIndex : Nat) (body chunkKind boundary : Text)
    (sourceFields : List Text) : CanonicalChunk where
  chunkId := chunkIdOf decision.documentId chunkIndex
  documentId := decision.documentId
  chunkIndex := chunkIndex
  contextualizedBody := contextualized context body
  body := body
  chunkKind := chunkKind
  chunking := "heuristic".toList
  boundary := boundary
  sourceFields := sourceFields
  sourcePayloadHash := decision.sourcePayloadHash
  chunkBuilderVersion := juriDecisionChunkBuilderVersion
  hierarchyPath := []

def summaryChunks (decision : CanonicalDecision) (context : Text) : List CanonicalChunk :=
  let summaryBody := "\n\n".toList.intercalate (decision.summaries.map DecisionSummary.text)
  if isBlank summaryBody then []
  else [makeChunk decision context 0 summaryBody "decision_summary".toList "sommaire".toList ["TEXTE/SOMMAIRE".toList]]

def bodyChunks (decision : CanonicalDecision) (context : Text) (chunks : List CanonicalChunk) :
    List BodyPiece → List CanonicalChunk
  | [] => chunks
  | piece :: rest => bodyChunks decision context (chunks ++ [makeChunk decision context chunks.length piece.text
      "decision_body".toList piece.boundary ["TEXTE/BLOC_TEXTUEL/CONTENU".toList]]) rest

def buildDecisionChunks (decision : CanonicalDecision) : List CanonicalChunk :=
  let context := decisionContext decision
  bodyChunks decision context (summaryChunks decision context) (splitBody decision.body juriDecisionChunkMaxChars)

section EachAt

/-- Every chunk satisfies `ok` at its position. -/
def EachAt (ok : Nat → CanonicalChunk → Prop) (chunks : List CanonicalChunk) : Prop :=
  ∀ i, ∀ h : i < chunks.length, ok i chunks[i]

variable {ok : Nat → CanonicalChunk → Prop} {chunks : List CanonicalChunk} {chunk : CanonicalChunk}

theorem EachAt.nil : EachAt ok [] := fun _ h => absurd h (by simp)

theorem EachAt.concat (h : EachAt ok chunks) (hchunk : ok chunks.length chunk) : EachAt ok (chunks ++ [chunk]) := by
  intro i hi
  by_cases hlt : i < chunks.length
  · simpa [List.getElem_append_left hlt] using h i hlt
  · have heq : i = chunks.length := by
      simp only [List.length_append, List.length_singleton] at hi
      omega
    subst heq
    simpa using hchunk

theorem EachAt.singleton (hchunk : ok 0 chunk) : EachAt ok [chunk] := EachAt.nil.concat hchunk

theorem EachAt.accepted {check : CanonicalChunk → Nat → Option String} (h : EachAt ok chunks)
    (hcheck : ∀ i chunk, ok i chunk → check chunk i = none) : refusedChunk check chunks = none := by
  refine List.findSome?_eq_none_iff.mpr fun entry hentry => ?_
  have hget := List.mem_zipIdx_iff_getElem?.mp hentry
  obtain ⟨hi, heq⟩ := List.getElem?_eq_some_iff.mp hget
  have hnone := hcheck entry.2 _ (h entry.2 hi)
  rw [heq] at hnone
  simp [hnone]

end EachAt

/-- The chunk at position `i` of an article is built over a body that is not blank. -/
def ArticleChunkAt (document : CanonicalDocument) (i : Nat) (chunk : CanonicalChunk) : Prop :=
  ∃ body boundary sourceFields, isBlank body = false ∧
    chunk = buildArticleChunk document (articleChunkContext document) i body boundary sourceFields

def DecisionChunkAt (decision : CanonicalDecision) (i : Nat) (chunk : CanonicalChunk) : Prop :=
  ∃ body chunkKind boundary sourceFields, isBlank body = false ∧
    chunk = makeChunk decision (decisionContext decision) i body chunkKind boundary sourceFields

section Article

variable {document : CanonicalDocument}

theorem isBlank_join {units : List Text} (hne : units ≠ []) (hunits : ∀ unit ∈ units, isBlank unit = false) :
    isBlank (joinArticleBodyUnits units none) = false := by
  obtain ⟨unit, rest, rfl⟩ := List.exists_cons_of_ne_nil hne
  exact isBlank_intercalate List.mem_cons_self (hunits unit List.mem_cons_self)

theorem alineaChunk_at {units : List Text} {start stop i : Nat} (hne : units ≠ [])
    (hunits : ∀ unit ∈ units, isBlank unit = false) :
    ArticleChunkAt document i (alineaChunk document (articleChunkContext document) i units start stop) :=
  ⟨_, _, _, isBlank_join hne hunits, rfl⟩

theorem packUnits_at {chunks : List CanonicalChunk} {current rest : List Text} {start index : Nat}
    (hchunks : EachAt (ArticleChunkAt document) chunks) (hcurrent : ∀ unit ∈ current, isBlank unit = false)
    (hrest : ∀ unit ∈ rest, isBlank unit = false) :
    EachAt (ArticleChunkAt document)
      (packUnits document (articleChunkContext document) chunks current start index rest) := by
  induction rest generalizing chunks current start index with
  | nil =>
    by_cases he : current = []
    · simpa [packUnits, he] using hchunks
    · simpa [packUnits, he] using hchunks.concat (alineaChunk_at he hcurrent)
  | cons unit rest ih =>
    have hunit := hrest unit List.mem_cons_self
    have htail := fun u hu => hrest u (List.mem_cons_of_mem unit hu)
    rw [packUnits]
    split
    · next hfull =>
      have hne : current ≠ [] := by
        intro he
        simp [he] at hfull
      exact ih (hchunks.concat (alineaChunk_at hne hcurrent)) (by simpa using hunit) htail
    · refine ih hchunks (fun u hu => ?_) htail
      rcases List.mem_append.mp hu with hu | hu
      · exact hcurrent u hu
      · rwa [List.mem_singleton.mp hu]

theorem structuralArticleBodyUnits_not_blank {body unit : Text} (h : unit ∈ structuralArticleBodyUnits body) :
    isBlank unit = false := by
  simp only [structuralArticleBodyUnits, List.mem_filter, List.mem_map] at h
  obtain ⟨⟨line, _, rfl⟩, hne⟩ := h
  exact isBlank_trim (by simpa using hne)

theorem packUnits_with (document : CanonicalDocument) (built chunks : List CanonicalChunk) (context : Text)
    (current rest : List Text) (start index : Nat) :
    packUnits { document with chunks := built } context chunks current start index rest =
      packUnits document context chunks current start index rest := by
  have halinea : ∀ (i : Nat) (units : List Text) (start stop : Nat),
      alineaChunk { document with chunks := built } context i units start stop =
        alineaChunk document context i units start stop := fun _ _ _ _ => rfl
  induction rest generalizing chunks current start index with
  | nil => simp only [packUnits, halinea]
  | cons unit rest ih => simp only [packUnits, halinea, ih]

theorem buildArticleChunks_with (document : CanonicalDocument) (built : List CanonicalChunk) :
    buildArticleChunks { document with chunks := built } = buildArticleChunks document := by
  have hcontext : articleChunkContext { document with chunks := built } = articleChunkContext document := rfl
  have hwhole : wholeArticleChunk { document with chunks := built } = wholeArticleChunk document := rfl
  simp only [buildArticleChunks, hcontext, hwhole, packUnits_with]

theorem buildArticleChunks_at (hbody : isBlank document.body = false) :
    EachAt (ArticleChunkAt document) (buildArticleChunks document) := by
  have hwhole : EachAt (ArticleChunkAt document) [wholeArticleChunk document] :=
    EachAt.singleton ⟨_, _, _, hbody, rfl⟩
  have hpacked : EachAt (ArticleChunkAt document) (packUnits document (articleChunkContext document) [] [] 1 0
      (structuralArticleBodyUnits document.body)) :=
    packUnits_at EachAt.nil (by simp) fun unit hu => structuralArticleBodyUnits_not_blank hu
  unfold buildArticleChunks
  dsimp only
  split
  · exact hwhole
  split
  · exact hwhole
  split
  · exact hwhole
  · exact hpacked

theorem validateForDocument_built {i : Nat} {chunk : CanonicalChunk}
    (hhash : payloadHashValid document.sourcePayloadHash = true) (h : ArticleChunkAt document i chunk) :
    validateForDocument document chunk i = none := by
  obtain ⟨body, boundary, sourceFields, hbody, rfl⟩ := h
  refine firstFailure_eq_none.mpr fun check hcheck => ?_
  simp only [chunkIdentityChecks, buildArticleChunk, List.cons_append, List.nil_append, List.mem_cons,
    List.not_mem_nil, or_false] at hcheck
  rcases hcheck with rfl | rfl | rfl | rfl | rfl | rfl <;> simp [hbody, hhash]

/-- The chunks of a parsed article are never the reason for its refusal. -/
theorem buildArticleChunks_accepted (hbody : isBlank document.body = false)
    (hhash : payloadHashValid document.sourcePayloadHash = true) :
    refusedChunk (validateForDocument document) (buildArticleChunks document) = none :=
  (buildArticleChunks_at hbody).accepted fun _ _ h => validateForDocument_built hhash h

end Article

section Decision

variable {decision : CanonicalDecision}

theorem bodyChunks_at {chunks : List CanonicalChunk} {pieces : List BodyPiece}
    (hchunks : EachAt (DecisionChunkAt decision) chunks) (hpieces : ∀ piece ∈ pieces, isBlank piece.text = false) :
    EachAt (DecisionChunkAt decision) (bodyChunks decision (decisionContext decision) chunks pieces) := by
  induction pieces generalizing chunks with
  | nil => exact hchunks
  | cons piece pieces ih =>
    have hpiece : DecisionChunkAt decision chunks.length (makeChunk decision (decisionContext decision) chunks.length
        piece.text "decision_body".toList piece.boundary ["TEXTE/BLOC_TEXTUEL/CONTENU".toList]) :=
      ⟨_, _, _, _, hpieces piece List.mem_cons_self, rfl⟩
    exact ih (hchunks.concat hpiece) fun p hp => hpieces p (List.mem_cons_of_mem piece hp)

theorem summaryChunks_at : EachAt (DecisionChunkAt decision) (summaryChunks decision (decisionContext decision)) := by
  unfold summaryChunks
  dsimp only
  split
  · exact EachAt.nil
  · next hblank => exact EachAt.singleton ⟨_, _, _, _, by simpa using hblank, rfl⟩

theorem buildDecisionChunks_at
    (hpieces : ∀ piece ∈ splitBody decision.body juriDecisionChunkMaxChars, isBlank piece.text = false) :
    EachAt (DecisionChunkAt decision) (buildDecisionChunks decision) :=
  bodyChunks_at summaryChunks_at hpieces

theorem validateChunk_built {i : Nat} {chunk : CanonicalChunk}
    (hhash : payloadHashValid decision.sourcePayloadHash = true) (h : DecisionChunkAt decision i chunk) :
    validateChunk decision chunk i = none := by
  obtain ⟨body, chunkKind, boundary, sourceFields, hbody, rfl⟩ := h
  refine firstFailure_eq_none.mpr fun check hcheck => ?_
  simp only [chunkIdentityChecks, makeChunk, List.cons_append, List.nil_append, List.mem_cons,
    List.not_mem_nil, or_false] at hcheck
  rcases hcheck with rfl | rfl | rfl | rfl | rfl | rfl | rfl <;> simp [hbody, hhash]

/-- A hard split can leave a piece of white space only. The chunks of a decision
without such a piece are accepted. -/
theorem buildDecisionChunks_accepted
    (hpieces : ∀ piece ∈ splitBody decision.body juriDecisionChunkMaxChars, isBlank piece.text = false)
    (hhash : payloadHashValid decision.sourcePayloadHash = true) :
    refusedChunk (validateChunk decision) (buildDecisionChunks decision) = none :=
  (buildDecisionChunks_at hpieces).accepted fun _ _ h => validateChunk_built hhash h

end Decision

end CorpusFeed
