import CorpusFeed.HierarchyOrder

/-! What ingestion in runs leaves of every article, against one full backfill
over everything. -/

namespace CorpusFeed

namespace HierarchyStore

variable {collation : Collation} {s s' : HierarchyStore} {scope : LegiHierarchyBackfillScope} {c : HierarchyCandidate}
  {a : AcceptedArticle} {id : Text} {path : List Text} {all : List LegiItem} {runs : List (List LegiItem)}

/-- The candidate that no other candidate of the article can take the place of. -/
theorem chosenCandidate_of_unrivalled (hc : c ∈ s.hierarchyCandidates scope) (hid : c.document.documentId = id)
    (h : ∀ other ∈ s.hierarchyCandidates scope, other.document.documentId = id →
      (c.containsAnchor = true → other.containsAnchor = true) → other = c) :
    s.chosenCandidate collation scope id = some c := by
  rw [chosenCandidate_eq]
  cases hvalid : ((candidateOrder collation).sort (s.hierarchyCandidates scope)).find? fun c =>
      c.document.documentId == id && c.containsAnchor with
  | some other =>
    obtain ⟨hother, hp, _⟩ := KeyOrder.find?_sort hvalid
    simp only [Bool.and_eq_true, beq_iff_eq] at hp
    rw [Option.some_or, h other hother hp.1 fun _ => hp.2]
  | none =>
    have hno := KeyOrder.find?_sort_eq_none.mp hvalid
    have hanchor : c.containsAnchor ≠ true := by
      intro hcontains
      have hc' := hno c hc
      simp [hid, hcontains] at hc'
    rw [Option.none_or]
    cases hfirst : ((candidateOrder collation).sort (s.hierarchyCandidates scope)).find? fun c =>
        c.document.documentId == id with
    | some other =>
      obtain ⟨hother, hp, _⟩ := KeyOrder.find?_sort hfirst
      rw [h other hother (by simpa using hp) fun hcontains => absurd hcontains hanchor]
    | none =>
      have hc' := KeyOrder.find?_sort_eq_none.mp hfirst c hc
      simp [hid] at hc'

/-- A reader finds the same paths and bodies. -/
structure SameArticles (s s' : HierarchyStore) : Prop where
  paths : ∀ id, s.pathOf id = s'.pathOf id
  bodies : ∀ chunkId, s.contextualizedBodyOf chunkId = s'.contextualizedBodyOf chunkId

/-- Everything at once, then one full backfill. -/
def fullBackfill (collation : Collation) (items : List LegiItem) : HierarchyStore :=
  ((ingested items).backfill collation fullScope).1

/-- The article ends with the first of the deepest paths, in its record and in
all its chunks. -/
def EndsDeepest (s : HierarchyStore) (a : AcceptedArticle) (offers : List (List Text)) : Prop :=
  ∃ path, IsFirstDeepest List.length (a.hierarchyPath :: offers) path ∧ s.pathOf a.documentId = some path ∧
    ∀ chunk ∈ a.chunks,
      s.contextualizedBodyOf chunk.chunkId = some (contextualizedArticleBody path a.title chunk.body)

theorem accepted_body (a : AcceptedArticle) : isBlank a.body = false := by
  have haccepted := a.accepted
  rw [CanonicalDocument.validate, Option.or_eq_none_iff] at haccepted
  exact firstFailure_eq_none.mp haccepted.1 (isBlank a.body, "canonical document body must not be empty") (by simp)

theorem built_body {chunk : CanonicalChunk} (h : chunk ∈ a.chunks) :
    chunk.contextualizedBody = contextualizedArticleBody a.hierarchyPath a.title chunk.body := by
  rw [a.chunks_built] at h
  obtain ⟨i, hi, rfl⟩ := List.getElem_of_mem h
  obtain ⟨body, boundary, sourceFields, _, heq⟩ := buildArticleChunks_at (accepted_body a) i hi
  rw [heq]
  rfl

theorem rebased_chunk {chunk : CanonicalChunk} (h : chunk ∈ a.chunks) (path : List Text) :
    ∃ stored ∈ (a.toCanonicalDocument.rebased path).chunks, stored.chunkId = chunk.chunkId ∧
      stored.contextualizedBody = contextualizedArticleBody path a.title chunk.body := by
  unfold CanonicalDocument.rebased
  split
  · next hown => exact ⟨chunk, h, rfl, hown ▸ built_body h⟩
  · exact ⟨chunkWithHierarchy path a.title chunk, List.mem_map_of_mem h, rfl, rfl⟩

theorem ChunksFollow.ends (h : ChunksFollow s) {offers : List (List Text)}
    (hstored : s.documents.find? a.documentId =
      some (a.toCanonicalDocument.rebased (deepest List.length a.hierarchyPath offers))) : EndsDeepest s a offers := by
  refine ⟨_, deepest_isFirstDeepest a.hierarchyPath offers, ?_, fun chunk hchunk => ?_⟩
  · rw [pathOf, hstored, Option.map_some, rebased_hierarchyPath]
  · obtain ⟨stored, hmem, hid, hbody⟩ := rebased_chunk hchunk (deepest List.length a.hierarchyPath offers)
    obtain ⟨row, hrow, heq⟩ := (h.rows stored).mpr ⟨_, (Table.find?_eq_some.mp hstored).1, hmem⟩
    have hfind : s.chunks.find? chunk.chunkId = some row :=
      Table.find?_eq_some.mpr ⟨hrow, (congrArg CanonicalChunk.chunkId heq).trans hid⟩
    rw [contextualizedBodyOf, hfind, Option.map_some, heq, hbody]

theorem ingestRuns_follow (hd : ItemsDistinct runs.flatten) : ChunksFollow (ingestRuns collation empty runs) :=
  ChunksFollow.empty.ingestRuns hd fun _ _ => rfl

theorem fullBackfill_follow (hd : ItemsDistinct all) : ChunksFollow (fullBackfill collation all) :=
  (ChunksFollow.empty.ingestAll hd fun _ _ => rfl).backfill collation fullScope

theorem fullBackfill_find? (hd : ItemsDistinct all) (ha : .article a ∈ all) :
    (fullBackfill collation all).documents.find? a.documentId = some (a.toCanonicalDocument.rebased
      (deepest List.length a.hierarchyPath
        ((ingested all).offeredPath collation fullScope a.documentId).toList)) := by
  have hstored : (ingested all).documents.find? a.documentId = some a.toCanonicalDocument := ingestAll_find?_of_mem hd ha
  rw [fullBackfill, backfill_find?, hstored, Option.map_some, ← rebased_offers _ _ (Or.inl rfl), rebased_self]
  cases (ingested all).offeredPath collation fullScope a.documentId <;> rfl

theorem fullBackfill_find?_none (h : id ∉ all.filterMap LegiItem.documentId?) :
    (fullBackfill collation all).documents.find? id = none := by
  rw [fullBackfill, backfill_find?, ingested, ingestAll_find?_of_not_mem h]
  rfl

/-- The runs and the full backfill leave the same articles exactly if they
leave each article on the same path. -/
theorem sameArticles_iff (hd : ItemsDistinct all) (hperm : runs.flatten.Perm all) :
    SameArticles (ingestRuns collation empty runs) (fullBackfill collation all) ↔
      ∀ a, .article a ∈ all → deepest List.length a.hierarchyPath (offersAlong collation a.documentId empty runs) =
        deepest List.length a.hierarchyPath
          ((ingested all).offeredPath collation fullScope a.documentId).toList := by
  have hruns : ItemsDistinct runs.flatten := hd.perm hperm
  constructor
  · intro hsame a ha
    have hpaths := hsame.paths a.documentId
    rw [pathOf, ingestRuns_find? rfl hruns (hperm.mem_iff.mpr ha), pathOf, fullBackfill_find? hd ha] at hpaths
    simpa using hpaths
  · intro hpaths
    have hdocuments : ∀ id, (ingestRuns collation empty runs).documents.find? id =
        (fullBackfill collation all).documents.find? id := by
      intro id
      by_cases hin : id ∈ all.filterMap LegiItem.documentId?
      · obtain ⟨a, ha, rfl⟩ := article_of_documentId hin
        rw [ingestRuns_find? rfl hruns (hperm.mem_iff.mpr ha), hpaths a ha, fullBackfill_find? hd ha]
      · have hnot : id ∉ runs.flatten.filterMap LegiItem.documentId? :=
          fun hm => hin (((hperm.filterMap LegiItem.documentId?).mem_iff).mp hm)
        rw [ingestRuns_find?_none rfl hnot, fullBackfill_find?_none hin]
    refine ⟨fun id => ?_, (ingestRuns_follow hruns).body_eq (fullBackfill_follow hd) hdocuments⟩
    rw [pathOf, hdocuments, pathOf]

/-- Ingestion in runs: every article ends with the first of the deepest paths
among its own and those offered along its runs, which is the result of the full
backfill exactly if that one offers the same, and is so whenever no article
waits for a later root. A backfill just after the same backfill does nothing. -/
theorem hierarchy_runs (collation : Collation) {all : List LegiItem} {runs : List (List LegiItem)}
    (hd : ItemsDistinct all) (hperm : runs.flatten.Perm all) :
    (∀ a, .article a ∈ all →
      EndsDeepest (ingestRuns collation empty runs) a (offersAlong collation a.documentId empty runs)) ∧
    (SameArticles (ingestRuns collation empty runs) (fullBackfill collation all) ↔
      ∀ a, .article a ∈ all → deepest List.length a.hierarchyPath (offersAlong collation a.documentId empty runs) =
        deepest List.length a.hierarchyPath
          ((ingested all).offeredPath collation fullScope a.documentId).toList) ∧
    (MetadataFirst runs → SameArticles (ingestRuns collation empty runs) (fullBackfill collation all)) ∧
    ∀ (s : HierarchyStore) (scope : LegiHierarchyBackfillScope),
      (s.backfill collation scope).1.backfill collation scope = ((s.backfill collation scope).1, ⟨0, 0⟩) := by
  have hruns : ItemsDistinct runs.flatten := hd.perm hperm
  refine ⟨fun a ha => ?_, sameArticles_iff hd hperm, fun hfirst => ?_, fun s scope => backfill_again collation s scope⟩
  · exact (ingestRuns_follow hruns).ends (ingestRuns_find? rfl hruns (hperm.mem_iff.mpr ha))
  · refine (sameArticles_iff hd hperm).mpr fun a ha => ?_
    rw [offersAlong_of_metadataFirst hd hperm hfirst ha]

end HierarchyStore

def sectionUid : Text := "LEGISCTA000000000001".toList

def revisedRecord : CanonicalDocument where
  documentId := "legi:LEGIARTI000000000001@2015-01-01".toList
  source := "legi".toList
  kind := "article".toList
  sourceUid := "LEGIARTI000000000001".toList
  versionGroup := none
  citation := none
  title := some "Article 1".toList
  body := "Texte".toList
  validFrom := "2015-01-01".toList
  validTo := none
  validToRaw := none
  sourceUrl := none
  sourcePayloadHash := "sha256:a1".toList
  hierarchyPath := []
  publisherEdges := [⟨"edge:1".toList, "legi:LEGIARTI000000000001@2015-01-01".toList, "LEGIARTI000000000001".toList,
    some sectionUid, none, "refers_to".toList, "publisher".toList, lienSectionTa, none, [], none, none, []⟩]
  chunks := []

/-- An article of 2015 under a section that was renamed in 2010. -/
def revisedArticle : AcceptedArticle where
  toCanonicalDocument := { revisedRecord with chunks := buildArticleChunks revisedRecord }
  chunks_built := rfl
  edges_own := by decide
  accepted := by decide

def formerSection : SectionTa :=
  ⟨"legi:SECTION_TA:1@2000-01-01".toList, some sectionUid, "Ancien".toList, some "2000-01-01".toList,
    some "2010-01-01".toList, ["Code".toList]⟩

def currentSection : SectionTa :=
  ⟨"legi:SECTION_TA:1@2010-01-01".toList, some sectionUid, "Nouveau".toList, some "2010-01-01".toList, none,
    ["Code".toList]⟩

def earlyItems : List LegiItem := [.article revisedArticle, .sectionTa formerSection]

def lateItems : List LegiItem := [.sectionTa currentSection]

theorem revisedItems_distinct : ItemsDistinct (earlyItems ++ lateItems) where
  documents := List.nodup_singleton revisedArticle.documentId
  edges a b ha hb := by
    have hpairs : ∀ e ∈ revisedArticle.publisherEdges, ∀ f ∈ revisedArticle.publisherEdges, e.edgeId = f.edgeId → e = f := by
      decide
    simp only [earlyItems, lateItems, List.cons_append, List.nil_append, List.mem_cons, LegiItem.article.injEq,
      reduceCtorEq, List.not_mem_nil, or_false] at ha hb
    rw [ha, hb]
    exact hpairs
  sections r r' hr hr' := by
    have hkeys : formerSection.metadataKey ≠ currentSection.metadataKey := by decide
    simp only [earlyItems, lateItems, List.cons_append, List.nil_append, List.mem_cons, LegiItem.sectionTa.injEq,
      reduceCtorEq, List.not_mem_nil, or_false, false_or] at hr hr'
    rcases hr with rfl | rfl <;> rcases hr' with rfl | rfl
    · exact fun _ => rfl
    · exact fun h => absurd h hkeys
    · exact fun h => absurd h.symm hkeys
    · exact fun _ => rfl
  textStructs t t' ht ht' := by simp [earlyItems, lateItems] at ht

namespace HierarchyStore

/-- The candidate of the article from one of the two sections. -/
def revisedCandidate (root : SectionTa) : HierarchyCandidate :=
  ⟨revisedArticle.toCanonicalDocument, [], root, none, 0, "edge:1".toList⟩

/-- The section that came with the article stays on it, though the full
backfill takes the one that is valid at its date. -/
theorem former_section_stays :
    (ingestRuns codePointCollation empty [earlyItems, lateItems]).pathOf revisedArticle.documentId =
        some ["Code".toList, "Ancien".toList] ∧
      (fullBackfill codePointCollation (earlyItems ++ lateItems)).pathOf revisedArticle.documentId =
        some ["Code".toList, "Nouveau".toList] := by
  have hd := revisedItems_distinct
  have hmem : LegiItem.article revisedArticle ∈ earlyItems ++ lateItems := List.mem_cons_self
  constructor
  · have hchosen : (empty.ingestAll earlyItems).chosenCandidate codePointCollation (scopeOf earlyItems)
        revisedArticle.documentId = some (revisedCandidate formerSection) :=
      chosenCandidate_of_unrivalled (by decide) rfl (by decide)
    have hoffer : runOffer codePointCollation empty earlyItems revisedArticle.documentId =
        some ["Code".toList, "Ancien".toList] := by
      have hsome : (scopeOf earlyItems).isEmpty = false := by decide
      rw [runOffer, hsome, if_neg Bool.false_ne_true, offeredPath, hchosen]
      decide
    have hholds : HoldsItems ((ingestRun codePointCollation empty earlyItems).ingestAll lateItems)
        (earlyItems ++ lateItems) :=
      (HoldsItems.empty.ingestRun (by simpa using hd.left)).ingestAll (by simpa using hd)
    have hshort : ∀ offer ∈ (runOffer codePointCollation (ingestRun codePointCollation empty earlyItems) lateItems
        revisedArticle.documentId).toList, offer.length ≤ 2 := by
      intro offer hoffer
      simp only [runOffer, Option.mem_toList] at hoffer
      split at hoffer
      · cases hoffer
      obtain ⟨c, hc, rfl⟩ := Option.map_eq_some_iff.mp hoffer
      rcases candidate_cases (chosenCandidate_document hc).2 with ⟨edge, _, root, hroot, heq⟩ | ⟨text, htext, _⟩
      · have hroot := (hholds.sections root).mp hroot
        simp only [earlyItems, lateItems, List.cons_append, List.nil_append, List.mem_cons, LegiItem.sectionTa.injEq,
          reduceCtorEq, List.not_mem_nil, or_false, false_or] at hroot
        rw [heq]
        rcases hroot with rfl | rfl <;> exact Nat.le_refl 2
      · have htext := (hholds.textStructs text).mp htext
        simp [earlyItems, lateItems] at htext
    have hfound : (ingestRuns codePointCollation empty [earlyItems, lateItems]).documents.find? revisedArticle.documentId =
        some _ := ingestRuns_find? rfl hd hmem
    rw [pathOf, hfound, Option.map_some, rebased_hierarchyPath, offersAlong, hoffer, Option.toList_some,
      List.singleton_append, deepest_cons, offersAlong, offersAlong, List.append_nil]
    exact congrArg some (deepest_eq_current hshort)
  · have hchosen : (ingested (earlyItems ++ lateItems)).chosenCandidate codePointCollation fullScope
        revisedArticle.documentId = some (revisedCandidate currentSection) :=
      chosenCandidate_of_unrivalled (by decide) rfl (by decide)
    rw [pathOf, fullBackfill_find? hd hmem, Option.map_some, rebased_hierarchyPath, offeredPath, hchosen]
    decide

/-- With the current section first, the same items end like the full backfill. -/
theorem current_section_first :
    SameArticles (ingestRuns codePointCollation empty [lateItems, earlyItems])
        (fullBackfill codePointCollation (earlyItems ++ lateItems)) ∧
      EndsDeepest (ingestRuns codePointCollation empty [lateItems, earlyItems]) revisedArticle
        (offersAlong codePointCollation revisedArticle.documentId empty [lateItems, earlyItems]) := by
  have hperm : [lateItems, earlyItems].flatten.Perm (earlyItems ++ lateItems) := List.perm_append_comm
  obtain ⟨hends, _, hfirst, _⟩ := hierarchy_runs codePointCollation revisedItems_distinct hperm
  refine ⟨hfirst ?_, hends revisedArticle List.mem_cons_self⟩
  refine List.pairwise_pair.mpr fun a ha => ?_
  simp [lateItems] at ha

end HierarchyStore

end CorpusFeed
