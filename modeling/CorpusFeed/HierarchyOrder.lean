import CorpusFeed.HierarchyRuns

/-! How the order of ingestion decides the hierarchy paths: which orders give
what one full backfill over everything gives, and which do not. -/

namespace CorpusFeed

namespace HierarchyStore

variable {collation : Collation} {s s' : HierarchyStore} {scope scope' : LegiHierarchyBackfillScope}
  {c : HierarchyCandidate} {id : Text}

/-- A candidate by its origin: a direct edge, or a pairing in a `TEXTELR`. -/
theorem candidate_cases (h : c ∈ s.hierarchyCandidates scope) :
    (∃ edge ∈ s.graphEdges, ∃ root ∈ s.sections,
        c = ⟨c.document, edge.attributes, root, none, 0, edge.edgeId⟩) ∨
      ∃ text ∈ s.textStructs, ∃ index link, text.structureLinks[index]? = some link ∧ ∃ root ∈ s.sections,
        c = ⟨c.document, link.attributes, root, some (sectionLinksBefore text index), 1,
          text.metadataKey ++ ':' :: padDecimal 1 (index + 1)⟩ := by
  rcases List.mem_append.mp (mem_hierarchyCandidates.mp h).2 with h | h
  · obtain ⟨edge, hedge, _, _, root, hroot, _, _, hc⟩ := mem_directCandidates.mp h
    exact Or.inl ⟨edge, hedge, root, hroot, hc⟩
  · obtain ⟨_, text, htext, index, link, hlink, _, hc⟩ := mem_textCandidates.mp h
    obtain ⟨_, _, _, root, hroot, _, hc⟩ := mem_textCandidatesAt.mp hc
    exact Or.inr ⟨text, htext, index, link, hlink, root, hroot, hc⟩

theorem position_inj {key key' : Text} {i i' : Nat} (h : key ++ ':' :: padDecimal 1 i = key' ++ ':' :: padDecimal 1 i') :
    key = key' ∧ i = i' := by
  have hno : ∀ n, ':' ∉ padDecimal 1 n := fun n hk => absurd (isDigit_of_mem_padDecimal hk) (by decide)
  obtain ⟨hkey, hdigits⟩ := stem_suffix_unique (hno i) (hno i') h
  exact ⟨hkey, padDecimal_injective 1 hdigits⟩

/-- No two candidates tie on all keys of the query. -/
theorem candidate_tied {a b : HierarchyCandidate} (ha : a ∈ s.hierarchyCandidates scope)
    (hb : b ∈ s.hierarchyCandidates scope) (h : (candidateOrder collation).Tied a b) : a = b := by
  obtain ⟨hid, h⟩ := h.thenBy
  obtain ⟨hrank, h⟩ := h.thenBy
  obtain ⟨_, h⟩ := h.thenBy
  obtain ⟨hkey, htie⟩ := h.thenBy
  have hdocument : a.document = b.document := Table.eq_of_key_eq (mem_hierarchyCandidates.mp ha).1
    (mem_hierarchyCandidates.mp hb).1 (KeyOrder.tied_text hid)
  have hrank' := KeyOrder.tied_number hrank
  have hkey' := KeyOrder.tied_text hkey
  have htie' := KeyOrder.tied_text htie
  rcases candidate_cases ha with ⟨edge, hedge, root, hroot, ha⟩ | ⟨text, htext, index, link, hlink, root, hroot, ha⟩ <;>
    rcases candidate_cases hb with
      ⟨edge', hedge', root', hroot', hb⟩ | ⟨text', htext', index', link', hlink', root', hroot', hb⟩
  · rw [ha, hb] at hkey' htie' ⊢
    rw [hdocument, Table.eq_of_key_eq hroot hroot' hkey', Table.eq_of_key_eq hedge hedge' htie']
  · rw [ha, hb] at hrank'
    cases hrank'
  · rw [ha, hb] at hrank'
    cases hrank'
  · rw [ha, hb] at hkey' htie' ⊢
    obtain ⟨htextKey, hindex⟩ := position_inj htie'
    have hindex' : index = index' := Nat.succ.inj hindex
    have hsame := Table.eq_of_key_eq htext htext' htextKey
    subst hsame hindex'
    rw [hlink, Option.some.injEq] at hlink'
    rw [hdocument, Table.eq_of_key_eq hroot hroot' hkey', hlink']

theorem chosenCandidate_eq (collation : Collation) (s : HierarchyStore) (scope : LegiHierarchyBackfillScope) (id : Text) :
    s.chosenCandidate collation scope id =
      (((candidateOrder collation).sort (s.hierarchyCandidates scope)).find? fun c =>
          c.document.documentId == id && c.containsAnchor).or
        (((candidateOrder collation).sort (s.hierarchyCandidates scope)).find? fun c => c.document.documentId == id) := by
  simp only [chosenCandidate, selectHierarchyBackfillCandidate, ofDocument, List.find?_filter, List.head?_filter,
    orderedCandidates, Bool.decide_and, Bool.decide_eq_true]

/-- The chosen candidate depends on the candidates of the article alone. -/
theorem chosenCandidate_congr (h : ∀ c, c.document.documentId = id →
      (c ∈ s.hierarchyCandidates scope ↔ c ∈ s'.hierarchyCandidates scope')) :
    s.chosenCandidate collation scope id = s'.chosenCandidate collation scope' id := by
  have htied : ∀ a ∈ s.hierarchyCandidates scope, ∀ b ∈ s.hierarchyCandidates scope,
      (candidateOrder collation).Tied a b → a = b := fun a ha b hb ht => candidate_tied ha hb ht
  rw [chosenCandidate_eq, chosenCandidate_eq]
  congr 1
  · refine KeyOrder.find?_sort_congr (fun c hc => h c ?_) htied
    simp only [Bool.and_eq_true, beq_iff_eq] at hc
    exact hc.1
  · exact KeyOrder.find?_sort_congr (fun c hc => h c (by simpa using hc)) htied

end HierarchyStore

open HierarchyStore

/-- The article has no direct edge to a section. -/
def AcceptedArticle.Indirect (a : AcceptedArticle) : Prop :=
  ∀ edge ∈ a.publisherEdges, isDirectEdge a.toCanonicalDocument edge = false

/-- A `TEXTELR` pairs the article with the sections of a uid. -/
def AcceptedArticle.PairedBy (a : AcceptedArticle) (text : TextStruct) (uid : Text) : Prop :=
  ∃ index link, text.structureLinks[index]? = some link ∧ isArticleLink a.toCanonicalDocument link = true ∧
    pairedSection text index = some uid

/-- The article takes candidates from the sections of a uid. -/
def AcceptedArticle.Targets (a : AcceptedArticle) (items : List LegiItem) (uid : Text) : Prop :=
  (∃ edge ∈ a.publisherEdges, isDirectEdge a.toCanonicalDocument edge = true ∧ edge.toSourceUid = some uid) ∨
    (a.Indirect ∧ ∃ text, .textStruct text ∈ items ∧ a.PairedBy text uid)

/-- A root that a candidate of the article can come from, or whose text can. -/
def LegiItem.Concerns (items : List LegiItem) (a : AcceptedArticle) : LegiItem → Prop
  | .article _ => False
  | .sectionTa root => ∃ uid, root.sourceUid = some uid ∧ a.Targets items uid
  | .textStruct text => a.Indirect ∧ ∃ other uid, .textStruct other ∈ items ∧ other.sourceUid = text.sourceUid ∧
      a.PairedBy other uid

/-- No article is followed by a later run with a root that concerns it. -/
def MetadataFirst (runs : List (List LegiItem)) : Prop :=
  runs.Pairwise fun earlier later => ∀ a, .article a ∈ earlier → ∀ item ∈ later, ¬ item.Concerns runs.flatten a

theorem ItemsDistinct.article_unique {items : List LegiItem} (hd : ItemsDistinct items) {a b : AcceptedArticle}
    (ha : .article a ∈ items) (hb : .article b ∈ items) (hid : a.documentId = b.documentId) : a = b := by
  obtain ⟨first, rest, rfl⟩ := List.append_of_mem ha
  have hperm : (first ++ .article a :: rest).Perm ([.article a] ++ (first ++ rest)) := List.perm_middle
  have hother := (hd.perm hperm.symm).separate List.mem_cons_self
  rcases List.mem_append.mp (hperm.mem_iff.mp hb) with hb | hb
  · exact (LegiItem.article.inj (List.mem_singleton.mp hb)).symm
  · exact absurd (hid ▸ documentId_mem hb) hother

/-- The candidates that the edges of an article give it over a record of it. -/
def AcceptedArticle.DirectFrom (a : AcceptedArticle) (items : List LegiItem) (scope : LegiHierarchyBackfillScope)
    (document : CanonicalDocument) (c : HierarchyCandidate) : Prop :=
  ∃ edge ∈ a.publisherEdges, isDirectEdge a.toCanonicalDocument edge = true ∧
    (scope.isEmpty || scope.documentIds.contains a.documentId || edge.toSourceUid.any scope.sectionSourceUids.contains) =
      true ∧
    ∃ root uid, .sectionTa root ∈ items ∧ root.sourceUid = some uid ∧ edge.toSourceUid = some uid ∧
      c = ⟨document, edge.attributes, root, none, 0, edge.edgeId⟩

/-- The candidates that the `TEXTELR` roots give it. -/
def AcceptedArticle.TextFrom (a : AcceptedArticle) (items : List LegiItem) (scope : LegiHierarchyBackfillScope)
    (document : CanonicalDocument) (c : HierarchyCandidate) : Prop :=
  a.Indirect ∧ ∃ text, .textStruct text ∈ items ∧ ∃ index link, text.structureLinks[index]? = some link ∧
    isArticleLink a.toCanonicalDocument link = true ∧ ∃ uid, pairedSection text index = some uid ∧
      (scope.isEmpty || scope.documentIds.contains a.documentId || scope.sectionSourceUids.contains uid ||
        scope.textSourceUids.contains text.sourceUid) = true ∧
      ∃ root, .sectionTa root ∈ items ∧ root.sourceUid = some uid ∧ c = ⟨document, link.attributes, root,
        some (sectionLinksBefore text index), 1, text.metadataKey ++ ':' :: padDecimal 1 (index + 1)⟩

namespace HierarchyStore

variable {collation : Collation} {s s' : HierarchyStore} {scope scope' : LegiHierarchyBackfillScope}
  {items items' : List LegiItem} {a : AcceptedArticle} {document : CanonicalDocument} {c : HierarchyCandidate}

theorem HoldsItems.direct_edge (h : HoldsItems s items) (hd : ItemsDistinct items) (ha : .article a ∈ items)
    {edge : CanonicalGraphEdge} (hdirect : isDirectEdge a.toCanonicalDocument edge = true) :
    edge ∈ s.graphEdges ↔ edge ∈ a.publisherEdges := by
  rw [h.edges]
  constructor
  · rintro ⟨b, hb, hedge⟩
    have hfrom : edge.fromDocumentId = a.documentId := by
      simp only [isDirectEdge, Bool.and_eq_true, beq_iff_eq] at hdirect
      exact hdirect.1.1
    rwa [hd.article_unique ha hb (hfrom.symm.trans (b.edges_own edge hedge))]
  · exact fun hedge => ⟨a, ha, hedge⟩

theorem HoldsItems.mem_candidates (h : HoldsItems s items) (hd : ItemsDistinct items) (ha : .article a ∈ items)
    (hstored : s.documents.find? a.documentId = some document) (huid : document.sourceUid = a.sourceUid)
    (hc : c.document.documentId = a.documentId) :
    c ∈ s.hierarchyCandidates scope ↔ a.DirectFrom items scope document c ∨ a.TextFrom items scope document c := by
  obtain ⟨hmem, hid⟩ := Table.find?_eq_some.mp hstored
  have hdirect : isDirectEdge document = isDirectEdge a.toCanonicalDocument := by
    funext edge
    rw [isDirectEdge, hid, isDirectEdge]
  have hlink : isArticleLink document = isArticleLink a.toCanonicalDocument := by
    funext link
    rw [isArticleLink, huid, isArticleLink]
  have hindirect : (∀ edge ∈ s.graphEdges, isDirectEdge document edge = false) ↔ a.Indirect := by
    rw [hdirect]
    constructor
    · intro hno edge hedge
      exact hno edge ((h.edges edge).mpr ⟨a, ha, hedge⟩)
    · intro hno edge hedge
      by_contra he
      have he' : isDirectEdge a.toCanonicalDocument edge = true := by simpa using he
      exact he (hno edge ((h.direct_edge hd ha he').mp hedge))
  have hrecord : c ∈ s.hierarchyCandidates scope ↔ c ∈ s.documentCandidates scope document := by
    rw [mem_hierarchyCandidates]
    constructor
    · rintro ⟨hm, hcand⟩
      rwa [Table.eq_of_key_eq hm hmem (hc.trans hid.symm)] at hcand
    · intro hcand
      rw [document_of_mem hcand]
      exact ⟨hmem, hcand⟩
  rw [hrecord, documentCandidates, List.mem_append]
  refine or_congr ?_ ?_
  · rw [mem_directCandidates, AcceptedArticle.DirectFrom, hid, hdirect]
    constructor
    · rintro ⟨edge, hedge, he, hscope, root, hroot, hsome, hto, hc⟩
      obtain ⟨uid, huid⟩ := Option.isSome_iff_exists.mp hsome
      exact ⟨edge, (h.direct_edge hd ha he).mp hedge, he, hscope, root, uid, (h.sections root).mp hroot, huid,
        hto.symm.trans huid, hc⟩
    · rintro ⟨edge, hedge, he, hscope, root, uid, hroot, huid, hto, hc⟩
      exact ⟨edge, (h.direct_edge hd ha he).mpr hedge, he, hscope, root, (h.sections root).mpr hroot,
        Option.isSome_iff_exists.mpr ⟨uid, huid⟩, huid.trans hto.symm, hc⟩
  · rw [mem_textCandidates, AcceptedArticle.TextFrom, hindirect, hlink]
    simp only [mem_textCandidatesAt, hid, h.textStructs, h.sections]

/-- A scope in which every root counts for an article. -/
def Covers (scope : LegiHierarchyBackfillScope) (documentId : Text) : Prop :=
  (scope.isEmpty || scope.documentIds.contains documentId) = true

/-- Stores whose items differ only in roots that do not concern an article
choose the same candidate for it, under scopes that cover it. -/
theorem chosenCandidate_of_unconcerned (h : HoldsItems s items) (h' : HoldsItems s' items') (hd : ItemsDistinct items)
    (hsub : ∀ item ∈ items', item ∈ items) (hrest : ∀ item ∈ items, item ∈ items' ∨ ¬ item.Concerns items a)
    (ha : .article a ∈ items') (hd' : ItemsDistinct items')
    (hstored : s.documents.find? a.documentId = some document)
    (hstored' : s'.documents.find? a.documentId = some document) (huid : document.sourceUid = a.sourceUid)
    (hcovers : Covers scope a.documentId) (hcovers' : Covers scope' a.documentId) :
    s'.chosenCandidate collation scope' a.documentId = s.chosenCandidate collation scope a.documentId := by
  refine chosenCandidate_congr fun c hc => ?_
  rw [h'.mem_candidates hd' ha hstored' huid hc, h.mem_candidates hd (hsub _ ha) hstored huid hc]
  have hscope : ∀ more, (scope.isEmpty || scope.documentIds.contains a.documentId || more) = true := fun more => by
    rw [hcovers, Bool.true_or]
  have hscope' : ∀ more, (scope'.isEmpty || scope'.documentIds.contains a.documentId || more) = true := fun more => by
    rw [hcovers', Bool.true_or]
  refine or_congr ?_ ?_
  · constructor
    · rintro ⟨edge, hedge, he, _, root, uid, hroot, huid, hto, hc⟩
      exact ⟨edge, hedge, he, hscope _, root, uid, hsub _ hroot, huid, hto, hc⟩
    · rintro ⟨edge, hedge, he, _, root, uid, hroot, huid, hto, hc⟩
      have hconcerns : (LegiItem.sectionTa root).Concerns items a := ⟨uid, huid, Or.inl ⟨edge, hedge, he, hto⟩⟩
      have hroot' := (hrest _ hroot).resolve_right (not_not_intro hconcerns)
      exact ⟨edge, hedge, he, hscope' _, root, uid, hroot', huid, hto, hc⟩
  · constructor
    · rintro ⟨hindirect, text, htext, index, link, hlink, hown, uid, hpaired, _, root, hroot, huid, hc⟩
      refine ⟨hindirect, text, hsub _ htext, index, link, hlink, hown, uid, hpaired, ?_, root, hsub _ hroot, huid, hc⟩
      rw [Bool.or_assoc]
      exact hscope _
    · rintro ⟨hindirect, text, htext, index, link, hlink, hown, uid, hpaired, _, root, hroot, huid, hc⟩
      have hpair : a.PairedBy text uid := ⟨index, link, hlink, hown, hpaired⟩
      have htext' : LegiItem.textStruct text ∈ items' :=
        (hrest _ htext).resolve_right (not_not_intro ⟨hindirect, text, uid, htext, rfl, hpair⟩)
      have hroot' : LegiItem.sectionTa root ∈ items' :=
        (hrest _ hroot).resolve_right (not_not_intro ⟨uid, huid, Or.inr ⟨hindirect, text, htext, hpair⟩⟩)
      refine ⟨hindirect, text, htext', index, link, hlink, hown, uid, hpaired, ?_, root, hroot', huid, hc⟩
      rw [Bool.or_assoc]
      exact hscope' _

theorem HoldsItems.perm (h : HoldsItems s items) (hperm : items.Perm items') : HoldsItems s items' where
  edges e := (h.edges e).trans (exists_congr fun _ => and_congr_left fun _ => hperm.mem_iff)
  sections r := (h.sections r).trans hperm.mem_iff
  textStructs t := (h.textStructs t).trans hperm.mem_iff

/-- A run without the article and without a root that concerns it offers it
nothing. -/
theorem runOffer_of_unconcerned {seen all : List LegiItem} (h : HoldsItems (s.ingestAll items) seen)
    (hd : ItemsDistinct seen) (ha : .article a ∈ seen) (hall : ∀ item ∈ seen, item ∈ all)
    (hstored : (s.ingestAll items).documents.find? a.documentId = some document) (huid : document.sourceUid = a.sourceUid)
    (hother : a.documentId ∉ items.filterMap LegiItem.documentId?) (hno : ∀ item ∈ items, ¬ item.Concerns all a) :
    runOffer collation s items a.documentId = none := by
  unfold runOffer
  split
  · rfl
  next hsome =>
  have hempty : (scopeOf items).isEmpty = false := by simpa using hsome
  have hdocuments : (scopeOf items).documentIds.contains a.documentId = false := by simpa [scopeOf] using hother
  have hsection : ∀ uid, a.Targets all uid → (scopeOf items).sectionSourceUids.contains uid = false := by
    intro uid htargets
    by_contra hin
    simp only [scopeOf, Bool.not_eq_false, List.contains_iff_mem] at hin
    obtain ⟨item, hitem, hsource⟩ := List.mem_filterMap.mp hin
    cases item with
    | article b => cases hsource
    | sectionTa root => exact hno _ hitem ⟨uid, hsource, htargets⟩
    | textStruct root => cases hsource
  rw [offeredPath, Option.map_eq_none_iff]
  cases hchosen : (s.ingestAll items).chosenCandidate collation (scopeOf items) a.documentId with
  | none => rfl
  | some c =>
    exfalso
    obtain ⟨hfind, hc⟩ := chosenCandidate_document hchosen
    have hid := (Table.find?_eq_some.mp hfind).2
    rcases (h.mem_candidates hd ha hstored huid hid).mp hc with hdirect | htext
    · obtain ⟨edge, hedge, he, hscope, _, uid, _, _, hto, _⟩ := hdirect
      have houtside := hsection uid (Or.inl ⟨edge, hedge, he, hto⟩)
      rw [hempty, hdocuments, hto, Option.any_some, houtside] at hscope
      cases hscope
    · obtain ⟨hindirect, text, htext, index, link, hlink, hown, uid, hpaired, hscope, _⟩ := htext
      have hpair : a.PairedBy text uid := ⟨index, link, hlink, hown, hpaired⟩
      have houtside := hsection uid (Or.inr ⟨hindirect, text, hall _ htext, hpair⟩)
      have htextOutside : (scopeOf items).textSourceUids.contains text.sourceUid = false := by
        by_contra hin
        simp only [scopeOf, Bool.not_eq_false, List.contains_iff_mem] at hin
        obtain ⟨item, hitem, hsource⟩ := List.mem_filterMap.mp hin
        cases item with
        | article b => cases hsource
        | sectionTa root => cases hsource
        | textStruct other =>
          have hsame : text.sourceUid = other.sourceUid := (Option.some.inj hsource).symm
          exact hno _ hitem ⟨hindirect, text, uid, hall _ htext, hsame, hpair⟩
      rw [hempty, hdocuments, houtside, htextOutside] at hscope
      cases hscope

theorem offersAlong_of_unconcerned {seen all : List LegiItem} {runs : List (List LegiItem)} (h : HoldsItems s seen)
    (hd : ItemsDistinct (seen ++ runs.flatten)) (ha : .article a ∈ seen)
    (hall : ∀ item ∈ seen ++ runs.flatten, item ∈ all) (hstored : s.documents.find? a.documentId = some document)
    (huid : document.sourceUid = a.sourceUid) (hno : ∀ items ∈ runs, ∀ item ∈ items, ¬ item.Concerns all a) :
    offersAlong collation a.documentId s runs = [] := by
  induction runs generalizing s seen with
  | nil => rfl
  | cons items runs ih =>
    rw [List.flatten_cons, ← List.append_assoc] at hd hall
    have hother := hd.left.separate ha
    have hingested : (s.ingestAll items).documents.find? a.documentId = some document := by
      rw [ingestAll_find?_of_not_mem hother, hstored]
    have hsome : runOffer collation s items a.documentId = none :=
      runOffer_of_unconcerned (h.ingestAll hd.left) hd.left (List.mem_append_left _ ha)
        (fun item hitem => hall item (List.mem_append_left _ hitem)) hingested huid hother
        (hno items List.mem_cons_self)
    have hstill : (ingestRun collation s items).documents.find? a.documentId = some document := by
      rw [ingestRun_find?, hingested, hsome]
      rfl
    rw [offersAlong, hsome, ih (h.ingestRun hd.left) hd (List.mem_append_left _ ha) hall hstill
      fun later hlater => hno later (List.mem_cons_of_mem items hlater)]
    rfl

theorem offersAlong_append (id : Text) (s : HierarchyStore) (runs later : List (List LegiItem)) :
    offersAlong collation id s (runs ++ later) =
      offersAlong collation id s runs ++ offersAlong collation id (ingestRuns collation s runs) later := by
  induction runs generalizing s with
  | nil => rfl
  | cons items runs ih =>
    rw [List.cons_append, offersAlong, ih, offersAlong, List.append_assoc]
    rfl

/-- Runs before the article offer it nothing. -/
theorem offersAlong_of_absent {id : Text} {runs : List (List LegiItem)} (hnew : s.documents.find? id = none)
    (h : id ∉ runs.flatten.filterMap LegiItem.documentId?) : offersAlong collation id s runs = [] := by
  induction runs generalizing s with
  | nil => rfl
  | cons items runs ih =>
    rw [List.flatten_cons, List.filterMap_append, List.mem_append, not_or] at h
    have hingested : (s.ingestAll items).documents.find? id = none := by rw [ingestAll_find?_of_not_mem h.1, hnew]
    have hrun : (ingestRun collation s items).documents.find? id = none := by
      rw [ingestRun_find?, hingested, Option.map_none]
    rw [offersAlong, runOffer_of_absent hingested, ih hrun h.2]
    rfl

/-- All items in one store, for one full backfill. -/
def ingested (items : List LegiItem) : HierarchyStore := empty.ingestAll items

/-- With the roots that concern it first, an article gets the offer of the full
backfill in its own run, and no other. -/
theorem offersAlong_of_metadataFirst {all : List LegiItem} {runs : List (List LegiItem)} (hd : ItemsDistinct all)
    (hperm : runs.flatten.Perm all) (hfirst : MetadataFirst runs) (ha : .article a ∈ all) :
    offersAlong collation a.documentId empty runs =
      ((ingested all).offeredPath collation fullScope a.documentId).toList := by
  obtain ⟨items, hitems, ha⟩ := List.mem_flatten.mp (hperm.mem_iff.mpr ha)
  obtain ⟨before, later, rfl⟩ := List.append_of_mem hitems
  have hflat : (before ++ items :: later).flatten = before.flatten ++ items ++ later.flatten := by simp
  have hruns : ItemsDistinct (before.flatten ++ items ++ later.flatten) := hflat ▸ hd.perm hperm
  have habsent : a.documentId ∉ before.flatten.filterMap LegiItem.documentId? :=
    (hruns.left.perm List.perm_append_comm).separate ha
  have hbefore : (ingestRuns collation empty before).documents.find? a.documentId = none :=
    ingestRuns_find?_none rfl habsent
  have hholds : HoldsItems (ingestRuns collation empty before) before.flatten :=
    HoldsItems.empty.ingestRuns (by simpa using hruns.left.left)
  have hown : ItemsDistinct items := (hruns.left.perm List.perm_append_comm).left
  have hstored : ((ingestRuns collation empty before).ingestAll items).documents.find? a.documentId =
      some a.toCanonicalDocument := ingestAll_find?_of_mem hown ha
  have hall : HoldsItems (ingested all) (before.flatten ++ items ++ later.flatten) :=
    (HoldsItems.empty.ingestAll (by simpa using hd)).perm (hflat ▸ hperm).symm
  have hstoredAll : (ingested all).documents.find? a.documentId = some a.toCanonicalDocument :=
    ingestAll_find?_of_mem hd (hperm.mem_iff.mp (hflat ▸ List.mem_append_left _ (List.mem_append_right _ ha)))
  have hlater : ∀ next ∈ later, ∀ item ∈ next,
      ¬ item.Concerns (before.flatten ++ items ++ later.flatten) a := by
    intro next hnext item hitem
    have hpair := (List.pairwise_cons.mp (List.pairwise_append.mp hfirst).2.1).1 next hnext a ha item hitem
    rwa [hflat] at hpair
  have hscope : (scopeOf items).documentIds.contains a.documentId = true := by
    simpa [scopeOf] using documentId_mem ha
  have hnonempty : (scopeOf items).isEmpty = false := by
    have hne : (scopeOf items).documentIds ≠ [] := by
      intro hnil
      rw [hnil] at hscope
      cases hscope
    simp [LegiHierarchyBackfillScope.isEmpty, hne]
  have hrest : ∀ item ∈ before.flatten ++ items ++ later.flatten, item ∈ before.flatten ++ items ∨
      ¬ item.Concerns (before.flatten ++ items ++ later.flatten) a := by
    intro item hitem
    refine (List.mem_append.mp hitem).imp_right fun hl => ?_
    obtain ⟨next, hnext, hitem⟩ := List.mem_flatten.mp hl
    exact hlater next hnext item hitem
  have hcovers : Covers (scopeOf items) a.documentId := by rw [Covers, hscope, Bool.or_true]
  have hchosen : ((ingestRuns collation empty before).ingestAll items).chosenCandidate collation (scopeOf items)
        a.documentId = (ingested all).chosenCandidate collation fullScope a.documentId :=
    chosenCandidate_of_unconcerned hall (hholds.ingestAll hruns.left) hruns
      (fun item hitem => List.mem_append_left _ hitem) hrest (List.mem_append_right _ ha) hruns.left hstoredAll hstored
      rfl rfl hcovers
  have hoffer : runOffer collation (ingestRuns collation empty before) items a.documentId =
      (ingested all).offeredPath collation fullScope a.documentId := by
    rw [runOffer, hnonempty, if_neg Bool.false_ne_true, offeredPath, hchosen, offeredPath]
  have hrun : ∃ document, (ingestRun collation (ingestRuns collation empty before) items).documents.find? a.documentId =
      some document ∧ document.sourceUid = a.sourceUid :=
    ⟨_, by rw [ingestRun_find?, hstored, Option.map_some], offer_sourceUid _⟩
  obtain ⟨document, hdocument, huid⟩ := hrun
  have hnone : offersAlong collation a.documentId
      (ingestRun collation (ingestRuns collation empty before) items) later = [] :=
    offersAlong_of_unconcerned (hholds.ingestRun hruns.left) hruns (List.mem_append_right _ ha)
      (fun item hitem => hitem) hdocument huid hlater
  rw [offersAlong_append, offersAlong_of_absent rfl habsent, List.nil_append, offersAlong, hoffer, hnone,
    List.append_nil]

end HierarchyStore

end CorpusFeed
