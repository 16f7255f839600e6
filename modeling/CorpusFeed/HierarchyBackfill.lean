import CorpusFeed.HierarchyStore

/-! What one backfill does to the records: each article is offered the path of
its own chosen candidate and takes it if it is deeper. -/

namespace CorpusFeed

section Selection

variable {collation : Collation} {current rows : List HierarchyCandidate} {c : HierarchyCandidate} {d : Text}

theorem mem_of_select (h : selectHierarchyBackfillCandidate rows = some c) : c ∈ rows := by
  unfold selectHierarchyBackfillCandidate at h
  rcases Option.or_eq_some_iff.mp h with h | ⟨_, h⟩
  · exact List.mem_of_find?_eq_some h
  · exact List.mem_of_head? h

/-- The rows of one document. -/
def ofDocument (documentId : Text) (rows : List HierarchyCandidate) : List HierarchyCandidate :=
  rows.filter fun c => c.document.documentId == documentId

theorem mem_ofDocument {documentId : Text} : c ∈ ofDocument documentId rows ↔
    c ∈ rows ∧ c.document.documentId = documentId := by
  simp [ofDocument]

theorem ofDocument_append {documentId : Text} :
    ofDocument documentId (current ++ rows) = ofDocument documentId current ++ ofDocument documentId rows :=
  List.filter_append ..

theorem ofDocument_all (h : ∀ x ∈ current, x.document.documentId = d) : ofDocument d current = current :=
  List.filter_eq_self.mpr fun x hx => by simp [h x hx]

theorem ofDocument_none {documentId : Text} (h : ∀ x ∈ current, x.document.documentId ≠ documentId) :
    ofDocument documentId current = [] :=
  List.filter_eq_nil_iff.mpr fun x hx => by simp [h x hx]

/-- Induction on the rows left. The rows of the open group are all of one
document, and no later row of another document is followed by one of it. -/
theorem mem_selectHierarchyBackfillCandidates (hcurrent : ∀ x ∈ current, x.document.documentId = d)
    (hsorted : (current ++ rows).Pairwise fun a b =>
      collation.le a.document.documentId b.document.documentId = true) :
    c ∈ selectHierarchyBackfillCandidates current rows ↔
      ∃ id, selectHierarchyBackfillCandidate (ofDocument id (current ++ rows)) = some c := by
  induction rows generalizing current d with
  | nil =>
    rw [selectHierarchyBackfillCandidates, List.append_nil, Option.mem_toList]
    constructor
    · exact fun h => ⟨d, by rwa [ofDocument_all hcurrent]⟩
    · rintro ⟨id, h⟩
      have hmem := mem_ofDocument.mp (mem_of_select h)
      rwa [← hmem.2, hcurrent c hmem.1, ofDocument_all hcurrent] at h
  | cons x rows ih =>
    rw [selectHierarchyBackfillCandidates]
    split
    · next hclose =>
      obtain ⟨first, hfirst, hne⟩ := (Option.any_eq_true _ _).mp hclose
      have hmem := List.mem_of_head? hfirst
      have hd := hcurrent first hmem
      have hdx : d ≠ x.document.documentId := by simpa [hd] using hne
      obtain ⟨_, hrest, hcross⟩ := List.pairwise_append.mp hsorted
      have hlater : ∀ y ∈ x :: rows, y.document.documentId ≠ d := by
        intro y hy heq
        have hbefore := hcross first hmem x List.mem_cons_self
        rcases List.mem_cons.mp hy with rfl | hy
        · exact hdx heq.symm
        · have hafter := (List.pairwise_cons.mp hrest).1 y hy
          rw [hd] at hbefore
          rw [heq] at hafter
          exact hdx (collation.antisymm _ _ hbefore hafter)
      have hsingle : ∀ y ∈ [x], y.document.documentId = x.document.documentId := by simp
      rw [List.mem_append, Option.mem_toList, ih hsingle hrest]
      constructor
      · rintro (h | ⟨id, h⟩)
        · refine ⟨d, ?_⟩
          rwa [ofDocument_append, ofDocument_all hcurrent, ofDocument_none hlater, List.append_nil]
        · refine ⟨id, ?_⟩
          have hid := mem_ofDocument.mp (mem_of_select h)
          have hcd := hlater c hid.1
          have hnone : ofDocument id current = [] :=
            ofDocument_none fun y hy heq => hcd (hid.2.trans (heq.symm.trans (hcurrent y hy)))
          rwa [ofDocument_append, hnone]
      · rintro ⟨id, h⟩
        by_cases hid : id = d
        · subst hid
          rw [ofDocument_append, ofDocument_all hcurrent, ofDocument_none hlater, List.append_nil] at h
          exact Or.inl h
        · have hnone : ofDocument id current = [] :=
            ofDocument_none fun y hy heq => hid (heq.symm.trans (hcurrent y hy))
          rw [ofDocument_append, hnone] at h
          exact Or.inr ⟨id, h⟩
    · next hopen =>
      have hjoined : ∀ y ∈ current ++ [x], y.document.documentId = x.document.documentId := by
        intro y hy
        rcases List.mem_append.mp hy with hy | hy
        · cases current with
          | nil => cases hy
          | cons first current =>
            have hx : first.document.documentId = x.document.documentId := by simpa using hopen
            rw [hcurrent y hy, ← hcurrent first List.mem_cons_self, hx]
        · rw [List.mem_singleton.mp hy]
      have hsplit : current ++ x :: rows = current ++ [x] ++ rows := by simp
      rw [hsplit] at hsorted ⊢
      exact ih hjoined hsorted

end Selection

/-- The article takes an offered path that is strictly deeper than its own. -/
def CanonicalDocument.offer (document : CanonicalDocument) : Option (List Text) → CanonicalDocument
  | none => document
  | some path => if document.hierarchyPath.length < path.length then document.withHierarchy path else document

@[simp] theorem offer_documentId (document : CanonicalDocument) (path : Option (List Text)) :
    (document.offer path).documentId = document.documentId := by
  cases path with
  | none => rfl
  | some path =>
    simp only [CanonicalDocument.offer]
    split <;> rfl

theorem enriched_offer (candidate : HierarchyCandidate) :
    (enrichedArticleHierarchy candidate).getD candidate.document = candidate.document.offer (some candidate.path) := by
  rw [enrichedArticleHierarchy_eq]
  simp only [CanonicalDocument.offer]
  split <;> rfl

theorem enriched_eq_some {candidate : HierarchyCandidate} {update : CanonicalDocument}
    (h : enrichedArticleHierarchy candidate = some update) :
    candidate.document.hierarchyPath.length < candidate.path.length ∧
      update = candidate.document.withHierarchy candidate.path := by
  rw [enrichedArticleHierarchy_eq] at h
  split at h
  · next hdeeper => exact ⟨hdeeper, (Option.some.inj h).symm⟩
  · cases h

namespace HierarchyStore

variable {collation : Collation} {s : HierarchyStore} {scope : LegiHierarchyBackfillScope}
  {c : HierarchyCandidate} {document : CanonicalDocument} {id : Text}

theorem mem_directCandidates : c ∈ s.directCandidates scope document ↔
    ∃ edge ∈ s.graphEdges, isDirectEdge document edge = true ∧
      (scope.isEmpty || scope.documentIds.contains document.documentId ||
        edge.toSourceUid.any scope.sectionSourceUids.contains) = true ∧
      ∃ root ∈ s.sections, root.sourceUid.isSome = true ∧ root.sourceUid = edge.toSourceUid ∧
        c = ⟨document, edge.attributes, root, none, 0, edge.edgeId⟩ := by
  simp only [directCandidates, List.mem_flatMap, List.mem_filter, sectionsOf, Table.mem_rows]
  constructor
  · rintro ⟨edge, ⟨hedge, hdirect⟩, hc⟩
    split at hc
    · next hscope =>
      obtain ⟨root, hroot, rfl⟩ := List.mem_map.mp hc
      obtain ⟨hroot, huid⟩ := List.mem_filter.mp hroot
      simp only [Bool.and_eq_true, beq_iff_eq] at huid
      exact ⟨edge, hedge, hdirect, hscope, root, hroot, huid.1, huid.2, rfl⟩
    · cases hc
  · rintro ⟨edge, hedge, hdirect, hscope, root, hroot, hsome, huid, rfl⟩
    refine ⟨edge, ⟨hedge, hdirect⟩, ?_⟩
    rw [if_pos hscope]
    exact List.mem_map.mpr ⟨root, List.mem_filter.mpr ⟨hroot, by simp [← huid, hsome]⟩, rfl⟩

theorem mem_textCandidatesAt {text : TextStruct} {link : TextStructLink} {index : Nat} :
    c ∈ s.textCandidatesAt scope document text link index ↔
      ∃ uid, pairedSection text index = some uid ∧
        (scope.isEmpty || scope.documentIds.contains document.documentId || scope.sectionSourceUids.contains uid ||
          scope.textSourceUids.contains text.sourceUid) = true ∧
        ∃ root ∈ s.sections, root.sourceUid = some uid ∧ c = ⟨document, link.attributes, root,
          some (sectionLinksBefore text index), 1, text.metadataKey ++ ':' :: padDecimal 1 (index + 1)⟩ := by
  unfold textCandidatesAt
  constructor
  · intro hc
    split at hc
    · cases hc
    next uid hpaired =>
    split at hc
    · next hscope =>
      obtain ⟨root, hroot, rfl⟩ := List.mem_map.mp hc
      obtain ⟨hroot, huid⟩ := List.mem_filter.mp hroot
      simp only [Bool.and_eq_true, beq_iff_eq] at huid
      exact ⟨uid, hpaired, hscope, root, hroot, huid.2, rfl⟩
    · cases hc
  · rintro ⟨uid, hpaired, hscope, root, hroot, huid, rfl⟩
    rw [hpaired]
    dsimp only
    rw [if_pos hscope]
    exact List.mem_map.mpr ⟨root, List.mem_filter.mpr ⟨hroot, by simp [huid]⟩, rfl⟩

theorem mem_textCandidates : c ∈ s.textCandidates scope document ↔
    (∀ edge ∈ s.graphEdges, isDirectEdge document edge = false) ∧
      ∃ text ∈ s.textStructs, ∃ index link, text.structureLinks[index]? = some link ∧
        isArticleLink document link = true ∧ c ∈ s.textCandidatesAt scope document text link index := by
  unfold textCandidates
  split
  · next hdirect =>
    obtain ⟨edge, hedge, he⟩ := List.any_eq_true.mp hdirect
    constructor
    · exact fun h => nomatch h
    · rintro ⟨hno, _⟩
      rw [hno edge hedge] at he
      cases he
  · next hdirect =>
    have hno : ∀ edge ∈ s.graphEdges, isDirectEdge document edge = false := by
      intro edge hedge
      by_contra he
      exact hdirect (List.any_eq_true.mpr ⟨edge, hedge, by simpa using he⟩)
    simp only [List.mem_flatMap, List.mem_filter, List.mem_zipIdx_iff_getElem?, Table.mem_rows]
    constructor
    · rintro ⟨text, htext, entry, ⟨hentry, hlink⟩, hc⟩
      exact ⟨hno, text, htext, entry.2, entry.1, hentry, hlink, hc⟩
    · rintro ⟨_, text, htext, index, link, hentry, hlink, hc⟩
      exact ⟨text, htext, (link, index), ⟨hentry, hlink⟩, hc⟩

theorem document_of_mem (h : c ∈ s.documentCandidates scope document) : c.document = document := by
  rcases List.mem_append.mp h with h | h
  · obtain ⟨_, _, _, _, _, _, _, _, rfl⟩ := mem_directCandidates.mp h
    rfl
  · obtain ⟨_, _, _, _, _, _, _, h⟩ := mem_textCandidates.mp h
    obtain ⟨_, _, _, _, _, _, rfl⟩ := mem_textCandidatesAt.mp h
    rfl

theorem mem_hierarchyCandidates : c ∈ s.hierarchyCandidates scope ↔
    c.document ∈ s.documents ∧ c ∈ s.documentCandidates scope c.document := by
  simp only [hierarchyCandidates, List.mem_flatMap, Table.mem_rows]
  constructor
  · rintro ⟨document, hdocument, hc⟩
    have hd := document_of_mem hc
    exact ⟨hd ▸ hdocument, hd ▸ hc⟩
  · rintro ⟨hdocument, hc⟩
    exact ⟨c.document, hdocument, hc⟩

theorem mem_orderedCandidates : c ∈ s.orderedCandidates collation scope ↔ c ∈ s.hierarchyCandidates scope :=
  KeyOrder.mem_sort

theorem orderedCandidates_sorted (collation : Collation) (s : HierarchyStore) (scope : LegiHierarchyBackfillScope) :
    (s.orderedCandidates collation scope).Pairwise fun a b =>
      collation.le a.document.documentId b.document.documentId = true := by
  refine ((candidateOrder collation).sort_pairwise _).imp fun {a b} h => ?_
  exact (Bool.and_eq_true _ _).mp h |>.1

/-- The candidate that the backfill chooses for an article. -/
def chosenCandidate (collation : Collation) (s : HierarchyStore) (scope : LegiHierarchyBackfillScope) (id : Text) :
    Option HierarchyCandidate :=
  selectHierarchyBackfillCandidate (ofDocument id (s.orderedCandidates collation scope))

def offeredPath (collation : Collation) (s : HierarchyStore) (scope : LegiHierarchyBackfillScope) (id : Text) :
    Option (List Text) :=
  (s.chosenCandidate collation scope id).map HierarchyCandidate.path

theorem chosenCandidate_document (h : s.chosenCandidate collation scope id = some c) :
    s.documents.find? id = some c.document ∧ c ∈ s.hierarchyCandidates scope := by
  obtain ⟨hmem, hid⟩ := mem_ofDocument.mp (mem_of_select h)
  have hc := mem_orderedCandidates.mp hmem
  exact ⟨Table.find?_eq_some.mpr ⟨(mem_hierarchyCandidates.mp hc).1, hid⟩, hc⟩

theorem mem_chosen (collation : Collation) (s : HierarchyStore) (scope : LegiHierarchyBackfillScope)
    (c : HierarchyCandidate) :
    c ∈ selectHierarchyBackfillCandidates [] (s.orderedCandidates collation scope) ↔
      s.chosenCandidate collation scope c.document.documentId = some c := by
  have hnone : ∀ x ∈ ([] : List HierarchyCandidate), x.document.documentId = [] := by simp
  have hsorted : ([] ++ s.orderedCandidates collation scope).Pairwise fun a b : HierarchyCandidate =>
      collation.le a.document.documentId b.document.documentId = true := orderedCandidates_sorted collation s scope
  rw [mem_selectHierarchyBackfillCandidates hnone hsorted, List.nil_append]
  constructor
  · rintro ⟨id, h⟩
    have hid := (mem_ofDocument.mp (mem_of_select h)).2
    rwa [← hid] at h
  · exact fun h => ⟨_, h⟩

theorem mem_hierarchyUpdates {update : CanonicalDocument} : update ∈ s.hierarchyUpdates collation scope ↔
    ∃ c, s.chosenCandidate collation scope update.documentId = some c ∧
      enrichedArticleHierarchy c = some update := by
  simp only [hierarchyUpdates, List.mem_filterMap, mem_chosen]
  constructor
  · rintro ⟨c, hc, hu⟩
    obtain ⟨_, rfl⟩ := enriched_eq_some hu
    exact ⟨c, hc, hu⟩
  · rintro ⟨c, hc, hu⟩
    obtain ⟨_, rfl⟩ := enriched_eq_some hu
    exact ⟨c, hc, hu⟩

theorem applyUpdates_rows (s : HierarchyStore) (invalidated : Nat) (updates : List CanonicalDocument) :
    (s.applyUpdates invalidated updates).1.documents.rows = s.documents.rows.map fun document =>
      ((updates.filter fun update => update.documentId == document.documentId).getLast?).getD document := by
  induction updates generalizing s invalidated with
  | nil => simp [applyUpdates]
  | cons update updates ih =>
    have hrows : (s.applyUpdate update).documents.rows = s.documents.rows.map fun document =>
        if document.documentId == update.documentId then updateDocument update document else document := rfl
    rw [applyUpdates, ih, hrows, List.map_map]
    refine List.map_congr_left fun document _ => ?_
    by_cases hu : update.documentId = document.documentId
    · have hsame : updateDocument update document = update := by rw [updateDocument, ← hu]
      simp [hu, hsame, List.getLast?_cons]
    · simp [hu, Ne.symm hu]

theorem lastUpdate_eq_offer (hd : document ∈ s.documents) :
    (((s.hierarchyUpdates collation scope).filter fun update =>
        update.documentId == document.documentId).getLast?).getD document =
      document.offer (s.offeredPath collation scope document.documentId) := by
  have hrow : s.documents.find? document.documentId = some document := Table.find?_eq_some.mpr ⟨hd, rfl⟩
  cases hlast : ((s.hierarchyUpdates collation scope).filter fun update =>
      update.documentId == document.documentId).getLast? with
  | none =>
    have hnone := List.getLast?_eq_none_iff.mp hlast
    rw [Option.getD_none]
    cases hc : s.chosenCandidate collation scope document.documentId with
    | none => simp [offeredPath, hc, CanonicalDocument.offer]
    | some c =>
      obtain ⟨hfind, _⟩ := chosenCandidate_document hc
      rw [hrow, Option.some.injEq] at hfind
      have hoffer := enriched_offer c
      cases he : enrichedArticleHierarchy c with
      | none => simpa [offeredPath, hc, he, ← hfind] using hoffer
      | some update =>
        exfalso
        obtain ⟨_, hupdate⟩ := enriched_eq_some he
        have hid : update.documentId = document.documentId := by rw [hupdate, withHierarchy_documentId, ← hfind]
        have hmem : update ∈ s.hierarchyUpdates collation scope := mem_hierarchyUpdates.mpr ⟨c, by rw [hid, hc], he⟩
        have hin := List.filter_eq_nil_iff.mp hnone update hmem
        simp [hid] at hin
  | some update =>
    obtain ⟨hmem, hid⟩ := List.mem_filter.mp (List.mem_of_getLast? hlast)
    rw [beq_iff_eq] at hid
    obtain ⟨c, hc, he⟩ := mem_hierarchyUpdates.mp hmem
    rw [hid] at hc
    obtain ⟨hfind, _⟩ := chosenCandidate_document hc
    rw [hrow, Option.some.injEq] at hfind
    have hoffer := enriched_offer c
    simpa [offeredPath, hc, he, ← hfind] using hoffer

/-- A backfill offers each article its path. -/
theorem backfill_rows (collation : Collation) (s : HierarchyStore) (scope : LegiHierarchyBackfillScope) :
    (s.backfill collation scope).1.documents.rows = s.documents.rows.map fun document =>
      document.offer (s.offeredPath collation scope document.documentId) := by
  refine (applyUpdates_rows s 0 (s.hierarchyUpdates collation scope)).trans ?_
  exact List.map_congr_left fun document hd => lastUpdate_eq_offer hd

theorem backfill_find? (collation : Collation) (s : HierarchyStore) (scope : LegiHierarchyBackfillScope) (id : Text) :
    (s.backfill collation scope).1.documents.find? id =
      (s.documents.find? id).map fun document => document.offer (s.offeredPath collation scope id) := by
  simp only [Table.find?, backfill_rows, List.find?_map, Function.comp_def, offer_documentId]
  refine Option.map_congr fun document hd => ?_
  have hid : document.documentId = id := by simpa using List.find?_some hd
  rw [hid]

theorem applyUpdates_roots (s : HierarchyStore) (invalidated : Nat) (updates : List CanonicalDocument) :
    (s.applyUpdates invalidated updates).1.graphEdges = s.graphEdges ∧
      (s.applyUpdates invalidated updates).1.sections = s.sections ∧
      (s.applyUpdates invalidated updates).1.textStructs = s.textStructs := by
  induction updates generalizing s invalidated with
  | nil => exact ⟨rfl, rfl, rfl⟩
  | cons update updates ih => exact ih (s.applyUpdate update) _

theorem backfill_roots (collation : Collation) (s : HierarchyStore) (scope : LegiHierarchyBackfillScope) :
    (s.backfill collation scope).1.graphEdges = s.graphEdges ∧
      (s.backfill collation scope).1.sections = s.sections ∧
      (s.backfill collation scope).1.textStructs = s.textStructs :=
  applyUpdates_roots s 0 _

end HierarchyStore

section Again

variable {path : Option (List Text)} {rows : List HierarchyCandidate}

@[simp] theorem offer_sourceUid (document : CanonicalDocument) : (document.offer path).sourceUid = document.sourceUid := by
  cases path with
  | none => rfl
  | some path =>
    simp only [CanonicalDocument.offer]
    split <;> rfl

@[simp] theorem offer_validFrom (document : CanonicalDocument) : (document.offer path).validFrom = document.validFrom := by
  cases path with
  | none => rfl
  | some path =>
    simp only [CanonicalDocument.offer]
    split <;> rfl

/-- An article that took its offer does not take it again. -/
theorem not_deeper_of_offer (document : CanonicalDocument) (path : List Text) :
    ¬ (document.offer (some path)).hierarchyPath.length < path.length := by
  simp only [CanonicalDocument.offer]
  split
  · simp
  · assumption

/-- The candidate over the record that an offer leaves. -/
def HierarchyCandidate.reoffered (offers : Text → Option (List Text)) (c : HierarchyCandidate) : HierarchyCandidate :=
  { c with document := c.document.offer (offers c.document.documentId) }

variable {offers : Text → Option (List Text)}

theorem reoffered_containsAnchor (c : HierarchyCandidate) :
    (c.reoffered offers).containsAnchor = c.containsAnchor := by
  simp [HierarchyCandidate.containsAnchor, HierarchyCandidate.reoffered]

theorem select_reoffered : selectHierarchyBackfillCandidate (rows.map (HierarchyCandidate.reoffered offers)) =
    (selectHierarchyBackfillCandidate rows).map (HierarchyCandidate.reoffered offers) := by
  have hfind : (rows.map (HierarchyCandidate.reoffered offers)).find? HierarchyCandidate.containsAnchor =
      (rows.find? HierarchyCandidate.containsAnchor).map (HierarchyCandidate.reoffered offers) := by
    rw [List.find?_map]
    congr 2
    exact funext reoffered_containsAnchor
  rw [selectHierarchyBackfillCandidate, hfind, List.head?_map, selectHierarchyBackfillCandidate, Option.map_or]

theorem selectAll_reoffered (offers : Text → Option (List Text)) (current rows : List HierarchyCandidate) :
    selectHierarchyBackfillCandidates (current.map (HierarchyCandidate.reoffered offers))
      (rows.map (HierarchyCandidate.reoffered offers)) =
    (selectHierarchyBackfillCandidates current rows).map (HierarchyCandidate.reoffered offers) := by
  induction rows generalizing current with
  | nil => simp [selectHierarchyBackfillCandidates, select_reoffered, Option.toList_map]
  | cons c rows ih =>
    have hsame : ((current.map (HierarchyCandidate.reoffered offers)).head?.any fun first =>
          first.document.documentId != (c.reoffered offers).document.documentId) =
        current.head?.any fun first => first.document.documentId != c.document.documentId := by
      cases current with
      | nil => rfl
      | cons first current => simp [HierarchyCandidate.reoffered]
    have hone := ih [c]
    have hjoined := ih (current ++ [c])
    rw [List.map_cons, selectHierarchyBackfillCandidates, hsame, selectHierarchyBackfillCandidates]
    split
    · rw [List.map_append, ← hone, select_reoffered, Option.toList_map]
      rfl
    · rw [← hjoined, List.map_append]
      rfl

namespace HierarchyStore

variable {collation : Collation} {s s' : HierarchyStore} {scope : LegiHierarchyBackfillScope}

theorem documentCandidates_reoffered (hedges : s'.graphEdges = s.graphEdges) (hsections : s'.sections = s.sections)
    (htexts : s'.textStructs = s.textStructs) (document : CanonicalDocument) :
    s'.documentCandidates scope (document.offer (offers document.documentId)) =
      (s.documentCandidates scope document).map (HierarchyCandidate.reoffered offers) := by
  have hdirect : isDirectEdge (document.offer (offers document.documentId)) = isDirectEdge document := by
    funext edge
    simp [isDirectEdge]
  have hlink : isArticleLink (document.offer (offers document.documentId)) = isArticleLink document := by
    funext link
    simp [isArticleLink]
  have hof : ∀ uid, s'.sectionsOf uid = s.sectionsOf uid := fun uid => by rw [sectionsOf, hsections, sectionsOf]
  simp only [documentCandidates, List.map_append]
  congr 1
  · simp only [directCandidates, hedges, hdirect, hof, offer_documentId, List.map_flatMap]
    congr 1
    funext edge
    split
    · simp [HierarchyCandidate.reoffered, Function.comp_def]
    · rfl
  · simp only [textCandidates, hedges, hdirect, htexts, hlink]
    split
    · rfl
    · simp only [List.map_flatMap, textCandidatesAt, hof, offer_documentId]
      congr 1
      funext text
      congr 1
      funext entry
      split
      · rfl
      · split
        · simp [HierarchyCandidate.reoffered, Function.comp_def]
        · rfl

theorem orderedCandidates_reoffered (collation : Collation) (scope : LegiHierarchyBackfillScope)
    (hrows : s'.documents.rows = s.documents.rows.map fun document =>
      document.offer (offers document.documentId)) (hedges : s'.graphEdges = s.graphEdges)
    (hsections : s'.sections = s.sections) (htexts : s'.textStructs = s.textStructs) :
    s'.orderedCandidates collation scope =
      (s.orderedCandidates collation scope).map (HierarchyCandidate.reoffered offers) := by
  have hcandidates : s'.hierarchyCandidates scope =
      (s.hierarchyCandidates scope).map (HierarchyCandidate.reoffered offers) := by
    rw [hierarchyCandidates, hrows, List.flatMap_map, hierarchyCandidates, List.map_flatMap]
    congr 1
    funext document
    exact documentCandidates_reoffered hedges hsections htexts document
  rw [orderedCandidates, hcandidates]
  refine (List.map_mergeSort fun a _ b _ => ?_).symm
  simp [candidateOrder, KeyOrder.thenBy, KeyOrder.on, HierarchyCandidate.reoffered]

/-- A backfill directly after another one of the same scope finds nothing to do. -/
theorem backfill_again (collation : Collation) (s : HierarchyStore) (scope : LegiHierarchyBackfillScope) :
    (s.backfill collation scope).1.backfill collation scope = ((s.backfill collation scope).1, ⟨0, 0⟩) := by
  obtain ⟨hedges, hsections, htexts⟩ := backfill_roots collation s scope
  have hordered := orderedCandidates_reoffered collation scope (backfill_rows collation s scope) hedges hsections
    htexts
  have hselected := selectAll_reoffered (s.offeredPath collation scope) [] (s.orderedCandidates collation scope)
  have hupdates : (s.backfill collation scope).1.hierarchyUpdates collation scope = [] := by
    rw [hierarchyUpdates, hordered]
    refine (congrArg (List.filterMap enrichedArticleHierarchy) hselected).trans ?_
    rw [List.filterMap_map, List.filterMap_eq_nil_iff]
    intro c hc
    have hchosen := (mem_chosen collation s scope c).mp hc
    have hoffered : s.offeredPath collation scope c.document.documentId = some c.path := by
      rw [offeredPath, hchosen, Option.map_some]
    have hdone := not_deeper_of_offer c.document c.path
    rw [Function.comp, enrichedArticleHierarchy_eq, if_neg]
    rw [HierarchyCandidate.reoffered, hoffered]
    exact hdone
  rw [backfill, hupdates]
  rfl

end HierarchyStore

end Again

end CorpusFeed
