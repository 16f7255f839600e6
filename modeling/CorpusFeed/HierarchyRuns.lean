import CorpusFeed.HierarchyChunks

/-! Runs of ingestion, each followed by the backfill of what it ingested: the
offers an article gets along them and the record they leave. -/

namespace CorpusFeed

/-- Every article comes once, and rows with one key are one row. -/
structure ItemsDistinct (items : List LegiItem) : Prop where
  documents : (items.filterMap LegiItem.documentId?).Nodup
  edges : ∀ a b, .article a ∈ items → .article b ∈ items → ∀ e ∈ a.publisherEdges, ∀ f ∈ b.publisherEdges,
    e.edgeId = f.edgeId → e = f
  sections : ∀ r r', .sectionTa r ∈ items → .sectionTa r' ∈ items → r.metadataKey = r'.metadataKey → r = r'
  textStructs : ∀ t t', .textStruct t ∈ items → .textStruct t' ∈ items → t.metadataKey = t'.metadataKey → t = t'

section Distinct

variable {items before after : List LegiItem} {a b : AcceptedArticle}

theorem ItemsDistinct.left (h : ItemsDistinct (before ++ after)) : ItemsDistinct before where
  documents := by
    have hnodup := h.documents
    rw [List.filterMap_append] at hnodup
    exact (List.nodup_append.mp hnodup).1
  edges a b ha hb := h.edges a b (List.mem_append_left _ ha) (List.mem_append_left _ hb)
  sections r r' hr hr' := h.sections r r' (List.mem_append_left _ hr) (List.mem_append_left _ hr')
  textStructs t t' ht ht' := h.textStructs t t' (List.mem_append_left _ ht) (List.mem_append_left _ ht')

theorem ItemsDistinct.perm (h : ItemsDistinct before) (hperm : after.Perm before) : ItemsDistinct after where
  documents := ((hperm.filterMap _).nodup_iff).mpr h.documents
  edges a b ha hb := h.edges a b (hperm.mem_iff.mp ha) (hperm.mem_iff.mp hb)
  sections r r' hr hr' := h.sections r r' (hperm.mem_iff.mp hr) (hperm.mem_iff.mp hr')
  textStructs t t' ht ht' := h.textStructs t t' (hperm.mem_iff.mp ht) (hperm.mem_iff.mp ht')

theorem documentId_mem (ha : .article a ∈ items) : a.documentId ∈ items.filterMap LegiItem.documentId? :=
  List.mem_filterMap.mpr ⟨_, ha, rfl⟩

theorem article_of_documentId {id : Text} (h : id ∈ items.filterMap LegiItem.documentId?) :
    ∃ a, .article a ∈ items ∧ a.documentId = id := by
  obtain ⟨item, hitem, hid⟩ := List.mem_filterMap.mp h
  cases item with
  | article a => exact ⟨a, hitem, Option.some.inj hid⟩
  | sectionTa root => cases hid
  | textStruct root => cases hid

theorem ItemsDistinct.separate (h : ItemsDistinct (before ++ after)) (ha : .article a ∈ before) :
    a.documentId ∉ after.filterMap LegiItem.documentId? := by
  have hnodup := h.documents
  rw [List.filterMap_append] at hnodup
  exact fun hm => (List.nodup_append.mp hnodup).2.2 _ (documentId_mem ha) _ hm rfl

end Distinct

namespace HierarchyStore

variable {collation : Collation} {s : HierarchyStore} {items before : List LegiItem} {runs : List (List LegiItem)}
  {a : AcceptedArticle} {id : Text}

/-- The roots and edges of a store are those of the ingested items. -/
structure HoldsItems (s : HierarchyStore) (items : List LegiItem) : Prop where
  edges : ∀ e, e ∈ s.graphEdges ↔ ∃ a, .article a ∈ items ∧ e ∈ a.publisherEdges
  sections : ∀ r, r ∈ s.sections ↔ .sectionTa r ∈ items
  textStructs : ∀ t, t ∈ s.textStructs ↔ .textStruct t ∈ items

theorem HoldsItems.empty : HoldsItems empty [] where
  edges := by simp [HierarchyStore.empty]
  sections := by simp [HierarchyStore.empty]
  textStructs := by simp [HierarchyStore.empty]

theorem HoldsItems.ingest (h : HoldsItems s before) {item : LegiItem} (hd : ItemsDistinct (before ++ [item])) :
    HoldsItems (s.ingest item) (before ++ [item]) := by
  have hlast : item ∈ before ++ [item] := List.mem_append_right _ List.mem_cons_self
  cases item with
  | article a =>
    have hunique : ∀ e ∈ a.publisherEdges, ∀ f ∈ a.publisherEdges, e.edgeId = f.edgeId → e = f := hd.edges a a hlast hlast
    refine ⟨fun e => ?_, fun r => (h.sections r).trans (by simp), fun t => (h.textStructs t).trans (by simp)⟩
    have hmem : e ∈ (s.ingest (.article a)).graphEdges ↔
        e ∈ a.publisherEdges ∨ (e ∈ s.graphEdges ∧ e.edgeId ∉ a.publisherEdges.map CanonicalGraphEdge.edgeId) :=
      Table.mem_upsertAll_of_unique hunique
    rw [hmem, h.edges]
    constructor
    · rintro (he | ⟨⟨b, hb, he⟩, _⟩)
      · exact ⟨a, hlast, he⟩
      · exact ⟨b, List.mem_append_left _ hb, he⟩
    · rintro ⟨b, hb, he⟩
      by_cases hown : e.edgeId ∈ a.publisherEdges.map CanonicalGraphEdge.edgeId
      · obtain ⟨f, hf, hid⟩ := List.mem_map.mp hown
        rw [hd.edges b a hb hlast e he f hf hid.symm]
        exact Or.inl hf
      · rcases List.mem_append.mp hb with hb | hb
        · exact Or.inr ⟨⟨b, hb, he⟩, hown⟩
        · cases List.mem_singleton.mp hb
          exact Or.inl he
  | sectionTa root =>
    refine ⟨fun e => (h.edges e).trans (by simp), fun r => ?_, fun t => (h.textStructs t).trans (by simp)⟩
    have hmem : r ∈ (s.ingest (.sectionTa root)).sections ↔ r = root ∨ (r ∈ s.sections ∧ r.metadataKey ≠ root.metadataKey) :=
      Table.mem_upsert
    rw [hmem, h.sections, List.mem_append, List.mem_singleton, LegiItem.sectionTa.injEq]
    constructor
    · rintro (rfl | ⟨hr, _⟩)
      · exact Or.inr rfl
      · exact Or.inl hr
    · rintro (hr | rfl)
      · by_cases hkey : r.metadataKey = root.metadataKey
        · exact Or.inl (hd.sections r root (List.mem_append_left _ hr) hlast hkey)
        · exact Or.inr ⟨hr, hkey⟩
      · exact Or.inl rfl
  | textStruct root =>
    refine ⟨fun e => (h.edges e).trans (by simp), fun r => (h.sections r).trans (by simp), fun t => ?_⟩
    have hmem : t ∈ (s.ingest (.textStruct root)).textStructs ↔
        t = root ∨ (t ∈ s.textStructs ∧ t.metadataKey ≠ root.metadataKey) := Table.mem_upsert
    rw [hmem, h.textStructs, List.mem_append, List.mem_singleton, LegiItem.textStruct.injEq]
    constructor
    · rintro (rfl | ⟨ht, _⟩)
      · exact Or.inr rfl
      · exact Or.inl ht
    · rintro (ht | rfl)
      · by_cases hkey : t.metadataKey = root.metadataKey
        · exact Or.inl (hd.textStructs t root (List.mem_append_left _ ht) hlast hkey)
        · exact Or.inr ⟨ht, hkey⟩
      · exact Or.inl rfl

theorem HoldsItems.ingestAll (h : HoldsItems s before) (hd : ItemsDistinct (before ++ items)) :
    HoldsItems (s.ingestAll items) (before ++ items) := by
  induction items generalizing s before with
  | nil => exact (List.append_nil before).symm ▸ h
  | cons item items ih =>
    have hsplit : before ++ item :: items = before ++ [item] ++ items := by simp
    rw [hsplit] at hd ⊢
    exact ih (h.ingest hd.left) hd

theorem HoldsItems.backfill (h : HoldsItems s before) (scope : LegiHierarchyBackfillScope) :
    HoldsItems (s.backfill collation scope).1 before := by
  obtain ⟨hedges, hsections, htexts⟩ := backfill_roots collation s scope
  exact ⟨by rw [hedges]; exact h.edges, by rw [hsections]; exact h.sections, by rw [htexts]; exact h.textStructs⟩

theorem HoldsItems.ingestRun (h : HoldsItems s before) (hd : ItemsDistinct (before ++ items)) :
    HoldsItems (ingestRun collation s items) (before ++ items) := by
  have hall := h.ingestAll hd
  unfold HierarchyStore.ingestRun
  dsimp only
  split
  · exact hall
  · exact hall.backfill _

theorem HoldsItems.ingestRuns (h : HoldsItems s before) (hd : ItemsDistinct (before ++ runs.flatten)) :
    HoldsItems (ingestRuns collation s runs) (before ++ runs.flatten) := by
  induction runs generalizing s before with
  | nil => exact (List.append_nil before).symm ▸ h
  | cons items runs ih =>
    rw [List.flatten_cons, ← List.append_assoc] at hd ⊢
    exact ih (h.ingestRun hd.left) hd

theorem ingestAll_cons (item : LegiItem) : s.ingestAll (item :: items) = (s.ingest item).ingestAll items := rfl

theorem ingest_find?_of_ne {item : LegiItem} (h : item.documentId? ≠ some id) :
    (s.ingest item).documents.find? id = s.documents.find? id := by
  cases item with
  | article a =>
    have hne : id ≠ a.documentId := fun heq => h (congrArg some heq.symm)
    exact (Table.find?_upsert s.documents a.toCanonicalDocument id).trans (if_neg hne)
  | sectionTa root => rfl
  | textStruct root => rfl

theorem ingestAll_find?_of_not_mem (h : id ∉ items.filterMap LegiItem.documentId?) :
    (s.ingestAll items).documents.find? id = s.documents.find? id := by
  induction items generalizing s with
  | nil => rfl
  | cons item items ih =>
    have hitem : item.documentId? ≠ some id := fun heq => h (List.mem_filterMap.mpr ⟨item, List.mem_cons_self, heq⟩)
    have hrest : id ∉ items.filterMap LegiItem.documentId? := by
      intro hm
      obtain ⟨other, hother, heq⟩ := List.mem_filterMap.mp hm
      exact h (List.mem_filterMap.mpr ⟨other, List.mem_cons_of_mem item hother, heq⟩)
    rw [ingestAll_cons, ih hrest, ingest_find?_of_ne hitem]

theorem ingestAll_find?_of_mem (hd : ItemsDistinct items) (ha : .article a ∈ items) :
    (s.ingestAll items).documents.find? a.documentId = some a.toCanonicalDocument := by
  obtain ⟨first, rest, rfl⟩ := List.append_of_mem ha
  have hsplit : first ++ .article a :: rest = first ++ [.article a] ++ rest := by simp
  rw [hsplit] at hd ⊢
  have hlater := hd.separate (List.mem_append_right _ List.mem_cons_self)
  have happend : s.ingestAll (first ++ [.article a] ++ rest) = ((s.ingestAll first).ingest (.article a)).ingestAll rest := by
    simp [HierarchyStore.ingestAll, List.foldl_append]
  rw [happend, ingestAll_find?_of_not_mem hlater]
  exact (Table.find?_upsert _ _ _).trans (if_pos rfl)

/-- What a run offers to an article. -/
def runOffer (collation : Collation) (s : HierarchyStore) (items : List LegiItem) (id : Text) : Option (List Text) :=
  if (scopeOf items).isEmpty then none else (s.ingestAll items).offeredPath collation (scopeOf items) id

/-- The paths that the runs offer to an article, in order. -/
def offersAlong (collation : Collation) (id : Text) : HierarchyStore → List (List LegiItem) → List (List Text)
  | _, [] => []
  | s, items :: runs =>
    (runOffer collation s items id).toList ++ offersAlong collation id (ingestRun collation s items) runs

theorem ingestRun_find? (collation : Collation) (s : HierarchyStore) (items : List LegiItem) (id : Text) :
    (ingestRun collation s items).documents.find? id =
      ((s.ingestAll items).documents.find? id).map fun document => document.offer (runOffer collation s items id) := by
  unfold ingestRun runOffer
  dsimp only
  split
  · exact Option.map_id'.symm
  · exact backfill_find? collation _ _ id

theorem offeredPath_of_absent {scope : LegiHierarchyBackfillScope} (h : s.documents.find? id = none) :
    s.offeredPath collation scope id = none := by
  rw [offeredPath, Option.map_eq_none_iff]
  cases hc : s.chosenCandidate collation scope id with
  | none => rfl
  | some c =>
    rw [(chosenCandidate_document hc).1] at h
    cases h

theorem runOffer_of_absent (h : (s.ingestAll items).documents.find? id = none) : runOffer collation s items id = none := by
  unfold runOffer
  split
  · rfl
  · exact offeredPath_of_absent h

/-- The article with the deepest path so far takes a deeper offer. -/
theorem rebased_offer (document : CanonicalDocument) {path offer : List Text}
    (h : path = document.hierarchyPath ∨ document.hierarchyPath.length < path.length) :
    (document.rebased path).offer (some offer) = document.rebased (deepen List.length path offer) := by
  by_cases hdeeper : path.length < offer.length
  · have hstep : deepen List.length path offer = offer := if_pos hdeeper
    have hne : offer ≠ document.hierarchyPath := by
      intro heq
      rw [heq] at hdeeper
      rcases h with h | h
      · rw [h] at hdeeper
        omega
      · omega
    have hbase : (document.rebased path).withHierarchy offer = document.withHierarchy offer := by
      unfold CanonicalDocument.rebased
      split
      · rfl
      · exact withHierarchy_withHierarchy offer
    rw [hstep, CanonicalDocument.offer, rebased_hierarchyPath, if_pos hdeeper, hbase, CanonicalDocument.rebased,
      if_neg hne]
  · have hstep : deepen List.length path offer = path := if_neg hdeeper
    rw [hstep, CanonicalDocument.offer, rebased_hierarchyPath, if_neg hdeeper]

theorem rebased_offers (document : CanonicalDocument) {path : List Text} (offers : List (List Text))
    (h : path = document.hierarchyPath ∨ document.hierarchyPath.length < path.length) :
    offers.foldl (fun current offer => current.offer (some offer)) (document.rebased path) =
      document.rebased (deepest List.length path offers) := by
  induction offers generalizing path with
  | nil => rfl
  | cons offer offers ih =>
    rw [List.foldl_cons, rebased_offer document h, deepest_cons]
    refine ih ?_
    unfold deepen
    split
    · right
      rcases h with rfl | h
      · assumption
      · omega
    · exact h

/-- Runs that do not bring an article again only offer it paths. -/
theorem ingestRuns_find?_of_not_mem (h : id ∉ runs.flatten.filterMap LegiItem.documentId?) :
    (ingestRuns collation s runs).documents.find? id = (s.documents.find? id).map fun document =>
      (offersAlong collation id s runs).foldl (fun current offer => current.offer (some offer)) document := by
  induction runs generalizing s with
  | nil => exact Option.map_id'.symm
  | cons items runs ih =>
    rw [List.flatten_cons, List.filterMap_append, List.mem_append, not_or] at h
    have hnext : ingestRuns collation s (items :: runs) = ingestRuns collation (ingestRun collation s items) runs := rfl
    rw [hnext, ih h.2, ingestRun_find?, ingestAll_find?_of_not_mem h.1, Option.map_map]
    refine Option.map_congr fun document _ => ?_
    rw [offersAlong, List.foldl_append, Function.comp]
    cases runOffer collation s items id <;> rfl

/-- An article ends with the first deepest among its own path and its offers. -/
theorem ingestRuns_find? (hnew : s.documents.find? a.documentId = none) (hd : ItemsDistinct runs.flatten)
    (ha : .article a ∈ runs.flatten) :
    (ingestRuns collation s runs).documents.find? a.documentId = some (a.toCanonicalDocument.rebased
      (deepest List.length a.hierarchyPath (offersAlong collation a.documentId s runs))) := by
  induction runs generalizing s with
  | nil => cases ha
  | cons items runs ih =>
    have hnext : ingestRuns collation s (items :: runs) = ingestRuns collation (ingestRun collation s items) runs := rfl
    rw [List.flatten_cons] at hd ha
    by_cases hfirst : .article a ∈ items
    · have hstored : (s.ingestAll items).documents.find? a.documentId = some a.toCanonicalDocument :=
        ingestAll_find?_of_mem hd.left hfirst
      rw [hnext, ingestRuns_find?_of_not_mem (hd.separate hfirst), ingestRun_find?, hstored, Option.map_some,
        Option.map_some, offersAlong, ← rebased_offers _ _ (Or.inl rfl), rebased_self, List.foldl_append]
      cases runOffer collation s items a.documentId <;> rfl
    · have hrest := (List.mem_append.mp ha).resolve_left hfirst
      have hright : ItemsDistinct runs.flatten := (hd.perm List.perm_append_comm).left
      have habsent : a.documentId ∉ items.filterMap LegiItem.documentId? :=
        (hd.perm List.perm_append_comm).separate hrest
      have hstill : (s.ingestAll items).documents.find? a.documentId = none := by
        rw [ingestAll_find?_of_not_mem habsent, hnew]
      have hrun : (ingestRun collation s items).documents.find? a.documentId = none := by
        rw [ingestRun_find?, hstill, Option.map_none]
      rw [hnext, ih hrun hright hrest, offersAlong, runOffer_of_absent hstill]
      rfl

theorem ingestRuns_find?_none (hnew : s.documents.find? id = none)
    (h : id ∉ runs.flatten.filterMap LegiItem.documentId?) : (ingestRuns collation s runs).documents.find? id = none := by
  rw [ingestRuns_find?_of_not_mem h, hnew, Option.map_none]

theorem ChunksFollow.ingestAll (h : ChunksFollow s) (hd : ItemsDistinct items)
    (hnew : ∀ id ∈ items.filterMap LegiItem.documentId?, s.documents.find? id = none) :
    ChunksFollow (s.ingestAll items) := by
  induction items generalizing s with
  | nil => exact h
  | cons item items ih =>
    have hsplit : item :: items = [item] ++ items := rfl
    have hright : ItemsDistinct items := ((hsplit ▸ hd).perm List.perm_append_comm).left
    have hstep : ChunksFollow (s.ingest item) := by
      cases item with
      | article a => exact h.ingest_article (hnew _ (documentId_mem List.mem_cons_self))
      | sectionTa root => exact ⟨h.numbered, h.rows⟩
      | textStruct root => exact ⟨h.numbered, h.rows⟩
    refine ih hstep hright fun id hid => ?_
    have hne : item.documentId? ≠ some id := by
      intro heq
      have hnodup := hd.documents
      rw [List.filterMap_cons_some heq] at hnodup
      exact (List.nodup_cons.mp hnodup).1 hid
    rw [ingest_find?_of_ne hne]
    obtain ⟨other, hother, heq⟩ := List.mem_filterMap.mp hid
    exact hnew id (List.mem_filterMap.mpr ⟨other, List.mem_cons_of_mem item hother, heq⟩)

theorem ChunksFollow.ingestRuns (h : ChunksFollow s) (hd : ItemsDistinct runs.flatten)
    (hnew : ∀ id ∈ runs.flatten.filterMap LegiItem.documentId?, s.documents.find? id = none) :
    ChunksFollow (ingestRuns collation s runs) := by
  induction runs generalizing s with
  | nil => exact h
  | cons items runs ih =>
    rw [List.flatten_cons] at hd
    rw [List.flatten_cons, List.filterMap_append] at hnew
    have hall := h.ingestAll hd.left fun id hid => hnew id (List.mem_append_left _ hid)
    have hrun : ChunksFollow (ingestRun collation s items) := by
      unfold ingestRun
      dsimp only
      split
      · exact hall
      · exact hall.backfill collation _
    refine ih hrun (hd.perm List.perm_append_comm).left fun id hid => ?_
    obtain ⟨b, hb, rfl⟩ := article_of_documentId hid
    have habsent : b.documentId ∉ items.filterMap LegiItem.documentId? :=
      (hd.perm List.perm_append_comm).separate hb
    rw [ingestRun_find?, ingestAll_find?_of_not_mem habsent, hnew _ (List.mem_append_right _ hid), Option.map_none]

end HierarchyStore

end CorpusFeed
