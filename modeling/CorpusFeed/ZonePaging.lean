import CorpusFeed.HybridPaging
import CorpusFeed.ZoneSearch
import Mathlib.Data.List.Perm.Subperm

/-! A zone search is the ranked search of a corpus that holds the units in scope and
nothing else, and its pages are followed like those of that search. -/

namespace CorpusFeed

namespace ZoneQuery

variable {db : ZoneDatabase} {query : ZoneQuery} {units : List ZoneUnit}

/-- A unit as a chunk. -/
def view (db : ZoneDatabase) (query : ZoneQuery) (units : List ZoneUnit) (unit : ZoneUnit) : CorpusChunk :=
  ⟨unit.zoneUnitId, unit.document.documentId, db.lexicalScore units unit, unit.distance query.embeddingFingerprint, true⟩

/-- The corpus of the units in scope. -/
def scopedChunks (db : ZoneDatabase) (query : ZoneQuery) (units : List ZoneUnit) : List CorpusChunk :=
  (units.filter (query.inScope db)).map (query.view db units)

def request (query : ZoneQuery) : SearchRequest :=
  ⟨.document, query.retrievalMode, query.topK, query.lexicalWeight, query.denseWeight⟩

section View

variable (hids : (units.map ZoneUnit.zoneUnitId).Nodup)

include hids

theorem view_inj {a b : ZoneUnit} (ha : a ∈ units) (hb : b ∈ units)
    (h : query.view db units a = query.view db units b) : a = b := by
  apply List.inj_on_of_nodup_map hids ha hb
  exact congrArg CorpusChunk.chunkId h

theorem mem_map_view {arm : List ZoneUnit} {unit : ZoneUnit} (harm : ∀ other ∈ arm, other ∈ units)
    (hunit : unit ∈ units) : query.view db units unit ∈ arm.map (query.view db units) ↔ unit ∈ arm := by
  constructor
  · intro h
    obtain ⟨other, hother, heq⟩ := List.mem_map.mp h
    rwa [← view_inj hids (harm other hother) hunit heq]
  · exact List.mem_map_of_mem

theorem rankIn_view {arm : List ZoneUnit} {unit : ZoneUnit} (harm : ∀ other ∈ arm, other ∈ units)
    (hunit : unit ∈ units) : rankIn (arm.map (query.view db units)) (query.view db units unit) = unitRank arm unit := by
  rw [rankIn, unitRank]
  congr 1
  induction arm with
  | nil => rfl
  | cons first arm ih =>
    have hrest := ih fun other hother => harm other (List.mem_cons_of_mem first hother)
    rw [List.map_cons, List.idxOf?_cons, List.idxOf?_cons, hrest]
    by_cases hfirst : first = unit
    · rw [hfirst, beq_self_eq_true, beq_self_eq_true]
    · have hview : query.view db units first ≠ query.view db units unit :=
        fun h => hfirst (view_inj hids (harm first List.mem_cons_self) hunit h)
      rw [beq_eq_false_iff_ne.mpr hfirst, beq_eq_false_iff_ne.mpr hview]

end View

theorem filter_scoped {p : ZoneUnit → Bool} {q : CorpusChunk → Bool}
    (h : ∀ unit, q (query.view db units unit) = p unit) :
    (scopedChunks db query units).filter q =
      (units.filter fun unit => p unit && query.inScope db unit).map (query.view db units) := by
  rw [scopedChunks, List.filter_map, List.filter_filter]
  congr 1
  apply List.filter_congr
  intro unit _
  rw [Function.comp, h]

theorem lexical_view (htop : 0 < query.topK) : (query.lexical db units).map (query.view db units) =
    lexicalPool db.collation query.request (scopedChunks db query units) := by
  have hlimit : max query.lexicalLimit 1 = query.request.lexicalLimit := by
    show max (min (query.topK * 20) u32Max) 1 = min (query.topK * 20) u32Max
    have hmax : u32Max = 4294967295 := rfl
    omega
  have hfilter := @filter_scoped db query units (fun unit => (db.lexicalScore units unit).isSome)
    (fun chunk => chunk.lexicalScore.isSome && chunk.inScope) fun unit => Bool.and_true _
  rw [lexicalPool, hfilter, lexical, List.map_take, hlimit]
  congr 1
  exact List.map_insertionSort (unitLe db units) (lexicalLe db.collation) (query.view db units) _ fun a _ b _ => Iff.rfl

theorem fused_eq (lexicalRank denseRank : Option ℕ) :
    query.fused lexicalRank denseRank = fusedScore query.request lexicalRank denseRank := by
  have hmode : query.request.retrievalMode = query.retrievalMode := rfl
  rw [fused, fusedScore, hmode]
  cases query.retrievalMode with
  | _ => rfl

/-- The order by distance, of chunks. -/
def Scan.order (scan : Scan db query units) : DistanceOrder (scopedChunks db query units) where
  rows := scan.rows.map (query.view db units)
  perm := by
    rw [@filter_scoped db query units (fun unit => (unit.distance query.embeddingFingerprint).isSome) _ fun unit => rfl]
    exact scan.perm.map _
  sorted := List.pairwise_map.mpr scan.sorted

def Ties.chunkTies (ties : Ties db query units) : TieBreak (scopedChunks db query units) :=
  ⟨ties.numbering.order, ties.cut.order⟩

section Rows

variable (hids : (units.map ZoneUnit.zoneUnitId).Nodup)

theorem Scan.subset (scan : Scan db query units) : ∀ unit ∈ scan.rows, unit ∈ units ∧ query.embedded db unit = true :=
  fun _ hunit => List.mem_filter.mp (scan.perm.mem_iff.mp hunit)

theorem lexical_subset : ∀ unit ∈ query.lexical db units, unit ∈ units ∧ query.matching db units unit = true :=
  fun _ hunit => List.mem_filter.mp ((List.mem_insertionSort _).mp (List.mem_of_mem_take hunit))

theorem dense_subset {ties : Ties db query units} :
    ∀ unit ∈ query.dense db ties, unit ∈ units ∧ query.embedded db unit = true := by
  intro unit hunit
  have hnumbered := List.mem_of_mem_take (List.mem_of_mem_take hunit)
  exact ties.numbering.subset unit (List.mem_filter.mp hnumbered).1

include hids

theorem Scan.nodup (scan : Scan db query units) : scan.rows.Nodup :=
  scan.perm.nodup_iff.mpr (hids.of_map.filter _)

/-- The second limit on the pool keeps what the first one kept. -/
theorem densePool_eq (ties : Ties db query units) : query.densePool db ties =
    ties.numbering.rows.filter fun unit => decide (unit ∈ ties.cut.rows.take query.densePoolLimit) := by
  apply List.take_of_length_le
  have hsub : (ties.numbering.rows.filter fun unit => decide (unit ∈ ties.cut.rows.take query.densePoolLimit)).Subperm
      (ties.cut.rows.take query.densePoolLimit) := by
    apply List.subperm_of_subset ((ties.numbering.nodup hids).filter _)
    intro unit hunit
    exact of_decide_eq_true (List.mem_filter.mp hunit).2
  exact hsub.length_le.trans (List.length_take_le _ _)

theorem dense_view (htop : 0 < query.topK) (ties : Ties db query units) : (query.dense db ties).map (query.view db units) =
    CorpusFeed.densePool query.request ties.chunkTies := by
  have hdense : max query.denseLimit 1 = query.request.denseLimit := by
    show max (min (query.topK * 20) u32Max) 1 = min (query.topK * 20) u32Max
    have hmax : u32Max = 4294967295 := rfl
    omega
  have hpool : query.densePoolLimit = CorpusFeed.densePoolLimit query.request.denseLimit := by
    rw [densePoolLimit, hdense]
    show max (min (min (query.topK * 20) u32Max * 4) u32Max) 1 =
      max (min (min (query.topK * 20) u32Max * 4) u32Max) (min (query.topK * 20) u32Max)
    have hmax : u32Max = 4294967295 := rfl
    omega
  have hcut : ∀ unit ∈ ties.cut.rows.take query.densePoolLimit, unit ∈ units :=
    fun unit hunit => (ties.cut.subset unit (List.mem_of_mem_take hunit)).1
  have hscope : ∀ chunk ∈ ties.numbering.rows.map (query.view db units), chunk.inScope = true := by
    intro chunk hchunk
    obtain ⟨unit, _, rfl⟩ := List.mem_map.mp hchunk
    rfl
  rw [dense, densePool_eq hids, CorpusFeed.densePool, List.map_take, hdense, ← hpool]
  congr 1
  have hnumbering : ties.chunkTies.numbering.rows = ties.numbering.rows.map (query.view db units) := rfl
  have hcutRows : ties.chunkTies.cut.rows = ties.cut.rows.map (query.view db units) := rfl
  rw [hnumbering, hcutRows, List.filter_eq_self.mpr fun chunk hchunk => hscope chunk (List.mem_filter.mp hchunk).1,
    List.filter_map, ← List.map_take]
  congr 1
  apply List.filter_congr
  intro unit hunit
  exact decide_eq_decide.mpr (mem_map_view hids hcut (ties.numbering.subset unit hunit).1).symm

theorem rankedUnits_view {lexical dense : List ZoneUnit} (hlexical : ∀ unit ∈ lexical, unit ∈ units)
    (hdense : ∀ unit ∈ dense, unit ∈ units) : (query.rankedUnits lexical dense).map (query.view db units) =
      pooled query.request (lexical.map (query.view db units)) (dense.map (query.view db units)) := by
  have hmode : query.request.retrievalMode = query.retrievalMode := rfl
  rw [rankedUnits, pooled, hmode]
  cases query.retrievalMode with
  | bm25 => rfl
  | dense => rfl
  | hybrid =>
    show (lexical ++ _).map (query.view db units) = _ ++ _
    rw [List.map_append, List.filter_map]
    congr 2
    apply List.filter_congr
    intro unit hunit
    exact decide_eq_decide.mpr (not_congr (mem_map_view hids hlexical (hdense unit hunit)).symm)

theorem scored_view (htop : 0 < query.topK) (ties : Ties db query units) :
    query.scored db ties = rankedRows db.collation query.request ties.chunkTies := by
  have hlexical : ∀ unit ∈ query.lexical db units, unit ∈ units := fun unit hunit => (lexical_subset unit hunit).1
  have hdense : ∀ unit ∈ query.dense db ties, unit ∈ units := fun unit hunit => (dense_subset unit hunit).1
  rw [scored, rankedRows, ← lexical_view htop, ← dense_view hids htop, ← rankedUnits_view hids hlexical hdense,
    List.map_map]
  apply List.map_congr_left
  intro unit hunit
  have hmem : unit ∈ units := by
    rw [rankedUnits] at hunit
    split at hunit
    · exact hlexical unit hunit
    · exact hdense unit hunit
    · rcases List.mem_append.mp hunit with hunit | hunit
      · exact hlexical unit hunit
      · exact hdense unit (List.mem_filter.mp hunit).1
  rw [Function.comp, rankedRow, scoredRow, rankIn_view hids hlexical hmem, rankIn_view hids hdense hmem, fused_eq]
  rfl

/-- A zone search is the search of the corpus of the units in scope. -/
theorem zoneCandidates_eq (htop : 0 < query.topK) (ties : Ties db query units) (afterCursor : Option SearchCursor) :
    query.zoneCandidates db ties afterCursor =
      hybridCandidates db.collation query.request ties.chunkTies afterCursor := by
  have hrows : query.bestDocument db ties = groupedRows db.collation query.request ties.chunkTies := by
    rw [bestDocument, scored_view hids htop]
    rfl
  unfold zoneCandidates
  rw [hrows]
  rfl

end Rows

theorem scopedChunks_ids (hids : (units.map ZoneUnit.zoneUnitId).Nodup) :
    ((scopedChunks db query units).map CorpusChunk.chunkId).Nodup := by
  rw [scopedChunks, List.map_map]
  exact hids.sublist (List.filter_sublist.map _)

theorem unresolved_scores : ∀ row ∈ ([] : List SearchRow), row.score = none :=
  fun _ hrow => absurd hrow List.not_mem_nil

/-- The corpus of the units in scope, with no citation to resolve. -/
def searchSite (db : ZoneDatabase) (query : ZoneQuery) (hids : (units.map ZoneUnit.zoneUnitId).Nodup) : SearchSite where
  collation := db.collation
  request := query.request
  chunks := scopedChunks db query units
  resolved := []
  chunkIds := scopedChunks_ids hids
  resolvedIds := List.nodup_nil
  resolvedScores := unresolved_scores

section Scope

variable (db query) in
/-- The two tables have the same units in scope, and their indexes score these alike. -/
structure SameScope (others units : List ZoneUnit) : Prop where
  rows : others.filter (query.inScope db) = units.filter (query.inScope db)
  scores : ∀ unit ∈ units, query.inScope db unit = true → db.lexicalScore others unit = db.lexicalScore units unit

theorem SameScope.symm {others : List ZoneUnit} (h : SameScope db query others units) :
    SameScope db query units others := by
  refine ⟨h.rows.symm, fun unit hunit hscope => (h.scores unit ?_ hscope).symm⟩
  have hmem : unit ∈ others.filter (query.inScope db) := List.mem_filter.mpr ⟨hunit, hscope⟩
  rw [h.rows] at hmem
  exact (List.mem_filter.mp hmem).1

theorem lexical_scoped {others : List ZoneUnit} (h : SameScope db query others units) :
    query.lexical db others = query.lexical db units := by
  have hmatching : others.filter (query.matching db others) = units.filter (query.matching db units) := by
    have hothers : others.filter (query.matching db others) =
        units.filter fun unit => (db.lexicalScore others unit).isSome && query.inScope db unit := by
      rw [← List.filter_filter, ← h.rows, List.filter_filter]
      rfl
    rw [hothers]
    apply List.filter_congr
    intro unit hunit
    cases hscope : query.inScope db unit with
    | false => rw [matching, hscope, Bool.and_false, Bool.and_false]
    | true => rw [matching, hscope, h.scores unit hunit hscope]
  have hsorted := List.map_insertionSort (unitLe db others) (unitLe db units) id
    (units.filter (query.matching db units)) (by
      intro a ha b hb
      obtain ⟨hamem, hamatch⟩ := List.mem_filter.mp ha
      obtain ⟨hbmem, hbmatch⟩ := List.mem_filter.mp hb
      have hascore := h.scores a hamem (Bool.and_eq_true_iff.mp hamatch).2
      have hbscore := h.scores b hbmem (Bool.and_eq_true_iff.mp hbmatch).2
      rw [id, id, unitLe, unitLe, hascore, hbscore])
  rw [List.map_id, List.map_id] at hsorted
  rw [lexical, lexical, hmatching, hsorted]

/-- What a zone search finds depends on the units in scope and on their scores. -/
theorem answer_scoped {others : List ZoneUnit} (h : SameScope db query others units)
    {cursor : Option SearchCursor} {found : List SearchRow} (hfound : query.answer db others cursor found) :
    query.answer db units cursor found := by
  have hlexical := lexical_scoped h
  have hscan : others.filter (query.embedded db) = units.filter (query.embedded db) := by
    have hfilter : ∀ rows : List ZoneUnit, rows.filter (query.embedded db) = (rows.filter (query.inScope db)).filter
        fun unit => (unit.distance query.embeddingFingerprint).isSome := fun rows => List.filter_filter.symm
    rw [hfilter, hfilter, h.rows]
  obtain ⟨ties, rfl⟩ := hfound
  refine ⟨⟨⟨ties.cut.rows, hscan ▸ ties.cut.perm, ties.cut.sorted⟩,
    ⟨ties.numbering.rows, hscan ▸ ties.numbering.perm, ties.numbering.sorted⟩⟩, ?_⟩
  unfold zoneCandidates bestDocument scored
  rw [hlexical]
  rfl

end Scope

section Best

variable {collation : Collation}

theorem firstOfDocument_best {rows : List SearchRow} (hsorted : rows.Pairwise (SearchRow.rowLe collation .chunk))
    {row other : SearchRow} (hrow : row ∈ firstOfDocument rows) (hother : other ∈ rows)
    (hsame : other.documentId = row.documentId) : SearchRow.rowLe collation .chunk row other := by
  induction rows with
  | nil => cases hrow
  | cons first rows ih =>
    obtain ⟨hfirst, hrest⟩ := List.pairwise_cons.mp hsorted
    rcases List.mem_cons.mp hrow with rfl | hrow
    · rcases List.mem_cons.mp hother with rfl | hother
      · exact (Std.Total.total other other).elim id id
      · exact hfirst other hother
    · obtain ⟨hkept, hne⟩ := List.mem_filter.mp hrow
      rcases List.mem_cons.mp hother with rfl | hother
      · exact absurd hsame.symm (of_decide_eq_true hne)
      · exact ih hrest hkept hother

theorem firstOfDocument_covers {rows : List SearchRow} {row : SearchRow} (h : row ∈ rows) :
    ∃ best ∈ firstOfDocument rows, best.documentId = row.documentId := by
  induction rows with
  | nil => cases h
  | cons first rows ih =>
    by_cases hsame : row.documentId = first.documentId
    · exact ⟨first, List.mem_cons_self, hsame.symm⟩
    · rcases List.mem_cons.mp h with rfl | hrest
      · exact absurd rfl hsame
      · obtain ⟨best, hbest, hdocument⟩ := ih hrest
        refine ⟨best, List.mem_cons_of_mem first (List.mem_filter.mpr ⟨hbest, ?_⟩), hdocument⟩
        exact decide_eq_true (hdocument ▸ hsame)

end Best

end ZoneQuery

/-- What the pages show was found. -/
theorem Paged.found {κ α : Type*} {cursorOf : α → Option κ} {topK : ℕ} {answer : Option κ → List α → Prop}
    {cursor : Option κ} {pages : List (List α)} (h : Paged cursorOf topK answer cursor pages) :
    ∀ row ∈ pages.flatten, ∃ cursor found, answer cursor found ∧ row ∈ found := by
  have hshown : ∀ (found : List α), ∀ row ∈ (shown cursorOf topK found).1, row ∈ found := by
    intro found row hrow
    rw [shown] at hrow
    split at hrow
    · exact List.mem_of_mem_take hrow
    · exact hrow
  induction h with
  | @last cursor found hfound _ =>
    intro row hrow
    rw [List.flatten_singleton] at hrow
    exact ⟨cursor, found, hfound, hshown found row hrow⟩
  | @next cursor found next pages hfound _ _ ih =>
    intro row hrow
    rw [List.flatten_cons] at hrow
    rcases List.mem_append.mp hrow with hrow | hrow
    · exact ⟨cursor, found, hfound, hshown found row hrow⟩
    · exact ih row hrow

namespace ZoneQuery

variable {db : ZoneDatabase} {query : ZoneQuery} {units : List ZoneUnit}

/-- The decisions that a query ranks, best first. -/
def listing (db : ZoneDatabase) (query : ZoneQuery) (ties : Ties db query units) : List SearchRow :=
  (query.bestDocument db ties).insertionSort (SearchRow.rowLe db.collation .document)

variable (db query units) in
/-- The row shows the unit in scope that is the best of its decision in one of the
rankings of the query. -/
def ShowsBest (row : SearchRow) : Prop :=
  ∃ ties : Ties db query units, ∃ unit ∈ units, query.inScope db unit = true ∧
    row.chunkId = some unit.zoneUnitId ∧ row.documentId = unit.document.documentId ∧
    ∀ other ∈ query.scored db ties, other.documentId = row.documentId → SearchRow.rowLe db.collation .chunk row other

variable (db query units) in
/-- Whoever follows the cursor sees the ranked decisions once and in order, each by its
best unit; in a mode with a lexical arm none that this arm had to find is missing; and the
pages end. -/
structure Enumerated : Prop where
  ends : PagesEnd (SearchRow.cursor .document) query.topK (query.answer db units) none
  members : ∀ pages, Paged (SearchRow.cursor .document) query.topK (query.answer db units) none pages →
    ∀ ties : Ties db query units, pages.flatten.map (fun row => (row.score, row.documentId)) =
      (query.listing db ties).map fun row => (row.score, row.documentId)
  once : ∀ pages, Paged (SearchRow.cursor .document) query.topK (query.answer db units) none pages →
    (pages.flatten.map SearchRow.documentId).Nodup ∧ pages.flatten.Pairwise fun a b => b.score.getD 0 ≤ a.score.getD 0
  best : ∀ pages, Paged (SearchRow.cursor .document) query.topK (query.answer db units) none pages →
    ∀ row ∈ pages.flatten, ShowsBest db query units row
  complete : ∀ pages, Paged (SearchRow.cursor .document) query.topK (query.answer db units) none pages →
    query.retrievalMode ≠ .dense → (units.filter (query.matching db units)).length ≤ query.lexicalLimit →
    ∀ unit ∈ units, query.matching db units unit = true → ∃ row ∈ pages.flatten, row.documentId = unit.document.documentId

theorem searchSite_ranked (hids : (units.map ZoneUnit.zoneUnitId).Nodup) : ¬ (searchSite db query hids).Structured :=
  fun h => h.2 List.take_nil

theorem answer_site (hids : (units.map ZoneUnit.zoneUnitId).Nodup) (htop : 0 < query.topK)
    (cursor : Option SearchCursor) (found : List SearchRow) (h : query.answer db units cursor found) :
    (searchSite db query hids).answer cursor found := by
  obtain ⟨ties, rfl⟩ := h
  refine ⟨ties.chunkTies, (zoneCandidates_eq hids htop ties cursor).trans ?_⟩
  unfold SearchSite.found searchCandidates
  exact (if_neg (@searchSite_ranked db query units hids)).symm

theorem listing_site (hids : (units.map ZoneUnit.zoneUnitId).Nodup) (htop : 0 < query.topK)
    (ties : Ties db query units) : query.listing db ties = (searchSite db query hids).listing ties.chunkTies := by
  rw [listing, bestDocument, scored_view hids htop]
  rfl

theorem mem_zoneCandidates {ties : Ties db query units} {cursor : Option SearchCursor} {row : SearchRow}
    (h : row ∈ query.zoneCandidates db ties cursor) : row ∈ query.bestDocument db ties := by
  have hrow := (List.mem_insertionSort _).mp (List.mem_of_mem_take h)
  cases cursor with
  | none => exact hrow
  | some cursor => exact (List.mem_filter.mp hrow).1

theorem rankedUnits_scope {ties : Ties db query units} {unit : ZoneUnit}
    (h : unit ∈ query.rankedUnits (query.lexical db units) (query.dense db ties)) :
    unit ∈ units ∧ query.inScope db unit = true := by
  have hlexical : ∀ unit ∈ query.lexical db units, unit ∈ units ∧ query.inScope db unit = true :=
    fun unit hunit => ⟨(lexical_subset unit hunit).1, (Bool.and_eq_true_iff.mp (lexical_subset unit hunit).2).2⟩
  have hdense : ∀ unit ∈ query.dense db ties, unit ∈ units ∧ query.inScope db unit = true :=
    fun unit hunit => ⟨(dense_subset unit hunit).1, (Bool.and_eq_true_iff.mp (dense_subset unit hunit).2).2⟩
  rw [rankedUnits] at h
  split at h
  · exact hlexical unit h
  · exact hdense unit h
  · rcases List.mem_append.mp h with h | h
    · exact hlexical unit h
    · exact hdense unit (List.mem_filter.mp h).1

theorem showsBest_of_mem {ties : Ties db query units} {row : SearchRow} (h : row ∈ query.bestDocument db ties) :
    ShowsBest db query units row := by
  have hscored := (List.mem_insertionSort _).mp (firstOfDocument_subset h)
  obtain ⟨unit, hunit, rfl⟩ := List.mem_map.mp hscored
  obtain ⟨hmem, hscope⟩ := rankedUnits_scope hunit
  refine ⟨ties, unit, hmem, hscope, rfl, rfl, ?_⟩
  intro other hother hsame
  have hsorted := List.pairwise_insertionSort (SearchRow.rowLe db.collation .chunk) (query.scored db ties)
  exact firstOfDocument_best hsorted h ((List.mem_insertionSort _).mpr hother) hsame

/-- A lexical arm that is not full has every matching unit. -/
theorem lexical_complete (hfew : (units.filter (query.matching db units)).length ≤ query.lexicalLimit) {unit : ZoneUnit}
    (hunit : unit ∈ units) (hmatch : query.matching db units unit = true) : unit ∈ query.lexical db units := by
  have hlength : ((units.filter (query.matching db units)).insertionSort (unitLe db units)).length ≤
      max query.lexicalLimit 1 := by
    rw [List.length_insertionSort]
    exact hfew.trans (Nat.le_max_left _ _)
  rw [lexical, List.take_of_length_le hlength, List.mem_insertionSort]
  exact List.mem_filter.mpr ⟨hunit, hmatch⟩

theorem listing_complete {ties : Ties db query units} (hmode : query.retrievalMode ≠ .dense) {unit : ZoneUnit}
    (h : unit ∈ query.lexical db units) : ∃ row ∈ query.listing db ties, row.documentId = unit.document.documentId := by
  have hranked : unit ∈ query.rankedUnits (query.lexical db units) (query.dense db ties) := by
    rw [rankedUnits]
    cases hown : query.retrievalMode with
    | bm25 => exact h
    | dense => exact absurd hown hmode
    | hybrid => exact List.mem_append_left _ h
  have hscored : query.scoredRow (query.lexical db units) (query.dense db ties) unit ∈ query.scored db ties :=
    List.mem_map_of_mem hranked
  obtain ⟨best, hbest, hdocument⟩ :=
    firstOfDocument_covers ((List.mem_insertionSort (SearchRow.rowLe db.collation .chunk)).mpr hscored)
  exact ⟨best, (List.mem_insertionSort _).mpr hbest, hdocument⟩

/-- The ties of a query can be broken in some way. -/
def nearest (db : ZoneDatabase) (query : ZoneQuery) (units : List ZoneUnit) : Scan db query units where
  rows := (units.filter (query.embedded db)).insertionSort fun a b =>
    (a.distance query.embeddingFingerprint).getD 0 ≤ (b.distance query.embeddingFingerprint).getD 0
  perm := List.perm_insertionSort _ _
  sorted := by
    have htotal : Std.Total fun a b : ZoneUnit =>
        (a.distance query.embeddingFingerprint).getD 0 ≤ (b.distance query.embeddingFingerprint).getD 0 :=
      ⟨fun _ _ => le_total _ _⟩
    have htrans : IsTrans ZoneUnit fun a b =>
        (a.distance query.embeddingFingerprint).getD 0 ≤ (b.distance query.embeddingFingerprint).getD 0 :=
      ⟨fun _ _ _ => le_trans⟩
    exact List.pairwise_insertionSort _ _

theorem settled (hids : (units.map ZoneUnit.zoneUnitId).Nodup) (huntied : query.retrievalMode = .bm25 ∨
      ∀ a ∈ units, ∀ b ∈ units, query.embedded db a = true → query.embedded db b = true →
        a.distance query.embeddingFingerprint = b.distance query.embeddingFingerprint → a = b) :
    (searchSite db query hids).TiesSettled := by
  apply SearchSite.untied_settled
  refine huntied.imp_right ?_
  intro hapart a ha b hb hsome heq
  obtain ⟨x, hx, rfl⟩ := List.mem_map.mp ha
  obtain ⟨y, hy, rfl⟩ := List.mem_map.mp hb
  obtain ⟨hxmem, hxscope⟩ := List.mem_filter.mp hx
  obtain ⟨hymem, hyscope⟩ := List.mem_filter.mp hy
  replace heq : x.distance query.embeddingFingerprint = y.distance query.embeddingFingerprint := heq
  replace hsome : (x.distance query.embeddingFingerprint).isSome = true := hsome
  have hsome' : (y.distance query.embeddingFingerprint).isSome = true := heq ▸ hsome
  have hx' : query.embedded db x = true := Bool.and_eq_true_iff.mpr ⟨hsome, hxscope⟩
  have hy' : query.embedded db y = true := Bool.and_eq_true_iff.mpr ⟨hsome', hyscope⟩
  rw [hapart x hxmem y hymem hx' hy' heq]

/-- What a zone search finds depends on the units in scope and their scores alone. Unless
two of these are equally near, the pages show every decision that is ranked once and in
order. -/
theorem zone_search_pages (db : ZoneDatabase) (query : ZoneQuery) (units : List ZoneUnit) :
    (∀ others, SameScope db query others units →
      ∀ cursor found, query.answer db others cursor found ↔ query.answer db units cursor found) ∧
      ((units.map ZoneUnit.zoneUnitId).Nodup → 0 < query.topK → query.topK < u32Max →
        (query.retrievalMode = .bm25 ∨ ∀ a ∈ units, ∀ b ∈ units, query.embedded db a = true →
          query.embedded db b = true →
          a.distance query.embeddingFingerprint = b.distance query.embeddingFingerprint → a = b) →
        Enumerated db query units) := by
  refine ⟨fun others h cursor found => ⟨answer_scoped h, answer_scoped h.symm⟩, ?_⟩
  intro hids htop hmax huntied
  have hsettled := settled hids huntied
  have hends := (SearchSite.enumerates_of_settled (searchSite_ranked hids) htop hmax hsettled.pagesSettled).ends
  have hflatten : ∀ pages, Paged (SearchRow.cursor .document) query.topK (query.answer db units) none pages →
      ∀ ties : Ties db query units, pages.flatten = query.listing db ties := by
    intro pages h ties
    rw [listing_site hids htop ties]
    exact hsettled.flatten_eq (searchSite_ranked hids) htop hmax (h.mono (answer_site hids htop)) ties.chunkTies
  let ties : Ties db query units := ⟨nearest db query units, nearest db query units⟩
  refine ⟨hends.of_shown fun cursor found h => ⟨found, answer_site hids htop cursor found h, rfl⟩, ?_, ?_, ?_, ?_⟩
  · intro pages h ties
    rw [hflatten pages h ties]
  · intro pages h
    have hlisting := @SearchSite.listing_ids (searchSite db query hids) ties.chunkTies
    have hscores := @SearchSite.listing_scores (searchSite db query hids) ties.chunkTies
    rw [← listing_site hids htop ties] at hlisting hscores
    rw [hflatten pages h ties]
    exact ⟨hlisting, hscores⟩
  · intro pages h row hrow
    obtain ⟨cursor, found, ⟨ties, rfl⟩, hmem⟩ := h.found row hrow
    exact showsBest_of_mem (mem_zoneCandidates hmem)
  · intro pages h hmode hfew unit hunit hmatch
    rw [hflatten pages h ties]
    exact listing_complete hmode (lexical_complete hfew hunit hmatch)

def motivationsQuery : ZoneQuery where
  zone := "motivations".toList
  asOf := 20000
  decisionFilters := ⟨some "cassation".toList, none, none, none, none⟩
  retrievalMode := .bm25
  embeddingFingerprint := []
  topK := 1
  lexicalWeight := 1
  denseWeight := 1

/-- Two reasonings of the Court of cassation, and a ruling and another court's reasoning that match better. -/
def motivationsUnits : List ZoneUnit :=
  let document (id court : String) : ZoneDocument :=
    ⟨id.toList, "decision".toList, some court.toList, none, none, some 19000, none⟩
  [⟨"u1".toList, document "d1" "Cour de cassation", "motivations".toList, none⟩,
    ⟨"u2".toList, document "d1" "Cour de cassation", "dispositif".toList, none⟩,
    ⟨"u3".toList, document "d2" "Cour de cassation", "motivations".toList, none⟩,
    ⟨"u4".toList, document "d3" "Conseil d'État", "motivations".toList, none⟩]

/-- The scores of these units, lower the more units there are in the index. -/
def motivationsScore (units : List ZoneUnit) (unit : ZoneUnit) : Option ℚ :=
  (List.lookup unit.zoneUnitId [("u1".toList, 2), ("u2".toList, 9), ("u3".toList, 3), ("u4".toList, 8)]).map
    fun score : ℚ => score / units.length

theorem zone_search_pages_motivations :
    Enumerated ⟨Char.toLower, codePointCollation, motivationsScore⟩ motivationsQuery motivationsUnits := by
  have hids : (motivationsUnits.map ZoneUnit.zoneUnitId).Nodup := by decide +kernel
  exact (zone_search_pages ⟨Char.toLower, codePointCollation, motivationsScore⟩ motivationsQuery motivationsUnits).2
    hids (by decide) (by decide) (Or.inl rfl)

end ZoneQuery

end CorpusFeed
