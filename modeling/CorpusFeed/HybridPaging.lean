import CorpusFeed.HybridSearch
import CorpusFeed.ReorderedPages
import Mathlib.Tactic.Linarith

/-! Following the cursor of a ranked search while the database breaks ties in distance
as it likes, query by query. -/

namespace CorpusFeed

open SearchRow

section Order

variable {collation : Collation} {group : GroupBy}

def rowLt (collation : Collation) (group : GroupBy) (a b : SearchRow) : Prop :=
  b.score.getD 0 < a.score.getD 0 ∨ a.score.getD 0 = b.score.getD 0 ∧ collation.lt (a.id group) (b.id group) = true

instance : Std.Total (rowLe collation group) := ⟨fun a b => by
  rcases lt_trichotomy (a.score.getD 0) (b.score.getD 0) with h | h | h
  · exact Or.inr (Or.inl h)
  · exact (collation.total (a.id group) (b.id group)).imp (fun hle => Or.inr ⟨h, hle⟩) fun hle => Or.inr ⟨h.symm, hle⟩
  · exact Or.inl (Or.inl h)⟩

instance : IsTrans SearchRow (rowLe collation group) := ⟨fun a b c hab hbc => by
  rcases hab with hab | ⟨hab, hid⟩ <;> rcases hbc with hbc | ⟨hbc, hid'⟩
  · exact Or.inl (hbc.trans hab)
  · exact Or.inl (hbc ▸ hab)
  · exact Or.inl (hab ▸ hbc)
  · exact Or.inr ⟨hab.trans hbc, collation.trans _ _ _ hid hid'⟩⟩

theorem rowLe_antisymm {a b : SearchRow} (hab : rowLe collation group a b) (hba : rowLe collation group b a) :
    a.id group = b.id group := by
  rcases hab with hab | ⟨hab, hid⟩ <;> rcases hba with hba | ⟨hba, hid'⟩
  · exact absurd (hab.trans hba) (lt_irrefl _)
  · exact absurd hab (hba ▸ lt_irrefl _)
  · exact absurd hba (hab ▸ lt_irrefl _)
  · exact collation.antisymm _ _ hid hid'

theorem rowLt_irrefl (a : SearchRow) : ¬ rowLt collation group a a := by
  rintro (h | ⟨_, h⟩)
  · exact lt_irrefl _ h
  · simp [Collation.lt_irrefl] at h

theorem rowLt_trans (a b c : SearchRow) (hab : rowLt collation group a b) (hbc : rowLt collation group b c) :
    rowLt collation group a c := by
  rcases hab with hab | ⟨hab, hid⟩ <;> rcases hbc with hbc | ⟨hbc, hid'⟩
  · exact Or.inl (hbc.trans hab)
  · exact Or.inl (hbc ▸ hab)
  · exact Or.inl (hab ▸ hbc)
  · exact Or.inr ⟨hab.trans hbc, Collation.lt_of_lt_of_le hid (Collation.le_of_lt hid')⟩

theorem rowLt_of_rowLe {a b : SearchRow} (hle : rowLe collation group a b) (hne : a.id group ≠ b.id group) :
    rowLt collation group a b :=
  hle.imp id fun h => ⟨h.1, Collation.lt_of_le_of_ne h.2 hne⟩

end Order

section Pools

variable {collation : Collation} {request : SearchRequest} {chunks : List CorpusChunk}

theorem DistanceOrder.nodup (order : DistanceOrder chunks) (hnodup : chunks.Nodup) : order.rows.Nodup :=
  order.perm.nodup_iff.mpr (hnodup.filter _)

theorem lexicalPool_nodup (hnodup : chunks.Nodup) : (lexicalPool collation request chunks).Nodup := by
  have hsorted := (List.perm_insertionSort (lexicalLe collation)
    (chunks.filter fun chunk => chunk.lexicalScore.isSome && chunk.inScope)).nodup_iff.mpr (hnodup.filter _)
  exact hsorted.sublist (List.take_sublist _ _)

theorem lexicalPool_subset {chunk : CorpusChunk} (h : chunk ∈ lexicalPool collation request chunks) : chunk ∈ chunks := by
  have hsorted := (List.mem_insertionSort (lexicalLe collation)).mp (List.mem_of_mem_take h)
  exact (List.mem_filter.mp hsorted).1

theorem densePool_nodup (ties : TieBreak chunks) (hnodup : chunks.Nodup) : (densePool request ties).Nodup :=
  (((ties.numbering.nodup hnodup).filter _).filter _).sublist (List.take_sublist _ _)

theorem densePool_subset {ties : TieBreak chunks} {chunk : CorpusChunk} (h : chunk ∈ densePool request ties) :
    chunk ∈ chunks := by
  have hnumbered := (List.mem_filter.mp (List.mem_filter.mp (List.mem_of_mem_take h)).1).1
  exact (List.mem_filter.mp (ties.numbering.perm.mem_iff.mp hnumbered)).1

theorem pooled_nodup {lexical dense : List CorpusChunk} (hlexical : lexical.Nodup) (hdense : dense.Nodup) :
    (pooled request lexical dense).Nodup := by
  unfold pooled
  cases request.retrievalMode with
  | hybrid =>
    refine List.Nodup.append hlexical (hdense.filter _) fun chunk hl hd => ?_
    have hnot := (List.mem_filter.mp hd).2
    simp [hl] at hnot
  | bm25 => exact hlexical
  | dense => exact hdense

theorem pooled_subset {lexical dense : List CorpusChunk} {chunk : CorpusChunk} (h : chunk ∈ pooled request lexical dense) :
    chunk ∈ lexical ∨ chunk ∈ dense := by
  unfold pooled at h
  cases hmode : request.retrievalMode with
  | hybrid =>
    rw [hmode] at h
    exact (List.mem_append.mp h).imp_right fun hd => (List.mem_filter.mp hd).1
  | bm25 =>
    rw [hmode] at h
    exact Or.inl h
  | dense =>
    rw [hmode] at h
    exact Or.inr h

theorem firstOfDocument_subset {rows : List SearchRow} {row : SearchRow} (h : row ∈ firstOfDocument rows) : row ∈ rows := by
  induction rows with
  | nil => exact h
  | cons first rows ih =>
    rcases List.mem_cons.mp h with rfl | h
    · exact List.mem_cons_self
    · exact List.mem_cons_of_mem _ (ih (List.mem_filter.mp h).1)

theorem firstOfDocument_nodup (rows : List SearchRow) : ((firstOfDocument rows).map SearchRow.documentId).Nodup := by
  induction rows with
  | nil => exact List.nodup_nil
  | cons row rows ih =>
    rw [firstOfDocument, List.map_cons, List.nodup_cons]
    constructor
    · intro hmem
      obtain ⟨other, hother, heq⟩ := List.mem_map.mp hmem
      have hne := (List.mem_filter.mp hother).2
      simp [heq] at hne
    · exact ih.sublist (List.filter_sublist.map _)

theorem rankedRows_ids (ties : TieBreak chunks) (hids : (chunks.map CorpusChunk.chunkId).Nodup) :
    ((rankedRows collation request ties).map (SearchRow.id .chunk)).Nodup := by
  have hnodup := hids.of_map
  have hpooled := @pooled_nodup request _ _ (@lexicalPool_nodup collation request chunks hnodup)
    (@densePool_nodup request chunks ties hnodup)
  rw [rankedRows, List.map_map]
  refine List.Nodup.map_on (fun a ha b hb hab => ?_) hpooled
  have hmem : ∀ chunk ∈ pooled request (lexicalPool collation request chunks) (densePool request ties), chunk ∈ chunks :=
    fun chunk h => (pooled_subset h).elim lexicalPool_subset densePool_subset
  exact List.inj_on_of_nodup_map hids (hmem a ha) (hmem b hb) hab

theorem groupedRows_ids (ties : TieBreak chunks) (hids : (chunks.map CorpusChunk.chunkId).Nodup) :
    ((groupedRows collation request ties).map (SearchRow.id request.groupBy)).Nodup := by
  unfold groupedRows
  cases hgroup : request.groupBy with
  | chunk => exact rankedRows_ids ties hids
  | document => exact firstOfDocument_nodup _

theorem groupedRows_score {ties : TieBreak chunks} {row : SearchRow} (h : row ∈ groupedRows collation request ties) :
    row.score.isSome = true := by
  have hranked : ∀ row ∈ rankedRows collation request ties, row.score.isSome = true := by
    intro row hrow
    obtain ⟨chunk, _, rfl⟩ := List.mem_map.mp hrow
    rfl
  unfold groupedRows at h
  cases hgroup : request.groupBy with
  | chunk =>
    rw [hgroup] at h
    exact hranked row h
  | document =>
    rw [hgroup] at h
    exact hranked row ((List.mem_insertionSort (rowLe collation .chunk)).mp (firstOfDocument_subset h))

end Pools

/-- A corpus as one query sees it. A chunk id is one row's; the resolver lists a
document once and scores none. -/
structure SearchSite where
  collation : Collation
  request : SearchRequest
  chunks : List CorpusChunk
  resolved : List SearchRow
  chunkIds : (chunks.map CorpusChunk.chunkId).Nodup
  resolvedIds : (resolved.map SearchRow.documentId).Nodup
  resolvedScores : ∀ row ∈ resolved, row.score = none

namespace SearchSite

variable (site : SearchSite)

/-- The ranked candidate pool under one way to break the ties, best first. -/
def listing (ties : TieBreak site.chunks) : List SearchRow :=
  (groupedRows site.collation site.request ties).insertionSort (rowLe site.collation site.request.groupBy)

/-- The citation resolver answers, and the pool is what it lists. -/
def Structured : Prop := site.request.retrievalMode = .hybrid ∧ site.resolved.take (max site.request.topK 1) ≠ []

instance : Decidable site.Structured := inferInstanceAs (Decidable (_ ∧ _))

def pool (ties : TieBreak site.chunks) : List SearchRow :=
  if site.Structured then site.resolved.take (max site.request.topK 1) else site.listing ties

/-- What a query finds past a cursor, breaking the ties in one way. -/
def found (ties : TieBreak site.chunks) (cursor : Option SearchCursor) : List SearchRow :=
  searchCandidates site.collation site.request site.resolved ties cursor

/-- The database breaks the ties of every query anew. -/
def answer (cursor : Option SearchCursor) (rows : List SearchRow) : Prop :=
  ∃ ties : TieBreak site.chunks, rows = site.found ties cursor

def cursorOf : SearchRow → Option SearchCursor := SearchRow.cursor site.request.groupBy

/-- A member of the pool: a document, with its chunk where the chunks are ranked. -/
def memberId (row : SearchRow) : Text × Option Text :=
  match site.request.groupBy with
  | .chunk => (row.documentId, row.chunkId)
  | .document => (row.documentId, none)

/-- Whoever follows the cursor sees the pool, as every query on the way ranks it, each
member once and in order; and the pages end. The ties may be broken in another way on
every page. -/
structure Enumerates : Prop where
  ends : PagesEnd site.cursorOf site.request.topK site.answer none
  members : ∀ ties pages, PagedBy site.cursorOf site.request.topK site.found none ties pages →
    ∀ t ∈ ties, (pages.flatten.map site.memberId).Perm ((site.pool t).map site.memberId)
  once : ∀ ties pages, PagedBy site.cursorOf site.request.topK site.found none ties pages →
    (pages.flatten.map site.memberId).Nodup ∧ pages.flatten.Pairwise fun a b => b.score.getD 0 ≤ a.score.getD 0

variable {site}

theorem listing_perm (ties : TieBreak site.chunks) :
    (site.listing ties).Perm (groupedRows site.collation site.request ties) := List.perm_insertionSort _ _

theorem listing_ids (ties : TieBreak site.chunks) : ((site.listing ties).map (SearchRow.id site.request.groupBy)).Nodup :=
  ((listing_perm ties).map _).nodup_iff.mpr (groupedRows_ids ties site.chunkIds)

theorem memberId_nodup {rows : List SearchRow} (h : (rows.map (SearchRow.id site.request.groupBy)).Nodup) :
    (rows.map site.memberId).Nodup := by
  refine List.pairwise_map.mpr ((List.pairwise_map.mp h).imp fun {a b} hne heq => hne ?_)
  unfold memberId at heq
  unfold SearchRow.id
  cases hgroup : site.request.groupBy with
  | chunk =>
    rw [hgroup] at heq
    exact congrArg (Option.getD · []) (Prod.mk.inj heq).2
  | document =>
    rw [hgroup] at heq
    exact (Prod.mk.inj heq).1

theorem listing_sorted (ties : TieBreak site.chunks) :
    (site.listing ties).Pairwise (rowLt site.collation site.request.groupBy) :=
  ((List.pairwise_insertionSort (rowLe site.collation site.request.groupBy) _).and (List.pairwise_map.mp (listing_ids ties))).imp
    fun {_ _} h => rowLt_of_rowLe h.1 h.2

theorem listing_scores (ties : TieBreak site.chunks) :
    (site.listing ties).Pairwise fun a b => b.score.getD 0 ≤ a.score.getD 0 :=
  (listing_sorted ties).imp fun {_ _} h => h.elim le_of_lt fun h => h.1.ge

theorem listing_score {ties : TieBreak site.chunks} {row : SearchRow} (h : row ∈ site.listing ties) :
    row.score.isSome = true := groupedRows_score ((listing_perm ties).mem_iff.mp h)

theorem listing_cursors (ties : TieBreak site.chunks) : ∀ row ∈ site.listing ties, (site.cursorOf row).isSome = true := by
  intro row hrow
  simpa [cursorOf, SearchRow.cursor] using listing_score hrow

variable (site) in
/-- What of the pool is past a cursor. -/
def past (ties : TieBreak site.chunks) : Option SearchCursor → List SearchRow
  | none => site.listing ties
  | some cursor => (site.listing ties).filter (cursor.before site.collation)

theorem hybridCandidates_past (ties : TieBreak site.chunks) (cursor : Option SearchCursor) :
    hybridCandidates site.collation site.request ties cursor = (site.past ties cursor).take site.request.queryLimit := by
  have hties : ∀ a ∈ groupedRows site.collation site.request ties, ∀ b ∈ groupedRows site.collation site.request ties,
      rowLe site.collation site.request.groupBy a b → rowLe site.collation site.request.groupBy b a → a = b :=
    fun a ha b hb hab hba => List.inj_on_of_nodup_map (groupedRows_ids ties site.chunkIds) ha hb (rowLe_antisymm hab hba)
  cases cursor with
  | none => rfl
  | some cursor =>
    unfold hybridCandidates
    dsimp only
    rw [insertionSort_filter hties]
    rfl

theorem past_scores (ties : TieBreak site.chunks) (cursor : Option SearchCursor) :
    (site.past ties cursor).Pairwise fun a b => b.score.getD 0 ≤ a.score.getD 0 := by
  cases cursor with
  | none => exact listing_scores ties
  | some cursor => exact (listing_scores ties).filter _

/-- The cursor predicate is the order of the listing, seen from the row of the cursor. -/
theorem before_iff {last row : SearchRow} {cursor : SearchCursor} (hcursor : site.cursorOf last = some cursor) :
    cursor.before site.collation row = true ↔ rowLt site.collation site.request.groupBy last row := by
  obtain ⟨score, hscore, rfl⟩ := Option.map_eq_some_iff.mp hcursor
  unfold rowLt SearchCursor.before
  rw [hscore, Option.getD_some, Bool.or_eq_true, Bool.and_eq_true, decide_eq_true_eq, decide_eq_true_eq]
  exact or_congr Iff.rfl (and_congr_left' eq_comm)

/-- Under the order that gave the cursor, what is past it follows its row. -/
theorem past_own (ties : TieBreak site.chunks) (position : ℕ) :
    site.past ties (cursorAfter site.cursorOf (site.past ties none) position) =
      (site.past ties none).drop position := by
  have hnone : site.past ties none = site.listing ties := rfl
  rw [hnone]
  cases hlast : ((site.listing ties).take position).getLast? with
  | none =>
    have hnil : (site.listing ties).take position = [] := List.getLast?_eq_none_iff.mp hlast
    have hall : (site.listing ties).drop position = site.listing ties := by
      conv_rhs => rw [← List.take_append_drop position (site.listing ties), hnil, List.nil_append]
    rw [cursorAfter, hlast, hall]
    rfl
  | some last =>
    have hmem : last ∈ site.listing ties := List.mem_of_mem_take (List.mem_of_getLast? hlast)
    obtain ⟨cursor, hcursor⟩ := Option.isSome_iff_exists.mp (listing_cursors ties last hmem)
    rw [cursorAfter, hlast, Option.bind_some, hcursor]
    exact filter_after (listing_sorted ties) rowLt_irrefl rowLt_trans (fun row _ => (before_iff hcursor).symm) hlast

/-- Under any other order it comes last as well. -/
theorem past_suffix (ties ties' : TieBreak site.chunks) (position : ℕ) :
    site.past ties' (cursorAfter site.cursorOf (site.past ties none) position) <:+ site.past ties' none := by
  cases hcursor : cursorAfter site.cursorOf (site.past ties none) position with
  | none => exact List.suffix_refl _
  | some cursor =>
    obtain ⟨last, _, hlast⟩ := Option.bind_eq_some_iff.mp hcursor
    refine filter_suffix ((listing_sorted ties').imp fun {a b} hab ha => ?_)
    exact (before_iff hlast).mpr (rowLt_trans _ _ _ ((before_iff hlast).mp ha) hab)

variable (site) in
/-- The pool, under every way to break the ties. -/
def listings : Listings (TieBreak site.chunks) SearchCursor SearchRow where
  cursorOf := site.cursorOf
  past := site.past
  cursors := listing_cursors
  own := past_own
  suffix := past_suffix

variable (site) in
/-- At the end of each full page with another after it, every way to break the ties ranks
the same members, and the same members past that page's last row. -/
def PagesSettled : Prop := site.listings.Settled site.request.topK site.memberId

variable (site) in
/-- The ties do not matter at all. -/
def TiesSettled : Prop := ∀ ties ties', site.listing ties = site.listing ties'

theorem TiesSettled.pagesSettled (h : site.TiesSettled) : site.PagesSettled := Listings.settled_of_eq h

theorem queryLimit_eq (hmax : site.request.topK ≤ u32Max) :
    site.request.queryLimit = if site.request.topK < u32Max then site.request.topK + 1 else site.request.topK := by
  unfold SearchRequest.queryLimit saturatingAdd
  split <;> omega

theorem found_ranked (hranked : ¬ site.Structured) (ties : TieBreak site.chunks) (cursor : Option SearchCursor) :
    site.found ties cursor = (site.past ties cursor).take site.request.queryLimit := by
  rw [← hybridCandidates_past]
  unfold found searchCandidates
  exact if_neg hranked

theorem found_structured (hstructured : site.Structured) (ties : TieBreak site.chunks) (cursor : Option SearchCursor) :
    site.found ties cursor = site.resolved.take (max site.request.topK 1) := by
  unfold found searchCandidates
  exact if_pos hstructured

/-- The row fetched beyond the page decides whether there is a next one. -/
theorem shown_found (hranked : ¬ site.Structured) (hmax : site.request.topK < u32Max) (ties : TieBreak site.chunks)
    (cursor : Option SearchCursor) : shown site.cursorOf site.request.topK (site.found ties cursor) =
      shown site.cursorOf site.request.topK (site.past ties cursor) := by
  refine shown_congr ?_
  rw [found_ranked hranked, queryLimit_eq hmax.le, if_pos hmax, List.take_take, min_self]

theorem found_full (hranked : ¬ site.Structured) (hfull : site.request.topK = u32Max) (ties : TieBreak site.chunks) :
    site.found ties none = (site.listing ties).take site.request.topK := by
  rw [found_ranked hranked, queryLimit_eq hfull.le, if_neg (by omega)]
  rfl

theorem run_scores (hranked : ¬ site.Structured) {ties : List (TieBreak site.chunks)} {pages : List (List SearchRow)}
    (hrun : PagedBy site.cursorOf site.request.topK site.found none ties pages) :
    pages.flatten.Pairwise fun a b => b.score.getD 0 ≤ a.score.getD 0 := by
  have hsorted : ∀ ties cursor, (site.found ties cursor).Pairwise fun a b => b.score.getD 0 ≤ a.score.getD 0 := by
    intro ties cursor
    rw [found_ranked hranked]
    exact (past_scores ties cursor).sublist (List.take_sublist _ _)
  have hpast : ∀ ties cursor, ∀ row ∈ site.found ties (some cursor), row.score.getD 0 ≤ cursor.score := by
    intro ties cursor row hrow
    rw [found_ranked hranked] at hrow
    have hbefore := (List.mem_filter.mp (List.mem_of_mem_take hrow)).2
    rw [SearchCursor.before, Bool.or_eq_true, Bool.and_eq_true, decide_eq_true_eq, decide_eq_true_eq] at hbefore
    exact hbefore.elim le_of_lt fun h => h.1.le
  have hbound : ∀ row cursor, site.cursorOf row = some cursor → cursor.score = row.score.getD 0 := by
    intro row cursor hcursor
    obtain ⟨score, hscore, rfl⟩ := Option.map_eq_some_iff.mp hcursor
    rw [hscore, Option.getD_some]
  exact (hrun.sorted hsorted hpast hbound).1

/-- A pool that the first query finds, with no more than a page of rows. -/
theorem enumerates_of_one_page (hfound : ∀ ties, site.found ties none = site.pool ties)
    (hfew : ∀ ties, (site.pool ties).length ≤ site.request.topK) (hids : ∀ ties, ((site.pool ties).map site.memberId).Nodup)
    (hscores : ∀ ties, (site.pool ties).Pairwise fun a b => b.score.getD 0 ≤ a.score.getD 0) : site.Enumerates := by
  have hshown : ∀ ties, shown site.cursorOf site.request.topK (site.found ties none) = (site.pool ties, none) := by
    intro ties
    rw [hfound, shown, if_neg (not_lt.mpr (hfew ties))]
  have hpage : ∀ ties pages, PagedBy site.cursorOf site.request.topK site.found none ties pages →
      ∃ t, ties = [t] ∧ pages.flatten = site.pool t := by
    intro ties pages hrun
    cases hrun with
    | @last _ t _ => exact ⟨t, rfl, by rw [hshown, List.flatten_singleton]⟩
    | @next _ t _ _ _ hnext _ =>
      rw [hshown] at hnext
      cases hnext
  refine ⟨Acc.intro _ fun next hnext => ?_, fun ties pages hrun => ?_, fun ties pages hrun => ?_⟩
  · obtain ⟨_, ⟨ties, rfl⟩, hnext, hsome⟩ := hnext
    rw [hshown] at hnext
    rw [← hnext] at hsome
    cases hsome
  · obtain ⟨t, rfl, hflatten⟩ := hpage ties pages hrun
    intro t' ht'
    rw [List.mem_singleton.mp ht', hflatten]
  · obtain ⟨t, rfl, hflatten⟩ := hpage ties pages hrun
    rw [hflatten]
    exact ⟨hids t, hscores t⟩

theorem enumerates_of_structured (hstructured : site.Structured) (htop : 0 < site.request.topK) : site.Enumerates := by
  have hpool : ∀ ties, site.pool ties = site.resolved.take (max site.request.topK 1) := fun ties => if_pos hstructured
  refine enumerates_of_one_page ?_ ?_ ?_ ?_
  · intro ties
    rw [found_structured hstructured, hpool]
  · intro ties
    have hle := List.length_take_le (max site.request.topK 1) site.resolved
    rw [hpool]
    omega
  · intro ties
    have hnodup : ((site.resolved.take (max site.request.topK 1)).map SearchRow.documentId).Nodup :=
      site.resolvedIds.sublist ((List.take_sublist _ _).map _)
    rw [hpool]
    refine List.pairwise_map.mpr ((List.pairwise_map.mp hnodup).imp fun {a b} hne heq => hne ?_)
    unfold memberId at heq
    cases hgroup : site.request.groupBy with
    | _ =>
      rw [hgroup] at heq
      exact (Prod.mk.inj heq).1
  · intro ties
    rw [hpool]
    refine List.pairwise_of_forall_mem_list fun a ha b hb => ?_
    rw [site.resolvedScores a (List.mem_of_mem_take ha), site.resolvedScores b (List.mem_of_mem_take hb)]

theorem enumerates_of_settled (hranked : ¬ site.Structured) (htop : 0 < site.request.topK)
    (hmax : site.request.topK < u32Max) (hsettled : site.PagesSettled) : site.Enumerates := by
  have hpool : ∀ ties, site.pool ties = site.listing ties := fun ties => if_neg hranked
  have hmembers : ∀ ties pages, PagedBy site.cursorOf site.request.topK site.found none ties pages →
      ∀ t ∈ ties, (pages.flatten.map site.memberId).Perm ((site.pool t).map site.memberId) := by
    intro ties pages hrun t ht
    rw [hpool]
    exact hsettled.run_perm htop (hrun.congr (shown_found hranked hmax)) t ht
  refine ⟨?_, hmembers, fun ties pages hrun => ⟨?_, run_scores hranked hrun⟩⟩
  · refine PagesEnd.of_shown ?_ (Listings.Settled.ends htop hsettled)
    rintro cursor rows ⟨ties, rfl⟩
    exact ⟨site.past ties cursor, ⟨ties, rfl⟩, shown_found hranked hmax ties cursor⟩
  · obtain ⟨t, ht⟩ := List.exists_mem_of_ne_nil _ hrun.ne_nil
    rw [(hmembers ties pages hrun t ht).nodup_iff, hpool]
    exact memberId_nodup (listing_ids t)

theorem enumerates_of_full (hranked : ¬ site.Structured) (hfull : site.request.topK = u32Max)
    (hfew : ∀ ties, (site.listing ties).length ≤ site.request.topK) : site.Enumerates := by
  have hpool : ∀ ties, site.pool ties = site.listing ties := fun ties => if_neg hranked
  refine enumerates_of_one_page ?_ ?_ ?_ ?_
  · intro ties
    rw [found_full hranked hfull, hpool, List.take_of_length_le (hfew ties)]
  · intro ties
    rw [hpool]
    exact hfew ties
  · intro ties
    rw [hpool]
    exact memberId_nodup (listing_ids ties)
  · intro ties
    rw [hpool]
    exact listing_scores ties

theorem settled_of_enumerates (hranked : ¬ site.Structured) (htop : 0 < site.request.topK)
    (hmax : site.request.topK ≤ u32Max) (h : site.Enumerates) :
    site.PagesSettled ∧ (site.request.topK < u32Max ∨ ∀ ties, (site.listing ties).length ≤ site.request.topK) := by
  have hpool : ∀ ties, site.pool ties = site.listing ties := fun ties => if_neg hranked
  rcases hmax.lt_or_eq with hroom | hfull
  · refine ⟨Listings.settled_of_runs htop fun ties pages hrun t ht => ?_, Or.inl hroom⟩
    have hfound := hrun.congr fun ties cursor => (shown_found hranked hroom ties cursor).symm
    have hmembers := h.members ties pages hfound t ht
    rwa [hpool] at hmembers
  · have hfew : ∀ ties, (site.listing ties).length ≤ site.request.topK := by
      intro ties
      have hshown : shown site.cursorOf site.request.topK (site.found ties none) =
          ((site.listing ties).take site.request.topK, none) := by
        rw [found_full hranked hfull, shown, if_neg (not_lt.mpr (List.length_take_le _ _))]
      have hpage : PagedBy site.cursorOf site.request.topK site.found none [ties]
          [(shown site.cursorOf site.request.topK (site.found ties none)).1] := PagedBy.last (by rw [hshown])
      have hlength := (h.members _ _ hpage ties (List.mem_singleton_self ties)).length_eq
      rw [hshown, hpool, List.flatten_singleton, List.length_map, List.length_map, List.length_take] at hlength
      omega
    refine ⟨fun ties ties' k hk hlong => absurd (hlong.trans_le (hfew ties)) ?_, Or.inr hfew⟩
    exact not_lt.mpr (Nat.le_mul_of_pos_left _ hk)

/-- The pages of a search show its pool exactly when no page's end depends on the ties
in distance: the citation resolver answered, or at the end of every full page all ways to
break them agree on the members, and on those past it (and the row fetched beyond a page
is not lost to saturation). -/
theorem search_enumerates_iff (site : SearchSite) (htop : 0 < site.request.topK) (hmax : site.request.topK ≤ u32Max) :
    site.Enumerates ↔ site.Structured ∨ site.PagesSettled ∧
      (site.request.topK < u32Max ∨ ∀ ties, (site.listing ties).length ≤ site.request.topK) := by
  constructor
  · intro h
    by_cases hstructured : site.Structured
    · exact Or.inl hstructured
    · exact Or.inr (settled_of_enumerates hstructured htop hmax h)
  · intro h
    by_cases hstructured : site.Structured
    · exact enumerates_of_structured hstructured htop
    · obtain ⟨hsettled, hroom⟩ := h.resolve_left hstructured
      rcases hmax.lt_or_eq with hlt | hfull
      · exact enumerates_of_settled hstructured htop hlt hsettled
      · exact enumerates_of_full hstructured hfull (hroom.resolve_left hfull.not_lt)

theorem TiesSettled.flatten_eq (hsettled : site.TiesSettled) (hranked : ¬ site.Structured) (htop : 0 < site.request.topK)
    (hmax : site.request.topK < u32Max) {pages : List (List SearchRow)}
    (hpages : Paged site.cursorOf site.request.topK site.answer none pages) (ties : TieBreak site.chunks) :
    pages.flatten = site.listing ties := by
  have hanswers : ∀ m, m * site.request.topK ≤ (site.listing ties).length →
      AnswersFrom site.cursorOf site.request.topK site.answer (site.listing ties) (m * site.request.topK) := by
    rintro m _ rows ⟨ties', rfl⟩
    have hpast : site.past ties' (cursorAfter site.cursorOf (site.listing ties) (m * site.request.topK)) =
        (site.listing ties).drop (m * site.request.topK) := by
      rw [hsettled ties ties']
      exact past_own ties' _
    rw [found_ranked hranked, hpast, queryLimit_eq hmax.le, if_pos hmax, List.take_take, min_self]
  have hfirst : 0 * site.request.topK ≤ (site.listing ties).length := by omega
  have hstart : none = cursorAfter site.cursorOf (site.listing ties) (0 * site.request.topK) := by
    rw [Nat.zero_mul, cursorAfter_zero]
  simpa using hpages.flatten_eq htop (listing_cursors ties) hanswers hfirst hstart

/-- Without two rows at one distance there is one order by distance. -/
theorem rows_unique {chunks : List CorpusChunk} (hapart : ∀ a ∈ chunks, ∀ b ∈ chunks,
      a.distance.isSome = true → a.distance = b.distance → a = b) (order order' : DistanceOrder chunks) :
    order.rows = order'.rows := by
  refine (order.perm.trans order'.perm.symm).eq_of_pairwise (fun a b ha hb hab hba => ?_) order.sorted order'.sorted
  obtain ⟨ha, hsome⟩ := List.mem_filter.mp (order.perm.mem_iff.mp ha)
  obtain ⟨hb, hsome'⟩ := List.mem_filter.mp (order'.perm.mem_iff.mp hb)
  obtain ⟨distance, hdistance⟩ := Option.isSome_iff_exists.mp hsome
  obtain ⟨distance', hdistance'⟩ := Option.isSome_iff_exists.mp hsome'
  rw [hdistance, hdistance'] at hab hba
  have heq : distance = distance' := le_antisymm hab hba
  exact hapart a ha b hb hsome (by rw [hdistance, hdistance', heq])

/-- No two embedded chunks are equally near, or the mode has no dense arm. -/
theorem untied_settled (h : site.request.retrievalMode = .bm25 ∨ ∀ a ∈ site.chunks, ∀ b ∈ site.chunks,
    a.distance.isSome = true → a.distance = b.distance → a = b) : site.TiesSettled := by
  intro ties ties'
  have hrows : rankedRows site.collation site.request ties = rankedRows site.collation site.request ties' := by
    rcases h with hmode | hapart
    · simp [rankedRows, pooled, rankedRow, hmode]
    · have hpool : densePool site.request ties = densePool site.request ties' := by
        unfold densePool
        rw [rows_unique hapart ties.numbering ties'.numbering, rows_unique hapart ties.cut ties'.cut]
      rw [rankedRows, hpool, rankedRows]
  have hgrouped : groupedRows site.collation site.request ties = groupedRows site.collation site.request ties' := by
    unfold groupedRows
    rw [hrows]
  rw [listing, hgrouped, listing]

/-- Two chunks of the same text, equally far from any query. -/
def twinChunks : List CorpusChunk :=
  [⟨"c1".toList, "d1".toList, none, some (1 / 2), true⟩, ⟨"c2".toList, "d2".toList, none, some (1 / 2), true⟩]

def twinSite : SearchSite where
  collation := codePointCollation
  request := { groupBy := .chunk, retrievalMode := .dense, topK := 1, lexicalWeight := 1, denseWeight := 3 / 10 }
  chunks := twinChunks
  resolved := []
  chunkIds := by decide
  resolvedIds := by decide
  resolvedScores := by simp

theorem search_enumerates_iff_twins : twinSite.Enumerates ↔ twinSite.Structured ∨ twinSite.PagesSettled ∧
    (twinSite.request.topK < u32Max ∨ ∀ ties, (twinSite.listing ties).length ≤ twinSite.request.topK) :=
  search_enumerates_iff twinSite (by decide) (by decide)

def inOrder : DistanceOrder twinChunks := ⟨twinChunks, by decide +kernel, by decide +kernel⟩

def inReverse : DistanceOrder twinChunks := ⟨twinChunks.reverse, by decide +kernel, by decide +kernel⟩

/-- The first page ranks the twins one way and the second the other way: one of them is
shown twice and the other never. -/
theorem twin_shown_twice : ¬ twinSite.Enumerates := by
  intro h
  let reversed : TieBreak twinSite.chunks := ⟨inReverse, inReverse⟩
  let ordered : TieBreak twinSite.chunks := ⟨inOrder, inOrder⟩
  let cursor : SearchCursor := { group := .chunk, score := round8 (1 / 61), id := "c2".toList }
  have hnext : (shown twinSite.cursorOf twinSite.request.topK (twinSite.found reversed none)).2 = some cursor := by
    decide +kernel
  have hlast : (shown twinSite.cursorOf twinSite.request.topK (twinSite.found ordered (some cursor))).2 = none := by
    decide +kernel
  have hpages := PagedBy.next hnext (PagedBy.last hlast)
  exact absurd (h.once _ _ hpages).1 (by decide +kernel)

end SearchSite

end CorpusFeed
