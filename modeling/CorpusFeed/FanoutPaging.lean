import CorpusFeed.FanoutSearch
import Mathlib.Tactic.Linarith

/-! Following the `mc:` cursor of a search over several corpora. -/

namespace CorpusFeed

open FusedCandidate

section Listing

variable {α : Type*}

theorem zipIdx_filter_lt (rows : List α) (n k : ℕ) :
    (rows.zipIdx k).filter (fun row => decide (row.2 < k + n)) = (rows.take n).zipIdx k := by
  induction rows generalizing n k with
  | nil => simp
  | cons row rows ih =>
    cases n with
    | zero =>
      have hnone : ∀ x ∈ rows.zipIdx (k + 1), ¬ x.2 < k := by
        intro x hx
        have hle := List.le_snd_of_mem_zipIdx hx
        omega
      simpa using hnone
    | succ n =>
      have hrest := ih n (k + 1)
      have hsum : k + 1 + n = k + (n + 1) := by omega
      rw [hsum] at hrest
      simp [List.zipIdx_cons, hrest]

end Listing

section Scores

/-- The score of the candidate at a rank. -/
def crossAt (rank : ℕ) : ℚ := 1 / (rrfK + (rank : ℕ))

theorem rrfK_pos (rank : ℕ) : 0 < rrfK + (rank : ℚ) := by
  have hrank : (0 : ℚ) ≤ rank := Nat.cast_nonneg rank
  unfold rrfK
  linarith

theorem crossAt_le {i j : ℕ} : crossAt i ≤ crossAt j ↔ j ≤ i := by
  rw [crossAt, crossAt, one_div_le_one_div (rrfK_pos i) (rrfK_pos j), add_le_add_iff_left, Nat.cast_le]

theorem round8_mono {a b : ℚ} (h : a ≤ b) : round8 a ≤ round8 b := by
  have hscaled : a * 10 ^ 8 + 1 / 2 ≤ b * 10 ^ 8 + 1 / 2 := by linarith
  have hfloor : (⌊a * 10 ^ 8 + 1 / 2⌋ : ℚ) ≤ (⌊b * 10 ^ 8 + 1 / 2⌋ : ℚ) := by exact_mod_cast Int.floor_le_floor hscaled
  unfold round8
  linarith

@[simp] theorem round8_round8 (value : ℚ) : round8 (round8 value) = round8 value := by
  have hscaled : round8 value * 10 ^ 8 = ⌊value * 10 ^ 8 + 1 / 2⌋ := by
    unfold round8
    ring
  have hhalf : ⌊((⌊value * 10 ^ 8 + 1 / 2⌋ : ℤ) : ℚ) + 1 / 2⌋ = ⌊value * 10 ^ 8 + 1 / 2⌋ := by
    rw [Int.floor_intCast_add]
    norm_num
  conv_lhs => rw [round8, hscaled, hhalf]
  rfl

end Scores

section Order

theorem fusedLt_trans {a b c : FusedCandidate} (hab : fusedLt a b) (hbc : fusedLt b c) : fusedLt a c := by
  rcases hab with hab | ⟨hab, hplace⟩ <;> rcases hbc with hbc | ⟨hbc, hplace'⟩
  · exact Or.inl (hbc.trans hab)
  · exact Or.inl (hbc ▸ hab)
  · exact Or.inl (hab ▸ hbc)
  · exact Or.inr ⟨hab.trans hbc, hplace.trans hplace'⟩

instance : Std.Total fusedLe := ⟨fun a b => by
  rcases lt_trichotomy a.cross b.cross with h | h | h
  · exact Or.inr (Or.inl h)
  · exact (le_total a.place b.place).imp (fun hle => Or.inr ⟨h, hle⟩) fun hle => Or.inr ⟨h.symm, hle⟩
  · exact Or.inl (Or.inl h)⟩

instance : IsTrans FusedCandidate fusedLe := ⟨fun a b c hab hbc => by
  rcases hab with hab | ⟨hab, hplace⟩ <;> rcases hbc with hbc | ⟨hbc, hplace'⟩
  · exact Or.inl (hbc.trans hab)
  · exact Or.inl (hbc ▸ hab)
  · exact Or.inl (hab ▸ hbc)
  · exact Or.inr ⟨hab.trans hbc, hplace.trans hplace'⟩⟩

theorem fusedLt_irrefl {a : FusedCandidate} : ¬ fusedLt a a := by
  rintro (h | ⟨_, h⟩)
  · exact lt_irrefl _ h
  · exact lt_irrefl _ h

theorem fusedLe_antisymm_place {a b : FusedCandidate} (hab : fusedLe a b) (hba : fusedLe b a) : a.place = b.place := by
  rcases hab with hab | ⟨hab, hplace⟩ <;> rcases hba with hba | ⟨hba, hplace'⟩
  · exact absurd (hab.trans hba) (lt_irrefl _)
  · exact absurd hab (hba ▸ lt_irrefl _)
  · exact absurd hba (hab ▸ lt_irrefl _)
  · exact le_antisymm hplace hplace'

theorem fusedLt_of_fusedLe {a b : FusedCandidate} (hle : fusedLe a b) (hne : a.place ≠ b.place) : fusedLt a b :=
  hle.imp id fun h => ⟨h.1, lt_of_le_of_ne h.2 hne⟩

theorem precedes_iff {group : GroupBy} {a b : FusedCandidate} : (a.cursor group).precedes b = true ↔
    round8 b.cross < round8 a.cross ∨ round8 a.cross = round8 b.cross ∧ a.place < b.place := by
  unfold MultiCorpusCursor.precedes FusedCandidate.cursor
  dsimp only
  rw [round8_round8]
  rcases lt_trichotomy (round8 a.cross) (round8 b.cross) with h | h | h
  · simp [h, h.ne, not_lt.mpr h.le]
  · simp only [h, lt_irrefl, if_false, false_or, true_and, decide_eq_true_eq]
    rfl
  · simp [h, not_lt.mpr h.le]

end Order

/-- Active corpora with what each of them ranks: a corpus is active once, and an id
is listed once by its corpus. -/
structure FanoutSite where
  groupBy : GroupBy
  corpora : List ActiveCorpus
  ranked : ActiveCorpus → List ArmCandidate
  corporaNodup : (corpora.map fun corpus => corpus.corpus.name).Nodup
  idsNodup : ∀ corpus ∈ corpora, ((ranked corpus).map (ArmCandidate.candidateId groupBy)).Nodup

namespace FanoutSite

variable (site : FanoutSite)

def all : List FusedCandidate :=
  site.corpora.flatMap fun corpus => armFused site.groupBy corpus (site.ranked corpus)

/-- Every candidate of every arm, by score, corpus and id. -/
def merged : List FusedCandidate := site.all.insertionSort fusedLe

variable {site}

theorem place_nodup : (site.all.map place).Nodup := by
  have harm : ∀ corpus ∈ site.corpora,
      ((armFused site.groupBy corpus (site.ranked corpus)).map place) =
        ((site.ranked corpus).map (ArmCandidate.candidateId site.groupBy)).map fun id => toLex (corpus.corpus.name, id) := by
    intro corpus _
    rw [armFused, List.map_map, List.map_map]
    conv_rhs => rw [← List.zipIdx_map_fst 0 (site.ranked corpus), List.map_map]
    rfl
  rw [all, List.map_flatMap, List.nodup_flatMap]
  constructor
  · intro corpus hcorpus
    rw [harm corpus hcorpus]
    exact (site.idsNodup corpus hcorpus).map fun a b hab => (Prod.ext_iff.mp (toLex.injective hab)).2
  · refine (List.pairwise_map.mp site.corporaNodup).imp_of_mem fun {c c'} hc hc' hne => ?_
    intro x hx hx'
    dsimp only at hx hx'
    rw [harm c hc] at hx
    rw [harm c' hc'] at hx'
    obtain ⟨_, _, rfl⟩ := List.mem_map.mp hx
    obtain ⟨_, _, heq⟩ := List.mem_map.mp hx'
    exact hne (Prod.ext_iff.mp (toLex.injective heq)).1.symm

theorem merged_perm : site.merged.Perm site.all := List.perm_insertionSort fusedLe site.all

theorem merged_sorted : site.merged.Pairwise fusedLt := by
  have hplace : (site.merged.map place).Nodup := (site.merged_perm.map place).nodup_iff.mpr site.place_nodup
  exact ((List.pairwise_insertionSort fusedLe site.all).and (List.pairwise_map.mp hplace)).imp
    fun {a b} h => fusedLt_of_fusedLe h.1 h.2

/-- The rows that the arms fetch to a depth. -/
def fetched (depth : ℕ) (candidate : FusedCandidate) : Bool := decide (crossAt depth ≤ candidate.cross)

theorem armFused_take (corpus : ActiveCorpus) (depth : ℕ) :
    armFused site.groupBy corpus ((site.ranked corpus).take depth) =
      (armFused site.groupBy corpus (site.ranked corpus)).filter (fetched depth) := by
  have hfetched : ∀ row : ArmCandidate × ℕ, row ∈ (site.ranked corpus).zipIdx →
      decide (crossAt depth ≤ 1 / (rrfK + (row.2 + 1 : ℕ))) = decide (row.2 < 0 + depth) := by
    intro row _
    have hiff : crossAt depth ≤ 1 / (rrfK + (row.2 + 1 : ℕ)) ↔ row.2 < 0 + depth := by
      rw [Nat.zero_add]
      exact crossAt_le.trans Nat.succ_le_iff
    exact decide_eq_decide.mpr hiff
  rw [armFused, armFused, List.filter_map, ← zipIdx_filter_lt]
  congr 1
  exact (List.filter_congr hfetched).symm

theorem fetch_sorted (depth : ℕ) :
    (site.corpora.flatMap fun corpus => armFused site.groupBy corpus ((site.ranked corpus).take depth)).insertionSort fusedLe =
      site.merged.filter (fetched depth) := by
  have hfetch : (site.corpora.flatMap fun corpus => armFused site.groupBy corpus ((site.ranked corpus).take depth)) =
      site.all.filter (fetched depth) := by
    rw [all, List.filter_flatMap]
    exact List.flatMap_congr fun corpus _ => armFused_take corpus depth
  rw [hfetch]
  refine insertionSort_filter fun a ha b hb hab hba => ?_
  exact List.inj_on_of_nodup_map site.place_nodup ha hb (fusedLe_antisymm_place hab hba)

theorem filter_precedes {position : ℕ} {last : FusedCandidate} (horders : ∀ a ∈ site.merged, ∀ b ∈ site.merged,
    fusedLt a b ↔ (a.cursor site.groupBy).precedes b = true) (hlast : (site.merged.take position).getLast? = some last) :
    site.merged.filter (last.cursor site.groupBy).precedes = site.merged.drop position := by
  have hmem : last ∈ site.merged := List.mem_of_mem_take (List.mem_of_getLast? hlast)
  exact filter_after site.merged_sorted (fun _ => fusedLt_irrefl) (fun _ _ _ => fusedLt_trans) (horders last hmem) hlast

section Pages

variable (site) (mode : RetrievalMode) (fingerprint : Option Text) (topK : ℕ)

/-- The query of one page: the request fetches a row more than it shows. -/
def query (cursor : Option MultiCorpusCursor) : FanoutQuery :=
  { groupBy := site.groupBy, retrievalMode := mode, embeddingFingerprint := fingerprint, afterCursor := cursor,
    limit := saturatingAdd topK 1 }

def answer (cursor : Option MultiCorpusCursor) (rows : List FanoutRow) : Prop :=
  hybridCandidatesFanout site.ranked site.corpora (site.query mode fingerprint topK cursor) = .ok rows

/-- Every corpus carries the fingerprint that the query is embedded under. -/
def FingerprintsMatch : Prop :=
  mode.usesDense = true → ∀ corpus ∈ site.corpora, fingerprint = some corpus.fingerprint

/-- The rows to show, in the order of the arms merged. -/
def listing : List FanoutRow := site.merged.map (intoResponseValue site.groupBy)

/-- The cursor after the first `position` candidates. -/
def cursorPast (position : ℕ) : Option MultiCorpusCursor :=
  cursorAfter (fun candidate => some (candidate.cursor site.groupBy)) site.merged position

/-- How deep the arms are fetched for the page at `position`. -/
def depthAt (position : ℕ) : ℕ := fetchDepth (max (saturatingAdd topK 1) 1) (site.cursorPast position)

end Pages

variable {mode : RetrievalMode} {fingerprint : Option Text} {topK : ℕ}

theorem cursorAfter_listing (position : ℕ) : cursorAfter FanoutRow.nextCursor site.listing position = site.cursorPast position := by
  rw [cursorPast, cursorAfter, cursorAfter, listing, ← List.map_take, List.getLast?_map, Option.bind_map]
  rfl

theorem no_mismatch (hmatch : site.FingerprintsMatch mode fingerprint) : (if mode.usesDense = true then
    site.corpora.find? fun corpus => fingerprint != some corpus.fingerprint else none) = none := by
  by_cases hdense : mode.usesDense = true
  · rw [if_pos hdense, List.find?_eq_none]
    intro corpus hcorpus
    simp [hmatch hdense corpus hcorpus]
  · rw [if_neg hdense]

theorem answer_total (hmatch : site.FingerprintsMatch mode fingerprint) (cursor : Option MultiCorpusCursor) :
    ∃ rows, site.answer mode fingerprint topK cursor rows := by
  unfold answer hybridCandidatesFanout query
  dsimp only
  rw [no_mismatch hmatch]
  exact ⟨_, rfl⟩

/-- What a page shows while the cursor filter agrees with the order. -/
theorem answer_eq (hmatch : site.FingerprintsMatch mode fingerprint) (horders : ∀ a ∈ site.merged, ∀ b ∈ site.merged,
    fusedLt a b ↔ (a.cursor site.groupBy).precedes b = true) (position : ℕ) (rows : List FanoutRow) :
    site.answer mode fingerprint topK (cursorAfter FanoutRow.nextCursor site.listing position) rows ↔
      rows = ((((site.merged.drop position).filter (fetched (site.depthAt topK position))).take
        (max (saturatingAdd topK 1) 1)).map (intoResponseValue site.groupBy)) := by
  have hmismatch := no_mismatch hmatch
  have hstart : site.cursorPast position = none → site.merged.drop position = site.merged := by
    intro hcursor
    cases hlast : (site.merged.take position).getLast? with
    | none =>
      have hnil : site.merged.take position = [] := List.getLast?_eq_none_iff.mp hlast
      conv_rhs => rw [← List.take_append_drop position site.merged, hnil, List.nil_append]
    | some last => simp [cursorPast, cursorAfter, hlast] at hcursor
  have hpast : ∀ cursor, site.cursorPast position = some cursor →
      (site.merged.filter (fetched (site.depthAt topK position))).filter cursor.precedes =
        (site.merged.drop position).filter (fetched (site.depthAt topK position)) := by
    intro cursor hcursor
    cases hlast : (site.merged.take position).getLast? with
    | none => simp [cursorPast, cursorAfter, hlast] at hcursor
    | some last =>
      simp only [cursorPast, cursorAfter, hlast, Option.bind_some, Option.some.injEq] at hcursor
      rw [← hcursor, List.filter_filter, ← filter_precedes horders hlast, List.filter_filter]
      exact List.filter_congr fun row _ => Bool.and_comm _ _
  unfold answer hybridCandidatesFanout query
  dsimp only
  rw [hmismatch, cursorAfter_listing]
  dsimp only
  rw [fetch_sorted, Except.ok.injEq, eq_comm]
  cases hcursor : site.cursorPast position with
  | none =>
    have hdepth : site.depthAt topK position = fetchDepth (max (saturatingAdd topK 1) 1) none := by
      rw [depthAt, hcursor]
    rw [hstart hcursor, hdepth]
  | some cursor =>
    have hdepth : site.depthAt topK position = fetchDepth (max (saturatingAdd topK 1) 1) (some cursor) := by
      rw [depthAt, hcursor]
    rw [← hpast cursor hcursor, hdepth]

/-- Whoever follows the cursor sees every candidate once, in order, until the pages end;
the arms are fetched deep enough for every page; the cursor filter keeps what the order
puts behind the cursor. -/
structure Enumerates (site : FanoutSite) (mode : RetrievalMode) (fingerprint : Option Text) (topK : ℕ) : Prop where
  ends : PagesEnd FanoutRow.nextCursor topK (site.answer mode fingerprint topK) none
  pages : ∃ pages, Paged FanoutRow.nextCursor topK (site.answer mode fingerprint topK) none pages ∧
    pages.flatten = site.listing
  covers : ∀ m, ∀ row ∈ (site.merged.drop (m * topK)).take (topK + 1), row ∈ site.corpora.flatMap fun corpus =>
    armFused site.groupBy corpus ((site.ranked corpus).take (site.depthAt topK (m * topK)))
  orders : ∀ a ∈ site.merged, ∀ b ∈ site.merged, fusedLt a b ↔ (a.cursor site.groupBy).precedes b = true

/-- Where two ranks have the same score to eight decimals, the better rank has the
smaller corpus and id. -/
def TiesInOrder (site : FanoutSite) : Prop :=
  ∀ a ∈ site.merged, ∀ b ∈ site.merged, b.cross < a.cross → round8 a.cross = round8 b.cross → a.place < b.place

/-- The rank that the rounded score of a cursor stands for, and a page more, reach the
ranks of the next page; and the row fetched beyond a page is not lost to saturation. -/
structure DepthReaches (site : FanoutSite) (topK : ℕ) : Prop where
  ranks : ∀ m, ∀ row ∈ (site.merged.drop (m * topK)).take (topK + 1), crossAt (site.depthAt topK (m * topK)) ≤ row.cross
  room : topK < u32Max ∨ site.merged.length ≤ topK

theorem orders_iff : (∀ a ∈ site.merged, ∀ b ∈ site.merged, fusedLt a b ↔ (a.cursor site.groupBy).precedes b = true) ↔
    site.TiesInOrder := by
  constructor
  · intro horders a ha b hb hlt htie
    have hprecedes := precedes_iff.mp ((horders a ha b hb).mp (Or.inl hlt))
    rcases hprecedes with h | h
    · exact absurd h (htie ▸ lt_irrefl _)
    · exact h.2
  · intro hties a ha b hb
    rw [precedes_iff]
    rcases lt_trichotomy a.cross b.cross with hlt | heq | hgt
    · -- `b` is ahead, also where the scores round to the same
      have hmono := round8_mono hlt.le
      have hnot : ¬ fusedLt a b := by
        rintro (h | ⟨h, _⟩)
        · exact lt_irrefl _ (h.trans hlt)
        · exact hlt.ne h
      refine iff_of_false hnot ?_
      rintro (h | ⟨htie, hplace⟩)
      · exact absurd h (not_lt.mpr hmono)
      · exact lt_irrefl _ (hplace.trans (hties b hb a ha hlt htie.symm))
    · simp [fusedLt, heq]
    · refine iff_of_true (Or.inl hgt) ?_
      rcases (round8_mono hgt.le).lt_or_eq with h | h
      · exact Or.inl h
      · exact Or.inr ⟨h.symm, hties a ha b hb hgt h.symm⟩

theorem merged_cut (depth : ℕ) (position : ℕ) :
    (site.merged.drop position).Pairwise fun a b => fetched depth b = true → fetched depth a = true := by
  refine (site.merged_sorted.drop).imp fun {a b} hlt hb => ?_
  simp only [fetched, decide_eq_true_eq] at hb ⊢
  rcases hlt with hlt | ⟨heq, _⟩
  · exact hb.trans hlt.le
  · exact heq ▸ hb

theorem covers_iff {depth : ℕ} {row : FusedCandidate} (hrow : row ∈ site.merged) :
    (row ∈ site.corpora.flatMap fun corpus => armFused site.groupBy corpus ((site.ranked corpus).take depth)) ↔
      crossAt depth ≤ row.cross := by
  rw [← List.mem_insertionSort fusedLe, fetch_sorted, List.mem_filter]
  simp [fetched, hrow]

theorem page_room (htop : 0 < topK) (hmax : topK ≤ u32Max) :
    max (saturatingAdd topK 1) 1 = if topK < u32Max then topK + 1 else topK := by
  unfold saturatingAdd
  split <;> omega

theorem answersFrom_listing (hmatch : site.FingerprintsMatch mode fingerprint) (htop : 0 < topK) (hmax : topK ≤ u32Max)
    (hties : site.TiesInOrder) (hdepth : site.DepthReaches topK) (m : ℕ) :
    AnswersFrom FanoutRow.nextCursor topK (site.answer mode fingerprint topK) site.listing (m * topK) := by
  intro found hfound
  rw [answer_eq hmatch (orders_iff.mpr hties)] at hfound
  have hreach : ∀ row ∈ (site.merged.drop (m * topK)).take (topK + 1), fetched (site.depthAt topK (m * topK)) row = true := by
    intro row hrow
    simpa [fetched] using hdepth.ranks m row hrow
  have hprefix := take_filter_eq hreach
  rw [hfound, page_room htop hmax, listing, ← List.map_take, ← List.map_drop, ← List.map_take, List.take_take]
  congr 1
  rcases hdepth.room with hroom | hfew
  · rw [if_pos hroom, min_self, hprefix]
  · have hshort : (site.merged.drop (m * topK)).length ≤ topK := by
      rw [List.length_drop]
      omega
    have hlength := (List.length_filter_le (fetched (site.depthAt topK (m * topK))) (site.merged.drop (m * topK))).trans hshort
    rw [← hprefix]
    split
    · rw [min_self]
    · rw [min_eq_right (Nat.le_succ topK), List.take_of_length_le hlength, List.take_of_length_le (hlength.trans (Nat.le_succ topK))]

/-- Pages that show all the rest were fetched deep enough for it. -/
theorem depth_of_paged (hmatch : site.FingerprintsMatch mode fingerprint) (htop : 0 < topK) (hmax : topK ≤ u32Max)
    (hties : site.TiesInOrder)
    {cursor : Option MultiCorpusCursor} {pages : List (List FanoutRow)}
    (h : Paged FanoutRow.nextCursor topK (site.answer mode fingerprint topK) cursor pages) {m : ℕ}
    (hcursor : cursor = cursorAfter FanoutRow.nextCursor site.listing (m * topK))
    (hpages : pages.flatten = site.listing.drop (m * topK)) :
    (∀ m', m ≤ m' → ∀ row ∈ (site.merged.drop (m' * topK)).take (topK + 1),
      crossAt (site.depthAt topK (m' * topK)) ≤ row.cross) ∧
      (topK < u32Max ∨ (site.merged.drop (m * topK)).length ≤ topK) := by
  induction h generalizing m with
  | @last cursor found hrows hlast =>
    rw [hcursor, answer_eq hmatch (orders_iff.mpr hties)] at hrows
    obtain ⟨hfew, hfound⟩ := shown_eq_none htop (fun _ _ => rfl) hlast
    rw [hfound] at hpages
    have hlength : found.length = (site.merged.drop (m * topK)).length := by
      have h := congrArg List.length hpages
      simpa [listing] using h
    have hall : ∀ row ∈ site.merged.drop (m * topK), fetched (site.depthAt topK (m * topK)) row = true := by
      refine List.length_filter_eq_length_iff.mp (le_antisymm (List.length_filter_le _ _) ?_)
      rw [← hlength, hrows, List.length_map]
      exact List.length_take_le' _ _
    refine ⟨fun m' hm' row hrow => ?_, Or.inr (hlength ▸ hfew)⟩
    rcases hm'.eq_or_lt with rfl | hlt
    · simpa [fetched] using hall row (List.mem_of_mem_take hrow)
    · have hmul : (m + 1) * topK ≤ m' * topK := Nat.mul_le_mul_right topK hlt
      rw [Nat.succ_mul] at hmul
      have hend : site.merged.length ≤ m' * topK := by
        rw [List.length_drop] at hlength
        omega
      rw [List.drop_eq_nil_of_le hend] at hrow
      simp at hrow
  | @next cursor found next pages hrows hnext _ ih =>
    obtain ⟨hmore, hfound, hrow⟩ := shown_eq_some hnext
    rw [hfound] at hpages
    rw [hcursor, answer_eq hmatch (orders_iff.mpr hties)] at hrows
    have hlong : topK < (((site.merged.drop (m * topK)).filter (fetched (site.depthAt topK (m * topK)))).take
        (max (saturatingAdd topK 1) 1)).length := by
      rw [hrows, List.length_map] at hmore
      exact hmore
    rw [List.length_take] at hlong
    have hroom : topK < u32Max := by
      unfold saturatingAdd at hlong
      omega
    have hlisted : topK + 1 ≤ ((site.merged.drop (m * topK)).filter (fetched (site.depthAt topK (m * topK)))).length := by
      omega
    have hhere := mem_take_of_filter (merged_cut (site.depthAt topK (m * topK)) (m * topK)) hlisted
    have hshown : (found.take topK).length = topK := by
      rw [List.length_take]
      omega
    rw [List.flatten_cons] at hpages
    have hpage : found.take topK = (site.listing.drop (m * topK)).take topK := by
      rw [← hpages, List.take_left' hshown]
    have hrest : pages.flatten = site.listing.drop ((m + 1) * topK) := by
      rw [Nat.succ_mul, ← List.drop_drop, ← hpages, List.drop_left' hshown]
    rw [hpage] at hrow
    have hcursor' := cursorAfter_add hrow
    rw [← Nat.succ_mul] at hcursor'
    refine ⟨fun m' hm' => ?_, Or.inl hroom⟩
    rcases hm'.eq_or_lt with rfl | hlt
    · intro r hr
      simpa [fetched] using hhere r hr
    · exact (ih hcursor'.symm hrest).1 m' hlt

/-- Whoever follows the cursor of a search over several corpora sees all candidates
exactly when ranks that round to one score are in the order of corpus and id, and
the rank that a rounded score stands for is deep enough at every page. -/
theorem fanout_enumerates_iff (site : FanoutSite) (hmatch : site.FingerprintsMatch mode fingerprint) (htop : 0 < topK)
    (hmax : topK ≤ u32Max) : site.Enumerates mode fingerprint topK ↔ site.TiesInOrder ∧ site.DepthReaches topK := by
  constructor
  · intro h
    have hties := orders_iff.mp h.orders
    obtain ⟨pages, hpaged, hpages⟩ := h.pages
    have hdepth := depth_of_paged hmatch htop hmax hties hpaged (Nat.zero_mul topK ▸ cursorAfter_zero.symm) (by simpa using hpages)
    exact ⟨hties, fun m => hdepth.1 m (Nat.zero_le m), by simpa using hdepth.2⟩
  · rintro ⟨hties, hdepth⟩
    have hanswers := fun m (_ : m * topK ≤ site.listing.length) => answersFrom_listing hmatch htop hmax hties hdepth m
    have hstart : cursorAfter FanoutRow.nextCursor site.listing (0 * topK) = none := by rw [Nat.zero_mul, cursorAfter_zero]
    have hfirst : 0 * topK ≤ site.listing.length := by omega
    have hends := pagesEnd_of_answers htop hanswers hfirst
    rw [hstart] at hends
    obtain ⟨pages, hpages⟩ := hends.paged fun cursor => answer_total hmatch cursor
    refine ⟨hends, ⟨pages, hpages, ?_⟩, fun m row hrow => ?_, orders_iff.mpr hties⟩
    · simpa using hpages.flatten_eq htop (fun _ _ => rfl) hanswers hfirst hstart.symm
    · exact (covers_iff (List.mem_of_mem_drop (List.mem_of_mem_take hrow))).mpr (hdepth.ranks m row hrow)

/-- Two corpora of one row each. -/
def plainSite : FanoutSite where
  groupBy := .document
  corpora := [⟨coreCorpus, "g1".toList, "g1".toList, 1, "bge".toList⟩,
    ⟨⟨"legi".toList, by decide⟩, "g2".toList, "g2".toList, 1, "bge".toList⟩]
  ranked := fun corpus => [⟨corpus.generation, corpus.generation, 1⟩]
  corporaNodup := by decide
  idsNodup := by decide

theorem fanout_enumerates_iff_plain : plainSite.Enumerates .hybrid (some "bge".toList) 1 ↔
    plainSite.TiesInOrder ∧ plainSite.DepthReaches 1 :=
  fanout_enumerates_iff plainSite (fun _ => by decide) (by decide) (by decide)

/-- One corpus ranks more than ten thousand rows, of which the two at ranks 10010 and
10011 come in the other order of their ids, and another one nothing. -/
def crowdedSite : FanoutSite where
  groupBy := .chunk
  corpora := [⟨coreCorpus, "g1".toList, "g1".toList, 1, "bge".toList⟩,
    ⟨⟨"legi".toList, by decide⟩, "g2".toList, "g2".toList, 1, "bge".toList⟩]
  ranked := fun corpus => if corpus.generation = "g1".toList then
      (List.range 10011).map fun rank =>
        let id := (if rank < 10010 then 'b' else 'a') :: List.replicate rank 'x'
        ⟨id, id, 1⟩
    else []
  corporaNodup := by decide
  idsNodup := by
    intro corpus _
    split
    · rw [List.map_map]
      refine List.nodup_range.map fun i j hij => ?_
      have hlength := congrArg List.length hij
      simpa [ArmCandidate.candidateId] using hlength
    · exact List.nodup_nil

/-- The score of both ranks rounds to 0.0000993, and the cursor filter drops the one
that the order puts behind the other. -/
theorem crowded_row_dropped : ¬ crowdedSite.Enumerates .bm25 none 10010 := by
  intro h
  have hmem : ∀ rank, rank < 10011 → ∃ candidate ∈ crowdedSite.merged,
      candidate.corpus = "core".toList ∧ candidate.cross = crossAt (rank + 1) ∧
        candidate.id = (if rank < 10010 then 'b' else 'a') :: List.replicate rank 'x' := by
    intro rank hrank
    let id := (if rank < 10010 then 'b' else 'a') :: List.replicate rank 'x'
    refine ⟨⟨"core".toList, id, crossAt (rank + 1), ⟨id, id, 1⟩⟩, ?_, rfl, rfl, rfl⟩
    refine crowdedSite.merged_perm.mem_iff.mpr (List.mem_flatMap.mpr ⟨_, List.mem_cons_self, ?_⟩)
    refine List.mem_map.mpr ⟨(⟨id, id, 1⟩, rank), List.mem_zipIdx_iff_getElem?.mpr ?_, rfl⟩
    simp [crowdedSite, hrank, id]
  obtain ⟨a, ha, hca, hsa, hida⟩ := hmem 10009 (by norm_num)
  obtain ⟨b, hb, hcb, hsb, hidb⟩ := hmem 10010 (by norm_num)
  have hlt : b.cross < a.cross := by
    rw [hsa, hsb, ← not_le, crossAt_le]
    norm_num
  have htie : round8 a.cross = round8 b.cross := by
    rw [hsa, hsb]
    decide +kernel
  have hplace := orders_iff.mp h.orders a ha b hb hlt htie
  rw [if_pos (by norm_num)] at hida
  rw [if_neg (by norm_num)] at hidb
  generalize List.replicate 10009 'x' = resta at hida
  generalize List.replicate 10010 'x' = restb at hidb
  rw [place, place, Prod.Lex.toLex_lt_toLex, hca, hcb, hida, hidb] at hplace
  simp [List.cons_lt_cons_iff] at hplace

end FanoutSite

end CorpusFeed
