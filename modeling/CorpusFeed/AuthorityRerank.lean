import CorpusFeed.SlotSort
import CorpusFeed.TextLines
import Mathlib.Data.NNRat.Defs
import Mathlib.Data.Rat.Floor
import Mathlib.Tactic.Positivity
import Mathlib.Tactic.Linarith

/-! The authority re-rank of search candidates: in every cluster of nearly tied
scores the decisions of one legal order change places among themselves. -/

namespace CorpusFeed

inductive AuthorityOrder where
  | judicial
  | administrative
deriving DecidableEq

structure AuthorityTier where
  order : AuthorityOrder
  tier : Nat
  tierMax : Nat
  markerAbsent : Bool
deriving DecidableEq

def AuthorityTier.fraction (tier : AuthorityTier) : ℚ := tier.tier / tier.tierMax

/-- A text that ASCII case does not tell from `expected`, which is in lower case. -/
def eqIgnoreAsciiCase (t expected : Text) : Bool := t.map Char.toLower == expected

def authorityTier (source : Text) (publication : Option Text) : Option AuthorityTier :=
  let marker := (publication.map trim).filter fun value => !value.isEmpty
  if source = "cass".toList then
    match marker with
    | some value => if eqIgnoreAsciiCase value "oui".toList then some ⟨.judicial, 3, 3, false⟩ else some ⟨.judicial, 2, 3, false⟩
    | none => some ⟨.judicial, 2, 3, true⟩
  else if source = "inca".toList then some ⟨.judicial, 1, 3, false⟩
  else if source = "capp".toList then some ⟨.judicial, 0, 3, true⟩
  else if source = "jade".toList then
    match (marker.bind List.head?).map Char.toUpper with
    | some 'A' => some ⟨.administrative, 2, 2, false⟩
    | some 'B' => some ⟨.administrative, 1, 2, false⟩
    | some _ => some ⟨.administrative, 0, 2, false⟩
    | none => some ⟨.administrative, 0, 2, true⟩
  else none

structure AuthorityBlock where
  order : AuthorityOrder
  tier : Nat
  tierMax : Nat
  markerAbsent : Bool
  appliedWeight : ℚ
deriving DecidableEq

/-- A candidate of a search. A fused score adds reciprocals of ranks, under weights
that the SQL clamps at zero. -/
structure AuthorityCandidate where
  documentId : Text
  source : Option Text
  publication : Option Text
  rrf : Option ℚ≥0
  authority : Option AuthorityBlock
deriving DecidableEq

namespace AuthorityCandidate

/-- To eight decimals, halves upwards. -/
def roundedRrf (candidate : AuthorityCandidate) : ℚ :=
  let raw : ℚ := (candidate.rrf.getD 0 : ℚ≥0)
  (⌊raw * 10 ^ 8 + 1 / 2⌋ : ℚ) / 10 ^ 8

def candidateTier (candidate : AuthorityCandidate) : Option AuthorityTier :=
  candidate.source.bind fun source => authorityTier source candidate.publication

def adjustedScore (weight : ℚ) (candidate : AuthorityCandidate) : ℚ :=
  let fraction := (candidate.candidateTier.map AuthorityTier.fraction).getD 0
  candidate.roundedRrf * (1 + weight * fraction)

def legalOrder (candidate : AuthorityCandidate) : Option AuthorityOrder := candidate.candidateTier.map AuthorityTier.order

def annotateAuthorityBlock (weight : ℚ) (candidate : AuthorityCandidate) : AuthorityCandidate :=
  match candidate.candidateTier with
  | some tier => { candidate with authority := some ⟨tier.order, tier.tier, tier.tierMax, tier.markerAbsent, weight⟩ }
  | none => candidate

end AuthorityCandidate

open AuthorityCandidate

section Rerank

variable {α : Type*} (order : α → Option AuthorityOrder) (adjusted : α → ℚ)

/-- One legal order of a cluster: nothing to do for fewer than two slots. -/
def rerankOrder (cluster : List α) (legal : AuthorityOrder) : List α :=
  let member := fun row => decide (order row = some legal)
  if (cluster.filter member).length < 2 then cluster else sortSlots member adjusted cluster

def rerankSlots (cluster : List α) : List α :=
  [AuthorityOrder.judicial, .administrative].foldl (rerankOrder order adjusted) cluster

/-- Cluster by cluster, a cluster of one row left alone. -/
def rerankClusters (score : α → ℚ) (band : ℚ) (rows : List α) : List α :=
  (clusters score band rows).flatMap fun cluster =>
    if 1 < cluster.length then rerankSlots order adjusted cluster else cluster

end Rerank

def rerankCluster (weight : ℚ) (cluster : List AuthorityCandidate) : List AuthorityCandidate :=
  rerankSlots legalOrder (adjustedScore weight) cluster

def authorityRerank (candidates : List AuthorityCandidate) (weight band : ℚ) : List AuthorityCandidate :=
  if weight ≤ 0 then candidates
  else (clusters roundedRrf (max band 0) (candidates.map (annotateAuthorityBlock weight))).flatMap fun cluster =>
    if 1 < cluster.length then rerankCluster weight cluster else cluster

section Annotate

variable {weight : ℚ} {candidate : AuthorityCandidate}

@[simp] theorem annotate_roundedRrf : (annotateAuthorityBlock weight candidate).roundedRrf = candidate.roundedRrf := by
  unfold annotateAuthorityBlock
  split <;> rfl

@[simp] theorem annotate_candidateTier :
    (annotateAuthorityBlock weight candidate).candidateTier = candidate.candidateTier := by
  unfold annotateAuthorityBlock
  split <;> rfl

@[simp] theorem annotate_legalOrder : (annotateAuthorityBlock weight candidate).legalOrder = candidate.legalOrder := by
  rw [legalOrder, annotate_candidateTier, legalOrder]

@[simp] theorem annotate_adjustedScore :
    (annotateAuthorityBlock weight candidate).adjustedScore weight = candidate.adjustedScore weight := by
  rw [adjustedScore, annotate_candidateTier, annotate_roundedRrf, adjustedScore]

theorem roundedRrf_nonneg : 0 ≤ candidate.roundedRrf := by
  unfold roundedRrf
  have hraw : (0 : ℚ) ≤ (candidate.rrf.getD 0 : ℚ≥0) := NNRat.coe_nonneg _
  have hfloor : (0 : ℤ) ≤ ⌊((candidate.rrf.getD 0 : ℚ≥0) : ℚ) * 10 ^ 8 + 1 / 2⌋ := Int.floor_nonneg.mpr (by positivity)
  have hcast : (0 : ℚ) ≤ (⌊((candidate.rrf.getD 0 : ℚ≥0) : ℚ) * 10 ^ 8 + 1 / 2⌋ : ℚ) := by exact_mod_cast hfloor
  positivity

end Annotate

section Slots

variable {α β : Type*} {order : α → Option AuthorityOrder} {adjusted : α → ℚ} {legal : AuthorityOrder}

theorem rerankOrder_eq (cluster : List α) :
    rerankOrder order adjusted cluster legal = sortSlots (fun row => decide (order row = some legal)) adjusted cluster := by
  unfold rerankOrder
  dsimp only
  split
  next hfew =>
    obtain ⟨hslots, _, hothers⟩ := @sortSlots_slots α ℚ _ (fun row => decide (order row = some legal)) adjusted cluster
    have hmembers : rankMembers adjusted (cluster.filter fun row => decide (order row = some legal)) =
        cluster.filter fun row => decide (order row = some legal) := by
      generalize cluster.filter (fun row => decide (order row = some legal)) = members at hfew
      match members with
      | [] => rfl
      | [member] => exact List.perm_singleton.mp (rankMembers_perm [member])
      | _ :: _ :: _ =>
        simp only [List.length_cons] at hfew
        omega
    rw [sortSlots, hmembers, fillSlots_self]
  next => rfl

theorem rerankOrder_map (f : β → α) (cluster : List β) :
    (rerankOrder (order ∘ f) (adjusted ∘ f) cluster legal).map f = rerankOrder order adjusted (cluster.map f) legal := by
  rw [rerankOrder_eq, rerankOrder_eq]
  exact @sortSlots_map α β ℚ _ (fun row => decide (order row = some legal)) adjusted f cluster

theorem rerankSlots_map (f : β → α) (cluster : List β) :
    (rerankSlots (order ∘ f) (adjusted ∘ f) cluster).map f = rerankSlots order adjusted (cluster.map f) := by
  simp only [rerankSlots, List.foldl_cons, List.foldl_nil, rerankOrder_map]

theorem rerankClusters_map {score : α → ℚ} {band : ℚ} (f : β → α) (rows : List β) :
    (rerankClusters (order ∘ f) (adjusted ∘ f) (score ∘ f) band rows).map f =
      rerankClusters order adjusted score band (rows.map f) := by
  rw [rerankClusters, rerankClusters, clusters_map, List.map_flatMap, List.flatMap_map]
  refine List.flatMap_congr fun cluster _ => ?_
  by_cases hlong : 1 < cluster.length
  · simp only [hlong, List.length_map, if_true, rerankSlots_map]
  · simp only [hlong, List.length_map, if_false]

/-- Each row keeps the legal order of its slot, and a row of no order its slot. -/
def SameSlot (order : α → Option AuthorityOrder) (row row' : α) : Prop :=
  order row = order row' ∧ (order row = none → row = row')

theorem rerankOrder_slots (cluster : List α) :
    List.Forall₂ (SameSlot order) cluster (rerankOrder order adjusted cluster legal) := by
  rw [rerankOrder_eq]
  have hmember := @sortSlots_slots α ℚ _ (fun row => decide (order row = some legal)) adjusted cluster
  refine hmember.1.imp fun {row row'} hslot => ?_
  obtain ⟨hsame, hkept⟩ := hslot
  by_cases hlegal : order row = some legal
  · have hlegal' : order row' = some legal := by simpa [hlegal] using hsame.symm
    exact ⟨hlegal.trans hlegal'.symm, fun hnone => by simp [hlegal] at hnone⟩
  · obtain rfl := hkept (by simpa using hlegal)
    exact ⟨rfl, fun _ => rfl⟩

theorem SameSlot.trans {row row' row'' : α} (h : SameSlot order row row') (h' : SameSlot order row' row'') :
    SameSlot order row row'' :=
  ⟨h.1.trans h'.1, fun hnone => (h.2 hnone).trans (h'.2 (h.1 ▸ hnone))⟩

theorem forall₂_trans {R : α → α → Prop} (hR : ∀ a b c, R a b → R b c → R a c) {l m n : List α}
    (h : List.Forall₂ R l m) (h' : List.Forall₂ R m n) : List.Forall₂ R l n := by
  induction h generalizing n with
  | nil => exact h'
  | cons hab _ ih =>
    cases h' with
    | cons hbc htail => exact List.Forall₂.cons (hR _ _ _ hab hbc) (ih htail)

theorem rerankSlots_slots (cluster : List α) : List.Forall₂ (SameSlot order) cluster (rerankSlots order adjusted cluster) :=
  forall₂_trans (fun _ _ _ => SameSlot.trans) (rerankOrder_slots cluster) (rerankOrder_slots _)

theorem rerankSlots_perm (cluster : List α) : (rerankSlots order adjusted cluster).Perm cluster := by
  simp only [rerankSlots, List.foldl_cons, List.foldl_nil, rerankOrder_eq]
  exact (sortSlots_perm _).trans (sortSlots_perm cluster)

/-- The rows of one order are sorted by adjusted score, ties as they came in. -/
theorem rerankSlots_ranked {before : α → α → Prop} {cluster : List α} (hbefore : cluster.Pairwise before) :
    (rerankSlots order adjusted cluster).Pairwise fun a b => order a = order b → order a ≠ none →
      adjusted b < adjusted a ∨ adjusted a = adjusted b ∧ before a b := by
  have hother : ∀ legal legal' : AuthorityOrder, legal ≠ legal' → ∀ row : α,
      decide (order row = some legal) = true → decide (order row = some legal') = false := by
    intro legal legal' hne row hrow
    simp only [decide_eq_true_eq, decide_eq_false_iff_not] at hrow ⊢
    rw [hrow]
    exact fun h => hne (Option.some.inj h)
  have hfilter : ∀ legal, (rerankSlots order adjusted cluster).filter (fun row => decide (order row = some legal)) =
      rankMembers adjusted (cluster.filter fun row => decide (order row = some legal)) := by
    intro legal
    simp only [rerankSlots, List.foldl_cons, List.foldl_nil, rerankOrder_eq]
    cases legal with
    | judicial =>
      rw [sortSlots_filter_other (hother .judicial .administrative (by decide))]
      exact (sortSlots_slots cluster).2.1
    | administrative =>
      rw [(sortSlots_slots _).2.1, sortSlots_filter_other (hother .administrative .judicial (by decide))]
  have hranked : ∀ legal, (rerankSlots order adjusted cluster).Pairwise fun a b =>
      decide (order a = some legal) = true → decide (order b = some legal) = true →
        adjusted b < adjusted a ∨ adjusted a = adjusted b ∧ before a b := by
    intro legal
    rw [← List.pairwise_filter, hfilter]
    exact rankMembers_sorted (hbefore.filter _)
  refine ((hranked .judicial).and (hranked .administrative)).imp fun {a b} h hsame hsome => ?_
  cases hlegal : order a with
  | none => exact absurd hlegal hsome
  | some legal =>
    have hb : order b = some legal := hsame ▸ hlegal
    cases legal with
    | judicial => exact h.1 (by simpa using hlegal) (by simpa using hb)
    | administrative => exact h.2 (by simpa using hlegal) (by simpa using hb)

theorem rerankSlots_short {cluster : List α} (hshort : ¬ 1 < cluster.length) :
    rerankSlots order adjusted cluster = cluster := by
  have hfew : ∀ legal, rerankOrder order adjusted cluster legal = cluster := by
    intro legal
    have hle := List.length_filter_le (fun row => decide (order row = some legal)) cluster
    exact if_pos (by omega)
  simp [rerankSlots, hfew]

theorem rerankClusters_eq {score : α → ℚ} {band : ℚ} (rows : List α) :
    rerankClusters order adjusted score band rows =
      (clusters score band rows).flatMap (rerankSlots order adjusted) := by
  refine List.flatMap_congr fun cluster _ => ?_
  by_cases hlong : 1 < cluster.length
  · simp [hlong]
  · simp [hlong, rerankSlots_short hlong]

theorem forall₂_flatMap {R : α → α → Prop} {f : List α → List α} (hf : ∀ c, List.Forall₂ R c (f c)) (cs : List (List α)) :
    List.Forall₂ R cs.flatten (cs.flatMap f) := by
  induction cs with
  | nil => exact List.Forall₂.nil
  | cons c cs ih =>
    rw [List.flatten_cons, List.flatMap_cons]
    exact List.rel_append (hf c) ih

theorem rerankClusters_slots {score : α → ℚ} {band : ℚ} (rows : List α) :
    List.Forall₂ (SameSlot order) rows (rerankClusters order adjusted score band rows) := by
  have h := forall₂_flatMap (@rerankSlots_slots α order adjusted) (clusters score band rows)
  rwa [clusters_flatten, ← rerankClusters_eq] at h

theorem rerankClusters_perm {score : α → ℚ} {band : ℚ} (rows : List α) :
    (rerankClusters order adjusted score band rows).Perm rows := by
  have h := List.Perm.flatMap_left (clusters score band rows) fun c _ => @rerankSlots_perm α order adjusted c
  rw [rerankClusters_eq]
  calc ((clusters score band rows).flatMap (rerankSlots order adjusted)).Perm
        ((clusters score band rows).flatMap id) := h
    _ = rows := by rw [List.flatMap_id, clusters_flatten]

end Slots

section Moves

/-- Where the rows of a list with their incoming positions went. -/
structure Reranked (weight band : ℚ) (candidates : List AuthorityCandidate)
    (moved : List (AuthorityCandidate × ℕ)) (out : List AuthorityCandidate) : Prop where
  rows : out = moved.map fun row => annotateAuthorityBlock weight row.1
  perm : moved.Perm candidates.zipIdx
  slots : List.Forall₂ (SameSlot fun row => row.1.legalOrder) candidates.zipIdx moved
  overtaken : moved.Pairwise fun a b => b.2 < a.2 → (1 - band) * b.1.roundedRrf ≤ a.1.roundedRrf
  ranked : ∃ parts, moved = parts.flatten ∧ List.Forall₂ (fun cluster part => part.Perm cluster ∧
    part.Pairwise fun a b => a.1.legalOrder = b.1.legalOrder → a.1.legalOrder ≠ none →
      b.1.adjustedScore weight < a.1.adjustedScore weight ∨
        a.1.adjustedScore weight = b.1.adjustedScore weight ∧ a.2 < b.2)
    (clusters (fun row => row.1.roundedRrf) band candidates.zipIdx) parts

variable {weight band : ℚ} {candidates : List AuthorityCandidate}

theorem zipIdx_before {α : Type*} (rows : List α) : rows.zipIdx.Pairwise fun a b => a.2 < b.2 := by
  rw [← List.pairwise_map, List.zipIdx_map_snd]
  exact List.pairwise_lt_range'

theorem zipIdx_sorted (hsorted : candidates.Pairwise fun a b => b.roundedRrf ≤ a.roundedRrf) :
    candidates.zipIdx.Pairwise fun a b => b.1.roundedRrf ≤ a.1.roundedRrf := by
  have h : (candidates.zipIdx.map Prod.fst).Pairwise fun a b => b.roundedRrf ≤ a.roundedRrf := by
    rwa [List.zipIdx_map_fst]
  exact List.pairwise_map.mp h

theorem authorityRerank_eq (hweight : 0 < weight) (hband : 0 ≤ band) : authorityRerank candidates weight band =
    (rerankClusters (fun row : AuthorityCandidate × ℕ => row.1.legalOrder) (fun row => row.1.adjustedScore weight)
      (fun row => row.1.roundedRrf) band candidates.zipIdx).map fun row => annotateAuthorityBlock weight row.1 := by
  have hannotated : candidates.map (annotateAuthorityBlock weight) =
      candidates.zipIdx.map fun row => annotateAuthorityBlock weight row.1 := by
    conv_lhs => rw [← List.zipIdx_map_fst 0 candidates, List.map_map]
    rfl
  have hclusters : authorityRerank candidates weight band = rerankClusters legalOrder (adjustedScore weight) roundedRrf
      (max band 0) (candidates.map (annotateAuthorityBlock weight)) := by
    rw [authorityRerank, if_neg (not_le.mpr hweight)]
    rfl
  rw [hclusters, max_eq_left hband, hannotated, ← rerankClusters_map]
  congr 2
  · funext row
    simp
  · funext row
    simp
  · funext row
    simp

/-- The re-rank permutes the candidates inside the band, order by order: the slots of
each legal order stay, a row of no order stays where it is, and no row falls behind
one that scores below `1 - band` times its own. -/
theorem authority_moves_in_band (hweight : 0 < weight) (hband : 0 ≤ band)
    (hsorted : candidates.Pairwise fun a b => b.roundedRrf ≤ a.roundedRrf) :
    ∃ moved, Reranked weight band candidates moved (authorityRerank candidates weight band) := by
  have hbefore := @clusters_pairwise _ (fun row : AuthorityCandidate × ℕ => row.1.roundedRrf) band _ _
    (zipIdx_before candidates)
  have hscores := @clusters_pairwise _ (fun row : AuthorityCandidate × ℕ => row.1.roundedRrf) band _ _
    (zipIdx_sorted hsorted)
  refine ⟨_, authorityRerank_eq hweight hband, rerankClusters_perm _, rerankClusters_slots _, ?_, ?_⟩
  · rw [rerankClusters_eq, List.pairwise_flatMap]
    constructor
    · intro cluster hc
      refine List.pairwise_of_forall_mem_list fun a ha b hb _ => ?_
      have ha' := (rerankSlots_perm cluster).mem_iff.mp ha
      have hb' := (rerankSlots_perm cluster).mem_iff.mp hb
      exact cluster_close hc hband (fun row => roundedRrf_nonneg) (hscores.1 cluster hc) ha' hb'
    · -- between clusters nothing moved
      refine hbefore.2.imp fun {c c'} h a ha b hb hlt => ?_
      have hab := h a ((rerankSlots_perm c).mem_iff.mp ha) b ((rerankSlots_perm c').mem_iff.mp hb)
      omega
  · refine ⟨_, (rerankClusters_eq _).trans List.flatMap_def, ?_⟩
    rw [List.forall₂_map_right_iff, List.forall₂_same]
    intro cluster hc
    exact ⟨rerankSlots_perm cluster, rerankSlots_ranked (hbefore.1 cluster hc)⟩

/-- Two Cassation rulings, one of them published, around a row of no order: the
published one takes the first slot. -/
theorem authority_moves_in_band_published :
    let row := fun (id : Text) (source publication : Option Text) (rrf : ℚ≥0) =>
      (⟨id, source, publication, some rrf, none⟩ : AuthorityCandidate)
    let candidates := [row "1".toList (some "inca".toList) none 1, row "2".toList none none (99 / 100),
      row "3".toList (some "cass".toList) (some "oui".toList) (98 / 100)]
    (authorityRerank candidates 1 (1 / 20)).map documentId = ["3".toList, "2".toList, "1".toList] ∧
      ∃ moved, Reranked 1 (1 / 20) candidates moved (authorityRerank candidates 1 (1 / 20)) := by
  intro row candidates
  refine ⟨by decide +kernel, authority_moves_in_band (by norm_num) (by norm_num) ?_⟩
  decide +kernel

end Moves

end CorpusFeed
