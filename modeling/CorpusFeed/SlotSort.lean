import Mathlib.Data.List.Sort
import Mathlib.Data.List.TakeWhile
import Mathlib.Algebra.Order.Ring.Rat
import Mathlib.Tactic.Linarith

/-! Sorting some of the rows of a list within the slots that they hold, and cutting
a list into clusters relative to their first rows. -/

namespace CorpusFeed

section Slots

variable {α β : Type*} {κ : Type*} [LinearOrder κ]

/-- By score, the greatest first. Ties stay in incoming order. -/
def rankMembers (score : α → κ) (members : List α) : List α :=
  (members.zipIdx.insertionSort fun a b => score b.1 < score a.1 ∨ score a.1 = score b.1 ∧ a.2 ≤ b.2).map Prod.fst

/-- The rows with `p` are replaced by the members, slot by slot. -/
def fillSlots (p : α → Bool) : List α → List α → List α
  | [], _ => []
  | row :: rows, members =>
    if p row then
      match members with
      | member :: members => member :: fillSlots p rows members
      | [] => row :: fillSlots p rows []
    else row :: fillSlots p rows members

def sortSlots (p : α → Bool) (score : α → κ) (rows : List α) : List α :=
  fillSlots p rows (rankMembers score (rows.filter p))

/-- Same slots: a row that is not a member stays where it is. -/
def SlotOf (p : α → Bool) (row row' : α) : Prop := p row = p row' ∧ (p row = false → row = row')

variable {p : α → Bool} {score : α → κ}

theorem rankMembers_perm (members : List α) : (rankMembers score members).Perm members := by
  have hperm := (List.perm_insertionSort (fun a b : α × ℕ => score b.1 < score a.1 ∨ score a.1 = score b.1 ∧ a.2 ≤ b.2)
    members.zipIdx).map Prod.fst
  rw [List.zipIdx_map_fst] at hperm
  exact hperm

theorem rankMembers_sorted {before : α → α → Prop} {members : List α} (hbefore : members.Pairwise before) :
    (rankMembers score members).Pairwise fun a b => score b < score a ∨ score a = score b ∧ before a b := by
  let le : α × ℕ → α × ℕ → Prop := fun a b => score b.1 < score a.1 ∨ score a.1 = score b.1 ∧ a.2 ≤ b.2
  have htotal : Std.Total le := ⟨fun a b => by
    rcases lt_trichotomy (score a.1) (score b.1) with h | h | h
    · exact Or.inr (Or.inl h)
    · exact (le_total a.2 b.2).imp (fun hle => Or.inr ⟨h, hle⟩) fun hle => Or.inr ⟨h.symm, hle⟩
    · exact Or.inl (Or.inl h)⟩
  have htrans : IsTrans (α × ℕ) le := ⟨fun a b c => by
    rintro (hab | ⟨hab, hle⟩) (hbc | ⟨hbc, hle'⟩)
    · exact Or.inl (hbc.trans hab)
    · exact Or.inl (hbc ▸ hab)
    · exact Or.inl (hab ▸ hbc)
    · exact Or.inr ⟨hab.trans hbc, hle.trans hle'⟩⟩
  have hsorted := List.pairwise_insertionSort le members.zipIdx
  have hperm := List.perm_insertionSort le members.zipIdx
  have hnodup : ((members.zipIdx.insertionSort le).map Prod.snd).Nodup := by
    rw [(hperm.map Prod.snd).nodup_iff, List.zipIdx_map_snd]
    exact List.nodup_range'
  rw [rankMembers, List.pairwise_map]
  refine (hsorted.and (List.pairwise_map.mp hnodup)).imp_of_mem fun {a b} ha hb h => ?_
  obtain ⟨hle, hne⟩ := h
  rcases hle with hlt | ⟨heq, hle⟩
  · exact Or.inl hlt
  · refine Or.inr ⟨heq, ?_⟩
    have hat := List.mem_zipIdx_iff_getElem?.mp (hperm.mem_iff.mp ha)
    have hbt := List.mem_zipIdx_iff_getElem?.mp (hperm.mem_iff.mp hb)
    obtain ⟨hla, hga⟩ := List.getElem?_eq_some_iff.mp hat
    obtain ⟨hlb, hgb⟩ := List.getElem?_eq_some_iff.mp hbt
    have hlt := List.pairwise_iff_getElem.mp hbefore a.2 b.2 hla hlb (lt_of_le_of_ne hle hne)
    rwa [hga, hgb] at hlt

theorem rankMembers_map (f : β → α) (members : List β) :
    (rankMembers (score ∘ f) members).map f = rankMembers score (members.map f) := by
  have hpair := List.map_insertionSort (fun a b : β × ℕ => score (f b.1) < score (f a.1) ∨
    score (f a.1) = score (f b.1) ∧ a.2 ≤ b.2)
    (fun a b : α × ℕ => score b.1 < score a.1 ∨ score a.1 = score b.1 ∧ a.2 ≤ b.2) (Prod.map f id) members.zipIdx
    fun a _ b _ => Iff.rfl
  rw [rankMembers, rankMembers, List.map_map, List.zipIdx_map, ← hpair, List.map_map]
  rfl

theorem fillSlots_map (f : β → α) (rows members : List β) :
    (fillSlots (p ∘ f) rows members).map f = fillSlots p (rows.map f) (members.map f) := by
  induction rows generalizing members with
  | nil => simp [fillSlots]
  | cons row rows ih =>
    by_cases hp : p (f row) = true
    · cases members <;> simp [fillSlots, hp, ih]
    · simp [fillSlots, hp, ih]

theorem sortSlots_map (f : β → α) (rows : List β) :
    (sortSlots (p ∘ f) (score ∘ f) rows).map f = sortSlots p score (rows.map f) := by
  rw [sortSlots, fillSlots_map, rankMembers_map, sortSlots, List.filter_map]

/-- As many members as slots fill them all. -/
theorem fillSlots_slots {rows members : List α} (hlength : members.length = (rows.filter p).length)
    (hmembers : ∀ member ∈ members, p member = true) :
    List.Forall₂ (SlotOf p) rows (fillSlots p rows members) ∧ (fillSlots p rows members).filter p = members ∧
      (fillSlots p rows members).filter (fun row => !p row) = rows.filter fun row => !p row := by
  induction rows generalizing members with
  | nil =>
    obtain rfl : members = [] := List.eq_nil_of_length_eq_zero (by simpa using hlength)
    exact ⟨List.Forall₂.nil, rfl, rfl⟩
  | cons row rows ih =>
    by_cases hp : p row = true
    · cases members with
      | nil => simp [hp] at hlength
      | cons member members =>
        have hm : p member = true := hmembers member List.mem_cons_self
        have hrest : members.length = (rows.filter p).length := by simpa [hp] using hlength
        obtain ⟨hslots, hfilter, hothers⟩ := ih hrest fun m hm => hmembers m (List.mem_cons_of_mem member hm)
        refine ⟨?_, ?_, ?_⟩
        · simp only [fillSlots, hp, if_true]
          exact List.Forall₂.cons ⟨hp.trans hm.symm, fun h => by simp [hp] at h⟩ hslots
        · simp [fillSlots, hp, hm, hfilter]
        · simp [fillSlots, hp, hm, hothers]
    · have hrest : members.length = (rows.filter p).length := by simpa [hp] using hlength
      obtain ⟨hslots, hfilter, hothers⟩ := ih hrest hmembers
      refine ⟨?_, ?_, ?_⟩
      · simp only [fillSlots, hp]
        exact List.Forall₂.cons ⟨rfl, fun _ => rfl⟩ hslots
      · simp [fillSlots, hp, hfilter]
      · simp [fillSlots, hp, hothers]

theorem fillSlots_self (rows : List α) : fillSlots p rows (rows.filter p) = rows := by
  induction rows with
  | nil => rfl
  | cons row rows ih =>
    by_cases hp : p row = true
    · simp [fillSlots, hp, ih]
    · simp [fillSlots, hp, ih]

theorem sortSlots_slots (rows : List α) :
    List.Forall₂ (SlotOf p) rows (sortSlots p score rows) ∧
      (sortSlots p score rows).filter p = rankMembers score (rows.filter p) ∧
      (sortSlots p score rows).filter (fun row => !p row) = rows.filter fun row => !p row := by
  have hperm := @rankMembers_perm α κ _ score (rows.filter p)
  refine fillSlots_slots hperm.length_eq fun member hm => ?_
  exact (List.mem_filter.mp (hperm.mem_iff.mp hm)).2

theorem sortSlots_perm (rows : List α) : (sortSlots p score rows).Perm rows := by
  obtain ⟨_, hfilter, hothers⟩ := @sortSlots_slots α κ _ p score rows
  calc (sortSlots p score rows).Perm
        ((sortSlots p score rows).filter p ++ (sortSlots p score rows).filter fun row => !p row) :=
          (List.filter_append_perm p _).symm
    _ = rankMembers score (rows.filter p) ++ rows.filter fun row => !p row := by rw [hfilter, hothers]
    List.Perm _ (rows.filter p ++ rows.filter fun row => !p row) := (rankMembers_perm _).append_right _
    List.Perm _ rows := List.filter_append_perm p rows

/-- Sorting the slots of others leaves the members where they are. -/
theorem sortSlots_filter_other {q : α → Bool} (hq : ∀ row, q row = true → p row = false) (rows : List α) :
    (sortSlots p score rows).filter q = rows.filter q := by
  have hsplit : ∀ l : List α, l.filter q = (l.filter fun row => !p row).filter q := by
    intro l
    rw [List.filter_filter]
    refine List.filter_congr fun row _ => ?_
    cases hrow : q row with
    | false => rfl
    | true => simp [hq row hrow]
  rw [hsplit, (sortSlots_slots rows).2.2, ← hsplit]

end Slots

section Clusters

variable {α β : Type*}

/-- The row is within the band of the leader's score. -/
def inBand (score : α → ℚ) (band : ℚ) (leader row : α) : Bool :=
  decide (0 < score leader ∧ score leader - score row ≤ band * score leader)

/-- Each cluster is the longest run of rows in the band of its first one. -/
def clusters (score : α → ℚ) (band : ℚ) : List α → List (List α)
  | [] => []
  | leader :: rows =>
    (leader :: rows.takeWhile (inBand score band leader)) :: clusters score band (rows.dropWhile (inBand score band leader))
termination_by rows => rows.length
decreasing_by
  have hle : (rows.dropWhile (inBand score band leader)).length ≤ rows.length :=
    (List.dropWhile_sublist (inBand score band leader)).length_le
  simp only [List.length_cons]
  omega

variable {score : α → ℚ} {band : ℚ}

theorem clusters_cons (leader : α) (rows : List α) : clusters score band (leader :: rows) =
    (leader :: rows.takeWhile (inBand score band leader)) ::
      clusters score band (rows.dropWhile (inBand score band leader)) := by
  rw [clusters]

theorem clusters_flatten (rows : List α) : (clusters score band rows).flatten = rows := by
  induction rows using clusters.induct score band with
  | case1 => simp [clusters]
  | case2 leader rows ih => rw [clusters_cons, List.flatten_cons, ih, List.cons_append, List.takeWhile_append_dropWhile]

theorem clusters_map (f : β → α) (rows : List β) :
    clusters score band (rows.map f) = (clusters (score ∘ f) band rows).map (List.map f) := by
  induction rows using clusters.induct (score ∘ f) band with
  | case1 => simp [clusters]
  | case2 leader rows ih =>
    have hband : inBand score band (f leader) ∘ f = inBand (score ∘ f) band leader := rfl
    rw [clusters_cons, List.map_cons, clusters_cons, List.takeWhile_map, List.dropWhile_map, hband, ih]
    rfl

/-- In a cluster every row but the first is in the band of the first. -/
theorem cluster_inBand {rows cluster : List α} (h : cluster ∈ clusters score band rows) :
    ∃ leader rest, cluster = leader :: rest ∧ ∀ row ∈ rest, inBand score band leader row = true := by
  induction rows using clusters.induct score band with
  | case1 => simp [clusters] at h
  | case2 leader rows ih =>
    rw [clusters_cons, List.mem_cons] at h
    rcases h with rfl | h
    · exact ⟨leader, _, rfl, fun row hr => List.mem_takeWhile_imp hr⟩
    · exact ih h

/-- Out of a cluster, no row scores below `1 - band` times another one. -/
theorem cluster_close {rows cluster : List α} (h : cluster ∈ clusters score band rows) (hband : 0 ≤ band)
    (hpos : ∀ row, 0 ≤ score row) (hsorted : cluster.Pairwise fun a b => score b ≤ score a) {a b : α}
    (ha : a ∈ cluster) (hb : b ∈ cluster) : (1 - band) * score b ≤ score a := by
  obtain ⟨leader, rest, rfl, hrest⟩ := cluster_inBand h
  have hlow : (1 - band) * score leader ≤ score a := by
    rcases List.mem_cons.mp ha with rfl | ha
    · nlinarith [hpos a]
    · have hin := hrest a ha
      simp only [inBand, decide_eq_true_eq] at hin
      linarith [hin.2]
  have hhigh : score b ≤ score leader := by
    rcases List.mem_cons.mp hb with rfl | hb
    · exact le_refl _
    · exact List.rel_of_pairwise_cons hsorted hb
  by_cases hwide : band ≤ 1
  · calc (1 - band) * score b ≤ (1 - band) * score leader := mul_le_mul_of_nonneg_left hhigh (by linarith)
      _ ≤ score a := hlow
  · have hneg : (1 - band) * score b ≤ 0 := mul_nonpos_of_nonpos_of_nonneg (by linarith) (hpos b)
    exact hneg.trans (hpos a)

theorem clusters_pairwise {R : α → α → Prop} {rows : List α} (h : rows.Pairwise R) :
    (∀ cluster ∈ clusters score band rows, cluster.Pairwise R) ∧
      (clusters score band rows).Pairwise fun c c' => ∀ a ∈ c, ∀ b ∈ c', R a b := by
  rw [← @clusters_flatten α score band rows, List.pairwise_flatten] at h
  exact h

end Clusters

end CorpusFeed
