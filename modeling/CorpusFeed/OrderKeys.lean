import CorpusFeed.Collation
import Mathlib.Data.List.Induction

/-! Orders by several keys, one after the other, and the place of one group of
rows in a list sorted by such an order. -/

namespace CorpusFeed

/-- One key of an `ORDER BY`: rows may tie. -/
structure KeyOrder (R : Type*) where
  le : R → R → Bool
  total : ∀ a b, le a b = true ∨ le b a = true
  trans : ∀ a b c, le a b = true → le b c = true → le a c = true

namespace KeyOrder

variable {R K : Type*}

def on (order : KeyOrder K) (key : R → K) : KeyOrder R where
  le a b := order.le (key a) (key b)
  total a b := order.total (key a) (key b)
  trans a b c := order.trans (key a) (key b) (key c)

def text (collation : Collation) : KeyOrder Text where
  le := collation.le
  total := collation.total
  trans := collation.trans

def number : KeyOrder Nat where
  le a b := decide (a ≤ b)
  total a b := by
    simp only [decide_eq_true_eq]
    omega
  trans a b c := by
    simp only [decide_eq_true_eq]
    omega

/-- The order of a type with one of its own. -/
def natural [LinearOrder K] : KeyOrder K where
  le a b := decide (a ≤ b)
  total a b := by simpa using le_total a b
  trans a b c := by simpa using le_trans

/-- `DESC NULLS LAST`. -/
def descNullsLast (order : KeyOrder K) : KeyOrder (Option K) where
  le
    | some a, some b => order.le b a
    | some _, none => true
    | none, some _ => false
    | none, none => true
  total a b := by
    cases a <;> cases b <;> simp
    exact (order.total _ _).symm
  trans a b c := by
    cases a <;> cases b <;> cases c <;> simp
    exact fun hba hcb => order.trans _ _ _ hcb hba

/-- The second key decides between the rows that tie on the first. -/
def thenBy (first second : KeyOrder R) : KeyOrder R where
  le a b := first.le a b && (!first.le b a || second.le a b)
  total a b := by
    rcases first.total a b with h | h
    · by_cases hba : first.le b a = true
      · rcases second.total a b with hs | hs <;> simp [h, hba, hs]
      · simp [h, hba]
    · by_cases hab : first.le a b = true
      · rcases second.total a b with hs | hs <;> simp [h, hab, hs]
      · simp [h, hab]
  trans a b c hab hbc := by
    simp only [Bool.and_eq_true, Bool.or_eq_true, Bool.not_eq_true'] at hab hbc ⊢
    refine ⟨first.trans a b c hab.1 hbc.1, ?_⟩
    by_cases hca : first.le c a = true
    · have hba := first.trans b c a hbc.1 hca
      have hcb := first.trans c a b hca hab.1
      have hsab := hab.2.resolve_left (by simp [hba])
      have hsbc := hbc.2.resolve_left (by simp [hcb])
      exact Or.inr (second.trans a b c hsab hsbc)
    · exact Or.inl (by simpa using hca)

def Tied (order : KeyOrder R) (a b : R) : Prop := order.le a b = true ∧ order.le b a = true

theorem Tied.thenBy {first second : KeyOrder R} {a b : R} (h : (first.thenBy second).Tied a b) :
    first.Tied a b ∧ second.Tied a b := by
  obtain ⟨hab, hba⟩ := h
  simp only [KeyOrder.thenBy, Bool.and_eq_true, Bool.or_eq_true, Bool.not_eq_true'] at hab hba
  refine ⟨⟨hab.1, hba.1⟩, ?_, ?_⟩
  · exact hab.2.resolve_left (by simp [hba.1])
  · exact hba.2.resolve_left (by simp [hab.1])

theorem tied_text {collation : Collation} {key : R → Text} {a b : R} (h : ((text collation).on key).Tied a b) :
    key a = key b :=
  collation.antisymm _ _ h.1 h.2

theorem tied_number {key : R → Nat} {a b : R} (h : (number.on key).Tied a b) : key a = key b := by
  obtain ⟨hab, hba⟩ := h
  simp only [on, number, decide_eq_true_eq] at hab hba
  omega

def sort (order : KeyOrder R) (rows : List R) : List R := rows.mergeSort order.le

theorem sort_pairwise (order : KeyOrder R) (rows : List R) :
    (order.sort rows).Pairwise fun a b => order.le a b = true :=
  List.pairwise_mergeSort order.trans (fun a b => by simpa using order.total a b) rows

theorem sort_perm (order : KeyOrder R) (rows : List R) : (order.sort rows).Perm rows :=
  List.mergeSort_perm rows order.le

theorem mem_sort {order : KeyOrder R} {rows : List R} {r : R} : r ∈ order.sort rows ↔ r ∈ rows :=
  (order.sort_perm rows).mem_iff

/-- Rows that tie only with themselves are sorted alike from every order. -/
theorem sort_congr (order : KeyOrder R) {rows rows' : List R} (h : rows.Perm rows')
    (htied : ∀ a ∈ rows, ∀ b ∈ rows, order.Tied a b → a = b) : order.sort rows = order.sort rows' := by
  have hperm : (order.sort rows).Perm (order.sort rows') :=
    (order.sort_perm rows).trans (h.trans (order.sort_perm rows').symm)
  refine hperm.eq_of_pairwise (fun a b ha hb hab hba => ?_) (order.sort_pairwise rows) (order.sort_pairwise rows')
  exact htied a (mem_sort.mp ha) b (h.mem_iff.mpr (mem_sort.mp hb)) ⟨hab, hba⟩

/-- A property that greater rows keep holds on a suffix of a sorted list. -/
theorem filter_suffix {order : KeyOrder R} {rows : List R} {p : R → Bool}
    (hsorted : rows.Pairwise fun a b => order.le a b = true)
    (hup : ∀ a b, order.le a b = true → p a = true → p b = true) :
    rows.filter (fun r => !p r) ++ rows.filter p = rows := by
  induction rows with
  | nil => rfl
  | cons row rows ih =>
    obtain ⟨hrow, hrows⟩ := List.pairwise_cons.mp hsorted
    by_cases hp : p row = true
    · have hall : ∀ r ∈ row :: rows, p r = true := by
        intro r hr
        rcases List.mem_cons.mp hr with rfl | hr
        · exact hp
        · exact hup row r (hrow r hr) hp
      rw [List.filter_eq_self.mpr hall, List.filter_eq_nil_iff.mpr (by simpa using hall), List.nil_append]
    · rw [List.filter_cons_of_pos (by simpa using hp), List.filter_cons_of_neg hp, List.cons_append, ih hrows]

/-- The last of the greatest rows. -/
def max (order : KeyOrder R) (rows : List R) : Option R :=
  rows.foldl (fun best r =>
    match best with
    | none => some r
    | some b => if order.le b r then some r else some b) none

theorem max_concat (order : KeyOrder R) (rows : List R) (r : R) :
    order.max (rows ++ [r]) =
      match order.max rows with
      | none => some r
      | some b => if order.le b r then some r else some b := by
  simp [max, List.foldl_append]

theorem max_isSome (order : KeyOrder R) {rows : List R} {r : R} (hr : r ∈ rows) : ∃ m, order.max rows = some m := by
  induction rows using List.reverseRecOn with
  | nil => cases hr
  | append_singleton rows last ih =>
    rw [max_concat]
    cases order.max rows with
    | none => exact ⟨_, rfl⟩
    | some b => exact ⟨_, (apply_ite some (order.le b last = true) last b).symm⟩

theorem max_eq_some {order : KeyOrder R} {rows : List R} {m : R} (h : order.max rows = some m) :
    m ∈ rows ∧ ∀ r ∈ rows, order.le r m = true := by
  induction rows using List.reverseRecOn generalizing m with
  | nil => cases h
  | append_singleton rows last ih =>
    have hself : order.le last last = true := (order.total last last).elim id id
    rw [max_concat] at h
    simp only [List.mem_append, List.mem_singleton]
    cases hbest : order.max rows with
    | none =>
      have hnil : ∀ r, r ∉ rows := fun r hr => by
        obtain ⟨b, hb⟩ := order.max_isSome hr
        rw [hbest] at hb
        cases hb
      rw [hbest] at h
      cases h
      exact ⟨Or.inr rfl, fun r hr => hr.elim (fun hin => absurd hin (hnil r)) fun heq => heq ▸ hself⟩
    | some b =>
      rw [hbest] at h
      obtain ⟨hb, hle⟩ := ih hbest
      by_cases hlast : order.le b last = true
      · simp only [hlast, if_true, Option.some.injEq] at h
        subst h
        exact ⟨Or.inr rfl, fun r hr => hr.elim (fun hin => order.trans _ _ _ (hle r hin) hlast) fun heq => heq ▸ hself⟩
      · simp only [hlast, Bool.false_eq_true, if_false, Option.some.injEq] at h
        subst h
        exact ⟨Or.inl hb, fun r hr => hr.elim (hle r) fun heq => heq ▸ (order.total _ _).resolve_left hlast⟩

/-- The first row of a kind comes before all others of that kind. -/
theorem find?_sort {order : KeyOrder R} {rows : List R} {p : R → Bool} {r : R} (h : (order.sort rows).find? p = some r) :
    r ∈ rows ∧ p r = true ∧ ∀ s ∈ rows, p s = true → order.le r s = true := by
  obtain ⟨hp, before, after, heq, hbefore⟩ := List.find?_eq_some_iff_append.mp h
  have hsorted := order.sort_pairwise rows
  rw [heq] at hsorted
  refine ⟨mem_sort.mp (heq ▸ List.mem_append_right _ List.mem_cons_self), hp, fun s hs hps => ?_⟩
  have hmem := heq ▸ mem_sort.mpr hs
  rcases List.mem_append.mp hmem with hm | hm
  · have hno := hbefore s hm
    simp [hps] at hno
  · rcases List.mem_cons.mp hm with rfl | hm
    · exact (order.total s s).elim id id
    · exact (List.pairwise_cons.mp (List.pairwise_append.mp hsorted).2.1).1 s hm

theorem find?_sort_eq_none {order : KeyOrder R} {rows : List R} {p : R → Bool} :
    (order.sort rows).find? p = none ↔ ∀ r ∈ rows, p r = false := by
  simp [List.find?_eq_none, mem_sort]

theorem find?_sort_congr {order : KeyOrder R} {rows rows' : List R} {p : R → Bool}
    (hmem : ∀ r, p r = true → (r ∈ rows ↔ r ∈ rows'))
    (htied : ∀ a ∈ rows, ∀ b ∈ rows, order.Tied a b → a = b) :
    (order.sort rows).find? p = (order.sort rows').find? p := by
  cases h : (order.sort rows).find? p with
  | none =>
    refine (find?_sort_eq_none.mpr fun r hr => ?_).symm
    by_cases hp : p r = true
    · exact find?_sort_eq_none.mp h r ((hmem r hp).mpr hr)
    · simpa using hp
  | some r =>
    obtain ⟨hr, hp, hleast⟩ := find?_sort h
    cases h' : (order.sort rows').find? p with
    | none =>
      have hno := find?_sort_eq_none.mp h' r ((hmem r hp).mp hr)
      rw [hp] at hno
      cases hno
    | some r' =>
      obtain ⟨hr', hp', hleast'⟩ := find?_sort h'
      have hmem' := (hmem r' hp').mpr hr'
      have hle := hleast r' hmem' hp'
      have hle' := hleast' r ((hmem r hp).mp hr) hp
      rw [htied r hr r' hmem' ⟨hle, hle'⟩]

def before (order : KeyOrder R) (a b : R) : Bool := order.le a b && !order.le b a

/-- The first `k` rows are those with fewer than `k` rows before them. -/
theorem mem_take_sort {order : KeyOrder R} {rows : List R} {r : R} {k : Nat} (hnodup : rows.Nodup)
    (htied : ∀ a ∈ rows, ∀ b ∈ rows, order.Tied a b → a = b) (hr : r ∈ rows) :
    r ∈ (order.sort rows).take k ↔ rows.countP (fun s => order.before s r) < k := by
  obtain ⟨first, rest, heq⟩ := List.append_of_mem (mem_sort.mpr hr)
  have hsorted := order.sort_pairwise rows
  have hdistinct : (order.sort rows).Nodup := (order.sort_perm rows).nodup_iff.mpr hnodup
  rw [heq] at hsorted hdistinct
  obtain ⟨_, hrest, hcross⟩ := List.pairwise_append.mp hsorted
  obtain ⟨_, _, hdisjoint⟩ := List.nodup_append.mp hdistinct
  have hmem : ∀ s ∈ first, s ∈ rows := fun s hs => mem_sort.mp (heq ▸ List.mem_append_left _ hs)
  have hbefore : ∀ s ∈ first, order.before s r = true := by
    intro s hs
    have hle := hcross s hs r List.mem_cons_self
    have hne : s ≠ r := hdisjoint s hs r List.mem_cons_self
    have hnot : order.le r s ≠ true := fun hge => hne (htied s (hmem s hs) r hr ⟨hle, hge⟩)
    simp [before, hle, hnot]
  have hself : order.before r r = false := by
    simp [before]
  have hafter : ∀ s ∈ r :: rest, order.before s r = false := by
    intro s hs
    rcases List.mem_cons.mp hs with rfl | hs
    · exact hself
    · simp [before, (List.pairwise_cons.mp hrest).1 s hs]
  have hcount : rows.countP (fun s => order.before s r) = first.length := by
    rw [← (order.sort_perm rows).countP_eq, heq, List.countP_append, List.countP_eq_length.mpr hbefore,
      List.countP_eq_zero.mpr (by simpa using hafter), Nat.add_zero]
  rw [hcount, heq, List.take_append, List.mem_append]
  constructor
  · rintro (hin | hin)
    · exact absurd rfl (hdisjoint r (List.mem_of_mem_take hin) r List.mem_cons_self)
    · by_contra hle
      have hzero : k - first.length = 0 := by omega
      rw [hzero] at hin
      cases hin
  · intro hlt
    obtain ⟨m, hm⟩ := Nat.exists_eq_add_of_lt hlt
    have hpos : k - first.length = m + 1 := by omega
    rw [hpos]
    exact Or.inr List.mem_cons_self

end KeyOrder

end CorpusFeed
