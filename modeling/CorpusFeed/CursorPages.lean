import Mathlib.Data.List.Sort
import Mathlib.Order.WellFounded

/-! Following a sorted listing page by page, every query answering with what comes
after a cursor. -/

namespace CorpusFeed

section Listing

variable {α : Type*} {p : α → Bool}

theorem take_filter_eq {rows : List α} {n : ℕ} (h : ∀ row ∈ rows.take n, p row = true) :
    (rows.filter p).take n = rows.take n := by
  induction rows generalizing n with
  | nil => rfl
  | cons row rows ih =>
    cases n with
    | zero => rfl
    | succ n =>
      have hrow : p row = true := h row (by simp)
      have hrest := @ih n fun r hr => h r (by simp [hr])
      simp [hrow, hrest]

/-- In a listing that `p` cuts off somewhere, the rows with `p` are the first ones. -/
theorem mem_take_of_filter {rows : List α} {n : ℕ} (hcut : rows.Pairwise fun a b => p b = true → p a = true)
    (hlong : n ≤ (rows.filter p).length) : ∀ row ∈ rows.take n, p row = true := by
  induction rows generalizing n with
  | nil => simp
  | cons row rows ih =>
    cases n with
    | zero => simp
    | succ n =>
      obtain ⟨hfirst, hrest⟩ := List.pairwise_cons.mp hcut
      have hrow : p row = true := by
        by_contra hnot
        have hnone : rows.filter p = [] := List.filter_eq_nil_iff.mpr fun r hr hpr => hnot (hfirst r hr hpr)
        simp [hnot, hnone] at hlong
      have hlong' : n ≤ (rows.filter p).length := by simpa [hrow] using hlong
      intro r hr
      rcases List.mem_cons.mp (by simpa using hr : r ∈ row :: rows.take n) with rfl | hr
      · exact hrow
      · exact ih hrest hlong' r hr

theorem insertionSort_filter {le : α → α → Prop} [DecidableRel le] [Std.Total le] [IsTrans α le] {rows : List α}
    (hties : ∀ a ∈ rows, ∀ b ∈ rows, le a b → le b a → a = b) :
    (rows.filter p).insertionSort le = (rows.insertionSort le).filter p := by
  have hperm : ((rows.filter p).insertionSort le).Perm ((rows.insertionSort le).filter p) :=
    (List.perm_insertionSort le _).trans ((List.perm_insertionSort le rows).symm.filter p)
  refine hperm.eq_of_pairwise (fun a b ha hb hab hba => ?_) (List.pairwise_insertionSort le _)
    ((List.pairwise_insertionSort le rows).filter p)
  have ha' := (List.mem_filter.mp (hperm.mem_iff.mp ha)).1
  have hb' := (List.mem_filter.mp hb).1
  exact hties a ((List.mem_insertionSort le).mp ha') b ((List.mem_insertionSort le).mp hb') hab hba

/-- In a strictly sorted listing the rows after the last one shown are those not shown. -/
theorem filter_after {lt : α → α → Prop} {rows : List α} {position : ℕ} {last : α} (hsorted : rows.Pairwise lt)
    (hirrefl : ∀ a, ¬ lt a a) (htrans : ∀ a b c, lt a b → lt b c → lt a c)
    (hafter : ∀ row ∈ rows, lt last row ↔ p row = true) (hlast : (rows.take position).getLast? = some last) :
    rows.filter p = rows.drop position := by
  obtain ⟨before, hbefore⟩ := List.getLast?_eq_some_iff.mp hlast
  have hsplit : rows = (before ++ [last]) ++ rows.drop position := by
    rw [← hbefore, List.take_append_drop]
  rw [hsplit, List.pairwise_append, List.pairwise_append] at hsorted
  have hnone : ∀ row ∈ before ++ [last], ¬ p row = true := by
    intro row hrow hp
    have hmem : row ∈ rows := by
      rw [hsplit]
      exact List.mem_append_left _ hrow
    have hlt := (hafter row hmem).mpr hp
    rcases List.mem_append.mp hrow with hrow | hrow
    · exact hirrefl last (htrans _ _ _ hlt (hsorted.1.2.2 row hrow last (by simp)))
    · obtain rfl : row = last := by simpa using hrow
      exact hirrefl row hlt
  have hall : ∀ row ∈ rows.drop position, p row = true := by
    intro row hrow
    exact (hafter row (List.mem_of_mem_drop hrow)).mp (hsorted.2.2 last (by simp) row hrow)
  conv_lhs => rw [hsplit]
  rw [List.filter_append, List.filter_eq_nil_iff.mpr hnone, List.nil_append, List.filter_eq_self.mpr hall]

end Listing

variable {κ α : Type*}

section Paged

variable (cursorOf : α → Option κ) (topK : ℕ)

/-- What a page shows of the rows found, and the cursor of the next page if there are
more. -/
def shown (found : List α) : List α × Option κ :=
  if topK < found.length then (found.take topK, (found.take topK).getLast?.bind cursorOf) else (found, none)

variable (answer : Option κ → List α → Prop)

/-- A run of pages: `answer cursor found` says that the query past `cursor` may find
`found`. -/
inductive Paged : Option κ → List (List α) → Prop
  | last {cursor : Option κ} {found : List α} (hfound : answer cursor found) (hlast : (shown cursorOf topK found).2 = none) :
      Paged cursor [(shown cursorOf topK found).1]
  | next {cursor : Option κ} {found : List α} {next : κ} {pages : List (List α)} (hfound : answer cursor found)
      (hnext : (shown cursorOf topK found).2 = some next) (hpages : Paged (some next) pages) :
      Paged cursor ((shown cursorOf topK found).1 :: pages)

/-- No endless run of pages from the cursor on. -/
def PagesEnd (cursor : Option κ) : Prop :=
  Acc (fun next cursor => ∃ found, answer cursor found ∧ (shown cursorOf topK found).2 = next ∧ next.isSome = true) cursor

/-- The cursor after the first `position` rows. -/
def cursorAfter (rows : List α) (position : ℕ) : Option κ := (rows.take position).getLast?.bind cursorOf

/-- The page at `position` shows the listing from there. -/
def AnswersFrom (rows : List α) (position : ℕ) : Prop :=
  ∀ found, answer (cursorAfter cursorOf rows position) found → found.take (topK + 1) = (rows.drop position).take (topK + 1)

end Paged

variable {answer : Option κ → List α → Prop} {cursorOf : α → Option κ} {topK : ℕ} {rows : List α}

@[simp] theorem cursorAfter_zero : cursorAfter cursorOf rows 0 = none := rfl

theorem shown_congr {found listing : List α} (h : found.take (topK + 1) = listing.take (topK + 1)) :
    shown cursorOf topK found = shown cursorOf topK listing := by
  have hlength := congrArg List.length h
  simp only [List.length_take] at hlength
  by_cases hmore : topK < found.length
  · have htake := congrArg (List.take topK) h
    simp only [List.take_take, Nat.min_eq_left (Nat.le_succ topK)] at htake
    rw [shown, if_pos hmore, htake, shown, if_pos (by omega)]
  · rw [List.take_of_length_le (by omega), List.take_of_length_le (by omega)] at h
    rw [h]

theorem shown_last {position : ℕ} (hlast : rows.length ≤ position + topK) :
    shown cursorOf topK (rows.drop position) = (rows.drop position, none) := by
  rw [shown, if_neg]
  rw [List.length_drop]
  omega

theorem shown_more {position : ℕ} (htop : 0 < topK) (hmore : position + topK < rows.length) :
    shown cursorOf topK (rows.drop position) = ((rows.drop position).take topK, cursorAfter cursorOf rows (position + topK)) := by
  have hlength : topK < (rows.drop position).length := by
    rw [List.length_drop]
    omega
  have hne : (rows.drop position).take topK ≠ [] := by
    intro hnil
    have hzero := congrArg List.length hnil
    simp only [List.length_take, List.length_nil] at hzero
    omega
  rw [shown, if_pos hlength, cursorAfter, List.take_add, List.getLast?_append_of_ne_nil _ hne]

theorem shown_eq_some {found : List α} {next : κ} (h : (shown cursorOf topK found).2 = some next) :
    topK < found.length ∧ (shown cursorOf topK found).1 = found.take topK ∧
      (found.take topK).getLast?.bind cursorOf = some next := by
  unfold shown at h ⊢
  by_cases hmore : topK < found.length
  · rw [if_pos hmore] at h ⊢
    exact ⟨hmore, rfl, h⟩
  · rw [if_neg hmore] at h
    simp at h

theorem shown_eq_none {found : List α} (htop : 0 < topK) (hcursors : ∀ row ∈ found, (cursorOf row).isSome = true)
    (h : (shown cursorOf topK found).2 = none) : found.length ≤ topK ∧ (shown cursorOf topK found).1 = found := by
  unfold shown at h ⊢
  by_cases hmore : topK < found.length
  · rw [if_pos hmore] at h
    have hne : found.take topK ≠ [] := by
      intro hnil
      have hzero := congrArg List.length hnil
      simp only [List.length_take, List.length_nil] at hzero
      omega
    dsimp only at h
    rw [List.getLast?_eq_some_getLast hne, Option.bind_some] at h
    have hsome := hcursors _ (List.mem_of_mem_take (List.getLast_mem hne))
    rw [h] at hsome
    simp at hsome
  · rw [if_neg hmore]
    exact ⟨not_lt.mp hmore, rfl⟩

theorem cursorAfter_add {position : ℕ} {next : κ} (h : ((rows.drop position).take topK).getLast?.bind cursorOf = some next) :
    cursorAfter cursorOf rows (position + topK) = some next := by
  have hne : (rows.drop position).take topK ≠ [] := by
    intro hnil
    simp [hnil] at h
  rw [cursorAfter, List.take_add, List.getLast?_append_of_ne_nil _ hne, h]

theorem cursorAfter_isSome (hcursors : ∀ row ∈ rows, (cursorOf row).isSome = true) {position : ℕ} (hpos : 0 < position)
    (hle : position ≤ rows.length) : (cursorAfter cursorOf rows position).isSome = true := by
  have hne : rows.take position ≠ [] := by
    intro hnil
    have hzero := congrArg List.length hnil
    simp only [List.length_take, List.length_nil] at hzero
    omega
  rw [cursorAfter, List.getLast?_eq_some_getLast hne]
  exact hcursors _ (List.mem_of_mem_take (List.getLast_mem hne))

theorem Paged.flatten_eq (htop : 0 < topK) (hcursors : ∀ row ∈ rows, (cursorOf row).isSome = true)
    (hanswers : ∀ m, m * topK ≤ rows.length → AnswersFrom cursorOf topK answer rows (m * topK))
    {cursor : Option κ} {pages : List (List α)} (h : Paged cursorOf topK answer cursor pages) {m : ℕ}
    (hm : m * topK ≤ rows.length) (hcursor : cursor = cursorAfter cursorOf rows (m * topK)) :
    pages.flatten = rows.drop (m * topK) := by
  have hmul : ∀ m, (m + 1) * topK = m * topK + topK := fun m => Nat.succ_mul m topK
  induction h generalizing m with
  | @last cursor found hfound hlast =>
    have hshown := @shown_congr κ α cursorOf _ _ _ (hanswers m hm found (hcursor ▸ hfound))
    by_cases hmore : m * topK + topK < rows.length
    · rw [hshown, shown_more htop hmore] at hlast
      dsimp only at hlast
      have hsome := cursorAfter_isSome hcursors (Nat.add_pos_right (m * topK) htop) hmore.le
      rw [hlast] at hsome
      simp at hsome
    · rw [hshown, shown_last (not_lt.mp hmore)]
      simp
  | @next cursor found next pages hfound hnext _ ih =>
    have hshown := @shown_congr κ α cursorOf _ _ _ (hanswers m hm found (hcursor ▸ hfound))
    by_cases hmore : m * topK + topK < rows.length
    · rw [hshown, shown_more htop hmore] at hnext
      have hrest := @ih (m + 1) (by rw [hmul]; exact hmore.le) (by rw [hmul]; exact hnext.symm)
      rw [hshown, shown_more htop hmore, List.flatten_cons, hrest, hmul, ← List.drop_drop]
      exact List.take_append_drop topK _
    · rw [hshown, shown_last (not_lt.mp hmore)] at hnext
      simp at hnext

theorem pagesEnd_of_answers (htop : 0 < topK)
    (hanswers : ∀ m, m * topK ≤ rows.length → AnswersFrom cursorOf topK answer rows (m * topK)) {m : ℕ}
    (hm : m * topK ≤ rows.length) : PagesEnd cursorOf topK answer (cursorAfter cursorOf rows (m * topK)) := by
  have hmul : ∀ m, (m + 1) * topK = m * topK + topK := fun m => Nat.succ_mul m topK
  induction hleft : rows.length - m * topK using Nat.strong_induction_on generalizing m with
  | _ left ih =>
    refine Acc.intro _ fun next hnext => ?_
    obtain ⟨found, hfound, hnext, hsome⟩ := hnext
    have hshown := @shown_congr κ α cursorOf _ _ _ (hanswers m hm found hfound)
    by_cases hmore : m * topK + topK < rows.length
    · rw [hshown, shown_more htop hmore, ← hmul] at hnext
      rw [← hnext]
      exact ih (rows.length - (m + 1) * topK) (by rw [hmul]; omega) (by rw [hmul]; exact hmore.le) rfl
    · rw [hshown, shown_last (not_lt.mp hmore)] at hnext
      rw [← hnext] at hsome
      simp at hsome

/-- Pages that end and queries that answer make a whole run. -/
theorem PagesEnd.paged {cursor : Option κ} (htotal : ∀ cursor, ∃ found, answer cursor found)
    (h : PagesEnd cursorOf topK answer cursor) : ∃ pages, Paged cursorOf topK answer cursor pages := by
  induction h with
  | intro cursor _ ih =>
    obtain ⟨found, hfound⟩ := htotal cursor
    cases hnext : (shown cursorOf topK found).2 with
    | none => exact ⟨_, Paged.last hfound hnext⟩
    | some next =>
      obtain ⟨pages, hpages⟩ := ih (some next) ⟨found, hfound, hnext, rfl⟩
      exact ⟨_, Paged.next hfound hnext hpages⟩

theorem Paged.mono {answer' : Option κ → List α → Prop} (hanswer : ∀ cursor found, answer cursor found → answer' cursor found)
    {cursor : Option κ} {pages : List (List α)} (h : Paged cursorOf topK answer cursor pages) :
    Paged cursorOf topK answer' cursor pages := by
  induction h with
  | last hfound hlast => exact Paged.last (hanswer _ _ hfound) hlast
  | next hfound hnext _ ih => exact Paged.next (hanswer _ _ hfound) hnext ih

theorem PagesEnd.of_shown {answer' : Option κ → List α → Prop}
    (hshown : ∀ cursor found, answer' cursor found →
      ∃ found', answer cursor found' ∧ shown cursorOf topK found = shown cursorOf topK found')
    {cursor : Option κ} (h : PagesEnd cursorOf topK answer cursor) : PagesEnd cursorOf topK answer' cursor := by
  induction h with
  | intro cursor _ ih =>
    refine Acc.intro _ fun next hnext => ih next ?_
    obtain ⟨found, hfound, hnext, hsome⟩ := hnext
    obtain ⟨found', hfound', heq⟩ := hshown cursor found hfound
    exact ⟨found', hfound', by rw [← heq, hnext], hsome⟩

end CorpusFeed
