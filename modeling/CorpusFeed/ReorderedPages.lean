import CorpusFeed.CursorPages
import Mathlib.Data.List.Infix
import Mathlib.Order.Defs.PartialOrder

/-! Following a listing page by page while its order may change from one query to the
next, and when the members shown are those of the listing all the same. -/

namespace CorpusFeed

variable {τ κ α ι : Type*}

theorem filter_suffix {p : α → Bool} {rows : List α} (hcut : rows.Pairwise fun a b => p a = true → p b = true) :
    rows.filter p <:+ rows := by
  induction rows with
  | nil => exact List.suffix_refl _
  | cons row rows ih =>
    obtain ⟨hfirst, hrest⟩ := List.pairwise_cons.mp hcut
    by_cases hrow : p row = true
    · rw [List.filter_eq_self.mpr fun other hother => (List.mem_cons.mp hother).elim (fun h => h ▸ hrow) fun h =>
        hfirst other h hrow]
    · rw [List.filter_cons_of_neg hrow]
      exact (ih hrest).trans (List.suffix_cons row rows)

section Runs

variable (cursorOf : α → Option κ) (topK : ℕ) (found : τ → Option κ → List α)

/-- A run of pages, with the order that each of its queries met. -/
inductive PagedBy : Option κ → List τ → List (List α) → Prop
  | last {cursor : Option κ} {t : τ} (hlast : (shown cursorOf topK (found t cursor)).2 = none) :
      PagedBy cursor [t] [(shown cursorOf topK (found t cursor)).1]
  | next {cursor : Option κ} {t : τ} {next : κ} {ts : List τ} {pages : List (List α)}
      (hnext : (shown cursorOf topK (found t cursor)).2 = some next) (hpages : PagedBy (some next) ts pages) :
      PagedBy cursor (t :: ts) ((shown cursorOf topK (found t cursor)).1 :: pages)

end Runs

section Sorted

variable {cursorOf : α → Option κ} {topK : ℕ} {found found' : τ → Option κ → List α} {cursor : Option κ} {ts : List τ}
  {pages : List (List α)}

theorem PagedBy.congr (hfound : ∀ t cursor, shown cursorOf topK (found t cursor) = shown cursorOf topK (found' t cursor))
    (h : PagedBy cursorOf topK found cursor ts pages) : PagedBy cursorOf topK found' cursor ts pages := by
  induction h with
  | @last cursor t hlast =>
    rw [hfound] at hlast ⊢
    exact .last hlast
  | @next cursor t next ts pages hnext _ ih =>
    rw [hfound] at hnext ⊢
    exact .next hnext ih

theorem PagedBy.ne_nil (h : PagedBy cursorOf topK found cursor ts pages) : ts ≠ [] := by
  cases h <;> exact List.cons_ne_nil _ _

theorem shown_sublist (rows : List α) : (shown cursorOf topK rows).1.Sublist rows := by
  rw [shown]
  split
  · exact List.take_sublist _ _
  · exact List.Sublist.refl _

theorem last_least {W : Type*} [Preorder W] {weight : α → W} {rows : List α} {last : α}
    (hsorted : rows.Pairwise fun a b => weight b ≤ weight a) (hlast : rows.getLast? = some last) :
    ∀ row ∈ rows, weight last ≤ weight row := by
  obtain ⟨before, rfl⟩ := List.getLast?_eq_some_iff.mp hlast
  intro row hrow
  rcases List.mem_append.mp hrow with hrow | hrow
  · exact (List.pairwise_append.mp hsorted).2.2 row hrow last (List.mem_singleton_self last)
  · rw [List.mem_singleton.mp hrow]

/-- Queries that sort what they find, none of it before the cursor, give sorted pages
whatever order each of them meets. -/
theorem PagedBy.sorted {W : Type*} [Preorder W] {weight : α → W} {bound : κ → W}
    (hsorted : ∀ t cursor, (found t cursor).Pairwise fun a b => weight b ≤ weight a)
    (hpast : ∀ t cursor, ∀ row ∈ found t (some cursor), weight row ≤ bound cursor)
    (hbound : ∀ row cursor, cursorOf row = some cursor → bound cursor = weight row)
    (h : PagedBy cursorOf topK found cursor ts pages) :
    pages.flatten.Pairwise (fun a b => weight b ≤ weight a) ∧
      ∀ c, cursor = some c → ∀ row ∈ pages.flatten, weight row ≤ bound c := by
  induction h with
  | @last cursor t _ =>
    rw [List.flatten_singleton]
    refine ⟨(hsorted t cursor).sublist (shown_sublist _), fun c hc row hrow => ?_⟩
    subst hc
    exact hpast t c row ((shown_sublist _).subset hrow)
  | @next cursor t next ts pages hnext _ ih =>
    obtain ⟨hpages, hafter⟩ := ih
    have hpage := (hsorted t cursor).sublist (@shown_sublist κ α cursorOf topK (found t cursor))
    obtain ⟨_, hshown, hlast⟩ := shown_eq_some hnext
    rw [hshown] at hpage ⊢
    obtain ⟨last, hlast, hcursor⟩ := Option.bind_eq_some_iff.mp hlast
    have hleast : ∀ row ∈ (found t cursor).take topK, bound next ≤ weight row := by
      rw [hbound last next hcursor]
      exact last_least hpage hlast
    have hrest := hafter next rfl
    rw [List.flatten_cons]
    refine ⟨List.pairwise_append.mpr ⟨hpage, hpages, fun a ha b hb => (hrest b hb).trans (hleast a ha)⟩, ?_⟩
    intro c hc row hrow
    subst hc
    have hpast' : ∀ row ∈ (found t (some c)).take topK, weight row ≤ bound c :=
      fun row hrow => hpast t c row (List.mem_of_mem_take hrow)
    rcases List.mem_append.mp hrow with hrow | hrow
    · exact hpast' row hrow
    · have hmem := List.mem_of_getLast? hlast
      exact (hrest row hrow).trans ((hleast last hmem).trans (hpast' last hmem))

end Sorted

/-- A listing in each of its orders, and what of it is past a cursor. Under its own order
that is what follows the row of the cursor. -/
structure Listings (τ κ α : Type*) where
  cursorOf : α → Option κ
  past : τ → Option κ → List α
  cursors : ∀ t, ∀ row ∈ past t none, (cursorOf row).isSome = true
  own : ∀ t position, past t (cursorAfter cursorOf (past t none) position) = (past t none).drop position
  suffix : ∀ t t' position, past t' (cursorAfter cursorOf (past t none) position) <:+ past t' none

namespace Listings

variable (listings : Listings τ κ α) (topK : ℕ) (id : α → ι)

def rows (t : τ) : List α := listings.past t none

def cursorPast (t : τ) (position : ℕ) : Option κ := cursorAfter listings.cursorOf (listings.rows t) position

/-- Where a page ends and another follows, every order has the same members in all and
the same members past the end of the page. -/
def Settled : Prop :=
  ∀ t t' k, 0 < k → k * topK < (listings.rows t).length →
    ((listings.rows t').map id).Perm ((listings.rows t).map id) ∧
      ((listings.past t' (listings.cursorPast t (k * topK))).map id).Perm (((listings.rows t).drop (k * topK)).map id)

variable {listings} {topK} {id} {t t' : τ} {k : ℕ} {ts : List τ} {pages : List (List α)}

theorem cursorPast_isSome {position : ℕ} (hpos : 0 < position) (hle : position ≤ (listings.rows t).length) :
    ∃ next, listings.cursorPast t position = some next :=
  Option.isSome_iff_exists.mp (cursorAfter_isSome (listings.cursors t) hpos hle)

theorem Settled.past_eq (h : listings.Settled topK id) (hk : 0 < k) (hlong : k * topK < (listings.rows t).length)
    (t' : τ) : listings.past t' (listings.cursorPast t (k * topK)) = (listings.rows t').drop (k * topK) := by
  obtain ⟨hall, hrest⟩ := h t t' k hk hlong
  have hlength := hall.length_eq
  have hleft := hrest.length_eq
  simp only [List.length_map, List.length_drop] at hlength hleft
  have hsuffix : listings.past t' (listings.cursorPast t (k * topK)) = (listings.rows t').drop
      ((listings.rows t').length - (listings.past t' (listings.cursorPast t (k * topK))).length) :=
    List.suffix_iff_eq_drop.mp (listings.suffix t t' (k * topK))
  have hposition : (listings.rows t').length - (listings.past t' (listings.cursorPast t (k * topK))).length =
      k * topK := by omega
  exact hsuffix.trans (by rw [hposition])

theorem shown_drop_none {position : ℕ} (htop : 0 < topK)
    (h : (shown listings.cursorOf topK ((listings.rows t).drop position)).2 = none) :
    (listings.rows t).length ≤ position + topK := by
  by_contra hmore
  rw [not_le] at hmore
  rw [shown_more htop hmore] at h
  obtain ⟨next, hnext⟩ := cursorPast_isSome (Nat.add_pos_right position htop) hmore.le
  rw [cursorPast] at hnext
  rw [hnext] at h
  cases h

theorem shown_drop_some {position : ℕ} {next : κ} (htop : 0 < topK)
    (h : (shown listings.cursorOf topK ((listings.rows t).drop position)).2 = some next) :
    position + topK < (listings.rows t).length ∧ listings.cursorPast t (position + topK) = some next := by
  have hmore : position + topK < (listings.rows t).length := by
    have hlength := (shown_eq_some h).1
    rw [List.length_drop] at hlength
    omega
  rw [shown_more htop hmore] at h
  exact ⟨hmore, h⟩

/-- The rest of a run, from the end of a page on. -/
theorem Settled.rest_perm (htop : 0 < topK) (h : listings.Settled topK id) {cursor : Option κ}
    (hrun : PagedBy listings.cursorOf topK listings.past cursor ts pages) (hk : 0 < k)
    (hlong : k * topK < (listings.rows t).length) (hcursor : cursor = listings.cursorPast t (k * topK)) :
    (pages.flatten.map id).Perm (((listings.rows t).drop (k * topK)).map id) := by
  induction hrun generalizing t k with
  | @last cursor t' hlast =>
    have hrest := (h t t' k hk hlong).2
    rw [hcursor, h.past_eq hk hlong t'] at hlast ⊢
    rw [shown_last (shown_drop_none htop hlast), List.flatten_singleton, ← h.past_eq hk hlong t']
    exact hrest
  | @next cursor t' next ts pages hnext _ ih =>
    have hrest := (h t t' k hk hlong).2
    rw [hcursor, h.past_eq hk hlong t'] at hnext ⊢
    rw [h.past_eq hk hlong t'] at hrest
    obtain ⟨hmore, hcursor'⟩ := shown_drop_some htop hnext
    rw [← Nat.succ_mul] at hmore hcursor'
    have hafter := ih (Nat.succ_pos k) hmore hcursor'.symm
    rw [shown_more htop (by rwa [← Nat.succ_mul]), List.flatten_cons, List.map_append]
    refine (hafter.append_left _).trans (List.Perm.trans (List.Perm.of_eq ?_) hrest)
    rw [← List.map_append, Nat.succ_mul, ← List.drop_drop, List.take_append_drop]

theorem Settled.run_perm (htop : 0 < topK) (h : listings.Settled topK id)
    (hrun : PagedBy listings.cursorOf topK listings.past none ts pages) :
    ∀ t ∈ ts, (pages.flatten.map id).Perm ((listings.rows t).map id) := by
  have hstart : ∀ t, listings.past t none = (listings.rows t).drop 0 := fun t => List.drop_zero.symm
  cases hrun with
  | @last _ t hlast =>
    intro t' ht'
    rw [List.mem_singleton.mp ht']
    rw [hstart] at hlast ⊢
    rw [shown_last (shown_drop_none htop hlast), List.flatten_singleton, List.drop_zero]
  | @next _ t next ts pages hnext hpages =>
    rw [hstart] at hnext ⊢
    obtain ⟨hmore, hcursor⟩ := shown_drop_some htop hnext
    have hlong : 1 * topK < (listings.rows t).length := by omega
    have hrest := h.rest_perm htop hpages Nat.one_pos hlong (by rw [Nat.one_mul, ← hcursor, Nat.zero_add])
    have hfirst : (((shown listings.cursorOf topK ((listings.rows t).drop 0)).1 :: pages).flatten.map id).Perm
        ((listings.rows t).map id) := by
      rw [shown_more htop hmore, List.flatten_cons, List.map_append]
      refine (hrest.append_left _).trans (List.Perm.of_eq ?_)
      rw [← List.map_append, Nat.one_mul, List.drop_zero, List.take_append_drop]
    intro t' ht'
    rcases List.mem_cons.mp ht' with rfl | _
    · exact hfirst
    · exact hfirst.trans (h t t' 1 Nat.one_pos hlong).1.symm

theorem Settled.ends_after (htop : 0 < topK) (h : listings.Settled topK id) (hk : 0 < k)
    (hlong : k * topK < (listings.rows t).length) :
    PagesEnd listings.cursorOf topK (fun cursor found => ∃ t, found = listings.past t cursor)
      (listings.cursorPast t (k * topK)) := by
  induction hleft : (listings.rows t).length - k * topK using Nat.strong_induction_on generalizing t k with
  | _ left ih =>
    refine Acc.intro _ fun next hnext => ?_
    obtain ⟨_, ⟨t', rfl⟩, hnext, hsome⟩ := hnext
    obtain ⟨cursor, rfl⟩ := Option.isSome_iff_exists.mp hsome
    rw [h.past_eq hk hlong t'] at hnext
    obtain ⟨hmore, hcursor⟩ := shown_drop_some htop hnext
    have hlength := (h t t' k hk hlong).1.length_eq
    rw [List.length_map, List.length_map] at hlength
    rw [← hcursor, ← Nat.succ_mul]
    rw [← Nat.succ_mul] at hmore
    have hless : (listings.rows t').length - (k + 1) * topK < left := by
      rw [Nat.succ_mul] at hmore ⊢
      omega
    exact ih _ hless (Nat.succ_pos k) hmore rfl

theorem Settled.ends (htop : 0 < topK) (h : listings.Settled topK id) :
    PagesEnd listings.cursorOf topK (fun cursor found => ∃ t, found = listings.past t cursor) none := by
  refine Acc.intro _ fun next hnext => ?_
  obtain ⟨_, ⟨t, rfl⟩, hnext, hsome⟩ := hnext
  obtain ⟨cursor, rfl⟩ := Option.isSome_iff_exists.mp hsome
  have hstart : listings.past t none = (listings.rows t).drop 0 := List.drop_zero.symm
  rw [hstart] at hnext
  obtain ⟨hmore, hcursor⟩ := shown_drop_some htop hnext
  have hend := h.ends_after htop Nat.one_pos (show 1 * topK < (listings.rows t).length by omega)
  have hfirst : 1 * topK = 0 + topK := by omega
  rw [hfirst, hcursor] at hend
  exact hend

/-- One order for all the queries. -/
theorem constant_run (htop : 0 < topK) {cursor : Option κ} {position : ℕ}
    (hpast : listings.past t cursor = (listings.rows t).drop position) :
    ∃ n pages, PagedBy listings.cursorOf topK listings.past cursor (List.replicate (n + 1) t) pages ∧
      pages.flatten = (listings.rows t).drop position := by
  induction hleft : (listings.rows t).length - position using Nat.strong_induction_on generalizing cursor position with
  | _ left ih =>
    cases hnext : (shown listings.cursorOf topK (listings.past t cursor)).2 with
    | none =>
      refine ⟨0, _, .last hnext, ?_⟩
      rw [hpast] at hnext ⊢
      rw [shown_last (shown_drop_none htop hnext), List.flatten_singleton]
    | some next =>
      have hshown := hnext
      rw [hpast] at hshown
      obtain ⟨hmore, hcursor⟩ := shown_drop_some htop hshown
      have hpast' : listings.past t (some next) = (listings.rows t).drop (position + topK) := by
        rw [← hcursor]
        exact listings.own t (position + topK)
      obtain ⟨n, pages, hrun, hflatten⟩ := ih _ (by omega) hpast' rfl
      refine ⟨n + 1, _, .next hnext hrun, ?_⟩
      rw [hpast, shown_more htop hmore, List.flatten_cons, hflatten, ← List.drop_drop, List.take_append_drop]

/-- The first pages of a run that meets one order on them. -/
theorem run_through (htop : 0 < topK) (hlong : k * topK < (listings.rows t).length)
    (hrun : PagedBy listings.cursorOf topK listings.past (listings.cursorPast t (k * topK)) ts pages) :
    ∃ pages', PagedBy listings.cursorOf topK listings.past none (List.replicate k t ++ ts) pages' ∧
      pages'.flatten = (listings.rows t).take (k * topK) ++ pages.flatten := by
  induction k generalizing ts pages with
  | zero =>
    rw [Nat.zero_mul] at hrun ⊢
    exact ⟨pages, hrun, by rw [List.take_zero, List.nil_append]⟩
  | succ k ih =>
    have hmore : k * topK + topK < (listings.rows t).length := by rwa [← Nat.succ_mul]
    have hpast : listings.past t (listings.cursorPast t (k * topK)) = (listings.rows t).drop (k * topK) :=
      listings.own t (k * topK)
    have hshown : shown listings.cursorOf topK (listings.past t (listings.cursorPast t (k * topK))) =
        (((listings.rows t).drop (k * topK)).take topK, listings.cursorPast t ((k + 1) * topK)) := by
      rw [hpast, shown_more htop hmore, ← Nat.succ_mul, cursorPast]
    have hpos : 0 < (k + 1) * topK := Nat.mul_pos (Nat.succ_pos k) htop
    obtain ⟨next, hnext⟩ := cursorPast_isSome hpos hlong.le
    have hpage := PagedBy.next (by rw [hshown]; exact hnext) (hnext ▸ hrun)
    obtain ⟨pages', hrun', hflatten⟩ := ih (by omega) hpage
    refine ⟨pages', ?_, ?_⟩
    · rwa [List.replicate_succ', List.append_assoc, List.singleton_append]
    · rw [hflatten, hshown, List.flatten_cons, ← List.append_assoc, Nat.succ_mul, List.take_add]

theorem settled_of_runs (htop : 0 < topK)
    (h : ∀ ts pages, PagedBy listings.cursorOf topK listings.past none ts pages →
      ∀ t ∈ ts, (pages.flatten.map id).Perm ((listings.rows t).map id)) : listings.Settled topK id := by
  intro t t' k hk hlong
  have hsuffix := List.suffix_iff_eq_drop.mp (listings.suffix t t' (k * topK))
  obtain ⟨n, pages, hrest, hflatten⟩ := constant_run htop hsuffix
  rw [rows, ← hsuffix] at hflatten
  obtain ⟨pages', hrun, hflatten'⟩ := run_through htop hlong hrest
  rw [hflatten] at hflatten'
  have hmem : t ∈ List.replicate k t ++ List.replicate (n + 1) t' :=
    List.mem_append_left _ (List.mem_replicate.mpr ⟨hk.ne', rfl⟩)
  have hmem' : t' ∈ List.replicate k t ++ List.replicate (n + 1) t' :=
    List.mem_append_right _ (List.mem_replicate.mpr ⟨n.succ_ne_zero, rfl⟩)
  have hall := h _ _ hrun t hmem
  refine ⟨(h _ _ hrun t' hmem').symm.trans hall, ?_⟩
  rw [hflatten', ← List.take_append_drop (k * topK) (listings.rows t), List.map_append, List.map_append,
    List.take_append_drop, List.perm_append_left_iff] at hall
  exact hall

theorem settled_of_eq (h : ∀ t t', listings.rows t = listings.rows t') : listings.Settled topK id := by
  intro t t' k _ _
  have hown : listings.past t' (listings.cursorPast t (k * topK)) = (listings.rows t).drop (k * topK) := by
    rw [cursorPast, h t t']
    exact listings.own t' (k * topK)
  rw [hown, h t' t]
  exact ⟨List.Perm.refl _, List.Perm.refl _⟩

end Listings

end CorpusFeed
