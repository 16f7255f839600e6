import CorpusFeed.KeyedTable
import CorpusFeed.OrderKeys

/-! Bringing one table to the contents of another by what changed: upserts of
the new rows, deletes of the gone keys, and whole scopes cleared and refilled. -/

namespace CorpusFeed

namespace Table

variable {R K : Type*} {key : R → K} [DecidableEq K]

/-- Inserts that must each pass a check and find their key free. -/
def insertRows (ok : R → Bool) : List R → Table key → Option (Table key)
  | [], t => some t
  | r :: rows, t =>
    if ok r then
      match t.insert r with
      | none => none
      | some u => insertRows ok rows u
    else none

def upsertRows (ok : R → Bool) : List R → Table key → Option (Table key)
  | [], t => some t
  | r :: rows, t => if ok r then upsertRows ok rows (t.upsert r) else none

/-- The rows of a scope in the order they are read in. -/
def scopeRows (order : KeyOrder R) (p : R → Bool) (t : Table key) : List R := order.sort (t.rows.filter p)

def hasKey (t : Table key) (k : K) : Bool := (t.find? k).isSome

variable {t u : Table key} {rows : List R} {ok : R → Bool}

omit [DecidableEq K] in
@[simp] theorem mem_scopeRows {order : KeyOrder R} {p : R → Bool} {r : R} :
    r ∈ t.scopeRows order p ↔ r ∈ t ∧ p r = true := by
  rw [scopeRows, KeyOrder.mem_sort, List.mem_filter, mem_rows]

omit [DecidableEq K] in
theorem scopeRows_nodup (order : KeyOrder R) (p : R → Bool) : ((t.scopeRows order p).map key).Nodup := by
  have hperm : (t.scopeRows order p).Perm (t.rows.filter p) := order.sort_perm _
  have hfilter : ((t.rows.filter p).map key).Nodup := (List.filter_sublist.map key).nodup t.nodup
  exact (hperm.map key).nodup_iff.mpr hfilter

omit [DecidableEq K] in
theorem scopeRows_congr {order : KeyOrder R} {p q : R → Bool}
    (htied : ∀ a b : R, order.Tied a b → key a = key b)
    (h : ∀ r, r ∈ t ∧ p r = true ↔ r ∈ u ∧ q r = true) : t.scopeRows order p = u.scopeRows order q := by
  have ht : (t.rows.filter p).Nodup := (List.Nodup.of_map key t.nodup).filter p
  have hu : (u.rows.filter q).Nodup := (List.Nodup.of_map key u.nodup).filter q
  apply order.sort_congr
  · apply (List.perm_ext_iff_of_nodup ht hu).mpr
    intro r
    rw [List.mem_filter, List.mem_filter, mem_rows, mem_rows]
    exact h r
  · intro a ha b hb hab
    exact eq_of_key_eq (List.mem_filter.mp ha).1 (List.mem_filter.mp hb).1 (htied a b hab)

theorem hasKey_iff {k : K} : t.hasKey k = true ↔ ∃ r ∈ t, key r = k := by
  rw [hasKey]
  cases hf : t.find? k with
  | none =>
    have hno := find?_eq_none.mp hf
    simp only [Option.isSome_none, Bool.false_eq_true, false_iff]
    rintro ⟨r, hr, hk⟩
    exact hno r hr hk
  | some r =>
    obtain ⟨hr, hk⟩ := find?_eq_some.mp hf
    simp only [Option.isSome_some, true_iff]
    exact ⟨r, hr, hk⟩

theorem Same.hasKey_eq (h : Same t u) (k : K) : t.hasKey k = u.hasKey k := by
  rw [hasKey, hasKey, h.find?_eq]

theorem upsertRows_ok (hok : ∀ r ∈ rows, ok r = true) : t.upsertRows ok rows = some (t.upsertAll rows) := by
  induction rows generalizing t with
  | nil => rfl
  | cons r rows ih =>
    rw [upsertRows, if_pos (hok r List.mem_cons_self)]
    exact ih fun s hs => hok s (List.mem_cons_of_mem r hs)

theorem insertRows_ok (hok : ∀ r ∈ rows, ok r = true) (hnodup : (rows.map key).Nodup)
    (hfresh : ∀ r ∈ rows, ∀ s ∈ t, key s ≠ key r) :
    ∃ u, t.insertRows ok rows = some u ∧ ∀ r, r ∈ u ↔ r ∈ t ∨ r ∈ rows := by
  induction rows generalizing t with
  | nil => exact ⟨t, rfl, by simp⟩
  | cons r rows ih =>
    obtain ⟨hr, hrows⟩ := List.nodup_cons.mp hnodup
    obtain ⟨next, hnext⟩ := insert_isSome (hfresh r List.mem_cons_self)
    have hfresh' : ∀ s ∈ rows, ∀ v ∈ next, key v ≠ key s := by
      intro s hs v hv
      rcases (mem_insert hnext).mp hv with heq | hold
      · rw [heq]
        intro hk
        exact hr (List.mem_map.mpr ⟨s, hs, hk.symm⟩)
      · exact hfresh s (List.mem_cons_of_mem r hs) v hold
    obtain ⟨u, hu, hmem⟩ := ih (fun s hs => hok s (List.mem_cons_of_mem r hs)) hrows hfresh'
    refine ⟨u, ?_, ?_⟩
    · rw [insertRows, if_pos (hok r List.mem_cons_self), hnext]
      exact hu
    · intro s
      rw [hmem, mem_insert hnext, List.mem_cons]
      constructor
      · rintro ((heq | hold) | hs)
        · exact Or.inr (Or.inl heq)
        · exact Or.inl hold
        · exact Or.inr (Or.inr hs)
      · rintro (hold | heq | hs)
        · exact Or.inl (Or.inr hold)
        · exact Or.inl (Or.inl heq)
        · exact Or.inr hs

theorem mem_upsertAll_rows (hrows : ∀ r ∈ rows, r ∈ u) {r : R} :
    r ∈ t.upsertAll rows ↔ r ∈ rows ∨ (r ∈ t ∧ key r ∉ rows.map key) :=
  mem_upsertAll_of_unique fun a ha b hb hk => eq_of_key_eq (hrows a ha) (hrows b hb) hk

theorem hasKey_upsertAll (hrows : ∀ r ∈ rows, r ∈ u) {k : K} (h : t.hasKey k = true) :
    (t.upsertAll rows).hasKey k = true := by
  obtain ⟨r, hr, hk⟩ := hasKey_iff.mp h
  apply hasKey_iff.mpr
  by_cases hin : key r ∈ rows.map key
  · obtain ⟨s, hs, heq⟩ := List.mem_map.mp hin
    exact ⟨s, (mem_upsertAll_rows hrows).mpr (Or.inl hs), heq.trans hk⟩
  · exact ⟨r, (mem_upsertAll_rows hrows).mpr (Or.inr ⟨hr, hin⟩), hk⟩

/-- Upserts of rows of the target reach it up to keys that are gone from it. -/
theorem upsertAll_delete_same {gone : R → Bool} (hrows : ∀ r ∈ rows, r ∈ u)
    (hnew : ∀ r ∈ u, r ∈ rows ∨ r ∈ t) (hstay : ∀ r ∈ u, gone r = false)
    (hkept : ∀ r ∈ t, gone r = true ∨ ∃ s ∈ u, key s = key r) :
    ((t.upsertAll rows).filter fun r => !gone r).Same u := by
  intro r
  rw [mem_filter, mem_upsertAll_rows hrows]
  constructor
  · rintro ⟨hr | ⟨hr, hno⟩, hgone⟩
    · exact hrows r hr
    · rcases hkept r hr with hg | ⟨s, hs, hk⟩
      · rw [hg] at hgone
        exact absurd hgone (by simp)
      · rcases hnew s hs with hin | hold
        · exact absurd (List.mem_map.mpr ⟨s, hin, hk⟩) hno
        · rwa [← eq_of_key_eq hold hr hk]
  · intro hr
    refine ⟨?_, by simp [hstay r hr]⟩
    rcases hnew r hr with hin | hold
    · exact Or.inl hin
    · by_cases hk : key r ∈ rows.map key
      · obtain ⟨s, hs, hks⟩ := List.mem_map.mp hk
        rw [← eq_of_key_eq (hrows s hs) hr hks]
        exact Or.inl hs
      · exact Or.inr ⟨hold, hk⟩

theorem upsertAll_same (hrows : ∀ r ∈ rows, r ∈ u) (hnew : ∀ r ∈ u, r ∈ rows ∨ r ∈ t)
    (hkept : ∀ r ∈ t, ∃ s ∈ u, key s = key r) : (t.upsertAll rows).Same u := by
  have h : ((t.upsertAll rows).filter fun _ => !false).Same u :=
    upsertAll_delete_same hrows hnew (fun _ _ => rfl) fun r hr => Or.inr (hkept r hr)
  intro r
  have hr := h r
  rw [mem_filter] at hr
  simpa using hr

end Table

section Refill

variable {R K D : Type*} {key : R → K}

/-- Between two tables only rows of these scopes differ. -/
def AgreeOutside (scope : R → D) (docs : List D) (t u : Table key) : Prop :=
  ∀ r, scope r ∉ docs → (r ∈ t ↔ r ∈ u)

/-- One scope of a table now reads as in the target, the others as before. -/
def Refilled [DecidableEq D] (scope : R → D) (doc : D) (t u next : Table key) : Prop :=
  ∀ r, r ∈ next ↔ if scope r = doc then r ∈ u else r ∈ t

variable {scope : R → D} {t u next : Table key} {doc : D} {docs : List D}

theorem AgreeOutside.refill [DecidableEq D] (h : AgreeOutside scope (doc :: docs) t u)
    (hnext : Refilled scope doc t u next) : AgreeOutside scope docs next u := by
  intro r hr
  have hn := hnext r
  by_cases hdoc : scope r = doc
  · rw [if_pos hdoc] at hn
    exact hn
  · rw [if_neg hdoc] at hn
    rw [hn]
    exact h r (by simp [hdoc, hr])

theorem refilled_of_same [DecidableEq D] (h : t.Same u) : Refilled scope doc t u t := by
  intro r
  by_cases hdoc : scope r = doc
  · rw [if_pos hdoc]
    exact h r
  · rw [if_neg hdoc]

theorem agreeOutside_nil : AgreeOutside scope [] t u ↔ t.Same u := by
  constructor
  · intro h r
    exact h r (by simp)
  · intro h r _
    exact h r

/-- Losing rows that the target lacks keeps what the tables agree on. -/
theorem AgreeOutside.filter {q : R → Bool} (h : AgreeOutside scope docs t u) (hq : ∀ r ∈ u, q r = true) :
    AgreeOutside scope docs (t.filter q) u := by
  intro r hr
  rw [Table.mem_filter, h r hr]
  constructor
  · exact And.left
  · intro hu
    exact ⟨hu, hq r hu⟩

/-- Upserts of rows of the target keep it, too. -/
theorem AgreeOutside.upsertAll [DecidableEq K] {rows : List R} (h : AgreeOutside scope docs t u)
    (hrows : ∀ r ∈ rows, r ∈ u) : AgreeOutside scope docs (t.upsertAll rows) u := by
  intro r hr
  rw [Table.mem_upsertAll_rows hrows]
  constructor
  · rintro (hin | ⟨hold, -⟩)
    · exact hrows r hin
    · exact (h r hr).mp hold
  · intro hin
    by_cases hk : key r ∈ rows.map key
    · obtain ⟨s, hs, heq⟩ := List.mem_map.mp hk
      rw [← Table.eq_of_key_eq (hrows s hs) hin heq]
      exact Or.inl hs
    · exact Or.inr ⟨(h r hr).mpr hin, hk⟩

theorem refilled_insert [DecidableEq K] [DecidableEq D] {rows : List R} {ok : R → Bool} {cleared : Table key}
    (hcleared : ∀ r, r ∈ cleared ↔ r ∈ t ∧ scope r ≠ doc) (hrows : ∀ r, r ∈ rows ↔ r ∈ u ∧ scope r = doc)
    (hnodup : (rows.map key).Nodup) (hkey : ∀ r ∈ rows, ∀ s ∈ cleared, key s = key r → scope s = scope r)
    (hok : ∀ r ∈ rows, ok r = true) :
    ∃ next, cleared.insertRows ok rows = some next ∧ Refilled scope doc t u next := by
  have hfresh : ∀ r ∈ rows, ∀ s ∈ cleared, key s ≠ key r := by
    intro r hr s hs hk
    have hscope := hkey r hr s hs hk
    rw [((hrows r).mp hr).2] at hscope
    exact ((hcleared s).mp hs).2 hscope
  obtain ⟨next, hnext, hmem⟩ := Table.insertRows_ok hok hnodup hfresh
  refine ⟨next, hnext, ?_⟩
  intro r
  rw [hmem, hcleared, hrows]
  by_cases hdoc : scope r = doc
  · rw [if_pos hdoc]
    constructor
    · rintro (⟨-, hne⟩ | ⟨hu, -⟩)
      · exact absurd hdoc hne
      · exact hu
    · intro hu
      exact Or.inr ⟨hu, hdoc⟩
  · rw [if_neg hdoc]
    constructor
    · rintro (⟨ht, -⟩ | ⟨-, heq⟩)
      · exact ht
      · exact absurd heq hdoc
    · intro ht
      exact Or.inl ⟨ht, hdoc⟩

end Refill

/-! Rows that refer to the rows of another table, whose keys each belong to one scope. -/

section Owners

variable {R K D : Type*} {key : R → K} [DecidableEq K] {scope : R → D} {owner : K → D} {t u next : Table key} {k : K}
  {d : D}

omit [DecidableEq K] in
theorem owner_of_any [BEq D] [LawfulBEq D] [BEq K] [LawfulBEq K] (howner : ∀ r, owner (key r) = scope r)
    (h : (t.rows.any fun r => scope r == d && key r == k) = true) : owner k = d := by
  obtain ⟨r, -, hboth⟩ := List.any_eq_true.mp h
  simp only [Bool.and_eq_true, beq_iff_eq] at hboth
  rw [← hboth.2, howner, hboth.1]

theorem any_iff_owner [BEq D] [LawfulBEq D] [BEq K] [LawfulBEq K] (howner : ∀ r, owner (key r) = scope r)
    (hk : t.hasKey k = true) : (t.rows.any fun r => scope r == d && key r == k) = true ↔ owner k = d := by
  constructor
  · exact owner_of_any howner
  · intro hd
    obtain ⟨r, hr, hid⟩ := Table.hasKey_iff.mp hk
    rw [← hid, howner] at hd
    exact List.any_eq_true.mpr ⟨r, hr, by simp [hd, hid]⟩

/-- The row that the scope of a reference names. -/
theorem hasKey_owner {S : Type*} [DecidableEq D] {scopeKey : S → D} {scopes : Table scopeKey}
    (howner : ∀ r, owner (key r) = scope r) (hscopes : ∀ r ∈ t, scopes.hasKey (scope r) = true)
    (hk : t.hasKey k = true) : scopes.hasKey (owner k) = true := by
  obtain ⟨r, hr, hid⟩ := Table.hasKey_iff.mp hk
  rw [← hid, howner]
  exact hscopes r hr

theorem hasKey_filter (howner : ∀ r, owner (key r) = scope r) {q : R → Bool} (hq : ∀ r, scope r = owner k → q r = true)
    (hk : t.hasKey k = true) : (t.filter q).hasKey k = true := by
  obtain ⟨r, hr, hid⟩ := Table.hasKey_iff.mp hk
  have hscope : scope r = owner k := by rw [← hid, howner]
  exact Table.hasKey_iff.mpr ⟨r, Table.mem_filter.mpr ⟨hr, hq r hscope⟩, hid⟩

theorem mem_unowned {C L : Type*} {refKey : C → L} {v : Table refKey} {ref : C → K} {belongs : K → Bool}
    (hbelongs : ∀ k, t.hasKey k = true → (belongs k = true ↔ owner k = d))
    (hv : ∀ e ∈ v, t.hasKey (ref e) = true) (e : C) :
    e ∈ v.filter (fun e => !belongs (ref e)) ↔ e ∈ v ∧ owner (ref e) ≠ d := by
  rw [Table.mem_filter]
  apply and_congr_right
  intro he
  rw [Bool.not_eq_true', ← Bool.not_eq_true, not_congr (hbelongs (ref e) (hv e he))]

variable [DecidableEq D]

theorem hasKey_refilled (howner : ∀ r, owner (key r) = scope r) (hnext : Refilled scope d t u next)
    (hin : owner k = d → u.hasKey k = true) (hout : owner k ≠ d → t.hasKey k = true) : next.hasKey k = true := by
  by_cases hd : owner k = d
  · obtain ⟨r, hr, hid⟩ := Table.hasKey_iff.mp (hin hd)
    have hscope : scope r = d := by rw [← howner, hid, hd]
    exact Table.hasKey_iff.mpr ⟨r, (hnext r).mpr (by rwa [if_pos hscope]), hid⟩
  · obtain ⟨r, hr, hid⟩ := Table.hasKey_iff.mp (hout hd)
    have hscope : scope r ≠ d := by rwa [← howner, hid]
    exact Table.hasKey_iff.mpr ⟨r, (hnext r).mpr (by rwa [if_neg hscope]), hid⟩

variable {C L : Type*} {refKey : C → L} {ref : C → K} {v w after : Table refKey}

/-- The references of one scope are cleared and filled again, after the rows that they need. -/
theorem refs_refilled [DecidableEq L] {rows : List C} {cleared : Table refKey} (howner : ∀ r, owner (key r) = scope r)
    (hcleared : ∀ e, e ∈ cleared ↔ e ∈ v ∧ owner (ref e) ≠ d) (hrows : ∀ e, e ∈ rows ↔ e ∈ w ∧ owner (ref e) = d)
    (hnodup : (rows.map refKey).Nodup) (href : ∀ a b, refKey a = refKey b → ref a = ref b)
    (hw : ∀ e ∈ w, u.hasKey (ref e) = true) (hnext : Refilled scope d t u next) :
    ∃ after, cleared.insertRows (fun e => next.hasKey (ref e)) rows = some after ∧
      Refilled (fun e => owner (ref e)) d v w after := by
  apply refilled_insert hcleared hrows hnodup
  · intro r _ s _ hk
    exact congrArg owner (href s r hk)
  · intro e he
    obtain ⟨hin, hd⟩ := (hrows e).mp he
    exact hasKey_refilled howner hnext (fun _ => hw e hin) fun hne => absurd hd hne

theorem refs_resolve (howner : ∀ r, owner (key r) = scope r) (hv : ∀ e ∈ v, t.hasKey (ref e) = true)
    (hw : ∀ e ∈ w, u.hasKey (ref e) = true) (hnext : Refilled scope d t u next)
    (hafter : Refilled (fun e => owner (ref e)) d v w after) : ∀ e ∈ after, next.hasKey (ref e) = true := by
  intro e he
  have hmem := (hafter e).mp he
  apply hasKey_refilled howner hnext
  · intro hd
    rw [if_pos hd] at hmem
    exact hw e hmem
  · intro hd
    rw [if_neg hd] at hmem
    exact hv e hmem

end Owners

end CorpusFeed
