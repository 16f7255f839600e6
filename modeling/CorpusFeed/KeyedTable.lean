import Mathlib.Data.List.Nodup

/-! Finite tables with a primary key and the statements on them: `WHERE`
filters, key-preserving updates, plain inserts and whole-row upserts. Rows are
compared by membership, since a table has no row order to depend on. -/

namespace CorpusFeed

structure Table {R K : Type*} (key : R → K) where
  rows : List R
  nodup : (rows.map key).Nodup

namespace Table

variable {R K : Type*} {key : R → K}

instance : Membership R (Table key) := ⟨fun t r => r ∈ t.rows⟩

theorem mem_rows {t : Table key} {r : R} : r ∈ t.rows ↔ r ∈ t := Iff.rfl

theorem eq_of_key_eq {t : Table key} {r s : R} (hr : r ∈ t) (hs : s ∈ t) (h : key r = key s) : r = s :=
  List.inj_on_of_nodup_map t.nodup hr hs h

def Same (t u : Table key) : Prop :=
  ∀ r, r ∈ t ↔ r ∈ u

theorem Same.refl (t : Table key) : Same t t := fun _ => Iff.rfl

theorem Same.symm {t u : Table key} (h : Same t u) : Same u t := fun r => (h r).symm

theorem Same.trans {t u v : Table key} (h : Same t u) (h' : Same u v) : Same t v :=
  fun r => (h r).trans (h' r)

def empty : Table key := ⟨[], List.nodup_nil⟩

@[simp] theorem not_mem_empty (r : R) : r ∉ (empty : Table key) := List.not_mem_nil

def filter (t : Table key) (p : R → Bool) : Table key where
  rows := t.rows.filter p
  nodup := (List.Sublist.map key List.filter_sublist).nodup t.nodup

@[simp] theorem mem_filter {t : Table key} {p : R → Bool} {r : R} :
    r ∈ t.filter p ↔ r ∈ t ∧ p r = true := List.mem_filter

def update (t : Table key) (p : R → Bool) (f : R → R) (hf : ∀ r, key (f r) = key r) : Table key where
  rows := t.rows.map fun r => if p r then f r else r
  nodup := by
    have hk : key ∘ (fun r => if p r then f r else r) = key := by
      funext r
      simp only [Function.comp]
      split
      · exact hf r
      · rfl
    rw [List.map_map, hk]
    exact t.nodup

theorem mem_update {t : Table key} {p : R → Bool} {f : R → R} {hf : ∀ r, key (f r) = key r} {r : R} :
    r ∈ t.update p f hf ↔ (∃ s ∈ t, p s = true ∧ f s = r) ∨ (r ∈ t ∧ p r = false) := by
  rw [← mem_rows, update, List.mem_map]
  constructor
  · rintro ⟨s, hs, h⟩
    cases hp : p s with
    | true => exact Or.inl ⟨s, hs, hp, by simpa [hp] using h⟩
    | false =>
      have hsr : s = r := by simpa [hp] using h
      subst hsr
      exact Or.inr ⟨hs, hp⟩
  · rintro (⟨s, hs, hp, h⟩ | ⟨hr, hp⟩)
    · exact ⟨s, hs, by simp [hp, h]⟩
    · exact ⟨r, hr, by simp [hp]⟩

theorem mem_update_all {t : Table key} {f : R → R} {hf : ∀ r, key (f r) = key r} {r : R} :
    r ∈ t.update (fun _ => true) f hf ↔ ∃ s ∈ t, f s = r := by
  rw [mem_update]
  simp

/-- What an update keeps of a row, it keeps of the table. -/
theorem exists_mem_update {t : Table key} {p : R → Bool} {f : R → R} {hf : ∀ r, key (f r) = key r} {Q : R → Prop}
    (hQ : ∀ r, Q (f r) ↔ Q r) : (∃ r ∈ t.update p f hf, Q r) ↔ ∃ r ∈ t, Q r := by
  constructor
  · rintro ⟨r, hr, hq⟩
    rcases mem_update.mp hr with ⟨s, hs, -, rfl⟩ | ⟨hr, -⟩
    · exact ⟨s, hs, (hQ s).mp hq⟩
    · exact ⟨r, hr, hq⟩
  · rintro ⟨r, hr, hq⟩
    cases hp : p r with
    | true => exact ⟨f r, mem_update.mpr (Or.inl ⟨r, hr, hp, rfl⟩), (hQ r).mpr hq⟩
    | false => exact ⟨r, mem_update.mpr (Or.inr ⟨hr, hp⟩), hq⟩

variable [DecidableEq K]

def find? (t : Table key) (k : K) : Option R :=
  t.rows.find? fun r => key r = k

theorem find?_eq_some {t : Table key} {k : K} {r : R} : t.find? k = some r ↔ r ∈ t ∧ key r = k := by
  constructor
  · intro h
    exact ⟨List.mem_of_find?_eq_some h, by simpa using List.find?_some h⟩
  · rintro ⟨hr, hk⟩
    cases h : t.find? k with
    | none =>
      have hn := List.find?_eq_none.mp h r hr
      simp [hk] at hn
    | some s =>
      have hs : s ∈ t := List.mem_of_find?_eq_some h
      have hks : key s = k := by simpa using List.find?_some h
      rw [eq_of_key_eq hs hr (hks.trans hk.symm)]

theorem find?_eq_none {t : Table key} {k : K} : t.find? k = none ↔ ∀ r ∈ t, key r ≠ k := by
  simp [find?, mem_rows]

/-- A test of the row under a key, which fails where there is none. -/
theorem accepts_iff {t : Table key} {k : K} {accepted : Bool} {Q : R → Prop}
    (hnone : t.find? k = none → accepted = false) (hsome : ∀ r, t.find? k = some r → (accepted = true ↔ Q r)) :
    accepted = true ↔ ∃ r, r ∈ t ∧ key r = k ∧ Q r := by
  cases h : t.find? k with
  | none =>
    simp only [hnone h, Bool.false_eq_true, false_iff, not_exists, not_and]
    exact fun r hr hk => absurd hk (find?_eq_none.mp h r hr)
  | some r =>
    obtain ⟨hr, hk⟩ := find?_eq_some.mp h
    rw [hsome r h]
    constructor
    · intro hQ
      exact ⟨r, hr, hk, hQ⟩
    · rintro ⟨s, hs, hks, hQ⟩
      rwa [eq_of_key_eq hr hs (hk.trans hks.symm)]

theorem Same.find?_eq {t u : Table key} (h : Same t u) (k : K) : t.find? k = u.find? k := by
  cases hu : u.find? k with
  | none => exact find?_eq_none.mpr fun r hr => find?_eq_none.mp hu r ((h r).mp hr)
  | some r =>
    obtain ⟨hr, hk⟩ := find?_eq_some.mp hu
    exact find?_eq_some.mpr ⟨(h r).mpr hr, hk⟩

theorem find?_update (t : Table key) (p : R → Bool) (f : R → R) (hf : ∀ r, key (f r) = key r) (k : K) :
    (t.update p f hf).find? k = (t.find? k).map fun r => if p r then f r else r := by
  cases h : t.find? k with
  | none =>
    refine find?_eq_none.mpr fun r hr => ?_
    rcases mem_update.mp hr with ⟨s, hs, _, rfl⟩ | ⟨hr, _⟩
    · rw [hf]
      exact find?_eq_none.mp h s hs
    · exact find?_eq_none.mp h r hr
  | some r =>
    obtain ⟨hr, hk⟩ := find?_eq_some.mp h
    cases hp : p r with
    | true =>
      have hm : f r ∈ t.update p f hf := mem_update.mpr (Or.inl ⟨r, hr, hp, rfl⟩)
      simpa [hp] using find?_eq_some.mpr ⟨hm, (hf r).trans hk⟩
    | false =>
      have hm : r ∈ t.update p f hf := mem_update.mpr (Or.inr ⟨hr, hp⟩)
      simpa [hp] using find?_eq_some.mpr ⟨hm, hk⟩

theorem find?_filter (t : Table key) (p : R → Bool) (k : K) :
    (t.filter p).find? k = (t.find? k).filter p := by
  cases h : t.find? k with
  | none =>
    exact find?_eq_none.mpr fun r hr => find?_eq_none.mp h r (mem_filter.mp hr).1
  | some r =>
    obtain ⟨hr, hk⟩ := find?_eq_some.mp h
    cases hp : p r with
    | true =>
      rw [Option.filter_some_pos hp]
      exact find?_eq_some.mpr ⟨mem_filter.mpr ⟨hr, hp⟩, hk⟩
    | false =>
      rw [Option.filter_some_neg (by simp [hp])]
      refine find?_eq_none.mpr fun s hs hks => ?_
      obtain ⟨hs, hps⟩ := mem_filter.mp hs
      rw [eq_of_key_eq hs hr (hks.trans hk.symm), hp] at hps
      cases hps

theorem find?_filter_ne {t : Table key} {k l : K} (h : k ≠ l) :
    (t.filter fun r => key r ≠ l).find? k = t.find? k := by
  rw [find?_filter]
  cases hf : t.find? k with
  | none => rfl
  | some r =>
    obtain ⟨_, hk⟩ := find?_eq_some.mp hf
    simp [hk, h]

def insert (t : Table key) (r : R) : Option (Table key) :=
  if h : key r ∈ t.rows.map key then none
  else some ⟨r :: t.rows, by simpa using ⟨by simpa using h, t.nodup⟩⟩

theorem mem_insert {t u : Table key} {r s : R} (h : t.insert r = some u) : s ∈ u ↔ s = r ∨ s ∈ t := by
  unfold insert at h
  split at h
  · simp at h
  · simp only [Option.some.injEq] at h
    subst h
    exact List.mem_cons

theorem insert_eq_none {t : Table key} {r : R} : t.insert r = none ↔ ∃ s ∈ t, key s = key r := by
  simp [insert, mem_rows]

theorem insert_isSome {t : Table key} {r : R} (h : ∀ s ∈ t, key s ≠ key r) :
    ∃ u, t.insert r = some u := by
  cases hi : t.insert r with
  | none =>
    obtain ⟨s, hs, hk⟩ := insert_eq_none.mp hi
    exact absurd hk (h s hs)
  | some u => exact ⟨u, rfl⟩

theorem find?_insert {t u : Table key} {r : R} (h : t.insert r = some u) (k : K) :
    u.find? k = if k = key r then some r else t.find? k := by
  split
  · next hk => exact find?_eq_some.mpr ⟨(mem_insert h).mpr (Or.inl rfl), hk.symm⟩
  · next hk =>
    cases hf : t.find? k with
    | none =>
      refine find?_eq_none.mpr fun s hs => ?_
      rcases (mem_insert h).mp hs with rfl | hs
      · exact fun hks => hk hks.symm
      · exact find?_eq_none.mp hf s hs
    | some s =>
      obtain ⟨hs, hks⟩ := find?_eq_some.mp hf
      exact find?_eq_some.mpr ⟨(mem_insert h).mpr (Or.inr hs), hks⟩

def upsert (t : Table key) (r : R) : Table key where
  rows := r :: t.rows.filter fun s => key s ≠ key r
  nodup := by
    simp only [List.map_cons, List.nodup_cons, List.mem_map, List.mem_filter]
    refine ⟨?_, (List.Sublist.map key List.filter_sublist).nodup t.nodup⟩
    rintro ⟨s, ⟨_, hs⟩, hk⟩
    simp [hk] at hs

@[simp] theorem mem_upsert {t : Table key} {r s : R} :
    s ∈ t.upsert r ↔ s = r ∨ (s ∈ t ∧ key s ≠ key r) := by
  rw [← mem_rows, upsert]
  simp [mem_rows]

theorem find?_upsert (t : Table key) (r : R) (k : K) :
    (t.upsert r).find? k = if k = key r then some r else t.find? k := by
  split
  · next h => exact find?_eq_some.mpr ⟨by simp, h.symm⟩
  · next h =>
    cases hf : t.find? k with
    | none =>
      refine find?_eq_none.mpr fun s hs => ?_
      rcases mem_upsert.mp hs with rfl | ⟨hs, _⟩
      · exact fun hk => h hk.symm
      · exact find?_eq_none.mp hf s hs
    | some s =>
      obtain ⟨hs, hk⟩ := find?_eq_some.mp hf
      exact find?_eq_some.mpr ⟨mem_upsert.mpr (Or.inr ⟨hs, hk ▸ h⟩), hk⟩

def upsertAll (t : Table key) (rows : List R) : Table key := rows.foldl upsert t

/-- The last of the rows with one key stays, and rows with other keys stay. -/
theorem mem_upsertAll {t : Table key} {rows : List R} {r : R} : r ∈ t.upsertAll rows ↔
    (∃ before after, rows = before ++ r :: after ∧ key r ∉ after.map key) ∨ (r ∈ t ∧ key r ∉ rows.map key) := by
  induction rows generalizing t with
  | nil => simp [upsertAll]
  | cons s rows ih =>
    have hcons : t.upsertAll (s :: rows) = (t.upsert s).upsertAll rows := rfl
    rw [hcons, ih, mem_upsert, List.map_cons, List.mem_cons, not_or]
    constructor
    · rintro (⟨before, after, rfl, hlast⟩ | ⟨rfl | ⟨hr, hne⟩, hno⟩)
      · exact Or.inl ⟨s :: before, after, rfl, hlast⟩
      · exact Or.inl ⟨[], rows, rfl, hno⟩
      · exact Or.inr ⟨hr, hne, hno⟩
    · rintro (⟨before, after, heq, hlast⟩ | ⟨hr, hne, hno⟩)
      · cases before with
        | nil =>
          obtain ⟨rfl, rfl⟩ := List.cons.inj heq
          exact Or.inr ⟨Or.inl rfl, hlast⟩
        | cons first before =>
          obtain ⟨_, rfl⟩ := List.cons.inj heq
          exact Or.inl ⟨before, after, rfl, hlast⟩
      · exact Or.inr ⟨Or.inr ⟨hr, hne⟩, hno⟩

theorem mem_upsertAll_of_unique {t : Table key} {rows : List R}
    (h : ∀ r ∈ rows, ∀ s ∈ rows, key r = key s → r = s) {r : R} :
    r ∈ t.upsertAll rows ↔ r ∈ rows ∨ (r ∈ t ∧ key r ∉ rows.map key) := by
  induction rows generalizing t with
  | nil => simp [upsertAll]
  | cons s rows ih =>
    have hcons : t.upsertAll (s :: rows) = (t.upsert s).upsertAll rows := rfl
    have hrows := @ih (t.upsert s) fun r hr r' hr' =>
      h r (List.mem_cons_of_mem s hr) r' (List.mem_cons_of_mem s hr')
    rw [hcons, hrows, mem_upsert, List.map_cons, List.mem_cons, List.mem_cons, not_or]
    constructor
    · rintro (hr | ⟨rfl | ⟨hr, hne⟩, hno⟩)
      · exact Or.inl (Or.inr hr)
      · exact Or.inl (Or.inl rfl)
      · exact Or.inr ⟨hr, hne, hno⟩
    · rintro ((rfl | hr) | ⟨hr, hne, hno⟩)
      · by_cases hk : key r ∈ rows.map key
        · obtain ⟨s, hs, hks⟩ := List.mem_map.mp hk
          exact Or.inl (h s (List.mem_cons_of_mem r hs) r List.mem_cons_self hks ▸ hs)
        · exact Or.inr ⟨Or.inl rfl, hk⟩
      · exact Or.inl hr
      · exact Or.inr ⟨Or.inr ⟨hr, hne⟩, hno⟩

end Table

end CorpusFeed
