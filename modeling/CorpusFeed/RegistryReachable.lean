import CorpusFeed.RegistrySafety

/-! Activations, and the safety of every state and step of a run. -/

namespace CorpusFeed

open Database

variable {α : Type*}

theorem RegistryInvariant.switch_cursor_iff {db : Database α} {c : Corpus} {g : Text}
    (h : RegistryInvariant db) (stamps : ActivationStamps) {row : GenerationRow} (hr : row ∈ db.registry)
    (hk : row.key = (c, g)) (c' : Corpus) (g' : Text) :
    (∃ cursor ∈ (db.switchGeneration c g stamps).cursors,
        cursor.corpus = c' ∧ cursor.activeGeneration = g') ↔
      ∃ r ∈ (db.switchGeneration c g stamps).registry, r.key = (c', g') ∧ r.state = .active := by
  by_cases hc : c' = c
  · subst hc
    constructor
    · rintro ⟨cursor, hcur, hcc, rfl⟩
      rcases Table.mem_upsert.mp hcur with rfl | ⟨_, hne⟩
      · exact ⟨row.activate stamps, mem_switchGeneration.mpr (Or.inl ⟨row, hr, hk, rfl⟩), hk, rfl⟩
      · exact absurd hcc hne
    · rintro ⟨r, hr', hk', hs'⟩
      rcases mem_switchGeneration.mp hr' with ⟨r0, _, hk0, rfl⟩ | ⟨r0, _, _, _, _, rfl⟩ | ⟨_, _, hno⟩
      · rw [GenerationRow.activate_key, hk0] at hk'
        exact ⟨_, Table.mem_upsert.mpr (Or.inl rfl), rfl, congrArg Prod.snd hk'⟩
      · cases hs'
      · exact absurd ⟨(GenerationRow.key_eq_iff.mp hk').1, hs'⟩ hno
  · have hcursors : (∃ cursor ∈ (db.switchGeneration c g stamps).cursors,
        cursor.corpus = c' ∧ cursor.activeGeneration = g') ↔
        ∃ cursor ∈ db.cursors, cursor.corpus = c' ∧ cursor.activeGeneration = g' := by
      constructor
      · rintro ⟨cursor, hcur, hcc, hg⟩
        rcases Table.mem_upsert.mp hcur with rfl | ⟨hcur, _⟩
        · exact absurd hcc.symm hc
        · exact ⟨cursor, hcur, hcc, hg⟩
      · rintro ⟨cursor, hcur, hcc, hg⟩
        exact ⟨cursor, Table.mem_upsert.mpr (Or.inr ⟨hcur, fun he => hc (hcc.symm.trans he)⟩), hcc, hg⟩
    rw [hcursors, h.cursor_iff]
    constructor
    · rintro ⟨r, hr', hk', hs'⟩
      have hrc := (GenerationRow.key_eq_iff.mp hk').1
      refine ⟨r, mem_switchGeneration.mpr (Or.inr (Or.inr ⟨hr', ?_, ?_⟩)), hk', hs'⟩
      · exact fun he => hc (hrc.symm.trans (GenerationRow.key_eq_iff.mp he).1)
      · exact fun he => hc (hrc.symm.trans he.1)
    · rintro ⟨r, hr', hk', hs'⟩
      rcases mem_switchGeneration.mp hr' with ⟨r0, _, hk0, rfl⟩ | ⟨r0, _, _, _, _, rfl⟩ | ⟨hr', _, _⟩
      · rw [GenerationRow.activate_key, hk0] at hk'
        exact absurd (congrArg Prod.fst hk').symm hc
      · cases hs'
      · exact ⟨r, hr', hk', hs'⟩

theorem RegistryInvariant.activate {ready : Database α → Text → Bool} {lockFree : Bool}
    {db db' : Database α} {c : Corpus} {g : Text} {stamps : ActivationStamps} {guard : CursorGuard}
    (h : RegistryInvariant db) (hop : db.activateGeneration ready lockFree c g stamps guard = .ok db') :
    RegistryInvariant db' := by
  obtain ⟨row, hr, hk, hs, _, hv⟩ := activateGeneration_cases hop
  obtain ⟨hlive, rfl⟩ := rebuildServerViews_cases hv
  have hcur := h.switch_cursor_iff stamps hr hk
  constructor
  · refine ⟨?_, hcur, _, rfl, fun entry => Iff.rfl, hlive⟩
    intro r hr' r' hr'' hs' hs'' hc
    obtain ⟨cursor, hm, hcc, hg⟩ := (hcur r.corpus r.generation).mpr ⟨r, hr', rfl, hs'⟩
    obtain ⟨cursor', hm', hcc', hg'⟩ := (hcur r'.corpus r'.generation).mpr ⟨r', hr'', rfl, hs''⟩
    have hsame := Table.eq_of_key_eq hm hm' (hcc.trans (hc.trans hcc'.symm))
    refine Table.eq_of_key_eq hr' hr'' (GenerationRow.key_eq_iff.mpr ⟨hc, ?_⟩)
    rw [← hg, ← hg', hsame]
  · intro r hr'
    rcases mem_switchGeneration.mp hr' with ⟨r0, h0, _, rfl⟩ | ⟨r0, h0, _, _, _, rfl⟩ | ⟨h0, _, _⟩
    · exact h.named r0 h0
    · exact h.named r0 h0
    · exact h.named r h0

theorem RegistryInvariant.activation_moves {ready : Database α → Text → Bool} {lockFree : Bool}
    {db db' : Database α} {c : Corpus} {g : Text} {stamps : ActivationStamps} {guard : CursorGuard}
    (h : RegistryInvariant db) (hop : db.activateGeneration ready lockFree c g stamps guard = .ok db') :
    ActivationMoves db db' c g := by
  obtain ⟨row, hr, hk, hs, _, hv⟩ := activateGeneration_cases hop
  obtain ⟨_, rfl⟩ := rebuildServerViews_cases hv
  have hcursor : ∀ r ∈ db.registry, (∃ cursor ∈ db.cursors, cursor.corpus = c ∧
      r.key = (c, cursor.activeGeneration)) ↔ r.corpus = c ∧ r.state = .active := by
    intro r hr'
    constructor
    · rintro ⟨cursor, hm, hcc, hkr⟩
      obtain ⟨r', hr'', hk', hs'⟩ := (h.cursor_iff _ _).mp ⟨cursor, hm, hcc, rfl⟩
      rw [Table.eq_of_key_eq hr' hr'' (hkr.trans hk'.symm)]
      exact ⟨(GenerationRow.key_eq_iff.mp hk').1, hs'⟩
    · rintro ⟨hcc, ha⟩
      obtain ⟨cursor, hm, hcc', hg⟩ := (h.cursor_iff r.corpus r.generation).mpr ⟨r, hr', rfl, ha⟩
      exact ⟨cursor, hm, hcc'.trans hcc, GenerationRow.key_eq_iff.mpr ⟨hcc, hg.symm⟩⟩
  have hnotkey : ∀ r ∈ db.registry, r.state = .active → r.key ≠ (c, g) := by
    intro r hr' ha hkr
    rw [Table.eq_of_key_eq hr' hr (hkr.trans hk.symm), hs] at ha
    cases ha
  refine ⟨⟨row, hr, hk, hs, row.activate stamps, ?_, hk, rfl⟩, ?_, ?_, rfl⟩
  · exact mem_switchGeneration.mpr (Or.inl ⟨row, hr, hk, rfl⟩)
  · intro r hr'
    rw [hcursor r hr']
    constructor
    · rintro ⟨hne, hm⟩
      rcases mem_switchGeneration.mp hm with ⟨r0, _, _, heq⟩ | ⟨r0, h0, _, hc, ha, heq⟩ | ⟨hm, _, _⟩
      · exact absurd (congrArg GenerationRow.state heq) (by simp [GenerationRow.retire, GenerationRow.activate])
      · have hkeys : r.key = r0.key := by rw [← r.retire_key, heq, r0.retire_key]
        rw [Table.eq_of_key_eq hr' h0 hkeys]
        exact ⟨hc, ha⟩
      · have hsame : r.retire = r := Table.eq_of_key_eq hm hr' r.retire_key
        exact absurd (congrArg GenerationRow.state hsame).symm hne
    · rintro ⟨hc, ha⟩
      refine ⟨by simp [ha], mem_switchGeneration.mpr (Or.inr (Or.inl ⟨r, hr', hnotkey r hr' ha, hc, ha, rfl⟩))⟩
  · intro r hr' hkr hno
    refine mem_switchGeneration.mpr (Or.inr (Or.inr ⟨hr', hkr, fun hca => ?_⟩))
    obtain ⟨cursor, hm, hcc, hkc⟩ := (hcursor r hr').mpr hca
    exact hno cursor hm hcc hkc

namespace RegistrySystem

theorem settle_invariant {db : Database α} {result : Except StorageError (Database α)}
    (h : RegistryInvariant db)
    (hop : ∀ db', result = .ok db' → RegistryInvariant db' ∧ LiveSchemasKept db db') :
    RegistryInvariant (db.settle result) ∧ LiveSchemasKept db (db.settle result) := by
  cases result with
  | ok db' => exact hop db' rfl
  | error e => exact ⟨h, LiveSchemasKept.refl db⟩

theorem step_keeps {ready : Database α → Text → Bool} {tables : α} {s : RegistrySystem α}
    {a : RegistryAction α} (h : RegistryInvariant s.db) (hclear : StepClear s.db a)
    (hactivate : ∀ l c g stamps guard, a ≠ .activate l c g stamps guard)
    (hwrite : ∀ identifier rows, a ≠ .write identifier rows) :
    RegistryInvariant (step ready tables s a).db ∧ LiveSchemasKept s.db (step ready tables s a).db := by
  cases a with
  | register c m b =>
    cases hop : s.db.registerGeneration c m b with
    | ok db => simpa [step, hop] using h.register hop
    | error e => simpa [step, hop] using And.intro h (LiveSchemasKept.refl s.db)
  | clone c m =>
    by_cases hm : (c, m) ∈ s.pending
    · simpa [step, hm] using settle_invariant h fun db' hop => h.clone hop
    · simpa [step, hm] using And.intro h (LiveSchemasKept.refl s.db)
  | abandon c m => exact ⟨h, LiveSchemasKept.refl s.db⟩
  | create c m b => exact settle_invariant h fun db' hop => h.create hop
  | reset c g =>
    refine settle_invariant h fun db' hop => ?_
    rcases resetBuildingGeneration_cases hop with rfl | ⟨row, hr, hk, hs, rfl⟩
    · exact ⟨h, LiveSchemasKept.refl _⟩
    · exact h.drop hr hk (by simp [hs]) (hclear ⟨row, hr, hk, hs⟩)
  | activate l c g stamps guard => exact absurd rfl (hactivate l c g stamps guard)
  | dropRetired c g =>
    refine settle_invariant h fun db' hop => ?_
    obtain ⟨row, hr, hk, hs, rfl⟩ := dropRetiredGeneration_cases hop
    exact h.drop hr hk (by simp [hs]) (hclear ⟨row, hr, hk, hs⟩)
  | write identifier rows => exact absurd rfl (hwrite identifier rows)

theorem step_invariant {ready : Database α → Text → Bool} {tables : α} {s : RegistrySystem α}
    {a : RegistryAction α} (h : RegistryInvariant s.db) (hclear : StepClear s.db a) :
    RegistryInvariant (step ready tables s a).db := by
  cases a with
  | activate l c g stamps guard =>
    unfold step settle
    dsimp only
    cases hop : s.db.activateGeneration ready l c g stamps guard with
    | ok db => exact h.activate hop
    | error e => exact h
  | write identifier rows => exact h.write identifier rows
  | register c m b => exact (step_keeps h hclear (by simp) (by simp)).1
  | clone c m => exact (step_keeps h hclear (by simp) (by simp)).1
  | abandon c m => exact (step_keeps h hclear (by simp) (by simp)).1
  | create c m b => exact (step_keeps h hclear (by simp) (by simp)).1
  | reset c g => exact (step_keeps h hclear (by simp) (by simp)).1
  | dropRetired c g => exact (step_keeps h hclear (by simp) (by simp)).1

theorem run_invariant {ready : Database α → Text → Bool} {tables : α} {actions : List (RegistryAction α)}
    {s : RegistrySystem α} (h : RegistryInvariant s.db) (hclear : RunClear ready tables s actions) :
    RegistryInvariant (run ready tables s actions).db := by
  induction actions generalizing s with
  | nil => exact h
  | cons a actions ih => exact ih (step_invariant h hclear.1) hclear.2

/-- A reset of a building generation whose label is cut into that of an active one
drops the live schema. -/
theorem reset_drops_live_schema {db db' : Database α} {row other : GenerationRow} {c : Corpus} {g : Text}
    (h : RegistryInvariant db) (hr : row ∈ db.registry) (hk : row.key = (c, g)) (hs : row.state = .building)
    (hactive : other.state = .active) (hcut : other.generation.take 45 = g.take 45)
    (hop : db.resetBuildingGeneration c g = .ok db') (ho : other ∈ db.registry) :
    db'.schemas.find? (schemaIdentifier other.generation) = none ∧ ¬ LiveSchemasKept db db' := by
  have hfind := Table.find?_eq_some.mpr ⟨hr, hk⟩
  have hg : row.generation = g := (GenerationRow.key_eq_iff.mp hk).2
  have hid : truncateIdentifier row.physicalSchema = schemaIdentifier other.generation := by
    rw [(h.named row hr).1, hg, ← schemaIdentifier, schemaIdentifier_eq_iff.mpr hcut]
  have hnone : db'.schemas.find? (schemaIdentifier other.generation) = none := by
    simp only [resetBuildingGeneration, hfind, hs, if_true, Except.ok.injEq] at hop
    subst hop
    refine Table.find?_eq_none.mpr fun schema hm heq => ?_
    have hne := (Table.mem_filter.mp hm).2
    rw [hid] at hne
    simp [heq] at hne
  refine ⟨hnone, fun hkept => ?_⟩
  obtain ⟨cursor, hm, hc, hg'⟩ := (h.cursor_iff other.corpus other.generation).mpr ⟨other, ho, rfl, hactive⟩
  have hentry : (other.corpus, schemaIdentifier other.generation) ∈ db.activeGenerationSchemas :=
    List.mem_map.mpr ⟨cursor, hm, by rw [hc, hg']⟩
  obtain ⟨entries, _, he, hl⟩ := h.views_live
  have hlive := hl _ ((he _).mpr hentry)
  have hsame : _ = _ := hkept.2 _ hentry
  rw [← hsame, hnone] at hlive
  cases hlive

def ShortNames : RegistryAction α → Prop
  | .register c _ _ | .create c _ _ => c.name.length ≤ 32
  | _ => True

def RowsShort (db : Database α) : Prop :=
  ∀ row ∈ db.registry, row.corpus.name.length ≤ 32

theorem registerGeneration_rowsShort {db db' : Database α} {c : Corpus} {m : UInt32} {b : Option Text}
    (h : RowsShort db) (hc : c.name.length ≤ 32) (hop : db.registerGeneration c m b = .ok db') :
    RowsShort db' := by
  obtain ⟨registry, hi, rfl⟩ := registerGeneration_cases hop
  intro row hr
  rcases (Table.mem_insert hi).mp hr with rfl | hr
  · exact hc
  · exact h row hr

theorem settle_rowsShort {db : Database α} {result : Except StorageError (Database α)} (h : RowsShort db)
    (hop : ∀ db', result = .ok db' → RowsShort db') : RowsShort (db.settle result) := by
  cases result with
  | ok db' => exact hop db' rfl
  | error e => exact h

theorem step_rowsShort {ready : Database α → Text → Bool} {tables : α} {s : RegistrySystem α}
    {a : RegistryAction α} (h : RowsShort s.db) (ha : ShortNames a) :
    RowsShort (step ready tables s a).db := by
  cases a with
  | register c m b =>
    cases hop : s.db.registerGeneration c m b with
    | ok db => simpa [step, hop] using registerGeneration_rowsShort h ha hop
    | error e => simpa [step, hop] using h
  | clone c m =>
    by_cases hm : (c, m) ∈ s.pending
    · simp only [step, hm, if_true]
      refine settle_rowsShort h fun db' hop => ?_
      obtain ⟨schemas, _, rfl⟩ := cloneSchema_cases hop
      exact h
    · simpa [step, hm] using h
  | abandon c m => exact h
  | create c m b =>
    refine settle_rowsShort h fun db' hop => ?_
    unfold createGeneration at hop
    split at hop
    · next registered hr =>
      have hregistered : RowsShort registered := registerGeneration_rowsShort h ha hr
      obtain ⟨schemas, _, rfl⟩ := cloneSchema_cases hop
      exact hregistered
    · cases hop
  | reset c g =>
    refine settle_rowsShort h fun db' hop => ?_
    rcases resetBuildingGeneration_cases hop with rfl | ⟨row, _, _, _, rfl⟩
    · exact h
    · exact fun r hr => h r (Table.mem_filter.mp hr).1
  | activate l c g stamps guard =>
    refine settle_rowsShort h fun db' hop => ?_
    obtain ⟨_, _, _, _, _, hv⟩ := activateGeneration_cases hop
    obtain ⟨_, rfl⟩ := rebuildServerViews_cases hv
    intro r hr
    rcases mem_switchGeneration.mp hr with ⟨r0, h0, _, rfl⟩ | ⟨r0, h0, _, _, _, rfl⟩ | ⟨h0, _, _⟩
    · exact h r0 h0
    · exact h r0 h0
    · exact h r h0
  | dropRetired c g =>
    refine settle_rowsShort h fun db' hop => ?_
    obtain ⟨row, _, _, _, rfl⟩ := dropRetiredGeneration_cases hop
    exact fun r hr => h r (Table.mem_filter.mp hr).1
  | write identifier rows => exact h

theorem stepClear_of_rowsShort {db : Database α} (hinv : RegistryInvariant db) (h : RowsShort db)
    (a : RegistryAction α) : StepClear db a := by
  have hclear : ∀ g : Text, LabelClear db g := by
    intro g row hr _ hcut
    obtain ⟨n, hn⟩ := (hinv.named row hr).2
    refine eq_of_take_eq ?_ hcut
    rw [hn]
    exact generationName_length_lt (h row hr) n
  cases a with
  | reset c g => exact fun _ => hclear g
  | dropRetired c g => exact fun _ => hclear g
  | _ => trivial

/-- Names of at most 32 characters keep every run clear. -/
theorem runClear_of_shortNames {ready : Database α → Text → Bool} {tables : α}
    {actions : List (RegistryAction α)} {s : RegistrySystem α} (hinv : RegistryInvariant s.db)
    (h : RowsShort s.db) (ha : ∀ a ∈ actions, ShortNames a) : RunClear ready tables s actions := by
  induction actions generalizing s with
  | nil => trivial
  | cons a actions ih =>
    have hclear := stepClear_of_rowsShort hinv h a
    exact ⟨hclear, ih (step_invariant hinv hclear) (step_rowsShort h (ha a List.mem_cons_self))
      fun b hb => ha b (List.mem_cons_of_mem a hb)⟩

end RegistrySystem

end CorpusFeed
