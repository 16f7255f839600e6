import CorpusFeed.RegistryRun

/-! Safety of the generation registry. Each database function is inverted
once, and the invariant is carried over runs from these inversions. -/

namespace CorpusFeed

variable {α : Type*}

structure RegistryInvariant (db : Database α) : Prop extends RegistrySafe db where
  named : ∀ row ∈ db.registry, row.physicalSchema = schemaForGeneration row.generation ∧
    ∃ n, row.generation = generationName row.corpus.name n

theorem RegistryInvariant.eq_of_generation_eq {db : Database α} (h : RegistryInvariant db)
    {row row' : GenerationRow} (hr : row ∈ db.registry) (hr' : row' ∈ db.registry)
    (hg : row.generation = row'.generation) : row = row' := by
  obtain ⟨n, hn⟩ := (h.named row hr).2
  obtain ⟨n', hn'⟩ := (h.named row' hr').2
  rw [hn, hn'] at hg
  obtain ⟨hc, _⟩ := generationName_inj hg
  refine Table.eq_of_key_eq hr hr' ?_
  rw [GenerationRow.key, GenerationRow.key, Corpus.ext hc, hn, hn', hg]

theorem RegistryInvariant.empty : RegistryInvariant (Database.empty : Database α) where
  one_active := by simp [Database.empty]
  cursor_iff := by simp [Database.empty]
  views_live := ⟨[], rfl, by simp [Database.activeGenerationSchemas, Database.empty, Table.empty], by simp⟩
  named := by simp [Database.empty]

theorem RegistrySafe.active_of_mem {db : Database α} (h : RegistrySafe db) {entry : Corpus × Text}
    (he : entry ∈ db.activeGenerationSchemas) :
    ∃ row ∈ db.registry, row.corpus = entry.1 ∧ row.state = .active ∧
      entry.2 = schemaIdentifier row.generation := by
  simp only [Database.activeGenerationSchemas, List.mem_map] at he
  obtain ⟨cursor, hc, rfl⟩ := he
  obtain ⟨row, hr, hk, hs⟩ := (h.cursor_iff cursor.corpus cursor.activeGeneration).mp ⟨cursor, hc, rfl, rfl⟩
  simp only [GenerationRow.key, Prod.mk.injEq] at hk
  exact ⟨row, hr, hk.1, hs, by rw [hk.2]⟩

namespace Database

theorem registerGeneration_cases {db db' : Database α} {c : Corpus} {m : UInt32} {b : Option Text}
    (h : db.registerGeneration c m b = .ok db') :
    ∃ registry, db.registry.insert
        ⟨c, generationName c.name m, generationSchema c.name m, .building, b, none, none⟩ = some registry ∧
      db' = { db with registry := registry } := by
  unfold registerGeneration at h
  dsimp only at h
  split at h
  · cases h
  · next registry hi =>
    cases h
    exact ⟨registry, hi, rfl⟩

theorem dropRetiredGeneration_cases {db db' : Database α} {c : Corpus} {g : Text}
    (h : db.dropRetiredGeneration c g = .ok db') :
    ∃ row ∈ db.registry, row.key = (c, g) ∧ row.state = .retired ∧
      db' = { db.dropSchema (truncateIdentifier row.physicalSchema) with
        registry := db.registry.filter fun r => r.key ≠ (c, g) } := by
  unfold dropRetiredGeneration at h
  split at h
  · cases h
  · next row hf =>
    obtain ⟨hr, hk⟩ := Table.find?_eq_some.mp hf
    split at h
    · next hs =>
      split at h
      · cases h
        exact ⟨row, hr, hk, hs, rfl⟩
      · cases h
    · cases h

theorem rebuildServerViews_cases {db db' : Database α} (h : db.rebuildServerViews = .ok db') :
    (∀ entry ∈ db.activeGenerationSchemas, (db.schemas.find? entry.2).isSome = true) ∧
      db' = { db with views := some db.activeGenerationSchemas } := by
  unfold rebuildServerViews at h
  split at h
  · next hall =>
    cases h
    exact ⟨List.all_eq_true.mp hall, rfl⟩
  · cases h

theorem activateGeneration_cases {ready : Database α → Text → Bool} {lockFree : Bool}
    {db db' : Database α} {c : Corpus} {g : Text} {stamps : ActivationStamps} {guard : CursorGuard}
    (h : db.activateGeneration ready lockFree c g stamps guard = .ok db') :
    ∃ row ∈ db.registry, row.key = (c, g) ∧ row.state = .building ∧
      checkCursorGuard c guard (db.currentSequence c) = .ok () ∧
      (db.switchGeneration c g stamps).rebuildServerViews = .ok db' := by
  unfold activateGeneration at h
  split at h
  · cases h
  split at h
  · cases h
  next row hf =>
  obtain ⟨hr, hk⟩ := Table.find?_eq_some.mp hf
  split at h
  · next hs =>
    split at h
    · cases h
    next hg =>
    split at h
    · cases h
    next switched hv =>
    split at h
    · cases h
      exact ⟨row, hr, hk, hs, hg, hv⟩
    · cases h
  · cases h

theorem mem_switchGeneration {db : Database α} {c : Corpus} {g : Text} {stamps : ActivationStamps}
    {r : GenerationRow} :
    r ∈ (db.switchGeneration c g stamps).registry ↔
      (∃ row ∈ db.registry, row.key = (c, g) ∧ r = row.activate stamps) ∨
      (∃ row ∈ db.registry, row.key ≠ (c, g) ∧ row.corpus = c ∧ row.state = .active ∧ r = row.retire) ∨
      (r ∈ db.registry ∧ r.key ≠ (c, g) ∧ ¬(r.corpus = c ∧ r.state = .active)) := by
  simp only [switchGeneration, Table.mem_update, Bool.and_eq_true, decide_eq_true_eq, Bool.and_eq_false_iff,
    decide_eq_false_iff_not, GenerationRow.key_eq_iff, ne_eq]
  constructor
  · rintro (⟨s, (⟨row, hr, ⟨⟨hc, ha⟩, hg⟩, rfl⟩ | ⟨hr, _⟩), hk, rfl⟩ |
      ⟨⟨row, hr, ⟨⟨hc, ha⟩, hg⟩, rfl⟩ | ⟨hr, hno⟩, hk⟩)
    · exact absurd hk.2 hg
    · exact Or.inl ⟨s, hr, hk, rfl⟩
    · exact Or.inr (Or.inl ⟨row, hr, hk, hc, ha, rfl⟩)
    · refine Or.inr (Or.inr ⟨hr, hk, fun hca => ?_⟩)
      rcases hno with (hno | hno) | hno
      · exact hno hca.1
      · exact hno hca.2
      · exact hk ⟨hca.1, not_not.mp hno⟩
  · rintro (⟨row, hr, hk, rfl⟩ | ⟨row, hr, hk, hc, ha, rfl⟩ | ⟨hr, hk, hno⟩)
    · exact Or.inl ⟨row, Or.inr ⟨hr, Or.inr (not_not.mpr hk.2)⟩, hk, rfl⟩
    · exact Or.inr ⟨Or.inl ⟨row, hr, ⟨⟨hc, ha⟩, fun hg => hk ⟨hc, hg⟩⟩, rfl⟩, hk⟩
    · refine Or.inr ⟨Or.inr ⟨hr, ?_⟩, hk⟩
      by_cases hc : r.corpus = c
      · exact Or.inl (Or.inr fun ha => hno ⟨hc, ha⟩)
      · exact Or.inl (Or.inl hc)

end Database

open Database

theorem LiveSchemasKept.refl (db : Database α) : LiveSchemasKept db db :=
  ⟨rfl, fun _ _ => KeepsSchema.refl _ _⟩

theorem RegistryInvariant.register {db db' : Database α} {c : Corpus} {m : UInt32} {b : Option Text}
    (h : RegistryInvariant db) (hop : db.registerGeneration c m b = .ok db') :
    RegistryInvariant db' ∧ LiveSchemasKept db db' := by
  obtain ⟨registry, hi, rfl⟩ := registerGeneration_cases hop
  refine ⟨?_, rfl, fun _ _ => rfl⟩
  constructor
  · constructor
    · intro row hr row' hr' hs hs' hc
      rcases (Table.mem_insert hi).mp hr with rfl | hr
      · cases hs
      rcases (Table.mem_insert hi).mp hr' with rfl | hr'
      · cases hs'
      exact h.one_active row hr row' hr' hs hs' hc
    · intro c' g
      rw [h.cursor_iff]
      constructor
      · rintro ⟨row, hr, hk, hs⟩
        exact ⟨row, (Table.mem_insert hi).mpr (Or.inr hr), hk, hs⟩
      · rintro ⟨row, hr, hk, hs⟩
        rcases (Table.mem_insert hi).mp hr with rfl | hr
        · cases hs
        · exact ⟨row, hr, hk, hs⟩
    · exact h.views_live
  · intro row hr
    rcases (Table.mem_insert hi).mp hr with rfl | hr
    · exact ⟨rfl, m, rfl⟩
    · exact h.named row hr

theorem RegistryInvariant.withSchemas {db : Database α} {schemas : Table (Prod.fst : Text × α → Text)}
    (h : RegistryInvariant db)
    (hs : ∀ identifier, (db.schemas.find? identifier).isSome = true →
      (schemas.find? identifier).isSome = true) :
    RegistryInvariant { db with schemas := schemas } := by
  obtain ⟨entries, hv, he, hl⟩ := h.views_live
  exact ⟨⟨h.one_active, h.cursor_iff, entries, hv, he, fun entry hm => hs _ (hl entry hm)⟩, h.named⟩

/-- Creating a schema leaves the live ones alone: they exist already, so a
taken name is refused. -/
theorem RegistryInvariant.clone {db db' : Database α} {tables : α} {c : Corpus} {m : UInt32}
    (h : RegistryInvariant db) (hop : db.cloneSchema tables c m = .ok db') :
    RegistryInvariant db' ∧ LiveSchemasKept db db' := by
  obtain ⟨schemas, hi, rfl⟩ := cloneSchema_cases hop
  constructor
  · refine h.withSchemas fun identifier hs => ?_
    rw [Table.find?_insert hi]
    split
    · rfl
    · exact hs
  · refine ⟨rfl, fun entry he => ?_⟩
    obtain ⟨entries, _, hentries, hl⟩ := h.views_live
    obtain ⟨schema, hsome⟩ := Option.isSome_iff_exists.mp (hl entry ((hentries entry).mpr he))
    obtain ⟨hm, hk⟩ := Table.find?_eq_some.mp hsome
    have hne : entry.2 ≠ schemaIdentifier (generationName c.name m) := by
      intro heq
      rw [Table.insert_eq_none.mpr ⟨schema, hm, hk.trans heq⟩] at hi
      cases hi
    exact cloneSchema_keeps hop hne

theorem RegistryInvariant.create {db db' : Database α} {tables : α} {c : Corpus} {m : UInt32}
    {b : Option Text} (h : RegistryInvariant db) (hop : db.createGeneration tables c m b = .ok db') :
    RegistryInvariant db' ∧ LiveSchemasKept db db' := by
  unfold createGeneration at hop
  split at hop
  · next registered hr =>
    obtain ⟨hinv, hv, hk⟩ := h.register hr
    obtain ⟨registry, _, rfl⟩ := registerGeneration_cases hr
    obtain ⟨hinv', hv', hk'⟩ := hinv.clone hop
    exact ⟨hinv', hv'.trans hv, fun entry he => (hk' entry he).trans (hk entry he)⟩
  · cases hop

theorem RegistryInvariant.write {db : Database α} (h : RegistryInvariant db) (identifier : Text)
    (rows : α → α) : RegistryInvariant (db.writeRows identifier rows) := by
  refine h.withSchemas fun other hs => ?_
  rw [Table.find?_update, Option.isSome_map]
  exact hs

/-- Dropping the schema of a row that is not active, when no other active
label shares the kept part of its schema name. -/
theorem RegistryInvariant.drop {db : Database α} {row : GenerationRow} {c : Corpus} {g : Text}
    (h : RegistryInvariant db) (hr : row ∈ db.registry) (hk : row.key = (c, g)) (hs : row.state ≠ .active)
    (hclear : ∀ other ∈ db.registry, other.state = .active → other.generation.take 45 = g.take 45 →
      other.generation = g) :
    RegistryInvariant { db.dropSchema (truncateIdentifier row.physicalSchema) with
        registry := db.registry.filter fun r => r.key ≠ (c, g) } ∧
      LiveSchemasKept db { db.dropSchema (truncateIdentifier row.physicalSchema) with
        registry := db.registry.filter fun r => r.key ≠ (c, g) } := by
  have hg : row.generation = g := (GenerationRow.key_eq_iff.mp hk).2
  have hid : truncateIdentifier row.physicalSchema = schemaIdentifier g := by
    rw [(h.named row hr).1, hg, schemaIdentifier]
  have hne : ∀ entry ∈ db.activeGenerationSchemas, entry.2 ≠ schemaIdentifier g := by
    intro entry he heq
    obtain ⟨other, hother, _, hactive, hentry⟩ := h.active_of_mem he
    rw [hentry] at heq
    have hsame := hclear other hother hactive (schemaIdentifier_eq_iff.mp heq)
    rw [h.eq_of_generation_eq hother hr (hsame.trans hg.symm)] at hactive
    exact hs hactive
  obtain ⟨entries, hv, he, hl⟩ := h.views_live
  have hany : (entries.any fun entry => entry.2 == schemaIdentifier g) = false := by
    simp only [List.any_eq_false, beq_iff_eq]
    exact fun entry hm => hne entry ((he entry).mp hm)
  have hviews : (db.dropSchema (schemaIdentifier g)).views = some entries := by
    simp [dropSchema, hv, hany]
  rw [hid]
  constructor
  · constructor
    · constructor
      · intro r hr r' hr' hs hs' hc
        exact h.one_active r (Table.mem_filter.mp hr).1 r' (Table.mem_filter.mp hr').1 hs hs' hc
      · intro c' g'
        refine (h.cursor_iff c' g').trans ⟨?_, ?_⟩
        · rintro ⟨r, hr', hk', hs'⟩
          refine ⟨r, Table.mem_filter.mpr ⟨hr', ?_⟩, hk', hs'⟩
          simp only [ne_eq, decide_eq_true_eq]
          intro hkr
          rw [Table.eq_of_key_eq hr' hr (hkr.trans hk.symm)] at hs'
          exact hs hs'
        · rintro ⟨r, hr', hk', hs'⟩
          exact ⟨r, (Table.mem_filter.mp hr').1, hk', hs'⟩
      · refine ⟨entries, hviews, he, fun entry hm => ?_⟩
        have hkeep : KeepsSchema entry.2 db (db.dropSchema (schemaIdentifier g)) :=
          dropSchema_keeps (hne entry ((he entry).mp hm))
        exact (congrArg Option.isSome hkeep).trans (hl entry hm)
    · exact fun r hr => h.named r (Table.mem_filter.mp hr).1
  · exact ⟨hviews.trans hv.symm, fun entry hm => dropSchema_keeps (hne entry hm)⟩

end CorpusFeed
