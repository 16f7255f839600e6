import CorpusFeed.GenerationRegistry

/-! Isolation of physical schemas: which generations can be created and reset
without reaching the schema of another one. -/

namespace CorpusFeed

namespace Database

variable {α : Type*}

def WellNamed (db : Database α) : Prop :=
  ∀ row ∈ db.registry, row.physicalSchema = schemaForGeneration row.generation

def KeepsSchema (identifier : Text) (db db' : Database α) : Prop :=
  db'.schemas.find? identifier = db.schemas.find? identifier

theorem KeepsSchema.refl (identifier : Text) (db : Database α) : KeepsSchema identifier db db := rfl

theorem dropSchema_keeps {db : Database α} {dropped kept : Text} (h : kept ≠ dropped) :
    KeepsSchema kept db (db.dropSchema dropped) :=
  Table.find?_filter_ne h

theorem cloneSchema_cases {db db' : Database α} {tables : α} {c : Corpus} {m : UInt32}
    (h : db.cloneSchema tables c m = .ok db') :
    ∃ schemas, db.schemas.insert (schemaIdentifier (generationName c.name m), tables) = some schemas ∧
      db' = { db with schemas := schemas } := by
  unfold cloneSchema at h
  cases hi : db.schemas.insert (schemaIdentifier (generationName c.name m), tables) with
  | none => simp [hi] at h
  | some schemas =>
    simp only [hi, Except.ok.injEq] at h
    exact ⟨schemas, rfl, h.symm⟩

theorem cloneSchema_keeps {db db' : Database α} {tables : α} {c : Corpus} {m : UInt32} {identifier : Text}
    (h : db.cloneSchema tables c m = .ok db')
    (hne : identifier ≠ schemaIdentifier (generationName c.name m)) : KeepsSchema identifier db db' := by
  obtain ⟨schemas, hi, rfl⟩ := cloneSchema_cases h
  simp [KeepsSchema, Table.find?_insert hi, hne]

theorem resetBuildingGeneration_cases {db db' : Database α} {c : Corpus} {g : Text}
    (h : db.resetBuildingGeneration c g = .ok db') :
    db' = db ∨ ∃ row ∈ db.registry, row.key = (c, g) ∧ row.state = .building ∧
      db' = { db.dropSchema (truncateIdentifier row.physicalSchema) with
        registry := db.registry.filter fun r => r.key ≠ (c, g) } := by
  unfold resetBuildingGeneration at h
  cases hf : db.registry.find? (c, g) with
  | none =>
    simp only [hf, Except.ok.injEq] at h
    exact Or.inl h.symm
  | some row =>
    obtain ⟨hr, hk⟩ := Table.find?_eq_some.mp hf
    by_cases hs : row.state = .building
    · simp only [hf, hs, if_true, Except.ok.injEq] at h
      exact Or.inr ⟨row, hr, hk, hs, h.symm⟩
    · simp [hf, hs] at h

theorem resetBuildingGeneration_keeps {db db' : Database α} {c : Corpus} {g identifier : Text}
    (hw : db.WellNamed) (h : db.resetBuildingGeneration c g = .ok db') (hne : identifier ≠ schemaIdentifier g) :
    KeepsSchema identifier db db' := by
  rcases resetBuildingGeneration_cases h with rfl | ⟨row, hr, hk, _, rfl⟩
  · exact KeepsSchema.refl _ _
  · have hg : row.generation = g := congrArg Prod.snd hk
    refine dropSchema_keeps ?_
    rw [hw row hr, hg]
    exact hne

end Database

/-- Creating or resetting the first generation never reaches the schema of
the second. -/
def Isolated (α : Type*) (c : Corpus) (m : UInt32) (d : Corpus) (n : UInt32) : Prop :=
  schemaIdentifier (generationName c.name m) ≠ schemaIdentifier (generationName d.name n) ∧
    ∀ db db' : Database α, db.WellNamed →
      ((∃ tables, db.cloneSchema tables c m = .ok db') ∨
        db.resetBuildingGeneration c (generationName c.name m) = .ok db') →
      Database.KeepsSchema (schemaIdentifier (generationName d.name n)) db db'

theorem isolated_of_identifier_ne {α : Type*} {c d : Corpus} {m n : UInt32}
    (h : schemaIdentifier (generationName c.name m) ≠ schemaIdentifier (generationName d.name n)) :
    Isolated α c m d n := by
  refine ⟨h, fun db db' hw hop => ?_⟩
  rcases hop with ⟨tables, hop⟩ | hop
  · exact Database.cloneSchema_keeps hop h.symm
  · exact Database.resetBuildingGeneration_keeps hw hop h.symm

/-- The generations of a corpus are isolated from all other generations, in
both directions, exactly when its name has at most 32 characters. -/
theorem generations_isolated_iff (α : Type*) (c : Corpus) :
    (∀ (d : Corpus) (m n : UInt32), (c, m) ≠ (d, n) → Isolated α c m d n ∧ Isolated α d n c m) ↔
      c.name.length ≤ 32 := by
  constructor
  · intro h
    by_contra hl
    by_cases h40 : 40 ≤ c.name.length
    · have hne : ((c, 1) : Corpus × UInt32) ≠ (c, 2) := by simp
      exact (h c 1 2 hne).1.1 (schemaIdentifier_counter_collision h40)
    · obtain ⟨d, m, hcd, heq⟩ := schemaIdentifier_corpus_collision c (by omega) (by omega)
      have hne : (c, m) ≠ (d, 1) := fun hp => hcd (congrArg (fun p => p.1.name) hp)
      exact (h d m 1 hne).1.1 (heq 1)
  · intro hl d m n hne
    have hnames : (c.name, m) ≠ (d.name, n) := by
      intro hp
      simp only [Prod.mk.injEq] at hp
      exact hne (by rw [Corpus.ext hp.1, hp.2])
    have hid := schemaIdentifier_ne hl hnames
    exact ⟨isolated_of_identifier_ne hid, isolated_of_identifier_ne hid.symm⟩

def wideCorpus : Corpus := ⟨List.replicate 40 'a', by decide⟩

def wideRow (counter : UInt32) (state : GenerationState) : GenerationRow :=
  ⟨wideCorpus, generationName wideCorpus.name counter, generationSchema wideCorpus.name counter, state,
    none, none, none⟩

/-- The second generation failed to create its schema, so only the first
generation's schema exists. -/
def wideDatabase : Database Nat where
  registry := ⟨[wideRow 1 .active, wideRow 2 .building], by decide⟩
  cursors := Table.empty
  schemas := ⟨[(schemaIdentifier (generationName wideCorpus.name 1), 7)], by decide⟩
  views := some []

theorem wide_generations_collide :
    (wideCorpus, (1 : UInt32)) ≠ (wideCorpus, 2) ∧
      schemaIdentifier (generationName wideCorpus.name 1) =
        schemaIdentifier (generationName wideCorpus.name 2) ∧
      (wideDatabase.resetBuildingGeneration wideCorpus (generationName wideCorpus.name 2)).toOption.map
        (fun db => db.schemas.rows) = some [] := by
  decide

end CorpusFeed
