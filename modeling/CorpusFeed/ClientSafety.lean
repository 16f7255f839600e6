import CorpusFeed.ClientRun

/-! The invariant of a client database under applies: the registry is safe and
every generation and schema is named by a package. Each phase of a media apply
keeps it, and all but the activation keep what readers see. -/

namespace CorpusFeed

open Database

variable {α : Type*}

structure LabelInvariant (packages : List EmbeddedManifest) (db : Database α) : Prop extends
    RegistryInvariant db where
  rows : ∀ row ∈ db.registry, ∃ p ∈ packages, createdLabelOf p = some row.generation
  schema_labels : ∀ schema ∈ db.schemas, ∃ p ∈ packages, ∃ g, createdLabelOf p = some g ∧
    schema.1 = schemaIdentifier g

/-- A label that a package creates shares the kept part of its schema name with
no other label. -/
def DistinctLabels (packages : List EmbeddedManifest) : Prop :=
  ∀ p ∈ packages, ∀ q ∈ packages, ∀ g ∈ createdLabelOf p, ∀ h ∈ namedLabels q, g.take 45 = h.take 45 → g = h

/-- Names of at most 32 characters leave every created label in its schema name. -/
theorem distinctLabels_of_shortNames {packages : List EmbeddedManifest}
    (hnames : ∀ p ∈ packages, p.identity.corpus.name.length ≤ 32) : DistinctLabels packages := by
  intro p hp q _ g hg h _ hcut
  obtain ⟨n, _, rfl⟩ := Option.map_eq_some_iff.mp hg
  exact eq_of_take_eq (generationName_length_lt (hnames p hp) n) hcut

/-- A media apply in flight: once it has registered its generation, the
building row stays its own. -/
structure RunningApply (db : Database α) (packages : List EmbeddedManifest) (m : MediaApply)
    (rest : List MediaPhase) : Prop where
  package : m.manifest ∈ packages
  kind : m.manifest.identity.packageKind = m.mode.expectedKind
  counter : generationCounterOf m.corpus.name m.label = some m.counter
  phases : rest <:+ mediaPhases
  owns : .register ∉ rest → ∃ row ∈ db.registry, row.key = (m.corpus, m.createdLabel) ∧ row.state = .building

theorem mediaPhases_suffix {rest : List MediaPhase} (h : rest <:+ mediaPhases) :
    rest ∈ [mediaPhases, [.register, .clone, .copy, .index, .validate, .activate],
      [.clone, .copy, .index, .validate, .activate], [.copy, .index, .validate, .activate],
      [.index, .validate, .activate], [.validate, .activate], [.activate], []] := by
  simpa [mediaPhases, List.suffix_cons_iff] using h

theorem register_mem_iff {phase : MediaPhase} {rest : List MediaPhase} (h : phase :: rest <:+ mediaPhases) :
    .register ∈ rest ↔ phase = .reset := by
  have ht := mediaPhases_suffix h
  simp only [mediaPhases, List.mem_cons, List.cons.injEq, reduceCtorEq, List.not_mem_nil, or_false] at ht
  rcases ht with ⟨rfl, rfl⟩ | ⟨rfl, rfl⟩ | ⟨rfl, rfl⟩ | ⟨rfl, rfl⟩ | ⟨rfl, rfl⟩ | ⟨rfl, rfl⟩ | ⟨rfl, rfl⟩ <;> decide

theorem RunningApply.owns_now {db : Database α} {packages : List EmbeddedManifest} {m : MediaApply}
    {phase : MediaPhase} {rest : List MediaPhase} (h : RunningApply db packages m (phase :: rest))
    (hreset : phase ≠ .reset) (hregister : phase ≠ .register) :
    ∃ row ∈ db.registry, row.key = (m.corpus, m.createdLabel) ∧ row.state = .building := by
  apply h.owns
  intro hm
  rcases List.mem_cons.mp hm with heq | hm
  · exact hregister heq.symm
  · exact hreset ((register_mem_iff h.phases).mp hm)

theorem RunningApply.created {db : Database α} {packages : List EmbeddedManifest} {m : MediaApply}
    {rest : List MediaPhase} (h : RunningApply db packages m rest) :
    createdLabelOf m.manifest = some m.createdLabel := by
  have hc := h.counter
  simp only [MediaApply.corpus, MediaApply.label] at hc
  rw [createdLabelOf, hc, Option.map_some]
  rfl

theorem mem_namedLabels_created {p : EmbeddedManifest} {g : Text} (h : createdLabelOf p = some g) :
    g ∈ namedLabels p := by
  simp [namedLabels, h]

theorem setRows_registryInvariant {db : Database α} (h : RegistryInvariant db) (identifier : Text) (rows : α) :
    RegistryInvariant (db.setRows identifier rows) := by
  refine h.withSchemas fun other hs => ?_
  rw [Table.find?_upsert]
  split
  · rfl
  · exact hs

theorem setRows_keeps {db : Database α} {identifier other : Text} (rows : α) (h : other ≠ identifier) :
    KeepsSchema other db (db.setRows identifier rows) :=
  (Table.find?_upsert _ _ _).trans (if_neg h)

namespace LabelInvariant

variable {packages : List EmbeddedManifest} {db db' : Database α} {m : MediaApply} {rest : List MediaPhase}

theorem empty (packages : List EmbeddedManifest) : LabelInvariant packages (Database.empty : Database α) :=
  ⟨RegistryInvariant.empty, by simp [Database.empty], by simp [Database.empty]⟩

/-- A label a package names is no live schema's unless it is an active label. -/
theorem live_ne (h : LabelInvariant packages db) (hlabels : DistinctLabels packages) {q : EmbeddedManifest}
    (hq : q ∈ packages) {g : Text} (hg : g ∈ namedLabels q)
    (hidle : ∀ row ∈ db.registry, row.state = .active → row.generation ≠ g) {entry : Corpus × Text}
    (he : entry ∈ db.activeGenerationSchemas) : entry.2 ≠ schemaIdentifier g := by
  intro heq
  obtain ⟨row, hr, _, hactive, hentry⟩ := h.active_of_mem he
  obtain ⟨p, hp, hlabel⟩ := h.rows row hr
  rw [hentry] at heq
  have hsame := hlabels p hp q hq row.generation hlabel g hg (schemaIdentifier_eq_iff.mp heq)
  exact hidle row hr hactive hsame

theorem building_idle (h : LabelInvariant packages db) {row other : GenerationRow} (hr : row ∈ db.registry)
    (hs : row.state = .building) (ho : other ∈ db.registry) (hactive : other.state = .active) :
    other.generation ≠ row.generation := by
  intro heq
  rw [h.eq_of_generation_eq ho hr heq, hs] at hactive
  cases hactive

theorem clear (h : LabelInvariant packages db) (hlabels : DistinctLabels packages) {q : EmbeddedManifest}
    (hq : q ∈ packages) {g : Text} (hg : g ∈ namedLabels q) :
    ∀ row ∈ db.registry, row.state = .active → row.generation.take 45 = g.take 45 → row.generation = g := by
  intro row hr _ hcut
  obtain ⟨p, hp, hlabel⟩ := h.rows row hr
  exact hlabels p hp q hq row.generation hlabel g hg hcut

theorem setRows (h : LabelInvariant packages db) {identifier : Text}
    (hexists : (db.schemas.find? identifier).isSome = true) (rows : α) :
    LabelInvariant packages (db.setRows identifier rows) := by
  refine ⟨setRows_registryInvariant h.toRegistryInvariant identifier rows, h.rows, fun schema hm => ?_⟩
  rcases Table.mem_upsert.mp hm with rfl | ⟨hm, _⟩
  · obtain ⟨old, hf⟩ := Option.isSome_iff_exists.mp hexists
    obtain ⟨hold, hk⟩ := Table.find?_eq_some.mp hf
    obtain ⟨p, hp, g, hg, hid⟩ := h.schema_labels old hold
    exact ⟨p, hp, g, hg, hk.symm.trans hid⟩
  · exact h.schema_labels schema hm

theorem load_keeps (h : LabelInvariant packages db) (hlabels : DistinctLabels packages)
    (hrun : RunningApply db packages m rest)
    (howns : ∃ row ∈ db.registry, row.key = (m.corpus, m.createdLabel) ∧ row.state = .building) (rows : α) :
    LiveSchemasKept db (db.setRows (schemaIdentifier m.createdLabel) rows) := by
  obtain ⟨row, hr, hk, hs⟩ := howns
  have hg : row.generation = m.createdLabel := (GenerationRow.key_eq_iff.mp hk).2
  have hnamed := mem_namedLabels_created hrun.created
  refine ⟨rfl, fun entry he => setRows_keeps rows (h.live_ne hlabels hrun.package hnamed ?_ he)⟩
  intro other ho hactive heq
  exact h.building_idle hr hs ho hactive (heq.trans hg.symm)

/-- An existing schema that a running apply names is the one it created. -/
theorem label_created (h : LabelInvariant packages db) (hlabels : DistinctLabels packages)
    (hrun : RunningApply db packages m rest)
    (hexists : (db.schemas.find? (schemaIdentifier m.label)).isSome = true) : m.label = m.createdLabel := by
  obtain ⟨schema, hf⟩ := Option.isSome_iff_exists.mp hexists
  obtain ⟨hm, hk⟩ := Table.find?_eq_some.mp hf
  obtain ⟨p, hp, g, hg, hid⟩ := h.schema_labels schema hm
  have hcut := schemaIdentifier_eq_iff.mp (hid.symm.trans hk)
  have hsame : g = m.label := hlabels p hp m.manifest hrun.package g hg m.label List.mem_cons_self hcut
  obtain ⟨n, _, hn⟩ := Option.map_eq_some_iff.mp hg
  have hcounter := hrun.counter
  rw [← hsame, ← hn] at hcounter
  obtain ⟨hc, hm'⟩ := generationCounterOf_inj hcounter
  rw [← hsame, ← hn, MediaApply.createdLabel, hc, hm']

end LabelInvariant

/-- What a phase leaves to the other parties: readers see the same rows, and
the building rows of other corpora stay. -/
structure PhaseKeeps (packages : List EmbeddedManifest) (db db' : Database α) (m : MediaApply)
    (rest : List MediaPhase) : Prop where
  labels : LabelInvariant packages db'
  live : LiveSchemasKept db db'
  others : ∀ row ∈ db.registry, row.corpus ≠ m.corpus → row ∈ db'.registry
  owns : .register ∉ rest → ∃ row ∈ db'.registry, row.key = (m.corpus, m.createdLabel) ∧ row.state = .building

namespace LabelInvariant

variable {packages : List EmbeddedManifest} {db db' : Database α} {m : MediaApply} {rest : List MediaPhase}

theorem reset_keeps (h : LabelInvariant packages db) (hlabels : DistinctLabels packages)
    (hrun : RunningApply db packages m (.reset :: rest))
    (hop : db.resetBuildingGeneration m.corpus m.label = .ok db') : PhaseKeeps packages db db' m rest := by
  have hvacuous : MediaPhase.register ∈ rest := (register_mem_iff hrun.phases).mpr rfl
  rcases resetBuildingGeneration_cases hop with rfl | ⟨row, hr, hk, hs, rfl⟩
  · exact ⟨h, LiveSchemasKept.refl _, fun row hr _ => hr, fun hno => absurd hvacuous hno⟩
  · have hclear := h.clear hlabels hrun.package (List.mem_cons_self : m.label ∈ namedLabels m.manifest)
    obtain ⟨hinv, hlive⟩ := h.toRegistryInvariant.drop hr hk (by simp [hs]) hclear
    refine ⟨⟨hinv, fun r hr' => h.rows r (Table.mem_filter.mp hr').1,
      fun schema hm => h.schema_labels schema (Table.mem_filter.mp hm).1⟩, hlive, ?_, fun hno => absurd hvacuous hno⟩
    intro r hr' hne
    refine Table.mem_filter.mpr ⟨hr', ?_⟩
    simpa using fun heq => hne (GenerationRow.key_eq_iff.mp heq).1

theorem register_keeps {b : Option Text} (h : LabelInvariant packages db)
    (hrun : RunningApply db packages m (.register :: rest))
    (hop : db.registerGeneration m.corpus m.counter b = .ok db') : PhaseKeeps packages db db' m rest := by
  obtain ⟨hinv, hlive⟩ := h.toRegistryInvariant.register hop
  obtain ⟨registry, hi, rfl⟩ := registerGeneration_cases hop
  refine ⟨⟨hinv, fun row hr => ?_, h.schema_labels⟩, hlive, ?_, ?_⟩
  · rcases (Table.mem_insert hi).mp hr with rfl | hr
    · exact ⟨m.manifest, hrun.package, hrun.created⟩
    · exact h.rows row hr
  · exact fun row hr _ => (Table.mem_insert hi).mpr (Or.inr hr)
  · exact fun _ => ⟨_, (Table.mem_insert hi).mpr (Or.inl rfl), rfl, rfl⟩

theorem clone_keeps {tables : α} (h : LabelInvariant packages db)
    (hrun : RunningApply db packages m (.clone :: rest))
    (hop : db.cloneSchema tables m.corpus m.counter = .ok db') : PhaseKeeps packages db db' m rest := by
  have howns := hrun.owns_now (by decide) (by decide)
  obtain ⟨hinv, hlive⟩ := h.toRegistryInvariant.clone hop
  obtain ⟨schemas, hi, rfl⟩ := cloneSchema_cases hop
  refine ⟨⟨hinv, h.rows, fun schema hm => ?_⟩, hlive, fun row hr _ => hr, fun _ => howns⟩
  rcases (Table.mem_insert hi).mp hm with rfl | hm
  · exact ⟨m.manifest, hrun.package, m.createdLabel, hrun.created, rfl⟩
  · exact h.schema_labels schema hm

theorem load_phase_keeps {identifier : Text} {f : α → Option α} {phase : MediaPhase}
    (h : LabelInvariant packages db) (hlabels : DistinctLabels packages)
    (hrun : RunningApply db packages m (phase :: rest)) (hreset : phase ≠ .reset) (hregister : phase ≠ .register)
    (hid : (db.schemas.find? identifier).isSome = true → identifier = schemaIdentifier m.createdLabel)
    (hop : db.mapSchema identifier f = .ok db') : PhaseKeeps packages db db' m rest := by
  have howns := hrun.owns_now hreset hregister
  obtain ⟨rows, hexists, rfl⟩ := mapSchema_cases hop
  have hlive := h.load_keeps hlabels hrun howns rows
  rw [← hid hexists] at hlive
  exact ⟨h.setRows hexists rows, hlive, fun row hr _ => hr, fun _ => howns⟩

theorem validate_cases {env : ClientEnv α} {lockFree : Bool}
    (hop : mediaStep env lockFree m db .validate = .ok db') : db' = db := by
  unfold mediaStep at hop
  dsimp only at hop
  split at hop
  · cases hop
  split at hop
  · cases hop
    rfl
  · cases hop

theorem mediaStep_keeps {env : ClientEnv α} {lockFree : Bool} {phase : MediaPhase}
    (h : LabelInvariant packages db) (hlabels : DistinctLabels packages)
    (hrun : RunningApply db packages m (phase :: rest)) (hphase : phase ≠ .activate)
    (hop : mediaStep env lockFree m db phase = .ok db') : PhaseKeeps packages db db' m rest := by
  cases phase with
  | reset => exact h.reset_keeps hlabels hrun (liftStorage_ok hop)
  | register => exact h.register_keeps hrun (liftStorage_ok hop)
  | clone => exact h.clone_keeps hrun (liftStorage_ok hop)
  | copy => exact h.load_phase_keeps hlabels hrun (by decide) (by decide) (fun _ => rfl) hop
  | index =>
    refine h.load_phase_keeps hlabels hrun (by decide) (by decide) (fun hexists => ?_) hop
    rw [h.label_created hlabels hrun hexists]
  | validate =>
    have heq := validate_cases hop
    subst heq
    exact ⟨h, LiveSchemasKept.refl _, fun row hr _ => hr, fun _ => hrun.owns_now (by decide) (by decide)⟩
  | activate => exact absurd rfl hphase

theorem activate_keeps {ready : Database α → Text → Bool} {lockFree : Bool} {c : Corpus} {g : Text}
    {stamps : ActivationStamps} {guard : CursorGuard} (h : LabelInvariant packages db)
    (hop : db.activateGeneration ready lockFree c g stamps guard = .ok db') :
    LabelInvariant packages db' ∧ ∀ row ∈ db.registry, row.corpus ≠ c → row ∈ db'.registry := by
  have hinv := h.toRegistryInvariant.activate hop
  obtain ⟨_, _, _, _, _, hv⟩ := activateGeneration_cases hop
  obtain ⟨_, rfl⟩ := rebuildServerViews_cases hv
  refine ⟨⟨hinv, fun row hr => ?_, h.schema_labels⟩, fun row hr hne => ?_⟩
  · rcases mem_switchGeneration.mp hr with ⟨r, hold, _, rfl⟩ | ⟨r, hold, _, _, _, rfl⟩ | ⟨hold, _, _⟩
    · exact h.rows r hold
    · exact h.rows r hold
    · exact h.rows row hold
  · refine mem_switchGeneration.mpr (Or.inr (Or.inr ⟨hr, ?_, fun hca => hne hca.1⟩))
    exact fun heq => hne (GenerationRow.key_eq_iff.mp heq).1

theorem mem_advanceCorpusCursor {manifest : EmbeddedManifest} {cursor : CorpusState} :
    cursor ∈ (db.advanceCorpusCursor manifest).cursors ↔
      (∃ old ∈ db.cursors, old.corpus = manifest.identity.corpus ∧
        advanceCursor manifest.apply.resultSequence manifest.identity.packageId
          manifest.integrity.artifactSha256 old = cursor) ∨
      cursor ∈ db.cursors ∧ cursor.corpus ≠ manifest.identity.corpus := by
  simp only [advanceCorpusCursor, Table.mem_update, decide_eq_true_eq, decide_eq_false_iff_not, ne_eq]

theorem advance_keeps (h : LabelInvariant packages db) (manifest : EmbeddedManifest) :
    LabelInvariant packages (db.advanceCorpusCursor manifest) := by
  have hschemas : (db.advanceCorpusCursor manifest).activeGenerationSchemas = db.activeGenerationSchemas := by
    simp only [activeGenerationSchemas, advanceCorpusCursor, Table.update, List.map_map]
    refine List.map_congr_left fun cursor _ => ?_
    simp only [Function.comp]
    split <;> rfl
  have hcursors : ∀ c g, (∃ cursor ∈ (db.advanceCorpusCursor manifest).cursors,
      cursor.corpus = c ∧ cursor.activeGeneration = g) ↔
      ∃ cursor ∈ db.cursors, cursor.corpus = c ∧ cursor.activeGeneration = g := by
    intro c g
    constructor
    · rintro ⟨cursor, hm, hc, hg⟩
      rcases mem_advanceCorpusCursor.mp hm with ⟨old, hold, _, rfl⟩ | ⟨hold, _⟩
      · exact ⟨old, hold, hc, hg⟩
      · exact ⟨cursor, hold, hc, hg⟩
    · rintro ⟨cursor, hm, hc, hg⟩
      by_cases hp : cursor.corpus = manifest.identity.corpus
      · exact ⟨_, mem_advanceCorpusCursor.mpr (Or.inl ⟨cursor, hm, hp, rfl⟩), hc, hg⟩
      · exact ⟨cursor, mem_advanceCorpusCursor.mpr (Or.inr ⟨hm, hp⟩), hc, hg⟩
  obtain ⟨entries, hv, he, hl⟩ := h.views_live
  refine ⟨⟨⟨h.one_active, fun c g => (hcursors c g).trans (h.cursor_iff c g), entries, hv, ?_, hl⟩, h.named⟩,
    h.rows, h.schema_labels⟩
  rw [hschemas]
  exact he

end LabelInvariant

end CorpusFeed
