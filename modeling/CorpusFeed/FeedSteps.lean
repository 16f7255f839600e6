import CorpusFeed.FeedManifest

/-! What each step of a producer run keeps of the feed invariant, in every state
it can stop in, and what holds when it returns. -/

namespace CorpusFeed

open Script

/-- The row with its status set aside. -/
def CatalogRow.asPublished (row : CatalogRow) : CatalogRow := { row with status := .published }

/-- What publishing does not change of a catalog. -/
def Catalog.records (c : Catalog) : List CatalogRow := c.rows.map CatalogRow.asPublished

theorem Catalog.records_length (c : Catalog) : c.records.length = c.rows.length := List.length_map _

theorem Catalog.records_getLast? (c : Catalog) :
    c.records.getLast? = c.latestPackage.map CatalogRow.asPublished := List.getLast?_map

theorem asPublished_setPublished (packageId : Text) (row : CatalogRow) :
    (Catalog.setPublished packageId row).asPublished = row.asPublished := by
  unfold Catalog.setPublished
  split <;> rfl

theorem Catalog.records_mark {c c' : Catalog} {packageId : Text}
    (h : c'.rows = c.rows.map (Catalog.setPublished packageId)) : c'.records = c.records := by
  rw [Catalog.records, h, List.map_map]
  exact List.map_congr_left fun r _ => asPublished_setPublished packageId r

theorem asPublished_of_status {row : CatalogRow} (h : row.status = .published) : row.asPublished = row := by
  cases row
  cases h
  rfl

/-- A settled feed with the given catalog. -/
structure SettledOn (env : ProducerEnv) (corpus : Corpus) (base : ServedRoot) (dropped : Option Text)
    (records : List CatalogRow) (s : FeedState) : Prop extends Settled env corpus base dropped s where
  same : s.catalog.records = records

/-- The row waits in the staging slot with its artifact. -/
structure Ready (env : ProducerEnv) (corpus : Corpus) (base : ServedRoot) (dropped : Option Text)
    (records : List CatalogRow) (row : CatalogRow) (s : FeedState) : Prop extends
    FeedInvariant env corpus base dropped s where
  same : s.catalog.records = records
  member : row ∈ s.catalog
  holds : StagedFor env s row

section Steps

variable {env : ProducerEnv} {corpus : Corpus} {base : ServedRoot} {dropped : Option Text}
  {records : List CatalogRow} {row : CatalogRow} {s : FeedState} {E : BuildError → FeedState → Prop}

theorem Settled.records_eq (h : Settled env corpus base dropped s) : s.catalog.records = s.catalog.rows :=
  (List.map_congr_left fun r hr => asPublished_of_status (h.published r hr)).trans (List.map_id' _)

theorem Settled.served (h : Settled env corpus base dropped s) : ∀ row ∈ s.catalog, ServedRow env s.root row := by
  intro row hr
  rcases h.rows row hr with ⟨_, hserved⟩ | ⟨hbuilt, _⟩
  · exact hserved
  · rw [h.published row hr] at hbuilt
    cases hbuilt

/-- The slot of a settled feed may hold anything that fits its id. -/
theorem Settled.setPending (h : Settled env corpus base dropped s) {dir : Option ArtifactDir}
    (hfits : ∀ d signed, dir = some d → d.manifest = .whole signed → ∀ row ∈ s.catalog,
      row.packageId = signed.payload.identity.packageId → MatchesRow env row signed) :
    Settled env corpus base dropped (s.setSlot .pending dir) where
  kept := h.kept
  nonempty := h.nonempty
  numbered := h.numbered
  rows row hr := Or.inl ⟨h.published row hr, h.served row hr⟩
  catalogued := h.catalogued
  staged := hfits
  remote m hm := ⟨(h.remote m hm).baseline, (h.remote m hm).packages⟩
  published := h.published

theorem Settled.setPending_absent (h : Settled env corpus base dropped s) {dir : Option ArtifactDir}
    (hno : ∀ d signed, dir = some d → d.manifest ≠ .whole signed) :
    Settled env corpus base dropped (s.setSlot .pending dir) :=
  h.setPending fun d signed hd hwhole => absurd hwhole (hno d signed hd)

theorem SettledOn.setPending_absent (h : SettledOn env corpus base dropped records s) {dir : Option ArtifactDir}
    (hno : ∀ d signed, dir = some d → d.manifest ≠ .whole signed) :
    SettledOn env corpus base dropped records (s.setSlot .pending dir) :=
  ⟨h.toSettled.setPending_absent hno, h.same⟩

theorem SettledOn.clear (h : SettledOn env corpus base dropped records s) :
    SettledOn env corpus base dropped records (s.setSlot .pending none) :=
  h.setPending_absent fun _ _ hd => by cases hd

theorem remains_manifest {dir left : ArtifactDir} (h : left ∈ FeedScript.remains dir) :
    left.manifest = dir.manifest ∨ left.manifest = .absent := by
  obtain ⟨files, _, hleft⟩ := List.mem_flatMap.mp h
  rcases List.mem_pair.mp hleft with rfl | rfl
  · exact Or.inl rfl
  · exact Or.inr rfl

theorem cleanSlot_settled :
    Triple (SettledOn env corpus base dropped records) (FeedScript.cleanSlot .pending)
      (fun _ s => SettledOn env corpus base dropped records s ∧ s.root.pending = none) E
      (Settled env corpus base dropped) := by
  refine Triple.andThen (Q := fun _ => SettledOn env corpus base dropped records) ?_ fun _ => ?_
  · refine Triple.mayLeave (fun s hs => hs.toSettled) (fun s hs t ht => ?_) fun s hs => hs
    cases hpending : s.root.pending with
    | none => simp [FeedState.slot, hpending] at ht
    | some dir =>
      simp only [FeedState.slot, hpending, List.mem_map] at ht
      obtain ⟨left, hleft, rfl⟩ := ht
      refine hs.toSettled.setPending fun d signed hd hwhole => ?_
      cases hd
      rcases remains_manifest hleft with hsame | habsent
      · exact hs.staged dir signed hpending (hsame ▸ hwhole)
      · rw [habsent] at hwhole
        cases hwhole
  · exact Triple.write (fun s hs => hs.clear.toSettled) fun s hs => ⟨hs.clear, rfl⟩

theorem createSlot_settled :
    Triple (SettledOn env corpus base dropped records) (FeedScript.createSlot .pending)
      (fun _ => SettledOn env corpus base dropped records) E (Settled env corpus base dropped) := by
  have hcreate : ∀ s, SettledOn env corpus base dropped records s →
      SettledOn env corpus base dropped records (s.setSlot .pending (some ⟨.absent, []⟩)) := fun s hs =>
    hs.setPending_absent fun _ _ hd => by
      cases hd
      simp
  exact Triple.write (fun s hs => (hcreate s hs).toSettled) hcreate

/-- No row has the id of the staged artifact. -/
def Uncatalogued (records : List CatalogRow) (packageId : Text) : Prop := ∀ row ∈ records, row.packageId ≠ packageId

theorem SettledOn.stage (h : SettledOn env corpus base dropped records s) {signed : Signed EmbeddedManifest}
    (hfresh : Uncatalogued records signed.payload.identity.packageId) (files : List (Text × Text)) :
    SettledOn env corpus base dropped records (s.setSlot .pending (some ⟨.whole signed, files⟩)) := by
  refine ⟨h.toSettled.setPending fun d signed' hd hwhole r hr hid => ?_, h.same⟩
  cases hd
  cases hwhole
  have hmem : r.asPublished ∈ records := h.same ▸ List.mem_map_of_mem hr
  exact absurd hid (hfresh r.asPublished hmem)

theorem stageArtifact_settled {signed : Signed EmbeddedManifest} {files : List (Text × Text)}
    (hfresh : Uncatalogued records signed.payload.identity.packageId) :
    Triple (SettledOn env corpus base dropped records) (FeedScript.stageArtifact .pending files signed)
      (fun _ s => SettledOn env corpus base dropped records s ∧ s.root.pending = some ⟨.whole signed, files⟩) E
      (Settled env corpus base dropped) := by
  have hpart : ∀ s (manifest : ManifestFile) part, (∀ signed, manifest ≠ .whole signed) →
      SettledOn env corpus base dropped records s →
      SettledOn env corpus base dropped records (s.setSlot .pending (some ⟨manifest, part⟩)) :=
    fun s manifest part hno hs => hs.setPending_absent fun d signed hd => by
      cases hd
      exact hno signed
  refine Triple.andThen (Q := fun _ => SettledOn env corpus base dropped records) ?_ fun _ => ?_
  · refine Triple.mayLeave (fun s hs => hs.toSettled) (fun s hs t ht => ?_) fun s hs => hs
    obtain ⟨part, _, rfl⟩ := List.mem_map.mp ht
    exact (hpart s .absent part (by simp) hs).toSettled
  refine Triple.andThen (Q := fun _ => SettledOn env corpus base dropped records) ?_ fun _ => ?_
  · exact Triple.write (fun s hs => (hpart s .absent files (by simp) hs).toSettled) fun s hs =>
      hpart s .absent files (by simp) hs
  refine Triple.andThen (Q := fun _ => SettledOn env corpus base dropped records) ?_ fun _ => ?_
  · refine Triple.mayLeave (fun s hs => hs.toSettled) (fun s hs t ht => ?_) fun s hs => hs
    rw [List.mem_singleton.mp ht]
    exact (hpart s .torn files (by simp) hs).toSettled
  · exact Triple.write (fun s hs => (hs.stage hfresh files).toSettled) fun s hs => ⟨hs.stage hfresh files, rfl⟩

/-- The row that follows `n` rows. -/
structure NextRow (corpus : Corpus) (n : Nat) (row : CatalogRow) : Prop where
  id : row.packageId = packageIdOf corpus (max n 1) (n + 1)
  sequence : row.packageSequence = saturateI64 (n + 1)
  not_first : row.packageKind ≠ .baseline
  counter : (generationCounterOf corpus.name row.generation).isSome = true
  built : row.status = .built

theorem ServedRow.mono {root root' : ServedRoot} (hkeep : ∀ packageId dir,
    root.publishedPackageDir packageId = some dir → root'.publishedPackageDir packageId = some dir)
    (h : ServedRow env root row) : ServedRow env root' row := by
  obtain ⟨dir, signed, hdir, hwhole, hmatch⟩ := h
  exact ⟨dir, signed, hkeep _ dir hdir, hwhole, hmatch⟩

theorem Settled.append (h : Settled env corpus base dropped s) {catalog : Catalog} {dir : ArtifactDir}
    {signed : Signed EmbeddedManifest} (hrows : catalog.rows = s.catalog.rows ++ [row])
    (hnext : NextRow corpus s.catalog.rows.length row) (hroom : s.catalog.rows.length + 1 < 2 ^ 63)
    (hpending : s.root.pending = some dir) (hwhole : dir.manifest = .whole signed)
    (hid : signed.payload.identity.packageId = row.packageId) (hmatch : MatchesRow env row signed) :
    FeedInvariant env corpus base dropped { s with catalog := catalog } ∧ row ∈ catalog ∧
      StagedFor env { s with catalog := catalog } row := by
  have hmem : ∀ r, r ∈ catalog ↔ r ∈ s.catalog ∨ r = row := by
    intro r
    rw [← Catalog.mem_rows, hrows, List.mem_append, List.mem_singleton]
    rfl
  have hold : ∀ r ∈ s.catalog, r ∈ catalog := fun r hr => (hmem r).mpr (Or.inl hr)
  have hstagedFor : StagedFor env { s with catalog := catalog } row := ⟨dir, signed, hpending, hwhole, hid, hmatch⟩
  refine ⟨?_, (hmem row).mpr (Or.inr rfl), hstagedFor⟩
  constructor
  · exact h.kept
  · rw [hrows]
    simp
  · rw [hrows]
    refine h.numbered.concat ⟨?_, ?_, ?_, hnext.counter, trivial⟩
    · rw [hnext.sequence, saturateI64]
      omega
    · have hpos : 0 + s.catalog.rows.length ≠ 0 := by
        rw [Nat.zero_add]
        exact fun hzero => h.nonempty (List.length_eq_zero_iff.mp hzero)
      exact iff_of_false hnext.not_first hpos
    · rw [Nat.zero_add]
      exact hnext.id
  · intro r hr
    rcases (hmem r).mp hr with hr | rfl
    · exact Or.inl ⟨h.published r hr, h.served r hr⟩
    · refine Or.inr ⟨hnext.built, ?_, hstagedFor⟩
      simp [Catalog.latestPackage, hrows]
  · intro packageId dir hdir
    rcases h.catalogued packageId dir hdir with hdropped | ⟨r, hr, hrow⟩
    · exact Or.inl hdropped
    · exact Or.inr ⟨r, hold r hr, hrow⟩
  · intro d signed' hd hwhole' r hr hid'
    rcases (hmem r).mp hr with hr | rfl
    · exact h.staged d signed' hd hwhole' r hr hid'
    · rw [hpending, Option.some.injEq] at hd
      subst hd
      rw [hwhole] at hwhole'
      cases hwhole'
      exact hmatch
  · intro m hm
    obtain ⟨⟨params, r, hr, hactive⟩, hpackages⟩ := h.remote m hm
    refine ⟨⟨params, r, hold r hr, hactive⟩, fun e he => ?_⟩
    obtain ⟨params, r, hr, hentry⟩ := hpackages e he
    exact ⟨params, r, hold r hr, hentry⟩

/-- Inserting the next row can only fail when its sequence no longer fits. -/
theorem insertRow_ready {signed : Signed EmbeddedManifest} {files : List (Text × Text)}
    (hnext : NextRow corpus records.length row) (hid : signed.payload.identity.packageId = row.packageId)
    (hmatch : records.length + 1 < 2 ^ 63 → MatchesRow env row signed)
    (hE : 2 ^ 63 ≤ records.length + 1 → ∀ e s, SettledOn env corpus base dropped records s → E e s) :
    Triple (fun s => SettledOn env corpus base dropped records s ∧ s.root.pending = some ⟨.whole signed, files⟩)
      (FeedScript.insertRow row)
      (fun _ s => records.length + 1 < 2 ^ 63 ∧ Ready env corpus base dropped (records ++ [row.asPublished]) row s) E
      (FeedInvariant env corpus base dropped) := by
  have hlength : ∀ s, SettledOn env corpus base dropped records s → records.length = s.catalog.rows.length :=
    fun s hs => by rw [← hs.same, Catalog.records_length]
  refine Triple.tryWrite (fun s hs => hs.1.toFeedInvariant) (fun s hs t ht => ?_) fun s hs e he => ?_
  · obtain ⟨hs, hpending⟩ := hs
    have hlen := hlength s hs
    rw [hlen] at hnext hmatch
    rcases Catalog.insert_next hs.numbered hnext.id hnext.sequence with ⟨hfull, _⟩ | ⟨hroom, c', hc, hrows⟩
    · rw [hfull] at ht
      cases ht
    · rw [hc] at ht
      cases ht
      obtain ⟨hinv, hmem, hstagedFor⟩ := hs.toSettled.append hrows hnext hroom hpending rfl hid (hmatch hroom)
      refine ⟨hinv, hlen ▸ hroom, hinv, ?_, hmem, hstagedFor⟩
      rw [Catalog.records, hrows, List.map_append, ← hs.same]
      rfl
  · obtain ⟨hs, _⟩ := hs
    have hlen := hlength s hs
    rw [hlen] at hnext hE
    rcases Catalog.insert_next hs.numbered hnext.id hnext.sequence with ⟨_, hfull⟩ | ⟨_, c', hc, _⟩
    · exact hE hfull e s hs
    · rw [hc] at he
      cases he

end Steps

end CorpusFeed
