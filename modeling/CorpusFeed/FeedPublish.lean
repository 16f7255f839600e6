import CorpusFeed.FeedSteps

/-! Publishing keeps the feed invariant: a staged package becomes served, then
recorded as published, and the remote manifest is rewritten over served rows. -/

namespace CorpusFeed

open Script

section Publish

variable {env : ProducerEnv} {corpus : Corpus} {base : ServedRoot} {dropped : Option Text}
  {records : List CatalogRow} {row : CatalogRow} {s : FeedState} {E : BuildError → FeedState → Prop}

/-- The staged artifact of the row is served under an id that was free. -/
theorem Ready.serve (h : Ready env corpus base dropped records row s) {dir : ArtifactDir}
    (hpending : s.root.pending = some dir) (hfree : s.root.publishedPackageDir row.packageId = none) :
    Ready env corpus base dropped records row
      { s with root := { s.root with packages := s.root.packages.upsert (row.packageId, dir) } } ∧
    ServedRow env { s.root with packages := s.root.packages.upsert (row.packageId, dir) } row := by
  obtain ⟨dir', signed, hdir', hwhole, hid, hmatch⟩ := h.holds
  rw [hpending, Option.some.injEq] at hdir'
  subst hdir'
  have hkeep : ∀ packageId d, s.root.publishedPackageDir packageId = some d →
      ServedRoot.publishedPackageDir { s.root with packages := s.root.packages.upsert (row.packageId, dir) }
        packageId = some d := by
    intro packageId d hd
    rw [publishedPackageDir_upsert]
    by_cases heq : packageId = row.packageId
    · rw [heq, hfree] at hd
      cases hd
    · rw [if_neg heq]
      exact hd
  have hnow : ServedRoot.publishedPackageDir
      { s.root with packages := s.root.packages.upsert (row.packageId, dir) } row.packageId = some dir := by
    rw [publishedPackageDir_upsert, if_pos rfl]
  have hserved : ServedRow env { s.root with packages := s.root.packages.upsert (row.packageId, dir) } row :=
    ⟨dir, signed, hnow, hwhole, hmatch⟩
  refine ⟨⟨⟨?_, h.nonempty, h.numbered, ?_, ?_, h.staged, ?_⟩, h.same, h.member, h.holds⟩, hserved⟩
  · exact fun packageId d hd => hkeep packageId d (h.kept packageId d hd)
  · intro r hr
    rcases h.rows r hr with ⟨hpublished, hrow⟩ | hwaits
    · exact Or.inl ⟨hpublished, hrow.mono hkeep⟩
    · exact Or.inr hwaits
  · intro packageId d hd
    rw [publishedPackageDir_upsert] at hd
    by_cases heq : packageId = row.packageId
    · exact Or.inr ⟨row, h.member, heq.symm, hserved⟩
    · rw [if_neg heq] at hd
      rcases h.catalogued packageId d hd with hdropped | ⟨r, hr, hrid, hrow⟩
      · exact Or.inl hdropped
      · exact Or.inr ⟨r, hr, hrid, hrow.mono hkeep⟩
  · intro m hm
    obtain ⟨⟨params, r, hr, hpublished, hrow, hactive⟩, hpackages⟩ := h.remote m hm
    refine ⟨⟨params, r, hr, hpublished, hrow.mono hkeep, hactive⟩, fun e he => ?_⟩
    obtain ⟨params, r, hr, hpublished, hrow, hentry⟩ := hpackages e he
    exact ⟨params, r, hr, hpublished, hrow.mono hkeep, hentry⟩

/-- A directory that is already served under the id is the row's own. -/
theorem Ready.served_before (h : Ready env corpus base dropped records row s)
    (hdrop : dropped = some row.packageId → ServedRow env base row) {dest : ArtifactDir}
    (hdest : s.root.publishedPackageDir row.packageId = some dest) : ServedRow env s.root row := by
  rcases h.catalogued row.packageId dest hdest with hdropped | ⟨r, hr, hid, hserved⟩
  · exact (hdrop hdropped).mono h.kept
  · have heq : r = row := Catalog.eq_of_packageId_eq hr h.member hid
    exact heq ▸ hserved

theorem MatchesRow.digest {signed : Signed EmbeddedManifest} (h : MatchesRow env row signed) :
    row.packageDigest = some signed.payload.integrity.artifactSha256 := by
  have hverified := h.verified
  simp only [verifyCatalogIdentity, rejectIf_ok] at hverified
  exact not_not.mp hverified.1

theorem publishSlot_ready (hdrop : dropped = some row.packageId → ServedRow env base row) :
    Triple (Ready env corpus base dropped records row) (FeedScript.publishSlot .pending row.packageId)
      (fun _ s => Ready env corpus base dropped records row s ∧ ServedRow env s.root row) E
      (FeedInvariant env corpus base dropped) := by
  refine Triple.tryWrite (fun s hs => hs.toFeedInvariant) (fun s hs t ht => ?_) fun s hs e he => ?_
  all_goals obtain ⟨dir, signed, hpending, hwhole, hid, hmatch⟩ := hs.holds
  · simp only [FeedState.slot, hpending] at ht
    split at ht
    · cases ht
    next root hroot =>
    cases ht
    rcases publishPackage_cases hroot with ⟨hfree, rfl⟩ | ⟨rfl, dest, _, _, hdest, _⟩
    · obtain ⟨hready, hserved⟩ := hs.serve hpending hfree
      exact ⟨hready.toFeedInvariant, hready, hserved⟩
    · exact ⟨hs.toFeedInvariant, hs, hs.served_before hdrop hdest⟩
  · simp only [FeedState.slot, hpending] at he
    have hok : ∃ root, publishPackage s.root row.packageId dir = .ok root := by
      unfold publishPackage
      cases hdest : s.root.publishedPackageDir row.packageId with
      | none => exact ⟨_, rfl⟩
      | some dest =>
        obtain ⟨dest', existing, hdest', hexisting, hmatch'⟩ := hs.served_before hdrop hdest
        rw [hdest, Option.some.injEq] at hdest'
        subst hdest'
        have hsame := hmatch'.digest.symm.trans hmatch.digest
        rw [Option.some.injEq] at hsame
        refine ⟨s.root, ?_⟩
        simp [artifactSha256, readEmbedded, hexisting, hwhole, hsame]
    obtain ⟨root, hroot⟩ := hok
    rw [hroot] at he
    cases he

theorem Ready.mark (h : Ready env corpus base dropped records row s) (hserved : ServedRow env s.root row)
    {catalog : Catalog} (hrows : catalog.rows = s.catalog.rows.map (Catalog.setPublished row.packageId)) :
    SettledOn env corpus base dropped records { s with catalog := catalog } := by
  obtain ⟨dir, signed, hpending, hwhole, hid, _⟩ := h.holds
  have hfrom : ∀ r ∈ catalog, ∃ old ∈ s.catalog, r = Catalog.setPublished row.packageId old := by
    intro r hr
    rw [← Catalog.mem_rows, hrows] at hr
    obtain ⟨old, hold, rfl⟩ := List.mem_map.mp hr
    exact ⟨old, hold, rfl⟩
  have hto : ∀ old ∈ s.catalog, Catalog.setPublished row.packageId old ∈ catalog := by
    intro old hold
    rw [← Catalog.mem_rows, hrows]
    exact List.mem_map_of_mem hold
  have hid' : ∀ old, (Catalog.setPublished row.packageId old).packageId = old.packageId := fun old =>
    (Catalog.setPublished_fields row.packageId old).2.2.1
  have hdone : ∀ r ∈ catalog, r.status = .published ∧ ServedRow env s.root r := by
    intro r hr
    obtain ⟨old, hold, rfl⟩ := hfrom r hr
    by_cases heq : old.packageId = row.packageId
    · have hold' : old = row := Catalog.eq_of_packageId_eq hold h.member heq
      subst hold'
      exact ⟨by simp [Catalog.setPublished], hserved.setPublished _⟩
    · rcases h.rows old hold with ⟨hpublished, hrow⟩ | ⟨_, _, dir', signed', hpending', hwhole', hother, _⟩
      · exact ⟨by simp [Catalog.setPublished, heq, hpublished], hrow.setPublished _⟩
      · rw [hpending, Option.some.injEq] at hpending'
        subst hpending'
        rw [hwhole] at hwhole'
        cases hwhole'
        exact absurd (hother.symm.trans hid) heq
  refine ⟨⟨⟨h.kept, ?_, ?_, fun r hr => Or.inl (hdone r hr), ?_, ?_, ?_⟩, fun r hr => (hdone r hr).1⟩, ?_⟩
  · rw [hrows]
    exact fun hnil => h.nonempty (List.map_eq_nil_iff.mp hnil)
  · rw [hrows]
    exact h.numbered.map fun r => Catalog.setPublished_fields row.packageId r
  · intro packageId d hd
    rcases h.catalogued packageId d hd with hdropped | ⟨old, hold, hrid, hrow⟩
    · exact Or.inl hdropped
    · exact Or.inr ⟨_, hto old hold, (hid' old).trans hrid, hrow.setPublished _⟩
  · intro d signed' hd hwhole' r hr hrid
    obtain ⟨old, hold, rfl⟩ := hfrom r hr
    exact (h.staged d signed' hd hwhole' old hold ((hid' old).symm.trans hrid)).setPublished _
  · intro m hm
    obtain ⟨⟨params, old, hold, _, hrow, hactive⟩, hpackages⟩ := h.remote m hm
    refine ⟨⟨params, _, hto old hold, (hdone _ (hto old hold)).1, hrow.setPublished _, ?_⟩, fun e he => ?_⟩
    · rw [hid']
      exact hactive
    · obtain ⟨params, old, hold, _, hrow, hentry⟩ := hpackages e he
      refine ⟨params, _, hto old hold, (hdone _ (hto old hold)).1, hrow.setPublished _, ?_⟩
      rw [hid']
      exact hentry
  · exact (Catalog.records_mark hrows).trans h.same

theorem markPublished_ready :
    Triple (fun s => Ready env corpus base dropped records row s ∧ ServedRow env s.root row)
      (FeedScript.markPublished corpus row.packageId)
      (fun _ => SettledOn env corpus base dropped records) E (FeedInvariant env corpus base dropped) := by
  refine Triple.tryWrite (fun s hs => hs.1.toFeedInvariant) (fun s hs t ht => ?_) fun s hs e he => ?_
  all_goals obtain ⟨hready, hserved⟩ := hs
  · split at ht
    · cases ht
    next catalog hmark =>
    cases ht
    have hsettled := hready.mark hserved (Catalog.markPackagePublished_cases hmark)
    exact ⟨hsettled.toFeedInvariant, hsettled⟩
  · have hok : ∃ c', s.catalog.markPackagePublished corpus row.packageId = .ok c' ∧
        c'.rows = s.catalog.rows.map (Catalog.setPublished row.packageId) :=
      Catalog.markPackagePublished_ok hready.member rfl
    obtain ⟨c', hc, _⟩ := hok
    rw [hc] at he
    cases he

theorem cleanSlot_keeps :
    Triple (SettledOn env corpus base dropped records) (FeedScript.cleanSlot .pending)
      (fun _ s => SettledOn env corpus base dropped records s ∧ s.root.pending = none) E
      (FeedInvariant env corpus base dropped) :=
  cleanSlot_settled.weaken (fun _ hs => hs) (fun _ _ hs => hs) (fun _ _ he => he) fun _ hs => hs.toFeedInvariant

theorem publishStaged_ready (hdrop : dropped = some row.packageId → ServedRow env base row) :
    Triple (Ready env corpus base dropped records row) (FeedScript.publishStaged corpus .pending row.packageId)
      (fun _ s => SettledOn env corpus base dropped records s ∧ s.root.pending = none) E
      (FeedInvariant env corpus base dropped) :=
  Triple.andThen (publishSlot_ready hdrop) fun _ => Triple.andThen markPublished_ready fun _ => cleanSlot_keeps

/-- Nothing waits in a feed whose slot holds no catalogued package. -/
theorem FeedInvariant.settle (h : FeedInvariant env corpus base dropped s)
    (hno : ∀ dir signed, s.root.pending = some dir → dir.manifest = .whole signed →
      ∀ row ∈ s.catalog, row.packageId ≠ signed.payload.identity.packageId) :
    Settled env corpus base dropped s := by
  refine ⟨h, fun row hr => ?_⟩
  rcases h.rows row hr with ⟨hpublished, _⟩ | ⟨_, _, dir, signed, hpending, hwhole, hid, _⟩
  · exact hpublished
  · exact absurd hid.symm (hno dir signed hpending hwhole row hr)

/-- The slot holds a manifest whose write was cut off. -/
def Torn (s : FeedState) : Prop := ∃ dir, s.root.pending = some dir ∧ dir.manifest = .torn

theorem readStagedIdentity_cases (s : FeedState) :
    (Torn s ∧ FeedScript.readStagedIdentity s = .error (.json "EOF while parsing a value")) ∨
    ((∀ dir signed, s.root.pending = some dir → dir.manifest ≠ .whole signed) ∧
      FeedScript.readStagedIdentity s = .ok none) ∨
    ∃ dir signed, s.root.pending = some dir ∧ dir.manifest = .whole signed ∧
      FeedScript.readStagedIdentity s =
        .ok (some (signed.payload.identity.packageId, signed.payload.identity.packageKind)) := by
  cases hpending : s.root.pending with
  | none => simp [FeedScript.readStagedIdentity, hpending]
  | some dir =>
    cases hmanifest : dir.manifest with
    | absent =>
      refine Or.inr (Or.inl ⟨fun d signed hd => ?_, by simp [FeedScript.readStagedIdentity, hpending, hmanifest]⟩)
      cases hd
      simp [hmanifest]
    | torn => simp [FeedScript.readStagedIdentity, hpending, hmanifest, Torn]
    | whole signed => simp [FeedScript.readStagedIdentity, hpending, hmanifest]

theorem packageCatalogStatus_none {c : Catalog} {packageId : Text} (h : c.packageCatalogStatus packageId = none) :
    ∀ row ∈ c, row.packageId ≠ packageId :=
  Catalog.ids_ne_of_find?_none (Option.map_eq_none_iff.mp h)

theorem packageCatalogStatus_some {c : Catalog} {packageId : Text} {status : CatalogStatus}
    (h : c.packageCatalogStatus packageId = some status) : ∃ row ∈ c, row.packageId = packageId := by
  obtain ⟨row, hrow, _⟩ := Option.map_eq_some_iff.mp h
  exact ⟨row, List.mem_of_find?_eq_some hrow, by simpa using List.find?_some hrow⟩

/-- What reading the staging slot says of the feed. -/
def Staged (staged : Option (Text × PackageKind)) (s : FeedState) : Prop :=
  match staged with
  | none => ∀ dir signed, s.root.pending = some dir → dir.manifest ≠ .whole signed
  | some (packageId, kind) => ∃ dir signed, s.root.pending = some dir ∧ dir.manifest = .whole signed ∧
      signed.payload.identity.packageId = packageId ∧ signed.payload.identity.packageKind = kind

theorem readStagedIdentity_staged {staged : Option (Text × PackageKind)}
    (h : FeedScript.readStagedIdentity s = .ok staged) : Staged staged s := by
  rcases readStagedIdentity_cases s with ⟨_, herror⟩ | ⟨hno, hnone⟩ | ⟨dir, signed, hpending, hwhole, hsome⟩
  · rw [herror] at h
    cases h
  · rw [hnone] at h
    cases h
    exact hno
  · rw [hsome] at h
    cases h
    exact ⟨dir, signed, hpending, hwhole, rfl, rfl⟩

theorem readStagedIdentity_torn {e : BuildError} (h : FeedScript.readStagedIdentity s = .error e) : Torn s := by
  rcases readStagedIdentity_cases s with ⟨htorn, _⟩ | ⟨_, hnone⟩ | ⟨_, _, _, _, hsome⟩
  · exact htorn
  · rw [hnone] at h
    cases h
  · rw [hsome] at h
    cases h

/-- A feed that may still have to publish what waits in its slot. -/
structure Unsettled (env : ProducerEnv) (corpus : Corpus) (base : ServedRoot) (records : List CatalogRow)
    (E : BuildError → FeedState → Prop) (s : FeedState) : Prop extends FeedInvariant env corpus base none s where
  same : s.catalog.records = records
  torn : Torn s → ∀ e, E e s

theorem readStaged_unsettled :
    Triple (Unsettled env corpus base records E) (Script.check FeedScript.readStagedIdentity)
      (fun staged s => Unsettled env corpus base records E s ∧ Staged staged s) E
      (FeedInvariant env corpus base none) :=
  Triple.check (fun _ hs => hs.toFeedInvariant) (fun _ hs _ ha => ⟨hs, readStagedIdentity_staged ha⟩)
    fun _ hs e he => hs.torn (readStagedIdentity_torn he) e

theorem Unsettled.settle (h : Unsettled env corpus base records E s) (hno : Staged none s) :
    SettledOn env corpus base none records s :=
  ⟨h.toFeedInvariant.settle fun dir signed hpending hwhole => absurd hwhole (hno dir signed hpending), h.same⟩

theorem Unsettled.discard (h : Unsettled env corpus base records E s) {packageId : Text} {kind : PackageKind}
    (hstaged : Staged (some (packageId, kind)) s) (hfree : ∀ row ∈ s.catalog, row.packageId ≠ packageId) :
    SettledOn env corpus base none records s := by
  obtain ⟨dir, signed, hpending, hwhole, hid, _⟩ := hstaged
  refine ⟨h.toFeedInvariant.settle fun dir' signed' hpending' hwhole' => ?_, h.same⟩
  rw [hpending, Option.some.injEq] at hpending'
  subst hpending'
  rw [hwhole] at hwhole'
  cases hwhole'
  exact hid ▸ hfree

theorem Unsettled.ready (h : Unsettled env corpus base records E s) {kind : PackageKind} (hr : row ∈ s.catalog)
    (hstaged : Staged (some (row.packageId, kind)) s) : Ready env corpus base none records row s := by
  obtain ⟨dir, signed, hpending, hwhole, hid, _⟩ := hstaged
  exact ⟨h.toFeedInvariant, h.same, hr,
    dir, signed, hpending, hwhole, hid, h.staged dir signed hpending hwhole row hr hid.symm⟩

/-- Resuming settles the feed: the staged package is published when it is
catalogued, and dropped when it is not. -/
theorem resumePending_settles :
    Triple (Unsettled env corpus base records E) (FeedScript.resumePending corpus)
      (fun _ => SettledOn env corpus base none records) E (FeedInvariant env corpus base none) := by
  refine Triple.andThen readStaged_unsettled fun staged => ?_
  rcases staged with _ | ⟨packageId, kind⟩
  · exact Triple.done fun s hs => ⟨hs.1.toFeedInvariant, hs.1.settle hs.2⟩
  refine Triple.andThen (Q := fun status s => (Unsettled env corpus base records E s ∧
    Staged (some (packageId, kind)) s) ∧ s.catalog.packageCatalogStatus packageId = status) ?_ fun status => ?_
  · exact Triple.read (fun s hs => hs.1.toFeedInvariant) fun s hs => ⟨hs, rfl⟩
  cases status with
  | none =>
    have hclean : Triple (SettledOn env corpus base none records) (FeedScript.cleanSlot .pending)
        (fun _ s => SettledOn env corpus base none records s ∧ s.root.pending = none) E
        (FeedInvariant env corpus base none) := cleanSlot_keeps
    refine Triple.andThen (hclean.pre ?_) fun _ => ?_
    · exact fun s hs => hs.1.1.discard hs.1.2 (packageCatalogStatus_none hs.2)
    · exact Triple.done fun s hs => ⟨hs.1.toFeedInvariant, hs.1⟩
  | some status =>
    have hready : Triple (fun s => ∃ row, ∃ _ : row.packageId = packageId, Ready env corpus base none records row s)
        (FeedScript.publishStaged corpus .pending packageId)
        (fun _ s => SettledOn env corpus base none records s ∧ s.root.pending = none) E
        (FeedInvariant env corpus base none) :=
      Triple.given fun row => Triple.given fun hid => hid ▸ publishStaged_ready (by simp)
    refine Triple.andThen (hready.pre ?_) fun _ => ?_
    · intro s hs
      obtain ⟨⟨hinv, hstaged⟩, hstatus⟩ := hs
      obtain ⟨row, hr, hid⟩ := packageCatalogStatus_some hstatus
      subst hid
      exact ⟨row, rfl, hinv.ready hr hstaged⟩
    · exact Triple.done fun s hs => ⟨hs.1.toFeedInvariant, hs.1⟩

/-- The served remote manifest is the one that the builder makes of the feed. -/
def Current (env : ProducerEnv) (params : RemoteManifestParams) (corpus : Corpus) (s : FeedState) : Prop :=
  ∃ built, s.root.manifest = some built ∧ buildRemoteManifest env params corpus s.catalog s.root = .ok built

theorem publishFeed_current (params : RemoteManifestParams) :
    Triple (SettledOn env corpus base dropped records) (FeedScript.publishFeed env params corpus)
      (fun _ s => SettledOn env corpus base dropped records s ∧ Current env params corpus s) E
      (FeedInvariant env corpus base dropped) := by
  have hbuild : ∀ s, SettledOn env corpus base dropped records s →
      ∃ built, buildRemoteManifest env params corpus s.catalog s.root = .ok built ∧
        RemoteServed env corpus s built.payload := fun s hs =>
    buildRemoteManifest_served hs.numbered hs.nonempty hs.published hs.toSettled.served params
  refine Triple.andThen (Q := fun built s => SettledOn env corpus base dropped records s ∧
    buildRemoteManifest env params corpus s.catalog s.root = .ok built) ?_ fun built => ?_
  · refine Triple.check (fun s hs => hs.toFeedInvariant) (fun s hs built h => ⟨hs, h⟩) fun s hs e he => ?_
    obtain ⟨built, hok, _⟩ := hbuild s hs
    rw [hok] at he
    cases he
  · have hwrite : ∀ s, SettledOn env corpus base dropped records s ∧
        buildRemoteManifest env params corpus s.catalog s.root = .ok built →
        SettledOn env corpus base dropped records { s with root := publishRemoteManifest s.root built } := by
      intro s hs
      obtain ⟨hs, hok⟩ := hs
      obtain ⟨built', hok', hserved⟩ := hbuild s hs
      rw [hok] at hok'
      cases hok'
      refine ⟨⟨⟨hs.kept, hs.nonempty, hs.numbered, hs.rows, hs.catalogued, hs.staged, ?_⟩, hs.published⟩, hs.same⟩
      intro m hm
      cases hm
      exact ⟨hserved.baseline, hserved.packages⟩
    refine Triple.write (fun s hs => (hwrite s hs).toFeedInvariant) fun s hs => ⟨hwrite s hs, built, rfl, ?_⟩
    have hpackages : (publishRemoteManifest s.root built).packages = s.root.packages := rfl
    exact (buildRemoteManifest_congr hpackages s.catalog).trans hs.2

end Publish

end CorpusFeed
