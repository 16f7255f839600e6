import CorpusFeed.Bootstrap
import CorpusFeed.FeedBuild
import CorpusFeed.FeedServing

/-! The states of a bootstrap: nothing catalogued yet, the first baseline staged,
served, and served with a verified remote manifest. Its steps lead from one to
the next. -/

namespace CorpusFeed

open Script

/-- The corpus has no package yet. -/
structure Blank (corpus : Corpus) (s : FeedState) : Prop where
  no_rows : s.catalog.rows = []
  free : s.root.publishedPackageDir (packageIdOf corpus 1 1) = none
  no_manifest : s.root.manifest = none

/-- The one row is a canonical first baseline, and the artifact is its own. -/
structure FirstBegun (setup : BootstrapSetup) (row : CatalogRow) (signed : Signed EmbeddedManifest)
    (s : FeedState) : Prop where
  only : s.catalog.rows = [row]
  canonical : classifyFirstBaselineRow row setup.corpus setup.config.baselineParams = .ok ()
  matched : MatchesRow setup.env row signed
  sealed_by : signed = sealManifest setup.env signed.payload

structure FirstStaged (setup : BootstrapSetup) (row : CatalogRow) (signed : Signed EmbeddedManifest)
    (s : FeedState) : Prop extends FirstBegun setup row signed s where
  waiting : row.status = .built
  slot : ∃ dir, s.root.bootstrapSlot = some dir ∧ dir.manifest = .whole signed
  free : s.root.publishedPackageDir row.packageId = none
  no_manifest : s.root.manifest = none

structure FirstServed (setup : BootstrapSetup) (row : CatalogRow) (signed : Signed EmbeddedManifest)
    (s : FeedState) : Prop extends FirstBegun setup row signed s where
  served : ∃ dir, s.root.publishedPackageDir row.packageId = some dir ∧ dir.manifest = .whole signed

/-- The artifacts that the remote manifest references are served, match their
rows and pass the public verification. -/
def ManifestBacked (setup : BootstrapSetup) (s : FeedState) (m : Signed RemoteManifest) : Prop :=
  RemoteServed setup.env setup.corpus s m.payload ∧ ∃ report, verifySignedRemoteManifest setup.verifier setup.corpus
    s.root setup.config.remoteManifestParams.uriBase m = .ok report

/-- The first baseline is served, its row says so, and so does a verified manifest. -/
structure FirstPublished (setup : BootstrapSetup) (row : CatalogRow) (signed : Signed EmbeddedManifest)
    (s : FeedState) : Prop extends FirstServed setup row signed s where
  status : row.status = .published
  manifest : ∃ m, s.root.manifest = some m ∧ ManifestBacked setup s m

/-- The first baseline waits for its remote manifest. -/
structure Unlisted (setup : BootstrapSetup) (row : CatalogRow) (signed : Signed EmbeddedManifest)
    (s : FeedState) : Prop extends FirstServed setup row signed s where
  no_manifest : s.root.manifest = none

inductive BootstrapState (setup : BootstrapSetup) (s : FeedState) : Prop where
  | blank (h : Blank setup.corpus s)
  | staged {row : CatalogRow} {signed : Signed EmbeddedManifest} (h : FirstStaged setup row signed s)
  | served {row : CatalogRow} {signed : Signed EmbeddedManifest} (h : Unlisted setup row signed s)
  | complete {row : CatalogRow} {signed : Signed EmbeddedManifest} (h : FirstPublished setup row signed s)

theorem divergingField_none_iff {row : CatalogRow} {corpus : Corpus} {params : BaselineParams} :
    divergingField row corpus params = none ↔ row.packageId = corpus.name ++ "-1-1".toList ∧
      row.packageSequence = 1 ∧ row.packageKind = .baseline ∧ row.generation = generationName corpus.name 1 ∧
      row.baselineId = params.baselineId ∧ row.embeddingFingerprint = params.embeddingFingerprint ∧
      (row.status = .built ∨ row.status = .published) := by
  have hite : ∀ (c : Prop) [Decidable c] (text : String) (rest : Option String),
      (if c then some text else rest) = none ↔ ¬ c ∧ rest = none := by
    intro c _ text rest
    by_cases hc : c <;> simp [hc]
  simp only [divergingField, hite, ne_eq, not_not, and_true]
  rw [← not_or, not_not]

theorem classify_ok_iff {row : CatalogRow} {corpus : Corpus} {params : BaselineParams} :
    classifyFirstBaselineRow row corpus params = .ok () ↔ row.packageId = packageIdOf corpus 1 1 ∧
      row.packageSequence = 1 ∧ row.packageKind = .baseline ∧ row.generation = generationName corpus.name 1 ∧
      row.baselineId = params.baselineId ∧ row.embeddingFingerprint = params.embeddingFingerprint ∧
      (row.status = .built ∨ row.status = .published) := by
  have hid : packageIdOf corpus 1 1 = corpus.name ++ "-1-1".toList := by
    have hone : padDecimal 1 1 = "1".toList := by decide
    simp [packageIdOf, hone]
  rw [hid, ← divergingField_none_iff, classifyFirstBaselineRow]
  cases divergingField row corpus params <;> simp

section First

variable {setup : BootstrapSetup} {row : CatalogRow} {signed : Signed EmbeddedManifest} {s : FeedState}

theorem FirstBegun.id (h : FirstBegun setup row signed s) : row.packageId = packageIdOf setup.corpus 1 1 :=
  (classify_ok_iff.mp h.canonical).1

theorem FirstBegun.kind (h : FirstBegun setup row signed s) : row.packageKind = .baseline :=
  (classify_ok_iff.mp h.canonical).2.2.1

theorem FirstBegun.latestMedia (h : FirstBegun setup row signed s) : s.catalog.latestMediaPackage = some row := by
  simp [Catalog.latestMediaPackage, h.only, h.kind, PackageKind.isMedia]

theorem FirstBegun.mem_iff (h : FirstBegun setup row signed s) (r : CatalogRow) : r ∈ s.catalog ↔ r = row := by
  rw [← Catalog.mem_rows, h.only, List.mem_singleton]

theorem FirstBegun.published_or_built (h : FirstBegun setup row signed s) :
    row.status = .built ∨ row.status = .published := (classify_ok_iff.mp h.canonical).2.2.2.2.2.2

theorem FirstBegun.numbered (h : FirstBegun setup row signed s) : Numbered setup.corpus 0 s.catalog.rows := by
  obtain ⟨hid, hseq, hkind, hgeneration, _⟩ := classify_ok_iff.mp h.canonical
  rw [h.only]
  refine ⟨hseq, iff_of_true hkind rfl, hid, ?_, trivial⟩
  rw [hgeneration, generationCounterOf_generationName]
  rfl

theorem FirstBegun.congr (h : FirstBegun setup row signed s) {t : FeedState} (hcatalog : t.catalog = s.catalog) :
    FirstBegun setup row signed t :=
  ⟨hcatalog ▸ h.only, h.canonical, h.matched, h.sealed_by⟩

theorem FirstBegun.mark (h : FirstBegun setup row signed s) {catalog : Catalog}
    (hrows : catalog.rows = s.catalog.rows.map (Catalog.setPublished row.packageId)) :
    FirstBegun setup row.asPublished signed { s with catalog := catalog } := by
  obtain ⟨hid, hseq, hkind, hgeneration, hbaseline, hfp, _⟩ := classify_ok_iff.mp h.canonical
  have hset : Catalog.setPublished row.packageId row = row.asPublished := if_pos rfl
  refine ⟨?_, classify_ok_iff.mpr ⟨hid, hseq, hkind, hgeneration, hbaseline, hfp, Or.inr rfl⟩,
    ⟨h.matched.verified, h.matched.sequence⟩, h.sealed_by⟩
  rw [hrows, h.only, List.map_singleton, hset]

theorem FirstServed.servedRow (h : FirstServed setup row signed s) : ServedRow setup.env s.root row := by
  obtain ⟨dir, hdir, hwhole⟩ := h.served
  exact ⟨dir, signed, hdir, hwhole, h.matched⟩

theorem Blank.setSlot (h : Blank setup.corpus s) (dir : Option ArtifactDir) :
    Blank setup.corpus (s.setSlot .bootstrap dir) := ⟨h.no_rows, h.free, h.no_manifest⟩

theorem Unlisted.setSlot (h : Unlisted setup row signed s) (dir : Option ArtifactDir) :
    Unlisted setup row signed (s.setSlot .bootstrap dir) :=
  ⟨⟨h.toFirstBegun.congr rfl, h.served⟩, h.no_manifest⟩

/-- The remote manifest of a served and published first baseline is built, and it
passes the public verification. -/
theorem FirstServed.manifest (htrust : Trusts setup.verifier setup.env) (h : FirstServed setup row signed s)
    (hpublished : row.status = .published) :
    ∃ built, buildRemoteManifest setup.env setup.config.remoteManifestParams setup.corpus s.catalog s.root =
        .ok built ∧ ManifestBacked setup s built := by
  have hstatus : ∀ r ∈ s.catalog, r.status = .published := fun r hr => by rw [(h.mem_iff r).mp hr, hpublished]
  have hserved : ∀ r ∈ s.catalog, ServedRow setup.env s.root r := fun r hr => by
    rw [(h.mem_iff r).mp hr]
    exact h.servedRow
  have hne : s.catalog.rows ≠ [] := by simp [h.only]
  obtain ⟨built, hbuilt, hremote⟩ :=
    buildRemoteManifest_served h.numbered hne hstatus hserved setup.config.remoteManifestParams
  refine ⟨built, hbuilt, hremote, ?_⟩
  obtain ⟨media, dir, signed', packages, hfrom, hpayload, hsignature⟩ := buildRemoteManifest_ok hbuilt
  have hmedia := hfrom.latest.symm.trans h.latestMedia
  cases hmedia
  obtain ⟨dir', hdir', hwhole'⟩ := h.served
  obtain ⟨hdir, hwhole⟩ := readPublishedManifest_ok hfrom.read
  rw [hdir'] at hdir
  cases hdir
  rw [hwhole'] at hwhole
  cases hwhole
  have hretained : retainedIncrementals s.catalog.rows row.packageSequence
      setup.config.remoteManifestParams.maxRetainedIncrementals = [] := by
    have hrows : s.catalog.rows = [] ++ row :: [] := h.only
    have hroot : row.packageKind.isMedia = true := by rw [h.kind]; rfl
    rw [retainedIncrementals_split hrows hroot (by simp)]
    simp
  have hpackages : packages = [] := by
    have hlisted := hfrom.listed
    rw [hretained] at hlisted
    cases hlisted
    rfl
  have hsealed : dir.manifest = .whole (sealManifest setup.env signed.payload) := by
    rw [← h.sealed_by]
    exact hwhole'
  have hartifact := @verifyArtifact_served setup.verifier setup.env htrust setup.config.remoteManifestParams
    setup.corpus s.root 1 1 dir signed.payload (h.id ▸ hdir') hsealed
  have hsignature' : signed.signature = setup.env.signEmbedded signed.payload := congrArg Signed.signature h.sealed_by
  rw [← h.id, ← hsignature'] at hartifact
  refine ⟨⟨signed.payload.identity.toSequence, 0, 1⟩, ?_⟩
  rw [verifySignedRemoteManifest, hsignature, htrust.remote, hpayload, hpackages]
  simp [assembleManifest, activeBaselineRef, verifyEntries, hartifact, bind, Except.bind, pure, Except.pure]

theorem dirAt_congr {corpus : Corpus} {root root' : ServedRoot} (h : root.packages = root'.packages) (parts : List Text) :
    root.dirAt corpus parts = root'.dirAt corpus parts := by
  unfold ServedRoot.dirAt
  split
  · simp only [ServedRoot.publishedPackageDir, h]
  · rfl

/-- What is verified of a served root is its packages. -/
theorem verifyEntries_congr {verifier : Verifier} {corpus : Corpus} {root root' : ServedRoot} {uriBase : Text}
    (h : root.packages = root'.packages) (entries : List RemotePackageEntry) :
    verifyEntries verifier corpus root uriBase entries = verifyEntries verifier corpus root' uriBase entries := by
  induction entries with
  | nil => rfl
  | cons entry rest ih => simp only [verifyEntries, verifyArtifact, dirAt_congr h, ih]

theorem verifySignedRemoteManifest_congr {verifier : Verifier} {corpus : Corpus} {root root' : ServedRoot}
    {uriBase : Text} (h : root.packages = root'.packages) (m : Signed RemoteManifest) :
    verifySignedRemoteManifest verifier corpus root uriBase m =
      verifySignedRemoteManifest verifier corpus root' uriBase m := by
  simp only [verifySignedRemoteManifest, verifyArtifact, dirAt_congr h, verifyEntries_congr h]

end First

section Steps

variable {setup : BootstrapSetup} {row : CatalogRow} {signed : Signed EmbeddedManifest}
  {E : BuildError → FeedState → Prop} {P : FeedState → Prop}

theorem cleanSlot_of_setSlot {slot : Slot} (hslot : ∀ s dir, P s → P (s.setSlot slot dir)) :
    Triple P (FeedScript.cleanSlot slot) (fun _ => P) E P := by
  refine Triple.andThen (Q := fun _ => P) ?_ fun _ => ?_
  · refine Triple.mayLeave (fun _ hs => hs) (fun s hs t ht => ?_) fun _ hs => hs
    split at ht
    · cases ht
    · obtain ⟨left, _, rfl⟩ := List.mem_map.mp ht
      exact hslot s _ hs
  · exact Triple.write (fun s hs => hslot s _ hs) fun s hs => hslot s _ hs

theorem stageArtifact_of_setSlot {slot : Slot} {files : List (Text × Text)}
    (hslot : ∀ s dir, P s → P (s.setSlot slot dir)) :
    Triple P (FeedScript.stageArtifact slot files signed)
      (fun _ s => P s ∧ s.slot slot = some ⟨.whole signed, files⟩) E P := by
  refine Triple.andThen (Q := fun _ => P) ?_ fun _ => ?_
  · refine Triple.mayLeave (fun _ hs => hs) (fun s hs t ht => ?_) fun _ hs => hs
    obtain ⟨part, _, rfl⟩ := List.mem_map.mp ht
    exact hslot s _ hs
  refine Triple.andThen (Q := fun _ => P) ?_ fun _ => ?_
  · exact Triple.write (fun s hs => hslot s _ hs) fun s hs => hslot s _ hs
  refine Triple.andThen (Q := fun _ => P) ?_ fun _ => ?_
  · refine Triple.mayLeave (fun _ hs => hs) (fun s hs t ht => ?_) fun _ hs => hs
    rw [List.mem_singleton.mp ht]
    exact hslot s _ hs
  · exact Triple.write (fun s hs => hslot s _ hs) fun s hs => ⟨hslot s _ hs, FeedState.slot_setSlot s slot _⟩

theorem insertRow_first (params : BaselineParams) (snapshot : MediaSnapshot)
    (hbaseline : params.baselineId = setup.config.baselineParams.baselineId)
    (hfingerprint : params.embeddingFingerprint = setup.config.baselineParams.embeddingFingerprint) :
    Triple (fun s => Blank setup.corpus s ∧ s.slot .bootstrap =
        some ⟨.whole (sealManifest setup.env (firstManifest setup.env setup.corpus params snapshot)), mediaFiles snapshot⟩)
      (FeedScript.insertRow (firstRow setup.env setup.corpus params snapshot))
      (fun _ => FirstStaged setup (firstRow setup.env setup.corpus params snapshot)
        (sealManifest setup.env (firstManifest setup.env setup.corpus params snapshot))) E (BootstrapState setup) := by
  have hinsert : ∀ s, Blank setup.corpus s → ∃ catalog : Catalog,
      s.catalog.insertPackageCatalogRow (firstRow setup.env setup.corpus params snapshot) = .ok catalog ∧
        catalog.rows = [firstRow setup.env setup.corpus params snapshot] := by
    intro s hs
    have hfind : (s.catalog.rows.find? fun r => r.packageId = (firstRow setup.env setup.corpus params snapshot).packageId) =
        none := by simp [hs.no_rows]
    unfold Catalog.insertPackageCatalogRow
    split
    · next existing he =>
      rw [hfind] at he
      cases he
    · simp [hs.no_rows, Catalog.place]
  have hstaged : ∀ s (catalog : Catalog), Blank setup.corpus s → s.slot .bootstrap = some ⟨.whole
      (sealManifest setup.env (firstManifest setup.env setup.corpus params snapshot)), mediaFiles snapshot⟩ →
      catalog.rows = [firstRow setup.env setup.corpus params snapshot] →
      FirstStaged setup (firstRow setup.env setup.corpus params snapshot)
        (sealManifest setup.env (firstManifest setup.env setup.corpus params snapshot)) { s with catalog := catalog } := by
    intro s catalog hs hslot hrows
    refine ⟨⟨hrows, classify_ok_iff.mpr ⟨rfl, ?_, rfl, rfl, hbaseline, hfingerprint, Or.inl rfl⟩,
      first_matches params snapshot, rfl⟩, rfl, ⟨_, hslot, rfl⟩, hs.free, hs.no_manifest⟩
    simp only [firstRow, mediaRow, firstBaselineSpec, saturateI64]
    omega
  refine Triple.tryWrite (fun s hs => .blank hs.1) (fun s hs t ht => ?_) fun s hs e he => ?_
  all_goals
    obtain ⟨catalog, hcatalog, hrows⟩ := hinsert s hs.1
    simp only [hcatalog] at *
  · cases ht
    have hnext := hstaged s catalog hs.1 hs.2 hrows
    exact ⟨.staged hnext, hnext⟩
  · cases he

theorem publishSlot_first :
    Triple (FirstStaged setup row signed) (FeedScript.publishSlot .bootstrap row.packageId)
      (fun _ => Unlisted setup row signed) E (BootstrapState setup) := by
  have hpublish : ∀ s, FirstStaged setup row signed s → ∃ dir, s.slot .bootstrap = some dir ∧
      publishPackage s.root row.packageId dir =
        .ok { s.root with packages := s.root.packages.upsert (row.packageId, dir) } ∧
      Unlisted setup row signed
        { s with root := { s.root with packages := s.root.packages.upsert (row.packageId, dir) } } := by
    intro s hs
    obtain ⟨dir, hdir, hwhole⟩ := hs.slot
    refine ⟨dir, hdir, ?_, ⟨⟨hs.toFirstBegun.congr rfl, dir, ?_, hwhole⟩, hs.no_manifest⟩⟩
    · rw [publishPackage, hs.free]
    · rw [publishedPackageDir_upsert, if_pos rfl]
  refine Triple.tryWrite (fun s hs => .staged hs) (fun s hs t ht => ?_) fun s hs e he => ?_
  all_goals
    obtain ⟨dir, hdir, hok, hnext⟩ := hpublish s hs
    simp only [hdir, hok] at *
  · cases ht
    exact ⟨.served hnext, hnext⟩
  · cases he

theorem markPublished_first :
    Triple (Unlisted setup row signed) (FeedScript.markPublished setup.corpus row.packageId)
      (fun _ => Unlisted setup row.asPublished signed) E (BootstrapState setup) := by
  have hmark : ∀ s, Unlisted setup row signed s → ∃ catalog, s.catalog.markPackagePublished setup.corpus row.packageId =
      .ok catalog ∧ Unlisted setup row.asPublished signed { s with catalog := catalog } := by
    intro s hs
    have hmember : row ∈ s.catalog := (hs.mem_iff row).mpr rfl
    obtain ⟨catalog, hcatalog, hrows⟩ : ∃ c', s.catalog.markPackagePublished setup.corpus row.packageId = .ok c' ∧
        c'.rows = s.catalog.rows.map (Catalog.setPublished row.packageId) := Catalog.markPackagePublished_ok hmember rfl
    exact ⟨catalog, hcatalog, ⟨hs.toFirstBegun.mark hrows, hs.served⟩, hs.no_manifest⟩
  refine Triple.tryWrite (fun s hs => .served hs) (fun s hs t ht => ?_) fun s hs e he => ?_
  all_goals
    obtain ⟨catalog, hok, hnext⟩ := hmark s hs
    simp only [hok] at *
  · cases ht
    exact ⟨.served hnext, hnext⟩
  · cases he

theorem cleanSlot_first :
    Triple (Unlisted setup row signed) (FeedScript.cleanSlot .bootstrap) (fun _ => Unlisted setup row signed) E
      (BootstrapState setup) :=
  (cleanSlot_of_setSlot fun _ dir hs => hs.setSlot dir).weaken (fun _ hs => hs) (fun _ _ hs => hs)
    (fun _ _ he => he) fun _ hs => .served hs

end Steps

end CorpusFeed
