import CorpusFeed.BootstrapSteps
import CorpusFeed.FeedRecovery

/-! Bootstrap runs that may each stop anywhere. A later run publishes the first
baseline that was begun, or is refused and changes nothing. -/

namespace CorpusFeed

open Script

section Run

variable {setup : BootstrapSetup} {row : CatalogRow} {signed : Signed EmbeddedManifest}
  {E : BuildError → FeedState → Prop}

/-- The first baseline waits for its remote manifest, and the row says that it is served. -/
def Identified (setup : BootstrapSetup) (row : CatalogRow) (signed : Signed EmbeddedManifest)
    (identity : BootstrapIdentity) (s : FeedState) : Prop :=
  Unlisted setup row signed s ∧ row.status = .published ∧ identity.packageId = row.packageId

theorem buildFirstBaseline_unlisted (snapshot : MediaSnapshot) :
    Triple (Blank setup.corpus) (FeedScript.buildFirstBaseline setup snapshot)
      (fun identity s => ∃ row signed, Identified setup row signed identity s) E (BootstrapState setup) := by
  let params := setup.config.baselineParams
  let row := firstRow setup.env setup.corpus params snapshot
  have hblank : ∀ s dir, Blank setup.corpus s → Blank setup.corpus (s.setSlot .bootstrap dir) := fun s dir hs =>
    hs.setSlot dir
  have hclean : Triple (Blank setup.corpus) (FeedScript.cleanSlot .bootstrap) (fun _ => Blank setup.corpus) E
      (BootstrapState setup) := (cleanSlot_of_setSlot hblank).weaken (fun _ hs => hs) (fun _ _ hs => hs)
    (fun _ _ he => he) fun _ hs => .blank hs
  refine Triple.andThen hclean fun _ => ?_
  refine Triple.andThen (Q := fun _ => Blank setup.corpus) ?_ fun _ => ?_
  · exact Triple.write (fun s hs => .blank (hblank s _ hs)) fun s hs => hblank s _ hs
  have hbuild : Triple (Blank setup.corpus) (FeedScript.buildBaseline setup.env setup.corpus .bootstrap params snapshot)
      (fun spec s => ∃ _ : spec = firstBaselineSpec setup.corpus params, FirstStaged setup row
        (sealManifest setup.env (firstManifest setup.env setup.corpus params snapshot)) s) E (BootstrapState setup) := by
    refine Triple.andThen (Q := fun _ => FirstStaged setup row
      (sealManifest setup.env (firstManifest setup.env setup.corpus params snapshot))) ?_ fun _ => ?_
    · refine Triple.andThen ((stageArtifact_of_setSlot hblank).weaken (fun _ hs => hs) (fun _ _ hs => hs)
        (fun _ _ he => he) fun _ hs => .blank hs) fun _ => ?_
      exact insertRow_first params snapshot rfl rfl
    · exact Triple.done fun s hs => ⟨.staged hs, rfl, hs⟩
  refine Triple.andThen hbuild fun spec => ?_
  refine Triple.given fun hspec => ?_
  subst hspec
  refine Triple.andThen (Q := fun _ => Unlisted setup row.asPublished
    (sealManifest setup.env (firstManifest setup.env setup.corpus params snapshot))) ?_ fun _ => ?_
  · refine Triple.andThen publishSlot_first fun _ => ?_
    exact Triple.andThen markPublished_first fun _ => cleanSlot_first
  · exact Triple.done fun s hs => ⟨.served hs, _, _, hs, rfl, rfl⟩

theorem FirstServed.readServed {s : FeedState} (h : FirstServed setup row signed s) :
    FeedScript.readServed row.packageId s = .ok signed := by
  obtain ⟨dir, hdir, hwhole⟩ := h.served
  simp [FeedScript.readServed, hdir, readEmbedded, hwhole]

theorem FirstServed.recoverArtifact {s : FeedState} (h : FirstServed setup row signed s) :
    FeedScript.recoverArtifact setup row s = .ok signed := by
  have hverify : verifyCatalogIdentity setup.env row signed false = .ok () := by
    have hverified := h.matched.verified
    rw [h.kind] at hverified
    exact hverified
  simp [FeedScript.recoverArtifact, h.readServed, hverify]

/-- A first baseline that was begun and has no remote manifest yet. -/
def Resumable (setup : BootstrapSetup) (row : CatalogRow) (signed : Signed EmbeddedManifest) (s : FeedState) : Prop :=
  FirstStaged setup row signed s ∨ Unlisted setup row signed s

theorem Resumable.begun {s : FeedState} (h : Resumable setup row signed s) :
    FirstBegun setup row signed s ∧ s.root.manifest = none :=
  h.elim (fun h => ⟨h.toFirstBegun, h.no_manifest⟩) fun h => ⟨h.toFirstBegun, h.no_manifest⟩

theorem Resumable.state {s : FeedState} (h : Resumable setup row signed s) : BootstrapState setup s :=
  h.elim .staged .served

theorem resumeFromSlot_cases {s : FeedState} (h : Resumable setup row signed s) :
    ∃ fromSlot, FeedScript.resumeFromSlot setup row s = .ok fromSlot ∧
      if fromSlot then FirstStaged setup row signed s else Unlisted setup row signed s := by
  rcases h with h | h
  · obtain ⟨dir, hdir, hwhole⟩ := h.slot
    refine ⟨true, ?_, h⟩
    simp [FeedScript.resumeFromSlot, FeedScript.hasManifest, h.free, hdir, hwhole]
  · obtain ⟨dir, hdir, hwhole⟩ := h.served
    refine ⟨false, ?_, h⟩
    simp [FeedScript.resumeFromSlot, FeedScript.hasManifest, hdir, hwhole]

theorem resumeFirstBaseline_unlisted :
    Triple (Resumable setup row signed) (FeedScript.resumeFirstBaseline setup row)
      (Identified setup row.asPublished signed) E (BootstrapState setup) := by
  refine Triple.andThen (Q := fun fromSlot s => if fromSlot then FirstStaged setup row signed s else
    Unlisted setup row signed s) ?_ fun fromSlot => ?_
  · refine Triple.check (fun s hs => hs.state) (fun s hs a ha => ?_) fun s hs e he => ?_
    all_goals obtain ⟨fromSlot, hok, hstate⟩ := resumeFromSlot_cases hs
    · rw [hok] at ha
      cases ha
      exact hstate
    · rw [hok] at he
      cases he
  refine Triple.andThen (Q := fun _ => Unlisted setup row signed) ?_ fun _ => ?_
  · cases fromSlot with
    | true => exact publishSlot_first
    | false => exact Triple.done fun s hs => ⟨.served hs, hs⟩
  refine Triple.andThen (Q := fun _ => Unlisted setup row signed) ?_ fun recovered => ?_
  · refine Triple.check (fun s hs => .served hs) (fun s hs _ _ => hs) fun s hs e he => ?_
    rw [hs.recoverArtifact] at he
    cases he
  refine Triple.andThen (Q := fun _ => Unlisted setup row.asPublished signed) ?_ fun _ => ?_
  · unfold FeedScript.markBuilt
    cases hstatus : row.status with
    | built => exact markPublished_first
    | published =>
      refine Triple.done fun s hs => ⟨.served hs, ?_⟩
      rw [asPublished_of_status hstatus]
      exact hs
    | failed =>
      refine Triple.done fun s hs => ⟨.served hs, ?_⟩
      rcases hs.published_or_built with h | h <;> simp [hstatus] at h
  refine Triple.andThen cleanSlot_first fun _ => ?_
  exact Triple.done fun s hs => ⟨.served hs, hs, rfl, rfl⟩

theorem bootstrapLocked_blank {tables : StampedTables} (snapshot : MediaSnapshot)
    (hpreflight : bootstrapPreflight setup.config.baselineParams tables = .ok ()) :
    Triple (Blank setup.corpus) (FeedScript.bootstrapLocked setup tables snapshot)
      (fun identity s => ∃ row signed, Identified setup row signed identity s) E (BootstrapState setup) := by
  refine Triple.andThen (Q := fun media s => ∃ _ : media = none, Blank setup.corpus s) ?_ fun media => ?_
  · refine Triple.read (fun s hs => .blank hs) fun s hs => ⟨?_, hs⟩
    simp [Catalog.latestMediaPackage, hs.no_rows]
  refine Triple.given fun hmedia => ?_
  subst hmedia
  refine Triple.andThen (Q := fun _ => Blank setup.corpus) ?_ fun _ => buildFirstBaseline_unlisted snapshot
  refine Triple.check (fun s hs => .blank hs) (fun s hs _ _ => hs) fun s hs e he => ?_
  rw [hpreflight] at he
  cases he

theorem bootstrapLocked_resumes {tables : StampedTables} (snapshot : MediaSnapshot) :
    Triple (Resumable setup row signed) (FeedScript.bootstrapLocked setup tables snapshot)
      (Identified setup row.asPublished signed) E (BootstrapState setup) := by
  refine Triple.andThen (Q := fun media s => ∃ _ : media = some row, Resumable setup row signed s) ?_ fun media => ?_
  · exact Triple.read (fun s hs => hs.state) fun s hs => ⟨hs.begun.1.latestMedia, hs⟩
  refine Triple.given fun hmedia => ?_
  subst hmedia
  refine Triple.andThen (Q := fun _ => Resumable setup row signed) ?_ fun _ => ?_
  · refine Triple.check (fun s hs => hs.state) (fun s hs _ _ => hs) fun s hs e he => ?_
    rw [hs.begun.1.canonical] at he
    cases he
  refine Triple.andThen (Q := fun _ => Resumable setup row signed) ?_ fun _ => resumeFirstBaseline_unlisted
  refine Triple.check (fun s hs => hs.state) (fun s hs _ _ => hs) fun s hs e he => ?_
  simp [FeedScript.refuseServed, hs.begun.2] at he

theorem publishVerified_published (htrust : Trusts setup.verifier setup.env) :
    Triple (fun s => Unlisted setup row signed s ∧ row.status = .published) (FeedScript.publishVerified setup)
      (fun _ => FirstPublished setup row signed) E (BootstrapState setup) := by
  refine Triple.andThen (Q := fun built s => (Unlisted setup row signed s ∧ row.status = .published) ∧
    ManifestBacked setup s built) ?_ fun built => ?_
  · refine Triple.check (fun s hs => .served hs.1) (fun s hs built hbuilt => ?_) fun s hs e he => ?_
    all_goals obtain ⟨built', hbuilt', hbacked⟩ := hs.1.toFirstServed.manifest htrust hs.2
    · rw [hbuilt'] at hbuilt
      cases hbuilt
      exact ⟨hs, hbacked⟩
    · rw [hbuilt'] at he
      cases he
  refine Triple.andThen (Q := fun _ s => (Unlisted setup row signed s ∧ row.status = .published) ∧
    ManifestBacked setup s built) ?_ fun _ => ?_
  · refine Triple.check (fun s hs => .served hs.1.1) (fun s hs _ _ => hs) fun s hs e he => ?_
    obtain ⟨_, _, hverify⟩ := hs.2
    rw [hverify] at he
    cases he
  have hwrite : ∀ s, (Unlisted setup row signed s ∧ row.status = .published) ∧ ManifestBacked setup s built →
      FirstPublished setup row signed { s with root := publishRemoteManifest s.root built } := by
    rintro s ⟨⟨hs, hstatus⟩, hremote, report, hverify⟩
    refine ⟨⟨hs.toFirstBegun.congr rfl, hs.served⟩, hstatus, built, rfl, ⟨hremote.baseline, hremote.packages⟩, report, ?_⟩
    have hpackages : (publishRemoteManifest s.root built).packages = s.root.packages := rfl
    exact (verifySignedRemoteManifest_congr hpackages built).trans hverify
  refine Triple.andThen (Q := fun _ => FirstPublished setup row signed) ?_ fun _ => ?_
  · exact Triple.write (fun s hs => .complete (hwrite s hs)) hwrite
  refine Triple.check (fun s hs => .complete hs) (fun s hs _ _ => hs) fun s hs e he => ?_
  obtain ⟨m, hm, _, report, hverify⟩ := hs.manifest
  simp [verifyPublishedRoot, hm, hverify] at he

theorem bootstrap_published (htrust : Trusts setup.verifier setup.env) {tables : StampedTables} {snapshot : MediaSnapshot}
    {P : FeedState → Prop} {R : CatalogRow → Prop}
    (hlocked : Triple P (FeedScript.bootstrapLocked setup tables snapshot)
      (fun identity s => ∃ row signed, ∃ _ : R row, Identified setup row signed identity s) E (BootstrapState setup)) :
    Triple P (FeedScript.bootstrapFirstBaseline setup tables snapshot)
      (fun _ s => ∃ row signed, R row ∧ FirstPublished setup row signed s) E (BootstrapState setup) := by
  refine Triple.andThen hlocked fun identity => ?_
  refine Triple.given fun row => Triple.given fun signed => Triple.given fun hrow => ?_
  have hid : ∀ s, Identified setup row signed identity s →
      ∃ _ : identity.packageId = row.packageId, Unlisted setup row signed s ∧ row.status = .published :=
    fun s hs => ⟨hs.2.2, hs.1, hs.2.1⟩
  refine Triple.pre (Triple.given fun hid => ?_) hid
  refine Triple.andThen (publishVerified_published htrust) fun verified => ?_
  refine Triple.andThen (Q := fun _ => FirstPublished setup row signed) ?_ fun artifact => ?_
  · refine Triple.check (fun s hs => .complete hs) (fun s hs _ _ => hs) fun s hs e he => ?_
    rw [hid, hs.readServed] at he
    cases he
  refine Triple.andThen (Q := fun _ => FirstPublished setup row signed) ?_ fun head => ?_
  · exact Triple.read (fun s hs => .complete hs) fun s hs => hs
  · exact Triple.done fun s hs => ⟨.complete hs, row, signed, hrow, hs⟩

theorem bootstrap_refused {tables : StampedTables} {snapshot : MediaSnapshot} {s : FeedState} {e : BuildError}
    (h : FeedScript.bootstrapLocked setup tables snapshot s = ⟨[], s, .error e⟩) :
    FeedScript.bootstrapFirstBaseline setup tables snapshot s = ⟨[], s, .error e⟩ := by
  have hresult : (FeedScript.bootstrapLocked setup tables snapshot s).result = .error e := by rw [h]
  rw [FeedScript.bootstrapFirstBaseline, bind_of_error hresult, h]

theorem blank_refused {tables : StampedTables} {snapshot : MediaSnapshot} {s : FeedState} {e : BuildError}
    (hblank : Blank setup.corpus s) (hpreflight : bootstrapPreflight setup.config.baselineParams tables = .error e) :
    FeedScript.bootstrapFirstBaseline setup tables snapshot s = ⟨[], s, .error e⟩ := by
  have hmedia : s.catalog.latestMediaPackage = none := by simp [Catalog.latestMediaPackage, hblank.no_rows]
  refine bootstrap_refused ?_
  rw [FeedScript.bootstrapLocked, read_bind, hmedia]
  exact check_bind_error hpreflight

theorem published_refused {tables : StampedTables} {snapshot : MediaSnapshot} {s : FeedState}
    (h : FirstPublished setup row signed s) : ∃ e,
    FeedScript.bootstrapFirstBaseline setup tables snapshot s = ⟨[], s, .error e⟩ := by
  obtain ⟨m, hm, _, report, hverify⟩ := h.manifest
  have hserved : ∃ e, FeedScript.refuseServed setup row s = .error e := by
    cases hr : FeedScript.refuseServed setup row s with
    | error e => exact ⟨e, rfl⟩
    | ok _ => simp [FeedScript.refuseServed, verifyPublishedRoot, hm, hverify] at hr
  obtain ⟨e, he⟩ := hserved
  refine ⟨e, bootstrap_refused ?_⟩
  have hclassified := @check_bind_ok BuildError FeedState Unit BootstrapIdentity
    (fun _ => classifyFirstBaselineRow row setup.corpus setup.config.baselineParams)
    (fun _ => Script.check (FeedScript.refuseServed setup row) >>= fun _ => FeedScript.resumeFirstBaseline setup row)
    s () h.canonical
  rw [FeedScript.bootstrapLocked, read_bind, h.latestMedia]
  exact hclassified.trans (check_bind_error he)

end Run

/-- Two configurations that differ in their timestamps only. -/
structure Unchanged (config config' : BootstrapBaselineConfig) : Prop where
  baseline : config'.baselineParams = { config.baselineParams with createdAt := config'.baselineParams.createdAt }
  remote : config'.remoteManifestParams =
    { config.remoteManifestParams with generatedAt := config'.remoteManifestParams.generatedAt }

theorem Unchanged.refl (config : BootstrapBaselineConfig) : Unchanged config config := ⟨rfl, rfl⟩

theorem Unchanged.symm {config config' : BootstrapBaselineConfig} (h : Unchanged config config') :
    Unchanged config' config := by
  constructor
  · rw [h.baseline]
  · rw [h.remote]

def BootstrapSetup.withConfig (setup : BootstrapSetup) (config : BootstrapBaselineConfig) : BootstrapSetup :=
  { setup with config := config }

section Reconfigure

variable {setup : BootstrapSetup} {config : BootstrapBaselineConfig} {row : CatalogRow}
  {signed : Signed EmbeddedManifest} {s : FeedState}

theorem FirstBegun.reconfigure (h : FirstBegun setup row signed s) (hsame : Unchanged setup.config config) :
    FirstBegun (setup.withConfig config) row signed s := by
  obtain ⟨hid, hseq, hkind, hgeneration, hbaseline, hfingerprint, hstatus⟩ := classify_ok_iff.mp h.canonical
  refine ⟨h.only, classify_ok_iff.mpr ⟨hid, hseq, hkind, hgeneration, ?_, ?_, hstatus⟩, h.matched, h.sealed_by⟩
  · rw [hbaseline, BootstrapSetup.withConfig, hsame.baseline]
  · rw [hfingerprint, BootstrapSetup.withConfig, hsame.baseline]

theorem FirstPublished.reconfigure (h : FirstPublished setup row signed s) (hsame : Unchanged setup.config config) :
    FirstPublished (setup.withConfig config) row signed s := by
  obtain ⟨m, hm, hremote, hverify⟩ := h.manifest
  refine ⟨⟨h.toFirstBegun.reconfigure hsame, h.served⟩, h.status, m, hm, hremote, ?_⟩
  rw [BootstrapSetup.withConfig, hsame.remote]
  exact hverify

theorem Unlisted.reconfigure (h : Unlisted setup row signed s) (hsame : Unchanged setup.config config) :
    Unlisted (setup.withConfig config) row signed s :=
  ⟨⟨h.toFirstBegun.reconfigure hsame, h.served⟩, h.no_manifest⟩

theorem BootstrapState.reconfigure (h : BootstrapState setup s) (hsame : Unchanged setup.config config) :
    BootstrapState (setup.withConfig config) s := by
  cases h with
  | blank h => exact .blank h
  | staged h => exact .staged ⟨h.toFirstBegun.reconfigure hsame, h.waiting, h.slot, h.free, h.no_manifest⟩
  | served h => exact .served (h.reconfigure hsame)
  | complete h => exact .complete (h.reconfigure hsame)

end Reconfigure

/-- One run of the bootstrap that may stop anywhere. -/
def BootstrapLeaves (setup : BootstrapSetup) (s t : FeedState) : Prop :=
  ∃ config tables snapshot, Unchanged setup.config config ∧
    (FeedScript.bootstrapFirstBaseline (setup.withConfig config) tables snapshot).Leaves s t

abbrev BootstrapRuns (setup : BootstrapSetup) := Relation.ReflTransGen (BootstrapLeaves setup)

/-- A run publishes the baseline that was begun, if one was, or it is refused and
changes nothing: where a manifest is served already, or where nothing was begun and
the tables do not pass the preflight. -/
structure BootstrapRerun (setup : BootstrapSetup) (config : BootstrapBaselineConfig) (tables : StampedTables)
    (s : FeedState) (r : Ran FeedState BuildError BootstrapBaselineReport) : Prop where
  outcome : ((∃ report, r.result = .ok report) ∧ ∃ row signed, FirstPublished setup row signed r.final ∧
      ∀ earlier ∈ s.catalog, row = earlier.asPublished) ∨
    (∃ e, r.result = .error e) ∧ r.passed = [] ∧ r.final = s ∧ (s.root.manifest ≠ none ∨
      Blank setup.corpus s ∧ ∃ e, bootstrapPreflight config.baselineParams tables = .error e)
  settled : (∃ report, verifyPublishedRoot setup.verifier setup.corpus s.root
    setup.config.remoteManifestParams.uriBase = .ok report) → r.passed = [] ∧ r.final = s

section Recovery

variable {setup : BootstrapSetup} {row : CatalogRow} {signed : Signed EmbeddedManifest} {s t : FeedState}

theorem resumable_publishes (htrust : Trusts setup.verifier setup.env) (tables : StampedTables) (snapshot : MediaSnapshot) :
    Triple (Resumable setup row signed) (FeedScript.bootstrapFirstBaseline setup tables snapshot)
      (fun _ s => ∃ row' signed, row' = row.asPublished ∧ FirstPublished setup row' signed s) (fun _ _ => False)
      (BootstrapState setup) := by
  refine bootstrap_published htrust ?_
  exact (bootstrapLocked_resumes snapshot).weaken (fun _ hs => hs) (fun _ s hs => ⟨_, signed, rfl, hs⟩)
    (fun _ _ he => he) fun _ hs => hs

theorem blank_publishes (htrust : Trusts setup.verifier setup.env) {tables : StampedTables} (snapshot : MediaSnapshot)
    (hpreflight : bootstrapPreflight setup.config.baselineParams tables = .ok ()) :
    Triple (Blank setup.corpus) (FeedScript.bootstrapFirstBaseline setup tables snapshot)
      (fun _ s => ∃ row signed, True ∧ FirstPublished setup row signed s) (fun _ _ => False) (BootstrapState setup) := by
  refine bootstrap_published htrust ?_
  refine (bootstrapLocked_blank snapshot hpreflight).weaken (fun _ hs => hs) ?_ (fun _ _ he => he) fun _ hs => hs
  rintro identity s ⟨row, signed, hs⟩
  exact ⟨row, signed, trivial, hs⟩

/-- From every state of a bootstrap a run is good, and so is every state it can stop in. -/
theorem BootstrapState.rerun (h : BootstrapState setup s) (htrust : Trusts setup.verifier setup.env)
    (tables : StampedTables) (snapshot : MediaSnapshot) :
    BootstrapRerun setup setup.config tables s (FeedScript.bootstrapFirstBaseline setup tables snapshot s) ∧
      ∀ t, (FeedScript.bootstrapFirstBaseline setup tables snapshot).Leaves s t → BootstrapState setup t := by
  have hrefused : ∀ e, FeedScript.bootstrapFirstBaseline setup tables snapshot s = ⟨[], s, .error e⟩ →
      (s.root.manifest ≠ none ∨
        Blank setup.corpus s ∧ ∃ e, bootstrapPreflight setup.config.baselineParams tables = .error e) →
      BootstrapRerun setup setup.config tables s (FeedScript.bootstrapFirstBaseline setup tables snapshot s) ∧
      ∀ t, (FeedScript.bootstrapFirstBaseline setup tables snapshot).Leaves s t → BootstrapState setup t := by
    intro e he hwhen
    refine ⟨?_, fun t ht => ?_⟩
    · rw [he]
      exact ⟨Or.inr ⟨⟨e, rfl⟩, rfl, rfl, hwhen⟩, fun _ => ⟨rfl, rfl⟩⟩
    · rw [Leaves, he] at ht
      rcases ht with rfl | ht | rfl
      · exact h
      · exact absurd ht List.not_mem_nil
      · exact h
  have hresumes : ∀ row signed, Resumable setup row signed s →
      BootstrapRerun setup setup.config tables s (FeedScript.bootstrapFirstBaseline setup tables snapshot s) ∧
      ∀ t, (FeedScript.bootstrapFirstBaseline setup tables snapshot).Leaves s t → BootstrapState setup t := by
    intro row signed hs
    have htriple := @resumable_publishes setup row signed htrust tables snapshot
    refine ⟨⟨Or.inl ?_, ?_⟩, fun t => htriple.leaves hs h⟩
    · obtain ⟨report, hreport, row', signed', rfl, hpublished⟩ := htriple.completes (fun _ _ he => he) hs
      refine ⟨⟨report, hreport⟩, _, signed', hpublished, fun earlier he => ?_⟩
      rw [(hs.begun.1.mem_iff earlier).mp he]
    · rintro ⟨report, hreport⟩
      simp [verifyPublishedRoot, hs.begun.2] at hreport
  cases h with
  | staged h => exact hresumes _ _ (Or.inl h)
  | served h => exact hresumes _ _ (Or.inr h)
  | complete h =>
    obtain ⟨e, he⟩ := @published_refused setup _ _ tables snapshot s h
    obtain ⟨m, hm, -⟩ := h.manifest
    exact hrefused e he (Or.inl (by simp [hm]))
  | blank hblank =>
    cases hpreflight : bootstrapPreflight setup.config.baselineParams tables with
    | error e => exact hrefused e (blank_refused hblank hpreflight) (Or.inr ⟨hblank, e, hpreflight⟩)
    | ok _ =>
      have htriple := blank_publishes htrust snapshot hpreflight
      refine ⟨⟨Or.inl ?_, ?_⟩, fun t => htriple.leaves hblank (.blank hblank)⟩
      · obtain ⟨report, hreport, row, signed, _, hpublished⟩ := htriple.completes (fun _ _ he => he) hblank
        refine ⟨⟨report, hreport⟩, row, signed, hpublished, fun earlier he => ?_⟩
        rw [← Catalog.mem_rows, hblank.no_rows] at he
        exact absurd he List.not_mem_nil
      · rintro ⟨report, hreport⟩
        simp [verifyPublishedRoot, hblank.no_manifest] at hreport

theorem BootstrapLeaves.state (h : BootstrapLeaves setup s t) (htrust : Trusts setup.verifier setup.env)
    (hs : BootstrapState setup s) : BootstrapState setup t := by
  obtain ⟨config, tables, snapshot, hsame, hleaves⟩ := h
  have hnext := ((hs.reconfigure hsame).rerun htrust tables snapshot).2 t hleaves
  exact hnext.reconfigure hsame.symm

theorem BootstrapRuns.state (h : BootstrapRuns setup s t) (htrust : Trusts setup.verifier setup.env)
    (hs : BootstrapState setup s) : BootstrapState setup t := by
  induction h with
  | refl => exact hs
  | tail _ hleaves ih => exact hleaves.state htrust ih

/-- After any number of runs that stopped anywhere, a served remote manifest has
its artifacts behind it, and a further run completes the first baseline or is
refused and changes nothing. -/
theorem bootstrap_recovers (htrust : Trusts setup.verifier setup.env) (hblank : Blank setup.corpus s)
    (hruns : BootstrapRuns setup s t) :
    (∀ m, t.root.manifest = some m → ManifestBacked setup t m) ∧
      ∀ config tables snapshot, Unchanged setup.config config →
        BootstrapRerun setup config tables t
          (FeedScript.bootstrapFirstBaseline (setup.withConfig config) tables snapshot t) := by
  have hstate := hruns.state htrust (.blank hblank)
  refine ⟨fun m hm => ?_, fun config tables snapshot hsame => ?_⟩
  · have hnone : t.root.manifest ≠ none := by simp [hm]
    cases hstate with
    | blank h => exact absurd h.no_manifest hnone
    | staged h => exact absurd h.no_manifest hnone
    | served h => exact absurd h.no_manifest hnone
    | complete h =>
      obtain ⟨m', hm', hbacked⟩ := h.manifest
      obtain rfl : m' = m := Option.some.inj (hm'.symm.trans hm)
      exact hbacked
  · obtain ⟨houtcome, hsettled⟩ := ((hstate.reconfigure hsame).rerun htrust tables snapshot).1
    constructor
    · rcases houtcome with ⟨hok, row, signed, hpublished, hrow⟩ | hrefused
      · exact Or.inl ⟨hok, row, signed, hpublished.reconfigure hsame.symm, hrow⟩
      · exact Or.inr hrefused
    · intro hreport
      refine hsettled ?_
      rw [BootstrapSetup.withConfig, hsame.remote]
      exact hreport

end Recovery

/-- Verifies what `env` signs, and nothing else. -/
def ownVerifier (env : ProducerEnv) : Verifier where
  verifyEmbedded m signature := if signature = env.signEmbedded m then none else some "signature mismatch"
  verifyRemote m signature := if signature = env.signRemote m then none else some "signature mismatch"

theorem ownVerifier_trusts (env : ProducerEnv) : Trusts (ownVerifier env) env :=
  ⟨fun _ => if_pos rfl, fun _ => if_pos rfl⟩

def plainBootstrap : BootstrapSetup where
  env := plainProducer
  verifier := ownVerifier plainProducer
  corpus := coreCorpus
  config := ⟨plainBaseline "2026-01-01T00:00:00Z".toList, windowParams 8⟩

def noStamps : StampedTables := ⟨currentSchemaVersion, [], []⟩

def emptyFeed : FeedState := ⟨Catalog.empty, ServedRoot.empty⟩

theorem bootstrap_insert_passed : 7 < (FeedScript.bootstrapFirstBaseline plainBootstrap noStamps
    (documentsSnapshot "row".toList) emptyFeed).passed.length := by
  decide

/-- The feed of a first run that stops after the insert of its catalog row. -/
def insertedBaseline : FeedState :=
  (FeedScript.bootstrapFirstBaseline plainBootstrap noStamps (documentsSnapshot "row".toList) emptyFeed).passed.get
    ⟨7, bootstrap_insert_passed⟩

theorem bootstrap_recovers_plain :
    BootstrapRerun plainBootstrap plainBootstrap.config noStamps insertedBaseline
      (FeedScript.bootstrapFirstBaseline plainBootstrap noStamps (documentsSnapshot "other".toList)
        insertedBaseline) := by
  have hblank : Blank plainBootstrap.corpus emptyFeed := ⟨rfl, rfl, rfl⟩
  have hleaves : BootstrapLeaves plainBootstrap emptyFeed insertedBaseline :=
    ⟨plainBootstrap.config, noStamps, documentsSnapshot "row".toList, Unchanged.refl _,
      Or.inr (Or.inl (List.get_mem _ _))⟩
  have htrust : Trusts plainBootstrap.verifier plainBootstrap.env := ownVerifier_trusts plainProducer
  exact (bootstrap_recovers htrust hblank (Relation.ReflTransGen.single hleaves)).2 plainBootstrap.config noStamps
    (documentsSnapshot "other".toList) (Unchanged.refl _)

end CorpusFeed
