import CorpusFeed.FeedPublish

/-! The package builders on a settled feed: the package they stage follows the
newest catalogued one, and it matches the row they insert for it. -/

namespace CorpusFeed

open Script

section Builders

variable {env : ProducerEnv} {corpus : Corpus} {base : ServedRoot} {dropped : Option Text}
  {records : List CatalogRow} {prev : CatalogRow} {s : FeedState} {E : BuildError → FeedState → Prop}

theorem SettledOn.rows_eq (h : SettledOn env corpus base dropped records s) : s.catalog.rows = records :=
  h.toSettled.records_eq.symm.trans h.same

theorem SettledOn.numbered_records (h : SettledOn env corpus base dropped records s) :
    Numbered corpus 0 records ∧ records ≠ [] :=
  h.rows_eq ▸ ⟨h.numbered, h.nonempty⟩

theorem SettledOn.uncatalogued (h : SettledOn env corpus base dropped records s) (start : Nat) :
    Uncatalogued records (packageIdOf corpus start (records.length + 1)) := by
  have hfresh := Catalog.fresh_id h.numbered start
  rw [h.rows_eq] at hfresh
  exact hfresh

theorem SettledOn.head (h : SettledOn env corpus base dropped records s) (hl : s.catalog.latestPackage = some prev) :
    records.getLast? = some prev ∧ prev.packageSequence.toNat = records.length ∧ 0 < records.length ∧
      (generationCounterOf corpus.name prev.generation).isSome = true := by
  have hlast : records.getLast? = some prev := h.rows_eq ▸ hl
  have hseq := h.numbered_records.1.last hlast
  obtain ⟨_, _, _, _, _, hcounter⟩ := h.numbered_records.1.mem (List.mem_of_getLast? hlast)
  exact ⟨hlast, by omega, List.length_pos_iff.mpr h.numbered_records.2, hcounter⟩

theorem incremental_matches (params : IncrementalParams) (snapshot : IncrementalSnapshot) (ops : List PayloadOp)
    (hroom : prev.packageSequence.toNat + 1 < 2 ^ 63) :
    MatchesRow env (incrementalRow env params snapshot prev (incrementalManifest env corpus params snapshot prev ops))
      (sealManifest env (incrementalManifest env corpus params snapshot prev ops)) := by
  constructor
  · simp only [verifyCatalogIdentity, rejectIf_ok]
    simp [sealManifest, incrementalRow, incrementalManifest]
  · simp only [sealManifest, incrementalRow, incrementalManifest, saturateI64]
    omega

theorem SettledOn.next_incremental (h : SettledOn env corpus base dropped records s)
    (hl : s.catalog.latestPackage = some prev) (params : IncrementalParams) (snapshot : IncrementalSnapshot)
    (ops : List PayloadOp) :
    NextRow corpus records.length
      (incrementalRow env params snapshot prev (incrementalManifest env corpus params snapshot prev ops)) := by
  obtain ⟨_, hseq, hpos, hcounter⟩ := h.head hl
  have hmax : max records.length 1 = records.length := by omega
  constructor
  · simp only [incrementalRow, incrementalManifest, hseq, hmax]
  · simp only [incrementalRow, incrementalManifest, hseq]
  · simp [incrementalRow]
  · simp only [incrementalRow]
    exact hcounter
  · rfl

theorem incrementalWindow_latest {params : IncrementalParams} {snapshot : IncrementalSnapshot}
    {ops : List PayloadOp} (h : incrementalWindow corpus params snapshot s = .ok (some (prev, ops))) :
    s.catalog.latestPackage = some prev := by
  unfold incrementalWindow at h
  split at h
  · cases h
  next latest hlatest =>
  rw [rejectIf_ok, rejectIf_ok, rejectIf_ok] at h
  obtain ⟨_, _, _, h⟩ := h
  split at h
  · cases h
  · cases h
  · cases h
    exact hlatest

/-- What building an incremental leaves: nothing to publish, or its row. -/
def Built (env : ProducerEnv) (corpus : Corpus) (base : ServedRoot) (records : List CatalogRow)
    (built : Option Text) (s : FeedState) : Prop :=
  match built with
  | none => SettledOn env corpus base none records s
  | some packageId => ∃ row, ∃ _ : row.packageId = packageId,
      Ready env corpus base none (records ++ [row.asPublished]) row s

theorem buildIncremental_built (params : IncrementalParams) (snapshot : IncrementalSnapshot)
    (hwindow : ∀ s, SettledOn env corpus base none records s →
      ∀ e, incrementalWindow corpus params snapshot s = .error e → E e s)
    (hfull : 2 ^ 63 ≤ records.length + 1 → ∀ e s, SettledOn env corpus base none records s → E e s) :
    Triple (SettledOn env corpus base none records) (FeedScript.buildIncremental env corpus params snapshot)
      (Built env corpus base records) E (FeedInvariant env corpus base none) := by
  refine Triple.andThen (Q := fun window s => SettledOn env corpus base none records s ∧
    incrementalWindow corpus params snapshot s = .ok window) ?_ fun window => ?_
  · exact Triple.check (fun s hs => hs.toFeedInvariant) (fun s hs a ha => ⟨hs, ha⟩) hwindow
  rcases window with _ | ⟨prev, ops⟩
  · exact Triple.done fun s hs => ⟨hs.1.toFeedInvariant, hs.1⟩
  let manifest := incrementalManifest env corpus params snapshot prev ops
  let row := incrementalRow env params snapshot prev manifest
  have hlinked : ∀ s, SettledOn env corpus base none records s ∧
      incrementalWindow corpus params snapshot s = .ok (some (prev, ops)) →
      ∃ _ : NextRow corpus records.length row ∧ Uncatalogued records manifest.identity.packageId ∧
        (records.length + 1 < 2 ^ 63 → MatchesRow env row (sealManifest env manifest)),
        SettledOn env corpus base none records s := by
    intro s hs
    obtain ⟨hs, hok⟩ := hs
    have hlatest := incrementalWindow_latest hok
    obtain ⟨_, hseq, _, _⟩ := hs.head hlatest
    refine ⟨⟨hs.next_incremental hlatest params snapshot ops, ?_, fun hroom => ?_⟩, hs⟩
    · have hfresh := hs.uncatalogued records.length
      simpa only [manifest, incrementalManifest, hseq] using hfresh
    · exact incremental_matches params snapshot ops (hseq ▸ hroom)
  refine Triple.pre (Triple.given fun hlink => ?_) hlinked
  obtain ⟨hnext, hfresh, hmatch⟩ := hlink
  refine Triple.andThen (Triple.weaken (stageArtifact_settled hfresh) (fun _ hs => hs) (fun _ _ hs => hs)
    (fun _ _ he => he) fun _ hs => hs.toFeedInvariant) fun _ => ?_
  refine Triple.andThen (insertRow_ready hnext rfl hmatch hfull) fun _ => ?_
  exact Triple.done fun s hs => ⟨hs.2.toFeedInvariant, row, rfl, hs.2⟩

theorem rebaselineHead_ok {params : BaselineParams} {spec : MediaSpec}
    (h : rebaselineHead corpus params s = .ok spec) :
    ∃ prev counter, s.catalog.latestPackage = some prev ∧
      generationCounterOf corpus.name prev.generation = some counter ∧
      spec = rebaselineSpec corpus params prev counter := by
  unfold rebaselineHead at h
  split at h
  · cases h
  next prev hprev =>
  split at h
  · cases h
  next counter hcounter =>
  cases h
  exact ⟨prev, counter, hprev, hcounter, rfl⟩

/-- The manifest and the row of a re-baseline over `prev`. -/
def rebaselineManifest (env : ProducerEnv) (corpus : Corpus) (params : BaselineParams) (snapshot : MediaSnapshot)
    (prev : CatalogRow) (counter : UInt32) : EmbeddedManifest :=
  mediaManifest env corpus params snapshot (rebaselineSpec corpus params prev counter)

def rebaselineRow (env : ProducerEnv) (corpus : Corpus) (params : BaselineParams) (snapshot : MediaSnapshot)
    (prev : CatalogRow) (counter : UInt32) : CatalogRow :=
  mediaRow env params snapshot (rebaselineSpec corpus params prev counter)
    (rebaselineManifest env corpus params snapshot prev counter)

theorem rebaseline_matches (params : BaselineParams) (snapshot : MediaSnapshot) (counter : UInt32)
    (hroom : prev.packageSequence.toNat + 1 < 2 ^ 63) :
    MatchesRow env (rebaselineRow env corpus params snapshot prev counter)
      (sealManifest env (rebaselineManifest env corpus params snapshot prev counter)) := by
  constructor
  · simp only [verifyCatalogIdentity, rejectIf_ok]
    simp [sealManifest, rebaselineRow, rebaselineManifest, mediaRow, mediaManifest, rebaselineSpec]
  · simp only [sealManifest, rebaselineRow, rebaselineManifest, mediaRow, mediaManifest, rebaselineSpec, saturateI64]
    omega

theorem SettledOn.next_rebaseline (h : SettledOn env corpus base dropped records s)
    (hl : s.catalog.latestPackage = some prev) (params : BaselineParams) (snapshot : MediaSnapshot)
    (counter : UInt32) : NextRow corpus records.length (rebaselineRow env corpus params snapshot prev counter) := by
  obtain ⟨_, hseq, hpos, _⟩ := h.head hl
  have hmax : max records.length 1 = records.length := by omega
  constructor
  · simp only [rebaselineRow, mediaRow, rebaselineSpec, hseq, hmax]
  · simp only [rebaselineRow, mediaRow, rebaselineSpec, hseq]
  · simp [rebaselineRow, mediaRow, rebaselineSpec]
  · simp [rebaselineRow, mediaRow, rebaselineSpec, generationCounterOf_generationName]
  · rfl

/-- The row that a re-baseline build leaves ready. -/
structure RebaselineReady (env : ProducerEnv) (corpus : Corpus) (base : ServedRoot) (dropped : Option Text)
    (records : List CatalogRow) (params : BaselineParams) (snapshot : MediaSnapshot) (prev : CatalogRow)
    (counter : UInt32) (s : FeedState) : Prop extends
    Ready env corpus base dropped (records ++ [(rebaselineRow env corpus params snapshot prev counter).asPublished])
      (rebaselineRow env corpus params snapshot prev counter) s where
  room : records.length + 1 < 2 ^ 63
  follows : records.getLast? = some prev
  counted : generationCounterOf corpus.name prev.generation = some counter

theorem buildRebaseline_ready (params : BaselineParams) (snapshot : MediaSnapshot)
    (hfull : 2 ^ 63 ≤ records.length + 1 → ∀ e s, SettledOn env corpus base dropped records s → E e s) :
    Triple (SettledOn env corpus base dropped records)
      (FeedScript.buildRebaseline env corpus .pending params snapshot)
      (fun spec s => ∃ prev counter, ∃ _ : spec = rebaselineSpec corpus params prev counter,
        RebaselineReady env corpus base dropped records params snapshot prev counter s) E
      (FeedInvariant env corpus base dropped) := by
  refine Triple.andThen (Q := fun spec s => ∃ prev counter, ∃ _ : (s : FeedState) → SettledOn env corpus base
      dropped records s → s.catalog.latestPackage = some prev, ∃ _ : generationCounterOf corpus.name prev.generation =
      some counter ∧ spec = rebaselineSpec corpus params prev counter, SettledOn env corpus base dropped records s)
    ?_ fun spec => ?_
  · refine Triple.check (fun s hs => hs.toFeedInvariant) (fun s hs spec hspec => ?_) fun s hs e he => ?_
    · obtain ⟨prev, counter, hlatest, hcounter, hspec⟩ := rebaselineHead_ok hspec
      refine ⟨prev, counter, fun s' hs' => ?_, ⟨hcounter, hspec⟩, hs⟩
      rw [Catalog.latestPackage, hs'.rows_eq, ← hs.rows_eq]
      exact hlatest
    · obtain ⟨latest, hlatest⟩ : ∃ latest, s.catalog.latestPackage = some latest :=
        ⟨_, List.getLast?_eq_some_getLast hs.nonempty⟩
      obtain ⟨_, _, _, hcounter⟩ := hs.head hlatest
      obtain ⟨counter, hcounter⟩ := Option.isSome_iff_exists.mp hcounter
      simp [rebaselineHead, hlatest, hcounter] at he
  refine Triple.given fun prev => Triple.given fun counter => Triple.given fun hlatest => Triple.given fun hspec => ?_
  obtain ⟨hcounter, rfl⟩ := hspec
  let row := rebaselineRow env corpus params snapshot prev counter
  let manifest := rebaselineManifest env corpus params snapshot prev counter
  have hlinked : ∀ s, SettledOn env corpus base dropped records s →
      ∃ _ : NextRow corpus records.length row ∧ Uncatalogued records manifest.identity.packageId ∧
        (records.length + 1 < 2 ^ 63 → MatchesRow env row (sealManifest env manifest)) ∧
        records.getLast? = some prev, SettledOn env corpus base dropped records s := by
    intro s hs
    obtain ⟨hlast, hseq, _, _⟩ := hs.head (hlatest s hs)
    refine ⟨⟨hs.next_rebaseline (hlatest s hs) params snapshot counter, ?_, fun hroom => ?_, hlast⟩, hs⟩
    · have hfresh := hs.uncatalogued records.length
      simpa only [manifest, rebaselineManifest, mediaManifest, rebaselineSpec, hseq] using hfresh
    · exact rebaseline_matches params snapshot counter (hseq ▸ hroom)
  refine Triple.pre (Triple.given fun hlink => ?_) hlinked
  obtain ⟨hnext, hfresh, hmatch, hlast⟩ := hlink
  have hmedia : Triple (SettledOn env corpus base dropped records)
      (FeedScript.buildMediaPackage env corpus .pending params snapshot (rebaselineSpec corpus params prev counter))
      (fun _ s => records.length + 1 < 2 ^ 63 ∧ Ready env corpus base dropped (records ++ [row.asPublished]) row s) E
      (FeedInvariant env corpus base dropped) := by
    refine Triple.andThen (Triple.weaken (stageArtifact_settled hfresh) (fun _ hs => hs) (fun _ _ hs => hs)
      (fun _ _ he => he) fun _ hs => hs.toFeedInvariant) fun _ => ?_
    exact insertRow_ready hnext rfl hmatch hfull
  refine Triple.andThen hmedia fun _ => ?_
  exact Triple.done fun s hs => ⟨hs.2.toFeedInvariant, prev, counter, rfl, hs.2, hs.1, hlast, hcounter⟩

/-- The first baseline and the feed that serves nothing else. -/
def firstManifest (env : ProducerEnv) (corpus : Corpus) (params : BaselineParams) (snapshot : MediaSnapshot) :
    EmbeddedManifest :=
  mediaManifest env corpus params snapshot (firstBaselineSpec corpus params)

def firstRow (env : ProducerEnv) (corpus : Corpus) (params : BaselineParams) (snapshot : MediaSnapshot) : CatalogRow :=
  mediaRow env params snapshot (firstBaselineSpec corpus params) (firstManifest env corpus params snapshot)

def firstFeed (env : ProducerEnv) (corpus : Corpus) (params : BaselineParams) (snapshot : MediaSnapshot) :
    FeedState where
  catalog := ⟨[(firstRow env corpus params snapshot).asPublished], List.pairwise_singleton _ _⟩
  root := { ServedRoot.empty with
    packages := ServedRoot.empty.packages.upsert (packageIdOf corpus 1 1,
      ⟨.whole (sealManifest env (firstManifest env corpus params snapshot)), mediaFiles snapshot⟩) }

theorem first_matches (params : BaselineParams) (snapshot : MediaSnapshot) :
    MatchesRow env (firstRow env corpus params snapshot)
      (sealManifest env (firstManifest env corpus params snapshot)) := by
  constructor
  · simp only [verifyCatalogIdentity, rejectIf_ok]
    simp [sealManifest, firstRow, firstManifest, mediaRow, mediaManifest, firstBaselineSpec]
  · simp only [sealManifest, firstRow, firstManifest, mediaRow, mediaManifest, firstBaselineSpec, saturateI64]
    omega

theorem firstFeed_settled (params : BaselineParams) (snapshot : MediaSnapshot) :
    Settled env corpus (firstFeed env corpus params snapshot).root none (firstFeed env corpus params snapshot) := by
  let row := (firstRow env corpus params snapshot).asPublished
  have hmem : ∀ r, r ∈ (firstFeed env corpus params snapshot).catalog ↔ r = row := fun r => List.mem_singleton
  have hdir : ∀ packageId dir, (firstFeed env corpus params snapshot).root.publishedPackageDir packageId = some dir →
      packageId = packageIdOf corpus 1 1 := by
    intro packageId dir hd
    by_contra hne
    simp only [firstFeed] at hd
    rw [publishedPackageDir_upsert, if_neg hne] at hd
    cases hd
  have hserved : ServedRow env (firstFeed env corpus params snapshot).root row := by
    refine ⟨⟨.whole (sealManifest env (firstManifest env corpus params snapshot)), mediaFiles snapshot⟩, _, ?_, rfl,
      ⟨(first_matches params snapshot).verified, (first_matches params snapshot).sequence⟩⟩
    simp only [firstFeed]
    rw [publishedPackageDir_upsert]
    exact if_pos rfl
  refine ⟨⟨fun _ _ h => h, by simp [firstFeed], ?_, ?_, ?_, ?_, ?_⟩, ?_⟩
  · refine ⟨?_, ?_, rfl, ?_, trivial⟩
    · simp only [CatalogRow.asPublished, firstRow, mediaRow, firstBaselineSpec, saturateI64]
      omega
    · simp [CatalogRow.asPublished, firstRow, mediaRow, firstBaselineSpec]
    · simp [CatalogRow.asPublished, firstRow, mediaRow, firstBaselineSpec, generationCounterOf_generationName]
  · intro r hr
    rw [(hmem r).mp hr]
    exact Or.inl ⟨rfl, hserved⟩
  · intro packageId dir hd
    exact Or.inr ⟨row, (hmem row).mpr rfl, (hdir packageId dir hd).symm, hserved⟩
  · intro dir signed hd
    cases hd
  · intro m hm
    cases hm
  · intro r hr
    rw [(hmem r).mp hr]
    rfl

end Builders

end CorpusFeed
