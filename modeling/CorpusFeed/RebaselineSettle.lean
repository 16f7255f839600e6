import CorpusFeed.FeedRecovery

/-! Settling the slot before a re-baseline: a waiting incremental is published,
and a waiting re-baseline is dropped with its row. The dropped one may already
be served. -/

namespace CorpusFeed

open Script

/-- The rows that a re-baseline builds on. -/
def baseRows (s : FeedState) : List CatalogRow :=
  (s.catalog.rows.filter fun r => !(r.status == .built && r.packageKind == .rebaseline)).map CatalogRow.asPublished

/-- The re-baseline is served while its row is still unpublished. -/
structure Stranded (s : FeedState) (row : CatalogRow) (served : Signed EmbeddedManifest) : Prop where
  member : row ∈ s.catalog
  kind : row.packageKind = .rebaseline
  unpublished : row.status = .built
  served : ∃ dest, s.root.publishedPackageDir row.packageId = some dest ∧ dest.manifest = .whole served

/-- The manifest that a re-baseline from these tables gets. -/
def Rebuilt (env : ProducerEnv) (corpus : Corpus) (params : BaselineParams) (snapshot : MediaSnapshot)
    (s : FeedState) (manifest : EmbeddedManifest) : Prop :=
  ∃ prev counter, (baseRows s).getLast? = some prev ∧
    generationCounterOf corpus.name prev.generation = some counter ∧
    manifest = rebaselineManifest env corpus params snapshot prev counter

structure SameBuild (env : ProducerEnv) (served built : EmbeddedManifest) : Prop where
  payload : served.integrity.artifactSha256 = built.integrity.artifactSha256
  manifest : env.canonicalDigest served = env.canonicalDigest built
  baseline : served.identity.baselineId = built.identity.baselineId
  generation : served.identity.generation = built.identity.generation

section Settle

variable {env : ProducerEnv} {corpus : Corpus} {base : ServedRoot} {dropped : Option Text}
  {records : List CatalogRow} {row : CatalogRow} {s t : FeedState} {E : BuildError → FeedState → Prop}

theorem Numbered.init {rows : List CatalogRow} {n : Nat} (h : Numbered corpus n (rows ++ [row])) :
    Numbered corpus n rows := by
  induction rows generalizing n with
  | nil => trivial
  | cons r rows ih =>
    obtain ⟨hseq, hkind, hid, hcounter, hrest⟩ := h
    exact ⟨hseq, hkind, hid, hcounter, ih hrest⟩

/-- Only the newest row can wait to be published. -/
theorem FeedInvariant.waiting_unique (h : FeedInvariant env corpus base dropped s) (hr : row ∈ s.catalog)
    (hbuilt : row.status = .built) : s.catalog.latestPackage = some row ∧ StagedFor env s row := by
  rcases h.rows row hr with ⟨hpublished, _⟩ | ⟨_, hwaits⟩
  · rw [hpublished] at hbuilt
    cases hbuilt
  · exact hwaits

theorem baseRows_eq_records (hno : ∀ row ∈ s.catalog, row.status = .built → row.packageKind ≠ .rebaseline) :
    baseRows s = s.catalog.records := by
  have hkeep : s.catalog.rows.filter (fun r => !(r.status == .built && r.packageKind == .rebaseline)) =
      s.catalog.rows := by
    refine List.filter_eq_self.mpr fun r hr => ?_
    have hr' := hno r hr
    by_cases hb : r.status = .built <;> simp_all
  rw [baseRows, hkeep]
  rfl

/-- Dropping the waiting re-baseline leaves a settled feed without its row. -/
theorem FeedInvariant.drop (h : FeedInvariant env corpus base none s) (hr : row ∈ s.catalog)
    (hbuilt : row.status = .built) (hk : row.packageKind = .rebaseline)
    (hdropped : ∀ dest, s.root.publishedPackageDir row.packageId = some dest → dropped = some row.packageId) :
    SettledOn env corpus base dropped (baseRows s)
      { s with catalog := s.catalog.deleteUnpublishedPackageRow row.packageId } := by
  obtain ⟨hlatest, _⟩ := h.waiting_unique hr hbuilt
  obtain ⟨init, hrows⟩ := List.getLast?_eq_some_iff.mp hlatest
  have hother : ∀ r ∈ s.catalog, r ≠ row → r.status = .published ∧ ServedRow env s.root r := by
    intro r hmem hne
    rcases h.rows r hmem with hdone | ⟨_, hlast, _⟩
    · exact hdone
    · rw [hlatest, Option.some.injEq] at hlast
      exact absurd hlast.symm hne
  have hmem : ∀ r, r ∈ s.catalog.deleteUnpublishedPackageRow row.packageId ↔ r ∈ s.catalog ∧ r ≠ row := by
    intro r
    rw [← Catalog.mem_rows, Catalog.deleteUnpublishedPackageRow_rows, List.mem_filter, Catalog.mem_rows]
    refine and_congr_right fun hmem => ?_
    by_cases heq : r = row
    · simp [heq, hbuilt]
    · have hpublished := (hother r hmem heq).1
      simp [heq, hpublished]
  have hinit : (s.catalog.deleteUnpublishedPackageRow row.packageId).rows = init := by
    have hdistinct := s.catalog.ordered
    rw [hrows] at hdistinct
    have hne := (List.pairwise_append.mp hdistinct).2.2
    have hkeep : init.filter (fun r => !(r.packageId == row.packageId && r.status == .built)) = init := by
      refine List.filter_eq_self.mpr fun r hinit => ?_
      have hid := (hne r hinit row List.mem_cons_self).2
      simp [hid]
    rw [Catalog.deleteUnpublishedPackageRow_rows, hrows, List.filter_append, hkeep]
    simp [hbuilt]
  have hnumbered := h.numbered
  rw [hrows] at hnumbered
  have hne : init ≠ [] := by
    rintro rfl
    have hfirst := hnumbered.2.1.mpr rfl
    rw [hk] at hfirst
    cases hfirst
  have hdone : ∀ r ∈ s.catalog.deleteUnpublishedPackageRow row.packageId,
      r.status = .published ∧ ServedRow env s.root r := by
    intro r hr'
    obtain ⟨hmem', hne'⟩ := (hmem r).mp hr'
    exact hother r hmem' hne'
  refine ⟨⟨⟨h.kept, ?_, ?_, fun r hr' => Or.inl (hdone r hr'), ?_, ?_, ?_⟩, fun r hr' => (hdone r hr').1⟩, ?_⟩
  · rw [hinit]
    exact hne
  · rw [hinit]
    exact hnumbered.init
  · intro packageId dest hdest
    rcases h.catalogued packageId dest hdest with hnone | ⟨r, hr', hid, hserved⟩
    · cases hnone
    · by_cases heq : r = row
      · subst heq
        exact Or.inl (hid ▸ hdropped dest (hid ▸ hdest))
      · exact Or.inr ⟨r, (hmem r).mpr ⟨hr', heq⟩, hid, hserved⟩
  · exact fun dir signed hd hwhole r hr' hid => h.staged dir signed hd hwhole r ((hmem r).mp hr').1 hid
  · have hstays : ∀ r ∈ s.catalog, r.status = .published →
        r ∈ s.catalog.deleteUnpublishedPackageRow row.packageId := by
      intro r hr' hpublished
      refine (hmem r).mpr ⟨hr', ?_⟩
      rintro rfl
      rw [hbuilt] at hpublished
      cases hpublished
    intro m hm
    obtain ⟨⟨params, r, hr', hpublished, hactive⟩, hpackages⟩ := h.remote m hm
    refine ⟨⟨params, r, hstays r hr' hpublished, hpublished, hactive⟩, fun e he => ?_⟩
    obtain ⟨params, r, hr', hpublished, hentry⟩ := hpackages e he
    exact ⟨params, r, hstays r hr' hpublished, hpublished, hentry⟩
  · refine congrArg (List.map CatalogRow.asPublished) (List.filter_congr fun r hr' => ?_)
    by_cases heq : r = row
    · simp [heq, hbuilt, hk]
    · have hpublished := (hother r hr' heq).1
      have hnot : (CatalogStatus.published == CatalogStatus.built) = false := rfl
      simp [hpublished, hnot]

theorem MatchesRow.kind {signed : Signed EmbeddedManifest} (h : MatchesRow env row signed) :
    signed.payload.identity.packageKind = row.packageKind := by
  have hverified := h.verified
  simp only [verifyCatalogIdentity, rejectIf_ok] at hverified
  exact not_not.mp hverified.2.2.2.1

theorem SettledOn.delete (h : SettledOn env corpus base dropped records s) (packageId : Text) :
    SettledOn env corpus base dropped records
      { s with catalog := s.catalog.deleteUnpublishedPackageRow packageId } := by
  have hsame : s.catalog.deleteUnpublishedPackageRow packageId = s.catalog := by
    have hkeep : s.catalog.rows.filter (fun r => !(r.packageId == packageId && r.status == .built)) =
        s.catalog.rows := List.filter_eq_self.mpr fun r hr => by simp [h.published r hr]
    cases hc : s.catalog
    simp_all [Catalog.deleteUnpublishedPackageRow]
  rw [hsame]
  exact h

/-- Settling a feed in which nothing waits only clears the slot. -/
theorem settleStaged_keeps (htorn : ∀ s, Torn s → ∀ e, E e s) :
    Triple (SettledOn env corpus base none records) (FeedScript.settleStaged corpus)
      (fun _ => SettledOn env corpus base none records) E (FeedInvariant env corpus base none) := by
  have hunsettled : ∀ s, SettledOn env corpus base none records s → Unsettled env corpus base records E s :=
    fun s hs => ⟨hs.toFeedInvariant, hs.same, htorn s⟩
  have hread : Triple (SettledOn env corpus base none records) (Script.check FeedScript.readStagedIdentity)
      (fun _ => SettledOn env corpus base none records) E (FeedInvariant env corpus base none) :=
    Triple.check (fun _ hs => hs.toFeedInvariant) (fun _ hs _ _ => hs)
      fun s hs e he => htorn s (readStagedIdentity_torn he) e
  refine Triple.andThen hread fun staged => ?_
  have hresume : Triple (SettledOn env corpus base none records)
      (FeedScript.resumePending corpus >>= fun _ => pure PUnit.unit) (fun _ => SettledOn env corpus base none records) E (FeedInvariant env corpus base none) :=
    Triple.andThen (resumePending_settles.pre hunsettled) fun _ => Triple.done fun s hs => ⟨hs.toFeedInvariant, hs⟩
  rcases staged with _ | ⟨packageId, kind⟩
  · exact Triple.done fun s hs => ⟨hs.toFeedInvariant, hs⟩
  cases kind with
  | baseline => exact hresume
  | incremental => exact hresume
  | rebaseline =>
    refine Triple.andThen (Q := fun _ => SettledOn env corpus base none records)
      (Triple.write (fun s hs => (hs.delete packageId).toFeedInvariant) fun s hs => hs.delete packageId) fun _ => ?_
    exact cleanSlot_keeps.weaken (fun _ hs => hs) (fun _ _ hs => hs.1) (fun _ _ he => he) fun _ hs => hs

/-- What settling leaves of a feed: the rows to build on, and at most one served
package without a row. -/
structure Resettled (env : ProducerEnv) (corpus : Corpus) (s t : FeedState) (dropped : Option Text) : Prop extends
    SettledOn env corpus s.root dropped (baseRows s) t where
  stranded : ∀ packageId, dropped = some packageId → ∃ row served, Stranded s row served ∧ row.packageId = packageId

theorem FeedInvariant.no_waiting (h : FeedInvariant env corpus base none s)
    (hno : ∀ row ∈ s.catalog, row.status ≠ .built) : SettledOn env corpus base none (baseRows s) s := by
  refine ⟨⟨h, fun row hr => ?_⟩, (baseRows_eq_records fun row hr hbuilt => absurd hbuilt (hno row hr)).symm⟩
  rcases h.rows row hr with ⟨hpublished, _⟩ | ⟨hbuilt, _⟩
  · exact hpublished
  · exact absurd hbuilt (hno row hr)

theorem FeedInvariant.settle_drop (h : FeedInvariant env corpus s.root none s) (hr : row ∈ s.catalog)
    (hbuilt : row.status = .built) (hk : row.packageKind = .rebaseline) :
    ∃ dropped, Resettled env corpus s
      (FeedState.setSlot { s with catalog := s.catalog.deleteUnpublishedPackageRow row.packageId } .pending none)
      dropped := by
  cases hdest : s.root.publishedPackageDir row.packageId with
  | none =>
    have hsettled : SettledOn env corpus s.root none (baseRows s)
        { s with catalog := s.catalog.deleteUnpublishedPackageRow row.packageId } :=
      h.drop hr hbuilt hk fun dest hd => by
        rw [hdest] at hd
        cases hd
    exact ⟨none, hsettled.clear, fun _ hnone => by cases hnone⟩
  | some dest =>
    have hsettled : SettledOn env corpus s.root (some row.packageId) (baseRows s)
        { s with catalog := s.catalog.deleteUnpublishedPackageRow row.packageId } :=
      h.drop hr hbuilt hk fun _ _ => rfl
    refine ⟨some row.packageId, hsettled.clear, fun packageId hsome => ?_⟩
    cases hsome
    rcases h.catalogued row.packageId dest hdest with hnone | ⟨r, hr', hid, dest', served, hdest', hwhole, _⟩
    · cases hnone
    have heq : r = row := Catalog.eq_of_packageId_eq hr' hr hid
    subst heq
    exact ⟨r, served, ⟨hr, hk, hbuilt, dest', hdest', hwhole⟩, rfl⟩

/-- Settling any feed whose slot is not torn. -/
theorem FeedInvariant.resettles (h : FeedInvariant env corpus s.root none s) (htorn : ¬ Torn s) :
    (FeedScript.settleStaged corpus s).result = .ok ⟨⟩ ∧
      ∃ dropped, Resettled env corpus s (FeedScript.settleStaged corpus s).final dropped := by
  have hno : ∀ t, SettledOn env corpus s.root none (baseRows s) t → ∃ dropped, Resettled env corpus s t dropped :=
    fun t ht => ⟨none, ht, fun _ hnone => by cases hnone⟩
  rcases readStagedIdentity_cases s with ⟨ht, _⟩ | ⟨hempty, hread⟩ | ⟨dir, signed, hpending, hwhole, hread⟩
  · exact absurd ht htorn
  · have hcheck : (Script.check FeedScript.readStagedIdentity s).result = .ok none := hread
    have hrun : FeedScript.settleStaged corpus s = ⟨[], s, .ok ⟨⟩⟩ := bind_of_ok hcheck
    rw [hrun]
    refine ⟨rfl, hno s (h.no_waiting fun row hr hbuilt => ?_)⟩
    obtain ⟨_, dir, signed, hpending, hwhole, _⟩ := h.waiting_unique hr hbuilt
    exact hempty dir signed hpending hwhole
  have hslot : ∀ row ∈ s.catalog, row.status = .built → signed.payload.identity.packageId = row.packageId ∧
      signed.payload.identity.packageKind = row.packageKind := by
    intro row hr hbuilt
    obtain ⟨_, dir', signed', hpending', hwhole', hid, hmatch⟩ := h.waiting_unique hr hbuilt
    rw [hpending, Option.some.injEq] at hpending'
    subst hpending'
    rw [hwhole] at hwhole'
    cases hwhole'
    exact ⟨hid, hmatch.kind⟩
  have hcheck : (Script.check FeedScript.readStagedIdentity s).result =
      .ok (some (signed.payload.identity.packageId, signed.payload.identity.packageKind)) := hread
  by_cases hk : signed.payload.identity.packageKind = .rebaseline
  · rw [hk] at hcheck
    have hrun : (FeedScript.settleStaged corpus s).result = .ok ⟨⟩ ∧ (FeedScript.settleStaged corpus s).final =
        FeedState.setSlot { s with catalog :=
          s.catalog.deleteUnpublishedPackageRow signed.payload.identity.packageId } .pending none := by
      rw [FeedScript.settleStaged, bind_of_ok hcheck]
      exact ⟨rfl, rfl⟩
    rw [hrun.1, hrun.2]
    refine ⟨rfl, ?_⟩
    by_cases hw : ∃ row ∈ s.catalog, row.status = .built
    · obtain ⟨row, hr, hbuilt⟩ := hw
      obtain ⟨hid, hkind⟩ := hslot row hr hbuilt
      rw [hid]
      exact h.settle_drop hr hbuilt (hkind.symm.trans hk)
    · have hsettled := h.no_waiting fun row hr hbuilt => hw ⟨row, hr, hbuilt⟩
      exact hno _ (hsettled.delete _).clear
  · have hrows : baseRows s = s.catalog.records := baseRows_eq_records fun row hr hbuilt hkind =>
      hk ((hslot row hr hbuilt).2.trans hkind)
    have hresume : Triple (Unsettled env corpus s.root s.catalog.records fun _ _ => False)
        (FeedScript.resumePending corpus >>= fun _ => pure PUnit.unit)
        (fun _ => SettledOn env corpus s.root none s.catalog.records) (fun _ _ => False)
        (FeedInvariant env corpus s.root none) :=
      Triple.andThen resumePending_settles fun _ => Triple.done fun s hs => ⟨hs.toFeedInvariant, hs⟩
    have hstart : Unsettled env corpus s.root s.catalog.records (fun _ _ => False) s :=
      ⟨h, rfl, fun ht => absurd ht htorn⟩
    obtain ⟨_, hok, hdone⟩ := hresume.completes (fun _ _ hf => hf) hstart
    rw [← hrows] at hdone
    have hrun : FeedScript.settleStaged corpus s =
        (FeedScript.resumePending corpus >>= fun _ => pure PUnit.unit) s := by
      rw [FeedScript.settleStaged, bind_of_ok hcheck]
      cases hkind : signed.payload.identity.packageKind with
      | baseline => rfl
      | incremental => rfl
      | rebaseline => exact absurd hkind hk
    rw [hrun]
    exact ⟨hok, hno _ hdone⟩

theorem FeedInvariant.waiting_split (h : FeedInvariant env corpus base dropped s) (hr : row ∈ s.catalog)
    (hbuilt : row.status = .built) (hk : row.packageKind = .rebaseline) :
    ∃ init, s.catalog.rows = init ++ [row] ∧ baseRows s = init := by
  obtain ⟨hlatest, _⟩ := h.waiting_unique hr hbuilt
  obtain ⟨init, hrows⟩ := List.getLast?_eq_some_iff.mp hlatest
  have hdistinct := s.catalog.ordered
  rw [hrows] at hdistinct
  have hpublished : ∀ r ∈ init, r.status = .published := by
    intro r hinit
    have hmem : r ∈ s.catalog := by
      rw [← Catalog.mem_rows, hrows]
      exact List.mem_append_left _ hinit
    rcases h.rows r hmem with ⟨hpublished, _⟩ | ⟨_, hlast, _⟩
    · exact hpublished
    · rw [hlatest, Option.some.injEq] at hlast
      exact absurd (congrArg CatalogRow.packageId hlast.symm)
        ((List.pairwise_append.mp hdistinct).2.2 r hinit row List.mem_cons_self).2
  have hkeep : init.filter (fun r => !(r.status == .built && r.packageKind == .rebaseline)) = init := by
    refine List.filter_eq_self.mpr fun r hinit => ?_
    have hnot : (CatalogStatus.published == CatalogStatus.built) = false := rfl
    simp [hpublished r hinit, hnot]
  have hsame : init.map CatalogRow.asPublished = init :=
    (List.map_congr_left fun r hinit => asPublished_of_status (hpublished r hinit)).trans (List.map_id' _)
  refine ⟨init, hrows, ?_⟩
  rw [baseRows, hrows, List.filter_append, hkeep]
  simp [hbuilt, hk, hsame]

/-- The stranded row has the id and the sequence of the next re-baseline. -/
theorem Stranded.next {served : Signed EmbeddedManifest} (hstranded : Stranded s row served)
    (h : FeedInvariant env corpus base dropped s) {next : CatalogRow} (hnext : NextRow corpus (baseRows s).length next) :
    row.packageId = next.packageId ∧
      ((baseRows s).length + 1 < 2 ^ 63 → row.packageSequence = next.packageSequence) := by
  obtain ⟨init, hrows, hbase⟩ := h.waiting_split hstranded.member hstranded.unpublished hstranded.kind
  have hnumbered := h.numbered
  rw [hrows] at hnumbered
  obtain ⟨hseq, _, hid, _⟩ := hnumbered.suffix
  rw [hbase] at hnext ⊢
  rw [Nat.zero_add] at hseq hid
  refine ⟨hid.trans hnext.id.symm, fun hroom => ?_⟩
  rw [hseq, hnext.sequence, saturateI64]
  omega

theorem FeedInvariant.stranded_matches {served : Signed EmbeddedManifest}
    (h : FeedInvariant env corpus base none s) (hstranded : Stranded s row served) : MatchesRow env row served := by
  obtain ⟨dest, hdest, hwhole⟩ := hstranded.served
  rcases h.catalogued row.packageId dest hdest with hnone | ⟨r, hr, hid, dest', served', hdest', hwhole', hmatch⟩
  · cases hnone
  have heq : r = row := Catalog.eq_of_packageId_eq hr hstranded.member hid
  subst heq
  rw [hdest, Option.some.injEq] at hdest'
  subst hdest'
  rw [hwhole] at hwhole'
  cases hwhole'
  exact hmatch

/-- The served artifact of a stranded row matches the row of the new build
exactly when it is the same build. -/
theorem MatchesRow.rebuilt_iff {served : Signed EmbeddedManifest} {params : BaselineParams}
    {snapshot : MediaSnapshot} {prev : CatalogRow} {counter : UInt32} (h : MatchesRow env row served)
    (hk : row.packageKind = .rebaseline)
    (hid : row.packageId = (rebaselineRow env corpus params snapshot prev counter).packageId)
    (hseq : row.packageSequence = (rebaselineRow env corpus params snapshot prev counter).packageSequence) :
    MatchesRow env (rebaselineRow env corpus params snapshot prev counter) served ↔
      SameBuild env served.payload (rebaselineManifest env corpus params snapshot prev counter) := by
  have hverified := h.verified_media (by rw [hk]; rfl)
  simp only [verifyCatalogIdentity, rejectIf_ok, ne_eq, not_not] at hverified
  obtain ⟨_, _, hid', hk', _, _, hseq', _⟩ := hverified
  have hkind : (rebaselineRow env corpus params snapshot prev counter).packageKind = .rebaseline := rfl
  constructor
  · intro hmatch
    have hnew := hmatch.verified_media (by rw [hkind]; rfl)
    simp only [verifyCatalogIdentity, rejectIf_ok, ne_eq, not_not] at hnew
    obtain ⟨hpayload, hmanifest, _, _, hbaseline, hgeneration, _⟩ := hnew
    exact ⟨(Option.some.inj hpayload).symm, (Option.some.inj hmanifest).symm, hbaseline, hgeneration⟩
  · intro hsame
    constructor
    · have hnot : ((rebaselineRow env corpus params snapshot prev counter).packageKind == .incremental) = false := rfl
      rw [hnot]
      simp only [verifyCatalogIdentity, rejectIf_ok, ne_eq, not_not]
      refine ⟨congrArg some hsame.payload.symm, congrArg some hsame.manifest.symm, hid'.trans hid,
        hk'.trans hk, hsame.baseline, hsame.generation, hseq'.trans hseq, ?_, ?_, trivial⟩
      · simp
      · simp
    · exact h.sequence.trans hseq

end Settle

end CorpusFeed
