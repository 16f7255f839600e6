import CorpusFeed.RebaselineSettle

/-! Re-baseline cycles that stop anywhere. A later cycle drops the unfinished
re-baseline and builds it again under the same id. That succeeds unless the
staged manifest is torn, or the unfinished one was already served with other
content. -/

namespace CorpusFeed

open Script

/-- The run published a re-baseline from its own tables, the served artifact
matches its row, and the builder accepts the feed. -/
def Rebaselined (env : ProducerEnv) (corpus : Corpus) (config : RebaselineCycleConfig) (snapshot : MediaSnapshot)
    (s : FeedState) (r : Ran FeedState BuildError RebaselineCycleReport) : Prop :=
  ∃ report prev counter, r.result = .ok report ∧ (baseRows s).getLast? = some prev ∧
    generationCounterOf corpus.name prev.generation = some counter ∧
    r.final.catalog.rows =
      baseRows s ++ [(rebaselineRow env corpus config.baselineParams snapshot prev counter).asPublished] ∧
    ServedRow env r.final.root (rebaselineRow env corpus config.baselineParams snapshot prev counter).asPublished ∧
    Current env config.remoteManifestParams corpus r.final

section Rebaseline

variable {env : ProducerEnv} {corpus : Corpus} {base : ServedRoot} {dropped : Option Text}
  {records : List CatalogRow} {s t : FeedState} {E : BuildError → FeedState → Prop}
  {config : RebaselineCycleConfig} {snapshot : MediaSnapshot}

/-- A new re-baseline is published when nothing else is served under its id. -/
theorem freshRebaseline_publishes (config : RebaselineCycleConfig) (snapshot : MediaSnapshot)
    (hdrop : ∀ prev counter, records.getLast? = some prev →
      generationCounterOf corpus.name prev.generation = some counter →
      dropped = some (rebaselineRow env corpus config.baselineParams snapshot prev counter).packageId →
      ServedRow env base (rebaselineRow env corpus config.baselineParams snapshot prev counter))
    (hfull : 2 ^ 63 ≤ records.length + 1 → ∀ e s, SettledOn env corpus base dropped records s → E e s) :
    Triple (SettledOn env corpus base dropped records) (FeedScript.freshRebaseline env corpus config snapshot)
      (fun _ s => ∃ prev counter, records.getLast? = some prev ∧
        generationCounterOf corpus.name prev.generation = some counter ∧
        s.catalog.rows =
          records ++ [(rebaselineRow env corpus config.baselineParams snapshot prev counter).asPublished] ∧
        ServedRow env s.root (rebaselineRow env corpus config.baselineParams snapshot prev counter).asPublished ∧
        Current env config.remoteManifestParams corpus s) E
      (FeedInvariant env corpus base dropped) := by
  refine Triple.andThen cleanSlot_keeps fun _ => ?_
  have hcreate : Triple (SettledOn env corpus base dropped records) (FeedScript.createSlot .pending)
      (fun _ => SettledOn env corpus base dropped records) E (FeedInvariant env corpus base dropped) :=
    createSlot_settled.weaken (fun _ hs => hs) (fun _ _ hs => hs) (fun _ _ he => he) fun _ hs => hs.toFeedInvariant
  refine Triple.andThen (hcreate.pre fun s hs => hs.1) fun _ => ?_
  refine Triple.andThen (buildRebaseline_ready config.baselineParams snapshot hfull) fun spec => ?_
  refine Triple.given fun prev => Triple.given fun counter => Triple.given fun hspec => ?_
  subst hspec
  let row := rebaselineRow env corpus config.baselineParams snapshot prev counter
  have hknown : ∀ s, RebaselineReady env corpus base dropped records config.baselineParams snapshot prev counter s →
      ∃ _ : records.getLast? = some prev ∧ generationCounterOf corpus.name prev.generation = some counter,
        Ready env corpus base dropped (records ++ [row.asPublished]) row s :=
    fun s hs => ⟨⟨hs.follows, hs.counted⟩, hs.toReady⟩
  refine Triple.pre (Triple.given fun hlast => ?_) hknown
  obtain ⟨hlast, hcounter⟩ := hlast
  have hpublish : Triple (Ready env corpus base dropped (records ++ [row.asPublished]) row)
      (FeedScript.publishStaged corpus .pending row.packageId)
      (fun _ s => SettledOn env corpus base dropped (records ++ [row.asPublished]) s ∧ s.root.pending = none) E
      (FeedInvariant env corpus base dropped) := publishStaged_ready (hdrop prev counter hlast hcounter)
  refine Triple.andThen hpublish fun _ => ?_
  refine Triple.andThen ((publishFeed_current config.remoteManifestParams).pre fun s hs => hs.1) fun _ => ?_
  refine Triple.andThen (Q := fun _ s => SettledOn env corpus base dropped (records ++ [row.asPublished]) s ∧
    Current env config.remoteManifestParams corpus s) ?_ fun head => ?_
  · exact Triple.read (fun s hs => hs.1.toFeedInvariant) fun s hs => hs
  · refine Triple.done fun s hs => ⟨hs.1.toFeedInvariant, prev, counter, hlast, hcounter, hs.1.rows_eq, ?_, hs.2⟩
    refine hs.1.toSettled.served row.asPublished ?_
    rw [← Catalog.mem_rows, hs.1.rows_eq]
    exact List.mem_append_right records (List.mem_singleton.mpr rfl)

/-- Nothing that `base` serves has changed, and the catalog is known. -/
structure Holds (base : ServedRoot) (records : List CatalogRow) (s : FeedState) : Prop where
  kept : ∀ packageId dir, base.publishedPackageDir packageId = some dir →
    s.root.publishedPackageDir packageId = some dir
  same : s.catalog.records = records

theorem publishStaged_holds (packageId : Text) :
    Triple (Holds base records) (FeedScript.publishStaged corpus .pending packageId)
      (fun _ => Holds base records) (fun _ _ => True) (fun _ => True) := by
  refine Triple.andThen (Q := fun _ => Holds base records) ?_ fun _ => ?_
  · refine Triple.tryWrite (fun _ _ => trivial) (fun s hs t ht => ⟨trivial, ?_⟩) fun _ _ _ _ => trivial
    split at ht
    · cases ht
    next dir hdir =>
    split at ht
    · cases ht
    next root hroot =>
    cases ht
    rcases publishPackage_cases hroot with ⟨hfree, rfl⟩ | ⟨rfl, _⟩
    · refine ⟨fun other d hd => ?_, hs.same⟩
      have hd := hs.kept other d hd
      rw [publishedPackageDir_upsert]
      by_cases heq : other = packageId
      · rw [heq, hfree] at hd
        cases hd
      · rw [if_neg heq]
        exact hd
    · exact hs
  refine Triple.andThen (Q := fun _ => Holds base records) ?_ fun _ => ?_
  · refine Triple.tryWrite (fun _ _ => trivial) (fun s hs t ht => ⟨trivial, ?_⟩) fun _ _ _ _ => trivial
    split at ht
    · cases ht
    next catalog hmark =>
    cases ht
    exact ⟨hs.kept, (Catalog.records_mark (Catalog.markPackagePublished_cases hmark)).trans hs.same⟩
  refine Triple.andThen (Q := fun _ => Holds base records) ?_ fun _ => ?_
  · exact Triple.mayLeave (fun _ _ => trivial) (fun _ _ _ _ => trivial) fun _ hs => hs
  · exact Triple.write (fun _ _ => trivial) fun s hs => ⟨hs.kept, hs.same⟩

theorem publishFeed_holds (params : RemoteManifestParams) :
    Triple (Holds base records) (FeedScript.publishFeed env params corpus)
      (fun _ => Holds base records) (fun _ _ => True) (fun _ => True) := by
  refine Triple.andThen (Q := fun _ => Holds base records) ?_ fun _ => ?_
  · exact Triple.check (fun _ _ => trivial) (fun _ hs _ _ => hs) fun _ _ _ _ => trivial
  · exact Triple.write (fun _ _ => trivial) fun s hs => ⟨hs.kept, hs.same⟩

/-- A new re-baseline that returns has its row over the old ones, and has not
changed what was served. -/
theorem freshRebaseline_holds (config : RebaselineCycleConfig) (snapshot : MediaSnapshot) :
    Triple (SettledOn env corpus base dropped records) (FeedScript.freshRebaseline env corpus config snapshot)
      (fun _ s => ∃ prev counter, ∃ _ : records.length + 1 < 2 ^ 63 ∧ records.getLast? = some prev ∧
        generationCounterOf corpus.name prev.generation = some counter,
        Holds base (records ++ [(rebaselineRow env corpus config.baselineParams snapshot prev counter).asPublished]) s)
      (fun _ _ => True) (fun _ => True) := by
  refine Triple.andThen (Triple.onReturn (E := fun _ _ => True) cleanSlot_keeps) fun _ => ?_
  have hcreate : Triple (SettledOn env corpus base dropped records) (FeedScript.createSlot .pending)
      (fun _ => SettledOn env corpus base dropped records) (fun _ _ => True) (Settled env corpus base dropped) :=
    createSlot_settled
  refine Triple.andThen (hcreate.onReturn.pre fun s hs => hs.1) fun _ => ?_
  refine Triple.andThen (Triple.onReturn (E := fun _ _ => True)
    (buildRebaseline_ready config.baselineParams snapshot fun _ _ _ _ => trivial)) fun spec => ?_
  refine Triple.given fun prev => Triple.given fun counter => Triple.given fun hspec => ?_
  subst hspec
  let row := rebaselineRow env corpus config.baselineParams snapshot prev counter
  have hknown : ∀ s, RebaselineReady env corpus base dropped records config.baselineParams snapshot prev counter s →
      ∃ _ : records.length + 1 < 2 ^ 63 ∧ records.getLast? = some prev ∧
        generationCounterOf corpus.name prev.generation = some counter,
        Holds base (records ++ [row.asPublished]) s :=
    fun s hs => ⟨⟨hs.room, hs.follows, hs.counted⟩, hs.kept, hs.same⟩
  refine Triple.pre (Triple.given fun hfacts => ?_) hknown
  refine Triple.andThen (publishStaged_holds _) fun _ => ?_
  refine Triple.andThen (publishFeed_holds config.remoteManifestParams) fun _ => ?_
  refine Triple.andThen (Q := fun _ => Holds base (records ++ [row.asPublished])) ?_ fun head => ?_
  · exact Triple.read (fun _ _ => trivial) fun _ hs => hs
  · exact Triple.done fun s hs => ⟨trivial, prev, counter, hfacts, hs⟩

theorem rebaselineCycle_torn (h : Torn s) : FeedScript.rebaselineCycle env corpus config snapshot s =
    ⟨[], s, .error (.json "EOF while parsing a value")⟩ := by
  obtain ⟨dir, hpending, hmanifest⟩ := h
  have hcheck : (Script.check FeedScript.readStagedIdentity s).result =
      .error (.json "EOF while parsing a value") := by
    have hread : FeedScript.readStagedIdentity s = .error (.json "EOF while parsing a value") := by
      simp [FeedScript.readStagedIdentity, hpending, hmanifest]
    exact hread
  have hsettle : FeedScript.settleStaged corpus s = ⟨[], s, .error (.json "EOF while parsing a value")⟩ :=
    bind_of_error hcheck
  have hresult : (FeedScript.settleStaged corpus s).result = .error (.json "EOF while parsing a value") := by
    rw [hsettle]
  rw [FeedScript.rebaselineCycle, bind_of_error hresult, hsettle]

/-- A cycle over a settled feed keeps the invariant wherever it stops. -/
theorem rebaselineCycle_leaves (hs : Settled env corpus base none s)
    (hleaves : (FeedScript.rebaselineCycle env corpus config snapshot).Leaves s t) :
    FeedInvariant env corpus base none t := by
  have hcycle : Triple (SettledOn env corpus base none s.catalog.records)
      (FeedScript.rebaselineCycle env corpus config snapshot) _ (fun _ _ => True)
      (FeedInvariant env corpus base none) :=
    Triple.andThen (settleStaged_keeps fun _ _ _ => trivial) fun _ =>
      freshRebaseline_publishes config snapshot (fun _ _ _ _ hnone => by cases hnone) fun _ _ _ _ => trivial
  exact hcycle.leaves ⟨hs, rfl⟩ hs.toFeedInvariant hleaves

/-- A later cycle recovers from any state of the feed exactly when the slot is
not torn, a sequence is left, and a stranded re-baseline is built again alike. -/
theorem FeedInvariant.rebaselined_iff (h : FeedInvariant env corpus s.root none s) :
    Rebaselined env corpus config snapshot s (FeedScript.rebaselineCycle env corpus config snapshot s) ↔
      ¬ Torn s ∧ (baseRows s).length + 1 < 2 ^ 63 ∧ ∀ row served, Stranded s row served →
        ∃ built, Rebuilt env corpus config.baselineParams snapshot s built ∧ SameBuild env served.payload built := by
  by_cases htorn : Torn s
  · refine iff_of_false ?_ fun hnot => hnot.1 htorn
    rintro ⟨report, _, _, hok, _⟩
    rw [rebaselineCycle_torn htorn] at hok
    cases hok
  obtain ⟨hsettle, dropped, hresettled⟩ := h.resettles htorn
  have hrun := bind_of_ok (f := fun _ => FeedScript.freshRebaseline env corpus config snapshot) hsettle
  have hcycle : (FeedScript.rebaselineCycle env corpus config snapshot s).result =
      (FeedScript.freshRebaseline env corpus config snapshot (FeedScript.settleStaged corpus s).final).result ∧
      (FeedScript.rebaselineCycle env corpus config snapshot s).final =
      (FeedScript.freshRebaseline env corpus config snapshot (FeedScript.settleStaged corpus s).final).final := by
    rw [FeedScript.rebaselineCycle, hrun]
    exact ⟨rfl, rfl⟩
  have hlatest : ∀ prev, (baseRows s).getLast? = some prev →
      (FeedScript.settleStaged corpus s).final.catalog.latestPackage = some prev := fun prev hlast =>
    (congrArg List.getLast? hresettled.rows_eq).trans hlast
  constructor
  · rintro ⟨report, prev, counter, hok, hlast, hcounter, hrows, hserved, _⟩
    rw [hcycle.1] at hok
    rw [hcycle.2] at hserved
    obtain ⟨_, _, hroom, hholds⟩ := (freshRebaseline_holds config snapshot).returns _
      hresettled.toSettledOn report hok
    refine ⟨htorn, hroom.1, fun row served hstranded => ?_⟩
    have hnext : NextRow corpus (baseRows s).length
        (rebaselineRow env corpus config.baselineParams snapshot prev counter) :=
      hresettled.next_rebaseline (hlatest prev hlast) config.baselineParams snapshot counter
    obtain ⟨hid, hseq⟩ := hstranded.next h hnext
    obtain ⟨dest, hdest, hwhole⟩ := hstranded.served
    obtain ⟨dir, signed, hdir, hwhole', hmatch⟩ := hserved
    have hkept := hholds.kept row.packageId dest hdest
    rw [hid] at hkept
    have hsame := hkept.symm.trans hdir
    cases hsame
    rw [hwhole] at hwhole'
    cases hwhole'
    have hold := h.stranded_matches hstranded
    refine ⟨_, ⟨prev, counter, hlast, hcounter, rfl⟩, ?_⟩
    exact (hold.rebuilt_iff hstranded.kind hid (hseq hroom.1)).mp ⟨hmatch.verified, hmatch.sequence⟩
  · rintro ⟨_, hroom, hsame⟩
    have hdrop : ∀ prev counter, (baseRows s).getLast? = some prev →
        generationCounterOf corpus.name prev.generation = some counter →
        dropped = some (rebaselineRow env corpus config.baselineParams snapshot prev counter).packageId →
        ServedRow env s.root (rebaselineRow env corpus config.baselineParams snapshot prev counter) := by
      intro prev counter hlast hcounter hdropped
      obtain ⟨row, served, hstranded, hid⟩ := hresettled.stranded _ hdropped
      obtain ⟨built, ⟨prev', counter', hlast', hcounter', rfl⟩, hbuilt⟩ := hsame row served hstranded
      rw [hlast, Option.some.injEq] at hlast'
      subst hlast'
      rw [hcounter, Option.some.injEq] at hcounter'
      subst hcounter'
      have hnext : NextRow corpus (baseRows s).length
          (rebaselineRow env corpus config.baselineParams snapshot prev counter) :=
        hresettled.next_rebaseline (hlatest prev hlast) config.baselineParams snapshot counter
      obtain ⟨_, hseq⟩ := hstranded.next h hnext
      obtain ⟨dest, hdest, hwhole⟩ := hstranded.served
      have hold := h.stranded_matches hstranded
      exact ⟨dest, served, hid ▸ hdest, hwhole, (hold.rebuilt_iff hstranded.kind hid (hseq hroom)).mpr hbuilt⟩
    have hpublish := freshRebaseline_publishes (E := fun _ _ => False) config snapshot hdrop fun hfull _ _ _ => by omega
    obtain ⟨report, hok, prev, counter, hlast, hcounter, hrows, hserved, hcurrent⟩ :=
      hpublish.completes (fun _ _ hf => hf) hresettled.toSettledOn
    refine ⟨report, prev, counter, hcycle.1.trans hok, hlast, hcounter, ?_, ?_, ?_⟩
    all_goals rw [hcycle.2]
    · exact hrows
    · exact hserved
    · exact hcurrent

/-- The same for every state that an interrupted cycle leaves of a settled feed,
with any later parameters and tables. -/
theorem rebaseline_recovers_iff {config' : RebaselineCycleConfig} {snapshot' : MediaSnapshot}
    (hs : Settled env corpus s.root none s)
    (hleaves : (FeedScript.rebaselineCycle env corpus config snapshot).Leaves s t) :
    Rebaselined env corpus config' snapshot' t (FeedScript.rebaselineCycle env corpus config' snapshot' t) ↔
      ¬ Torn t ∧ (baseRows t).length + 1 < 2 ^ 63 ∧ ∀ row served, Stranded t row served →
        ∃ built, Rebuilt env corpus config'.baselineParams snapshot' t built ∧
          SameBuild env served.payload built :=
  (rebaselineCycle_leaves hs hleaves).rebase.rebaselined_iff

/-- A re-baseline over a settled feed passes through a state that strands it. -/
theorem stranded_reached {prev : CatalogRow} {counter : UInt32} (hs : SettledOn env corpus base none records s)
    (hempty : FeedScript.readStagedIdentity s = .ok none) (hlast : records.getLast? = some prev)
    (hcounter : generationCounterOf corpus.name prev.generation = some counter)
    (hroom : records.length + 1 < 2 ^ 63) :
    ∃ t, (FeedScript.rebaselineCycle env corpus config snapshot).Leaves s t ∧ baseRows t = records ∧
      Stranded t (rebaselineRow env corpus config.baselineParams snapshot prev counter)
        (sealManifest env (rebaselineManifest env corpus config.baselineParams snapshot prev counter)) := by
  let row := rebaselineRow env corpus config.baselineParams snapshot prev counter
  let manifest := rebaselineManifest env corpus config.baselineParams snapshot prev counter
  let dir : ArtifactDir := ⟨.whole (sealManifest env manifest), mediaFiles snapshot⟩
  have hlatest : s.catalog.latestPackage = some prev := (congrArg List.getLast? hs.rows_eq).trans hlast
  have hnext := hs.next_rebaseline hlatest config.baselineParams snapshot counter
  have hlen : records.length = s.catalog.rows.length := by rw [hs.rows_eq]
  rw [hlen] at hnext hroom
  rcases Catalog.insert_next hs.numbered hnext.id hnext.sequence with ⟨_, hfull⟩ | ⟨_, catalog, hinsert, hrows⟩
  · omega
  let staged : FeedState := (s.setSlot .pending none).setSlot .pending (some ⟨.absent, []⟩)
  let inserted : FeedState := { s.setSlot .pending (some dir) with catalog := catalog }
  let t : FeedState := { inserted with
    root := { inserted.root with packages := inserted.root.packages.upsert (row.packageId, dir) } }
  have hspec : Returns (Script.check (rebaselineHead corpus config.baselineParams)) staged
      (rebaselineSpec corpus config.baselineParams prev counter) staged := by
    have hhead : rebaselineHead corpus config.baselineParams s =
        .ok (rebaselineSpec corpus config.baselineParams prev counter) := by
      simp [rebaselineHead, hlatest, hcounter]
    exact ⟨hhead, rfl⟩
  have hstage : Returns (FeedScript.stageArtifact .pending (mediaFiles snapshot) (sealManifest env manifest))
      staged ⟨⟩ (s.setSlot .pending (some dir)) := ⟨rfl, rfl⟩
  have hinserted : Returns (FeedScript.insertRow row) (s.setSlot .pending (some dir)) ⟨⟩ inserted := by
    refine Returns.tryWrite ?_
    rw [FeedState.setSlot_catalog, hinsert]
  have hbuild : Returns (FeedScript.buildRebaseline env corpus .pending config.baselineParams snapshot) staged
      (rebaselineSpec corpus config.baselineParams prev counter) inserted :=
    hspec.andThen ((hstage.andThen hinserted).andThen Returns.done)
  have hfree : s.root.publishedPackageDir row.packageId = none := by
    by_contra hne
    obtain ⟨dest, hdest⟩ := Option.ne_none_iff_exists'.mp hne
    rcases hs.catalogued row.packageId dest hdest with hnone | ⟨r, hr, hid, _⟩
    · cases hnone
    · have hfresh := hs.uncatalogued (max s.catalog.rows.length 1) r (by rw [← hs.rows_eq]; exact hr)
      rw [hlen] at hfresh
      exact hfresh (hid.trans hnext.id)
  have hpublish : FeedScript.publishSlot .pending row.packageId inserted = ⟨[t], t, .ok ⟨⟩⟩ := by
    refine tryWrite_of_ok ?_
    have hpublished : publishPackage inserted.root row.packageId dir = .ok t.root := by
      have hfree' : inserted.root.publishedPackageDir row.packageId = none := hfree
      simp only [publishPackage, hfree']
      rfl
    have hslot : inserted.slot .pending = some dir := rfl
    simp only [hslot, hpublished]
    rfl
  refine ⟨t, Or.inr (Or.inl ?_), ?_, ?_⟩
  · have hread : Returns (Script.check FeedScript.readStagedIdentity) s none s := ⟨hempty, rfl⟩
    have hsettle : Returns (FeedScript.settleStaged corpus) s ⟨⟩ s := hread.andThen Returns.done
    have hclean : Returns (FeedScript.cleanSlot .pending) s ⟨⟩ (s.setSlot .pending none) := ⟨rfl, rfl⟩
    have hcreate : Returns (FeedScript.createSlot .pending) (s.setSlot .pending none) ⟨⟩ staged := ⟨rfl, rfl⟩
    have hmem : t ∈ (FeedScript.publishSlot .pending row.packageId inserted).passed := by
      rw [hpublish]
      exact List.mem_singleton.mpr rfl
    exact hsettle.passed (hclean.passed (hcreate.passed (hbuild.passed (passed_first (passed_first hmem)))))
  · have hkeep : s.catalog.rows.filter (fun r => !(r.status == .built && r.packageKind == .rebaseline)) =
        s.catalog.rows := List.filter_eq_self.mpr fun r hr => by
      have hnot : (CatalogStatus.published == CatalogStatus.built) = false := rfl
      simp [hs.published r hr, hnot]
    have hdrop : [row].filter (fun r => !(r.status == .built && r.packageKind == .rebaseline)) = [] := rfl
    have hcatalog : t.catalog.rows = s.catalog.rows ++ [row] := hrows
    rw [baseRows, hcatalog, List.filter_append, hkeep, hdrop, List.append_nil]
    exact hs.same
  · refine ⟨?_, rfl, rfl, dir, ?_, rfl⟩
    · have hcatalog : t.catalog.rows = s.catalog.rows ++ [row] := hrows
      rw [← Catalog.mem_rows, hcatalog]
      exact List.mem_append_right _ (List.mem_singleton.mpr rfl)
    · exact (publishedPackageDir_upsert _ _ _ _).trans (if_pos rfl)

end Rebaseline

def plainRebaseline : RebaselineCycleConfig := ⟨plainBaseline "2026-02-01T00:00:00Z".toList, windowParams 8⟩

theorem rebaseline_insert_passed : 7 < (FeedScript.rebaselineCycle plainProducer coreCorpus plainRebaseline
    (documentsSnapshot "row".toList) plainFeed).passed.length := by
  decide

/-- The feed of a re-baseline that stops after the insert of its catalog row. -/
def insertedRebaseline : FeedState :=
  (FeedScript.rebaselineCycle plainProducer coreCorpus plainRebaseline (documentsSnapshot "row".toList)
    plainFeed).passed.get ⟨7, rebaseline_insert_passed⟩

theorem insertedRebaseline_not_torn : ¬ Torn insertedRebaseline := by
  rintro ⟨dir, hpending, htorn⟩
  have hwhole : ∃ signed files, insertedRebaseline.root.pending = some ⟨.whole signed, files⟩ := ⟨_, _, rfl⟩
  obtain ⟨signed, files, hwhole⟩ := hwhole
  rw [hwhole, Option.some.injEq] at hpending
  rw [← hpending] at htorn
  cases htorn

theorem insertedRebaseline_unserved : ∀ row ∈ insertedRebaseline.catalog.rows, row.status = .built →
    (insertedRebaseline.root.publishedPackageDir row.packageId).isNone = true := by
  decide

theorem rebaseline_recovers_plain :
    Rebaselined plainProducer coreCorpus plainRebaseline (documentsSnapshot "changed".toList) insertedRebaseline
      (FeedScript.rebaselineCycle plainProducer coreCorpus plainRebaseline (documentsSnapshot "changed".toList)
        insertedRebaseline) := by
  have hleaves : (FeedScript.rebaselineCycle plainProducer coreCorpus plainRebaseline
      (documentsSnapshot "row".toList)).Leaves plainFeed insertedRebaseline :=
    Or.inr (Or.inl (List.get_mem _ _))
  refine (rebaseline_recovers_iff plainFeed_settled hleaves).mpr
    ⟨insertedRebaseline_not_torn, by decide, fun row served hstranded => ?_⟩
  have hnone := insertedRebaseline_unserved row hstranded.member hstranded.unpublished
  obtain ⟨dest, hdest, -⟩ := hstranded.served
  rw [hdest] at hnone
  cases hnone

/-- A cycle that stops between serving its re-baseline and marking it published
leaves a feed whose next cycle over changed tables fails. -/
theorem stranded_rebaseline_fails :
    Settled plainProducer coreCorpus plainFeed.root none plainFeed ∧
    ∃ t, (FeedScript.rebaselineCycle plainProducer coreCorpus plainRebaseline
        (documentsSnapshot "row".toList)).Leaves plainFeed t ∧
      ¬ Rebaselined plainProducer coreCorpus plainRebaseline (documentsSnapshot "changed".toList) t
        (FeedScript.rebaselineCycle plainProducer coreCorpus plainRebaseline (documentsSnapshot "changed".toList)
          t) := by
  refine ⟨plainFeed_settled, ?_⟩
  have hlast : ∃ prev counter, plainFeed.catalog.records.getLast? = some prev ∧
      generationCounterOf coreCorpus.name prev.generation = some counter :=
    ⟨_, 1, rfl, generationCounterOf_generationName _ _⟩
  obtain ⟨prev, counter, hlast, hcounter⟩ := hlast
  obtain ⟨t, hleaves, hbase, hstranded⟩ := stranded_reached ⟨plainFeed_settled, rfl⟩ rfl hlast hcounter (by decide)
  refine ⟨t, hleaves, fun hrebaselined => ?_⟩
  have hinv := (rebaselineCycle_leaves plainFeed_settled hleaves).rebase
  obtain ⟨_, _, hsame⟩ := hinv.rebaselined_iff.mp hrebaselined
  obtain ⟨built, ⟨prev', counter', _, _, rfl⟩, hbuilt⟩ := hsame _ _ hstranded
  have hpayload : aggregatePayloadDigest plainProducer.digestBytes
      (perFileDigests plainProducer (mediaFiles (documentsSnapshot "row".toList))) =
      aggregatePayloadDigest plainProducer.digestBytes
        (perFileDigests plainProducer (mediaFiles (documentsSnapshot "changed".toList))) := hbuilt.payload
  exact absurd hpayload (by decide)

end CorpusFeed
