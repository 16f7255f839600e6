import CorpusFeed.FeedBuild
import CorpusFeed.FeedServing

/-! Runs of the producer cycle that may each stop anywhere. Every state they
reach is safe, and a later run that does not stop recovers, unless an earlier
one stopped within the write of the staged manifest. -/

namespace CorpusFeed

open Script

/-- What a client of the feed relies on: a served directory never changes, it
belongs to the one row with its id, and the remote manifest lists only those. -/
structure FeedSafe (env : ProducerEnv) (corpus : Corpus) (base : ServedRoot) (s : FeedState) : Prop where
  kept : ∀ packageId dir, base.publishedPackageDir packageId = some dir →
    s.root.publishedPackageDir packageId = some dir
  catalogued : ∀ packageId dir, s.root.publishedPackageDir packageId = some dir →
    ∃ row ∈ s.catalog, row.packageId = packageId ∧ ServedRow env s.root row ∧
      ∀ other ∈ s.catalog, other.packageId = packageId → other = row
  remote : ∀ m, s.root.manifest = some m → RemoteServed env corpus s m.payload

/-- The parameters fit the newest package, and a sequence is left. -/
structure Accepts (corpus : Corpus) (config : ProducerCycleConfig) (snapshot : IncrementalSnapshot)
    (s : FeedState) : Prop where
  window : ∃ window, incrementalWindow corpus config.incrementalParams snapshot s = .ok window
  room : s.catalog.rows.length + 1 < 2 ^ 63

/-- An undisturbed run publishes every catalogued package, and it returns when
its parameters are accepted. -/
structure Recovers (env : ProducerEnv) (corpus : Corpus) (config : ProducerCycleConfig)
    (snapshot : IncrementalSnapshot) (s : FeedState) (r : Ran FeedState BuildError ProducerCycleReport) : Prop where
  safe : FeedSafe env corpus s.root r.final
  keeps_rows : s.catalog.records <+: r.final.catalog.records
  published : ∀ row ∈ r.final.catalog, row.status = .published ∧ ServedRow env r.final.root row
  completes : Accepts corpus config snapshot s →
    (∃ report, r.result = .ok report) ∧ Current env config.remoteManifestParams corpus r.final

def CycleLeaves (env : ProducerEnv) (corpus : Corpus) (s t : FeedState) : Prop :=
  ∃ config snapshot, (FeedScript.producerCycle env corpus config snapshot).Leaves s t

/-- Any number of runs, with any parameters and tables, that may stop anywhere. -/
abbrev CycleRuns (env : ProducerEnv) (corpus : Corpus) := Relation.ReflTransGen (CycleLeaves env corpus)

section Cycle

variable {env : ProducerEnv} {corpus : Corpus} {base : ServedRoot} {dropped : Option Text}
  {records : List CatalogRow} {s t : FeedState} {E : BuildError → FeedState → Prop}

theorem FeedInvariant.safe (h : FeedInvariant env corpus base none s) : FeedSafe env corpus base s := by
  refine ⟨h.kept, fun packageId dir hdir => ?_, h.remote⟩
  rcases h.catalogued packageId dir hdir with hnone | ⟨row, hr, hid, hserved⟩
  · cases hnone
  · exact ⟨row, hr, hid, hserved, fun other ho hother => Catalog.eq_of_packageId_eq ho hr (hother.trans hid.symm)⟩

theorem FeedInvariant.rebase (h : FeedInvariant env corpus base dropped s) :
    FeedInvariant env corpus s.root dropped s :=
  { h with kept := fun _ _ hdir => hdir }

theorem publishBuilt_settles {built : Option Text} :
    Triple (Built env corpus base records built) (FeedScript.publishBuilt corpus built)
      (fun _ s => ∃ next, ∃ _ : records <+: next, SettledOn env corpus base none next s) E
      (FeedInvariant env corpus base none) := by
  cases built with
  | none =>
    have hsettled : ∀ s, Built env corpus base records none s → SettledOn env corpus base none records s :=
      fun _ hs => hs
    exact Triple.done fun s hs => ⟨(hsettled s hs).toFeedInvariant, records, List.prefix_refl records, hsettled s hs⟩
  | some packageId =>
    refine Triple.given fun row => Triple.given fun hid => ?_
    subst hid
    have hpublish : Triple (Ready env corpus base none (records ++ [row.asPublished]) row)
        (FeedScript.publishStaged corpus .pending row.packageId)
        (fun _ s => SettledOn env corpus base none (records ++ [row.asPublished]) s ∧ s.root.pending = none) E
        (FeedInvariant env corpus base none) := publishStaged_ready (by simp)
    exact hpublish.weaken (fun _ hs => hs) (fun _ _ hs => ⟨_, List.prefix_append _ _, hs.1⟩)
      (fun _ _ he => he) fun _ hs => hs

theorem producerCycle_settles (config : ProducerCycleConfig) (snapshot : IncrementalSnapshot)
    (hwindow : ∀ s, SettledOn env corpus base none records s →
      ∀ e, incrementalWindow corpus config.incrementalParams snapshot s = .error e → E e s)
    (hfull : 2 ^ 63 ≤ records.length + 1 → ∀ e s, SettledOn env corpus base none records s → E e s) :
    Triple (Unsettled env corpus base records E) (FeedScript.producerCycle env corpus config snapshot)
      (fun _ s => (∃ next, ∃ _ : records <+: next, SettledOn env corpus base none next s) ∧
        Current env config.remoteManifestParams corpus s) E
      (FeedInvariant env corpus base none) := by
  refine Triple.andThen resumePending_settles fun resumed => ?_
  refine Triple.andThen cleanSlot_keeps fun _ => ?_
  have hcreate : Triple (SettledOn env corpus base none records) (FeedScript.createSlot .pending)
      (fun _ => SettledOn env corpus base none records) E (FeedInvariant env corpus base none) :=
    createSlot_settled.weaken (fun _ hs => hs) (fun _ _ hs => hs) (fun _ _ he => he) fun _ hs => hs.toFeedInvariant
  refine Triple.andThen (hcreate.pre fun s hs => hs.1) fun _ => ?_
  refine Triple.andThen (buildIncremental_built config.incrementalParams snapshot hwindow hfull) fun built => ?_
  refine Triple.andThen publishBuilt_settles fun _ => ?_
  have hfeed : Triple (fun s => ∃ next, ∃ _ : records <+: next, SettledOn env corpus base none next s)
      (FeedScript.publishFeed env config.remoteManifestParams corpus)
      (fun _ s => (∃ next, ∃ _ : records <+: next, SettledOn env corpus base none next s) ∧
        Current env config.remoteManifestParams corpus s) E (FeedInvariant env corpus base none) := by
    refine Triple.given fun next => Triple.given fun hnext => ?_
    exact (publishFeed_current config.remoteManifestParams).weaken (fun _ hs => hs)
      (fun _ _ hs => ⟨⟨next, hnext, hs.1⟩, hs.2⟩) (fun _ _ he => he) fun _ hs => hs
  refine Triple.andThen hfeed fun _ => ?_
  refine Triple.andThen (Q := fun _ s => (∃ next, ∃ _ : records <+: next, SettledOn env corpus base none next s) ∧
    Current env config.remoteManifestParams corpus s) ?_ fun head => ?_
  · exact Triple.read (fun s hs => hs.1.elim fun _ h => h.elim fun _ h => h.toFeedInvariant) fun s hs => hs
  · exact Triple.done fun s hs => ⟨hs.1.elim fun _ h => h.elim fun _ h => h.toFeedInvariant, hs⟩

theorem CycleLeaves.invariant (h : CycleLeaves env corpus s t) (hs : FeedInvariant env corpus base none s) :
    FeedInvariant env corpus base none t := by
  obtain ⟨config, snapshot, hleaves⟩ := h
  have hcycle : Triple (Unsettled env corpus base s.catalog.records fun _ _ => True)
      (FeedScript.producerCycle env corpus config snapshot)
      (fun _ s' => (∃ next, ∃ _ : s.catalog.records <+: next, SettledOn env corpus base none next s') ∧
        Current env config.remoteManifestParams corpus s') (fun _ _ => True)
      (FeedInvariant env corpus base none) :=
    producerCycle_settles config snapshot (fun _ _ _ _ => trivial) fun _ _ _ _ => trivial
  exact hcycle.leaves ⟨hs, rfl, fun _ _ => trivial⟩ hs hleaves

theorem CycleRuns.invariant (h : CycleRuns env corpus s t) (hs : FeedInvariant env corpus base none s) :
    FeedInvariant env corpus base none t := by
  induction h with
  | refl => exact hs
  | tail _ hleaves ih => exact hleaves.invariant ih

/-- Acceptance reads the newest row apart from its status. -/
theorem incrementalWindow_records {params : IncrementalParams} {snapshot : IncrementalSnapshot} {e : BuildError}
    (hsame : s.catalog.records = t.catalog.records)
    (h : incrementalWindow corpus params snapshot s = .error e) :
    incrementalWindow corpus params snapshot t = .error e := by
  have hlatest := congrArg List.getLast? hsame
  rw [Catalog.records_getLast?, Catalog.records_getLast?] at hlatest
  cases hs : s.catalog.latestPackage with
  | none =>
    rw [hs, Option.map_none, eq_comm, Option.map_eq_none_iff] at hlatest
    simp only [incrementalWindow, hs, hlatest] at h ⊢
    exact h
  | some row =>
    rw [hs, Option.map_some, eq_comm, Option.map_eq_some_iff] at hlatest
    obtain ⟨row', ht, hrow⟩ := hlatest
    have hfp := congrArg CatalogRow.embeddingFingerprint hrow
    have hbv := congrArg CatalogRow.builderVersions hrow
    have hsv := congrArg CatalogRow.schemaVersion hrow
    have hhi := congrArg CatalogRow.includedChangeSeqHigh hrow
    simp only [CatalogRow.asPublished] at hfp hbv hsv hhi
    simp only [incrementalWindow, hs, ht, hfp, hbv, hsv, hhi] at h ⊢
    simp only [rejectIf] at h ⊢
    by_cases hfp' : params.embeddingFingerprint ≠ row.embeddingFingerprint
    · rwa [if_pos hfp'] at h ⊢
    rw [if_neg hfp'] at h ⊢
    by_cases hbv' : params.builderVersions ≠ row.builderVersions
    · rwa [if_pos hbv'] at h ⊢
    rw [if_neg hbv'] at h ⊢
    by_cases hsv' : currentSchemaVersion ≠ row.schemaVersion
    · rwa [if_pos hsv'] at h ⊢
    rw [if_neg hsv'] at h ⊢
    cases hw : snapshot.window row.includedChangeSeqHigh snapshot.changeSeqHigh with
    | error e' =>
      rw [hw] at h
      exact h
    | ok changes =>
      rw [hw] at h
      cases changes <;> cases h

theorem producerCycle_torn (h : Torn s) (config : ProducerCycleConfig) (snapshot : IncrementalSnapshot) :
    FeedScript.producerCycle env corpus config snapshot s = ⟨[], s, .error (.json "EOF while parsing a value")⟩ := by
  obtain ⟨dir, hpending, hmanifest⟩ := h
  have hread : FeedScript.readStagedIdentity s = .error (.json "EOF while parsing a value") := by
    simp [FeedScript.readStagedIdentity, hpending, hmanifest]
  have hcheck : (Script.check FeedScript.readStagedIdentity s).result =
      .error (.json "EOF while parsing a value") := hread
  have hresume : FeedScript.resumePending corpus s = ⟨[], s, .error (.json "EOF while parsing a value")⟩ :=
    bind_of_error hcheck
  have hresult : (FeedScript.resumePending corpus s).result = .error (.json "EOF while parsing a value") := by
    rw [hresume]
  unfold FeedScript.producerCycle
  rw [bind_of_error hresult, hresume]

theorem CycleRuns.torn (h : CycleRuns env corpus s t) (htorn : Torn s) : t = s := by
  induction h with
  | refl => rfl
  | tail _ hleaves ih =>
    obtain ⟨config, snapshot, hleaves⟩ := hleaves
    rw [ih, Script.Leaves, producerCycle_torn htorn] at hleaves
    simpa using hleaves

theorem FeedInvariant.recovers (h : FeedInvariant env corpus base none s) (htorn : ¬ Torn s)
    (config : ProducerCycleConfig) (snapshot : IncrementalSnapshot) :
    Recovers env corpus config snapshot s (FeedScript.producerCycle env corpus config snapshot s) := by
  have hcycle : Triple (Unsettled env corpus s.root s.catalog.records fun _ t =>
        SettledOn env corpus s.root none s.catalog.records t ∧ ¬ Accepts corpus config snapshot s)
      (FeedScript.producerCycle env corpus config snapshot)
      (fun _ t => (∃ next, ∃ _ : s.catalog.records <+: next, SettledOn env corpus s.root none next t) ∧
        Current env config.remoteManifestParams corpus t)
      (fun _ t => SettledOn env corpus s.root none s.catalog.records t ∧ ¬ Accepts corpus config snapshot s)
      (FeedInvariant env corpus s.root none) := by
    refine producerCycle_settles config snapshot (fun t ht e he => ⟨ht, fun haccept => ?_⟩)
      fun hfull e t ht => ⟨ht, fun haccept => ?_⟩
    · obtain ⟨window, hok⟩ := haccept.window
      rw [incrementalWindow_records ht.same he] at hok
      cases hok
    · have hroom := haccept.room
      rw [Catalog.records_length] at hfull
      omega
  have hstart : Unsettled env corpus s.root s.catalog.records (fun _ t =>
      SettledOn env corpus s.root none s.catalog.records t ∧ ¬ Accepts corpus config snapshot s) s :=
    ⟨h.rebase, rfl, fun ht => absurd ht htorn⟩
  have hsettles : ∀ next, SettledOn env corpus s.root none next
      (FeedScript.producerCycle env corpus config snapshot s).final → s.catalog.records <+: next →
      (Accepts corpus config snapshot s →
        (∃ report, (FeedScript.producerCycle env corpus config snapshot s).result = .ok report) ∧
          Current env config.remoteManifestParams corpus
            (FeedScript.producerCycle env corpus config snapshot s).final) →
      Recovers env corpus config snapshot s (FeedScript.producerCycle env corpus config snapshot s) := by
    intro next hnext hprefix hdone
    refine ⟨hnext.toFeedInvariant.safe, ?_, fun row hr => ?_, hdone⟩
    · rw [hnext.same]
      exact hprefix
    · exact ⟨hnext.published row hr, hnext.toSettled.served row hr⟩
  cases hr : (FeedScript.producerCycle env corpus config snapshot s).result with
  | ok report =>
    obtain ⟨⟨next, hprefix, hnext⟩, hcurrent⟩ := hcycle.returns s hstart report hr
    exact hsettles next hnext hprefix fun _ => ⟨⟨report, hr⟩, hcurrent⟩
  | error e =>
    obtain ⟨hnext, hrefused⟩ := hcycle.fails s hstart e hr
    exact hsettles _ hnext (List.prefix_refl _) fun haccept => absurd haccept hrefused

/-- Every state that interrupted runs reach is safe. An undisturbed run recovers
from it, unless the staged manifest there is torn. -/
theorem producer_runs_recover (hs : Settled env corpus s.root none s) (hruns : CycleRuns env corpus s t) :
    FeedSafe env corpus s.root t ∧ ∀ config snapshot,
      (¬ Torn t → Recovers env corpus config snapshot t
        (FeedScript.producerCycle env corpus config snapshot t)) ∧
      (Accepts corpus config snapshot t →
        (Recovers env corpus config snapshot t (FeedScript.producerCycle env corpus config snapshot t) ↔
          ¬ Torn t)) := by
  have hinv := hruns.invariant hs.toFeedInvariant
  refine ⟨hinv.safe, fun config snapshot => ⟨fun htorn => hinv.recovers htorn config snapshot, fun haccept =>
    ⟨fun hrecovers htorn => ?_, fun htorn => hinv.recovers htorn config snapshot⟩⟩⟩
  obtain ⟨⟨report, hok⟩, _⟩ := hrecovers.completes haccept
  rw [producerCycle_torn htorn] at hok
  cases hok

/-- A run over a changed window passes through a torn slot. -/
theorem torn_reached (hempty : FeedScript.readStagedIdentity s = .ok none) {config : ProducerCycleConfig}
    {snapshot : IncrementalSnapshot} {prev : CatalogRow} {ops : List PayloadOp}
    (hwindow : incrementalWindow corpus config.incrementalParams snapshot s = .ok (some (prev, ops))) :
    CycleLeaves env corpus s (s.setSlot .pending (some ⟨.torn, incrementalFiles ops⟩)) := by
  have hread : Returns (Script.check FeedScript.readStagedIdentity) s none s := ⟨hempty, rfl⟩
  have hresume : Returns (FeedScript.resumePending corpus) s none s := hread.andThen Returns.done
  have hclean : Returns (FeedScript.cleanSlot .pending) s ⟨⟩ (s.setSlot .pending none) := ⟨rfl, rfl⟩
  have hcreate : Returns (FeedScript.createSlot .pending) (s.setSlot .pending none) ⟨⟩
      (s.setSlot .pending (some ⟨.absent, []⟩)) := ⟨rfl, rfl⟩
  have hcheck : Returns (Script.check (incrementalWindow corpus config.incrementalParams snapshot))
      (s.setSlot .pending (some ⟨.absent, []⟩)) (some (prev, ops)) (s.setSlot .pending (some ⟨.absent, []⟩)) :=
    ⟨hwindow, rfl⟩
  refine ⟨config, snapshot, Or.inr (Or.inl ?_)⟩
  refine hresume.passed (hclean.passed (hcreate.passed (passed_first ?_)))
  refine hcheck.passed (passed_first ?_)
  have hpart : Returns (Script.mayLeave fun s => (incrementalFiles ops).inits.map fun part =>
      FeedState.setSlot s .pending (some ⟨.absent, part⟩) : FeedScript PUnit)
      (s.setSlot .pending (some ⟨.absent, []⟩)) ⟨⟩ (s.setSlot .pending (some ⟨.absent, []⟩)) := ⟨rfl, rfl⟩
  have hfiles : Returns (Script.write fun s => FeedState.setSlot s .pending (some ⟨.absent, incrementalFiles ops⟩) :
      FeedScript PUnit) (s.setSlot .pending (some ⟨.absent, []⟩)) ⟨⟩
      (s.setSlot .pending (some ⟨.absent, incrementalFiles ops⟩)) := ⟨rfl, rfl⟩
  exact hpart.passed (hfiles.passed (passed_first (List.mem_singleton.mpr rfl)))

end Cycle

def plainBaseline (createdAt : Text) : BaselineParams :=
  ⟨"base".toList, "run-1".toList, createdAt, "bge".toList, "bge-m3".toList, 1024, true, [], ⟨0, 1, 0⟩⟩

def plainIncremental : IncrementalParams :=
  ⟨"run-2".toList, "2026-01-02T00:00:00Z".toList, "bge".toList, "bge-m3".toList, 1024, true, [], ⟨0, 1, 0⟩⟩

def documentsSnapshot (bytes : Text) : MediaSnapshot := ⟨0, [("documents".toList, bytes)], [], [], [], 17⟩

def oneChange : IncrementalSnapshot where
  changeSeqHigh := 1
  window _ _ := .ok (some [⟨"documents".toList, .upsert, "row".toList, 1⟩])
  rowCounts := []
  tableDigests := []
  bundleDigest := []

def plainCycle : ProducerCycleConfig := ⟨plainIncremental, windowParams 8⟩

def plainFeed : FeedState :=
  firstFeed plainProducer coreCorpus (plainBaseline "2026-01-01T00:00:00Z".toList) (documentsSnapshot "row".toList)

theorem plainFeed_settled : Settled plainProducer coreCorpus plainFeed.root none plainFeed := firstFeed_settled _ _

theorem insert_passed :
    7 < (FeedScript.producerCycle plainProducer coreCorpus plainCycle oneChange plainFeed).passed.length := by
  decide

/-- The feed of a run that stops after the insert of its catalog row. -/
def insertedIncremental : FeedState :=
  (FeedScript.producerCycle plainProducer coreCorpus plainCycle oneChange plainFeed).passed.get ⟨7, insert_passed⟩

theorem insertedIncremental_reached : CycleRuns plainProducer coreCorpus plainFeed insertedIncremental :=
  Relation.ReflTransGen.single ⟨plainCycle, oneChange, Or.inr (Or.inl (List.get_mem _ _))⟩

theorem insertedIncremental_not_torn : ¬ Torn insertedIncremental := by
  rintro ⟨dir, hpending, htorn⟩
  have hwhole : ∃ signed files, insertedIncremental.root.pending = some ⟨.whole signed, files⟩ := ⟨_, _, rfl⟩
  obtain ⟨signed, files, hwhole⟩ := hwhole
  rw [hwhole, Option.some.injEq] at hpending
  rw [← hpending] at htorn
  cases htorn

theorem producer_runs_recover_plain : FeedSafe plainProducer coreCorpus plainFeed.root insertedIncremental ∧
    Recovers plainProducer coreCorpus plainCycle oneChange insertedIncremental
      (FeedScript.producerCycle plainProducer coreCorpus plainCycle oneChange insertedIncremental) := by
  have h : Settled plainProducer coreCorpus plainFeed.root none plainFeed := plainFeed_settled
  obtain ⟨hsafe, hrecovers⟩ := producer_runs_recover h insertedIncremental_reached
  exact ⟨hsafe, (hrecovers plainCycle oneChange).1 insertedIncremental_not_torn⟩

/-- After a run that stops within the write of `manifest.json` every later run
fails and changes nothing, whatever its parameters and tables. -/
theorem torn_manifest_stops_feed :
    Settled plainProducer coreCorpus plainFeed.root none plainFeed ∧
    ∃ t, CycleRuns plainProducer coreCorpus plainFeed t ∧ Accepts coreCorpus plainCycle oneChange t ∧
      ¬ Recovers plainProducer coreCorpus plainCycle oneChange t
        (FeedScript.producerCycle plainProducer coreCorpus plainCycle oneChange t) ∧
      ∀ u, CycleRuns plainProducer coreCorpus t u → u = t := by
  have hempty : FeedScript.readStagedIdentity plainFeed = .ok none := rfl
  have hwindow : ∃ prev ops, incrementalWindow coreCorpus plainCycle.incrementalParams oneChange plainFeed =
      .ok (some (prev, ops)) := ⟨_, _, rfl⟩
  obtain ⟨prev, ops, hok⟩ := hwindow
  let t := plainFeed.setSlot .pending (some ⟨.torn, incrementalFiles ops⟩)
  have htorn : Torn t := ⟨_, rfl, rfl⟩
  have hreached : CycleLeaves plainProducer coreCorpus plainFeed t := torn_reached hempty hok
  have hroom : plainFeed.catalog.rows.length + 1 < 2 ^ 63 := by decide
  have haccepts : Accepts coreCorpus plainCycle oneChange t := ⟨⟨_, hok⟩, hroom⟩
  refine ⟨plainFeed_settled, t, Relation.ReflTransGen.single hreached, haccepts, fun hrecovers => ?_,
    fun u hu => hu.torn htorn⟩
  obtain ⟨⟨report, hreport⟩, _⟩ := hrecovers.completes haccepts
  rw [producerCycle_torn htorn] at hreport
  cases hreport

end CorpusFeed
