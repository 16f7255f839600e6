import CorpusFeed.CatchupSound
import CorpusFeed.ClientSafety
import CorpusFeed.StoppingTasks

/-! The binding between a listing and the artifacts a source returns for it.
Each planned fetch is one task of the catch-up, and its only tie to the listing
is the payload digest. -/

namespace CorpusFeed

open Database

variable {α : Type*}

inductive PlannedFetch where
  | baseline (root : BaselineRef)
  | package (entry : RemotePackageEntry)

def CatchupPlan.fetches : CatchupPlan → List PlannedFetch
  | .upToDate | .blocked _ _ => []
  | .freshBaseline baseline => [.baseline baseline]
  | .incremental chain => chain.map .package

namespace PlannedFetch

def fetched (source : CatchupSource) : PlannedFetch → Except SyncError Artifact
  | .baseline root => source.fetchBaseline root
  | .package entry => source.fetchPackage entry

def sha256 : PlannedFetch → Text
  | .baseline root => root.sha256
  | .package entry => entry.sha256

def apply (env : ClientEnv α) (lockFree : Bool) (db : Database α) (artifact : Artifact) :
    PlannedFetch → Database α × Except SyncError ApplyOutcome
  | .baseline _ => applyMediaAuto env lockFree db artifact
  | .package _ =>
    match applyIncremental env lockFree db artifact with
    | .error e => (db, .error e)
    | .ok (db', outcome) => (db', .ok outcome)

def perform (env : ClientEnv α) (source : CatchupSource) (lockFree : Bool) (db : Database α)
    (fetch : PlannedFetch) : Database α × Except SyncError ApplyOutcome :=
  match fetchVerified (fetch.fetched source) fetch.sha256 with
  | .error e => (db, .error e)
  | .ok artifact => fetch.apply env lockFree db artifact

/-- The embedded identity is the one that the listing of a corpus gives. -/
def Lists (corpus : Corpus) (fetch : PlannedFetch) (manifest : EmbeddedManifest) : Prop :=
  manifest.identity.corpus = corpus ∧
    match fetch with
    | .baseline root =>
      manifest.identity.packageKind = root.packageKind ∧ manifest.identity.toSequence = root.sequence ∧
        manifest.identity.baselineId = root.baselineId ∧ manifest.identity.generation = root.generation
    | .package entry =>
      manifest.identity.packageKind = .incremental ∧ manifest.identity.packageId = entry.packageId ∧
        manifest.identity.fromSequence = entry.fromSequence ∧ manifest.identity.toSequence = entry.toSequence

/-- The manifest that the source embeds in its answer to a fetch. -/
def served (source : CatchupSource) (fetch : PlannedFetch) : Option EmbeddedManifest :=
  match fetch.fetched source with
  | .error _ => none
  | .ok artifact => artifact.manifest.map Signed.payload

end PlannedFetch

/-- A corpus as its readers see it. A generation still being built is no part
of it. -/
structure CorpusKept (db db' : Database α) (corpus : Corpus) : Prop where
  cursor : db'.cursors.find? corpus = db.cursors.find? corpus
  rows : ∀ cursor, db.cursors.find? corpus = some cursor →
    KeepsSchema (schemaIdentifier cursor.activeGeneration) db db'

/-- One catch-up of a client: the verified listing of a corpus, the source that
answers the fetches and the state of the lock. -/
structure CatchupCycle (α : Type*) where
  env : ClientEnv α
  manifest : RemoteManifest
  source : CatchupSource
  lockFree : Bool

namespace CatchupCycle

def plan (cycle : CatchupCycle α) (db : Database α) : CatchupPlan :=
  planCatchup cycle.manifest (readClientCursor db cycle.manifest.corpus)

def perform (cycle : CatchupCycle α) : Database α → PlannedFetch → Database α × Except SyncError ApplyOutcome :=
  PlannedFetch.perform cycle.env cycle.source cycle.lockFree

def run (db : Database α) (cycle : CatchupCycle α) : Database α :=
  (runCatchup cycle.env cycle.source cycle.lockFree db (cycle.plan db)).1

def listed (cycle : CatchupCycle α) : List PlannedFetch :=
  .baseline cycle.manifest.activeBaseline :: cycle.manifest.packages.map .package

/-- Every package the source answers with to a fetch of the listing. -/
def served (cycle : CatchupCycle α) : List EmbeddedManifest :=
  cycle.listed.filterMap (PlannedFetch.served cycle.source)

/-- The catch-up performs a fetch in the state `before`. -/
def Performs (cycle : CatchupCycle α) (db : Database α) (fetch : PlannedFetch) (before : Database α) : Prop :=
  Performed cycle.perform (cycle.plan db).fetches db fetch before

/-- A catch-up changes only its corpus, a fetch that goes through applies the
listed package, and any other changes no corpus. -/
structure Bound (cycle : CatchupCycle α) (db : Database α) : Prop where
  others : ∀ c, c ≠ cycle.manifest.corpus → CorpusKept db (run db cycle) c
  identified : ∀ fetch before outcome, cycle.Performs db fetch before →
    (cycle.perform before fetch).2 = .ok outcome →
    ∃ manifest, fetch.served cycle.source = some manifest ∧ fetch.Lists cycle.manifest.corpus manifest
  rejected : ∀ fetch before e, cycle.Performs db fetch before → (cycle.perform before fetch).2 = .error e →
    ∀ c, CorpusKept before (cycle.perform before fetch).1 c

/-- An artifact under the listed payload digest is the listed package, or its
applier refuses it in the state it meets. -/
def NoSubstitute (cycle : CatchupCycle α) (db : Database α) : Prop :=
  ∀ fetch before artifact signed, cycle.Performs db fetch before →
    fetch.fetched cycle.source = .ok artifact → artifact.manifest = some signed →
    signed.payload.integrity.artifactSha256 = fetch.sha256 →
    fetch.Lists cycle.manifest.corpus signed.payload ∨
      ∃ e, (fetch.apply cycle.env cycle.lockFree before artifact).2 = .error e

/-- No performed fetch is answered by another package under the listed payload digest. -/
def DigestIdentifies (cycle : CatchupCycle α) (db : Database α) : Prop :=
  ∀ fetch before manifest, cycle.Performs db fetch before → fetch.served cycle.source = some manifest →
    manifest.integrity.artifactSha256 = fetch.sha256 → fetch.Lists cycle.manifest.corpus manifest

end CatchupCycle

theorem CorpusKept.refl (db : Database α) (c : Corpus) : CorpusKept db db c := ⟨rfl, fun _ _ => rfl⟩

theorem CorpusKept.trans {db db' db'' : Database α} {c : Corpus} (h : CorpusKept db db' c)
    (h' : CorpusKept db' db'' c) : CorpusKept db db'' c := by
  refine ⟨h'.cursor.trans h.cursor, fun cursor hc => ?_⟩
  have hrows := h'.rows cursor (h.cursor.trans hc)
  exact Eq.trans hrows (h.rows cursor hc)

theorem CorpusKept.of_live {db db' : Database α} (hcursors : db'.cursors = db.cursors)
    (hlive : LiveSchemasKept db db') (c : Corpus) : CorpusKept db db' c := by
  refine ⟨by rw [hcursors], fun cursor hc => ?_⟩
  obtain ⟨hm, _⟩ := Table.find?_eq_some.mp hc
  exact hlive.2 (cursor.corpus, schemaIdentifier cursor.activeGeneration) (List.mem_map.mpr ⟨cursor, hm, rfl⟩)

theorem applyChain_eq_runTasks (env : ClientEnv α) (source : CatchupSource) (lockFree : Bool)
    (chain : List RemotePackageEntry) (applied : Nat) (db : Database α) :
    (applyChain env source lockFree chain applied db).1 =
      runTasks (PlannedFetch.perform env source lockFree) (chain.map .package) db := by
  induction chain generalizing applied db with
  | nil => rfl
  | cons entry chain ih =>
    unfold applyChain
    rw [List.map_cons]
    cases hf : fetchVerified (source.fetchPackage entry) entry.sha256 with
    | error e =>
      have hp : PlannedFetch.perform env source lockFree db (.package entry) = (db, .error e) := by
        simp only [PlannedFetch.perform, PlannedFetch.fetched, PlannedFetch.sha256, hf]
      simp only [runTasks, hp]
    | ok artifact =>
      cases ha : applyIncremental env lockFree db artifact with
      | error e =>
        have hp : PlannedFetch.perform env source lockFree db (.package entry) = (db, .error e) := by
          simp only [PlannedFetch.perform, PlannedFetch.fetched, PlannedFetch.sha256, hf, PlannedFetch.apply, ha]
        simp only [runTasks, hp, ha]
      | ok r =>
        have hp : PlannedFetch.perform env source lockFree db (.package entry) = (r.1, .ok r.2) := by
          simp only [PlannedFetch.perform, PlannedFetch.fetched, PlannedFetch.sha256, hf, PlannedFetch.apply, ha]
        simp only [runTasks, hp, ha]
        exact ih (applied + 1) r.1

/-- Executing a plan is performing its fetches until one fails. -/
theorem runCatchup_eq_runTasks (env : ClientEnv α) (source : CatchupSource) (lockFree : Bool) (db : Database α)
    (plan : CatchupPlan) : (runCatchup env source lockFree db plan).1 =
      runTasks (PlannedFetch.perform env source lockFree) plan.fetches db := by
  cases plan with
  | upToDate => rfl
  | blocked code reason => rfl
  | incremental chain => exact applyChain_eq_runTasks env source lockFree chain 0 db
  | freshBaseline baseline =>
    simp only [runCatchup, CatchupPlan.fetches]
    cases hf : fetchVerified (source.fetchBaseline baseline) baseline.sha256 with
    | error e =>
      have hp : PlannedFetch.perform env source lockFree db (.baseline baseline) = (db, .error e) := by
        simp only [PlannedFetch.perform, PlannedFetch.fetched, PlannedFetch.sha256, hf]
      simp only [runTasks, hp]
    | ok artifact =>
      have hp : PlannedFetch.perform env source lockFree db (.baseline baseline) =
          applyMediaAuto env lockFree db artifact := by
        simp only [PlannedFetch.perform, PlannedFetch.fetched, PlannedFetch.sha256, hf, PlannedFetch.apply]
      rcases ha : applyMediaAuto env lockFree db artifact with ⟨db', _ | outcome⟩ <;> simp only [runTasks, hp, ha]

/-- A plan fetches only what the listing names. -/
theorem CatchupCycle.fetches_listed (cycle : CatchupCycle α) (db : Database α) :
    ∀ fetch ∈ (cycle.plan db).fetches, fetch ∈ cycle.listed := by
  intro fetch hfetch
  cases hp : cycle.plan db with
  | upToDate => simp [hp, CatchupPlan.fetches] at hfetch
  | blocked code reason => simp [hp, CatchupPlan.fetches] at hfetch
  | freshBaseline baseline =>
    have hactive := planCatchup_fresh_sequence hp
    simp only [hp, CatchupPlan.fetches, List.mem_singleton] at hfetch
    rw [hfetch, hactive]
    exact List.mem_cons_self
  | incremental chain =>
    obtain ⟨_, _, hsound⟩ := planCatchup_incremental hp
    simp only [hp, CatchupPlan.fetches, List.mem_map] at hfetch
    obtain ⟨entry, hentry, rfl⟩ := hfetch
    exact List.mem_cons_of_mem _ (List.mem_map.mpr ⟨entry, hsound.listed entry hentry, rfl⟩)

theorem CatchupCycle.served_mem {cycle : CatchupCycle α} {fetch : PlannedFetch} {manifest : EmbeddedManifest}
    (hfetch : fetch ∈ cycle.listed) (hserved : fetch.served cycle.source = some manifest) :
    manifest ∈ cycle.served :=
  List.mem_filterMap.mpr ⟨fetch, hfetch, hserved⟩

end CorpusFeed
