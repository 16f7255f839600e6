import CorpusFeed.ClientRunSafe
import CorpusFeed.ReadinessSignature

/-! Client runs with the readiness stamp. Every activation, incremental apply and
idempotent apply stores the stamp in its own transaction, or rolls back. -/

namespace CorpusFeed

open Database

structure ReadinessSite (α V : Type*) where
  env : ClientEnv α
  tables : α → ProjectionStore V
  collation : Collation

structure StampedClient (α : Type*) where
  client : ClientSystem α
  stamp : StampRow

variable {α V : Type*}

def ClientAction.package {α : Type*} : ClientAction α → Option EmbeddedManifest
  | .start _ artifact | .incremental _ artifact => artifact.manifest.map Signed.payload
  | _ => none

/-- The corpus whose generation a step stamps. -/
def stampedCorpus (a : ClientAction α) : StepOutcome → Option Corpus
  | .applied manifest => some manifest.identity.corpus
  | .alreadyApplied => a.package.map fun manifest => manifest.identity.corpus
  | .waiting | .rejected => none

namespace ReadinessSite

/-- The appliers with their stamp. A failed visibility probe rolls an activation
back, as a failed attempt at its lock does. -/
def stamping (site : ReadinessSite α V) : ClientEnv α :=
  { site.env with ready := fun db generation => (stampQueryReadiness site.tables site.collation db generation).isOk }

def upsertStamp (site : ReadinessSite α V) (db : Database α) (corpus : Corpus) (stamp : StampRow) : StampRow :=
  match db.cursors.find? corpus with
  | none => stamp
  | some cursor =>
    match stampQueryReadiness site.tables site.collation db cursor.activeGeneration with
    | .ok cached => some (.ok cached)
    | .error _ => stamp

def start : StampedClient α := ⟨ClientSystem.fresh, none⟩

def stepOutcome (site : ReadinessSite α V) (s : StampedClient α) (a : ClientAction α) : ClientSystem α × StepOutcome :=
  ClientSystem.step site.stamping s.client a

def step (site : ReadinessSite α V) (s : StampedClient α) (a : ClientAction α) : StampedClient α :=
  let (client, outcome) := site.stepOutcome s a
  match stampedCorpus a outcome with
  | some corpus => ⟨client, site.upsertStamp client.db corpus s.stamp⟩
  | none => ⟨client, s.stamp⟩

def run (site : ReadinessSite α V) (actions : List (ClientAction α)) : StampedClient α :=
  runFrom site.step start actions

/-- The read gate, for a snapshot of one state against the stamp of another. -/
def gate (site : ReadinessSite α V) (snapshot stamped : StampedClient α) : Except StorageError ReadinessReport :=
  loadQueryReadinessInSnapshot (resolveActiveCorpora site.collation snapshot.client.db) stamped.stamp

end ReadinessSite

section Ready

variable {env : ClientEnv α} {db db' : Database α}

theorem Database.activateGeneration_ready {ready : Database α → Text → Bool} {lockFree : Bool} {c : Corpus} {g : Text}
    {stamps : ActivationStamps} {guard : CursorGuard}
    (h : db.activateGeneration ready lockFree c g stamps guard = .ok db') : ready db' g = true := by
  unfold activateGeneration at h
  split at h
  · cases h
  split at h
  · cases h
  split at h
  · split at h
    · cases h
    split at h
    · cases h
    split at h
    · next hready =>
      cases h
      exact hready
    · cases h
  · cases h

theorem startMedia_ready {mode : MediaApplyMode} {artifact : Artifact} {outcome : ApplyOutcome}
    (h : startMedia env mode db artifact = .ok (.inl outcome)) :
    ∃ signed cursor, artifact.manifest = some signed ∧
      db.cursors.find? signed.payload.identity.corpus = some cursor ∧ env.ready db cursor.activeGeneration = true := by
  unfold startMedia readManifest at h
  cases hm : artifact.manifest with
  | none => simp [hm] at h
  | some signed =>
    simp only [hm] at h
    split at h
    · cases h
    split at h
    · cases h
    · split at h
      · cases h
      · next cursor hc =>
        split at h
        · next hready => exact ⟨signed, cursor, rfl, hc, hready⟩
        · cases h
    · split at h
      · cases h
      · cases h

theorem Database.applyIncrementalRows_ready {artifact : Artifact} {manifest : EmbeddedManifest} {cursor : CorpusState}
    (h : db.applyIncrementalRows env artifact manifest cursor = .ok db') :
    env.ready db' cursor.activeGeneration = true := by
  unfold applyIncrementalRows at h
  dsimp only at h
  split at h
  · cases h
  split at h
  · cases h
  split at h
  · cases h
  split at h
  · cases h
  split at h
  · next hready =>
    cases h
    exact hready
  · cases h

theorem applyIncremental_ready {lockFree : Bool} {artifact : Artifact} {outcome : ApplyOutcome}
    (h : applyIncremental env lockFree db artifact = .ok (db', outcome)) :
    ∃ signed cursor, artifact.manifest = some signed ∧
      db'.cursors.find? signed.payload.identity.corpus = some cursor ∧ env.ready db' cursor.activeGeneration = true := by
  obtain ⟨signed, cursor, hsigned, _, hcursor, hcase⟩ := applyIncremental_cases h
  unfold applyIncremental readManifest at h
  simp only [hsigned] at h
  split at h
  · cases h
  split at h
  · cases h
  split at h
  · cases h
  next cursor' hcursor' =>
  obtain rfl : cursor = cursor' := by simpa [hcursor] using hcursor'
  split at h
  · cases h
  · split at h
    · next hready =>
      cases h
      exact ⟨signed, cursor, hsigned, hcursor, hready⟩
    · cases h
  · split at h
    · cases h
    next applied hrows =>
    cases h
    have hready := Database.applyIncrementalRows_ready hrows
    obtain ⟨rows, _, rfl⟩ := Database.applyIncrementalRows_cases hrows
    refine ⟨signed, advanceCursor signed.payload.apply.resultSequence signed.payload.identity.packageId
      signed.payload.integrity.artifactSha256 cursor, hsigned, ?_, hready⟩
    rw [Database.advanceCorpusCursor_find?]
    have hfind : (db.setRows (schemaIdentifier cursor.activeGeneration) rows).cursors.find?
        signed.payload.identity.corpus = some cursor := hcursor
    rw [hfind, Option.map_some, if_pos rfl]

end Ready

section Labels

variable {env : ClientEnv α} {lockFree : Bool} {db db' : Database α}

theorem AdmittedLabels.empty : AdmittedLabels (Database.empty : Database α) :=
  ⟨by simp [Database.empty], by simp [Database.empty]⟩

theorem AdmittedLabels.activate {ready : Database α → Text → Bool} {c : Corpus} {g : Text} {stamps : ActivationStamps}
    {guard : CursorGuard} (h : AdmittedLabels db)
    (hop : db.activateGeneration ready lockFree c g stamps guard = .ok db') : AdmittedLabels db' := by
  obtain ⟨row, hr, hk, _, _, hv⟩ := activateGeneration_cases hop
  obtain ⟨_, rfl⟩ := rebuildServerViews_cases hv
  obtain ⟨hcorpus, hgeneration⟩ := GenerationRow.key_eq_iff.mp hk
  constructor
  · intro r hr'
    rcases mem_switchGeneration.mp hr' with ⟨r0, h0, _, rfl⟩ | ⟨r0, h0, _, _, _, rfl⟩ | ⟨h0, _, _⟩
    · exact h.registered r0 h0
    · exact h.registered r0 h0
    · exact h.registered r h0
  · intro cursor hc
    rcases Table.mem_upsert.mp hc with rfl | ⟨hc, _⟩
    · obtain ⟨n, hn⟩ := h.registered row hr
      refine ⟨n, ?_⟩
      rw [hgeneration, hcorpus] at hn
      exact hn
    · exact h.active cursor hc

theorem AdmittedLabels.mediaStep {m : MediaApply} {phase : MediaPhase} (h : AdmittedLabels db)
    (hop : mediaStep env lockFree m db phase = .ok db') : AdmittedLabels db' := by
  cases phase with
  | reset =>
    rcases resetBuildingGeneration_cases (liftStorage_ok hop) with rfl | ⟨row, _, _, _, rfl⟩
    · exact h
    · exact ⟨fun r hr => h.registered r (Table.mem_filter.mp hr).1, h.active⟩
  | register =>
    obtain ⟨registry, hi, rfl⟩ := registerGeneration_cases (liftStorage_ok hop)
    refine ⟨fun r hr => ?_, h.active⟩
    rcases (Table.mem_insert hi).mp hr with rfl | hr
    · exact ⟨m.counter, rfl⟩
    · exact h.registered r hr
  | clone =>
    obtain ⟨_, _, rfl⟩ := cloneSchema_cases (liftStorage_ok hop)
    exact ⟨h.registered, h.active⟩
  | copy =>
    obtain ⟨_, _, rfl⟩ := mapSchema_cases hop
    exact ⟨h.registered, h.active⟩
  | index =>
    obtain ⟨_, _, rfl⟩ := mapSchema_cases hop
    exact ⟨h.registered, h.active⟩
  | validate => exact LabelInvariant.validate_cases hop ▸ h
  | activate => exact h.activate (liftStorage_ok hop)

theorem AdmittedLabels.advance (h : AdmittedLabels db) (manifest : EmbeddedManifest) :
    AdmittedLabels (db.advanceCorpusCursor manifest) := by
  refine ⟨h.registered, fun cursor hc => ?_⟩
  rcases LabelInvariant.mem_advanceCorpusCursor.mp hc with ⟨old, hold, _, rfl⟩ | ⟨hold, _⟩
  · exact h.active old hold
  · exact h.active cursor hold

theorem AdmittedLabels.applyIncremental {artifact : Artifact} {outcome : ApplyOutcome} (h : AdmittedLabels db)
    (hop : applyIncremental env lockFree db artifact = .ok (db', outcome)) : AdmittedLabels db' := by
  obtain ⟨signed, cursor, _, _, _, hcase⟩ := applyIncremental_cases hop
  rcases hcase with ⟨rfl, _⟩ | ⟨_, _, rows, _, rfl⟩
  · exact h
  · have hrows : AdmittedLabels (db.setRows (schemaIdentifier cursor.activeGeneration) rows) :=
      ⟨h.registered, h.active⟩
    exact hrows.advance signed.payload

end Labels

structure TopologyInvariant (s : ClientSystem α) : Prop where
  labels : AdmittedLabels s.db
  phases : ∀ entry ∈ s.running, entry.2 <:+ mediaPhases

/-- A step that stamps has found its stamp ready, and any other one leaves the
cursors. -/
structure StepStamps (env : ClientEnv α) (s : ClientSystem α) (a : ClientAction α)
    (result : ClientSystem α × StepOutcome) : Prop where
  invariant : TopologyInvariant result.1
  idle : stampedCorpus a result.2 = none → result.1.db.cursors = s.db.cursors
  ready : ∀ corpus, stampedCorpus a result.2 = some corpus → ∃ cursor, result.1.db.cursors.find? corpus = some cursor ∧
    env.ready result.1.db cursor.activeGeneration = true

namespace TopologyInvariant

variable {env : ClientEnv α} {s : ClientSystem α}

theorem fresh : TopologyInvariant (ClientSystem.fresh : ClientSystem α) :=
  ⟨AdmittedLabels.empty, by simp [ClientSystem.fresh]⟩

theorem released (h : TopologyInvariant s) (corpus : Corpus) :
    ∀ entry ∈ s.release corpus, entry.2 <:+ mediaPhases :=
  fun entry he => h.phases entry (mem_release.mp he).1

theorem stays (h : TopologyInvariant s) {a : ClientAction α} {outcome : StepOutcome}
    (hnone : stampedCorpus a outcome = none) : StepStamps env s a (s, outcome) :=
  ⟨h, fun _ => rfl, by simp [hnone]⟩

theorem start (h : TopologyInvariant s) (mode : MediaApplyMode) (artifact : Artifact) :
    StepStamps env s (.start mode artifact) (s.start env mode artifact) := by
  unfold ClientSystem.start
  split
  · exact h.stays rfl
  split
  · exact h.stays rfl
  split
  · exact h.stays rfl
  · next hstart =>
    obtain ⟨signed, cursor, hsigned, hcursor, hready⟩ := startMedia_ready hstart
    refine ⟨h, by simp [stampedCorpus, ClientAction.package, hsigned], fun corpus hcorpus => ?_⟩
    obtain rfl : signed.payload.identity.corpus = corpus := by
      simpa [stampedCorpus, ClientAction.package, hsigned] using hcorpus
    exact ⟨cursor, hcursor, hready⟩
  · next m hstart =>
    refine ⟨⟨h.labels, fun entry he => ?_⟩, fun _ => rfl, by simp [stampedCorpus]⟩
    rcases List.mem_cons.mp he with rfl | he
    · exact List.suffix_rfl
    · exact h.phases entry he

theorem advance (h : TopologyInvariant s) (corpus : Corpus) (lockFree : Bool) :
    StepStamps env s (.advance corpus lockFree) (s.advance env corpus lockFree) := by
  unfold ClientSystem.advance
  split
  · exact h.stays rfl
  · exact h.stays rfl
  next m phase rest hl =>
  obtain ⟨hm, rfl⟩ := lockHolder_mem hl
  have hphases := h.phases _ hm
  split
  · exact ⟨⟨h.labels, h.released m.corpus⟩, fun _ => rfl, by simp [stampedCorpus]⟩
  next db' hop =>
  have hlabels := h.labels.mediaStep hop
  have hsuffix := mediaPhases_suffix hphases
  by_cases hphase : phase = .activate
  · subst hphase
    have hrest : rest = [] := by simpa [mediaPhases] using hsuffix
    rw [if_pos hrest]
    obtain ⟨hactivate, hcursors, _⟩ := mediaStep_activate_cases hop
    refine ⟨⟨hlabels, h.released m.corpus⟩, by simp [stampedCorpus], fun corpus hcorpus => ?_⟩
    obtain rfl : m.corpus = corpus := by simpa [stampedCorpus, MediaApply.corpus] using hcorpus
    refine ⟨m.stamps.cursor m.corpus m.label, ?_, activateGeneration_ready hactivate⟩
    rw [hcursors]
    exact (Table.find?_upsert _ _ _).trans (if_pos rfl)
  · have hrest : rest ≠ [] := by
      intro hnil
      simp [mediaPhases, hnil, hphase] at hsuffix
    rw [if_neg hrest]
    refine ⟨⟨hlabels, fun entry he => ?_⟩, fun _ => mediaStep_cursors hop hphase, by simp [stampedCorpus]⟩
    rcases List.mem_cons.mp he with rfl | he
    · exact (List.suffix_cons _ _).trans hphases
    · exact h.released m.corpus entry he

theorem interruptLoad (h : TopologyInvariant s) (corpus : Corpus) (rows : α) :
    StepStamps env s (.interruptLoad corpus rows) (s.interruptLoad corpus rows) := by
  unfold ClientSystem.interruptLoad
  split
  · exact h.stays rfl
  · exact h.stays rfl
  next m phase rest hl =>
  split
  · split
    · next db' hop =>
      obtain ⟨_, _, rfl⟩ := mapSchema_cases hop
      exact ⟨⟨⟨h.labels.registered, h.labels.active⟩, h.released corpus⟩, fun _ => rfl, by simp [stampedCorpus]⟩
    · exact ⟨⟨h.labels, h.released corpus⟩, fun _ => rfl, by simp [stampedCorpus]⟩
  · exact h.stays rfl

theorem incremental (h : TopologyInvariant s) (lockFree : Bool) (artifact : Artifact) :
    StepStamps env s (.incremental lockFree artifact) (s.incremental env lockFree artifact) := by
  unfold ClientSystem.incremental
  split
  · next db' _ _ signed hop hsigned =>
    obtain ⟨signed', cursor, hsigned', hcursor, hready⟩ := applyIncremental_ready hop
    obtain rfl : signed = signed' := by simpa [hsigned] using hsigned'
    refine ⟨⟨h.labels.applyIncremental hop, h.phases⟩, by simp [stampedCorpus], fun corpus hcorpus => ?_⟩
    obtain rfl : signed.payload.identity.corpus = corpus := by simpa [stampedCorpus] using hcorpus
    exact ⟨cursor, hcursor, hready⟩
  · next db' _ _ hop =>
    obtain ⟨signed, cursor, hsigned, hcursor, hready⟩ := applyIncremental_ready hop
    refine ⟨⟨h.labels.applyIncremental hop, h.phases⟩, by simp [stampedCorpus, ClientAction.package, hsigned],
      fun corpus hcorpus => ?_⟩
    obtain rfl : signed.payload.identity.corpus = corpus := by
      simpa [stampedCorpus, ClientAction.package, hsigned] using hcorpus
    exact ⟨cursor, hcursor, hready⟩
  · exact h.stays rfl

theorem step (h : TopologyInvariant s) (a : ClientAction α) : StepStamps env s a (ClientSystem.step env s a) := by
  cases a with
  | start mode artifact => exact h.start mode artifact
  | advance corpus lockFree => exact h.advance corpus lockFree
  | interruptLoad corpus rows => exact h.interruptLoad corpus rows
  | crash corpus => exact ⟨⟨h.labels, h.released corpus⟩, fun _ => rfl, by simp [ClientSystem.step, stampedCorpus]⟩
  | incremental lockFree artifact => exact h.incremental lockFree artifact

end TopologyInvariant

namespace ReadinessSite

variable {site : ReadinessSite α V} {s t : StampedClient α} {a : ClientAction α}

/-- The stamp is the one of the installed topology. -/
def StampCurrent (site : ReadinessSite α V) (s : StampedClient α) : Prop :=
  if s.client.db.cursors.rows = [] then s.stamp = none
  else ∃ cached, s.stamp = some (.ok cached) ∧ cached.signature = activeReadSignature site.collation s.client.db

structure InStep (site : ReadinessSite α V) (s : StampedClient α) : Prop where
  topology : TopologyInvariant s.client
  current : StampCurrent site s

/-- What a stamping step leaves: the stamp that a snapshot opened now computes
for itself, and full coverage of every active corpus. -/
structure Committed (site : ReadinessSite α V) (s : StampedClient α) : Prop where
  signature : ∃ cached, s.stamp = some (.ok cached) ∧
    cached.signature = snapshotSignature (resolveActiveCorpora site.collation s.client.db) ∧
    site.gate s s = .ok cached.report
  covered : ∀ cursor ∈ s.client.db.cursors, CursorCovered site.tables s.client.db cursor

theorem gate_ok_iff {report : ReadinessReport} : site.gate s t = .ok report ↔
    s.client.db.cursors.rows ≠ [] ∧ ∃ cached, t.stamp = some (.ok cached) ∧
      cached.signature = snapshotSignature (resolveActiveCorpora site.collation s.client.db) ∧
      cached.report = report := by
  have hlength : (resolveActiveCorpora site.collation s.client.db).length = 0 ↔ s.client.db.cursors.rows = [] := by
    rw [resolveActiveCorpora, List.length_map, List.length_insertionSort, List.length_eq_zero_iff]
  unfold gate loadQueryReadinessInSnapshot
  dsimp only
  by_cases hnone : s.client.db.cursors.rows = []
  · simp [hlength.mpr hnone, hnone]
  · rw [if_neg (mt hlength.mp hnone)]
    cases ht : t.stamp with
    | none => simp
    | some row =>
      cases row with
      | error message => simp
      | ok cached =>
        by_cases hsame : cached.signature = snapshotSignature (resolveActiveCorpora site.collation s.client.db)
        · simp [hsame, hnone]
        · simp [hsame]

theorem upsertStamp_ready {db : Database α} {corpus : Corpus} {cursor : CorpusState} (stamp : StampRow)
    (hcursor : db.cursors.find? corpus = some cursor) (hready : site.stamping.ready db cursor.activeGeneration = true) :
    ∃ cached, stampQueryReadiness site.tables site.collation db cursor.activeGeneration = .ok cached ∧
      site.upsertStamp db corpus stamp = some (.ok cached) := by
  unfold upsertStamp
  rw [hcursor]
  cases hstamp : stampQueryReadiness site.tables site.collation db cursor.activeGeneration with
  | ok cached => exact ⟨cached, rfl, by simp [hstamp]⟩
  | error e => simp [stamping, hstamp, Except.isOk, Except.toBool] at hready

theorem InStep.initial : InStep site (start : StampedClient α) :=
  ⟨TopologyInvariant.fresh, by simp [StampCurrent, ReadinessSite.start, ClientSystem.fresh, Database.empty, Table.empty]⟩

theorem InStep.committed (h : InStep site s) {corpus : Corpus}
    (hcorpus : stampedCorpus a (site.stepOutcome s a).2 = some corpus) : Committed site (site.step s a) := by
  obtain ⟨cursor, hcursor, hready⟩ := StepStamps.ready (h.topology.step a) corpus hcorpus
  obtain ⟨cached, hstamp, hstored⟩ := upsertStamp_ready s.stamp hcursor hready
  obtain ⟨hsignature, _, hcovered⟩ := stampQueryReadiness_cases hstamp
  have hstep : site.step s a = ⟨(site.stepOutcome s a).1, some (.ok cached)⟩ := by
    simp only [step, hcorpus]
    rw [← hstored]
    rfl
  have hinstalled : (site.stepOutcome s a).1.db.cursors.rows ≠ [] :=
    List.ne_nil_of_mem (Table.find?_eq_some.mp hcursor).1
  have hsignature := hsignature.trans (activeReadSignature_eq hinstalled)
  rw [hstep]
  exact ⟨⟨cached, rfl, hsignature, gate_ok_iff.mpr ⟨hinstalled, cached, rfl, hsignature, rfl⟩⟩, hcovered⟩

theorem step_idle (hnone : stampedCorpus a (site.stepOutcome s a).2 = none) :
    site.step s a = ⟨(site.stepOutcome s a).1, s.stamp⟩ := by
  simp only [step, hnone]

theorem InStep.idle (h : InStep site s) (hnone : stampedCorpus a (site.stepOutcome s a).2 = none) :
    (site.step s a).client.db.cursors = s.client.db.cursors ∧ (site.step s a).stamp = s.stamp := by
  rw [step_idle hnone]
  exact ⟨(h.topology.step a).idle hnone, rfl⟩

theorem StampCurrent.of_cursors (h : StampCurrent site s) (hcursors : t.client.db.cursors = s.client.db.cursors)
    (hstamp : t.stamp = s.stamp) : StampCurrent site t := by
  unfold StampCurrent activeReadSignature orderedCursors at h ⊢
  rwa [hcursors, hstamp]

theorem InStep.stepped (h : InStep site s) (a : ClientAction α) : InStep site (site.step s a) := by
  cases hcorpus : stampedCorpus a (site.stepOutcome s a).2 with
  | none =>
    obtain ⟨hcursors, hstamp⟩ := h.idle hcorpus
    refine ⟨?_, h.current.of_cursors hcursors hstamp⟩
    rw [step_idle hcorpus]
    exact (h.topology.step a).invariant
  | some corpus =>
    obtain ⟨cached, hstamp, hsignature, hgate⟩ := (h.committed hcorpus).signature
    have hinstalled := (gate_ok_iff.mp hgate).1
    have htopology : (site.step s a).client = (site.stepOutcome s a).1 := by simp only [ReadinessSite.step, hcorpus]
    refine ⟨htopology ▸ (h.topology.step a).invariant, ?_⟩
    rw [StampCurrent, if_neg hinstalled, activeReadSignature_eq hinstalled]
    exact ⟨cached, hstamp, hsignature⟩

theorem InStep.reached (actions : List (ClientAction α)) : InStep site (site.run actions) :=
  runFrom_keeps_all (fun _ a h => h.stepped a) InStep.initial

/-- The gate accepts the snapshots of the stamped topology, and no others. -/
theorem InStep.gate_isOk_iff (hs : InStep site s) (ht : InStep site t) :
    (∃ report, site.gate s t = .ok report) ↔
      s.client.db.cursors.rows ≠ [] ∧ SameTopology s.client.db t.client.db := by
  have hempty : SameTopology s.client.db t.client.db → t.client.db.cursors.rows = [] →
      s.client.db.cursors.rows = [] := by
    intro hsame hnone
    refine List.eq_nil_iff_forall_not_mem.mpr fun cursor hc => ?_
    obtain ⟨cursor', hc', _⟩ := (hsame cursor.entry).mp ⟨cursor, hc, rfl⟩
    rw [← Table.mem_rows, hnone] at hc'
    simp at hc'
  have hiff : activeReadSignature site.collation s.client.db = activeReadSignature site.collation t.client.db ↔
      SameTopology s.client.db t.client.db := activeReadSignature_eq_iff hs.topology.labels ht.topology.labels
  have hcurrent := ht.current
  unfold StampCurrent at hcurrent
  constructor
  · rintro ⟨report, hgate⟩
    obtain ⟨hinstalled, cached, hstamp, hsignature, _⟩ := gate_ok_iff.mp hgate
    refine ⟨hinstalled, hiff.mp ?_⟩
    split at hcurrent
    · simp [hcurrent] at hstamp
    · obtain ⟨current, hstamped, hsigned⟩ := hcurrent
      obtain rfl : current = cached := by simpa [hstamped] using hstamp
      rw [activeReadSignature_eq hinstalled, ← hsignature, hsigned]
  · rintro ⟨hinstalled, hsame⟩
    rw [if_neg fun hnone => hinstalled (hempty hsame hnone)] at hcurrent
    obtain ⟨cached, hstamp, hsigned⟩ := hcurrent
    refine ⟨cached.report, gate_ok_iff.mpr ⟨hinstalled, cached, hstamp, ?_, rfl⟩⟩
    rw [hsigned, ← hiff.mpr hsame, activeReadSignature_eq hinstalled]

theorem step_client : (site.step s a).client = (site.stepOutcome s a).1 := by
  cases hcorpus : stampedCorpus a (site.stepOutcome s a).2 <;> simp only [step, hcorpus]

theorem untouched_of_idle {packages : List EmbeddedManifest} (hclient : ClientInvariant packages s.client)
    (hlabels : DistinctLabels packages) (htakes : Takes packages site.stamping s.client a)
    (hnone : stampedCorpus a (site.stepOutcome s a).2 = none) : Untouched s.client (site.stepOutcome s a).1 := by
  have hsafe : OutcomeSafe s.client (site.stepOutcome s a).1 (site.stepOutcome s a).2 :=
    (hclient.step_safe hlabels htakes).2
  cases hout : (site.stepOutcome s a).2 with
  | applied p => simp [hout, stampedCorpus] at hnone
  | waiting =>
    rw [hout] at hsafe
    exact hsafe
  | alreadyApplied =>
    rw [hout] at hsafe
    exact hsafe
  | rejected =>
    rw [hout] at hsafe
    exact hsafe

structure CoveredClient (site : ReadinessSite α V) (packages : List EmbeddedManifest) (s : StampedClient α) : Prop where
  inStep : InStep site s
  client : ClientInvariant packages s.client
  covered : ∀ cursor ∈ s.client.db.cursors, CursorCovered site.tables s.client.db cursor

theorem CoveredClient.step {packages : List EmbeddedManifest} (h : CoveredClient site packages s)
    (hlabels : DistinctLabels packages) (htakes : Takes packages site.stamping s.client a) :
    CoveredClient site packages (site.step s a) := by
  have hclient : ClientInvariant packages (site.step s a).client :=
    step_client ▸ (h.client.step_safe hlabels htakes).1
  refine ⟨h.inStep.stepped a, hclient, ?_⟩
  cases hcorpus : stampedCorpus a (site.stepOutcome s a).2 with
  | some corpus => exact (h.inStep.committed hcorpus).covered
  | none =>
    have huntouched := untouched_of_idle h.client hlabels htakes hcorpus
    rw [step_client]
    intro cursor hc
    rw [huntouched.cursors] at hc
    obtain ⟨schema, hfind, hfull⟩ := h.covered cursor hc
    have hkept : KeepsSchema (schemaIdentifier cursor.activeGeneration) s.client.db (site.stepOutcome s a).1.db :=
      huntouched.live.2 (cursor.corpus, schemaIdentifier cursor.activeGeneration) (List.mem_map_of_mem hc)
    exact ⟨schema, hkept.trans hfind, hfull⟩

/-- Where no schema names are cut into one another, the coverage that the stamps
measured lasts between them. -/
theorem coverage_lasts (site : ReadinessSite α V) (actions : List (ClientAction α))
    (hord : Orderly
      (ClientSystem.gather site.stamping (ClientSystem.started site.stamping) ClientSystem.fresh actions)
      (ClientSystem.gather site.stamping (ClientSystem.applied site.stamping) ClientSystem.fresh actions)) :
    ∀ cursor ∈ (site.run actions).client.db.cursors, CursorCovered site.tables (site.run actions).client.db cursor := by
  have hstart : CoveredClient site
      (ClientSystem.gather site.stamping (ClientSystem.started site.stamping) ClientSystem.fresh actions) start :=
    ⟨InStep.initial, ClientInvariant.fresh _, by simp [start, ClientSystem.fresh, Database.empty]⟩
  have hmeets := takes_of_orderly (s := ClientSystem.fresh) (fun _ hp => hp) hord.small
  exact (runFrom_keeps (fun _ _ h htakes => h.step hord.labels htakes) hstart
    (RunMeets.of_map (fun _ _ => step_client) hmeets)).covered

/-- Along every run, a step that commits leaves a current stamp over fully
covered corpora, and any other step leaves the topology and its stamp. Of any two
reachable states, the signatures agree exactly when the topologies do, and the
gate accepts the snapshot of the one with the stamp of the other exactly then. -/
theorem stamp_in_step (site : ReadinessSite α V) (actions others : List (ClientAction α)) (a : ClientAction α) :
    ((stampedCorpus a (site.stepOutcome (site.run actions) a).2).isSome = true →
      Committed site (site.step (site.run actions) a)) ∧
    (stampedCorpus a (site.stepOutcome (site.run actions) a).2 = none →
      SameTopology (site.step (site.run actions) a).client.db (site.run actions).client.db ∧
        (site.step (site.run actions) a).stamp = (site.run actions).stamp) ∧
    (activeReadSignature site.collation (site.run actions).client.db =
        activeReadSignature site.collation (site.run others).client.db ↔
      SameTopology (site.run actions).client.db (site.run others).client.db) ∧
    ((∃ report, site.gate (site.run actions) (site.run others) = .ok report) ↔
      (site.run actions).client.db.cursors.rows ≠ [] ∧
        SameTopology (site.run actions).client.db (site.run others).client.db) := by
  have hs : InStep site (site.run actions) := InStep.reached actions
  have ht : InStep site (site.run others) := InStep.reached others
  refine ⟨fun hcommits => ?_, fun hnone => ?_, activeReadSignature_eq_iff hs.topology.labels ht.topology.labels,
    hs.gate_isOk_iff ht⟩
  · obtain ⟨corpus, hcorpus⟩ := Option.isSome_iff_exists.mp hcommits
    exact hs.committed hcorpus
  · obtain ⟨hcursors, hstamp⟩ := hs.idle hnone
    refine ⟨fun entry => ?_, hstamp⟩
    rw [hcursors]

/-- A generation of one document, with one chunk and its vector. -/
def oneDocument : ProjectionStore Unit where
  documents := ⟨[⟨"doc".toList, [], [], [], none, none, none, [], [], none, none, none, [], []⟩], by simp⟩
  chunks := ⟨[⟨⟨"doc#0".toList, "doc".toList, 0, [], [], [], [], [], [], [], [], []⟩, some "bge".toList⟩], by simp⟩
  chunkEmbeddings := ⟨[⟨"doc#0".toList, "bge".toList, (), "bge-m3".toList, 1024⟩], by simp⟩
  graphEdges := Table.empty

def plainSite : ReadinessSite Nat Unit := ⟨plainClient, fun _ => oneDocument, codePointCollation⟩

theorem first_baseline_committed :
    Committed plainSite (plainSite.step (plainSite.run (baselineRun 5).dropLast) (.advance coreCorpus true)) ∧
      (plainSite.step (plainSite.run (baselineRun 5)) (.crash coreCorpus)).stamp = (plainSite.run (baselineRun 5)).stamp :=
  ⟨(stamp_in_step plainSite (baselineRun 5).dropLast [] (.advance coreCorpus true)).1 (by decide),
    ((stamp_in_step plainSite (baselineRun 5) [] (.crash coreCorpus)).2.1 (by decide)).2⟩

end ReadinessSite

end CorpusFeed
