import CorpusFeed.MediaApply

/-! What each applier can do: one inversion for every function that returns a
new database, and the cursor each of them leaves. -/

namespace CorpusFeed

variable {α : Type*}

/-- What an applied incremental had to agree with on the cursor row. -/
structure LinksCursor (manifest : EmbeddedManifest) (cursor : CorpusState) : Prop where
  ahead : cursor.sequence.toNat < manifest.apply.resultSequence
  start : manifest.apply.expectedClientFromSequence = cursor.sequence.toNat
  package_id : manifest.identity.previousPackageId = cursor.lastPackageId
  package_digest : manifest.identity.previousPackageSha256 = cursor.lastPackageDigest

theorem checkIncremental_links {manifest : EmbeddedManifest} {cursor : CorpusState}
    (h : checkIncremental manifest cursor = .ok (some ())) : LinksCursor manifest cursor := by
  unfold checkIncremental at h
  split at h
  · simp [rejectIf_ok] at h
  next hne =>
  split at h
  · cases h
  next hlinks =>
  simp only [checkLinks, rejectIf_ok] at hlinks
  obtain ⟨hle, hfrom, hid, hdigest, _⟩ := hlinks
  exact ⟨by omega, (not_not.mp hfrom).symm, not_not.mp hid, not_not.mp hdigest⟩

theorem checkIncremental_already {manifest : EmbeddedManifest} {cursor : CorpusState}
    (h : checkIncremental manifest cursor = .ok none) : cursor.sequence.toNat = manifest.apply.resultSequence := by
  unfold checkIncremental at h
  split at h
  · next heq => exact heq
  · split at h <;> cases h

namespace Database

theorem applyIncrementalRows_cases {env : ClientEnv α} {db db' : Database α} {artifact : Artifact}
    {manifest : EmbeddedManifest} {cursor : CorpusState}
    (h : db.applyIncrementalRows env artifact manifest cursor = .ok db') :
    ∃ rows, (db.schemas.find? (schemaIdentifier cursor.activeGeneration)).isSome = true ∧
      db' = (db.setRows (schemaIdentifier cursor.activeGeneration) rows).advanceCorpusCursor manifest := by
  unfold applyIncrementalRows at h
  dsimp only at h
  split at h
  · cases h
  next hf =>
  split at h
  · cases h
  split at h
  · cases h
  next rows _ =>
  split at h
  · cases h
  split at h
  · cases h
    exact ⟨rows, by simp [hf], rfl⟩
  · cases h

theorem advanceCorpusCursor_find? (db : Database α) (manifest : EmbeddedManifest) (c : Corpus) :
    (db.advanceCorpusCursor manifest).cursors.find? c =
      (db.cursors.find? c).map fun cursor =>
        if c = manifest.identity.corpus then
          advanceCursor manifest.apply.resultSequence manifest.identity.packageId
            manifest.integrity.artifactSha256 cursor
        else cursor := by
  refine (Table.find?_update db.cursors _ _ (advanceCursor_corpus _ _ _) c).trans ?_
  cases hf : db.cursors.find? c with
  | none => rfl
  | some cursor => simp [(Table.find?_eq_some.mp hf).2]

end Database

/-- An incremental changes nothing, or links to the cursor and moves it. -/
theorem applyIncremental_cases {env : ClientEnv α} {lockFree : Bool} {db db' : Database α} {artifact : Artifact}
    {outcome : ApplyOutcome} (h : applyIncremental env lockFree db artifact = .ok (db', outcome)) :
    ∃ signed cursor, artifact.manifest = some signed ∧
      signed.payload.identity.packageKind = .incremental ∧
      db.cursors.find? signed.payload.identity.corpus = some cursor ∧
      ((db' = db ∧ cursor.sequence.toNat = signed.payload.apply.resultSequence ∧
          outcome = .alreadyApplied signed.payload.identity.corpus cursor.sequence.toNat) ∨
        (LinksCursor signed.payload cursor ∧
          outcome = .applied signed.payload.identity.corpus signed.payload.apply.resultSequence ∧
          ∃ rows, (db.schemas.find? (schemaIdentifier cursor.activeGeneration)).isSome = true ∧
            db' = (db.setRows (schemaIdentifier cursor.activeGeneration) rows).advanceCorpusCursor
              signed.payload)) := by
  unfold applyIncremental readManifest at h
  cases hm : artifact.manifest with
  | none => simp [hm] at h
  | some signed =>
    simp only [hm] at h
    split at h
    · cases h
    next hgates =>
    split at h
    · cases h
    split at h
    · cases h
    next cursor hc =>
    have hkind := checkGates_kind hgates
    split at h
    · cases h
    · next hcheck =>
      split at h
      · cases h
        exact ⟨signed, cursor, rfl, hkind, hc, Or.inl ⟨rfl, checkIncremental_already hcheck, rfl⟩⟩
      · cases h
    · next hcheck =>
      split at h
      · cases h
      next hrows =>
      cases h
      exact ⟨signed, cursor, rfl, hkind, hc,
        Or.inr ⟨checkIncremental_links hcheck, rfl, Database.applyIncrementalRows_cases hrows⟩⟩

theorem liftStorage_ok {result : Except StorageError (Database α)} {db : Database α}
    (h : liftStorage result = .ok db) : result = .ok db := by
  cases result with
  | ok db' => simpa [liftStorage] using h
  | error e => simp [liftStorage] at h

theorem mapSchema_cases {db db' : Database α} {identifier : Text} {f : α → Option α}
    (h : db.mapSchema identifier f = .ok db') :
    ∃ rows, (db.schemas.find? identifier).isSome = true ∧ db' = db.setRows identifier rows := by
  unfold Database.mapSchema at h
  split at h
  · cases h
  next hf =>
  split at h
  · next rows _ =>
    cases h
    exact ⟨rows, by simp [hf], rfl⟩
  · cases h

theorem mediaStep_cursors {env : ClientEnv α} {lockFree : Bool} {m : MediaApply} {db db' : Database α}
    {phase : MediaPhase} (h : mediaStep env lockFree m db phase = .ok db') (hp : phase ≠ .activate) :
    db'.cursors = db.cursors := by
  cases phase with
  | reset =>
    rcases Database.resetBuildingGeneration_cases (liftStorage_ok h) with rfl | ⟨_, _, _, _, rfl⟩ <;> rfl
  | register =>
    obtain ⟨_, _, rfl⟩ := Database.registerGeneration_cases (liftStorage_ok h)
    rfl
  | clone =>
    obtain ⟨_, _, rfl⟩ := Database.cloneSchema_cases (liftStorage_ok h)
    rfl
  | copy =>
    obtain ⟨_, _, rfl⟩ := mapSchema_cases h
    rfl
  | index =>
    obtain ⟨_, _, rfl⟩ := mapSchema_cases h
    rfl
  | validate =>
    unfold mediaStep at h
    dsimp only at h
    split at h
    · cases h
    split at h
    · cases h
      rfl
    · cases h
  | activate => exact absurd rfl hp

/-- The activation of a media apply, with the guard of its mode. -/
theorem mediaStep_activate_cases {env : ClientEnv α} {lockFree : Bool} {m : MediaApply} {db db' : Database α}
    (h : mediaStep env lockFree m db .activate = .ok db') :
    db.activateGeneration env.ready lockFree m.corpus m.label m.stamps
        (m.mode.guard m.manifest.apply.resultSequence) = .ok db' ∧
      db'.cursors = (db.switchGeneration m.corpus m.label m.stamps).cursors ∧
      ∀ cursor, db.cursors.find? m.corpus = some cursor →
        m.mode = .rebaseline ∧ cursor.sequence < saturateI64 m.manifest.apply.resultSequence := by
  have hop := liftStorage_ok h
  obtain ⟨_, _, _, _, hguard, hv⟩ := Database.activateGeneration_cases hop
  obtain ⟨_, rfl⟩ := Database.rebuildServerViews_cases hv
  refine ⟨hop, rfl, fun cursor hc => ?_⟩
  rw [Database.currentSequence, hc] at hguard
  cases hm : m.mode with
  | baseline => simp [hm, MediaApplyMode.guard, Database.checkCursorGuard] at hguard
  | rebaseline =>
    simp only [hm, MediaApplyMode.guard, Database.checkCursorGuard, Option.map_some] at hguard
    split at hguard
    · cases hguard
    · next hlt => exact ⟨rfl, by omega⟩

theorem startMedia_build {env : ClientEnv α} {mode : MediaApplyMode} {db : Database α} {artifact : Artifact}
    {m : MediaApply} (h : startMedia env mode db artifact = .ok (.inr m)) :
    ∃ signed, artifact.manifest = some signed ∧ m.manifest = signed.payload ∧ m.mode = mode ∧
      m.manifest.identity.packageKind = mode.expectedKind ∧
      generationCounterOf m.corpus.name m.label = some m.counter := by
  unfold startMedia readManifest at h
  cases hm : artifact.manifest with
  | none => simp [hm] at h
  | some signed =>
    simp only [hm] at h
    split at h
    · cases h
    next hgates =>
    have hkind := checkGates_kind hgates
    split at h
    · cases h
    · split at h
      · cases h
      · split at h
        · cases h
        · cases h
    · split at h
      · cases h
      · next counter hcounter =>
        simp only [Except.ok.injEq, Sum.inr.injEq] at h
        subst h
        exact ⟨signed, rfl, rfl, rfl, hkind, hcounter⟩

/-- A client that trusts every signature and counts the packages it loaded. -/
def plainClient : ClientEnv Nat where
  verify _ _ := true
  entitled manifest := .error (missingEntitlement manifest.entitlement)
  digestBytes bytes := bytes
  appliedSchema := currentSchemaVersion
  bundleDigest := "bundle".toList
  extensions := []
  postgresMajor := 18
  tables := 0
  hasCascadeFks _ := true
  copyPayloadIn _ _ count := some (count + 1)
  buildIndexes _ count := some count
  applyIncrementalFiles _ _ count := some (count + 1)
  postconditionsHold _ _ := true
  ready _ _ := true

def plainSignature : Signature := ⟨"ed25519".toList, "k1".toList, 1, []⟩

/-- The payload of a package with one file, whose bytes are the package id. -/
def plainDigest (packageId : Text) : Text := "documents=".toList ++ packageId

def plainManifest (corpus : Corpus) (kind : PackageKind) (packageId : Text) (start stop : Nat)
    (previous : Option Text) : EmbeddedManifest where
  identity := ⟨packageId, corpus, kind, start, stop, previous, previous.map plainDigest, "base".toList,
    generationName corpus.name 1, [], []⟩
  compatibility := ⟨⟨0, 1, 0⟩, currentSchemaVersion, "bundle".toList, [], "bge".toList,
    "bge-m3".toList, 1024, true, [], none, none⟩
  entitlement := ⟨corpus, "open".toList, 1⟩
  integrity := ⟨plainDigest packageId, plainDigest packageId, [("documents".toList, packageId)]⟩
  apply := ⟨start, stop, [], ⟨currentSchemaVersion, "bge".toList, [], none, none⟩, ⟨[], []⟩⟩
  payload := ⟨[⟨"documents".toList, "documents".toList, .upsert, .jsonl, packageId⟩], ["documents".toList]⟩

def plainArtifact (manifest : EmbeddedManifest) : Artifact :=
  ⟨some ⟨manifest, plainSignature⟩, [("documents".toList, manifest.identity.packageId)]⟩

/-- The database of a fresh client after a first baseline at `sequence`. -/
def installed (sequence : Nat) : Database Nat :=
  (applyMedia plainClient .baseline true Database.empty
    (plainArtifact (plainManifest coreCorpus .baseline "core-0".toList 0 sequence none))).1

end CorpusFeed
