import CorpusFeed.PlannerSoundness
import CorpusFeed.ApplyCases

/-! Execution of a catch-up plan against a source of artifacts, and what it
does to the cursor. -/

namespace CorpusFeed

variable {α : Type*}

def readClientCursor (db : Database α) (corpus : Corpus) : Option ClientCursor :=
  (db.cursors.find? corpus).map fun cursor =>
    { corpus := corpus
      sequence := cursor.sequence.toNat
      activeGeneration := cursor.activeGeneration
      baselineId := cursor.baselineId
      schemaVersion := cursor.schemaVersion
      embeddingFingerprint := cursor.embeddingFingerprint
      builderVersions := cursor.builderVersions
      lastPackageId := cursor.lastPackageId
      lastPackageDigest := cursor.lastPackageDigest }

structure CatchupSource where
  fetchBaseline : BaselineRef → Except SyncError Artifact
  fetchPackage : RemotePackageEntry → Except SyncError Artifact

inductive CatchupReport where
  | upToDate
  | baselineApplied (outcome : ApplyOutcome)
  | incrementalApplied (applied : Nat)
deriving DecidableEq

def verifyArtifactDigest (artifact : Artifact) (expectedSha256 : Text) : Except SyncError Unit :=
  match readManifest artifact with
  | .error e => .error e
  | .ok signed =>
    if signed.payload.integrity.artifactSha256 ≠ expectedSha256 then .error (.reject .digestMismatch
      s!"fetched artifact digest {String.ofList signed.payload.integrity.artifactSha256} != remote-manifest sha256 {String.ofList expectedSha256}")
    else .ok ()

def fetchVerified (fetched : Except SyncError Artifact) (sha256 : Text) : Except SyncError Artifact :=
  match fetched with
  | .error e => .error e
  | .ok artifact =>
    match verifyArtifactDigest artifact sha256 with
    | .error e => .error e
    | .ok () => .ok artifact

def applyMediaAuto (env : ClientEnv α) (lockFree : Bool) (db : Database α) (artifact : Artifact) :
    Database α × Except SyncError ApplyOutcome :=
  match readManifest artifact with
  | .error e => (db, .error e)
  | .ok signed =>
    match signed.payload.identity.packageKind with
    | .baseline => applyMedia env .baseline lockFree db artifact
    | .rebaseline => applyMedia env .rebaseline lockFree db artifact
    | .incremental => (db, .error (.reject .baselineRequired
        "apply_media_auto only dispatches baseline/re-baseline media packages"))

/-- The loop over a chain, which stops at the first failure. -/
def applyChain (env : ClientEnv α) (source : CatchupSource) (lockFree : Bool) :
    List RemotePackageEntry → Nat → Database α → Database α × Except SyncError CatchupReport
  | [], applied, db => (db, .ok (.incrementalApplied applied))
  | entry :: chain, applied, db =>
    match fetchVerified (source.fetchPackage entry) entry.sha256 with
    | .error e => (db, .error e)
    | .ok artifact =>
      match applyIncremental env lockFree db artifact with
      | .error e => (db, .error e)
      | .ok (db', _) => applyChain env source lockFree chain (applied + 1) db'

def runCatchup (env : ClientEnv α) (source : CatchupSource) (lockFree : Bool) (db : Database α) :
    CatchupPlan → Database α × Except SyncError CatchupReport
  | .upToDate => (db, .ok .upToDate)
  | .blocked code reason => (db, .error (.reject code reason))
  | .freshBaseline baseline =>
    match fetchVerified (source.fetchBaseline baseline) baseline.sha256 with
    | .error e => (db, .error e)
    | .ok artifact =>
      match applyMediaAuto env lockFree db artifact with
      | (db', .error e) => (db', .error e)
      | (db', .ok outcome) => (db', .ok (.baselineApplied outcome))
  | .incremental chain => applyChain env source lockFree chain 0 db

/-- What a source returns for the packages and the baseline of a listing carries the
identity that is listed. -/
structure CatchupSource.Faithful (source : CatchupSource) (corpus : Corpus) (manifest : RemoteManifest) : Prop where
  package : ∀ entry ∈ manifest.packages, ∀ artifact signed, source.fetchPackage entry = .ok artifact →
    artifact.manifest = some signed → signed.payload.identity.corpus = corpus ∧
      signed.payload.apply.expectedClientFromSequence = entry.fromSequence ∧
      signed.payload.apply.resultSequence = entry.toSequence
  baseline : ∀ artifact signed, source.fetchBaseline manifest.activeBaseline = .ok artifact →
    artifact.manifest = some signed → signed.payload.identity.corpus = corpus ∧
      signed.payload.apply.resultSequence = manifest.activeBaseline.sequence

def cursorSequence (db : Database α) (corpus : Corpus) : Option Nat :=
  (readClientCursor db corpus).map ClientCursor.sequence

theorem cursorSequence_eq (db : Database α) (corpus : Corpus) :
    cursorSequence db corpus = (db.cursors.find? corpus).map fun cursor => cursor.sequence.toNat := by
  simp [cursorSequence, readClientCursor, Function.comp_def]

theorem cursorSequence_congr {db db' : Database α} (h : db'.cursors = db.cursors) (corpus : Corpus) :
    cursorSequence db' corpus = cursorSequence db corpus := by
  rw [cursorSequence_eq, cursorSequence_eq, h]

theorem saturateI64_toNat {n : Nat} (h : n < 2 ^ 63) : (saturateI64 n).toNat = n := by
  unfold saturateI64
  omega

theorem fetchVerified_ok {fetched : Except SyncError Artifact} {sha256 : Text} {artifact : Artifact}
    (h : fetchVerified fetched sha256 = .ok artifact) : fetched = .ok artifact := by
  unfold fetchVerified at h
  split at h
  · cases h
  next found =>
  split at h
  · cases h
  · cases h
    rfl

theorem mediaStep_activate_sequence {env : ClientEnv α} {lockFree : Bool} {m : MediaApply} {db db' : Database α}
    (h : mediaStep env lockFree m db .activate = .ok db') (hsmall : m.manifest.apply.resultSequence < 2 ^ 63) :
    cursorSequence db' m.corpus = some m.manifest.apply.resultSequence := by
  obtain ⟨_, hcur, _⟩ := mediaStep_activate_cases h
  have hfind : db'.cursors.find? m.corpus = some (m.stamps.cursor m.corpus m.label) := by
    rw [hcur]
    exact (Table.find?_upsert _ _ _).trans (if_pos rfl)
  rw [cursorSequence_eq, hfind, Option.map_some]
  exact congrArg some (saturateI64_toNat hsmall)

theorem runMedia_cursors (env : ClientEnv α) (lockFree : Bool) (m : MediaApply) (db : Database α)
    {phases : List MediaPhase} (h : MediaPhase.activate ∉ phases) :
    (runMedia env lockFree m (phases ++ [.activate]) db).1.cursors = db.cursors ∧
        (∃ e, (runMedia env lockFree m (phases ++ [.activate]) db).2 = .error e) ∨
      ∃ before, before.cursors = db.cursors ∧
        mediaStep env lockFree m before .activate =
          .ok (runMedia env lockFree m (phases ++ [.activate]) db).1 ∧
        (runMedia env lockFree m (phases ++ [.activate]) db).2 =
          .ok (.applied m.corpus m.manifest.apply.resultSequence) := by
  induction phases generalizing db with
  | nil =>
    simp only [List.nil_append, runMedia]
    cases hs : mediaStep env lockFree m db .activate with
    | ok db' => exact Or.inr ⟨db, rfl, hs, rfl⟩
    | error e => exact Or.inl ⟨rfl, e, rfl⟩
  | cons phase phases ih =>
    have hphase : phase ≠ .activate := fun he => h (he ▸ List.mem_cons_self)
    have hrest : MediaPhase.activate ∉ phases := fun he => h (List.mem_cons_of_mem phase he)
    simp only [List.cons_append, runMedia]
    cases hs : mediaStep env lockFree m db phase with
    | ok db' =>
      have hcur := mediaStep_cursors hs hphase
      have hh := ih db' hrest
      rw [hcur] at hh
      exact hh
    | error e => exact Or.inl ⟨rfl, e, rfl⟩

theorem applyMedia_cursors (env : ClientEnv α) (mode : MediaApplyMode) (lockFree : Bool) {db : Database α}
    {artifact : Artifact} {signed : Signed EmbeddedManifest} (hm : artifact.manifest = some signed)
    (hsmall : signed.payload.apply.resultSequence < 2 ^ 63)
    (hne : cursorSequence db signed.payload.identity.corpus ≠ some signed.payload.apply.resultSequence) :
    ((applyMedia env mode lockFree db artifact).1.cursors = db.cursors ∧
        ∃ e, (applyMedia env mode lockFree db artifact).2 = .error e) ∨
      cursorSequence (applyMedia env mode lockFree db artifact).1 signed.payload.identity.corpus =
          some signed.payload.apply.resultSequence ∧
        ∃ outcome, (applyMedia env mode lockFree db artifact).2 = .ok outcome := by
  unfold applyMedia
  split
  · next e _ => exact Or.inl ⟨rfl, e, rfl⟩
  · next outcome hs =>
    exfalso
    refine hne ?_
    rw [cursorSequence_eq]
    simp only [startMedia, readManifest, hm] at hs
    split at hs
    · cases hs
    split at hs
    · cases hs
    · next hdecision =>
      unfold idempotencyDecision at hdecision
      dsimp only at hdecision
      split at hdecision
      · cases hdecision
      next cursor hc =>
      rw [hc]
      split at hdecision
      · next heq => simp [heq]
      · repeat' split at hdecision
        all_goals cases hdecision
    · split at hs <;> cases hs
  · next m hs =>
    obtain ⟨signed', hm', hmanifest, _, _, _⟩ := startMedia_build hs
    rw [hm, Option.some.injEq] at hm'
    subst hm'
    have hrun := runMedia_cursors env lockFree m db
      (show MediaPhase.activate ∉ [.reset, .register, .clone, .copy, .index, .validate] by decide)
    rcases hrun with hfail | ⟨before, _, hstep, hok⟩
    · exact Or.inl hfail
    · refine Or.inr ⟨?_, _, hok⟩
      rw [← hmanifest]
      exact mediaStep_activate_sequence hstep (hmanifest ▸ hsmall)

/-- An incremental that a faithful source returned for an entry moves the
cursor from the entry's start to its end. -/
theorem applyIncremental_sequence {env : ClientEnv α} {lockFree : Bool} {db db' : Database α}
    {artifact : Artifact} {outcome : ApplyOutcome} {signed : Signed EmbeddedManifest} {corpus : Corpus}
    {start : Nat} (h : applyIncremental env lockFree db artifact = .ok (db', outcome))
    (hm : artifact.manifest = some signed) (hc : signed.payload.identity.corpus = corpus)
    (hstart : cursorSequence db corpus = some start) (hto : signed.payload.apply.resultSequence = start + 1)
    (hsmall : start + 1 < 2 ^ 63) : cursorSequence db' corpus = some (start + 1) := by
  obtain ⟨signed', cursor, hm', _, hfind, hcase⟩ := applyIncremental_cases h
  rw [hm, Option.some.injEq] at hm'
  subst hm' hc
  have hcurrent : cursor.sequence.toNat = start := by
    simpa [cursorSequence_eq, hfind] using hstart
  rcases hcase with ⟨_, heq, _⟩ | ⟨_, _, rows, _, rfl⟩
  · omega
  · have hfound : (db.setRows (schemaIdentifier cursor.activeGeneration) rows).cursors.find?
        signed.payload.identity.corpus = some cursor := hfind
    rw [cursorSequence_eq, Database.advanceCorpusCursor_find?, hfound]
    simp only [Option.map_some, if_true, advanceCursor, hto, saturateI64_toNat hsmall]

/-- After `k` applied packages the cursor stands `k` links further: a failure
stops the chain and skips nothing. -/
theorem applyChain_sequence (env : ClientEnv α) {source : CatchupSource} (lockFree : Bool) {corpus : Corpus}
    {manifest : RemoteManifest} (hf : source.Faithful corpus manifest) {chain : List RemotePackageEntry}
    (hlisted : ∀ entry ∈ chain, entry ∈ manifest.packages) {start head : Nat} (applied : Nat)
    {db : Database α} (hlinks : LinksTo start chain head) (hsmall : head < 2 ^ 63)
    (hstart : cursorSequence db corpus = some start) :
    (cursorSequence (applyChain env source lockFree chain applied db).1 corpus = some head ∧
        (applyChain env source lockFree chain applied db).2 =
          .ok (.incrementalApplied (applied + chain.length))) ∨
      ∃ k < chain.length, cursorSequence (applyChain env source lockFree chain applied db).1 corpus =
          some (start + k) ∧
        ∃ e, (applyChain env source lockFree chain applied db).2 = .error e := by
  induction chain generalizing start applied db with
  | nil =>
    have hstop : start = head := hlinks
    exact Or.inl ⟨hstop ▸ hstart, rfl⟩
  | cons entry chain ih =>
    have hlen := hlinks.length
    obtain ⟨hfrom, hto, hrest⟩ := hlinks
    simp only [List.length_cons] at hlen ⊢
    unfold applyChain
    split
    · next e _ => exact Or.inr ⟨0, by omega, hstart, e, rfl⟩
    next artifact hfetch =>
    split
    · next e _ => exact Or.inr ⟨0, by omega, hstart, e, rfl⟩
    next db' outcome happly =>
    obtain ⟨signed, _, hm, _⟩ := applyIncremental_cases happly
    obtain ⟨hc, _, hresult⟩ := hf.package entry (hlisted entry List.mem_cons_self) artifact signed (fetchVerified_ok hfetch) hm
    have hnext := applyIncremental_sequence happly hm hc hstart (hresult.trans hto) (by omega)
    have hlater : ∀ entry ∈ chain, entry ∈ manifest.packages := fun e he => hlisted e (List.mem_cons_of_mem _ he)
    rcases ih hlater (applied + 1) hrest hnext with ⟨hcur, hok⟩ | ⟨k, hk, hcur, herr⟩
    · refine Or.inl ⟨hcur, ?_⟩
      have hcount : applied + 1 + chain.length = applied + (chain.length + 1) := by omega
      rw [hok, hcount]
    · refine Or.inr ⟨k + 1, by omega, ?_, herr⟩
      have hsum : start + 1 + k = start + (k + 1) := by omega
      rw [hcur, hsum]

theorem fresh_sequence (env : ClientEnv α) {source : CatchupSource} (lockFree : Bool) {corpus : Corpus}
    {manifest : RemoteManifest} (hf : source.Faithful corpus manifest) {baseline : BaselineRef}
    (hlisted : baseline = manifest.activeBaseline) {db : Database α} (hsmall : baseline.sequence < 2 ^ 63)
    (hne : cursorSequence db corpus ≠ some baseline.sequence) :
    ((runCatchup env source lockFree db (.freshBaseline baseline)).1.cursors = db.cursors ∧
        ∃ e, (runCatchup env source lockFree db (.freshBaseline baseline)).2 = .error e) ∨
      cursorSequence (runCatchup env source lockFree db (.freshBaseline baseline)).1 corpus =
          some baseline.sequence ∧
        ∃ report, (runCatchup env source lockFree db (.freshBaseline baseline)).2 = .ok report := by
  subst hlisted
  unfold runCatchup
  dsimp only
  split
  · next e _ => exact Or.inl ⟨rfl, e, rfl⟩
  next artifact hfetch =>
  have hmedia : ∀ mode signed, artifact.manifest = some signed →
      ((applyMedia env mode lockFree db artifact).1.cursors = db.cursors ∧
          ∃ e, (applyMedia env mode lockFree db artifact).2 = .error e) ∨
        cursorSequence (applyMedia env mode lockFree db artifact).1 corpus = some manifest.activeBaseline.sequence ∧
          ∃ outcome, (applyMedia env mode lockFree db artifact).2 = .ok outcome := by
    intro mode signed hm
    obtain ⟨hc, hresult⟩ := hf.baseline artifact signed (fetchVerified_ok hfetch) hm
    have hh := applyMedia_cursors env mode lockFree hm
      (hresult.symm ▸ hsmall) (by rw [hc, hresult]; exact hne)
    rwa [hc, hresult] at hh
  have hauto : ((applyMediaAuto env lockFree db artifact).1.cursors = db.cursors ∧
          ∃ e, (applyMediaAuto env lockFree db artifact).2 = .error e) ∨
        cursorSequence (applyMediaAuto env lockFree db artifact).1 corpus = some manifest.activeBaseline.sequence ∧
          ∃ outcome, (applyMediaAuto env lockFree db artifact).2 = .ok outcome := by
    unfold applyMediaAuto readManifest
    cases hm : artifact.manifest with
    | none => exact Or.inl ⟨rfl, _, rfl⟩
    | some signed =>
      dsimp only
      split
      · exact hmedia .baseline signed hm
      · exact hmedia .rebaseline signed hm
      · exact Or.inl ⟨rfl, _, rfl⟩
  rcases hr : applyMediaAuto env lockFree db artifact with ⟨db', result⟩
  rw [hr] at hauto
  rcases hauto with ⟨hcur, e, he⟩ | ⟨hcur, outcome, hok⟩
  · subst he
    exact Or.inl ⟨hcur, e, rfl⟩
  · subst hok
    exact Or.inr ⟨hcur, _, rfl⟩

end CorpusFeed
