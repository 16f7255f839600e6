import CorpusFeed.Catchup

/-! Soundness of catch-up: every route of the planner, and what executing it
against a faithful source does to the cursor. -/

namespace CorpusFeed

variable {α : Type*}

structure PlanSound (manifest : RemoteManifest) (cursor : Option ClientCursor) : Prop where
  incremental : ∀ chain, planCatchup manifest cursor = .incremental chain →
    ∃ c, cursor = some c ∧ IncrementalSound manifest c chain
  fresh : ∀ c b, cursor = some c → planCatchup manifest cursor = .freshBaseline b →
    b.packageKind = .rebaseline ∧ c.sequence < b.sequence ∧ b.sequence ≤ manifest.headSequence
  not_again : ∀ b after b', planCatchup manifest cursor = .freshBaseline b → after.sequence = b.sequence →
    planCatchup manifest (some after) ≠ .freshBaseline b'
  upToDate : planCatchup manifest cursor = .upToDate →
    cursor.map ClientCursor.sequence = some manifest.headSequence

/-- The effect of an executed plan. Only a client at the head is left where it is as up to
date, and a chain that fails after `k` packages leaves the cursor `k` links further. -/
inductive PlanExecuted (manifest : RemoteManifest) (corpus : Corpus) (db db' : Database α) :
    CatchupPlan → Except SyncError CatchupReport → Prop where
  | upToDate (h : db' = db) (hhead : cursorSequence db corpus = some manifest.headSequence) :
    PlanExecuted manifest corpus db db' .upToDate (.ok .upToDate)
  | blocked (code : RejectCode) (reason : String) (h : db' = db) :
    PlanExecuted manifest corpus db db' (.blocked code reason) (.error (.reject code reason))
  | freshFailed (b : BaselineRef) (e : SyncError) (h : db'.cursors = db.cursors) :
    PlanExecuted manifest corpus db db' (.freshBaseline b) (.error e)
  | freshApplied (b : BaselineRef) (report : CatchupReport) (h : cursorSequence db' corpus = some b.sequence)
    (hforward : ∀ n, cursorSequence db corpus = some n → n < b.sequence)
    (hagain : ∀ b', planCatchup manifest (readClientCursor db' corpus) ≠ .freshBaseline b') :
    PlanExecuted manifest corpus db db' (.freshBaseline b) (.ok report)
  | chainFailed (chain : List RemotePackageEntry) (start k : Nat) (e : SyncError) (hk : k < chain.length)
    (hstart : cursorSequence db corpus = some start) (h : cursorSequence db' corpus = some (start + k)) :
    PlanExecuted manifest corpus db db' (.incremental chain) (.error e)
  | chainApplied (chain : List RemotePackageEntry) (start : Nat)
    (hstart : cursorSequence db corpus = some start) (hforward : start < manifest.headSequence)
    (h : cursorSequence db' corpus = some manifest.headSequence) :
    PlanExecuted manifest corpus db db' (.incremental chain) (.ok (.incrementalApplied chain.length))

theorem planSound (manifest : RemoteManifest) (cursor : Option ClientCursor) : PlanSound manifest cursor where
  incremental _ h := planCatchup_incremental h
  fresh c b hc h := by
    subst hc
    exact (planCatchup_fresh h).2
  not_again _ _ b' h hs := planCatchup_not_fresh_again h hs b'
  upToDate h := planCatchup_upToDate h

theorem planCatchup_fresh_le_head {manifest : RemoteManifest} {cursor : Option ClientCursor} {b : BaselineRef}
    (h : planCatchup manifest cursor = .freshBaseline b) : b.sequence ≤ manifest.headSequence := by
  have hb := planCatchup_fresh_sequence h
  subst hb
  unfold planCatchup at h
  dsimp only at h
  split at h
  · cases h
  · omega

/-- Every plan for a client's cursor is sound, and executing it either fails
with the cursor after the applied prefix or advances the cursor, except that
an up-to-date client stays where it is. -/
theorem catchup_sound (env : ClientEnv α) {source : CatchupSource} (lockFree : Bool) (db : Database α)
    {corpus : Corpus} {manifest : RemoteManifest} (hf : source.Faithful corpus manifest)
    (hsmall : manifest.headSequence < 2 ^ 63) :
    (∀ cursor, PlanSound manifest cursor) ∧
      PlanExecuted manifest corpus db
        (runCatchup env source lockFree db (planCatchup manifest (readClientCursor db corpus))).1
        (planCatchup manifest (readClientCursor db corpus))
        (runCatchup env source lockFree db (planCatchup manifest (readClientCursor db corpus))).2 := by
  refine ⟨planSound manifest, ?_⟩
  cases hp : planCatchup manifest (readClientCursor db corpus) with
  | upToDate => exact .upToDate rfl ((planSound manifest _).upToDate hp)
  | blocked code reason => exact .blocked code reason rfl
  | freshBaseline b =>
    have hle := planCatchup_fresh_le_head hp
    have hforward : ∀ n, cursorSequence db corpus = some n → n < b.sequence := by
      intro n hn
      obtain ⟨c, hc, rfl⟩ := Option.map_eq_some_iff.mp hn
      exact ((planSound manifest _).fresh c b hc hp).2.1
    have hne : cursorSequence db corpus ≠ some b.sequence := fun he => Nat.lt_irrefl _ (hforward _ he)
    rcases fresh_sequence env lockFree hf (planCatchup_fresh_sequence hp) (by omega) hne with ⟨hcur, e, he⟩ | ⟨hcur, report, hok⟩
    · rw [he]
      exact .freshFailed b e hcur
    · rw [hok]
      refine .freshApplied b report hcur hforward fun b' => ?_
      obtain ⟨after, hafter, hs⟩ := Option.map_eq_some_iff.mp hcur
      rw [hafter]
      exact (planSound manifest _).not_again b after b' hp hs
  | incremental chain =>
    obtain ⟨c, hc, hsound⟩ := (planSound manifest _).incremental chain hp
    have hstart : cursorSequence db corpus = some c.sequence := by rw [cursorSequence, hc, Option.map_some]
    have hlen := hsound.links.length
    have hpos := List.length_pos_iff.mpr hsound.nonempty
    rcases applyChain_sequence env lockFree hf hsound.listed 0 hsound.links hsmall hstart with
      ⟨hcur, hok⟩ | ⟨k, hk, hcur, e, he⟩
    · rw [Nat.zero_add] at hok
      simp only [runCatchup, hok]
      exact .chainApplied chain c.sequence hstart (by omega) hcur
    · simp only [runCatchup, he]
      exact .chainFailed chain c.sequence k e hk hstart hcur

def coreEntry (start stop : Nat) : RemotePackageEntry where
  packageId := "core-1".toList
  fromSequence := start
  toSequence := stop
  artifactUri := []
  compressedSizeBytes := 10
  uncompressedSizeBytes := 10
  estimatedApplySeconds := 5
  rowCounts := []
  requiresBaseline := false
  minimumClientVersion := ⟨0, 1, 0⟩
  schemaVersion := currentSchemaVersion
  embeddingFingerprint := "bge".toList
  builderVersions := []
  sha256 := plainDigest "core-1".toList
  signature := plainSignature

/-- A baseline and one incremental after it. -/
def coreListing (start stop : Nat) : RemoteManifest where
  manifestVersion := 1
  generatedAt := []
  publisher := []
  corpus := coreCorpus
  environment := []
  headSequence := stop
  minAvailableSequence := start
  activeBaseline := ⟨"base".toList, generationName coreCorpus.name 1, .baseline, start, currentSchemaVersion,
    ⟨0, 1, 0⟩, [], 1000, 1000, 600, plainDigest "core-0".toList, plainSignature⟩
  packages := [coreEntry start stop]
  catchupRanges := []
  catchupPolicy := ⟨120, 330, 500, 2700⟩
  entitlement := ⟨coreCorpus, .openTier, 1, none⟩
  signing := ⟨[], []⟩

/-- The artifacts behind the listing. -/
def coreSource : CatchupSource where
  fetchBaseline baseline :=
    .ok (plainArtifact (plainManifest coreCorpus baseline.packageKind "core-0".toList 0 baseline.sequence none))
  fetchPackage entry :=
    .ok (plainArtifact (plainManifest coreCorpus .incremental entry.packageId entry.fromSequence entry.toSequence
      (some "core-0".toList)))

theorem coreSource_faithful (start stop : Nat) : coreSource.Faithful coreCorpus (coreListing start stop) where
  package entry _ artifact signed hfetch hm := by
    simp only [coreSource, Except.ok.injEq] at hfetch
    subst hfetch
    simp only [plainArtifact, Option.some.injEq] at hm
    subst hm
    exact ⟨rfl, rfl, rfl⟩
  baseline artifact signed hfetch hm := by
    simp only [coreSource, Except.ok.injEq] at hfetch
    subst hfetch
    simp only [plainArtifact, Option.some.injEq] at hm
    subst hm
    exact ⟨rfl, rfl⟩

theorem catchup_sound_core :
    PlanExecuted (coreListing 1 2) coreCorpus (installed 1)
        (runCatchup plainClient coreSource true (installed 1)
          (planCatchup (coreListing 1 2) (readClientCursor (installed 1) coreCorpus))).1
        (planCatchup (coreListing 1 2) (readClientCursor (installed 1) coreCorpus))
        (runCatchup plainClient coreSource true (installed 1)
          (planCatchup (coreListing 1 2) (readClientCursor (installed 1) coreCorpus))).2 ∧
      cursorSequence (runCatchup plainClient coreSource true (installed 1)
        (planCatchup (coreListing 1 2) (readClientCursor (installed 1) coreCorpus))).1 coreCorpus = some 2 :=
  ⟨(catchup_sound plainClient true (installed 1) (coreSource_faithful 1 2) (by decide)).2, by decide⟩

/-- An up-to-date client succeeds without moving, and so does a client whose
stored cursor is saturated. -/
theorem catchup_without_progress :
    ((runCatchup plainClient coreSource true (installed 2)
          (planCatchup (coreListing 1 2) (readClientCursor (installed 2) coreCorpus))).2 = .ok .upToDate ∧
        cursorSequence (runCatchup plainClient coreSource true (installed 2)
          (planCatchup (coreListing 1 2) (readClientCursor (installed 2) coreCorpus))).1 coreCorpus =
          cursorSequence (installed 2) coreCorpus) ∧
      (runCatchup plainClient coreSource true (installed (2 ^ 63 - 1))
          (planCatchup (coreListing (2 ^ 63 - 1) (2 ^ 63))
            (readClientCursor (installed (2 ^ 63 - 1)) coreCorpus))).2 = .ok (.incrementalApplied 1) ∧
        cursorSequence (runCatchup plainClient coreSource true (installed (2 ^ 63 - 1))
          (planCatchup (coreListing (2 ^ 63 - 1) (2 ^ 63))
            (readClientCursor (installed (2 ^ 63 - 1)) coreCorpus))).1 coreCorpus =
          cursorSequence (installed (2 ^ 63 - 1)) coreCorpus := by
  decide

end CorpusFeed
