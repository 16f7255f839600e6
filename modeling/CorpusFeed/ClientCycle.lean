import CorpusFeed.CatchupSound
import CorpusFeed.SyncDaemon

/-! One cycle of the daemon for a corpus: the anchors and the listing it reads,
and what the catch-up it plans does to the cursors of the client. -/

namespace CorpusFeed

variable {α : Type*}

/-- What a cycle meets: the client under the trust anchors it loads, the signed
listing it fetches, the cursor query, the artifacts and the lock. -/
structure CycleRead (α : Type*) where
  loaded : Except SyncError (ClientEnv α)
  verifyRemote : RemoteManifest → Signature → Option String
  fetchManifest : Except SyncError (Signed RemoteManifest)
  queried : Except SyncError Unit
  source : CatchupSource
  lockFree : Bool

def checkManifestCorpus (manifest : RemoteManifest) (corpus : Text) : Except SyncError Unit :=
  if manifest.corpus.name ≠ corpus then .error (.reject .wrongGeneration
    s!"remote manifest is for corpus `{String.ofList manifest.corpus.name}`, not the requested `{String.ofList corpus}`")
  else .ok ()

def fetchVerifyManifest (read : CycleRead α) (corpus : Text) : Except SyncError RemoteManifest :=
  match read.fetchManifest with
  | .error e => .error e
  | .ok signed =>
    match read.verifyRemote signed.payload signed.signature with
    | some error => .error (.reject .signatureInvalid s!"remote manifest signature invalid: {error}")
    | none =>
      match checkManifestCorpus signed.payload corpus with
      | .error e => .error e
      | .ok () => .ok signed.payload

def runCorpusCycle (read : CycleRead α) (corpus : Text) (db : Database α) :
    Database α × Except SyncError CatchupReport :=
  match read.loaded with
  | .error e => (db, .error e)
  | .ok env =>
    match fetchVerifyManifest read corpus with
    | .error e => (db, .error e)
    | .ok manifest =>
      match read.queried with
      | .error e => (db, .error e)
      | .ok () =>
        runCatchup env read.source read.lockFree db (planCatchup manifest (readClientCursor db manifest.corpus))

theorem fetchVerifyManifest_corpus {read : CycleRead α} {corpus : Text} {manifest : RemoteManifest}
    (h : fetchVerifyManifest read corpus = .ok manifest) : manifest.corpus.name = corpus := by
  rw [fetchVerifyManifest] at h
  split at h
  · cases h
  split at h
  · cases h
  split at h
  · cases h
  next hchecked =>
  cases h
  rw [checkManifestCorpus] at hchecked
  split at hchecked
  · cases hchecked
  next hcorpus => exact not_not.mp hcorpus

/-- The rank of a cursor: nothing applied, then the sequences. -/
def sequenceRank : Option Nat → Nat
  | none => 0
  | some n => n + 1

/-- The catch-ups a cursor is away from the head of a listing, at most. -/
def catchupsLeft (manifest : RemoteManifest) : Option Nat → Nat
  | none => 2
  | some n => if n = manifest.headSequence then 0 else if manifest.activeBaseline.sequence ≤ n then 1 else 2

theorem catchupsLeft_of_ne {manifest : RemoteManifest} {n : Nat} (h : n ≠ manifest.headSequence) :
    catchupsLeft manifest (some n) = if manifest.activeBaseline.sequence ≤ n then 1 else 2 := by
  rw [catchupsLeft, if_neg h]

section Others

variable {env : ClientEnv α} {lockFree : Bool} {db db' : Database α} {c d : Corpus}

theorem mediaStep_activate_others {m : MediaApply} (h : mediaStep env lockFree m db .activate = .ok db')
    (hd : d ≠ m.corpus) : cursorSequence db' d = cursorSequence db d := by
  obtain ⟨_, hcursors, _⟩ := mediaStep_activate_cases h
  have hfind : db'.cursors.find? d = db.cursors.find? d := by
    rw [hcursors]
    exact (Table.find?_upsert _ _ d).trans (if_neg hd)
  rw [cursorSequence_eq, cursorSequence_eq, hfind]

theorem applyMedia_others (env : ClientEnv α) (lockFree : Bool) (db : Database α) (mode : MediaApplyMode)
    {artifact : Artifact} {signed : Signed EmbeddedManifest} (hm : artifact.manifest = some signed)
    (hd : d ≠ signed.payload.identity.corpus) :
    cursorSequence (applyMedia env mode lockFree db artifact).1 d = cursorSequence db d := by
  rw [applyMedia]
  split
  · rfl
  · rfl
  next m hstart =>
    obtain ⟨signed', hm', hmanifest, _⟩ := startMedia_build hstart
    rw [hm, Option.some.injEq] at hm'
    subst hm'
    have hcorpus : d ≠ m.corpus := by
      rw [MediaApply.corpus, hmanifest]
      exact hd
    have hrun := runMedia_cursors env lockFree m db
      (show MediaPhase.activate ∉ [.reset, .register, .clone, .copy, .index, .validate] by decide)
    rcases hrun with ⟨hcursors, _⟩ | ⟨before, hbefore, hstep, _⟩
    · exact cursorSequence_congr hcursors d
    · exact (mediaStep_activate_others hstep hcorpus).trans (cursorSequence_congr hbefore d)

theorem applyMediaAuto_others (env : ClientEnv α) (lockFree : Bool) (db : Database α) {artifact : Artifact}
    (hd : ∀ signed, artifact.manifest = some signed → d ≠ signed.payload.identity.corpus) :
    cursorSequence (applyMediaAuto env lockFree db artifact).1 d = cursorSequence db d := by
  rw [applyMediaAuto, readManifest]
  cases hm : artifact.manifest with
  | none => rfl
  | some signed =>
    dsimp only
    split
    · exact applyMedia_others env lockFree db .baseline hm (hd signed hm)
    · exact applyMedia_others env lockFree db .rebaseline hm (hd signed hm)
    · rfl

theorem applyIncremental_others {artifact : Artifact} {outcome : ApplyOutcome}
    (h : applyIncremental env lockFree db artifact = .ok (db', outcome))
    (hd : ∀ signed, artifact.manifest = some signed → d ≠ signed.payload.identity.corpus) :
    cursorSequence db' d = cursorSequence db d := by
  obtain ⟨signed, cursor, hm, _, _, hcase⟩ := applyIncremental_cases h
  rcases hcase with ⟨rfl, _⟩ | ⟨_, _, rows, _, rfl⟩
  · rfl
  · have hkept : (db.setRows (schemaIdentifier cursor.activeGeneration) rows).cursors.find? d =
        db.cursors.find? d := rfl
    have hne := hd signed hm
    rw [cursorSequence_eq, cursorSequence_eq, Database.advanceCorpusCursor_find?, hkept]
    simp [hne]

theorem applyChain_others (env : ClientEnv α) {source : CatchupSource} (lockFree : Bool) {manifest : RemoteManifest}
    (hf : source.Faithful c manifest) (hd : d ≠ c) (chain : List RemotePackageEntry)
    (hlisted : ∀ entry ∈ chain, entry ∈ manifest.packages) (applied : Nat) (db : Database α) :
    cursorSequence (applyChain env source lockFree chain applied db).1 d = cursorSequence db d := by
  induction chain generalizing applied db with
  | nil => rfl
  | cons entry chain ih =>
    rw [applyChain]
    split
    · rfl
    next artifact hfetch =>
    split
    · rfl
    next db' outcome happly =>
    have hne : ∀ signed, artifact.manifest = some signed → d ≠ signed.payload.identity.corpus := by
      intro signed hm
      rw [(hf.package entry (hlisted entry List.mem_cons_self) artifact signed (fetchVerified_ok hfetch) hm).1]
      exact hd
    rw [ih fun e he => hlisted e (List.mem_cons_of_mem _ he), applyIncremental_others happly hne]

theorem runCatchup_others (env : ClientEnv α) {source : CatchupSource} (lockFree : Bool) {manifest : RemoteManifest}
    (hf : source.Faithful c manifest) (hd : d ≠ c) (db : Database α) {cursor : Option ClientCursor}
    {plan : CatchupPlan} (hplan : planCatchup manifest cursor = plan) :
    cursorSequence (runCatchup env source lockFree db plan).1 d = cursorSequence db d := by
  cases plan with
  | upToDate => rfl
  | blocked code reason => rfl
  | incremental chain =>
    obtain ⟨_, _, hsound⟩ := planCatchup_incremental hplan
    exact applyChain_others env lockFree hf hd chain hsound.listed 0 db
  | freshBaseline b =>
    have hb := planCatchup_fresh_sequence hplan
    subst hb
    rw [runCatchup]
    split
    · rfl
    next artifact hfetch =>
    have hauto := applyMediaAuto_others env lockFree db (fun signed hm => by
      rw [(hf.baseline artifact signed (fetchVerified_ok hfetch) hm).1]
      exact hd : ∀ signed, artifact.manifest = some signed → d ≠ signed.payload.identity.corpus)
    split
    next db' e hresult =>
      rw [hresult] at hauto
      exact hauto
    next db' outcome hresult =>
      rw [hresult] at hauto
      exact hauto

end Others

section Effect

variable {db db' : Database α} {manifest : RemoteManifest} {corpus : Corpus}

/-- What a cycle against a listing does to the cursors. A cycle that reports
progress brings the corpus nearer to the head, one that reports to be up to date
found it there. -/
structure CycleEffect (manifest : RemoteManifest) (corpus : Corpus) (db db' : Database α)
    (result : Except SyncError CatchupReport) : Prop where
  others : ∀ d, d ≠ corpus → cursorSequence db' d = cursorSequence db d
  forward : sequenceRank (cursorSequence db corpus) ≤ sequenceRank (cursorSequence db' corpus)
  stays : catchupsLeft manifest (cursorSequence db' corpus) ≤ catchupsLeft manifest (cursorSequence db corpus)
  advances : classify result = .progress →
    sequenceRank (cursorSequence db corpus) < sequenceRank (cursorSequence db' corpus)
  nearer : classify result = .progress →
    catchupsLeft manifest (cursorSequence db' corpus) < catchupsLeft manifest (cursorSequence db corpus)
  atHead : classify result = .upToDate → cursorSequence db' corpus = some manifest.headSequence

theorem classify_error (e : SyncError) : (∃ reason, classify (.error e) = .retryable reason) ∨
    ∃ code message, classify (.error e) = .rejected code message := by
  cases e with
  | reject code message => exact .inr ⟨code, message, rfl⟩
  | storage error =>
    left
    by_cases hretryable : (SyncError.storage error).isRetryable = true
    · exact ⟨_, if_pos hretryable⟩
    · exact ⟨_, if_neg hretryable⟩
  | io message => exact .inl ⟨_, rfl⟩
  | json message => exact .inl ⟨_, rfl⟩
  | postgres message => exact .inl ⟨_, rfl⟩
  | lockBusy message => exact .inl ⟨_, rfl⟩

theorem classify_error_ne_progress (e : SyncError) : classify (.error e) ≠ .progress := by
  rcases classify_error e with ⟨reason, h⟩ | ⟨code, message, h⟩
  · simp [h]
  · simp [h]

theorem classify_error_ne_upToDate (e : SyncError) : classify (.error e) ≠ .upToDate := by
  rcases classify_error e with ⟨reason, h⟩ | ⟨code, message, h⟩
  · simp [h]
  · simp [h]

theorem CycleEffect.failed (e : SyncError) (hothers : ∀ d, d ≠ corpus → cursorSequence db' d = cursorSequence db d)
    (hforward : sequenceRank (cursorSequence db corpus) ≤ sequenceRank (cursorSequence db' corpus))
    (hstays : catchupsLeft manifest (cursorSequence db' corpus) ≤ catchupsLeft manifest (cursorSequence db corpus)) :
    CycleEffect manifest corpus db db' (.error e) where
  others := hothers
  forward := hforward
  stays := hstays
  advances := fun h => absurd h (classify_error_ne_progress e)
  nearer := fun h => absurd h (classify_error_ne_progress e)
  atHead := fun h => absurd h (classify_error_ne_upToDate e)

theorem CycleEffect.unchanged (e : SyncError) : CycleEffect manifest corpus db db (.error e) :=
  .failed e (fun _ _ => rfl) (Nat.le_refl _) (Nat.le_refl _)

theorem freshBaseline_before {b : BaselineRef}
    (hplan : planCatchup manifest (readClientCursor db corpus) = .freshBaseline b) {n : Nat}
    (hn : cursorSequence db corpus = some n) : n < b.sequence := by
  obtain ⟨c, hc, rfl⟩ := Option.map_eq_some_iff.mp hn
  rw [hc] at hplan
  exact (planCatchup_fresh hplan).2.2.1

theorem freshBaseline_classified {env : ClientEnv α} {source : CatchupSource} {lockFree : Bool} {b : BaselineRef}
    {report : CatchupReport} (h : (runCatchup env source lockFree db (.freshBaseline b)).2 = .ok report) :
    classify (.ok report) = .progress := by
  rw [runCatchup] at h
  split at h
  · cases h
  next artifact _ =>
  split at h
  · cases h
  · cases h
    rfl

theorem freshBaseline_effect (env : ClientEnv α) {source : CatchupSource} (lockFree : Bool)
    (hf : source.Faithful corpus manifest) (hsmall : manifest.headSequence < 2 ^ 63) {b : BaselineRef}
    (hplan : planCatchup manifest (readClientCursor db corpus) = .freshBaseline b) :
    CycleEffect manifest corpus db (runCatchup env source lockFree db (.freshBaseline b)).1
      (runCatchup env source lockFree db (.freshBaseline b)).2 := by
  have hothers := fun d (hd : d ≠ corpus) => runCatchup_others env lockFree hf hd db hplan
  have hle := planCatchup_fresh_le_head hplan
  have hb := planCatchup_fresh_sequence hplan
  have hne : cursorSequence db corpus ≠ some b.sequence := by
    intro heq
    have := freshBaseline_before hplan heq
    omega
  rcases fresh_sequence env lockFree hf hb (by omega) hne with ⟨hcursors, e, he⟩ | ⟨hcursor, report, hok⟩
  · rw [he]
    have hkept := cursorSequence_congr hcursors corpus
    exact .failed e hothers (by rw [hkept]) (by rw [hkept])
  · have hrank : sequenceRank (cursorSequence db corpus) < sequenceRank (some b.sequence) ∧
        catchupsLeft manifest (some b.sequence) < catchupsLeft manifest (cursorSequence db corpus) := by
      have hafter : catchupsLeft manifest (some b.sequence) ≤ 1 := by
        simp only [catchupsLeft, hb, Nat.le_refl, if_true]
        split <;> omega
      cases hbefore : cursorSequence db corpus with
      | none =>
        simp only [sequenceRank, catchupsLeft] at hafter ⊢
        omega
      | some n =>
        have hlt := freshBaseline_before hplan hbefore
        have hleft : catchupsLeft manifest (some n) = 2 := by
          rw [hb] at hlt hle
          rw [catchupsLeft_of_ne (by omega), if_neg (by omega)]
        rw [hleft]
        simp only [sequenceRank]
        omega
    refine ⟨hothers, ?_, ?_, ?_, ?_, ?_⟩
    · rw [hcursor]
      exact Nat.le_of_lt hrank.1
    · rw [hcursor]
      exact Nat.le_of_lt hrank.2
    · intro _
      rw [hcursor]
      exact hrank.1
    · intro _
      rw [hcursor]
      exact hrank.2
    · intro h
      rw [hok, freshBaseline_classified hok] at h
      cases h

theorem incremental_effect (env : ClientEnv α) {source : CatchupSource} (lockFree : Bool)
    (hf : source.Faithful corpus manifest) (hsmall : manifest.headSequence < 2 ^ 63) {chain : List RemotePackageEntry}
    (hplan : planCatchup manifest (readClientCursor db corpus) = .incremental chain) :
    CycleEffect manifest corpus db (runCatchup env source lockFree db (.incremental chain)).1
      (runCatchup env source lockFree db (.incremental chain)).2 := by
  have hothers := fun d (hd : d ≠ corpus) => runCatchup_others env lockFree hf hd db hplan
  obtain ⟨c, hc, hsound⟩ := planCatchup_incremental hplan
  have hstart : cursorSequence db corpus = some c.sequence := by
    rw [cursorSequence, hc, Option.map_some]
  have hlength := hsound.links.length
  have hpos := List.length_pos_iff.mpr hsound.nonempty
  rw [runCatchup] at hothers ⊢
  rcases applyChain_sequence env lockFree hf hsound.listed 0 hsound.links hsmall hstart with
    ⟨hcursor, hok⟩ | ⟨k, _, hcursor, e, he⟩
  · have hrank : sequenceRank (some c.sequence) < sequenceRank (some manifest.headSequence) := by
      simp only [sequenceRank]
      omega
    have hleft : catchupsLeft manifest (some manifest.headSequence) < catchupsLeft manifest (some c.sequence) := by
      rw [catchupsLeft, if_pos rfl, catchupsLeft_of_ne (by omega)]
      split <;> omega
    rw [← hcursor, ← hstart] at hrank hleft
    exact ⟨hothers, Nat.le_of_lt hrank, Nat.le_of_lt hleft, fun _ => hrank, fun _ => hleft, fun _ => hcursor⟩
  · rw [he]
    apply CycleEffect.failed e hothers
    · rw [hcursor, hstart]
      simp only [sequenceRank]
      omega
    · rw [hcursor, hstart, catchupsLeft_of_ne (by omega), catchupsLeft_of_ne (by omega)]
      split <;> split <;> omega

theorem runCatchup_effect (env : ClientEnv α) {source : CatchupSource} (lockFree : Bool)
    (hf : source.Faithful corpus manifest) (hsmall : manifest.headSequence < 2 ^ 63) (db : Database α) :
    CycleEffect manifest corpus db
      (runCatchup env source lockFree db (planCatchup manifest (readClientCursor db corpus))).1
      (runCatchup env source lockFree db (planCatchup manifest (readClientCursor db corpus))).2 := by
  cases hplan : planCatchup manifest (readClientCursor db corpus) with
  | upToDate =>
    refine ⟨fun _ _ => rfl, Nat.le_refl _, Nat.le_refl _, ?_, ?_, fun _ => planCatchup_upToDate hplan⟩
    · intro h
      cases h
    · intro h
      cases h
  | blocked code reason => exact .unchanged _
  | freshBaseline b => exact freshBaseline_effect env lockFree hf hsmall hplan
  | incremental chain => exact incremental_effect env lockFree hf hsmall hplan

/-- A cycle that verifies a listing has the effect of its catch-up, and any other
fails and changes nothing. -/
theorem runCorpusCycle_cases (read : CycleRead α) (name : Text) (db : Database α) :
    (∃ e, runCorpusCycle read name db = (db, .error e)) ∨
      ∃ verified, fetchVerifyManifest read name = .ok verified ∧
        (read.source.Faithful verified.corpus verified → verified.headSequence < 2 ^ 63 →
          CycleEffect verified verified.corpus db (runCorpusCycle read name db).1 (runCorpusCycle read name db).2) := by
  rw [runCorpusCycle]
  split
  next e _ => exact .inl ⟨e, rfl⟩
  next env _ =>
  split
  next e _ => exact .inl ⟨e, rfl⟩
  next verified hverified =>
  split
  next e _ => exact .inl ⟨e, rfl⟩
  next hqueried => exact .inr ⟨verified, hverified, fun hf hsmall => runCatchup_effect env read.lockFree hf hsmall db⟩

end Effect

end CorpusFeed
