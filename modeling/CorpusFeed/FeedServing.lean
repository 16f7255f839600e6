import CorpusFeed.FeedChain
import CorpusFeed.ApplyCases

/-! A fresh client on a built remote manifest: it reaches the newest package
exactly when the retention window keeps the whole chain after the media root. -/

namespace CorpusFeed

/-- The cursor of a client that loaded a baseline with the given manifest. -/
def cursorAt (media : EmbeddedManifest) (baseline : BaselineRef) : ClientCursor where
  corpus := media.identity.corpus
  sequence := baseline.sequence
  activeGeneration := baseline.generation
  baselineId := baseline.baselineId
  schemaVersion := baseline.schemaVersion
  embeddingFingerprint := media.compatibility.embeddingFingerprint
  builderVersions := media.compatibility.builderVersions
  lastPackageId := some media.identity.packageId
  lastPackageDigest := some baseline.sha256

def advanceTo (cursor : ClientCursor) (entry : RemotePackageEntry) : ClientCursor :=
  { cursor with
    sequence := entry.toSequence
    lastPackageId := some entry.packageId
    lastPackageDigest := some entry.sha256 }

/-- The cursor moves to the sequence of what was applied. -/
def afterPlan (media : EmbeddedManifest) (cursor : Option ClientCursor) : CatchupPlan → Option ClientCursor
  | .freshBaseline baseline => some (cursorAt media baseline)
  | .incremental chain => cursor.map fun c => chain.foldl advanceTo c
  | .upToDate | .blocked _ _ => cursor

/-- A fresh client after some rounds of planning and applying. -/
def clientAfter (manifest : RemoteManifest) (media : EmbeddedManifest) : Nat → Option ClientCursor
  | 0 => none
  | n + 1 => afterPlan media (clientAfter manifest media n) (planCatchup manifest (clientAfter manifest media n))

/-- Versions, schemas and policy thresholds do not refuse the listed chain. -/
structure ChainAccepted (manifest : RemoteManifest) : Prop where
  baseline_version : clientVersion.satisfiesMinimum manifest.activeBaseline.minimumClientVersion = true
  baseline_schema : manifest.activeBaseline.schemaVersion ≤ currentSchemaVersion
  versions : ∀ e ∈ manifest.packages, clientVersion.satisfiesMinimum e.minimumClientVersion = true
  schemas : ∀ e ∈ manifest.packages, e.schemaVersion ≤ currentSchemaVersion
  policy : WithinPolicy manifest manifest.packages

structure ServesFresh (manifest : RemoteManifest) (media : EmbeddedManifest) (newest : Int) : Prop where
  window : manifest.minAvailableSequence ≤ manifest.activeBaseline.sequence
  root : manifest.activeBaseline.sequence ≤ manifest.headSequence
  head : manifest.headSequence = newest
  reaches : ChainAccepted manifest → ∃ n cursor, clientAfter manifest media n = some cursor ∧
    cursor.sequence = manifest.headSequence ∧ planCatchup manifest (some cursor) = .upToDate
  not_blocked : ChainAccepted manifest → ∀ n code reason,
    planCatchup manifest (clientAfter manifest media n) ≠ .blocked code reason

def activeMedia (catalog : Catalog) (root : ServedRoot) : Option EmbeddedManifest :=
  match catalog.latestMediaPackage with
  | none => none
  | some media =>
    match readPublishedManifest root media.packageId with
    | .ok (_, signed) => some signed.payload
    | .error _ => none

theorem LinksTo.from_lt {chain : List RemotePackageEntry} {start stop : Nat} (h : LinksTo start chain stop) :
    ∀ e ∈ chain, start ≤ e.fromSequence ∧ e.fromSequence < stop := by
  induction chain generalizing start with
  | nil => simp
  | cons e chain ih =>
    obtain ⟨hfrom, _, hrest⟩ := h
    have hlen := hrest.length
    intro x hx
    rcases List.mem_cons.mp hx with rfl | hx
    · omega
    · have hx := ih hrest x hx
      omega

theorem LinksTo.append {done rest : List RemotePackageEntry} {start stop : Nat}
    (h : LinksTo start (done ++ rest) stop) :
    LinksTo start done (start + done.length) ∧ LinksTo (start + done.length) rest stop := by
  induction done generalizing start with
  | nil => exact ⟨rfl, h⟩
  | cons e done ih =>
    obtain ⟨hfrom, hto, hrest⟩ := h
    obtain ⟨hdone, hrest⟩ := ih hrest
    have hlen : start + (e :: done).length = start + 1 + done.length := by
      simp only [List.length_cons]
      omega
    rw [hlen]
    exact ⟨⟨hfrom, hto, hdone⟩, hrest⟩

/-- In a linked list each sequence has one edge. -/
theorem LinksTo.filter_from {done rest : List RemotePackageEntry} {entry : RemotePackageEntry} {start stop : Nat}
    (h : LinksTo start (done ++ entry :: rest) stop) :
    (done ++ entry :: rest).filter (fun p => p.fromSequence == start + done.length) = [entry] := by
  obtain ⟨hdone, hfrom, _, hrest⟩ := h.append
  have hbefore : done.filter (fun p => p.fromSequence == start + done.length) = [] := by
    refine List.filter_eq_nil_iff.mpr fun p hp => ?_
    have hlt := (hdone.from_lt p hp).2
    simp only [beq_iff_eq]
    omega
  have hafter : rest.filter (fun p => p.fromSequence == start + done.length) = [] := by
    refine List.filter_eq_nil_iff.mpr fun p hp => ?_
    have hle := (hrest.from_lt p hp).1
    simp only [beq_iff_eq]
    omega
  rw [List.filter_append, List.filter_cons, hbefore, hafter]
  simp [hfrom]

theorem chainFrom_of_links {packages done rest : List RemotePackageEntry} {start stop : Nat}
    (hpackages : packages = done ++ rest) (h : LinksTo start packages stop) :
    chainFrom packages rest.length (start + done.length) = some rest := by
  induction rest generalizing done with
  | nil => rfl
  | cons entry rest ih =>
    have hnext : packages = (done ++ [entry]) ++ rest := by simp [hpackages]
    have hrest := ih hnext
    subst hpackages
    obtain ⟨_, _, hto, _⟩ := h.append
    have hlen : start + (done ++ [entry]).length = start + done.length + 1 := by
      rw [List.length_append]
      rfl
    rw [hlen] at hrest
    rw [List.length_cons, chainFrom, h.filter_from]
    simp [hto, hrest]

theorem foldl_advanceTo_sequence {chain : List RemotePackageEntry} {start stop : Nat}
    (h : LinksTo start chain stop) (cursor : ClientCursor) (hs : cursor.sequence = start) :
    (chain.foldl advanceTo cursor).sequence = stop := by
  induction chain generalizing start cursor with
  | nil => exact hs.trans h
  | cons e chain ih =>
    obtain ⟨_, hto, hrest⟩ := h
    exact ih hrest (advanceTo cursor e) hto

theorem LinksTo.last_to {chain : List RemotePackageEntry} {start stop : Nat} (h : LinksTo start chain stop) :
    (chain.getLast?.map RemotePackageEntry.toSequence).getD start = stop := by
  induction chain generalizing start with
  | nil => exact h
  | cons e chain ih =>
    obtain ⟨_, hto, hrest⟩ := h
    rw [List.getLast?_cons, Option.map_some, Option.getD_some, ← ih hrest, ← hto, Option.getD_map]

section Built

variable {env : ProducerEnv} {params : RemoteManifestParams} {corpus : Corpus} {active : BaselineRef}
  {packages : List RemotePackageEntry} {media : EmbeddedManifest} {n : Nat}

theorem assembleManifest_window (hlinks : LinksTo n packages (n + packages.length)) (hne : packages ≠ []) :
    (assembleManifest env params corpus active packages).minAvailableSequence = n ∧
      (assembleManifest env params corpus active packages).headSequence = n + packages.length := by
  have hlast := hlinks.last_to
  cases packages with
  | nil => exact absurd rfl hne
  | cons e rest =>
    rw [List.getLast?_cons, Option.map_some, Option.getD_some] at hlast
    refine ⟨hlinks.1, ?_⟩
    simp only [assembleManifest, List.getLast?_cons, Option.map_some, Option.getD_some]
    exact hlast

/-- A manifest that lists the whole chain over its baseline. -/
structure WholeChain (manifest : RemoteManifest) (media : EmbeddedManifest) : Prop where
  links : LinksTo manifest.activeBaseline.sequence manifest.packages manifest.headSequence
  window : manifest.minAvailableSequence = manifest.activeBaseline.sequence
  ranges : ∀ r ∈ manifest.catchupRanges, ∀ top ∈ r.toSequence, top < manifest.activeBaseline.sequence
  stamps : ∀ e ∈ manifest.packages, e.requiresBaseline = false ∧
    e.embeddingFingerprint = media.compatibility.embeddingFingerprint ∧
    e.builderVersions = media.compatibility.builderVersions

theorem WholeChain.head {manifest : RemoteManifest} (h : WholeChain manifest media) :
    manifest.activeBaseline.sequence + manifest.packages.length = manifest.headSequence := h.links.length

theorem WholeChain.plan_none {manifest : RemoteManifest} (h : WholeChain manifest media)
    (haccept : ChainAccepted manifest) : planCatchup manifest none = .freshBaseline manifest.activeBaseline := by
  have hhead := h.head
  have hnot : ¬ manifest.headSequence < manifest.activeBaseline.sequence := by omega
  have hschema : ¬ currentSchemaVersion < manifest.activeBaseline.schemaVersion := by
    have hle := haccept.baseline_schema
    omega
  simp [planCatchup, hnot, baselineCompatOrBlocked, haccept.baseline_version, hschema]

theorem WholeChain.plan_head {manifest : RemoteManifest} (h : WholeChain manifest media)
    {cursor : ClientCursor} (hs : cursor.sequence = manifest.headSequence) :
    planCatchup manifest (some cursor) = .upToDate := by
  have hhead := h.head
  have hnot : ¬ manifest.headSequence < manifest.activeBaseline.sequence := by omega
  simp [planCatchup, hnot, hs]

theorem WholeChain.plan_baseline {manifest : RemoteManifest} (h : WholeChain manifest media)
    (haccept : ChainAccepted manifest) (hne : manifest.packages ≠ []) :
    planCatchup manifest (some (cursorAt media manifest.activeBaseline)) = .incremental manifest.packages := by
  have hhead := h.head
  have hlen : 0 < manifest.packages.length := List.length_pos_iff.mpr hne
  have hnot : ¬ manifest.headSequence < manifest.activeBaseline.sequence := by omega
  have hbehind : manifest.activeBaseline.sequence ≠ manifest.headSequence := by omega
  have hwindow : manifest.requiresBaselineFor manifest.activeBaseline.sequence = false := by
    simp [RemoteManifest.requiresBaselineFor, h.window]
  have hchain : buildChain manifest manifest.activeBaseline.sequence manifest.headSequence =
      some manifest.packages := by
    have hsteps : manifest.headSequence - manifest.activeBaseline.sequence = manifest.packages.length := by omega
    rw [buildChain, if_neg hnot, hsteps]
    exact chainFrom_of_links (List.nil_append _).symm h.links
  have hrange : requiresBaselineRange manifest manifest.activeBaseline.sequence = false := by
    refine List.any_eq_false.mpr fun r hr => ?_
    have htop : r.toSequence.any (fun top => decide (manifest.activeBaseline.sequence ≤ top)) = false := by
      cases ht : r.toSequence with
      | none => rfl
      | some top =>
        have hlt := h.ranges r hr top ht
        simpa using hlt
    simp [htop]
  have hversion : (manifest.packages.find? fun e =>
      clientVersion.satisfiesMinimum e.minimumClientVersion == false) = none :=
    List.find?_eq_none.mpr fun e he => by simp [haccept.versions e he]
  have hschema : (manifest.packages.find? fun e => decide (currentSchemaVersion < e.schemaVersion)) = none := by
    refine List.find?_eq_none.mpr fun e he => ?_
    have hle := haccept.schemas e he
    simpa using hle
  have hprefer : preferBaseline manifest (cursorAt media manifest.activeBaseline) manifest.packages = false :=
    preferBaseline_eq_false_iff.mpr ⟨h.stamps, haccept.policy⟩
  have hroute : routeChain manifest (cursorAt media manifest.activeBaseline) manifest.packages =
      .incremental manifest.packages := by
    simp only [routeChain, cursorAt, hrange, hversion, hschema] at hprefer ⊢
    simp [hprefer]
  simp only [planCatchup, cursorAt, if_neg hnot, if_neg hbehind, hwindow, hchain] at hroute ⊢
  simp [hroute]

/-- The rounds of a fresh client: the baseline, the chain, and then nothing. -/
theorem WholeChain.client {manifest : RemoteManifest} (h : WholeChain manifest media)
    (haccept : ChainAccepted manifest) (n : Nat) :
    ∃ cursor, clientAfter manifest media (n + 1) = some cursor ∧
      (cursor.sequence = manifest.headSequence ∨
        manifest.packages ≠ [] ∧ n = 0 ∧ cursor = cursorAt media manifest.activeBaseline) := by
  have hhead := h.head
  induction n with
  | zero =>
    refine ⟨cursorAt media manifest.activeBaseline, ?_, ?_⟩
    · simp [clientAfter, h.plan_none haccept, afterPlan]
    · by_cases hne : manifest.packages = []
      · left
        rw [hne] at hhead
        exact hhead
      · exact Or.inr ⟨hne, rfl, rfl⟩
  | succ n ih =>
    obtain ⟨cursor, hc, hstate⟩ := ih
    rw [clientAfter, hc]
    rcases hstate with hs | ⟨hne, _, rfl⟩
    · refine ⟨cursor, ?_, Or.inl hs⟩
      rw [h.plan_head hs]
      rfl
    · refine ⟨_, ?_, Or.inl (foldl_advanceTo_sequence h.links (cursorAt media manifest.activeBaseline) rfl)⟩
      rw [h.plan_baseline haccept hne]
      rfl

theorem WholeChain.serves {manifest : RemoteManifest} (h : WholeChain manifest media) {newest : Int}
    (hnewest : manifest.headSequence = newest) : ServesFresh manifest media newest := by
  have hhead := h.head
  refine ⟨by rw [h.window], by omega, hnewest, fun haccept => ?_, fun haccept n code reason => ?_⟩
  · obtain ⟨cursor, hc, hstate⟩ := h.client haccept 1
    have hs : cursor.sequence = manifest.headSequence := by
      rcases hstate with hs | ⟨_, habsurd, _⟩
      · exact hs
      · cases habsurd
    exact ⟨2, cursor, hc, hs, h.plan_head hs⟩
  · cases n with
    | zero =>
      rw [clientAfter, h.plan_none haccept]
      simp
    | succ n =>
      obtain ⟨cursor, hc, hstate⟩ := h.client haccept n
      rw [hc]
      rcases hstate with hs | ⟨hne, _, rfl⟩
      · rw [h.plan_head hs]
        simp
      · rw [h.plan_baseline haccept hne]
        simp

end Built

/-- What a successful build read and listed. -/
structure BuiltFrom (env : ProducerEnv) (params : RemoteManifestParams) (corpus : Corpus) (catalog : Catalog)
    (root : ServedRoot) (media : CatalogRow) (dir : ArtifactDir) (signed : Signed EmbeddedManifest)
    (packages : List RemotePackageEntry) : Prop where
  latest : catalog.latestMediaPackage = some media
  read : readPublishedManifest root media.packageId = .ok (dir, signed)
  verified : verifyCatalogIdentity env media signed false = .ok ()
  listed : List.Forall₂ (ListedAs env params corpus root)
    (retainedIncrementals catalog.rows media.packageSequence params.maxRetainedIncrementals) packages
  gap_free : ensureGapFree packages = .ok ()

theorem buildRemoteManifest_ok {env : ProducerEnv} {params : RemoteManifestParams} {corpus : Corpus}
    {catalog : Catalog} {root : ServedRoot} {built : Signed RemoteManifest}
    (h : buildRemoteManifest env params corpus catalog root = .ok built) :
    ∃ media dir signed packages, BuiltFrom env params corpus catalog root media dir signed packages ∧
      built.payload = assembleManifest env params corpus (activeBaselineRef env params corpus media dir signed)
        packages ∧
      built.signature = env.signRemote built.payload := by
  unfold buildRemoteManifest at h
  split at h
  · cases h
  next media hmedia =>
  obtain ⟨⟨dir, signed⟩, hread, h⟩ := bind_eq_ok.mp h
  obtain ⟨_, hverify, h⟩ := bind_eq_ok.mp h
  obtain ⟨packages, hlisted, h⟩ := bind_eq_ok.mp h
  obtain ⟨_, hgap, h⟩ := bind_eq_ok.mp h
  cases h
  exact ⟨media, dir, signed, packages, ⟨hmedia, hread, hverify, retainedEntries_listed hlisted, hgap⟩, rfl, rfl⟩

/-- The window of the built manifest keeps the whole chain after the newest
media root, or a fresh client cannot follow it to the newest package. -/
theorem serves_fresh_iff {env : ProducerEnv} {params : RemoteManifestParams} {corpus : Corpus}
    {catalog : Catalog} {root : ServedRoot} {built : Signed RemoteManifest} {media : EmbeddedManifest}
    {newest : CatalogRow} (hchain : CatalogChain root catalog.rows) (hnewest : catalog.latestPackage = some newest)
    (hmedia : activeMedia catalog root = some media)
    (hbuild : buildRemoteManifest env params corpus catalog root = .ok built) :
    ServesFresh built.payload media newest.packageSequence ↔
      (chainAfterRoot catalog).length ≤ params.maxRetainedIncrementals := by
  obtain ⟨pre, row, increments, n, hsplit⟩ := hchain.split
  obtain ⟨last, hlast, hlastSeq, _⟩ := hsplit.last
  obtain ⟨row', dir, signed, packages, hfrom, hpayload, _⟩ := buildRemoteManifest_ok hbuild
  have hrow := hsplit.latestMedia.symm.trans hfrom.latest
  cases hrow
  have hread := hfrom.read
  obtain ⟨hactive, hfp, hbv⟩ := hsplit.served.of_read hread
  simp only [activeMedia, hsplit.latestMedia, hread, Option.some.injEq] at hmedia
  rw [Catalog.latestPackage, hlast, Option.some.injEq] at hnewest
  have hlisted := hfrom.listed
  rw [hsplit.retained] at hlisted
  subst hmedia hnewest
  rw [hlastSeq, hsplit.chainAfterRoot_length, hpayload]
  constructor
  · intro h
    by_contra hlong
    have hdrop : increments.length - params.maxRetainedIncrementals ≤ increments.length := by omega
    obtain ⟨hlinks, _⟩ := (hsplit.links.drop hdrop).listed_links hlisted
    have hlen : packages.length =
        (increments.drop (increments.length - params.maxRetainedIncrementals)).length := hlisted.length_eq.symm
    rw [← hlen] at hlinks
    rw [List.length_drop] at hlen
    have hwindow := h.window
    have hhead := h.head
    by_cases hnil : packages = []
    · subst hnil
      simp only [assembleManifest, List.getLast?_nil, Option.map_none, Option.getD_none, activeBaselineRef,
        hactive] at hhead
      simp only [List.length_nil] at hlen
      omega
    · rw [(assembleManifest_window hlinks hnil).1] at hwindow
      simp only [assembleManifest, activeBaselineRef, hactive] at hwindow
      omega
  · intro hshort
    have hzero : increments.length - params.maxRetainedIncrementals = 0 := by omega
    rw [hzero, List.drop_zero] at hlisted
    obtain ⟨hlinks, hstamps⟩ := hsplit.links.listed_links hlisted
    have hto := hlinks.last_to
    have hhead : (assembleManifest env params corpus (activeBaselineRef env params corpus row dir signed)
        packages).headSequence = n + increments.length := by
      simp only [assembleManifest, activeBaselineRef, hactive]
      exact hto
    have hmin : (assembleManifest env params corpus (activeBaselineRef env params corpus row dir signed)
        packages).minAvailableSequence = n := by
      simp only [assembleManifest, activeBaselineRef, hactive]
      cases packages with
      | nil => rfl
      | cons e rest => exact hlinks.1
    refine WholeChain.serves ⟨?_, ?_, ?_, fun e he => ?_⟩ (by rw [hhead])
    · rw [hhead]
      simp only [assembleManifest, activeBaselineRef, hactive]
      exact hlinks
    · rw [hmin]
      exact hactive.symm
    · intro r hr top htop
      have hr' : r ∈ catchupRangesFor n (activeBaselineRef env params corpus row dir signed).baselineId := hmin ▸ hr
      simp only [assembleManifest, activeBaselineRef, hactive]
      unfold catchupRangesFor at hr'
      split at hr'
      · rw [List.mem_singleton.mp hr', Option.mem_some] at htop
        omega
      · cases hr'
    · obtain ⟨hreq, hefp, hebv⟩ := hstamps e he
      exact ⟨hreq, hefp.trans hfp.symm, hebv.trans hbv.symm⟩

/-- A producer that signs everything alike and names a manifest by its package. -/
def plainProducer : ProducerEnv :=
  ⟨"ed25519".toList, fun _ => plainSignature, fun _ => plainSignature, id, fun m => m.identity.packageId, fun _ => 1⟩

def windowParams (limit : Nat) : RemoteManifestParams where
  publisher := "jurisearch".toList
  environment := "test".toList
  generatedAt := "2026-01-01T00:00:00Z".toList
  catchupPolicy := ⟨100, 1000000, 1000000, 3600⟩
  entitlementTier := .openTier
  licenseEpoch := 0
  audience := none
  signingKeyId := "k1".toList
  uriBase := "media://".toList
  maxRetainedIncrementals := limit
  defaultApplySeconds := 1
  defaultLoadSeconds := 100

def feedRow (kind : PackageKind) (packageId : Text) (n : Nat) : CatalogRow :=
  ⟨n, packageId, kind, "base".toList, generationName coreCorpus.name 1, 0, 0, none, none,
    some (plainDigest packageId), some packageId, currentSchemaVersion, "bge".toList, [], .published⟩

def feedDir (kind : PackageKind) (packageId : Text) (start stop : Nat) : ArtifactDir :=
  ⟨.whole ⟨plainManifest coreCorpus kind packageId start stop none, plainSignature⟩, []⟩

/-- A first baseline and two incrementals. -/
def coreFeed : Catalog where
  rows := [feedRow .baseline "core-1-1".toList 1, feedRow .incremental "core-1-2".toList 2,
    feedRow .incremental "core-2-3".toList 3]
  ordered := by decide

def coreRoot : ServedRoot where
  packages := ⟨[("core-1-1".toList, feedDir .baseline "core-1-1".toList 1 1),
    ("core-1-2".toList, feedDir .incremental "core-1-2".toList 1 2),
    ("core-2-3".toList, feedDir .incremental "core-2-3".toList 2 3)], by decide⟩
  manifest := none
  pending := none
  bootstrapSlot := none

theorem coreRoot_serves {kind : PackageKind} {packageId : Text} {start stop : Nat}
    (h : coreRoot.publishedPackageDir packageId = some (feedDir kind packageId start stop)) :
    ServedAs coreRoot (feedRow kind packageId stop) stop :=
  ⟨rfl, _, _, h, rfl, rfl, rfl, rfl⟩

theorem feedRow_sameStamps (kind kind' : PackageKind) (packageId packageId' : Text) (n n' : Nat) :
    (feedRow kind packageId n).SameStamps (feedRow kind' packageId' n') := ⟨rfl, rfl⟩

theorem coreFeed_chain : CatalogChain coreRoot coreFeed.rows := by
  have hfirst : CatalogChain coreRoot ([] ++ [feedRow .baseline "core-1-1".toList 1]) :=
    CatalogChain.first rfl (coreRoot_serves (by decide : _ = some (feedDir .baseline _ 1 1)))
  have hsecond : CatalogChain coreRoot ([] ++ [feedRow .baseline "core-1-1".toList 1] ++
      [feedRow .incremental "core-1-2".toList 2]) :=
    CatalogChain.incremental hfirst rfl rfl
      (coreRoot_serves (by decide : _ = some (feedDir .incremental _ 1 2))) (feedRow_sameStamps _ _ _ _ _ _)
  have hthird : CatalogChain coreRoot ([] ++ [feedRow .baseline "core-1-1".toList 1] ++
      [feedRow .incremental "core-1-2".toList 2] ++ [feedRow .incremental "core-2-3".toList 3]) :=
    CatalogChain.incremental hsecond rfl rfl
      (coreRoot_serves (by decide : _ = some (feedDir .incremental _ 2 3))) (feedRow_sameStamps _ _ _ _ _ _)
  exact hthird

def coreMedia : EmbeddedManifest := plainManifest coreCorpus .baseline "core-1-1".toList 1 1 none

theorem serves_fresh_core : ∃ built, buildRemoteManifest plainProducer (windowParams 2) coreCorpus coreFeed coreRoot =
    .ok built ∧ ServesFresh built.payload coreMedia 3 := by
  have hok : (buildRemoteManifest plainProducer (windowParams 2) coreCorpus coreFeed coreRoot).isOk = true := by
    decide
  cases h : buildRemoteManifest plainProducer (windowParams 2) coreCorpus coreFeed coreRoot with
  | error e =>
    rw [h] at hok
    cases hok
  | ok built => exact ⟨built, rfl, (serves_fresh_iff coreFeed_chain rfl rfl h).mpr (by decide)⟩

/-- A window of one drops the first incremental: the client loads the baseline
and is refused from then on. -/
theorem short_window_blocks : ∃ built,
    buildRemoteManifest plainProducer (windowParams 1) coreCorpus coreFeed coreRoot = .ok built ∧
      ¬ ServesFresh built.payload coreMedia 3 ∧
      ∃ reason, planCatchup built.payload (clientAfter built.payload coreMedia 1) =
        .blocked .baselineRequired reason := by
  have hmin : (buildRemoteManifest plainProducer (windowParams 1) coreCorpus coreFeed coreRoot).toOption.map
      (fun built => (built.payload.minAvailableSequence, built.payload.activeBaseline.sequence)) = some (2, 1) := by
    decide
  have hplan : (buildRemoteManifest plainProducer (windowParams 1) coreCorpus coreFeed coreRoot).toOption.map
      (fun built => planCatchup built.payload (clientAfter built.payload coreMedia 1)) =
      some (.blocked .baselineRequired
        "installed corpus `core` needs a re-baseline supersession, but the active media root `base` is a first baseline (not catch-up-capable)") := by
    decide +kernel
  cases h : buildRemoteManifest plainProducer (windowParams 1) coreCorpus coreFeed coreRoot with
  | error e =>
    rw [h] at hmin
    cases hmin
  | ok built =>
    rw [h] at hmin hplan
    simp only [Except.toOption, Option.map_some, Option.some.injEq, Prod.mk.injEq] at hmin hplan
    refine ⟨built, rfl, fun hserves => ?_, _, hplan⟩
    have hwindow := hserves.window
    omega

end CorpusFeed
