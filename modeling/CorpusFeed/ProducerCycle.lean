import CorpusFeed.PackageBuild

/-! The operated producer: one cycle resumes a staged incremental, builds and
publishes the next one and rewrites the remote manifest. A re-baseline cycle
discards an unfinished re-baseline instead of resuming it. -/

namespace CorpusFeed

namespace FeedScript

/-- The identity of a staged package, if one is staged. -/
def readStagedIdentity (s : FeedState) : Except BuildError (Option (Text × PackageKind)) :=
  match s.root.pending with
  | none => .ok none
  | some dir =>
    match dir.manifest with
    | .absent => .ok none
    | .torn => .error (.json "EOF while parsing a value")
    | .whole signed => .ok (some (signed.payload.identity.packageId, signed.payload.identity.packageKind))

def publishSlot (slot : Slot) (packageId : Text) : FeedScript PUnit :=
  Script.tryWrite fun s =>
    match s.slot slot with
    | none => .error (.io "No such file or directory")
    | some dir =>
      match publishPackage s.root packageId dir with
      | .error e => .error e
      | .ok root => .ok { s with root := root }

def markPublished (corpus : Corpus) (packageId : Text) : FeedScript PUnit :=
  Script.tryWrite fun s =>
    match s.catalog.markPackagePublished corpus packageId with
    | .error e => .error e
    | .ok catalog => .ok { s with catalog := catalog }

/-- Serve a staged package, record it as published, and free the slot. -/
def publishStaged (corpus : Corpus) (slot : Slot) (packageId : Text) : FeedScript PUnit := do
  publishSlot slot packageId
  markPublished corpus packageId
  cleanSlot slot

/-- An uncatalogued artifact is an incomplete build and is discarded. -/
def resumePending (corpus : Corpus) : FeedScript (Option Text) := do
  match ← Script.check readStagedIdentity with
  | none => pure none
  | some (packageId, _) =>
    match ← Script.read fun s => s.catalog.packageCatalogStatus packageId with
    | none =>
      cleanSlot .pending
      pure none
    | some _ =>
      publishStaged corpus .pending packageId
      pure (some packageId)

def publishFeed (env : ProducerEnv) (params : RemoteManifestParams) (corpus : Corpus) : FeedScript PUnit := do
  let signed ← Script.check fun s => buildRemoteManifest env params corpus s.catalog s.root
  Script.write fun s => { s with root := publishRemoteManifest s.root signed }

end FeedScript

/-- The newest catalogued package and its window. -/
def publishedHead (s : FeedState) : Option (Nat × Nat) :=
  s.catalog.latestPackage.map fun row => (row.packageSequence.toNat, row.includedChangeSeqHigh.toNat)

structure ProducerCycleConfig where
  incrementalParams : IncrementalParams
  remoteManifestParams : RemoteManifestParams

structure ProducerCycleReport where
  builtIncremental : Option Text
  head : Option (Nat × Nat)
deriving DecidableEq

structure RebaselineCycleConfig where
  baselineParams : BaselineParams
  remoteManifestParams : RemoteManifestParams

structure RebaselineCycleReport where
  packageId : Text
  baselineId : Text
  fromSequence : Nat
  toSequence : Nat
  head : Option (Nat × Nat)
deriving DecidableEq

namespace FeedScript

def publishBuilt (corpus : Corpus) : Option Text → FeedScript PUnit
  | none => pure ⟨⟩
  | some packageId => publishStaged corpus .pending packageId

def producerCycle (env : ProducerEnv) (corpus : Corpus) (config : ProducerCycleConfig)
    (snapshot : IncrementalSnapshot) : FeedScript ProducerCycleReport := do
  let resumed ← resumePending corpus
  cleanSlot .pending
  createSlot .pending
  let built ← buildIncremental env corpus config.incrementalParams snapshot
  publishBuilt corpus built
  publishFeed env config.remoteManifestParams corpus
  let head ← Script.read publishedHead
  pure ⟨built <|> resumed, head⟩

/-- A staged re-baseline is dropped with its unpublished row, and a staged
incremental is resumed. -/
def settleStaged (corpus : Corpus) : FeedScript PUnit := do
  match ← Script.check readStagedIdentity with
  | none => pure ⟨⟩
  | some (packageId, .rebaseline) =>
    Script.write fun s => { s with catalog := s.catalog.deleteUnpublishedPackageRow packageId }
    cleanSlot .pending
  | some _ =>
    let _ ← resumePending corpus
    pure ⟨⟩

/-- A re-baseline from the current tables over the newest package. -/
def freshRebaseline (env : ProducerEnv) (corpus : Corpus) (config : RebaselineCycleConfig)
    (snapshot : MediaSnapshot) : FeedScript RebaselineCycleReport := do
  cleanSlot .pending
  createSlot .pending
  let spec ← buildRebaseline env corpus .pending config.baselineParams snapshot
  publishStaged corpus .pending spec.packageId
  publishFeed env config.remoteManifestParams corpus
  let head ← Script.read publishedHead
  pure ⟨spec.packageId, spec.baselineId, spec.fromSequence, spec.toSequence, head⟩

def rebaselineCycle (env : ProducerEnv) (corpus : Corpus) (config : RebaselineCycleConfig)
    (snapshot : MediaSnapshot) : FeedScript RebaselineCycleReport := do
  settleStaged corpus
  freshRebaseline env corpus config snapshot

end FeedScript

end CorpusFeed
