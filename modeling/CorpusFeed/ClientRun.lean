import CorpusFeed.ApplyCases
import CorpusFeed.RegistryReachable

/-! Runs of one client: media applies of several corpora in flight, each
holding its corpus lock, interleaved with incremental applies. -/

namespace CorpusFeed

/-- `running` pairs an apply with its remaining phases, and `history` holds the
applied packages, newest first. -/
structure ClientSystem (α : Type*) where
  db : Database α
  running : List (MediaApply × List MediaPhase)
  history : List EmbeddedManifest

inductive ClientAction (α : Type*) where
  | start (mode : MediaApplyMode) (artifact : Artifact)
  | advance (corpus : Corpus) (lockFree : Bool)
  | interruptLoad (corpus : Corpus) (rows : α)
  | crash (corpus : Corpus)
  | incremental (lockFree : Bool) (artifact : Artifact)

inductive StepOutcome where
  | waiting
  | applied (manifest : EmbeddedManifest)
  | alreadyApplied
  | rejected
deriving DecidableEq

variable {α : Type*}

namespace ClientSystem

def fresh : ClientSystem α := ⟨Database.empty, [], []⟩

def lockHolder (s : ClientSystem α) (corpus : Corpus) : Option (MediaApply × List MediaPhase) :=
  s.running.find? fun entry => entry.1.corpus = corpus

/-- The apply of a corpus ends and its lock is released. -/
def release (s : ClientSystem α) (corpus : Corpus) : List (MediaApply × List MediaPhase) :=
  s.running.filter fun entry => entry.1.corpus ≠ corpus

def start (s : ClientSystem α) (env : ClientEnv α) (mode : MediaApplyMode) (artifact : Artifact) :
    ClientSystem α × StepOutcome :=
  match readManifest artifact with
  | .error _ => (s, .rejected)
  | .ok signed =>
    if (s.lockHolder signed.payload.identity.corpus).isSome then (s, .waiting)
    else match startMedia env mode s.db artifact with
    | .error _ => (s, .rejected)
    | .ok (.inl _) => (s, .alreadyApplied)
    | .ok (.inr m) => ({ s with running := (m, mediaPhases) :: s.running }, .waiting)

def advance (s : ClientSystem α) (env : ClientEnv α) (corpus : Corpus) (lockFree : Bool) :
    ClientSystem α × StepOutcome :=
  match s.lockHolder corpus with
  | none | some (_, []) => (s, .waiting)
  | some (m, phase :: rest) =>
    match mediaStep env lockFree m s.db phase with
    | .error _ => ({ s with running := s.release corpus }, .rejected)
    | .ok db =>
      if rest = [] then (⟨db, s.release corpus, m.manifest :: s.history⟩, .applied m.manifest)
      else (⟨db, (m, rest) :: s.release corpus, s.history⟩, .waiting)

/-- Loading and indexing commit row by row, and may stop halfway. -/
def interruptLoad (s : ClientSystem α) (corpus : Corpus) (rows : α) : ClientSystem α × StepOutcome :=
  match s.lockHolder corpus with
  | none | some (_, []) => (s, .waiting)
  | some (m, phase :: _) =>
    if phase = .copy ∨ phase = .index then
      match s.db.mapSchema (schemaIdentifier m.createdLabel) fun _ => some rows with
      | .ok db => (⟨db, s.release corpus, s.history⟩, .rejected)
      | .error _ => ({ s with running := s.release corpus }, .rejected)
    else (s, .waiting)

def incremental (s : ClientSystem α) (env : ClientEnv α) (lockFree : Bool) (artifact : Artifact) :
    ClientSystem α × StepOutcome :=
  match applyIncremental env lockFree s.db artifact, artifact.manifest with
  | .ok (db, .applied _ _), some signed => (⟨db, s.running, signed.payload :: s.history⟩, .applied signed.payload)
  | .ok (db, .alreadyApplied _ _), _ => ({ s with db := db }, .alreadyApplied)
  | _, _ => (s, .rejected)

def step (env : ClientEnv α) (s : ClientSystem α) : ClientAction α → ClientSystem α × StepOutcome
  | .start mode artifact => s.start env mode artifact
  | .advance corpus lockFree => s.advance env corpus lockFree
  | .interruptLoad corpus rows => s.interruptLoad corpus rows
  | .crash corpus => ({ s with running := s.release corpus }, .rejected)
  | .incremental lockFree artifact => s.incremental env lockFree artifact

def run (env : ClientEnv α) (s : ClientSystem α) (actions : List (ClientAction α)) : ClientSystem α :=
  actions.foldl (fun s a => (step env s a).1) s

end ClientSystem

/-- The label of the schema that applying a media package creates. -/
def createdLabelOf (manifest : EmbeddedManifest) : Option Text :=
  (generationCounterOf manifest.identity.corpus.name manifest.identity.generation).map
    (generationName manifest.identity.corpus.name)

def namedLabels (manifest : EmbeddedManifest) : List Text :=
  manifest.identity.generation :: (createdLabelOf manifest).toList

namespace ClientSystem

/-- The media package whose apply a step starts. -/
def started (env : ClientEnv α) (s : ClientSystem α) : ClientAction α → Option EmbeddedManifest
  | .start mode artifact =>
    match startMedia env mode s.db artifact with
    | .ok (.inr m) => if (s.lockHolder m.corpus).isSome then none else some m.manifest
    | _ => none
  | _ => none

/-- The package that a step applies. -/
def applied (env : ClientEnv α) (s : ClientSystem α) (a : ClientAction α) : Option EmbeddedManifest :=
  match (step env s a).2 with
  | .applied manifest => some manifest
  | _ => none

/-- The packages that a function of its steps finds in a run. -/
def gather (env : ClientEnv α) (taken : ClientSystem α → ClientAction α → Option EmbeddedManifest) :
    ClientSystem α → List (ClientAction α) → List EmbeddedManifest
  | _, [] => []
  | s, a :: actions => (taken s a).toList ++ gather env taken (step env s a).1 actions

end ClientSystem

/-- The result sequences of the applied packages fit the stored cursor, and a label
that a started apply creates shares the kept part of its schema name with no other
label that such an apply names. -/
structure Orderly (started applied : List EmbeddedManifest) : Prop where
  small : ∀ p ∈ applied, p.apply.resultSequence < 2 ^ 63
  labels : ∀ p ∈ started, ∀ q ∈ started, ∀ g ∈ createdLabelOf p, ∀ h ∈ namedLabels q,
    g.take 45 = h.take 45 → g = h

/-- A package follows the newest one of its corpus: it is a first media root, or
an incremental that links to it, or a re-baseline ahead of it. -/
def ChainLink (p : EmbeddedManifest) : Option EmbeddedManifest → Prop
  | none => p.identity.packageKind.isMedia = true
  | some q => q.apply.resultSequence < p.apply.resultSequence ∧
    (p.identity.packageKind = .rebaseline ∨ p.identity.packageKind = .incremental ∧
      p.apply.expectedClientFromSequence = q.apply.resultSequence ∧
      p.identity.previousPackageId = some q.identity.packageId ∧
      p.identity.previousPackageSha256 = some q.integrity.artifactSha256)

/-- The packages of one corpus, newest first. -/
def Chained : List EmbeddedManifest → Prop
  | [] => True
  | p :: rest => ChainLink p rest.head? ∧ Chained rest

def historyOf (history : List EmbeddedManifest) (c : Corpus) : List EmbeddedManifest :=
  history.filter fun p => p.identity.corpus = c

/-- The cursor row of a corpus carries the identity of its newest package. -/
def CursorMatches (cursor : Option CorpusState) : Option EmbeddedManifest → Prop
  | none => cursor = none
  | some p => ∃ row, cursor = some row ∧ row.sequence = p.apply.resultSequence ∧
      row.lastPackageId = some p.identity.packageId ∧ row.lastPackageDigest = some p.integrity.artifactSha256

/-- An applied package moved the cursor of its corpus strictly forward, and an
incremental one had to link to the cursor it found. -/
structure Advanced (s s' : ClientSystem α) (p : EmbeddedManifest) : Prop where
  history : s'.history = p :: s.history
  forward : ∃ row, s'.db.cursors.find? p.identity.corpus = some row ∧ row.sequence = p.apply.resultSequence ∧
    ∀ cursor, s.db.cursors.find? p.identity.corpus = some cursor → cursor.sequence < row.sequence
  linked : p.identity.packageKind = .incremental →
    ∃ cursor, s.db.cursors.find? p.identity.corpus = some cursor ∧ LinksCursor p cursor
  others : ∀ c, c ≠ p.identity.corpus → s'.db.cursors.find? c = s.db.cursors.find? c

/-- Nothing a reader of the corpora can see has changed. -/
structure Untouched (s s' : ClientSystem α) : Prop where
  history : s'.history = s.history
  cursors : s'.db.cursors = s.db.cursors
  live : LiveSchemasKept s.db s'.db

def OutcomeSafe (s s' : ClientSystem α) : StepOutcome → Prop
  | .applied p => Advanced s s' p
  | _ => Untouched s s'

theorem historyOf_cons_self (p : EmbeddedManifest) (history : List EmbeddedManifest) :
    historyOf (p :: history) p.identity.corpus = p :: historyOf history p.identity.corpus := by
  simp [historyOf]

theorem historyOf_cons_ne {p : EmbeddedManifest} {c : Corpus} (h : p.identity.corpus ≠ c)
    (history : List EmbeddedManifest) : historyOf (p :: history) c = historyOf history c := by
  simp [historyOf, h]

end CorpusFeed
