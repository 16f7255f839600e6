import CorpusFeed.PackageBuild
import CorpusFeed.JsonText
import CorpusFeed.StampedLog
import CorpusFeed.Runs

/-! The change-capture outbox and its high-water fence. A writer's transaction
takes the fence shared in the statement that allocates `change_seq`, a package
build takes it exclusively while it opens its snapshot. -/

namespace CorpusFeed

structure OutboxContext where
  ingestRunId : Text
  schemaVersion : Int

structure OutboxEvent where
  corpus : Text
  tableName : Text
  op : EventKind
  scopeKind : Text
  scopeKey : Text
  rowPk : Option Json
  rowHash : Option Text
  beforeHash : Option Text
  afterHash : Option Text
  payload : Option Json
  builderVersions : Option Json
  embeddingFingerprint : Option Text

/-- The common case: only that a scope changed. -/
def OutboxEvent.scope (corpus tableName : Text) (op : EventKind) (scopeKind scopeKey : Text) : OutboxEvent where
  corpus := corpus
  tableName := tableName
  op := op
  scopeKind := scopeKind
  scopeKey := scopeKey
  rowPk := none
  rowHash := none
  beforeHash := none
  afterHash := none
  payload := none
  builderVersions := none
  embeddingFingerprint := none

def outboxOps : List Text := ["upsert".toList, "delete".toList, "replace_set".toList]

/-- A row of `package_change_log`, with the table's check on `op`. -/
structure ChangeRow where
  changeSeq : Nat
  corpus : Text
  ingestRunId : Text
  tableName : Text
  op : Text
  scopeKind : Text
  scopeKey : Text
  rowPk : Json
  rowHash : Option Text
  beforeHash : Option Text
  afterHash : Option Text
  payload : Option Json
  builderVersions : Json
  embeddingFingerprint : Option Text
  schemaVersion : Int
  opChecked : op ∈ outboxOps

theorem EventKind.text_mem_outboxOps (op : EventKind) : op.text ∈ outboxOps := by
  cases op <;> decide

/-- The row that `emit_change` inserts once its sequence number is known. -/
def emittedRow (ctx : OutboxContext) (event : OutboxEvent) (changeSeq : Nat) : ChangeRow where
  changeSeq := changeSeq
  corpus := event.corpus
  ingestRunId := ctx.ingestRunId
  tableName := event.tableName
  op := event.op.text
  scopeKind := event.scopeKind
  scopeKey := event.scopeKey
  rowPk := event.rowPk.getD (.object [])
  rowHash := event.rowHash
  beforeHash := event.beforeHash
  afterHash := event.afterHash
  payload := event.payload
  builderVersions := event.builderVersions.getD (.object [])
  embeddingFingerprint := event.embeddingFingerprint
  schemaVersion := ctx.schemaVersion
  opChecked := event.op.text_mem_outboxOps

structure ChangedScope where
  changeSeq : Nat
  tableName : Text
  op : EventKind
  scopeKind : Text
  scopeKey : Text
deriving DecidableEq

def parseOp (text : Text) : Except StorageError EventKind :=
  if text = "upsert".toList then .ok .upsert
  else if text = "delete".toList then .ok .delete
  else if text = "replace_set".toList then .ok .replaceSet
  else .error (.outbox s!"unknown outbox op `{String.ofList text}`")

def ChangeRow.changedScope (row : ChangeRow) : Except StorageError ChangedScope :=
  match parseOp row.op with
  | .error e => .error e
  | .ok op => .ok ⟨row.changeSeq, row.tableName, op, row.scopeKind, row.scopeKey⟩

def ofCorpus (corpus : Text) (rows : List ChangeRow) : List ChangeRow :=
  rows.filter fun r => r.corpus = corpus

/-- The rows of a corpus in a half-open range, by sequence number. -/
def corpusRange (rows : List ChangeRow) (corpus : Text) (after through : Nat) : List ChangeRow :=
  rangeOf ChangeRow.changeSeq after through (ofCorpus corpus rows)

def scopesChangedForCorpus (rows : List ChangeRow) (corpus : Text) (after through : Nat) :
    Except StorageError (List ChangedScope) :=
  (corpusRange rows corpus after through).mapM ChangeRow.changedScope

def currentChangeSeq (rows : List ChangeRow) : Nat := rows.foldl (fun hi r => max hi r.changeSeq) 0

/-- A row of the package catalog, with the change rows its build could see. -/
structure BuiltPackage where
  packageKind : PackageKind
  packageSequence : Nat
  includedChangeSeqLow : Nat
  includedChangeSeqHigh : Nat
  snapshot : List ChangeRow

/-- What a package build has done and holds. A first baseline takes no build
lock; a re-baseline reads its head before it takes the fence, an incremental
build after. -/
inductive Build where
  | waiting (kind : PackageKind) (corpus : Corpus)
  | locked (kind : PackageKind) (corpus : Corpus)
  | linked (corpus : Corpus) (prev : BuiltPackage)
  | fenced (corpus : Corpus)
  | ready (kind : PackageKind) (corpus : Corpus) (prev : Option BuiltPackage)
  | frozen (kind : PackageKind) (corpus : Corpus) (prev : Option BuiltPackage) (snapshot : List ChangeRow)
  | reading (kind : PackageKind) (corpus : Corpus) (prev : Option BuiltPackage) (snapshot : List ChangeRow)
  | finished (corpus : Corpus) (snapshot : List ChangeRow)
  | done (corpus : Corpus) (snapshot : List ChangeRow)
  | failed

/-- The producer database as its sessions share it: the ledger, the two kinds
of advisory locks, the catalog and the builds under way. -/
structure OutboxState where
  ledger : StampedLog Nat ChangeRow
  fence : Option Nat
  buildLocks : Int → Option Nat
  catalog : Corpus → List BuiltPackage
  builds : Nat → Option Build

inductive OutboxAction where
  | emitFence (tx : Nat)
  | emitInsert (tx : Nat) (ctx : OutboxContext) (event : OutboxEvent)
  | commit (tx : Nat)
  | rollback (tx : Nat)
  | start (build : Nat) (kind : PackageKind) (corpus : Corpus)
  | advance (build : Nat)
  /-- The catalog row of a build is stored already, with the same digests. -/
  | reinsert (build : Nat)
  | fail (build : Nat)

namespace OutboxState

def initial : OutboxState := ⟨StampedLog.empty, none, fun _ => none, fun _ => [], fun _ => none⟩

def setBuild (s : OutboxState) (b : Nat) (build : Build) : OutboxState :=
  { s with builds := Function.update s.builds b (some build) }

/-- The shared fence waits for the build that holds it exclusively. -/
def emitFence (s : OutboxState) (tx : Nat) : OutboxState :=
  if s.fence.isSome then s else { s with ledger := s.ledger.enter tx }

def emitInsert (s : OutboxState) (tx : Nat) (ctx : OutboxContext) (event : OutboxEvent) : OutboxState :=
  if tx ∈ s.ledger.writers then { s with ledger := s.ledger.write tx (emittedRow ctx event) } else s

/-- The exclusive fence waits for every writer and every other build. -/
def acquireOutboxFence (s : OutboxState) (b : Nat) (next : Build) : OutboxState :=
  if s.fence = none ∧ s.ledger.writers = [] then { s with fence := some b }.setBuild b next else s

def releaseOutboxFence (s : OutboxState) (b : Nat) : OutboxState :=
  { s with fence := if s.fence = some b then none else s.fence }

variable (hashtext : Corpus → Int)

def acquireCorpusBuildLock (s : OutboxState) (b : Nat) (corpus : Corpus) (next : Build) : OutboxState :=
  if s.buildLocks (hashtext corpus) = none then
    { s with buildLocks := Function.update s.buildLocks (hashtext corpus) (some b) }.setBuild b next
  else s

def releaseBuildLocks (s : OutboxState) (b : Nat) : OutboxState :=
  { s with buildLocks := fun key => if s.buildLocks key = some b then none else s.buildLocks key }

def latestPackage (s : OutboxState) (corpus : Corpus) : Option BuiltPackage := (s.catalog corpus).getLast?

/-- A failed build lets go of whatever its sessions hold. -/
def failBuild (s : OutboxState) (b : Nat) : OutboxState :=
  ((s.releaseOutboxFence b).releaseBuildLocks b).setBuild b .failed

def packageOf (kind : PackageKind) (prev : Option BuiltPackage) (snapshot : List ChangeRow) : BuiltPackage where
  packageKind := kind
  packageSequence := (prev.elim 0 BuiltPackage.packageSequence) + 1
  includedChangeSeqLow := prev.elim 0 BuiltPackage.includedChangeSeqHigh
  includedChangeSeqHigh := currentChangeSeq snapshot
  snapshot := snapshot

/-- The fields of a catalog row that a re-insert must match, apart from the digests. -/
def sameIdentity (package stored : BuiltPackage) : Bool :=
  stored.packageKind == package.packageKind && stored.packageSequence == package.packageSequence &&
    stored.includedChangeSeqLow == package.includedChangeSeqLow &&
    stored.includedChangeSeqHigh == package.includedChangeSeqHigh

/-- A catalog row whose sequence is taken is refused, unless it is the stored one. -/
def insertPackage (s : OutboxState) (b : Nat) (corpus : Corpus) (package : BuiltPackage) : OutboxState :=
  if (s.catalog corpus).any fun p => p.packageSequence == package.packageSequence then s.failBuild b
  else { s with catalog := Function.update s.catalog corpus (s.catalog corpus ++ [package]) }.setBuild b
    (.finished corpus package.snapshot)

/-- The reads of the snapshot and the catalog row. An incremental build that
reads no changed scope ends without one. -/
def catalogBuild (s : OutboxState) (b : Nat) (kind : PackageKind) (corpus : Corpus) (prev : Option BuiltPackage)
    (snapshot : List ChangeRow) : OutboxState :=
  let package := packageOf kind prev snapshot
  match kind with
  | .incremental =>
    match scopesChangedForCorpus snapshot corpus.name package.includedChangeSeqLow package.includedChangeSeqHigh with
    | .error _ => s.failBuild b
    | .ok [] => s.setBuild b (.finished corpus snapshot)
    | .ok (_ :: _) => s.insertPackage b corpus package
  | .baseline => s.insertPackage b corpus package
  | .rebaseline => s.insertPackage b corpus package

/-- The re-insert of a stored row changes nothing. -/
def reinsertBuild (s : OutboxState) (b : Nat) : Build → OutboxState
  | .reading kind corpus prev snapshot =>
    if (s.catalog corpus).any (sameIdentity (packageOf kind prev snapshot)) then s.setBuild b (.finished corpus snapshot)
    else s
  | _ => s

/-- One statement of a build, or nothing while it waits for a lock. -/
def advance (s : OutboxState) (b : Nat) : Build → OutboxState
  | .waiting .baseline corpus => s.acquireOutboxFence b (.ready .baseline corpus none)
  | .waiting kind corpus => s.acquireCorpusBuildLock hashtext b corpus (.locked kind corpus)
  | .locked .rebaseline corpus =>
    match s.latestPackage corpus with
    | none => s.failBuild b
    | some prev => s.setBuild b (.linked corpus prev)
  | .locked _ corpus => s.acquireOutboxFence b (.fenced corpus)
  | .linked corpus prev => s.acquireOutboxFence b (.ready .rebaseline corpus (some prev))
  | .fenced corpus =>
    match s.latestPackage corpus with
    | none => s.failBuild b
    | some prev => s.setBuild b (.ready .incremental corpus (some prev))
  | .ready kind corpus prev => s.setBuild b (.frozen kind corpus prev s.ledger.committed)
  | .frozen kind corpus prev snapshot => (s.releaseOutboxFence b).setBuild b (.reading kind corpus prev snapshot)
  | .reading kind corpus prev snapshot => s.catalogBuild b kind corpus prev snapshot
  | .finished corpus snapshot => (s.releaseBuildLocks b).setBuild b (.done corpus snapshot)
  | .done _ _ => s
  | .failed => s

/-- One step of one session. -/
def step (s : OutboxState) : OutboxAction → OutboxState
  | .emitFence tx => s.emitFence tx
  | .emitInsert tx ctx event => s.emitInsert tx ctx event
  | .commit tx => { s with ledger := s.ledger.commit tx }
  | .rollback tx => { s with ledger := s.ledger.rollback tx }
  | .start b kind corpus =>
    match s.builds b with
    | none => s.setBuild b (.waiting kind corpus)
    | some _ => s
  | .advance b =>
    match s.builds b with
    | none => s
    | some build => s.advance hashtext b build
  | .reinsert b =>
    match s.builds b with
    | none => s
    | some build => s.reinsertBuild b build
  | .fail b =>
    match s.builds b with
    | none => s
    | some _ => s.failBuild b

/-- What a step can do, each with the guard that it passed. -/
inductive Move (s : OutboxState) : OutboxAction → OutboxState → Prop
  | stay (action : OutboxAction) : Move s action s
  | enter {tx : Nat} (hfence : s.fence.isSome = false) : Move s (.emitFence tx) { s with ledger := s.ledger.enter tx }
  | write {tx : Nat} {ctx : OutboxContext} {event : OutboxEvent} (hwriter : tx ∈ s.ledger.writers) :
    Move s (.emitInsert tx ctx event) { s with ledger := s.ledger.write tx (emittedRow ctx event) }
  | commit (tx : Nat) : Move s (.commit tx) { s with ledger := s.ledger.commit tx }
  | rollback (tx : Nat) : Move s (.rollback tx) { s with ledger := s.ledger.rollback tx }
  | start {b : Nat} {kind : PackageKind} {corpus : Corpus} (hb : s.builds b = none) :
    Move s (.start b kind corpus) (s.setBuild b (.waiting kind corpus))
  | advance {b : Nat} {build : Build} (hb : s.builds b = some build) :
    Move s (.advance b) (s.advance hashtext b build)
  | reinsert {b : Nat} {build : Build} (hb : s.builds b = some build) : Move s (.reinsert b) (s.reinsertBuild b build)
  | fail {b : Nat} {build : Build} (hb : s.builds b = some build) : Move s (.fail b) (s.failBuild b)

theorem step_move (s : OutboxState) (action : OutboxAction) : s.Move hashtext action (s.step hashtext action) := by
  cases action with
  | emitFence tx =>
    rw [step, emitFence]
    split
    · exact .stay _
    · next hfence => exact .enter (by simpa using hfence)
  | emitInsert tx ctx event =>
    rw [step, emitInsert]
    split
    · next hwriter => exact .write hwriter
    · exact .stay _
  | commit tx => exact .commit tx
  | rollback tx => exact .rollback tx
  | start b kind corpus =>
    rw [step]
    split
    · next hb => exact .start hb
    · exact .stay _
  | advance b =>
    rw [step]
    split
    · exact .stay _
    · next hb => exact .advance hb
  | reinsert b =>
    rw [step]
    split
    · exact .stay _
    · next hb => exact .reinsert hb
  | fail b =>
    rw [step]
    split
    · exact .stay _
    · next hb => exact .fail hb

end OutboxState

theorem parseOp_of_mem {text : Text} (h : text ∈ outboxOps) : ∃ op, parseOp text = .ok op := by
  have hcases : text = "upsert".toList ∨ text = "delete".toList ∨ text = "replace_set".toList := by
    simpa [outboxOps] using h
  rcases hcases with heq | heq | heq
  · exact ⟨.upsert, by rw [heq]; decide⟩
  · exact ⟨.delete, by rw [heq]; decide⟩
  · exact ⟨.replaceSet, by rw [heq]; decide⟩

/-- Every row of the ledger reads back, whatever wrote it. -/
theorem scopesChangedForCorpus_ok (rows : List ChangeRow) (corpus : Text) (after through : Nat) :
    ∃ scopes, scopesChangedForCorpus rows corpus after through = .ok scopes ∧
      scopes.map ChangedScope.changeSeq = (corpusRange rows corpus after through).map ChangeRow.changeSeq := by
  rw [scopesChangedForCorpus]
  induction corpusRange rows corpus after through with
  | nil => exact ⟨[], rfl, rfl⟩
  | cons row rows ih =>
    obtain ⟨scopes, hread, hseqs⟩ := ih
    obtain ⟨op, hop⟩ := parseOp_of_mem row.opChecked
    have hrow : row.changedScope = .ok ⟨row.changeSeq, row.tableName, op, row.scopeKind, row.scopeKey⟩ := by
      rw [ChangeRow.changedScope, hop]
    refine ⟨⟨row.changeSeq, row.tableName, op, row.scopeKind, row.scopeKey⟩ :: scopes, ?_, ?_⟩
    · rw [List.mapM_cons, hrow, hread]
      rfl
    · rw [List.map_cons, List.map_cons, hseqs]

theorem currentChangeSeq_foldl (rows : List ChangeRow) (hi : Nat) :
    rows.foldl (fun hi r => max hi r.changeSeq) hi = max hi (currentChangeSeq rows) := by
  induction rows generalizing hi with
  | nil => simp [currentChangeSeq]
  | cons r rows ih =>
    rw [List.foldl_cons, ih]
    have hhead : currentChangeSeq (r :: rows) = max r.changeSeq (currentChangeSeq rows) := by
      rw [currentChangeSeq, List.foldl_cons, ih]
      simp
    rw [hhead, Nat.max_assoc]

theorem currentChangeSeq_cons (r : ChangeRow) (rows : List ChangeRow) :
    currentChangeSeq (r :: rows) = max r.changeSeq (currentChangeSeq rows) := by
  rw [currentChangeSeq, List.foldl_cons, currentChangeSeq_foldl]
  simp

theorem le_currentChangeSeq {rows : List ChangeRow} {r : ChangeRow} (h : r ∈ rows) :
    r.changeSeq ≤ currentChangeSeq rows := by
  induction rows with
  | nil => simp at h
  | cons a rows ih =>
    rw [currentChangeSeq_cons]
    rcases List.mem_cons.mp h with heq | hmem
    · rw [heq]
      omega
    · have := ih hmem
      omega

theorem currentChangeSeq_le {rows : List ChangeRow} {bound : Nat} (h : ∀ r ∈ rows, r.changeSeq ≤ bound) :
    currentChangeSeq rows ≤ bound := by
  induction rows with
  | nil => simp [currentChangeSeq]
  | cons a rows ih =>
    rw [currentChangeSeq_cons]
    have ha := h a List.mem_cons_self
    have hrest := ih fun r hr => h r (List.mem_cons_of_mem a hr)
    omega

end CorpusFeed
