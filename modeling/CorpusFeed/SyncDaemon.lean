import CorpusFeed.Catchup
import CorpusFeed.Bootstrap

/-! The policy loop of the synchronisation daemon: what it observes, attempts
and waits for, in the order in which it happens. -/

namespace CorpusFeed

def RejectCode.debugName : RejectCode → String
  | .clientTooOld => "ClientTooOld"
  | .schemaAhead => "SchemaAhead"
  | .missingEntitlement => "MissingEntitlement"
  | .sequenceGap => "SequenceGap"
  | .wrongGeneration => "WrongGeneration"
  | .embeddingFingerprintMismatch => "EmbeddingFingerprintMismatch"
  | .builderVersionMismatch => "BuilderVersionMismatch"
  | .signatureInvalid => "SignatureInvalid"
  | .digestMismatch => "DigestMismatch"
  | .extensionMissing => "ExtensionMissing"
  | .baselineRequired => "BaselineRequired"

def SyncError.text : SyncError → String
  | .storage error => s!"storage error: {error.text}"
  | .io message => s!"io error: {message}"
  | .json message => s!"json error: {message}"
  | .postgres message => s!"postgres error: {message}"
  | .reject code message => s!"package rejected ({code.debugName}): {message}"
  | .lockBusy message => s!"apply/switch advisory lock is busy: {message}"

def SyncError.isRetryable : SyncError → Bool
  | .lockBusy _ => true
  | .storage (.applyLockBusy _) => true
  | .storage (.advisoryLockBusy _ _) => true
  | .storage (.storageLockBusy _) => true
  | .io _ => true
  | _ => false

inductive CycleOutcome where
  | progress
  | upToDate
  | retryable (reason : String)
  | rejected (code : RejectCode) (message : String)
deriving DecidableEq

def classify : Except SyncError CatchupReport → CycleOutcome
  | .ok .upToDate => .upToDate
  | .ok (.baselineApplied _) => .progress
  | .ok (.incrementalApplied _) => .progress
  | .error error =>
    if error.isRetryable then .retryable error.text
    else
      match error with
      | .reject code message => .rejected code message
      | error => .retryable error.text

def CycleOutcome.isRetryable : CycleOutcome → Bool
  | .retryable _ => true
  | _ => false

def maxNanos : Nat := (2 ^ 64 - 1) * 10 ^ 9 + 999999999

/-- A `Duration` of seconds in 64 bits and nanoseconds. -/
structure Duration where
  nanos : Nat
  bounded : nanos ≤ maxNanos
deriving DecidableEq

/-- `none` where the multiplication panics. -/
def Duration.double (duration : Duration) : Option Duration :=
  if h : duration.nanos * 2 ≤ maxNanos then some ⟨duration.nanos * 2, h⟩ else none

def Duration.min (duration other : Duration) : Duration :=
  if duration.nanos ≤ other.nanos then duration else other

structure DaemonConfig where
  corpora : List Text
  pollInterval : Duration
  minBackoff : Duration
  maxBackoff : Duration
  maxBurst : Nat

inductive PreApply where
  | proceed
  | shutdown
  | leaseLost
deriving DecidableEq

/-- A step of the daemon: its log events, the answers of the guard before an
apply, and the answers of the wait. -/
inductive DaemonEvent where
  | daemonStart (corpora : List Text) (pollInterval : Duration)
  | guarded (decision : PreApply)
  | corpusCycle (corpus : Text) (burst : Nat) (outcome : CycleOutcome)
  | cycleSleep (sleep : Duration) (backingOff : Bool)
  | waited (shutdown : Bool)
  | daemonShutdown
  | daemonFatal (reason : String)
deriving DecidableEq

/-- What the daemon meets. Every answer may depend on all that happened before
it, so that a shutdown or a loss of the lease can come at any moment. -/
structure DaemonWorld where
  isRequested : List DaemonEvent → Bool
  lockAlive : List DaemonEvent → Bool
  runCorpusCycle : List DaemonEvent → Text → Except SyncError CatchupReport
  waitOrShutdown : List DaemonEvent → Duration → Bool

/-- How the daemon ends: a return, or the panic of an overflowing backoff. -/
inductive DaemonEnd where
  | returned (result : Except SyncError Unit)
  | panicked

def leaseLostError : SyncError :=
  .reject .wrongGeneration "syncd daemon single-writer lock lease was lost (lock connection died)"

variable (world : DaemonWorld)

/-- Shutdown takes precedence over a lost lease. -/
def checkBeforeApply (trace : List DaemonEvent) : PreApply :=
  if world.isRequested trace then .shutdown
  else if !world.lockAlive trace then .leaseLost
  else .proceed

/-- The attempts on one corpus, and if it is to be retried. -/
def burstLoop (corpus : Text) : Nat → Nat → List DaemonEvent → Except DaemonEnd Bool × List DaemonEvent
  | 0, _, trace => (.ok false, trace)
  | remaining + 1, burst, trace =>
    match checkBeforeApply world trace with
    | .shutdown => (.error (.returned (.ok ())), trace ++ [.guarded .shutdown, .daemonShutdown])
    | .leaseLost =>
      (.error (.returned (.error leaseLostError)),
        trace ++ [.guarded .leaseLost, .daemonFatal "single_writer_lease_lost"])
    | .proceed =>
      let outcome := classify (world.runCorpusCycle (trace ++ [.guarded .proceed]) corpus)
      let trace := trace ++ [.guarded .proceed] ++ [.corpusCycle corpus burst outcome]
      match outcome with
      | .progress => burstLoop corpus remaining (burst + 1) trace
      | .upToDate => (.ok false, trace)
      | .retryable _ => (.ok true, trace)
      | .rejected _ _ => (.ok false, trace)

def corporaLoop (maxBurst : Nat) :
    List Text → Bool → List DaemonEvent → Except DaemonEnd Bool × List DaemonEvent
  | [], anyRetryable, trace => (.ok anyRetryable, trace)
  | corpus :: corpora, anyRetryable, trace =>
    match burstLoop world corpus (max maxBurst 1) 0 trace with
    | (.error ending, trace) => (.error ending, trace)
    | (.ok retryable, trace) => corporaLoop maxBurst corpora (anyRetryable || retryable) trace

/-- The sleep after a pass and the next backoff. -/
def nextSleep (config : DaemonConfig) (backoff : Duration) (anyRetryable : Bool) : Option (Duration × Duration) :=
  if anyRetryable then backoff.double.map fun doubled => (backoff, doubled.min config.maxBackoff)
  else some (config.pollInterval, config.minBackoff)

/-- The outer loop, followed for a number of passes. -/
def daemonLoop (config : DaemonConfig) : Nat → Duration → List DaemonEvent → Option DaemonEnd × List DaemonEvent
  | 0, _, trace => (none, trace)
  | passes + 1, backoff, trace =>
    match corporaLoop world config.maxBurst config.corpora false trace with
    | (.error ending, trace) => (some ending, trace)
    | (.ok anyRetryable, trace) =>
      match nextSleep config backoff anyRetryable with
      | none => (some .panicked, trace)
      | some (sleep, backoff) =>
        let trace := trace ++ [.cycleSleep sleep anyRetryable]
        if world.waitOrShutdown trace sleep then
          (some (.returned (.ok ())), trace ++ [.waited true] ++ [.daemonShutdown])
        else daemonLoop config passes backoff (trace ++ [.waited false])

def runDaemon (config : DaemonConfig) (passes : Nat) : Option DaemonEnd × List DaemonEvent :=
  daemonLoop world config passes config.minBackoff [.daemonStart config.corpora config.pollInterval]

/-- Without a shutdown the answer is that of the lease. -/
theorem checkBeforeApply_iff (alive : Bool) {trace : List DaemonEvent} :
    checkBeforeApply world trace = (if alive then .proceed else .leaseLost) ↔
      world.isRequested trace = false ∧ world.lockAlive trace = alive := by
  unfold checkBeforeApply
  by_cases hrequested : world.isRequested trace = true
  · cases alive <;> simp [hrequested]
  · cases halive : world.lockAlive trace with
    | true => cases alive <;> simp [hrequested]
    | false => cases alive <;> simp [hrequested]

end CorpusFeed
