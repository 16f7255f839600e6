import CorpusFeed.EmbeddingText
import CorpusFeed.GenerationRegistry
import CorpusFeed.MemberVisits
import CorpusFeed.Runs

/-! The members of one archive, kept until there are enough of them or enough bytes
of them for one transaction, and flushed then. -/

namespace CorpusFeed.MemberBatches

def legiIngestTransactionBatchSize : ℕ := 128

def legiIngestTransactionBatchByteLimit : ℕ := 64 * 1024 * 1024

/-- A flush that succeeds drains the buffer and resets its byte count. One that
fails leaves of both what it leaves. -/
structure Flush (σ : Type*) where
  run : List ArchiveMember → ℕ → σ → Except StorageError Unit × (List ArchiveMember × ℕ × σ)
  drains : ∀ {pending : List ArchiveMember} {pendingBytes : ℕ} {s : σ},
    (run pending pendingBytes s).1 = .ok () →
      (run pending pendingBytes s).2.1 = [] ∧ (run pending pendingBytes s).2.2.1 = 0

/-- What happens during the read of an archive. -/
inductive BatchEvent where
  | visited (member : ArchiveMember)
  | held (pending : List ArchiveMember)
  | flushed (batch : List ArchiveMember) (result : Except StorageError Unit)
  | readFailed (error : ArchiveReadError)

structure Batching (σ : Type*) where
  pendingMembers : List ArchiveMember
  pendingMemberBytes : ℕ
  visited : ℕ
  flushError : Option StorageError
  flushState : σ
  trace : List BatchEvent

structure ArchiveBatchReadReport where
  visitedMembers : ℕ
  stoppedByLimit : Bool
deriving DecidableEq

inductive ArchiveBatchReadError where
  | flush (visitedMembers : ℕ) (error : StorageError)
  | read (visitedMembers : ℕ) (error : ArchiveReadError)
deriving DecidableEq

def saturatingAddUsize (a b : ℕ) : ℕ := min (a + b) usizeMax

def atLimit (limitMembers : Option ℕ) (visited : ℕ) : Bool :=
  match limitMembers with
  | some limit => limit ≤ visited
  | none => false

namespace Batching

variable {σ : Type*}

def count (b : Batching σ) (member : ArchiveMember) : Batching σ :=
  { b with visited := b.visited + 1, trace := b.trace ++ [.visited member] }

def overflows (b : Batching σ) (member : ArchiveMember) : Bool :=
  !b.pendingMembers.isEmpty &&
    legiIngestTransactionBatchByteLimit < saturatingAddUsize b.pendingMemberBytes member.bytes.length

def push (b : Batching σ) (member : ArchiveMember) : Batching σ :=
  { b with
    pendingMembers := b.pendingMembers ++ [member]
    pendingMemberBytes := saturatingAddUsize b.pendingMemberBytes member.bytes.length
    trace := b.trace ++ [.held (b.pendingMembers ++ [member])] }

def isFull (b : Batching σ) : Bool :=
  legiIngestTransactionBatchSize ≤ b.pendingMembers.length || legiIngestTransactionBatchByteLimit ≤ b.pendingMemberBytes

def callFlush (flush : Flush σ) (b : Batching σ) : Batching σ :=
  let (result, pendingMembers, pendingMemberBytes, flushState) :=
    flush.run b.pendingMembers b.pendingMemberBytes b.flushState
  { b with
    pendingMembers := pendingMembers
    pendingMemberBytes := pendingMemberBytes
    flushError := match result with
      | .ok () => none
      | .error e => some e
    flushState := flushState
    trace := b.trace ++ [.flushed b.pendingMembers result] }

def makeRoom (flush : Flush σ) (b : Batching σ) (member : ArchiveMember) : Batching σ :=
  if b.overflows member then b.callFlush flush else b

def flushFull (flush : Flush σ) (b : Batching σ) : Batching σ := if b.isFull then b.callFlush flush else b

def visitMember (limitMembers : Option ℕ) (flush : Flush σ) (member : ArchiveMember) (b : Batching σ) :
    Except ArchiveReadError ArchiveVisit × Batching σ :=
  if atLimit limitMembers b.visited then (.ok .stop, b)
  else
    let roomy := (b.count member).makeRoom flush member
    if roomy.flushError.isSome then (.ok .stop, roomy)
    else
      let added := (roomy.push member).flushFull flush
      if added.flushError.isSome then (.ok .stop, added)
      else (.ok (if atLimit limitMembers added.visited then .stop else .continue), added)

/-- The tail is flushed only after a clean read. -/
def finish (limitMembers : Option ℕ) (flush : Flush σ) (readResult : Except ArchiveReadError ℕ) (b : Batching σ) :
    Except ArchiveBatchReadError ArchiveBatchReadReport × Batching σ :=
  let read : Batching σ :=
    match readResult with
    | .ok _ => b
    | .error e => { b with trace := b.trace ++ [.readFailed e] }
  let ended :=
    if read.flushError.isNone && readResult.isOk && !read.pendingMembers.isEmpty then read.callFlush flush else read
  match ended.flushError with
  | some e => (.error (.flush ended.visited e), ended)
  | none =>
    match readResult with
    | .error e => (.error (.read ended.visited e), ended)
    | .ok _ => (.ok ⟨ended.visited, atLimit limitMembers ended.visited⟩, ended)

end Batching

def readArchiveMembersBatched {σ : Type*} (file : ArchiveFile) (maxMemberBytes : ℕ) (limitMembers : Option ℕ)
    (visitedMembers : ℕ) (flush : Flush σ) (s : σ) :
    Except ArchiveBatchReadError ArchiveBatchReadReport × Batching σ :=
  let read := forEachXmlMemberUntil file maxMemberBytes (Batching.visitMember limitMembers flush)
    ⟨[], 0, visitedMembers, none, s, []⟩
  read.2.finish limitMembers flush read.1

namespace BatchEvent

def visitedMember : BatchEvent → Option ArchiveMember
  | visited member => some member
  | _ => none

def batch : BatchEvent → Option (List ArchiveMember)
  | flushed batch _ => some batch
  | _ => none

/-- What the buffer holds at the event. -/
def buffer : BatchEvent → Option (List ArchiveMember)
  | held pending => some pending
  | flushed batch _ => some batch
  | _ => none

def call : BatchEvent → Option (List ArchiveMember × Except StorageError Unit)
  | flushed batch result => some (batch, result)
  | _ => none

def isFlushFailure : BatchEvent → Bool
  | flushed _ (.error _) => true
  | _ => false

end BatchEvent

def totalBytes (members : List ArchiveMember) : ℕ := (members.map fun member => member.bytes.length).sum

/-- A call with a batch and its byte count as the buffer. -/
def Flush.call {σ : Type*} (flush : Flush σ) (batch : List ArchiveMember) (s : σ) : Except StorageError Unit × σ :=
  let (result, _, _, flushState) := flush.run batch (min (totalBytes batch) usizeMax) s
  (result, flushState)

/-- A buffer within both thresholds. Only a member alone is longer. -/
def Bounded (buffer : List ArchiveMember) : Prop :=
  buffer.length ≤ legiIngestTransactionBatchSize ∧
    (totalBytes buffer ≤ legiIngestTransactionBatchByteLimit ∨ buffer.length = 1)

/-- The members that the limit lets through. -/
def withinLimit (limitMembers : Option ℕ) (visited : ℕ) (members : List ArchiveMember) : List ArchiveMember :=
  match limitMembers with
  | some limit => members.take (limit - visited)
  | none => members

theorem withinLimit_stop {limitMembers : Option ℕ} {visited : ℕ} (h : atLimit limitMembers visited = true)
    (members : List ArchiveMember) : withinLimit limitMembers visited members = [] := by
  cases limitMembers with
  | none => cases h
  | some limit =>
    have hle : limit ≤ visited := of_decide_eq_true h
    rw [withinLimit, Nat.sub_eq_zero_of_le hle, List.take_zero]

theorem withinLimit_cons {limitMembers : Option ℕ} {visited : ℕ} (h : atLimit limitMembers visited = false)
    (member : ArchiveMember) (members : List ArchiveMember) :
    withinLimit limitMembers visited (member :: members) =
      member :: withinLimit limitMembers (visited + 1) members := by
  cases limitMembers with
  | none => rfl
  | some limit =>
    have hlt : ¬ limit ≤ visited := of_decide_eq_false h
    have hleft : limit - visited = (limit - (visited + 1)) + 1 := by omega
    rw [withinLimit, hleft, List.take_succ_cons]
    rfl

theorem totalBytes_append (xs ys : List ArchiveMember) : totalBytes (xs ++ ys) = totalBytes xs + totalBytes ys := by
  simp [totalBytes]

theorem byteLimit_lt_usizeMax : legiIngestTransactionBatchByteLimit < usizeMax := by decide

namespace Batching

variable {σ : Type*} {limitMembers : Option ℕ} {flush : Flush σ} {s : σ} {start : ℕ} {seen kept : List ArchiveMember}
  {b : Batching σ} {member : ArchiveMember} {e : StorageError}

/-- The flushes so far are the calls of `flush` with the recorded batches in turn. -/
def Called (flush : Flush σ) (s : σ) (b : Batching σ) : Prop :=
  callsFrom flush.call s (b.trace.filterMap BatchEvent.batch) = (b.trace.filterMap BatchEvent.call, b.flushState)

/-- An event beside the flushes. -/
theorem Called.unflushed (h : Called flush s b) {b' : Batching σ} {event : BatchEvent}
    (htrace : b'.trace = b.trace ++ [event]) (hbatch : event.batch = none) (hcall : event.call = none)
    (hstate : b'.flushState = b.flushState) : Called flush s b' := by
  have hbatches : b'.trace.filterMap BatchEvent.batch = b.trace.filterMap BatchEvent.batch := by
    rw [htrace, List.filterMap_append, List.filterMap_cons_none hbatch, List.filterMap_nil, List.append_nil]
  have hcalls : b'.trace.filterMap BatchEvent.call = b.trace.filterMap BatchEvent.call := by
    rw [htrace, List.filterMap_append, List.filterMap_cons_none hcall, List.filterMap_nil, List.append_nil]
  rw [Called, hbatches, hcalls, hstate]
  exact h

theorem Called.callFlush (h : Called flush s b)
    (hbytes : b.pendingMemberBytes = min (totalBytes b.pendingMembers) usizeMax) : Called flush s (b.callFlush flush) := by
  have hbatches : (b.callFlush flush).trace.filterMap BatchEvent.batch =
      b.trace.filterMap BatchEvent.batch ++ [b.pendingMembers] := by
    rw [Batching.callFlush, List.filterMap_append]
    rfl
  rw [Called] at h ⊢
  rw [hbatches, callsFrom_append_singleton, h, Batching.callFlush, List.filterMap_append, hbytes]
  rfl

/-- No flush has failed. Of the members that were visited, `kept` were flushed or
are in the buffer. -/
structure Holds (flush : Flush σ) (s : σ) (start : ℕ) (seen kept : List ArchiveMember) (b : Batching σ) : Prop where
  flushError : b.flushError = none
  visited : b.visited = start + seen.length
  seen : b.trace.filterMap BatchEvent.visitedMember = seen
  kept : (b.trace.filterMap BatchEvent.batch).flatten ++ b.pendingMembers = kept
  flushes : ∀ event ∈ b.trace, event.isFlushFailure = false
  bytes : b.pendingMemberBytes = min (totalBytes b.pendingMembers) usizeMax
  bounded : ∀ event ∈ b.trace, ∀ buffer ∈ event.buffer, Bounded buffer
  called : Called flush s b

/-- The last flush failed, and nothing came after it. -/
structure Failed (flush : Flush σ) (s : σ) (start : ℕ) (seen : List ArchiveMember) (e : StorageError)
    (b : Batching σ) : Prop where
  flushError : b.flushError = some e
  visited : b.visited = start + seen.length
  seen : b.trace.filterMap BatchEvent.visitedMember = seen
  ends : ∃ before batch, b.trace = before ++ [.flushed batch (.error e)] ∧
    ∀ event ∈ before, event.isFlushFailure = false
  bounded : ∀ event ∈ b.trace, ∀ buffer ∈ event.buffer, Bounded buffer
  called : Called flush s b

/-- There is room for another member, of any length after a flush. -/
structure Going (flush : Flush σ) (s : σ) (start : ℕ) (seen : List ArchiveMember) (b : Batching σ) : Prop
    extends Holds flush s start seen seen b where
  roomy : b.pendingMembers.length < legiIngestTransactionBatchSize
  light : b.pendingMemberBytes < legiIngestTransactionBatchByteLimit

theorem Holds.totalBytes_lt (h : Holds flush s start seen kept b)
    (hlight : b.pendingMemberBytes < legiIngestTransactionBatchByteLimit) :
    totalBytes b.pendingMembers < legiIngestTransactionBatchByteLimit := by
  have hmax := byteLimit_lt_usizeMax
  have hbytes := h.bytes
  omega

theorem Holds.count (h : Holds flush s start seen kept b) (member : ArchiveMember) :
    Holds flush s start (seen ++ [member]) kept (b.count member) where
  flushError := h.flushError
  visited := by
    rw [List.length_append, List.length_singleton, ← Nat.add_assoc, ← h.visited]
    rfl
  seen := by
    rw [← h.seen, Batching.count, List.filterMap_append]
    rfl
  kept := by
    rw [← h.kept, Batching.count, List.filterMap_append]
    simp [BatchEvent.batch]
  flushes := by
    intro event hevent
    rcases List.mem_append.mp hevent with hevent | hevent
    · exact h.flushes event hevent
    · rw [List.mem_singleton.mp hevent]
      rfl
  bytes := h.bytes
  bounded := by
    intro event hevent buffer hbuffer
    rcases List.mem_append.mp hevent with hevent | hevent
    · exact h.bounded event hevent buffer hbuffer
    · rw [List.mem_singleton.mp hevent] at hbuffer
      cases hbuffer
  called := h.called.unflushed rfl rfl rfl rfl

theorem Holds.callFlush (h : Holds flush s start seen kept b) (hbounded : Bounded b.pendingMembers) :
    (Holds flush s start seen kept (b.callFlush flush) ∧ (b.callFlush flush).pendingMembers = [] ∧
        (b.callFlush flush).pendingMemberBytes = 0) ∨
      ∃ e, Failed flush s start seen e (b.callFlush flush) := by
  have hdrains := @Flush.drains _ flush b.pendingMembers b.pendingMemberBytes b.flushState
  have hcalled := h.called.callFlush h.bytes
  unfold Batching.callFlush at hcalled ⊢
  generalize flush.run b.pendingMembers b.pendingMemberBytes b.flushState = out at hdrains hcalled
  obtain ⟨result, pending, pendingBytes, flushState⟩ := out
  have hseen : (b.trace ++ [BatchEvent.flushed b.pendingMembers result]).filterMap BatchEvent.visitedMember = seen := by
    rw [List.filterMap_append, h.seen]
    exact List.append_nil seen
  have hall : ∀ event ∈ b.trace ++ [.flushed b.pendingMembers result], ∀ buffer ∈ event.buffer, Bounded buffer := by
    intro event hevent buffer hbuffer
    rcases List.mem_append.mp hevent with hevent | hevent
    · exact h.bounded event hevent buffer hbuffer
    · rw [List.mem_singleton.mp hevent] at hbuffer
      cases hbuffer
      exact hbounded
  cases result with
  | error e => exact Or.inr ⟨e, rfl, h.visited, hseen, ⟨b.trace, b.pendingMembers, rfl, h.flushes⟩, hall, hcalled⟩
  | ok done =>
    obtain ⟨hpending, hbytes⟩ := hdrains rfl
    simp only at hpending hbytes
    subst hpending hbytes
    refine Or.inl ⟨⟨rfl, h.visited, hseen, ?_, ?_, rfl, hall, hcalled⟩, rfl, rfl⟩
    · simp only [List.filterMap_append, List.flatten_append, List.append_nil]
      rw [← h.kept]
      simp [BatchEvent.batch]
    · intro event hevent
      rcases List.mem_append.mp hevent with hevent | hevent
      · exact h.flushes event hevent
      · rw [List.mem_singleton.mp hevent]
        rfl

/-- The member is within the byte limit together with the buffer, or comes first. -/
def Fits (b : Batching σ) (member : ArchiveMember) : Prop :=
  b.pendingMembers.length < legiIngestTransactionBatchSize ∧
    (b.pendingMembers = [] ∨ totalBytes (b.pendingMembers ++ [member]) ≤ legiIngestTransactionBatchByteLimit)

theorem Holds.makeRoom (h : Holds flush s start seen kept b)
    (hroomy : b.pendingMembers.length < legiIngestTransactionBatchSize)
    (hlight : b.pendingMemberBytes < legiIngestTransactionBatchByteLimit) (member : ArchiveMember) :
    (Holds flush s start seen kept (b.makeRoom flush member) ∧ (b.makeRoom flush member).Fits member) ∨
      ∃ e, Failed flush s start seen e (b.makeRoom flush member) := by
  have hbytes := h.totalBytes_lt hlight
  unfold Batching.makeRoom
  by_cases hover : b.overflows member = true
  · rw [if_pos hover]
    rcases h.callFlush ⟨Nat.le_of_lt hroomy, Or.inl (Nat.le_of_lt hbytes)⟩ with ⟨hholds, hpending, _⟩ | hfailed
    · exact Or.inl ⟨hholds, by rw [hpending]; exact Nat.zero_lt_succ _, Or.inl hpending⟩
    · exact Or.inr hfailed
  · rw [if_neg hover]
    refine Or.inl ⟨h, hroomy, ?_⟩
    by_cases hpending : b.pendingMembers = []
    · exact Or.inl hpending
    · have hmax := byteLimit_lt_usizeMax
      simp only [overflows, hpending, saturatingAddUsize, h.bytes, Bool.and_eq_true, Bool.not_eq_true',
        List.isEmpty_eq_false_iff, ne_eq, not_false_eq_true, true_and, decide_eq_true_eq] at hover
      have hsum : totalBytes (b.pendingMembers ++ [member]) = totalBytes b.pendingMembers + member.bytes.length := by
        rw [totalBytes_append]
        simp [totalBytes]
      exact Or.inr (by omega)

theorem Holds.push (h : Holds flush s start seen kept b) (hfits : b.Fits member) :
    Holds flush s start seen (kept ++ [member]) (b.push member) ∧ Bounded (b.push member).pendingMembers := by
  have hsum : totalBytes (b.pendingMembers ++ [member]) = totalBytes b.pendingMembers + member.bytes.length := by
    rw [totalBytes_append]
    simp [totalBytes]
  have hbounded : Bounded (b.pendingMembers ++ [member]) := by
    refine ⟨by rw [List.length_append, List.length_singleton]; exact hfits.1, ?_⟩
    rcases hfits.2 with hnil | hle
    · rw [hnil]
      exact Or.inr rfl
    · exact Or.inl hle
  refine ⟨⟨h.flushError, h.visited, ?_, ?_, ?_, ?_, ?_, h.called.unflushed rfl rfl rfl rfl⟩, hbounded⟩
  · simp only [Batching.push, List.filterMap_append, h.seen]
    exact List.append_nil seen
  · simp only [Batching.push, List.filterMap_append, List.flatten_append]
    rw [← h.kept]
    simp [BatchEvent.batch]
  · intro event hevent
    rcases List.mem_append.mp hevent with hevent | hevent
    · exact h.flushes event hevent
    · rw [List.mem_singleton.mp hevent]
      rfl
  · simp only [Batching.push, saturatingAddUsize, hsum, h.bytes]
    omega
  · intro event hevent buffer hbuffer
    rcases List.mem_append.mp hevent with hevent | hevent
    · exact h.bounded event hevent buffer hbuffer
    · rw [List.mem_singleton.mp hevent] at hbuffer
      cases hbuffer
      exact hbounded

theorem Holds.flushFull (h : Holds flush s start seen seen b) (hbounded : Bounded b.pendingMembers) :
    Going flush s start seen (b.flushFull flush) ∨ ∃ e, Failed flush s start seen e (b.flushFull flush) := by
  unfold Batching.flushFull
  by_cases hfull : b.isFull = true
  · rw [if_pos hfull]
    rcases h.callFlush hbounded with ⟨hholds, hpending, hbytes⟩ | hfailed
    · exact Or.inl ⟨hholds, by rw [hpending]; exact Nat.zero_lt_succ _, by rw [hbytes]; exact Nat.zero_lt_succ _⟩
    · exact Or.inr hfailed
  · rw [if_neg hfull]
    simp only [isFull, Bool.or_eq_true, decide_eq_true_eq, not_or, Nat.not_le] at hfull
    exact Or.inl ⟨h, hfull.1, hfull.2⟩

/-- One visit: nothing at the limit, and otherwise the member is counted, and kept
unless a flush fails. -/
theorem Going.visitMember (h : Going flush s start seen b) (limitMembers : Option ℕ) (member : ArchiveMember) :
    (atLimit limitMembers b.visited = true ∧ b.visitMember limitMembers flush member = (.ok .stop, b)) ∨
      (atLimit limitMembers b.visited = false ∧
        ((∃ b', b.visitMember limitMembers flush member = (.ok .continue, b') ∧ Going flush s start (seen ++ [member]) b') ∨
          (∃ b', b.visitMember limitMembers flush member = (.ok .stop, b') ∧ Going flush s start (seen ++ [member]) b' ∧
            atLimit limitMembers b'.visited = true) ∨
          ∃ b' e, b.visitMember limitMembers flush member = (.ok .stop, b') ∧
            Failed flush s start (seen ++ [member]) e b')) := by
  by_cases hlimit : atLimit limitMembers b.visited = true
  · exact Or.inl ⟨hlimit, by rw [Batching.visitMember, if_pos hlimit]⟩
  · refine Or.inr ⟨Bool.eq_false_iff.mpr hlimit, ?_⟩
    rcases (h.count member).makeRoom h.roomy h.light member with ⟨hroom, hfits⟩ | ⟨e, hfailed⟩
    · obtain ⟨hpushed, hbounded⟩ := hroom.push hfits
      rcases hpushed.flushFull hbounded with hgoing | ⟨e, hfailed⟩
      · cases hend : atLimit limitMembers (flushFull flush (((b.count member).makeRoom flush member).push member)).visited with
        | false =>
          refine Or.inl ⟨_, ?_, hgoing⟩
          simp [Batching.visitMember, hlimit, hroom.flushError, hgoing.flushError, hend]
        | true =>
          refine Or.inr (Or.inl ⟨_, ?_, hgoing, hend⟩)
          simp [Batching.visitMember, hlimit, hroom.flushError, hgoing.flushError, hend]
      · refine Or.inr (Or.inr ⟨_, e, ?_, hfailed⟩)
        simp [Batching.visitMember, hlimit, hroom.flushError, hfailed.flushError]
    · refine Or.inr (Or.inr ⟨_, e, ?_, hfailed⟩)
      simp [Batching.visitMember, hlimit, hfailed.flushError]

/-- The visits of a list of members: they go on to the limit or the end, and to a
failed flush at most. -/
theorem Going.visitAll (h : Going flush s start seen b) (limitMembers : Option ℕ)
    (failure : Option ArchiveReadError) (members : List ArchiveMember) (n : ℕ) :
    ∃ result b', MemberBatches.visitAll (Batching.visitMember limitMembers flush) failure members n b = (result, b') ∧
      ((∃ ms e, ms <+: withinLimit limitMembers b.visited members ∧ result.isOk = true ∧
          Failed flush s start (seen ++ ms) e b') ∨
        (Going flush s start (seen ++ withinLimit limitMembers b.visited members) b' ∧
          (result.isOk = true ∨ ∃ e, failure = some e ∧ result = .error e))) := by
  induction members generalizing seen b n with
  | nil =>
    have hnone : withinLimit limitMembers b.visited [] = [] := by
      cases limitMembers with
      | none => rfl
      | some limit => exact List.take_nil
    rw [hnone, List.append_nil]
    cases failure with
    | none => exact ⟨.ok n, b, rfl, Or.inr ⟨h, Or.inl rfl⟩⟩
    | some e => exact ⟨.error e, b, rfl, Or.inr ⟨h, Or.inr ⟨e, rfl, rfl⟩⟩⟩
  | cons member members ih =>
    rcases h.visitMember limitMembers member with ⟨hlimit, hvisit⟩ | ⟨hlimit, hvisit⟩
    · refine ⟨.ok (n + 1), b, by rw [MemberBatches.visitAll, hvisit], Or.inr ⟨?_, Or.inl rfl⟩⟩
      rwa [withinLimit_stop hlimit, List.append_nil]
    · rw [withinLimit_cons hlimit]
      rcases hvisit with ⟨b', hvisit, hgoing⟩ | ⟨b', hvisit, hgoing, hend⟩ | ⟨b', e, hvisit, hfailed⟩
      · have hcount : b'.visited = b.visited + 1 := by
          rw [hgoing.visited, h.visited, List.length_append, List.length_singleton, Nat.add_assoc]
        obtain ⟨result, b'', hrun, hends⟩ := ih hgoing (n + 1)
        refine ⟨result, b'', by rw [MemberBatches.visitAll, hvisit, ← hrun], ?_⟩
        rw [hcount] at hends
        rcases hends with ⟨ms, e, hms, hok, hfailed⟩ | ⟨hgoing', hresult⟩
        · rw [List.append_assoc, List.singleton_append] at hfailed
          exact Or.inl ⟨member :: ms, e, List.prefix_cons_inj member |>.mpr hms, hok, hfailed⟩
        · rw [List.append_assoc, List.singleton_append] at hgoing'
          exact Or.inr ⟨hgoing', hresult⟩
      · have hcount : b'.visited = b.visited + 1 := by
          rw [hgoing.visited, h.visited, List.length_append, List.length_singleton, Nat.add_assoc]
        refine ⟨.ok (n + 1), b', by rw [MemberBatches.visitAll, hvisit], Or.inr ⟨?_, Or.inl rfl⟩⟩
        rwa [← hcount, withinLimit_stop hend]
      · refine ⟨.ok (n + 1), b', by rw [MemberBatches.visitAll, hvisit], Or.inl ⟨[member], e, ?_, rfl, hfailed⟩⟩
        exact List.prefix_cons_inj member |>.mpr List.nil_prefix

theorem Failed.finish (h : Failed flush s start seen e b) {result : Except ArchiveReadError ℕ} (hok : result.isOk = true)
    (limitMembers : Option ℕ) :
    b.finish limitMembers flush result = (.error (.flush b.visited e), b) := by
  cases result with
  | error failure => cases hok
  | ok n => simp [Batching.finish, h.flushError]

theorem Going.finish_error (h : Going flush s start seen b) (limitMembers : Option ℕ)
    (failure : ArchiveReadError) :
    b.finish limitMembers flush (.error failure) =
      (.error (.read b.visited failure), { b with trace := b.trace ++ [.readFailed failure] }) := by
  have hok : (Except.error failure : Except ArchiveReadError ℕ).isOk = false := rfl
  simp [Batching.finish, h.flushError, hok]

theorem Going.finish_ok (h : Going flush s start seen b) (limitMembers : Option ℕ)
    {result : Except ArchiveReadError ℕ} (hok : result.isOk = true) :
    (∃ b', b.finish limitMembers flush result = (.ok ⟨b'.visited, atLimit limitMembers b'.visited⟩, b') ∧
        Holds flush s start seen seen b' ∧ b'.pendingMembers = []) ∨
      ∃ b' e, b.finish limitMembers flush result = (.error (.flush b'.visited e), b') ∧ Failed flush s start seen e b' := by
  cases result with
  | error failure => cases hok
  | ok n =>
    by_cases hpending : b.pendingMembers = []
    · refine Or.inl ⟨b, ?_, h.toHolds, hpending⟩
      simp [Batching.finish, h.flushError, hpending]
    · have hbounded : Bounded b.pendingMembers :=
        ⟨Nat.le_of_lt h.roomy, Or.inl (Nat.le_of_lt (h.totalBytes_lt h.light))⟩
      rcases h.callFlush hbounded with ⟨hholds, hempty, _⟩ | ⟨e, hfailed⟩
      · refine Or.inl ⟨_, ?_, hholds, hempty⟩
        simp [Batching.finish, h.flushError, hok, hpending, hholds.flushError]
      · refine Or.inr ⟨_, e, ?_, hfailed⟩
        simp [Batching.finish, h.flushError, hok, hpending, hfailed.flushError]

end Batching

/-- What a batched read of an archive does, whatever the archive holds and however
the flushes end. -/
structure BatchedRead {σ : Type*} (flush : Flush σ) (s : σ) (limitMembers : Option ℕ) (visitedMembers : ℕ)
    (members : List ArchiveMember) (failure : Option ArchiveReadError)
    (run : Except ArchiveBatchReadError ArchiveBatchReadReport × Batching σ) : Prop where
  called : Batching.Called flush s run.2
  inOrder : run.2.trace.filterMap BatchEvent.visitedMember <+: withinLimit limitMembers visitedMembers members
  bounded : ∀ event ∈ run.2.trace, ∀ buffer ∈ event.buffer, Bounded buffer
  flushedAll : ∀ report, run.1 = .ok report →
    (run.2.trace.filterMap BatchEvent.batch).flatten = withinLimit limitMembers visitedMembers members ∧
      run.2.trace.filterMap BatchEvent.visitedMember = withinLimit limitMembers visitedMembers members ∧
      (∀ event ∈ run.2.trace, event.isFlushFailure = false) ∧
      report.visitedMembers = visitedMembers + (withinLimit limitMembers visitedMembers members).length ∧
      report.stoppedByLimit = atLimit limitMembers report.visitedMembers
  flushFailed : ∀ n e, run.1 = .error (.flush n e) →
    n = visitedMembers + (run.2.trace.filterMap BatchEvent.visitedMember).length ∧
      ∃ before batch, run.2.trace = before ++ [.flushed batch (.error e)] ∧
        ∀ event ∈ before, event.isFlushFailure = false
  readFailed : ∀ n e, run.1 = .error (.read n e) →
    failure = some e ∧ n = visitedMembers + (run.2.trace.filterMap BatchEvent.visitedMember).length ∧
      run.2.trace.filterMap BatchEvent.visitedMember = withinLimit limitMembers visitedMembers members ∧
      ∃ before, run.2.trace = before ++ [.readFailed e] ∧ ∀ event ∈ before, event.isFlushFailure = false

theorem readArchiveMembersBatched_sound {σ : Type*} (file : ArchiveFile) (maxMemberBytes : ℕ)
    (limitMembers : Option ℕ) (visitedMembers : ℕ) (flush : Flush σ) (s : σ) :
    BatchedRead flush s limitMembers visitedMembers (file.members maxMemberBytes).1 (file.members maxMemberBytes).2
      (readArchiveMembersBatched file maxMemberBytes limitMembers visitedMembers flush s) := by
  have hstart : Batching.Going flush s visitedMembers [] (⟨[], 0, visitedMembers, none, s, []⟩ : Batching σ) :=
    ⟨⟨rfl, rfl, rfl, rfl, by simp, rfl, by simp, rfl⟩, Nat.zero_lt_succ _, Nat.zero_lt_succ _⟩
  obtain ⟨result, b, hvisits, hends⟩ :=
    hstart.visitAll limitMembers (file.members maxMemberBytes).2 (file.members maxMemberBytes).1 0
  rw [readArchiveMembersBatched, forEachXmlMemberUntil_eq, hvisits]
  simp only [List.nil_append] at hends ⊢
  have hflushFailed : ∀ {ms b e}, ms <+: withinLimit limitMembers visitedMembers (file.members maxMemberBytes).1 →
      Batching.Failed flush s visitedMembers ms e b →
      BatchedRead flush s limitMembers visitedMembers (file.members maxMemberBytes).1 (file.members maxMemberBytes).2
        ((.error (.flush b.visited e), b) : Except ArchiveBatchReadError ArchiveBatchReadReport × Batching σ) := by
    intro ms b e hms hfailed
    refine ⟨hfailed.called, by rw [hfailed.seen]; exact hms, hfailed.bounded, by simp, ?_, by simp⟩
    intro n e' heq
    cases heq
    exact ⟨by rw [hfailed.seen]; exact hfailed.visited, hfailed.ends⟩
  rcases hends with ⟨ms, e, hms, hok, hfailed⟩ | ⟨hgoing, hresult⟩
  · rw [hfailed.finish hok]
    exact hflushFailed hms hfailed
  · rcases hresult with hok | ⟨e, hfailure, rfl⟩
    · rcases hgoing.finish_ok limitMembers hok with ⟨b', hfinish, hholds, hempty⟩ | ⟨b', e, hfinish, hfailed⟩
      · rw [hfinish]
        have hkept := hholds.kept
        rw [hempty, List.append_nil] at hkept
        refine ⟨hholds.called, by rw [hholds.seen], hholds.bounded, ?_, by simp, by simp⟩
        intro report hreport
        cases hreport
        exact ⟨hkept, hholds.seen, hholds.flushes, hholds.visited, rfl⟩
      · rw [hfinish]
        exact hflushFailed (List.prefix_refl _) hfailed
    · rw [hgoing.finish_error]
      have hseen : (b.trace ++ [BatchEvent.readFailed e]).filterMap BatchEvent.visitedMember =
          withinLimit limitMembers visitedMembers (file.members maxMemberBytes).1 := by
        rw [List.filterMap_append, hgoing.seen]
        exact List.append_nil _
      refine ⟨hgoing.called.unflushed rfl rfl rfl rfl, by rw [hseen], ?_, by simp, by simp, ?_⟩
      · intro event hevent buffer hbuffer
        rcases List.mem_append.mp hevent with hevent | hevent
        · exact hgoing.bounded event hevent buffer hbuffer
        · rw [List.mem_singleton.mp hevent] at hbuffer
          cases hbuffer
      · intro n e' heq
        cases heq
        exact ⟨hfailure, by rw [hseen]; exact hgoing.visited, hseen, b.trace, rfl, hgoing.flushes⟩

end CorpusFeed.MemberBatches
