import CorpusFeed.SyncDaemon

/-! The daemon's trace records the answers it got: the guard stands right
before each attempt, and no attempt follows a stop that it has observed. -/

namespace CorpusFeed

/-- The daemon has learned that it has to stop. -/
def DaemonEvent.observesStop : DaemonEvent → Bool
  | .guarded .shutdown => true
  | .guarded .leaseLost => true
  | .waited true => true
  | _ => false

def Quiet (trace : List DaemonEvent) : Prop := ∀ event ∈ trace, event.observesStop = false

/-- What must have happened before an event. -/
def DaemonEvent.Follows (world : DaemonWorld) (before : List DaemonEvent) : DaemonEvent → Prop
  | .guarded decision => checkBeforeApply world before = decision
  | .corpusCycle corpus _ outcome =>
    Quiet before ∧ (∃ earlier, before = earlier ++ [.guarded .proceed]) ∧
      classify (world.runCorpusCycle before corpus) = outcome
  | .waited shutdown =>
    ∃ earlier sleep backingOff, before = earlier ++ [.cycleSleep sleep backingOff] ∧
      world.waitOrShutdown before sleep = shutdown
  | _ => True

def TraceRecorded (world : DaemonWorld) (trace : List DaemonEvent) : Prop :=
  ∀ before event after, trace = before ++ event :: after → event.Follows world before

variable {world : DaemonWorld} {trace : List DaemonEvent} {event : DaemonEvent}

theorem split_snoc {before after : List DaemonEvent} {last : DaemonEvent}
    (h : trace ++ [last] = before ++ event :: after) :
    (before = trace ∧ event = last) ∨ ∃ rest, trace = before ++ event :: rest := by
  rcases List.eq_nil_or_concat after with rfl | ⟨rest, final, rfl⟩
  · obtain ⟨hbefore, hlast⟩ := List.append_inj' h rfl
    obtain ⟨rfl, _⟩ := List.cons.inj hlast
    exact Or.inl ⟨hbefore.symm, rfl⟩
  · rw [List.concat_eq_append, ← List.cons_append, ← List.append_assoc] at h
    exact Or.inr ⟨rest, List.append_inj_left' h rfl⟩

theorem Quiet.snoc (h : Quiet trace) (event : DaemonEvent) (hevent : event.observesStop = false) :
    Quiet (trace ++ [event]) := by
  intro other hother
  rcases List.mem_append.mp hother with hother | hother
  · exact h other hother
  · rw [List.mem_singleton.mp hother]
    exact hevent

theorem TraceRecorded.snoc (h : TraceRecorded world trace) (event : DaemonEvent) (hevent : event.Follows world trace) :
    TraceRecorded world (trace ++ [event]) := by
  intro before other after hsplit
  rcases split_snoc hsplit with ⟨rfl, rfl⟩ | ⟨rest, hrest⟩
  · exact hevent
  · exact h before other rest hrest

/-- The guard lets an attempt pass that nothing observed so far forbids. -/
theorem TraceRecorded.attempt (h : TraceRecorded world trace) (hquiet : Quiet trace)
    (hguard : checkBeforeApply world trace = .proceed) (corpus : Text) (burst : Nat) :
    TraceRecorded world (trace ++ [.guarded .proceed] ++
      [.corpusCycle corpus burst (classify (world.runCorpusCycle (trace ++ [.guarded .proceed]) corpus))]) := by
  apply (h.snoc (.guarded .proceed) hguard).snoc
  exact ⟨hquiet.snoc _ rfl, ⟨trace, rfl⟩, rfl⟩

theorem burstLoop_recorded (corpus : Text) (remaining burst : Nat) (h : TraceRecorded world trace) (hquiet : Quiet trace) :
    TraceRecorded world (burstLoop world corpus remaining burst trace).2 ∧
      ∀ retryable, (burstLoop world corpus remaining burst trace).1 = .ok retryable →
        Quiet (burstLoop world corpus remaining burst trace).2 := by
  induction remaining generalizing burst trace with
  | zero => exact ⟨h, fun _ _ => hquiet⟩
  | succ remaining ih =>
    rw [burstLoop]
    cases hguard : checkBeforeApply world trace with
    | shutdown =>
      refine ⟨?_, fun _ hok => by simp at hok⟩
      have hstop := (h.snoc (.guarded .shutdown) hguard).snoc .daemonShutdown trivial
      simpa using hstop
    | leaseLost =>
      refine ⟨?_, fun _ hok => by simp at hok⟩
      have hstop := (h.snoc (.guarded .leaseLost) hguard).snoc (.daemonFatal "single_writer_lease_lost") trivial
      simpa using hstop
    | proceed =>
      dsimp only
      have hattempt := h.attempt hquiet hguard corpus burst
      revert hattempt
      generalize classify (world.runCorpusCycle (trace ++ [.guarded .proceed]) corpus) = outcome
      intro hattempt
      have hstays : Quiet (trace ++ [.guarded .proceed] ++ [.corpusCycle corpus burst outcome]) :=
        (hquiet.snoc _ rfl).snoc _ rfl
      cases outcome with
      | progress => exact ih (burst + 1) hattempt hstays
      | upToDate => exact ⟨hattempt, fun _ _ => hstays⟩
      | retryable reason => exact ⟨hattempt, fun _ _ => hstays⟩
      | rejected code message => exact ⟨hattempt, fun _ _ => hstays⟩

theorem corporaLoop_recorded (maxBurst : Nat) (corpora : List Text) (before : Bool) (h : TraceRecorded world trace)
    (hquiet : Quiet trace) :
    TraceRecorded world (corporaLoop world maxBurst corpora before trace).2 ∧
      ∀ retryable, (corporaLoop world maxBurst corpora before trace).1 = .ok retryable →
        Quiet (corporaLoop world maxBurst corpora before trace).2 := by
  induction corpora generalizing before trace with
  | nil => exact ⟨h, fun _ _ => hquiet⟩
  | cons corpus corpora ih =>
    rw [corporaLoop]
    obtain ⟨hrecorded, hstays⟩ := burstLoop_recorded corpus (max maxBurst 1) 0 h hquiet
    cases hburst : burstLoop world corpus (max maxBurst 1) 0 trace with
    | mk result trace' =>
      rw [hburst] at hrecorded hstays
      cases result with
      | error ending => exact ⟨hrecorded, fun _ hok => by simp at hok⟩
      | ok retryable => exact ih (before || retryable) hrecorded (hstays retryable rfl)

theorem daemonLoop_recorded {config : DaemonConfig} {passes : Nat} {backoff : Duration} (h : TraceRecorded world trace)
    (hquiet : Quiet trace) : TraceRecorded world (daemonLoop world config passes backoff trace).2 := by
  induction passes generalizing backoff trace with
  | zero => exact h
  | succ passes ih =>
    rw [daemonLoop]
    obtain ⟨hrecorded, hstays⟩ := corporaLoop_recorded config.maxBurst config.corpora false h hquiet
    cases hpass : corporaLoop world config.maxBurst config.corpora false trace with
    | mk result trace' =>
      rw [hpass] at hrecorded hstays
      cases result with
      | error ending => exact hrecorded
      | ok anyRetryable =>
        dsimp only
        cases nextSleep config backoff anyRetryable with
        | none => exact hrecorded
        | some next =>
          obtain ⟨sleep, backoff'⟩ := next
          dsimp only
          have hslept := hrecorded.snoc (.cycleSleep sleep anyRetryable) trivial
          by_cases hwait : world.waitOrShutdown (trace' ++ [.cycleSleep sleep anyRetryable]) sleep = true
          · rw [if_pos hwait]
            exact (hslept.snoc (.waited true) ⟨trace', sleep, anyRetryable, rfl, hwait⟩).snoc .daemonShutdown trivial
          · rw [if_neg hwait]
            have hno : world.waitOrShutdown (trace' ++ [.cycleSleep sleep anyRetryable]) sleep = false := by
              simpa using hwait
            exact ih (hslept.snoc (.waited false) ⟨trace', sleep, anyRetryable, rfl, hno⟩)
              (((hstays anyRetryable rfl).snoc _ rfl).snoc _ rfl)

theorem runDaemon_recorded (world : DaemonWorld) (config : DaemonConfig) (passes : Nat) :
    TraceRecorded world (runDaemon world config passes).2 := by
  have hstart : TraceRecorded world [.daemonStart config.corpora config.pollInterval] := by
    have hnone : TraceRecorded world [] := fun before event after hsplit => by simp at hsplit
    exact hnone.snoc (.daemonStart config.corpora config.pollInterval) trivial
  apply daemonLoop_recorded hstart
  intro event hevent
  rw [List.mem_singleton.mp hevent]
  rfl

/-- An attempt is not started when a stop has been observed, and the guard
right before it found neither a shutdown nor a lost lease. -/
theorem TraceRecorded.clear (h : TraceRecorded world trace) {before after : List DaemonEvent} {corpus : Text} {burst : Nat}
    {outcome : CycleOutcome} (hsplit : trace = before ++ .corpusCycle corpus burst outcome :: after) :
    Quiet before ∧ classify (world.runCorpusCycle before corpus) = outcome ∧
      ∃ earlier, before = earlier ++ [.guarded .proceed] ∧ world.isRequested earlier = false ∧
        world.lockAlive earlier = true := by
  obtain ⟨hquiet, ⟨earlier, hearlier⟩, houtcome⟩ := h _ _ _ hsplit
  have hguard := h earlier (.guarded .proceed) (.corpusCycle corpus burst outcome :: after)
    (by simp [hsplit, hearlier])
  exact ⟨hquiet, houtcome, earlier, hearlier, (checkBeforeApply_iff world true).mp hguard⟩

end CorpusFeed
