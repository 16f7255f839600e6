import CorpusFeed.DaemonPasses
import Mathlib.Data.List.TakeWhile

/-! Runs of the daemon: the backoff is a function of the retryable passes
just before, and only a lost lease ends a run with an error. -/

namespace CorpusFeed

/-- A pass with the sleep after it. -/
structure DaemonPass where
  attempts : List (List CycleOutcome)
  sleep : Duration
  interrupted : Bool

def DaemonPass.retryable (pass : DaemonPass) : Bool := anyRetryable pass.attempts

def DaemonPass.events (corpora : List Text) (pass : DaemonPass) : List DaemonEvent :=
  passEvents corpora pass.attempts ++ [.cycleSleep pass.sleep pass.retryable, .waited pass.interrupted]

/-- How many passes in a row are retryable at the end. -/
def streak (passes : List DaemonPass) : Nat := (passes.reverse.takeWhile (·.retryable)).length

/-- Where the last pass leaves the run, and what happens after it. -/
inductive DaemonRest (config : DaemonConfig) (limit : Nat) (passes : List DaemonPass) :
    Option DaemonEnd → List DaemonEvent → Prop
  | running (h : passes.length = limit) : DaemonRest config limit passes none []
  | woken (pass : DaemonPass) (hlast : passes.getLast? = some pass) (h : pass.interrupted = true) :
    DaemonRest config limit passes (some (.returned (.ok ()))) [.daemonShutdown]
  | stopped (pass : List (List CycleOutcome)) (ending : DaemonEnd) (stop : List DaemonEvent)
    (h : CutOff (max config.maxBurst 1) config.corpora pass) (hstop : StopsWith ending stop) :
    DaemonRest config limit passes (some ending) (passEvents config.corpora pass ++ stop)
  | overflowed (pass : List (List CycleOutcome)) (h : Attempted (max config.maxBurst 1) config.corpora pass)
    (hretryable : anyRetryable pass = true)
    (hoverflow : maxNanos < min (config.minBackoff.nanos * 2 ^ streak passes) config.maxBackoff.nanos * 2) :
    DaemonRest config limit passes (some .panicked) (passEvents config.corpora pass)

/-- The sleeps of the passes that follow some earlier ones. -/
def SleepsAfter (config : DaemonConfig) (earlier passes : List DaemonPass) : Prop :=
  ∀ before pass after, passes = before ++ pass :: after →
    pass.sleep.nanos =
      if pass.retryable then
        min (config.minBackoff.nanos * 2 ^ (streak (earlier ++ before ++ [pass]) - 1)) config.maxBackoff.nanos
      else config.pollInterval.nanos

variable {config : DaemonConfig}

theorem streak_snoc (passes : List DaemonPass) (pass : DaemonPass) :
    streak (passes ++ [pass]) = if pass.retryable then streak passes + 1 else 0 := by
  unfold streak
  rw [List.reverse_append, List.reverse_singleton, List.singleton_append, List.takeWhile_cons]
  split
  · rfl
  · rfl

theorem nanos_min (duration other : Duration) : (duration.min other).nanos = min duration.nanos other.nanos := by
  unfold Duration.min
  split <;> omega

theorem double_eq_some {duration doubled : Duration} (h : duration.double = some doubled) :
    doubled.nanos = duration.nanos * 2 := by
  unfold Duration.double at h
  split at h
  · rw [← Option.some.inj h]
  · cases h

/-- A retryable pass sleeps for the backoff and doubles it up to the cap, and
any other pass resets it. -/
theorem nextSleep_cases {backoff sleep next : Duration} {retryable : Bool}
    (h : nextSleep config backoff retryable = some (sleep, next)) :
    (retryable = true ∧ sleep = backoff ∧ next.nanos = min (backoff.nanos * 2) config.maxBackoff.nanos) ∨
      (retryable = false ∧ sleep = config.pollInterval ∧ next = config.minBackoff) := by
  unfold nextSleep at h
  cases retryable with
  | false =>
    obtain ⟨rfl, rfl⟩ := Prod.mk.inj (Option.some.inj h)
    exact Or.inr ⟨rfl, rfl, rfl⟩
  | true =>
    obtain ⟨doubled, hdoubled, hpair⟩ := Option.map_eq_some_iff.mp h
    obtain ⟨rfl, rfl⟩ := Prod.mk.inj hpair
    refine Or.inl ⟨rfl, rfl, ?_⟩
    rw [nanos_min, double_eq_some hdoubled]

theorem nextSleep_none {backoff : Duration} {retryable : Bool} (h : nextSleep config backoff retryable = none) :
    retryable = true ∧ maxNanos < backoff.nanos * 2 := by
  unfold nextSleep at h
  cases retryable with
  | false => simp at h
  | true =>
    refine ⟨rfl, ?_⟩
    have hdouble : backoff.double = none := by simpa using h
    unfold Duration.double at hdouble
    by_cases hfits : backoff.nanos * 2 ≤ maxNanos
    · rw [dif_pos hfits] at hdouble
      cases hdouble
    · exact Nat.lt_of_not_le hfits

/-- The backoff after some passes. -/
def BackoffAfter (config : DaemonConfig) (passes : List DaemonPass) (backoff : Duration) : Prop :=
  backoff.nanos = min (config.minBackoff.nanos * 2 ^ streak passes) config.maxBackoff.nanos

theorem BackoffAfter.next {passes : List DaemonPass} {backoff next : Duration} (pass : DaemonPass)
    (hconfig : config.minBackoff.nanos ≤ config.maxBackoff.nanos) (h : BackoffAfter config passes backoff)
    (hnext : nextSleep config backoff pass.retryable = some (pass.sleep, next)) :
    BackoffAfter config (passes ++ [pass]) next ∧
      pass.sleep.nanos =
        if pass.retryable then
          min (config.minBackoff.nanos * 2 ^ (streak (passes ++ [pass]) - 1)) config.maxBackoff.nanos
        else config.pollInterval.nanos := by
  unfold BackoffAfter at h ⊢
  rw [streak_snoc]
  rcases nextSleep_cases hnext with ⟨hretryable, hsleep, hdoubled⟩ | ⟨hretryable, hsleep, hreset⟩
  · rw [if_pos hretryable, if_pos hretryable, hsleep, hdoubled, Nat.add_sub_cancel, pow_succ, ← Nat.mul_assoc]
    constructor
    · omega
    · exact h
  · have hno : ¬ pass.retryable = true := by simp [hretryable]
    rw [if_neg hno, if_neg hno, hsleep, hreset]
    constructor
    · rw [pow_zero, Nat.mul_one, Nat.min_eq_left hconfig]
    · rfl

theorem SleepsAfter.cons {earlier passes : List DaemonPass} {pass : DaemonPass}
    (h : SleepsAfter config (earlier ++ [pass]) passes)
    (hsleep : pass.sleep.nanos =
      if pass.retryable then
        min (config.minBackoff.nanos * 2 ^ (streak (earlier ++ [pass]) - 1)) config.maxBackoff.nanos
      else config.pollInterval.nanos) : SleepsAfter config earlier (pass :: passes) := by
  intro before other after hsplit
  cases before with
  | nil =>
    obtain ⟨rfl, rfl⟩ := List.cons.inj hsplit
    rw [List.append_nil]
    exact hsleep
  | cons first before =>
    obtain ⟨rfl, hrest⟩ := List.cons.inj hsplit
    have hother := h before other after hrest
    simpa using hother

theorem daemonLoop_run (world : DaemonWorld) (hconfig : config.minBackoff.nanos ≤ config.maxBackoff.nanos) (limit : Nat)
    (earlier : List DaemonPass) (backoff : Duration) (trace : List DaemonEvent) (h : BackoffAfter config earlier backoff) :
    ∃ passes rest,
      (daemonLoop world config limit backoff trace).2 = trace ++ passes.flatMap (·.events config.corpora) ++ rest ∧
        (∀ pass ∈ passes, Attempted (max config.maxBurst 1) config.corpora pass.attempts) ∧
        SleepsAfter config earlier passes ∧
        DaemonRest config (earlier.length + limit) (earlier ++ passes) (daemonLoop world config limit backoff trace).1
          rest := by
  induction limit generalizing earlier backoff trace with
  | zero =>
    refine ⟨[], [], by simp [daemonLoop], by simp, ?_, .running (by simp)⟩
    intro before pass after hsplit
    simp at hsplit
  | succ limit ih =>
    have hnone : ∀ pass : DaemonPass, SleepsAfter config (earlier ++ [pass]) [] := by
      intro pass before other after hsplit
      simp at hsplit
    rw [daemonLoop]
    have hpass := corporaLoop_run world config.maxBurst config.corpora false trace
    generalize corporaLoop world config.maxBurst config.corpora false trace = result at hpass
    cases hpass with
    | stopped pass ending stop hcut hstop =>
      refine ⟨[], passEvents config.corpora pass ++ stop, by simp, by simp, ?_, .stopped pass ending stop hcut hstop⟩
      intro before pass after hsplit
      simp at hsplit
    | attempted pass hattempted =>
      rw [Bool.false_or]
      dsimp only
      cases hnext : nextSleep config backoff (anyRetryable pass) with
      | none =>
        obtain ⟨hretryable, hoverflow⟩ := nextSleep_none hnext
        refine ⟨[], passEvents config.corpora pass, by simp, by simp, ?_,
          .overflowed pass hattempted hretryable ?_⟩
        · intro before pass after hsplit
          simp at hsplit
        · rw [List.append_nil, ← h]
          exact hoverflow
      | some next =>
        obtain ⟨sleep, backoff'⟩ := next
        dsimp only
        by_cases hwait : world.waitOrShutdown (trace ++ passEvents config.corpora pass ++
            [.cycleSleep sleep (anyRetryable pass)]) sleep = true
        · rw [if_pos hwait]
          obtain ⟨_, hsleep⟩ := h.next ⟨pass, sleep, true⟩ hconfig hnext
          refine ⟨[⟨pass, sleep, true⟩], [.daemonShutdown], ?_, ?_, (hnone _).cons hsleep, ?_⟩
          · simp [DaemonPass.events, DaemonPass.retryable]
          · simpa using hattempted
          · exact .woken ⟨pass, sleep, true⟩ (by simp) rfl
        · rw [if_neg hwait]
          obtain ⟨hbackoff, hsleep⟩ := h.next ⟨pass, sleep, false⟩ hconfig hnext
          obtain ⟨passes, rest, htrace, hall, hsleeps, hrest⟩ := ih _ backoff'
            (trace ++ passEvents config.corpora pass ++ [.cycleSleep sleep (anyRetryable pass)] ++ [.waited false]) hbackoff
          rw [List.length_append, List.length_singleton, Nat.add_assoc, Nat.add_comm 1, List.append_assoc] at hrest
          refine ⟨⟨pass, sleep, false⟩ :: passes, rest, ?_, ?_, hsleeps.cons hsleep, hrest⟩
          · rw [htrace]
            simp [DaemonPass.events, DaemonPass.retryable]
          · intro other hother
            rcases List.mem_cons.mp hother with rfl | hother
            · exact hattempted
            · exact hall other hother

/-- The trace records what the world answered: no pass starts a catch-up after a stop
that the daemon has observed, and the outcome of each is that of its cycle. Every
pass attempts every corpus at least once and at most `max 1 max_burst` times,
whatever the others do, each sleep is the poll interval or the backoff of the
retryable passes in a row, and only a lost lease is an error. -/
theorem run_daemon_sound (world : DaemonWorld) (config : DaemonConfig) (limit : Nat)
    (hconfig : config.minBackoff.nanos ≤ config.maxBackoff.nanos) :
    TraceRecorded world (runDaemon world config limit).2 ∧
      (∀ before corpus burst outcome after,
        (runDaemon world config limit).2 = before ++ .corpusCycle corpus burst outcome :: after →
          Quiet before ∧ classify (world.runCorpusCycle before corpus) = outcome ∧
            ∃ earlier, before = earlier ++ [.guarded .proceed] ∧ world.isRequested earlier = false ∧
              world.lockAlive earlier = true) ∧
      (∃ passes rest,
        (runDaemon world config limit).2 =
            .daemonStart config.corpora config.pollInterval :: passes.flatMap (·.events config.corpora) ++ rest ∧
          (∀ pass ∈ passes, pass.attempts.length = config.corpora.length ∧
            ∀ attempts ∈ pass.attempts, 1 ≤ attempts.length ∧ Drained (max config.maxBurst 1) attempts) ∧
          (∀ before pass after, passes = before ++ pass :: after →
            pass.sleep.nanos =
              if pass.retryable then
                min (config.minBackoff.nanos * 2 ^ (streak (before ++ [pass]) - 1)) config.maxBackoff.nanos
              else config.pollInterval.nanos) ∧
          DaemonRest config limit passes (runDaemon world config limit).1 rest) ∧
      ∀ error, (runDaemon world config limit).1 = some (.returned (.error error)) →
        error = leaseLostError ∧ ∃ before,
          (runDaemon world config limit).2 =
              before ++ [.guarded .leaseLost, .daemonFatal "single_writer_lease_lost"] ∧
            world.lockAlive before = false := by
  have hrecorded := runDaemon_recorded world config limit
  have hstart : BackoffAfter config [] config.minBackoff := by
    unfold BackoffAfter
    rw [streak, List.reverse_nil, List.takeWhile_nil, List.length_nil, pow_zero, Nat.mul_one, Nat.min_eq_left hconfig]
  obtain ⟨passes, rest, htrace, hall, hsleeps, hrest⟩ := daemonLoop_run world hconfig limit [] config.minBackoff
    [.daemonStart config.corpora config.pollInterval] hstart
  rw [List.length_nil, Nat.zero_add, List.nil_append] at hrest
  refine ⟨hrecorded, fun _ _ _ _ _ hsplit => hrecorded.clear hsplit, ⟨passes, rest, htrace, ?_, hsleeps, hrest⟩, ?_⟩
  · intro pass hpass
    have hattempted := hall pass hpass
    refine ⟨hattempted.length, fun attempts hattempts => ?_⟩
    have hdrained := hattempted.drained attempts hattempts
    exact ⟨hdrained.nonempty (by omega), hdrained⟩
  · intro error herror
    have hend : (runDaemon world config limit).1 =
      (daemonLoop world config limit config.minBackoff [.daemonStart config.corpora config.pollInterval]).1 := rfl
    rw [← hend, herror] at hrest
    cases hrest with
    | stopped pass _ stop hcut hstop =>
      cases hstop with
      | leaseLost =>
        have hlast : (runDaemon world config limit).2 =
            ([.daemonStart config.corpora config.pollInterval] ++ passes.flatMap (·.events config.corpora) ++
              passEvents config.corpora pass) ++ [.guarded .leaseLost, .daemonFatal "single_writer_lease_lost"] := by
          rw [List.append_assoc]
          exact htrace
        have hguard := hrecorded _ _ _ hlast
        exact ⟨rfl, _, hlast, ((checkBeforeApply_iff world false).mp hguard).2⟩

def seconds (n : Nat) (h : n * 10 ^ 9 ≤ maxNanos) : Duration := ⟨n * 10 ^ 9, h⟩

/-- The default configuration, for one corpus. -/
def coreDaemon : DaemonConfig :=
  ⟨["core".toList], seconds 30 (by decide), seconds 2 (by decide), seconds 300 (by decide), 16⟩

/-- The apply lock stays busy, and the lease is lost after two passes. -/
def busyWorld : DaemonWorld where
  isRequested _ := false
  lockAlive trace := decide (trace.length < 9)
  runCorpusCycle _ _ := .error (.lockBusy "held")
  waitOrShutdown _ _ := false

theorem busy_daemon_loses_lease :
    (runDaemon busyWorld coreDaemon 3).1 = some (.returned (.error leaseLostError)) ∧
      ∃ before,
        (runDaemon busyWorld coreDaemon 3).2 =
            before ++ [.guarded .leaseLost, .daemonFatal "single_writer_lease_lost"] ∧
          busyWorld.lockAlive before = false := by
  have hsound := run_daemon_sound busyWorld coreDaemon 3 (by decide)
  have hend : (runDaemon busyWorld coreDaemon 3).1 = some (.returned (.error leaseLostError)) := rfl
  exact ⟨hend, (hsound.2.2.2 leaseLostError hend).2⟩

/-- The two retryable passes sleep for 2 and for 4 seconds. -/
example : (runDaemon busyWorld coreDaemon 3).2.filterMap (fun event =>
    match event with
    | .cycleSleep sleep backingOff => some (sleep.nanos, backingOff)
    | _ => none) = [(2 * 10 ^ 9, true), (4 * 10 ^ 9, true)] := by
  decide +kernel

end CorpusFeed
