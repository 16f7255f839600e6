import CorpusFeed.DaemonTrace

/-! The passes of the daemon: each one attempts every corpus, and the sleep
after it is the poll interval or the backoff of the passes before it. -/

namespace CorpusFeed

/-- The attempts on one corpus in a pass: progress up to the last one, which
stops for its own outcome or at the bound. -/
structure Drained (bound : Nat) (attempts : List CycleOutcome) : Prop where
  bounded : attempts.length ≤ bound
  progress : ∀ outcome ∈ attempts.dropLast, outcome = .progress
  full : (∀ outcome ∈ attempts, outcome = .progress) → attempts.length = bound

/-- Attempts on one corpus that a stop cuts off. -/
structure Started (bound : Nat) (attempts : List CycleOutcome) : Prop where
  bounded : attempts.length < bound
  progress : ∀ outcome ∈ attempts, outcome = .progress

def attemptEvents (corpus : Text) : Nat → List CycleOutcome → List DaemonEvent
  | _, [] => []
  | burst, outcome :: attempts =>
    .guarded .proceed :: .corpusCycle corpus burst outcome :: attemptEvents corpus (burst + 1) attempts

/-- The attempts of a pass, the lists in the order of the corpora. -/
def passEvents : List Text → List (List CycleOutcome) → List DaemonEvent
  | corpus :: corpora, attempts :: rest => attemptEvents corpus 0 attempts ++ passEvents corpora rest
  | _, _ => []

def anyRetryable (pass : List (List CycleOutcome)) : Bool := pass.any fun attempts => attempts.any (·.isRetryable)

/-- The guard's answer that stops the daemon, and how it ends. -/
inductive StopsWith : DaemonEnd → List DaemonEvent → Prop
  | shutdown : StopsWith (.returned (.ok ())) [.guarded .shutdown, .daemonShutdown]
  | leaseLost : StopsWith (.returned (.error leaseLostError))
      [.guarded .leaseLost, .daemonFatal "single_writer_lease_lost"]

variable {trace : List DaemonEvent}

theorem Drained.nonempty {bound : Nat} {attempts : List CycleOutcome} (h : Drained bound attempts)
    (hbound : 0 < bound) : 0 < attempts.length := by
  by_contra hlen
  have hnil : attempts = [] := List.length_eq_zero_iff.mp (by omega)
  have hfull := h.full (by simp [hnil])
  omega

theorem Drained.single {bound : Nat} {outcome : CycleOutcome} (h : outcome ≠ .progress) :
    Drained (bound + 1) [outcome] := by
  refine ⟨by simp, by simp, fun hall => ?_⟩
  exact absurd (hall outcome (by simp)) h

theorem Drained.cons {bound : Nat} {attempts : List CycleOutcome} (h : Drained bound attempts) :
    Drained (bound + 1) (.progress :: attempts) := by
  refine ⟨by simpa using h.bounded, ?_, fun hall => ?_⟩
  · intro outcome houtcome
    cases attempts with
    | nil => simp at houtcome
    | cons first rest =>
      rw [List.dropLast_cons_cons, List.mem_cons] at houtcome
      rcases houtcome with rfl | houtcome
      · rfl
      · exact h.progress outcome houtcome
  · have hlen := h.full fun outcome houtcome => hall outcome (List.mem_cons_of_mem _ houtcome)
    simp [hlen]

theorem Started.cons {bound : Nat} {attempts : List CycleOutcome} (h : Started bound attempts) :
    Started (bound + 1) (.progress :: attempts) := by
  refine ⟨by simpa using h.bounded, fun outcome houtcome => ?_⟩
  rcases List.mem_cons.mp houtcome with rfl | houtcome
  · rfl
  · exact h.progress outcome houtcome

/-- The burst of one corpus, run to its end or cut off by a stop. -/
inductive BurstRun (bound : Nat) (corpus : Text) (burst : Nat) (trace : List DaemonEvent) :
    Except DaemonEnd Bool × List DaemonEvent → Prop
  | drained (attempts : List CycleOutcome) (h : Drained bound attempts) :
    BurstRun bound corpus burst trace
      (.ok (attempts.any (·.isRetryable)), trace ++ attemptEvents corpus burst attempts)
  | stopped (attempts : List CycleOutcome) (ending : DaemonEnd) (stop : List DaemonEvent)
    (h : Started bound attempts) (hstop : StopsWith ending stop) :
    BurstRun bound corpus burst trace (.error ending, trace ++ (attemptEvents corpus burst attempts ++ stop))

theorem BurstRun.progressed {bound burst : Nat} {corpus : Text} {result : Except DaemonEnd Bool × List DaemonEvent}
    (h : BurstRun bound corpus (burst + 1)
      (trace ++ [.guarded .proceed] ++ [.corpusCycle corpus burst .progress]) result) :
    BurstRun (bound + 1) corpus burst trace result := by
  cases h with
  | drained attempts h =>
    have hrun : BurstRun (bound + 1) corpus burst trace _ := BurstRun.drained _ h.cons
    simpa [attemptEvents, CycleOutcome.isRetryable] using hrun
  | stopped attempts ending stop h hstop =>
    have hrun : BurstRun (bound + 1) corpus burst trace _ := BurstRun.stopped _ ending stop h.cons hstop
    simpa [attemptEvents] using hrun

theorem BurstRun.last {bound burst : Nat} {corpus : Text} (outcome : CycleOutcome) (h : outcome ≠ .progress) :
    BurstRun (bound + 1) corpus burst trace
      (.ok outcome.isRetryable, trace ++ [.guarded .proceed] ++ [.corpusCycle corpus burst outcome]) := by
  have hrun : BurstRun (bound + 1) corpus burst trace _ := BurstRun.drained _ (Drained.single h)
  simpa [attemptEvents] using hrun

theorem BurstRun.stop {bound burst : Nat} {corpus : Text} {ending : DaemonEnd} {stop : List DaemonEvent}
    (h : StopsWith ending stop) : BurstRun (bound + 1) corpus burst trace (.error ending, trace ++ stop) :=
  BurstRun.stopped [] ending stop ⟨by simp, by simp⟩ h

theorem burstLoop_run (world : DaemonWorld) (corpus : Text) (remaining burst : Nat) (trace : List DaemonEvent) :
    BurstRun remaining corpus burst trace (burstLoop world corpus remaining burst trace) := by
  induction remaining generalizing burst trace with
  | zero =>
    have hnone : Drained 0 [] := ⟨by simp, by simp, by simp⟩
    have hrun : BurstRun 0 corpus burst trace _ := BurstRun.drained [] hnone
    simpa [attemptEvents, burstLoop] using hrun
  | succ remaining ih =>
    rw [burstLoop]
    cases checkBeforeApply world trace with
    | shutdown => exact BurstRun.stop StopsWith.shutdown
    | leaseLost => exact BurstRun.stop StopsWith.leaseLost
    | proceed =>
      dsimp only
      generalize classify (world.runCorpusCycle (trace ++ [.guarded .proceed]) corpus) = outcome
      cases outcome with
      | progress => exact (ih (burst + 1) _).progressed
      | upToDate => exact BurstRun.last .upToDate (by simp)
      | retryable reason => exact BurstRun.last (.retryable reason) (by simp)
      | rejected code message => exact BurstRun.last (.rejected code message) (by simp)

/-- The passes over some corpora with a bound on the attempts. -/
structure Attempted (bound : Nat) (corpora : List Text) (pass : List (List CycleOutcome)) : Prop where
  length : pass.length = corpora.length
  drained : ∀ attempts ∈ pass, Drained bound attempts

/-- A pass that a stop cuts off at one of the corpora. -/
structure CutOff (bound : Nat) (corpora : List Text) (pass : List (List CycleOutcome)) : Prop where
  length : pass.length ≤ corpora.length
  split : ∃ drained started, pass = drained ++ [started] ∧
    (∀ attempts ∈ drained, Drained bound attempts) ∧ Started bound started

theorem Attempted.nil {bound : Nat} : Attempted bound [] [] := ⟨rfl, by simp⟩

theorem Attempted.cons {bound : Nat} {corpus : Text} {corpora : List Text} {attempts : List CycleOutcome}
    {pass : List (List CycleOutcome)} (h : Attempted bound corpora pass) (hfirst : Drained bound attempts) :
    Attempted bound (corpus :: corpora) (attempts :: pass) := by
  refine ⟨by simp [h.length], fun other hother => ?_⟩
  rcases List.mem_cons.mp hother with rfl | hother
  · exact hfirst
  · exact h.drained other hother

theorem CutOff.cons {bound : Nat} {corpus : Text} {corpora : List Text} {attempts : List CycleOutcome}
    {pass : List (List CycleOutcome)} (h : CutOff bound corpora pass) (hfirst : Drained bound attempts) :
    CutOff bound (corpus :: corpora) (attempts :: pass) := by
  obtain ⟨drained, started, rfl, hdrained, hstarted⟩ := h.split
  refine ⟨by simpa using h.length, attempts :: drained, started, by simp, fun other hother => ?_, hstarted⟩
  rcases List.mem_cons.mp hother with rfl | hother
  · exact hfirst
  · exact hdrained other hother

theorem CutOff.first {bound : Nat} {corpus : Text} {corpora : List Text} {attempts : List CycleOutcome}
    (h : Started bound attempts) : CutOff bound (corpus :: corpora) [attempts] :=
  ⟨by simp, [], attempts, rfl, by simp, h⟩

/-- One pass over the corpora, run to its end or cut off by a stop. -/
inductive PassRun (bound : Nat) (corpora : List Text) (before : Bool) (trace : List DaemonEvent) :
    Except DaemonEnd Bool × List DaemonEvent → Prop
  | attempted (pass : List (List CycleOutcome)) (h : Attempted bound corpora pass) :
    PassRun bound corpora before trace (.ok (before || anyRetryable pass), trace ++ passEvents corpora pass)
  | stopped (pass : List (List CycleOutcome)) (ending : DaemonEnd) (stop : List DaemonEvent)
    (h : CutOff bound corpora pass) (hstop : StopsWith ending stop) :
    PassRun bound corpora before trace (.error ending, trace ++ (passEvents corpora pass ++ stop))

theorem PassRun.next {bound : Nat} {corpus : Text} {corpora : List Text} {before : Bool}
    {attempts : List CycleOutcome} {result : Except DaemonEnd Bool × List DaemonEvent}
    (h : PassRun bound corpora (before || attempts.any (·.isRetryable)) (trace ++ attemptEvents corpus 0 attempts) result)
    (hfirst : Drained bound attempts) : PassRun bound (corpus :: corpora) before trace result := by
  cases h with
  | attempted pass h =>
    have hrun : PassRun bound (corpus :: corpora) before trace _ := PassRun.attempted _ (h.cons hfirst)
    simpa [passEvents, anyRetryable, Bool.or_assoc] using hrun
  | stopped pass ending stop h hstop =>
    have hrun : PassRun bound (corpus :: corpora) before trace _ :=
      PassRun.stopped _ ending stop (h.cons hfirst) hstop
    simpa [passEvents] using hrun

theorem corporaLoop_run (world : DaemonWorld) (maxBurst : Nat) (corpora : List Text) (before : Bool)
    (trace : List DaemonEvent) :
    PassRun (max maxBurst 1) corpora before trace (corporaLoop world maxBurst corpora before trace) := by
  induction corpora generalizing before trace with
  | nil =>
    have hrun : PassRun (max maxBurst 1) [] before trace _ := PassRun.attempted [] Attempted.nil
    simpa [corporaLoop, anyRetryable, passEvents] using hrun
  | cons corpus corpora ih =>
    rw [corporaLoop]
    have hburst := burstLoop_run world corpus (max maxBurst 1) 0 trace
    generalize burstLoop world corpus (max maxBurst 1) 0 trace = result at hburst
    cases hburst with
    | stopped attempts ending stop h hstop =>
      have hrun : PassRun (max maxBurst 1) (corpus :: corpora) before trace _ :=
        PassRun.stopped [attempts] ending stop (CutOff.first h) hstop
      simpa [passEvents] using hrun
    | drained attempts h => exact (ih _ _).next h

end CorpusFeed
