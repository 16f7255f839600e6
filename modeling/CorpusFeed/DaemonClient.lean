import CorpusFeed.ClientCycle
import CorpusFeed.DaemonBackoff
import Mathlib.Data.List.Induction

/-! The daemon on a client: its cycles act on one database in the order of its
trace, and what the passes of a run do to the cursors. -/

namespace CorpusFeed

variable {α : Type*}

/-- A client, and what the cycles of its daemon meet, in their order and for the
corpus each of them is about. -/
structure DaemonSite (α : Type*) where
  client : Database α
  read : Nat → Text → CycleRead α
  isRequested : List DaemonEvent → Bool
  lockAlive : List DaemonEvent → Bool
  waitOrShutdown : List DaemonEvent → Duration → Bool

def DaemonEvent.attempted : DaemonEvent → Option Text
  | .corpusCycle corpus _ _ => some corpus
  | _ => none

/-- The cycles so far, and the client after them. -/
structure ClientState (α : Type*) where
  cycles : Nat
  db : Database α

namespace DaemonSite

variable (site : DaemonSite α)

def cycle (s : ClientState α) (corpus : Text) : ClientState α where
  cycles := s.cycles + 1
  db := (runCorpusCycle (site.read s.cycles corpus) corpus s.db).1

def after (trace : List DaemonEvent) : ClientState α :=
  (trace.filterMap DaemonEvent.attempted).foldl site.cycle ⟨0, site.client⟩

/-- The cursor of a corpus after the cycles of a trace. -/
def cursorAfter (trace : List DaemonEvent) (c : Corpus) : Option Nat := cursorSequence (site.after trace).db c

def world : DaemonWorld where
  isRequested := site.isRequested
  lockAlive := site.lockAlive
  runCorpusCycle trace corpus :=
    (runCorpusCycle (site.read (site.after trace).cycles corpus) corpus (site.after trace).db).2
  waitOrShutdown := site.waitOrShutdown

/-- Every artifact that a cycle fetches for an entry of its verified listing is the listed one. -/
def FaithfulFeed : Prop :=
  ∀ n name verified, fetchVerifyManifest (site.read n name) name = .ok verified →
    (site.read n name).source.Faithful verified.corpus verified ∧ verified.headSequence < 2 ^ 63

/-- The cycles from `first` on and before `last` verify one listing for each corpus. -/
def Steady (listing : Text → RemoteManifest) (first last : Nat) : Prop :=
  ∀ n name verified, first ≤ n → n < last → fetchVerifyManifest (site.read n name) name = .ok verified →
    verified = listing name

end DaemonSite

section Trace

variable {site : DaemonSite α} {trace before after : List DaemonEvent} {event : DaemonEvent} {c : Corpus}

theorem after_append (trace rest : List DaemonEvent) :
    site.after (trace ++ rest) = (rest.filterMap DaemonEvent.attempted).foldl site.cycle (site.after trace) := by
  rw [DaemonSite.after, List.filterMap_append, List.foldl_append, DaemonSite.after]

theorem after_idle (h : event.attempted = none) : site.after (trace ++ [event]) = site.after trace := by
  rw [after_append, List.filterMap_cons, h]
  rfl

theorem after_cycle (corpus : Text) (burst : Nat) (outcome : CycleOutcome) :
    site.after (trace ++ [.corpusCycle corpus burst outcome]) = site.cycle (site.after trace) corpus := by
  rw [after_append]
  rfl

theorem attempted_ne_none (h : event.attempted ≠ none) :
    ∃ name burst outcome, event = .corpusCycle name burst outcome := by
  cases event with
  | corpusCycle name burst outcome => exact ⟨name, burst, outcome, rfl⟩
  | _ => exact absurd rfl h

theorem recorded_of_append {world : DaemonWorld} {rest : List DaemonEvent} (h : TraceRecorded world (trace ++ rest)) :
    TraceRecorded world trace := by
  intro before event after hsplit
  apply h before event (after ++ rest)
  rw [hsplit, List.append_assoc, List.cons_append]

/-- The outcome that a trace records is that of the cycle on the client. -/
theorem recorded_cycle {corpus : Text} {burst : Nat} {outcome : CycleOutcome}
    (h : TraceRecorded site.world (trace ++ [.corpusCycle corpus burst outcome])) :
    classify (runCorpusCycle (site.read (site.after trace).cycles corpus) corpus (site.after trace).db).2 = outcome :=
  (h trace _ [] rfl).2.2

theorem cycle_rank (hfeed : site.FaithfulFeed) (s : ClientState α) (name : Text) (c : Corpus) :
    sequenceRank (cursorSequence s.db c) ≤ sequenceRank (cursorSequence (site.cycle s name).db c) ∧
      (name = c.name → classify (runCorpusCycle (site.read s.cycles name) name s.db).2 = .progress →
        sequenceRank (cursorSequence s.db c) < sequenceRank (cursorSequence (site.cycle s name).db c)) := by
  rcases runCorpusCycle_cases (site.read s.cycles name) name s.db with ⟨e, he⟩ | ⟨verified, hverified, heffect⟩
  · have hkept : (site.cycle s name).db = s.db := by rw [DaemonSite.cycle, he]
    rw [hkept, he]
    exact ⟨Nat.le_refl _, fun _ h => absurd h (classify_error_ne_progress e)⟩
  · obtain ⟨hfaithful, hsmall⟩ := hfeed _ _ _ hverified
    have h := heffect hfaithful hsmall
    have hname := fetchVerifyManifest_corpus hverified
    by_cases hc : c = verified.corpus
    · rw [hc]
      exact ⟨h.forward, fun _ hprogress => h.advances hprogress⟩
    · have hkept : cursorSequence (site.cycle s name).db c = cursorSequence s.db c := h.others c hc
      rw [hkept]
      refine ⟨Nat.le_refl _, ?_⟩
      intro hsame
      exact absurd (Corpus.ext (hsame.symm.trans hname.symm)) hc

/-- In every run, whatever the listings become, each cycle for a corpus that
reports progress moves its cursor forward, and no cycle moves one back. -/
theorem cycle_forward (hfeed : site.FaithfulFeed) {name : Text} {burst : Nat} {outcome : CycleOutcome}
    (hrecorded : TraceRecorded site.world (trace ++ [.corpusCycle name burst outcome])) (c : Corpus) :
    sequenceRank (site.cursorAfter trace c) ≤
        sequenceRank (site.cursorAfter (trace ++ [.corpusCycle name burst outcome]) c) ∧
      (name = c.name → outcome = .progress → sequenceRank (site.cursorAfter trace c) <
        sequenceRank (site.cursorAfter (trace ++ [.corpusCycle name burst outcome]) c)) := by
  obtain ⟨hle, hlt⟩ := cycle_rank hfeed (site.after trace) name c
  rw [DaemonSite.cursorAfter, DaemonSite.cursorAfter, after_cycle]
  refine ⟨hle, fun hname hprogress => hlt hname ?_⟩
  exact (recorded_cycle hrecorded).trans hprogress

theorem cycle_others (hfeed : site.FaithfulFeed) (s : ClientState α) {name : Text} (h : name ≠ c.name) :
    cursorSequence (site.cycle s name).db c = cursorSequence s.db c := by
  rcases runCorpusCycle_cases (site.read s.cycles name) name s.db with ⟨e, he⟩ | ⟨verified, hverified, heffect⟩
  · rw [DaemonSite.cycle, he]
  · obtain ⟨hfaithful, hsmall⟩ := hfeed _ _ _ hverified
    apply (heffect hfaithful hsmall).others
    intro heq
    exact h ((fetchVerifyManifest_corpus hverified).symm.trans (congrArg Corpus.name heq.symm))

/-- A cycle of a steady feed, for the listing of its corpus. -/
theorem cycle_steady {listing : Text → RemoteManifest} (hfeed : site.FaithfulFeed) (s : ClientState α) {name : Text}
    (hsteady : site.Steady listing s.cycles (s.cycles + 1)) :
    CycleEffect (listing name) (listing name).corpus s.db (site.cycle s name).db
      (runCorpusCycle (site.read s.cycles name) name s.db).2 := by
  rcases runCorpusCycle_cases (site.read s.cycles name) name s.db with ⟨e, he⟩ | ⟨verified, hverified, heffect⟩
  · rw [DaemonSite.cycle, he]
    exact .unchanged e
  · obtain ⟨hfaithful, hsmall⟩ := hfeed _ _ _ hverified
    rw [← hsteady _ _ _ (Nat.le_refl _) (Nat.lt_succ_self _) hverified]
    exact heffect hfaithful hsmall

theorem verified_of_upToDate {read : CycleRead α} {name : Text} {db : Database α}
    (h : classify (runCorpusCycle read name db).2 = .upToDate) :
    ∃ verified, fetchVerifyManifest read name = .ok verified := by
  rcases runCorpusCycle_cases read name db with ⟨e, he⟩ | ⟨verified, hverified, _⟩
  · rw [he] at h
    exact absurd h (classify_error_ne_upToDate e)
  · exact ⟨verified, hverified⟩

theorem attemptEvents_cons (trace : List DaemonEvent) (corpus : Text) (burst : Nat) (outcome : CycleOutcome)
    (attempts : List CycleOutcome) :
    trace ++ attemptEvents corpus burst (outcome :: attempts) =
      trace ++ [.guarded .proceed] ++ [.corpusCycle corpus burst outcome] ++
        attemptEvents corpus (burst + 1) attempts := by
  simp [attemptEvents]

theorem after_attempt (site : DaemonSite α) (trace : List DaemonEvent) (corpus : Text) (burst : Nat)
    (outcome : CycleOutcome) :
    site.after (trace ++ [.guarded .proceed] ++ [.corpusCycle corpus burst outcome]) =
      site.cycle (site.after trace) corpus := by
  rw [after_cycle, after_idle rfl]

theorem after_cycles (trace : List DaemonEvent) :
    (site.after trace).cycles = (trace.filterMap DaemonEvent.attempted).length := by
  induction trace using List.reverseRecOn with
  | nil => rfl
  | append_singleton trace event ih =>
    rw [List.filterMap_append, List.length_append]
    by_cases hidle : event.attempted = none
    · rw [after_idle hidle, ih, List.filterMap_cons, hidle]
      rfl
    · obtain ⟨name, burst, outcome, rfl⟩ := attempted_ne_none hidle
      rw [after_cycle, ← ih]
      rfl

theorem attempted_attemptEvents (corpus : Text) (burst : Nat) (attempts : List CycleOutcome) :
    ((attemptEvents corpus burst attempts).filterMap DaemonEvent.attempted).length = attempts.length := by
  induction attempts generalizing burst with
  | nil => rfl
  | cons outcome attempts ih =>
    rw [attemptEvents, List.length_cons, ← ih (burst + 1)]
    rfl

theorem cycles_append (site : DaemonSite α) (trace rest : List DaemonEvent) :
    (site.after (trace ++ rest)).cycles =
      (site.after trace).cycles + (rest.filterMap DaemonEvent.attempted).length := by
  rw [after_cycles, after_cycles, List.filterMap_append, List.length_append]

theorem burst_others (hfeed : site.FaithfulFeed) {corpus : Text} (h : corpus ≠ c.name) (burst : Nat)
    (attempts : List CycleOutcome) (trace : List DaemonEvent) :
    site.cursorAfter (trace ++ attemptEvents corpus burst attempts) c = site.cursorAfter trace c := by
  induction attempts generalizing trace burst with
  | nil => rw [attemptEvents, List.append_nil]
  | cons outcome attempts ih =>
    rw [attemptEvents_cons, ih, DaemonSite.cursorAfter, after_attempt]
    exact cycle_others hfeed _ h

/-- The attempts of a burst against a steady feed. -/
structure BurstEffect (site : DaemonSite α) (manifest : RemoteManifest) (corpus : Text) (attempts : List CycleOutcome)
    (before after : List DaemonEvent) : Prop where
  nearer : attempts.countP (· == .progress) + catchupsLeft manifest (site.cursorAfter after manifest.corpus) ≤
    catchupsLeft manifest (site.cursorAfter before manifest.corpus)
  atHead : attempts.getLast? = some .upToDate → manifest.corpus.name = corpus ∧
    site.cursorAfter after manifest.corpus = some manifest.headSequence

theorem burst_effect {listing : Text → RemoteManifest} (hfeed : site.FaithfulFeed) {corpus : Text} {burst : Nat}
    {attempts : List CycleOutcome}
    (hrecorded : TraceRecorded site.world (trace ++ attemptEvents corpus burst attempts))
    (hsteady : site.Steady listing (site.after trace).cycles ((site.after trace).cycles + attempts.length)) :
    BurstEffect site (listing corpus) corpus attempts trace (trace ++ attemptEvents corpus burst attempts) := by
  induction attempts generalizing trace burst with
  | nil =>
    rw [attemptEvents, List.append_nil]
    refine ⟨by simp, ?_⟩
    intro h
    cases h
  | cons outcome attempts ih =>
    rw [attemptEvents_cons] at hrecorded ⊢
    rw [List.length_cons] at hsteady
    have hfirst := recorded_cycle (recorded_of_append hrecorded)
    rw [after_idle rfl] at hfirst
    have hcycle : CycleEffect (listing corpus) (listing corpus).corpus (site.after trace).db
        (site.cycle (site.after trace) corpus).db _ :=
      cycle_steady hfeed (site.after trace) fun n name verified hle hlt h => hsteady n name verified hle (by omega) h
    have hstep := after_attempt site trace corpus burst outcome
    have hcycles : (site.after (trace ++ [.guarded .proceed] ++ [.corpusCycle corpus burst outcome])).cycles =
        (site.after trace).cycles + 1 := by rw [hstep]; rfl
    have hrest := ih hrecorded fun n name verified hle hlt h =>
      hsteady n name verified (by omega) (by omega) h
    have hcursor : site.cursorAfter (trace ++ [.guarded .proceed] ++ [.corpusCycle corpus burst outcome])
        (listing corpus).corpus = cursorSequence (site.cycle (site.after trace) corpus).db (listing corpus).corpus := by
      rw [DaemonSite.cursorAfter, hstep]
    have hstays := hcycle.stays
    have hnearer := hrest.nearer
    rw [hcursor] at hnearer
    constructor
    · rw [List.countP_cons]
      by_cases hprogress : outcome = .progress
      · have hlt := hcycle.nearer (hfirst.trans hprogress)
        rw [if_pos (by simp [hprogress])]
        show _ ≤ catchupsLeft (listing corpus) (cursorSequence (site.after trace).db (listing corpus).corpus)
        omega
      · rw [if_neg (by simp [hprogress])]
        show _ ≤ catchupsLeft (listing corpus) (cursorSequence (site.after trace).db (listing corpus).corpus)
        omega
    · intro hlast
      cases attempts with
      | nil =>
        rw [attemptEvents, List.append_nil, hcursor]
        have houtcome : outcome = .upToDate := by simpa using hlast
        refine ⟨?_, hcycle.atHead (hfirst.trans houtcome)⟩
        obtain ⟨verified, hverified⟩ := verified_of_upToDate (hfirst.trans houtcome)
        rw [← hsteady _ _ _ (Nat.le_refl _) (by omega) hverified]
        exact fetchVerifyManifest_corpus hverified
      | cons next rest =>
        rw [List.getLast?_cons_cons] at hlast
        exact hrest.atHead hlast

theorem pass_others (hfeed : site.FaithfulFeed) {corpora : List Text} (h : c.name ∉ corpora)
    (pass : List (List CycleOutcome)) (trace : List DaemonEvent) :
    site.cursorAfter (trace ++ passEvents corpora pass) c = site.cursorAfter trace c := by
  induction corpora generalizing pass trace with
  | nil =>
    show site.cursorAfter (trace ++ []) c = _
    rw [List.append_nil]
  | cons corpus corpora ih =>
    cases pass with
    | nil =>
      show site.cursorAfter (trace ++ []) c = _
      rw [List.append_nil]
    | cons attempts pass =>
      have hne : corpus ≠ c.name := fun heq => h (heq ▸ List.mem_cons_self)
      have hrest : c.name ∉ corpora := fun hmem => h (List.mem_cons_of_mem corpus hmem)
      rw [passEvents, ← List.append_assoc, ih hrest, burst_others hfeed hne]

theorem catchupsLeft_le (manifest : RemoteManifest) (sequence : Option Nat) : catchupsLeft manifest sequence ≤ 2 := by
  cases sequence with
  | none => exact Nat.le_refl 2
  | some n =>
    rw [catchupsLeft]
    split
    · omega
    · split <;> omega

/-- What a pass does for one corpus: its attempts end within three, at the head
of the listing unless the last one failed, and a bound that cuts the attempts
off is below three. -/
structure PassEffect (site : DaemonSite α) (manifest : RemoteManifest) (bound : Nat) (attempts : List CycleOutcome)
    (after : List DaemonEvent) : Prop where
  ends : attempts.length ≤ 3
  cutOff : attempts.getLast? = some .progress → bound ≤ 2
  atHead : attempts.getLast? = some .upToDate →
    site.cursorAfter after manifest.corpus = some manifest.headSequence

theorem Drained.countP_dropLast {bound : Nat} {attempts : List CycleOutcome} (h : Drained bound attempts) :
    attempts.length ≤ attempts.countP (· == .progress) + 1 := by
  have hall : attempts.dropLast.countP (· == .progress) = attempts.dropLast.length := by
    rw [List.countP_eq_length]
    intro outcome hmem
    simp [h.progress outcome hmem]
  have hle := List.Sublist.countP_le (p := (· == CycleOutcome.progress)) (List.dropLast_sublist attempts)
  rw [hall, List.length_dropLast] at hle
  omega

theorem Drained.cut_off {bound : Nat} {attempts : List CycleOutcome} (h : Drained bound attempts)
    (hlast : attempts.getLast? = some .progress) : attempts.countP (· == .progress) = bound := by
  have hall : ∀ outcome ∈ attempts, outcome = .progress := by
    intro outcome hmem
    rw [← List.dropLast_append_getLast? _ hlast] at hmem
    rcases List.mem_append.mp hmem with hmem | hmem
    · exact h.progress outcome hmem
    · exact List.mem_singleton.mp hmem
  rw [← h.full hall, List.countP_eq_length]
  intro outcome hmem
  simp [hall outcome hmem]

theorem pass_effect {listing : Text → RemoteManifest} (hfeed : site.FaithfulFeed) {bound : Nat} {corpora : List Text}
    (hnodup : corpora.Nodup) {pass : List (List CycleOutcome)} (hattempted : Attempted bound corpora pass)
    (hrecorded : TraceRecorded site.world (trace ++ passEvents corpora pass))
    (hsteady : site.Steady listing (site.after trace).cycles (site.after (trace ++ passEvents corpora pass)).cycles) :
    ∀ corpus attempts, (corpus, attempts) ∈ corpora.zip pass →
      PassEffect site (listing corpus) bound attempts (trace ++ passEvents corpora pass) := by
  induction corpora generalizing pass trace with
  | nil =>
    intro corpus attempts hmem
    cases hmem
  | cons first corpora ih =>
    cases pass with
    | nil =>
      intro corpus attempts hmem
      cases hmem
    | cons firstAttempts pass =>
      obtain ⟨hfirst, hrest⟩ := List.nodup_cons.mp hnodup
      have hdrained := hattempted.drained firstAttempts List.mem_cons_self
      rw [passEvents, ← List.append_assoc] at hrecorded hsteady ⊢
      have hcycles := cycles_append site trace (attemptEvents first 0 firstAttempts)
      have hlater := cycles_append site (trace ++ attemptEvents first 0 firstAttempts)
        (passEvents corpora pass)
      rw [attempted_attemptEvents] at hcycles
      intro corpus attempts hmem
      rcases List.mem_cons.mp hmem with heq | hmem
      · obtain ⟨rfl, rfl⟩ := Prod.mk.inj heq
        have heffect := burst_effect hfeed (recorded_of_append hrecorded) fun n name verified hle hlt h =>
          hsteady n name verified hle (by omega) h
        have hcount := heffect.nearer
        have hleft := catchupsLeft_le (listing corpus) (site.cursorAfter trace (listing corpus).corpus)
        refine ⟨?_, ?_, ?_⟩
        · have := hdrained.countP_dropLast
          omega
        · intro hlast
          have := hdrained.cut_off hlast
          omega
        · intro hlast
          obtain ⟨hname, hhead⟩ := heffect.atHead hlast
          rw [pass_others hfeed (by rw [hname]; exact hfirst)]
          exact hhead
      · apply ih hrest ⟨by simpa using hattempted.length, fun other hother =>
          hattempted.drained other (List.mem_cons_of_mem _ hother)⟩ hrecorded _ corpus attempts hmem
        exact fun n name verified hle hlt h => hsteady n name verified (by omega) hlt h

end Trace

/-- In every run of the daemon on a client, whatever the listings become, each
cycle for a corpus that reports progress moves its cursor forward and no cycle moves
one back; and where no corpus is configured twice, a pass that meets one listing for
each corpus ends with every corpus at the head of its listing, but for those whose
last cycle failed and for a bound below three. -/
theorem daemon_reaches_head (site : DaemonSite α) (hfeed : site.FaithfulFeed) (config : DaemonConfig) (limit : Nat) :
    (∀ before name burst outcome after c,
      (runDaemon site.world config limit).2 = before ++ .corpusCycle name burst outcome :: after →
      sequenceRank (site.cursorAfter before c) ≤
          sequenceRank (site.cursorAfter (before ++ [.corpusCycle name burst outcome]) c) ∧
        (name = c.name → outcome = .progress → sequenceRank (site.cursorAfter before c) <
          sequenceRank (site.cursorAfter (before ++ [.corpusCycle name burst outcome]) c))) ∧
    (config.corpora.Nodup → ∀ before pass after listing,
      (runDaemon site.world config limit).2 = before ++ passEvents config.corpora pass ++ after →
      Attempted (max config.maxBurst 1) config.corpora pass →
      site.Steady listing (site.after before).cycles (site.after (before ++ passEvents config.corpora pass)).cycles →
      ∀ corpus attempts, (corpus, attempts) ∈ config.corpora.zip pass →
        PassEffect site (listing corpus) (max config.maxBurst 1) attempts
          (before ++ passEvents config.corpora pass)) := by
  have hrecorded := runDaemon_recorded site.world config limit
  constructor
  · intro before name burst outcome after c hsplit
    rw [hsplit, ← List.singleton_append, ← List.append_assoc] at hrecorded
    exact cycle_forward hfeed (recorded_of_append hrecorded) c
  · intro hnodup before pass after listing hsplit hattempted hsteady
    rw [hsplit] at hrecorded
    exact pass_effect hfeed hnodup hattempted (recorded_of_append hrecorded) hsteady

section Sample

/-- A fresh client whose feed holds a baseline and one incremental. -/
def freshSite : DaemonSite Nat where
  client := Database.empty
  read _ _ := ⟨.ok plainClient, fun _ _ => none, .ok ⟨coreListing 1 2, plainSignature⟩, .ok (), coreSource, true⟩
  isRequested _ := false
  lockAlive _ := true
  waitOrShutdown _ _ := true

theorem freshSite_listing {n : Nat} {name : Text} {verified : RemoteManifest}
    (h : fetchVerifyManifest (freshSite.read n name) name = .ok verified) : verified = coreListing 1 2 := by
  have hchecked : checkManifestCorpus (coreListing 1 2) name = .ok () ∧ coreListing 1 2 = verified := by
    rw [fetchVerifyManifest] at h
    simp only [freshSite] at h
    split at h
    · cases h
    next hcorpus => exact ⟨hcorpus, Except.ok.inj h⟩
  exact hchecked.2.symm

theorem freshSite_faithful : freshSite.FaithfulFeed := by
  intro n name verified h
  rw [freshSite_listing h]
  exact ⟨coreSource_faithful 1 2, by decide⟩

def freshPass : List (List CycleOutcome) := [[.progress, .progress, .upToDate]]

/-- The trace up to the end of the first pass. -/
def freshTrace : List DaemonEvent :=
  [.daemonStart coreDaemon.corpora coreDaemon.pollInterval] ++ passEvents coreDaemon.corpora freshPass

theorem freshSite_run : (runDaemon freshSite.world coreDaemon 1).2 =
    freshTrace ++ [.cycleSleep coreDaemon.pollInterval false, .waited true, .daemonShutdown] := by
  decide +kernel

/-- The trace before the cycle that loads the baseline. -/
def freshStart : List DaemonEvent := [.daemonStart coreDaemon.corpora coreDaemon.pollInterval, .guarded .proceed]

theorem daemon_reaches_head_fresh :
    freshSite.cursorAfter freshTrace coreCorpus = some 2 ∧
      sequenceRank (freshSite.cursorAfter freshStart coreCorpus) <
        sequenceRank (freshSite.cursorAfter (freshStart ++ [.corpusCycle "core".toList 0 .progress]) coreCorpus) := by
  obtain ⟨hforward, hpass⟩ := daemon_reaches_head freshSite freshSite_faithful coreDaemon 1
  have hattempted : Attempted (max coreDaemon.maxBurst 1) coreDaemon.corpora freshPass := by
    refine ⟨rfl, ?_⟩
    intro attempts hmem
    rw [List.mem_singleton.mp hmem]
    refine ⟨by decide, by decide, ?_⟩
    intro hall
    exact absurd (hall .upToDate (by decide)) (by decide)
  have heffect := hpass (by decide) _ freshPass _ (fun _ => coreListing 1 2) freshSite_run hattempted
    (fun _ _ _ _ _ h => freshSite_listing h) "core".toList [.progress, .progress, .upToDate] (by decide)
  exact ⟨heffect.atHead rfl, (hforward freshStart _ _ _ _ coreCorpus freshSite_run).2 rfl rfl⟩

end Sample

end CorpusFeed
