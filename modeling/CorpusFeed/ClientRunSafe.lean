import CorpusFeed.ClientSafety
import CorpusFeed.Runs

/-! Client runs: every applied package moves its cursor forward along one
chain, and everything else leaves the readers' view as it was. -/

namespace CorpusFeed

open Database ClientSystem

variable {α : Type*} {packages : List EmbeddedManifest} {s : ClientSystem α}

structure ClientInvariant (packages : List EmbeddedManifest) (s : ClientSystem α) : Prop where
  labels : LabelInvariant packages s.db
  running : ∀ entry ∈ s.running, RunningApply s.db packages entry.1 entry.2
  chained : ∀ c, Chained (historyOf s.history c)
  cursor : ∀ c, CursorMatches (s.db.cursors.find? c) (historyOf s.history c).head?

theorem ClientInvariant.fresh (packages : List EmbeddedManifest) :
    ClientInvariant packages (ClientSystem.fresh : ClientSystem α) where
  labels := LabelInvariant.empty packages
  running := by simp [ClientSystem.fresh]
  chained _ := trivial
  cursor _ := rfl

theorem Untouched.refl (s : ClientSystem α) : Untouched s s :=
  ⟨rfl, rfl, LiveSchemasKept.refl _⟩

theorem saturateI64_of_lt {n : Nat} (h : n < 2 ^ 63) : saturateI64 n = n := by
  unfold saturateI64
  omega

theorem RunningApply.mono {db db' : Database α} {m : MediaApply} {rest : List MediaPhase}
    (h : RunningApply db packages m rest)
    (hkeep : ∀ row ∈ db.registry, row.corpus = m.corpus → row ∈ db'.registry) :
    RunningApply db' packages m rest := by
  refine ⟨h.package, h.kind, h.counter, h.phases, fun hno => ?_⟩
  obtain ⟨row, hr, hk, hs⟩ := h.owns hno
  exact ⟨row, hkeep row hr (GenerationRow.key_eq_iff.mp hk).1, hk, hs⟩

theorem lockHolder_mem {corpus : Corpus} {m : MediaApply} {rest : List MediaPhase}
    (h : s.lockHolder corpus = some (m, rest)) : (m, rest) ∈ s.running ∧ m.corpus = corpus :=
  ⟨List.mem_of_find?_eq_some h, by simpa using List.find?_some h⟩

theorem mem_release {corpus : Corpus} {entry : MediaApply × List MediaPhase} :
    entry ∈ s.release corpus ↔ entry ∈ s.running ∧ entry.1.corpus ≠ corpus := by
  simp [release]

namespace ClientInvariant

theorem released (h : ClientInvariant packages s) (corpus : Corpus) :
    ClientInvariant packages { s with running := s.release corpus } :=
  ⟨h.labels, fun entry he => h.running entry (mem_release.mp he).1, h.chained, h.cursor⟩

theorem release_running {db' : Database α} {corpus : Corpus} (h : ClientInvariant packages s)
    (hkeep : ∀ row ∈ s.db.registry, row.corpus ≠ corpus → row ∈ db'.registry) :
    ∀ entry ∈ s.release corpus, RunningApply db' packages entry.1 entry.2 := by
  intro entry he
  obtain ⟨hm, hne⟩ := mem_release.mp he
  exact (h.running entry hm).mono fun row hr hc => hkeep row hr (hc ▸ hne)

theorem no_history (h : ClientInvariant packages s) {c : Corpus} {cursor : CorpusState}
    (hc : s.db.cursors.find? c = some cursor) : ∃ q rest, historyOf s.history c = q :: rest ∧
      cursor.sequence = q.apply.resultSequence ∧ cursor.lastPackageId = some q.identity.packageId ∧
      cursor.lastPackageDigest = some q.integrity.artifactSha256 := by
  have hm := h.cursor c
  cases hh : historyOf s.history c with
  | nil => simp [hh, CursorMatches, hc] at hm
  | cons q rest =>
    rw [hh, hc] at hm
    obtain ⟨row, heq, hseq, hid, hdigest⟩ := hm
    cases heq
    exact ⟨q, rest, rfl, hseq, hid, hdigest⟩

theorem push {db' : Database α} {running : List (MediaApply × List MediaPhase)} {p : EmbeddedManifest}
    {row : CorpusState} (h : ClientInvariant packages s) (hlabels : LabelInvariant packages db')
    (hrunning : ∀ entry ∈ running, RunningApply db' packages entry.1 entry.2)
    (hrow : db'.cursors.find? p.identity.corpus = some row)
    (hstamps : row.sequence = p.apply.resultSequence ∧ row.lastPackageId = some p.identity.packageId ∧
      row.lastPackageDigest = some p.integrity.artifactSha256)
    (hothers : ∀ c, c ≠ p.identity.corpus → db'.cursors.find? c = s.db.cursors.find? c)
    (hlink : ChainLink p (historyOf s.history p.identity.corpus).head?) :
    ClientInvariant packages ⟨db', running, p :: s.history⟩ := by
  refine ⟨hlabels, hrunning, fun c => ?_, fun c => ?_⟩
  · by_cases hc : c = p.identity.corpus
    · subst hc
      rw [historyOf_cons_self]
      exact ⟨hlink, h.chained _⟩
    · rw [historyOf_cons_ne (Ne.symm hc)]
      exact h.chained c
  · by_cases hc : c = p.identity.corpus
    · subst hc
      rw [historyOf_cons_self]
      exact ⟨row, hrow, hstamps⟩
    · rw [historyOf_cons_ne (Ne.symm hc), hothers c hc]
      exact h.cursor c

theorem activated {env : ClientEnv α} {lockFree : Bool} {m : MediaApply} {rest : List MediaPhase}
    {db' : Database α} (h : ClientInvariant packages s) (hrun : RunningApply s.db packages m (.activate :: rest))
    (hsmall : m.manifest.apply.resultSequence < 2 ^ 63)
    (hop : mediaStep env lockFree m s.db .activate = .ok db') :
    ClientInvariant packages ⟨db', s.release m.corpus, m.manifest :: s.history⟩ ∧
      Advanced s ⟨db', s.release m.corpus, m.manifest :: s.history⟩ m.manifest := by
  obtain ⟨hactivate, hcursors, hguard⟩ := mediaStep_activate_cases hop
  obtain ⟨hlabels, hothers⟩ := h.labels.activate_keeps hactivate
  have hseq : saturateI64 m.manifest.apply.resultSequence = m.manifest.apply.resultSequence :=
    saturateI64_of_lt hsmall
  have hfind : ∀ c, db'.cursors.find? c =
      if c = m.manifest.identity.corpus then some (m.stamps.cursor m.corpus m.label)
      else s.db.cursors.find? c := by
    intro c
    rw [hcursors]
    exact Table.find?_upsert _ _ c
  have hself := (hfind m.manifest.identity.corpus).trans (if_pos rfl)
  have hkept : ∀ c, c ≠ m.manifest.identity.corpus → db'.cursors.find? c = s.db.cursors.find? c :=
    fun c hc => (hfind c).trans (if_neg hc)
  have hlink : ChainLink m.manifest (historyOf s.history m.manifest.identity.corpus).head? := by
    have hm := h.cursor m.manifest.identity.corpus
    cases hh : (historyOf s.history m.manifest.identity.corpus).head? with
    | none =>
      rw [ChainLink, hrun.kind]
      cases m.mode <;> rfl
    | some q =>
      rw [hh] at hm
      obtain ⟨cursor, hc, hcseq, _⟩ := hm
      obtain ⟨hmode, hlt⟩ := hguard cursor hc
      rw [hseq, hcseq] at hlt
      refine ⟨by exact_mod_cast hlt, Or.inl ?_⟩
      rw [hrun.kind, hmode]
      rfl
  refine ⟨h.push hlabels (h.release_running hothers) hself ⟨hseq, rfl, rfl⟩ hkept hlink, rfl, ?_, ?_, hkept⟩
  · refine ⟨_, hself, hseq, fun cursor hc => (hguard cursor hc).2⟩
  · intro hk
    rw [hrun.kind] at hk
    cases hmode : m.mode <;> simp [hmode, MediaApplyMode.expectedKind] at hk

end ClientInvariant

def StepSafe (packages : List EmbeddedManifest) (s : ClientSystem α) (result : ClientSystem α × StepOutcome) : Prop :=
  ClientInvariant packages result.1 ∧ OutcomeSafe s result.1 result.2

/-- A step starts an apply of one of the packages only, and applies only packages
whose sequence fits the cursor. -/
structure Takes (packages : List EmbeddedManifest) (env : ClientEnv α) (s : ClientSystem α) (a : ClientAction α) :
    Prop where
  started : ∀ p, s.started env a = some p → p ∈ packages
  small : ∀ p, (step env s a).2 = .applied p → p.apply.resultSequence < 2 ^ 63

namespace ClientInvariant

theorem start_safe {env : ClientEnv α} {mode : MediaApplyMode} {artifact : Artifact}
    (h : ClientInvariant packages s) (htakes : Takes packages env s (.start mode artifact)) :
    StepSafe packages s (s.start env mode artifact) := by
  unfold ClientSystem.start
  split
  · exact ⟨h, Untouched.refl s⟩
  next read hread =>
  split
  · exact ⟨h, Untouched.refl s⟩
  next hfree =>
  split
  · exact ⟨h, Untouched.refl s⟩
  · exact ⟨h, Untouched.refl s⟩
  next m hstart =>
  obtain ⟨signed, hsigned, hmanifest, hmode, hkind, hcounter⟩ := startMedia_build hstart
  have hsame : read = signed := by
    rw [readManifest, hsigned, Except.ok.injEq] at hread
    exact hread.symm
  have hpack : m.manifest ∈ packages := by
    apply htakes.started
    rw [ClientSystem.started, hstart]
    dsimp only
    rw [MediaApply.corpus, hmanifest, ← hsame, if_neg hfree]
  refine ⟨⟨h.labels, ?_, h.chained, h.cursor⟩, rfl, rfl, LiveSchemasKept.refl _⟩
  intro entry he
  rcases List.mem_cons.mp he with rfl | he
  · have hregister : MediaPhase.register ∈ mediaPhases := by decide
    exact ⟨hpack, hmode ▸ hkind, hcounter, List.suffix_rfl, fun hno => absurd hregister hno⟩
  · exact h.running entry he

theorem advance_safe {env : ClientEnv α} {corpus : Corpus} {lockFree : Bool}
    (h : ClientInvariant packages s) (hlabels : DistinctLabels packages)
    (htakes : Takes packages env s (.advance corpus lockFree)) :
    StepSafe packages s (s.advance env corpus lockFree) := by
  have hsmall : ∀ p, (s.advance env corpus lockFree).2 = .applied p → p.apply.resultSequence < 2 ^ 63 := htakes.small
  unfold ClientSystem.advance
  split
  · exact ⟨h, Untouched.refl s⟩
  · exact ⟨h, Untouched.refl s⟩
  next m phase rest hl =>
  obtain ⟨hm, rfl⟩ := lockHolder_mem hl
  have hrun := h.running _ hm
  split
  · exact ⟨h.released m.corpus, rfl, rfl, LiveSchemasKept.refl _⟩
  next db' hop =>
  have hphases := mediaPhases_suffix hrun.phases
  by_cases hphase : phase = .activate
  · subst hphase
    have hrest : rest = [] := by simpa [mediaPhases] using hphases
    subst hrest
    refine h.activated hrun (hsmall _ ?_) hop
    rw [ClientSystem.advance, hl]
    simp only [hop, if_true]
  · have hrest : rest ≠ [] := by
      intro hnil
      simp [mediaPhases, hnil, hphase] at hphases
    rw [if_neg hrest]
    have hk := h.labels.mediaStep_keeps hlabels hrun hphase hop
    have hcursors := mediaStep_cursors hop hphase
    refine ⟨⟨hk.labels, ?_, h.chained, fun c => ?_⟩, rfl, hcursors, hk.live⟩
    · intro entry he
      rcases List.mem_cons.mp he with rfl | he
      · exact ⟨hrun.package, hrun.kind, hrun.counter, (List.suffix_cons _ _).trans hrun.phases, hk.owns⟩
      · exact h.release_running hk.others entry he
    · rw [hcursors]
      exact h.cursor c

theorem interruptLoad_safe {corpus : Corpus} {rows : α} (h : ClientInvariant packages s)
    (hlabels : DistinctLabels packages) : StepSafe packages s (s.interruptLoad corpus rows) := by
  unfold ClientSystem.interruptLoad
  split
  · exact ⟨h, Untouched.refl s⟩
  · exact ⟨h, Untouched.refl s⟩
  next m phase rest hl =>
  obtain ⟨hm, rfl⟩ := lockHolder_mem hl
  have hrun := h.running _ hm
  split
  · next hphase =>
    have hreset : phase ≠ .reset := by rcases hphase with rfl | rfl <;> decide
    have hregister : phase ≠ .register := by rcases hphase with rfl | rfl <;> decide
    split
    · next db' hop =>
      have hk := h.labels.load_phase_keeps hlabels hrun hreset hregister (fun _ => rfl) hop
      obtain ⟨_, _, rfl⟩ := mapSchema_cases hop
      exact ⟨⟨hk.labels, h.release_running hk.others, h.chained, h.cursor⟩, rfl, rfl, hk.live⟩
    · exact ⟨h.released m.corpus, rfl, rfl, LiveSchemasKept.refl _⟩
  · exact ⟨h, Untouched.refl s⟩

theorem incremental_safe {env : ClientEnv α} {lockFree : Bool} {artifact : Artifact}
    (h : ClientInvariant packages s) (htakes : Takes packages env s (.incremental lockFree artifact)) :
    StepSafe packages s (s.incremental env lockFree artifact) := by
  have hsmall : ∀ p, (s.incremental env lockFree artifact).2 = .applied p → p.apply.resultSequence < 2 ^ 63 :=
    htakes.small
  unfold ClientSystem.incremental
  split
  · next db' corpus sequence signed hop hsigned =>
    obtain ⟨signed', cursor, hsigned', hkind, hc, hcase⟩ := applyIncremental_cases hop
    rw [hsigned] at hsigned'
    cases hsigned'
    rcases hcase with ⟨_, _, habsurd⟩ | ⟨hlinks, _, rows, hexists, rfl⟩
    · cases habsurd
    have hlabels := (h.labels.setRows hexists rows).advance_keeps signed.payload
    have hfind := advanceCorpusCursor_find?
      (s.db.setRows (schemaIdentifier cursor.activeGeneration) rows) signed.payload
    have hself := hfind signed.payload.identity.corpus
    have hold : (s.db.setRows (schemaIdentifier cursor.activeGeneration) rows).cursors.find?
        signed.payload.identity.corpus = some cursor := hc
    rw [hold, Option.map_some, if_pos rfl] at hself
    have hothers : ∀ c, c ≠ signed.payload.identity.corpus →
        ((s.db.setRows (schemaIdentifier cursor.activeGeneration) rows).advanceCorpusCursor
          signed.payload).cursors.find? c = s.db.cursors.find? c := by
      intro c hne
      have hsame : (fun row : CorpusState => if c = signed.payload.identity.corpus then
          advanceCursor signed.payload.apply.resultSequence signed.payload.identity.packageId
            signed.payload.integrity.artifactSha256 row else row) = id := by
        funext row
        exact if_neg hne
      rw [hfind c, hsame, Option.map_id, id]
      rfl
    have hout : (s.incremental env lockFree artifact).2 = .applied signed.payload := by
      simp only [ClientSystem.incremental, hop, hsigned]
    have hseq := saturateI64_of_lt (hsmall _ hout)
    obtain ⟨q, rest, hh, hqseq, hqid, hqdigest⟩ := h.no_history hc
    have hahead := hlinks.ahead
    have hstart := hlinks.start
    rw [hqseq, Int.toNat_natCast] at hahead hstart
    have hlink : ChainLink signed.payload (historyOf s.history signed.payload.identity.corpus).head? := by
      rw [hh]
      exact ⟨hahead, Or.inr ⟨hkind, hstart, hlinks.package_id.trans hqid, hlinks.package_digest.trans hqdigest⟩⟩
    refine ⟨h.push hlabels ?_ hself ⟨hseq, rfl, rfl⟩ hothers hlink, rfl, ?_, fun _ => ⟨cursor, hc, hlinks⟩, hothers⟩
    · exact fun entry he => (h.running entry he).mono fun row hr _ => hr
    · refine ⟨_, hself, hseq, fun cursor' hc' => ?_⟩
      rw [hc] at hc'
      cases hc'
      have hlt : (q.apply.resultSequence : Int) < signed.payload.apply.resultSequence := Int.ofNat_lt.mpr hahead
      rw [hqseq]
      exact lt_of_lt_of_eq hlt hseq.symm
  · next db' corpus sequence hop =>
    obtain ⟨_, _, _, _, _, hcase⟩ := applyIncremental_cases hop
    rcases hcase with ⟨rfl, _⟩ | ⟨_, habsurd, _⟩
    · exact ⟨h, Untouched.refl s⟩
    · cases habsurd
  · exact ⟨h, Untouched.refl s⟩

theorem step_safe {env : ClientEnv α} (h : ClientInvariant packages s) (hlabels : DistinctLabels packages)
    {a : ClientAction α} (htakes : Takes packages env s a) : StepSafe packages s (step env s a) := by
  cases a with
  | start mode artifact => exact h.start_safe htakes
  | advance corpus lockFree => exact h.advance_safe hlabels htakes
  | interruptLoad corpus rows => exact h.interruptLoad_safe hlabels
  | crash corpus => exact ⟨h.released corpus, rfl, rfl, LiveSchemasKept.refl _⟩
  | incremental lockFree artifact => exact h.incremental_safe htakes

theorem run_invariant {env : ClientEnv α} {actions : List (ClientAction α)} (h : ClientInvariant packages s)
    (hlabels : DistinctLabels packages)
    (htakes : RunMeets (fun s a => (step env s a).1) (Takes packages env) s actions) :
    ClientInvariant packages (run env s actions) :=
  runFrom_keeps (fun _ _ h htakes => (h.step_safe hlabels htakes).1) h htakes

end ClientInvariant

theorem takes_of_orderly {env : ClientEnv α} {actions : List (ClientAction α)}
    (hstarted : ∀ p ∈ gather env (started env) s actions, p ∈ packages)
    (hsmall : ∀ p ∈ gather env (applied env) s actions, p.apply.resultSequence < 2 ^ 63) :
    RunMeets (fun s a => (step env s a).1) (Takes packages env) s actions := by
  induction actions generalizing s with
  | nil => trivial
  | cons a actions ih =>
    have hhead : ∀ {taken : ClientSystem α → ClientAction α → Option EmbeddedManifest} {p : EmbeddedManifest},
        taken s a = some p → p ∈ gather env taken s (a :: actions) := by
      intro taken p hp
      simp [gather, hp]
    have htail : ∀ {taken : ClientSystem α → ClientAction α → Option EmbeddedManifest} {p : EmbeddedManifest},
        p ∈ gather env taken (step env s a).1 actions → p ∈ gather env taken s (a :: actions) :=
      fun hp => List.mem_append_right _ hp
    refine ⟨⟨fun p hp => hstarted p (hhead hp), fun p hp => hsmall p (hhead ?_)⟩,
      ih (fun p hp => hstarted p (htail hp)) (fun p hp => hsmall p (htail hp))⟩
    rw [applied, hp]

/-- In a run that takes packages in an orderly way, the registry is safe in every state,
the applied packages of a corpus form one chain that ends at its cursor, and
the next step, too, applies one package forward or leaves all as it was. -/
theorem client_run_safe (env : ClientEnv α) (actions : List (ClientAction α)) (a : ClientAction α)
    (hord : Orderly (gather env (started env) fresh (actions ++ [a]))
      (gather env (applied env) fresh (actions ++ [a]))) :
    RegistrySafe (run env fresh actions).db ∧
      (∀ c, Chained (historyOf (run env fresh actions).history c) ∧
        CursorMatches ((run env fresh actions).db.cursors.find? c)
          (historyOf (run env fresh actions).history c).head?) ∧
      OutcomeSafe (run env fresh actions) (step env (run env fresh actions) a).1
        (step env (run env fresh actions) a).2 := by
  obtain ⟨hbefore, htakes, _⟩ := RunMeets.append_iff.mp (takes_of_orderly (fun _ hp => hp) hord.small)
  have h : ClientInvariant _ (run env fresh actions) :=
    (ClientInvariant.fresh _).run_invariant hord.labels hbefore
  exact ⟨h.labels.toRegistrySafe, fun c => ⟨h.chained c, h.cursor c⟩, (h.step_safe hord.labels htakes).2⟩

theorem orderly_of_shortNames {started applied : List EmbeddedManifest}
    (hsmall : ∀ p ∈ applied, p.apply.resultSequence < 2 ^ 63)
    (hnames : ∀ p ∈ started, p.identity.corpus.name.length ≤ 32) : Orderly started applied :=
  ⟨hsmall, distinctLabels_of_shortNames hnames⟩

/-- An uninterrupted first baseline. -/
def baselineRun (sequence : Nat) : List (ClientAction Nat) :=
  .start .baseline (plainArtifact (plainManifest coreCorpus .baseline "core-0".toList 0 sequence none)) ::
    mediaPhases.map fun _ => .advance coreCorpus true

def nextIncremental (sequence : Nat) : ClientAction Nat :=
  .incremental true (plainArtifact (plainManifest coreCorpus .incremental "core-1".toList sequence (sequence + 1)
    (some "core-0".toList)))

theorem client_run_safe_core :
    OutcomeSafe (run plainClient fresh (baselineRun 1)) (step plainClient (run plainClient fresh (baselineRun 1))
        (nextIncremental 1)).1
      (step plainClient (run plainClient fresh (baselineRun 1)) (nextIncremental 1)).2 :=
  (client_run_safe plainClient (baselineRun 1) (nextIncremental 1)
    (orderly_of_shortNames (by decide) (by decide))).2.2

/-- The client after a first baseline at the largest stored sequence. -/
def fullClient : ClientSystem Nat := run plainClient fresh (baselineRun (2 ^ 63 - 1))

/-- A linking incremental is applied there and leaves the cursor where it was. -/
theorem saturated_cursor_stays :
    ¬ OutcomeSafe fullClient (step plainClient fullClient (nextIncremental (2 ^ 63 - 1))).1
      (step plainClient fullClient (nextIncremental (2 ^ 63 - 1))).2 := by
  intro h
  have hout : (step plainClient fullClient (nextIncremental (2 ^ 63 - 1))).2 =
      .applied (plainManifest coreCorpus .incremental "core-1".toList (2 ^ 63 - 1) (2 ^ 63)
        (some "core-0".toList)) := by decide
  have hbefore : (fullClient.db.cursors.find? coreCorpus).map CorpusState.sequence = some (2 ^ 63 - 1) := by decide
  have hafter : ((step plainClient fullClient (nextIncremental (2 ^ 63 - 1))).1.db.cursors.find?
      coreCorpus).map CorpusState.sequence = some (2 ^ 63 - 1) := by decide
  rw [hout] at h
  obtain ⟨row, hrow, _, hforward⟩ := h.forward
  obtain ⟨cursor, hc, hseq⟩ := Option.map_eq_some_iff.mp hbefore
  have hlt := hforward cursor hc
  have hsame : (some row).map CorpusState.sequence = some (2 ^ 63 - 1) := hrow ▸ hafter
  rw [hseq] at hlt
  rw [Option.map_some, Option.some.injEq] at hsame
  omega

end CorpusFeed
