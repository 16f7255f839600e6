import CorpusFeed.OutboxWindows
import CorpusFeed.IncrementalConverges
import Mathlib.Data.List.Chain

/-! Writers, builds and clients together. The rows of a corpus change with the
committed change log only; a client that starts from a full package and follows
the chain holds the rows that the newest package's snapshot saw. -/

namespace CorpusFeed

namespace Replica

/-- The scopes that these change rows carry for a corpus. -/
def changedScopes (corpus : Corpus) (rows : List ChangeRow) : List ChangedScope :=
  (ofCorpus corpus.name rows).filterMap fun r => r.changedScope.toOption

theorem mem_changedScopes {corpus : Corpus} {rows : List ChangeRow} {scope : ChangedScope} :
    scope ∈ changedScopes corpus rows ↔ ∃ r ∈ rows, r.corpus = corpus.name ∧ r.changedScope = .ok scope := by
  rw [changedScopes, List.mem_filterMap]
  constructor
  · rintro ⟨r, hr, hscope⟩
    obtain ⟨hmem, hcorpus⟩ := List.mem_filter.mp hr
    refine ⟨r, hmem, by simpa using hcorpus, ?_⟩
    cases hread : r.changedScope with
    | error e =>
      rw [hread] at hscope
      exact absurd hscope (by simp [Except.toOption])
    | ok s =>
      rw [hread] at hscope
      rw [Option.some.inj hscope]
  · rintro ⟨r, hr, hcorpus, hscope⟩
    refine ⟨r, List.mem_filter.mpr ⟨hr, by simpa using hcorpus⟩, ?_⟩
    rw [hscope]
    rfl

theorem mem_mapM_ok {α β ε : Type} {f : α → Except ε β} {items : List α} {results : List β}
    (h : items.mapM f = .ok results) {b : β} : b ∈ results ↔ ∃ a ∈ items, f a = .ok b := by
  induction items generalizing results with
  | nil =>
    have heq : results = [] := (Except.ok.inj h).symm
    simp [heq]
  | cons a items ih =>
    rw [List.mapM_cons] at h
    cases ha : f a with
    | error e =>
      rw [ha] at h
      exact absurd h (by simp [bind, Except.bind])
    | ok b' =>
      cases hrest : items.mapM f with
      | error e =>
        rw [ha, hrest] at h
        exact absurd h (by simp [bind, Except.bind])
      | ok rest =>
        rw [ha, hrest] at h
        have heq : results = b' :: rest := (Except.ok.inj h).symm
        rw [heq, List.mem_cons, ih hrest]
        constructor
        · rintro (hb | ⟨x, hx, hfx⟩)
          · exact ⟨a, List.mem_cons_self, by rw [ha, hb]⟩
          · exact ⟨x, List.mem_cons_of_mem a hx, hfx⟩
        · rintro ⟨x, hx, hfx⟩
          rcases List.mem_cons.mp hx with heq | hmem
          · rw [heq, ha] at hfx
            exact Or.inl (Except.ok.inj hfx).symm
          · exact Or.inr ⟨x, hmem, hfx⟩

section Feed

variable (corpus : Corpus) (tables : List ChangeRow → Tables)

/-- One log follows another with its changes written down. -/
def Later (before after : List ChangeRow) : Prop :=
  ∃ new, after = before ++ new ∧ Emitted (changedScopes corpus new) (tables before) (tables after)

/-- A transaction emits a scope for each row of the corpus that it changes. -/
def WriterEmits (s : OutboxState) (action : OutboxAction) : Prop :=
  ∀ tx, action = .commit tx →
    Later corpus tables s.ledger.committed (s.ledger.commit tx).committed ∧
    Consistent corpus (tables (s.ledger.commit tx).committed)

/-- What a build under way has read for the corpus. -/
def SnapshotOk (committed : List ChangeRow) (prev : Option BuiltPackage) (snapshot : List ChangeRow) : Prop :=
  Consistent corpus (tables snapshot) ∧ Later corpus tables snapshot committed ∧
    ∀ p, prev = some p → Later corpus tables p.snapshot snapshot

def FeedBuildOk (committed : List ChangeRow) : Build → Prop
  | .frozen _ c prev snapshot => c = corpus → SnapshotOk corpus tables committed prev snapshot
  | .reading _ c prev snapshot => c = corpus → SnapshotOk corpus tables committed prev snapshot
  | _ => True

structure FeedInvariant (s : OutboxState) : Prop where
  consistent : Consistent corpus (tables s.ledger.committed)
  packages : ∀ p ∈ s.catalog corpus, Consistent corpus (tables p.snapshot) ∧
    Later corpus tables p.snapshot s.ledger.committed
  chain : (s.catalog corpus).IsChain fun p q => Later corpus tables p.snapshot q.snapshot
  builds : ∀ b build, s.builds b = some build → FeedBuildOk corpus tables s.ledger.committed build

variable {corpus tables} {hashtext : Corpus → Int} {s t : OutboxState} {b : Nat}

theorem Later.refl (rows : List ChangeRow) : Later corpus tables rows rows :=
  ⟨[], by simp, (Tables.same_refl _).emitted⟩

theorem Later.trans {r r' r'' : List ChangeRow} (h : Later corpus tables r r') (h' : Later corpus tables r' r'') :
    Later corpus tables r r'' := by
  obtain ⟨new, heq, hemitted⟩ := h
  obtain ⟨new', heq', hemitted'⟩ := h'
  refine ⟨new ++ new', by rw [heq', heq, List.append_assoc], ?_⟩
  have hscopes : changedScopes corpus (new ++ new') = changedScopes corpus new ++ changedScopes corpus new' := by
    simp [changedScopes, ofCorpus]
  rw [hscopes]
  exact hemitted.trans hemitted'

theorem SnapshotOk.later {committed committed' snapshot : List ChangeRow} {prev : Option BuiltPackage}
    (h : SnapshotOk corpus tables committed prev snapshot) (hlater : Later corpus tables committed committed') :
    SnapshotOk corpus tables committed' prev snapshot :=
  ⟨h.1, h.2.1.trans hlater, h.2.2⟩

theorem FeedBuildOk.later {committed committed' : List ChangeRow} {build : Build}
    (h : FeedBuildOk corpus tables committed build) (hlater : Later corpus tables committed committed') :
    FeedBuildOk corpus tables committed' build := by
  cases build with
  | frozen kind c prev snapshot => exact fun hc => (h hc).later hlater
  | reading kind c prev snapshot => exact fun hc => (h hc).later hlater
  | _ => trivial

theorem FeedInvariant.move {next : Build} (h : FeedInvariant corpus tables s)
    (hcommitted : t.ledger.committed = s.ledger.committed) (hcatalog : t.catalog corpus = s.catalog corpus)
    (hbuilds : t.builds = s.builds) (hnext : FeedBuildOk corpus tables s.ledger.committed next) :
    FeedInvariant corpus tables (t.setBuild b next) where
  consistent := by
    show Consistent corpus (tables t.ledger.committed)
    rw [hcommitted]
    exact h.consistent
  packages := by
    show ∀ p ∈ t.catalog corpus, _ ∧ Later corpus tables p.snapshot t.ledger.committed
    rw [hcommitted, hcatalog]
    exact h.packages
  chain := by
    show (t.catalog corpus).IsChain _
    rw [hcatalog]
    exact h.chain
  builds := by
    intro c build hc
    show FeedBuildOk corpus tables t.ledger.committed build
    rw [hcommitted]
    by_cases hcb : c = b
    · rw [hcb] at hc
      have heq : next = build := by simpa [OutboxState.setBuild] using hc
      rw [← heq]
      exact hnext
    · apply h.builds c build
      rw [← hbuilds]
      simpa [OutboxState.setBuild, hcb] using hc

theorem FeedInvariant.ledgerStep {ledger : StampedLog Nat ChangeRow} (h : FeedInvariant corpus tables s)
    (hlater : Later corpus tables s.ledger.committed ledger.committed)
    (hconsistent : Consistent corpus (tables ledger.committed)) :
    FeedInvariant corpus tables { s with ledger := ledger } where
  consistent := hconsistent
  packages := fun p hp => ⟨(h.packages p hp).1, (h.packages p hp).2.trans hlater⟩
  chain := h.chain
  builds := fun b build hb => (h.builds b build hb).later hlater

theorem FeedInvariant.failBuild (h : FeedInvariant corpus tables s) : FeedInvariant corpus tables (s.failBuild b) :=
  h.move (t := (s.releaseOutboxFence b).releaseBuildLocks b) rfl rfl rfl trivial

theorem FeedInvariant.setBuild {next : Build} (h : FeedInvariant corpus tables s)
    (hnext : FeedBuildOk corpus tables s.ledger.committed next) : FeedInvariant corpus tables (s.setBuild b next) :=
  h.move rfl rfl rfl hnext

theorem FeedInvariant.acquireFence {next : Build} (h : FeedInvariant corpus tables s)
    (hnext : FeedBuildOk corpus tables s.ledger.committed next) :
    FeedInvariant corpus tables (s.acquireOutboxFence b next) := by
  rw [OutboxState.acquireOutboxFence]
  by_cases hfree : s.fence = none ∧ s.ledger.writers = []
  · rw [if_pos hfree]
    exact h.move (t := { s with fence := some b }) rfl rfl rfl hnext
  · rw [if_neg hfree]
    exact h

theorem FeedInvariant.acquireLock {c : Corpus} {next : Build} (h : FeedInvariant corpus tables s)
    (hnext : FeedBuildOk corpus tables s.ledger.committed next) :
    FeedInvariant corpus tables (s.acquireCorpusBuildLock hashtext b c next) := by
  rw [OutboxState.acquireCorpusBuildLock]
  by_cases hfree : s.buildLocks (hashtext c) = none
  · rw [if_pos hfree]
    exact h.move (t := { s with buildLocks := Function.update s.buildLocks (hashtext c) (some b) }) rfl rfl rfl hnext
  · rw [if_neg hfree]
    exact h

theorem FeedInvariant.insertPackage {kind : PackageKind} {c : Corpus} {prev : Option BuiltPackage}
    {snapshot : List ChangeRow} (h : FeedInvariant corpus tables s) (houtbox : OutboxInvariant hashtext s)
    (hlinked : LinkedAs hashtext s b kind c prev)
    (hsnapshot : c = corpus → SnapshotOk corpus tables s.ledger.committed prev snapshot) :
    FeedInvariant corpus tables (s.insertPackage b c (OutboxState.packageOf kind prev snapshot)) := by
  rw [OutboxState.insertPackage]
  by_cases htaken : ((s.catalog c).any fun p =>
      p.packageSequence == (OutboxState.packageOf kind prev snapshot).packageSequence) = true
  · rw [if_pos htaken]
    exact h.failBuild
  · rw [if_neg htaken]
    by_cases hc : c = corpus
    · obtain ⟨hconsistent, hlater, hprev⟩ := hsnapshot hc
      have hlast := houtbox.getLast?_eq hlinked htaken
      rw [hc] at hlast
      have hcatalog : Function.update s.catalog c (s.catalog c ++ [OutboxState.packageOf kind prev snapshot]) corpus =
          s.catalog corpus ++ [OutboxState.packageOf kind prev snapshot] := by
        rw [hc, Function.update_self]
      refine {
        consistent := h.consistent
        packages := ?_
        chain := ?_
        builds := ?_ }
      · show ∀ p ∈ Function.update s.catalog c _ corpus, _
        rw [hcatalog]
        intro p hp
        rcases List.mem_append.mp hp with hold | hnew
        · exact h.packages p hold
        · rw [List.mem_singleton.mp hnew]
          exact ⟨hconsistent, hlater⟩
      · show (Function.update s.catalog c _ corpus).IsChain _
        rw [hcatalog]
        refine List.isChain_append.mpr ⟨h.chain, List.IsChain.singleton _, ?_⟩
        intro p hp q hq
        rw [hlast] at hp
        have heq : q = OutboxState.packageOf kind prev snapshot := by simpa using hq.symm
        rw [heq]
        exact hprev p hp
      · have hfinished : FeedInvariant corpus tables (s.setBuild b (.finished c snapshot)) := h.setBuild trivial
        exact hfinished.builds
    · refine h.move (t := { s with
        catalog := Function.update s.catalog c (s.catalog c ++ [OutboxState.packageOf kind prev snapshot]) })
        rfl ?_ rfl trivial
      exact Function.update_of_ne (fun heq => hc heq.symm) ..

theorem FeedInvariant.advance {build : Build} (h : FeedInvariant corpus tables s)
    (houtbox : OutboxInvariant hashtext s) (hb : s.builds b = some build) :
    FeedInvariant corpus tables (s.advance hashtext b build) := by
  have hok := houtbox.builds b build hb
  have hfeed := h.builds b build hb
  cases build with
  | waiting kind c =>
    cases kind with
    | baseline => exact h.acquireFence trivial
    | rebaseline => exact h.acquireLock trivial
    | incremental => exact h.acquireLock trivial
  | locked kind c =>
    cases kind with
    | baseline => exact h.acquireFence trivial
    | incremental => exact h.acquireFence trivial
    | rebaseline =>
      cases hlatest : s.latestPackage c with
      | none =>
        simp only [OutboxState.advance, hlatest]
        exact h.failBuild
      | some prev =>
        simp only [OutboxState.advance, hlatest]
        exact h.setBuild trivial
  | linked c prev => exact h.acquireFence trivial
  | fenced c =>
    cases hlatest : s.latestPackage c with
    | none =>
      simp only [OutboxState.advance, hlatest]
      exact h.failBuild
    | some prev =>
      simp only [OutboxState.advance, hlatest]
      exact h.setBuild trivial
  | ready kind c prev =>
    apply h.setBuild
    intro hc
    refine ⟨h.consistent, Later.refl _, ?_⟩
    intro p hp
    have hlatest := (hok.2.latest hp).2
    rw [hc] at hlatest
    exact (h.packages p (List.mem_of_getLast? hlatest)).2
  | frozen kind c prev snapshot => exact h.move (t := s.releaseOutboxFence b) rfl rfl rfl hfeed
  | reading kind c prev snapshot =>
    cases kind with
    | baseline => exact h.insertPackage houtbox hok.1 hfeed
    | rebaseline => exact h.insertPackage houtbox hok.1 hfeed
    | incremental =>
      cases hread : scopesChangedForCorpus snapshot c.name
          (OutboxState.packageOf .incremental prev snapshot).includedChangeSeqLow
          (OutboxState.packageOf .incremental prev snapshot).includedChangeSeqHigh with
      | error e =>
        simp only [OutboxState.advance, OutboxState.catalogBuild, hread]
        exact h.failBuild
      | ok scopes =>
        cases scopes with
        | nil =>
          simp only [OutboxState.advance, OutboxState.catalogBuild, hread]
          exact h.setBuild trivial
        | cons scope scopes =>
          simp only [OutboxState.advance, OutboxState.catalogBuild, hread]
          exact h.insertPackage houtbox hok.1 hfeed
  | finished c snapshot => exact h.move (t := s.releaseBuildLocks b) rfl rfl rfl trivial
  | done c snapshot => exact h
  | failed => exact h

theorem FeedInvariant.reinsertBuild (h : FeedInvariant corpus tables s) (build : Build) :
    FeedInvariant corpus tables (s.reinsertBuild b build) := by
  cases build with
  | reading kind c prev snapshot =>
    rw [OutboxState.reinsertBuild]
    split
    · exact h.setBuild trivial
    · exact h
  | _ => exact h

theorem FeedInvariant.step (h : FeedInvariant corpus tables s) (houtbox : OutboxInvariant hashtext s)
    {action : OutboxAction} (hwriter : WriterEmits corpus tables s action) :
    FeedInvariant corpus tables (s.step hashtext action) := by
  have hmove := s.step_move hashtext action
  generalize s.step hashtext action = next at hmove ⊢
  cases hmove with
  | stay => exact h
  | enter => exact h.ledgerStep (Later.refl _) h.consistent
  | write => exact h.ledgerStep (Later.refl _) h.consistent
  | commit tx =>
    obtain ⟨hlater, hconsistent⟩ := hwriter tx rfl
    exact h.ledgerStep hlater hconsistent
  | rollback => exact h.ledgerStep (Later.refl _) h.consistent
  | start => exact h.setBuild trivial
  | advance hb => exact h.advance houtbox hb
  | reinsert => exact h.reinsertBuild _
  | fail => exact h.failBuild

theorem feedInvariant_initial (h : Consistent corpus (tables [])) :
    FeedInvariant corpus tables OutboxState.initial where
  consistent := h
  packages := by simp [OutboxState.initial]
  chain := List.IsChain.nil
  builds := fun b build hb => absurd hb (by simp [OutboxState.initial])

end Feed

section Clients

variable (digestBytes : Text → Text) (builder applier : Reader) (corpus : Corpus) (tables : List ChangeRow → Tables)

/-- A full package replaces a client's rows, an incremental one is applied to them. -/
def receive (client : Tables) (p : BuiltPackage) : Option Tables :=
  match p.packageKind with
  | .incremental =>
    match scopesChangedForCorpus p.snapshot corpus.name p.includedChangeSeqLow p.includedChangeSeqHigh with
    | .error _ => none
    | .ok scopes =>
      match buildPayload builder.collation (builder.digest digestBytes) (tables p.snapshot) corpus scopes with
      | .error _ => none
      | .ok payload => (follow applier.collation (applier.digest digestBytes) corpus client payload).toOption
  | .baseline => some (tables p.snapshot)
  | .rebaseline => some (tables p.snapshot)

variable {builder applier corpus tables} {hashtext : Corpus → Int} {ledger : StampedLog Nat ChangeRow} {client : Tables}

/-- What was committed after a snapshot is above its high bound. -/
theorem seen_lt_of_new {snapshot new rest : List ChangeRow} (h : Seen snapshot ledger)
    (hcommitted : ledger.committed = snapshot ++ (new ++ rest)) :
    ∀ r ∈ new, currentChangeSeq snapshot < r.changeSeq := by
  intro r hr
  have hrows := h.rows_eq
  have hold : snapshot.filter (fun r => r.changeSeq ≤ currentChangeSeq snapshot) = snapshot := by
    apply List.filter_eq_self.mpr
    intro r hr
    simpa using le_currentChangeSeq hr
  rw [hcommitted, List.filter_append, hold] at hrows
  have hnone : (new ++ rest).filter (fun r => r.changeSeq ≤ currentChangeSeq snapshot) = [] := by
    simpa using hrows
  have hnot := List.filter_eq_nil_iff.mp hnone r (List.mem_append_left _ hr)
  simpa using hnot

/-- The window of a package reads the scopes of what its snapshot adds. -/
theorem window_emitted {p q : BuiltPackage} (hp : Seen p.snapshot ledger)
    (hphigh : p.includedChangeSeqHigh = currentChangeSeq p.snapshot)
    (hqhigh : q.includedChangeSeqHigh = currentChangeSeq q.snapshot)
    (hlow : q.includedChangeSeqLow = p.includedChangeSeqHigh) (hpq : Later corpus tables p.snapshot q.snapshot)
    (hq : Later corpus tables q.snapshot ledger.committed) :
    ∃ scopes, scopesChangedForCorpus q.snapshot corpus.name q.includedChangeSeqLow q.includedChangeSeqHigh =
        .ok scopes ∧
      Emitted scopes (tables p.snapshot) (tables q.snapshot) := by
  obtain ⟨new, hnew, hemitted⟩ := hpq
  obtain ⟨rest, hrest, -⟩ := hq
  have hcommitted : ledger.committed = p.snapshot ++ (new ++ rest) := by
    rw [hrest, hnew, List.append_assoc]
  have habove := seen_lt_of_new hp hcommitted
  obtain ⟨scopes, hread, -⟩ := scopesChangedForCorpus_ok q.snapshot corpus.name q.includedChangeSeqLow
    q.includedChangeSeqHigh
  have hmem : ∀ scope, scope ∈ scopes ↔ scope ∈ changedScopes corpus new := by
    intro scope
    rw [mem_mapM_ok hread, mem_changedScopes]
    constructor
    · rintro ⟨r, hr, hscope⟩
      obtain ⟨hr, hlt, -⟩ := mem_rangeOf.mp hr
      obtain ⟨hin, hcorpus⟩ := List.mem_filter.mp hr
      refine ⟨r, ?_, by simpa using hcorpus, hscope⟩
      rw [hnew] at hin
      rcases List.mem_append.mp hin with hold | hr
      · have hle := le_currentChangeSeq hold
        omega
      · exact hr
    · rintro ⟨r, hr, hcorpus, hscope⟩
      have hin : r ∈ q.snapshot := by
        rw [hnew]
        exact List.mem_append_right _ hr
      have hlt := habove r hr
      have hle := le_currentChangeSeq hin
      refine ⟨r, mem_rangeOf.mpr ⟨List.mem_filter.mpr ⟨hin, by simpa using hcorpus⟩, ?_, ?_⟩, hscope⟩
      · omega
      · omega
  refine ⟨scopes, hread, hemitted.mono (fun scope h => (hmem scope).mpr h) ?_⟩
  intro scope hscope
  exact hemitted.known scope ((hmem scope).mp hscope)

theorem receive_same {p q : BuiltPackage} (hp : Seen p.snapshot ledger)
    (hphigh : p.includedChangeSeqHigh = currentChangeSeq p.snapshot)
    (hqhigh : q.includedChangeSeqHigh = currentChangeSeq q.snapshot)
    (hlow : q.includedChangeSeqLow = p.includedChangeSeqHigh) (hpq : Later corpus tables p.snapshot q.snapshot)
    (hq : Later corpus tables q.snapshot ledger.committed) (hpconsistent : Consistent corpus (tables p.snapshot))
    (hqconsistent : Consistent corpus (tables q.snapshot)) (hclient : client.Same (tables p.snapshot))
    (halike : ReadsAlike builder applier (tables q.snapshot)) :
    ∃ db, receive digestBytes builder applier corpus tables client q = some db ∧ db.Same (tables q.snapshot) := by
  obtain ⟨scopes, hread, hemitted⟩ := window_emitted hp hphigh hqhigh hlow hpq hq
  obtain ⟨payload, hpayload, db, hfollow, hsame⟩ :=
    follow_same builder.collation hpconsistent hclient hqconsistent (halike.sameDigests digestBytes) hemitted
  cases hkind : q.packageKind with
  | incremental =>
    refine ⟨db, ?_, hsame⟩
    simp only [receive, hkind, hread, hpayload, halike.collation_eq, hfollow, Except.toOption]
  | baseline =>
    refine ⟨tables q.snapshot, ?_, Tables.same_refl _⟩
    simp only [receive, hkind]
  | rebaseline =>
    refine ⟨tables q.snapshot, ?_, Tables.same_refl _⟩
    simp only [receive, hkind]

/-- The packages after the one a client holds, each of which finds the rows it needs. -/
theorem receive_chain {p : BuiltPackage} {packages : List BuiltPackage} {sequence : Nat}
    (hchain : (p :: packages).IsChain fun p q => Later corpus tables p.snapshot q.snapshot)
    (hwindows : WindowChain p.includedChangeSeqHigh sequence packages)
    (hseen : ∀ q ∈ p :: packages, Seen q.snapshot ledger ∧ q.includedChangeSeqHigh = currentChangeSeq q.snapshot)
    (hpackages : ∀ q ∈ p :: packages, Consistent corpus (tables q.snapshot) ∧
      Later corpus tables q.snapshot ledger.committed) (hclient : client.Same (tables p.snapshot))
    (halike : ∀ q ∈ packages, ReadsAlike builder applier (tables q.snapshot)) :
    ∃ db newest, packages.foldlM (receive digestBytes builder applier corpus tables) client = some db ∧
      (p :: packages).getLast? = some newest ∧ db.Same (tables newest.snapshot) := by
  induction packages generalizing p client sequence with
  | nil => exact ⟨client, p, rfl, rfl, hclient⟩
  | cons q packages ih =>
    obtain ⟨hpq, hrest⟩ := List.isChain_cons_cons.mp hchain
    obtain ⟨hlow, -, -, hwindows⟩ := hwindows
    obtain ⟨hpseen, hphigh⟩ := hseen p List.mem_cons_self
    have hqmem : q ∈ p :: q :: packages := List.mem_cons_of_mem p List.mem_cons_self
    obtain ⟨db, hdb, hsame⟩ := receive_same digestBytes hpseen hphigh (hseen q hqmem).2 hlow hpq
      (hpackages q hqmem).2 (hpackages p List.mem_cons_self).1 (hpackages q hqmem).1 hclient
      (halike q List.mem_cons_self)
    obtain ⟨last, newest, hfold, hnewest, hlast⟩ := ih hrest hwindows
      (fun r hr => hseen r (List.mem_cons_of_mem p hr)) (fun r hr => hpackages r (List.mem_cons_of_mem p hr)) hsame
      (fun r hr => halike r (List.mem_cons_of_mem q hr))
    refine ⟨last, newest, ?_, ?_, hlast⟩
    · rw [List.foldlM_cons, hdb]
      exact hfold
    · rw [List.getLast?_cons_cons]
      exact hnewest

theorem windowChain_after {low sequence : Nat} {before packages : List BuiltPackage} {p : BuiltPackage}
    (h : WindowChain low sequence (before ++ p :: packages)) :
    ∃ next, WindowChain p.includedChangeSeqHigh next packages := by
  induction before generalizing low sequence with
  | nil => exact ⟨_, h.2.2.2⟩
  | cons q before ih => exact ih h.2.2.2

/-- A snapshot that the catalog covers differs from its head's in no row of the corpus. -/
theorem covered_same {s : OutboxState} {newest : BuiltPackage} (hseen : Seen newest.snapshot s.ledger)
    (hhigh : latestHigh (s.catalog corpus) = currentChangeSeq newest.snapshot)
    (hlater : Later corpus tables newest.snapshot s.ledger.committed) (hcovered : Covered s corpus s.ledger.committed) :
    (tables newest.snapshot).Same (tables s.ledger.committed) := by
  obtain ⟨new, hnew, hemitted⟩ := hlater
  have hcommitted : s.ledger.committed = newest.snapshot ++ (new ++ []) := by rw [hnew, List.append_nil]
  have hnone : changedScopes corpus new = [] := by
    apply List.eq_nil_iff_forall_not_mem.mpr
    intro scope hscope
    obtain ⟨r, hr, hcorpus, -⟩ := mem_changedScopes.mp hscope
    have hlt := seen_lt_of_new hseen hcommitted r hr
    have hle := hcovered r (by rw [hnew]; exact List.mem_append_right _ hr) hcorpus
    omega
  rw [hnone] at hemitted
  exact hemitted.same_of_nil

theorem feedInvariant_after (hashtext : Corpus → Int) {actions : List OutboxAction}
    (hstart : Consistent corpus (tables []))
    (hwriters : RunMeets (OutboxState.step hashtext) (WriterEmits corpus tables) OutboxState.initial actions) :
    FeedInvariant corpus tables (outboxAfter hashtext actions) := by
  have hboth : OutboxInvariant hashtext (outboxAfter hashtext actions) ∧
      FeedInvariant corpus tables (outboxAfter hashtext actions) := by
    refine runFrom_keeps (P := fun s => OutboxInvariant hashtext s ∧ FeedInvariant corpus tables s) ?_
      ⟨outboxInvariant_initial, feedInvariant_initial hstart⟩ hwriters
    rintro s action ⟨houtbox, hfeed⟩ hwriter
    exact ⟨houtbox.step action, hfeed.step houtbox hwriter⟩
  exact hboth.2

/-- However writers and builds interleave, a client that takes any full package of
a corpus and follows the packages after it holds the rows of the newest snapshot,
and those of the producer now once a build that saw them has ended, if it reads
the rows of these packages as their builder does. -/
theorem clients_follow_producer (hashtext : Corpus → Int) (actions : List OutboxAction)
    (hstart : Consistent corpus (tables []))
    (hwriters : RunMeets (OutboxState.step hashtext) (WriterEmits corpus tables) OutboxState.initial actions)
    {before after : List BuiltPackage} {p : BuiltPackage}
    (hcatalog : (outboxAfter hashtext actions).catalog corpus = before ++ p :: after)
    (hfull : p.packageKind ≠ .incremental) (halike : ∀ q ∈ after, ReadsAlike builder applier (tables q.snapshot))
    (client : Tables) :
    ∃ db newest, (p :: after).foldlM (receive digestBytes builder applier corpus tables) client = some db ∧
      (outboxAfter hashtext actions).latestPackage corpus = some newest ∧ db.Same (tables newest.snapshot) ∧
      ∀ b, (outboxAfter hashtext actions).builds b =
          some (.finished corpus (outboxAfter hashtext actions).ledger.committed) ∨
        (outboxAfter hashtext actions).builds b =
          some (.done corpus (outboxAfter hashtext actions).ledger.committed) →
        db.Same (tables (outboxAfter hashtext actions).ledger.committed) := by
  have houtbox := outboxInvariant_after hashtext actions
  have hfeed := feedInvariant_after hashtext hstart hwriters
  have hchains := houtbox.chains corpus
  have hmem : ∀ q ∈ p :: after, q ∈ (outboxAfter hashtext actions).catalog corpus := by
    intro q hq
    rw [hcatalog]
    exact List.mem_append_right before hq
  have hlinks := hfeed.chain
  have hwindows := hchains.windows
  rw [hcatalog] at hlinks hwindows
  obtain ⟨sequence, hafter⟩ := windowChain_after hwindows
  obtain ⟨db, newest, hfold, hnewest, hsame⟩ := receive_chain digestBytes
    (List.isChain_append.mp hlinks).2.1 hafter (fun q hq => hchains.seen q (hmem q hq))
    (fun q hq => hfeed.packages q (hmem q hq)) (Tables.same_refl (tables p.snapshot)) halike
  have hlatest : (outboxAfter hashtext actions).latestPackage corpus = some newest := by
    rw [OutboxState.latestPackage, hcatalog, List.getLast?_append, hnewest]
    rfl
  have hnewestMem := List.mem_of_getLast? hlatest
  refine ⟨db, newest, ?_, hlatest, hsame, ?_⟩
  · have hfirst : receive digestBytes builder applier corpus tables client p = some (tables p.snapshot) := by
      cases hkind : p.packageKind with
      | incremental => exact absurd hkind hfull
      | baseline => simp only [receive, hkind]
      | rebaseline => simp only [receive, hkind]
    rw [List.foldlM_cons, hfirst]
    exact hfold
  · intro b hb
    have hcovered : Covered (outboxAfter hashtext actions) corpus (outboxAfter hashtext actions).ledger.committed := by
      rcases hb with hb | hb
      · exact houtbox.builds b _ hb
      · exact houtbox.builds b _ hb
    obtain ⟨hseen, hhigh⟩ := hchains.seen newest hnewestMem
    have hnow := covered_same hseen ((latestHigh_of_getLast? hlatest).trans hhigh)
      (hfeed.packages newest hnewestMem).2 hcovered
    exact hsame.trans hnow

end Clients

section Sample

/-- A baseline of one document, which a transaction replaces before the next build. -/
def replacedDocument : List OutboxAction :=
  [.start 7 .baseline coreCorpus, .advance 7, .advance 7, .advance 7, .advance 7, .advance 7, .emitFence 1,
    .emitInsert 1 ⟨[], 24⟩ (documentScope "a"), .emitInsert 1 ⟨[], 24⟩ (documentScope "b")] ++
  (.commit 1 :: [.start 8 .incremental coreCorpus, .advance 8, .advance 8, .advance 8, .advance 8, .advance 8,
    .advance 8, .advance 8])

def replacedRows : List ChangeRow :=
  [emittedRow ⟨[], 24⟩ (documentScope "a") 1, emittedRow ⟨[], 24⟩ (documentScope "b") 2]

def replacedTables (rows : List ChangeRow) : Tables :=
  if rows.isEmpty then oneDocument "a".toList else oneDocument "b".toList

def firstBaseline : BuiltPackage := OutboxState.packageOf .baseline none []

def nextIncremental : BuiltPackage := OutboxState.packageOf .incremental (some firstBaseline) replacedRows

theorem later_replacedRows : Later coreCorpus replacedTables [] replacedRows :=
  ⟨replacedRows, rfl, emitted_replacedScopes⟩

theorem writersEmit_replacedDocument : RunMeets (OutboxState.step fun _ => 0) (WriterEmits coreCorpus replacedTables)
    OutboxState.initial replacedDocument := by
  apply RunMeets.append_iff.mpr
  constructor
  · apply RunMeets.of_forall
    intro action haction s tx hcommit
    simp [hcommit] at haction
  · refine ⟨?_, ?_⟩
    · intro tx htx
      rw [← OutboxAction.commit.inj htx]
      exact ⟨later_replacedRows, consistent_oneDocument coreCorpus _⟩
    · apply RunMeets.of_forall
      intro action haction s tx hcommit
      simp [hcommit] at haction

theorem clients_follow_producer_replaced_document :
    ∃ db newest, (firstBaseline :: [nextIncremental]).foldlM
        (receive setSha256 utcReader londonReader coreCorpus replacedTables) (oneDocument "c".toList) = some db ∧
      (outboxAfter (fun _ => 0) replacedDocument).latestPackage coreCorpus = some newest ∧
      db.Same (replacedTables newest.snapshot) ∧
      ∀ b, (outboxAfter (fun _ => 0) replacedDocument).builds b =
          some (.finished coreCorpus (outboxAfter (fun _ => 0) replacedDocument).ledger.committed) ∨
        (outboxAfter (fun _ => 0) replacedDocument).builds b =
          some (.done coreCorpus (outboxAfter (fun _ => 0) replacedDocument).ledger.committed) →
        db.Same (replacedTables (outboxAfter (fun _ => 0) replacedDocument).ledger.committed) :=
  clients_follow_producer setSha256 (fun _ => 0) replacedDocument (consistent_oneDocument coreCorpus _)
    writersEmit_replacedDocument (show _ = [] ++ _ from rfl) (by decide)
    (by
      intro q hq
      obtain rfl := List.mem_singleton.mp hq
      exact readsAlike_oneDocument _) _

end Sample

end Replica

end CorpusFeed
