import CorpusFeed.OutboxFence

/-! The windows of a corpus's packages cut its change log without a gap or an
overlap, in every interleaving of writers and builds: the fence makes the high
bound of a snapshot final, and the build lock keeps the head a build links to. -/

namespace CorpusFeed

/-- The snapshot holds every row the ledger will ever have up to its high bound. -/
def Seen (snapshot : List ChangeRow) (ledger : StampedLog Nat ChangeRow) : Prop :=
  StampedLog.Frozen ChangeRow.changeSeq (currentChangeSeq snapshot) snapshot ledger

/-- Windows in package order: each starts where the one before it ends. -/
def WindowChain : Nat → Nat → List BuiltPackage → Prop
  | _, _, [] => True
  | low, sequence, p :: packages =>
    p.includedChangeSeqLow = low ∧ low ≤ p.includedChangeSeqHigh ∧ p.packageSequence = sequence + 1 ∧
      WindowChain p.includedChangeSeqHigh (sequence + 1) packages

def latestHigh (packages : List BuiltPackage) : Nat := packages.getLast?.elim 0 BuiltPackage.includedChangeSeqHigh

def BuiltPackage.changes (corpus : Corpus) (p : BuiltPackage) : List ChangeRow :=
  corpusRange p.snapshot corpus.name p.includedChangeSeqLow p.includedChangeSeqHigh

/-- No change row of the corpus that the build saw is above the catalog's head. -/
def Covered (s : OutboxState) (corpus : Corpus) (snapshot : List ChangeRow) : Prop :=
  ∀ r ∈ snapshot, r.corpus = corpus.name → r.changeSeq ≤ latestHigh (s.catalog corpus)

section Builds

variable (hashtext : Corpus → Int)

/-- The package a build follows on, kept the newest by the build lock it holds. -/
def Linked (s : OutboxState) (b : Nat) (corpus : Corpus) (prev : BuiltPackage) : Prop :=
  s.buildLocks (hashtext corpus) = some b ∧ s.latestPackage corpus = some prev

def LinkedAs (s : OutboxState) (b : Nat) : PackageKind → Corpus → Option BuiltPackage → Prop
  | .baseline, _, prev => prev = none
  | _, corpus, prev => ∃ p, prev = some p ∧ Linked hashtext s b corpus p

def BuildOk (s : OutboxState) (b : Nat) : Build → Prop
  | .waiting _ _ => True
  | .locked _ corpus => s.buildLocks (hashtext corpus) = some b
  | .linked corpus prev => Linked hashtext s b corpus prev
  | .fenced corpus => s.buildLocks (hashtext corpus) = some b ∧ s.fence = some b
  | .ready kind corpus prev => s.fence = some b ∧ LinkedAs hashtext s b kind corpus prev
  | .frozen kind corpus prev snapshot => s.fence = some b ∧ LinkedAs hashtext s b kind corpus prev ∧
      Seen snapshot s.ledger ∧ prev.elim 0 BuiltPackage.includedChangeSeqHigh ≤ currentChangeSeq snapshot
  | .reading kind corpus prev snapshot => LinkedAs hashtext s b kind corpus prev ∧
      Seen snapshot s.ledger ∧ prev.elim 0 BuiltPackage.includedChangeSeqHigh ≤ currentChangeSeq snapshot
  | .finished corpus snapshot => Covered s corpus snapshot
  | .done corpus snapshot => Covered s corpus snapshot
  | .failed => True

structure ChainOk (ledger : StampedLog Nat ChangeRow) (packages : List BuiltPackage) : Prop where
  windows : WindowChain 0 0 packages
  seen : ∀ p ∈ packages, Seen p.snapshot ledger ∧ p.includedChangeSeqHigh = currentChangeSeq p.snapshot

structure OutboxInvariant (s : OutboxState) : Prop where
  ledger : StampedLog.WellStamped ChangeRow.changeSeq s.ledger
  exclusive : s.fence.isSome → s.ledger.writers = []
  builds : ∀ b build, s.builds b = some build → BuildOk hashtext s b build
  chains : ∀ corpus, ChainOk s.ledger (s.catalog corpus)

end Builds

section Chains

variable {low sequence : Nat} {packages : List BuiltPackage} {package : BuiltPackage}

theorem latestHigh_append (packages : List BuiltPackage) (package : BuiltPackage) :
    latestHigh (packages ++ [package]) = package.includedChangeSeqHigh := by
  simp [latestHigh]

theorem latestHigh_of_getLast? {prev : BuiltPackage} (h : packages.getLast? = some prev) :
    latestHigh packages = prev.includedChangeSeqHigh := by
  simp [latestHigh, h]

theorem elim_getLast?_cons (p : BuiltPackage) (packages : List BuiltPackage) (d : Nat) (f : BuiltPackage → Nat) :
    (p :: packages).getLast?.elim d f = packages.getLast?.elim (f p) f := by
  cases packages with
  | nil => rfl
  | cons q packages =>
    rw [List.getLast?_cons_cons]
    cases hl : (q :: packages).getLast? with
    | none => simp at hl
    | some last => rfl

theorem WindowChain.append (h : WindowChain low sequence packages)
    (hlow : package.includedChangeSeqLow = packages.getLast?.elim low BuiltPackage.includedChangeSeqHigh)
    (hle : package.includedChangeSeqLow ≤ package.includedChangeSeqHigh)
    (hseq : package.packageSequence = packages.getLast?.elim sequence BuiltPackage.packageSequence + 1) :
    WindowChain low sequence (packages ++ [package]) := by
  induction packages generalizing low sequence with
  | nil =>
    have hl : package.includedChangeSeqLow = low := by simpa using hlow
    have hs : package.packageSequence = sequence + 1 := by simpa using hseq
    exact ⟨hl, by omega, hs, trivial⟩
  | cons p packages ih =>
    obtain ⟨hp, hple, hpseq, hrest⟩ := h
    rw [elim_getLast?_cons] at hlow hseq
    rw [hpseq] at hseq
    exact ⟨hp, hple, hpseq, ih hrest hlow hseq⟩

theorem WindowChain.exists_first (h : WindowChain low sequence packages) (hne : packages ≠ []) :
    ∃ p ∈ packages, p.packageSequence = sequence + 1 := by
  cases packages with
  | nil => exact absurd rfl hne
  | cons p packages => exact ⟨p, List.mem_cons_self, h.2.2.1⟩

theorem latestHigh_ge (h : WindowChain low sequence packages) :
    low ≤ packages.getLast?.elim low BuiltPackage.includedChangeSeqHigh := by
  induction packages generalizing low sequence with
  | nil => simp
  | cons p packages ih =>
    obtain ⟨-, hle, -, hrest⟩ := h
    have hlast := ih hrest
    rw [elim_getLast?_cons]
    omega

theorem WindowChain.high_le (h : WindowChain low sequence packages) (hp : package ∈ packages) :
    package.includedChangeSeqHigh ≤ latestHigh packages := by
  induction packages generalizing low sequence with
  | nil => simp at hp
  | cons p packages ih =>
    obtain ⟨-, -, -, hrest⟩ := h
    rw [latestHigh, elim_getLast?_cons]
    rcases List.mem_cons.mp hp with rfl | hp
    · exact latestHigh_ge hrest
    · have hlast := ih hrest hp
      cases packages with
      | nil => simp at hp
      | cons q packages =>
        rw [latestHigh, elim_getLast?_cons] at hlast
        rwa [elim_getLast?_cons]

/-- The windows read the ledger from the first low bound to the last high one. -/
theorem WindowChain.flatMap_changes {corpus : Corpus} {ledger : StampedLog Nat ChangeRow}
    (hledger : StampedLog.WellStamped ChangeRow.changeSeq ledger) (h : WindowChain low sequence packages)
    (hseen : ∀ p ∈ packages, Seen p.snapshot ledger ∧ p.includedChangeSeqHigh = currentChangeSeq p.snapshot) :
    packages.flatMap (BuiltPackage.changes corpus) =
      corpusRange ledger.committed corpus.name low
        (packages.getLast?.elim low BuiltPackage.includedChangeSeqHigh) := by
  induction packages generalizing low sequence with
  | nil => simp [corpusRange, rangeOf_nil_of_le]
  | cons p packages ih =>
    have hends := latestHigh_ge h.2.2.2
    obtain ⟨hlow, hle, -, hrest⟩ := h
    obtain ⟨hfrozen, hhigh⟩ := hseen p List.mem_cons_self
    have hp : p.changes corpus = corpusRange ledger.committed corpus.name low p.includedChangeSeqHigh := by
      have hrows : p.snapshot = ledger.committed.filter fun r => r.changeSeq ≤ p.includedChangeSeqHigh := by
        rw [hhigh]
        exact hfrozen.rows_eq.symm
      rw [BuiltPackage.changes, hlow, hrows, corpusRange, corpusRange, ofCorpus, ofCorpus, List.filter_comm]
      exact rangeOf_filter_le
    have htail := ih hrest fun q hq => hseen q (List.mem_cons_of_mem p hq)
    have hnodup : ((ofCorpus corpus.name ledger.committed).map ChangeRow.changeSeq).Nodup := by
      have hall : (ledger.committed.map ChangeRow.changeSeq).Nodup := by
        have hd := hledger.distinct
        rw [List.map_append] at hd
        exact (List.nodup_append.mp hd).1
      exact (List.filter_sublist.map ChangeRow.changeSeq).nodup hall
    rw [List.flatMap_cons, hp, htail, elim_getLast?_cons]
    exact rangeOf_append hnodup hle hends

end Chains

theorem Seen.step {snapshot : List ChangeRow} {ledger ledger' : StampedLog Nat ChangeRow}
    (h : Seen snapshot ledger) (hstep : StampedLog.Step ChangeRow.changeSeq ledger ledger') :
    Seen snapshot ledger' := StampedLog.Frozen.step h hstep

theorem ChainOk.step {ledger ledger' : StampedLog Nat ChangeRow} {packages : List BuiltPackage}
    (h : ChainOk ledger packages) (hstep : StampedLog.Step ChangeRow.changeSeq ledger ledger') :
    ChainOk ledger' packages where
  windows := h.windows
  seen := fun p hp => ⟨(h.seen p hp).1.step hstep, (h.seen p hp).2⟩

theorem ChainOk.append {ledger : StampedLog Nat ChangeRow} {packages : List BuiltPackage} {kind : PackageKind}
    {prev : Option BuiltPackage} {snapshot : List ChangeRow} (h : ChainOk ledger packages)
    (hlast : packages.getLast? = prev) (hseen : Seen snapshot ledger)
    (hle : prev.elim 0 BuiltPackage.includedChangeSeqHigh ≤ currentChangeSeq snapshot) :
    ChainOk ledger (packages ++ [OutboxState.packageOf kind prev snapshot]) where
  windows := by
    apply h.windows.append
    · rw [hlast]
      rfl
    · exact hle
    · rw [hlast]
      rfl
  seen := by
    intro p hp
    rcases List.mem_append.mp hp with hold | hnew
    · exact h.seen p hold
    · have heq : p = OutboxState.packageOf kind prev snapshot := by simpa using hnew
      rw [heq]
      exact ⟨hseen, rfl⟩

section Steps

variable {hashtext : Corpus → Int} {s t : OutboxState} {b : Nat}

/-- What a step of another session leaves to the build `b`. -/
structure Keeps (hashtext : Corpus → Int) (s t : OutboxState) (b : Nat) : Prop where
  fence : s.fence = some b → t.fence = some b
  lock : ∀ key, s.buildLocks key = some b → t.buildLocks key = some b
  latest : ∀ corpus prev, s.buildLocks (hashtext corpus) = some b → s.latestPackage corpus = some prev →
    t.latestPackage corpus = some prev
  high : ∀ corpus, latestHigh (s.catalog corpus) ≤ latestHigh (t.catalog corpus)
  seen : ∀ snapshot, Seen snapshot s.ledger → Seen snapshot t.ledger

theorem Linked.keep {corpus : Corpus} {prev : BuiltPackage} (h : Linked hashtext s b corpus prev)
    (hkeep : Keeps hashtext s t b) : Linked hashtext t b corpus prev :=
  ⟨hkeep.lock _ h.1, hkeep.latest corpus prev h.1 h.2⟩

theorem LinkedAs.keep {kind : PackageKind} {corpus : Corpus} {prev : Option BuiltPackage}
    (h : LinkedAs hashtext s b kind corpus prev) (hkeep : Keeps hashtext s t b) :
    LinkedAs hashtext t b kind corpus prev := by
  cases kind with
  | baseline => exact h
  | rebaseline =>
    obtain ⟨p, hp, hlinked⟩ := h
    exact ⟨p, hp, hlinked.keep hkeep⟩
  | incremental =>
    obtain ⟨p, hp, hlinked⟩ := h
    exact ⟨p, hp, hlinked.keep hkeep⟩

theorem Covered.keep {corpus : Corpus} {snapshot : List ChangeRow} (h : Covered s corpus snapshot)
    (hhigh : latestHigh (s.catalog corpus) ≤ latestHigh (t.catalog corpus)) : Covered t corpus snapshot :=
  fun r hr hc => Nat.le_trans (h r hr hc) hhigh

theorem BuildOk.keep {build : Build} (h : BuildOk hashtext s b build) (hkeep : Keeps hashtext s t b) :
    BuildOk hashtext t b build := by
  cases build with
  | waiting kind corpus => trivial
  | locked kind corpus => exact hkeep.lock _ h
  | linked corpus prev => exact Linked.keep h hkeep
  | fenced corpus => exact ⟨hkeep.lock _ h.1, hkeep.fence h.2⟩
  | ready kind corpus prev => exact ⟨hkeep.fence h.1, h.2.keep hkeep⟩
  | frozen kind corpus prev snapshot =>
    obtain ⟨hfence, hlinked, hseen, hle⟩ := h
    exact ⟨hkeep.fence hfence, hlinked.keep hkeep, hkeep.seen snapshot hseen, hle⟩
  | reading kind corpus prev snapshot =>
    obtain ⟨hlinked, hseen, hle⟩ := h
    exact ⟨hlinked.keep hkeep, hkeep.seen snapshot hseen, hle⟩
  | finished corpus snapshot => exact Covered.keep h (hkeep.high corpus)
  | done corpus snapshot => exact Covered.keep h (hkeep.high corpus)
  | failed => trivial

theorem OutboxInvariant.ledgerStep {ledger : StampedLog Nat ChangeRow} (h : OutboxInvariant hashtext s)
    (hstep : StampedLog.Step ChangeRow.changeSeq s.ledger ledger)
    (hexclusive : s.fence.isSome → ledger.writers = []) :
    OutboxInvariant hashtext { s with ledger := ledger } where
  ledger := h.ledger.step hstep
  exclusive := hexclusive
  builds := by
    intro b build hb
    apply (h.builds b build hb).keep
    exact ⟨id, fun _ => id, fun _ _ _ => id, fun _ => Nat.le_refl _, fun _ hseen => hseen.step hstep⟩
  chains := fun corpus => (h.chains corpus).step hstep

theorem OutboxInvariant.move {next : Build} (h : OutboxInvariant hashtext s) (hbuilds : t.builds = s.builds)
    (hledger : t.ledger = s.ledger) (hkeep : ∀ c, c ≠ b → Keeps hashtext s t c)
    (hexclusive : t.fence.isSome → t.ledger.writers = [])
    (hchains : ∀ corpus, ChainOk t.ledger (t.catalog corpus)) (hnext : BuildOk hashtext t b next) :
    OutboxInvariant hashtext (t.setBuild b next) where
  ledger := by
    show StampedLog.WellStamped ChangeRow.changeSeq t.ledger
    rw [hledger]
    exact h.ledger
  exclusive := hexclusive
  builds := by
    intro c build hc
    have hall : BuildOk hashtext t c build := by
      by_cases hcb : c = b
      · rw [hcb] at hc ⊢
        have heq : next = build := by simpa [OutboxState.setBuild] using hc
        rwa [← heq]
      · have hold : s.builds c = some build := by
          rw [← hbuilds]
          simpa [OutboxState.setBuild, hcb] using hc
        exact (h.builds c build hold).keep (hkeep c hcb)
    exact hall.keep ⟨id, fun _ => id, fun _ _ _ => id, fun _ => Nat.le_refl _, fun _ => id⟩
  chains := hchains

theorem Keeps.refl (s : OutboxState) (b : Nat) : Keeps hashtext s s b :=
  ⟨id, fun _ => id, fun _ _ _ => id, fun _ => Nat.le_refl _, fun _ => id⟩

theorem OutboxInvariant.setBuild {next : Build} (h : OutboxInvariant hashtext s)
    (hnext : BuildOk hashtext s b next) : OutboxInvariant hashtext (s.setBuild b next) :=
  h.move rfl rfl (fun c _ => Keeps.refl s c) h.exclusive h.chains hnext

theorem Keeps.releaseFence {c : Nat} (hc : c ≠ b) : Keeps hashtext s (s.releaseOutboxFence b) c where
  fence := by
    intro hf
    have hother : s.fence ≠ some b := by
      rw [hf]
      exact fun heq => hc (Option.some.inj heq)
    show (if s.fence = some b then none else s.fence) = some c
    rw [if_neg hother, hf]
  lock := fun _ => id
  latest := fun _ _ _ => id
  high := fun _ => Nat.le_refl _
  seen := fun _ => id

theorem LinkedAs.releaseFence {kind : PackageKind} {corpus : Corpus} {prev : Option BuiltPackage}
    (h : LinkedAs hashtext s b kind corpus prev) :
    LinkedAs hashtext (s.releaseOutboxFence b) b kind corpus prev := by
  cases kind with
  | baseline => exact h
  | rebaseline => exact h
  | incremental => exact h

theorem Keeps.releaseLocks {c : Nat} (hc : c ≠ b) : Keeps hashtext s (s.releaseBuildLocks b) c where
  fence := id
  lock := by
    intro key hk
    have hother : s.buildLocks key ≠ some b := by
      rw [hk]
      exact fun heq => hc (Option.some.inj heq)
    show (if s.buildLocks key = some b then none else s.buildLocks key) = some c
    rw [if_neg hother, hk]
  latest := fun _ _ _ => id
  high := fun _ => Nat.le_refl _
  seen := fun _ => id

theorem Keeps.trans {u : OutboxState} {c : Nat} (h : Keeps hashtext s t c) (h' : Keeps hashtext t u c) :
    Keeps hashtext s u c where
  fence := fun hf => h'.fence (h.fence hf)
  lock := fun key hk => h'.lock key (h.lock key hk)
  latest := fun corpus prev hlock hlatest => h'.latest corpus prev (h.lock _ hlock) (h.latest corpus prev hlock hlatest)
  high := fun corpus => Nat.le_trans (h.high corpus) (h'.high corpus)
  seen := fun snapshot hseen => h'.seen snapshot (h.seen snapshot hseen)

theorem fence_of_release (h : (s.releaseOutboxFence b).fence.isSome) : s.fence.isSome := by
  by_cases hf : s.fence = some b
  · simp [OutboxState.releaseOutboxFence, hf] at h
  · simpa [OutboxState.releaseOutboxFence, hf] using h

theorem OutboxInvariant.failBuild (h : OutboxInvariant hashtext s) (b : Nat) :
    OutboxInvariant hashtext (s.failBuild b) := by
  refine h.move (t := (s.releaseOutboxFence b).releaseBuildLocks b) rfl rfl ?_ ?_ h.chains trivial
  · intro c hc
    exact (Keeps.releaseFence hc).trans (Keeps.releaseLocks hc)
  · intro hf
    exact h.exclusive (fence_of_release hf)

theorem OutboxInvariant.acquireFence {next : Build} (h : OutboxInvariant hashtext s)
    (hnext : BuildOk hashtext { s with fence := some b } b next) :
    OutboxInvariant hashtext (s.acquireOutboxFence b next) := by
  rw [OutboxState.acquireOutboxFence]
  by_cases hfree : s.fence = none ∧ s.ledger.writers = []
  · rw [if_pos hfree]
    refine h.move (t := { s with fence := some b }) rfl rfl ?_ (fun _ => hfree.2) h.chains hnext
    intro c _
    refine ⟨fun hf => ?_, fun _ => id, fun _ _ _ => id, fun _ => Nat.le_refl _, fun _ => id⟩
    rw [hfree.1] at hf
    exact absurd hf (by simp)
  · rw [if_neg hfree]
    exact h

theorem OutboxInvariant.acquireLock {kind : PackageKind} {corpus : Corpus} (h : OutboxInvariant hashtext s) :
    OutboxInvariant hashtext (s.acquireCorpusBuildLock hashtext b corpus (.locked kind corpus)) := by
  rw [OutboxState.acquireCorpusBuildLock]
  by_cases hfree : s.buildLocks (hashtext corpus) = none
  · rw [if_pos hfree]
    refine h.move (t := { s with buildLocks := Function.update s.buildLocks (hashtext corpus) (some b) }) rfl rfl
      ?_ h.exclusive h.chains ?_
    · intro c _
      refine ⟨id, fun key hk => ?_, fun _ _ _ => id, fun _ => Nat.le_refl _, fun _ => id⟩
      have hkey : key ≠ hashtext corpus := by
        intro heq
        rw [heq, hfree] at hk
        exact absurd hk (by simp)
      show Function.update s.buildLocks (hashtext corpus) (some b) key = some c
      rw [Function.update_of_ne hkey, hk]
    · show Function.update s.buildLocks (hashtext corpus) (some b) (hashtext corpus) = some b
      exact Function.update_self ..
  · rw [if_neg hfree]
    exact h

/-- The fence makes what is committed now all there will ever be up to now. -/
theorem OutboxInvariant.seen_committed (h : OutboxInvariant hashtext s) (hfence : s.fence = some b) :
    Seen s.ledger.committed s.ledger := by
  have hwriters : s.ledger.writers = [] := h.exclusive (by rw [hfence]; rfl)
  apply h.ledger.freeze hwriters
  · have hle : currentChangeSeq s.ledger.committed ≤ s.ledger.next - 1 := by
      apply currentChangeSeq_le
      intro r hr
      have := h.ledger.below r hr
      omega
    have := h.ledger.next_pos
    omega
  · intro r hr
    exact le_currentChangeSeq hr

theorem LinkedAs.latest {kind : PackageKind} {corpus : Corpus} {prev : Option BuiltPackage} {p : BuiltPackage}
    (h : LinkedAs hashtext s b kind corpus prev) (hp : prev = some p) :
    s.buildLocks (hashtext corpus) = some b ∧ s.latestPackage corpus = some p := by
  cases kind with
  | baseline =>
    have hnone : prev = none := h
    rw [hnone] at hp
    exact absurd hp (by simp)
  | rebaseline =>
    obtain ⟨q, hq, hlinked⟩ := h
    rw [hp] at hq
    rw [Option.some.inj hq]
    exact hlinked
  | incremental =>
    obtain ⟨q, hq, hlinked⟩ := h
    rw [hp] at hq
    rw [Option.some.inj hq]
    exact hlinked

/-- What is in the catalog is below every bound frozen later. -/
theorem OutboxInvariant.high_le (h : OutboxInvariant hashtext s) {corpus : Corpus} {p : BuiltPackage}
    (hp : p ∈ s.catalog corpus) : p.includedChangeSeqHigh ≤ currentChangeSeq s.ledger.committed := by
  obtain ⟨hseen, hhigh⟩ := (h.chains corpus).seen p hp
  rw [hhigh]
  apply currentChangeSeq_le
  intro r hr
  apply le_currentChangeSeq
  rw [← hseen.rows_eq] at hr
  exact (List.mem_filter.mp hr).1

theorem covered_of_high {corpus : Corpus} {snapshot : List ChangeRow}
    (h : currentChangeSeq snapshot ≤ latestHigh (s.catalog corpus)) : Covered s corpus snapshot := by
  intro r hr _
  exact (le_currentChangeSeq hr).trans h

/-- The package a build follows on is still the newest when its sequence is free. -/
theorem OutboxInvariant.getLast?_eq {kind : PackageKind} {corpus : Corpus} {prev : Option BuiltPackage}
    {snapshot : List ChangeRow} (h : OutboxInvariant hashtext s)
    (hlinked : LinkedAs hashtext s b kind corpus prev)
    (hfree : ¬((s.catalog corpus).any fun p =>
      p.packageSequence == (OutboxState.packageOf kind prev snapshot).packageSequence) = true) :
    (s.catalog corpus).getLast? = prev := by
  cases hprev : prev with
  | some p => exact (hlinked.latest hprev).2
  | none =>
    by_contra hne
    have hcons : s.catalog corpus ≠ [] := by
      intro hnil
      rw [hnil] at hne
      exact hne rfl
    obtain ⟨p, hp, hseq⟩ := (h.chains corpus).windows.exists_first hcons
    apply hfree
    apply List.any_eq_true.mpr
    refine ⟨p, hp, ?_⟩
    simp [OutboxState.packageOf, hprev, hseq]

theorem OutboxInvariant.insertPackage {kind : PackageKind} {corpus : Corpus} {prev : Option BuiltPackage}
    {snapshot : List ChangeRow} (h : OutboxInvariant hashtext s)
    (hlinked : LinkedAs hashtext s b kind corpus prev) (hseen : Seen snapshot s.ledger)
    (hle : prev.elim 0 BuiltPackage.includedChangeSeqHigh ≤ currentChangeSeq snapshot) :
    OutboxInvariant hashtext (s.insertPackage b corpus (OutboxState.packageOf kind prev snapshot)) := by
  rw [OutboxState.insertPackage]
  by_cases htaken : ((s.catalog corpus).any fun p =>
      p.packageSequence == (OutboxState.packageOf kind prev snapshot).packageSequence) = true
  · rw [if_pos htaken]
    exact h.failBuild b
  · rw [if_neg htaken]
    have hchain := (h.chains corpus)
    have hlast := h.getLast?_eq hlinked htaken
    have happend : ChainOk s.ledger (s.catalog corpus ++ [OutboxState.packageOf kind prev snapshot]) :=
      hchain.append hlast hseen hle
    have hhigh : latestHigh (s.catalog corpus) ≤ currentChangeSeq snapshot := by
      rw [latestHigh, hlast]
      exact hle
    refine h.move (t := { s with
      catalog := Function.update s.catalog corpus
        (s.catalog corpus ++ [OutboxState.packageOf kind prev snapshot]) }) rfl rfl ?_ h.exclusive ?_ ?_
    · intro c hc
      refine ⟨id, fun _ => id, ?_, ?_, fun _ => id⟩
      · intro other q hlock hlatest
        have hne : other ≠ corpus := by
          intro heq
          rw [heq] at hlock hlatest
          cases hprev : prev with
          | some p =>
            have hmine := (hlinked.latest hprev).1
            rw [hmine] at hlock
            exact hc (Option.some.inj hlock).symm
          | none =>
            rw [OutboxState.latestPackage, hlast, hprev] at hlatest
            exact absurd hlatest (by simp)
        show (Function.update s.catalog corpus _ other).getLast? = some q
        rw [Function.update_of_ne hne]
        exact hlatest
      · intro other
        show latestHigh (s.catalog other) ≤ latestHigh (Function.update s.catalog corpus _ other)
        by_cases heq : other = corpus
        · rw [heq, Function.update_self, latestHigh_append]
          exact hhigh
        · rw [Function.update_of_ne heq]
    · intro other
      show ChainOk s.ledger (Function.update s.catalog corpus _ other)
      by_cases heq : other = corpus
      · rw [heq, Function.update_self]
        exact happend
      · rw [Function.update_of_ne heq]
        exact h.chains other
    · apply covered_of_high
      show currentChangeSeq snapshot ≤ latestHigh (Function.update s.catalog corpus _ corpus)
      rw [Function.update_self, latestHigh_append]
      rfl

/-- An incremental build that reads nothing has a catalog that covers it. -/
theorem covered_of_empty {corpus : Corpus} {prev : BuiltPackage} {snapshot : List ChangeRow}
    (hlatest : s.latestPackage corpus = some prev)
    (hempty : scopesChangedForCorpus snapshot corpus.name prev.includedChangeSeqHigh (currentChangeSeq snapshot) =
      .ok []) : Covered s corpus snapshot := by
  obtain ⟨scopes, hread, hseqs⟩ := scopesChangedForCorpus_ok snapshot corpus.name prev.includedChangeSeqHigh
    (currentChangeSeq snapshot)
  have hnil : scopes = [] := by
    rw [hempty] at hread
    exact (Except.ok.inj hread).symm
  have hrange : corpusRange snapshot corpus.name prev.includedChangeSeqHigh (currentChangeSeq snapshot) = [] := by
    rw [hnil] at hseqs
    exact List.map_eq_nil_iff.mp hseqs.symm
  intro r hr hc
  rw [latestHigh_of_getLast? hlatest]
  by_contra hlt
  have hmem : r ∈ corpusRange snapshot corpus.name prev.includedChangeSeqHigh (currentChangeSeq snapshot) := by
    rw [corpusRange, mem_rangeOf]
    refine ⟨List.mem_filter.mpr ⟨hr, by simpa using hc⟩, by omega, le_currentChangeSeq hr⟩
  rw [hrange] at hmem
  simp at hmem

theorem OutboxInvariant.catalogBuild {kind : PackageKind} {corpus : Corpus} {prev : Option BuiltPackage}
    {snapshot : List ChangeRow} (h : OutboxInvariant hashtext s)
    (hlinked : LinkedAs hashtext s b kind corpus prev) (hseen : Seen snapshot s.ledger)
    (hle : prev.elim 0 BuiltPackage.includedChangeSeqHigh ≤ currentChangeSeq snapshot) :
    OutboxInvariant hashtext (s.catalogBuild b kind corpus prev snapshot) := by
  cases kind with
  | baseline => exact h.insertPackage hlinked hseen hle
  | rebaseline => exact h.insertPackage hlinked hseen hle
  | incremental =>
    obtain ⟨p, hp, hlink⟩ := hlinked
    have hlinked : LinkedAs hashtext s b .incremental corpus prev := ⟨p, hp, hlink⟩
    cases hread : scopesChangedForCorpus snapshot corpus.name
        (OutboxState.packageOf .incremental prev snapshot).includedChangeSeqLow
        (OutboxState.packageOf .incremental prev snapshot).includedChangeSeqHigh with
    | error e =>
      simp only [OutboxState.catalogBuild, hread]
      exact h.failBuild b
    | ok scopes =>
      cases scopes with
      | nil =>
        simp only [OutboxState.catalogBuild, hread]
        apply h.setBuild
        rw [hp] at hread
        exact covered_of_empty hlink.2 hread
      | cons scope scopes =>
        simp only [OutboxState.catalogBuild, hread]
        exact h.insertPackage hlinked hseen hle

theorem OutboxInvariant.advance {build : Build} (h : OutboxInvariant hashtext s)
    (hb : s.builds b = some build) : OutboxInvariant hashtext (s.advance hashtext b build) := by
  have hok := h.builds b build hb
  cases build with
  | waiting kind corpus =>
    cases kind with
    | baseline => exact h.acquireFence ⟨rfl, rfl⟩
    | rebaseline => exact h.acquireLock
    | incremental => exact h.acquireLock
  | locked kind corpus =>
    cases kind with
    | baseline => exact h.acquireFence ⟨hok, rfl⟩
    | incremental => exact h.acquireFence ⟨hok, rfl⟩
    | rebaseline =>
      cases hlatest : s.latestPackage corpus with
      | none =>
        simp only [OutboxState.advance, hlatest]
        exact h.failBuild b
      | some prev =>
        simp only [OutboxState.advance, hlatest]
        exact h.setBuild ⟨hok, hlatest⟩
  | linked corpus prev => exact h.acquireFence ⟨rfl, prev, rfl, hok⟩
  | fenced corpus =>
    cases hlatest : s.latestPackage corpus with
    | none =>
      simp only [OutboxState.advance, hlatest]
      exact h.failBuild b
    | some prev =>
      simp only [OutboxState.advance, hlatest]
      exact h.setBuild ⟨hok.2, prev, rfl, hok.1, hlatest⟩
  | ready kind corpus prev =>
    obtain ⟨hfence, hlinked⟩ := hok
    apply h.setBuild
    refine ⟨hfence, hlinked, h.seen_committed hfence, ?_⟩
    cases hprev : prev with
    | none => exact Nat.zero_le _
    | some p => exact h.high_le (List.mem_of_getLast? (hlinked.latest hprev).2)
  | frozen kind corpus prev snapshot =>
    obtain ⟨hfence, hlinked, hseen, hle⟩ := hok
    refine h.move (t := s.releaseOutboxFence b) rfl rfl (fun c hc => Keeps.releaseFence hc)
      (fun hf => h.exclusive (fence_of_release hf)) h.chains ?_
    exact ⟨hlinked.releaseFence, hseen, hle⟩
  | reading kind corpus prev snapshot =>
    obtain ⟨hlinked, hseen, hle⟩ := hok
    exact h.catalogBuild hlinked hseen hle
  | finished corpus snapshot =>
    refine h.move (t := s.releaseBuildLocks b) rfl rfl (fun c hc => Keeps.releaseLocks hc) h.exclusive h.chains ?_
    exact Covered.keep hok (Nat.le_refl _)
  | done corpus snapshot => exact h
  | failed => exact h

/-- The stored row covers what the build that stores it again has read. -/
theorem OutboxInvariant.reinsertBuild (h : OutboxInvariant hashtext s) (build : Build) :
    OutboxInvariant hashtext (s.reinsertBuild b build) := by
  cases build with
  | reading kind corpus prev snapshot =>
    rw [OutboxState.reinsertBuild]
    by_cases hstored : (s.catalog corpus).any (OutboxState.sameIdentity (OutboxState.packageOf kind prev snapshot)) = true
    · rw [if_pos hstored]
      obtain ⟨p, hp, hsame⟩ := List.any_eq_true.mp hstored
      rw [OutboxState.sameIdentity, Bool.and_eq_true, beq_iff_eq] at hsame
      apply h.setBuild
      apply covered_of_high
      rw [show currentChangeSeq snapshot = p.includedChangeSeqHigh from hsame.2.symm]
      exact (h.chains corpus).windows.high_le hp
    · rw [if_neg hstored]
      exact h
  | _ => exact h

theorem OutboxInvariant.step (h : OutboxInvariant hashtext s) (action : OutboxAction) :
    OutboxInvariant hashtext (s.step hashtext action) := by
  have hmove := s.step_move hashtext action
  generalize s.step hashtext action = next at hmove ⊢
  cases hmove with
  | stay => exact h
  | enter hfence =>
    apply h.ledgerStep (.enter _ _)
    intro hsome
    rw [hfence] at hsome
    cases hsome
  | write hwriter => exact h.ledgerStep (.write hwriter fun _ => rfl) h.exclusive
  | commit tx =>
    apply h.ledgerStep (.commit _ _)
    intro hf
    show s.ledger.writers.filter _ = []
    rw [h.exclusive hf, List.filter_nil]
  | rollback tx =>
    apply h.ledgerStep (.rollback _ _)
    intro hf
    show s.ledger.writers.filter _ = []
    rw [h.exclusive hf, List.filter_nil]
  | start => exact h.setBuild trivial
  | advance hb => exact h.advance hb
  | reinsert => exact h.reinsertBuild _
  | fail => exact h.failBuild _

theorem outboxInvariant_initial : OutboxInvariant hashtext OutboxState.initial where
  ledger := StampedLog.wellStamped_empty
  exclusive := fun h => absurd h (by simp [OutboxState.initial])
  builds := fun b build h => absurd h (by simp [OutboxState.initial])
  chains := fun corpus => ⟨trivial, by simp [OutboxState.initial]⟩

end Steps

def outboxAfter (hashtext : Corpus → Int) (actions : List OutboxAction) : OutboxState :=
  runFrom (OutboxState.step hashtext) OutboxState.initial actions

theorem outboxInvariant_after (hashtext : Corpus → Int) (actions : List OutboxAction) :
    OutboxInvariant hashtext (outboxAfter hashtext actions) :=
  runFrom_keeps_all (fun _ action h => OutboxInvariant.step h action) outboxInvariant_initial

/-- Whatever the interleaving, the packages of a corpus carry its committed
change rows up to the newest high bound, each once and in order, and a build
that has ended leaves nothing it saw behind. -/
theorem packages_cut_change_log (hashtext : Corpus → Int) (actions : List OutboxAction) (corpus : Corpus) :
    WindowChain 0 0 ((outboxAfter hashtext actions).catalog corpus) ∧
    ((outboxAfter hashtext actions).catalog corpus).flatMap (BuiltPackage.changes corpus) =
      corpusRange (outboxAfter hashtext actions).ledger.committed corpus.name 0
        (latestHigh ((outboxAfter hashtext actions).catalog corpus)) ∧
    ∀ b snapshot, (outboxAfter hashtext actions).builds b = some (.finished corpus snapshot) ∨
        (outboxAfter hashtext actions).builds b = some (.done corpus snapshot) →
      Covered (outboxAfter hashtext actions) corpus snapshot := by
  have h := outboxInvariant_after hashtext actions
  have hchain := h.chains corpus
  refine ⟨hchain.windows, hchain.windows.flatMap_changes h.ledger hchain.seen, ?_⟩
  intro b snapshot hb
  rcases hb with hb | hb
  · exact h.builds b _ hb
  · exact h.builds b _ hb

def documentScope (key : String) : OutboxEvent :=
  .scope "core".toList "documents".toList .upsert "document".toList key.toList

/-- The first writer commits last, and the build's fence waits for it. -/
def lateWriter : List OutboxAction :=
  [.emitFence 1, .emitInsert 1 ⟨[], 24⟩ (documentScope "a"), .emitFence 2,
    .emitInsert 2 ⟨[], 24⟩ (documentScope "b"), .commit 2, .start 7 .baseline coreCorpus, .advance 7, .commit 1,
    .advance 7, .emitFence 3, .advance 7, .advance 7, .emitFence 3, .emitInsert 3 ⟨[], 24⟩ (documentScope "c"),
    .advance 7, .commit 3]

example : ((outboxAfter (fun _ => 0) lateWriter).catalog coreCorpus).flatMap (fun p =>
    (p.changes coreCorpus).map ChangeRow.scopeKey) = ["a".toList, "b".toList] := by decide

end CorpusFeed
