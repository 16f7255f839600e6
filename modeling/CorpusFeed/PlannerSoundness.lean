import CorpusFeed.Planner
import Mathlib.Algebra.Order.BigOperators.Group.List
import Mathlib.Algebra.Order.Ring.Nat

/-! Soundness of the planner's routes: what an incremental chain and a fresh
baseline guarantee about the manifest and the cursor. -/

namespace CorpusFeed

/-- Single-step links from one sequence to another. -/
def LinksTo : Nat → List RemotePackageEntry → Nat → Prop
  | start, [], stop => start = stop
  | start, e :: chain, stop => e.fromSequence = start ∧ e.toSequence = start + 1 ∧ LinksTo (start + 1) chain stop

theorem LinksTo.length {chain : List RemotePackageEntry} {start stop : Nat} (h : LinksTo start chain stop) :
    start + chain.length = stop := by
  induction chain generalizing start with
  | nil => simpa [LinksTo] using h
  | cons e chain ih =>
    have hh := ih h.2.2
    simp only [List.length_cons]
    omega

theorem chainFrom_links {packages : List RemotePackageEntry} {steps current : Nat}
    {chain : List RemotePackageEntry} (h : chainFrom packages steps current = some chain) :
    LinksTo current chain (current + steps) ∧ ∀ e ∈ chain, e ∈ packages := by
  induction steps generalizing current chain with
  | zero =>
    simp only [chainFrom, Option.some.injEq] at h
    subst h
    exact ⟨rfl, by simp⟩
  | succ steps ih =>
    unfold chainFrom at h
    split at h
    · next entry hf =>
      have hmem : entry ∈ packages.filter fun p => p.fromSequence == current := by rw [hf]; exact List.mem_cons_self
      have hentry := List.mem_filter.mp hmem
      have hfrom : entry.fromSequence = current := by simpa using hentry.2
      split at h
      · cases h
      · next hto =>
        have hto : entry.toSequence = current + 1 := not_not.mp hto
        obtain ⟨rest, hrest, rfl⟩ := Option.map_eq_some_iff.mp h
        rw [hto] at hrest
        have hh := ih hrest
        refine ⟨⟨hfrom, hto, ?_⟩, ?_⟩
        · have hsum : current + 1 + steps = current + (steps + 1) := by omega
          exact hsum ▸ hh.1
        · intro e he
          rcases List.mem_cons.mp he with rfl | he
          · exact hentry.1
          · exact hh.2 e he
    · cases h

theorem buildChain_links {manifest : RemoteManifest} {start head : Nat} {chain : List RemotePackageEntry}
    (h : buildChain manifest start head = some chain) :
    LinksTo start chain head ∧ ∀ e ∈ chain, e ∈ manifest.packages := by
  unfold buildChain at h
  split at h
  · cases h
  · next hle =>
    have hh := chainFrom_links h
    have hsum : start + (head - start) = head := by omega
    rwa [hsum] at hh

/-- A chain within the package cap is summed without overflow, so the guard
decides the exact comparison. -/
theorem ratio_exact {sizes : List Nat} {cap baseline permille : Nat} (hcap : sizes.length ≤ cap)
    (hu32 : cap < 2 ^ 32) (hsize : ∀ x ∈ sizes, x ≤ 2 ^ 64) (hb : baseline < 2 ^ 64) (hp : permille < 2 ^ 32) :
    ratioExceeds (sizes.sum % u128Limit) baseline permille = false ↔ sizes.sum * 1000 ≤ baseline * permille := by
  have hsum : sizes.sum ≤ sizes.length * 2 ^ 64 := by
    simpa using List.sum_le_card_nsmul sizes (2 ^ 64) hsize
  have hlen : sizes.length * 2 ^ 64 < 2 ^ 96 := by omega
  have hmod : sizes.sum % u128Limit = sizes.sum := Nat.mod_eq_of_lt (by unfold u128Limit; omega)
  have hprod : baseline * permille ≤ 2 ^ 64 * 2 ^ 32 := Nat.mul_le_mul (Nat.le_of_lt hb) (Nat.le_of_lt hp)
  rw [hmod]
  unfold ratioExceeds
  split
  · next hz =>
    rw [hz, Nat.zero_mul, decide_eq_false_iff_not]
    omega
  · have hleft : saturatingMul sizes.sum 1000 = sizes.sum * 1000 :=
      Nat.min_eq_left (by unfold u128Limit; omega)
    have hright : saturatingMul baseline permille = baseline * permille :=
      Nat.min_eq_left (by unfold u128Limit; omega)
    rw [hleft, hright, decide_eq_false_iff_not, Nat.not_lt]

/-- The limits of the manifest's policy, in exact arithmetic. -/
structure WithinPolicy (manifest : RemoteManifest) (chain : List RemotePackageEntry) : Prop where
  packages : chain.length ≤ manifest.catchupPolicy.maxIncrementalPackages.toNat
  compressed : (chain.map fun e => e.compressedSizeBytes.toNat).sum * 1000 ≤
    manifest.activeBaseline.compressedSizeBytes.toNat *
      manifest.catchupPolicy.maxCumulativeDiffToBaselinePermille.toNat
  uncompressed : (chain.map fun e => e.uncompressedSizeBytes.toNat).sum * 1000 ≤
    manifest.activeBaseline.uncompressedSizeBytes.toNat *
      manifest.catchupPolicy.maxCumulativeUncompressedToBaselinePermille.toNat
  budget : (chain.map fun e => e.estimatedApplySeconds.toNat).sum ≤
    manifest.catchupPolicy.maxApplySecondsBudget.toNat
  load : (chain.map fun e => e.estimatedApplySeconds.toNat).sum ≤
    manifest.activeBaseline.estimatedLoadSeconds.toNat

structure EntrySound (cursor : ClientCursor) (e : RemotePackageEntry) : Prop where
  requires_baseline : e.requiresBaseline = false
  fingerprint : e.embeddingFingerprint = cursor.embeddingFingerprint
  builders : e.builderVersions = cursor.builderVersions
  schema : e.schemaVersion ≤ currentSchemaVersion
  version : clientVersion.satisfiesMinimum e.minimumClientVersion = true

/-- The baseline is not preferred exactly when every entry is of the cursor's
making and the chain is within the policy. -/
theorem preferBaseline_eq_false_iff {manifest : RemoteManifest} {cursor : ClientCursor}
    {chain : List RemotePackageEntry} : preferBaseline manifest cursor chain = false ↔
      (∀ e ∈ chain, e.requiresBaseline = false ∧ e.embeddingFingerprint = cursor.embeddingFingerprint ∧
        e.builderVersions = cursor.builderVersions) ∧ WithinPolicy manifest chain := by
  simp only [preferBaseline, Bool.or_eq_false_iff, List.any_eq_false, decide_eq_false_iff_not, Nat.not_lt,
    bne_eq_false_iff_eq, Bool.not_eq_true]
  have hcap := manifest.catchupPolicy.maxIncrementalPackages.toNat_lt
  have hu64 : ∀ (f : RemotePackageEntry → UInt64), ∀ x ∈ chain.map fun e => (f e).toNat, x ≤ 2 ^ 64 := by
    intro f x hx
    obtain ⟨e, _, rfl⟩ := List.mem_map.mp hx
    exact Nat.le_of_lt (f e).toNat_lt
  have hu32 : ∀ x ∈ chain.map fun e => e.estimatedApplySeconds.toNat, x ≤ 2 ^ 32 - 1 := by
    intro x hx
    obtain ⟨e, _, rfl⟩ := List.mem_map.mp hx
    have hlt := e.estimatedApplySeconds.toNat_lt
    omega
  have hsecs : (chain.map fun e => e.estimatedApplySeconds.toNat).sum ≤ chain.length * (2 ^ 32 - 1) := by
    simpa using List.sum_le_card_nsmul _ _ hu32
  have hmod : chain.length ≤ manifest.catchupPolicy.maxIncrementalPackages.toNat →
      (chain.map fun e => e.estimatedApplySeconds.toNat).sum % 2 ^ 64 =
        (chain.map fun e => e.estimatedApplySeconds.toNat).sum := by
    intro hlen
    refine Nat.mod_eq_of_lt ?_
    have hmul : chain.length * (2 ^ 32 - 1) ≤ (2 ^ 32 - 1) * (2 ^ 32 - 1) := Nat.mul_le_mul_right _ (by omega)
    omega
  have hcompressed : chain.length ≤ manifest.catchupPolicy.maxIncrementalPackages.toNat → _ := fun hlen =>
    ratio_exact (by simpa using hlen) hcap (hu64 RemotePackageEntry.compressedSizeBytes)
      manifest.activeBaseline.compressedSizeBytes.toNat_lt
      manifest.catchupPolicy.maxCumulativeDiffToBaselinePermille.toNat_lt
  have huncompressed : chain.length ≤ manifest.catchupPolicy.maxIncrementalPackages.toNat → _ := fun hlen =>
    ratio_exact (by simpa using hlen) hcap (hu64 RemotePackageEntry.uncompressedSizeBytes)
      manifest.activeBaseline.uncompressedSizeBytes.toNat_lt
      manifest.catchupPolicy.maxCumulativeUncompressedToBaselinePermille.toNat_lt
  constructor
  · rintro ⟨⟨⟨⟨⟨⟨hreq, hfp⟩, hlen⟩, hcomp⟩, huncomp⟩, hbudget⟩, hload⟩
    rw [hmod hlen] at hbudget hload
    exact ⟨fun e he => ⟨hreq e he, hfp e he⟩, hlen, (hcompressed hlen).mp hcomp,
      (huncompressed hlen).mp huncomp, hbudget, hload⟩
  · rintro ⟨hentries, hlen, hcomp, huncomp, hbudget, hload⟩
    rw [hmod hlen]
    exact ⟨⟨⟨⟨⟨⟨fun e he => (hentries e he).1, fun e he => (hentries e he).2⟩, hlen⟩,
      (hcompressed hlen).mpr hcomp⟩, (huncompressed hlen).mpr huncomp⟩, hbudget⟩, hload⟩

theorem baselineCompatOrBlocked_fresh {baseline b : BaselineRef}
    (h : baselineCompatOrBlocked baseline = .freshBaseline b) : b = baseline := by
  unfold baselineCompatOrBlocked at h
  split at h
  · cases h
  split at h
  · cases h
  · cases h
    rfl

theorem installedBaselineOrBlocked_fresh {baseline b : BaselineRef} {cursor : ClientCursor}
    (h : installedBaselineOrBlocked baseline cursor = .freshBaseline b) :
    b = baseline ∧ baseline.packageKind = .rebaseline ∧ cursor.sequence < baseline.sequence := by
  unfold installedBaselineOrBlocked at h
  split at h
  · cases h
  next hk =>
  split at h
  · cases h
  next hs =>
  exact ⟨baselineCompatOrBlocked_fresh h, not_not.mp hk, by omega⟩

theorem installedBaselineOrBlocked_ne_incremental {baseline : BaselineRef} {cursor : ClientCursor}
    {chain : List RemotePackageEntry} : installedBaselineOrBlocked baseline cursor ≠ .incremental chain := by
  unfold installedBaselineOrBlocked baselineCompatOrBlocked
  repeat' split
  all_goals simp

theorem routeChain_incremental {manifest : RemoteManifest} {cursor : ClientCursor}
    {chain chain' : List RemotePackageEntry} (h : routeChain manifest cursor chain = .incremental chain') :
    chain' = chain ∧ (∀ e ∈ chain, EntrySound cursor e) ∧ WithinPolicy manifest chain ∧
      requiresBaselineRange manifest cursor.sequence = false := by
  unfold routeChain at h
  dsimp only at h
  split at h
  · exact absurd h installedBaselineOrBlocked_ne_incremental
  next hrange =>
  split at h
  · cases h
  next hversion =>
  split at h
  · split at h
    · exact absurd h installedBaselineOrBlocked_ne_incremental
    · cases h
  next hschema =>
  split at h
  · exact absurd h installedBaselineOrBlocked_ne_incremental
  next hprefer =>
  cases h
  have hp := preferBaseline_eq_false_iff.mp (Bool.not_eq_true _ ▸ hprefer)
  refine ⟨rfl, fun e he => ?_, hp.2, Bool.not_eq_true _ ▸ hrange⟩
  have hv := List.find?_eq_none.mp hversion e he
  have hs := List.find?_eq_none.mp hschema e he
  obtain ⟨hreq, hfp, hb⟩ := hp.1 e he
  exact ⟨hreq, hfp, hb, by simpa using hs, by simpa using hv⟩

theorem routeChain_fresh {manifest : RemoteManifest} {cursor : ClientCursor}
    {chain : List RemotePackageEntry} {b : BaselineRef} (h : routeChain manifest cursor chain = .freshBaseline b) :
    b = manifest.activeBaseline ∧ manifest.activeBaseline.packageKind = .rebaseline ∧
      cursor.sequence < manifest.activeBaseline.sequence := by
  unfold routeChain at h
  dsimp only at h
  split at h
  · exact installedBaselineOrBlocked_fresh h
  split at h
  · cases h
  split at h
  · split at h
    · exact installedBaselineOrBlocked_fresh h
    · cases h
  split at h
  · exact installedBaselineOrBlocked_fresh h
  · cases h

structure IncrementalSound (manifest : RemoteManifest) (cursor : ClientCursor)
    (chain : List RemotePackageEntry) : Prop where
  nonempty : chain ≠ []
  links : LinksTo cursor.sequence chain manifest.headSequence
  listed : ∀ e ∈ chain, e ∈ manifest.packages
  entries : ∀ e ∈ chain, EntrySound cursor e
  policy : WithinPolicy manifest chain

theorem planCatchup_incremental {manifest : RemoteManifest} {cursor : Option ClientCursor}
    {chain : List RemotePackageEntry} (h : planCatchup manifest cursor = .incremental chain) :
    ∃ c, cursor = some c ∧ IncrementalSound manifest c chain := by
  unfold planCatchup at h
  dsimp only at h
  split at h
  · cases h
  split at h
  · unfold baselineCompatOrBlocked at h
    repeat' split at h
    all_goals cases h
  next c =>
  split at h
  · cases h
  next hne =>
  split at h
  · cases h
  next hle =>
  split at h
  · exact absurd h installedBaselineOrBlocked_ne_incremental
  split at h
  · exact absurd h installedBaselineOrBlocked_ne_incremental
  next built hbuilt =>
  obtain ⟨rfl, hentries, hpolicy, _⟩ := routeChain_incremental h
  obtain ⟨hlinks, hlisted⟩ := buildChain_links hbuilt
  refine ⟨c, rfl, ?_, hlinks, hlisted, hentries, hpolicy⟩
  intro hnil
  subst hnil
  have hlen := hlinks.length
  simp only [List.length_nil] at hlen
  omega

theorem planCatchup_fresh {manifest : RemoteManifest} {cursor : ClientCursor} {b : BaselineRef}
    (h : planCatchup manifest (some cursor) = .freshBaseline b) :
    b = manifest.activeBaseline ∧ b.packageKind = .rebaseline ∧ cursor.sequence < b.sequence ∧
      b.sequence ≤ manifest.headSequence := by
  unfold planCatchup at h
  dsimp only at h
  split at h
  · cases h
  next hhead =>
  have hfresh : b = manifest.activeBaseline ∧ manifest.activeBaseline.packageKind = .rebaseline ∧
      cursor.sequence < manifest.activeBaseline.sequence := by
    split at h
    · cases h
    split at h
    · cases h
    split at h
    · exact installedBaselineOrBlocked_fresh h
    split at h
    · exact installedBaselineOrBlocked_fresh h
    · exact routeChain_fresh h
  obtain ⟨rfl, hk, hs⟩ := hfresh
  exact ⟨rfl, hk, hs, by omega⟩

theorem planCatchup_fresh_sequence {manifest : RemoteManifest} {cursor : Option ClientCursor} {b : BaselineRef}
    (h : planCatchup manifest cursor = .freshBaseline b) : b = manifest.activeBaseline := by
  cases cursor with
  | none =>
    unfold planCatchup at h
    dsimp only at h
    split at h
    · cases h
    · exact baselineCompatOrBlocked_fresh h
  | some c => exact (planCatchup_fresh h).1

/-- A cursor at the baseline's sequence is never routed to a baseline again. -/
theorem planCatchup_not_fresh_again {manifest : RemoteManifest} {cursor : Option ClientCursor}
    {after : ClientCursor} {b : BaselineRef} (h : planCatchup manifest cursor = .freshBaseline b)
    (hs : after.sequence = b.sequence) (b' : BaselineRef) :
    planCatchup manifest (some after) ≠ .freshBaseline b' := by
  intro h'
  have hb := planCatchup_fresh_sequence h
  obtain ⟨hb', _, hlt, _⟩ := planCatchup_fresh h'
  rw [hs, hb', hb] at hlt
  omega

theorem baselineCompatOrBlocked_ne_upToDate (baseline : BaselineRef) :
    baselineCompatOrBlocked baseline ≠ .upToDate := by
  rw [baselineCompatOrBlocked]
  split
  · simp
  · split <;> simp

theorem installedBaselineOrBlocked_ne_upToDate (baseline : BaselineRef) (cursor : ClientCursor) :
    installedBaselineOrBlocked baseline cursor ≠ .upToDate := by
  rw [installedBaselineOrBlocked]
  split
  · simp
  split
  · simp
  · exact baselineCompatOrBlocked_ne_upToDate baseline

theorem routeChain_ne_upToDate (manifest : RemoteManifest) (cursor : ClientCursor) (chain : List RemotePackageEntry) :
    routeChain manifest cursor chain ≠ .upToDate := by
  have hfallback := installedBaselineOrBlocked_ne_upToDate manifest.activeBaseline cursor
  rw [routeChain]
  split
  · exact hfallback
  split
  · simp
  split
  · split
    · exact hfallback
    · simp
  · split
    · exact hfallback
    · simp

theorem planCatchup_upToDate {manifest : RemoteManifest} {cursor : Option ClientCursor} (h : planCatchup manifest cursor = .upToDate) :
    cursor.map ClientCursor.sequence = some manifest.headSequence := by
  unfold planCatchup at h
  dsimp only at h
  split at h
  · cases h
  cases cursor with
  | none => exact absurd h (baselineCompatOrBlocked_ne_upToDate _)
  | some cursor =>
    dsimp only at h
    split at h
    next hhead => rw [Option.map_some, hhead]
    split at h
    · cases h
    split at h
    · exact absurd h (installedBaselineOrBlocked_ne_upToDate _ _)
    split at h
    · exact absurd h (installedBaselineOrBlocked_ne_upToDate _ _)
    · exact absurd h (routeChain_ne_upToDate _ _ _)

end CorpusFeed
