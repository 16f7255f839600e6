import CorpusFeed.ManifestBuild
import CorpusFeed.PlannerSoundness

/-! Catalog chains: a first baseline and then incrementals and re-baselines one
by one, and what the manifest builder retains of them. -/

namespace CorpusFeed

/-- The row's package is served with the identity the builders give it. -/
structure ServedAs (root : ServedRoot) (row : CatalogRow) (n : Nat) : Prop where
  sequence : row.packageSequence = n
  artifact : ∃ dir signed, root.publishedPackageDir row.packageId = some dir ∧ dir.manifest = .whole signed ∧
    signed.payload.identity.toSequence = n ∧
    signed.payload.compatibility.embeddingFingerprint = row.embeddingFingerprint ∧
    signed.payload.compatibility.builderVersions = row.builderVersions

def CatalogRow.SameStamps (row row' : CatalogRow) : Prop :=
  row.embeddingFingerprint = row'.embeddingFingerprint ∧ row.builderVersions = row'.builderVersions

/-- The catalogs a producer can build: only a re-baseline changes the stamps. -/
inductive CatalogChain (root : ServedRoot) : List CatalogRow → Prop where
  | first {row : CatalogRow} : row.packageKind = .baseline → ServedAs root row 1 → CatalogChain root [row]
  | rebaseline {rows : List CatalogRow} {last row : CatalogRow} {n : Nat} :
    CatalogChain root (rows ++ [last]) → last.packageSequence = n → row.packageKind = .rebaseline →
    ServedAs root row (n + 1) → CatalogChain root (rows ++ [last] ++ [row])
  | incremental {rows : List CatalogRow} {last row : CatalogRow} {n : Nat} :
    CatalogChain root (rows ++ [last]) → last.packageSequence = n → row.packageKind = .incremental →
    ServedAs root row (n + 1) → row.SameStamps last → CatalogChain root (rows ++ [last] ++ [row])

/-- Consecutive incrementals over a media root at `n`. -/
def Increments (root : ServedRoot) (media : CatalogRow) : Nat → List CatalogRow → Prop
  | _, [] => True
  | n, row :: rows => row.packageKind = .incremental ∧ ServedAs root row (n + 1) ∧ row.SameStamps media ∧
    Increments root media (n + 1) rows

theorem Increments.concat {root : ServedRoot} {media row : CatalogRow} {rows : List CatalogRow} {n : Nat}
    (h : Increments root media n rows) (hk : row.packageKind = .incremental)
    (hs : ServedAs root row (n + rows.length + 1)) (hm : row.SameStamps media) :
    Increments root media n (rows ++ [row]) := by
  induction rows generalizing n with
  | nil => exact ⟨hk, hs, hm, trivial⟩
  | cons r rows ih =>
    obtain ⟨hkind, hserved, hstamps, hrest⟩ := h
    have hlen : n + (r :: rows).length + 1 = n + 1 + rows.length + 1 := by
      simp only [List.length_cons]
      omega
    exact ⟨hkind, hserved, hstamps, ih hrest (hlen ▸ hs)⟩

theorem Increments.kind {root : ServedRoot} {media : CatalogRow} {rows : List CatalogRow} {n : Nat}
    (h : Increments root media n rows) : ∀ r ∈ rows, r.packageKind = .incremental := by
  induction rows generalizing n with
  | nil => simp
  | cons r rows ih =>
    intro s hs
    rcases List.mem_cons.mp hs with rfl | hs
    · exact h.1
    · exact ih h.2.2.2 s hs

theorem Increments.drop {root : ServedRoot} {media : CatalogRow} {rows : List CatalogRow} {n : Nat}
    (h : Increments root media n rows) {d : Nat} (hd : d ≤ rows.length) :
    Increments root media (n + d) (rows.drop d) := by
  induction d generalizing rows n with
  | zero => exact h
  | succ d ih =>
    cases rows with
    | nil => simp at hd
    | cons r rows =>
      have hsum : n + (d + 1) = n + 1 + d := by omega
      rw [hsum]
      exact ih h.2.2.2 (by simpa using hd)

/-- A chain seen from its newest media root. -/
structure ChainSplit (root : ServedRoot) (rows pre : List CatalogRow) (media : CatalogRow)
    (increments : List CatalogRow) (n : Nat) : Prop where
  rows_eq : rows = pre ++ media :: increments
  is_media : media.packageKind.isMedia = true
  served : ServedAs root media n
  links : Increments root media n increments
  last : ∃ last, rows.getLast? = some last ∧ last.packageSequence = (n + increments.length : Nat) ∧
    last.SameStamps media

theorem CatalogChain.split {root : ServedRoot} {rows : List CatalogRow} (h : CatalogChain root rows) :
    ∃ pre media increments n, ChainSplit root rows pre media increments n := by
  induction h with
  | @first row hk hs =>
    exact ⟨[], row, [], 1, rfl, by rw [hk]; rfl, hs, trivial, row, rfl, hs.sequence, rfl, rfl⟩
  | @rebaseline rows last row n _ _ hk hs _ =>
    refine ⟨rows ++ [last], row, [], n + 1, rfl, by rw [hk]; rfl, hs, trivial, row, ?_, hs.sequence, rfl, rfl⟩
    simp
  | @incremental rows last row n _ hn hk hs hstamps ih =>
    obtain ⟨pre, media, increments, m, hrows, hmedia, hserved, hincs, last', hlast, hseq, hsame⟩ := ih
    rw [List.getLast?_concat, Option.some.injEq] at hlast
    subst hlast
    have hsum : n = m + increments.length := by
      rw [hn] at hseq
      exact_mod_cast hseq
    have hstamps' : row.SameStamps media := ⟨hstamps.1.trans hsame.1, hstamps.2.trans hsame.2⟩
    refine ⟨pre, media, increments ++ [row], m, by simp [hrows], hmedia, hserved,
      hincs.concat hk (hsum ▸ hs) hstamps', row, by simp, ?_, hstamps'⟩
    rw [hs.sequence, hsum, List.length_append]
    rfl

/-- The packages newer than the newest media root. -/
def chainAfterRoot (catalog : Catalog) : List CatalogRow :=
  catalog.rows.reverse.takeWhile fun r => !r.packageKind.isMedia

theorem retainedIncrementals_split {catalog : Catalog} {pre increments : List CatalogRow} {media : CatalogRow}
    (hrows : catalog.rows = pre ++ media :: increments) (hroot : media.packageKind.isMedia = true)
    (hkind : ∀ r ∈ increments, r.packageKind = .incremental) (limit : Nat) :
    retainedIncrementals catalog.rows media.packageSequence limit =
      increments.drop (increments.length - limit) := by
  have hordered := catalog.ordered
  rw [hrows] at hordered
  obtain ⟨_, hright, hcross⟩ := List.pairwise_append.mp hordered
  obtain ⟨hmedia, hincs⟩ := List.pairwise_cons.mp hright
  have hpre : pre.filter (fun r => r.packageKind == .incremental &&
      decide (media.packageSequence < r.packageSequence)) = [] := by
    refine List.filter_eq_nil_iff.mpr fun r hr => ?_
    have hlt := (hcross r hr media List.mem_cons_self).1
    simp only [Bool.and_eq_true, decide_eq_true_eq, not_and, not_lt]
    omega
  have hkeep : increments.filter (fun r => r.packageKind == .incremental &&
      decide (media.packageSequence < r.packageSequence)) = increments := by
    refine List.filter_eq_self.mpr fun r hr => ?_
    simp [hkind r hr, (hmedia r hr).1]
  have hnot : (media.packageKind == PackageKind.incremental) = false := by
    cases hk : media.packageKind <;> simp [hk, PackageKind.isMedia] at hroot ⊢
  have hsorted : increments.insertionSort (fun a b => a.packageSequence ≤ b.packageSequence) = increments :=
    (hincs.imp fun hlt => Int.le_of_lt hlt.1).insertionSort_eq
  rw [retainedIncrementals, hrows, List.filter_append, List.filter_cons, hpre, hkeep]
  simp [hnot, hsorted]

section Split

variable {root : ServedRoot} {catalog : Catalog} {pre increments : List CatalogRow} {media : CatalogRow} {n : Nat}

theorem ChainSplit.not_media (h : ChainSplit root catalog.rows pre media increments n) :
    ∀ r ∈ increments, r.packageKind.isMedia = false := by
  intro r hr
  rw [h.links.kind r hr]
  rfl

theorem ChainSplit.latestMedia (h : ChainSplit root catalog.rows pre media increments n) :
    catalog.latestMediaPackage = some media := by
  have hnone : increments.reverse.find? (fun r => r.packageKind.isMedia) = none :=
    List.find?_eq_none.mpr fun r hr => by simp [h.not_media r (List.mem_reverse.mp hr)]
  rw [Catalog.latestMediaPackage, h.rows_eq, List.reverse_append, List.reverse_cons, List.append_assoc,
    List.find?_append, hnone]
  simp [h.is_media]

theorem ChainSplit.chainAfterRoot_length (h : ChainSplit root catalog.rows pre media increments n) :
    (chainAfterRoot catalog).length = increments.length := by
  have htake : chainAfterRoot catalog = increments.reverse := by
    rw [chainAfterRoot, h.rows_eq, List.reverse_append, List.reverse_cons, List.append_assoc,
      List.takeWhile_append_of_pos (fun r hr => by simp [h.not_media r (List.mem_reverse.mp hr)])]
    simp [h.is_media]
  rw [htake, List.length_reverse]

theorem ChainSplit.retained (h : ChainSplit root catalog.rows pre media increments n) (limit : Nat) :
    retainedIncrementals catalog.rows media.packageSequence limit =
      increments.drop (increments.length - limit) :=
  retainedIncrementals_split h.rows_eq h.is_media h.links.kind limit

end Split

theorem verifyCatalogIdentity_incremental {env : ProducerEnv} {row : CatalogRow}
    {signed : Signed EmbeddedManifest} (h : verifyCatalogIdentity env row signed true = .ok ()) :
    signed.payload.identity.toSequence = signed.payload.identity.fromSequence + 1 := by
  simp only [verifyCatalogIdentity, rejectIf_ok] at h
  simpa using h.2.2.2.2.2.2.2.2.1

/-- A listed entry and the row it stands for. -/
def ListedAs (env : ProducerEnv) (params : RemoteManifestParams) (corpus : Corpus) (root : ServedRoot)
    (row : CatalogRow) (entry : RemotePackageEntry) : Prop :=
  ∃ dir signed, readPublishedManifest root row.packageId = .ok (dir, signed) ∧
    verifyCatalogIdentity env row signed true = .ok () ∧ entry = retainedEntry env params corpus row dir signed

theorem bind_eq_ok {ε : Type*} {β γ : Type} {x : Except ε β} {f : β → Except ε γ} {c : γ} :
    x >>= f = .ok c ↔ ∃ b, x = .ok b ∧ f b = .ok c := by
  cases x with
  | error e => simp [bind, Except.bind]
  | ok b => simp [bind, Except.bind]

theorem retainedEntries_listed {env : ProducerEnv} {params : RemoteManifestParams} {corpus : Corpus}
    {root : ServedRoot} {rows : List CatalogRow} {entries : List RemotePackageEntry}
    (h : retainedEntries env params corpus root rows = .ok entries) :
    List.Forall₂ (ListedAs env params corpus root) rows entries := by
  induction rows generalizing entries with
  | nil =>
    cases h
    exact List.Forall₂.nil
  | cons row rows ih =>
    obtain ⟨⟨dir, signed⟩, hread, h⟩ := bind_eq_ok.mp h
    obtain ⟨_, hverify, h⟩ := bind_eq_ok.mp h
    obtain ⟨rest, hrest, h⟩ := bind_eq_ok.mp h
    cases h
    exact List.Forall₂.cons ⟨dir, signed, hread, hverify, rfl⟩ (ih hrest)

theorem readPublishedManifest_ok {root : ServedRoot} {packageId : Text} {dir : ArtifactDir}
    {signed : Signed EmbeddedManifest} (h : readPublishedManifest root packageId = .ok (dir, signed)) :
    root.publishedPackageDir packageId = some dir ∧ dir.manifest = .whole signed := by
  unfold readPublishedManifest at h
  split at h
  · cases h
  next dir' hdir =>
  split at h
  · cases h
  · cases h
  next signed' hwhole =>
  cases h
  exact ⟨hdir, hwhole⟩

theorem ServedAs.of_read {root : ServedRoot} {row : CatalogRow} {n : Nat} {dir : ArtifactDir}
    {signed : Signed EmbeddedManifest} (h : ServedAs root row n)
    (hread : readPublishedManifest root row.packageId = .ok (dir, signed)) :
    signed.payload.identity.toSequence = n ∧
      signed.payload.compatibility.embeddingFingerprint = row.embeddingFingerprint ∧
      signed.payload.compatibility.builderVersions = row.builderVersions := by
  obtain ⟨hdir, hwhole⟩ := readPublishedManifest_ok hread
  obtain ⟨dir', signed', hdir', hwhole', hto, hfp, hbv⟩ := h.artifact
  rw [hdir] at hdir'
  cases hdir'
  rw [hwhole] at hwhole'
  cases hwhole'
  exact ⟨hto, hfp, hbv⟩

/-- Listed increments link one by one and carry the stamps of their root. -/
theorem Increments.listed_links {env : ProducerEnv} {params : RemoteManifestParams} {corpus : Corpus}
    {root : ServedRoot} {media : CatalogRow} {rows : List CatalogRow} {entries : List RemotePackageEntry} {n : Nat}
    (h : Increments root media n rows) (hlisted : List.Forall₂ (ListedAs env params corpus root) rows entries) :
    LinksTo n entries (n + rows.length) ∧ ∀ e ∈ entries, e.requiresBaseline = false ∧
      e.embeddingFingerprint = media.embeddingFingerprint ∧ e.builderVersions = media.builderVersions := by
  induction hlisted generalizing n with
  | nil => exact ⟨rfl, by simp⟩
  | @cons row entry rows entries hentry _ ih =>
    obtain ⟨_, hserved, hstamps, hrest⟩ := h
    obtain ⟨dir, signed, hread, hverify, rfl⟩ := hentry
    obtain ⟨hto, hfp, hbv⟩ := hserved.of_read hread
    have hone := verifyCatalogIdentity_incremental hverify
    obtain ⟨hlinks, hmembers⟩ := ih hrest
    have hlen : n + (row :: rows).length = n + 1 + rows.length := by
      simp only [List.length_cons]
      omega
    rw [hlen]
    refine ⟨⟨?_, hto, hlinks⟩, ?_⟩
    · have hfrom : signed.payload.identity.fromSequence = n := by omega
      exact hfrom
    · intro e he
      rcases List.mem_cons.mp he with rfl | he
      · exact ⟨rfl, hfp.trans hstamps.1, hbv.trans hstamps.2⟩
      · exact hmembers e he

end CorpusFeed
