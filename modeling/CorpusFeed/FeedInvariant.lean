import CorpusFeed.ProducerCycle
import CorpusFeed.FeedChain

/-! The invariant of a producer's feed: numbered catalog rows, served artifacts
that match their rows, at most one row that waits in the staging slot, and a
remote manifest that lists served rows only. -/

namespace CorpusFeed

/-- The artifact passes the checks that the manifest builder makes for its row. -/
structure MatchesRow (env : ProducerEnv) (row : CatalogRow) (signed : Signed EmbeddedManifest) : Prop where
  verified : verifyCatalogIdentity env row signed (row.packageKind == .incremental) = .ok ()
  sequence : (signed.payload.identity.toSequence : Int) = row.packageSequence

def ServedRow (env : ProducerEnv) (root : ServedRoot) (row : CatalogRow) : Prop :=
  ∃ dir signed, root.publishedPackageDir row.packageId = some dir ∧ dir.manifest = .whole signed ∧
    MatchesRow env row signed

/-- Rows after the first `n`, each with the id of its sequence. -/
def Numbered (corpus : Corpus) : Nat → List CatalogRow → Prop
  | _, [] => True
  | n, row :: rows => row.packageSequence = (n + 1 : Nat) ∧ (row.packageKind = .baseline ↔ n = 0) ∧
    row.packageId = packageIdOf corpus (max n 1) (n + 1) ∧
    (generationCounterOf corpus.name row.generation).isSome = true ∧ Numbered corpus (n + 1) rows

/-- The slot holds the artifact of the row. -/
def StagedFor (env : ProducerEnv) (s : FeedState) (row : CatalogRow) : Prop :=
  ∃ dir signed, s.root.pending = some dir ∧ dir.manifest = .whole signed ∧
    signed.payload.identity.packageId = row.packageId ∧ MatchesRow env row signed

/-- Every artifact that the remote manifest points to is served and matches a
published row. -/
structure RemoteServed (env : ProducerEnv) (corpus : Corpus) (s : FeedState) (manifest : RemoteManifest) : Prop where
  baseline : ∃ params, ∃ row ∈ s.catalog, row.status = .published ∧ ServedRow env s.root row ∧
    manifest.activeBaseline.artifactUri = artifactUri params corpus row.packageId
  packages : ∀ e ∈ manifest.packages, ∃ params, ∃ row ∈ s.catalog, row.status = .published ∧
    ServedRow env s.root row ∧ e.packageId = row.packageId ∧ e.artifactUri = artifactUri params corpus row.packageId

/-- Directories that `base` serves are still served, unchanged. `dropped` is the
id of a served package whose row was deleted. -/
structure FeedInvariant (env : ProducerEnv) (corpus : Corpus) (base : ServedRoot) (dropped : Option Text)
    (s : FeedState) : Prop where
  kept : ∀ packageId dir, base.publishedPackageDir packageId = some dir →
    s.root.publishedPackageDir packageId = some dir
  nonempty : s.catalog.rows ≠ []
  numbered : Numbered corpus 0 s.catalog.rows
  rows : ∀ row ∈ s.catalog, row.status = .published ∧ ServedRow env s.root row ∨
    row.status = .built ∧ s.catalog.latestPackage = some row ∧ StagedFor env s row
  catalogued : ∀ packageId dir, s.root.publishedPackageDir packageId = some dir →
    dropped = some packageId ∨ ∃ row ∈ s.catalog, row.packageId = packageId ∧ ServedRow env s.root row
  staged : ∀ dir signed, s.root.pending = some dir → dir.manifest = .whole signed → ∀ row ∈ s.catalog,
    row.packageId = signed.payload.identity.packageId → MatchesRow env row signed
  remote : ∀ m, s.root.manifest = some m → RemoteServed env corpus s m.payload

/-- Nothing waits to be published. -/
structure Settled (env : ProducerEnv) (corpus : Corpus) (base : ServedRoot) (dropped : Option Text)
    (s : FeedState) : Prop extends FeedInvariant env corpus base dropped s where
  published : ∀ row ∈ s.catalog, row.status = .published

theorem packageIdOf_stop_inj {corpus : Corpus} {a b a' b' : Nat}
    (h : packageIdOf corpus a b = packageIdOf corpus a' b') : b = b' := by
  have hno : ∀ n, '-' ∉ padDecimal 1 n := fun n hk => by simpa using isDigit_of_mem_padDecimal hk
  have hcut : (corpus.name ++ "-".toList ++ padDecimal 1 a) ++ '-' :: padDecimal 1 b =
      (corpus.name ++ "-".toList ++ padDecimal 1 a') ++ '-' :: padDecimal 1 b' := by
    simpa [packageIdOf] using h
  exact padDecimal_injective 1 (stem_suffix_unique (hno b) (hno b') hcut).2

section Numbering

variable {corpus : Corpus} {rows : List CatalogRow} {n : Nat}

theorem Numbered.concat {row : CatalogRow} (h : Numbered corpus n rows)
    (hrow : Numbered corpus (n + rows.length) [row]) : Numbered corpus n (rows ++ [row]) := by
  induction rows generalizing n with
  | nil => exact hrow
  | cons r rows ih =>
    obtain ⟨hseq, hkind, hid, hgen, hrest⟩ := h
    have hlen : n + (r :: rows).length = n + 1 + rows.length := by
      simp only [List.length_cons]
      omega
    exact ⟨hseq, hkind, hid, hgen, ih hrest (hlen ▸ hrow)⟩

theorem Numbered.mem {row : CatalogRow} (h : Numbered corpus n rows) (hr : row ∈ rows) :
    ∃ k, n < k ∧ k ≤ n + rows.length ∧ row.packageSequence = k ∧
      row.packageId = packageIdOf corpus (max (k - 1) 1) k ∧
      (generationCounterOf corpus.name row.generation).isSome = true := by
  induction rows generalizing n with
  | nil => cases hr
  | cons r rows ih =>
    obtain ⟨hseq, _, hid, hgen, hrest⟩ := h
    rcases List.mem_cons.mp hr with rfl | hr
    · exact ⟨n + 1, by omega, by simp only [List.length_cons]; omega, hseq, hid, hgen⟩
    · obtain ⟨k, hlow, hhigh, hk⟩ := ih hrest hr
      exact ⟨k, by omega, by simp only [List.length_cons]; omega, hk⟩

theorem Numbered.exists_sequence (h : Numbered corpus n rows) {k : Nat} (hlow : n < k)
    (hhigh : k ≤ n + rows.length) : ∃ row ∈ rows, row.packageSequence = k := by
  induction rows generalizing n with
  | nil =>
    simp only [List.length_nil] at hhigh
    omega
  | cons r rows ih =>
    obtain ⟨hseq, _, _, _, hrest⟩ := h
    by_cases hk : k = n + 1
    · exact ⟨r, List.mem_cons_self, hk ▸ hseq⟩
    · simp only [List.length_cons] at hhigh
      obtain ⟨row, hr, hrow⟩ := ih hrest (by omega) (by omega)
      exact ⟨row, List.mem_cons_of_mem r hr, hrow⟩

theorem Numbered.last {row : CatalogRow} (h : Numbered corpus n rows) (hl : rows.getLast? = some row) :
    row.packageSequence = (n + rows.length : Nat) := by
  induction rows generalizing n with
  | nil => cases hl
  | cons r rows ih =>
    obtain ⟨hseq, _, _, _, hrest⟩ := h
    cases rows with
    | nil =>
      rw [List.getLast?_singleton, Option.some.injEq] at hl
      rw [← hl, hseq]
      rfl
    | cons r' rows =>
      rw [List.getLast?_cons_cons] at hl
      rw [ih hrest hl]
      simp only [List.length_cons]
      omega

theorem Numbered.map {f : CatalogRow → CatalogRow} (h : Numbered corpus n rows)
    (hf : ∀ r, (f r).packageSequence = r.packageSequence ∧ (f r).packageKind = r.packageKind ∧
      (f r).packageId = r.packageId ∧ (f r).generation = r.generation) : Numbered corpus n (rows.map f) := by
  induction rows generalizing n with
  | nil => trivial
  | cons r rows ih =>
    obtain ⟨hseq, hkind, hid, hgen, hrest⟩ := h
    obtain ⟨fseq, fkind, fid, fgen⟩ := hf r
    exact ⟨fseq ▸ hseq, fkind ▸ hkind, fid ▸ hid, fgen ▸ hgen, ih hrest⟩

end Numbering

namespace Catalog

variable {corpus : Corpus} {c c' : Catalog}

theorem fresh_id (h : Numbered corpus 0 c.rows) (start : Nat) :
    ∀ r ∈ c.rows, r.packageId ≠ packageIdOf corpus start (c.rows.length + 1) := by
  intro r hr heq
  obtain ⟨k, _, hhigh, _, hid, _⟩ := h.mem hr
  have hstop := packageIdOf_stop_inj (hid.symm.trans heq)
  omega

theorem place_last (c : Catalog) (row : CatalogRow) (hid : ∀ r ∈ c.rows, r.packageId ≠ row.packageId)
    (hseq : ∀ r ∈ c.rows, r.packageSequence < row.packageSequence) : (c.place row hid).rows = c.rows ++ [row] := by
  have hbelow : c.rows.filter (fun r => r.packageSequence < row.packageSequence) = c.rows :=
    List.filter_eq_self.mpr fun r hr => by simpa using hseq r hr
  have habove : c.rows.filter (fun r => row.packageSequence < r.packageSequence) = [] := by
    refine List.filter_eq_nil_iff.mpr fun r hr => ?_
    have hlt := hseq r hr
    simp only [decide_eq_true_eq]
    omega
  simp only [place, hbelow, habove]

/-- The next row of a numbered catalog goes to its end, or is refused when its
sequence no longer fits. -/
theorem insert_next (h : Numbered corpus 0 c.rows) {row : CatalogRow} {start : Nat}
    (hid : row.packageId = packageIdOf corpus start (c.rows.length + 1))
    (hseq : row.packageSequence = saturateI64 (c.rows.length + 1)) :
    (c.insertPackageCatalogRow row = .error
        (.storage (.postgresClient "duplicate key value violates unique constraint")) ∧
      2 ^ 63 ≤ c.rows.length + 1) ∨
      (c.rows.length + 1 < 2 ^ 63 ∧ ∃ c', c.insertPackageCatalogRow row = .ok c' ∧ c'.rows = c.rows ++ [row]) := by
  have hfresh : ∀ r ∈ c.rows, r.packageId ≠ row.packageId := fun r hr => hid ▸ fresh_id h start r hr
  have hnone : (c.rows.find? fun r => r.packageId = row.packageId) = none :=
    List.find?_eq_none.mpr fun r hr => by simpa using hfresh r hr
  unfold saturateI64 at hseq
  by_cases hroom : c.rows.length + 1 < 2 ^ 63
  · have hlt : ∀ r ∈ c.rows, r.packageSequence < row.packageSequence := by
      intro r hr
      obtain ⟨k, _, hhigh, hk, _⟩ := h.mem hr
      omega
    have hno : (c.rows.any fun r => r.packageSequence == row.packageSequence) = false := by
      refine List.any_eq_false.mpr fun r hr => ?_
      have hne := Int.ne_of_lt (hlt r hr)
      simpa using hne
    refine Or.inr ⟨hroom, c.place row hfresh, ?_, c.place_last row hfresh hlt⟩
    unfold insertPackageCatalogRow
    split
    · next existing he =>
      rw [hnone] at he
      cases he
    · rw [if_neg (by simp [hno])]
  · obtain ⟨r, hr, hrs⟩ := h.exists_sequence (by omega : 0 < 2 ^ 63 - 1) (by omega)
    have hyes : (c.rows.any fun r => r.packageSequence == row.packageSequence) = true := by
      refine List.any_eq_true.mpr ⟨r, hr, ?_⟩
      simp only [beq_iff_eq]
      omega
    refine Or.inl ⟨?_, by omega⟩
    unfold insertPackageCatalogRow
    split
    · next existing he =>
      rw [hnone] at he
      cases he
    · rw [if_pos hyes]

theorem markPackagePublished_ok {packageId : Text} {row : CatalogRow} (hr : row ∈ c)
    (hid : row.packageId = packageId) :
    ∃ c', c.markPackagePublished corpus packageId = .ok c' ∧ c'.rows = c.rows.map (setPublished packageId) := by
  have hany : (c.rows.any fun r => r.packageId == packageId) = true :=
    List.any_eq_true.mpr ⟨row, hr, by simpa using hid⟩
  unfold markPackagePublished
  rw [if_pos hany]
  exact ⟨_, rfl, rfl⟩

theorem markPackagePublished_cases {packageId : Text} (h : c.markPackagePublished corpus packageId = .ok c') :
    c'.rows = c.rows.map (setPublished packageId) := by
  unfold markPackagePublished at h
  split at h
  · cases h
    rfl
  · cases h

theorem setPublished_fields (packageId : Text) (r : CatalogRow) :
    (setPublished packageId r).packageSequence = r.packageSequence ∧
      (setPublished packageId r).packageKind = r.packageKind ∧
      (setPublished packageId r).packageId = r.packageId ∧ (setPublished packageId r).generation = r.generation := by
  unfold setPublished
  split <;> exact ⟨rfl, rfl, rfl, rfl⟩

end Catalog

theorem MatchesRow.setPublished {env : ProducerEnv} {row : CatalogRow} {signed : Signed EmbeddedManifest}
    (h : MatchesRow env row signed) (packageId : Text) :
    MatchesRow env (Catalog.setPublished packageId row) signed := by
  unfold Catalog.setPublished
  split
  · exact ⟨h.verified, h.sequence⟩
  · exact h

theorem ServedRow.setPublished {env : ProducerEnv} {root : ServedRoot} {row : CatalogRow}
    (h : ServedRow env root row) (packageId : Text) : ServedRow env root (Catalog.setPublished packageId row) := by
  obtain ⟨dir, signed, hdir, hwhole, hm⟩ := h
  refine ⟨dir, signed, ?_, hwhole, hm.setPublished packageId⟩
  rw [(Catalog.setPublished_fields packageId row).2.2.1]
  exact hdir

end CorpusFeed
