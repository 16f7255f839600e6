import CorpusFeed.FeedInvariant

/-! The manifest builder on a settled feed: it succeeds, and what it lists is
catalogued and served. -/

namespace CorpusFeed

section Listing

variable {env : ProducerEnv} {params : RemoteManifestParams} {corpus : Corpus} {root : ServedRoot}
  {rows : List CatalogRow} {entries : List RemotePackageEntry} {n : Nat}

theorem ServedRow.read {row : CatalogRow} (h : ServedRow env root row) :
    ∃ dir signed, readPublishedManifest root row.packageId = .ok (dir, signed) ∧ MatchesRow env row signed := by
  obtain ⟨dir, signed, hdir, hwhole, hmatch⟩ := h
  refine ⟨dir, signed, ?_, hmatch⟩
  simp [readPublishedManifest, hdir, hwhole]

theorem MatchesRow.verified_incremental {row : CatalogRow} {signed : Signed EmbeddedManifest}
    (h : MatchesRow env row signed) (hk : row.packageKind = .incremental) :
    verifyCatalogIdentity env row signed true = .ok () := by
  have hverified := h.verified
  rw [hk] at hverified
  exact hverified

theorem MatchesRow.verified_media {row : CatalogRow} {signed : Signed EmbeddedManifest}
    (h : MatchesRow env row signed) (hk : row.packageKind.isMedia = true) :
    verifyCatalogIdentity env row signed false = .ok () := by
  have hverified := h.verified
  have hnot : (row.packageKind == .incremental) = false := by
    cases hkind : row.packageKind <;> simp [hkind, PackageKind.isMedia] at hk ⊢
  rw [hnot] at hverified
  exact hverified

theorem Numbered.suffix {pre : List CatalogRow} (h : Numbered corpus n (pre ++ rows)) :
    Numbered corpus (n + pre.length) rows := by
  induction pre generalizing n with
  | nil => exact h
  | cons r pre ih =>
    obtain ⟨_, _, _, _, hrest⟩ := h
    have hlen : n + (r :: pre).length = n + 1 + pre.length := by
      simp only [List.length_cons]
      omega
    exact hlen ▸ ih hrest

theorem retainedEntries_served (hk : ∀ r ∈ rows, r.packageKind = .incremental)
    (hs : ∀ r ∈ rows, ServedRow env root r) :
    ∃ entries, retainedEntries env params corpus root rows = .ok entries := by
  induction rows with
  | nil => exact ⟨[], rfl⟩
  | cons row rows ih =>
    obtain ⟨dir, signed, hread, hmatch⟩ := (hs row List.mem_cons_self).read
    obtain ⟨entries, hrest⟩ := ih (fun r hr => hk r (List.mem_cons_of_mem row hr))
      fun r hr => hs r (List.mem_cons_of_mem row hr)
    have hverify := hmatch.verified_incremental (hk row List.mem_cons_self)
    refine ⟨retainedEntry env params corpus row dir signed :: entries, ?_⟩
    rw [retainedEntries, hread]
    simp [hverify, hrest, bind, Except.bind, pure, Except.pure]

theorem Numbered.listed_links (h : Numbered corpus n rows) (hs : ∀ r ∈ rows, ServedRow env root r)
    (hlisted : List.Forall₂ (ListedAs env params corpus root) rows entries) :
    LinksTo n entries (n + rows.length) := by
  induction hlisted generalizing n with
  | nil => rfl
  | @cons row entry rows entries hentry _ ih =>
    obtain ⟨hseq, _, _, _, hrest⟩ := h
    obtain ⟨dir, signed, hread, hverify, rfl⟩ := hentry
    obtain ⟨dir', signed', hread', hmatch⟩ := (hs row List.mem_cons_self).read
    rw [hread] at hread'
    cases hread'
    have hsequence := hmatch.sequence
    have hone := verifyCatalogIdentity_incremental hverify
    have hto : signed.payload.identity.toSequence = n + 1 := by omega
    have hfrom : signed.payload.identity.fromSequence = n := by omega
    have hlen : n + (row :: rows).length = n + 1 + rows.length := by
      simp only [List.length_cons]
      omega
    rw [hlen]
    exact ⟨hfrom, hto, ih hrest fun r hr => hs r (List.mem_cons_of_mem row hr)⟩

theorem ensureGapFree_of_links {start stop : Nat} (h : LinksTo start entries stop) :
    ensureGapFree entries = .ok () := by
  induction entries generalizing start with
  | nil => rfl
  | cons first rest ih =>
    obtain ⟨_, hto, hrest⟩ := h
    cases rest with
    | nil => rfl
    | cons second rest =>
      obtain ⟨hfrom, _⟩ := id hrest
      rw [ensureGapFree, if_neg (by rw [hto, hfrom]; exact fun hne => hne rfl)]
      exact ih hrest

theorem listed_served (hs : ∀ r ∈ rows, ServedRow env root r)
    (hlisted : List.Forall₂ (ListedAs env params corpus root) rows entries) :
    ∀ e ∈ entries, ∃ row ∈ rows, ServedRow env root row ∧ e.packageId = row.packageId ∧
      e.artifactUri = artifactUri params corpus row.packageId := by
  induction hlisted with
  | nil => simp
  | @cons row entry rows entries hentry _ ih =>
    intro e he
    rcases List.mem_cons.mp he with rfl | he
    · obtain ⟨dir, signed, _, _, rfl⟩ := hentry
      exact ⟨row, List.mem_cons_self, hs row List.mem_cons_self, rfl, rfl⟩
    · obtain ⟨r, hr, hrow⟩ := ih (fun r hr => hs r (List.mem_cons_of_mem row hr)) e he
      exact ⟨r, List.mem_cons_of_mem row hr, hrow⟩

end Listing

theorem Numbered.media_cut {corpus : Corpus} {catalog : Catalog} (h : Numbered corpus 0 catalog.rows)
    (hne : catalog.rows ≠ []) :
    ∃ pre media increments, catalog.rows = pre ++ media :: increments ∧ media.packageKind.isMedia = true ∧
      (∀ r ∈ increments, r.packageKind = .incremental) ∧ catalog.latestMediaPackage = some media := by
  obtain ⟨first, rest, hrows⟩ := List.exists_cons_of_ne_nil hne
  have hfirst : first.packageKind = .baseline := by
    rw [hrows] at h
    exact h.2.1.mpr rfl
  have hsome : catalog.latestMediaPackage ≠ none := by
    intro hnone
    have hnot := List.find?_eq_none.mp hnone first (by simp [hrows])
    simp [hfirst, PackageKind.isMedia] at hnot
  obtain ⟨media, hmedia⟩ := Option.ne_none_iff_exists'.mp hsome
  obtain ⟨hroot, newer, older, hcut, hnewer⟩ := List.find?_eq_some_iff_append.mp hmedia
  refine ⟨older.reverse, media, newer.reverse, ?_, hroot, fun r hr => ?_, hmedia⟩
  · rw [← List.reverse_reverse catalog.rows, hcut]
    simp
  · have hnot := hnewer r (List.mem_reverse.mp hr)
    cases hk : r.packageKind <;> simp [hk, PackageKind.isMedia] at hnot ⊢

/-- The builder succeeds when the catalog is numbered and every row is served. -/
theorem buildRemoteManifest_served {env : ProducerEnv} {corpus : Corpus} {s : FeedState}
    (hnumbered : Numbered corpus 0 s.catalog.rows) (hne : s.catalog.rows ≠ [])
    (hpublished : ∀ row ∈ s.catalog, row.status = .published) (hserved : ∀ row ∈ s.catalog, ServedRow env s.root row)
    (params : RemoteManifestParams) :
    ∃ built, buildRemoteManifest env params corpus s.catalog s.root = .ok built ∧
      RemoteServed env corpus s built.payload := by
  obtain ⟨pre, media, increments, hrows, hroot, hkind, hlatest⟩ := hnumbered.media_cut hne
  have hmem : ∀ r ∈ media :: increments, r ∈ s.catalog := by
    intro r hr
    rw [← Catalog.mem_rows, hrows]
    exact List.mem_append_right pre hr
  have hmedia := hserved media (hmem media List.mem_cons_self)
  obtain ⟨dir, signed, hread, hmatch⟩ := hmedia.read
  have hverify := hmatch.verified_media hroot
  have hsplit := retainedIncrementals_split hrows hroot hkind params.maxRetainedIncrementals
  have hretained : ∀ r ∈ increments.drop (increments.length - params.maxRetainedIncrementals),
      r ∈ s.catalog := fun r hr => hmem r (List.mem_cons_of_mem media (List.mem_of_mem_drop hr))
  have hrowsServed : ∀ r ∈ increments.drop (increments.length - params.maxRetainedIncrementals),
      ServedRow env s.root r := fun r hr => hserved r (hretained r hr)
  have hbuilt : ∃ entries, retainedEntries env params corpus s.root
      (increments.drop (increments.length - params.maxRetainedIncrementals)) = .ok entries :=
    retainedEntries_served (fun r hr => hkind r (List.mem_of_mem_drop hr)) hrowsServed
  obtain ⟨entries, hentries⟩ := hbuilt
  have hlisted := retainedEntries_listed hentries
  have hsuffix : Numbered corpus (pre.length + 1 + (increments.length - params.maxRetainedIncrementals))
      (increments.drop (increments.length - params.maxRetainedIncrementals)) := by
    have hcut : s.catalog.rows = (pre ++ media ::
        increments.take (increments.length - params.maxRetainedIncrementals)) ++
        increments.drop (increments.length - params.maxRetainedIncrementals) := by
      rw [hrows, List.append_assoc, List.cons_append, List.take_append_drop]
    rw [hcut] at hnumbered
    have htail := hnumbered.suffix
    have hlen : 0 + (pre ++ media ::
        increments.take (increments.length - params.maxRetainedIncrementals)).length =
        pre.length + 1 + (increments.length - params.maxRetainedIncrementals) := by
      simp only [List.length_append, List.length_cons, List.length_take]
      omega
    exact hlen ▸ htail
  have hgap := ensureGapFree_of_links (hsuffix.listed_links hrowsServed hlisted)
  let manifest := assembleManifest env params corpus (activeBaselineRef env params corpus media dir signed) entries
  refine ⟨⟨manifest, env.signRemote manifest⟩, ?_, ?_⟩
  · rw [buildRemoteManifest, hlatest]
    simp [hread, hverify, hsplit, hentries, hgap, manifest, bind, Except.bind, pure, Except.pure]
  · constructor
    · have hr := hmem media List.mem_cons_self
      exact ⟨params, media, hr, hpublished media hr, hmedia, rfl⟩
    · intro e he
      obtain ⟨row, hr, hrow⟩ := listed_served hrowsServed hlisted e he
      exact ⟨params, row, hretained row hr, hpublished row (hretained row hr), hrow⟩

end CorpusFeed
