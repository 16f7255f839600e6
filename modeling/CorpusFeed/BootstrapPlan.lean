import CorpusFeed.TrustBootstrap

/-! What the verifiers of a site and the plan of one bootstrap run say about its
anchors. -/

namespace CorpusFeed

section Verifier

variable {Key Sig : Type} {scheme : Ed25519 Key Sig} {keys keys' r r' : List ((Text × ℕ) × Key)}
  {anchors : List TrustAnchor}

theorem fromAnchors_isOk_iff : (fromAnchors scheme keys anchors).isOk = true ↔
    ∀ anchor ∈ anchors, (anchorKey scheme anchor).isOk = true := by
  induction anchors generalizing keys with
  | nil => simp [fromAnchors, Except.isOk, Except.toBool]
  | cons anchor anchors ih =>
    rw [fromAnchors, List.forall_mem_cons]
    cases anchorKey scheme anchor with
    | error e => simp [Except.isOk, Except.toBool]
    | ok key =>
      have hrest := @ih (((anchor.keyId, anchor.keyEpoch), key) :: keys)
      show (fromAnchors scheme _ anchors).isOk = true ↔ _
      rw [hrest]
      exact (and_iff_right rfl).symm

/-- An anchor that no later one of its key id and epoch hides has its key in the verifier. -/
theorem fromAnchors_lookup_of_mem (hr : fromAnchors scheme keys anchors = .ok r)
    (hnodup : (anchors.map fun anchor => (anchor.keyId, anchor.keyEpoch)).Nodup) :
    (∀ anchor ∈ anchors, ∀ key, anchorKey scheme anchor = .ok key →
        r.lookup (anchor.keyId, anchor.keyEpoch) = some key) ∧
      ∀ k, k ∉ anchors.map (fun anchor => (anchor.keyId, anchor.keyEpoch)) → r.lookup k = keys.lookup k := by
  induction anchors generalizing keys with
  | nil =>
    cases hr
    exact ⟨by simp, fun _ _ => rfl⟩
  | cons first anchors ih =>
    rw [fromAnchors] at hr
    cases hfirst : anchorKey scheme first with
    | error e =>
      rw [hfirst] at hr
      cases hr
    | ok key =>
      rw [hfirst] at hr
      rw [List.map_cons, List.nodup_cons] at hnodup
      obtain ⟨hmem, hrest⟩ := ih hr hnodup.2
      constructor
      · intro anchor hanchor own hown
        rcases List.mem_cons.mp hanchor with rfl | hanchor
        · rw [hrest _ hnodup.1, List.lookup_cons_self]
          exact congrArg some (Except.ok.inj (hfirst.symm.trans hown))
        · exact hmem anchor hanchor own hown
      · intro k hk
        rw [List.map_cons, List.mem_cons, not_or] at hk
        rw [hrest k hk.2, List.lookup_cons, beq_eq_false_iff_ne.mpr hk.1]

theorem verifyBytes_grows {canonical : Bytes} {signature : Signature}
    (hkeys : ∀ k key, keys.lookup k = some key → keys'.lookup k = some key)
    (h : verifyBytes scheme keys canonical signature = .ok ()) :
    verifyBytes scheme keys' canonical signature = .ok () := by
  rw [verifyBytes] at h ⊢
  by_cases halgorithm : signature.algorithm ≠ ed25519Algorithm
  · rw [if_pos halgorithm] at h
    cases h
  · rw [if_neg halgorithm] at h ⊢
    cases hlookup : keys.lookup (signature.keyId, signature.keyEpoch) with
    | none =>
      rw [hlookup] at h
      cases h
    | some key =>
      rw [hlookup] at h
      rw [hkeys _ _ hlookup]
      exact h

end Verifier

section Site

variable {Key Sig : Type} {env : TrustEnv Key Sig} {site site' : TrustSite} {row : TrustAnchorRow} {purpose : Text}

/-- The identity that a row is read as. -/
def TrustAnchorRow.name (row : TrustAnchorRow) : Text × ℕ × Text := (row.keyId, row.keyEpoch.toNat, row.purpose)

def TrustAnchorRow.anchor (row : TrustAnchorRow) : TrustAnchor :=
  ⟨row.keyId, row.keyEpoch.toNat, row.algorithm, row.publicKeyHex⟩

theorem TrustAnchorRow.name_of_key {other : TrustAnchorRow} (h : row.key = other.key) : row.name = other.name := by
  obtain ⟨hid, hrest⟩ := Prod.mk.inj h
  obtain ⟨hepoch, hpurpose⟩ := Prod.mk.inj hrest
  rw [TrustAnchorRow.name, TrustAnchorRow.name, hid, hepoch, hpurpose]

theorem loadTrustAnchors_eq : (site.store env).loadTrustAnchors purpose =
    ((site.anchors.rows.insertionSort (anchorRowLe env.collation)).filter fun row => row.purpose = purpose).map
      TrustAnchorRow.anchor := rfl

theorem mem_loadTrustAnchors {anchor : TrustAnchor} : anchor ∈ (site.store env).loadTrustAnchors purpose ↔
    ∃ row ∈ site.anchors, row.purpose = purpose ∧ row.anchor = anchor := by
  rw [loadTrustAnchors_eq, List.mem_map]
  constructor
  · rintro ⟨row, hrow, hanchor⟩
    obtain ⟨hmem, hpurpose⟩ := List.mem_filter.mp hrow
    exact ⟨row, (List.mem_insertionSort _).mp hmem, of_decide_eq_true hpurpose, hanchor⟩
  · rintro ⟨row, hrow, hpurpose, hanchor⟩
    exact ⟨row, List.mem_filter.mpr ⟨(List.mem_insertionSort _).mpr hrow, decide_eq_true hpurpose⟩, hanchor⟩

theorem loadTrustAnchors_nodup :
    (((site.store env).loadTrustAnchors purpose).map fun anchor => (anchor.keyId, anchor.keyEpoch)).Nodup := by
  have hsorted : ((site.anchors.rows.insertionSort (anchorRowLe env.collation)).map TrustAnchorRow.key).Nodup :=
    ((List.perm_insertionSort _ site.anchors.rows).map _).nodup_iff.mpr site.anchors.nodup
  rw [loadTrustAnchors_eq, List.map_map]
  refine List.Nodup.map_on ?_ (hsorted.of_map.filter _)
  intro row hrow other hother heq
  obtain ⟨hmem, hpurpose⟩ := List.mem_filter.mp hrow
  obtain ⟨hmem', hpurpose'⟩ := List.mem_filter.mp hother
  obtain ⟨hid, hepoch⟩ := Prod.mk.inj heq
  have hnonneg := site.epochs row ((List.mem_insertionSort _).mp hmem)
  have hnonneg' := site.epochs other ((List.mem_insertionSort _).mp hmem')
  replace hepoch : row.keyEpoch.toNat = other.keyEpoch.toNat := hepoch
  have hsame : row.keyEpoch = other.keyEpoch := by omega
  apply List.inj_on_of_nodup_map hsorted hmem hmem'
  rw [TrustAnchorRow.key, TrustAnchorRow.key, hsame, (of_decide_eq_true hpurpose : row.purpose = purpose),
    (of_decide_eq_true hpurpose' : other.purpose = purpose)]
  exact congrArg (·, other.keyEpoch, purpose) hid

theorem buildVerifier_eq_ok {keys : List ((Text × ℕ) × Key)} (h : (site.store env).buildVerifier purpose = .ok keys) :
    fromAnchors env.scheme [] ((site.store env).loadTrustAnchors purpose) = .ok keys := by
  rw [TrustStore.buildVerifier] at h
  show fromAnchors (site.store env).scheme [] _ = _
  split at h
  next own hown => rw [hown, Except.ok.inj h]
  next => cases h

theorem buildVerifier_isOk_iff : ((site.store env).buildVerifier purpose).isOk = true ↔
    ∀ row ∈ site.anchors, row.purpose = purpose → (anchorKey env.scheme row.anchor).isOk = true := by
  have hload : ((site.store env).buildVerifier purpose).isOk =
      (fromAnchors env.scheme [] ((site.store env).loadTrustAnchors purpose)).isOk := by
    have hscheme : (site.store env).scheme = env.scheme := rfl
    rw [TrustStore.buildVerifier, hscheme]
    cases fromAnchors env.scheme [] ((site.store env).loadTrustAnchors purpose) with
    | error e => rfl
    | ok keys => rfl
  rw [hload, fromAnchors_isOk_iff]
  constructor
  · intro h row hrow hpurpose
    exact h _ (mem_loadTrustAnchors.mpr ⟨row, hrow, hpurpose, rfl⟩)
  · intro h anchor hanchor
    obtain ⟨row, hrow, hpurpose, rfl⟩ := mem_loadTrustAnchors.mp hanchor
    exact h row hrow hpurpose

theorem verifies_of_subset {keys keys' : List ((Text × ℕ) × Key)} {canonical : Bytes} {signature : Signature}
    (hrows : ∀ row ∈ site.anchors, row ∈ site'.anchors) (hkeys : (site.store env).buildVerifier purpose = .ok keys)
    (hkeys' : (site'.store env).buildVerifier purpose = .ok keys')
    (h : verifyBytes env.scheme keys canonical signature = .ok ()) :
    verifyBytes env.scheme keys' canonical signature = .ok () := by
  have hbefore := buildVerifier_eq_ok hkeys
  have hafter := buildVerifier_eq_ok hkeys'
  apply verifyBytes_grows _ h
  intro k key hlookup
  rcases fromAnchors_lookup hbefore hlookup with hnone | ⟨anchor, hanchor, hid, hepoch, hown⟩
  · cases hnone
  · obtain ⟨row, hrow, hpurpose, rfl⟩ := mem_loadTrustAnchors.mp hanchor
    have hmem : row.anchor ∈ (site'.store env).loadTrustAnchors purpose :=
      mem_loadTrustAnchors.mpr ⟨row, hrows row hrow, hpurpose, rfl⟩
    have hfound := (fromAnchors_lookup_of_mem hafter loadTrustAnchors_nodup).1 _ hmem key hown
    rwa [hid, hepoch] at hfound

end Site

section Plan

variable {installed seen identities : List AnchorIdentity} {identity : AnchorIdentity}

theorem planAnchor_install (h : planAnchor installed identity = .install identity) :
    ∀ existing ∈ installed, existing.name ≠ identity.name := by
  intro existing hexisting hname
  rw [planAnchor] at h
  split at h
  next hnone =>
    have hno := List.find?_eq_none.mp hnone existing hexisting
    exact hno (decide_eq_true hname)
  next =>
    split at h
    · cases h
    · cases h

theorem planAnchor_identity {other : AnchorIdentity} (h : planAnchor installed identity = .install other) :
    identity = other := by
  rw [planAnchor] at h
  split at h
  · exact AnchorAction.install.inj h
  · split at h
    · cases h
    · cases h

/-- What is to be installed is configured, was not read and was not planned before. -/
theorem planAnchorInstalls_install (h : .install identity ∈ planAnchorInstalls installed seen identities) :
    identity ∈ identities ∧ (∀ existing ∈ installed, existing.name ≠ identity.name) ∧
      ∀ prior ∈ seen, prior.name ≠ identity.name := by
  induction identities generalizing seen with
  | nil => cases h
  | cons first identities ih =>
    rw [planAnchorInstalls] at h
    split at h
    next prior _ =>
      have hrest : .install identity ∈ planAnchorInstalls installed seen identities := by
        split at h
        · exact h
        · exact (List.mem_cons.mp h).resolve_left fun h => by cases h
      obtain ⟨hmem, hfree, hseen⟩ := ih hrest
      exact ⟨List.mem_cons_of_mem first hmem, hfree, hseen⟩
    next hnone =>
      rcases List.mem_cons.mp h with hfirst | hrest
      · obtain rfl := planAnchor_identity hfirst.symm
        refine ⟨List.mem_cons_self, planAnchor_install hfirst.symm, ?_⟩
        intro prior hprior hname
        exact List.find?_eq_none.mp hnone prior hprior (decide_eq_true hname)
      · obtain ⟨hmem, hfree, hseen⟩ := ih hrest
        exact ⟨List.mem_cons_of_mem first hmem, hfree, fun prior hprior => hseen prior (List.mem_append_left _ hprior)⟩

theorem planAnchorInstalls_distinct : (planAnchorInstalls installed seen identities).Pairwise fun a b =>
    ∀ x y, a = .install x → b = .install y → x.name ≠ y.name := by
  induction identities generalizing seen with
  | nil => exact List.Pairwise.nil
  | cons first identities ih =>
    rw [planAnchorInstalls]
    split
    · split
      · exact ih
      · refine List.pairwise_cons.mpr ⟨?_, ih⟩
        intro b _ x y hx
        cases hx
    · refine List.pairwise_cons.mpr ⟨?_, ih⟩
      intro b hb x y hx hy
      obtain rfl := planAnchor_identity hx
      rw [hy] at hb
      exact (planAnchorInstalls_install hb).2.2 first (List.mem_append_right _ List.mem_cons_self)

/-- The key that `identity` is configured with stands in an entry of its name. -/
def HasKey (entries : List AnchorIdentity) (identity : AnchorIdentity) : Prop :=
  ∃ entry ∈ entries, entry.name = identity.name ∧ sameKey entry.publicKeyHex identity.publicKeyHex = true

theorem HasKey.trans {entries : List AnchorIdentity} {other : AnchorIdentity} (h : HasKey entries other)
    (hname : other.name = identity.name) (hkey : sameKey other.publicKeyHex identity.publicKeyHex = true) :
    HasKey entries identity := by
  obtain ⟨entry, hentry, hsame, hsameKey⟩ := h
  refine ⟨entry, hentry, hsame.trans hname, ?_⟩
  exact decide_eq_true ((of_decide_eq_true hsameKey).trans (of_decide_eq_true hkey))

theorem mem_toInstall {plan : List AnchorAction} : identity ∈ toInstall plan ↔ .install identity ∈ plan := by
  rw [toInstall, List.mem_filterMap]
  constructor
  · rintro ⟨action, haction, h⟩
    cases action with
    | install other => rwa [← Option.some.inj h]
    | _ => cases h
  · intro h
    exact ⟨_, h, rfl⟩

theorem planAnchor_covers (hclear : (planAnchor installed identity).isConflict = false) :
    HasKey installed identity ∨ planAnchor installed identity = .install identity := by
  rw [planAnchor] at hclear ⊢
  cases hfind : installed.find? fun existing => existing.name = identity.name with
  | none => exact Or.inr rfl
  | some existing =>
    rw [hfind] at hclear
    by_cases hkey : sameKey existing.publicKeyHex identity.publicKeyHex = true
    · have hname : existing.name = identity.name := by simpa using List.find?_some hfind
      exact Or.inl ⟨existing, List.mem_of_find?_eq_some hfind, hname, hkey⟩
    · have hconflict := hclear
      simp [hkey, AnchorAction.isConflict] at hconflict

/-- Without a conflict the key of every configured anchor was read, or is to be
installed, or was seen before. -/
theorem planAnchorInstalls_covers (hclear : hasConflict (planAnchorInstalls installed seen identities) = false)
    (h : identity ∈ identities) :
    HasKey seen identity ∨ HasKey installed identity ∨
      HasKey (toInstall (planAnchorInstalls installed seen identities)) identity := by
  induction identities generalizing seen with
  | nil => cases h
  | cons first identities ih =>
    rw [planAnchorInstalls] at hclear ⊢
    cases hfind : seen.find? fun prior => prior.name = first.name with
    | some prior =>
      simp only [hfind] at hclear ⊢
      by_cases hkey : sameKey prior.publicKeyHex first.publicKeyHex = true
      · rw [if_pos hkey] at hclear ⊢
        have hname : prior.name = first.name := by simpa using List.find?_some hfind
        rcases List.mem_cons.mp h with rfl | hrest
        · exact Or.inl ⟨prior, List.mem_of_find?_eq_some hfind, hname, hkey⟩
        · exact ih hclear hrest
      · rw [if_neg hkey] at hclear
        cases hclear
    | none =>
      simp only [hfind] at hclear ⊢
      rw [hasConflict, List.any_cons, Bool.or_eq_false_iff] at hclear
      have hown : HasKey installed first ∨
          HasKey (toInstall (planAnchor installed first ::
            planAnchorInstalls installed (seen ++ [first]) identities)) first := by
        rcases planAnchor_covers hclear.1 with hread | hinstall
        · exact Or.inl hread
        · refine Or.inr ⟨first, mem_toInstall.mpr ?_, rfl, decide_eq_true rfl⟩
          rw [hinstall]
          exact List.mem_cons_self
      rcases List.mem_cons.mp h with rfl | hrest
      · exact Or.inr hown
      · rcases ih hclear.2 hrest with ⟨prior, hprior, hname, hkey⟩ | hread | ⟨other, hother, hname, hkey⟩
        · rcases List.mem_append.mp hprior with hseen | hfirst
          · exact Or.inl ⟨prior, hseen, hname, hkey⟩
          · obtain rfl := List.mem_singleton.mp hfirst
            exact Or.inr (hown.imp (fun h => h.trans hname hkey) fun h => h.trans hname hkey)
        · exact Or.inr (Or.inl hread)
        · refine Or.inr (Or.inr ⟨other, ?_, hname, hkey⟩)
          exact mem_toInstall.mpr (List.mem_cons_of_mem _ (mem_toInstall.mp hother))

end Plan

end CorpusFeed
