import CorpusFeed.LicenseTokens

/-! Packages that a client applies only with a license. -/

namespace CorpusFeed

variable {α : Type*} {env : ClientEnv α} {lockFree : Bool} {db : Database α} {artifact : Artifact}

/-- One of the appliers applied the package of the artifact. -/
def AppliesPackage (env : ClientEnv α) (lockFree : Bool) (db : Database α) (artifact : Artifact) (corpus : Corpus)
    (sequence : ℕ) : Prop :=
  (∃ mode, (applyMedia env mode lockFree db artifact).2 = .ok (.applied corpus sequence)) ∨
    ∃ db', applyIncremental env lockFree db artifact = .ok (db', .applied corpus sequence)

theorem checkGates_entitlement {signed : Signed EmbeddedManifest} {kind : PackageKind}
    (h : checkGates env artifact signed kind = .ok ()) : checkEntitlement env signed.payload = .ok () := by
  cases hentitled : checkEntitlement env signed.payload with
  | ok done => rfl
  | error e =>
    exfalso
    simp only [checkGates, hentitled, bind, Except.bind] at h
    repeat' split at h
    all_goals cases h

theorem startMedia_gates {mode : MediaApplyMode} {started : ApplyOutcome ⊕ MediaApply}
    (h : startMedia env mode db artifact = .ok started) :
    ∃ signed, artifact.manifest = some signed ∧ checkGates env artifact signed mode.expectedKind = .ok () := by
  unfold startMedia readManifest at h
  cases hm : artifact.manifest with
  | none => simp [hm] at h
  | some signed =>
    simp only [hm] at h
    split at h
    · cases h
    · next hgates => exact ⟨signed, rfl, hgates⟩

theorem idempotencyDecision_already {manifest : EmbeddedManifest} {behindIsApplicable : Bool} {outcome : ApplyOutcome}
    (h : idempotencyDecision db manifest behindIsApplicable = .ok (some outcome)) :
    ∃ corpus sequence, outcome = .alreadyApplied corpus sequence := by
  unfold idempotencyDecision at h
  simp only at h
  repeat' split at h
  all_goals cases h
  exact ⟨_, _, rfl⟩

theorem startMedia_already {mode : MediaApplyMode} {outcome : ApplyOutcome}
    (h : startMedia env mode db artifact = .ok (.inl outcome)) :
    ∃ corpus sequence, outcome = .alreadyApplied corpus sequence := by
  unfold startMedia at h
  split at h
  · cases h
  simp only at h
  split at h
  · cases h
  split at h
  · cases h
  · next decided hdecided =>
    split at h
    · cases h
    · split at h
      · cases h
        exact idempotencyDecision_already hdecided
      · cases h
  · split at h <;> cases h

theorem applyIncremental_gates {db' : Database α} {outcome : ApplyOutcome}
    (h : applyIncremental env lockFree db artifact = .ok (db', outcome)) :
    ∃ signed, artifact.manifest = some signed ∧ checkGates env artifact signed .incremental = .ok () := by
  unfold applyIncremental readManifest at h
  cases hm : artifact.manifest with
  | none => simp [hm] at h
  | some signed =>
    simp only [hm] at h
    split at h
    · cases h
    · next hgates => exact ⟨signed, rfl, hgates⟩

theorem runMedia_applied {m : MediaApply} {phases : List MediaPhase} {corpus : Corpus} {sequence : ℕ}
    (h : (runMedia env lockFree m phases db).2 = .ok (.applied corpus sequence)) : corpus = m.corpus := by
  induction phases generalizing db with
  | nil =>
    cases h
    rfl
  | cons phase phases ih =>
    rw [runMedia] at h
    split at h
    · exact ih h
    · cases h

/-- An applied package passed the entitlement check, whichever applier applied it. -/
theorem applied_entitled {corpus : Corpus} {sequence : ℕ} (h : AppliesPackage env lockFree db artifact corpus sequence) :
    ∃ signed, artifact.manifest = some signed ∧ signed.payload.identity.corpus = corpus ∧
      checkEntitlement env signed.payload = .ok () := by
  rcases h with ⟨mode, happlied⟩ | ⟨db', happlied⟩
  · unfold applyMedia at happlied
    split at happlied
    · cases happlied
    · next outcome hstart =>
      obtain ⟨own, at_, hown⟩ := startMedia_already hstart
      rw [hown] at happlied
      cases happlied
    · next m hstart =>
      obtain ⟨signed, hmanifest, hpayload, _⟩ := startMedia_build hstart
      obtain ⟨signed', hmanifest', hgates⟩ := startMedia_gates hstart
      rw [hmanifest] at hmanifest'
      cases hmanifest'
      refine ⟨signed, hmanifest, ?_, checkGates_entitlement hgates⟩
      rw [runMedia_applied happlied, MediaApply.corpus, hpayload]
  · obtain ⟨signed, cursor, hmanifest, _, _, hcases⟩ := applyIncremental_cases happlied
    obtain ⟨signed', hmanifest', hgates⟩ := applyIncremental_gates happlied
    rw [hmanifest] at hmanifest'
    cases hmanifest'
    rcases hcases with ⟨_, _, houtcome⟩ | ⟨_, houtcome, _⟩
    · cases houtcome
    · cases houtcome
      exact ⟨signed, hmanifest, rfl, checkGates_entitlement hgates⟩

variable {Key Sig : Type} {trust : TrustStore Key Sig}

/-- A package with a tier that is not open is applied only with a license for the
corpus that it names as its entitlement. That is the corpus whose rows it changes
in a package that names one corpus for both. -/
theorem applied_licensed {corpus : Corpus} {sequence : ℕ}
    (h : AppliesPackage (env.withTrust trust) lockFree db artifact corpus sequence) :
    ∃ signed, artifact.manifest = some signed ∧ signed.payload.identity.corpus = corpus ∧
      (tierIsOpen signed.payload.entitlement.tier = false →
        trust.Licenses signed.payload.entitlement.entitlementCorpus.name signed.payload.entitlement.tier
            signed.payload.entitlement.licenseEpoch ∧
          (signed.payload.entitlement.entitlementCorpus = corpus →
            trust.Licenses corpus.name signed.payload.entitlement.tier signed.payload.entitlement.licenseEpoch)) := by
  obtain ⟨signed, hmanifest, hcorpus, hentitled⟩ := applied_entitled h
  refine ⟨signed, hmanifest, hcorpus, fun htier => ?_⟩
  have hok : trust.checkEntitlement signed.payload = .ok () := by
    unfold checkEntitlement at hentitled
    rwa [htier, if_neg Bool.false_ne_true] at hentitled
  have hlicensed := TrustStore.licenses_of_checkEntitlement hok htier
  refine ⟨hlicensed, fun hsame => ?_⟩
  rw [← hsame]
  exact hlicensed

section Samples

def publicKeyHex : Text := "ea4a6c63e29c520abef5507b132ec5f9954776aebebe7b92421eea691446d22c".toList

def tokenSignatureHex : Text :=
  "61b8d5f6497b0e323f83e19a8d086f69f4b7e3c167bf4de1c7425c2e61726472ebc45ed42a893ece559e36d48d6b1f32b6611bfd24c77cf0bc96a88041f0f10b".toList

def tokenText : Text := "\x7b\"entitlement_corpus\":\"core\",\"license_epoch\":1,\"tier\":\"restricted\"\x7d".toList

/-- The scheme on one key, one message and its signature. -/
def knownScheme : Ed25519 Bytes Bytes where
  verifyingKey := some
  signature := some
  verifyStrict key message signature :=
    some key = decodeHex publicKeyHex && message = asBytes tokenText && some signature = decodeHex tokenSignatureHex

def licenseAnchor : TrustAnchorRow := ⟨['k'], 1, ed25519Algorithm, publicKeyHex, licensePurpose⟩

def coreToken : Signed LicenseToken :=
  ⟨⟨coreCorpus, "restricted".toList, 1, none, none⟩, ⟨ed25519Algorithm, ['k'], 1, tokenSignatureHex⟩⟩

def coreTrust : TrustStore Bytes Bytes where
  scheme := knownScheme
  anchors := [licenseAnchor]
  tokens := [⟨"core".toList, "restricted".toList, 1, [], none, ['t']⟩]
  parseToken blob := if blob = ['t'] then some coreToken else none
  notAfterInFuture _ := some false

def inpiCorpus : Corpus := ⟨"inpi".toList, by decide⟩

/-- A baseline of `corpus` that names the core corpus as its entitlement. -/
def restrictedManifest (corpus : Corpus) : EmbeddedManifest :=
  { plainManifest corpus .baseline ['b'] 0 1 none with entitlement := ⟨coreCorpus, "restricted".toList, 1⟩ }

theorem restricted_applied (corpus : Corpus) (hcorpus : corpus = coreCorpus ∨ corpus = inpiCorpus) :
    (applyMedia (plainClient.withTrust coreTrust) .baseline true Database.empty
      (plainArtifact (restrictedManifest corpus))).2 = .ok (.applied corpus 1) := by
  rcases hcorpus with rfl | rfl <;> decide +kernel

theorem core_licensed : ∃ signed, (plainArtifact (restrictedManifest coreCorpus)).manifest = some signed ∧
    coreTrust.Licenses signed.payload.identity.corpus.name signed.payload.entitlement.tier
      signed.payload.entitlement.licenseEpoch := by
  obtain ⟨signed, hmanifest, hcorpus, hlicensed⟩ :=
    applied_licensed (Or.inl ⟨.baseline, restricted_applied coreCorpus (Or.inl rfl)⟩)
  cases hmanifest
  exact ⟨_, rfl, (hlicensed (by decide)).1⟩

/-- The client has no license for the corpus whose rows are replaced. -/
theorem other_corpus_applied :
    AppliesPackage (plainClient.withTrust coreTrust) true Database.empty (plainArtifact (restrictedManifest inpiCorpus))
        inpiCorpus 1 ∧
      tierIsOpen (restrictedManifest inpiCorpus).entitlement.tier = false ∧
      ¬ coreTrust.Licenses inpiCorpus.name (restrictedManifest inpiCorpus).entitlement.tier
        (restrictedManifest inpiCorpus).entitlement.licenseEpoch := by
  refine ⟨Or.inl ⟨.baseline, restricted_applied inpiCorpus (Or.inr rfl)⟩, by decide, ?_⟩
  intro hlicensed
  obtain ⟨row, hrow, signed, hsigned, _, _, hcovers⟩ := hlicensed
  rw [List.mem_singleton.mp hrow] at hsigned
  cases hsigned
  revert hcovers
  decide

end Samples

end CorpusFeed
