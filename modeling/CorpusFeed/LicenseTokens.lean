import CorpusFeed.ApplyCases
import CorpusFeed.CanonicalJson

/-! The trust store of a client: the anchors of its producers and the license tokens
that it has installed. A token row is local state, and what is read from it counts
only after its signature is verified. -/

namespace CorpusFeed

/-- The primitives of the signature scheme. -/
structure Ed25519 (Key Sig : Type) where
  verifyingKey : Bytes → Option Key
  signature : Bytes → Option Sig
  verifyStrict : Key → Bytes → Sig → Bool

inductive VerifyError where
  | canonical (error : CanonicalError)
  | invalid
  | unknownKey (keyId : Text)
  | unsupportedAlgorithm (algorithm : Text)
  | malformedKey (message : String)
deriving DecidableEq

def VerifyError.show : VerifyError → String
  | .canonical error => error.show
  | .invalid => "signature does not verify"
  | .unknownKey keyId => s!"unknown key_id `{String.ofList keyId}`"
  | .unsupportedAlgorithm algorithm => s!"unsupported signature algorithm `{String.ofList algorithm}`"
  | .malformedKey message => s!"malformed key material: {message}"

structure TrustAnchor where
  keyId : Text
  keyEpoch : ℕ
  algorithm : Text
  publicKeyHex : Text
deriving DecidableEq

structure TrustAnchorRow where
  keyId : Text
  keyEpoch : Int
  algorithm : Text
  publicKeyHex : Text
  purpose : Text
deriving DecidableEq

structure LicenseToken where
  entitlementCorpus : Corpus
  tier : Text
  licenseEpoch : ℕ
  audience : Option Text
  notAfter : Option Text
deriving DecidableEq

/-- The columns beside `tokenJson` are copies that anybody with the database can
change. -/
structure LicenseTokenRow where
  corpus : Text
  tier : Text
  licenseEpoch : Int
  audience : Text
  notAfter : Option Text
  tokenJson : Text
deriving DecidableEq

def ed25519Algorithm : Text := ['e', 'd', '2', '5', '5', '1', '9']

def licensePurpose : Text := ['l', 'i', 'c', 'e', 'n', 's', 'e']

def isLowerHex (c : Char) : Bool := c.isDigit || ('a' ≤ c && c ≤ 'f')

def decodeHex : Text → Option Bytes
  | [] => some []
  | [_] => none
  | high :: low :: rest => (decodeHex rest).map (UInt8.ofNat (16 * hexValue high + hexValue low) :: ·)

def decodeLowerHexExact (value : Text) (expectedBytes : ℕ) : Option Bytes :=
  if (asBytes value).length ≠ expectedBytes * 2 then none
  else if value.all isLowerHex = false then none
  else decodeHex value

def LicenseToken.covers (token : LicenseToken) (corpus tier : Text) (requiredEpoch : ℕ) : Bool :=
  token.entitlementCorpus.name = corpus && token.tier = tier && requiredEpoch ≤ token.licenseEpoch

/-- The canonical bytes of a token: its keys in order, without those that are absent. -/
def LicenseToken.canonicalBytes (token : LicenseToken) : Bytes :=
  asBytes (Json.object
    ((token.audience.toList.map fun audience => ("audience".toList, Json.string audience)) ++
      [("entitlement_corpus".toList, .string token.entitlementCorpus.name),
        ("license_epoch".toList, .number (numberOfInt token.licenseEpoch))] ++
      (token.notAfter.toList.map fun notAfter => ("not_after".toList, Json.string notAfter)) ++
      [("tier".toList, .string token.tier)])).print

section Verify

variable {Key Sig : Type} (scheme : Ed25519 Key Sig)

def anchorKey (anchor : TrustAnchor) : Except VerifyError Key :=
  if anchor.algorithm ≠ ed25519Algorithm then .error (.unsupportedAlgorithm anchor.algorithm)
  else
    match decodeLowerHexExact anchor.publicKeyHex 32 with
    | none => .error (.malformedKey
        s!"public_key_hex must be 64 lowercase-hex chars (32 bytes), got `{String.ofList anchor.publicKeyHex}`")
    | some bytes =>
      match scheme.verifyingKey bytes with
      | none => .error (.malformedKey "not a point of the curve")
      | some key => .ok key

/-- The keys of a verifier. A later anchor of one key id and epoch stands before an
earlier one. -/
def fromAnchors (keys : List ((Text × ℕ) × Key)) : List TrustAnchor → Except VerifyError (List ((Text × ℕ) × Key))
  | [] => .ok keys
  | anchor :: anchors =>
    match anchorKey scheme anchor with
    | .error e => .error e
    | .ok key => fromAnchors (((anchor.keyId, anchor.keyEpoch), key) :: keys) anchors

def verifyBytes (keys : List ((Text × ℕ) × Key)) (canonical : Bytes) (signature : Signature) : Except VerifyError Unit :=
  if signature.algorithm ≠ ed25519Algorithm then .error (.unsupportedAlgorithm signature.algorithm)
  else
    match keys.lookup (signature.keyId, signature.keyEpoch) with
    | none => .error (.unknownKey signature.keyId)
    | some key =>
      match (decodeLowerHexExact signature.signatureHex 64).bind scheme.signature with
      | none => .error .invalid
      | some sig => if scheme.verifyStrict key canonical sig then .ok () else .error .invalid

/-- The signature verifies under the anchor. -/
def VerifiesUnder (anchor : TrustAnchor) (canonical : Bytes) (signature : Signature) : Prop :=
  signature.algorithm = ed25519Algorithm ∧ signature.keyId = anchor.keyId ∧ signature.keyEpoch = anchor.keyEpoch ∧
    ∃ key sig, anchorKey scheme anchor = .ok key ∧
      (decodeLowerHexExact signature.signatureHex 64).bind scheme.signature = some sig ∧
      scheme.verifyStrict key canonical sig = true

variable {scheme}

theorem fromAnchors_lookup {keys keys' : List ((Text × ℕ) × Key)} {anchors : List TrustAnchor} {keyId : Text}
    {keyEpoch : ℕ} {key : Key} (h : fromAnchors scheme keys anchors = .ok keys')
    (hkey : keys'.lookup (keyId, keyEpoch) = some key) :
    keys.lookup (keyId, keyEpoch) = some key ∨
      ∃ anchor ∈ anchors, anchor.keyId = keyId ∧ anchor.keyEpoch = keyEpoch ∧ anchorKey scheme anchor = .ok key := by
  induction anchors generalizing keys with
  | nil =>
    cases h
    exact Or.inl hkey
  | cons anchor anchors ih =>
    rw [fromAnchors] at h
    split at h
    · cases h
    next own hown =>
    rcases ih h with hlookup | ⟨other, hother, hrest⟩
    · by_cases hsame : (keyId, keyEpoch) = (anchor.keyId, anchor.keyEpoch)
      · rw [List.lookup_cons, hsame, beq_self_eq_true] at hlookup
        obtain ⟨hid, hepoch⟩ := Prod.mk.inj hsame
        rw [Option.some.inj hlookup] at hown
        exact Or.inr ⟨anchor, List.mem_cons_self, hid.symm, hepoch.symm, hown⟩
      · rw [List.lookup_cons, beq_eq_false_iff_ne.mpr hsame] at hlookup
        exact Or.inl hlookup
    · exact Or.inr ⟨other, List.mem_cons_of_mem anchor hother, hrest⟩

theorem verifyBytes_ok {anchors : List TrustAnchor} {keys : List ((Text × ℕ) × Key)} {canonical : Bytes}
    {signature : Signature} (hkeys : fromAnchors scheme [] anchors = .ok keys)
    (h : verifyBytes scheme keys canonical signature = .ok ()) :
    ∃ anchor ∈ anchors, VerifiesUnder scheme anchor canonical signature := by
  unfold verifyBytes at h
  split at h
  · cases h
  next halgorithm =>
  split at h
  · cases h
  next key hkey =>
  split at h
  · cases h
  next sig hsig =>
  split at h
  · next hverify =>
    rcases fromAnchors_lookup hkeys hkey with hnone | ⟨anchor, hanchor, hid, hepoch, hown⟩
    · cases hnone
    · exact ⟨anchor, hanchor, not_not.mp halgorithm, hid.symm, hepoch.symm, key, sig, hown, hsig, hverify⟩
  · cases h

end Verify

/-- The trust store as a query reads it: the anchors come in the order of their
keys. `notAfterInFuture` compares with the clock of the database, and is absent for
what is no timestamp. -/
structure TrustStore (Key Sig : Type) where
  scheme : Ed25519 Key Sig
  anchors : List TrustAnchorRow
  tokens : List LicenseTokenRow
  parseToken : Text → Option (Signed LicenseToken)
  notAfterInFuture : Text → Option Bool

namespace TrustStore

variable {Key Sig : Type} (trust : TrustStore Key Sig)

def loadTrustAnchors (purpose : Text) : List TrustAnchor :=
  (trust.anchors.filter fun row => row.purpose = purpose).map fun row =>
    ⟨row.keyId, row.keyEpoch.toNat, row.algorithm, row.publicKeyHex⟩

def buildVerifier (purpose : Text) : Except SyncError (List ((Text × ℕ) × Key)) :=
  match fromAnchors trust.scheme [] (trust.loadTrustAnchors purpose) with
  | .ok keys => .ok keys
  | .error e => .error (.reject .signatureInvalid
      s!"trust store (purpose `{String.ofList purpose}`) is unusable: {e.show}")

def licenseTokenBlobs (corpus : Text) : List Text :=
  (trust.tokens.filter fun row => row.corpus = corpus).map LicenseTokenRow.tokenJson

def tokenNotAfterInFuture (notAfter : Option Text) : Bool :=
  match notAfter with
  | none => true
  | some timestamp => (trust.notAfterInFuture timestamp).getD false

def tokenCovers (keys : List ((Text × ℕ) × Key)) (entitlement : Entitlement) (blob : Text) : Bool :=
  match trust.parseToken blob with
  | none => false
  | some signed =>
    (verifyBytes trust.scheme keys signed.payload.canonicalBytes signed.signature).isOk &&
      signed.payload.covers entitlement.entitlementCorpus.name entitlement.tier entitlement.licenseEpoch &&
      trust.tokenNotAfterInFuture signed.payload.notAfter

def checkEntitlement (manifest : EmbeddedManifest) : Except SyncError Unit :=
  let entitlement := manifest.entitlement
  if tierIsOpen entitlement.tier then .ok ()
  else
    match trust.buildVerifier licensePurpose with
    | .error e => .error e
    | .ok keys =>
      if (trust.licenseTokenBlobs entitlement.entitlementCorpus.name).any (trust.tokenCovers keys entitlement) then .ok ()
      else .error (missingEntitlement entitlement)

/-- An installed token that verifies under a license anchor, has not expired and
covers `corpus` at this tier and epoch. -/
def Licenses (corpus tier : Text) (requiredEpoch : ℕ) : Prop :=
  ∃ row ∈ trust.tokens, ∃ signed, trust.parseToken row.tokenJson = some signed ∧
    (∃ anchor ∈ trust.loadTrustAnchors licensePurpose,
      VerifiesUnder trust.scheme anchor signed.payload.canonicalBytes signed.signature) ∧
    trust.tokenNotAfterInFuture signed.payload.notAfter = true ∧
    signed.payload.covers corpus tier requiredEpoch = true

variable {trust}

/-- The columns of a token row decide nothing. -/
theorem licenses_of_checkEntitlement {manifest : EmbeddedManifest} (h : trust.checkEntitlement manifest = .ok ())
    (htier : tierIsOpen manifest.entitlement.tier = false) :
    trust.Licenses manifest.entitlement.entitlementCorpus.name manifest.entitlement.tier
      manifest.entitlement.licenseEpoch := by
  unfold checkEntitlement at h
  simp only [htier, Bool.false_eq_true, if_false] at h
  split at h
  · cases h
  next keys hkeys =>
  split at h
  · next hany =>
    obtain ⟨blob, hblob, hcovers⟩ := List.any_eq_true.mp hany
    obtain ⟨row, hrow, rfl⟩ := List.mem_map.mp hblob
    unfold tokenCovers at hcovers
    split at hcovers
    · cases hcovers
    next signed hsigned =>
    simp only [Bool.and_eq_true] at hcovers
    obtain ⟨⟨hverify, hcovered⟩, hfuture⟩ := hcovers
    refine ⟨row, (List.mem_filter.mp hrow).1, signed, hsigned, ?_, hfuture, hcovered⟩
    unfold buildVerifier at hkeys
    split at hkeys
    · next own hown =>
      cases hkeys
      cases hresult : verifyBytes trust.scheme keys signed.payload.canonicalBytes signed.signature with
      | error e =>
        rw [hresult] at hverify
        cases hverify
      | ok done => exact verifyBytes_ok hown hresult
    · cases hkeys
  · cases h

end TrustStore

/-- The client with this trust store. -/
def ClientEnv.withTrust {α : Type*} (env : ClientEnv α) {Key Sig : Type} (trust : TrustStore Key Sig) : ClientEnv α :=
  { env with entitled := trust.checkEntitlement }

end CorpusFeed
