import CorpusFeed.EmbeddedWire
import CorpusFeed.LicensedApply
import CorpusFeed.PrettyJson
import CorpusFeed.RemoteWire

/-! Signed documents. A producer signs the canonical bytes of a payload, and writes the
payload and its signature as one document. A client reads the document and verifies the
canonical bytes of the payload that it has read. -/

namespace CorpusFeed.Wire

structure Signed (T : Type) where
  payload : T
  signature : Signature

def Signed.codec {T : Type} (payload : Codec T) : Codec (Signed T) :=
  Fields.codec (.cons (.required "payload" payload) <| .cons (.required "signature" Signature.codec) .nil)
    (fun s => (s.payload, s.signature, ())) Signed.mk (fun _ => rfl)
    (show ["payload".toList, "signature".toList].Nodup by decide)

def Signature.contract (s : Signature) : CorpusFeed.Signature :=
  ⟨s.algorithm, s.keyId, s.keyEpoch.toNat, s.signatureHex⟩

def hexEncode (bytes : Bytes) : Text :=
  bytes.flatMap fun b => [Nat.digitChar (b.toNat / 16), Nat.digitChar (b.toNat % 16)]

theorem hexDigit_cases {n : Nat} (h : n < 16) : isLowerHex (Nat.digitChar n) = true ∧ hexValue (Nat.digitChar n) = n ∧
    (String.utf8EncodeChar (Nat.digitChar n)).length = 1 := by
  interval_cases n <;> decide

theorem decodeHex_hexEncode (bytes : Bytes) : decodeHex (hexEncode bytes) = some bytes := by
  induction bytes with
  | nil => rfl
  | cons b bytes ih =>
    have hlt := b.toNat_lt
    have hhigh := (hexDigit_cases (show b.toNat / 16 < 16 by omega)).2.1
    have hlow := (hexDigit_cases (show b.toNat % 16 < 16 by omega)).2.1
    have hbyte : 16 * (b.toNat / 16) + b.toNat % 16 = b.toNat := by omega
    rw [hexEncode] at ih
    simp only [hexEncode, List.flatMap_cons, List.cons_append, List.nil_append, decodeHex, hhigh, hlow, hbyte, ih,
      Option.map_some, UInt8.ofNat_toNat]

theorem hexEncode_lower (bytes : Bytes) : (hexEncode bytes).all isLowerHex = true := by
  refine List.all_eq_true.mpr fun c hc => ?_
  obtain ⟨b, _, hdigit⟩ := List.mem_flatMap.mp hc
  have hlt := b.toNat_lt
  simp only [List.mem_cons, List.not_mem_nil, or_false] at hdigit
  rcases hdigit with rfl | rfl
  · exact (hexDigit_cases (show b.toNat / 16 < 16 by omega)).1
  · exact (hexDigit_cases (show b.toNat % 16 < 16 by omega)).1

theorem hexEncode_length (bytes : Bytes) : (asBytes (hexEncode bytes)).length = bytes.length * 2 := by
  induction bytes with
  | nil => rfl
  | cons b bytes ih =>
    have hlt := b.toNat_lt
    have hhigh := (hexDigit_cases (show b.toNat / 16 < 16 by omega)).2.2
    have hlow := (hexDigit_cases (show b.toNat % 16 < 16 by omega)).2.2
    rw [asBytes, hexEncode] at ih
    simp only [asBytes, hexEncode, List.flatMap_cons, List.cons_append, List.nil_append, List.length_append, hhigh,
      hlow, ih, List.length_cons]
    omega

theorem decodeLowerHexExact_hexEncode (bytes : Bytes) :
    decodeLowerHexExact (hexEncode bytes) bytes.length = some bytes := by
  rw [decodeLowerHexExact, hexEncode_length, hexEncode_lower, decodeHex_hexEncode]
  simp

/-- A signing key and what it is published under, with what the signature library says of
it: a signature that it makes is accepted. -/
structure Ed25519Signer {Key Sig : Type} (scheme : Ed25519 Key Sig) where
  keyId : Text
  keyEpoch : UInt32
  publicKey : Bytes
  sign : Bytes → Bytes
  key : Key
  publicKey_length : publicKey.length = 32
  sign_length : ∀ message, (sign message).length = 64
  publicKey_valid : scheme.verifyingKey publicKey = some key
  sign_accepted : ∀ message, ∃ sig, scheme.signature (sign message) = some sig ∧
    scheme.verifyStrict key message sig = true

/-- The pretty printer of documents and the parser, which are inverse to each other on
what a codec writes. -/
structure DocumentText where
  pretty : Json → Bytes
  parse : Bytes → Option Json
  parse_pretty : ∀ v : Json, v.Written → parse (pretty v) = some v

inductive SignError where
  | canonical (error : CanonicalError)
  | backend (message : Text)

section Seal

variable {Key Sig T : Type} {scheme : Ed25519 Key Sig} (nonFinite : JsonNumber → Bool) (signer : Ed25519Signer scheme)

def Ed25519Signer.trustAnchor : TrustAnchor :=
  ⟨signer.keyId, signer.keyEpoch.toNat, ed25519Algorithm, hexEncode signer.publicKey⟩

def Ed25519Signer.signBytes (canonical : Bytes) : Except SignError Signature :=
  .ok ⟨ed25519Algorithm, signer.keyId, signer.keyEpoch, hexEncode (signer.sign canonical)⟩

def signValue (value : Json) : Except SignError Signature :=
  match canonicalBytes nonFinite value with
  | .error e => .error (.canonical e)
  | .ok bytes => signer.signBytes bytes

def verifyValue (scheme : Ed25519 Key Sig) (keys : List ((Text × ℕ) × Key)) (value : Json) (signature : Signature) :
    Except VerifyError Unit :=
  match canonicalBytes nonFinite value with
  | .error e => .error (.canonical e)
  | .ok bytes => verifyBytes scheme keys bytes signature.contract

variable (codec : Codec T)

def Signed.seal (payload : T) : Except SignError (Signed T) :=
  (signValue nonFinite signer (codec.write payload)).map fun signature => ⟨payload, signature⟩

def Signed.verify (scheme : Ed25519 Key Sig) (keys : List ((Text × ℕ) × Key)) (document : Signed T) :
    Except VerifyError Unit :=
  verifyValue nonFinite scheme keys (codec.write document.payload) document.signature

def writeDocument (format : DocumentText) (document : Signed T) : Bytes :=
  format.pretty ((Signed.codec codec).write document)

def readDocument (format : DocumentText) (bytes : Bytes) : Option (Signed T) :=
  (format.parse bytes).bind (Signed.codec codec).read

theorem readDocument_writeDocument (format : DocumentText) (document : Signed T) :
    readDocument codec format (writeDocument codec format document) = some document := by
  rw [readDocument, writeDocument, format.parse_pretty _ ((Signed.codec codec).written document), Option.bind_some,
    (Signed.codec codec).read_write]

def Ed25519Signer.keys : List ((Text × ℕ) × Key) := [((signer.keyId, signer.keyEpoch.toNat), signer.key)]

theorem anchorKey_trustAnchor : anchorKey scheme signer.trustAnchor = .ok signer.key := by
  have hdecode : decodeLowerHexExact (hexEncode signer.publicKey) 32 = some signer.publicKey := by
    rw [← signer.publicKey_length]
    exact decodeLowerHexExact_hexEncode signer.publicKey
  simp [anchorKey, Ed25519Signer.trustAnchor, hdecode, signer.publicKey_valid]

theorem fromAnchors_trustAnchor : fromAnchors scheme [] [signer.trustAnchor] = .ok signer.keys := by
  simp only [fromAnchors, anchorKey_trustAnchor]
  rfl

theorem verifyBytes_signBytes {message : Bytes} {signature : Signature}
    (h : signer.signBytes message = .ok signature) :
    verifyBytes scheme signer.keys message signature.contract = .ok () := by
  cases h
  have hdecode : decodeLowerHexExact (hexEncode (signer.sign message)) 64 = some (signer.sign message) := by
    rw [← signer.sign_length message]
    exact decodeLowerHexExact_hexEncode (signer.sign message)
  obtain ⟨sig, hsig, hverify⟩ := signer.sign_accepted message
  simp [verifyBytes, Signature.contract, Ed25519Signer.keys, hdecode, hsig, hverify]

variable {nonFinite}

theorem canonicalBytes_written (hint : FiniteIntegers nonFinite) (payload : T) :
    canonicalBytes nonFinite (codec.write payload) = .ok (asBytes (codec.write payload).sorted.print) :=
  canonicalBytes_ok.mpr ⟨(codec.written payload).finite nonFinite hint, rfl⟩

theorem seal_eq (hint : FiniteIntegers nonFinite) (payload : T) : Signed.seal nonFinite signer codec payload =
    .ok ⟨payload, ed25519Algorithm, signer.keyId, signer.keyEpoch,
      hexEncode (signer.sign (asBytes (codec.write payload).sorted.print))⟩ := by
  rw [Signed.seal, signValue, canonicalBytes_written codec hint payload]
  rfl

/-- A payload that is sealed is in the document that is read, and verifies. -/
def Delivered (nonFinite : JsonNumber → Bool) (signer : Ed25519Signer scheme) (codec : Codec T) (format : DocumentText)
    (keys : List ((Text × ℕ) × Key)) (payload : T) : Prop :=
  ∃ document, Signed.seal nonFinite signer codec payload = .ok document ∧ document.payload = payload ∧
    readDocument codec format (writeDocument codec format document) = some document ∧
    document.verify nonFinite codec scheme keys = .ok ()

theorem delivered (hint : FiniteIntegers nonFinite) (format : DocumentText) (payload : T) :
    Delivered nonFinite signer codec format signer.keys payload := by
  have hbytes := canonicalBytes_written codec hint payload
  refine ⟨_, seal_eq signer codec hint payload, rfl, readDocument_writeDocument codec format _, ?_⟩
  simp only [Signed.verify, verifyValue, hbytes]
  exact verifyBytes_signBytes signer rfl

end Seal

/-- What a producer seals with its key. -/
inductive Manifest where
  | embedded (manifest : EmbeddedManifest)
  | remote (manifest : RemoteManifest)

def Manifest.write : Manifest → Json
  | .embedded manifest => EmbeddedManifest.codec.write manifest
  | .remote manifest => RemoteManifest.codec.write manifest

theorem keys_eq_of_sorted_eq {fields fields' : List (Text × Json)}
    (h : (Json.object fields).sorted = (Json.object fields').sorted) :
    ∀ name, name ∈ fields.map Prod.fst ↔ name ∈ fields'.map Prod.fst := by
  have hkeys : ∀ entries : List (Text × Json),
      ((sortFields entries).map fun field => (field.1, field.2.sorted)).map Prod.fst =
        (sortFields entries).map Prod.fst := by
    intro entries
    rw [List.map_map]
    rfl
  rw [Json.sorted_object, Json.sorted_object] at h
  have hmap := congrArg (List.map Prod.fst) (Json.object.inj h)
  rw [hkeys, hkeys] at hmap
  intro name
  rw [← ((sortFields_perm fields).map Prod.fst).mem_iff, ← ((sortFields_perm fields').map Prod.fst).mem_iff, hmap]

/-- No embedded manifest is signed as a remote one. -/
theorem embedded_sorted_ne (manifest : EmbeddedManifest) (other : RemoteManifest) :
    (EmbeddedManifest.codec.write manifest).sorted ≠ (RemoteManifest.codec.write other).sorted := by
  intro h
  have hmem : "identity".toList ∈ ["manifest_version".toList, "generated_at".toList, "publisher".toList,
      "corpus".toList, "environment".toList, "head_sequence".toList, "min_available_sequence".toList,
      "active_baseline".toList, "packages".toList, "catchup_ranges".toList, "catchup_policy".toList,
      "entitlement".toList, "signing".toList] :=
    (keys_eq_of_sorted_eq h "identity".toList).mp List.mem_cons_self
  exact absurd hmem (by decide)

theorem Manifest.sorted_inj : ∀ a b : Manifest, a.write.sorted = b.write.sorted → a = b
  | .embedded m, .embedded n, h => by rw [EmbeddedManifest.codec.sorted_inj m n h]
  | .embedded m, .remote n, h => absurd h (embedded_sorted_ne m n)
  | .remote m, .embedded n, h => absurd h.symm (embedded_sorted_ne n m)
  | .remote m, .remote n, h => by rw [RemoteManifest.codec.sorted_inj m n h]

section Verified

variable {Key Sig T : Type} {scheme : Ed25519 Key Sig}

/-- The canonical bytes of the manifests that were sealed. -/
def SealedBytes (nonFinite : JsonNumber → Bool) (log : List Manifest) (message : Bytes) : Prop :=
  ∃ manifest ∈ log, canonicalBytes nonFinite manifest.write = .ok message

/-- Nobody but the holder of the key makes a signature that is accepted: of the messages
and signatures that are presented to clients, only those are accepted whose message was
signed. -/
def Ed25519Signer.Unforgeable (signer : Ed25519Signer scheme) (presented : Bytes → Bytes → Prop)
    (signed : Bytes → Prop) : Prop :=
  ∀ message bytes sig, presented message bytes → scheme.signature bytes = some sig →
    scheme.verifyStrict signer.key message sig = true → signed message

def Signed.Presented (nonFinite : JsonNumber → Bool) (codec : Codec T) (presented : Bytes → Bytes → Prop)
    (document : Signed T) : Prop :=
  ∀ message bytes, canonicalBytes nonFinite (codec.write document.payload) = .ok message →
    decodeLowerHexExact document.signature.signatureHex 64 = some bytes → presented message bytes

theorem verifyBytes_keys {signer : Ed25519Signer scheme} {message : Bytes} {signature : CorpusFeed.Signature}
    (h : verifyBytes scheme signer.keys message signature = .ok ()) :
    ∃ bytes sig, decodeLowerHexExact signature.signatureHex 64 = some bytes ∧ scheme.signature bytes = some sig ∧
      scheme.verifyStrict signer.key message sig = true := by
  obtain ⟨anchor, hanchor, hverifies⟩ := verifyBytes_ok (fromAnchors_trustAnchor signer) h
  rw [List.mem_singleton.mp hanchor] at hverifies
  obtain ⟨_, _, _, key, sig, hkey, hsig, hverify⟩ := hverifies
  obtain ⟨bytes, hbytes, hread⟩ := Option.bind_eq_some_iff.mp hsig
  rw [anchorKey_trustAnchor, Except.ok.injEq] at hkey
  rw [← hkey] at hverify
  exact ⟨bytes, sig, hbytes, hread, hverify⟩

/-- The payload of a document that verifies has the bytes of a manifest that was
sealed. -/
theorem sealed_of_verify {nonFinite : JsonNumber → Bool} {signer : Ed25519Signer scheme}
    {presented : Bytes → Bytes → Prop} {log : List Manifest} {codec : Codec T} {document : Signed T}
    (hunforgeable : signer.Unforgeable presented (SealedBytes nonFinite log))
    (hpresented : document.Presented nonFinite codec presented)
    (h : document.verify nonFinite codec scheme signer.keys = .ok ()) :
    ∃ manifest ∈ log, manifest.write.sorted = (codec.write document.payload).sorted := by
  unfold Signed.verify verifyValue at h
  split at h
  · cases h
  next message hmessage =>
  obtain ⟨bytes, sig, hbytes, hsig, hverify⟩ := verifyBytes_keys h
  obtain ⟨manifest, hmanifest, hsealed⟩ :=
    hunforgeable message bytes sig (hpresented message bytes hmessage hbytes) hsig hverify
  refine ⟨manifest, hmanifest, ?_⟩
  obtain ⟨_, hleft⟩ := canonicalBytes_ok.mp hsealed
  obtain ⟨_, hright⟩ := canonicalBytes_ok.mp hmessage
  exact Json.print_injective (asBytes_injective (hleft.symm.trans hright))

/-- The bytes of a value do not depend on the order of its keys, and tell the value up to
that order. So a sealed manifest is read and verifies, and a manifest that verifies was
sealed. -/
theorem canonical_documents {nonFinite : JsonNumber → Bool} (hint : FiniteIntegers nonFinite)
    (signer : Ed25519Signer scheme) (format : DocumentText) :
    (∀ v w : Json, v.Distinct → v.Reordered w → canonicalBytes nonFinite v = canonicalBytes nonFinite w) ∧
    (∀ v w bytes, canonicalBytes nonFinite v = .ok bytes → canonicalBytes nonFinite w = .ok bytes → v.Reordered w) ∧
    ∃ keys, fromAnchors scheme [] [signer.trustAnchor] = .ok keys ∧
      (∀ manifest, Delivered nonFinite signer EmbeddedManifest.codec format keys manifest) ∧
      (∀ manifest, Delivered nonFinite signer RemoteManifest.codec format keys manifest) ∧
      ∀ presented log, signer.Unforgeable presented (SealedBytes nonFinite log) →
        (∀ document : Signed EmbeddedManifest, document.Presented nonFinite EmbeddedManifest.codec presented →
          document.verify nonFinite EmbeddedManifest.codec scheme keys = .ok () →
          .embedded document.payload ∈ log) ∧
        (∀ document : Signed RemoteManifest, document.Presented nonFinite RemoteManifest.codec presented →
          document.verify nonFinite RemoteManifest.codec scheme keys = .ok () →
          .remote document.payload ∈ log) := by
  refine ⟨fun v w hv h => canonicalBytes_stable hv h, fun v w bytes hv hw => canonicalBytes_collision hv hw,
    signer.keys, fromAnchors_trustAnchor signer, fun manifest => delivered signer _ hint format manifest,
    fun manifest => delivered signer _ hint format manifest, fun presented log hunforgeable => ⟨?_, ?_⟩⟩
  · intro document hpresented hverify
    obtain ⟨manifest, hmanifest, hsame⟩ := sealed_of_verify hunforgeable hpresented hverify
    rwa [Manifest.sorted_inj manifest (.embedded document.payload) hsame] at hmanifest
  · intro document hpresented hverify
    obtain ⟨manifest, hmanifest, hsame⟩ := sealed_of_verify hunforgeable hpresented hverify
    rwa [Manifest.sorted_inj manifest (.remote document.payload) hsame] at hmanifest

end Verified

section Samples

def coreManifest : EmbeddedManifest where
  identity := ⟨1, "core-1041-1042".toList, coreCorpus, .incremental, 1041, 1042, some "core-1040-1040".toList, none,
    "core-2026-06-25-g000124".toList, "core_g000124".toList, "2026-06-26T00:00:00Z".toList, "run-1".toList⟩
  compatibility := ⟨⟨0, 1, 0⟩, none, 18, "sha256:bb".toList, [⟨"vector".toList, none⟩],
    "bge-m3:1024:cls:normalize=true".toList, "bge-m3".toList, 1024, true, .empty, none, none⟩
  entitlement := ⟨coreCorpus, "open".toList, 3, none, "sha256:cc".toList⟩
  integrity := ⟨"sha256:dd".toList, "sha256:ee".toList, BTreeMap.empty.insert "documents".toList "sha256:ff".toList,
    "jcs-sorted-json".toList, "ed25519".toList, none⟩
  apply := ⟨1040, 1042, false, "sha256:00".toList, [⟨"documents".toList, .upsert, 10⟩], [],
    ⟨18, "bge-m3:1024:cls:normalize=true".toList, .empty, none, some "core_g000124".toList⟩,
    ⟨BTreeMap.empty.insert "documents".toList 10, .empty⟩, ⟨[], [], true, false⟩, "core-1041-1042:sha256:dd".toList,
    .transactionRollback⟩
  payload := ⟨[⟨"documents.upsert.jsonl".toList, "documents".toList, [], .upsert, .jsonl, .zstd, 10,
    "sha256:ff".toList⟩], ["documents".toList]⟩

/-- What the key of the seed of 32 bytes 7 signs `coreManifest` with. -/
def coreManifestSignatureHex : Text :=
  "7884f4f953944c05d07d31c015c74cf360bb6dfa981c6b768d19e2b13ae9ed2836d1d680d88c8bf0e5b18ad6f14395ce969913eb85a5821b9d85b9b8f7de0009".toList

/-- The key's signature of `coreManifest`. A sum stands for those of other messages. -/
def producerSign (message : Bytes) : Bytes :=
  if message = asBytes (EmbeddedManifest.codec.write coreManifest).sorted.print then
    (decodeHex coreManifestSignatureHex).getD []
  else List.replicate 63 0 ++ [message.foldl (· + ·) 0]

def producerScheme : Ed25519 Bytes Bytes where
  verifyingKey := some
  signature := some
  verifyStrict key message signature := some key = decodeHex publicKeyHex && signature = producerSign message

theorem decodeHex_publicKeyHex : decodeHex publicKeyHex = some ((decodeHex publicKeyHex).getD []) := by
  decide +kernel

theorem hexEncode_coreManifestSignature :
    hexEncode ((decodeHex coreManifestSignatureHex).getD []) = coreManifestSignatureHex := by
  decide +kernel

theorem producerSign_coreManifest :
    producerSign (asBytes (EmbeddedManifest.codec.write coreManifest).sorted.print) =
      (decodeHex coreManifestSignatureHex).getD [] :=
  if_pos rfl

theorem producerSign_length (message : Bytes) : (producerSign message).length = 64 := by
  unfold producerSign
  split
  · decide +kernel
  · simp

def producerSigner : Ed25519Signer producerScheme where
  keyId := "producer-k1".toList
  keyEpoch := 1
  publicKey := (decodeHex publicKeyHex).getD []
  sign := producerSign
  key := (decodeHex publicKeyHex).getD []
  publicKey_length := by decide +kernel
  sign_length := producerSign_length
  publicKey_valid := rfl
  sign_accepted message := ⟨_, rfl, by simp [producerScheme, ← decodeHex_publicKeyHex]⟩

@[simp] theorem producerSigner_sign (message : Bytes) : producerSigner.sign message = producerSign message := rfl

noncomputable def prettyText : DocumentText where
  pretty v := asBytes (v.pretty 0)
  parse := Function.partialInv fun v : Json => asBytes (v.pretty 0)
  parse_pretty v _ := Function.partialInv_left (fun _ _ h => Json.pretty_injective 0 (asBytes_injective h)) v

/-- Beside the sealed manifest, a client is presented whatever its key does not accept. -/
def presentedWithCore (message bytes : Bytes) : Prop :=
  SealedBytes (fun _ => false) [.embedded coreManifest] message ∨
    producerScheme.verifyStrict producerSigner.key message bytes = false

theorem core_manifest_delivered : ∃ keys, fromAnchors producerScheme [] [producerSigner.trustAnchor] = .ok keys ∧
    ∃ document, Signed.seal (fun _ => false) producerSigner EmbeddedManifest.codec coreManifest = .ok document ∧
      document.signature.signatureHex = coreManifestSignatureHex ∧
      readDocument EmbeddedManifest.codec prettyText (writeDocument EmbeddedManifest.codec prettyText document) =
        some document ∧
      document.verify (fun _ => false) EmbeddedManifest.codec producerScheme keys = .ok () ∧
      ∀ other : Signed EmbeddedManifest, other.Presented (fun _ => false) EmbeddedManifest.codec presentedWithCore →
        other.verify (fun _ => false) EmbeddedManifest.codec producerScheme keys = .ok () →
        other.payload = coreManifest := by
  have hint : FiniteIntegers fun _ => false := fun _ _ => rfl
  obtain ⟨_, _, keys, hkeys, hembedded, _, hverified⟩ := canonical_documents hint producerSigner prettyText
  obtain ⟨document, hseal, _, hread, hverify⟩ := hembedded coreManifest
  have hsignature : document.signature.signatureHex = coreManifestSignatureHex := by
    have hdocument := Except.ok.inj (hseal.symm.trans (seal_eq producerSigner _ hint coreManifest))
    rw [hdocument]
    simp only [producerSigner_sign, producerSign_coreManifest, hexEncode_coreManifestSignature]
  refine ⟨keys, hkeys, document, hseal, hsignature, hread, hverify, fun other hpresented hother => ?_⟩
  have hunforgeable : producerSigner.Unforgeable presentedWithCore
      (SealedBytes (fun _ => false) [.embedded coreManifest]) := by
    intro message bytes sig hmessage hsig haccepted
    rcases hmessage with hsealed | hrefused
    · exact hsealed
    · obtain rfl : bytes = sig := Option.some.inj hsig
      rw [hrefused] at haccepted
      cases haccepted
  simpa using (hverified presentedWithCore _ hunforgeable).1 other hpresented hother

end Samples

end CorpusFeed.Wire
