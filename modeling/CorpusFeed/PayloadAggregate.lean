import CorpusFeed.ApplyCases
import CorpusFeed.SealedEntries

/-! The aggregate digest of a package, over the `name=digest` pairs of its
payload files. A digest has one shape, and a file name is any text. -/

namespace CorpusFeed

def isHexDigit (c : Char) : Bool := c.isDigit || (decide ('a' ≤ c) && decide (c ≤ 'f'))

/-- `{byte:02x}` -/
def hexByte (byte : UInt8) : Text := [Nat.digitChar (byte.toNat / 16), Nat.digitChar (byte.toNat % 16)]

def sha256Label : Text := ['s', 'h', 'a', '2', '5', '6', ':']

def formatSha256 (hash : Vector UInt8 32) : Text := sha256Label ++ hash.toList.flatMap hexByte

def isDigestText (t : Text) : Bool := t.length = 71 && t.take 7 = sha256Label && (t.drop 7).all isHexDigit

theorem isHexDigit_digitChar {n : Nat} (h : n < 16) : isHexDigit (Nat.digitChar n) = true := by
  have hdigits : ∀ m : Fin 16, isHexDigit (Nat.digitChar m) = true := by decide
  exact hdigits ⟨n, h⟩

theorem isHexDigit_hexByte {byte : UInt8} {c : Char} (h : c ∈ hexByte byte) : isHexDigit c = true := by
  have hbyte : byte.toNat < 256 := byte.toNat_lt
  rcases List.mem_cons.mp h with rfl | h
  · exact isHexDigit_digitChar (by omega)
  · rw [List.mem_singleton.mp h]
    exact isHexDigit_digitChar (by omega)

theorem flatMap_hexByte_length (hash : List UInt8) : (hash.flatMap hexByte).length = 2 * hash.length := by
  induction hash with
  | nil => rfl
  | cons byte hash ih =>
    rw [List.flatMap_cons, List.length_append, ih, List.length_cons]
    have hbyte : (hexByte byte).length = 2 := rfl
    omega

theorem isDigestText_formatSha256 (hash : Vector UInt8 32) : isDigestText (formatSha256 hash) = true := by
  have hlabel : sha256Label.length = 7 := rfl
  have htake : (formatSha256 hash).take 7 = sha256Label := by
    rw [formatSha256]
    exact List.take_left' hlabel
  have hdrop : (formatSha256 hash).drop 7 = hash.toList.flatMap hexByte := by
    rw [formatSha256]
    exact List.drop_left' hlabel
  have hlength : (formatSha256 hash).length = 71 := by
    rw [formatSha256, List.length_append, flatMap_hexByte_length, hlabel, Vector.length_toList]
  have hhex : (hash.toList.flatMap hexByte).all isHexDigit = true := by
    refine List.all_eq_true.mpr fun c hc => ?_
    obtain ⟨byte, _, hbyte⟩ := List.mem_flatMap.mp hc
    exact isHexDigit_hexByte hbyte
  simp [isDigestText, htake, hdrop, hlength, hhex]

theorem hexByte_injective : Function.Injective hexByte := by
  have hdigit : ∀ m n : Fin 16, Nat.digitChar m = Nat.digitChar n → m = n := by decide
  intro b c h
  have hb : b.toNat < 256 := b.toNat_lt
  have hc : c.toNat < 256 := c.toNat_lt
  obtain ⟨hhigh, hlow⟩ := List.cons.inj h
  have hdiv := congrArg Fin.val (hdigit ⟨b.toNat / 16, by omega⟩ ⟨c.toNat / 16, by omega⟩ hhigh)
  have hmod := congrArg Fin.val (hdigit ⟨b.toNat % 16, by omega⟩ ⟨c.toNat % 16, by omega⟩ (List.cons.inj hlow).1)
  simp only at hdiv hmod
  exact UInt8.toNat_inj.mp (by omega)

theorem flatMap_hexByte_injective : Function.Injective fun hash : List UInt8 => hash.flatMap hexByte := by
  intro xs ys h
  induction xs generalizing ys with
  | nil =>
    cases ys with
    | nil => rfl
    | cons y ys => cases h
  | cons x xs ih =>
    cases ys with
    | nil => cases h
    | cons y ys =>
      simp only [List.flatMap_cons] at h
      obtain ⟨hbyte, hrest⟩ := List.append_inj h rfl
      rw [hexByte_injective hbyte, ih hrest]

theorem formatSha256_injective : Function.Injective formatSha256 := by
  intro a b h
  exact Vector.toList_inj.mp (flatMap_hexByte_injective (List.append_cancel_left h))

theorem isDigestText_iff {t : Text} : isDigestText t = true ↔
    t.length = 71 ∧ t.take 7 = sha256Label ∧ (t.drop 7).all isHexDigit = true := by
  simp only [isDigestText, Bool.and_eq_true, decide_eq_true_eq, and_assoc]

/-- `name=digest` pairs joined with bars. -/
def digestFormat : SealedFormat Char where
  assign := '='
  bar := '|'
  isValue := isDigestText
  width := 71
  length_eq v h := (isDigestText_iff.mp h).1
  assign_not_mem v h hmem := by
    obtain ⟨_, htake, hhex⟩ := isDigestText_iff.mp h
    rw [← List.take_append_drop 7 v, htake] at hmem
    rcases List.mem_append.mp hmem with hm | hm
    · revert hm
      decide
    · have hdigit := List.all_eq_true.mp hhex _ hm
      revert hdigit
      decide
  assign_ne_bar := by decide

theorem aggregatePayloadDigest_eq (digestBytes : Text → Text) (perFile : List (Text × Text)) :
    aggregatePayloadDigest digestBytes perFile = digestBytes (digestFormat.joined perFile) := rfl

section Verified

variable {α : Type*} {env : ClientEnv α} {artifact : Artifact} {manifest : EmbeddedManifest}

theorem verifyFiles_digests {files : List PayloadFile} {verified result : List (Text × Text)}
    (h : verifyFiles env artifact files verified = .ok result)
    (hverified : ∀ entry ∈ verified, ∃ bytes, entry.2 = env.digestBytes bytes) :
    ∀ entry ∈ result, ∃ bytes, entry.2 = env.digestBytes bytes := by
  induction files generalizing verified with
  | nil =>
    cases h
    exact hverified
  | cons file files ih =>
    rw [verifyFiles] at h
    split at h
    · cases h
    next bytes hbytes =>
    simp only at h
    split at h
    · cases h
    split at h
    · cases h
    refine ih h fun entry hentry => ?_
    rcases List.mem_cons.mp hentry with rfl | hentry
    · exact ⟨bytes, rfl⟩
    · exact hverified entry hentry

/-- Every digest of an accepted manifest was computed from a file. -/
theorem accepted_digests (h : verifyPerFileDigests env artifact manifest = .ok ()) :
    ∀ entry ∈ manifest.integrity.perFileDigests, ∃ bytes, entry.2 = env.digestBytes bytes := by
  unfold verifyPerFileDigests at h
  split at h
  · cases h
  next verified hverified =>
  simp only at h
  split at h
  · cases h
  next hperm =>
  have hsame : verified.Perm manifest.integrity.perFileDigests := List.isPerm_iff.mp (by simpa using hperm)
  intro entry hentry
  exact verifyFiles_digests hverified (by simp) entry (hsame.mem_iff.mpr hentry)

end Verified

/-- The names of the files, cut behind every digest that stands in them. -/
def payloadPieces (manifest : EmbeddedManifest) : List (Text × Text) :=
  digestFormat.pieces manifest.integrity.perFileDigests

section Identity

variable {α : Type*} {env : ClientEnv α} {artifact artifact' : Artifact} {manifest manifest' : EmbeddedManifest}

theorem accepted_valued {sha256 : Text → Vector UInt8 32}
    (hsha : ∀ bytes, env.digestBytes bytes = formatSha256 (sha256 bytes))
    (h : verifyPerFileDigests env artifact manifest = .ok ()) :
    digestFormat.Valued manifest.integrity.perFileDigests := by
  intro entry hentry
  obtain ⟨bytes, hbytes⟩ := accepted_digests h entry hentry
  rw [hbytes, hsha]
  exact isDigestText_formatSha256 _

theorem aggregate_eq_iff {sha256 : Text → Vector UInt8 32}
    (hsha : ∀ bytes, env.digestBytes bytes = formatSha256 (sha256 bytes))
    (h : verifyPerFileDigests env artifact manifest = .ok ())
    (h' : verifyPerFileDigests env artifact' manifest' = .ok ())
    (hcollision : sha256 (digestFormat.joined manifest.integrity.perFileDigests) =
      sha256 (digestFormat.joined manifest'.integrity.perFileDigests) →
        digestFormat.joined manifest.integrity.perFileDigests = digestFormat.joined manifest'.integrity.perFileDigests) :
    aggregatePayloadDigest env.digestBytes manifest.integrity.perFileDigests =
      aggregatePayloadDigest env.digestBytes manifest'.integrity.perFileDigests ↔
        payloadPieces manifest = payloadPieces manifest' := by
  rw [payloadPieces, payloadPieces, ← SealedFormat.joined_eq_iff (accepted_valued hsha h) (accepted_valued hsha h'),
    aggregatePayloadDigest_eq, aggregatePayloadDigest_eq, hsha, hsha, formatSha256_injective.eq_iff]
  exact ⟨hcollision, congrArg sha256⟩

/-- The aggregate digest identifies the payload files unless a file name holds a
digest of its own and cuts to the files of the other map. -/
theorem aggregate_identifies_iff {sha256 : Text → Vector UInt8 32}
    (hsha : ∀ bytes, env.digestBytes bytes = formatSha256 (sha256 bytes))
    (h : verifyPerFileDigests env artifact manifest = .ok ())
    (h' : verifyPerFileDigests env artifact' manifest' = .ok ())
    (hcollision : sha256 (digestFormat.joined manifest.integrity.perFileDigests) =
      sha256 (digestFormat.joined manifest'.integrity.perFileDigests) →
        digestFormat.joined manifest.integrity.perFileDigests = digestFormat.joined manifest'.integrity.perFileDigests) :
    (aggregatePayloadDigest env.digestBytes manifest.integrity.perFileDigests =
        aggregatePayloadDigest env.digestBytes manifest'.integrity.perFileDigests →
      manifest.integrity.perFileDigests = manifest'.integrity.perFileDigests) ↔
      (payloadPieces manifest = payloadPieces manifest' →
        manifest.integrity.perFileDigests = manifest'.integrity.perFileDigests) := by
  rw [aggregate_eq_iff hsha h h' hcollision]

/-- Names without a bar are bound to their digests. -/
theorem aggregate_identifies_plain {sha256 : Text → Vector UInt8 32}
    (hsha : ∀ bytes, env.digestBytes bytes = formatSha256 (sha256 bytes))
    (h : verifyPerFileDigests env artifact manifest = .ok ())
    (h' : verifyPerFileDigests env artifact' manifest' = .ok ())
    (hcollision : sha256 (digestFormat.joined manifest.integrity.perFileDigests) =
      sha256 (digestFormat.joined manifest'.integrity.perFileDigests) →
        digestFormat.joined manifest.integrity.perFileDigests = digestFormat.joined manifest'.integrity.perFileDigests)
    (hbar : ∀ entry ∈ manifest.integrity.perFileDigests ++ manifest'.integrity.perFileDigests, '|' ∉ entry.1)
    (heq : aggregatePayloadDigest env.digestBytes manifest.integrity.perFileDigests =
      aggregatePayloadDigest env.digestBytes manifest'.integrity.perFileDigests) :
    manifest.integrity.perFileDigests = manifest'.integrity.perFileDigests := by
  have hplain : ∀ entry ∈ manifest.integrity.perFileDigests ++ manifest'.integrity.perFileDigests,
      digestFormat.Plain entry.1 := by
    intro entry hentry v _ hin
    have hmem : '|' ∈ digestFormat.assign :: (v ++ [digestFormat.bar]) := by simp [digestFormat]
    exact hbar entry hentry (hin.subset hmem)
  have hpieces : digestFormat.pieces manifest.integrity.perFileDigests = manifest.integrity.perFileDigests :=
    SealedFormat.pieces_plain (accepted_valued hsha h) fun entry hentry => hplain entry (List.mem_append_left _ hentry)
  have hpieces' : digestFormat.pieces manifest'.integrity.perFileDigests = manifest'.integrity.perFileDigests :=
    SealedFormat.pieces_plain (accepted_valued hsha h') fun entry hentry => hplain entry (List.mem_append_right _ hentry)
  have hsame := (aggregate_eq_iff hsha h h' hcollision).mp heq
  rwa [payloadPieces, payloadPieces, hpieces, hpieces'] at hsame

end Identity

section Samples

def firstDigest : Vector UInt8 32 := #v[0x2d, 0x71, 0x16, 0x42, 0xb7, 0x26, 0xb0, 0x44, 0x01, 0x62, 0x7c, 0xa9, 0xfb, 0xac, 0x32, 0xf5,
  0xc8, 0x53, 0x0f, 0xb1, 0x90, 0x3c, 0xc4, 0xdb, 0x02, 0x25, 0x87, 0x17, 0x92, 0x1a, 0x48, 0x81]

def secondDigest : Vector UInt8 32 := #v[0xef, 0x90, 0xd9, 0xc1, 0xec, 0x76, 0xb1, 0xed, 0xc9, 0xed, 0xfa, 0xf2, 0xc0, 0xc0, 0x53, 0x59,
  0xc1, 0x0c, 0xcc, 0x49, 0xae, 0x8e, 0xcf, 0x7b, 0x7f, 0xd2, 0x5c, 0xe9, 0xc0, 0x2e, 0x86, 0xa4]

/-- The digest of both names with these digests. -/
def joinedDigest : Vector UInt8 32 := #v[0x79, 0xde, 0x3d, 0xb7, 0xae, 0xbe, 0x04, 0xe4, 0x28, 0x96, 0x10, 0x46, 0x9c, 0xb6, 0x14, 0x81,
  0x77, 0x8a, 0x9c, 0xe2, 0x85, 0x25, 0xf7, 0x51, 0xd5, 0x50, 0x60, 0x6d, 0x5e, 0x20, 0xd4, 0x90]

/-- SHA-256 of the bytes that the two packages hash. -/
def sampleSha256 (bytes : Text) : Vector UInt8 32 :=
  if bytes = "x".toList then firstDigest
  else if bytes = "yy".toList then secondDigest
  else if bytes = "a=".toList ++ formatSha256 firstDigest ++ "|b=".toList ++ formatSha256 secondDigest then joinedDigest
  else Vector.replicate 32 0

def hashingClient : ClientEnv Nat := { plainClient with digestBytes := fun bytes => formatSha256 (sampleSha256 bytes) }

def filesArtifact (files : List (Text × Text)) : Artifact := ⟨none, files⟩

/-- The manifest of a package with these files. -/
def filesManifest (files : List (Text × Text)) : EmbeddedManifest :=
  let digests := files.map fun file => (file.1, hashingClient.digestBytes file.2)
  let aggregate := aggregatePayloadDigest hashingClient.digestBytes digests
  { plainManifest coreCorpus .incremental "p2".toList 1 2 none with
    integrity := ⟨aggregate, aggregate, digests⟩
    payload := ⟨digests.map fun entry => ⟨entry.1, "documents".toList, .upsert, .jsonl, entry.2⟩, []⟩ }

def twoFiles : List (Text × Text) := [("a".toList, "x".toList), ("b".toList, "yy".toList)]

/-- One file, whose name holds the first file of `twoFiles` and its digest. -/
def oneFile : List (Text × Text) :=
  [("a=".toList ++ formatSha256 (sampleSha256 "x".toList) ++ "|b".toList, "yy".toList)]

theorem twoFiles_accepted :
    verifyPerFileDigests hashingClient (filesArtifact twoFiles) (filesManifest twoFiles) = .ok () := by
  decide +kernel

theorem oneFile_accepted :
    verifyPerFileDigests hashingClient (filesArtifact oneFile) (filesManifest oneFile) = .ok () := by
  decide +kernel

theorem joined_twoFiles : digestFormat.joined (filesManifest twoFiles).integrity.perFileDigests =
    digestFormat.joined (filesManifest oneFile).integrity.perFileDigests := by
  rfl

theorem aggregate_forgets_names : ¬ ∀ (artifact artifact' : Artifact) (manifest manifest' : EmbeddedManifest),
    verifyPerFileDigests hashingClient artifact manifest = .ok () →
    verifyPerFileDigests hashingClient artifact' manifest' = .ok () →
    (sampleSha256 (digestFormat.joined manifest.integrity.perFileDigests) =
      sampleSha256 (digestFormat.joined manifest'.integrity.perFileDigests) →
        digestFormat.joined manifest.integrity.perFileDigests = digestFormat.joined manifest'.integrity.perFileDigests) →
    aggregatePayloadDigest hashingClient.digestBytes manifest.integrity.perFileDigests =
      aggregatePayloadDigest hashingClient.digestBytes manifest'.integrity.perFileDigests →
    manifest.integrity.perFileDigests = manifest'.integrity.perFileDigests := by
  intro hall
  have hsame := hall _ _ _ _ twoFiles_accepted oneFile_accepted (fun _ => joined_twoFiles)
    (congrArg hashingClient.digestBytes joined_twoFiles)
  have hlength := congrArg List.length hsame
  revert hlength
  decide

theorem twoFiles_identified_iff :
    (aggregatePayloadDigest hashingClient.digestBytes (filesManifest twoFiles).integrity.perFileDigests =
        aggregatePayloadDigest hashingClient.digestBytes (filesManifest oneFile).integrity.perFileDigests →
      (filesManifest twoFiles).integrity.perFileDigests = (filesManifest oneFile).integrity.perFileDigests) ↔
      (payloadPieces (filesManifest twoFiles) = payloadPieces (filesManifest oneFile) →
        (filesManifest twoFiles).integrity.perFileDigests = (filesManifest oneFile).integrity.perFileDigests) :=
  have hsha : ∀ bytes, hashingClient.digestBytes bytes = formatSha256 (sampleSha256 bytes) := fun _ => rfl
  aggregate_identifies_iff hsha twoFiles_accepted oneFile_accepted fun _ => joined_twoFiles

end Samples

end CorpusFeed
