import CorpusFeed.FeedSteps

/-! Verification of a published root with a public verifier: the signature and
corpus of the remote manifest, then every artifact that it references. -/

namespace CorpusFeed

/-- A public verifier: the error with which it rejects a signature, if any. -/
structure Verifier where
  verifyEmbedded : EmbeddedManifest → Signature → Option String
  verifyRemote : RemoteManifest → Signature → Option String

structure PublishedVerifyReport where
  headSequence : Nat
  packages : Nat
  artifactsChecked : Nat
deriving DecidableEq

/-- The components of a relative path, as long as all of them are plain names. -/
def normalComponents (relative : Text) : Option (List Text) :=
  let parts := relative.splitOn '/'
  if relative.head? = some '/' ∨ parts.head? = some ".".toList ∨ "..".toList ∈ parts then none
  else some (parts.filter fun part => part ≠ [] ∧ part ≠ ".".toList)

def resolveUri (uriBase artifactUri : Text) : Except BuildError (List Text) :=
  match artifactUri.dropPrefix? uriBase with
  | none => .error (missing s!"artifact_uri `{String.ofList artifactUri}` does not carry the base")
  | some relative =>
    match normalComponents relative with
    | none => .error (missing s!"artifact_uri `{String.ofList artifactUri}` is not a safe relative path")
    | some components => .ok components

/-- The package directory at a path under the root. The root holds the packages
of this corpus only. -/
def ServedRoot.dirAt (root : ServedRoot) (corpus : Corpus) : List Text → Option ArtifactDir
  | [name, directory, packageId] =>
    if name = corpus.name ∧ directory = "packages".toList then root.publishedPackageDir packageId else none
  | _ => none

def missingArtifact (artifactUri : Text) : BuildError :=
  missing s!"referenced artifact `{String.ofList artifactUri}` is missing (No such file or directory)"

def verifyArtifact (verifier : Verifier) (corpus : Corpus) (root : ServedRoot) (uriBase artifactUri expectedSha256 : Text)
    (expectedSignature : Signature) : Except BuildError Unit :=
  match resolveUri uriBase artifactUri with
  | .error e => .error e
  | .ok components =>
    match (root.dirAt corpus components).map ArtifactDir.manifest with
    | none | some .absent => .error (missingArtifact artifactUri)
    | some .torn => .error (.json "EOF while parsing a value")
    | some (.whole signed) =>
      let uri := String.ofList artifactUri
      if signed.signature ≠ expectedSignature then
        .error (missing s!"artifact `{uri}` signature differs from the remote-manifest entry")
      else match verifier.verifyEmbedded signed.payload signed.signature with
      | some error => .error (missing s!"artifact `{uri}` signature invalid: {error}")
      | none =>
        if signed.payload.integrity.artifactSha256 ≠ expectedSha256 then .error (missing
          s!"artifact `{uri}` digest {String.ofList signed.payload.integrity.artifactSha256} != remote-manifest sha256 {String.ofList expectedSha256}")
        else .ok ()

def verifyEntries (verifier : Verifier) (corpus : Corpus) (root : ServedRoot) (uriBase : Text) :
    List RemotePackageEntry → Except BuildError Unit
  | [] => .ok ()
  | entry :: rest => do
    verifyArtifact verifier corpus root uriBase entry.artifactUri entry.sha256 entry.signature
    verifyEntries verifier corpus root uriBase rest

def verifySignedRemoteManifest (verifier : Verifier) (corpus : Corpus) (root : ServedRoot) (uriBase : Text)
    (signed : Signed RemoteManifest) : Except BuildError PublishedVerifyReport :=
  match verifier.verifyRemote signed.payload signed.signature with
  | some error => .error (missing s!"published remote manifest signature invalid: {error}")
  | none =>
    if signed.payload.corpus ≠ corpus then .error (missing
      s!"published manifest is for corpus `{String.ofList signed.payload.corpus.name}`, not `{String.ofList corpus.name}`")
    else do
      let active := signed.payload.activeBaseline
      verifyArtifact verifier corpus root uriBase active.artifactUri active.sha256 active.signature
      verifyEntries verifier corpus root uriBase signed.payload.packages
      pure ⟨signed.payload.headSequence, signed.payload.packages.length, signed.payload.packages.length + 1⟩

def verifyPublishedRoot (verifier : Verifier) (corpus : Corpus) (root : ServedRoot) (uriBase : Text) :
    Except BuildError PublishedVerifyReport :=
  match root.manifest with
  | none => .error (missing "published manifest is missing/unreadable (No such file or directory)")
  | some signed => verifySignedRemoteManifest verifier corpus root uriBase signed

theorem normalComponents_join {parts : List Text} (hparts : ∀ part ∈ parts, part ≠ [] ∧ '/' ∉ part ∧
    part ≠ ".".toList ∧ part ≠ "..".toList) (hne : parts ≠ []) :
    normalComponents (['/'].intercalate parts) = some parts := by
  have hsplit : (['/'].intercalate parts).splitOn '/' = parts :=
    List.splitOn_intercalate '/' (fun part hp => (hparts part hp).2.1) hne
  have hfilter : parts.filter (fun part => part ≠ [] ∧ part ≠ ".".toList) = parts :=
    List.filter_eq_self.mpr fun part hp => by simpa using ⟨(hparts part hp).1, (hparts part hp).2.2.1⟩
  obtain ⟨first, rest, rfl⟩ := List.exists_cons_of_ne_nil hne
  obtain ⟨hfirst, hslash, hdot, _⟩ := hparts first List.mem_cons_self
  have hhead : (['/'].intercalate (first :: rest)).head? ≠ some '/' := by
    obtain ⟨c, tail, rfl⟩ := List.exists_cons_of_ne_nil hfirst
    have hc : c ≠ '/' := fun heq => hslash (heq ▸ List.mem_cons_self)
    cases rest <;> simpa [List.intercalate] using hc
  have hup : "..".toList ∉ first :: rest := fun hmem => (hparts _ hmem).2.2.2 rfl
  unfold normalComponents
  dsimp only
  rw [hsplit, hfilter]
  refine if_neg ?_
  rintro (hroot | hcurrent | hparent)
  · exact hhead hroot
  · exact hdot (Option.some.inj hcurrent)
  · exact hup hparent

theorem plain_component {name : Text} (hne : name ≠ []) (hname : ∀ c ∈ name, corpusChar c = true ∨ c = '-') :
    name ≠ [] ∧ '/' ∉ name ∧ name ≠ ".".toList ∧ name ≠ "..".toList := by
  refine ⟨hne, fun hmem => ?_, ?_, ?_⟩
  · rcases hname _ hmem with hc | hc
    · exact absurd hc (by decide)
    · exact absurd hc (by decide)
  · rintro rfl
    rcases hname '.' (by decide) with hc | hc
    · exact absurd hc (by decide)
    · exact absurd hc (by decide)
  · rintro rfl
    rcases hname '.' (by decide) with hc | hc
    · exact absurd hc (by decide)
    · exact absurd hc (by decide)

theorem packageIdOf_chars (corpus : Corpus) (start stop : Nat) :
    ∀ c ∈ packageIdOf corpus start stop, corpusChar c = true ∨ c = '-' := by
  have hdigits : ∀ n, ∀ c ∈ padDecimal 1 n, corpusChar c = true := fun n c hc =>
    corpusChar_of_isDigit (isDigit_of_mem_padDecimal hc)
  intro c hc
  simp only [packageIdOf, List.mem_append] at hc
  rcases hc with (((hc | hc) | hc) | hc) | hc
  · exact Or.inl (corpus.corpusChar_of_mem hc)
  · exact Or.inr (List.mem_singleton.mp hc)
  · exact Or.inl (hdigits start c hc)
  · exact Or.inr (List.mem_singleton.mp hc)
  · exact Or.inl (hdigits stop c hc)

theorem resolveUri_artifactUri (params : RemoteManifestParams) (corpus : Corpus) (start stop : Nat) :
    resolveUri params.uriBase (artifactUri params corpus (packageIdOf corpus start stop)) =
      .ok [corpus.name, "packages".toList, packageIdOf corpus start stop] := by
  have hprefix : (artifactUri params corpus (packageIdOf corpus start stop)).dropPrefix? params.uriBase =
      some (['/'].intercalate [corpus.name, "packages".toList, packageIdOf corpus start stop]) := by
    refine List.dropPrefix?_eq_some_iff.mpr ⟨params.uriBase, ?_, by simp⟩
    simp [artifactUri, List.intercalate]
  have hid : packageIdOf corpus start stop ≠ [] := by simp [packageIdOf]
  have hparts : ∀ part ∈ [corpus.name, "packages".toList, packageIdOf corpus start stop], part ≠ [] ∧ '/' ∉ part ∧
      part ≠ ".".toList ∧ part ≠ "..".toList := by
    intro part hp
    simp only [List.mem_cons, List.not_mem_nil, or_false] at hp
    rcases hp with rfl | rfl | rfl
    · exact plain_component (List.length_pos_iff.mp corpus.length_pos) fun c hc =>
        Or.inl (corpus.corpusChar_of_mem hc)
    · decide
    · exact plain_component hid (packageIdOf_chars corpus start stop)
  rw [resolveUri, hprefix]
  simp only [normalComponents_join hparts (List.cons_ne_nil _ _)]

/-- A verifier that trusts what the producer signs. -/
structure Trusts (verifier : Verifier) (env : ProducerEnv) : Prop where
  embedded : ∀ m, verifier.verifyEmbedded m (env.signEmbedded m) = none
  remote : ∀ m, verifier.verifyRemote m (env.signRemote m) = none

theorem verifyArtifact_served {verifier : Verifier} {env : ProducerEnv} (htrust : Trusts verifier env)
    {params : RemoteManifestParams} {corpus : Corpus} {root : ServedRoot} {start stop : Nat} {dir : ArtifactDir}
    {manifest : EmbeddedManifest}
    (hdir : root.publishedPackageDir (packageIdOf corpus start stop) = some dir)
    (hwhole : dir.manifest = .whole (sealManifest env manifest)) :
    verifyArtifact verifier corpus root params.uriBase (artifactUri params corpus (packageIdOf corpus start stop))
      manifest.integrity.artifactSha256 (env.signEmbedded manifest) = .ok () := by
  have hat : root.dirAt corpus [corpus.name, "packages".toList, packageIdOf corpus start stop] = some dir := by
    rw [ServedRoot.dirAt, if_pos ⟨rfl, rfl⟩, hdir]
  have hverify := htrust.embedded manifest
  rw [verifyArtifact, resolveUri_artifactUri]
  simp only [hat, Option.map_some, hwhole, sealManifest, hverify]
  simp

end CorpusFeed
