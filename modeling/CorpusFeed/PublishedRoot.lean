import CorpusFeed.PackageCatalog
import CorpusFeed.RemoteManifest
import CorpusFeed.KeyedTable

/-! The published root of one corpus: the served package directories, the
remote manifest and the two staging slots. Directories and the remote manifest
are published by a rename, so only a staging slot can hold a torn manifest. -/

namespace CorpusFeed

inductive ManifestFile where
  | absent
  | torn
  | whole (signed : Signed EmbeddedManifest)
deriving DecidableEq

structure ArtifactDir where
  manifest : ManifestFile
  files : List (Text × Text)
deriving DecidableEq

structure ServedRoot where
  packages : Table (Prod.fst : Text × ArtifactDir → Text)
  manifest : Option (Signed RemoteManifest)
  pending : Option ArtifactDir
  bootstrapSlot : Option ArtifactDir

namespace ServedRoot

def empty : ServedRoot := ⟨Table.empty, none, none, none⟩

def publishedPackageDir (root : ServedRoot) (packageId : Text) : Option ArtifactDir :=
  (root.packages.find? packageId).map Prod.snd

end ServedRoot

/-- Reading and parsing a `manifest.json`. -/
def readEmbedded (dir : ArtifactDir) : Except BuildError (Signed EmbeddedManifest) :=
  match dir.manifest with
  | .absent => .error (.io "No such file or directory")
  | .torn => .error (.json "EOF while parsing a value")
  | .whole signed => .ok signed

def artifactSha256 (dir : ArtifactDir) : Except BuildError Text :=
  match readEmbedded dir with
  | .error e => .error e
  | .ok signed => .ok signed.payload.integrity.artifactSha256

/-- Published ids are immutable: a present directory is kept, and the call
succeeds when its aggregate digest is the staged one. -/
def publishPackage (root : ServedRoot) (packageId : Text) (artifactDir : ArtifactDir) :
    Except BuildError ServedRoot :=
  match root.publishedPackageDir packageId with
  | some dest =>
    match artifactSha256 dest, artifactSha256 artifactDir with
    | .error e, _ | _, .error e => .error e
    | .ok existing, .ok incoming =>
      if existing = incoming then .ok root
      else .error (missing
        s!"package id `{String.ofList packageId}` is already published with DIFFERENT content ({String.ofList existing} != {String.ofList incoming}); publish a new id and repoint manifest.json")
  | none => .ok { root with packages := root.packages.upsert (packageId, artifactDir) }

def publishRemoteManifest (root : ServedRoot) (manifest : Signed RemoteManifest) : ServedRoot :=
  { root with manifest := some manifest }

theorem publishPackage_cases {root root' : ServedRoot} {packageId : Text} {dir : ArtifactDir}
    (h : publishPackage root packageId dir = .ok root') :
    (root.publishedPackageDir packageId = none ∧
        root' = { root with packages := root.packages.upsert (packageId, dir) }) ∨
      root' = root ∧ ∃ dest existing incoming, root.publishedPackageDir packageId = some dest ∧
        readEmbedded dest = .ok existing ∧ readEmbedded dir = .ok incoming ∧
        existing.payload.integrity.artifactSha256 = incoming.payload.integrity.artifactSha256 := by
  unfold publishPackage at h
  split at h
  · next dest hdest =>
    cases he : readEmbedded dest with
    | error e => simp [artifactSha256, he] at h
    | ok existing =>
      cases hi : readEmbedded dir with
      | error e => simp [artifactSha256, he, hi] at h
      | ok incoming =>
        simp only [artifactSha256, he, hi] at h
        split at h
        · next hsame =>
          cases h
          exact Or.inr ⟨rfl, dest, existing, incoming, hdest, he, rfl, hsame⟩
        · cases h
  · next hnone =>
    cases h
    exact Or.inl ⟨hnone, rfl⟩

theorem publishedPackageDir_upsert (root : ServedRoot) (packageId other : Text) (dir : ArtifactDir) :
    ServedRoot.publishedPackageDir { root with packages := root.packages.upsert (packageId, dir) } other =
      if other = packageId then some dir else root.publishedPackageDir other := by
  unfold ServedRoot.publishedPackageDir
  rw [Table.find?_upsert]
  split <;> rfl

end CorpusFeed
