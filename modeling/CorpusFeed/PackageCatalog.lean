import CorpusFeed.PackageContract
import CorpusFeed.GenerationRegistry
import Mathlib.Data.List.Pairwise

/-! The producer's catalog of one corpus: a row for each built package, in
package sequence order. Package ids carry the corpus name, so the rows of other
corpora never meet them. -/

namespace CorpusFeed

inductive CatalogStatus where
  | built
  | published
  | failed
deriving DecidableEq

def CatalogStatus.text : CatalogStatus → String
  | .built => "built"
  | .published => "published"
  | .failed => "failed"

structure CatalogRow where
  packageSequence : Int
  packageId : Text
  packageKind : PackageKind
  baselineId : Text
  generation : Text
  includedChangeSeqLow : Int
  includedChangeSeqHigh : Int
  previousPackageId : Option Text
  previousPackageDigest : Option Text
  packageDigest : Option Text
  manifestDigest : Option Text
  schemaVersion : Int
  embeddingFingerprint : Text
  builderVersions : BuilderVersions
  status : CatalogStatus
deriving DecidableEq

/-- Both keys of the table, and the order its readers ask for. -/
structure Catalog where
  rows : List CatalogRow
  ordered : rows.Pairwise fun a b => a.packageSequence < b.packageSequence ∧ a.packageId ≠ b.packageId

inductive BuildError where
  | storage (error : StorageError)
  | io (message : String)
  | json (message : String)
deriving DecidableEq

def missing (message : String) : BuildError := .storage (.generations message)

def packageConflict (row : CatalogRow) : BuildError := .storage (.packageCatalog
  s!"package_id `{String.ofList row.packageId}` already cataloged with DIFFERENT immutable fields (a changed re-build)")

/-- The immutable columns that a repeated insert has to agree on. -/
def CatalogRow.sameIdentity (existing row : CatalogRow) : Bool :=
  existing.packageSequence == row.packageSequence && existing.packageKind == row.packageKind &&
  existing.baselineId == row.baselineId && existing.generation == row.generation &&
  existing.includedChangeSeqLow == row.includedChangeSeqLow &&
  existing.includedChangeSeqHigh == row.includedChangeSeqHigh &&
  existing.packageDigest == row.packageDigest && existing.manifestDigest == row.manifestDigest &&
  existing.schemaVersion == row.schemaVersion && existing.embeddingFingerprint == row.embeddingFingerprint

namespace Catalog

instance : Membership CatalogRow Catalog := ⟨fun c r => r ∈ c.rows⟩

theorem mem_rows {c : Catalog} {r : CatalogRow} : r ∈ c.rows ↔ r ∈ c := Iff.rfl

def empty : Catalog := ⟨[], List.Pairwise.nil⟩

instance : Std.Symm fun a b : CatalogRow => a.packageId ≠ b.packageId := ⟨fun _ _ => Ne.symm⟩

theorem eq_of_packageId_eq {c : Catalog} {r s : CatalogRow} (hr : r ∈ c) (hs : s ∈ c)
    (h : r.packageId = s.packageId) : r = s := by
  have hids : c.rows.Pairwise fun a b => a.packageId ≠ b.packageId := c.ordered.imp And.right
  by_contra hne
  exact hids.forall hr hs hne h

/-- A new row takes its place in the order. -/
def place (c : Catalog) (row : CatalogRow) (hid : ∀ r ∈ c.rows, r.packageId ≠ row.packageId) : Catalog where
  rows := (c.rows.filter fun r => r.packageSequence < row.packageSequence) ++
    row :: c.rows.filter fun r => row.packageSequence < r.packageSequence
  ordered := by
    have hids : c.rows.Pairwise fun a b => a.packageId ≠ b.packageId := c.ordered.imp And.right
    refine List.pairwise_append.mpr ⟨c.ordered.filter _, List.pairwise_cons.mpr ⟨?_, c.ordered.filter _⟩, ?_⟩
    · intro r hr
      obtain ⟨hr, hlt⟩ := List.mem_filter.mp hr
      exact ⟨by simpa using hlt, (hid r hr).symm⟩
    · intro r hlower s hs
      obtain ⟨hr, hlt⟩ := List.mem_filter.mp hlower
      have hlow : r.packageSequence < row.packageSequence := by simpa using hlt
      rcases List.mem_cons.mp hs with heq | hupper
      · rw [heq]
        exact ⟨hlow, hid r hr⟩
      · obtain ⟨hs, hgt⟩ := List.mem_filter.mp hupper
        have hhigh : row.packageSequence < s.packageSequence := by simpa using hgt
        have hlt : r.packageSequence < s.packageSequence := by omega
        refine ⟨hlt, hids.forall hr hs ?_⟩
        rintro rfl
        exact Int.lt_irrefl _ hlt

theorem ids_ne_of_find?_none {c : Catalog} {packageId : Text}
    (h : (c.rows.find? fun r => r.packageId = packageId) = none) : ∀ r ∈ c.rows, r.packageId ≠ packageId := by
  simpa using List.find?_eq_none.mp h

def insertPackageCatalogRow (c : Catalog) (row : CatalogRow) : Except BuildError Catalog :=
  match h : c.rows.find? fun r => r.packageId = row.packageId with
  | some existing => if existing.sameIdentity row then .ok c else .error (packageConflict row)
  | none =>
    if c.rows.any fun r => r.packageSequence == row.packageSequence then
      .error (.storage (.postgresClient "duplicate key value violates unique constraint"))
    else .ok (c.place row (ids_ne_of_find?_none h))

def latestPackage (c : Catalog) : Option CatalogRow := c.rows.getLast?

/-- The newest media root. -/
def latestMediaPackage (c : Catalog) : Option CatalogRow :=
  c.rows.reverse.find? fun r => r.packageKind.isMedia

def packageCatalogStatus (c : Catalog) (packageId : Text) : Option CatalogStatus :=
  (c.rows.find? fun r => r.packageId = packageId).map CatalogRow.status

def deleteUnpublishedPackageRow (c : Catalog) (packageId : Text) : Catalog where
  rows := c.rows.filter fun r => !(r.packageId == packageId && r.status == .built)
  ordered := c.ordered.filter _

theorem deleteUnpublishedPackageRow_rows (c : Catalog) (packageId : Text) :
    (c.deleteUnpublishedPackageRow packageId).rows =
      c.rows.filter fun r => !(r.packageId == packageId && r.status == .built) := rfl

def setPublished (packageId : Text) (row : CatalogRow) : CatalogRow :=
  if row.packageId = packageId then { row with status := .published } else row

def markPackagePublished (c : Catalog) (corpus : Corpus) (packageId : Text) : Except BuildError Catalog :=
  if c.rows.any fun r => r.packageId == packageId then
    .ok {
      rows := c.rows.map (setPublished packageId)
      ordered := by
        refine List.pairwise_map.mpr (c.ordered.imp fun {a b} h => ?_)
        unfold setPublished
        split <;> split <;> exact h }
  else .error (missing
    s!"mark_package_published matched 0 rows for corpus `{String.ofList corpus.name}` package `{String.ofList packageId}` (expected exactly 1 — an uncataloged/phantom package must not publish)")

end Catalog

end CorpusFeed
