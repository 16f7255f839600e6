import CorpusFeed.DecimalText
import CorpusFeed.FileTree

/-! The retention tool of the producer lists partial downloads, quarantined files
and leftovers of atomic writes, and deletes them on request. Its directories are
configured one by one: nothing keeps them apart. -/

namespace CorpusFeed

inductive ReclaimCategory where
  | fetchQuarantine
  | ingestQuarantine
  | partialDownload
  | staleTempWrite
deriving DecidableEq

structure RetentionConfig where
  stateDir : List Text
  archivesDir : List Text
  corporaDir : List Text

structure ReclaimItem where
  path : List Text
  category : ReclaimCategory
  sizeBytes : Nat
deriving DecidableEq

structure RetentionReport where
  dryRun : Bool
  items : List ReclaimItem
  reclaimableBytes : Nat
  reclaimableFiles : Nat
  deletedFiles : Nat
  deletedBytes : Nat

def isPartialDownload (name : Text) : Bool :=
  ".part".toList.isSuffixOf name && !".tar.gz".toList.isSuffixOf name

def isStaleTempWrite (name : Text) : Bool :=
  ".json.part".toList.isSuffixOf name || ".json.tmp".toList.isSuffixOf name

/-- The accepted files below a directory; a missing directory has none. -/
def filesBelow (tree : FileTree Text) (dirPath : List Text) (accept : Text → Bool) :
    Except (List Text) (List (List Text)) :=
  match tree.readDir dirPath with
  | .missing => .ok []
  | .failed => .error dirPath
  | .entries inner => inner.collectFiles accept dirPath

def pushItems (tree : FileTree Text) (category : ReclaimCategory) :
    List (List Text) → Except (List Text) (List ReclaimItem)
  | [] => .ok []
  | path :: paths =>
    match tree.fileAt path with
    | none => .error path
    | some size => do
      let items ← pushItems tree category paths
      return ⟨path, category, size⟩ :: items

namespace RetentionConfig

variable (config : RetentionConfig)

def quarantineDir : List Text := config.stateDir ++ ["quarantine".toList]

def ingestQuarantineDir : List Text := config.stateDir ++ ["ingest-quarantine".toList]

def scanReclaimable (tree : FileTree Text) : Except (List Text) (List ReclaimItem) := do
  let quarantined ← filesBelow tree config.quarantineDir fun _ => true
  let fetched ← pushItems tree .fetchQuarantine quarantined
  let quarantined ← filesBelow tree config.ingestQuarantineDir fun _ => true
  let ingested ← pushItems tree .ingestQuarantine quarantined
  let partials ← filesBelow tree config.archivesDir isPartialDownload
  let downloads ← pushItems tree .partialDownload partials
  let temps ← filesBelow tree config.stateDir isStaleTempWrite
  let temps := temps.filter fun path => !config.quarantineDir.isPrefixOf path
  let stale ← pushItems tree .staleTempWrite temps
  return fetched ++ ingested ++ downloads ++ stale

def isSafeToDelete (path : List Text) : Bool :=
  if config.corporaDir.isPrefixOf path then false
  else if config.archivesDir.isPrefixOf path then path.getLast?.any isPartialDownload
  else true

end RetentionConfig

/-- The files left while items are deleted, and what was deleted so far. -/
structure Deletion where
  tree : FileTree Text
  deletedFiles : Nat
  deletedBytes : Nat

namespace Deletion

variable (config : RetentionConfig) (denied : List Text → Bool)

/-- An item that is gone already is passed over; a removal that is denied ends the run. -/
def deleteItems : List ReclaimItem → Deletion → Except (List Text) Unit × Deletion
  | [], d => (.ok (), d)
  | item :: items, d =>
    if config.isSafeToDelete item.path then
      match d.tree.fileAt item.path with
      | none => deleteItems items d
      | some _ =>
        if denied item.path then (.error item.path, d)
        else deleteItems items
          ⟨d.tree.removeFile item.path, d.deletedFiles + 1, d.deletedBytes + item.sizeBytes⟩
    else deleteItems items d

end Deletion

/-- The outcome of a run and the files it leaves. -/
def runRetention (config : RetentionConfig) (denied : List Text → Bool) (delete : Bool) (tree : FileTree Text) :
    Except (List Text) RetentionReport × FileTree Text :=
  match config.scanReclaimable tree with
  | .error path => (.error path, tree)
  | .ok items =>
    let report : Deletion → RetentionReport := fun d =>
      ⟨!delete, items, (items.map ReclaimItem.sizeBytes).sum, items.length, d.deletedFiles, d.deletedBytes⟩
    if delete then
      match Deletion.deleteItems config denied items ⟨tree, 0, 0⟩ with
      | (.error path, d) => (.error path, d.tree)
      | (.ok _, d) => (.ok (report d), d.tree)
    else (.ok (report ⟨tree, 0, 0⟩), tree)

/-- A path below a directory whose last name is accepted. -/
def PathBelow (dirPath : List Text) (accept : Text → Bool) (path : List Text) : Prop :=
  ∃ below name, path = dirPath ++ below ∧ below.getLast? = some name ∧ accept name = true

/-- The places the tool looks at. -/
def Listed (config : RetentionConfig) (path : List Text) : Prop :=
  PathBelow config.quarantineDir (fun _ => true) path ∨ PathBelow config.ingestQuarantineDir (fun _ => true) path ∨
    PathBelow config.archivesDir isPartialDownload path ∨ PathBelow config.stateDir isStaleTempWrite path

/-- A listed path that is no published file and no accepted archive. -/
structure Reclaimable (config : RetentionConfig) (path : List Text) : Prop where
  listed : Listed config path
  unpublished : ¬ config.corporaDir <+: path
  unaccepted : config.archivesDir <+: path → ∃ name, path.getLast? = some name ∧ isPartialDownload name = true

theorem isSafeToDelete_iff {config : RetentionConfig} {path : List Text} :
    config.isSafeToDelete path = true ↔ ¬ config.corporaDir <+: path ∧
      (config.archivesDir <+: path → ∃ name, path.getLast? = some name ∧ isPartialDownload name = true) := by
  rw [RetentionConfig.isSafeToDelete]
  by_cases hcorpora : config.corporaDir <+: path
  · simp [hcorpora]
  · by_cases harchives : config.archivesDir <+: path
    · simp [hcorpora, harchives, Option.any_eq_true]
    · simp [hcorpora, harchives]

section Scan

variable {tree : FileTree Text} {config : RetentionConfig} {dirPath path : List Text} {accept : Text → Bool}
  {paths : List (List Text)} {items : List ReclaimItem} {item : ReclaimItem} {category : ReclaimCategory}

theorem mem_filesBelow (hdistinct : tree.Distinct) (h : filesBelow tree dirPath accept = .ok paths) :
    path ∈ paths ↔ tree.fileAt path ≠ none ∧ PathBelow dirPath accept path := by
  rw [filesBelow] at h
  cases hread : tree.readDir dirPath with
  | missing =>
    rw [hread] at h
    cases h
    constructor
    · intro hmem
      cases hmem
    · rintro ⟨hfile, below, name, rfl, _⟩
      exact absurd (FileTree.fileAt_of_readDir_missing hread) hfile
  | failed =>
    rw [hread] at h
    cases h
  | entries inner =>
    rw [hread] at h
    rw [FileTree.mem_collectFiles (hdistinct.readDir hread) h]
    constructor
    · rintro ⟨below, size, name, rfl, hfile, hlast, haccept⟩
      refine ⟨?_, below, name, rfl, hlast, haccept⟩
      rw [FileTree.fileAt_of_readDir hread, hfile]
      exact Option.some_ne_none size
    · rintro ⟨hfile, below, name, rfl, hlast, haccept⟩
      rw [FileTree.fileAt_of_readDir hread] at hfile
      obtain ⟨size, hsize⟩ := Option.ne_none_iff_exists'.mp hfile
      exact ⟨below, size, name, rfl, hsize, hlast, haccept⟩

theorem pushItems_ok (h : pushItems tree category paths = .ok items) :
    items.map ReclaimItem.path = paths ∧
      ∀ item ∈ items, item.category = category ∧ tree.fileAt item.path = some item.sizeBytes := by
  induction paths generalizing items with
  | nil =>
    cases h
    simp
  | cons path paths ih =>
    rw [pushItems] at h
    cases hfile : tree.fileAt path with
    | none =>
      rw [hfile] at h
      cases h
    | some size =>
      cases hrest : pushItems tree category paths with
      | error e =>
        rw [hfile, hrest] at h
        cases h
      | ok rest =>
        rw [hfile, hrest] at h
        cases h
        obtain ⟨hpaths, hitems⟩ := ih hrest
        constructor
        · rw [List.map_cons, hpaths]
        · intro item hmem
          rcases List.mem_cons.mp hmem with rfl | hmem
          · exact ⟨rfl, hfile⟩
          · exact hitems item hmem

/-- The directory of the quarantine is no leftover, so one inside it is below it. -/
theorem below_quarantineDir (h : PathBelow config.stateDir isStaleTempWrite path)
    (hunder : config.quarantineDir <+: path) : PathBelow config.quarantineDir (fun _ => true) path := by
  obtain ⟨inside, hinside⟩ := hunder
  cases hlast : inside.getLast? with
  | some name => exact ⟨inside, name, hinside.symm, hlast, rfl⟩
  | none =>
    obtain ⟨below, name, hpath, hname, hstale⟩ := h
    rw [List.getLast?_eq_none_iff.mp hlast, List.append_nil, hpath] at hinside
    have hbelow : below = ["quarantine".toList] := (List.append_cancel_left hinside).symm
    rw [hbelow] at hname
    have hquarantine : name = "quarantine".toList := by simpa using hname.symm
    rw [hquarantine] at hstale
    exact absurd hstale (by decide)

/-- Every listed file is scanned, at least once, with its size. -/
theorem scanReclaimable_ok (hdistinct : tree.Distinct) (h : config.scanReclaimable tree = .ok items) :
    (∀ item ∈ items, tree.fileAt item.path = some item.sizeBytes) ∧
      ∀ path, path ∈ items.map ReclaimItem.path ↔ tree.fileAt path ≠ none ∧ Listed config path := by
  rw [RetentionConfig.scanReclaimable] at h
  simp only [bind, Except.bind, pure, Except.pure] at h
  split at h
  · cases h
  rename_i quarantined hquarantined
  split at h
  · cases h
  rename_i fetched hfetched
  split at h
  · cases h
  rename_i ingestQuarantined hingestQuarantined
  split at h
  · cases h
  rename_i ingested hingested
  split at h
  · cases h
  rename_i partials hpartials
  split at h
  · cases h
  rename_i downloads hdownloads
  split at h
  · cases h
  rename_i temps htemps
  split at h
  · cases h
  rename_i stale hstale
  cases h
  obtain ⟨hp1, hs1⟩ := pushItems_ok hfetched
  obtain ⟨hp2, hs2⟩ := pushItems_ok hingested
  obtain ⟨hp3, hs3⟩ := pushItems_ok hdownloads
  obtain ⟨hp4, hs4⟩ := pushItems_ok hstale
  constructor
  · intro item hmem
    simp only [List.mem_append] at hmem
    rcases hmem with ((h1 | h2) | h3) | h4
    · exact (hs1 item h1).2
    · exact (hs2 item h2).2
    · exact (hs3 item h3).2
    · exact (hs4 item h4).2
  · intro path
    rw [List.map_append, List.map_append, List.map_append, hp1, hp2, hp3, hp4]
    simp only [List.mem_append, List.mem_filter, mem_filesBelow hdistinct hquarantined,
      mem_filesBelow hdistinct hingestQuarantined, mem_filesBelow hdistinct hpartials, mem_filesBelow hdistinct htemps,
      Listed]
    constructor
    · rintro (((⟨hfile, h⟩ | ⟨hfile, h⟩) | ⟨hfile, h⟩) | ⟨⟨hfile, h⟩, _⟩)
      · exact ⟨hfile, .inl h⟩
      · exact ⟨hfile, .inr (.inl h)⟩
      · exact ⟨hfile, .inr (.inr (.inl h))⟩
      · exact ⟨hfile, .inr (.inr (.inr h))⟩
    · rintro ⟨hfile, h | h | h | h⟩
      · exact .inl (.inl (.inl ⟨hfile, h⟩))
      · exact .inl (.inl (.inr ⟨hfile, h⟩))
      · exact .inl (.inr ⟨hfile, h⟩)
      · by_cases hunder : config.quarantineDir <+: path
        · exact .inl (.inl (.inl ⟨hfile, below_quarantineDir h hunder⟩))
        · refine .inr ⟨⟨hfile, h⟩, ?_⟩
          rw [Bool.not_eq_true', Bool.eq_false_iff]
          exact fun hprefix => hunder (List.isPrefixOf_iff_prefix.mp hprefix)

end Scan

section Deletion

variable {config : RetentionConfig} {denied : List Text → Bool} {items : List ReclaimItem} {item : ReclaimItem}
  {d after : Deletion} {outcome : Except (List Text) Unit}

/-- The removals of the items from `d` on, up to the end or to a denied one. -/
structure Deletes (config : RetentionConfig) (denied : List Text → Bool) (items : List ReclaimItem) (d : Deletion)
    (outcome : Except (List Text) Unit) (after : Deletion) : Prop where
  distinct : after.tree.Distinct
  files : ∀ path, after.tree.fileAt path = d.tree.fileAt path ∨
    (after.tree.fileAt path = none ∧ path ∈ items.map ReclaimItem.path ∧ config.isSafeToDelete path = true)
  done : ∀ u, outcome = .ok u → ∀ item ∈ items, config.isSafeToDelete item.path = true →
    after.tree.fileAt item.path = none
  failed : ∀ path, outcome = .error path → denied path = true
  count : after.tree.fileCount + after.deletedFiles = d.tree.fileCount + d.deletedFiles
  bytes : after.tree.totalBytes + after.deletedBytes = d.tree.totalBytes + d.deletedBytes

theorem Deletes.skip (hrest : Deletes config denied items d outcome after)
    (hskip : config.isSafeToDelete item.path = true → d.tree.fileAt item.path = none) :
    Deletes config denied (item :: items) d outcome after where
  distinct := hrest.distinct
  files := by
    intro path
    rcases hrest.files path with h | ⟨hgone, hmem, hsafe⟩
    · exact .inl h
    · exact .inr ⟨hgone, List.mem_cons_of_mem _ hmem, hsafe⟩
  done := by
    intro u hok other hmem hsafe
    rcases List.mem_cons.mp hmem with rfl | hmem
    · rcases hrest.files other.path with h | ⟨hgone, _⟩
      · rw [h, hskip hsafe]
      · exact hgone
    · exact hrest.done u hok other hmem hsafe
  failed := hrest.failed
  count := hrest.count
  bytes := hrest.bytes

theorem Deletes.remove (hdistinct : d.tree.Distinct) (hsafe : config.isSafeToDelete item.path = true)
    (hfile : d.tree.fileAt item.path = some item.sizeBytes)
    (hrest : Deletes config denied items
      ⟨d.tree.removeFile item.path, d.deletedFiles + 1, d.deletedBytes + item.sizeBytes⟩ outcome after) :
    Deletes config denied (item :: items) d outcome after where
  distinct := hrest.distinct
  files := by
    intro path
    rcases hrest.files path with h | ⟨hgone, hmem, hpath⟩
    · by_cases hitem : item.path = path
      · right
        refine ⟨?_, hitem ▸ List.mem_cons_self, hitem ▸ hsafe⟩
        rw [h, ← hitem]
        exact FileTree.fileAt_removeFile_self hdistinct item.path
      · left
        rw [h]
        exact FileTree.fileAt_removeFile_ne hitem
    · exact .inr ⟨hgone, List.mem_cons_of_mem _ hmem, hpath⟩
  done := by
    intro u hok other hmem hother
    rcases List.mem_cons.mp hmem with rfl | hmem
    · rcases hrest.files other.path with h | ⟨hgone, _⟩
      · rw [h]
        exact FileTree.fileAt_removeFile_self hdistinct other.path
      · exact hgone
    · exact hrest.done u hok other hmem hother
  failed := hrest.failed
  count := by
    have hcount := hrest.count
    have htotals := FileTree.removeFile_totals hfile
    simp only at hcount
    omega
  bytes := by
    have hbytes := hrest.bytes
    have htotals := FileTree.removeFile_totals hfile
    simp only at hbytes
    omega

theorem deleteItems_deletes (hdistinct : d.tree.Distinct)
    (hsizes : ∀ item ∈ items, d.tree.fileAt item.path = none ∨ d.tree.fileAt item.path = some item.sizeBytes) :
    Deletes config denied items d (Deletion.deleteItems config denied items d).1
      (Deletion.deleteItems config denied items d).2 := by
  induction items generalizing d with
  | nil =>
    refine ⟨hdistinct, fun _ => .inl rfl, ?_, ?_, rfl, rfl⟩
    · intro u _ item hmem
      cases hmem
    · intro path h
      cases h
  | cons item items ih =>
    have hitems := fun other hmem => hsizes other (List.mem_cons_of_mem item hmem)
    rw [Deletion.deleteItems]
    by_cases hsafe : config.isSafeToDelete item.path = true
    · rw [if_pos hsafe]
      rcases hsizes item List.mem_cons_self with hfile | hfile
      · rw [hfile]
        exact (ih hdistinct hitems).skip fun _ => hfile
      · rw [hfile]
        by_cases hdenied : denied item.path = true
        · simp only [hdenied, if_true]
          refine ⟨hdistinct, fun _ => .inl rfl, ?_, ?_, rfl, rfl⟩
          · intro u h
            cases h
          · intro path h
            cases h
            exact hdenied
        · simp only [hdenied]
          apply Deletes.remove hdistinct hsafe hfile
          apply ih (hdistinct.removeFile item.path)
          intro other hmem
          by_cases hpath : item.path = other.path
          · left
            rw [← hpath]
            exact FileTree.fileAt_removeFile_self hdistinct item.path
          · show (d.tree.removeFile item.path).fileAt other.path = none ∨ _
            rw [FileTree.fileAt_removeFile_ne hpath]
            exact hitems other hmem
    · rw [if_neg hsafe]
      exact (ih hdistinct hitems).skip fun h => absurd h hsafe

end Deletion

section Run

variable {config : RetentionConfig} {denied : List Text → Bool} {delete : Bool} {tree after : FileTree Text}
  {outcome : Except (List Text) RetentionReport}

/-- What a report says of the files before and after the run. -/
structure Accounts (config : RetentionConfig) (delete : Bool) (tree after : FileTree Text)
    (report : RetentionReport) : Prop where
  dryRun : report.dryRun = !delete
  scanned : ∀ path, path ∈ report.items.map ReclaimItem.path ↔ tree.fileAt path ≠ none ∧ Listed config path
  sizes : ∀ item ∈ report.items, tree.fileAt item.path = some item.sizeBytes
  reclaimed : delete = true → ∀ path, Reclaimable config path → after.fileAt path = none
  files : after.fileCount + report.deletedFiles = tree.fileCount
  bytes : after.totalBytes + report.deletedBytes = tree.totalBytes

/-- A run deletes reclaimable files only, and no file when it is not asked to; one
that ends without an error has deleted all of them, and its report counts each
deleted file once, though the directories may overlap. -/
theorem retention_reclaims (hdistinct : tree.Distinct)
    (hrun : runRetention config denied delete tree = (outcome, after)) :
    (∀ path, after.fileAt path = tree.fileAt path ∨
      (delete = true ∧ after.fileAt path = none ∧ Reclaimable config path)) ∧
    (∀ path, outcome = .error path → after = tree ∨ (delete = true ∧ denied path = true)) ∧
    ∀ report, outcome = .ok report → Accounts config delete tree after report := by
  rw [runRetention] at hrun
  cases hscan : config.scanReclaimable tree with
  | error path =>
    rw [hscan] at hrun
    cases hrun
    refine ⟨fun _ => .inl rfl, fun _ _ => .inl rfl, ?_⟩
    intro report h
    cases h
  | ok items =>
    obtain ⟨hsizes, hscanned⟩ := scanReclaimable_ok hdistinct hscan
    rw [hscan] at hrun
    cases delete with
    | false =>
      cases hrun
      refine ⟨fun _ => .inl rfl, fun _ _ => .inl rfl, ?_⟩
      intro report h
      cases h
      refine ⟨rfl, hscanned, hsizes, ?_, rfl, rfl⟩
      intro h
      cases h
    | true =>
      have hdeletes : Deletes config denied items ⟨tree, 0, 0⟩ (Deletion.deleteItems config denied items ⟨tree, 0, 0⟩).1
          (Deletion.deleteItems config denied items ⟨tree, 0, 0⟩).2 :=
        deleteItems_deletes hdistinct fun item hmem => .inr (hsizes item hmem)
      have hfiles : ∀ path, (Deletion.deleteItems config denied items ⟨tree, 0, 0⟩).2.tree.fileAt path =
          tree.fileAt path ∨ (true = true ∧
            (Deletion.deleteItems config denied items ⟨tree, 0, 0⟩).2.tree.fileAt path = none ∧
            Reclaimable config path) := by
        intro path
        rcases hdeletes.files path with h | ⟨hgone, hmem, hsafe⟩
        · exact .inl h
        · obtain ⟨hunpublished, hunaccepted⟩ := isSafeToDelete_iff.mp hsafe
          exact .inr ⟨rfl, hgone, ((hscanned path).mp hmem).2, hunpublished, hunaccepted⟩
      cases hdel : Deletion.deleteItems config denied items ⟨tree, 0, 0⟩ with
      | mk result d =>
        rw [hdel] at hdeletes hfiles
        cases result with
        | error path =>
          simp only [hdel, if_true] at hrun
          cases hrun
          refine ⟨hfiles, ?_, ?_⟩
          · intro path h
            cases h
            exact .inr ⟨rfl, hdeletes.failed path rfl⟩
          · intro report h
            cases h
        | ok u =>
          simp only [hdel, if_true] at hrun
          cases hrun
          refine ⟨hfiles, ?_, ?_⟩
          · intro path h
            cases h
          · intro report h
            cases h
            refine ⟨rfl, hscanned, hsizes, ?_, hdeletes.count, hdeletes.bytes⟩
            intro _ path hreclaimable
            by_cases hfile : tree.fileAt path = none
            · rcases hfiles path with hkept | ⟨_, hgone, _⟩
              · rw [hkept, hfile]
              · exact hgone
            · obtain ⟨item, hmem, rfl⟩ :=
                List.mem_map.mp ((hscanned path).mpr ⟨hfile, hreclaimable.listed⟩)
              exact hdeletes.done u rfl item hmem
                (isSafeToDelete_iff.mpr ⟨hreclaimable.unpublished, hreclaimable.unaccepted⟩)

end Run

section Sample

/-- The mirror and the served root lie under the state directory. -/
def nestedConfig : RetentionConfig where
  stateDir := ["srv".toList]
  archivesDir := ["srv".toList, "archives".toList]
  corporaDir := ["srv".toList, "packages".toList]

def nestedTree (quarantined partials : FileTree Text) : FileTree Text :=
  .dir "srv".toList true
    (.dir "archives".toList true (.file "legi.tar.gz".toList 9 partials)
      (.dir "ingest-quarantine".toList true quarantined
        (.dir "packages".toList true (.file "core.json.part".toList 5 .nil) .nil)))
    .nil

def nestedBefore : FileTree Text :=
  nestedTree (.file "run.json.part".toList 3 .nil) (.file ".legi.part".toList 4 .nil)

def nestedReport : RetentionReport where
  dryRun := false
  items := [
    ⟨["srv".toList, "ingest-quarantine".toList, "run.json.part".toList], .ingestQuarantine, 3⟩,
    ⟨["srv".toList, "archives".toList, ".legi.part".toList], .partialDownload, 4⟩,
    ⟨["srv".toList, "ingest-quarantine".toList, "run.json.part".toList], .staleTempWrite, 3⟩,
    ⟨["srv".toList, "packages".toList, "core.json.part".toList], .staleTempWrite, 5⟩]
  reclaimableBytes := 15
  reclaimableFiles := 4
  deletedFiles := 2
  deletedBytes := 7

theorem retention_reclaims_nested :
    (∀ path, (nestedTree .nil .nil).fileAt path = nestedBefore.fileAt path ∨
      (true = true ∧ (nestedTree .nil .nil).fileAt path = none ∧ Reclaimable nestedConfig path)) ∧
    Accounts nestedConfig true nestedBefore (nestedTree .nil .nil) nestedReport := by
  have hdistinct : nestedBefore.Distinct := by
    simp [nestedBefore, nestedTree, FileTree.Distinct, FileTree.names]
  have hrun : runRetention nestedConfig (fun _ => false) true nestedBefore =
      (.ok nestedReport, nestedTree .nil .nil) := rfl
  have h := retention_reclaims hdistinct hrun
  exact ⟨h.1, h.2.2 nestedReport rfl⟩

end Sample

end CorpusFeed
