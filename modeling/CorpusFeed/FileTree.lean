import Mathlib.Data.List.Basic
import Mathlib.Data.List.Nodup
import Mathlib.Algebra.BigOperators.Group.List.Basic

/-! A directory of files, as its entries are listed: regular files with their
sizes, directories, and entries that a walk passes over. -/

namespace CorpusFeed

inductive FileTree (α : Type*) where
  | nil
  | file (name : α) (size : Nat) (rest : FileTree α)
  /-- A symbolic link, or anything else that is no regular file. -/
  | special (name : α) (rest : FileTree α)
  | dir (name : α) (readable : Bool) (inner rest : FileTree α)
deriving DecidableEq

namespace FileTree

variable {α : Type*}

def names : FileTree α → List α
  | nil => []
  | file name _ rest => name :: rest.names
  | special name rest => name :: rest.names
  | dir name _ _ rest => name :: rest.names

/-- No two entries of a directory have one name. -/
def Distinct : FileTree α → Prop
  | nil => True
  | file name _ rest => name ∉ rest.names ∧ rest.Distinct
  | special name rest => name ∉ rest.names ∧ rest.Distinct
  | dir name _ inner rest => name ∉ rest.names ∧ inner.Distinct ∧ rest.Distinct

def fileCount : FileTree α → Nat
  | nil => 0
  | file _ _ rest => rest.fileCount + 1
  | special _ rest => rest.fileCount
  | dir _ _ inner rest => inner.fileCount + rest.fileCount

def totalBytes : FileTree α → Nat
  | nil => 0
  | file _ size rest => size + rest.totalBytes
  | special _ rest => rest.totalBytes
  | dir _ _ inner rest => inner.totalBytes + rest.totalBytes

section Paths

variable [DecidableEq α]

/-- The size of the regular file a path names. -/
def fileAt : FileTree α → List α → Option Nat
  | nil, _ => none
  | file name size rest, path => if path = [name] then some size else rest.fileAt path
  | special _ rest, path => rest.fileAt path
  | dir name _ inner rest, path =>
    if path.head? = some name then inner.fileAt path.tail else rest.fileAt path

def removeFile : FileTree α → List α → FileTree α
  | nil, _ => nil
  | file name size rest, path => if path = [name] then rest else file name size (rest.removeFile path)
  | special name rest, path => special name (rest.removeFile path)
  | dir name readable inner rest, path =>
    if path.head? = some name then dir name readable (inner.removeFile path.tail) rest
    else dir name readable inner (rest.removeFile path)

/-- What a directory has under a name. -/
inductive Child (α : Type*) where
  | missing
  | other
  | dir (readable : Bool) (inner : FileTree α)

def child (name : α) : FileTree α → Child α
  | nil => .missing
  | file first _ rest => if first = name then .other else rest.child name
  | special first rest => if first = name then .other else rest.child name
  | dir first readable inner rest => if first = name then .dir readable inner else rest.child name

/-- What reading the directory at a path gives. -/
inductive DirRead (α : Type*) where
  | missing
  | failed
  | entries (inner : FileTree α)

def readDir (tree : FileTree α) : List α → DirRead α
  | [] => .entries tree
  | name :: path =>
    match tree.child name with
    | .missing => .missing
    | .other => .failed
    | .dir readable inner => if readable then inner.readDir path else .failed

/-- The regular files below a directory whose names are accepted, in the order of
the walk, or the directory that cannot be read. -/
def collectFiles (accept : α → Bool) (dirPath : List α) : FileTree α → Except (List α) (List (List α))
  | nil => .ok []
  | file name _ rest => do
    let paths ← rest.collectFiles accept dirPath
    return if accept name then (dirPath ++ [name]) :: paths else paths
  | special _ rest => rest.collectFiles accept dirPath
  | dir name readable inner rest =>
    if readable then do
      let inside ← inner.collectFiles accept (dirPath ++ [name])
      let paths ← rest.collectFiles accept dirPath
      return inside ++ paths
    else .error (dirPath ++ [name])

variable {tree inner : FileTree α} {path other root below dirPath : List α} {size : Nat} {accept : α → Bool}

theorem head_mem_names (h : tree.fileAt path = some size) : ∃ name ∈ tree.names, path.head? = some name := by
  induction tree with
  | nil => simp [fileAt] at h
  | file name s rest ih =>
    rw [fileAt] at h
    by_cases hpath : path = [name]
    · exact ⟨name, List.mem_cons_self, by rw [hpath]; rfl⟩
    · rw [if_neg hpath] at h
      obtain ⟨other, hmem, hhead⟩ := ih h
      exact ⟨other, List.mem_cons_of_mem _ hmem, hhead⟩
  | special name rest ih =>
    obtain ⟨other, hmem, hhead⟩ := ih h
    exact ⟨other, List.mem_cons_of_mem _ hmem, hhead⟩
  | dir name readable inner rest _ ih =>
    rw [fileAt] at h
    by_cases hhead : path.head? = some name
    · exact ⟨name, List.mem_cons_self, hhead⟩
    · rw [if_neg hhead] at h
      obtain ⟨other, hmem, hother⟩ := ih h
      exact ⟨other, List.mem_cons_of_mem _ hmem, hother⟩

theorem fileAt_eq_none {name : α} (hname : name ∉ tree.names) (hhead : path.head? = some name) :
    tree.fileAt path = none := by
  by_contra hfound
  obtain ⟨s, hs⟩ := Option.ne_none_iff_exists'.mp hfound
  obtain ⟨other, hmem, hother⟩ := head_mem_names hs
  rw [hhead] at hother
  have hsame : name = other := by simpa using hother
  exact hname (hsame ▸ hmem)

theorem names_removeFile_subset (tree : FileTree α) (path : List α) :
    ∀ name ∈ (tree.removeFile path).names, name ∈ tree.names := by
  induction tree with
  | nil => intro name h; exact h
  | file name s rest ih =>
    intro other h
    rw [removeFile] at h
    by_cases hpath : path = [name]
    · rw [if_pos hpath] at h
      exact List.mem_cons_of_mem _ h
    · rw [if_neg hpath] at h
      rcases List.mem_cons.mp h with h | h
      · exact List.mem_cons.mpr (.inl h)
      · exact List.mem_cons_of_mem _ (ih other h)
  | special name rest ih =>
    intro other h
    rcases List.mem_cons.mp h with h | h
    · exact List.mem_cons.mpr (.inl h)
    · exact List.mem_cons_of_mem _ (ih other h)
  | dir name readable inner rest _ ih =>
    intro other h
    rw [removeFile] at h
    by_cases hhead : path.head? = some name
    · rw [if_pos hhead] at h
      exact h
    · rw [if_neg hhead] at h
      rcases List.mem_cons.mp h with h | h
      · exact List.mem_cons.mpr (.inl h)
      · exact List.mem_cons_of_mem _ (ih other h)

theorem Distinct.removeFile (h : tree.Distinct) (path : List α) : (tree.removeFile path).Distinct := by
  induction tree generalizing path with
  | nil => exact h
  | file name s rest ih =>
    rw [FileTree.removeFile]
    by_cases hpath : path = [name]
    · rw [if_pos hpath]
      exact h.2
    · rw [if_neg hpath]
      exact ⟨fun hmem => h.1 (names_removeFile_subset rest path name hmem), ih h.2 path⟩
  | special name rest ih =>
    exact ⟨fun hmem => h.1 (names_removeFile_subset rest path name hmem), ih h.2 path⟩
  | dir name readable inner rest ihInner ih =>
    rw [FileTree.removeFile]
    by_cases hhead : path.head? = some name
    · rw [if_pos hhead]
      exact ⟨h.1, ihInner h.2.1 path.tail, h.2.2⟩
    · rw [if_neg hhead]
      exact ⟨fun hmem => h.1 (names_removeFile_subset rest path name hmem), h.2.1, ih h.2.2 path⟩

theorem fileAt_removeFile_self (h : tree.Distinct) (path : List α) : (tree.removeFile path).fileAt path = none := by
  induction tree generalizing path with
  | nil => rfl
  | file name s rest ih =>
    rw [removeFile]
    by_cases hpath : path = [name]
    · rw [if_pos hpath]
      exact fileAt_eq_none h.1 (by rw [hpath]; rfl)
    · rw [if_neg hpath, fileAt, if_neg hpath]
      exact ih h.2 path
  | special name rest ih => exact ih h.2 path
  | dir name readable inner rest ihInner ih =>
    rw [removeFile]
    by_cases hhead : path.head? = some name
    · rw [if_pos hhead, fileAt, if_pos hhead]
      exact ihInner h.2.1 path.tail
    · rw [if_neg hhead, fileAt, if_neg hhead]
      exact ih h.2.2 path

omit [DecidableEq α] in
theorem tail_ne {name : α} (hne : path ≠ other) (hpath : path.head? = some name) (hother : other.head? = some name) :
    path.tail ≠ other.tail := by
  intro htail
  apply hne
  rw [← List.cons_head?_tail hpath, ← List.cons_head?_tail hother, htail]

theorem fileAt_removeFile_ne (hne : path ≠ other) : (tree.removeFile path).fileAt other = tree.fileAt other := by
  induction tree generalizing path other with
  | nil => rfl
  | file name s rest ih =>
    rw [removeFile, fileAt]
    by_cases hpath : path = [name]
    · rw [if_pos hpath, if_neg (fun hother => hne (hpath.trans hother.symm))]
    · rw [if_neg hpath, fileAt, ih hne]
  | special name rest ih => exact ih hne
  | dir name readable inner rest ihInner ih =>
    rw [removeFile, fileAt]
    by_cases hhead : path.head? = some name
    · rw [if_pos hhead, fileAt]
      by_cases hother : other.head? = some name
      · rw [if_pos hother, if_pos hother]
        exact ihInner (tail_ne hne hhead hother)
      · rw [if_neg hother, if_neg hother]
    · rw [if_neg hhead, fileAt, ih hne]

theorem removeFile_totals (h : tree.fileAt path = some size) :
    (tree.removeFile path).fileCount + 1 = tree.fileCount ∧
      (tree.removeFile path).totalBytes + size = tree.totalBytes := by
  induction tree generalizing path with
  | nil => simp [fileAt] at h
  | file name s rest ih =>
    rw [fileAt] at h
    rw [removeFile]
    by_cases hpath : path = [name]
    · rw [if_pos hpath] at h ⊢
      have hsize : s = size := by simpa using h
      simp only [fileCount, totalBytes, true_and]
      omega
    · rw [if_neg hpath] at h ⊢
      have := ih h
      simp only [fileCount, totalBytes]
      omega
  | special name rest ih =>
    have := ih h
    simp only [removeFile, fileCount, totalBytes]
    omega
  | dir name readable inner rest ihInner ih =>
    rw [fileAt] at h
    rw [removeFile]
    by_cases hhead : path.head? = some name
    · rw [if_pos hhead] at h ⊢
      have := ihInner h
      simp only [fileCount, totalBytes]
      omega
    · rw [if_neg hhead] at h ⊢
      have := ih h
      simp only [fileCount, totalBytes]
      omega

theorem Distinct.child {name : α} {readable : Bool} (h : tree.Distinct)
    (hchild : tree.child name = .dir readable inner) : inner.Distinct := by
  induction tree with
  | nil => cases hchild
  | file first s rest ih =>
    rw [FileTree.child] at hchild
    split at hchild
    · cases hchild
    · exact ih h.2 hchild
  | special first rest ih =>
    rw [FileTree.child] at hchild
    split at hchild
    · cases hchild
    · exact ih h.2 hchild
  | dir first readable inside rest _ ih =>
    rw [FileTree.child] at hchild
    split at hchild
    · cases hchild
      exact h.2.1
    · exact ih h.2.2 hchild

theorem fileAt_of_child_dir {name : α} {readable : Bool} (hchild : tree.child name = .dir readable inner) :
    tree.fileAt (name :: below) = inner.fileAt below := by
  induction tree with
  | nil => cases hchild
  | file first s rest ih =>
    rw [child] at hchild
    split at hchild
    · cases hchild
    · rename_i hfirst
      rw [fileAt, if_neg (fun h => hfirst (by simpa using (List.cons.inj h).1.symm))]
      exact ih hchild
  | special first rest ih =>
    rw [child] at hchild
    split at hchild
    · cases hchild
    · exact ih hchild
  | dir first readable inside rest _ ih =>
    rw [child] at hchild
    rw [fileAt, List.head?_cons, List.tail_cons]
    split at hchild
    · rename_i hfirst
      cases hchild
      rw [if_pos (congrArg some hfirst.symm)]
    · rename_i hfirst
      rw [if_neg (fun h => hfirst (Option.some.inj h).symm)]
      exact ih hchild

theorem fileAt_of_child_missing {name : α} (hchild : tree.child name = .missing) :
    tree.fileAt (name :: below) = none := by
  refine fileAt_eq_none ?_ List.head?_cons
  induction tree with
  | nil => exact List.not_mem_nil
  | file first _ rest ih | special first rest ih | dir first _ _ rest _ ih =>
    rw [child] at hchild
    split at hchild
    · cases hchild
    · rename_i hfirst
      rw [names, List.mem_cons, not_or]
      exact ⟨Ne.symm hfirst, ih hchild⟩

theorem Distinct.readDir (h : tree.Distinct) (hread : tree.readDir root = .entries inner) : inner.Distinct := by
  induction root generalizing tree with
  | nil =>
    cases hread
    exact h
  | cons name path ih =>
    rw [FileTree.readDir] at hread
    cases hchild : tree.child name with
    | missing => simp [hchild] at hread
    | other => simp [hchild] at hread
    | dir readable inside =>
      cases readable with
      | false => simp [hchild] at hread
      | true => exact ih (h.child hchild) (by simpa [hchild] using hread)

theorem fileAt_of_readDir (hread : tree.readDir root = .entries inner) :
    tree.fileAt (root ++ below) = inner.fileAt below := by
  induction root generalizing tree with
  | nil =>
    cases hread
    rfl
  | cons name path ih =>
    rw [readDir] at hread
    cases hchild : tree.child name with
    | missing => simp [hchild] at hread
    | other => simp [hchild] at hread
    | dir readable inside =>
      cases readable with
      | false => simp [hchild] at hread
      | true =>
        rw [List.cons_append, fileAt_of_child_dir hchild]
        exact ih (by simpa [hchild] using hread)

theorem fileAt_of_readDir_missing (hread : tree.readDir root = .missing) : tree.fileAt (root ++ below) = none := by
  induction root generalizing tree with
  | nil => cases hread
  | cons name path ih =>
    rw [readDir] at hread
    cases hchild : tree.child name with
    | missing => exact fileAt_of_child_missing hchild
    | other => simp [hchild] at hread
    | dir readable inside =>
      cases readable with
      | false => simp [hchild] at hread
      | true =>
        rw [List.cons_append, fileAt_of_child_dir hchild]
        exact ih (by simpa [hchild] using hread)

theorem fileAt_nil (tree : FileTree α) : tree.fileAt [] = none := by
  induction tree with
  | nil => rfl
  | file name s rest ih => exact ih
  | special name rest ih => exact ih
  | dir name readable inner rest _ ih => exact ih

theorem fileAt_file {name : α} {s : Nat} {rest : FileTree α} (hname : name ∉ rest.names) :
    (file name s rest).fileAt below = some size ↔ (below = [name] ∧ s = size) ∨ rest.fileAt below = some size := by
  rw [fileAt]
  by_cases hbelow : below = [name]
  · have hnone : rest.fileAt below = none := fileAt_eq_none hname (by rw [hbelow]; rfl)
    simp [hbelow, hbelow ▸ hnone]
  · simp [hbelow]

theorem fileAt_dir {name : α} {readable : Bool} {rest : FileTree α} (hname : name ∉ rest.names) :
    (dir name readable inner rest).fileAt below = some size ↔
      (∃ inside, below = name :: inside ∧ inner.fileAt inside = some size) ∨ rest.fileAt below = some size := by
  rw [fileAt]
  by_cases hhead : below.head? = some name
  · have hnone : rest.fileAt below = none := fileAt_eq_none hname hhead
    rw [if_pos hhead, hnone]
    constructor
    · intro h
      exact .inl ⟨below.tail, (List.cons_head?_tail hhead).symm, h⟩
    · rintro (⟨inside, rfl, h⟩ | h)
      · exact h
      · cases h
  · rw [if_neg hhead]
    constructor
    · exact .inr
    · rintro (⟨inside, rfl, _⟩ | h)
      · exact absurd rfl hhead
      · exact h

theorem getLast?_below {name : α} (h : inner.fileAt below = some size) :
    (name :: below).getLast? = below.getLast? := by
  cases below with
  | nil => rw [fileAt_nil] at h; cases h
  | cons first rest => rw [List.getLast?_cons_cons]

/-- The walk below `dirPath` finds the file at `path`. -/
def FoundBelow (accept : α → Bool) (dirPath : List α) (tree : FileTree α) (path : List α) : Prop :=
  ∃ below size name, path = dirPath ++ below ∧ tree.fileAt below = some size ∧
    below.getLast? = some name ∧ accept name = true

theorem foundBelow_file {name : α} {s : Nat} {rest : FileTree α} (hname : name ∉ rest.names) :
    FoundBelow accept dirPath (file name s rest) path ↔
      (path = dirPath ++ [name] ∧ accept name = true) ∨ FoundBelow accept dirPath rest path := by
  constructor
  · rintro ⟨below, size, last, hpath, hfile, hlast, haccept⟩
    rcases (fileAt_file hname).mp hfile with ⟨rfl, _⟩ | hrest
    · have hsame : name = last := by simpa using hlast
      exact .inl ⟨hpath, hsame ▸ haccept⟩
    · exact .inr ⟨below, size, last, hpath, hrest, hlast, haccept⟩
  · rintro (⟨hpath, haccept⟩ | ⟨below, size, last, hpath, hfile, hlast, haccept⟩)
    · exact ⟨[name], s, name, hpath, (fileAt_file hname).mpr (.inl ⟨rfl, rfl⟩), rfl, haccept⟩
    · exact ⟨below, size, last, hpath, (fileAt_file hname).mpr (.inr hfile), hlast, haccept⟩

theorem foundBelow_dir {name : α} {readable : Bool} {rest : FileTree α} (hname : name ∉ rest.names) :
    FoundBelow accept dirPath (dir name readable inner rest) path ↔
      FoundBelow accept (dirPath ++ [name]) inner path ∨ FoundBelow accept dirPath rest path := by
  constructor
  · rintro ⟨below, size, last, hpath, hfile, hlast, haccept⟩
    rcases (fileAt_dir hname).mp hfile with ⟨inside, rfl, hinside⟩ | hrest
    · exact .inl ⟨inside, size, last, by rw [hpath, List.append_cons], hinside,
        by rw [← hlast, getLast?_below hinside], haccept⟩
    · exact .inr ⟨below, size, last, hpath, hrest, hlast, haccept⟩
  · rintro (⟨inside, size, last, hpath, hfile, hlast, haccept⟩ | ⟨below, size, last, hpath, hfile, hlast, haccept⟩)
    · exact ⟨name :: inside, size, last, by rw [hpath, List.append_assoc, List.singleton_append],
        (fileAt_dir hname).mpr (.inl ⟨inside, rfl, hfile⟩), by rw [getLast?_below hfile, hlast], haccept⟩
    · exact ⟨below, size, last, hpath, (fileAt_dir hname).mpr (.inr hfile), hlast, haccept⟩

theorem mem_collectFiles {paths : List (List α)} (hdistinct : tree.Distinct)
    (h : tree.collectFiles accept dirPath = .ok paths) :
    path ∈ paths ↔ FoundBelow accept dirPath tree path := by
  induction tree generalizing dirPath paths with
  | nil =>
    cases h
    simp [FoundBelow, fileAt]
  | file name s rest ih =>
    rw [collectFiles] at h
    cases hrest : rest.collectFiles accept dirPath with
    | error e =>
      rw [hrest] at h
      cases h
    | ok found =>
      rw [hrest] at h
      cases h
      rw [foundBelow_file hdistinct.1, ← ih hdistinct.2 hrest]
      by_cases haccept : accept name = true
      · simp [haccept]
      · simp [haccept]
  | special name rest ih => exact ih hdistinct.2 h
  | dir name readable inner rest ihInner ih =>
    rw [collectFiles] at h
    cases readable with
    | false => simp at h
    | true =>
      rw [if_pos rfl] at h
      cases hinner : inner.collectFiles accept (dirPath ++ [name]) with
      | error e =>
        rw [hinner] at h
        cases h
      | ok inside =>
        cases hrest : rest.collectFiles accept dirPath with
        | error e =>
          rw [hinner, hrest] at h
          cases h
        | ok found =>
          rw [hinner, hrest] at h
          cases h
          rw [foundBelow_dir hdistinct.1, ← ihInner hdistinct.2.1 hinner, ← ih hdistinct.2.2 hrest,
            List.mem_append]

end Paths

end FileTree

end CorpusFeed
