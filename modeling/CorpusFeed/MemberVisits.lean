import CorpusFeed.BoundedLine

/-! Reading the XML members of one archive. Whatever the visitor does, it is given
the members of one list one after another. -/

namespace CorpusFeed.MemberBatches

structure ArchiveMember where
  archivePath : Text
  memberPath : Text
  bytes : Bytes
deriving DecidableEq

inductive ArchiveVisit where
  | continue
  | stop
deriving DecidableEq

inductive ArchiveReadError where
  | open (path : Text) (source : String)
  | archive (path : Text) (source : String)
  | member (archive member : Text) (source : String)
  | memberTooLarge (archive member : Text) (limit : ℕ)
deriving DecidableEq

/-- An entry of the archive. Its bytes can be read up to where a read fails. -/
structure TarEntry where
  isFile : Bool
  path : Except String Text
  bytes : Bytes
  fails : Option String

/-- An archive file as a reader finds it. -/
structure ArchiveFile where
  path : Text
  opens : Except String Unit
  lists : Except String Unit
  entries : List (Except String TarEntry)

def dotXml : Text := ['.', 'x', 'm', 'l']

variable (archivePath : Text) (maxMemberBytes : ℕ)

/-- One byte more than is allowed is read. -/
def readBounded (memberPath : Text) (entry : TarEntry) : Except ArchiveReadError Bytes :=
  if maxMemberBytes < entry.bytes.length then .error (.memberTooLarge archivePath memberPath maxMemberBytes)
  else
    match entry.fails with
    | some source => .error (.member archivePath memberPath source)
    | none => .ok entry.bytes

/-- The member of an entry, if it is one. -/
def readEntry (entry : Except String TarEntry) : Except ArchiveReadError (Option ArchiveMember) :=
  match entry with
  | .error source => .error (.archive archivePath source)
  | .ok entry =>
    if entry.isFile = false then .ok none
    else
      match entry.path with
      | .error source => .error (.archive archivePath source)
      | .ok memberPath =>
        if dotXml.isSuffixOf memberPath = false then .ok none
        else
          match readBounded archivePath maxMemberBytes memberPath entry with
          | .error e => .error e
          | .ok bytes => .ok (some ⟨archivePath, memberPath, bytes⟩)

section Visit

variable {σ : Type*} (visit : ArchiveMember → σ → Except ArchiveReadError ArchiveVisit × σ)

def visitEntries : List (Except String TarEntry) → ℕ → σ → Except ArchiveReadError ℕ × σ
  | [], visited, s => (.ok visited, s)
  | entry :: entries, visited, s =>
    match readEntry archivePath maxMemberBytes entry with
    | .error e => (.error e, s)
    | .ok none => visitEntries entries visited s
    | .ok (some member) =>
      match visit member s with
      | (.error e, s) => (.error e, s)
      | (.ok .stop, s) => (.ok (visited + 1), s)
      | (.ok .continue, s) => visitEntries entries (visited + 1) s

end Visit

def forEachXmlMemberUntil {σ : Type*} (file : ArchiveFile) (maxMemberBytes : ℕ)
    (visit : ArchiveMember → σ → Except ArchiveReadError ArchiveVisit × σ) (s : σ) : Except ArchiveReadError ℕ × σ :=
  match file.opens with
  | .error source => (.error (.open file.path source), s)
  | .ok () =>
    match file.lists with
    | .error source => (.error (.archive file.path source), s)
    | .ok () => visitEntries file.path maxMemberBytes visit file.entries 0 s

/-- The members before the first entry that cannot be read, and its error. -/
def entryMembers : List (Except String TarEntry) → List ArchiveMember × Option ArchiveReadError
  | [] => ([], none)
  | entry :: entries =>
    match readEntry archivePath maxMemberBytes entry with
    | .error e => ([], some e)
    | .ok none => entryMembers entries
    | .ok (some member) => (member :: (entryMembers entries).1, (entryMembers entries).2)

def ArchiveFile.members (file : ArchiveFile) (maxMemberBytes : ℕ) : List ArchiveMember × Option ArchiveReadError :=
  match file.opens with
  | .error source => ([], some (.open file.path source))
  | .ok () =>
    match file.lists with
    | .error source => ([], some (.archive file.path source))
    | .ok () => entryMembers file.path maxMemberBytes file.entries

/-- Visiting the members of a list that may end with an error. -/
def visitAll {σ : Type*} (visit : ArchiveMember → σ → Except ArchiveReadError ArchiveVisit × σ)
    (failure : Option ArchiveReadError) : List ArchiveMember → ℕ → σ → Except ArchiveReadError ℕ × σ
  | [], visited, s =>
    match failure with
    | none => (.ok visited, s)
    | some e => (.error e, s)
  | member :: members, visited, s =>
    match visit member s with
    | (.error e, s) => (.error e, s)
    | (.ok .stop, s) => (.ok (visited + 1), s)
    | (.ok .continue, s) => visitAll visit failure members (visited + 1) s

variable {σ : Type*} {visit : ArchiveMember → σ → Except ArchiveReadError ArchiveVisit × σ}

theorem visitEntries_eq (entries : List (Except String TarEntry)) (visited : ℕ) (s : σ) :
    visitEntries archivePath maxMemberBytes visit entries visited s =
      visitAll visit (entryMembers archivePath maxMemberBytes entries).2 (entryMembers archivePath maxMemberBytes entries).1
        visited s := by
  induction entries generalizing visited s with
  | nil => rfl
  | cons entry entries ih =>
    rw [visitEntries, entryMembers]
    cases readEntry archivePath maxMemberBytes entry with
    | error e => rfl
    | ok found =>
      cases found with
      | none => exact ih visited s
      | some member =>
        simp only [visitAll, ih]

/-- The reader visits the members of the archive in their order, up to the first
stop, and fails where they cannot be read. -/
theorem forEachXmlMemberUntil_eq (file : ArchiveFile) (maxMemberBytes : ℕ) (s : σ) :
    forEachXmlMemberUntil file maxMemberBytes visit s =
      visitAll visit (file.members maxMemberBytes).2 (file.members maxMemberBytes).1 0 s := by
  unfold forEachXmlMemberUntil ArchiveFile.members
  cases file.opens with
  | error source => rfl
  | ok opened =>
    cases file.lists with
    | error source => rfl
    | ok listed => exact visitEntries_eq file.path maxMemberBytes file.entries 0 s

end CorpusFeed.MemberBatches
