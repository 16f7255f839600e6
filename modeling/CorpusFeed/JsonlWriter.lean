import CorpusFeed.BoundedLine
import CorpusFeed.BufferedWriter
import CorpusFeed.JsonText
import CorpusFeed.PackageBuild
import CorpusFeed.PayloadAggregate

/-! One payload file of an incremental package: the rows of one operation, one
JSON text a line, hashed while they are written. -/

namespace CorpusFeed.JsonlOp

inductive Compression where
  | none
  | zstd
  | gzip
deriving DecidableEq

structure PayloadFile where
  fileName : Text
  table : Text
  columns : List Text
  op : EventKind
  format : PayloadFormat
  compression : Compression
  rowCount : ℕ
  digest : Text
deriving DecidableEq

structure OperationCount where
  table : Text
  op : EventKind
  count : ℕ
deriving DecidableEq

/-- What a build records of its payload files. -/
structure PayloadRecord where
  files : List PayloadFile
  perFileDigests : List (Text × Text)
  operations : List OperationCount
deriving DecidableEq

/-- The pieces a serializer hands to a writer are those of the compact text. -/
structure Serializer where
  fragments : Json → List Bytes
  flatten_eq : ∀ row, (fragments row).flatten = asBytes row.print

/-- Whether a file can be created, and how its device takes the writes. -/
structure Disk where
  creates : Bool
  capacity : ℕ
  answers : List DeviceAnswer

/-- The file name and the writer are set together, at the first row. -/
structure JsonlOpWriter where
  tableOrGroup : Text
  op : EventKind
  columns : List Text
  writer : Option (Text × HashingWriter UInt8)
  rowCount : ℕ

/-- What `finish` leaves: the records, and the payload file if there is one. -/
structure Finished where
  record : PayloadRecord
  file : Option (Text × Bytes)

def digestBytes (sha256 : Bytes → Vector UInt8 32) (bytes : Bytes) : Text := formatSha256 (sha256 bytes)

/-- The reads up to the first empty one, hashed and handed on. -/
def teeDigest (sha256 : Bytes → Vector UInt8 32) : List Bytes → Bytes → Text × Bytes
  | [], seen => (formatSha256 (sha256 seen), seen)
  | read :: reads, seen =>
    if read = [] then (formatSha256 (sha256 seen), seen) else teeDigest sha256 reads (seen ++ read)

def jsonlFileName (tableOrGroup : Text) (op : EventKind) : Text :=
  incrementalFileName { table := tableOrGroup, op := op, bytes := [], count := 0 }

def ioError (e : WriteError) : BuildError :=
  match e with
  | .writeZero => .io "failed to write whole buffer"
  | .interrupted => .io "interrupted"
  | .failed => .io "the device failed"

def jsonError (e : WriteError) : BuildError :=
  match ioError e with
  | .io message => .json message
  | e => e

namespace JsonlOpWriter

def new (tableOrGroup : Text) (op : EventKind) (columns : List Text) : JsonlOpWriter :=
  ⟨tableOrGroup, op, columns, none, 0⟩

section Write

variable (disk : Disk) (serializer : Serializer)

def writerMut (w : JsonlOpWriter) : Except BuildError (Text × HashingWriter UInt8) :=
  match w.writer with
  | some opened => .ok opened
  | none =>
    if disk.creates then .ok (jsonlFileName w.tableOrGroup w.op, ⟨⟨disk.capacity, [], [], disk.answers⟩, []⟩)
    else .error (.io "cannot create the payload file")

def writeFragments : List Bytes → HashingWriter UInt8 → Except WriteError Unit × HashingWriter UInt8
  | [], w => (.ok (), w)
  | fragment :: rest, w =>
    match w.writeAll fragment with
    | (.ok (), w) => writeFragments rest w
    | (.error e, w) => (.error e, w)

/-- Fewer than `2 ^ 64` rows fit into a file, so the counter does not wrap. -/
def writeRow (w : JsonlOpWriter) (row : Json) : Except BuildError JsonlOpWriter :=
  match w.writerMut disk with
  | .error e => .error e
  | .ok (fileName, writer) =>
    match writeFragments (serializer.fragments row) writer with
    | (.error e, _) => .error (jsonError e)
    | (.ok (), writer) =>
      match writer.writeAll [lineFeed] with
      | (.error e, _) => .error (ioError e)
      | (.ok (), writer) => .ok { w with writer := some (fileName, writer), rowCount := w.rowCount + 1 }

def writeRows : List Json → JsonlOpWriter → Except BuildError JsonlOpWriter
  | [], w => .ok w
  | row :: rows, w =>
    match w.writeRow disk serializer row with
    | .error e => .error e
    | .ok w => writeRows rows w

end Write

/-- The entries of one payload file. -/
def recorded (w : JsonlOpWriter) (fileName digest : Text) (record : PayloadRecord) : PayloadRecord where
  perFileDigests := insertDigest record.perFileDigests (fileName, digest)
  operations := record.operations ++ [⟨w.tableOrGroup, w.op, w.rowCount⟩]
  files := record.files ++ [⟨fileName, w.tableOrGroup, w.columns, w.op, .jsonl, .none, w.rowCount, digest⟩]

def finish (sha256 : Bytes → Vector UInt8 32) (w : JsonlOpWriter) (record : PayloadRecord) :
    Except BuildError Finished :=
  match w.writer with
  | none => .ok ⟨record, none⟩
  | some (fileName, writer) =>
    match writer.flush with
    | (.error e, _) => .error (ioError e)
    | (.ok (), writer) =>
      .ok ⟨w.recorded fileName (digestBytes sha256 writer.hashed) record, some (fileName, writer.inner.device)⟩

end JsonlOpWriter

/-- The bytes of the rows: each row on a line of its own. -/
def rowsBytes (rows : List Json) : Bytes := rows.flatMap fun row => asBytes row.print ++ [lineFeed]

theorem teeDigest_eq (sha256 : Bytes → Vector UInt8 32) {reads : List Bytes} (hreads : ∀ read ∈ reads, read ≠ [])
    (seen : Bytes) :
    teeDigest sha256 reads seen = (digestBytes sha256 (seen ++ reads.flatten), seen ++ reads.flatten) := by
  induction reads generalizing seen with
  | nil => rw [teeDigest, List.flatten_nil, List.append_nil, digestBytes]
  | cons read reads ih =>
    have hread := hreads read List.mem_cons_self
    have hrest := ih (fun r hr => hreads r (List.mem_cons_of_mem read hr)) (seen ++ read)
    rw [teeDigest, if_neg hread, hrest, List.flatten_cons, List.append_assoc]

namespace JsonlOpWriter

variable {disk : Disk} {serializer : Serializer}

theorem writeFragments_ok {fragments : List Bytes} {w w' : HashingWriter UInt8}
    (h : writeFragments fragments w = (.ok (), w')) : HashingWriter.Wrote fragments.flatten w w' := by
  induction fragments generalizing w with
  | nil =>
    cases h
    exact HashingWriter.Wrote.refl _
  | cons fragment rest ih =>
    rw [writeFragments] at h
    split at h
    · next v hwrite => exact (HashingWriter.writeAll_ok hwrite).trans (ih h)
    · cases h

/-- What the writer holds after the rows: no file before the first row, and then
the lines of all rows, written and hashed. -/
structure Holds (start : JsonlOpWriter) (rows : List Json) (w : JsonlOpWriter) : Prop where
  tableOrGroup : w.tableOrGroup = start.tableOrGroup
  op : w.op = start.op
  columns : w.columns = start.columns
  rowCount : w.rowCount = rows.length
  unopened : rows = [] → w.writer = none
  opened : rows ≠ [] → ∃ writer, w.writer = some (jsonlFileName start.tableOrGroup start.op, writer) ∧
    writer.inner.taken = rowsBytes rows ∧ writer.hashed = rowsBytes rows

theorem writerMut_ok {start w : JsonlOpWriter} {rows : List Json} (h : Holds start rows w) {fileName : Text}
    {writer : HashingWriter UInt8} (hw : w.writerMut disk = .ok (fileName, writer)) :
    fileName = jsonlFileName start.tableOrGroup start.op ∧ writer.inner.taken = rowsBytes rows ∧
      writer.hashed = rowsBytes rows := by
  unfold writerMut at hw
  by_cases hrows : rows = []
  · rw [h.unopened hrows] at hw
    simp only at hw
    split at hw
    · cases hw
      rw [h.tableOrGroup, h.op, hrows]
      exact ⟨rfl, rfl, rfl⟩
    · cases hw
  · obtain ⟨opened, hopened, htaken, hhashed⟩ := h.opened hrows
    rw [hopened] at hw
    cases hw
    exact ⟨rfl, htaken, hhashed⟩

theorem writeRow_holds {start w w' : JsonlOpWriter} {rows : List Json} {row : Json} (h : Holds start rows w)
    (hw : w.writeRow disk serializer row = .ok w') : Holds start (rows ++ [row]) w' := by
  unfold writeRow at hw
  split at hw
  · cases hw
  next fileName writer hopen =>
  split at hw
  · cases hw
  next texted hfragments =>
  split at hw
  · cases hw
  next ended hend =>
  cases hw
  obtain ⟨rfl, htaken, hhashed⟩ := writerMut_ok h hopen
  have hline := (writeFragments_ok hfragments).trans (HashingWriter.writeAll_ok hend)
  rw [serializer.flatten_eq] at hline
  have hbytes : rowsBytes (rows ++ [row]) = rowsBytes rows ++ (asBytes row.print ++ [lineFeed]) := by
    simp [rowsBytes]
  refine ⟨h.tableOrGroup, h.op, h.columns, ?_, fun hnil => by simp at hnil, fun _ => ⟨ended, rfl, ?_, ?_⟩⟩
  · rw [List.length_append, ← h.rowCount]
    rfl
  · rw [hline.taken, htaken, hbytes]
  · rw [hline.hashed, hhashed, hbytes]

theorem writeRows_holds {start w w' : JsonlOpWriter} {before rows : List Json} (h : Holds start before w)
    (hw : writeRows disk serializer rows w = .ok w') : Holds start (before ++ rows) w' := by
  induction rows generalizing before w with
  | nil =>
    cases hw
    rwa [List.append_nil]
  | cons row rows ih =>
    rw [writeRows] at hw
    split at hw
    · cases hw
    next next hrow =>
    have hrest := ih (writeRow_holds h hrow) hw
    rwa [List.append_assoc, List.singleton_append] at hrest

theorem new_holds (tableOrGroup : Text) (op : EventKind) (columns : List Text) :
    Holds (new tableOrGroup op columns) [] (new tableOrGroup op columns) :=
  ⟨rfl, rfl, rfl, rfl, fun _ => rfl, fun h => absurd rfl h⟩

theorem finish_ok {sha256 : Bytes → Vector UInt8 32} {start w : JsonlOpWriter} {rows : List Json} {record : PayloadRecord}
    {out : Finished} (h : Holds start rows w) (hout : w.finish sha256 record = .ok out) :
    (rows = [] → out = ⟨record, none⟩) ∧
      (rows ≠ [] → out.file = some (jsonlFileName start.tableOrGroup start.op, rowsBytes rows) ∧
        out.record = w.recorded (jsonlFileName start.tableOrGroup start.op) (digestBytes sha256 (rowsBytes rows)) record) := by
  unfold finish at hout
  constructor
  · intro hrows
    rw [h.unopened hrows] at hout
    cases hout
    rfl
  · intro hrows
    obtain ⟨writer, hwriter, htaken, hhashed⟩ := h.opened hrows
    rw [hwriter] at hout
    simp only at hout
    split at hout
    · cases hout
    next flushed hflush =>
    cases hout
    obtain ⟨hsame, hdevice⟩ := HashingWriter.flush_ok hflush
    exact ⟨by rw [hdevice, htaken], by rw [hsame, hhashed]⟩

end JsonlOpWriter

end CorpusFeed.JsonlOp
