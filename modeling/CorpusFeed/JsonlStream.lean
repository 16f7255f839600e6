import CorpusFeed.ClientGates
import CorpusFeed.JsonlWriter

/-! Reading a payload file of rows back, line by line, and handing the rows to an
applier in batches. -/

namespace CorpusFeed.JsonlOp

/-- The bytes up to each line feed and with it. Where the bytes end, the file ends
or the read fails. -/
def readLines (fails : Option String) (line : Bytes) : Bytes → List (Except String Bytes)
  | [] =>
    match fails with
    | some message => [.error message]
    | none => if line = [] then [] else [.ok line]
  | b :: rest =>
    if b = lineFeed then .ok (line ++ [b]) :: readLines fails [] rest else readLines fails (line ++ [b]) rest

def fromUtf8 (bytes : Bytes) : Option Text :=
  if asBytes (fromUtf8Lossy bytes) = bytes then some (fromUtf8Lossy bytes) else none

/-- A carriage return is dropped only before a line feed. -/
def stripLineFeed (line : Text) : Text :=
  if line.getLast? = some '\n' then stripCarriageReturn line.dropLast else line

def lineText (line : Except String Bytes) : Except SyncError Text :=
  match line with
  | .error message => .error (.io message)
  | .ok bytes =>
    match fromUtf8 bytes with
    | none => .error (.io "stream did not contain valid UTF-8")
    | some text => .ok (stripLineFeed text)

section Stream

variable {σ : Type} (fromStr : Text → Except String Json) (batchSize : ℕ)

/-- What a line adds to the batch. -/
def lineRow (line : Except String Bytes) : Except SyncError (Option Json) :=
  match lineText line with
  | .error e => .error e
  | .ok text =>
    if isBlank text then .ok none
    else
      match fromStr text with
      | .error message => .error (.json message)
      | .ok row => .ok (some row)

variable (applyBatch : List Json → σ → Except SyncError Unit × σ)

/-- The applier may change its state also when it fails. -/
def streamLoop : List (Except String Bytes) → List Json → ℕ → σ → Except SyncError ℕ × σ
  | [], batch, total, s =>
    if batch = [] then (.ok total, s)
    else
      match applyBatch batch s with
      | (.error e, s) => (.error e, s)
      | (.ok (), s) => (.ok (total + batch.length), s)
  | line :: rest, batch, total, s =>
    match lineRow fromStr line with
    | .error e => (.error e, s)
    | .ok none => streamLoop rest batch total s
    | .ok (some row) =>
      if batchSize ≤ (batch ++ [row]).length then
        match applyBatch (batch ++ [row]) s with
        | (.error e, s) => (.error e, s)
        | (.ok (), s) => streamLoop rest [] (total + (batch ++ [row]).length) s
      else streamLoop rest (batch ++ [row]) total s

def streamJsonlBatchedSized (fails : Option String) (bytes : Bytes) (s : σ) : Except SyncError ℕ × σ :=
  streamLoop fromStr batchSize applyBatch (readLines fails [] bytes) [] 0 s

end Stream

/-- The batches of rows, applied one after another. -/
def hand {σ : Type} (applyBatch : List Json → σ → Except SyncError Unit × σ) :
    List (List Json) → ℕ → σ → Except SyncError ℕ × σ
  | [], total, s => (.ok total, s)
  | batch :: batches, total, s =>
    match applyBatch batch s with
    | (.error e, s) => (.error e, s)
    | (.ok (), s) => hand applyBatch batches (total + batch.length) s

/-- All batches but the last have `n` rows, and the last has some and at most `n`. -/
structure InBatches (n : ℕ) (batches : List (List Json)) : Prop where
  full : ∀ batch ∈ batches.dropLast, batch.length = n
  nonempty : ∀ batch ∈ batches, batch ≠ []
  bounded : ∀ batch ∈ batches, batch.length ≤ n

/-- The file hands exactly these rows to every applier, in batches of `n`. -/
def Streams (fromStr : Text → Except String Json) (n : ℕ) (bytes : Bytes) (rows : List Json) : Prop :=
  ∃ batches : List (List Json), batches.flatten = rows ∧ InBatches n batches ∧
    ∀ (σ : Type) (applyBatch : List Json → σ → Except SyncError Unit × σ) (s : σ),
      streamJsonlBatchedSized fromStr n applyBatch none bytes s = hand applyBatch batches 0 s

/-- The rows read back from a text that the serializer wrote. -/
def ReadBack (fromStr : Text → Except String Json) (row read : Json) : Prop := fromStr row.print = .ok read

section Lines

theorem readLines_line {fails : Option String} {body rest : Bytes} (hbody : lineFeed ∉ body) (line : Bytes) :
    readLines fails line (body ++ lineFeed :: rest) = .ok (line ++ body ++ [lineFeed]) :: readLines fails [] rest := by
  induction body generalizing line with
  | nil => rw [List.nil_append, readLines, if_pos rfl, List.append_nil]
  | cons b body ih =>
    obtain ⟨hb, hrest⟩ := not_or.mp (List.mem_cons.not.mp hbody)
    rw [List.cons_append, readLines, if_neg (Ne.symm hb), ih hrest]
    simp

theorem readLines_rows (rows : List Json) :
    readLines none [] (rowsBytes rows) = rows.map fun row => .ok (asBytes row.print ++ [lineFeed]) := by
  induction rows with
  | nil => rfl
  | cons row rows ih =>
    have hbytes : rowsBytes (row :: rows) = asBytes row.print ++ lineFeed :: rowsBytes rows := by simp [rowsBytes]
    rw [hbytes, readLines_line (lineFeed_not_mem (Json.newline_not_mem_print row)), ih, List.map_cons, List.nil_append]

theorem fromUtf8_asBytes (t : Text) : fromUtf8 (asBytes t) = some t := by
  rw [fromUtf8, fromUtf8Lossy_asBytes, if_pos rfl]

/-- A printed row is no blank line and has no line ending of its own. -/
theorem lineText_row (row : Json) : lineText (.ok (asBytes row.print ++ [lineFeed])) = .ok row.print := by
  have hbytes : asBytes row.print ++ [lineFeed] = asBytes (row.print ++ ['\n']) := by
    rw [asBytes, asBytes, List.flatMap_append]
    rfl
  have hreturn : row.print.getLast? ≠ some '\r' := by
    intro hlast
    exact absurd (Json.print_printed row (List.mem_of_getLast? hlast)) (by decide)
  have hstrip : stripLineFeed (row.print ++ ['\n']) = row.print := by
    rw [stripLineFeed, List.getLast?_concat, if_pos rfl, List.dropLast_concat, stripCarriageReturn, if_neg hreturn]
  unfold lineText
  simp only [hbytes, fromUtf8_asBytes, hstrip]

theorem isWhiteSpace_of_isNumberChar {c : Char} (hc : isNumberChar c = true) : isWhiteSpace c = false := by
  rw [isNumberChar, Bool.or_eq_true] at hc
  rcases hc with hdigit | hsign
  · simp only [Char.isDigit, Bool.and_eq_true, decide_eq_true_eq] at hdigit
    have hlow : 48 ≤ c.toNat := UInt32.le_iff_toNat_le.mp hdigit.1
    have hhigh : c.toNat ≤ 57 := UInt32.le_iff_toNat_le.mp hdigit.2
    simp [isWhiteSpace]
    omega
  · have hmem := List.contains_iff_mem.mp hsign
    simp only [List.mem_cons, List.not_mem_nil, or_false] at hmem
    rcases hmem with rfl | rfl | rfl | rfl | rfl <;> rfl

theorem isWhiteSpace_of_kindOf {row : Json} {c : Char} (hc : row.kindOf c) : isWhiteSpace c = false := by
  cases row with
  | null =>
    obtain rfl := hc
    rfl
  | bool b =>
    cases b <;> obtain rfl := hc <;> rfl
  | number n => exact isWhiteSpace_of_isNumberChar hc
  | string s =>
    obtain rfl := hc
    rfl
  | array items =>
    obtain rfl := hc
    rfl
  | object fields =>
    obtain rfl := hc
    rfl

theorem isBlank_print (row : Json) : isBlank row.print = false := by
  obtain ⟨c, rest, hprint, hkind⟩ := Json.print_head row
  by_contra hblank
  have hspace := isBlank_iff.mp (Bool.eq_true_of_not_eq_false hblank) c (by rw [hprint]; exact List.mem_cons_self)
  rw [isWhiteSpace_of_kindOf hkind] at hspace
  cases hspace

variable {fromStr : Text → Except String Json} {row read : Json}

theorem lineRow_ok (h : fromStr row.print = .ok read) :
    lineRow fromStr (.ok (asBytes row.print ++ [lineFeed])) = .ok (some read) := by
  unfold lineRow
  simp [lineText_row, isBlank_print, h]

theorem lineRow_error {message : String} (h : fromStr row.print = .error message) :
    lineRow fromStr (.ok (asBytes row.print ++ [lineFeed])) = .error (.json message) := by
  unfold lineRow
  simp [lineText_row, isBlank_print, h]

end Lines

section Batches

/-- The batches that the loop applies. -/
def batchesFrom (n : ℕ) (batch : List Json) : List Json → List (List Json)
  | [] => if batch = [] then [] else [batch]
  | row :: rows =>
    if n ≤ (batch ++ [row]).length then (batch ++ [row]) :: batchesFrom n [] rows
    else batchesFrom n (batch ++ [row]) rows

variable {n : ℕ} {batch rows : List Json}

theorem flatten_batchesFrom (n : ℕ) (batch rows : List Json) : (batchesFrom n batch rows).flatten = batch ++ rows := by
  induction rows generalizing batch with
  | nil =>
    by_cases hbatch : batch = []
    · rw [batchesFrom, if_pos hbatch, hbatch, List.flatten_nil, List.append_nil]
    · rw [batchesFrom, if_neg hbatch, List.flatten_singleton, List.append_nil]
  | cons row rows ih =>
    by_cases hfull : n ≤ (batch ++ [row]).length
    · rw [batchesFrom, if_pos hfull, List.flatten_cons, ih, List.nil_append, List.append_assoc, List.singleton_append]
    · rw [batchesFrom, if_neg hfull, ih, List.append_assoc, List.singleton_append]

theorem inBatches_nil (n : ℕ) : InBatches n [] := ⟨by simp, by simp, by simp⟩

theorem InBatches.cons {batches : List (List Json)} (hlength : batch.length = n) (hbatch : batch ≠ [])
    (h : InBatches n batches) : InBatches n (batch :: batches) := by
  refine ⟨?_, ?_, ?_⟩
  · intro b hb
    cases batches with
    | nil => cases hb
    | cons next rest =>
      rw [List.dropLast_cons_cons] at hb
      rcases List.mem_cons.mp hb with rfl | hb
      · exact hlength
      · exact h.full b hb
  · intro b hb
    rcases List.mem_cons.mp hb with rfl | hb
    · exact hbatch
    · exact h.nonempty b hb
  · intro b hb
    rcases List.mem_cons.mp hb with rfl | hb
    · omega
    · exact h.bounded b hb

/-- A batch is applied as soon as it is full, so it never holds more than `n` rows. -/
theorem inBatches_batchesFrom (hn : 1 ≤ n) (hbatch : batch.length < n) : InBatches n (batchesFrom n batch rows) := by
  induction rows generalizing batch with
  | nil =>
    by_cases hnil : batch = []
    · rw [batchesFrom, if_pos hnil]
      exact inBatches_nil n
    · rw [batchesFrom, if_neg hnil]
      exact ⟨by simp, by simpa using hnil, by simpa using Nat.le_of_lt hbatch⟩
  | cons row rows ih =>
    have hlength : (batch ++ [row]).length = batch.length + 1 := by simp
    by_cases hfull : n ≤ (batch ++ [row]).length
    · rw [batchesFrom, if_pos hfull]
      exact InBatches.cons (by omega) (by simp) (ih (by rw [List.length_nil]; omega))
    · rw [batchesFrom, if_neg hfull]
      exact ih (by omega)

end Batches

section Stream

variable {σ : Type} {fromStr : Text → Except String Json} {n : ℕ}
  {applyBatch : List Json → σ → Except SyncError Unit × σ}

def rowLines (rows : List Json) : List (Except String Bytes) := rows.map fun row => .ok (asBytes row.print ++ [lineFeed])

/-- The loop over the lines of rows that are read back. -/
theorem streamLoop_rows {rows reads : List Json} (hread : List.Forall₂ (ReadBack fromStr) rows reads)
    (batch : List Json) (total : ℕ) (s : σ) :
    streamLoop fromStr n applyBatch (rowLines rows) batch total s = hand applyBatch (batchesFrom n batch reads) total s := by
  induction hread generalizing batch total s with
  | nil =>
    by_cases hbatch : batch = []
    · simp [rowLines, streamLoop, batchesFrom, hand, hbatch]
    · simp [rowLines, streamLoop, batchesFrom, hand, hbatch]
  | @cons row read rows reads hrow hrows ih =>
    have hline : rowLines (row :: rows) = .ok (asBytes row.print ++ [lineFeed]) :: rowLines rows := rfl
    rw [hline, streamLoop, lineRow_ok hrow, batchesFrom]
    by_cases hfull : n ≤ (batch ++ [read]).length
    · simp only [if_pos hfull, hand, ih]
    · simp only [if_neg hfull, ih]

/-- An applier that keeps the batches it was handed. -/
def keepBatches (batch : List Json) (kept : List (List Json)) : Except SyncError Unit × List (List Json) :=
  (.ok (), kept ++ [batch])

theorem hand_keepBatches (batches : List (List Json)) (total : ℕ) (kept : List (List Json)) :
    hand keepBatches batches total kept = (.ok (total + batches.flatten.length), kept ++ batches) := by
  induction batches generalizing total kept with
  | nil => simp [hand]
  | cons batch batches ih =>
    have hfirst : hand keepBatches (batch :: batches) total kept =
        hand keepBatches batches (total + batch.length) (kept ++ [batch]) := rfl
    rw [hfirst, ih]
    simp [Nat.add_assoc]

/-- The loop succeeds only where every row is read back. -/
theorem readBack_of_streamLoop {rows batch : List Json} {total count : ℕ} {kept kept' : List (List Json)}
    (h : streamLoop fromStr n keepBatches (rowLines rows) batch total kept = (.ok count, kept')) :
    ∃ reads, List.Forall₂ (ReadBack fromStr) rows reads := by
  induction rows generalizing batch total kept with
  | nil => exact ⟨[], List.Forall₂.nil⟩
  | cons row rows ih =>
    have hline : rowLines (row :: rows) = .ok (asBytes row.print ++ [lineFeed]) :: rowLines rows := rfl
    cases hrow : fromStr row.print with
    | error message =>
      rw [hline, streamLoop, lineRow_error hrow] at h
      cases h
    | ok read =>
      rw [hline, streamLoop, lineRow_ok hrow] at h
      have hrest : ∃ reads, List.Forall₂ (ReadBack fromStr) rows reads := by
        by_cases hfull : n ≤ (batch ++ [read]).length
        · simp only [if_pos hfull, keepBatches] at h
          exact ih h
        · simp only [if_neg hfull] at h
          exact ih h
      obtain ⟨reads, hreads⟩ := hrest
      exact ⟨read :: reads, List.Forall₂.cons hrow hreads⟩

theorem stream_rowsBytes (rows : List Json) (s : σ) :
    streamJsonlBatchedSized fromStr n applyBatch none (rowsBytes rows) s =
      streamLoop fromStr n applyBatch (rowLines rows) [] 0 s := by
  rw [streamJsonlBatchedSized, readLines_rows, rowLines]

theorem forall₂_self {rows : List Json} : List.Forall₂ (ReadBack fromStr) rows rows ↔ ∀ row ∈ rows, fromStr row.print = .ok row := by
  rw [List.forall₂_same]
  rfl

/-- The rows come back in batches exactly when each of them is read back from its
printed text. -/
theorem streams_rowsBytes (hn : 1 ≤ n) (rows : List Json) :
    Streams fromStr n (rowsBytes rows) rows ↔ ∀ row ∈ rows, fromStr row.print = .ok row := by
  constructor
  · intro ⟨batches, hflatten, _, hstream⟩
    have hkept := hstream _ keepBatches []
    rw [hand_keepBatches, stream_rowsBytes] at hkept
    obtain ⟨reads, hreads⟩ := readBack_of_streamLoop hkept
    rw [streamLoop_rows hreads, hand_keepBatches] at hkept
    have hsame : batchesFrom n [] reads = batches := by simpa using (Prod.mk.inj hkept).2
    have hrows : reads = rows := by
      rw [← hflatten, ← hsame, flatten_batchesFrom, List.nil_append]
    rw [hrows] at hreads
    exact forall₂_self.mp hreads
  · intro hread
    refine ⟨batchesFrom n [] rows, flatten_batchesFrom n [] rows, inBatches_batchesFrom hn hn, ?_⟩
    intro σ applyBatch s
    rw [stream_rowsBytes, streamLoop_rows (forall₂_self.mpr hread)]

end Stream

/-- An operation that is finished: the file, what is recorded of it, and what every
reader of it is handed. -/
theorem finished_streams (disk : Disk) (serializer : Serializer) (sha256 : Bytes → Vector UInt8 32)
    (tableOrGroup : Text) (op : EventKind) (columns : List Text) (rows : List Json) (record : PayloadRecord)
    {w : JsonlOpWriter} {out : Finished}
    (hwrite : JsonlOpWriter.writeRows disk serializer rows (JsonlOpWriter.new tableOrGroup op columns) = .ok w)
    (hout : w.finish sha256 record = .ok out) :
    (rows = [] → out = ⟨record, none⟩) ∧
      (rows ≠ [] → ∃ bytes digest, out.file = some (jsonlFileName tableOrGroup op, bytes) ∧
        out.record = ⟨record.files ++ [⟨jsonlFileName tableOrGroup op, tableOrGroup, columns, op, .jsonl, .none,
            rows.length, digest⟩],
          insertDigest record.perFileDigests (jsonlFileName tableOrGroup op, digest),
          record.operations ++ [⟨tableOrGroup, op, rows.length⟩]⟩ ∧
        digest = digestBytes sha256 bytes ∧
        (∀ reads : List Bytes, (∀ read ∈ reads, read ≠ []) → reads.flatten = bytes →
          teeDigest sha256 reads [] = (digest, bytes)) ∧
        ∀ (fromStr : Text → Except String Json) (n : ℕ), 1 ≤ n →
          (Streams fromStr n bytes rows ↔ ∀ row ∈ rows, fromStr row.print = .ok row)) := by
  have hholds := JsonlOpWriter.writeRows_holds (JsonlOpWriter.new_holds tableOrGroup op columns) hwrite
  rw [List.nil_append] at hholds
  obtain ⟨hnone, hsome⟩ := JsonlOpWriter.finish_ok hholds hout
  refine ⟨hnone, fun hrows => ?_⟩
  obtain ⟨hfile, hrecord⟩ := hsome hrows
  refine ⟨rowsBytes rows, digestBytes sha256 (rowsBytes rows), hfile, ?_, rfl, ?_, ?_⟩
  · rw [hrecord, JsonlOpWriter.recorded, hholds.tableOrGroup, hholds.op, hholds.columns, hholds.rowCount]
    rfl
  · intro reads hreads hflatten
    rw [teeDigest_eq sha256 hreads, hflatten, List.nil_append]
  · intro fromStr n hn
    exact streams_rowsBytes hn rows

section Samples

/-- Arrays in arrays. -/
def nestedArrays : ℕ → Json
  | 0 => .array []
  | depth + 1 => .array [nestedArrays depth]

/-- How a reader with a recursion limit reads such arrays. -/
def readArrays : ℕ → Text → Except String (Json × Text)
  | 0, _ => .error "recursion limit exceeded"
  | _ + 1, '[' :: ']' :: rest => .ok (.array [], rest)
  | remaining + 1, '[' :: rest =>
    match readArrays remaining rest with
    | .error message => .error message
    | .ok (item, ']' :: rest) => .ok (.array [item], rest)
    | .ok _ => .error "expected a comma or a bracket"
  | _ + 1, _ => .error "expected value"

def arraysFromStr (text : Text) : Except String Json :=
  match readArrays 127 text with
  | .error message => .error message
  | .ok (value, rest) => if isBlank rest then .ok value else .error "trailing characters"

def plainSerializer : Serializer := ⟨fun row => [asBytes row.print], fun row => by rw [List.flatten_singleton]⟩

/-- A device that takes the buffer of the usual size at once. -/
def plainDisk : Disk := ⟨true, 8192, [.took 8192]⟩

def firstBytes (bytes : Bytes) : Vector UInt8 32 := Vector.ofFn fun i => bytes.getD i 0

theorem print_nestedArrays (depth : ℕ) : (nestedArrays (depth + 1)).print = '[' :: ((nestedArrays depth).print ++ [']']) := by
  rw [nestedArrays, Json.print, Json.printItems, Json.printItems]
  rfl

theorem print_nestedArrays_head (depth : ℕ) : ∃ rest, (nestedArrays depth).print = '[' :: rest := by
  cases depth with
  | zero => exact ⟨_, by rw [nestedArrays, Json.print]⟩
  | succ depth => exact ⟨_, print_nestedArrays depth⟩

/-- Each bracket takes one level of the limit. -/
theorem readArrays_nested (depth remaining : ℕ) (rest : Text) :
    readArrays remaining ((nestedArrays depth).print ++ rest) =
      if depth < remaining then .ok (nestedArrays depth, rest) else .error "recursion limit exceeded" := by
  induction depth generalizing remaining rest with
  | zero =>
    have hprint : (nestedArrays 0).print = ['[', ']'] := rfl
    cases remaining with
    | zero => rfl
    | succ remaining => rw [hprint, if_pos (Nat.succ_pos remaining)]; rfl
  | succ depth ih =>
    cases remaining with
    | zero => rfl
    | succ remaining =>
      obtain ⟨tail, htail⟩ := print_nestedArrays_head depth
      have hinner := ih remaining (']' :: rest)
      rw [htail, List.cons_append] at hinner
      rw [print_nestedArrays, htail, List.cons_append, List.append_assoc, List.cons_append, List.singleton_append, readArrays,
        hinner]
      · by_cases hdepth : depth < remaining
        · rw [if_pos hdepth, if_pos (Nat.succ_lt_succ hdepth)]
          rfl
        · rw [if_neg hdepth, if_neg (by omega)]
      · simp

theorem arraysFromStr_nested (depth : ℕ) :
    arraysFromStr (nestedArrays depth).print =
      if depth < 127 then .ok (nestedArrays depth) else .error "recursion limit exceeded" := by
  have hread := readArrays_nested depth 127 []
  rw [List.append_nil] at hread
  rw [arraysFromStr, hread]
  by_cases hdepth : depth < 127
  · simp only [if_pos hdepth]
    rfl
  · simp only [if_neg hdepth]

theorem writeAll_kept {w : HashingWriter UInt8} {bytes : Bytes} (h : bytes.length < w.inner.spareCapacity) :
    w.writeAll bytes = (.ok (), ⟨{ w.inner with buffer := w.inner.buffer ++ bytes }, w.hashed ++ bytes⟩) := by
  cases bytes with
  | nil =>
    rw [HashingWriter.writeAll, List.append_nil, List.append_nil]
  | cons b rest =>
    have hinner : w.inner.write (b :: rest) = w.inner.keep (b :: rest) := by
      rw [BufferedWriter.write, if_pos h]
    have hwrite : w.write (b :: rest) =
        (.ok (rest.length + 1), ⟨{ w.inner with buffer := w.inner.buffer ++ b :: rest }, w.hashed ++ b :: rest⟩) := by
      rw [HashingWriter.write, hinner, BufferedWriter.keep]
      simp
    rw [HashingWriter.writeAll]
    split
    · next hcase =>
      rw [hwrite] at hcase
      cases hcase
    · next n v hcase =>
      rw [hwrite] at hcase
      cases hcase
      rw [List.drop_length, HashingWriter.writeAll]
    · next hcase =>
      rw [hwrite] at hcase
      cases hcase
    · next hcase =>
      rw [hwrite] at hcase
      cases hcase

/-- The writer of an operation with rows that the buffer has room for. -/
def keptWriter (tableOrGroup : Text) (op : EventKind) (rows : List Json) : JsonlOpWriter :=
  ⟨tableOrGroup, op, [], some (jsonlFileName tableOrGroup op,
    ⟨⟨8192, [], rowsBytes rows, [.took 8192]⟩, rowsBytes rows⟩), rows.length⟩

theorem rowsBytes_concat (rows : List Json) (row : Json) :
    rowsBytes (rows ++ [row]) = rowsBytes rows ++ asBytes row.print ++ [lineFeed] := by
  simp [rowsBytes]

theorem writeRow_kept {w : JsonlOpWriter} {fileName : Text} {done : List Json} {row : Json}
    (hwriter : w.writerMut plainDisk =
      .ok (fileName, ⟨⟨8192, [], rowsBytes done, [.took 8192]⟩, rowsBytes done⟩))
    (h : (rowsBytes (done ++ [row])).length < 8192) :
    w.writeRow plainDisk plainSerializer row = .ok { w with
      writer := some (fileName, ⟨⟨8192, [], rowsBytes (done ++ [row]), [.took 8192]⟩, rowsBytes (done ++ [row])⟩)
      rowCount := w.rowCount + 1 } := by
  rw [rowsBytes_concat, List.length_append, List.length_append, List.length_singleton] at h
  have hrow : (⟨⟨8192, [], rowsBytes done, [.took 8192]⟩, rowsBytes done⟩ : HashingWriter UInt8).writeAll
      (asBytes row.print) = (.ok (), ⟨⟨8192, [], rowsBytes done ++ asBytes row.print, [.took 8192]⟩,
        rowsBytes done ++ asBytes row.print⟩) :=
    writeAll_kept (by simp only [BufferedWriter.spareCapacity]; omega)
  have hend : (⟨⟨8192, [], rowsBytes done ++ asBytes row.print, [.took 8192]⟩,
      rowsBytes done ++ asBytes row.print⟩ : HashingWriter UInt8).writeAll [lineFeed] =
        (.ok (), ⟨⟨8192, [], rowsBytes (done ++ [row]), [.took 8192]⟩, rowsBytes (done ++ [row])⟩) := by
    rw [rowsBytes_concat]
    exact writeAll_kept (by
      simp only [BufferedWriter.spareCapacity, List.length_singleton, List.length_append]
      omega)
  simp [JsonlOpWriter.writeRow, hwriter, plainSerializer, JsonlOpWriter.writeFragments, hrow, hend]

theorem writeRows_kept (tableOrGroup : Text) (op : EventKind) {done rows : List Json}
    (h : (rowsBytes (done ++ rows)).length < 8192) :
    JsonlOpWriter.writeRows plainDisk plainSerializer rows (keptWriter tableOrGroup op done) =
      .ok (keptWriter tableOrGroup op (done ++ rows)) := by
  induction rows generalizing done with
  | nil =>
    rw [List.append_nil]
    rfl
  | cons row rows ih =>
    have hsplit : done ++ row :: rows = done ++ [row] ++ rows := by simp
    rw [hsplit] at h ⊢
    have hfirst : (rowsBytes (done ++ [row])).length < 8192 := by
      have hrows : rowsBytes (done ++ [row] ++ rows) = rowsBytes (done ++ [row]) ++ rowsBytes rows := by
        simp [rowsBytes]
      rw [hrows, List.length_append] at h
      omega
    have hwriter : (keptWriter tableOrGroup op done).writerMut plainDisk = .ok (jsonlFileName tableOrGroup op,
        ⟨⟨8192, [], rowsBytes done, [.took 8192]⟩, rowsBytes done⟩) := rfl
    rw [JsonlOpWriter.writeRows, writeRow_kept hwriter hfirst, ← ih h]
    simp [keptWriter]

theorem writeRows_new (tableOrGroup : Text) (op : EventKind) {row : Json} {rows : List Json}
    (h : (rowsBytes (row :: rows)).length < 8192) :
    JsonlOpWriter.writeRows plainDisk plainSerializer (row :: rows) (JsonlOpWriter.new tableOrGroup op []) =
      .ok (keptWriter tableOrGroup op (row :: rows)) := by
  have hfirst : (rowsBytes ([] ++ [row])).length < 8192 := by
    have hrows : rowsBytes (row :: rows) = rowsBytes ([] ++ [row]) ++ rowsBytes rows := by simp [rowsBytes]
    rw [hrows, List.length_append] at h
    omega
  have hwriter : (JsonlOpWriter.new tableOrGroup op []).writerMut plainDisk = .ok (jsonlFileName tableOrGroup op,
      ⟨⟨8192, [], rowsBytes [], [.took 8192]⟩, rowsBytes []⟩) := rfl
  rw [JsonlOpWriter.writeRows, writeRow_kept hwriter hfirst]
  exact @writeRows_kept tableOrGroup op [row] rows h

/-- What is left of the rows. -/
def keptFinished (tableOrGroup : Text) (op : EventKind) (rows : List Json) : Finished :=
  ⟨(keptWriter tableOrGroup op rows).recorded (jsonlFileName tableOrGroup op)
    (digestBytes firstBytes (rowsBytes rows)) ⟨[], [], []⟩, some (jsonlFileName tableOrGroup op, rowsBytes rows)⟩

theorem finish_kept (tableOrGroup : Text) (op : EventKind) {row : Json} {rows : List Json}
    (h : (rowsBytes (row :: rows)).length < 8192) :
    (keptWriter tableOrGroup op (row :: rows)).finish firstBytes ⟨[], [], []⟩ =
      .ok (keptFinished tableOrGroup op (row :: rows)) := by
  have hflush : (⟨⟨8192, [], rowsBytes (row :: rows), [.took 8192]⟩, rowsBytes (row :: rows)⟩ :
      HashingWriter UInt8).flush = (.ok (), ⟨⟨8192, rowsBytes (row :: rows), [], []⟩, rowsBytes (row :: rows)⟩) := by
    have hlength : (rowsBytes (row :: rows)).length ≤ 8192 := by omega
    obtain ⟨b, rest, hcons⟩ := List.exists_cons_of_ne_nil (l := rowsBytes (row :: rows)) (by simp [rowsBytes])
    rw [hcons] at hlength ⊢
    rw [HashingWriter.flush, BufferedWriter.flushBuf, BufferedWriter.flushLoop, if_neg (by decide),
      List.drop_eq_nil_of_le hlength, List.take_of_length_le hlength, BufferedWriter.flushLoop]
    rfl
  rw [JsonlOpWriter.finish, keptWriter]
  simp only [hflush]
  rfl

theorem length_nested (depth : ℕ) : (asBytes (nestedArrays depth).print).length = 2 * depth + 2 := by
  induction depth with
  | zero => rfl
  | succ depth ih =>
    have hbytes : asBytes (nestedArrays (depth + 1)).print = 91 :: (asBytes (nestedArrays depth).print ++ [93]) := by
      rw [print_nestedArrays, asBytes, List.flatMap_cons, List.flatMap_append]
      rfl
    rw [hbytes, List.length_cons, List.length_append, ih, List.length_singleton]
    omega

theorem nested_short {depth : ℕ} (h : depth < 200) : (rowsBytes [nestedArrays depth]).length < 8192 := by
  have hbytes : rowsBytes [nestedArrays depth] = asBytes (nestedArrays depth).print ++ [lineFeed] := by
    simp [rowsBytes]
  rw [hbytes, List.length_append, length_nested, List.length_singleton]
  omega

/-- Rows within the limit come back, batch by batch. -/
theorem nested_rows_stream :
    ∃ bytes, (keptFinished ['t'] .upsert [nestedArrays 3, nestedArrays 126, nestedArrays 0]).file =
        some (jsonlFileName ['t'] .upsert, bytes) ∧
      Streams arraysFromStr 2 bytes [nestedArrays 3, nestedArrays 126, nestedArrays 0] := by
  have hshort : (rowsBytes [nestedArrays 3, nestedArrays 126, nestedArrays 0]).length < 8192 := by
    simp only [rowsBytes, List.flatMap_cons, List.flatMap_nil, List.length_append, List.length_singleton,
      List.length_nil, length_nested]
    omega
  have hout := finished_streams plainDisk plainSerializer firstBytes ['t'] .upsert []
    [nestedArrays 3, nestedArrays 126, nestedArrays 0] ⟨[], [], []⟩ (writeRows_new ['t'] .upsert hshort)
    (finish_kept ['t'] .upsert hshort)
  obtain ⟨bytes, _, hfile, _, _, _, hstreams⟩ := hout.2 (List.cons_ne_nil _ _)
  refine ⟨bytes, hfile, (hstreams arraysFromStr 2 (by omega)).mpr ?_⟩
  intro row hrow
  simp only [List.mem_cons, List.not_mem_nil, or_false] at hrow
  rcases hrow with rfl | rfl | rfl
  · rw [arraysFromStr_nested, if_pos (by omega)]
  · rw [arraysFromStr_nested, if_pos (by omega)]
  · rw [arraysFromStr_nested, if_pos (by omega)]

/-- A row that the writer accepts and no reader with the limit hands on. -/
theorem deep_row_refused :
    JsonlOpWriter.writeRows plainDisk plainSerializer [nestedArrays 127] (JsonlOpWriter.new ['t'] .upsert []) =
        .ok (keptWriter ['t'] .upsert [nestedArrays 127]) ∧
      (keptWriter ['t'] .upsert [nestedArrays 127]).finish firstBytes ⟨[], [], []⟩ =
        .ok (keptFinished ['t'] .upsert [nestedArrays 127]) ∧
      (keptFinished ['t'] .upsert [nestedArrays 127]).file =
        some (jsonlFileName ['t'] .upsert, rowsBytes [nestedArrays 127]) ∧
      ¬ Streams arraysFromStr 2000 (rowsBytes [nestedArrays 127]) [nestedArrays 127] := by
  refine ⟨writeRows_new _ _ (nested_short (by omega)), finish_kept _ _ (nested_short (by omega)), rfl, ?_⟩
  intro hstreams
  have hread := (streams_rowsBytes (by omega) _).mp hstreams (nestedArrays 127) List.mem_cons_self
  rw [arraysFromStr_nested, if_neg (by omega)] at hread
  cases hread

end Samples

end CorpusFeed.JsonlOp
