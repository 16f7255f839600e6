import CorpusFeed.TextLines

/-! Lines of bounded length over a stream of UTF-8 bytes. The reader takes one
byte at a time, and what it took is gone also when the read fails. -/

namespace CorpusFeed

abbrev Bytes := List UInt8

def lineFeed : UInt8 := 10

def asBytes (t : Text) : Bytes := t.flatMap String.utf8EncodeChar

/-- The second bytes that can follow a lead byte of three or four bytes. -/
def isSecondByte (lead b : UInt8) : Bool :=
  (if lead = 0xE0 then 0xA0 ≤ b else if lead = 0xF0 then 0x90 ≤ b else 0x80 ≤ b) &&
    (if lead = 0xED then b ≤ 0x9F else if lead = 0xF4 then b ≤ 0x8F else b ≤ 0xBF)

/-- How many bytes one replacement character stands for. -/
def malformedLength : Bytes → Nat
  | lead :: second :: rest =>
    if 0xE0 ≤ lead && lead ≤ 0xF4 && isSecondByte lead second then
      match rest with
      | third :: _ => if 0xF0 ≤ lead && 0x80 ≤ third && third ≤ 0xBF then 3 else 2
      | [] => 2
    else 1
  | _ => 1

theorem malformedLength_pos (bytes : Bytes) : 0 < malformedLength bytes := by
  unfold malformedLength
  repeat' split
  all_goals simp

def replacement : Char := Char.ofNat 0xFFFD

def fromUtf8Lossy (bytes : Bytes) : Text :=
  match bytes with
  | [] => []
  | b :: rest =>
    match (b :: rest).toByteArray.utf8DecodeChar? 0 with
    | some c => c :: fromUtf8Lossy ((b :: rest).drop c.utf8Size)
    | none => replacement :: fromUtf8Lossy ((b :: rest).drop (malformedLength (b :: rest)))
termination_by bytes.length
decreasing_by
  · have hpos := c.utf8Size_pos
    simp only [List.length_drop, List.length_cons]
    omega
  · have hpos := malformedLength_pos (b :: rest)
    simp only [List.length_drop, List.length_cons]
    omega

theorem fromUtf8Lossy_cons (c : Char) (rest : Bytes) :
    fromUtf8Lossy (String.utf8EncodeChar c ++ rest) = c :: fromUtf8Lossy rest := by
  have hlength := String.length_utf8EncodeChar c
  have hdecode : (String.utf8EncodeChar c ++ rest).toByteArray.utf8DecodeChar? 0 = some c := by
    rw [List.toByteArray_append]
    exact ByteArray.utf8DecodeChar?_utf8EncodeChar_append
  have hdrop : (String.utf8EncodeChar c ++ rest).drop c.utf8Size = rest := List.drop_left' hlength
  generalize hbytes : String.utf8EncodeChar c ++ rest = bytes at hdecode hdrop
  cases bytes with
  | nil =>
    have hpos := c.utf8Size_pos
    have hnil := (List.append_eq_nil_iff.mp hbytes).1
    simp [hnil] at hlength
    omega
  | cons b tail =>
    rw [fromUtf8Lossy, hdecode]
    simp only [hdrop]

theorem fromUtf8Lossy_append (t : Text) (rest : Bytes) :
    fromUtf8Lossy (asBytes t ++ rest) = t ++ fromUtf8Lossy rest := by
  induction t with
  | nil => rfl
  | cons c t ih =>
    have hsplit : asBytes (c :: t) ++ rest = String.utf8EncodeChar c ++ (asBytes t ++ rest) := by simp [asBytes]
    rw [hsplit, fromUtf8Lossy_cons, ih, List.cons_append]

theorem fromUtf8Lossy_asBytes (t : Text) : fromUtf8Lossy (asBytes t) = t := by
  have h := fromUtf8Lossy_append t []
  simpa [fromUtf8Lossy] using h

theorem encode_ascii {c : Char} (h : c.toNat < 128) : String.utf8EncodeChar c = [UInt8.ofNat c.toNat] := by
  have hle : c.val.toNat ≤ 127 := Nat.le_of_lt_succ h
  simp only [String.utf8EncodeChar, hle, if_true]
  rfl

theorem encode_notAscii {c : Char} (h : 128 ≤ c.toNat) : ∀ b ∈ String.utf8EncodeChar c, 128 ≤ b.toNat := by
  have hbyte : ∀ n, 128 ≤ n → n < 256 → 128 ≤ (UInt8.ofNat n).toNat := by
    intro n hn hlt
    simp only [UInt8.toNat_ofNat']
    omega
  have hcode : 128 ≤ c.val.toNat := h
  simp only [String.utf8EncodeChar]
  split
  · omega
  · split
    · simp only [List.mem_cons, List.not_mem_nil, or_false, forall_eq_or_imp, forall_eq]
      exact ⟨hbyte _ (by omega) (by omega), hbyte _ (by omega) (by omega)⟩
    · split
      · simp only [List.mem_cons, List.not_mem_nil, or_false, forall_eq_or_imp, forall_eq]
        exact ⟨hbyte _ (by omega) (by omega), hbyte _ (by omega) (by omega), hbyte _ (by omega) (by omega)⟩
      · simp only [List.mem_cons, List.not_mem_nil, or_false, forall_eq_or_imp, forall_eq]
        exact ⟨hbyte _ (by omega) (by omega), hbyte _ (by omega) (by omega), hbyte _ (by omega) (by omega),
          hbyte _ (by omega) (by omega)⟩

theorem decode_notAscii {b : UInt8} {rest : Bytes} {c : Char} (hb : 128 ≤ b.toNat)
    (h : (b :: rest).toByteArray.utf8DecodeChar? 0 = some c) : 128 ≤ c.toNat := by
  obtain ⟨tail, htail⟩ := ByteArray.exists_of_utf8DecodeChar?_eq_some h
  have hbytes : b :: rest = String.utf8EncodeChar c ++ tail.data.toList := by
    have hdata := congrArg (fun bytes => bytes.data.toList) htail
    simpa using hdata
  by_contra hlt
  rw [encode_ascii (by omega), List.singleton_append] at hbytes
  have hhead := congrArg UInt8.toNat (List.cons.inj hbytes).1
  simp only [UInt8.toNat_ofNat'] at hhead
  omega

theorem fromUtf8Lossy_notAscii (bytes : Bytes) (h : ∀ b ∈ bytes, 128 ≤ b.toNat) :
    ∀ c ∈ fromUtf8Lossy bytes, 128 ≤ c.toNat := by
  fun_induction fromUtf8Lossy bytes with
  | case1 => simp
  | case2 b rest c hdecode ih =>
    intro c' hc'
    rcases List.mem_cons.mp hc' with rfl | hc'
    · exact decode_notAscii (h b List.mem_cons_self) hdecode
    · exact ih (fun b' hb' => h b' (List.mem_of_mem_drop hb')) c' hc'
  | case3 b rest _ ih =>
    intro c' hc'
    rcases List.mem_cons.mp hc' with rfl | hc'
    · decide
    · exact ih (fun b' hb' => h b' (List.mem_of_mem_drop hb')) c' hc'

/-- The start of an encoded text is read as the start of the text, but for what a
character that is cut through is read as. -/
theorem fromUtf8Lossy_take (t : Text) {k : Nat} (hk : k < (asBytes t).length) :
    ∃ j < t.length, ∃ tail, fromUtf8Lossy ((asBytes t).take k) = t.take j ++ tail ∧ ∀ c ∈ tail, 128 ≤ c.toNat := by
  induction t generalizing k with
  | nil => simp [asBytes] at hk
  | cons c t ih =>
    have hsplit : asBytes (c :: t) = String.utf8EncodeChar c ++ asBytes t := by simp [asBytes]
    rw [hsplit] at hk ⊢
    by_cases hcut : k < (String.utf8EncodeChar c).length
    · refine ⟨0, by simp, fromUtf8Lossy ((String.utf8EncodeChar c ++ asBytes t).take k), rfl, ?_⟩
      rw [List.take_append_of_le_length (by omega)]
      by_cases hascii : c.toNat < 128
      · have hzero : k = 0 := by
          rw [encode_ascii hascii, List.length_singleton] at hcut
          omega
        simp [hzero, fromUtf8Lossy]
      · exact fromUtf8Lossy_notAscii _ fun b hb => encode_notAscii (by omega) b (List.mem_of_mem_take hb)
    · have hrest : k - (String.utf8EncodeChar c).length < (asBytes t).length := by
        simp only [List.length_append] at hk
        omega
      obtain ⟨j, hj, tail, htake, htail⟩ := ih hrest
      refine ⟨j + 1, by simpa using hj, tail, ?_, htail⟩
      rw [List.take_append, List.take_of_length_le (by omega), fromUtf8Lossy_cons, htake]
      simp

theorem lineFeed_not_mem_encode {c : Char} (h : c ≠ '\n') : lineFeed ∉ String.utf8EncodeChar c := by
  have hbyte : ∀ n < 256, n ≠ 10 → lineFeed ≠ UInt8.ofNat n := by
    intro n hn hne heq
    have hnat : 10 = n % 256 := by simpa [lineFeed] using congrArg UInt8.toNat heq
    omega
  have hcode : c.val.toNat ≠ 10 := fun hcode => h (Char.ext (UInt32.toNat_inj.mp hcode))
  simp only [String.utf8EncodeChar]
  split
  · simp only [List.mem_singleton]
    exact hbyte _ (by omega) hcode
  · split
    · simp only [List.mem_cons, List.not_mem_nil, or_false, not_or]
      exact ⟨hbyte _ (by omega) (by omega), hbyte _ (by omega) (by omega)⟩
    · split
      · simp only [List.mem_cons, List.not_mem_nil, or_false, not_or]
        exact ⟨hbyte _ (by omega) (by omega), hbyte _ (by omega) (by omega), hbyte _ (by omega) (by omega)⟩
      · simp only [List.mem_cons, List.not_mem_nil, or_false, not_or]
        exact ⟨hbyte _ (by omega) (by omega), hbyte _ (by omega) (by omega), hbyte _ (by omega) (by omega),
          hbyte _ (by omega) (by omega)⟩

theorem lineFeed_not_mem {t : Text} (h : '\n' ∉ t) : lineFeed ∉ asBytes t := by
  intro hmem
  obtain ⟨c, hc, hbyte⟩ := List.mem_flatMap.mp hmem
  refine lineFeed_not_mem_encode ?_ hbyte
  rintro rfl
  exact h hc

inductive ByteRead where
  | more (buf : Bytes)
  | line (text : Text)
  | oversize

/-- One byte of a line. -/
def pushByte (max : Nat) (buf : Bytes) (b : UInt8) : ByteRead :=
  if b = lineFeed then .line (fromUtf8Lossy buf)
  else if max < (buf ++ [b]).length then .oversize
  else .more (buf ++ [b])

inductive LineRead where
  | line (text : Text)
  | eof
  | oversize
  | ioError
deriving DecidableEq

/-- The result of a read over the bytes that still come, and the bytes it leaves.
Where they end, the peer has closed the connection or the read fails. -/
def readBoundedLine (max : Nat) (closed : Bool) (buf : Bytes) : Bytes → LineRead × Bytes
  | [] =>
    if closed then (if buf = [] then .eof else .line (fromUtf8Lossy buf), [])
    else (.ioError, [])
  | b :: rest =>
    match pushByte max buf b with
    | .more buf' => readBoundedLine max closed buf' rest
    | .line text => (.line text, rest)
    | .oversize => (.oversize, rest)

variable {max : Nat} {closed : Bool} {body rest : Bytes}

theorem readBoundedLine_more {buf : Bytes} {b : UInt8} (hb : b ≠ lineFeed) (hbound : buf.length < max) :
    readBoundedLine max closed buf (b :: rest) = readBoundedLine max closed (buf ++ [b]) rest := by
  have hlength : ¬ max < (buf ++ [b]).length := by
    simp only [List.length_append, List.length_singleton]
    omega
  simp only [readBoundedLine, pushByte, hb, if_false, hlength]

theorem readBoundedLine_append {buf : Bytes} (hfeed : lineFeed ∉ body) (hmax : (buf ++ body).length ≤ max) :
    readBoundedLine max closed buf (body ++ rest) = readBoundedLine max closed (buf ++ body) rest := by
  induction body generalizing buf with
  | nil => rw [List.nil_append, List.append_nil]
  | cons b body ih =>
    obtain ⟨hb, hfeed'⟩ := not_or.mp (List.mem_cons.not.mp hfeed)
    have hlength : buf.length < max := by
      simp only [List.length_append, List.length_cons] at hmax
      omega
    rw [List.cons_append, readBoundedLine_more (Ne.symm hb) hlength, ih hfeed' (by simpa using hmax),
      List.append_assoc, List.singleton_append]

theorem readBoundedLine_line {buf : Bytes} (hfeed : lineFeed ∉ body) (hmax : (buf ++ body).length ≤ max) :
    readBoundedLine max closed buf (body ++ lineFeed :: rest) = (.line (fromUtf8Lossy (buf ++ body)), rest) := by
  rw [readBoundedLine_append hfeed hmax]
  simp [readBoundedLine, pushByte]

theorem readBoundedLine_oversize {buf : Bytes} (hfeed : lineFeed ∉ body) (hbuf : buf.length ≤ max)
    (hmax : max < (buf ++ body).length) :
    readBoundedLine max closed buf (body ++ rest) = (.oversize, body.drop (max + 1 - buf.length) ++ rest) := by
  induction body generalizing buf with
  | nil =>
    simp at hmax
    omega
  | cons b body ih =>
    obtain ⟨hb, hfeed'⟩ := not_or.mp (List.mem_cons.not.mp hfeed)
    by_cases hlength : buf.length < max
    · have hdrop : max + 1 - buf.length = (max + 1 - (buf ++ [b]).length) + 1 := by
        simp only [List.length_append, List.length_singleton]
        omega
      rw [List.cons_append, readBoundedLine_more (Ne.symm hb) hlength, hdrop, List.drop_succ_cons]
      exact ih hfeed' (by simp; omega) (by simpa using hmax)
    · have hone : max + 1 - buf.length = 1 := by omega
      have hover : max < (buf ++ [b]).length := by simp; omega
      have hb' : b ≠ lineFeed := Ne.symm hb
      simp only [List.cons_append, readBoundedLine, pushByte, hb', if_false, hover, if_true, hone, List.drop_succ_cons,
        List.drop_zero]

theorem readBoundedLine_cut {buf : Bytes} (hfeed : lineFeed ∉ body) (hmax : (buf ++ body).length ≤ max) :
    readBoundedLine max closed buf body =
      (if closed then (if buf ++ body = [] then .eof else .line (fromUtf8Lossy (buf ++ body))) else .ioError, []) := by
  have happend := @readBoundedLine_append max closed body [] buf hfeed hmax
  rw [List.append_nil] at happend
  rw [happend, readBoundedLine]
  cases closed <;> simp

end CorpusFeed
