import CorpusFeed.BaselineBoundary
import CorpusFeed.Collation

/-! The file names of one data set. A baseline is
`Freemium_<src>_global_<date>-<time>.tar.gz` with the source in lower case, a
delta `<SRC>_<date>-<time>.tar.gz` with the source in upper case. -/

namespace CorpusFeed

namespace ArchiveSource

def asStr : ArchiveSource → Text
  | .legi => "legi".toList
  | .cass => "cass".toList
  | .capp => "capp".toList
  | .inca => "inca".toList
  | .jade => "jade".toList

def deltaPrefix : ArchiveSource → Text
  | .legi => "LEGI".toList
  | .cass => "CASS".toList
  | .capp => "CAPP".toList
  | .inca => "INCA".toList
  | .jade => "JADE".toList

def debugText : ArchiveSource → Text
  | .legi => "Legi".toList
  | .cass => "Cass".toList
  | .capp => "Capp".toList
  | .inca => "Inca".toList
  | .jade => "Jade".toList

end ArchiveSource

/-- The compact form: date and time without the dash. -/
structure ArchiveTimestamp where
  compact : Text
  length_eq : compact.length = 14
  all_digits : compact.all Char.isDigit = true
deriving DecidableEq

inductive ArchiveParseError where
  | missingFileName
  | unrecognized (fileName : Text) (archiveSource : ArchiveSource)
  | invalidTimestamp (timestamp : Text)

def ArchiveParseError.toText : ArchiveParseError → Text
  | .missingFileName => "archive path has no valid UTF-8 file name".toList
  | .unrecognized fileName archiveSource =>
    "unrecognized ".toList ++ archiveSource.debugText ++ " archive filename `".toList ++ fileName ++ "`".toList
  | .invalidTimestamp timestamp => "invalid archive timestamp `".toList ++ timestamp ++ "`".toList

/-- The source compares byte lengths. Where all characters are ASCII digits
these are the lengths, and elsewhere the date or the time is refused anyway. -/
def ArchiveTimestamp.parse (date time : Text) : Except ArchiveParseError ArchiveTimestamp :=
  if h : date.length = 8 ∧ time.length = 6 ∧ date.all Char.isDigit = true ∧ time.all Char.isDigit = true then
    .ok
      { compact := date ++ time
        length_eq := by rw [List.length_append, h.1, h.2.1]
        all_digits := by rw [List.all_append, h.2.2.1, h.2.2.2]; rfl }
  else .error (.invalidTimestamp (date ++ ['-'] ++ time))

structure ParsedArchive where
  source : ArchiveSource
  kind : ArchiveKind
  timestamp : ArchiveTimestamp
  fileName : Text
deriving DecidableEq

structure NameCaptures where
  src : Text
  date : Text
  time : Text

section Names

/- `\d` of a regular expression: the decimal digits of all scripts. -/
variable (digit : Char → Bool)

/-- `(?<date>\d{8})-(?<time>\d{6})\.tar\.gz$` -/
def stampCaptures (src rest : Text) : Option NameCaptures :=
  let date := rest.take 8
  let time := (rest.drop 9).take 6
  if date.length = 8 ∧ date.all digit = true ∧ rest[8]? = some '-' ∧ time.length = 6 ∧ time.all digit = true ∧
      rest.drop 15 = ".tar.gz".toList then
    some ⟨src, date, time⟩
  else none

/-- `^Freemium_(?<src>[a-z]+)_global_`, and then the stamp. -/
def baselineCaptures (fileName : Text) : Option NameCaptures :=
  match fileName.dropPrefix? "Freemium_".toList with
  | none => none
  | some rest =>
    let src := rest.takeWhile Char.isLower
    if src = [] then none
    else
      match (rest.dropWhile Char.isLower).dropPrefix? "_global_".toList with
      | none => none
      | some stamp => stampCaptures digit src stamp

/-- `^(?<src>[A-Z]+)_`, and then the stamp. -/
def deltaCaptures (fileName : Text) : Option NameCaptures :=
  let src := fileName.takeWhile Char.isUpper
  if src = [] then none
  else
    match (fileName.dropWhile Char.isUpper).dropPrefix? "_".toList with
    | none => none
    | some stamp => stampCaptures digit src stamp

def capturesOf (captures : Option NameCaptures) (src : Text) : Option NameCaptures :=
  captures.filter fun c => c.src = src

def ParsedArchive.parseFileName (source : ArchiveSource) (fileName : Text) : Except ArchiveParseError ParsedArchive :=
  match capturesOf (baselineCaptures digit fileName) source.asStr with
  | some c => (ArchiveTimestamp.parse c.date c.time).map fun t => ⟨source, .baseline, t, fileName⟩
  | none =>
    match capturesOf (deltaCaptures digit fileName) source.deltaPrefix with
    | some c => (ArchiveTimestamp.parse c.date c.time).map fun t => ⟨source, .delta, t, fileName⟩
    | none => .error (.unrecognized fileName source)

variable {digit} {source : ArchiveSource} {fileName : Text} {parsed : ParsedArchive}

theorem parseFileName_fileName (h : ParsedArchive.parseFileName digit source fileName = .ok parsed) :
    parsed.fileName = fileName := by
  have hmap : ∀ (r : Except ArchiveParseError ArchiveTimestamp) (kind : ArchiveKind),
      r.map (fun t => (⟨source, kind, t, fileName⟩ : ParsedArchive)) = .ok parsed → parsed.fileName = fileName := by
    intro r kind hr
    cases r with
    | error e => cases hr
    | ok t =>
      cases hr
      rfl
  unfold ParsedArchive.parseFileName at h
  split at h
  · exact hmap _ _ h
  split at h
  · exact hmap _ _ h
  · cases h

end Names

section Order

theorem ofDigitChars_lt {t : Text} (h : t.all Char.isDigit = true) : Nat.ofDigitChars 10 t 0 < 10 ^ t.length := by
  induction t with
  | nil => simp
  | cons c t ih =>
    simp only [List.all_cons, Bool.and_eq_true] at h
    have hrest := ih h.2
    have hdigit : c.toNat - '0'.toNat ≤ 9 := by
      have hle : c.toNat ≤ '9'.toNat := (Char.isDigit_iff_toNat.mp h.1).2
      have hnine : '9'.toNat - '0'.toNat = 9 := rfl
      omega
    rw [Nat.ofDigitChars_cons, Nat.ofDigitChars_eq_ofDigitChars_zero, List.length_cons, Nat.pow_succ]
    have hhead : 10 ^ t.length * (10 * 0 + (c.toNat - '0'.toNat)) ≤ 10 ^ t.length * 9 :=
      Nat.mul_le_mul_left _ (by omega)
    omega

theorem leading_le_iff {w p q a b : Nat} (ha : a < w) (hb : b < w) : w * p + a ≤ w * q + b ↔ p < q ∨ p = q ∧ a ≤ b := by
  rcases Nat.lt_trichotomy p q with h | rfl | h
  · have hstep : w * (p + 1) ≤ w * q := Nat.mul_le_mul_left w h
    rw [Nat.mul_succ] at hstep
    omega
  · omega
  · have hstep : w * (q + 1) ≤ w * p := Nat.mul_le_mul_left w h
    rw [Nat.mul_succ] at hstep
    omega

/-- Digits of one length compare as texts the way they compare as numbers. -/
theorem digits_le_iff {xs ys : Text} (hx : xs.all Char.isDigit = true) (hy : ys.all Char.isDigit = true)
    (hlength : xs.length = ys.length) :
    codePointCollation.le xs ys = true ↔ Nat.ofDigitChars 10 xs 0 ≤ Nat.ofDigitChars 10 ys 0 := by
  rw [codePoint_le_iff]
  induction xs generalizing ys with
  | nil =>
    have hnil : ys = [] := List.length_eq_zero_iff.mp hlength.symm
    simp [hnil]
  | cons x xs ih =>
    cases ys with
    | nil => cases hlength
    | cons y ys =>
      simp only [List.all_cons, Bool.and_eq_true] at hx hy
      have hlen : xs.length = ys.length := by simpa using hlength
      have hrest := ih hx.2 hy.2 hlen
      have hxs := ofDigitChars_lt hx.2
      have hys := ofDigitChars_lt hy.2
      have hxge := (Char.isDigit_iff_toNat.mp hx.1).1
      have hyge := (Char.isDigit_iff_toNat.mp hy.1).1
      have hlt : x < y ↔ x.toNat < y.toNat := Iff.rfl
      have heq : x = y ↔ x.toNat = y.toNat := ⟨congrArg _, Char.toNat_inj.mp⟩
      rw [← hlen] at hys
      rw [List.cons_le_cons_iff, Nat.ofDigitChars_cons, Nat.ofDigitChars_cons, Nat.ofDigitChars_eq_ofDigitChars_zero,
        Nat.ofDigitChars_eq_ofDigitChars_zero (l := ys), hrest, hlt, heq, ← hlen, leading_le_iff hxs hys]
      omega

/-- The moment of an archive, as the number with its fourteen digits. -/
def ArchiveTimestamp.value (timestamp : ArchiveTimestamp) : Nat := Nat.ofDigitChars 10 timestamp.compact 0

theorem ArchiveTimestamp.le_iff {a b : ArchiveTimestamp} :
    codePointCollation.le a.compact b.compact = true ↔ a.value ≤ b.value :=
  digits_le_iff a.all_digits b.all_digits (a.length_eq.trans b.length_eq.symm)

end Order

example : (ParsedArchive.parseFileName Char.isDigit .legi "LEGI_20250714-000000.tar.gz".toList).toOption.map
    (fun parsed => (parsed.kind, parsed.timestamp.compact)) = some (.delta, "20250714000000".toList) := by
  decide +kernel

end CorpusFeed
