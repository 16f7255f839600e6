import CorpusFeed.CivilCalendar
import CorpusFeed.DecimalOrder

/-! The producer's timestamps: whole UNIX seconds as an RFC 3339 text and as
the compact text of the archive names, and the parsers of both. -/

namespace CorpusFeed

/-- A date with a time of day. -/
structure Instant where
  date : CivilDate
  hour : Nat
  minute : Nat
  second : Nat
deriving DecidableEq

def instantOfUnix (unixSecs : Nat) : Instant :=
  let secsOfDay := unixSecs % 86400
  ⟨civilFromDays (unixSecs / 86400), secsOfDay / 3600, secsOfDay % 3600 / 60, secsOfDay % 60⟩

/-- `YYYY-MM-DDTHH:MM:SSZ` -/
def Instant.rfc3339 (instant : Instant) : Text :=
  padDecimal 4 instant.date.year ++ '-' :: (padDecimal 2 instant.date.month ++ '-' ::
    (padDecimal 2 instant.date.day ++ 'T' :: (padDecimal 2 instant.hour ++ ':' ::
      (padDecimal 2 instant.minute ++ ':' :: (padDecimal 2 instant.second ++ ['Z'])))))

/-- `YYYYMMDDHHMMSS` -/
def Instant.compact (instant : Instant) : Text :=
  padDecimal 4 instant.date.year ++ (padDecimal 2 instant.date.month ++ (padDecimal 2 instant.date.day ++
    (padDecimal 2 instant.hour ++ (padDecimal 2 instant.minute ++ padDecimal 2 instant.second))))

def rfc3339FromUnix (unixSecs : Nat) : Text := (instantOfUnix unixSecs).rfc3339

def compactFromUnix (unixSecs : Nat) : Text := (instantOfUnix unixSecs).compact

def InI64 (n : Int) : Prop := -2 ^ 63 ≤ n ∧ n < 2 ^ 63

instance (n : Int) : Decidable (InI64 n) := inferInstanceAs (Decidable (-2 ^ 63 ≤ n ∧ n < 2 ^ 63))

/-- `str::parse` for `i64`: one sign may stand before the digits. -/
def parseI64 (t : Text) : Option Int :=
  let value : Option Int :=
    match t with
    | '-' :: digits => (readDecimal digits).map fun n => -(n : Int)
    | '+' :: digits => (readDecimal digits).map Int.ofNat
    | digits => (readDecimal digits).map Int.ofNat
  value.filter fun n => decide (InI64 n)

def splitOnce (separator : Char) (t : Text) : Option (Text × Text) :=
  match t.dropWhile (· != separator) with
  | [] => none
  | _ :: rest => some (t.takeWhile (· != separator), rest)

def stripSuffix (last : Char) (t : Text) : Option Text := if t.getLast? = some last then some t.dropLast else none

/-- The numbers of a timestamp as a parser reads them. -/
structure ParsedFields where
  year : Int
  month : Int
  day : Int
  hour : Int
  minute : Int
  second : Int
deriving DecidableEq

def ParsedFields.dateInRange (fields : ParsedFields) : Bool :=
  decide (1 ≤ fields.month ∧ fields.month ≤ 12) && decide (1 ≤ fields.day ∧ fields.day ≤ 31)

def ParsedFields.timeInRange (fields : ParsedFields) : Bool :=
  decide (fields.hour ≤ 23) && decide (fields.minute ≤ 59) && decide (fields.second ≤ 59)

def parseFields (year month day hour minute second : Text) : Option ParsedFields := do
  let year ← parseI64 year
  let month ← parseI64 month
  let day ← parseI64 day
  let hour ← parseI64 hour
  let minute ← parseI64 minute
  let second ← parseI64 second
  some ⟨year, month, day, hour, minute, second⟩

/-- The first half of `unix_from_rfc3339`, up to its range check. -/
def readRfc3339 (ts : Text) : Option ParsedFields :=
  match splitOnce 'T' ts with
  | none => none
  | some (date, rest) =>
    match stripSuffix 'Z' rest with
    | none => none
    | some time =>
      match date.splitOn '-', time.splitOn ':' with
      | [year, month, day], [hour, minute, second] =>
        (parseFields year month day hour minute second).filter (·.dateInRange)
      | _, _ => none

/-- The first half of `unix_from_compact_archive_timestamp`. The bytes are
characters here, since all of them have to be digits. -/
def readCompact (compact : Text) : Option ParsedFields :=
  if compact.length ≠ 14 ∨ !compact.all Char.isDigit then none
  else
    (parseFields (compact.take 4) ((compact.drop 4).take 2) ((compact.drop 6).take 2) ((compact.drop 8).take 2)
      ((compact.drop 10).take 2) ((compact.drop 12).take 2)).filter fun fields =>
        fields.dateInRange && fields.timeInRange

/-- An operation on `i64` leaves its range. -/
inductive ArithmeticOverflow where
  | overflow
deriving DecidableEq

def checkI64 (n : Int) : Except ArithmeticOverflow Int := if InI64 n then .ok n else .error .overflow

/-- The year that begins in March, as `y` of the source. -/
def civilYear (fields : ParsedFields) : Except ArithmeticOverflow Int :=
  if fields.month ≤ 2 then checkI64 (fields.year - 1) else .ok fields.year

def eraOfYear (y : Int) : Except ArithmeticOverflow Int :=
  (if 0 ≤ y then .ok y else checkI64 (y - 399)).map fun shifted => shifted.tdiv 400

def monthIndex (month : Int) : Except ArithmeticOverflow Int :=
  if 2 < month then checkI64 (month - 3) else checkI64 (month + 9)

def dayOfYear (mp day : Int) : Except ArithmeticOverflow Int := do
  let scaled ← checkI64 (153 * mp)
  let scaled ← checkI64 (scaled + 2)
  let doy ← checkI64 (scaled.tdiv 5 + day)
  checkI64 (doy - 1)

def dayOfEra (yoe doy : Int) : Except ArithmeticOverflow Int := do
  let yearDays ← checkI64 (yoe * 365)
  let yearDays ← checkI64 (yearDays + yoe.tdiv 4)
  let yearDays ← checkI64 (yearDays - yoe.tdiv 100)
  checkI64 (yearDays + doy)

/-- The days from the civil date, each operation in `i64`. -/
def daysFromCivil (fields : ParsedFields) : Except ArithmeticOverflow Int := do
  let y ← civilYear fields
  let era ← eraOfYear y
  let eraYears ← checkI64 (era * 400)
  let yoe ← checkI64 (y - eraYears)
  let mp ← monthIndex fields.month
  let doy ← dayOfYear mp fields.day
  let doe ← dayOfEra yoe doy
  let eraDays ← checkI64 (era * 146097)
  let days ← checkI64 (eraDays + doe)
  checkI64 (days - 719468)

/-- The seconds since 1970, each operation in `i64`. -/
def secondsFromCivil (fields : ParsedFields) : Except ArithmeticOverflow Int := do
  let days ← daysFromCivil fields
  let daySecs ← checkI64 (days * 86400)
  let hourSecs ← checkI64 (fields.hour * 3600)
  let secs ← checkI64 (daySecs + hourSecs)
  let minuteSecs ← checkI64 (fields.minute * 60)
  let secs ← checkI64 (secs + minuteSecs)
  checkI64 (secs + fields.second)

def u64FromI64 (secs : Int) : Option Nat := if 0 ≤ secs then some secs.toNat else none

def unixFromFields : Option ParsedFields → Except ArithmeticOverflow (Option Nat)
  | none => .ok none
  | some fields => (secondsFromCivil fields).map u64FromI64

def unixFromRfc3339 (ts : Text) : Except ArithmeticOverflow (Option Nat) := unixFromFields (readRfc3339 ts)

def unixFromCompactArchiveTimestamp (compact : Text) : Except ArithmeticOverflow (Option Nat) :=
  unixFromFields (readCompact compact)

/-- The sums of the last line, as numbers. -/
def ParsedFields.days (fields : ParsedFields) : Int := dayNumber fields.year fields.month fields.day

def ParsedFields.total (fields : ParsedFields) : Int :=
  fields.days * 86400 + fields.hour * 3600 + fields.minute * 60 + fields.second

/-- No product and no sum of the last line leaves the range of `i64`. -/
structure ParsedFields.Fits (fields : ParsedFields) : Prop where
  days : InI64 (fields.days * 86400)
  hour : InI64 (fields.hour * 3600)
  hours : InI64 (fields.days * 86400 + fields.hour * 3600)
  minute : InI64 (fields.minute * 60)
  minutes : InI64 (fields.days * 86400 + fields.hour * 3600 + fields.minute * 60)
  total : InI64 fields.total

/-- The numbers of a date that a parser lets through. -/
structure ParsedFields.Dated (fields : ParsedFields) : Prop where
  year_pos : 0 ≤ fields.year
  year_lt : fields.year < 2 ^ 63
  month_pos : 1 ≤ fields.month
  month_le : fields.month ≤ 12
  day_pos : 1 ≤ fields.day
  day_le : fields.day ≤ 31

theorem checkI64_bind_ok {α : Type} {n : Int} {next : Int → Except ArithmeticOverflow α} {result : α} :
    (checkI64 n >>= next) = .ok result ↔ InI64 n ∧ next n = .ok result := by
  unfold checkI64
  by_cases h : InI64 n
  · rw [if_pos h]
    exact ⟨fun hnext => ⟨h, hnext⟩, fun hnext => hnext.2⟩
  · rw [if_neg h]
    constructor
    · intro hnext
      cases hnext
    · intro hnext
      exact absurd hnext.1 h

theorem checkI64_ok {n result : Int} : checkI64 n = .ok result ↔ InI64 n ∧ n = result := by
  unfold checkI64
  by_cases h : InI64 n
  · simp [h]
  · simp [h]

theorem ok_bind {α β : Type} {a : α} {next : α → Except ArithmeticOverflow β} : (Except.ok a >>= next) = next a := rfl

theorem checkI64_of_mem {n : Int} (h : -2 ^ 63 ≤ n ∧ n < 2 ^ 63) : checkI64 n = .ok n := if_pos h

/-- The division rounds down, for the years before 0 too. -/
theorem eraOfYear_eq {y : Int} (h : -1 ≤ y) : eraOfYear y = .ok (y / 400) := by
  unfold eraOfYear
  by_cases hpos : 0 ≤ y
  · rw [if_pos hpos]
    simp only [Except.map, Int.tdiv_eq_ediv_of_nonneg hpos]
  · have hy : y = -1 := by omega
    rw [if_neg hpos, hy]
    rfl

theorem dayOfYear_eq {mp day : Int} (hmp : 0 ≤ mp ∧ mp ≤ 11) (hday : 1 ≤ day ∧ day ≤ 31) :
    dayOfYear mp day = .ok ((153 * mp + 2) / 5 + day - 1) := by
  have hdiv : (153 * mp + 2).tdiv 5 = (153 * mp + 2) / 5 := Int.tdiv_eq_ediv_of_nonneg (by omega)
  unfold dayOfYear
  rw [checkI64_of_mem (by omega), ok_bind, checkI64_of_mem (by omega), ok_bind, hdiv, checkI64_of_mem (by omega),
    ok_bind, checkI64_of_mem (by omega)]

theorem dayOfEra_eq {yoe doy : Int} (hyoe : 0 ≤ yoe ∧ yoe < 400) (hdoy : 0 ≤ doy ∧ doy < 400) :
    dayOfEra yoe doy = .ok (yoe * 365 + yoe / 4 - yoe / 100 + doy) := by
  have hfour : yoe.tdiv 4 = yoe / 4 := Int.tdiv_eq_ediv_of_nonneg hyoe.1
  have hhundred : yoe.tdiv 100 = yoe / 100 := Int.tdiv_eq_ediv_of_nonneg hyoe.1
  unfold dayOfEra
  rw [checkI64_of_mem (by omega), ok_bind, hfour, checkI64_of_mem (by omega), ok_bind, hhundred,
    checkI64_of_mem (by omega), ok_bind, checkI64_of_mem (by omega)]

namespace ParsedFields.Dated

variable {fields : ParsedFields}

theorem shifted (h : fields.Dated) : ∃ y mp, civilYear fields = .ok y ∧ monthIndex fields.month = .ok mp ∧
    -1 ≤ y ∧ y < 2 ^ 63 ∧ 0 ≤ mp ∧ mp ≤ 11 ∧
    fields.days = 365 * y + y / 4 - y / 100 + y / 400 + (153 * mp + 2) / 5 + fields.day - 719469 := by
  obtain ⟨hyear, hyear', hmonth, hmonth', hday, hday'⟩ := h
  unfold civilYear monthIndex ParsedFields.days
  by_cases hearly : fields.month ≤ 2
  · refine ⟨fields.year - 1, fields.month + 9, ?_, ?_, by omega, by omega, by omega, by omega, dayNumber_late hearly _ _⟩
    · rw [if_pos hearly, checkI64_of_mem (by omega)]
    · rw [if_neg (by omega), checkI64_of_mem (by omega)]
  · refine ⟨fields.year, fields.month - 3, ?_, ?_, by omega, by omega, by omega, by omega,
      dayNumber_early (by omega) _ _⟩
    · rw [if_neg hearly]
    · rw [if_pos (by omega), checkI64_of_mem (by omega)]

/-- A day number whose seconds fit is itself computed without an overflow. -/
theorem daysFromCivil_ok (h : fields.Dated) :
    (InI64 (fields.days * 86400) → daysFromCivil fields = .ok fields.days) ∧
      ∀ result, daysFromCivil fields = .ok result → result = fields.days := by
  obtain ⟨y, mp, hy, hmp, hlow, hhigh, hmp0, hmp11, hdays⟩ := h.shifted
  have hday := h.day_pos
  have hday' := h.day_le
  have hyoe : 0 ≤ y - y / 400 * 400 ∧ y - y / 400 * 400 < 400 := by omega
  have hdoe : fields.days = y / 400 * 146097 + ((y - y / 400 * 400) * 365 + (y - y / 400 * 400) / 4 -
      (y - y / 400 * 400) / 100 + ((153 * mp + 2) / 5 + fields.day - 1)) - 719468 := by
    omega
  unfold daysFromCivil
  rw [hy, ok_bind, eraOfYear_eq hlow, ok_bind, checkI64_of_mem (by omega), ok_bind, checkI64_of_mem (by omega), ok_bind,
    hmp, ok_bind, dayOfYear_eq ⟨hmp0, hmp11⟩ ⟨hday, hday'⟩, ok_bind, dayOfEra_eq hyoe (by omega), ok_bind]
  constructor
  · intro hfits
    unfold InI64 at hfits
    rw [checkI64_of_mem (by omega), ok_bind, checkI64_of_mem (by omega), ok_bind, checkI64_of_mem (by omega), ← hdoe]
  · intro result hresult
    rw [checkI64_bind_ok, checkI64_bind_ok, checkI64_ok] at hresult
    rw [hdoe, hresult.2.2.2]

/-- The seconds are computed exactly where the last line fits. -/
theorem secondsFromCivil_ok (h : fields.Dated) {result : Int} :
    secondsFromCivil fields = .ok result ↔ fields.Fits ∧ fields.total = result := by
  obtain ⟨hcomputed, hunique⟩ := h.daysFromCivil_ok
  unfold secondsFromCivil
  constructor
  · intro hok
    cases hdays : daysFromCivil fields with
    | error e =>
      rw [hdays] at hok
      cases hok
    | ok days =>
      rw [hdays, ok_bind, hunique days hdays] at hok
      simp only [checkI64_bind_ok, checkI64_ok] at hok
      obtain ⟨hdays, hhour, hhours, hminute, hminutes, htotal, hresult⟩ := hok
      exact ⟨⟨hdays, hhour, hhours, hminute, hminutes, htotal⟩, hresult⟩
  · rintro ⟨hfits, hresult⟩
    rw [hcomputed hfits.days, ok_bind]
    simp only [checkI64_bind_ok, checkI64_ok]
    exact ⟨hfits.days, hfits.hour, hfits.hours, hfits.minute, hfits.minutes, hfits.total, hresult⟩

theorem secondsFromCivil_overflow (h : fields.Dated) :
    secondsFromCivil fields = .error .overflow ↔ ¬ fields.Fits := by
  cases hresult : secondsFromCivil fields with
  | error e =>
    refine iff_of_true rfl fun hfits => ?_
    have hok := h.secondsFromCivil_ok.mpr ⟨hfits, rfl⟩
    rw [hresult] at hok
    cases hok
  | ok result =>
    refine iff_of_false (by simp) fun hno => hno ?_
    exact (h.secondsFromCivil_ok.mp hresult).1

end ParsedFields.Dated

end CorpusFeed
