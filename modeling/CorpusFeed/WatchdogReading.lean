import CorpusFeed.CitationNormalized
import CorpusFeed.TimestampReading
import CorpusFeed.Watchdog

/-! The watchdog reads off the text of a time the second that the text was made of,
whatever the time zone of the session. -/

namespace CorpusFeed

section Calendar

theorem civilOfDays_parts (days : Int) : ∃ (era : Int) (yoe doy : ℕ), yoe < 400 ∧ doy ≤ 365 ∧
    days + 719468 = era * 146097 + startOfYear yoe + doy ∧
    civilOfDays days =
      let mp : Int := (5 * doy + 2) / 153
      let month := if mp < 10 then mp + 3 else mp - 9
      (yoe + era * 400 + (if month ≤ 2 then 1 else 0), month, doy - (153 * mp + 2) / 5 + 1) := by
  obtain ⟨doe, hcast⟩ : ∃ doe : ℕ, (days + 719468) % 146097 = doe := ⟨((days + 719468) % 146097).toNat, by omega⟩
  have hdoe : doe < 146097 := by omega
  obtain ⟨hstart, hend⟩ := yearOfEra_bounds hdoe
  have hyoe := yearOfEra_lt hdoe
  have hdoy : doe - startOfYear (yearOfEra doe) ≤ 365 := by
    by_cases hlast : yearOfEra doe < 399
    · have hnext := hend hlast
      unfold startOfYear at hnext hstart ⊢
      omega
    · have heq : yearOfEra doe = 399 := by omega
      rw [heq]
      unfold startOfYear
      omega
  have hyear : ((doe : Int) - doe / 1460 + doe / 36524 - doe / 146096) / 365 = yearOfEra doe := by
    unfold yearOfEra
    omega
  have hday : (doe : Int) - (365 * yearOfEra doe + yearOfEra doe / 4 - yearOfEra doe / 100) =
      (doe - startOfYear (yearOfEra doe) : ℕ) := by
    unfold startOfYear at hstart ⊢
    omega
  refine ⟨(days + 719468) / 146097, yearOfEra doe, doe - startOfYear (yearOfEra doe), hyoe, hdoy, by omega, ?_⟩
  unfold civilOfDays
  dsimp only
  rw [hcast, hyear, hday]

/-- The date of a day number, before 1970 and before Christ too. -/
theorem civilOfDays_spec (days : Int) :
    dayNumber (civilOfDays days).1 (civilOfDays days).2.1 (civilOfDays days).2.2 = days ∧
      (1 ≤ (civilOfDays days).2.1 ∧ (civilOfDays days).2.1 ≤ 12) ∧
      1 ≤ (civilOfDays days).2.2 ∧ (civilOfDays days).2.2 ≤ 31 := by
  obtain ⟨era, yoe, doy, hyoe, hdoy, hdays, heq⟩ := civilOfDays_parts days
  have hfour : ((yoe : Int) + era * 400) / 4 = (yoe / 4 : ℕ) + era * 100 := by omega
  have hhundred : ((yoe : Int) + era * 400) / 100 = (yoe / 100 : ℕ) + era * 4 := by omega
  have hera : ((yoe : Int) + era * 400) / 400 = era := by omega
  have hstart : (startOfYear yoe : Int) = 365 * yoe + (yoe / 4 : ℕ) - (yoe / 100 : ℕ) := by
    unfold startOfYear
    omega
  have hmp : (5 * (doy : Int) + 2) / 153 ≤ 11 := by omega
  rw [heq]
  dsimp only
  by_cases hlate : (5 * (doy : Int) + 2) / 153 < 10
  · rw [if_pos hlate, if_neg (by omega), dayNumber_early (by omega), add_zero, hfour, hhundred, hera,
      add_sub_cancel_right]
    omega
  · rw [if_neg hlate, if_pos (by omega), dayNumber_late (by omega), add_sub_cancel_right, hfour, hhundred, hera,
      sub_add_cancel]
    omega

theorem year_pos {year month day : Int} (hmonth : 1 ≤ month ∧ month ≤ 12) (hday : 1 ≤ day ∧ day ≤ 31)
    (hdays : -1 ≤ dayNumber year month day) : 0 < year := by
  by_contra hyear
  by_cases hearly : month ≤ 2
  · rw [dayNumber_late hearly] at hdays
    omega
  · rw [dayNumber_early (by omega)] at hdays
    omega

theorem year_lt {year month day : Int} (hmonth : 1 ≤ month ∧ month ≤ 12) (hday : 1 ≤ day ∧ day ≤ 31)
    (hdays : dayNumber year month day < 10 ^ 9) : year < 2 ^ 63 := by
  by_cases hearly : month ≤ 2
  · rw [dayNumber_late hearly] at hdays
    omega
  · rw [dayNumber_early (by omega)] at hdays
    omega

end Calendar

section Offset

theorem parseI64_foreign {t : Text} {c : Char} (hmem : c ∈ t) (hdigit : c.isDigit = false) (hminus : c ≠ '-')
    (hplus : c ≠ '+') : parseI64 t = none := by
  have hforeign : ∀ digits : Text, c ∈ digits → readDecimal digits = none := by
    intro digits hc
    cases hread : readDecimal digits with
    | none => rfl
    | some n =>
      have hyes := isDigit_of_readDecimal hread hc
      rw [hdigit] at hyes
      cases hyes
  unfold parseI64
  dsimp only
  split
  · next digits =>
    rw [hforeign digits ((List.mem_cons.mp hmem).resolve_left hminus)]
    rfl
  · next digits =>
    rw [hforeign digits ((List.mem_cons.mp hmem).resolve_left hplus)]
    rfl
  · rw [hforeign _ hmem]
    rfl

theorem offsetSeconds_padDecimal {width width' hours minutes : ℕ} (hhours : hours < 100) (hminutes : minutes < 100) :
    offsetSeconds (padDecimal width hours) (padDecimal width' minutes) =
      .ok (some (hours * 3600 + minutes * 60 : Int)) := by
  unfold offsetSeconds
  rw [parseI64_padDecimal (by omega), parseI64_padDecimal (by omega)]
  dsimp only
  rw [checkI64_of_mem (by omega), ok_bind, checkI64_of_mem (by omega), ok_bind, checkI64_of_mem (by omega), ok_bind]
  rfl

theorem offsetSeconds_foreign {hours minutes : Text} {c : Char} (hmem : c ∈ hours ∨ c ∈ minutes)
    (hdigit : c.isDigit = false) (hminus : c ≠ '-') (hplus : c ≠ '+') : offsetSeconds hours minutes = .ok none := by
  unfold offsetSeconds
  rcases hmem with hmem | hmem
  · rw [parseI64_foreign hmem hdigit hminus hplus]
  · rw [parseI64_foreign hmem hdigit hminus hplus]
    cases parseI64 hours with
    | none => rfl
    | some n => rfl

theorem splitOnce_none {separator : Char} {t : Text} (h : separator ∉ t) : splitOnce separator t = none := by
  have hall : t.dropWhile (· != separator) = [] := by
    rw [List.dropWhile_eq_nil_iff]
    intro c hc
    have hne : c ≠ separator := fun heq => h (heq ▸ hc)
    simpa using hne
  rw [splitOnce, hall]

theorem utf8Len_append (s t : Text) : utf8Len (s ++ t) = utf8Len s + utf8Len t := by
  rw [utf8Len, List.map_append, List.sum_append]
  rfl

theorem utf8Len_digits {t : Text} (h : Digits t) : utf8Len t = t.length := by
  induction t with
  | nil => rfl
  | cons c t ih =>
    have hsize : c.utf8Size = 1 := by
      have hrange := h.head
      rw [Char.utf8Size_eq_one_iff]
      have hval : c.val.toNat ≤ 57 := hrange.2
      exact UInt32.le_iff_toNat_le.mpr (hval.trans (by decide))
    have hrest := ih h.tail
    rw [utf8Len] at hrest ⊢
    rw [List.map_cons, List.sum_cons, hsize, hrest, List.length_cons]
    omega

/-- An offset of whole minutes is read; one with seconds, or before Christ, is not. -/
theorem parseOffsetMagnitude_short {n : ℕ} (hn : n < 86400) {era : Text} (hera : era = [] ∨ era = [' ', 'B', 'C']) :
    parseOffsetMagnitude (shortOffsetMagnitude n ++ era) =
      .ok (if era = [] ∧ n % 60 = 0 then some (n : Int) else none) := by
  have hcolon : ∀ k, ':' ∉ padDecimal 2 k := not_mem_padDecimal rfl 2
  have hlength : utf8Len (padDecimal 2 (n / 3600)) = 2 := by
    rw [utf8Len_digits (digits_padDecimal _ _), length_padDecimal (by omega) (by omega)]
  have hbefore : ¬ ([' ', 'B', 'C'] = ([] : Text) ∧ n % 60 = 0) := by simp
  unfold parseOffsetMagnitude shortOffsetMagnitude
  by_cases hhours : n % 3600 = 0
  · rw [if_pos hhours, List.append_nil]
    rcases hera with rfl | rfl
    · rw [List.append_nil, splitOnce_none (hcolon _)]
      dsimp only
      rw [if_neg (by omega), if_pos ⟨rfl, by omega⟩]
      have hzero : ['0'] = padDecimal 1 0 := by decide
      rw [hzero, offsetSeconds_padDecimal (by omega) (by omega)]
      congr 2
      omega
    · have hnone : ':' ∉ padDecimal 2 (n / 3600) ++ [' ', 'B', 'C'] := by simp [hcolon]
      have hlong : utf8Len (padDecimal 2 (n / 3600) ++ [' ', 'B', 'C']) = 5 := by
        rw [utf8Len_append, hlength]
        rfl
      rw [splitOnce_none hnone]
      dsimp only
      rw [if_neg (by omega), if_neg hbefore]
      exact @offsetSeconds_foreign _ _ ' ' (Or.inl (by simp)) rfl (by decide) (by decide)
  · rw [if_neg hhours, List.append_assoc, List.cons_append, splitOnce_append (hcolon _)]
    dsimp only
    rcases hera with rfl | rfl
    · rw [List.append_nil]
      by_cases hseconds : n % 60 = 0
      · rw [if_pos hseconds, List.append_nil, if_pos ⟨rfl, hseconds⟩, offsetSeconds_padDecimal (by omega) (by omega)]
        congr 2
        omega
      · rw [if_neg hseconds, if_neg (by simp [hseconds])]
        exact @offsetSeconds_foreign _ _ ':' (Or.inr (by simp)) rfl (by decide) (by decide)
    · rw [if_neg hbefore]
      exact @offsetSeconds_foreign _ _ ' ' (Or.inr (by simp)) rfl (by decide) (by decide)

theorem isSign_of_isClockChar {c : Char} (h : isClockChar c = true) : isSign c = false := by
  unfold isClockChar at h
  unfold isSign
  by_cases hplus : c = '+'
  · rw [hplus] at h
    exact absurd h (by decide)
  · by_cases hminus : c = '-'
    · rw [hminus] at h
      exact absurd h (by decide)
    · simp [hplus, hminus]

variable {clock designator : Text} {sign : Char} (hclock : ∀ c ∈ clock, isClockChar c = true)
  (hsign : isSign sign = true) (hutc : 'Z' ∉ designator ∧ 'z' ∉ designator)

include hclock hsign hutc

theorem splitOffset_sign : splitOffset (clock ++ sign :: designator) =
    (parseOffsetMagnitude designator).bind fun magnitude => magnitude.elim (.ok none) fun magnitude =>
      (checked (checkI64 (if sign = '-' then -magnitude else magnitude))).map fun offsetSecs =>
        some (clock, offsetSecs) := by
  have hfree : ∀ last, last = 'Z' ∨ last = 'z' → last ∉ clock ++ sign :: designator := by
    intro last hlast hmem
    rcases List.mem_append.mp hmem with hmem | hmem
    · have hyes := hclock last hmem
      rcases hlast with rfl | rfl
      · exact absurd hyes (by decide)
      · exact absurd hyes (by decide)
    · rcases List.mem_cons.mp hmem with hmem | hmem
      · subst hmem
        rcases hlast with rfl | rfl
        · exact absurd hsign (by decide)
        · exact absurd hsign (by decide)
      · rcases hlast with rfl | rfl
        · exact hutc.1 hmem
        · exact hutc.2 hmem
  have hlast : ¬ ((clock ++ sign :: designator).getLast? = some 'Z' ∨
      (clock ++ sign :: designator).getLast? = some 'z') := by
    rintro (h | h)
    · exact hfree 'Z' (Or.inl rfl) (List.mem_of_getLast? h)
    · exact hfree 'z' (Or.inr rfl) (List.mem_of_getLast? h)
  have hbefore : ∀ c ∈ clock, (!isSign c) = true := by
    intro c hc
    rw [isSign_of_isClockChar (hclock c hc)]
    rfl
  have hdrop : (clock ++ sign :: designator).dropWhile (!isSign ·) = sign :: designator := by
    rw [List.dropWhile_append_of_pos hbefore, List.dropWhile_cons_of_neg (by simp [hsign])]
  have htake : (clock ++ sign :: designator).takeWhile (!isSign ·) = clock := by
    rw [List.takeWhile_append_of_pos hbefore, List.takeWhile_cons_of_neg (by simp [hsign]), List.append_nil]
  unfold splitOffset
  rw [if_neg hlast, hdrop, htake]
  dsimp only
  cases parseOffsetMagnitude designator with
  | error panic => rfl
  | ok magnitude =>
    cases magnitude with
    | none => rfl
    | some magnitude => rfl

end Offset

theorem eraText_cases (days : Int) : (0 < (civilOfDays days).1 ∧ eraText days = []) ∨
    (¬ 0 < (civilOfDays days).1 ∧ eraText days = [' ', 'B', 'C']) := by
  unfold eraText
  by_cases hyear : 0 < (civilOfDays days).1
  · exact Or.inl ⟨hyear, if_pos hyear⟩
  · exact Or.inr ⟨hyear, if_neg hyear⟩

theorem isClockChar_shortOffsetMagnitude {n : ℕ} {c : Char} (h : c ∈ shortOffsetMagnitude n) :
    isClockChar c = true := by
  unfold shortOffsetMagnitude at h
  by_cases hhours : n % 3600 = 0
  · rw [if_pos hhours, List.append_nil] at h
    exact isClockChar_of_isDigit (isDigit_of_mem_padDecimal h)
  · rw [if_neg hhours] at h
    exact isClockChar_offsetMagnitude h

/-- The text after the mark, as the watchdog splits it. -/
theorem splitOffset_text {offset : Int} (hoffset : offset.natAbs < 86400) (secondOfDay fraction : ℕ) (days : Int) :
    splitOffset (clockText secondOfDay fraction ++ (shortOffsetText offset ++ eraText days)) =
      .ok (if 0 < (civilOfDays days).1 ∧ offset % 60 = 0 then some (clockText secondOfDay fraction, offset)
        else none) := by
  have hera : eraText days = [] ∨ eraText days = [' ', 'B', 'C'] :=
    (eraText_cases days).imp (fun h => h.2) fun h => h.2
  have hclock : ∀ c ∈ clockText secondOfDay fraction, isClockChar c = true := fun c hc => isClockChar_clockText hc
  have hfree : ∀ c, isClockChar c = false → c ∉ [' ', 'B', 'C'] →
      c ∉ shortOffsetMagnitude offset.natAbs ++ eraText days := by
    intro c hforeign hbefore hmem
    rcases List.mem_append.mp hmem with hmem | hmem
    · rw [isClockChar_shortOffsetMagnitude hmem] at hforeign
      cases hforeign
    · rcases hera with hempty | hbc
      · rw [hempty] at hmem
        cases hmem
      · exact hbefore (hbc ▸ hmem)
  have hutc : 'Z' ∉ shortOffsetMagnitude offset.natAbs ++ eraText days ∧
      'z' ∉ shortOffsetMagnitude offset.natAbs ++ eraText days :=
    ⟨hfree 'Z' (by decide) (by decide), hfree 'z' (by decide) (by decide)⟩
  have hsign : isSign (if 0 ≤ offset then '+' else '-') = true := by
    by_cases hpos : 0 ≤ offset
    · rw [if_pos hpos]
      rfl
    · rw [if_neg hpos]
      rfl
  have hempty : eraText days = [] ↔ 0 < (civilOfDays days).1 := by
    rcases eraText_cases days with ⟨hyear, htext⟩ | ⟨hyear, htext⟩
    · exact iff_of_true htext hyear
    · exact iff_of_false (by simp [htext]) hyear
  have hminutes : offset.natAbs % 60 = 0 ↔ offset % 60 = 0 := by omega
  have hwhole := and_congr hempty hminutes
  unfold shortOffsetText
  rw [List.cons_append, splitOffset_sign hclock hsign hutc, parseOffsetMagnitude_short hoffset hera]
  by_cases hread : 0 < (civilOfDays days).1 ∧ offset % 60 = 0
  · have hvalue : (if (if 0 ≤ offset then '+' else '-') = '-' then -(offset.natAbs : Int) else offset.natAbs) =
        offset := by
      by_cases hpos : 0 ≤ offset
      · rw [if_pos hpos, if_neg (by decide)]
        omega
      · rw [if_neg hpos, if_pos rfl]
        omega
    rw [if_pos (hwhole.mpr hread), if_pos hread]
    show (checked (checkI64 _)).map _ = _
    rw [hvalue, checkI64_of_mem (by omega)]
    rfl
  · rw [if_neg (mt hwhole.mp hread), if_neg hread]
    rfl

section Parts

variable {days : Int}

theorem dateText_dated (hyear : 0 < (civilOfDays days).1) : dateText days =
    List.intercalate ['-'] [padDecimal 4 (civilOfDays days).1.natAbs, padDecimal 2 (civilOfDays days).2.1.natAbs,
      padDecimal 2 (civilOfDays days).2.2.natAbs] := by
  unfold dateText
  dsimp only
  rw [if_pos hyear]
  simp [List.intercalate]

theorem dateText_unmarked (days : Int) : ∀ c ∈ dateText days, isDateMark c = false := by
  intro c hc
  unfold isDateMark
  have hdigits : ∀ width n, c ∈ padDecimal width n → (c == 'T' || c == ' ') = false := by
    intro width n hmem
    have hdigit := isDigit_of_mem_padDecimal hmem
    have hT : c ≠ 'T' := fun h => absurd (h ▸ hdigit) (by decide)
    have hspace : c ≠ ' ' := fun h => absurd (h ▸ hdigit) (by decide)
    simp [hT, hspace]
  unfold dateText at hc
  dsimp only at hc
  rcases List.mem_append.mp hc with hc | hc
  · exact hdigits _ _ hc
  · rcases List.mem_cons.mp hc with rfl | hc
    · rfl
    · rcases List.mem_append.mp hc with hc | hc
      · exact hdigits _ _ hc
      · rcases List.mem_cons.mp hc with rfl | hc
        · rfl
        · exact hdigits _ _ hc

/-- The clock up to its fraction. -/
theorem clockText_whole (secondOfDay fraction : ℕ) : (clockText secondOfDay fraction).takeWhile (· != '.') =
    List.intercalate [':'] [padDecimal 2 (secondOfDay / 3600), padDecimal 2 (secondOfDay / 60 % 60),
      padDecimal 2 (secondOfDay % 60)] := by
  have hdot : ∀ part ∈ [padDecimal 2 (secondOfDay / 3600), padDecimal 2 (secondOfDay / 60 % 60),
      padDecimal 2 (secondOfDay % 60)], '.' ∉ part := by
    intro part hpart
    simp only [List.mem_cons, List.not_mem_nil, or_false] at hpart
    rcases hpart with rfl | rfl | rfl <;> exact not_mem_padDecimal rfl _ _
  have htext : clockText secondOfDay fraction = List.intercalate [':'] [padDecimal 2 (secondOfDay / 3600),
      padDecimal 2 (secondOfDay / 60 % 60), padDecimal 2 (secondOfDay % 60)] ++ fractionText fraction := by
    simp [clockText, List.intercalate]
  have hwhole : ∀ c ∈ List.intercalate [':'] [padDecimal 2 (secondOfDay / 3600), padDecimal 2 (secondOfDay / 60 % 60),
      padDecimal 2 (secondOfDay % 60)], (c != '.') = true := by
    intro c hc
    have hne : c ≠ '.' := by
      rintro rfl
      simp [List.intercalate, not_mem_padDecimal (show '.'.isDigit = false from rfl)] at hc
    simpa using hne
  have hfraction : (fractionText fraction).takeWhile (· != '.') = [] := by
    unfold fractionText
    by_cases hzero : fraction = 0
    · rw [if_pos hzero]
      rfl
    · rw [if_neg hzero]
      rfl
  rw [htext, List.takeWhile_append_of_pos hwhole, hfraction, List.append_nil]

/-- The numbers of a date after Christ and of a clock. -/
def fieldsAt (days : Int) (secondOfDay : ℕ) : ParsedFields :=
  ⟨(civilOfDays days).1, (civilOfDays days).2.1, (civilOfDays days).2.2, (secondOfDay / 3600 : ℕ),
    (secondOfDay / 60 % 60 : ℕ), (secondOfDay % 60 : ℕ)⟩

theorem fieldsAt_dated (hyear : 0 < (civilOfDays days).1) (hdays : days < 10 ^ 9) (secondOfDay : ℕ) :
    (fieldsAt days secondOfDay).Dated := by
  obtain ⟨hnumber, hmonth, hday⟩ := civilOfDays_spec days
  have hlow : dayNumber (civilOfDays days).1 (civilOfDays days).2.1 (civilOfDays days).2.2 < 10 ^ 9 := by omega
  exact ⟨hyear.le, year_lt hmonth hday hlow, hmonth.1, hmonth.2, hday.1, hday.2⟩

theorem fieldsAt_inRange (days : Int) (secondOfDay : ℕ) :
    (fieldsAt days secondOfDay).dateInRange = true := by
  obtain ⟨_, hmonth, hday⟩ := civilOfDays_spec days
  unfold ParsedFields.dateInRange
  rw [Bool.and_eq_true, decide_eq_true_eq, decide_eq_true_eq]
  exact ⟨hmonth, hday⟩

theorem readDateTime_text (hyear : 0 < (civilOfDays days).1) (hdays : days < 10 ^ 9) {secondOfDay : ℕ}
    (hclock : secondOfDay < 86400) (fraction : ℕ) :
    readDateTime (dateText days) ((clockText secondOfDay fraction).takeWhile (· != '.')) =
      some (fieldsAt days secondOfDay) := by
  obtain ⟨hnumber, hmonth, hday⟩ := civilOfDays_spec days
  have hlt := (fieldsAt_dated hyear hdays secondOfDay).year_lt
  replace hlt : (civilOfDays days).1 < 2 ^ 63 := hlt
  have hdate : ∀ part ∈ [padDecimal 4 (civilOfDays days).1.natAbs, padDecimal 2 (civilOfDays days).2.1.natAbs,
      padDecimal 2 (civilOfDays days).2.2.natAbs], '-' ∉ part := by
    intro part hpart
    simp only [List.mem_cons, List.not_mem_nil, or_false] at hpart
    rcases hpart with rfl | rfl | rfl <;> exact not_mem_padDecimal rfl _ _
  have htime : ∀ part ∈ [padDecimal 2 (secondOfDay / 3600), padDecimal 2 (secondOfDay / 60 % 60),
      padDecimal 2 (secondOfDay % 60)], ':' ∉ part := by
    intro part hpart
    simp only [List.mem_cons, List.not_mem_nil, or_false] at hpart
    rcases hpart with rfl | rfl | rfl <;> exact not_mem_padDecimal rfl _ _
  unfold readDateTime
  rw [dateText_dated hyear, clockText_whole, List.splitOn_intercalate _ hdate (by simp),
    List.splitOn_intercalate _ htime (by simp)]
  dsimp only [List.headD]
  rw [parseFields_eq_some]
  unfold fieldsAt
  dsimp only
  rw [parseI64_padDecimal (by omega), parseI64_padDecimal (by omega), parseI64_padDecimal (by omega),
    parseI64_padDecimal (by omega), parseI64_padDecimal (by omega), parseI64_padDecimal (by omega)]
  refine ⟨?_, ?_, ?_, rfl, rfl, rfl⟩
  · congr 1
    omega
  · congr 1
    omega
  · congr 1
    omega

/-- The seconds of a date and a clock, less the offset. -/
theorem unixAtOffset_text (hyear : 0 < (civilOfDays days).1) {secondOfDay : ℕ} (hclock : secondOfDay < 86400)
    (hdays : -10 ^ 9 < days ∧ days < 10 ^ 9) {offset : Int} (hoffset : offset.natAbs < 86400) :
    unixAtOffset (fieldsAt days secondOfDay) offset = .ok (u64FromI64 (days * 86400 + secondOfDay - offset)) := by
  have hdated := fieldsAt_dated hyear hdays.2 secondOfDay
  have hnumber : (fieldsAt days secondOfDay).days = days := (civilOfDays_spec days).1
  have hhour : (fieldsAt days secondOfDay).hour = (secondOfDay / 3600 : ℕ) := rfl
  have hminute : (fieldsAt days secondOfDay).minute = (secondOfDay / 60 % 60 : ℕ) := rfl
  have hsecond : (fieldsAt days secondOfDay).second = (secondOfDay % 60 : ℕ) := rfl
  have htotal : (fieldsAt days secondOfDay).total = days * 86400 + secondOfDay := by
    unfold ParsedFields.total
    omega
  have hfits : (fieldsAt days secondOfDay).Fits := by
    constructor
    all_goals
      unfold InI64
      omega
  unfold unixAtOffset
  rw [hdated.secondsFromCivil_ok.mpr ⟨hfits, htotal⟩, ok_bind, checkI64_of_mem (by omega), ok_bind]

end Parts

section Column

theorem trim_ends {c : Char} {t : Text} (hfirst : isWhiteSpace c = false)
    (hlast : ∀ last ∈ (c :: t).getLast?, isWhiteSpace last = false) : trim (c :: t) = c :: t := by
  rw [trim, List.dropWhile_cons_of_neg (by simp [hfirst]), List.rdropWhile_eq_self_iff]
  intro hne
  have hmem : (c :: t).getLast hne ∈ (c :: t).getLast? := List.getLast?_eq_some_getLast hne
  simp [hlast _ hmem]

theorem isWhiteSpace_of_isDigit {c : Char} (h : c.isDigit = true) : isWhiteSpace c = false := by
  have hrange : 48 ≤ c.toNat ∧ c.toNat ≤ 57 := Digits.head (t := []) (by simpa [Digits] using h)
  simp only [isWhiteSpace, Bool.or_eq_false_iff, Bool.and_eq_false_iff, decide_eq_false_iff_not, beq_eq_false_iff_ne]
  omega

theorem isWhiteSpace_of_isClockChar {c : Char} (h : isClockChar c = true) : isWhiteSpace c = false := by
  unfold isClockChar at h
  rcases Bool.or_eq_true_iff.mp h with h | h
  · rcases Bool.or_eq_true_iff.mp h with h | h
    · exact isWhiteSpace_of_isDigit h
    · rw [beq_iff_eq.mp h]
      rfl
  · rw [beq_iff_eq.mp h]
    rfl

theorem shortOffsetText_last {offset days : Int} :
    ∀ last ∈ (shortOffsetText offset ++ eraText days).getLast?, isWhiteSpace last = false := by
  intro last hlast
  rcases eraText_cases days with ⟨_, hera⟩ | ⟨_, hera⟩
  · rw [hera, List.append_nil] at hlast
    unfold shortOffsetText at hlast
    rcases List.mem_cons.mp (List.mem_of_getLast? hlast) with hsign | hmem
    · rw [hsign]
      by_cases hpos : 0 ≤ offset
      · rw [if_pos hpos]
        rfl
      · rw [if_neg hpos]
        rfl
    · exact isWhiteSpace_of_isClockChar (isClockChar_shortOffsetMagnitude hmem)
  · rw [hera, List.getLast?_append_of_ne_nil _ (by simp)] at hlast
    cases hlast
    rfl

theorem trim_text {offset days : Int} (clock : Text) :
    trim (dateText days ++ ' ' :: (clock ++ (shortOffsetText offset ++ eraText days))) =
      dateText days ++ ' ' :: (clock ++ (shortOffsetText offset ++ eraText days)) := by
  obtain ⟨c, t, hdate, hdigit⟩ : ∃ c t, dateText days = c :: t ∧ c.isDigit = true := by
    unfold dateText
    dsimp only
    generalize (if 0 < (civilOfDays days).1 then (civilOfDays days).1 else 1 - (civilOfDays days).1).natAbs = year
    have hlength := le_padDecimal_length 4 year
    cases hyear : padDecimal 4 year with
    | nil =>
      rw [hyear] at hlength
      exact absurd hlength (by decide)
    | cons c t => exact ⟨c, _, rfl, isDigit_of_mem_padDecimal (hyear ▸ List.mem_cons_self)⟩
  have hne : shortOffsetText offset ++ eraText days ≠ [] := List.cons_ne_nil _ _
  rw [hdate, List.cons_append]
  apply trim_ends (isWhiteSpace_of_isDigit hdigit)
  rw [← List.cons_append, ← List.cons_append, ← List.append_assoc, List.getLast?_append_of_ne_nil _ hne]
  exact shortOffsetText_last

theorem split_mark (days : Int) (rest : Text) : (dateText days ++ ' ' :: rest).dropWhile (!isDateMark ·) = ' ' :: rest ∧
    (dateText days ++ ' ' :: rest).takeWhile (!isDateMark ·) = dateText days := by
  have hbefore : ∀ c ∈ dateText days, (!isDateMark c) = true := by
    intro c hc
    rw [dateText_unmarked _ c hc]
    rfl
  constructor
  · rw [List.dropWhile_append_of_pos hbefore, List.dropWhile_cons_of_neg (by decide)]
  · rw [List.takeWhile_append_of_pos hbefore, List.takeWhile_cons_of_neg (by decide), List.append_nil]

variable {s : Session} {micros : Int}

theorem year_pos_of_nonneg {secs offset : Int} (hsecs : 0 ≤ secs) (hoffset : offset.natAbs < 86400) :
    0 < (civilOfDays ((secs + offset) / 86400)).1 := by
  obtain ⟨hnumber, hmonth, hday⟩ := civilOfDays_spec ((secs + offset) / 86400)
  exact year_pos hmonth hday (by omega)

theorem parseTimestamptzUnix_finite (hbounded : s.Bounded) (hrange : (Timestamptz.finite micros).InRange) :
    parseTimestamptzUnix (s.columnText (.finite micros)) = .ok (s.readableSecond (.finite micros)) := by
  have hoffset := hbounded (secondsOf micros)
  have hsecs : secondsOf micros = micros / 1000000 := rfl
  obtain ⟨hlow, hhigh⟩ : -210866803200000000 ≤ micros ∧ micros < 9224318016000000000 := hrange
  unfold Session.columnText Session.readableSecond
  dsimp only
  generalize s.utcOffset (secondsOf micros) = offset at hoffset
  generalize hhere : secondsOf micros + offset = here
  generalize (micros % 1000000).natAbs = fraction
  have hclock : (here % 86400).natAbs < 86400 := by omega
  have hdays : -10 ^ 9 < here / 86400 ∧ here / 86400 < 10 ^ 9 := by omega
  unfold parseTimestamptzUnix
  rw [trim_text, (split_mark _ _).1, (split_mark _ _).2]
  dsimp only
  rw [splitOffset_text hoffset]
  by_cases hread : 0 < (civilOfDays (here / 86400)).1 ∧ offset % 60 = 0
  · have hvalue : here / 86400 * 86400 + ((here % 86400).natAbs : ℕ) - offset = secondsOf micros := by omega
    rw [if_pos hread]
    dsimp only
    rw [readDateTime_text hread.1 hdays.2 hclock]
    dsimp only
    rw [if_pos (fieldsAt_inRange _ _), unixAtOffset_text hread.1 hclock hdays hoffset, hvalue]
    show Except.ok (u64FromI64 (secondsOf micros)) = _
    unfold u64FromI64
    by_cases hpos : 0 ≤ micros
    · rw [if_pos (show 0 ≤ secondsOf micros by omega), if_pos ⟨hpos, hread.2⟩]
    · rw [if_neg (show ¬ 0 ≤ secondsOf micros by omega), if_neg fun h => hpos h.1]
  · have hnot : ¬ (0 ≤ micros ∧ offset % 60 = 0) := by
      intro h
      have hyear := @year_pos_of_nonneg (secondsOf micros) offset (by omega) hoffset
      rw [hhere] at hyear
      exact hread ⟨hyear, h.2⟩
    rw [if_neg hread, if_neg hnot]

theorem parseTimestamptzUnix_columnText (hbounded : s.Bounded) {v : Timestamptz} (hrange : v.InRange) :
    parseTimestamptzUnix (s.columnText v) = .ok (s.readableSecond v) := by
  cases v with
  | finite micros => exact parseTimestamptzUnix_finite hbounded hrange
  | infinity =>
    have hunread : parseTimestamptzUnix "infinity".toList = .ok none := by decide +kernel
    exact hunread
  | negInfinity =>
    have hunread : parseTimestamptzUnix "-infinity".toList = .ok none := by decide +kernel
    exact hunread

end Column

section Verdict

theorem classifyWatchdog_cases (head applied : ℕ) (age : Option ℕ) (threshold : ℕ) :
    let status := classifyWatchdog ⟨some applied, head, age, threshold⟩
    (status = .noNewPackages ↔ applied = head) ∧ (status = .aheadOfHead ↔ head < applied) ∧
      (status = .catchingUp ↔ applied < head ∧ ∃ secs ∈ age, secs < threshold) ∧
      (status = .stalledCursor ↔ applied < head ∧ ∀ secs ∈ age, threshold ≤ secs) := by
  dsimp only
  unfold classifyWatchdog
  dsimp only
  by_cases hequal : applied = head
  · rw [if_pos hequal]
    refine ⟨iff_of_true rfl hequal, iff_of_false (by decide) ?_, iff_of_false (by decide) ?_,
      iff_of_false (by decide) ?_⟩
    all_goals omega
  · rw [if_neg hequal]
    by_cases hahead : head < applied
    · rw [if_pos hahead]
      refine ⟨iff_of_false (by decide) hequal, iff_of_true rfl hahead, iff_of_false (by decide) ?_,
        iff_of_false (by decide) ?_⟩
      all_goals omega
    · have hbehind : applied < head := by omega
      rw [if_neg hahead]
      cases age with
      | none =>
        dsimp only
        refine ⟨iff_of_false (by decide) hequal, iff_of_false (by decide) hahead, iff_of_false (by decide) ?_,
          iff_of_true rfl ⟨hbehind, by simp⟩⟩
        rintro ⟨_, secs, hsecs, _⟩
        cases hsecs
      | some secs =>
        dsimp only
        by_cases hrecent : secs < threshold
        · rw [if_pos hrecent]
          refine ⟨iff_of_false (by decide) hequal, iff_of_false (by decide) hahead,
            iff_of_true rfl ⟨hbehind, secs, rfl, hrecent⟩, iff_of_false (by decide) ?_⟩
          intro h
          have hlate := h.2 secs rfl
          omega
        · rw [if_neg hrecent]
          refine ⟨iff_of_false (by decide) hequal, iff_of_false (by decide) hahead, iff_of_false (by decide) ?_,
            iff_of_true rfl ⟨hbehind, ?_⟩⟩
          · rintro ⟨_, other, hother, hless⟩
            cases hother
            exact hrecent hless
          · intro other hother
            cases hother
            exact not_lt.mp hrecent

end Verdict

/-- Whatever the time zone, the text of every time is read without a panic, and the watchdog
alerts exactly for a cursor ahead of the verified head and for one behind it that is not
known to have advanced within the stall window. -/
theorem watchdog_alerts (s : Session) (hbounded : s.Bounded) (v : Timestamptz) (hrange : v.InRange)
    (head applied nowUnix threshold : ℕ) :
    ∃ status, watchdogCorpus head (some applied) (some (s.columnText v)) nowUnix threshold = .ok status ∧
      (status.isAlert = true ↔ head < applied ∨
        applied < head ∧ ∀ secs ∈ s.readableSecond v, threshold ≤ nowUnix - secs) ∧
      (status = .catchingUp ↔ applied < head ∧ ∃ secs ∈ s.readableSecond v, nowUnix - secs < threshold) ∧
      (status = .noNewPackages ↔ applied = head) := by
  obtain ⟨hequal, hahead, hcatching, hstalled⟩ :=
    classifyWatchdog_cases head applied ((s.readableSecond v).map (nowUnix - ·)) threshold
  have halert : ∀ status : WatchdogStatus, status.isAlert = true ↔ status = .aheadOfHead ∨ status = .stalledCursor := by
    intro status
    cases status <;> decide
  refine ⟨classifyWatchdog ⟨some applied, head, (s.readableSecond v).map (nowUnix - ·), threshold⟩, ?_, ?_, ?_, hequal⟩
  · unfold watchdogCorpus
    rw [Option.map_some, parseTimestamptzUnix_columnText hbounded hrange]
  · rw [halert, hahead, hstalled]
    simp
  · rw [hcatching]
    simp

/-- A cursor that advanced on the first of January 2026, seen from Newfoundland. -/
theorem watchdog_alerts_newfoundland : ∃ status, watchdogCorpus 7 (some 5)
    (some ((Session.mk fun _ => -12600).columnText (.finite 1767225600250000))) 1767300000 172800 = .ok status ∧
      status = .catchingUp := by
  have hbounded : (Session.mk fun _ => -12600).Bounded := fun _ => show Int.natAbs (-12600) < 86400 by decide
  obtain ⟨status, hok, _, hcatching, _⟩ := watchdog_alerts ⟨fun _ => -12600⟩ hbounded (.finite 1767225600250000)
    ⟨by decide, by decide⟩ 7 5 1767300000 172800
  exact ⟨status, hok, hcatching.mpr ⟨by decide, 1767225600, by decide, by decide⟩⟩

end CorpusFeed
