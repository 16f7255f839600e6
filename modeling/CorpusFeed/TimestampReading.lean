import CorpusFeed.SeparatedText
import CorpusFeed.UnixTimestamps

/-! What the parsers of timestamps read: the numbers of an encoding, and dates
whose numbers keep the arithmetic small. -/

namespace CorpusFeed

theorem parseI64_digits {t : Text} {n : Nat} (h : readDecimal t = some n) (hn : n < 2 ^ 63) : parseI64 t = some (n : Int) := by
  have hdigits := (readDecimal_eq_some.mp h).2.1
  have hvalue : (some (n : Int)).filter (fun n => decide (InI64 n)) = some (n : Int) := by
    have hin : InI64 n := ⟨by omega, by exact_mod_cast hn⟩
    simp [hin]
  unfold parseI64
  split
  · next digits =>
    have hminus := hdigits '-' (by simp)
    exact absurd hminus (by decide)
  · next digits =>
    have hplus := hdigits '+' (by simp)
    exact absurd hplus (by decide)
  · rw [h]
    exact hvalue

theorem parseI64_padDecimal {width n : Nat} (hn : n < 2 ^ 63) : parseI64 (padDecimal width n) = some (n : Int) :=
  parseI64_digits (readDecimal_padDecimal width n) hn

theorem lt_of_parseI64_padDecimal {width n : Nat} {m : Int} (h : parseI64 (padDecimal width n) = some m) : n < 2 ^ 63 := by
  unfold parseI64 at h
  obtain ⟨hvalue, hin⟩ := Option.filter_eq_some_iff.mp h
  have hlt := (of_decide_eq_true hin).2
  have hdigits := digits_padDecimal width n
  split at hvalue
  · next digits heq =>
    have hminus := hdigits '-' (by simp [heq])
    exact absurd hminus (by decide)
  · next digits heq =>
    have hplus := hdigits '+' (by simp [heq])
    exact absurd hplus (by decide)
  · rw [readDecimal_padDecimal, Option.map_some, Option.some.injEq] at hvalue
    have hm : m = (n : Int) := hvalue.symm
    omega

theorem parseI64_mem {t : Text} {n : Int} (h : parseI64 t = some n) : InI64 n := by
  unfold parseI64 at h
  dsimp only at h
  exact of_decide_eq_true (Option.filter_eq_some_iff.mp h).2

theorem parseI64_nonneg {t : Text} {n : Int} (hminus : '-' ∉ t) (h : parseI64 t = some n) : 0 ≤ n := by
  unfold parseI64 at h
  obtain ⟨hvalue, _⟩ := Option.filter_eq_some_iff.mp h
  split at hvalue
  · exact absurd (List.mem_cons_self) hminus
  · obtain ⟨m, _, rfl⟩ := Option.map_eq_some_iff.mp hvalue
    exact Int.natCast_nonneg m
  · obtain ⟨m, _, rfl⟩ := Option.map_eq_some_iff.mp hvalue
    exact Int.natCast_nonneg m

theorem parseFields_eq_some {year month day hour minute second : Text} {fields : ParsedFields} :
    parseFields year month day hour minute second = some fields ↔
      parseI64 year = some fields.year ∧ parseI64 month = some fields.month ∧ parseI64 day = some fields.day ∧
        parseI64 hour = some fields.hour ∧ parseI64 minute = some fields.minute ∧
        parseI64 second = some fields.second := by
  unfold parseFields
  simp only [Option.bind_eq_bind, Option.bind_eq_some_iff, Option.some.injEq]
  constructor
  · rintro ⟨y, hy, m, hm, d, hd, h, hh, i, hi, s, hs, rfl⟩
    exact ⟨hy, hm, hd, hh, hi, hs⟩
  · rintro ⟨hy, hm, hd, hh, hi, hs⟩
    exact ⟨_, hy, _, hm, _, hd, _, hh, _, hi, _, hs, rfl⟩

theorem not_mem_of_mem_splitOn {c : Char} {t part : Text} (h : part ∈ t.splitOn c) : c ∉ part := by
  intro hc
  have hfree := dark_of_mem_splitOnP (show part ∈ t.splitOnP (· == c) from h) c hc
  simp at hfree

theorem dated_of_inRange {fields : ParsedFields} (hyear : 0 ≤ fields.year) (hlt : InI64 fields.year)
    (h : fields.dateInRange = true) : fields.Dated := by
  simp only [ParsedFields.dateInRange, Bool.and_eq_true, decide_eq_true_eq] at h
  exact ⟨hyear, hlt.2, h.1.1, h.1.2, h.2.1, h.2.2⟩

theorem readRfc3339_dated {ts : Text} {fields : ParsedFields} (h : readRfc3339 ts = some fields) : fields.Dated := by
  unfold readRfc3339 at h
  split at h
  · cases h
  next date rest =>
  split at h
  · cases h
  next time =>
  split at h
  next year month day hour minute second hdate htime =>
    obtain ⟨hparse, hrange⟩ := Option.filter_eq_some_iff.mp h
    have hyear := (parseFields_eq_some.mp hparse).1
    have hminus : '-' ∉ year := not_mem_of_mem_splitOn (by rw [hdate]; simp)
    exact dated_of_inRange (parseI64_nonneg hminus hyear) (parseI64_mem hyear) hrange
  · cases h

namespace Instant

structure Valid (instant : Instant) : Prop where
  date : instant.date.Valid
  hour : instant.hour ≤ 23
  minute : instant.minute ≤ 59
  second : instant.second ≤ 59

def fields (instant : Instant) : ParsedFields :=
  ⟨instant.date.year, instant.date.month, instant.date.day, instant.hour, instant.minute, instant.second⟩

def seconds (instant : Instant) : Int :=
  instant.date.number * 86400 + instant.hour * 3600 + instant.minute * 60 + instant.second

variable {instant other : Instant}

theorem Valid.dated (h : instant.Valid) (hyear : instant.date.year < 2 ^ 63) : instant.fields.Dated := by
  have hday := h.date.day_le
  have hlength : monthLength instant.date.year instant.date.month ≤ 31 := by
    unfold monthLength
    split_ifs <;> omega
  refine ⟨Int.natCast_nonneg _, ?_, ?_, ?_, ?_, ?_⟩
  · show (instant.date.year : Int) < 2 ^ 63
    exact_mod_cast hyear
  · show (1 : Int) ≤ instant.date.month
    exact_mod_cast h.date.month_pos
  · show (instant.date.month : Int) ≤ 12
    exact_mod_cast h.date.month_le
  · show (1 : Int) ≤ instant.date.day
    exact_mod_cast h.date.day_pos
  · show (instant.date.day : Int) ≤ 31
    exact_mod_cast hday.trans hlength

theorem Valid.inRange (h : instant.Valid) (hyear : instant.date.year < 2 ^ 63) :
    instant.fields.dateInRange = true ∧ instant.fields.timeInRange = true := by
  obtain ⟨_, _, hmonth, hmonth', hday, hday'⟩ := h.dated hyear
  have hhour := h.hour
  have hminute := h.minute
  have hsecond := h.second
  simp only [ParsedFields.dateInRange, ParsedFields.timeInRange, Bool.and_eq_true, decide_eq_true_eq]
  refine ⟨⟨⟨hmonth, hmonth'⟩, hday, hday'⟩, ⟨?_, ?_⟩, ?_⟩
  · show (instant.hour : Int) ≤ 23
    exact_mod_cast hhour
  · show (instant.minute : Int) ≤ 59
    exact_mod_cast hminute
  · show (instant.second : Int) ≤ 59
    exact_mod_cast hsecond

theorem Valid.parsed (h : instant.Valid) (hyear : instant.date.year < 2 ^ 63) :
    parseFields (padDecimal 4 instant.date.year) (padDecimal 2 instant.date.month) (padDecimal 2 instant.date.day)
      (padDecimal 2 instant.hour) (padDecimal 2 instant.minute) (padDecimal 2 instant.second) = some instant.fields := by
  have hday := (h.dated hyear).day_le
  have hmonth' : instant.date.month ≤ 12 := h.date.month_le
  have hday' : instant.date.day ≤ 31 := Int.ofNat_le.mp hday
  have hhour := h.hour
  have hminute := h.minute
  have hsecond := h.second
  rw [parseFields_eq_some]
  exact ⟨parseI64_padDecimal hyear, parseI64_padDecimal (by omega), parseI64_padDecimal (by omega),
    parseI64_padDecimal (by omega), parseI64_padDecimal (by omega), parseI64_padDecimal (by omega)⟩

theorem Valid.of_seconds (h : instant.Valid) {unixSecs : Nat} (hseconds : instant.seconds = unixSecs) :
    instantOfUnix unixSecs = instant := by
  have hhour := h.hour
  have hminute := h.minute
  have hsecond := h.second
  unfold seconds at hseconds
  have hdays : instant.date.number = (unixSecs / 86400 : Nat) := by omega
  have hdate := civilFromDays_of_number h.date hdays
  have hclock : unixSecs % 86400 = instant.hour * 3600 + instant.minute * 60 + instant.second := by omega
  obtain ⟨date, hour, minute, second⟩ := instant
  simp only [instantOfUnix, Instant.mk.injEq]
  dsimp only at hclock hdate hhour hminute hsecond
  refine ⟨hdate, ?_, ?_, ?_⟩
  · omega
  · omega
  · omega

end Instant

theorem instantOfUnix_valid (unixSecs : Nat) : (instantOfUnix unixSecs).Valid := by
  refine ⟨civilFromDays_valid _, ?_, ?_, ?_⟩
  · simp only [instantOfUnix]
    omega
  · simp only [instantOfUnix]
    omega
  · simp only [instantOfUnix]
    omega

theorem instantOfUnix_seconds (unixSecs : Nat) : (instantOfUnix unixSecs).seconds = unixSecs := by
  have hdays : (instantOfUnix unixSecs).date.number = (unixSecs / 86400 : Nat) := civilFromDays_number _
  unfold Instant.seconds
  rw [hdays]
  simp only [instantOfUnix]
  omega

theorem splitOnce_append {separator : Char} {before rest : Text} (h : separator ∉ before) :
    splitOnce separator (before ++ separator :: rest) = some (before, rest) := by
  have hall : ∀ c ∈ before, (c != separator) = true := by
    intro c hc
    have hne : c ≠ separator := fun heq => h (heq ▸ hc)
    simpa using hne
  unfold splitOnce
  rw [List.dropWhile_append_of_pos hall, List.takeWhile_append_of_pos hall]
  simp

theorem stripSuffix_snoc (last : Char) (t : Text) : stripSuffix last (t ++ [last]) = some t := by
  simp [stripSuffix]

theorem not_mem_padDecimal {c : Char} (hc : c.isDigit = false) (width n : Nat) : c ∉ padDecimal width n := by
  intro hmem
  have hdigit := isDigit_of_mem_padDecimal hmem
  rw [hc] at hdigit
  cases hdigit

theorem readRfc3339_parts (instant : Instant) :
    readRfc3339 instant.rfc3339 =
      (parseFields (padDecimal 4 instant.date.year) (padDecimal 2 instant.date.month) (padDecimal 2 instant.date.day)
        (padDecimal 2 instant.hour) (padDecimal 2 instant.minute) (padDecimal 2 instant.second)).filter
          (·.dateInRange) := by
  have hdate : ∀ part ∈ [padDecimal 4 instant.date.year, padDecimal 2 instant.date.month,
      padDecimal 2 instant.date.day], '-' ∉ part := by
    intro part hpart
    simp only [List.mem_cons, List.not_mem_nil, or_false] at hpart
    rcases hpart with rfl | rfl | rfl <;> exact not_mem_padDecimal rfl _ _
  have htime : ∀ part ∈ [padDecimal 2 instant.hour, padDecimal 2 instant.minute,
      padDecimal 2 instant.second], ':' ∉ part := by
    intro part hpart
    simp only [List.mem_cons, List.not_mem_nil, or_false] at hpart
    rcases hpart with rfl | rfl | rfl <;> exact not_mem_padDecimal rfl _ _
  have htext : instant.rfc3339 =
      List.intercalate ['-'] [padDecimal 4 instant.date.year, padDecimal 2 instant.date.month,
        padDecimal 2 instant.date.day] ++ 'T' ::
      (List.intercalate [':'] [padDecimal 2 instant.hour, padDecimal 2 instant.minute,
        padDecimal 2 instant.second] ++ ['Z']) := by
    simp [Instant.rfc3339, List.intercalate]
  have hmarker : 'T' ∉ List.intercalate ['-'] [padDecimal 4 instant.date.year, padDecimal 2 instant.date.month,
      padDecimal 2 instant.date.day] := by
    simp [List.intercalate, not_mem_padDecimal (show 'T'.isDigit = false from rfl)]
  unfold readRfc3339
  rw [htext, splitOnce_append hmarker]
  dsimp only
  rw [stripSuffix_snoc]
  dsimp only
  rw [List.splitOn_intercalate _ hdate (by simp), List.splitOn_intercalate _ htime (by simp)]

theorem readRfc3339_rfc3339 {instant : Instant} (h : instant.Valid) (hyear : instant.date.year < 2 ^ 63) :
    readRfc3339 instant.rfc3339 = some instant.fields := by
  rw [readRfc3339_parts, h.parsed hyear, Option.filter_some, if_pos (h.inRange hyear).1]

theorem year_lt_of_readRfc3339 {instant : Instant} {fields : ParsedFields}
    (h : readRfc3339 instant.rfc3339 = some fields) : instant.date.year < 2 ^ 63 := by
  rw [readRfc3339_parts] at h
  obtain ⟨hparsed, _⟩ := Option.filter_eq_some_iff.mp h
  exact lt_of_parseI64_padDecimal (parseFields_eq_some.mp hparsed).1

end CorpusFeed
