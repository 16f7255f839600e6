import CorpusFeed.TimestampOrder

/-! Which texts the parsers of timestamps accept beside the encodings, and
where their arithmetic overflows. -/

namespace CorpusFeed

theorem unixFromFields_ok {read : Option ParsedFields} {unixSecs : Nat} :
    unixFromFields read = .ok (some unixSecs) ↔
      ∃ fields, read = some fields ∧ secondsFromCivil fields = .ok (unixSecs : Int) := by
  cases read with
  | none => simp [unixFromFields]
  | some fields =>
    simp only [unixFromFields, Option.some.injEq, exists_eq_left']
    cases secondsFromCivil fields with
    | error e => simp [Except.map]
    | ok secs =>
      simp only [Except.map, Except.ok.injEq, u64FromI64]
      by_cases hpos : 0 ≤ secs
      · rw [if_pos hpos, Option.some.injEq]
        omega
      · rw [if_neg hpos]
        constructor
        · intro hnone
          cases hnone
        · intro hsecs
          omega

theorem unixFromFields_overflow {read : Option ParsedFields} (h : ∀ fields, read = some fields → fields.Dated) :
    unixFromFields read ≠ .error .overflow ↔ ∀ fields, read = some fields → fields.Fits := by
  cases read with
  | none => simp [unixFromFields]
  | some fields =>
    have hdated := h fields rfl
    have hoverflow := hdated.secondsFromCivil_overflow
    simp only [unixFromFields, Option.some.injEq, forall_eq', ne_eq]
    cases hsecs : secondsFromCivil fields with
    | error e =>
      rw [hsecs] at hoverflow
      simp only [Except.map] at hoverflow ⊢
      rw [hoverflow, not_not]
    | ok secs =>
      have hfits := (hdated.secondsFromCivil_ok.mp hsecs).1
      simp [Except.map, hfits]

/-- Four digits of the year and two of each other number keep far below the
limits of `i64`. -/
theorem ParsedFields.Dated.fits {fields : ParsedFields} (h : fields.Dated) (hyear : fields.year < 10000)
    (hhour : 0 ≤ fields.hour ∧ fields.hour ≤ 23) (hminute : 0 ≤ fields.minute ∧ fields.minute ≤ 59)
    (hsecond : 0 ≤ fields.second ∧ fields.second ≤ 59) : fields.Fits := by
  obtain ⟨hpos, _, hmonth, hmonth', hday, hday'⟩ := h
  have hdays : -1000000 ≤ fields.days ∧ fields.days ≤ 4000000 := by
    unfold ParsedFields.days
    by_cases hearly : fields.month ≤ 2
    · rw [dayNumber_late hearly]
      omega
    · rw [dayNumber_early (by omega)]
      omega
  refine ⟨?_, ?_, ?_, ?_, ?_, ?_⟩
  · unfold InI64
    omega
  · unfold InI64
    omega
  · unfold InI64
    omega
  · unfold InI64
    omega
  · unfold InI64
    omega
  · unfold InI64 ParsedFields.total
    omega

theorem Instant.Valid.fits {instant : Instant} (h : instant.Valid) (hyear : instant.date.year ≤ 9999) :
    instant.fields.Fits := by
  have hhour := h.hour
  have hminute := h.minute
  have hsecond := h.second
  apply (h.dated (by omega)).fits
  · show (instant.date.year : Int) < 10000
    omega
  · show 0 ≤ (instant.hour : Int) ∧ (instant.hour : Int) ≤ 23
    omega
  · show 0 ≤ (instant.minute : Int) ∧ (instant.minute : Int) ≤ 59
    omega
  · show 0 ≤ (instant.second : Int) ∧ (instant.second : Int) ≤ 59
    omega

/-- The seconds of an instant come back from the numbers of its encoding. -/
theorem unixFromFields_instant {unixSecs : Nat} (hyear : (instantOfUnix unixSecs).date.year ≤ 9999) :
    unixFromFields (some (instantOfUnix unixSecs).fields) = .ok (some unixSecs) := by
  have hvalid := instantOfUnix_valid unixSecs
  rw [unixFromFields_ok]
  refine ⟨_, rfl, ?_⟩
  rw [(hvalid.dated (by omega)).secondsFromCivil_ok]
  exact ⟨hvalid.fits hyear, instantOfUnix_seconds unixSecs⟩

theorem unixFromRfc3339_rfc3339FromUnix {unixSecs : Nat} (hyear : (instantOfUnix unixSecs).date.year ≤ 9999) :
    unixFromRfc3339 (rfc3339FromUnix unixSecs) = .ok (some unixSecs) := by
  unfold unixFromRfc3339 rfc3339FromUnix
  rw [readRfc3339_rfc3339 (instantOfUnix_valid unixSecs) (by omega)]
  exact unixFromFields_instant hyear

/-- The shape of the encoding: the digits of a calendar day and of a time of
day, padded and without signs. -/
def Rfc3339Shape (text : Text) : Prop :=
  ∃ year month day hour minute second : Text,
    text = year ++ '-' :: (month ++ '-' :: (day ++ 'T' :: (hour ++ ':' :: (minute ++ ':' :: (second ++ ['Z']))))) ∧
      (∀ part ∈ [year, month, day, hour, minute, second], Digits part) ∧
      Padded 4 year ∧ (∀ part ∈ [month, day, hour, minute, second], part.length = 2) ∧
      (CivilDate.mk (decimalValue year) (decimalValue month) (decimalValue day)).Valid ∧
      decimalValue hour ≤ 23 ∧ decimalValue minute ≤ 59 ∧ decimalValue second ≤ 59

theorem padDecimal_of_length {width : Nat} {part : Text} (hwidth : 0 < width) (hdigits : Digits part)
    (h : part.length = width) : padDecimal width (decimalValue part) = part := by
  have hpadded : Padded width part := ⟨h.ge, fun hlt => by omega⟩
  exact ((eq_padDecimal_iff hwidth hdigits).mpr hpadded).symm

theorem rfc3339Shape_iff (text : Text) : Rfc3339Shape text ↔ ∃ instant : Instant, instant.Valid ∧ text = instant.rfc3339 := by
  constructor
  · rintro ⟨year, month, day, hour, minute, second, htext, hdigits, hpadded, hlength, hdate, hhour, hminute, hsecond⟩
    simp only [List.mem_cons, List.not_mem_nil, or_false, forall_eq_or_imp, forall_eq] at hdigits hlength
    obtain ⟨hy, hm, hd, hh, hi, hs⟩ := hdigits
    obtain ⟨lm, ld, lh, li, ls⟩ := hlength
    refine ⟨⟨⟨decimalValue year, decimalValue month, decimalValue day⟩, decimalValue hour, decimalValue minute,
      decimalValue second⟩, ⟨hdate, hhour, hminute, hsecond⟩, ?_⟩
    unfold Instant.rfc3339
    dsimp only
    rw [← (eq_padDecimal_iff (by decide) hy).mpr hpadded, padDecimal_of_length (by decide) hm lm,
      padDecimal_of_length (by decide) hd ld, padDecimal_of_length (by decide) hh lh,
      padDecimal_of_length (by decide) hi li, padDecimal_of_length (by decide) hs ls]
    exact htext
  · rintro ⟨instant, hvalid, htext⟩
    have hmonth := hvalid.date.month_le
    have hday : instant.date.day ≤ 31 := by
      have hlength := hvalid.date.day_le
      have hmost : monthLength instant.date.year instant.date.month ≤ 31 := by
        unfold monthLength
        split_ifs <;> omega
      omega
    have hhour := hvalid.hour
    have hminute := hvalid.minute
    have hsecond := hvalid.second
    refine ⟨_, _, _, _, _, _, htext, ?_, ?_, ?_, ?_, ?_, ?_, ?_⟩
    · simp [digits_padDecimal]
    · rw [← eq_padDecimal_iff (by decide) (digits_padDecimal _ _), decimalValue_padDecimal]
    · simp only [List.mem_cons, List.not_mem_nil, or_false, forall_eq_or_imp, forall_eq]
      refine ⟨?_, ?_, ?_, ?_, ?_⟩ <;> exact length_padDecimal (by decide) (by omega)
    · simpa only [decimalValue_padDecimal] using hvalid.date
    · simpa only [decimalValue_padDecimal] using hhour
    · simpa only [decimalValue_padDecimal] using hminute
    · simpa only [decimalValue_padDecimal] using hsecond

/-- An accepted text is the encoding of its seconds where it has the shape. -/
theorem rfc3339FromUnix_eq_iff {text : Text} {unixSecs : Nat} (h : unixFromRfc3339 text = .ok (some unixSecs)) :
    rfc3339FromUnix unixSecs = text ↔ Rfc3339Shape text := by
  rw [rfc3339Shape_iff]
  constructor
  · intro htext
    exact ⟨instantOfUnix unixSecs, instantOfUnix_valid unixSecs, htext.symm⟩
  · rintro ⟨instant, hvalid, rfl⟩
    obtain ⟨fields, hread, hsecs⟩ := unixFromFields_ok.mp h
    have hyear := year_lt_of_readRfc3339 hread
    rw [readRfc3339_rfc3339 hvalid hyear, Option.some.injEq] at hread
    rw [← hread, (hvalid.dated hyear).secondsFromCivil_ok] at hsecs
    unfold rfc3339FromUnix
    rw [hvalid.of_seconds hsecs.2]

/-- The numbers that fourteen digits spell. -/
def compactInstant (compact : Text) : Instant :=
  ⟨⟨decimalValue (compact.take 4), decimalValue ((compact.drop 4).take 2), decimalValue ((compact.drop 6).take 2)⟩,
    decimalValue ((compact.drop 8).take 2), decimalValue ((compact.drop 10).take 2),
    decimalValue ((compact.drop 12).take 2)⟩

theorem readCompact_eq_some {compact : Text} {fields : ParsedFields} :
    readCompact compact = some fields ↔
      (compact.length = 14 ∧ Digits compact) ∧
        (compactInstant compact).fields = fields ∧ fields.dateInRange = true ∧ fields.timeInRange = true := by
  unfold readCompact
  by_cases hshape : compact.length = 14 ∧ Digits compact
  · obtain ⟨hlength, hdigits⟩ := hshape
    have hall : compact.all Char.isDigit = true := List.all_eq_true.mpr hdigits
    have hpart : ∀ part : Text, part ⊆ compact → part ≠ [] → part.length ≤ 4 →
        parseI64 part = some (decimalValue part : Int) := by
      intro part hsub hne hshort
      have hpartDigits : Digits part := fun c hc => hdigits c (hsub hc)
      have hvalue := decimalValue_lt hpartDigits
      have hbound : 10 ^ part.length ≤ 10 ^ 4 := Nat.pow_le_pow_right (by omega) hshort
      exact parseI64_digits (readDecimal_eq_some.mpr ⟨hne, hpartDigits, rfl⟩) (by omega)
    have hslice : ∀ start, start + 2 ≤ 14 →
        parseI64 ((compact.drop start).take 2) = some (decimalValue ((compact.drop start).take 2) : Int) := by
      intro start hstart
      have hlen : ((compact.drop start).take 2).length = 2 := by
        rw [List.length_take, List.length_drop]
        omega
      apply hpart _ (fun c hc => List.mem_of_mem_drop (List.mem_of_mem_take hc))
      · intro hnil
        simp [hnil] at hlen
      · omega
    have hyear : parseI64 (compact.take 4) = some (decimalValue (compact.take 4) : Int) := by
      have hlen : (compact.take 4).length = 4 := by
        rw [List.length_take]
        omega
      apply hpart _ (fun c hc => List.mem_of_mem_take hc)
      · intro hnil
        simp [hnil] at hlen
      · omega
    have hparsed : parseFields (compact.take 4) ((compact.drop 4).take 2) ((compact.drop 6).take 2)
        ((compact.drop 8).take 2) ((compact.drop 10).take 2) ((compact.drop 12).take 2) =
          some (compactInstant compact).fields := by
      rw [parseFields_eq_some]
      exact ⟨hyear, hslice 4 (by omega), hslice 6 (by omega), hslice 8 (by omega), hslice 10 (by omega),
        hslice 12 (by omega)⟩
    rw [if_neg (by simp [hlength, hall]), hparsed, Option.filter_eq_some_iff, Option.some.injEq, Bool.and_eq_true]
    constructor
    · rintro ⟨rfl, hrange⟩
      exact ⟨⟨hlength, hdigits⟩, rfl, hrange⟩
    · rintro ⟨_, rfl, hrange⟩
      exact ⟨rfl, hrange⟩
  · have hbad : compact.length ≠ 14 ∨ (!compact.all Char.isDigit) = true := by
      by_cases hlength : compact.length = 14
      · refine Or.inr ?_
        rw [Bool.not_eq_true', ← Bool.not_eq_true, List.all_eq_true]
        exact fun hdigits => hshape ⟨hlength, hdigits⟩
      · exact Or.inl hlength
    rw [if_pos hbad]
    simp [hshape]

theorem readCompact_dated {compact : Text} {fields : ParsedFields} (h : readCompact compact = some fields) :
    fields.Dated ∧ fields.Fits := by
  obtain ⟨⟨hlength, hdigits⟩, rfl, hdate, htime⟩ := readCompact_eq_some.mp h
  have hyear : decimalValue (compact.take 4) < 10 ^ 4 := by
    have hvalue := decimalValue_lt (fun c hc => hdigits c (List.mem_of_mem_take hc) : Digits (compact.take 4))
    have hlen : (compact.take 4).length = 4 := by
      rw [List.length_take]
      omega
    rwa [hlen] at hvalue
  have hyear' : (compactInstant compact).fields.year < 10000 := by
    show (decimalValue (compact.take 4) : Int) < 10000
    omega
  have hdated : (compactInstant compact).fields.Dated := by
    apply dated_of_inRange (Int.natCast_nonneg _) _ hdate
    have hpos : 0 ≤ (compactInstant compact).fields.year := Int.natCast_nonneg _
    unfold InI64
    omega
  simp only [ParsedFields.timeInRange, Bool.and_eq_true, decide_eq_true_eq] at htime
  refine ⟨hdated, hdated.fits hyear' ⟨Int.natCast_nonneg _, htime.1.1⟩ ⟨Int.natCast_nonneg _, htime.1.2⟩
    ⟨Int.natCast_nonneg _, htime.2⟩⟩

/-- Fourteen digits are the compact text of their numbers. -/
theorem compactInstant_compact {compact : Text} (hlength : compact.length = 14) (hdigits : Digits compact) :
    (compactInstant compact).compact = compact := by
  have hyear : padDecimal 4 (decimalValue (compact.take 4)) = compact.take 4 := by
    apply padDecimal_of_length (by decide) (fun c hc => hdigits c (List.mem_of_mem_take hc))
    rw [List.length_take]
    omega
  have hslice : ∀ start, start + 2 ≤ 14 →
      padDecimal 2 (decimalValue ((compact.drop start).take 2)) = (compact.drop start).take 2 := by
    intro start hstart
    apply padDecimal_of_length (by decide)
      (fun c hc => hdigits c (List.mem_of_mem_drop (List.mem_of_mem_take hc)))
    rw [List.length_take, List.length_drop]
    omega
  have hstep : ∀ start, (compact.drop start).take 2 ++ compact.drop (start + 2) = compact.drop start := by
    intro start
    rw [← List.drop_drop, List.take_append_drop]
  have hend : (compact.drop 12).take 2 = compact.drop 12 := by
    apply List.take_of_length_le
    rw [List.length_drop]
    omega
  unfold Instant.compact compactInstant
  dsimp only
  rw [hyear, hslice 4 (by omega), hslice 6 (by omega), hslice 8 (by omega), hslice 10 (by omega), hslice 12 (by omega),
    hend, hstep 10, hstep 8, hstep 6, hstep 4, List.take_append_drop]

theorem digits_compact (instant : Instant) : Digits instant.compact := by
  intro c hc
  simp only [Instant.compact, List.mem_append] at hc
  rcases hc with hc | hc | hc | hc | hc | hc <;> exact isDigit_of_mem_padDecimal hc

theorem Instant.Narrow.length_compact {instant : Instant} (h : instant.Narrow) : instant.compact.length = 14 := by
  simp only [Instant.compact, List.length_append]
  rw [length_padDecimal (by decide) h.year, length_padDecimal (by decide) h.month, length_padDecimal (by decide) h.day,
    length_padDecimal (by decide) h.hour, length_padDecimal (by decide) h.minute,
    length_padDecimal (by decide) h.second]

theorem year_le_of_length_compact {instant : Instant} (h : instant.compact.length = 14) : instant.date.year ≤ 9999 := by
  have hmonth := le_padDecimal_length 2 instant.date.month
  have hday := le_padDecimal_length 2 instant.date.day
  have hhour := le_padDecimal_length 2 instant.hour
  have hminute := le_padDecimal_length 2 instant.minute
  have hsecond := le_padDecimal_length 2 instant.second
  simp only [Instant.compact, List.length_append] at h
  have hyear := decimalValue_lt (digits_padDecimal 4 instant.date.year)
  have hbound : 10 ^ (padDecimal 4 instant.date.year).length ≤ 10 ^ 4 := Nat.pow_le_pow_right (by omega) (by omega)
  rw [decimalValue_padDecimal] at hyear
  omega

theorem compactInstant_narrow {compact : Text} (hdigits : Digits compact) : (compactInstant compact).Narrow := by
  have hslice : ∀ start, decimalValue ((compact.drop start).take 2) < 10 ^ 2 := by
    intro start
    have hvalue := decimalValue_lt (fun c hc => hdigits c (List.mem_of_mem_drop (List.mem_of_mem_take hc)) :
      Digits ((compact.drop start).take 2))
    exact hvalue.trans_le (Nat.pow_le_pow_right (by omega) (List.length_take_le _ _))
  have hyear := decimalValue_lt (fun c hc => hdigits c (List.mem_of_mem_take hc) : Digits (compact.take 4))
  refine ⟨hyear.trans_le (Nat.pow_le_pow_right (by omega) (List.length_take_le _ _)), ?_, ?_, ?_, ?_, ?_⟩
  · exact hslice 4
  · exact hslice 6
  · exact hslice 8
  · exact hslice 10
  · exact hslice 12

theorem Instant.Narrow.compact_inj {instant other : Instant} (h : instant.Narrow) (h' : other.Narrow)
    (heq : instant.compact = other.compact) : instant = other := by
  have hbefore : ¬ instant.Before other := by
    rw [← h.compact_lt h', heq]
    exact lt_irrefl _
  have hafter : ¬ other.Before instant := by
    rw [← h'.compact_lt h, heq]
    exact lt_irrefl _
  obtain ⟨⟨year, month, day⟩, hour, minute, second⟩ := instant
  obtain ⟨⟨year', month', day'⟩, hour', minute', second'⟩ := other
  simp only [Instant.Before, CivilDate.Before, CivilDate.mk.injEq, Instant.mk.injEq] at hbefore hafter ⊢
  omega

theorem compactInstant_of_compact {instant : Instant} (h : instant.Valid) (hlength : instant.compact.length = 14) :
    compactInstant instant.compact = instant := by
  have hdigits := digits_compact instant
  have hnarrow := h.narrow (year_le_of_length_compact hlength)
  exact (compactInstant_narrow hdigits).compact_inj hnarrow (compactInstant_compact hlength hdigits)

theorem unixFromCompact_compactFromUnix {unixSecs : Nat} (hyear : (instantOfUnix unixSecs).date.year ≤ 9999) :
    unixFromCompactArchiveTimestamp (compactFromUnix unixSecs) = .ok (some unixSecs) := by
  have hvalid := instantOfUnix_valid unixSecs
  have hlength := (hvalid.narrow hyear).length_compact
  have hread : readCompact (compactFromUnix unixSecs) = some (instantOfUnix unixSecs).fields := by
    unfold compactFromUnix
    rw [readCompact_eq_some, compactInstant_of_compact hvalid hlength]
    exact ⟨⟨hlength, digits_compact _⟩, rfl, hvalid.inRange (by omega)⟩
  unfold unixFromCompactArchiveTimestamp
  rw [hread]
  exact unixFromFields_instant hyear

/-- An accepted compact text is the encoding of its seconds where its month
has the day. -/
theorem compactFromUnix_eq_iff {text : Text} {unixSecs : Nat}
    (h : unixFromCompactArchiveTimestamp text = .ok (some unixSecs)) :
    compactFromUnix unixSecs = text ↔
      (compactInstant text).date.day ≤
        monthLength (compactInstant text).date.year (compactInstant text).date.month := by
  obtain ⟨fields, hread, hsecs⟩ := unixFromFields_ok.mp h
  have hdated := (readCompact_dated hread).1
  obtain ⟨⟨hlength, hdigits⟩, rfl, hdate, htime⟩ := readCompact_eq_some.mp hread
  rw [hdated.secondsFromCivil_ok] at hsecs
  constructor
  · rintro rfl
    have hsame := compactInstant_of_compact (instantOfUnix_valid unixSecs) hlength
    unfold compactFromUnix
    rw [hsame]
    exact (instantOfUnix_valid unixSecs).date.day_le
  · intro hday
    simp only [ParsedFields.timeInRange, Bool.and_eq_true, decide_eq_true_eq] at htime
    have hvalid : (compactInstant text).Valid := by
      refine ⟨⟨?_, ?_, ?_, hday⟩, ?_, ?_, ?_⟩
      · exact Int.ofNat_le.mp hdated.month_pos
      · exact Int.ofNat_le.mp hdated.month_le
      · exact Int.ofNat_le.mp hdated.day_pos
      · exact Int.ofNat_le.mp htime.1.1
      · exact Int.ofNat_le.mp htime.1.2
      · exact Int.ofNat_le.mp htime.2
    unfold compactFromUnix
    rw [hvalid.of_seconds hsecs.2, compactInstant_compact hlength hdigits]

/-- Up to the year 9999 both parsers undo their formatters and both encodings
keep the order. An accepted text is an encoding only where it has the shape of
one and names a day of the calendar, and only the sums of an RFC 3339 text can
overflow. -/
theorem unix_timestamps_iff (text : Text) :
    (∀ unixSecs, (instantOfUnix unixSecs).date.year ≤ 9999 →
        unixFromRfc3339 (rfc3339FromUnix unixSecs) = .ok (some unixSecs) ∧
          unixFromCompactArchiveTimestamp (compactFromUnix unixSecs) = .ok (some unixSecs)) ∧
      (∀ unixSecs other, (instantOfUnix unixSecs).date.year ≤ 9999 → (instantOfUnix other).date.year ≤ 9999 →
        (rfc3339FromUnix unixSecs < rfc3339FromUnix other ↔ unixSecs < other) ∧
          (compactFromUnix unixSecs < compactFromUnix other ↔ unixSecs < other)) ∧
      (∀ unixSecs, unixFromRfc3339 text = .ok (some unixSecs) →
        (rfc3339FromUnix unixSecs = text ↔ Rfc3339Shape text)) ∧
      (∀ unixSecs, unixFromCompactArchiveTimestamp text = .ok (some unixSecs) →
        (compactFromUnix unixSecs = text ↔
          (compactInstant text).date.day ≤
            monthLength (compactInstant text).date.year (compactInstant text).date.month)) ∧
      (unixFromRfc3339 text ≠ .error .overflow ↔ ∀ fields, readRfc3339 text = some fields → fields.Fits) ∧
      unixFromCompactArchiveTimestamp text ≠ .error .overflow := by
  refine ⟨fun unixSecs hyear => ⟨unixFromRfc3339_rfc3339FromUnix hyear, unixFromCompact_compactFromUnix hyear⟩, ?_,
    fun _ h => rfc3339FromUnix_eq_iff h, fun _ h => compactFromUnix_eq_iff h, ?_, ?_⟩
  · intro unixSecs other hyear hyear'
    have hnarrow := (instantOfUnix_valid unixSecs).narrow hyear
    have hnarrow' := (instantOfUnix_valid other).narrow hyear'
    rw [← instantOfUnix_before]
    exact ⟨hnarrow.rfc3339_lt hnarrow', hnarrow.compact_lt hnarrow'⟩
  · exact unixFromFields_overflow fun _ hread => readRfc3339_dated hread
  · apply (unixFromFields_overflow fun _ hread => (readCompact_dated hread).1).mpr
    intro fields hread
    exact (readCompact_dated hread).2

/-- The accepted texts of one summer day. -/
theorem summer_day_encoded :
    unixFromRfc3339 "2026-06-29T12:00:00Z".toList = .ok (some 1782734400) ∧
      rfc3339FromUnix 1782734400 = "2026-06-29T12:00:00Z".toList ∧
      unixFromCompactArchiveTimestamp (compactFromUnix 1782734400) = .ok (some 1782734400) := by
  have haccepted : unixFromRfc3339 "2026-06-29T12:00:00Z".toList = .ok (some 1782734400) := by decide +kernel
  obtain ⟨hround, _, hencoded, _⟩ := unix_timestamps_iff "2026-06-29T12:00:00Z".toList
  have hyear : (instantOfUnix 1782734400).date.year ≤ 9999 := by decide +kernel
  refine ⟨haccepted, ?_, (hround 1782734400 hyear).2⟩
  apply (hencoded 1782734400 haccepted).mpr
  rw [rfc3339Shape_iff]
  exact ⟨instantOfUnix 1782734400, instantOfUnix_valid _, by decide +kernel⟩

/-- The 31st of February, the hour 25 and a signed year are accepted, and a
large year overflows. -/
theorem impossible_dates_accepted :
    unixFromRfc3339 "2026-02-31T00:00:00Z".toList = .ok (some 1772496000) ∧
      rfc3339FromUnix 1772496000 = "2026-03-03T00:00:00Z".toList ∧
      unixFromCompactArchiveTimestamp "20260231000000".toList = .ok (some 1772496000) ∧
      compactFromUnix 1772496000 = "20260303000000".toList ∧
      unixFromRfc3339 "2026-06-29T25:00:00Z".toList = .ok (some 1782781200) ∧
      unixFromRfc3339 "+2026-6-29T0:0:-1Z".toList = .ok (some 1782691199) ∧
      unixFromRfc3339 "9223372036854775807-01-01T00:00:00Z".toList = .error .overflow := by
  decide +kernel

end CorpusFeed
