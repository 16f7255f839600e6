import CorpusFeed.TimestampReading

/-! The encodings of instants: their texts are ordered as the seconds are, and
fourteen digits are always the compact text of the numbers they spell. -/

namespace CorpusFeed

theorem append_lt_append_iff {a b s t : Text} (h : a.length = b.length) :
    a ++ s < b ++ t ↔ a < b ∨ (a = b ∧ s < t) := by
  induction a generalizing b with
  | nil =>
    have hb : b = [] := List.length_eq_zero_iff.mp (by simpa using h.symm)
    simp [hb]
  | cons c a ih =>
    cases b with
    | nil => simp at h
    | cons d b =>
      have hlen : a.length = b.length := by simpa using h
      rw [List.cons_append, List.cons_append, List.cons_lt_cons_iff, List.cons_lt_cons_iff, ih hlen, List.cons.injEq]
      tauto

theorem cons_lt_cons_same {c : Char} {s t : Text} : c :: s < c :: t ↔ s < t := by
  simp

/-- Fields of one width before the rest of two texts. -/
theorem padDecimal_append_lt {width n m : Nat} {s t : Text} (hwidth : 0 < width) (hn : n < 10 ^ width)
    (hm : m < 10 ^ width) : padDecimal width n ++ s < padDecimal width m ++ t ↔ n < m ∨ (n = m ∧ s < t) := by
  have hlen : (padDecimal width n).length = (padDecimal width m).length := by
    rw [length_padDecimal hwidth hn, length_padDecimal hwidth hm]
  rw [append_lt_append_iff hlen, decimalValue_lt_iff (digits_padDecimal _ _) (digits_padDecimal _ _) hlen,
    decimalValue_padDecimal, decimalValue_padDecimal, (padDecimal_injective width).eq_iff]

namespace Instant

variable {instant other : Instant}

def Before (instant other : Instant) : Prop :=
  instant.date.Before other.date ∨ (instant.date = other.date ∧
    (instant.hour < other.hour ∨ (instant.hour = other.hour ∧
      (instant.minute < other.minute ∨ (instant.minute = other.minute ∧ instant.second < other.second)))))

theorem Before.asymm (h : instant.Before other) : ¬ other.Before instant := by
  obtain ⟨⟨year, month, day⟩, hour, minute, second⟩ := instant
  obtain ⟨⟨year', month', day'⟩, hour', minute', second'⟩ := other
  simp only [Before, CivilDate.Before, CivilDate.mk.injEq] at h ⊢
  omega

/-- The numbers of the instant keep to the widths of the encodings. -/
structure Narrow (instant : Instant) : Prop where
  year : instant.date.year < 10 ^ 4
  month : instant.date.month < 10 ^ 2
  day : instant.date.day < 10 ^ 2
  hour : instant.hour < 10 ^ 2
  minute : instant.minute < 10 ^ 2
  second : instant.second < 10 ^ 2

theorem Valid.narrow (h : instant.Valid) (hyear : instant.date.year ≤ 9999) : instant.Narrow := by
  have hday := (h.dated (by omega)).day_le
  have hday' : instant.date.day ≤ 31 := Int.ofNat_le.mp hday
  have hmonth := h.date.month_le
  have hhour := h.hour
  have hminute := h.minute
  have hsecond := h.second
  exact ⟨by omega, by omega, by omega, by omega, by omega, by omega⟩

theorem Narrow.rfc3339_lt (h : instant.Narrow) (h' : other.Narrow) :
    instant.rfc3339 < other.rfc3339 ↔ instant.Before other := by
  unfold rfc3339
  rw [padDecimal_append_lt (by decide) h.year h'.year, cons_lt_cons_same,
    padDecimal_append_lt (by decide) h.month h'.month, cons_lt_cons_same,
    padDecimal_append_lt (by decide) h.day h'.day, cons_lt_cons_same,
    padDecimal_append_lt (by decide) h.hour h'.hour, cons_lt_cons_same,
    padDecimal_append_lt (by decide) h.minute h'.minute, cons_lt_cons_same,
    padDecimal_append_lt (by decide) h.second h'.second]
  have hlast : ¬ (['Z'] : Text) < ['Z'] := by decide
  obtain ⟨⟨year, month, day⟩, hour, minute, second⟩ := instant
  obtain ⟨⟨year', month', day'⟩, hour', minute', second'⟩ := other
  simp only [Before, CivilDate.Before, CivilDate.mk.injEq, hlast, and_false, or_false]
  omega

theorem Narrow.compact_lt (h : instant.Narrow) (h' : other.Narrow) :
    instant.compact < other.compact ↔ instant.Before other := by
  have hlast : padDecimal 2 instant.second < padDecimal 2 other.second ↔ instant.second < other.second := by
    have hfield := padDecimal_append_lt (s := []) (t := []) (by decide) h.second h'.second
    simpa using hfield
  unfold compact
  rw [padDecimal_append_lt (by decide) h.year h'.year, padDecimal_append_lt (by decide) h.month h'.month,
    padDecimal_append_lt (by decide) h.day h'.day, padDecimal_append_lt (by decide) h.hour h'.hour,
    padDecimal_append_lt (by decide) h.minute h'.minute, hlast]
  obtain ⟨⟨year, month, day⟩, hour, minute, second⟩ := instant
  obtain ⟨⟨year', month', day'⟩, hour', minute', second'⟩ := other
  simp only [Before, CivilDate.Before, CivilDate.mk.injEq]
  omega

end Instant

theorem instantOfUnix_before {unixSecs other : Nat} :
    (instantOfUnix unixSecs).Before (instantOfUnix other) ↔ unixSecs < other := by
  have hforward : ∀ {s t : Nat}, s < t → (instantOfUnix s).Before (instantOfUnix t) := by
    intro s t hlt
    by_cases hdays : s / 86400 < t / 86400
    · exact Or.inl (civilFromDays_before hdays)
    · have hsame : s / 86400 = t / 86400 := by omega
      refine Or.inr ⟨congrArg civilFromDays hsame, ?_⟩
      simp only [instantOfUnix]
      omega
  constructor
  · intro hbefore
    by_contra hle
    by_cases hsame : unixSecs = other
    · rw [hsame] at hbefore
      exact hbefore.asymm hbefore
    · exact hbefore.asymm (hforward (by omega))
  · exact hforward

end CorpusFeed
