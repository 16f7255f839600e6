import CorpusFeed.DecimalText

/-! Texts of decimal digits as numbers: texts of one length are ordered as the
numbers are, and the padded rendering is the only one without a sign or a zero too
many. -/

namespace CorpusFeed

def Digits (t : Text) : Prop := ∀ c ∈ t, c.isDigit = true

def decimalValue (t : Text) : Nat := Nat.ofDigitChars 10 t 0

section Digits

variable {s t : Text} {c d : Char}

theorem Digits.tail (h : Digits (c :: t)) : Digits t := fun d hd => h d (List.mem_cons_of_mem c hd)

theorem Digits.head (h : Digits (c :: t)) : 48 ≤ c.toNat ∧ c.toNat ≤ 57 := by
  have hc := h c List.mem_cons_self
  simp only [Char.isDigit, Bool.and_eq_true, decide_eq_true_eq] at hc
  exact ⟨hc.1, hc.2⟩

theorem decimalValue_cons : decimalValue (c :: t) = 10 ^ t.length * (c.toNat - 48) + decimalValue t := by
  rw [decimalValue, Nat.ofDigitChars_cons, Nat.ofDigitChars_eq_ofDigitChars_zero, Nat.mul_zero, Nat.zero_add]
  rfl

theorem decimalValue_lt (h : Digits t) : decimalValue t < 10 ^ t.length := by
  induction t with
  | nil => decide
  | cons c t ih =>
    have hrest := ih h.tail
    obtain ⟨_, hc⟩ := h.head
    have hdigit : c.toNat - 48 ≤ 9 := by omega
    have hscale : 10 ^ t.length * (c.toNat - 48) ≤ 10 ^ t.length * 9 := Nat.mul_le_mul_left _ hdigit
    rw [decimalValue_cons, List.length_cons, Nat.pow_succ]
    omega

/-- The first digit decides, unless it is the same. -/
theorem decimalValue_lt_iff (hs : Digits s) (ht : Digits t) (hlength : s.length = t.length) :
    s < t ↔ decimalValue s < decimalValue t := by
  induction s generalizing t with
  | nil =>
    have he : t = [] := List.eq_nil_of_length_eq_zero hlength.symm
    subst he
    simp
  | cons c s ih =>
    cases t with
    | nil => simp at hlength
    | cons d t =>
      have hrest : s.length = t.length := by simpa using hlength
      have hs' := decimalValue_lt hs.tail
      have ht' := decimalValue_lt ht.tail
      obtain ⟨hc, _⟩ := hs.head
      obtain ⟨hd, _⟩ := ht.head
      rw [List.cons_lt_cons_iff, ih hs.tail ht.tail hrest, decimalValue_cons, decimalValue_cons, hrest]
      rw [hrest] at hs'
      have hchar : c < d ↔ c.toNat < d.toNat := Iff.rfl
      have hsame : c = d ↔ c.toNat = d.toNat := ⟨congrArg Char.toNat, Char.toNat_inj.mp⟩
      rw [hchar, hsame]
      generalize 10 ^ t.length = scale at hs' ht'
      rcases Nat.lt_trichotomy c.toNat d.toNat with hlt | heq | hgt
      · have hstep : scale * (c.toNat - 48) + scale ≤ scale * (d.toNat - 48) := by
          rw [← Nat.mul_succ]
          exact Nat.mul_le_mul_left _ (by omega)
        omega
      · rw [heq]
        omega
      · have hstep : scale * (d.toNat - 48) + scale ≤ scale * (c.toNat - 48) := by
          rw [← Nat.mul_succ]
          exact Nat.mul_le_mul_left _ (by omega)
        omega

theorem decimalValue_inj (hs : Digits s) (ht : Digits t) (hlength : s.length = t.length)
    (h : decimalValue s = decimalValue t) : s = t := by
  rcases lt_trichotomy s t with hlt | heq | hgt
  · have hless := (decimalValue_lt_iff hs ht hlength).mp hlt
    omega
  · exact heq
  · have hless := (decimalValue_lt_iff ht hs hlength.symm).mp hgt
    omega

end Digits

section Padded

variable {t : Text} {width n : Nat}

theorem digits_padDecimal (width n : Nat) : Digits (padDecimal width n) := fun _ hc => isDigit_of_mem_padDecimal hc

theorem decimalValue_padDecimal (width n : Nat) : decimalValue (padDecimal width n) = n :=
  ofDigitChars_padDecimal width n

theorem length_padDecimal (hwidth : 0 < width) (hn : n < 10 ^ width) : (padDecimal width n).length = width := by
  have hle := padDecimal_length_le hwidth (Nat.le_refl width) hn
  have hge := le_padDecimal_length width n
  omega

theorem readDecimal_eq_some : readDecimal t = some n ↔ t ≠ [] ∧ Digits t ∧ decimalValue t = n := by
  unfold readDecimal
  by_cases he : t = []
  · simp [he]
  · by_cases hall : t.all Char.isDigit = true
    · simp only [List.isEmpty_iff, he, if_false, hall, if_true, Option.some.injEq, ne_eq, not_false_eq_true, true_and]
      exact ⟨fun h => ⟨List.all_eq_true.mp hall, h⟩, fun h => h.2⟩
    · simp only [List.isEmpty_iff, he, if_false, hall, reduceCtorEq, false_iff]
      rintro ⟨_, hdigits, _⟩
      exact hall (List.all_eq_true.mpr hdigits)

/-- No zero too many, and none too few. -/
def Padded (width : Nat) (t : Text) : Prop := width ≤ t.length ∧ (width < t.length → t.head? ≠ some '0')

theorem eq_padDecimal_iff (hwidth : 0 < width) (ht : Digits t) :
    t = padDecimal width (decimalValue t) ↔ Padded width t := by
  have hbound := decimalValue_lt ht
  have hsame : t = padDecimal width (decimalValue t) ↔ t.length = (padDecimal width (decimalValue t)).length := by
    refine ⟨congrArg List.length, fun h => ?_⟩
    exact decimalValue_inj ht (digits_padDecimal _ _) h (decimalValue_padDecimal _ _).symm
  rw [hsame, padDecimal_length]
  by_cases hlong : width < t.length
  · have hdigits : (Nat.toDigits 10 (decimalValue t)).length ≤ t.length :=
      (Nat.length_toDigits_le_iff (by decide) (by omega)).mpr hbound
    have hfull : (Nat.toDigits 10 (decimalValue t)).length ≤ t.length - 1 ↔ decimalValue t < 10 ^ (t.length - 1) :=
      Nat.length_toDigits_le_iff (by decide) (by omega)
    have hhead : decimalValue t < 10 ^ (t.length - 1) ↔ t.head? = some '0' := by
      cases t with
      | nil => simp at hlong
      | cons c t =>
        have htail := decimalValue_lt ht.tail
        obtain ⟨hc, _⟩ := ht.head
        have hzero : c = '0' ↔ c.toNat = 48 := ⟨fun h => by rw [h]; rfl, fun h => Char.toNat_inj.mp h⟩
        rw [decimalValue_cons, List.length_cons, Nat.add_sub_cancel, List.head?_cons, Option.some.injEq, hzero]
        constructor
        · intro h
          by_contra hne
          have hscale : 10 ^ t.length * 1 ≤ 10 ^ t.length * (c.toNat - 48) := Nat.mul_le_mul_left _ (by omega)
          omega
        · intro h
          rw [h, Nat.sub_self, Nat.mul_zero, Nat.zero_add]
          exact htail
    have hpadded : Padded width t ↔ ¬ t.head? = some '0' :=
      ⟨fun h => h.2 hlong, fun h => ⟨hlong.le, fun _ => h⟩⟩
    rw [hpadded, ← hhead, ← hfull]
    omega
  · have hpadded : Padded width t ↔ width ≤ t.length := ⟨fun h => h.1, fun h => ⟨h, fun hlt => absurd hlt hlong⟩⟩
    rw [hpadded]
    constructor
    · intro h
      omega
    · intro h
      have hdigits : (Nat.toDigits 10 (decimalValue t)).length ≤ t.length :=
        (Nat.length_toDigits_le_iff (by decide) (by omega)).mpr hbound
      omega

end Padded

end CorpusFeed
