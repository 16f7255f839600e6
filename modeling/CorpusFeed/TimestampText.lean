import CorpusFeed.DecimalText
import Mathlib.Data.List.DropRight

/-! The text of a `timestamptz` value inside JSON. It shows the local time of
the session's time zone and its offset from UTC, so two sessions write one text
for an instant exactly when their zones have one offset there. -/

namespace CorpusFeed

/-- A finite value counts microseconds from 1970-01-01 00:00 UTC. -/
inductive Timestamptz where
  | finite (micros : Int)
  | infinity
  | negInfinity
deriving DecidableEq

/-- The TimeZone setting, as the seconds east of UTC at a time in seconds from
1970-01-01 00:00 UTC. -/
structure Session where
  utcOffset : Int → Int

def secondsOf (micros : Int) : Int := micros / 1000000

/-- Year, month and day of a day number counted from 1970-01-01. -/
def civilOfDays (days : Int) : Int × Int × Int :=
  let z := days + 719468
  let era := z / 146097
  let doe := z % 146097
  let yoe := (doe - doe / 1460 + doe / 36524 - doe / 146096) / 365
  let doy := doe - (365 * yoe + yoe / 4 - yoe / 100)
  let mp := (5 * doy + 2) / 153
  let month := if mp < 10 then mp + 3 else mp - 9
  (yoe + era * 400 + (if month ≤ 2 then 1 else 0), month, doy - (153 * mp + 2) / 5 + 1)

/-- Years before 1 are written as years BC. -/
def dateText (days : Int) : Text :=
  let (year, month, day) := civilOfDays days
  padDecimal 4 (if 0 < year then year else 1 - year).natAbs ++ '-' :: (padDecimal 2 month.natAbs ++
    '-' :: padDecimal 2 day.natAbs)

def eraText (days : Int) : Text := if 0 < (civilOfDays days).1 then [] else [' ', 'B', 'C']

def fractionText (fraction : Nat) : Text :=
  if fraction = 0 then [] else '.' :: (padDecimal 6 fraction).rdropWhile (· == '0')

def clockText (secondOfDay fraction : Nat) : Text :=
  padDecimal 2 (secondOfDay / 3600) ++ ':' :: (padDecimal 2 (secondOfDay / 60 % 60) ++
    ':' :: (padDecimal 2 (secondOfDay % 60) ++ fractionText fraction))

def offsetMagnitude (n : Nat) : Text :=
  padDecimal 2 (n / 3600) ++ ':' :: (padDecimal 2 (n / 60 % 60) ++
    (if n % 60 = 0 then [] else ':' :: padDecimal 2 (n % 60)))

def offsetText (offset : Int) : Text := (if 0 ≤ offset then '+' else '-') :: offsetMagnitude offset.natAbs

namespace Session

def finiteText (s : Session) (micros : Int) : Text :=
  let offset := s.utcOffset (secondsOf micros)
  let here := secondsOf micros + offset
  dateText (here / 86400) ++ 'T' :: (clockText (here % 86400).natAbs (micros % 1000000).natAbs ++
    (offsetText offset ++ eraText (here / 86400)))

/-- `JsonEncodeDateTime` of a value of type `timestamptz`. -/
def timestampText (s : Session) : Timestamptz → Text
  | .finite micros => s.finiteText micros
  | .infinity => "infinity".toList
  | .negInfinity => "-infinity".toList

end Session

example : (Session.mk fun _ => 3600).timestampText (.finite 1767225600250000) =
    "2026-01-01T01:00:00.25+01:00".toList := by decide

def isClockChar (c : Char) : Bool := c.isDigit || c == ':' || c == '.'

theorem isClockChar_of_isDigit {c : Char} (h : c.isDigit = true) : isClockChar c = true := by simp [isClockChar, h]

theorem isClockChar_clockText {secondOfDay fraction : Nat} {c : Char} (h : c ∈ clockText secondOfDay fraction) :
    isClockChar c = true := by
  simp only [clockText, fractionText, List.mem_append, List.mem_cons] at h
  rcases h with h | rfl | h | rfl | h | h
  · exact isClockChar_of_isDigit (isDigit_of_mem_padDecimal h)
  · rfl
  · exact isClockChar_of_isDigit (isDigit_of_mem_padDecimal h)
  · rfl
  · exact isClockChar_of_isDigit (isDigit_of_mem_padDecimal h)
  · by_cases hzero : fraction = 0
    · simp [hzero] at h
    · simp only [hzero, if_false, List.mem_cons] at h
      rcases h with rfl | h
      · rfl
      · exact isClockChar_of_isDigit (isDigit_of_mem_padDecimal ((List.rdropWhile_prefix _ _).subset h))

theorem not_T_mem_dateText (days : Int) : 'T' ∉ dateText days := by
  have hdigits : ∀ width n, 'T' ∉ padDecimal width n := fun width n h =>
    absurd (isDigit_of_mem_padDecimal h) (by decide)
  simp [dateText, hdigits]

/-- Two texts that go on with a character outside `p` agree up to there. -/
theorem span_unique {α : Type*} {p : α → Bool} {xs ys ds es : List α} (hx : ∀ x ∈ xs, p x = true)
    (hy : ∀ y ∈ ys, p y = true) (hd : ∀ d ∈ ds.head?, p d = false) (he : ∀ e ∈ es.head?, p e = false)
    (h : xs ++ ds = ys ++ es) : xs = ys ∧ ds = es := by
  have hstop : ∀ {zs : List α}, (∀ z ∈ zs.head?, p z = false) → zs.takeWhile p = [] := by
    intro zs hz
    cases zs with
    | nil => rfl
    | cons z zs => simp [hz z rfl]
  have hxs : xs = ys := by
    calc xs = (xs ++ ds).takeWhile p := by rw [List.takeWhile_append_of_pos hx, hstop hd, List.append_nil]
      _ = (ys ++ es).takeWhile p := by rw [h]
      _ = ys := by rw [List.takeWhile_append_of_pos hy, hstop he, List.append_nil]
  subst hxs
  exact ⟨rfl, List.append_cancel_left h⟩

theorem isClockChar_offsetMagnitude {n : Nat} {c : Char} (h : c ∈ offsetMagnitude n) : isClockChar c = true := by
  simp only [offsetMagnitude, List.mem_append, List.mem_cons] at h
  rcases h with h | rfl | h | h
  · exact isClockChar_of_isDigit (isDigit_of_mem_padDecimal h)
  · rfl
  · exact isClockChar_of_isDigit (isDigit_of_mem_padDecimal h)
  · by_cases hzero : n % 60 = 0
    · simp [hzero] at h
    · simp only [hzero, if_false, List.mem_cons] at h
      rcases h with rfl | h
      · rfl
      · exact isClockChar_of_isDigit (isDigit_of_mem_padDecimal h)

theorem offsetMagnitude_injective : Function.Injective offsetMagnitude := by
  intro m n h
  have hcolon : ∀ k, ':' ∉ padDecimal 2 k := fun k hk => absurd (isDigit_of_mem_padDecimal hk) (by decide)
  have hdigits : ∀ k, ∀ c ∈ padDecimal 2 k, c.isDigit = true := fun k c => isDigit_of_mem_padDecimal
  have hstop : ∀ k, ∀ c ∈ (if k % 60 = 0 then ([] : Text) else ':' :: padDecimal 2 (k % 60)).head?,
      c.isDigit = false := by
    intro k c hc
    by_cases hzero : k % 60 = 0
    · simp [hzero] at hc
    · simp only [hzero, if_false, List.head?_cons, Option.mem_def, Option.some.injEq] at hc
      subst hc
      rfl
  obtain ⟨hhours, htail⟩ := head_rest_unique (hcolon _) (hcolon _) h
  obtain ⟨hminutes, hseconds⟩ := span_unique (hdigits _) (hdigits _) (hstop m) (hstop n) htail
  have hh := padDecimal_injective 2 hhours
  have hm := padDecimal_injective 2 hminutes
  have hs : m % 60 = n % 60 := by
    by_cases hmz : m % 60 = 0 <;> by_cases hnz : n % 60 = 0
    · omega
    · simp [hmz, hnz] at hseconds
    · simp [hmz, hnz] at hseconds
    · simp only [hmz, hnz, if_false, List.cons.injEq, true_and] at hseconds
      exact padDecimal_injective 2 hseconds
  omega

theorem offsetText_append_inj {a b : Int} {x y : Text} (hx : ∀ c ∈ x.head?, isClockChar c = false)
    (hy : ∀ c ∈ y.head?, isClockChar c = false) (h : offsetText a ++ x = offsetText b ++ y) : a = b := by
  simp only [offsetText, List.cons_append, List.cons.injEq] at h
  obtain ⟨hsign, htail⟩ := h
  have hmagnitudes := @span_unique Char isClockChar _ _ _ _ (fun _ => isClockChar_offsetMagnitude)
    (fun _ => isClockChar_offsetMagnitude) hx hy htail
  have habs := offsetMagnitude_injective hmagnitudes.1
  by_cases ha : 0 ≤ a <;> by_cases hb : 0 ≤ b <;> simp [ha, hb] at hsign <;> omega

/-- Two sessions write one text for a finite value if and only if their offsets
from UTC agree there. -/
theorem finiteText_eq_iff {s t : Session} {micros : Int} : s.finiteText micros = t.finiteText micros ↔
      s.utcOffset (secondsOf micros) = t.utcOffset (secondsOf micros) := by
  constructor
  · intro h
    have hera : ∀ days, ∀ c ∈ (eraText days).head?, isClockChar c = false := by
      intro days c hc
      by_cases hyear : 0 < (civilOfDays days).1
      · simp [eraText, hyear] at hc
      · simp only [eraText, hyear, if_false, List.head?_cons, Option.mem_def, Option.some.injEq] at hc
        subst hc
        rfl
    have hsign : ∀ offset days, ∀ c ∈ (offsetText offset ++ eraText days).head?, isClockChar c = false := by
      intro offset days c hc
      by_cases hoffset : 0 ≤ offset
      all_goals
        simp only [offsetText, hoffset, if_true, if_false, List.cons_append, List.head?_cons, Option.mem_def,
          Option.some.injEq] at hc
        subst hc
        rfl
    unfold Session.finiteText at h
    obtain ⟨_, hclock⟩ := head_rest_unique (not_T_mem_dateText _) (not_T_mem_dateText _) h
    obtain ⟨_, hoffset⟩ := @span_unique Char isClockChar _ _ _ _ (fun _ => isClockChar_clockText)
      (fun _ => isClockChar_clockText) (hsign _ _) (hsign _ _) hclock
    exact offsetText_append_inj (hera _) (hera _) hoffset
  · intro h
    simp only [Session.finiteText, h]

end CorpusFeed
