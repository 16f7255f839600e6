import Mathlib.Algebra.Order.Ring.Int
import Mathlib.Data.Char
import Mathlib.Data.List.Lex

/-! Decimal renderings with a minimum width, and texts that end in such a
rendering. A marker outside the digit alphabet makes the split of a text into
its stem and its digits unique. -/

namespace CorpusFeed

abbrev Text := List Char

instance lawfulBEqText : LawfulBEq Text := inferInstance

/-- A property of the elements of a literal is checked element by element. -/
theorem forall_mem_of_all {α : Type*} {p : α → Prop} [DecidablePred p] {xs : List α}
    (h : (xs.all fun x => decide (p x)) = true) : ∀ x ∈ xs, p x :=
  fun x hx => of_decide_eq_true (List.all_eq_true.mp h x hx)

/-- Decimal digits of `n`, filled with zeros on the left up to `width`. -/
def padDecimal (width n : Nat) : Text :=
  List.replicate (width - (Nat.toDigits 10 n).length) '0' ++ Nat.toDigits 10 n

def intText (n : Int) : Text := if n < 0 then '-' :: padDecimal 1 n.natAbs else padDecimal 1 n.natAbs

def readDecimal (t : Text) : Option Nat :=
  if t.isEmpty then none else if t.all Char.isDigit then some (Nat.ofDigitChars 10 t 0) else none

theorem isDigit_of_mem_padDecimal {width n : Nat} {c : Char} (hc : c ∈ padDecimal width n) :
    c.isDigit = true := by
  simp only [padDecimal, List.mem_append, List.mem_replicate] at hc
  rcases hc with ⟨_, rfl⟩ | hc
  · rfl
  · exact Nat.isDigit_of_mem_toDigits (by decide) (by decide) hc

theorem padDecimal_length (width n : Nat) :
    (padDecimal width n).length = max width (Nat.toDigits 10 n).length := by
  simp only [padDecimal, List.length_append, List.length_replicate]
  omega

theorem padDecimal_length_le {width n k : Nat} (hk : 0 < k) (hw : width ≤ k) (hn : n < 10 ^ k) :
    (padDecimal width n).length ≤ k := by
  have hd := (Nat.length_toDigits_le_iff (b := 10) (by decide) hk).mpr hn
  rw [padDecimal_length]
  omega

theorem le_padDecimal_length (width n : Nat) : width ≤ (padDecimal width n).length := by
  rw [padDecimal_length]
  omega

theorem ofDigitChars_padDecimal (width n : Nat) :
    Nat.ofDigitChars 10 (padDecimal width n) 0 = n := by
  simp [padDecimal, Nat.ofDigitChars_append]

theorem padDecimal_injective (width : Nat) : Function.Injective (padDecimal width) := by
  intro m n h
  have hm := ofDigitChars_padDecimal width m
  rw [h, ofDigitChars_padDecimal] at hm
  exact hm.symm

theorem readDecimal_padDecimal (width n : Nat) : readDecimal (padDecimal width n) = some n := by
  have hne : (padDecimal width n).isEmpty = false := by
    simp [padDecimal, Nat.toDigits_ne_nil]
  have hall : (padDecimal width n).all Char.isDigit = true :=
    List.all_eq_true.mpr fun _ hc => isDigit_of_mem_padDecimal hc
  simp [readDecimal, hne, hall, ofDigitChars_padDecimal]

theorem isDigit_of_readDecimal {t : Text} {n : Nat} (h : readDecimal t = some n) {c : Char} (hc : c ∈ t) :
    c.isDigit = true := by
  unfold readDecimal at h
  split at h
  · cases h
  split at h
  · next hall => exact List.all_eq_true.mp hall c hc
  · cases h

/-- The first marker of a text fixes its head and its rest. -/
theorem head_rest_unique {α : Type*} {m : α} {xs ys ds es : List α} (hx : m ∉ xs) (hy : m ∉ ys)
    (h : xs ++ m :: ds = ys ++ m :: es) : xs = ys ∧ ds = es := by
  induction xs generalizing ys with
  | nil =>
    cases ys with
    | nil => simpa using h
    | cons y ys =>
      simp only [List.nil_append, List.cons_append, List.cons.injEq] at h
      exact absurd (h.1 ▸ List.mem_cons_self) hy
  | cons x xs ih =>
    cases ys with
    | nil =>
      simp only [List.nil_append, List.cons_append, List.cons.injEq] at h
      exact absurd (h.1 ▸ List.mem_cons_self) hx
    | cons y ys =>
      simp only [List.cons_append, List.cons.injEq] at h
      obtain ⟨hxs, hds⟩ := ih (fun hm => hx (List.mem_cons_of_mem x hm)) (fun hm => hy (List.mem_cons_of_mem y hm)) h.2
      exact ⟨by rw [h.1, hxs], hds⟩

/-- The last marker of a text fixes its stem and its suffix, when neither
suffix contains the marker. -/
theorem stem_suffix_unique {α : Type*} {m : α} {xs ys ds es : List α} (hd : m ∉ ds) (he : m ∉ es)
    (h : xs ++ m :: ds = ys ++ m :: es) : xs = ys ∧ ds = es := by
  have hreverse : ds.reverse ++ m :: xs.reverse = es.reverse ++ m :: ys.reverse := by
    simpa using congrArg List.reverse h
  obtain ⟨hsuffix, hstem⟩ := head_rest_unique (by simpa using hd) (by simpa using he) hreverse
  exact ⟨List.reverse_injective hstem, List.reverse_injective hsuffix⟩

theorem eq_of_take_eq {α : Type*} {n : Nat} {xs ys : List α} (hx : xs.length < n)
    (h : xs.take n = ys.take n) : xs = ys := by
  have hl := congrArg List.length h
  simp only [List.length_take] at hl
  rw [List.take_of_length_le (by omega), List.take_of_length_le (by omega)] at h
  exact h

end CorpusFeed
