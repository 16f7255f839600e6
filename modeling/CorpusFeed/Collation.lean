import CorpusFeed.DecimalText
import Mathlib.Data.List.Sort

/-! The order that a database sorts texts by. -/

namespace CorpusFeed

structure Collation where
  le : Text → Text → Bool
  total : ∀ a b, le a b = true ∨ le b a = true
  trans : ∀ a b c, le a b = true → le b c = true → le a c = true
  antisymm : ∀ a b, le a b = true → le b a = true → a = b

def Collation.lt (collation : Collation) (a b : Text) : Bool := !collation.le b a

section Order

variable {collation : Collation} {a b c : Text}

theorem Collation.lt_iff : collation.lt a b = true ↔ ¬ collation.le b a = true := by
  simp [Collation.lt]

theorem Collation.lt_irrefl : collation.lt a a = false := by
  simpa [Collation.lt] using (collation.total a a).elim id id

theorem Collation.le_of_lt (h : collation.lt a b = true) : collation.le a b = true :=
  (collation.total a b).resolve_right (Collation.lt_iff.mp h)

theorem Collation.lt_of_le_of_lt (hab : collation.le a b = true) (hbc : collation.lt b c = true) :
    collation.lt a c = true :=
  Collation.lt_iff.mpr fun hca => Collation.lt_iff.mp hbc (collation.trans _ _ _ hca hab)

theorem Collation.lt_of_lt_of_le (hab : collation.lt a b = true) (hbc : collation.le b c = true) :
    collation.lt a c = true :=
  Collation.lt_iff.mpr fun hca => Collation.lt_iff.mp hab (collation.trans _ _ _ hbc hca)

theorem Collation.lt_of_le_of_ne (hab : collation.le a b = true) (hne : a ≠ b) : collation.lt a b = true :=
  Collation.lt_iff.mpr fun hba => hne (collation.antisymm _ _ hab hba)

theorem Collation.eq_of_le {collation' : Collation} (h : ∀ a b, collation.le a b = collation'.le a b) :
    collation = collation' := by
  cases collation
  cases collation'
  congr
  exact funext fun a => funext fun b => h a b

end Order

theorem not_lex_iff {a b : Text} :
    (!List.lex b a fun x y => decide (x < y)) = true ↔ @LE.le (List Char) List.instLE a b := by
  rw [Bool.not_eq_true']
  exact List.lex_eq_false_iff_ge

def codePointCollation : Collation where
  le a b := !List.lex b a fun x y => decide (x < y)
  total a b := by
    rw [not_lex_iff, not_lex_iff]
    exact List.le_total a b
  trans a b c := by
    rw [not_lex_iff, not_lex_iff, not_lex_iff]
    exact List.le_trans
  antisymm a b := by
    rw [not_lex_iff, not_lex_iff]
    exact List.le_antisymm

theorem codePoint_le_iff {a b : Text} : codePointCollation.le a b = true ↔ @LE.le (List Char) List.instLE a b :=
  not_lex_iff

end CorpusFeed
