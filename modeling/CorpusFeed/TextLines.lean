import CorpusFeed.DecimalText
import Mathlib.Data.List.DropRight

/-! White space, trimming and lines of a text. -/

namespace CorpusFeed

/-- The characters with the Unicode property `White_Space`. -/
def isWhiteSpace (c : Char) : Bool :=
  let n := c.toNat
  (9 ≤ n && n ≤ 13) || n == 0x20 || n == 0x85 || n == 0xA0 || n == 0x1680 || (0x2000 ≤ n && n ≤ 0x200A) ||
    n == 0x2028 || n == 0x2029 || n == 0x202F || n == 0x205F || n == 0x3000

def trim (t : Text) : Text := (t.dropWhile isWhiteSpace).rdropWhile isWhiteSpace

def isBlank (t : Text) : Bool := (trim t).isEmpty

def stripCarriageReturn (line : Text) : Text :=
  if line.getLast? = some '\r' then line.dropLast else line

/-- The lines of a text: no empty line after a final line feed, and no carriage
return at the end of a line. -/
def lines (t : Text) : List Text :=
  let parts := t.splitOn '\n'
  let kept := if parts.getLast? = some [] then parts.dropLast else parts
  kept.map stripCarriageReturn

theorem isBlank_iff {t : Text} : isBlank t = true ↔ ∀ c ∈ t, isWhiteSpace c = true := by
  rw [isBlank, List.isEmpty_iff, trim, List.rdropWhile_eq_nil_iff]
  constructor
  · intro h
    rw [← List.takeWhile_append_dropWhile (p := isWhiteSpace) (l := t)]
    intro c hc
    rcases List.mem_append.mp hc with hc | hc
    · exact List.mem_takeWhile_imp hc
    · exact h c hc
  · intro h c hc
    exact h c ((List.dropWhile_suffix isWhiteSpace).subset hc)

theorem trim_subset (t : Text) : ∀ c ∈ trim t, c ∈ t := fun _ hc =>
  (List.dropWhile_suffix isWhiteSpace).subset ((List.rdropWhile_prefix isWhiteSpace _).subset hc)

theorem trim_between {c d : Char} {t : Text} (hc : isWhiteSpace c = false) (hd : isWhiteSpace d = false) :
    trim (c :: (t ++ [d])) = c :: (t ++ [d]) := by
  rw [trim, List.dropWhile_cons_of_neg (by simp [hc]), ← List.cons_append, List.rdropWhile_concat_neg]
  simp [hd]

theorem trim_cons {c : Char} (t : Text) (hc : isWhiteSpace c = false) :
    ∃ space, (∀ x ∈ space, isWhiteSpace x = true) ∧ c :: t = trim (c :: t) ++ space := by
  rw [trim, List.dropWhile_cons_of_neg (by simp [hc])]
  exact ⟨(c :: t).rtakeWhile isWhiteSpace, fun x hx => List.mem_rtakeWhile_imp hx,
    (List.rdropWhile_append_rtakeWhile (p := isWhiteSpace) (l := c :: t)).symm⟩

/-- What trimming leaves of a text is not blank, or empty. -/
theorem isBlank_trim {t : Text} (h : trim t ≠ []) : isBlank (trim t) = false := by
  rw [Bool.eq_false_iff]
  intro hblank
  have hlast := List.rdropWhile_last_not isWhiteSpace (t.dropWhile isWhiteSpace) h
  exact hlast (isBlank_iff.mp hblank _ (List.getLast_mem h))

theorem isBlank_intercalate {sep : Text} {parts : List Text} {part : Text} (hp : part ∈ parts)
    (h : isBlank part = false) : isBlank (sep.intercalate parts) = false := by
  rw [Bool.eq_false_iff] at h ⊢
  intro hblank
  refine h (isBlank_iff.mpr fun c hc => isBlank_iff.mp hblank c ?_)
  induction parts with
  | nil => cases hp
  | cons first rest ih =>
    cases rest with
    | nil =>
      rw [List.mem_singleton.mp hp] at hc
      simpa [List.intercalate] using hc
    | cons second rest =>
      rw [List.intercalate_cons_cons]
      rcases List.mem_cons.mp hp with rfl | hp
      · exact List.mem_append_left _ (List.mem_append_left _ hc)
      · refine List.mem_append_right _ (ih hp ?_)
        rw [List.intercalate_cons_cons] at hblank
        exact isBlank_iff.mpr fun c hc => isBlank_iff.mp hblank c (List.mem_append_right _ hc)

end CorpusFeed
