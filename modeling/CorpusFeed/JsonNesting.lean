import CorpusFeed.JsonText

/-! The nesting of brackets in a JSON text. Every prefix of a printed object
leaves a bracket open, so a text that is cut short is no value. -/

namespace CorpusFeed

inductive ScanMode where
  | outside
  | inside
  | escaped
deriving DecidableEq

structure Scan where
  mode : ScanMode
  depth : Nat
deriving DecidableEq

namespace Scan

def step (s : Scan) (c : Char) : Scan :=
  match s.mode with
  | .outside =>
    if c = '"' then ⟨.inside, s.depth⟩
    else if c = '[' ∨ c = '{' then ⟨.outside, s.depth + 1⟩
    else if c = ']' ∨ c = '}' then ⟨.outside, s.depth - 1⟩
    else s
  | .inside => if c = '\\' then ⟨.escaped, s.depth⟩ else if c = '"' then ⟨.outside, s.depth⟩ else s
  | .escaped => ⟨.inside, s.depth⟩

def run (s : Scan) (t : Text) : Scan := t.foldl step s

/-- The depth does not fall below `d` before the end of the text. -/
def Held (d : Nat) : Scan → Text → Prop
  | _, [] => True
  | s, c :: t => d ≤ s.depth ∧ Held d (s.step c) t

@[simp] theorem run_nil (s : Scan) : s.run [] = s := rfl

@[simp] theorem run_cons (s : Scan) (c : Char) (t : Text) : s.run (c :: t) = (s.step c).run t := rfl

@[simp] theorem run_append (s : Scan) (t u : Text) : s.run (t ++ u) = (s.run t).run u := List.foldl_append

@[simp] theorem held_nil (d : Nat) (s : Scan) : Held d s [] := trivial

@[simp] theorem held_cons (d : Nat) (s : Scan) (c : Char) (t : Text) :
    Held d s (c :: t) ↔ d ≤ s.depth ∧ Held d (s.step c) t := Iff.rfl

@[simp] theorem held_append (d : Nat) (s : Scan) (t u : Text) : Held d s (t ++ u) ↔ Held d s t ∧ Held d (s.run t) u := by
  induction t generalizing s with
  | nil => simp
  | cons c t ih => simp [ih, and_assoc]

theorem Held.take {d : Nat} {s : Scan} {t : Text} (h : Held d s t) {k : Nat} (hk : k < t.length) :
    d ≤ (s.run (t.take k)).depth := by
  induction t generalizing s k with
  | nil => simp at hk
  | cons c t ih =>
    cases k with
    | zero => exact h.1
    | succ k => exact ih h.2 (by simpa using hk)

theorem Held.weaken {d e : Nat} {s : Scan} {t : Text} (h : Held d s t) (he : e ≤ d) : Held e s t := by
  induction t generalizing s with
  | nil => trivial
  | cons c t ih => exact ⟨Nat.le_trans he h.1, ih h.2⟩

def isBracket (c : Char) : Bool := c = '[' || c = '{' || c = ']' || c = '}'

theorem step_depth {s : Scan} {c : Char} (hc : isBracket c = false) : (s.step c).depth = s.depth := by
  simp only [isBracket, Bool.or_eq_false_iff, decide_eq_false_iff_not] at hc
  obtain ⟨⟨⟨hopen, hbrace⟩, hclose⟩, hbrace'⟩ := hc
  rcases s with ⟨_ | _ | _, d⟩
  · by_cases hquote : c = '"' <;> simp [step, hquote, hopen, hbrace, hclose, hbrace']
  · by_cases hslash : c = '\\'
    · simp [step, hslash]
    · by_cases hquote : c = '"' <;> simp [step, hslash, hquote]
  · rfl

theorem run_depth {s : Scan} {t : Text} (ht : ∀ c ∈ t, isBracket c = false) : (s.run t).depth = s.depth := by
  induction t generalizing s with
  | nil => rfl
  | cons c t ih => rw [run_cons, ih fun c' hc' => ht c' (List.mem_cons_of_mem c hc'), step_depth (ht c List.mem_cons_self)]

/-- The scan passes over the text: it comes back to where it was, and not below. -/
def Passes (s : Scan) (t : Text) : Prop := s.run t = s ∧ Held s.depth s t

theorem passes_nil (s : Scan) : s.Passes [] := ⟨rfl, trivial⟩

theorem Passes.append {s : Scan} {t u : Text} (ht : s.Passes t) (hu : s.Passes u) : s.Passes (t ++ u) := by
  simp [Passes, ht.1, ht.2, hu.1, hu.2]

theorem passes_of_still {s : Scan} {t : Text} (h : ∀ c ∈ t, s.step c = s) : s.Passes t := by
  induction t with
  | nil => exact passes_nil s
  | cons c t ih =>
    obtain ⟨hrun, hheld⟩ := ih fun c' hc' => h c' (List.mem_cons_of_mem c hc')
    have hc := h c List.mem_cons_self
    exact ⟨by rw [run_cons, hc, hrun], Nat.le_refl _, by rw [hc]; exact hheld⟩

variable {d : Nat}

theorem still_inside {c : Char} (hslash : c ≠ '\\') (hquote : c ≠ '"') : step ⟨.inside, d⟩ c = ⟨.inside, d⟩ := by
  simp [step, hslash, hquote]

theorem digitChar_plain : ∀ n < 16, Nat.digitChar n ≠ '\\' ∧ Nat.digitChar n ≠ '"' := by decide

/-- An escape is passed, whatever is escaped. -/
theorem passes_escape (c : Char) {t : Text} (ht : Passes ⟨.inside, d⟩ t) : Passes ⟨.inside, d⟩ ('\\' :: c :: t) := by
  obtain ⟨hrun, hheld⟩ := ht
  exact ⟨by simpa [step] using hrun, by simpa [step] using hheld⟩

theorem passes_escapeChar (c : Char) : Passes ⟨.inside, d⟩ (escapeChar c) := by
  unfold escapeChar
  split
  · exact passes_escape _ (passes_nil _)
  next hquote =>
  split
  · exact passes_escape _ (passes_nil _)
  next hslash =>
  repeat' split
  · exact passes_escape _ (passes_nil _)
  · exact passes_escape _ (passes_nil _)
  · exact passes_escape _ (passes_nil _)
  · exact passes_escape _ (passes_nil _)
  · exact passes_escape _ (passes_nil _)
  · refine passes_escape _ (passes_of_still fun c' hc' => ?_)
    have hplain : c' ≠ '\\' ∧ c' ≠ '"' := by
      simp only [List.mem_cons, List.not_mem_nil, or_false] at hc'
      rcases hc' with rfl | rfl | rfl | rfl
      · decide
      · decide
      · exact digitChar_plain _ (by omega)
      · exact digitChar_plain _ (by omega)
    exact still_inside hplain.1 hplain.2
  · refine passes_of_still fun c' hc' => ?_
    rw [List.mem_singleton.mp hc']
    exact still_inside hslash hquote

theorem passes_escaped (s : Text) : Passes ⟨.inside, d⟩ (s.flatMap escapeChar) := by
  induction s with
  | nil => exact passes_nil _
  | cons c s ih => exact (passes_escapeChar c).append ih

theorem passes_printString (s : Text) : Passes ⟨.outside, d⟩ (printString s) := by
  obtain ⟨hrun, hheld⟩ := @passes_escaped d s
  simp [Passes, printString, step, hrun, hheld]

theorem still_outside {c : Char} (hc : isNumberChar c = true) : step ⟨.outside, d⟩ c = ⟨.outside, d⟩ := by
  have hnot : ∀ c' ∈ ['"', '[', '{', ']', '}'], c ≠ c' := by
    intro c' hc' heq
    subst heq
    revert hc
    revert hc'
    simp only [List.mem_cons, List.not_mem_nil, or_false]
    rintro (rfl | rfl | rfl | rfl | rfl) <;> decide
  simp at hnot
  simp [step, hnot]

theorem passes_number (n : JsonNumber) : Passes ⟨.outside, d⟩ n.text :=
  passes_of_still fun c hc => still_outside (n.plain c hc)

end Scan

namespace Json

open Scan

mutual

theorem passes_print {d : Nat} : ∀ v : Json, Passes ⟨.outside, d⟩ v.print
  | null => by simp [print, Passes, step]
  | bool true => by simp [print, Passes, step]
  | bool false => by simp [print, Passes, step]
  | number n => by
    rw [print]
    exact passes_number n
  | string s => by
    rw [print]
    exact passes_printString s
  | array items => by
    obtain ⟨hrun, hheld⟩ := @closes_items d true items
    simp [print, Passes, step, hrun, hheld.weaken (Nat.le_succ d)]
  | object fields => by
    obtain ⟨hrun, hheld⟩ := @closes_fields d true fields
    simp [print, Passes, step, hrun, hheld.weaken (Nat.le_succ d)]

/-- The rest of an array closes the bracket that it was opened with. -/
theorem closes_items {d : Nat} (first : Bool) : ∀ items : List Json,
    run ⟨.outside, d + 1⟩ (printItems first items) = ⟨.outside, d⟩ ∧ Held (d + 1) ⟨.outside, d + 1⟩ (printItems first items)
  | [] => by simp [printItems, step]
  | item :: items => by
    obtain ⟨hrun, hheld⟩ := @passes_print (d + 1) item
    obtain ⟨hrun', hheld'⟩ := @closes_items d false items
    cases first <;> simp [printItems, step, hrun, hheld, hrun', hheld']

theorem closes_fields {d : Nat} (first : Bool) : ∀ fields : List (Text × Json),
    run ⟨.outside, d + 1⟩ (printFields first fields) = ⟨.outside, d⟩ ∧
      Held (d + 1) ⟨.outside, d + 1⟩ (printFields first fields)
  | [] => by simp [printFields, step]
  | (key, value) :: fields => by
    obtain ⟨hkey, hheldKey⟩ := @passes_printString (d + 1) key
    obtain ⟨hrun, hheld⟩ := @passes_print (d + 1) value
    obtain ⟨hrun', hheld'⟩ := @closes_fields d false fields
    cases first <;> simp [printFields, step, hkey, hheldKey, hrun, hheld, hrun', hheld']

end

/-- A text in which every bracket and every string is closed. -/
def Closed (t : Text) : Prop := run ⟨.outside, 0⟩ t = ⟨.outside, 0⟩

theorem closed_print (v : Json) : Closed v.print := (passes_print v).1

/-- A proper prefix of a printed object leaves a bracket open. -/
theorem depth_of_cut (fields : List (Text × Json)) {k : Nat} (hpos : 0 < k) (hk : k < (object fields).print.length) :
    0 < (run ⟨.outside, 0⟩ ((object fields).print.take k)).depth := by
  obtain ⟨n, rfl⟩ := Nat.exists_eq_succ_of_ne_zero (Nat.ne_of_gt hpos)
  rw [print] at hk ⊢
  exact (@closes_fields 0 true fields).2.take (by simpa using hk)

end Json

end CorpusFeed
