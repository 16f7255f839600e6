import CorpusFeed.JsonNesting

/-! The pretty printer of `serde_json`. Its layout stands between the tokens: without
it the text is the compact one. -/

namespace CorpusFeed

def lineBreak (level : Nat) : Text := '\n' :: List.replicate (2 * level) ' '

namespace Json

mutual

def pretty (level : Nat) : Json → Text
  | null => print null
  | bool b => print (bool b)
  | number n => print (number n)
  | string s => print (string s)
  | array items => '[' :: prettyItems level true items
  | object fields => '{' :: prettyFields level true fields

/-- An empty array is closed on its line. -/
def prettyItems (level : Nat) (first : Bool) : List Json → Text
  | [] => (if first then [] else lineBreak level) ++ [']']
  | item :: items =>
    (if first then [] else [',']) ++
      (lineBreak (level + 1) ++ (pretty (level + 1) item ++ prettyItems level false items))

def prettyFields (level : Nat) (first : Bool) : List (Text × Json) → Text
  | [] => (if first then [] else lineBreak level) ++ ['}']
  | (key, value) :: fields =>
    (if first then [] else [',']) ++
      (lineBreak (level + 1) ++
        (printString key ++ ':' :: ' ' :: (pretty (level + 1) value ++ prettyFields level false fields)))

end

example : pretty 0 (.object [("a".toList, .array [.null, .array []]), ("b".toList, .string "x y".toList)]) =
    "\x7b\n  \"a\": [\n    null,\n    []\n  ],\n  \"b\": \"x y\"\n\x7d".toList := by decide +kernel

end Json

namespace Scan

/-- The text without the layout outside its strings. -/
def compact : Scan → Text → Text
  | _, [] => []
  | s, c :: t => (if s.mode = .outside ∧ (c = ' ' ∨ c = '\n') then [] else [c]) ++ compact (s.step c) t

variable {d : Nat}

@[simp] theorem compact_nil (s : Scan) : s.compact [] = [] := rfl

@[simp] theorem compact_append (s : Scan) (t u : Text) : s.compact (t ++ u) = s.compact t ++ (s.run t).compact u := by
  induction t generalizing s with
  | nil => rfl
  | cons c t ih => simp [compact, ih]

theorem compact_of_kept {s : Scan} {t : Text} (hstill : ∀ c ∈ t, s.step c = s)
    (hkept : ∀ c ∈ t, s.mode = .outside → c ≠ ' ' ∧ c ≠ '\n') : s.compact t = t := by
  induction t with
  | nil => rfl
  | cons c t ih =>
    have hrest := ih (fun c' hc' => hstill c' (List.mem_cons_of_mem c hc'))
      fun c' hc' => hkept c' (List.mem_cons_of_mem c hc')
    have hc : ¬ (s.mode = .outside ∧ (c = ' ' ∨ c = '\n')) := by
      rintro ⟨hmode, hlayout⟩
      obtain ⟨hspace, hfeed⟩ := hkept c List.mem_cons_self hmode
      exact hlayout.elim hspace hfeed
    rw [compact, if_neg hc, hstill c List.mem_cons_self, hrest]
    rfl

theorem compact_lineBreak (level : Nat) :
    compact ⟨.outside, d⟩ (lineBreak level) = [] ∧ run ⟨.outside, d⟩ (lineBreak level) = ⟨.outside, d⟩ := by
  have hspaces : ∀ n, compact ⟨.outside, d⟩ (List.replicate n ' ') = [] ∧
      run ⟨.outside, d⟩ (List.replicate n ' ') = ⟨.outside, d⟩ := by
    intro n
    induction n with
    | zero => exact ⟨rfl, rfl⟩
    | succ n ih => simpa [List.replicate_succ, compact, step] using ih
  simpa [lineBreak, compact, step] using hspaces (2 * level)

theorem compact_escapeChar (c : Char) : compact ⟨.inside, d⟩ (escapeChar c) = escapeChar c := by
  have hescape : ∀ c' : Char, ∀ t, compact ⟨.inside, d⟩ t = t → compact ⟨.inside, d⟩ ('\\' :: c' :: t) = '\\' :: c' :: t := by
    intro c' t ht
    simp [compact, step, ht]
  unfold escapeChar
  split
  · exact hescape _ _ rfl
  next hquote =>
  split
  · exact hescape _ _ rfl
  next hslash =>
  repeat' split
  · exact hescape _ _ rfl
  · exact hescape _ _ rfl
  · exact hescape _ _ rfl
  · exact hescape _ _ rfl
  · exact hescape _ _ rfl
  · refine hescape _ _ (compact_of_kept (fun c' hc' => ?_) fun _ _ hmode => by cases hmode)
    have hplain : c' ≠ '\\' ∧ c' ≠ '"' := by
      simp only [List.mem_cons, List.not_mem_nil, or_false] at hc'
      rcases hc' with rfl | rfl | rfl | rfl
      · decide
      · decide
      · exact digitChar_plain _ (by omega)
      · exact digitChar_plain _ (by omega)
    exact still_inside hplain.1 hplain.2
  · refine compact_of_kept (fun c' hc' => ?_) fun _ _ hmode => by cases hmode
    rw [List.mem_singleton.mp hc']
    exact still_inside hslash hquote

theorem compact_printString (s : Text) : compact ⟨.outside, d⟩ (printString s) = printString s := by
  have hescaped : compact ⟨.inside, d⟩ (s.flatMap escapeChar) = s.flatMap escapeChar := by
    induction s with
    | nil => rfl
    | cons c s ih => rw [List.flatMap_cons, compact_append, compact_escapeChar, (passes_escapeChar c).1, ih]
  have hrun := (@passes_escaped d s).1
  simp [printString, compact, step, hescaped, hrun]

theorem compact_number (n : JsonNumber) : compact ⟨.outside, d⟩ n.text = n.text := by
  refine compact_of_kept (fun c hc => still_outside (n.plain c hc)) fun c hc _ => ?_
  have hplain := n.plain c hc
  constructor
  · rintro rfl
    exact absurd hplain (by decide)
  · rintro rfl
    exact absurd hplain (by decide)

end Scan

namespace Json

open Scan

mutual

theorem compact_pretty {d : Nat} : ∀ (level : Nat) (v : Json),
    compact ⟨.outside, d⟩ (v.pretty level) = v.print ∧ run ⟨.outside, d⟩ (v.pretty level) = ⟨.outside, d⟩
  | _, null => ⟨by simp [pretty, print, compact, step], (passes_print null).1⟩
  | _, bool true => ⟨by simp [pretty, print, compact, step], (passes_print (bool true)).1⟩
  | _, bool false => ⟨by simp [pretty, print, compact, step], (passes_print (bool false)).1⟩
  | _, number n => ⟨compact_number n, (passes_print (number n)).1⟩
  | _, string s => ⟨compact_printString s, (passes_print (string s)).1⟩
  | level, array items => by
    obtain ⟨hitems, hrun⟩ := @compact_prettyItems d level true items
    simp [pretty, print, compact, step, hitems, hrun]
  | level, object fields => by
    obtain ⟨hfields, hrun⟩ := @compact_prettyFields d level true fields
    simp [pretty, print, compact, step, hfields, hrun]

theorem compact_prettyItems {d : Nat} (level : Nat) (first : Bool) : ∀ items : List Json,
    compact ⟨.outside, d + 1⟩ (prettyItems level first items) = printItems first items ∧
      run ⟨.outside, d + 1⟩ (prettyItems level first items) = ⟨.outside, d⟩
  | [] => by
    obtain ⟨hbreak, hrun⟩ := @compact_lineBreak (d + 1) level
    cases first <;> simp [prettyItems, printItems, compact, step, hbreak, hrun]
  | item :: items => by
    obtain ⟨hbreak, hrunBreak⟩ := @compact_lineBreak (d + 1) (level + 1)
    obtain ⟨hitem, hrun⟩ := @compact_pretty (d + 1) (level + 1) item
    obtain ⟨hitems, hrun'⟩ := @compact_prettyItems d level false items
    cases first <;> simp [prettyItems, printItems, compact, step, hbreak, hrunBreak, hitem, hrun, hitems, hrun']

theorem compact_prettyFields {d : Nat} (level : Nat) (first : Bool) : ∀ fields : List (Text × Json),
    compact ⟨.outside, d + 1⟩ (prettyFields level first fields) = printFields first fields ∧
      run ⟨.outside, d + 1⟩ (prettyFields level first fields) = ⟨.outside, d⟩
  | [] => by
    obtain ⟨hbreak, hrun⟩ := @compact_lineBreak (d + 1) level
    cases first <;> simp [prettyFields, printFields, compact, step, hbreak, hrun]
  | (key, value) :: fields => by
    obtain ⟨hbreak, hrunBreak⟩ := @compact_lineBreak (d + 1) (level + 1)
    have hkey := @compact_printString (d + 1) key
    have hrunKey := (@passes_printString (d + 1) key).1
    obtain ⟨hvalue, hrun⟩ := @compact_pretty (d + 1) (level + 1) value
    obtain ⟨hfields, hrun'⟩ := @compact_prettyFields d level false fields
    cases first <;>
      simp [prettyFields, printFields, compact, step, hbreak, hrunBreak, hkey, hrunKey, hvalue, hrun, hfields, hrun']

end

theorem pretty_injective (level : Nat) : Function.Injective (pretty level) := by
  intro v w h
  apply print_injective
  rw [← (@compact_pretty 0 level v).1, ← (@compact_pretty 0 level w).1, h]

end Json

end CorpusFeed
