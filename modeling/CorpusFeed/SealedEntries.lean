import Mathlib.Data.List.Basic
import Mathlib.Data.List.Flatten

/-! Lists of named values written as `name=value|name=value`. Values have one
length and do not hold the sign before them, names are arbitrary. A name that
holds such a value between the two signs reads as several entries. -/

namespace CorpusFeed

structure SealedFormat (α : Type*) where
  assign : α
  bar : α
  isValue : List α → Bool
  width : ℕ
  length_eq : ∀ v, isValue v = true → v.length = width
  assign_not_mem : ∀ v, isValue v = true → assign ∉ v
  assign_ne_bar : assign ≠ bar

namespace SealedFormat

variable {α : Type*} (format : SealedFormat α)

def joined (entries : List (List α × List α)) : List α :=
  List.intercalate [format.bar] (entries.map fun entry => entry.1 ++ [format.assign] ++ entry.2)

def line (entry : List α × List α) : List α := entry.1 ++ format.assign :: (entry.2 ++ [format.bar])

def text (entries : List (List α × List α)) : List α := entries.flatMap format.line

variable [DecidableEq α]

/-- The value between the two signs at the start of a text, and what follows. -/
def sealed? : List α → Option (List α × List α)
  | [] => none
  | c :: rest =>
    if c = format.assign ∧ format.isValue (rest.take format.width) = true ∧ rest[format.width]? = some format.bar then
      some (rest.take format.width, rest.drop (format.width + 1))
    else none

theorem sealed?_eq_some {t v after : List α} :
    format.sealed? t = some (v, after) ↔ format.isValue v = true ∧ t = format.assign :: (v ++ format.bar :: after) := by
  cases t with
  | nil => simp [sealed?]
  | cons c rest =>
    simp only [sealed?, List.cons.injEq]
    constructor
    · intro h
      split at h
      · next hseal =>
        obtain ⟨hc, hvalue, hbar⟩ := hseal
        cases h
        have hlt : format.width < rest.length := (List.getElem?_eq_some_iff.mp hbar).1
        have hget : rest[format.width] = format.bar := (List.getElem?_eq_some_iff.mp hbar).2
        have hdrop : rest.drop format.width = format.bar :: rest.drop (format.width + 1) := by
          rw [List.drop_eq_getElem_cons hlt, hget]
        refine ⟨hvalue, hc, ?_⟩
        rw [← hdrop, List.take_append_drop]
      · cases h
    · rintro ⟨hvalue, hc, hrest⟩
      have hlength := format.length_eq v hvalue
      have htake : rest.take format.width = v := by rw [hrest, ← hlength, List.take_left]
      have hget : rest[format.width]? = some format.bar := by
        rw [hrest, ← hlength, List.getElem?_append_right (Nat.le_refl _), Nat.sub_self]
        rfl
      have hdrop : rest.drop (format.width + 1) = after := by
        rw [hrest, ← hlength, ← List.drop_drop, List.drop_left]
        rfl
      rw [if_pos ⟨hc, htake ▸ hvalue, hget⟩, htake, hdrop]

theorem sealed?_length {t v after : List α} (h : format.sealed? t = some (v, after)) : after.length < t.length := by
  obtain ⟨_, rfl⟩ := (format.sealed?_eq_some).mp h
  simp only [List.length_cons, List.length_append]
  omega

/-- A value at the start of a line lies within the name. -/
theorem sealed?_line {c : α} {name v rest u after : List α} :
    format.sealed? (c :: (name ++ format.assign :: (v ++ format.bar :: rest))) = some (u, after) ↔
      ∃ left, c = format.assign ∧ format.isValue u = true ∧ name = u ++ format.bar :: left ∧
        after = left ++ format.assign :: (v ++ format.bar :: rest) := by
  rw [sealed?_eq_some, List.cons.injEq]
  constructor
  · rintro ⟨hvalue, hc, heq⟩
    rcases List.append_eq_append_iff.mp heq with ⟨mid, hu, hmid⟩ | ⟨mid, hname, hmid⟩
    · cases mid with
      | nil => exact absurd (List.cons.inj hmid).1 format.assign_ne_bar
      | cons d mid =>
        have hmem : format.assign ∈ u := by
          rw [hu, (List.cons.inj hmid).1]
          exact List.mem_append_right name List.mem_cons_self
        exact absurd hmem (format.assign_not_mem u hvalue)
    · cases mid with
      | nil => exact absurd (List.cons.inj hmid).1.symm format.assign_ne_bar
      | cons d left =>
        obtain ⟨rfl, hafter⟩ := List.cons.inj hmid
        exact ⟨left, hc, hvalue, hname, hafter⟩
  · rintro ⟨left, hc, hvalue, hname, hafter⟩
    refine ⟨hvalue, hc, ?_⟩
    rw [hname, hafter, List.append_assoc, List.cons_append]

/-- The entries that a text reads as, `name` being what was read of the first
name. -/
def cut (name t : List α) : List (List α × List α) :=
  match t with
  | [] => []
  | c :: rest =>
    match _h : format.sealed? (c :: rest) with
    | some (v, after) => (name, v) :: cut [] after
    | none => cut (name ++ [c]) rest
termination_by t.length
decreasing_by
  · exact format.sealed?_length ‹_›
  · simp

theorem cut_of_sealed {name t v after : List α} (h : format.sealed? t = some (v, after)) :
    format.cut name t = (name, v) :: format.cut [] after := by
  cases t with
  | nil => cases h
  | cons c rest =>
    rw [cut]
    split
    · next hs =>
      rw [h] at hs
      cases hs
      rfl
    · next hs =>
      rw [h] at hs
      cases hs

theorem cut_of_none {name rest : List α} {c : α} (h : format.sealed? (c :: rest) = none) :
    format.cut name (c :: rest) = format.cut (name ++ [c]) rest := by
  rw [cut]
  split
  · next hs =>
    rw [h] at hs
    cases hs
  · rfl

theorem cut_line {v : List α} (hv : format.isValue v = true) (rest : List α) (n : ℕ) (name before : List α)
    (hn : name.length ≤ n) :
    format.cut before (name ++ format.assign :: (v ++ format.bar :: rest)) =
      format.cut before (name ++ format.assign :: (v ++ [format.bar])) ++ format.cut [] rest := by
  induction n generalizing name before with
  | zero =>
    have hnil : name = [] := List.length_eq_zero_iff.mp (by omega)
    have hlong : format.sealed? (format.assign :: (v ++ format.bar :: rest)) = some (v, rest) :=
      format.sealed?_eq_some.mpr ⟨hv, rfl⟩
    have hshort : format.sealed? (format.assign :: (v ++ [format.bar])) = some (v, []) :=
      format.sealed?_eq_some.mpr ⟨hv, rfl⟩
    have hend : format.cut [] ([] : List α) = [] := by rw [cut]
    rw [hnil, List.nil_append, List.nil_append, cut_of_sealed format hlong, cut_of_sealed format hshort, hend]
    rfl
  | succ n ih =>
    cases name with
    | nil => exact ih [] before (Nat.zero_le n)
    | cons c name =>
      simp only [List.length_cons] at hn
      rw [List.cons_append, List.cons_append]
      cases hs : format.sealed? (c :: (name ++ format.assign :: (v ++ format.bar :: rest))) with
      | some found =>
        obtain ⟨u, after⟩ := found
        obtain ⟨left, hc, hvalue, hname, rfl⟩ := format.sealed?_line.mp hs
        have hshort : format.sealed? (c :: (name ++ format.assign :: (v ++ [format.bar]))) =
            some (u, left ++ format.assign :: (v ++ [format.bar])) :=
          format.sealed?_line.mpr ⟨left, hc, hvalue, hname, rfl⟩
        rw [cut_of_sealed format hs, cut_of_sealed format hshort, List.cons_append, ih left []]
        have hlength := congrArg List.length hname
        simp only [List.length_append, List.length_cons] at hlength
        omega
      | none =>
        have hshort : format.sealed? (c :: (name ++ format.assign :: (v ++ [format.bar]))) = none := by
          by_contra hsome
          obtain ⟨found, hfound⟩ := Option.ne_none_iff_exists'.mp hsome
          obtain ⟨left, hc, hvalue, hname, _⟩ := format.sealed?_line.mp hfound
          rw [format.sealed?_line.mpr ⟨left, hc, hvalue, hname, rfl⟩] at hs
          cases hs
        rw [cut_of_none format hs, cut_of_none format hshort, ih name _ (by omega)]

theorem text_cut_line {v : List α} (hv : format.isValue v = true) (n : ℕ) (name before : List α) (hn : name.length ≤ n) :
    format.text (format.cut before (name ++ format.assign :: (v ++ [format.bar]))) =
      before ++ (name ++ format.assign :: (v ++ [format.bar])) := by
  have hend : format.cut [] ([] : List α) = [] := by rw [cut]
  induction n generalizing name before with
  | zero =>
    have hnil : name = [] := List.length_eq_zero_iff.mp (by omega)
    have hseal : format.sealed? (format.assign :: (v ++ [format.bar])) = some (v, []) :=
      format.sealed?_eq_some.mpr ⟨hv, rfl⟩
    rw [hnil, List.nil_append, cut_of_sealed format hseal, hend]
    simp [text, line]
  | succ n ih =>
    cases name with
    | nil => exact ih [] before (Nat.zero_le n)
    | cons c name =>
      simp only [List.length_cons] at hn
      rw [List.cons_append]
      cases hs : format.sealed? (c :: (name ++ format.assign :: (v ++ [format.bar]))) with
      | some found =>
        obtain ⟨u, after⟩ := found
        obtain ⟨left, hc, hvalue, hname, rfl⟩ := format.sealed?_line.mp hs
        have hlength := congrArg List.length hname
        simp only [List.length_append, List.length_cons] at hlength
        have hrest := ih left [] (by omega)
        rw [cut_of_sealed format hs]
        simp only [text, List.flatMap_cons] at hrest ⊢
        rw [hrest, line, hname, hc]
        simp
      | none =>
        rw [cut_of_none format hs, ih name _ (by omega), List.append_assoc]
        rfl

/-- The entries of a list, with every name cut behind the values in it. -/
def pieces (entries : List (List α × List α)) : List (List α × List α) :=
  entries.flatMap fun entry => format.cut [] (format.line entry)

section Entries

variable {format} {entries others : List (List α × List α)}

def Valued (format : SealedFormat α) (entries : List (List α × List α)) : Prop :=
  ∀ entry ∈ entries, format.isValue entry.2 = true

theorem cut_text (h : Valued format entries) : format.cut [] (format.text entries) = format.pieces entries := by
  induction entries with
  | nil => simp [text, pieces, cut]
  | cons entry entries ih =>
    have hvalue := h entry List.mem_cons_self
    have hrest := ih fun e he => h e (List.mem_cons_of_mem entry he)
    have hline := format.cut_line hvalue (format.text entries) entry.1.length entry.1 [] (Nat.le_refl _)
    have htext : format.text (entry :: entries) =
        entry.1 ++ format.assign :: (entry.2 ++ format.bar :: format.text entries) := by
      simp [text, line]
    rw [htext, hline, hrest]
    rfl

theorem text_pieces (h : Valued format entries) : format.text (format.pieces entries) = format.text entries := by
  induction entries with
  | nil => rfl
  | cons entry entries ih =>
    have hvalue := h entry List.mem_cons_self
    have hrest := ih fun e he => h e (List.mem_cons_of_mem entry he)
    have hline := format.text_cut_line hvalue entry.1.length entry.1 [] (Nat.le_refl _)
    simp only [text, pieces, List.flatMap_cons, List.flatMap_append] at hrest hline ⊢
    rw [hrest]
    exact congrArg (· ++ _) hline

theorem text_eq_iff (h : Valued format entries) (h' : Valued format others) :
    format.text entries = format.text others ↔ format.pieces entries = format.pieces others := by
  constructor
  · intro heq
    rw [← cut_text h, heq, cut_text h']
  · intro heq
    rw [← text_pieces h, heq, text_pieces h']

omit [DecidableEq α] in
theorem text_eq_nil : format.text entries = [] ↔ entries = [] := by
  cases entries <;> simp [text, line]

omit [DecidableEq α] in
theorem joined_concat (h : entries ≠ []) : format.joined entries ++ [format.bar] = format.text entries := by
  induction entries with
  | nil => exact absurd rfl h
  | cons entry entries ih =>
    cases entries with
    | nil => simp [joined, text, line]
    | cons next entries =>
      have hrest := ih (List.cons_ne_nil next entries)
      simp only [joined, text, List.map_cons, List.intercalate_cons_cons, List.flatMap_cons] at hrest ⊢
      rw [List.append_assoc, List.append_assoc, hrest]
      simp [line]

omit [DecidableEq α] in
theorem joined_eq_nil : format.joined entries = [] ↔ entries = [] := by
  constructor
  · intro h
    by_contra hne
    have htext : format.joined entries ++ [format.bar] = format.text entries := joined_concat hne
    rw [h, List.nil_append] at htext
    obtain ⟨entry, rest, rfl⟩ := List.exists_cons_of_ne_nil hne
    have hlength := congrArg List.length htext
    simp only [text, line, List.flatMap_cons, List.length_append, List.length_cons, List.length_nil] at hlength
    omega
  · rintro rfl
    rfl

/-- Two lists are written alike when their names cut to the same pieces. -/
theorem joined_eq_iff (h : Valued format entries) (h' : Valued format others) :
    format.joined entries = format.joined others ↔ format.pieces entries = format.pieces others := by
  rw [← text_eq_iff h h']
  by_cases hnil : entries = []
  · rw [joined_eq_nil.mpr hnil, text_eq_nil.mpr hnil, eq_comm, joined_eq_nil, eq_comm (a := []), text_eq_nil]
  · by_cases hnil' : others = []
    · rw [joined_eq_nil.mpr hnil', text_eq_nil.mpr hnil', joined_eq_nil, text_eq_nil]
    · rw [← joined_concat hnil, ← joined_concat hnil', List.append_left_inj]

/-- No value stands between the two signs within the name. -/
def Plain (format : SealedFormat α) (name : List α) : Prop :=
  ∀ v, format.isValue v = true → ¬ format.assign :: (v ++ [format.bar]) <:+: name

theorem cut_plain {v : List α} (hv : format.isValue v = true) {name : List α} (hplain : Plain format name)
    (before : List α) :
    format.cut before (name ++ format.assign :: (v ++ [format.bar])) = [(before ++ name, v)] := by
  induction name generalizing before with
  | nil =>
    have hseal : format.sealed? (format.assign :: (v ++ [format.bar])) = some (v, []) :=
      format.sealed?_eq_some.mpr ⟨hv, rfl⟩
    have hend : format.cut [] ([] : List α) = [] := by rw [cut]
    rw [List.nil_append, cut_of_sealed format hseal, hend, List.append_nil]
  | cons c name ih =>
    have hrest : Plain format name := fun u hu hin => hplain u hu (hin.trans (List.suffix_cons c name).isInfix)
    rw [List.cons_append]
    cases hs : format.sealed? (c :: (name ++ format.assign :: (v ++ [format.bar]))) with
    | some found =>
      obtain ⟨u, after⟩ := found
      obtain ⟨left, rfl, hvalue, rfl, _⟩ := format.sealed?_line.mp hs
      exact absurd ⟨[], left, by simp⟩ (hplain u hvalue)
    | none => rw [cut_of_none format hs, ih hrest, List.append_assoc, List.singleton_append]

theorem pieces_plain (h : Valued format entries) (hplain : ∀ entry ∈ entries, Plain format entry.1) :
    format.pieces entries = entries := by
  induction entries with
  | nil => rfl
  | cons entry entries ih =>
    have hvalue := h entry List.mem_cons_self
    have hname := hplain entry List.mem_cons_self
    have hrest := ih (fun e he => h e (List.mem_cons_of_mem entry he)) fun e he =>
      hplain e (List.mem_cons_of_mem entry he)
    have hline : format.cut [] (format.line entry) = [entry] := cut_plain hvalue hname []
    rw [pieces, List.flatMap_cons, hline, ← pieces, hrest, List.singleton_append]

end Entries

end SealedFormat

end CorpusFeed
