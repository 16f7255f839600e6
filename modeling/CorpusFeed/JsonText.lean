import CorpusFeed.DecimalText
import Mathlib.Tactic.IntervalCases

/-! JSON values and the compact text that a serializer writes for them. A
printed value ends where its text says it ends, so a text has one value. -/

namespace CorpusFeed

def isNumberChar (c : Char) : Bool := c.isDigit || ['-', '+', '.', 'e', 'E'].contains c

/-- A number, as the text it is printed as. -/
structure JsonNumber where
  text : Text
  nonempty : text ≠ []
  plain : ∀ c ∈ text, isNumberChar c = true
deriving DecidableEq

theorem isNumberChar_intText (n : Int) : ∀ c ∈ intText n, isNumberChar c = true := by
  have hdigits : ∀ c ∈ padDecimal 1 n.natAbs, isNumberChar c = true := by
    intro c hc
    simp [isNumberChar, isDigit_of_mem_padDecimal hc]
  intro c hc
  by_cases hneg : n < 0
  · simp only [intText, hneg, if_true, List.mem_cons] at hc
    rcases hc with rfl | hc
    · rfl
    · exact hdigits c hc
  · simp only [intText, hneg, if_false] at hc
    exact hdigits c hc

theorem intText_ne_nil (n : Int) : intText n ≠ [] := by
  have hlength := le_padDecimal_length 1 n.natAbs
  by_cases hneg : n < 0
  · simp [intText, hneg]
  · simp only [intText, hneg, if_false]
    exact List.ne_nil_of_length_pos hlength

def numberOfInt (n : Int) : JsonNumber := ⟨intText n, intText_ne_nil n, isNumberChar_intText n⟩

inductive Json where
  | null
  | bool (b : Bool)
  | number (n : JsonNumber)
  | string (s : Text)
  | array (items : List Json)
  | object (fields : List (Text × Json))

def hexValue (c : Char) : Nat := if c.isDigit then c.toNat - 48 else c.toNat - 87

/-- The bytes that `"`, `\` and the control characters are written as. -/
def escapeChar (c : Char) : Text :=
  if c = '"' then ['\\', '"']
  else if c = '\\' then ['\\', '\\']
  else if c.toNat = 8 then ['\\', 'b']
  else if c.toNat = 9 then ['\\', 't']
  else if c.toNat = 10 then ['\\', 'n']
  else if c.toNat = 12 then ['\\', 'f']
  else if c.toNat = 13 then ['\\', 'r']
  else if c.toNat < 32 then ['\\', 'u', '0', '0', Nat.digitChar (c.toNat / 16), Nat.digitChar (c.toNat % 16)]
  else [c]

def printString (s : Text) : Text := '"' :: (s.flatMap escapeChar ++ ['"'])

namespace Json

mutual

def print : Json → Text
  | null => ['n', 'u', 'l', 'l']
  | bool true => ['t', 'r', 'u', 'e']
  | bool false => ['f', 'a', 'l', 's', 'e']
  | number n => n.text
  | string s => printString s
  | array items => '[' :: printItems true items
  | object fields => '{' :: printFields true fields

/-- The comma stands before every item but the first. -/
def printItems (first : Bool) : List Json → Text
  | [] => [']']
  | item :: items => (if first then [] else [',']) ++ (print item ++ printItems false items)

def printFields (first : Bool) : List (Text × Json) → Text
  | [] => ['}']
  | (key, value) :: fields =>
    (if first then [] else [',']) ++ (printString key ++ ':' :: (print value ++ printFields false fields))

end

end Json

/-- The character that a string continues with, and what follows it. -/
def readEscaped : Text → Option (Char × Text)
  | '\\' :: 'b' :: rest => some (Char.ofNat 8, rest)
  | '\\' :: 't' :: rest => some (Char.ofNat 9, rest)
  | '\\' :: 'n' :: rest => some (Char.ofNat 10, rest)
  | '\\' :: 'f' :: rest => some (Char.ofNat 12, rest)
  | '\\' :: 'r' :: rest => some (Char.ofNat 13, rest)
  | '\\' :: 'u' :: _ :: _ :: high :: low :: rest =>
    some (Char.ofNat (16 * hexValue high + hexValue low), rest)
  | '\\' :: c :: rest => some (c, rest)
  | c :: rest => some (c, rest)
  | [] => none

example : Json.print (.object [("a".toList, .array [.null, .bool true]), ("b".toList, .string "x\ny".toList)]) =
    "\x7b\"a\":[null,true],\"b\":\"x\\ny\"\x7d".toList := by decide

theorem control_cases {c : Char} (h : c.toNat < 32) : ∃ n < 32, c = Char.ofNat n :=
  ⟨c.toNat, h, (Char.ofNat_toNat c).symm⟩

theorem readEscaped_escapeChar (c : Char) (rest : Text) : readEscaped (escapeChar c ++ rest) = some (c, rest) := by
  by_cases hcontrol : c.toNat < 32
  · obtain ⟨n, hn, rfl⟩ := control_cases hcontrol
    interval_cases n <;> rfl
  · by_cases hquote : c = '"'
    · subst hquote
      rfl
    · by_cases hslash : c = '\\'
      · subst hslash
        rfl
      · have hplain : escapeChar c = [c] := by
          simp only [escapeChar, hquote, hslash, hcontrol, if_false]
          simp only [show c.toNat ≠ 8 by omega, show c.toNat ≠ 9 by omega, show c.toNat ≠ 10 by omega,
            show c.toNat ≠ 12 by omega, show c.toNat ≠ 13 by omega, if_false]
        rw [hplain]
        unfold readEscaped
        simp [hslash]

theorem escapeChar_append_inj {c d : Char} {x y : Text} (h : escapeChar c ++ x = escapeChar d ++ y) :
    c = d ∧ x = y := by
  have hread := congrArg readEscaped h
  simpa [readEscaped_escapeChar] using hread

theorem escapeChar_head (c : Char) : ∃ d rest, escapeChar c = d :: rest ∧ d ≠ '"' := by
  unfold escapeChar
  split_ifs with hquote
  all_goals first
    | exact ⟨_, _, rfl, hquote⟩
    | exact ⟨_, _, rfl, by decide⟩

theorem printed_of_all {t : Text} {c : Char} (ht : (t.all fun d => decide (32 ≤ d.toNat)) = true) (h : c ∈ t) :
    32 ≤ c.toNat :=
  forall_mem_of_all ht c h

theorem escapeChar_printed {c d : Char} (h : d ∈ escapeChar c) : 32 ≤ d.toNat := by
  by_cases hcontrol : c.toNat < 32
  · obtain ⟨n, hn, rfl⟩ := control_cases hcontrol
    interval_cases n <;> exact printed_of_all (by decide) h
  · unfold escapeChar at h
    split_ifs at h
    all_goals simp at h
    all_goals first
      | omega
      | (rcases h with rfl | rfl <;> decide)
      | (subst h; omega)

theorem printString_printed {s : Text} {c : Char} (h : c ∈ printString s) : 32 ≤ c.toNat := by
  simp only [printString, List.mem_cons, List.mem_append, List.mem_flatMap, List.not_mem_nil, or_false] at h
  rcases h with rfl | ⟨d, _, hc⟩ | rfl
  · decide
  · exact escapeChar_printed hc
  · decide

theorem printed_of_isNumberChar {c : Char} (h : isNumberChar c = true) : 32 ≤ c.toNat := by
  rw [isNumberChar, Bool.or_eq_true] at h
  rcases h with hdigit | hsign
  · simp only [Char.isDigit, Bool.and_eq_true, decide_eq_true_eq] at hdigit
    have hle : 48 ≤ c.val.toNat := UInt32.le_iff_toNat_le.mp hdigit.1
    exact Nat.le_trans (by decide) hle
  · have hmem := List.contains_iff_mem.mp hsign
    exact printed_of_all (by decide) hmem

theorem printString_append_inj {s t x y : Text} (h : printString s ++ x = printString t ++ y) : s = t ∧ x = y := by
  simp only [printString, List.cons_append, List.cons.injEq, true_and, List.append_assoc, List.nil_append] at h
  induction s generalizing t with
  | nil =>
    cases t with
    | nil => simpa using h
    | cons d t =>
      obtain ⟨e, rest, he, hne⟩ := escapeChar_head d
      simp only [List.flatMap_nil, List.nil_append, List.flatMap_cons, he, List.cons_append, List.cons.injEq] at h
      exact absurd h.1.symm hne
  | cons c s ih =>
    cases t with
    | nil =>
      obtain ⟨e, rest, he, hne⟩ := escapeChar_head c
      simp only [List.flatMap_nil, List.nil_append, List.flatMap_cons, he, List.cons_append, List.cons.injEq] at h
      exact absurd h.1 hne
    | cons d t =>
      simp only [List.flatMap_cons, List.append_assoc] at h
      obtain ⟨rfl, htail⟩ := escapeChar_append_inj h
      obtain ⟨rfl, hrest⟩ := ih htail
      exact ⟨rfl, hrest⟩

/-- A text that does not continue a number. -/
def Stops (x : Text) : Prop := ∀ c ∈ x.head?, isNumberChar c = false

theorem takeWhile_append_stops {n x : Text} (hn : ∀ c ∈ n, isNumberChar c = true) (hx : Stops x) :
    (n ++ x).takeWhile isNumberChar = n := by
  rw [List.takeWhile_append_of_pos hn]
  cases x with
  | nil => simp
  | cons c x => simp [hx c rfl]

theorem number_append_inj {m n : JsonNumber} {x y : Text} (hx : Stops x) (hy : Stops y)
    (h : m.text ++ x = n.text ++ y) : m = n ∧ x = y := by
  have htexts : m.text = n.text := by
    calc m.text = (m.text ++ x).takeWhile isNumberChar := (takeWhile_append_stops m.plain hx).symm
      _ = (n.text ++ y).takeWhile isNumberChar := by rw [h]
      _ = n.text := takeWhile_append_stops n.plain hy
  refine ⟨?_, List.append_cancel_left (htexts ▸ h)⟩
  cases m
  cases n
  simpa using htexts

namespace Json

/-- The first character of a printed value tells its kind. -/
def kindOf : Json → Char → Prop
  | null => (· = 'n')
  | bool true => (· = 't')
  | bool false => (· = 'f')
  | number _ => (isNumberChar · = true)
  | string _ => (· = '"')
  | array _ => (· = '[')
  | object _ => (· = '{')

theorem print_head (a : Json) : ∃ c rest, a.print = c :: rest ∧ a.kindOf c := by
  match a with
  | null => exact ⟨_, _, by rw [print], rfl⟩
  | bool true => exact ⟨_, _, by rw [print], rfl⟩
  | bool false => exact ⟨_, _, by rw [print], rfl⟩
  | number n =>
    obtain ⟨c, rest, hn⟩ := List.exists_cons_of_ne_nil n.nonempty
    exact ⟨c, rest, by rw [print, hn], n.plain c (by simp [hn])⟩
  | string s => exact ⟨_, _, by rw [print, printString], rfl⟩
  | array items => exact ⟨_, _, by rw [print], rfl⟩
  | object fields => exact ⟨_, _, by rw [print], rfl⟩

def kind : Json → Nat
  | null => 0
  | bool true => 1
  | bool false => 2
  | number _ => 3
  | string _ => 4
  | array _ => 5
  | object _ => 6

theorem kind_eq_of_kindOf {a b : Json} {c : Char} (ha : a.kindOf c) (hb : b.kindOf c) : a.kind = b.kind := by
  rcases a with _ | (_ | _) | _ | _ | _ | _ <;> rcases b with _ | (_ | _) | _ | _ | _ | _ <;>
    simp only [kindOf] at ha hb <;> first
      | rfl
      | (subst ha; simp [isNumberChar] at hb)
      | (subst hb; simp [isNumberChar] at ha)

theorem kind_eq_of_print {a b : Json} {x y : Text} (h : a.print ++ x = b.print ++ y) : a.kind = b.kind := by
  obtain ⟨c, rest, ha, hc⟩ := print_head a
  obtain ⟨d, rest', hb, hd⟩ := print_head b
  rw [ha, hb, List.cons_append, List.cons_append] at h
  exact kind_eq_of_kindOf hc ((List.cons.inj h).1 ▸ hd)

theorem print_ne_close {a : Json} {x y : Text} {c : Char} (hc : c = ']' ∨ c = '}') : a.print ++ x ≠ c :: y := by
  obtain ⟨d, rest, ha, hd⟩ := print_head a
  intro h
  rw [ha, List.cons_append] at h
  obtain rfl := (List.cons.inj h).1
  rcases hc with rfl | rfl <;> rcases a with _ | (_ | _) | _ | _ | _ | _ <;> simp [kindOf, isNumberChar] at hd

theorem stops_items {items : List Json} {x : Text} : Stops (printItems false items ++ x) := by
  cases items <;> simp [Stops, printItems, isNumberChar]

theorem stops_fields {fields : List (Text × Json)} {x : Text} : Stops (printFields false fields ++ x) := by
  cases fields <;> simp [Stops, printFields, isNumberChar]

mutual

theorem print_append_inj {x y : Text} (hx : Stops x) (hy : Stops y) :
    ∀ a b : Json, a.print ++ x = b.print ++ y → a = b ∧ x = y
  | null, b, h => by
    have hkind := kind_eq_of_print h
    rcases b with _ | (_ | _) | _ | _ | _ | _ <;> simp [kind] at hkind
    simpa [print] using h
  | bool c, b, h => by
    have hkind := kind_eq_of_print h
    rcases c with _ | _ <;> rcases b with _ | (_ | _) | _ | _ | _ | _ <;> simp [kind] at hkind
    all_goals simpa [print] using h
  | number m, b, h => by
    have hkind := kind_eq_of_print h
    rcases b with _ | (_ | _) | n | _ | _ | _ <;> simp [kind] at hkind
    rw [print, print] at h
    obtain ⟨rfl, hxy⟩ := number_append_inj hx hy h
    exact ⟨rfl, hxy⟩
  | string s, b, h => by
    have hkind := kind_eq_of_print h
    rcases b with _ | (_ | _) | _ | t | _ | _ <;> simp [kind] at hkind
    rw [print, print] at h
    obtain ⟨rfl, hxy⟩ := printString_append_inj h
    exact ⟨rfl, hxy⟩
  | array items, b, h => by
    have hkind := kind_eq_of_print h
    rcases b with _ | (_ | _) | _ | _ | items' | _ <;> simp [kind] at hkind
    rw [print, print, List.cons_append, List.cons_append] at h
    obtain ⟨rfl, hxy⟩ := printItems_append_inj true items items' (List.cons.inj h).2
    exact ⟨rfl, hxy⟩
  | object fields, b, h => by
    have hkind := kind_eq_of_print h
    rcases b with _ | (_ | _) | _ | _ | _ | fields' <;> simp [kind] at hkind
    rw [print, print, List.cons_append, List.cons_append] at h
    obtain ⟨rfl, hxy⟩ := printFields_append_inj true fields fields' (List.cons.inj h).2
    exact ⟨rfl, hxy⟩

theorem printItems_append_inj {x y : Text} (first : Bool) :
    ∀ as bs : List Json, printItems first as ++ x = printItems first bs ++ y → as = bs ∧ x = y
  | [], [], h => by simpa [printItems] using h
  | [], b :: bs, h => by
    cases first with
    | false => simp [printItems] at h
    | true =>
      simp only [printItems, if_true, List.nil_append, List.append_assoc, List.cons_append] at h
      exact absurd h.symm (print_ne_close (Or.inl rfl))
  | a :: as, [], h => by
    cases first with
    | false => simp [printItems] at h
    | true =>
      simp only [printItems, if_true, List.nil_append, List.append_assoc, List.cons_append] at h
      exact absurd h (print_ne_close (Or.inl rfl))
  | a :: as, b :: bs, h => by
    have htail : a.print ++ (printItems false as ++ x) = b.print ++ (printItems false bs ++ y) := by
      cases first <;> simpa [printItems] using h
    obtain ⟨rfl, hrest⟩ := print_append_inj stops_items stops_items a b htail
    obtain ⟨rfl, hxy⟩ := printItems_append_inj false as bs hrest
    exact ⟨rfl, hxy⟩

theorem printFields_append_inj {x y : Text} (first : Bool) :
    ∀ as bs : List (Text × Json), printFields first as ++ x = printFields first bs ++ y → as = bs ∧ x = y
  | [], [], h => by simpa [printFields] using h
  | [], (_, _) :: _, h => by cases first <;> simp [printFields, printString] at h
  | (_, _) :: _, [], h => by cases first <;> simp [printFields, printString] at h
  | (key, a) :: as, (key', b) :: bs, h => by
    have htail : printString key ++ ':' :: (a.print ++ (printFields false as ++ x)) =
        printString key' ++ ':' :: (b.print ++ (printFields false bs ++ y)) := by
      cases first <;> simpa [printFields] using h
    obtain ⟨rfl, hvalue⟩ := printString_append_inj htail
    obtain ⟨rfl, hrest⟩ := print_append_inj stops_fields stops_fields a b (List.cons.inj hvalue).2
    obtain ⟨rfl, hxy⟩ := printFields_append_inj false as bs hrest
    exact ⟨rfl, hxy⟩

end

mutual

/-- A printed value has no control character. -/
theorem print_printed {c : Char} : ∀ v : Json, c ∈ v.print → 32 ≤ c.toNat
  | null, h => by
    rw [print] at h
    exact printed_of_all (by decide) h
  | bool true, h => by
    rw [print] at h
    exact printed_of_all (by decide) h
  | bool false, h => by
    rw [print] at h
    exact printed_of_all (by decide) h
  | number n, h => by
    rw [print] at h
    exact printed_of_isNumberChar (n.plain c h)
  | string s, h => by
    rw [print] at h
    exact printString_printed h
  | array items, h => by
    rw [print] at h
    rcases List.mem_cons.mp h with rfl | h
    · decide
    · exact printItems_printed true items h
  | object fields, h => by
    rw [print] at h
    rcases List.mem_cons.mp h with rfl | h
    · decide
    · exact printFields_printed true fields h

theorem printItems_printed {c : Char} (first : Bool) : ∀ items : List Json, c ∈ printItems first items → 32 ≤ c.toNat
  | [], h => by
    rw [printItems] at h
    rw [List.mem_singleton.mp h]
    decide
  | item :: items, h => by
    rw [printItems, List.mem_append, List.mem_append] at h
    rcases h with h | h | h
    · cases first
      · rw [List.mem_singleton.mp h]
        decide
      · cases h
    · exact print_printed item h
    · exact printItems_printed false items h

theorem printFields_printed {c : Char} (first : Bool) :
    ∀ fields : List (Text × Json), c ∈ printFields first fields → 32 ≤ c.toNat
  | [], h => by
    rw [printFields] at h
    rw [List.mem_singleton.mp h]
    decide
  | (key, value) :: fields, h => by
    rw [printFields, List.mem_append, List.mem_append, List.mem_cons, List.mem_append] at h
    rcases h with h | h | rfl | h | h
    · cases first
      · rw [List.mem_singleton.mp h]
        decide
      · cases h
    · exact printString_printed h
    · decide
    · exact print_printed value h
    · exact printFields_printed false fields h

end

theorem newline_not_mem_print (v : Json) : '\n' ∉ v.print := fun h => absurd (print_printed v h) (by decide)

theorem printFields_ends (first : Bool) (fields : List (Text × Json)) : ∃ t, printFields first fields = t ++ ['}'] := by
  induction fields generalizing first with
  | nil => exact ⟨[], by rw [printFields, List.nil_append]⟩
  | cons field fields ih =>
    obtain ⟨t, ht⟩ := ih false
    rw [printFields, ht]
    exact ⟨(if first then [] else [',']) ++ (printString field.1 ++ ':' :: (print field.2 ++ t)), by simp⟩

theorem print_object_ends (fields : List (Text × Json)) : ∃ t, (object fields).print = '{' :: (t ++ ['}']) := by
  obtain ⟨t, ht⟩ := printFields_ends true fields
  exact ⟨t, by rw [print, ht]⟩

theorem print_injective : Function.Injective print := by
  intro a b h
  have hnil : Stops [] := by simp [Stops]
  exact (print_append_inj hnil hnil a b (congrArg (· ++ []) h)).1

end Json

end CorpusFeed
