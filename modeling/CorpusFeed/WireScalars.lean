import CorpusFeed.Corpus
import CorpusFeed.FieldCodec
import CorpusFeed.GenerationLabels
import CorpusFeed.PackageContract

/-! The scalar types of the wire documents and their codecs: machine words, corpora,
versions and maps with text keys. -/

namespace CorpusFeed.Wire

/-- The integer that a number is read as. A negative zero is a float, as is a number
with a fraction or an exponent. -/
def integerOf (n : JsonNumber) : Option Int :=
  match n.text with
  | '-' :: digits => (readDecimal digits).bind fun m => if m = 0 then none else some (-(m : Int))
  | digits => (readDecimal digits).map Int.ofNat

theorem integerOf_numberOfInt (n : Int) : integerOf (numberOfInt n) = some n := by
  by_cases hneg : n < 0
  · have htext : (numberOfInt n).text = '-' :: padDecimal 1 n.natAbs := by simp [numberOfInt, intText, hneg]
    have hne : n.natAbs ≠ 0 := by omega
    rw [integerOf, htext]
    simp only [readDecimal_padDecimal, Option.bind_some, hne, if_false]
    congr 1
    omega
  · have htext : (numberOfInt n).text = padDecimal 1 n.natAbs := by simp [numberOfInt, intText, hneg]
    have hdash : ∀ digits, padDecimal 1 n.natAbs ≠ '-' :: digits := by
      intro digits h
      have hmem : '-' ∈ padDecimal 1 n.natAbs := h ▸ List.mem_cons_self
      exact absurd (isDigit_of_mem_padDecimal hmem) (by decide)
    rw [integerOf, htext]
    split
    · next digits h => exact absurd h (hdash digits)
    · rw [readDecimal_padDecimal, Option.map_some]
      congr 1
      exact Int.natAbs_of_nonneg (by omega)

/-- The codec of a type of machine words: a number in its range is read. -/
def word {α : Type} (lower : α → Int) (raise : Int → Option α) (hraise : ∀ a, raise (lower a) = some a)
    (hrange : ∀ a, MachineInteger (lower a)) : Codec α where
  write a := .number (numberOfInt (lower a))
  read
    | .number n => (integerOf n).bind raise
    | _ => none
  read_write a := by
    show (integerOf (numberOfInt (lower a))).bind raise = some a
    rw [integerOf_numberOfInt, Option.bind_some, hraise]
  sorted_inj a b h := by
    have htext : intText (lower a) = intText (lower b) := congrArg JsonNumber.text (Json.number.inj h)
    have hraised := hraise a
    rw [intText_injective htext, hraise] at hraised
    exact (Option.some.inj hraised).symm
  written a := ⟨nofun, Json.Distinct.number _, fun _ hint => Json.Finite.number (hint (lower a) (hrange a))⟩

def readU32 (n : Int) : Option UInt32 := if 0 ≤ n ∧ n < 2 ^ 32 then some (UInt32.ofNat n.toNat) else none

def readU64 (n : Int) : Option UInt64 := if 0 ≤ n ∧ n < 2 ^ 64 then some (UInt64.ofNat n.toNat) else none

def readI32 (n : Int) : Option Int32 := if -2 ^ 31 ≤ n ∧ n < 2 ^ 31 then some (Int32.ofInt n) else none

def u32 : Codec UInt32 :=
  word (fun a => (a.toNat : Int)) readU32
    (by
      intro a
      have hlt := a.toNat_lt
      simp [readU32]
      omega)
    (by
      intro a
      have hlt := a.toNat_lt
      constructor <;> omega)

def u64 : Codec UInt64 :=
  word (fun a => (a.toNat : Int)) readU64
    (by
      intro a
      have hlt := a.toNat_lt
      simp [readU64]
      omega)
    (by
      intro a
      have hlt := a.toNat_lt
      constructor <;> omega)

def i32 : Codec Int32 :=
  word Int32.toInt readI32
    (by
      intro a
      simp only [readI32, a.le_toInt, a.toInt_lt, and_self, if_true, Int32.ofInt_toInt])
    (by
      intro a
      have hle := a.le_toInt
      have hlt := a.toInt_lt
      constructor <;> omega)

def corpus : Codec Corpus :=
  Codec.text.refine Corpus.name (fun name => (Corpus.new name).toOption)
    (by
      intro c
      simp [Corpus.new, c.valid, Except.toOption])

def packageKind : Codec PackageKind :=
  Codec.tokens PackageKind.asStr [.baseline, .rebaseline, .incremental] (by intro a; cases a <;> rfl)

structure Version where
  major : UInt32
  minor : UInt32
  patch : UInt32
deriving DecidableEq

namespace Version

def text (v : Version) : Text :=
  padDecimal 1 v.major.toNat ++ '.' :: (padDecimal 1 v.minor.toNat ++ '.' :: padDecimal 1 v.patch.toNat)

/-- Exactly three components, each an unsigned integer of 32 bits. -/
def parse (text : Text) : Option Version :=
  match text.splitOn '.' with
  | [major, minor, patch] =>
    (parseU32 major).bind fun major => (parseU32 minor).bind fun minor => (parseU32 patch).map fun patch =>
      ⟨major, minor, patch⟩
  | _ => none

theorem parseU32_decimal (n : UInt32) : parseU32 (padDecimal 1 n.toNat) = some n := by
  have hplus : (padDecimal 1 n.toNat).head? ≠ some '+' := by
    intro h
    exact absurd (isDigit_of_mem_padDecimal (List.mem_of_mem_head? h)) (by decide)
  rw [parseU32_unsigned hplus, readDecimal_padDecimal]

theorem splitOn_text (v : Version) :
    v.text.splitOn '.' = [padDecimal 1 v.major.toNat, padDecimal 1 v.minor.toNat, padDecimal 1 v.patch.toNat] := by
  have hdot : ∀ n, '.' ∉ padDecimal 1 n := fun n h => absurd (isDigit_of_mem_padDecimal h) (by decide)
  have hjoined : v.text = List.intercalate ['.']
      [padDecimal 1 v.major.toNat, padDecimal 1 v.minor.toNat, padDecimal 1 v.patch.toNat] := by
    simp [text, List.intercalate]
  rw [hjoined]
  refine List.splitOn_intercalate _ ?_ (by simp)
  intro part hpart
  simp only [List.mem_cons, List.not_mem_nil, or_false] at hpart
  rcases hpart with rfl | rfl | rfl <;> exact hdot _

theorem parse_text (v : Version) : parse v.text = some v := by
  rw [parse, splitOn_text]
  simp only [parseU32_decimal, Option.bind_some, Option.map_some]

end Version

def version : Codec Version := Codec.text.refine Version.text Version.parse Version.parse_text

/-- A later value of a key takes the place of an earlier one. -/
def insertEntry {V : Type} (key : Text) (value : V) : List (Text × V) → List (Text × V)
  | [] => [(key, value)]
  | entry :: entries =>
    if key < entry.1 then (key, value) :: entry :: entries
    else if key = entry.1 then (key, value) :: entries
    else entry :: insertEntry key value entries

theorem mem_insertEntry {V : Type} {key : Text} {value : V} {entries : List (Text × V)} {e : Text × V}
    (h : e ∈ insertEntry key value entries) : e = (key, value) ∨ e ∈ entries := by
  induction entries with
  | nil => simpa [insertEntry] using h
  | cons entry entries ih =>
    rw [insertEntry] at h
    split_ifs at h
    · simpa using h
    · rcases List.mem_cons.mp h with h | h
      · exact Or.inl h
      · exact Or.inr (List.mem_cons_of_mem entry h)
    · rcases List.mem_cons.mp h with rfl | h
      · exact Or.inr List.mem_cons_self
      · rcases ih h with h | h
        · exact Or.inl h
        · exact Or.inr (List.mem_cons_of_mem entry h)

theorem insertEntry_ascending {V : Type} {key : Text} {value : V} {entries : List (Text × V)}
    (h : entries.Pairwise fun a b => a.1 < b.1) : (insertEntry key value entries).Pairwise fun a b => a.1 < b.1 := by
  induction entries with
  | nil => simp [insertEntry]
  | cons entry entries ih =>
    have hboth := List.pairwise_cons.mp h
    rw [insertEntry]
    split_ifs with hlt heq
    · refine List.pairwise_cons.mpr ⟨fun e he => ?_, h⟩
      rcases List.mem_cons.mp he with rfl | he
      · exact hlt
      · exact lt_trans hlt (hboth.1 e he)
    · exact List.pairwise_cons.mpr ⟨fun e he => heq ▸ hboth.1 e he, hboth.2⟩
    · refine List.pairwise_cons.mpr ⟨fun e he => ?_, ih hboth.2⟩
      rcases mem_insertEntry he with rfl | he
      · exact lt_of_le_of_ne (not_lt.mp hlt) fun hkey => heq hkey.symm
      · exact hboth.1 e he

theorem insertEntry_last {V : Type} {key : Text} {value : V} {entries : List (Text × V)}
    (h : ∀ e ∈ entries, e.1 < key) : insertEntry key value entries = entries ++ [(key, value)] := by
  induction entries with
  | nil => rfl
  | cons entry entries ih =>
    have hlt := h entry List.mem_cons_self
    have hrest := ih fun e he => h e (List.mem_cons_of_mem entry he)
    rw [insertEntry, if_neg (not_lt.mpr hlt.le), if_neg hlt.ne', hrest, List.cons_append]

/-- A map from texts, in the order of its keys. -/
structure BTreeMap (V : Type) where
  entries : List (Text × V)
  ascending : entries.Pairwise fun a b => a.1 < b.1

namespace BTreeMap

variable {V : Type}

def empty : BTreeMap V := ⟨[], List.Pairwise.nil⟩

def insert (m : BTreeMap V) (key : Text) (value : V) : BTreeMap V :=
  ⟨insertEntry key value m.entries, insertEntry_ascending m.ascending⟩

theorem ext {m m' : BTreeMap V} (h : m.entries = m'.entries) : m = m' := by
  cases m
  cases m'
  simpa using h

def ofList (entries : List (Text × V)) : BTreeMap V := entries.foldl (fun m entry => m.insert entry.1 entry.2) empty

theorem foldl_insert {m : BTreeMap V} {rest : List (Text × V)}
    (h : (m.entries ++ rest).Pairwise fun a b => a.1 < b.1) :
    (rest.foldl (fun m entry => m.insert entry.1 entry.2) m).entries = m.entries ++ rest := by
  induction rest generalizing m with
  | nil => rw [List.foldl_nil, List.append_nil]
  | cons entry rest ih =>
    have hlast : (m.insert entry.1 entry.2).entries = m.entries ++ [entry] :=
      insertEntry_last fun e he => (List.pairwise_append.mp h).2.2 e he entry List.mem_cons_self
    have hstep := @ih (m.insert entry.1 entry.2)
    rw [hlast, List.append_assoc, List.singleton_append] at hstep
    rw [List.foldl_cons, hstep h]

theorem ofList_entries (m : BTreeMap V) : ofList m.entries = m :=
  ext (foldl_insert (m.ascending))

theorem keys_nodup (m : BTreeMap V) : (m.entries.map Prod.fst).Nodup :=
  List.pairwise_map.mpr (m.ascending.imp fun h => h.ne)

theorem keys_nodup_map {W : Type} (m : BTreeMap V) (f : V → W) :
    ((m.entries.map fun entry => (entry.1, f entry.2)).map Prod.fst).Nodup := by
  rw [List.map_map]
  exact m.keys_nodup

theorem ext_lookup {m m' : BTreeMap V} (h : ∀ key, m.entries.lookup key = m'.entries.lookup key) : m = m' := by
  have hmem : ∀ e, e ∈ m.entries ↔ e ∈ m'.entries := by
    intro e
    rw [← lookup_eq_some_iff_mem m.keys_nodup, ← lookup_eq_some_iff_mem m'.keys_nodup, h]
  have hperm : m.entries.Perm m'.entries :=
    (List.perm_ext_iff_of_nodup m.keys_nodup.of_map m'.keys_nodup.of_map).mpr hmem
  refine ext (hperm.eq_of_pairwise (fun a b _ _ hab hba => ?_) m.ascending m'.ascending)
  exact absurd (lt_trans hab hba) (lt_irrefl a.1)

end BTreeMap

def readEntries {V : Type} (codec : Codec V) (fields : List (Text × Json)) : Option (List (Text × V)) :=
  fields.mapM fun field => (codec.read field.2).map fun value => (field.1, value)

theorem readEntries_write {V : Type} (codec : Codec V) (entries : List (Text × V)) :
    readEntries codec (entries.map fun entry => (entry.1, codec.write entry.2)) = some entries := by
  induction entries with
  | nil => rfl
  | cons entry entries ih =>
    rw [readEntries] at ih
    simp [readEntries, codec.read_write, ih]

def map {V : Type} (codec : Codec V) : Codec (BTreeMap V) where
  write m := .object (m.entries.map fun entry => (entry.1, codec.write entry.2))
  read
    | .object fields => (readEntries codec fields).map BTreeMap.ofList
    | _ => none
  read_write m := by
    show (readEntries codec _).map BTreeMap.ofList = some m
    rw [readEntries_write, Option.map_some, BTreeMap.ofList_entries]
  sorted_inj m m' h := by
    refine BTreeMap.ext_lookup fun key => ?_
    rw [Json.sorted_object, Json.sorted_object] at h
    have hfound := congrArg (fun fields => fields.lookup key) (Json.object.inj h)
    simp only [Json.lookup_sorted (BTreeMap.keys_nodup_map _ codec.write), lookup_map, Option.map_map] at hfound
    exact Option.map_injective (fun a b => codec.sorted_inj a b) hfound
  written m := by
    refine ⟨nofun, Json.Distinct.object (m.keys_nodup_map codec.write) fun field hfield => ?_,
      fun nonFinite hint => Json.Finite.object fun field hfield => ?_⟩
    · obtain ⟨entry, _, rfl⟩ := List.mem_map.mp hfield
      exact (codec.written entry.2).distinct
    · obtain ⟨entry, _, rfl⟩ := List.mem_map.mp hfield
      exact (codec.written entry.2).finite nonFinite hint

end CorpusFeed.Wire
