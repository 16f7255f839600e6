import CorpusFeed.CanonicalJson

/-! Codecs between values and JSON. A codec carries the law that it reads what it
writes, and that what it writes is a value of a map: keys once, numbers of a machine
word. A record is described by the list of its fields. -/

namespace CorpusFeed

/-- The integers that a machine word holds. -/
def MachineInteger (n : Int) : Prop := -2 ^ 63 ≤ n ∧ n < 2 ^ 64

/-- A machine word is read as a finite float. -/
def FiniteIntegers (nonFinite : JsonNumber → Bool) : Prop :=
  ∀ n, MachineInteger n → nonFinite (numberOfInt n) = false

/-- What the codecs write: never `null`, which stands for an absent value. -/
structure Json.Written (v : Json) : Prop where
  visible : v ≠ .null
  distinct : v.Distinct
  finite : ∀ nonFinite, FiniteIntegers nonFinite → v.Finite nonFinite

theorem lookup_eq_some_iff_mem {α : Type} {fields : List (Text × α)} (hkeys : (fields.map Prod.fst).Nodup)
    {name : Text} {a : α} : fields.lookup name = some a ↔ (name, a) ∈ fields := by
  induction fields with
  | nil => simp
  | cons field fields ih =>
    obtain ⟨key, v⟩ := field
    have hboth := List.nodup_cons.mp hkeys
    by_cases hname : name = key
    · subst hname
      have hfresh : (name, a) ∉ fields := fun h => hboth.1 (List.mem_map.mpr ⟨(name, a), h, rfl⟩)
      simp [hfresh, eq_comm]
    · simp [List.lookup_cons, beq_eq_false_iff_ne.mpr hname, ih hboth.2, hname]

theorem lookup_map {α β : Type} (f : α → β) (fields : List (Text × α)) (name : Text) :
    (fields.map fun field => (field.1, f field.2)).lookup name = (fields.lookup name).map f := by
  induction fields with
  | nil => rfl
  | cons field fields ih =>
    obtain ⟨key, a⟩ := field
    by_cases hname : name = key
    · subst hname
      simp
    · simp [List.lookup_cons, beq_eq_false_iff_ne.mpr hname, ih]

theorem Json.lookup_sorted {fields : List (Text × Json)} (hkeys : (fields.map Prod.fst).Nodup) (name : Text) :
    ((sortFields fields).map fun field => (field.1, field.2.sorted)).lookup name =
      (fields.lookup name).map Json.sorted := by
  have hperm := sortFields_perm fields
  have hkeys' : ((sortFields fields).map Prod.fst).Nodup := (hperm.map Prod.fst).nodup_iff.mpr hkeys
  have hlookup : (sortFields fields).lookup name = fields.lookup name := by
    refine Option.ext fun a => ?_
    rw [lookup_eq_some_iff_mem hkeys', lookup_eq_some_iff_mem hkeys, hperm.mem_iff]
  rw [lookup_map, hlookup]

/-- `sorted_inj`: what is written tells the value, whatever the order of its keys. -/
structure Codec (α : Type) where
  write : α → Json
  read : Json → Option α
  read_write : ∀ a, read (write a) = some a
  sorted_inj : ∀ a b, (write a).sorted = (write b).sorted → a = b
  written : ∀ a, (write a).Written

namespace Codec

variable {α β : Type}

def text : Codec Text where
  write t := .string t
  read
    | .string t => some t
    | _ => none
  read_write _ := rfl
  sorted_inj _ _ h := Json.string.inj h
  written t := ⟨nofun, Json.Distinct.string t, fun _ _ => Json.Finite.string t⟩

def bool : Codec Bool where
  write b := .bool b
  read
    | .bool b => some b
    | _ => none
  read_write _ := rfl
  sorted_inj _ _ h := Json.bool.inj h
  written b := ⟨nofun, Json.Distinct.bool b, fun _ _ => Json.Finite.bool b⟩

/-- A type that is read from what another one is read from. -/
def refine (codec : Codec α) (lower : β → α) (raise : α → Option β) (hraise : ∀ b, raise (lower b) = some b) :
    Codec β where
  write b := codec.write (lower b)
  read v := (codec.read v).bind raise
  read_write b := by rw [codec.read_write, Option.bind_some, hraise]
  sorted_inj a b h := by
    have hlower := congrArg raise (codec.sorted_inj _ _ h)
    rw [hraise, hraise] at hlower
    exact Option.some.inj hlower
  written b := codec.written (lower b)

theorem mapM_read_write (codec : Codec α) (items : List α) : (items.map codec.write).mapM codec.read = some items := by
  induction items with
  | nil => rfl
  | cons item items ih => simp [codec.read_write, ih]

def list (codec : Codec α) : Codec (List α) where
  write items := .array (items.map codec.write)
  read
    | .array items => items.mapM codec.read
    | _ => none
  read_write items := codec.mapM_read_write items
  sorted_inj items others h := by
    rw [Json.sorted, Json.sorted, Json.sortedItems_eq_map, Json.sortedItems_eq_map, List.map_map, List.map_map] at h
    exact List.map_injective_iff.mpr (fun a b => codec.sorted_inj a b) (Json.array.inj h)
  written items := by
    refine ⟨nofun, Json.Distinct.array fun v hv => ?_, fun nonFinite hint => Json.Finite.array fun v hv => ?_⟩
    · obtain ⟨item, _, rfl⟩ := List.mem_map.mp hv
      exact (codec.written item).distinct
    · obtain ⟨item, _, rfl⟩ := List.mem_map.mp hv
      exact (codec.written item).finite nonFinite hint

/-- A unit variant is its token, or an object of the token and `null`. -/
def tokens (token : α → String) (all : List α)
    (hall : ∀ a, all.find? (fun b => (token b).toList = (token a).toList) = some a) : Codec α where
  write a := .string (token a).toList
  read
    | .string t => all.find? fun b => (token b).toList = t
    | .object [(t, .null)] => all.find? fun b => (token b).toList = t
    | _ => none
  read_write a := hall a
  sorted_inj a b h := by
    have hfind := hall a
    rw [Json.string.inj h, hall b] at hfind
    exact (Option.some.inj hfind).symm
  written _ := ⟨nofun, Json.Distinct.string _, fun _ _ => Json.Finite.string _⟩

end Codec

/-- One field of a record: `write` leaves it out, or `read` gets no value for it. -/
structure Field (α : Type) where
  name : Text
  write : α → Option Json
  read : Option Json → Option α
  read_write : ∀ a, read (write a) = some a
  sorted_inj : ∀ a b, (write a).map Json.sorted = (write b).map Json.sorted → a = b
  written : ∀ a, ∀ v ∈ write a, v.Written

namespace Field

variable {α : Type}

def required (name : String) (codec : Codec α) : Field α where
  name := name.toList
  write a := some (codec.write a)
  read value := value.bind codec.read
  read_write a := codec.read_write a
  sorted_inj a b h := codec.sorted_inj a b (Option.some.inj h)
  written a _ hv := Option.some.inj hv ▸ codec.written a

/-- `default`: a field that is absent has the default value. -/
def defaulted (name : String) (codec : Codec α) (default : α) : Field α where
  name := name.toList
  write a := some (codec.write a)
  read
    | none => some default
    | some v => codec.read v
  read_write a := codec.read_write a
  sorted_inj a b h := codec.sorted_inj a b (Option.some.inj h)
  written a _ hv := Option.some.inj hv ▸ codec.written a

/-- `default` and `skip_serializing_if = "Option::is_none"`. -/
def optional (name : String) (codec : Codec α) : Field (Option α) where
  name := name.toList
  write a := a.map codec.write
  read
    | none => some none
    | some .null => some none
    | some v => (codec.read v).map some
  read_write a := by
    cases a with
    | none => rfl
    | some a =>
      have hvisible := (codec.written a).visible
      have hread := codec.read_write a
      cases h : codec.write a <;> simp_all
  sorted_inj a b h := by
    cases a with
    | none =>
      cases b with
      | none => rfl
      | some b => cases h
    | some a =>
      cases b with
      | none => cases h
      | some b => rw [codec.sorted_inj a b (Option.some.inj h)]
  written a v hv := by
    obtain ⟨b, _, rfl⟩ := Option.mem_map.mp hv
    exact codec.written b

end Field

/-- The fields of a record in declared order, for a product of their types. `read` looks
the fields up, `readItems` takes them from an array by position, and `make` gives them to
a constructor in turn. -/
structure Fields (α : Type) where
  names : List Text
  Maker : Type → Type
  make : {β : Type} → Maker β → α → β
  write : α → List (Text × Json)
  read : (Text → Option Json) → Option α
  readItems : List Json → Option α
  named : ∀ a, ((write a).map Prod.fst).Sublist names
  read_write : names.Nodup → ∀ a value, (∀ name ∈ names, value name = (write a).lookup name) → read value = some a
  sorted_inj : names.Nodup → ∀ a b,
    (∀ name ∈ names, ((write a).lookup name).map Json.sorted = ((write b).lookup name).map Json.sorted) → a = b
  written : ∀ a, ∀ field ∈ write a, field.2.Written

namespace Fields

variable {α β : Type}

def nil : Fields Unit where
  names := []
  Maker β := β
  make b _ := b
  write _ := []
  read _ := some ()
  readItems
    | [] => some ()
    | _ :: _ => none
  named _ := List.Sublist.refl []
  read_write _ _ _ _ := rfl
  sorted_inj _ _ _ _ := rfl
  written _ _ h := absurd h List.not_mem_nil

def writeField (field : Field α) (a : α) : List (Text × Json) := (field.write a).toList.map fun v => (field.name, v)

theorem writeField_names (field : Field α) (a : α) : ((writeField field a).map Prod.fst).Sublist [field.name] := by
  cases h : field.write a with
  | none => simp [writeField, h]
  | some v => simp [writeField, h]

theorem lookup_writeField (field : Field α) (a : α) : (writeField field a).lookup field.name = field.write a := by
  cases h : field.write a with
  | none => simp [writeField, h]
  | some v => simp [writeField, h]

theorem lookup_eq_none {fields : List (Text × Json)} {names : List Text} {name : Text}
    (hnames : (fields.map Prod.fst).Sublist names) (hname : name ∉ names) : fields.lookup name = none := by
  rw [List.lookup_eq_none_iff]
  intro field hfield
  have hmem : field.1 ∈ names := hnames.subset (List.mem_map_of_mem hfield)
  have hne : name ≠ field.1 := by
    intro h
    rw [h] at hname
    exact hname hmem
  simpa using hne

theorem lookup_head {field : Field α} {rest : Fields β} (hnew : field.name ∉ rest.names) (a : α) (b : β) :
    (writeField field a ++ rest.write b).lookup field.name = field.write a := by
  rw [List.lookup_append, lookup_writeField, lookup_eq_none (rest.named b) hnew, Option.or_none]

theorem lookup_rest {field : Field α} {rest : Fields β} (hnew : field.name ∉ rest.names) (a : α) (b : β) {name : Text}
    (hname : name ∈ rest.names) : (writeField field a ++ rest.write b).lookup name = (rest.write b).lookup name := by
  have hne : name ∉ [field.name] := by
    rw [List.mem_singleton]
    intro h
    rw [h] at hname
    exact hnew hname
  rw [List.lookup_append, lookup_eq_none (writeField_names field a) hne, Option.none_or]

def cons (field : Field α) (rest : Fields β) : Fields (α × β) where
  names := field.name :: rest.names
  Maker γ := α → rest.Maker γ
  make mk a := rest.make (mk a.1) a.2
  write a := writeField field a.1 ++ rest.write a.2
  read value := (field.read (value field.name)).bind fun a => (rest.read value).map fun b => (a, b)
  readItems
    | [] => (field.read none).bind fun a => (rest.readItems []).map fun b => (a, b)
    | v :: items => (field.read (some v)).bind fun a => (rest.readItems items).map fun b => (a, b)
  named a := by
    rw [List.map_append]
    exact (writeField_names field a.1).append (rest.named a.2)
  read_write hnodup a value hvalue := by
    obtain ⟨hnew, hrest⟩ := List.nodup_cons.mp hnodup
    have hfirst : value field.name = field.write a.1 := by
      rw [hvalue field.name List.mem_cons_self, lookup_head hnew]
    have hothers : ∀ name ∈ rest.names, value name = (rest.write a.2).lookup name := by
      intro name hname
      rw [hvalue name (List.mem_cons_of_mem _ hname), lookup_rest hnew a.1 a.2 hname]
    rw [hfirst, field.read_write, Option.bind_some, rest.read_write hrest a.2 value hothers, Option.map_some]
  sorted_inj hnodup a b h := by
    obtain ⟨hnew, hrest⟩ := List.nodup_cons.mp hnodup
    have hfirst := h field.name List.mem_cons_self
    rw [lookup_head hnew, lookup_head hnew] at hfirst
    have hothers : ∀ name ∈ rest.names,
        ((rest.write a.2).lookup name).map Json.sorted = ((rest.write b.2).lookup name).map Json.sorted := by
      intro name hname
      have hboth := h name (List.mem_cons_of_mem _ hname)
      rw [lookup_rest hnew a.1 a.2 hname, lookup_rest hnew b.1 b.2 hname] at hboth
      exact hboth
    exact Prod.ext (field.sorted_inj a.1 b.1 hfirst) (rest.sorted_inj hrest a.2 b.2 hothers)
  written a v hv := by
    rcases List.mem_append.mp hv with hv | hv
    · obtain ⟨w, hw, rfl⟩ := List.mem_map.mp hv
      exact field.written a.1 w (Option.mem_toList.mp hw)
    · exact rest.written a.2 v hv

/-- No field of the record stands twice in an object. Other fields may. -/
def Unrepeated (names : List Text) (fields : List (Text × Json)) : Prop :=
  ((fields.map Prod.fst).filter fun name => names.contains name).Nodup

instance (names : List Text) (fields : List (Text × Json)) : Decidable (Unrepeated names fields) :=
  inferInstanceAs (Decidable (List.Nodup _))

theorem keys_nodup {fields : Fields α} (hnames : fields.names.Nodup) (a : α) :
    ((fields.write a).map Prod.fst).Nodup := (fields.named a).nodup hnames

/-- The codec of a record: it is read from an object, or from an array of all fields. -/
def codec (fields : Fields α) (split : β → α) (mk : fields.Maker β) (hmk : ∀ b, fields.make mk (split b) = b)
    (hnames : fields.names.Nodup) : Codec β where
  write b := .object (fields.write (split b))
  read
    | .object members =>
      if Unrepeated fields.names members then (fields.read fun name => members.lookup name).map (fields.make mk)
      else none
    | .array items => (fields.readItems items).map (fields.make mk)
    | _ => none
  read_write b := by
    have hunrepeated : Unrepeated fields.names (fields.write (split b)) := (keys_nodup hnames (split b)).filter _
    have hread := fields.read_write hnames (split b) (fun name => (fields.write (split b)).lookup name)
      fun name _ => rfl
    simp only [hunrepeated, if_true, hread, Option.map_some, hmk]
  sorted_inj a b h := by
    have hsplit : split a = split b := by
      refine fields.sorted_inj hnames (split a) (split b) fun name _ => ?_
      rw [← Json.lookup_sorted (keys_nodup hnames (split a)), ← Json.lookup_sorted (keys_nodup hnames (split b))]
      rw [Json.sorted_object, Json.sorted_object] at h
      rw [Json.object.inj h]
    rw [← hmk a, hsplit, hmk b]
  written b := by
    exact ⟨nofun,
      Json.Distinct.object (keys_nodup hnames (split b)) fun field hfield =>
        (fields.written (split b) field hfield).distinct,
      fun nonFinite hint => Json.Finite.object fun field hfield =>
        (fields.written (split b) field hfield).finite nonFinite hint⟩

end Fields

end CorpusFeed
