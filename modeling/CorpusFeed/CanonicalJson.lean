import CorpusFeed.BoundedLine
import CorpusFeed.JsonText
import Mathlib.Data.List.Perm.Basic
import Mathlib.Data.List.Sort

/-! The canonical bytes of a JSON value: every object has its fields in the order of
their keys, and no white space is printed. Two values have the same bytes exactly when
they differ in the order of their fields only, at whatever depth. -/

namespace CorpusFeed

inductive CanonicalError where
  | nonFiniteNumber
deriving DecidableEq

def CanonicalError.show : CanonicalError → String
  | .nonFiniteNumber => "value contains a non-finite number, which has no canonical form"

/-- The order of keys is that of their code points, which is that of their bytes. -/
def sortFields {α : Type*} (fields : List (Text × α)) : List (Text × α) :=
  fields.insertionSort fun a b => a.1 ≤ b.1

theorem sortFields_perm {α : Type*} (fields : List (Text × α)) : (sortFields fields).Perm fields :=
  List.perm_insertionSort _ fields

/-- Keys that differ leave one order only. -/
theorem sortFields_eq_of_perm {α : Type*} {fields moved : List (Text × α)} (hkeys : (fields.map Prod.fst).Nodup)
    (h : fields.Perm moved) : sortFields fields = sortFields moved := by
  have hperm : (sortFields fields).Perm (sortFields moved) :=
    (sortFields_perm fields).trans (h.trans (sortFields_perm moved).symm)
  refine hperm.eq_of_pairwise (fun a b ha hb hab hba => ?_) (List.pairwise_insertionSort _ fields)
    (List.pairwise_insertionSort _ moved)
  have ha' : a ∈ fields := (sortFields_perm fields).mem_iff.mp ha
  have hb' : b ∈ fields := h.mem_iff.mpr ((sortFields_perm moved).mem_iff.mp hb)
  exact List.inj_on_of_nodup_map hkeys ha' hb' (le_antisymm hab hba)

theorem sortFields_map {α β : Type*} (f : α → β) (fields : List (Text × α)) :
    sortFields (fields.map fun field => (field.1, f field.2)) =
      (sortFields fields).map fun field => (field.1, f field.2) :=
  (List.map_insertionSort (fun a b : Text × α => a.1 ≤ b.1) (fun a b : Text × β => a.1 ≤ b.1)
    (fun field => (field.1, f field.2)) fields fun _ _ _ _ => Iff.rfl).symm

section Related

variable {α β γ : Type*} {R : α → β → Prop} {f : α → γ} {g : β → γ}

theorem map_eq_of_forall₂ {as : List α} {bs : List β} (h : List.Forall₂ R as bs)
    (hstep : ∀ a ∈ as, ∀ b, R a b → f a = g b) : as.map f = bs.map g := by
  induction h with
  | nil => rfl
  | cons hab _ ih =>
    rw [List.map_cons, List.map_cons, hstep _ List.mem_cons_self _ hab,
      ih fun a ha => hstep a (List.mem_cons_of_mem _ ha)]

theorem forall₂_of_map_eq {as : List α} {bs : List β} (h : as.map f = bs.map g)
    (hstep : ∀ a ∈ as, ∀ b, f a = g b → R a b) : List.Forall₂ R as bs := by
  induction as generalizing bs with
  | nil =>
    rw [List.map_nil, eq_comm, List.map_eq_nil_iff] at h
    rw [h]
    exact List.Forall₂.nil
  | cons a as ih =>
    cases bs with
    | nil => simp at h
    | cons b bs =>
      rw [List.map_cons, List.map_cons, List.cons.injEq] at h
      exact List.Forall₂.cons (hstep a List.mem_cons_self b h.1)
        (ih h.2 fun c hc => hstep c (List.mem_cons_of_mem a hc))

end Related

section Canonicalize

-- Whether a number is read as a float that is not finite.
variable (nonFinite : JsonNumber → Bool)

mutual

/-- A child is rebuilt under the key it has, so it can be rebuilt before the keys are
sorted. -/
def canonicalize : Json → Except CanonicalError Json
  | .object fields => (canonicalizeFields fields).map fun children => .object (sortFields children)
  | .array items => (canonicalizeItems items).map .array
  | .number n => if nonFinite n then .error .nonFiniteNumber else .ok (.number n)
  | .null => .ok .null
  | .bool b => .ok (.bool b)
  | .string s => .ok (.string s)

def canonicalizeItems : List Json → Except CanonicalError (List Json)
  | [] => .ok []
  | item :: items => do .ok ((← canonicalize item) :: (← canonicalizeItems items))

def canonicalizeFields : List (Text × Json) → Except CanonicalError (List (Text × Json))
  | [] => .ok []
  | (key, child) :: fields => do .ok ((key, ← canonicalize child) :: (← canonicalizeFields fields))

end

def canonicalBytes (value : Json) : Except CanonicalError Bytes :=
  (canonicalize nonFinite value).map fun canonical => asBytes canonical.print

end Canonicalize

namespace Json

mutual

/-- A value with its fields in order. -/
def sorted : Json → Json
  | .object fields => .object (sortFields (sortedFields fields))
  | .array items => .array (sortedItems items)
  | .number n => .number n
  | .null => .null
  | .bool b => .bool b
  | .string s => .string s

def sortedItems : List Json → List Json
  | [] => []
  | item :: items => item.sorted :: sortedItems items

def sortedFields : List (Text × Json) → List (Text × Json)
  | [] => []
  | (key, child) :: fields => (key, child.sorted) :: sortedFields fields

end

/-- No object has two fields of one key: the fields come from a map. -/
inductive Distinct : Json → Prop
  | null : Distinct .null
  | bool (b : Bool) : Distinct (.bool b)
  | number (n : JsonNumber) : Distinct (.number n)
  | string (s : Text) : Distinct (.string s)
  | array {items : List Json} : (∀ item ∈ items, Distinct item) → Distinct (.array items)
  | object {fields : List (Text × Json)} : (fields.map Prod.fst).Nodup → (∀ field ∈ fields, Distinct field.2) →
      Distinct (.object fields)

inductive Finite (nonFinite : JsonNumber → Bool) : Json → Prop
  | null : Finite nonFinite .null
  | bool (b : Bool) : Finite nonFinite (.bool b)
  | number {n : JsonNumber} : nonFinite n = false → Finite nonFinite (.number n)
  | string (s : Text) : Finite nonFinite (.string s)
  | array {items : List Json} : (∀ item ∈ items, Finite nonFinite item) → Finite nonFinite (.array items)
  | object {fields : List (Text × Json)} : (∀ field ∈ fields, Finite nonFinite field.2) →
      Finite nonFinite (.object fields)

/-- Equal up to the order of keys: the fields of the one object, in some order, are those
of the other. -/
inductive Reordered : Json → Json → Prop
  | null : Reordered .null .null
  | bool (b : Bool) : Reordered (.bool b) (.bool b)
  | number (n : JsonNumber) : Reordered (.number n) (.number n)
  | string (s : Text) : Reordered (.string s) (.string s)
  | array {items items' : List Json} : List.Forall₂ Reordered items items' → Reordered (.array items) (.array items')
  | object {fields moved fields' : List (Text × Json)} : fields.Perm moved →
      moved.map Prod.fst = fields'.map Prod.fst →
      List.Forall₂ Reordered (moved.map Prod.snd) (fields'.map Prod.snd) →
      Reordered (.object fields) (.object fields')

@[elab_as_elim]
theorem nested {motive : Json → Prop} (v : Json) (null : motive .null) (bool : ∀ b, motive (.bool b))
    (number : ∀ n, motive (.number n)) (string : ∀ s, motive (.string s))
    (array : ∀ items, (∀ item ∈ items, motive item) → motive (.array items))
    (object : ∀ fields, (∀ field ∈ fields, motive field.2) → motive (.object fields)) : motive v := by
  refine @Json.rec motive (fun items => ∀ item ∈ items, motive item) (fun fields => ∀ field ∈ fields, motive field.2)
    (fun field => motive field.2) null bool number string array object ?_ ?_ ?_ ?_ ?_ v
  · simp
  · intro item items hitem hitems
    simpa using ⟨hitem, hitems⟩
  · simp
  · intro field fields hfield hfields
    simpa using ⟨hfield, fun key child hmem => hfields (key, child) hmem⟩
  · intro key child hchild
    exact hchild

theorem sortedItems_eq_map (items : List Json) : sortedItems items = items.map sorted := by
  induction items with
  | nil => rfl
  | cons item items ih => rw [sortedItems, ih, List.map_cons]

theorem sortedFields_eq_map (fields : List (Text × Json)) :
    sortedFields fields = fields.map fun field => (field.1, field.2.sorted) := by
  induction fields with
  | nil => rfl
  | cons field fields ih => rw [sortedFields, ih, List.map_cons]

theorem sorted_object (fields : List (Text × Json)) :
    (object fields).sorted = object ((sortFields fields).map fun field => (field.1, field.2.sorted)) := by
  rw [sorted, sortedFields_eq_map, sortFields_map]

/-- The order of the fields does not show once they are sorted. -/
theorem sorted_eq_of_reordered {v : Json} : ∀ {w : Json}, v.Distinct → Reordered v w → v.sorted = w.sorted := by
  induction v using nested with
  | null =>
    intro w _ h
    cases h
    rfl
  | bool b =>
    intro w _ h
    cases h
    rfl
  | number n =>
    intro w _ h
    cases h
    rfl
  | string s =>
    intro w _ h
    cases h
    rfl
  | array items ih =>
    intro w hdistinct h
    cases hdistinct with
    | array hitems =>
    cases h with
    | array hpairs =>
    rw [sorted, sorted, sortedItems_eq_map, sortedItems_eq_map,
      map_eq_of_forall₂ hpairs fun item hitem other hother => ih item hitem (hitems item hitem) hother]
  | object fields ih =>
    intro w hdistinct h
    cases hdistinct with
    | object hkeys hfields =>
    cases h with
    | object hperm hmoved hpairs =>
    next moved fields' =>
    have hchild : ∀ child ∈ moved.map Prod.snd, ∀ other, Reordered child other → child.sorted = other.sorted := by
      intro child hmem other hother
      obtain ⟨field, hfield, rfl⟩ := List.mem_map.mp hmem
      have hfield' := hperm.mem_iff.mpr hfield
      exact ih field hfield' (hfields field hfield') hother
    have hchildren := map_eq_of_forall₂ hpairs hchild
    have hsame : (moved.map fun field => (field.1, field.2.sorted)) =
        fields'.map fun field => (field.1, field.2.sorted) := by
      have hzip : ∀ entries : List (Text × Json), (entries.map fun field => (field.1, field.2.sorted)) =
          (entries.map Prod.fst).zip ((entries.map Prod.snd).map sorted) := by
        intro entries
        rw [List.map_map, List.zip_map']
        rfl
      rw [hzip, hzip, hmoved, hchildren]
    rw [sorted_object, sorted_object, sortFields_eq_of_perm hkeys hperm, ← sortFields_map, ← sortFields_map, hsame]

theorem reordered_of_sorted_eq {v : Json} : ∀ {w : Json}, v.sorted = w.sorted → Reordered v w := by
  induction v using nested with
  | null =>
    intro w h
    cases w with
    | null => exact Reordered.null
    | _ => simp [sorted] at h
  | bool b =>
    intro w h
    cases w with
    | bool c =>
      obtain rfl : b = c := by simpa [sorted] using h
      exact Reordered.bool b
    | _ => simp [sorted] at h
  | number n =>
    intro w h
    cases w with
    | number m =>
      obtain rfl : n = m := by simpa [sorted] using h
      exact Reordered.number n
    | _ => simp [sorted] at h
  | string s =>
    intro w h
    cases w with
    | string t =>
      obtain rfl : s = t := by simpa [sorted] using h
      exact Reordered.string s
    | _ => simp [sorted] at h
  | array items ih =>
    intro w h
    cases w with
    | array items' =>
      rw [sorted, sorted, sortedItems_eq_map, sortedItems_eq_map] at h
      exact Reordered.array (forall₂_of_map_eq (Json.array.inj h) fun item hitem other hother => ih item hitem hother)
    | _ => simp [sorted] at h
  | object fields ih =>
    intro w h
    cases w with
    | object fields' =>
      rw [sorted_object, sorted_object] at h
      have hpairs : List.Forall₂ (fun field other => field.1 = other.1 ∧ Reordered field.2 other.2)
          (sortFields fields) (sortFields fields') := by
        refine forall₂_of_map_eq (Json.object.inj h) fun field hfield other hother => ?_
        obtain ⟨hkey, hchild⟩ := Prod.mk.inj hother
        exact ⟨hkey, ih field ((sortFields_perm fields).mem_iff.mp hfield) hchild⟩
      have hmoved : Relation.Comp (List.Forall₂ fun field other => field.1 = other.1 ∧ Reordered field.2 other.2)
          List.Perm (sortFields fields) fields' := ⟨_, hpairs, sortFields_perm fields'⟩
      rw [List.forall₂_comp_perm_eq_perm_comp_forall₂] at hmoved
      obtain ⟨moved, hperm, hforall⟩ := hmoved
      refine Reordered.object ((sortFields_perm fields).symm.trans hperm)
        (map_eq_of_forall₂ hforall fun _ _ _ hpair => hpair.1) ?_
      rw [List.forall₂_map_left_iff, List.forall₂_map_right_iff]
      exact hforall.imp fun _ _ hpair => hpair.2
    | _ => simp [sorted] at h

variable {nonFinite : JsonNumber → Bool}

theorem finite_sorted {v : Json} : v.sorted.Finite nonFinite ↔ v.Finite nonFinite := by
  induction v using nested with
  | array items ih =>
    rw [sorted, sortedItems_eq_map]
    constructor
    · intro h
      cases h with
      | array hitems =>
      exact Finite.array fun item hitem => (ih item hitem).mp (hitems _ (List.mem_map_of_mem hitem))
    · intro h
      cases h with
      | array hitems =>
      refine Finite.array fun child hchild => ?_
      obtain ⟨item, hitem, rfl⟩ := List.mem_map.mp hchild
      exact (ih item hitem).mpr (hitems item hitem)
  | object fields ih =>
    rw [sorted_object]
    constructor
    · intro h
      cases h with
      | object hfields =>
      refine Finite.object fun field hfield => (ih field hfield).mp ?_
      exact hfields _ (List.mem_map_of_mem ((sortFields_perm fields).mem_iff.mpr hfield))
    · intro h
      cases h with
      | object hfields =>
      refine Finite.object fun child hchild => ?_
      obtain ⟨field, hfield, rfl⟩ := List.mem_map.mp hchild
      have hfield' := (sortFields_perm fields).mem_iff.mp hfield
      exact (ih field hfield').mpr (hfields field hfield')
  | _ => rfl

end Json

section Spec

variable {nonFinite : JsonNumber → Bool}

theorem canonicalizeItems_ok {items : List Json} (h : ∀ item ∈ items, canonicalize nonFinite item = .ok item.sorted) :
    canonicalizeItems nonFinite items = .ok (items.map Json.sorted) := by
  induction items with
  | nil => rfl
  | cons item items ih =>
    have hrest := ih fun other hother => h other (List.mem_cons_of_mem item hother)
    rw [canonicalizeItems, h item List.mem_cons_self, hrest]
    rfl

theorem canonicalizeFields_ok {fields : List (Text × Json)}
    (h : ∀ field ∈ fields, canonicalize nonFinite field.2 = .ok field.2.sorted) :
    canonicalizeFields nonFinite fields = .ok (fields.map fun field => (field.1, field.2.sorted)) := by
  induction fields with
  | nil => rfl
  | cons field fields ih =>
    have hrest := ih fun other hother => h other (List.mem_cons_of_mem field hother)
    rw [canonicalizeFields, h field List.mem_cons_self, hrest]
    rfl

theorem canonicalizeItems_mem {items children : List Json} (h : canonicalizeItems nonFinite items = .ok children) :
    ∀ item ∈ items, ∃ child, canonicalize nonFinite item = .ok child := by
  induction items generalizing children with
  | nil => simp
  | cons item items ih =>
    rw [canonicalizeItems] at h
    cases hitem : canonicalize nonFinite item with
    | error e =>
      rw [hitem] at h
      cases h
    | ok child =>
      cases hrest : canonicalizeItems nonFinite items with
      | error e =>
        rw [hitem, hrest] at h
        cases h
      | ok others =>
        intro other hother
        rcases List.mem_cons.mp hother with rfl | hother
        · exact ⟨child, hitem⟩
        · exact ih hrest other hother

theorem canonicalizeFields_mem {fields children : List (Text × Json)}
    (h : canonicalizeFields nonFinite fields = .ok children) :
    ∀ field ∈ fields, ∃ child, canonicalize nonFinite field.2 = .ok child := by
  induction fields generalizing children with
  | nil => simp
  | cons field fields ih =>
    rw [canonicalizeFields] at h
    cases hfield : canonicalize nonFinite field.2 with
    | error e =>
      rw [hfield] at h
      cases h
    | ok child =>
      cases hrest : canonicalizeFields nonFinite fields with
      | error e =>
        rw [hfield, hrest] at h
        cases h
      | ok others =>
        intro other hother
        rcases List.mem_cons.mp hother with rfl | hother
        · exact ⟨child, hfield⟩
        · exact ih hrest other hother

theorem canonicalize_ok {v : Json} : v.Finite nonFinite → canonicalize nonFinite v = .ok v.sorted := by
  induction v using Json.nested with
  | number n =>
    intro h
    cases h with
    | number hn => simp [canonicalize, hn, Json.sorted]
  | array items ih =>
    intro h
    cases h with
    | array hitems =>
    rw [canonicalize, canonicalizeItems_ok fun item hitem => ih item hitem (hitems item hitem), Json.sorted,
      Json.sortedItems_eq_map]
    rfl
  | object fields ih =>
    intro h
    cases h with
    | object hfields =>
    rw [canonicalize, canonicalizeFields_ok fun field hfield => ih field hfield (hfields field hfield), Json.sorted,
      Json.sortedFields_eq_map]
    rfl
  | null => exact fun _ => rfl
  | bool b => exact fun _ => rfl
  | string s => exact fun _ => rfl

theorem finite_of_canonicalize {v : Json} : ∀ {canonical : Json}, canonicalize nonFinite v = .ok canonical →
    v.Finite nonFinite := by
  induction v using Json.nested with
  | null => exact fun _ => Json.Finite.null
  | bool b => exact fun _ => Json.Finite.bool b
  | string s => exact fun _ => Json.Finite.string s
  | number n =>
    intro canonical h
    rw [canonicalize] at h
    by_cases hn : nonFinite n = true
    · simp [hn] at h
    · exact Json.Finite.number (by simpa using hn)
  | array items ih =>
    intro canonical h
    rw [canonicalize] at h
    cases hitems : canonicalizeItems nonFinite items with
    | error e =>
      rw [hitems] at h
      cases h
    | ok children =>
      refine Json.Finite.array fun item hitem => ?_
      obtain ⟨child, hchild⟩ := canonicalizeItems_mem hitems item hitem
      exact ih item hitem hchild
  | object fields ih =>
    intro canonical h
    rw [canonicalize] at h
    cases hfields : canonicalizeFields nonFinite fields with
    | error e =>
      rw [hfields] at h
      cases h
    | ok children =>
      refine Json.Finite.object fun field hfield => ?_
      obtain ⟨child, hchild⟩ := canonicalizeFields_mem hfields field hfield
      exact ih field hfield hchild

theorem asBytes_injective : Function.Injective asBytes := by
  intro s t h
  rw [← fromUtf8Lossy_asBytes s, h, fromUtf8Lossy_asBytes]

theorem canonicalBytes_ok {v : Json} {bytes : Bytes} : canonicalBytes nonFinite v = .ok bytes ↔
    v.Finite nonFinite ∧ bytes = asBytes v.sorted.print := by
  constructor
  · intro h
    cases hcanonical : canonicalize nonFinite v with
    | error e =>
      rw [canonicalBytes, hcanonical] at h
      cases h
    | ok canonical =>
      have hfinite := finite_of_canonicalize hcanonical
      rw [canonicalBytes, canonicalize_ok hfinite] at h
      cases h
      exact ⟨hfinite, rfl⟩
  · rintro ⟨hfinite, rfl⟩
    rw [canonicalBytes, canonicalize_ok hfinite]
    rfl

/-- The bytes of a value are those of every value that differs from it in the order of
keys. -/
theorem canonicalBytes_stable {v w : Json} (hdistinct : v.Distinct) (h : v.Reordered w) :
    canonicalBytes nonFinite v = canonicalBytes nonFinite w := by
  have hsorted := Json.sorted_eq_of_reordered hdistinct h
  have hfinite : v.Finite nonFinite ↔ w.Finite nonFinite := by
    rw [← Json.finite_sorted, hsorted, Json.finite_sorted]
  have hsame : ∀ bytes, canonicalBytes nonFinite v = .ok bytes ↔ canonicalBytes nonFinite w = .ok bytes := by
    intro bytes
    rw [canonicalBytes_ok, canonicalBytes_ok, hfinite, hsorted]
  cases hv : canonicalBytes nonFinite v with
  | ok bytes => exact ((hsame bytes).mp hv).symm
  | error e =>
    cases hw : canonicalBytes nonFinite w with
    | ok bytes => rw [(hsame bytes).mpr hw] at hv; cases hv
    | error e' =>
      cases e
      cases e'
      rfl

/-- Values of the same bytes differ in the order of keys only. -/
theorem canonicalBytes_collision {v w : Json} {bytes : Bytes} (hv : canonicalBytes nonFinite v = .ok bytes)
    (hw : canonicalBytes nonFinite w = .ok bytes) : v.Reordered w := by
  obtain ⟨_, rfl⟩ := canonicalBytes_ok.mp hv
  obtain ⟨_, hbytes⟩ := canonicalBytes_ok.mp hw
  exact Json.reordered_of_sorted_eq (Json.print_injective (asBytes_injective hbytes))

end Spec

end CorpusFeed
