import CorpusFeed.JsonText
import CorpusFeed.TextLines

/-! Official zones of a decision: the fragments that a provider response is
normalized to, the hash of that snapshot, and the units derived from the zones. -/

namespace CorpusFeed

namespace Json

def index (key : Text) : Json → Json
  | object fields => (fields.lookup key).getD null
  | _ => null

def asArray : Json → Option (List Json)
  | array items => some items
  | _ => none

def asStr : Json → Option Text
  | string s => some s
  | _ => none

def asU64 : Json → Option Nat
  | number n =>
    match readDecimal n.text with
    | some m => if m < 2 ^ 64 then some m else none
    | none => none
  | _ => none

end Json

inductive ZoneKey where
  | motivations
  | moyens
  | dispositif
deriving DecidableEq

def ZoneKey.text : ZoneKey → Text
  | .motivations => "motivations".toList
  | .moyens => "moyens".toList
  | .dispositif => "dispositif".toList

def zoneKeys : List ZoneKey := [.motivations, .moyens, .dispositif]

def fragmentText (fragment : Json) : Option Text := (fragment.index "text".toList).asStr

def decisionText (decision : Json) : Text := ((decision.index "text".toList).asStr).getD []

/-- A fragment with character offsets, unless it is out of range or blank. -/
def normalizeOffset (textChars : Text) (offset : Json) : Option Json :=
  match (offset.index "start".toList).asU64, (offset.index "end".toList).asU64 with
  | some start, some stop =>
    if stop < start ∨ textChars.length < stop then none
    else
      let text := (textChars.take stop).drop start
      if isBlank text then none
      else some (.object [("end".toList, .number (numberOfInt stop)), ("start".toList, .number (numberOfInt start)),
        ("text".toList, .string text)])
  | _, _ => none

def normalizedFragments (decision : Json) (key : ZoneKey) : List Json :=
  match ((decision.index "zones".toList).index key.text).asArray with
  | some offsets => offsets.filterMap (normalizeOffset (decisionText decision))
  | none => []

/-- The normalized zones, and whether some fragment was kept. The keys of an
object are in their own order. -/
def normalizeJudilibreZones (decision : Json) : Json × Bool :=
  (.object [("dispositif".toList, .array (normalizedFragments decision .dispositif)),
      ("motivations".toList, .array (normalizedFragments decision .motivations)),
      ("moyens".toList, .array (normalizedFragments decision .moyens))],
    zoneKeys.any fun key => !(normalizedFragments decision key).isEmpty)

def nul : Char := Char.ofNat 0

/-- `sha256` renders the digest of a text's bytes in hexadecimal. -/
def zoneTextHash (sha256 : Text → Text) (decision zonesJson : Json) (providerId : Text) : Text :=
  let updateDate := ((decision.index "update_date".toList).asStr).getD []
  "sha256:".toList ++ sha256 (decisionText decision ++ nul :: (zonesJson.print ++ nul :: (providerId ++ nul :: updateDate)))

structure ZoneUnitRow where
  documentId : Text
  zone : ZoneKey
  fragmentIndex : Nat
  body : Text
  searchBody : Text
  source : Text
  textHash : Text
  builderVersion : Text
deriving DecidableEq

def zoneUnitBuilderVersion : Text := "zone-units:v1".toList

section Derive

variable (documentId source textHash : Text)

/-- The rows of the remaining fragments of a zone, numbered without gaps. -/
def fragmentRows (zone : ZoneKey) : Nat → List Json → List ZoneUnitRow
  | _, [] => []
  | fragmentIndex, fragment :: rest =>
    match fragmentText fragment with
    | none => fragmentRows zone fragmentIndex rest
    | some text =>
      if isBlank text then fragmentRows zone fragmentIndex rest
      else ⟨documentId, zone, fragmentIndex, text, text, source, textHash, zoneUnitBuilderVersion⟩ ::
        fragmentRows zone (fragmentIndex + 1) rest

def deriveZoneUnitRows (zones : Json) : List ZoneUnitRow :=
  zoneKeys.flatMap fun zone =>
    match (zones.index zone.text).asArray with
    | some fragments => fragmentRows documentId source textHash zone 0 fragments
    | none => []

end Derive

/-- Whether some fragment of the zones has a text. -/
def hasFragmentText (zones : Json) : Bool :=
  zoneKeys.any fun zone => (((zones.index zone.text).asArray).getD []).any fun fragment =>
    (fragmentText fragment).any fun text => !isBlank text

section Rows

variable {documentId source textHash : Text}

theorem mem_fragmentRows {zone : ZoneKey} {row : ZoneUnitRow} {start : Nat} {fragments : List Json}
    (h : row ∈ fragmentRows documentId source textHash zone start fragments) :
    row.documentId = documentId ∧ row.zone = zone ∧ start ≤ row.fragmentIndex ∧ row.source = source ∧
      row.textHash = textHash ∧ row.builderVersion = zoneUnitBuilderVersion ∧ isBlank row.searchBody = false := by
  induction fragments generalizing start with
  | nil => simp [fragmentRows] at h
  | cons fragment rest ih =>
    unfold fragmentRows at h
    split at h
    · exact ih h
    next text _ =>
    by_cases hblank : isBlank text = true
    · rw [if_pos hblank] at h
      exact ih h
    · rw [if_neg hblank] at h
      rcases List.mem_cons.mp h with rfl | h
      · exact ⟨rfl, rfl, le_refl _, rfl, rfl, rfl, by simpa using hblank⟩
      · obtain ⟨hd, hz, hle, hrest⟩ := ih h
        exact ⟨hd, hz, by omega, hrest⟩

theorem fragmentRows_nodup (zone : ZoneKey) (start : Nat) (fragments : List Json) :
    ((fragmentRows documentId source textHash zone start fragments).map ZoneUnitRow.fragmentIndex).Nodup := by
  induction fragments generalizing start with
  | nil => simp [fragmentRows]
  | cons fragment rest ih =>
    unfold fragmentRows
    split
    · exact ih start
    next text _ =>
    by_cases hblank : isBlank text = true
    · rw [if_pos hblank]
      exact ih start
    · rw [if_neg hblank, List.map_cons, List.nodup_cons]
      refine ⟨fun hm => ?_, ih (start + 1)⟩
      obtain ⟨row, hr, heq⟩ := List.mem_map.mp hm
      have heq : row.fragmentIndex = start := heq
      have hle := (mem_fragmentRows hr).2.2.1
      omega

theorem fragmentRows_ne_nil {zone : ZoneKey} {start : Nat} {fragments : List Json} :
    fragmentRows documentId source textHash zone start fragments ≠ [] ↔
      (fragments.any fun fragment => (fragmentText fragment).any fun text => !isBlank text) = true := by
  induction fragments generalizing start with
  | nil => simp [fragmentRows]
  | cons fragment rest ih =>
    unfold fragmentRows
    cases htext : fragmentText fragment with
    | none => simpa [htext] using ih
    | some text =>
      by_cases hblank : isBlank text = true
      · simpa [htext, hblank] using ih
      · simp [htext, hblank]

theorem mem_derive {zones : Json} {row : ZoneUnitRow} (h : row ∈ deriveZoneUnitRows documentId source textHash zones) :
    row.documentId = documentId ∧ row.textHash = textHash ∧ row.builderVersion = zoneUnitBuilderVersion ∧
      isBlank row.searchBody = false := by
  obtain ⟨zone, _, hrow⟩ := List.mem_flatMap.mp h
  split at hrow
  · obtain ⟨hd, _, _, _, hh, hb, hblank⟩ := mem_fragmentRows hrow
    exact ⟨hd, hh, hb, hblank⟩
  · simp at hrow

theorem derive_ne_nil {zones : Json} :
    deriveZoneUnitRows documentId source textHash zones ≠ [] ↔ hasFragmentText zones = true := by
  have hzone : ∀ zone : ZoneKey, (match (zones.index zone.text).asArray with
      | some fragments => fragmentRows documentId source textHash zone 0 fragments
      | none => []) ≠ [] ↔ ((((zones.index zone.text).asArray).getD []).any fun fragment =>
        (fragmentText fragment).any fun text => !isBlank text) = true := by
    intro zone
    cases (zones.index zone.text).asArray with
    | none => simp
    | some fragments => exact fragmentRows_ne_nil
  rw [hasFragmentText, List.any_eq_true, deriveZoneUnitRows, ne_eq, List.flatMap_eq_nil_iff]
  simp only [not_forall]
  constructor
  · rintro ⟨zone, hz, hne⟩
    exact ⟨zone, hz, (hzone zone).mp hne⟩
  · rintro ⟨zone, hz, hany⟩
    exact ⟨zone, hz, (hzone zone).mpr hany⟩

end Rows

theorem normalizeOffset_text {textChars : Text} {offset fragment : Json} (h : normalizeOffset textChars offset = some fragment) :
    (fragmentText fragment).any (fun text => !isBlank text) = true := by
  unfold normalizeOffset at h
  split at h
  · dsimp only at h
    split at h
    · cases h
    split at h
    · cases h
    next hblank =>
    cases h
    have hget : ∀ (stop start : Json) (text : Text), fragmentText (.object [("end".toList, stop),
        ("start".toList, start), ("text".toList, .string text)]) = some text := fun _ _ _ => rfl
    rw [hget]
    simpa using hblank
  · cases h

theorem normalized_index (decision : Json) (key : ZoneKey) :
    (((normalizeJudilibreZones decision).1.index key.text).asArray).getD [] = normalizedFragments decision key := by
  cases key <;> rfl

/-- An `ok` outcome of the normalization leaves a unit to derive. -/
theorem normalize_hasFragmentText {decision : Json} (h : (normalizeJudilibreZones decision).2 = true) :
    hasFragmentText (normalizeJudilibreZones decision).1 = true := by
  obtain ⟨key, hkey, hsome⟩ := List.any_eq_true.mp h
  obtain ⟨fragment, hf⟩ : ∃ fragment, fragment ∈ normalizedFragments decision key := by
    refine List.exists_mem_of_ne_nil _ fun hnil => ?_
    simp [hnil] at hsome
  refine List.any_eq_true.mpr ⟨key, hkey, List.any_eq_true.mpr ⟨fragment, ?_, ?_⟩⟩
  · rw [normalized_index]
    exact hf
  · unfold normalizedFragments at hf
    split at hf
    · obtain ⟨offset, _, ho⟩ := List.mem_filterMap.mp hf
      exact normalizeOffset_text ho
    · simp at hf

theorem nul_not_mem_print (v : Json) : nul ∉ v.print := fun h => absurd (Json.print_printed v h) (by decide)

/-- Where digests do not collide, the hash of a snapshot fixes its zones. -/
theorem zoneTextHash_zones {sha256 : Text → Text} (hsha : Function.Injective sha256) {decision decision' zones zones' : Json}
    {providerId providerId' : Text} (hp : nul ∉ providerId) (hp' : nul ∉ providerId')
    (hu : nul ∉ ((decision.index "update_date".toList).asStr).getD [])
    (hu' : nul ∉ ((decision'.index "update_date".toList).asStr).getD [])
    (h : zoneTextHash sha256 decision zones providerId = zoneTextHash sha256 decision' zones' providerId') :
    zones = zones' := by
  have hshape : ∀ text printed provider update : Text, text ++ nul :: (printed ++ nul :: (provider ++ nul :: update)) =
      ((text ++ nul :: printed) ++ nul :: provider) ++ nul :: update := by simp
  have hfields := hsha (List.append_cancel_left h)
  rw [hshape, hshape] at hfields
  have hprovider := (stem_suffix_unique hu hu' hfields).1
  have hprinted := (stem_suffix_unique hp hp' hprovider).1
  exact Json.print_injective (stem_suffix_unique (nul_not_mem_print zones) (nul_not_mem_print zones') hprinted).2

end CorpusFeed
