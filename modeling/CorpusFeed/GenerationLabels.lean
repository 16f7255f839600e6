import CorpusFeed.DecimalOrder
import CorpusFeed.ReadinessRun

/-! The labels that a media applier takes, and the generations its phases work on:
the label of the manifest in some, and the label made from its counter in others. -/

namespace CorpusFeed

/-- A counter that follows the marker of the corpus is written as
`generation_name` writes it: without a sign, and with the zeros that four
characters ask for. -/
def LabelStrict (corpus label : Text) : Prop :=
  ∀ digits, label = corpus ++ "_g".toList ++ digits → (parseU32 digits).isSome = true →
    digits.head? ≠ some '+' ∧ Padded 4 digits

section Counter

variable {corpus label digits : Text} {n : UInt32}

theorem generationCounterOf_eq_some : generationCounterOf corpus label = some n ↔
    ∃ digits, label = corpus ++ "_g".toList ++ digits ∧ parseU32 digits = some n := by
  unfold generationCounterOf
  dsimp only
  constructor
  · intro h
    split at h
    · next hmarker =>
      obtain ⟨digits, rfl⟩ := List.isPrefixOf_iff_prefix.mp hmarker
      rw [List.drop_left] at h
      exact ⟨digits, rfl, h⟩
    · cases h
  · rintro ⟨digits, rfl, h⟩
    have hmarker : (corpus ++ "_g".toList).isPrefixOf (corpus ++ "_g".toList ++ digits) = true :=
      List.isPrefixOf_iff_prefix.mpr (List.prefix_append _ _)
    rw [if_pos hmarker, List.drop_left]
    exact h

theorem parseU32_unsigned (hplus : digits.head? ≠ some '+') : parseU32 digits = some n ↔
    readDecimal digits = some n.toNat := by
  have hdigits : parseU32 digits =
      (readDecimal digits).bind fun n => if n < 2 ^ 32 then some (UInt32.ofNat n) else none := by
    unfold parseU32
    split
    · next rest => exact absurd rfl hplus
    · dsimp only
      cases readDecimal digits with
      | none => rfl
      | some n => rfl
  rw [hdigits]
  cases readDecimal digits with
  | none => simp
  | some value =>
    by_cases hvalue : value < 2 ^ 32
    · simp only [Option.bind_some, hvalue, if_true, Option.some.injEq]
      constructor
      · rintro rfl
        exact (UInt32.toNat_ofNat_of_lt' hvalue).symm
      · rintro rfl
        exact UInt32.ofNat_toNat
    · simp only [Option.bind_some, hvalue, if_false, reduceCtorEq, Option.some.injEq, false_iff]
      have hlt := n.toNat_lt
      omega

/-- The digits of a counter are written canonically exactly where they have no
sign and no zero too many or too few. -/
theorem parseU32_canonical (h : parseU32 digits = some n) :
    digits = padDecimal 4 n.toNat ↔ digits.head? ≠ some '+' ∧ Padded 4 digits := by
  have hunsigned : digits = padDecimal 4 n.toNat → digits.head? ≠ some '+' := by
    intro heq hplus
    have hmem : '+' ∈ padDecimal 4 n.toNat := heq ▸ List.mem_of_mem_head? hplus
    exact absurd (isDigit_of_mem_padDecimal hmem) (by decide)
  by_cases hplus : digits.head? = some '+'
  · constructor
    · intro heq
      exact absurd hplus (hunsigned heq)
    · rintro ⟨hno, _⟩
      exact absurd hplus hno
  · obtain ⟨_, hdigits, hvalue⟩ := readDecimal_eq_some.mp ((parseU32_unsigned hplus).mp h)
    rw [← hvalue, eq_padDecimal_iff (by decide) hdigits]
    exact ⟨fun hpadded => ⟨hplus, hpadded⟩, fun hstrict => hstrict.2⟩

/-- A label is taken for the counter it was made from exactly where it is strict. -/
theorem generationCounterOf_iff (corpus label : Text) :
    (∀ n, generationCounterOf corpus label = some n ↔ label = generationName corpus n) ↔ LabelStrict corpus label := by
  constructor
  · intro h digits hlabel hparsed
    obtain ⟨n, hn⟩ := Option.isSome_iff_exists.mp hparsed
    have hname := (h n).mp (generationCounterOf_eq_some.mpr ⟨digits, hlabel, hn⟩)
    rw [hlabel, generationName, List.append_cancel_left_eq] at hname
    exact (parseU32_canonical hn).mp hname
  · intro h n
    constructor
    · intro hcounter
      obtain ⟨digits, hlabel, hn⟩ := generationCounterOf_eq_some.mp hcounter
      have hstrict := h digits hlabel (by rw [hn]; rfl)
      rw [hlabel, (parseU32_canonical hn).mpr hstrict, generationName]
    · rintro rfl
      exact generationCounterOf_generationName corpus n

theorem generationName_strict_iff (h : generationCounterOf corpus label = some n) :
    generationName corpus n = label ↔ LabelStrict corpus label := by
  rw [← generationCounterOf_iff]
  constructor
  · rintro rfl m
    constructor
    · intro hm
      obtain ⟨_, rfl⟩ := generationCounterOf_inj hm
      rfl
    · intro heq
      rw [heq]
      exact generationCounterOf_generationName corpus m
  · intro hall
    exact ((hall n).mp h).symm

end Counter

variable {α : Type*}

namespace MediaApply

/-- The generation that a phase works on. -/
def phaseLabel (m : MediaApply) : MediaPhase → Text
  | .reset => m.label
  | .register => m.createdLabel
  | .clone => m.createdLabel
  | .copy => m.createdLabel
  | .index => m.label
  | .validate => m.createdLabel
  | .activate => m.label

/-- A phase of the apply over a generation of any name. -/
def phaseOn (env : ClientEnv α) (lockFree : Bool) (m : MediaApply) (generation : Text) (db : Database α) :
    MediaPhase → Except SyncError (Database α)
  | .reset => liftStorage (db.resetBuildingGeneration m.corpus generation)
  | .register =>
    match db.registry.insert ⟨m.corpus, generation, schemaForGeneration generation, .building,
        some m.manifest.identity.baselineId, none, none⟩ with
    | none => .error (.storage (.postgresClient "duplicate key value violates unique constraint"))
    | some registry => .ok { db with registry := registry }
  | .clone =>
    match db.schemas.insert (schemaIdentifier generation, env.tables) with
    | none => .error (.storage (.postgresClient "schema already exists"))
    | some schemas => .ok { db with schemas := schemas }
  | .copy => db.mapSchema (schemaIdentifier generation) (env.copyPayloadIn m.artifact m.manifest)
  | .index => db.mapSchema (schemaIdentifier generation) (env.buildIndexes m.manifest)
  | .validate =>
    match db.schemas.find? (schemaIdentifier generation) with
    | none => .error (.storage (.postgresClient "schema does not exist"))
    | some (_, rows) =>
      if env.postconditionsHold m.manifest rows then .ok db
      else .error (.reject .digestMismatch "postcondition mismatch")
  | .activate => liftStorage (db.activateGeneration env.ready lockFree m.corpus generation m.stamps
      (m.mode.guard m.manifest.apply.resultSequence))

/-- Each phase of the applier is the phase over its own generation. -/
theorem mediaStep_eq_phaseOn (env : ClientEnv α) (lockFree : Bool) (m : MediaApply) (db : Database α)
    (phase : MediaPhase) : mediaStep env lockFree m db phase = m.phaseOn env lockFree (m.phaseLabel phase) db phase := by
  cases phase with
  | reset => rfl
  | register =>
    simp only [mediaStep, phaseOn, phaseLabel, createdLabel, Database.registerGeneration, generationSchema]
    cases db.registry.insert ⟨m.corpus, generationName m.corpus.name m.counter, _, .building, _, none, none⟩ with
    | none => rfl
    | some registry => rfl
  | clone =>
    simp only [mediaStep, phaseOn, phaseLabel, createdLabel, Database.cloneSchema]
    cases db.schemas.insert (schemaIdentifier (generationName m.corpus.name m.counter), env.tables) with
    | none => rfl
    | some schemas => rfl
  | copy => rfl
  | index => rfl
  | validate => rfl
  | activate => rfl

theorem phaseLabel_iff (m : MediaApply) : (∀ phase, m.phaseLabel phase = m.label) ↔ m.createdLabel = m.label := by
  constructor
  · exact fun h => h .register
  · intro h phase
    cases phase with
    | reset => rfl
    | register => exact h
    | clone => exact h
    | copy => exact h
    | index => rfl
    | validate => exact h
    | activate => rfl

end MediaApply

/-- An apply that activates a label finds it registered. -/
theorem runMedia_registered {env : ClientEnv α} {lockFree : Bool} {m : MediaApply} {phases : List MediaPhase}
    {db db' : Database α} {outcome : ApplyOutcome} (h : AdmittedLabels db) (hactivate : .activate ∈ phases)
    (hrun : runMedia env lockFree m phases db = (db', .ok outcome)) :
    ∃ n, m.label = generationName m.corpus.name n := by
  induction phases generalizing db with
  | nil => cases hactivate
  | cons phase phases ih =>
    rw [runMedia] at hrun
    cases hstep : mediaStep env lockFree m db phase with
    | error e =>
      rw [hstep] at hrun
      cases hrun
    | ok next =>
      rw [hstep] at hrun
      rcases List.mem_cons.mp hactivate with rfl | hlater
      · obtain ⟨row, hrow, hkey, _⟩ := Database.activateGeneration_cases (liftStorage_ok hstep)
        obtain ⟨hcorpus, hgeneration⟩ := GenerationRow.key_eq_iff.mp hkey
        obtain ⟨n, hn⟩ := h.registered row hrow
        exact ⟨n, by rw [← hgeneration, hn, hcorpus]⟩
      · exact ih (h.mediaStep hstep) hlater hrun

/-- Labels and generations of media packages. The applier starts to build under a
label that is not strict and does so over two generations; it never finishes there. -/
theorem media_generation_iff (env : ClientEnv α) (mode : MediaApplyMode) (lockFree : Bool) :
    (∀ corpus label, (∀ n, generationCounterOf corpus label = some n ↔ label = generationName corpus n) ↔
      LabelStrict corpus label) ∧
    (∀ db artifact m, startMedia env mode db artifact = .ok (.inr m) →
      ((∀ phase, m.phaseLabel phase = m.manifest.identity.generation) ↔
        LabelStrict m.corpus.name m.manifest.identity.generation)) ∧
    ∀ db artifact m db' outcome, AdmittedLabels db → startMedia env mode db artifact = .ok (.inr m) →
      runMedia env lockFree m mediaPhases db = (db', .ok outcome) →
        ∀ phase, m.phaseLabel phase = m.manifest.identity.generation := by
  have hsplit : ∀ db artifact m, startMedia env mode db artifact = .ok (.inr m) →
      ((∀ phase, m.phaseLabel phase = m.manifest.identity.generation) ↔
        LabelStrict m.corpus.name m.manifest.identity.generation) := by
    intro db artifact m hstart
    obtain ⟨_, _, _, _, _, hcounter⟩ := startMedia_build hstart
    exact m.phaseLabel_iff.trans (generationName_strict_iff hcounter)
  refine ⟨generationCounterOf_iff, hsplit, fun db artifact m db' outcome hlabels hstart hrun => ?_⟩
  obtain ⟨n, hn⟩ := runMedia_registered hlabels (by decide) hrun
  obtain ⟨_, _, _, _, _, hcounter⟩ := startMedia_build hstart
  rw [hn] at hcounter
  obtain ⟨_, rfl⟩ := generationCounterOf_inj hcounter
  exact m.phaseLabel_iff.mpr hn.symm

/-- A first baseline of the corpus `core` under another label. -/
def labelledManifest (label : Text) : EmbeddedManifest :=
  let manifest := plainManifest coreCorpus .baseline "core-0".toList 0 0 none
  { manifest with identity := { manifest.identity with generation := label } }

def labelledApply (label : Text) (counter : UInt32) : MediaApply :=
  ⟨.baseline, plainArtifact (labelledManifest label), labelledManifest label, counter⟩

theorem labelled_started :
    startMedia plainClient .baseline Database.empty (plainArtifact (labelledManifest "core_g0001".toList)) =
      .ok (.inr (labelledApply "core_g0001".toList 1)) := rfl

/-- The applier takes the label of one digit, and works on two generations. -/
theorem short_label_split :
    generationCounterOf "core".toList "core_g1".toList = some 1 ∧ "core_g1".toList ≠ generationName "core".toList 1 ∧
    startMedia plainClient .baseline Database.empty (plainArtifact (labelledManifest "core_g1".toList)) =
      .ok (.inr (labelledApply "core_g1".toList 1)) ∧
    (labelledApply "core_g1".toList 1).phaseLabel .reset = "core_g1".toList ∧
    (labelledApply "core_g1".toList 1).phaseLabel .register = "core_g0001".toList :=
  ⟨rfl, by decide, rfl, rfl, rfl⟩

theorem padded_label_built : LabelStrict "core".toList "core_g0001".toList ∧
    ∃ db' outcome, runMedia plainClient true (labelledApply "core_g0001".toList 1) mediaPhases Database.empty =
        (db', .ok outcome) ∧
      ∀ phase, (labelledApply "core_g0001".toList 1).phaseLabel phase = "core_g0001".toList := by
  obtain ⟨db', outcome, hrun⟩ : ∃ db' outcome, runMedia plainClient true (labelledApply "core_g0001".toList 1)
      mediaPhases Database.empty = (db', .ok outcome) := ⟨_, _, rfl⟩
  have hphases := (media_generation_iff plainClient .baseline true).2.2 _ _ _ _ _ AdmittedLabels.empty
    labelled_started hrun
  exact ⟨((media_generation_iff plainClient .baseline true).2.1 _ _ _ labelled_started).mp hphases,
    db', outcome, hrun, hphases⟩

end CorpusFeed
