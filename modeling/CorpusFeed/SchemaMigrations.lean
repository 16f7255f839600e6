import CorpusFeed.DecimalText
import CorpusFeed.Runs
import Mathlib.Data.List.Sort

/-! The migrations of a database by any number of concurrent runs, of binaries
with longer or shorter lists. A migration commits with its version stamp, in one
transaction, and the ledger has each version at most once. -/

namespace CorpusFeed

structure Migration (σ : Type*) where
  version : Nat
  name : Text
  /-- The effect of its statements, unless one of them fails. -/
  sql : σ → Option σ

inductive MigrationError where
  | migrationPlan (message : String)
  | schemaVersionAhead (databaseVersion binaryVersion : Nat)
  | extensionPrivilege (extension : Text) (dbaSql : String)
  | postgresClient
deriving DecidableEq

structure MigrationReport where
  applied : List Nat
  currentVersion : Nat
deriving DecidableEq

/-- The ledger, absent before the first run, the installed extensions and the
schema that the statements of the migrations act on. -/
structure MigratedDatabase (σ : Type*) where
  ledger : Option (List (Nat × Text))
  extensions : List Text
  schema : σ

def Migration.requiredExtensions : List Text := ["vector".toList, "pg_search".toList]

def requiredExtensionDbaSql : String :=
  "CREATE EXTENSION IF NOT EXISTS \"vector\";\nCREATE EXTENSION IF NOT EXISTS \"pg_search\";"

def requiredExtensionMigration : Nat := 1

/-- A binary, by its migrations and its `CURRENT_SCHEMA_VERSION`, and which
extensions the role it connects with may create. -/
structure MigrationRun (σ : Type*) where
  migrations : List (Migration σ)
  currentSchemaVersion : Nat
  privileged : Text → Bool

section Step

variable {σ : Type*}

def checkContiguous : (expected : Nat) → List (Migration σ) → Except MigrationError Unit
  | _, [] => .ok ()
  | expected, m :: rest =>
    if m.version ≠ expected then .error (.migrationPlan
      s!"migration versions must be contiguous from 1; expected {expected}, found {m.version}")
    else checkContiguous (expected + 1) rest

def validateMigrationList (run : MigrationRun σ) : Except MigrationError Unit :=
  match checkContiguous 1 run.migrations with
  | .error e => .error e
  | .ok () =>
    let latest := (run.migrations.getLast?.map Migration.version).getD 0
    if latest ≠ run.currentSchemaVersion then .error (.migrationPlan
      s!"CURRENT_SCHEMA_VERSION ({run.currentSchemaVersion}) must match latest migration ({latest})")
    else .ok ()

def ledgerVersions (db : MigratedDatabase σ) : List Nat := (db.ledger.getD []).map Prod.fst

def ensureExtension (privileged : Text → Bool) (extension : Text) (db : MigratedDatabase σ) :
    Except MigrationError (MigratedDatabase σ) :=
  if extension ∈ db.extensions then .ok db
  else if privileged extension then .ok { db with extensions := extension :: db.extensions }
  else .error (.extensionPrivilege extension requiredExtensionDbaSql)

def ensureExtensions (privileged : Text → Bool) :
    List Text → MigratedDatabase σ → Except MigrationError (MigratedDatabase σ)
  | [], db => .ok db
  | extension :: rest, db => do
    let db ← ensureExtension privileged extension db
    ensureExtensions privileged rest db

/-- The statements of a migration and its stamp, which fails when another run has
stamped the version. -/
def stampMigration (m : Migration σ) (db : MigratedDatabase σ) : Except MigrationError (MigratedDatabase σ) :=
  match m.sql db.schema with
  | none => .error .postgresClient
  | some schema =>
    if m.version ∈ ledgerVersions db then .error .postgresClient
    else .ok { db with ledger := some (db.ledger.getD [] ++ [(m.version, m.name)]), schema }

/-- The transaction of one migration: nothing of it stays when it fails. -/
def applyMigration (privileged : Text → Bool) (m : Migration σ) (db : MigratedDatabase σ) :
    Except MigrationError (MigratedDatabase σ) :=
  if m.version = requiredExtensionMigration then do
    let db ← ensureExtensions privileged Migration.requiredExtensions db
    stampMigration m db
  else stampMigration m db

/-- Where a run is. Outside a transaction each of its statements commits. -/
inductive MigrationPhase (σ : Type*) where
  | starting
  | reading
  | ensuring (applied : List Nat) (missing : List Text)
  | migrating (applied : List Nat) (rest : List (Migration σ))
  | ended (result : Except MigrationError MigrationReport)

def readApplied (run : MigrationRun σ) (applied : List Nat) : MigrationPhase σ :=
  match applied.max? with
  | none => .migrating applied run.migrations
  | some databaseVersion =>
    if run.currentSchemaVersion < databaseVersion then
      .ended (.error (.schemaVersionAhead databaseVersion run.currentSchemaVersion))
    else if applied.contains requiredExtensionMigration then .ensuring applied Migration.requiredExtensions
    else .migrating applied run.migrations

/-- One committed statement or transaction of a run. -/
def nextMigration (run : MigrationRun σ) (db : MigratedDatabase σ) :
    MigrationPhase σ → MigratedDatabase σ × MigrationPhase σ
  | .starting =>
    match validateMigrationList run with
    | .error e => (db, .ended (.error e))
    | .ok () => ({ db with ledger := some (db.ledger.getD []) }, .reading)
  | .reading => (db, readApplied run ((ledgerVersions db).insertionSort (· ≤ ·)))
  | .ensuring applied [] => (db, .migrating applied run.migrations)
  | .ensuring applied (extension :: missing) =>
    match ensureExtension run.privileged extension db with
    | .error e => (db, .ended (.error e))
    | .ok db => (db, .ensuring applied missing)
  | .migrating applied [] =>
    (db, .ended (.ok ⟨applied.insertionSort (· ≤ ·), run.currentSchemaVersion⟩))
  | .migrating applied (m :: rest) =>
    if applied.contains m.version then (db, .migrating applied rest)
    else
      match applyMigration run.privileged m db with
      | .error e => (db, .ended (.error e))
      | .ok db => (db, .migrating (applied ++ [m.version]) rest)
  | .ended result => (db, .ended result)

/-- The database and the runs on it. -/
structure MigrationSystem (σ : Type*) (ι : Type*) where
  db : MigratedDatabase σ
  phase : ι → MigrationPhase σ

inductive MigrationAction (ι : Type*) where
  | next (i : ι)
  /-- The connection of a run fails, and what it has not committed is rolled back. -/
  | fail (i : ι)

def MigrationSystem.step {ι : Type*} [DecidableEq ι] (runs : ι → MigrationRun σ) (s : MigrationSystem σ ι) :
    MigrationAction ι → MigrationSystem σ ι
  | .next i =>
    let result := nextMigration (runs i) s.db (s.phase i)
    ⟨result.1, Function.update s.phase i result.2⟩
  | .fail i =>
    match s.phase i with
    | .ended _ => s
    | _ => ⟨s.db, Function.update s.phase i (.ended (.error .postgresClient))⟩

end Step

section Ledger

variable {σ : Type*} {releases : List (Migration σ)} {base : σ} {db db' : MigratedDatabase σ} {n k : Nat}
  {run : MigrationRun σ} {m : Migration σ} {privileged : Text → Bool}

/-- The schema after the first migrations, each applied once and in order. -/
def schemaAt (releases : List (Migration σ)) (base : σ) (n : Nat) : Option σ :=
  (releases.take n).foldlM (fun schema m => m.sql schema) base

/-- The database stands after the first `n` of the releases. -/
structure MigratedTo (releases : List (Migration σ)) (base : σ) (n : Nat) (db : MigratedDatabase σ) : Prop where
  bounded : n ≤ releases.length
  ledger : db.ledger.getD [] = (releases.take n).map fun m => (m.version, m.name)
  versions : ledgerVersions db = List.range' 1 n
  schema : schemaAt releases base n = some db.schema

/-- What the runs do to a database is never undone. -/
structure Grows (db db' : MigratedDatabase σ) : Prop where
  versions : (ledgerVersions db).length ≤ (ledgerVersions db').length
  extensions : ∀ extension ∈ db.extensions, extension ∈ db'.extensions

theorem Grows.refl (db : MigratedDatabase σ) : Grows db db := ⟨Nat.le_refl _, fun _ h => h⟩

theorem MigratedTo.length (h : MigratedTo releases base n db) : (ledgerVersions db).length = n := by
  rw [h.versions, List.length_range']

theorem checkContiguous_ok {expected : Nat} {migrations : List (Migration σ)}
    (h : checkContiguous expected migrations = .ok ()) :
    migrations.map Migration.version = List.range' expected migrations.length := by
  induction migrations generalizing expected with
  | nil => rfl
  | cons m rest ih =>
    rw [checkContiguous] at h
    split at h
    · cases h
    next hversion =>
      have hfirst : m.version = expected := not_not.mp hversion
      rw [List.map_cons, List.length_cons, List.range'_succ, ih h, hfirst]

theorem validateMigrationList_ok (h : validateMigrationList run = .ok ()) :
    run.migrations.map Migration.version = List.range' 1 run.migrations.length ∧
      run.currentSchemaVersion = run.migrations.length := by
  rw [validateMigrationList] at h
  split at h
  · cases h
  next hcontiguous =>
  have hversions := checkContiguous_ok hcontiguous
  refine ⟨hversions, ?_⟩
  dsimp only at h
  split at h
  · cases h
  next hlatest =>
    rw [← not_not.mp hlatest, ← List.getLast?_map, hversions, List.getLast?_range']
    split
    next hempty => rw [hempty]; rfl
    next hsome =>
      rw [Option.getD_some]
      omega

theorem ensureExtension_ok {extension : Text} (h : ensureExtension privileged extension db = .ok db') :
    db'.ledger = db.ledger ∧ db'.schema = db.schema ∧ extension ∈ db'.extensions ∧
      ∀ other ∈ db.extensions, other ∈ db'.extensions := by
  rw [ensureExtension] at h
  split at h
  next hmem =>
    cases h
    exact ⟨rfl, rfl, hmem, fun _ h => h⟩
  split at h
  · cases h
    exact ⟨rfl, rfl, List.mem_cons_self, fun _ h => List.mem_cons_of_mem _ h⟩
  · cases h

theorem ensureExtensions_ok {extensions : List Text} (h : ensureExtensions privileged extensions db = .ok db') :
    db'.ledger = db.ledger ∧ db'.schema = db.schema ∧ (∀ extension ∈ extensions, extension ∈ db'.extensions) ∧
      ∀ other ∈ db.extensions, other ∈ db'.extensions := by
  induction extensions generalizing db with
  | nil =>
    cases h
    exact ⟨rfl, rfl, by simp, fun _ h => h⟩
  | cons extension extensions ih =>
    rw [ensureExtensions] at h
    cases hfirst : ensureExtension privileged extension db with
    | error e =>
      rw [hfirst] at h
      cases h
    | ok between =>
      rw [hfirst] at h
      obtain ⟨hledger, hschema, hmem, hkept⟩ := ensureExtension_ok hfirst
      obtain ⟨hledger', hschema', hall, hkept'⟩ := ih h
      refine ⟨hledger'.trans hledger, hschema'.trans hschema, ?_, fun other h => hkept' other (hkept other h)⟩
      intro other hother
      rcases List.mem_cons.mp hother with rfl | hother
      · exact hkept' other hmem
      · exact hall other hother

/-- What a committed migration has done. -/
structure Committed (m : Migration σ) (db db' : MigratedDatabase σ) : Prop where
  fresh : m.version ∉ ledgerVersions db
  ledger : db'.ledger = some (db.ledger.getD [] ++ [(m.version, m.name)])
  schema : m.sql db.schema = some db'.schema
  kept : ∀ extension ∈ db.extensions, extension ∈ db'.extensions
  installed : m.version = requiredExtensionMigration →
    ∀ extension ∈ Migration.requiredExtensions, extension ∈ db'.extensions

theorem stampMigration_ok {ensured : MigratedDatabase σ} (h : stampMigration m ensured = .ok db')
    (hledger : ensured.ledger = db.ledger) (hschema : ensured.schema = db.schema)
    (hkept : ∀ extension ∈ db.extensions, extension ∈ ensured.extensions)
    (hinstalled : m.version = requiredExtensionMigration →
      ∀ extension ∈ Migration.requiredExtensions, extension ∈ ensured.extensions) : Committed m db db' := by
  rw [stampMigration] at h
  split at h
  · cases h
  next schema hsql =>
  split at h
  · cases h
  next hfresh =>
    cases h
    rw [ledgerVersions, hledger] at hfresh
    exact ⟨hfresh, by rw [hledger], by rw [← hschema]; exact hsql, hkept, hinstalled⟩

theorem applyMigration_ok (h : applyMigration privileged m db = .ok db') : Committed m db db' := by
  rw [applyMigration] at h
  by_cases hfirst : m.version = requiredExtensionMigration
  · rw [if_pos hfirst] at h
    cases hensured : ensureExtensions privileged Migration.requiredExtensions db with
    | error e =>
      rw [hensured] at h
      cases h
    | ok ensured =>
      rw [hensured] at h
      obtain ⟨hledger, hschema, hall, hkept⟩ := ensureExtensions_ok hensured
      exact stampMigration_ok h hledger hschema hkept fun _ => hall
  · rw [if_neg hfirst] at h
    exact stampMigration_ok h rfl rfl (fun _ h => h) fun h => absurd h hfirst

theorem Committed.migrates (h : Committed m db db') (hdb : MigratedTo releases base n db)
    (hrelease : releases[k]? = some m) (hversion : m.version = k + 1) (hk : k ≤ n) :
    n = k ∧ MigratedTo releases base (k + 1) db' := by
  have hnk : n = k := by
    have hfresh := h.fresh
    rw [hdb.versions, hversion, List.mem_range'_1] at hfresh
    omega
  subst hnk
  obtain ⟨hlt, hget⟩ := List.getElem?_eq_some_iff.mp hrelease
  have htake : releases.take (n + 1) = releases.take n ++ [m] := by
    rw [List.take_add_one, hrelease]
    rfl
  refine ⟨rfl, by omega, ?_, ?_, ?_⟩
  · rw [h.ledger, htake, List.map_append, ← hdb.ledger]
    rfl
  · have hversions := hdb.versions
    rw [ledgerVersions] at hversions ⊢
    rw [h.ledger, Option.getD_some, List.map_append, hversions, List.range'_concat]
    simp [hversion, Nat.add_comm]
  · have hschema := hdb.schema
    rw [schemaAt] at hschema ⊢
    rw [htake, List.foldlM_append, hschema]
    simp [h.schema]

theorem Committed.grows (h : Committed m db db') : Grows db db' := by
  refine ⟨?_, h.kept⟩
  rw [ledgerVersions, ledgerVersions, h.ledger]
  simp

/-- What a run knows of the database, in each of its phases. -/
def PhaseHolds (run : MigrationRun σ) (db : MigratedDatabase σ) : MigrationPhase σ → Prop
  | .starting => True
  | .reading => validateMigrationList run = .ok ()
  | .ensuring applied missing =>
    validateMigrationList run = .ok () ∧ (∃ a ≤ run.migrations.length, a ≤ (ledgerVersions db).length ∧
      applied = List.range' 1 a) ∧
      ∀ extension ∈ Migration.requiredExtensions, extension ∈ missing ∨ extension ∈ db.extensions
  | .migrating applied rest =>
    validateMigrationList run = .ok () ∧ ∃ a ≤ run.migrations.length, a ≤ (ledgerVersions db).length ∧
      applied = List.range' 1 a ∧ (∃ j ≤ a, rest = run.migrations.drop j) ∧
      (0 < a → ∀ extension ∈ Migration.requiredExtensions, extension ∈ db.extensions)
  | .ended (.error e) => ∀ v b, e = .schemaVersionAhead v b →
      b = run.currentSchemaVersion ∧ b < v ∧ v ≤ (ledgerVersions db).length
  | .ended (.ok report) =>
    report = ⟨List.range' 1 run.currentSchemaVersion, run.currentSchemaVersion⟩ ∧
      run.currentSchemaVersion ≤ (ledgerVersions db).length ∧
      (0 < run.currentSchemaVersion → ∀ extension ∈ Migration.requiredExtensions, extension ∈ db.extensions)

theorem PhaseHolds.grows {phase : MigrationPhase σ} (h : PhaseHolds run db phase) (hgrows : Grows db db') :
    PhaseHolds run db' phase := by
  have hversions := hgrows.versions
  cases phase with
  | starting => trivial
  | reading => exact h
  | ensuring applied missing =>
    obtain ⟨hvalid, ⟨a, ha, hlevel, happlied⟩, hall⟩ := h
    refine ⟨hvalid, ⟨a, ha, by omega, happlied⟩, ?_⟩
    intro extension hmem
    exact (hall extension hmem).imp_right (hgrows.extensions extension)
  | migrating applied rest =>
    obtain ⟨hvalid, a, ha, hlevel, happlied, hrest, hall⟩ := h
    exact ⟨hvalid, a, ha, by omega, happlied, hrest,
      fun hpos extension hmem => hgrows.extensions extension (hall hpos extension hmem)⟩
  | ended result =>
    cases result with
    | error e =>
      intro v b he
      obtain ⟨hb, hlt, hle⟩ := h v b he
      exact ⟨hb, hlt, by omega⟩
    | ok report =>
      obtain ⟨hreport, hlevel, hall⟩ := h
      exact ⟨hreport, by omega, fun hpos extension hmem => hgrows.extensions extension (hall hpos extension hmem)⟩

theorem sorted_range' (a : Nat) : (List.range' 1 a).insertionSort (· ≤ ·) = List.range' 1 a :=
  List.Pairwise.insertionSort_eq (List.pairwise_le_range' 1)

theorem max?_range' (a : Nat) : (List.range' 1 (a + 1)).max? = some (a + 1) := by
  rw [List.max?_eq_some_iff]
  constructor
  · rw [List.mem_range'_1]
    omega
  · intro b hb
    rw [List.mem_range'_1] at hb
    omega

theorem checkContiguous_error {expected : Nat} {migrations : List (Migration σ)} {e : MigrationError}
    (h : checkContiguous expected migrations = .error e) : ∃ message, e = .migrationPlan message := by
  induction migrations generalizing expected with
  | nil => cases h
  | cons m rest ih =>
    rw [checkContiguous] at h
    split at h
    · cases h
      exact ⟨_, rfl⟩
    · exact ih h

theorem validateMigrationList_error {e : MigrationError} (h : validateMigrationList run = .error e) :
    ∃ message, e = .migrationPlan message := by
  rw [validateMigrationList] at h
  split at h
  next he =>
    cases h
    exact checkContiguous_error he
  next =>
    dsimp only at h
    split at h
    · cases h
      exact ⟨_, rfl⟩
    · cases h

theorem ensureExtension_error {extension : Text} {e : MigrationError}
    (h : ensureExtension privileged extension db = .error e) :
    e = .extensionPrivilege extension requiredExtensionDbaSql := by
  rw [ensureExtension] at h
  split at h
  · cases h
  split at h
  · cases h
  · cases h
    rfl

theorem ensureExtensions_error {extensions : List Text} {e : MigrationError}
    (h : ensureExtensions privileged extensions db = .error e) :
    ∃ extension, e = .extensionPrivilege extension requiredExtensionDbaSql := by
  induction extensions generalizing db with
  | nil => cases h
  | cons extension rest ih =>
    rw [ensureExtensions] at h
    cases hfirst : ensureExtension privileged extension db with
    | error e' =>
      rw [hfirst] at h
      cases h
      exact ⟨extension, ensureExtension_error hfirst⟩
    | ok between =>
      rw [hfirst] at h
      exact ih h

theorem stampMigration_error {e : MigrationError} (h : stampMigration m db = .error e) : e = .postgresClient := by
  rw [stampMigration] at h
  split at h
  · cases h
    rfl
  split at h
  · cases h
    rfl
  · cases h

theorem applyMigration_error {e : MigrationError} (h : applyMigration privileged m db = .error e) (v b : Nat) :
    e ≠ .schemaVersionAhead v b := by
  rw [applyMigration] at h
  split at h
  · cases hensured : ensureExtensions privileged Migration.requiredExtensions db with
    | error e' =>
      rw [hensured] at h
      cases h
      obtain ⟨extension, rfl⟩ := ensureExtensions_error hensured
      simp
    | ok ensured =>
      rw [hensured] at h
      rw [stampMigration_error h]
      simp
  · rw [stampMigration_error h]
    simp

/-- What one step of a run keeps and leaves. -/
structure StepHolds (releases : List (Migration σ)) (base : σ) (run : MigrationRun σ) (n : Nat)
    (db : MigratedDatabase σ) (result : MigratedDatabase σ × MigrationPhase σ) : Prop where
  migrated : ∃ n', n ≤ n' ∧ MigratedTo releases base n' result.1
  grows : Grows db result.1
  phase : PhaseHolds run result.1 result.2

theorem readApplied_holds (hdb : MigratedTo releases base n db) (hvalid : validateMigrationList run = .ok ()) :
    PhaseHolds run db (readApplied run ((ledgerVersions db).insertionSort (· ≤ ·))) := by
  obtain ⟨_, hcurrent⟩ := validateMigrationList_ok hvalid
  have hlength := hdb.length
  rw [hdb.versions, sorted_range', readApplied]
  cases n with
  | zero => exact ⟨hvalid, 0, Nat.zero_le _, Nat.zero_le _, rfl, ⟨0, Nat.le_refl 0, rfl⟩, fun h => absurd h (by omega)⟩
  | succ n =>
    rw [max?_range']
    dsimp only
    split
    next hahead =>
      intro v b he
      cases he
      exact ⟨rfl, hahead, by omega⟩
    next hsupported =>
    split
    next hfirst =>
      exact ⟨hvalid, ⟨n + 1, by omega, by omega, rfl⟩, fun extension h => .inl h⟩
    next hfirst =>
      exfalso
      apply hfirst
      rw [List.contains_iff_mem, List.mem_range'_1]
      show 1 ≤ 1 ∧ 1 < 1 + (n + 1)
      omega

theorem next_release {j : Nat} {rest : List (Migration σ)}
    (hversions : run.migrations.map Migration.version = List.range' 1 run.migrations.length)
    (hdrop : m :: rest = run.migrations.drop j) :
    run.migrations[j]? = some m ∧ m.version = j + 1 ∧ rest = run.migrations.drop (j + 1) := by
  have hget : run.migrations[j]? = some m := by
    have hzero : (run.migrations.drop j)[0]? = some m := by rw [← hdrop]; rfl
    rwa [List.getElem?_drop, Nat.add_zero] at hzero
  refine ⟨hget, ?_, ?_⟩
  · have hversion : (run.migrations.map Migration.version)[j]? = some m.version := by
      rw [List.getElem?_map, hget, Option.map_some]
    obtain ⟨hlt, _⟩ := List.getElem?_eq_some_iff.mp hget
    rw [hversions, List.getElem?_range' hlt, Option.some.injEq] at hversion
    omega
  · have htail := congrArg List.tail hdrop
    rwa [List.tail_cons, List.tail_drop] at htail

theorem StepHolds.same {phase : MigrationPhase σ} (hdb : MigratedTo releases base n db) (h : PhaseHolds run db phase) :
    StepHolds releases base run n db (db, phase) :=
  ⟨⟨n, Nat.le_refl n, hdb⟩, Grows.refl db, h⟩

theorem starting_holds (hdb : MigratedTo releases base n db) :
    StepHolds releases base run n db (nextMigration run db .starting) := by
  rw [nextMigration]
  cases hvalid : validateMigrationList run with
  | error e =>
    refine .same hdb fun v b he => ?_
    obtain ⟨message, hplan⟩ := validateMigrationList_error hvalid
    rw [hplan] at he
    cases he
  | ok u =>
    refine ⟨⟨n, Nat.le_refl n, hdb.bounded, hdb.ledger, hdb.versions, hdb.schema⟩, ?_, hvalid⟩
    exact ⟨Nat.le_refl _, fun _ h => h⟩

theorem ensuring_holds {applied : List Nat} {missing : List Text} (hdb : MigratedTo releases base n db)
    (h : PhaseHolds run db (.ensuring applied missing)) :
    StepHolds releases base run n db (nextMigration run db (.ensuring applied missing)) := by
  obtain ⟨hvalid, ⟨a, ha, hlevel, happlied⟩, hall⟩ := h
  cases missing with
  | nil =>
    refine .same hdb ⟨hvalid, a, ha, hlevel, happlied, ⟨0, Nat.zero_le a, rfl⟩, ?_⟩
    intro _ extension hmem
    rcases hall extension hmem with hmissing | hpresent
    · cases hmissing
    · exact hpresent
  | cons extension missing =>
    rw [nextMigration]
    cases hensured : ensureExtension run.privileged extension db with
    | error e =>
      refine .same hdb fun v b he => ?_
      rw [ensureExtension_error hensured] at he
      cases he
    | ok db' =>
      obtain ⟨hledger, hschema, hmem, hpresent⟩ := ensureExtension_ok hensured
      have hversions : ledgerVersions db' = ledgerVersions db := by rw [ledgerVersions, hledger, ledgerVersions]
      refine ⟨⟨n, Nat.le_refl n, hdb.bounded, ?_, ?_, ?_⟩, ⟨by rw [hversions], hpresent⟩, hvalid,
        ⟨a, ha, ?_, happlied⟩, ?_⟩
      · rw [hledger, hdb.ledger]
      · rw [hversions, hdb.versions]
      · rw [hdb.schema, hschema]
      · rw [hversions]
        exact hlevel
      · intro other hother
        rcases hall other hother with hmissing | hthere
        · rcases List.mem_cons.mp hmissing with rfl | hmissing
          · exact .inr hmem
          · exact .inl hmissing
        · exact .inr (hpresent other hthere)

/-- The migration that comes after all that the run has seen applied. -/
theorem applying_holds {a : Nat} {rest : List (Migration σ)} (hreleases : run.migrations <+: releases)
    (hdb : MigratedTo releases base n db) (h : PhaseHolds run db (.migrating (List.range' 1 a) (m :: rest)))
    (hget : run.migrations[a]? = some m) (hversion : m.version = a + 1) (hnext : rest = run.migrations.drop (a + 1))
    (hlevel : a ≤ n)
    (hall : 0 < a → ∀ extension ∈ Migration.requiredExtensions, extension ∈ db.extensions)
    (hfresh : (List.range' 1 a).contains m.version = false) :
    StepHolds releases base run n db (nextMigration run db (.migrating (List.range' 1 a) (m :: rest))) := by
  rw [nextMigration, hfresh, if_neg Bool.false_ne_true]
  cases hresult : applyMigration run.privileged m db with
  | error e => exact .same hdb fun v b he => absurd he (applyMigration_error hresult v b)
  | ok db' =>
    have hcommitted := applyMigration_ok hresult
    obtain ⟨hlt, _⟩ := List.getElem?_eq_some_iff.mp hget
    have hrelease : releases[a]? = some m := by
      obtain ⟨later, rfl⟩ := hreleases
      rw [List.getElem?_append_left hlt, hget]
    obtain ⟨hna, hmigrated⟩ := hcommitted.migrates hdb hrelease hversion hlevel
    refine ⟨⟨a + 1, by omega, hmigrated⟩, hcommitted.grows, h.1, a + 1, ?_, ?_, ?_,
      ⟨a + 1, Nat.le_refl _, hnext⟩, ?_⟩
    · exact hlt
    · rw [hmigrated.length]
    · rw [hversion, List.range'_concat]
      simp [Nat.add_comm]
    · intro _
      by_cases hfirst : a = 0
      · exact hcommitted.installed (by rw [hversion, hfirst]; rfl)
      · exact fun extension hmem => hcommitted.kept extension (hall (by omega) extension hmem)

theorem migrating_holds {applied : List Nat} {rest : List (Migration σ)} (hreleases : run.migrations <+: releases)
    (hdb : MigratedTo releases base n db) (h : PhaseHolds run db (.migrating applied rest)) :
    StepHolds releases base run n db (nextMigration run db (.migrating applied rest)) := by
  obtain ⟨hvalid, a, ha, hlevel, rfl, ⟨j, hj, hdrop⟩, hall⟩ := id h
  obtain ⟨hversions, hcurrent⟩ := validateMigrationList_ok hvalid
  cases rest with
  | nil =>
    have hend := List.drop_eq_nil_iff.mp hdrop.symm
    have hfull : a = run.currentSchemaVersion := by omega
    rw [hfull] at hlevel hall
    rw [nextMigration, sorted_range', hfull]
    exact .same hdb ⟨rfl, hlevel, hall⟩
  | cons m rest =>
    obtain ⟨hget, hversion, hnext⟩ := next_release hversions hdrop
    by_cases happlied : (List.range' 1 a).contains m.version = true
    · rw [nextMigration, if_pos happlied]
      rw [List.contains_iff_mem, List.mem_range'_1] at happlied
      exact .same hdb ⟨hvalid, a, ha, hlevel, rfl, ⟨j + 1, by omega, hnext⟩, hall⟩
    · have hja : a = j := by
        rw [List.contains_iff_mem, List.mem_range'_1] at happlied
        omega
      subst hja
      have hlength := hdb.length
      exact applying_holds hreleases hdb h hget hversion hnext (by omega) hall (Bool.eq_false_iff.mpr happlied)

theorem nextMigration_holds {phase : MigrationPhase σ} (hreleases : run.migrations <+: releases)
    (hdb : MigratedTo releases base n db) (h : PhaseHolds run db phase) :
    StepHolds releases base run n db (nextMigration run db phase) := by
  cases phase with
  | starting => exact starting_holds hdb
  | reading => exact .same hdb (readApplied_holds hdb h)
  | ensuring applied missing => exact ensuring_holds hdb h
  | migrating applied rest => exact migrating_holds hreleases hdb h
  | ended result => exact .same hdb h

end Ledger

section Alone

variable {σ : Type*} {releases : List (Migration σ)} {base : σ} {run : MigrationRun σ} {n j k : Nat}
  {db : MigratedDatabase σ} {phase : MigrationPhase σ} {m : Migration σ} {privileged : Text → Bool}

/-- Left to itself, the run succeeds. -/
def Succeeds (run : MigrationRun σ) (db : MigratedDatabase σ) (phase : MigrationPhase σ) : Prop :=
  ∃ steps report, ((fun s : MigratedDatabase σ × MigrationPhase σ => nextMigration run s.1 s.2)^[steps] (db, phase)).2 =
    .ended (.ok report)

theorem Succeeds.of_next {db' : MigratedDatabase σ} {phase' : MigrationPhase σ} (h : Succeeds run db' phase')
    (hnext : nextMigration run db phase = (db', phase')) : Succeeds run db phase := by
  obtain ⟨steps, report, hended⟩ := h
  refine ⟨steps + 1, report, ?_⟩
  rw [Function.iterate_succ_apply]
  rw [← hnext] at hended
  exact hended

theorem schemaAt_succ (hrelease : releases[n]? = some m) :
    schemaAt releases base (n + 1) = (schemaAt releases base n).bind m.sql := by
  have htake : releases.take (n + 1) = releases.take n ++ [m] := by
    rw [List.take_add_one, hrelease]
    rfl
  rw [schemaAt, schemaAt, htake, List.foldlM_append]
  cases (releases.take n).foldlM (fun schema m => m.sql schema) base with
  | none => rfl
  | some schema => simp

theorem schemaAt_before (hnk : n ≤ k) (h : schemaAt releases base k ≠ none) : schemaAt releases base n ≠ none := by
  intro hnone
  apply h
  have htake := List.take_append_drop n (releases.take k)
  rw [List.take_take, Nat.min_eq_left hnk] at htake
  rw [schemaAt] at hnone ⊢
  rw [← htake, List.foldlM_append, hnone]
  rfl

theorem ensureExtension_privileged {extension : Text} (h : privileged extension = true) (db : MigratedDatabase σ) :
    ∃ db', ensureExtension privileged extension db = .ok db' := by
  rw [ensureExtension, h]
  split
  · exact ⟨_, rfl⟩
  · exact ⟨_, rfl⟩

theorem ensureExtensions_privileged {extensions : List Text} (h : ∀ extension ∈ extensions, privileged extension = true)
    (db : MigratedDatabase σ) : ∃ db', ensureExtensions privileged extensions db = .ok db' := by
  induction extensions generalizing db with
  | nil => exact ⟨db, rfl⟩
  | cons extension rest ih =>
    obtain ⟨between, hfirst⟩ := ensureExtension_privileged (h extension List.mem_cons_self) db
    obtain ⟨db', hrest⟩ := ih (fun other hother => h other (List.mem_cons_of_mem _ hother)) between
    refine ⟨db', ?_⟩
    rw [ensureExtensions, hfirst]
    exact hrest

theorem applyMigration_succeeds {schema : σ}
    (hprivileged : ∀ extension ∈ Migration.requiredExtensions, privileged extension = true)
    (hsql : m.sql db.schema = some schema) (hfresh : m.version ∉ ledgerVersions db) :
    ∃ db', applyMigration privileged m db = .ok db' := by
  have hstamp : ∀ ensured : MigratedDatabase σ, ensured.ledger = db.ledger → ensured.schema = db.schema →
      ∃ db', stampMigration m ensured = .ok db' := by
    intro ensured hledger hschema
    rw [ledgerVersions, ← hledger] at hfresh
    rw [stampMigration, hschema, hsql]
    dsimp only
    rw [ledgerVersions, if_neg hfresh]
    exact ⟨_, rfl⟩
  rw [applyMigration]
  split
  · obtain ⟨ensured, hensured⟩ := ensureExtensions_privileged hprivileged db
    obtain ⟨hledger, hschema, _⟩ := ensureExtensions_ok hensured
    rw [hensured]
    exact hstamp ensured hledger hschema
  · exact hstamp db rfl rfl

/-- Induction on the migrations still to look at. -/
theorem migrating_succeeds (hreleases : run.migrations <+: releases) (hvalid : validateMigrationList run = .ok ())
    (hprivileged : ∀ extension ∈ Migration.requiredExtensions, run.privileged extension = true)
    (hsql : schemaAt releases base run.migrations.length ≠ none)
    {rest : List (Migration σ)} (hrest : rest = run.migrations.drop j) (hj : j ≤ n)
    (hn : n ≤ run.migrations.length) (hdb : MigratedTo releases base n db) :
    Succeeds run db (.migrating (List.range' 1 n) rest) := by
  obtain ⟨hversions, _⟩ := validateMigrationList_ok hvalid
  induction rest generalizing j n db with
  | nil => exact ⟨1, _, rfl⟩
  | cons m rest ih =>
    obtain ⟨hget, hversion, hnext⟩ := next_release hversions hrest
    obtain ⟨hlt, _⟩ := List.getElem?_eq_some_iff.mp hget
    by_cases happlied : (List.range' 1 n).contains m.version = true
    · have hstep : nextMigration run db (.migrating (List.range' 1 n) (m :: rest)) =
          (db, .migrating (List.range' 1 n) rest) := by rw [nextMigration, if_pos happlied]
      rw [List.contains_iff_mem, List.mem_range'_1] at happlied
      exact (ih hnext (by omega) hn hdb).of_next hstep
    · have hnj : n = j := by
        rw [List.contains_iff_mem, List.mem_range'_1] at happlied
        omega
      subst hnj
      have hrelease : releases[n]? = some m := by
        obtain ⟨later, rfl⟩ := hreleases
        rw [List.getElem?_append_left hlt, hget]
      have hschema : m.sql db.schema ≠ none := by
        have := schemaAt_before (show n + 1 ≤ run.migrations.length by omega) hsql
        rwa [schemaAt_succ hrelease, hdb.schema] at this
      obtain ⟨schema, hschema⟩ := Option.ne_none_iff_exists'.mp hschema
      have hfresh : m.version ∉ ledgerVersions db := by
        rw [hdb.versions, List.mem_range'_1]
        omega
      obtain ⟨db', hresult⟩ := applyMigration_succeeds hprivileged hschema hfresh
      obtain ⟨_, hmigrated⟩ := (applyMigration_ok hresult).migrates hdb hrelease hversion (Nat.le_refl n)
      have hpushed : List.range' 1 n ++ [m.version] = List.range' 1 (n + 1) := by
        rw [hversion, List.range'_concat]
        simp [Nat.add_comm]
      have hstep : nextMigration run db (.migrating (List.range' 1 n) (m :: rest)) =
          (db', .migrating (List.range' 1 (n + 1)) rest) := by
        rw [nextMigration, if_neg happlied, hresult, ← hpushed]
      exact (ih hnext (Nat.le_refl _) (by omega) hmigrated).of_next hstep

theorem ensuring_succeeds (hreleases : run.migrations <+: releases) (hvalid : validateMigrationList run = .ok ())
    (hprivileged : ∀ extension ∈ Migration.requiredExtensions, run.privileged extension = true)
    (hsql : schemaAt releases base run.migrations.length ≠ none)
    (hn : n ≤ run.migrations.length) {missing : List Text}
    (hmissing : ∀ extension ∈ missing, run.privileged extension = true) (hdb : MigratedTo releases base n db) :
    Succeeds run db (.ensuring (List.range' 1 n) missing) := by
  induction missing generalizing db with
  | nil =>
    have hmigrating : Succeeds run db (.migrating (List.range' 1 n) run.migrations) :=
      migrating_succeeds hreleases hvalid hprivileged hsql (j := 0) rfl (Nat.zero_le n) hn hdb
    exact hmigrating.of_next rfl
  | cons extension missing ih =>
    obtain ⟨db', hensured⟩ := ensureExtension_privileged (hmissing extension List.mem_cons_self) db
    obtain ⟨hledger, hschema, _⟩ := ensureExtension_ok hensured
    have hsame : MigratedTo releases base n db' :=
      ⟨hdb.bounded, by rw [hledger, hdb.ledger], by rw [ledgerVersions, hledger]; exact hdb.versions,
        by rw [hdb.schema, hschema]⟩
    have hstep : nextMigration run db (.ensuring (List.range' 1 n) (extension :: missing)) =
        (db', .ensuring (List.range' 1 n) missing) := by
      rw [nextMigration, hensured]
    exact (ih (fun other hother => hmissing other (List.mem_cons_of_mem _ hother)) hsame).of_next hstep

/-- A privileged run on a database that is not ahead of it succeeds when its
statements do. -/
theorem starting_succeeds (hreleases : run.migrations <+: releases) (hvalid : validateMigrationList run = .ok ())
    (hprivileged : ∀ extension ∈ Migration.requiredExtensions, run.privileged extension = true)
    (hsql : schemaAt releases base run.migrations.length ≠ none)
    (hn : n ≤ run.migrations.length) (hdb : MigratedTo releases base n db) : Succeeds run db .starting := by
  have hcreated : MigratedTo releases base n { db with ledger := some (db.ledger.getD []) } :=
    ⟨hdb.bounded, hdb.ledger, hdb.versions, hdb.schema⟩
  have hread : Succeeds run { db with ledger := some (db.ledger.getD []) } .reading := by
    obtain ⟨_, hcurrent⟩ := validateMigrationList_ok hvalid
    have hversions : ledgerVersions { db with ledger := some (db.ledger.getD []) } = List.range' 1 n := hdb.versions
    cases n with
    | zero =>
      have hmigrating := migrating_succeeds hreleases hvalid hprivileged hsql (j := 0) rfl (Nat.le_refl 0) hn hcreated
      apply hmigrating.of_next
      rw [nextMigration, hversions]
      rfl
    | succ n =>
      apply (ensuring_succeeds hreleases hvalid hprivileged hsql hn hprivileged hcreated).of_next
      have hfirst : (List.range' 1 (n + 1)).contains requiredExtensionMigration = true := by
        rw [List.contains_iff_mem, List.mem_range'_1]
        show 1 ≤ 1 ∧ 1 < 1 + (n + 1)
        omega
      rw [nextMigration, hversions, sorted_range', readApplied, max?_range']
      dsimp only
      rw [if_neg (by omega), if_pos hfirst]
  apply hread.of_next
  rw [nextMigration, hvalid]

end Alone

section Runs

variable {σ ι : Type*} [DecidableEq ι] {releases : List (Migration σ)} {base : σ} {runs : ι → MigrationRun σ}
  {n : Nat} {s : MigrationSystem σ ι}

/-- The database stands after some of the releases, not before the first `n`, and
every run knows no more than it holds. -/
structure MigrationInvariant (releases : List (Migration σ)) (base : σ) (runs : ι → MigrationRun σ) (n : Nat)
    (s : MigrationSystem σ ι) : Prop where
  migrated : ∃ n', n ≤ n' ∧ MigratedTo releases base n' s.db
  phases : ∀ i, PhaseHolds (runs i) s.db (s.phase i)

theorem MigrationInvariant.step (hreleases : ∀ i, (runs i).migrations <+: releases)
    (h : MigrationInvariant releases base runs n s) (a : MigrationAction ι) :
    MigrationInvariant releases base runs n (s.step runs a) := by
  obtain ⟨n', hn, hdb⟩ := h.migrated
  cases a with
  | next i =>
    have hstep := nextMigration_holds (hreleases i) hdb (h.phases i)
    obtain ⟨later, hle, hmigrated⟩ := hstep.migrated
    refine ⟨⟨later, by omega, hmigrated⟩, ?_⟩
    intro j
    show PhaseHolds (runs j) _ (Function.update s.phase i _ j)
    by_cases hij : j = i
    · subst hij
      rw [Function.update_self]
      exact hstep.phase
    · rw [Function.update_of_ne hij]
      exact (h.phases j).grows hstep.grows
  | fail i =>
    have hfailed : MigrationInvariant releases base runs n
        ⟨s.db, Function.update s.phase i (.ended (.error .postgresClient))⟩ := by
      refine ⟨h.migrated, ?_⟩
      intro j
      show PhaseHolds (runs j) s.db (Function.update s.phase i _ j)
      by_cases hij : j = i
      · subst hij
        rw [Function.update_self]
        intro v b he
        cases he
      · rw [Function.update_of_ne hij]
        exact h.phases j
    rw [MigrationSystem.step]
    split
    · exact h
    · exact hfailed

/-- The state of the runs on a database that stands after `n` releases. A run that
succeeded reports its whole list, which the database holds with the extensions; one
was refused as outdated only by a database ahead of it; and one that is still to
start and may create the extensions would succeed on its own, unless its list is
refused, the database is ahead or a statement fails. -/
structure FollowsReleases (releases : List (Migration σ)) (base : σ) (runs : ι → MigrationRun σ) (n : Nat)
    (s : MigrationSystem σ ι) : Prop where
  migrated : MigratedTo releases base n s.db
  succeeded : ∀ i report, s.phase i = .ended (.ok report) →
    report = ⟨List.range' 1 (runs i).currentSchemaVersion, (runs i).currentSchemaVersion⟩ ∧
      (runs i).currentSchemaVersion ≤ n ∧
      (0 < (runs i).currentSchemaVersion → ∀ extension ∈ Migration.requiredExtensions, extension ∈ s.db.extensions)
  outdated : ∀ i v b, s.phase i = .ended (.error (.schemaVersionAhead v b)) →
    b = (runs i).currentSchemaVersion ∧ b < v ∧ v ≤ n
  succeeds : ∀ i, s.phase i = .starting → validateMigrationList (runs i) = .ok () →
    (∀ extension ∈ Migration.requiredExtensions, (runs i).privileged extension = true) →
    n ≤ (runs i).migrations.length → schemaAt releases base (runs i).migrations.length ≠ none →
    Succeeds (runs i) s.db (s.phase i)

theorem MigrationInvariant.run (hreleases : ∀ i, (runs i).migrations <+: releases)
    (h : MigrationInvariant releases base runs n s) (actions : List (MigrationAction ι)) :
    MigrationInvariant releases base runs n (runFrom (MigrationSystem.step runs) s actions) :=
  runFrom_keeps_all (fun _ a h => h.step hreleases a) h

omit [DecidableEq ι] in
theorem MigrationInvariant.follows (hreleases : ∀ i, (runs i).migrations <+: releases)
    (h : MigrationInvariant releases base runs n s) : ∃ n', n ≤ n' ∧ FollowsReleases releases base runs n' s := by
  obtain ⟨n', hn, hmigrated⟩ := h.migrated
  have hlength := hmigrated.length
  refine ⟨n', hn, hmigrated, ?_, ?_, ?_⟩
  · intro i report hended
    have hphase := h.phases i
    rw [hended] at hphase
    obtain ⟨hreport, hlevel, hall⟩ := hphase
    exact ⟨hreport, by omega, hall⟩
  · intro i v b hended
    have hphase := h.phases i
    rw [hended] at hphase
    obtain ⟨hb, hlt, hle⟩ := hphase v b rfl
    exact ⟨hb, hlt, by omega⟩
  · intro i hphase hvalid hprivileged hle hsql
    rw [hphase]
    exact starting_succeeds (hreleases i) hvalid hprivileged hsql hle hmigrated

/-- However runs of binaries with shorter or longer lists of the same releases
interleave and fail, the database always stands after a prefix of the releases,
each applied once and in order, and never falls back from one state of the run to
a later one. -/
theorem migrations_follow_releases (hreleases : ∀ i, (runs i).migrations <+: releases) {db : MigratedDatabase σ}
    (hdb : MigratedTo releases base n db) (earlier later : List (MigrationAction ι)) :
    ∃ n₁ n₂, n ≤ n₁ ∧ n₁ ≤ n₂ ∧
      FollowsReleases releases base runs n₁
        (runFrom (MigrationSystem.step runs) ⟨db, fun _ => .starting⟩ earlier) ∧
      FollowsReleases releases base runs n₂
        (runFrom (MigrationSystem.step runs) ⟨db, fun _ => .starting⟩ (earlier ++ later)) := by
  have hstart : MigrationInvariant releases base runs n ⟨db, fun _ => .starting⟩ :=
    ⟨⟨n, Nat.le_refl n, hdb⟩, fun _ => trivial⟩
  have hearlier := hstart.run hreleases earlier
  obtain ⟨n₁, hn₁, hfirst⟩ := hearlier.follows hreleases
  have hbetween : MigrationInvariant releases base runs n₁
      (runFrom (MigrationSystem.step runs) ⟨db, fun _ => .starting⟩ earlier) :=
    ⟨⟨n₁, Nat.le_refl n₁, hfirst.migrated⟩, hearlier.phases⟩
  obtain ⟨n₂, hn₂, hsecond⟩ := (hbetween.run hreleases later).follows hreleases
  rw [← runFrom_append] at hsecond
  exact ⟨n₁, n₂, hn₁, hn₂, hfirst, hsecond⟩

end Runs

section Sample

/-- Two releases, each of which records itself in the schema. -/
def twoReleases : List (Migration (List Nat)) :=
  [⟨1, "canonical".toList, fun schema => some (schema ++ [1])⟩,
    ⟨2, "search".toList, fun schema => some (schema ++ [2])⟩]

/-- An older binary with one release and a newer one with both. -/
def racingRuns (newer : Bool) : MigrationRun (List Nat) :=
  if newer then ⟨twoReleases, 2, fun _ => true⟩ else ⟨twoReleases.take 1, 1, fun _ => true⟩

def emptyDatabase : MigratedDatabase (List Nat) := ⟨none, [], []⟩

/-- Both read the empty ledger; the newer one stamps the first release before the other does. -/
def racingActions : List (MigrationAction Bool) :=
  [.next false, .next false, .next true, .next true, .next true, .next false, .next true, .next true]

theorem migrations_follow_releases_racing :
    ∃ n₁ n₂, 0 ≤ n₁ ∧ n₁ ≤ n₂ ∧
      FollowsReleases twoReleases [] racingRuns n₁
        (runFrom (MigrationSystem.step racingRuns) ⟨emptyDatabase, fun _ => .starting⟩ (racingActions.take 5)) ∧
      FollowsReleases twoReleases [] racingRuns n₂
        (runFrom (MigrationSystem.step racingRuns) ⟨emptyDatabase, fun _ => .starting⟩
          (racingActions.take 5 ++ racingActions.drop 5)) := by
  have hreleases : ∀ newer, (racingRuns newer).migrations <+: twoReleases := by
    intro newer
    cases newer with
    | false => exact List.take_prefix 1 twoReleases
    | true => exact List.prefix_rfl
  have hempty : MigratedTo twoReleases [] 0 emptyDatabase := ⟨Nat.zero_le _, rfl, rfl, rfl⟩
  exact migrations_follow_releases hreleases hempty (racingActions.take 5) (racingActions.drop 5)

example : (runFrom (MigrationSystem.step racingRuns) ⟨emptyDatabase, fun _ => .starting⟩ racingActions).phase true =
    .ended (.ok ⟨[1, 2], 2⟩) := rfl

example : (runFrom (MigrationSystem.step racingRuns) ⟨emptyDatabase, fun _ => .starting⟩ racingActions).phase false =
    .ended (.error .postgresClient) := rfl

end Sample

end CorpusFeed
