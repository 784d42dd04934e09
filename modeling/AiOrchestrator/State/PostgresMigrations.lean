import AiOrchestrator.Lib.Prog
import Mathlib.Data.List.Sort

/-!
# Migrations

`PostgresMigrationRunner` (`packages/state/src/postgres/PostgresMigrationRunner.ts`). An invocation of
`applyPendingMigrations` is a program over the queries it makes; a crash leaves the rest of it undone. The
database keeps the rows of the history table, and the transactions that were committed; what a transaction
has done before its `COMMIT` is pending, and is lost with the connection. Any query may fail, and a `COMMIT`
that fails may have been carried out. Runners are serialised by the advisory lock, so one invocation follows
the other.
-/

namespace AiOrchestrator

structure PostgresMigration where
  id : Int
  name : String
  checksum : String
  statements : List String
deriving DecidableEq

/-- A row of the history table. -/
structure PostgresAppliedMigration where
  id : Int
  name : String
  checksum : String
  appliedAt : String
  executionMs : Int
deriving DecidableEq

/-- The errors of the runner, with their details. -/
inductive MigrationError
  | idNotPositive (migrationId : Int) (migrationName : String)
  | notAscending (migrationId previousId : Int)
  | duplicateDeclaredIds (migrationId : Int)
  | duplicateNames (migrationName : String)
  | noStatements (migrationId : Int) (migrationName : String)
  | versionMismatch (requiredVersion latestMigrationId : Int)
  | duplicateIds (migrationId : Int)
  | unknownMigration (migrationId : Int) (migrationName : String)
  | checksumMismatch (migrationId : Int) (expectedName actualName expectedChecksum actualChecksum : String)
  | notContiguous (appliedVersion : Int) (missingMigrationIds : List Int)
  | failed (migrationId : Int) (migrationName checksum : String)
  /-- What a query is rejected with. -/
  | query (message : String)
deriving DecidableEq

/-- The text of the error. -/
def MigrationError.message : MigrationError → String
  | .idNotPositive _ _ => "PostgreSQL migration ids must be positive integers"
  | .notAscending _ _ => "PostgreSQL migrations must be ordered by ascending id"
  | .duplicateDeclaredIds _ => "PostgreSQL migrations contain duplicate ids"
  | .duplicateNames _ => "PostgreSQL migrations contain duplicate names"
  | .noStatements _ _ => "PostgreSQL migrations must include at least one statement"
  | .versionMismatch _ _ => "PostgreSQL required schema version does not match latest migration id"
  | .duplicateIds _ => "PostgreSQL schema migration history contains duplicate ids"
  | .unknownMigration _ _ => "PostgreSQL schema migration history contains an unknown migration"
  | .checksumMismatch _ _ _ _ _ => "PostgreSQL schema migration history checksum mismatch"
  | .notContiguous _ _ => "PostgreSQL schema migration history is not contiguous"
  | .failed _ _ _ => "PostgreSQL schema migration failed"
  | .query message => message

/-- `POSTGRES_REQUIRED_SCHEMA_VERSION`. -/
def postgresRequiredSchemaVersion : Int := 8

/-- The loop of `validatePostgresMigrations`; the last id. -/
def validateMigrations (ids : List Int) (names : List String) (previousId : Int) :
    List PostgresMigration → Except MigrationError Int
  | [] => .ok previousId
  | migration :: rest =>
    if migration.id ≤ 0 then .error (.idNotPositive migration.id migration.name)
    else if migration.id ≤ previousId then .error (.notAscending migration.id previousId)
    else if migration.id ∈ ids then .error (.duplicateDeclaredIds migration.id)
    else if migration.name ∈ names then .error (.duplicateNames migration.name)
    else if migration.statements = [] then .error (.noStatements migration.id migration.name)
    else validateMigrations (migration.id :: ids) (migration.name :: names) migration.id rest

/-- `validatePostgresMigrations`. -/
def validatePostgresMigrations (migrations : List PostgresMigration) : Except MigrationError Unit := do
  let previousId ← validateMigrations [] [] 0 migrations
  if previousId ≠ postgresRequiredSchemaVersion then
    .error (.versionMismatch postgresRequiredSchemaVersion previousId)

/-- A runner, whose constructor has accepted the migrations. -/
structure PostgresMigrationRunner where
  migrations : List PostgresMigration
  valid : validatePostgresMigrations migrations = .ok ()

structure PostgresMigrationApplyResult where
  requiredVersion : Int
  appliedVersion : Int
  appliedMigrations : List PostgresAppliedMigration
deriving DecidableEq

/-- `latestAppliedVersion`. -/
def latestAppliedVersion (appliedMigrations : List PostgresAppliedMigration) : Int :=
  (appliedMigrations.getLast?.map (·.id)).getD 0

namespace PostgresMigrationRunner

/-! ### The check of a history -/

/-- The entry of an id in `knownById`. -/
def known (migrations : List PostgresMigration) (id : Int) : Option PostgresMigration :=
  (migrations.filter (·.id = id)).getLast?

/-- The loop over the rows; `appliedIds` are the ids before them. -/
def checkRows (migrations : List PostgresMigration) (appliedIds : List Int) :
    List PostgresAppliedMigration → Except MigrationError Unit
  | [] => .ok ()
  | applied :: rest =>
    if applied.id ∈ appliedIds then .error (.duplicateIds applied.id)
    else
      match known migrations applied.id with
      | none => .error (.unknownMigration applied.id applied.name)
      | some migration =>
        if migration.name ≠ applied.name || migration.checksum ≠ applied.checksum then
          .error
            (.checksumMismatch applied.id migration.name applied.name migration.checksum applied.checksum)
        else checkRows migrations (applied.id :: appliedIds) rest

/-- `assertAppliedMigrationsAreCompatible`. -/
def assertAppliedMigrationsAreCompatible (migrations : List PostgresMigration)
    (appliedMigrations : List PostgresAppliedMigration) : Except MigrationError Unit := do
  checkRows migrations [] appliedMigrations
  let appliedVersion := latestAppliedVersion appliedMigrations
  let missingBeforeApplied := migrations.filter fun migration =>
    migration.id < appliedVersion && migration.id ∉ appliedMigrations.map (·.id)
  if missingBeforeApplied ≠ [] then
    .error (.notContiguous appliedVersion (missingBeforeApplied.map (·.id)))

/-! ### An invocation -/

inductive Op
  | connect
  | acquireMigrationLock
  | createSchema
  | ensureHistoryTable
  | selectHistory
  | dateNow
  | begin
  | statement (sql : String)
  | insertHistory (migration : PostgresMigration) (executionMs : Int)
  | commit
  | rollback
  | releaseMigrationLock

@[reducible] def Op.Res : Op → Type
  | .selectHistory => List PostgresAppliedMigration
  | .dateNow => Int
  | .connect | .acquireMigrationLock | .createSchema | .ensureHistoryTable | .begin | .statement _
  | .insertHistory _ _ | .commit | .rollback | .releaseMigrationLock => Unit

abbrev Call (α : Type) := Act MigrationError Op (fun o => Except MigrationError o.Res) α

def request (o : Op) : Call o.Res := Act.ask o

/-- `applyMigration`. -/
def applyMigration (migration : PostgresMigration) : Call Unit := do
  let startedAt : Int ← request .dateNow
  Act.catching
    (do
      request .begin
      Act.forEach (fun sql => request (.statement sql)) migration.statements
      let now : Int ← request .dateNow
      request (.insertHistory migration (now - startedAt))
      request .commit)
    fun _ => do
      request .rollback
      throw (.failed migration.id migration.name migration.checksum)

variable (runner : PostgresMigrationRunner)

/-- The loop of `applyPendingMigrations`. -/
def applyMissing (appliedIds : List Int) : Call Unit :=
  Act.forEach
    (fun migration => if migration.id ∈ appliedIds then pure () else applyMigration migration)
    runner.migrations

/-- **`applyPendingMigrations`**. -/
def applyPendingMigrations : Call PostgresMigrationApplyResult := do
  request .connect
  Act.finallyDo
    (do
      request .acquireMigrationLock
      request .createSchema
      request .ensureHistoryTable
      let appliedBefore : List PostgresAppliedMigration ← request .selectHistory
      Act.ofExcept (assertAppliedMigrationsAreCompatible runner.migrations appliedBefore)
      runner.applyMissing (appliedBefore.map (·.id))
      let appliedMigrations : List PostgresAppliedMigration ← request .selectHistory
      Act.ofExcept (assertAppliedMigrationsAreCompatible runner.migrations appliedMigrations)
      pure
        { requiredVersion := postgresRequiredSchemaVersion
          appliedVersion := latestAppliedVersion appliedMigrations
          appliedMigrations })
    fun _ => request .releaseMigrationLock

/-! ### The database -/

/-- What a transaction has done. -/
structure Transaction where
  statements : List String
  rows : List PostgresAppliedMigration
deriving DecidableEq

structure Database where
  /-- The rows of the history table. -/
  history : List PostgresAppliedMigration
  /-- The transactions that were committed, oldest first. -/
  committed : List Transaction
  /-- The transaction of the connection. -/
  pending : Option Transaction
deriving DecidableEq

namespace Database

/-- `ROLLBACK`, or the loss of the connection. -/
def abort (s : Database) : Database := { s with pending := none }

/-- `COMMIT`. -/
def commit (s : Database) : Database :=
  match s.pending with
  | none => s
  | some tx =>
    { history := s.history ++ tx.rows, committed := s.committed ++ [tx], pending := none }

def execute (s : Database) (sql : String) : Database :=
  { s with pending := s.pending.map fun tx => { tx with statements := tx.statements ++ [sql] } }

def insert (s : Database) (row : PostgresAppliedMigration) : Database :=
  { s with pending := s.pending.map fun tx => { tx with rows := tx.rows ++ [row] } }

end Database

/-- The row that an insert writes. -/
def row (migration : PostgresMigration) (executionMs : Int) (appliedAt : String) :
    PostgresAppliedMigration where
  id := migration.id
  name := migration.name
  checksum := migration.checksum
  appliedAt := appliedAt
  executionMs := executionMs

/-- **What a query may do.** -/
def eff : Prog.Eff Op (fun o => Except MigrationError o.Res) Database
  | .connect, s, _, t | .acquireMigrationLock, s, _, t | .createSchema, s, _, t
  | .ensureHistoryTable, s, _, t | .releaseMigrationLock, s, _, t => t = s
  | .selectHistory, s, x, t =>
    t = s ∧ ∀ rows, x = .ok rows → rows.Perm s.history ∧ rows.Pairwise (·.id ≤ ·.id)
  | .dateNow, s, x, t => t = s ∧ ∃ now, x = .ok now
  | .begin, s, x, t => x = .ok () ∧ t = { s with pending := some ⟨[], []⟩ } ∨ (∃ e, x = .error e) ∧ t = s
  | .statement sql, s, x, t => x = .ok () ∧ t = s.execute sql ∨ (∃ e, x = .error e) ∧ t = s
  | .insertHistory migration executionMs, s, x, t =>
    (∃ appliedAt, x = .ok () ∧ t = s.insert (row migration executionMs appliedAt)) ∨
      (∃ e, x = .error e) ∧ t = s
  | .commit, s, x, t => x = .ok () ∧ t = s.commit ∨ (∃ e, x = .error e) ∧ (t = s.commit ∨ t = s.abort)
  | .rollback, s, _, t => t = s.abort

/-- The answers where no query fails. -/
def respond (o : Op) (s : Database) : Except MigrationError o.Res × Database :=
  match o with
  | .connect | .acquireMigrationLock | .createSchema | .ensureHistoryTable
  | .releaseMigrationLock => (.ok (), s)
  | .selectHistory => (.ok (s.history.insertionSort fun r r' => r.id ≤ r'.id), s)
  | .dateNow => (.ok 0, s)
  | .begin => (.ok (), { s with pending := some ⟨[], []⟩ })
  | .statement sql => (.ok (), s.execute sql)
  | .insertHistory migration executionMs => (.ok (), s.insert (row migration executionMs "now"))
  | .commit => (.ok (), s.commit)
  | .rollback => (.ok (), s.abort)

/-- **An invocation**, completed or crashed: some of its queries, and then the connection is lost. -/
def Invocation (s t : Database) : Prop :=
  ∃ rest u, Prog.Path eff (runner.applyPendingMigrations.run, s) (rest, u) ∧ t = u.abort

end PostgresMigrationRunner

end AiOrchestrator
