import Memcore.Foundations.Interruptions
import Memcore.Foundations.SqlTables
import Memcore.Stores.SqlTexts
import Mathlib.Data.List.Sort

/-!
# Schema migrations in SQLite

The runner records the migrations that it has committed in a table of its own, next to the
tables that the migrations are about. A transaction works on a copy of all tables until it
is committed. What the statements of a migration do is up to the database engine; they
leave the runner's table and the table of the earlier migration tool alone.

Any call may fail, before or after it has taken effect.
-/
namespace Memcore

open KeyedTables Programs

structure Migration where
  version : ℤ
  name : String
  sql : String
  checksum : String
  deriving DecidableEq

/-- Line endings are normalised before the digest is taken. -/
def normalizeLineEndings : List Char → List Char
  | '\r' :: '\n' :: rest => '\n' :: normalizeLineEndings rest
  | character :: rest => character :: normalizeLineEndings rest
  | [] => []

def migrationChecksum (sha256 : String → String) (sql : String) : String :=
  sha256 (String.ofList (normalizeLineEndings sql.toList))

def Migration.new (sha256 : String → String) (version : ℤ) (name sql : String) : Migration :=
  ⟨version, name, sql, migrationChecksum sha256 sql⟩

structure AppliedMigration where
  version : ℤ
  name : String
  checksum : String
  appliedAt : Instant

inductive MigrationStatus where
  | applied
  | pending
  | checksumMismatch
  | missingFromCode
  deriving DecidableEq

structure MigrationIssue where
  version : ℤ
  name : String
  status : MigrationStatus
  message : String
  deriving DecidableEq

structure MigrationValidationReport where
  clean : Bool
  appliedCount : ℕ
  pendingCount : ℕ
  issues : List MigrationIssue
  deriving DecidableEq

def MigrationValidationReport.hasBlockingIssues (report : MigrationValidationReport) : Bool :=
  report.issues.any fun issue =>
    issue.status == .checksumMismatch || issue.status == .missingFromCode

/-- The first version that has occurred before. -/
def firstDuplicate (seen : List ℤ) : List Migration → Option ℤ
  | [] => none
  | migration :: rest =>
      if migration.version ∈ seen then some migration.version
      else firstDuplicate (migration.version :: seen) rest

/-- Migrations by version, the earlier of two with the same version first. -/
def byVersion (migrations : List Migration) : List Migration :=
  migrations.insertionSort fun left right => left.version ≤ right.version

def sortedMigrations (migrations : List Migration) : MemcoreResult (List Migration) :=
  match firstDuplicate [] (byVersion migrations) with
  | some version =>
      .error (.migrationError ("duplicate migration version: " ++ toString version))
  | none => .ok (byVersion migrations)

/-- The applied migration of a version; the last one listed counts. -/
def appliedWithVersion (applied : List AppliedMigration) (version : ℤ) :
    Option AppliedMigration :=
  applied.reverse.find? fun entry => decide (entry.version = version)

/-- What is wrong with a coded migration, if anything. -/
def codedIssue (applied : List AppliedMigration) (migration : Migration) :
    Option MigrationIssue :=
  match appliedWithVersion applied migration.version with
  | some entry =>
      if entry.checksum ≠ migration.checksum then
        some ⟨migration.version, migration.name, .checksumMismatch, "migration checksum mismatch"⟩
      else none
  | none => some ⟨migration.version, migration.name, .pending, "migration is pending"⟩

/-- What is wrong with an applied migration, if anything. -/
def appliedIssue (migrations : List Migration) (entry : AppliedMigration) :
    Option MigrationIssue :=
  if migrations.any fun migration => decide (migration.version = entry.version) then none
  else some ⟨entry.version, entry.name, .missingFromCode, "applied migration is missing from code"⟩

def validateAppliedMigrations (migrations : List Migration) (applied : List AppliedMigration) :
    MemcoreResult MigrationValidationReport := do
  let migrations ← sortedMigrations migrations
  let coded := migrations.filterMap (codedIssue applied)
  let issues := coded ++ applied.filterMap (appliedIssue migrations)
  return {
    clean := issues.isEmpty
    appliedCount := applied.length
    pendingCount := coded.countP fun issue => issue.status == .pending
    issues := issues }

/-- The statements between semicolons, without the blank ones. -/
def splitSqlStatements (sql : String) : List String :=
  ((Texts.split ';' sql).map Texts.trim).filter fun statement => statement != ""

/-! ## The database -/

structure SchemaMigrationRow where
  version : ℤ
  name : String
  checksum : String
  appliedAt : String
  deriving DecidableEq

abbrev SchemaMigrations := Table ℤ SchemaMigrationRow SchemaMigrationRow.version

/-- A row of the table that the earlier migration tool kept. -/
structure SqlxMigrationRow where
  version : ℤ
  success : Bool

/-- What the database engine does with the other tables. -/
structure SqlEngine (σ : Type) where
  execute (now : Instant) (statement : String) : σ → Except String σ
  hasTable (name : String) : σ → Bool

/-- All tables. The runner's own is absent before the first run. -/
structure MigrationTables (σ : Type) where
  schemaMigrations : Option SchemaMigrations
  sqlxMigrations : Option (List SqlxMigrationRow)
  contents : σ

/-- The committed tables, and the copy that an open transaction works on. -/
structure MigrationDatabase (σ : Type) where
  committed : MigrationTables σ
  transaction : Option (MigrationTables σ)

/-- The rows of the runner's table, none if it is absent. -/
def MigrationTables.rows {σ : Type} (tables : MigrationTables σ) : List SchemaMigrationRow :=
  match tables.schemaMigrations with
  | some table => table.rows
  | none => []

/-- The statements that the runner sends, and the ends of its transactions. -/
inductive MigrationCall where
  | createMigrationTable
  | tableExists (name : String)
  | schemaMigrationCount
  | selectLegacyVersions
  | seedMigration (version : ℤ) (name checksum : String)
  | selectMigrations
  | begin
  | execute (statement : String)
  | insertMigration (version : ℤ) (name checksum : String)
  | commit
  deriving DecidableEq

abbrev MigrationCall.Answer : MigrationCall → Type
  | tableExists _ => Bool
  | schemaMigrationCount => ℕ
  | selectLegacyVersions => List ℤ
  | selectMigrations => List SchemaMigrationRow
  | _ => Unit

/-- What the program says it was doing when a call fails. -/
def MigrationCall.context : MigrationCall → String
  | createMigrationTable => "create sqlite schema_migrations table"
  | tableExists _ => "check sqlite table existence"
  | schemaMigrationCount => "count sqlite schema migrations"
  | selectLegacyVersions => "read sqlite legacy sqlx migrations"
  | seedMigration _ _ _ => "seed sqlite schema migrations"
  | selectMigrations => "read sqlite schema migrations"
  | begin => "begin sqlite migration transaction"
  | execute _ => "apply sqlite migration statement"
  | insertMigration _ _ _ => "record sqlite migration"
  | commit => "commit sqlite migration transaction"

def migrationError (context error : String) : MemcoreError :=
  .migrationError (context ++ ": " ++ error)

abbrev migrationPorts : Interface := ⟨MigrationCall, MigrationCall.Answer⟩

/-- The time of a call, and the failure that it ends in, if any. A call that fails may
have taken effect all the same. -/
structure MigrationChoice where
  now : Instant
  failure : Option String
  takesEffect : Bool

section Serving

variable {σ : Type} (engine : SqlEngine σ) (texts : TimestampText)

def noSuchTable (name : String) : String :=
  "error returned from database: (code: 1) no such table: " ++ name

namespace MigrationTables

/-- CREATE TABLE IF NOT EXISTS schema_migrations. -/
def createMigrationTable (tables : MigrationTables σ) : MigrationTables σ :=
  { tables with schemaMigrations := some (tables.schemaMigrations.getD .empty) }

def hasTable (name : String) (tables : MigrationTables σ) : Bool :=
  if name = "schema_migrations" then tables.schemaMigrations.isSome
  else if name = "_sqlx_migrations" then tables.sqlxMigrations.isSome
  else engine.hasTable name tables.contents

/-- INSERT INTO schema_migrations; the key may be taken. -/
def insertMigration (row : SchemaMigrationRow) (tables : MigrationTables σ) :
    Except String (MigrationTables σ) :=
  match tables.schemaMigrations with
  | none => .error (noSuchTable "schema_migrations")
  | some table =>
      match SqlTables.insert row table with
      | none => .error (uniqueConstraintFailed "schema_migrations.version")
      | some table => .ok { tables with schemaMigrations := some table }

/-- INSERT OR IGNORE INTO schema_migrations. -/
def seedMigration (row : SchemaMigrationRow) (tables : MigrationTables σ) :
    Except String (MigrationTables σ) :=
  match tables.schemaMigrations with
  | none => .error (noSuchTable "schema_migrations")
  | some table =>
      .ok { tables with schemaMigrations := some ((SqlTables.insert row table).getD table) }

/-- SELECT from schema_migrations, by version. -/
def selectMigrations (tables : MigrationTables σ) : Except String (List SchemaMigrationRow) :=
  match tables.schemaMigrations with
  | none => .error (noSuchTable "schema_migrations")
  | some table => .ok (table.rows.insertionSort fun left right => left.version ≤ right.version)

def schemaMigrationCount (tables : MigrationTables σ) : Except String ℕ :=
  match tables.schemaMigrations with
  | none => .error (noSuchTable "schema_migrations")
  | some table => .ok table.rows.length

def selectLegacyVersions (tables : MigrationTables σ) : Except String (List ℤ) :=
  match tables.sqlxMigrations with
  | none => .error (noSuchTable "_sqlx_migrations")
  | some rows => .ok ((rows.filter SqlxMigrationRow.success).map SqlxMigrationRow.version)

end MigrationTables

namespace MigrationDatabase

/-- A statement outside of any transaction is committed at once. -/
def autocommit (database : MigrationDatabase σ)
    (change : MigrationTables σ → Except String (MigrationTables σ)) :
    Except String Unit × MigrationDatabase σ :=
  match change database.committed with
  | .ok tables => (.ok (), { database with committed := tables })
  | .error error => (.error error, database)

/-- A statement of the open transaction. -/
def within (database : MigrationDatabase σ)
    (change : MigrationTables σ → Except String (MigrationTables σ)) :
    Except String Unit × MigrationDatabase σ :=
  match database.transaction with
  | none => (.error "no transaction is open", database)
  | some working =>
      match change working with
      | .ok tables => (.ok (), { database with transaction := some tables })
      | .error error => (.error error, database)

/-- Whatever was not committed is rolled back. -/
def rollback (database : MigrationDatabase σ) : MigrationDatabase σ :=
  { database with transaction := none }

end MigrationDatabase

/-- What a call does if it does not fail for reasons of its own. -/
def migrationEffect (now : Instant) :
    (call : MigrationCall) → MigrationDatabase σ →
      Except String call.Answer × MigrationDatabase σ
  | .createMigrationTable, database => database.autocommit fun tables =>
      .ok tables.createMigrationTable
  | .tableExists name, database => (.ok (database.committed.hasTable engine name), database)
  | .schemaMigrationCount, database =>
      (database.committed.schemaMigrationCount, database)
  | .selectLegacyVersions, database => (database.committed.selectLegacyVersions, database)
  | .seedMigration version name checksum, database => database.autocommit fun tables =>
      tables.seedMigration ⟨version, name, checksum, texts.toRfc3339 now⟩
  | .selectMigrations, database => (database.committed.selectMigrations, database)
  | .begin, database => (.ok (), { database with transaction := some database.committed })
  | .execute statement, database => database.within fun tables =>
      (engine.execute now statement tables.contents).map fun contents =>
        { tables with contents := contents }
  | .insertMigration version name checksum, database => database.within fun tables =>
      tables.insertMigration ⟨version, name, checksum, texts.toRfc3339 now⟩
  | .commit, database =>
      match database.transaction with
      | none => (.error "no transaction is open", database)
      | some tables => (.ok (), ⟨tables, none⟩)

def migrationServer : Server migrationPorts MemcoreError (MigrationDatabase σ) MigrationChoice where
  ready _ _ _ := true
  serve choice call database :=
    let effect := migrationEffect engine texts choice.now call database
    match choice.failure with
    | some error =>
        (.error (migrationError call.context error),
          if choice.takesEffect then effect.2 else database)
    | none => (effect.1.mapError (migrationError call.context), effect.2)

end Serving

/-! ## The runner -/

abbrev MigrationProgram (α : Type) := Program migrationPorts MemcoreError α

def migrationCall (request : MigrationCall) : MigrationProgram request.Answer :=
  @Program.call migrationPorts MemcoreError request

namespace SqliteMigrationRunner

variable (texts : TimestampText)

def parseAppliedRow (row : SchemaMigrationRow) : MemcoreResult AppliedMigration :=
  match texts.parseFromRfc3339 row.appliedAt with
  | .ok appliedAt => .ok ⟨row.version, row.name, row.checksum, appliedAt⟩
  | .error error => .error (migrationError "parse sqlite migration applied_at" error)

/-- Record the migrations in turn that the earlier tool has run. -/
def seedMigrations : List Migration → MigrationProgram Unit
  | [] => pure ()
  | migration :: rest => do
      migrationCall (.seedMigration migration.version migration.name migration.checksum)
      seedMigrations rest

def seedFromSqlxMigrations (migrations : List Migration) : MigrationProgram Unit := do
  let count ← migrationCall .schemaMigrationCount
  if count > 0 then pure ()
  else
    let legacy ← migrationCall (.tableExists "_sqlx_migrations")
    if !legacy then pure ()
    else
      let legacyVersions ← migrationCall .selectLegacyVersions
      if legacyVersions.isEmpty then pure ()
      else
        let sorted ← .check (sortedMigrations migrations)
        seedMigrations (sorted.filter fun migration => migration.version ∈ legacyVersions)

def ensureMigrationTable : MigrationProgram Unit :=
  migrationCall .createMigrationTable

def appliedMigrations : MigrationProgram (List AppliedMigration) := do
  ensureMigrationTable
  let rows ← migrationCall .selectMigrations
  .check (rows.mapM (parseAppliedRow texts))

def validateMigrations (migrations : List Migration) :
    MigrationProgram MigrationValidationReport := do
  ensureMigrationTable
  seedFromSqlxMigrations migrations
  let applied ← appliedMigrations texts
  .check (validateAppliedMigrations migrations applied)

def executeStatements : List String → MigrationProgram Unit
  | [] => pure ()
  | statement :: rest => do
      migrationCall (.execute statement)
      executeStatements rest

/-- The migrations in turn, each with its record in a transaction of its own. -/
def applyMigrations : List Migration → MigrationProgram Unit
  | [] => pure ()
  | migration :: rest => do
      migrationCall .begin
      executeStatements (splitSqlStatements migration.sql)
      migrationCall (.insertMigration migration.version migration.name migration.checksum)
      migrationCall .commit
      applyMigrations rest

def applyPendingMigrations (migrations : List Migration) :
    MigrationProgram MigrationValidationReport := do
  ensureMigrationTable
  seedFromSqlxMigrations migrations
  let report ← validateMigrations texts migrations
  if report.hasBlockingIssues then
    .fail (.migrationError "migration validation failed before applying pending migrations")
  else
    let applied ← appliedMigrations texts
    let appliedVersions := applied.map AppliedMigration.version
    let sorted ← .check (sortedMigrations migrations)
    applyMigrations (sorted.filter fun migration => migration.version ∉ appliedVersions)
    validateMigrations texts migrations

end SqliteMigrationRunner

end Memcore
