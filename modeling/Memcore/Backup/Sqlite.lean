import Memcore.Backup.Service
import Memcore.Foundations.Texts

/-!
# Backups of SQLite

A backup is written by the database itself, or copied from the file of the database if that fails.
Then its size and its checksum are read, and the directory is rotated.

What the calls to the file system and to the database do is given: each fails with a text or not,
and a call that writes a file may leave something behind also when it fails. How a path is stamped
with the time is up to the clock of the file system, which is not the clock that the name of a
backup is taken from.
-/
namespace Memcore

open Paths

/-- Relational database backend targeted by an operational backup. -/
inductive BackupBackend
  | sqlite
  | postgres
  deriving DecidableEq

structure BackupRequest where
  backend : BackupBackend
  outputDir : OsString
  label : Option String

structure BackupResult where
  backend : BackupBackend
  backupPath : OsString
  sizeBytes : ℕ
  createdAt : Instant
  checksumSha256 : String

def storageErrorIn (context error : String) : MemcoreError :=
  .storageError (context ++ ": " ++ error)

/-- What follows the beginning of a text. -/
def stripPrefix (start text : String) : Option String :=
  if Texts.startsWith text start then
    some (String.ofList (text.toList.drop start.toList.length))
  else none

/-- The path of the file of a database. One in memory has none. -/
def sqlitePathFromDatabaseUrl (databaseUrl : String) : Option String :=
  let normalized :=
    match stripPrefix "sqlite://" databaseUrl with
    | some rest => "sqlite:" ++ rest
    | none => databaseUrl
  let withoutScheme := (stripPrefix "sqlite:" normalized).getD normalized
  if withoutScheme = "" ∨ Texts.startsWith withoutScheme ":memory:" then none
  else
    let pathPart := Texts.trim ((Texts.split '?' withoutScheme).headD withoutScheme)
    if pathPart = "" ∨ pathPart = ":memory:" then none else some pathPart

def escapeSqlitePathLiteral (path : OsString) : MemcoreResult String :=
  match toText path with
  | none => .error (.validationError "backup path contains invalid UTF-8")
  | some text => .ok (Texts.replace '\'' "''" text)

/-- A provider keeps at least one file. -/
structure SqliteBackupProvider where
  databaseUrl : String
  maxFiles : ℕ
  keepsSome : maxFiles ≠ 0

def SqliteBackupProvider.new (databaseUrl : String) (maxFiles : ℕ) :
    MemcoreResult SqliteBackupProvider :=
  if keepsNone : maxFiles = 0 then
    .error (.validationError "backup_max_files must be greater than 0")
  else .ok ⟨databaseUrl, maxFiles, keepsNone⟩

/-! ## The directory with its files -/

/-- A directory and what is in its files. -/
structure BackupFiles where
  directory : Directory
  contents : OsString → List UInt8

instance (name : OsString) : Decidable (IsPlain name) :=
  decidable_of_iff (slash ∉ name ∧ toComponent name = some (.normal name))
    ⟨fun ⟨one, named⟩ => ⟨one, named⟩, fun plain => ⟨plain.one, plain.named⟩⟩

def Directory.find? (directory : Directory) (name : OsString) : Option DirEntry :=
  directory.entries.find? fun entry => decide (entry.name = name)

/-- A file takes the place of what had its name. -/
def Directory.put (directory : Directory) (entry : DirEntry) (plain : IsPlain entry.name) :
    Directory where
  entries := directory.entries.filter (fun other => decide (other.name ≠ entry.name)) ++ [entry]
  plain := by
    intro other member
    rcases List.mem_append.mp member with held | new
    · exact directory.plain other (List.mem_filter.mp held).1
    · rw [List.mem_singleton.mp new]
      exact plain
  distinct := by
    rw [List.map_append, List.map_singleton, List.nodup_append]
    refine ⟨directory.distinct.sublist (List.filter_sublist.map _), by simp, ?_⟩
    intro name held other own
    obtain ⟨earlier, listed, rfl⟩ := List.mem_map.mp held
    rw [List.mem_singleton.mp own]
    exact of_decide_eq_true (List.mem_filter.mp listed).2

namespace BackupFiles

/-- Write a file. A name that is no single component is never asked for. -/
def write (files : BackupFiles) (name : OsString) (stamp : Instant) (content : List UInt8) :
    BackupFiles :=
  if plain : IsPlain name then
    { directory := files.directory.put ⟨name, true, some stamp⟩ plain
      contents := fun other => if other = name then content else files.contents other }
  else files

def remove (files : BackupFiles) (name : OsString) : BackupFiles :=
  { files with directory := files.directory.keep fun entry => decide (entry.name ≠ name) }

def holds (files : BackupFiles) (name : OsString) : Bool :=
  (files.directory.find? name).isSome

end BackupFiles

/-! ## The calls -/

/-- What a call that writes a file does: it may fail, and it may have written something. -/
structure WriteOutcome where
  failure : Option String
  written : Option (List UInt8)

/-- How the file system and the database answer. A call that is given no failure succeeds. -/
structure BackupIo where
  now : Instant
  stamp : Instant
  createDirs : Option String
  parseUrl : Option String
  connect : Option String
  vacuum : String → WriteOutcome
  removePartial : Option String
  sourceExists : Bool
  copy : WriteOutcome
  metadata : Option String
  notFound : String
  removeEmpty : Option String
  openFile : Option String
  readFile : Option String
  rotation : RotationIo

/-- What a call that writes a file leaves of the directory. -/
def WriteOutcome.leaves (outcome : WriteOutcome) (files : BackupFiles) (name : OsString)
    (stamp : Instant) : BackupFiles :=
  match outcome.written with
  | none => files
  | some content => files.write name stamp content

def WriteOutcome.result (outcome : WriteOutcome) (context : String) : MemcoreResult Unit :=
  match outcome.failure with
  | some failure => .error (storageErrorIn context failure)
  | none => .ok ()

def failing (context : String) (failure : Option String) : MemcoreResult Unit :=
  match failure with
  | some failure => .error (storageErrorIn context failure)
  | none => .ok ()

namespace SqliteBackupProvider

def connectSource (provider : SqliteBackupProvider) (io : BackupIo) : MemcoreResult Unit :=
  match sqlitePathFromDatabaseUrl provider.databaseUrl with
  | some _ => failing "connect sqlite database for backup" io.connect
  | none =>
    match failing "parse sqlite database url" io.parseUrl with
    | .error error => .error error
    | .ok () => failing "connect sqlite database for backup" io.connect

def vacuumInto (io : BackupIo) (backupPath name : OsString) (files : BackupFiles) :
    MemcoreResult Unit × BackupFiles :=
  match escapeSqlitePathLiteral backupPath with
  | .error error => (.error error, files)
  | .ok escaped =>
    let outcome := io.vacuum ("VACUUM INTO '" ++ escaped ++ "'")
    (outcome.result "sqlite vacuum into backup", outcome.leaves files name io.stamp)

def copyDatabaseFile (io : BackupIo) (name : OsString) (files : BackupFiles) :
    MemcoreResult Unit × BackupFiles :=
  if !io.sourceExists then
    (.error (.notFound "sqlite database file was not found for backup"), files)
  else (io.copy.result "copy sqlite database file", io.copy.leaves files name io.stamp)

/-- Write the file of a backup that is not there yet. -/
def createBackupFile (provider : SqliteBackupProvider) (io : BackupIo)
    (backupPath name : OsString) (files : BackupFiles) : MemcoreResult Unit × BackupFiles :=
  match failing "create backup directory" io.createDirs with
  | .error error => (.error error, files)
  | .ok () =>
    if files.holds name then (.error (.conflict "backup file already exists"), files)
    else
      match provider.connectSource io with
      | .error error => (.error error, files)
      | .ok () =>
        match vacuumInto io backupPath name files with
        | (.ok (), written) => (.ok (), written)
        | (.error vacuumError, left) =>
          match sqlitePathFromDatabaseUrl provider.databaseUrl with
          | none => (.error vacuumError, left)
          | some _ =>
            let cleared :=
              if left.holds name && io.removePartial.isNone then left.remove name else left
            copyDatabaseFile io name cleared

/-- The content of a file, if it is there and can be read. -/
def readMetadata (io : BackupIo) (name : OsString) (files : BackupFiles) :
    MemcoreResult (List UInt8) :=
  match io.metadata with
  | some failure => .error (storageErrorIn "read backup file metadata" failure)
  | none =>
    if files.holds name then .ok (files.contents name)
    else .error (storageErrorIn "read backup file metadata" io.notFound)

def fileSha256Hex (sha256Hex : List UInt8 → String) (io : BackupIo) (content : List UInt8) :
    MemcoreResult String :=
  match io.openFile, io.readFile with
  | some failure, _ =>
    .error (.storageError ("failed to open backup file for checksum: " ++ failure))
  | none, some failure =>
    .error (.storageError ("failed to read backup file for checksum: " ++ failure))
  | none, none => .ok (sha256Hex content)

/-- Rotate the directory, which is there because a file has just been written to it. -/
def rotate (provider : SqliteBackupProvider) (io : BackupIo) (outputDir : OsString)
    (files : BackupFiles) : MemcoreResult ℕ × BackupFiles :=
  let rotated := rotateMemcoreSqliteBackups outputDir provider.maxFiles
    { io.rotation with dirExists := true } files.directory
  (rotated.1, { files with directory := rotated.2 })

/-- Read the size and the checksum of the file that was written, and rotate. -/
def finishBackup (sha256Hex : List UInt8 → String) (provider : SqliteBackupProvider)
    (io : BackupIo) (outputDir backupPath name : OsString) (files : BackupFiles) :
    MemcoreResult BackupResult × BackupFiles :=
  match readMetadata io name files with
  | .error error => (.error error, files)
  | .ok content =>
    if content.length = 0 then
      (.error (.storageError "created backup file was empty"),
        if io.removeEmpty.isNone then files.remove name else files)
    else
      match fileSha256Hex sha256Hex io content with
      | .error error => (.error error, files)
      | .ok checksum =>
        match provider.rotate io outputDir files with
        | (.error error, rotated) => (.error error, rotated)
        | (.ok _, rotated) => (.ok ⟨.sqlite, backupPath, content.length, io.now, checksum⟩, rotated)

/-- Make a backup in a directory and rotate the directory. -/
def createBackup (formatTimestamp : Instant → String) (sha256Hex : List UInt8 → String)
    (provider : SqliteBackupProvider) (io : BackupIo) (request : BackupRequest)
    (files : BackupFiles) : MemcoreResult BackupResult × BackupFiles :=
  if request.backend ≠ .sqlite then
    (.error (.validationError "SqliteBackupProvider only supports sqlite backups"), files)
  else
    match resolveBackupPath formatTimestamp request.outputDir io.now request.label with
    | .error error => (.error error, files)
    | .ok backupPath =>
      let name := ofText (buildSqliteBackupFilename formatTimestamp io.now request.label)
      match provider.createBackupFile io backupPath name files with
      | (.error error, left) => (.error error, left)
      | (.ok (), written) =>
        finishBackup sha256Hex provider io request.outputDir backupPath name written

end SqliteBackupProvider

end Memcore
