import Memcore.Domain.Values
import Memcore.Foundations.Paths

/-!
# Backup files

A backup of the database is a file in a directory of backups. Its name is made of a fixed beginning,
the time, a label from which all but letters, digits, dashes and underscores have been replaced, and
a fixed end. Rotation reads the directory, sorts the files with such names by the time they were
changed, and removes the oldest ones until as many are left as are to be kept.

How a time is written is a parameter. The file system answers each call or fails.
-/
namespace Memcore

open Paths

def backupFilePrefix : String := "memcore-sqlite-"

def backupFileSuffix : String := ".backup.sqlite"

/-- Characters that a label keeps. -/
def isLabelCharacter (character : Char) : Bool :=
  character.isAlphanum || character == '-' || character == '_'

/-- A label that is safe in a file name, if anything is left of it. -/
def sanitizeBackupLabel (label : Option String) : Option String :=
  match label.map Texts.trim with
  | none => none
  | some raw =>
    if raw = "" then none
    else
      let sanitized := String.ofList (raw.toList.map fun character =>
        if isLabelCharacter character then character else '-')
      let collapsed := Texts.join "-" ((Texts.split '-' sanitized).filter fun part => part != "")
      if collapsed = "" then none else some collapsed

/-- The name of a backup made at a time. -/
def buildSqliteBackupFilename (formatTimestamp : Instant → String) (createdAt : Instant)
    (label : Option String) : String :=
  match sanitizeBackupLabel label with
  | some safeLabel =>
    backupFilePrefix ++ formatTimestamp createdAt ++ "-" ++ safeLabel ++ backupFileSuffix
  | none => backupFilePrefix ++ formatTimestamp createdAt ++ backupFileSuffix

/-- The directory must be given and must not lead upwards. -/
def validateBackupOutputDir (outputDir : OsString) : MemcoreResult OsString :=
  if outputDir = [] then
    .error (.validationError "backup output directory cannot be empty")
  else if .parentDir ∈ components outputDir then
    .error (.validationError "backup output directory cannot contain path traversal")
  else .ok outputDir

/-- The path of a backup in the directory. -/
def resolveBackupPath (formatTimestamp : Instant → String) (outputDir : OsString)
    (createdAt : Instant) (label : Option String) : MemcoreResult OsString := do
  let outputDir ← validateBackupOutputDir outputDir
  let filename := buildSqliteBackupFilename formatTimestamp createdAt label
  let path := join outputDir (ofText filename)
  if (fileName path).bind toText ≠ some filename then
    .error (.validationError "backup filename escaped output directory")
  else if !startsWith path outputDir then
    .error (.validationError "backup path must stay inside backup directory")
  else return path

def isMemcoreSqliteBackupFilename (name : String) : Bool :=
  backupFilePrefix.toList.isPrefixOf name.toList && backupFileSuffix.toList.isSuffixOf name.toList

/-! ## The directory -/

/-- An entry of a directory, as far as rotation reads it. -/
structure DirEntry where
  name : OsString
  isFile : Bool
  modified : Option Instant

/-- The entries of a directory, each with a name of its own. -/
structure Directory where
  entries : List DirEntry
  plain : ∀ entry ∈ entries, IsPlain entry.name
  distinct : (entries.map DirEntry.name).Nodup

/-- The directory without the files that a test rejects. -/
def Directory.keep (directory : Directory) (test : DirEntry → Bool) : Directory where
  entries := directory.entries.filter test
  plain := fun entry member => directory.plain entry (List.mem_filter.mp member).1
  distinct := directory.distinct.sublist (List.filter_sublist.map _)

/-- How the file system answers rotation: whether the directory is there, and which of its calls
fail. -/
structure RotationIo where
  dirExists : Bool
  readDir : Option String
  entry : Option String
  remove : OsString → Option String

/-- The name of a file that is taken for a backup. -/
def isBackupEntry (entry : DirEntry) : Bool :=
  entry.isFile &&
    match toText entry.name with
    | some name => isMemcoreSqliteBackupFilename name
    | none => false

/-- A backup with the time it was changed. -/
structure BackupFile where
  modified : Instant
  path : OsString

/-- The order of rotation: by time, then by path. -/
def BackupFile.key (backup : BackupFile) : ℤ ×ₗ List (ℕ ×ₗ List ℕ) :=
  toLex (backup.modified, Paths.key backup.path)

/-- The backup that an entry of a directory is. A time that cannot be read counts as the epoch. -/
def DirEntry.backup (outputDir : OsString) (entry : DirEntry) : BackupFile :=
  ⟨entry.modified.getD 0, join outputDir entry.name⟩

/-- The backups of a directory, the oldest first. -/
def sortedBackups (outputDir : OsString) (directory : Directory) : List BackupFile :=
  ((directory.entries.filter isBackupEntry).map (DirEntry.backup outputDir)).mergeSort
    fun left right => decide (left.key ≤ right.key)

/-- Remove files one after another, and count them. -/
def removeBackups (outputDir : OsString) (io : RotationIo) (deleted : ℕ) (directory : Directory) :
    List BackupFile → MemcoreResult ℕ × Directory
  | [] => (.ok deleted, directory)
  | backup :: rest =>
    match io.remove backup.path with
    | some failure =>
      (.error (.storageError ("failed to rotate backup file: " ++ failure)), directory)
    | none =>
      removeBackups outputDir io (deleted + 1)
        (directory.keep fun entry => decide (join outputDir entry.name ≠ backup.path)) rest

/-- Remove the oldest backups when there are more than are to be kept. -/
def rotateMemcoreSqliteBackups (outputDir : OsString) (maxFiles : ℕ) (io : RotationIo)
    (directory : Directory) : MemcoreResult ℕ × Directory :=
  if maxFiles = 0 then
    (.error (.validationError "backup_max_files must be greater than 0"), directory)
  else if !io.dirExists then (.ok 0, directory)
  else
    match io.readDir, io.entry with
    | some failure, _ =>
      (.error (.storageError ("failed to read backup directory: " ++ failure)), directory)
    | none, some failure =>
      (.error (.storageError ("failed to read backup directory entry: " ++ failure)), directory)
    | none, none =>
      let backups := sortedBackups outputDir directory
      if backups.length ≤ maxFiles then (.ok 0, directory)
      else removeBackups outputDir io 0 directory (backups.take (backups.length - maxFiles))

end Memcore
