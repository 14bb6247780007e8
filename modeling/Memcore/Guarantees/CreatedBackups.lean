import Memcore.Backup.Sqlite
import Memcore.Guarantees.Backups

/-!
# Backups that were made

The file of a new backup is an entry of the directory like any other when the directory is
rotated. No backup is younger, but some may have been changed at the same instant of the clock, and
of these rotation keeps the ones whose paths come last. So the new file itself is removed, and the
call still succeeds, when as many others as are kept have its time and a later path.
-/
namespace Memcore

open Paths

/-- The backup that a result names is in the directory, with its size and its checksum. -/
def BackupResult.Present (sha256Hex : List UInt8 → String) (outputDir : OsString)
    (files : BackupFiles) (result : BackupResult) : Prop :=
  ∃ entry ∈ files.directory.entries, entry.isFile = true ∧
    join outputDir entry.name = result.backupPath ∧
    (files.contents entry.name).length = result.sizeBytes ∧
    sha256Hex (files.contents entry.name) = result.checksumSha256

/-- The backups in a directory. -/
def Directory.backups (directory : Directory) : ℕ :=
  directory.entries.countP isBackupEntry

/-- The backups that were changed at an instant and have a path after another. -/
def Directory.tiedAfter (outputDir : OsString) (instant : Instant) (path : OsString)
    (directory : Directory) : ℕ :=
  (directory.entries.filter isBackupEntry).countP fun entry =>
    decide (entry.modified.getD 0 = instant ∧ key path < key (join outputDir entry.name))

/-! ## The new file -/

section Writing

variable (name : OsString) (stamp : Instant)

/-- Nothing has changed in a directory but that a new file may be in it. -/
def OnlyNew (before after : BackupFiles) : Prop :=
  after.directory.entries = before.directory.entries ∨
    after.directory.entries = before.directory.entries ++ [⟨name, true, some stamp⟩]

variable {name stamp} {before after : BackupFiles}

theorem holds_iff (files : BackupFiles) :
    files.holds name = true ↔ ∃ entry ∈ files.directory.entries, entry.name = name := by
  simp [BackupFiles.holds, Directory.find?]

/-- Without the name the directory is as it was. -/
theorem OnlyNew.others (onlyNew : OnlyNew name stamp before after)
    (absent : before.holds name = false) :
    after.directory.entries.filter (fun entry => decide (entry.name ≠ name)) =
      before.directory.entries := by
  have old : before.directory.entries.filter (fun entry => decide (entry.name ≠ name)) =
      before.directory.entries := by
    refine List.filter_eq_self.mpr fun entry member => decide_eq_true fun same => ?_
    rw [(holds_iff before).mpr ⟨entry, member, same⟩] at absent
    nomatch absent
  rcases onlyNew with same | new
  · rw [same, old]
  · rw [new, List.filter_append, old]
    simp

theorem OnlyNew.write (onlyNew : OnlyNew name stamp before after)
    (absent : before.holds name = false) (content : List UInt8) :
    OnlyNew name stamp before (after.write name stamp content) := by
  unfold BackupFiles.write
  split
  · exact .inr (congrArg (· ++ [_]) (onlyNew.others absent))
  · exact onlyNew

theorem OnlyNew.leaves (onlyNew : OnlyNew name stamp before after)
    (absent : before.holds name = false) (outcome : WriteOutcome) :
    OnlyNew name stamp before (outcome.leaves after name stamp) := by
  unfold WriteOutcome.leaves
  split
  · exact onlyNew
  · exact onlyNew.write absent _

theorem OnlyNew.remove (onlyNew : OnlyNew name stamp before after)
    (absent : before.holds name = false) : OnlyNew name stamp before (after.remove name) :=
  .inl (onlyNew.others absent)

end Writing

namespace SqliteBackupProvider

variable {provider : SqliteBackupProvider} {io : BackupIo} {files left : BackupFiles}
  {backupPath name : OsString}

theorem vacuumInto_onlyNew (absent : files.holds name = false) :
    OnlyNew name io.stamp files (vacuumInto io backupPath name files).2 := by
  unfold vacuumInto
  split
  · exact .inl rfl
  · exact OnlyNew.leaves (.inl rfl) absent _

theorem copyDatabaseFile_onlyNew (absent : files.holds name = false)
    (onlyNew : OnlyNew name io.stamp files left) :
    OnlyNew name io.stamp files (copyDatabaseFile io name left).2 := by
  unfold copyDatabaseFile
  split
  · exact onlyNew
  · exact onlyNew.leaves absent _

/-- A file is made only where there was none, and nothing else is changed. -/
theorem createBackupFile_onlyNew
    (created : provider.createBackupFile io backupPath name files = (.ok (), left)) :
    files.holds name = false ∧ OnlyNew name io.stamp files left := by
  unfold createBackupFile at created
  split at created
  · nomatch created
  · split at created
    · nomatch created
    · rename_i absent
      rw [Bool.not_eq_true] at absent
      refine ⟨absent, ?_⟩
      split at created
      · nomatch created
      · have vacuumed := @vacuumInto_onlyNew io files backupPath name absent
        split at created
        · rename_i same
          rw [same] at vacuumed
          rw [← (Prod.mk.inj created).2]
          exact vacuumed
        · rename_i same
          rw [same] at vacuumed
          split at created
          · nomatch created
          · rw [show left = (copyDatabaseFile io name _).2 from (congrArg Prod.snd created).symm]
            apply copyDatabaseFile_onlyNew absent
            split
            · exact vacuumed.remove absent
            · exact vacuumed

/-- A file that can be read is the new one. -/
theorem read_new {stamp : Instant} {content : List UInt8}
    (onlyNew : OnlyNew name stamp files left) (absent : files.holds name = false)
    (readable : readMetadata io name left = .ok content) :
    left.directory.entries = files.directory.entries ++ [⟨name, true, some stamp⟩] ∧
      content = left.contents name := by
  unfold readMetadata at readable
  split at readable
  · nomatch readable
  · split at readable
    · rename_i held
      refine ⟨onlyNew.resolve_left fun same => ?_, (Except.ok.inj readable).symm⟩
      rw [holds_iff, same, ← holds_iff, absent] at held
      nomatch held
    · nomatch readable

end SqliteBackupProvider

/-! ## Its place in the rotation -/

section Rotation

variable {outputDir : OsString} {before after : Directory} {new : DirEntry}

/-- The backups that come after the new one are the tied ones with a later path, if no time is
later than its time. -/
theorem laterBackups_new {stamp : Instant} (made : after.entries = before.entries ++ [new])
    (stamped : new.modified = some stamp)
    (clock : ∀ entry ∈ before.entries, entry.modified.getD 0 ≤ stamp) :
    laterBackups outputDir after new =
      before.tiedAfter outputDir stamp (join outputDir new.name) := by
  have own : ¬(new.backup outputDir).key < (new.backup outputDir).key := lt_irrefl _
  rw [laterBackups, made, List.filter_append, List.countP_append, Directory.tiedAfter]
  have alone : (([new] : List DirEntry).filter isBackupEntry).countP (fun other =>
      decide ((new.backup outputDir).key < (other.backup outputDir).key)) = 0 := by
    refine List.countP_eq_zero.mpr fun other member => ?_
    rw [List.mem_singleton.mp (List.mem_filter.mp member).1, decide_eq_true_eq]
    exact own
  rw [alone, Nat.add_zero]
  refine List.countP_congr fun entry member => ?_
  have notLater := clock entry (List.mem_filter.mp member).1
  rw [decide_eq_true_eq, decide_eq_true_eq, BackupFile.key, BackupFile.key, Prod.Lex.toLex_lt_toLex]
  simp only [DirEntry.backup, stamped, Option.getD_some]
  constructor
  · rintro (younger | ⟨same, path⟩)
    · exact absurd younger (not_lt_of_ge notLater)
    · exact ⟨same.symm, path⟩
  · rintro ⟨same, path⟩
    exact .inr ⟨same.symm, path⟩

/-- Rotation that succeeds leaves no more backups than are to be kept. -/
theorem rotation_leaves_few {maxFiles : ℕ} {io : RotationIo} {directory : Directory} {count : ℕ}
    (present : io.dirExists = true)
    (succeeded : (rotateMemcoreSqliteBackups outputDir maxFiles io directory).1 = .ok count) :
    (rotateMemcoreSqliteBackups outputDir maxFiles io directory).2.backups ≤ maxFiles := by
  have size (directory : Directory) :
      (sortedBackups outputDir directory).length = directory.backups := by
    rw [(sortedBackups_perm outputDir directory).length_eq, List.length_map, Directory.backups,
      List.countP_eq_length_filter]
  rcases rotation_cases outputDir maxFiles io directory with ⟨same, few⟩ | ⟨many, removing⟩
  · rw [same, ← size]
    exact few present count succeeded
  · obtain ⟨removed, rest, taken, left, counts⟩ := removeBackups_cases outputDir io
      ((sortedBackups outputDir directory).take
        ((sortedBackups outputDir directory).length - maxFiles)) 0 directory
    rw [removing] at succeeded ⊢
    obtain ⟨rfl, _⟩ := counts count succeeded
    have whole := List.take_append_drop ((sortedBackups outputDir directory).length - maxFiles)
      (sortedBackups outputDir directory)
    rw [taken, List.append_nil] at whole
    have gone : (removed.countP fun backup : BackupFile =>
        decide (backup.path ∉ removed.map BackupFile.path)) = 0 := by
      refine List.countP_eq_zero.mpr fun backup member => ?_
      rw [decide_eq_true_eq, not_not]
      exact List.mem_map_of_mem member
    calc _ = (directory.entries.filter isBackupEntry).countP
            (fun entry => decide (join outputDir entry.name ∉ removed.map BackupFile.path)) := by
          rw [Directory.backups, left, List.countP_filter, List.countP_filter]
          exact List.countP_congr fun entry _ => by rw [Bool.and_comm]
      _ = (sortedBackups outputDir directory).countP
            (fun backup => decide (backup.path ∉ removed.map BackupFile.path)) := by
          rw [(sortedBackups_perm outputDir directory).countP_eq, List.countP_map]
          rfl
      _ ≤ ((sortedBackups outputDir directory).drop
            ((sortedBackups outputDir directory).length - maxFiles)).length := by
          rw [← whole, List.countP_append, gone, Nat.zero_add, whole]
          exact List.countP_le_length
      _ ≤ maxFiles := by
          rw [List.length_drop]
          omega

end Rotation

namespace SqliteBackupProvider

variable {formatTimestamp : Instant → String} {sha256Hex : List UInt8 → String}
  {provider : SqliteBackupProvider} {io : BackupIo} {request : BackupRequest}
  {files after : BackupFiles} {result : BackupResult}

/-- The entry of the file that a call makes. -/
def madeEntry (formatTimestamp : Instant → String) (io : BackupIo) (request : BackupRequest) :
    DirEntry :=
  ⟨ofText (buildSqliteBackupFilename formatTimestamp io.now request.label), true, some io.stamp⟩

theorem fileSha256Hex_ok {content : List UInt8} {checksum : String}
    (hashed : fileSha256Hex sha256Hex io content = .ok checksum) :
    checksum = sha256Hex content := by
  unfold fileSha256Hex at hashed
  split at hashed
  · nomatch hashed
  · nomatch hashed
  · exact (Except.ok.inj hashed).symm

theorem finishBackup_ok {outputDir backupPath name : OsString} {written : BackupFiles}
    (finished : finishBackup sha256Hex provider io outputDir backupPath name written =
      (.ok result, after)) :
    ∃ content count, readMetadata io name written = .ok content ∧
      result = ⟨.sqlite, backupPath, content.length, io.now, sha256Hex content⟩ ∧
      provider.rotate io outputDir written = (.ok count, after) := by
  unfold finishBackup at finished
  split at finished
  · nomatch finished
  · rename_i content readable
    split at finished
    · nomatch finished
    · split at finished
      · nomatch finished
      · rename_i checksum hashed
        obtain rfl := fileSha256Hex_ok hashed
        split at finished
        · nomatch finished
        · rename_i count rotated rotatedIs
          obtain ⟨same, rfl⟩ := Prod.mk.inj finished
          exact ⟨content, count, readable, (Except.ok.inj same).symm, rotatedIs⟩

/-- A call that succeeds has made a new file, read it and rotated the directory. -/
theorem createBackup_ok
    (created : provider.createBackup formatTimestamp sha256Hex io request files =
      (.ok result, after)) :
    ∃ (written : BackupFiles) (count : ℕ), written.directory.entries =
        files.directory.entries ++ [madeEntry formatTimestamp io request] ∧
      result = ⟨.sqlite, join request.outputDir (madeEntry formatTimestamp io request).name,
        (written.contents (madeEntry formatTimestamp io request).name).length, io.now,
        sha256Hex (written.contents (madeEntry formatTimestamp io request).name)⟩ ∧
      provider.rotate io request.outputDir written = (.ok count, after) := by
  unfold createBackup at created
  split at created
  · nomatch created
  · split at created
    · nomatch created
    · rename_i path resolved
      simp only at created
      split at created
      · nomatch created
      · rename_i written made
        obtain ⟨absent, onlyNew⟩ := createBackupFile_onlyNew made
        obtain ⟨content, count, readable, rfl, rotated⟩ := finishBackup_ok created
        obtain ⟨entries, rfl⟩ := read_new onlyNew absent readable
        rw [resolved_join resolved]
        exact ⟨written, count, entries, rfl, rotated⟩

end SqliteBackupProvider

open SqliteBackupProvider in
/-- A backup that was made is there, unless as many others as are kept were changed at the same
instant and come after it. No more are left than are to be kept. -/
theorem made_backup_remains {formatTimestamp : Instant → String}
    (plainTimestamp : ∀ instant, '/' ∉ (formatTimestamp instant).toList)
    {sha256Hex : List UInt8 → String} {provider : SqliteBackupProvider} {io : BackupIo}
    {request : BackupRequest} {files after : BackupFiles} {result : BackupResult}
    (clock : ∀ entry ∈ files.directory.entries, entry.modified.getD 0 ≤ io.stamp)
    (created : provider.createBackup formatTimestamp sha256Hex io request files =
      (.ok result, after)) :
    (result.Present sha256Hex request.outputDir after ↔
      files.directory.tiedAfter request.outputDir io.stamp
        (join request.outputDir (madeEntry formatTimestamp io request).name) <
        provider.maxFiles) ∧
      after.directory.backups ≤ provider.maxFiles := by
  obtain ⟨written, count, entries, rfl, rotated⟩ := createBackup_ok created
  have plain : IsPlain (madeEntry formatTimestamp io request).name :=
    filename_plain formatTimestamp plainTimestamp io.now request.label
  have isBackup : isBackupEntry (madeEntry formatTimestamp io request) = true := by
    simp only [madeEntry, isBackupEntry, toText_ofText, Bool.true_and]
    exact filename_recognised formatTimestamp io.now request.label
  have stamped : (madeEntry formatTimestamp io request).modified = some io.stamp := rfl
  generalize madeEntry formatTimestamp io request = new at *
  have listed : new ∈ written.directory.entries := by simp [entries]
  obtain ⟨succeeded, rfl⟩ := Prod.mk.inj rotated
  refine ⟨?_, rotation_leaves_few rfl succeeded⟩
  have kept := rotation_keeps_newest request.outputDir provider.maxFiles
    { io.rotation with dirExists := true } written.directory
  rw [← laterBackups_new entries stamped clock]
  constructor
  · rintro ⟨entry, member, _, path, _⟩
    have still := kept.nothingNew entry member
    have names := join_injective request.outputDir (written.directory.plain entry still) plain
      (congrArg key path)
    obtain rfl := List.inj_on_of_nodup_map written.directory.distinct still listed names
    exact rotation_leaves_newest_only request.outputDir provider.maxFiles _ written.directory rfl
      count succeeded entry member isBackup
  · intro few
    exact ⟨new, kept.newest new listed few, ((Bool.and_eq_true _ _).mp isBackup).1, rfl, rfl, rfl⟩

/-! ## Calls that succeed -/

theorem resolveBackupPath_ok (formatTimestamp : Instant → String)
    (plainTimestamp : ∀ instant, '/' ∉ (formatTimestamp instant).toList) {outputDir : OsString}
    (valid : validateBackupOutputDir outputDir = .ok outputDir) (createdAt : Instant)
    (label : Option String) :
    resolveBackupPath formatTimestamp outputDir createdAt label =
      .ok (join outputDir
        (ofText (buildSqliteBackupFilename formatTimestamp createdAt label))) := by
  have plain := filename_plain formatTimestamp plainTimestamp createdAt label
  have named : (fileName (join outputDir
      (ofText (buildSqliteBackupFilename formatTimestamp createdAt label)))).bind toText =
      some (buildSqliteBackupFilename formatTimestamp createdAt label) := by
    rw [fileName, components_join outputDir plain]
    simp
  have within : startsWith (join outputDir
      (ofText (buildSqliteBackupFilename formatTimestamp createdAt label))) outputDir = true := by
    rw [startsWith, components_join outputDir plain, List.isPrefixOf_iff_prefix]
    exact List.prefix_append _ _
  unfold resolveBackupPath
  rw [valid]
  simp [bind, Except.bind, named, within, pure, Except.pure]

theorem removeBackups_ok (outputDir : OsString) {io : RotationIo}
    (removes : ∀ path, io.remove path = none) (backups : List BackupFile) (deleted : ℕ)
    (directory : Directory) :
    ∃ count, (removeBackups outputDir io deleted directory backups).1 = .ok count := by
  induction backups generalizing deleted directory with
  | nil => exact ⟨deleted, rfl⟩
  | cons backup backups inductionHypothesis =>
    rw [removeBackups, removes]
    exact inductionHypothesis _ _

theorem rotation_succeeds (outputDir : OsString) {maxFiles : ℕ} (keepsSome : maxFiles ≠ 0)
    {io : RotationIo} (listed : io.readDir = none) (read : io.entry = none)
    (removes : ∀ path, io.remove path = none) (directory : Directory) :
    ∃ count, (rotateMemcoreSqliteBackups outputDir maxFiles io directory).1 = .ok count := by
  unfold rotateMemcoreSqliteBackups
  rw [if_neg keepsSome, listed, read]
  split
  · exact ⟨0, rfl⟩
  · simp only
    split
    · exact ⟨0, rfl⟩
    · exact removeBackups_ok outputDir removes _ 0 directory

/-- All calls succeed, and the database writes a file. -/
structure BackupIo.Calm (io : BackupIo) (content : List UInt8) : Prop where
  createDirs : io.createDirs = none
  parseUrl : io.parseUrl = none
  connect : io.connect = none
  vacuum : ∀ statement, io.vacuum statement = ⟨none, some content⟩
  metadata : io.metadata = none
  openFile : io.openFile = none
  readFile : io.readFile = none
  readDir : io.rotation.readDir = none
  entry : io.rotation.entry = none
  remove : ∀ path, io.rotation.remove path = none

namespace SqliteBackupProvider

theorem connectSource_ok {provider : SqliteBackupProvider} {io : BackupIo} {content : List UInt8}
    (calm : io.Calm content) : provider.connectSource io = .ok () := by
  unfold connectSource
  rw [calm.parseUrl, calm.connect]
  split <;> rfl

theorem createBackupFile_ok {provider : SqliteBackupProvider} {io : BackupIo}
    {content : List UInt8} {files : BackupFiles} {backupPath name : OsString} {text : String}
    (utf8 : toText backupPath = some text) (absent : files.holds name = false)
    (calm : io.Calm content) :
    provider.createBackupFile io backupPath name files =
      (.ok (), files.write name io.stamp content) := by
  have vacuumed : vacuumInto io backupPath name files =
      (.ok (), files.write name io.stamp content) := by
    simp only [vacuumInto, escapeSqlitePathLiteral, utf8, calm.vacuum, WriteOutcome.result,
      WriteOutcome.leaves]
  simp [createBackupFile, failing, calm.createDirs, absent, connectSource_ok calm, vacuumed]

theorem readMetadata_ok {io : BackupIo} {content : List UInt8} {files : BackupFiles}
    {name : OsString} (plain : IsPlain name) (calm : io.Calm content) :
    readMetadata io name (files.write name io.stamp content) = .ok content := by
  have held : (files.write name io.stamp content).holds name = true := by
    rw [holds_iff, BackupFiles.write, dif_pos plain]
    exact ⟨⟨name, true, some io.stamp⟩, List.mem_append_right _ (List.mem_singleton_self _), rfl⟩
  have stored : (files.write name io.stamp content).contents name = content := by
    rw [BackupFiles.write, dif_pos plain]
    exact if_pos rfl
  simp only [readMetadata, calm.metadata, held, if_true, stored]

theorem finishBackup_succeeds {sha256Hex : List UInt8 → String} {provider : SqliteBackupProvider}
    {io : BackupIo} {content : List UInt8} {files : BackupFiles}
    {outputDir backupPath name : OsString} (plain : IsPlain name) (calm : io.Calm content)
    (something : content ≠ []) :
    ∃ result after, finishBackup sha256Hex provider io outputDir backupPath name
      (files.write name io.stamp content) = (.ok result, after) := by
  have long : content.length ≠ 0 := fun empty => something (List.length_eq_zero_iff.mp empty)
  obtain ⟨count, rotated⟩ := @rotation_succeeds outputDir provider.maxFiles provider.keepsSome
    { io.rotation with dirExists := true } calm.readDir calm.entry calm.remove
    (files.write name io.stamp content).directory
  simp only [finishBackup, readMetadata_ok plain calm, if_neg long, fileSha256Hex, calm.openFile,
    calm.readFile, rotate, rotated]
  exact ⟨_, _, rfl⟩

/-- A call succeeds when all its steps do and the file is not there yet. -/
theorem createBackup_succeeds {formatTimestamp : Instant → String}
    (plainTimestamp : ∀ instant, '/' ∉ (formatTimestamp instant).toList)
    {sha256Hex : List UInt8 → String} {provider : SqliteBackupProvider} {io : BackupIo}
    {request : BackupRequest} {files : BackupFiles} {content : List UInt8} {text : String}
    (sqlite : request.backend = .sqlite)
    (valid : validateBackupOutputDir request.outputDir = .ok request.outputDir)
    (utf8 : toText (join request.outputDir (madeEntry formatTimestamp io request).name) = some text)
    (absent : files.holds (madeEntry formatTimestamp io request).name = false)
    (calm : io.Calm content) (something : content ≠ []) :
    ∃ result after, provider.createBackup formatTimestamp sha256Hex io request files =
      (.ok result, after) := by
  have plain : IsPlain (madeEntry formatTimestamp io request).name :=
    filename_plain formatTimestamp plainTimestamp io.now request.label
  have resolved := resolveBackupPath_ok formatTimestamp plainTimestamp valid io.now request.label
  have made : provider.createBackupFile io _ _ files = (.ok (), _) :=
    createBackupFile_ok utf8 absent calm
  simp only [createBackup, sqlite, ne_eq, not_true_eq_false, if_false, resolved]
  rw [show ofText _ = (madeEntry formatTimestamp io request).name from rfl, made]
  exact finishBackup_succeeds plain calm something

end SqliteBackupProvider

open SqliteBackupProvider in
/-- The file that a successful call names is there with its size and checksum, and no more backups
are left than are to be kept, exactly when fewer than that were changed at the same instant as the
new file and come after it by their paths. -/
theorem created_backup_exists_iff (formatTimestamp : Instant → String)
    (plainTimestamp : ∀ instant, '/' ∉ (formatTimestamp instant).toList)
    (sha256Hex : List UInt8 → String) (provider : SqliteBackupProvider) (io : BackupIo)
    (request : BackupRequest) (files after : BackupFiles) (result : BackupResult)
    (clock : ∀ entry ∈ files.directory.entries, entry.modified.getD 0 ≤ io.stamp)
    (created : provider.createBackup formatTimestamp sha256Hex io request files =
      (.ok result, after)) :
    (result.Present sha256Hex request.outputDir after ∧
        after.directory.backups ≤ provider.maxFiles) ↔
      files.directory.tiedAfter request.outputDir io.stamp
        (join request.outputDir
          (ofText (buildSqliteBackupFilename formatTimestamp io.now request.label))) <
        provider.maxFiles := by
  obtain ⟨remains, few⟩ := made_backup_remains plainTimestamp clock created
  exact ⟨fun present => remains.mp present.1, fun tied => ⟨remains.mpr tied, few⟩⟩

/-- A directory with one backup. -/
def oneBackup (name : String) (plain : IsPlain (ofText name)) (modified : Instant) :
    BackupFiles where
  directory :=
    { entries := [⟨ofText name, true, some modified⟩]
      plain := by simpa using plain
      distinct := by simp }
  contents := fun _ => [0]

theorem oneBackup_tiedAfter {name : String} (plain : IsPlain (ofText name)) (instant : Instant)
    (recognised : isMemcoreSqliteBackupFilename name = true) (outputDir path : OsString) :
    (oneBackup name plain instant).directory.tiedAfter outputDir instant path =
      if key path < key (join outputDir (ofText name)) then 1 else 0 := by
  have isBackup : isBackupEntry ⟨ofText name, true, some instant⟩ = true := by
    simp only [isBackupEntry, toText_ofText, recognised, Bool.and_self]
  simp [Directory.tiedAfter, oneBackup, List.filter_cons_of_pos isBackup, List.countP_cons]

/-- Calls that succeed at one instant. -/
def sampleIo : BackupIo where
  now := 7
  stamp := 7
  createDirs := none
  parseUrl := none
  connect := none
  vacuum := fun _ => ⟨none, some [1]⟩
  removePartial := none
  sourceExists := true
  copy := ⟨none, some [1]⟩
  metadata := none
  notFound := "No such file or directory (os error 2)"
  removeEmpty := none
  openFile := none
  readFile := none
  rotation := ⟨true, none, none, fun _ => none⟩

theorem sampleIo_calm : sampleIo.Calm [1] := by
  constructor <;> intros <;> rfl

/-- The second in which the sample backups are made. -/
def sampleTimestamp (_ : Instant) : String := "20260618T100000Z"

theorem sampleTimestamp_plain (instant : Instant) : '/' ∉ (sampleTimestamp instant).toList := by
  change '/' ∉ "20260618T100000Z".toList
  decide

def sampleName : String := "memcore-sqlite-20260618T100000Z-b.backup.sqlite"

theorem sampleName_plain : IsPlain (ofText sampleName) :=
  isPlain_ofText (by simp [sampleName]) (by simp [sampleName])

def sampleFiles : BackupFiles := oneBackup sampleName sampleName_plain 7

def sampleProvider : SqliteBackupProvider := ⟨"sqlite://data.db", 1, by decide⟩

def requestLabelled (label : String) : BackupRequest := ⟨.sqlite, ofText "backups", some label⟩

open SqliteBackupProvider in
/-- A backup is made in the second and at the instant of another. -/
theorem sample_succeeds {label text : String}
    (path : join (ofText "backups")
      (madeEntry sampleTimestamp sampleIo (requestLabelled label)).name = ofText text)
    (absent : sampleFiles.holds
      (madeEntry sampleTimestamp sampleIo (requestLabelled label)).name = false) :
    ∃ result after, sampleProvider.createBackup sampleTimestamp (fun _ => "") sampleIo
      (requestLabelled label) sampleFiles = (.ok result, after) :=
  createBackup_succeeds sampleTimestamp_plain rfl
    (show validateBackupOutputDir (ofText "backups") = .ok (ofText "backups") by decide)
    ((congrArg toText path).trans (toText_ofText text)) absent sampleIo_calm (by decide)

theorem sampleFiles_clock : ∀ entry ∈ sampleFiles.directory.entries,
    entry.modified.getD 0 ≤ sampleIo.stamp := by
  simp [sampleFiles, oneBackup, sampleIo]

/-- A second backup in the same second and at the same instant is the one that is rotated away, if
its label comes first. -/
theorem created_backup_rotated_away :
    ¬ ∀ (formatTimestamp : Instant → String),
      (∀ instant, '/' ∉ (formatTimestamp instant).toList) →
      ∀ (sha256Hex : List UInt8 → String) (provider : SqliteBackupProvider) (io : BackupIo)
        (request : BackupRequest) (files after : BackupFiles) (result : BackupResult),
        (∀ entry ∈ files.directory.entries, entry.modified.getD 0 ≤ io.stamp) →
        provider.createBackup formatTimestamp sha256Hex io request files = (.ok result, after) →
        result.Present sha256Hex request.outputDir after ∧
          after.directory.backups ≤ provider.maxFiles := by
  intro claimed
  obtain ⟨result, after, created⟩ := @sample_succeeds "a"
    "backups/memcore-sqlite-20260618T100000Z-a.backup.sqlite" (by decide +kernel)
    (by decide +kernel)
  have present :=
    (claimed _ sampleTimestamp_plain _ _ _ _ _ after result sampleFiles_clock created).1
  have few := (made_backup_remains sampleTimestamp_plain sampleFiles_clock created).1.mp present
  have tied := oneBackup_tiedAfter sampleName_plain 7 (by decide +kernel) (ofText "backups")
    (join (ofText "backups") (SqliteBackupProvider.madeEntry sampleTimestamp sampleIo
      (requestLabelled "a")).name)
  rw [if_pos (by decide +kernel)] at tied
  exact Nat.lt_irrefl 1 (lt_of_eq_of_lt tied.symm few)

/-- With a label that comes last it stays, and the other is rotated away. -/
theorem created_backup_exists_iff_sample :
    ∃ result after, sampleProvider.createBackup sampleTimestamp (fun _ => "") sampleIo
        (requestLabelled "c") sampleFiles = (.ok result, after) ∧
      result.Present (fun _ => "") (ofText "backups") after ∧ after.directory.backups ≤ 1 := by
  obtain ⟨result, after, created⟩ := @sample_succeeds "c"
    "backups/memcore-sqlite-20260618T100000Z-c.backup.sqlite" (by decide +kernel)
    (by decide +kernel)
  refine ⟨result, after, created, ?_⟩
  have tied := oneBackup_tiedAfter sampleName_plain 7 (by decide +kernel) (ofText "backups")
    (join (ofText "backups") (ofText (buildSqliteBackupFilename sampleTimestamp 7 (some "c"))))
  rw [if_neg (by decide +kernel)] at tied
  exact (created_backup_exists_iff sampleTimestamp sampleTimestamp_plain (fun _ => "")
    sampleProvider sampleIo (requestLabelled "c") sampleFiles after result sampleFiles_clock
    created).mpr (lt_of_eq_of_lt tied Nat.one_pos)

end Memcore
