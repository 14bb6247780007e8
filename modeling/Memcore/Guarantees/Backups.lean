import Memcore.Backup.Service
import Mathlib.Data.List.Sort

/-!
# Backups and their rotation

A label is reduced to letters, digits, dashes and underscores, so that the name made of it is one
component which rotation recognises. The path of a backup therefore has the components of the
directory and one more.

Rotation takes the backups in the order of their times and paths, in which no two are equal, and
removes from the front. Whatever fails on the way, the files removed are some of the oldest
backups, and none of those that are to be kept.
-/
namespace Memcore

open Paths

/-! ## Names -/

theorem mem_splitPieces {separator character : Char} {text piece : List Char} {part : String}
    (isPart : part ∈ Texts.splitPieces separator text piece) (within : character ∈ part.toList) :
    character ∈ text ∨ character ∈ piece := by
  induction text generalizing piece with
  | nil =>
    obtain rfl := List.mem_singleton.mp isPart
    rw [String.toList_ofList, List.mem_reverse] at within
    exact .inr within
  | cons first rest inductionHypothesis =>
    rw [Texts.splitPieces] at isPart
    split at isPart
    · rcases List.mem_cons.mp isPart with rfl | later
      · rw [String.toList_ofList, List.mem_reverse] at within
        exact .inr within
      · rcases inductionHypothesis later with found | impossible
        · exact .inl (List.mem_cons_of_mem _ found)
        · cases impossible
    · rcases inductionHypothesis isPart with found | found
      · exact .inl (List.mem_cons_of_mem _ found)
      · rcases List.mem_cons.mp found with rfl | held
        · exact .inl (List.mem_cons_self ..)
        · exact .inr held

theorem mem_join {separator : String} {parts : List String} {character : Char}
    (within : character ∈ (Texts.join separator parts).toList) :
    character ∈ separator.toList ∨ ∃ part ∈ parts, character ∈ part.toList := by
  induction parts with
  | nil => simp [Texts.join] at within
  | cons part rest inductionHypothesis =>
    cases rest with
    | nil => exact .inr ⟨part, List.mem_cons_self .., within⟩
    | cons next rest =>
      simp only [Texts.join, String.toList_append, List.mem_append] at within
      rcases within with (own | between) | later
      · exact .inr ⟨part, List.mem_cons_self .., own⟩
      · exact .inl between
      · rcases inductionHypothesis later with between | ⟨other, member, found⟩
        · exact .inl between
        · exact .inr ⟨other, List.mem_cons_of_mem _ member, found⟩

/-- A sanitized label is made of characters that a label keeps. -/
theorem sanitizeBackupLabel_safe {label : Option String} {safe : String}
    (sanitized : sanitizeBackupLabel label = some safe) :
    ∀ character ∈ safe.toList, isLabelCharacter character = true := by
  intro character within
  unfold sanitizeBackupLabel at sanitized
  split at sanitized
  · cases sanitized
  · rename_i raw _
    split at sanitized
    · cases sanitized
    · simp only at sanitized
      split at sanitized
      · cases sanitized
      · cases sanitized
        rcases mem_join within with dash | ⟨part, kept, found⟩
        · obtain rfl : character = '-' := by simpa using dash
          rfl
        · rcases mem_splitPieces (List.mem_filter.mp kept).1 found with mapped | impossible
          · rw [String.toList_ofList, List.mem_map] at mapped
            obtain ⟨before, _, rfl⟩ := mapped
            split
            · assumption
            · rfl
          · cases impossible

/-- The name of a backup has no slash if the time has none. -/
theorem filename_without_slash (formatTimestamp : Instant → String)
    (plainTimestamp : ∀ instant, '/' ∉ (formatTimestamp instant).toList) (createdAt : Instant)
    (label : Option String) :
    '/' ∉ (buildSqliteBackupFilename formatTimestamp createdAt label).toList := by
  have front : '/' ∉ backupFilePrefix.toList := by decide
  have behind : '/' ∉ backupFileSuffix.toList := by decide
  have dash : '/' ∉ "-".toList := by decide
  have time := plainTimestamp createdAt
  unfold buildSqliteBackupFilename
  split
  · rename_i safe sanitized
    have plain : '/' ∉ safe.toList := fun within =>
      absurd (sanitizeBackupLabel_safe sanitized '/' within) (by decide)
    simp only [String.toList_append, List.mem_append, front, behind, dash, time, plain, or_self,
      not_false_eq_true]
  · simp only [String.toList_append, List.mem_append, front, behind, time, or_self,
      not_false_eq_true]

theorem filename_recognised (formatTimestamp : Instant → String) (createdAt : Instant)
    (label : Option String) :
    isMemcoreSqliteBackupFilename
      (buildSqliteBackupFilename formatTimestamp createdAt label) = true := by
  unfold buildSqliteBackupFilename isMemcoreSqliteBackupFilename
  rw [Bool.and_eq_true, List.isPrefixOf_iff_prefix, List.isSuffixOf_iff_suffix]
  split
  · simp only [String.toList_append, List.append_assoc]
    exact ⟨List.prefix_append _ _, by simp only [← List.append_assoc]; exact List.suffix_append _ _⟩
  · simp only [String.toList_append, List.append_assoc]
    exact ⟨List.prefix_append _ _, by simp only [← List.append_assoc]; exact List.suffix_append _ _⟩

/-- The name of a backup is one component. -/
theorem filename_plain (formatTimestamp : Instant → String)
    (plainTimestamp : ∀ instant, '/' ∉ (formatTimestamp instant).toList) (createdAt : Instant)
    (label : Option String) :
    IsPlain (ofText (buildSqliteBackupFilename formatTimestamp createdAt label)) := by
  apply isPlain_ofText (filename_without_slash formatTimestamp plainTimestamp createdAt label)
  have recognised := filename_recognised formatTimestamp createdAt label
  obtain ⟨begins, _⟩ := (Bool.and_eq_true _ _).mp recognised
  have long := (List.isPrefixOf_iff_prefix.mp begins).length_le
  exact Nat.lt_of_lt_of_le (by decide) long

/-- A path that is resolved is the name in the directory. -/
theorem resolved_join {formatTimestamp : Instant → String} {outputDir path : OsString}
    {createdAt : Instant} {label : Option String}
    (resolved : resolveBackupPath formatTimestamp outputDir createdAt label = .ok path) :
    path = join outputDir (ofText (buildSqliteBackupFilename formatTimestamp createdAt label)) := by
  obtain ⟨validated, valid, found⟩ := (bind_ok _ _ _).mp resolved
  have same : validated = outputDir := by
    unfold validateBackupOutputDir at valid
    split at valid
    · cases valid
    · split at valid
      · cases valid
      · exact (Except.ok.inj valid).symm
  subst same
  simp only at found
  split at found
  · cases found
  · split at found
    · cases found
    · exact (Except.ok.inj found).symm

/-- A path that is resolved is that of a recognised name directly in the directory. -/
theorem resolved_path (formatTimestamp : Instant → String)
    (plainTimestamp : ∀ instant, '/' ∉ (formatTimestamp instant).toList) {outputDir path : OsString}
    {createdAt : Instant} {label : Option String}
    (resolved : resolveBackupPath formatTimestamp outputDir createdAt label = .ok path) :
    ∃ name, components path = components outputDir ++ [.normal (ofText name)] ∧
      isMemcoreSqliteBackupFilename name = true := by
  refine ⟨_, ?_, filename_recognised formatTimestamp createdAt label⟩
  rw [resolved_join resolved]
  exact components_join outputDir (filename_plain formatTimestamp plainTimestamp createdAt label)

/-! ## Rotation -/

/-- The backups of a directory that come after another in the order of rotation. -/
def laterBackups (outputDir : OsString) (directory : Directory) (entry : DirEntry) : ℕ :=
  (directory.entries.filter isBackupEntry).countP fun other =>
    decide ((entry.backup outputDir).key < (other.backup outputDir).key)

/-- Only backups are removed, and none of the newest. -/
structure KeepsNewest (outputDir : OsString) (maxFiles : ℕ) (before after : Directory) :
    Prop where
  nothingNew : ∀ entry ∈ after.entries, entry ∈ before.entries
  onlyBackups : ∀ entry ∈ before.entries, entry ∉ after.entries → isBackupEntry entry = true
  newest : ∀ entry ∈ before.entries, laterBackups outputDir before entry < maxFiles →
    entry ∈ after.entries

/-- Plain names in one directory have different paths. -/
theorem join_injective (outputDir : OsString) {left right : OsString} (leftPlain : IsPlain left)
    (rightPlain : IsPlain right) (same : key (join outputDir left) = key (join outputDir right)) :
    left = right := by
  unfold key at same
  have components := Component.key_injective.list_map same
  rw [components_join outputDir leftPlain, components_join outputDir rightPlain] at components
  simpa using components

section Rotation

variable (outputDir : OsString) (directory : Directory)

/-- Two entries with one key in the order of rotation are the same. -/
theorem backup_key_injective {left right : DirEntry} (leftListed : left ∈ directory.entries)
    (rightListed : right ∈ directory.entries)
    (same : (left.backup outputDir).key = (right.backup outputDir).key) : left = right := by
  have paths := congrArg (fun key => (ofLex key).2) same
  have names := join_injective outputDir (directory.plain left leftListed)
    (directory.plain right rightListed) paths
  exact List.inj_on_of_nodup_map directory.distinct leftListed rightListed names

theorem sortedBackups_perm :
    (sortedBackups outputDir directory).Perm
      ((directory.entries.filter isBackupEntry).map (DirEntry.backup outputDir)) :=
  List.mergeSort_perm _ _

theorem sortedBackups_keys :
    ((sortedBackups outputDir directory).map BackupFile.key).Nodup := by
  rw [((sortedBackups_perm outputDir directory).map BackupFile.key).nodup_iff, List.map_map]
  have entries : directory.entries.Nodup := directory.distinct.of_map
  refine (entries.filter isBackupEntry).map_on fun left leftListed right rightListed same => ?_
  exact backup_key_injective outputDir directory (List.mem_filter.mp leftListed).1
    (List.mem_filter.mp rightListed).1 same

/-- The backups are in the order of rotation, each before all later ones. -/
theorem sortedBackups_pairwise :
    (sortedBackups outputDir directory).Pairwise fun earlier later => earlier.key < later.key := by
  have ordered : (sortedBackups outputDir directory).Pairwise fun earlier later =>
      earlier.key ≤ later.key := by
    refine (List.pairwise_mergeSort ?_ ?_ _).imp fun before => of_decide_eq_true before
    · intro first second third left right
      exact decide_eq_true ((of_decide_eq_true left).trans (of_decide_eq_true right))
    · intro left right
      rw [Bool.or_eq_true, decide_eq_true_eq, decide_eq_true_eq]
      exact le_total _ _
  have distinct := List.pairwise_map.mp (sortedBackups_keys outputDir directory)
  exact ordered.imp₂ (fun _ _ before other => lt_of_le_of_ne before other) distinct

/-- As many backups come after one as after its place in the order. -/
theorem laterBackups_eq (entry : DirEntry) :
    laterBackups outputDir directory entry = (sortedBackups outputDir directory).countP
      fun other => decide ((entry.backup outputDir).key < other.key) := by
  rw [(sortedBackups_perm outputDir directory).countP_eq, List.countP_map]
  rfl

/-- An entry among the oldest backups has at least as many later ones as follow them. -/
theorem le_laterBackups {entry : DirEntry} {removed kept : List BackupFile}
    (split : sortedBackups outputDir directory = removed ++ kept)
    (old : entry.backup outputDir ∈ removed) :
    kept.length ≤ laterBackups outputDir directory entry := by
  have ordered := sortedBackups_pairwise outputDir directory
  rw [split, List.pairwise_append] at ordered
  have all := List.countP_eq_length.mpr fun other member =>
    decide_eq_true (ordered.2.2 _ old other member)
  rw [laterBackups_eq, split, List.countP_append, all]
  exact Nat.le_add_left _ _

/-- An entry among the newest backups has fewer later ones than there are newest. -/
theorem laterBackups_lt {entry : DirEntry} {removed kept : List BackupFile}
    (split : sortedBackups outputDir directory = removed ++ kept)
    (new : entry.backup outputDir ∈ kept) :
    laterBackups outputDir directory entry < kept.length := by
  have ordered := sortedBackups_pairwise outputDir directory
  rw [split, List.pairwise_append] at ordered
  have absent : (removed.countP fun other : BackupFile =>
      decide ((entry.backup outputDir).key < other.key)) = 0 := by
    refine List.countP_eq_zero.mpr fun other member => ?_
    rw [decide_eq_true_eq]
    exact (ordered.2.2 other member _ new).asymm
  rw [laterBackups_eq, split, List.countP_append, absent, Nat.zero_add,
    List.countP_eq_length_filter]
  refine List.length_filter_lt_length_iff_exists.mpr ⟨entry.backup outputDir, new, ?_⟩
  simp

end Rotation

/-- Files are removed from the front, all of them unless a call fails. -/
theorem removeBackups_cases (outputDir : OsString) (io : RotationIo) (backups : List BackupFile)
    (deleted : ℕ) (directory : Directory) :
    ∃ removed rest, backups = removed ++ rest ∧
      (removeBackups outputDir io deleted directory backups).2.entries =
        directory.entries.filter (fun entry =>
          decide (join outputDir entry.name ∉ removed.map BackupFile.path)) ∧
      ∀ count, (removeBackups outputDir io deleted directory backups).1 = .ok count →
        rest = [] ∧ count = deleted + removed.length := by
  induction backups generalizing deleted directory with
  | nil =>
    refine ⟨[], [], rfl, ?_, ?_⟩
    · simp [removeBackups]
    · rintro _ ⟨⟩
      exact ⟨rfl, rfl⟩
  | cons backup backups inductionHypothesis =>
    cases answer : io.remove backup.path with
    | some failure =>
      refine ⟨[], backup :: backups, rfl, ?_, ?_⟩
      · simp [removeBackups, answer]
      · intro count counted
        simp [removeBackups, answer] at counted
    | none =>
      have step : removeBackups outputDir io deleted directory (backup :: backups) =
          removeBackups outputDir io (deleted + 1) (directory.keep fun entry =>
            decide (join outputDir entry.name ≠ backup.path)) backups := by
        rw [removeBackups, answer]
      obtain ⟨removed, rest, split, left, counts⟩ := inductionHypothesis (deleted + 1)
        (directory.keep fun entry => decide (join outputDir entry.name ≠ backup.path))
      rw [step]
      refine ⟨backup :: removed, rest, by rw [split, List.cons_append], ?_, ?_⟩
      · rw [left, Directory.keep, List.filter_filter]
        congr 1
        funext entry
        rw [List.map_cons, ← Bool.decide_and]
        congr 1
        rw [List.mem_cons, not_or, and_comm]
      · intro count counted
        obtain ⟨all, added⟩ := counts count counted
        refine ⟨all, ?_⟩
        rw [added, List.length_cons]
        omega

/-- An entry whose file is removed is one of the backups that are. -/
theorem removed_entry {outputDir : OsString} {directory : Directory} {removed kept : List BackupFile}
    (split : sortedBackups outputDir directory = removed ++ kept) {entry : DirEntry}
    (listed : entry ∈ directory.entries)
    (gone : join outputDir entry.name ∈ removed.map BackupFile.path) :
    isBackupEntry entry = true ∧ entry.backup outputDir ∈ removed := by
  obtain ⟨backup, member, samePath⟩ := List.mem_map.mp gone
  have sorted : backup ∈ sortedBackups outputDir directory :=
    split ▸ List.mem_append_left _ member
  obtain ⟨other, isBackup, rfl⟩ :=
    List.mem_map.mp ((sortedBackups_perm outputDir directory).mem_iff.mp sorted)
  obtain ⟨otherListed, recognised⟩ := List.mem_filter.mp isBackup
  have sameName := join_injective outputDir (directory.plain other otherListed)
    (directory.plain entry listed) (congrArg key samePath)
  have same : other = entry :=
    List.inj_on_of_nodup_map directory.distinct otherListed listed sameName
  subst same
  exact ⟨recognised, member⟩

/-- Removing some of the oldest backups keeps the newest. -/
theorem keepsNewest_of_removed {outputDir : OsString} {maxFiles : ℕ} {before after : Directory}
    {removed kept : List BackupFile} (split : sortedBackups outputDir before = removed ++ kept)
    (enough : maxFiles ≤ kept.length)
    (left : after.entries = before.entries.filter fun entry =>
      decide (join outputDir entry.name ∉ removed.map BackupFile.path)) :
    KeepsNewest outputDir maxFiles before after := by
  have gone : ∀ entry ∈ before.entries, entry ∉ after.entries →
      join outputDir entry.name ∈ removed.map BackupFile.path := by
    intro entry listed absent
    by_contra held
    rw [left] at absent
    exact absent (List.mem_filter.mpr ⟨listed, decide_eq_true held⟩)
  constructor
  case nothingNew =>
    intro entry member
    rw [left] at member
    exact (List.mem_filter.mp member).1
  case onlyBackups =>
    intro entry listed absent
    exact (removed_entry split listed (gone entry listed absent)).1
  case newest =>
    intro entry listed few
    by_contra absent
    have old := (removed_entry split listed (gone entry listed absent)).2
    have many := le_laterBackups outputDir before split old
    omega

theorem keepsNewest_refl (outputDir : OsString) (maxFiles : ℕ) (directory : Directory) :
    KeepsNewest outputDir maxFiles directory directory where
  nothingNew := fun _ member => member
  onlyBackups := fun _ member absent => absurd member absent
  newest := fun _ member _ => member

/-- Rotation removes nothing, or some of the backups that are too many. -/
theorem rotation_cases (outputDir : OsString) (maxFiles : ℕ) (io : RotationIo)
    (directory : Directory) :
    (rotateMemcoreSqliteBackups outputDir maxFiles io directory).2 = directory ∧
        (io.dirExists = true → ∀ count,
          (rotateMemcoreSqliteBackups outputDir maxFiles io directory).1 = .ok count →
            (sortedBackups outputDir directory).length ≤ maxFiles) ∨
      maxFiles < (sortedBackups outputDir directory).length ∧
        rotateMemcoreSqliteBackups outputDir maxFiles io directory =
          removeBackups outputDir io 0 directory ((sortedBackups outputDir directory).take
            ((sortedBackups outputDir directory).length - maxFiles)) := by
  unfold rotateMemcoreSqliteBackups
  split
  · exact .inl ⟨rfl, fun _ count impossible => nomatch impossible⟩
  · split
    · rename_i absent
      exact .inl ⟨rfl, fun present => by simp [present] at absent⟩
    · split
      · exact .inl ⟨rfl, fun _ count impossible => nomatch impossible⟩
      · exact .inl ⟨rfl, fun _ count impossible => nomatch impossible⟩
      · simp only
        split
        · rename_i few
          exact .inl ⟨rfl, fun _ _ _ => few⟩
        · rename_i many
          exact .inr ⟨Nat.lt_of_not_le many, rfl⟩

/-- Whatever fails, rotation keeps the newest backups. -/
theorem rotation_keeps_newest (outputDir : OsString) (maxFiles : ℕ) (io : RotationIo)
    (directory : Directory) :
    KeepsNewest outputDir maxFiles directory
      (rotateMemcoreSqliteBackups outputDir maxFiles io directory).2 := by
  rcases rotation_cases outputDir maxFiles io directory with ⟨same, _⟩ | ⟨many, removing⟩
  · rw [same]
    exact keepsNewest_refl outputDir maxFiles directory
  · obtain ⟨removed, rest, taken, left, _⟩ := removeBackups_cases outputDir io
      ((sortedBackups outputDir directory).take
        ((sortedBackups outputDir directory).length - maxFiles)) 0 directory
    have whole := List.take_append_drop ((sortedBackups outputDir directory).length - maxFiles)
      (sortedBackups outputDir directory)
    rw [taken, List.append_assoc] at whole
    rw [removing]
    refine keepsNewest_of_removed whole.symm ?_ left
    rw [List.length_append, List.length_drop]
    omega

/-- Rotation that succeeds leaves no other backups than the newest. -/
theorem rotation_leaves_newest_only (outputDir : OsString) (maxFiles : ℕ) (io : RotationIo)
    (directory : Directory) (present : io.dirExists = true) (count : ℕ)
    (succeeded : (rotateMemcoreSqliteBackups outputDir maxFiles io directory).1 = .ok count) :
    ∀ entry ∈ (rotateMemcoreSqliteBackups outputDir maxFiles io directory).2.entries,
      isBackupEntry entry = true → laterBackups outputDir directory entry < maxFiles := by
  intro entry member isBackup
  have listed := (rotation_keeps_newest outputDir maxFiles io directory).nothingNew entry member
  have sorted : entry.backup outputDir ∈ sortedBackups outputDir directory :=
    (sortedBackups_perm outputDir directory).mem_iff.mpr
      (List.mem_map_of_mem (List.mem_filter.mpr ⟨listed, isBackup⟩))
  rcases rotation_cases outputDir maxFiles io directory with ⟨_, few⟩ | ⟨many, removing⟩
  · have fewer := laterBackups_lt outputDir directory
      (List.nil_append (sortedBackups outputDir directory)).symm sorted
    exact Nat.lt_of_lt_of_le fewer (few present count succeeded)
  · obtain ⟨removed, rest, taken, left, counts⟩ := removeBackups_cases outputDir io
      ((sortedBackups outputDir directory).take
        ((sortedBackups outputDir directory).length - maxFiles)) 0 directory
    rw [removing] at succeeded member
    obtain ⟨rfl, _⟩ := counts count succeeded
    have whole := List.take_append_drop ((sortedBackups outputDir directory).length - maxFiles)
      (sortedBackups outputDir directory)
    rw [taken, List.append_nil] at whole
    rw [left, List.mem_filter, decide_eq_true_eq] at member
    have kept : entry.backup outputDir ∈ (sortedBackups outputDir directory).drop
        ((sortedBackups outputDir directory).length - maxFiles) := by
      rw [← whole, List.mem_append] at sorted
      rcases sorted with old | new
      · exact absurd (List.mem_map_of_mem old) member.2
      · exact new
    have fewer := laterBackups_lt outputDir directory whole.symm kept
    rw [List.length_drop] at fewer
    omega

/-- A backup is placed directly in its directory under a name that rotation recognises. Rotation
removes only such files and keeps the newest of them, and if it succeeds no others are left. -/
theorem backups_stay_and_newest_remain (formatTimestamp : Instant → String)
    (plainTimestamp : ∀ instant, '/' ∉ (formatTimestamp instant).toList) :
    (∀ outputDir createdAt label path,
        resolveBackupPath formatTimestamp outputDir createdAt label = .ok path →
          ∃ name, components path = components outputDir ++ [.normal (ofText name)] ∧
            isMemcoreSqliteBackupFilename name = true) ∧
      ∀ outputDir maxFiles io directory,
        let rotated := rotateMemcoreSqliteBackups outputDir maxFiles io directory
        KeepsNewest outputDir maxFiles directory rotated.2 ∧
          (io.dirExists = true → ∀ count, rotated.1 = .ok count →
            ∀ entry ∈ rotated.2.entries, isBackupEntry entry = true →
              laterBackups outputDir directory entry < maxFiles) := by
  refine ⟨fun outputDir createdAt label path resolved =>
    resolved_path formatTimestamp plainTimestamp resolved, fun outputDir maxFiles io directory => ?_⟩
  exact ⟨rotation_keeps_newest outputDir maxFiles io directory,
    fun present count succeeded =>
      rotation_leaves_newest_only outputDir maxFiles io directory present count succeeded⟩

/-- With times written as one text, a label that leads upwards stays in the directory. -/
theorem backups_stay_and_newest_remain_sample :
    ∃ path, resolveBackupPath (fun _ => "20260618T100000Z") (ofText "backups") 0
        (some "../before migration!!") = .ok path ∧
      ∃ name, components path = components (ofText "backups") ++ [.normal (ofText name)] ∧
        isMemcoreSqliteBackupFilename name = true := by
  have resolves : (resolveBackupPath (fun _ => "20260618T100000Z") (ofText "backups") 0
      (some "../before migration!!")).isOk = true := by decide +kernel
  cases resolved : resolveBackupPath (fun _ => "20260618T100000Z") (ofText "backups") 0
      (some "../before migration!!") with
  | error error =>
    rw [resolved] at resolves
    nomatch resolves
  | ok path =>
    have stays := (backups_stay_and_newest_remain (fun _ => "20260618T100000Z")
      (fun _ => by decide)).1 (ofText "backups") 0 (some "../before migration!!") path resolved
    exact ⟨path, rfl, stays⟩

end Memcore
