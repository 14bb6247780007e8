import Memcore.Stores.Migrations

/-!
# Migrations run once

Execution and record of a migration share a transaction, so the record of what has been
committed is exact wherever a run stops. All runs of one list of migrations go through it in
the order of the versions: what has been committed is an initial part of the sorted list, and
the next run takes up the rest.

A record that the code does not know, or knows with another checksum, stops a run before its
first transaction.
-/
namespace Memcore

open KeyedTables Programs

/-! ## The list of migrations -/

/-- What the runner's table and the code both know of a migration. -/
def Migration.entry (migration : Migration) : ℤ × String × String :=
  (migration.version, migration.name, migration.checksum)

def SchemaMigrationRow.entry (row : SchemaMigrationRow) : ℤ × String × String :=
  (row.version, row.name, row.checksum)

def AppliedMigration.entry (applied : AppliedMigration) : ℤ × String × String :=
  (applied.version, applied.name, applied.checksum)

def Migration.statements (migration : Migration) : List String :=
  splitSqlStatements migration.sql

theorem firstDuplicate_eq_none {seen : List ℤ} {migrations : List Migration} :
    firstDuplicate seen migrations = none ↔ (migrations.map Migration.version).Nodup ∧
      ∀ migration ∈ migrations, migration.version ∉ seen := by
  induction migrations generalizing seen with
  | nil => simp [firstDuplicate]
  | cons migration rest inductionHypothesis =>
    by_cases known : migration.version ∈ seen
    · simp [firstDuplicate, known]
    · rw [firstDuplicate, if_neg known, inductionHypothesis]
      simp only [List.map_cons, List.nodup_cons, List.mem_map, not_exists, not_and,
        List.mem_cons, not_or, forall_eq_or_imp]
      constructor
      · rintro ⟨distinct, fresh⟩
        exact ⟨⟨fun other listed => (fresh other listed).1, distinct⟩, known,
          fun other listed => (fresh other listed).2⟩
      · rintro ⟨⟨apart, distinct⟩, _, fresh⟩
        exact ⟨distinct, fun other listed => ⟨apart other listed, fresh other listed⟩⟩

theorem perm_byVersion (migrations : List Migration) : (byVersion migrations).Perm migrations :=
  List.perm_insertionSort _ _

/-- Only lists with distinct versions are sorted at all. -/
theorem sortedMigrations_eq_ok {migrations sorted : List Migration} :
    sortedMigrations migrations = .ok sorted ↔
      (migrations.map Migration.version).Nodup ∧ sorted = byVersion migrations := by
  have distinct : firstDuplicate [] (byVersion migrations) = none ↔
      (migrations.map Migration.version).Nodup := by
    rw [firstDuplicate_eq_none, ((perm_byVersion migrations).map _).nodup_iff]
    simp
  rw [sortedMigrations, ← distinct]
  cases firstDuplicate [] (byVersion migrations) with
  | none => simp [eq_comm]
  | some version => simp

/-- With distinct versions the sorted list ascends strictly. -/
theorem byVersion_ascends {migrations : List Migration}
    (distinct : (migrations.map Migration.version).Nodup) :
    ((byVersion migrations).map Migration.version).Pairwise (· < ·) := by
  have ordered : ((byVersion migrations).map Migration.version).Pairwise (· ≤ ·) := by
    rw [List.pairwise_map]
    exact List.pairwise_insertionSort _ _
  have apart : ((byVersion migrations).map Migration.version).Pairwise (· ≠ ·) :=
    ((perm_byVersion migrations).map Migration.version).nodup_iff.mpr distinct
  exact (ordered.and apart).imp fun both => lt_of_le_of_ne both.1 both.2

/-! ## Validation -/

section Validation

variable {migrations : List Migration} {applied : List AppliedMigration}
  {report : MigrationValidationReport}

/-- What the report of a validation says. -/
theorem validateAppliedMigrations_eq_ok
    (validated : validateAppliedMigrations migrations applied = .ok report) :
    report.issues = (byVersion migrations).filterMap (codedIssue applied) ++
        applied.filterMap (appliedIssue (byVersion migrations)) ∧
      report.clean = report.issues.isEmpty := by
  rw [validateAppliedMigrations] at validated
  cases sorts : sortedMigrations migrations with
  | error error =>
    rw [sorts] at validated
    contradiction
  | ok sorted =>
    obtain ⟨_, rfl⟩ := sortedMigrations_eq_ok.mp sorts
    rw [sorts] at validated
    obtain rfl := Except.ok.inj validated
    exact ⟨rfl, rfl⟩

/-- An applied version that the code does not have, or has with another checksum. -/
def Discrepant (migrations : List Migration) (entries : List (ℤ × String × String)) : Prop :=
  ∃ entry ∈ entries, (∃ migration ∈ migrations,
      migration.version = entry.1 ∧ migration.checksum ≠ entry.2.2) ∨
    ∀ migration ∈ migrations, migration.version ≠ entry.1

theorem appliedWithVersion_of_mem (distinct : (applied.map AppliedMigration.version).Nodup)
    {entry : AppliedMigration} (listed : entry ∈ applied) :
    appliedWithVersion applied entry.version = some entry := by
  rw [appliedWithVersion]
  cases found : applied.reverse.find? fun other => decide (other.version = entry.version) with
  | none =>
    have absent := List.find?_eq_none.mp found entry (List.mem_reverse.mpr listed)
    simp at absent
  | some other =>
    have sameVersion : other.version = entry.version := by simpa using List.find?_some found
    have stored := List.mem_reverse.mp (List.mem_of_find?_eq_some found)
    rw [List.inj_on_of_nodup_map distinct stored listed sameVersion]

/-- A discrepancy is a blocking issue. -/
theorem hasBlockingIssues_of_discrepant
    (distinct : (applied.map AppliedMigration.version).Nodup)
    (validated : validateAppliedMigrations migrations applied = .ok report)
    (discrepant : Discrepant migrations (applied.map AppliedMigration.entry)) :
    report.hasBlockingIssues = true := by
  obtain ⟨issues, _⟩ := validateAppliedMigrations_eq_ok validated
  rw [MigrationValidationReport.hasBlockingIssues, List.any_eq_true, issues]
  obtain ⟨_, recorded, wrong⟩ := discrepant
  obtain ⟨entry, listed, rfl⟩ := List.mem_map.mp recorded
  rcases wrong with ⟨migration, coded, sameVersion, otherChecksum⟩ | missing
  · have found : appliedWithVersion applied migration.version = some entry := by
      rw [show migration.version = entry.version from sameVersion]
      exact appliedWithVersion_of_mem distinct listed
    have mismatch : codedIssue applied migration = some ⟨migration.version, migration.name,
        .checksumMismatch, "migration checksum mismatch"⟩ := by
      simp only [codedIssue, found]
      exact if_pos (Ne.symm otherChecksum)
    have sorted : migration ∈ byVersion migrations := (perm_byVersion migrations).mem_iff.mpr coded
    exact ⟨_, List.mem_append_left _ (List.mem_filterMap.mpr ⟨migration, sorted, mismatch⟩), rfl⟩
  · have unknown : ¬ (byVersion migrations).any
        (fun migration => decide (migration.version = entry.version)) = true := by
      rw [List.any_eq_true]
      rintro ⟨migration, sorted, same⟩
      exact missing migration ((perm_byVersion migrations).mem_iff.mp sorted)
        (of_decide_eq_true same)
    have issue : appliedIssue (byVersion migrations) entry = some ⟨entry.version, entry.name,
        .missingFromCode, "applied migration is missing from code"⟩ := if_neg unknown
    exact ⟨_, List.mem_append_right _ (List.mem_filterMap.mpr ⟨entry, listed, issue⟩), rfl⟩

/-- Where the records are those of the coded migrations, there is nothing to report. -/
theorem clean_of_recorded (distinct : (migrations.map Migration.version).Nodup)
    (validated : validateAppliedMigrations migrations applied = .ok report)
    (recorded : (applied.map AppliedMigration.entry).Perm (migrations.map Migration.entry)) :
    report.clean = true := by
  have versions : (applied.map AppliedMigration.version).Perm
      (migrations.map Migration.version) := by
    have firsts := recorded.map Prod.fst
    rwa [List.map_map, List.map_map] at firsts
  obtain ⟨issues, clean⟩ := validateAppliedMigrations_eq_ok validated
  rw [clean, List.isEmpty_iff, issues, List.append_eq_nil_iff, List.filterMap_eq_nil_iff,
    List.filterMap_eq_nil_iff]
  constructor
  · intro migration sorted
    have coded := (perm_byVersion migrations).mem_iff.mp sorted
    obtain ⟨entry, listed, same⟩ :=
      List.mem_map.mp (recorded.mem_iff.mpr (List.mem_map_of_mem coded))
    have sameVersion : entry.version = migration.version := congrArg Prod.fst same
    have sameChecksum : entry.checksum = migration.checksum :=
      congrArg (fun parts => parts.2.2) same
    have found := appliedWithVersion_of_mem (versions.nodup_iff.mpr distinct) listed
    rw [sameVersion] at found
    simp only [codedIssue, found]
    exact if_neg (not_not.mpr sameChecksum)
  · intro entry listed
    obtain ⟨migration, coded, same⟩ :=
      List.mem_map.mp (versions.mem_iff.mp (List.mem_map_of_mem listed))
    apply if_pos
    rw [List.any_eq_true]
    exact ⟨migration, (perm_byVersion migrations).mem_iff.mpr coded, decide_eq_true same⟩

end Validation

/-! ## What a run sends -/

/-- The calls that make up transactions. -/
def MigrationCall.isTransactional : MigrationCall → Bool
  | begin | execute _ | insertMigration _ _ _ | commit => true
  | _ => false

/-- The calls that carry out a migration and record it. -/
def Migration.transaction (migration : Migration) : List MigrationCall :=
  .begin :: (migration.statements.map .execute ++
    [.insertMigration migration.version migration.name migration.checksum, .commit])

/-- The transactional calls so far, and one more if the latest is one. -/
def sentBy (sent : List MigrationCall) (event : Event migrationPorts MemcoreError) :
    List MigrationCall :=
  if event.call.isTransactional then sent ++ [event.call] else sent

/-- The calls of a run that make up its transactions, in order. -/
def transactional (trace : List (Event migrationPorts MemcoreError)) : List MigrationCall :=
  (trace.map Event.call).filter MigrationCall.isTransactional

theorem foldl_sentBy (sent : List MigrationCall)
    (trace : List (Event migrationPorts MemcoreError)) :
    trace.foldl sentBy sent = sent ++ transactional trace := by
  induction trace generalizing sent with
  | nil => simp [transactional]
  | cons event trace inductionHypothesis =>
    rw [List.foldl_cons, inductionHypothesis]
    by_cases counts : event.call.isTransactional = true
    · simp [sentBy, transactional, counts]
    · simp [sentBy, transactional, counts]

/-- A run carries out migrations of the list one after the other, by version. It may stop
within one of them. -/
def CarriedOutInOrder (migrations : List Migration)
    (trace : List (Event migrationPorts MemcoreError)) : Prop :=
  ∃ batch : List Migration, (∀ migration ∈ batch, migration ∈ migrations) ∧
    (batch.map Migration.version).Pairwise (· < ·) ∧
    transactional trace <+: batch.flatMap Migration.transaction

/-! ## What has been committed -/

section Committed

variable {σ : Type} {engine : SqlEngine σ} {texts : TimestampText}

/-- The statements have been executed in this order, each once and with success. -/
inductive Executed (engine : SqlEngine σ) (first : σ) : List String → σ → Prop where
  | nothing : Executed engine first [] first
  | another {statements : List String} {middle last : σ} (now : Instant) (statement : String)
      (earlier : Executed engine first statements middle)
      (succeeds : engine.execute now statement middle = .ok last) :
      Executed engine first (statements ++ [statement]) last

/-- Exactly these migrations have been committed and recorded, in this order. -/
structure CommittedExactly (engine : SqlEngine σ) (first : σ) (committed : List Migration)
    (tables : MigrationTables σ) : Prop where
  entries : tables.rows.map SchemaMigrationRow.entry = committed.map Migration.entry
  executed : Executed engine first (committed.flatMap Migration.statements) tables.contents
  noLegacy : tables.sqlxMigrations = none

variable {first : σ} {committed : List Migration} {tables later : MigrationTables σ}

theorem rows_createMigrationTable (tables : MigrationTables σ) :
    tables.createMigrationTable.rows = tables.rows := by
  unfold MigrationTables.createMigrationTable MigrationTables.rows
  cases tables.schemaMigrations with
  | none => rfl
  | some table => rfl

theorem CommittedExactly.createMigrationTable
    (recorded : CommittedExactly engine first committed tables) :
    CommittedExactly engine first committed tables.createMigrationTable := by
  constructor
  · rw [rows_createMigrationTable]
    exact recorded.entries
  · exact recorded.executed
  · exact recorded.noLegacy

/-- A record that is inserted comes last; nothing else changes. -/
theorem insertMigration_eq_ok {row : SchemaMigrationRow}
    (inserted : tables.insertMigration row = .ok later) :
    later.rows = tables.rows ++ [row] ∧ later.sqlxMigrations = tables.sqlxMigrations ∧
      later.contents = tables.contents := by
  unfold MigrationTables.insertMigration at inserted
  unfold MigrationTables.rows
  cases present : tables.schemaMigrations with
  | none =>
    rw [present] at inserted
    contradiction
  | some table =>
    rw [present] at inserted
    by_cases taken : table.contains row.version = true
    · have refused : SqlTables.insert row table = none := if_pos taken
      simp only [refused] at inserted
      contradiction
    · have stored : SqlTables.insert row table = some (table.put row) := if_neg taken
      simp only [stored, Except.ok.injEq] at inserted
      subst inserted
      have fresh : ∀ other ∈ table.rows, other.version ≠ row.version := by
        intro other listed same
        apply taken
        rw [Table.contains, List.any_eq_true]
        exact ⟨other, listed, decide_eq_true same⟩
      exact ⟨table.rows_put_of_fresh fresh, rfl, rfl⟩

end Committed

/-! ## Runs from what earlier runs have committed -/

section Progress

variable {σ : Type}

/-- The database, and the transactional calls sent so far. -/
abbrev MigrationState (σ : Type) := MigrationDatabase σ × List MigrationCall

/-- The calls sent once this one is. -/
def sentWith (sent : List MigrationCall) (call : MigrationCall) : List MigrationCall :=
  if call.isTransactional then sent ++ [call] else sent

variable (engine : SqlEngine σ) (texts : TimestampText)

/-- What a call may do, with a condition that has to hold at each. -/
abbrev migrationSpec (holds : MigrationState σ → Prop) :
    Spec migrationPorts MemcoreError (MigrationState σ) :=
  (((migrationServer engine texts).spec fun _ _ _ => True).tracking sentBy).asserting holds

variable {engine texts}

theorem migrationSpec_monotone (holds : MigrationState σ → Prop) :
    (migrationSpec engine texts holds).Monotone :=
  Spec.asserting_monotone (Spec.tracking_monotone (Server.spec_monotone _ _) sentBy) holds

/-- A call that fails may have taken effect or not; one that returns has. -/
theorem secures_migrationCall {call : MigrationCall} {database : MigrationDatabase σ}
    {sent : List MigrationCall} {holds : MigrationState σ → Prop}
    {good : call.Answer → MigrationState σ → Prop} (before : holds (database, sent))
    (unserved : holds (database, sentWith sent call))
    (served : ∀ now, holds ((migrationEffect engine texts now call database).2, sentWith sent call))
    (returns : ∀ now answer, (migrationEffect engine texts now call database).1 = .ok answer →
      good answer ((migrationEffect engine texts now call database).2, sentWith sent call)) :
    Secures (migrationSpec engine texts holds) (migrationCall call) holds good
      (database, sent) := by
  apply (secures_iff _ _ _ _ _).mpr
  apply (ensures_call _ _ _ _).mpr
  refine ⟨before, ?_⟩
  rintro ⟨now, failure, takesEffect⟩ _ _
  cases failure with
  | some error =>
    cases takesEffect with
    | true => exact served now
    | false => exact unserved
  | none =>
    have shown := returns now
    have kept := served now
    simp only [migrationServer]
    cases answered : (migrationEffect engine texts now call database).1 with
    | ok answer => exact shown answer answered
    | error error => exact kept

variable (engine texts) in
/-- A call outside of transactions, under a condition that it keeps. -/
theorem secures_quietCall (call : MigrationCall) {database : MigrationDatabase σ}
    {sent : List MigrationCall} {kept holds : MigrationState σ → Prop}
    (enough : ∀ state, kept state → holds state) (before : kept (database, sent))
    (isQuiet : call.isTransactional = false)
    (keeps : ∀ now, kept ((migrationEffect engine texts now call database).2, sent)) :
    Secures (migrationSpec engine texts holds) (migrationCall call) holds
      (fun answer later => kept later ∧
        ∃ now, (migrationEffect engine texts now call database).1 = .ok answer)
      (database, sent) := by
  have unchanged : sentWith sent call = sent := by
    rw [sentWith, isQuiet]
    exact if_neg Bool.false_ne_true
  apply secures_migrationCall (enough _ before)
  · rw [unchanged]
    exact enough _ before
  · intro now
    rw [unchanged]
    exact enough _ (keeps now)
  · intro now answer answered
    rw [unchanged]
    exact ⟨keeps now, now, answered⟩

variable (engine) (first : σ) (done pending : List Migration)

/-- Some of the pending migrations have been carried out in full, and nothing else sent. -/
structure Settled (finished : List Migration) (state : MigrationState σ) : Prop where
  recorded : CommittedExactly engine first (done ++ finished) state.1.committed
  sent : state.2 = finished.flatMap Migration.transaction

/-- Some of the pending migrations have been committed, and nothing but their transactions
has been begun. -/
def Progress (state : MigrationState σ) : Prop :=
  ∃ finished rest, pending = finished ++ rest ∧
    CommittedExactly engine first (done ++ finished) state.1.committed ∧
    state.2 <+: pending.flatMap Migration.transaction

variable {engine first done pending} {finished rest : List Migration}
  {database : MigrationDatabase σ} {sent : List MigrationCall}

theorem Settled.progress {state : MigrationState σ}
    (settled : Settled engine first done finished state) (split : pending = finished ++ rest) :
    Progress engine first done pending state := by
  refine ⟨finished, rest, split, settled.recorded, ?_⟩
  rw [settled.sent, split, List.flatMap_append]
  exact List.prefix_append _ _

/-- A call outside of transactions that keeps the records. -/
theorem Settled.quiet (settled : Settled engine first done finished (database, sent))
    (split : pending = finished ++ rest) (texts : TimestampText) (call : MigrationCall)
    (isQuiet : call.isTransactional = false)
    (keeps : ∀ now, CommittedExactly engine first (done ++ finished)
      (migrationEffect engine texts now call database).2.committed) :
    Secures (migrationSpec engine texts (Progress engine first done pending)) (migrationCall call)
      (Progress engine first done pending)
      (fun answer later => Settled engine first done finished later ∧
        ∃ now, (migrationEffect engine texts now call database).1 = .ok answer)
      (database, sent) :=
  secures_quietCall engine texts call (fun _ settled => settled.progress split) settled isQuiet
    fun now => ⟨keeps now, settled.sent⟩

theorem Settled.ensureMigrationTable {state : MigrationState σ}
    (settled : Settled engine first done finished state) (split : pending = finished ++ rest) :
    Secures (migrationSpec engine texts (Progress engine first done pending))
      SqliteMigrationRunner.ensureMigrationTable (Progress engine first done pending)
      (fun _ later => Settled engine first done finished later) state := by
  obtain ⟨database, sent⟩ := state
  apply Secures.mono (migrationSpec_monotone _)
    (settled.quiet split texts .createMigrationTable rfl _)
  · intro _ later both
    exact both.1
  · intro now
    exact settled.recorded.createMigrationTable

/-- Without a table of the earlier tool there is nothing to take over from it. -/
theorem Settled.seedFromSqlxMigrations {state : MigrationState σ}
    (settled : Settled engine first done finished state) (split : pending = finished ++ rest)
    (migrations : List Migration) :
    Secures (migrationSpec engine texts (Progress engine first done pending))
      (SqliteMigrationRunner.seedFromSqlxMigrations migrations)
      (Progress engine first done pending)
      (fun _ later => Settled engine first done finished later) state := by
  obtain ⟨database, sent⟩ := state
  unfold SqliteMigrationRunner.seedFromSqlxMigrations
  apply Secures.bind (migrationSpec_monotone _)
    (settled.quiet split texts .schemaMigrationCount rfl fun _ => settled.recorded)
  rintro count ⟨database, sent⟩ ⟨settled, _⟩
  by_cases counted : count > 0
  · rw [if_pos counted]
    exact (secures_pure _ _ _ _ _).mpr settled
  · rw [if_neg counted]
    apply Secures.bind (migrationSpec_monotone _)
      (settled.quiet split texts (.tableExists "_sqlx_migrations") rfl fun _ => settled.recorded)
    rintro legacy later ⟨settledLater, _, answered⟩
    have absent : legacy = false := by
      have noTable : database.committed.hasTable engine "_sqlx_migrations" =
          database.committed.sqlxMigrations.isSome := rfl
      have answer : Except.ok (database.committed.hasTable engine "_sqlx_migrations") =
          (Except.ok legacy : Except String Bool) := answered
      rw [noTable, settled.recorded.noLegacy] at answer
      exact (Except.ok.inj answer).symm
    subst absent
    exact (secures_pure _ _ _ _ _).mpr settledLater

theorem selectMigrations_perm {tables : MigrationTables σ} {rows : List SchemaMigrationRow}
    (selected : tables.selectMigrations = .ok rows) : rows.Perm tables.rows := by
  unfold MigrationTables.selectMigrations at selected
  unfold MigrationTables.rows
  cases present : tables.schemaMigrations with
  | none =>
    rw [present] at selected
    contradiction
  | some table =>
    rw [present] at selected
    obtain rfl := Except.ok.inj selected
    exact List.perm_insertionSort _ _

/-- Rows are read as they are. -/
theorem entries_of_parsed {rows : List SchemaMigrationRow} {applied : List AppliedMigration}
    (parsed : rows.mapM (SqliteMigrationRunner.parseAppliedRow texts) = .ok applied) :
    applied.map AppliedMigration.entry = rows.map SchemaMigrationRow.entry := by
  induction rows generalizing applied with
  | nil =>
    obtain rfl := Except.ok.inj parsed
    rfl
  | cons row rows inductionHypothesis =>
    rw [List.mapM_cons] at parsed
    cases reads : texts.parseFromRfc3339 row.appliedAt with
    | error error =>
      simp only [SqliteMigrationRunner.parseAppliedRow, reads] at parsed
      contradiction
    | ok instant =>
      simp only [SqliteMigrationRunner.parseAppliedRow, reads] at parsed
      cases others : rows.mapM (SqliteMigrationRunner.parseAppliedRow texts) with
      | error error =>
        rw [others] at parsed
        contradiction
      | ok rest =>
        rw [others] at parsed
        obtain rfl := Except.ok.inj parsed
        simp only [List.map_cons, inductionHypothesis others]
        rfl

/-- What is applied are the migrations that have been committed. -/
theorem Settled.appliedMigrations {state : MigrationState σ}
    (settled : Settled engine first done finished state) (split : pending = finished ++ rest) :
    Secures (migrationSpec engine texts (Progress engine first done pending))
      (SqliteMigrationRunner.appliedMigrations texts) (Progress engine first done pending)
      (fun applied later => Settled engine first done finished later ∧
        (applied.map AppliedMigration.entry).Perm ((done ++ finished).map Migration.entry))
      state := by
  unfold SqliteMigrationRunner.appliedMigrations
  apply Secures.bind (migrationSpec_monotone _) (settled.ensureMigrationTable split)
  rintro _ ⟨database, sent⟩ settled
  apply Secures.bind (migrationSpec_monotone _)
    (settled.quiet split texts .selectMigrations rfl fun _ => settled.recorded)
  rintro rows later ⟨settledLater, _, answered⟩
  have selected : database.committed.selectMigrations = .ok rows := answered
  apply secures_check (settledLater.progress split)
  intro applied parsed
  refine ⟨settledLater, ?_⟩
  rw [entries_of_parsed parsed, ← settled.recorded.entries]
  exact (selectMigrations_perm selected).map _

/-- A report is about the migrations that have been committed. -/
theorem Settled.validateMigrations {state : MigrationState σ}
    (settled : Settled engine first done finished state) (split : pending = finished ++ rest)
    (migrations : List Migration) :
    Secures (migrationSpec engine texts (Progress engine first done pending))
      (SqliteMigrationRunner.validateMigrations texts migrations)
      (Progress engine first done pending)
      (fun report later => Settled engine first done finished later ∧
        ∃ applied, validateAppliedMigrations migrations applied = .ok report ∧
          (applied.map AppliedMigration.entry).Perm ((done ++ finished).map Migration.entry))
      state := by
  unfold SqliteMigrationRunner.validateMigrations
  apply Secures.bind (migrationSpec_monotone _) (settled.ensureMigrationTable split)
  intro _ ensured settled
  apply Secures.bind (migrationSpec_monotone _) (settled.seedFromSqlxMigrations split migrations)
  intro _ seeded settled
  apply Secures.bind (migrationSpec_monotone _) (settled.appliedMigrations split)
  rintro applied read ⟨settled, entries⟩
  apply secures_check (settled.progress split)
  intro report validated
  exact ⟨settled, applied, validated, entries⟩

/-! ## Transactions -/

variable {migration : Migration}

/-- Finished transactions and a part of the next one are an initial part of them all. -/
theorem part_of_flatMap {part : List MigrationCall}
    (split : pending = finished ++ migration :: rest) (begun : part <+: migration.transaction) :
    finished.flatMap Migration.transaction ++ part <+: pending.flatMap Migration.transaction := by
  rw [split, List.flatMap_append, List.flatMap_cons]
  exact (List.prefix_append_right_inj _).mpr (begun.trans (List.prefix_append _ _))

/-- Wherever a transaction stops before it is committed, the records are as before it. -/
theorem progress_within {part : List MigrationCall}
    (recorded : CommittedExactly engine first (done ++ finished) database.committed)
    (split : pending = finished ++ migration :: rest) (begun : part <+: migration.transaction) :
    Progress engine first done pending
      (database, finished.flatMap Migration.transaction ++ part) := by
  exact ⟨finished, migration :: rest, split, recorded, part_of_flatMap split begun⟩

/-- A transaction is open on tables with these records, and a part of it has been sent. -/
structure Underway (engine : SqlEngine σ) (first : σ) (done finished : List Migration)
    (part : List MigrationCall) (rows : List (ℤ × String × String)) (executed : List String)
    (state : MigrationState σ) : Prop where
  recorded : CommittedExactly engine first (done ++ finished) state.1.committed
  sent : state.2 = finished.flatMap Migration.transaction ++ part
  working : ∃ tables, state.1.transaction = some tables ∧
    tables.rows.map SchemaMigrationRow.entry = rows ∧ tables.sqlxMigrations = none ∧
    Executed engine first executed tables.contents

/-- The part of a transaction that is sent when some of its statements are. -/
theorem begun_part {executed : List String} (begun : executed <+: migration.statements) :
    .begin :: executed.map .execute <+: migration.transaction := by
  obtain ⟨remaining, split⟩ := begun
  rw [Migration.transaction, ← split, List.map_append, List.append_assoc]
  exact (List.prefix_cons_inj _).mpr (List.prefix_append _ _)

theorem Settled.begin (settled : Settled engine first done finished (database, sent))
    (split : pending = finished ++ migration :: rest) :
    Secures (migrationSpec engine texts (Progress engine first done pending))
      (migrationCall .begin) (Progress engine first done pending)
      (fun _ later => Underway engine first done finished [.begin]
        ((done ++ finished).map Migration.entry) ((done ++ finished).flatMap Migration.statements)
        later) (database, sent) := by
  have sentNow : sentWith sent .begin = finished.flatMap Migration.transaction ++ [.begin] := by
    rw [← settled.sent]
    rfl
  have begun : [.begin] <+: migration.transaction := begun_part (List.nil_prefix)
  apply secures_migrationCall (settled.progress split)
  · rw [sentNow]
    exact progress_within settled.recorded split begun
  · intro now
    rw [sentNow]
    exact progress_within settled.recorded split begun
  · intro now answer _
    refine ⟨settled.recorded, sentNow, database.committed, rfl, ?_⟩
    exact ⟨settled.recorded.entries, settled.recorded.noLegacy, settled.recorded.executed⟩

/-- One statement of the open transaction. -/
theorem Underway.execute {executed : List String} {rows : List (ℤ × String × String)}
    {before : List String} {statement : String}
    (underway : Underway engine first done finished (.begin :: executed.map .execute) rows
      before (database, sent))
    (split : pending = finished ++ migration :: rest)
    (begun : executed ++ [statement] <+: migration.statements) :
    Secures (migrationSpec engine texts (Progress engine first done pending))
      (migrationCall (.execute statement)) (Progress engine first done pending)
      (fun _ later => Underway engine first done finished
        (.begin :: (executed ++ [statement]).map .execute) rows (before ++ [statement]) later)
      (database, sent) := by
  have sentNow : sentWith sent (.execute statement) = finished.flatMap Migration.transaction ++
      .begin :: (executed ++ [statement]).map .execute := by
    rw [show sent = _ from underway.sent]
    simp [sentWith, MigrationCall.isTransactional]
  have earlier := begun_part ((List.prefix_append executed [statement]).trans begun)
  obtain ⟨tables, isOpen, records, noLegacy, ran⟩ := underway.working
  have isOpen : database.transaction = some tables := isOpen
  have committed (now : Instant) :
      (migrationEffect engine texts now (.execute statement) database).2.committed =
        database.committed := by
    simp only [migrationEffect, MigrationDatabase.within, isOpen]
    cases engine.execute now statement tables.contents <;> rfl
  apply secures_migrationCall
  · rw [show sent = _ from underway.sent]
    exact progress_within underway.recorded split earlier
  · rw [sentNow]
    exact progress_within underway.recorded split (begun_part begun)
  · intro now
    rw [sentNow]
    apply progress_within _ split (begun_part begun)
    rw [committed]
    exact underway.recorded
  · intro now answer answered
    simp only [migrationEffect, MigrationDatabase.within, isOpen] at answered ⊢
    cases result : engine.execute now statement tables.contents with
    | error error =>
      rw [result] at answered
      contradiction
    | ok contents =>
      exact ⟨underway.recorded, sentNow, _, rfl, records, noLegacy,
        .another now statement ran result⟩

/-- The statements of the open transaction in turn. -/
theorem Underway.executeStatements {remaining executed : List String}
    {rows : List (ℤ × String × String)} {before : List String} {state : MigrationState σ}
    (underway : Underway engine first done finished (.begin :: executed.map .execute) rows
      before state)
    (split : pending = finished ++ migration :: rest)
    (whole : migration.statements = executed ++ remaining) :
    Secures (migrationSpec engine texts (Progress engine first done pending))
      (SqliteMigrationRunner.executeStatements remaining) (Progress engine first done pending)
      (fun _ later => Underway engine first done finished
        (.begin :: migration.statements.map .execute) rows (before ++ remaining) later) state := by
  induction remaining generalizing executed before state with
  | nil =>
    apply (secures_pure _ _ _ _ _).mpr
    rw [whole, List.append_nil, List.append_nil]
    exact underway
  | cons statement remaining inductionHypothesis =>
    obtain ⟨database, sent⟩ := state
    have regrouped : migration.statements = (executed ++ [statement]) ++ remaining := by
      rw [whole, List.append_assoc]
      rfl
    apply Secures.bind (migrationSpec_monotone _)
      (underway.execute split ⟨remaining, regrouped.symm⟩)
    intro _ later underwayLater
    have onwards := inductionHypothesis underwayLater regrouped
    rwa [List.append_assoc] at onwards

/-- The part of a transaction that is sent before it is committed. -/
def Migration.beforeCommit (migration : Migration) : List MigrationCall :=
  .begin :: migration.statements.map .execute ++
    [.insertMigration migration.version migration.name migration.checksum]

theorem beforeCommit_append (migration : Migration) :
    migration.beforeCommit ++ [.commit] = migration.transaction := by
  simp [Migration.beforeCommit, Migration.transaction]

/-- The record of the migration in the open transaction. -/
theorem Underway.insertMigration {rows : List (ℤ × String × String)} {executed : List String}
    (underway : Underway engine first done finished
      (.begin :: migration.statements.map .execute) rows executed (database, sent))
    (split : pending = finished ++ migration :: rest) :
    Secures (migrationSpec engine texts (Progress engine first done pending))
      (migrationCall (.insertMigration migration.version migration.name migration.checksum))
      (Progress engine first done pending)
      (fun _ later => Underway engine first done finished migration.beforeCommit
        (rows ++ [migration.entry]) executed later) (database, sent) := by
  have sentNow : sentWith sent
      (.insertMigration migration.version migration.name migration.checksum) =
        finished.flatMap Migration.transaction ++ migration.beforeCommit := by
    rw [show sent = _ from underway.sent]
    simp [sentWith, MigrationCall.isTransactional, Migration.beforeCommit]
  have begun : migration.beforeCommit <+: migration.transaction :=
    ⟨[.commit], beforeCommit_append migration⟩
  obtain ⟨tables, isOpen, records, noLegacy, ran⟩ := underway.working
  have isOpen : database.transaction = some tables := isOpen
  have committed (now : Instant) : (migrationEffect engine texts now
      (.insertMigration migration.version migration.name migration.checksum) database).2.committed =
        database.committed := by
    simp only [migrationEffect, MigrationDatabase.within, isOpen]
    cases tables.insertMigration _ <;> rfl
  apply secures_migrationCall
  · rw [show sent = _ from underway.sent]
    exact progress_within underway.recorded split (begun_part (List.prefix_refl _))
  · rw [sentNow]
    exact progress_within underway.recorded split begun
  · intro now
    rw [sentNow]
    apply progress_within _ split begun
    rw [committed]
    exact underway.recorded
  · intro now answer answered
    simp only [migrationEffect, MigrationDatabase.within, isOpen] at answered ⊢
    cases result : tables.insertMigration
        ⟨migration.version, migration.name, migration.checksum, texts.toRfc3339 now⟩ with
    | error error =>
      rw [result] at answered
      contradiction
    | ok later =>
      obtain ⟨rowsAfter, legacyAfter, contentsAfter⟩ := insertMigration_eq_ok result
      refine ⟨underway.recorded, sentNow, later, rfl, ?_, ?_, ?_⟩
      · rw [rowsAfter, List.map_append, records]
        rfl
      · rw [legacyAfter, noLegacy]
      · rw [contentsAfter]
        exact ran

/-- A commit makes the statements and their record last, at once or not at all. -/
theorem Underway.commit
    (underway : Underway engine first done finished migration.beforeCommit
      ((done ++ finished).map Migration.entry ++ [migration.entry])
      ((done ++ finished).flatMap Migration.statements ++ migration.statements) (database, sent))
    (split : pending = finished ++ migration :: rest) :
    Secures (migrationSpec engine texts (Progress engine first done pending))
      (migrationCall .commit) (Progress engine first done pending)
      (fun _ later => Settled engine first done (finished ++ [migration]) later)
      (database, sent) := by
  have sentNow : sentWith sent .commit =
      (finished ++ [migration]).flatMap Migration.transaction := by
    rw [show sent = _ from underway.sent, List.flatMap_append, List.flatMap_singleton,
      ← beforeCommit_append]
    simp [sentWith, MigrationCall.isTransactional]
  obtain ⟨tables, isOpen, records, noLegacy, ran⟩ := underway.working
  have isOpen : database.transaction = some tables := isOpen
  have regrouped : pending = (finished ++ [migration]) ++ rest := by
    rw [split, List.append_assoc]
    rfl
  have settled (now : Instant) : Settled engine first done (finished ++ [migration])
      ((migrationEffect engine texts now .commit database).2, sentWith sent .commit) := by
    refine ⟨⟨?_, ?_, ?_⟩, sentNow⟩ <;> simp only [migrationEffect, isOpen]
    · rw [← List.append_assoc, List.map_append, records]
      rfl
    · rw [← List.append_assoc, List.flatMap_append, List.flatMap_singleton]
      exact ran
    · exact noLegacy
  apply secures_migrationCall
  · rw [show sent = _ from underway.sent]
    exact progress_within underway.recorded split ⟨[.commit], beforeCommit_append migration⟩
  · rw [sentNow, List.flatMap_append, List.flatMap_singleton]
    exact progress_within underway.recorded split (List.prefix_refl _)
  · intro now
    exact (settled now).progress regrouped
  · intro now answer _
    exact settled now

/-- The pending migrations in turn. -/
theorem Settled.applyMigrations {state : MigrationState σ}
    (settled : Settled engine first done finished state) (split : pending = finished ++ rest) :
    Secures (migrationSpec engine texts (Progress engine first done pending))
      (SqliteMigrationRunner.applyMigrations rest) (Progress engine first done pending)
      (fun _ later => Settled engine first done pending later) state := by
  induction rest generalizing finished state with
  | nil =>
    apply (secures_pure _ _ _ _ _).mpr
    rwa [split, List.append_nil]
  | cons migration rest inductionHypothesis =>
    obtain ⟨database, sent⟩ := state
    unfold SqliteMigrationRunner.applyMigrations
    apply Secures.bind (migrationSpec_monotone _) (settled.begin split)
    intro _ begun underway
    apply Secures.bind (migrationSpec_monotone _)
      (underway.executeStatements split (List.nil_append _).symm)
    rintro _ ⟨database, sent⟩ underway
    apply Secures.bind (migrationSpec_monotone _) (underway.insertMigration split)
    rintro _ ⟨database, sent⟩ underway
    apply Secures.bind (migrationSpec_monotone _) (underway.commit split)
    intro _ later settled
    apply inductionHypothesis settled
    rw [split, List.append_assoc]
    rfl

/-- What is left of the sorted list are the migrations that have no record. -/
theorem filter_not_done {migrations : List Migration}
    (sorted : done ++ pending = byVersion migrations)
    (distinct : (migrations.map Migration.version).Nodup) :
    (done ++ pending).filter (fun migration => migration.version ∉ done.map Migration.version) =
      pending := by
  have apart := ((perm_byVersion migrations).map Migration.version).nodup_iff.mpr distinct
  rw [← sorted, List.map_append, List.nodup_append] at apart
  have dropped : done.filter
      (fun migration => migration.version ∉ done.map Migration.version) = [] := by
    rw [List.filter_eq_nil_iff]
    intro migration listed
    simp only [decide_eq_true_eq, not_not]
    exact List.mem_map_of_mem listed
  have kept : pending.filter
      (fun migration => migration.version ∉ done.map Migration.version) = pending := by
    rw [List.filter_eq_self]
    intro migration listed
    apply decide_eq_true
    intro recorded
    exact apart.2.2 _ recorded _ (List.mem_map_of_mem listed) rfl
  rw [List.filter_append, dropped, kept, List.nil_append]

variable (texts) in
/-- A run takes up what earlier runs have left, and reports that nothing is. -/
theorem Settled.applyPendingMigrations {migrations : List Migration} {state : MigrationState σ}
    (settled : Settled engine first done [] state) (sorted : done ++ pending = byVersion migrations)
    (distinct : (migrations.map Migration.version).Nodup) :
    Secures (migrationSpec engine texts (Progress engine first done pending))
      (SqliteMigrationRunner.applyPendingMigrations texts migrations)
      (Progress engine first done pending)
      (fun report later => Settled engine first done pending later ∧ report.clean = true)
      state := by
  have split : pending = [] ++ pending := rfl
  unfold SqliteMigrationRunner.applyPendingMigrations
  apply Secures.bind (migrationSpec_monotone _) (settled.ensureMigrationTable split)
  intro _ ensured settled
  apply Secures.bind (migrationSpec_monotone _) (settled.seedFromSqlxMigrations split migrations)
  intro _ seeded settled
  apply Secures.bind (migrationSpec_monotone _) (settled.validateMigrations split migrations)
  rintro before validated ⟨settled, _⟩
  by_cases blocked : before.hasBlockingIssues = true
  · rw [if_pos blocked]
    exact (secures_fail _ _ _ _ _).mpr (settled.progress split)
  · rw [if_neg blocked]
    apply Secures.bind (migrationSpec_monotone _) (settled.appliedMigrations split)
    rintro applied read ⟨settled, entries⟩
    apply (secures_bind _ _ _ _ _ _).mpr
    apply secures_check (settled.progress split)
    intro list sorts
    obtain ⟨_, rfl⟩ := sortedMigrations_eq_ok.mp sorts
    have versions : (applied.map AppliedMigration.version).Perm (done.map Migration.version) := by
      have firsts := entries.map Prod.fst
      rwa [List.map_map, List.map_map, List.append_nil] at firsts
    rw [show (fun migration : Migration => decide (migration.version ∉
      applied.map AppliedMigration.version)) = _ from funext fun migration => decide_eq_decide.mpr
        (not_congr versions.mem_iff), ← sorted, filter_not_done sorted distinct]
    apply Secures.bind (migrationSpec_monotone _) (settled.applyMigrations split)
    intro _ all settled
    apply Secures.mono (migrationSpec_monotone _)
      (settled.validateMigrations (List.append_nil _).symm migrations)
    rintro report later ⟨settled, applied, validated, entries⟩
    refine ⟨settled, clean_of_recorded distinct validated ?_⟩
    rw [sorted] at entries
    exact entries.trans ((perm_byVersion migrations).map _)

/-! ## Discrepancies -/

/-- Nothing has been sent in a transaction, and the tables hold what they held. -/
structure Unmigrated (before : MigrationTables σ) (state : MigrationState σ) : Prop where
  rows : state.1.committed.rows = before.rows
  contents : state.1.committed.contents = before.contents
  sent : state.2 = []

section Discrepancies

variable {before : MigrationTables σ} {migrations : List Migration} {state : MigrationState σ}

theorem Unmigrated.ensureMigrationTable (unmigrated : Unmigrated before state) :
    Secures (migrationSpec engine texts (Unmigrated before))
      SqliteMigrationRunner.ensureMigrationTable (Unmigrated before)
      (fun _ later => Unmigrated before later) state := by
  obtain ⟨database, sent⟩ := state
  apply Secures.mono (migrationSpec_monotone _)
  · apply secures_quietCall engine texts .createMigrationTable (fun _ kept => kept) unmigrated rfl
    intro now
    exact ⟨(rows_createMigrationTable _).trans unmigrated.rows, unmigrated.contents,
      unmigrated.sent⟩
  · intro _ later both
    exact both.1

/-- A table with rows is not seeded. -/
theorem Unmigrated.seedFromSqlxMigrations (unmigrated : Unmigrated before state)
    (recorded : before.rows ≠ []) (migrations : List Migration) :
    Secures (migrationSpec engine texts (Unmigrated before))
      (SqliteMigrationRunner.seedFromSqlxMigrations migrations) (Unmigrated before)
      (fun _ later => Unmigrated before later) state := by
  obtain ⟨database, sent⟩ := state
  unfold SqliteMigrationRunner.seedFromSqlxMigrations
  apply Secures.bind (migrationSpec_monotone _)
    (secures_quietCall engine texts .schemaMigrationCount (fun _ kept => kept) unmigrated rfl
      fun _ => unmigrated)
  rintro count later ⟨unmigratedLater, _, answered⟩
  have counted : count > 0 := by
    have answer : database.committed.schemaMigrationCount = .ok count := answered
    have rows : database.committed.rows = before.rows := unmigrated.rows
    unfold MigrationTables.schemaMigrationCount at answer
    unfold MigrationTables.rows at rows
    cases present : database.committed.schemaMigrations with
    | none =>
      rw [present] at answer
      contradiction
    | some table =>
      rw [present] at answer rows
      obtain rfl := Except.ok.inj answer
      exact List.length_pos_iff.mpr (rows.trans_ne recorded)
  rw [if_pos counted]
  exact (secures_pure _ _ _ _ _).mpr unmigratedLater

theorem Unmigrated.appliedMigrations (unmigrated : Unmigrated before state) :
    Secures (migrationSpec engine texts (Unmigrated before))
      (SqliteMigrationRunner.appliedMigrations texts) (Unmigrated before)
      (fun applied later => Unmigrated before later ∧
        (applied.map AppliedMigration.entry).Perm (before.rows.map SchemaMigrationRow.entry))
      state := by
  unfold SqliteMigrationRunner.appliedMigrations
  apply Secures.bind (migrationSpec_monotone _) unmigrated.ensureMigrationTable
  rintro _ ⟨database, sent⟩ unmigrated
  apply Secures.bind (migrationSpec_monotone _)
    (secures_quietCall engine texts .selectMigrations (fun _ kept => kept) unmigrated rfl
      fun _ => unmigrated)
  rintro rows later ⟨unmigratedLater, _, answered⟩
  have selected : database.committed.selectMigrations = .ok rows := answered
  apply secures_check unmigratedLater
  intro applied parsed
  refine ⟨unmigratedLater, ?_⟩
  rw [entries_of_parsed parsed, ← unmigrated.rows]
  exact (selectMigrations_perm selected).map _

theorem nonempty_of_discrepant
    (discrepant : Discrepant migrations (before.rows.map SchemaMigrationRow.entry)) :
    before.rows ≠ [] := by
  intro none
  obtain ⟨entry, listed, _⟩ := discrepant
  rw [none] at listed
  contradiction

/-- A validation reports the discrepancy. -/
theorem Unmigrated.validateMigrations (unmigrated : Unmigrated before state)
    (distinct : (before.rows.map SchemaMigrationRow.version).Nodup)
    (discrepant : Discrepant migrations (before.rows.map SchemaMigrationRow.entry)) :
    Secures (migrationSpec engine texts (Unmigrated before))
      (SqliteMigrationRunner.validateMigrations texts migrations) (Unmigrated before)
      (fun report later => report.hasBlockingIssues = true ∧ Unmigrated before later) state := by
  unfold SqliteMigrationRunner.validateMigrations
  apply Secures.bind (migrationSpec_monotone _) unmigrated.ensureMigrationTable
  intro _ ensured unmigrated
  apply Secures.bind (migrationSpec_monotone _)
    (unmigrated.seedFromSqlxMigrations (nonempty_of_discrepant discrepant) migrations)
  intro _ seeded unmigrated
  apply Secures.bind (migrationSpec_monotone _) unmigrated.appliedMigrations
  rintro applied read ⟨unmigrated, entries⟩
  apply secures_check unmigrated
  intro report validated
  have versions : (applied.map AppliedMigration.version).Perm
      (before.rows.map SchemaMigrationRow.version) := by
    have firsts := entries.map Prod.fst
    rwa [List.map_map, List.map_map] at firsts
  refine ⟨hasBlockingIssues_of_discrepant (versions.nodup_iff.mpr distinct) validated ?_,
    unmigrated⟩
  obtain ⟨entry, listed, wrong⟩ := discrepant
  exact ⟨entry, entries.mem_iff.mpr listed, wrong⟩

variable (engine texts) in
/-- A run that finds a discrepancy fails before its first transaction. -/
theorem Unmigrated.applyPendingMigrations (unmigrated : Unmigrated before state)
    (distinct : (before.rows.map SchemaMigrationRow.version).Nodup)
    (discrepant : Discrepant migrations (before.rows.map SchemaMigrationRow.entry)) :
    Secures (migrationSpec engine texts (Unmigrated before))
      (SqliteMigrationRunner.applyPendingMigrations texts migrations) (Unmigrated before)
      (fun _ _ => False) state := by
  unfold SqliteMigrationRunner.applyPendingMigrations
  apply Secures.bind (migrationSpec_monotone _) unmigrated.ensureMigrationTable
  intro _ ensured unmigrated
  apply Secures.bind (migrationSpec_monotone _)
    (unmigrated.seedFromSqlxMigrations (nonempty_of_discrepant discrepant) migrations)
  intro _ seeded unmigrated
  apply Secures.bind (migrationSpec_monotone _)
    (unmigrated.validateMigrations distinct discrepant)
  rintro report later ⟨blocked, unmigrated⟩
  rw [if_pos blocked]
  exact (secures_fail _ _ _ _ _).mpr unmigrated

end Discrepancies

end Progress

/-! ## Interrupted runs -/

section Interruptions

variable {σ : Type} {engine : SqlEngine σ} {texts : TimestampText} {migrations : List Migration}

/-- Any number of runs, each stopped at any point, whose open transaction is rolled back. -/
abbrev InterruptedMigrations (engine : SqlEngine σ) (texts : TimestampText)
    (migrations : List Migration) :
    MigrationDatabase σ → List (List (Event migrationPorts MemcoreError)) →
      MigrationDatabase σ → Prop :=
  Interrupted (migrationServer engine texts) (fun _ _ _ => True) MigrationDatabase.rollback
    (SqliteMigrationRunner.applyPendingMigrations texts migrations)

/-- A run to the end. -/
abbrev MigrationRun (engine : SqlEngine σ) (texts : TimestampText) (migrations : List Migration) :
    MigrationDatabase σ → List (Event migrationPorts MemcoreError) →
      MemcoreResult MigrationValidationReport → MigrationDatabase σ → Prop :=
  Runs (migrationServer engine texts) (fun _ _ _ => True)
    (SqliteMigrationRunner.applyPendingMigrations texts migrations)

/-- A run that may stop at any point. -/
abbrev MigrationRunCutShort (engine : SqlEngine σ) (texts : TimestampText)
    (migrations : List Migration) :
    MigrationDatabase σ → List (Event migrationPorts MemcoreError) → MigrationDatabase σ → Prop :=
  CutShort (migrationServer engine texts) (fun _ _ _ => True)
    (SqliteMigrationRunner.applyPendingMigrations texts migrations)

/-- An initial part of the sorted list has been committed and recorded. -/
def PartlyRecorded (engine : SqlEngine σ) (first : σ) (migrations : List Migration)
    (database : MigrationDatabase σ) : Prop :=
  ∃ done pending, done ++ pending = byVersion migrations ∧
    CommittedExactly engine first done database.committed

theorem carriedOutInOrder_of_part {done pending : List Migration}
    {trace : List (Event migrationPorts MemcoreError)}
    (sorted : done ++ pending = byVersion migrations)
    (distinct : (migrations.map Migration.version).Nodup)
    (sent : transactional trace <+: pending.flatMap Migration.transaction) :
    CarriedOutInOrder migrations trace := by
  refine ⟨pending, ?_, ?_, sent⟩
  · intro migration listed
    apply (perm_byVersion migrations).mem_iff.mp
    rw [← sorted]
    exact List.mem_append_right _ listed
  · have ascends := byVersion_ascends distinct
    rw [← sorted, List.map_append, List.pairwise_append] at ascends
    exact ascends.2.1

/-- Wherever a run stops, an initial part has been committed and recorded. -/
theorem partlyRecorded_of_cutShort {first : σ} {database final : MigrationDatabase σ}
    {trace : List (Event migrationPorts MemcoreError)}
    (distinct : (migrations.map Migration.version).Nodup)
    (recorded : PartlyRecorded engine first migrations database)
    (cut : MigrationRunCutShort engine texts migrations database trace final) :
    PartlyRecorded engine first migrations final ∧ CarriedOutInOrder migrations trace := by
  obtain ⟨done, pending, sorted, records⟩ := recorded
  have settled : Settled engine first done [] (database, []) := by
    constructor
    · rwa [List.append_nil]
    · rfl
  have secured := settled.applyPendingMigrations texts sorted distinct
  have stopped := cut.asserted ((secures_iff _ _ _ _ _).mp secured) <| by
    rintro (error | report) last ended
    · exact ended
    · exact ended.1.progress (List.append_nil pending).symm
  rw [foldl_sentBy, List.nil_append] at stopped
  obtain ⟨finished, rest, rfl, records, sent⟩ := stopped
  refine ⟨⟨done ++ finished, rest, ?_, records⟩, carriedOutInOrder_of_part sorted distinct sent⟩
  rw [List.append_assoc, sorted]

/-- A run that returns has committed and recorded all migrations, and says so. -/
theorem recorded_of_run {first : σ} {database final : MigrationDatabase σ}
    {trace : List (Event migrationPorts MemcoreError)} {report : MigrationValidationReport}
    (distinct : (migrations.map Migration.version).Nodup)
    (recorded : PartlyRecorded engine first migrations database)
    (run : MigrationRun engine texts migrations database trace (.ok report) final) :
    CarriedOutInOrder migrations trace ∧ report.clean = true ∧
      CommittedExactly engine first (byVersion migrations) final.committed := by
  obtain ⟨done, pending, sorted, records⟩ := recorded
  have settled : Settled engine first done [] (database, []) := by
    constructor
    · rwa [List.append_nil]
    · rfl
  have secured := settled.applyPendingMigrations texts sorted distinct
  obtain ⟨settledNow, clean⟩ := run.tracked ((secures_iff _ _ _ _ _).mp secured)
  have sent := settledNow.sent
  rw [foldl_sentBy, List.nil_append] at sent
  rw [← sorted]
  exact ⟨carriedOutInOrder_of_part sorted distinct (sent ▸ List.prefix_refl _), clean,
    settledNow.recorded⟩

/-- A discrepancy keeps a run from carrying out any migration, and the run fails. -/
theorem refused_of_discrepant {database : MigrationDatabase σ}
    (discrepant : Discrepant migrations (database.committed.rows.map SchemaMigrationRow.entry)) :
    (∀ trace final, MigrationRunCutShort engine texts migrations database trace final →
      transactional trace = [] ∧ final.committed.contents = database.committed.contents) ∧
    ∀ trace outcome final, MigrationRun engine texts migrations database trace outcome final →
      ∃ error, outcome = .error error := by
  have distinct : (database.committed.rows.map SchemaMigrationRow.version).Nodup := by
    unfold MigrationTables.rows
    cases database.committed.schemaMigrations with
    | none => exact List.nodup_nil
    | some table => exact table.distinct
  have unmigrated : Unmigrated database.committed (database, []) := ⟨rfl, rfl, rfl⟩
  have secured := (secures_iff _ _ _ _ _).mp
    (unmigrated.applyPendingMigrations engine texts distinct discrepant)
  constructor
  · intro trace final cut
    have stopped := cut.asserted secured <| by
      rintro (error | report) last ended
      · exact ended
      · exact ended.elim
    have sent := stopped.sent
    rw [foldl_sentBy, List.nil_append] at sent
    exact ⟨sent, stopped.contents⟩
  · intro trace outcome final run
    cases outcome with
    | error error => exact ⟨error, rfl⟩
    | ok report => exact (run.tracked secured).elim

/-- After any number of interrupted runs, a run that returns leaves every migration committed
and recorded once, in the order of the versions, and reports so. Each run on the way carries
out migrations in that order. A record that the code does not know stops a run first. -/
theorem migrations_run_once (distinct : (migrations.map Migration.version).Nodup)
    {database between : MigrationDatabase σ}
    {runs : List (List (Event migrationPorts MemcoreError))}
    (unused : database.committed.rows = []) (noLegacy : database.committed.sqlxMigrations = none)
    (interrupted : InterruptedMigrations engine texts migrations database runs between) :
    (∀ trace ∈ runs, CarriedOutInOrder migrations trace) ∧
    (∀ trace report final,
      MigrationRun engine texts migrations between trace (.ok report) final →
        CarriedOutInOrder migrations trace ∧ report.clean = true ∧
          CommittedExactly engine database.committed.contents (byVersion migrations)
            final.committed) ∧
    ∀ (others : List Migration) (found : MigrationDatabase σ),
      Discrepant others (found.committed.rows.map SchemaMigrationRow.entry) →
        (∀ trace final, MigrationRunCutShort engine texts others found trace final →
          transactional trace = [] ∧ final.committed.contents = found.committed.contents) ∧
        ∀ trace outcome final, MigrationRun engine texts others found trace outcome final →
          ∃ error, outcome = .error error := by
  have initially : PartlyRecorded engine database.committed.contents migrations database := by
    refine ⟨[], byVersion migrations, rfl, ?_, .nothing, noLegacy⟩
    rw [unused]
    rfl
  have keeps (state : MigrationDatabase σ) (trace : List (Event migrationPorts MemcoreError))
      (final : MigrationDatabase σ)
      (kept : PartlyRecorded engine database.committed.contents migrations state)
      (cut : MigrationRunCutShort engine texts migrations state trace final) :
      PartlyRecorded engine database.committed.contents migrations final.rollback ∧
        CarriedOutInOrder migrations trace := by
    obtain ⟨records, carriedOut⟩ := partlyRecorded_of_cutShort distinct kept cut
    exact ⟨records, carriedOut⟩
  obtain ⟨recorded, inOrder⟩ := interrupted.invariant keeps initially
  refine ⟨inOrder, ?_, ?_⟩
  · intro trace report final run
    exact recorded_of_run distinct recorded run
  · intro others found discrepant
    exact refused_of_discrepant discrepant

/-- An engine that lists the statements it has executed. -/
def listingEngine : SqlEngine (List String) where
  execute _ statement executed := .ok (executed ++ [statement])
  hasTable _ _ := false

/-- Timestamps of the epoch. -/
def epochTimestamps : TimestampText where
  toRfc3339 _ := "1970-01-01T00:00:00+00:00"
  parseFromRfc3339 value :=
    if value = "1970-01-01T00:00:00+00:00" then .ok 0
    else .error "input contains invalid characters"

/-- Two migrations, the later one first. -/
def sampleMigrations : List Migration :=
  [⟨2, "add_title", "ALTER TABLE notes ADD title TEXT; UPDATE notes SET title = '';", "b"⟩,
    ⟨1, "create_notes", "CREATE TABLE notes (body TEXT);", "a"⟩]

def emptyMigrationDatabase : MigrationDatabase (List String) :=
  ⟨⟨none, none, []⟩, none⟩

/-- The first run, stopped after the first statement of the second migration. -/
def stoppedMigrationRun :
    List (Event migrationPorts MemcoreError) × MigrationDatabase (List String) :=
  replayCut (migrationServer listingEngine epochTimestamps) (List.replicate 16 ⟨0, none, true⟩)
    (SqliteMigrationRunner.applyPendingMigrations epochTimestamps sampleMigrations)
    emptyMigrationDatabase

/-- The run after it returns with everything committed once. -/
theorem migrations_run_once_sample :
    ∃ trace report final,
      MigrationRun listingEngine epochTimestamps sampleMigrations stoppedMigrationRun.2.rollback
        trace (.ok report) final ∧
      transactional stoppedMigrationRun.1 = [.begin, .execute "CREATE TABLE notes (body TEXT)",
        .insertMigration 1 "create_notes" "a", .commit, .begin,
        .execute "ALTER TABLE notes ADD title TEXT"] ∧
      report.clean = true ∧ final.committed.contents = ["CREATE TABLE notes (body TEXT)",
        "ALTER TABLE notes ADD title TEXT", "UPDATE notes SET title = ''"] ∧
      CommittedExactly listingEngine [] (byVersion sampleMigrations) final.committed := by
  have cut : MigrationRunCutShort listingEngine epochTimestamps sampleMigrations
      emptyMigrationDatabase stoppedMigrationRun.1 stoppedMigrationRun.2 :=
    replayCut_cutShort (fun _ _ _ => rfl) (fun _ _ _ => trivial) _ _ _
  have interrupted : InterruptedMigrations listingEngine epochTimestamps sampleMigrations
      emptyMigrationDatabase [stoppedMigrationRun.1] stoppedMigrationRun.2.rollback :=
    .again .untouched cut
  obtain ⟨trace, outcome, final, run, passed⟩ := exists_run_of_replay
    (migrationServer listingEngine epochTimestamps) (fun _ _ _ => True)
    (List.replicate 19 ⟨0, none, true⟩)
    (SqliteMigrationRunner.applyPendingMigrations epochTimestamps sampleMigrations)
    stoppedMigrationRun.2.rollback
    (fun result => result.2.1.isOk && result.2.2.committed.contents == [
      "CREATE TABLE notes (body TEXT)", "ALTER TABLE notes ADD title TEXT",
      "UPDATE notes SET title = ''"]) (by decide +kernel)
  cases outcome with
  | error error => simp [Except.isOk, Except.toBool] at passed
  | ok report =>
    have contents := (Bool.and_eq_true _ _ ▸ passed).2
    obtain ⟨_, once, _⟩ := migrations_run_once (by decide) rfl rfl interrupted
    obtain ⟨_, clean, recorded⟩ := once trace report final run
    exact ⟨trace, report, final, run, by decide +kernel, clean, eq_of_beq contents, recorded⟩

end Interruptions

end Memcore
