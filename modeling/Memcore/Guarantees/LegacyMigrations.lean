import Memcore.Guarantees.MigrationRuns

/-!
# Migrations that an earlier tool has run

Before anything else the runner takes over what the earlier tool has recorded, one row after the
other, and only into an empty table. A call that stops after the first of these rows and before the
last leaves a table that is neither empty nor complete: later calls take nothing over, and run the
migrations that are missing from it once more.

Calls that stop anywhere else leave the table empty or with every earlier version in it.
-/
namespace Memcore

open KeyedTables Programs

/-- The two calls that concern migrations. -/
inductive MigrationRequest where
  | validate (migrations : List Migration)
  | apply (migrations : List Migration)

def MigrationRequest.migrations : MigrationRequest → List Migration
  | validate migrations | apply migrations => migrations

def MigrationRequest.program (texts : TimestampText) :
    MigrationRequest → MigrationProgram MigrationValidationReport
  | validate migrations => SqliteMigrationRunner.validateMigrations texts migrations
  | apply migrations => SqliteMigrationRunner.applyPendingMigrations texts migrations

/-- The versions that the earlier tool has recorded as successful. -/
def successfulVersions (recorded : List SqlxMigrationRow) : List ℤ :=
  (recorded.filter SqlxMigrationRow.success).map SqlxMigrationRow.version

abbrev MigrationTrace := List (Event migrationPorts MemcoreError)

def MigrationCall.isSeed : MigrationCall → Bool
  | seedMigration _ _ _ => true
  | _ => false

/-- The version that a call has taken over, if it has. -/
def seededVersion : Event migrationPorts MemcoreError → Option ℤ
  | ⟨.seedMigration version _ _, .ok _⟩ => some version
  | _ => none

def seededVersions (trace : MigrationTrace) : List ℤ := trace.filterMap seededVersion

/-- A call takes over no earlier version or all of them. -/
def SeedsWhole (legacy : List ℤ) (trace : MigrationTrace) : Prop :=
  (∀ event ∈ trace, event.call.isSeed = false) ∨
    ∀ version ∈ legacy, version ∈ seededVersions trace

/-- The transactions of a call are those of coded migrations that the earlier tool has not run. -/
def SparesLegacy (legacy : List ℤ) (migrations : List Migration) (trace : MigrationTrace) : Prop :=
  ∃ batch : List Migration,
    (∀ migration ∈ batch, migration ∈ migrations ∧ migration.version ∉ legacy) ∧
      transactional trace <+: batch.flatMap Migration.transaction

theorem sparesLegacy_of_eq_nil {legacy : List ℤ} {trace : MigrationTrace}
    (migrations : List Migration) (unsent : transactional trace = []) :
    SparesLegacy legacy migrations trace := by
  refine ⟨[], ?_, ?_⟩
  · intro migration listed
    contradiction
  · rw [unsent]
    exact List.nil_prefix

/-- A migration that is recorded is not one that the earlier tool has run. -/
theorem SparesLegacy.not_mem {legacy : List ℤ} {migrations : List Migration}
    {trace : MigrationTrace} (spares : SparesLegacy legacy migrations trace) {version : ℤ}
    {name checksum : String}
    (recorded : .insertMigration version name checksum ∈ transactional trace) :
    version ∉ legacy := by
  obtain ⟨batch, others, begun⟩ := spares
  obtain ⟨migration, listed, sent⟩ := List.mem_flatMap.mp (begun.subset recorded)
  have same : version = migration.version := by
    simp only [Migration.transaction, List.mem_cons, List.mem_append, List.mem_map] at sent
    rcases sent with opening | ⟨_, _, executing⟩ | recording | closing | none
    · cases opening
    · cases executing
    · injection recording
    · cases closing
    · cases none
  rw [same]
  exact (others migration listed).2

theorem transactional_append (trace : MigrationTrace) (event : Event migrationPorts MemcoreError) :
    transactional (trace ++ [event]) = sentWith (transactional trace) event.call := by
  unfold transactional sentWith
  rw [List.map_append, List.filter_append]
  cases counts : event.call.isTransactional with
  | false => simp [counts]
  | true => simp [counts]

section Tables

variable {σ : Type}

/-- Every earlier version has a record. -/
def RecordsLegacy (legacy : List ℤ) (tables : MigrationTables σ) : Prop :=
  ∀ version ∈ legacy, version ∈ tables.rows.map SchemaMigrationRow.version

/-- Nothing has been taken over, or everything. -/
def SeededWhole (legacy : List ℤ) (tables : MigrationTables σ) : Prop :=
  (tables.selectLegacyVersions = .ok legacy ∧ tables.rows = []) ∨ RecordsLegacy legacy tables

variable {legacy : List ℤ} {tables later : MigrationTables σ}

/-- A row that is taken over is there, and those before it stay. -/
theorem seedMigration_eq_ok {row : SchemaMigrationRow}
    (inserted : tables.seedMigration row = .ok later) :
    row.version ∈ later.rows.map SchemaMigrationRow.version ∧
      tables.rows.map SchemaMigrationRow.version ⊆
        later.rows.map SchemaMigrationRow.version := by
  unfold MigrationTables.seedMigration at inserted
  unfold MigrationTables.rows
  cases present : tables.schemaMigrations with
  | none =>
    rw [present] at inserted
    contradiction
  | some table =>
    rw [present] at inserted
    obtain rfl := Except.ok.inj inserted
    by_cases taken : table.contains row.version = true
    · have refused : SqlTables.insert row table = none := if_pos taken
      rw [Table.contains, List.any_eq_true] at taken
      obtain ⟨other, listed, same⟩ := taken
      simp only [refused, Option.getD_none]
      refine ⟨?_, List.Subset.refl _⟩
      rw [← of_decide_eq_true same]
      exact List.mem_map_of_mem listed
    · have stored : SqlTables.insert row table = some (table.put row) := if_neg taken
      have fresh : ∀ other ∈ table.rows, other.version ≠ row.version := by
        intro other listed same
        apply taken
        rw [Table.contains, List.any_eq_true]
        exact ⟨other, listed, decide_eq_true same⟩
      simp only [stored, Option.getD_some, table.rows_put_of_fresh fresh, List.map_append,
        List.map_singleton]
      exact ⟨List.mem_append_right _ (List.mem_singleton_self _), List.subset_append_left _ _⟩

/-- The records in the committed tables and in an open transaction. -/
def KeepsLegacy (legacy : List ℤ) (database : MigrationDatabase σ) : Prop :=
  RecordsLegacy legacy database.committed ∧
    ∀ tables, database.transaction = some tables → RecordsLegacy legacy tables

theorem RecordsLegacy.autocommit {database : MigrationDatabase σ}
    (kept : KeepsLegacy legacy database)
    {change : MigrationTables σ → Except String (MigrationTables σ)}
    (grows : ∀ later, change database.committed = .ok later → RecordsLegacy legacy later) :
    KeepsLegacy legacy (database.autocommit change).2 := by
  unfold MigrationDatabase.autocommit
  cases changed : change database.committed with
  | error error => exact kept
  | ok later => exact ⟨grows later changed, kept.2⟩

theorem RecordsLegacy.within {database : MigrationDatabase σ}
    (kept : KeepsLegacy legacy database)
    {change : MigrationTables σ → Except String (MigrationTables σ)}
    (grows : ∀ tables later, RecordsLegacy legacy tables → change tables = .ok later →
      RecordsLegacy legacy later) :
    KeepsLegacy legacy (database.within change).2 := by
  unfold MigrationDatabase.within
  cases isOpen : database.transaction with
  | none => exact kept
  | some tables =>
    cases changed : change tables with
    | error error =>
      simp only [changed]
      exact kept
    | ok later =>
      simp only [changed]
      refine ⟨kept.1, ?_⟩
      rintro _ ⟨⟩
      exact grows tables later (kept.2 tables isOpen) changed

/-- No call loses a record. -/
theorem KeepsLegacy.effect {database : MigrationDatabase σ} (kept : KeepsLegacy legacy database)
    (engine : SqlEngine σ) (texts : TimestampText) (now : Instant) (call : MigrationCall) :
    KeepsLegacy legacy (migrationEffect engine texts now call database).2 := by
  cases call with
  | createMigrationTable =>
    apply RecordsLegacy.autocommit kept
    rintro _ ⟨⟩ version listed
    rw [rows_createMigrationTable]
    exact kept.1 version listed
  | seedMigration version name checksum =>
    apply RecordsLegacy.autocommit kept
    intro later inserted version listed
    exact (seedMigration_eq_ok inserted).2 (kept.1 version listed)
  | begin =>
    refine ⟨kept.1, ?_⟩
    rintro _ ⟨⟩
    exact kept.1
  | execute statement =>
    apply RecordsLegacy.within kept
    intro tables later records executed
    cases result : engine.execute now statement tables.contents with
    | error error =>
      rw [result] at executed
      contradiction
    | ok contents =>
      rw [result] at executed
      obtain rfl := Except.ok.inj executed
      exact records
  | insertMigration version name checksum =>
    apply RecordsLegacy.within kept
    intro tables later records inserted version listed
    rw [(insertMigration_eq_ok inserted).1, List.map_append]
    exact List.mem_append_left _ (records version listed)
  | commit =>
    simp only [migrationEffect]
    cases isOpen : database.transaction with
    | none => exact kept
    | some tables =>
      refine ⟨kept.2 tables isOpen, ?_⟩
      rintro _ ⟨⟩
  | tableExists _ | schemaMigrationCount | selectLegacyVersions | selectMigrations => exact kept

end Tables

/-! ## Calls with what has been answered before -/

section Calls

variable {σ : Type} (engine : SqlEngine σ) (texts : TimestampText)

/-- The database, and what has been answered so far. -/
abbrev TracedDatabase (σ : Type) := MigrationDatabase σ × MigrationTrace

/-- What a call may do, with a condition that has to hold at each. -/
abbrev tracedSpec (holds : TracedDatabase σ → Prop) :
    Spec migrationPorts MemcoreError (TracedDatabase σ) :=
  (((migrationServer engine texts).spec fun _ _ _ => True).tracking
    fun seen event => seen ++ [event]).asserting holds

variable {engine texts}

theorem tracedSpec_monotone (holds : TracedDatabase σ → Prop) :
    (tracedSpec engine texts holds).Monotone :=
  Spec.asserting_monotone (Spec.tracking_monotone (Server.spec_monotone _ _) _) holds

/-- A call that fails leaves the database as it is, or as a call that returns does. -/
theorem secures_tracedCall {call : MigrationCall} {database : MigrationDatabase σ}
    {seen : MigrationTrace} {holds : TracedDatabase σ → Prop}
    {good : call.Answer → TracedDatabase σ → Prop} (before : holds (database, seen))
    (fails : ∀ error later, (later = database ∨
        ∃ now, later = (migrationEffect engine texts now call database).2) →
      holds (later, seen ++ [⟨call, .error error⟩]))
    (returns : ∀ now answer, (migrationEffect engine texts now call database).1 = .ok answer →
      good answer ((migrationEffect engine texts now call database).2,
        seen ++ [⟨call, .ok answer⟩])) :
    Secures (tracedSpec engine texts holds) (migrationCall call) holds good (database, seen) := by
  apply (secures_iff _ _ _ _ _).mpr
  apply (ensures_call _ _ _ _).mpr
  refine ⟨before, ?_⟩
  rintro ⟨now, failure, takesEffect⟩ _ _
  cases failure with
  | some error =>
    cases takesEffect with
    | true => exact fails _ _ (.inr ⟨now, rfl⟩)
    | false => exact fails _ _ (.inl rfl)
  | none =>
    have shown := returns now
    have failed (error : MemcoreError) := fails error _ (.inr ⟨now, rfl⟩)
    simp only [migrationServer]
    cases answered : (migrationEffect engine texts now call database).1 with
    | ok answer => exact shown answer answered
    | error error => exact failed _

/-- What holds wherever a call stops. -/
structure Untorn (legacy : List ℤ) (migrations : List Migration) (state : TracedDatabase σ) :
    Prop where
  whole : SeedsWhole legacy state.2 → SeededWhole legacy state.1.committed
  spares : SparesLegacy legacy migrations state.2

variable {legacy : List ℤ} {migrations : List Migration} {state : TracedDatabase σ}

/-! ## Once everything has been taken over -/

/-- Every earlier version has a record, and these transactional calls have been sent. -/
structure TakenOver (legacy : List ℤ) (migrations : List Migration) (sent : List MigrationCall)
    (state : TracedDatabase σ) : Prop where
  kept : KeepsLegacy legacy state.1
  sent : transactional state.2 = sent
  spares : SparesLegacy legacy migrations state.2

variable {sent : List MigrationCall} {batch finished rest : List Migration}

theorem TakenOver.untorn (takenOver : TakenOver legacy migrations sent state) :
    Untorn legacy migrations state :=
  ⟨fun _ => .inr takenOver.kept.1, takenOver.spares⟩

/-- One more call, which is quiet or goes on with the transactions of a batch. -/
theorem TakenOver.call (takenOver : TakenOver legacy migrations sent state) (call : MigrationCall)
    (others : ∀ migration ∈ batch, migration ∈ migrations ∧ migration.version ∉ legacy)
    (begun : sentWith sent call <+: batch.flatMap Migration.transaction) :
    Secures (tracedSpec engine texts (Untorn legacy migrations)) (migrationCall call)
      (Untorn legacy migrations)
      (fun answer later => TakenOver legacy migrations (sentWith sent call) later ∧
        ∃ now, (migrationEffect engine texts now call state.1).1 = .ok answer) state := by
  obtain ⟨database, seen⟩ := state
  have after {later : MigrationDatabase σ} (answer : Except MemcoreError call.Answer)
      (kept : KeepsLegacy legacy later) :
      TakenOver legacy migrations (sentWith sent call) (later, seen ++ [⟨call, answer⟩]) := by
    have sentLater : transactional (seen ++ [⟨call, answer⟩]) = sentWith sent call := by
      rw [transactional_append, show transactional seen = sent from takenOver.sent]
    refine ⟨kept, sentLater, batch, others, ?_⟩
    rw [sentLater]
    exact begun
  apply secures_tracedCall takenOver.untorn
  · intro error later ended
    have kept : KeepsLegacy legacy later := by
      rcases ended with rfl | ⟨now, rfl⟩
      · exact takenOver.kept
      · exact takenOver.kept.effect engine texts now call
    exact (after (.error error) kept).untorn
  · intro now answer answered
    exact ⟨after (.ok answer) (takenOver.kept.effect engine texts now call), now, answered⟩

/-- A call outside of transactions. -/
theorem TakenOver.quiet (takenOver : TakenOver legacy migrations sent state) (call : MigrationCall)
    (isQuiet : call.isTransactional = false) :
    Secures (tracedSpec engine texts (Untorn legacy migrations)) (migrationCall call)
      (Untorn legacy migrations)
      (fun answer later => TakenOver legacy migrations sent later ∧
        ∃ now, (migrationEffect engine texts now call state.1).1 = .ok answer) state := by
  have unchanged : sentWith sent call = sent := by
    rw [sentWith, isQuiet]
    exact if_neg Bool.false_ne_true
  obtain ⟨batch, others, begun⟩ := takenOver.spares
  rw [takenOver.sent, ← unchanged] at begun
  have called := @TakenOver.call σ engine texts legacy migrations state sent batch takenOver call
    others begun
  rwa [unchanged] at called

theorem TakenOver.ensureMigrationTable (takenOver : TakenOver legacy migrations sent state) :
    Secures (tracedSpec engine texts (Untorn legacy migrations))
      SqliteMigrationRunner.ensureMigrationTable (Untorn legacy migrations)
      (fun _ later => TakenOver legacy migrations sent later) state := by
  apply Secures.mono (tracedSpec_monotone _) (takenOver.quiet .createMigrationTable rfl)
  intro _ later both
  exact both.1

theorem TakenOver.seedMigrations (takenOver : TakenOver legacy migrations sent state)
    (others : List Migration) :
    Secures (tracedSpec engine texts (Untorn legacy migrations))
      (SqliteMigrationRunner.seedMigrations others) (Untorn legacy migrations)
      (fun _ later => TakenOver legacy migrations sent later) state := by
  induction others generalizing state with
  | nil => exact (secures_pure _ _ _ _ _).mpr takenOver
  | cons migration others inductionHypothesis =>
    unfold SqliteMigrationRunner.seedMigrations
    apply Secures.bind (tracedSpec_monotone _) (takenOver.quiet (.seedMigration _ _ _) rfl)
    rintro _ later ⟨takenOver, _⟩
    exact inductionHypothesis takenOver

/-- What is taken over again changes nothing. -/
theorem TakenOver.seedFromSqlxMigrations (takenOver : TakenOver legacy migrations sent state)
    (coded : List Migration) :
    Secures (tracedSpec engine texts (Untorn legacy migrations))
      (SqliteMigrationRunner.seedFromSqlxMigrations coded) (Untorn legacy migrations)
      (fun _ later => TakenOver legacy migrations sent later) state := by
  unfold SqliteMigrationRunner.seedFromSqlxMigrations
  apply Secures.bind (tracedSpec_monotone _) (takenOver.quiet .schemaMigrationCount rfl)
  rintro count counted ⟨takenOver, _⟩
  by_cases used : count > 0
  · rw [if_pos used]
    exact (secures_pure _ _ _ _ _).mpr takenOver
  · rw [if_neg used]
    apply Secures.bind (tracedSpec_monotone _)
      (takenOver.quiet (.tableExists "_sqlx_migrations") rfl)
    rintro present looked ⟨takenOver, _⟩
    cases present with
    | false => exact (secures_pure _ _ _ _ _).mpr takenOver
    | true =>
      apply Secures.bind (tracedSpec_monotone _) (takenOver.quiet .selectLegacyVersions rfl)
      rintro versions selected ⟨takenOver, _⟩
      by_cases none : versions.isEmpty = true
      · simp only [none, if_true]
        exact (secures_pure _ _ _ _ _).mpr takenOver
      · simp only [none]
        apply (secures_bind _ _ _ _ _ _).mpr
        apply secures_check takenOver.untorn
        intro sorted _
        exact takenOver.seedMigrations _

/-- All earlier versions are among what is applied. -/
theorem TakenOver.appliedMigrations (takenOver : TakenOver legacy migrations sent state) :
    Secures (tracedSpec engine texts (Untorn legacy migrations))
      (SqliteMigrationRunner.appliedMigrations texts) (Untorn legacy migrations)
      (fun applied later => TakenOver legacy migrations sent later ∧
        ∀ version ∈ legacy, version ∈ applied.map AppliedMigration.version) state := by
  unfold SqliteMigrationRunner.appliedMigrations
  apply Secures.bind (tracedSpec_monotone _) takenOver.ensureMigrationTable
  intro _ ensured takenOver
  apply Secures.bind (tracedSpec_monotone _) (takenOver.quiet .selectMigrations rfl)
  rintro rows later ⟨takenOverLater, _, answered⟩
  have selected : ensured.1.committed.selectMigrations = .ok rows := answered
  apply secures_check takenOverLater.untorn
  intro applied parsed
  refine ⟨takenOverLater, ?_⟩
  intro version listed
  have recorded := takenOver.kept.1 version listed
  have versions : applied.map AppliedMigration.version = rows.map SchemaMigrationRow.version := by
    have firsts := congrArg (List.map Prod.fst) (entries_of_parsed parsed)
    rwa [List.map_map, List.map_map] at firsts
  rw [versions]
  exact ((selectMigrations_perm selected).map _).mem_iff.mpr recorded

theorem TakenOver.validateMigrations (takenOver : TakenOver legacy migrations sent state)
    (coded : List Migration) :
    Secures (tracedSpec engine texts (Untorn legacy migrations))
      (SqliteMigrationRunner.validateMigrations texts coded) (Untorn legacy migrations)
      (fun _ later => TakenOver legacy migrations sent later) state := by
  unfold SqliteMigrationRunner.validateMigrations
  apply Secures.bind (tracedSpec_monotone _) takenOver.ensureMigrationTable
  intro _ ensured takenOver
  apply Secures.bind (tracedSpec_monotone _) (takenOver.seedFromSqlxMigrations coded)
  intro _ seeded takenOver
  apply Secures.bind (tracedSpec_monotone _) takenOver.appliedMigrations
  rintro applied read ⟨takenOver, _⟩
  apply secures_check takenOver.untorn
  intro report _
  exact takenOver

/-! ## The transactions of what is left -/

/-- The statements of one migration in turn. -/
theorem TakenOver.executeStatements {migration : Migration} {executed remaining : List String}
    (takenOver : TakenOver legacy migrations (finished.flatMap Migration.transaction ++
      .begin :: executed.map .execute) state)
    (split : batch = finished ++ migration :: rest)
    (whole : migration.statements = executed ++ remaining)
    (others : ∀ migration ∈ batch, migration ∈ migrations ∧ migration.version ∉ legacy) :
    Secures (tracedSpec engine texts (Untorn legacy migrations))
      (SqliteMigrationRunner.executeStatements remaining) (Untorn legacy migrations)
      (fun _ later => TakenOver legacy migrations (finished.flatMap Migration.transaction ++
        .begin :: migration.statements.map .execute) later) state := by
  induction remaining generalizing executed state with
  | nil =>
    apply (secures_pure _ _ _ _ _).mpr
    rw [whole, List.append_nil]
    exact takenOver
  | cons statement remaining inductionHypothesis =>
    have regrouped : migration.statements = (executed ++ [statement]) ++ remaining := by
      rw [whole, List.append_assoc]
      rfl
    have sentNow : sentWith (finished.flatMap Migration.transaction ++
        .begin :: executed.map .execute) (.execute statement) =
          finished.flatMap Migration.transaction ++
            .begin :: (executed ++ [statement]).map .execute := by
      simp [sentWith, MigrationCall.isTransactional]
    have begun : sentWith (finished.flatMap Migration.transaction ++
        .begin :: executed.map .execute) (.execute statement) <+:
          batch.flatMap Migration.transaction := by
      rw [sentNow]
      exact part_of_flatMap split (begun_part ⟨remaining, regrouped.symm⟩)
    unfold SqliteMigrationRunner.executeStatements
    apply Secures.bind (tracedSpec_monotone _) (takenOver.call (.execute statement) others begun)
    rintro _ later ⟨takenOver, _⟩
    rw [sentNow] at takenOver
    exact inductionHypothesis takenOver regrouped

/-- The migrations of a batch in turn. -/
theorem TakenOver.applyMigrations
    (takenOver : TakenOver legacy migrations (finished.flatMap Migration.transaction) state)
    (split : batch = finished ++ rest)
    (others : ∀ migration ∈ batch, migration ∈ migrations ∧ migration.version ∉ legacy) :
    Secures (tracedSpec engine texts (Untorn legacy migrations))
      (SqliteMigrationRunner.applyMigrations rest) (Untorn legacy migrations)
      (fun _ later => TakenOver legacy migrations (batch.flatMap Migration.transaction) later)
      state := by
  induction rest generalizing finished state with
  | nil =>
    apply (secures_pure _ _ _ _ _).mpr
    rwa [split, List.append_nil]
  | cons migration rest inductionHypothesis =>
    unfold SqliteMigrationRunner.applyMigrations
    have opening : [.begin] <+: migration.transaction := begun_part List.nil_prefix
    have recording : migration.beforeCommit <+: migration.transaction :=
      ⟨[.commit], beforeCommit_append migration⟩
    apply Secures.bind (tracedSpec_monotone _)
      (takenOver.call .begin others (part_of_flatMap split opening))
    rintro _ begun ⟨takenOver, _⟩
    have opened : TakenOver legacy migrations (finished.flatMap Migration.transaction ++
        .begin :: ([] : List String).map .execute) begun := takenOver
    apply Secures.bind (tracedSpec_monotone _)
      (opened.executeStatements split (List.nil_append _).symm others)
    intro _ executed takenOver
    have inserted : sentWith (finished.flatMap Migration.transaction ++
        .begin :: migration.statements.map .execute)
          (.insertMigration migration.version migration.name migration.checksum) =
        finished.flatMap Migration.transaction ++ migration.beforeCommit := by
      simp [sentWith, MigrationCall.isTransactional, Migration.beforeCommit]
    apply Secures.bind (tracedSpec_monotone _)
      (takenOver.call (.insertMigration _ _ _) others
        (inserted ▸ part_of_flatMap split recording))
    rintro _ recorded ⟨takenOver, _⟩
    rw [inserted] at takenOver
    have committed : sentWith (finished.flatMap Migration.transaction ++ migration.beforeCommit)
        .commit = (finished ++ [migration]).flatMap Migration.transaction := by
      rw [List.flatMap_append, List.flatMap_singleton, ← beforeCommit_append]
      simp [sentWith, MigrationCall.isTransactional]
    have regrouped : batch = (finished ++ [migration]) ++ rest := by
      rw [split, List.append_assoc]
      rfl
    have whole : (finished ++ [migration]).flatMap Migration.transaction <+:
        batch.flatMap Migration.transaction := by
      refine ⟨rest.flatMap Migration.transaction, ?_⟩
      rw [regrouped, ← List.flatMap_append]
    apply Secures.bind (tracedSpec_monotone _)
      (takenOver.call .commit others (committed ▸ whole))
    rintro _ later ⟨takenOver, _⟩
    rw [committed] at takenOver
    exact inductionHypothesis takenOver regrouped

/-! ## While nothing has been taken over -/

/-- The runner's table is empty, and only questions have been asked. -/
structure Unseeded (legacy : List ℤ) (state : TracedDatabase σ) : Prop where
  known : state.1.committed.selectLegacyVersions = .ok legacy
  unused : state.1.committed.rows = []
  closed : state.1.transaction = none
  unsent : transactional state.2 = []
  unseeded : ∀ event ∈ state.2, event.call.isSeed = false

theorem Unseeded.untorn (unseeded : Unseeded legacy state) : Untorn legacy migrations state :=
  ⟨fun _ => .inl ⟨unseeded.known, unseeded.unused⟩,
    sparesLegacy_of_eq_nil migrations unseeded.unsent⟩

/-- A call that is neither part of a transaction nor takes anything over. -/
theorem Unseeded.quiet (unseeded : Unseeded legacy state) (call : MigrationCall)
    (isQuiet : call.isTransactional = false) (isNoSeed : call.isSeed = false)
    (keeps : ∀ now, let later := (migrationEffect engine texts now call state.1).2
      later.committed.selectLegacyVersions = .ok legacy ∧ later.committed.rows = [] ∧
        later.transaction = none) :
    Secures (tracedSpec engine texts (Untorn legacy migrations)) (migrationCall call)
      (Untorn legacy migrations)
      (fun answer later => Unseeded legacy later ∧
        ∃ now, (migrationEffect engine texts now call state.1).1 = .ok answer) state := by
  obtain ⟨database, seen⟩ := state
  have unsent (answer : Except MemcoreError call.Answer) :
      transactional (seen ++ [⟨call, answer⟩]) = [] := by
    rw [transactional_append, show transactional seen = [] from unseeded.unsent, sentWith, isQuiet]
    exact if_neg Bool.false_ne_true
  have unsown (answer : Except MemcoreError call.Answer) :
      ∀ event ∈ seen ++ [⟨call, answer⟩], event.call.isSeed = false := by
    intro event listed
    rcases List.mem_append.mp listed with earlier | latest
    · exact unseeded.unseeded event earlier
    · rw [List.mem_singleton.mp latest]
      exact isNoSeed
  apply secures_tracedCall unseeded.untorn
  · intro error later ended
    have after : Unseeded legacy (later, seen ++ [⟨call, .error error⟩]) := by
      rcases ended with rfl | ⟨now, rfl⟩
      · exact ⟨unseeded.known, unseeded.unused, unseeded.closed, unsent _, unsown _⟩
      · obtain ⟨known, unused, closed⟩ := keeps now
        exact ⟨known, unused, closed, unsent _, unsown _⟩
    exact after.untorn
  · intro now answer answered
    obtain ⟨known, unused, closed⟩ := keeps now
    exact ⟨⟨known, unused, closed, unsent _, unsown _⟩, now, answered⟩

/-- A question leaves the database as it is. -/
theorem Unseeded.ask (unseeded : Unseeded legacy state) (call : MigrationCall)
    (isQuiet : call.isTransactional = false) (isNoSeed : call.isSeed = false)
    (isQuestion : ∀ now, (migrationEffect engine texts now call state.1).2 = state.1) :
    Secures (tracedSpec engine texts (Untorn legacy migrations)) (migrationCall call)
      (Untorn legacy migrations)
      (fun answer later => Unseeded legacy later ∧
        ∃ now, (migrationEffect engine texts now call state.1).1 = .ok answer) state := by
  apply unseeded.quiet call isQuiet isNoSeed
  intro now
  simp only [isQuestion now]
  exact ⟨unseeded.known, unseeded.unused, unseeded.closed⟩

theorem Unseeded.ensureMigrationTable (unseeded : Unseeded legacy state) :
    Secures (tracedSpec engine texts (Untorn legacy migrations))
      SqliteMigrationRunner.ensureMigrationTable (Untorn legacy migrations)
      (fun _ later => Unseeded legacy later) state := by
  apply Secures.mono (tracedSpec_monotone _)
  · apply unseeded.quiet .createMigrationTable rfl rfl
    intro now
    exact ⟨unseeded.known, (rows_createMigrationTable _).trans unseeded.unused, unseeded.closed⟩
  · intro _ later both
    exact both.1

/-- Some earlier versions have been taken over, and no transaction has been opened. -/
structure Seeding (legacy : List ℤ) (state : TracedDatabase σ) : Prop where
  closed : state.1.transaction = none
  unsent : transactional state.2 = []
  seeded : ∀ version ∈ seededVersions state.2,
    version ∈ state.1.committed.rows.map SchemaMigrationRow.version
  unseeded : (∀ event ∈ state.2, event.call.isSeed = false) →
    state.1.committed.selectLegacyVersions = .ok legacy ∧ state.1.committed.rows = []

theorem Seeding.untorn (seeding : Seeding legacy state) : Untorn legacy migrations state := by
  refine ⟨?_, sparesLegacy_of_eq_nil migrations seeding.unsent⟩
  rintro (untouched | whole)
  · exact .inl (seeding.unseeded untouched)
  · exact .inr fun version listed => seeding.seeded version (whole version listed)

theorem Unseeded.seeding (unseeded : Unseeded legacy state) : Seeding legacy state := by
  refine ⟨unseeded.closed, unseeded.unsent, ?_, fun _ => ⟨unseeded.known, unseeded.unused⟩⟩
  intro version listed
  obtain ⟨event, asked, isSeeded⟩ := List.mem_filterMap.mp listed
  have isNoSeed := unseeded.unseeded event asked
  obtain ⟨call, answer⟩ := event
  cases call with
  | seedMigration version name checksum => cases isNoSeed
  | _ => cases isSeeded

/-- One earlier version is taken over. A call that fails may have done so unsaid. -/
theorem Seeding.seedMigration (seeding : Seeding legacy state) (version : ℤ)
    (name checksum : String) :
    Secures (tracedSpec engine texts (Untorn legacy migrations))
      (migrationCall (.seedMigration version name checksum)) (Untorn legacy migrations)
      (fun _ later => Seeding legacy later ∧
        seededVersions later.2 = seededVersions state.2 ++ [version]) state := by
  obtain ⟨database, seen⟩ := state
  have unsent (answer : Except MemcoreError Unit) :
      transactional (seen ++ [⟨.seedMigration version name checksum, answer⟩]) = [] := by
    rw [transactional_append]
    exact seeding.unsent
  have begun (answer : Except MemcoreError Unit) {holds : Prop}
      (untouched : ∀ event ∈ seen ++ [⟨.seedMigration version name checksum, answer⟩],
        event.call.isSeed = false) : holds := by
    cases untouched _ (List.mem_append_right _ (List.mem_singleton_self _))
  have changed (now : Instant) : let later := (migrationEffect engine texts now
        (.seedMigration version name checksum) database)
      later.2.transaction = none ∧
        database.committed.rows.map SchemaMigrationRow.version ⊆
          later.2.committed.rows.map SchemaMigrationRow.version ∧
        (later.1 = .ok () → version ∈ later.2.committed.rows.map SchemaMigrationRow.version) := by
    simp only [migrationEffect, MigrationDatabase.autocommit]
    cases inserted : database.committed.seedMigration
        ⟨version, name, checksum, texts.toRfc3339 now⟩ with
    | error error => exact ⟨seeding.closed, List.Subset.refl _, by rintro ⟨⟩⟩
    | ok later =>
      obtain ⟨stored, grows⟩ := seedMigration_eq_ok inserted
      exact ⟨seeding.closed, grows, fun _ => stored⟩
  apply secures_tracedCall seeding.untorn
  · intro error later ended
    have failed : seededVersions (seen ++ [⟨.seedMigration version name checksum,
        .error error⟩]) = seededVersions seen := by
      simp [seededVersions, List.filterMap_append, seededVersion]
    have after : Seeding legacy (later, seen ++ [⟨.seedMigration version name checksum,
        .error error⟩]) := by
      rcases ended with rfl | ⟨now, rfl⟩
      · refine ⟨seeding.closed, unsent _, ?_, begun _⟩
        rw [failed]
        exact seeding.seeded
      · obtain ⟨closed, grows, _⟩ := changed now
        refine ⟨closed, unsent _, ?_, begun _⟩
        rw [failed]
        exact fun other listed => grows (seeding.seeded other listed)
    exact after.untorn
  · intro now answer answered
    obtain ⟨closed, grows, stored⟩ := changed now
    have succeeded : seededVersions (seen ++ [⟨.seedMigration version name checksum,
        .ok answer⟩]) = seededVersions seen ++ [version] := by
      simp [seededVersions, List.filterMap_append, seededVersion]
    refine ⟨⟨closed, unsent _, ?_, begun _⟩, succeeded⟩
    rw [succeeded]
    intro other listed
    rcases List.mem_append.mp listed with earlier | latest
    · exact grows (seeding.seeded other earlier)
    · rw [List.mem_singleton.mp latest]
      exact stored answered

theorem Seeding.seedMigrations (seeding : Seeding legacy state) (others : List Migration) :
    Secures (tracedSpec engine texts (Untorn legacy migrations))
      (SqliteMigrationRunner.seedMigrations others) (Untorn legacy migrations)
      (fun _ later => Seeding legacy later ∧ seededVersions later.2 =
        seededVersions state.2 ++ others.map Migration.version) state := by
  induction others generalizing state with
  | nil =>
    apply (secures_pure _ _ _ _ _).mpr
    exact ⟨seeding, (List.append_nil _).symm⟩
  | cons migration others inductionHypothesis =>
    unfold SqliteMigrationRunner.seedMigrations
    apply Secures.bind (tracedSpec_monotone _) (seeding.seedMigration _ _ _)
    rintro _ later ⟨seedingLater, sown⟩
    apply Secures.mono (tracedSpec_monotone _) (inductionHypothesis seedingLater)
    rintro _ last ⟨seedingLast, all⟩
    refine ⟨seedingLast, ?_⟩
    rw [all, sown, List.append_assoc]
    rfl

/-- Once the migrations of all earlier versions have been taken over, nothing is missing. -/
theorem Seeding.takenOver (seeding : Seeding legacy state)
    (whole : ∀ version ∈ legacy, version ∈ seededVersions state.2) :
    TakenOver legacy migrations [] state := by
  refine ⟨⟨fun version listed => seeding.seeded version (whole version listed), ?_⟩,
    seeding.unsent, sparesLegacy_of_eq_nil migrations seeding.unsent⟩
  intro tables isOpen
  rw [seeding.closed] at isOpen
  cases isOpen

/-- Everything is taken over, or the call stops on the way. -/
theorem Unseeded.seedFromSqlxMigrations (unseeded : Unseeded legacy state)
    (covers : ∀ version ∈ legacy, version ∈ migrations.map Migration.version) :
    Secures (tracedSpec engine texts (Untorn legacy migrations))
      (SqliteMigrationRunner.seedFromSqlxMigrations migrations) (Untorn legacy migrations)
      (fun _ later => TakenOver legacy migrations [] later) state := by
  unfold SqliteMigrationRunner.seedFromSqlxMigrations
  apply Secures.bind (tracedSpec_monotone _)
    (unseeded.ask .schemaMigrationCount rfl rfl fun _ => rfl)
  rintro count counted ⟨unseededLater, _, answered⟩
  have none : count = 0 := by
    have answer : state.1.committed.schemaMigrationCount = .ok count := answered
    have unused := unseeded.unused
    unfold MigrationTables.schemaMigrationCount at answer
    unfold MigrationTables.rows at unused
    cases present : state.1.committed.schemaMigrations with
    | none =>
      rw [present] at answer
      contradiction
    | some table =>
      rw [present] at answer unused
      obtain rfl := Except.ok.inj answer
      exact List.length_eq_zero_iff.mpr unused
  have empty : ¬ count > 0 := none ▸ Nat.lt_irrefl 0
  rw [if_neg empty]
  apply Secures.bind (tracedSpec_monotone _)
    (unseededLater.ask (.tableExists "_sqlx_migrations") rfl rfl fun _ => rfl)
  rintro present looked ⟨unseeded, _, answered⟩
  have isPresent : present = true := by
    have answer : Except.ok counted.1.committed.sqlxMigrations.isSome =
      (Except.ok present : Except String Bool) := answered
    rw [← Except.ok.inj answer]
    have known := unseededLater.known
    unfold MigrationTables.selectLegacyVersions at known
    cases table : counted.1.committed.sqlxMigrations with
    | none =>
      rw [table] at known
      contradiction
    | some rows => rfl
  subst isPresent
  apply Secures.bind (tracedSpec_monotone _)
    (unseeded.ask .selectLegacyVersions rfl rfl fun _ => rfl)
  rintro versions selected ⟨unseededLast, _, answered⟩
  obtain rfl : legacy = versions := Except.ok.inj (unseeded.known.symm.trans answered)
  by_cases nothing : legacy.isEmpty = true
  · simp only [nothing, if_true]
    apply (secures_pure _ _ _ _ _).mpr
    apply unseededLast.seeding.takenOver
    intro version listed
    rw [List.isEmpty_iff.mp nothing] at listed
    contradiction
  · simp only [nothing]
    apply (secures_bind _ _ _ _ _ _).mpr
    apply secures_check unseededLast.untorn
    intro sorted sorts
    obtain ⟨_, rfl⟩ := sortedMigrations_eq_ok.mp sorts
    apply Secures.mono (tracedSpec_monotone _) (unseededLast.seeding.seedMigrations _)
    rintro _ later ⟨seeding, sown⟩
    apply seeding.takenOver
    intro version listed
    obtain ⟨migration, coded, rfl⟩ := List.mem_map.mp (covers version listed)
    rw [sown]
    apply List.mem_append_right
    apply List.mem_map_of_mem
    apply List.mem_filter.mpr
    exact ⟨(perm_byVersion migrations).mem_iff.mpr coded, decide_eq_true listed⟩

/-! ## Whole calls -/

/-- What a call starts from. -/
def Startable (legacy : List ℤ) (migrations : List Migration) (state : TracedDatabase σ) : Prop :=
  Unseeded legacy state ∨ TakenOver legacy migrations [] state

theorem Startable.untorn (startable : Startable legacy migrations state) :
    Untorn legacy migrations state := by
  rcases startable with unseeded | takenOver
  · exact unseeded.untorn
  · exact takenOver.untorn

theorem startable_of_seededWhole {database : MigrationDatabase σ}
    (whole : SeededWhole legacy database.committed) (closed : database.transaction = none)
    (migrations : List Migration) : Startable legacy migrations (database, []) := by
  rcases whole with ⟨known, unused⟩ | records
  · left
    refine ⟨known, unused, closed, rfl, ?_⟩
    intro event listed
    contradiction
  · right
    refine ⟨⟨records, ?_⟩, rfl, sparesLegacy_of_eq_nil migrations rfl⟩
    intro tables isOpen
    rw [show database.transaction = none from closed] at isOpen
    cases isOpen

theorem Startable.ensureMigrationTable (startable : Startable legacy migrations state) :
    Secures (tracedSpec engine texts (Untorn legacy migrations))
      SqliteMigrationRunner.ensureMigrationTable (Untorn legacy migrations)
      (fun _ later => Startable legacy migrations later) state := by
  rcases startable with unseeded | takenOver
  · apply Secures.mono (tracedSpec_monotone _) unseeded.ensureMigrationTable
    intro _ later kept
    exact .inl kept
  · apply Secures.mono (tracedSpec_monotone _) takenOver.ensureMigrationTable
    intro _ later kept
    exact .inr kept

theorem Startable.seedFromSqlxMigrations (startable : Startable legacy migrations state)
    (covers : ∀ version ∈ legacy, version ∈ migrations.map Migration.version) :
    Secures (tracedSpec engine texts (Untorn legacy migrations))
      (SqliteMigrationRunner.seedFromSqlxMigrations migrations) (Untorn legacy migrations)
      (fun _ later => TakenOver legacy migrations [] later) state := by
  rcases startable with unseeded | takenOver
  · exact unseeded.seedFromSqlxMigrations covers
  · exact takenOver.seedFromSqlxMigrations migrations

variable (texts) in
theorem Startable.validateMigrations (startable : Startable legacy migrations state)
    (covers : ∀ version ∈ legacy, version ∈ migrations.map Migration.version) :
    Secures (tracedSpec engine texts (Untorn legacy migrations))
      (SqliteMigrationRunner.validateMigrations texts migrations) (Untorn legacy migrations)
      (fun _ later => Untorn legacy migrations later) state := by
  unfold SqliteMigrationRunner.validateMigrations
  apply Secures.bind (tracedSpec_monotone _) startable.ensureMigrationTable
  intro _ ensured startable
  apply Secures.bind (tracedSpec_monotone _) (startable.seedFromSqlxMigrations covers)
  intro _ seeded takenOver
  apply Secures.bind (tracedSpec_monotone _) takenOver.appliedMigrations
  rintro applied read ⟨takenOver, _⟩
  apply secures_check takenOver.untorn
  intro report _
  exact takenOver.untorn

variable (texts) in
/-- What is left is carried out, and nothing of what the earlier tool has run. -/
theorem Startable.applyPendingMigrations (startable : Startable legacy migrations state)
    (covers : ∀ version ∈ legacy, version ∈ migrations.map Migration.version) :
    Secures (tracedSpec engine texts (Untorn legacy migrations))
      (SqliteMigrationRunner.applyPendingMigrations texts migrations) (Untorn legacy migrations)
      (fun _ later => Untorn legacy migrations later) state := by
  unfold SqliteMigrationRunner.applyPendingMigrations
  apply Secures.bind (tracedSpec_monotone _) startable.ensureMigrationTable
  intro _ ensured startable
  apply Secures.bind (tracedSpec_monotone _) (startable.seedFromSqlxMigrations covers)
  intro _ seeded takenOver
  apply Secures.bind (tracedSpec_monotone _) (takenOver.validateMigrations migrations)
  intro report validated takenOver
  by_cases blocked : report.hasBlockingIssues = true
  · rw [if_pos blocked]
    exact (secures_fail _ _ _ _ _).mpr takenOver.untorn
  · rw [if_neg blocked]
    apply Secures.bind (tracedSpec_monotone _) takenOver.appliedMigrations
    rintro applied read ⟨takenOver, known⟩
    apply (secures_bind _ _ _ _ _ _).mpr
    apply secures_check takenOver.untorn
    intro list sorts
    obtain ⟨_, rfl⟩ := sortedMigrations_eq_ok.mp sorts
    have others : ∀ migration ∈ (byVersion migrations).filter fun migration =>
        migration.version ∉ applied.map AppliedMigration.version,
        migration ∈ migrations ∧ migration.version ∉ legacy := by
      intro migration listed
      obtain ⟨sorted, pending⟩ := List.mem_filter.mp listed
      refine ⟨(perm_byVersion migrations).mem_iff.mp sorted, fun recorded => ?_⟩
      exact of_decide_eq_true pending (known _ recorded)
    apply Secures.bind (tracedSpec_monotone _)
      (takenOver.applyMigrations (List.nil_append _).symm others)
    intro _ all takenOver
    apply Secures.mono (tracedSpec_monotone _) (takenOver.validateMigrations migrations)
    intro _ later takenOver
    exact takenOver.untorn

theorem Startable.program (request : MigrationRequest)
    (startable : Startable legacy request.migrations state)
    (covers : ∀ version ∈ legacy, version ∈ request.migrations.map Migration.version) :
    Secures (tracedSpec engine texts (Untorn legacy request.migrations))
      (request.program texts) (Untorn legacy request.migrations)
      (fun _ later => Untorn legacy request.migrations later) state := by
  cases request with
  | validate migrations => exact startable.validateMigrations texts covers
  | apply migrations => exact startable.applyPendingMigrations texts covers

theorem foldl_snoc (seen trace : MigrationTrace) :
    trace.foldl (fun seen event => seen ++ [event]) seen = seen ++ trace := by
  induction trace generalizing seen with
  | nil => exact (List.append_nil _).symm
  | cons event trace inductionHypothesis =>
    rw [List.foldl_cons, inductionHypothesis, List.append_assoc]
    rfl

/-- Wherever a call stops that starts from a table that is empty or complete. -/
theorem untorn_of_cutShort {database final : MigrationDatabase σ} {trace : MigrationTrace}
    (request : MigrationRequest) (whole : SeededWhole legacy database.committed)
    (closed : database.transaction = none)
    (covers : ∀ version ∈ legacy, version ∈ request.migrations.map Migration.version)
    (cut : CutShort (migrationServer engine texts) (fun _ _ _ => True) (request.program texts)
      database trace final) : Untorn legacy request.migrations (final, trace) := by
  have startable := startable_of_seededWhole whole closed request.migrations
  have secured := @Startable.program σ engine texts legacy _ request startable covers
  have stopped := cut.asserted ((secures_iff _ _ _ _ _).mp secured) <| by
    rintro (error | report) last ended
    · exact ended
    · exact ended
  rwa [foldl_snoc, List.nil_append] at stopped

/-- Earlier calls of either kind, each stopped at any point, with the open transaction rolled back.
The migrations of each include what the earlier tool has run, and what each has been answered
passes a test. -/
abbrev EarlierMigrationCalls (engine : SqlEngine σ) (texts : TimestampText) (legacy : List ℤ)
    (passes : MigrationTrace → Prop) : MigrationDatabase σ → MigrationDatabase σ → Prop :=
  InterruptedInTurn (migrationServer engine texts) (fun _ _ _ => True) MigrationDatabase.rollback
    (MigrationRequest.program texts) fun request trace =>
      (∀ version ∈ legacy, version ∈ request.migrations.map Migration.version) ∧ passes trace

/-- After any number of calls that stop anywhere except between the first and the last row that
they take over, a call carries out no migration that the earlier tool has run. -/
theorem legacy_migrations_spared {tables : MigrationTables σ} {between final : MigrationDatabase σ}
    {recorded : List SqlxMigrationRow} (known : tables.sqlxMigrations = some recorded)
    (unused : tables.rows = [])
    (earlier : EarlierMigrationCalls engine texts (successfulVersions recorded)
      (SeedsWhole (successfulVersions recorded)) ⟨tables, none⟩ between)
    (covers : ∀ version ∈ successfulVersions recorded, version ∈ migrations.map Migration.version)
    {trace : MigrationTrace}
    (cut : MigrationRunCutShort engine texts migrations between trace final) :
    SparesLegacy (successfulVersions recorded) migrations trace := by
  have initially : SeededWhole (successfulVersions recorded) tables := by
    refine .inl ⟨?_, unused⟩
    rw [MigrationTables.selectLegacyVersions, known]
    rfl
  have keeps (request : MigrationRequest) (state : MigrationDatabase σ) (trace : MigrationTrace)
      (final : MigrationDatabase σ)
      (kept : SeededWhole (successfulVersions recorded) state.committed ∧
        state.transaction = none)
      (cut : CutShort (migrationServer engine texts) (fun _ _ _ => True) (request.program texts)
        state trace final)
      (passed : (∀ version ∈ successfulVersions recorded,
          version ∈ request.migrations.map Migration.version) ∧
        SeedsWhole (successfulVersions recorded) trace) :
      SeededWhole (successfulVersions recorded) final.rollback.committed ∧
        final.rollback.transaction = none :=
    ⟨(untorn_of_cutShort request kept.1 kept.2 passed.1 cut).whole passed.2, rfl⟩
  obtain ⟨whole, closedBetween⟩ := earlier.invariant keeps ⟨initially, rfl⟩
  exact (untorn_of_cutShort (.apply migrations) whole closedBetween covers cut).spares

end Calls

/-! ## Two migrations that the earlier tool has run -/

instance (legacy : List ℤ) (trace : MigrationTrace) : Decidable (SeedsWhole legacy trace) :=
  inferInstanceAs (Decidable (_ ∨ _))

/-- The tables that the earlier tool leaves after it has run these versions. -/
def legacyTables (recorded : List SqlxMigrationRow) : MigrationTables (List String) :=
  ⟨none, some recorded, []⟩

/-- A validation that is stopped after some calls. -/
def stoppedValidation (recorded : List SqlxMigrationRow) (calls : ℕ) :
    MigrationTrace × MigrationDatabase (List String) :=
  replayCut (migrationServer listingEngine epochTimestamps) (List.replicate calls ⟨0, none, true⟩)
    (SqliteMigrationRunner.validateMigrations epochTimestamps sampleMigrations)
    ⟨legacyTables recorded, none⟩

theorem earlierMigrationCalls_stoppedValidation {legacy : List ℤ} {passes : MigrationTrace → Prop}
    (recorded : List SqlxMigrationRow) (calls : ℕ)
    (covers : ∀ version ∈ legacy, version ∈ sampleMigrations.map Migration.version)
    (passed : passes (stoppedValidation recorded calls).1) :
    EarlierMigrationCalls listingEngine epochTimestamps legacy passes
      ⟨legacyTables recorded, none⟩ (stoppedValidation recorded calls).2.rollback :=
  .again (.validate sampleMigrations) .untouched
    (replayCut_cutShort (fun _ _ _ => rfl) (fun _ _ _ => trivial) _ _ _) ⟨covers, passed⟩

/-- The second migration was not successful, and is the only one that is carried out. -/
theorem legacy_migrations_spared_sample :
    ∃ trace, transactional trace = [.begin, .execute "ALTER TABLE notes ADD title TEXT",
        .execute "UPDATE notes SET title = ''", .insertMigration 2 "add_title" "b", .commit] ∧
      SparesLegacy [1] sampleMigrations trace := by
  have earlier := @earlierMigrationCalls_stoppedValidation [1] (SeedsWhole [1])
    [⟨1, true⟩, ⟨2, false⟩] 5 (by decide) (by decide +kernel)
  let later := replayCut (migrationServer listingEngine epochTimestamps)
    (List.replicate 20 ⟨0, none, true⟩)
    (SqliteMigrationRunner.applyPendingMigrations epochTimestamps sampleMigrations)
    (stoppedValidation [⟨1, true⟩, ⟨2, false⟩] 5).2.rollback
  have cut : MigrationRunCutShort listingEngine epochTimestamps sampleMigrations
      (stoppedValidation [⟨1, true⟩, ⟨2, false⟩] 5).2.rollback later.1 later.2 :=
    replayCut_cutShort (fun _ _ _ => rfl) (fun _ _ _ => trivial) _ _ _
  refine ⟨later.1, by decide +kernel, ?_⟩
  exact @legacy_migrations_spared (List String) listingEngine epochTimestamps sampleMigrations
    (legacyTables [⟨1, true⟩, ⟨2, false⟩]) _ _ _ rfl rfl earlier (by decide) _ cut

/-- Both migrations were successful. A validation that is stopped after it has taken over the first
leaves the second to be carried out again. -/
theorem legacy_migration_carried_out_again :
    EarlierMigrationCalls listingEngine epochTimestamps [1, 2] (fun _ => True)
        ⟨legacyTables [⟨1, true⟩, ⟨2, true⟩], none⟩
        (stoppedValidation [⟨1, true⟩, ⟨2, true⟩] 5).2.rollback ∧
      ∃ trace report final, MigrationRun listingEngine epochTimestamps sampleMigrations
          (stoppedValidation [⟨1, true⟩, ⟨2, true⟩] 5).2.rollback trace (.ok report) final ∧
        transactional trace = [.begin, .execute "ALTER TABLE notes ADD title TEXT",
          .execute "UPDATE notes SET title = ''", .insertMigration 2 "add_title" "b", .commit] ∧
        ¬ SparesLegacy [1, 2] sampleMigrations trace := by
  refine ⟨earlierMigrationCalls_stoppedValidation _ 5 (by decide) trivial, ?_⟩
  obtain ⟨trace, report, final, run, sent⟩ := exists_output_of_replay
    (migrationServer listingEngine epochTimestamps) (fun _ _ _ => True)
    (List.replicate 20 ⟨0, none, true⟩)
    (SqliteMigrationRunner.applyPendingMigrations epochTimestamps sampleMigrations)
    (stoppedValidation [⟨1, true⟩, ⟨2, true⟩] 5).2.rollback
    (fun trace _ => transactional trace = [.begin, .execute "ALTER TABLE notes ADD title TEXT",
      .execute "UPDATE notes SET title = ''", .insertMigration 2 "add_title" "b", .commit])
    (by decide +kernel)
  refine ⟨trace, report, final, run, sent, fun spares => ?_⟩
  have recorded : .insertMigration 2 "add_title" "b" ∈ transactional trace := by
    rw [sent]
    decide
  exact spares.not_mem recorded (by decide)

end Memcore
