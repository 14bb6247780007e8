import Memcore.Engine.Ports
import Memcore.Foundations.Expansion
import Memcore.Stores.SqliteFactStore

/-!
# The statements of the fact store in SQLite

The database carries out one statement at a time, and other callers may get in between two
statements of one operation. Here an operation of the fact store is the program of its
statements. The other calls of the engine are passed on as they are.

An operation that nobody interrupts is the operation of the store.
-/
namespace Memcore

open Programs

/-- The statements on the table of facts. They answer with rows or with a number of rows. -/
inductive FactStatement where
  | countFact (tenant : TenantContext) (factId : Uuid)
  | insertRow (fact : Fact) (metadata : String)
  | updateRow (tenant : TenantContext) (fact : Fact) (metadata : String)
  | selectFact (tenant : TenantContext) (factId : Uuid)
  | selectFacts (query : FactSearchQuery)
  | markDeleted (tenant : TenantContext) (factId : Uuid) (deletedAt : Instant)
  | deleteRows (tenant : TenantContext)
  | selectExpired (tenant : TenantContext) (cutoff : Instant)
  | markExpired (tenant : TenantContext) (cutoff deletedAt : Instant)

abbrev FactStatement.Answer : FactStatement → Type
  | countFact _ _ => ℕ
  | insertRow _ _ => Unit
  | updateRow _ _ _ => ℕ
  | selectFact _ _ => Option FactRow
  | selectFacts _ => List FactRow
  | markDeleted _ _ _ => ℕ
  | deleteRows _ => ℕ
  | selectExpired _ _ => List String
  | markExpired _ _ _ => ℕ

/-- A statement of the database, or a call that the fact store has no part in. -/
inductive SqlitePort where
  | sql (statement : FactStatement)
  | other (port : Port)

abbrev SqlitePort.Answer : SqlitePort → Type
  | sql statement => statement.Answer
  | other port => port.Answer

abbrev sqlitePorts : Interface := ⟨SqlitePort, SqlitePort.Answer⟩

abbrev SqliteProgram (α : Type) := Program sqlitePorts MemcoreError α

abbrev SqliteEvent := Event sqlitePorts MemcoreError

namespace SqliteFactStore

/-! ## Operations as programs -/

namespace Stepwise

def execute (statement : FactStatement) : SqliteProgram statement.Answer :=
  @Program.call sqlitePorts MemcoreError (.sql statement)

def passOn (port : Port) : SqliteProgram port.Answer :=
  @Program.call sqlitePorts MemcoreError (.other port)

def now : SqliteProgram Instant := passOn (.system .now)

variable (texts : RowTexts)

def insertFact (tenant : TenantContext) (fact : Fact) : SqliteProgram Fact :=
  if fact.tenant ≠ tenant then Program.fail .forbidden
  else do
    let existing ← execute (.countFact tenant fact.id)
    if existing > 0 then
      Program.fail (.conflict ("fact already exists: " ++ Uuid.toText fact.id))
    else
      let metadata ← Program.check (metadataToStr texts fact.metadata)
      execute (.insertRow fact metadata)
      return fact

def updateFact (tenant : TenantContext) (fact : Fact) : SqliteProgram Fact :=
  if fact.tenant ≠ tenant then Program.fail .forbidden
  else do
    let metadata ← Program.check (metadataToStr texts fact.metadata)
    let affected ← execute (.updateRow tenant fact metadata)
    if affected = 0 then
      Program.fail (.notFound ("fact not found: " ++ Uuid.toText fact.id))
    else return fact

def getFact (tenant : TenantContext) (factId : Uuid) : SqliteProgram (Option Fact) := do
  match ← execute (.selectFact tenant factId) with
  | some row => Program.check ((rowToFact texts row).map some)
  | none => return none

def searchFacts (query : FactSearchQuery) : SqliteProgram (List Fact) :=
  if pageFetchLimit query.limit > maxLimit then
    Program.fail (storageError "fact search limit out of range for sqlite"
      "out of range integral type conversion attempted")
  else do
    let rows ← execute (.selectFacts query)
    Program.check (rows.mapM (rowToFact texts))

def softDeleteFact (tenant : TenantContext) (factId : Uuid) : SqliteProgram Unit := do
  let deletedAt ← now
  let affected ← execute (.markDeleted tenant factId deletedAt)
  if affected = 0 then
    Program.fail (.notFound ("fact not found: " ++ Uuid.toText factId))
  else return ()

def deleteUserData (tenant : TenantContext) : SqliteProgram Unit := do
  let _ ← execute (.deleteRows tenant)
  return ()

def deleteFactsOlderThan (tenant : TenantContext) (cutoff : Instant) (dryRun : Bool) :
    SqliteProgram RetentionPruneResult := do
  let ids ← execute (.selectExpired tenant cutoff)
  let factIds ← Program.check (ids.mapM (parseUuid texts fun _ => "invalid fact id"))
  if dryRun then return ⟨factIds.length, []⟩
  else if factIds.isEmpty then return ⟨0, []⟩
  else
    let deletedAt ← now
    let affected ← execute (.markExpired tenant cutoff deletedAt)
    return ⟨affected, factIds⟩

/-- A call of the engine, as the statements that carry it out. -/
def perform : (port : Port) → SqliteProgram port.Answer
  | .facts (.insertFact tenant fact) => insertFact texts tenant fact
  | .facts (.updateFact tenant fact) => updateFact texts tenant fact
  | .facts (.getFact tenant factId) => getFact texts tenant factId
  | .facts (.searchFacts query) => searchFacts texts query
  | .facts (.softDeleteFact tenant factId) => softDeleteFact tenant factId
  | .facts (.deleteUserData tenant) => deleteUserData tenant
  | .facts (.deleteFactsOlderThan tenant cutoff dryRun) =>
      deleteFactsOlderThan texts tenant cutoff dryRun
  | .vectors call => passOn (.vectors call)
  | .events call => passOn (.events call)
  | .provider call => passOn (.provider call)
  | .system call => passOn (.system call)
  | .cache call => passOn (.cache call)
  | .coordinator call => passOn (.coordinator call)

end Stepwise

/-! ## The database -/

variable (texts : RowTexts)

theorem assignFact_bound_id (fact : Fact) (metadata : String) (row : FactRow) :
    (assignFact (bindFact texts fact metadata none) row).id = row.id :=
  assignFact_id _ row

theorem assignDeletedAt_text_id (deletedAt : Instant) (row : FactRow) :
    (assignDeletedAt (texts.toRfc3339 deletedAt) row).id = row.id :=
  assignDeletedAt_id _ row

/-- One statement is carried out on the rows. -/
def executeStatement (rows : FactRows) :
    (statement : FactStatement) → MemcoreResult statement.Answer × FactRows
  | .countFact tenant factId => (.ok (rows.rows.countP (ofFact tenant factId)), rows)
  | .insertRow fact metadata =>
      match SqlTables.insert (bindFact texts fact metadata none) rows with
      | some inserted => (.ok (), inserted)
      | none => (.error (storageError "failed to insert fact"
          (uniqueConstraintFailed "facts.id")), rows)
  | .updateRow tenant fact metadata =>
      let result := SqlTables.update (ofActiveFact tenant fact.id)
        (assignFact (bindFact texts fact metadata none))
        (assignFact_bound_id texts fact metadata) rows
      (.ok result.1, result.2)
  | .selectFact tenant factId => (.ok (rows.rows.find? (ofActiveFact tenant factId)), rows)
  | .selectFacts query =>
      let found := (rows.rows.filter (selects texts query)).insertionSort rowComesFirst
      (.ok (found.take (pageFetchLimit query.limit)), rows)
  | .markDeleted tenant factId deletedAt =>
      let result := SqlTables.update (ofActiveFact tenant factId)
        (assignDeletedAt (texts.toRfc3339 deletedAt))
        (assignDeletedAt_text_id texts deletedAt) rows
      (.ok result.1, result.2)
  | .deleteRows tenant =>
      let result := SqlTables.delete (ofTenant tenant) rows
      (.ok result.1, result.2)
  | .selectExpired tenant cutoff =>
      (.ok ((rows.rows.filter (ofExpired texts tenant cutoff)).map FactRow.id), rows)
  | .markExpired tenant cutoff deletedAt =>
      let result := SqlTables.update (ofExpired texts tenant cutoff)
        (assignDeletedAt (texts.toRfc3339 deletedAt))
        (assignDeletedAt_text_id texts deletedAt) rows
      (.ok result.1, result.2)

end SqliteFactStore

/-- The table of facts, and the world in which the store in memory has no part. -/
structure SqliteWorld where
  rows : FactRows
  surroundings : World

/-- The database and the surroundings answer one call at a time. -/
def SqliteWorld.serve (platform : Platform) (texts : RowTexts) (choice : Choice)
    (world : SqliteWorld) : (port : SqlitePort) → MemcoreResult port.Answer × SqliteWorld
  | .sql statement => match choice.fault with
      | some error => (.error error, world)
      | none =>
          let served := SqliteFactStore.executeStatement texts world.rows statement
          (served.1, { world with rows := served.2 })
  | .other port =>
      let served := World.serve platform choice port world.surroundings
      (served.1, { world with surroundings := served.2 })

def sqliteServer (platform : Platform) (texts : RowTexts) :
    Server sqlitePorts MemcoreError SqliteWorld Choice where
  ready choice port world := match port with
    | .sql _ => true
    | .other port => World.ready choice port world.surroundings
  serve choice port world := world.serve platform texts choice port

/-! ## Operations without interruption -/

/-- An operation of a store in one step. -/
def FactStore.serve {σ : Type} (store : FactStore σ) (now : Instant) (state : σ) :
    (call : FactStoreCall) → MemcoreResult call.Answer × σ
  | .insertFact tenant fact => store.insertFact tenant fact state
  | .updateFact tenant fact => store.updateFact tenant fact state
  | .getFact tenant factId => (store.getFact tenant factId state, state)
  | .searchFacts query => (store.searchFacts query state, state)
  | .softDeleteFact tenant factId => store.softDeleteFact now tenant factId state
  | .deleteUserData tenant => store.deleteUserData tenant state
  | .deleteFactsOlderThan tenant cutoff dryRun =>
      store.deleteFactsOlderThan now tenant cutoff dryRun state

namespace SqliteFactStore

/-- No statement fails on its own, and the clock stands still. -/
def unhindered (now : Instant) : SqliteWorld → SqlitePort → Choice → Prop :=
  fun _ _ choice => choice.fault = none ∧ choice.now = now

section Uninterrupted

variable {platform : Platform} {texts : RowTexts} {clock : Instant} {world : SqliteWorld} {α : Type}

theorem ensures_execute {statement : FactStatement}
    {post : MemcoreResult statement.Answer → SqliteWorld → Prop}
    (enough : post (executeStatement texts world.rows statement).1
      { world with rows := (executeStatement texts world.rows statement).2 }) :
    Ensures ((sqliteServer platform texts).spec (unhindered clock)) (Stepwise.execute statement)
      post world := by
  apply (ensures_call ((sqliteServer platform texts).spec (unhindered clock)) world
    (SqlitePort.sql statement) post).mpr
  intro choice _ admitted
  simp only [sqliteServer, SqliteWorld.serve, admitted.1]
  exact enough

theorem ensures_now {post : MemcoreResult Instant → SqliteWorld → Prop}
    (enough : post (.ok clock) world) :
    Ensures ((sqliteServer platform texts).spec (unhindered clock)) Stepwise.now post world := by
  apply (ensures_call ((sqliteServer platform texts).spec (unhindered clock)) world
    (SqlitePort.other (.system .now)) post).mpr
  intro choice _ admitted
  obtain ⟨_, rfl⟩ := admitted
  exact enough

/-- What the store has answered and left behind, with nothing else changed. -/
def Leaves (world : SqliteWorld) (result : MemcoreResult α × FactRows) (outcome : MemcoreResult α)
    (final : SqliteWorld) : Prop :=
  result = (outcome, final.rows) ∧ final.surroundings = world.surroundings

theorem insertFact_uninterrupted (tenant : TenantContext) (fact : Fact) :
    Ensures ((sqliteServer platform texts).spec (unhindered clock))
      (Stepwise.insertFact texts tenant fact) (Leaves world (insertFact texts tenant fact world.rows))
      world := by
  unfold Stepwise.insertFact insertFact
  split_ifs with foreign present
  · exact (ensures_fail _ _ _ _).mpr ⟨rfl, rfl⟩
  · apply (ensures_bind _ _ _ _ _).mpr
    apply ensures_execute
    show Ensures _ (ite _ _ _) _ world
    rw [if_pos present]
    exact (ensures_fail _ _ _ _).mpr ⟨rfl, rfl⟩
  · apply (ensures_bind _ _ _ _ _).mpr
    apply ensures_execute
    show Ensures _ (ite _ _ _) _ world
    rw [if_neg present]
    apply (ensures_bind _ _ _ _ _).mpr
    apply (ensures_check _ _ _ _).mpr
    cases metadataToStr texts fact.metadata with
    | error error => exact ⟨rfl, rfl⟩
    | ok metadata =>
      apply (ensures_bind _ _ _ _ _).mpr
      apply ensures_execute
      dsimp only [executeStatement]
      cases SqlTables.insert (bindFact texts fact metadata none) world.rows with
      | none => exact ⟨rfl, rfl⟩
      | some inserted => exact (ensures_pure _ _ _ _).mpr ⟨rfl, rfl⟩

theorem updateFact_uninterrupted (tenant : TenantContext) (fact : Fact) :
    Ensures ((sqliteServer platform texts).spec (unhindered clock))
      (Stepwise.updateFact texts tenant fact) (Leaves world (updateFact texts tenant fact world.rows))
      world := by
  unfold Stepwise.updateFact updateFact
  split_ifs with foreign
  · exact (ensures_fail _ _ _ _).mpr ⟨rfl, rfl⟩
  · apply (ensures_bind _ _ _ _ _).mpr
    apply (ensures_check _ _ _ _).mpr
    cases metadataToStr texts fact.metadata with
    | error error => exact ⟨rfl, rfl⟩
    | ok metadata =>
      apply (ensures_bind _ _ _ _ _).mpr
      apply ensures_execute
      show Ensures _ (ite _ _ _) _ _
      dsimp only
      split_ifs
      · exact (ensures_fail _ _ _ _).mpr ⟨rfl, rfl⟩
      · exact (ensures_pure _ _ _ _).mpr ⟨rfl, rfl⟩

theorem getFact_uninterrupted (tenant : TenantContext) (factId : Uuid) :
    Ensures ((sqliteServer platform texts).spec (unhindered clock))
      (Stepwise.getFact texts tenant factId)
      (Leaves world (getFact texts tenant factId world.rows, world.rows)) world := by
  apply (ensures_bind _ _ _ _ _).mpr
  apply ensures_execute
  dsimp only [executeStatement, andThen]
  unfold getFact
  cases world.rows.rows.find? (ofActiveFact tenant factId) with
  | none => exact (ensures_pure _ _ _ _).mpr ⟨rfl, rfl⟩
  | some row => exact (ensures_check _ _ _ _).mpr ⟨rfl, rfl⟩

theorem searchFacts_uninterrupted (query : FactSearchQuery) :
    Ensures ((sqliteServer platform texts).spec (unhindered clock))
      (Stepwise.searchFacts texts query)
      (Leaves world (searchFacts texts query world.rows, world.rows)) world := by
  unfold Stepwise.searchFacts searchFacts
  split_ifs
  · exact (ensures_fail _ _ _ _).mpr ⟨rfl, rfl⟩
  · apply (ensures_bind _ _ _ _ _).mpr
    apply ensures_execute
    exact (ensures_check _ _ _ _).mpr ⟨rfl, rfl⟩

theorem softDeleteFact_uninterrupted (tenant : TenantContext) (factId : Uuid) :
    Ensures ((sqliteServer platform texts).spec (unhindered clock))
      (Stepwise.softDeleteFact tenant factId)
      (Leaves world (softDeleteFact texts clock tenant factId world.rows)) world := by
  apply (ensures_bind _ _ _ _ _).mpr
  apply ensures_now
  apply (ensures_bind _ _ _ _ _).mpr
  apply ensures_execute
  show Ensures _ (ite _ _ _) _ _
  unfold softDeleteFact
  dsimp only [executeStatement]
  split_ifs
  · exact (ensures_fail _ _ _ _).mpr ⟨rfl, rfl⟩
  · exact (ensures_pure _ _ _ _).mpr ⟨rfl, rfl⟩

theorem deleteUserData_uninterrupted (tenant : TenantContext) :
    Ensures ((sqliteServer platform texts).spec (unhindered clock))
      (Stepwise.deleteUserData tenant) (Leaves world (deleteUserData tenant world.rows)) world := by
  apply (ensures_bind _ _ _ _ _).mpr
  apply ensures_execute
  exact (ensures_pure _ _ _ _).mpr ⟨rfl, rfl⟩

theorem deleteFactsOlderThan_uninterrupted (tenant : TenantContext) (cutoff : Instant)
    (dryRun : Bool) :
    Ensures ((sqliteServer platform texts).spec (unhindered clock))
      (Stepwise.deleteFactsOlderThan texts tenant cutoff dryRun)
      (Leaves world (deleteFactsOlderThan texts clock tenant cutoff dryRun world.rows)) world := by
  apply (ensures_bind _ _ _ _ _).mpr
  apply ensures_execute
  apply (ensures_bind _ _ _ _ _).mpr
  apply (ensures_check _ _ _ _).mpr
  have read : ((world.rows.rows.filter (ofExpired texts tenant cutoff)).map FactRow.id).mapM
      (parseUuid texts fun _ => "invalid fact id") =
        (world.rows.rows.filter (ofExpired texts tenant cutoff)).mapM fun row =>
          parseUuid texts (fun _ => "invalid fact id") row.id := List.mapM_map ..
  unfold deleteFactsOlderThan
  dsimp only [executeStatement]
  rw [read]
  cases (world.rows.rows.filter (ofExpired texts tenant cutoff)).mapM fun row =>
      parseUuid texts (fun _ => "invalid fact id") row.id with
  | error error => exact ⟨rfl, rfl⟩
  | ok factIds =>
    show Ensures _ (ite _ _ _) _ _
    dsimp only
    split_ifs
    · exact (ensures_pure _ _ _ _).mpr ⟨rfl, rfl⟩
    · exact (ensures_pure _ _ _ _).mpr ⟨rfl, rfl⟩
    · apply (ensures_bind _ _ _ _ _).mpr
      apply ensures_now
      apply (ensures_bind _ _ _ _ _).mpr
      apply ensures_execute
      exact (ensures_pure _ _ _ _).mpr ⟨rfl, rfl⟩

/-- An operation whose statements nobody interrupts is the one of the store. -/
theorem perform_uninterrupted (call : FactStoreCall) :
    Ensures ((sqliteServer platform texts).spec (unhindered clock))
      (Stepwise.perform texts (.facts call))
      (Leaves world ((sqliteFactStore texts).serve clock world.rows call)) world := by
  cases call with
  | insertFact tenant fact => exact insertFact_uninterrupted tenant fact
  | updateFact tenant fact => exact updateFact_uninterrupted tenant fact
  | getFact tenant factId => exact getFact_uninterrupted tenant factId
  | searchFacts query => exact searchFacts_uninterrupted query
  | softDeleteFact tenant factId => exact softDeleteFact_uninterrupted tenant factId
  | deleteUserData tenant => exact deleteUserData_uninterrupted tenant
  | deleteFactsOlderThan tenant cutoff dryRun =>
    exact deleteFactsOlderThan_uninterrupted tenant cutoff dryRun

end Uninterrupted

end SqliteFactStore

end Memcore
