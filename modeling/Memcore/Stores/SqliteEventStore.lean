import Memcore.Stores.EventStore
import Memcore.Stores.SqliteFactStore

/-!
# The event store in SQLite

One table of events, with texts for identifiers, operations, instants and metadata. The
store and the one in memory have the same interface. No statement checks the limit of a
query, but it has to fit a 64-bit integer.
-/
namespace Memcore

open KeyedTables

/-- The operations of an event store. -/
structure EventStore (σ : Type) where
  recordEvent (tenant : TenantContext) (event : MemoryEvent) : σ → MemcoreResult MemoryEvent × σ
  listEvents (query : MemoryEventQuery) : σ → MemcoreResult (List MemoryEvent)
  listEventsByOrg (query : OrgMemoryEventQuery) : σ → MemcoreResult (List MemoryEvent)
  deleteEventsOlderThan (tenant : TenantContext) (cutoff : Instant) (dryRun : Bool) :
    σ → MemcoreResult ℕ × σ
  countEventsByOrg (orgId : String) : σ → MemcoreResult ℕ

def mockEventStore : EventStore MockMemoryEventStore where
  recordEvent tenant event store := MockMemoryEventStore.recordEvent store tenant event
  listEvents query store := (MockMemoryEventStore.listEvents store query).1
  listEventsByOrg query store := MockMemoryEventStore.listEventsByOrg store query
  deleteEventsOlderThan tenant cutoff dryRun store :=
    MockMemoryEventStore.deleteEventsOlderThan store tenant cutoff dryRun
  countEventsByOrg orgId store := MockMemoryEventStore.countEventsByOrg store orgId

/-! ## Conversions -/

def memoryEventOperationToStr : MemoryEventOperation → String
  | .add => "add"
  | .update => "update"
  | .delete => "delete"
  | .noOp => "no_op"
  | .forgetUser => "forget_user"

def memoryEventOperationFromStr : String → MemcoreResult MemoryEventOperation
  | "add" => .ok .add
  | "update" => .ok .update
  | "delete" => .ok .delete
  | "no_op" => .ok .noOp
  | "forget_user" => .ok .forgetUser
  | value => .error (.storageError ("invalid memory event operation value: " ++ value))

theorem memoryEventOperationFromStr_toStr (operation : MemoryEventOperation) :
    memoryEventOperationFromStr (memoryEventOperationToStr operation) = .ok operation := by
  cases operation <;> rfl

theorem memoryEventOperationToStr_injective {left right : MemoryEventOperation}
    (same : memoryEventOperationToStr left = memoryEventOperationToStr right) : left = right := by
  have reads := congrArg memoryEventOperationFromStr same
  rw [memoryEventOperationFromStr_toStr, memoryEventOperationFromStr_toStr] at reads
  exact Except.ok.inj reads

structure EventRow where
  id : String
  orgId : String
  userId : String
  factId : Option String
  operation : String
  inputText : Option String
  previousContent : Option String
  newContent : Option String
  providerName : Option String
  modelName : Option String
  metadata : String
  createdAt : String

abbrev EventRows := Table String EventRow EventRow.id

namespace SqliteEventStore

variable (texts : RowTexts)

def optionalUuidFromStr : Option String → MemcoreResult (Option Uuid)
  | some raw => (SqliteFactStore.parseUuid texts (fun value => "invalid fact_id '" ++ value ++ "'")
      raw).map some
  | none => .ok none

def rowToMemoryEvent (row : EventRow) : MemcoreResult MemoryEvent := do
  let id ← SqliteFactStore.parseUuid texts
    (fun value => "invalid memory event id '" ++ value ++ "'") row.id
  let factId ← optionalUuidFromStr texts row.factId
  let operation ← memoryEventOperationFromStr row.operation
  let metadata ← SqliteFactStore.metadataFromStr texts row.metadata
  let createdAt ← SqliteFactStore.datetimeFromStr texts row.createdAt
  return {
    id := id
    orgId := row.orgId
    userId := row.userId
    factId := factId
    operation := operation
    inputText := row.inputText
    previousContent := row.previousContent
    newContent := row.newContent
    providerName := row.providerName
    modelName := row.modelName
    metadata := metadata
    createdAt := createdAt }

/-- The values that a statement binds for an event, with the text of its metadata. -/
def bindEvent (event : MemoryEvent) (metadata : String) : EventRow where
  id := Uuid.toText event.id
  orgId := event.orgId
  userId := event.userId
  factId := event.factId.map Uuid.toText
  operation := memoryEventOperationToStr event.operation
  inputText := event.inputText
  previousContent := event.previousContent
  newContent := event.newContent
  providerName := event.providerName
  modelName := event.modelName
  metadata := metadata
  createdAt := texts.toRfc3339 event.createdAt

/-! ## Statements -/

def ofTenant (tenant : TenantContext) (row : EventRow) : Bool :=
  decide (row.orgId = tenant.orgId) && decide (row.userId = tenant.userId)

def recordEvent (tenant : TenantContext) (event : MemoryEvent) (rows : EventRows) :
    MemcoreResult MemoryEvent × EventRows :=
  if event.tenant ≠ tenant then (.error .forbidden, rows)
  else match SqliteFactStore.metadataToStr texts event.metadata with
    | .error error => (.error error, rows)
    | .ok metadata =>
        match SqlTables.insert (bindEvent texts event metadata) rows with
        | some inserted => (.ok event, inserted)
        | none => (.error (storageError "failed to insert memory event"
            (uniqueConstraintFailed "memory_events.id")), rows)

/-- The optional filters that all queries have. -/
def selectsFilters (factId : Option Uuid) (operation : Option MemoryEventOperation)
    (createdAfter createdBefore : Option Instant) (row : EventRow) : Bool :=
  factId.all (fun factId => decide (row.factId = some (Uuid.toText factId))) &&
  operation.all (fun operation => decide (row.operation = memoryEventOperationToStr operation)) &&
  createdAfter.all (fun createdAfter =>
    !decide (row.createdAt < texts.toRfc3339 createdAfter)) &&
  createdBefore.all (fun createdBefore =>
    decide (row.createdAt < texts.toRfc3339 createdBefore))

/-- LOWER(COALESCE(column, '')) LIKE pattern. -/
def columnLike (column : Option String) (pattern : String) : Bool :=
  SqliteFactStore.like (Texts.toAsciiLowercase (column.getD "")) pattern

/-- The filter for a keyword. An absent column counts as an empty one. -/
def selectsKeyword (queryText : Option String) (includeUserId : Bool) (row : EventRow) : Bool :=
  queryText.all fun text =>
    let pattern := SqliteFactStore.sqliteLikePattern text
    columnLike row.previousContent pattern || columnLike row.newContent pattern ||
    columnLike row.providerName pattern || columnLike row.modelName pattern ||
    (includeUserId && SqliteFactStore.like (Texts.toAsciiLowercase row.userId) pattern)

/-- The conditions of a query about a tenant. -/
def selects (query : MemoryEventQuery) (row : EventRow) : Bool :=
  ofTenant query.tenant row &&
  selectsFilters texts query.factId query.operation query.createdAfter query.createdBefore row &&
  selectsKeyword query.queryText false row &&
  SqliteFactStore.selectsBehind texts query.cursor row.createdAt row.id

/-- The conditions of a query about an organisation. -/
def selectsOfOrg (query : OrgMemoryEventQuery) (row : EventRow) : Bool :=
  decide (row.orgId = query.orgId) &&
  query.userId.all (fun userId => decide (row.userId = userId)) &&
  selectsFilters texts query.factId query.operation query.createdAfter query.createdBefore row &&
  selectsKeyword query.queryText true row &&
  SqliteFactStore.selectsBehind texts query.cursor row.createdAt row.id

/-- ORDER BY created_at DESC, id DESC. -/
def rowComesFirst (left right : EventRow) : Prop :=
  right.createdAt < left.createdAt ∨ right.createdAt = left.createdAt ∧ right.id ≤ left.id

instance : DecidableRel rowComesFirst := fun _ _ => inferInstanceAs (Decidable (_ ∨ _ ∧ _))

/-- The first rows that a condition selects, read one by one. -/
def fetch (condition : EventRow → Bool) (limit : ℕ) (limitContext : String) (rows : EventRows) :
    MemcoreResult (List MemoryEvent) :=
  if pageFetchLimit limit > SqliteFactStore.maxLimit then
    .error (storageError limitContext "out of range integral type conversion attempted")
  else
    let found := (rows.rows.filter condition).insertionSort rowComesFirst
    (found.take (pageFetchLimit limit)).mapM (rowToMemoryEvent texts)

def listEvents (query : MemoryEventQuery) (rows : EventRows) : MemcoreResult (List MemoryEvent) :=
  fetch texts (selects texts query) query.limit "event list limit out of range for sqlite" rows

def listEventsByOrg (query : OrgMemoryEventQuery) (rows : EventRows) :
    MemcoreResult (List MemoryEvent) :=
  fetch texts (selectsOfOrg texts query) query.limit
    "org event list limit out of range for sqlite" rows

/-- Selection of the old events of a tenant. -/
def isOld (tenant : TenantContext) (cutoff : Instant) (row : EventRow) : Bool :=
  ofTenant tenant row && decide (row.createdAt < texts.toRfc3339 cutoff)

def deleteEventsOlderThan (tenant : TenantContext) (cutoff : Instant) (dryRun : Bool)
    (rows : EventRows) : MemcoreResult ℕ × EventRows :=
  if dryRun then (.ok (rows.rows.countP (isOld texts tenant cutoff)), rows)
  else
    let result := SqlTables.delete (isOld texts tenant cutoff) rows
    (.ok result.1, result.2)

def countEventsByOrg (orgId : String) (rows : EventRows) : MemcoreResult ℕ :=
  .ok (rows.rows.countP fun row => decide (row.orgId = orgId))

end SqliteEventStore

def sqliteEventStore (texts : RowTexts) : EventStore EventRows where
  recordEvent := SqliteEventStore.recordEvent texts
  listEvents := SqliteEventStore.listEvents texts
  listEventsByOrg := SqliteEventStore.listEventsByOrg texts
  deleteEventsOlderThan := SqliteEventStore.deleteEventsOlderThan texts
  countEventsByOrg := SqliteEventStore.countEventsByOrg

end Memcore
