import Memcore.Stores.FactStore

/-!
# The audit log

The in-memory event store is a list in the order of recording. Queries page
through it from the latest event to the earliest.
-/
namespace Memcore

structure MemoryEventQuery where
  tenant : TenantContext
  factId : Option Uuid
  operation : Option MemoryEventOperation
  createdAfter : Option Instant
  createdBefore : Option Instant
  queryText : Option String
  limit : ℕ
  cursor : Option PageCursor

/-- A query about all users of an organisation, or one of them. -/
structure OrgMemoryEventQuery where
  orgId : String
  userId : Option String
  factId : Option Uuid
  operation : Option MemoryEventOperation
  createdAfter : Option Instant
  createdBefore : Option Instant
  queryText : Option String
  limit : ℕ
  cursor : Option PageCursor

/-- A query without filters. -/
def MemoryEventQuery.new (tenant : TenantContext) (limit : ℕ) : MemoryEventQuery :=
  ⟨tenant, none, none, none, none, none, limit, none⟩

/-- The calls of the event store that the engine makes. -/
inductive EventStoreCall where
  | recordEvent (tenant : TenantContext) (event : MemoryEvent)
  | listEvents (query : MemoryEventQuery)
  | deleteEventsOlderThan (tenant : TenantContext) (cutoff : Instant) (dryRun : Bool)

abbrev EventStoreCall.Answer : EventStoreCall → Type
  | recordEvent _ _ => MemoryEvent
  | listEvents _ => List MemoryEvent
  | deleteEventsOlderThan _ _ _ => ℕ

/-- Events in the order of recording. -/
abbrev MockMemoryEventStore := List MemoryEvent

def defaultMemoryEventListLimit : ℕ := 50

def maxMemoryEventListLimit : ℕ := 200

/-- A limit of zero asks for the default; too large a limit is an error. -/
def normalizeEventListLimit (limit : ℕ) : MemcoreResult ℕ :=
  if limit = 0 then .ok defaultMemoryEventListLimit
  else if maxMemoryEventListLimit < limit then
    .error (.validationError ("limit cannot exceed " ++ toString maxMemoryEventListLimit))
  else .ok limit

/-- Whether a text occurs in another one when case is ignored. -/
def containsCaseInsensitive (haystack needle : String) : Bool :=
  Texts.contains (Texts.toAsciiLowercase haystack) (Texts.toAsciiLowercase needle)

/-- Whether a text occurs in one of the searchable fields of an event. -/
def eventMatchesKeyword (event : MemoryEvent) (needle : String) (includeUserId : Bool) : Bool :=
  event.previousContent.any (containsCaseInsensitive · needle) ||
  event.newContent.any (containsCaseInsensitive · needle) ||
  event.providerName.any (containsCaseInsensitive · needle) ||
  event.modelName.any (containsCaseInsensitive · needle) ||
  (includeUserId && containsCaseInsensitive event.userId needle)

namespace MockMemoryEventStore

/-- Append an event of the calling tenant. -/
def recordEvent (store : MockMemoryEventStore) (tenant : TenantContext) (event : MemoryEvent) :
    MemcoreResult MemoryEvent × MockMemoryEventStore :=
  if event.tenant ≠ tenant then (.error .forbidden, store)
  else (.ok event, store ++ [event])

/-- Later events first; ties in descending order of identifiers. -/
def comesFirst (left right : MemoryEvent) : Prop :=
  right.createdAt < left.createdAt ∨ right.createdAt = left.createdAt ∧ right.id ≤ left.id

instance : DecidableRel comesFirst := fun _ _ => inferInstanceAs (Decidable (_ ∨ _ ∧ _))

/-- The filters of a query. -/
def matchesQuery (query : MemoryEventQuery) (event : MemoryEvent) : Bool :=
  decide (event.tenant = query.tenant) &&
  query.factId.all (fun factId => decide (event.factId = some factId)) &&
  query.operation.all (fun operation => decide (event.operation = operation)) &&
  query.createdAfter.all (fun createdAfter => decide (createdAfter ≤ event.createdAt)) &&
  query.createdBefore.all (fun createdBefore => decide (event.createdAt < createdBefore)) &&
  query.queryText.all (fun text => eventMatchesKeyword event text false) &&
  query.cursor.all (isAfterCursorInDescOrder event.createdAt (Uuid.toText event.id))

/-- The first page of the matching events. The limit is checked, but a limit of
zero then still asks for a page of size zero. -/
def listEvents (store : MockMemoryEventStore) (query : MemoryEventQuery) :
    MemcoreResult (List MemoryEvent) × MockMemoryEventStore :=
  match normalizeEventListLimit query.limit with
  | .error error => (.error error, store)
  | .ok _ =>
      let results := store.filter (matchesQuery query)
      (.ok ((results.insertionSort comesFirst).take (pageFetchLimit query.limit)), store)

/-- The filters of a query about an organisation. The keyword is also looked for in the
names of the users. -/
def matchesOrgQuery (query : OrgMemoryEventQuery) (event : MemoryEvent) : Bool :=
  decide (event.orgId = query.orgId) &&
  query.userId.all (fun userId => decide (event.userId = userId)) &&
  query.factId.all (fun factId => decide (event.factId = some factId)) &&
  query.operation.all (fun operation => decide (event.operation = operation)) &&
  query.createdAfter.all (fun createdAfter => decide (createdAfter ≤ event.createdAt)) &&
  query.createdBefore.all (fun createdBefore => decide (event.createdAt < createdBefore)) &&
  query.queryText.all (fun text => eventMatchesKeyword event text true) &&
  query.cursor.all (isAfterCursorInDescOrder event.createdAt (Uuid.toText event.id))

/-- Here a limit of zero asks for a page of the default size. -/
def listEventsByOrg (store : MockMemoryEventStore) (query : OrgMemoryEventQuery) :
    MemcoreResult (List MemoryEvent) :=
  match normalizeEventListLimit query.limit with
  | .error error => .error error
  | .ok limit =>
      let results := store.filter (matchesOrgQuery query)
      .ok ((results.insertionSort comesFirst).take (pageFetchLimit limit))

def countEventsByOrg (store : MockMemoryEventStore) (orgId : String) : MemcoreResult ℕ :=
  .ok (store.filter fun event => decide (event.orgId = orgId)).length

/-- Remove the events of a tenant recorded before a cutoff, or only count them. -/
def deleteEventsOlderThan (store : MockMemoryEventStore) (tenant : TenantContext)
    (cutoff : Instant) (dryRun : Bool) : MemcoreResult ℕ × MockMemoryEventStore :=
  let isOld := fun event : MemoryEvent =>
    decide (event.tenant = tenant) && decide (event.createdAt < cutoff)
  if dryRun then (.ok (store.filter isOld).length, store)
  else
    let remaining := store.filter fun event => !isOld event
    (.ok (store.length - remaining.length), remaining)

/-- The store answers one call at a time. -/
def serve (store : MockMemoryEventStore) :
    (call : EventStoreCall) → MemcoreResult call.Answer × MockMemoryEventStore
  | .recordEvent tenant event => recordEvent store tenant event
  | .listEvents query => listEvents store query
  | .deleteEventsOlderThan tenant cutoff dryRun => deleteEventsOlderThan store tenant cutoff dryRun

/-- An event of the calling tenant is always recorded. -/
theorem recordEvent_eq (store : MockMemoryEventStore) (tenant : TenantContext)
    (event : MemoryEvent) (own : event.tenant = tenant) :
    recordEvent store tenant event = (.ok event, store ++ [event]) := by
  simp [recordEvent, own]

end MockMemoryEventStore

end Memcore
