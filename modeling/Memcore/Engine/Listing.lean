import Memcore.Engine.Search
import Memcore.Stores.Cursors
import Memcore.Stores.OrgUsers

/-!
# Listings in pages

Three operations of the engine list stored items in pages: the memories of a tenant, its
audit events, and the users of an organisation. Each checks its limit, reads the cursor,
asks one store for one item more than the limit, and cuts a page from the answer. None
writes, so each is a function of the store.
-/
namespace Memcore

open Pages

def maxListMemoriesLimit : ℕ := 100

def maxListMemoryEventsLimit : ℕ := 100

def defaultListOrgUsersLimit : ℕ := 50

def maxListOrgUsersLimit : ℕ := 100

structure ListMemoriesInput where
  tenant : TenantContext
  memoryType : Option MemoryType
  queryText : Option String
  limit : ℕ
  cursor : Option String
  includeDeleted : Bool

structure ListMemoryEventsInput where
  tenant : TenantContext
  factId : Option Uuid
  operation : Option MemoryEventOperation
  createdAfter : Option Instant
  createdBefore : Option Instant
  queryText : Option String
  limit : ℕ
  cursor : Option String

structure ListOrgUsersInput where
  orgId : String
  limit : ℕ
  cursor : Option String

def normalizeListLimit (limit : ℕ) : MemcoreResult ℕ :=
  normalizeLimit "limit" limit maxListMemoriesLimit

def normalizeMemoryEventListLimit (limit : ℕ) : MemcoreResult ℕ :=
  normalizeLimit "limit" limit maxListMemoryEventsLimit

/-- A limit of zero asks for the default. -/
def normalizeOrgUsersLimit (limit : ℕ) : MemcoreResult ℕ :=
  let normalized := if limit = 0 then defaultListOrgUsersLimit else limit
  if normalized > maxListOrgUsersLimit then
    .error (.validationError ("limit cannot exceed " ++ toString maxListOrgUsersLimit))
  else .ok normalized

/-- An interval of instants must not be empty. -/
def validateEventDateRange : Option Instant → Option Instant → MemcoreResult Unit
  | some after, some before =>
      if after ≥ before then
        .error (.validationError "created_after must be earlier than created_before")
      else .ok ()
  | _, _ => .ok ()

def Fact.toCursor (fact : Fact) : PageCursor := ⟨Uuid.toText fact.id, fact.updatedAt⟩

def MemoryEvent.toCursor (event : MemoryEvent) : PageCursor :=
  ⟨Uuid.toText event.id, event.createdAt⟩

/-- A summary without an instant counts as one of the time of the call. -/
def OrgUserSummary.toCursor (now : Instant) (user : OrgUserSummary) : PageCursor :=
  ⟨user.userId, user.lastMemoryAt.getD now⟩

variable (encoding : CursorEncoding)

/-- The store's query behind a listing of memories. -/
def ListMemoriesInput.query (input : ListMemoriesInput) (limit : ℕ)
    (cursor : Option PageCursor) : FactSearchQuery where
  tenant := input.tenant
  memoryTypes := input.memoryType.map fun memoryType => [memoryType]
  queryText := input.queryText
  limit := limit
  cursor := cursor
  includeDeleted := input.includeDeleted

/-- The store's query behind a listing of events. -/
def ListMemoryEventsInput.query (input : ListMemoryEventsInput) (limit : ℕ)
    (cursor : Option PageCursor) : MemoryEventQuery where
  tenant := input.tenant
  factId := input.factId
  operation := input.operation
  createdAfter := input.createdAfter
  createdBefore := input.createdBefore
  queryText := input.queryText
  limit := limit
  cursor := cursor

def listMemories (store : MockFactStore) (input : ListMemoriesInput) :
    MemcoreResult (Page Fact String) := do
  validateTenant input.tenant
  let limit ← normalizeListLimit input.limit
  let cursor ← parseOptionalCursor encoding input.cursor
  let memories ← (store.searchFacts (input.query limit cursor)).1
  buildPage encoding memories limit Fact.toCursor

/-- Without an event store there are no events. -/
def listMemoryEvents (store : Option MockMemoryEventStore) (input : ListMemoryEventsInput) :
    MemcoreResult (Page MemoryEvent String) := do
  validateTenant input.tenant
  let limit ← normalizeMemoryEventListLimit input.limit
  let cursor ← parseOptionalCursor encoding input.cursor
  match store with
  | none => return ⟨[], none⟩
  | some store =>
      validateEventDateRange input.createdAfter input.createdBefore
      let events ← (MockMemoryEventStore.listEvents store (input.query limit cursor)).1
      buildPage encoding events limit MemoryEvent.toCursor

def listOrgUsers (store : MockFactStore) (now : Instant) (input : ListOrgUsersInput) :
    MemcoreResult (Page OrgUserSummary String) := do
  validateNonEmpty "org_id" input.orgId
  let limit ← normalizeOrgUsersLimit input.limit
  let cursor ← parseOptionalCursor encoding input.cursor
  let users ← store.listUsersByOrg ⟨input.orgId, limit, cursor⟩
  buildPage encoding users limit (OrgUserSummary.toCursor now)

end Memcore
