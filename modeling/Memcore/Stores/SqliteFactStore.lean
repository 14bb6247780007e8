import Memcore.Foundations.SqlPatterns
import Memcore.Foundations.SqlTables
import Memcore.Stores.FactStore
import Memcore.Stores.SqlTexts

/-!
# The fact store in SQLite

One table of rows with texts for identifiers, enumerations, instants and metadata. A
soft-deleted row has the instant of its deletion. The store and the one in memory have
the same interface. Failures of the connection are out of scope.
-/
namespace Memcore

open KeyedTables

/-- The operations of a fact store that the claims about stores are stated for. -/
structure FactStore (σ : Type) where
  insertFact (tenant : TenantContext) (fact : Fact) : σ → MemcoreResult Fact × σ
  updateFact (tenant : TenantContext) (fact : Fact) : σ → MemcoreResult Fact × σ
  getFact (tenant : TenantContext) (factId : Uuid) : σ → MemcoreResult (Option Fact)
  searchFacts (query : FactSearchQuery) : σ → MemcoreResult (List Fact)
  softDeleteFact (now : Instant) (tenant : TenantContext) (factId : Uuid) :
    σ → MemcoreResult Unit × σ
  deleteUserData (tenant : TenantContext) : σ → MemcoreResult Unit × σ
  deleteFactsOlderThan (now : Instant) (tenant : TenantContext) (cutoff : Instant)
    (dryRun : Bool) : σ → MemcoreResult RetentionPruneResult × σ

def mockFactStore : FactStore MockFactStore where
  insertFact tenant fact store := store.insertFact tenant fact
  updateFact tenant fact store := store.updateFact tenant fact
  getFact tenant factId store := (store.getFact tenant factId).1
  searchFacts query store := (store.searchFacts query).1
  softDeleteFact _ tenant factId store := store.softDeleteFact tenant factId
  deleteUserData tenant store := store.deleteUserData tenant
  deleteFactsOlderThan _ tenant cutoff dryRun store :=
    store.deleteFactsOlderThan tenant cutoff dryRun

/-! ## Conversions -/

def memoryTypeToStr : MemoryType → String
  | .profile => "profile"
  | .preference => "preference"
  | .project => "project"
  | .conversation => "conversation"
  | .task => "task"
  | .entity => "entity"
  | .skill => "skill"
  | .system => "system"

def memoryTypeFromStr : String → MemcoreResult MemoryType
  | "profile" => .ok .profile
  | "preference" => .ok .preference
  | "project" => .ok .project
  | "conversation" => .ok .conversation
  | "task" => .ok .task
  | "entity" => .ok .entity
  | "skill" => .ok .skill
  | "system" => .ok .system
  | value => .error (.storageError ("invalid memory_type value: " ++ value))

def memorySourceToStr : MemorySource → String
  | .userMessage => "user_message"
  | .assistantMessage => "assistant_message"
  | .apiImport => "api_import"
  | .manual => "manual"
  | .system => "system"

def memorySourceFromStr : String → MemcoreResult MemorySource
  | "user_message" => .ok .userMessage
  | "assistant_message" => .ok .assistantMessage
  | "api_import" => .ok .apiImport
  | "manual" => .ok .manual
  | "system" => .ok .system
  | value => .error (.storageError ("invalid source value: " ++ value))

theorem memoryTypeFromStr_toStr (memoryType : MemoryType) :
    memoryTypeFromStr (memoryTypeToStr memoryType) = .ok memoryType := by
  cases memoryType <;> rfl

theorem memorySourceFromStr_toStr (source : MemorySource) :
    memorySourceFromStr (memorySourceToStr source) = .ok source := by
  cases source <;> rfl

theorem memoryTypeToStr_injective {left right : MemoryType}
    (same : memoryTypeToStr left = memoryTypeToStr right) : left = right := by
  have reads := congrArg memoryTypeFromStr same
  rw [memoryTypeFromStr_toStr, memoryTypeFromStr_toStr] at reads
  exact Except.ok.inj reads

structure FactRow where
  id : String
  orgId : String
  userId : String
  memoryType : String
  content : String
  summary : Option String
  source : String
  confidence : ℚ
  importance : ℚ
  validAt : Option String
  invalidAt : Option String
  recordedAt : String
  updatedAt : String
  metadata : String
  deletedAt : Option String

abbrev FactRows := Table String FactRow FactRow.id

namespace SqliteFactStore

variable (texts : RowTexts)

def datetimeFromStr (value : String) : MemcoreResult Instant :=
  match texts.parseFromRfc3339 value with
  | .ok instant => .ok instant
  | .error error => .error (.storageError ("invalid datetime value '" ++ value ++ "': " ++ error))

def optionalDatetimeFromStr : Option String → MemcoreResult (Option Instant)
  | some raw => (datetimeFromStr texts raw).map some
  | none => .ok none

def metadataToStr (value : Value) : MemcoreResult String :=
  match texts.jsonToString value with
  | .ok text => .ok text
  | .error error => .error (.storageError ("failed to serialize metadata: " ++ error))

def metadataFromStr (text : String) : MemcoreResult Value :=
  match texts.jsonFromStr text with
  | .ok value => .ok value
  | .error error => .error (.storageError ("failed to deserialize metadata: " ++ error))

/-- An identifier, and the error that a reader of it reports. -/
def parseUuid (describe : String → String) (value : String) : MemcoreResult Uuid :=
  match texts.parseUuid value with
  | .ok id => .ok id
  | .error error => .error (.storageError (describe value ++ ": " ++ error))

def rowToFact (row : FactRow) : MemcoreResult Fact := do
  let id ← parseUuid texts (fun value => "invalid fact id '" ++ value ++ "'") row.id
  let memoryType ← memoryTypeFromStr row.memoryType
  let source ← memorySourceFromStr row.source
  let validAt ← optionalDatetimeFromStr texts row.validAt
  let invalidAt ← optionalDatetimeFromStr texts row.invalidAt
  let recordedAt ← datetimeFromStr texts row.recordedAt
  let updatedAt ← datetimeFromStr texts row.updatedAt
  let metadata ← metadataFromStr texts row.metadata
  return {
    id := id
    orgId := row.orgId
    userId := row.userId
    memoryType := memoryType
    content := row.content
    summary := row.summary
    source := source
    confidence := row.confidence
    importance := row.importance
    validAt := validAt
    invalidAt := invalidAt
    recordedAt := recordedAt
    updatedAt := updatedAt
    metadata := metadata }

/-- The values that a statement binds for a fact, with the text of its metadata. -/
def bindFact (fact : Fact) (metadata : String) (deletedAt : Option String) : FactRow where
  id := Uuid.toText fact.id
  orgId := fact.orgId
  userId := fact.userId
  memoryType := memoryTypeToStr fact.memoryType
  content := fact.content
  summary := fact.summary
  source := memorySourceToStr fact.source
  confidence := fact.confidence
  importance := fact.importance
  validAt := fact.validAt.map texts.toRfc3339
  invalidAt := fact.invalidAt.map texts.toRfc3339
  recordedAt := texts.toRfc3339 fact.recordedAt
  updatedAt := texts.toRfc3339 fact.updatedAt
  metadata := metadata
  deletedAt := deletedAt

/-! ## Statements -/

def ofTenant (tenant : TenantContext) (row : FactRow) : Bool :=
  decide (row.orgId = tenant.orgId) && decide (row.userId = tenant.userId)

def isActive (row : FactRow) : Bool := row.deletedAt.isNone

/-- Selection of a fact of a tenant. -/
def ofFact (tenant : TenantContext) (factId : Uuid) (row : FactRow) : Bool :=
  decide (row.id = Uuid.toText factId) && ofTenant tenant row

/-- Selection of a fact of a tenant that is not deleted. -/
def ofActiveFact (tenant : TenantContext) (factId : Uuid) (row : FactRow) : Bool :=
  decide (row.id = Uuid.toText factId) && (ofTenant tenant row && isActive row)

def insertFact (tenant : TenantContext) (fact : Fact) (rows : FactRows) :
    MemcoreResult Fact × FactRows :=
  if fact.tenant ≠ tenant then (.error .forbidden, rows)
  else if rows.rows.countP (ofFact tenant fact.id) > 0 then
    (.error (.conflict ("fact already exists: " ++ Uuid.toText fact.id)), rows)
  else match metadataToStr texts fact.metadata with
    | .error error => (.error error, rows)
    | .ok metadata =>
        match SqlTables.insert (bindFact texts fact metadata none) rows with
        | some inserted => (.ok fact, inserted)
        | none => (.error (storageError "failed to insert fact"
            (uniqueConstraintFailed "facts.id")), rows)

/-- SET: everything but the identifier, the tenant and the deletion. -/
def assignFact (bound row : FactRow) : FactRow := { row with
  memoryType := bound.memoryType
  content := bound.content
  summary := bound.summary
  source := bound.source
  confidence := bound.confidence
  importance := bound.importance
  validAt := bound.validAt
  invalidAt := bound.invalidAt
  recordedAt := bound.recordedAt
  updatedAt := bound.updatedAt
  metadata := bound.metadata }

theorem assignFact_id (bound row : FactRow) : (assignFact bound row).id = row.id := rfl

theorem assignFact_deletedAt (bound row : FactRow) :
    (assignFact bound row).deletedAt = row.deletedAt := rfl

/-- SET deleted_at. -/
def assignDeletedAt (deletedAt : String) (row : FactRow) : FactRow :=
  { row with deletedAt := some deletedAt }

theorem assignDeletedAt_id (deletedAt : String) (row : FactRow) :
    (assignDeletedAt deletedAt row).id = row.id := rfl

def updateFact (tenant : TenantContext) (fact : Fact) (rows : FactRows) :
    MemcoreResult Fact × FactRows :=
  if fact.tenant ≠ tenant then (.error .forbidden, rows)
  else match metadataToStr texts fact.metadata with
    | .error error => (.error error, rows)
    | .ok metadata =>
        let result := SqlTables.update (ofActiveFact tenant fact.id)
          (assignFact (bindFact texts fact metadata none)) (assignFact_id _) rows
        if result.1 = 0 then
          (.error (.notFound ("fact not found: " ++ Uuid.toText fact.id)), result.2)
        else (.ok fact, result.2)

def getFact (tenant : TenantContext) (factId : Uuid) (rows : FactRows) :
    MemcoreResult (Option Fact) :=
  match rows.rows.find? (ofActiveFact tenant factId) with
  | some row => (rowToFact texts row).map some
  | none => .ok none

/-- The largest number of rows that a statement can ask for. -/
def maxLimit : ℕ := 2 ^ 63 - 1

def sqliteLikePattern (query : String) : String :=
  "%" ++ Texts.toAsciiLowercase query ++ "%"

def like (text pattern : String) : Bool :=
  SqlPatterns.likeMatches pattern.toList text.toList

/-- The filter for a list of memory types. An empty list filters nothing. -/
def selectsTypes (memoryTypes : Option (List MemoryType)) (memoryType : String) : Bool :=
  match memoryTypes with
  | some types =>
      types.isEmpty || decide (memoryType ∈ types.map memoryTypeToStr)
  | none => true

/-- The filter for a keyword. An absent summary counts as an empty one. -/
def selectsText (queryText : Option String) (content : String) (summary : Option String) : Bool :=
  queryText.all fun text =>
    like (Texts.toAsciiLowercase content) (sqliteLikePattern text) ||
      like (Texts.toAsciiLowercase (summary.getD "")) (sqliteLikePattern text)

/-- The filter for a position behind a cursor. -/
def selectsBehind (cursor : Option PageCursor) (updatedAt id : String) : Bool :=
  cursor.all fun cursor =>
    updatedAt < texts.toRfc3339 cursor.lastSortValue ||
      (updatedAt == texts.toRfc3339 cursor.lastSortValue && id < cursor.lastId)

/-- The conditions of a search. -/
def selects (query : FactSearchQuery) (row : FactRow) : Bool :=
  ofTenant query.tenant row && (query.includeDeleted || isActive row) &&
  selectsTypes query.memoryTypes row.memoryType &&
  selectsText query.queryText row.content row.summary &&
  selectsBehind texts query.cursor row.updatedAt row.id

/-- ORDER BY updated_at DESC, id DESC. -/
def rowComesFirst (left right : FactRow) : Prop :=
  right.updatedAt < left.updatedAt ∨ right.updatedAt = left.updatedAt ∧ right.id ≤ left.id

instance : DecidableRel rowComesFirst := fun _ _ => inferInstanceAs (Decidable (_ ∨ _ ∧ _))

def searchFacts (query : FactSearchQuery) (rows : FactRows) : MemcoreResult (List Fact) :=
  if pageFetchLimit query.limit > maxLimit then
    .error (storageError "fact search limit out of range for sqlite"
      "out of range integral type conversion attempted")
  else
    let found := (rows.rows.filter (selects texts query)).insertionSort rowComesFirst
    (found.take (pageFetchLimit query.limit)).mapM (rowToFact texts)

def softDeleteFact (now : Instant) (tenant : TenantContext) (factId : Uuid) (rows : FactRows) :
    MemcoreResult Unit × FactRows :=
  let result := SqlTables.update (ofActiveFact tenant factId)
    (assignDeletedAt (texts.toRfc3339 now)) (assignDeletedAt_id _) rows
  if result.1 = 0 then
    (.error (.notFound ("fact not found: " ++ Uuid.toText factId)), result.2)
  else (.ok (), result.2)

def deleteUserData (tenant : TenantContext) (rows : FactRows) : MemcoreResult Unit × FactRows :=
  (.ok (), (SqlTables.delete (ofTenant tenant) rows).2)

/-- Selection of the expired facts of a tenant. -/
def ofExpired (tenant : TenantContext) (cutoff : Instant) (row : FactRow) : Bool :=
  ofTenant tenant row && isActive row && decide (row.updatedAt < texts.toRfc3339 cutoff)

def deleteFactsOlderThan (now : Instant) (tenant : TenantContext) (cutoff : Instant)
    (dryRun : Bool) (rows : FactRows) : MemcoreResult RetentionPruneResult × FactRows :=
  let expired := rows.rows.filter (ofExpired texts tenant cutoff)
  match expired.mapM fun row => parseUuid texts (fun _ => "invalid fact id") row.id with
  | .error error => (.error error, rows)
  | .ok factIds =>
      if dryRun then (.ok ⟨factIds.length, []⟩, rows)
      else if factIds.isEmpty then (.ok ⟨0, []⟩, rows)
      else
        let result := SqlTables.update (ofExpired texts tenant cutoff)
          (assignDeletedAt (texts.toRfc3339 now)) (assignDeletedAt_id _) rows
        (.ok ⟨result.1, factIds⟩, result.2)

end SqliteFactStore

def sqliteFactStore (texts : RowTexts) : FactStore FactRows where
  insertFact := SqliteFactStore.insertFact texts
  updateFact := SqliteFactStore.updateFact texts
  getFact := SqliteFactStore.getFact texts
  searchFacts := SqliteFactStore.searchFacts texts
  softDeleteFact := SqliteFactStore.softDeleteFact texts
  deleteUserData := SqliteFactStore.deleteUserData
  deleteFactsOlderThan := SqliteFactStore.deleteFactsOlderThan texts

end Memcore
