import Memcore.Stores.SqliteFactStore
import Memcore.Stores.UsageStore
import Mathlib.Data.String.Basic

/-!
# The usage store in SQLite

One table of events, with numbers for flags and texts for identifiers, enumerations,
instants and metadata. Summaries and buckets are aggregates; the days of the buckets are
the first ten characters of the instants.
-/
namespace Memcore

open KeyedTables Pages

/-- The operations of a usage store. -/
structure ProviderUsageStore (σ : Type) where
  recordUsageEvent (event : ProviderUsageEventRecord) : σ → MemcoreResult Unit × σ
  queryUsage (query : ProviderUsageQuery) : σ → MemcoreResult ProviderUsageQueryResult
  queryUsageDaily (query : ProviderUsageDailyQuery) :
    σ → MemcoreResult (List ProviderUsageDailyBucket)
  deleteUsageEventsOlderThan (orgId : String) (cutoff : Instant) (dryRun : Bool) :
    σ → MemcoreResult ℕ × σ

def mockProviderUsageStore (encoding : CursorEncoding) :
    ProviderUsageStore MockProviderUsageStore where
  recordUsageEvent := MockProviderUsageStore.recordUsageEvent
  queryUsage := MockProviderUsageStore.queryUsage encoding
  queryUsageDaily := MockProviderUsageStore.queryUsageDaily
  deleteUsageEventsOlderThan := MockProviderUsageStore.deleteUsageEventsOlderThan

/-- The texts of the values in a row, and of days. -/
structure UsageTexts extends RowTexts where
  parseDate : String → Except String NaiveDate

/-! ## Conversions -/

def capabilityToStr : ProviderUsageCapability → String
  | .llm => "llm"
  | .embedding => "embedding"
  | .summarization => "summarization"

def capabilityFromStr : String → MemcoreResult ProviderUsageCapability
  | "llm" => .ok .llm
  | "embedding" => .ok .embedding
  | "summarization" => .ok .summarization
  | value => .error (.storageError ("invalid provider usage capability: " ++ value))

def statusToStr : ProviderCallStatus → String
  | .success => "success"
  | .error => "error"

def statusFromStr : String → MemcoreResult ProviderCallStatus
  | "success" => .ok .success
  | "error" => .ok .error
  | value => .error (.storageError ("invalid provider usage status: " ++ value))

theorem capabilityFromStr_toStr (capability : ProviderUsageCapability) :
    capabilityFromStr (capabilityToStr capability) = .ok capability := by
  cases capability <;> rfl

theorem capabilityToStr_injective {left right : ProviderUsageCapability}
    (same : capabilityToStr left = capabilityToStr right) : left = right := by
  have reads := congrArg capabilityFromStr same
  rw [capabilityFromStr_toStr, capabilityFromStr_toStr] at reads
  exact Except.ok.inj reads

theorem statusFromStr_toStr (status : ProviderCallStatus) :
    statusFromStr (statusToStr status) = .ok status := by
  cases status <;> rfl

def boolToNumber (value : Bool) : ℕ := if value then 1 else 0

def numberToBool (value : ℕ) : Bool := value != 0

structure UsageRow where
  id : String
  orgId : String
  userId : Option String
  providerName : String
  modelName : Option String
  capability : String
  operationName : String
  status : String
  inputTokens : Option ℕ
  outputTokens : Option ℕ
  totalTokens : Option ℕ
  retryCount : ℕ
  fallbackUsed : ℕ
  circuitBlocked : ℕ
  timedOut : ℕ
  estimatedCostUsd : Option ℚ
  metadata : Option String
  createdAt : String

abbrev UsageRows := Table String UsageRow UsageRow.id

namespace SqliteUsageStore

variable (texts : UsageTexts)

def optionalMetadataToStr : Option Value → MemcoreResult (Option String)
  | some metadata =>
      match texts.jsonToString metadata with
      | .ok text => .ok (some text)
      | .error error => .error (storageError "serialize provider usage metadata" error)
  | none => .ok none

/-- A blank text counts as absent. -/
def optionalMetadataFromStr : Option String → MemcoreResult (Option Value)
  | some raw =>
      if Texts.isBlank raw then .ok none
      else match texts.jsonFromStr raw with
        | .ok metadata => .ok (some metadata)
        | .error error => .error (storageError "deserialize provider usage metadata" error)
  | none => .ok none

def rowId (value : String) : MemcoreResult Uuid :=
  match texts.parseUuid value with
  | .ok id => .ok id
  | .error error => .error (storageError "row id uuid" error)

def rowToEvent (row : UsageRow) : MemcoreResult ProviderUsageEventRecord := do
  let id ← rowId texts row.id
  let capability ← capabilityFromStr row.capability
  let status ← statusFromStr row.status
  let metadata ← optionalMetadataFromStr texts row.metadata
  let createdAt ← SqliteFactStore.datetimeFromStr texts.toRowTexts row.createdAt
  return {
    id := id
    orgId := row.orgId
    userId := row.userId
    providerName := row.providerName
    modelName := row.modelName
    capability := capability
    operationName := row.operationName
    status := status
    inputTokens := row.inputTokens
    outputTokens := row.outputTokens
    totalTokens := row.totalTokens
    retryCount := row.retryCount
    fallbackUsed := numberToBool row.fallbackUsed
    circuitBlocked := numberToBool row.circuitBlocked
    timedOut := numberToBool row.timedOut
    estimatedCostUsd := row.estimatedCostUsd
    metadata := metadata
    createdAt := createdAt }

/-- The values that a statement binds for an event, with the text of its metadata. -/
def bindEvent (event : ProviderUsageEventRecord) (metadata : Option String) : UsageRow where
  id := Uuid.toText event.id
  orgId := event.orgId
  userId := event.userId
  providerName := event.providerName
  modelName := event.modelName
  capability := capabilityToStr event.capability
  operationName := event.operationName
  status := statusToStr event.status
  inputTokens := event.inputTokens
  outputTokens := event.outputTokens
  totalTokens := event.totalTokens
  retryCount := event.retryCount
  fallbackUsed := boolToNumber event.fallbackUsed
  circuitBlocked := boolToNumber event.circuitBlocked
  timedOut := boolToNumber event.timedOut
  estimatedCostUsd := event.estimatedCostUsd
  metadata := metadata
  createdAt := texts.toRfc3339 event.createdAt

/-! ## Statements -/

/-- The conditions of a query, apart from the cursor. -/
def selectsUsage (query : ProviderUsageQuery) (row : UsageRow) : Bool :=
  decide (row.orgId = query.orgId) &&
  query.userId.all (fun userId => decide (row.userId = some userId)) &&
  query.providerName.all (fun providerName => decide (row.providerName = providerName)) &&
  query.modelName.all (fun modelName => decide (row.modelName = some modelName)) &&
  query.capability.all (fun capability => decide (row.capability = capabilityToStr capability)) &&
  query.operationName.all (fun operationName => decide (row.operationName = operationName)) &&
  query.createdAfter.all (fun createdAfter =>
    !decide (row.createdAt < texts.toRfc3339 createdAfter)) &&
  query.createdBefore.all (fun createdBefore =>
    decide (row.createdAt < texts.toRfc3339 createdBefore))

def selectsDailyUsage (query : ProviderUsageDailyQuery) (row : UsageRow) : Bool :=
  decide (row.orgId = query.orgId) &&
  query.providerName.all (fun providerName => decide (row.providerName = providerName)) &&
  query.modelName.all (fun modelName => decide (row.modelName = some modelName)) &&
  query.capability.all (fun capability => decide (row.capability = capabilityToStr capability)) &&
  !decide (row.createdAt < texts.toRfc3339 query.createdAfter) &&
  decide (row.createdAt < texts.toRfc3339 query.createdBefore)

/-- COALESCE(SUM(column), 0). -/
def coalesceSum (column : UsageRow → Option ℕ) (rows : List UsageRow) : ℕ :=
  (Grouping.sum (rows.map column)).getD 0

/-- COALESCE(SUM(CASE WHEN condition THEN 1 ELSE 0 END), 0). -/
def coalesceCount (condition : UsageRow → Bool) (rows : List UsageRow) : ℕ :=
  coalesceSum (fun row => some (if condition row then 1 else 0)) rows

/-- The aggregates that both statements select. -/
def summarize (rows : List UsageRow) : ProviderUsagePersistedSummary where
  totalRequests := rows.length
  totalSuccesses := coalesceCount (fun row => decide (row.status = "success")) rows
  totalErrors := coalesceCount (fun row => decide (row.status = "error")) rows
  totalRetries := coalesceSum (fun row => some row.retryCount) rows
  totalFallbacks := coalesceCount (fun row => decide (row.fallbackUsed = 1)) rows
  totalCircuitBlocks := coalesceCount (fun row => decide (row.circuitBlocked = 1)) rows
  totalTimeouts := coalesceCount (fun row => decide (row.timedOut = 1)) rows
  totalInputTokens := coalesceSum UsageRow.inputTokens rows
  totalOutputTokens := coalesceSum UsageRow.outputTokens rows
  totalTokens := coalesceSum UsageRow.totalTokens rows
  totalEstimatedCostUsd := Grouping.sum (rows.map UsageRow.estimatedCostUsd)

/-- ORDER BY created_at DESC, id DESC. -/
def rowComesFirst (left right : UsageRow) : Prop :=
  right.createdAt < left.createdAt ∨ right.createdAt = left.createdAt ∧ right.id ≤ left.id

instance : DecidableRel rowComesFirst := fun _ _ => inferInstanceAs (Decidable (_ ∨ _ ∧ _))

def recordUsageEvent (event : ProviderUsageEventRecord) (rows : UsageRows) :
    MemcoreResult Unit × UsageRows :=
  match optionalMetadataToStr texts event.metadata with
  | .error error => (.error error, rows)
  | .ok metadata =>
      match SqlTables.insert (bindEvent texts event metadata) rows with
      | some inserted => (.ok (), inserted)
      | none => (.error (storageError "insert provider usage event"
          (uniqueConstraintFailed "provider_usage_events.id")), rows)

def querySummary (query : ProviderUsageQuery) (rows : UsageRows) :
    ProviderUsagePersistedSummary :=
  summarize (rows.rows.filter (selectsUsage texts query))

/-- The conditions of a page. -/
def selectsPage (query : ProviderUsageQuery) (row : UsageRow) : Bool :=
  selectsUsage texts query row &&
  SqliteFactStore.selectsBehind texts.toRowTexts query.cursor row.createdAt row.id

def queryUsage (encoding : CursorEncoding) (query : ProviderUsageQuery) (rows : UsageRows) :
    MemcoreResult ProviderUsageQueryResult := do
  let limit ← validateProviderUsageLimit query.limit
  let summary := querySummary texts query rows
  let found := (rows.rows.filter (selectsPage texts query)).insertionSort rowComesFirst
  let events ← (found.take (pageFetchLimit limit)).mapM (rowToEvent texts)
  let page ← buildPage encoding events limit ProviderUsageEventRecord.toCursor
  return ⟨page.items, page.nextCursor, summary⟩

/-- substr(created_at, 1, 10). -/
def usageDate (createdAt : String) : String := String.ofList (createdAt.toList.take 10)

def rowToDailyBucket (group : String × List UsageRow) : MemcoreResult ProviderUsageDailyBucket :=
  match texts.parseDate group.1 with
  | .ok date => .ok ⟨summarize group.2, date⟩
  | .error error => .error (storageError "parse daily usage date" error)

def queryUsageDaily (query : ProviderUsageDailyQuery) (rows : UsageRows) :
    MemcoreResult (List ProviderUsageDailyBucket) :=
  (Grouping.groups (fun row : UsageRow => usageDate row.createdAt)
    (rows.rows.filter (selectsDailyUsage texts query))).mapM (rowToDailyBucket texts)

/-- Selection of the old events of an organisation. -/
def isOld (orgId : String) (cutoff : Instant) (row : UsageRow) : Bool :=
  decide (row.orgId = orgId) && decide (row.createdAt < texts.toRfc3339 cutoff)

def deleteUsageEventsOlderThan (orgId : String) (cutoff : Instant) (dryRun : Bool)
    (rows : UsageRows) : MemcoreResult ℕ × UsageRows :=
  if dryRun then (.ok (rows.rows.countP (isOld texts orgId cutoff)), rows)
  else
    let result := SqlTables.delete (isOld texts orgId cutoff) rows
    (.ok result.1, result.2)

end SqliteUsageStore

def sqliteProviderUsageStore (texts : UsageTexts) (encoding : CursorEncoding) :
    ProviderUsageStore UsageRows where
  recordUsageEvent := SqliteUsageStore.recordUsageEvent texts
  queryUsage := SqliteUsageStore.queryUsage texts encoding
  queryUsageDaily := SqliteUsageStore.queryUsageDaily texts
  deleteUsageEventsOlderThan := SqliteUsageStore.deleteUsageEventsOlderThan texts

end Memcore
