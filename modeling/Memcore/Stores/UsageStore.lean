import Memcore.Foundations.Grouping
import Memcore.Stores.Cursors

/-!
# The usage of providers

Every call of a provider leaves one event, with the tokens and the costs that are known.
A query delivers a page of events and a summary of all that match; a daily query delivers
one bucket for each day with events. The store in memory is a list in the order of
recording. The source adds tokens and retries with saturation, which sums that fit 64 bits
do not reach; a cost is a rational number.
-/
namespace Memcore

open Pages

inductive ProviderUsageCapability where
  | llm | embedding | summarization
  deriving DecidableEq

inductive ProviderCallStatus where
  | success | error
  deriving DecidableEq

structure ProviderUsageEventRecord where
  id : Uuid
  orgId : String
  userId : Option String
  providerName : String
  modelName : Option String
  capability : ProviderUsageCapability
  operationName : String
  status : ProviderCallStatus
  inputTokens : Option ℕ
  outputTokens : Option ℕ
  totalTokens : Option ℕ
  retryCount : ℕ
  fallbackUsed : Bool
  circuitBlocked : Bool
  timedOut : Bool
  estimatedCostUsd : Option ℚ
  metadata : Option Value
  createdAt : Instant

structure ProviderUsageQuery where
  orgId : String
  userId : Option String
  providerName : Option String
  modelName : Option String
  capability : Option ProviderUsageCapability
  operationName : Option String
  createdAfter : Option Instant
  createdBefore : Option Instant
  limit : ℕ
  cursor : Option PageCursor

structure ProviderUsageDailyQuery where
  orgId : String
  providerName : Option String
  modelName : Option String
  capability : Option ProviderUsageCapability
  createdAfter : Instant
  createdBefore : Instant

structure ProviderUsagePersistedSummary where
  totalRequests : ℕ
  totalSuccesses : ℕ
  totalErrors : ℕ
  totalRetries : ℕ
  totalFallbacks : ℕ
  totalCircuitBlocks : ℕ
  totalTimeouts : ℕ
  totalInputTokens : ℕ
  totalOutputTokens : ℕ
  totalTokens : ℕ
  totalEstimatedCostUsd : Option ℚ
  deriving DecidableEq

def ProviderUsagePersistedSummary.default : ProviderUsagePersistedSummary :=
  ⟨0, 0, 0, 0, 0, 0, 0, 0, 0, 0, none⟩

/-- A day is counted from the first day of 1970. -/
abbrev NaiveDate := ℤ

/-- The day of an instant. -/
def dateNaive (instant : Instant) : NaiveDate := instant / days 1

/-- The summary of the events of one day. -/
structure ProviderUsageDailyBucket extends ProviderUsagePersistedSummary where
  date : NaiveDate
  deriving DecidableEq

def ProviderUsageDailyBucket.empty (date : NaiveDate) : ProviderUsageDailyBucket :=
  ⟨.default, date⟩

structure ProviderUsageQueryResult where
  events : List ProviderUsageEventRecord
  nextCursor : Option String
  summary : ProviderUsagePersistedSummary

def defaultProviderUsageLimit : ℕ := 50

def maxProviderUsageLimit : ℕ := 100

/-- A limit of zero asks for the default. -/
def validateProviderUsageLimit (limit : ℕ) : MemcoreResult ℕ :=
  if limit = 0 then .ok defaultProviderUsageLimit
  else if limit > maxProviderUsageLimit then
    .error (.validationError ("limit cannot exceed " ++ toString maxProviderUsageLimit))
  else .ok limit

def ProviderUsageEventRecord.toCursor (event : ProviderUsageEventRecord) : PageCursor :=
  ⟨Uuid.toText event.id, event.createdAt⟩

/-! ## Sums over events -/

/-- Count an event in all sums but that of the costs. -/
def ProviderUsagePersistedSummary.count (summary : ProviderUsagePersistedSummary)
    (event : ProviderUsageEventRecord) : ProviderUsagePersistedSummary where
  totalRequests := summary.totalRequests + 1
  totalSuccesses := match event.status with
    | .success => summary.totalSuccesses + 1
    | .error => summary.totalSuccesses
  totalErrors := match event.status with
    | .success => summary.totalErrors
    | .error => summary.totalErrors + 1
  totalRetries := summary.totalRetries + event.retryCount
  totalFallbacks := if event.fallbackUsed then summary.totalFallbacks + 1
    else summary.totalFallbacks
  totalCircuitBlocks := if event.circuitBlocked then summary.totalCircuitBlocks + 1
    else summary.totalCircuitBlocks
  totalTimeouts := if event.timedOut then summary.totalTimeouts + 1 else summary.totalTimeouts
  totalInputTokens := summary.totalInputTokens + event.inputTokens.getD 0
  totalOutputTokens := summary.totalOutputTokens + event.outputTokens.getD 0
  totalTokens := summary.totalTokens + event.totalTokens.getD 0
  totalEstimatedCostUsd := summary.totalEstimatedCostUsd

/-- What the loop over the events carries: the summary, whether there was a cost, and the
costs so far. -/
structure SummaryState where
  summary : ProviderUsagePersistedSummary
  hasCost : Bool
  totalCost : ℚ

def SummaryState.add (state : SummaryState) (event : ProviderUsageEventRecord) : SummaryState :=
  match event.estimatedCostUsd with
  | some cost => ⟨state.summary.count event, true, state.totalCost + cost⟩
  | none => ⟨state.summary.count event, state.hasCost, state.totalCost⟩

def computeSummary (events : List ProviderUsageEventRecord) : ProviderUsagePersistedSummary :=
  let state := events.foldl SummaryState.add ⟨.default, false, 0⟩
  { state.summary with
    totalEstimatedCostUsd := if state.hasCost then some state.totalCost else none }

def addEventToBucket (bucket : ProviderUsageDailyBucket) (event : ProviderUsageEventRecord) :
    ProviderUsageDailyBucket :=
  let counted := bucket.toProviderUsagePersistedSummary.count event
  match event.estimatedCostUsd with
  | some cost => ⟨{ counted with
      totalEstimatedCostUsd := some (bucket.totalEstimatedCostUsd.getD 0 + cost) }, bucket.date⟩
  | none => ⟨counted, bucket.date⟩

/-! ## The store in memory -/

/-- Events in the order of recording. -/
abbrev MockProviderUsageStore := List ProviderUsageEventRecord

namespace MockProviderUsageStore

def matchesQuery (event : ProviderUsageEventRecord) (query : ProviderUsageQuery) : Bool :=
  decide (event.orgId = query.orgId) &&
  query.userId.all (fun userId => decide (event.userId = some userId)) &&
  query.providerName.all (fun providerName => decide (event.providerName = providerName)) &&
  query.modelName.all (fun modelName => decide (event.modelName = some modelName)) &&
  query.capability.all (fun capability => decide (event.capability = capability)) &&
  query.operationName.all (fun operationName => decide (event.operationName = operationName)) &&
  query.createdAfter.all (fun createdAfter => !decide (event.createdAt < createdAfter)) &&
  query.createdBefore.all (fun createdBefore => !decide (createdBefore ≤ event.createdAt))

def matchesDailyQuery (event : ProviderUsageEventRecord) (query : ProviderUsageDailyQuery) :
    Bool :=
  decide (event.orgId = query.orgId) &&
  query.providerName.all (fun providerName => decide (event.providerName = providerName)) &&
  query.modelName.all (fun modelName => decide (event.modelName = some modelName)) &&
  query.capability.all (fun capability => decide (event.capability = capability)) &&
  (decide (query.createdAfter ≤ event.createdAt) && decide (event.createdAt < query.createdBefore))

/-- Later events first; ties in descending order of identifiers. -/
def comesFirst (left right : ProviderUsageEventRecord) : Prop :=
  right.createdAt < left.createdAt ∨ right.createdAt = left.createdAt ∧ right.id ≤ left.id

instance : DecidableRel comesFirst := fun _ _ => inferInstanceAs (Decidable (_ ∨ _ ∧ _))

def recordUsageEvent (event : ProviderUsageEventRecord) (store : MockProviderUsageStore) :
    MemcoreResult Unit × MockProviderUsageStore := (.ok (), store ++ [event])

/-- The summary is about all matching events, wherever the page begins. -/
def queryUsage (encoding : CursorEncoding) (query : ProviderUsageQuery)
    (store : MockProviderUsageStore) : MemcoreResult ProviderUsageQueryResult := do
  let limit ← validateProviderUsageLimit query.limit
  let found := store.filter fun event => matchesQuery event query
  let summary := computeSummary found
  let sorted := found.insertionSort comesFirst
  let behind := sorted.filter fun event =>
    query.cursor.all (isAfterCursorInDescOrder event.createdAt (Uuid.toText event.id))
  let page ← buildPage encoding behind limit ProviderUsageEventRecord.toCursor
  return ⟨page.items, page.nextCursor, summary⟩

/-- The buckets are kept in an ordered map under their days. -/
def queryUsageDaily (query : ProviderUsageDailyQuery) (store : MockProviderUsageStore) :
    MemcoreResult (List ProviderUsageDailyBucket) :=
  let buckets := (store.filter fun event => matchesDailyQuery event query).foldl
    (fun buckets event => Grouping.upsert ProviderUsageDailyBucket.empty
      (fun bucket => addEventToBucket bucket event) (dateNaive event.createdAt) buckets) []
  .ok (buckets.map Prod.snd)

/-- Remove the events of an organisation before a cutoff, or only count them. -/
def deleteUsageEventsOlderThan (orgId : String) (cutoff : Instant) (dryRun : Bool)
    (store : MockProviderUsageStore) : MemcoreResult ℕ × MockProviderUsageStore :=
  let isOld := fun event : ProviderUsageEventRecord =>
    decide (event.orgId = orgId) && decide (event.createdAt < cutoff)
  (.ok (store.filter isOld).length, if dryRun then store else store.filter fun event => !isOld event)

end MockProviderUsageStore

end Memcore
