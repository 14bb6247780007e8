import Memcore.Foundations.Binary64
import Memcore.Foundations.Saturation
import Memcore.Stores.UsageStore

/-!
# The arithmetic of usage reports

The source counts in 64 bits with saturation and adds costs in double precision. Here the
summary and the daily buckets are computed with that arithmetic, and the events that retention
removes are removed by their positions, from the last one to the first.
-/
namespace Memcore

open Saturation

/-- Counters stand still at a limit, and sums of costs are rounded. -/
structure UsageArithmetic where
  limit : ℕ
  round : ℚ → ℚ

namespace UsageArithmetic

/-- Counters of 64 bits, and costs of double precision. -/
def machine : UsageArithmetic := ⟨2 ^ 64 - 1, Binary64.round⟩

variable (arithmetic : UsageArithmetic)

def add (left right : ℕ) : ℕ := saturatingAdd arithmetic.limit left right

def addCost (left right : ℚ) : ℚ := arithmetic.round (left + right)

/-- Count an event in all sums but that of the costs. -/
def count (summary : ProviderUsagePersistedSummary) (event : ProviderUsageEventRecord) :
    ProviderUsagePersistedSummary where
  totalRequests := arithmetic.add summary.totalRequests 1
  totalSuccesses := match event.status with
    | .success => arithmetic.add summary.totalSuccesses 1
    | .error => summary.totalSuccesses
  totalErrors := match event.status with
    | .success => summary.totalErrors
    | .error => arithmetic.add summary.totalErrors 1
  totalRetries := arithmetic.add summary.totalRetries event.retryCount
  totalFallbacks := if event.fallbackUsed then arithmetic.add summary.totalFallbacks 1
    else summary.totalFallbacks
  totalCircuitBlocks := if event.circuitBlocked then arithmetic.add summary.totalCircuitBlocks 1
    else summary.totalCircuitBlocks
  totalTimeouts := if event.timedOut then arithmetic.add summary.totalTimeouts 1
    else summary.totalTimeouts
  totalInputTokens := arithmetic.add summary.totalInputTokens (event.inputTokens.getD 0)
  totalOutputTokens := arithmetic.add summary.totalOutputTokens (event.outputTokens.getD 0)
  totalTokens := arithmetic.add summary.totalTokens (event.totalTokens.getD 0)
  totalEstimatedCostUsd := summary.totalEstimatedCostUsd

def addToSummary (state : SummaryState) (event : ProviderUsageEventRecord) : SummaryState :=
  match event.estimatedCostUsd with
  | some cost =>
      ⟨arithmetic.count state.summary event, true, arithmetic.addCost state.totalCost cost⟩
  | none => ⟨arithmetic.count state.summary event, state.hasCost, state.totalCost⟩

def computeSummary (events : List ProviderUsageEventRecord) : ProviderUsagePersistedSummary :=
  let state := events.foldl arithmetic.addToSummary ⟨.default, false, 0⟩
  { state.summary with
    totalEstimatedCostUsd := if state.hasCost then some state.totalCost else none }

def addEventToBucket (bucket : ProviderUsageDailyBucket) (event : ProviderUsageEventRecord) :
    ProviderUsageDailyBucket :=
  let counted := arithmetic.count bucket.toProviderUsagePersistedSummary event
  match event.estimatedCostUsd with
  | some cost => ⟨{ counted with
      totalEstimatedCostUsd := some
        (arithmetic.addCost (bucket.totalEstimatedCostUsd.getD 0) cost) }, bucket.date⟩
  | none => ⟨counted, bucket.date⟩

def queryUsage (encoding : CursorEncoding) (query : ProviderUsageQuery)
    (store : MockProviderUsageStore) : MemcoreResult ProviderUsageQueryResult := do
  let limit ← validateProviderUsageLimit query.limit
  let found := store.filter fun event => MockProviderUsageStore.matchesQuery event query
  let summary := arithmetic.computeSummary found
  let sorted := found.insertionSort MockProviderUsageStore.comesFirst
  let behind := sorted.filter fun event =>
    query.cursor.all (isAfterCursorInDescOrder event.createdAt (Uuid.toText event.id))
  let page ← buildPage encoding behind limit ProviderUsageEventRecord.toCursor
  return ⟨page.items, page.nextCursor, summary⟩

def queryUsageDaily (query : ProviderUsageDailyQuery) (store : MockProviderUsageStore) :
    MemcoreResult (List ProviderUsageDailyBucket) :=
  let found := store.filter fun event => MockProviderUsageStore.matchesDailyQuery event query
  let buckets := found.foldl
    (fun buckets event => Grouping.upsert ProviderUsageDailyBucket.empty
      (fun bucket => arithmetic.addEventToBucket bucket event) (dateNaive event.createdAt)
      buckets) []
  .ok (buckets.map Prod.snd)

end UsageArithmetic

/-! ## Removal by position -/

namespace MockProviderUsageStore

/-- The positions of the events that meet a condition. -/
def matchingIndices (condition : ProviderUsageEventRecord → Bool)
    (store : MockProviderUsageStore) : List ℕ :=
  (store.zipIdx.filter fun entry => condition entry.1).map Prod.snd

/-- Remove events by their positions, the last one first. -/
def removeIndices (indices : List ℕ) (store : MockProviderUsageStore) : MockProviderUsageStore :=
  indices.reverse.foldl (fun store index => store.eraseIdx index) store

/-- Remove the events of an organisation before a cutoff by their positions, or only count
them. -/
def deleteByIndices (orgId : String) (cutoff : Instant) (dryRun : Bool)
    (store : MockProviderUsageStore) : MemcoreResult ℕ × MockProviderUsageStore :=
  let indices := matchingIndices (fun event =>
    decide (event.orgId = orgId) && decide (event.createdAt < cutoff)) store
  (.ok indices.length, if dryRun then store else removeIndices indices store)

section Indices

variable (condition : ProviderUsageEventRecord → Bool)

theorem matchingIndices_cons (event : ProviderUsageEventRecord) (store : MockProviderUsageStore) :
    matchingIndices condition (event :: store) =
      (if condition event then [0] else []) ++
        (matchingIndices condition store).map (· + 1) := by
  have later : (store.zipIdx 1).filter (fun entry => condition entry.1) =
      ((store.zipIdx).filter fun entry => condition entry.1).map fun entry =>
        (entry.1, entry.2 + 1) := by
    rw [List.zipIdx_succ, List.filter_map]
    rfl
  rw [matchingIndices, List.zipIdx_cons, List.filter_cons, later]
  by_cases meets : condition event = true
  · simp [meets, matchingIndices]
  · simp [meets, matchingIndices]

/-- Positions behind the first event remove what they would remove without it. -/
theorem foldl_eraseIdx_cons (event : ProviderUsageEventRecord) (indices : List ℕ)
    (store : MockProviderUsageStore) :
    (indices.map (· + 1)).foldl (fun store index => store.eraseIdx index) (event :: store) =
      event :: indices.foldl (fun store index => store.eraseIdx index) store := by
  induction indices generalizing store with
  | nil => rfl
  | cons index indices inductionHypothesis => exact inductionHypothesis (store.eraseIdx index)

/-- What is left are the events that do not meet the condition. -/
theorem removeIndices_matching (store : MockProviderUsageStore) :
    removeIndices (matchingIndices condition store) store =
      store.filter fun event => !condition event := by
  induction store with
  | nil => rfl
  | cons event store inductionHypothesis =>
    unfold removeIndices at inductionHypothesis ⊢
    rw [matchingIndices_cons, List.reverse_append, List.foldl_append, ← List.map_reverse,
      foldl_eraseIdx_cons, inductionHypothesis, List.filter_cons]
    by_cases meets : condition event = true
    · simp [meets]
    · simp [meets]

theorem matchingIndices_length (store : MockProviderUsageStore) :
    (matchingIndices condition store).length = (store.filter condition).length := by
  rw [matchingIndices, List.length_map, ← List.countP_eq_length_filter,
    ← List.countP_eq_length_filter]
  conv_rhs => rw [← List.zipIdx_map_fst 0 store, List.countP_map]
  rfl

/-- Removal by position is removal by condition. -/
theorem deleteByIndices_eq (orgId : String) (cutoff : Instant) (dryRun : Bool)
    (store : MockProviderUsageStore) : deleteByIndices orgId cutoff dryRun store =
      deleteUsageEventsOlderThan orgId cutoff dryRun store := by
  rw [deleteByIndices, matchingIndices_length, removeIndices_matching]
  rfl

end Indices

end MockProviderUsageStore

end Memcore
