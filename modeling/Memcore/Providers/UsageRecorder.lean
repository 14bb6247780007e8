import Memcore.Foundations.Saturation
import Memcore.Providers.UsageRecording

/-!
# Usage in memory

The recorder in memory keeps one record for every provider, model, capability and operation,
and merges each event into the record of its kind. A snapshot adds up the records. The
counters have 64 bits and are added to with saturation; the costs are rational numbers.
-/
namespace Memcore

open Programs Saturation

/-- The greatest value of a counter. -/
def u64Max : ℕ := 2 ^ 64 - 1

/-- An event as the recorder gets it: with the tokens that the provider has reported, and the
costs that follow from them. -/
structure MeasuredUsageEvent extends ProviderUsageEvent where
  inputTokens : Option ℕ
  outputTokens : Option ℕ
  estimatedCostUsd : Option ℚ

/-- Aggregated usage for one provider, model, capability and operation. -/
structure ProviderUsageRecord where
  providerName : String
  modelName : Option String
  capability : ProviderUsageCapability
  operationName : String
  inputTokens : Option ℕ
  outputTokens : Option ℕ
  totalTokens : Option ℕ
  requestCount : ℕ
  successCount : ℕ
  errorCount : ℕ
  retryCount : ℕ
  fallbackCount : ℕ
  circuitBlockedCount : ℕ
  timeoutCount : ℕ
  estimatedCostUsd : Option ℚ

structure ProviderUsageSnapshot where
  records : List ProviderUsageRecord
  totalRequests : ℕ
  totalSuccesses : ℕ
  totalErrors : ℕ
  totalRetries : ℕ
  totalFallbacks : ℕ
  totalCircuitBlocks : ℕ
  totalTimeouts : ℕ
  totalEstimatedCostUsd : Option ℚ

namespace InMemoryProviderUsageRecorder

/-- Both counts of tokens together, as far as they are known. -/
def totalTokens (event : MeasuredUsageEvent) : Option ℕ :=
  match event.inputTokens, event.outputTokens with
  | some input, some output => some (saturatingAdd u64Max input output)
  | some input, none => some input
  | none, some output => some output
  | none, none => none

/-- Whether a record has the aggregate key of an event. -/
def isOf (event : MeasuredUsageEvent) (record : ProviderUsageRecord) : Bool :=
  decide (record.providerName = event.providerName) &&
  decide (record.modelName = event.modelName) &&
  decide (record.capability = event.capability) &&
  decide (record.operationName = event.operationName)

/-- One more on a counter if something is so. -/
def countIf (counter : ℕ) (counts : Bool) : ℕ :=
  if counts then saturatingAdd u64Max counter 1 else counter

/-- Tokens on a count that may not have begun. -/
def addTokens (sum : Option ℕ) : Option ℕ → Option ℕ
  | some tokens => some (saturatingAdd u64Max (sum.getD 0) tokens)
  | none => sum

def addEvent (event : MeasuredUsageEvent) (record : ProviderUsageRecord) :
    ProviderUsageRecord where
  providerName := record.providerName
  modelName := record.modelName
  capability := record.capability
  operationName := record.operationName
  inputTokens := addTokens record.inputTokens event.inputTokens
  outputTokens := addTokens record.outputTokens event.outputTokens
  totalTokens := addTokens record.totalTokens (totalTokens event)
  requestCount := saturatingAdd u64Max record.requestCount 1
  successCount := countIf record.successCount (event.status = .success)
  errorCount := countIf record.errorCount (event.status = .error)
  retryCount := saturatingAdd u64Max record.retryCount event.retryCount
  fallbackCount := countIf record.fallbackCount event.fallbackUsed
  circuitBlockedCount := countIf record.circuitBlockedCount event.circuitBlocked
  timeoutCount := countIf record.timeoutCount event.timedOut
  estimatedCostUsd := match event.estimatedCostUsd with
    | some cost => some (record.estimatedCostUsd.getD 0 + cost)
    | none => record.estimatedCostUsd

/-- The record that the first event of a kind begins. -/
def firstRecord (event : MeasuredUsageEvent) : ProviderUsageRecord where
  providerName := event.providerName
  modelName := event.modelName
  capability := event.capability
  operationName := event.operationName
  inputTokens := event.inputTokens
  outputTokens := event.outputTokens
  totalTokens := totalTokens event
  requestCount := 1
  successCount := if event.status = .success then 1 else 0
  errorCount := if event.status = .error then 1 else 0
  retryCount := event.retryCount
  fallbackCount := if event.fallbackUsed then 1 else 0
  circuitBlockedCount := if event.circuitBlocked then 1 else 0
  timeoutCount := if event.timedOut then 1 else 0
  estimatedCostUsd := event.estimatedCostUsd

/-- The first record of the kind takes the event; if there is none, a new one is put last. -/
def mergeEvent (event : MeasuredUsageEvent) : List ProviderUsageRecord → List ProviderUsageRecord
  | [] => [firstRecord event]
  | record :: records =>
      if isOf event record then addEvent event record :: records
      else record :: mergeEvent event records

def buildSnapshot (records : List ProviderUsageRecord) : ProviderUsageSnapshot where
  records := records
  totalRequests := saturatingSum u64Max ProviderUsageRecord.requestCount records
  totalSuccesses := saturatingSum u64Max ProviderUsageRecord.successCount records
  totalErrors := saturatingSum u64Max ProviderUsageRecord.errorCount records
  totalRetries := saturatingSum u64Max ProviderUsageRecord.retryCount records
  totalFallbacks := saturatingSum u64Max ProviderUsageRecord.fallbackCount records
  totalCircuitBlocks := saturatingSum u64Max ProviderUsageRecord.circuitBlockedCount records
  totalTimeouts := saturatingSum u64Max ProviderUsageRecord.timeoutCount records
  totalEstimatedCostUsd :=
    if records.any fun record => record.estimatedCostUsd.isSome then
      some (records.map fun record => record.estimatedCostUsd.getD 0).sum
    else none

/-- The records of a new recorder after a number of events. -/
def recordAll (events : List MeasuredUsageEvent) : List ProviderUsageRecord :=
  events.foldl (fun records event => mergeEvent event records) []

end InMemoryProviderUsageRecorder

/-! ## A router with the recorder in memory -/

/-- What the requests share: the circuits and the guard, and the records. -/
structure RecordingWorld where
  shared : RouterWorld
  records : List ProviderUsageRecord

/-- What the surroundings contribute to a call: for a record, who stands in the attribution
slot and what is known of tokens and costs. -/
structure RecordingChoice (T : Type) where
  routing : RouterChoice T := {}
  attribution : Option ProviderUsageAttribution := none
  inputTokens : Option ℕ := none
  outputTokens : Option ℕ := none
  estimatedCostUsd : Option ℚ := none

def RecordingChoice.measure {T : Type} (choice : RecordingChoice T)
    (report : ProviderUsageReport) : MeasuredUsageEvent where
  toProviderUsageEvent := report.charge choice.attribution
  inputTokens := choice.inputTokens
  outputTokens := choice.outputTokens
  estimatedCostUsd := choice.estimatedCostUsd

def RecordingWorld.serve {P T : Type} (breaker : CircuitBreakerConfig)
    (guardrails : ProviderGuardrailConfig) (choice : RecordingChoice T) :
    (call : MeteredCall P) → RecordingWorld → Except Dropped (call.Answer T) × RecordingWorld
  | .route call, world =>
      let served := RouterWorld.serve breaker guardrails choice.routing call world.shared
      (served.1, { world with shared := served.2 })
  | .judge _, world => (.ok (), world)
  | .recordRequest report, world =>
      let event := choice.measure report
      (.ok event.toProviderUsageEvent,
        { world with records := InMemoryProviderUsageRecorder.mergeEvent event world.records })

def recordingServer (P T : Type) (breaker : CircuitBreakerConfig)
    (guardrails : ProviderGuardrailConfig) :
    Server (meteredPorts P T) Dropped RecordingWorld (RecordingChoice T) :=
  ⟨fun _ _ _ => true, fun choice call world => world.serve breaker guardrails choice call⟩

namespace InMemoryProviderUsageRecorder

/-! ## What the totals count -/

section Totals

variable {field : ProviderUsageRecord → ℕ} {share : MeasuredUsageEvent → ℕ}
  (adds : ∀ event record, min (field (addEvent event record)) u64Max =
    saturatingAdd u64Max (field record) (share event))
  (begins : ∀ event, field (firstRecord event) = share event)
include adds begins

/-- A total grows by the share of every event that is merged, whichever record takes it. -/
theorem sum_mergeEvent (event : MeasuredUsageEvent) (records : List ProviderUsageRecord) :
    min ((mergeEvent event records).map field).sum u64Max =
      saturatingAdd u64Max (records.map field).sum (share event) := by
  unfold saturatingAdd at adds ⊢
  induction records with
  | nil => simp [mergeEvent, begins]
  | cons record records inductionHypothesis =>
    unfold mergeEvent
    split
    · have added := adds event record
      simp only [List.map_cons, List.sum_cons]
      omega
    · simp only [List.map_cons, List.sum_cons]
      omega

theorem total_recordAll (events : List MeasuredUsageEvent) :
    saturatingSum u64Max field (recordAll events) = min (events.map share).sum u64Max := by
  rw [saturatingSum_eq]
  induction events using List.reverseRecOn with
  | nil => rfl
  | append_singleton events event inductionHypothesis =>
    unfold recordAll at inductionHypothesis ⊢
    rw [List.foldl_append, List.foldl_cons, List.foldl_nil, sum_mergeEvent adds begins]
    rw [← saturatingAdd_min_left, inductionHypothesis, saturatingAdd_min_left]
    simp [saturatingAdd]

end Totals

theorem min_countIf (counter : ℕ) (counts : Bool) :
    min (countIf counter counts) u64Max =
      saturatingAdd u64Max counter (if counts then 1 else 0) := by
  cases counts <;> simp [countIf, saturatingAdd]

/-- A sum of ones for those that pass is their number. -/
theorem sum_ite_eq_countP {α : Type} (test : α → Bool) (items : List α) :
    (items.map fun item => if test item then 1 else 0).sum = items.countP test := by
  induction items with
  | nil => rfl
  | cons item items inductionHypothesis =>
    rw [List.map_cons, List.sum_cons, inductionHypothesis, List.countP_cons, Nat.add_comm]

variable (events : List MeasuredUsageEvent)

theorem totalRequests_recordAll :
    (buildSnapshot (recordAll events)).totalRequests = min events.length u64Max := by
  have total := @total_recordAll ProviderUsageRecord.requestCount (fun _ => 1)
    (fun _ _ => Nat.min_eq_left (saturatingAdd_le _ _)) (fun _ => rfl) events
  rwa [List.map_const', List.sum_replicate_nat, Nat.mul_one] at total

theorem totalSuccesses_recordAll :
    (buildSnapshot (recordAll events)).totalSuccesses =
      min (events.countP fun event => event.status = .success) u64Max := by
  rw [← sum_ite_eq_countP]
  exact total_recordAll (fun _ _ => min_countIf _ _) (fun _ => by simp [firstRecord]) events

theorem totalErrors_recordAll :
    (buildSnapshot (recordAll events)).totalErrors =
      min (events.countP fun event => event.status = .error) u64Max := by
  rw [← sum_ite_eq_countP]
  exact total_recordAll (fun _ _ => min_countIf _ _) (fun _ => by simp [firstRecord]) events

/-- Every event is either a success or an error. -/
theorem countP_success_add_error :
    (events.countP fun event => event.status = .success) +
      (events.countP fun event => event.status = .error) = events.length := by
  rw [List.length_eq_countP_add_countP (fun event : MeasuredUsageEvent => event.status = .success)]
  refine congrArg _ (List.countP_congr fun event _ => ?_)
  cases event.status <;> simp

/-- The requests are the successes and the errors together, added as the counters are; and as
numbers as long as no more events were recorded than a counter can hold. -/
theorem requests_balance :
    (buildSnapshot (recordAll events)).totalRequests =
        saturatingAdd u64Max (buildSnapshot (recordAll events)).totalSuccesses
          (buildSnapshot (recordAll events)).totalErrors ∧
      (events.length ≤ u64Max → (buildSnapshot (recordAll events)).totalRequests = events.length ∧
        (buildSnapshot (recordAll events)).totalRequests =
          (buildSnapshot (recordAll events)).totalSuccesses +
            (buildSnapshot (recordAll events)).totalErrors) := by
  have split := countP_success_add_error events
  rw [totalRequests_recordAll, totalSuccesses_recordAll, totalErrors_recordAll]
  unfold saturatingAdd
  omega

end InMemoryProviderUsageRecorder

end Memcore
