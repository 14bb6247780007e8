import Memcore.Engine.Lifecycle

/-!
# Adding, deleting, expiring and forgetting memories

The mutating operations of the engine, apart from the import. Each of them calls
the stores in the order of the source, stops at the first failure that it does
not tolerate, and invalidates the tenant's cached contexts at its end.
-/
namespace Memcore

open Ports Programs

structure AddMemoryInput where
  tenant : TenantContext
  messages : List MemoryMessage
  metadata : Value

structure AddMemoryOutput where
  added : ℕ
  updated : ℕ
  deleted : ℕ
  noop : ℕ
  memories : List Fact

structure DeleteMemoryInput where
  tenant : TenantContext
  memoryId : Uuid

structure DeleteMemoryOutput where
  deleted : Bool

structure RetentionPolicy where
  enabled : Bool
  factRetentionDays : Option ℕ
  eventRetentionDays : Option ℕ

structure ApplyRetentionInput where
  tenant : TenantContext
  policy : RetentionPolicy
  dryRun : Bool

structure ApplyRetentionOutput where
  dryRun : Bool
  factsMatched : ℕ
  factsDeleted : ℕ
  eventsMatched : ℕ
  eventsDeleted : ℕ

structure ForgetUserInput where
  tenant : TenantContext

structure ForgetUserOutput where
  deleted : Bool

/-- A retention period that is enabled and longer than zero days. -/
def RetentionPolicy.factDaysActive (policy : RetentionPolicy) : Option ℕ :=
  if !policy.enabled then none else policy.factRetentionDays.filter fun count => 0 < count

def RetentionPolicy.eventDaysActive (policy : RetentionPolicy) : Option ℕ :=
  if !policy.enabled then none else policy.eventRetentionDays.filter fun count => 0 < count

def ApplyRetentionOutput.zero (dryRun : Bool) : ApplyRetentionOutput := ⟨dryRun, 0, 0, 0, 0⟩

def validateMessages (messages : List MemoryMessage) : MemcoreResult Unit :=
  if messages.isEmpty then .error (.validationError "messages cannot be empty")
  else if messages.any fun message => Texts.isBlank message.content then
    .error (.validationError "message content cannot be empty")
  else .ok ()

variable (engine : MemoryEngine)

def messagesForLlmExtraction (messages : List MemoryMessage) : List MemoryMessage :=
  if engine.enablePiiRedaction then
    messages.map fun message =>
      { message with content := engine.platform.redactText message.content }
  else messages

def bindUsageAttribution (tenant : TenantContext) : EngineProgram Unit :=
  if engine.usageAttribution then setUsageAttribution tenant.orgId (some tenant.userId)
  else return ()

/-- Drop the cached contexts of a tenant; a failure is ignored. -/
def invalidateUserContextCache (tenant : TenantContext) : EngineProgram Unit := do
  if engine.contextCacheConfig.enabled then
    let _ ← (invalidateUser tenant.orgId tenant.userId).attempt
    return ()
  else return ()

/-! ## Adding -/

def dedupNoopDecision (existingFactId : Uuid) (reason : String) : FactOperationDecision :=
  ⟨.noOp, some existingFactId, some reason, 1⟩

/-- Count a candidate that is a duplicate, and note it in the audit log. -/
def skipDuplicate (tenant : TenantContext) (output : AddMemoryOutput) (existingFactId : Uuid)
    (reason : String) : EngineProgram AddMemoryOutput := do
  recordEventBestEffort engine tenant
    (buildNoopEvent engine tenant (dedupNoopDecision existingFactId reason))
  return { output with noop := output.noop + 1 }

/-- Count what has been applied, and note it in the audit log. -/
def countResult (input : AddMemoryInput) (output : AddMemoryOutput)
    (decision : FactOperationDecision) : LifecycleApplyResult → EngineProgram AddMemoryOutput
  | .added fact => do
      recordEventBestEffort engine input.tenant
        (buildAddEvent engine input.tenant fact input.metadata)
      return { output with added := output.added + 1, memories := output.memories ++ [fact] }
  | .updated previous updated => do
      recordEventBestEffort engine input.tenant
        (buildUpdateEvent engine input.tenant previous updated input.metadata)
      return { output with
        updated := output.updated + 1, memories := output.memories ++ [updated] }
  | .deleted fact => do
      recordEventBestEffort engine input.tenant
        (buildDeleteEvent engine input.tenant fact input.metadata)
      return { output with deleted := output.deleted + 1 }
  | .noOp => do
      recordEventBestEffort engine input.tenant (buildNoopEvent engine input.tenant decision)
      return { output with noop := output.noop + 1 }

/-- Classify a candidate that is no duplicate by words, and apply the decision. -/
def embedAndApply (input : AddMemoryInput) (output : AddMemoryOutput)
    (candidate : CandidateFact) : EngineProgram AddMemoryOutput := do
  let candidateEmbedding ← embedText candidate.content
  match ← detectEmbeddingDuplicate input.tenant candidate.memoryType candidateEmbedding
      engine.embeddingDedupConfig with
  | some (.duplicate existingFactId reason) =>
      skipDuplicate engine input.tenant output existingFactId reason
  | _ => do
      let relatedFacts ← findRelatedFacts input.tenant candidate
      let decision ← classifyFactOperation input.tenant candidate relatedFacts
      let result ← applyFactOperation input.tenant candidate decision (some candidateEmbedding)
      countResult engine input output decision result

/-- The body of the loop over the candidates. -/
def addCandidate (input : AddMemoryInput) (output : AddMemoryOutput)
    (extracted : CandidateFact) : EngineProgram AddMemoryOutput := do
  Program.check (validateCandidate extracted)
  let candidate := ImportanceScorer.adjust extracted
  if !passesImportanceThreshold candidate engine.minImportance then
    return { output with noop := output.noop + 1 }
  else
    let existingForDedup ← findExistingFactsForDedup input.tenant candidate.memoryType
    match detectDuplicate candidate existingForDedup with
    | .duplicate existingFactId reason =>
        skipDuplicate engine input.tenant output existingFactId reason
    | _ => embedAndApply engine input output candidate

def addCandidates (input : AddMemoryInput) :
    AddMemoryOutput → List CandidateFact → EngineProgram AddMemoryOutput
  | output, [] => return output
  | output, candidate :: candidates => do
      let output ← addCandidate engine input output candidate
      addCandidates input output candidates

def addMemory (input : AddMemoryInput) : EngineProgram AddMemoryOutput := do
  Program.check (validateTenant input.tenant)
  Program.check (validateMessages input.messages)
  bindUsageAttribution engine input.tenant
  let candidates ← extractFacts input.tenant (messagesForLlmExtraction engine input.messages)
    input.metadata
  let output ← addCandidates engine input ⟨0, 0, 0, 0, []⟩ candidates
  if 0 < output.added + output.updated + output.deleted then
    invalidateUserContextCache engine input.tenant
    return output
  else return output

/-! ## Deleting, expiring, forgetting -/

def deleteMemory (input : DeleteMemoryInput) : EngineProgram DeleteMemoryOutput := do
  Program.check (validateTenant input.tenant)
  let fact ← requireFact input.tenant input.memoryId
  softDeleteFact input.tenant input.memoryId
  deleteByFactId input.tenant input.memoryId
  recordEventBestEffort engine input.tenant
    (buildDeleteEvent engine input.tenant fact (.object [("source", .string "delete_memory")]))
  invalidateUserContextCache engine input.tenant
  return ⟨true⟩

/-- Delete the vectors of facts in turn. -/
def deleteVectorsIfPresent (tenant : TenantContext) : List Uuid → EngineProgram Unit
  | [] => return ()
  | factId :: factIds => do
      deleteVectorIfPresent tenant factId
      deleteVectorsIfPresent tenant factIds

/-- Expire the facts of a tenant; the numbers matched and deleted. -/
def expireFacts (input : ApplyRetentionInput) : EngineProgram (ℕ × ℕ) :=
  match input.policy.factDaysActive with
  | none => return (0, 0)
  | some factDays => do
      let current ← now
      let result ← deleteFactsOlderThan input.tenant (current - days factDays) input.dryRun
      if input.dryRun then return (result.count, 0)
      else
        deleteVectorsIfPresent input.tenant result.factIds
        return (result.count, result.count)

/-- Expire the events of a tenant, if a store is configured. -/
def expireEvents (input : ApplyRetentionInput) : EngineProgram (ℕ × ℕ) :=
  match input.policy.eventDaysActive, engine.eventStore with
  | some eventDays, true => do
      let current ← now
      let count ← deleteEventsOlderThan input.tenant (current - days eventDays) input.dryRun
      return (count, if input.dryRun then 0 else count)
  | _, _ => return (0, 0)

def applyRetention (input : ApplyRetentionInput) : EngineProgram ApplyRetentionOutput := do
  Program.check (validateTenant input.tenant)
  if !input.policy.enabled then return .zero input.dryRun
  else
    let (factsMatched, factsDeleted) ← expireFacts input
    let (eventsMatched, eventsDeleted) ← expireEvents engine input
    let output := ⟨input.dryRun, factsMatched, factsDeleted, eventsMatched, eventsDeleted⟩
    if !input.dryRun && decide (0 < factsDeleted) then
      invalidateUserContextCache engine input.tenant
      return output
    else return output

def forgetUser (input : ForgetUserInput) : EngineProgram ForgetUserOutput := do
  Program.check (validateTenant input.tenant)
  deleteUserData input.tenant
  deleteByUser input.tenant
  recordEventBestEffort engine input.tenant (buildForgetUserEvent engine input.tenant)
  invalidateUserContextCache engine input.tenant
  return ⟨true⟩

end Memcore
