import Memcore.Engine.Candidates
import Memcore.Engine.Ranking

/-!
# Lifecycle operations and the audit log

A classified candidate is applied to the fact store and the vector store: added,
merged into an existing fact, or taken as the reason to delete one. Audit events
are recorded as well as possible, so that their failure stays without effect.
-/
namespace Memcore

open Ports Programs

/-- The engine's configuration. -/
structure MemoryEngine where
  platform : Platform
  eventStore : Bool
  auditProviderName : Option String
  auditModelName : Option String
  minImportance : ℚ
  enablePiiRedaction : Bool
  embeddingDedupConfig : EmbeddingDeduplicationConfig
  rankingConfig : RankingConfig
  rrfConfig : RrfConfig
  contextCacheConfig : ContextCacheConfig
  usageAttribution : Bool

def defaultMinImportance : ℚ := 55 / 100

/-- An engine as it is constructed: without audit log, redaction or cached contexts. -/
def MemoryEngine.new (platform : Platform) : MemoryEngine where
  platform := platform
  eventStore := false
  auditProviderName := none
  auditModelName := none
  minImportance := defaultMinImportance
  enablePiiRedaction := false
  embeddingDedupConfig := .default
  rankingConfig := .default
  rrfConfig := .default
  contextCacheConfig := .default
  usageAttribution := false

/-! ## Audit events -/

/-- A new event about a tenant, with a new identifier and the current time. -/
def MemoryEvent.new (engine : MemoryEngine) (tenant : TenantContext) (factId : Option Uuid)
    (operation : MemoryEventOperation) (previousContent newContent : Option String)
    (metadata : Value) : EngineProgram MemoryEvent := do
  let id ← newUuid
  let createdAt ← now
  return ⟨id, tenant.orgId, tenant.userId, factId, operation, none, previousContent, newContent,
    engine.auditProviderName, engine.auditModelName, metadata, createdAt⟩

/-- Build an event, and record it if a store is configured. Failures are ignored. -/
def recordEventBestEffort (engine : MemoryEngine) (tenant : TenantContext)
    (build : EngineProgram MemoryEvent) : EngineProgram Unit := do
  let event ← build
  if engine.eventStore then
    let _ ← (recordEvent tenant event).attempt
    return ()
  else return ()

def auditMetadataForDecision (decision : FactOperationDecision) : Value :=
  .object [
    ("classification_confidence", .float decision.confidence),
    ("reason", .ofText decision.reason),
    ("target_fact_id", .ofText (decision.targetFactId.map Uuid.toText))]

variable (engine : MemoryEngine)

def buildAddEvent (tenant : TenantContext) (fact : Fact) (metadata : Value) :
    EngineProgram MemoryEvent :=
  MemoryEvent.new engine tenant (some fact.id) .add none (some fact.content) metadata

def buildUpdateEvent (tenant : TenantContext) (previous updated : Fact) (metadata : Value) :
    EngineProgram MemoryEvent :=
  MemoryEvent.new engine tenant (some updated.id) .update (some previous.content)
    (some updated.content) metadata

def buildDeleteEvent (tenant : TenantContext) (fact : Fact) (metadata : Value) :
    EngineProgram MemoryEvent :=
  MemoryEvent.new engine tenant (some fact.id) .delete (some fact.content) none metadata

def buildNoopEvent (tenant : TenantContext) (decision : FactOperationDecision) :
    EngineProgram MemoryEvent :=
  MemoryEvent.new engine tenant decision.targetFactId .noOp none none
    (auditMetadataForDecision decision)

def buildImportReplaceEvent (tenant : TenantContext) : EngineProgram MemoryEvent :=
  MemoryEvent.new engine tenant none .noOp none none
    (.object [("source", .string "import_replace")])

def buildForgetUserEvent (tenant : TenantContext) : EngineProgram MemoryEvent :=
  MemoryEvent.new engine tenant none .forgetUser none none (.object [("deleted", .bool true)])

/-! ## Applying a decision -/

inductive LifecycleApplyResult where
  | added (fact : Fact)
  | updated (previous updated : Fact)
  | deleted (fact : Fact)
  | noOp

def requireTargetFactId (decision : FactOperationDecision) (operation : String) :
    MemcoreResult Uuid :=
  match decision.targetFactId with
  | some factId => .ok factId
  | none => .error (.validationError
      ("target_fact_id is required for " ++ operation ++ " operation"))

/-- What a decision asks for. Archiving and summarising are not carried out. -/
inductive NormalizedOperation where
  | add
  | update (targetFactId : Uuid)
  | delete (targetFactId : Uuid)
  | noOp

def normalizeOperation (decision : FactOperationDecision) : MemcoreResult NormalizedOperation :=
  match decision.operation with
  | .add => .ok .add
  | .update => (requireTargetFactId decision "update").map .update
  | .delete => (requireTargetFactId decision "delete").map .delete
  | .noOp | .archive | .summarize => .ok .noOp

/-- The vector record of a fact, under a new identifier of its own. -/
def vectorRecordFromFact (fact : Fact) (embedding : List ℚ) : EngineProgram VectorRecord := do
  let id ← newUuid
  return ⟨id, fact.id, fact.orgId, fact.userId, embedding, fact.content, fact.memoryType,
    fact.metadata⟩

/-- The embedding that is given, or else a new one. -/
def factEmbedding (fact : Fact) : Option (List ℚ) → EngineProgram (List ℚ)
  | some embedding => return embedding
  | none => embedText fact.content

/-- Embed a fact, unless an embedding is given, and store its record. -/
def upsertFactVector (tenant : TenantContext) (fact : Fact)
    (precomputedEmbedding : Option (List ℚ)) : EngineProgram Unit := do
  let embedding ← factEmbedding fact precomputedEmbedding
  let record ← vectorRecordFromFact fact embedding
  upsertVector tenant record

/-- Delete the records of a fact; that there are none is no failure. -/
def deleteVectorIfPresent (tenant : TenantContext) (factId : Uuid) : EngineProgram Unit := do
  match ← (deleteByFactId tenant factId).attempt with
  | .ok () => return ()
  | .error error => if error.isNotFound then return () else Program.fail error

def replaceFactVector (tenant : TenantContext) (fact : Fact) : EngineProgram Unit := do
  deleteVectorIfPresent tenant fact.id
  upsertFactVector tenant fact none

/-- The fact that a candidate becomes. -/
def candidateToFact (tenant : TenantContext) (candidate : CandidateFact) :
    EngineProgram Fact := do
  let createdAt ← now
  let id ← newUuid
  Program.check (Fact.new ⟨id, tenant.orgId, tenant.userId, candidate.memoryType,
    candidate.content, none, .userMessage, candidate.confidence, candidate.importance,
    candidate.validAt, none, createdAt, createdAt, candidate.metadata⟩)

/-- A fact with the statement of a candidate and the identity of an old fact. -/
def mergeCandidateIntoFact (existing : Fact) (candidate : CandidateFact) :
    EngineProgram Fact := do
  let updatedAt ← now
  Program.check (Fact.new { existing with
    memoryType := candidate.memoryType
    content := candidate.content
    confidence := candidate.confidence
    importance := candidate.importance
    validAt := candidate.validAt
    updatedAt := updatedAt
    metadata := candidate.metadata })

def applyAdd (tenant : TenantContext) (candidate : CandidateFact)
    (precomputedEmbedding : Option (List ℚ)) : EngineProgram LifecycleApplyResult := do
  let fact ← candidateToFact tenant candidate
  let inserted ← insertFact tenant fact
  upsertFactVector tenant inserted precomputedEmbedding
  return .added inserted

/-- The active fact that an operation is about. -/
def requireFact (tenant : TenantContext) (factId : Uuid) : EngineProgram Fact := do
  match ← getFact tenant factId with
  | some fact => return fact
  | none => Program.fail (.notFound "memory not found")

def applyUpdate (tenant : TenantContext) (candidate : CandidateFact) (targetFactId : Uuid) :
    EngineProgram LifecycleApplyResult := do
  let existing ← requireFact tenant targetFactId
  let updated ← mergeCandidateIntoFact existing candidate
  let stored ← updateFact tenant updated
  replaceFactVector tenant stored
  return .updated existing stored

def applyDelete (tenant : TenantContext) (targetFactId : Uuid) :
    EngineProgram LifecycleApplyResult := do
  let existing ← requireFact tenant targetFactId
  softDeleteFact tenant targetFactId
  deleteVectorIfPresent tenant targetFactId
  return .deleted existing

def applyFactOperation (tenant : TenantContext) (candidate : CandidateFact)
    (decision : FactOperationDecision) (precomputedEmbedding : Option (List ℚ)) :
    EngineProgram LifecycleApplyResult := do
  match ← Program.check (normalizeOperation decision) with
  | .add => applyAdd tenant candidate precomputedEmbedding
  | .update targetFactId => applyUpdate tenant candidate targetFactId
  | .delete targetFactId => applyDelete tenant targetFactId
  | .noOp => return .noOp

end Memcore
