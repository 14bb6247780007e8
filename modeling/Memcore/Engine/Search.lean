import Memcore.Engine.Memories

/-!
# Search and the assembly of a context

A search embeds the query, asks both stores, and fuses their answers. A context
is assembled from the results of a search; if the caller wants the skipped
memories summarised by the provider, that is done afterwards. Nothing here writes
to a store.
-/
namespace Memcore

open Ports Programs

def maxSearchLimit : ℕ := 50

structure SearchMemoryInput where
  tenant : TenantContext
  query : String
  limit : ℕ
  memoryTypes : Option (List MemoryType)
  metadataFilter : Option Value

def validateQuery (query : String) : MemcoreResult Unit := validateNonEmpty "query" query

/-- A limit must be positive and no larger than a maximum. -/
def normalizeLimit (name : String) (limit maximum : ℕ) : MemcoreResult ℕ :=
  if limit = 0 then .error (.validationError (name ++ " must be greater than 0"))
  else if maximum < limit then
    .error (.validationError (name ++ " cannot exceed " ++ toString maximum))
  else .ok limit

def normalizeSearchLimit (limit : ℕ) : MemcoreResult ℕ :=
  normalizeLimit "limit" limit maxSearchLimit

def normalizeContextMaxMemories (maxMemories : ℕ) : MemcoreResult ℕ :=
  normalizeLimit "max_memories" maxMemories maxContextMaxMemories

/-- Each source is asked for twice as many results, up to the maximum. -/
def internalSearchLimit (limit : ℕ) : ℕ := min (limit * 2) maxSearchLimit

variable (engine : MemoryEngine)

/-- The fact of a fused result: a keyword hit, or else looked up in the store. -/
def findFact (tenant : TenantContext) (keywordFacts : List Fact) (factId : Uuid) :
    EngineProgram (Option Fact) :=
  match keywordFacts.find? fun fact => decide (fact.id = factId) with
  | some fact => return some fact
  | none => getFact tenant factId

/-- A fused result with its scores. Content and metadata are those of the vector
record, of the last one if several are about the fact. -/
def scoreFact (vectorResults : List VectorSearchResult) (now : Instant) (fact : Fact)
    (rrfScore : ℚ) : ScoredResult :=
  let vectorResult := vectorResults.reverse.find? fun result => decide (result.factId = fact.id)
  { result := {
      factId := fact.id
      content := (vectorResult.map VectorSearchResult.content).getD fact.content
      memoryType := fact.memoryType
      score := rrfScore
      confidence := fact.confidence
      importance := fact.importance
      validAt := fact.validAt
      metadata := (vectorResult.map VectorSearchResult.metadata).getD fact.metadata }
    weighted := weightedScoreFor ((vectorResult.map VectorSearchResult.score).getD 0) fact now
      engine.rankingConfig
    updatedAt := fact.updatedAt }

/-- Score the fused results in turn; those without an active fact are left out. -/
def scoreFused (tenant : TenantContext) (vectorResults : List VectorSearchResult)
    (keywordFacts : List Fact) (now : Instant) :
    List (Uuid × ℚ) → EngineProgram (List ScoredResult)
  | [] => return []
  | (factId, rrfScore) :: fused => do
      let found ← findFact tenant keywordFacts factId
      let rest ← scoreFused tenant vectorResults keywordFacts now fused
      match found with
      | some fact => return scoreFact engine vectorResults now fact rrfScore :: rest
      | none => return rest

def searchMemory (input : SearchMemoryInput) : EngineProgram (List MemorySearchResult) := do
  Program.check (validateTenant input.tenant)
  Program.check (validateQuery input.query)
  bindUsageAttribution engine input.tenant
  let limit ← Program.check (normalizeSearchLimit input.limit)
  let embedding ← embedText input.query
  let vectorResults ← searchVectors ⟨input.tenant, embedding, internalSearchLimit limit,
    input.memoryTypes, input.metadataFilter⟩
  let keywordFacts ← searchFacts ⟨input.tenant, input.memoryTypes, some input.query,
    internalSearchLimit limit, none, false⟩
  let fused := reciprocalRankFusion (rankedFrom 1 (vectorResults.map VectorSearchResult.factId))
    (rankedFrom 1 (keywordFacts.map Fact.id)) engine.rrfConfig
  let current ← now
  let scored ← scoreFused engine input.tenant vectorResults keywordFacts current fused
  return ((scored.insertionSort ScoredResult.comesFirst).take limit).map ScoredResult.result

/-! ## Assembly -/

/-- A skipped memory as a fact that the provider can be given. -/
def contextItemToFact (item : ContextMemoryItem) : EngineProgram Fact := do
  let current ← now
  Program.check (Fact.new ⟨item.factId, "compression", "compression", item.memoryType,
    item.content, none, .system, item.confidence, item.importance, item.validAt, none, current,
    current, .object []⟩)

def contextItemsToFacts : List ContextMemoryItem → EngineProgram (List Fact)
  | [] => return []
  | item :: items => do
      let fact ← contextItemToFact item
      let facts ← contextItemsToFacts items
      return fact :: facts

/-- The provider's summary of the skipped memories. -/
def llmSummarizeMemories (tenant : TenantContext) (memories : List ContextMemoryItem)
    (maxTokens : ℕ) (format : ContextFormat) (includeSummarySection : Bool) :
    EngineProgram CompressedContext := do
  let facts ← contextItemsToFacts memories
  let summary ← summarizeMemory tenant facts (some maxTokens)
  return wrapProviderSummary engine.platform summary memories.length format includeSummarySection

/-- The provider's summary, or the deterministic one if the provider fails. -/
def summarizeSkippedMemories (tenant : TenantContext) (memories : List ContextMemoryItem)
    (maxTokens : ℕ) (format : ContextFormat) (includeSummarySection : Bool) :
    EngineProgram (CompressedContext × ContextCompressionMode) := do
  if memories.isEmpty then return (.empty, .disabled)
  else
    match ← (llmSummarizeMemories engine tenant memories maxTokens format
        includeSummarySection).attempt with
    | .ok compressed => return (compressed, .providerSummary)
    | .error _ => return (SimpleContextCompressor.compress engine.platform memories maxTokens
        format includeSummarySection, .simpleExtractive)

/-- The answer made of an assembled context. -/
def uncachedOutput (assembled : AssembledContext) : BuildContextOutput :=
  ⟨assembled.context, assembled.memories, assembled.budget, assembled.compression, .disabled⟩

/-- Assemble a context from ranked memories, with the provider's summary if the
caller wants one, memories were skipped, and tokens are left. -/
def contextFromResults (input : BuildContextInput) (results : List MemorySearchResult) :
    EngineProgram BuildContextOutput := do
  let compressionOptions := input.compressionOptions
  let assembled := assembleContextWithBudget engine.platform results input.includeMetadata
    input.formatOptions input.budget compressionOptions
  let summaryBudget := effectiveSummaryBudget assembled.budget.availableTokens
    assembled.budget.usedTokens compressionOptions.summaryMaxTokens
  if decide (compressionOptions.mode = .providerSummary) && !assembled.skippedItems.isEmpty &&
      decide (0 < summaryBudget) then
    let (compressed, effectiveMode) ← summarizeSkippedMemories engine input.tenant
      assembled.skippedItems summaryBudget input.formatOptions.format
      compressionOptions.includeSummarySection
    return uncachedOutput (applyProviderCompressionSummary engine.platform assembled compressed
      input.formatOptions.format assembled.budget.availableTokens effectiveMode)
  else return uncachedOutput assembled

def buildContextUncached (input : BuildContextInput) : EngineProgram BuildContextOutput := do
  let maxMemories ← Program.check (normalizeContextMaxMemories input.maxMemories)
  let results ← searchMemory engine ⟨input.tenant, input.query, maxMemories, input.memoryTypes,
    none⟩
  contextFromResults engine input results

end Memcore
