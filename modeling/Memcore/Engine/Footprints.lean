import Memcore.Engine.BuildContext
import Memcore.Engine.Import

/-!
# Footprints of the engine's operations

Every operation is about one tenant. The mutating ones make store calls of that
tenant, and touch the cache only to invalidate the tenant's contexts. The reading
ones write to no store. Both follow from the text of the programs alone, call by
call, and hold whatever is answered.
-/
namespace Memcore

open Ports Programs

/-! ## Classes of calls -/

def FactStoreCall.tenant : FactStoreCall → TenantContext
  | insertFact tenant _ | updateFact tenant _ | getFact tenant _ | softDeleteFact tenant _
  | deleteUserData tenant | deleteFactsOlderThan tenant _ _ => tenant
  | searchFacts query => query.tenant

def VectorStoreCall.tenant : VectorStoreCall → TenantContext
  | upsertVector tenant _ | deleteByFactId tenant _ | deleteByUser tenant => tenant
  | searchVectors query => query.tenant

def EventStoreCall.tenant : EventStoreCall → TenantContext
  | recordEvent tenant _ | deleteEventsOlderThan tenant _ _ => tenant
  | listEvents query => query.tenant

/-- Whoever is charged for the use of providers is the tenant. -/
def SystemCall.ChargesOnly (tenant : TenantContext) : SystemCall → Prop
  | setUsageAttribution orgId userId => orgId = tenant.orgId ∧ userId = some tenant.userId
  | _ => True

/-- The calls of a mutating operation of a tenant. It stores none but valid facts. -/
def MutatorCall (tenant : TenantContext) : Port → Prop
  | .facts (.insertFact asker fact) => asker = tenant ∧ fact.Valid
  | .facts (.updateFact asker fact) => asker = tenant ∧ fact.Valid
  | .facts call => call.tenant = tenant
  | .vectors call => call.tenant = tenant
  | .events call => call.tenant = tenant
  | .provider _ => True
  | .system call => call.ChargesOnly tenant
  | .cache (.invalidateUser orgId userId) => (⟨orgId, userId⟩ : TenantContext) = tenant
  | _ => False

/-- The calls of a reading operation of a tenant that does not use the cache. -/
def SearchCall (tenant : TenantContext) : Port → Prop
  | .facts (.getFact asker _) => asker = tenant
  | .facts (.searchFacts query) => query.tenant = tenant
  | .vectors (.searchVectors query) => query.tenant = tenant
  | .events (.listEvents query) => query.tenant = tenant
  | .provider _ => True
  | .system call => call.ChargesOnly tenant
  | _ => False

/-- The calls that change neither store nor the cache: those of a search, and those
of the audit log. -/
def QuietCall (tenant : TenantContext) : Port → Prop
  | .events call => call.tenant = tenant
  | port => SearchCall tenant port

/-- The calls of a reading operation that uses the cache and its coordinator. -/
def ReaderCall (tenant : TenantContext) : Port → Prop
  | .cache (.get key) | .cache (.getAny key) | .cache (.set key _) => key.tenant = tenant
  | .coordinator _ => True
  | port => SearchCall tenant port

theorem MutatorCall.facts_tenant {tenant : TenantContext} {call : FactStoreCall}
    (own : MutatorCall tenant (.facts call)) : call.tenant = tenant := by
  cases call with
  | insertFact asker fact => exact own.1
  | updateFact asker fact => exact own.1
  | _ => exact own

theorem within_perform {allowed : Port → Prop} {port : Port} (isAllowed : allowed port) :
    (perform port).Within allowed :=
  @Program.Within.call enginePorts MemcoreError allowed port isAllowed

/-- One allowed call and then a program within the allowed calls. -/
theorem within_step {allowed : Port → Prop} {port : Port} {α : Type}
    {next : port.Answer → EngineProgram α} (isAllowed : allowed port)
    (rest : ∀ value, (next value).Within allowed) : (perform port >>= next).Within allowed :=
  .bind (within_perform isAllowed) rest

/-- A call whose failure is looked at, and then a program within the allowed calls. -/
theorem within_attempt {allowed : Port → Prop} {port : Port} {α : Type}
    {next : MemcoreResult port.Answer → EngineProgram α} (isAllowed : allowed port)
    (rest : ∀ outcome, (next outcome).Within allowed) :
    ((perform port).attempt >>= next).Within allowed :=
  .bind (.attempt (within_perform isAllowed)) rest

/-- A check and then a program within the allowed calls. -/
theorem within_checked {allowed : Port → Prop} {α β : Type} {outcome : MemcoreResult β}
    {next : β → EngineProgram α} (rest : ∀ value, (next value).Within allowed) :
    (Program.check outcome >>= next).Within allowed :=
  .bind (.check outcome) rest

section Mutators

variable (engine : MemoryEngine) {tenant : TenantContext}

theorem memoryEventNew_within (factId : Option Uuid) (operation : MemoryEventOperation)
    (previousContent newContent : Option String) (metadata : Value) :
    (MemoryEvent.new engine tenant factId operation previousContent newContent
      metadata).Within (SearchCall tenant) :=
  within_step trivial fun _ => within_step trivial fun _ => .pure _

theorem searchCall_quietCall (port : Port) (isSearch : SearchCall tenant port) :
    QuietCall tenant port := by
  cases port with
  | events call => cases call <;> first | exact isSearch | exact isSearch.elim
  | _ => exact isSearch

theorem quietCall_mutatorCall (port : Port) (isQuiet : QuietCall tenant port) :
    MutatorCall tenant port := by
  cases port with
  | facts call => cases call <;> first | exact isQuiet | exact isQuiet.elim
  | vectors call => cases call <;> first | exact isQuiet | exact isQuiet.elim
  | events call => exact isQuiet
  | provider call => trivial
  | system call => exact isQuiet
  | cache call => exact isQuiet.elim
  | coordinator call => exact isQuiet.elim

theorem recordEventBestEffort_within {build : EngineProgram MemoryEvent}
    (building : build.Within (SearchCall tenant)) :
    (recordEventBestEffort engine tenant build).Within (QuietCall tenant) := by
  refine .bind (building.mono searchCall_quietCall) fun event => ?_
  split
  · exact within_attempt rfl fun _ => .pure _
  · exact .pure _

theorem bindUsageAttribution_within {allowed : Port → Prop}
    (charging : allowed (.system (.setUsageAttribution tenant.orgId (some tenant.userId)))) :
    (bindUsageAttribution engine tenant).Within allowed := by
  unfold bindUsageAttribution
  split
  · exact within_perform charging
  · exact .pure _

theorem invalidateUserContextCache_within :
    (invalidateUserContextCache engine tenant).Within (MutatorCall tenant) := by
  unfold invalidateUserContextCache
  split
  · exact within_attempt rfl fun _ => .pure _
  · exact .pure _

theorem vectorRecordFromFact_within (fact : Fact) (embedding : List ℚ) :
    (vectorRecordFromFact fact embedding).Within (MutatorCall tenant) :=
  within_step trivial fun _ => .pure _

theorem upsertFactVector_within (fact : Fact) (precomputedEmbedding : Option (List ℚ)) :
    (upsertFactVector tenant fact precomputedEmbedding).Within (MutatorCall tenant) := by
  refine .bind ?_ fun embedding => .bind (vectorRecordFromFact_within fact embedding)
    fun record => within_perform rfl
  cases precomputedEmbedding with
  | none => exact within_perform trivial
  | some embedding => exact .pure _

theorem deleteVectorIfPresent_within (factId : Uuid) :
    (deleteVectorIfPresent tenant factId).Within (MutatorCall tenant) := by
  refine within_attempt rfl fun outcome => ?_
  cases outcome with
  | ok value => exact .pure _
  | error error =>
    dsimp only
    split
    · exact .pure _
    · exact .fail _

theorem requireFact_within (factId : Uuid) :
    (requireFact tenant factId).Within (MutatorCall tenant) := by
  refine within_step rfl fun found => ?_
  cases found with
  | none => exact .fail _
  | some fact => exact .pure _

theorem candidateToFact_returns (candidate : CandidateFact) :
    (candidateToFact tenant candidate).Returns Fact.Valid :=
  .bind fun _ => .bind fun _ => .check fun fact created =>
    ((Fact.new_ok _ fact).mp created).1 ▸ ((Fact.new_ok _ fact).mp created).2

theorem mergeCandidateIntoFact_returns (existing : Fact) (candidate : CandidateFact) :
    (mergeCandidateIntoFact existing candidate).Returns Fact.Valid :=
  .bind fun _ => .check fun fact created =>
    ((Fact.new_ok _ fact).mp created).1 ▸ ((Fact.new_ok _ fact).mp created).2

theorem applyAdd_within (candidate : CandidateFact)
    (precomputedEmbedding : Option (List ℚ)) :
    (applyAdd tenant candidate precomputedEmbedding).Within (MutatorCall tenant) := by
  refine .bind_returns ?_ (candidateToFact_returns candidate) fun fact valid =>
    within_step ⟨rfl, valid⟩ fun inserted =>
      .bind (upsertFactVector_within inserted precomputedEmbedding) fun _ => .pure _
  exact within_step trivial fun _ => within_step trivial fun _ =>
    .check _

theorem applyUpdate_within (candidate : CandidateFact) (targetFactId : Uuid) :
    (applyUpdate tenant candidate targetFactId).Within (MutatorCall tenant) := by
  refine .bind (requireFact_within targetFactId) fun existing =>
    .bind_returns ?_ (mergeCandidateIntoFact_returns existing candidate) fun updated valid =>
      within_step ⟨rfl, valid⟩ fun stored => .bind ?_ fun _ => .pure _
  · exact within_step trivial fun _ => .check _
  · exact .bind (deleteVectorIfPresent_within stored.id) fun _ =>
      upsertFactVector_within stored none

theorem applyDelete_within (targetFactId : Uuid) :
    (applyDelete tenant targetFactId).Within (MutatorCall tenant) :=
  .bind (requireFact_within targetFactId) fun _ => within_step rfl fun _ =>
    .bind (deleteVectorIfPresent_within targetFactId) fun _ => .pure _

theorem applyFactOperation_within (candidate : CandidateFact)
    (decision : FactOperationDecision) (precomputedEmbedding : Option (List ℚ)) :
    (applyFactOperation tenant candidate decision precomputedEmbedding).Within
      (MutatorCall tenant) := by
  refine within_checked fun operation => ?_
  cases operation with
  | add => exact applyAdd_within candidate precomputedEmbedding
  | update targetFactId => exact applyUpdate_within candidate targetFactId
  | delete targetFactId => exact applyDelete_within targetFactId
  | noOp => exact .pure _

theorem skipDuplicate_within (output : AddMemoryOutput) (existingFactId : Uuid)
    (reason : String) :
    (skipDuplicate engine tenant output existingFactId reason).Within (QuietCall tenant) :=
  .bind (recordEventBestEffort_within engine (memoryEventNew_within engine _ _ _ _ _))
    fun _ => .pure _

theorem countResult_within (input : AddMemoryInput) (output : AddMemoryOutput)
    (decision : FactOperationDecision) (result : LifecycleApplyResult) :
    (countResult engine input output decision result).Within (QuietCall input.tenant) := by
  cases result <;> exact .bind (recordEventBestEffort_within engine
    (memoryEventNew_within engine _ _ _ _ _)) fun _ => .pure _

theorem detectEmbeddingDuplicate_within (memoryType : MemoryType) (embedding : List ℚ)
    (config : EmbeddingDeduplicationConfig) :
    (detectEmbeddingDuplicate tenant memoryType embedding config).Within
      (QuietCall tenant) := by
  unfold detectEmbeddingDuplicate
  split
  · exact .pure _
  · exact within_step rfl fun _ => .pure _

theorem embedAndApply_within (input : AddMemoryInput) (output : AddMemoryOutput)
    (candidate : CandidateFact) :
    (embedAndApply engine input output candidate).Within (MutatorCall input.tenant) := by
  refine within_step trivial fun embedding =>
    .bind ((detectEmbeddingDuplicate_within _ _ _).mono quietCall_mutatorCall)
      fun duplicate => ?_
  split
  · exact (skipDuplicate_within engine output _ _).mono quietCall_mutatorCall
  · exact within_step rfl fun _ => within_step trivial fun decision =>
      .bind (applyFactOperation_within candidate decision _) fun result =>
        (countResult_within engine input output decision result).mono quietCall_mutatorCall

theorem addCandidate_within (input : AddMemoryInput) (output : AddMemoryOutput)
    (extracted : CandidateFact) :
    (addCandidate engine input output extracted).Within (MutatorCall input.tenant) := by
  refine within_checked fun _ => ?_
  dsimp only
  split
  · exact .pure _
  · refine within_step rfl fun existing => ?_
    split
    · exact (skipDuplicate_within engine output _ _).mono quietCall_mutatorCall
    · exact embedAndApply_within engine input output _

theorem addCandidates_within (input : AddMemoryInput) (output : AddMemoryOutput)
    (candidates : List CandidateFact) :
    (addCandidates engine input output candidates).Within (MutatorCall input.tenant) := by
  induction candidates generalizing output with
  | nil => exact .pure _
  | cons candidate candidates inductionHypothesis =>
    exact .bind (addCandidate_within engine input output candidate) inductionHypothesis

theorem addMemory_within (input : AddMemoryInput) :
    (addMemory engine input).Within (MutatorCall input.tenant) := by
  refine within_checked fun _ => within_checked fun _ =>
    .bind (bindUsageAttribution_within engine ⟨rfl, rfl⟩) fun _ =>
      within_step trivial fun candidates =>
        .bind (addCandidates_within engine input _ candidates) fun output => ?_
  split
  · exact .bind (invalidateUserContextCache_within engine) fun _ => .pure _
  · exact .pure _

theorem deleteMemory_within (input : DeleteMemoryInput) :
    (deleteMemory engine input).Within (MutatorCall input.tenant) :=
  within_checked fun _ => .bind (requireFact_within input.memoryId) fun _ =>
    within_step rfl fun _ => within_step rfl fun _ =>
      .bind ((recordEventBestEffort_within engine
        (memoryEventNew_within engine _ _ _ _ _)).mono quietCall_mutatorCall)
        fun _ => .bind (invalidateUserContextCache_within engine) fun _ => .pure _

theorem deleteVectorsIfPresent_within (factIds : List Uuid) :
    (deleteVectorsIfPresent tenant factIds).Within (MutatorCall tenant) := by
  induction factIds with
  | nil => exact .pure _
  | cons factId factIds inductionHypothesis =>
    exact .bind (deleteVectorIfPresent_within factId) fun _ => inductionHypothesis

theorem expireFacts_within (input : ApplyRetentionInput) :
    (expireFacts input).Within (MutatorCall input.tenant) := by
  unfold expireFacts
  split
  · exact .pure _
  · refine within_step trivial fun _ => within_step rfl fun result => ?_
    split
    · exact .pure _
    · exact .bind (deleteVectorsIfPresent_within _) fun _ => .pure _

theorem expireEvents_within (input : ApplyRetentionInput) :
    (expireEvents engine input).Within (MutatorCall input.tenant) := by
  unfold expireEvents
  split
  · exact within_step trivial fun _ => within_step rfl fun _ => .pure _
  · exact .pure _

theorem applyRetention_within (input : ApplyRetentionInput) :
    (applyRetention engine input).Within (MutatorCall input.tenant) := by
  refine within_checked fun _ => ?_
  dsimp only
  split
  · exact .pure _
  · refine .bind (expireFacts_within input) fun expired =>
      .bind (expireEvents_within engine input) fun events => ?_
    split
    · exact .bind (invalidateUserContextCache_within engine) fun _ => .pure _
    · exact .pure _

theorem forgetUser_within (input : ForgetUserInput) :
    (forgetUser engine input).Within (MutatorCall input.tenant) :=
  within_checked fun _ => within_step rfl fun _ => within_step rfl fun _ =>
    .bind ((recordEventBestEffort_within engine
      (memoryEventNew_within engine _ _ _ _ _)).mono quietCall_mutatorCall)
      fun _ => .bind (invalidateUserContextCache_within engine) fun _ => .pure _

theorem importFact_within (input : ImportUserDataInput) (exported : Fact) :
    (importFact input exported).Within (MutatorCall input.tenant) := by
  have returns (factId : Uuid) : (Program.check (factForImport exported input.tenant
      factId) : EngineProgram Fact).Returns Fact.Valid :=
    .check fun fact created =>
      ((Fact.new_ok _ fact).mp created).1 ▸ ((Fact.new_ok _ fact).mp created).2
  refine within_step rfl fun existing => .bind ?_ fun factId =>
    .bind_returns (.check _) (returns factId) fun fact valid =>
      within_step ⟨rfl, valid⟩ fun _ => within_step trivial fun embedding =>
        .bind (vectorRecordFromFact_within fact embedding) fun record => within_perform rfl
  unfold resolveImportFactId
  split
  · exact within_perform trivial
  · exact .pure _

theorem importFacts_within (input : ImportUserDataInput) (exported : List Fact) :
    (importFacts input exported).Within (MutatorCall input.tenant) := by
  induction exported with
  | nil => exact .pure _
  | cons fact rest inductionHypothesis =>
    exact .bind (importFact_within input fact) fun _ =>
      .bind inductionHypothesis fun _ => .pure _

theorem restoreEventsFrom_within (input : ImportUserDataInput) (exported : List MemoryEvent) :
    (restoreEventsFrom input exported).Within (MutatorCall input.tenant) := by
  induction exported with
  | nil => exact .pure _
  | cons event rest inductionHypothesis =>
    exact .bind (within_step trivial fun _ => .pure _) fun _ => within_step rfl fun _ =>
      .bind inductionHypothesis fun _ => .pure _

theorem restoreEvents_within (input : ImportUserDataInput) :
    (restoreEvents engine input).Within (MutatorCall input.tenant) := by
  unfold restoreEvents
  split
  · exact restoreEventsFrom_within input _
  · exact .pure _

theorem replaceExisting_within (input : ImportUserDataInput) :
    (replaceExisting engine input).Within (MutatorCall input.tenant) := by
  unfold replaceExisting
  split
  · exact within_step rfl fun _ => within_step rfl fun _ =>
      .bind ((recordEventBestEffort_within engine
        (memoryEventNew_within engine _ _ _ _ _)).mono quietCall_mutatorCall) fun _ => .pure _
  · exact .pure _

theorem importUserData_within (input : ImportUserDataInput) :
    (importUserData engine input).Within (MutatorCall input.tenant) := by
  refine within_checked fun _ => ?_
  dsimp only
  split
  · exact .pure _
  · split
    · exact .fail _
    · exact .bind (replaceExisting_within engine input) fun _ =>
        .bind (importFacts_within input _) fun _ => .bind (restoreEvents_within engine input)
          fun _ => .bind (invalidateUserContextCache_within engine) fun _ => .pure _

end Mutators

section Readers

variable (engine : MemoryEngine)

theorem scoreFused_within (tenant : TenantContext) (vectorResults : List VectorSearchResult)
    (keywordFacts : List Fact) (now : Instant) (fused : List (Uuid × ℚ)) :
    (scoreFused engine tenant vectorResults keywordFacts now fused).Within
      (SearchCall tenant) := by
  induction fused with
  | nil => exact .pure _
  | cons entry fused inductionHypothesis =>
    refine .bind ?_ fun found => .bind inductionHypothesis fun rest => ?_
    · unfold findFact
      split
      · exact .pure _
      · exact within_perform rfl
    · cases found with
      | none => exact .pure _
      | some fact => exact .pure _

theorem searchMemory_within (input : SearchMemoryInput) :
    (searchMemory engine input).Within (SearchCall input.tenant) :=
  within_checked fun _ => within_checked fun _ =>
    .bind (bindUsageAttribution_within engine ⟨rfl, rfl⟩) fun _ => within_checked fun _ =>
      within_step trivial fun _ => within_step rfl fun vectorResults => within_step rfl fun _ =>
        within_step trivial fun _ => .bind (scoreFused_within engine _ vectorResults _ _ _)
          fun _ => .pure _

theorem contextItemsToFacts_within (tenant : TenantContext) (items : List ContextMemoryItem) :
    (contextItemsToFacts items).Within (SearchCall tenant) := by
  induction items with
  | nil => exact .pure _
  | cons item items inductionHypothesis =>
    exact .bind (within_step trivial fun _ => .check _) fun _ =>
      .bind inductionHypothesis fun _ => .pure _

theorem summarizeSkippedMemories_within (tenant : TenantContext)
    (memories : List ContextMemoryItem) (maxTokens : ℕ) (format : ContextFormat)
    (includeSummarySection : Bool) :
    (summarizeSkippedMemories engine tenant memories maxTokens format
      includeSummarySection).Within (SearchCall tenant) := by
  unfold summarizeSkippedMemories
  split
  · exact .pure _
  · refine .bind (.attempt (.bind (contextItemsToFacts_within tenant memories) fun _ =>
      within_step trivial fun _ => .pure _)) fun outcome => ?_
    cases outcome with
    | ok compressed => exact .pure _
    | error error => exact .pure _

theorem contextFromResults_within (input : BuildContextInput)
    (results : List MemorySearchResult) :
    (contextFromResults engine input results).Within (SearchCall input.tenant) := by
  unfold contextFromResults
  dsimp only
  split
  · exact .bind (summarizeSkippedMemories_within engine _ _ _ _ _) fun _ => .pure _
  · exact .pure _

theorem buildContextUncached_within (input : BuildContextInput) :
    (buildContextUncached engine input).Within (SearchCall input.tenant) :=
  within_checked fun maxMemories =>
    .bind (searchMemory_within engine ⟨input.tenant, input.query, maxMemories, _, _⟩)
      fun results => contextFromResults_within engine input results

theorem computeContext_within (input : BuildContextInput) :
    (computeContext engine input).Within (SearchCall input.tenant) :=
  .bind (buildContextUncached_within engine input) fun _ => within_step trivial fun _ => .pure _

theorem searchCall_readerCall {tenant : TenantContext} (port : Port)
    (isSearch : SearchCall tenant port) : ReaderCall tenant port := by
  cases port with
  | cache call => exact isSearch.elim
  | coordinator call => trivial
  | facts call => exact isSearch
  | vectors call => exact isSearch
  | events call => exact isSearch
  | provider call => trivial
  | system call => exact isSearch

variable {tenant : TenantContext} {compute : EngineProgram CachedContextEntry}
  {key : ContextCacheKey}

theorem computeEntry_within (computing : compute.Within (SearchCall tenant)) :
    (computeEntry key compute).Within (ReaderCall tenant) :=
  within_step trivial fun _ => .bind (.attempt (computing.mono searchCall_readerCall)) fun _ =>
    within_step trivial fun _ => .pure _

theorem computeUncoordinated_within (own : key.tenant = tenant)
    (computing : compute.Within (SearchCall tenant)) (isRefresh : Bool) :
    (computeUncoordinated engine key compute isRefresh).Within (ReaderCall tenant) := by
  refine .bind (computeEntry_within computing) fun outcome => ?_
  cases outcome with
  | ok entry => exact within_step own fun _ => .pure _
  | error error => exact .fail _

theorem computeHolding_within (own : key.tenant = tenant)
    (computing : compute.Within (SearchCall tenant)) (isRefresh waitedForInflight : Bool)
    (lock : LockId) : (computeHolding engine key compute isRefresh waitedForInflight
      lock).Within (ReaderCall tenant) := by
  refine within_step own fun found => ?_
  cases found with
  | some entry => exact within_step trivial fun _ => .pure _
  | none =>
    refine .bind (computeEntry_within computing) fun outcome => ?_
    cases outcome with
    | ok entry => exact within_step own fun _ => within_step trivial fun _ => .pure _
    | error error => exact within_step trivial fun _ => .fail _

theorem acquire_within (lock : LockId) : (acquire lock).Within (ReaderCall tenant) := by
  refine within_step trivial fun free => ?_
  split
  · exact within_step trivial fun _ => .pure _
  · refine within_step trivial fun acquired => ?_
    split
    · exact .pure _
    · exact .fail _

theorem computeWithStampede_within (own : key.tenant = tenant)
    (computing : compute.Within (SearchCall tenant)) (isRefresh : Bool) :
    (computeWithStampede engine key compute isRefresh).Within (ReaderCall tenant) := by
  unfold computeWithStampede
  split
  · exact computeUncoordinated_within engine own computing isRefresh
  · exact within_step trivial fun lock => .bind (acquire_within lock) fun waited =>
      .bind (.attempt (computeHolding_within engine own computing isRefresh waited lock))
        fun _ => within_step trivial fun _ => .check _

theorem staleEntry_within (own : key.tenant = tenant) :
    (staleEntry engine key).Within (ReaderCall tenant) := by
  unfold staleEntry
  split
  · refine within_step trivial fun _ => within_step own fun found => ?_
    cases found with
    | none => exact .pure _
    | some entry =>
      dsimp only
      split
      · exact within_step trivial fun _ => .pure _
      · exact .pure _
  · exact .pure _

theorem getOrCompute_within (own : key.tenant = tenant)
    (computing : compute.Within (SearchCall tenant)) :
    (getOrCompute engine key compute).Within (ReaderCall tenant) := by
  refine within_checked fun _ => within_step own fun found => ?_
  cases found with
  | some entry => exact .pure _
  | none =>
    refine .bind (staleEntry_within engine own) fun stale => ?_
    cases stale with
    | some served => exact .pure _
    | none => exact computeWithStampede_within engine own computing false

theorem checkContextRequest_within (input : BuildContextInput) :
    (checkContextRequest engine input).Within (ReaderCall input.tenant) :=
  within_checked fun _ => within_checked fun _ =>
    .bind (bindUsageAttribution_within engine ⟨rfl, rfl⟩) fun _ =>
      within_checked fun _ => within_checked fun _ => .check _

theorem buildContext_within (input : BuildContextInput) :
    (buildContext engine input).Within (ReaderCall input.tenant) := by
  refine .bind (checkContextRequest_within engine input) fun _ => ?_
  split
  · exact (buildContextUncached_within engine input).mono searchCall_readerCall
  · exact .bind (getOrCompute_within engine rfl (computeContext_within engine input))
      fun _ => .pure _

theorem refreshStaleContext_within (input : BuildContextInput) :
    (refreshStaleContext engine input).Within (ReaderCall input.tenant) := by
  refine .bind (checkContextRequest_within engine input) fun _ => ?_
  split
  · exact .pure _
  · have computing := computeWithStampede_within engine
      (show (buildContextCacheKey engine.platform input).tenant = input.tenant from rfl)
      (computeContext_within engine input) true
    refine .bind (.attempt computing) fun outcome => within_step trivial fun _ => ?_
    cases outcome with
    | ok served => exact .pure _
    | error error => exact .fail _

theorem exportUserData_within (input : ExportUserDataInput) :
    (exportUserData engine input).Within (SearchCall input.tenant) := by
  refine within_checked fun _ => within_step rfl fun _ => .bind ?_ fun _ =>
    within_step trivial fun _ => .pure _
  unfold exportedEvents
  split
  · exact within_perform rfl
  · exact .pure _

end Readers

end Memcore
