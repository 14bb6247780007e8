import Memcore.Guarantees.Pagination
import Memcore.Guarantees.Provenance

/-!
# Tenants are isolated

Every operation of the engine keeps to its tenant: it makes the calls of this tenant
alone, and what it returns is explained by what this tenant has stored. So no
operation touches the data of another tenant, whatever identifiers the model's decision
or an import names. Two things are shared by design. A store into the bounded cache may
displace another tenant's context, and an audit event repeats the identifier that the
model has decided on.
-/
namespace Memcore

open KeyedTables Pages Ports Programs

/-- The program keeps to the calls of a tenant, and returns good values. -/
abbrev KeepsTo (engine : MemoryEngine) (chronicle : Chronicle) (start : World)
    (tenant : TenantContext) {α : Type} (program : EngineProgram α) (good : α → Prop) : Prop :=
  program.Honours (isolation engine chronicle tenant start) good

section Operations

variable {engine : MemoryEngine} {chronicle : Chronicle} {start : World}
  {tenant : TenantContext}

theorem keeps_call {port : Port} (confined : Confined engine chronicle tenant start port)
    {good : port.Answer → Prop}
    (promised : ∀ value, Promised engine chronicle tenant start port (.ok value) → good value) :
    KeepsTo engine chronicle start tenant (perform port) good :=
  @Program.Honours.call enginePorts MemcoreError (isolation engine chronicle tenant start) port
    confined good promised

/-- A call of the tenant, and then a program that relies on its answer. -/
theorem keeps_step {port : Port} {α : Type} {next : port.Answer → EngineProgram α}
    {good : α → Prop} (confined : Confined engine chronicle tenant start port)
    (rest : ∀ value, Promised engine chronicle tenant start port (.ok value) →
      KeepsTo engine chronicle start tenant (next value) good) :
    KeepsTo engine chronicle start tenant (perform port >>= next) good :=
  .bind (keeps_call confined fun _ promised => promised) rest

/-- A call of the tenant whose failure is looked at. -/
theorem keeps_attempt {port : Port} {α : Type}
    {next : MemcoreResult port.Answer → EngineProgram α} {good : α → Prop}
    (confined : Confined engine chronicle tenant start port)
    (rest : ∀ outcome, KeepsTo engine chronicle start tenant (next outcome) good) :
    KeepsTo engine chronicle start tenant ((perform port).attempt >>= next) good :=
  .bind (.attempt (keeps_call confined fun _ promised => promised)) fun outcome _ => rest outcome

theorem keeps_checked {α β : Type} {outcome : MemcoreResult β} {next : β → EngineProgram α}
    {good : α → Prop} (rest : ∀ value, KeepsTo engine chronicle start tenant (next value) good) :
    KeepsTo engine chronicle start tenant (Program.check outcome >>= next) good :=
  .bind (.check fun _ _ => trivial) fun value _ => rest value

theorem searchCall_confined (port : Port) (isSearch : SearchCall tenant port) :
    Confined engine chronicle tenant start port := by
  cases port with
  | facts call => cases call <;> first | exact isSearch | exact isSearch.elim
  | vectors call => cases call <;> first | exact isSearch | exact isSearch.elim
  | events call => cases call <;> first | exact isSearch | exact isSearch.elim
  | provider call => trivial
  | system call => trivial
  | cache call => exact isSearch.elim
  | coordinator call => exact isSearch.elim

theorem bindUsageAttribution_keeps :
    KeepsTo engine chronicle start tenant (bindUsageAttribution engine tenant) fun _ => True :=
  (bindUsageAttribution_within engine ⟨rfl, rfl⟩).honours searchCall_confined

theorem invalidateUserContextCache_keeps :
    KeepsTo engine chronicle start tenant (invalidateUserContextCache engine tenant)
      fun _ => True := by
  unfold invalidateUserContextCache
  split
  · exact keeps_attempt rfl fun _ => .pure trivial
  · exact .pure trivial

/-- An event may be recorded if its name and its contents are explained. -/
theorem recordNew_keeps {factId : Option Uuid} {operation : MemoryEventOperation}
    {previousContent newContent : Option String} {metadata : Value}
    (explained : ∀ event : MemoryEvent, event.factId = factId → event.operation = operation →
      event.previousContent = previousContent → event.newContent = newContent →
        Explained chronicle tenant event) :
    KeepsTo engine chronicle start tenant (recordEventBestEffort engine tenant
      (MemoryEvent.new engine tenant factId operation previousContent newContent metadata))
      fun _ => True := by
  have building : KeepsTo engine chronicle start tenant
      (MemoryEvent.new engine tenant factId operation previousContent newContent metadata)
      (Explained chronicle tenant) :=
    keeps_step trivial fun id _ => keeps_step trivial fun createdAt _ =>
      .pure (explained _ rfl rfl rfl rfl)
  refine .bind building fun event isExplained => ?_
  split
  · exact keeps_attempt ⟨rfl, isExplained⟩ fun _ => .pure trivial
  · exact .pure trivial

/-- Events that report nothing done are explained whatever they name. -/
theorem recordNoop_keeps {factId : Option Uuid} {metadata : Value} :
    KeepsTo engine chronicle start tenant (recordEventBestEffort engine tenant
      (MemoryEvent.new engine tenant factId .noOp none none metadata)) fun _ => True :=
  recordNew_keeps fun _ _ isNoOp noPrevious noNew => .nothingDone isNoOp noPrevious noNew

/-- An event about one fact of the tenant is explained. -/
theorem explained_fact {fact : Fact} (stored : StoredUnder chronicle tenant fact)
    {event : MemoryEvent} (named : event.factId = some fact.id)
    (previous : ∀ content ∈ event.previousContent, ∃ other,
      StoredUnder chronicle tenant other ∧ other.content = content)
    (new : ∀ content ∈ event.newContent, ∃ other,
      StoredUnder chronicle tenant other ∧ other.content = content) :
    Explained chronicle tenant event := by
  refine .ownFacts (fun id member => ⟨fact, stored, ?_⟩) previous new
  rw [named] at member
  exact Option.some.inj member

/-! ## Applying a decision -/

/-- The facts of a result are the tenant's. -/
def ResultOwn (chronicle : Chronicle) (tenant : TenantContext) : LifecycleApplyResult → Prop
  | .added fact => StoredUnder chronicle tenant fact
  | .updated previous updated =>
      StoredUnder chronicle tenant previous ∧ StoredUnder chronicle tenant updated
  | .deleted fact => StoredUnder chronicle tenant fact
  | .noOp => True

attribute [grind =] ResultOwn

theorem deleteVectorIfPresent_keeps (factId : Uuid) :
    KeepsTo engine chronicle start tenant (deleteVectorIfPresent tenant factId)
      fun _ => True := by
  refine keeps_attempt rfl fun outcome => ?_
  cases outcome with
  | ok value => exact .pure trivial
  | error error =>
    dsimp only
    split
    · exact .pure trivial
    · exact .fail _

theorem requireFact_keeps (factId : Uuid) :
    KeepsTo engine chronicle start tenant (requireFact tenant factId)
      (StoredUnder chronicle tenant) := by
  refine keeps_step rfl fun found stored => ?_
  cases found with
  | none => exact .fail _
  | some fact => exact .pure stored

/-- The record of a fact of the tenant may be stored, since its identifier is new. -/
theorem storeRecord_keeps {fact : Fact} (stored : StoredUnder chronicle tenant fact)
    (embedding : List ℚ) :
    KeepsTo engine chronicle start tenant
      (vectorRecordFromFact fact embedding >>= upsertVector tenant) fun _ => True := by
  have building : KeepsTo engine chronicle start tenant (vectorRecordFromFact fact embedding)
      fun record => Unclaimed start tenant record.id ∧
        States chronicle tenant record.factId record.content record.metadata :=
    keeps_step trivial fun id unclaimed => .pure ⟨unclaimed, fact, stored, rfl, rfl, rfl⟩
  refine .bind building fun record allowed => keeps_call ?_ fun _ _ => trivial
  exact ⟨rfl, allowed⟩

theorem upsertFactVector_keeps {fact : Fact} (stored : StoredUnder chronicle tenant fact)
    (precomputedEmbedding : Option (List ℚ)) :
    KeepsTo engine chronicle start tenant (upsertFactVector tenant fact precomputedEmbedding)
      fun _ => True := by
  have embedding : KeepsTo engine chronicle start tenant
      (factEmbedding fact precomputedEmbedding) fun _ => True := by
    cases precomputedEmbedding with
    | none =>
      refine keeps_call ?_ fun _ _ => trivial
      trivial
    | some embedding => exact .pure trivial
  exact .bind embedding fun embedding _ => storeRecord_keeps stored embedding

theorem applyAdd_keeps (candidate : CandidateFact) (precomputedEmbedding : Option (List ℚ)) :
    KeepsTo engine chronicle start tenant (applyAdd tenant candidate precomputedEmbedding)
      (ResultOwn chronicle tenant) := by
  have creating : KeepsTo engine chronicle start tenant (candidateToFact tenant candidate)
      fun _ => True :=
    keeps_step trivial fun _ _ => keeps_step trivial fun _ _ => .check fun _ _ => trivial
  exact .bind creating fun fact _ => keeps_step rfl fun inserted stored =>
    .bind (upsertFactVector_keeps stored.2 precomputedEmbedding) fun _ _ => .pure stored.2

theorem applyUpdate_keeps (candidate : CandidateFact) (targetFactId : Uuid) :
    KeepsTo engine chronicle start tenant (applyUpdate tenant candidate targetFactId)
      (ResultOwn chronicle tenant) := by
  refine .bind (requireFact_keeps targetFactId) fun existing existingStored => ?_
  have merging : KeepsTo engine chronicle start tenant
      (mergeCandidateIntoFact existing candidate) fun _ => True :=
    keeps_step trivial fun _ _ => .check fun _ _ => trivial
  refine .bind merging fun updated _ => keeps_step rfl fun stored isStored => ?_
  have replacing : KeepsTo engine chronicle start tenant (replaceFactVector tenant stored)
      fun _ => True :=
    .bind (deleteVectorIfPresent_keeps stored.id) fun _ _ => upsertFactVector_keeps isStored none
  exact .bind replacing fun _ _ => .pure ⟨existingStored, isStored⟩

theorem applyDelete_keeps (targetFactId : Uuid) :
    KeepsTo engine chronicle start tenant (applyDelete tenant targetFactId)
      (ResultOwn chronicle tenant) :=
  .bind (requireFact_keeps targetFactId) fun _ stored => keeps_step rfl fun _ _ =>
    .bind (deleteVectorIfPresent_keeps targetFactId) fun _ _ => .pure stored

/-- Whatever a decision names, it is applied to facts of the tenant. -/
theorem applyFactOperation_keeps (candidate : CandidateFact) (decision : FactOperationDecision)
    (precomputedEmbedding : Option (List ℚ)) :
    KeepsTo engine chronicle start tenant
      (applyFactOperation tenant candidate decision precomputedEmbedding)
      (ResultOwn chronicle tenant) := by
  refine keeps_checked fun operation => ?_
  cases operation with
  | add => exact applyAdd_keeps candidate precomputedEmbedding
  | update targetFactId => exact applyUpdate_keeps candidate targetFactId
  | delete targetFactId => exact applyDelete_keeps targetFactId
  | noOp => exact .pure trivial

/-! ## Adding -/

/-- The memories that an addition reports are the tenant's. -/
def MemoriesOwn (chronicle : Chronicle) (tenant : TenantContext) (output : AddMemoryOutput) :
    Prop :=
  ∀ fact ∈ output.memories, StoredUnder chronicle tenant fact

theorem memoriesOwn_append {output : AddMemoryOutput}
    (own : MemoriesOwn chronicle tenant output) {fact : Fact}
    (stored : StoredUnder chronicle tenant fact) :
    ∀ other ∈ output.memories ++ [fact], StoredUnder chronicle tenant other := by
  intro other member
  obtain old | added := List.mem_append.mp member
  · exact own other old
  · exact List.mem_singleton.mp added ▸ stored

theorem skipDuplicate_keeps {output : AddMemoryOutput} (own : MemoriesOwn chronicle tenant output)
    (existingFactId : Uuid) (reason : String) :
    KeepsTo engine chronicle start tenant
      (skipDuplicate engine tenant output existingFactId reason)
      (MemoriesOwn chronicle tenant) :=
  .bind recordNoop_keeps fun _ _ => .pure own

theorem countResult_keeps (input : AddMemoryInput) {output : AddMemoryOutput}
    (own : MemoriesOwn chronicle input.tenant output) (decision : FactOperationDecision)
    {result : LifecycleApplyResult} (resultOwn : ResultOwn chronicle input.tenant result) :
    KeepsTo engine chronicle start input.tenant (countResult engine input output decision result)
      (MemoriesOwn chronicle input.tenant) := by
  cases result with
  | added fact =>
    refine .bind (recordNew_keeps fun event named _ previous new => ?_) fun _ _ =>
      .pure (memoriesOwn_append own resultOwn)
    refine explained_fact resultOwn named ?_ ?_
    · simp [previous]
    · rw [new]
      rintro content ⟨⟩
      exact ⟨fact, resultOwn, rfl⟩
  | updated before updated =>
    refine .bind (recordNew_keeps fun event named _ previous new => ?_) fun _ _ =>
      .pure (memoriesOwn_append own resultOwn.2)
    refine explained_fact resultOwn.2 named ?_ ?_
    · rw [previous]
      rintro content ⟨⟩
      exact ⟨before, resultOwn.1, rfl⟩
    · rw [new]
      rintro content ⟨⟩
      exact ⟨updated, resultOwn.2, rfl⟩
  | deleted fact =>
    refine .bind (recordNew_keeps fun event named _ previous new => ?_) fun _ _ => .pure own
    refine explained_fact resultOwn named ?_ ?_
    · rw [previous]
      rintro content ⟨⟩
      exact ⟨fact, resultOwn, rfl⟩
    · simp [new]
  | noOp => exact .bind recordNoop_keeps fun _ _ => .pure own

theorem embedAndApply_keeps (input : AddMemoryInput) {output : AddMemoryOutput}
    (own : MemoriesOwn chronicle input.tenant output) (candidate : CandidateFact) :
    KeepsTo engine chronicle start input.tenant (embedAndApply engine input output candidate)
      (MemoriesOwn chronicle input.tenant) := by
  refine keeps_step trivial fun embedding _ => ?_
  have detecting : KeepsTo engine chronicle start input.tenant (detectEmbeddingDuplicate
      input.tenant candidate.memoryType embedding engine.embeddingDedupConfig)
      fun _ => True := by
    unfold detectEmbeddingDuplicate
    split
    · exact .pure trivial
    · exact keeps_step rfl fun _ _ => .pure trivial
  refine .bind detecting fun duplicate _ => ?_
  split
  · exact skipDuplicate_keeps own _ _
  · exact keeps_step rfl fun _ _ => keeps_step trivial fun decision _ =>
      .bind (applyFactOperation_keeps candidate decision _) fun _ resultOwn =>
        countResult_keeps input own decision resultOwn

theorem addCandidate_keeps (input : AddMemoryInput) {output : AddMemoryOutput}
    (own : MemoriesOwn chronicle input.tenant output) (extracted : CandidateFact) :
    KeepsTo engine chronicle start input.tenant (addCandidate engine input output extracted)
      (MemoriesOwn chronicle input.tenant) := by
  refine keeps_checked fun _ => ?_
  dsimp only
  split
  · exact .pure own
  · refine keeps_step rfl fun existing _ => ?_
    split
    · exact skipDuplicate_keeps own _ _
    · exact embedAndApply_keeps input own _

theorem addCandidates_keeps (input : AddMemoryInput) {output : AddMemoryOutput}
    (own : MemoriesOwn chronicle input.tenant output) (candidates : List CandidateFact) :
    KeepsTo engine chronicle start input.tenant (addCandidates engine input output candidates)
      (MemoriesOwn chronicle input.tenant) := by
  induction candidates generalizing output with
  | nil => exact .pure own
  | cons candidate candidates inductionHypothesis =>
    exact .bind (addCandidate_keeps input own candidate) fun _ later => inductionHypothesis later

theorem addMemory_keeps (input : AddMemoryInput) :
    KeepsTo engine chronicle start input.tenant (addMemory engine input)
      (MemoriesOwn chronicle input.tenant) := by
  refine keeps_checked fun _ => keeps_checked fun _ => .bind bindUsageAttribution_keeps
    fun _ _ => keeps_step trivial fun candidates _ => ?_
  have nothingYet : MemoriesOwn chronicle input.tenant ⟨0, 0, 0, 0, []⟩ :=
    fun fact member => absurd member List.not_mem_nil
  refine .bind (addCandidates_keeps input nothingYet candidates) fun output own => ?_
  split
  · exact .bind invalidateUserContextCache_keeps fun _ _ => .pure own
  · exact .pure own

/-! ## Deleting, expiring, forgetting -/

theorem deleteMemory_keeps (input : DeleteMemoryInput) :
    KeepsTo engine chronicle start input.tenant (deleteMemory engine input) fun _ => True := by
  refine keeps_checked fun _ => .bind (requireFact_keeps input.memoryId) fun fact stored =>
    keeps_step rfl fun _ _ => keeps_step rfl fun _ _ => .bind (recordNew_keeps
      fun event named _ previous new => ?_) fun _ _ =>
        .bind invalidateUserContextCache_keeps fun _ _ => .pure trivial
  refine explained_fact stored named ?_ ?_
  · rw [previous]
    rintro content ⟨⟩
    exact ⟨fact, stored, rfl⟩
  · simp [new]

theorem deleteVectorsIfPresent_keeps (factIds : List Uuid) :
    KeepsTo engine chronicle start tenant (deleteVectorsIfPresent tenant factIds)
      fun _ => True := by
  induction factIds with
  | nil => exact .pure trivial
  | cons factId factIds inductionHypothesis =>
    exact .bind (deleteVectorIfPresent_keeps factId) fun _ _ => inductionHypothesis

theorem expireFacts_keeps (input : ApplyRetentionInput) :
    KeepsTo engine chronicle start input.tenant (expireFacts input) fun _ => True := by
  unfold expireFacts
  split
  · exact .pure trivial
  · refine keeps_step trivial fun _ _ => keeps_step rfl fun result _ => ?_
    split
    · exact .pure trivial
    · exact .bind (deleteVectorsIfPresent_keeps _) fun _ _ => .pure trivial

theorem expireEvents_keeps (input : ApplyRetentionInput) :
    KeepsTo engine chronicle start input.tenant (expireEvents engine input) fun _ => True := by
  unfold expireEvents
  split
  · exact keeps_step trivial fun _ _ => keeps_step rfl fun _ _ => .pure trivial
  · exact .pure trivial

theorem applyRetention_keeps (input : ApplyRetentionInput) :
    KeepsTo engine chronicle start input.tenant (applyRetention engine input) fun _ => True := by
  refine keeps_checked fun _ => ?_
  dsimp only
  split
  · exact .pure trivial
  · refine .bind (expireFacts_keeps input) fun expired _ =>
      .bind (expireEvents_keeps input) fun events _ => ?_
    split
    · exact .bind invalidateUserContextCache_keeps fun _ _ => .pure trivial
    · exact .pure trivial

theorem forgetUser_keeps (input : ForgetUserInput) :
    KeepsTo engine chronicle start input.tenant (forgetUser engine input) fun _ => True := by
  refine keeps_checked fun _ => keeps_step rfl fun _ _ => keeps_step rfl fun _ _ =>
    .bind (recordNew_keeps fun event named _ previous new => ?_) fun _ _ =>
      .bind invalidateUserContextCache_keeps fun _ _ => .pure trivial
  exact .ownFacts (by simp [named]) (by simp [previous]) (by simp [new])

/-! ## Import and export -/

theorem storeImported_keeps (fact : Fact) :
    KeepsTo engine chronicle start tenant (storeImported tenant fact) fun _ => True := by
  refine keeps_step rfl fun inserted stored => keeps_step trivial fun embedding _ => ?_
  have isStored : StoredUnder chronicle tenant fact := stored.1 ▸ stored.2
  exact storeRecord_keeps isStored embedding

theorem importFact_keeps (input : ImportUserDataInput) (exported : Fact) :
    KeepsTo engine chronicle start input.tenant (importFact input exported) fun _ => True := by
  refine keeps_step rfl fun existing _ => ?_
  have naming : KeepsTo engine chronicle start input.tenant
      (resolveImportFactId exported.id existing.isSome input.mode) fun _ => True := by
    unfold resolveImportFactId
    split
    · refine keeps_call ?_ fun _ _ => trivial
      trivial
    · exact .pure trivial
  exact .bind naming fun factId _ => keeps_checked fun fact => storeImported_keeps fact

theorem importFacts_keeps (input : ImportUserDataInput) (exported : List Fact) :
    KeepsTo engine chronicle start input.tenant (importFacts input exported) fun _ => True := by
  induction exported with
  | nil => exact .pure trivial
  | cons fact rest inductionHypothesis =>
    exact .bind (importFact_keeps input fact) fun _ _ =>
      .bind inductionHypothesis fun _ _ => .pure trivial

theorem restoreEventsFrom_keeps {input : ImportUserDataInput}
    (performed : .importUserData input ∈ chronicle.operations)
    (wanted : input.restoreEvents = true) {exported : List MemoryEvent}
    (carried : exported ⊆ input.payload.memoryEvents) :
    KeepsTo engine chronicle start input.tenant (restoreEventsFrom input exported)
      fun _ => True := by
  induction exported with
  | nil => exact .pure trivial
  | cons event rest inductionHypothesis =>
    obtain ⟨first, later⟩ := List.cons_subset.mp carried
    have restoring : KeepsTo engine chronicle start input.tenant (restoredEventFromExport event)
        (Explained chronicle input.tenant) :=
      keeps_step trivial fun id _ => .pure (.restored input event performed rfl wanted first rfl)
    exact .bind restoring fun restored explained => keeps_step ⟨rfl, explained⟩ fun _ _ =>
      .bind (inductionHypothesis later) fun _ _ => .pure trivial

theorem restoreEvents_keeps {input : ImportUserDataInput}
    (performed : .importUserData input ∈ chronicle.operations) :
    KeepsTo engine chronicle start input.tenant (restoreEvents engine input) fun _ => True := by
  unfold restoreEvents
  split
  · rename_i wanted
    rw [Bool.and_eq_true] at wanted
    exact restoreEventsFrom_keeps performed wanted.1 (List.Subset.refl _)
  · exact .pure trivial

theorem replaceExisting_keeps (input : ImportUserDataInput) :
    KeepsTo engine chronicle start input.tenant (replaceExisting engine input) fun _ => True := by
  unfold replaceExisting
  split
  · exact keeps_step rfl fun _ _ => keeps_step rfl fun _ _ =>
      .bind recordNoop_keeps fun _ _ => .pure trivial
  · exact .pure trivial

theorem importUserData_keeps {input : ImportUserDataInput}
    (performed : .importUserData input ∈ chronicle.operations) :
    KeepsTo engine chronicle start input.tenant (importUserData engine input) fun _ => True := by
  refine keeps_checked fun _ => ?_
  dsimp only
  split
  · exact .pure trivial
  · split
    · exact .fail _
    · exact .bind (replaceExisting_keeps input) fun _ _ =>
        .bind (importFacts_keeps input _) fun _ _ => .bind (restoreEvents_keeps performed)
          fun _ _ => .bind invalidateUserContextCache_keeps fun _ _ => .pure trivial

/-- What an export holds is the tenant's. -/
structure ExportOwn (chronicle : Chronicle) (tenant : TenantContext) (payload : UserMemoryExport) :
    Prop where
  orgId : payload.orgId = tenant.orgId
  userId : payload.userId = tenant.userId
  facts : ∀ fact ∈ payload.facts, StoredUnder chronicle tenant fact
  events : ∀ event ∈ payload.memoryEvents, RecordedUnder chronicle tenant event

theorem exportUserData_keeps (input : ExportUserDataInput) :
    KeepsTo engine chronicle start input.tenant (exportUserData engine input)
      (ExportOwn chronicle input.tenant) := by
  refine keeps_checked fun _ => keeps_step rfl fun facts stored => ?_
  have listing : KeepsTo engine chronicle start input.tenant (exportedEvents engine input)
      fun events => ∀ event ∈ events, RecordedUnder chronicle input.tenant event := by
    unfold exportedEvents
    split
    · refine keeps_call ?_ fun _ recorded => recorded
      rfl
    · exact .pure fun event member => absurd member List.not_mem_nil
  exact .bind listing fun events recorded => keeps_step trivial fun _ _ =>
    .pure ⟨rfl, rfl, stored, recorded⟩

/-! ## Searching, and contexts -/

theorem findFact_keeps {keywordFacts : List Fact}
    (stored : ∀ fact ∈ keywordFacts, StoredUnder chronicle tenant fact) (factId : Uuid) :
    KeepsTo engine chronicle start tenant (findFact tenant keywordFacts factId)
      fun found => ∀ fact ∈ found, StoredUnder chronicle tenant fact := by
  unfold findFact
  split
  · rename_i fact found
    refine .pure ?_
    rintro _ ⟨⟩
    exact stored fact (List.mem_of_find?_eq_some found)
  · refine keeps_call ?_ fun found promised => ?_
    · rfl
    · rintro fact member
      cases found with
      | none => nomatch member
      | some other =>
        obtain rfl : other = fact := Option.some.inj member
        exact promised

/-- A scored result is about a fact of the tenant, since the vector record that it is
worded after states one of the same identifier. -/
theorem scoreFact_own {vectorResults : List VectorSearchResult}
    (stated : ∀ result ∈ vectorResults,
      States chronicle tenant result.factId result.content result.metadata)
    (now : Instant) {fact : Fact} (stored : StoredUnder chronicle tenant fact) (rrfScore : ℚ) :
    ConcernsOwn chronicle tenant (scoreFact engine vectorResults now fact rrfScore).result := by
  refine ⟨⟨fact, stored, rfl, rfl, rfl, rfl, rfl⟩, ?_⟩
  simp only [scoreFact]
  cases found : vectorResults.reverse.find? fun result => decide (result.factId = fact.id) with
  | none => exact ⟨fact, stored, rfl, rfl, rfl⟩
  | some result =>
    have member := List.mem_reverse.mp (List.mem_of_find?_eq_some found)
    have same : result.factId = fact.id := by simpa using List.find?_some found
    exact same ▸ stated result member

theorem scoreFused_keeps {vectorResults : List VectorSearchResult} {keywordFacts : List Fact}
    (stated : ∀ result ∈ vectorResults,
      States chronicle tenant result.factId result.content result.metadata)
    (stored : ∀ fact ∈ keywordFacts, StoredUnder chronicle tenant fact) (now : Instant)
    (fused : List (Uuid × ℚ)) :
    KeepsTo engine chronicle start tenant
      (scoreFused engine tenant vectorResults keywordFacts now fused)
      fun scored => ∀ entry ∈ scored, ConcernsOwn chronicle tenant entry.result := by
  induction fused with
  | nil => exact .pure fun entry member => absurd member List.not_mem_nil
  | cons entry fused inductionHypothesis =>
    refine .bind (findFact_keeps stored entry.1) fun found foundStored =>
      .bind inductionHypothesis fun rest restOwn => ?_
    cases found with
    | none => exact .pure restOwn
    | some fact =>
      refine .pure fun scored member => ?_
      obtain rfl | later := List.mem_cons.mp member
      · exact scoreFact_own stated now (foundStored fact rfl) entry.2
      · exact restOwn scored later

theorem searchMemory_keeps (input : SearchMemoryInput) :
    KeepsTo engine chronicle start input.tenant (searchMemory engine input)
      fun results => ∀ result ∈ results, ConcernsOwn chronicle input.tenant result := by
  refine keeps_checked fun _ => keeps_checked fun _ => .bind bindUsageAttribution_keeps
    fun _ _ => keeps_checked fun limit => keeps_step trivial fun embedding _ =>
      keeps_step rfl fun vectorResults stated => keeps_step rfl fun keywordFacts stored =>
        keeps_step trivial fun current _ =>
          .bind (scoreFused_keeps stated stored current _) fun scored own => .pure ?_
  intro result member
  obtain ⟨entry, taken, rfl⟩ := List.mem_map.mp member
  exact own entry ((List.mem_insertionSort _).mp (List.mem_of_mem_take taken))

theorem selectItems_subset (platform : Platform) (formatOptions : ContextFormatOptions)
    (legacyIncludeFactMetadata : Bool) (memoryAvailable : ℕ)
    (included skipped items : List ContextMemoryItem) :
    (selectItems platform formatOptions legacyIncludeFactMetadata memoryAvailable included skipped
      items).1 ⊆ included ++ items := by
  induction items generalizing included skipped with
  | nil => simp [selectItems]
  | cons item items inductionHypothesis =>
    unfold selectItems
    dsimp only
    split
    · simpa using inductionHypothesis (included ++ [item]) skipped
    · intro wanted member
      have among := inductionHypothesis included (skipped ++ [item]) member
      rw [List.mem_append] at among ⊢
      exact among.imp id fun later => List.mem_cons_of_mem item later

theorem contextFromResults_keeps (input : BuildContextInput) {results : List MemorySearchResult}
    (own : ∀ result ∈ results, ConcernsOwn chronicle input.tenant result) :
    KeepsTo engine chronicle start input.tenant (contextFromResults engine input results)
      (MadeOfOwn engine chronicle input.tenant) := by
  have searching : KeepsTo engine chronicle start input.tenant
      (contextFromResults engine input results) fun _ => True :=
    (contextFromResults_within engine input results).honours searchCall_confined
  have returns := Program.Returns.of_protocol (contextFromResults_reply engine input results)
  refine (searching.and_returns returns).mono fun output made => ?_
  obtain ⟨_, reply, returned⟩ := made
  obtain rfl := Except.ok.inj returned
  have among : (contextWithReply engine input results reply).memories ⊆ results := by
    rw [contextWithReply_memories]
    exact selectItems_subset _ _ _ _ [] [] results
  exact ⟨⟨input, results, reply, rfl, own, rfl⟩, fun memory member => own memory (among member)⟩

theorem buildContextUncached_keeps (input : BuildContextInput) :
    KeepsTo engine chronicle start input.tenant (buildContextUncached engine input)
      (MadeOfOwn engine chronicle input.tenant) :=
  keeps_checked fun maxMemories => .bind (searchMemory_keeps
    ⟨input.tenant, input.query, maxMemories, input.memoryTypes, none⟩) fun _ own =>
      contextFromResults_keeps input own

/-- What the cache reports about itself is no part of what a context is made of. -/
theorem MadeOfOwn.reported {output : BuildContextOutput}
    (made : MadeOfOwn engine chronicle tenant output) (usage : ContextCacheUsage) :
    MadeOfOwn engine chronicle tenant { output with cache := usage } := by
  obtain ⟨input, results, reply, own, concerns, same⟩ := made.assembled
  refine ⟨⟨input, results, reply, own, concerns, ?_⟩, made.memories⟩
  rw [same]

/-- The entry of a tenant's context. -/
def EntryOwn (engine : MemoryEngine) (chronicle : Chronicle) (tenant : TenantContext)
    (entry : CachedContextEntry) : Prop :=
  MadeOfOwn engine chronicle tenant (entry.output .disabled)

theorem computeContext_keeps (input : BuildContextInput) :
    KeepsTo engine chronicle start input.tenant (computeContext engine input)
      (EntryOwn engine chronicle input.tenant) :=
  .bind (buildContextUncached_keeps input) fun _ made => keeps_step trivial fun _ _ =>
    .pure (made.reported .disabled)

section Coordinator

variable {key : ContextCacheKey} {compute : EngineProgram CachedContextEntry}

theorem computeEntry_keeps
    (computing : KeepsTo engine chronicle start tenant compute (EntryOwn engine chronicle tenant)) :
    KeepsTo engine chronicle start tenant (computeEntry key compute) fun outcome =>
      ∀ entry, outcome = .ok entry → EntryOwn engine chronicle tenant entry :=
  keeps_step trivial fun _ _ => .bind (.attempt computing) fun _ made =>
    keeps_step trivial fun _ _ => .pure made

theorem computeUncoordinated_keeps (own : key.tenant = tenant)
    (computing : KeepsTo engine chronicle start tenant compute (EntryOwn engine chronicle tenant))
    (isRefresh : Bool) :
    KeepsTo engine chronicle start tenant (computeUncoordinated engine key compute isRefresh)
      fun served => EntryOwn engine chronicle tenant served.1 := by
  refine .bind (computeEntry_keeps computing) fun outcome made => ?_
  cases outcome with
  | ok entry => exact keeps_step ⟨own, made entry rfl⟩ fun _ _ => .pure (made entry rfl)
  | error error => exact .fail _

theorem computeHolding_keeps (own : key.tenant = tenant)
    (computing : KeepsTo engine chronicle start tenant compute (EntryOwn engine chronicle tenant))
    (isRefresh waitedForInflight : Bool) (lock : LockId) :
    KeepsTo engine chronicle start tenant
      (computeHolding engine key compute isRefresh waitedForInflight lock)
      fun served => EntryOwn engine chronicle tenant served.1 := by
  refine keeps_step own fun found made => ?_
  cases found with
  | some entry => exact keeps_step trivial fun _ _ => .pure made
  | none =>
    refine .bind (computeEntry_keeps computing) fun outcome made => ?_
    cases outcome with
    | ok entry =>
      exact keeps_step ⟨own, made entry rfl⟩ fun _ _ => keeps_step trivial fun _ _ =>
        .pure (made entry rfl)
    | error error => exact keeps_step trivial fun _ _ => .fail _

theorem acquire_keeps (lock : LockId) :
    KeepsTo engine chronicle start tenant (acquire lock) fun _ => True := by
  refine keeps_step trivial fun free _ => ?_
  split
  · exact keeps_step trivial fun _ _ => .pure trivial
  · refine keeps_step trivial fun acquired _ => ?_
    split
    · exact .pure trivial
    · exact .fail _

theorem computeWithStampede_keeps (own : key.tenant = tenant)
    (computing : KeepsTo engine chronicle start tenant compute (EntryOwn engine chronicle tenant))
    (isRefresh : Bool) :
    KeepsTo engine chronicle start tenant (computeWithStampede engine key compute isRefresh)
      fun served => EntryOwn engine chronicle tenant served.1 := by
  unfold computeWithStampede
  split
  · exact computeUncoordinated_keeps own computing isRefresh
  · exact keeps_step trivial fun lock _ => .bind (acquire_keeps lock) fun waited _ =>
      .bind (.attempt (computeHolding_keeps own computing isRefresh waited lock))
        fun _ made => keeps_step trivial fun _ _ => .check made

theorem staleEntry_keeps (own : key.tenant = tenant) :
    KeepsTo engine chronicle start tenant (staleEntry engine key) fun stale =>
      ∀ served ∈ stale, EntryOwn engine chronicle tenant served.1 := by
  unfold staleEntry
  split
  · refine keeps_step trivial fun current _ => keeps_step own fun found made => ?_
    cases found with
    | none => exact .pure fun _ member => nomatch member
    | some entry =>
      dsimp only
      split
      · refine keeps_step trivial fun refreshStarted _ => .pure ?_
        rintro _ ⟨⟩
        exact made
      · exact .pure fun _ member => nomatch member
  · exact .pure fun _ member => nomatch member

theorem getOrCompute_keeps (own : key.tenant = tenant)
    (computing : KeepsTo engine chronicle start tenant compute (EntryOwn engine chronicle tenant)) :
    KeepsTo engine chronicle start tenant (getOrCompute engine key compute)
      fun served => EntryOwn engine chronicle tenant served.1 := by
  refine keeps_checked fun _ => keeps_step own fun found made => ?_
  cases found with
  | some entry => exact .pure made
  | none =>
    refine .bind (staleEntry_keeps own) fun stale staleMade => ?_
    cases stale with
    | some served => exact .pure (staleMade served rfl)
    | none => exact computeWithStampede_keeps own computing false

end Coordinator

theorem checkContextRequest_keeps (input : BuildContextInput) :
    KeepsTo engine chronicle start input.tenant (checkContextRequest engine input)
      fun _ => True :=
  keeps_checked fun _ => keeps_checked fun _ => .bind bindUsageAttribution_keeps fun _ _ =>
    keeps_checked fun _ => keeps_checked fun _ => .check fun _ _ => trivial

theorem buildContext_keeps (input : BuildContextInput) :
    KeepsTo engine chronicle start input.tenant (buildContext engine input)
      (MadeOfOwn engine chronicle input.tenant) := by
  refine .bind (checkContextRequest_keeps input) fun _ _ => ?_
  split
  · exact buildContextUncached_keeps input
  · have own : (buildContextCacheKey engine.platform input).tenant = input.tenant := rfl
    exact .bind (getOrCompute_keeps own (computeContext_keeps input)) fun served made =>
      .pure (made.reported served.2)

theorem refreshStaleContext_keeps (input : BuildContextInput) :
    KeepsTo engine chronicle start input.tenant (refreshStaleContext engine input)
      fun _ => True := by
  refine .bind (checkContextRequest_keeps input) fun _ _ => ?_
  split
  · exact .pure trivial
  · have own : (buildContextCacheKey engine.platform input).tenant = input.tenant := rfl
    refine .bind (.attempt (computeWithStampede_keeps own (computeContext_keeps input) true))
      fun outcome _ => keeps_step trivial fun _ _ => ?_
    cases outcome with
    | ok served => exact .pure trivial
    | error error => exact .fail _

end Operations

/-! ## Requests of any tenants, one after the other -/

/-- What the engine is asked for: an operation, or one of the listings of a tenant. -/
inductive Request where
  | perform (operation : EngineOperation)
  | listMemories (input : ListMemoriesInput)
  | listMemoryEvents (input : ListMemoryEventsInput)

def Request.tenant : Request → TenantContext
  | .perform operation => operation.tenant
  | .listMemories input => input.tenant
  | .listMemoryEvents input => input.tenant

/-- What the engine answers. -/
inductive Answered where
  | added (output : AddMemoryOutput)
  | deleted (output : DeleteMemoryOutput)
  | retained (output : ApplyRetentionOutput)
  | forgotten (output : ForgetUserOutput)
  | imported (output : ImportUserDataOutput)
  | exported (payload : UserMemoryExport)
  | found (results : List MemorySearchResult)
  | context (output : BuildContextOutput)
  | refreshed
  | memories (page : Page Fact String)
  | memoryEvents (page : Page MemoryEvent String)

/-- An operation with its answer. -/
def EngineOperation.answering (engine : MemoryEngine) :
    EngineOperation → EngineProgram Answered
  | addMemory input => do return .added (← Memcore.addMemory engine input)
  | deleteMemory input => do return .deleted (← Memcore.deleteMemory engine input)
  | applyRetention input => do return .retained (← Memcore.applyRetention engine input)
  | forgetUser input => do return .forgotten (← Memcore.forgetUser engine input)
  | importUserData input => do return .imported (← Memcore.importUserData engine input)
  | exportUserData input => do return .exported (← Memcore.exportUserData engine input)
  | searchMemory input => do return .found (← Memcore.searchMemory engine input)
  | buildContext input => do return .context (← Memcore.buildContext engine input)
  | refreshStaleContext input => do
      Memcore.refreshStaleContext engine input
      return .refreshed

/-- A request is answered. A listing reads the stores as they are. -/
inductive Answers (engine : MemoryEngine) (encoding : CursorEncoding) (world : World) :
    Request → List EngineEvent → MemcoreResult Answered → World → Prop where
  | perform {operation : EngineOperation} {trace : List EngineEvent}
      {outcome : MemcoreResult Answered} {final : World}
      (run : Runs (engineServer engine.platform) freshUuids (operation.answering engine) world
        trace outcome final) :
      Answers engine encoding world (.perform operation) trace outcome final
  | listMemories (input : ListMemoriesInput) :
      Answers engine encoding world (.listMemories input) []
        ((listMemories encoding world.facts input).map .memories) world
  | listMemoryEvents (input : ListMemoryEventsInput) :
      Answers engine encoding world (.listMemoryEvents input) []
        ((listMemoryEvents encoding (if engine.eventStore then some world.events else none)
          input).map .memoryEvents) world

/-- The chronicle after one more request. -/
def Chronicle.after (chronicle : Chronicle) (request : Request) (trace : List EngineEvent) :
    Chronicle where
  operations := match request with
    | .perform operation => chronicle.operations ++ [operation]
    | _ => chronicle.operations
  events := chronicle.events ++ trace

/-- Requests of any tenants, from empty stores, with what they did. -/
inductive Conversation (engine : MemoryEngine) (encoding : CursorEncoding) :
    World → Chronicle → Prop where
  | start (maxEntries : ℕ) : Conversation engine encoding (World.empty maxEntries) ⟨[], []⟩
  | step {world final : World} {chronicle : Chronicle} {request : Request}
      {trace : List EngineEvent} {outcome : MemcoreResult Answered}
      (before : Conversation engine encoding world chronicle)
      (answers : Answers engine encoding world request trace outcome final) :
      Conversation engine encoding final (chronicle.after request trace)

/-- What is returned to a tenant concerns what this tenant has stored. -/
def Answered.Concerns (engine : MemoryEngine) (chronicle : Chronicle) (tenant : TenantContext) :
    Answered → Prop
  | added output => MemoriesOwn chronicle tenant output
  | exported payload => ExportOwn chronicle tenant payload
  | found results => ∀ result ∈ results, ConcernsOwn chronicle tenant result
  | context output => MadeOfOwn engine chronicle tenant output
  | memories page => ∀ fact ∈ page.items, StoredUnder chronicle tenant fact
  | memoryEvents page => ∀ event ∈ page.items, RecordedUnder chronicle tenant event
  | deleted _ | retained _ | forgotten _ | imported _ | refreshed => True

theorem Chronicle.after_extends (chronicle : Chronicle) (request : Request)
    (trace : List EngineEvent) : (chronicle.after request trace).Extends chronicle where
  operations := by
    cases request with
    | perform operation => exact List.subset_append_left _ _
    | listMemories input => exact List.Subset.refl _
    | listMemoryEvents input => exact List.Subset.refl _
  events := List.subset_append_left _ _

/-- Every operation keeps to its tenant, once it is entered in the chronicle. -/
theorem EngineOperation.answering_keeps {engine : MemoryEngine} {chronicle : Chronicle}
    {start : World} {operation : EngineOperation} (performed : operation ∈ chronicle.operations) :
    KeepsTo engine chronicle start operation.tenant (operation.answering engine)
      (Answered.Concerns engine chronicle operation.tenant) := by
  cases operation with
  | addMemory input => exact .bind (addMemory_keeps input) fun _ own => .pure own
  | deleteMemory input => exact .bind (deleteMemory_keeps input) fun _ _ => .pure trivial
  | applyRetention input => exact .bind (applyRetention_keeps input) fun _ _ => .pure trivial
  | forgetUser input => exact .bind (forgetUser_keeps input) fun _ _ => .pure trivial
  | importUserData input => exact .bind (importUserData_keeps performed) fun _ _ => .pure trivial
  | exportUserData input => exact .bind (exportUserData_keeps input) fun _ own => .pure own
  | searchMemory input => exact .bind (searchMemory_keeps input) fun _ own => .pure own
  | buildContext input => exact .bind (buildContext_keeps input) fun _ made => .pure made
  | refreshStaleContext input =>
    exact .bind (refreshStaleContext_keeps input) fun _ _ => .pure trivial

theorem bind_returns {α β : Type} {first : MemcoreResult α} {next : α → MemcoreResult β} {value : β}
    (returned : (first >>= next) = .ok value) :
    ∃ middle, first = .ok middle ∧ next middle = .ok value := by
  cases first with
  | ok middle => exact ⟨middle, rfl, returned⟩
  | error error => nomatch returned

/-- A page shows items that the store has returned. -/
theorem buildPage_items {encoding : CursorEncoding} {α : Type} {items : List α} {limit : ℕ}
    {toCursor : α → PageCursor} {page : Page α String}
    (built : buildPage encoding items limit toCursor = .ok page) : page.items ⊆ items := by
  unfold buildPage at built
  split at built
  · split at built
    · rename_i last _
      cases encoded : encodeCursor encoding (toCursor last) with
      | error error =>
        rw [encoded] at built
        nomatch built
      | ok next =>
        rw [encoded] at built
        obtain rfl := Except.ok.inj built
        exact List.take_subset _ _
    · nomatch built
  · obtain rfl := Except.ok.inj built
    exact List.Subset.refl _

theorem listMemories_own {engine : MemoryEngine} {chronicle : Chronicle} {world : World}
    (sound : Sound engine chronicle world) {encoding : CursorEncoding} {input : ListMemoriesInput}
    {page : Page Fact String} (listed : listMemories encoding world.facts input = .ok page) :
    ∀ fact ∈ page.items, StoredUnder chronicle input.tenant fact := by
  intro fact member
  obtain ⟨_, _, listed⟩ := bind_returns listed
  obtain ⟨limit, _, listed⟩ := bind_returns listed
  obtain ⟨cursor, _, listed⟩ := bind_returns listed
  obtain ⟨memories, searched, built⟩ := bind_returns listed
  obtain rfl := Except.ok.inj searched
  have found := (List.mem_insertionSort _).mp (List.mem_of_mem_take (buildPage_items built member))
  simp only [List.mem_filter, Bool.and_eq_true, decide_eq_true_eq] at found
  exact (show fact.tenant = input.tenant from found.2.1) ▸ sound.facts fact found.1

theorem listMemoryEvents_own {engine : MemoryEngine} {chronicle : Chronicle} {world : World}
    (sound : Sound engine chronicle world) {encoding : CursorEncoding}
    {input : ListMemoryEventsInput} {page : Page MemoryEvent String}
    (listed : listMemoryEvents encoding (if engine.eventStore then some world.events else none)
      input = .ok page) :
    ∀ event ∈ page.items, RecordedUnder chronicle input.tenant event := by
  intro event member
  obtain ⟨_, _, listed⟩ := bind_returns listed
  obtain ⟨limit, _, listed⟩ := bind_returns listed
  obtain ⟨cursor, _, listed⟩ := bind_returns listed
  cases configured : engine.eventStore with
  | false =>
    simp only [configured, Bool.false_eq_true, if_false] at listed
    obtain rfl := Except.ok.inj listed
    nomatch member
  | true =>
    simp only [configured, if_true] at listed
    obtain ⟨_, _, listed⟩ := bind_returns listed
    obtain ⟨events, searched, built⟩ := bind_returns listed
    have among := buildPage_items built member
    unfold MockMemoryEventStore.listEvents at searched
    split at searched
    · nomatch searched
    · obtain rfl := Except.ok.inj searched
      have found := (List.mem_insertionSort _).mp (List.mem_of_mem_take among)
      simp only [List.mem_filter, MockMemoryEventStore.matchesQuery, Bool.and_eq_true,
        decide_eq_true_eq] at found
      exact (show event.tenant = input.tenant from found.2.1.1.1.1.1.1) ▸
        sound.events event found.1

/-- An answer to a tenant concerns its own data, and what others have stored is as it was,
though cached contexts of theirs may be gone. -/
theorem answers_isolated {engine : MemoryEngine} {encoding : CursorEncoding} {world final : World}
    {chronicle : Chronicle} {request : Request} {trace : List EngineEvent}
    {outcome : MemcoreResult Answered} (sound : Sound engine chronicle world)
    (answers : Answers engine encoding world request trace outcome final) :
    Safe engine (chronicle.after request trace) request.tenant world final ∧
      ∀ answer, outcome = .ok answer →
        answer.Concerns engine (chronicle.after request trace) request.tenant := by
  have grown := chronicle.after_extends request trace
  have safe : Safe engine (chronicle.after request trace) request.tenant world world :=
    ⟨sound.mono grown, fun other _ => .refl other world⟩
  cases answers with
  | @perform operation _ _ _ run =>
    have performed : operation ∈ (chronicle.after (.perform operation) trace).operations :=
      List.mem_append_right _ (List.mem_singleton.mpr rfl)
    have part : trace ⊆ (chronicle.after (.perform operation) trace).events :=
      List.subset_append_right _ _
    refine Runs.honoured (isolation engine _ operation.tenant world) _ ?_ (run.logged part)
      (EngineOperation.answering_keeps performed) safe
    intro state port choice still confined _ admitted
    exact isolation_fulfilled still confined admitted.1 admitted.2
  | listMemories input =>
    refine ⟨safe, fun answer returned => ?_⟩
    cases listed : listMemories encoding world.facts input with
    | error error =>
      rw [listed] at returned
      nomatch returned
    | ok page =>
      rw [listed] at returned
      obtain rfl := Except.ok.inj returned
      exact listMemories_own safe.sound listed
  | listMemoryEvents input =>
    refine ⟨safe, fun answer returned => ?_⟩
    cases listed : listMemoryEvents encoding
        (if engine.eventStore then some world.events else none) input with
    | error error =>
      rw [listed] at returned
      nomatch returned
    | ok page =>
      rw [listed] at returned
      obtain rfl := Except.ok.inj returned
      exact listMemoryEvents_own safe.sound listed

theorem Conversation.sound {engine : MemoryEngine} {encoding : CursorEncoding} {world : World}
    {chronicle : Chronicle} (conversation : Conversation engine encoding world chronicle) :
    Sound engine chronicle world := by
  induction conversation with
  | start maxEntries => exact sound_empty engine _ maxEntries
  | step before answers inductionHypothesis =>
    exact (answers_isolated inductionHypothesis answers).1.sound

/-- The requests that store a context in the cache. -/
def Request.StoresContext : Request → Prop
  | .perform (.buildContext _) | .perform (.refreshStaleContext _) => True
  | _ => False

/-- An operation that stores no context makes the calls of a mutating one at most. -/
theorem EngineOperation.answering_within {engine : MemoryEngine} {operation : EngineOperation}
    (storesNone : ¬ (Request.perform operation).StoresContext) :
    (operation.answering engine).Within (MutatorCall operation.tenant) := by
  have quiet : ∀ tenant port, SearchCall tenant port → MutatorCall tenant port :=
    fun tenant port isSearch => quietCall_mutatorCall port (searchCall_quietCall port isSearch)
  cases operation with
  | addMemory input => exact .bind (addMemory_within engine input) fun _ => .pure _
  | deleteMemory input => exact .bind (deleteMemory_within engine input) fun _ => .pure _
  | applyRetention input => exact .bind (applyRetention_within engine input) fun _ => .pure _
  | forgetUser input => exact .bind (forgetUser_within engine input) fun _ => .pure _
  | importUserData input => exact .bind (importUserData_within engine input) fun _ => .pure _
  | exportUserData input =>
    exact .bind ((exportUserData_within engine input).mono (quiet _)) fun _ => .pure _
  | searchMemory input =>
    exact .bind ((searchMemory_within engine input).mono (quiet _)) fun _ => .pure _
  | buildContext input => exact absurd trivial storesNone
  | refreshStaleContext input => exact absurd trivial storesNone

/-- A mutating operation drops no cached context of another tenant. -/
theorem MutatorCall.serve_cachedOf {platform : Platform} {tenant other : TenantContext}
    {port : Port} (own : MutatorCall tenant port) (foreign : other ≠ tenant) (choice : Choice) (world : World) :
    (World.serve platform choice port world).2.cachedOf other = world.cachedOf other := by
  cases port with
  | cache call =>
    cases call with
    | invalidateUser orgId userId =>
      simp only [World.serve, World.unlessFault]
      cases choice.fault with
      | some error => rfl
      | none =>
        have notAsker : other ≠ ⟨orgId, userId⟩ := (show _ = tenant from own) ▸ foreign
        simp only [World.cachedOf, InMemoryContextCache.serve, InMemoryContextCache.invalidateUser,
          Table.retain, List.filter_filter]
        refine List.filter_congr fun row _ => ?_
        by_cases same : row.1.tenant = other
        · simp [same, notAsker]
        · simp [same]
    | _ => exact own.elim
  | coordinator call => exact own.elim
  | system call => cases call <;> rfl
  | _ =>
    simp only [World.serve, World.unlessFault]
    cases choice.fault <;> rfl

theorem Answers.cachedOf_kept {engine : MemoryEngine} {encoding : CursorEncoding}
    {world final : World} {request : Request} {trace : List EngineEvent}
    {outcome : MemcoreResult Answered}
    (answers : Answers engine encoding world request trace outcome final)
    (storesNone : ¬ request.StoresContext) {other : TenantContext}
    (foreign : other ≠ request.tenant) : final.cachedOf other = world.cachedOf other := by
  cases answers with
  | perform run =>
    refine run.ensured (Program.Within.ensures
      (fun state => state.cachedOf other = world.cachedOf other)
      (fun state port choice kept own _ _ => ?_)
      (EngineOperation.answering_within storesNone) rfl)
    exact (own.serve_cachedOf foreign choice state).trans kept
  | listMemories input => rfl
  | listMemoryEvents input => rfl

/-- In every conversation, whatever fails in it and whatever the model decides: a request
of one tenant leaves the facts, vectors and events of the others as they were. Unless it
stores a context it leaves their cached contexts as well, and otherwise those of them that
are left. What it returns concerns what its own tenant has stored. -/
theorem tenants_isolated (engine : MemoryEngine) (encoding : CursorEncoding)
    (world final : World) (chronicle : Chronicle) (request : Request) (trace : List EngineEvent)
    (outcome : MemcoreResult Answered)
    (conversation : Conversation engine encoding world chronicle)
    (answers : Answers engine encoding world request trace outcome final) :
    (∀ other, other ≠ request.tenant → Untouched other world final ∧
      (¬ request.StoresContext → final.cachedOf other = world.cachedOf other)) ∧
    ∀ answer, outcome = .ok answer →
      answer.Concerns engine (chronicle.after request trace) request.tenant := by
  obtain ⟨safe, concerns⟩ := answers_isolated conversation.sound answers
  exact ⟨fun other foreign => ⟨safe.untouched other foreign,
    fun storesNone => answers.cachedOf_kept storesNone foreign⟩, concerns⟩

/-! ## Conversations by replay -/

/-- Replay operations in turn, with the chronicle of what they did. -/
def replayConversation (engine : MemoryEngine) :
    List (EngineOperation × List Choice) → World → Chronicle → Option (World × Chronicle)
  | [], world, chronicle => some (world, chronicle)
  | (operation, choices) :: rest, world, chronicle =>
      match replay (engineServer engine.platform) freshUuids choices (operation.answering engine)
          world with
      | some (trace, _, after) =>
          replayConversation engine rest after (chronicle.after (.perform operation) trace)
      | none => none

theorem replayConversation_conversation {engine : MemoryEngine} {encoding : CursorEncoding}
    (operations : List (EngineOperation × List Choice)) {world final : World}
    {chronicle later : Chronicle} (before : Conversation engine encoding world chronicle)
    (replayed : replayConversation engine operations world chronicle = some (final, later)) :
    Conversation engine encoding final later := by
  induction operations generalizing world chronicle with
  | nil =>
    obtain ⟨rfl, rfl⟩ : world = final ∧ chronicle = later := by
      simpa [replayConversation] using replayed
    exact before
  | cons entry rest inductionHypothesis =>
    obtain ⟨operation, choices⟩ := entry
    unfold replayConversation at replayed
    split at replayed
    · rename_i trace outcome after found
      exact inductionHypothesis (before.step (.perform (replay_runs _ _ _ _ _ _ found))) replayed
    · nomatch replayed

/-- A replay from empty stores, one request more, and a test of it show that there is such
a conversation. -/
theorem exists_conversation_of_replay (engine : MemoryEngine) (encoding : CursorEncoding)
    (maxEntries : ℕ) (operations : List (EngineOperation × List Choice))
    (last : EngineOperation) (choices : List Choice)
    (test : World → MemcoreResult Answered → World → Bool)
    (passes : ((replayConversation engine operations (World.empty maxEntries) ⟨[], []⟩).any
      fun reached => (replay (engineServer engine.platform) freshUuids choices
        (last.answering engine) reached.1).any fun result =>
          test reached.1 result.2.1 result.2.2) = true) :
    ∃ world chronicle trace outcome final, Conversation engine encoding world chronicle ∧
      Answers engine encoding world (.perform last) trace outcome final ∧
        test world outcome final = true := by
  obtain ⟨⟨world, chronicle⟩, replayed, tested⟩ := (Option.any_eq_true _ _).mp passes
  obtain ⟨trace, outcome, final, run, passed⟩ := exists_run_of_replay _ _ choices _ world
    (fun result => test world result.2.1 result.2.2) tested
  exact ⟨world, chronicle, trace, outcome, final,
    replayConversation_conversation operations (.start maxEntries) replayed, .perform run, passed⟩

/-- Another user of the same organisation. -/
def otherTenant : TenantContext := ⟨"acme", "bob"⟩

/-- An engine that keeps an audit log. -/
def MemoryEngine.auditing : MemoryEngine :=
  { MemoryEngine.new .sample with eventStore := true }

/-- One user adds a memory; for another one the model decides that there is nothing to do,
and names that memory. -/
def namingTarget : List (EngineOperation × List Choice) :=
  [(.addMemory ⟨otherTenant, [⟨.user, "I take my coffee without sugar"⟩], .object []⟩,
      sampleAddChoices 1 [1] ++ plainChoices 1),
    (sampleAdd, [{ candidates := [sampleCandidate] }, {}, { embedding := [1] }, {}, {},
      { decision := ⟨.noOp, some 1, none, 1⟩ }, { uuid := 4 }, {}, {}])]

def sampleExport : EngineOperation := .exportUserData ⟨sampleTenant, true, false⟩

/-- The export of a user who has stored no memory, but was told of another user's. -/
def namesForeign (world : World) (outcome : MemcoreResult Answered) : Bool :=
  match outcome with
  | .ok (.exported payload) => (world.factsOf sampleTenant).isEmpty &&
      payload.memoryEvents.any (fun event => decide (event.factId = some 1)) &&
      (world.factsOf otherTenant).any fun entry => decide (entry.1.id = 1)
  | _ => false

set_option maxRecDepth 20000 in
theorem tenants_isolated_sample : ∃ (world final : World) (chronicle : Chronicle)
    (trace : List EngineEvent) (outcome : MemcoreResult Answered),
    (∀ other, other ≠ sampleTenant → Untouched other world final ∧
      (¬ (Request.perform sampleExport).StoresContext →
        final.cachedOf other = world.cachedOf other)) ∧
    ∀ answer, outcome = .ok answer → answer.Concerns MemoryEngine.auditing
      (chronicle.after (.perform sampleExport) trace) sampleTenant := by
  obtain ⟨world, chronicle, trace, outcome, final, conversation, answers, _⟩ :=
    exists_conversation_of_replay MemoryEngine.auditing sampleEncoding 1 namingTarget sampleExport
      (plainChoices 9) (fun world outcome _ => namesForeign world outcome) (by decide +kernel)
  exact ⟨world, final, chronicle, trace, outcome, tenants_isolated MemoryEngine.auditing
    sampleEncoding world final chronicle (.perform sampleExport) trace outcome conversation answers⟩

theorem namesForeign_names {world : World} {outcome : MemcoreResult Answered}
    (names : namesForeign world outcome = true) :
    ∃ payload, outcome = .ok (.exported payload) ∧ world.factsOf sampleTenant = [] ∧
      ∃ event ∈ payload.memoryEvents, ∃ fact ∈ world.facts.facts.rows,
        fact.tenant = otherTenant ∧ event.factId = some fact.id := by
  unfold namesForeign at names
  split at names
  · rename_i payload
    simp only [Bool.and_eq_true, List.isEmpty_iff, List.any_eq_true, decide_eq_true_eq] at names
    obtain ⟨⟨storedNone, event, listed, named⟩, ⟨fact, mark⟩, stored, isFirst⟩ := names
    obtain ⟨other, member, same⟩ := List.mem_map.mp stored
    obtain rfl : other = fact := (Prod.mk.inj same).1
    simp only [List.mem_filter, decide_eq_true_eq] at member
    exact ⟨payload, rfl, storedNone, event, listed, other, member.1, member.2,
      named.trans (congrArg some isFirst.symm)⟩
  · cases names

/-- The request for a context of the other user. -/
def otherContext : BuildContextInput := { sampleContext with tenant := otherTenant }

set_option maxRecDepth 20000 in
/-- A context stored for one user displaces the only cached one of another user. And a user
who has stored nothing is told the identifier of another one's fact, since the model has
named it. -/
theorem isolation_not_exact :
    (∃ world chronicle trace outcome final,
      Conversation MemoryEngine.sample sampleEncoding world chronicle ∧
      Answers MemoryEngine.sample sampleEncoding world (.perform (.buildContext sampleContext))
        trace outcome final ∧ final.cachedOf otherTenant ≠ world.cachedOf otherTenant) ∧
    ∃ world chronicle trace payload final,
      Conversation MemoryEngine.auditing sampleEncoding world chronicle ∧
      Answers MemoryEngine.auditing sampleEncoding world (.perform sampleExport) trace
        (.ok (.exported payload)) final ∧ world.factsOf sampleTenant = [] ∧
      ∃ event ∈ payload.memoryEvents, ∃ fact ∈ world.facts.facts.rows,
        fact.tenant = otherTenant ∧ event.factId = some fact.id := by
  constructor
  · obtain ⟨world, chronicle, trace, outcome, final, conversation, answers, displaced⟩ :=
      exists_conversation_of_replay MemoryEngine.sample sampleEncoding 1
        [(.buildContext otherContext, plainChoices 20)] (.buildContext sampleContext)
        (plainChoices 20) (fun world _ final => (final.cachedOf otherTenant).isEmpty &&
          !(world.cachedOf otherTenant).isEmpty) (by decide +kernel)
    rw [Bool.and_eq_true, List.isEmpty_iff, Bool.not_eq_true'] at displaced
    refine ⟨world, chronicle, trace, outcome, final, conversation, answers, fun same => ?_⟩
    rw [← same, displaced.1] at displaced
    nomatch displaced.2
  · obtain ⟨world, chronicle, trace, outcome, final, conversation, answers, names⟩ :=
      exists_conversation_of_replay MemoryEngine.auditing sampleEncoding 1 namingTarget
        sampleExport (plainChoices 9) (fun world outcome _ => namesForeign world outcome)
        (by decide +kernel)
    obtain ⟨payload, rfl, named⟩ := namesForeign_names names
    exact ⟨world, chronicle, trace, payload, final, conversation, answers, named⟩

end Memcore
