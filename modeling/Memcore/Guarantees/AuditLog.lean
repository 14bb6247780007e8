import Memcore.Guarantees.StoresInStep

/-!
# The audit log accounts for the store

The events of a tenant, replayed in the order of recording, give the contents of the
tenant's active facts. A store call and its event are two steps, so between them the log
owes one change; every way out of an operation, a failure included, must lie outside of
such a stretch. One stretch has a call that may fail: an update deletes the old vector of
its fact and then asks for a new embedding. A failure of that call leaves a change without
an event, and later a deletion that cannot find the vector leaves another.
-/
namespace Memcore

open KeyedTables Ports Programs

/-! ## Replaying the log -/

/-- Contents by the identifier of their fact. -/
abbrev Contents := Uuid → Option String

/-- The contents after one more event. -/
def Contents.after (contents : Contents) (event : MemoryEvent) : Contents :=
  match event.operation, event.factId with
  | .add, some factId => Function.update contents factId event.newContent
  | .update, some factId => Function.update contents factId event.newContent
  | .delete, some factId => Function.update contents factId none
  | .forgetUser, _ => fun _ => none
  | _, _ => contents

/-- The contents that the recorded events of a tenant tell of. -/
def auditedContents (tenant : TenantContext) (events : MockMemoryEventStore) : Contents :=
  (events.filter fun event => decide (event.tenant = tenant)).foldl Contents.after fun _ => none

theorem auditedContents_snoc {tenant : TenantContext} (events : MockMemoryEventStore)
    {event : MemoryEvent} (own : event.tenant = tenant) :
    auditedContents tenant (events ++ [event]) = (auditedContents tenant events).after event := by
  simp [auditedContents, List.filter_append, own]

/-- Contents are exactly those of the active facts of a tenant. -/
def Contents.Describe (contents : Contents) (tenant : TenantContext) (facts : MockFactStore) :
    Prop :=
  ∀ factId content, contents factId = some content ↔
    ∃ fact, facts.Active fact ∧ fact.tenant = tenant ∧ fact.id = factId ∧ fact.content = content

section Contents

variable {contents : Contents} {tenant : TenantContext} {facts : MockFactStore}

theorem Contents.Describe.put (describe : contents.Describe tenant facts) {fact : Fact}
    (own : fact.tenant = tenant) (undeleted : fact.id ∉ facts.deleted) :
    Contents.Describe (Function.update contents fact.id (some fact.content)) tenant
      (facts.putFact fact) := by
  intro factId content
  by_cases same : factId = fact.id
  · subst same
    rw [Function.update_self]
    constructor
    · intro stated
      exact ⟨fact, (facts.active_putFact fact fact).mpr (.inl ⟨rfl, undeleted⟩), own, rfl,
        Option.some.inj stated⟩
    · rintro ⟨other, active, _, sameId, rfl⟩
      rcases (facts.active_putFact fact other).mp active with ⟨rfl, _⟩ | ⟨_, different⟩
      · rfl
      · exact absurd sameId different
  · rw [Function.update_of_ne same, describe factId content]
    constructor
    · rintro ⟨other, active, others⟩
      exact ⟨other, (facts.active_putFact fact other).mpr
        (.inr ⟨active, fun clash => same (others.2.1.symm.trans clash)⟩), others⟩
    · rintro ⟨other, active, others⟩
      rcases (facts.active_putFact fact other).mp active with ⟨rfl, _⟩ | ⟨kept, _⟩
      · exact absurd others.2.1.symm same
      · exact ⟨other, kept, others⟩

theorem Contents.Describe.remove {later : MockFactStore} {factId : Uuid}
    (describe : contents.Describe tenant facts)
    (removed : ∀ fact, later.Active fact ↔ facts.Active fact ∧ fact.id ≠ factId) :
    Contents.Describe (Function.update contents factId none) tenant later := by
  intro other content
  by_cases same : other = factId
  · subst same
    rw [Function.update_self]
    constructor
    · intro stated
      nomatch stated
    · rintro ⟨fact, active, _, sameId, _⟩
      exact absurd sameId ((removed fact).mp active).2
  · rw [Function.update_of_ne same, describe other content]
    constructor
    · rintro ⟨fact, active, own, sameId, stated⟩
      exact ⟨fact, (removed fact).mpr ⟨active, sameId ▸ same⟩, own, sameId, stated⟩
    · rintro ⟨fact, active, rest⟩
      exact ⟨fact, ((removed fact).mp active).1, rest⟩

theorem Contents.describe_nothing (nothing : ∀ fact, facts.Active fact → fact.tenant ≠ tenant) :
    Contents.Describe (fun _ => none) tenant facts := by
  intro factId content
  constructor
  · intro stated
    nomatch stated
  · rintro ⟨fact, active, own, _⟩
    exact absurd own (nothing fact active)

end Contents

/-! ## What the log owes -/

/-- The stores are in step, and the contents that the log tells of become those of the
active facts by one more change. -/
structure Owing (tenant : TenantContext) (change : Contents → Contents) (world : World) :
    Prop where
  inStep : InStep world
  describes : (change (auditedContents tenant world.events)).Describe tenant world.facts

/-- The log accounts for the facts. -/
abbrev Audited (tenant : TenantContext) (world : World) : Prop := Owing tenant id world

theorem audited_empty (tenant : TenantContext) (maxEntries : ℕ) :
    Audited tenant (World.empty maxEntries) where
  inStep := inStep_empty maxEntries
  describes := Contents.describe_nothing fun fact active =>
    absurd active (MockFactStore.not_active_empty fact)

/-- The change that the result of an operation stands for. -/
def LifecycleApplyResult.change : LifecycleApplyResult → Contents → Contents
  | .added fact, contents => Function.update contents fact.id (some fact.content)
  | .updated _ stored, contents => Function.update contents stored.id (some stored.content)
  | .deleted fact, contents => Function.update contents fact.id none
  | .noOp, contents => contents

/-- Every active fact has a vector record. -/
def EveryFactRecorded (world : World) : Prop :=
  ∀ fact ∈ world.facts.activeFacts, ∃ record ∈ world.vectors.rows, record.factId = fact.id

instance (world : World) : Decidable (EveryFactRecorded world) :=
  inferInstanceAs (Decidable (∀ fact ∈ world.facts.activeFacts, _))

/-- The stores reject only what their own code rejects, and identifiers are new. The
providers may fail. -/
def ownRejections : World → Port → Choice → Prop := fun world port choice =>
  match port with
  | .system .newUuid => world.Unused choice.uuid
  | .facts _ | .vectors _ | .events _ => choice.fault = none
  | _ => True

/-- Furthermore no embedding fails while an active fact is without a vector record. -/
def updatesComplete : World → Port → Choice → Prop := fun world port choice =>
  ownRejections world port choice ∧ match port with
    | .provider (.embedText _) => choice.fault = none ∨ EveryFactRecorded world
    | _ => True

instance : ∀ world port choice, Decidable (ownRejections world port choice) :=
  fun world port choice => port.casesOn
    (fun _ => inferInstanceAs (Decidable (choice.fault = none)))
    (fun _ => inferInstanceAs (Decidable (choice.fault = none)))
    (fun _ => inferInstanceAs (Decidable (choice.fault = none)))
    (fun _ => isTrue trivial)
    (fun call => call.casesOn (isTrue trivial)
      (inferInstanceAs (Decidable (world.Unused choice.uuid))) fun _ _ => isTrue trivial)
    (fun _ => isTrue trivial)
    (fun _ => isTrue trivial)

instance : ∀ world port choice, Decidable (updatesComplete world port choice) := by
  intro world port choice
  unfold updatesComplete
  split <;> infer_instance

/-! ## Accounting programs -/

section Programs

variable {platform : Platform} {world : World} {tenant : TenantContext} {α β : Type}

/-- However a program ends, its ending is as described; after a failure the log accounts
for the facts. -/
abbrev Accounts (platform : Platform) (tenant : TenantContext) (program : EngineProgram α)
    (good : α → World → Prop) (world : World) : Prop :=
  Secures (worldSpec platform updatesComplete) program (Audited tenant) good world

/-- A call of the fact store fails only where the store rejects it. -/
theorem accounts_facts (call : FactStoreCall) {good : call.Answer → World → Prop}
    (rejected : ∀ error, (world.facts.serve call).1 = .error error →
      Audited tenant { world with facts := (world.facts.serve call).2 })
    (enough : ∀ answer, (world.facts.serve call).1 = .ok answer →
      good answer { world with facts := (world.facts.serve call).2 }) :
    Accounts platform tenant (perform (.facts call)) good world :=
  secures_facts call (fun _ admitted faulty => absurd admitted.1 faulty) rejected enough

theorem accounts_searchVectors (query : VectorSearchQuery)
    {good : List VectorSearchResult → World → Prop} (audited : Audited tenant world)
    (enough : ∀ found, good found world) :
    Accounts platform tenant (searchVectors query) good world := by
  apply (secures_iff _ _ _ _ _).mpr
  apply ensures_vectors (.searchVectors query)
  · exact fun _ _ _ _ => audited
  · cases served : (MockVectorStore.serve platform.cosineSimilarity world.vectors
        (.searchVectors query)).1 with
    | ok found => exact enough found
    | error error => exact audited

/-! ## Parts that cannot fail -/

/-- Deleting vectors as far as there are any always returns. -/
theorem deleteVectorIfPresent_accounts (factId : Uuid) {good : Unit → World → Prop}
    (enough : good () { world with
      vectors := (MockVectorStore.deleteByFactId world.vectors tenant factId).2 }) :
    Accounts platform tenant (deleteVectorIfPresent tenant factId) good world := by
  apply (secures_bind _ _ _ _ _ _).mpr
  apply (secures_iff _ _ _ _ _).mpr
  apply (ensures_attempt _ _ _ _).mpr
  apply ensures_vectors (.deleteByFactId tenant factId)
  · intro choice error admitted faulty
    exact absurd (admitted.1.symm.trans faulty) (by simp)
  · cases served : (MockVectorStore.deleteByFactId world.vectors tenant factId).1 with
    | ok answer =>
      simp only [MockVectorStore.serve, served]
      exact (secures_pure _ _ _ _ _).mpr enough
    | error error =>
      have missing := MockVectorStore.deleteByFactId_error _ _ _ _ served
      simp only [MockVectorStore.serve, served]
      show Accounts platform tenant
        (if error.isNotFound then pure () else Program.fail error) good _
      rw [if_pos (missing ▸ rfl)]
      exact (secures_pure _ _ _ _ _).mpr enough

/-- While a fact is without a record its embedding does not fail, so the record of the
only pending fact is stored. -/
theorem upsertFactVector_accounts {fact : Fact} (precomputedEmbedding : Option (List ℚ))
    (inStep : InStepOutside (fun id => id = fact.id) world.facts world.vectors)
    (active : world.facts.Active fact) (own : fact.tenant = tenant)
    (noRecord : ∀ other ∈ world.vectors.rows, other.factId ≠ fact.id)
    {good : Unit → World → Prop}
    (enough : ∀ vectors, InStep { world with vectors := vectors } →
      good () { world with vectors := vectors }) :
    Accounts platform tenant (upsertFactVector tenant fact precomputedEmbedding) good world := by
  have storing : ∀ embedding, Accounts platform tenant
      (do let record ← vectorRecordFromFact fact embedding; upsertVector tenant record)
      good world := by
    intro embedding
    apply (secures_bind _ _ _ _ _ _).mpr
    apply (secures_bind _ _ _ _ _ _).mpr
    apply secures_newUuid
    intro choice admitted
    apply (secures_pure _ _ _ _ _).mpr
    apply (secures_iff _ _ _ _ _).mpr
    apply ensures_vectors (.upsertVector tenant _)
    · intro choice error admitted faulty
      exact absurd (admitted.1.symm.trans faulty) (by simp)
    · simp only [MockVectorStore.serve, MockVectorStore.upsertVector_eq world.vectors tenant
        (⟨choice.uuid, fact.id, fact.orgId, fact.userId, embedding, fact.content, fact.memoryType,
          fact.metadata⟩ : VectorRecord) own]
      exact enough _ (inStep.settleStored active ⟨rfl, rfl, rfl, rfl, rfl⟩ noRecord admitted.1.2.1)
  apply (secures_bind _ _ _ _ _ _).mpr
  cases precomputedEmbedding with
  | some embedding => exact (secures_pure _ _ _ _ _).mpr (storing embedding)
  | none =>
    apply (secures_iff _ _ _ _ _).mpr
    apply ensures_provider (.embedText fact.content)
    · intro choice error admitted faulty
      rcases admitted.2 with faultless | recorded
      · exact absurd (faultless.symm.trans faulty) (by simp)
      · obtain ⟨record, stored, sameFact⟩ :=
          recorded fact ((world.facts.mem_activeFacts fact).mpr active)
        exact absurd sameFact (noRecord record stored)
    · exact fun choice => storing choice.embedding

/-! ## Applying a decision -/

theorem applyAdd_accounts (candidate : CandidateFact) (precomputedEmbedding : Option (List ℚ))
    (audited : Audited tenant world) :
    Accounts platform tenant (applyAdd tenant candidate precomputedEmbedding)
      (fun result final => Owing tenant result.change final) world := by
  apply (secures_bind _ _ _ _ _ _).mpr
  apply secures_candidateToFact candidate audited
  intro fact own _ _
  apply (secures_bind _ _ _ _ _ _).mpr
  apply accounts_facts (.insertFact tenant fact)
  · intro error failed
    simp only [MockFactStore.serve, world.facts.insertFact_error tenant fact error failed]
    exact audited
  intro (inserted : Fact) served
  obtain ⟨rfl, _, absent, stored⟩ := world.facts.insertFact_ok tenant fact inserted served
  obtain ⟨pending, active, noRecord⟩ := audited.inStep.insert absent
  have described := audited.describes.put own (MockFactStore.not_deleted_of_absent absent)
  simp only [MockFactStore.serve, stored]
  apply (secures_bind _ _ _ _ _ _).mpr
  apply upsertFactVector_accounts precomputedEmbedding
  · exact pending
  · exact active
  · exact own
  · exact noRecord
  · intro vectors inStep
    exact (secures_pure _ _ _ _ _).mpr ⟨inStep, described⟩

theorem applyUpdate_accounts (candidate : CandidateFact) (targetFactId : Uuid)
    (audited : Audited tenant world) :
    Accounts platform tenant (applyUpdate tenant candidate targetFactId)
      (fun result final => Owing tenant result.change final) world := by
  apply (secures_bind _ _ _ _ _ _).mpr
  apply secures_requireFact targetFactId audited
  intro existing active own sameTarget
  apply (secures_bind _ _ _ _ _ _).mpr
  apply secures_mergeCandidateIntoFact existing candidate audited
  intro updated sameId sameTenant _ _
  apply (secures_bind _ _ _ _ _ _).mpr
  apply accounts_facts (.updateFact tenant updated)
  · intro error failed
    simp only [MockFactStore.serve, world.facts.updateFact_error tenant updated error failed]
    exact audited
  intro (stored : Fact) served
  obtain ⟨rfl, ownUpdated, storedAs⟩ := world.facts.updateFact_ok tenant updated stored served
  have undeleted : stored.id ∉ world.facts.deleted := sameId ▸ active.2
  have described := audited.describes.put ownUpdated undeleted
  have pending : InStepOutside (fun id => id = stored.id) (world.facts.putFact stored)
      world.vectors := by
    apply (audited.inStep.widen fun _ => False.elim).changeFacts
    intro other different
    rw [world.facts.active_putFact]
    constructor
    · rintro (⟨same, _⟩ | ⟨old, _⟩)
      · exact absurd (same ▸ rfl) different
      · exact old
    · exact fun old => .inr ⟨old, different⟩
  have belong : RecordsBelongTo tenant stored.id world.vectors := by
    rw [sameId, ← own]
    exact audited.inStep.recordsBelongTo active
  have storedActive : (world.facts.putFact stored).Active stored :=
    (world.facts.active_putFact stored stored).mpr (.inl ⟨rfl, undeleted⟩)
  obtain ⟨cleared, noRecord⟩ := pending.deleteVector rfl belong
  simp only [MockFactStore.serve, storedAs]
  apply (secures_bind _ _ _ _ _ _).mpr
  apply (secures_bind _ _ _ _ _ _).mpr
  apply deleteVectorIfPresent_accounts stored.id
  apply upsertFactVector_accounts none
  · exact cleared
  · exact storedActive
  · exact ownUpdated
  · exact noRecord
  · intro vectors inStep
    exact (secures_pure _ _ _ _ _).mpr ⟨inStep, described⟩

/-- After a soft deletion of an active fact the contents lack that fact. -/
theorem Owing.softDeleted {fact : Fact} (audited : Audited tenant world)
    (deleted : (world.facts.softDeleteFact tenant fact.id).1 = .ok ()) :
    Contents.Describe (Function.update (auditedContents tenant world.events) fact.id none) tenant
      (world.facts.softDeleteFact tenant fact.id).2 :=
  audited.describes.remove (world.facts.active_softDeleteFact tenant fact.id deleted)

theorem applyDelete_accounts (targetFactId : Uuid) (audited : Audited tenant world) :
    Accounts platform tenant (applyDelete tenant targetFactId)
      (fun result final => Owing tenant result.change final) world := by
  apply (secures_bind _ _ _ _ _ _).mpr
  apply secures_requireFact targetFactId audited
  intro existing active own sameTarget
  subst sameTarget
  apply (secures_bind _ _ _ _ _ _).mpr
  apply accounts_facts (.softDeleteFact tenant existing.id)
  · intro error failed
    simp only [MockFactStore.serve,
      world.facts.softDeleteFact_error tenant existing.id error failed]
    exact audited
  intro _ served
  have deleting := startDeleting_softDelete audited.inStep active own served
  apply (secures_bind _ _ _ _ _ _).mpr
  apply deleteVectorIfPresent_accounts existing.id
  exact (secures_pure _ _ _ _ _).mpr ⟨deleting.step.done, audited.softDeleted served⟩

theorem applyFactOperation_accounts (candidate : CandidateFact)
    (decision : FactOperationDecision) (precomputedEmbedding : Option (List ℚ))
    (audited : Audited tenant world) :
    Accounts platform tenant (applyFactOperation tenant candidate decision precomputedEmbedding)
      (fun result final => Owing tenant result.change final) world := by
  apply (secures_bind _ _ _ _ _ _).mpr
  apply secures_check audited
  intro operation _
  cases operation with
  | add => exact applyAdd_accounts candidate precomputedEmbedding audited
  | update targetFactId => exact applyUpdate_accounts candidate targetFactId audited
  | delete targetFactId => exact applyDelete_accounts targetFactId audited
  | noOp => exact (secures_pure _ _ _ _ _).mpr ⟨audited.inStep, audited.describes⟩

/-! ## Recording -/

section Recording

variable (engine : MemoryEngine) (audits : engine.eventStore = true)
include audits

/-- An event that stands for the change that is owed settles it. -/
theorem record_accounts (factId : Option Uuid) (kind : MemoryEventOperation)
    (previousContent newContent : Option String) (metadata : Value) {change : Contents → Contents}
    (owing : Owing tenant change world)
    (stands : ∀ (event : MemoryEvent) contents, event.factId = factId →
      event.operation = kind → event.newContent = newContent →
        Contents.after contents event = change contents) :
    Accounts platform tenant (recordEventBestEffort engine tenant
      (MemoryEvent.new engine tenant factId kind previousContent newContent metadata))
      (fun _ final => Audited tenant final) world := by
  apply (secures_iff _ _ _ _ _).mpr
  apply ensures_recorded engine tenant factId kind previousContent newContent metadata
  · exact fun _ _ _ admitted => admitted.1
  · intro event own about sameKind sameContent
    rw [if_pos audits]
    refine ⟨owing.inStep, ?_⟩
    show (auditedContents tenant (world.events ++ [event])).Describe tenant world.facts
    rw [auditedContents_snoc world.events own, stands event _ about sameKind sameContent]
    exact owing.describes

theorem countResult_accounts (input : AddMemoryInput) (output : AddMemoryOutput)
    (decision : FactOperationDecision) (result : LifecycleApplyResult)
    (owing : Owing input.tenant result.change world) :
    Accounts platform input.tenant (countResult engine input output decision result)
      (fun _ final => Audited input.tenant final) world := by
  cases result with
  | added fact =>
    apply (secures_bind _ _ _ _ _ _).mpr
    refine (record_accounts engine audits _ _ _ _ _ owing ?_).mono worldSpec_monotone
      fun _ _ audited => (secures_pure _ _ _ _ _).mpr audited
    intro event contents about kind stated
    simp [Contents.after, about, kind, stated, LifecycleApplyResult.change]
  | updated previous stored =>
    apply (secures_bind _ _ _ _ _ _).mpr
    refine (record_accounts engine audits _ _ _ _ _ owing ?_).mono worldSpec_monotone
      fun _ _ audited => (secures_pure _ _ _ _ _).mpr audited
    intro event contents about kind stated
    simp [Contents.after, about, kind, stated, LifecycleApplyResult.change]
  | deleted fact =>
    apply (secures_bind _ _ _ _ _ _).mpr
    refine (record_accounts engine audits _ _ _ _ _ owing ?_).mono worldSpec_monotone
      fun _ _ audited => (secures_pure _ _ _ _ _).mpr audited
    intro event contents about kind stated
    simp [Contents.after, about, kind, LifecycleApplyResult.change]
  | noOp =>
    apply (secures_bind _ _ _ _ _ _).mpr
    refine (record_accounts engine audits _ _ _ _ _ owing ?_).mono worldSpec_monotone
      fun _ _ audited => (secures_pure _ _ _ _ _).mpr audited
    intro event contents about kind stated
    simp [Contents.after, kind, LifecycleApplyResult.change]

theorem skipDuplicate_accounts (output : AddMemoryOutput) (existingFactId : Uuid)
    (reason : String) (audited : Audited tenant world) :
    Accounts platform tenant (skipDuplicate engine tenant output existingFactId reason)
      (fun _ final => Audited tenant final) world := by
  apply (secures_bind _ _ _ _ _ _).mpr
  refine (record_accounts engine audits _ _ _ _ _ audited ?_).mono worldSpec_monotone
    fun _ _ later => (secures_pure _ _ _ _ _).mpr later
  intro event contents about kind stated
  simp [Contents.after, kind]

/-! ## The operations -/

theorem embedAndApply_accounts (input : AddMemoryInput) (output : AddMemoryOutput)
    (candidate : CandidateFact) (audited : Audited input.tenant world) :
    Accounts platform input.tenant (embedAndApply engine input output candidate)
      (fun _ final => Audited input.tenant final) world := by
  have applying : ∀ embedding, Accounts platform input.tenant
      (do let relatedFacts ← findRelatedFacts input.tenant candidate
          let decision ← classifyFactOperation input.tenant candidate relatedFacts
          let result ← applyFactOperation input.tenant candidate decision (some embedding)
          countResult engine input output decision result)
      (fun _ final => Audited input.tenant final) world := by
    intro embedding
    apply (secures_bind _ _ _ _ _ _).mpr
    apply secures_searchFacts _ audited
    intro _ related _ _
    apply (secures_bind _ _ _ _ _ _).mpr
    apply secures_provider (.classifyFactOperation _ _ _) audited
    intro decision
    apply (secures_bind _ _ _ _ _ _).mpr
    refine (applyFactOperation_accounts candidate decision _ audited).mono worldSpec_monotone ?_
    intro result final owing
    exact countResult_accounts engine audits input output decision result owing
  apply (secures_bind _ _ _ _ _ _).mpr
  apply secures_provider (.embedText candidate.content) audited
  intro (embedding : List ℚ)
  apply (secures_bind _ _ _ _ _ _).mpr
  have detecting : Accounts platform input.tenant
      (detectEmbeddingDuplicate input.tenant candidate.memoryType embedding
        engine.embeddingDedupConfig) (fun _ final => final = world) world := by
    unfold detectEmbeddingDuplicate
    split
    · exact (secures_pure _ _ _ _ _).mpr rfl
    · apply (secures_bind _ _ _ _ _ _).mpr
      apply accounts_searchVectors _ audited
      exact fun _ => (secures_pure _ _ _ _ _).mpr rfl
  refine detecting.mono worldSpec_monotone ?_
  rintro duplicate final rfl
  split
  · exact skipDuplicate_accounts engine audits output _ _ audited
  · exact applying embedding

theorem addCandidate_accounts (input : AddMemoryInput) (output : AddMemoryOutput)
    (extracted : CandidateFact) (audited : Audited input.tenant world) :
    Accounts platform input.tenant (addCandidate engine input output extracted)
      (fun _ final => Audited input.tenant final) world := by
  apply (secures_bind _ _ _ _ _ _).mpr
  apply secures_check audited
  intro _ _
  show Accounts platform input.tenant (if _ then _ else _) _ _
  split
  · exact (secures_pure _ _ _ _ _).mpr audited
  · apply (secures_bind _ _ _ _ _ _).mpr
    apply secures_searchFacts _ audited
    intro _ existing _ _
    split
    · exact skipDuplicate_accounts engine audits output _ _ audited
    · exact embedAndApply_accounts engine audits input output _ audited

theorem addCandidates_accounts (input : AddMemoryInput) (output : AddMemoryOutput)
    (candidates : List CandidateFact) (audited : Audited input.tenant world) :
    Accounts platform input.tenant (addCandidates engine input output candidates)
      (fun _ final => Audited input.tenant final) world := by
  induction candidates generalizing output world with
  | nil => exact (secures_pure _ _ _ _ _).mpr audited
  | cons candidate candidates inductionHypothesis =>
    apply (secures_bind _ _ _ _ _ _).mpr
    refine (addCandidate_accounts engine audits input output candidate audited).mono worldSpec_monotone ?_
    exact fun output _ later => inductionHypothesis output later

omit audits in
theorem invalidateUserContextCache_accounts (audited : Audited tenant world) :
    Accounts platform tenant (invalidateUserContextCache engine tenant)
      (fun _ final => Audited tenant final) world :=
  (secures_iff _ _ _ _ _).mpr (ensures_invalidateUserContextCache engine tenant
    fun _ => ⟨audited.inStep, audited.describes⟩)

theorem addMemory_accounts (input : AddMemoryInput) (audited : Audited input.tenant world) :
    Accounts platform input.tenant (addMemory engine input)
      (fun _ final => Audited input.tenant final) world := by
  have attributing : Accounts platform input.tenant (bindUsageAttribution engine input.tenant)
      (fun _ final => Audited input.tenant final) world := by
    unfold bindUsageAttribution
    split
    · apply (secures_iff _ _ _ _ _).mpr
      apply (ensures_perform (.system (.setUsageAttribution _ _)) _).mpr
      exact fun _ _ _ => ⟨audited.inStep, audited.describes⟩
    · exact (secures_pure _ _ _ _ _).mpr audited
  apply (secures_bind _ _ _ _ _ _).mpr
  apply secures_check audited
  intro _ _
  apply (secures_bind _ _ _ _ _ _).mpr
  apply secures_check audited
  intro _ _
  apply (secures_bind _ _ _ _ _ _).mpr
  refine attributing.mono worldSpec_monotone ?_
  intro _ later audited
  apply (secures_bind _ _ _ _ _ _).mpr
  apply secures_provider (.extractFacts _ _ _) audited
  intro candidates
  apply (secures_bind _ _ _ _ _ _).mpr
  refine (addCandidates_accounts engine audits input _ candidates audited).mono worldSpec_monotone ?_
  intro output final audited
  split
  · apply (secures_bind _ _ _ _ _ _).mpr
    refine (invalidateUserContextCache_accounts engine audited).mono worldSpec_monotone ?_
    exact fun _ _ audited => (secures_pure _ _ _ _ _).mpr audited
  · exact (secures_pure _ _ _ _ _).mpr audited

/-- In step, an active fact has a record, so deleting its vector does not fail. -/
theorem deleteMemory_accounts (input : DeleteMemoryInput) (audited : Audited input.tenant world) :
    Accounts platform input.tenant (deleteMemory engine input)
      (fun _ final => Audited input.tenant final) world := by
  apply (secures_bind _ _ _ _ _ _).mpr
  apply secures_check audited
  intro _ _
  apply (secures_bind _ _ _ _ _ _).mpr
  apply secures_requireFact input.memoryId audited
  intro fact active own sameTarget
  rw [← sameTarget]
  apply (secures_bind _ _ _ _ _ _).mpr
  apply accounts_facts (.softDeleteFact input.tenant fact.id)
  · intro error failed
    simp only [MockFactStore.serve,
      world.facts.softDeleteFact_error input.tenant fact.id error failed]
    exact audited
  intro _ served
  have deleting := startDeleting_softDelete audited.inStep active own served
  have found : (MockVectorStore.deleteByFactId world.vectors input.tenant fact.id).1 = .ok () := by
    obtain ⟨record, stored, carries⟩ := audited.inStep.recorded fact active id
    exact (world.vectors.deleteByFactId_ok input.tenant fact.id).mpr
      ⟨record, stored, carries.tenant.trans own, carries.factId⟩
  apply (secures_bind _ _ _ _ _ _).mpr
  apply (secures_iff _ _ _ _ _).mpr
  apply ensures_vectors (.deleteByFactId input.tenant fact.id)
  · intro choice error admitted faulty
    exact absurd (admitted.1.symm.trans faulty) (by simp)
  simp only [MockVectorStore.serve, found]
  have owing : Owing input.tenant (LifecycleApplyResult.deleted fact).change { world with
      facts := (world.facts.softDeleteFact input.tenant fact.id).2
      vectors := (MockVectorStore.deleteByFactId world.vectors input.tenant fact.id).2 } :=
    ⟨deleting.step.done, audited.softDeleted served⟩
  apply (secures_bind _ _ _ _ _ _).mpr
  refine (record_accounts engine audits _ _ _ _ _ owing ?_).mono worldSpec_monotone ?_
  · intro event contents about kind stated
    simp [Contents.after, about, kind, LifecycleApplyResult.change]
  intro _ later audited
  apply (secures_bind _ _ _ _ _ _).mpr
  refine (invalidateUserContextCache_accounts engine audited).mono worldSpec_monotone ?_
  exact fun _ _ audited => (secures_pure _ _ _ _ _).mpr audited

theorem forgetUser_accounts (input : ForgetUserInput) (audited : Audited input.tenant world) :
    Accounts platform input.tenant (forgetUser engine input)
      (fun _ final => Audited input.tenant final) world := by
  apply (secures_bind _ _ _ _ _ _).mpr
  apply secures_check audited
  intro _ _
  apply (secures_bind _ _ _ _ _ _).mpr
  apply accounts_facts (.deleteUserData input.tenant)
  · intro error failed
    nomatch failed
  intro _ _
  apply (secures_bind _ _ _ _ _ _).mpr
  apply (secures_iff _ _ _ _ _).mpr
  apply ensures_vectors (.deleteByUser input.tenant)
  · intro choice error admitted faulty
    exact absurd (admitted.1.symm.trans faulty) (by simp)
  have owing : Owing input.tenant (fun _ _ => none) { world with
      facts := (world.facts.deleteUserData input.tenant).2
      vectors := (MockVectorStore.deleteByUser world.vectors input.tenant).2 } := by
    refine ⟨audited.inStep.wipe input.tenant, Contents.describe_nothing fun fact active => ?_⟩
    exact ((world.facts.active_deleteUserData input.tenant fact).mp active).2
  apply (secures_bind _ _ _ _ _ _).mpr
  refine (record_accounts engine audits _ _ _ _ _ owing ?_).mono worldSpec_monotone ?_
  · intro event contents about kind stated
    simp [Contents.after, kind]
  intro _ later audited
  apply (secures_bind _ _ _ _ _ _).mpr
  refine (invalidateUserContextCache_accounts engine audited).mono worldSpec_monotone ?_
  exact fun _ _ audited => (secures_pure _ _ _ _ _).mpr audited

end Recording

end Programs

/-! ## The log and the store -/

/-- The operations of a tenant that the log is to account for. -/
def AuditedOperation (tenant : TenantContext) : EngineOperation → Prop
  | .addMemory input => input.tenant = tenant
  | .deleteMemory input => input.tenant = tenant
  | .forgetUser input => input.tenant = tenant
  | _ => False

theorem operation_accounts {platform : Platform} {world : World} {tenant : TenantContext}
    (engine : MemoryEngine) (audits : engine.eventStore = true) (operation : EngineOperation)
    (own : AuditedOperation tenant operation) (audited : Audited tenant world) :
    Accounts platform tenant (operation.program engine) (fun _ final => Audited tenant final)
      world := by
  cases operation with
  | addMemory input =>
    obtain rfl : input.tenant = tenant := own
    apply (secures_bind _ _ _ _ _ _).mpr
    exact (addMemory_accounts engine audits input audited).mono worldSpec_monotone
      fun _ _ later => (secures_pure _ _ _ _ _).mpr later
  | deleteMemory input =>
    obtain rfl : input.tenant = tenant := own
    apply (secures_bind _ _ _ _ _ _).mpr
    exact (deleteMemory_accounts engine audits input audited).mono worldSpec_monotone
      fun _ _ later => (secures_pure _ _ _ _ _).mpr later
  | forgetUser input =>
    obtain rfl : input.tenant = tenant := own
    apply (secures_bind _ _ _ _ _ _).mpr
    exact (forgetUser_accounts engine audits input audited).mono worldSpec_monotone
      fun _ _ later => (secures_pure _ _ _ _ _).mpr later
  | _ => exact own.elim

/-- After any sequence of a tenant's operations in which no embedding fails while an active
fact is without a vector record, whether they returned or failed, the log of the tenant
replays to the contents of its active facts. -/
theorem log_replays_to_store (engine : MemoryEngine) (audits : engine.eventStore = true)
    (tenant : TenantContext) (operations : List EngineOperation) (world : World)
    (own : ∀ operation ∈ operations, AuditedOperation tenant operation)
    (session : Session engine updatesComplete operations world) :
    ∀ factId content, auditedContents tenant world.events factId = some content ↔
      ∃ fact, world.facts.Active fact ∧ fact.tenant = tenant ∧ fact.id = factId ∧
        fact.content = content := by
  have audited : Audited tenant world := by
    apply session.invariant own (Audited tenant) (audited_empty tenant)
    intro operation before isOwn audited
    apply Ensures.mono worldSpec_monotone
      ((secures_iff _ _ _ _ _).mp (operation_accounts engine audits operation isOwn audited))
    intro outcome final ended
    cases outcome with
    | ok value => exact ended
    | error error => exact ended
  exact audited.describes

/-- An engine with an audit log, and a second statement that updates the first. -/
def MemoryEngine.logging : MemoryEngine := { MemoryEngine.new .sample with eventStore := true }

def sampleUpdateCandidate : CandidateFact :=
  { sampleCandidate with content := "Ada drinks green tea in the evening" }

/-- The choices for adding the first memory and recording the event. -/
def sampleLoggedChoices : List Choice := sampleAddChoices 1 [1] ++ plainChoices 1

/-- The choices for updating the first memory; the last of them are for the embedding of
the updated fact and what comes after it. -/
def sampleUpdateChoices (embedded : List Choice) : List Choice :=
  { candidates := [sampleUpdateCandidate] } :: {} :: { embedding := [2] } :: {} :: {} ::
    { decision := ⟨.update, some 1, none, 1⟩ } :: {} :: {} :: {} :: {} :: embedded

theorem log_replays_to_store_sample : ∃ world,
    Session .logging updatesComplete [sampleAdd, sampleAdd] world ∧
      world.facts.activeFacts.map Fact.content = [sampleUpdateCandidate.content] ∧
      ∀ factId content, auditedContents sampleTenant world.events factId = some content ↔
        ∃ fact, world.facts.Active fact ∧ fact.tenant = sampleTenant ∧ fact.id = factId ∧
          fact.content = content := by
  obtain ⟨world, session, updated⟩ := @exists_session_of_replay .logging updatesComplete _ 1000
    [(sampleAdd, sampleLoggedChoices),
      (sampleAdd, sampleUpdateChoices [{ embedding := [2] }, { uuid := 4 }, {}, { uuid := 5 }, {}, {}])]
    (fun world => decide (world.facts.activeFacts.map Fact.content =
      [sampleUpdateCandidate.content])) (by decide +kernel)
  refine ⟨world, session, of_decide_eq_true updated, ?_⟩
  apply log_replays_to_store .logging rfl sampleTenant _ world _ session
  intro operation member
  have only : operation = sampleAdd := by simpa using member
  rw [only]
  rfl

/-- The embedding of an updated fact fails. The store has the new content without a vector
and without an event, and the log tells of the old one. -/
theorem failed_update_not_audited : ∃ world,
    Session .logging ownRejections [sampleAdd, sampleAdd] world ∧
      decide (auditedContents sampleTenant world.events 1 = some sampleCandidate.content ∧
        world.facts.activeFacts.map (fun fact => (fact.id, fact.content)) =
          [(1, sampleUpdateCandidate.content)]) = true :=
  @exists_session_of_replay .logging ownRejections _ 1000
    [(sampleAdd, sampleLoggedChoices),
      (sampleAdd, sampleUpdateChoices [{ fault := some (.providerError "embedding failed") }])]
    _ (by decide +kernel)

end Memcore
