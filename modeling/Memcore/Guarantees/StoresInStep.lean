import Memcore.Engine.Operations

/-!
# The two stores in step

Every active fact has one vector record with a copy of its current statement, and
every record belongs to an active fact. An operation breaks this between its calls
and restores it before it returns, so the invariant is stated outside a set of
pending identifiers: those whose record is missing, outdated or without a fact.
-/
namespace Memcore

open KeyedTables Ports Programs

/-- A record of a fact with the fact's current statement. -/
structure Carries (record : VectorRecord) (fact : Fact) : Prop where
  factId : record.factId = fact.id
  tenant : record.tenant = fact.tenant
  content : record.content = fact.content
  memoryType : record.memoryType = fact.memoryType
  metadata : record.metadata = fact.metadata

/-- The two stores agree, identifiers that are pending left aside. -/
structure InStepOutside (pending : Uuid → Prop) (facts : MockFactStore)
    (vectors : MockVectorStore) : Prop where
  recorded : ∀ fact, facts.Active fact → ¬ pending fact.id →
    ∃ record ∈ vectors.rows, Carries record fact
  owned : ∀ record ∈ vectors.rows, ¬ pending record.factId →
    ∃ fact, facts.Active fact ∧ fact.id = record.factId ∧ fact.tenant = record.tenant
  single : ∀ left ∈ vectors.rows, ∀ right ∈ vectors.rows, ¬ pending left.factId →
    left.factId = right.factId → left = right

/-- The two stores agree about everything. -/
abbrev InStep (world : World) : Prop :=
  InStepOutside (fun _ => False) world.facts world.vectors

theorem inStep_empty (maxEntries : ℕ) : InStep (World.empty maxEntries) where
  recorded fact active := absurd active (MockFactStore.not_active_empty fact)
  owned record stored := absurd stored List.not_mem_nil
  single left stored := absurd stored List.not_mem_nil

/-- The stores have records of a fact only for one tenant. -/
def RecordsBelongTo (tenant : TenantContext) (factId : Uuid) (vectors : MockVectorStore) :
    Prop :=
  ∀ record ∈ vectors.rows, record.factId = factId → record.tenant = tenant

/-! ## What each store call does -/

section Steps

variable {pending : Uuid → Prop} {facts later : MockFactStore} {vectors : MockVectorStore}

/-- Fewer facts are in question when more identifiers are pending. -/
theorem InStepOutside.widen {wider : Uuid → Prop} (inStep : InStepOutside pending facts vectors)
    (wide : ∀ id, pending id → wider id) : InStepOutside wider facts vectors where
  recorded fact active settled := inStep.recorded fact active fun open' => settled (wide _ open')
  owned record stored settled := inStep.owned record stored fun open' => settled (wide _ open')
  single left leftStored right rightStored settled :=
    inStep.single left leftStored right rightStored fun open' => settled (wide _ open')

/-- A change of the facts with pending identifiers keeps the others in step. -/
theorem InStepOutside.changeFacts (inStep : InStepOutside pending facts vectors)
    (same : ∀ fact, ¬ pending fact.id → (later.Active fact ↔ facts.Active fact)) :
    InStepOutside pending later vectors where
  recorded fact active settled := inStep.recorded fact ((same fact settled).mp active) settled
  owned record stored settled := by
    obtain ⟨fact, active, sameId, sameTenant⟩ := inStep.owned record stored settled
    exact ⟨fact, (same fact (sameId ▸ settled)).mpr active, sameId, sameTenant⟩
  single := inStep.single

/-- In step, the records of a fact are those of its tenant. -/
theorem InStepOutside.recordsBelongTo {fact : Fact}
    (inStep : InStepOutside (fun _ => False) facts vectors) (active : facts.Active fact) :
    RecordsBelongTo fact.tenant fact.id vectors := by
  intro record stored sameFact
  obtain ⟨owner, ownerActive, sameId, sameTenant⟩ := inStep.owned record stored id
  obtain rfl := ownerActive.unique active (sameId.trans sameFact)
  exact sameTenant.symm

/-- A new fact is the only one without a record. -/
theorem InStepOutside.insert {fact : Fact}
    (inStep : InStepOutside (fun _ => False) facts vectors)
    (absent : facts.facts.contains fact.id = false) :
    InStepOutside (fun id => id = fact.id) (facts.putFact fact) vectors ∧
      (facts.putFact fact).Active fact ∧ ∀ other ∈ vectors.rows, other.factId ≠ fact.id := by
  refine ⟨?_, (facts.active_insertFact fact fact absent).mpr (.inl rfl), ?_⟩
  · refine (inStep.widen fun _ => False.elim).changeFacts fun other different => ?_
    rw [facts.active_insertFact fact other absent]
    exact ⟨fun active => active.resolve_left fun same => different (same ▸ rfl), .inr⟩
  · intro other stored sameFact
    obtain ⟨owner, ownerActive, sameId, _⟩ := inStep.owned other stored id
    have taken := (facts.facts.contains_iff fact.id).mpr
      ⟨owner, ownerActive.1, sameId.trans sameFact⟩
    simp_all

/-- Deleting the records of a pending fact leaves none of them and no other change. -/
theorem InStepOutside.deleteVector {tenant : TenantContext} {factId : Uuid}
    (inStep : InStepOutside pending facts vectors) (isPending : pending factId)
    (belong : RecordsBelongTo tenant factId vectors) :
    InStepOutside pending facts (vectors.deleteByFactId tenant factId).2 ∧
      ∀ record ∈ (vectors.deleteByFactId tenant factId).2.rows, record.factId ≠ factId := by
  refine ⟨⟨fun fact active settled => ?_, fun record kept settled => ?_,
    fun left leftKept right rightKept settled sameFact => ?_⟩, fun record kept sameFact => ?_⟩
  · obtain ⟨record, stored, carries⟩ := inStep.recorded fact active settled
    refine ⟨record, (vectors.mem_deleteByFactId tenant factId record).mpr ⟨stored, ?_⟩, carries⟩
    rintro ⟨_, sameFact⟩
    exact settled (carries.factId ▸ sameFact ▸ isPending)
  · exact inStep.owned record ((vectors.mem_deleteByFactId tenant factId record).mp kept).1 settled
  · exact inStep.single left ((vectors.mem_deleteByFactId tenant factId left).mp leftKept).1
      right ((vectors.mem_deleteByFactId tenant factId right).mp rightKept).1 settled sameFact
  · obtain ⟨stored, survives⟩ := (vectors.mem_deleteByFactId tenant factId record).mp kept
    exact survives ⟨belong record stored sameFact, sameFact⟩

/-- An identifier with neither a fact nor a record is no longer pending. -/
theorem InStepOutside.settleAbsent {factId : Uuid} (inStep : InStepOutside pending facts vectors)
    (noFact : ∀ fact, facts.Active fact → fact.id ≠ factId)
    (noRecord : ∀ record ∈ vectors.rows, record.factId ≠ factId) :
    InStepOutside (fun id => pending id ∧ id ≠ factId) facts vectors where
  recorded fact active settled :=
    inStep.recorded fact active fun open' => settled ⟨open', noFact fact active⟩
  owned record stored settled :=
    inStep.owned record stored fun open' => settled ⟨open', noRecord record stored⟩
  single left leftStored right rightStored settled :=
    inStep.single left leftStored right rightStored fun open' =>
      settled ⟨open', noRecord left leftStored⟩

/-- Storing the record of the only pending fact brings the stores in step. -/
theorem InStepOutside.settleStored {fact : Fact} {record : VectorRecord}
    (inStep : InStepOutside (fun id => id = fact.id) facts vectors)
    (active : facts.Active fact) (carries : Carries record fact)
    (noRecord : ∀ other ∈ vectors.rows, other.factId ≠ fact.id)
    (newRecord : vectors.contains record.id = false) :
    InStepOutside (fun _ => False) facts (vectors.put record) := by
  have others : ∀ other ∈ vectors.rows, other.id ≠ record.id := by
    intro other stored sameId
    have taken := (vectors.contains_iff record.id).mpr ⟨other, stored, sameId⟩
    simp_all
  have stored : ∀ other, other ∈ (vectors.put record).rows ↔
      other = record ∨ other ∈ vectors.rows := by
    intro other
    rw [Table.mem_put]
    constructor
    · rintro (same | ⟨old, _⟩)
      · exact .inl same
      · exact .inr old
    · rintro (same | old)
      · exact .inl same
      · exact .inr ⟨old, others other old⟩
  refine ⟨fun other otherActive _ => ?_, fun other kept _ => ?_,
    fun left leftKept right rightKept _ sameFact => ?_⟩
  · by_cases sameId : other.id = fact.id
    · obtain rfl := otherActive.unique active sameId
      exact ⟨record, (stored record).mpr (.inl rfl), carries⟩
    · obtain ⟨old, oldStored, oldCarries⟩ := inStep.recorded other otherActive sameId
      exact ⟨old, (stored old).mpr (.inr oldStored), oldCarries⟩
  · cases (stored other).mp kept with
    | inl same => exact ⟨fact, active, same ▸ carries.factId.symm, same ▸ carries.tenant.symm⟩
    | inr old => exact inStep.owned other old (noRecord other old)
  · rcases (stored left).mp leftKept with rfl | leftOld <;>
      rcases (stored right).mp rightKept with rfl | rightOld
    · rfl
    · exact absurd (sameFact.symm.trans carries.factId) (noRecord right rightOld)
    · exact absurd (sameFact.trans carries.factId) (noRecord left leftOld)
    · exact inStep.single left leftOld right rightOld (noRecord left leftOld) sameFact

/-- Wiping a tenant in both stores keeps them in step. -/
theorem InStepOutside.wipe (inStep : InStepOutside (fun _ => False) facts vectors)
    (tenant : TenantContext) :
    InStepOutside (fun _ => False) (facts.deleteUserData tenant).2
      (vectors.deleteByUser tenant).2 := by
  refine ⟨fun fact active _ => ?_, fun record kept _ => ?_,
    fun left leftKept right rightKept _ sameFact => ?_⟩
  · obtain ⟨stillActive, other⟩ := (facts.active_deleteUserData tenant fact).mp active
    obtain ⟨record, stored, carries⟩ := inStep.recorded fact stillActive id
    exact ⟨record, (vectors.mem_deleteByUser tenant record).mpr
      ⟨stored, carries.tenant ▸ other⟩, carries⟩
  · obtain ⟨stored, other⟩ := (vectors.mem_deleteByUser tenant record).mp kept
    obtain ⟨fact, active, sameId, sameTenant⟩ := inStep.owned record stored id
    exact ⟨fact, (facts.active_deleteUserData tenant fact).mpr
      ⟨active, sameTenant ▸ other⟩, sameId, sameTenant⟩
  · exact inStep.single left ((vectors.mem_deleteByUser tenant left).mp leftKept).1
      right ((vectors.mem_deleteByUser tenant right).mp rightKept).1 id sameFact

end Steps

/-! ## What each part of an operation does -/

/-- The stores reject only what their own code rejects, and identifiers are new.
Providers and the audit log may fail. -/
def mockStores : World → Port → Choice → Prop := fun world port choice =>
  match port with
  | .system .newUuid => world.Unused choice.uuid
  | .facts _ | .vectors _ => choice.fault = none
  | _ => True

instance : ∀ world port choice, Decidable (mockStores world port choice) :=
  fun world port choice => port.casesOn
    (fun _ => inferInstanceAs (Decidable (choice.fault = none)))
    (fun _ => inferInstanceAs (Decidable (choice.fault = none)))
    (fun _ => isTrue trivial)
    (fun _ => isTrue trivial)
    (fun call => call.casesOn (isTrue trivial)
      (inferInstanceAs (Decidable (world.Unused choice.uuid))) fun _ _ => isTrue trivial)
    (fun _ => isTrue trivial)
    (fun _ => isTrue trivial)

section Programs

variable {platform : Platform} {world : World} {tenant : TenantContext}

theorem InStepOutside.ofSame {pending : Uuid → Prop} {before after : World}
    (inStep : InStepOutside pending before.facts before.vectors) (same : SameData before after) :
    InStepOutside pending after.facts after.vectors := by
  rw [same.facts, same.vectors]
  exact inStep

/-- Deleting vectors as far as there are any, seen as one step. -/
theorem deleteVectorIfPresent_succeeds (factId : Uuid) {good : Unit → World → Prop}
    (enough : good () { world with
      vectors := (MockVectorStore.deleteByFactId world.vectors tenant factId).2 }) :
    Succeeds (worldSpec platform mockStores) (deleteVectorIfPresent tenant factId) good
      world := by
  simp only [deleteVectorIfPresent, succeeds_bind, succeeds_attempt]
  refine ensures_vectors (.deleteByFactId tenant factId) ?_ ?_
  · intro choice error sound faulty
    exact absurd (sound.symm.trans faulty) (by simp)
  · cases served : (MockVectorStore.deleteByFactId world.vectors tenant factId).1 with
    | ok answer => simpa [MockVectorStore.serve, served] using enough
    | error error =>
      have missing := MockVectorStore.deleteByFactId_error _ _ _ _ served
      simpa [MockVectorStore.serve, served, missing] using enough

theorem vectorRecordFromFact_succeeds (fact : Fact) (embedding : List ℚ)
    {good : VectorRecord → World → Prop}
    (enough : ∀ record, Carries record fact → world.vectors.contains record.id = false →
      good record world) :
    Succeeds (worldSpec platform mockStores) (vectorRecordFromFact fact embedding) good
      world := by
  simp only [vectorRecordFromFact, succeeds_bind, succeeds_pure]
  refine succeeds_newUuid fun choice (admitted : world.Unused choice.uuid) => ?_
  exact enough _ ⟨rfl, rfl, rfl, rfl, rfl⟩ admitted.2.1

/-- Storing the record of the only pending fact ends in step. -/
theorem storeRecord_inStep {fact : Fact} (embedding : List ℚ)
    (inStep : InStepOutside (fun id => id = fact.id) world.facts world.vectors)
    (active : world.facts.Active fact) (own : fact.tenant = tenant)
    (noRecord : ∀ other ∈ world.vectors.rows, other.factId ≠ fact.id) :
    Succeeds (worldSpec platform mockStores)
      (do let record ← vectorRecordFromFact fact embedding; upsertVector tenant record)
      (fun _ final => InStep final) world := by
  simp only [succeeds_bind]
  refine vectorRecordFromFact_succeeds fact embedding fun record carries newRecord => ?_
  refine succeeds_vectors (.upsertVector tenant record) fun answer served => ?_
  have stored := MockVectorStore.upsertVector_eq world.vectors tenant record
    (carries.tenant.trans own)
  simp only [MockVectorStore.serve, stored]
  exact inStep.settleStored active carries noRecord newRecord

/-- Embedding and storing the record of the only pending fact ends in step. -/
theorem upsertFactVector_inStep {fact : Fact} (precomputedEmbedding : Option (List ℚ))
    (inStep : InStepOutside (fun id => id = fact.id) world.facts world.vectors)
    (active : world.facts.Active fact) (own : fact.tenant = tenant)
    (noRecord : ∀ other ∈ world.vectors.rows, other.factId ≠ fact.id) :
    Succeeds (worldSpec platform mockStores)
      (upsertFactVector tenant fact precomputedEmbedding) (fun _ final => InStep final)
      world := by
  refine (succeeds_bind _ _ _ _ _).mpr ?_
  cases precomputedEmbedding with
  | none =>
    exact succeeds_provider (.embedText fact.content) fun embedding =>
      storeRecord_inStep embedding inStep active own noRecord
  | some embedding =>
    exact (succeeds_pure _ _ _ _).mpr (storeRecord_inStep embedding inStep active own noRecord)

theorem candidateToFact_succeeds (candidate : CandidateFact) {good : Fact → World → Prop}
    (enough : ∀ fact, fact.tenant = tenant → good fact world) :
    Succeeds (worldSpec platform mockStores) (candidateToFact tenant candidate) good world := by
  simp only [candidateToFact, succeeds_bind, succeeds_check]
  refine succeeds_now fun createdAt => succeeds_newUuid fun choice _ fact created => ?_
  obtain ⟨rfl, _⟩ := (Fact.new_ok _ _).mp created
  exact enough _ rfl

theorem applyAdd_inStep (candidate : CandidateFact) (precomputedEmbedding : Option (List ℚ))
    (inStep : InStep world) :
    Succeeds (worldSpec platform mockStores) (applyAdd tenant candidate precomputedEmbedding)
      (fun _ final => InStep final) world := by
  simp only [applyAdd, succeeds_bind, succeeds_pure]
  refine candidateToFact_succeeds candidate fun fact own => ?_
  refine succeeds_facts (.insertFact tenant fact) fun (inserted : Fact) served => ?_
  obtain ⟨rfl, _, absent, stored⟩ := world.facts.insertFact_ok tenant fact inserted served
  simp only [MockFactStore.serve, stored]
  obtain ⟨pending, active, noRecord⟩ := inStep.insert absent
  exact upsertFactVector_inStep precomputedEmbedding pending active own noRecord

theorem requireFact_succeeds (factId : Uuid) {good : Fact → World → Prop}
    (enough : ∀ fact, world.facts.Active fact → fact.tenant = tenant → fact.id = factId →
      good fact world) :
    Succeeds (worldSpec platform mockStores) (requireFact tenant factId) good world := by
  simp only [requireFact, succeeds_bind]
  refine succeeds_facts (.getFact tenant factId) fun found served => ?_
  simp only [MockFactStore.serve, MockFactStore.getFact_snd] at served ⊢
  cases found with
  | none => simp only [succeeds_fail]
  | some fact =>
    obtain ⟨active, own, sameId⟩ := (world.facts.getFact_some tenant factId fact).mp served
    simpa only [succeeds_pure] using enough fact active own sameId

/-- A merged fact keeps the identity of the fact that it replaces. -/
theorem mergeCandidateIntoFact_succeeds (existing : Fact) (candidate : CandidateFact)
    {good : Fact → World → Prop}
    (enough : ∀ fact, fact.id = existing.id → fact.tenant = existing.tenant →
      good fact world) :
    Succeeds (worldSpec platform mockStores) (mergeCandidateIntoFact existing candidate) good
      world := by
  simp only [mergeCandidateIntoFact, succeeds_bind, succeeds_check]
  refine succeeds_now fun updatedAt fact created => ?_
  obtain ⟨rfl, _⟩ := (Fact.new_ok _ _).mp created
  exact enough _ rfl rfl

theorem applyUpdate_inStep (candidate : CandidateFact) (targetFactId : Uuid)
    (inStep : InStep world) :
    Succeeds (worldSpec platform mockStores) (applyUpdate tenant candidate targetFactId)
      (fun _ final => InStep final) world := by
  simp only [applyUpdate, replaceFactVector, succeeds_bind, succeeds_pure]
  refine requireFact_succeeds targetFactId fun existing active own sameTarget => ?_
  refine mergeCandidateIntoFact_succeeds existing candidate fun updated sameId sameTenant => ?_
  refine succeeds_facts (.updateFact tenant updated) fun (stored : Fact) served => ?_
  obtain ⟨rfl, _, storedAs⟩ := world.facts.updateFact_ok tenant updated stored served
  simp only [MockFactStore.serve, storedAs]
  have pending : InStepOutside (fun id => id = stored.id) (world.facts.putFact stored)
      world.vectors := by
    refine (inStep.widen fun _ => False.elim).changeFacts fun other different => ?_
    rw [world.facts.active_putFact]
    exact ⟨fun changed => changed.elim (fun same => absurd (same.1 ▸ rfl) different) And.left,
      fun old => .inr ⟨old, different⟩⟩
  have belong : RecordsBelongTo tenant stored.id world.vectors := by
    rw [sameId, ← own]
    exact inStep.recordsBelongTo active
  obtain ⟨cleared, noRecord⟩ := pending.deleteVector rfl belong
  refine deleteVectorIfPresent_succeeds stored.id ?_
  refine upsertFactVector_inStep none cleared ?_ (sameTenant.trans own) noRecord
  exact (world.facts.active_putFact stored stored).mpr (.inl ⟨rfl, sameId ▸ active.2⟩)

/-- What is left to do after facts were deleted: no active fact has one of the
identifiers, and their records, if any, belong to the tenant. -/
structure Deleting (tenant : TenantContext) (factIds : List Uuid) (world : World) : Prop where
  inStep : InStepOutside (fun id => id ∈ factIds) world.facts world.vectors
  inactive : ∀ fact, world.facts.Active fact → fact.id ∉ factIds
  belong : ∀ factId ∈ factIds, RecordsBelongTo tenant factId world.vectors

/-- Deleting the vectors of one fact leaves the others to do. -/
theorem Deleting.step {factId : Uuid} {factIds : List Uuid}
    (deleting : Deleting tenant (factId :: factIds) world) :
    Deleting tenant factIds { world with
      vectors := (MockVectorStore.deleteByFactId world.vectors tenant factId).2 } := by
  obtain ⟨cleared, noRecord⟩ := deleting.inStep.deleteVector List.mem_cons_self
    (deleting.belong factId List.mem_cons_self)
  refine ⟨?_, fun fact active member => deleting.inactive fact active (.tail _ member),
    fun other member record kept sameFact => ?_⟩
  · refine (cleared.settleAbsent (fun fact active sameId => ?_) noRecord).widen ?_
    · exact deleting.inactive fact active (sameId ▸ List.mem_cons_self)
    · rintro id ⟨member, different⟩
      exact (List.mem_cons.mp member).resolve_left different
  · exact deleting.belong other (.tail _ member) record
      ((world.vectors.mem_deleteByFactId tenant factId record).mp kept).1 sameFact

theorem Deleting.done (deleting : Deleting tenant [] world) : InStep world :=
  deleting.inStep.widen fun _ member => List.not_mem_nil member

theorem deleteVectorsIfPresent_inStep {factIds : List Uuid}
    (deleting : Deleting tenant factIds world) :
    Succeeds (worldSpec platform mockStores) (deleteVectorsIfPresent tenant factIds)
      (fun _ final => InStep final) world := by
  induction factIds generalizing world with
  | nil => simpa only [deleteVectorsIfPresent, succeeds_pure] using deleting.done
  | cons factId factIds inductionHypothesis =>
    simp only [deleteVectorsIfPresent, succeeds_bind]
    exact deleteVectorIfPresent_succeeds factId (inductionHypothesis deleting.step)

/-- In step, deleting facts of one tenant leaves only their vectors to do. -/
theorem InStepOutside.startDeleting {later : MockFactStore} {factIds : List Uuid}
    (inStep : InStep world)
    (own : ∀ factId ∈ factIds, ∃ fact, world.facts.Active fact ∧ fact.id = factId ∧
      fact.tenant = tenant)
    (removed : ∀ fact, later.Active fact ↔ world.facts.Active fact ∧ fact.id ∉ factIds) :
    Deleting tenant factIds { world with facts := later } where
  inStep := by
    refine (inStep.widen fun _ => False.elim).changeFacts fun fact settled => ?_
    exact ⟨fun active => ((removed fact).mp active).1,
      fun active => (removed fact).mpr ⟨active, settled⟩⟩
  inactive fact active := ((removed fact).mp active).2
  belong factId member := by
    obtain ⟨fact, active, rfl, rfl⟩ := own factId member
    exact inStep.recordsBelongTo active

/-- A soft deletion of an active fact leaves only its vectors to do. -/
theorem startDeleting_softDelete {fact : Fact} (inStep : InStep world)
    (active : world.facts.Active fact) (own : fact.tenant = tenant)
    (deleted : (world.facts.softDeleteFact tenant fact.id).1 = .ok ()) :
    Deleting tenant [fact.id] { world with
      facts := (world.facts.softDeleteFact tenant fact.id).2 } := by
  refine inStep.startDeleting (fun factId member => ?_) fun other => ?_
  · exact ⟨fact, active, (List.mem_singleton.mp member).symm, own⟩
  · rw [world.facts.active_softDeleteFact tenant fact.id deleted, List.mem_singleton]

theorem applyDelete_inStep (targetFactId : Uuid) (inStep : InStep world) :
    Succeeds (worldSpec platform mockStores) (applyDelete tenant targetFactId)
      (fun _ final => InStep final) world := by
  simp only [applyDelete, succeeds_bind, succeeds_pure]
  refine requireFact_succeeds targetFactId fun existing active own sameTarget => ?_
  subst sameTarget
  refine succeeds_facts (.softDeleteFact tenant existing.id) fun _ served => ?_
  have deleting := startDeleting_softDelete inStep active own served
  exact deleteVectorIfPresent_succeeds existing.id deleting.step.done

theorem applyFactOperation_inStep (candidate : CandidateFact)
    (decision : FactOperationDecision) (precomputedEmbedding : Option (List ℚ))
    (inStep : InStep world) :
    Succeeds (worldSpec platform mockStores)
      (applyFactOperation tenant candidate decision precomputedEmbedding)
      (fun _ final => InStep final) world := by
  simp only [applyFactOperation, succeeds_bind, succeeds_check]
  intro operation _
  cases operation with
  | add => exact applyAdd_inStep candidate precomputedEmbedding inStep
  | update targetFactId => exact applyUpdate_inStep candidate targetFactId inStep
  | delete targetFactId => exact applyDelete_inStep targetFactId inStep
  | noOp => simpa only [succeeds_pure] using inStep

/-! ## The operations -/

variable (engine : MemoryEngine)

theorem countResult_inStep (input : AddMemoryInput) (output : AddMemoryOutput)
    (decision : FactOperationDecision) (result : LifecycleApplyResult) (inStep : InStep world) :
    Succeeds (worldSpec platform mockStores) (countResult engine input output decision result)
      (fun _ final => InStep final) world :=
  succeeds_quiet (countResult_within engine input output decision result)
    fun _ _ same => inStep.ofSame same

theorem skipDuplicate_inStep (output : AddMemoryOutput) (existingFactId : Uuid)
    (reason : String) (inStep : InStep world) :
    Succeeds (worldSpec platform mockStores)
      (skipDuplicate engine tenant output existingFactId reason) (fun _ final => InStep final)
      world :=
  succeeds_quiet (skipDuplicate_within engine output existingFactId reason)
    fun _ _ same => inStep.ofSame same

theorem embedAndApply_inStep (input : AddMemoryInput) (output : AddMemoryOutput)
    (candidate : CandidateFact) (inStep : InStep world) :
    Succeeds (worldSpec platform mockStores) (embedAndApply engine input output candidate)
      (fun _ final => InStep final) world := by
  simp only [embedAndApply, succeeds_bind]
  refine succeeds_provider (.embedText candidate.content) fun embedding => ?_
  refine succeeds_quiet (detectEmbeddingDuplicate_within _ _ _) fun duplicate after same => ?_
  have later := inStep.ofSame same
  split
  · exact skipDuplicate_inStep engine output _ _ later
  · simp only [succeeds_bind]
    refine succeeds_facts (.searchFacts _) fun related _ => ?_
    refine succeeds_provider (.classifyFactOperation _ _ _) fun decision => ?_
    exact (applyFactOperation_inStep candidate decision _ later).mono worldSpec_monotone
      fun result applied restored => countResult_inStep engine input output decision result restored

theorem addCandidate_inStep (input : AddMemoryInput) (output : AddMemoryOutput)
    (extracted : CandidateFact) (inStep : InStep world) :
    Succeeds (worldSpec platform mockStores) (addCandidate engine input output extracted)
      (fun _ final => InStep final) world := by
  simp only [addCandidate, succeeds_bind, succeeds_check]
  intro _ _
  split
  · simpa only [succeeds_pure] using inStep
  · simp only [succeeds_bind]
    refine succeeds_facts (.searchFacts _) fun existing _ => ?_
    simp only [MockFactStore.serve, MockFactStore.searchFacts_snd]
    split
    · exact skipDuplicate_inStep engine output _ _ inStep
    · exact embedAndApply_inStep engine input output _ inStep

theorem addCandidates_inStep (input : AddMemoryInput) (output : AddMemoryOutput)
    (candidates : List CandidateFact) (inStep : InStep world) :
    Succeeds (worldSpec platform mockStores) (addCandidates engine input output candidates)
      (fun _ final => InStep final) world := by
  induction candidates generalizing output world with
  | nil => simpa only [addCandidates, succeeds_pure] using inStep
  | cons candidate candidates inductionHypothesis =>
    simp only [addCandidates, succeeds_bind]
    exact (addCandidate_inStep engine input output candidate inStep).mono worldSpec_monotone
      fun output _ restored => inductionHypothesis output restored

/-- The invalidation at the end of an operation touches neither store. -/
theorem invalidateUserContextCache_inStep (inStep : InStep world) :
    Succeeds (worldSpec platform mockStores) (invalidateUserContextCache engine tenant)
      (fun _ final => InStep final) world :=
  (succeeds_iff _ _ _ _).mpr
    (ensures_invalidateUserContextCache engine tenant fun _ => inStep)

theorem addMemory_inStep (input : AddMemoryInput) (inStep : InStep world) :
    Succeeds (worldSpec platform mockStores) (addMemory engine input)
      (fun _ final => InStep final) world := by
  simp only [addMemory, succeeds_bind, succeeds_check]
  intro _ _ _ _
  have quiet : (bindUsageAttribution engine input.tenant).Within (QuietCall input.tenant) :=
    bindUsageAttribution_within engine ⟨rfl, rfl⟩
  refine succeeds_quiet quiet fun _ after same => ?_
  refine succeeds_provider (.extractFacts _ _ _) fun candidates => ?_
  refine (addCandidates_inStep engine input _ candidates (inStep.ofSame same)).mono
    worldSpec_monotone fun output final restored => ?_
  split
  · simp only [succeeds_bind, succeeds_pure]
    exact invalidateUserContextCache_inStep engine restored
  · simpa only [succeeds_pure] using restored

theorem deleteMemory_inStep (input : DeleteMemoryInput) (inStep : InStep world) :
    Succeeds (worldSpec platform mockStores) (deleteMemory engine input)
      (fun _ final => InStep final) world := by
  simp only [deleteMemory, succeeds_bind, succeeds_check, succeeds_pure]
  intro _ _
  refine requireFact_succeeds input.memoryId fun fact active own sameTarget => ?_
  rw [← sameTarget]
  refine succeeds_facts (.softDeleteFact input.tenant fact.id) fun _ served => ?_
  have deleting := startDeleting_softDelete inStep active own served
  refine succeeds_vectors (.deleteByFactId input.tenant fact.id) fun _ _ => ?_
  refine succeeds_quiet (recordEventBestEffort_within engine
    (memoryEventNew_within engine _ _ _ _ _)) fun _ after same => ?_
  exact invalidateUserContextCache_inStep engine (deleting.step.done.ofSame same)

theorem expireFacts_inStep (input : ApplyRetentionInput) (inStep : InStep world) :
    Succeeds (worldSpec platform mockStores) (expireFacts input)
      (fun _ final => InStep final) world := by
  unfold expireFacts
  split
  · simpa only [succeeds_pure] using inStep
  · rename_i factDays _
    simp only [succeeds_bind]
    refine succeeds_now fun current => ?_
    refine succeeds_facts (.deleteFactsOlderThan _ _ _) fun (result : RetentionPruneResult)
      served => ?_
    simp only [MockFactStore.serve] at served ⊢
    cases dryRun : input.dryRun with
    | true => simpa [MockFactStore.deleteFactsOlderThan, dryRun] using inStep
    | false =>
      rw [dryRun] at served
      simp only [Bool.false_eq_true, if_false, succeeds_bind, succeeds_pure]
      obtain rfl : ⟨_, (world.facts.expired input.tenant (current - days factDays)).map Fact.id⟩ =
          result := Except.ok.inj served
      refine deleteVectorsIfPresent_inStep (inStep.startDeleting (fun factId member => ?_)
        fun fact => ?_)
      · obtain ⟨fact, expired, sameId⟩ := List.mem_map.mp member
        obtain ⟨active, own, _⟩ := (world.facts.mem_expired _ _ fact).mp expired
        exact ⟨fact, active, sameId, own⟩
      · simp only [MockFactStore.deleteFactsOlderThan, Bool.false_eq_true, if_false,
          MockFactStore.active_markDeleted]

theorem applyRetention_inStep (input : ApplyRetentionInput) (inStep : InStep world) :
    Succeeds (worldSpec platform mockStores) (applyRetention engine input)
      (fun _ final => InStep final) world := by
  simp only [applyRetention, succeeds_bind, succeeds_check]
  intro _ _
  split
  · simpa only [succeeds_pure] using inStep
  · simp only [succeeds_bind]
    refine (expireFacts_inStep input inStep).mono worldSpec_monotone fun expired after later => ?_
    have quiet : (expireEvents engine input).Within (QuietCall input.tenant) := by
      unfold expireEvents
      split
      · exact within_step trivial fun _ => within_step rfl fun _ => .pure _
      · exact .pure _
    refine succeeds_quiet quiet fun events final same => ?_
    split
    · simp only [succeeds_bind, succeeds_pure]
      exact invalidateUserContextCache_inStep engine (later.ofSame same)
    · simpa only [succeeds_pure] using later.ofSame same

/-- Wiping the two stores of a tenant one after the other. -/
theorem wipe_succeeds {α : Type} (rest : EngineProgram α) {good : α → World → Prop}
    (enough : Succeeds (worldSpec platform mockStores) rest good { world with
      facts := (world.facts.deleteUserData tenant).2
      vectors := (MockVectorStore.deleteByUser world.vectors tenant).2 }) :
    Succeeds (worldSpec platform mockStores)
      (do deleteUserData tenant; deleteByUser tenant; rest) good world := by
  simp only [succeeds_bind]
  refine succeeds_facts (.deleteUserData tenant) fun _ _ => ?_
  exact succeeds_vectors (.deleteByUser tenant) fun _ _ => enough

theorem forgetUser_inStep (input : ForgetUserInput) (inStep : InStep world) :
    Succeeds (worldSpec platform mockStores) (forgetUser engine input)
      (fun _ final => InStep final) world := by
  refine (succeeds_bind _ _ _ _ _).mpr ((succeeds_check _ _ _ _).mpr fun _ _ => ?_)
  refine wipe_succeeds _ ?_
  simp only [succeeds_bind, succeeds_pure]
  refine succeeds_quiet (recordEventBestEffort_within engine
    (memoryEventNew_within engine _ _ _ _ _)) fun _ after same => ?_
  exact invalidateUserContextCache_inStep engine ((inStep.wipe input.tenant).ofSame same)

theorem importFact_inStep (input : ImportUserDataInput) (exported : Fact)
    (inStep : InStep world) :
    Succeeds (worldSpec platform mockStores) (importFact input exported)
      (fun _ final => InStep final) world := by
  have quiet (idExists : Bool) : (resolveImportFactId exported.id idExists input.mode).Within
      (QuietCall input.tenant) := by
    unfold resolveImportFactId
    split
    · exact within_perform trivial
    · exact .pure _
  simp only [importFact, storeImported, succeeds_bind, succeeds_check]
  refine succeeds_facts (.getFact input.tenant exported.id) fun (existing : Option Fact) _ => ?_
  simp only [MockFactStore.serve, MockFactStore.getFact_snd]
  refine succeeds_quiet (quiet existing.isSome) fun factId after same fact created => ?_
  obtain ⟨sameFact, _⟩ := (Fact.new_ok _ _).mp created
  have own : fact.tenant = input.tenant := sameFact ▸ rfl
  refine succeeds_facts (.insertFact input.tenant fact) fun (inserted : Fact) served => ?_
  obtain ⟨_, _, absent, stored⟩ := after.facts.insertFact_ok input.tenant fact inserted served
  simp only [MockFactStore.serve, stored]
  obtain ⟨pending, active, noRecord⟩ := (inStep.ofSame same).insert absent
  refine succeeds_provider (.embedText fact.content) fun embedding => ?_
  exact (succeeds_bind _ _ _ _ _).mp
    (storeRecord_inStep embedding pending active own noRecord)

theorem importFacts_inStep (input : ImportUserDataInput) (exported : List Fact)
    (inStep : InStep world) :
    Succeeds (worldSpec platform mockStores) (importFacts input exported)
      (fun _ final => InStep final) world := by
  induction exported generalizing world with
  | nil => simpa only [importFacts, succeeds_pure] using inStep
  | cons fact rest inductionHypothesis =>
    simp only [importFacts, succeeds_bind, succeeds_pure]
    exact (importFact_inStep input fact inStep).mono worldSpec_monotone
      fun _ _ restored => inductionHypothesis restored

theorem replaceExisting_inStep (input : ImportUserDataInput) (inStep : InStep world) :
    Succeeds (worldSpec platform mockStores) (replaceExisting engine input)
      (fun _ final => InStep final) world := by
  unfold replaceExisting
  split
  · refine wipe_succeeds _ ?_
    simp only [succeeds_bind, succeeds_pure]
    exact succeeds_quiet (recordEventBestEffort_within engine
      (memoryEventNew_within engine _ _ _ _ _)) fun _ _ same =>
        (inStep.wipe input.tenant).ofSame same
  · simpa only [succeeds_pure] using inStep

theorem restoreEventsFrom_quiet (input : ImportUserDataInput) (exported : List MemoryEvent) :
    (restoreEventsFrom input exported).Within (QuietCall input.tenant) := by
  induction exported with
  | nil => exact .pure _
  | cons event rest inductionHypothesis =>
    exact .bind (within_step trivial fun _ => .pure _) fun _ => within_step rfl fun _ =>
      .bind inductionHypothesis fun _ => .pure _

theorem importUserData_inStep (input : ImportUserDataInput) (inStep : InStep world) :
    Succeeds (worldSpec platform mockStores) (importUserData engine input)
      (fun _ final => InStep final) world := by
  have quiet : (restoreEvents engine input).Within (QuietCall input.tenant) := by
    unfold restoreEvents
    split
    · exact restoreEventsFrom_quiet input _
    · exact .pure _
  simp only [importUserData, succeeds_bind, succeeds_check]
  intro _ _
  split
  · simpa only [succeeds_pure] using inStep
  · split
    · simp only [succeeds_fail]
    · simp only [importValidated, succeeds_bind, succeeds_pure]
      refine (replaceExisting_inStep engine input inStep).mono worldSpec_monotone
        fun _ _ replaced => ?_
      refine (importFacts_inStep input _ replaced).mono worldSpec_monotone
        fun _ _ imported => ?_
      exact succeeds_quiet quiet fun _ _ same =>
        invalidateUserContextCache_inStep engine (imported.ofSame same)

/-- Every operation that returns leaves the stores in step. -/
theorem operation_inStep (operation : EngineOperation) (inStep : InStep world) :
    Succeeds (worldSpec platform mockStores) (operation.program engine)
      (fun _ final => InStep final) world := by
  by_cases mutates : operation.Mutates
  · cases operation <;> simp only [EngineOperation.program, succeeds_bind, succeeds_pure]
    case addMemory input =>
      exact addMemory_inStep engine input inStep
    case deleteMemory input =>
      exact deleteMemory_inStep engine input inStep
    case applyRetention input =>
      exact applyRetention_inStep engine input inStep
    case forgetUser input =>
      exact forgetUser_inStep engine input inStep
    case importUserData input =>
      exact importUserData_inStep engine input inStep
    all_goals exact mutates.elim
  · have reads := EngineOperation.program_reader engine mutates
    refine (succeeds_iff _ _ _ _).mpr (Ensures.mono worldSpec_monotone
      (reads.ensures InStep (fun before call choice later isReader _ _ => ?_) inStep)
      fun outcome final later => ?_)
    · obtain ⟨facts, vectors⟩ := @ReaderCall.serve_stores platform _ _ isReader choice before
      show InStepOutside _ _ _
      rw [show ((engineServer platform).serve choice call before).2.facts = before.facts
        from facts, show ((engineServer platform).serve choice call before).2.vectors =
          before.vectors from vectors]
      exact later
    · cases outcome with
      | ok value => exact later
      | error error => trivial

end Programs

/-- After operations that all returned, every active fact has exactly one record,
of its tenant and with its current statement, and every record belongs to an active
fact of its tenant. -/
theorem stores_in_step (engine : MemoryEngine) (world : World)
    (history : History engine mockStores returning world) :
    (∀ fact, world.facts.Active fact → ∃ record ∈ world.vectors.rows,
      Carries record fact ∧
        ∀ other ∈ world.vectors.rows, other.factId = fact.id → other = record) ∧
    ∀ record ∈ world.vectors.rows, ∃ fact, world.facts.Active fact ∧
      fact.id = record.factId ∧ fact.tenant = record.tenant := by
  have inStep : InStep world := by
    refine history.invariant InStep (fun maxEntries => ?_) fun operation before inStep => ?_
    · exact inStep_empty maxEntries
    · refine Ensures.mono worldSpec_monotone
        ((succeeds_iff _ _ _ _).mp (operation_inStep engine operation inStep))
        fun outcome final later accepted => ?_
      cases outcome with
      | ok value => exact later
      | error error => simp [returning, Except.isOk, Except.toBool] at accepted
  constructor
  · intro fact active
    obtain ⟨record, stored, carries⟩ := inStep.recorded fact active id
    refine ⟨record, stored, carries, fun other otherStored sameFact => ?_⟩
    exact inStep.single other otherStored record stored id (sameFact.trans carries.factId.symm)
  · intro record stored
    exact inStep.owned record stored id

theorem stores_in_step_sample : ∃ world,
    History (.new .sample) mockStores returning world ∧ world.facts.activeFacts.length = 1 ∧
    (∀ fact, world.facts.Active fact → ∃ record ∈ world.vectors.rows,
      Carries record fact ∧
        ∀ other ∈ world.vectors.rows, other.factId = fact.id → other = record) ∧
    ∀ record ∈ world.vectors.rows, ∃ fact, world.facts.Active fact ∧
      fact.id = record.factId ∧ fact.tenant = record.tenant := by
  obtain ⟨world, history, one⟩ := @exists_history_of_replay (.new .sample) mockStores _
    returning _ 1000 [(sampleAdd, sampleAddChoices 1 [1])]
    (fun world => decide (world.facts.activeFacts.length = 1)) (by decide +kernel)
  exact ⟨world, history, of_decide_eq_true one, stores_in_step _ world history⟩

end Memcore
