import Memcore.Guarantees.MutationStages

/-!
# When a mutating operation writes to the stores

An operation that adds, deletes or forgets memories writes to the fact store and to the vector
store, then purges the tenant's cached contexts, and writes no more. If it returns, it has
either purged them or written nothing. Only the purge at its end touches the cache.
-/
namespace Memcore

open Ports Programs

/-- Calls that look at facts or vectors. -/
def readsStores : Port → Bool
  | .facts (.getFact _ _) | .facts (.searchFacts _) | .vectors (.searchVectors _) => true
  | _ => false

/-- All other calls of the two stores. -/
def writesStores : Port → Bool
  | .facts call => !readsStores (.facts call)
  | .vectors call => !readsStores (.vectors call)
  | _ => false

/-- A write that has succeeded. -/
def changesStores : EngineEvent → Bool
  | ⟨port, .ok _⟩ => writesStores port
  | ⟨_, .error _⟩ => false

/-- The stage of an operation after one more answer. A failed purge is not accounted for. -/
def writtenAfter (status : Status) : EngineEvent → Status
  | ⟨.cache (.invalidateUser _ _), .ok _⟩ => .purged
  | ⟨.cache (.invalidateUser _ _), .error _⟩ => .unreal
  | event => if changesStores event then .touched else status

/-- The cache is touched only to purge it of the tenant's contexts. -/
def PurgesOnly (tenant : TenantContext) : Port → Prop
  | .cache (.invalidateUser orgId userId) => (⟨orgId, userId⟩ : TenantContext) = tenant
  | .cache _ => False
  | _ => True

/-- No write after the purge. -/
def writeProtocol (tenant : TenantContext) : Protocol enginePorts MemcoreError Status where
  allows status port := PurgesOnly tenant port ∧ (writesStores port = true → status ≠ .purged)
  next status port answer := writtenAfter status ⟨port, answer⟩

/-- Before the purge. -/
def Status.Unpurged (status : Status) : Prop := status = .untouched ∨ status = .touched

/-- The operations that change what a tenant remembers. -/
def EngineOperation.ChangesMemories : EngineOperation → Prop
  | addMemory _ | deleteMemory _ | forgetUser _ => True
  | _ => False

section Rules

variable {tenant : TenantContext} {status : Status} {α β : Type}

theorem Status.Unpurged.ne_purged (unpurged : status.Unpurged) : status ≠ .purged := by
  rintro rfl
  rcases unpurged with same | same <;> contradiction

theorem writtenAfter_eq {port : Port} (notCache : ∀ call, port ≠ .cache call) (status : Status)
    (answer : MemcoreResult port.Answer) : writtenAfter status ⟨port, answer⟩ =
      if changesStores ⟨port, answer⟩ then .touched else status := by
  cases port with
  | cache call => exact absurd rfl (notCache call)
  | _ => cases answer <;> rfl

theorem writtenAfter_unpurged {port : Port} (notCache : ∀ call, port ≠ .cache call)
    (unpurged : status.Unpurged) (answer : MemcoreResult port.Answer) :
    (writtenAfter status ⟨port, answer⟩).Unpurged := by
  rw [writtenAfter_eq notCache]
  split
  · exact .inr rfl
  · exact unpurged

theorem allows_unpurged {port : Port} (notCache : ∀ call, port ≠ .cache call)
    (unpurged : status.Unpurged) : (writeProtocol tenant).allows status port := by
  refine ⟨?_, fun _ => unpurged.ne_purged⟩
  cases port with
  | cache call => exact absurd rfl (notCache call)
  | _ => trivial

theorem succeeds_done {value : α} {good : α → Status → Prop} (holds : good value status) :
    Succeeds (writeProtocol tenant).spec (pure value) good status :=
  (succeeds_pure _ _ _ _).mpr holds

theorem ensures_asked {port : Port} {post : MemcoreResult port.Answer → Status → Prop}
    (allowed : (writeProtocol tenant).allows status port)
    (answered : ∀ answer, post answer (writtenAfter status ⟨port, answer⟩)) :
    Ensures (writeProtocol tenant).spec (perform port) post status :=
  (@ensures_call enginePorts MemcoreError _ (writeProtocol tenant).spec status port post).mpr
    ⟨allowed, answered⟩

/-- A call before the purge, and what follows it. -/
theorem succeeds_before {port : Port} {next : port.Answer → EngineProgram β}
    {good : β → Status → Prop} (notCache : ∀ call, port ≠ .cache call)
    (unpurged : status.Unpurged) (returns : ∀ answer later, later.Unpurged →
      Succeeds (writeProtocol tenant).spec (next answer) good later) :
    Succeeds (writeProtocol tenant).spec (perform port >>= next) good status :=
  (writeProtocol tenant).succeeds_call port (allows_unpurged notCache unpurged) fun answer =>
    returns answer _ (writtenAfter_unpurged notCache unpurged _)

theorem QuietCall.notCache {port : Port} (isQuiet : QuietCall tenant port) :
    ∀ call, port ≠ .cache call := by
  rintro call rfl
  exact isQuiet

theorem QuietCall.writesNothing {port : Port} (isQuiet : QuietCall tenant port) :
    writesStores port = false := by
  cases port with
  | facts call => cases call <;> first | rfl | exact isQuiet.elim
  | vectors call => cases call <;> first | rfl | exact isQuiet.elim
  | _ => rfl

/-- A quiet call is allowed at every stage and does not end it. -/
theorem QuietCall.allowed {port : Port} (isQuiet : QuietCall tenant port) (status : Status) :
    (writeProtocol tenant).allows status port := by
  refine ⟨?_, fun writes => absurd (isQuiet.writesNothing.symm.trans writes) (by simp)⟩
  cases port with
  | cache call => exact absurd rfl (isQuiet.notCache call)
  | _ => trivial

theorem QuietCall.still {port : Port} (isQuiet : QuietCall tenant port) (status : Status)
    (answer : MemcoreResult port.Answer) :
    (writeProtocol tenant).next status port answer = status := by
  have unchanged : changesStores ⟨port, answer⟩ = false := by
    cases answer with
    | ok value => exact isQuiet.writesNothing
    | error error => rfl
  show writtenAfter status ⟨port, answer⟩ = status
  rw [writtenAfter_eq isQuiet.notCache, unchanged]
  rfl

/-- A part that touches neither stores nor cache, and what follows it. -/
theorem succeeds_aside {program : EngineProgram α} {next : α → EngineProgram β}
    {good : β → Status → Prop} (isQuiet : program.Within (QuietCall tenant))
    (returns : ∀ value, Succeeds (writeProtocol tenant).spec (next value) good status) :
    Succeeds (writeProtocol tenant).spec (program >>= next) good status := by
  have stays : Succeeds (writeProtocol tenant).spec program (fun _ later => later = status)
      status := by
    have still := isQuiet.stays (writeProtocol tenant) (fun _ own => own.allowed status)
      fun _ answer own => own.still status answer
    apply (succeeds_iff _ _ _ _).mpr
    refine Ensures.mono (writeProtocol tenant).spec_monotone still fun outcome later same => ?_
    cases outcome with
    | ok value => exact same
    | error error => trivial
  apply stays.bind (writeProtocol tenant).spec_monotone
  rintro value later rfl
  exact returns value

end Rules

/-! ## Parts before the purge -/

section Parts

variable {tenant : TenantContext} {status : Status}

theorem requireFact_quiet (factId : Uuid) :
    (requireFact tenant factId).Within (QuietCall tenant) := by
  refine within_step rfl fun found => ?_
  cases found with
  | none => exact .fail _
  | some fact => exact .pure _

theorem deleteVectorIfPresent_unpurged (factId : Uuid) (unpurged : status.Unpurged) :
    Succeeds (writeProtocol tenant).spec (deleteVectorIfPresent tenant factId)
      (fun _ later => later.Unpurged) status := by
  apply (writeProtocol tenant).succeeds_attempt (.vectors (.deleteByFactId tenant factId))
    (allows_unpurged (by simp) unpurged)
  intro answer
  have later : (writtenAfter status ⟨.vectors (.deleteByFactId tenant factId), answer⟩).Unpurged :=
    @writtenAfter_unpurged _ (.vectors (.deleteByFactId tenant factId)) (by simp) unpurged answer
  cases answer with
  | ok value => exact succeeds_done later
  | error error =>
    dsimp only
    split
    · exact succeeds_done later
    · exact (succeeds_fail _ _ _ _).mpr trivial

theorem upsertFactVector_unpurged (fact : Fact) (precomputedEmbedding : Option (List ℚ))
    (unpurged : status.Unpurged) :
    Succeeds (writeProtocol tenant).spec (upsertFactVector tenant fact precomputedEmbedding)
      (fun _ later => later.Unpurged) status := by
  have embedded : (factEmbedding fact precomputedEmbedding).Within (QuietCall tenant) := by
    cases precomputedEmbedding with
    | none => exact within_perform trivial
    | some embedding => exact .pure _
  refine succeeds_aside embedded fun embedding => ?_
  refine succeeds_aside (within_step trivial fun _ => .pure _) fun record => ?_
  apply (succeeds_iff _ _ _ _).mpr
  refine ensures_asked (allows_unpurged (by simp) unpurged) fun answer => ?_
  have later := @writtenAfter_unpurged _ (.vectors (.upsertVector tenant record)) (by simp)
    unpurged answer
  cases answer with
  | ok value => exact later
  | error error => trivial

/-- A decision that is applied may write; one that asks for nothing does not. -/
def Applied (status : Status) (result : LifecycleApplyResult) (later : Status) : Prop :=
  later.Unpurged ∧ (result = .noOp → later = status)

theorem applyAdd_applied (candidate : CandidateFact) (precomputedEmbedding : Option (List ℚ))
    (unpurged : status.Unpurged) :
    Succeeds (writeProtocol tenant).spec (applyAdd tenant candidate precomputedEmbedding)
      (Applied status) status := by
  refine succeeds_aside (within_step trivial fun _ => within_step trivial fun _ => .check _)
    fun fact => ?_
  refine succeeds_before (by simp) unpurged fun inserted later unpurged => ?_
  apply (upsertFactVector_unpurged inserted precomputedEmbedding unpurged).bind
    (writeProtocol tenant).spec_monotone
  intro _ last unpurged
  exact succeeds_done ⟨unpurged, fun nothing => nomatch nothing⟩

theorem applyUpdate_applied (candidate : CandidateFact) (targetFactId : Uuid)
    (unpurged : status.Unpurged) :
    Succeeds (writeProtocol tenant).spec (applyUpdate tenant candidate targetFactId)
      (Applied status) status := by
  refine succeeds_aside (requireFact_quiet targetFactId) fun existing => ?_
  refine succeeds_aside (within_step trivial fun _ => .check _) fun updated => ?_
  refine succeeds_before (by simp) unpurged fun stored later unpurged => ?_
  have replaced : Succeeds (writeProtocol tenant).spec (replaceFactVector tenant stored)
      (fun _ last => last.Unpurged) later :=
    (deleteVectorIfPresent_unpurged stored.id unpurged).bind (writeProtocol tenant).spec_monotone
      fun _ _ unpurged => upsertFactVector_unpurged stored none unpurged
  apply replaced.bind (writeProtocol tenant).spec_monotone
  intro _ last unpurged
  exact succeeds_done ⟨unpurged, fun nothing => nomatch nothing⟩

theorem applyDelete_applied (targetFactId : Uuid) (unpurged : status.Unpurged) :
    Succeeds (writeProtocol tenant).spec (applyDelete tenant targetFactId) (Applied status)
      status := by
  refine succeeds_aside (requireFact_quiet targetFactId) fun existing => ?_
  refine succeeds_before (by simp) unpurged fun _ later unpurged => ?_
  apply (deleteVectorIfPresent_unpurged targetFactId unpurged).bind
    (writeProtocol tenant).spec_monotone
  intro _ last unpurged
  exact succeeds_done ⟨unpurged, fun nothing => nomatch nothing⟩

theorem applyFactOperation_applied (candidate : CandidateFact) (decision : FactOperationDecision)
    (precomputedEmbedding : Option (List ℚ)) (unpurged : status.Unpurged) :
    Succeeds (writeProtocol tenant).spec
      (applyFactOperation tenant candidate decision precomputedEmbedding) (Applied status)
      status := by
  refine succeeds_aside (.check _) fun operation => ?_
  cases operation with
  | add => exact applyAdd_applied candidate precomputedEmbedding unpurged
  | update targetFactId => exact applyUpdate_applied candidate targetFactId unpurged
  | delete targetFactId => exact applyDelete_applied targetFactId unpurged
  | noOp => exact succeeds_done ⟨unpurged, fun _ => rfl⟩

end Parts

/-! ## Whole operations -/

section Operations

variable (engine : MemoryEngine) {status : Status}

def AddMemoryOutput.changes (output : AddMemoryOutput) : ℕ :=
  output.added + output.updated + output.deleted

/-- An output without changes is that of a loop without writes. -/
def Reported (output : AddMemoryOutput) (status : Status) : Prop :=
  status.Unpurged ∧ (output.changes = 0 → status = .untouched)

theorem skipDuplicate_reported (tenant : TenantContext) {output : AddMemoryOutput}
    (existingFactId : Uuid) (reason : String) (reported : Reported output status) :
    Succeeds (writeProtocol tenant).spec
      (skipDuplicate engine tenant output existingFactId reason) Reported status :=
  succeeds_aside (recordEventBestEffort_within engine (memoryEventNew_within engine _ _ _ _ _))
    fun _ => succeeds_done reported

theorem countResult_reported (input : AddMemoryInput) {output : AddMemoryOutput}
    (decision : FactOperationDecision) {result : LifecycleApplyResult} {before : Status}
    (reported : Reported output before) (applied : Applied before result status) :
    Succeeds (writeProtocol input.tenant).spec (countResult engine input output decision result)
      Reported status := by
  cases result with
  | noOp =>
    obtain rfl := applied.2 rfl
    exact succeeds_aside (recordEventBestEffort_within engine
      (memoryEventNew_within engine _ _ _ _ _)) fun _ => succeeds_done reported
  | added fact =>
    refine succeeds_aside (recordEventBestEffort_within engine
      (memoryEventNew_within engine _ _ _ _ _)) fun _ => succeeds_done ⟨applied.1, fun none => ?_⟩
    simp only [AddMemoryOutput.changes] at none
    omega
  | updated previous updated =>
    refine succeeds_aside (recordEventBestEffort_within engine
      (memoryEventNew_within engine _ _ _ _ _)) fun _ => succeeds_done ⟨applied.1, fun none => ?_⟩
    simp only [AddMemoryOutput.changes] at none
    omega
  | deleted fact =>
    refine succeeds_aside (recordEventBestEffort_within engine
      (memoryEventNew_within engine _ _ _ _ _)) fun _ => succeeds_done ⟨applied.1, fun none => ?_⟩
    simp only [AddMemoryOutput.changes] at none
    omega

theorem embedAndApply_reported (input : AddMemoryInput) {output : AddMemoryOutput}
    (candidate : CandidateFact) (reported : Reported output status) :
    Succeeds (writeProtocol input.tenant).spec (embedAndApply engine input output candidate)
      Reported status := by
  refine succeeds_aside (within_perform trivial) fun embedding => ?_
  refine succeeds_aside (detectEmbeddingDuplicate_within _ _ _) fun duplicate => ?_
  split
  · exact skipDuplicate_reported engine input.tenant _ _ reported
  · refine succeeds_aside (within_perform rfl) fun related => ?_
    refine succeeds_aside (within_perform trivial) fun decision => ?_
    apply (applyFactOperation_applied candidate decision _ reported.1).bind
      (writeProtocol input.tenant).spec_monotone
    intro result later applied
    exact countResult_reported engine input decision reported applied

theorem addCandidate_reported (input : AddMemoryInput) {output : AddMemoryOutput}
    (extracted : CandidateFact) (reported : Reported output status) :
    Succeeds (writeProtocol input.tenant).spec (addCandidate engine input output extracted)
      Reported status := by
  refine succeeds_aside (.check _) fun _ => ?_
  dsimp only
  split
  · exact succeeds_done reported
  · refine succeeds_aside (within_perform rfl) fun existing => ?_
    split
    · exact skipDuplicate_reported engine input.tenant _ _ reported
    · exact embedAndApply_reported engine input _ reported

/-- Induction on the candidates: each one adds to what has been reported. -/
theorem addCandidates_reported (input : AddMemoryInput) (candidates : List CandidateFact)
    {output : AddMemoryOutput} (reported : Reported output status) :
    Succeeds (writeProtocol input.tenant).spec (addCandidates engine input output candidates)
      Reported status := by
  induction candidates generalizing output status with
  | nil => exact succeeds_done reported
  | cons candidate candidates inductionHypothesis =>
    apply (addCandidate_reported engine input candidate reported).bind
      (writeProtocol input.tenant).spec_monotone
    intro output later reported
    exact inductionHypothesis reported

/-- What an operation has done when it returns. -/
def settled {α : Type} (_ : α) (status : Status) : Prop := status ≠ .touched

theorem invalidateUserContextCache_settled {α : Type} {tenant : TenantContext}
    (enabled : engine.contextCacheConfig.enabled = true) (value : α) (unpurged : status.Unpurged) :
    Succeeds (writeProtocol tenant).spec
      (do invalidateUserContextCache engine tenant; return value) settled status := by
  simp only [invalidateUserContextCache, enabled, if_true, succeeds_bind, succeeds_attempt]
  refine ensures_asked ⟨rfl, fun _ => unpurged.ne_purged⟩ fun answer => ?_
  apply succeeds_done
  apply succeeds_done
  cases answer with
  | ok count => rintro ⟨⟩
  | error error => rintro ⟨⟩

variable (enabled : engine.contextCacheConfig.enabled = true)
include enabled

theorem addMemory_settled (input : AddMemoryInput) :
    Succeeds (writeProtocol input.tenant).spec (addMemory engine input) settled .untouched := by
  refine succeeds_aside (.check _) fun _ => succeeds_aside (.check _) fun _ => ?_
  refine succeeds_aside (bindUsageAttribution_within engine ⟨rfl, rfl⟩) fun _ => ?_
  refine succeeds_aside (within_perform trivial) fun candidates => ?_
  apply (addCandidates_reported engine input candidates ⟨.inl rfl, fun _ => rfl⟩).bind
    (writeProtocol input.tenant).spec_monotone
  intro output later reported
  split
  · exact invalidateUserContextCache_settled engine enabled output reported.1
  · rename_i unchanged
    have untouched : later = .untouched := reported.2 (Nat.eq_zero_of_not_pos unchanged)
    apply succeeds_done
    rintro rfl
    contradiction

theorem deleteMemory_settled (input : DeleteMemoryInput) :
    Succeeds (writeProtocol input.tenant).spec (deleteMemory engine input) settled .untouched := by
  refine succeeds_aside (.check _) fun _ => ?_
  refine succeeds_aside (requireFact_quiet input.memoryId) fun fact => ?_
  refine succeeds_before (by simp) (.inl rfl) fun _ later unpurged => ?_
  refine succeeds_before (by simp) unpurged fun _ later unpurged => ?_
  refine succeeds_aside (recordEventBestEffort_within engine
    (memoryEventNew_within engine _ _ _ _ _)) fun _ => ?_
  exact invalidateUserContextCache_settled engine enabled _ unpurged

theorem forgetUser_settled (input : ForgetUserInput) :
    Succeeds (writeProtocol input.tenant).spec (forgetUser engine input) settled .untouched := by
  refine succeeds_aside (.check _) fun _ => ?_
  refine succeeds_before (by simp) (.inl rfl) fun _ later unpurged => ?_
  refine succeeds_before (by simp) unpurged fun _ later unpurged => ?_
  refine succeeds_aside (recordEventBestEffort_within engine
    (memoryEventNew_within engine _ _ _ _ _)) fun _ => ?_
  exact invalidateUserContextCache_settled engine enabled _ unpurged

/-- An operation that returns has written nothing, or purged the tenant's contexts and written
nothing since. -/
theorem operation_settled {operation : EngineOperation} (changes : operation.ChangesMemories) :
    Succeeds (writeProtocol operation.tenant).spec (operation.program engine) settled
      .untouched := by
  have monotone (tenant : TenantContext) := (writeProtocol tenant).spec_monotone
  cases operation with
  | addMemory input =>
    exact (addMemory_settled engine enabled input).bind (monotone _)
      fun _ _ holds => succeeds_done holds
  | deleteMemory input =>
    exact (deleteMemory_settled engine enabled input).bind (monotone _)
      fun _ _ holds => succeeds_done holds
  | forgetUser input =>
    exact (forgetUser_settled engine enabled input).bind (monotone _)
      fun _ _ holds => succeeds_done holds
  | _ => exact changes.elim

end Operations

end Memcore
