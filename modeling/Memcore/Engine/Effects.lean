import Memcore.Engine.Footprints

/-!
# What the calls of the engine do to the world

One rule for each kind of call says what has to be shown after it: the case of a
fault, where the choice admits one, and the case of the store's own answer. A
program is then verified call by call, without the server in sight.
-/
namespace Memcore

open KeyedTables Ports Programs

variable {platform : Platform} {admits : World → Port → Choice → Prop} {world : World}

/-- The specification of the engine's calls. -/
abbrev worldSpec (platform : Platform) (admits : World → Port → Choice → Prop) :
    Spec enginePorts MemcoreError World :=
  (engineServer platform).spec admits

theorem worldSpec_monotone : (worldSpec platform admits).Monotone :=
  (engineServer platform).spec_monotone admits

theorem ensures_perform (port : Port) (post : MemcoreResult port.Answer → World → Prop) :
    Ensures (worldSpec platform admits) (perform port) post world ↔
      ∀ choice, World.ready choice port world = true → admits world port choice →
        post (World.serve platform choice port world).1
          (World.serve platform choice port world).2 :=
  @ensures_call enginePorts MemcoreError World (worldSpec platform admits) world port post

theorem ensures_facts (call : FactStoreCall)
    {post : MemcoreResult call.Answer → World → Prop}
    (failing : ∀ choice error, admits world (.facts call) choice → choice.fault = some error →
      post (.error error) world)
    (serving : post (world.facts.serve call).1
      { world with facts := (world.facts.serve call).2 }) :
    Ensures (worldSpec platform admits) (perform (.facts call)) post world := by
  refine (ensures_perform (.facts call) post).mpr fun choice _ admitted => ?_
  cases fault : choice.fault with
  | some error =>
    simpa only [World.serve, World.unlessFault, fault] using failing choice error admitted fault
  | none => simpa only [World.serve, World.unlessFault, fault] using serving

theorem ensures_vectors (call : VectorStoreCall)
    {post : MemcoreResult call.Answer → World → Prop}
    (failing : ∀ choice error, admits world (.vectors call) choice →
      choice.fault = some error → post (.error error) world)
    (serving : post (MockVectorStore.serve platform.cosineSimilarity world.vectors call).1
      { world with
        vectors := (MockVectorStore.serve platform.cosineSimilarity world.vectors call).2 }) :
    Ensures (worldSpec platform admits) (perform (.vectors call)) post world := by
  refine (ensures_perform (.vectors call) post).mpr fun choice _ admitted => ?_
  cases fault : choice.fault with
  | some error =>
    simpa only [World.serve, World.unlessFault, fault] using failing choice error admitted fault
  | none => simpa only [World.serve, World.unlessFault, fault] using serving

theorem ensures_events (call : EventStoreCall)
    {post : MemcoreResult call.Answer → World → Prop}
    (failing : ∀ choice error, admits world (.events call) choice →
      choice.fault = some error → post (.error error) world)
    (serving : post (MockMemoryEventStore.serve world.events call).1
      { world with events := (MockMemoryEventStore.serve world.events call).2 }) :
    Ensures (worldSpec platform admits) (perform (.events call)) post world := by
  refine (ensures_perform (.events call) post).mpr fun choice _ admitted => ?_
  cases fault : choice.fault with
  | some error =>
    simpa only [World.serve, World.unlessFault, fault] using failing choice error admitted fault
  | none => simpa only [World.serve, World.unlessFault, fault] using serving

theorem ensures_provider (call : ProviderCall)
    {post : MemcoreResult call.Answer → World → Prop}
    (failing : ∀ choice error, admits world (.provider call) choice →
      choice.fault = some error → post (.error error) world)
    (serving : ∀ choice, post (World.serveProvider choice call) world) :
    Ensures (worldSpec platform admits) (perform (.provider call)) post world := by
  refine (ensures_perform (.provider call) post).mpr fun choice _ admitted => ?_
  cases fault : choice.fault with
  | some error =>
    simpa only [World.serve, World.unlessFault, fault] using failing choice error admitted fault
  | none => simpa only [World.serve, World.unlessFault, fault] using serving choice

theorem ensures_now {post : MemcoreResult Instant → World → Prop}
    (serving : ∀ instant, post (.ok instant) world) :
    Ensures (worldSpec platform admits) now post world :=
  (ensures_perform (.system .now) post).mpr fun choice _ _ => serving choice.now

/-- A generated identifier may be assumed to be one that the choice admits. -/
theorem ensures_newUuid {post : MemcoreResult Uuid → World → Prop}
    (serving : ∀ choice, admits world (.system .newUuid) choice →
      post (.ok choice.uuid) world) :
    Ensures (worldSpec platform admits) newUuid post world :=
  (ensures_perform (.system .newUuid) post).mpr fun choice _ admitted =>
    serving choice admitted

/-! ## Rules for successful runs -/

theorem succeeds_facts (call : FactStoreCall) {good : call.Answer → World → Prop}
    (enough : ∀ answer, (world.facts.serve call).1 = .ok answer →
      good answer { world with facts := (world.facts.serve call).2 }) :
    Succeeds (worldSpec platform admits) (perform (.facts call)) good world := by
  refine (succeeds_iff _ _ _ _).mpr (ensures_facts call (fun _ _ _ _ => trivial) ?_)
  cases served : (world.facts.serve call).1 with
  | ok answer => exact enough answer served
  | error error => trivial

theorem succeeds_vectors (call : VectorStoreCall) {good : call.Answer → World → Prop}
    (enough : ∀ answer,
      (MockVectorStore.serve platform.cosineSimilarity world.vectors call).1 = .ok answer →
      good answer { world with
        vectors := (MockVectorStore.serve platform.cosineSimilarity world.vectors call).2 }) :
    Succeeds (worldSpec platform admits) (perform (.vectors call)) good world := by
  refine (succeeds_iff _ _ _ _).mpr (ensures_vectors call (fun _ _ _ _ => trivial) ?_)
  cases served : (MockVectorStore.serve platform.cosineSimilarity world.vectors call).1 with
  | ok answer => exact enough answer served
  | error error => trivial

theorem succeeds_provider (call : ProviderCall) {good : call.Answer → World → Prop}
    (enough : ∀ answer, good answer world) :
    Succeeds (worldSpec platform admits) (perform (.provider call)) good world := by
  refine (succeeds_iff _ _ _ _).mpr
    (ensures_provider call (fun _ _ _ _ => trivial) fun choice => ?_)
  cases World.serveProvider choice call with
  | ok answer => exact enough answer
  | error error => trivial

theorem succeeds_now {good : Instant → World → Prop} (enough : ∀ instant, good instant world) :
    Succeeds (worldSpec platform admits) now good world :=
  (succeeds_iff _ _ _ _).mpr (ensures_now enough)

theorem succeeds_newUuid {good : Uuid → World → Prop}
    (enough : ∀ choice, admits world (.system .newUuid) choice → good choice.uuid world) :
    Succeeds (worldSpec platform admits) newUuid good world :=
  (succeeds_iff _ _ _ _).mpr (ensures_newUuid enough)

/-! ## Rules for runs whose failures leave a safe state -/

section Safety

variable {safe : World → Prop}

theorem secures_now {good : Instant → World → Prop} (enough : ∀ instant, good instant world) :
    Secures (worldSpec platform admits) now safe good world :=
  (secures_iff _ _ _ _ _).mpr (ensures_now enough)

theorem secures_newUuid {good : Uuid → World → Prop}
    (enough : ∀ choice, admits world (.system .newUuid) choice → good choice.uuid world) :
    Secures (worldSpec platform admits) newUuid safe good world :=
  (secures_iff _ _ _ _ _).mpr (ensures_newUuid enough)

/-- A provider may fail where the state is safe. -/
theorem secures_provider (call : ProviderCall) {good : call.Answer → World → Prop}
    (isSafe : safe world) (enough : ∀ answer, good answer world) :
    Secures (worldSpec platform admits) (perform (.provider call)) safe good world := by
  apply (secures_iff _ _ _ _ _).mpr
  apply ensures_provider call
  · exact fun _ _ _ _ => isSafe
  · intro choice
    cases World.serveProvider choice call with
    | ok answer => exact enough answer
    | error error => exact isSafe

/-- A call of the fact store may fail on its own, or be rejected by the store. -/
theorem secures_facts (call : FactStoreCall) {good : call.Answer → World → Prop}
    (failing : ∀ choice, admits world (.facts call) choice → choice.fault ≠ none → safe world)
    (rejected : ∀ error, (world.facts.serve call).1 = .error error →
      safe { world with facts := (world.facts.serve call).2 })
    (enough : ∀ answer, (world.facts.serve call).1 = .ok answer →
      good answer { world with facts := (world.facts.serve call).2 }) :
    Secures (worldSpec platform admits) (perform (.facts call)) safe good world := by
  apply (secures_iff _ _ _ _ _).mpr
  apply ensures_facts call
  · intro choice error admitted faulty
    exact failing choice admitted (by simp [faulty])
  · cases served : (world.facts.serve call).1 with
    | ok answer => exact enough answer served
    | error error => exact rejected error served

/-- A search for facts changes nothing. -/
theorem secures_searchFacts (query : FactSearchQuery) {good : List Fact → World → Prop}
    (isSafe : safe world)
    (enough : ∀ choice found, admits world (.facts (.searchFacts query)) choice →
      (world.facts.searchFacts query).1 = .ok found → good found world) :
    Secures (worldSpec platform admits) (searchFacts query) safe good world := by
  apply (secures_iff _ _ _ _ _).mpr
  apply (ensures_perform (.facts (.searchFacts query)) _).mpr
  intro choice _ admitted
  simp only [World.serve, World.unlessFault]
  cases choice.fault with
  | some error => exact isSafe
  | none =>
    cases served : (world.facts.searchFacts query).1 with
    | ok found =>
      simp only [MockFactStore.serve, served]
      exact enough choice found admitted served
    | error error =>
      simp only [MockFactStore.serve, served]
      exact isSafe

/-- The active fact that an operation is about, if there is one. -/
theorem secures_requireFact {tenant : TenantContext} (factId : Uuid)
    {good : Fact → World → Prop} (isSafe : safe world)
    (enough : ∀ fact, world.facts.Active fact → fact.tenant = tenant → fact.id = factId →
      good fact world) :
    Secures (worldSpec platform admits) (requireFact tenant factId) safe good world := by
  apply (secures_bind _ _ _ _ _ _).mpr
  apply secures_facts (.getFact tenant factId)
  · exact fun _ _ _ => isSafe
  · intro error served
    simpa only [MockFactStore.serve, MockFactStore.getFact_snd] using isSafe
  · intro found served
    simp only [MockFactStore.serve, MockFactStore.getFact_snd] at served ⊢
    cases found with
    | none => exact (secures_fail _ _ _ _ _).mpr isSafe
    | some fact =>
      obtain ⟨active, own, sameId⟩ := (world.facts.getFact_some tenant factId fact).mp served
      exact (secures_pure _ _ _ _ _).mpr (enough fact active own sameId)

/-- A candidate becomes a fact of the tenant, under an identifier that is admitted. -/
theorem secures_candidateToFact {tenant : TenantContext} (candidate : CandidateFact)
    {good : Fact → World → Prop} (isSafe : safe world)
    (enough : ∀ fact, fact.tenant = tenant → fact.content = candidate.content →
      fact.memoryType = candidate.memoryType → good fact world) :
    Secures (worldSpec platform admits) (candidateToFact tenant candidate) safe good world := by
  apply (secures_bind _ _ _ _ _ _).mpr
  apply secures_now
  intro createdAt
  apply (secures_bind _ _ _ _ _ _).mpr
  apply secures_newUuid
  intro choice _
  apply secures_check isSafe
  intro fact created
  obtain ⟨rfl, _⟩ := (Fact.new_ok _ _).mp created
  exact enough _ rfl rfl rfl

/-- A merged fact keeps the identity of the fact that it replaces. -/
theorem secures_mergeCandidateIntoFact (existing : Fact) (candidate : CandidateFact)
    {good : Fact → World → Prop} (isSafe : safe world)
    (enough : ∀ fact, fact.id = existing.id → fact.tenant = existing.tenant →
      fact.content = candidate.content → fact.memoryType = candidate.memoryType →
        good fact world) :
    Secures (worldSpec platform admits) (mergeCandidateIntoFact existing candidate) safe good
      world := by
  apply (secures_bind _ _ _ _ _ _).mpr
  apply secures_now
  intro updatedAt
  apply secures_check isSafe
  intro fact created
  obtain ⟨rfl, _⟩ := (Fact.new_ok _ _).mp created
  exact enough _ rfl rfl rfl rfl

end Safety

/-! ## The audit log -/

/-- The best effort to record an event of the tenant records it, if the event store does
not fail on its own. -/
theorem ensures_recorded (engine : MemoryEngine) (tenant : TenantContext)
    (factId : Option Uuid) (kind : MemoryEventOperation)
    (previousContent newContent : Option String) (metadata : Value)
    (unfailing : ∀ world call choice, admits world (.events call) choice → choice.fault = none)
    {post : MemcoreResult Unit → World → Prop}
    (enough : ∀ event : MemoryEvent, event.tenant = tenant → event.factId = factId →
      event.operation = kind → event.newContent = newContent → post (.ok ()) { world with
        events := if engine.eventStore then world.events ++ [event] else world.events }) :
    Ensures (worldSpec platform admits) (recordEventBestEffort engine tenant
      (MemoryEvent.new engine tenant factId kind previousContent newContent metadata)) post
      world := by
  simp only [recordEventBestEffort, MemoryEvent.new, ensures_bind]
  refine ensures_newUuid fun choice _ => ?_
  simp only [andThen_ok, ensures_bind]
  refine ensures_now fun createdAt => ?_
  simp only [andThen_ok, ensures_pure]
  have recorded := enough ⟨choice.uuid, tenant.orgId, tenant.userId, factId, kind, none,
    previousContent, newContent, engine.auditProviderName, engine.auditModelName, metadata,
    createdAt⟩ rfl rfl rfl rfl
  split
  · simp only [ensures_bind, ensures_attempt]
    apply ensures_events (.recordEvent tenant _)
    · intro fault error admitted faulty
      exact absurd ((unfailing _ _ fault admitted).symm.trans faulty) (by simp)
    · simp only [andThen_ok, ensures_pure, MockMemoryEventStore.serve]
      rw [MockMemoryEventStore.recordEvent_eq _ tenant _ rfl]
      rwa [if_pos ‹_›] at recorded
  · simp only [ensures_pure]
    rwa [if_neg ‹_›] at recorded

/-! ## Rules for runs without failures -/

/-- No call fails on its own. -/
def Spared (admits : World → Port → Choice → Prop) : Prop :=
  ∀ world port choice, admits world port choice → choice.fault = none

theorem spared_faultless : Spared faultless := fun _ _ _ spared => spared

theorem spared_undisturbed : Spared undisturbed := fun _ _ _ admitted => admitted.1

section Spared

variable (spared : Spared admits)

include spared

theorem ensures_facts_spared (call : FactStoreCall)
    {post : MemcoreResult call.Answer → World → Prop}
    (serving : post (world.facts.serve call).1
      { world with facts := (world.facts.serve call).2 }) :
    Ensures (worldSpec platform admits) (perform (.facts call)) post world :=
  ensures_facts call (fun choice error admitted faulty =>
    absurd ((spared _ _ choice admitted).symm.trans faulty) (by simp)) serving

theorem ensures_vectors_spared (call : VectorStoreCall)
    {post : MemcoreResult call.Answer → World → Prop}
    (serving : post (MockVectorStore.serve platform.cosineSimilarity world.vectors call).1
      { world with
        vectors := (MockVectorStore.serve platform.cosineSimilarity world.vectors call).2 }) :
    Ensures (worldSpec platform admits) (perform (.vectors call)) post world :=
  ensures_vectors call (fun choice error admitted faulty =>
    absurd ((spared _ _ choice admitted).symm.trans faulty) (by simp)) serving

theorem ensures_embedText_spared (text : String)
    {post : MemcoreResult (List ℚ) → World → Prop}
    (serving : ∀ embedding, post (.ok embedding) world) :
    Ensures (worldSpec platform admits) (embedText text) post world :=
  ensures_provider (.embedText text) (fun choice error admitted faulty =>
    absurd ((spared _ _ choice admitted).symm.trans faulty) (by simp))
    fun choice => serving choice.embedding

theorem ensures_events_spared (call : EventStoreCall)
    {post : MemcoreResult call.Answer → World → Prop}
    (serving : post (MockMemoryEventStore.serve world.events call).1
      { world with events := (MockMemoryEventStore.serve world.events call).2 }) :
    Ensures (worldSpec platform admits) (perform (.events call)) post world :=
  ensures_events call (fun choice error admitted faulty =>
    absurd ((spared _ _ choice admitted).symm.trans faulty) (by simp)) serving

/-- The best effort to record an event of the tenant records it. -/
theorem ensures_recordEventBestEffort (engine : MemoryEngine) (tenant : TenantContext)
    (factId : Option Uuid) (kind : MemoryEventOperation)
    (previousContent newContent : Option String) (metadata : Value)
    {post : MemcoreResult Unit → World → Prop}
    (enough : ∀ event : MemoryEvent, event.tenant = tenant → event.factId = factId →
      event.operation = kind → post (.ok ()) { world with
        events := if engine.eventStore then world.events ++ [event] else world.events }) :
    Ensures (worldSpec platform admits) (recordEventBestEffort engine tenant
      (MemoryEvent.new engine tenant factId kind previousContent newContent metadata)) post
      world :=
  ensures_recorded engine tenant factId kind previousContent newContent metadata
    (fun world call choice => spared world (.events call) choice)
    fun event own about kind _ => enough event own about kind

theorem ensures_invalidateUserContextCache_spared (engine : MemoryEngine)
    (tenant : TenantContext) {post : MemcoreResult Unit → World → Prop}
    (enough : post (.ok ()) { world with
      cache := if engine.contextCacheConfig.enabled then world.cache.invalidateUser tenant
        else world.cache }) :
    Ensures (worldSpec platform admits) (invalidateUserContextCache engine tenant) post
      world := by
  unfold invalidateUserContextCache
  split
  · rename_i enabled
    simp only [ensures_bind, ensures_attempt]
    refine (ensures_perform (.cache (.invalidateUser tenant.orgId tenant.userId)) _).mpr
      fun choice _ admitted => ?_
    simp only [andThen_ok, ensures_pure, World.serve, World.unlessFault,
      spared _ _ choice admitted]
    rwa [if_pos enabled] at enough
  · rename_i disabled
    rw [if_neg disabled] at enough
    simpa only [ensures_pure] using enough

end Spared

/-! ## Programs that leave the stores alone -/

/-- The stores of facts and vectors, and the cache, are as they were. -/
structure SameData (before after : World) : Prop where
  facts : after.facts = before.facts
  vectors : after.vectors = before.vectors
  cache : after.cache = before.cache

theorem SameData.refl (world : World) : SameData world world := ⟨rfl, rfl, rfl⟩

theorem QuietCall.serve {tenant : TenantContext} {port : Port}
    (isQuiet : QuietCall tenant port) (choice : Choice) (world : World) :
    SameData world (World.serve platform choice port world).2 := by
  cases port with
  | facts call =>
    cases call <;> first | exact isQuiet.elim | skip
    all_goals
      simp only [World.serve, World.unlessFault, MockFactStore.serve, MockFactStore.getFact_snd,
        MockFactStore.searchFacts_snd]
      cases choice.fault <;> exact ⟨rfl, rfl, rfl⟩
  | vectors call =>
    cases call <;> first | exact isQuiet.elim | skip
    simp only [World.serve, World.unlessFault]
    cases choice.fault <;> exact ⟨rfl, rfl, rfl⟩
  | events call =>
    simp only [World.serve, World.unlessFault]
    cases choice.fault <;> exact ⟨rfl, rfl, rfl⟩
  | provider call =>
    simp only [World.serve, World.unlessFault]
    cases choice.fault <;> exact ⟨rfl, rfl, rfl⟩
  | system call => cases call <;> exact ⟨rfl, rfl, rfl⟩
  | cache call => exact isQuiet.elim
  | coordinator call => exact isQuiet.elim

/-- A quiet program may answer anything, but the data are the same. -/
theorem ensures_quiet {α : Type} {program : EngineProgram α} {tenant : TenantContext}
    (within : program.Within (QuietCall tenant)) {post : MemcoreResult α → World → Prop}
    (enough : ∀ outcome after, SameData world after → post outcome after) :
    Ensures (worldSpec platform admits) program post world := by
  refine Ensures.mono worldSpec_monotone
    (Program.Within.ensures _ (fun before call choice same isQuiet _ _ => ?_) within
      (SameData.refl world)) fun outcome final same => enough outcome final same
  have served := @QuietCall.serve platform _ _ isQuiet choice before
  exact ⟨served.facts.trans same.facts, served.vectors.trans same.vectors,
    served.cache.trans same.cache⟩

theorem succeeds_quiet {α : Type} {program : EngineProgram α} {tenant : TenantContext}
    (within : program.Within (QuietCall tenant)) {good : α → World → Prop}
    (enough : ∀ value after, SameData world after → good value after) :
    Succeeds (worldSpec platform admits) program good world := by
  refine (succeeds_iff _ _ _ _).mpr (ensures_quiet within fun outcome after same => ?_)
  cases outcome with
  | ok value => exact enough value after same
  | error error => trivial

theorem secures_quiet {α : Type} {program : EngineProgram α} {tenant : TenantContext}
    (within : program.Within (QuietCall tenant)) {safe : World → Prop} {good : α → World → Prop}
    (enough : ∀ (outcome : MemcoreResult α) after, SameData world after →
      orSafe safe good outcome after) :
    Secures (worldSpec platform admits) program safe good world :=
  (secures_iff _ _ _ _ _).mpr (ensures_quiet within enough)

/-- An invalidation changes at most the cache, and it never fails. -/
theorem ensures_invalidateUserContextCache (engine : MemoryEngine) (tenant : TenantContext)
    {post : MemcoreResult Unit → World → Prop}
    (enough : ∀ cache, post (.ok ()) { world with cache := cache }) :
    Ensures (worldSpec platform admits) (invalidateUserContextCache engine tenant) post
      world := by
  unfold invalidateUserContextCache
  split
  · simp only [ensures_bind, ensures_attempt]
    refine (ensures_perform (.cache (.invalidateUser tenant.orgId tenant.userId)) _).mpr
      fun choice _ _ => ?_
    simp only [andThen_ok, ensures_pure, World.serve, World.unlessFault]
    cases choice.fault with
    | some error => exact enough world.cache
    | none => exact enough _
  · simpa only [ensures_pure] using enough world.cache

/-- Reading calls leave both stores as they are. -/
theorem ReaderCall.serve_stores {tenant : TenantContext} {port : Port}
    (isReader : ReaderCall tenant port) (choice : Choice)
    (world : World) :
    (World.serve platform choice port world).2.facts = world.facts ∧
      (World.serve platform choice port world).2.vectors = world.vectors := by
  cases port with
  | facts call =>
    cases call <;> first | exact isReader.elim | skip
    all_goals
      simp only [World.serve, World.unlessFault, MockFactStore.serve, MockFactStore.getFact_snd,
        MockFactStore.searchFacts_snd]
      cases choice.fault <;> exact ⟨rfl, rfl⟩
  | vectors call =>
    cases call <;> first | exact isReader.elim | skip
    simp only [World.serve, World.unlessFault]
    cases choice.fault <;> exact ⟨rfl, rfl⟩
  | events call =>
    simp only [World.serve, World.unlessFault]
    cases choice.fault <;> exact ⟨rfl, rfl⟩
  | provider call =>
    simp only [World.serve, World.unlessFault]
    cases choice.fault <;> exact ⟨rfl, rfl⟩
  | system call => cases call <;> exact ⟨rfl, rfl⟩
  | cache call =>
    simp only [World.serve, World.unlessFault]
    cases choice.fault <;> exact ⟨rfl, rfl⟩
  | coordinator call =>
    cases call with
    | lockWithTimeout lock =>
      simp only [World.serve, World.serveCoordinator]
      split <;> exact ⟨rfl, rfl⟩
    | tryStartRefresh key =>
      simp only [World.serve, World.serveCoordinator]
      split <;> exact ⟨rfl, rfl⟩
    | _ => exact ⟨rfl, rfl⟩

/-! ## Other tenants -/

/-- A store call of one tenant leaves the active facts of the others as they are. -/
theorem FactStoreCall.active_serve_others (store : MockFactStore) (call : FactStoreCall)
    (fact : Fact) (other : fact.tenant ≠ call.tenant) :
    (store.serve call).2.Active fact ↔ store.Active fact := by
  cases call with
  | insertFact tenant inserted =>
    simp only [MockFactStore.serve]
    cases served : (store.insertFact tenant inserted).1 with
    | error error => rw [store.insertFact_error tenant inserted error served]
    | ok answer =>
      obtain ⟨_, own, absent, stored⟩ := store.insertFact_ok tenant inserted answer served
      rw [stored, store.active_insertFact inserted fact absent]
      exact ⟨fun active => active.resolve_left fun same => other (same ▸ own), .inr⟩
  | updateFact tenant updated =>
    simp only [MockFactStore.serve]
    cases served : (store.updateFact tenant updated).1 with
    | error error => rw [store.updateFact_error tenant updated error served]
    | ok answer =>
      obtain ⟨_, own, stored⟩ := store.updateFact_ok tenant updated answer served
      obtain ⟨existing, existingStored, sameId, existingOwn⟩ :=
        store.updateFact_owned tenant updated answer served
      rw [stored, store.active_putFact]
      constructor
      · rintro (⟨same, _⟩ | ⟨active, _⟩)
        · exact absurd (same ▸ own) other
        · exact active
      · refine fun active => .inr ⟨active, fun clash => other ?_⟩
        rw [store.facts.eq_of_key active.1 existingStored (clash.trans sameId.symm)]
        exact existingOwn
  | getFact tenant factId => simp only [MockFactStore.serve, MockFactStore.getFact_snd]
  | searchFacts query => simp only [MockFactStore.serve, MockFactStore.searchFacts_snd]
  | softDeleteFact tenant factId =>
    simp only [MockFactStore.serve]
    cases served : (store.softDeleteFact tenant factId).1 with
    | error error => rw [store.softDeleteFact_error tenant factId error served]
    | ok answer =>
      obtain ⟨existing, existingStored, sameId, existingOwn⟩ :=
        store.softDeleteFact_owned tenant factId served
      rw [store.active_softDeleteFact tenant factId served]
      refine ⟨And.left, fun active => ⟨active, fun clash => other ?_⟩⟩
      rw [store.facts.eq_of_key active.1 existingStored (clash.trans sameId.symm)]
      exact existingOwn
  | deleteUserData tenant =>
    simp only [MockFactStore.serve, store.active_deleteUserData]
    exact ⟨And.left, fun active => ⟨active, other⟩⟩
  | deleteFactsOlderThan tenant cutoff dryRun =>
    simp only [MockFactStore.serve]
    cases dryRun with
    | true => simp [MockFactStore.deleteFactsOlderThan]
    | false =>
      rw [store.active_deleteFactsOlderThan]
      exact ⟨And.left, fun active => ⟨active, fun expired => other expired.1⟩⟩

/-! ## Stored facts -/

/-- A row in the store was there before or is the one that the call has written. -/
theorem FactStoreCall.mem_serve (store : MockFactStore) (call : FactStoreCall) {row : Fact}
    (stored : row ∈ (store.serve call).2.facts.rows) :
    row ∈ store.facts.rows ∨
      ∃ tenant, call = .insertFact tenant row ∨ call = .updateFact tenant row := by
  cases call with
  | insertFact tenant fact =>
    simp only [MockFactStore.serve] at stored
    cases served : (store.insertFact tenant fact).1 with
    | error error =>
      rw [store.insertFact_error tenant fact error served] at stored
      exact .inl stored
    | ok answer =>
      rw [(store.insertFact_ok tenant fact answer served).2.2.2, MockFactStore.putFact,
        Table.mem_put] at stored
      rcases stored with rfl | old
      · exact .inr ⟨tenant, .inl rfl⟩
      · exact .inl old.1
  | updateFact tenant fact =>
    simp only [MockFactStore.serve] at stored
    cases served : (store.updateFact tenant fact).1 with
    | error error =>
      rw [store.updateFact_error tenant fact error served] at stored
      exact .inl stored
    | ok answer =>
      rw [(store.updateFact_ok tenant fact answer served).2.2, MockFactStore.putFact,
        Table.mem_put] at stored
      rcases stored with rfl | old
      · exact .inr ⟨tenant, .inr rfl⟩
      · exact .inl old.1
  | getFact tenant factId =>
    simp only [MockFactStore.serve, MockFactStore.getFact_snd] at stored
    exact .inl stored
  | searchFacts query => exact .inl stored
  | softDeleteFact tenant factId =>
    left
    simp only [MockFactStore.serve] at stored
    unfold MockFactStore.softDeleteFact at stored
    split at stored
    · exact stored
    · split_ifs at stored <;> exact stored
  | deleteUserData tenant => exact .inl ((Table.mem_retain _ _ _).mp stored).1
  | deleteFactsOlderThan tenant cutoff dryRun =>
    left
    simp only [MockFactStore.serve, MockFactStore.deleteFactsOlderThan] at stored
    split at stored <;> exact stored

/-- A mutating operation keeps all stored facts valid. -/
theorem MutatorCall.serve_valid {tenant : TenantContext} {port : Port}
    (own : MutatorCall tenant port) (choice : Choice)
    (valid : ∀ fact ∈ world.facts.facts.rows, fact.Valid) :
    ∀ fact ∈ (World.serve platform choice port world).2.facts.facts.rows, fact.Valid := by
  cases port with
  | facts call =>
    intro fact stored
    simp only [World.serve, World.unlessFault] at stored
    cases fault : choice.fault with
    | some error =>
      rw [fault] at stored
      exact valid fact stored
    | none =>
      rw [fault] at stored
      rcases call.mem_serve world.facts stored with old | ⟨asker, rfl | rfl⟩
      · exact valid fact old
      · exact own.2
      · exact own.2
  | system call => cases call <;> exact valid
  | coordinator call => exact own.elim
  | _ =>
    simp only [World.serve, World.unlessFault]
    cases choice.fault <;> exact valid

end Memcore
