import Memcore.Engine.Listing
import Memcore.Engine.Operations
import Memcore.Foundations.Contracts
import Memcore.Guarantees.ContextBudget

/-!
# Whose data an answer is made of

The stores and the cache are shared by all tenants. A chronicle holds the operations
and the calls so far, and says which facts and events each tenant has stored. Every
row, event and cached context is explained by what its own tenant has stored, and an
operation touches none of another tenant's. Both are one contract between the
operations of a tenant and the world.
-/
namespace Memcore

open KeyedTables Ports Programs

/-! ## What a tenant has stored -/

/-- The operations so far, and the calls that they made with the answers to these. -/
structure Chronicle where
  operations : List EngineOperation
  events : List EngineEvent

/-- Nothing has happened that is not in the longer chronicle. -/
structure Chronicle.Extends (longer shorter : Chronicle) : Prop where
  operations : shorter.operations ⊆ longer.operations
  events : shorter.events ⊆ longer.events

section Explanations

variable (engine : MemoryEngine) (chronicle : Chronicle) (tenant : TenantContext)

/-- A fact that the fact store has accepted from its tenant. -/
def StoredUnder (fact : Fact) : Prop :=
  fact.tenant = tenant ∧
    ((⟨.facts (.insertFact tenant fact), .ok fact⟩ : EngineEvent) ∈ chronicle.events ∨
      (⟨.facts (.updateFact tenant fact), .ok fact⟩ : EngineEvent) ∈ chronicle.events)

/-- Content and metadata are those of a fact of the tenant. -/
def States (factId : Uuid) (content : String) (metadata : Value) : Prop :=
  ∃ fact, StoredUnder chronicle tenant fact ∧ fact.id = factId ∧ fact.content = content ∧
    fact.metadata = metadata

/-- A result is about a fact of the tenant, and states one of the same identifier. -/
structure ConcernsOwn (result : MemorySearchResult) : Prop where
  about : ∃ fact, StoredUnder chronicle tenant fact ∧ result.factId = fact.id ∧
    result.memoryType = fact.memoryType ∧ result.confidence = fact.confidence ∧
    result.importance = fact.importance ∧ result.validAt = fact.validAt
  states : States chronicle tenant result.factId result.content result.metadata

/-- A context is assembled from results about facts of the tenant, apart from what the
cache reports about itself. -/
structure MadeOfOwn (output : BuildContextOutput) : Prop where
  assembled : ∃ input results reply, input.tenant = tenant ∧
    (∀ result ∈ results, ConcernsOwn chronicle tenant result) ∧
    output = { contextWithReply engine input results reply with cache := output.cache }
  memories : ∀ memory ∈ output.memories, ConcernsOwn chronicle tenant memory

/-- An event names facts of the tenant and repeats their contents. Otherwise it reports
that nothing was done, or an import of the tenant has restored it. -/
inductive Explained (event : MemoryEvent) : Prop where
  | ownFacts
      (named : ∀ id ∈ event.factId, ∃ fact, StoredUnder chronicle tenant fact ∧ fact.id = id)
      (previous : ∀ content ∈ event.previousContent, ∃ fact,
        StoredUnder chronicle tenant fact ∧ fact.content = content)
      (new : ∀ content ∈ event.newContent, ∃ fact,
        StoredUnder chronicle tenant fact ∧ fact.content = content)
  | nothingDone (isNoOp : event.operation = .noOp) (previous : event.previousContent = none)
      (new : event.newContent = none)
  | restored (input : ImportUserDataInput) (exported : MemoryEvent)
      (performed : .importUserData input ∈ chronicle.operations) (own : input.tenant = tenant)
      (wanted : input.restoreEvents = true) (carried : exported ∈ input.payload.memoryEvents)
      (copied : event = { exported with id := event.id, inputText := none })

/-- An event that the audit log has accepted from its tenant. -/
structure RecordedUnder (event : MemoryEvent) : Prop where
  own : event.tenant = tenant
  recorded : (⟨.events (.recordEvent tenant event), .ok event⟩ : EngineEvent) ∈ chronicle.events
  explained : Explained chronicle tenant event

end Explanations

section Monotonicity

variable {engine : MemoryEngine} {longer shorter : Chronicle} {tenant : TenantContext}
  (grown : longer.Extends shorter)

include grown

theorem StoredUnder.mono {fact : Fact} (stored : StoredUnder shorter tenant fact) :
    StoredUnder longer tenant fact :=
  ⟨stored.1, stored.2.imp (fun inserted => grown.events inserted)
    fun updated => grown.events updated⟩

theorem States.mono {factId : Uuid} {content : String} {metadata : Value}
    (states : States shorter tenant factId content metadata) :
    States longer tenant factId content metadata := by
  obtain ⟨fact, stored, same⟩ := states
  exact ⟨fact, stored.mono grown, same⟩

theorem ConcernsOwn.mono {result : MemorySearchResult}
    (concerns : ConcernsOwn shorter tenant result) : ConcernsOwn longer tenant result := by
  obtain ⟨fact, stored, same⟩ := concerns.about
  exact ⟨⟨fact, stored.mono grown, same⟩, concerns.states.mono grown⟩

theorem MadeOfOwn.mono {output : BuildContextOutput}
    (made : MadeOfOwn engine shorter tenant output) : MadeOfOwn engine longer tenant output := by
  obtain ⟨input, results, reply, own, concerns, same⟩ := made.assembled
  exact ⟨⟨input, results, reply, own,
    fun result member => (concerns result member).mono grown, same⟩,
    fun memory member => (made.memories memory member).mono grown⟩

theorem Explained.mono {event : MemoryEvent} (explained : Explained shorter tenant event) :
    Explained longer tenant event := by
  cases explained with
  | ownFacts named previous new =>
    refine .ownFacts (fun id member => ?_) (fun content member => ?_) fun content member => ?_
    · obtain ⟨fact, stored, same⟩ := named id member
      exact ⟨fact, stored.mono grown, same⟩
    · obtain ⟨fact, stored, same⟩ := previous content member
      exact ⟨fact, stored.mono grown, same⟩
    · obtain ⟨fact, stored, same⟩ := new content member
      exact ⟨fact, stored.mono grown, same⟩
  | nothingDone isNoOp previous new => exact .nothingDone isNoOp previous new
  | restored input exported performed own wanted carried copied =>
    exact .restored input exported (grown.operations performed) own wanted carried copied

theorem RecordedUnder.mono {event : MemoryEvent} (recorded : RecordedUnder shorter tenant event) :
    RecordedUnder longer tenant event :=
  ⟨recorded.own, grown.events recorded.recorded, recorded.explained.mono grown⟩

end Monotonicity

/-! ## What an operation leaves alone -/

/-- The facts of a tenant, each with the mark whether it is deleted. -/
def World.factsOf (world : World) (tenant : TenantContext) : List (Fact × Bool) :=
  (world.facts.facts.rows.filter fun fact => decide (fact.tenant = tenant)).map fun fact =>
    (fact, world.facts.isDeleted fact.id)

def World.vectorsOf (world : World) (tenant : TenantContext) : List VectorRecord :=
  world.vectors.rows.filter fun record => decide (record.tenant = tenant)

def World.eventsOf (world : World) (tenant : TenantContext) : List MemoryEvent :=
  world.events.filter fun event => decide (event.tenant = tenant)

/-- The cached contexts of a tenant with their keys. -/
def World.cachedOf (world : World) (tenant : TenantContext) :
    List (ContextCacheKey × CachedContextEntry) :=
  world.cache.entries.rows.filter fun row => decide (row.1.tenant = tenant)

/-- The stored data of a tenant are as they were. A cached context may be missing, and
those that are left are as they were. -/
structure Untouched (tenant : TenantContext) (before after : World) : Prop where
  facts : after.factsOf tenant = before.factsOf tenant
  vectors : after.vectorsOf tenant = before.vectorsOf tenant
  events : after.eventsOf tenant = before.eventsOf tenant
  cached : (after.cachedOf tenant).Sublist (before.cachedOf tenant)

theorem Untouched.refl (tenant : TenantContext) (world : World) : Untouched tenant world world :=
  ⟨rfl, rfl, rfl, List.Sublist.refl _⟩

theorem Untouched.trans {tenant : TenantContext} {first second third : World}
    (before : Untouched tenant first second) (after : Untouched tenant second third) :
    Untouched tenant first third where
  facts := after.facts.trans before.facts
  vectors := after.vectors.trans before.vectors
  events := after.events.trans before.events
  cached := after.cached.trans before.cached

/-- The tenant whose cached contexts a call of the cache is about. -/
def CacheCall.tenant : CacheCall → TenantContext
  | get key | getAny key | set key _ => key.tenant
  | invalidateUser orgId userId => ⟨orgId, userId⟩

section Stores

variable {tenant other : TenantContext}

/-- The facts of another tenant, after a row is stored over one that is not its own. -/
theorem factsOf_putFact {world : World} {fact : Fact} (own : fact.tenant ≠ other)
    (apart : ∀ row ∈ world.facts.facts.rows, row.tenant = other → row.id ≠ fact.id) :
    World.factsOf { world with facts := world.facts.putFact fact } other =
      world.factsOf other := by
  have kept : (world.facts.putFact fact).facts.rows.filter
      (fun row => decide (row.tenant = other)) =
        world.facts.facts.rows.filter fun row => decide (row.tenant = other) := by
    have dropped : decide (fact.tenant = other) = false := by simpa using own
    simp only [MockFactStore.putFact, Table.put, List.filter_append, List.filter_filter]
    rw [List.filter_singleton, dropped, cond_false, List.append_nil]
    refine List.filter_congr fun row stored => ?_
    by_cases foreign : row.tenant = other
    · simp [foreign, apart row stored foreign]
    · simp [foreign]
  simp only [World.factsOf, kept]
  rfl

/-- Marks on rows of others are no marks on one's own. -/
theorem factsOf_markDeleted {world : World} {ids : List Uuid}
    (stored : ∀ id ∈ ids, world.facts.facts.contains id = true)
    (apart : ∀ row ∈ world.facts.facts.rows, row.tenant = other → row.id ∉ ids) :
    World.factsOf { world with facts := world.facts.markDeleted ids stored } other =
      world.factsOf other := by
  simp only [World.factsOf, MockFactStore.markDeleted]
  refine List.map_congr_left fun fact member => ?_
  simp only [List.mem_filter, decide_eq_true_eq] at member
  simp [MockFactStore.isDeleted, apart fact member.1 member.2]

/-- A row whose identifier another row of a tenant has is a row of this tenant. -/
theorem apart_of_owned {store : MockFactStore} {id : Uuid}
    (owned : ∃ existing ∈ store.facts.rows, existing.id = id ∧ existing.tenant = tenant)
    (foreign : other ≠ tenant) :
    ∀ row ∈ store.facts.rows, row.tenant = other → row.id ≠ id := by
  obtain ⟨existing, existingStored, rfl, rfl⟩ := owned
  intro row stored sameTenant sameId
  obtain rfl := store.facts.eq_of_key stored existingStored sameId
  exact foreign sameTenant.symm

/-- No call of a tenant changes the facts of another one. -/
theorem factsOf_serve (world : World) {call : FactStoreCall} (own : call.tenant = tenant)
    (foreign : other ≠ tenant) :
    World.factsOf { world with facts := (world.facts.serve call).2 } other =
      world.factsOf other := by
  subst own
  cases call with
  | insertFact asker fact =>
    simp only [MockFactStore.serve]
    cases served : (world.facts.insertFact asker fact).1 with
    | error error => rw [world.facts.insertFact_error asker fact error served]
    | ok answer =>
      obtain ⟨_, ownFact, absent, stored⟩ := world.facts.insertFact_ok asker fact answer served
      rw [stored]
      refine factsOf_putFact (fun same => foreign (same.symm.trans ownFact)) ?_
      intro row rowStored _ sameId
      have present := (Table.contains_iff _ _).mpr ⟨row, rowStored, sameId⟩
      rw [absent] at present
      cases present
  | updateFact asker fact =>
    simp only [MockFactStore.serve]
    cases served : (world.facts.updateFact asker fact).1 with
    | error error => rw [world.facts.updateFact_error asker fact error served]
    | ok answer =>
      obtain ⟨_, ownFact, stored⟩ := world.facts.updateFact_ok asker fact answer served
      rw [stored]
      exact factsOf_putFact (fun same => foreign (same.symm.trans ownFact))
        (apart_of_owned (world.facts.updateFact_owned asker fact answer served) foreign)
  | getFact asker factId => simp only [MockFactStore.serve, MockFactStore.getFact_snd]
  | searchFacts query => rfl
  | softDeleteFact asker factId =>
    simp only [MockFactStore.serve]
    cases served : (world.facts.softDeleteFact asker factId).1 with
    | error error => rw [world.facts.softDeleteFact_error asker factId error served]
    | ok answer =>
      have apart := apart_of_owned (world.facts.softDeleteFact_owned asker factId served) foreign
      have stored : ∀ id ∈ [factId], world.facts.facts.contains id = true := by
        obtain ⟨existing, existingStored, sameId, _⟩ :=
          world.facts.softDeleteFact_owned asker factId served
        intro id member
        rw [List.mem_singleton.mp member]
        exact (Table.contains_iff _ _).mpr ⟨existing, existingStored, sameId⟩
      rw [world.facts.softDeleteFact_ok asker factId served stored]
      exact factsOf_markDeleted stored fun row rowStored same => by
        simpa using apart row rowStored same
  | deleteUserData asker =>
    have kept : ((world.facts.deleteUserData asker).2).facts.rows.filter
        (fun fact => decide (fact.tenant = other)) =
          world.facts.facts.rows.filter fun fact => decide (fact.tenant = other) := by
      simp only [MockFactStore.deleteUserData, Table.retain, List.filter_filter]
      have notAsker : other ≠ asker := foreign
      refine List.filter_congr fun row _ => ?_
      by_cases same : row.tenant = other
      · simp [same, notAsker]
      · simp [same]
    simp only [World.factsOf, MockFactStore.serve, kept]
    refine List.map_congr_left fun fact member => ?_
    simp only [List.mem_filter, decide_eq_true_eq] at member
    have remains : ∃ row ∈ world.facts.facts.rows, row.tenant ≠ asker ∧ row.id = fact.id :=
      ⟨fact, member.1, member.2 ▸ foreign, rfl⟩
    simp [MockFactStore.isDeleted, MockFactStore.deleteUserData, Table.contains_iff, and_assoc,
      remains]
  | deleteFactsOlderThan asker cutoff dryRun =>
    simp only [MockFactStore.serve, MockFactStore.deleteFactsOlderThan]
    split
    · rfl
    · have own : ∀ id ∈ (world.facts.expired asker cutoff).map Fact.id,
          ∃ existing ∈ world.facts.facts.rows, existing.id = id ∧ existing.tenant = asker := by
        intro id member
        obtain ⟨fact, expired, sameId⟩ := List.mem_map.mp member
        obtain ⟨active, ownFact, _⟩ := (world.facts.mem_expired asker cutoff fact).mp expired
        exact ⟨fact, active.1, sameId, ownFact⟩
      have stored : ∀ id ∈ (world.facts.expired asker cutoff).map Fact.id,
          world.facts.facts.contains id = true := by
        intro id member
        obtain ⟨existing, existingStored, sameId, _⟩ := own id member
        exact (Table.contains_iff _ _).mpr ⟨existing, existingStored, sameId⟩
      exact factsOf_markDeleted stored fun row rowStored same member =>
        apart_of_owned (own row.id member) foreign row rowStored same rfl

/-- No call of a tenant changes the vectors of another one, provided that a record which
it stores has an identifier of its own. -/
theorem vectorsOf_serve (platform : Platform) (world : World) {call : VectorStoreCall}
    (own : call.tenant = tenant) (foreign : other ≠ tenant)
    (unclaimed : ∀ record, call = .upsertVector tenant record →
      ∀ row ∈ world.vectors.rows, row.tenant = other → row.id ≠ record.id) :
    World.vectorsOf { world with
      vectors := (MockVectorStore.serve platform.cosineSimilarity world.vectors call).2 } other =
        world.vectorsOf other := by
  subst own
  cases call with
  | upsertVector asker record =>
    simp only [MockVectorStore.serve, MockVectorStore.upsertVector]
    split
    · rfl
    · rename_i ownRecord
      have dropped : decide (record.tenant = other) = false :=
        decide_eq_false fun same => foreign (same.symm.trans (not_not.mp ownRecord))
      simp only [World.vectorsOf, Table.put, List.filter_append, List.filter_filter]
      rw [List.filter_singleton, dropped, cond_false, List.append_nil]
      refine List.filter_congr fun row stored => ?_
      by_cases same : row.tenant = other
      · simp [same, unclaimed record rfl row stored same]
      · simp [same]
  | searchVectors query => rfl
  | deleteByFactId asker factId =>
    have remaining : (MockVectorStore.deleteByFactId world.vectors asker factId).2 =
        world.vectors.retain fun record => !MockVectorStore.isAbout asker factId record := by
      simp only [MockVectorStore.deleteByFactId]
      split <;> rfl
    simp only [World.vectorsOf, MockVectorStore.serve, remaining, Table.retain, List.filter_filter]
    refine List.filter_congr fun row _ => ?_
    by_cases same : row.tenant = other
    · have notAsker : other ≠ asker := foreign
      simp [same, MockVectorStore.isAbout, notAsker]
    · simp [same]
  | deleteByUser asker =>
    simp only [World.vectorsOf, MockVectorStore.serve, MockVectorStore.deleteByUser, Table.retain,
      List.filter_filter]
    refine List.filter_congr fun row _ => ?_
    by_cases same : row.tenant = other
    · have notAsker : other ≠ asker := foreign
      simp [same, notAsker]
    · simp [same]

theorem eventsOf_serve (world : World) {call : EventStoreCall} (own : call.tenant = tenant)
    (foreign : other ≠ tenant) :
    World.eventsOf { world with events := (MockMemoryEventStore.serve world.events call).2 } other =
      world.eventsOf other := by
  subst own
  cases call with
  | recordEvent asker event =>
    simp only [MockMemoryEventStore.serve, MockMemoryEventStore.recordEvent]
    split
    · rfl
    · rename_i ownEvent
      have dropped : decide (event.tenant = other) = false :=
        decide_eq_false fun same => foreign (same.symm.trans (not_not.mp ownEvent))
      simp only [World.eventsOf, List.filter_append]
      rw [List.filter_singleton, dropped, cond_false, List.append_nil]
  | listEvents query =>
    simp only [MockMemoryEventStore.serve, MockMemoryEventStore.listEvents]
    split <;> rfl
  | deleteEventsOlderThan asker cutoff dryRun =>
    simp only [MockMemoryEventStore.serve, MockMemoryEventStore.deleteEventsOlderThan]
    split
    · rfl
    · simp only [World.eventsOf, List.filter_filter]
      refine List.filter_congr fun event _ => ?_
      by_cases same : event.tenant = other
      · have notAsker : other ≠ asker := foreign
        simp [same, notAsker]
      · simp [same]

theorem rows_remove_sublist (cache : InMemoryContextCache) (key : ContextCacheKey) :
    (cache.remove key).entries.rows.Sublist cache.entries.rows :=
  List.filter_sublist

theorem rows_dropOldest_sublist (cache : InMemoryContextCache) (count : ℕ) :
    (cache.dropOldest count).entries.rows.Sublist cache.entries.rows := by
  induction count generalizing cache with
  | zero => exact List.Sublist.refl _
  | succ count inductionHypothesis =>
    unfold InMemoryContextCache.dropOldest
    split
    · exact List.Sublist.refl _
    · exact (inductionHypothesis _).trans (rows_remove_sublist _ _)

/-- A call of a tenant may cost another one cached contexts, but changes none. -/
theorem cachedOf_serve (world : World) (now : Instant) {call : CacheCall}
    (own : call.tenant = tenant) (foreign : other ≠ tenant) :
    (World.cachedOf { world with cache := (world.cache.serve now call).2 } other).Sublist
      (world.cachedOf other) := by
  subst own
  cases call with
  | get key =>
    refine List.Sublist.filter _ ?_
    simp only [InMemoryContextCache.serve, InMemoryContextCache.get]
    split
    · exact List.Sublist.refl _
    · split_ifs
      · exact rows_remove_sublist _ _
      · exact List.Sublist.refl _
      · exact List.Sublist.refl _
  | getAny key =>
    refine List.Sublist.filter _ ?_
    simp only [InMemoryContextCache.serve, InMemoryContextCache.getAny]
    split
    · exact List.Sublist.refl _
    · split_ifs
      · exact rows_remove_sublist _ _
      · exact List.Sublist.refl _
  | set key entry =>
    have dropped : decide (key.tenant = other) = false :=
      decide_eq_false foreign.symm
    refine (List.Sublist.filter _ (rows_dropOldest_sublist _ _)).trans ?_
    simp only [Table.put, List.filter_append]
    rw [List.filter_singleton, dropped, cond_false, List.append_nil]
    exact List.Sublist.filter _ (List.filter_sublist.trans List.filter_sublist)
  | invalidateUser orgId userId => exact List.Sublist.filter _ List.filter_sublist

end Stores

/-! ## The contract between an operation and the world -/

/-- The answer that a cached context gives. -/
def CachedContextEntry.output (entry : CachedContextEntry) (usage : ContextCacheUsage) :
    BuildContextOutput :=
  ⟨entry.context, entry.memories, entry.budget, entry.compression, usage⟩

/-- Everything in the stores and in the cache is explained by what its own tenant has
stored. -/
structure Sound (engine : MemoryEngine) (chronicle : Chronicle) (world : World) : Prop where
  facts : ∀ fact ∈ world.facts.facts.rows, StoredUnder chronicle fact.tenant fact
  vectors : ∀ record ∈ world.vectors.rows,
    States chronicle record.tenant record.factId record.content record.metadata
  events : ∀ event ∈ world.events, RecordedUnder chronicle event.tenant event
  cached : ∀ row ∈ world.cache.entries.rows,
    MadeOfOwn engine chronicle row.1.tenant (row.2.output .disabled)

theorem sound_empty (engine : MemoryEngine) (chronicle : Chronicle) (maxEntries : ℕ) :
    Sound engine chronicle (World.empty maxEntries) where
  facts _ stored := absurd stored List.not_mem_nil
  vectors _ stored := absurd stored List.not_mem_nil
  events _ stored := absurd stored List.not_mem_nil
  cached _ stored := absurd stored List.not_mem_nil

theorem Sound.mono {engine : MemoryEngine} {longer shorter : Chronicle}
    (grown : longer.Extends shorter) {world : World} (sound : Sound engine shorter world) :
    Sound engine longer world where
  facts fact stored := (sound.facts fact stored).mono grown
  vectors record stored := (sound.vectors record stored).mono grown
  events event stored := (sound.events event stored).mono grown
  cached row stored := (sound.cached row stored).mono grown

/-- No vector of another tenant had the identifier. -/
def Unclaimed (start : World) (tenant : TenantContext) (id : Uuid) : Prop :=
  ∀ record ∈ start.vectors.rows, record.tenant ≠ tenant → record.id ≠ id

section Contract

variable (engine : MemoryEngine) (chronicle : Chronicle) (tenant : TenantContext) (start : World)

/-- The calls that an operation of a tenant makes. -/
def Confined : Port → Prop
  | .facts call => call.tenant = tenant
  | .vectors (.upsertVector asker record) => asker = tenant ∧ Unclaimed start tenant record.id ∧
      States chronicle tenant record.factId record.content record.metadata
  | .vectors call => call.tenant = tenant
  | .events (.recordEvent asker event) => asker = tenant ∧ Explained chronicle tenant event
  | .events call => call.tenant = tenant
  | .cache (.set key entry) =>
      key.tenant = tenant ∧ MadeOfOwn engine chronicle tenant (entry.output .disabled)
  | .cache call => call.tenant = tenant
  | .provider _ | .system _ | .coordinator _ => True

/-- What an operation of a tenant relies on in the answers. -/
def Promised : (port : Port) → MemcoreResult port.Answer → Prop
  | .facts (.insertFact _ fact), .ok inserted =>
      inserted = fact ∧ StoredUnder chronicle tenant inserted
  | .facts (.updateFact _ _), .ok fact => StoredUnder chronicle tenant fact
  | .facts (.getFact _ _), .ok (some fact) => StoredUnder chronicle tenant fact
  | .facts (.searchFacts _), .ok facts => ∀ fact ∈ facts, StoredUnder chronicle tenant fact
  | .vectors (.searchVectors _), .ok results => ∀ result ∈ results,
      States chronicle tenant result.factId result.content result.metadata
  | .events (.listEvents _), .ok events => ∀ event ∈ events, RecordedUnder chronicle tenant event
  | .system .newUuid, .ok id => Unclaimed start tenant id
  | .cache (.get _), .ok (some entry) =>
      MadeOfOwn engine chronicle tenant (entry.output .disabled)
  | .cache (.getAny _), .ok (some entry) =>
      MadeOfOwn engine chronicle tenant (entry.output .disabled)
  | _, _ => True

def isolation : Contract enginePorts MemcoreError :=
  ⟨Confined engine chronicle tenant start, Promised engine chronicle tenant start⟩

/-- The world during an operation of a tenant. -/
structure Safe (world : World) : Prop where
  sound : Sound engine chronicle world
  untouched : ∀ other, other ≠ tenant → Untouched other start world

end Contract

section Fulfilment

variable {engine : MemoryEngine} {chronicle : Chronicle} {tenant : TenantContext}
  {start world : World}

theorem promised_error (port : Port) (error : MemcoreError) :
    Promised engine chronicle tenant start port (.error error) := by
  cases port with
  | facts call => cases call <;> trivial
  | vectors call => cases call <;> trivial
  | events call => cases call <;> trivial
  | system call => cases call <;> trivial
  | cache call => cases call <;> trivial
  | provider call => trivial
  | coordinator call => trivial

/-- A row that a call has stored is one that the store has accepted. -/
theorem storedUnder_serve {call : FactStoreCall} (own : call.tenant = tenant)
    (logged : (⟨.facts call, (world.facts.serve call).1⟩ : EngineEvent) ∈ chronicle.events)
    (sound : ∀ fact ∈ world.facts.facts.rows, StoredUnder chronicle fact.tenant fact) :
    ∀ fact ∈ (world.facts.serve call).2.facts.rows, StoredUnder chronicle fact.tenant fact := by
  intro fact stored
  obtain old | ⟨asker, rfl | rfl⟩ := call.mem_serve world.facts stored
  · exact sound fact old
  · simp only [MockFactStore.serve] at logged stored
    cases served : (world.facts.insertFact asker fact).1 with
    | error error =>
      rw [world.facts.insertFact_error asker fact error served] at stored
      exact sound fact stored
    | ok answer =>
      obtain ⟨rfl, ownFact, _⟩ := world.facts.insertFact_ok asker fact answer served
      rw [served] at logged
      exact ⟨rfl, .inl (ownFact ▸ logged)⟩
  · simp only [MockFactStore.serve] at logged stored
    cases served : (world.facts.updateFact asker fact).1 with
    | error error =>
      rw [world.facts.updateFact_error asker fact error served] at stored
      exact sound fact stored
    | ok answer =>
      obtain ⟨rfl, ownFact, _⟩ := world.facts.updateFact_ok asker fact answer served
      rw [served] at logged
      exact ⟨rfl, .inr (ownFact ▸ logged)⟩

theorem fulfils_facts (safe : Safe engine chronicle tenant start world) {call : FactStoreCall}
    (own : call.tenant = tenant)
    (logged : (⟨.facts call, (world.facts.serve call).1⟩ : EngineEvent) ∈ chronicle.events) :
    Safe engine chronicle tenant start { world with facts := (world.facts.serve call).2 } ∧
      Promised engine chronicle tenant start (.facts call) (world.facts.serve call).1 := by
  have stillStored := storedUnder_serve own logged safe.sound.facts
  constructor
  · refine ⟨{ safe.sound with facts := stillStored }, fun other foreign => ?_⟩
    refine (safe.untouched other foreign).trans ?_
    exact ⟨factsOf_serve world own foreign, rfl, rfl, List.Sublist.refl _⟩
  · cases call with
    | insertFact asker fact =>
      obtain rfl : asker = tenant := own
      cases served : (world.facts.serve (.insertFact asker fact)).1 with
      | error error => exact promised_error _ _
      | ok answer =>
        obtain ⟨same, ownFact, _⟩ := world.facts.insertFact_ok asker fact answer served
        rw [served, same] at logged
        show answer = fact ∧ StoredUnder chronicle asker answer
        rw [same]
        exact ⟨rfl, ownFact, .inl logged⟩
    | updateFact asker fact =>
      obtain rfl : asker = tenant := own
      cases served : (world.facts.serve (.updateFact asker fact)).1 with
      | error error => exact promised_error _ _
      | ok answer =>
        obtain ⟨same, ownFact, _⟩ := world.facts.updateFact_ok asker fact answer served
        rw [served, same] at logged
        show StoredUnder chronicle asker answer
        rw [same]
        exact ⟨ownFact, .inr logged⟩
    | getFact asker factId =>
      obtain rfl : asker = tenant := own
      cases served : (world.facts.serve (.getFact asker factId)).1 with
      | error error => exact promised_error _ _
      | ok found =>
        cases found with
        | none => trivial
        | some fact =>
          obtain ⟨active, ownFact, _⟩ := (world.facts.getFact_some asker factId fact).mp served
          exact ownFact ▸ safe.sound.facts fact active.1
    | searchFacts query =>
      obtain rfl : query.tenant = tenant := own
      intro fact member
      have listed := (List.mem_insertionSort _).mp (List.mem_of_mem_take member)
      simp only [List.mem_filter, Bool.and_eq_true, decide_eq_true_eq] at listed
      exact listed.2.1 ▸ safe.sound.facts fact listed.1
    | softDeleteFact asker factId => trivial
    | deleteUserData asker => trivial
    | deleteFactsOlderThan asker cutoff dryRun => trivial

theorem fulfils_vectors (safe : Safe engine chronicle tenant start world)
    {call : VectorStoreCall} (confined : Confined engine chronicle tenant start (.vectors call)) :
    Safe engine chronicle tenant start { world with
      vectors := (MockVectorStore.serve engine.platform.cosineSimilarity world.vectors call).2 } ∧
      Promised engine chronicle tenant start (.vectors call)
        (MockVectorStore.serve engine.platform.cosineSimilarity world.vectors call).1 := by
  have own : call.tenant = tenant := by
    cases call with
    | upsertVector asker record => exact confined.1
    | _ => exact confined
  have same (other : TenantContext) (foreign : other ≠ tenant) :
      ∀ row ∈ world.vectors.rows, row.tenant = other → row ∈ start.vectors.rows := by
    intro row stored sameTenant
    have kept : row ∈ world.vectorsOf other :=
      List.mem_filter.mpr ⟨stored, decide_eq_true sameTenant⟩
    rw [(safe.untouched other foreign).vectors] at kept
    exact (List.mem_filter.mp kept).1
  constructor
  · refine ⟨{ safe.sound with vectors := fun record stored => ?_ }, fun other foreign => ?_⟩
    · cases call with
      | upsertVector asker new =>
        simp only [MockVectorStore.serve, MockVectorStore.upsertVector] at stored
        split at stored
        · exact safe.sound.vectors record stored
        · rename_i ownRecord
          obtain rfl | old := (Table.mem_put _ _ _).mp stored
          · exact (not_not.mp ownRecord).trans own ▸ confined.2.2
          · exact safe.sound.vectors record old.1
      | searchVectors query => exact safe.sound.vectors record stored
      | deleteByFactId asker factId =>
        exact safe.sound.vectors record
          ((MockVectorStore.mem_deleteByFactId _ _ _ _).mp stored).1
      | deleteByUser asker =>
        exact safe.sound.vectors record ((MockVectorStore.mem_deleteByUser _ _ _).mp stored).1
    · refine (safe.untouched other foreign).trans
        ⟨rfl, vectorsOf_serve engine.platform world own foreign ?_, rfl, List.Sublist.refl _⟩
      rintro record rfl row stored sameTenant
      exact confined.2.1 row (same other foreign row stored sameTenant)
        (sameTenant.trans_ne foreign)
  · cases call with
    | searchVectors query =>
      intro result member
      have listed := (List.mem_insertionSort _).mp (List.mem_of_mem_take member)
      obtain ⟨record, wanted, rfl⟩ := List.mem_map.mp listed
      simp only [List.mem_filter, Bool.and_eq_true, decide_eq_true_eq] at wanted
      exact wanted.2.1.1.trans own ▸ safe.sound.vectors record wanted.1
    | upsertVector asker record => trivial
    | deleteByFactId asker factId => trivial
    | deleteByUser asker => trivial

theorem fulfils_events (safe : Safe engine chronicle tenant start world) {call : EventStoreCall}
    (confined : Confined engine chronicle tenant start (.events call))
    (logged : (⟨.events call, (MockMemoryEventStore.serve world.events call).1⟩ : EngineEvent) ∈
      chronicle.events) :
    Safe engine chronicle tenant start { world with
      events := (MockMemoryEventStore.serve world.events call).2 } ∧
      Promised engine chronicle tenant start (.events call)
        (MockMemoryEventStore.serve world.events call).1 := by
  have own : call.tenant = tenant := by
    cases call with
    | recordEvent asker event => exact confined.1
    | _ => exact confined
  constructor
  · refine ⟨{ safe.sound with events := fun event stored => ?_ }, fun other foreign => ?_⟩
    · cases call with
      | recordEvent asker new =>
        simp only [MockMemoryEventStore.serve, MockMemoryEventStore.recordEvent] at logged stored
        split at stored
        · exact safe.sound.events event stored
        · rename_i ownEvent
          rw [if_neg ownEvent] at logged
          obtain old | added := List.mem_append.mp stored
          · exact safe.sound.events event old
          · obtain rfl := List.mem_singleton.mp added
            obtain rfl : event.tenant = asker := not_not.mp ownEvent
            obtain rfl : event.tenant = tenant := own
            exact ⟨rfl, logged, confined.2⟩
      | listEvents query =>
        refine safe.sound.events event ?_
        simp only [MockMemoryEventStore.serve, MockMemoryEventStore.listEvents] at stored
        split at stored <;> exact stored
      | deleteEventsOlderThan asker cutoff dryRun =>
        refine safe.sound.events event ?_
        simp only [MockMemoryEventStore.serve, MockMemoryEventStore.deleteEventsOlderThan] at stored
        split at stored
        · exact stored
        · exact (List.mem_filter.mp stored).1
    · exact (safe.untouched other foreign).trans
        ⟨rfl, rfl, eventsOf_serve world own foreign, List.Sublist.refl _⟩
  · cases call with
    | listEvents query =>
      cases served : (MockMemoryEventStore.serve world.events (.listEvents query)).1 with
      | error error => exact promised_error _ _
      | ok events =>
        intro event member
        simp only [MockMemoryEventStore.serve, MockMemoryEventStore.listEvents] at served
        split at served
        · cases served
        · obtain rfl := Except.ok.inj served
          have listed := (List.mem_insertionSort _).mp (List.mem_of_mem_take member)
          simp only [List.mem_filter, MockMemoryEventStore.matchesQuery, Bool.and_eq_true,
            decide_eq_true_eq] at listed
          exact listed.2.1.1.1.1.1.1.trans own ▸ safe.sound.events event listed.1
    | recordEvent asker event => trivial
    | deleteEventsOlderThan asker cutoff dryRun => trivial

theorem fulfils_cache (safe : Safe engine chronicle tenant start world) (now : Instant)
    {call : CacheCall} (confined : Confined engine chronicle tenant start (.cache call)) :
    Safe engine chronicle tenant start { world with cache := (world.cache.serve now call).2 } ∧
      Promised engine chronicle tenant start (.cache call) (world.cache.serve now call).1 := by
  have own : call.tenant = tenant := by
    cases call with
    | set key entry => exact confined.1
    | _ => exact confined
  constructor
  · refine ⟨{ safe.sound with cached := fun row stored => ?_ }, fun other foreign => ?_⟩
    · cases call with
      | get key => exact safe.sound.cached row (InMemoryContextCache.mem_get stored)
      | getAny key => exact safe.sound.cached row (InMemoryContextCache.mem_getAny stored)
      | set key entry =>
        obtain rfl | old := InMemoryContextCache.mem_set stored
        · exact (show key.tenant = tenant from own) ▸ confined.2
        · exact safe.sound.cached row old.1
      | invalidateUser orgId userId =>
        exact safe.sound.cached row
          ((InMemoryContextCache.mem_invalidateUser _ _ _).mp stored).1
    · exact (safe.untouched other foreign).trans
        ⟨rfl, rfl, rfl, cachedOf_serve world now own foreign⟩
  · cases call with
    | get key =>
      simp only [InMemoryContextCache.serve]
      cases hit : (world.cache.get now key).1 with
      | none => trivial
      | some entry =>
        obtain rfl : key.tenant = tenant := own
        exact safe.sound.cached _ (InMemoryContextCache.get_some hit)
    | getAny key =>
      simp only [InMemoryContextCache.serve]
      cases hit : (world.cache.getAny now key).1 with
      | none => trivial
      | some entry =>
        obtain rfl : key.tenant = tenant := own
        exact safe.sound.cached _ (InMemoryContextCache.getAny_some hit)
    | set key entry => trivial
    | invalidateUser orgId userId => trivial

/-- A world that differs in its locks alone is as safe. -/
theorem Safe.sameStores (safe : Safe engine chronicle tenant start world) {after : World}
    (facts : after.facts = world.facts) (vectors : after.vectors = world.vectors)
    (events : after.events = world.events) (cache : after.cache = world.cache) :
    Safe engine chronicle tenant start after where
  sound := by
    constructor
    · exact facts ▸ safe.sound.facts
    · exact vectors ▸ safe.sound.vectors
    · exact events ▸ safe.sound.events
    · exact cache ▸ safe.sound.cached
  untouched other foreign := by
    refine (safe.untouched other foreign).trans ?_
    constructor
    · rw [World.factsOf, facts, World.factsOf]
    · rw [World.vectorsOf, vectors, World.vectorsOf]
    · rw [World.eventsOf, events, World.eventsOf]
    · rw [World.cachedOf, cache, World.cachedOf]

/-- A generated identifier is no other tenant's, since the vectors of the others are as
they were. -/
theorem unclaimed_of_unused (safe : Safe engine chronicle tenant start world) {id : Uuid}
    (unused : world.Unused id) : Unclaimed start tenant id := by
  intro record stored foreign sameId
  have kept : record ∈ start.vectorsOf record.tenant :=
    List.mem_filter.mpr ⟨stored, decide_eq_true rfl⟩
  rw [← (safe.untouched record.tenant foreign).vectors] at kept
  have present := (Table.contains_iff world.vectors id).mpr
    ⟨record, (List.mem_filter.mp kept).1, sameId⟩
  rw [unused.2.1] at present
  nomatch present

/-- The world keeps an operation's tenant apart from the others, as long as the operation
keeps to its calls. -/
theorem isolation_fulfilled (safe : Safe engine chronicle tenant start world) {port : Port}
    {choice : Choice} (confined : Confined engine chronicle tenant start port)
    (fresh : freshUuids world port choice)
    (logged : (⟨port, (World.serve engine.platform choice port world).1⟩ : EngineEvent) ∈
      chronicle.events) :
    Safe engine chronicle tenant start (World.serve engine.platform choice port world).2 ∧
      Promised engine chronicle tenant start port
        (World.serve engine.platform choice port world).1 := by
  cases port with
  | facts call =>
    simp only [World.serve, World.unlessFault] at logged ⊢
    cases fault : choice.fault with
    | some error => exact ⟨safe, promised_error _ _⟩
    | none =>
      rw [fault] at logged
      exact fulfils_facts safe confined logged
  | vectors call =>
    simp only [World.serve, World.unlessFault]
    cases fault : choice.fault with
    | some error => exact ⟨safe, promised_error _ _⟩
    | none => exact fulfils_vectors safe confined
  | events call =>
    simp only [World.serve, World.unlessFault] at logged ⊢
    cases fault : choice.fault with
    | some error => exact ⟨safe, promised_error _ _⟩
    | none =>
      rw [fault] at logged
      exact fulfils_events safe confined logged
  | provider call =>
    simp only [World.serve, World.unlessFault]
    cases choice.fault <;> exact ⟨safe, trivial⟩
  | system call =>
    cases call with
    | now => exact ⟨safe, trivial⟩
    | newUuid => exact ⟨safe, unclaimed_of_unused safe fresh⟩
    | setUsageAttribution orgId userId => exact ⟨safe.sameStores rfl rfl rfl rfl, trivial⟩
  | cache call =>
    simp only [World.serve, World.unlessFault]
    cases fault : choice.fault with
    | some error => exact ⟨safe, promised_error _ _⟩
    | none => exact fulfils_cache safe choice.now confined
  | coordinator call =>
    refine ⟨?_, trivial⟩
    cases call with
    | lockWithTimeout lock =>
      simp only [World.serve, World.serveCoordinator]
      split <;> exact safe.sameStores rfl rfl rfl rfl
    | tryStartRefresh key =>
      simp only [World.serve, World.serveCoordinator]
      split <;> exact safe.sameStores rfl rfl rfl rfl
    | _ => exact safe.sameStores rfl rfl rfl rfl

end Fulfilment

end Memcore
