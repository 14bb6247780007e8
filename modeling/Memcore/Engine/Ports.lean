import Memcore.Context.Cache
import Memcore.Foundations.Interleaving
import Memcore.Stores.EventStore
import Memcore.Stores.VectorStore

/-!
# Ports of the engine

Everything the engine does to its surroundings is one of the calls below, each of
them atomic. The world answers them with the in-memory stores and the in-memory
cache. What the surroundings contribute to an answer, a fault included, is the
choice made for the call. A fault comes before any effect of the call, and the
clock, the generator of identifiers and the locks of the process have none.
-/
namespace Memcore

open KeyedTables Programs

inductive MessageRole where
  | user | assistant | system
  deriving DecidableEq

structure MemoryMessage where
  role : MessageRole
  content : String

/-- The calls of the language model and of the embedding model. -/
inductive ProviderCall where
  | extractFacts (tenant : TenantContext) (messages : List MemoryMessage) (metadata : Value)
  | classifyFactOperation (tenant : TenantContext) (candidateFact : CandidateFact)
      (existingFacts : List Fact)
  | summarizeMemory (tenant : TenantContext) (facts : List Fact) (maxTokens : Option ℕ)
  | embedText (text : String)

abbrev ProviderCall.Answer : ProviderCall → Type
  | extractFacts _ _ _ => List CandidateFact
  | classifyFactOperation _ _ _ => FactOperationDecision
  | summarizeMemory _ _ _ => String
  | embedText _ => List ℚ

/-- The clock, the generator of identifiers and the slot that attributes provider
usage to a user. -/
inductive SystemCall where
  | now
  | newUuid
  | setUsageAttribution (orgId : String) (userId : Option String)

abbrev SystemCall.Answer : SystemCall → Type
  | now => Instant
  | newUuid => Uuid
  | setUsageAttribution _ _ => Unit

/-- A mutex, known by the order in which the mutexes were created. -/
abbrev LockId := ℕ

/-- The critical sections of the cache coordinator, and two marks around each
computation that the coordinator runs for a key. -/
inductive CoordinatorCall where
  | lockForKey (key : ContextCacheKey)
  | tryLock (lock : LockId)
  | lock (lock : LockId)
  | lockWithTimeout (lock : LockId)
  | unlock (lock : LockId)
  | cleanupInflightLock (key : ContextCacheKey) (lock : LockId)
  | tryStartRefresh (key : ContextCacheKey)
  | finishRefresh (key : ContextCacheKey)
  | computeBegins (key : ContextCacheKey)
  | computeEnds (key : ContextCacheKey)

abbrev CoordinatorCall.Answer : CoordinatorCall → Type
  | lockForKey _ => LockId
  | tryLock _ => Bool
  | lock _ => Unit
  | lockWithTimeout _ => Bool
  | unlock _ => Unit
  | cleanupInflightLock _ _ => Unit
  | tryStartRefresh _ => Bool
  | finishRefresh _ => Unit
  | computeBegins _ => Unit
  | computeEnds _ => Unit

inductive Port where
  | facts (call : FactStoreCall)
  | vectors (call : VectorStoreCall)
  | events (call : EventStoreCall)
  | provider (call : ProviderCall)
  | system (call : SystemCall)
  | cache (call : CacheCall)
  | coordinator (call : CoordinatorCall)

abbrev Port.Answer : Port → Type
  | facts call => call.Answer
  | vectors call => call.Answer
  | events call => call.Answer
  | provider call => call.Answer
  | system call => call.Answer
  | cache call => call.Answer
  | coordinator call => call.Answer

abbrev enginePorts : Interface := ⟨Port, Port.Answer⟩

/-- A computation of the engine. -/
abbrev EngineProgram (α : Type) := Program enginePorts MemcoreError α

abbrev EngineEvent := Event enginePorts MemcoreError

/-! ## The world -/

/-- The mutexes of the coordinator: the one that each key is mapped to, how many
were ever created, and which are locked. -/
structure InflightLocks where
  inflight : Table ContextCacheKey (ContextCacheKey × LockId) Prod.fst
  created : ℕ
  locked : List LockId

structure World where
  facts : MockFactStore
  vectors : MockVectorStore
  events : MockMemoryEventStore
  cache : InMemoryContextCache
  locks : InflightLocks
  refreshInflight : List ContextCacheKey
  usageAttribution : Option (String × Option String)

/-- Empty stores and an empty cache for a number of entries. -/
def World.empty (maxEntries : ℕ) : World where
  facts := .empty
  vectors := .empty
  events := []
  cache := .new maxEntries
  locks := ⟨.empty, 0, []⟩
  refreshInflight := []
  usageAttribution := none

/-- What the surroundings contribute to the answer of one call. -/
structure Choice where
  fault : Option MemcoreError := none
  now : Instant := 0
  uuid : Uuid := 0
  candidates : List CandidateFact := []
  decision : FactOperationDecision := ⟨.noOp, none, none, 1⟩
  summary : String := ""
  embedding : List ℚ := []
  timedOut : Bool := false

namespace World

/-- The answers of the models are the choices of the surroundings. -/
def serveProvider (choice : Choice) : (call : ProviderCall) → MemcoreResult call.Answer
  | .extractFacts _ _ _ => .ok choice.candidates
  | .classifyFactOperation _ _ _ => .ok choice.decision
  | .summarizeMemory _ _ _ => .ok choice.summary
  | .embedText _ => .ok choice.embedding

def serveSystem (choice : Choice) (world : World) :
    (call : SystemCall) → MemcoreResult call.Answer × World
  | .now => (.ok choice.now, world)
  | .newUuid => (.ok choice.uuid, world)
  | .setUsageAttribution orgId userId =>
      (.ok (), { world with usageAttribution := some (orgId, userId) })

/-- The mutex of a key, created when the key has none. -/
def lockForKey (locks : InflightLocks) (key : ContextCacheKey) : LockId × InflightLocks :=
  match locks.inflight.find? key with
  | some row => (row.2, locks)
  | none => (locks.created, {
      inflight := locks.inflight.put (key, locks.created)
      created := locks.created + 1
      locked := locks.locked })

/-- Unmap a key, if it is still mapped to the given mutex. -/
def cleanupInflightLock (locks : InflightLocks) (key : ContextCacheKey) (lock : LockId) :
    InflightLocks :=
  if locks.inflight.find? key = some (key, lock) then
    { locks with inflight := locks.inflight.retain fun row => decide (row.1 ≠ key) }
  else locks

def serveCoordinator (choice : Choice) (world : World) :
    (call : CoordinatorCall) → MemcoreResult call.Answer × World
  | .lockForKey key =>
      (.ok (lockForKey world.locks key).1,
        { world with locks := (lockForKey world.locks key).2 })
  | .tryLock lock => (.ok (decide (lock ∉ world.locks.locked)), world)
  | .lock lock => (.ok (), { world with
      locks := { world.locks with locked := lock :: world.locks.locked } })
  | .lockWithTimeout lock =>
      if choice.timedOut then (.ok false, world)
      else (.ok true, { world with
        locks := { world.locks with locked := lock :: world.locks.locked } })
  | .unlock lock => (.ok (), { world with
      locks := { world.locks with locked := world.locks.locked.filter (· ≠ lock) } })
  | .cleanupInflightLock key lock => (.ok (), { world with
      locks := cleanupInflightLock world.locks key lock })
  | .tryStartRefresh key =>
      if key ∈ world.refreshInflight then (.ok false, world)
      else (.ok true, { world with refreshInflight := key :: world.refreshInflight })
  | .finishRefresh key => (.ok (), { world with
      refreshInflight := world.refreshInflight.filter (· ≠ key) })
  | .computeBegins _ => (.ok (), world)
  | .computeEnds _ => (.ok (), world)

/-- A call may be answered, unless it has to wait for a mutex. -/
def ready (choice : Choice) (port : Port) (world : World) : Bool :=
  match port with
  | .coordinator (.lock lock) => decide (lock ∉ world.locks.locked)
  | .coordinator (.lockWithTimeout lock) =>
      choice.timedOut || decide (lock ∉ world.locks.locked)
  | _ => true

/-- A fault takes the place of the answer and of the effect. -/
def unlessFault {α : Type} (choice : Choice) (world : World)
    (served : MemcoreResult α × World) : MemcoreResult α × World :=
  match choice.fault with
  | some error => (.error error, world)
  | none => served

/-- The answer to a call and the world after it. -/
def serve (platform : Platform) (choice : Choice) :
    (port : Port) → World → MemcoreResult port.Answer × World
  | .facts call, world => unlessFault choice world
      ((world.facts.serve call).1, { world with facts := (world.facts.serve call).2 })
  | .vectors call, world =>
      let served := MockVectorStore.serve platform.cosineSimilarity world.vectors call
      unlessFault choice world (served.1, { world with vectors := served.2 })
  | .events call, world =>
      let served := MockMemoryEventStore.serve world.events call
      unlessFault choice world (served.1, { world with events := served.2 })
  | .provider call, world => unlessFault choice world (serveProvider choice call, world)
  | .system call, world => world.serveSystem choice call
  | .cache call, world =>
      let served := world.cache.serve choice.now call
      unlessFault choice world (served.1, { world with cache := served.2 })
  | .coordinator call, world => world.serveCoordinator choice call

end World

/-- The world as a server of the engine's calls. -/
def engineServer (platform : Platform) : Server enginePorts MemcoreError World Choice :=
  ⟨World.ready, fun choice port world => World.serve platform choice port world⟩

/-- An identifier that nothing stored has. -/
def World.Unused (world : World) (id : Uuid) : Prop :=
  world.facts.facts.contains id = false ∧ world.vectors.contains id = false ∧
    ∀ event ∈ world.events, event.id ≠ id

instance (world : World) (id : Uuid) : Decidable (world.Unused id) :=
  inferInstanceAs (Decidable (_ ∧ _ ∧ _))

/-! ## Which choices are admitted -/

/-- Any choice at all. -/
def anyChoice : World → Port → Choice → Prop := fun _ _ _ => True

/-- No call fails on its own. -/
def faultless : World → Port → Choice → Prop := fun _ _ choice => choice.fault = none

/-- Generated identifiers are new. -/
def freshUuids : World → Port → Choice → Prop := fun world port choice =>
  match port with
  | .system .newUuid => world.Unused choice.uuid
  | _ => True

/-- The calls of the cache do not fail on their own. -/
def cacheFaultless : World → Port → Choice → Prop := fun _ port choice =>
  match port with
  | .cache _ => choice.fault = none
  | _ => True

/-- No call fails on its own, and generated identifiers are new. -/
def undisturbed : World → Port → Choice → Prop := fun world port choice =>
  choice.fault = none ∧ freshUuids world port choice

instance : ∀ world port choice, Decidable (anyChoice world port choice) :=
  fun _ _ _ => inferInstanceAs (Decidable True)

instance : ∀ world port choice, Decidable (faultless world port choice) :=
  fun _ _ choice => inferInstanceAs (Decidable (choice.fault = none))

instance : ∀ world port choice, Decidable (freshUuids world port choice) := by
  intro world port choice
  unfold freshUuids
  split <;> infer_instance

instance : ∀ world port choice, Decidable (undisturbed world port choice) :=
  fun _ _ _ => inferInstanceAs (Decidable (_ ∧ _))

instance : ∀ world port choice, Decidable (cacheFaultless world port choice) := by
  intro world port choice
  unfold cacheFaultless
  split <;> infer_instance

/-! ## The calls under their names -/

namespace Ports

/-- Make one call of the engine. -/
def perform (port : Port) : EngineProgram port.Answer := @Program.call enginePorts MemcoreError port

def insertFact (tenant : TenantContext) (fact : Fact) : EngineProgram Fact :=
  perform (.facts (.insertFact tenant fact))

def updateFact (tenant : TenantContext) (fact : Fact) : EngineProgram Fact :=
  perform (.facts (.updateFact tenant fact))

def getFact (tenant : TenantContext) (factId : Uuid) : EngineProgram (Option Fact) :=
  perform (.facts (.getFact tenant factId))

def searchFacts (query : FactSearchQuery) : EngineProgram (List Fact) :=
  perform (.facts (.searchFacts query))

def softDeleteFact (tenant : TenantContext) (factId : Uuid) : EngineProgram Unit :=
  perform (.facts (.softDeleteFact tenant factId))

def deleteUserData (tenant : TenantContext) : EngineProgram Unit :=
  perform (.facts (.deleteUserData tenant))

def deleteFactsOlderThan (tenant : TenantContext) (cutoff : Instant) (dryRun : Bool) :
    EngineProgram RetentionPruneResult :=
  perform (.facts (.deleteFactsOlderThan tenant cutoff dryRun))

def upsertVector (tenant : TenantContext) (record : VectorRecord) : EngineProgram Unit :=
  perform (.vectors (.upsertVector tenant record))

def searchVectors (query : VectorSearchQuery) : EngineProgram (List VectorSearchResult) :=
  perform (.vectors (.searchVectors query))

def deleteByFactId (tenant : TenantContext) (factId : Uuid) : EngineProgram Unit :=
  perform (.vectors (.deleteByFactId tenant factId))

def deleteByUser (tenant : TenantContext) : EngineProgram Unit :=
  perform (.vectors (.deleteByUser tenant))

def recordEvent (tenant : TenantContext) (event : MemoryEvent) : EngineProgram MemoryEvent :=
  perform (.events (.recordEvent tenant event))

def listEvents (query : MemoryEventQuery) : EngineProgram (List MemoryEvent) :=
  perform (.events (.listEvents query))

def deleteEventsOlderThan (tenant : TenantContext) (cutoff : Instant) (dryRun : Bool) :
    EngineProgram ℕ :=
  perform (.events (.deleteEventsOlderThan tenant cutoff dryRun))

def extractFacts (tenant : TenantContext) (messages : List MemoryMessage) (metadata : Value) :
    EngineProgram (List CandidateFact) :=
  perform (.provider (.extractFacts tenant messages metadata))

def classifyFactOperation (tenant : TenantContext) (candidateFact : CandidateFact)
    (existingFacts : List Fact) : EngineProgram FactOperationDecision :=
  perform (.provider (.classifyFactOperation tenant candidateFact existingFacts))

def summarizeMemory (tenant : TenantContext) (facts : List Fact) (maxTokens : Option ℕ) :
    EngineProgram String :=
  perform (.provider (.summarizeMemory tenant facts maxTokens))

def embedText (text : String) : EngineProgram (List ℚ) :=
  perform (.provider (.embedText text))

def now : EngineProgram Instant := perform (.system .now)

def newUuid : EngineProgram Uuid := perform (.system .newUuid)

def setUsageAttribution (orgId : String) (userId : Option String) : EngineProgram Unit :=
  perform (.system (.setUsageAttribution orgId userId))

def cacheGet (key : ContextCacheKey) : EngineProgram (Option CachedContextEntry) :=
  perform (.cache (.get key))

def cacheGetAny (key : ContextCacheKey) : EngineProgram (Option CachedContextEntry) :=
  perform (.cache (.getAny key))

def cacheSet (key : ContextCacheKey) (entry : CachedContextEntry) : EngineProgram Unit :=
  perform (.cache (.set key entry))

def invalidateUser (orgId userId : String) : EngineProgram ℕ :=
  perform (.cache (.invalidateUser orgId userId))

def coordinate (call : CoordinatorCall) : EngineProgram call.Answer :=
  perform (.coordinator call)

end Ports

end Memcore
