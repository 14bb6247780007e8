import Memcore.Engine.Search

/-!
# Cached contexts and the cache coordinator

A context is looked up in the cache and computed if it is missing. With stampede
protection, one mutex for each key lets one caller compute while the others wait
and look again. A stale entry may be served while one background task refreshes
it. The guard of a mutex is released when the computation returns, in any way.
-/
namespace Memcore

open Ports Programs

variable (engine : MemoryEngine)

/-- Run a computation for a key, between its two marks. -/
def computeEntry (key : ContextCacheKey) (compute : EngineProgram CachedContextEntry) :
    EngineProgram (MemcoreResult CachedContextEntry) := do
  coordinate (.computeBegins key)
  let result ← compute.attempt
  coordinate (.computeEnds key)
  return result

/-- Compute without any coordination and store the result. -/
def computeUncoordinated (key : ContextCacheKey) (compute : EngineProgram CachedContextEntry)
    (isRefresh : Bool) : EngineProgram (CachedContextEntry × ContextCacheUsage) := do
  match ← computeEntry key compute with
  | .ok entry =>
      cacheSet key entry
      return (entry, if isRefresh then .hitAtOnce engine.contextCacheConfig
        else .miss engine.contextCacheConfig)
  | .error error => Program.fail error

/-- What the holder of a key's mutex does: look again, and compute if need be. The
mutex is unmapped after a hit, after a store and after a failed computation, but
not after a failure of the cache. -/
def computeHolding (key : ContextCacheKey) (compute : EngineProgram CachedContextEntry)
    (isRefresh waitedForInflight : Bool) (lock : LockId) :
    EngineProgram (CachedContextEntry × ContextCacheUsage) := do
  match ← cacheGet key with
  | some entry =>
      coordinate (.cleanupInflightLock key lock)
      return (entry, .hitWithWait engine.contextCacheConfig waitedForInflight)
  | none =>
      match ← computeEntry key compute with
      | .ok entry =>
          cacheSet key entry
          coordinate (.cleanupInflightLock key lock)
          return (entry, if isRefresh then .hitAtOnce engine.contextCacheConfig
            else .miss engine.contextCacheConfig)
      | .error error =>
          coordinate (.cleanupInflightLock key lock)
          Program.fail error

/-- Release the mutex when the computation under it has returned. -/
def releasing {α : Type} (lock : LockId) (held : EngineProgram α) : EngineProgram α := do
  let outcome ← held.attempt
  coordinate (.unlock lock)
  Program.check outcome

/-- Take the mutex of the key. Only a caller that finds it taken waits with a time
limit. -/
def acquire (lock : LockId) : EngineProgram Bool := do
  let free ← coordinate (.tryLock lock)
  if free then
    coordinate (.lock lock)
    return false
  else
    let acquired ← coordinate (.lockWithTimeout lock)
    if acquired then return true
    else Program.fail (.timeout "timed out waiting for context cache computation")

def computeWithStampede (key : ContextCacheKey) (compute : EngineProgram CachedContextEntry)
    (isRefresh : Bool) : EngineProgram (CachedContextEntry × ContextCacheUsage) := do
  if !engine.contextCacheConfig.stampedeProtectionActive then
    computeUncoordinated engine key compute isRefresh
  else
    let lock ← coordinate (.lockForKey key)
    let waitedForInflight ← acquire lock
    releasing lock (computeHolding engine key compute isRefresh waitedForInflight lock)

/-- A stale entry that may be served, with the mark whether a refresh was started. -/
def staleEntry (key : ContextCacheKey) :
    EngineProgram (Option (CachedContextEntry × ContextCacheUsage)) := do
  if engine.contextCacheConfig.staleWhileRevalidateActive then
    let current ← now
    match ← cacheGetAny key with
    | some entry =>
        if entry.isStaleServable current then
          let refreshStarted ← coordinate (.tryStartRefresh key)
          return some (entry, .staleHit engine.contextCacheConfig refreshStarted)
        else return none
    | none => return none
  else return none

def getOrCompute (key : ContextCacheKey) (compute : EngineProgram CachedContextEntry) :
    EngineProgram (CachedContextEntry × ContextCacheUsage) := do
  Program.check engine.contextCacheConfig.validate
  match ← cacheGet key with
  | some entry => return (entry, .hitAtOnce engine.contextCacheConfig)
  | none =>
      match ← staleEntry engine key with
      | some served => return served
      | none => computeWithStampede engine key compute false

/-- Recompute and store an entry; the key's refresh is over in any case. -/
def refreshEntry (key : ContextCacheKey) (compute : EngineProgram CachedContextEntry) :
    EngineProgram Unit := do
  let result ← (computeWithStampede engine key compute true).attempt
  coordinate (.finishRefresh key)
  match result with
  | .ok _ => return ()
  | .error error => Program.fail error

/-! ## The engine's operations -/

/-- The checks shared by a request for a context and its refresh. -/
def checkContextRequest (input : BuildContextInput) : EngineProgram Unit := do
  Program.check (validateTenant input.tenant)
  Program.check (validateQuery input.query)
  bindUsageAttribution engine input.tenant
  Program.check input.budget.validate
  Program.check (input.compressionOptions.validate input.budget.availableTokens)
  Program.check engine.contextCacheConfig.validate

/-- The computation that the coordinator is given. -/
def computeContext (input : BuildContextInput) : EngineProgram CachedContextEntry := do
  let output ← buildContextUncached engine input
  let current ← now
  return cachedEntryFromOutput output engine.contextCacheConfig current

def buildContext (input : BuildContextInput) : EngineProgram BuildContextOutput := do
  checkContextRequest engine input
  if !engine.contextCacheConfig.enabled then buildContextUncached engine input
  else
    let (entry, cacheUsage) ← getOrCompute engine (buildContextCacheKey engine.platform input)
      (computeContext engine input)
    return ⟨entry.context, entry.memories, entry.budget, entry.compression, cacheUsage⟩

/-- The background task that refreshes a stale context. -/
def refreshStaleContext (input : BuildContextInput) : EngineProgram Unit := do
  checkContextRequest engine input
  if !engine.contextCacheConfig.enabled then return ()
  else
    refreshEntry engine (buildContextCacheKey engine.platform input)
      (computeContext engine input)

end Memcore
