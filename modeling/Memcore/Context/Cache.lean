import Memcore.Context.Assembler
import Memcore.Foundations.KeyedTables

/-!
# The context cache

Assembled contexts are cached for each tenant, query and set of options. Entries
are fresh for a while and may then be served stale for another while. The cache
is process-local and bounded.
-/
namespace Memcore

open KeyedTables

structure ContextCacheConfig where
  enabled : Bool
  ttlSeconds : ℕ
  maxEntries : ℕ
  stampedeProtectionEnabled : Bool
  stampedeLockTimeoutSeconds : ℕ
  staleWhileRevalidateEnabled : Bool
  staleTtlSeconds : ℕ

namespace ContextCacheConfig

def default : ContextCacheConfig := ⟨false, 300, 1000, true, 30, false, 120⟩

def stampedeProtectionActive (config : ContextCacheConfig) : Bool :=
  config.enabled && config.stampedeProtectionEnabled

def staleWhileRevalidateActive (config : ContextCacheConfig) : Bool :=
  config.enabled && config.staleWhileRevalidateEnabled

def validate (config : ContextCacheConfig) : MemcoreResult Unit :=
  if !config.enabled then .ok ()
  else if config.ttlSeconds = 0 then
    .error (.validationError
      "context cache ttl_seconds must be greater than 0 when cache is enabled")
  else if config.maxEntries = 0 then
    .error (.validationError
      "context cache max_entries must be greater than 0 when cache is enabled")
  else if config.stampedeProtectionEnabled ∧ config.stampedeLockTimeoutSeconds = 0 then
    .error (.validationError ("context cache stampede lock timeout must be greater than 0 " ++
      "when stampede protection is enabled"))
  else if config.staleWhileRevalidateEnabled ∧ config.staleTtlSeconds = 0 then
    .error (.validationError ("context cache stale_ttl_seconds must be greater than 0 " ++
      "when stale-while-revalidate is enabled"))
  else .ok ()

end ContextCacheConfig

structure ContextCacheKey where
  orgId : String
  userId : String
  queryHash : String
  optionsHash : String
  deriving DecidableEq

/-- The tenant whose contexts are cached under a key. -/
def ContextCacheKey.tenant (key : ContextCacheKey) : TenantContext := ⟨key.orgId, key.userId⟩

structure CachedContextEntry where
  context : String
  memories : List MemorySearchResult
  createdAt : Instant
  expiresAt : Instant
  staleUntil : Option Instant
  budget : ContextBudgetUsage
  compression : ContextCompressionUsage

namespace CachedContextEntry

def isFresh (entry : CachedContextEntry) (now : Instant) : Bool :=
  decide (now < entry.expiresAt)

def effectiveStaleUntil (entry : CachedContextEntry) : Instant :=
  entry.staleUntil.getD entry.expiresAt

def isStaleServable (entry : CachedContextEntry) (now : Instant) : Bool :=
  !entry.isFresh now && decide (now ≤ entry.effectiveStaleUntil)

def isFullyExpired (entry : CachedContextEntry) (now : Instant) : Bool :=
  decide (entry.effectiveStaleUntil < now)

end CachedContextEntry

/-- What a caller is told about the cache's part in an answer. -/
structure ContextCacheUsage where
  enabled : Bool
  hit : Bool
  ttlSeconds : Option ℕ
  stampedeProtectionEnabled : Bool
  waitedForInflight : Bool
  staleWhileRevalidateEnabled : Bool
  servedStale : Bool
  refreshStarted : Bool

namespace ContextCacheUsage

def disabled : ContextCacheUsage := ⟨false, false, none, false, false, false, false, false⟩

def miss (config : ContextCacheConfig) : ContextCacheUsage where
  enabled := true
  hit := false
  ttlSeconds := some config.ttlSeconds
  stampedeProtectionEnabled := config.stampedeProtectionActive
  waitedForInflight := false
  staleWhileRevalidateEnabled := config.staleWhileRevalidateActive
  servedStale := false
  refreshStarted := false

def hitWithWait (config : ContextCacheConfig) (waitedForInflight : Bool) : ContextCacheUsage :=
  { miss config with hit := true, waitedForInflight := waitedForInflight }

/-- A hit without a wait: the constructor `hit` of the source, whose name the field has. -/
def hitAtOnce (config : ContextCacheConfig) : ContextCacheUsage := hitWithWait config false

def staleHit (config : ContextCacheConfig) (refreshStarted : Bool) : ContextCacheUsage :=
  { miss config with hit := true, servedStale := true, refreshStarted := refreshStarted }

end ContextCacheUsage

structure BuildContextOutput where
  context : String
  memories : List MemorySearchResult
  budget : ContextBudgetUsage
  compression : ContextCompressionUsage
  cache : ContextCacheUsage

/-! ## Keys and entries -/

/-- The name of a memory type in JSON. -/
def MemoryType.snakeCase : MemoryType → String
  | profile => "profile"
  | preference => "preference"
  | project => "project"
  | conversation => "conversation"
  | task => "task"
  | entity => "entity"
  | skill => "skill"
  | system => "system"

def ContextFormat.snakeCase : ContextFormat → String
  | plainText => "plain_text"
  | markdown => "markdown"
  | json => "json"

def ContextCompressionMode.snakeCase : ContextCompressionMode → String
  | disabled => "disabled"
  | simpleExtractive => "simple_extractive"
  | providerSummary => "provider_summary"

/-- The options that the cached text depends on, in the order of their fields. -/
def optionsFingerprintJson (platform : Platform) (input : BuildContextInput) : String :=
  let format := input.formatOptions
  let compression := input.compressionOptions
  (Value.object [
    ("max_memories", .integer input.maxMemories),
    ("memory_types", input.memoryTypes.elim .null fun types =>
      .array (types.map fun memoryType => .string memoryType.snakeCase)),
    ("include_metadata", .bool input.includeMetadata),
    ("max_tokens", .integer input.budget.maxTokens),
    ("reserved_tokens", .integer input.budget.reservedTokens),
    ("format_options", .object [
      ("format", .string format.format.snakeCase),
      ("section_by_memory_type", .bool format.sectionByMemoryType),
      ("include_memory_ids", .bool format.includeMemoryIds),
      ("include_memory_types", .bool format.includeMemoryTypes),
      ("include_scores", .bool format.includeScores),
      ("include_timestamps", .bool format.includeTimestamps),
      ("include_confidence", .bool format.includeConfidence),
      ("include_importance", .bool format.includeImportance)]),
    ("compression_options", .object [
      ("mode", .string compression.mode.snakeCase),
      ("summary_max_tokens", .integer compression.summaryMaxTokens),
      ("include_summary_section", .bool compression.includeSummarySection)])]).print
    platform.formatFloat

def buildContextCacheKey (platform : Platform) (input : BuildContextInput) : ContextCacheKey where
  orgId := input.tenant.orgId
  userId := input.tenant.userId
  queryHash := platform.stableSha256Hex input.query
  optionsHash := platform.stableSha256Hex (optionsFingerprintJson platform input)

def cachedEntryFromOutput (output : BuildContextOutput) (config : ContextCacheConfig)
    (now : Instant) : CachedContextEntry :=
  let expiresAt := now + seconds config.ttlSeconds
  { context := output.context
    memories := output.memories
    createdAt := now
    expiresAt := expiresAt
    staleUntil := if config.staleWhileRevalidateActive then
      some (expiresAt + seconds config.staleTtlSeconds) else none
    budget := output.budget
    compression := output.compression }

/-! ## The in-memory cache -/

/-- Entries by key, and the number that the cache may hold. -/
structure InMemoryContextCache where
  maxEntries : ℕ
  entries : Table ContextCacheKey (ContextCacheKey × CachedContextEntry) Prod.fst

/-- The calls of the context cache. -/
inductive CacheCall where
  | get (key : ContextCacheKey)
  | getAny (key : ContextCacheKey)
  | set (key : ContextCacheKey) (entry : CachedContextEntry)
  | invalidateUser (orgId userId : String)

abbrev CacheCall.Answer : CacheCall → Type
  | get _ => Option CachedContextEntry
  | getAny _ => Option CachedContextEntry
  | set _ _ => Unit
  | invalidateUser _ _ => ℕ

namespace InMemoryContextCache

/-- A cache without entries. It can always hold one. -/
def new (maxEntries : ℕ) : InMemoryContextCache := ⟨max maxEntries 1, Table.empty⟩

/-- Remove the entry of a key. -/
def remove (cache : InMemoryContextCache) (key : ContextCacheKey) : InMemoryContextCache :=
  { cache with entries := cache.entries.retain fun row => decide (row.1 ≠ key) }

/-- The fresh entry of a key; an entry past its stale window is dropped. -/
def get (cache : InMemoryContextCache) (now : Instant) (key : ContextCacheKey) :
    Option CachedContextEntry × InMemoryContextCache :=
  match cache.entries.find? key with
  | none => (none, cache)
  | some (_, entry) =>
      if entry.isFullyExpired now then (none, cache.remove key)
      else if entry.isFresh now then (some entry, cache)
      else (none, cache)

/-- The entry of a key, fresh or stale; past its stale window it is dropped. -/
def getAny (cache : InMemoryContextCache) (now : Instant) (key : ContextCacheKey) :
    Option CachedContextEntry × InMemoryContextCache :=
  match cache.entries.find? key with
  | none => (none, cache)
  | some (_, entry) =>
      if entry.isFullyExpired now then (none, cache.remove key)
      else (some entry, cache)

/-- The row created first, the earliest of several. -/
def oldest : List (ContextCacheKey × CachedContextEntry) →
    Option (ContextCacheKey × CachedContextEntry)
  | [] => none
  | row :: rows => match oldest rows with
      | none => some row
      | some other => if row.2.createdAt ≤ other.2.createdAt then some row else some other

/-- Drop the oldest entry as often as asked for. -/
def dropOldest (cache : InMemoryContextCache) : ℕ → InMemoryContextCache
  | 0 => cache
  | count + 1 => match oldest cache.entries.rows with
      | none => cache
      | some row => (cache.remove row.1).dropOldest count

/-- Drop the oldest entries until no more than allowed are left. -/
def evictOldest (cache : InMemoryContextCache) : InMemoryContextCache :=
  cache.dropOldest (cache.entries.rows.length - cache.maxEntries)

/-- Drop what has expired, store the entry, and make room. -/
def set (cache : InMemoryContextCache) (now : Instant) (key : ContextCacheKey)
    (entry : CachedContextEntry) : InMemoryContextCache :=
  evictOldest { cache with
    entries := (cache.entries.retain fun row => !row.2.isFullyExpired now).put (key, entry) }

/-- Drop every entry of a tenant. -/
def invalidateUser (cache : InMemoryContextCache) (tenant : TenantContext) :
    InMemoryContextCache :=
  { cache with entries := cache.entries.retain fun row => decide (row.1.tenant ≠ tenant) }

/-- The cache answers one call at a time. -/
def serve (cache : InMemoryContextCache) (now : Instant) :
    (call : CacheCall) → MemcoreResult call.Answer × InMemoryContextCache
  | .get key => (.ok (cache.get now key).1, (cache.get now key).2)
  | .getAny key => (.ok (cache.getAny now key).1, (cache.getAny now key).2)
  | .set key entry => (.ok (), cache.set now key entry)
  | .invalidateUser orgId userId =>
      let remaining := cache.invalidateUser ⟨orgId, userId⟩
      (.ok (cache.entries.rows.length - remaining.entries.rows.length), remaining)

/-! ## Which entries survive -/

theorem mem_remove (cache : InMemoryContextCache) (key : ContextCacheKey)
    (row : ContextCacheKey × CachedContextEntry) :
    row ∈ (cache.remove key).entries.rows ↔ row ∈ cache.entries.rows ∧ row.1 ≠ key := by
  simp [remove]

theorem mem_invalidateUser (cache : InMemoryContextCache) (tenant : TenantContext)
    (row : ContextCacheKey × CachedContextEntry) :
    row ∈ (cache.invalidateUser tenant).entries.rows ↔
      row ∈ cache.entries.rows ∧ row.1.tenant ≠ tenant := by
  simp [invalidateUser]

/-- A lookup answers with a stored entry. -/
theorem get_some {cache : InMemoryContextCache} {now : Instant} {key : ContextCacheKey}
    {entry : CachedContextEntry} (hit : (cache.get now key).1 = some entry) :
    (key, entry) ∈ cache.entries.rows := by
  unfold get at hit
  split at hit
  · simp at hit
  · rename_i other found
    obtain ⟨stored, rfl⟩ := (cache.entries.find?_eq_some key _).mp found
    split_ifs at hit
    obtain rfl := Option.some.inj hit
    exact stored

theorem getAny_some {cache : InMemoryContextCache} {now : Instant} {key : ContextCacheKey}
    {entry : CachedContextEntry} (hit : (cache.getAny now key).1 = some entry) :
    (key, entry) ∈ cache.entries.rows := by
  unfold getAny at hit
  split at hit
  · simp at hit
  · rename_i other found
    obtain ⟨stored, rfl⟩ := (cache.entries.find?_eq_some key _).mp found
    split_ifs at hit
    obtain rfl := Option.some.inj hit
    exact stored

/-- Lookups only ever drop entries. -/
theorem mem_get {cache : InMemoryContextCache} {now : Instant} {key : ContextCacheKey}
    {row : ContextCacheKey × CachedContextEntry}
    (kept : row ∈ (cache.get now key).2.entries.rows) : row ∈ cache.entries.rows := by
  unfold get at kept
  split at kept
  · exact kept
  · split_ifs at kept
    · exact ((mem_remove _ _ _).mp kept).1
    · exact kept
    · exact kept

theorem mem_getAny {cache : InMemoryContextCache} {now : Instant} {key : ContextCacheKey}
    {row : ContextCacheKey × CachedContextEntry}
    (kept : row ∈ (cache.getAny now key).2.entries.rows) : row ∈ cache.entries.rows := by
  unfold getAny at kept
  split at kept
  · exact kept
  · split_ifs at kept
    · exact ((mem_remove _ _ _).mp kept).1
    · exact kept

theorem mem_dropOldest {cache : InMemoryContextCache} {count : ℕ}
    {row : ContextCacheKey × CachedContextEntry}
    (kept : row ∈ (cache.dropOldest count).entries.rows) : row ∈ cache.entries.rows := by
  induction count generalizing cache with
  | zero => exact kept
  | succ count inductionHypothesis =>
    unfold dropOldest at kept
    split at kept
    · exact kept
    · exact ((mem_remove _ _ _).mp (inductionHypothesis kept)).1

/-- After a store an entry is the one stored, or an old one of another key. -/
theorem mem_set {cache : InMemoryContextCache} {now : Instant} {key : ContextCacheKey}
    {entry : CachedContextEntry} {row : ContextCacheKey × CachedContextEntry}
    (kept : row ∈ (cache.set now key entry).entries.rows) :
    row = (key, entry) ∨ row ∈ cache.entries.rows ∧ row.1 ≠ key := by
  have stored := mem_dropOldest kept
  simp only [Table.mem_put, Table.mem_retain] at stored
  cases stored with
  | inl new => exact .inl new
  | inr old => exact .inr ⟨old.1.1, old.2⟩

end InMemoryContextCache

end Memcore
