import Memcore.Stores.SqlTexts
import Memcore.Foundations.SqlTables

/-!
# Locks of background jobs

A job of one kind runs under a lock that one owner is granted for a time. There is one
record for each kind. The in-memory store keeps records under their kind; the SQLite
store keeps rows of texts under the kind's name, and reads a record back by parsing the
texts of a row. The statements of one operation run in a transaction, so an operation
is atomic on either store. Failures of the connection and poisoned locks are out of
scope.
-/
namespace Memcore

open KeyedTables

inductive BackgroundJobKind where
  | memoryUsageSnapshot | providerUsageRetention | memoryRetention
  deriving DecidableEq

namespace BackgroundJobKind

def asStr : BackgroundJobKind → String
  | memoryUsageSnapshot => "MemoryUsageSnapshot"
  | providerUsageRetention => "ProviderUsageRetention"
  | memoryRetention => "MemoryRetention"

/-- The kinds under their name, as it is stored, as a path and in snake case. -/
def fromStr (value : String) : MemcoreResult BackgroundJobKind :=
  let name := Texts.trim value
  if name ∈ ["MemoryUsageSnapshot", "memory-usage-snapshot", "memory_usage_snapshot"] then
    .ok memoryUsageSnapshot
  else if name ∈ ["ProviderUsageRetention", "provider-usage-retention",
      "provider_usage_retention"] then .ok providerUsageRetention
  else if name ∈ ["MemoryRetention", "memory-retention", "memory_retention"] then
    .ok memoryRetention
  else .error (.validationError ("invalid job_kind: " ++ name))

theorem asStr_injective {left right : BackgroundJobKind} (same : left.asStr = right.asStr) :
    left = right := by
  cases left <;> cases right <;> simp_all [asStr]

/-- The stored name of a kind reads back. -/
theorem fromStr_asStr (kind : BackgroundJobKind) : fromStr kind.asStr = .ok kind := by
  cases kind <;> decide +kernel

end BackgroundJobKind

structure JobLockRecord where
  kind : BackgroundJobKind
  ownerId : String
  lockedUntil : Instant
  acquiredAt : Instant
  heartbeatAt : Option Instant
  deriving DecidableEq

structure AcquiredJobLock where
  kind : BackgroundJobKind
  ownerId : String
  lockedUntil : Instant
  deriving DecidableEq

/-- The longest duration of the calendar library, in nanoseconds. -/
def maxCalendarDuration : ℕ := (2 ^ 63 - 1) * 1000000

/-- When a lock that is taken now expires. A time to live that the calendar library
cannot hold counts as none. -/
def lockUntilFromTtl (now : Instant) (ttl : ℕ) : Instant :=
  if ttl ≤ maxCalendarDuration then now + ttl else now

/-- The operations of a store of locks. -/
structure BackgroundJobLockStore (σ : Type) where
  tryAcquireLock (now : Instant) (kind : BackgroundJobKind) (ownerId : String) (ttl : ℕ) :
    σ → MemcoreResult (Option AcquiredJobLock) × σ
  renewLock (now : Instant) (kind : BackgroundJobKind) (ownerId : String) (ttl : ℕ) :
    σ → MemcoreResult Bool × σ
  releaseLock (kind : BackgroundJobKind) (ownerId : String) : σ → MemcoreResult Bool × σ
  getLock (kind : BackgroundJobKind) : σ → MemcoreResult (Option JobLockRecord)

/-! ## In memory -/

abbrev JobLocks := Table BackgroundJobKind JobLockRecord JobLockRecord.kind

namespace MockBackgroundJobLockStore

def tryAcquireLock (now : Instant) (kind : BackgroundJobKind) (ownerId : String) (ttl : ℕ)
    (locks : JobLocks) : MemcoreResult (Option AcquiredJobLock) × JobLocks :=
  let lockedUntil := lockUntilFromTtl now ttl
  let granted := (.ok (some ⟨kind, ownerId, lockedUntil⟩),
    locks.put ⟨kind, ownerId, lockedUntil, now, none⟩)
  match locks.find? kind with
  | some existing =>
      if existing.lockedUntil > now ∧ existing.ownerId ≠ ownerId then (.ok none, locks)
      else granted
  | none => granted

def renewLock (now : Instant) (kind : BackgroundJobKind) (ownerId : String) (ttl : ℕ)
    (locks : JobLocks) : MemcoreResult Bool × JobLocks :=
  match locks.find? kind with
  | none => (.ok false, locks)
  | some lock =>
      if lock.ownerId ≠ ownerId then (.ok false, locks)
      else (.ok true, locks.put
        { lock with lockedUntil := lockUntilFromTtl now ttl, heartbeatAt := some now })

def releaseLock (kind : BackgroundJobKind) (ownerId : String) (locks : JobLocks) :
    MemcoreResult Bool × JobLocks :=
  if (locks.find? kind).map JobLockRecord.ownerId ≠ some ownerId then (.ok false, locks)
  else (.ok true, locks.retain fun lock => decide (lock.kind ≠ kind))

end MockBackgroundJobLockStore

def mockBackgroundJobLockStore : BackgroundJobLockStore JobLocks where
  tryAcquireLock := MockBackgroundJobLockStore.tryAcquireLock
  renewLock := MockBackgroundJobLockStore.renewLock
  releaseLock := MockBackgroundJobLockStore.releaseLock
  getLock kind locks := .ok (locks.find? kind)

/-! ## In SQLite -/

structure JobLockRow where
  kind : String
  ownerId : String
  lockedUntil : String
  acquiredAt : String
  heartbeatAt : Option String
  updatedAt : String
  deriving DecidableEq

abbrev JobLockRows := Table String JobLockRow JobLockRow.kind

namespace SqliteBackgroundJobLockStore

variable (texts : TimestampText)

def datetimeFromStr (value : String) : MemcoreResult Instant :=
  match texts.parseFromRfc3339 value with
  | .ok instant => .ok instant
  | .error error => .error (storageError "parse sqlite background job lock timestamp" error)

/-- A timestamp that may be absent. -/
def optionalDatetimeFromStr : Option String → MemcoreResult (Option Instant)
  | some value => (datetimeFromStr texts value).map some
  | none => .ok none

def rowToLock (row : JobLockRow) : MemcoreResult JobLockRecord := do
  let kind ← BackgroundJobKind.fromStr row.kind
  let lockedUntil ← datetimeFromStr texts row.lockedUntil
  let acquiredAt ← datetimeFromStr texts row.acquiredAt
  let heartbeatAt ← optionalDatetimeFromStr texts row.heartbeatAt
  return ⟨kind, row.ownerId, lockedUntil, acquiredAt, heartbeatAt⟩

/-- SELECT … WHERE kind = ?, at most one row. -/
def fetchLock (kind : BackgroundJobKind) (rows : JobLockRows) :
    MemcoreResult (Option JobLockRecord) :=
  match rows.find? kind.asStr with
  | some row => (rowToLock texts row).map some
  | none => .ok none

/-- Selection of the row of a kind. -/
def ofKind (kind : BackgroundJobKind) (row : JobLockRow) : Bool :=
  decide (row.kind = kind.asStr)

/-- Selection of the row of a kind, if an owner is recorded in it. -/
def ofOwner (kind : BackgroundJobKind) (ownerId : String) (row : JobLockRow) : Bool :=
  decide (row.kind = kind.asStr) && decide (row.ownerId = ownerId)

def tryAcquireLock (now : Instant) (kind : BackgroundJobKind) (ownerId : String) (ttl : ℕ)
    (rows : JobLockRows) : MemcoreResult (Option AcquiredJobLock) × JobLockRows :=
  let lockedUntil := lockUntilFromTtl now ttl
  let nowText := texts.toRfc3339 now
  let lockedUntilText := texts.toRfc3339 lockedUntil
  let granted := .ok (some ⟨kind, ownerId, lockedUntil⟩)
  match fetchLock texts kind rows with
  | .error error => (.error error, rows)
  | .ok (some existing) =>
      if existing.lockedUntil > now ∧ existing.ownerId ≠ ownerId then (.ok none, rows)
      else (granted, (SqlTables.update (ofKind kind) (fun row => { row with
        ownerId := ownerId
        lockedUntil := lockedUntilText
        acquiredAt := nowText
        heartbeatAt := none
        updatedAt := nowText }) (fun _ => rfl) rows).2)
  | .ok none =>
      match SqlTables.insert
        ⟨kind.asStr, ownerId, lockedUntilText, nowText, none, nowText⟩ rows with
      | some inserted => (granted, inserted)
      | none => (.error (storageError "insert sqlite background job lock"
          (uniqueConstraintFailed "background_job_locks.kind")), rows)

def renewLock (now : Instant) (kind : BackgroundJobKind) (ownerId : String) (ttl : ℕ)
    (rows : JobLockRows) : MemcoreResult Bool × JobLockRows :=
  let result := SqlTables.update (ofOwner kind ownerId) (fun row => { row with
    lockedUntil := texts.toRfc3339 (lockUntilFromTtl now ttl)
    heartbeatAt := some (texts.toRfc3339 now)
    updatedAt := texts.toRfc3339 now }) (fun _ => rfl) rows
  (.ok (decide (result.1 > 0)), result.2)

def releaseLock (kind : BackgroundJobKind) (ownerId : String) (rows : JobLockRows) :
    MemcoreResult Bool × JobLockRows :=
  let result := SqlTables.delete (ofOwner kind ownerId) rows
  (.ok (decide (result.1 > 0)), result.2)

end SqliteBackgroundJobLockStore

def sqliteBackgroundJobLockStore (texts : TimestampText) : BackgroundJobLockStore JobLockRows where
  tryAcquireLock := SqliteBackgroundJobLockStore.tryAcquireLock texts
  renewLock := SqliteBackgroundJobLockStore.renewLock texts
  releaseLock := SqliteBackgroundJobLockStore.releaseLock
  getLock := SqliteBackgroundJobLockStore.fetchLock texts

end Memcore
