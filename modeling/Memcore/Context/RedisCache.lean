import Memcore.Context.Cache
import Memcore.Foundations.ExpiringKeys
import Memcore.Foundations.Interleaving
import Memcore.Stores.SqlTexts

/-!
# The context cache in Redis

Entries are texts under keys of their own. A set for each user lists the keys of the user's
entries, so that they can be deleted together. Each command is atomic and several clients
send theirs in any order; the commands of a pipeline are sent together but executed one by
one. A command may fail, before or after it has taken effect.

The writer of a text is a mark that no command reads.
-/
namespace Memcore

open ExpiringKeys Programs

/-! ## Keys -/

/-- A key prefix without surrounding whitespace, or the usual one. -/
def sanitizeKeyPrefix (keyPrefix : String) : String :=
  if Texts.trim keyPrefix = "" then "memcore" else Texts.trim keyPrefix

section Keys

variable (sha256Hex : String → String)

def redisContextCacheKey (keyPrefix : String) (key : ContextCacheKey) : String :=
  sanitizeKeyPrefix keyPrefix ++ ":context:" ++ sha256Hex key.orgId ++ ":" ++
    sha256Hex key.userId ++ ":" ++ key.queryHash ++ ":" ++ key.optionsHash

def redisContextIndexKey (keyPrefix orgId userId : String) : String :=
  sanitizeKeyPrefix keyPrefix ++ ":context:index:" ++ sha256Hex orgId ++ ":" ++ sha256Hex userId

end Keys

/-! ## Commands -/

/-- The text of an entry, and the client that has written it. -/
structure CachedText where
  payload : String
  writer : ℕ
  deriving DecidableEq

abbrev RedisStore := Store String CachedText

inductive RedisCall where
  | setEx (key payload : String) (ttl : ℕ)
  | sAdd (key member : String)
  | expire (key : String) (ttl : ℤ)
  | sMembers (key : String)
  | del (key : String)
  | get (key : String)
  deriving DecidableEq

abbrev RedisCall.Reply : RedisCall → Type
  | setEx _ _ _ => Unit
  | sAdd _ _ => Unit
  | expire _ _ => Bool
  | sMembers _ => List String
  | del _ => Bool
  | get _ => Option String

/-- The reply to a command may be an error, which the program handles itself. -/
abbrev redisPorts : Interface := ⟨RedisCall, fun call => Except String call.Reply⟩

/-- The client that sends a command, the time since the last one, an order of the members of
a set, and the failure that the command ends in, if any. -/
structure RedisChoice where
  client : ℕ
  elapsed : ℕ
  listing : List String
  failure : Option String
  takesEffect : Bool

/-- The command changes the store: it succeeds, or fails too late. -/
def RedisChoice.applies (choice : RedisChoice) : Bool :=
  choice.failure.isNone || choice.takesEffect

def redisEffect (choice : RedisChoice) :
    (call : RedisCall) → RedisStore → Except String call.Reply × RedisStore
  | .setEx key payload ttl, store => store.setEx key ⟨payload, choice.client⟩ ttl
  | .sAdd key member, store => store.sAdd key member
  | .expire key ttl, store => store.expire key ttl
  | .sMembers key, store => ((store.sMembers key).map fun _ => choice.listing, store)
  | .del key, store => (.ok (store.del key).1, (store.del key).2)
  | .get key, store => ((store.get key).map (Option.map CachedText.payload), store)

/-- Members are listed in any order. -/
def listsMembers (choice : RedisChoice) : RedisCall → RedisStore → Bool
  | .sMembers key, store =>
      match (store.advance choice.elapsed).sMembers key with
      | .ok members => choice.listing.isPerm members
      | .error _ => true
  | _, _ => true

def redisServer : Server redisPorts MemcoreError RedisStore RedisChoice where
  ready := listsMembers
  serve choice call store :=
    let now := store.advance choice.elapsed
    let effect := redisEffect choice call now
    (.ok (choice.failure.elim effect.1 .error), if choice.applies then effect.2 else now)

/-! ## The cache -/

/-- The texts of entries in JSON. -/
structure CachedEntryTexts where
  toString : CachedContextEntry → Except String String
  fromStr : String → Except String CachedContextEntry

structure RedisContextCache where
  keyPrefix : String
  ttlSeconds : ℕ

abbrev RedisProgram (α : Type) := Program redisPorts MemcoreError α

def redisCall (request : RedisCall) : RedisProgram (Except String request.Reply) :=
  @Program.call redisPorts MemcoreError request

/-- A command whose failure ends the operation. -/
def redisCommand (context : String) (request : RedisCall) : RedisProgram request.Reply := do
  let reply ← redisCall request
  .check (reply.mapError (storageError context))

/-- Whole seconds until the entry is fully expired, at least one. -/
def redisEntryTtlSeconds (entry : CachedContextEntry) (defaultTtlSeconds : ℕ) (now : Instant) :
    ℕ :=
  if entry.effectiveStaleUntil > now then
    max ((entry.effectiveStaleUntil - now) / 1000000000).toNat 1
  else max defaultTtlSeconds 1

/-- Delete keys in one pipeline, which goes on after a failure and reports the first. -/
def deletePipeline : List String → RedisProgram (Except String Unit)
  | [] => pure (.ok ())
  | key :: rest => do
      let reply ← redisCall (.del key)
      let others ← deletePipeline rest
      pure (match reply with
        | .ok _ => others
        | .error error => .error error)

namespace RedisContextCache

variable (sha256Hex : String → String) (texts : CachedEntryTexts) (cache : RedisContextCache)

def entryKey (key : ContextCacheKey) : String :=
  redisContextCacheKey sha256Hex cache.keyPrefix key

def indexKey (orgId userId : String) : String :=
  redisContextIndexKey sha256Hex cache.keyPrefix orgId userId

/-- The entry of a key that is not fully expired. An expired one is deleted. -/
def getAny (key : ContextCacheKey) (now : Instant) : RedisProgram (Option CachedContextEntry) := do
  let payload ← redisCommand "context cache get failed" (.get (cache.entryKey sha256Hex key))
  match payload with
  | none => return none
  | some payload =>
      let entry ← .check ((texts.fromStr payload).mapError
        (storageError "context cache deserialization failed"))
      if entry.isFullyExpired now then
        let _ ← redisCommand "context cache delete stale entry failed"
          (.del (cache.entryKey sha256Hex key))
        return none
      else return some entry

/-- The entry of a key, if it is fresh. -/
def get (key : ContextCacheKey) (now : Instant) : RedisProgram (Option CachedContextEntry) := do
  let entry ← cache.getAny sha256Hex texts key now
  return entry.filter fun entry => entry.isFresh now

def set (key : ContextCacheKey) (entry : CachedContextEntry) (now : Instant) :
    RedisProgram Unit := do
  let payload ← .check ((texts.toString entry).mapError
    (storageError "context cache serialization failed"))
  let ttl := redisEntryTtlSeconds entry cache.ttlSeconds now
  redisCommand "context cache set failed" (.setEx (cache.entryKey sha256Hex key) payload ttl)
  redisCommand "context cache index update failed"
    (.sAdd (cache.indexKey sha256Hex key.orgId key.userId) (cache.entryKey sha256Hex key))
  let _ ← redisCommand "context cache index ttl failed"
    (.expire (cache.indexKey sha256Hex key.orgId key.userId) (asI64 ttl))

def invalidateUser (orgId userId : String) : RedisProgram ℕ := do
  let members ← redisCommand "context cache index read failed"
    (.sMembers (cache.indexKey sha256Hex orgId userId))
  if members.isEmpty then
    let _ ← redisCommand "context cache index delete failed"
      (.del (cache.indexKey sha256Hex orgId userId))
    return 0
  else
    let replies ← deletePipeline (members ++ [cache.indexKey sha256Hex orgId userId])
    .check (replies.mapError (storageError "context cache invalidation failed"))
    return members.length

end RedisContextCache

/-- The operations that clients perform, with the time that each reads from its own clock. -/
inductive RedisRequest where
  | set (key : ContextCacheKey) (entry : CachedContextEntry) (now : Instant)
  | invalidateUser (orgId userId : String)
  | get (key : ContextCacheKey) (now : Instant)
  | getAny (key : ContextCacheKey) (now : Instant)

/-- What a client does, with its result left out. -/
def RedisRequest.program (sha256Hex : String → String) (texts : CachedEntryTexts)
    (cache : RedisContextCache) : RedisRequest → RedisProgram Unit
  | set key entry now => cache.set sha256Hex texts key entry now
  | invalidateUser orgId userId => do
      let _ ← cache.invalidateUser sha256Hex orgId userId
  | get key now => do
      let _ ← cache.get sha256Hex texts key now
  | getAny key now => do
      let _ ← cache.getAny sha256Hex texts key now

end Memcore
