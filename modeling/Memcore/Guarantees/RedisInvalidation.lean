import Memcore.Context.RedisCache

/-!
# Entries in Redis can be invalidated

The index of a user lives as long as the entry that was written last asks for, whatever the
other entries ask for, and an invalidation deletes the index after the members that it has
read, whatever has been added since. In runs in which neither cuts an entry off, each entry
that was set stays a member of the index for as long as it is there, and an invalidation
that begins later removes it.
-/
namespace Memcore

open ExpiringKeys Programs

/-! ## Keys -/

section Keys

variable {sha256Hex : String → String} {cache : RedisContextCache}

theorem toList_entryKey (key : ContextCacheKey) : (cache.entryKey sha256Hex key).toList =
    (sanitizeKeyPrefix cache.keyPrefix ++ ":context:").toList ++
      ((sha256Hex key.orgId).toList ++ ':' :: ((sha256Hex key.userId).toList ++
        ':' :: (key.queryHash.toList ++ ':' :: key.optionsHash.toList))) := by
  simp [RedisContextCache.entryKey, redisContextCacheKey]

theorem toList_indexKey (orgId userId : String) : (cache.indexKey sha256Hex orgId userId).toList =
    (sanitizeKeyPrefix cache.keyPrefix ++ ":context:").toList ++
      ("index".toList ++
        ':' :: ((sha256Hex orgId).toList ++ ':' :: (sha256Hex userId).toList)) := by
  simp [RedisContextCache.indexKey, redisContextIndexKey]

/-- The first separator ends the first part, if there is none within it. -/
theorem split_at_colon {first second rest others : List Char} (firstClear : ':' ∉ first)
    (secondClear : ':' ∉ second) (same : first ++ ':' :: rest = second ++ ':' :: others) :
    first = second ∧ rest = others := by
  induction first generalizing second with
  | nil =>
    cases second with
    | nil => exact ⟨rfl, (List.cons.inj same).2⟩
    | cons character second =>
      obtain ⟨rfl, _⟩ := List.cons.inj same
      exact absurd List.mem_cons_self secondClear
  | cons character first inductionHypothesis =>
    cases second with
    | nil =>
      obtain ⟨rfl, _⟩ := List.cons.inj same
      exact absurd List.mem_cons_self firstClear
    | cons other second =>
      obtain ⟨rfl, tails⟩ := List.cons.inj same
      obtain ⟨rfl, rests⟩ := inductionHypothesis
        (fun member => firstClear (List.mem_cons_of_mem _ member))
        (fun member => secondClear (List.mem_cons_of_mem _ member)) tails
      exact ⟨rfl, rests⟩

/-- The key of an entry is not that of an index. -/
theorem entryKey_ne_indexKey (noColon : ∀ text, ':' ∉ (sha256Hex text).toList)
    (key : ContextCacheKey) (orgId userId : String) :
    cache.entryKey sha256Hex key ≠ cache.indexKey sha256Hex orgId userId := by
  intro same
  have characters := congrArg String.toList same
  rw [toList_entryKey, toList_indexKey, List.append_cancel_left_eq] at characters
  obtain ⟨_, users⟩ := split_at_colon (noColon _) (by decide) characters
  obtain ⟨_, hashes⟩ := split_at_colon (noColon _) (noColon _) users
  apply noColon userId
  rw [← hashes]
  exact List.mem_append_right _ List.mem_cons_self

/-- An entry's key tells in which index it is listed. -/
theorem indexKey_of_entryKey (noColon : ∀ text, ':' ∉ (sha256Hex text).toList)
    {key other : ContextCacheKey}
    (same : cache.entryKey sha256Hex key = cache.entryKey sha256Hex other) :
    cache.indexKey sha256Hex key.orgId key.userId =
      cache.indexKey sha256Hex other.orgId other.userId := by
  have characters := congrArg String.toList same
  rw [toList_entryKey, toList_entryKey, List.append_cancel_left_eq] at characters
  obtain ⟨orgs, rest⟩ := split_at_colon (noColon _) (noColon _) characters
  obtain ⟨users, _⟩ := split_at_colon (noColon _) (noColon _) rest
  apply String.toList_inj.mp
  rw [toList_indexKey, toList_indexKey, orgs, users]

end Keys

/-! ## How far an operation has come -/

/-- A set has written its entry, listed it and then prolonged the index. An invalidation
deletes what it has read, with or without a failure so far. -/
inductive RedisStage where
  | start
  | written
  | listed
  | settled
  | reading
  | deleting (remaining : List String)
  | failing (remaining : List String)
  | past
  deriving DecidableEq

/-- The stage after a deletion. -/
def RedisStage.afterDel : RedisStage → Bool → RedisStage
  | deleting remaining, true => deleting remaining.tail
  | deleting remaining, false => failing remaining.tail
  | failing remaining, _ => failing remaining.tail
  | _, _ => past

def RedisStage.next (stage : RedisStage) :
    (call : RedisCall) → MemcoreResult (Except String call.Reply) → RedisStage
  | .setEx _ _ _, .ok (.ok _) => written
  | .sAdd _ _, .ok (.ok _) => listed
  | .expire _ _, .ok (.ok _) => settled
  | .sMembers index, .ok (.ok members) => deleting (members ++ [index])
  | .get _, .ok (.ok _) => reading
  | .del _, .ok (.ok _) => stage.afterDel true
  | .del _, _ => stage.afterDel false
  | _, _ => past

section Protocols

variable (sha256Hex : String → String) (cache : RedisContextCache)

/-- The key and the time to live of the entry that a request sets. -/
def RedisRequest.Sets (request : RedisRequest) (key : ContextCacheKey) (ttl : ℕ) : Prop :=
  ∃ entry now, request = .set key entry now ∧
    ttl = redisEntryTtlSeconds entry cache.ttlSeconds now

/-- The commands that a request may send in a stage. -/
def redisAllows (request : RedisRequest) (stage : RedisStage) : RedisCall → Prop
  | .setEx entryKey _ ttl => stage = .start ∧ ∃ key, request.Sets cache key ttl ∧
      entryKey = cache.entryKey sha256Hex key
  | .sAdd indexKey entryKey => stage = .written ∧ ∃ key ttl, request.Sets cache key ttl ∧
      indexKey = cache.indexKey sha256Hex key.orgId key.userId ∧
        entryKey = cache.entryKey sha256Hex key
  | .expire indexKey ttl => stage = .listed ∧ ∃ key seconds, request.Sets cache key seconds ∧
      indexKey = cache.indexKey sha256Hex key.orgId key.userId ∧ ttl = asI64 seconds
  | .sMembers indexKey => stage = .start ∧ ∃ orgId userId,
      request = .invalidateUser orgId userId ∧ indexKey = cache.indexKey sha256Hex orgId userId
  | .get entryKey => stage = .start ∧ ∃ key, entryKey = cache.entryKey sha256Hex key
  | .del deleted => (∃ rest, stage = .deleting (deleted :: rest)) ∨
      (∃ rest, stage = .failing (deleted :: rest)) ∨
        stage = .reading ∧ ∃ key, deleted = cache.entryKey sha256Hex key

def redisProtocol (request : RedisRequest) : Protocol redisPorts MemcoreError RedisStage where
  allows := redisAllows sha256Hex cache request
  next := RedisStage.next

/-- Where an operation stands when it has returned. -/
def RedisRequest.Returned : RedisRequest → RedisStage → Prop
  | set _ _ _, stage => stage = .settled
  | invalidateUser _ _, stage => stage = .deleting []
  | _, _ => True

variable {sha256Hex cache} {request : RedisRequest} {stage : RedisStage}

/-- A command that is allowed, and whose failure ends the operation. -/
theorem succeeds_redisCommand {context : String} {call : RedisCall}
    {good : call.Reply → RedisStage → Prop}
    (allowed : redisAllows sha256Hex cache request stage call)
    (returns : ∀ reply, good reply (stage.next call (.ok (.ok reply)))) :
    Succeeds (redisProtocol sha256Hex cache request).spec (redisCommand context call) good
      stage := by
  unfold redisCommand
  apply (succeeds_bind _ _ _ _ _).mpr
  apply (succeeds_iff _ _ _ _).mpr
  apply (@ensures_call redisPorts MemcoreError RedisStage _ stage call _).mpr
  refine ⟨allowed, ?_⟩
  rintro (error | (error | reply))
  · trivial
  · apply (succeeds_check _ _ _ _).mpr
    intro value impossible
    contradiction
  · apply (succeeds_check _ _ _ _).mpr
    intro value same
    obtain rfl := Except.ok.inj same
    exact returns reply

theorem set_keeps (texts : CachedEntryTexts) (key : ContextCacheKey) (entry : CachedContextEntry)
    (now : Instant) :
    Succeeds (redisProtocol sha256Hex cache (.set key entry now)).spec
      (cache.set sha256Hex texts key entry now) (fun _ later => later = .settled) .start := by
  have sets : RedisRequest.Sets cache (.set key entry now) key
      (redisEntryTtlSeconds entry cache.ttlSeconds now) := ⟨entry, now, rfl, rfl⟩
  unfold RedisContextCache.set
  apply (succeeds_bind _ _ _ _ _).mpr
  apply (succeeds_check _ _ _ _).mpr
  intro payload _
  apply (succeeds_bind _ _ _ _ _).mpr
  apply succeeds_redisCommand
  · exact ⟨rfl, key, sets, rfl⟩
  intro _
  apply (succeeds_bind _ _ _ _ _).mpr
  apply succeeds_redisCommand
  · exact ⟨rfl, key, _, sets, rfl, rfl⟩
  intro _
  apply (succeeds_bind _ _ _ _ _).mpr
  apply succeeds_redisCommand
  · exact ⟨rfl, key, _, sets, rfl, rfl⟩
  intro _
  exact (succeeds_pure _ _ _ _).mpr rfl

/-- One deletion of a pipeline, whatever comes of it. -/
theorem succeeds_del {key : String} {good : Except String Bool → RedisStage → Prop}
    (allowed : redisAllows sha256Hex cache request stage (.del key))
    (deleted : ∀ found, good (.ok found) (stage.afterDel true))
    (failed : ∀ error, good (.error error) (stage.afterDel false)) :
    Succeeds (redisProtocol sha256Hex cache request).spec (redisCall (.del key)) good stage := by
  apply (succeeds_iff _ _ _ _).mpr
  apply (@ensures_call redisPorts MemcoreError RedisStage _ stage (.del key) _).mpr
  refine ⟨allowed, ?_⟩
  rintro (error | (error | found))
  · trivial
  · exact failed error
  · exact deleted found

/-- After a failure a pipeline deletes the rest of its keys. -/
theorem deletePipeline_failing (keys : List String) :
    Succeeds (redisProtocol sha256Hex cache request).spec (deletePipeline keys)
      (fun _ _ => True) (.failing keys) := by
  induction keys with
  | nil => exact (succeeds_pure _ _ _ _).mpr trivial
  | cons key rest inductionHypothesis =>
    have onwards (reply : Except String Bool) :
        Succeeds (redisProtocol sha256Hex cache request).spec (do
          let others ← deletePipeline rest
          pure (match reply with
            | .ok _ => others
            | .error error => .error error)) (fun _ _ => True) (.failing rest) := by
      apply Succeeds.bind (Protocol.spec_monotone _) inductionHypothesis
      intro others later _
      exact (succeeds_pure _ _ _ _).mpr trivial
    apply (succeeds_bind _ _ _ _ _).mpr
    apply succeeds_del (.inr (.inl ⟨rest, rfl⟩))
    · intro found
      exact onwards (.ok found)
    · intro error
      exact onwards (.error error)

/-- A pipeline reports success only when it has deleted all its keys. -/
theorem deletePipeline_deleting (keys : List String) :
    Succeeds (redisProtocol sha256Hex cache request).spec (deletePipeline keys)
      (fun replies later => replies = .ok () → later = .deleting []) (.deleting keys) := by
  induction keys with
  | nil =>
    apply (succeeds_pure _ _ _ _).mpr
    intro _
    rfl
  | cons key rest inductionHypothesis =>
    apply (succeeds_bind _ _ _ _ _).mpr
    apply succeeds_del (.inl ⟨rest, rfl⟩)
    · intro found
      apply Succeeds.bind (Protocol.spec_monotone _) inductionHypothesis
      intro others later deleted
      exact (succeeds_pure _ _ _ _).mpr deleted
    · intro error
      apply Succeeds.bind (Protocol.spec_monotone _) (deletePipeline_failing rest)
      intro others later _
      apply (succeeds_pure _ _ _ _).mpr
      intro impossible
      contradiction

theorem invalidateUser_keeps (orgId userId : String) :
    Succeeds (redisProtocol sha256Hex cache (.invalidateUser orgId userId)).spec
      (cache.invalidateUser sha256Hex orgId userId) (fun _ later => later = .deleting [])
      .start := by
  unfold RedisContextCache.invalidateUser
  apply (succeeds_bind _ _ _ _ _).mpr
  apply succeeds_redisCommand
  · exact ⟨rfl, orgId, userId, rfl, rfl⟩
  intro members
  cases members with
  | nil =>
    apply (succeeds_bind _ _ _ _ _).mpr
    apply succeeds_redisCommand
    · exact .inl ⟨[], rfl⟩
    intro found
    exact (succeeds_pure _ _ _ _).mpr rfl
  | cons member members =>
    apply Succeeds.bind (Protocol.spec_monotone _)
      (deletePipeline_deleting (member :: members ++ [cache.indexKey sha256Hex orgId userId]))
    intro replies later deleted
    apply (succeeds_bind _ _ _ _ _).mpr
    apply (succeeds_check _ _ _ _).mpr
    intro value succeeded
    apply (succeeds_pure _ _ _ _).mpr
    apply deleted
    cases replies with
    | ok _ => rfl
    | error error => contradiction

theorem getAny_keeps (texts : CachedEntryTexts) (key : ContextCacheKey) (now : Instant)
    (request : RedisRequest) :
    Succeeds (redisProtocol sha256Hex cache request).spec
      (cache.getAny sha256Hex texts key now) (fun _ _ => True) .start := by
  unfold RedisContextCache.getAny
  apply (succeeds_bind _ _ _ _ _).mpr
  apply succeeds_redisCommand
  · exact ⟨rfl, key, rfl⟩
  intro payload
  cases payload with
  | none => exact (succeeds_pure _ _ _ _).mpr trivial
  | some payload =>
    apply (succeeds_bind _ _ _ _ _).mpr
    apply (succeeds_check _ _ _ _).mpr
    intro entry _
    by_cases expired : entry.isFullyExpired now = true
    · rw [if_pos expired]
      apply (succeeds_bind _ _ _ _ _).mpr
      apply succeeds_redisCommand
      · exact .inr (.inr ⟨rfl, key, rfl⟩)
      intro _
      exact (succeeds_pure _ _ _ _).mpr trivial
    · rw [if_neg expired]
      exact (succeeds_pure _ _ _ _).mpr trivial

/-- Every operation keeps to its protocol. -/
theorem redisRequest_keeps (texts : CachedEntryTexts) (request : RedisRequest) :
    Succeeds (redisProtocol sha256Hex cache request).spec
      (request.program sha256Hex texts cache) (fun _ later => request.Returned later) .start := by
  cases request with
  | set key entry now => exact set_keeps texts key entry now
  | invalidateUser orgId userId =>
    apply Succeeds.bind (Protocol.spec_monotone _) (invalidateUser_keeps orgId userId)
    intro _ later deleted
    exact (succeeds_pure _ _ _ _).mpr deleted
  | get key now =>
    apply (succeeds_bind _ _ _ _ _).mpr
    apply Succeeds.bind (Protocol.spec_monotone _) (getAny_keeps texts key now _)
    intro entry later _
    apply (succeeds_pure _ _ _ _).mpr
    exact (succeeds_pure _ _ _ _).mpr trivial
  | getAny key now =>
    apply Succeeds.bind (Protocol.spec_monotone _) (getAny_keeps texts key now _)
    intro _ later _
    exact (succeeds_pure _ _ _ _).mpr trivial

end Protocols

/-! ## What the store holds of a client -/

/-- A key holds at a time what a client has written, if nothing is done before. -/
def Owns (store : RedisStore) (client : ℕ) (key : String) (time : ℕ) : Prop :=
  ∃ payload, store.live key time = some (.text ⟨payload, client⟩)

/-- A key is a member of an index at a time, if nothing is done before. -/
def ListedIn (store : RedisStore) (index key : String) (time : ℕ) : Prop :=
  ∃ members, store.live index time = some (.members members) ∧ key ∈ members

section Commands

variable {store : RedisStore} {client : ℕ} {key index : String} {time later : ℕ}

theorem Owns.of_le (owns : Owns store client key later) (before : time ≤ later) :
    Owns store client key time := by
  obtain ⟨payload, isLive⟩ := owns
  exact ⟨payload, Store.live_of_le isLive before⟩

theorem ListedIn.of_le (isListed : ListedIn store index key later) (before : time ≤ later) :
    ListedIn store index key time := by
  obtain ⟨members, isLive, member⟩ := isListed
  exact ⟨members, Store.live_of_le isLive before, member⟩

/-- What is put under a key that is not asked for does not matter. -/
theorem owns_put_of_ne {other : String} (different : key ≠ other)
    (entry : Option (Expiring String CachedText)) :
    Owns (store.put other entry) client key time ↔ Owns store client key time := by
  rw [Owns, Owns, Store.live_put_of_ne different]

theorem listedIn_put_of_ne {other : String} (different : index ≠ other)
    (entry : Option (Expiring String CachedText)) :
    ListedIn (store.put other entry) index key time ↔ ListedIn store index key time := by
  rw [ListedIn, ListedIn, Store.live_put_of_ne different]

theorem not_owns_put_none : ¬ Owns (store.put key none) client key time := by
  rintro ⟨payload, isLive⟩
  rw [Store.live_put_self] at isLive
  contradiction

theorem not_owns_put_members {members : List String} {expires : Option ℕ} :
    ¬ Owns (store.put key (some ⟨.members members, expires⟩)) client key time := by
  rintro ⟨payload, isLive⟩
  simp [Store.live_put_self] at isLive

/-- What was written lives as long as it was asked to. -/
theorem owns_put_text {payload : String} {writer last : ℕ} :
    Owns (store.put key (some ⟨.text ⟨payload, writer⟩, some last⟩)) client key time ↔
      client = writer ∧ time ≤ last := by
  simp only [Owns, Store.live_put_self, Option.all_some, decide_eq_true_eq,
    Option.ite_none_right_eq_some, Option.some.injEq, Held.text.injEq, CachedText.mk.injEq]
  constructor
  · rintro ⟨_, lives, _, rfl⟩
    exact ⟨rfl, lives⟩
  · rintro ⟨rfl, lives⟩
    exact ⟨payload, lives, rfl, rfl⟩

theorem listedIn_put_members {members : List String} {expires : Option ℕ} :
    ListedIn (store.put index (some ⟨.members members, expires⟩)) index key time ↔
      key ∈ members ∧ ∀ last, expires = some last → time ≤ last := by
  simp only [ListedIn, Store.live_put_self, Option.all_eq_true, decide_eq_true_eq,
    Option.ite_none_right_eq_some, Option.some.injEq, Held.members.injEq]
  constructor
  · rintro ⟨_, ⟨lives, rfl⟩, member⟩
    exact ⟨member, lives⟩
  · rintro ⟨member, lives⟩
    exact ⟨members, ⟨lives, rfl⟩, member⟩

end Commands

/-! ## The invariant -/

/-- How far a client has come, from its own commands. -/
def redisStageOf (client : ℕ) (trace : History redisPorts MemcoreError) : RedisStage :=
  track (fun stage event => stage.next event.call event.answer) .start client trace

/-- The command with which an invalidation begins. -/
def readsIndex (event : Event redisPorts MemcoreError) : Bool :=
  match event.call with
  | .sMembers _ => true
  | _ => false

section Invariant

variable (sha256Hex : String → String) (cache : RedisContextCache) (requests : ℕ → RedisRequest)

/-- An invalidation has still to delete the user's entries that were settled when it read the
index and are still there. -/
def StillDeletes (store : RedisStore) (trace : History redisPorts MemcoreError) (thread : ℕ)
    (remaining : List String) : Prop :=
  ∀ client key ttl, requests thread = .invalidateUser key.orgId key.userId →
    (requests client).Sets cache key ttl →
      redisStageOf client (upTo readsIndex thread trace) = .settled →
        ∀ time, store.clock ≤ time → Owns store client (cache.entryKey sha256Hex key) time →
          cache.entryKey sha256Hex key ∈ remaining

/-- Entries end in time, are listed once they are settled, and are deleted by whoever has read
them in the index. -/
structure EntriesListed (store : RedisStore) (trace : History redisPorts MemcoreError)
    (stages : ℕ → RedisStage) : Prop where
  tracked : ∀ client, stages client = redisStageOf client trace
  lasting : ∀ client earlier, earlier <:+ trace → redisStageOf client earlier = .settled →
    stages client = .settled
  bounded : ∀ client entryKey time, store.clock ≤ time → Owns store client entryKey time →
    ∃ key ttl, (requests client).Sets cache key ttl ∧ entryKey = cache.entryKey sha256Hex key ∧
      time ≤ store.clock + ttl * 1000 ∧ ttl * 1000 ≤ Store.maxTime
  fits : ∀ client key ttl, (requests client).Sets cache key ttl →
    stages client = .written ∨ stages client = .listed → ttl * 1000 ≤ Store.maxTime
  settled : ∀ client key ttl, (requests client).Sets cache key ttl → stages client = .settled →
    ∀ time, store.clock ≤ time → Owns store client (cache.entryKey sha256Hex key) time →
      ListedIn store (cache.indexKey sha256Hex key.orgId key.userId)
        (cache.entryKey sha256Hex key) time
  deleting : ∀ thread remaining, stages thread = .deleting remaining →
    StillDeletes sha256Hex cache requests store trace thread remaining

variable {sha256Hex cache requests} {store after : RedisStore}
  {trace : History redisPorts MemcoreError} {stages : ℕ → RedisStage} {thread : ℕ}

theorem RedisRequest.Sets.unique {request : RedisRequest} {key other : ContextCacheKey}
    {ttl otherTtl : ℕ} (sets : request.Sets cache key ttl)
    (alsoSets : request.Sets cache other otherTtl) : key = other ∧ ttl = otherTtl := by
  obtain ⟨entry, now, rfl, rfl⟩ := sets
  obtain ⟨_, _, same, rfl⟩ := alsoSets
  cases same
  exact ⟨rfl, rfl⟩

/-- Time passes; nothing else happens. -/
theorem EntriesListed.advance (held : EntriesListed sha256Hex cache requests store trace stages)
    (elapsed : ℕ) :
    EntriesListed sha256Hex cache requests (store.advance elapsed) trace stages := by
  have passed (time : ℕ) (reached : (store.advance elapsed).clock ≤ time) : store.clock ≤ time :=
    le_trans (Nat.le_add_right _ _) reached
  constructor
  · exact held.tracked
  · exact held.lasting
  · intro client entryKey time reached owns
    obtain ⟨key, ttl, sets, same, ends, fits⟩ := held.bounded client entryKey time
      (passed time reached) owns
    refine ⟨key, ttl, sets, same, ?_, fits⟩
    show time ≤ store.clock + elapsed + ttl * 1000
    omega
  · exact held.fits
  · intro client key ttl sets settled time reached owns
    exact held.settled client key ttl sets settled time (passed time reached) owns
  · intro other remaining deleting client key ttl invalidates sets settled time reached owns
    exact held.deleting other remaining deleting client key ttl invalidates sets settled time
      (passed time reached) owns

/-- Nothing is sent by an operation that has settled. -/
theorem not_settled_of_allowed {request : RedisRequest} {stage : RedisStage} {call : RedisCall}
    (allowed : redisAllows sha256Hex cache request stage call) : stage ≠ .settled := by
  rintro rfl
  cases call with
  | del key =>
    rcases allowed with ⟨_, impossible⟩ | ⟨_, impossible⟩ | ⟨impossible, _⟩ <;> cases impossible
  | _ => cases allowed.1

theorem upTo_suffix (test : Event redisPorts MemcoreError → Bool) (thread : ℕ)
    (trace : History redisPorts MemcoreError) : upTo test thread trace <:+ trace := by
  induction trace with
  | nil => exact List.suffix_refl []
  | cons latest earlier inductionHypothesis =>
    rw [upTo]
    split
    · exact List.suffix_cons _ _
    · exact inductionHypothesis.trans (List.suffix_cons _ _)

/-- A step that writes at most the entry of an operation that begins, and keeps what is listed. -/
theorem EntriesListed.step (held : EntriesListed sha256Hex cache requests store trace stages)
    {call : RedisCall} {answer : MemcoreResult (Except String call.Reply)}
    (allowed : redisAllows sha256Hex cache (requests thread) (stages thread) call)
    (sameClock : after.clock = store.clock)
    (writes : ∀ client entryKey time, store.clock ≤ time → Owns after client entryKey time →
      Owns store client entryKey time ∨ client = thread ∧ ∃ key ttl,
        (requests thread).Sets cache key ttl ∧ entryKey = cache.entryKey sha256Hex key ∧
          time ≤ store.clock + ttl * 1000 ∧ ttl * 1000 ≤ Store.maxTime)
    (keeps : ∀ client key ttl, (requests client).Sets cache key ttl → stages client = .settled →
      ∀ time, store.clock ≤ time → Owns store client (cache.entryKey sha256Hex key) time →
        ListedIn store (cache.indexKey sha256Hex key.orgId key.userId)
          (cache.entryKey sha256Hex key) time →
        Owns after client (cache.entryKey sha256Hex key) time →
        ListedIn after (cache.indexKey sha256Hex key.orgId key.userId)
          (cache.entryKey sha256Hex key) time)
    (fits : (stages thread).next call answer = .written ∨
      (stages thread).next call answer = .listed → ∀ key ttl,
        (requests thread).Sets cache key ttl → ttl * 1000 ≤ Store.maxTime)
    (settles : (stages thread).next call answer = .settled → ∀ key ttl,
      (requests thread).Sets cache key ttl → ∀ time, store.clock ≤ time →
        Owns after thread (cache.entryKey sha256Hex key) time →
        ListedIn after (cache.indexKey sha256Hex key.orgId key.userId)
          (cache.entryKey sha256Hex key) time)
    (deletes : ∀ remaining, (stages thread).next call answer = .deleting remaining →
      StillDeletes sha256Hex cache requests after ((thread, ⟨call, answer⟩) :: trace) thread
        remaining) :
    EntriesListed sha256Hex cache requests after ((thread, ⟨call, answer⟩) :: trace)
      (Function.update stages thread ((stages thread).next call answer)) := by
  have tracked (client : ℕ) :
      Function.update stages thread ((stages thread).next call answer) client =
        redisStageOf client ((thread, ⟨call, answer⟩) :: trace) := by
    by_cases own : client = thread
    · subst own
      rw [Function.update_self, held.tracked client, redisStageOf, redisStageOf, track_own]
    · rw [Function.update_of_ne own, held.tracked client, redisStageOf, redisStageOf,
        track_other _ _ _ _ (Ne.symm own)]
  have apart {client : ℕ} (settled : stages client = .settled) : client ≠ thread := by
    rintro rfl
    exact not_settled_of_allowed allowed settled
  constructor
  · exact tracked
  · intro client earlier part settled
    rcases List.suffix_cons_iff.mp part with rfl | part
    · rw [tracked client]
      exact settled
    · have before := held.lasting client earlier part settled
      rwa [Function.update_of_ne (apart before)]
  · rw [sameClock]
    intro client entryKey time reached owns
    rcases writes client entryKey time reached owns with before | ⟨rfl, written⟩
    · exact held.bounded client entryKey time reached before
    · exact written
  · intro client key ttl sets prepared
    by_cases own : client = thread
    · subst own
      rw [Function.update_self] at prepared
      exact fits prepared key ttl sets
    · rw [Function.update_of_ne own] at prepared
      exact held.fits client key ttl sets prepared
  · rw [sameClock]
    intro client key ttl sets settled time reached owns
    by_cases own : client = thread
    · subst own
      rw [Function.update_self] at settled
      exact settles settled key ttl sets time reached owns
    · rw [Function.update_of_ne own] at settled
      rcases writes client _ time reached owns with before | ⟨same, _⟩
      · exact keeps client key ttl sets settled time reached before
          (held.settled client key ttl sets settled time reached before) owns
      · exact absurd same own
  · intro other remaining deleting
    by_cases own : other = thread
    · subst own
      rw [Function.update_self] at deleting
      exact deletes remaining deleting
    · rw [Function.update_of_ne own] at deleting
      intro client key ttl invalidates sets settled time reached owns
      rw [upTo_skip (.inl (Ne.symm own))] at settled
      have settledNow := held.lasting client _ (upTo_suffix _ _ _) settled
      rw [sameClock] at reached
      rcases writes client _ time reached owns with before | ⟨same, _⟩
      · exact held.deleting other remaining deleting client key ttl invalidates sets settled time
          reached before
      · exact absurd same (apart settledNow)

/-! ## What each command keeps -/

/-- Nothing is known of an operation in such a stage. -/
def RedisStage.Idle : RedisStage → Prop
  | written | listed | settled | deleting _ => False
  | _ => True

/-- A reply that is an error ends a set and spoils a pipeline. -/
theorem next_error (stage : RedisStage) (call : RedisCall) (error : String) :
    (stage.next call (.ok (.error error))).Idle := by
  cases call with
  | del key => cases stage <;> trivial
  | _ => trivial

/-- A command that leaves the store alone, after which nothing is known. -/
theorem EntriesListed.unchanged (held : EntriesListed sha256Hex cache requests store trace stages)
    {call : RedisCall} {answer : MemcoreResult (Except String call.Reply)}
    (allowed : redisAllows sha256Hex cache (requests thread) (stages thread) call)
    (idle : ((stages thread).next call answer).Idle) :
    EntriesListed sha256Hex cache requests store ((thread, ⟨call, answer⟩) :: trace)
      (Function.update stages thread ((stages thread).next call answer)) := by
  apply held.step allowed rfl
  · intro client entryKey time _ owns
    exact .inl owns
  · intro client key ttl _ _ time _ _ isListed _
    exact isListed
  · rintro (prepared | prepared) <;> exact absurd idle (prepared ▸ id)
  · intro settles
    exact absurd idle (settles ▸ id)
  · intro remaining deletes
    exact absurd idle (deletes ▸ id)

/-- An entry is written under the key of its own. -/
theorem EntriesListed.setEx (noColon : ∀ text, ':' ∉ (sha256Hex text).toList)
    (held : EntriesListed sha256Hex cache requests store trace stages) {entryKey payload : String}
    {ttl : ℕ} {answer : MemcoreResult (Except String Unit)}
    (allowed : redisAllows sha256Hex cache (requests thread) (stages thread)
      (.setEx entryKey payload ttl))
    (refused : ¬ store.Expires ttl → ∃ error, answer = .ok (.error error)) :
    EntriesListed sha256Hex cache requests (store.setEx entryKey ⟨payload, thread⟩ ttl).2
      ((thread, ⟨.setEx entryKey payload ttl, answer⟩) :: trace)
      (Function.update stages thread
        ((stages thread).next (.setEx entryKey payload ttl) answer)) := by
  by_cases expires : store.Expires ttl
  · have written : (store.setEx entryKey ⟨payload, thread⟩ ttl).2 = store.put entryKey
        (some ⟨.text ⟨payload, thread⟩, some (store.clock + ttl * 1000)⟩) := by
      rw [Store.setEx, if_pos expires]
    have begins := allowed
    obtain ⟨_, key, sets, rfl⟩ := begins
    have fits : ttl * 1000 ≤ Store.maxTime := by
      have bound := expires.2
      omega
    have sameClock : (store.setEx (cache.entryKey sha256Hex key) ⟨payload, thread⟩ ttl).2.clock =
        store.clock := by
      rw [written]
      rfl
    apply held.step allowed sameClock
    · rw [written]
      intro client other time reached owns
      by_cases same : other = cache.entryKey sha256Hex key
      · subst same
        obtain ⟨rfl, ends⟩ := owns_put_text.mp owns
        exact .inr ⟨rfl, key, ttl, sets, rfl, ends, fits⟩
      · exact .inl ((owns_put_of_ne same _).mp owns)
    · rw [written]
      intro client other otherTtl _ _ time _ _ isListed _
      exact (listedIn_put_of_ne (entryKey_ne_indexKey noColon _ _ _).symm _).mpr isListed
    · intro _ other otherTtl alsoSets
      rw [(alsoSets.unique sets).2]
      exact fits
    · intro settles
      rcases answer with error | (error | reply) <;> contradiction
    · intro remaining deletes
      rcases answer with error | (error | reply) <;> contradiction
  · have same : (store.setEx entryKey ⟨payload, thread⟩ ttl).2 = store := by
      rw [Store.setEx, if_neg expires]
    obtain ⟨error, rfl⟩ := refused expires
    rw [same]
    exact held.unchanged allowed (next_error _ _ error)

/-- An index loses no member when another is listed. -/
theorem listedIn_sAdd {index member other key : String} {time : ℕ} (reached : store.clock ≤ time)
    (isListed : ListedIn store other key time) :
    ListedIn (store.sAdd index member).2 other key time := by
  by_cases same : other = index
  · subst same
    obtain ⟨members, isLive, listed⟩ := isListed.of_le reached
    obtain ⟨_, later, _⟩ := isListed
    have still : store.live other time = some (.members members) := by
      rw [← isLive, later]
      exact (Store.live_of_le later reached).symm
    simp only [Store.sAdd, isLive]
    exact listedIn_put_members.mpr
      ⟨List.mem_insert_of_mem listed, (Store.live_iff_expiry isLive).mp still⟩
  · unfold Store.sAdd
    split
    · exact (listedIn_put_of_ne same _).mpr isListed
    · exact (listedIn_put_of_ne same _).mpr isListed
    · exact isListed

theorem owns_of_sAdd {client : ℕ} {index member key : String} {time : ℕ}
    (owns : Owns (store.sAdd index member).2 client key time) : Owns store client key time := by
  by_cases same : key = index
  · subst same
    unfold Store.sAdd at owns
    split at owns
    · exact absurd owns not_owns_put_members
    · exact absurd owns not_owns_put_members
    · exact owns
  · unfold Store.sAdd at owns
    split at owns
    · exact (owns_put_of_ne same _).mp owns
    · exact (owns_put_of_ne same _).mp owns
    · exact owns

theorem clock_sAdd (index member : String) :
    (store.sAdd index member).2.clock = store.clock := by
  unfold Store.sAdd
  split <;> rfl

/-- A deletion takes an entry away, or an index in which nothing settled is left. -/
theorem EntriesListed.del (held : EntriesListed sha256Hex cache requests store trace stages)
    {deleted : String} {answer : MemcoreResult (Except String Bool)}
    (allowed : redisAllows sha256Hex cache (requests thread) (stages thread) (.del deleted))
    (emptied : ∀ client key ttl, (requests client).Sets cache key ttl →
      cache.indexKey sha256Hex key.orgId key.userId = deleted → stages client = .settled →
        ¬ Owns store client (cache.entryKey sha256Hex key) store.clock) :
    EntriesListed sha256Hex cache requests (store.del deleted).2
      ((thread, ⟨.del deleted, answer⟩) :: trace)
      (Function.update stages thread ((stages thread).next (.del deleted) answer)) := by
  have before {client : ℕ} {key : String} {time : ℕ}
      (owns : Owns (store.put deleted none) client key time) :
      key ≠ deleted ∧ Owns store client key time := by
    have different : key ≠ deleted := by
      rintro rfl
      exact not_owns_put_none owns
    exact ⟨different, (owns_put_of_ne different _).mp owns⟩
  have sameClock : (store.del deleted).2.clock = store.clock := rfl
  apply held.step allowed sameClock
  · intro client key time _ owns
    exact .inl (before owns).2
  · intro client key ttl sets settled time reached owns isListed _
    by_cases same : cache.indexKey sha256Hex key.orgId key.userId = deleted
    · exact absurd (owns.of_le reached) (emptied client key ttl sets same settled)
    · exact (listedIn_put_of_ne same _).mpr isListed
  · rintro (prepared | prepared) <;> rcases answer with error | (error | found) <;>
      cases stage : stages thread <;>
      simp [RedisStage.next, RedisStage.afterDel, stage] at prepared
  · intro settles
    rcases answer with error | (error | found) <;> cases stage : stages thread <;>
      simp [RedisStage.next, RedisStage.afterDel, stage] at settles
  · intro remaining deletes client key ttl invalidates sets settled time reached owns
    rw [upTo_skip (.inr rfl)] at settled
    obtain ⟨different, owned⟩ := before owns
    have deleting : stages thread = .deleting (deleted :: remaining) := by
      rcases allowed with ⟨rest, stage⟩ | ⟨rest, stage⟩ | ⟨stage, _⟩ <;>
        rcases answer with error | (error | found) <;>
        simp [RedisStage.next, RedisStage.afterDel, stage] at deletes
      rw [stage, deletes]
    have listed := held.deleting thread _ deleting client key ttl invalidates sets settled time
      reached owned
    exact (List.mem_cons.mp listed).resolve_left different

theorem EntriesListed.sAdd (held : EntriesListed sha256Hex cache requests store trace stages)
    {index member : String} {answer : MemcoreResult (Except String Unit)}
    (allowed : redisAllows sha256Hex cache (requests thread) (stages thread) (.sAdd index member)) :
    EntriesListed sha256Hex cache requests (store.sAdd index member).2
      ((thread, ⟨.sAdd index member, answer⟩) :: trace)
      (Function.update stages thread ((stages thread).next (.sAdd index member) answer)) := by
  apply held.step allowed (clock_sAdd index member)
  · intro client key time _ owns
    exact .inl (owns_of_sAdd owns)
  · intro client key ttl _ _ time reached _ isListed _
    exact listedIn_sAdd reached isListed
  · intro _ key ttl sets
    exact held.fits thread key ttl sets (.inl allowed.1)
  · intro settles
    rcases answer with error | (error | reply) <;> contradiction
  · intro remaining deletes
    rcases answer with error | (error | reply) <;> contradiction

theorem clock_expire (index : String) (ttl : ℤ) :
    (store.expire index ttl).2.clock = store.clock := by
  unfold Store.expire
  split
  · rfl
  · split
    · rfl
    · split <;> rfl

/-- What another time to live is for is not the key of an entry. -/
theorem owns_of_expire {client : ℕ} {index key : String} {ttl : ℤ} {time : ℕ}
    (unowned : ∀ client, ¬ Owns store client index store.clock)
    (owns : Owns (store.expire index ttl).2 client key time) : Owns store client key time := by
  unfold Store.expire at owns
  cases isLive : store.live index store.clock with
  | none =>
    rw [isLive] at owns
    exact owns
  | some kept =>
    simp only [isLive] at owns
    have notText (payload : CachedText) : kept ≠ .text payload := by
      rintro rfl
      exact unowned payload.writer ⟨payload.payload, isLive⟩
    by_cases same : key = index
    · subst same
      split at owns
      · exact absurd owns not_owns_put_none
      · split at owns
        · cases kept with
          | text payload => exact absurd rfl (notText payload)
          | members members => exact absurd owns not_owns_put_members
        · exact owns
    · split at owns
      · exact (owns_put_of_ne same _).mp owns
      · split at owns
        · exact (owns_put_of_ne same _).mp owns
        · exact owns

/-- Another index than the one that gets another time to live. -/
theorem listedIn_expire_of_ne {index other key : String} {ttl : ℤ} {time : ℕ}
    (different : other ≠ index) (isListed : ListedIn store other key time) :
    ListedIn (store.expire index ttl).2 other key time := by
  unfold Store.expire
  split
  · exact isListed
  · split
    · exact (listedIn_put_of_ne different _).mpr isListed
    · split
      · exact (listedIn_put_of_ne different _).mpr isListed
      · exact isListed

/-- An index that gets another time to live keeps its members for that time. -/
theorem listedIn_expire {index key : String} {ttl : ℤ} {time : ℕ} (positive : 0 < ttl)
    (isListed : ListedIn store index key store.clock)
    (refused : ¬ store.Expires ttl → ListedIn store index key time)
    (lasts : time ≤ store.clock + ttl.toNat * 1000) :
    ListedIn (store.expire index ttl).2 index key time := by
  obtain ⟨members, isLive, listed⟩ := isListed
  simp only [Store.expire, isLive]
  rw [if_neg (not_le.mpr positive)]
  by_cases expires : store.Expires ttl
  · rw [if_pos expires]
    apply listedIn_put_members.mpr
    refine ⟨listed, ?_⟩
    intro last ends
    exact Option.some.inj ends ▸ lasts
  · rw [if_neg expires]
    exact refused expires

/-- A time to live that is granted to a key can be added to the clock. -/
theorem expires_of_granted {index key : String} {ttl : ℤ} {reply : Bool} (positive : 0 < ttl)
    (isListed : ListedIn store index key store.clock)
    (granted : (store.expire index ttl).1 = .ok reply) : store.Expires ttl := by
  obtain ⟨members, isLive, _⟩ := isListed
  simp only [Store.expire, isLive] at granted
  rw [if_neg (not_le.mpr positive)] at granted
  by_contra refused
  rw [if_neg refused] at granted
  contradiction

theorem redisEntryTtlSeconds_pos (entry : CachedContextEntry) (defaultTtlSeconds : ℕ)
    (now : Instant) : 0 < redisEntryTtlSeconds entry defaultTtlSeconds now := by
  unfold redisEntryTtlSeconds
  split <;> omega

/-- A time to live that the store accepts is one for signed numbers too. -/
theorem asI64_of_fits {ttl : ℕ} (fits : ttl * 1000 ≤ Store.maxTime) : asI64 ttl = ttl := by
  unfold Store.maxTime at fits
  exact asI64_small (by omega)

/-- An index gets another time to live: no settled entry outlives it, and the entry of the
operation that settles is listed. -/
theorem EntriesListed.expire (noColon : ∀ text, ':' ∉ (sha256Hex text).toList)
    (held : EntriesListed sha256Hex cache requests store trace stages) {index : String} {ttl : ℤ}
    {answer : MemcoreResult (Except String Bool)}
    (allowed : redisAllows sha256Hex cache (requests thread) (stages thread) (.expire index ttl))
    (outlived : ∀ client key seconds, (requests client).Sets cache key seconds →
      cache.indexKey sha256Hex key.orgId key.userId = index → stages client = .settled →
        ¬ Owns store client (cache.entryKey sha256Hex key) (store.clock + ttl.toNat * 1000 + 1))
    (own : ∀ reply, answer = .ok (.ok reply) → ∀ key seconds,
      (requests thread).Sets cache key seconds →
        Owns store thread (cache.entryKey sha256Hex key) store.clock →
          ListedIn store index (cache.entryKey sha256Hex key) store.clock)
    (granted : ∀ reply, answer = .ok (.ok reply) → (store.expire index ttl).1 = .ok reply) :
    EntriesListed sha256Hex cache requests (store.expire index ttl).2
      ((thread, ⟨.expire index ttl, answer⟩) :: trace)
      (Function.update stages thread ((stages thread).next (.expire index ttl) answer)) := by
  have prepared := allowed
  obtain ⟨isListed, key, seconds, sets, rfl, rfl⟩ := prepared
  have fits := held.fits thread key seconds sets (.inr isListed)
  have positive : 0 < asI64 seconds := by
    obtain ⟨entry, now, _, rfl⟩ := sets
    rw [asI64_of_fits fits]
    exact_mod_cast redisEntryTtlSeconds_pos entry cache.ttlSeconds now
  have lasting : (asI64 seconds).toNat = seconds := by
    rw [asI64_of_fits fits]
    rfl
  have unowned (client : ℕ) :
      ¬ Owns store client (cache.indexKey sha256Hex key.orgId key.userId) store.clock := by
    intro owns
    obtain ⟨other, _, _, same, _⟩ := held.bounded client _ _ le_rfl owns
    exact entryKey_ne_indexKey noColon other _ _ same.symm
  apply held.step allowed (clock_expire _ _)
  · intro client entryKey time _ owns
    exact .inl (owns_of_expire unowned owns)
  · intro client other otherTtl otherSets settled time reached owns listedBefore _
    by_cases same : cache.indexKey sha256Hex other.orgId other.userId =
        cache.indexKey sha256Hex key.orgId key.userId
    · have ends : time ≤ store.clock + (asI64 seconds).toNat * 1000 := by
        by_contra later
        exact outlived client other otherTtl otherSets same settled (owns.of_le (by omega))
      rw [same] at listedBefore ⊢
      exact listedIn_expire positive (listedBefore.of_le reached) (fun _ => listedBefore) ends
    · exact listedIn_expire_of_ne same listedBefore
  · rintro (impossible | impossible) <;> rcases answer with error | (error | reply) <;>
      contradiction
  · intro settles other otherTtl otherSets time reached owns
    obtain ⟨reply, rfl⟩ : ∃ reply, answer = .ok (.ok reply) := by
      rcases answer with error | (error | reply)
      · contradiction
      · contradiction
      · exact ⟨reply, rfl⟩
    obtain ⟨rfl, rfl⟩ := otherSets.unique sets
    have owned := owns_of_expire unowned owns
    have listedNow := own reply rfl other otherTtl sets (owned.of_le reached)
    have expires := expires_of_granted positive listedNow (granted reply rfl)
    obtain ⟨bounding, lasts, alsoSets, _, ends, _⟩ := held.bounded thread _ time reached owned
    rw [(alsoSets.unique sets).2, ← lasting] at ends
    exact listedIn_expire positive listedNow (absurd expires) ends
  · intro remaining deletes
    rcases answer with error | (error | reply) <;> contradiction

/-- An invalidation has to delete what it reads in the index. -/
theorem EntriesListed.sMembers (held : EntriesListed sha256Hex cache requests store trace stages)
    {index : String} {listing : List String}
    (allowed : redisAllows sha256Hex cache (requests thread) (stages thread) (.sMembers index))
    (lists : ∀ members, store.sMembers index = .ok members → ∀ member ∈ members,
      member ∈ listing) :
    EntriesListed sha256Hex cache requests store
      ((thread, ⟨.sMembers index, .ok (.ok listing)⟩) :: trace)
      (Function.update stages thread
        ((stages thread).next (.sMembers index) (.ok (.ok listing)))) := by
  apply held.step allowed rfl
  · intro client entryKey time _ owns
    exact .inl owns
  · intro client key ttl _ _ time _ _ isListed _
    exact isListed
  · rintro (impossible | impossible) <;> contradiction
  · intro impossible
    contradiction
  · intro remaining deletes client key ttl invalidates sets settled time reached owns
    rw [upTo_own rfl, ← held.tracked client] at settled
    obtain ⟨members, isLive, member⟩ :=
      (held.settled client key ttl sets settled time reached owns).of_le reached
    obtain ⟨_, orgId, userId, alsoInvalidates, rfl⟩ := allowed
    rw [invalidates] at alsoInvalidates
    obtain ⟨rfl, rfl⟩ := RedisRequest.invalidateUser.inj alsoInvalidates
    obtain rfl : listing ++ [cache.indexKey sha256Hex key.orgId key.userId] = remaining :=
      RedisStage.deleting.inj deletes
    apply List.mem_append_left
    apply lists members _ _ member
    simp only [Store.sMembers, isLive]

/-- No entry is cut off. A settled entry does not outlive its index when the index gets another
time to live, and is gone when the index is deleted. An operation settles with its own entry
listed, if the entry is still there. -/
def CutsNothingOff (sha256Hex : String → String) (cache : RedisContextCache)
    (requests : ℕ → RedisRequest) (world : RedisStore) (trace : History redisPorts MemcoreError)
    (thread : ℕ) (call : RedisCall) (choice : RedisChoice) : Prop :=
  choice.client = thread ∧ (choice.applies = true →
    match call with
    | .expire index ttl =>
        (∀ client key seconds, (requests client).Sets cache key seconds →
          cache.indexKey sha256Hex key.orgId key.userId = index →
            redisStageOf client trace = .settled →
              ¬ Owns world client (cache.entryKey sha256Hex key)
                (world.clock + choice.elapsed + ttl.toNat * 1000 + 1)) ∧
        (choice.failure = none → ∀ key seconds, (requests thread).Sets cache key seconds →
          Owns world thread (cache.entryKey sha256Hex key) (world.clock + choice.elapsed) →
            ListedIn world index (cache.entryKey sha256Hex key) (world.clock + choice.elapsed))
    | .del index =>
        ∀ client key seconds, (requests client).Sets cache key seconds →
          cache.indexKey sha256Hex key.orgId key.userId = index →
            redisStageOf client trace = .settled →
              ¬ Owns world client (cache.entryKey sha256Hex key) (world.clock + choice.elapsed)
    | _ => True)

/-- A command that takes effect keeps the invariant, whatever is replied. -/
theorem entriesListed_effect (noColon : ∀ text, ':' ∉ (sha256Hex text).toList)
    {choice : RedisChoice}
    (held : EntriesListed sha256Hex cache requests (store.advance choice.elapsed) trace stages)
    {call : RedisCall} {reply : Except String call.Reply}
    (faithful : reply = (redisEffect choice call (store.advance choice.elapsed)).1 ∧
      choice.failure = none ∨ ∃ error, reply = .error error)
    (allowed : redisAllows sha256Hex cache (requests thread) (stages thread) call)
    (isReady : listsMembers choice call store = true) (applies : choice.applies = true)
    (permitted : CutsNothingOff sha256Hex cache requests store trace thread call choice) :
    EntriesListed sha256Hex cache requests
      (redisEffect choice call (store.advance choice.elapsed)).2
      ((thread, ⟨call, .ok reply⟩) :: trace)
      (Function.update stages thread ((stages thread).next call (.ok reply))) := by
  obtain ⟨own, permits⟩ := permitted
  have permits := permits applies
  cases call with
  | setEx key payload ttl =>
    subst own
    apply held.setEx noColon allowed
    intro refused
    rcases faithful with ⟨rfl, _⟩ | ⟨error, rfl⟩
    · exact ⟨"ERR invalid expire time in 'setex' command", congrArg Except.ok
        (congrArg Prod.fst (if_neg refused))⟩
    · exact ⟨error, rfl⟩
  | sAdd index member => exact held.sAdd allowed
  | expire index ttl =>
    apply held.expire noColon allowed
    · intro client key seconds sets same settled
      rw [held.tracked client] at settled
      exact permits.1 client key seconds sets same settled
    · intro granted answered key seconds sets owns
      rcases faithful with ⟨_, served⟩ | ⟨error, rfl⟩
      · exact permits.2 served key seconds sets owns
      · cases answered
    · intro granted answered
      rcases faithful with ⟨rfl, _⟩ | ⟨error, rfl⟩
      · exact Except.ok.inj answered
      · cases answered
  | sMembers index =>
    cases listed : (store.advance choice.elapsed).sMembers index with
    | error error =>
      have failed : ∃ error, reply = .error error := by
        rcases faithful with ⟨rfl, _⟩ | failed
        · exact ⟨error, by simp only [redisEffect, listed]; rfl⟩
        · exact failed
      obtain ⟨error, rfl⟩ := failed
      exact held.unchanged allowed (next_error _ _ error)
    | ok members =>
      rcases faithful with ⟨rfl, _⟩ | ⟨error, rfl⟩
      · have lists : (redisEffect choice (.sMembers index) (store.advance choice.elapsed)).1 =
            .ok choice.listing := by
          simp only [redisEffect, listed]
          rfl
        rw [lists]
        apply held.sMembers allowed
        intro others same member isMember
        obtain rfl := Except.ok.inj (listed.symm.trans same)
        simp only [listsMembers, listed] at isReady
        exact (List.isPerm_iff.mp isReady).mem_iff.mpr isMember
      · exact held.unchanged allowed (next_error _ _ error)
  | del key =>
    apply held.del allowed
    intro client other seconds sets same settled
    rw [held.tracked client] at settled
    exact permits client other seconds sets same settled
  | get key =>
    apply held.unchanged allowed
    rcases reply with error | payload <;> trivial

/-- Every step that cuts nothing off keeps the invariant. -/
theorem entriesListed_step (noColon : ∀ text, ':' ∉ (sha256Hex text).toList)
    (held : EntriesListed sha256Hex cache requests store trace stages) {call : RedisCall}
    {choice : RedisChoice}
    (allowed : redisAllows sha256Hex cache (requests thread) (stages thread) call)
    (isReady : listsMembers choice call store = true)
    (permitted : CutsNothingOff sha256Hex cache requests store trace thread call choice) :
    EntriesListed sha256Hex cache requests (redisServer.serve choice call store).2
      ((thread, ⟨call, (redisServer.serve choice call store).1⟩) :: trace)
      (Function.update stages thread
        ((stages thread).next call (redisServer.serve choice call store).1)) := by
  have passed := held.advance choice.elapsed
  by_cases applies : choice.applies = true
  · have after : (redisServer.serve choice call store).2 =
        (redisEffect choice call (store.advance choice.elapsed)).2 := if_pos applies
    rw [after]
    apply entriesListed_effect noColon passed _ allowed isReady applies permitted
    cases failure : choice.failure with
    | none => exact .inl ⟨rfl, rfl⟩
    | some error => exact .inr ⟨error, rfl⟩
  · have after : (redisServer.serve choice call store).2 = store.advance choice.elapsed :=
      if_neg applies
    have failed : ∃ error, choice.failure = some error := by
      cases failure : choice.failure with
      | none => simp [RedisChoice.applies, failure] at applies
      | some error => exact ⟨error, rfl⟩
    obtain ⟨error, failure⟩ := failed
    have answer : (redisServer.serve choice call store).1 = .ok (.error error) := by
      simp only [redisServer, failure]
      rfl
    rw [after, answer]
    exact passed.unchanged allowed (next_error _ _ error)

end Invariant

/-! ## Runs -/

section Runs

variable (sha256Hex : String → String) (texts : CachedEntryTexts) (cache : RedisContextCache)
  (requests : ℕ → RedisRequest)

abbrev RedisPool := Pool redisPorts MemcoreError Unit RedisStore

/-- Clients that have not sent anything yet. -/
def startClients (world : RedisStore) : RedisPool :=
  .start world fun client => (requests client).program sha256Hex texts cache

/-- Every entry that has been set is listed in the index of its user for as long as it is
there, and is gone once an invalidation that has begun later returns. -/
structure Invalidatable (pool : RedisPool) : Prop where
  listed : ∀ client key entry now, requests client = .set key entry now →
    pool.threads client = .done () → ∀ time, pool.world.clock ≤ time →
      Owns pool.world client (cache.entryKey sha256Hex key) time →
        ListedIn pool.world (cache.indexKey sha256Hex key.orgId key.userId)
          (cache.entryKey sha256Hex key) time
  removed : ∀ client thread key entry now, requests client = .set key entry now →
    requests thread = .invalidateUser key.orgId key.userId → pool.threads thread = .done () →
      redisStageOf client (upTo readsIndex thread pool.trace) = .settled →
        ¬ Owns pool.world client (cache.entryKey sha256Hex key) pool.world.clock

variable {sha256Hex texts cache requests}

theorem startClients_follow (world : RedisStore) :
    Pool.Follow (fun client => redisProtocol sha256Hex cache (requests client))
      (fun client => onSuccess fun _ later => (requests client).Returned later)
      (startClients sha256Hex texts cache requests world) fun _ => .start := by
  intro client
  exact (succeeds_iff _ _ _ _).mp (redisRequest_keeps texts (requests client))

theorem entriesListed_start {world : RedisStore}
    (unowned : ∀ client key time, ¬ Owns world client key time) :
    EntriesListed sha256Hex cache requests world [] fun _ => .start where
  tracked _ := rfl
  lasting client earlier part settled := by
    obtain rfl := List.suffix_nil.mp part
    contradiction
  bounded client key time _ owns := absurd owns (unowned client key time)
  fits client key ttl _ prepared := by
    rcases prepared with impossible | impossible <;> contradiction
  settled client key ttl _ impossible := by contradiction
  deleting thread remaining impossible := by contradiction

/-- The invariant holds in every run that cuts nothing off. -/
theorem reached_entriesListed (noColon : ∀ text, ':' ∉ (sha256Hex text).toList)
    {world : RedisStore} (unowned : ∀ client key time, ¬ Owns world client key time)
    {pool : RedisPool}
    (reached : Pool.Reaches redisServer (CutsNothingOff sha256Hex cache requests)
      (startClients sha256Hex texts cache requests world) pool) :
    ∃ stages, EntriesListed sha256Hex cache requests pool.world pool.trace stages ∧
      Pool.Follow (fun client => redisProtocol sha256Hex cache (requests client))
        (fun client => onSuccess fun _ later => (requests client).Returned later) pool stages :=
  @Pool.Reaches.invariant _ _ _ _ _ _ _ _ _ _ reached
    (fun client => redisProtocol sha256Hex cache (requests client)) _
    (EntriesListed sha256Hex cache requests)
    (fun _ _ _ _ _ _ held allowed isReady permitted =>
      entriesListed_step noColon held allowed isReady permitted)
    _ (startClients_follow world) (entriesListed_start unowned)

/-- In every run that cuts nothing off, every entry that has been set can be invalidated. -/
theorem entries_invalidatable (noColon : ∀ text, ':' ∉ (sha256Hex text).toList)
    {world : RedisStore} (unowned : ∀ client key time, ¬ Owns world client key time)
    {pool : RedisPool}
    (reached : Pool.Reaches redisServer (CutsNothingOff sha256Hex cache requests)
      (startClients sha256Hex texts cache requests world) pool) :
    Invalidatable sha256Hex cache requests pool := by
  obtain ⟨stages, held, follow⟩ := reached_entriesListed noColon unowned reached
  have returned {client : ℕ} (isDone : pool.threads client = .done ()) :
      (requests client).Returned (stages client) := by
    have kept := follow client
    rw [isDone] at kept
    exact (ensures_done _ _ _ _).mp kept
  constructor
  · intro client key entry now sets isDone time later owns
    have settled := returned isDone
    rw [sets] at settled
    exact held.settled client key _ ⟨entry, now, sets, rfl⟩ settled time later owns
  · intro client thread key entry now sets invalidates isDone settled owns
    have deleted := returned isDone
    rw [invalidates] at deleted
    have remains := held.deleting thread [] deleted client key _ invalidates
      ⟨entry, now, sets, rfl⟩ settled pool.world.clock le_rfl owns
    contradiction

end Runs

/-! ## Two entries of one user -/

section Sample

/-- Whether a key holds what a client has written. -/
def isOwned (store : RedisStore) (client : ℕ) (key : String) (time : ℕ) : Bool :=
  match store.live key time with
  | some (.text text) => text.writer == client
  | _ => false

theorem isOwned_iff {store : RedisStore} {client : ℕ} {key : String} {time : ℕ} :
    isOwned store client key time = true ↔ Owns store client key time := by
  rw [isOwned, Owns]
  cases store.live key time with
  | none => simp
  | some held =>
    cases held with
    | members keys => simp
    | text text =>
      obtain ⟨payload, writer⟩ := text
      simp

/-- Whether a key is a member of an index. -/
def isListedIn (store : RedisStore) (index key : String) (time : ℕ) : Bool :=
  match store.live index time with
  | some (.members members) => members.contains key
  | _ => false

theorem isListedIn_iff {store : RedisStore} {index key : String} {time : ℕ} :
    isListedIn store index key time = true ↔ ListedIn store index key time := by
  rw [isListedIn, ListedIn]
  cases store.live index time with
  | none => simp
  | some held =>
    cases held with
    | members keys => simp
    | text text => simp

/-- A digest without colons. -/
def colonFree (text : String) : String :=
  String.ofList (text.toList.map fun character => if character = ':' then '.' else character)

theorem colonFree_noColon (text : String) : ':' ∉ (colonFree text).toList := by
  rw [colonFree, String.toList_ofList, List.mem_map]
  rintro ⟨character, _, same⟩
  split at same
  · contradiction
  · rename_i different
    exact different same

def sampleRedisCache : RedisContextCache := ⟨"memcore", 300⟩

def sampleEntryTexts : CachedEntryTexts where
  toString entry := .ok entry.context
  fromStr _ := .error "EOF while parsing a value at line 1 column 0"

def sampleEntry (ttl : ℕ) : CachedContextEntry where
  context := "{}"
  memories := []
  createdAt := 0
  expiresAt := seconds ttl
  staleUntil := none
  budget := ⟨0, 0, 0, 0, 0, 0⟩
  compression := .disabled

/-- Client 0 sets an entry for five minutes and client 1 one for ten seconds; the others
invalidate the user. -/
def sampleRedisRequests : ℕ → RedisRequest
  | 0 => .set ⟨"acme", "ada", "q1", "o"⟩ (sampleEntry 300) 0
  | 1 => .set ⟨"acme", "ada", "q2", "o"⟩ (sampleEntry 10) 0
  | _ => .invalidateUser "acme" "ada"

/-- Each client sends its own commands. -/
def SendsItself (_ : RedisStore) (_ : History redisPorts MemcoreError) (client : ℕ)
    (_ : RedisCall) (choice : RedisChoice) : Prop :=
  choice.client = client

instance (world : RedisStore) (trace : History redisPorts MemcoreError) (client : ℕ)
    (call : RedisCall) (choice : RedisChoice) :
    Decidable (SendsItself world trace client call choice) :=
  inferInstanceAs (Decidable (_ = _))

/-- The condition on steps for the entries of clients 0 and 1, as a test. -/
def cutsNothingOff (world : RedisStore) (trace : History redisPorts MemcoreError) (client : ℕ)
    (call : RedisCall) (choice : RedisChoice) : Bool :=
  let now := world.clock + choice.elapsed
  let entryKey (owner : ℕ) :=
    sampleRedisCache.entryKey colonFree ⟨"acme", "ada", if owner = 0 then "q1" else "q2", "o"⟩
  let outlives (owner time : ℕ) :=
    decide (redisStageOf owner trace = .settled) && isOwned world owner (entryKey owner) time
  choice.client == client &&
    match call with
    | .expire index ttl =>
        !outlives 0 (now + ttl.toNat * 1000 + 1) && !outlives 1 (now + ttl.toNat * 1000 + 1) &&
          (!isOwned world client (entryKey client) now ||
            isListedIn world index (entryKey client) now)
    | .del index =>
        index != sampleRedisCache.indexKey colonFree "acme" "ada" ||
          (!outlives 0 now && !outlives 1 now)
    | _ => true

/-- What a client of the sample sets. -/
theorem sampleRedisRequests_sets {client ttl : ℕ} {key : ContextCacheKey}
    (sets : (sampleRedisRequests client).Sets sampleRedisCache key ttl) :
    (client = 0 ∨ client = 1) ∧ key = ⟨"acme", "ada", if client = 0 then "q1" else "q2", "o"⟩ := by
  obtain ⟨entry, now, same, _⟩ := sets
  match client, same with
  | 0, same => cases same; exact ⟨.inl rfl, rfl⟩
  | 1, same => cases same; exact ⟨.inr rfl, rfl⟩

theorem not_owns_of_test {stage : RedisStage} {store : RedisStore} {client : ℕ} {key : String}
    {time : ℕ} (settled : stage = .settled)
    (absent : (decide (stage = .settled) && isOwned store client key time) = false) :
    ¬ Owns store client key time := by
  intro owns
  rw [decide_eq_true settled, isOwned_iff.mpr owns] at absent
  contradiction

theorem cutsNothingOff_sound {world : RedisStore} {trace : History redisPorts MemcoreError}
    {client : ℕ} {call : RedisCall} {choice : RedisChoice}
    (passes : cutsNothingOff world trace client call choice = true) :
    CutsNothingOff colonFree sampleRedisCache sampleRedisRequests world trace client call
      choice := by
  have sends : choice.client = client := by
    unfold cutsNothingOff at passes
    exact beq_iff_eq.mp ((Bool.and_eq_true _ _).mp passes).1
  refine ⟨sends, ?_⟩
  intro _
  cases call with
  | expire index ttl =>
    simp only [cutsNothingOff, Bool.and_eq_true, Bool.not_eq_true', Bool.or_eq_true] at passes
    obtain ⟨_, ⟨first, second⟩, own⟩ := passes
    constructor
    · intro owner key ttl sets _ settled owns
      obtain ⟨listed, rfl⟩ := sampleRedisRequests_sets sets
      rcases listed with rfl | rfl
      · exact not_owns_of_test settled first owns
      · exact not_owns_of_test settled second owns
    · intro _ key ttl sets owns
      obtain ⟨_, rfl⟩ := sampleRedisRequests_sets sets
      rcases own with absent | isListed
      · rw [isOwned_iff.mpr owns] at absent
        contradiction
      · exact isListedIn_iff.mp isListed
  | del index =>
    simp only [cutsNothingOff, Bool.and_eq_true, Bool.not_eq_true', Bool.or_eq_true,
      bne_iff_ne] at passes
    intro owner key ttl sets same settled owns
    obtain ⟨listed, rfl⟩ := sampleRedisRequests_sets sets
    obtain ⟨_, different | ⟨first, second⟩⟩ := passes
    · exact different same.symm
    · rcases listed with rfl | rfl
      · exact not_owns_of_test settled first owns
      · exact not_owns_of_test settled second owns
  | _ => trivial

/-- The longer time to live comes last, and the invalidation after both. -/
def lastingSchedule : List (ℕ × RedisChoice) :=
  [(1, ⟨1, 0, [], none, true⟩), (1, ⟨1, 0, [], none, true⟩), (1, ⟨1, 0, [], none, true⟩),
    (0, ⟨0, 0, [], none, true⟩), (0, ⟨0, 0, [], none, true⟩), (0, ⟨0, 0, [], none, true⟩),
    (2, ⟨2, 12000, [
      sampleRedisCache.entryKey colonFree ⟨"acme", "ada", "q1", "o"⟩,
      sampleRedisCache.entryKey colonFree ⟨"acme", "ada", "q2", "o"⟩], none, true⟩),
    (2, ⟨2, 0, [], none, true⟩), (2, ⟨2, 0, [], none, true⟩), (2, ⟨2, 0, [], none, true⟩)]

/-- The invalidation has returned, after the first entry was set. -/
def returnsLater (pool : RedisPool) : Bool :=
  (match pool.threads 2 with
    | .done _ => true
    | _ => false) &&
  decide (redisStageOf 0 (upTo readsIndex 2 pool.trace) = .settled)

/-- In such a run the entries are invalidated. -/
theorem entries_invalidatable_sample : ∃ pool : RedisPool,
    Pool.Reaches redisServer (CutsNothingOff colonFree sampleRedisCache sampleRedisRequests)
      (startClients colonFree sampleEntryTexts sampleRedisCache sampleRedisRequests
        ⟨0, fun _ => none⟩) pool ∧
      returnsLater pool = true ∧
      Invalidatable colonFree sampleRedisCache sampleRedisRequests pool := by
  obtain ⟨pool, tested, returns⟩ := Pool.exists_reached_of_run redisServer
    (fun world trace client call choice => cutsNothingOff world trace client call choice = true)
    lastingSchedule (startClients colonFree sampleEntryTexts sampleRedisCache
      sampleRedisRequests ⟨0, fun _ => none⟩) returnsLater (by decide +kernel)
  have reached := tested.mono fun _ _ _ _ _ passes => cutsNothingOff_sound passes
  refine ⟨pool, reached, returns, ?_⟩
  apply entries_invalidatable colonFree_noColon _ reached
  rintro client key time ⟨payload, impossible⟩
  contradiction

/-- Twelve seconds after both sets an invalidation finds no index. -/
def shortenedSchedule : List (ℕ × RedisChoice) :=
  [(0, ⟨0, 0, [], none, true⟩), (0, ⟨0, 0, [], none, true⟩), (0, ⟨0, 0, [], none, true⟩),
    (1, ⟨1, 0, [], none, true⟩), (1, ⟨1, 0, [], none, true⟩), (1, ⟨1, 0, [], none, true⟩),
    (2, ⟨2, 12000, [], none, true⟩), (2, ⟨2, 0, [], none, true⟩)]

/-- The first entry is still there after an invalidation that began after it was set. -/
def survivesInvalidation (pool : RedisPool) : Bool :=
  (match pool.threads 2 with
    | .done _ => true
    | _ => false) &&
  decide (redisStageOf 0 (upTo readsIndex 2 pool.trace) = .settled) &&
  isOwned pool.world 0 (sampleRedisCache.entryKey colonFree ⟨"acme", "ada", "q1", "o"⟩)
    pool.world.clock

/-- An entry is no longer listed when another one with a shorter time to live is set. -/
theorem entry_outlives_index : ∃ pool : RedisPool,
    Pool.Reaches redisServer SendsItself
      (startClients colonFree sampleEntryTexts sampleRedisCache sampleRedisRequests
        ⟨0, fun _ => none⟩) pool ∧
      ¬ Invalidatable colonFree sampleRedisCache sampleRedisRequests pool := by
  obtain ⟨pool, reached, survives⟩ := Pool.exists_reached_of_run redisServer SendsItself
    shortenedSchedule (startClients colonFree sampleEntryTexts sampleRedisCache
      sampleRedisRequests ⟨0, fun _ => none⟩) survivesInvalidation (by decide +kernel)
  refine ⟨pool, reached, ?_⟩
  intro invalidatable
  rw [survivesInvalidation, Bool.and_eq_true, Bool.and_eq_true] at survives
  obtain ⟨⟨isDone, settled⟩, owned⟩ := survives
  have returned : pool.threads 2 = .done () := by
    cases state : pool.threads 2 with
    | done value => rfl
    | fail error =>
      rw [state] at isDone
      contradiction
    | ask call resume =>
      rw [state] at isDone
      contradiction
  exact invalidatable.removed 0 2 _ _ _ rfl rfl returned (of_decide_eq_true settled)
    (isOwned_iff.mp owned)

end Sample

end Memcore
