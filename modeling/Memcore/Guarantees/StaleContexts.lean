import Memcore.Guarantees.Coalescing
import Memcore.Guarantees.StoreWrites

/-!
# Stale contexts after a mutation

A context is computed from what the stores held when the computation first looked at them, and
is stored when it is finished, with no look at what has happened since. If a mutation writes to
the stores and purges the cache in between, the computation then puts back a context that the
mutation was to remove. In a run in which no computation does so, whatever is found in the cache
after the mutation has returned was computed from what the mutation left.
-/
namespace Memcore

open KeyedTables Ports Programs

/-! ## Versions -/

/-- The key whose entry an event has found. -/
def foundKey : EngineEvent → Option ContextCacheKey
  | ⟨.cache (.get key), .ok found⟩ =>
      if (found : Option CachedContextEntry).isSome then some key else none
  | ⟨.cache (.getAny key), .ok found⟩ =>
      if (found : Option CachedContextEntry).isSome then some key else none
  | _ => none

/-- The key under which an event has stored an entry. -/
def storedKey : EngineEvent → Option ContextCacheKey
  | ⟨.cache (.set key _), .ok _⟩ => some key
  | _ => none

/-- Whether a computation begins. -/
def beginsComputation : EngineEvent → Bool
  | ⟨.coordinator (.computeBegins _), _⟩ => true
  | _ => false

/-- How often the stores have changed: so far, when the computation of each program first looked
at them, and when the computation of each entry in the cache did. -/
structure Versions where
  current : ℕ
  basis : ℕ → Option ℕ
  stored : ContextCacheKey → ℕ

namespace Versions

/-- What a computation rests on if it looks at the stores now or has before. -/
def basisOf (versions : Versions) (thread : ℕ) : ℕ :=
  (versions.basis thread).getD versions.current

def basisAfter (versions : Versions) (thread : ℕ) (event : EngineEvent) : Option ℕ :=
  if beginsComputation event then none
  else if readsStores event.call then some (versions.basisOf thread)
  else versions.basis thread

/-- The versions after one more event. -/
def after (versions : Versions) (thread : ℕ) (event : EngineEvent) : Versions where
  current := if changesStores event then versions.current + 1 else versions.current
  basis := Function.update versions.basis thread (versions.basisAfter thread event)
  stored := match storedKey event with
    | some key => Function.update versions.stored key (versions.basisOf thread)
    | none => versions.stored

theorem le_after (versions : Versions) (thread : ℕ) (event : EngineEvent) :
    versions.current ≤ (versions.after thread event).current := by
  unfold after
  split_ifs
  · exact Nat.le_succ _
  · exact Nat.le_refl _

/-- No computation rests on a version that is yet to come. -/
theorem basisOf_le {versions : Versions}
    (past : ∀ thread, versions.basisOf thread ≤ versions.current) (mover : ℕ)
    (event : EngineEvent) (thread : ℕ) :
    (versions.after mover event).basisOf thread ≤ (versions.after mover event).current := by
  have later := versions.le_after mover event
  have kept : ((versions.basis thread).getD (versions.after mover event).current) ≤
      (versions.after mover event).current := by
    have before := past thread
    unfold basisOf at before
    cases basis : versions.basis thread with
    | none => exact Nat.le_refl _
    | some version =>
      rw [basis] at before
      exact Nat.le_trans before later
  have updated : (versions.after mover event).basis =
      Function.update versions.basis mover (versions.basisAfter mover event) := rfl
  rw [basisOf, updated]
  by_cases same : thread = mover
  · subst same
    rw [Function.update_self, basisAfter]
    split_ifs
    · exact Nat.le_refl _
    · exact Nat.le_trans (past thread) later
    · exact kept
  · rw [Function.update_of_ne same]
    exact kept

theorem after_current {event : EngineEvent} (changesNothing : changesStores event = false)
    (versions : Versions) (thread : ℕ) :
    (versions.after thread event).current = versions.current := by
  rw [after, changesNothing]
  rfl

theorem after_stored {event : EngineEvent} (storesNothing : storedKey event = none)
    (versions : Versions) (thread : ℕ) :
    (versions.after thread event).stored = versions.stored := by
  rw [after, storesNothing]

end Versions

/-- The versions after a trace. -/
def versionsOf : EngineTrace → Versions
  | [] => ⟨0, fun _ => none, fun _ => 0⟩
  | (thread, event) :: earlier => (versionsOf earlier).after thread event

/-- How far the mutating program has come. -/
def mutatorStage (mutator : ℕ) (trace : EngineTrace) : Status :=
  track writtenAfter .untouched mutator trace

/-! ## Conditions on a run -/

/-- The purge does not fail. -/
def purgeSucceeds : World → EngineTrace → ℕ → Port → Choice → Prop :=
  fun _ _ _ port choice => match port with
    | .cache (.invalidateUser _ _) => choice.fault = none
    | _ => True

/-- After the purge no entry is stored that was computed from what the stores held before. -/
def storesCurrent (mutator : ℕ) : World → EngineTrace → ℕ → Port → Choice → Prop :=
  fun _ trace thread port _ => match port with
    | .cache (.set _ _) => mutatorStage mutator trace = .purged →
        (versionsOf trace).basisOf thread = (versionsOf trace).current
    | _ => True

/-- What is found in the cache while no mutation is under way is up to date. -/
def FoundCurrent (mutator : ℕ) (trace : EngineTrace) : Prop :=
  Throughout (fun thread event earlier =>
    thread ≠ mutator → mutatorStage mutator earlier ≠ .touched →
      ∀ key, foundKey event = some key →
        (versionsOf earlier).stored key = (versionsOf earlier).current) trace

/-! ## The invariant -/

/-- While no mutation is under way, the tenant's entries in the cache are up to date. -/
structure CacheCurrent (tenant : TenantContext) (mutator : ℕ) (world : World)
    (trace : EngineTrace) : Prop where
  real : mutatorStage mutator trace ≠ .unreal
  unchanged : mutatorStage mutator trace = .untouched → (versionsOf trace).current = 0
  past : ∀ thread, (versionsOf trace).basisOf thread ≤ (versionsOf trace).current
  cached : mutatorStage mutator trace ≠ .touched → ∀ row ∈ world.cache.entries.rows,
    row.1.tenant = tenant → (versionsOf trace).stored row.1 = (versionsOf trace).current
  found : FoundCurrent mutator trace

section Steps

variable {platform : Platform} {tenant : TenantContext} {mutator thread : ℕ} {world later : World}
  {trace : EngineTrace}

theorem serve_cache {port : Port} (notCache : ∀ call, port ≠ .cache call) (choice : Choice)
    (world : World) : (World.serve platform choice port world).2.cache = world.cache := by
  cases port with
  | cache call => exact absurd rfl (notCache call)
  | system call => cases call <;> rfl
  | coordinator call =>
    cases call with
    | lockWithTimeout lock =>
      simp only [World.serve, World.serveCoordinator]
      split <;> rfl
    | tryStartRefresh key =>
      simp only [World.serve, World.serveCoordinator]
      split <;> rfl
    | _ => rfl
  | _ =>
    simp only [World.serve, World.unlessFault]
    cases choice.fault <;> rfl

/-- A step that changes neither the stores nor, except by dropping entries, the cache. -/
theorem CacheCurrent.still (invariant : CacheCurrent tenant mutator world trace)
    {event : EngineEvent} (stage : mutatorStage mutator ((thread, event) :: trace) =
      mutatorStage mutator trace) (changesNothing : changesStores event = false)
    (storesNothing : storedKey event = none)
    (dropped : ∀ row ∈ later.cache.entries.rows, row ∈ world.cache.entries.rows)
    (found : ∀ key, foundKey event = some key → thread ≠ mutator →
      mutatorStage mutator trace ≠ .touched →
        (versionsOf trace).stored key = (versionsOf trace).current) :
    CacheCurrent tenant mutator later ((thread, event) :: trace) where
  real := stage ▸ invariant.real
  unchanged untouched := by
    rw [versionsOf, Versions.after_current changesNothing]
    exact invariant.unchanged (stage.symm.trans untouched)
  past := Versions.basisOf_le invariant.past thread event
  cached settled row kept own := by
    rw [versionsOf, Versions.after_current changesNothing, Versions.after_stored storesNothing]
    exact invariant.cached (stage ▸ settled) row (dropped row kept) own
  found := ⟨fun other settled key hit => found key hit other settled, invariant.found⟩

/-- The mutating program writes. -/
theorem CacheCurrent.change (invariant : CacheCurrent tenant mutator world trace)
    {event : EngineEvent} (stage : mutatorStage mutator ((mutator, event) :: trace) = .touched) :
    CacheCurrent tenant mutator later ((mutator, event) :: trace) where
  real := by simp [stage]
  unchanged := by simp [stage]
  past := Versions.basisOf_le invariant.past mutator event
  cached settled := absurd stage settled
  found := ⟨fun other => absurd rfl other, invariant.found⟩

/-- The mutating program purges the cache. -/
theorem CacheCurrent.purge (invariant : CacheCurrent tenant mutator world trace)
    (orgId userId : String) (own : (⟨orgId, userId⟩ : TenantContext) = tenant) (count : ℕ) :
    CacheCurrent tenant mutator
      { world with cache := world.cache.invalidateUser ⟨orgId, userId⟩ }
      ((mutator, ⟨.cache (.invalidateUser orgId userId), .ok count⟩) :: trace) := by
  have stage : mutatorStage mutator
      ((mutator, ⟨.cache (.invalidateUser orgId userId), .ok count⟩) :: trace) = .purged :=
    track_own _ _ _ _ _
  refine ⟨by simp [stage], by simp [stage], Versions.basisOf_le invariant.past _ _, ?_,
    ⟨fun other => absurd rfl other, invariant.found⟩⟩
  intro _ row kept sameTenant
  have gone := ((InMemoryContextCache.mem_invalidateUser _ _ _).mp kept).2
  exact absurd (sameTenant.trans own.symm) gone

/-- A computation stores its entry. -/
theorem CacheCurrent.store (invariant : CacheCurrent tenant mutator world trace)
    (other : thread ≠ mutator) (now : Instant) (key : ContextCacheKey) (entry : CachedContextEntry)
    (permitted : mutatorStage mutator trace = .purged →
      (versionsOf trace).basisOf thread = (versionsOf trace).current) :
    CacheCurrent tenant mutator { world with cache := world.cache.set now key entry }
      ((thread, ⟨.cache (.set key entry), .ok ()⟩) :: trace) := by
  have stage : mutatorStage mutator ((thread, ⟨.cache (.set key entry), .ok ()⟩) :: trace) =
      mutatorStage mutator trace := track_other _ _ _ _ other
  refine ⟨stage ▸ invariant.real, fun untouched => ?_, Versions.basisOf_le invariant.past _ _,
    fun settled row kept own => ?_, ⟨fun _ _ key hit => (nomatch hit), invariant.found⟩⟩
  · exact invariant.unchanged (stage.symm.trans untouched)
  · rw [stage] at settled
    have current : (versionsOf trace).basisOf thread = (versionsOf trace).current := by
      cases before : mutatorStage mutator trace with
      | untouched =>
        have past := invariant.past thread
        rw [invariant.unchanged before] at past ⊢
        exact Nat.le_zero.mp past
      | touched => exact absurd before settled
      | purged => exact permitted before
      | unreal => exact absurd before invariant.real
    show Function.update (versionsOf trace).stored key _ row.1 = (versionsOf trace).current
    rcases InMemoryContextCache.mem_set kept with rfl | ⟨stored, different⟩
    · rw [Function.update_self, current]
    · rw [Function.update_of_ne different]
      exact invariant.cached settled row stored own

theorem storedKey_eq_none {port : Port} (notCache : ∀ call, port ≠ .cache call)
    (answer : MemcoreResult port.Answer) : storedKey ⟨port, answer⟩ = none := by
  cases port with
  | cache call => exact absurd rfl (notCache call)
  | _ => rfl

theorem foundKey_eq_none {port : Port} (notCache : ∀ call, port ≠ .cache call)
    (answer : MemcoreResult port.Answer) : foundKey ⟨port, answer⟩ = none := by
  cases port with
  | cache call => exact absurd rfl (notCache call)
  | _ => rfl

/-- Every step of the mutating program keeps the invariant. -/
theorem CacheCurrent.mutate (invariant : CacheCurrent tenant mutator world trace) {port : Port}
    (allowed : (writeProtocol tenant).allows (mutatorStage mutator trace) port) (choice : Choice)
    (succeeds : purgeSucceeds world trace mutator port choice) :
    CacheCurrent tenant mutator (World.serve platform choice port world).2
      ((mutator, ⟨port, (World.serve platform choice port world).1⟩) :: trace) := by
  by_cases notCache : ∀ call, port ≠ .cache call
  · have stage : mutatorStage mutator
        ((mutator, ⟨port, (World.serve platform choice port world).1⟩) :: trace) = _ :=
      track_own _ _ _ _ _
    rw [writtenAfter_eq notCache] at stage
    by_cases changes : changesStores ⟨port, (World.serve platform choice port world).1⟩ = true
    · rw [if_pos changes] at stage
      exact invariant.change stage
    · rw [if_neg changes] at stage
      apply invariant.still stage (Bool.eq_false_of_not_eq_true changes)
        (storedKey_eq_none notCache _)
      · rw [serve_cache notCache]
        exact fun _ stored => stored
      · intro key hit
        rw [foundKey_eq_none notCache] at hit
        contradiction
  · cases port with
    | cache call =>
      cases call with
      | invalidateUser orgId userId =>
        have faultless : choice.fault = none := succeeds
        simp only [World.serve, World.unlessFault, faultless, InMemoryContextCache.serve]
        exact invariant.purge orgId userId allowed.1 _
      | _ => exact allowed.1.elim
    | _ => exact absurd (by simp) notCache

/-- A reader changes nothing in the stores. -/
theorem ReaderCall.changesNothing {port : Port} (own : ReaderCall tenant port)
    (answer : MemcoreResult port.Answer) : changesStores ⟨port, answer⟩ = false := by
  cases answer with
  | error error => rfl
  | ok value =>
    cases port with
    | facts call => cases call <;> first | rfl | exact own.elim
    | vectors call => cases call <;> first | rfl | exact own.elim
    | _ => rfl

/-- Every step of another program keeps the invariant, if it stores no outdated entry. -/
theorem CacheCurrent.read (invariant : CacheCurrent tenant mutator world trace)
    (other : thread ≠ mutator) {port : Port} (own : ReaderCall tenant port) (choice : Choice)
    (permitted : storesCurrent mutator world trace thread port choice) :
    CacheCurrent tenant mutator (World.serve platform choice port world).2
      ((thread, ⟨port, (World.serve platform choice port world).1⟩) :: trace) := by
  have stage : mutatorStage mutator
      ((thread, ⟨port, (World.serve platform choice port world).1⟩) :: trace) =
        mutatorStage mutator trace := track_other _ _ _ _ other
  have changesNothing := own.changesNothing (World.serve platform choice port world).1
  by_cases notCache : ∀ call, port ≠ .cache call
  · apply invariant.still stage changesNothing (storedKey_eq_none notCache _)
    · rw [serve_cache notCache]
      exact fun _ stored => stored
    · intro key hit
      rw [foundKey_eq_none notCache] at hit
      contradiction
  · cases port with
    | cache call =>
      cases fault : choice.fault with
      | some error =>
        have served : World.serve platform choice (.cache call) world = (.error error, world) := by
          simp only [World.serve, World.unlessFault, fault]
        rw [served] at stage changesNothing ⊢
        apply invariant.still stage changesNothing
        · cases call <;> rfl
        · exact fun _ stored => stored
        · intro key hit
          cases call <;> cases hit
      | none =>
        have served : World.serve platform choice (.cache call) world =
            ((world.cache.serve choice.now call).1,
              { world with cache := (world.cache.serve choice.now call).2 }) := by
          simp only [World.serve, World.unlessFault, fault]
        rw [served] at stage changesNothing ⊢
        have hits (key : ContextCacheKey) (entry : CachedContextEntry)
            (sameTenant : key.tenant = tenant)
            (stored : (key, entry) ∈ world.cache.entries.rows)
            (settled : mutatorStage mutator trace ≠ .touched) :
            (versionsOf trace).stored key = (versionsOf trace).current :=
          invariant.cached settled (key, entry) stored sameTenant
        cases call with
        | get key =>
          apply invariant.still stage changesNothing rfl
          · exact fun _ => InMemoryContextCache.mem_get
          · intro other hit _ settled
            cases found : (world.cache.get choice.now key).1 with
            | none => simp [foundKey, InMemoryContextCache.serve, found] at hit
            | some entry =>
              obtain rfl : key = other := by
                simpa [foundKey, InMemoryContextCache.serve, found] using hit
              exact hits key entry own (InMemoryContextCache.get_some found) settled
        | getAny key =>
          apply invariant.still stage changesNothing rfl
          · exact fun _ => InMemoryContextCache.mem_getAny
          · intro other hit _ settled
            cases found : (world.cache.getAny choice.now key).1 with
            | none => simp [foundKey, InMemoryContextCache.serve, found] at hit
            | some entry =>
              obtain rfl : key = other := by
                simpa [foundKey, InMemoryContextCache.serve, found] using hit
              exact hits key entry own (InMemoryContextCache.getAny_some found) settled
        | set key entry => exact invariant.store other choice.now key entry permitted
        | invalidateUser orgId userId => exact own.elim
    | _ => exact absurd (by simp) notCache

end Steps

/-! ## Runs -/

/-- The calls of a reading operation. -/
def readProtocol (tenant : TenantContext) : Protocol enginePorts MemcoreError Status where
  allows _ port := ReaderCall tenant port
  next status _ _ := status

/-- The purge succeeds, and no outdated entry is stored after it. -/
def keepsCurrent (mutator : ℕ) : World → EngineTrace → ℕ → Port → Choice → Prop :=
  fun world trace thread port choice =>
    purgeSucceeds world trace thread port choice ∧
    storesCurrent mutator world trace thread port choice

/-- One mutating operation beside any number of operations that read, of one tenant. -/
structure MutationAmongReaders (operations : ℕ → EngineOperation) (mutator : ℕ) : Prop where
  changes : (operations mutator).ChangesMemories
  readers : ∀ thread, thread ≠ mutator → ¬ (operations thread).Mutates
  tenants : ∀ thread, (operations thread).tenant = (operations mutator).tenant

section Runs

variable {engine : MemoryEngine} {operations : ℕ → EngineOperation} {mutator : ℕ} {world : World}
  {pool : Pool enginePorts MemcoreError Unit World}

/-- The protocol of each program, the mutating one with its promise. -/
def mixedProtocol (tenant : TenantContext) (mutator thread : ℕ) :
    Protocol enginePorts MemcoreError Status :=
  if thread = mutator then writeProtocol tenant else readProtocol tenant

def mixedPromise (mutator thread : ℕ) (outcome : MemcoreResult Unit) (status : Status) : Prop :=
  thread = mutator → onSuccess settled outcome status

theorem operations_follow (enabled : engine.contextCacheConfig.enabled = true)
    (among : MutationAmongReaders operations mutator) :
    Pool.Follow (mixedProtocol (operations mutator).tenant mutator) (mixedPromise mutator)
      (Pool.start world fun thread => (operations thread).program engine)
      fun _ => .untouched := by
  intro thread
  by_cases same : thread = mutator
  · subst same
    rw [mixedProtocol, if_pos rfl]
    have keeps := (succeeds_iff _ _ _ _).mp (operation_settled engine enabled among.changes)
    exact Ensures.mono (writeProtocol _).spec_monotone keeps fun _ _ holds _ => holds
  · rw [mixedProtocol, if_neg same, ← among.tenants thread]
    have within := (operations thread).program_reader engine (among.readers thread same)
    exact Ensures.mono (readProtocol _).spec_monotone
      (within.stays (readProtocol _) (fun _ own => own) fun _ _ _ => rfl)
      fun _ _ _ own => absurd own same

/-- Throughout a run the invariant holds, and the stage of the mutating program is the one that
its answers have led to. -/
theorem cacheCurrent_of_reached (enabled : engine.contextCacheConfig.enabled = true)
    (among : MutationAmongReaders operations mutator)
    (reached : Pool.Reaches (engineServer engine.platform) (keepsCurrent mutator)
      (Pool.start world fun thread => (operations thread).program engine) pool) :
    CacheCurrent (operations mutator).tenant mutator pool.world pool.trace ∧
      (pool.threads mutator = .done () → mutatorStage mutator pool.trace ≠ .touched) := by
  have initially : CacheCurrent (operations mutator).tenant mutator world [] := by
    constructor
    · exact fun same => nomatch same
    · exact fun _ => rfl
    · exact fun _ => Nat.le_refl _
    · exact fun _ _ _ _ => rfl
    · trivial
  have keeps (world : World) (trace : EngineTrace) (stages : ℕ → Status) (thread : ℕ) (port : Port)
      (choice : Choice) (holds : stages mutator = mutatorStage mutator trace ∧
        CacheCurrent (operations mutator).tenant mutator world trace)
      (allowed : (mixedProtocol (operations mutator).tenant mutator thread).allows (stages thread)
        port)
      (permitted : keepsCurrent mutator world trace thread port choice) :
      Function.update stages thread ((mixedProtocol (operations mutator).tenant mutator thread).next
          (stages thread) port (World.serve engine.platform choice port world).1) mutator =
        mutatorStage mutator
          ((thread, ⟨port, (World.serve engine.platform choice port world).1⟩) :: trace) ∧
      CacheCurrent (operations mutator).tenant mutator
        (World.serve engine.platform choice port world).2
        ((thread, ⟨port, (World.serve engine.platform choice port world).1⟩) :: trace) := by
    obtain ⟨stage, invariant⟩ := holds
    by_cases same : thread = mutator
    · subst same
      rw [mixedProtocol, if_pos rfl] at allowed ⊢
      rw [stage] at allowed
      refine ⟨?_, invariant.mutate allowed choice permitted.1⟩
      rw [Function.update_self, stage]
      show writtenAfter (mutatorStage thread trace) _ = _
      exact (track_own _ _ _ _ _).symm
    · rw [mixedProtocol, if_neg same] at allowed
      refine ⟨?_, invariant.read same allowed choice permitted.2⟩
      rw [Function.update_of_ne (Ne.symm same), stage]
      exact (track_other _ _ _ _ same).symm
  obtain ⟨stages, ⟨stage, invariant⟩, follow⟩ := reached.invariant
    (fun world trace stages thread port choice holds allowed _ permitted =>
      keeps world trace stages thread port choice holds allowed permitted)
    (operations_follow enabled among) ⟨rfl, initially⟩
  refine ⟨invariant, fun returned => ?_⟩
  rw [← stage]
  exact follow.returned returned rfl

end Runs

/-- An event of a program that has none in the first stretch of a trace is in the second. -/
theorem split_of_absent {more first later earlier : EngineTrace} {thread : ℕ} {event : EngineEvent}
    (absent : ∀ entry ∈ first, entry.1 ≠ thread)
    (split : more ++ first = later ++ (thread, event) :: earlier) :
    ∃ between, more = later ++ (thread, event) :: between ∧ earlier = between ++ first := by
  rcases List.append_eq_append_iff.mp split with ⟨before, _, rest⟩ | ⟨before, parts, rest⟩
  · have listed : (thread, event) ∈ first := by
      rw [rest]
      simp
    exact absurd rfl (absent _ listed)
  · cases before with
    | nil =>
      have listed : (thread, event) ∈ first := by
        rw [List.nil_append] at rest
        rw [← rest]
        exact List.mem_cons_self
      exact absurd rfl (absent _ listed)
    | cons entry between =>
      obtain ⟨rfl, rfl⟩ := List.cons.inj rest
      exact ⟨between, parts, rfl⟩

/-- In every interleaving of one operation that adds, deletes or forgets memories with any number
of requests for contexts, refreshes and searches of the tenant, in which the purge succeeds and no
computation stores what it read before the stores last changed after the purge: whatever a program
finds in the cache that starts after the mutation has returned was computed from the stores as the
mutation left them. -/
theorem no_stale_contexts (engine : MemoryEngine)
    (enabled : engine.contextCacheConfig.enabled = true) (operations : ℕ → EngineOperation)
    (mutator : ℕ) (among : MutationAmongReaders operations mutator) (world : World)
    (returned last : Pool enginePorts MemcoreError Unit World)
    (before : Pool.Reaches (engineServer engine.platform) (keepsCurrent mutator)
      (Pool.start world fun thread => (operations thread).program engine) returned)
    (isDone : returned.threads mutator = .done ())
    (afterwards : Pool.Reaches (engineServer engine.platform) (keepsCurrent mutator) returned last)
    (thread : ℕ) (reads : thread ≠ mutator) (starts : ∀ entry ∈ returned.trace, entry.1 ≠ thread)
    (later earlier : EngineTrace) (event : EngineEvent)
    (happens : last.trace = later ++ (thread, event) :: earlier) (key : ContextCacheKey)
    (found : foundKey event = some key) :
    (versionsOf earlier).stored key = (versionsOf earlier).current := by
  have settledThen := (cacheCurrent_of_reached enabled among before).2 isDone
  have invariant := (cacheCurrent_of_reached enabled among (before.append afterwards)).1
  obtain ⟨more, extended, silent⟩ := afterwards.silent isDone
  obtain ⟨between, parts, rfl⟩ := split_of_absent starts (extended.symm.trans happens)
  have stage : mutatorStage mutator (between ++ returned.trace) =
      mutatorStage mutator returned.trace := by
    apply track_silent
    intro entry listed
    exact silent entry (by rw [parts]; simp [listed])
  have right := invariant.found
  rw [FoundCurrent, happens] at right
  exact right.holds reads (stage ▸ settledThen) key found

section Sample

instance : ∀ world trace thread port choice,
    Decidable (purgeSucceeds world trace thread port choice) := by
  intro world trace thread port choice
  unfold purgeSucceeds
  split <;> infer_instance

instance : ∀ mutator world trace thread port choice,
    Decidable (keepsCurrent mutator world trace thread port choice) := by
  intro mutator world trace thread port choice
  unfold keepsCurrent storesCurrent
  split <;> infer_instance

/-- A memory is deleted while its tenant asks for contexts. -/
def sampleMutation : ℕ → EngineOperation
  | 0 => .deleteMemory ⟨sampleTenant, 1⟩
  | _ => .buildContext sampleContext

theorem sampleMutation_among : MutationAmongReaders sampleMutation 0 := by
  constructor
  · trivial
  · intro thread reads
    cases thread with
    | zero => exact absurd rfl reads
    | succ number => exact id
  · intro thread
    cases thread <;> rfl

/-- Whether the deletion has returned and the third program has not started. -/
def mutationReturned (pool : Pool enginePorts MemcoreError Unit World) : Bool :=
  Pool.hasReturned (pool.threads 0) && pool.trace.all fun entry => decide (entry.1 ≠ 2)

/-- What the third program has just found: the versions then, and the key. -/
def lastFound (pool : Pool enginePorts MemcoreError Unit World) :
    Option (Versions × ContextCacheKey) :=
  match pool.trace with
  | (2, event) :: earlier => (foundKey event).map fun key => (versionsOf earlier, key)
  | _ => none

theorem mutationReturned_iff {pool : Pool enginePorts MemcoreError Unit World} :
    mutationReturned pool = true ↔
      pool.threads 0 = .done () ∧ ∀ entry ∈ pool.trace, entry.1 ≠ 2 := by
  have unit : (∃ value, pool.threads 0 = .done value) ↔ pool.threads 0 = .done () :=
    ⟨fun ⟨(), returned⟩ => returned, fun returned => ⟨(), returned⟩⟩
  rw [mutationReturned, Bool.and_eq_true, Pool.hasReturned_iff, unit, List.all_eq_true]
  simp only [decide_eq_true_eq]

theorem lastFound_eq_some {pool : Pool enginePorts MemcoreError Unit World} {versions : Versions}
    {key : ContextCacheKey} (found : lastFound pool = some (versions, key)) :
    ∃ event earlier, pool.trace = (2, event) :: earlier ∧ foundKey event = some key ∧
      versions = versionsOf earlier := by
  unfold lastFound at found
  split at found
  · rename_i event earlier happens
    obtain ⟨other, named, same⟩ := Option.map_eq_some_iff.mp found
    obtain ⟨rfl, rfl⟩ := Prod.mk.inj same
    exact ⟨event, earlier, happens, named, rfl⟩
  · contradiction

/-- A context is computed after the deletion, and the next request is answered with it. -/
theorem no_stale_contexts_sample : ∃ world returned last event earlier key,
    Pool.Reaches (engineServer .sample) (keepsCurrent 0)
      (Pool.start world fun thread => (sampleMutation thread).program .sample) returned ∧
    Pool.Reaches (engineServer .sample) (keepsCurrent 0) returned last ∧
    last.trace = (2, event) :: earlier ∧ foundKey event = some key ∧
    (versionsOf earlier).stored key = (versionsOf earlier).current := by
  obtain ⟨world, _, passes⟩ := @exists_history_of_replay .sample cacheFaultless _ anyOutcome _ 1000
    [(sampleAdd, sampleAddChoices 1 [1] ++ plainChoices 1)]
    (fun world => (Pool.run (engineServer .sample) (keepsCurrent 0) (turns 0 6)
      (Pool.start world fun thread => (sampleMutation thread).program .sample)).any fun pool =>
        mutationReturned pool && (Pool.run (engineServer .sample) (keepsCurrent 0)
          (turns 1 15 ++ turns 2 1) pool).any fun last => (lastFound last).isSome)
    (by decide +kernel)
  obtain ⟨returned, last, before, isReturned, afterwards, isFound⟩ :=
    Pool.exists_stretches_of_run _ _ _ _ _ _ _ passes
  obtain ⟨isDone, starts⟩ := mutationReturned_iff.mp isReturned
  obtain ⟨⟨versions, key⟩, lookedUp⟩ := Option.isSome_iff_exists.mp isFound
  obtain ⟨event, earlier, happens, found, _⟩ := lastFound_eq_some lookedUp
  exact ⟨world, returned, last, event, earlier, key, before, afterwards, happens, found,
    no_stale_contexts .sample rfl sampleMutation 0 sampleMutation_among world returned last before
      isDone afterwards 2 (by decide) starts [] earlier event happens key found⟩

/-- Whether the third program has just been given an entry with a memory that is not active. -/
def servesDeleted (pool : Pool enginePorts MemcoreError Unit World) : Bool :=
  match pool.trace with
  | (2, ⟨.cache (.get _), .ok (some entry)⟩) :: _ =>
      CachedContextEntry.memories entry |>.any fun memory =>
        pool.world.facts.activeFacts.all fun fact => decide (fact.id ≠ memory.factId)
  | _ => false

/-- A request computes a context, a deletion of its memory starts and returns, and the request
stores its context. The next request starts after that and is answered with the memory. -/
theorem deleted_memory_reappears : ∃ world returned last event earlier key,
    History .sample cacheFaultless anyOutcome world ∧
    Pool.Reaches (engineServer .sample) purgeSucceeds
      (Pool.start world fun thread => (sampleMutation thread).program .sample) returned ∧
    returned.threads 0 = .done () ∧ (∀ entry ∈ returned.trace, entry.1 ≠ 2) ∧
    Pool.Reaches (engineServer .sample) purgeSucceeds returned last ∧
    last.trace = (2, event) :: earlier ∧ foundKey event = some key ∧
    (versionsOf earlier).stored key < (versionsOf earlier).current ∧
    servesDeleted last = true := by
  obtain ⟨world, history, passes⟩ := @exists_history_of_replay .sample cacheFaultless _ anyOutcome _
    1000 [(sampleAdd, sampleAddChoices 1 [1] ++ plainChoices 1)]
    (fun world => (Pool.run (engineServer .sample) purgeSucceeds (turns 1 12 ++ turns 0 6)
      (Pool.start world fun thread => (sampleMutation thread).program .sample)).any fun pool =>
        mutationReturned pool && (Pool.run (engineServer .sample) purgeSucceeds
          (turns 1 1 ++ turns 2 1) pool).any fun last => servesDeleted last &&
            (lastFound last).any fun (found : Versions × ContextCacheKey) =>
              decide (found.1.stored found.2 < found.1.current))
    (by decide +kernel)
  obtain ⟨returned, last, before, isReturned, afterwards, isFound⟩ :=
    Pool.exists_stretches_of_run _ _ _ _ _ _ _ passes
  obtain ⟨isDone, starts⟩ := mutationReturned_iff.mp isReturned
  obtain ⟨serves, isOld⟩ := (Bool.and_eq_true _ _).mp isFound
  obtain ⟨⟨versions, key⟩, lookedUp, older⟩ := (Option.any_eq_true _ _).mp isOld
  obtain ⟨event, earlier, happens, found, rfl⟩ := lastFound_eq_some lookedUp
  exact ⟨world, returned, last, event, earlier, key, history, before, isDone, starts, afterwards,
    happens, found, of_decide_eq_true older, serves⟩

end Sample

end Memcore
