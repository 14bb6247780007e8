import Memcore.Engine.Operations
import Memcore.Guarantees.MutexProtocol

/-!
# Coalescing of computations

Stampede protection is to keep two computations for one key from being in progress
at once. The mutex of a key serves that end as long as it is the one that the key
is mapped to. It is unmapped by its holder, whoever else waits for it, and a waiter
that then acquires it is not seen by a newcomer, who is given another mutex. No two
computations overlap in any run in which each begins under the mapped mutex.
-/
namespace Memcore

open KeyedTables Ports Programs

/-- What has been answered to whom, most recent first. -/
abbrev EngineTrace := Programs.History enginePorts MemcoreError

/-- The mutex that a program was given last, after one more event. -/
def givenAfter (given : Option LockId) : EngineEvent → Option LockId
  | ⟨.coordinator (.lockForKey _), .ok lock⟩ => some lock
  | _ => given

/-- Whether a computation for a key is in progress, after one more event. -/
def progressAfter (key : ContextCacheKey) (computing : Bool) : EngineEvent → Bool
  | ⟨.coordinator (.computeBegins begun), _⟩ => decide (begun = key) || computing
  | ⟨.coordinator (.computeEnds ended), _⟩ => !decide (ended = key) && computing
  | _ => computing

/-- The mutex that a program was given last. -/
def mutexGiven (thread : ℕ) (trace : EngineTrace) : Option LockId :=
  track givenAfter none thread trace

/-- Whether a program has begun a computation for a key and not ended it. -/
def inProgress (key : ContextCacheKey) (thread : ℕ) (trace : EngineTrace) : Bool :=
  track (progressAfter key) false thread trace

/-- A computation begins under the mutex that its key is mapped to. -/
def beginsMapped : World → EngineTrace → ℕ → Port → Choice → Prop :=
  fun world trace thread port _ => match port with
    | .coordinator (.computeBegins key) => world.locks.inflight.find? key =
        (mutexGiven thread trace).map fun lock => (key, lock)
    | _ => True

instance : ∀ world trace thread port choice,
    Decidable (beginsMapped world trace thread port choice) := by
  intro world trace thread port choice
  unfold beginsMapped
  split <;> infer_instance

/-- How the stage of one program fits the mutexes and the trace. -/
structure Fits (locks : InflightLocks) (trace : EngineTrace) (thread : ℕ) (hold : Hold) :
    Prop where
  real : hold ≠ .unreal
  locked : ∀ lock, hold.owned = some lock → lock ∈ locks.locked
  mapped : ∀ key lock, hold = .computing key lock →
    locks.inflight.find? key = some (key, lock)
  given : ∀ lock, hold.mutex = some lock → mutexGiven thread trace = some lock
  marked : ∀ key, inProgress key thread trace = true → ∃ lock, hold = .computing key lock

/-- Every program fits, and no two of them own one mutex. -/
structure MutexInvariant (locks : InflightLocks) (trace : EngineTrace) (holds : ℕ → Hold) :
    Prop where
  fits : ∀ thread, Fits locks trace thread (holds thread)
  exclusive : ∀ first second lock, (holds first).owned = some lock →
    (holds second).owned = some lock → first = second

/-! ## Mutexes -/

theorem find?_lockForKey (locks : InflightLocks) (key other : ContextCacheKey) (lock : LockId)
    (found : locks.inflight.find? other = some (other, lock)) :
    (World.lockForKey locks key).2.inflight.find? other = some (other, lock) := by
  unfold World.lockForKey
  cases mapped : locks.inflight.find? key with
  | some row => exact found
  | none =>
    have absent := (locks.inflight.find?_eq_none key).mp mapped
    obtain ⟨stored, _⟩ := (locks.inflight.find?_eq_some other (other, lock)).mp found
    refine (Table.find?_eq_some _ _ _).mpr ⟨?_, rfl⟩
    exact (Table.mem_put _ _ _).mpr (.inr ⟨stored, absent _ stored⟩)

theorem lockForKey_locked (locks : InflightLocks) (key : ContextCacheKey) :
    (World.lockForKey locks key).2.locked = locks.locked := by
  unfold World.lockForKey
  split <;> rfl

theorem find?_cleanupInflightLock (locks : InflightLocks) (key other : ContextCacheKey)
    (lock held : LockId) (found : locks.inflight.find? other = some (other, held))
    (different : ¬ (other = key ∧ held = lock)) :
    (World.cleanupInflightLock locks key lock).inflight.find? other = some (other, held) := by
  unfold World.cleanupInflightLock
  split_ifs with mapped
  · have kept : other ≠ key := by
      rintro rfl
      have same : some (other, held) = some (other, lock) := found.symm.trans mapped
      simp only [Option.some.injEq, Prod.mk.injEq, true_and] at same
      exact different ⟨rfl, same⟩
    obtain ⟨stored, _⟩ := (locks.inflight.find?_eq_some other (other, held)).mp found
    refine (Table.find?_eq_some _ _ _).mpr ⟨?_, rfl⟩
    exact (Table.mem_retain _ _ _).mpr ⟨stored, by simpa using kept⟩
  · exact found

theorem cleanupInflightLock_locked (locks : InflightLocks) (key : ContextCacheKey)
    (lock : LockId) : (World.cleanupInflightLock locks key lock).locked = locks.locked := by
  unfold World.cleanupInflightLock
  split_ifs <;> rfl

/-! ## Steps -/

section Steps

variable {locks later : InflightLocks} {trace : EngineTrace} {holds : ℕ → Hold}
  {thread : ℕ} {hold : Hold} {event : EngineEvent}

/-- A program that does not move still fits if its mutex is left to it. -/
theorem Fits.frame {other : ℕ} (fits : Fits locks trace other hold) (different : thread ≠ other)
    (locked : ∀ lock, hold.owned = some lock → lock ∈ locks.locked → lock ∈ later.locked)
    (mapped : ∀ key lock, hold = .computing key lock →
      locks.inflight.find? key = some (key, lock) →
        later.inflight.find? key = some (key, lock)) :
    Fits later ((thread, event) :: trace) other hold where
  real := fits.real
  locked lock owned := locked lock owned (fits.locked lock owned)
  mapped key lock computing := mapped key lock computing (fits.mapped key lock computing)
  given lock mutex := (track_other _ _ _ _ different).trans (fits.given lock mutex)
  marked key progress := fits.marked key ((track_other _ _ _ _ different).symm.trans progress)

/-- One program moves; it fits where it comes to, owns nothing of the others, and leaves
their mutexes alone. -/
theorem MutexInvariant.move (invariant : MutexInvariant locks trace holds)
    (own : Fits later ((thread, event) :: trace) thread hold)
    (apart : ∀ other lock, other ≠ thread → hold.owned = some lock →
      (holds other).owned ≠ some lock)
    (locked : ∀ other lock, other ≠ thread → (holds other).owned = some lock →
      lock ∈ locks.locked → lock ∈ later.locked)
    (mapped : ∀ other key lock, other ≠ thread → holds other = .computing key lock →
      locks.inflight.find? key = some (key, lock) →
        later.inflight.find? key = some (key, lock)) :
    MutexInvariant later ((thread, event) :: trace) (Function.update holds thread hold) := by
  constructor
  · intro other
    by_cases same : other = thread
    · subst same
      rw [Function.update_self]
      exact own
    · rw [Function.update_of_ne same]
      exact (invariant.fits other).frame (Ne.symm same) (fun lock => locked other lock same)
        fun key lock => mapped other key lock same
  · intro first second lock firstOwns secondOwns
    by_cases isFirst : first = thread
    · by_cases isSecond : second = thread
      · exact isFirst.trans isSecond.symm
      · rw [Function.update_of_ne isSecond] at secondOwns
        rw [isFirst, Function.update_self] at firstOwns
        exact absurd secondOwns (apart second lock isSecond firstOwns)
    · rw [Function.update_of_ne isFirst] at firstOwns
      by_cases isSecond : second = thread
      · rw [isSecond, Function.update_self] at secondOwns
        exact absurd firstOwns (apart first lock isFirst secondOwns)
      · rw [Function.update_of_ne isSecond] at secondOwns
        exact invariant.exclusive first second lock firstOwns secondOwns

/-- A step that concerns no mutex and no computation. -/
theorem MutexInvariant.still (invariant : MutexInvariant locks trace holds)
    (given : ∀ given, givenAfter given event = given)
    (progress : ∀ key computing, progressAfter key computing event = computing) :
    MutexInvariant locks ((thread, event) :: trace) holds := by
  refine ⟨fun other => ?_, invariant.exclusive⟩
  have fits := invariant.fits other
  by_cases same : thread = other
  · subst same
    refine ⟨fits.real, fits.locked, fits.mapped, ?_, ?_⟩
    · intro lock mutex
      rw [mutexGiven, track_own, given]
      exact fits.given lock mutex
    · intro key marked
      rw [inProgress, track_own, progress] at marked
      exact fits.marked key marked
  · exact fits.frame same (fun _ _ stays => stays) fun _ _ _ stays => stays

theorem Fits.notInProgress (fits : Fits locks trace thread hold)
    (idle : ∀ key lock, hold ≠ .computing key lock) (key : ContextCacheKey) :
    inProgress key thread trace = false := by
  by_contra progress
  obtain ⟨lock, computing⟩ := fits.marked key (by simpa using progress)
  exact idle key lock computing

/-- A program is given the mutex of a key, which may be a new one. -/
theorem MutexInvariant.refer (invariant : MutexInvariant locks trace holds)
    (nothing : holds thread = .nothing) (key : ContextCacheKey) :
    MutexInvariant (World.lockForKey locks key).2
      ((thread, ⟨.coordinator (.lockForKey key), .ok (World.lockForKey locks key).1⟩) :: trace)
      (Function.update holds thread (.waiting key (World.lockForKey locks key).1)) := by
  have fits := invariant.fits thread
  rw [nothing] at fits
  apply invariant.move
  · refine ⟨by simp, by simp [Hold.owned], by simp, ?_, ?_⟩
    · intro lock mutex
      rw [mutexGiven, track_own]
      exact mutex
    · intro other progress
      rw [inProgress, track_own] at progress
      have before := fits.notInProgress (by simp) other
      exact absurd (progress.symm.trans before) (by simp)
  · simp [Hold.owned]
  · intro other lock _ _ stored
    rwa [lockForKey_locked]
  · intro other otherKey lock _ _ found
    exact find?_lockForKey locks key otherKey lock found

/-- A program locks the free mutex that it waits for. -/
theorem MutexInvariant.acquire (invariant : MutexInvariant locks trace holds)
    {key : ContextCacheKey} {lock : LockId} (waiting : holds thread = .waiting key lock)
    (free : lock ∉ locks.locked) (given : ∀ given, givenAfter given event = given)
    (progress : ∀ key computing, progressAfter key computing event = computing) :
    MutexInvariant { locks with locked := lock :: locks.locked } ((thread, event) :: trace)
      (Function.update holds thread (.holding key lock)) := by
  have fits := invariant.fits thread
  rw [waiting] at fits
  apply invariant.move
  · refine ⟨by simp, ?_, by simp, ?_, ?_⟩
    · intro other owned
      obtain rfl : lock = other := Option.some.inj owned
      exact List.mem_cons_self
    · intro other mutex
      rw [mutexGiven, track_own, given]
      exact fits.given other mutex
    · intro other marked
      rw [inProgress, track_own, progress] at marked
      have before := fits.notInProgress (by simp) other
      exact absurd (marked.symm.trans before) (by simp)
  · intro other held _ owned otherOwns
    obtain rfl : lock = held := Option.some.inj owned
    exact free ((invariant.fits other).locked lock otherOwns)
  · intro other held _ _ stored
    exact List.mem_cons_of_mem lock stored
  · intro other otherKey held _ _ found
    exact found

/-- A program gives up waiting or releases the mutex that it holds. -/
theorem MutexInvariant.letGo (invariant : MutexInvariant locks trace holds)
    (idle : ∀ key lock, holds thread ≠ .computing key lock) {locked : List LockId}
    (kept : ∀ lock ∈ locks.locked, (holds thread).owned ≠ some lock → lock ∈ locked)
    (progress : ∀ key computing, progressAfter key computing event = computing) :
    MutexInvariant { locks with locked := locked } ((thread, event) :: trace)
      (Function.update holds thread .nothing) := by
  have fits := invariant.fits thread
  apply invariant.move
  · refine ⟨by simp, by simp [Hold.owned], by simp, by simp [Hold.mutex], ?_⟩
    intro other marked
    rw [inProgress, track_own, progress] at marked
    have before := fits.notInProgress idle other
    exact absurd (marked.symm.trans before) (by simp)
  · simp [Hold.owned]
  · intro other lock different owned stored
    apply kept lock stored
    intro own
    exact different (invariant.exclusive other thread lock owned own)
  · intro other key lock _ _ found
    exact found

/-- The holder of a mutex unmaps it. -/
theorem MutexInvariant.cleanup (invariant : MutexInvariant locks trace holds)
    {key : ContextCacheKey} {lock : LockId} (holding : holds thread = .holding key lock) :
    MutexInvariant (World.cleanupInflightLock locks key lock)
      ((thread, ⟨.coordinator (.cleanupInflightLock key lock), .ok ()⟩) :: trace) holds := by
  have still := @MutexInvariant.still locks trace holds thread
    ⟨.coordinator (.cleanupInflightLock key lock), .ok ()⟩ invariant (fun _ => rfl) fun _ _ => rfl
  refine ⟨fun other => ?_, invariant.exclusive⟩
  have fits := still.fits other
  refine ⟨fits.real, ?_, ?_, fits.given, fits.marked⟩
  · intro held owned
    rw [cleanupInflightLock_locked]
    exact fits.locked held owned
  · intro otherKey held computing
    apply find?_cleanupInflightLock locks key otherKey lock held (fits.mapped _ _ computing)
    rintro ⟨rfl, rfl⟩
    have owns : (holds thread).owned = some held := by rw [holding]; rfl
    have otherOwns : (holds other).owned = some held := by rw [computing]; rfl
    have same := invariant.exclusive other thread held otherOwns owns
    rw [same, holding] at computing
    exact absurd computing (by simp)

/-- A computation begins under the mutex that its key is mapped to. -/
theorem MutexInvariant.begin (invariant : MutexInvariant locks trace holds)
    {key : ContextCacheKey} {lock : LockId} (holding : holds thread = .holding key lock)
    (mapped : locks.inflight.find? key =
      (mutexGiven thread trace).map fun lock => (key, lock)) :
    MutexInvariant locks ((thread, ⟨.coordinator (.computeBegins key), .ok ()⟩) :: trace)
      (Function.update holds thread (.computing key lock)) := by
  have fits := invariant.fits thread
  rw [holding] at fits
  have given := fits.given lock rfl
  apply invariant.move
  · refine ⟨by simp, fits.locked, ?_, ?_, ?_⟩
    · rintro _ _ ⟨⟩
      rw [mapped, given]
      rfl
    · intro other mutex
      rw [mutexGiven, track_own]
      exact fits.given other mutex
    · intro other marked
      rw [inProgress, track_own] at marked
      have before : track (progressAfter other) false thread trace = false :=
        fits.notInProgress (by simp) other
      simp only [progressAfter, before, Bool.or_false, decide_eq_true_eq] at marked
      exact ⟨lock, by rw [marked]⟩
  · intro other held different owned otherOwns
    have owns : (holds thread).owned = some held := by rw [holding]; exact owned
    exact different (invariant.exclusive other thread held otherOwns owns)
  · intro other held _ _ stored
    exact stored
  · intro other otherKey held _ _ found
    exact found

/-- A computation ends, and its mutex is still held. -/
theorem MutexInvariant.finish (invariant : MutexInvariant locks trace holds)
    {key : ContextCacheKey} {lock : LockId} (computing : holds thread = .computing key lock) :
    MutexInvariant locks ((thread, ⟨.coordinator (.computeEnds key), .ok ()⟩) :: trace)
      (Function.update holds thread (.holding key lock)) := by
  have fits := invariant.fits thread
  rw [computing] at fits
  apply invariant.move
  · refine ⟨by simp, fits.locked, by simp, ?_, ?_⟩
    · intro other mutex
      rw [mutexGiven, track_own]
      exact fits.given other mutex
    · intro other marked
      rw [inProgress, track_own] at marked
      simp only [progressAfter, Bool.and_eq_true, Bool.not_eq_true', decide_eq_false_iff_not]
        at marked
      obtain ⟨held, same⟩ := fits.marked other marked.2
      exact absurd (Hold.computing.inj same).1 marked.1
  · intro other held different owned otherOwns
    have owns : (holds thread).owned = some held := by rw [computing]; exact owned
    exact different (invariant.exclusive other thread held otherOwns owns)
  · intro other held _ _ stored
    exact stored
  · intro other otherKey held _ _ found
    exact found

end Steps

/-- A call that leaves the coordinator alone. -/
theorem MutexInvariant.quiet {locks : InflightLocks} {trace : EngineTrace} {holds : ℕ → Hold}
    {thread : ℕ} (invariant : MutexInvariant locks trace holds) {port : Port}
    (quiet : NoCoordination port) (answer : MemcoreResult port.Answer) :
    MutexInvariant locks ((thread, ⟨port, answer⟩) :: trace) (Function.update holds thread
      (mutexProtocol.next (holds thread) port answer)) := by
  rw [(mutexProtocol_quiet quiet (holds thread) answer).2, Function.update_eq_self]
  apply invariant.still
  · intro given
    cases port with
    | coordinator call => exact quiet.elim
    | _ => rfl
  · intro key computing
    cases port with
    | coordinator call => exact quiet.elim
    | _ => rfl

theorem serve_locks {platform : Platform} {port : Port} (quiet : NoCoordination port)
    (choice : Choice) (world : World) :
    (World.serve platform choice port world).2.locks = world.locks := by
  cases port with
  | coordinator call => exact quiet.elim
  | system call => cases call <;> rfl
  | _ => simp only [World.serve, World.unlessFault]; split <;> rfl

/-- Every step of a coordinator's caller that begins its computations under the mapped
mutex keeps the invariant. -/
theorem MutexInvariant.coordinate {world : World} {trace : EngineTrace} {holds : ℕ → Hold}
    {thread : ℕ} {choice : Choice} {call : CoordinatorCall}
    (invariant : MutexInvariant world.locks trace holds) (allowed : (holds thread).Allows call)
    (isReady : World.ready choice (.coordinator call) world = true)
    (permitted : beginsMapped world trace thread (.coordinator call) choice) :
    MutexInvariant (world.serveCoordinator choice call).2.locks
      ((thread, ⟨.coordinator call, (world.serveCoordinator choice call).1⟩) :: trace)
      (Function.update holds thread
        ((holds thread).after call (world.serveCoordinator choice call).1)) := by
  have real := (invariant.fits thread).real
  have unmoved (same : (holds thread).after call (world.serveCoordinator choice call).1 =
      holds thread) (locks : (world.serveCoordinator choice call).2.locks = world.locks)
      (given : ∀ given, givenAfter given ⟨.coordinator call,
        (world.serveCoordinator choice call).1⟩ = given)
      (progress : ∀ key computing, progressAfter key computing ⟨.coordinator call,
        (world.serveCoordinator choice call).1⟩ = computing) :
      MutexInvariant (world.serveCoordinator choice call).2.locks
        ((thread, ⟨.coordinator call, (world.serveCoordinator choice call).1⟩) :: trace)
        (Function.update holds thread
          ((holds thread).after call (world.serveCoordinator choice call).1)) := by
    rw [same, locks, Function.update_eq_self]
    exact invariant.still given progress
  cases call with
  | lockForKey key =>
    cases stage : holds thread with
    | nothing => exact invariant.refer stage key
    | unreal => exact absurd stage real
    | _ => rw [stage] at allowed; exact allowed.elim
  | tryLock lock =>
    cases stage : holds thread with
    | waiting key held =>
      rw [stage] at unmoved
      exact unmoved rfl rfl (fun _ => rfl) fun _ _ => rfl
    | unreal => exact absurd stage real
    | _ => rw [stage] at allowed; exact allowed.elim
  | lock lock =>
    cases stage : holds thread with
    | waiting key held =>
      rw [stage] at allowed
      obtain rfl : lock = held := allowed
      exact invariant.acquire stage (of_decide_eq_true isReady) (fun _ => rfl) fun _ _ => rfl
    | unreal => exact absurd stage real
    | _ => rw [stage] at allowed; exact allowed.elim
  | lockWithTimeout lock =>
    cases stage : holds thread with
    | waiting key held =>
      rw [stage] at allowed
      obtain rfl : lock = held := allowed
      cases timedOut : choice.timedOut with
      | true =>
        have gone := @MutexInvariant.letGo world.locks trace holds thread
          ⟨.coordinator (.lockWithTimeout lock), .ok false⟩ invariant (by simp [stage])
          world.locks.locked (fun _ stored _ => stored) fun _ _ => rfl
        have served : world.serveCoordinator choice (.lockWithTimeout lock) =
            (.ok false, world) := by simp [World.serveCoordinator, timedOut]
        rw [served]
        exact gone
      | false =>
        have free : lock ∉ world.locks.locked := by
          simpa [World.ready, timedOut] using isReady
        have acquired := @MutexInvariant.acquire world.locks trace holds thread
          ⟨.coordinator (.lockWithTimeout lock), .ok true⟩ invariant key lock stage free
          (fun _ => rfl) fun _ _ => rfl
        have served : world.serveCoordinator choice (.lockWithTimeout lock) = (.ok true,
            { world with locks := { world.locks with locked := lock :: world.locks.locked } }) := by
          simp [World.serveCoordinator, timedOut]
        rw [served]
        exact acquired
    | unreal => exact absurd stage real
    | _ => rw [stage] at allowed; exact allowed.elim
  | unlock lock =>
    cases stage : holds thread with
    | holding key held =>
      rw [stage] at allowed
      obtain rfl : lock = held := allowed
      apply invariant.letGo (by simp [stage])
      · intro other stored owned
        have different : lock ≠ other := by
          rintro rfl
          exact owned (by rw [stage]; rfl)
        exact List.mem_filter.mpr ⟨stored, by simpa using Ne.symm different⟩
      · exact fun _ _ => rfl
    | unreal => exact absurd stage real
    | _ => rw [stage] at allowed; exact allowed.elim
  | cleanupInflightLock key lock =>
    cases stage : holds thread with
    | holding heldKey held =>
      rw [stage] at allowed
      obtain ⟨rfl, rfl⟩ : key = heldKey ∧ lock = held := allowed
      have cleaned := invariant.cleanup stage
      show MutexInvariant _ _ (Function.update holds thread (.holding key lock))
      rw [← stage, Function.update_eq_self]
      exact cleaned
    | unreal => exact absurd stage real
    | _ => rw [stage] at allowed; exact allowed.elim
  | tryStartRefresh key =>
    by_cases inflight : key ∈ world.refreshInflight
    · apply unmoved <;> simp only [World.serveCoordinator, if_pos inflight]
      · cases holds thread <;> rfl
      · exact fun _ => rfl
      · exact fun _ _ => rfl
    · apply unmoved <;> simp only [World.serveCoordinator, if_neg inflight]
      · cases holds thread <;> rfl
      · exact fun _ => rfl
      · exact fun _ _ => rfl
  | finishRefresh key =>
    apply unmoved
    · cases holds thread <;> rfl
    · rfl
    · exact fun _ => rfl
    · exact fun _ _ => rfl
  | computeBegins key =>
    cases stage : holds thread with
    | holding heldKey held =>
      rw [stage] at allowed
      obtain rfl : key = heldKey := allowed
      exact invariant.begin stage permitted
    | unreal => exact absurd stage real
    | _ => rw [stage] at allowed; exact allowed.elim
  | computeEnds key =>
    cases stage : holds thread with
    | computing heldKey held =>
      rw [stage] at allowed
      obtain rfl : key = heldKey := allowed
      exact invariant.finish stage
    | unreal => exact absurd stage real
    | _ => rw [stage] at allowed; exact allowed.elim

/-! ## Runs -/

/-- What a program may do beside others: look up a key and compute, refresh a key, or
anything that leaves the coordinator alone, such as an invalidation. -/
inductive CacheClient where
  | getOrCompute (key : ContextCacheKey) (compute : EngineProgram CachedContextEntry)
  | refreshEntry (key : ContextCacheKey) (compute : EngineProgram CachedContextEntry)
  | bystander (program : EngineProgram Unit)

namespace CacheClient

def program (engine : MemoryEngine) : CacheClient → EngineProgram Unit
  | getOrCompute key compute => do let _ ← Memcore.getOrCompute engine key compute
  | refreshEntry key compute => Memcore.refreshEntry engine key compute
  | bystander program => program

/-- No computation and no bystander calls the coordinator. -/
def LeavesCoordinator : CacheClient → Prop
  | getOrCompute _ compute | refreshEntry _ compute => compute.Within NoCoordination
  | bystander program => program.Within NoCoordination

theorem program_settles {engine : MemoryEngine}
    (active : engine.contextCacheConfig.stampedeProtectionActive = true) {client : CacheClient}
    (leaves : client.LeavesCoordinator) : Settles .nothing (client.program engine) := by
  cases client with
  | getOrCompute key compute =>
    exact (getOrCompute_settles engine active leaves).bind fun _ => .pure ()
  | refreshEntry key compute => exact refreshEntry_settles engine active leaves
  | bystander program => exact .quiet leaves

end CacheClient

/-- In every interleaving of any number of lookups, refreshes and bystanders, with any
answers, failures and expiring time limits: if every computation begins under the mutex
that its key is mapped to, no two computations for a key are ever in progress at once. -/
theorem computations_coalesce (engine : MemoryEngine)
    (active : engine.contextCacheConfig.stampedeProtectionActive = true)
    (clients : ℕ → CacheClient) (leave : ∀ thread, (clients thread).LeavesCoordinator)
    (world : World) (pool : Pool enginePorts MemcoreError Unit World)
    (reached : Pool.Reaches (engineServer engine.platform) beginsMapped
      (Pool.start world fun thread => (clients thread).program engine) pool)
    (key : ContextCacheKey) (first second : ℕ)
    (firstComputes : inProgress key first pool.trace = true)
    (secondComputes : inProgress key second pool.trace = true) : first = second := by
  have follow : Pool.Follow (fun _ => mutexProtocol) (fun _ _ _ => True)
      (Pool.start world fun thread => (clients thread).program engine) fun _ => .nothing :=
    fun thread => (CacheClient.program_settles active (leave thread)).mono
      mutexProtocol.spec_monotone fun _ _ _ => trivial
  have initially : MutexInvariant world.locks [] fun _ => .nothing := by
    constructor
    · intro thread
      constructor <;> simp [Hold.owned, Hold.mutex, inProgress]
    · intro _ _ lock owned
      simp [Hold.owned] at owned
  have keeps (before : World) (trace : EngineTrace) (holds : ℕ → Hold) (thread : ℕ) (port : Port)
      (choice : Choice) (invariant : MutexInvariant before.locks trace holds)
      (allowed : mutexProtocol.allows (holds thread) port)
      (isReady : World.ready choice port before = true)
      (permitted : beginsMapped before trace thread port choice) :
      MutexInvariant (World.serve engine.platform choice port before).2.locks
        ((thread, ⟨port, (World.serve engine.platform choice port before).1⟩) :: trace)
        (Function.update holds thread (mutexProtocol.next (holds thread) port
          (World.serve engine.platform choice port before).1)) := by
    by_cases quiet : NoCoordination port
    · rw [serve_locks quiet]
      exact invariant.quiet quiet _
    · cases port with
      | coordinator call => exact invariant.coordinate allowed isReady permitted
      | _ => exact absurd trivial quiet
  obtain ⟨holds, invariant, _⟩ := reached.invariant keeps follow initially
  obtain ⟨firstLock, firstHolds⟩ := (invariant.fits first).marked key firstComputes
  obtain ⟨secondLock, secondHolds⟩ := (invariant.fits second).marked key secondComputes
  have firstMapped := (invariant.fits first).mapped key firstLock firstHolds
  have secondMapped := (invariant.fits second).mapped key secondLock secondHolds
  have same : some (key, firstLock) = some (key, secondLock) := firstMapped.symm.trans secondMapped
  obtain rfl : firstLock = secondLock := by simpa using same
  exact invariant.exclusive first second firstLock (by rw [firstHolds]; rfl)
    (by rw [secondHolds]; rfl)

/-- Lookups of one key, with the computation that a request for the sample context has. -/
def sampleLookup : CacheClient :=
  .getOrCompute (buildContextCacheKey .sample sampleContext) (computeContext .sample sampleContext)

theorem sampleLookup_leaves : sampleLookup.LeavesCoordinator :=
  (computeContext_within .sample sampleContext).mono fun _ => searchCall_noCoordination

/-- While one lookup computes, another one that has found the mutex taken does not. -/
theorem computations_coalesce_sample : ∃ pool,
    Pool.Reaches (engineServer .sample) beginsMapped
      (Pool.start (World.empty 1000) fun _ => sampleLookup.program .sample) pool ∧
    inProgress (buildContextCacheKey .sample sampleContext) 0 pool.trace = true ∧
    inProgress (buildContextCacheKey .sample sampleContext) 1 pool.trace = false := by
  obtain ⟨pool, reached, computes⟩ := Pool.exists_reached_of_run (engineServer .sample)
    beginsMapped (turns 0 6 ++ turns 1 3)
    (Pool.start (World.empty 1000) fun _ => sampleLookup.program .sample)
    (fun pool => inProgress (buildContextCacheKey .sample sampleContext) 0 pool.trace)
    (by decide +kernel)
  refine ⟨pool, reached, computes, ?_⟩
  by_contra other
  have same := computations_coalesce .sample rfl (fun _ => sampleLookup)
    (fun _ => sampleLookup_leaves) (World.empty 1000) pool reached _ 0 1 computes
    (by simpa using other)
  exact absurd same (by decide)

/-- No time limit expires. -/
def noTimeout : World → EngineTrace → ℕ → Port → Choice → Prop :=
  fun _ _ _ _ choice => choice.timedOut = false

instance : ∀ world trace thread port choice,
    Decidable (noTimeout world trace thread port choice) :=
  fun _ _ _ _ choice => inferInstanceAs (Decidable (choice.timedOut = false))

/-- A computation fails while a second lookup waits for its mutex. The mutex is unmapped,
the second lookup computes under it, and a third one is given another mutex and computes
as well. -/
theorem failed_computation_breaks_coalescing : ∃ pool,
    Pool.Reaches (engineServer .sample) noTimeout
      (Pool.start (World.empty 1000) fun _ => sampleLookup.program .sample) pool ∧
    inProgress (buildContextCacheKey .sample sampleContext) 1 pool.trace = true ∧
    inProgress (buildContextCacheKey .sample sampleContext) 2 pool.trace = true := by
  obtain ⟨pool, reached, computing⟩ := Pool.exists_reached_of_run (engineServer .sample)
    noTimeout (turns 0 6 ++ turns 1 3 ++ turns 0 1 ++
      [(0, { fault := some (.providerError "unavailable") })] ++ turns 0 3 ++ turns 1 3 ++
      turns 2 6)
    (Pool.start (World.empty 1000) fun _ => sampleLookup.program .sample)
    (fun pool => inProgress (buildContextCacheKey .sample sampleContext) 1 pool.trace &&
      inProgress (buildContextCacheKey .sample sampleContext) 2 pool.trace) (by decide +kernel)
  exact ⟨pool, reached, (Bool.and_eq_true _ _).mp computing⟩

end Memcore
