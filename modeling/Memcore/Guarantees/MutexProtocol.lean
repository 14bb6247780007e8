import Memcore.Engine.Footprints

/-!
# The protocol of the coordinator's mutexes

A caller of the coordinator asks for the mutex of its key, takes it, looks the key
up again, may compute, may unmap the mutex, and releases it in any case. How it
stands to the mutexes is a stage, and each coordinator call fits in some stages
only. Everything else that a program does leaves the stage alone, so that the
protocol holds for computations and for bystanders without looking at them.
-/
namespace Memcore

open Ports Programs

/-- How a program stands to the mutexes: it has none, waits for one that it was
given, holds it, or computes under it. The last stage is reached only through an
answer that the coordinator does not give. -/
inductive Hold where
  | nothing
  | waiting (key : ContextCacheKey) (lock : LockId)
  | holding (key : ContextCacheKey) (lock : LockId)
  | computing (key : ContextCacheKey) (lock : LockId)
  | unreal

namespace Hold

/-- The mutex that a program was given and has not released. -/
def mutex : Hold → Option LockId
  | waiting _ lock | holding _ lock | computing _ lock => some lock
  | _ => none

/-- The mutex that a program has locked. -/
def owned : Hold → Option LockId
  | holding _ lock | computing _ lock => some lock
  | _ => none

/-- The coordinator calls that fit in a stage. -/
def Allows : Hold → CoordinatorCall → Prop
  | unreal, _ => True
  | _, .tryStartRefresh _ | _, .finishRefresh _ => True
  | nothing, .lockForKey _ => True
  | waiting _ lock, .tryLock other | waiting _ lock, .lock other
  | waiting _ lock, .lockWithTimeout other => other = lock
  | holding key _, .computeBegins other => other = key
  | holding key lock, .cleanupInflightLock otherKey other => otherKey = key ∧ other = lock
  | holding _ lock, .unlock other => other = lock
  | computing key _, .computeEnds other => other = key
  | _, _ => False

/-- The stage after the answer to a coordinator call. -/
def after : Hold → (call : CoordinatorCall) → MemcoreResult call.Answer → Hold
  | unreal, _, _ => unreal
  | _, _, .error _ => unreal
  | _, .lockForKey key, .ok lock => waiting key lock
  | waiting key lock, .lock _, _ => holding key lock
  | waiting key lock, .lockWithTimeout _, .ok acquired =>
      if (acquired : Bool) then holding key lock else nothing
  | holding _ _, .unlock _, _ => nothing
  | holding key lock, .computeBegins _, _ => computing key lock
  | computing key lock, .computeEnds _, _ => holding key lock
  | hold, _, _ => hold

theorem after_unreal (call : CoordinatorCall) (answer : MemcoreResult call.Answer) :
    unreal.after call answer = unreal := rfl

theorem after_error (hold : Hold) (call : CoordinatorCall) (error : MemcoreError) :
    hold.after call (.error error) = unreal := by
  cases hold <;> rfl

end Hold

/-- The calls that leave the coordinator alone. -/
def NoCoordination : Port → Prop
  | .coordinator _ => False
  | _ => True

theorem searchCall_noCoordination {tenant : TenantContext} {port : Port}
    (own : SearchCall tenant port) : NoCoordination port := by
  cases port with
  | coordinator call => exact own
  | _ => exact trivial

theorem mutatorCall_noCoordination {tenant : TenantContext} {port : Port}
    (own : MutatorCall tenant port) : NoCoordination port := by
  cases port with
  | coordinator call => exact own
  | _ => exact trivial

def mutexProtocol : Protocol enginePorts MemcoreError Hold where
  allows hold port := match port with
    | .coordinator call => hold.Allows call
    | _ => True
  next hold port answer := match port, answer with
    | .coordinator call, answer => hold.after call answer
    | _, _ => hold

theorem mutexProtocol_quiet {port : Port} (quiet : NoCoordination port) (hold : Hold)
    (answer : MemcoreResult port.Answer) :
    mutexProtocol.allows hold port ∧ mutexProtocol.next hold port answer = hold := by
  cases port with
  | coordinator call => exact quiet.elim
  | _ => exact ⟨trivial, rfl⟩

/-! ## Programs that end where they began -/

variable {α β : Type} {hold : Hold}

/-- A program that ends in a stage, whether it returns or fails. -/
def endsIn (hold : Hold) : MemcoreResult α → Hold → Prop :=
  fun _ later => later = hold ∨ later = .unreal

/-- Begun in a stage, a program ends in it. -/
def Settles (hold : Hold) (program : EngineProgram α) : Prop :=
  Ensures mutexProtocol.spec program (endsIn hold) hold

theorem ensures_coordinate {call : CoordinatorCall}
    {post : MemcoreResult call.Answer → Hold → Prop} (allowed : hold.Allows call)
    (returns : ∀ value, post (.ok value) (hold.after call (.ok value)))
    (fails : ∀ error, post (.error error) .unreal) :
    Ensures mutexProtocol.spec (coordinate call) post hold := by
  refine (@ensures_call enginePorts MemcoreError Hold mutexProtocol.spec hold
    (.coordinator call) post).mpr ⟨allowed, fun answer => ?_⟩
  cases answer with
  | ok value => exact returns value
  | error error =>
    have unreal := hold.after_error call error
    show post (.error error) (hold.after call (.error error))
    rw [unreal]
    exact fails error

/-- Past an answer that the coordinator does not give, anything is allowed. -/
theorem unreal_ensures (program : EngineProgram α) :
    Ensures mutexProtocol.spec program (fun _ later => later = .unreal) .unreal := by
  induction program with
  | done value => exact (ensures_pure _ _ _ _).mpr rfl
  | fail error => exact (ensures_fail _ _ _ _).mpr rfl
  | ask call resume inductionHypothesis =>
    refine (ensures_ask _ _ _ _ _).mpr ⟨?_, fun answer => ?_⟩
    · cases call <;> exact trivial
    · have still : mutexProtocol.next .unreal call answer = .unreal := by
        cases call <;> rfl
      rw [still]
      exact inductionHypothesis answer

theorem Settles.unreal (program : EngineProgram α) :
    Ensures mutexProtocol.spec program (endsIn hold) .unreal :=
  (unreal_ensures program).mono mutexProtocol.spec_monotone fun _ _ still => .inr still

theorem Settles.pure (value : α) : Settles hold (pure value : EngineProgram α) :=
  (ensures_pure _ _ _ _).mpr (.inl rfl)

theorem Settles.fail (error : MemcoreError) : Settles hold (Program.fail error : EngineProgram α) :=
  (ensures_fail _ _ _ _).mpr (.inl rfl)

theorem Settles.check (outcome : MemcoreResult α) : Settles hold (Program.check outcome) := by
  cases outcome with
  | ok value => exact .pure value
  | error error => exact .fail error

theorem Settles.bind {program : EngineProgram α} {next : α → EngineProgram β}
    (first : Settles hold program) (second : ∀ value, Settles hold (next value)) :
    Settles hold (program >>= next) := by
  refine (ensures_bind _ _ _ _ _).mpr (first.mono mutexProtocol.spec_monotone ?_)
  intro outcome later ended
  cases outcome with
  | error error => exact (andThen_error _ _ _ _ _).mpr ended
  | ok value =>
    rcases ended with rfl | rfl
    · exact (andThen_ok _ _ _ _ _).mpr (second value)
    · exact (andThen_ok _ _ _ _ _).mpr (Settles.unreal _)

theorem Settles.attempt {program : EngineProgram α} (settles : Settles hold program) :
    Settles hold program.attempt :=
  (ensures_attempt _ _ _ _).mpr settles

/-- A program that leaves the coordinator alone ends where it began. -/
theorem Settles.quiet {program : EngineProgram α} (within : program.Within NoCoordination) :
    Settles hold program := by
  have stays := Program.Within.stays mutexProtocol
    (fun _ quiet => (mutexProtocol_quiet quiet hold (.error .unauthorized)).1)
    (fun _ answer quiet => (mutexProtocol_quiet quiet hold answer).2) within
  exact stays.mono mutexProtocol.spec_monotone fun _ _ still => .inl still

theorem Settles.perform {port : Port} (quiet : NoCoordination port) :
    Settles hold (perform port) :=
  .quiet (within_perform quiet)

/-- A call of the coordinator that leaves the stage as it is. -/
theorem Settles.coordinate {call : CoordinatorCall} (allowed : hold.Allows call)
    (stays : ∀ value, hold.after call (.ok value) = hold) : Settles hold (coordinate call) :=
  ensures_coordinate allowed (fun value => .inl (stays value)) fun _ => .inr rfl

/-! ## The coordinator -/

variable (engine : MemoryEngine) {key : ContextCacheKey} {lock : LockId}
  {compute : EngineProgram CachedContextEntry}

/-- A computation goes on under the mutex, and the mutex is still held after it. -/
theorem computeEntry_settles (within : compute.Within NoCoordination) :
    Settles (.holding key lock) (computeEntry key compute) := by
  have computing : Settles (.computing key lock) compute := .quiet within
  simp only [Settles, computeEntry, ensures_bind]
  refine ensures_coordinate rfl (fun _ => ?_) fun _ => (andThen_error _ _ _ _ _).mpr (.inr rfl)
  simp only [andThen_ok, ensures_bind, ensures_attempt]
  refine computing.mono mutexProtocol.spec_monotone ?_
  intro outcome later ended
  have settled : Ensures mutexProtocol.spec
      (do coordinate (.computeEnds key); return outcome)
      (endsIn (.holding key lock)) later := by
    rcases ended with rfl | rfl
    · refine (ensures_bind _ _ _ _ _).mpr (ensures_coordinate rfl (fun _ => ?_) fun _ => ?_)
      · exact (andThen_ok _ _ _ _ _).mpr (Settles.pure outcome)
      · exact (andThen_error _ _ _ _ _).mpr (.inr rfl)
    · exact Settles.unreal _
  exact (andThen_ok _ _ _ _ _).mpr settled

/-- The holder of a mutex keeps it until it is released for it. -/
theorem computeHolding_settles (within : compute.Within NoCoordination)
    (isRefresh waitedForInflight : Bool) :
    Settles (.holding key lock)
      (computeHolding engine key compute isRefresh waitedForInflight lock) := by
  have cleanup : Settles (.holding key lock) (coordinate (.cleanupInflightLock key lock)) :=
    .coordinate ⟨rfl, rfl⟩ fun _ => rfl
  have lookup : Settles (.holding key lock) (cacheGet key) := .perform trivial
  have store (entry : CachedContextEntry) : Settles (.holding key lock) (cacheSet key entry) :=
    .perform trivial
  apply lookup.bind
  intro found
  cases found with
  | some entry => exact cleanup.bind fun _ => .pure _
  | none =>
    apply (computeEntry_settles within).bind
    intro result
    cases result with
    | ok entry => exact (store entry).bind fun _ => cleanup.bind fun _ => .pure _
    | error error => exact cleanup.bind fun _ => .fail error

/-- A program that acquires the mutex goes on holding it; otherwise it fails. -/
theorem acquire_ensures :
    Ensures mutexProtocol.spec (acquire lock) (fun outcome later => later = .unreal ∨
      match outcome with
      | .ok _ => later = .holding key lock
      | .error _ => later = .nothing) (.waiting key lock) := by
  simp only [acquire, ensures_bind]
  refine ensures_coordinate rfl (fun free => ?_) fun _ => (andThen_error _ _ _ _ _).mpr (.inl rfl)
  refine (andThen_ok _ _ _ _ _).mpr ?_
  cases free with
  | true =>
    simp only [if_true, ensures_bind]
    refine ensures_coordinate rfl (fun _ => ?_) fun _ => (andThen_error _ _ _ _ _).mpr (.inl rfl)
    exact (andThen_ok _ _ _ _ _).mpr ((ensures_pure _ _ _ _).mpr (.inr rfl))
  | false =>
    simp only [Bool.false_eq_true, if_false, ensures_bind]
    refine ensures_coordinate rfl (fun acquired => ?_) fun _ =>
      (andThen_error _ _ _ _ _).mpr (.inl rfl)
    refine (andThen_ok _ _ _ _ _).mpr ?_
    cases acquired with
    | true => exact (ensures_pure _ _ _ _).mpr (.inr rfl)
    | false => exact (ensures_fail _ _ _ _).mpr (.inr rfl)

/-- Whatever happens under a mutex, it is released in the end. -/
theorem releasing_ensures {held : EngineProgram α} (settles : Settles (.holding key lock) held) :
    Ensures mutexProtocol.spec (releasing lock held) (endsIn .nothing) (.holding key lock) := by
  simp only [releasing, ensures_bind, ensures_attempt]
  refine settles.mono mutexProtocol.spec_monotone ?_
  intro outcome later ended
  have settled : Ensures mutexProtocol.spec
      (do coordinate (.unlock lock); Program.check outcome) (endsIn .nothing) later := by
    rcases ended with rfl | rfl
    · refine (ensures_bind _ _ _ _ _).mpr (ensures_coordinate rfl (fun _ => ?_) fun _ => ?_)
      · exact (andThen_ok _ _ _ _ _).mpr (Settles.check outcome)
      · exact (andThen_error _ _ _ _ _).mpr (.inr rfl)
    · exact Settles.unreal _
  exact (andThen_ok _ _ _ _ _).mpr settled

theorem computeWithStampede_settles
    (active : engine.contextCacheConfig.stampedeProtectionActive = true)
    (within : compute.Within NoCoordination) (isRefresh : Bool) :
    Settles .nothing (computeWithStampede engine key compute isRefresh) := by
  simp only [Settles, computeWithStampede, active, Bool.not_true, Bool.false_eq_true, if_false,
    ensures_bind]
  refine ensures_coordinate trivial (fun lock => ?_) fun _ =>
    (andThen_error _ _ _ _ _).mpr (.inr rfl)
  simp only [andThen_ok, ensures_bind]
  refine acquire_ensures.mono mutexProtocol.spec_monotone ?_
  intro outcome later acquired
  cases outcome with
  | error error =>
    refine (andThen_error _ _ _ _ _).mpr ?_
    rcases acquired with unreal | released
    · exact .inr unreal
    · exact .inl released
  | ok waitedForInflight =>
    refine (andThen_ok _ _ _ _ _).mpr ?_
    rcases acquired with rfl | rfl
    · exact Settles.unreal _
    · exact releasing_ensures (computeHolding_settles engine within isRefresh waitedForInflight)

theorem staleEntry_settles : Settles .nothing (staleEntry engine key) := by
  unfold staleEntry
  split
  · have clock : Settles .nothing now := .perform trivial
    have lookup : Settles .nothing (cacheGetAny key) := .perform trivial
    have start : Settles .nothing (coordinate (.tryStartRefresh key)) :=
      .coordinate trivial fun _ => rfl
    apply clock.bind
    intro current
    apply lookup.bind
    intro found
    cases found with
    | none => exact .pure none
    | some entry =>
      simp only
      split
      · exact start.bind fun _ => .pure _
      · exact .pure none
  · exact .pure none

/-- A lookup that may compute leaves the coordinator's mutexes as it found them. -/
theorem getOrCompute_settles
    (active : engine.contextCacheConfig.stampedeProtectionActive = true)
    (within : compute.Within NoCoordination) :
    Settles .nothing (getOrCompute engine key compute) := by
  have lookup : Settles .nothing (cacheGet key) := .perform trivial
  apply (Settles.check _).bind
  intro _
  apply lookup.bind
  intro found
  cases found with
  | some entry => exact .pure _
  | none =>
    apply (staleEntry_settles engine).bind
    intro served
    cases served with
    | some served => exact .pure served
    | none => exact computeWithStampede_settles engine active within false

theorem refreshEntry_settles
    (active : engine.contextCacheConfig.stampedeProtectionActive = true)
    (within : compute.Within NoCoordination) :
    Settles .nothing (refreshEntry engine key compute) := by
  have finish : Settles .nothing (coordinate (.finishRefresh key)) :=
    .coordinate trivial fun _ => rfl
  apply (computeWithStampede_settles engine active within true).attempt.bind
  intro result
  apply finish.bind
  intro _
  cases result with
  | ok value => exact .pure ()
  | error error => exact .fail error

end Memcore
