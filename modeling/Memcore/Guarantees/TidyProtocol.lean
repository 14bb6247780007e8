import Memcore.Foundations.Cancellations
import Memcore.Guarantees.MutexProtocol

/-!
# What a caller of the coordinator sees to

A caller that was given the mutex of a key unmaps it before it releases it, unless the cache fails
under it. A caller that found the mutex taken may give up. A refresh removes the mark of its key in
any case. Each program of the coordinator follows this protocol, whatever it computes.
-/
namespace Memcore

open Ports Programs

/-- How a caller stands to the mutexes: it has none, has been given one, waits for one that it found
free, or taken, holds one, or holds one that it has unmapped. -/
inductive Grip where
  | free
  | referred (key : ContextCacheKey) (lock : LockId)
  | untimed (key : ContextCacheKey) (lock : LockId)
  | timed (key : ContextCacheKey) (lock : LockId)
  | held (key : ContextCacheKey) (lock : LockId)
  | tidied (key : ContextCacheKey) (lock : LockId)
  deriving DecidableEq

namespace Grip

/-- The mutex that a caller knows, with its key. -/
def mutex : Grip → Option (ContextCacheKey × LockId)
  | free => none
  | referred key lock | untimed key lock | timed key lock | held key lock | tidied key lock =>
      some (key, lock)

/-- The mutex that a caller will unmap, unless it fails on the way or is dropped. -/
def cleans : Grip → Option (ContextCacheKey × LockId)
  | referred key lock | untimed key lock | held key lock => some (key, lock)
  | _ => none

/-- The mutex that a caller has locked. -/
def owned : Grip → Option LockId
  | held _ lock | tidied _ lock => some lock
  | _ => none

def after : Grip → (call : CoordinatorCall) → call.Answer → Grip
  | _, .lockForKey key, lock => referred key lock
  | referred key lock, .tryLock _, isFree =>
      if (isFree : Bool) then untimed key lock else timed key lock
  | untimed key lock, .lock _, _ => held key lock
  | timed key lock, .lockWithTimeout _, acquired =>
      if (acquired : Bool) then held key lock else free
  | held key lock, .cleanupInflightLock _ _, _ => tidied key lock
  | _, .unlock _, _ => free
  | grip, _, _ => grip

theorem mutex_of_cleans {grip : Grip} {pair : ContextCacheKey × LockId}
    (cleans : grip.cleans = some pair) : grip.mutex = some pair := by
  cases grip <;> first | exact cleans | cases cleans

end Grip

/-- How a caller stands to the mutexes, and the key whose refresh it will finish. -/
structure CallStage where
  grip : Grip
  refreshing : Option ContextCacheKey
  deriving DecidableEq

namespace CallStage

/-- A caller that sees to nothing. -/
def past : CallStage := ⟨.free, none⟩

def Allows (stage : CallStage) : CoordinatorCall → Prop
  | .lockForKey _ => stage.grip = .free
  | .tryLock lock => ∃ key, stage.grip = .referred key lock
  | .lock lock => ∃ key, stage.grip = .untimed key lock
  | .lockWithTimeout lock => ∃ key, stage.grip = .timed key lock
  | .unlock lock => ∃ key, stage.grip = .held key lock ∨ stage.grip = .tidied key lock
  | .cleanupInflightLock key lock => stage.grip = .held key lock
  | .tryStartRefresh _ => stage.refreshing = none
  | .finishRefresh key => stage.refreshing = some key
  | .computeBegins _ | .computeEnds _ => True

def refreshingAfter (refreshing : Option ContextCacheKey) :
    (call : CoordinatorCall) → call.Answer → Option ContextCacheKey
  | .tryStartRefresh key, started => if (started : Bool) then some key else refreshing
  | .finishRefresh _, _ => none
  | _, _ => refreshing

def after (stage : CallStage) (call : CoordinatorCall) : MemcoreResult call.Answer → CallStage
  | .ok answer => ⟨stage.grip.after call answer, refreshingAfter stage.refreshing call answer⟩
  | .error _ => stage

end CallStage

def tidyProtocol : Protocol enginePorts MemcoreError CallStage where
  allows stage port := match port with
    | .coordinator call => stage.Allows call
    | _ => True
  next stage port answer := match port, answer with
    | .coordinator call, answer => stage.after call answer
    | _, _ => stage

/-- The coordinator's calls do not fail. -/
def Answerable : (port : Port) → MemcoreResult port.Answer → Prop
  | .coordinator _, answer => ∃ value, answer = .ok value
  | _, _ => True

theorem serveCoordinator_answers (choice : Choice) (world : World) (call : CoordinatorCall) :
    ∃ value, (world.serveCoordinator choice call).1 = .ok value := by
  cases call with
  | lockWithTimeout lock =>
    simp only [World.serveCoordinator]
    split <;> exact ⟨_, rfl⟩
  | tryStartRefresh key =>
    simp only [World.serveCoordinator]
    split <;> exact ⟨_, rfl⟩
  | _ => exact ⟨_, rfl⟩

theorem serve_answerable (platform : Platform) (choice : Choice) (port : Port) (world : World) :
    Answerable port (World.serve platform choice port world).1 := by
  cases port with
  | coordinator call => exact serveCoordinator_answers choice world call
  | _ => exact trivial

abbrev tidySpec : Spec enginePorts MemcoreError CallStage := tidyProtocol.specWith Answerable

/-! ## Callers follow the protocol -/

section Programs

variable {α β : Type} {stage : CallStage}

theorem tidySpec_monotone : tidySpec.Monotone := Protocol.specWith_monotone _ _

theorem ensures_tidyCall {call : CoordinatorCall}
    {post : MemcoreResult call.Answer → CallStage → Prop} (allowed : stage.Allows call)
    (returns : ∀ value, post (.ok value) (stage.after call (.ok value))) :
    Ensures tidySpec (coordinate call) post stage := by
  refine (@ensures_call enginePorts MemcoreError CallStage tidySpec stage
    (.coordinator call) post).mpr ⟨allowed, ?_⟩
  rintro _ ⟨value, rfl⟩
  exact returns value

/-- An allowed call of the coordinator, and what follows it. -/
theorem ensures_tidyBind {call : CoordinatorCall} {next : call.Answer → EngineProgram β}
    {post : MemcoreResult β → CallStage → Prop} (allowed : stage.Allows call)
    (returns : ∀ value, Ensures tidySpec (next value) post (stage.after call (.ok value))) :
    Ensures tidySpec (coordinate call >>= next) post stage := by
  apply (ensures_bind _ _ _ _ _).mpr
  apply ensures_tidyCall allowed
  intro value
  exact (andThen_ok _ _ _ _ _).mpr (returns value)

/-- Begun in a stage, a program ends in it. -/
def StaysIn (stage : CallStage) (program : EngineProgram α) : Prop :=
  Ensures tidySpec program (fun _ later => later = stage) stage

theorem StaysIn.pure (value : α) : StaysIn stage (pure value : EngineProgram α) :=
  (ensures_pure _ _ _ _).mpr rfl

theorem StaysIn.fail (error : MemcoreError) :
    StaysIn stage (Program.fail error : EngineProgram α) :=
  (ensures_fail _ _ _ _).mpr rfl

theorem StaysIn.check (outcome : MemcoreResult α) : StaysIn stage (Program.check outcome) := by
  cases outcome with
  | ok value => exact .pure value
  | error error => exact .fail error

/-- A program goes on where another one that stays has begun. -/
theorem StaysIn.followedBy {program : EngineProgram α} {next : α → EngineProgram β}
    {post : MemcoreResult β → CallStage → Prop} (first : StaysIn stage program)
    (fails : ∀ error, post (.error error) stage)
    (second : ∀ value, Ensures tidySpec (next value) post stage) :
    Ensures tidySpec (program >>= next) post stage := by
  apply (ensures_bind _ _ _ _ _).mpr
  apply Ensures.mono tidySpec_monotone first
  rintro (error | value) later rfl
  · exact (andThen_error _ _ _ _ _).mpr (fails error)
  · exact (andThen_ok _ _ _ _ _).mpr (second value)

theorem StaysIn.bind {program : EngineProgram α} {next : α → EngineProgram β}
    (first : StaysIn stage program) (second : ∀ value, StaysIn stage (next value)) :
    StaysIn stage (program >>= next) :=
  first.followedBy (fun _ => rfl) second

theorem StaysIn.attempt {program : EngineProgram α} (stays : StaysIn stage program) :
    StaysIn stage program.attempt :=
  (ensures_attempt _ _ _ _).mpr stays

theorem StaysIn.quiet {program : EngineProgram α} (within : program.Within NoCoordination) :
    StaysIn stage program := by
  induction within with
  | done value => exact .pure value
  | fail error => exact .fail error
  | @ask port resume isQuiet rest inductionHypothesis =>
    apply (ensures_ask _ _ _ _ _).mpr
    cases port with
    | coordinator call => exact isQuiet.elim
    | _ => exact ⟨trivial, fun answer _ => inductionHypothesis answer⟩

theorem StaysIn.perform {port : Port} (isQuiet : NoCoordination port) :
    StaysIn stage (perform port) :=
  .quiet (within_perform isQuiet)

theorem StaysIn.coordinate {call : CoordinatorCall} (allowed : stage.Allows call)
    (stays : ∀ value, stage.after call (.ok value) = stage) : StaysIn stage (coordinate call) :=
  ensures_tidyCall allowed stays

variable (engine : MemoryEngine) {key : ContextCacheKey} {lock : LockId}
  {refreshing : Option ContextCacheKey} {compute : EngineProgram CachedContextEntry}

theorem computeEntry_stays (within : compute.Within NoCoordination) :
    StaysIn stage (computeEntry key compute) := by
  unfold computeEntry
  have begins : StaysIn stage (coordinate (.computeBegins key)) :=
    .coordinate trivial fun _ => by cases stage with | mk grip _ => cases grip <;> rfl
  have ends : StaysIn stage (coordinate (.computeEnds key)) :=
    .coordinate trivial fun _ => by cases stage with | mk grip _ => cases grip <;> rfl
  apply begins.bind
  intro _
  apply (StaysIn.quiet within).attempt.bind
  intro result
  exact ends.bind fun _ => .pure result

/-- What is served does not report a refresh. -/
def Unmarked (outcome : MemcoreResult (CachedContextEntry × ContextCacheUsage)) : Prop :=
  ∀ served, outcome = .ok served → served.2.refreshStarted = false

theorem unmarked_ok {served : CachedContextEntry × ContextCacheUsage}
    (unmarked : served.2.refreshStarted = false) : Unmarked (.ok served) := by
  rintro _ ⟨⟩
  exact unmarked

theorem unmarked_error (error : MemcoreError) : Unmarked (.error error) := by
  intro served impossible
  cases impossible

theorem computeUncoordinated_stays (within : compute.Within NoCoordination) (isRefresh : Bool) :
    Ensures tidySpec (computeUncoordinated engine key compute isRefresh)
      (fun outcome later => later = stage ∧ Unmarked outcome) stage := by
  unfold computeUncoordinated
  have failed (error : MemcoreError) : stage = stage ∧ Unmarked (.error error) :=
    ⟨rfl, unmarked_error error⟩
  have store (entry : CachedContextEntry) : StaysIn stage (cacheSet key entry) := .perform trivial
  apply (computeEntry_stays within).followedBy failed
  intro result
  cases result with
  | error error => exact (ensures_fail _ _ _ _).mpr (failed error)
  | ok entry =>
    apply (store entry).followedBy failed
    intro _
    cases isRefresh <;> exact (ensures_pure _ _ _ _).mpr ⟨rfl, unmarked_ok rfl⟩

/-- The holder of a mutex unmaps it, unless the cache fails. -/
theorem computeHolding_tidies (within : compute.Within NoCoordination)
    (isRefresh waitedForInflight : Bool) :
    Ensures tidySpec (computeHolding engine key compute isRefresh waitedForInflight lock)
      (fun outcome later => (later = ⟨.held key lock, refreshing⟩ ∨
        later = ⟨.tidied key lock, refreshing⟩) ∧ Unmarked outcome)
      ⟨.held key lock, refreshing⟩ := by
  have failed (error : MemcoreError) :
      ((⟨.held key lock, refreshing⟩ : CallStage) = ⟨.held key lock, refreshing⟩ ∨
        (⟨.held key lock, refreshing⟩ : CallStage) = ⟨.tidied key lock, refreshing⟩) ∧
        Unmarked (.error error) := ⟨.inl rfl, unmarked_error error⟩
  have lookup : StaysIn ⟨.held key lock, refreshing⟩ (cacheGet key) := .perform trivial
  have store (entry : CachedContextEntry) :
      StaysIn ⟨.held key lock, refreshing⟩ (cacheSet key entry) := .perform trivial
  unfold computeHolding
  apply lookup.followedBy failed
  intro found
  cases found with
  | some entry =>
    apply ensures_tidyBind
    · exact rfl
    intro _
    exact (ensures_pure _ _ _ _).mpr ⟨.inr rfl, unmarked_ok rfl⟩
  | none =>
    apply (computeEntry_stays within).followedBy failed
    intro result
    cases result with
    | ok entry =>
      apply (store entry).followedBy failed
      intro _
      apply ensures_tidyBind
      · exact rfl
      intro _
      cases isRefresh <;> exact (ensures_pure _ _ _ _).mpr ⟨.inr rfl, unmarked_ok rfl⟩
    | error error =>
      apply ensures_tidyBind
      · exact rfl
      intro _
      exact (ensures_fail _ _ _ _).mpr ⟨.inr rfl, unmarked_error error⟩

/-- A caller that acquires the mutex holds it; one that does not has given up. -/
theorem acquire_tidies :
    Ensures tidySpec (acquire lock) (fun outcome later => match outcome with
      | .ok _ => later = ⟨.held key lock, refreshing⟩
      | .error _ => later = ⟨.free, refreshing⟩) ⟨.referred key lock, refreshing⟩ := by
  unfold acquire
  apply ensures_tidyBind
  · exact ⟨key, rfl⟩
  intro isFree
  cases isFree with
  | true =>
    apply ensures_tidyBind
    · exact ⟨key, rfl⟩
    intro _
    exact (ensures_pure _ _ _ _).mpr rfl
  | false =>
    apply ensures_tidyBind
    · exact ⟨key, rfl⟩
    intro acquired
    cases acquired with
    | true => exact (ensures_pure _ _ _ _).mpr rfl
    | false => exact (ensures_fail _ _ _ _).mpr rfl

theorem computeWithStampede_stays (within : compute.Within NoCoordination) (isRefresh : Bool) :
    Ensures tidySpec (computeWithStampede engine key compute isRefresh)
      (fun outcome later => later = ⟨.free, refreshing⟩ ∧ Unmarked outcome)
      ⟨.free, refreshing⟩ := by
  unfold computeWithStampede
  by_cases inactive : (!engine.contextCacheConfig.stampedeProtectionActive) = true
  · rw [if_pos inactive]
    exact computeUncoordinated_stays engine within isRefresh
  · rw [if_neg inactive]
    apply ensures_tidyBind
    · exact rfl
    intro lock
    apply (ensures_bind _ _ _ _ _).mpr
    apply Ensures.mono tidySpec_monotone (@acquire_tidies key lock refreshing)
    intro outcome later acquired
    cases outcome with
    | error error => exact (andThen_error _ _ _ _ _).mpr ⟨acquired, unmarked_error error⟩
    | ok waitedForInflight =>
      obtain rfl : later = ⟨.held key lock, refreshing⟩ := acquired
      apply (andThen_ok _ _ _ _ _).mpr
      unfold releasing
      apply (ensures_bind _ _ _ _ _).mpr
      apply (ensures_attempt _ _ _ _).mpr
      apply Ensures.mono tidySpec_monotone
        (computeHolding_tidies engine within isRefresh waitedForInflight)
      rintro result later ⟨ended, unmarked⟩
      apply (andThen_ok _ _ _ _ _).mpr
      apply ensures_tidyBind
      · rcases ended with rfl | rfl
        · exact ⟨key, .inl rfl⟩
        · exact ⟨key, .inr rfl⟩
      intro _
      have released : later.after (.unlock lock) (.ok ()) = ⟨.free, refreshing⟩ := by
        rcases ended with rfl | rfl <;> rfl
      rw [released]
      cases result with
      | ok served => exact (ensures_pure _ _ _ _).mpr ⟨rfl, unmarked⟩
      | error error => exact (ensures_fail _ _ _ _).mpr ⟨rfl, unmarked⟩

/-- A stale entry is served with the mark whether its refresh was started. -/
theorem staleEntry_marks :
    Ensures tidySpec (staleEntry engine key) (fun outcome later => match outcome with
      | .ok (some served) => later =
          ⟨.free, if served.2.refreshStarted then some key else none⟩
      | _ => later = .past) .past := by
  unfold staleEntry
  by_cases active : engine.contextCacheConfig.staleWhileRevalidateActive = true
  · rw [if_pos active]
    have clock : StaysIn .past now := .perform trivial
    have lookup : StaysIn .past (cacheGetAny key) := .perform trivial
    apply clock.followedBy (fun _ => rfl)
    intro current
    apply lookup.followedBy (fun _ => rfl)
    intro found
    cases found with
    | none => exact (ensures_pure _ _ _ _).mpr rfl
    | some entry =>
      by_cases servable : entry.isStaleServable current = true
      · simp only [servable, if_true]
        apply ensures_tidyBind
        · exact rfl
        intro started
        exact (ensures_pure _ _ _ _).mpr rfl
      · simp only [servable]
        exact (ensures_pure _ _ _ _).mpr rfl
  · rw [if_neg active]
    exact (ensures_pure _ _ _ _).mpr rfl

/-- A lookup ends in charge of the refresh that it reports, if any. -/
theorem getOrCompute_marks (within : compute.Within NoCoordination) :
    Ensures tidySpec (getOrCompute engine key compute) (fun outcome later => match outcome with
      | .ok served => later = ⟨.free, if served.2.refreshStarted then some key else none⟩
      | .error _ => later = .past) .past := by
  have lookup : StaysIn .past (cacheGet key) := .perform trivial
  unfold getOrCompute
  apply (StaysIn.check _).followedBy (fun _ => rfl)
  intro _
  apply lookup.followedBy (fun _ => rfl)
  intro found
  cases found with
  | some entry => exact (ensures_pure _ _ _ _).mpr rfl
  | none =>
    apply (ensures_bind _ _ _ _ _).mpr
    apply Ensures.mono tidySpec_monotone (staleEntry_marks engine)
    intro outcome later marked
    cases outcome with
    | error error => exact (andThen_error _ _ _ _ _).mpr marked
    | ok stale =>
      apply (andThen_ok _ _ _ _ _).mpr
      cases stale with
      | some served => exact (ensures_pure _ _ _ _).mpr marked
      | none =>
        obtain rfl : later = .past := marked
        apply Ensures.mono tidySpec_monotone (computeWithStampede_stays engine within false)
        rintro outcome later ⟨rfl, unmarked⟩
        cases outcome with
        | error error => rfl
        | ok served =>
          simp only [unmarked served rfl]
          rfl

/-- A refresh removes the mark of its key in any case. -/
theorem refreshEntry_finishes (within : compute.Within NoCoordination) :
    Ensures tidySpec (refreshEntry engine key compute) (fun _ later => later = .past)
      ⟨.free, some key⟩ := by
  unfold refreshEntry
  apply (ensures_bind _ _ _ _ _).mpr
  apply (ensures_attempt _ _ _ _).mpr
  apply Ensures.mono tidySpec_monotone (computeWithStampede_stays engine within true)
  rintro outcome later ⟨rfl, _⟩
  apply (andThen_ok _ _ _ _ _).mpr
  apply ensures_tidyBind
  · exact rfl
  intro _
  cases outcome with
  | ok served => exact (ensures_pure _ _ _ _).mpr rfl
  | error error => exact (ensures_fail _ _ _ _).mpr rfl

end Programs

end Memcore
