import Memcore.Guarantees.JobLocks
import Memcore.Guarantees.RunStages

/-!
# At most one run of a kind

The slot of a kind excludes a second run on the same state, as long as nobody else frees it. But
every run that is recorded frees the slot of its kind, also one that never held it. The lock of a
kind excludes runs of other instances until it expires, and it is never renewed; it is released
for the whole instance by any of its runs.
-/
namespace Memcore

open KeyedTables Programs

variable {σ : Type}

/-- How far a thread has come, from its own events. -/
def stageOf (thread : ℕ) (trace : History runnerPorts MemcoreError) : RunStage :=
  track (fun stage event => stage.next event.call event.answer) .outside thread trace

/-- The thread waits for a body that was started. -/
def InProgress (pool : Pool runnerPorts MemcoreError (List BackgroundJobRun) (RunnerWorld σ))
    (thread state : ℕ) (kind : BackgroundJobKind) : Prop :=
  ∃ token deadline mayRetry resume,
    pool.threads thread = .ask (.awaitRunOnce state kind token deadline mayRetry) resume

/-! ## The slot of a kind -/

/-- A run that does not hold the slot of its kind is recorded only while nobody does. -/
def RecordsOwn (world : RunnerWorld σ) (trace : History runnerPorts MemcoreError) (thread : ℕ)
    (call : RunnerCall) (_ : RunnerChoice) : Prop :=
  match call with
  | .recordRun state run =>
      stageOf thread trace = .outside → (world.states state).running run.kind = false
  | _ => True

section Slots

variable {store : BackgroundJobLockStore σ} {runner : BackgroundJobRunner} {stage : RunStage}

/-- The calls that leave the slots alone. -/
def LeavesSlots : RunnerCall → Prop
  | .tryBegin _ _ | .recordRun _ _ => False
  | _ => True

theorem slot_unchanged {call : RunnerCall} (leaves : LeavesSlots call)
    (allowed : (runnerProtocol runner).allows stage call) (answer : MemcoreResult call.Answer) :
    (stage.next call answer).slot = stage.slot := by
  cases call with
  | tryBegin state kind => exact leaves.elim
  | recordRun state run => exact leaves.elim
  | tryAcquireLock kind ownerId ttl =>
    obtain ⟨_, rfl⟩ := allowed
    rcases answer with error | (_ | lock) <;> rfl
  | beginRunOnce state kind =>
    obtain ⟨_, rfl | ⟨rfl, _⟩⟩ := allowed <;> rfl
  | isCancelled token =>
    rcases answer with error | (_ | _)
    · rfl
    · rfl
    · exact stage.slot_leave
  | awaitRunOnce state kind token deadline mayRetry =>
    rcases answer with error | bodyEnd
    · rfl
    · simp only [RunStage.next]
      split
      · exact stage.slot_leave
      · rfl
  | sleep token deadline =>
    rcases answer with error | sleepEnd
    · rfl
    · simp only [RunStage.next]
      split
      · rfl
      · exact stage.slot_leave
  | _ => rfl

theorem states_unchanged {call : RunnerCall} (leaves : LeavesSlots call) (choice : RunnerChoice)
    (world : RunnerWorld σ) : (runnerServe store choice call world).2.states = world.states := by
  cases call with
  | tryBegin state kind => exact leaves.elim
  | recordRun state run => exact leaves.elim
  | tryAcquireLock kind ownerId ttl =>
    simp only [runnerServe]
    split <;> rfl
  | releaseLock kind ownerId =>
    simp only [runnerServe]
    split <;> rfl
  | insertRun run =>
    simp only [runnerServe]
    split <;> rfl
  | _ => rfl

variable (requests : ℕ → RunnerRequest)

/-- Whether a thread holds the slot of a kind in a state. -/
def Holds (stages : ℕ → RunStage) (thread state : ℕ) (kind : BackgroundJobKind) : Prop :=
  (requests thread).runner.state = state ∧ (stages thread).slot = some kind

/-- Slots that are held are marked, and held once. -/
structure SlotsHeld (world : RunnerWorld σ) (trace : History runnerPorts MemcoreError)
    (stages : ℕ → RunStage) : Prop where
  tracked : ∀ thread, stages thread = stageOf thread trace
  marked : ∀ thread state kind, Holds requests stages thread state kind →
    (world.states state).running kind = true
  alone : ∀ thread other state kind, Holds requests stages thread state kind →
    Holds requests stages other state kind → thread = other

variable {requests} {world : RunnerWorld σ} {trace : History runnerPorts MemcoreError}
  {stages : ℕ → RunStage} {thread : ℕ}

/-- The stages follow the trace. -/
theorem tracked_step (tracked : ∀ thread, stages thread = stageOf thread trace)
    (call : RunnerCall) (answer : MemcoreResult call.Answer) (other : ℕ) :
    Function.update stages thread ((stages thread).next call answer) other =
      stageOf other ((thread, ⟨call, answer⟩) :: trace) := by
  by_cases own : other = thread
  · subst own
    rw [Function.update_self, tracked other, stageOf, stageOf, track_own]
  · rw [Function.update_of_ne own, tracked other, stageOf, stageOf,
      track_other _ _ _ _ (Ne.symm own)]

/-- What another thread holds does not depend on this one's stage. -/
theorem holds_other {other state : ℕ} {kind : BackgroundJobKind} (later : RunStage)
    (different : other ≠ thread) :
    Holds requests (Function.update stages thread later) other state kind ↔
      Holds requests stages other state kind := by
  rw [Holds, Holds, Function.update_of_ne different]

theorem holds_own {state : ℕ} {kind : BackgroundJobKind} (later : RunStage) :
    Holds requests (Function.update stages thread later) thread state kind ↔
      (requests thread).runner.state = state ∧ later.slot = some kind := by
  rw [Holds, Function.update_self]

/-- Whoever held a slot before holds it, and the marks are there. -/
theorem SlotsHeld.unchanged (held : SlotsHeld requests world trace stages) {call : RunnerCall}
    {answer : MemcoreResult call.Answer} {later : RunnerWorld σ}
    (marks : ∀ state kind, (world.states state).running kind = true →
      (later.states state).running kind = true)
    (sameSlot : ((stages thread).next call answer).slot = (stages thread).slot) :
    SlotsHeld requests later ((thread, ⟨call, answer⟩) :: trace)
      (Function.update stages thread ((stages thread).next call answer)) := by
  have same (other state : ℕ) (kind : BackgroundJobKind) :
      Holds requests (Function.update stages thread ((stages thread).next call answer)) other state
        kind ↔ Holds requests stages other state kind := by
    by_cases own : other = thread
    · subst own
      rw [holds_own, sameSlot, Holds]
    · exact holds_other _ own
  constructor
  · exact tracked_step held.tracked call answer
  · intro other state kind holds
    exact marks state kind (held.marked other state kind ((same _ _ _).mp holds))
  · intro left right state kind leftHolds rightHolds
    exact held.alone left right state kind ((same _ _ _).mp leftHolds) ((same _ _ _).mp rightHolds)

theorem running_tryBegin (state : InMemoryBackgroundJobState) (kind other : BackgroundJobKind) :
    (state.tryBegin kind).2.running other = (decide (other = kind) || state.running other) := by
  simp only [InMemoryBackgroundJobState.tryBegin, Function.update_apply]
  split <;> simp_all

theorem running_recordRun (state : InMemoryBackgroundJobState) (run : BackgroundJobRun)
    (other : BackgroundJobKind) : (state.recordRun run).running other =
      (decide (other ≠ run.kind) && state.running other) := by
  simp only [InMemoryBackgroundJobState.recordRun, Function.update_apply]
  split <;> simp_all

/-- A slot is taken if it was free. -/
theorem slotsHeld_tryBegin (held : SlotsHeld requests world trace stages) {state : ℕ}
    {kind : BackgroundJobKind} {later : RunnerWorld σ} (outside : stages thread = .outside)
    (own : state = (requests thread).runner.state)
    (states : later.states =
      Function.update world.states state ((world.states state).tryBegin kind).2) :
    SlotsHeld requests later
      ((thread, ⟨.tryBegin state kind, .ok (!(world.states state).running kind)⟩) :: trace)
      (Function.update stages thread ((stages thread).next (.tryBegin state kind)
        (.ok (!(world.states state).running kind)))) := by
  have marks (other : ℕ) (otherKind : BackgroundJobKind)
      (marked : (world.states other).running otherKind = true) :
      (later.states other).running otherKind = true := by
    rw [states]
    by_cases same : other = state
    · subst same
      rw [Function.update_self, running_tryBegin, marked, Bool.or_true]
    · rw [Function.update_of_ne same, marked]
  cases taken : (world.states state).running kind with
  | true => exact held.unchanged marks rfl
  | false =>
    have now : (later.states state).running kind = true := by
      rw [states, Function.update_self, running_tryBegin, decide_eq_true rfl, Bool.true_or]
    have nobody (other : ℕ) : ¬ Holds requests stages other state kind := by
      intro holds
      rw [held.marked other state kind holds] at taken
      contradiction
    constructor
    · exact tracked_step held.tracked (.tryBegin state kind) _
    · intro other otherState otherKind holds
      by_cases mine : other = thread
      · subst mine
        obtain ⟨rfl, sameKind⟩ := (holds_own _).mp holds
        obtain rfl : kind = otherKind := Option.some.inj sameKind
        rwa [own] at now
      · exact marks _ _ (held.marked other otherState otherKind ((holds_other _ mine).mp holds))
    · -- The slot that is taken now was held by nobody.
      have taker (other otherState : ℕ) (otherKind : BackgroundJobKind)
          (holds : Holds requests (Function.update stages thread (.begun kind)) thread otherState
            otherKind) (otherHolds : Holds requests stages other otherState otherKind) : False := by
        obtain ⟨sameState, sameKind⟩ := (holds_own _).mp holds
        obtain rfl : kind = otherKind := Option.some.inj sameKind
        obtain rfl : state = otherState := own.trans sameState
        exact nobody other otherHolds
      intro left right otherState otherKind leftHolds rightHolds
      by_cases leftMine : left = thread
      · by_cases rightMine : right = thread
        · exact leftMine.trans rightMine.symm
        · subst leftMine
          exact (taker right _ _ leftHolds ((holds_other _ rightMine).mp rightHolds)).elim
      · by_cases rightMine : right = thread
        · subst rightMine
          exact (taker left _ _ rightHolds ((holds_other _ leftMine).mp leftHolds)).elim
        · exact held.alone left right _ _ ((holds_other _ leftMine).mp leftHolds)
            ((holds_other _ rightMine).mp rightHolds)

/-- A run that is recorded frees the slot that it held, or one that nobody held. -/
theorem slotsHeld_recordRun (held : SlotsHeld requests world trace stages) {state : ℕ}
    {run : BackgroundJobRun} {answer : MemcoreResult Unit} {later : RunnerWorld σ}
    (own : state = (requests thread).runner.state)
    (fits : stages thread = .outside ∨ (stages thread).slot = some run.kind)
    (unheld : stages thread = .outside → (world.states state).running run.kind = false)
    (states : later.states =
      Function.update world.states state ((world.states state).recordRun run)) :
    SlotsHeld requests later ((thread, ⟨.recordRun state run, answer⟩) :: trace)
      (Function.update stages thread ((stages thread).next (.recordRun state run) answer)) := by
  have before (other otherState : ℕ) (otherKind : BackgroundJobKind)
      (holds : Holds requests (Function.update stages thread .outside) other otherState
        otherKind) : other ≠ thread ∧ Holds requests stages other otherState otherKind := by
    have others : other ≠ thread := by
      rintro rfl
      exact absurd ((holds_own _).mp holds).2 (by simp [RunStage.slot])
    exact ⟨others, (holds_other _ others).mp holds⟩
  constructor
  · exact tracked_step held.tracked (.recordRun state run) answer
  · intro other otherState otherKind holds
    obtain ⟨others, heldBefore⟩ := before other otherState otherKind holds
    have marked := held.marked other otherState otherKind heldBefore
    rw [states]
    by_cases sameState : otherState = state
    · subst sameState
      have kept : otherKind ≠ run.kind := by
        rintro rfl
        rcases fits with outside | mine
        · rw [unheld outside] at marked
          contradiction
        · exact others (held.alone other thread _ _ heldBefore ⟨own.symm, mine⟩)
      rw [Function.update_self, running_recordRun, decide_eq_true kept, marked, Bool.true_and]
    · rw [Function.update_of_ne sameState, marked]
  · intro left right otherState otherKind leftHolds rightHolds
    exact held.alone left right _ _ (before _ _ _ leftHolds).2 (before _ _ _ rightHolds).2

/-- Every permitted step keeps the slots. -/
theorem slotsHeld_step (held : SlotsHeld requests world trace stages) {call : RunnerCall}
    {choice : RunnerChoice}
    (allowed : (runnerProtocol (requests thread).runner).allows (stages thread) call)
    (permitted : RecordsOwn world trace thread call choice) :
    SlotsHeld requests (runnerServe store choice call world).2
      ((thread, ⟨call, (runnerServe store choice call world).1⟩) :: trace)
      (Function.update stages thread
        ((stages thread).next call (runnerServe store choice call world).1)) := by
  have quiet (leaves : LeavesSlots call) : SlotsHeld requests (runnerServe store choice call world).2
      ((thread, ⟨call, (runnerServe store choice call world).1⟩) :: trace)
      (Function.update stages thread
        ((stages thread).next call (runnerServe store choice call world).1)) := by
    apply held.unchanged _ (slot_unchanged leaves allowed _)
    intro state kind marked
    rw [states_unchanged leaves, marked]
  cases call with
  | tryBegin state kind => exact slotsHeld_tryBegin held allowed.2 allowed.1 rfl
  | recordRun state run =>
    apply slotsHeld_recordRun held allowed.1 allowed.2 _ rfl
    intro outside
    exact permitted ((held.tracked thread).symm.trans outside)
  | _ => exact quiet trivial

end Slots

/-! ## One instance -/

section Runs

variable {store : BackgroundJobLockStore σ} {requests : ℕ → RunnerRequest}

/-- The pool of requests before their first call. -/
abbrev startRequests (requests : ℕ → RunnerRequest) (world : RunnerWorld σ) :
    Pool runnerPorts MemcoreError (List BackgroundJobRun) (RunnerWorld σ) :=
  .start world fun thread => (requests thread).program

/-- The protocol of each request's runner. -/
abbrev requestProtocols (requests : ℕ → RunnerRequest) (thread : ℕ) :
    Protocol runnerPorts MemcoreError RunStage :=
  runnerProtocol (requests thread).runner

theorem startRequests_follow (world : RunnerWorld σ) :
    Pool.Follow (requestProtocols requests)
      (fun _ => onSuccess fun _ later => later = .outside) (startRequests requests world)
      fun _ => .outside :=
  fun thread => (succeeds_iff _ _ _ _).mp (requests thread).keeps

theorem slotsHeld_start (world : RunnerWorld σ) :
    SlotsHeld requests world [] fun _ => .outside where
  tracked _ := rfl
  marked _ _ _ holds := absurd holds.2 (by simp [RunStage.slot])
  alone _ _ _ _ holds := absurd holds.2 (by simp [RunStage.slot])

/-- A thread with a body in progress is executing on its own state. -/
theorem inProgress_stage
    {pool : Pool runnerPorts MemcoreError (List BackgroundJobRun) (RunnerWorld σ)}
    {stages : ℕ → RunStage} {promise : ℕ → MemcoreResult (List BackgroundJobRun) → RunStage → Prop}
    (follow : Pool.Follow (requestProtocols requests) promise pool stages) {thread state : ℕ}
    {kind : BackgroundJobKind} (inProgress : InProgress pool thread state kind) :
    state = (requests thread).runner.state ∧ stages thread = .executing kind := by
  obtain ⟨token, deadline, mayRetry, resume, waiting⟩ := inProgress
  exact follow.allowed waiting

end Runs

/-- In every run in which a run that does not hold its slot is recorded only while nobody holds
it, two bodies of one kind are never in progress on one state. -/
theorem one_run_at_a_time (store : BackgroundJobLockStore σ) (requests : ℕ → RunnerRequest)
    (world : RunnerWorld σ)
    {pool : Pool runnerPorts MemcoreError (List BackgroundJobRun) (RunnerWorld σ)}
    (reached : Pool.Reaches (runnerServer store) RecordsOwn (startRequests requests world) pool)
    (state : ℕ) (kind : BackgroundJobKind) (thread other : ℕ)
    (inProgress : InProgress pool thread state kind)
    (otherInProgress : InProgress pool other state kind) : thread = other := by
  obtain ⟨stages, held, follow⟩ := @Pool.Reaches.invariant _ _ _ _ _ _ _ _ _ _ reached
    (requestProtocols requests) _ (SlotsHeld requests)
    (fun _ _ _ _ _ _ held allowed _ permitted => slotsHeld_step held allowed permitted)
    _ (startRequests_follow world) (slotsHeld_start world)
  obtain ⟨ownState, executing⟩ := inProgress_stage follow inProgress
  obtain ⟨otherState, otherExecuting⟩ := inProgress_stage follow otherInProgress
  exact held.alone thread other state kind ⟨ownState.symm, congrArg RunStage.slot executing⟩
    ⟨otherState.symm, congrArg RunStage.slot otherExecuting⟩

/-! ## Two instances -/

/-- A lock that has expired is taken over only when no call of its owner still executes. -/
def TakesOverIdle (requests : ℕ → RunnerRequest) (world : RunnerWorld JobLocks)
    (trace : History runnerPorts MemcoreError) (_ : ℕ) (call : RunnerCall)
    (choice : RunnerChoice) : Prop :=
  match call with
  | .tryAcquireLock kind ownerId _ => ∀ lock, world.locks.find? kind = some lock →
      lock.ownerId ≠ ownerId → lock.lockedUntil ≤ world.clock + choice.elapsed →
        ∀ other, (requests other).runner.lockOwnerId = lock.ownerId →
          stageOf other trace ≠ .executing kind
  | _ => True

/-- The condition on the steps of two instances. -/
def ExcludesRuns (requests : ℕ → RunnerRequest) (world : RunnerWorld JobLocks)
    (trace : History runnerPorts MemcoreError) (thread : ℕ) (call : RunnerCall)
    (choice : RunnerChoice) : Prop :=
  RecordsOwn world trace thread call choice ∧ TakesOverIdle requests world trace thread call choice

section Locks

variable {requests : ℕ → RunnerRequest} {world : RunnerWorld JobLocks}
  {trace : History runnerPorts MemcoreError} {stages : ℕ → RunStage} {thread : ℕ}

/-- The lock of a kind is an owner's. -/
def IsLockedBy (locks : JobLocks) (kind : BackgroundJobKind) (ownerId : String) : Prop :=
  ∃ lock, locks.find? kind = some lock ∧ lock.ownerId = ownerId

/-- Slots are held, and whoever executes has the lock. -/
structure LocksHeld (requests : ℕ → RunnerRequest) (world : RunnerWorld JobLocks)
    (trace : History runnerPorts MemcoreError) (stages : ℕ → RunStage) : Prop
    extends SlotsHeld requests world trace stages where
  locked : ∀ thread kind, stages thread = .executing kind →
    IsLockedBy world.locks kind (requests thread).runner.lockOwnerId

/-- With locking enabled, an execution begins with the grant of the lock. -/
theorem executing_before {runner : BackgroundJobRunner} {stage : RunStage} {call : RunnerCall}
    {kind : BackgroundJobKind} (enabled : runner.lockEnabled = true)
    (allowed : (runnerProtocol runner).allows stage call) (answer : MemcoreResult call.Answer)
    (ungranted : ∀ wanted ownerId ttl, call ≠ .tryAcquireLock wanted ownerId ttl)
    (executing : stage.next call answer = .executing kind) : stage = .executing kind := by
  have stays : stage.leave ≠ .executing kind := by
    cases stage <;> simp [RunStage.leave]
  cases call with
  | tryAcquireLock kind ownerId ttl => exact absurd rfl (ungranted kind ownerId ttl)
  | tryBegin state other =>
    rcases answer with error | (_ | _)
    · exact executing
    · exact executing
    · cases executing
  | recordRun state run => cases executing
  | beginRunOnce state other =>
    rcases allowed.2 with begun | ⟨_, disabled⟩
    · rw [begun]
      exact executing
    · rw [enabled] at disabled
      contradiction
  | isCancelled token =>
    rcases answer with error | (_ | _)
    · exact executing
    · exact executing
    · exact absurd executing stays
  | awaitRunOnce state other token deadline mayRetry =>
    rcases answer with error | bodyEnd
    · exact executing
    · simp only [RunStage.next] at executing
      split at executing
      · exact absurd executing stays
      · exact executing
  | sleep token deadline =>
    rcases answer with error | sleepEnd
    · exact executing
    · simp only [RunStage.next] at executing
      split at executing
      · exact executing
      · exact absurd executing stays
  | _ => exact executing

theorem isLockedBy_put {locks : JobLocks} {other : BackgroundJobKind} {ownerId : String}
    {lock : JobLockRecord} (different : lock.kind ≠ other)
    (locked : IsLockedBy locks other ownerId) : IsLockedBy (locks.put lock) other ownerId := by
  obtain ⟨before, found, own⟩ := locked
  refine ⟨before, ?_, own⟩
  rw [Table.find?_put, if_neg different, found]

/-- A release by another owner, or of another kind, changes nothing about a lock. -/
theorem isLockedBy_release {locks : JobLocks} {kind other : BackgroundJobKind}
    {ownerId otherOwner : String} (different : kind = other → ownerId ≠ otherOwner)
    (locked : IsLockedBy locks other otherOwner) :
    IsLockedBy (MockBackgroundJobLockStore.releaseLock kind ownerId locks).2 other otherOwner := by
  obtain ⟨lock, found, own⟩ := locked
  unfold MockBackgroundJobLockStore.releaseLock
  split
  · exact ⟨lock, found, own⟩
  · rename_i released
    refine ⟨lock, ?_, own⟩
    have kinds : lock.kind = other := ((Table.find?_eq_some _ _ _).mp found).2
    have kept : decide (lock.kind ≠ kind) = true := by
      rw [decide_eq_true_eq]
      rintro same
      have sameKind : kind = other := same.symm.trans kinds
      subst sameKind
      rw [found, Option.map_some, own] at released
      exact different rfl (Option.some.inj (not_not.mp released)).symm
    rw [Table.find?_retain, found]
    exact Option.filter_some_pos kept

/-- Runs of one instance share their state and the owner of their locks; other instances
have other owners. -/
structure Instances (requests : ℕ → RunnerRequest) : Prop where
  locking : ∀ thread, (requests thread).runner.lockEnabled = true
  owners : ∀ thread other, (requests thread).runner.lockOwnerId =
    (requests other).runner.lockOwnerId →
      (requests thread).runner.state = (requests other).runner.state

/-- What an acquisition does: it leaves the stage and the locks alone, or it is granted where no
other owner has an unexpired lock. -/
theorem serve_tryAcquireLock (choice : RunnerChoice) (kind : BackgroundJobKind) (ownerId : String)
    (ttl : ℕ) (world : RunnerWorld JobLocks) (stage : RunStage) :
    (stage.next (.tryAcquireLock kind ownerId ttl) (runnerServe mockBackgroundJobLockStore choice
        (.tryAcquireLock kind ownerId ttl) world).1 = stage ∧
      (runnerServe mockBackgroundJobLockStore choice
        (.tryAcquireLock kind ownerId ttl) world).2.locks = world.locks) ∨
    (stage.next (.tryAcquireLock kind ownerId ttl) (runnerServe mockBackgroundJobLockStore choice
        (.tryAcquireLock kind ownerId ttl) world).1 = .executing kind ∧
      (∃ lock : JobLockRecord, lock.kind = kind ∧ lock.ownerId = ownerId ∧
        (runnerServe mockBackgroundJobLockStore choice
          (.tryAcquireLock kind ownerId ttl) world).2.locks = world.locks.put lock) ∧
      ∀ lock, world.locks.find? kind = some lock →
        lock.ownerId = ownerId ∨ lock.lockedUntil ≤ world.clock + choice.elapsed) := by
  simp only [runnerServe]
  cases choice.lockFailure with
  | some error => exact .inl ⟨rfl, rfl⟩
  | none =>
    rcases mock_tryAcquire_cases (world.clock + choice.elapsed) kind ownerId ttl world.locks with
      ⟨_, _, _, _, refused⟩ | ⟨free, granted⟩
    · exact .inl (by simp [mockBackgroundJobLockStore, RunnerWorld.passing, refused, RunStage.next])
    · refine .inr ⟨?_, ⟨⟨kind, ownerId, lockUntilFromTtl (world.clock + choice.elapsed) ttl,
        world.clock + choice.elapsed, none⟩, rfl, rfl, ?_⟩, free⟩
      · simp [mockBackgroundJobLockStore, RunnerWorld.passing, granted, RunStage.next]
      · simp only [mockBackgroundJobLockStore, RunnerWorld.passing, granted]

/-- Every permitted step keeps the locks. -/
theorem locked_step (instances : Instances requests) (held : LocksHeld requests world trace stages)
    {call : RunnerCall} {choice : RunnerChoice}
    (allowed : (runnerProtocol (requests thread).runner).allows (stages thread) call)
    (permitted : TakesOverIdle requests world trace thread call choice) (other : ℕ)
    (kind : BackgroundJobKind)
    (executing : Function.update stages thread ((stages thread).next call
      (runnerServe mockBackgroundJobLockStore choice call world).1) other = .executing kind) :
    IsLockedBy (runnerServe mockBackgroundJobLockStore choice call world).2.locks kind
      (requests other).runner.lockOwnerId := by
  have before (ungranted : ∀ kind ownerId ttl, call ≠ .tryAcquireLock kind ownerId ttl) :
      stages other = .executing kind := by
    by_cases own : other = thread
    · subst own
      rw [Function.update_self] at executing
      exact executing_before (instances.locking other) allowed _ ungranted executing
    · rwa [Function.update_of_ne own] at executing
  cases call with
  | tryAcquireLock taken ownerId ttl =>
    obtain ⟨rfl, begun⟩ := allowed
    rcases serve_tryAcquireLock choice taken (requests thread).runner.lockOwnerId ttl world
      (stages thread) with ⟨sameStage, sameLocks⟩ | ⟨granted, ⟨lock, rfl, own, locks⟩, free⟩
    · rw [sameStage, Function.update_eq_self] at executing
      rw [sameLocks]
      exact held.locked other kind executing
    · rw [granted] at executing
      rw [locks]
      have isPut : IsLockedBy (world.locks.put lock) lock.kind
          (requests thread).runner.lockOwnerId :=
        ⟨lock, by rw [Table.find?_put, if_pos rfl], own⟩
      by_cases mine : other = thread
      · subst mine
        rw [Function.update_self] at executing
        cases executing
        exact isPut
      · rw [Function.update_of_ne mine] at executing
        have locked := held.locked other kind executing
        by_cases sameKind : lock.kind = kind
        · -- The lock was this owner's, or has expired although its owner still executes.
          subst sameKind
          obtain ⟨previous, found, previousOwner⟩ := locked
          rcases free previous found with sameOwner | expired
          · rw [← previousOwner, sameOwner]
            exact isPut
          · by_cases sameOwner : previous.ownerId = (requests thread).runner.lockOwnerId
            · rw [← previousOwner, sameOwner]
              exact isPut
            · have idle := permitted previous found sameOwner expired other previousOwner.symm
              exact absurd ((held.tracked other).symm.trans executing) idle
        · exact isLockedBy_put sameKind locked
  | releaseLock released ownerId =>
    have still := before (by simp)
    have locked := held.locked other kind still
    obtain ⟨rfl, finished⟩ := allowed
    simp only [runnerServe]
    split
    · exact locked
    · apply isLockedBy_release _ locked
      rintro rfl sameOwner
      have alone := held.alone other thread _ released
        ⟨(instances.owners _ _ sameOwner).symm, congrArg RunStage.slot still⟩
        ⟨rfl, congrArg RunStage.slot finished⟩
      subst alone
      rw [still] at finished
      cases finished
  | insertRun run =>
    simp only [runnerServe]
    split <;> exact held.locked other kind (before (by simp))
  | _ => exact held.locked other kind (before (by simp))

theorem locksHeld_step (instances : Instances requests)
    (held : LocksHeld requests world trace stages) {call : RunnerCall} {choice : RunnerChoice}
    (allowed : (runnerProtocol (requests thread).runner).allows (stages thread) call)
    (permitted : ExcludesRuns requests world trace thread call choice) :
    LocksHeld requests (runnerServe mockBackgroundJobLockStore choice call world).2
      ((thread, ⟨call, (runnerServe mockBackgroundJobLockStore choice call world).1⟩) :: trace)
      (Function.update stages thread
        ((stages thread).next call (runnerServe mockBackgroundJobLockStore choice call world).1)) where
  toSlotsHeld := slotsHeld_step held.toSlotsHeld allowed permitted.1
  locked := locked_step instances held allowed permitted.2

end Locks

/-- In every run in which expired locks are taken over only from instances that do not execute
any more, and slots are freed by their holders only, bodies of one kind are never in progress on
two instances. -/
theorem one_instance_at_a_time (first second : BackgroundJobRunner)
    (firstLocks : first.lockEnabled = true) (secondLocks : second.lockEnabled = true)
    (owners : first.lockOwnerId ≠ second.lockOwnerId) (requests : ℕ → RunnerRequest)
    (ofInstances : ∀ thread, (requests thread).runner = first ∨ (requests thread).runner = second)
    (world : RunnerWorld JobLocks)
    {pool : Pool runnerPorts MemcoreError (List BackgroundJobRun) (RunnerWorld JobLocks)}
    (reached : Pool.Reaches (runnerServer mockBackgroundJobLockStore) (ExcludesRuns requests)
      (startRequests requests world) pool) (kind : BackgroundJobKind) (thread other : ℕ)
    (onFirst : (requests thread).runner = first) (onSecond : (requests other).runner = second)
    (inProgress : InProgress pool thread first.state kind) :
    ¬ InProgress pool other second.state kind := by
  intro otherInProgress
  have instances : Instances requests := by
    constructor
    · intro thread
      rcases ofInstances thread with same | same <;> rw [same] <;> assumption
    · intro thread other sameOwner
      rcases ofInstances thread with same | same <;>
        rcases ofInstances other with otherSame | otherSame <;>
          rw [same, otherSame] at sameOwner ⊢
      · exact absurd sameOwner owners
      · exact absurd sameOwner.symm owners
  obtain ⟨stages, held, follow⟩ := @Pool.Reaches.invariant _ _ _ _ _ _ _ _ _ _ reached
    (requestProtocols requests) _ (LocksHeld requests)
    (fun _ _ _ _ _ _ held allowed _ permitted => locksHeld_step instances held allowed permitted)
    _ (startRequests_follow world) ⟨slotsHeld_start world, fun _ _ executing => nomatch executing⟩
  obtain ⟨lock, found, own⟩ := held.locked thread kind (inProgress_stage follow inProgress).2
  obtain ⟨otherLock, otherFound, otherOwn⟩ :=
    held.locked other kind (inProgress_stage follow otherInProgress).2
  rw [found] at otherFound
  obtain rfl := Option.some.inj otherFound
  rw [onFirst] at own
  rw [onSecond] at otherOwn
  exact owners (own.symm.trans otherOwn)

/-! ## Runs by hand -/

section Sample

/-- Whether a thread waits for a body. -/
def isInProgress (thread state : ℕ) (kind : BackgroundJobKind)
    (pool : Pool runnerPorts MemcoreError (List BackgroundJobRun) (RunnerWorld σ)) : Bool :=
  match pool.threads thread with
  | .ask (.awaitRunOnce otherState otherKind _ _ _) _ =>
      decide (otherState = state ∧ otherKind = kind)
  | _ => false

theorem inProgress_of_test {thread state : ℕ} {kind : BackgroundJobKind}
    {pool : Pool runnerPorts MemcoreError (List BackgroundJobRun) (RunnerWorld σ)}
    (passes : isInProgress thread state kind pool = true) : InProgress pool thread state kind := by
  unfold isInProgress at passes
  split at passes
  · rename_i otherState otherKind token deadline mayRetry resume waiting
    obtain ⟨rfl, rfl⟩ := of_decide_eq_true passes
    exact ⟨token, deadline, mayRetry, resume, waiting⟩
  · contradiction

/-- A job that runs every hour, on the instance of some number. -/
def sampleRunner (instanceId : ℕ) (ttlSeconds : ℕ) : BackgroundJobRunner where
  jobsEnabled := true
  jobs := Table.empty.put ⟨.memoryRetention, true, 3600 * 1000000000⟩
  state := instanceId
  historyEnabled := false
  runStore := false
  lockEnabled := true
  lockOwnerId := toString instanceId
  lockTtl := ttlSeconds * 1000000000
  lockStore := true
  retryPolicy := ⟨true, 2⟩
  shutdownToken := none

def sampleRunnerSettings (ttlSeconds : ℕ) : BackgroundJobSettings where
  runnerIntervalSeconds := 60
  memoryUsageSnapshotIntervalSeconds := 3600
  providerUsageRetentionIntervalSeconds := 3600
  memoryRetentionIntervalSeconds := 3600
  lockTtlSeconds := ttlSeconds

def sampleRunnerWorld : RunnerWorld JobLocks where
  clock := 0
  states := fun _ => .new 100
  locks := .empty
  cancelled := fun _ => false

/-- A call after some seconds; a body that ends has succeeded. -/
def runnerStep (thread : ℕ) (elapsedSeconds : ℕ) : ℕ × RunnerChoice :=
  (thread, ⟨elapsedSeconds * 1000000000, fun _ => false, none, none,
    .finished (.ok ⟨.succeeded, 0, none, none⟩), .elapsed⟩)

/-- The requests of threads on the instances with these numbers. -/
def sampleRequests (ttlSeconds : ℕ) (instanceIds : ℕ → ℕ) (thread : ℕ) : RunnerRequest :=
  .runManual (sampleRunner (instanceIds thread) ttlSeconds) .memoryRetention

/-- No lock is taken that someone has, and nothing is recorded. -/
def isUndisputed (world : RunnerWorld JobLocks) (call : RunnerCall) : Bool :=
  match call with
  | .tryAcquireLock kind _ _ => (world.locks.find? kind).isNone
  | .recordRun _ _ => false
  | _ => true

theorem undisputed_excludesRuns (requests : ℕ → RunnerRequest) (world : RunnerWorld JobLocks)
    (trace : History runnerPorts MemcoreError) (thread : ℕ) (call : RunnerCall)
    (choice : RunnerChoice) (undisputed : isUndisputed world call = true) :
    ExcludesRuns requests world trace thread call choice := by
  cases call with
  | tryAcquireLock kind ownerId ttl =>
    refine ⟨trivial, ?_⟩
    intro lock found
    rw [isUndisputed, found] at undisputed
    contradiction
  | recordRun state run => contradiction
  | _ => exact ⟨trivial, trivial⟩

theorem one_run_at_a_time_sample : ∃ pool,
    Pool.Reaches (runnerServer mockBackgroundJobLockStore) RecordsOwn
      (startRequests (sampleRequests 300 fun _ => 0) sampleRunnerWorld) pool ∧
    InProgress pool 0 0 .memoryRetention ∧
    ∀ other, InProgress pool other 0 .memoryRetention → 0 = other := by
  obtain ⟨pool, reached, running⟩ := Pool.exists_reached_of_run
    (runnerServer mockBackgroundJobLockStore)
    (fun world _ _ call _ => isUndisputed world call = true)
    [runnerStep 0 0, runnerStep 0 0, runnerStep 0 0, runnerStep 0 0, runnerStep 1 0]
    (startRequests (sampleRequests 300 fun _ => 0) sampleRunnerWorld)
    (isInProgress 0 0 .memoryRetention) (by decide +kernel)
  have permitted := reached.mono fun world trace thread call choice undisputed =>
    (undisputed_excludesRuns (sampleRequests 300 fun _ => 0) world trace thread call choice
      undisputed).1
  have inProgress := inProgress_of_test running
  exact ⟨pool, permitted, inProgress, fun other =>
    one_run_at_a_time mockBackgroundJobLockStore _ _ permitted 0 .memoryRetention 0 other inProgress⟩

/-- Any interleaving at all. -/
def anyStep (_ : RunnerWorld JobLocks) (_ : History runnerPorts MemcoreError) (_ : ℕ)
    (_ : RunnerCall) (_ : RunnerChoice) : Prop := True

instance (world : RunnerWorld JobLocks) (trace : History runnerPorts MemcoreError) (thread : ℕ)
    (call : RunnerCall) (choice : RunnerChoice) :
    Decidable (anyStep world trace thread call choice) :=
  .isTrue trivial

/-- The calls of a run up to its body, some of them after seconds have passed. -/
def upToBody (thread : ℕ) (elapsedSeconds : ℕ) : List (ℕ × RunnerChoice) :=
  [runnerStep thread 0, runnerStep thread elapsedSeconds, runnerStep thread 0, runnerStep thread 0]

/-- The calls of a run that finds its slot taken. -/
def skipped (thread : ℕ) : List (ℕ × RunnerChoice) :=
  [runnerStep thread 0, runnerStep thread 0, runnerStep thread 0]

/-- The record of a skipped run frees the slot of the run that is in progress. -/
theorem skipped_run_frees_slot : ∃ pool,
    Pool.Reaches (runnerServer mockBackgroundJobLockStore) anyStep
      (startRequests (sampleRequests 300 fun _ => 0) sampleRunnerWorld) pool ∧
    InProgress pool 0 0 .memoryRetention ∧ InProgress pool 2 0 .memoryRetention := by
  obtain ⟨pool, reached, running⟩ := Pool.exists_reached_of_run
    (runnerServer mockBackgroundJobLockStore) anyStep (upToBody 0 0 ++ skipped 1 ++ upToBody 2 0)
    (startRequests (sampleRequests 300 fun _ => 0) sampleRunnerWorld)
    (fun pool => isInProgress 0 0 .memoryRetention pool && isInProgress 2 0 .memoryRetention pool)
    (by decide +kernel)
  rw [Bool.and_eq_true] at running
  exact ⟨pool, reached, inProgress_of_test running.1, inProgress_of_test running.2⟩

theorem one_instance_at_a_time_sample : ∃ pool,
    Pool.Reaches (runnerServer mockBackgroundJobLockStore)
      (ExcludesRuns (sampleRequests 300 (· % 2)))
      (startRequests (sampleRequests 300 (· % 2)) sampleRunnerWorld) pool ∧
    InProgress pool 0 0 .memoryRetention ∧ ¬ InProgress pool 1 1 .memoryRetention := by
  obtain ⟨pool, reached, running⟩ := Pool.exists_reached_of_run
    (runnerServer mockBackgroundJobLockStore)
    (fun world _ _ call _ => isUndisputed world call = true) (upToBody 0 0)
    (startRequests (sampleRequests 300 (· % 2)) sampleRunnerWorld)
    (isInProgress 0 0 .memoryRetention) (by decide +kernel)
  have permitted := reached.mono (undisputed_excludesRuns (sampleRequests 300 (· % 2)))
  have inProgress := inProgress_of_test running
  have ofInstances (thread : ℕ) : (sampleRequests 300 (· % 2) thread).runner = sampleRunner 0 300 ∨
      (sampleRequests 300 (· % 2) thread).runner = sampleRunner 1 300 := by
    rcases Nat.mod_two_eq_zero_or_one thread with even | odd
    · exact .inl (by rw [sampleRequests, even]; rfl)
    · exact .inr (by rw [sampleRequests, odd]; rfl)
  exact ⟨pool, permitted, inProgress, one_instance_at_a_time (sampleRunner 0 300)
    (sampleRunner 1 300) rfl rfl (by decide) _ ofInstances _ permitted .memoryRetention 0 1 rfl rfl
    inProgress⟩

/-- A lock of one second expires while the body of an hourly job runs. Under a longer lock, a
first run releases the lock of its instance while a second one, let in by the record of a skipped
run, is in progress. -/
theorem two_instances_run : (sampleRunnerSettings 1).validate = .ok () ∧
    (∃ pool, Pool.Reaches (runnerServer mockBackgroundJobLockStore) anyStep
        (startRequests (sampleRequests 1 (· % 2)) sampleRunnerWorld) pool ∧
      InProgress pool 0 0 .memoryRetention ∧ InProgress pool 1 1 .memoryRetention) ∧
    (∃ pool, Pool.Reaches (runnerServer mockBackgroundJobLockStore) anyStep
        (startRequests (sampleRequests 300 (· % 2)) sampleRunnerWorld) pool ∧
      InProgress pool 4 0 .memoryRetention ∧ InProgress pool 1 1 .memoryRetention) := by
  refine ⟨by decide +kernel, ?_, ?_⟩
  · obtain ⟨pool, reached, running⟩ := Pool.exists_reached_of_run
      (runnerServer mockBackgroundJobLockStore) anyStep (upToBody 0 0 ++ upToBody 1 2)
      (startRequests (sampleRequests 1 (· % 2)) sampleRunnerWorld)
      (fun pool => isInProgress 0 0 .memoryRetention pool && isInProgress 1 1 .memoryRetention pool)
      (by decide +kernel)
    rw [Bool.and_eq_true] at running
    exact ⟨pool, reached, inProgress_of_test running.1, inProgress_of_test running.2⟩
  · obtain ⟨pool, reached, running⟩ := Pool.exists_reached_of_run
      (runnerServer mockBackgroundJobLockStore) anyStep
      (upToBody 0 0 ++ skipped 2 ++ upToBody 4 0 ++ [runnerStep 0 0, runnerStep 0 0] ++
        upToBody 1 0)
      (startRequests (sampleRequests 300 (· % 2)) sampleRunnerWorld)
      (fun pool => isInProgress 4 0 .memoryRetention pool && isInProgress 1 1 .memoryRetention pool)
      (by decide +kernel)
    rw [Bool.and_eq_true] at running
    exact ⟨pool, reached, inProgress_of_test running.1, inProgress_of_test running.2⟩

end Sample

end Memcore
