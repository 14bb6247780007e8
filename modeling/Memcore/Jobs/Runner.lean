import Memcore.Foundations.Interleaving
import Memcore.Jobs.Locks
import Memcore.Providers.Router

/-!
# The runner of background jobs

A run of a job takes the slot of its kind in the state of the runner, takes the lock of its
kind if locking is enabled, runs the job's body with retries until its interval has passed,
releases the lock and records itself. Recording frees the slot. A run that finds the slot taken,
or the program shutting down, records itself too.

Reading the clock or a token, a critical section of the state's mutex, a call of a store, the
start of a body and its end are atomic. How long a delay between attempts is, and the identifier,
duration and counts of a run, are left out.
-/
namespace Memcore

open KeyedTables Programs

/-! ## Runs and definitions -/

structure BackgroundJobDefinition where
  kind : BackgroundJobKind
  enabled : Bool
  interval : ℕ
  deriving DecidableEq

inductive BackgroundJobStatus where
  | idle | running | succeeded | failed | skipped | cancelled
  deriving DecidableEq

structure BackgroundJobRun where
  kind : BackgroundJobKind
  status : BackgroundJobStatus
  startedAt : Instant
  attemptCount : ℕ
  maxAttempts : ℕ
  retried : Bool
  errorCode : Option String
  errorMessage : Option String
  deriving DecidableEq

namespace BackgroundJobRun

/-- A run that ended at once, with a code and a message. -/
def ended (status : BackgroundJobStatus) (code : String) (kind : BackgroundJobKind)
    (message : String) (startedAt : Instant) : BackgroundJobRun where
  kind := kind
  status := status
  startedAt := startedAt
  attemptCount := 1
  maxAttempts := 1
  retried := false
  errorCode := some code
  errorMessage := some message

def skipped := ended .skipped "SKIPPED"

def failed (kind : BackgroundJobKind) (code message : String) := ended .failed code kind message

def cancelled := ended .cancelled "SHUTDOWN_REQUESTED"

end BackgroundJobRun

/-! ## The state that runs share -/

structure InMemoryBackgroundJobState where
  lastRuns : BackgroundJobKind → Option Instant
  running : BackgroundJobKind → Bool
  recentRuns : List BackgroundJobRun
  recentRunLimit : ℕ

namespace InMemoryBackgroundJobState

def new (recentRunLimit : ℕ) : InMemoryBackgroundJobState :=
  ⟨fun _ => none, fun _ => false, [], max recentRunLimit 1⟩

/-- Take the slot of a kind; it is told whether the slot was free. -/
def tryBegin (kind : BackgroundJobKind) (state : InMemoryBackgroundJobState) :
    Bool × InMemoryBackgroundJobState :=
  (!state.running kind, { state with running := Function.update state.running kind true })

def isDue (definition : BackgroundJobDefinition) (now : Instant)
    (state : InMemoryBackgroundJobState) : Bool :=
  if state.running definition.kind then false
  else match state.lastRuns definition.kind with
    | none => true
    | some lastRun =>
        if definition.interval ≤ maxCalendarDuration then
          decide (lastRun + definition.interval ≤ now)
        else false

/-- Record a run, whatever became of it. The slot of its kind is free afterwards. -/
def recordRun (run : BackgroundJobRun) (state : InMemoryBackgroundJobState) :
    InMemoryBackgroundJobState :=
  { state with
    running := Function.update state.running run.kind false
    lastRuns := Function.update state.lastRuns run.kind (some run.startedAt)
    recentRuns := (run :: state.recentRuns).take state.recentRunLimit }

end InMemoryBackgroundJobState

/-! ## Retries -/

structure BackgroundJobRetryPolicy where
  enabled : Bool
  maxRetries : ℕ

def BackgroundJobRetryPolicy.totalAttempts (policy : BackgroundJobRetryPolicy) : ℕ :=
  if policy.enabled then policy.maxRetries + 1 else 1

def isRetryableJobErrorMessage (message : String) : Bool :=
  let lower := Texts.toAsciiLowercase message
  if ["unauthorized", "forbidden", "invalid config", "validation", "quota", "unsupported",
      "missing required"].any (Texts.contains lower) then false
  else ["timed out", "timeout", "temporarily unavailable", "service unavailable",
      "connection reset", "connection refused", "database is locked", "deadlock",
      "lock unavailable", "unavailable"].any (Texts.contains lower) ||
    ["429", "500", "502", "503", "504"].any (containsHttpStatus message)

def isRetryableJobError : MemcoreError → Bool
  | .timeout _ | .rateLimited => true
  | .storageError message | .providerError message | .internal message =>
      isRetryableJobErrorMessage message
  | _ => false

/-- The code of an error in a run's record. -/
def MemcoreError.code : MemcoreError → String
  | unauthorized => "unauthorized"
  | forbidden => "forbidden"
  | badRequest _ => "bad_request"
  | notFound _ => "not_found"
  | conflict _ => "conflict"
  | rateLimited => "rate_limited"
  | providerError message =>
      if (providerError message).isProviderCircuitOpen then "provider_circuit_open"
      else "provider_error"
  | storageError _ => "storage_error"
  | migrationError _ => "migration_error"
  | validationError _ => "validation_error"
  | internal _ => "internal"
  | timeout message =>
      if message = providerTimeoutMessage then "provider_timeout" else "timeout"
  | quotaExceeded _ _ _ _ _ => "quota_exceeded"
  | providerGuardrailViolation _ _ => "provider_guardrail_violation"

/-! ## The calls of a run -/

/-- What a body reports of itself. Every job makes its run with its own kind. -/
structure JobReport where
  status : BackgroundJobStatus
  startedAt : Instant
  errorCode : Option String
  errorMessage : Option String
  deriving DecidableEq

def JobReport.run (kind : BackgroundJobKind) (report : JobReport) : BackgroundJobRun where
  kind := kind
  status := report.status
  startedAt := report.startedAt
  attemptCount := 1
  maxAttempts := 1
  retried := false
  errorCode := report.errorCode
  errorMessage := report.errorMessage

/-- How a body that was started ends: it returns, or is given up after a shutdown was
requested, or is dropped when the interval of the job has passed. -/
inductive BodyEnd where
  | finished (result : MemcoreResult JobReport)
  | shutdownTimeout
  | timedOut

/-- How the delay before another attempt ends. -/
inductive SleepEnd where
  | elapsed | shutdownRequested | timedOut
  deriving DecidableEq

/-- Calls of runners. States and shutdown tokens are numbered. -/
inductive RunnerCall where
  | isCancelled (token : ℕ)
  | utcNow
  | isDue (state : ℕ) (definition : BackgroundJobDefinition) (now : Instant)
  | tryBegin (state : ℕ) (kind : BackgroundJobKind)
  | tryAcquireLock (kind : BackgroundJobKind) (ownerId : String) (ttl : ℕ)
  | beginRunOnce (state : ℕ) (kind : BackgroundJobKind)
  | awaitRunOnce (state : ℕ) (kind : BackgroundJobKind) (token : Option ℕ) (deadline : Instant)
      (mayRetry : Bool)
  | sleep (token : Option ℕ) (deadline : Instant)
  | releaseLock (kind : BackgroundJobKind) (ownerId : String)
  | recordRun (state : ℕ) (run : BackgroundJobRun)
  | insertRun (run : BackgroundJobRun)

abbrev RunnerCall.Answer : RunnerCall → Type
  | isCancelled _ => Bool
  | utcNow => Instant
  | isDue _ _ _ => Bool
  | tryBegin _ _ => Bool
  | tryAcquireLock _ _ _ => Option AcquiredJobLock
  | beginRunOnce _ _ => Unit
  | awaitRunOnce _ _ _ _ _ => BodyEnd
  | sleep _ _ => SleepEnd
  | releaseLock _ _ => Bool
  | recordRun _ _ => Unit
  | insertRun _ => Unit

abbrev runnerPorts : Interface := ⟨RunnerCall, RunnerCall.Answer⟩

abbrev RunnerProgram (α : Type) := Program runnerPorts MemcoreError α

def runnerCall (request : RunnerCall) : RunnerProgram request.Answer :=
  @Program.call runnerPorts MemcoreError request

/-! ## The runner -/

structure BackgroundJobRunner where
  jobsEnabled : Bool
  jobs : Table BackgroundJobKind BackgroundJobDefinition BackgroundJobDefinition.kind
  state : ℕ
  historyEnabled : Bool
  runStore : Bool
  lockEnabled : Bool
  lockOwnerId : String
  lockTtl : ℕ
  lockStore : Bool
  retryPolicy : BackgroundJobRetryPolicy
  shutdownToken : Option ℕ

namespace BackgroundJobRunner

variable (runner : BackgroundJobRunner)

def isShutdownRequested : RunnerProgram Bool :=
  match runner.shutdownToken with
  | none => pure false
  | some token => runnerCall (.isCancelled token)

/-- Record a run in the state, and in the store of runs if there is one. -/
def recordRun (run : BackgroundJobRun) : RunnerProgram Unit := do
  runnerCall (.recordRun runner.state run)
  if runner.historyEnabled && runner.runStore then
    let _ ← (runnerCall (.insertRun run)).attempt

/-- A run without a lock, if none is needed, or with one; else the run to record. -/
def acquireLock (kind : BackgroundJobKind) :
    RunnerProgram (Except BackgroundJobRun (Option AcquiredJobLock)) := do
  if !runner.lockEnabled then return .ok none
  if !runner.lockStore then
    let now ← runnerCall .utcNow
    return .error { BackgroundJobRun.skipped kind "distributed job lock store is not configured" now
      with errorCode := some "JOB_LOCK_STORE_NOT_CONFIGURED" }
  match ← (runnerCall (.tryAcquireLock kind runner.lockOwnerId runner.lockTtl)).attempt with
  | .ok (some lock) => return .ok (some lock)
  | .ok none =>
      let now ← runnerCall .utcNow
      return .error { BackgroundJobRun.skipped kind "job is already running on another instance" now
        with errorCode := some "JOB_ALREADY_RUNNING" }
  | .error _ =>
      let now ← runnerCall .utcNow
      return .error { BackgroundJobRun.skipped kind "distributed job lock unavailable" now
        with errorCode := some "JOB_LOCK_UNAVAILABLE" }

def releaseLock (kind : BackgroundJobKind) (acquiredLock : Option AcquiredJobLock) :
    RunnerProgram Unit :=
  if !runner.lockEnabled || acquiredLock.isNone || !runner.lockStore then pure ()
  else do
    let _ ← (runnerCall (.releaseLock kind runner.lockOwnerId)).attempt

/-- The record of an execution that a shutdown ended. -/
def cancelledRun (kind : BackgroundJobKind) (startedAt : Instant) (attemptsMade maxAttempts : ℕ) :
    BackgroundJobRun :=
  { BackgroundJobRun.cancelled kind "shutdown requested" startedAt with
    attemptCount := attemptsMade
    maxAttempts := maxAttempts
    retried := decide (1 < attemptsMade) }

/-- The record of an execution whose last attempt failed. -/
def failedRun (kind : BackgroundJobKind) (startedAt : Instant) (attemptsMade maxAttempts : ℕ)
    (error : MemcoreError) : BackgroundJobRun :=
  { BackgroundJobRun.failed kind error.code error.message startedAt with
    attemptCount := max attemptsMade 1
    maxAttempts := maxAttempts
    retried := decide (1 < attemptsMade) }

/-- The attempts that are left, after some were made. The result is absent when the interval
of the job has passed. -/
def executeAttempts (kind : BackgroundJobKind) (startedAt deadline : Instant) (maxAttempts : ℕ) :
    (left attemptsMade : ℕ) → RunnerProgram (Option BackgroundJobRun)
  | 0, attemptsMade => return some (failedRun kind startedAt attemptsMade maxAttempts
      (.internal "background job failed"))
  | left + 1, attemptsMade => do
      if ← runner.isShutdownRequested then
        return some (cancelledRun kind startedAt attemptsMade maxAttempts)
      let attemptNumber := attemptsMade + 1
      let mayRetry := runner.retryPolicy.enabled && decide (attemptNumber < maxAttempts)
      runnerCall (.beginRunOnce runner.state kind)
      match ← runnerCall
          (.awaitRunOnce runner.state kind runner.shutdownToken deadline mayRetry) with
      | .timedOut => return none
      | .shutdownTimeout => return some (cancelledRun kind startedAt attemptNumber maxAttempts)
      | .finished (.ok report) =>
          return some { report.run kind with
            attemptCount := attemptNumber
            maxAttempts := maxAttempts
            retried := decide (1 < attemptNumber) }
      | .finished (.error error) =>
          if !(mayRetry && isRetryableJobError error) then
            return some (failedRun kind startedAt attemptNumber maxAttempts error)
          match ← runnerCall (.sleep runner.shutdownToken deadline) with
          | .elapsed => executeAttempts kind startedAt deadline maxAttempts left attemptNumber
          | .shutdownRequested =>
              return some (cancelledRun kind startedAt attemptNumber maxAttempts)
          | .timedOut => return none

/-- The job's body with retries, until the interval of the job has passed. -/
def execute (job : BackgroundJobDefinition) : RunnerProgram BackgroundJobRun := do
  let startedAt ← runnerCall .utcNow
  let maxAttempts := runner.retryPolicy.totalAttempts
  match ← runner.executeAttempts job.kind startedAt (startedAt + job.interval) maxAttempts
      maxAttempts 0 with
  | some run => return run
  | none =>
      let now ← runnerCall .utcNow
      return { BackgroundJobRun.failed job.kind "TIMEOUT" "background job timed out" now with
        maxAttempts := maxAttempts }

def runJob (job : BackgroundJobDefinition) : RunnerProgram BackgroundJobRun := do
  let kind := job.kind
  if ← runner.isShutdownRequested then
    let now ← runnerCall .utcNow
    let run := BackgroundJobRun.cancelled kind "shutdown requested" now
    runner.recordRun run
    return run
  if !(← runnerCall (.tryBegin runner.state kind)) then
    let now ← runnerCall .utcNow
    let run := BackgroundJobRun.skipped kind "job is already running" now
    runner.recordRun run
    return run
  match ← runner.acquireLock kind with
  | .error run =>
      runner.recordRun run
      return run
  | .ok acquiredLock =>
      let run ← runner.execute job
      runner.releaseLock kind acquiredLock
      runner.recordRun run
      return run

/-- The jobs that are due, one after the other. -/
def runDueJobs (now : Instant) :
    List BackgroundJobDefinition → RunnerProgram (List BackgroundJobRun)
  | [] => return []
  | job :: rest => do
      if ← runner.isShutdownRequested then return []
      if !job.enabled then runDueJobs now rest
      else if !(← runnerCall (.isDue runner.state job now)) then runDueJobs now rest
      else
        let run ← runner.runJob job
        let runs ← runDueJobs now rest
        return run :: runs

def runDueOnce : RunnerProgram (List BackgroundJobRun) := do
  if !runner.jobsEnabled then return []
  if ← runner.isShutdownRequested then return []
  let now ← runnerCall .utcNow
  runner.runDueJobs now runner.jobs.rows

def runManual (kind : BackgroundJobKind) : RunnerProgram BackgroundJobRun :=
  match runner.jobs.find? kind with
  | none => .fail (.validationError ("job is not registered: " ++ kind.asStr))
  | some job => runner.runJob job

end BackgroundJobRunner

/-- One request to a runner: the jobs that are due, or one job by hand. -/
inductive RunnerRequest where
  | runDueOnce (runner : BackgroundJobRunner)
  | runManual (runner : BackgroundJobRunner) (kind : BackgroundJobKind)

namespace RunnerRequest

def runner : RunnerRequest → BackgroundJobRunner
  | runDueOnce runner | runManual runner _ => runner

def program : RunnerRequest → RunnerProgram (List BackgroundJobRun)
  | runDueOnce runner => runner.runDueOnce
  | runManual runner kind => do
      let run ← runner.runManual kind
      return [run]

end RunnerRequest

/-! ## The surroundings -/

/-- What runners share: a clock, the states, the locks, and the shutdown tokens. -/
structure RunnerWorld (σ : Type) where
  clock : Instant
  states : ℕ → InMemoryBackgroundJobState
  locks : σ
  cancelled : ℕ → Bool

/-- What the surroundings contribute to a call: the time that has passed, the tokens that were
cancelled meanwhile, failures of stores, and how a body or a delay ends. -/
structure RunnerChoice where
  elapsed : ℕ
  cancels : ℕ → Bool
  lockFailure : Option MemcoreError
  historyFailure : Option MemcoreError
  bodyEnd : BodyEnd
  sleepEnd : SleepEnd

variable {σ : Type}

/-- The world when a call is served: the clock does not go backwards, and a token stays
cancelled. -/
def RunnerWorld.passing (choice : RunnerChoice) (world : RunnerWorld σ) : RunnerWorld σ :=
  { world with
    clock := world.clock + choice.elapsed
    cancelled := fun token => world.cancelled token || choice.cancels token }

def RunnerWorld.setState (world : RunnerWorld σ) (state : ℕ)
    (later : InMemoryBackgroundJobState) : RunnerWorld σ :=
  { world with states := Function.update world.states state later }

/-- A body is given up only after a shutdown was requested, and dropped only when the deadline
has passed. -/
def runnerReady (choice : RunnerChoice) (call : RunnerCall) (world : RunnerWorld σ) : Bool :=
  let now := world.passing choice
  match call with
  | .awaitRunOnce _ _ token deadline _ =>
      match choice.bodyEnd with
      | .finished _ => true
      | .shutdownTimeout => token.any now.cancelled
      | .timedOut => decide (deadline ≤ now.clock)
  | .sleep token deadline =>
      match choice.sleepEnd with
      | .elapsed => true
      | .shutdownRequested => token.any now.cancelled
      | .timedOut => decide (deadline ≤ now.clock)
  | _ => true

/-- Answer a call. A failing store has changed nothing. -/
def runnerServe (store : BackgroundJobLockStore σ) (choice : RunnerChoice)
    (call : RunnerCall) (world : RunnerWorld σ) : MemcoreResult call.Answer × RunnerWorld σ :=
  let now := world.passing choice
  match call with
  | .isCancelled token => (.ok (now.cancelled token), now)
  | .utcNow => (.ok now.clock, now)
  | .isDue state definition instant =>
      (.ok ((now.states state).isDue definition instant), now)
  | .tryBegin state kind =>
      let begun := (now.states state).tryBegin kind
      (.ok begun.1, now.setState state begun.2)
  | .tryAcquireLock kind ownerId ttl =>
      match choice.lockFailure with
      | some error => (.error error, now)
      | none =>
          let acquired := store.tryAcquireLock now.clock kind ownerId ttl now.locks
          (acquired.1, { now with locks := acquired.2 })
  | .beginRunOnce _ _ => (.ok (), now)
  | .awaitRunOnce _ _ _ _ _ => (.ok choice.bodyEnd, now)
  | .sleep _ _ => (.ok choice.sleepEnd, now)
  | .releaseLock kind ownerId =>
      match choice.lockFailure with
      | some error => (.error error, now)
      | none =>
          let released := store.releaseLock kind ownerId now.locks
          (released.1, { now with locks := released.2 })
  | .recordRun state run => (.ok (), now.setState state ((now.states state).recordRun run))
  | .insertRun _ =>
      match choice.historyFailure with
      | some error => (.error error, now)
      | none => (.ok (), now)

def runnerServer (store : BackgroundJobLockStore σ) :
    Server runnerPorts MemcoreError (RunnerWorld σ) RunnerChoice where
  ready := runnerReady
  serve := runnerServe store

/-! ## Settings -/

/-- The settings of the runner that must not be zero. -/
structure BackgroundJobSettings where
  runnerIntervalSeconds : ℕ
  memoryUsageSnapshotIntervalSeconds : ℕ
  providerUsageRetentionIntervalSeconds : ℕ
  memoryRetentionIntervalSeconds : ℕ
  lockTtlSeconds : ℕ

/-- A setting must be greater than zero. -/
def requirePositive (name : String) (value : ℕ) : MemcoreResult Unit :=
  if value = 0 then .error (.validationError (name ++ " must be greater than 0")) else .ok ()

def BackgroundJobSettings.validate (settings : BackgroundJobSettings) : MemcoreResult Unit := do
  requirePositive "MEMCORE_BACKGROUND_JOB_RUNNER_INTERVAL_SECONDS" settings.runnerIntervalSeconds
  requirePositive "MEMCORE_MEMORY_USAGE_SNAPSHOT_JOB_INTERVAL_SECONDS"
    settings.memoryUsageSnapshotIntervalSeconds
  requirePositive "MEMCORE_PROVIDER_USAGE_RETENTION_JOB_INTERVAL_SECONDS"
    settings.providerUsageRetentionIntervalSeconds
  requirePositive "MEMCORE_MEMORY_RETENTION_JOB_INTERVAL_SECONDS"
    settings.memoryRetentionIntervalSeconds
  requirePositive "MEMCORE_BACKGROUND_JOB_LOCK_TTL_SECONDS" settings.lockTtlSeconds

/-- The interval of a job of some kind. -/
def BackgroundJobSettings.interval (settings : BackgroundJobSettings) : BackgroundJobKind → ℕ
  | .memoryUsageSnapshot => settings.memoryUsageSnapshotIntervalSeconds
  | .providerUsageRetention => settings.providerUsageRetentionIntervalSeconds
  | .memoryRetention => settings.memoryRetentionIntervalSeconds

end Memcore
