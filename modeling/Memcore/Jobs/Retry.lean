import Memcore.Jobs.Runner

/-!
# The retry loop of background jobs

The loop that invokes an operation until it returns a run, fails for good or is stopped
by a shutdown. It is the loop inside a run of the runner, told with all its awaits: with
a shutdown token the result of an operation and the end of a delay are each awaited in a
race against the token, and an operation that has lost the race may still finish until a
time limit. The length of a delay is left out, and of a run what the runner leaves out.
-/
namespace Memcore

open Programs

/-- The calls of the loop. The ones that race are made with a token only. -/
inductive RetryCall where
  | utcNow
  | isCancelled
  | operation
  | awaitOperation
  | selectOperation
  | timeoutOperation
  | sleep
  | selectSleep

/-- The answer to a race is absent when the token was first, or when the time was up. The
answer to a delay tells whether the token was first. -/
abbrev RetryCall.Answer : RetryCall → Type
  | utcNow => Instant
  | isCancelled => Bool
  | operation => Unit
  | awaitOperation => MemcoreResult BackgroundJobRun
  | selectOperation => Option (MemcoreResult BackgroundJobRun)
  | timeoutOperation => Option (MemcoreResult BackgroundJobRun)
  | sleep => Unit
  | selectSleep => Bool

abbrev retryPorts : Interface := ⟨RetryCall, RetryCall.Answer⟩

abbrev RetryProgram (α : Type) := Program retryPorts MemcoreError α

abbrev RetryEvent := Event retryPorts MemcoreError

def retryCall (request : RetryCall) : RetryProgram request.Answer :=
  @Program.call retryPorts MemcoreError request

section Loop

variable (kind : BackgroundJobKind) (policy : BackgroundJobRetryPolicy) (shutdownToken : Bool)

/-- Whether the token, if there is one, is cancelled. -/
def isTokenCancelled : RetryProgram Bool :=
  if shutdownToken then retryCall .isCancelled else pure false

/-- The result of the operation; none if it had not finished when the time after a shutdown
was up. -/
def attemptResultOf : RetryProgram (Option (MemcoreResult BackgroundJobRun)) := do
  if shutdownToken then
    match ← retryCall .selectOperation with
    | some result => return some result
    | none => retryCall .timeoutOperation
  else
    let result ← retryCall .awaitOperation
    return some result

/-- The delay before another attempt, and whether a shutdown has ended it. -/
def backoff : RetryProgram Bool := do
  if shutdownToken then retryCall .selectSleep
  else
    retryCall .sleep
    return false

/-- What the loop makes of an attempt: the run that it ends with, or the error after which it
goes on. -/
def settleAttempt (startedAt : Instant) (attemptNumber : ℕ) :
    Option (MemcoreResult BackgroundJobRun) → RetryProgram (BackgroundJobRun ⊕ MemcoreError)
  | none =>
      return .inl (BackgroundJobRunner.cancelledRun kind startedAt attemptNumber
        policy.totalAttempts)
  | some (.ok run) =>
      return .inl { run with
        attemptCount := attemptNumber
        maxAttempts := policy.totalAttempts
        retried := decide (1 < attemptNumber) }
  | some (.error error) => do
      if !policy.enabled || !isRetryableJobError error then
        return .inl (BackgroundJobRunner.failedRun kind startedAt attemptNumber
          policy.totalAttempts error)
      if policy.totalAttempts ≤ attemptNumber then
        return .inl (BackgroundJobRunner.failedRun kind startedAt attemptNumber
          policy.totalAttempts error)
      if ← backoff shutdownToken then
        return .inl (BackgroundJobRunner.cancelledRun kind startedAt attemptNumber
          policy.totalAttempts)
      return .inr error

/-- The body of the loop. -/
def attemptOnce (startedAt : Instant) (attemptsMade : ℕ) :
    RetryProgram (BackgroundJobRun ⊕ MemcoreError) := do
  if ← isTokenCancelled shutdownToken then
    return .inl (BackgroundJobRunner.cancelledRun kind startedAt attemptsMade
      policy.totalAttempts)
  let attemptNumber := attemptsMade + 1
  retryCall .operation
  let result ← attemptResultOf shutdownToken
  settleAttempt kind policy shutdownToken startedAt attemptNumber result

/-- The attempts that are left, after some were made. -/
def attemptLoop (startedAt : Instant) :
    (left attemptsMade : ℕ) → Option MemcoreError → RetryProgram BackgroundJobRun
  | 0, attemptsMade, finalError =>
      return BackgroundJobRunner.failedRun kind startedAt attemptsMade policy.totalAttempts
        (finalError.getD (.internal "background job failed"))
  | left + 1, attemptsMade, _ => do
      match ← attemptOnce kind policy shutdownToken startedAt attemptsMade with
      | .inl run => return run
      | .inr error => attemptLoop startedAt left (attemptsMade + 1) (some error)

def executeBackgroundJobWithRetriesAndShutdown : RetryProgram BackgroundJobRun := do
  let startedAt ← retryCall .utcNow
  attemptLoop kind policy shutdownToken startedAt policy.totalAttempts 0 none

/-- Without a token. -/
def executeBackgroundJobWithRetries : RetryProgram BackgroundJobRun :=
  executeBackgroundJobWithRetriesAndShutdown kind policy false

end Loop

/-! ## The surroundings -/

/-- What happens meanwhile: whether a shutdown is requested, the time, what the operation
returns, and whether a race or a time limit ends without its result. -/
structure RetryChoice where
  requested : Bool
  time : Instant
  result : MemcoreResult BackgroundJobRun
  lost : Bool

/-- The state is whether the token is cancelled, which it stays. A race is lost only to a
cancelled token; a cancelled token does not decide it. -/
def retryServer : Server retryPorts MemcoreError Bool RetryChoice where
  ready choice call cancelled := match call with
    | .selectOperation | .selectSleep => !choice.lost || cancelled || choice.requested
    | _ => true
  serve choice call cancelled :=
    let now := cancelled || choice.requested
    match call with
    | .utcNow => (.ok choice.time, now)
    | .isCancelled => (.ok now, now)
    | .operation => (.ok (), now)
    | .awaitOperation => (.ok choice.result, now)
    | .selectOperation => (.ok (if choice.lost then none else some choice.result), now)
    | .timeoutOperation => (.ok (if choice.lost then none else some choice.result), now)
    | .sleep => (.ok (), now)
    | .selectSleep => (.ok choice.lost, now)

/-- Anything may happen meanwhile. -/
def anyRetryChoice : Bool → RetryCall → RetryChoice → Prop := fun _ _ _ => True

end Memcore
