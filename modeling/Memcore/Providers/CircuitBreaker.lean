import Memcore.Domain.Values

/-!
# Circuit breaker

One entry for each provider and operation counts failures. At a threshold it opens,
and calls are refused. After a time it turns half open and admits a few calls, whose
outcomes close it or open it again. A call that the half-open circuit admits takes a
slot; the slots are given back together, when an outcome is recorded.

Each operation holds the lock of the map from beginning to end, so it is a function
of the entry. An absent entry is a new one. Counters are unbounded here.
-/
namespace Memcore

/-- The reset timeout is in nanoseconds. -/
structure CircuitBreakerConfig where
  enabled : Bool := true
  failureThreshold : ℕ := 5
  resetTimeout : ℕ := 60000000000
  halfOpenMaxCalls : ℕ := 1

/-- The check made when a configuration is read. -/
def validateCircuitBreakerConfig (failureThreshold resetTimeoutSeconds halfOpenMaxCalls : ℕ) :
    MemcoreResult Unit :=
  if failureThreshold = 0 then
    .error (.validationError ("MEMCORE_PROVIDER_CIRCUIT_BREAKER_FAILURE_THRESHOLD must be " ++
      "greater than 0"))
  else if resetTimeoutSeconds = 0 then
    .error (.validationError ("MEMCORE_PROVIDER_CIRCUIT_BREAKER_RESET_TIMEOUT_SECONDS must be " ++
      "greater than 0"))
  else if halfOpenMaxCalls = 0 then
    .error (.validationError ("MEMCORE_PROVIDER_CIRCUIT_BREAKER_HALF_OPEN_MAX_CALLS must be " ++
      "greater than 0"))
  else .ok ()

def CircuitBreakerConfig.fromConfig (enabled : Bool)
    (failureThreshold resetTimeoutSeconds halfOpenMaxCalls : ℕ) :
    MemcoreResult CircuitBreakerConfig := do
  validateCircuitBreakerConfig failureThreshold resetTimeoutSeconds halfOpenMaxCalls
  return ⟨enabled, failureThreshold, resetTimeoutSeconds * 1000000000, halfOpenMaxCalls⟩

inductive CircuitState where
  | closed | opened | halfOpen
  deriving DecidableEq

structure CircuitEntry where
  state : CircuitState
  failureCount : ℕ
  openedAt : Option Instant
  halfOpenCalls : ℕ
  deriving DecidableEq

def CircuitEntry.new : CircuitEntry := ⟨.closed, 0, none, 0⟩

def providerCircuitOpenMessage : String := "provider circuit is open"

def MemcoreError.providerCircuitOpen : MemcoreError := .providerError providerCircuitOpenMessage

variable (config : CircuitBreakerConfig) (now : Instant) (entry : CircuitEntry)

/-- Whether the time has passed since the circuit opened. A clock that went backwards
counts as if it had. -/
def resetElapsed : Bool :=
  match entry.openedAt with
  | none => false
  | some openedAt =>
      let elapsed := now - openedAt
      decide (config.resetTimeout ≤ if elapsed < 0 then (config.resetTimeout : ℤ) else elapsed)

def maybeTransitionOpenToHalfOpen : CircuitEntry :=
  if entry.state = .opened ∧ resetElapsed config now entry = true then
    { entry with state := .halfOpen, halfOpenCalls := 0 }
  else entry

/-- Admit or refuse a call. -/
def checkAllow : MemcoreResult CircuitState × CircuitEntry :=
  if config.enabled = false then (.ok .closed, entry)
  else
    let entry := maybeTransitionOpenToHalfOpen config now entry
    match entry.state with
    | .closed => (.ok .closed, entry)
    | .halfOpen =>
        if entry.halfOpenCalls ≥ config.halfOpenMaxCalls then (.error .providerCircuitOpen, entry)
        else (.ok .halfOpen, { entry with halfOpenCalls := entry.halfOpenCalls + 1 })
    | .opened => (.error .providerCircuitOpen, entry)

def recordSuccess : CircuitEntry :=
  if config.enabled = false then entry else .new

def recordFailure : CircuitEntry :=
  if config.enabled = false then entry
  else match entry.state with
    | .closed =>
        let failureCount := entry.failureCount + 1
        if failureCount ≥ config.failureThreshold then ⟨.opened, failureCount, some now, 0⟩
        else { entry with failureCount := failureCount }
    | .halfOpen => { entry with state := .opened, openedAt := some now, halfOpenCalls := 0 }
    | .opened => entry

/-! ## What each operation can do -/

variable {config now entry}

theorem fromConfig_halfOpen {enabled : Bool} {threshold reset calls : ℕ}
    (read : CircuitBreakerConfig.fromConfig enabled threshold reset calls = .ok config) :
    0 < config.halfOpenMaxCalls := by
  unfold CircuitBreakerConfig.fromConfig validateCircuitBreakerConfig at read
  by_cases none : calls = 0
  · simp only [none, if_true] at read
    repeat' split at read
    all_goals simp [bind, Except.bind] at read
  · repeat' split at read
    all_goals simp only [bind, Except.bind, pure, Except.pure, reduceCtorEq, Except.ok.injEq] at read
    subst read
    show 0 < calls
    omega

/-- On a clock that has not gone backwards, the time since the opening decides. -/
theorem resetElapsed_iff {openedAt : Instant} (since : entry.openedAt = some openedAt)
    (monotone : openedAt ≤ now) :
    resetElapsed config now entry = true ↔ openedAt + config.resetTimeout ≤ now := by
  unfold Instant at openedAt now monotone ⊢
  have forward : ¬ now - openedAt < 0 := by omega
  simp only [resetElapsed, since, forward, if_false, decide_eq_true_eq]
  omega

/-- All that a check can do: nothing with the breaker switched off; admit through a
closed circuit; refuse at an open circuit before its time; or meet a half-open one,
perhaps after turning it, and take a slot if there is one. -/
theorem checkAllow_cases (config : CircuitBreakerConfig) (now : Instant) (entry : CircuitEntry) :
    (config.enabled = false ∧ checkAllow config now entry = (.ok .closed, entry)) ∨
    (config.enabled = true ∧ entry.state = .closed ∧
      checkAllow config now entry = (.ok .closed, entry)) ∨
    (config.enabled = true ∧ entry.state = .opened ∧ resetElapsed config now entry = false ∧
      checkAllow config now entry = (.error .providerCircuitOpen, entry)) ∨
    (config.enabled = true ∧ ∃ met, met.state = .halfOpen ∧
      (entry.state = .halfOpen ∧ met = entry ∨
        entry.state = .opened ∧ resetElapsed config now entry = true ∧
          met = { entry with state := .halfOpen, halfOpenCalls := 0 }) ∧
      (config.halfOpenMaxCalls ≤ met.halfOpenCalls ∧
          checkAllow config now entry = (.error .providerCircuitOpen, met) ∨
        met.halfOpenCalls < config.halfOpenMaxCalls ∧ checkAllow config now entry =
          (.ok .halfOpen, { met with halfOpenCalls := met.halfOpenCalls + 1 }))) := by
  by_cases disabled : config.enabled = false
  · refine .inl ⟨disabled, ?_⟩
    simp only [checkAllow, disabled, if_true]
  have enabled : config.enabled = true := by simpa using disabled
  have slots (met : CircuitEntry) (half : met.state = .halfOpen)
      (turned : maybeTransitionOpenToHalfOpen config now entry = met) :
      config.halfOpenMaxCalls ≤ met.halfOpenCalls ∧
          checkAllow config now entry = (.error .providerCircuitOpen, met) ∨
        met.halfOpenCalls < config.halfOpenMaxCalls ∧ checkAllow config now entry =
          (.ok .halfOpen, { met with halfOpenCalls := met.halfOpenCalls + 1 }) := by
    by_cases full : met.halfOpenCalls ≥ config.halfOpenMaxCalls
    · refine .inl ⟨full, ?_⟩
      simp only [checkAllow, enabled, Bool.true_eq_false, if_false, turned, half, full, if_true]
    · refine .inr ⟨by omega, ?_⟩
      simp only [checkAllow, enabled, Bool.true_eq_false, if_false, turned, half, full]
  cases state : entry.state with
  | closed =>
    have same : maybeTransitionOpenToHalfOpen config now entry = entry := by
      simp [maybeTransitionOpenToHalfOpen, state]
    refine .inr (.inl ⟨enabled, rfl, ?_⟩)
    simp only [checkAllow, enabled, Bool.true_eq_false, if_false, same, state]
  | halfOpen =>
    have same : maybeTransitionOpenToHalfOpen config now entry = entry := by
      simp [maybeTransitionOpenToHalfOpen, state]
    exact .inr (.inr (.inr ⟨enabled, entry, state, .inl ⟨rfl, rfl⟩, slots entry state same⟩))
  | opened =>
    by_cases elapsed : resetElapsed config now entry = true
    · have turned : maybeTransitionOpenToHalfOpen config now entry =
          { entry with state := .halfOpen, halfOpenCalls := 0 } := by
        simp [maybeTransitionOpenToHalfOpen, state, elapsed]
      exact .inr (.inr (.inr ⟨enabled, _, rfl, .inr ⟨rfl, elapsed, rfl⟩, slots _ rfl turned⟩))
    · have same : maybeTransitionOpenToHalfOpen config now entry = entry := by
        simp [maybeTransitionOpenToHalfOpen, elapsed]
      refine .inr (.inr (.inl ⟨enabled, rfl, by simpa using elapsed, ?_⟩))
      simp only [checkAllow, enabled, Bool.true_eq_false, if_false, same, state]

theorem recordSuccess_enabled (enabled : config.enabled = true) :
    recordSuccess config entry = .new := by
  simp only [recordSuccess, enabled, Bool.true_eq_false, if_false]

/-- All that a recorded failure can do: nothing with the breaker switched off or the
circuit open already; count; or open the circuit. -/
theorem recordFailure_cases (config : CircuitBreakerConfig) (now : Instant)
    (entry : CircuitEntry) :
    (config.enabled = false ∧ recordFailure config now entry = entry) ∨
    (config.enabled = true ∧ entry.state = .opened ∧ recordFailure config now entry = entry) ∨
    (config.enabled = true ∧ entry.state = .closed ∧
      recordFailure config now entry = { entry with failureCount := entry.failureCount + 1 }) ∨
    (config.enabled = true ∧ entry.state ≠ .opened ∧ ∃ failureCount,
      recordFailure config now entry = ⟨.opened, failureCount, some now, 0⟩) := by
  by_cases disabled : config.enabled = false
  · refine .inl ⟨disabled, ?_⟩
    simp only [recordFailure, disabled, if_true]
  have enabled : config.enabled = true := by simpa using disabled
  cases state : entry.state with
  | opened =>
    refine .inr (.inl ⟨enabled, rfl, ?_⟩)
    simp only [recordFailure, enabled, Bool.true_eq_false, if_false, state]
  | closed =>
    by_cases many : entry.failureCount + 1 ≥ config.failureThreshold
    · refine .inr (.inr (.inr ⟨enabled, by simp, entry.failureCount + 1, ?_⟩))
      simp only [recordFailure, enabled, Bool.true_eq_false, if_false, state, many, if_true]
    · refine .inr (.inr (.inl ⟨enabled, rfl, ?_⟩))
      simp only [recordFailure, enabled, Bool.true_eq_false, if_false, state, many]
  | halfOpen =>
    refine .inr (.inr (.inr ⟨enabled, by simp, entry.failureCount, ?_⟩))
    simp only [recordFailure, enabled, Bool.true_eq_false, if_false, state]

end Memcore
