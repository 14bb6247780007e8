import Memcore.Foundations.Interleaving
import Memcore.Providers.CircuitBreaker
import Memcore.Providers.Guardrails

/-!
# Fallback router

A request to the providers goes through the candidates in order. For each of them the
guardrails are asked first and the circuit breaker second; then the provider is called,
again and again as the policy allows, and the outcome is recorded with the breaker if
it says something about the health of the provider. Many requests share one guard and
one breaker, so a request is a program over the atomic operations of both.

A caller may drop a request while it waits for a provider or for the next attempt, and
nothing of the request runs after that. Metrics, usage records, logging, the length of
the waits and the calendar time of a timeout are left out: none of them decides what
the router does next.
-/
namespace Memcore

open Programs

/-! ## Errors of providers -/

def providerTimeoutMessage : String := "provider operation timed out"

def MemcoreError.providerTimeout : MemcoreError := .timeout providerTimeoutMessage

def MemcoreError.isProviderTimeout (error : MemcoreError) : Bool :=
  decide (error = .providerTimeout)

def MemcoreError.isProviderCircuitOpen (error : MemcoreError) : Bool :=
  decide (error = .providerCircuitOpen)

def containsHttpStatus (message code : String) : Bool :=
  Texts.contains message ("(" ++ code ++ ")") || Texts.contains message ("status " ++ code)

/-- Whether the text of a provider's error speaks of a passing trouble. The texts that
speak against it come first. -/
def isRetryableProviderMessage (message : String) : Bool :=
  let lower := Texts.toAsciiLowercase message
  if ["unauthorized", "forbidden", "invalid api key", "api key is unauthorized"].any
      (Texts.contains lower) then false
  else if ["invalid json", "malformed", "dimension mismatch", "validation",
      "unsupported model"].any (Texts.contains lower) then false
  else if ["400", "401", "403", "422"].any (containsHttpStatus message) then false
  else if ["timed out", "http request failed", "temporarily unavailable",
      "service unavailable"].any (Texts.contains lower) then true
  else ["429", "500", "502", "503", "504"].any (containsHttpStatus message)

/-- The errors after which another attempt is made. -/
def isRetryableProviderError : MemcoreError → Bool
  | .rateLimited => true
  | .timeout _ => true
  | .providerError message => isRetryableProviderMessage message
  | _ => false

/-- The errors that count against the health of a provider. -/
def isProviderHealthFailure (error : MemcoreError) : Bool :=
  if error.isProviderCircuitOpen then false else isRetryableProviderError error

/-! ## The calls of a request -/

inductive ProviderCapability where
  | llm | embedding | summarization
  deriving DecidableEq

def ProviderCapability.toText : ProviderCapability → String
  | llm => "llm"
  | embedding => "embedding"
  | summarization => "summarization"

structure ProviderId where
  name : String
  capability : ProviderCapability

/-- The key of the circuit of a provider and an operation. -/
def circuitKey (providerId : ProviderId) (operationName : String) : String :=
  providerId.capability.toText ++ ":" ++ providerId.name ++ ":" ++ operationName

structure ProviderCandidate (P : Type) where
  providerId : ProviderId
  provider : P
  modelName : Option String

/-- Whether the guardrails take the provider of a candidate for a real one. -/
def ProviderCandidate.isReal {P : Type} (candidate : ProviderCandidate P) : Bool :=
  isRealProviderName candidate.providerId.name

/-- How the call of a provider ends in its time limit. -/
inductive ProviderAnswer (T : Type) where
  | completed (result : MemcoreResult T)
  | elapsed

/-- The atomic operations of a request. The last one does nothing: it marks the end of
a provider call of which the breaker is told nothing. -/
inductive RouterCall (P : Type) where
  | callSource
  | admitProvider (input : ProviderCallGuardInput)
  | tryConsume
  | usedCalls
  | checkAllow (key : String)
  | invoke (candidate : ProviderCandidate P)
  | pause (retryNumber : ℕ)
  | recordSuccess (key : String)
  | recordFailure (key : String)
  | leave (key : String)

abbrev RouterCall.Answer {P : Type} (T : Type) : RouterCall P → Type
  | callSource => ProviderCallSource
  | admitProvider _ => Option GuardRefusal
  | tryConsume => Bool
  | usedCalls => ℕ
  | checkAllow _ => MemcoreResult CircuitState
  | invoke _ => ProviderAnswer T
  | pause _ => Unit
  | recordSuccess _ => Unit
  | recordFailure _ => Unit
  | leave _ => Unit

abbrev routerPorts (P T : Type) : Interface := ⟨RouterCall P, RouterCall.Answer T⟩

/-- The only failure of a request as a program: its caller has dropped it. -/
inductive Dropped where
  | dropped
  deriving DecidableEq

/-- A part of a request. The errors that it returns are values. -/
abbrev RouterProgram (P T α : Type) := Program (routerPorts P T) Dropped α

section Requests

variable {P T : Type}

/-- Make one call of a request. -/
def route (request : RouterCall P) : RouterProgram P T (request.Answer T) :=
  @Program.call (routerPorts P T) Dropped request

/-- Ask the guardrails. The two parts that touch the shared state are calls. -/
def decideOrError (config : ProviderGuardrailConfig) (input : ProviderCallGuardInput) :
    RouterProgram P T (MemcoreResult Unit) :=
  match screenCall config input with
  | some decision => return decision.toResult
  | none => do
      match ← route (.admitProvider input) with
      | some refusal => return .error refusal.toError
      | none =>
          if ← route .tryConsume then return .ok ()
          else
            let used ← route .usedCalls
            return .error (callBudgetExhausted config used).toError

/-- The calls that are made to ask the guardrails. -/
def RouterCall.OfGuard : RouterCall P → Prop
  | .admitProvider _ => True
  | .tryConsume => True
  | .usedCalls => True
  | _ => False

theorem decideOrError_guards (config : ProviderGuardrailConfig) (input : ProviderCallGuardInput) :
    (decideOrError config input : RouterProgram P T _).Within RouterCall.OfGuard := by
  unfold decideOrError
  split
  · exact .pure _
  · apply Program.Within.bind (@Program.Within.call (routerPorts P T) Dropped _ _ trivial)
    intro refusal
    cases refusal with
    | some refusal => exact .pure _
    | none =>
      apply Program.Within.bind (@Program.Within.call (routerPorts P T) Dropped _ _ trivial)
      intro granted
      split
      · exact .pure _
      · exact .bind (@Program.Within.call (routerPorts P T) Dropped _ _ trivial) fun _ => .pure _

/-! ## Attempts at one provider -/

/-- How often a failed call is tried again. -/
structure ProviderExecutionPolicy where
  maxRetries : ℕ := 2

def ProviderExecutionPolicy.totalAttempts (policy : ProviderExecutionPolicy) : ℕ :=
  policy.maxRetries + 1

structure ProviderExecutionOutcome (T : Type) where
  value : T
  attempts : ℕ
  retries : ℕ
  timedOut : Bool

structure ProviderExecutionFailure where
  error : MemcoreError
  attempts : ℕ
  retries : ℕ
  timedOut : Bool

/-- The failure that is reported after the last attempt. Only a repeatable error other
than a timeout gets a new text, and may become another kind of error by it. -/
def executionFailure (operationName : String) (policy : ProviderExecutionPolicy)
    (error : MemcoreError) (attempts : ℕ) (anyTimedOut : Bool) : ProviderExecutionFailure :=
  if error.isProviderTimeout then ⟨error, attempts, attempts - 1, true⟩
  else if isRetryableProviderError error = false then
    ⟨error, attempts, attempts - 1, anyTimedOut⟩
  else
    ⟨.providerError (operationName ++ " failed after " ++ toString policy.totalAttempts ++
      " attempts: " ++ error.message), attempts, attempts - 1, anyTimedOut⟩

variable (operationName : String) (policy : ProviderExecutionPolicy)
  (candidate : ProviderCandidate P)

/-- The result of an attempt, and whether any attempt so far has timed out. -/
def attemptResult (anyTimedOut : Bool) : ProviderAnswer T → MemcoreResult T × Bool
  | .completed result => (result, anyTimedOut)
  | .elapsed => (.error .providerTimeout, true)

/-- The attempts from a given one on, with the number of retries that are left. -/
def providerAttempts (left attempt : ℕ) (anyTimedOut : Bool) :
    RouterProgram P T (Except ProviderExecutionFailure (ProviderExecutionOutcome T)) := do
  let answer ← route (.invoke candidate)
  match attemptResult anyTimedOut answer with
  | (.ok value, timedOut) => return .ok ⟨value, attempt + 1, attempt, timedOut⟩
  | (.error error, timedOut) =>
      let failure := executionFailure operationName policy error (attempt + 1) timedOut
      if isRetryableProviderError error = false then return .error failure
      else match left with
        | 0 => return .error failure
        | left + 1 => do
            route (.pause (attempt + 1))
            providerAttempts left (attempt + 1) timedOut

/-- Call one provider under the policy. -/
def executeProviderCall :
    RouterProgram P T (Except ProviderExecutionFailure (ProviderExecutionOutcome T)) :=
  providerAttempts operationName policy candidate policy.maxRetries 0 false

/-- The calls that are made to try one candidate. -/
def RouterCall.OfAttempt (candidate : ProviderCandidate P) : RouterCall P → Prop
  | .invoke invoked => invoked = candidate
  | .pause _ => True
  | _ => False

theorem providerAttempts_attempts (left attempt : ℕ) (anyTimedOut : Bool) :
    (providerAttempts operationName policy candidate left attempt anyTimedOut :
      RouterProgram P T _).Within (RouterCall.OfAttempt candidate) := by
  have invoked : (route (.invoke candidate) : RouterProgram P T _).Within
      (RouterCall.OfAttempt candidate) :=
    @Program.Within.call (routerPorts P T) Dropped _ (.invoke candidate) rfl
  induction left generalizing attempt anyTimedOut with
  | zero =>
    unfold providerAttempts
    refine invoked.bind fun answer => ?_
    split
    · exact .pure _
    · dsimp only
      split
      · exact .pure _
      · exact .pure _
  | succ left inductionHypothesis =>
    unfold providerAttempts
    refine invoked.bind fun answer => ?_
    split
    · exact .pure _
    · dsimp only
      split
      · exact .pure _
      · exact .bind (@Program.Within.call (routerPorts P T) Dropped _ (.pause _) trivial)
          fun _ => inductionHypothesis _ _

theorem executeProviderCall_attempts :
    (executeProviderCall operationName policy candidate : RouterProgram P T _).Within
      (RouterCall.OfAttempt candidate) :=
  providerAttempts_attempts operationName policy candidate policy.maxRetries 0 false

end Requests

/-! ## The candidates in order -/

/-- What a router is set up with. Its breaker and the state of its guard are shared, see
`RouterWorld`. -/
structure ProviderFallbackRouter where
  policy : ProviderExecutionPolicy := {}
  guardrails : Option ProviderGuardrailConfig := none
  callSourceSlot : Bool := false

/-- One use of a router. -/
structure RouterRequest (P : Type) where
  capability : ProviderCapability
  operationName : String
  fallbackEnabled : Bool
  candidates : List (ProviderCandidate P)
  inputCharCount : ℕ := 0
  requestedOutputTokens : Option ℕ := none

section Requests

variable {P T : Type} (router : ProviderFallbackRouter) (request : RouterRequest P)

/-- The key of the circuit that a candidate uses in a request. -/
def RouterRequest.key (candidate : ProviderCandidate P) : String :=
  circuitKey ⟨candidate.providerId.name, request.capability⟩ request.operationName

def RouterRequest.guardInput (source : ProviderCallSource) (candidate : ProviderCandidate P) :
    ProviderCallGuardInput where
  providerName := candidate.providerId.name
  modelName := candidate.modelName.getD ""
  operation := request.operationName
  source := source
  inputCharCount := request.inputCharCount
  requestedOutputTokens := request.requestedOutputTokens
  isRealProvider := candidate.isReal

@[simp] theorem RouterRequest.guardInput_isRealProvider (source : ProviderCallSource)
    (candidate : ProviderCandidate P) :
    (request.guardInput source candidate).isRealProvider = candidate.isReal := by
  simp only [guardInput]

def askGuardrails (input : ProviderCallGuardInput) : RouterProgram P T (MemcoreResult Unit) :=
  match router.guardrails with
  | some config => decideOrError config input
  | none => return .ok ()

/-- The error of a request whose candidates are all used up. -/
def exhaustedError : Option MemcoreError → MemcoreError
  | some error =>
      if error.isProviderCircuitOpen then error
      else if isProviderHealthFailure error = false then error
      else .providerError (request.operationName ++ " failed for all configured providers: " ++
        error.message)
  | none => .providerError (request.operationName ++ " failed: all provider circuits are open")

/-- Try the candidates in order. The source leaves the loop early at the last candidate,
or when fallback is off, and then there is one candidate only. -/
def tryProviders (source : ProviderCallSource) :
    List (ProviderCandidate P) → Option MemcoreError → RouterProgram P T (MemcoreResult T)
  | [], lastError => return .error (exhaustedError request lastError)
  | candidate :: rest, _ => do
      match ← askGuardrails router (request.guardInput source candidate) with
      | .error error => return .error error
      | .ok () =>
      match ← route (.checkAllow (request.key candidate)) with
      | .error error => tryProviders source rest (some error)
      | .ok _ =>
      match ← executeProviderCall request.operationName router.policy candidate with
      | .ok outcome =>
          route (.recordSuccess (request.key candidate))
          return .ok outcome.value
      | .error failure =>
          if isProviderHealthFailure failure.error then do
            route (.recordFailure (request.key candidate))
            tryProviders source rest (some failure.error)
          else
            route (.leave (request.key candidate))
            return .error failure.error

def executeWithFallback : RouterProgram P T (MemcoreResult T) :=
  if request.candidates.isEmpty then
    return .error (.internal "no provider candidates configured")
  else do
    let providersToTry :=
      if request.fallbackEnabled then request.candidates else request.candidates.take 1
    if router.callSourceSlot then
      let source ← route .callSource
      tryProviders router request source providersToTry none
    else tryProviders router request .apiRequest providersToTry none

end Requests

/-! ## The world of the requests -/

/-- The circuits, each under its key, and the state of the guard. -/
structure RouterWorld where
  circuits : String → CircuitEntry
  guard : GuardrailState

def RouterWorld.fresh : RouterWorld := ⟨fun _ => .new, .fresh⟩

/-- What the surroundings contribute to a call: the time, the source, and how a wait
ends. Without an answer the caller drops the request. -/
structure RouterChoice (T : Type) where
  now : Instant := 0
  source : ProviderCallSource := .apiRequest
  answer : Option (ProviderAnswer T) := none

namespace RouterWorld

variable {P T : Type}

def setCircuit (world : RouterWorld) (key : String) (entry : CircuitEntry) : RouterWorld :=
  { world with circuits := Function.update world.circuits key entry }

/-- The answer to a call and the world after it. -/
def serve (breaker : CircuitBreakerConfig) (guardrails : ProviderGuardrailConfig)
    (choice : RouterChoice T) :
    (call : RouterCall P) → RouterWorld → Except Dropped (call.Answer T) × RouterWorld
  | .callSource, world => (.ok choice.source, world)
  | .admitProvider input, world =>
      let admitted := admitProvider guardrails input world.guard.usedRealProviders
      (.ok admitted.1, { world with guard := { world.guard with usedRealProviders := admitted.2 } })
  | .tryConsume, world =>
      let consumed := tryConsume guardrails world.guard.usedCalls
      (.ok consumed.1, { world with guard := { world.guard with usedCalls := consumed.2 } })
  | .usedCalls, world => (.ok world.guard.usedCalls, world)
  | .checkAllow key, world =>
      let checked := checkAllow breaker choice.now (world.circuits key)
      (.ok checked.1, world.setCircuit key checked.2)
  | .invoke _, world =>
      match choice.answer with
      | some answer => (.ok answer, world)
      | none => (.error .dropped, world)
  | .pause _, world =>
      if choice.answer.isSome then (.ok (), world) else (.error .dropped, world)
  | .recordSuccess key, world =>
      (.ok (), world.setCircuit key (recordSuccess breaker (world.circuits key)))
  | .recordFailure key, world =>
      (.ok (), world.setCircuit key (recordFailure breaker choice.now (world.circuits key)))
  | .leave _, world => (.ok (), world)

end RouterWorld

/-- The world as a server of requests. -/
def routerServer (P T : Type) (breaker : CircuitBreakerConfig)
    (guardrails : ProviderGuardrailConfig) :
    Server (routerPorts P T) Dropped RouterWorld (RouterChoice T) :=
  ⟨fun _ _ _ => true, fun choice call world =>
    RouterWorld.serve breaker guardrails choice call world⟩

/-- Requests by number, on one router. -/
def requestPool {P : Type} (T : Type) (router : ProviderFallbackRouter)
    (requests : ℕ → RouterRequest P) :
    Pool (routerPorts P T) Dropped (MemcoreResult T) RouterWorld :=
  .start .fresh fun thread => executeWithFallback router (requests thread)

/-! ## Alone, the two parts make up one check -/

/-- A request that asks the guardrails with no other in between is answered by
`checkProviderCall`, and leaves the guard as that function does. -/
theorem decideOrError_alone {P T : Type} (breaker : CircuitBreakerConfig)
    (config : ProviderGuardrailConfig) (input : ProviderCallGuardInput) (world : RouterWorld) :
    Ensures ((routerServer P T breaker config).spec fun _ _ _ => True)
      (decideOrError config input : RouterProgram P T (MemcoreResult Unit))
      (fun outcome later => outcome = .ok (checkProviderCall config input world.guard).1.toResult ∧
        later = { world with guard := (checkProviderCall config input world.guard).2 }) world := by
  unfold decideOrError checkProviderCall
  cases screenCall config input with
  | some decision => exact (ensures_pure _ _ _ _).mpr ⟨rfl, rfl⟩
  | none =>
    apply (ensures_bind _ _ _ _ _).mpr
    apply (@ensures_call (routerPorts P T) _ _ _ _ (.admitProvider input) _).mpr
    intro choice _ _
    show andThen _ _ _ (.ok (admitProvider config input world.guard.usedRealProviders).1)
      { world with guard := { world.guard with
          usedRealProviders := (admitProvider config input world.guard.usedRealProviders).2 } }
    apply (andThen_ok _ _ _ _ _).mpr
    cases admitted : admitProvider config input world.guard.usedRealProviders with
    | mk refusal names =>
      cases refusal with
      | some blocked => exact (ensures_pure _ _ _ _).mpr ⟨rfl, rfl⟩
      | none =>
        apply (ensures_bind _ _ _ _ _).mpr
        apply (@ensures_call (routerPorts P T) _ _ _ _ .tryConsume _).mpr
        intro choice _ _
        apply (andThen_ok _ _ _ _ _).mpr
        show Ensures _ (if (tryConsume config world.guard.usedCalls).1 = true then _ else _) _
          { world with guard := ⟨(tryConsume config world.guard.usedCalls).2, names⟩ }
        cases consumed : tryConsume config world.guard.usedCalls with
        | mk granted used =>
          cases granted with
          | true => exact (ensures_pure _ _ _ _).mpr ⟨rfl, rfl⟩
          | false =>
            apply (ensures_bind _ _ _ _ _).mpr
            apply (@ensures_call (routerPorts P T) _ _ _ _ .usedCalls _).mpr
            intro choice _ _
            exact (ensures_pure _ _ _ _).mpr ⟨rfl, rfl⟩

end Memcore
