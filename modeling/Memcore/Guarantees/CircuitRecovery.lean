import Memcore.Guarantees.CallBudget

/-!
# A circuit admits calls again

A call that the half-open circuit admits takes a slot, and the slots are given back
when an outcome is recorded. The router records nothing when the provider fails with
an error that says nothing about its health, nor when the caller drops the request.
A slot that is lost so is never given back: the circuit stays half open, with all
slots taken, and refuses every call.

As long as every call that holds a slot of a half-open circuit ends with a record, a
slot that is taken is held by a request in flight. So with no request in flight, and
the reset timeout over, every circuit admits the next call.
-/
namespace Memcore

open Programs

/-- Where a request is: not at a provider, or admitted to one through the circuit of a
key, with a slot of the half-open circuit or without. -/
inductive Passage where
  | idle
  | inside (key : String) (slot : Bool)
  deriving DecidableEq

section Passages

variable {P T : Type}

/-- Where a request is after one more event. -/
def passageAfter (passage : Passage) : RouterEvent P T → Passage
  | ⟨.checkAllow key, .ok (.ok state)⟩ => .inside key (decide (state = CircuitState.halfOpen))
  | ⟨.invoke _, .error _⟩ | ⟨.pause _, .error _⟩ => .idle
  | ⟨.recordSuccess _, _⟩ | ⟨.recordFailure _, _⟩ | ⟨.leave _, _⟩ => .idle
  | _ => passage

/-- Where a request is. It is in flight when it is not idle. -/
def passage (thread : ℕ) (trace : RouterTrace P T) : Passage :=
  track passageAfter .idle thread trace

/-- Whether a call ends without a record: it is left, or dropped while it waits. -/
def endsUnrecorded (call : RouterCall P) (choice : RouterChoice T) : Bool :=
  match call with
  | .leave _ => true
  | .invoke _ | .pause _ => choice.answer.isNone
  | _ => false

/-- A call that ends without a record holds no slot of a half-open circuit. -/
def slotsReturned :
    RouterWorld → RouterTrace P T → ℕ → RouterCall P → RouterChoice T → Prop :=
  fun world trace thread call choice => endsUnrecorded call choice = true →
    ∀ key, passage thread trace = .inside key true → (world.circuits key).state ≠ .halfOpen

/-- A request is admitted to a provider when it is at none, and ends the call that it
is in. -/
def passageProtocol (P T : Type) : Protocol (routerPorts P T) Dropped Passage where
  allows passage call := match call with
    | .checkAllow _ => passage = .idle
    | .recordSuccess key | .recordFailure key | .leave key => ∃ slot, passage = .inside key slot
    | _ => True
  next passage call answer := passageAfter passage ⟨call, answer⟩

/-! ## Each request follows the protocol -/

variable {place : Passage} {key : String} {slot : Bool}

theorem succeeds_route {call : RouterCall P} {good : call.Answer T → Passage → Prop}
    (allowed : (passageProtocol P T).allows place call)
    (after : ∀ value, good value (passageAfter place ⟨call, .ok value⟩)) :
    Succeeds (passageProtocol P T).spec (route call) good place := by
  apply (succeeds_iff _ _ _ _).mpr
  apply (@ensures_call (routerPorts P T) Dropped Passage _ place call _).mpr
  refine ⟨allowed, fun answer => ?_⟩
  cases answer with
  | ok value => exact after value
  | error gone => exact trivial

/-- The attempts stay inside. -/
theorem providerAttempts_inside (operationName : String) (policy : ProviderExecutionPolicy)
    (candidate : ProviderCandidate P) (retries attempt : ℕ) (anyTimedOut : Bool) :
    Succeeds (passageProtocol P T).spec
      (providerAttempts operationName policy candidate retries attempt anyTimedOut :
        RouterProgram P T _) (fun _ later => later = .inside key slot) (.inside key slot) := by
  induction retries generalizing attempt anyTimedOut with
  | zero =>
    unfold providerAttempts
    apply (succeeds_bind _ _ _ _ _).mpr
    apply succeeds_route
    · exact trivial
    intro answer
    cases attemptResult anyTimedOut answer with
    | mk result timedOut =>
      cases result with
      | ok value => exact (succeeds_pure _ _ _ _).mpr rfl
      | error error =>
        simp only [ite_self]
        exact (succeeds_pure _ _ _ _).mpr rfl
  | succ retries inductionHypothesis =>
    unfold providerAttempts
    apply (succeeds_bind _ _ _ _ _).mpr
    apply succeeds_route
    · exact trivial
    intro answer
    cases attemptResult anyTimedOut answer with
    | mk result timedOut =>
      cases result with
      | ok value => exact (succeeds_pure _ _ _ _).mpr rfl
      | error error =>
        by_cases final : isRetryableProviderError error = false
        · simp only [final, if_true]
          exact (succeeds_pure _ _ _ _).mpr rfl
        · simp only [final]
          apply (succeeds_bind _ _ _ _ _).mpr
          apply succeeds_route
          · exact trivial
          intro resumed
          exact inductionHypothesis _ _

/-- What the guardrails are asked leaves a request where it is. -/
theorem askGuardrails_idle (router : ProviderFallbackRouter) (input : ProviderCallGuardInput) :
    Succeeds (passageProtocol P T).spec
      (askGuardrails router input : RouterProgram P T (MemcoreResult Unit))
      (fun _ later => later = .idle) .idle := by
  unfold askGuardrails
  cases router.guardrails with
  | none => exact (succeeds_pure _ _ _ _).mpr rfl
  | some config =>
    simp only
    unfold decideOrError
    cases screenCall config input with
    | some decision => exact (succeeds_pure _ _ _ _).mpr rfl
    | none =>
      apply (succeeds_bind _ _ _ _ _).mpr
      apply succeeds_route
      · exact trivial
      intro refusal
      cases refusal with
      | some reason => exact (succeeds_pure _ _ _ _).mpr rfl
      | none =>
        apply (succeeds_bind _ _ _ _ _).mpr
        apply succeeds_route
        · exact trivial
        intro granted
        cases granted with
        | true => exact (succeeds_pure _ _ _ _).mpr rfl
        | false =>
          apply (succeeds_bind _ _ _ _ _).mpr
          apply succeeds_route
          · exact trivial
          intro used
          exact (succeeds_pure _ _ _ _).mpr rfl

theorem tryProviders_follows (router : ProviderFallbackRouter) (request : RouterRequest P)
    (source : ProviderCallSource) (candidates : List (ProviderCandidate P))
    (lastError : Option MemcoreError) :
    Succeeds (passageProtocol P T).spec
      (tryProviders router request source candidates lastError : RouterProgram P T _)
      (fun _ later => later = .idle) .idle := by
  induction candidates generalizing lastError with
  | nil => exact (succeeds_pure _ _ _ _).mpr rfl
  | cons candidate rest inductionHypothesis =>
    unfold tryProviders
    apply (askGuardrails_idle router _).bind (passageProtocol P T).spec_monotone
    rintro decision later rfl
    cases decision with
    | error refusal => exact (succeeds_pure _ _ _ _).mpr rfl
    | ok _ =>
      apply (succeeds_bind _ _ _ _ _).mpr
      apply succeeds_route
      · exact rfl
      intro admitted
      cases admitted with
      | error refusal => exact inductionHypothesis _
      | ok state =>
        have attempts := @providerAttempts_inside P T (request.key candidate)
          (decide (state = CircuitState.halfOpen)) request.operationName router.policy candidate
          router.policy.maxRetries 0 false
        apply attempts.bind (passageProtocol P T).spec_monotone
        rintro result later rfl
        cases result with
        | ok outcome =>
          apply (succeeds_bind _ _ _ _ _).mpr
          apply succeeds_route
          · exact ⟨_, rfl⟩
          intro recorded
          exact (succeeds_pure _ _ _ _).mpr rfl
        | error failure =>
          by_cases health : isProviderHealthFailure failure.error = true
          · simp only [health, if_true]
            apply (succeeds_bind _ _ _ _ _).mpr
            apply succeeds_route
            · exact ⟨_, rfl⟩
            intro recorded
            exact inductionHypothesis _
          · simp only [health]
            apply (succeeds_bind _ _ _ _ _).mpr
            apply succeeds_route
            · exact ⟨_, rfl⟩
            intro left
            exact (succeeds_pure _ _ _ _).mpr rfl

theorem executeWithFallback_follows (router : ProviderFallbackRouter)
    (request : RouterRequest P) :
    Succeeds (passageProtocol P T).spec
      (executeWithFallback router request : RouterProgram P T _)
      (fun _ later => later = .idle) .idle := by
  unfold executeWithFallback
  by_cases none : request.candidates.isEmpty = true
  · simp only [none, if_true]
    exact (succeeds_pure _ _ _ _).mpr rfl
  · simp only [none]
    by_cases slot : router.callSourceSlot = true
    · simp only [slot, if_true]
      apply (succeeds_bind _ _ _ _ _).mpr
      apply succeeds_route
      · exact trivial
      intro source
      exact tryProviders_follows router request source _ _
    · simp only [slot]
      exact tryProviders_follows router request _ _ _

/-! ## Slots that are taken are held -/

/-- An open circuit knows when it opened, and a slot that is taken is held by a request
in flight. -/
structure Recoverable (world : RouterWorld) (trace : RouterTrace P T) (places : ℕ → Passage) :
    Prop where
  tracked : ∀ thread, passage thread trace = places thread
  dated : ∀ key, (world.circuits key).state = .opened →
    (world.circuits key).openedAt.isSome = true
  held : ∀ key, (world.circuits key).state = .halfOpen → 0 < (world.circuits key).halfOpenCalls →
    ∃ thread, places thread = .inside key true

variable {world later : RouterWorld} {trace : RouterTrace P T} {places : ℕ → Passage}
  {thread : ℕ} {event : RouterEvent P T}

/-- One request moves. Each slot taken afterwards is its own, or was taken before and
not by this request. -/
theorem Recoverable.move (recoverable : Recoverable world trace places)
    (dated : ∀ key, (later.circuits key).state = .opened →
      (later.circuits key).openedAt.isSome = true)
    (held : ∀ key, (later.circuits key).state = .halfOpen →
      0 < (later.circuits key).halfOpenCalls →
        passageAfter (places thread) event = .inside key true ∨
          later.circuits key = world.circuits key ∧ places thread ≠ .inside key true) :
    Recoverable later ((thread, event) :: trace)
      (Function.update places thread (passageAfter (places thread) event)) := by
  refine ⟨fun other => ?_, dated, fun key half taken => ?_⟩
  · by_cases same : thread = other
    · subst same
      rw [passage, track_own, Function.update_self]
      exact congrArg (passageAfter · event) (recoverable.tracked thread)
    · rw [passage, track_other _ _ _ _ same, Function.update_of_ne (Ne.symm same)]
      exact recoverable.tracked other
  · rcases held key half taken with own | ⟨unchanged, others⟩
    · exact ⟨thread, by rw [Function.update_self, own]⟩
    · rw [unchanged] at half taken
      obtain ⟨holder, holds⟩ := recoverable.held key half taken
      have different : holder ≠ thread := by
        rintro rfl
        exact others holds
      exact ⟨holder, by rw [Function.update_of_ne different, holds]⟩

/-- A step that changes no circuit, and after which the request is where it was or is
out of a circuit that is not half open. -/
theorem Recoverable.pass (recoverable : Recoverable world trace places)
    (same : later.circuits = world.circuits)
    (stays : passageAfter (places thread) event = places thread ∨
      ∀ key, places thread = .inside key true → (world.circuits key).state ≠ .halfOpen) :
    Recoverable later ((thread, event) :: trace)
      (Function.update places thread (passageAfter (places thread) event)) := by
  apply recoverable.move
  · rw [same]
    exact recoverable.dated
  · intro key half _
    rw [same] at half
    by_cases own : places thread = .inside key true
    · rcases stays with stays | returned
      · exact .inl (stays.trans own)
      · exact absurd half (returned key own)
    · exact .inr ⟨congrFun same key, own⟩

/-- One circuit changes, to an entry all of whose slots are free or the request's own. -/
theorem Recoverable.setCircuit (recoverable : Recoverable world trace places) (key : String)
    (entry : CircuitEntry) (dated : entry.state = .opened → entry.openedAt.isSome = true)
    (held : entry.state = .halfOpen → 0 < entry.halfOpenCalls →
      passageAfter (places thread) event = .inside key true ∨
        entry = world.circuits key ∧ places thread ≠ .inside key true)
    (apart : ∀ other, other ≠ key → places thread ≠ .inside other true) :
    Recoverable (world.setCircuit key entry) ((thread, event) :: trace)
      (Function.update places thread (passageAfter (places thread) event)) := by
  apply recoverable.move
  · intro other
    by_cases same : other = key
    · subst same
      simpa only [RouterWorld.setCircuit, Function.update_self] using dated
    · simpa only [RouterWorld.setCircuit, Function.update_of_ne same] using recoverable.dated other
  · intro other
    by_cases same : other = key
    · subst same
      simpa only [RouterWorld.setCircuit, Function.update_self] using held
    · simp only [RouterWorld.setCircuit, Function.update_of_ne same]
      exact fun _ _ => .inr ⟨trivial, apart other same⟩

/-- A check of the circuit. -/
theorem Recoverable.checkAllow (recoverable : Recoverable world trace places)
    (breaker : CircuitBreakerConfig) (now : Instant) (idle : places thread = .idle)
    (key : String) :
    Recoverable (world.setCircuit key (checkAllow breaker now (world.circuits key)).2)
      ((thread, ⟨.checkAllow key, .ok (checkAllow breaker now (world.circuits key)).1⟩) :: trace)
      (Function.update places thread (passageAfter (places thread)
        (⟨.checkAllow key, .ok (checkAllow breaker now (world.circuits key)).1⟩ :
          RouterEvent P T))) := by
  have apart : ∀ other, places thread ≠ .inside other true := by simp [idle]
  have dated := recoverable.dated key
  apply recoverable.setCircuit key _ _ _ fun other _ => apart other
  · rcases checkAllow_cases breaker now (world.circuits key) with ⟨_, same⟩ | ⟨_, _, same⟩ |
      ⟨_, _, _, same⟩ | ⟨_, met, half, _, ⟨_, same⟩ | ⟨_, same⟩⟩
    · rwa [same]
    · rwa [same]
    · rwa [same]
    · simp [same, half]
    · simp [same, half]
  · rcases checkAllow_cases breaker now (world.circuits key) with ⟨_, same⟩ | ⟨_, _, same⟩ |
      ⟨_, _, _, same⟩ | ⟨_, met, half, turned, ⟨_, same⟩ | ⟨_, same⟩⟩
    · exact fun _ _ => .inr ⟨by rw [same], apart key⟩
    · exact fun _ _ => .inr ⟨by rw [same], apart key⟩
    · exact fun _ _ => .inr ⟨by rw [same], apart key⟩
    · rw [same]
      intro _ taken
      rcases turned with ⟨_, unchanged⟩ | ⟨_, _, rfl⟩
      · exact .inr ⟨unchanged, apart key⟩
      · exact absurd taken (Nat.lt_irrefl 0)
    · rw [same]
      exact fun _ _ => .inl (by simp [passageAfter])

/-- A record that leaves the circuit closed or open. -/
theorem Recoverable.record (recoverable : Recoverable world trace places) {key : String}
    {slot : Bool} (inside : places thread = .inside key slot) (entry : CircuitEntry)
    (dated : entry.state = .opened → entry.openedAt.isSome = true)
    (decided : entry.state ≠ .halfOpen) :
    Recoverable (world.setCircuit key entry) ((thread, event) :: trace)
      (Function.update places thread (passageAfter (places thread) event)) := by
  apply recoverable.setCircuit key entry dated
  · exact fun half => absurd half decided
  · intro other different same
    rw [inside] at same
    injection same with sameKey
    exact different sameKey.symm

theorem Recoverable.step (recoverable : Recoverable world trace places)
    (breaker : CircuitBreakerConfig) (enabled : breaker.enabled = true)
    (guardrails : ProviderGuardrailConfig) (choice : RouterChoice T) (call : RouterCall P)
    (allowed : (passageProtocol P T).allows (places thread) call)
    (returned : slotsReturned world trace thread call choice) :
    Recoverable (RouterWorld.serve breaker guardrails choice call world).2
      ((thread, ⟨call, (RouterWorld.serve breaker guardrails choice call world).1⟩) :: trace)
      (Function.update places thread ((passageProtocol P T).next (places thread) call
        (RouterWorld.serve breaker guardrails choice call world).1)) := by
  have ends (past : endsUnrecorded call choice = true) (key : String)
      (inside : places thread = .inside key true) : (world.circuits key).state ≠ .halfOpen :=
    returned past key ((recoverable.tracked thread).trans inside)
  cases call with
  | checkAllow key => exact recoverable.checkAllow breaker choice.now allowed key
  | recordSuccess key =>
    obtain ⟨slot, inside⟩ := allowed
    have closed := @recordSuccess_enabled breaker (world.circuits key) enabled
    apply recoverable.record inside
    · simp [closed, CircuitEntry.new]
    · simp [closed, CircuitEntry.new]
  | recordFailure key =>
    obtain ⟨slot, inside⟩ := allowed
    apply recoverable.record inside
    · rcases recordFailure_cases breaker choice.now (world.circuits key) with ⟨disabled, _⟩ |
        ⟨_, _, same⟩ | ⟨_, closed, same⟩ | ⟨_, _, count, same⟩
      · rw [enabled] at disabled
        nomatch disabled
      · rw [same]
        exact recoverable.dated key
      · simp [same, closed]
      · simp [same]
    · rcases recordFailure_cases breaker choice.now (world.circuits key) with ⟨disabled, _⟩ |
        ⟨_, opened, same⟩ | ⟨_, closed, same⟩ | ⟨_, _, count, same⟩
      · rw [enabled] at disabled
        nomatch disabled
      · simp [same, opened]
      · simp [same, closed]
      · simp [same]
  | leave key => exact recoverable.pass rfl (.inr (ends rfl))
  | invoke candidate =>
    cases answered : choice.answer with
    | none =>
      simp only [RouterWorld.serve, answered]
      exact recoverable.pass rfl (.inr (ends (by simp [endsUnrecorded, answered])))
    | some answer =>
      simp only [RouterWorld.serve, answered]
      exact recoverable.pass rfl (.inl rfl)
  | pause retryNumber =>
    by_cases answered : choice.answer.isSome = true
    · simp only [RouterWorld.serve, answered, if_true]
      exact recoverable.pass rfl (.inl rfl)
    · simp only [RouterWorld.serve, answered]
      exact recoverable.pass rfl (.inr (ends (by simpa [endsUnrecorded] using answered)))
  | callSource => exact recoverable.pass rfl (.inl rfl)
  | admitProvider input => exact recoverable.pass rfl (.inl rfl)
  | tryConsume => exact recoverable.pass rfl (.inl rfl)
  | usedCalls => exact recoverable.pass rfl (.inl rfl)

/-- With no request in flight and the time over, the circuit admits. -/
theorem Recoverable.admits (recoverable : Recoverable world trace places)
    (idle : ∀ thread, passage thread trace = .idle) {breaker : CircuitBreakerConfig}
    (positive : 0 < breaker.halfOpenMaxCalls) (key : String) (now : Instant)
    (elapsed : ∀ openedAt, (world.circuits key).openedAt = some openedAt →
      openedAt + breaker.resetTimeout ≤ now) :
    (Memcore.checkAllow breaker now (world.circuits key)).1.isOk = true := by
  have free (half : (world.circuits key).state = .halfOpen) :
      (world.circuits key).halfOpenCalls = 0 := by
    by_contra taken
    obtain ⟨thread, inside⟩ := recoverable.held key half (Nat.pos_of_ne_zero taken)
    rw [← recoverable.tracked thread, idle thread] at inside
    nomatch inside
  rcases checkAllow_cases breaker now (world.circuits key) with ⟨_, same⟩ | ⟨_, _, same⟩ |
    ⟨_, opened, early, _⟩ | ⟨_, met, _, turned, ⟨full, _⟩ | ⟨_, same⟩⟩
  · rw [same]
    rfl
  · rw [same]
    rfl
  · -- The time is over, so the circuit would have turned half open.
    obtain ⟨openedAt, since⟩ := Option.isSome_iff_exists.mp (recoverable.dated key opened)
    have past := elapsed openedAt since
    have forward : openedAt ≤ now := by
      unfold Instant at *
      omega
    rw [(resetElapsed_iff since forward).mpr past] at early
    nomatch early
  · have none : met.halfOpenCalls = 0 := by
      rcases turned with ⟨half, rfl⟩ | ⟨_, _, rfl⟩
      · exact free half
      · rfl
    omega
  · rw [same]
    rfl

end Passages

/-- A breaker that one failure opens. -/
def touchyBreaker : CircuitBreakerConfig := { failureThreshold := 1 }

def patientRouter : ProviderFallbackRouter := { policy := ⟨0⟩ }

end Memcore
