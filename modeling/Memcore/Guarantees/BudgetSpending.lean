import Memcore.Guarantees.CircuitRecovery

/-!
# The call budget and the calls that are made

A request takes a call from the budget before it asks the circuit. If the circuit refuses, the call
is not made and is not given back. As long as no circuit refuses a request that has taken a call,
every call taken is made: the budget used is what has been started, and what is about to be by
requests that are between the guardrails and the provider. No request waits in between.
-/
namespace Memcore

open Programs

/-- How far a request is: whether it has taken a call from the budget and not made it yet, whether a
circuit has admitted it and the provider has not been called yet, and how many executions it has
started for real providers. -/
structure CallProgress where
  granted : Bool
  admitted : Bool
  started : ℕ
  deriving DecidableEq

def CallProgress.fresh : CallProgress := ⟨false, false, 0⟩

/-- The executions that a request has started and those that it is about to start. -/
def CallProgress.accounted (progress : CallProgress) : ℕ :=
  progress.started + progress.granted.toNat

/-- Neither a call that is not made nor an admission that is not used. -/
structure CallProgress.Clear (progress : CallProgress) : Prop where
  granted : progress.granted = false
  admitted : progress.admitted = false

section Spending

variable {P T : Type}

/-- How far a request is after one more event. The first invocation after an admission starts an
execution, the others belong to one that has started. -/
def callProgressAfter (progress : CallProgress) : RouterEvent P T → CallProgress
  | ⟨.tryConsume, .ok granted⟩ => { progress with granted := (granted : Bool) || progress.granted }
  | ⟨.checkAllow _, .ok (.ok _)⟩ => { progress with admitted := true }
  | ⟨.checkAllow _, .ok (.error _)⟩ => { progress with granted := false }
  | ⟨.invoke candidate, _⟩ =>
      if progress.admitted then
        ⟨false, false, progress.started + if candidate.isReal then 1 else 0⟩
      else progress
  | _ => progress

def callProgress (thread : ℕ) (trace : RouterTrace P T) : CallProgress :=
  track callProgressAfter .fresh thread trace

/-- The requests that have made a call. -/
def threadsOf (trace : RouterTrace P T) : Finset ℕ := (trace.map Prod.fst).toFinset

/-- The executions that were started for real providers. -/
def startedCalls (trace : RouterTrace P T) : ℕ :=
  ∑ thread ∈ threadsOf trace, (callProgress thread trace).started

/-- The requests that have taken a call from the budget and are about to make it. -/
def aboutToCall (trace : RouterTrace P T) : ℕ :=
  ((threadsOf trace).filter fun thread => (callProgress thread trace).granted = true).card

/-- Whether a circuit admits a call: it is closed, or half open with a slot left, perhaps after
having been open for the reset timeout. -/
def circuitAdmits (breaker : CircuitBreakerConfig) (now : Instant) (entry : CircuitEntry) : Bool :=
  !breaker.enabled ||
    match entry.state with
    | .closed => true
    | .halfOpen => decide (entry.halfOpenCalls < breaker.halfOpenMaxCalls)
    | .opened => resetElapsed breaker now entry && decide (0 < breaker.halfOpenMaxCalls)

/-- A request that has taken a call from the budget asks a circuit that admits it. -/
def grantsAdmitted (breaker : CircuitBreakerConfig) :
    RouterWorld → RouterTrace P T → ℕ → RouterCall P → RouterChoice T → Prop :=
  fun world trace thread call choice => match call with
    | .checkAllow key => (callProgress thread trace).granted = true →
        circuitAdmits breaker choice.now (world.circuits key) = true
    | _ => True

theorem checkAllow_of_admits {breaker : CircuitBreakerConfig} {now : Instant}
    {entry : CircuitEntry} (admits : circuitAdmits breaker now entry = true) :
    ∃ state, (checkAllow breaker now entry).1 = .ok state := by
  rcases checkAllow_cases breaker now entry with ⟨_, answer⟩ | ⟨_, _, answer⟩ |
    ⟨enabled, opened, early, _⟩ | ⟨enabled, met, _, turned, ⟨full, _⟩ | ⟨_, answer⟩⟩
  · exact ⟨_, by rw [answer]⟩
  · exact ⟨_, by rw [answer]⟩
  · simp [circuitAdmits, enabled, opened, early] at admits
  · rcases turned with ⟨half, rfl⟩ | ⟨opened, elapsed, rfl⟩
    · simp only [circuitAdmits, enabled, half, Bool.not_true, Bool.false_or,
        decide_eq_true_eq] at admits
      omega
    · simp only [circuitAdmits, enabled, opened, elapsed, Bool.not_true, Bool.false_or,
        Bool.true_and, decide_eq_true_eq] at admits
      simp only at full
      omega
  · exact ⟨_, by rw [answer]⟩

/-- A request takes a call when it has none, and calls a real provider when it has one. -/
def spendingProtocol (P T : Type) : Protocol (routerPorts P T) Dropped CallProgress where
  allows progress call := match call with
    | .tryConsume => progress.granted = false
    | .invoke candidate =>
        progress.admitted = true → progress.granted = true → candidate.isReal = true
    | _ => True
  next progress call answer := callProgressAfter progress ⟨call, answer⟩

/-! ## Each request follows the protocol -/

variable {progress : CallProgress}

theorem succeeds_spending {call : RouterCall P} {good : call.Answer T → CallProgress → Prop}
    (allowed : (spendingProtocol P T).allows progress call)
    (after : ∀ value, good value (callProgressAfter progress ⟨call, .ok value⟩)) :
    Succeeds (spendingProtocol P T).spec (route call) good progress := by
  apply (succeeds_iff _ _ _ _).mpr
  apply (@ensures_call (routerPorts P T) Dropped CallProgress _ progress call _).mpr
  refine ⟨allowed, fun answer => ?_⟩
  cases answer with
  | ok value => exact after value
  | error gone => exact trivial

/-- After an invocation nothing is owed. -/
theorem clear_invoke {candidate : ProviderCandidate P}
    (ready : progress.admitted = true ∨ progress.Clear)
    (answer : Except Dropped (ProviderAnswer T)) :
    (callProgressAfter progress (⟨.invoke candidate, answer⟩ : RouterEvent P T)).Clear := by
  rcases ready with admitted | clear
  · have after : callProgressAfter progress (⟨.invoke candidate, answer⟩ : RouterEvent P T) =
        ⟨false, false, progress.started + if candidate.isReal then 1 else 0⟩ := if_pos admitted
    rw [after]
    exact ⟨rfl, rfl⟩
  · have after : callProgressAfter progress (⟨.invoke candidate, answer⟩ : RouterEvent P T) =
        progress := if_neg (by rw [clear.admitted]; exact Bool.false_ne_true)
    rwa [after]

/-- The attempts at a provider make the call that was taken, if one was. -/
theorem providerAttempts_spends (operationName : String) (policy : ProviderExecutionPolicy)
    (candidate : ProviderCandidate P) (retries attempt : ℕ) (anyTimedOut : Bool)
    (progress : CallProgress) (ready : progress.admitted = true ∨ progress.Clear)
    (real : progress.granted = true → candidate.isReal = true) :
    Succeeds (spendingProtocol P T).spec
      (providerAttempts operationName policy candidate retries attempt anyTimedOut :
        RouterProgram P T _) (fun _ later => later.Clear) progress := by
  induction retries generalizing attempt anyTimedOut progress with
  | zero =>
    unfold providerAttempts
    apply (succeeds_bind _ _ _ _ _).mpr
    apply succeeds_spending
    · exact fun _ => real
    intro answer
    have clear := @clear_invoke P T progress candidate ready (.ok answer)
    cases attemptResult anyTimedOut answer with
    | mk result timedOut =>
      cases result with
      | ok value => exact (succeeds_pure _ _ _ _).mpr clear
      | error error =>
        simp only [ite_self]
        exact (succeeds_pure _ _ _ _).mpr clear
  | succ retries inductionHypothesis =>
    unfold providerAttempts
    apply (succeeds_bind _ _ _ _ _).mpr
    apply succeeds_spending
    · exact fun _ => real
    intro answer
    have clear := @clear_invoke P T progress candidate ready (.ok answer)
    cases attemptResult anyTimedOut answer with
    | mk result timedOut =>
      cases result with
      | ok value => exact (succeeds_pure _ _ _ _).mpr clear
      | error error =>
        by_cases final : isRetryableProviderError error = false
        · simp only [final, if_true]
          exact (succeeds_pure _ _ _ _).mpr clear
        · simp only [final]
          apply (succeeds_bind _ _ _ _ _).mpr
          apply succeeds_spending
          · exact trivial
          intro resumed
          refine inductionHypothesis _ _ _ (.inr clear) fun granted => ?_
          exact absurd (clear.granted.symm.trans granted) Bool.false_ne_true

/-- The guardrails take a call only for a real provider, and only when they let it through. -/
theorem askGuardrails_spends (router : ProviderFallbackRouter) (input : ProviderCallGuardInput)
    (clear : progress.Clear) :
    Succeeds (spendingProtocol P T).spec
      (askGuardrails router input : RouterProgram P T (MemcoreResult Unit))
      (fun decision later => later.admitted = false ∧
        (later.granted = true → input.isRealProvider = true) ∧
        (∀ refusal, decision = .error refusal → later.Clear)) progress := by
  have unchanged : progress.granted = true → input.isRealProvider = true := by
    intro granted
    rw [clear.granted] at granted
    cases granted
  unfold askGuardrails
  cases router.guardrails with
  | none => exact (succeeds_pure _ _ _ _).mpr ⟨clear.admitted, unchanged, fun _ _ => clear⟩
  | some config =>
    simp only
    unfold decideOrError
    cases screened : screenCall config input with
    | some decision =>
      exact (succeeds_pure _ _ _ _).mpr ⟨clear.admitted, unchanged, fun _ _ => clear⟩
    | none =>
      have real := (screenCall_none screened).2.1
      apply (succeeds_bind _ _ _ _ _).mpr
      apply succeeds_spending
      · exact trivial
      intro refusal
      cases refusal with
      | some reason =>
        exact (succeeds_pure _ _ _ _).mpr ⟨clear.admitted, unchanged, fun _ _ => clear⟩
      | none =>
        apply (succeeds_bind _ _ _ _ _).mpr
        apply succeeds_spending
        · exact clear.granted
        intro granted
        cases granted with
        | true =>
          refine (succeeds_pure _ _ _ _).mpr ⟨clear.admitted, fun _ => real, ?_⟩
          intro refusal impossible
          cases impossible
        | false =>
          apply (succeeds_bind _ _ _ _ _).mpr
          apply succeeds_spending
          · exact trivial
          intro used
          have still : (callProgressAfter progress
              (⟨.tryConsume, .ok false⟩ : RouterEvent P T)).Clear := clear
          exact (succeeds_pure _ _ _ _).mpr ⟨clear.admitted, fun _ => real, fun _ _ => still⟩

theorem tryProviders_spends (router : ProviderFallbackRouter) (request : RouterRequest P)
    (source : ProviderCallSource) (candidates : List (ProviderCandidate P))
    (lastError : Option MemcoreError) (clear : progress.Clear) :
    Succeeds (spendingProtocol P T).spec
      (tryProviders router request source candidates lastError : RouterProgram P T _)
      (fun _ later => later.Clear) progress := by
  induction candidates generalizing lastError progress with
  | nil => exact (succeeds_pure _ _ _ _).mpr clear
  | cons candidate rest inductionHypothesis =>
    unfold tryProviders
    apply (askGuardrails_spends router _ clear).bind (spendingProtocol P T).spec_monotone
    rintro decision later ⟨idle, real, refused⟩
    rw [RouterRequest.guardInput_isRealProvider] at real
    cases decision with
    | error refusal => exact (succeeds_pure _ _ _ _).mpr (refused refusal rfl)
    | ok _ =>
      apply (succeeds_bind _ _ _ _ _).mpr
      apply succeeds_spending
      · exact trivial
      intro admitted
      cases admitted with
      | error refusal => exact inductionHypothesis _ ⟨rfl, idle⟩
      | ok state =>
        have attempts := @providerAttempts_spends P T request.operationName router.policy
          candidate router.policy.maxRetries 0 false
          { later with admitted := true } (.inl rfl) real
        apply attempts.bind (spendingProtocol P T).spec_monotone
        intro result after clear
        cases result with
        | ok outcome =>
          apply (succeeds_bind _ _ _ _ _).mpr
          apply succeeds_spending
          · exact trivial
          intro recorded
          exact (succeeds_pure _ _ _ _).mpr clear
        | error failure =>
          by_cases health : isProviderHealthFailure failure.error = true
          · simp only [health, if_true]
            apply (succeeds_bind _ _ _ _ _).mpr
            apply succeeds_spending
            · exact trivial
            intro recorded
            exact inductionHypothesis _ clear
          · simp only [health]
            apply (succeeds_bind _ _ _ _ _).mpr
            apply succeeds_spending
            · exact trivial
            intro left
            exact (succeeds_pure _ _ _ _).mpr clear

theorem executeWithFallback_spends (router : ProviderFallbackRouter)
    (request : RouterRequest P) :
    Succeeds (spendingProtocol P T).spec
      (executeWithFallback router request : RouterProgram P T _)
      (fun _ later => later.Clear) .fresh := by
  have clear : CallProgress.fresh.Clear := ⟨rfl, rfl⟩
  unfold executeWithFallback
  by_cases none : request.candidates.isEmpty = true
  · simp only [none, if_true]
    exact (succeeds_pure _ _ _ _).mpr clear
  · simp only [none]
    by_cases slot : router.callSourceSlot = true
    · simp only [slot, if_true]
      apply (succeeds_bind _ _ _ _ _).mpr
      apply succeeds_spending
      · exact trivial
      intro source
      exact tryProviders_spends router request source _ _ clear
    · simp only [slot]
      exact tryProviders_spends router request _ _ _ clear

/-! ## All requests together -/

/-- What a request owes after an event is what it took, unless a circuit refused it. -/
theorem callProgressAfter_counts {call : RouterCall P} {answer : Except Dropped (call.Answer T)}
    (allowed : (spendingProtocol P T).allows progress call)
    (kept : ∀ key, call = .checkAllow key → progress.granted = true →
      (callProgressAfter progress (⟨call, answer⟩ : RouterEvent P T)).granted = true) :
    progress.accounted + (if isGrant (⟨call, answer⟩ : RouterEvent P T) then 1 else 0) ≤
      (callProgressAfter progress (⟨call, answer⟩ : RouterEvent P T)).accounted := by
  have unchanged (same : callProgressAfter progress (⟨call, answer⟩ : RouterEvent P T) = progress)
      (other : isGrant (⟨call, answer⟩ : RouterEvent P T) = false) :
      progress.accounted + (if isGrant (⟨call, answer⟩ : RouterEvent P T) then 1 else 0) ≤
        (callProgressAfter progress (⟨call, answer⟩ : RouterEvent P T)).accounted := by
    rw [same, other, if_neg Bool.false_ne_true, Nat.add_zero]
  obtain ⟨granted, admitted, started⟩ := progress
  cases call with
  | tryConsume =>
    obtain rfl : granted = false := allowed
    cases answer with
    | error gone => exact unchanged rfl rfl
    | ok consumed =>
      cases consumed with
      | false => exact unchanged rfl rfl
      | true => simp [isGrant, callProgressAfter, CallProgress.accounted]
  | checkAllow key =>
    cases answer with
    | error gone => exact unchanged rfl rfl
    | ok checked =>
      cases checked with
      | ok state => simp [isGrant, callProgressAfter, CallProgress.accounted]
      | error refusal =>
        cases granted with
        | false => exact unchanged rfl rfl
        | true => exact absurd (kept key rfl rfl) Bool.false_ne_true
  | invoke candidate =>
    have real : admitted = true → granted = true → candidate.isReal = true := allowed
    cases admitted with
    | false => exact unchanged rfl rfl
    | true =>
      cases granted with
      | false => simp [isGrant, callProgressAfter, CallProgress.accounted]
      | true => simp [isGrant, callProgressAfter, CallProgress.accounted, real rfl rfl]
  | _ => exact unchanged rfl rfl

/-- The counter of the budget holds the grants, and no request owes more than one call. -/
structure SpendingInvariant (config : ProviderGuardrailConfig) (world : RouterWorld)
    (trace : RouterTrace P T) (stages : ℕ → CallProgress) : Prop where
  tracked : ∀ thread, Memcore.callProgress thread trace = stages thread
  counted : world.guard.usedCalls = tally isGrant trace
  within : world.guard.usedCalls ≤ config.maxCallsPerRun
  owed : ∀ thread, tallyOf thread isGrant trace ≤ (stages thread).accounted

theorem SpendingInvariant.step {breaker : CircuitBreakerConfig} {config : ProviderGuardrailConfig}
    {world : RouterWorld} {trace : RouterTrace P T} {stages : ℕ → CallProgress}
    (invariant : SpendingInvariant config world trace stages) (thread : ℕ)
    (choice : RouterChoice T) (call : RouterCall P)
    (allowed : (spendingProtocol P T).allows (stages thread) call)
    (admitted : grantsAdmitted breaker world trace thread call choice) :
    SpendingInvariant config (RouterWorld.serve breaker config choice call world).2
      ((thread, ⟨call, (RouterWorld.serve breaker config choice call world).1⟩) :: trace)
      (Function.update stages thread ((spendingProtocol P T).next (stages thread)
        call (RouterWorld.serve breaker config choice call world).1)) := by
  obtain ⟨grows, within⟩ := serve_counts breaker config choice call world invariant.within
  refine ⟨fun other => ?_, ?_, within, fun other => ?_⟩
  · by_cases same : thread = other
    · subst same
      rw [Memcore.callProgress, track_own, Function.update_self]
      exact congrArg (callProgressAfter · _) (invariant.tracked thread)
    · rw [Memcore.callProgress, track_other _ _ _ _ same, Function.update_of_ne (Ne.symm same)]
      exact invariant.tracked other
  · rw [grows, tally_cons, invariant.counted]
  · by_cases same : thread = other
    · subst same
      have kept : ∀ key, call = .checkAllow key → (stages thread).granted = true →
          (callProgressAfter (stages thread) (⟨call,
            (RouterWorld.serve breaker config choice call world).1⟩ :
              RouterEvent P T)).granted = true := by
        rintro key rfl granted
        rw [← invariant.tracked thread] at granted
        obtain ⟨state, answer⟩ := checkAllow_of_admits (admitted granted)
        simp only [RouterWorld.serve, answer, callProgressAfter]
        rw [← invariant.tracked thread]
        exact granted
      have event := callProgressAfter_counts allowed kept
      rw [Function.update_self, tallyOf_own]
      exact (Nat.add_le_add_right (invariant.owed thread) _).trans event
    · rw [Function.update_of_ne (Ne.symm same), tallyOf_other _ _ _ _ same]
      exact invariant.owed other

/-- Calls that every request has started or is about to start are started or about to start by all
of them together. -/
theorem SpendingInvariant.spent {config : ProviderGuardrailConfig} {world : RouterWorld}
    {trace : RouterTrace P T} {stages : ℕ → CallProgress}
    (invariant : SpendingInvariant config world trace stages) :
    world.guard.usedCalls ≤ startedCalls trace + aboutToCall trace := by
  have known : ∀ entry ∈ trace, entry.1 ∈ threadsOf trace := by
    intro entry listed
    simpa [threadsOf] using ⟨entry.2, listed⟩
  have each : ∀ thread ∈ threadsOf trace, tallyOf thread isGrant trace ≤
      (Memcore.callProgress thread trace).started +
        if (Memcore.callProgress thread trace).granted = true then 1 else 0 := by
    intro thread _
    have owed := invariant.owed thread
    rw [← invariant.tracked thread, CallProgress.accounted, Bool.toNat] at owed
    cases granted : (Memcore.callProgress thread trace).granted with
    | false =>
      rw [granted] at owed
      exact owed
    | true =>
      rw [granted] at owed
      exact owed
  rw [invariant.counted, tally_eq_sum isGrant trace _ known, startedCalls, aboutToCall,
    Finset.card_filter, ← Finset.sum_add_distrib]
  exact Finset.sum_le_sum each

end Spending

/-- In every interleaving of requests in which no circuit refuses a request that has taken a call
from the budget: the budget used is at most the executions started for real providers and those
that requests past the guardrails are about to start. -/
theorem budget_is_spent_on_calls {P T : Type} (breaker : CircuitBreakerConfig)
    (config : ProviderGuardrailConfig) (router : ProviderFallbackRouter)
    (requests : ℕ → RouterRequest P)
    {pool : Pool (routerPorts P T) Dropped (MemcoreResult T) RouterWorld}
    (reached : Pool.Reaches (routerServer P T breaker config) (grantsAdmitted breaker)
      (requestPool T router requests) pool) :
    pool.world.guard.usedCalls ≤ startedCalls pool.trace + aboutToCall pool.trace ∧
      ((∀ thread, (callProgress thread pool.trace).granted = false) →
        pool.world.guard.usedCalls ≤ startedCalls pool.trace) := by
  have follow : Pool.Follow (fun _ => spendingProtocol P T)
      (fun _ => onSuccess fun _ later => later.Clear) (requestPool T router requests)
      (fun _ => .fresh) := by
    intro thread
    exact (succeeds_iff _ _ _ _).mp (executeWithFallback_spends router (requests thread))
  have initially : SpendingInvariant config (requestPool T router requests).world
      (requestPool T router requests).trace (fun _ => .fresh) :=
    ⟨fun _ => rfl, rfl, Nat.zero_le _, fun _ => Nat.zero_le _⟩
  have keeps : ∀ world (trace : RouterTrace P T) stages thread call choice,
      SpendingInvariant config world trace stages →
      (spendingProtocol P T).allows (stages thread) call →
      (routerServer P T breaker config).ready choice call world = true →
      grantsAdmitted breaker world trace thread call choice →
      SpendingInvariant config ((routerServer P T breaker config).serve choice call world).2
        ((thread, ⟨call, ((routerServer P T breaker config).serve choice call world).1⟩) :: trace)
        (Function.update stages thread ((spendingProtocol P T).next (stages thread) call
          ((routerServer P T breaker config).serve choice call world).1)) := by
    intro world trace stages thread call choice invariant allowed _ admitted
    exact invariant.step thread choice call allowed admitted
  obtain ⟨stages, invariant, _⟩ := reached.invariant keeps follow initially
  refine ⟨invariant.spent, fun waiting => ?_⟩
  have nobody : aboutToCall pool.trace = 0 := by
    rw [aboutToCall, Finset.card_eq_zero, Finset.filter_eq_empty_iff]
    intro thread _ granted
    exact absurd ((waiting thread).symm.trans granted) Bool.false_ne_true
  have spent := invariant.spent
  omega

/-! ## A call that is taken and not made -/

instance {P T : Type} (breaker : CircuitBreakerConfig) : ∀ world (trace : RouterTrace P T) thread
    call choice, Decidable (grantsAdmitted breaker world trace thread call choice)
  | world, trace, thread, .checkAllow key, choice =>
    inferInstanceAs (Decidable ((callProgress thread trace).granted = true →
      circuitAdmits breaker choice.now (world.circuits key) = true))
  | _, _, _, .callSource, _ | _, _, _, .admitProvider _, _ | _, _, _, .tryConsume, _
  | _, _, _, .usedCalls, _ | _, _, _, .invoke _, _ | _, _, _, .pause _, _
  | _, _, _, .recordSuccess _, _ | _, _, _, .recordFailure _, _ | _, _, _, .leave _, _ =>
    .isTrue trivial

/-- A guard for two calls, and a router without retries. -/
def twoCalls : ProviderGuardrailConfig :=
  { realProviderCallsEnabled := true, testMode := .singleReal, maxCallsPerRun := 2 }

def guardedRouter : ProviderFallbackRouter := { policy := ⟨0⟩, guardrails := some twoCalls }

/-- A request that succeeds spends one call, and makes it. -/
theorem budget_is_spent_on_calls_sample :
    ∃ pool, Pool.Reaches (routerServer Unit Unit touchyBreaker twoCalls)
        (grantsAdmitted touchyBreaker) (requestPool Unit guardedRouter fun _ => openaiRequest)
        pool ∧
      decide (pool.world.guard.usedCalls = 1) = true ∧
      pool.world.guard.usedCalls ≤ startedCalls pool.trace + aboutToCall pool.trace := by
  obtain ⟨pool, reached, used⟩ := Pool.exists_reached_of_run
    (routerServer Unit Unit touchyBreaker twoCalls) (grantsAdmitted touchyBreaker)
    [(0, {}), (0, {}), (0, {}), (0, { answer := some (.completed (.ok ())) }), (0, {})]
    (requestPool Unit guardedRouter fun _ => openaiRequest)
    (fun pool => decide (pool.world.guard.usedCalls = 1)) (by decide +kernel)
  exact ⟨pool, reached, used, (budget_is_spent_on_calls touchyBreaker twoCalls guardedRouter
    (fun _ => openaiRequest) reached).1⟩

/-- The first request times out and opens the circuit. The second one is refused by the circuit and
spends a call all the same, so that the third one finds the budget exhausted: all requests are over,
two calls are used and one execution was started. -/
theorem refused_request_spends_budget :
    ∃ pool, Pool.Reaches (routerServer Unit Unit touchyBreaker twoCalls) anyRouterStep
        (requestPool Unit guardedRouter fun _ => openaiRequest) pool ∧
      decide (pool.world.guard.usedCalls = 2 ∧ startedCalls pool.trace = 1 ∧
        aboutToCall pool.trace = 0 ∧ (List.range 3).all fun thread =>
          Pool.hasReturned (pool.threads thread)) = true := by
  apply Pool.exists_reached_of_run (routerServer Unit Unit touchyBreaker twoCalls) anyRouterStep
    [(0, {}), (0, {}), (0, {}), (0, { answer := some .elapsed }), (0, {}),
      (1, {}), (1, {}), (1, {}), (2, {}), (2, {}), (2, {})]
  decide +kernel

end Memcore
