import Memcore.Providers.Router

/-!
# The call budget and the providers called

The guardrails take one call from the budget when a request reaches a candidate, and
the policy then allows several attempts at that candidate. So the budget bounds the
candidates that are let through, and the attempts at real providers are at most that
many times as the policy has attempts for each. The retries are no part of the count:
they are limited for each call, by a setting of their own.

Each request keeps to the attempts that its last grant allows, whatever it is answered,
and the counter of the budget never passes its limit. Both together bound the attempts
of all requests, in any interleaving.
-/
namespace Memcore

open Programs

abbrev RouterEvent (P T : Type) := Event (routerPorts P T) Dropped

abbrev RouterTrace (P T : Type) := History (routerPorts P T) Dropped

section Counting

variable {P T : Type}

/-- A call was taken from the budget. -/
def isGrant : RouterEvent P T → Bool
  | ⟨.tryConsume, .ok granted⟩ => granted
  | _ => false

/-- The operation of a real provider was invoked, however that ended. -/
def isRealInvocation : RouterEvent P T → Bool
  | ⟨.invoke candidate, _⟩ => candidate.isReal
  | _ => false

/-- The attempts at a real provider that a request has left after one more event. -/
def attemptsLeft (attempts left : ℕ) : RouterEvent P T → ℕ
  | ⟨.tryConsume, .ok granted⟩ => if (granted : Bool) then attempts else left
  | ⟨.invoke candidate, _⟩ => if candidate.isReal then left - 1 else left
  | _ => left

/-- A real provider is only invoked with attempts left. -/
def attemptProtocol (P T : Type) (attempts : ℕ) : Protocol (routerPorts P T) Dropped ℕ where
  allows left call := match call with
    | .invoke candidate => candidate.isReal = true → 0 < left
    | _ => True
  next left call answer := attemptsLeft attempts left ⟨call, answer⟩

/-- One event uses up at most what it takes. -/
theorem attemptsLeft_counts {attempts left : ℕ} {call : RouterCall P}
    (allowed : (attemptProtocol P T attempts).allows left call)
    (answer : Except Dropped (call.Answer T)) :
    attemptsLeft attempts left ⟨call, answer⟩ +
        (if isRealInvocation (⟨call, answer⟩ : RouterEvent P T) then 1 else 0) ≤
      left + attempts * if isGrant (⟨call, answer⟩ : RouterEvent P T) then 1 else 0 := by
  cases call with
  | invoke candidate =>
    have some_left : candidate.isReal = true → 0 < left := allowed
    by_cases real : candidate.isReal = true
    · have positive := some_left real
      simp only [attemptsLeft, isRealInvocation, isGrant, real, if_true]
      omega
    · simp [attemptsLeft, isRealInvocation, isGrant, real]
  | tryConsume =>
    cases answer with
    | error gone => simp [attemptsLeft, isRealInvocation, isGrant]
    | ok granted => cases granted <;> simp [attemptsLeft, isRealInvocation, isGrant]
  | _ => simp [attemptsLeft, isRealInvocation, isGrant]

/-! ## Each request keeps to its attempts -/

/-- A part of a request that keeps to the attempts left, whatever it starts with. -/
def Thrifty {α : Type} (attempts : ℕ) (program : RouterProgram P T α) : Prop :=
  ∀ left, Ensures (attemptProtocol P T attempts).spec program (fun _ _ => True) left

variable {α β : Type} {attempts left : ℕ}

theorem Thrifty.pure (value : α) : Thrifty attempts (pure value : RouterProgram P T α) :=
  fun _ => (ensures_pure _ _ _ _).mpr trivial

/-- Every continuation is thrifty, so only the first part has to be looked at. -/
theorem ensures_then {program : RouterProgram P T α} {next : α → RouterProgram P T β}
    (first : Ensures (attemptProtocol P T attempts).spec program (fun _ _ => True) left)
    (second : ∀ value, Thrifty attempts (next value)) :
    Ensures (attemptProtocol P T attempts).spec (program >>= next) (fun _ _ => True) left := by
  apply (ensures_bind _ _ _ _ _).mpr
  apply first.mono (attemptProtocol P T attempts).spec_monotone
  intro outcome later _
  cases outcome with
  | ok value => exact (andThen_ok _ _ _ _ _).mpr (second value later)
  | error error => exact (andThen_error _ _ _ _ _).mpr trivial

theorem Thrifty.bind {program : RouterProgram P T α} {next : α → RouterProgram P T β}
    (first : Thrifty attempts program) (second : ∀ value, Thrifty attempts (next value)) :
    Thrifty attempts (program >>= next) :=
  fun left => ensures_then (first left) second

/-- What a call guarantees about the attempts left after it. -/
theorem ensures_route {call : RouterCall P}
    {post : Except Dropped (call.Answer T) → ℕ → Prop}
    (allowed : (attemptProtocol P T attempts).allows left call)
    (after : ∀ answer, post answer (attemptsLeft attempts left ⟨call, answer⟩)) :
    Ensures (attemptProtocol P T attempts).spec (route call) post left :=
  (@ensures_call (routerPorts P T) Dropped ℕ _ left call post).mpr ⟨allowed, after⟩

/-- Any call but an invocation is always allowed. -/
theorem Thrifty.route {call : RouterCall P} (other : ∀ candidate, call ≠ .invoke candidate) :
    Thrifty attempts (route call : RouterProgram P T _) := by
  intro left
  apply ensures_route _ fun _ => trivial
  cases call with
  | invoke candidate => exact absurd rfl (other candidate)
  | _ => trivial

/-- The attempts at one candidate take one of those left each. -/
theorem providerAttempts_thrifty (operationName : String) (policy : ProviderExecutionPolicy)
    (candidate : ProviderCandidate P) (retries attempt : ℕ) (anyTimedOut : Bool) (left : ℕ)
    (enough : candidate.isReal = true → retries + 1 ≤ left) :
    Ensures (attemptProtocol P T attempts).spec
      (providerAttempts operationName policy candidate retries attempt anyTimedOut :
        RouterProgram P T _) (fun _ _ => True) left := by
  induction retries generalizing attempt anyTimedOut left with
  | zero =>
    unfold providerAttempts
    apply ensures_then
    · apply ensures_route
      · intro real
        have positive := enough real
        omega
      · exact fun _ => trivial
    · intro answer
      cases attemptResult anyTimedOut answer with
      | mk result timedOut =>
        cases result with
        | ok value => exact .pure _
        | error error =>
          intro left
          simp only [ite_self]
          exact Thrifty.pure _ left
  | succ retries inductionHypothesis =>
    unfold providerAttempts
    apply (ensures_bind _ _ _ _ _).mpr
    apply ensures_route
    · intro real
      have positive := enough real
      omega
    · intro answer
      cases answer with
      | error gone => exact (andThen_error _ _ _ _ _).mpr trivial
      | ok answer =>
        apply (andThen_ok _ _ _ _ _).mpr
        cases attemptResult anyTimedOut answer with
        | mk result timedOut =>
          cases result with
          | ok value => exact Thrifty.pure _ _
          | error error =>
            by_cases final : isRetryableProviderError error = false
            · simp only [final, if_true]
              exact Thrifty.pure _ _
            · simp only [final]
              -- A pause takes no attempt, so one less is enough for the rest.
              apply (ensures_bind _ _ _ _ _).mpr
              apply ensures_route
              · exact trivial
              intro resumed
              cases resumed with
              | error gone => exact (andThen_error _ _ _ _ _).mpr trivial
              | ok _ =>
                apply (andThen_ok _ _ _ _ _).mpr
                apply inductionHypothesis
                intro real
                have room := enough real
                simp only [attemptsLeft, real, if_true]
                omega

theorem executeProviderCall_thrifty (operationName : String) (policy : ProviderExecutionPolicy)
    (candidate : ProviderCandidate P) (left : ℕ)
    (enough : candidate.isReal = true → policy.totalAttempts ≤ left) :
    Ensures (attemptProtocol P T attempts).spec
      (executeProviderCall operationName policy candidate : RouterProgram P T _)
      (fun _ _ => True) left :=
  providerAttempts_thrifty operationName policy candidate policy.maxRetries 0 false left enough

/-- With the guardrails on, a real provider that they let through has all its attempts. -/
theorem askGuardrails_grants (router : ProviderFallbackRouter) {config : ProviderGuardrailConfig}
    (guarded : router.guardrails = some config) (enabled : config.enabled = true)
    (input : ProviderCallGuardInput) (left : ℕ) :
    Ensures (attemptProtocol P T attempts).spec
      (askGuardrails router input : RouterProgram P T (MemcoreResult Unit))
      (fun outcome later => outcome = .ok (.ok ()) → input.isRealProvider = true →
        attempts ≤ later) left := by
  unfold askGuardrails
  simp only [guarded]
  unfold decideOrError
  cases screened : screenCall config input with
  | some decision =>
    apply (ensures_pure _ _ _ _).mpr
    intro allowed real
    have passed : decision = .allowed := by
      cases decision with
      | allowed => rfl
      | blocked refusal => simp [ProviderGuardDecision.toResult] at allowed
    have mock := screenCall_allowed enabled (passed ▸ screened)
    rw [mock] at real
    nomatch real
  | none =>
    apply (ensures_bind _ _ _ _ _).mpr
    apply ensures_route
    · exact trivial
    intro admitted
    cases admitted with
    | error gone =>
      apply (andThen_error _ _ _ _ _).mpr
      intro impossible
      nomatch impossible
    | ok refusal =>
      apply (andThen_ok _ _ _ _ _).mpr
      cases refusal with
      | some reason =>
        apply (ensures_pure _ _ _ _).mpr
        intro impossible
        nomatch impossible
      | none =>
        apply (ensures_bind _ _ _ _ _).mpr
        apply ensures_route
        · exact trivial
        intro consumed
        cases consumed with
        | error gone =>
          apply (andThen_error _ _ _ _ _).mpr
          intro impossible
          nomatch impossible
        | ok granted =>
          apply (andThen_ok _ _ _ _ _).mpr
          cases granted with
          | true =>
            apply (ensures_pure _ _ _ _).mpr
            intro _ _
            exact le_refl attempts
          | false =>
            apply (ensures_bind _ _ _ _ _).mpr
            apply ensures_route
            · exact trivial
            intro used
            cases used with
            | error gone =>
              apply (andThen_error _ _ _ _ _).mpr
              intro impossible
              nomatch impossible
            | ok count =>
              apply (andThen_ok _ _ _ _ _).mpr
              apply (ensures_pure _ _ _ _).mpr
              intro impossible
              nomatch impossible

/-- The candidates in order: each real one has all its attempts when it is reached. -/
theorem tryProviders_thrifty (router : ProviderFallbackRouter) {config : ProviderGuardrailConfig}
    (guarded : router.guardrails = some config) (enabled : config.enabled = true)
    (request : RouterRequest P) (source : ProviderCallSource)
    (candidates : List (ProviderCandidate P)) (lastError : Option MemcoreError) :
    Thrifty router.policy.totalAttempts
      (tryProviders router request source candidates lastError : RouterProgram P T _) := by
  induction candidates generalizing lastError with
  | nil => exact .pure _
  | cons candidate rest inductionHypothesis =>
    intro left
    apply (ensures_bind _ _ _ _ _).mpr
    apply (askGuardrails_grants router guarded enabled _ left).mono
      (attemptProtocol P T _).spec_monotone
    intro outcome later granted
    cases outcome with
    | error gone => exact (andThen_error _ _ _ _ _).mpr trivial
    | ok decision =>
      apply (andThen_ok _ _ _ _ _).mpr
      cases decision with
      | error refusal => exact Thrifty.pure _ _
      | ok _ =>
        apply (ensures_bind _ _ _ _ _).mpr
        apply ensures_route
        · exact trivial
        intro checked
        cases checked with
        | error gone => exact (andThen_error _ _ _ _ _).mpr trivial
        | ok admitted =>
          apply (andThen_ok _ _ _ _ _).mpr
          cases admitted with
          | error open_ => exact inductionHypothesis _ _
          | ok state =>
            have enough : candidate.isReal = true → router.policy.totalAttempts ≤ later := by
              intro real
              apply granted rfl
              rwa [RouterRequest.guardInput_isRealProvider]
            have calls := @executeProviderCall_thrifty P T router.policy.totalAttempts
              request.operationName router.policy candidate later enough
            apply ensures_then calls
            · intro result
              cases result with
              | ok outcome => exact (Thrifty.route (by simp)).bind fun _ => .pure _
              | error failure =>
                by_cases health : isProviderHealthFailure failure.error = true
                · simp only [health, if_true]
                  exact (Thrifty.route (by simp)).bind fun _ => inductionHypothesis _
                · simp only [health]
                  exact (Thrifty.route (by simp)).bind fun _ => .pure _

theorem executeWithFallback_thrifty (router : ProviderFallbackRouter)
    {config : ProviderGuardrailConfig} (guarded : router.guardrails = some config)
    (enabled : config.enabled = true) (request : RouterRequest P) :
    Thrifty router.policy.totalAttempts
      (executeWithFallback router request : RouterProgram P T _) := by
  have tries (source : ProviderCallSource) (candidates : List (ProviderCandidate P)) :
      Thrifty router.policy.totalAttempts
        (tryProviders router request source candidates none : RouterProgram P T _) :=
    tryProviders_thrifty router guarded enabled request source candidates none
  unfold executeWithFallback
  by_cases none : request.candidates.isEmpty = true
  · simp only [none, if_true]
    exact .pure _
  · simp only [none]
    by_cases slot : router.callSourceSlot = true
    · simp only [slot, if_true]
      exact (Thrifty.route (by simp)).bind fun source => tries source _
    · simp only [slot]
      exact tries _ _

/-! ## All requests together -/

/-- The counter of the budget holds the grants, and each request has not used up more
attempts than its grants allow. -/
structure BudgetInvariant (config : ProviderGuardrailConfig) (attempts : ℕ)
    (world : RouterWorld) (trace : RouterTrace P T) (left : ℕ → ℕ) : Prop where
  counted : world.guard.usedCalls = tally isGrant trace
  within : world.guard.usedCalls ≤ config.maxCallsPerRun
  thrifty : ∀ thread, left thread + tallyOf thread isRealInvocation trace ≤
    attempts * tallyOf thread isGrant trace

/-- Serving a call changes the counter by what is granted, and never past its limit. -/
theorem serve_counts (breaker : CircuitBreakerConfig) (config : ProviderGuardrailConfig)
    (choice : RouterChoice T) (call : RouterCall P) (world : RouterWorld)
    (within : world.guard.usedCalls ≤ config.maxCallsPerRun) :
    (RouterWorld.serve breaker config choice call world).2.guard.usedCalls =
        world.guard.usedCalls + (if isGrant (⟨call,
          (RouterWorld.serve breaker config choice call world).1⟩ : RouterEvent P T) then 1 else 0) ∧
      (RouterWorld.serve breaker config choice call world).2.guard.usedCalls ≤
        config.maxCallsPerRun := by
  cases call with
  | tryConsume =>
    by_cases room : world.guard.usedCalls < config.maxCallsPerRun
    · have granted := (tryConsume_granted config world.guard.usedCalls _).mpr ⟨room, rfl⟩
      simp only [RouterWorld.serve, granted, isGrant, if_true, true_and]
      omega
    · have spent : config.maxCallsPerRun ≤ world.guard.usedCalls := by omega
      have refused := (tryConsume_refused config world.guard.usedCalls _).mpr ⟨spent, rfl⟩
      simpa [RouterWorld.serve, refused, isGrant] using within
  | invoke candidate =>
    cases answered : choice.answer <;>
      simpa [RouterWorld.serve, answered, isGrant] using within
  | pause retryNumber =>
    by_cases answered : choice.answer.isSome = true <;>
      simpa [RouterWorld.serve, answered, isGrant] using within
  | _ => exact ⟨rfl, within⟩

theorem BudgetInvariant.step {config : ProviderGuardrailConfig} {world : RouterWorld}
    {trace : RouterTrace P T} {remaining : ℕ → ℕ}
    (invariant : BudgetInvariant config attempts world trace remaining)
    (breaker : CircuitBreakerConfig) (thread : ℕ) (choice : RouterChoice T) (call : RouterCall P)
    (allowed : (attemptProtocol P T attempts).allows (remaining thread) call) :
    BudgetInvariant config attempts (RouterWorld.serve breaker config choice call world).2
      ((thread, ⟨call, (RouterWorld.serve breaker config choice call world).1⟩) :: trace)
      (Function.update remaining thread ((attemptProtocol P T attempts).next (remaining thread)
        call (RouterWorld.serve breaker config choice call world).1)) := by
  obtain ⟨grows, within⟩ := serve_counts breaker config choice call world invariant.within
  refine ⟨?_, within, fun other => ?_⟩
  · rw [grows, tally_cons, invariant.counted]
  · by_cases same : thread = other
    · subst same
      have before := invariant.thrifty thread
      have event := attemptsLeft_counts allowed (RouterWorld.serve breaker config choice call world).1
      rw [Function.update_self, tallyOf_own, tallyOf_own, Nat.mul_add]
      simp only [attemptProtocol]
      omega
    · rw [Function.update_of_ne (Ne.symm same), tallyOf_other _ _ _ _ same,
        tallyOf_other _ _ _ _ same]
      exact invariant.thrifty other

end Counting

/-- Any step at all. -/
def anyRouterStep {P T : Type} :
    RouterWorld → RouterTrace P T → ℕ → RouterCall P → RouterChoice T → Prop :=
  fun _ _ _ _ _ => True

instance {P T : Type} : ∀ world (trace : RouterTrace P T) thread call choice,
    Decidable (anyRouterStep world trace thread call choice) :=
  fun _ _ _ _ _ => inferInstanceAs (Decidable True)

/-- A guard for one call, and a router with one retry for each call. -/
def oneCall : ProviderGuardrailConfig :=
  { realProviderCallsEnabled := true, testMode := .singleReal, maxCallsPerRun := 1 }

def oneRetry : ProviderFallbackRouter := { policy := ⟨1⟩, guardrails := some oneCall }

/-- A request to one real provider. -/
def openaiRequest : RouterRequest Unit where
  capability := .llm
  operationName := "llm_extract_facts"
  fallbackEnabled := false
  candidates := [⟨⟨"openai", .llm⟩, (), none⟩]

end Memcore
