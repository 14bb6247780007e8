import Memcore.Domain.Facts
import Mathlib.Data.Finset.Card

/-!
# Provider guardrails

Before a provider is called, the guardrails may block the call for the mode, the
source, the size of the request, the identity of the provider or the number of
calls made so far. Two pieces of state are shared by all calls: the names of the
real providers and the number of calls taken from the budget. The checks that read
neither come first, so that a check falls into three parts, of which only the last
two touch the state, each under a lock or in one compare-and-swap of its own.

The state starts anew with the process. Poisoned locks are out of scope.
-/
namespace Memcore

inductive ProviderTestMode where
  | mockOnly | singleReal | multiReal | production
  deriving DecidableEq

inductive ProviderCallSource where
  | apiRequest | smokeTest | loadTest | backgroundJob | adminValidation
  deriving DecidableEq

/-- The confirmation that the multi-provider mode asks for, word for word. -/
def multiProviderValidationConfirmation : String :=
  "I_UNDERSTAND_THIS_WILL_USE_PROVIDER_CREDITS"

/-- The largest number of retries that a configuration may ask for. -/
def maxSafeProviderRetries : ℕ := 3

/-- The timeout is in nanoseconds. -/
structure ProviderGuardrailConfig where
  enabled : Bool := true
  realProviderCallsEnabled : Bool := false
  testMode : ProviderTestMode := .mockOnly
  maxCallsPerRun : ℕ := 10
  maxInputChars : ℕ := 4000
  maxOutputTokens : ℕ := 300
  maxRetriesPerCall : ℕ := 1
  timeout : ℕ := 20000000000
  allowRealProvidersDuringLoadTests : Bool := false
  backgroundJobsAllowRealProviders : Bool := false
  multiProviderValidationEnabled : Bool := false
  multiProviderValidationConfirmation : Option String := none

structure ProviderCallGuardInput where
  providerName : String
  modelName : String
  operation : String
  source : ProviderCallSource
  inputCharCount : ℕ
  requestedOutputTokens : Option ℕ
  isRealProvider : Bool

/-- Why a call is blocked. -/
structure GuardRefusal where
  code : String
  message : String
  deriving DecidableEq

inductive ProviderGuardDecision where
  | allowed
  | blocked (refusal : GuardRefusal)
  deriving DecidableEq

/-- The names that stand for a provider without a bill: none at all, the mocks, and
the placeholder for the first candidate. -/
def isRealProviderName (name : String) : Bool :=
  let normalized := Texts.toAsciiLowercase (Texts.trim name)
  !(normalized == "" || normalized == "mock" || normalized == "primary" ||
    Texts.startsWith normalized "mock-")

namespace ProviderGuardrailConfig

variable (config : ProviderGuardrailConfig)

/-- Whether the confirmation was given, up to surrounding whitespace. -/
def confirmationGiven : Bool :=
  config.multiProviderValidationConfirmation.map Texts.trim ==
    some Memcore.multiProviderValidationConfirmation

def multiProviderConfirmed : Bool :=
  config.multiProviderValidationEnabled && config.confirmationGiven

/-- The check made before a guard is built. -/
def validate : MemcoreResult Unit :=
  if config.maxCallsPerRun = 0 then
    .error (.validationError "MEMCORE_PROVIDER_MAX_CALLS_PER_RUN must be greater than 0")
  else if config.maxInputChars = 0 then
    .error (.validationError "MEMCORE_PROVIDER_MAX_INPUT_CHARS must be greater than 0")
  else if config.maxOutputTokens = 0 then
    .error (.validationError "MEMCORE_PROVIDER_MAX_OUTPUT_TOKENS must be greater than 0")
  else if config.maxRetriesPerCall > maxSafeProviderRetries then
    .error (.validationError ("MEMCORE_PROVIDER_MAX_RETRIES_PER_CALL cannot exceed " ++
      toString maxSafeProviderRetries))
  else if config.timeout = 0 then
    .error (.validationError
      "MEMCORE_PROVIDER_TIMEOUT_SECONDS (guardrail) must be greater than 0")
  else if config.testMode = .multiReal ∧ config.multiProviderValidationEnabled = false then
    .error (.validationError ("MEMCORE_MULTI_PROVIDER_VALIDATION_ENABLED must be true when " ++
      "MEMCORE_PROVIDER_TEST_MODE=multi_real"))
  else if config.testMode = .multiReal ∧ config.confirmationGiven = false then
    .error (.validationError ("MEMCORE_MULTI_PROVIDER_VALIDATION_CONFIRMATION must be exactly " ++
      "I_UNDERSTAND_THIS_WILL_USE_PROVIDER_CREDITS for multi_real mode"))
  else .ok ()

/-- A validated configuration leaves room for at least one call. -/
theorem maxCalls_pos (valid : config.validate = .ok ()) : 0 < config.maxCallsPerRun := by
  unfold validate at valid
  by_cases none : config.maxCallsPerRun = 0
  · rw [if_pos none] at valid
    nomatch valid
  · omega

end ProviderGuardrailConfig

/-! ## The three parts of a check -/

/-- What all calls share: the calls taken from the budget, and the lowercased names
of the real providers that calls have named. -/
structure GuardrailState where
  usedCalls : ℕ
  usedRealProviders : Finset String
  deriving DecidableEq

/-- The state of a new guard. -/
def GuardrailState.fresh : GuardrailState := ⟨0, ∅⟩

/-- The key under which a provider is remembered. -/
def ProviderCallGuardInput.providerKey (input : ProviderCallGuardInput) : String :=
  Texts.toAsciiLowercase input.providerName

section Parts

variable (config : ProviderGuardrailConfig) (input : ProviderCallGuardInput)

def outputTokensExceeded : GuardRefusal :=
  ⟨"output_tokens_exceeded", "requested output tokens exceed guardrail max (" ++
    toString config.maxOutputTokens ++ ")"⟩

/-- The checks that read no shared state. The result is absent when none decides. -/
def screenCall : Option ProviderGuardDecision :=
  if config.enabled = false then some .allowed
  else if input.isRealProvider = false then some .allowed
  else if config.realProviderCallsEnabled = false then
    some (.blocked ⟨"real_provider_calls_disabled", "real provider calls are disabled " ++
      "(set MEMCORE_REAL_PROVIDER_CALLS_ENABLED=true to allow)"⟩)
  else if config.testMode = .mockOnly then
    some (.blocked ⟨"mock_only_mode",
      "provider test mode is mock_only; real providers are not allowed"⟩)
  else if input.source = .loadTest ∧ config.allowRealProvidersDuringLoadTests = false then
    some (.blocked ⟨"load_test_real_provider_blocked",
      "real providers are blocked for load-test source; use mock providers"⟩)
  else if input.source = .backgroundJob ∧ config.backgroundJobsAllowRealProviders = false then
    some (.blocked ⟨"background_job_real_provider_blocked",
      "real providers are blocked for background jobs unless explicitly allowed"⟩)
  else if input.inputCharCount > config.maxInputChars then
    some (.blocked ⟨"input_chars_exceeded", "provider input exceeds max characters (" ++
      toString config.maxInputChars ++ ")"⟩)
  else match input.requestedOutputTokens with
    | some tokens =>
        -- In production the callers clamp the request, see `resolveOutputTokens`.
        if tokens > config.maxOutputTokens ∧ config.testMode ≠ .production then
          some (.blocked (outputTokensExceeded config))
        else none
    | none => none

/-- The section under the lock of the names: a refusal, if any, and the names after
it. The last comparison is the source's second defence and adds to the first ones. -/
def admitProvider (used : Finset String) : Option GuardRefusal × Finset String :=
  let defended (names : Finset String) : Option GuardRefusal × Finset String :=
    if config.testMode ≠ .production ∧ config.multiProviderValidationEnabled = false ∧
        names.card > 1 then
      (some ⟨"multi_provider_validation_disabled",
        "multiple real providers require MEMCORE_MULTI_PROVIDER_VALIDATION_ENABLED"⟩, names)
    else (none, names)
  match config.testMode with
  | .singleReal =>
      if used = ∅ then defended (insert input.providerKey used)
      else if input.providerKey ∈ used then defended used
      else (some ⟨"single_real_provider_locked", "single_real mode allows only one real " ++
        "provider per process; enable multi_real with confirmation to test more"⟩, used)
  | .multiReal =>
      if config.multiProviderConfirmed = false then
        (some ⟨"multi_provider_confirmation_required",
          "multi_real mode requires multi-provider validation confirmation"⟩, used)
      else defended (insert input.providerKey used)
  | .production => defended (insert input.providerKey used)
  | .mockOnly => (none, used)

/-- Reserve one call. The loop around the compare-and-swap ends with one exchange, or
with a count that has reached the limit and never falls below it again. -/
def tryConsume (used : ℕ) : Bool × ℕ :=
  if used ≥ config.maxCallsPerRun then (false, used) else (true, used + 1)

def callBudgetExhausted (used : ℕ) : GuardRefusal :=
  ⟨"call_budget_exhausted", "provider call budget exhausted (" ++ toString used ++ "/" ++
    toString config.maxCallsPerRun ++ ")"⟩

/-- One check of a call, with no other check in between its parts. -/
def checkProviderCall (state : GuardrailState) : ProviderGuardDecision × GuardrailState :=
  match screenCall config input with
  | some decision => (decision, state)
  | none =>
      match admitProvider config input state.usedRealProviders with
      | (some refusal, names) => (.blocked refusal, { state with usedRealProviders := names })
      | (none, names) =>
          match tryConsume config state.usedCalls with
          | (true, used) => (.allowed, ⟨used, names⟩)
          | (false, used) => (.blocked (callBudgetExhausted config used), ⟨used, names⟩)

/-- A refusal as the error that the callers see. -/
def GuardRefusal.toError (refusal : GuardRefusal) : MemcoreError :=
  .providerGuardrailViolation refusal.code refusal.message

def ProviderGuardDecision.toResult : ProviderGuardDecision → MemcoreResult Unit
  | .allowed => .ok ()
  | .blocked refusal => .error refusal.toError

/-- The tokens that a caller may ask for: clamped in production, refused elsewhere. -/
def resolveOutputTokens (requested : Option ℕ) : MemcoreResult (Option ℕ) :=
  if config.enabled = false then .ok requested
  else match requested with
    | none => .ok none
    | some tokens =>
        if tokens ≤ config.maxOutputTokens then .ok (some tokens)
        else match config.testMode with
          | .production => .ok (some config.maxOutputTokens)
          | _ => .error (outputTokensExceeded config).toError

end Parts

/-! ## Laws of the parts -/

section Laws

variable {config : ProviderGuardrailConfig} {input : ProviderCallGuardInput}

/-- A call that reaches the shared state names a real provider, and some real provider
may be called at all. -/
theorem screenCall_none (passed : screenCall config input = none) :
    config.enabled = true ∧ input.isRealProvider = true ∧ config.testMode ≠ .mockOnly := by
  unfold screenCall at passed
  by_cases enabled : config.enabled = false
  · rw [if_pos enabled] at passed
    nomatch passed
  by_cases real : input.isRealProvider = false
  · rw [if_neg enabled, if_pos real] at passed
    nomatch passed
  by_cases disabled : config.realProviderCallsEnabled = false
  · rw [if_neg enabled, if_neg real, if_pos disabled] at passed
    nomatch passed
  by_cases mock : config.testMode = .mockOnly
  · rw [if_neg enabled, if_neg real, if_neg disabled, if_pos mock] at passed
    nomatch passed
  exact ⟨by simpa using enabled, by simpa using real, mock⟩

/-- With the guardrails on, what is allowed without a look at the shared state is no
real provider. -/
theorem screenCall_allowed (enabled : config.enabled = true)
    (allowed : screenCall config input = some .allowed) : input.isRealProvider = false := by
  by_cases real : input.isRealProvider = false
  · exact real
  · unfold screenCall at allowed
    rw [if_neg (by simp [enabled]), if_neg real] at allowed
    repeat' split at allowed
    all_goals simp at allowed

/-- Tokens that were resolved first are never the reason for a refusal. -/
theorem resolveOutputTokens_passes {requested resolved : Option ℕ}
    (enabled : config.enabled = true) (ok : resolveOutputTokens config requested = .ok resolved)
    (tokens : ℕ) (some_tokens : resolved = some tokens) : tokens ≤ config.maxOutputTokens := by
  subst some_tokens
  unfold resolveOutputTokens at ok
  rw [if_neg (by simp [enabled])] at ok
  cases requested with
  | none => simp at ok
  | some asked =>
    by_cases small : asked ≤ config.maxOutputTokens
    · have same : asked = tokens := by simpa [small] using ok
      omega
    · have large : ¬ asked ≤ config.maxOutputTokens := small
      cases mode : config.testMode <;>
        simp [large, mode] at ok
      omega

/-- The budget grants a call exactly while it is not used up. -/
theorem tryConsume_granted (config : ProviderGuardrailConfig) (used after : ℕ) :
    tryConsume config used = (true, after) ↔ used < config.maxCallsPerRun ∧ after = used + 1 := by
  unfold tryConsume
  by_cases exhausted : used ≥ config.maxCallsPerRun
  · rw [if_pos exhausted]
    constructor
    · intro impossible
      nomatch impossible
    · rintro ⟨room, _⟩
      omega
  · rw [if_neg exhausted]
    constructor
    · intro granted
      have same : used + 1 = after := (Prod.mk.inj granted).2
      omega
    · rintro ⟨_, rfl⟩
      rfl

theorem tryConsume_refused (config : ProviderGuardrailConfig) (used after : ℕ) :
    tryConsume config used = (false, after) ↔ config.maxCallsPerRun ≤ used ∧ after = used := by
  unfold tryConsume
  by_cases exhausted : used ≥ config.maxCallsPerRun
  · rw [if_pos exhausted]
    simp only [Prod.mk.injEq, true_and, exhausted, eq_comm]
  · rw [if_neg exhausted]
    constructor
    · intro impossible
      nomatch impossible
    · rintro ⟨none, _⟩
      omega

/-- The single-provider mode keeps at most one name, refuses without a trace, and lets
only the remembered name pass. -/
theorem admitProvider_single (mode : config.testMode = .singleReal) (used : Finset String)
    (few : used.card ≤ 1) {refusal : Option GuardRefusal} {names : Finset String}
    (admitted : admitProvider config input used = (refusal, names)) :
    names.card ≤ 1 ∧ (refusal.isSome = true → names = used) ∧
      (refusal = none → input.providerKey ∈ names ∧ (used = ∅ ∨ names = used)) := by
  unfold admitProvider at admitted
  simp only [mode] at admitted
  by_cases first : used = ∅
  · have single : (insert input.providerKey used).card = 1 := by
      rw [first]
      rfl
    rw [if_pos first, single] at admitted
    simp only [Nat.lt_irrefl, gt_iff_lt, and_false, if_false, Prod.mk.injEq] at admitted
    obtain ⟨rfl, rfl⟩ := admitted
    exact ⟨single.le, by simp, fun _ => ⟨Finset.mem_insert_self _ _, .inl first⟩⟩
  · rw [if_neg first] at admitted
    by_cases known : input.providerKey ∈ used
    · have notMany : ¬ used.card > 1 := by omega
      rw [if_pos known] at admitted
      simp only [notMany, and_false, if_false, Prod.mk.injEq] at admitted
      obtain ⟨rfl, rfl⟩ := admitted
      exact ⟨few, by simp, fun _ => ⟨known, .inr rfl⟩⟩
    · rw [if_neg known, Prod.mk.injEq] at admitted
      obtain ⟨rfl, rfl⟩ := admitted
      exact ⟨few, fun _ => rfl, by simp⟩

/-- Outside the single-provider mode the names decide nothing. -/
theorem admitProvider_refusal (valid : config.validate = .ok ())
    (mode : config.testMode ≠ .singleReal) (input : ProviderCallGuardInput)
    (used others : Finset String) :
    (admitProvider config input used).1 = (admitProvider config input others).1 := by
  unfold admitProvider
  cases same : config.testMode with
  | singleReal => exact absurd same mode
  | mockOnly => rfl
  | production => simp
  | multiReal =>
    have enabled : config.multiProviderValidationEnabled = true := by
      unfold ProviderGuardrailConfig.validate at valid
      by_cases disabled : config.multiProviderValidationEnabled = false
      · simp only [same, disabled, and_self, if_true] at valid
        repeat' split at valid
        all_goals nomatch valid
      · simpa using disabled
    cases config.multiProviderConfirmed <;> simp [enabled]

end Laws

end Memcore
