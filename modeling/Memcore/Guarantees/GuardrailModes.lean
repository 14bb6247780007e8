import Memcore.Providers.Guardrails

/-!
# Guardrail modes over whole runs

One guard checks any sequence of calls. With the guardrails on, the number of real
calls that it allows stays within the budget, the mode for a single provider allows
one provider only, and a blocked call uses up nothing and locks in nobody.

Two readings of this are too wide. A guard that is switched off allows everything
and counts nothing. And only the mode for a single provider locks a provider in:
elsewhere a call that the budget blocks is remembered by name, but no check ever
depends on these names.
-/
namespace Memcore

/-- Check one call after the other, and note each call with its decision. -/
def checkCalls (config : ProviderGuardrailConfig) :
    List ProviderCallGuardInput → GuardrailState →
      List (ProviderCallGuardInput × ProviderGuardDecision) × GuardrailState
  | [], state => ([], state)
  | input :: rest, state =>
      let checked := checkProviderCall config input state
      let later := checkCalls config rest checked.2
      ((input, checked.1) :: later.1, later.2)

/-- The real calls that were allowed. -/
def allowedReal (log : List (ProviderCallGuardInput × ProviderGuardDecision)) :
    List (ProviderCallGuardInput × ProviderGuardDecision) :=
  log.filter fun entry => entry.1.isRealProvider && entry.2 == .allowed

variable {config : ProviderGuardrailConfig} {input : ProviderCallGuardInput}
  {state : GuardrailState}

/-! ## One check -/

/-- What a check can do: decide without the state, refuse by name, allow with one call
taken, or refuse for want of budget. -/
theorem checkProviderCall_cases (config : ProviderGuardrailConfig)
    (input : ProviderCallGuardInput) (state : GuardrailState) :
    (∃ decision, screenCall config input = some decision ∧
      checkProviderCall config input state = (decision, state)) ∨
    screenCall config input = none ∧ ∃ refusal names,
      admitProvider config input state.usedRealProviders = (refusal, names) ∧
        ((∃ reason, refusal = some reason ∧
          checkProviderCall config input state = (.blocked reason, ⟨state.usedCalls, names⟩)) ∨
        (refusal = none ∧ state.usedCalls < config.maxCallsPerRun ∧
          checkProviderCall config input state = (.allowed, ⟨state.usedCalls + 1, names⟩)) ∨
        (refusal = none ∧ config.maxCallsPerRun ≤ state.usedCalls ∧
          checkProviderCall config input state =
            (.blocked (callBudgetExhausted config state.usedCalls),
              ⟨state.usedCalls, names⟩))) := by
  cases screened : screenCall config input with
  | some decision =>
    refine .inl ⟨decision, rfl, ?_⟩
    simp only [checkProviderCall, screened]
  | none =>
    refine .inr ⟨rfl, ?_⟩
    cases admitted : admitProvider config input state.usedRealProviders with
    | mk refusal names =>
      refine ⟨refusal, names, rfl, ?_⟩
      cases refusal with
      | some reason =>
        refine .inl ⟨reason, rfl, ?_⟩
        simp only [checkProviderCall, screened, admitted]
      | none =>
        by_cases room : state.usedCalls < config.maxCallsPerRun
        · have granted := (tryConsume_granted config state.usedCalls _).mpr ⟨room, rfl⟩
          refine .inr (.inl ⟨rfl, room, ?_⟩)
          simp only [checkProviderCall, screened, admitted, granted]
        · have spent : config.maxCallsPerRun ≤ state.usedCalls := by omega
          have refused := (tryConsume_refused config state.usedCalls _).mpr ⟨spent, rfl⟩
          refine .inr (.inr ⟨rfl, spent, ?_⟩)
          simp only [checkProviderCall, screened, admitted, refused]

/-- The count grows by one for an allowed real call, within the budget, and stays
otherwise. -/
theorem checkProviderCall_count (enabled : config.enabled = true)
    (input : ProviderCallGuardInput) (within : state.usedCalls ≤ config.maxCallsPerRun) :
    (checkProviderCall config input state).2.usedCalls = state.usedCalls +
        (allowedReal [(input, (checkProviderCall config input state).1)]).length ∧
      (checkProviderCall config input state).2.usedCalls ≤ config.maxCallsPerRun := by
  rcases checkProviderCall_cases config input state with ⟨decision, screened, same⟩ |
    ⟨screened, _, names, _, ⟨_, _, same⟩ | ⟨_, room, same⟩ | ⟨_, _, same⟩⟩
  · have uncounted : allowedReal [(input, decision)] = [] := by
      by_cases allowed : decision = .allowed
      · have mock := screenCall_allowed enabled (allowed ▸ screened)
        simp [allowedReal, mock]
      · simp [allowedReal, allowed]
    rw [same, uncounted]
    exact ⟨rfl, within⟩
  · rw [same]
    simp [allowedReal, within]
  · have real := (screenCall_none screened).2.1
    rw [same]
    simp only [allowedReal, real, List.filter_cons, List.filter_nil, beq_self_eq_true,
      Bool.and_self, if_true, List.length_singleton, true_and]
    omega
  · rw [same]
    simp [allowedReal, within]

/-- A call that is not allowed takes nothing from the budget. -/
theorem checkProviderCall_blocked_count
    (blocked : (checkProviderCall config input state).1 ≠ .allowed) :
    (checkProviderCall config input state).2.usedCalls = state.usedCalls := by
  rcases checkProviderCall_cases config input state with ⟨_, _, same⟩ |
    ⟨_, _, _, _, ⟨_, _, same⟩ | ⟨_, _, same⟩ | ⟨_, _, same⟩⟩
  · rw [same]
  · rw [same]
  · rw [same] at blocked
    exact absurd rfl blocked
  · rw [same]

/-- In the mode for a single provider: at most one name, and none before the first
call that was taken from the budget. -/
structure SingleLock (state : GuardrailState) : Prop where
  few : state.usedRealProviders.card ≤ 1
  unused : state.usedRealProviders = ∅ → state.usedCalls = 0

/-- The lock is kept; a blocked call leaves it alone; an allowed real call names the
provider that is locked in; and a provider that is locked in stays. -/
theorem checkProviderCall_single (mode : config.testMode = .singleReal)
    (positive : 0 < config.maxCallsPerRun) (enabled : config.enabled = true)
    (input : ProviderCallGuardInput) (lock : SingleLock state) :
    SingleLock (checkProviderCall config input state).2 ∧
      ((checkProviderCall config input state).1 ≠ .allowed →
        (checkProviderCall config input state).2.usedRealProviders = state.usedRealProviders) ∧
      ((checkProviderCall config input state).1 = .allowed → input.isRealProvider = true →
        input.providerKey ∈ (checkProviderCall config input state).2.usedRealProviders) ∧
      state.usedRealProviders ⊆ (checkProviderCall config input state).2.usedRealProviders := by
  rcases checkProviderCall_cases config input state with ⟨decision, screened, same⟩ |
    ⟨screened, refusal, names, admitted, outcome⟩
  · rw [same]
    refine ⟨lock, fun _ => rfl, ?_, Finset.Subset.refl _⟩
    rintro rfl real
    have mock := screenCall_allowed enabled screened
    rw [mock] at real
    nomatch real
  · obtain ⟨few, refused, passes⟩ := admitProvider_single mode _ lock.few admitted
    rcases outcome with ⟨_, rfl, same⟩ | ⟨rfl, room, same⟩ | ⟨rfl, spent, same⟩
    · have unchanged : names = state.usedRealProviders := refused rfl
      subst unchanged
      rw [same]
      refine ⟨lock, fun _ => rfl, ?_, Finset.Subset.refl _⟩
      intro allowed
      nomatch allowed
    · obtain ⟨named, kept⟩ := passes rfl
      have grows : state.usedRealProviders ⊆ names := by
        rcases kept with first | unchanged
        · rw [first]
          exact Finset.empty_subset _
        · rw [unchanged]
      rw [same]
      refine ⟨⟨few, ?_⟩, fun blocked => absurd rfl blocked, fun _ _ => named, grows⟩
      intro empty
      have noName : names = ∅ := empty
      rw [noName] at named
      exact absurd named (Finset.notMem_empty _)
    · -- A budget that is used up was used, so a name is locked in already.
      obtain ⟨_, kept⟩ := passes rfl
      have unchanged : names = state.usedRealProviders := by
        rcases kept with first | unchanged
        · have untouched := lock.unused first
          omega
        · exact unchanged
      subst unchanged
      rw [same]
      refine ⟨lock, fun _ => rfl, ?_, Finset.Subset.refl _⟩
      intro allowed
      nomatch allowed

/-! ## Whole runs -/

/-- Every allowed real call is counted, and the count stays within the budget. -/
theorem checkCalls_count (enabled : config.enabled = true)
    (inputs : List ProviderCallGuardInput) (within : state.usedCalls ≤ config.maxCallsPerRun) :
    (checkCalls config inputs state).2.usedCalls =
        state.usedCalls + (allowedReal (checkCalls config inputs state).1).length ∧
      (checkCalls config inputs state).2.usedCalls ≤ config.maxCallsPerRun := by
  induction inputs generalizing state with
  | nil => exact ⟨rfl, within⟩
  | cons input rest inductionHypothesis =>
    obtain ⟨counted, room⟩ := checkProviderCall_count enabled input within
    obtain ⟨countedRest, roomRest⟩ := inductionHypothesis room
    have together : allowedReal (checkCalls config (input :: rest) state).1 =
        allowedReal [(input, (checkProviderCall config input state).1)] ++
          allowedReal (checkCalls config rest (checkProviderCall config input state).2).1 := by
      simp only [allowedReal, checkCalls, List.filter_cons, List.filter_nil]
      split <;> rfl
    have last : (checkCalls config (input :: rest) state).2 =
        (checkCalls config rest (checkProviderCall config input state).2).2 := rfl
    rw [together, last, List.length_append]
    omega

/-- In the mode for a single provider, every allowed real call names the provider that
is locked in at the end. -/
theorem checkCalls_single (mode : config.testMode = .singleReal)
    (positive : 0 < config.maxCallsPerRun) (enabled : config.enabled = true)
    (inputs : List ProviderCallGuardInput) (lock : SingleLock state) :
    SingleLock (checkCalls config inputs state).2 ∧
      state.usedRealProviders ⊆ (checkCalls config inputs state).2.usedRealProviders ∧
      ∀ entry ∈ allowedReal (checkCalls config inputs state).1,
        entry.1.providerKey ∈ (checkCalls config inputs state).2.usedRealProviders := by
  induction inputs generalizing state with
  | nil => exact ⟨lock, Finset.Subset.refl _, by simp [checkCalls, allowedReal]⟩
  | cons input rest inductionHypothesis =>
    obtain ⟨locked, _, named, grows⟩ :=
      checkProviderCall_single mode positive enabled input lock
    obtain ⟨lockedRest, growsRest, namedRest⟩ := inductionHypothesis locked
    refine ⟨lockedRest, grows.trans growsRest, ?_⟩
    intro entry listed
    simp only [allowedReal, checkCalls, List.mem_filter, List.mem_cons, Bool.and_eq_true,
      beq_iff_eq] at listed namedRest
    obtain ⟨rfl | later, real, allowed⟩ := listed
    · exact growsRest (named allowed real)
    · exact namedRest entry ⟨later, real, allowed⟩

/-- For every guard that is switched on and validated, and every sequence of calls: the
allowed real calls stay within the budget; in the mode for a single provider they all
name the same one, up to ASCII case; a blocked call leaves the used budget and, in that
mode, the provider that is locked in as they were; and in the other modes the remembered
names decide no call. -/
theorem guardrails_hold (config : ProviderGuardrailConfig) (valid : config.validate = .ok ())
    (enabled : config.enabled = true) (inputs : List ProviderCallGuardInput) :
    (allowedReal (checkCalls config inputs .fresh).1).length ≤ config.maxCallsPerRun ∧
      (config.testMode = .singleReal →
        ∀ first ∈ allowedReal (checkCalls config inputs .fresh).1,
          ∀ second ∈ allowedReal (checkCalls config inputs .fresh).1,
            Texts.toAsciiLowercase first.1.providerName =
              Texts.toAsciiLowercase second.1.providerName) ∧
      ∀ input, let before := (checkCalls config inputs .fresh).2
        ((checkProviderCall config input before).1 ≠ .allowed →
          (checkProviderCall config input before).2.usedCalls = before.usedCalls ∧
            (config.testMode = .singleReal →
              (checkProviderCall config input before).2.usedRealProviders =
                before.usedRealProviders)) ∧
        (config.testMode ≠ .singleReal → ∀ names,
          (checkProviderCall config input { before with usedRealProviders := names }).1 =
            (checkProviderCall config input before).1) := by
  have positive := config.maxCalls_pos valid
  have start : SingleLock .fresh := ⟨by decide, fun _ => rfl⟩
  refine ⟨?_, ?_, fun input => ⟨fun blocked => ⟨?_, ?_⟩, ?_⟩⟩
  · have unused : GuardrailState.fresh.usedCalls ≤ config.maxCallsPerRun := Nat.zero_le _
    obtain ⟨counted, room⟩ := checkCalls_count enabled inputs unused
    have zero : GuardrailState.fresh.usedCalls = 0 := rfl
    omega
  · intro mode first firstAllowed second secondAllowed
    obtain ⟨locked, _, named⟩ := checkCalls_single mode positive enabled inputs start
    exact Finset.card_le_one.mp locked.few _ (named first firstAllowed) _ (named second secondAllowed)
  · exact checkProviderCall_blocked_count blocked
  · intro mode
    have locked := (checkCalls_single mode positive enabled inputs start).1
    exact (checkProviderCall_single mode positive enabled input locked).2.1 blocked
  · intro mode names
    have same := admitProvider_refusal valid mode input names
      (checkCalls config inputs .fresh).2.usedRealProviders
    unfold checkProviderCall
    cases screenCall config input with
    | some decision => rfl
    | none =>
      simp only
      cases left : admitProvider config input names with
      | mk refusal kept =>
        cases right : admitProvider config input
            (checkCalls config inputs .fresh).2.usedRealProviders with
        | mk otherRefusal otherKept =>
          rw [left, right] at same
          cases same
          cases refusal with
          | some reason => rfl
          | none =>
            simp only
            cases tryConsume config (checkCalls config inputs .fresh).2.usedCalls with
            | mk granted used => cases granted <;> rfl

/-- A call of a real provider. -/
def realCall (name : String) : ProviderCallGuardInput where
  providerName := name
  modelName := "gpt-test"
  operation := "llm_extract_facts"
  source := .apiRequest
  inputCharCount := 40
  requestedOutputTokens := some 64
  isRealProvider := true

/-- A validated guard for a single provider with room for two calls. -/
def singleRealConfig : ProviderGuardrailConfig :=
  { realProviderCallsEnabled := true, testMode := .singleReal, maxCallsPerRun := 2 }

theorem guardrails_hold_sample :
    (allowedReal (checkCalls singleRealConfig
      [realCall "OpenAI", realCall "other", realCall "openai", realCall "openai"]
      .fresh).1).length ≤ 2 :=
  (guardrails_hold singleRealConfig (by decide) rfl _).1

/-- A guard that is switched off allows more real calls than its budget. And in
production a call that the exhausted budget blocks is remembered by name. -/
theorem guardrails_fail :
    let off : ProviderGuardrailConfig := { enabled := false, maxCallsPerRun := 1 }
    let production : ProviderGuardrailConfig :=
      { realProviderCallsEnabled := true, testMode := .production, maxCallsPerRun := 1 }
    let spent := (checkCalls production [realCall "openai"] .fresh).2
    (off.validate = .ok () ∧ off.maxCallsPerRun <
      (allowedReal (checkCalls off [realCall "openai", realCall "openai"] .fresh).1).length) ∧
    production.validate = .ok () ∧
      (checkProviderCall production (realCall "other") spent).1 ≠ .allowed ∧
      (checkProviderCall production (realCall "other") spent).2.usedRealProviders ≠
        spent.usedRealProviders := by
  decide +kernel

end Memcore
