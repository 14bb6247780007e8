import Memcore.Foundations.Expansion
import Memcore.Providers.Router
import Memcore.Stores.UsageStore

/-!
# Router with usage records

A router that has a recorder hands it one event for every candidate that it is done with:
refused by the guardrails, blocked by its circuit, called with success or in vain. The event
names the tenant that stands in the attribution slot when it is recorded. The slot is read
and the recorder is called without a wait in between, so both are one call here.

Before the guardrails are asked, a mark says what they are asked. Without marks and records
the router is the one that has no recorder. The token counts of an event and the costs that
follow from them are left out.
-/
namespace Memcore

open Programs

/-- Tenant attribution for provider usage events. -/
structure ProviderUsageAttribution where
  orgId : String
  userId : Option String
  deriving DecidableEq

/-- What the router reports about a candidate. -/
structure ProviderUsageReport where
  providerName : String
  modelName : Option String
  capability : ProviderUsageCapability
  operationName : String
  status : ProviderCallStatus
  retryCount : ℕ
  fallbackUsed : Bool
  circuitBlocked : Bool
  timedOut : Bool
  deriving DecidableEq

structure ProviderUsageEvent extends ProviderUsageReport where
  orgId : Option String
  userId : Option String
  deriving DecidableEq

/-- The event of a report, charged to whoever stands in the slot. -/
def ProviderUsageReport.charge (report : ProviderUsageReport)
    (attribution : Option ProviderUsageAttribution) : ProviderUsageEvent where
  toProviderUsageReport := report
  orgId := attribution.map ProviderUsageAttribution.orgId
  userId := attribution.bind ProviderUsageAttribution.userId

def usageCapability : ProviderCapability → ProviderUsageCapability
  | .llm => .llm
  | .embedding => .embedding
  | .summarization => .summarization

/-- The calls of a router with a recorder. A record is answered with its event. -/
inductive MeteredCall (P : Type) where
  | route (call : RouterCall P)
  | judge (input : ProviderCallGuardInput)
  | recordRequest (report : ProviderUsageReport)

abbrev MeteredCall.Answer {P : Type} (T : Type) : MeteredCall P → Type
  | route call => call.Answer T
  | judge _ => Unit
  | recordRequest _ => ProviderUsageEvent

abbrev meteredPorts (P T : Type) : Interface := ⟨MeteredCall P, MeteredCall.Answer T⟩

abbrev MeteredProgram (P T α : Type) := Program (meteredPorts P T) Dropped α

namespace Metered

variable {P T : Type}

def perform (request : MeteredCall P) : MeteredProgram P T (request.Answer T) :=
  @Program.call (meteredPorts P T) Dropped request

/-- A call of the router as it is without a recorder. -/
def plainly (request : RouterCall P) : MeteredProgram P T (request.Answer T) :=
  perform (.route request)

/-- A part of the router that records nothing. -/
def silently {α : Type} (program : RouterProgram P T α) : MeteredProgram P T α :=
  program.carry plainly

def recordUsage (report : ProviderUsageReport) : MeteredProgram P T Unit := do
  let _ ← perform (.recordRequest report)
  return ()

variable (router : ProviderFallbackRouter) (request : RouterRequest P)

def askGuardrails (input : ProviderCallGuardInput) : MeteredProgram P T (MemcoreResult Unit) :=
  match router.guardrails with
  | some config => do
      perform (.judge input)
      silently (decideOrError config input)
  | none => return .ok ()

/-- What is reported of a candidate of a request. -/
def report (candidate : ProviderCandidate P) (fallbackUsed : Bool) (status : ProviderCallStatus)
    (retryCount : ℕ) (circuitBlocked timedOut : Bool) : ProviderUsageReport where
  providerName := candidate.providerId.name
  modelName := candidate.modelName
  capability := usageCapability request.capability
  operationName := request.operationName
  status := status
  retryCount := retryCount
  fallbackUsed := fallbackUsed
  circuitBlocked := circuitBlocked
  timedOut := timedOut

/-- Try the candidates in order. All but the first one are fallbacks. -/
def tryProviders (source : ProviderCallSource) :
    List (ProviderCandidate P) → Bool → Option MemcoreError → MeteredProgram P T (MemcoreResult T)
  | [], _, lastError => return .error (exhaustedError request lastError)
  | candidate :: rest, fallbackUsed, _ => do
      match ← askGuardrails router (request.guardInput source candidate) with
      | .error error =>
          recordUsage (report request candidate fallbackUsed .error 0 false false)
          return .error error
      | .ok () =>
      match ← plainly (.checkAllow (request.key candidate)) with
      | .error error =>
          recordUsage (report request candidate fallbackUsed .error 0 true false)
          tryProviders source rest true (some error)
      | .ok _ =>
      match ← silently (executeProviderCall request.operationName router.policy candidate) with
      | .ok outcome =>
          plainly (.recordSuccess (request.key candidate))
          recordUsage (report request candidate fallbackUsed .success outcome.retries false
            outcome.timedOut)
          return .ok outcome.value
      | .error failure =>
          if isProviderHealthFailure failure.error then do
            plainly (.recordFailure (request.key candidate))
            recordUsage (report request candidate fallbackUsed .error failure.retries false
              failure.timedOut)
            tryProviders source rest true (some failure.error)
          else
            plainly (.leave (request.key candidate))
            recordUsage (report request candidate fallbackUsed .error failure.retries false
              failure.timedOut)
            return .error failure.error

def executeWithFallback : MeteredProgram P T (MemcoreResult T) :=
  if request.candidates.isEmpty then
    return .error (.internal "no provider candidates configured")
  else do
    let providersToTry :=
      if request.fallbackEnabled then request.candidates else request.candidates.take 1
    if router.callSourceSlot then
      let source ← plainly .callSource
      tryProviders router request source providersToTry false none
    else tryProviders router request .apiRequest providersToTry false none

/-! ## Without the records -/

/-- Marks do nothing, and what is recorded is charged to nobody. -/
def unmetered : (call : MeteredCall P) → RouterProgram P T (call.Answer T)
  | .route call => Memcore.route call
  | .judge _ => return ()
  | .recordRequest report => return report.charge none

/-- What a router with a recorder does without the recorder. -/
def forget {α : Type} (program : MeteredProgram P T α) : RouterProgram P T α :=
  program.carry unmetered

@[simp] theorem forget_pure {α : Type} (value : α) :
    forget (pure value : MeteredProgram P T α) = pure value := rfl

@[simp] theorem forget_bind {α β : Type} (program : MeteredProgram P T α)
    (next : α → MeteredProgram P T β) :
    forget (program >>= next) = forget program >>= fun value => forget (next value) :=
  @Program.carry_bind (meteredPorts P T) (routerPorts P T) Dropped α β unmetered program next

@[simp] theorem forget_plainly (call : RouterCall P) :
    forget (plainly call : MeteredProgram P T _) = Memcore.route call :=
  @Program.carry_call (meteredPorts P T) (routerPorts P T) Dropped unmetered (.route call)

theorem forget_plainly_bind {α : Type} (call : RouterCall P)
    (next : call.Answer T → MeteredProgram P T α) :
    forget (plainly call >>= next) = Memcore.route call >>= fun answer => forget (next answer) := by
  rw [forget_bind, forget_plainly]

@[simp] theorem forget_silently {α : Type} (program : RouterProgram P T α) :
    forget (silently program) = program := by
  have through : (fun call => (plainly call : MeteredProgram P T _).carry unmetered) =
      @Program.call (routerPorts P T) Dropped :=
    funext forget_plainly
  unfold forget silently
  rw [Program.carry_carry, through, Program.carry_self]

theorem forget_recordUsage {α : Type} (report : ProviderUsageReport)
    (next : Unit → MeteredProgram P T α) :
    forget (recordUsage report >>= next) = forget (next ()) := rfl

theorem forget_askGuardrails (input : ProviderCallGuardInput) :
    forget (askGuardrails router input : MeteredProgram P T _) =
      Memcore.askGuardrails router input := by
  unfold askGuardrails Memcore.askGuardrails
  cases router.guardrails with
  | none => rfl
  | some config =>
    show forget (silently (decideOrError config input)) = _
    rw [forget_silently]

theorem forget_tryProviders (source : ProviderCallSource) (candidates : List (ProviderCandidate P))
    (fallbackUsed : Bool) (lastError : Option MemcoreError) :
    forget (tryProviders router request source candidates fallbackUsed lastError) =
      (Memcore.tryProviders router request source candidates lastError :
        RouterProgram P T (MemcoreResult T)) := by
  induction candidates generalizing fallbackUsed lastError with
  | nil => rfl
  | cons candidate rest inductionHypothesis =>
    unfold tryProviders Memcore.tryProviders
    rw [forget_bind, forget_askGuardrails]
    refine congrArg _ (funext fun verdict => ?_)
    rcases verdict with error | _
    · exact forget_recordUsage _ _
    refine (forget_plainly_bind _ _).trans (congrArg _ (funext fun allowed => ?_))
    rcases allowed with error | state
    · exact (forget_recordUsage _ _).trans (inductionHypothesis _ _)
    refine (forget_bind _ _).trans ?_
    rw [forget_silently]
    refine congrArg _ (funext fun outcome => ?_)
    rcases outcome with failure | outcome
    · dsimp only
      split
      · refine (forget_plainly_bind _ _).trans (congrArg _ (funext fun _ => ?_))
        exact (forget_recordUsage _ _).trans (inductionHypothesis _ _)
      · refine (forget_plainly_bind _ _).trans (congrArg _ (funext fun _ => ?_))
        exact forget_recordUsage _ _
    · refine (forget_plainly_bind _ _).trans (congrArg _ (funext fun _ => ?_))
      exact forget_recordUsage _ _

/-- Without its records the router does what the router without a recorder does. -/
theorem forget_executeWithFallback :
    forget (executeWithFallback router request) =
      (Memcore.executeWithFallback router request : RouterProgram P T (MemcoreResult T)) := by
  unfold executeWithFallback Memcore.executeWithFallback
  split
  · rfl
  · dsimp only
    split
    · rw [forget_bind, forget_plainly]
      exact congrArg _ (funext fun source => forget_tryProviders router request source _ _ _)
    · exact forget_tryProviders router request _ _ _ _

end Metered

end Memcore
