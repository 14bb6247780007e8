import Memcore.Engine.Operations
import Memcore.Providers.UsageRecording

/-!
# Requests that call providers

The engine's calls of a model or of an embedding go through routers, which share the
guardrails, the recorder of usage and two slots of the process: who is charged for provider
usage, and where the current requests come from. A request sets the second slot from a header
before anything else, runs, and clears the slot; its engine sets the first one.

Many requests run on one engine. A request that its client drops stops where it waits, and
then nothing clears the slot.
-/
namespace Memcore

open Programs

/-! ## Providers -/

/-- What the providers of the engine are set up with. All routers of a process share the
guardrails and both slots. -/
structure ProviderWiring (P : Type) where
  providers : List (ProviderCandidate P)
  summarizerProviders : List (ProviderCandidate P)
  embeddingProviders : List (ProviderCandidate P)
  fallbackEnabled : Bool
  policy : ProviderExecutionPolicy
  breaker : CircuitBreakerConfig
  guardrails : ProviderGuardrailConfig

namespace ProviderWiring

variable {P : Type} (wiring : ProviderWiring P)

def router : ProviderFallbackRouter where
  policy := wiring.policy
  guardrails := some wiring.guardrails
  callSourceSlot := true

def messagesCharCount (messages : List MemoryMessage) : ℕ :=
  (messages.map fun message => message.content.utf8ByteSize).sum

def factsCharCount (facts : List Fact) : ℕ :=
  (facts.map fun fact => fact.content.utf8ByteSize).sum

/-- The use of a router that a call of the engine is. -/
def request : ProviderCall → RouterRequest P
  | .extractFacts _ messages _ => {
      capability := .llm
      operationName := "llm_extract_facts"
      fallbackEnabled := wiring.fallbackEnabled
      candidates := wiring.providers
      inputCharCount := messagesCharCount messages }
  | .classifyFactOperation _ candidateFact existingFacts => {
      capability := .llm
      operationName := "llm_classify_fact_operation"
      fallbackEnabled := wiring.fallbackEnabled
      candidates := wiring.providers
      inputCharCount := candidateFact.content.utf8ByteSize + factsCharCount existingFacts }
  | .summarizeMemory _ facts maxTokens => {
      capability := .summarization
      operationName := "llm_summarize_memory"
      fallbackEnabled := wiring.fallbackEnabled
      candidates := if wiring.summarizerProviders.isEmpty then wiring.providers
        else wiring.summarizerProviders
      inputCharCount := factsCharCount facts
      requestedOutputTokens := maxTokens }
  | .embedText text => {
      capability := .embedding
      operationName := "embedding_embed_text"
      fallbackEnabled := wiring.fallbackEnabled
      candidates := wiring.embeddingProviders
      inputCharCount := text.utf8ByteSize }

end ProviderWiring

/-! ## The calls of a request -/

inductive ServiceCall (P : Type) where
  | setCallSource (source : ProviderCallSource)
  | clearCallSource
  | engine (port : Port)
  | router (call : ProviderCall) (request : MeteredCall P)

abbrev ServiceCall.Answer {P : Type} : ServiceCall P → Type
  | setCallSource _ => Unit
  | clearCallSource => Unit
  | engine port => MemcoreResult port.Answer
  | router call request => request.Answer call.Answer

abbrev servicePorts (P : Type) : Interface := ⟨ServiceCall P, ServiceCall.Answer⟩

/-- A request of a client. Only a client that drops it makes it fail. -/
abbrev ServiceProgram (P α : Type) := Program (servicePorts P) Dropped α

section Programs

variable {P : Type}

def serviceCall (request : ServiceCall P) : ServiceProgram P request.Answer :=
  @Program.call (servicePorts P) Dropped request

/-- A call of a router on behalf of a call of the engine. -/
def routed (call : ProviderCall) (request : MeteredCall P) :
    ServiceProgram P (request.Answer call.Answer) :=
  serviceCall (.router call request)

/-- How a call of the engine is carried out: a provider is called through its router. -/
def carryOut (wiring : ProviderWiring P) :
    (port : Port) → ServiceProgram P (MemcoreResult port.Answer)
  | .provider call =>
      (Metered.executeWithFallback (T := call.Answer) wiring.router (wiring.request call)).carry
        (routed call)
  | port => serviceCall (.engine port)

/-- The source that a header names. -/
def ProviderCallSource.fromTestHeader (value : String) : ProviderCallSource :=
  let normalized := Texts.toAsciiLowercase (Texts.trim value)
  if ["smoke-test", "smoke_test", "smoke"].contains normalized then .smokeTest
  else if ["load-test", "load_test", "load"].contains normalized then .loadTest
  else if ["admin-validation", "admin_validation"].contains normalized then .adminValidation
  else if ["background-job", "background_job"].contains normalized then .backgroundJob
  else .apiRequest

/-- The middleware that keeps the source of a request in the slot of the process while the
request is answered. -/
def applyProviderTestSource {α : Type} (header : Option String) (next : ServiceProgram P α) :
    ServiceProgram P α := do
  serviceCall (.setCallSource ((header.map ProviderCallSource.fromTestHeader).getD .apiRequest))
  let response ← next
  serviceCall .clearCallSource
  return response

end Programs

/-! ## Requests -/

/-- The operations that call providers on behalf of a tenant. -/
inductive ServedOperation where
  | addMemory (input : AddMemoryInput)
  | searchMemory (input : SearchMemoryInput)
  | buildContext (input : BuildContextInput)

namespace ServedOperation

def tenant : ServedOperation → TenantContext
  | addMemory input => input.tenant
  | searchMemory input => input.tenant
  | buildContext input => input.tenant

def program (engine : MemoryEngine) : ServedOperation → EngineProgram Unit
  | addMemory input => (EngineOperation.addMemory input).program engine
  | searchMemory input => (EngineOperation.searchMemory input).program engine
  | buildContext input => (EngineOperation.buildContext input).program engine

end ServedOperation

/-- A request as it arrives: its test-source header, what the checks between the middleware
and the engine answer, and what it asks for. -/
structure ServedRequest where
  testSource : Option String
  checks : MemcoreResult Unit
  operation : ServedOperation

namespace ServedRequest

variable (request : ServedRequest)

def tenant : TenantContext := request.operation.tenant

/-- The source that the request's own header names. -/
def source : ProviderCallSource :=
  (request.testSource.map ProviderCallSource.fromTestHeader).getD .apiRequest

def handler {P : Type} (engine : MemoryEngine) (wiring : ProviderWiring P) :
    ServiceProgram P (MemcoreResult Unit) :=
  match request.checks with
  | .error error => return .error error
  | .ok () => (request.operation.program engine).expand (carryOut wiring)

def program {P : Type} (engine : MemoryEngine) (wiring : ProviderWiring P) :
    ServiceProgram P (MemcoreResult Unit) :=
  applyProviderTestSource request.testSource (request.handler engine wiring)

end ServedRequest

/-! ## The process -/

/-- What all requests share. The slot of the tenant who is charged is the engine's. -/
structure ServiceWorld where
  engine : World
  router : RouterWorld
  callSource : ProviderCallSource
  recorded : List ProviderUsageEvent

/-- What the surroundings contribute to a call. The answer of a provider that is called is in
the choice for the engine. -/
structure ServiceChoice where
  engine : Choice := {}
  elapsed : Bool := false
  dropped : Bool := false

namespace ServiceWorld

/-- The tenant in the slot, as the recorder reads it. -/
def attribution (world : ServiceWorld) : Option ProviderUsageAttribution :=
  world.engine.usageAttribution.map fun slot => ⟨slot.1, slot.2⟩

/-- How a provider ends in its time limit. -/
def providerAnswer (choice : ServiceChoice) (call : ProviderCall) :
    Option (ProviderAnswer call.Answer) :=
  if choice.dropped then none
  else if choice.elapsed then some .elapsed
  else match choice.engine.fault with
    | some error => some (.completed (.error error))
    | none => some (.completed (World.serveProvider choice.engine call))

def routerChoice (choice : ServiceChoice) (call : ProviderCall) (world : ServiceWorld) :
    RouterChoice call.Answer where
  now := choice.engine.now
  source := world.callSource
  answer := providerAnswer choice call

variable {P : Type}

def serve (engine : MemoryEngine) (wiring : ProviderWiring P) (choice : ServiceChoice) :
    (call : ServiceCall P) → ServiceWorld → Except Dropped call.Answer × ServiceWorld
  | .setCallSource source, world => (.ok (), { world with callSource := source })
  | .clearCallSource, world => (.ok (), { world with callSource := .apiRequest })
  | .engine port, world =>
      let served := World.serve engine.platform choice.engine port world.engine
      (.ok served.1, { world with engine := served.2 })
  | .router call (.route request), world =>
      let served := RouterWorld.serve wiring.breaker wiring.guardrails
        (world.routerChoice choice call) request world.router
      (served.1, { world with router := served.2 })
  | .router _ (.judge _), world => (.ok (), world)
  | .router _ (.recordRequest report), world =>
      let event := report.charge world.attribution
      (.ok event, { world with recorded := world.recorded ++ [event] })

def ready (choice : ServiceChoice) : ServiceCall P → ServiceWorld → Bool
  | .engine port, world => World.ready choice.engine port world.engine
  | _, _ => true

end ServiceWorld

def serviceServer {P : Type} (engine : MemoryEngine) (wiring : ProviderWiring P) :
    Server (servicePorts P) Dropped ServiceWorld ServiceChoice :=
  ⟨ServiceWorld.ready, fun choice call world => ServiceWorld.serve engine wiring choice call world⟩

end Memcore
