import Memcore.Engine.Operations
import Memcore.Engine.Quotas

/-!
# Routes that write memories

A handler checks the scopes of the caller's key, validates the request and then runs one
operation of the engine. The route that adds memories also asks the quota service whether
one more memory is allowed; the route that imports a user's data does not ask. Without
authentication there is no key, and scopes are not checked.
-/
namespace Memcore

open Programs

inductive ApiKeyScope where
  | memoryRead | memoryWrite | memoryDelete | userDelete | auditRead | adminRead | adminWrite
  deriving DecidableEq

structure AuthContext where
  scopes : List ApiKeyScope

structure OrganizationContext where
  orgId : String

/-- Why a request is refused: the key lacks a scope, or the error of a check. -/
inductive ApiError where
  | forbidden (message : String)
  | memcore (error : MemcoreError)

abbrev ApiResult (α : Type) := Except ApiError α

def AuthContext.hasScope (auth : AuthContext) (scope : ApiKeyScope) : Bool :=
  auth.scopes.contains scope

def checkScope (auth : Option AuthContext) (scope : ApiKeyScope) : ApiResult Unit :=
  match auth with
  | some auth =>
      if auth.hasScope scope then .ok () else .error (.forbidden "insufficient api key scope")
  | none => .ok ()

def checkAnyScope (auth : Option AuthContext) (scopes : List ApiKeyScope) : ApiResult Unit :=
  match auth with
  | some auth =>
      if scopes.any auth.hasScope then .ok () else .error (.forbidden "missing required scope")
  | none => .ok ()

/-- An error of a check becomes the response. -/
def orRespond {α : Type} (result : MemcoreResult α) : ApiResult α := result.mapError .memcore

/-! ## Requests -/

structure MemoryMessageRequest where
  role : String
  content : String

structure AddMemoryRequest where
  userId : String
  messages : List MemoryMessageRequest
  metadata : Value

structure ImportUserDataRequest where
  payload : UserMemoryExport
  mode : ImportMode
  restoreEvents : Bool
  dryRun : Bool

def ImportUserDataRequest.intoInput (request : ImportUserDataRequest) (tenant : TenantContext) :
    ImportUserDataInput where
  tenant := tenant
  payload := request.payload
  mode := request.mode
  restoreEvents := request.restoreEvents
  dryRun := request.dryRun

def TenantContext.new (orgId userId : String) : MemcoreResult TenantContext := do
  validateTenant ⟨orgId, userId⟩
  return ⟨orgId, userId⟩

def OrganizationContext.tenantWithUserId (organization : OrganizationContext) (userId : String) :
    MemcoreResult TenantContext :=
  TenantContext.new organization.orgId userId

def validateAddMemoryRequest (request : AddMemoryRequest) : MemcoreResult Unit :=
  if Texts.isBlank request.userId then .error (.validationError "user_id cannot be empty")
  else if request.messages.isEmpty then .error (.validationError "messages cannot be empty")
  else if request.messages.any fun message => Texts.isBlank message.content then
    .error (.validationError "message content cannot be empty")
  else .ok ()

def mapMessage (message : MemoryMessageRequest) : MemcoreResult MemoryMessage :=
  let role := Texts.toAsciiLowercase (Texts.trim message.role)
  if role = "user" then .ok ⟨.user, message.content⟩
  else if role = "assistant" then .ok ⟨.assistant, message.content⟩
  else if role = "system" then .ok ⟨.system, message.content⟩
  else .error (.validationError ("invalid message role: " ++ role))

def mapMessages (messages : List MemoryMessageRequest) : MemcoreResult (List MemoryMessage) :=
  messages.mapM mapMessage

/-! ## Handlers -/

structure AppState where
  engine : MemoryEngine
  quotas : QuotaService

/-- What the handler does before it adds memories. -/
def admitAddMemory (state : AppState) (facts : MockFactStore) (reading : QuotaReading)
    (organization : OrganizationContext) (auth : Option AuthContext)
    (request : AddMemoryRequest) : ApiResult AddMemoryInput := do
  checkScope auth .memoryWrite
  orRespond (validateAddMemoryRequest request)
  let tenant ← orRespond (organization.tenantWithUserId request.userId)
  let messages ← orRespond (mapMessages request.messages)
  let quota ← orRespond (state.quotas.checkMemoryWriteQuota facts reading
    ⟨tenant.orgId, tenant.userId, 1⟩)
  match quota.violations with
  | violation :: _ => .error (.memcore violation.intoError)
  | [] => .ok ⟨tenant, messages, request.metadata⟩

/-- What the handler does before it imports a user's data. -/
def admitImportUserData (organization : OrganizationContext) (auth : Option AuthContext)
    (userId : String) (body : ImportUserDataRequest) : ApiResult ImportUserDataInput := do
  checkAnyScope auth [.adminWrite, .memoryWrite]
  if Texts.isBlank userId then
    .error (.memcore (.validationError "user_id cannot be empty"))
  let tenant ← orRespond (TenantContext.new organization.orgId userId)
  return body.intoInput tenant

/-- The requests that write memories. -/
inductive ApiRequest where
  | addMemory (auth : Option AuthContext) (request : AddMemoryRequest)
  | importUserData (auth : Option AuthContext) (userId : String) (body : ImportUserDataRequest)

namespace ApiRequest

def userId : ApiRequest → String
  | addMemory _ request => request.userId
  | importUserData _ userId _ => userId

/-- The operation that a request leads to, if it is not refused. -/
def prepare (state : AppState) (facts : MockFactStore) (reading : QuotaReading)
    (organization : OrganizationContext) : ApiRequest → ApiResult EngineOperation
  | addMemory auth request =>
      (admitAddMemory state facts reading organization auth request).map .addMemory
  | importUserData auth userId body =>
      (admitImportUserData organization auth userId body).map .importUserData

end ApiRequest

/-- The worlds that requests of one organisation, the latest first, lead to. Every operation
that is run satisfies a condition on it and on the world before. -/
inductive ApiRun (state : AppState) (admits : World → Port → Choice → Prop)
    (allowed : World → EngineOperation → Prop) (organization : OrganizationContext)
    (start : World) : List ApiRequest → World → Prop where
  | start : ApiRun state admits allowed organization start [] start
  | refused (requests : List ApiRequest) (request : ApiRequest) (world : World)
      (reading : QuotaReading) (error : ApiError)
      (before : ApiRun state admits allowed organization start requests world)
      (refusal : request.prepare state world.facts reading organization = .error error) :
      ApiRun state admits allowed organization start (request :: requests) world
  | ran (requests : List ApiRequest) (request : ApiRequest) (world final : World)
      (reading : QuotaReading) (operation : EngineOperation) (trace : List EngineEvent)
      (outcome : MemcoreResult Unit)
      (before : ApiRun state admits allowed organization start requests world)
      (admission : request.prepare state world.facts reading organization = .ok operation)
      (isAllowed : allowed world operation)
      (run : Runs (engineServer state.engine.platform) admits (operation.program state.engine)
        world trace outcome final) :
      ApiRun state admits allowed organization start (request :: requests) final

/-- What every operation that is run keeps is kept by the requests. -/
theorem ApiRun.invariant {state : AppState} {admits : World → Port → Choice → Prop}
    {allowed : World → EngineOperation → Prop} {organization : OrganizationContext}
    {start world : World} {requests : List ApiRequest}
    (run : ApiRun state admits allowed organization start requests world)
    (kept : World → Prop) (initially : kept start)
    (keeps : ∀ request ∈ requests, ∀ reading operation before,
      request.prepare state before.facts reading organization = .ok operation →
      allowed before operation → kept before →
      Ensures (worldSpec state.engine.platform admits) (operation.program state.engine)
        (fun _ final => kept final) before) : kept world := by
  induction run with
  | start => exact initially
  | refused requests request world reading error _ refusal inductionHypothesis =>
    exact inductionHypothesis fun other member => keeps other (List.mem_cons_of_mem _ member)
  | ran requests request world final reading operation trace outcome _ admission isAllowed run
      inductionHypothesis =>
    have earlier := inductionHypothesis fun other member =>
      keeps other (List.mem_cons_of_mem _ member)
    exact run.ensured
      (keeps request List.mem_cons_self reading operation world admission isAllowed earlier)

/-- One request by replay, where no other store is involved. -/
def replayRequest (state : AppState) (admits : World → Port → Choice → Prop)
    [∀ world port choice, Decidable (admits world port choice)]
    (organization : OrganizationContext) (request : ApiRequest) (choices : List Choice)
    (world : World) : Option (EngineOperation × World) :=
  match request.prepare state world.facts {} organization with
  | .error _ => none
  | .ok operation =>
      (replay (engineServer state.engine.platform) admits choices
        (operation.program state.engine) world).map fun run => (operation, run.2.2)

theorem replayRequest_run {state : AppState} {admits : World → Port → Choice → Prop}
    [∀ world port choice, Decidable (admits world port choice)]
    {allowed : World → EngineOperation → Prop} {organization : OrganizationContext}
    {request : ApiRequest} {choices : List Choice} {world final : World}
    {operation : EngineOperation}
    (replayed : replayRequest state admits organization request choices world =
      some (operation, final))
    (isAllowed : ∀ reading operation,
      request.prepare state world.facts reading organization = .ok operation →
        allowed world operation) :
    ApiRun state admits allowed organization world [request] final := by
  unfold replayRequest at replayed
  split at replayed
  · nomatch replayed
  · rename_i asked admission
    obtain ⟨⟨trace, outcome, after⟩, found, same⟩ := Option.map_eq_some_iff.mp replayed
    obtain ⟨rfl, rfl⟩ := Prod.mk.inj same
    have itIsAllowed := isAllowed {} asked admission
    exact .ran [] request world after {} asked trace outcome .start admission itIsAllowed
      (replay_runs _ _ _ _ _ _ found)

end Memcore
