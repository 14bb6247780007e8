import Memcore.Api.ApiKeys
import Memcore.Api.RateLimiter
import Memcore.Stores.Cursors

/-!
# Requests and the keys that they carry

A request for a protected route passes three gates before its handler runs: its key is looked
up, the organization that it names is compared with the key's, and the organization's requests
are counted. The handler then checks the scopes of the key. Requests share the store of keys
and the counts, so that the key of a request may be revoked while the request goes on.

The handlers of keys are modelled whole. What any other handler does after it has checked the
scopes is one call of the surroundings, which leaves the keys alone.
-/
namespace Memcore

open Pages Programs

/-! ## Headers -/

/-- The bytes of a header's value. -/
abbrev HeaderValue := List UInt8

/-- A header's value as a text, if all of it is visible ASCII. -/
def HeaderValue.toStr (value : HeaderValue) : Option String :=
  if value.all fun byte => (decide (32 ≤ byte) && decide (byte < 127)) || byte == 9 then
    some (String.ofList (value.map fun byte => Char.ofNat byte.toNat))
  else none

/-- The first value of each header that the gates read. -/
structure Headers where
  authorization : Option HeaderValue
  organization : Option HeaderValue

inductive StatusCode where
  | badRequest | unauthorized | forbidden | internalServerError
  deriving DecidableEq

/-- How a gate refuses a request. -/
structure Refusal where
  status : StatusCode
  code : String
  message : String
  deriving DecidableEq

namespace Refusal

def missingAuthorization : Refusal :=
  ⟨.unauthorized, "UNAUTHORIZED", "missing authorization header"⟩

def invalidAuthorization : Refusal :=
  ⟨.unauthorized, "UNAUTHORIZED", "invalid authorization header"⟩

def invalidApiKey : Refusal := ⟨.unauthorized, "UNAUTHORIZED", "invalid api key"⟩

def pepperNotConfigured : Refusal :=
  ⟨.internalServerError, "INTERNAL_ERROR", "api key pepper is not configured"⟩

def failedValidation : Refusal :=
  ⟨.internalServerError, "INTERNAL_ERROR", "failed to validate api key"⟩

def organizationMismatch : Refusal :=
  ⟨.forbidden, "FORBIDDEN", "organization header does not match api key"⟩

def invalidOrganization (message : String) : Refusal :=
  ⟨.badRequest, "VALIDATION_ERROR", message⟩

end Refusal

def bearerPrefix : String := "Bearer "

def extractBearerToken (headers : Headers) : Except Refusal String :=
  match headers.authorization with
  | none => .error .missingAuthorization
  | some value =>
      match value.toStr with
      | none => .error .invalidAuthorization
      | some header =>
          if Texts.startsWith header bearerPrefix then
            let token := String.ofList (header.toList.drop bearerPrefix.length)
            if token = "" then .error .invalidAuthorization else .ok token
          else .error .invalidAuthorization

def extractOrganization (headers : Headers) : Except Refusal OrganizationContext :=
  match headers.organization with
  | none => .error (.invalidOrganization "missing X-Organization-ID header")
  | some value =>
      match value.toStr with
      | none => .error (.invalidOrganization "X-Organization-ID must be valid UTF-8")
      | some header =>
          let orgId := Texts.trim header
          if orgId = "" then .error (.invalidOrganization "X-Organization-ID cannot be empty")
          else .ok ⟨orgId⟩

/-! ## Routes -/

/-- The handlers of protected routes, those of keys apart. -/
inductive Endpoint where
  | addMemory | searchMemory | listUserMemories | deleteUserMemory | buildContext
  | listUserMemoryEvents | exportUserData | importUserData | applyRetention | forgetUser
  | getOrgSummary | getBackgroundJobs | queryBackgroundJobRuns
  | applyBackgroundJobRunRetention | runBackgroundJob | listOrgUsers | searchOrgMemoryEvents
  | getContextCacheMetrics | getOrgQuotas | getOrgPlan | upsertOrgPlan | deleteOrgPlan
  | getProviderUsage | getOrgUsageDashboard | createMemoryUsageSnapshot
  | queryMemoryUsageSnapshots | getProviderUsageDaily | applyProviderUsageRetention
  | getProviderGuardrails
  deriving DecidableEq

/-- The check that a handler begins with. -/
def Endpoint.checkScopes (auth : Option AuthContext) : Endpoint → ApiResult Unit
  | addMemory => checkScope auth .memoryWrite
  | searchMemory | listUserMemories | buildContext => checkScope auth .memoryRead
  | deleteUserMemory => checkScope auth .memoryDelete
  | listUserMemoryEvents => checkScope auth .auditRead
  | forgetUser => checkScope auth .userDelete
  | exportUserData => checkAnyScope auth [.adminRead, .userDelete, .auditRead]
  | importUserData => checkAnyScope auth [.adminWrite, .memoryWrite]
  | applyRetention => checkAnyScope auth [.adminWrite, .userDelete]
  | searchOrgMemoryEvents => checkAnyScope auth [.adminRead, .adminWrite, .auditRead]
  | runBackgroundJob | applyBackgroundJobRunRetention | upsertOrgPlan | deleteOrgPlan
  | createMemoryUsageSnapshot | applyProviderUsageRetention => checkAnyScope auth [.adminWrite]
  | getOrgSummary | getBackgroundJobs | queryBackgroundJobRuns | listOrgUsers
  | getContextCacheMetrics | getOrgQuotas | getOrgPlan | getProviderUsage
  | getOrgUsageDashboard | queryMemoryUsageSnapshots | getProviderUsageDaily
  | getProviderGuardrails => checkAnyScope auth [.adminRead, .adminWrite]

structure CreateApiKeyRequest where
  name : String
  scopes : List String

structure ListApiKeysQuery where
  includeRevoked : Bool
  limit : ℕ
  cursor : Option String

def maxListApiKeysLimit : ℕ := 100

/-- What a request asks for. -/
inductive RouteTarget where
  | createApiKey (request : CreateApiKeyRequest)
  | listApiKeys (query : ListApiKeysQuery)
  | revokeApiKey (apiKeyId : String)
  | other (endpoint : Endpoint)

structure HttpRequest where
  headers : Headers
  target : RouteTarget

def parseApiKeyScopeLabel (value : String) : MemcoreResult ApiKeyScope :=
  match Texts.trim value with
  | "MemoryRead" => .ok .memoryRead
  | "MemoryWrite" => .ok .memoryWrite
  | "MemoryDelete" => .ok .memoryDelete
  | "UserDelete" => .ok .userDelete
  | "AuditRead" => .ok .auditRead
  | "AdminRead" => .ok .adminRead
  | "AdminWrite" => .ok .adminWrite
  | _ => .error (.validationError "invalid API key scope")

def parseCreateApiKeyRequest (request : CreateApiKeyRequest) :
    MemcoreResult (String × List ApiKeyScope) :=
  let name := Texts.trim request.name
  if name = "" then .error (.validationError "name cannot be empty")
  else if request.scopes.isEmpty then .error (.validationError "scopes cannot be empty")
  else (request.scopes.mapM parseApiKeyScopeLabel).map fun scopes => (name, scopes)

/-! ## Calls -/

inductive ApiCall where
  | findByHash (keyHash : String)
  | insertApiKey (record : ApiKeyRecord)
  | revokeApiKey (orgId : String) (keyId : Uuid)
  | listApiKeys (query : ApiKeyListQuery)
  | checkRate (orgId : String)
  | newUuid
  | utcNow
  | handle (endpoint : Endpoint) (orgId : String)

abbrev ApiCall.Answer : ApiCall → Type
  | findByHash _ => Option ApiKeyRecord
  | insertApiKey _ => ApiKeyRecord
  | revokeApiKey _ _ => Unit
  | listApiKeys _ => List ApiKeyRecord
  | checkRate _ => RateLimitDecision
  | newUuid => Uuid
  | utcNow => Instant
  | handle _ _ => Unit

abbrev apiPorts : Interface := ⟨ApiCall, ApiCall.Answer⟩

abbrev ApiProgram (α : Type) := Program apiPorts ApiError α

def apiCall (request : ApiCall) : ApiProgram request.Answer :=
  @Program.call apiPorts ApiError request

inductive ApiResponse where
  | refused (refusal : Refusal)
  | rateLimited (retryAfterSecs : ℕ)
  | failed (error : ApiError)
  | created (apiKey : ApiKeyRecord) (rawKey : String)
  | listed (page : Page ApiKeyRecord String)
  | revoked
  | handled

/-! ## Gates and handlers -/

inductive AuthMode where
  | dev | database
  deriving DecidableEq

/-- Whose key a request carries. -/
structure KeyContext extends AuthContext where
  orgId : String
  apiKeyId : Uuid

/-- The settings of the gates, and the libraries that they and the handlers of keys use. -/
structure Gateway where
  authEnabled : Bool
  authMode : AuthMode
  devApiKey : String
  apiKeyPepper : Option String
  hashApiKey (pepper rawKey : String) : String
  parseUuid (text : String) : Option Uuid
  encoding : CursorEncoding

def devModePepper : String := "memcore-dev-pepper"

/-- A new key: a mark, and the digits of a random identifier. -/
def generateRawApiKey (random : Uuid) : String :=
  "mc_live_" ++ String.ofList (hexDigits 32 random.val)

def validateDevAuthorization (headers : Headers) (expectedKey : String) : Except Refusal Unit := do
  let token ← extractBearerToken headers
  if token ≠ expectedKey then .error .invalidApiKey else .ok ()

def requireOrganization (auth : Option KeyContext) (headers : Headers) :
    Except Refusal OrganizationContext := do
  let organization ← extractOrganization headers
  if auth.any fun auth => decide (auth.orgId ≠ organization.orgId) then
    .error .organizationMismatch
  else .ok organization

namespace Gateway

variable (gateway : Gateway)

/-- The pepper, unless it is blank. -/
def pepper : Option String := gateway.apiKeyPepper.filter fun value => !Texts.isBlank value

def validateDatabaseAuthorization (headers : Headers) :
    ApiProgram (Except Refusal KeyContext) :=
  match extractBearerToken headers with
  | .error refusal => return .error refusal
  | .ok token =>
      match gateway.pepper with
      | none => return .error .pepperNotConfigured
      | some pepper => do
          match ← (apiCall (.findByHash (gateway.hashApiKey pepper token))).attempt with
          | .error _ => return .error .failedValidation
          | .ok found =>
              match found.filter ApiKeyRecord.isActive with
              | none => return .error .invalidApiKey
              | some record => return .ok ⟨⟨record.scopes⟩, record.orgId, record.id⟩

/-- The key of a request, if keys are asked for. In the mode for development all requests
carry one key that belongs to no organization. -/
def requireApiKey (headers : Headers) : ApiProgram (Except Refusal (Option KeyContext)) :=
  if !gateway.authEnabled then return .ok none
  else match gateway.authMode with
    | .dev => return (validateDevAuthorization headers gateway.devApiKey).map fun _ => none
    | .database => do
        let validated ← gateway.validateDatabaseAuthorization headers
        return validated.map some

def resolveApiKeyPepper : ApiResult String :=
  match gateway.pepper with
  | some pepper => .ok pepper
  | none =>
      if gateway.authMode = .dev then .ok devModePepper
      else .error (.memcore (.internal "api key pepper is not configured"))

def createApiKey (organization : OrganizationContext) (auth : Option AuthContext)
    (request : CreateApiKeyRequest) : ApiProgram ApiResponse := do
  .check (checkAnyScope auth [.adminWrite])
  let (name, scopes) ← .check (orRespond (parseCreateApiKeyRequest request))
  let pepper ← .check gateway.resolveApiKeyPepper
  let random ← apiCall .newUuid
  let rawKey := generateRawApiKey random
  let id ← apiCall .newUuid
  let now ← apiCall .utcNow
  let stored ← apiCall (.insertApiKey {
    id := id
    orgId := organization.orgId
    name := name
    keyHash := gateway.hashApiKey pepper rawKey
    scopes := scopes
    createdAt := now
    revokedAt := none })
  return .created stored rawKey

def listApiKeys (organization : OrganizationContext) (auth : Option AuthContext)
    (query : ListApiKeysQuery) : ApiProgram ApiResponse := do
  .check (checkAnyScope auth [.adminRead, .adminWrite])
  if query.limit = 0 then
    .fail (.memcore (.validationError "limit must be greater than 0"))
  else if query.limit > maxListApiKeysLimit then
    .fail (.memcore (.validationError ("limit cannot exceed " ++ toString maxListApiKeysLimit)))
  else
    let cursor ← .check (orRespond (parseOptionalCursor gateway.encoding query.cursor))
    let records ← apiCall (.listApiKeys
      ⟨organization.orgId, query.includeRevoked, query.limit, cursor⟩)
    let page ← .check (orRespond (buildPage gateway.encoding records query.limit
      fun record => ⟨Uuid.toText record.id, record.createdAt⟩))
    return .listed page

def revokeApiKey (organization : OrganizationContext) (auth : Option AuthContext)
    (apiKeyId : String) : ApiProgram ApiResponse := do
  .check (checkAnyScope auth [.adminWrite])
  match gateway.parseUuid (Texts.trim apiKeyId) with
  | none => .fail (.memcore (.validationError "invalid api_key_id"))
  | some keyId =>
      apiCall (.revokeApiKey organization.orgId keyId)
      return .revoked

def handleOther (organization : OrganizationContext) (auth : Option AuthContext)
    (endpoint : Endpoint) : ApiProgram ApiResponse := do
  .check (endpoint.checkScopes auth)
  apiCall (.handle endpoint organization.orgId)
  return .handled

def handler (organization : OrganizationContext) (auth : Option AuthContext) :
    RouteTarget → ApiProgram ApiResponse
  | .createApiKey request => gateway.createApiKey organization auth request
  | .listApiKeys query => gateway.listApiKeys organization auth query
  | .revokeApiKey apiKeyId => gateway.revokeApiKey organization auth apiKeyId
  | .other endpoint => handleOther organization auth endpoint

/-- The gate behind the others, and the handler; a failure of the handler is a response. -/
def enforceRateLimit (organization : OrganizationContext) (auth : Option AuthContext)
    (target : RouteTarget) : ApiProgram ApiResponse := do
  match ← apiCall (.checkRate organization.orgId) with
  | .limited retryAfterSecs => return .rateLimited retryAfterSecs
  | .allowed =>
      match ← (gateway.handler organization auth target).attempt with
      | .ok response => return response
      | .error error => return .failed error

/-- A request on its way through the gates. -/
def serve (request : HttpRequest) : ApiProgram ApiResponse := do
  match ← gateway.requireApiKey request.headers with
  | .error refusal => return .refused refusal
  | .ok auth =>
      match requireOrganization auth request.headers with
      | .error refusal => return .refused refusal
      | .ok organization =>
          gateway.enforceRateLimit organization (auth.map KeyContext.toAuthContext)
            request.target

end Gateway

/-! ## The surroundings -/

/-- What requests share. -/
structure ApiWorld (σ : Type) where
  keys : σ
  limiter : RateLimiter

/-- What the surroundings contribute to the answer of a call. A failure of the store comes
before any effect. -/
structure ApiChoice where
  fault : Option MemcoreError
  now : Instant
  tick : Tick
  random : Uuid
  handled : ApiResult Unit

section Server

variable {σ : Type} (store : ApiKeyStore σ)

def ApiChoice.orFault {α : Type} (choice : ApiChoice) (answer : MemcoreResult α) : ApiResult α :=
  match choice.fault with
  | some error => .error (.memcore error)
  | none => orRespond answer

/-- A change of the keys, unless the store fails before it. -/
def ApiChoice.change {α : Type} (choice : ApiChoice) (operation : σ → MemcoreResult α × σ)
    (world : ApiWorld σ) : ApiResult α × ApiWorld σ :=
  match choice.fault with
  | some error => (.error (.memcore error), world)
  | none => (orRespond (operation world.keys).1, { world with keys := (operation world.keys).2 })

def serveApiCall (choice : ApiChoice) :
    (call : ApiCall) → ApiWorld σ → ApiResult call.Answer × ApiWorld σ
  | .findByHash keyHash, world => (choice.orFault (store.findByHash keyHash world.keys), world)
  | .insertApiKey record, world => choice.change (store.insertApiKey record) world
  | .revokeApiKey orgId keyId, world =>
      choice.change (store.revokeApiKey choice.now orgId keyId) world
  | .listApiKeys query, world => (choice.orFault (store.listApiKeys query world.keys), world)
  | .checkRate orgId, world =>
      let checked := world.limiter.check choice.tick orgId
      (.ok checked.1, { world with limiter := checked.2 })
  | .newUuid, world => (.ok choice.random, world)
  | .utcNow, world => (.ok choice.now, world)
  | .handle _ _, world => (choice.handled, world)

def apiServer : Server apiPorts ApiError (ApiWorld σ) ApiChoice where
  ready _ _ _ := true
  serve := serveApiCall store

end Server

end Memcore
