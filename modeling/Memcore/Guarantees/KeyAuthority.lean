import Memcore.Api.Authorization

/-!
# What a request may do is what its key lets it do

The gates and the handlers of a request follow one protocol, whose stage is the key that was
found for the request. Before a key is found the only call is the lookup of the key that the
request carries. After it every call acts for the organization of the key, and a handler's call
comes only if the key has one of the scopes that are asked for.

Requests are interleaved call by call. Along every such run each call that is made for an
organization has a key of it behind it, with one of the scopes that are asked for.
-/
namespace Memcore

open Programs

/-! ## What calls ask for -/

/-- The organization that a call acts for. -/
def ApiCall.orgId : ApiCall → Option String
  | insertApiKey record => some record.orgId
  | revokeApiKey orgId _ | checkRate orgId | handle _ orgId => some orgId
  | listApiKeys query => some query.orgId
  | findByHash _ | newUuid | utcNow => none

/-- The scopes of which the handler of an endpoint asks for one. -/
def Endpoint.scopes : Endpoint → List ApiKeyScope
  | addMemory => [.memoryWrite]
  | searchMemory | listUserMemories | buildContext => [.memoryRead]
  | deleteUserMemory => [.memoryDelete]
  | listUserMemoryEvents => [.auditRead]
  | forgetUser => [.userDelete]
  | exportUserData => [.adminRead, .userDelete, .auditRead]
  | importUserData => [.adminWrite, .memoryWrite]
  | applyRetention => [.adminWrite, .userDelete]
  | searchOrgMemoryEvents => [.adminRead, .adminWrite, .auditRead]
  | runBackgroundJob | applyBackgroundJobRunRetention | upsertOrgPlan | deleteOrgPlan
  | createMemoryUsageSnapshot | applyProviderUsageRetention => [.adminWrite]
  | getOrgSummary | getBackgroundJobs | queryBackgroundJobRuns | listOrgUsers
  | getContextCacheMetrics | getOrgQuotas | getOrgPlan | getProviderUsage
  | getOrgUsageDashboard | queryMemoryUsageSnapshots | getProviderUsageDaily
  | getProviderGuardrails => [.adminRead, .adminWrite]

/-- The scopes of which a call asks for one, if it asks for any. -/
def ApiCall.scopes : ApiCall → Option (List ApiKeyScope)
  | insertApiKey _ | revokeApiKey _ _ => some [.adminWrite]
  | listApiKeys _ => some [.adminRead, .adminWrite]
  | handle endpoint _ => some endpoint.scopes
  | findByHash _ | checkRate _ | newUuid | utcNow => none

/-- The key lets a request make the call: it is a key of the organization that the call acts
for, and has one of the scopes that the call asks for. -/
structure ApiKeyRecord.Permits (record : ApiKeyRecord) (call : ApiCall) : Prop where
  organization : ∀ orgId ∈ call.orgId, record.orgId = orgId
  scope : ∀ scopes ∈ call.scopes, ∃ scope ∈ scopes, scope ∈ record.scopes

/-- The request carries a key with this hash. -/
def Gateway.Presents (gateway : Gateway) (request : HttpRequest) (keyHash : String) : Prop :=
  ∃ token pepper, extractBearerToken request.headers = .ok token ∧
    gateway.pepper = some pepper ∧ keyHash = gateway.hashApiKey pepper token

/-- Keys are looked up in the store. -/
structure Gateway.UsesStore (gateway : Gateway) : Prop where
  authEnabled : gateway.authEnabled = true
  authMode : gateway.authMode = .database

/-- The calls that go with a key. -/
structure GoesWith (record : ApiKeyRecord) (call : ApiCall) : Prop where
  permitted : record.Permits call
  noLookup : ∀ keyHash, call ≠ .findByHash keyHash
  insertsActive : ∀ new, call = .insertApiKey new → new.revokedAt = none

/-- The protocol of a request. Its stage is the key that was found for it. -/
def keyProtocol (gateway : Gateway) (request : HttpRequest) :
    Protocol apiPorts ApiError (Option ApiKeyRecord) where
  allows key call := match key with
    | none => ∃ keyHash, call = .findByHash keyHash ∧ gateway.Presents request keyHash
    | some record => GoesWith record call
  next key call answer := match call, answer with
    | .findByHash _, .ok found => Option.filter ApiKeyRecord.isActive found
    | _, _ => key

/-- A request for which no key was found is refused. -/
def refusedUnlessFound (outcome : ApiResult ApiResponse) (key : Option ApiKeyRecord) : Prop :=
  key = none → ∃ refusal, outcome = .ok (.refused refusal)

/-! ## Handlers -/

section Handlers

variable {record : ApiKeyRecord} {auth : AuthContext} {organization : OrganizationContext}

theorem checkAnyScope_passes {scopes : List ApiKeyScope}
    (passes : checkAnyScope (some auth) scopes = .ok ()) :
    ∃ scope ∈ scopes, scope ∈ auth.scopes := by
  by_cases found : scopes.any auth.hasScope = true
  · simpa [AuthContext.hasScope] using found
  · rw [checkAnyScope, if_neg found] at passes
    nomatch passes

theorem checkScope_passes {scope : ApiKeyScope} (passes : checkScope (some auth) scope = .ok ()) :
    ∃ wanted ∈ [scope], wanted ∈ auth.scopes := by
  by_cases found : auth.hasScope scope = true
  · exact ⟨scope, List.mem_singleton_self scope, by simpa [AuthContext.hasScope] using found⟩
  · rw [checkScope, if_neg found] at passes
    nomatch passes

theorem checkScopes_passes {endpoint : Endpoint}
    (passes : endpoint.checkScopes (some auth) = .ok ()) :
    ∃ scope ∈ endpoint.scopes, scope ∈ auth.scopes := by
  cases endpoint
  all_goals first
    | exact checkScope_passes passes
    | exact checkAnyScope_passes passes

variable (gateway : Gateway) (same : record.scopes = auth.scopes)
  (own : record.orgId = organization.orgId)

include same own

theorem createApiKey_within (request : CreateApiKeyRequest) :
    (gateway.createApiKey organization (some auth) request).Within (GoesWith record) := by
  refine .bind_returns (.check _) (.check fun _ passed => passed) fun _ passed => ?_
  obtain ⟨scope, asked, held⟩ := checkAnyScope_passes passed
  have drawn : GoesWith record .newUuid :=
    ⟨⟨fun _ acts => (nomatch acts), fun _ asks => (nomatch asks)⟩, fun _ => nofun, fun _ => nofun⟩
  have read : GoesWith record .utcNow :=
    ⟨⟨fun _ acts => (nomatch acts), fun _ asks => (nomatch asks)⟩, fun _ => nofun, fun _ => nofun⟩
  refine .bind (.check _) fun (name, scopes) => .bind (.check _) fun pepper => ?_
  refine .bind (.call drawn) fun random => .bind (.call drawn) fun id => ?_
  refine .bind (.call read) fun now => .bind (.call ?_) fun stored => .pure _
  refine ⟨⟨?_, ?_⟩, fun _ => nofun, ?_⟩
  · intro orgId acts
    obtain rfl := Option.some.inj acts
    exact own
  · intro wanted asks
    obtain rfl := Option.some.inj asks
    exact ⟨scope, asked, same ▸ held⟩
  · intro new inserts
    obtain rfl := ApiCall.insertApiKey.inj inserts
    rfl

theorem listApiKeys_within (query : ListApiKeysQuery) :
    (gateway.listApiKeys organization (some auth) query).Within (GoesWith record) := by
  refine .bind_returns (.check _) (.check fun _ passed => passed) fun _ passed => ?_
  obtain ⟨scope, asked, held⟩ := checkAnyScope_passes passed
  by_cases none : query.limit = 0
  · rw [if_pos none]
    exact .fail _
  rw [if_neg none]
  by_cases many : query.limit > maxListApiKeysLimit
  · rw [if_pos many]
    exact .fail _
  rw [if_neg many]
  refine .bind (.check _) fun cursor => .bind (.call ⟨⟨?_, ?_⟩, fun _ => nofun, fun _ => nofun⟩) fun records =>
    .bind (.check _) fun page => .pure _
  · intro orgId acts
    obtain rfl := Option.some.inj acts
    exact own
  · intro wanted asks
    obtain rfl := Option.some.inj asks
    exact ⟨scope, asked, same ▸ held⟩

theorem revokeApiKey_within (apiKeyId : String) :
    (gateway.revokeApiKey organization (some auth) apiKeyId).Within (GoesWith record) := by
  refine .bind_returns (.check _) (.check fun _ passed => passed) fun _ passed => ?_
  obtain ⟨scope, asked, held⟩ := checkAnyScope_passes passed
  split
  · exact .fail _
  · refine .bind (.call ⟨⟨?_, ?_⟩, fun _ => nofun, fun _ => nofun⟩) fun _ => .pure _
    · intro orgId acts
      obtain rfl := Option.some.inj acts
      exact own
    · intro wanted asks
      obtain rfl := Option.some.inj asks
      exact ⟨scope, asked, same ▸ held⟩

theorem handleOther_within (endpoint : Endpoint) :
    (Gateway.handleOther organization (some auth) endpoint).Within (GoesWith record) := by
  refine .bind_returns (.check _) (.check fun _ passed => passed) fun _ passed => ?_
  obtain ⟨scope, asked, held⟩ := checkScopes_passes passed
  refine .bind (.call ⟨⟨?_, ?_⟩, fun _ => nofun, fun _ => nofun⟩) fun _ => .pure _
  · intro orgId acts
    obtain rfl := Option.some.inj acts
    exact own
  · intro wanted asks
    obtain rfl := Option.some.inj asks
    exact ⟨scope, asked, same ▸ held⟩

theorem handler_within (target : RouteTarget) :
    (gateway.handler organization (some auth) target).Within (GoesWith record) := by
  cases target with
  | createApiKey request => exact createApiKey_within gateway same own request
  | listApiKeys query => exact listApiKeys_within gateway same own query
  | revokeApiKey apiKeyId => exact revokeApiKey_within gateway same own apiKeyId
  | other endpoint => exact handleOther_within same own endpoint

theorem enforceRateLimit_within (target : RouteTarget) :
    (gateway.enforceRateLimit organization (some auth) target).Within (GoesWith record) := by
  have counted : GoesWith record (.checkRate organization.orgId) := by
    refine ⟨⟨?_, fun _ asks => nomatch asks⟩, fun _ => nofun, fun _ => nofun⟩
    intro orgId acts
    obtain rfl := Option.some.inj acts
    exact own
  refine .bind (.call counted) fun decision => ?_
  cases decision with
  | limited retryAfterSecs => exact .pure _
  | allowed =>
    refine .bind (Program.Within.attempt (handler_within gateway same own target)) fun outcome => ?_
    cases outcome with
    | ok response => exact .pure _
    | error error => exact .pure _

end Handlers

/-! ## One request -/

section Requests

variable {gateway : Gateway} (request : HttpRequest)

/-- A program whose calls all go with a key leaves it at that key. -/
theorem ensures_with_key {record : ApiKeyRecord} {program : ApiProgram ApiResponse}
    (within : program.Within (GoesWith record)) :
    Ensures (keyProtocol gateway request).spec program refusedUnlessFound (some record) := by
  have stays : Ensures (keyProtocol gateway request).spec program
      (fun _ later => later = some record) (some record) := by
    refine Program.Within.stays _ (fun _ (goes : GoesWith record _) => goes) ?_ within
    intro call answer goes
    cases call with
    | findByHash keyHash => exact absurd rfl (goes.noLookup keyHash)
    | _ => rfl
  apply stays.mono (keyProtocol gateway request).spec_monotone
  intro outcome later still absent
  rw [still] at absent
  nomatch absent

theorem requireOrganization_ok {key : KeyContext} {headers : Headers}
    {organization : OrganizationContext}
    (passes : requireOrganization (some key) headers = .ok organization) :
    key.orgId = organization.orgId := by
  unfold requireOrganization at passes
  obtain ⟨named, _, passes⟩ := (bind_ok _ _ _).mp passes
  by_cases different : key.orgId = named.orgId
  · rw [if_neg (by simpa using different)] at passes
    obtain rfl := Except.ok.inj passes
    exact different
  · rw [if_pos (by simpa using different)] at passes
    nomatch passes

/-- Either the request is refused, or its context is that of the key that was found. -/
def authenticates (outcome : ApiResult (Except Refusal KeyContext)) (key : Option ApiKeyRecord) :
    Prop :=
  (∃ refusal, outcome = .ok (.error refusal)) ∨
    ∃ record, key = some record ∧ outcome = .ok (.ok ⟨⟨record.scopes⟩, record.orgId, record.id⟩)

theorem validateDatabaseAuthorization_follows :
    Ensures (keyProtocol gateway request).spec
      (gateway.validateDatabaseAuthorization request.headers) authenticates none := by
  unfold Gateway.validateDatabaseAuthorization
  split
  · rename_i refusal _
    exact (ensures_pure _ _ _ _).mpr (.inl ⟨refusal, rfl⟩)
  · rename_i token presented
    split
    · exact (ensures_pure _ _ _ _).mpr (.inl ⟨_, rfl⟩)
    · rename_i pepper seasoned
      rw [ensures_bind, ensures_attempt, apiCall]
      refine (ensures_call _ _ _ _).mpr
        ⟨⟨_, rfl, token, pepper, presented, seasoned, rfl⟩, fun answer => ?_⟩
      cases answer with
      | error error => exact (ensures_pure _ _ _ _).mpr (.inl ⟨_, rfl⟩)
      | ok found =>
        show Ensures (keyProtocol gateway request).spec
          (match Option.filter ApiKeyRecord.isActive found with
            | none => pure (.error .invalidApiKey)
            | some record => pure (.ok ⟨⟨record.scopes⟩, record.orgId, record.id⟩))
          authenticates (Option.filter ApiKeyRecord.isActive found)
        cases Option.filter ApiKeyRecord.isActive found with
        | none => exact (ensures_pure _ _ _ _).mpr (.inl ⟨_, rfl⟩)
        | some record => exact (ensures_pure _ _ _ _).mpr (.inr ⟨record, rfl, rfl⟩)

/-- A request follows its protocol from the beginning. -/
theorem serve_follows (uses : gateway.UsesStore) :
    Ensures (keyProtocol gateway request).spec (gateway.serve request) refusedUnlessFound none := by
  have required : gateway.requireApiKey request.headers = (do
      let validated ← gateway.validateDatabaseAuthorization request.headers
      return validated.map some) := by
    rw [Gateway.requireApiKey, uses.authEnabled, uses.authMode]
    rfl
  rw [Gateway.serve, required, Program.bind_assoc, ensures_bind]
  apply (validateDatabaseAuthorization_follows request).mono
    (keyProtocol gateway request).spec_monotone
  rintro outcome key (⟨refusal, rfl⟩ | ⟨record, rfl, rfl⟩)
  · exact (ensures_pure _ _ _ _).mpr fun _ => ⟨refusal, rfl⟩
  · simp only [Except.map, andThen_ok, ensures_bind, ensures_pure]
    split
    · rename_i refusal _
      exact (ensures_pure _ _ _ _).mpr fun _ => ⟨refusal, rfl⟩
    · rename_i organization passes
      exact ensures_with_key request
        (enforceRateLimit_within gateway rfl (requireOrganization_ok passes) request.target)

end Requests

/-! ## Requests together -/

abbrev ApiPool (σ : Type) := Pool apiPorts ApiError ApiResponse (ApiWorld σ)

abbrev ApiTrace := Programs.History apiPorts ApiError

/-- Nothing is asked of the scheduler or of the surroundings. -/
abbrev anyApiStep {σ : Type} : ApiWorld σ → ApiTrace → ℕ → ApiCall → ApiChoice → Prop :=
  fun _ _ _ _ _ => True

/-- Requests that have not made a call yet. -/
def Gateway.waiting {σ : Type} (gateway : Gateway) (requests : ℕ → HttpRequest)
    (world : ApiWorld σ) : ApiPool σ :=
  Pool.start world fun thread => gateway.serve (requests thread)

/-- A pool that requests lead to, in any order of their calls. -/
abbrev Gateway.Leads {σ : Type} (gateway : Gateway) (store : ApiKeyStore σ)
    (requests : ℕ → HttpRequest) (world : ApiWorld σ) (pool : ApiPool σ) : Prop :=
  Pool.Reaches (apiServer store) anyApiStep (gateway.waiting requests world) pool

/-- The key was looked up for a request and found active. -/
def Gateway.FoundFor (gateway : Gateway) (requests : ℕ → HttpRequest) (trace : ApiTrace)
    (thread : ℕ) (record : ApiKeyRecord) : Prop :=
  record.isActive = true ∧ ∃ keyHash, gateway.Presents (requests thread) keyHash ∧
    (thread, ⟨.findByHash keyHash, .ok (some record)⟩) ∈ trace

/-- Apart from the lookup of its own key, a request makes no call that the key found for it
does not permit. -/
def Gateway.Authorized (gateway : Gateway) (requests : ℕ → HttpRequest) (thread : ℕ)
    (event : Event apiPorts ApiError) (earlier : ApiTrace) : Prop :=
  (∃ keyHash, event.call = .findByHash keyHash ∧ gateway.Presents (requests thread) keyHash) ∨
    ∃ record, gateway.FoundFor requests earlier thread record ∧ record.Permits event.call

section Together

variable {σ : Type} {gateway : Gateway} {store : ApiKeyStore σ} {requests : ℕ → HttpRequest}
  {world : ApiWorld σ}

/-- The keys of the stages are those that were found. -/
def KeysFound (gateway : Gateway) (requests : ℕ → HttpRequest) (trace : ApiTrace)
    (stages : ℕ → Option ApiKeyRecord) : Prop :=
  ∀ thread record, stages thread = some record → gateway.FoundFor requests trace thread record

theorem Gateway.FoundFor.later {trace : ApiTrace} {thread : ℕ} {record : ApiKeyRecord}
    (found : gateway.FoundFor requests trace thread record)
    (entry : ℕ × Event apiPorts ApiError) :
    gateway.FoundFor requests (entry :: trace) thread record := by
  obtain ⟨active, keyHash, presents, listed⟩ := found
  exact ⟨active, keyHash, presents, List.mem_cons_of_mem _ listed⟩

variable {trace : ApiTrace} {stages : ℕ → Option ApiKeyRecord} {thread : ℕ} {call : ApiCall}

/-- The key of a stage after a call was the key before it, or was found by the call. -/
theorem keyProtocol_next {request : HttpRequest} {key : Option ApiKeyRecord}
    {answer : ApiResult call.Answer} {record : ApiKeyRecord}
    (allowed : (keyProtocol gateway request).allows key call)
    (next : (keyProtocol gateway request).next key call answer = some record) :
    key = some record ∨ record.isActive = true ∧ ∃ keyHash, gateway.Presents request keyHash ∧
      (⟨call, answer⟩ : Event apiPorts ApiError) = ⟨.findByHash keyHash, .ok (some record)⟩ := by
  cases key with
  | none =>
    obtain ⟨keyHash, rfl, presents⟩ := allowed
    cases answer with
    | error error => nomatch next
    | ok found =>
      obtain ⟨same, active⟩ := Option.filter_eq_some_iff.mp
        (show Option.filter ApiKeyRecord.isActive found = some record from next)
      exact .inr ⟨active, keyHash, presents, by rw [same]⟩
  | some own =>
    have goes : GoesWith own call := allowed
    left
    cases call with
    | findByHash keyHash => exact absurd rfl (goes.noLookup keyHash)
    | _ => exact next

theorem KeysFound.step (known : KeysFound gateway requests trace stages)
    (allowed : (keyProtocol gateway (requests thread)).allows (stages thread) call)
    (answer : ApiResult call.Answer) :
    KeysFound gateway requests ((thread, ⟨call, answer⟩) :: trace)
      (Function.update stages thread
        ((keyProtocol gateway (requests thread)).next (stages thread) call answer)) := by
  intro other record reached
  by_cases same : other = thread
  · subst same
    rw [Function.update_self] at reached
    rcases keyProtocol_next allowed reached with before | ⟨active, keyHash, presents, event⟩
    · exact (known other record before).later _
    · exact ⟨active, keyHash, presents, by rw [event]; exact List.mem_cons_self⟩
  · rw [Function.update_of_ne same] at reached
    exact (known other record reached).later _

/-- An allowed call is authorized. -/
theorem KeysFound.authorizes (known : KeysFound gateway requests trace stages)
    (allowed : (keyProtocol gateway (requests thread)).allows (stages thread) call)
    (answer : ApiResult call.Answer) :
    gateway.Authorized requests thread ⟨call, answer⟩ trace := by
  cases key : stages thread with
  | none =>
    rw [key] at allowed
    exact .inl allowed
  | some record =>
    rw [key] at allowed
    exact .inr ⟨record, known thread record key, GoesWith.permitted allowed⟩

/-- What every call of a request keeps, whatever the keys are. -/
structure CallsKept (gateway : Gateway) (requests : ℕ → HttpRequest) (_ : ApiWorld σ)
    (trace : ApiTrace) (stages : ℕ → Option ApiKeyRecord) : Prop where
  found : KeysFound gateway requests trace stages
  authorized : Throughout (gateway.Authorized requests) trace

/-- Requests keep to their protocols, and their keys are those that were found for them. -/
theorem stages_of_leads (uses : gateway.UsesStore) {pool : ApiPool σ}
    (leads : gateway.Leads store requests world pool) :
    ∃ stages, CallsKept gateway requests pool.world pool.trace stages ∧
      Pool.Follow (fun thread => keyProtocol gateway (requests thread))
        (fun _ => refusedUnlessFound) pool stages := by
  refine Pool.Reaches.invariant leads ?_ (fun thread => serve_follows (requests thread) uses)
    ⟨fun thread record reached => (nomatch reached), trivial⟩
  rintro world trace stages thread call choice ⟨known, throughout⟩ allowed _ _
  exact ⟨known.step allowed _, known.authorizes allowed _, throughout⟩

end Together

/-! ## A request that makes a key -/

def sampleGateway : Gateway where
  authEnabled := true
  authMode := .database
  devApiKey := ""
  apiKeyPepper := some "pepper"
  hashApiKey pepper rawKey := pepper ++ ":" ++ rawKey
  parseUuid _ := some 1
  encoding := ⟨fun _ => .error "", fun _ => .error "", fun _ => "", fun _ => .error ""⟩

/-- A key with the scope to make keys. -/
def sampleMaker : ApiKeyRecord where
  id := 1
  orgId := "acme"
  name := "first"
  keyHash := "pepper:root"
  scopes := [.adminWrite]
  createdAt := 0
  revokedAt := none

def sampleHeaders : Headers where
  authorization := some (asBytes "Bearer root")
  organization := some (asBytes " acme")

def sampleCreation : HttpRequest := ⟨sampleHeaders, .createApiKey ⟨"second", ["AdminWrite"]⟩⟩

def sampleChoice : ApiChoice := ⟨none, 5, 0, 7, .ok ()⟩

end Memcore
