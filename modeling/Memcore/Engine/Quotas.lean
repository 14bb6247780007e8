import Memcore.Stores.FactStore

/-!
# Quotas of an organisation

Before a memory is written, the active facts of the organisation and of the user and the
users with active facts are counted and compared with the limits, those of an active plan
of the organisation or else the global ones. The sums of the source saturate at the largest
64-bit number, which no count of stored rows comes near. The daily usage of providers is
part of the report, but no limit on writing reads it.
-/
namespace Memcore

structure OrgQuotaLimits where
  enabled : Bool
  maxUsersPerOrg : Option ℕ
  maxMemoriesPerUser : Option ℕ
  maxMemoriesPerOrg : Option ℕ
  dailyProviderRequestLimit : Option ℕ
  dailyProviderTokenLimit : Option ℕ

structure OrgPlanLimits where
  maxUsersPerOrg : Option ℕ
  maxMemoriesPerUser : Option ℕ
  maxMemoriesPerOrg : Option ℕ
  dailyProviderRequestLimit : Option ℕ
  dailyProviderTokenLimit : Option ℕ

def OrgPlanLimits.toQuotaLimits (limits : OrgPlanLimits) (enabled : Bool) : OrgQuotaLimits where
  enabled := enabled
  maxUsersPerOrg := limits.maxUsersPerOrg
  maxMemoriesPerUser := limits.maxMemoriesPerUser
  maxMemoriesPerOrg := limits.maxMemoriesPerOrg
  dailyProviderRequestLimit := limits.dailyProviderRequestLimit
  dailyProviderTokenLimit := limits.dailyProviderTokenLimit

structure OrgPlanConfig where
  limits : OrgPlanLimits
  isActive : Bool

inductive QuotaLimitSource where
  | globalConfig | orgPlan
  deriving DecidableEq

structure ResolvedOrgQuotaLimits where
  source : QuotaLimitSource
  limits : OrgQuotaLimits

inductive QuotaLimitKind where
  | usersPerOrg | memoriesPerUser | memoriesPerOrg | dailyProviderRequests | dailyProviderTokens
  deriving DecidableEq

def QuotaLimitKind.asStr : QuotaLimitKind → String
  | usersPerOrg => "UsersPerOrg"
  | memoriesPerUser => "MemoriesPerUser"
  | memoriesPerOrg => "MemoriesPerOrg"
  | dailyProviderRequests => "DailyProviderRequests"
  | dailyProviderTokens => "DailyProviderTokens"

def quotaMessage : QuotaLimitKind → String
  | .usersPerOrg => "organization user limit exceeded"
  | .memoriesPerUser => "user memory limit exceeded"
  | .memoriesPerOrg => "organization memory limit exceeded"
  | .dailyProviderRequests => "daily provider request limit exceeded"
  | .dailyProviderTokens => "daily provider token limit exceeded"

structure QuotaViolation where
  kind : QuotaLimitKind
  limit : ℕ
  current : ℕ
  requested : ℕ
  message : String

def QuotaViolation.new (kind : QuotaLimitKind) (limit current requested : ℕ) : QuotaViolation :=
  ⟨kind, limit, current, requested, quotaMessage kind⟩

def QuotaViolation.intoError (violation : QuotaViolation) : MemcoreError :=
  .quotaExceeded violation.message violation.kind.asStr violation.limit violation.current
    violation.requested

structure OrgQuotaUsage where
  orgId : String
  totalUsers : ℕ
  totalMemories : ℕ
  userMemoryCount : Option ℕ
  dailyProviderRequests : ℕ
  dailyProviderTokens : ℕ

structure QuotaCheckResult where
  allowed : Bool
  source : QuotaLimitSource
  violations : List QuotaViolation
  usage : OrgQuotaUsage
  limits : OrgQuotaLimits

structure CheckMemoryWriteQuotaInput where
  orgId : String
  userId : String
  requestedNewMemories : ℕ

/-! ## Counting -/

namespace MockFactStore

variable (store : MockFactStore)

def countFactsByOrg (orgId : String) : ℕ :=
  (store.activeFacts.filter fun fact => decide (fact.orgId = orgId)).length

def countFactsByUser (tenant : TenantContext) : ℕ :=
  (store.activeFacts.filter fun fact => decide (fact.tenant = tenant)).length

/-- The users with active facts, each of them once. -/
def usersByOrg (orgId : String) : List String :=
  ((store.activeFacts.filter fun fact => decide (fact.orgId = orgId)).map Fact.userId).dedup

def countUsersByOrg (orgId : String) : ℕ := (store.usersByOrg orgId).length

end MockFactStore

/-! ## The check -/

/-- What the service is set up with, and the plans that are stored. -/
structure QuotaService where
  orgPlans : String → Option OrgPlanConfig
  globalLimits : OrgQuotaLimits

/-- What the stores contribute to a check: whether reading the plan or counting the facts
fails, and the requests and tokens of the day. -/
structure QuotaReading where
  planFault : Option MemcoreError := none
  countFault : Option MemcoreError := none
  dailyUsage : MemcoreResult (ℕ × ℕ) := .ok (0, 0)

namespace QuotaService

variable (service : QuotaService)

/-- The limits of an active plan, or else the global ones. -/
def limitsOf (orgId : String) : ResolvedOrgQuotaLimits :=
  match service.orgPlans orgId with
  | some plan =>
      if plan.isActive then ⟨.orgPlan, plan.limits.toQuotaLimits service.globalLimits.enabled⟩
      else ⟨.globalConfig, service.globalLimits⟩
  | none => ⟨.globalConfig, service.globalLimits⟩

def resolveOrgQuotaLimits (reading : QuotaReading) (orgId : String) :
    MemcoreResult ResolvedOrgQuotaLimits :=
  match reading.planFault with
  | some error => .error error
  | none => .ok (service.limitsOf orgId)

/-- The facts of a user are only counted when a user is given. -/
def countOfUser (facts : MockFactStore) (orgId : String) :
    Option String → MemcoreResult (Option ℕ)
  | some userId => do
      validateTenant ⟨orgId, userId⟩
      return some (facts.countFactsByUser ⟨orgId, userId⟩)
  | none => .ok none

def collectUsage (facts : MockFactStore) (reading : QuotaReading) (orgId : String)
    (userId : Option String) : MemcoreResult OrgQuotaUsage := do
  reading.countFault.elim (.ok ()) .error
  let userMemoryCount ← countOfUser facts orgId userId
  let daily ← reading.dailyUsage
  return ⟨orgId, facts.countUsersByOrg orgId, facts.countFactsByOrg orgId, userMemoryCount,
    daily.1, daily.2⟩

/-- One violation if a sum exceeds a limit that is set. -/
def violationWhen (kind : QuotaLimitKind) (limit : Option ℕ) (current requested : ℕ) :
    List QuotaViolation :=
  match limit with
  | some limit => if current + requested > limit then [.new kind limit current requested] else []
  | none => []

/-- The limits on writing; those on a user are only evaluated for a user. -/
def evaluateMemoryLimits (limits : OrgQuotaLimits) (usage : OrgQuotaUsage)
    (requestedNewMemories : ℕ) : List QuotaViolation :=
  violationWhen .memoriesPerOrg limits.maxMemoriesPerOrg usage.totalMemories
    requestedNewMemories ++
  match usage.userMemoryCount with
  | some current =>
      violationWhen .memoriesPerUser limits.maxMemoriesPerUser current requestedNewMemories ++
      violationWhen .usersPerOrg limits.maxUsersPerOrg usage.totalUsers
        (if current = 0 then 1 else 0)
  | none => []

def checkMemoryWriteAllowed (facts : MockFactStore) (reading : QuotaReading)
    (input : CheckMemoryWriteQuotaInput) : MemcoreResult QuotaCheckResult := do
  let resolved ← service.resolveOrgQuotaLimits reading input.orgId
  let usage ← collectUsage facts reading input.orgId (some input.userId)
  let violations :=
    if resolved.limits.enabled then
      evaluateMemoryLimits resolved.limits usage input.requestedNewMemories
    else []
  return ⟨violations.isEmpty, resolved.source, violations, usage, resolved.limits⟩

/-- The check as the engine offers it. -/
def checkMemoryWriteQuota (facts : MockFactStore) (reading : QuotaReading)
    (input : CheckMemoryWriteQuotaInput) : MemcoreResult QuotaCheckResult := do
  validateTenant ⟨input.orgId, input.userId⟩
  service.checkMemoryWriteAllowed facts reading input

end QuotaService

/-! ## What the check establishes -/

/-- A count does not exceed a limit, if the limit is set. -/
def WithinLimit (limit : Option ℕ) (count : ℕ) : Prop :=
  ∀ bound, limit = some bound → count ≤ bound

instance (limit : Option ℕ) (count : ℕ) : Decidable (WithinLimit limit count) :=
  decidable_of_iff (limit.all fun bound => decide (count ≤ bound)) (by
    cases limit <;> simp [WithinLimit])

theorem WithinLimit.mono {limit : Option ℕ} {count fewer : ℕ} (within : WithinLimit limit count)
    (le : fewer ≤ count) : WithinLimit limit fewer :=
  fun bound set => le.trans (within bound set)

theorem violationWhen_nil (kind : QuotaLimitKind) (limit : Option ℕ) (current requested : ℕ) :
    QuotaService.violationWhen kind limit current requested = [] ↔
      WithinLimit limit (current + requested) := by
  cases limit <;> simp [QuotaService.violationWhen, WithinLimit]

/-- There is room for a number of new memories of a tenant. -/
structure RoomFor (limits : OrgQuotaLimits) (facts : MockFactStore) (tenant : TenantContext)
    (count : ℕ) : Prop where
  org : WithinLimit limits.maxMemoriesPerOrg (facts.countFactsByOrg tenant.orgId + count)
  user : WithinLimit limits.maxMemoriesPerUser (facts.countFactsByUser tenant + count)
  users : WithinLimit limits.maxUsersPerOrg
    (facts.countUsersByOrg tenant.orgId + if facts.countFactsByUser tenant = 0 then 1 else 0)

instance (limits : OrgQuotaLimits) (facts : MockFactStore) (tenant : TenantContext) (count : ℕ) :
    Decidable (RoomFor limits facts tenant count) :=
  decidable_of_iff (_ ∧ _ ∧ _)
    ⟨fun all => ⟨all.1, all.2.1, all.2.2⟩, fun room => ⟨room.org, room.user, room.users⟩⟩

theorem map_ok {ε α β : Type} (convert : α → β) (result : Except ε α) (value : β) :
    result.map convert = .ok value ↔ ∃ source, result = .ok source ∧ convert source = value := by
  cases result <;> simp [Except.map]

/-- What a report says of the facts of a user's organisation. -/
theorem collectUsage_ok {facts : MockFactStore} {reading : QuotaReading} {tenant : TenantContext}
    {usage : OrgQuotaUsage}
    (collected : QuotaService.collectUsage facts reading tenant.orgId (some tenant.userId) =
      .ok usage) :
    usage.totalMemories = facts.countFactsByOrg tenant.orgId ∧
      usage.userMemoryCount = some (facts.countFactsByUser tenant) ∧
      usage.totalUsers = facts.countUsersByOrg tenant.orgId := by
  obtain ⟨_, _, rest⟩ := (bind_ok _ _ _).mp collected
  obtain ⟨count, counted, rest⟩ := (bind_ok _ _ _).mp rest
  obtain ⟨daily, _, reported⟩ := (bind_ok _ _ _).mp rest
  obtain ⟨_, _, countedUser⟩ := (bind_ok _ _ _).mp counted
  obtain rfl := Except.ok.inj countedUser
  obtain rfl := Except.ok.inj reported
  exact ⟨rfl, rfl, rfl⟩

/-- A check without violations has found room for what was asked. -/
theorem roomFor_of_allowed (service : QuotaService) {facts : MockFactStore}
    {reading : QuotaReading} {tenant : TenantContext} {requested : ℕ} {result : QuotaCheckResult}
    (checked : service.checkMemoryWriteQuota facts reading
      ⟨tenant.orgId, tenant.userId, requested⟩ = .ok result)
    (noViolation : result.violations = [])
    (enabled : (service.limitsOf tenant.orgId).limits.enabled = true) :
    RoomFor (service.limitsOf tenant.orgId).limits facts tenant requested := by
  obtain ⟨_, _, checked⟩ := (bind_ok _ _ _).mp checked
  obtain ⟨resolved, resolving, rest⟩ := (bind_ok _ _ _).mp checked
  obtain ⟨usage, collected, reported⟩ := (bind_ok _ _ _).mp rest
  have limits : resolved = service.limitsOf tenant.orgId := by
    unfold QuotaService.resolveOrgQuotaLimits at resolving
    split at resolving
    · nomatch resolving
    · exact (Except.ok.inj resolving).symm
  obtain ⟨memories, ofUser, users⟩ := collectUsage_ok collected
  obtain rfl := Except.ok.inj reported
  simp only [limits, enabled, if_true, QuotaService.evaluateMemoryLimits, ofUser,
    List.append_eq_nil_iff, violationWhen_nil] at noViolation
  obtain ⟨org, user, allUsers⟩ := noViolation
  exact ⟨memories ▸ org, user, users ▸ allUsers⟩

end Memcore
