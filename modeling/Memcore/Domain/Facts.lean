import Memcore.Domain.Values

/-!
# Facts, candidates and events

The records that flow through the engine, with the validation that their
constructors make. The records themselves are plain: an export that is imported
again carries facts that no constructor has seen.
-/
namespace Memcore

/-- Everything stored belongs to one user of one organisation. -/
structure TenantContext where
  orgId : String
  userId : String
  deriving DecidableEq

inductive MemoryType where
  | profile | preference | project | conversation | task | entity | skill | system
  deriving DecidableEq

inductive MemorySource where
  | userMessage | assistantMessage | apiImport | manual | system
  deriving DecidableEq

inductive FactOperation where
  | add | update | delete | noOp | archive | summarize
  deriving DecidableEq

/-- One remembered statement about a user. -/
structure Fact where
  id : Uuid
  orgId : String
  userId : String
  memoryType : MemoryType
  content : String
  summary : Option String
  source : MemorySource
  confidence : ℚ
  importance : ℚ
  validAt : Option Instant
  invalidAt : Option Instant
  recordedAt : Instant
  updatedAt : Instant
  metadata : Value

/-- A statement that the provider has extracted and that may become a fact. -/
structure CandidateFact where
  content : String
  memoryType : MemoryType
  confidence : ℚ
  importance : ℚ
  validAt : Option Instant
  metadata : Value

/-- The provider's verdict on a candidate. -/
structure FactOperationDecision where
  operation : FactOperation
  targetFactId : Option Uuid
  reason : Option String
  confidence : ℚ

/-- One ranked answer to a query. -/
structure MemorySearchResult where
  factId : Uuid
  content : String
  memoryType : MemoryType
  score : ℚ
  confidence : ℚ
  importance : ℚ
  validAt : Option Instant
  metadata : Value

inductive MemoryEventOperation where
  | add | update | delete | noOp | forgetUser
  deriving DecidableEq

/-- One entry of the audit log. -/
structure MemoryEvent where
  id : Uuid
  orgId : String
  userId : String
  factId : Option Uuid
  operation : MemoryEventOperation
  inputText : Option String
  previousContent : Option String
  newContent : Option String
  providerName : Option String
  modelName : Option String
  metadata : Value
  createdAt : Instant

/-- The tenant that a fact belongs to. -/
def Fact.tenant (fact : Fact) : TenantContext := ⟨fact.orgId, fact.userId⟩

/-- The tenant that an event belongs to. -/
def MemoryEvent.tenant (event : MemoryEvent) : TenantContext := ⟨event.orgId, event.userId⟩

/-! ## Validation -/

/-- A text must not be blank. -/
def validateNonEmpty (field value : String) : MemcoreResult Unit :=
  if Texts.isBlank value then .error (.validationError (field ++ " cannot be empty"))
  else .ok ()

/-- A number must lie between zero and one, both included. -/
def validateUnitInterval (field : String) (value : ℚ) : MemcoreResult Unit :=
  if 0 ≤ value ∧ value ≤ 1 then .ok ()
  else .error (.validationError (field ++ " must be between 0.0 and 1.0"))

/-- The check made by every engine operation before its first call. -/
def validateTenant (tenant : TenantContext) : MemcoreResult Unit := do
  validateNonEmpty "org_id" tenant.orgId
  validateNonEmpty "user_id" tenant.userId

/-- The constructor of facts: the fields in order, the first fault reported. -/
def Fact.new (fact : Fact) : MemcoreResult Fact := do
  validateNonEmpty "org_id" fact.orgId
  validateNonEmpty "user_id" fact.userId
  validateNonEmpty "content" fact.content
  validateUnitInterval "confidence" fact.confidence
  validateUnitInterval "importance" fact.importance
  return fact

/-- A tenant that passes its validation. -/
def TenantContext.Valid (tenant : TenantContext) : Prop :=
  Texts.isBlank tenant.orgId = false ∧ Texts.isBlank tenant.userId = false

/-- What the constructor of facts establishes. -/
structure Fact.Valid (fact : Fact) : Prop where
  tenant : fact.tenant.Valid
  content : Texts.isBlank fact.content = false
  confidence : 0 ≤ fact.confidence ∧ fact.confidence ≤ 1
  importance : 0 ≤ fact.importance ∧ fact.importance ≤ 1

instance (tenant : TenantContext) : Decidable tenant.Valid :=
  inferInstanceAs (Decidable (_ ∧ _))

theorem validateNonEmpty_ok (field value : String) :
    validateNonEmpty field value = .ok () ↔ Texts.isBlank value = false := by
  unfold validateNonEmpty
  cases Texts.isBlank value <;> simp

theorem validateUnitInterval_ok (field : String) (value : ℚ) :
    validateUnitInterval field value = .ok () ↔ 0 ≤ value ∧ value ≤ 1 := by
  unfold validateUnitInterval
  split <;> simp_all

/-- A check followed by more succeeds when both do. -/
theorem check_then_ok {α : Type} (first : MemcoreResult Unit) (next : Unit → MemcoreResult α)
    (value : α) : (first >>= next) = .ok value ↔ first = .ok () ∧ next () = .ok value := by
  cases first <;> simp [bind, Except.bind]

theorem validateTenant_ok (tenant : TenantContext) :
    validateTenant tenant = .ok () ↔ tenant.Valid := by
  simp only [validateTenant, check_then_ok, validateNonEmpty_ok, TenantContext.Valid]

/-- The constructor returns the record as it is, exactly when it is valid. -/
theorem Fact.new_ok (fact created : Fact) :
    fact.new = .ok created ↔ created = fact ∧ fact.Valid := by
  simp only [Fact.new, check_then_ok, validateNonEmpty_ok, validateUnitInterval_ok]
  constructor
  · rintro ⟨org, user, content, confidence, importance, same⟩
    cases same
    exact ⟨rfl, ⟨org, user⟩, content, confidence, importance⟩
  · rintro ⟨rfl, valid⟩
    exact ⟨valid.tenant.1, valid.tenant.2, valid.content, valid.confidence, valid.importance, rfl⟩

end Memcore
