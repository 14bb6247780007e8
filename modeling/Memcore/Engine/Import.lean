import Memcore.Engine.Memories

/-!
# Export and import of a user's data

An export holds one page of facts and one of events. An import validates the
whole payload first, then wipes the tenant's data if it is asked to replace them,
and inserts the facts one by one, each with its vector.
-/
namespace Memcore

open Ports Programs

def userExportFormatVersion : String := "memcore.user_export.v1"

def exportFactsLimit : ℕ := 100

def exportEventsLimit : ℕ := 100

structure UserMemoryExport where
  orgId : String
  userId : String
  exportedAt : Instant
  formatVersion : String
  facts : List Fact
  memoryEvents : List MemoryEvent

structure ExportUserDataInput where
  tenant : TenantContext
  includeEvents : Bool
  includeDeleted : Bool

inductive ImportMode where
  | append | replace
  deriving DecidableEq

structure ImportUserDataInput where
  tenant : TenantContext
  payload : UserMemoryExport
  mode : ImportMode
  restoreEvents : Bool
  dryRun : Bool

structure ImportValidationIssue where
  code : String
  message : String
  path : Option String
  deriving DecidableEq

structure ImportValidationSummary where
  valid : Bool
  errors : List ImportValidationIssue
  warnings : List ImportValidationIssue

structure ImportUserDataOutput where
  importedFacts : ℕ
  importedEvents : ℕ
  skippedFacts : ℕ
  replacedExisting : Bool
  dryRun : Bool
  validation : ImportValidationSummary

/-! ## Validation of the payload -/

def forbiddenMetadataKeys : List String :=
  ["api_key", "key_hash", "raw_key", "bearer", "bearer_token", "secret"]

/-- Whether a key contains a forbidden one, case ignored. -/
def isForbiddenKey (key : String) : Bool :=
  forbiddenMetadataKeys.any fun forbidden =>
    Texts.contains (Texts.toAsciiLowercase key) forbidden

mutual

/-- Whether a forbidden key occurs anywhere in a value. -/
def containsForbiddenSecretFields : Value → Bool
  | .object members => membersContainForbidden members
  | .array items => itemsContainForbidden items
  | _ => false

def membersContainForbidden : List (String × Value) → Bool
  | [] => false
  | (key, nested) :: members =>
      isForbiddenKey key || containsForbiddenSecretFields nested ||
        membersContainForbidden members

def itemsContainForbidden : List Value → Bool
  | [] => false
  | item :: items => containsForbiddenSecretFields item || itemsContainForbidden items

end

/-- One issue if a condition holds, and none otherwise. -/
def issueWhen (condition : Bool) (code message path : String) : List ImportValidationIssue :=
  if condition then [⟨code, message, some path⟩] else []

/-- Whether a number lies outside the unit interval. -/
def outsideUnit (value : ℚ) : Bool := !decide (0 ≤ value ∧ value ≤ 1)

def collectFactValidationIssues (fact : Fact) (tenant : TenantContext) (index : ℕ) :
    List ImportValidationIssue :=
  let basePath := "export.facts[" ++ toString index ++ "]"
  issueWhen (decide (fact.tenant ≠ tenant)) "FACT_TENANT_MISMATCH"
    "fact org_id/user_id does not match import tenant" basePath ++
  issueWhen (Texts.isBlank fact.content) "EMPTY_FACT_CONTENT"
    "fact content cannot be empty" (basePath ++ ".content") ++
  issueWhen (outsideUnit fact.confidence) "INVALID_CONFIDENCE"
    "fact confidence must be between 0.0 and 1.0" (basePath ++ ".confidence") ++
  issueWhen (outsideUnit fact.importance) "INVALID_IMPORTANCE"
    "fact importance must be between 0.0 and 1.0" (basePath ++ ".importance") ++
  issueWhen (containsForbiddenSecretFields fact.metadata) "FORBIDDEN_SECRET_METADATA"
    "fact metadata contains forbidden secret fields" (basePath ++ ".metadata")

def collectEventValidationIssues (event : MemoryEvent) (tenant : TenantContext) (index : ℕ) :
    List ImportValidationIssue :=
  let basePath := "export.memory_events[" ++ toString index ++ "]"
  issueWhen (decide (event.tenant ≠ tenant)) "EVENT_TENANT_MISMATCH"
    "memory event org_id/user_id does not match import tenant" basePath ++
  issueWhen (containsForbiddenSecretFields event.metadata) "FORBIDDEN_SECRET_METADATA"
    "memory event metadata contains forbidden secret fields" (basePath ++ ".metadata")

/-- All issues of the elements of a list, each with its position. -/
def collectIndexed {α : Type} (collect : α → ℕ → List ImportValidationIssue) :
    List α → ℕ → List ImportValidationIssue
  | [], _ => []
  | element :: elements, index =>
      collect element index ++ collectIndexed collect elements (index + 1)

/-- All issues of a payload, found without any call. -/
def collectImportValidation (payload : UserMemoryExport) (tenant : TenantContext)
    (restoreEvents : Bool) : ImportValidationSummary :=
  let errors :=
    issueWhen (decide (payload.formatVersion ≠ userExportFormatVersion))
      "UNSUPPORTED_FORMAT_VERSION" ("unsupported format_version: " ++ payload.formatVersion)
      "export.format_version" ++
    issueWhen (decide (payload.orgId ≠ tenant.orgId)) "ORG_ID_MISMATCH"
      "export org_id does not match tenant org_id" "export.org_id" ++
    issueWhen (decide (payload.userId ≠ tenant.userId)) "USER_ID_MISMATCH"
      "export user_id does not match path user_id" "export.user_id" ++
    collectIndexed (fun fact index => collectFactValidationIssues fact tenant index)
      payload.facts 0 ++
    if restoreEvents then
      collectIndexed (fun event index => collectEventValidationIssues event tenant index)
        payload.memoryEvents 0
    else []
  ⟨errors.isEmpty, errors, []⟩

def ImportValidationSummary.firstErrorMessage (summary : ImportValidationSummary) : String :=
  (summary.errors.head?.map ImportValidationIssue.message).getD "import validation failed"

/-! ## Import -/

variable (engine : MemoryEngine)

/-- The report of a dry run, which writes nothing. -/
def dryRunOutput (input : ImportUserDataInput) (validation : ImportValidationSummary) :
    ImportUserDataOutput :=
  let replacedExisting := decide (input.mode = .replace)
  if !validation.valid then
    ⟨0, 0, input.payload.facts.length, replacedExisting, true, validation⟩
  else
    let importedEvents := if input.restoreEvents && engine.eventStore then
      input.payload.memoryEvents.length else 0
    ⟨input.payload.facts.length, importedEvents, 0, replacedExisting, true, validation⟩

/-- Appending avoids the identifiers of the tenant's active facts. -/
def resolveImportFactId (exportedId : Uuid) (idExists : Bool) (mode : ImportMode) :
    EngineProgram Uuid :=
  if idExists && decide (mode = .append) then newUuid else return exportedId

/-- The exported fact as a fact of the importing tenant, under the resolved
identifier. -/
def importedFact (exported : Fact) (tenant : TenantContext) (factId : Uuid) : Fact :=
  { exported with id := factId, orgId := tenant.orgId, userId := tenant.userId }

def factForImport (exported : Fact) (tenant : TenantContext) (factId : Uuid) :
    MemcoreResult Fact :=
  (importedFact exported tenant factId).new

/-- An exported event under a new identifier and without the input text. -/
def restoredEventFromExport (exported : MemoryEvent) : EngineProgram MemoryEvent := do
  let id ← newUuid
  return { exported with id := id, inputText := none }

/-- The second half of the loop's body: insert a fact, and its vector after it. -/
def storeImported (tenant : TenantContext) (fact : Fact) : EngineProgram Unit := do
  let _ ← insertFact tenant fact
  let embedding ← embedText fact.content
  let record ← vectorRecordFromFact fact embedding
  upsertVector tenant record

/-- The body of the loop over the exported facts. -/
def importFact (input : ImportUserDataInput) (exported : Fact) : EngineProgram Unit := do
  let existing ← getFact input.tenant exported.id
  let factId ← resolveImportFactId exported.id existing.isSome input.mode
  let fact ← Program.check (factForImport exported input.tenant factId)
  storeImported input.tenant fact

/-- Import facts in turn; their number. -/
def importFacts (input : ImportUserDataInput) : List Fact → EngineProgram ℕ
  | [] => return 0
  | exported :: rest => do
      importFact input exported
      let count ← importFacts input rest
      return count + 1

/-- Restore events in turn; their number. -/
def restoreEventsFrom (input : ImportUserDataInput) : List MemoryEvent → EngineProgram ℕ
  | [] => return 0
  | exported :: rest => do
      let event ← restoredEventFromExport exported
      let _ ← recordEvent input.tenant event
      let count ← restoreEventsFrom input rest
      return count + 1

/-- Restore the events, if the caller wants it and a store is configured. -/
def restoreEvents (input : ImportUserDataInput) : EngineProgram ℕ :=
  if input.restoreEvents && engine.eventStore then
    restoreEventsFrom input input.payload.memoryEvents
  else return 0

/-- Wipe the tenant's facts and vectors before they are replaced. -/
def replaceExisting (input : ImportUserDataInput) : EngineProgram Bool :=
  if input.mode = .replace then do
    deleteUserData input.tenant
    deleteByUser input.tenant
    recordEventBestEffort engine input.tenant (buildImportReplaceEvent engine input.tenant)
    return true
  else return false

/-- The import proper, after its validation. -/
def importValidated (input : ImportUserDataInput) (validation : ImportValidationSummary) :
    EngineProgram ImportUserDataOutput := do
  let replacedExisting ← replaceExisting engine input
  let importedFacts ← importFacts input input.payload.facts
  let importedEvents ← restoreEvents engine input
  invalidateUserContextCache engine input.tenant
  return ⟨importedFacts, importedEvents, 0, replacedExisting, false, validation⟩

def importUserData (input : ImportUserDataInput) : EngineProgram ImportUserDataOutput := do
  Program.check (validateTenant input.tenant)
  let validation := collectImportValidation input.payload input.tenant input.restoreEvents
  if input.dryRun then return dryRunOutput engine input validation
  else if !validation.valid then
    Program.fail (.validationError validation.firstErrorMessage)
  else importValidated engine input validation

/-! ## Export -/

/-- The latest events, if the caller wants them and a store is configured. -/
def exportedEvents (input : ExportUserDataInput) : EngineProgram (List MemoryEvent) :=
  if input.includeEvents && engine.eventStore then listEvents (.new input.tenant exportEventsLimit)
  else return []

def exportUserData (input : ExportUserDataInput) : EngineProgram UserMemoryExport := do
  Program.check (validateTenant input.tenant)
  let facts ← searchFacts ⟨input.tenant, none, none, exportFactsLimit, none, input.includeDeleted⟩
  let memoryEvents ← exportedEvents engine input
  let exportedAt ← now
  return ⟨input.tenant.orgId, input.tenant.userId, exportedAt, userExportFormatVersion, facts,
    memoryEvents⟩

/-! ## What passes validation -/

/-- The facts and events of a payload that an import of a tenant accepts. -/
structure ValidPayload (payload : UserMemoryExport) (tenant : TenantContext)
    (restoreEvents : Bool) : Prop where
  formatVersion : payload.formatVersion = userExportFormatVersion
  orgId : payload.orgId = tenant.orgId
  userId : payload.userId = tenant.userId
  factTenant : ∀ fact ∈ payload.facts, fact.tenant = tenant
  content : ∀ fact ∈ payload.facts, Texts.isBlank fact.content = false
  confidence : ∀ fact ∈ payload.facts, 0 ≤ fact.confidence ∧ fact.confidence ≤ 1
  importance : ∀ fact ∈ payload.facts, 0 ≤ fact.importance ∧ fact.importance ≤ 1
  metadata : ∀ fact ∈ payload.facts, containsForbiddenSecretFields fact.metadata = false
  eventTenant : restoreEvents = true → ∀ event ∈ payload.memoryEvents, event.tenant = tenant
  eventMetadata : restoreEvents = true → ∀ event ∈ payload.memoryEvents,
    containsForbiddenSecretFields event.metadata = false

theorem issueWhen_nil (condition : Bool) (code message path : String) :
    issueWhen condition code message path = [] ↔ condition = false := by
  cases condition <;> simp [issueWhen]

theorem outsideUnit_false (value : ℚ) : outsideUnit value = false ↔ 0 ≤ value ∧ value ≤ 1 := by
  simp [outsideUnit]

theorem collectIndexed_nil {α : Type} (collect : α → ℕ → List ImportValidationIssue)
    (good : α → Prop) (exact : ∀ element index, collect element index = [] ↔ good element)
    (elements : List α) (index : ℕ) :
    collectIndexed collect elements index = [] ↔ ∀ element ∈ elements, good element := by
  induction elements generalizing index with
  | nil => simp [collectIndexed]
  | cons element elements inductionHypothesis =>
    simp [collectIndexed, exact, inductionHypothesis]

/-- A payload passes exactly when it is valid. -/
theorem collectImportValidation_valid (payload : UserMemoryExport) (tenant : TenantContext)
    (restoreEvents : Bool) :
    (collectImportValidation payload tenant restoreEvents).valid = true ↔
      ValidPayload payload tenant restoreEvents := by
  have factIssues : ∀ fact index, collectFactValidationIssues fact tenant index = [] ↔
      fact.tenant = tenant ∧ Texts.isBlank fact.content = false ∧
        (0 ≤ fact.confidence ∧ fact.confidence ≤ 1) ∧
        (0 ≤ fact.importance ∧ fact.importance ≤ 1) ∧
        containsForbiddenSecretFields fact.metadata = false := by
    intro fact index
    simp only [collectFactValidationIssues, List.append_eq_nil_iff, issueWhen_nil,
      outsideUnit_false, decide_eq_false_iff_not, not_not, and_assoc]
  have eventIssues : ∀ event index, collectEventValidationIssues event tenant index = [] ↔
      event.tenant = tenant ∧ containsForbiddenSecretFields event.metadata = false := by
    intro event index
    simp only [collectEventValidationIssues, List.append_eq_nil_iff, issueWhen_nil,
      decide_eq_false_iff_not, not_not]
  simp only [collectImportValidation, List.isEmpty_iff, List.append_eq_nil_iff, issueWhen_nil,
    decide_eq_false_iff_not, not_not, collectIndexed_nil _ _ factIssues]
  constructor
  · rintro ⟨⟨⟨⟨format, org⟩, user⟩, facts⟩, events⟩
    have restored : restoreEvents = true → ∀ event ∈ payload.memoryEvents,
        event.tenant = tenant ∧ containsForbiddenSecretFields event.metadata = false := by
      intro restoring
      rw [if_pos restoring, collectIndexed_nil _ _ eventIssues] at events
      exact events
    exact {
      formatVersion := format
      orgId := org
      userId := user
      factTenant := fun fact member => (facts fact member).1
      content := fun fact member => (facts fact member).2.1
      confidence := fun fact member => (facts fact member).2.2.1
      importance := fun fact member => (facts fact member).2.2.2.1
      metadata := fun fact member => (facts fact member).2.2.2.2
      eventTenant := fun restoring event member => (restored restoring event member).1
      eventMetadata := fun restoring event member => (restored restoring event member).2 }
  · intro valid
    refine ⟨⟨⟨⟨valid.formatVersion, valid.orgId⟩, valid.userId⟩, fun fact member => ?_⟩, ?_⟩
    · exact ⟨valid.factTenant fact member, valid.content fact member,
        valid.confidence fact member, valid.importance fact member, valid.metadata fact member⟩
    · split
      · rename_i restoring
        rw [collectIndexed_nil _ _ eventIssues]
        exact fun event member => ⟨valid.eventTenant restoring event member,
          valid.eventMetadata restoring event member⟩
      · rfl

/-- What passes validation makes a valid fact of a valid tenant under any identifier. -/
theorem ValidPayload.factForImport_ok {payload : UserMemoryExport} {tenant : TenantContext}
    {restoreEvents : Bool} (valid : ValidPayload payload tenant restoreEvents)
    (validTenant : tenant.Valid) {fact : Fact} (member : fact ∈ payload.facts) (factId : Uuid) :
    factForImport fact tenant factId = .ok (importedFact fact tenant factId) :=
  (Fact.new_ok _ _).mpr ⟨rfl, validTenant, valid.content fact member,
    valid.confidence fact member, valid.importance fact member⟩

end Memcore
