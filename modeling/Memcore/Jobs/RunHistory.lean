import Memcore.Jobs.Runner
import Memcore.Redaction.ByteOffsets
import Memcore.Stores.Cursors
import Memcore.Stores.SqliteFactStore

/-!
# The history of job runs

A run is stored with its message redacted and cut to 512 bytes, and its counts are stored
twice: those of the attempts in columns of their own, and all of them in the metadata. A count
of attempts that a column does not hold is taken from the metadata. The store in SQLite keeps
one row for each run and lists the rows from the latest start on.
-/
namespace Memcore

open KeyedTables Pages ByteTexts

/-! ## Statuses -/

namespace BackgroundJobStatus

def asStr : BackgroundJobStatus → String
  | idle => "Idle"
  | running => "Running"
  | succeeded => "Succeeded"
  | failed => "Failed"
  | skipped => "Skipped"
  | cancelled => "Cancelled"

def fromStr (value : String) : MemcoreResult BackgroundJobStatus :=
  let name := Texts.trim value
  if name ∈ ["Idle", "idle"] then .ok idle
  else if name ∈ ["Running", "running"] then .ok running
  else if name ∈ ["Succeeded", "succeeded", "success"] then .ok succeeded
  else if name ∈ ["Failed", "failed", "error"] then .ok failed
  else if name ∈ ["Skipped", "skipped"] then .ok skipped
  else if name ∈ ["Cancelled", "cancelled", "canceled"] then .ok cancelled
  else .error (.validationError ("invalid job status: " ++ name))

theorem fromStr_asStr (status : BackgroundJobStatus) : fromStr status.asStr = .ok status := by
  cases status <;> decide +kernel

end BackgroundJobStatus

/-! ## Runs and their stored form -/

/-- A run with the parts that neither the runner nor its retries look at. -/
structure RecordedJobRun extends BackgroundJobRun where
  id : Uuid
  finishedAt : Option Instant
  durationMs : Option ℕ
  orgCount : ℕ
  affectedCount : ℕ
  deriving DecidableEq

structure StoredBackgroundJobRun where
  id : Uuid
  kind : BackgroundJobKind
  status : BackgroundJobStatus
  startedAt : Instant
  finishedAt : Option Instant
  durationMs : Option ℕ
  attemptCount : ℕ
  maxAttempts : ℕ
  retried : Bool
  errorCode : Option String
  errorMessage : Option String
  metadata : Option Value

/-- A message for the history: redacted, and cut if it has more than 512 bytes. -/
def sanitizeBackgroundJobErrorMessage (message : String) : Run String := do
  let sanitized ← ByteOffsets.redactStr message.toList
  if 512 < byteLength sanitized then
    let front ← sliceTo 512 sanitized
    return String.ofList (front ++ "...".toList)
  else return String.ofList sanitized

/-- The counts of a run, as they are kept in its metadata. -/
def jobRunMetadata (run : RecordedJobRun) : Value :=
  .object [
    ("affected_count", .integer run.affectedCount),
    ("org_count", .integer run.orgCount),
    ("retry", .object [
      ("attempt_count", .integer run.attemptCount),
      ("max_attempts", .integer run.maxAttempts),
      ("retried", .bool run.retried)])]

def StoredBackgroundJobRun.ofRun (run : RecordedJobRun) : Run StoredBackgroundJobRun := do
  let errorMessage ← run.errorMessage.mapM sanitizeBackgroundJobErrorMessage
  return {
    id := run.id
    kind := run.kind
    status := run.status
    startedAt := run.startedAt
    finishedAt := run.finishedAt
    durationMs := run.durationMs
    attemptCount := run.attemptCount
    maxAttempts := run.maxAttempts
    retried := run.retried
    errorCode := run.errorCode
    errorMessage := errorMessage
    metadata := some (jobRunMetadata run) }

namespace Value

/-- The member of an object under a key. -/
def get (key : String) (value : Value) : Option Value := value.asObject.bind (lookup key)

/-- An integer that is an unsigned number of 64 bits. -/
def asU64 : Value → Option ℕ
  | integer value => if 0 ≤ value ∧ value < 2 ^ 64 then some value.toNat else none
  | _ => none

def asBool : Value → Option Bool
  | bool value => some value
  | _ => none

end Value

/-- The run that a stored one stands for. -/
def StoredBackgroundJobRun.toRun (stored : StoredBackgroundJobRun) : RecordedJobRun :=
  let count (key : String) := (stored.metadata.bind (Value.get key)).bind Value.asU64
  let retry := stored.metadata.bind (Value.get "retry")
  let attempts (column : ℕ) (key : String) :=
    if column = 0 then ((retry.bind (Value.get key)).bind Value.asU64).getD 1 else column
  let attemptCount := attempts stored.attemptCount "attempt_count"
  { id := stored.id
    kind := stored.kind
    status := stored.status
    startedAt := stored.startedAt
    finishedAt := stored.finishedAt
    durationMs := stored.durationMs
    attemptCount := attemptCount
    maxAttempts := attempts stored.maxAttempts "max_attempts"
    retried := stored.retried ||
      ((retry.bind (Value.get "retried")).bind Value.asBool).getD false ||
      decide (1 < attemptCount)
    errorCode := stored.errorCode
    errorMessage := stored.errorMessage
    orgCount := (count "org_count").getD 0
    affectedCount := (count "affected_count").getD 0 }

/-! ## Queries -/

structure BackgroundJobRunQuery where
  kind : Option BackgroundJobKind
  status : Option BackgroundJobStatus
  createdAfter : Option Instant
  createdBefore : Option Instant
  limit : ℕ
  cursor : Option PageCursor

structure BackgroundJobRunQueryResult where
  runs : List StoredBackgroundJobRun
  nextCursor : Option String

def defaultBackgroundJobRunLimit : ℕ := 50

def maxBackgroundJobRunLimit : ℕ := 100

def validateBackgroundJobRunLimit (limit : ℕ) : MemcoreResult ℕ :=
  if limit = 0 then .ok defaultBackgroundJobRunLimit
  else if limit > maxBackgroundJobRunLimit then
    .error (.validationError ("limit must be <= " ++ toString maxBackgroundJobRunLimit))
  else .ok limit

def StoredBackgroundJobRun.toCursor (stored : StoredBackgroundJobRun) : PageCursor :=
  ⟨Uuid.toText stored.id, stored.startedAt⟩

/-! ## The store in SQLite -/

structure JobRunRow where
  id : String
  kind : String
  status : String
  startedAt : String
  finishedAt : Option String
  durationMs : Option ℤ
  attemptCount : ℤ
  maxAttempts : ℤ
  retried : Bool
  errorCode : Option String
  errorMessage : Option String
  metadata : Option String
  createdAt : String

abbrev JobRunRows := Table String JobRunRow JobRunRow.id

namespace SqliteBackgroundJobRunStore

variable (texts : RowTexts)

def datetimeFromStr (value : String) : MemcoreResult Instant :=
  match texts.parseFromRfc3339 value with
  | .ok instant => .ok instant
  | .error error => .error (storageError "parse sqlite background job timestamp" error)

def metadataToStr : Option Value → MemcoreResult (Option String)
  | some metadata =>
      match texts.jsonToString metadata with
      | .ok text => .ok (some text)
      | .error error => .error (storageError "serialize background job run metadata" error)
  | none => .ok none

/-- A blank text counts as absent. -/
def metadataFromStr : Option String → MemcoreResult (Option Value)
  | some raw =>
      if Texts.isBlank raw then .ok none
      else match texts.jsonFromStr raw with
        | .ok metadata => .ok (some metadata)
        | .error error => .error (storageError "deserialize background job run metadata" error)
  | none => .ok none

def rowId (value : String) : MemcoreResult Uuid :=
  match texts.parseUuid value with
  | .ok id => .ok id
  | .error error => .error (storageError "row id uuid" error)

/-- A count of attempts. One that is not positive counts as one attempt. -/
def attemptsFromColumn (column : ℤ) : ℕ := if 0 < column then asU64 column else 1

def rowToRun (row : JobRunRow) : MemcoreResult StoredBackgroundJobRun := do
  let id ← rowId texts row.id
  let kind ← BackgroundJobKind.fromStr row.kind
  let status ← BackgroundJobStatus.fromStr row.status
  let startedAt ← datetimeFromStr texts row.startedAt
  let finishedAt ← row.finishedAt.mapM (datetimeFromStr texts)
  let metadata ← metadataFromStr texts row.metadata
  return {
    id := id
    kind := kind
    status := status
    startedAt := startedAt
    finishedAt := finishedAt
    durationMs := row.durationMs.map asU64
    attemptCount := attemptsFromColumn row.attemptCount
    maxAttempts := attemptsFromColumn row.maxAttempts
    retried := row.retried
    errorCode := row.errorCode
    errorMessage := row.errorMessage
    metadata := metadata }

/-- The values that the insertion binds for a run, with the text of its metadata. -/
def bindRun (run : StoredBackgroundJobRun) (metadata : Option String) : JobRunRow where
  id := Uuid.toText run.id
  kind := run.kind.asStr
  status := run.status.asStr
  startedAt := texts.toRfc3339 run.startedAt
  finishedAt := run.finishedAt.map texts.toRfc3339
  durationMs := run.durationMs.map asI64
  attemptCount := asI64 run.attemptCount
  maxAttempts := asI64 run.maxAttempts
  retried := run.retried
  errorCode := run.errorCode
  errorMessage := run.errorMessage
  metadata := metadata
  createdAt := texts.toRfc3339 run.startedAt

def insertRun (run : StoredBackgroundJobRun) (rows : JobRunRows) :
    MemcoreResult StoredBackgroundJobRun × JobRunRows :=
  match metadataToStr texts run.metadata with
  | .error error => (.error error, rows)
  | .ok metadata =>
      match SqlTables.insert (bindRun texts run metadata) rows with
      | some inserted => (.ok run, inserted)
      | none => (.error (storageError "insert sqlite background job run"
          (uniqueConstraintFailed "background_job_runs.id")), rows)

/-- The conditions of a page. -/
def selectsRun (query : BackgroundJobRunQuery) (row : JobRunRow) : Bool :=
  query.kind.all (fun kind => decide (row.kind = kind.asStr)) &&
  query.status.all (fun status => decide (row.status = status.asStr)) &&
  query.createdAfter.all (fun createdAfter =>
    !decide (row.startedAt < texts.toRfc3339 createdAfter)) &&
  query.createdBefore.all (fun createdBefore =>
    decide (row.startedAt < texts.toRfc3339 createdBefore)) &&
  SqliteFactStore.selectsBehind texts query.cursor row.startedAt row.id

/-- ORDER BY started_at DESC, id DESC. -/
def rowComesFirst (left right : JobRunRow) : Prop :=
  right.startedAt < left.startedAt ∨ right.startedAt = left.startedAt ∧ right.id ≤ left.id

instance : DecidableRel rowComesFirst := fun _ _ => inferInstanceAs (Decidable (_ ∨ _ ∧ _))

def queryRuns (encoding : CursorEncoding) (query : BackgroundJobRunQuery) (rows : JobRunRows) :
    MemcoreResult BackgroundJobRunQueryResult := do
  let limit ← validateBackgroundJobRunLimit query.limit
  let found := (rows.rows.filter (selectsRun texts query)).insertionSort rowComesFirst
  let runs ← (found.take (pageFetchLimit limit)).mapM (rowToRun texts)
  let page ← buildPage encoding runs limit StoredBackgroundJobRun.toCursor
  return ⟨page.items, page.nextCursor⟩

end SqliteBackgroundJobRunStore

end Memcore
