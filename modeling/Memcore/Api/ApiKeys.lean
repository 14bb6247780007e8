import Memcore.Api.Routes
import Memcore.Stores.SqliteFactStore

/-!
# API keys and where they are kept

A key belongs to one organization and has scopes. Only a hash of the key itself is kept, and
a key is revoked by noting when. One store keeps the keys in memory, in the order of their
insertion; the other keeps them in a table of SQLite whose hashes are unique.
-/
namespace Memcore

open KeyedTables

structure ApiKeyRecord where
  id : Uuid
  orgId : String
  name : String
  keyHash : String
  scopes : List ApiKeyScope
  createdAt : Instant
  revokedAt : Option Instant
  deriving DecidableEq

def ApiKeyRecord.isActive (record : ApiKeyRecord) : Bool := record.revokedAt.isNone

structure ApiKeyListQuery where
  orgId : String
  includeRevoked : Bool
  limit : ℕ
  cursor : Option PageCursor

/-- The operations of a store of keys. -/
structure ApiKeyStore (σ : Type) where
  findByHash (keyHash : String) : σ → MemcoreResult (Option ApiKeyRecord)
  insertApiKey (record : ApiKeyRecord) : σ → MemcoreResult ApiKeyRecord × σ
  revokeApiKey (now : Instant) (orgId : String) (keyId : Uuid) : σ → MemcoreResult Unit × σ
  listApiKeys (query : ApiKeyListQuery) : σ → MemcoreResult (List ApiKeyRecord)

def apiKeyNotFound (keyId : Uuid) : MemcoreError :=
  .notFound ("api key not found: " ++ Uuid.toText keyId)

/-! ## In memory -/

abbrev MockApiKeyStore := List ApiKeyRecord

namespace MockApiKeyStore

def findByHash (keyHash : String) (keys : MockApiKeyStore) :
    MemcoreResult (Option ApiKeyRecord) :=
  .ok (keys.find? fun record => decide (record.keyHash = keyHash) && record.isActive)

def insertApiKey (record : ApiKeyRecord) (keys : MockApiKeyStore) :
    MemcoreResult ApiKeyRecord × MockApiKeyStore :=
  (.ok record, keys ++ [record])

/-- An active key of the organization, under its identifier. -/
def isRevocable (orgId : String) (keyId : Uuid) (record : ApiKeyRecord) : Bool :=
  decide (record.id = keyId) && (decide (record.orgId = orgId) && record.isActive)

def revokeApiKey (now : Instant) (orgId : String) (keyId : Uuid) (keys : MockApiKeyStore) :
    MemcoreResult Unit × MockApiKeyStore :=
  match keys.findIdx? (isRevocable orgId keyId) with
  | none => (.error (apiKeyNotFound keyId), keys)
  | some place =>
      (.ok (), keys.modify place fun record => { record with revokedAt := some now })

def matchesQuery (query : ApiKeyListQuery) (record : ApiKeyRecord) : Bool :=
  decide (record.orgId = query.orgId) && (query.includeRevoked || record.isActive) &&
  query.cursor.all (isAfterCursorInDescOrder record.createdAt (Uuid.toText record.id))

/-- The later key first, and among keys of one instant the one with the higher identifier. -/
def comesFirst (left right : ApiKeyRecord) : Prop :=
  right.createdAt < left.createdAt ∨ right.createdAt = left.createdAt ∧ right.id ≤ left.id

instance : DecidableRel comesFirst := fun _ _ => inferInstanceAs (Decidable (_ ∨ _ ∧ _))

def listApiKeys (query : ApiKeyListQuery) (keys : MockApiKeyStore) :
    MemcoreResult (List ApiKeyRecord) :=
  .ok (((keys.filter (matchesQuery query)).insertionSort comesFirst).take
    (pageFetchLimit query.limit))

end MockApiKeyStore

def mockApiKeyStore : ApiKeyStore MockApiKeyStore where
  findByHash := MockApiKeyStore.findByHash
  insertApiKey := MockApiKeyStore.insertApiKey
  revokeApiKey := MockApiKeyStore.revokeApiKey
  listApiKeys := MockApiKeyStore.listApiKeys

/-! ## In SQLite -/

def apiKeyScopeToStr : ApiKeyScope → String
  | .memoryRead => "memory_read"
  | .memoryWrite => "memory_write"
  | .memoryDelete => "memory_delete"
  | .userDelete => "user_delete"
  | .auditRead => "audit_read"
  | .adminRead => "admin_read"
  | .adminWrite => "admin_write"

def apiKeyScopeFromStr : String → MemcoreResult ApiKeyScope
  | "memory_read" => .ok .memoryRead
  | "memory_write" => .ok .memoryWrite
  | "memory_delete" => .ok .memoryDelete
  | "user_delete" => .ok .userDelete
  | "audit_read" => .ok .auditRead
  | "admin_read" => .ok .adminRead
  | "admin_write" => .ok .adminWrite
  | value => .error (.storageError ("invalid api key scope value: " ++ value))

theorem apiKeyScopeFromStr_toStr (scope : ApiKeyScope) :
    apiKeyScopeFromStr (apiKeyScopeToStr scope) = .ok scope := by
  cases scope <;> rfl

structure ApiKeyRow where
  id : String
  orgId : String
  name : String
  keyHash : String
  scopes : String
  createdAt : String
  revokedAt : Option String
  deriving DecidableEq

/-- The table. Its primary key is `id`, and `key_hash` is unique. -/
structure ApiKeyRows where
  table : Table String ApiKeyRow ApiKeyRow.id
  uniqueHashes : (table.rows.map ApiKeyRow.keyHash).Nodup

namespace ApiKeyRows

def empty : ApiKeyRows := ⟨.empty, List.nodup_nil⟩

/-- INSERT of one row, unless its hash or its identifier is taken. The index that was created
last is checked first. -/
def insert (row : ApiKeyRow) (rows : ApiKeyRows) : Except String ApiKeyRows :=
  if free : ∀ other ∈ rows.table.rows, other.keyHash ≠ row.keyHash then
    if fresh : ∀ other ∈ rows.table.rows, other.id ≠ row.id then
      .ok {
        table := rows.table.put row
        uniqueHashes := by
          rw [Table.rows_put_of_fresh rows.table fresh, List.map_append, List.map_singleton]
          refine List.nodup_append.mpr ⟨rows.uniqueHashes, List.nodup_singleton _, ?_⟩
          intro hash stored other same
          obtain ⟨before, member, rfl⟩ := List.mem_map.mp stored
          obtain rfl := List.mem_singleton.mp same
          exact free before member }
    else .error (uniqueConstraintFailed "api_keys.id")
  else .error
    "error returned from database: (code: 2067) UNIQUE constraint failed: api_keys.key_hash"

end ApiKeyRows

namespace SqliteApiKeyStore

variable (texts : RowTexts)

def scopesToJson (scopes : List ApiKeyScope) : MemcoreResult String :=
  match texts.jsonToString (.array (scopes.map fun scope => .string (apiKeyScopeToStr scope))) with
  | .ok text => .ok text
  | .error error => .error (.storageError ("failed to serialize api key scopes: " ++ error))

/-- The texts of an array of texts. -/
def asTexts : Value → Option (List String)
  | .array items => items.mapM fun
      | .string text => some text
      | _ => none
  | _ => none

def scopesFromJson (text : String) : MemcoreResult (List ApiKeyScope) :=
  match texts.jsonFromStr text with
  | .error error => .error (.storageError ("failed to deserialize api key scopes: " ++ error))
  | .ok value =>
      match asTexts value with
      | none => .error (.storageError
          "failed to deserialize api key scopes: expected a sequence of strings")
      | some labels => labels.mapM apiKeyScopeFromStr

def rowToApiKeyRecord (row : ApiKeyRow) : MemcoreResult ApiKeyRecord := do
  let id ← SqliteFactStore.parseUuid texts (fun value => "invalid api key id '" ++ value ++ "'")
    row.id
  let scopes ← scopesFromJson texts row.scopes
  let createdAt ← SqliteFactStore.datetimeFromStr texts row.createdAt
  let revokedAt ← SqliteFactStore.optionalDatetimeFromStr texts row.revokedAt
  return {
    id := id
    orgId := row.orgId
    name := row.name
    keyHash := row.keyHash
    scopes := scopes
    createdAt := createdAt
    revokedAt := revokedAt }

/-- The values that the insertion binds for a key, with the text of its scopes. -/
def bindApiKey (record : ApiKeyRecord) (scopes : String) : ApiKeyRow where
  id := Uuid.toText record.id
  orgId := record.orgId
  name := record.name
  keyHash := record.keyHash
  scopes := scopes
  createdAt := texts.toRfc3339 record.createdAt
  revokedAt := record.revokedAt.map texts.toRfc3339

/-! ## Statements -/

def isActive (row : ApiKeyRow) : Bool := row.revokedAt.isNone

def findByHash (keyHash : String) (rows : ApiKeyRows) : MemcoreResult (Option ApiKeyRecord) :=
  match rows.table.rows.find? fun row => decide (row.keyHash = keyHash) && isActive row with
  | some row => (rowToApiKeyRecord texts row).map some
  | none => .ok none

def insertApiKey (record : ApiKeyRecord) (rows : ApiKeyRows) :
    MemcoreResult ApiKeyRecord × ApiKeyRows :=
  match scopesToJson texts record.scopes with
  | .error error => (.error error, rows)
  | .ok scopes =>
      match rows.insert (bindApiKey texts record scopes) with
      | .ok inserted => (.ok record, inserted)
      | .error error => (.error (storageError "failed to insert api key" error), rows)

/-- Selection of an active key of an organization. -/
def ofActiveKey (orgId : String) (keyId : Uuid) (row : ApiKeyRow) : Bool :=
  decide (row.id = Uuid.toText keyId) && (decide (row.orgId = orgId) && isActive row)

/-- SET revoked_at. -/
def assignRevokedAt (revokedAt : String) (row : ApiKeyRow) : ApiKeyRow :=
  { row with revokedAt := some revokedAt }

theorem assignRevokedAt_id (revokedAt : String) (row : ApiKeyRow) :
    (assignRevokedAt revokedAt row).id = row.id := rfl

/-- UPDATE of the time of revocation, which leaves the hashes as they are. -/
def setRevokedAt (revokedAt : String) (selects : ApiKeyRow → Bool) (rows : ApiKeyRows) :
    ℕ × ApiKeyRows :=
  let result := SqlTables.update selects (assignRevokedAt revokedAt)
    (assignRevokedAt_id revokedAt) rows.table
  (result.1, {
    table := result.2
    uniqueHashes := by
      have same : (ApiKeyRow.keyHash ∘ fun row =>
          if selects row then assignRevokedAt revokedAt row else row) = ApiKeyRow.keyHash := by
        funext row
        by_cases selected : selects row = true
        · simp [selected, assignRevokedAt]
        · simp [selected]
      simp only [result, SqlTables.update, List.map_map, same]
      exact rows.uniqueHashes })

def revokeApiKey (now : Instant) (orgId : String) (keyId : Uuid) (rows : ApiKeyRows) :
    MemcoreResult Unit × ApiKeyRows :=
  let result := setRevokedAt (texts.toRfc3339 now) (ofActiveKey orgId keyId) rows
  if result.1 = 0 then (.error (apiKeyNotFound keyId), result.2) else (.ok (), result.2)

/-- The conditions of a listing. -/
def selects (query : ApiKeyListQuery) (row : ApiKeyRow) : Bool :=
  decide (row.orgId = query.orgId) && (query.includeRevoked || isActive row) &&
  SqliteFactStore.selectsBehind texts query.cursor row.createdAt row.id

/-- ORDER BY created_at DESC, id DESC. -/
def rowComesFirst (left right : ApiKeyRow) : Prop :=
  right.createdAt < left.createdAt ∨ right.createdAt = left.createdAt ∧ right.id ≤ left.id

instance : DecidableRel rowComesFirst := fun _ _ => inferInstanceAs (Decidable (_ ∨ _ ∧ _))

def listApiKeys (query : ApiKeyListQuery) (rows : ApiKeyRows) :
    MemcoreResult (List ApiKeyRecord) :=
  if pageFetchLimit query.limit > SqliteFactStore.maxLimit then
    .error (storageError "api key list limit out of range for sqlite"
      "out of range integral type conversion attempted")
  else
    let found := (rows.table.rows.filter (selects texts query)).insertionSort rowComesFirst
    (found.take (pageFetchLimit query.limit)).mapM (rowToApiKeyRecord texts)

end SqliteApiKeyStore

def sqliteApiKeyStore (texts : RowTexts) : ApiKeyStore ApiKeyRows where
  findByHash := SqliteApiKeyStore.findByHash texts
  insertApiKey := SqliteApiKeyStore.insertApiKey texts
  revokeApiKey := SqliteApiKeyStore.revokeApiKey texts
  listApiKeys := SqliteApiKeyStore.listApiKeys texts

end Memcore
