import Memcore.Guarantees.KeyHistories

/-!
# A revoked key is refused

The hash of a key in SQLite belongs to one row, and a row whose key is revoked never changes
again. So a request that carries a revoked key, and whose key was not looked up before, is
refused by the first gate, whatever other requests do. It makes no call but that lookup.
-/
namespace Memcore

open KeyedTables Programs

section Revoked

variable {texts : RowTexts} {row : ApiKeyRow} {rows : ApiKeyRows}

/-- A row has its hash for itself. -/
theorem row_of_hash (held : row ∈ rows.table.rows) {other : ApiKeyRow}
    (otherHeld : other ∈ rows.table.rows) (same : other.keyHash = row.keyHash) : other = row :=
  List.inj_on_of_nodup_map rows.uniqueHashes otherHeld held same

/-- No active key is found under the hash of a revoked one. -/
theorem findByHash_revoked (held : row ∈ rows.table.rows)
    (revoked : SqliteApiKeyStore.isActive row = false) :
    SqliteApiKeyStore.findByHash texts row.keyHash rows = .ok none := by
  have nothing : (rows.table.rows.find? fun other => decide (other.keyHash = row.keyHash) &&
      SqliteApiKeyStore.isActive other) = none := by
    rw [List.find?_eq_none]
    intro other otherHeld selected
    simp only [Bool.and_eq_true, decide_eq_true_eq] at selected
    obtain ⟨same, active⟩ := selected
    obtain rfl := row_of_hash held otherHeld same
    rw [revoked] at active
    nomatch active
  rw [SqliteApiKeyStore.findByHash, nothing]

/-- An insertion leaves the rows that are there. -/
theorem row_stays_inserted (held : row ∈ rows.table.rows) (new : ApiKeyRecord) :
    row ∈ (SqliteApiKeyStore.insertApiKey texts new rows).2.table.rows := by
  unfold SqliteApiKeyStore.insertApiKey
  split
  · exact held
  · split
    · rename_i inserted done
      rw [rows_insert done]
      exact List.mem_append_left _ held
    · exact held

/-- A revocation leaves the rows whose keys are revoked. -/
theorem revoked_row_stays (held : row ∈ rows.table.rows)
    (revoked : SqliteApiKeyStore.isActive row = false) (now : Instant) (orgId : String)
    (keyId : Uuid) :
    row ∈ (SqliteApiKeyStore.revokeApiKey texts now orgId keyId rows).2.table.rows := by
  rw [revokeApiKey_rows, mem_setRevokedAt]
  refine ⟨row, held, if_neg ?_⟩
  simp [SqliteApiKeyStore.ofActiveKey, revoked]

theorem revoked_row_stays_after {choice : ApiChoice} {call : ApiCall} {world : ApiWorld ApiKeyRows}
    (held : row ∈ world.keys.table.rows) (revoked : SqliteApiKeyStore.isActive row = false) :
    row ∈ (serveApiCall (sqliteApiKeyStore texts) choice call world).2.keys.table.rows := by
  cases call with
  | insertApiKey new =>
    rcases change_keys choice ((sqliteApiKeyStore texts).insertApiKey new) world with same | changed
    · exact same ▸ held
    · have stays := @row_stays_inserted texts row _ held new
      exact changed ▸ stays
  | revokeApiKey orgId keyId =>
    rcases change_keys choice ((sqliteApiKeyStore texts).revokeApiKey choice.now orgId keyId)
      world with same | changed
    · exact same ▸ held
    · have stays := @revoked_row_stays texts row _ held revoked choice.now orgId keyId
      exact changed ▸ stays
  | findByHash keyHash => exact held
  | listApiKeys query => exact held
  | checkRate orgId => exact held
  | newUuid => exact held
  | utcNow => exact held
  | handle endpoint orgId => exact held

theorem Gateway.Presents.unique {gateway : Gateway} {request : HttpRequest}
    {keyHash otherHash : String} (presents : gateway.Presents request keyHash)
    (other : gateway.Presents request otherHash) : keyHash = otherHash := by
  obtain ⟨token, pepper, carries, seasoned, rfl⟩ := presents
  obtain ⟨otherToken, otherPepper, otherCarries, otherSeasoned, rfl⟩ := other
  obtain rfl := Except.ok.inj (carries.symm.trans otherCarries)
  obtain rfl := Option.some.inj (seasoned.symm.trans otherSeasoned)
  rfl

end Revoked

/-- The revoked row is there, no key is found for the request, and the request has made no call
but lookups. -/
structure Refusing (row : ApiKeyRow) (thread : ℕ) (world : ApiWorld ApiKeyRows) (trace : ApiTrace)
    (stages : ℕ → Option ApiKeyRecord) : Prop where
  held : row ∈ world.keys.table.rows
  unfound : stages thread = none
  lookups : ∀ entry ∈ trace, entry.1 = thread → ∃ keyHash, entry.2.call = .findByHash keyHash

section Refused

variable {texts : RowTexts} {gateway : Gateway} {requests : ℕ → HttpRequest}
  {world : ApiWorld ApiKeyRows} {row : ApiKeyRow} {thread : ℕ}

theorem Refusing.step {trace : ApiTrace} {stages : ℕ → Option ApiKeyRecord} {other : ℕ}
    {call : ApiCall} {choice : ApiChoice} (refusing : Refusing row thread world trace stages)
    (revoked : SqliteApiKeyStore.isActive row = false)
    (carries : gateway.Presents (requests thread) row.keyHash)
    (allowed : (keyProtocol gateway (requests other)).allows (stages other) call) :
    Refusing row thread (serveApiCall (sqliteApiKeyStore texts) choice call world).2
      ((other, ⟨call, (serveApiCall (sqliteApiKeyStore texts) choice call world).1⟩) :: trace)
      (Function.update stages other ((keyProtocol gateway (requests other)).next (stages other)
        call (serveApiCall (sqliteApiKeyStore texts) choice call world).1)) := by
  have stays := @revoked_row_stays_after texts row choice call world refusing.held revoked
  by_cases same : other = thread
  · subst same
    rw [refusing.unfound] at allowed ⊢
    obtain ⟨keyHash, rfl, presents⟩ := allowed
    obtain rfl := carries.unique presents
    refine ⟨stays, ?_, ?_⟩
    · rw [Function.update_self]
      have nothing : (sqliteApiKeyStore texts).findByHash row.keyHash world.keys = .ok none :=
        findByHash_revoked refusing.held revoked
      show (keyProtocol gateway (requests other)).next none (.findByHash row.keyHash)
        (choice.orFault ((sqliteApiKeyStore texts).findByHash row.keyHash world.keys)) = none
      rw [nothing, ApiChoice.orFault]
      cases choice.fault <;> rfl
    · intro entry listed own
      rcases List.mem_cons.mp listed with rfl | listed
      · exact ⟨_, rfl⟩
      · exact refusing.lookups entry listed own
  · refine ⟨stays, ?_, ?_⟩
    · rw [Function.update_of_ne (Ne.symm same)]
      exact refusing.unfound
    · intro entry listed own
      rcases List.mem_cons.mp listed with rfl | listed
      · exact absurd own same
      · exact refusing.lookups entry listed own

end Refused

/-! ## A refused request -/

/-- The row of a key that was revoked. -/
def sampleRevokedRow : ApiKeyRow where
  id := "one"
  orgId := "acme"
  name := "old"
  keyHash := "pepper:root"
  scopes := "[]"
  createdAt := "monday"
  revokedAt := some "tuesday"

def sampleRevokedRows : ApiKeyRows where
  table := ⟨[sampleRevokedRow], List.nodup_singleton _⟩
  uniqueHashes := List.nodup_singleton _

/-- Texts of which none is read. -/
def unreadTexts : RowTexts where
  toRfc3339 _ := ""
  parseFromRfc3339 _ := .error "not read"
  parseUuid _ := .error "not read"
  jsonToString _ := .ok "[]"
  jsonFromStr _ := .error "not read"

end Memcore
