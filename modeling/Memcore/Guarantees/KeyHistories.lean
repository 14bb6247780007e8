import Memcore.Domain.Identifiers
import Memcore.Guarantees.KeyAuthority

/-!
# The keys of an organization come from its keys

What is relied on of a store of keys is that a lookup finds a stored key, that only the key
inserted is new, and that revoking changes nothing but the time of revocation. Both stores keep
to it. Along every interleaving of requests each stored key then goes back to the keys that
were there first, from which it came by requests that carried active keys of the same
organization with the scope for it.

So an organization none of whose active keys has that scope is closed to new keys for good,
once no request with such a key is under way: a request whose key was found before the key was
revoked goes on with it.
-/
namespace Memcore

open KeyedTables Programs

/-! ## What is relied on of a store -/

/-- What stored keys may come from. -/
structure ApiKeyStore.Lawful {σ : Type} (store : ApiKeyStore σ) (stored : σ → ApiKeyRecord → Prop) :
    Prop where
  finds : ∀ keyHash keys record, store.findByHash keyHash keys = .ok (some record) →
    stored keys record
  inserts : ∀ new keys record, stored (store.insertApiKey new keys).2 record →
    stored keys record ∨ record = new
  revokes : ∀ now orgId keyId keys record,
    stored (store.revokeApiKey now orgId keyId keys).2 record →
      stored keys record ∨ ∃ before, stored keys before ∧
        record = { before with revokedAt := some now }

/-- The keys in memory. -/
def InMockStore (keys : MockApiKeyStore) (record : ApiKeyRecord) : Prop := record ∈ keys

theorem mockApiKeyStore_lawful : mockApiKeyStore.Lawful InMockStore where
  finds keyHash keys record found := by
    have same := Except.ok.inj
      (show MockApiKeyStore.findByHash keyHash keys = .ok (some record) from found)
    exact List.mem_of_find?_eq_some same
  inserts new keys record member := by
    rcases List.mem_append.mp (show record ∈ keys ++ [new] from member) with before | isNew
    · exact .inl before
    · exact .inr (List.mem_singleton.mp isNew)
  revokes now orgId keyId keys record member := by
    have after : record ∈ (MockApiKeyStore.revokeApiKey now orgId keyId keys).2 := member
    unfold MockApiKeyStore.revokeApiKey at after
    split at after
    · exact .inl after
    · rename_i place _
      rcases List.mem_iff_getElem.mp after with ⟨index, bound, same⟩
      rw [List.getElem_modify] at same
      split at same
      · exact .inr ⟨_, List.getElem_mem _, same.symm⟩
      · exact .inl (same ▸ List.getElem_mem _)

/-- A text that was written for a value is read as that value, or not at all. -/
structure RowTexts.Exact (texts : RowTexts) : Prop where
  id : ∀ id read, texts.parseUuid (Uuid.toText id) = .ok read → read = id
  instant : ∀ instant read, texts.parseFromRfc3339 (texts.toRfc3339 instant) = .ok read →
    read = instant
  json : ∀ value text read, texts.jsonToString value = .ok text →
    texts.jsonFromStr text = .ok read → read = value

/-- The keys that are read from the rows. -/
def InSqliteStore (texts : RowTexts) (rows : ApiKeyRows) (record : ApiKeyRecord) : Prop :=
  ∃ row ∈ rows.table.rows, SqliteApiKeyStore.rowToApiKeyRecord texts row = .ok record

section Sqlite

variable {texts : RowTexts}

/-- What a row is read as, part by part. -/
theorem rowToApiKeyRecord_ok {row : ApiKeyRow} {record : ApiKeyRecord}
    (reads : SqliteApiKeyStore.rowToApiKeyRecord texts row = .ok record) :
    texts.parseUuid row.id = .ok record.id ∧ record.orgId = row.orgId ∧ record.name = row.name ∧
      record.keyHash = row.keyHash ∧
      SqliteApiKeyStore.scopesFromJson texts row.scopes = .ok record.scopes ∧
      SqliteFactStore.datetimeFromStr texts row.createdAt = .ok record.createdAt ∧
      SqliteFactStore.optionalDatetimeFromStr texts row.revokedAt = .ok record.revokedAt := by
  unfold SqliteApiKeyStore.rowToApiKeyRecord at reads
  obtain ⟨id, idReads, reads⟩ := (bind_ok _ _ _).mp reads
  obtain ⟨scopes, scopesRead, reads⟩ := (bind_ok _ _ _).mp reads
  obtain ⟨createdAt, createdReads, reads⟩ := (bind_ok _ _ _).mp reads
  obtain ⟨revokedAt, revokedReads, reads⟩ := (bind_ok _ _ _).mp reads
  obtain rfl := Except.ok.inj reads
  refine ⟨?_, rfl, rfl, rfl, scopesRead, createdReads, revokedReads⟩
  unfold SqliteFactStore.parseUuid at idReads
  split at idReads
  · rename_i read parsed
    rw [parsed, Except.ok.inj idReads]
  · nomatch idReads

theorem datetimeFromStr_exact (exactly : texts.Exact) {instant read : Instant}
    (reads : SqliteFactStore.datetimeFromStr texts (texts.toRfc3339 instant) = .ok read) :
    read = instant := by
  unfold SqliteFactStore.datetimeFromStr at reads
  split at reads
  · rename_i parsed same
    exact Except.ok.inj reads ▸ exactly.instant instant parsed same
  · nomatch reads

theorem asTexts_labels (scopes : List ApiKeyScope) :
    SqliteApiKeyStore.asTexts
        (.array (scopes.map fun scope => .string (apiKeyScopeToStr scope))) =
      some (scopes.map apiKeyScopeToStr) := by
  induction scopes with
  | nil => rfl
  | cons scope scopes inductionHypothesis =>
    simp only [SqliteApiKeyStore.asTexts, List.map_cons, List.mapM_cons] at inductionHypothesis ⊢
    rw [inductionHypothesis]
    rfl

theorem scopes_exact (exactly : texts.Exact) {scopes read : List ApiKeyScope} {text : String}
    (written : SqliteApiKeyStore.scopesToJson texts scopes = .ok text)
    (reads : SqliteApiKeyStore.scopesFromJson texts text = .ok read) : read = scopes := by
  unfold SqliteApiKeyStore.scopesToJson at written
  split at written
  · rename_i json printed
    obtain rfl := Except.ok.inj written
    unfold SqliteApiKeyStore.scopesFromJson at reads
    split at reads
    · nomatch reads
    · rename_i value parsed
      rw [exactly.json _ _ value printed parsed, asTexts_labels] at reads
      have labels := @SqlTables.read_image _ _ _ apiKeyScopeToStr scopes apiKeyScopeFromStr
        fun scope _ => apiKeyScopeFromStr_toStr scope
      have shown : (scopes.map apiKeyScopeToStr).mapM apiKeyScopeFromStr = .ok read := reads
      rw [labels] at shown
      exact (Except.ok.inj shown).symm
  · nomatch written

/-- The row that is written for a key is read as that key, or not at all. -/
theorem bindApiKey_exact (exactly : texts.Exact) {record read : ApiKeyRecord} {scopes : String}
    (written : SqliteApiKeyStore.scopesToJson texts record.scopes = .ok scopes)
    (reads : SqliteApiKeyStore.rowToApiKeyRecord texts
      (SqliteApiKeyStore.bindApiKey texts record scopes) = .ok read) : read = record := by
  obtain ⟨idReads, orgId, name, keyHash, scopesRead, createdReads, revokedReads⟩ :=
    rowToApiKeyRecord_ok reads
  have id : read.id = record.id := exactly.id _ _ idReads
  have scopes : read.scopes = record.scopes := scopes_exact exactly written scopesRead
  have createdAt : read.createdAt = record.createdAt := datetimeFromStr_exact exactly createdReads
  have revokedAt : read.revokedAt = record.revokedAt := by
    have shown : SqliteFactStore.optionalDatetimeFromStr texts
        (record.revokedAt.map texts.toRfc3339) = .ok read.revokedAt := revokedReads
    cases present : record.revokedAt with
    | none =>
      rw [present] at shown
      exact (Except.ok.inj shown).symm
    | some instant =>
      rw [present, Option.map_some, SqliteFactStore.optionalDatetimeFromStr] at shown
      cases parsed : SqliteFactStore.datetimeFromStr texts (texts.toRfc3339 instant) with
      | error error =>
        rw [parsed] at shown
        nomatch shown
      | ok value =>
        rw [parsed] at shown
        rw [← Except.ok.inj shown, datetimeFromStr_exact exactly parsed]
  cases read
  cases record
  simp_all [SqliteApiKeyStore.bindApiKey]

/-- Reading a row whose key was just revoked. -/
theorem rowToApiKeyRecord_revoked (exactly : texts.Exact) {row : ApiKeyRow} {read : ApiKeyRecord}
    {now : Instant} (active : SqliteApiKeyStore.isActive row = true)
    (reads : SqliteApiKeyStore.rowToApiKeyRecord texts
      (SqliteApiKeyStore.assignRevokedAt (texts.toRfc3339 now) row) = .ok read) :
    ∃ before, SqliteApiKeyStore.rowToApiKeyRecord texts row = .ok before ∧
      read = { before with revokedAt := some now } := by
  have unrevoked : row.revokedAt = none := by
    simpa [SqliteApiKeyStore.isActive] using active
  unfold SqliteApiKeyStore.rowToApiKeyRecord at reads
  obtain ⟨id, idReads, reads⟩ := (bind_ok _ _ _).mp reads
  obtain ⟨scopes, scopesRead, reads⟩ := (bind_ok _ _ _).mp reads
  obtain ⟨createdAt, createdReads, reads⟩ := (bind_ok _ _ _).mp reads
  obtain ⟨revokedAt, revokedReads, reads⟩ := (bind_ok _ _ _).mp reads
  obtain rfl := Except.ok.inj reads
  have asNow : revokedAt = some now := by
    cases parsed : SqliteFactStore.datetimeFromStr texts (texts.toRfc3339 now) with
    | error error =>
      rw [SqliteApiKeyStore.assignRevokedAt, SqliteFactStore.optionalDatetimeFromStr,
        parsed] at revokedReads
      nomatch revokedReads
    | ok value =>
      rw [SqliteApiKeyStore.assignRevokedAt, SqliteFactStore.optionalDatetimeFromStr,
        parsed] at revokedReads
      rw [← Except.ok.inj revokedReads, datetimeFromStr_exact exactly parsed]
  refine ⟨⟨id, row.orgId, row.name, row.keyHash, scopes, createdAt, none⟩, ?_, by rw [asNow]; rfl⟩
  have idShown : SqliteFactStore.parseUuid texts
      (fun value => "invalid api key id '" ++ value ++ "'") row.id = .ok id := idReads
  have scopesShown : SqliteApiKeyStore.scopesFromJson texts row.scopes = .ok scopes := scopesRead
  have createdShown : SqliteFactStore.datetimeFromStr texts row.createdAt = .ok createdAt :=
    createdReads
  simp only [SqliteApiKeyStore.rowToApiKeyRecord, idShown, scopesShown, createdShown, unrevoked,
    SqliteFactStore.optionalDatetimeFromStr, bind, Except.bind, pure, Except.pure]

theorem rows_insert {row : ApiKeyRow} {rows inserted : ApiKeyRows}
    (done : rows.insert row = .ok inserted) :
    inserted.table.rows = rows.table.rows ++ [row] := by
  unfold ApiKeyRows.insert at done
  split at done
  · split at done
    · rename_i fresh
      rw [← Except.ok.inj done]
      exact Table.rows_put_of_fresh rows.table fresh
    · nomatch done
  · nomatch done

theorem mem_setRevokedAt {revokedAt : String} {selects : ApiKeyRow → Bool} {rows : ApiKeyRows}
    {row : ApiKeyRow} :
    row ∈ (SqliteApiKeyStore.setRevokedAt revokedAt selects rows).2.table.rows ↔
      ∃ before ∈ rows.table.rows, (if selects before then
        SqliteApiKeyStore.assignRevokedAt revokedAt before else before) = row :=
  SqlTables.mem_update rows.table selects _ (SqliteApiKeyStore.assignRevokedAt_id revokedAt) row

theorem revokeApiKey_rows (now : Instant) (orgId : String) (keyId : Uuid) (rows : ApiKeyRows) :
    (SqliteApiKeyStore.revokeApiKey texts now orgId keyId rows).2 =
      (SqliteApiKeyStore.setRevokedAt (texts.toRfc3339 now)
        (SqliteApiKeyStore.ofActiveKey orgId keyId) rows).2 := by
  unfold SqliteApiKeyStore.revokeApiKey
  simp only
  split
  · rfl
  · rfl

theorem sqliteApiKeyStore_lawful (exactly : texts.Exact) :
    (sqliteApiKeyStore texts).Lawful (InSqliteStore texts) where
  finds keyHash rows record found := by
    have shown : SqliteApiKeyStore.findByHash texts keyHash rows = .ok (some record) := found
    unfold SqliteApiKeyStore.findByHash at shown
    split at shown
    · rename_i row selected
      cases reads : SqliteApiKeyStore.rowToApiKeyRecord texts row with
      | error error =>
        rw [reads] at shown
        nomatch shown
      | ok read =>
        rw [reads] at shown
        obtain rfl := Option.some.inj (Except.ok.inj shown)
        exact ⟨row, List.mem_of_find?_eq_some selected, reads⟩
    · nomatch Except.ok.inj shown
  inserts new rows record member := by
    obtain ⟨row, stored, reads⟩ := member
    have after : row ∈ (SqliteApiKeyStore.insertApiKey texts new rows).2.table.rows := stored
    unfold SqliteApiKeyStore.insertApiKey at after
    split at after
    · exact .inl ⟨row, after, reads⟩
    · rename_i scopes written
      split at after
      · rename_i inserted done
        rw [rows_insert done, List.mem_append, List.mem_singleton] at after
        rcases after with before | rfl
        · exact .inl ⟨row, before, reads⟩
        · exact .inr (bindApiKey_exact exactly written reads)
      · exact .inl ⟨row, after, reads⟩
  revokes now orgId keyId rows record member := by
    obtain ⟨row, stored, reads⟩ := member
    have after : row ∈ (SqliteApiKeyStore.revokeApiKey texts now orgId keyId rows).2.table.rows :=
      stored
    rw [revokeApiKey_rows, mem_setRevokedAt] at after
    obtain ⟨before, beforeStored, same⟩ := after
    by_cases selected : SqliteApiKeyStore.ofActiveKey orgId keyId before = true
    · rw [if_pos selected] at same
      subst same
      have active : SqliteApiKeyStore.isActive before = true := by
        simp only [SqliteApiKeyStore.ofActiveKey, Bool.and_eq_true] at selected
        exact selected.2.2
      obtain ⟨earlier, earlierReads, same⟩ := rowToApiKeyRecord_revoked exactly active reads
      exact .inr ⟨earlier, ⟨before, beforeStored, earlierReads⟩, same⟩
    · rw [if_neg selected] at same
      exact .inl ⟨before, beforeStored, same ▸ reads⟩

end Sqlite

/-! ## Along the interleavings of requests -/

section Histories

variable {σ : Type} {gateway : Gateway} {store : ApiKeyStore σ} {requests : ℕ → HttpRequest}
  {stored : σ → ApiKeyRecord → Prop} {world : ApiWorld σ} {choice : ApiChoice} {call : ApiCall}
  {record : ApiKeyRecord}

/-- A change leaves the keys alone, or is what the store makes of it. -/
theorem change_keys {α : Type} (choice : ApiChoice) (operation : σ → MemcoreResult α × σ)
    (world : ApiWorld σ) : (choice.change operation world).2.keys = world.keys ∨
      (choice.change operation world).2.keys = (operation world.keys).2 := by
  unfold ApiChoice.change
  split
  · exact .inl rfl
  · exact .inr rfl

/-- A key that is stored after a call was stored before it, or was just revoked, or is the one
that the call inserts. -/
theorem ApiKeyStore.Lawful.after (laws : store.Lawful stored)
    (after : stored (serveApiCall store choice call world).2.keys record) :
    stored world.keys record ∨
      (∃ before now, stored world.keys before ∧ record = { before with revokedAt := some now }) ∨
      call = .insertApiKey record := by
  cases call with
  | insertApiKey new =>
    rcases change_keys choice (store.insertApiKey new) world with same | changed
    · exact .inl (same ▸ after)
    · rcases laws.inserts new world.keys record (changed ▸ after) with before | rfl
      · exact .inl before
      · exact .inr (.inr rfl)
  | revokeApiKey orgId keyId =>
    rcases change_keys choice (store.revokeApiKey choice.now orgId keyId) world with same | changed
    · exact .inl (same ▸ after)
    · rcases laws.revokes choice.now orgId keyId world.keys record (changed ▸ after) with
        before | ⟨before, held, same⟩
      · exact .inl before
      · exact .inr (.inl ⟨before, choice.now, held, same⟩)
  | findByHash keyHash => exact .inl after
  | listApiKeys query => exact .inl after
  | checkRate orgId => exact .inl after
  | newUuid => exact .inl after
  | utcNow => exact .inl after
  | handle endpoint orgId => exact .inl after

theorem ApiKeyStore.Lawful.found (laws : store.Lawful stored) {keyHash : String}
    (found : (serveApiCall store choice (.findByHash keyHash) world).1 = .ok (some record)) :
    stored world.keys record := by
  unfold serveApiCall ApiChoice.orFault at found
  dsimp only at found
  split at found
  · nomatch found
  · apply laws.finds keyHash world.keys record
    cases answer : store.findByHash keyHash world.keys with
    | error error =>
      rw [answer] at found
      nomatch found
    | ok key =>
      rw [answer] at found
      rw [Except.ok.inj found]

/-- Keys that go back to the first ones: a key comes from an active key of its organization
that has the scope for it, and revoking a key leaves it where it comes from. -/
inductive Descends (isFirst : ApiKeyRecord → Prop) : ApiKeyRecord → Prop where
  | first {record : ApiKeyRecord} (held : isFirst record) : Descends isFirst record
  | created {parent child : ApiKeyRecord} (authority : Descends isFirst parent)
      (active : parent.isActive = true) (scope : .adminWrite ∈ parent.scopes)
      (sameOrganization : child.orgId = parent.orgId) (new : child.isActive = true) :
      Descends isFirst child
  | revoked {record : ApiKeyRecord} (now : Instant) (earlier : Descends isFirst record) :
      Descends isFirst { record with revokedAt := some now }

/-- The key of a stage was found active. -/
theorem keyProtocol_next_stored (laws : store.Lawful stored) {request : HttpRequest}
    {key : Option ApiKeyRecord} (allowed : (keyProtocol gateway request).allows key call)
    (next : (keyProtocol gateway request).next key call
      (serveApiCall store choice call world).1 = some record) :
    key = some record ∨ record.isActive = true ∧ stored world.keys record := by
  rcases keyProtocol_next allowed next with before | ⟨active, keyHash, _, event⟩
  · exact .inl before
  · obtain ⟨rfl, answer⟩ := Event.mk.inj event
    exact .inr ⟨active, laws.found (eq_of_heq answer)⟩

/-- An insertion goes with a key for it. -/
theorem insertion_goes_with {request : HttpRequest} {key : Option ApiKeyRecord}
    (allowed : (keyProtocol gateway request).allows key (.insertApiKey record)) :
    ∃ parent, key = some parent ∧ .adminWrite ∈ parent.scopes ∧ parent.orgId = record.orgId ∧
      record.isActive = true := by
  cases key with
  | none =>
    obtain ⟨_, lookup, _⟩ := allowed
    nomatch lookup
  | some parent =>
    have goes : GoesWith parent (.insertApiKey record) := allowed
    obtain ⟨scope, asked, held⟩ := goes.permitted.scope _ rfl
    obtain rfl := List.mem_singleton.mp asked
    have new : record.revokedAt = none := goes.insertsActive record rfl
    exact ⟨parent, rfl, held, goes.permitted.organization _ rfl, by rw [ApiKeyRecord.isActive, new]; rfl⟩

/-- All keys go back to the first ones, those of the stages too, which were found active. -/
structure AllDescend (isFirst : ApiKeyRecord → Prop) (stored : σ → ApiKeyRecord → Prop)
    (world : ApiWorld σ) (_ : ApiTrace) (stages : ℕ → Option ApiKeyRecord) : Prop where
  stored : ∀ record, stored world.keys record → Descends isFirst record
  staged : ∀ thread record, stages thread = some record →
    Descends isFirst record ∧ record.isActive = true

/-- No active key of the organization has the scope to make keys. -/
def NoMaker (stored : σ → ApiKeyRecord → Prop) (keys : σ) (orgId : String) : Prop :=
  ∀ record, stored keys record → record.orgId = orgId → .adminWrite ∈ record.scopes →
    record.isActive = false

/-- No request for which such a key was found has a call left to make. -/
def NoneUnderWay (gateway : Gateway) (requests : ℕ → HttpRequest) (pool : ApiPool σ)
    (orgId : String) : Prop :=
  ∀ thread record, gateway.FoundFor requests pool.trace thread record → record.orgId = orgId →
    .adminWrite ∈ record.scopes → ∀ call resume, pool.threads thread ≠ .ask call resume

/-- The key, or the same key after it was revoked. -/
def SameOrRevoked (before record : ApiKeyRecord) : Prop :=
  record = before ∨ ∃ now, record = { before with revokedAt := some now }

theorem SameOrRevoked.then_revoked {before : ApiKeyRecord} (same : SameOrRevoked before record)
    (now : Instant) : SameOrRevoked before { record with revokedAt := some now } := by
  rcases same with rfl | ⟨earlier, rfl⟩
  · exact .inr ⟨now, rfl⟩
  · exact .inr ⟨now, rfl⟩

/-- The organization has no keys but those that it had, no active key with the scope to make
keys, and no request with such a key. -/
structure Closed (stored : σ → ApiKeyRecord → Prop) (first : σ) (orgId : String)
    (world : ApiWorld σ) (_ : ApiTrace) (stages : ℕ → Option ApiKeyRecord) : Prop where
  kept : ∀ record, stored world.keys record → record.orgId = orgId →
    ∃ before, stored first before ∧ SameOrRevoked before record
  noMaker : NoMaker stored world.keys orgId
  noRequest : ∀ thread record, stages thread = some record → record.orgId = orgId →
    .adminWrite ∉ record.scopes

theorem Closed.step (laws : store.Lawful stored) {first : σ} {orgId : String} {trace : ApiTrace}
    {stages : ℕ → Option ApiKeyRecord} {thread : ℕ}
    (closed : Closed stored first orgId world trace stages)
    (allowed : (keyProtocol gateway (requests thread)).allows (stages thread) call) :
    Closed stored first orgId (serveApiCall store choice call world).2
      ((thread, ⟨call, (serveApiCall store choice call world).1⟩) :: trace)
      (Function.update stages thread ((keyProtocol gateway (requests thread)).next
        (stages thread) call (serveApiCall store choice call world).1)) := by
  have notMade (new : ApiKeyRecord) (inserts : call = .insertApiKey new) : new.orgId ≠ orgId := by
    subst inserts
    obtain ⟨parent, key, scope, organization, _⟩ := insertion_goes_with allowed
    intro own
    exact closed.noRequest thread parent key (organization.trans own) scope
  constructor
  · intro record after own
    rcases laws.after after with held | ⟨earlier, now, held, rfl⟩ | inserts
    · exact closed.kept record held own
    · obtain ⟨before, there, same⟩ := closed.kept earlier held own
      exact ⟨before, there, same.then_revoked now⟩
    · exact absurd own (notMade record inserts)
  · intro record after own scope
    rcases laws.after after with held | ⟨earlier, now, held, rfl⟩ | inserts
    · exact closed.noMaker record held own scope
    · rfl
    · exact absurd own (notMade record inserts)
  · intro other record reached own scope
    by_cases same : other = thread
    · subst same
      rw [Function.update_self] at reached
      rcases keyProtocol_next_stored laws allowed reached with earlier | ⟨active, held⟩
      · exact closed.noRequest other record earlier own scope
      · rw [closed.noMaker record held own scope] at active
        nomatch active
    · rw [Function.update_of_ne same] at reached
      exact closed.noRequest other record reached own scope

/-- Where a request stands, as long as it has a call left to make. -/
def stageWhileWaiting (program : ApiProgram ApiResponse) (stage : Option ApiKeyRecord) :
    Option ApiKeyRecord :=
  match program with
  | .ask _ _ => stage
  | _ => none

end Histories

/-! ## A key that makes another, and one that revokes itself -/

/-- Texts for the instants and scopes that are met below. -/
def sampleKeyTexts : RowTexts where
  toRfc3339 instant := if instant = 5 then "five" else "another"
  parseFromRfc3339 text := if text = "five" then .ok 5 else .error "not read"
  parseUuid text := .ok (Uuid.ofText text)
  jsonToString
    | .array [.string "admin_write"] => .ok "makers"
    | _ => .error "not written"
  jsonFromStr text :=
    if text = "makers" then .ok (.array [.string "admin_write"]) else .error "not read"

theorem sampleKeyTexts_exact : sampleKeyTexts.Exact where
  id id read parsed := by
    rw [← Except.ok.inj parsed]
    exact Uuid.ofText_toText id
  instant instant read parsed := by
    by_cases five : instant = 5
    · subst five
      exact (Except.ok.inj parsed).symm
    · simp [sampleKeyTexts, five] at parsed
  json value text read written parsed := by
    simp only [sampleKeyTexts] at written
    split at written
    · obtain rfl := Except.ok.inj written
      exact (Except.ok.inj parsed).symm
    · nomatch written

def sampleMakerRow : ApiKeyRow :=
  SqliteApiKeyStore.bindApiKey sampleKeyTexts { sampleMaker with createdAt := 5 } "makers"

def sampleMakerRows : ApiKeyRows where
  table := ⟨[sampleMakerRow], List.nodup_singleton _⟩
  uniqueHashes := List.nodup_singleton _

/-- The first request revokes the key that it carries; all others try to make a key. -/
def sampleRevocations : ℕ → HttpRequest
  | 0 => ⟨sampleHeaders, .revokeApiKey "1"⟩
  | _ + 1 => sampleCreation

end Memcore
