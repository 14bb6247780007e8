import Memcore.Domain.Identifiers
import Memcore.Stores.SqliteFactStore

/-!
# The same facts in both stores

A row of SQLite stands for a fact of the store in memory when it holds the fact's texts,
all of them read back, and it is marked as deleted just when the fact is. Two stores hold
the same facts when every row stands for a fact and every fact has a row.
-/
namespace Memcore

open KeyedTables

/-- The fact reads back from the texts that are stored for it. -/
structure RowTexts.Carries (texts : RowTexts) (fact : Fact) : Prop where
  id : texts.parseUuid (Uuid.toText fact.id) = .ok fact.id
  metadata : ∃ text, texts.jsonToString fact.metadata = .ok text ∧
    texts.jsonFromStr text = .ok fact.metadata
  validAt : ∀ instant ∈ fact.validAt, texts.Represents instant
  invalidAt : ∀ instant ∈ fact.invalidAt, texts.Represents instant
  recordedAt : texts.Represents fact.recordedAt
  updatedAt : texts.Represents fact.updatedAt

/-- A row stands for a fact. -/
structure Stands (texts : RowTexts) (deleted : Bool) (fact : Fact) (row : FactRow) : Prop where
  carries : texts.Carries fact
  bound : ∃ metadata, texts.jsonToString fact.metadata = .ok metadata ∧
    row = SqliteFactStore.bindFact texts fact metadata row.deletedAt
  deletion : row.deletedAt.isSome = deleted

/-- A row that was written for a fact, whether or not its texts read back. -/
structure Written (texts : RowTexts) (deleted : Bool) (fact : Fact) (row : FactRow) : Prop where
  bound : ∃ metadata, row = SqliteFactStore.bindFact texts fact metadata row.deletedAt
  deletion : row.deletedAt.isSome = deleted

/-- Both stores hold the same facts. -/
structure SameFacts (texts : RowTexts) (store : MockFactStore) (rows : FactRows) : Prop where
  row : ∀ fact ∈ store.facts.rows,
    ∃ row ∈ rows.rows, Stands texts (store.isDeleted fact.id) fact row
  fact : ∀ row ∈ rows.rows,
    ∃ fact ∈ store.facts.rows, Stands texts (store.isDeleted fact.id) fact row

variable {texts : RowTexts}

theorem datetimeFromStr_ok {instant : Instant} (reads : texts.Represents instant) :
    SqliteFactStore.datetimeFromStr texts (texts.toRfc3339 instant) = .ok instant := by
  unfold TimestampText.Represents at reads
  rw [SqliteFactStore.datetimeFromStr, reads]

theorem optionalDatetimeFromStr_ok {instant : Option Instant}
    (reads : ∀ value ∈ instant, texts.Represents value) :
    SqliteFactStore.optionalDatetimeFromStr texts (instant.map texts.toRfc3339) = .ok instant := by
  cases instant with
  | none => rfl
  | some value =>
    rw [Option.map_some, SqliteFactStore.optionalDatetimeFromStr,
      datetimeFromStr_ok (reads value rfl)]
    rfl

namespace Written

variable {deleted : Bool} {fact : Fact} {row : FactRow}

theorem id (written : Written texts deleted fact row) : row.id = Uuid.toText fact.id := by
  obtain ⟨metadata, same⟩ := written.bound
  rw [same]
  rfl

theorem updatedAt (written : Written texts deleted fact row) :
    row.updatedAt = texts.toRfc3339 fact.updatedAt := by
  obtain ⟨metadata, same⟩ := written.bound
  rw [same]
  rfl

theorem ofTenant (written : Written texts deleted fact row) (tenant : TenantContext) :
    SqliteFactStore.ofTenant tenant row = decide (fact.tenant = tenant) := by
  obtain ⟨metadata, same⟩ := written.bound
  have orgId : row.orgId = fact.orgId := by rw [same]; rfl
  have userId : row.userId = fact.userId := by rw [same]; rfl
  rw [SqliteFactStore.ofTenant, orgId, userId, Fact.tenant, ← Bool.decide_and]
  cases tenant
  simp

theorem isActive (written : Written texts deleted fact row) :
    SqliteFactStore.isActive row = !deleted := by
  rw [SqliteFactStore.isActive, ← written.deletion]
  cases row.deletedAt <;> rfl

/-- A deleted fact and its marked row. -/
theorem assignDeletedAt (written : Written texts deleted fact row) (deletedAt : String) :
    Written texts true fact (SqliteFactStore.assignDeletedAt deletedAt row) := by
  obtain ⟨metadata, same⟩ := written.bound
  refine ⟨⟨metadata, ?_⟩, rfl⟩
  rw [same]
  rfl

end Written

namespace Stands

variable {deleted : Bool} {fact : Fact} {row : FactRow}

theorem written (stands : Stands texts deleted fact row) : Written texts deleted fact row := by
  obtain ⟨metadata, _, same⟩ := stands.bound
  exact ⟨⟨metadata, same⟩, stands.deletion⟩

theorem id (stands : Stands texts deleted fact row) : row.id = Uuid.toText fact.id :=
  stands.written.id

theorem updatedAt (stands : Stands texts deleted fact row) :
    row.updatedAt = texts.toRfc3339 fact.updatedAt :=
  stands.written.updatedAt

theorem ofTenant (stands : Stands texts deleted fact row) (tenant : TenantContext) :
    SqliteFactStore.ofTenant tenant row = decide (fact.tenant = tenant) :=
  stands.written.ofTenant tenant

theorem isActive (stands : Stands texts deleted fact row) :
    SqliteFactStore.isActive row = !deleted :=
  stands.written.isActive

/-- The row reads back as the fact. -/
theorem reads (stands : Stands texts deleted fact row) :
    SqliteFactStore.rowToFact texts row = .ok fact := by
  obtain ⟨metadata, printed, same⟩ := stands.bound
  obtain ⟨text, printedText, parsed⟩ := stands.carries.metadata
  obtain rfl : text = metadata := Except.ok.inj (printedText.symm.trans printed)
  have readId : SqliteFactStore.parseUuid texts (fun value => "invalid fact id '" ++ value ++ "'")
      (Uuid.toText fact.id) = .ok fact.id := by
    rw [SqliteFactStore.parseUuid, stands.carries.id]
  have readMetadata : SqliteFactStore.metadataFromStr texts text = .ok fact.metadata := by
    rw [SqliteFactStore.metadataFromStr, parsed]
  rw [same]
  simp only [SqliteFactStore.rowToFact, SqliteFactStore.bindFact, readId, readMetadata,
    memoryTypeFromStr_toStr, memorySourceFromStr_toStr,
    optionalDatetimeFromStr_ok stands.carries.validAt,
    optionalDatetimeFromStr_ok stands.carries.invalidAt,
    datetimeFromStr_ok stands.carries.recordedAt, datetimeFromStr_ok stands.carries.updatedAt,
    bind, Except.bind, pure, Except.pure]

end Stands

namespace SameFacts

variable {store : MockFactStore} {rows : FactRows}

/-- Under an identifier, either nothing is stored or a fact and its row. -/
theorem lookup (alike : SameFacts texts store rows) (factId : Uuid) :
    (store.facts.find? factId = none ∧ rows.find? (Uuid.toText factId) = none) ∨
    ∃ fact row, store.facts.find? factId = some fact ∧
      rows.find? (Uuid.toText factId) = some row ∧
      Stands texts (store.isDeleted factId) fact row := by
  cases found : store.facts.find? factId with
  | none =>
    refine .inl ⟨rfl, ?_⟩
    rw [Table.find?_eq_none] at found ⊢
    intro row stored same
    obtain ⟨fact, storedFact, stands⟩ := alike.fact row stored
    rw [stands.id, Uuid.toText_inj] at same
    exact found fact storedFact same
  | some fact =>
    obtain ⟨stored, rfl⟩ := (Table.find?_eq_some _ _ _).mp found
    obtain ⟨row, storedRow, stands⟩ := alike.row fact stored
    exact .inr ⟨fact, row, rfl, (Table.find?_eq_some _ _ _).mpr ⟨storedRow, stands.id⟩, stands⟩

end SameFacts

end Memcore
