import Memcore.Domain.Identifiers
import Memcore.Domain.Json
import Memcore.Foundations.SqlFilters
import Memcore.Stores.SqliteFactStore
import Memcore.Stores.VectorIndex

/-!
# The vector store in LanceDB

A table of rows with texts and an embedding of fixed length. Rows are counted and deleted by
filters that are written as texts. An upsert deletes the rows of its fact before it looks at
the length of the embedding. Failures of the backend are out of scope.
-/
namespace Memcore

open KeyedTables

/-- How a record is kept: identifiers, enumerations and metadata are texts. -/
structure LanceDbRow where
  id : String
  factId : String
  orgId : String
  userId : String
  content : String
  memoryType : String
  embedding : List ℚ
  metadata : String

abbrev LanceDbTable := List LanceDbRow

/-- The columns that hold texts. -/
def LanceDbRow.column (row : LanceDbRow) (name : String) : Option String :=
  if name = "id" then some row.id
  else if name = "fact_id" then some row.factId
  else if name = "org_id" then some row.orgId
  else if name = "user_id" then some row.userId
  else if name = "content" then some row.content
  else if name = "memory_type" then some row.memoryType
  else if name = "metadata" then some row.metadata
  else none

namespace LanceDbTable

def columns : List String :=
  ["id", "fact_id", "org_id", "user_id", "content", "memory_type", "metadata"]

/-- The comparisons of a predicate, all of them with columns of the table. -/
def plan (predicate : String) : Except String (List SqlFilters.Comparison) :=
  match SqlFilters.read predicate with
  | none => .error ("invalid predicate: " ++ predicate)
  | some filter =>
      if filter.all fun comparison => decide (comparison.column ∈ columns) then .ok filter
      else .error ("column not found: " ++ predicate)

def selects (filter : List SqlFilters.Comparison) (row : LanceDbRow) : Bool :=
  SqlFilters.selects row.column filter

/-- Delete the rows that a predicate selects. -/
def delete (predicate : String) (table : LanceDbTable) : Except String LanceDbTable :=
  (plan predicate).map fun filter => table.filter fun row => !selects filter row

/-- The number of rows that a predicate selects. -/
def countRows (predicate : String) (table : LanceDbTable) : Except String ℕ :=
  (plan predicate).map fun filter => table.countP (selects filter)

/-- Append a batch of rows. -/
def add (batch : List LanceDbRow) (table : LanceDbTable) : LanceDbTable :=
  table ++ batch

end LanceDbTable

/-! ## The operations -/

namespace LanceDbVectorStore

def escapeSqlLiteral (value : String) : String :=
  Texts.replace '\'' "''" value

def tenantFilter (tenant : TenantContext) : String :=
  "org_id" ++ " = '" ++ escapeSqlLiteral tenant.orgId ++ "' AND " ++
    "user_id" ++ " = '" ++ escapeSqlLiteral tenant.userId ++ "'"

/-- The predicate for the rows of a fact, as deletions and upserts write it. -/
def factPredicate (tenant : TenantContext) (factId : Uuid) : String :=
  tenantFilter tenant ++ " AND " ++ "fact_id" ++ " = '" ++ escapeSqlLiteral (Uuid.toText factId) ++
    "'"

/-- The row of a record. -/
def rowOf (formatFloat : ℚ → String) (record : VectorRecord) : LanceDbRow where
  id := Uuid.toText record.id
  factId := Uuid.toText record.factId
  orgId := record.orgId
  userId := record.userId
  content := record.content
  memoryType := memoryTypeToStr record.memoryType
  embedding := record.embedding
  metadata := record.metadata.print formatFloat

/-- A batch of one row; the column of embeddings has a fixed length. -/
def recordToBatch (formatFloat : ℚ → String) (record : VectorRecord) (dimensions : ℕ) :
    MemcoreResult (List LanceDbRow) :=
  if record.embedding.length ≠ dimensions then
    .error (.validationError ("embedding length " ++ toString record.embedding.length ++
      " does not match configured dimensions " ++ toString dimensions))
  else .ok [rowOf formatFloat record]

def deleteMatching (predicate : String) (table : LanceDbTable) :
    MemcoreResult Unit × LanceDbTable :=
  match LanceDbTable.delete predicate table with
  | .error error => (.error (storageError "failed to delete lancedb vectors" error), table)
  | .ok remaining => (.ok (), remaining)

/-- The rows of the fact are deleted before the batch is made. -/
def upsertVector (formatFloat : ℚ → String) (dimensions : ℕ) (tenant : TenantContext)
    (record : VectorRecord) (table : LanceDbTable) : MemcoreResult Unit × LanceDbTable :=
  match ensureRecordTenant record tenant with
  | .error error => (.error error, table)
  | .ok () =>
      match deleteMatching (factPredicate tenant record.factId) table with
      | (.error error, table) => (.error error, table)
      | (.ok (), remaining) =>
          match recordToBatch formatFloat record dimensions with
          | .error error => (.error error, remaining)
          | .ok batch => (.ok (), LanceDbTable.add batch remaining)

def deleteByFactId (tenant : TenantContext) (factId : Uuid) (table : LanceDbTable) :
    MemcoreResult Unit × LanceDbTable :=
  let predicate := factPredicate tenant factId
  match LanceDbTable.countRows predicate table with
  | .error error =>
      (.error (storageError "failed to count lancedb rows before delete" error), table)
  | .ok before =>
      if before = 0 then
        (.error (.notFound ("vector record not found for fact: " ++ Uuid.toText factId)), table)
      else deleteMatching predicate table

def deleteByUser (tenant : TenantContext) (table : LanceDbTable) :
    MemcoreResult Unit × LanceDbTable :=
  deleteMatching (tenantFilter tenant) table

end LanceDbVectorStore

def lanceDbVectorStore (formatFloat : ℚ → String) (dimensions : ℕ) : VectorStore LanceDbTable where
  upsertVector := LanceDbVectorStore.upsertVector formatFloat dimensions
  deleteByFactId := LanceDbVectorStore.deleteByFactId
  deleteByUser := LanceDbVectorStore.deleteByUser

/-! ## What the predicates select -/

namespace LanceDbVectorStore

open SqlFilters

def tenantComparisons (tenant : TenantContext) : List Comparison :=
  [⟨"org_id", tenant.orgId⟩, ⟨"user_id", tenant.userId⟩]

def factComparisons (tenant : TenantContext) (factId : Uuid) : List Comparison :=
  tenantComparisons tenant ++ [⟨"fact_id", Uuid.toText factId⟩]

theorem tenantFilter_eq (tenant : TenantContext) :
    tenantFilter tenant = SqlFilters.write (tenantComparisons tenant) := by
  apply String.toList_inj.mp
  simp [tenantFilter, escapeSqlLiteral, SqlFilters.write, tenantComparisons, Comparison.write,
    Texts.join]

theorem factPredicate_eq (tenant : TenantContext) (factId : Uuid) :
    factPredicate tenant factId = SqlFilters.write (factComparisons tenant factId) := by
  apply String.toList_inj.mp
  simp [factPredicate, tenantFilter, escapeSqlLiteral, SqlFilters.write, factComparisons,
    tenantComparisons, Comparison.write, Texts.join]

/-- The text of comparisons with columns of the table is planned as these comparisons. -/
theorem plan_write {filter : List Comparison} (some : filter ≠ [])
    (named : ∀ comparison ∈ filter, comparison.Named)
    (known : ∀ comparison ∈ filter, comparison.column ∈ LanceDbTable.columns) :
    LanceDbTable.plan (SqlFilters.write filter) = .ok filter := by
  rw [LanceDbTable.plan, read_write some named]
  exact if_pos (by simpa using known)

theorem factComparisons_named (tenant : TenantContext) (factId : Uuid) :
    ∀ comparison ∈ factComparisons tenant factId, comparison.Named := by
  intro comparison member
  simp only [factComparisons, tenantComparisons, List.cons_append, List.nil_append,
    List.mem_cons, List.not_mem_nil, or_false] at member
  rcases member with rfl | rfl | rfl
  · exact (by decide : "org_id".toList.all isNameCharacter = true)
  · exact (by decide : "user_id".toList.all isNameCharacter = true)
  · exact (by decide : "fact_id".toList.all isNameCharacter = true)

theorem plan_fact (tenant : TenantContext) (factId : Uuid) :
    LanceDbTable.plan (factPredicate tenant factId) = .ok (factComparisons tenant factId) := by
  rw [factPredicate_eq]
  apply plan_write (by simp [factComparisons]) (factComparisons_named tenant factId)
  simp [factComparisons, tenantComparisons, LanceDbTable.columns]

theorem plan_tenant (tenant : TenantContext) :
    LanceDbTable.plan (tenantFilter tenant) = .ok (tenantComparisons tenant) := by
  rw [tenantFilter_eq]
  apply plan_write (by simp [tenantComparisons])
  · intro comparison member
    exact factComparisons_named tenant 0 comparison (List.mem_append_left _ member)
  · simp [tenantComparisons, LanceDbTable.columns]

variable (formatFloat : ℚ → String)

theorem selects_tenant (tenant : TenantContext) (record : VectorRecord) :
    LanceDbTable.selects (tenantComparisons tenant) (rowOf formatFloat record) =
      decide (record.tenant = tenant) := by
  obtain ⟨orgId, userId⟩ := tenant
  rw [Bool.eq_iff_iff]
  simp [LanceDbTable.selects, SqlFilters.selects, tenantComparisons, LanceDbRow.column, rowOf,
    VectorRecord.tenant]

theorem selects_fact (tenant : TenantContext) (factId : Uuid) (record : VectorRecord) :
    LanceDbTable.selects (factComparisons tenant factId) (rowOf formatFloat record) =
      decide (record.subject = (tenant, factId)) := by
  obtain ⟨orgId, userId⟩ := tenant
  rw [Bool.eq_iff_iff]
  simp [LanceDbTable.selects, SqlFilters.selects, factComparisons, tenantComparisons,
    LanceDbRow.column, rowOf, VectorRecord.subject, VectorRecord.tenant, Uuid.toText_inj, and_assoc]

/-- A planned predicate deletes the rows of the records that match. -/
theorem deleteMatching_planned {predicate : String} {filter : List Comparison}
    (planned : LanceDbTable.plan predicate = .ok filter) {matching : VectorRecord → Bool}
    (agree : ∀ record, LanceDbTable.selects filter (rowOf formatFloat record) = matching record)
    (records : List VectorRecord) :
    deleteMatching predicate (records.map (rowOf formatFloat)) =
      (.ok (), (records.filter fun record => !matching record).map (rowOf formatFloat)) := by
  have kept : (records.map (rowOf formatFloat)).filter
      (fun row => !LanceDbTable.selects filter row) =
        (records.filter fun record => !matching record).map (rowOf formatFloat) :=
    SqlTables.filter_image fun record _ => congrArg not (agree record)
  rw [deleteMatching, LanceDbTable.delete, planned, Except.map, kept]

theorem deleteMatching_fact (tenant : TenantContext) (factId : Uuid)
    (records : List VectorRecord) :
    deleteMatching (factPredicate tenant factId) (records.map (rowOf formatFloat)) =
      (.ok (), (records.filter fun record =>
        !decide (record.subject = (tenant, factId))).map (rowOf formatFloat)) :=
  deleteMatching_planned formatFloat (plan_fact tenant factId)
    (selects_fact formatFloat tenant factId) records

theorem deleteMatching_tenant (tenant : TenantContext) (records : List VectorRecord) :
    deleteMatching (tenantFilter tenant) (records.map (rowOf formatFloat)) =
      (.ok (), (records.filter fun record =>
        !decide (record.tenant = tenant)).map (rowOf formatFloat)) :=
  deleteMatching_planned formatFloat (plan_tenant tenant) (selects_tenant formatFloat tenant)
    records

theorem countRows_fact (tenant : TenantContext) (factId : Uuid) (records : List VectorRecord) :
    LanceDbTable.countRows (factPredicate tenant factId) (records.map (rowOf formatFloat)) =
      .ok (records.filter fun record => decide (record.subject = (tenant, factId))).length := by
  rw [LanceDbTable.countRows, plan_fact, Except.map, SqlTables.countP_image fun record _ =>
    selects_fact formatFloat tenant factId record]

end LanceDbVectorStore

end Memcore
