import Memcore.Domain.Facts
import Memcore.Foundations.KeyedTables
import Mathlib.Data.List.Sort

/-!
# The vector store

The in-memory vector store keeps one record for each record identifier. A fact
is not the key: the store would hold two records of one fact if it were given
them, and deletion by fact removes all of them. The similarity of embeddings is a
parameter, since the source computes it in floating point with a square root.
-/
namespace Memcore

open KeyedTables

/-- The embedding of one fact, with a copy of what searches return of it. -/
structure VectorRecord where
  id : Uuid
  factId : Uuid
  orgId : String
  userId : String
  embedding : List ℚ
  content : String
  memoryType : MemoryType
  metadata : Value

/-- The tenant that a record belongs to. -/
def VectorRecord.tenant (record : VectorRecord) : TenantContext := ⟨record.orgId, record.userId⟩

/-- Records are stored by their own tenant only. -/
def ensureRecordTenant (record : VectorRecord) (tenant : TenantContext) : MemcoreResult Unit :=
  if record.orgId = tenant.orgId ∧ record.userId = tenant.userId then .ok () else .error .forbidden

theorem ensureRecordTenant_eq (record : VectorRecord) (tenant : TenantContext) :
    ensureRecordTenant record tenant =
      if record.tenant = tenant then .ok () else .error .forbidden := by
  obtain ⟨orgId, userId⟩ := tenant
  simp only [ensureRecordTenant, VectorRecord.tenant, TenantContext.mk.injEq]

structure VectorSearchQuery where
  tenant : TenantContext
  embedding : List ℚ
  limit : ℕ
  memoryTypes : Option (List MemoryType)
  metadataFilter : Option Value

structure VectorSearchResult where
  factId : Uuid
  content : String
  score : ℚ
  memoryType : MemoryType
  metadata : Value

/-- The calls of the vector store that the engine makes. -/
inductive VectorStoreCall where
  | upsertVector (tenant : TenantContext) (record : VectorRecord)
  | searchVectors (query : VectorSearchQuery)
  | deleteByFactId (tenant : TenantContext) (factId : Uuid)
  | deleteByUser (tenant : TenantContext)

abbrev VectorStoreCall.Answer : VectorStoreCall → Type
  | upsertVector _ _ => Unit
  | searchVectors _ => List VectorSearchResult
  | deleteByFactId _ _ => Unit
  | deleteByUser _ => Unit

/-- Records by their own identifier. -/
abbrev MockVectorStore := Table Uuid VectorRecord VectorRecord.id

/-- A record's metadata must have every member of the filter; a filter that is no
object matches nothing. -/
def metadataMatches (recordMetadata filter : Value) : Bool :=
  match filter.asObject, recordMetadata.asObject with
  | some wanted, some members => wanted.all fun member =>
      (Value.lookup member.1 members).any member.2.same
  | _, _ => false

namespace MockVectorStore

/-- Store a record of the calling tenant, replacing the one with its identifier. -/
def upsertVector (store : MockVectorStore) (tenant : TenantContext) (record : VectorRecord) :
    MemcoreResult Unit × MockVectorStore :=
  if record.tenant ≠ tenant then (.error .forbidden, store)
  else (.ok (), store.put record)

/-- The most similar records of a tenant that pass the filters. -/
def searchVectors (cosineSimilarity : List ℚ → List ℚ → ℚ) (store : MockVectorStore)
    (query : VectorSearchQuery) : MemcoreResult (List VectorSearchResult) × MockVectorStore :=
  let wanted := store.rows.filter fun record =>
    decide (record.tenant = query.tenant) &&
    query.memoryTypes.all (fun types => decide (record.memoryType ∈ types)) &&
    query.metadataFilter.all (metadataMatches record.metadata)
  let scored := wanted.map fun record => (⟨record.factId, record.content,
    cosineSimilarity query.embedding record.embedding, record.memoryType,
    record.metadata⟩ : VectorSearchResult)
  (.ok ((scored.insertionSort fun left right => right.score ≤ left.score).take query.limit), store)

/-- Whether a record is the tenant's and about the fact. -/
def isAbout (tenant : TenantContext) (factId : Uuid) (record : VectorRecord) : Bool :=
  decide (record.tenant = tenant) && decide (record.factId = factId)

/-- Remove every record of a fact; it is an error when there is none. -/
def deleteByFactId (store : MockVectorStore) (tenant : TenantContext) (factId : Uuid) :
    MemcoreResult Unit × MockVectorStore :=
  let remaining := store.retain fun record => !isAbout tenant factId record
  if remaining.rows.length = store.rows.length then
    (.error (.notFound ("vector record not found for fact: " ++ Uuid.toText factId)), remaining)
  else (.ok (), remaining)

/-- Remove every record of a tenant. -/
def deleteByUser (store : MockVectorStore) (tenant : TenantContext) :
    MemcoreResult Unit × MockVectorStore :=
  (.ok (), store.retain fun record => decide (record.tenant ≠ tenant))

/-- The store answers one call at a time. -/
def serve (cosineSimilarity : List ℚ → List ℚ → ℚ) (store : MockVectorStore) :
    (call : VectorStoreCall) → MemcoreResult call.Answer × MockVectorStore
  | .upsertVector tenant record => upsertVector store tenant record
  | .searchVectors query => searchVectors cosineSimilarity store query
  | .deleteByFactId tenant factId => deleteByFactId store tenant factId
  | .deleteByUser tenant => deleteByUser store tenant

theorem isAbout_iff (tenant : TenantContext) (factId : Uuid) (record : VectorRecord) :
    isAbout tenant factId record = true ↔ record.tenant = tenant ∧ record.factId = factId := by
  simp [isAbout]

/-- The only refusal of an upsert is a record of another tenant. -/
theorem upsertVector_eq (store : MockVectorStore) (tenant : TenantContext)
    (record : VectorRecord) (own : record.tenant = tenant) :
    upsertVector store tenant record = (.ok (), store.put record) := by
  simp [upsertVector, own]

/-- What is left after a deletion by fact, whether it succeeds or not. -/
theorem mem_deleteByFactId (store : MockVectorStore) (tenant : TenantContext) (factId : Uuid)
    (record : VectorRecord) : record ∈ (deleteByFactId store tenant factId).2.rows ↔
      record ∈ store.rows ∧ ¬ (record.tenant = tenant ∧ record.factId = factId) := by
  have remaining : (deleteByFactId store tenant factId).2 =
      store.retain fun record => !isAbout tenant factId record := by
    simp only [deleteByFactId]
    split <;> rfl
  rw [remaining, Table.mem_retain, ← isAbout_iff]
  simp

/-- A deletion by fact succeeds exactly when the fact has a record. -/
theorem deleteByFactId_ok (store : MockVectorStore) (tenant : TenantContext) (factId : Uuid) :
    (deleteByFactId store tenant factId).1 = .ok () ↔
      ∃ record ∈ store.rows, record.tenant = tenant ∧ record.factId = factId := by
  have unchanged : (store.retain fun record => !isAbout tenant factId record).rows.length =
      store.rows.length ↔ ∀ record ∈ store.rows, ¬ isAbout tenant factId record = true := by
    rw [Table.retain, List.length_filter_eq_length_iff]
    simp
  simp only [deleteByFactId, unchanged]
  split
  · rename_i noneAbout
    simp only [reduceCtorEq, false_iff, not_exists, not_and]
    exact fun record stored sameTenant sameFact =>
      noneAbout record stored ((isAbout_iff tenant factId record).mpr ⟨sameTenant, sameFact⟩)
  · rename_i someAbout
    simp only [not_forall, not_not, exists_prop] at someAbout
    obtain ⟨record, stored, about⟩ := someAbout
    exact iff_of_true rfl ⟨record, stored, (isAbout_iff tenant factId record).mp about⟩

/-- Its only error is the missing row. -/
theorem deleteByFactId_error (store : MockVectorStore) (tenant : TenantContext) (factId : Uuid)
    (error : MemcoreError) (failed : (deleteByFactId store tenant factId).1 = .error error) :
    error.isNotFound = true := by
  simp only [deleteByFactId] at failed
  split at failed
  · exact Except.error.inj failed ▸ rfl
  · simp at failed

theorem mem_deleteByUser (store : MockVectorStore) (tenant : TenantContext)
    (record : VectorRecord) : record ∈ (deleteByUser store tenant).2.rows ↔
      record ∈ store.rows ∧ record.tenant ≠ tenant := by
  simp [deleteByUser]

end MockVectorStore

end Memcore
