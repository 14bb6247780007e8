import Memcore.Domain.Identifiers
import Memcore.Domain.Json
import Memcore.Stores.SqliteFactStore
import Memcore.Stores.VectorIndex

/-!
# The vector store in Qdrant

A collection of points with a vector and a payload of texts. A point's identifier is that of
its record, and storing a point replaces the one with its identifier. Points are counted and
deleted by conditions on their payload. Failures of the backend are out of scope.
-/
namespace Memcore

open KeyedTables

/-- A point: the payload pairs fields with texts. -/
structure QdrantPoint where
  id : String
  vector : List ℚ
  payload : List (String × String)

abbrev QdrantCollection := Table String QdrantPoint QdrantPoint.id

/-- A field of the payload and the text that it must match. -/
structure QdrantCondition where
  key : String
  text : String

/-- Whether a point matches every condition of a filter. -/
def QdrantPoint.meets (filter : List QdrantCondition) (point : QdrantPoint) : Bool :=
  filter.all fun condition => point.payload.lookup condition.key == some condition.text

/-! ## The operations -/

namespace QdrantVectorStore

def tenantFilter (tenant : TenantContext) : List QdrantCondition :=
  [⟨"org_id", tenant.orgId⟩, ⟨"user_id", tenant.userId⟩]

def tenantFactFilter (tenant : TenantContext) (factId : Uuid) : List QdrantCondition :=
  [⟨"org_id", tenant.orgId⟩, ⟨"user_id", tenant.userId⟩, ⟨"fact_id", Uuid.toText factId⟩]

def recordToPayload (formatFloat : ℚ → String) (record : VectorRecord) : List (String × String) :=
  [("id", Uuid.toText record.id), ("fact_id", Uuid.toText record.factId), ("org_id", record.orgId),
    ("user_id", record.userId), ("content", record.content),
    ("memory_type", memoryTypeToStr record.memoryType),
    ("metadata", record.metadata.print formatFloat)]

/-- The point of a record. -/
def pointOf (formatFloat : ℚ → String) (record : VectorRecord) : QdrantPoint :=
  ⟨Uuid.toText record.id, record.embedding, recordToPayload formatFloat record⟩

def deleteMatching (filter : List QdrantCondition) (collection : QdrantCollection) :
    QdrantCollection :=
  collection.retain fun point => !point.meets filter

def countMatching (filter : List QdrantCondition) (collection : QdrantCollection) : ℕ :=
  collection.rows.countP (QdrantPoint.meets filter)

/-- The length of the embedding is checked before the points of the fact are deleted. -/
def upsertVector (formatFloat : ℚ → String) (dimensions : ℕ) (tenant : TenantContext)
    (record : VectorRecord) (collection : QdrantCollection) :
    MemcoreResult Unit × QdrantCollection :=
  match ensureRecordTenant record tenant with
  | .error error => (.error error, collection)
  | .ok () =>
      if record.embedding.length ≠ dimensions then
        (.error (.validationError ("embedding length " ++ toString record.embedding.length ++
          " does not match configured dimensions " ++ toString dimensions)), collection)
      else
        let remaining := deleteMatching (tenantFactFilter tenant record.factId) collection
        (.ok (), remaining.put (pointOf formatFloat record))

def deleteByFactId (tenant : TenantContext) (factId : Uuid) (collection : QdrantCollection) :
    MemcoreResult Unit × QdrantCollection :=
  let filter := tenantFactFilter tenant factId
  if countMatching filter collection = 0 then
    (.error (.notFound ("vector record not found for fact: " ++ Uuid.toText factId)), collection)
  else (.ok (), deleteMatching filter collection)

def deleteByUser (tenant : TenantContext) (collection : QdrantCollection) :
    MemcoreResult Unit × QdrantCollection :=
  (.ok (), deleteMatching (tenantFilter tenant) collection)

end QdrantVectorStore

def qdrantVectorStore (formatFloat : ℚ → String) (dimensions : ℕ) :
    VectorStore QdrantCollection where
  upsertVector := QdrantVectorStore.upsertVector formatFloat dimensions
  deleteByFactId := QdrantVectorStore.deleteByFactId
  deleteByUser := QdrantVectorStore.deleteByUser

/-! ## What the filters match -/

namespace QdrantVectorStore

variable (formatFloat : ℚ → String)

theorem meets_tenant (tenant : TenantContext) (record : VectorRecord) :
    (pointOf formatFloat record).meets (tenantFilter tenant) =
      decide (record.tenant = tenant) := by
  obtain ⟨orgId, userId⟩ := tenant
  rw [Bool.eq_iff_iff]
  simp [QdrantPoint.meets, tenantFilter, pointOf, recordToPayload, List.lookup_cons,
    VectorRecord.tenant]

theorem meets_fact (tenant : TenantContext) (factId : Uuid) (record : VectorRecord) :
    (pointOf formatFloat record).meets (tenantFactFilter tenant factId) =
      decide (record.subject = (tenant, factId)) := by
  obtain ⟨orgId, userId⟩ := tenant
  rw [Bool.eq_iff_iff]
  simp [QdrantPoint.meets, tenantFactFilter, pointOf, recordToPayload, List.lookup_cons,
    VectorRecord.subject, VectorRecord.tenant, Uuid.toText_inj, and_assoc]

variable {collection : QdrantCollection} {records : List VectorRecord}

theorem deleteMatching_fact (image : collection.rows = records.map (pointOf formatFloat))
    (tenant : TenantContext) (factId : Uuid) :
    (deleteMatching (tenantFactFilter tenant factId) collection).rows =
      (records.filter fun record =>
        !decide (record.subject = (tenant, factId))).map (pointOf formatFloat) :=
  (SqlTables.delete_image image fun record _ => meets_fact formatFloat tenant factId record).2

theorem deleteMatching_tenant (image : collection.rows = records.map (pointOf formatFloat))
    (tenant : TenantContext) :
    (deleteMatching (tenantFilter tenant) collection).rows =
      (records.filter fun record =>
        !decide (record.tenant = tenant)).map (pointOf formatFloat) :=
  (SqlTables.delete_image image fun record _ => meets_tenant formatFloat tenant record).2

theorem countMatching_fact (image : collection.rows = records.map (pointOf formatFloat))
    (tenant : TenantContext) (factId : Uuid) :
    countMatching (tenantFactFilter tenant factId) collection =
      (records.filter fun record => decide (record.subject = (tenant, factId))).length := by
  rw [countMatching, image]
  exact SqlTables.countP_image fun record _ => meets_fact formatFloat tenant factId record

end QdrantVectorStore

end Memcore
