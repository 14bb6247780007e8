import Memcore.Foundations.Refinement
import Memcore.Stores.VectorStore

/-!
# What a vector store is for

A vector index keeps one record for each fact of each tenant, and replaces it when a record
of the same fact is stored. It may refuse embeddings. The stores of the program are compared
with this index. Which facts have a record can be told from the writes alone.
-/
namespace Memcore

open KeyedTables Refinement

/-- The operations of a vector store that change it. -/
structure VectorStore (σ : Type) where
  upsertVector (tenant : TenantContext) (record : VectorRecord) : σ → MemcoreResult Unit × σ
  deleteByFactId (tenant : TenantContext) (factId : Uuid) : σ → MemcoreResult Unit × σ
  deleteByUser (tenant : TenantContext) : σ → MemcoreResult Unit × σ

def mockVectorStore : VectorStore MockVectorStore where
  upsertVector tenant record store := store.upsertVector tenant record
  deleteByFactId tenant factId store := store.deleteByFactId tenant factId
  deleteByUser tenant store := store.deleteByUser tenant

/-- Calls that change a vector store. -/
inductive VectorWrite where
  | upsertVector (tenant : TenantContext) (record : VectorRecord)
  | deleteByFactId (tenant : TenantContext) (factId : Uuid)
  | deleteByUser (tenant : TenantContext)

def VectorStore.write {σ : Type} (store : VectorStore σ) :
    VectorWrite → σ → MemcoreResult Unit × σ
  | .upsertVector tenant record => store.upsertVector tenant record
  | .deleteByFactId tenant factId => store.deleteByFactId tenant factId
  | .deleteByUser tenant => store.deleteByUser tenant

/-- The record that a write brings. -/
def VectorWrite.record? : VectorWrite → Option VectorRecord
  | upsertVector _ record => some record
  | _ => none

/-- The identifiers of the records that writes bring. -/
def broughtIds (writes : List VectorWrite) : List Uuid :=
  (writes.flatMap fun write => write.record?.toList).map VectorRecord.id

/-! ## The index -/

/-- What a record is about. -/
def VectorRecord.subject (record : VectorRecord) : TenantContext × Uuid :=
  (record.tenant, record.factId)

/-- At most one record for each fact of each tenant. -/
abbrev VectorIndex := Table (TenantContext × Uuid) VectorRecord VectorRecord.subject

/-- The index that stores the embeddings that pass a check. -/
def vectorIndex (check : List ℚ → MemcoreResult Unit) : VectorStore VectorIndex where
  upsertVector tenant record index :=
    if record.tenant ≠ tenant then (.error .forbidden, index)
    else match check record.embedding with
      | .error error => (.error error, index)
      | .ok () => (.ok (), index.put record)
  deleteByFactId tenant factId index :=
    if index.contains (tenant, factId) then
      (.ok (), index.retain fun record => decide (record.subject ≠ (tenant, factId)))
    else (.error (.notFound ("vector record not found for fact: " ++ Uuid.toText factId)), index)
  deleteByUser tenant index :=
    (.ok (), index.retain fun record => decide (record.tenant ≠ tenant))

/-! ## Which facts have a record -/

/-- Whether a fact has a record after a write, if embeddings are accepted by a test. -/
def VectorWrite.leaves (accepts : List ℚ → Bool) (subject : TenantContext × Uuid) (held : Bool) :
    VectorWrite → Bool
  | upsertVector tenant record =>
      held || (decide (record.tenant = tenant) && decide (record.subject = subject) &&
        accepts record.embedding)
  | deleteByFactId tenant factId => held && decide ((tenant, factId) ≠ subject)
  | deleteByUser tenant => held && decide (subject.1 ≠ tenant)

/-- Whether a fact has a record after writes: it was stored, and not deleted since. -/
def hasRecord (accepts : List ℚ → Bool) (made : List VectorWrite)
    (subject : TenantContext × Uuid) : Bool :=
  made.foldl (VectorWrite.leaves accepts subject) false

@[simp] theorem hasRecord_append_one (accepts : List ℚ → Bool) (made : List VectorWrite)
    (write : VectorWrite) (subject : TenantContext × Uuid) :
    hasRecord accepts (made ++ [write]) subject =
      write.leaves accepts subject (hasRecord accepts made subject) := by
  simp only [hasRecord, List.foldl_append, List.foldl_cons, List.foldl_nil]

/-- More records are left if more embeddings are accepted. -/
theorem hasRecord_mono {accepts others : List ℚ → Bool}
    (weaker : ∀ embedding, accepts embedding = true → others embedding = true)
    (made : List VectorWrite) (subject : TenantContext × Uuid)
    (held : hasRecord accepts made subject = true) : hasRecord others made subject = true := by
  induction made using List.reverseRecOn with
  | nil => exact held
  | append_singleton made write inductionHypothesis =>
    rw [hasRecord_append_one] at held ⊢
    cases write with
    | upsertVector tenant record =>
      simp only [VectorWrite.leaves, Bool.or_eq_true, Bool.and_eq_true] at held ⊢
      exact held.imp inductionHypothesis fun stored => ⟨stored.1, weaker _ stored.2⟩
    | deleteByFactId tenant factId =>
      simp only [VectorWrite.leaves, Bool.and_eq_true] at held ⊢
      exact ⟨inductionHypothesis held.1, held.2⟩
    | deleteByUser tenant =>
      simp only [VectorWrite.leaves, Bool.and_eq_true] at held ⊢
      exact ⟨inductionHypothesis held.1, held.2⟩

section Index

variable {check : List ℚ → MemcoreResult Unit}

/-- Embeddings that pass the check of an index. -/
def passes (check : List ℚ → MemcoreResult Unit) (embedding : List ℚ) : Bool :=
  (check embedding).toBool

/-- A write changes which facts have a record as can be told from it alone. -/
theorem write_contains (index : VectorIndex) (write : VectorWrite)
    (subject : TenantContext × Uuid) :
    ((vectorIndex check).write write index).2.contains subject =
      write.leaves (passes check) subject (index.contains subject) := by
  cases write with
  | upsertVector tenant record =>
    simp only [VectorStore.write, vectorIndex, VectorWrite.leaves, passes]
    by_cases own : record.tenant = tenant
    · cases checked : check record.embedding with
      | error error => simp [own, Except.toBool]
      | ok accepted => simp [own, Except.toBool, Table.contains_put, Bool.or_comm]
    · simp [own]
  | deleteByFactId tenant factId =>
    simp only [VectorStore.write, vectorIndex, VectorWrite.leaves]
    split
    · apply (Table.contains_retain index (fun key => decide (key ≠ (tenant, factId))) subject).trans
      simp only [ne_comm]
    · rename_i absent
      by_cases same : (tenant, factId) = subject
      · subst same
        simp [absent]
      · simp [same]
  | deleteByUser tenant =>
    exact Table.contains_retain index (fun key => decide (key.1 ≠ tenant)) subject

/-- A refused write changes nothing. -/
theorem write_refused {index : VectorIndex} {write : VectorWrite} {error : MemcoreError}
    (refused : ((vectorIndex check).write write index).1 = .error error) :
    ((vectorIndex check).write write index).2 = index := by
  cases write with
  | upsertVector tenant record =>
    simp only [VectorStore.write, vectorIndex] at refused ⊢
    split
    · rfl
    · rename_i own
      rw [if_neg own] at refused
      cases checked : check record.embedding with
      | error error => rfl
      | ok accepted => simp [checked] at refused
  | deleteByFactId tenant factId =>
    simp only [VectorStore.write, vectorIndex] at refused ⊢
    split
    · rename_i held
      simp [held] at refused
    · rfl
  | deleteByUser tenant => simp [VectorStore.write, vectorIndex] at refused

/-- Which facts have a record can be told from the writes. -/
theorem after_contains (made : List VectorWrite) (subject : TenantContext × Uuid) :
    (after (vectorIndex check).write made .empty).contains subject =
      hasRecord (passes check) made subject := by
  induction made using List.reverseRecOn with
  | nil => rfl
  | append_singleton made write inductionHypothesis =>
    rw [after_append_one, write_contains, inductionHypothesis, hasRecord_append_one]

/-- Every record of the index was brought by a write. -/
theorem after_brought (made : List VectorWrite) :
    ∀ record ∈ (after (vectorIndex check).write made .empty).rows, record.id ∈ broughtIds made := by
  induction made using List.reverseRecOn with
  | nil => simp
  | append_singleton made write inductionHypothesis =>
    intro record stored
    have brought : broughtIds (made ++ [write]) =
        broughtIds made ++ (write.record?.toList).map VectorRecord.id := by
      simp only [broughtIds, List.flatMap_append, List.flatMap_cons, List.flatMap_nil,
        List.append_nil, List.map_append]
    rw [after_append_one] at stored
    rw [brought, List.mem_append]
    have before (kept : record ∈ (after (vectorIndex check).write made .empty).rows) :
        record.id ∈ broughtIds made ∨ record.id ∈ write.record?.toList.map VectorRecord.id :=
      .inl (inductionHypothesis record kept)
    cases write with
    | upsertVector tenant other =>
      simp only [VectorStore.write, vectorIndex] at stored
      split at stored
      · exact before stored
      · split at stored
        · exact before stored
        · rcases (Table.mem_put _ _ _).mp stored with rfl | ⟨kept, _⟩
          · exact .inr (by simp [VectorWrite.record?])
          · exact before kept
    | deleteByFactId tenant factId =>
      simp only [VectorStore.write, vectorIndex] at stored
      split at stored
      · exact before ((Table.mem_retain _ _ _).mp stored).1
      · exact before stored
    | deleteByUser tenant => exact before ((Table.mem_retain _ _ _).mp stored).1

/-- Records with distinct identifiers are brought one by one. -/
theorem fresh_of_distinct_writes {made writes : List VectorWrite} {write : VectorWrite}
    (distinct : (broughtIds writes).Nodup) (begins : made ++ [write] <+: writes) :
    ∀ record ∈ write.record?, ∀ other ∈ (after (vectorIndex check).write made .empty).rows,
      other.id ≠ record.id := by
  intro record brings other stored same
  obtain ⟨later, rfl⟩ := begins
  have brought := after_brought made other stored
  simp only [broughtIds, List.flatMap_append, List.map_append, List.flatMap_cons,
    List.flatMap_nil, List.append_nil, List.nodup_append] at distinct
  apply distinct.1.2.2 _ brought record.id _ same
  exact List.mem_map_of_mem (Option.mem_toList.mpr brings)

end Index

end Memcore
