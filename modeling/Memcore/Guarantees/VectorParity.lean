import Memcore.Stores.LanceDbVectorStore
import Memcore.Stores.QdrantVectorStore

/-!
# The vector stores hold the same records

Qdrant keeps the index of records step by step. LanceDB does so unless a record is replaced by
one whose embedding has the wrong length: then the old record is deleted before the new one is
refused. The store in memory checks no length and replaces by the identifier of a record, so it
keeps two records of a fact that is stored twice.
-/
namespace Memcore

open KeyedTables Refinement

/-! ## The index and its checks -/

/-- The check of embeddings in the stores with a configured length. -/
def checkLength (dimensions : ℕ) (embedding : List ℚ) : MemcoreResult Unit :=
  if embedding.length ≠ dimensions then
    .error (.validationError ("embedding length " ++ toString embedding.length ++
      " does not match configured dimensions " ++ toString dimensions))
  else .ok ()

/-- The store in memory checks nothing. -/
def acceptAll (_ : List ℚ) : MemcoreResult Unit := .ok ()

/-- The index of records whose embeddings have the configured length. -/
def checkedIndex (dimensions : ℕ) (made : List VectorWrite) : VectorIndex :=
  after (vectorIndex (checkLength dimensions)).write made .empty

/-- The index of records of any length. -/
def uncheckedIndex (made : List VectorWrite) : VectorIndex :=
  after (vectorIndex acceptAll).write made .empty

theorem passes_checkLength (dimensions : ℕ) (embedding : List ℚ) :
    passes (checkLength dimensions) embedding = decide (embedding.length = dimensions) := by
  rw [passes, checkLength]
  split
  · rename_i differs
    rw [decide_eq_false differs]
    rfl
  · rename_i fits
    rw [decide_eq_true (not_not.mp fits)]
    rfl

/-- Whether a fact has a record of the configured length. -/
theorem checkedIndex_contains (dimensions : ℕ) (made : List VectorWrite)
    (subject : TenantContext × Uuid) : (checkedIndex dimensions made).contains subject =
      hasRecord (fun embedding => decide (embedding.length = dimensions)) made subject := by
  rw [checkedIndex, after_contains]
  congr 1
  exact funext (passes_checkLength dimensions)

theorem uncheckedIndex_contains (made : List VectorWrite) (subject : TenantContext × Uuid) :
    (uncheckedIndex made).contains subject = hasRecord (fun _ => true) made subject :=
  after_contains made subject

/-! ## One write -/

section Steps

variable (formatFloat : ℚ → String) (dimensions : ℕ) (index : VectorIndex)

/-- A write of the tenant's own record of a fact. -/
def VectorWrite.Stores (write : VectorWrite) (record : VectorRecord) : Prop :=
  write = .upsertVector record.tenant record

/-- LanceDB keeps the index if a record that replaces another one has the right length. -/
theorem lanceDb_write (write : VectorWrite)
    (fits : ∀ record, write.Stores record → index.contains record.subject = true →
      record.embedding.length = dimensions) :
    (lanceDbVectorStore formatFloat dimensions).write write
        (index.rows.map (LanceDbVectorStore.rowOf formatFloat)) =
      (((vectorIndex (checkLength dimensions)).write write index).1,
        ((vectorIndex (checkLength dimensions)).write write index).2.rows.map
          (LanceDbVectorStore.rowOf formatFloat)) := by
  cases write with
  | upsertVector tenant record =>
    simp only [VectorStore.write, lanceDbVectorStore, LanceDbVectorStore.upsertVector,
      vectorIndex, ensureRecordTenant_eq]
    by_cases own : record.tenant = tenant
    · subst own
      simp only [if_true, LanceDbVectorStore.deleteMatching_fact,
        LanceDbVectorStore.recordToBatch, ne_eq, not_true_eq_false, if_false, checkLength]
      by_cases length : record.embedding.length = dimensions
      · simp [length, LanceDbTable.add, Table.put, VectorRecord.subject]
      · have absent : index.contains record.subject = false :=
          Bool.eq_false_iff.mpr fun held => length (fits record rfl held)
        have kept := Table.filter_absent index absent
        rw [VectorRecord.subject] at kept
        simp [length, kept]
    · simp [own]
  | deleteByFactId tenant factId =>
    simp only [VectorStore.write, lanceDbVectorStore, LanceDbVectorStore.deleteByFactId,
      vectorIndex, LanceDbVectorStore.countRows_fact, Table.count_key_eq_zero,
      LanceDbVectorStore.deleteMatching_fact]
    cases held : index.contains (tenant, factId) <;> simp [Table.retain]
  | deleteByUser tenant =>
    simp [VectorStore.write, lanceDbVectorStore, LanceDbVectorStore.deleteByUser, vectorIndex,
      LanceDbVectorStore.deleteMatching_tenant, Table.retain]

/-- What a write leaves in Qdrant if its point is not stored yet. -/
theorem qdrant_write {collection : QdrantCollection}
    (image : collection.rows = index.rows.map (QdrantVectorStore.pointOf formatFloat))
    (write : VectorWrite)
    (fresh : ∀ record ∈ write.record?, ∀ other ∈ index.rows, other.id ≠ record.id) :
    let made := (qdrantVectorStore formatFloat dimensions).write write collection
    let kept := (vectorIndex (checkLength dimensions)).write write index
    made.1 = kept.1 ∧
      made.2.rows = kept.2.rows.map (QdrantVectorStore.pointOf formatFloat) := by
  cases write with
  | upsertVector tenant record =>
    simp only [VectorStore.write, qdrantVectorStore, QdrantVectorStore.upsertVector,
      vectorIndex, ensureRecordTenant_eq]
    by_cases own : record.tenant = tenant
    · subst own
      by_cases length : record.embedding.length = dimensions
      · have remaining := QdrantVectorStore.deleteMatching_fact formatFloat image record.tenant
          record.factId
        have unstored : ∀ point ∈ (QdrantVectorStore.deleteMatching
            (QdrantVectorStore.tenantFactFilter record.tenant record.factId) collection).rows,
            point.id ≠ (QdrantVectorStore.pointOf formatFloat record).id := by
          intro point member sameId
          rw [remaining] at member
          obtain ⟨other, kept, rfl⟩ := List.mem_map.mp member
          exact fresh record rfl other (List.mem_filter.mp kept).1
            ((Uuid.toText_inj _ _).mp sameId)
        simp only [if_true, ne_eq, not_true_eq_false, if_false, length, checkLength,
          Table.rows_put_of_fresh _ unstored, remaining, true_and]
        simp [Table.put, VectorRecord.subject]
      · simp [length, checkLength, image]
    · simp [own, image]
  | deleteByFactId tenant factId =>
    simp only [VectorStore.write, qdrantVectorStore, QdrantVectorStore.deleteByFactId,
      vectorIndex, QdrantVectorStore.countMatching_fact formatFloat image,
      Table.count_key_eq_zero]
    cases held : index.contains (tenant, factId)
    · simp [image]
    · simp [QdrantVectorStore.deleteMatching_fact formatFloat image, Table.retain]
  | deleteByUser tenant =>
    simp [VectorStore.write, qdrantVectorStore, QdrantVectorStore.deleteByUser, vectorIndex,
      QdrantVectorStore.deleteMatching_tenant formatFloat image, Table.retain]

/-- The store in memory keeps the index of all lengths if nothing is replaced. -/
theorem mock_write {store : MockVectorStore} (image : store.rows = index.rows)
    (write : VectorWrite)
    (replacesNothing : ∀ record, write.Stores record → index.contains record.subject = false)
    (fresh : ∀ record ∈ write.record?, ∀ other ∈ index.rows, other.id ≠ record.id) :
    (mockVectorStore.write write store).1 = ((vectorIndex acceptAll).write write index).1 ∧
      (mockVectorStore.write write store).2.rows =
        ((vectorIndex acceptAll).write write index).2.rows := by
  cases write with
  | upsertVector tenant record =>
    simp only [VectorStore.write, mockVectorStore, MockVectorStore.upsertVector, vectorIndex,
      acceptAll]
    by_cases own : record.tenant = tenant
    · subst own
      have newSubject : ∀ other ∈ index.rows, other.subject ≠ record.subject :=
        (Table.contains_eq_false _ _).mp (replacesNothing record rfl)
      have newId : ∀ other ∈ store.rows, other.id ≠ record.id := by
        rw [image]
        exact fresh record rfl
      simp [Table.rows_put_of_fresh _ newId, Table.rows_put_of_fresh _ newSubject, image]
    · simp [own, image]
  | deleteByFactId tenant factId =>
    have about : (fun record => !MockVectorStore.isAbout tenant factId record) =
        fun record => !decide (record.subject = (tenant, factId)) := by
      funext record
      simp [MockVectorStore.isAbout, VectorRecord.subject]
    simp only [VectorStore.write, mockVectorStore, MockVectorStore.deleteByFactId, vectorIndex,
      Table.retain, about, image, Table.length_filter_key_iff]
    cases held : index.contains (tenant, factId)
    · simp [Table.filter_absent index held]
    · simp
  | deleteByUser tenant =>
    simp [VectorStore.write, mockVectorStore, MockVectorStore.deleteByUser, vectorIndex,
      Table.retain, image]

/-- LanceDB refuses an embedding of the wrong length after it has deleted the fact's record. -/
theorem lanceDb_write_short {record : VectorRecord}
    (short : record.embedding.length ≠ dimensions) :
    (lanceDbVectorStore formatFloat dimensions).write (.upsertVector record.tenant record)
        (index.rows.map (LanceDbVectorStore.rowOf formatFloat)) =
      (checkLength dimensions record.embedding,
        (index.rows.filter fun other =>
          !decide (other.subject = record.subject)).map (LanceDbVectorStore.rowOf formatFloat)) := by
  simp only [VectorStore.write, lanceDbVectorStore, LanceDbVectorStore.upsertVector,
    ensureRecordTenant_eq, if_true, LanceDbVectorStore.deleteMatching_fact,
    LanceDbVectorStore.recordToBatch, checkLength, if_pos short]
  rfl

end Steps

/-! ## What the stores promise -/

section Runs

variable (formatFloat : ℚ → String) (dimensions : ℕ)

/-- The table of LanceDB after writes. -/
def lanceDbAfter (made : List VectorWrite) : LanceDbTable :=
  after (lanceDbVectorStore formatFloat dimensions).write made []

/-- The collection of Qdrant after writes. -/
def qdrantAfter (made : List VectorWrite) : QdrantCollection :=
  after (qdrantVectorStore formatFloat dimensions).write made .empty

/-- The store in memory after writes. -/
def mockAfter (made : List VectorWrite) : MockVectorStore :=
  after mockVectorStore.write made .empty

/-- Both answers are successes, or errors of one kind. -/
def SameKind : MemcoreResult Unit → MemcoreResult Unit → Prop
  | .ok _, .ok _ => True
  | .error left, .error right => left.ctorIdx = right.ctorIdx
  | _, _ => False

/-- A validation error or an error about the tenant. -/
def Refused (answer : MemcoreResult Unit) : Prop :=
  answer = .error .forbidden ∨ ∃ message, answer = .error (.validationError message)

/-- LanceDB and Qdrant hold the same records after each write, at most one of a fact, answer
alike, and change nothing if they refuse a write. -/
structure PersistentStoresAgree (writes : List VectorWrite) : Prop where
  records : ∀ made, made <+: writes → ∃ records : List VectorRecord,
    (lanceDbAfter formatFloat dimensions made).Perm
        (records.map (LanceDbVectorStore.rowOf formatFloat)) ∧
      (qdrantAfter formatFloat dimensions made).rows.Perm
        (records.map (QdrantVectorStore.pointOf formatFloat)) ∧
      (records.map VectorRecord.subject).Nodup
  answers : ∀ made write, made ++ [write] <+: writes →
    SameKind
      ((lanceDbVectorStore formatFloat dimensions).write write
        (lanceDbAfter formatFloat dimensions made)).1
      ((qdrantVectorStore formatFloat dimensions).write write
        (qdrantAfter formatFloat dimensions made)).1
  lanceDbRefusals : ∀ made write, made ++ [write] <+: writes →
    Refused ((lanceDbVectorStore formatFloat dimensions).write write
        (lanceDbAfter formatFloat dimensions made)).1 →
      (lanceDbAfter formatFloat dimensions (made ++ [write])).Perm
        (lanceDbAfter formatFloat dimensions made)
  qdrantRefusals : ∀ made write, made ++ [write] <+: writes →
    Refused ((qdrantVectorStore formatFloat dimensions).write write
        (qdrantAfter formatFloat dimensions made)).1 →
      (qdrantAfter formatFloat dimensions (made ++ [write])).rows.Perm
        (qdrantAfter formatFloat dimensions made).rows

/-- Moreover, the store in memory holds at most one record of a fact and changes nothing if it
refuses a write; if all embeddings have the configured length, it holds the same records as the
other stores and answers like them. -/
structure VectorStoresAgree (writes : List VectorWrite) : Prop
    extends PersistentStoresAgree formatFloat dimensions writes where
  mockUnique : ∀ made, made <+: writes → ((mockAfter made).rows.map VectorRecord.subject).Nodup
  mockRefusals : ∀ made write, made ++ [write] <+: writes →
    Refused (mockVectorStore.write write (mockAfter made)).1 →
      (mockAfter (made ++ [write])).rows.Perm (mockAfter made).rows
  mockRecords : (∀ write ∈ writes, ∀ record ∈ write.record?, record.embedding.length = dimensions) →
    ∀ made, made <+: writes →
      (lanceDbAfter formatFloat dimensions made).Perm
          ((mockAfter made).rows.map (LanceDbVectorStore.rowOf formatFloat)) ∧
        (qdrantAfter formatFloat dimensions made).rows.Perm
          ((mockAfter made).rows.map (QdrantVectorStore.pointOf formatFloat))
  mockAnswers : (∀ write ∈ writes, ∀ record ∈ write.record?, record.embedding.length = dimensions) →
    ∀ made write, made ++ [write] <+: writes →
      SameKind (mockVectorStore.write write (mockAfter made)).1
        ((qdrantVectorStore formatFloat dimensions).write write
          (qdrantAfter formatFloat dimensions made)).1

/-- No embedding of the wrong length is stored for a fact that has a record. -/
def ReplacementsFit (writes : List VectorWrite) : Prop :=
  ∀ made record, made ++ [.upsertVector record.tenant record] <+: writes →
    hasRecord (fun embedding => decide (embedding.length = dimensions)) made record.subject = true →
      record.embedding.length = dimensions

/-- No embedding is stored for a fact that one was stored for and not deleted since. -/
def ReplacesNothing (writes : List VectorWrite) : Prop :=
  ∀ made record, made ++ [.upsertVector record.tenant record] <+: writes →
    hasRecord (fun _ => true) made record.subject = false

/-! ## The stores and the index along a run -/

variable {formatFloat dimensions} {writes made : List VectorWrite}

theorem qdrant_image (distinct : (broughtIds writes).Nodup) (begins : made <+: writes) :
    (qdrantAfter formatFloat dimensions made).rows =
      (checkedIndex dimensions made).rows.map (QdrantVectorStore.pointOf formatFloat) := by
  apply along_prefixes _ _ begins
  · rfl
  · intro made write begins image
    rw [qdrantAfter, checkedIndex, after_append_one, after_append_one]
    exact (qdrant_write formatFloat dimensions _ image write
      (fresh_of_distinct_writes distinct begins)).2

/-- A refusal that changes nothing meets no record of the fact. -/
theorem fits_of_unchanged {index : VectorIndex} {record : VectorRecord}
    (unchanged : Refused ((lanceDbVectorStore formatFloat dimensions).write
        (.upsertVector record.tenant record)
        (index.rows.map (LanceDbVectorStore.rowOf formatFloat))).1 →
      ((lanceDbVectorStore formatFloat dimensions).write (.upsertVector record.tenant record)
        (index.rows.map (LanceDbVectorStore.rowOf formatFloat))).2.Perm
        (index.rows.map (LanceDbVectorStore.rowOf formatFloat)))
    (held : index.contains record.subject = true) : record.embedding.length = dimensions := by
  by_contra short
  rw [lanceDb_write_short formatFloat dimensions index short] at unchanged
  have refused : Refused (checkLength dimensions record.embedding) :=
    .inr ⟨_, by rw [checkLength, if_pos short]⟩
  have sameLength := (unchanged refused).length_eq
  rw [List.length_map, List.length_map, Table.length_filter_key_iff] at sameLength
  rw [sameLength] at held
  contradiction

/-- LanceDB holds the index as long as its replacements fit. -/
theorem lanceDb_image
    (fit : ∀ made record, made ++ [.upsertVector record.tenant record] <+: writes →
      lanceDbAfter formatFloat dimensions made =
        (checkedIndex dimensions made).rows.map (LanceDbVectorStore.rowOf formatFloat) →
      (checkedIndex dimensions made).contains record.subject = true →
        record.embedding.length = dimensions) (begins : made <+: writes) :
    lanceDbAfter formatFloat dimensions made =
      (checkedIndex dimensions made).rows.map (LanceDbVectorStore.rowOf formatFloat) := by
  apply along_prefixes _ _ begins
  · rfl
  · intro made write begins image
    have fits : ∀ record, write.Stores record →
        (checkedIndex dimensions made).contains record.subject = true →
          record.embedding.length = dimensions := by
      rintro record rfl
      exact fit made record begins image
    have later := congrArg Prod.snd
      (lanceDb_write formatFloat dimensions (checkedIndex dimensions made) write fits)
    rw [← image] at later
    rw [lanceDbAfter, checkedIndex, after_append_one, after_append_one]
    exact later

/-! ## LanceDB and Qdrant -/

theorem SameKind.refl (answer : MemcoreResult Unit) : SameKind answer answer := by
  cases answer with
  | ok done => trivial
  | error error => exact rfl

/-- If replacements fit, LanceDB answers as the index does. -/
theorem lanceDb_answer (fit : ReplacementsFit dimensions writes) {write : VectorWrite}
    (begins : made ++ [write] <+: writes)
    (image : lanceDbAfter formatFloat dimensions made =
      (checkedIndex dimensions made).rows.map (LanceDbVectorStore.rowOf formatFloat)) :
    ((lanceDbVectorStore formatFloat dimensions).write write
        (lanceDbAfter formatFloat dimensions made)).1 =
      ((vectorIndex (checkLength dimensions)).write write (checkedIndex dimensions made)).1 := by
  rw [image]
  apply congrArg Prod.fst
    (lanceDb_write formatFloat dimensions (checkedIndex dimensions made) write _)
  rintro record rfl held
  exact fit made record begins (checkedIndex_contains dimensions made _ ▸ held)

theorem refused_error {answer : MemcoreResult Unit} (refused : Refused answer) :
    ∃ error, answer = .error error := by
  rcases refused with isForbidden | ⟨message, isInvalid⟩
  · exact ⟨_, isForbidden⟩
  · exact ⟨_, isInvalid⟩

/-- The index is the same after a refused write. -/
theorem checkedIndex_refused {write : VectorWrite}
    (refused : Refused
      ((vectorIndex (checkLength dimensions)).write write (checkedIndex dimensions made)).1) :
    checkedIndex dimensions (made ++ [write]) = checkedIndex dimensions made := by
  obtain ⟨error, isError⟩ := refused_error refused
  have same := write_refused isError
  rw [checkedIndex, after_append_one]
  exact same

/-- Qdrant answers as the index does. -/
theorem qdrant_answer (distinct : (broughtIds writes).Nodup) {write : VectorWrite}
    (begins : made ++ [write] <+: writes) :
    ((qdrantVectorStore formatFloat dimensions).write write
        (qdrantAfter formatFloat dimensions made)).1 =
      ((vectorIndex (checkLength dimensions)).write write (checkedIndex dimensions made)).1 :=
  (qdrant_write formatFloat dimensions _
    (qdrant_image distinct ((List.prefix_append made _).trans begins)) write
    (fresh_of_distinct_writes distinct begins)).1

/-- The stores agree just when no replacement has the wrong length. -/
theorem persistent_stores_agree_iff (distinct : (broughtIds writes).Nodup) :
    PersistentStoresAgree formatFloat dimensions writes ↔ ReplacementsFit dimensions writes := by
  constructor
  · intro agree
    have fits : ∀ made record, made ++ [.upsertVector record.tenant record] <+: writes →
        lanceDbAfter formatFloat dimensions made =
          (checkedIndex dimensions made).rows.map (LanceDbVectorStore.rowOf formatFloat) →
        (checkedIndex dimensions made).contains record.subject = true →
          record.embedding.length = dimensions := by
      intro made record begins image held
      have unchanged := agree.lanceDbRefusals made _ begins
      have later : lanceDbAfter formatFloat dimensions (made ++ [.upsertVector record.tenant record])
          = ((lanceDbVectorStore formatFloat dimensions).write
            (.upsertVector record.tenant record) (lanceDbAfter formatFloat dimensions made)).2 :=
        after_append_one _ _ _ _
      rw [later, image] at unchanged
      exact fits_of_unchanged unchanged held
    intro made record begins held
    have earlier := (List.prefix_append made _).trans begins
    exact fits made record begins (lanceDb_image fits earlier)
      ((checkedIndex_contains dimensions made _).trans held)
  · intro fit
    have image (made : List VectorWrite) (begins : made <+: writes) :
        lanceDbAfter formatFloat dimensions made =
          (checkedIndex dimensions made).rows.map (LanceDbVectorStore.rowOf formatFloat) :=
      lanceDb_image (fun made record begins _ held =>
        fit made record begins (checkedIndex_contains dimensions made _ ▸ held)) begins
    have shorter {made : List VectorWrite} {write : VectorWrite}
        (begins : made ++ [write] <+: writes) : made <+: writes :=
      (List.prefix_append made _).trans begins
    constructor
    · intro made begins
      refine ⟨(checkedIndex dimensions made).rows, ?_, ?_, (checkedIndex dimensions made).distinct⟩
      · rw [image made begins]
      · rw [qdrant_image distinct begins]
    · intro made write begins
      rw [lanceDb_answer fit begins (image made (shorter begins)), qdrant_answer distinct begins]
      exact .refl _
    · intro made write begins refused
      rw [lanceDb_answer fit begins (image made (shorter begins))] at refused
      rw [image _ begins, image made (shorter begins), checkedIndex_refused refused]
    · intro made write begins refused
      rw [qdrant_answer distinct begins] at refused
      rw [qdrant_image distinct begins, qdrant_image distinct (shorter begins),
        checkedIndex_refused refused]

/-! ## The store in memory -/

/-- Nothing was replaced if the store holds one record of a fact afterwards. -/
theorem absent_of_unique {store : MockVectorStore} {index : VectorIndex} {record : VectorRecord}
    (image : store.rows = index.rows) (newId : ∀ other ∈ index.rows, other.id ≠ record.id)
    (unique : ((mockVectorStore.write (.upsertVector record.tenant record)
      store).2.rows.map VectorRecord.subject).Nodup) : index.contains record.subject = false := by
  have stored : (mockVectorStore.write (.upsertVector record.tenant record) store).2.rows =
      store.rows ++ [record] := by
    rw [← image] at newId
    simp only [VectorStore.write, mockVectorStore, MockVectorStore.upsertVector_eq]
    exact Table.rows_put_of_fresh store newId
  rw [stored, image, List.map_append, List.nodup_append] at unique
  rw [Table.contains_eq_false]
  intro other member
  exact unique.2.2 _ (List.mem_map_of_mem member) _ (List.mem_singleton_self _)

/-- The store in memory holds the index as long as nothing is replaced. -/
theorem mock_image (distinct : (broughtIds writes).Nodup)
    (nothing : ∀ made record, made ++ [.upsertVector record.tenant record] <+: writes →
      (mockAfter made).rows = (uncheckedIndex made).rows →
        (uncheckedIndex made).contains record.subject = false) (begins : made <+: writes) :
    (mockAfter made).rows = (uncheckedIndex made).rows := by
  apply along_prefixes _ _ begins
  · rfl
  · intro made write begins image
    rw [mockAfter, uncheckedIndex, after_append_one, after_append_one]
    apply (mock_write _ image write _ (fresh_of_distinct_writes distinct begins)).2
    rintro record rfl
    exact nothing made record begins image

/-- The store in memory holds one record of each fact just when nothing is replaced. -/
theorem mock_unique_iff (distinct : (broughtIds writes).Nodup) :
    (∀ made, made <+: writes → ((mockAfter made).rows.map VectorRecord.subject).Nodup) ↔
      ReplacesNothing writes := by
  constructor
  · intro unique
    have nothing : ∀ made record, made ++ [.upsertVector record.tenant record] <+: writes →
        (mockAfter made).rows = (uncheckedIndex made).rows →
          (uncheckedIndex made).contains record.subject = false := by
      intro made record begins image
      have later := unique _ begins
      rw [mockAfter, after_append_one] at later
      exact absent_of_unique image (fresh_of_distinct_writes distinct begins record rfl) later
    intro made record begins
    have earlier := (List.prefix_append made _).trans begins
    exact (uncheckedIndex_contains made _).symm.trans
      (nothing made record begins (mock_image distinct nothing earlier))
  · intro nothing made begins
    have image := mock_image distinct (fun made record begins _ =>
      (uncheckedIndex_contains made _).trans (nothing made record begins)) begins
    rw [image]
    exact (uncheckedIndex made).distinct

/-- Whether lengths are checked makes no difference to embeddings that have the right one. -/
theorem write_fitting {write : VectorWrite}
    (fits : ∀ record ∈ write.record?, record.embedding.length = dimensions)
    (index : VectorIndex) : (vectorIndex (checkLength dimensions)).write write index =
      (vectorIndex acceptAll).write write index := by
  cases write with
  | upsertVector tenant record =>
    have right : record.embedding.length = dimensions := fits record rfl
    simp only [VectorStore.write, vectorIndex, checkLength, acceptAll, right, ne_eq,
      not_true_eq_false, if_false]
  | deleteByFactId tenant factId => rfl
  | deleteByUser tenant => rfl

theorem indexes_same
    (fit : ∀ write ∈ made, ∀ record ∈ write.record?, record.embedding.length = dimensions) :
    checkedIndex dimensions made = uncheckedIndex made := by
  induction made using List.reverseRecOn with
  | nil => rfl
  | append_singleton made write inductionHypothesis =>
    have earlier := inductionHypothesis fun other member =>
      fit other (List.mem_append_left _ member)
    rw [checkedIndex, uncheckedIndex] at earlier ⊢
    rw [after_append_one, after_append_one, earlier,
      write_fitting (fit write (List.mem_append_right _ (List.mem_singleton_self _)))]

/-- A store that replaces nothing replaces nothing by an embedding of the wrong length. -/
theorem ReplacesNothing.fit (nothing : ReplacesNothing writes) :
    ReplacementsFit dimensions writes := by
  intro made record begins held
  have stored : hasRecord (fun _ => true) made record.subject = true :=
    hasRecord_mono (fun _ _ => rfl) made _ held
  rw [nothing made record begins] at stored
  contradiction

/-- For writes that bring distinct identifiers: LanceDB and Qdrant agree just when no embedding
of the wrong length is stored for a fact that has a record, and all three stores agree just
when none is stored for a fact that one was stored for and not deleted since. -/
theorem vector_stores_agree_iff (formatFloat : ℚ → String) (dimensions : ℕ)
    (writes : List VectorWrite) (distinct : (broughtIds writes).Nodup) :
    (PersistentStoresAgree formatFloat dimensions writes ↔ ReplacementsFit dimensions writes) ∧
      (VectorStoresAgree formatFloat dimensions writes ↔ ReplacesNothing writes) := by
  refine ⟨persistent_stores_agree_iff distinct, ?_⟩
  constructor
  · intro agree
    exact (mock_unique_iff distinct).mp agree.mockUnique
  · intro nothing
    have persistent : PersistentStoresAgree formatFloat dimensions writes :=
      (persistent_stores_agree_iff distinct).mpr nothing.fit
    have absent (made : List VectorWrite) (record : VectorRecord)
        (begins : made ++ [.upsertVector record.tenant record] <+: writes) :
        (uncheckedIndex made).contains record.subject = false :=
      (uncheckedIndex_contains made _).trans (nothing made record begins)
    have image (made : List VectorWrite) (begins : made <+: writes) :
        (mockAfter made).rows = (uncheckedIndex made).rows :=
      mock_image distinct (fun made record begins _ => absent made record begins) begins
    have answer (made : List VectorWrite) (write : VectorWrite)
        (begins : made ++ [write] <+: writes) : (mockVectorStore.write write (mockAfter made)).1 =
          ((vectorIndex acceptAll).write write (uncheckedIndex made)).1 := by
      apply (mock_write _ (image made ((List.prefix_append made _).trans begins)) write _
        (fresh_of_distinct_writes distinct begins)).1
      rintro record rfl
      exact absent made record begins
    have shorter {made : List VectorWrite} {write : VectorWrite}
        (begins : made ++ [write] <+: writes) : made <+: writes :=
      (List.prefix_append made _).trans begins
    have same (fits : ∀ write ∈ writes, ∀ record ∈ write.record?,
        record.embedding.length = dimensions) (made : List VectorWrite) (begins : made <+: writes) :
        checkedIndex dimensions made = uncheckedIndex made :=
      indexes_same fun write member => fits write (begins.subset member)
    refine { persistent with
      mockUnique := (mock_unique_iff distinct).mpr nothing
      mockRefusals := ?_
      mockRecords := ?_
      mockAnswers := ?_ }
    · intro made write begins refused
      rw [answer made write begins] at refused
      obtain ⟨error, isError⟩ := refused_error refused
      have unchanged := write_refused isError
      rw [image _ begins, image made (shorter begins), uncheckedIndex, after_append_one]
      exact unchanged ▸ List.Perm.refl _
    · intro fits made begins
      rw [image made begins, ← same fits made begins]
      constructor
      · rw [lanceDb_image (fun made record begins _ held =>
          nothing.fit made record begins (checkedIndex_contains dimensions made _ ▸ held)) begins]
      · rw [qdrant_image distinct begins]
    · intro fits made write begins
      have fitting : ∀ record ∈ write.record?, record.embedding.length = dimensions :=
        fits write (begins.subset (List.mem_append_right _ (List.mem_singleton_self _)))
      rw [answer made write begins, qdrant_answer distinct begins, same fits made (shorter begins),
        write_fitting fitting]
      exact .refl _

end Runs

/-! ## A record that is replaced -/

section Sample

/-- An embedding of one fact of a tenant whose name has a quote. -/
def sampleVector (id factId : Uuid) (embedding : List ℚ) : VectorRecord where
  id := id
  factId := factId
  orgId := "acme"
  userId := "o'neil"
  embedding := embedding
  content := "tea"
  memoryType := .preference
  metadata := .object []

def sampleUpsert (id factId : Uuid) (embedding : List ℚ) : VectorWrite :=
  .upsertVector ⟨"acme", "o'neil"⟩ (sampleVector id factId embedding)

def noFloats (_ : ℚ) : String := ""

theorem vector_stores_agree_iff_sample :
    VectorStoresAgree noFloats 2
      [sampleUpsert 1 1 [1, 0], .deleteByUser ⟨"acme", "' OR '' = '"⟩] := by
  apply (vector_stores_agree_iff noFloats 2 _ (by decide)).2.mpr
  rintro made record ⟨later, same⟩
  cases made with
  | nil => rfl
  | cons first made =>
    cases made with
    | nil => simp at same
    | cons second made => simp at same

/-- An embedding of the wrong length deletes the record of its fact in LanceDB, and the store
in memory keeps a second record of a fact. -/
theorem replacements_differ :
    ¬ PersistentStoresAgree noFloats 2 [sampleUpsert 1 1 [1, 0], sampleUpsert 2 1 [1]] ∧
      ¬ VectorStoresAgree noFloats 2 [sampleUpsert 1 1 [1, 0], sampleUpsert 2 1 [0, 1]] := by
  constructor
  · intro agree
    obtain ⟨records, lanceDb, qdrant, _⟩ := agree.records _ (List.prefix_refl _)
    have none : (lanceDbAfter noFloats 2
        [sampleUpsert 1 1 [1, 0], sampleUpsert 2 1 [1]]).length = 0 := by decide +kernel
    have one : (qdrantAfter noFloats 2
        [sampleUpsert 1 1 [1, 0], sampleUpsert 2 1 [1]]).rows.length = 1 := by decide +kernel
    rw [lanceDb.length_eq, List.length_map] at none
    rw [qdrant.length_eq, List.length_map] at one
    omega
  · intro agree
    have unique := agree.mockUnique _ (List.prefix_refl _)
    revert unique
    decide +kernel

end Sample

end Memcore
