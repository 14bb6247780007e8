import Memcore.Domain.Facts
import Memcore.Foundations.KeyedTables
import Mathlib.Data.List.Sort

/-!
# The fact store

The in-memory fact store keeps every row it was given and, apart from the rows,
a set of soft-deleted identifiers. The set never names a row that is not stored,
and the store carries that fact. What callers see of the store is its active
facts; each operation is characterised by what it does to them.
-/
namespace Memcore

open KeyedTables

/-- The position of the last row of a page. -/
structure PageCursor where
  lastId : String
  lastSortValue : Instant

/-- Stores return one row more than the limit, so that callers see a next page. -/
def pageFetchLimit (limit : ℕ) : ℕ := limit + 1

/-- Whether a row comes after the cursor when rows descend. -/
def isAfterCursorInDescOrder (sortValue : Instant) (id : String) (cursor : PageCursor) : Bool :=
  sortValue < cursor.lastSortValue || (sortValue == cursor.lastSortValue && id < cursor.lastId)

structure FactSearchQuery where
  tenant : TenantContext
  memoryTypes : Option (List MemoryType)
  queryText : Option String
  limit : ℕ
  cursor : Option PageCursor
  includeDeleted : Bool

/-- What a retention pass has matched, and which facts it has deleted. -/
structure RetentionPruneResult where
  count : ℕ
  factIds : List Uuid

/-- Rows by identifier, and the identifiers of the soft-deleted ones. -/
structure MockFactStore where
  facts : Table Uuid Fact Fact.id
  deleted : List Uuid
  known : ∀ id ∈ deleted, facts.contains id = true

/-- The calls of the fact store that the engine makes. -/
inductive FactStoreCall where
  | insertFact (tenant : TenantContext) (fact : Fact)
  | updateFact (tenant : TenantContext) (fact : Fact)
  | getFact (tenant : TenantContext) (factId : Uuid)
  | searchFacts (query : FactSearchQuery)
  | softDeleteFact (tenant : TenantContext) (factId : Uuid)
  | deleteUserData (tenant : TenantContext)
  | deleteFactsOlderThan (tenant : TenantContext) (cutoff : Instant) (dryRun : Bool)

abbrev FactStoreCall.Answer : FactStoreCall → Type
  | insertFact _ _ => Fact
  | updateFact _ _ => Fact
  | getFact _ _ => Option Fact
  | searchFacts _ => List Fact
  | softDeleteFact _ _ => Unit
  | deleteUserData _ => Unit
  | deleteFactsOlderThan _ _ _ => RetentionPruneResult

namespace MockFactStore

/-- The store without rows. -/
def empty : MockFactStore := ⟨Table.empty, [], by simp⟩

/-- Whether an identifier is soft-deleted. -/
def isDeleted (store : MockFactStore) (factId : Uuid) : Bool :=
  decide (factId ∈ store.deleted)

/-- The facts that callers see. -/
def activeFacts (store : MockFactStore) : List Fact :=
  store.facts.rows.filter fun fact => !store.isDeleted fact.id

/-- Store a row whose identifier may be new or known. -/
def putFact (store : MockFactStore) (fact : Fact) : MockFactStore where
  facts := store.facts.put fact
  deleted := store.deleted
  known := by
    intro id member
    obtain ⟨row, stored, sameId⟩ := (store.facts.contains_iff id).mp (store.known id member)
    rw [Table.contains_iff]
    by_cases replaced : row.id = fact.id
    · exact ⟨fact, (store.facts.mem_put fact fact).mpr (.inl rfl), replaced ▸ sameId⟩
    · exact ⟨row, (store.facts.mem_put fact row).mpr (.inr ⟨stored, replaced⟩), sameId⟩

/-- Soft-delete stored identifiers. -/
def markDeleted (store : MockFactStore) (ids : List Uuid)
    (stored : ∀ id ∈ ids, store.facts.contains id = true) : MockFactStore where
  facts := store.facts
  deleted := ids ++ store.deleted
  known := by
    intro id member
    cases List.mem_append.mp member with
    | inl added => exact stored id added
    | inr old => exact store.known id old

/-- Insert a fact of the calling tenant; a stored identifier is a conflict, no
matter whose it is or whether it is deleted. -/
def insertFact (store : MockFactStore) (tenant : TenantContext) (fact : Fact) :
    MemcoreResult Fact × MockFactStore :=
  if fact.tenant ≠ tenant then (.error .forbidden, store)
  else if store.facts.contains fact.id then
    (.error (.conflict ("fact already exists: " ++ Uuid.toText fact.id)), store)
  else (.ok fact, store.putFact fact)

/-- Replace a stored fact of the calling tenant, deleted or not. -/
def updateFact (store : MockFactStore) (tenant : TenantContext) (fact : Fact) :
    MemcoreResult Fact × MockFactStore :=
  if fact.tenant ≠ tenant then (.error .forbidden, store)
  else match store.facts.find? fact.id with
    | none => (.error (.notFound ("fact not found: " ++ Uuid.toText fact.id)), store)
    | some existing =>
        if existing.tenant ≠ tenant then (.error .forbidden, store)
        else (.ok fact, store.putFact fact)

/-- The active fact with an identifier, if it belongs to the calling tenant. -/
def getFact (store : MockFactStore) (tenant : TenantContext) (factId : Uuid) :
    MemcoreResult (Option Fact) × MockFactStore :=
  match store.facts.find? factId with
  | none => (.ok none, store)
  | some fact =>
      if fact.tenant ≠ tenant then (.ok none, store)
      else if store.isDeleted factId then (.ok none, store)
      else (.ok (some fact), store)

/-- Later changes first; ties in descending order of identifiers. -/
def comesFirst (left right : Fact) : Prop :=
  right.updatedAt < left.updatedAt ∨ right.updatedAt = left.updatedAt ∧ right.id ≤ left.id

instance : DecidableRel comesFirst := fun _ _ => inferInstanceAs (Decidable (_ ∨ _ ∧ _))

/-- The filters of a query, apart from the tenant. -/
def matchesQuery (store : MockFactStore) (query : FactSearchQuery) (fact : Fact) : Bool :=
  (query.includeDeleted || !store.isDeleted fact.id) &&
  query.memoryTypes.all (fun types => decide (fact.memoryType ∈ types)) &&
  query.queryText.all (fun text =>
    let needle := Texts.toAsciiLowercase text
    Texts.contains (Texts.toAsciiLowercase fact.content) needle ||
      fact.summary.any fun summary => Texts.contains (Texts.toAsciiLowercase summary) needle) &&
  query.cursor.all (isAfterCursorInDescOrder fact.updatedAt (Uuid.toText fact.id))

/-- The first page of the matching facts of a tenant. -/
def searchFacts (store : MockFactStore) (query : FactSearchQuery) :
    MemcoreResult (List Fact) × MockFactStore :=
  let results := store.facts.rows.filter fun fact =>
    decide (fact.tenant = query.tenant) && store.matchesQuery query fact
  (.ok ((results.insertionSort comesFirst).take (pageFetchLimit query.limit)), store)

/-- Soft-delete a stored fact of the calling tenant, deleted before or not. -/
def softDeleteFact (store : MockFactStore) (tenant : TenantContext) (factId : Uuid) :
    MemcoreResult Unit × MockFactStore :=
  match found : store.facts.find? factId with
  | none => (.error (.notFound ("fact not found: " ++ Uuid.toText factId)), store)
  | some fact =>
      if fact.tenant ≠ tenant then (.error .forbidden, store)
      else (.ok (), store.markDeleted [factId] (by
        intro id member
        rw [List.mem_singleton.mp member, Table.contains_iff]
        exact ⟨fact, (store.facts.find?_eq_some factId fact).mp found⟩))

/-- Remove every row of a tenant and forget which of them were deleted. -/
def deleteUserData (store : MockFactStore) (tenant : TenantContext) :
    MemcoreResult Unit × MockFactStore :=
  let remaining := store.facts.retain fun fact => decide (fact.tenant ≠ tenant)
  (.ok (), {
    facts := remaining
    deleted := store.deleted.filter fun id => remaining.contains id
    known := fun _ member => (List.mem_filter.mp member).2 })

/-- The active facts of a tenant that were last changed before a cutoff. -/
def expired (store : MockFactStore) (tenant : TenantContext) (cutoff : Instant) : List Fact :=
  store.facts.rows.filter fun fact =>
    decide (fact.tenant = tenant) && !store.isDeleted fact.id && decide (fact.updatedAt < cutoff)

/-- Soft-delete the expired facts, or only count them. -/
def deleteFactsOlderThan (store : MockFactStore) (tenant : TenantContext) (cutoff : Instant)
    (dryRun : Bool) : MemcoreResult RetentionPruneResult × MockFactStore :=
  let matching := (store.expired tenant cutoff).map Fact.id
  if dryRun then (.ok ⟨matching.length, []⟩, store)
  else (.ok ⟨matching.length, matching⟩, store.markDeleted matching (by
    intro id member
    obtain ⟨fact, stored, sameId⟩ := List.mem_map.mp member
    rw [Table.contains_iff]
    exact ⟨fact, (List.mem_filter.mp stored).1, sameId⟩))

/-- The store answers one call at a time. -/
def serve (store : MockFactStore) :
    (call : FactStoreCall) → MemcoreResult call.Answer × MockFactStore
  | .insertFact tenant fact => store.insertFact tenant fact
  | .updateFact tenant fact => store.updateFact tenant fact
  | .getFact tenant factId => store.getFact tenant factId
  | .searchFacts query => store.searchFacts query
  | .softDeleteFact tenant factId => store.softDeleteFact tenant factId
  | .deleteUserData tenant => store.deleteUserData tenant
  | .deleteFactsOlderThan tenant cutoff dryRun => store.deleteFactsOlderThan tenant cutoff dryRun

/-! ## The active facts -/

/-- A fact that callers see. -/
def Active (store : MockFactStore) (fact : Fact) : Prop :=
  fact ∈ store.facts.rows ∧ fact.id ∉ store.deleted

theorem mem_activeFacts (store : MockFactStore) (fact : Fact) :
    fact ∈ store.activeFacts ↔ store.Active fact := by
  simp [activeFacts, isDeleted, Active]

theorem not_active_empty (fact : Fact) : ¬ empty.Active fact := by
  simp [Active, empty]

/-- An identifier names at most one active fact. -/
theorem Active.unique {store : MockFactStore} {left right : Fact} (leftActive : store.Active left)
    (rightActive : store.Active right) (sameId : left.id = right.id) : left = right :=
  store.facts.eq_of_key leftActive.1 rightActive.1 sameId

/-- An identifier is deleted only if a row is stored under it. -/
theorem not_deleted_of_absent {store : MockFactStore} {id : Uuid}
    (absent : store.facts.contains id = false) : id ∉ store.deleted := by
  intro member
  have stored := store.known id member
  simp_all

/-- A successful insertion adds one active fact whose identifier was not stored. -/
theorem insertFact_ok (store : MockFactStore) (tenant : TenantContext) (fact answer : Fact)
    (inserted : (store.insertFact tenant fact).1 = .ok answer) :
    answer = fact ∧ fact.tenant = tenant ∧ store.facts.contains fact.id = false ∧
      (store.insertFact tenant fact).2 = store.putFact fact := by
  unfold insertFact at inserted ⊢
  split_ifs at inserted ⊢ with foreign taken
  · exact ⟨(Except.ok.inj inserted).symm, not_not.mp foreign, by simpa using taken, rfl⟩

theorem insertFact_error (store : MockFactStore) (tenant : TenantContext) (fact : Fact)
    (error : MemcoreError) (failed : (store.insertFact tenant fact).1 = .error error) :
    (store.insertFact tenant fact).2 = store := by
  unfold insertFact at failed ⊢
  split_ifs at failed ⊢ <;> rfl

theorem active_putFact (store : MockFactStore) (fact other : Fact) :
    (store.putFact fact).Active other ↔
      other = fact ∧ fact.id ∉ store.deleted ∨ store.Active other ∧ other.id ≠ fact.id := by
  simp only [Active, putFact, Table.mem_put]
  constructor
  · rintro ⟨rfl | ⟨stored, different⟩, notDeleted⟩
    · exact .inl ⟨rfl, notDeleted⟩
    · exact .inr ⟨⟨stored, notDeleted⟩, different⟩
  · rintro (⟨rfl, notDeleted⟩ | ⟨⟨stored, notDeleted⟩, different⟩)
    · exact ⟨.inl rfl, notDeleted⟩
    · exact ⟨.inr ⟨stored, different⟩, notDeleted⟩

/-- After an insertion the active facts are the old ones and the new one. -/
theorem active_insertFact (store : MockFactStore) (fact other : Fact)
    (absent : store.facts.contains fact.id = false) :
    (store.putFact fact).Active other ↔ other = fact ∨ store.Active other := by
  rw [active_putFact]
  constructor
  · rintro (⟨same, _⟩ | ⟨active, _⟩)
    · exact .inl same
    · exact .inr active
  · rintro (same | active)
    · exact .inl ⟨same, not_deleted_of_absent absent⟩
    · refine .inr ⟨active, fun sameId => ?_⟩
      have stored := (store.facts.contains_iff fact.id).mpr ⟨other, active.1, sameId⟩
      simp_all

theorem updateFact_ok (store : MockFactStore) (tenant : TenantContext) (fact answer : Fact)
    (updated : (store.updateFact tenant fact).1 = .ok answer) :
    answer = fact ∧ fact.tenant = tenant ∧
      (store.updateFact tenant fact).2 = store.putFact fact := by
  unfold updateFact at updated ⊢
  by_cases foreign : fact.tenant ≠ tenant
  · simp [foreign] at updated
  · rw [if_neg foreign] at updated ⊢
    split at updated
    · simp at updated
    · split_ifs at updated ⊢
      exact ⟨(Except.ok.inj updated).symm, not_not.mp foreign, rfl⟩

/-- An update that succeeds replaces a row of the same tenant. -/
theorem updateFact_owned (store : MockFactStore) (tenant : TenantContext) (fact answer : Fact)
    (updated : (store.updateFact tenant fact).1 = .ok answer) :
    ∃ existing ∈ store.facts.rows, existing.id = fact.id ∧ existing.tenant = tenant := by
  unfold updateFact at updated
  split_ifs at updated
  split at updated
  · simp at updated
  · rename_i existing found
    split_ifs at updated with foreign
    obtain ⟨stored, sameId⟩ := (store.facts.find?_eq_some fact.id existing).mp found
    exact ⟨existing, stored, sameId, not_not.mp foreign⟩

theorem updateFact_error (store : MockFactStore) (tenant : TenantContext) (fact : Fact)
    (error : MemcoreError) (failed : (store.updateFact tenant fact).1 = .error error) :
    (store.updateFact tenant fact).2 = store := by
  unfold updateFact at failed ⊢
  by_cases foreign : fact.tenant ≠ tenant
  · rw [if_pos foreign]
  · rw [if_neg foreign] at failed ⊢
    split at failed
    · rfl
    · split_ifs at failed ⊢
      rfl

@[simp] theorem getFact_snd (store : MockFactStore) (tenant : TenantContext) (factId : Uuid) :
    (store.getFact tenant factId).2 = store := by
  unfold getFact
  split
  · rfl
  · split_ifs <;> rfl

/-- A lookup never fails; it finds exactly the active facts of the tenant. -/
theorem getFact_some (store : MockFactStore) (tenant : TenantContext) (factId : Uuid)
    (fact : Fact) : (store.getFact tenant factId).1 = .ok (some fact) ↔
      store.Active fact ∧ fact.tenant = tenant ∧ fact.id = factId := by
  unfold getFact
  cases found : store.facts.find? factId with
  | none =>
    simp only [Except.ok.injEq, reduceCtorEq, false_iff, not_and]
    exact fun active _ => (store.facts.find?_eq_none factId).mp found fact active.1
  | some row =>
    obtain ⟨stored, rfl⟩ := (store.facts.find?_eq_some factId row).mp found
    simp only [isDeleted, decide_eq_true_eq]
    constructor
    · intro returned
      split_ifs at returned with foreign deleted
      · simp at returned
      · simp at returned
      · obtain rfl : row = fact := by simpa using returned
        exact ⟨⟨stored, deleted⟩, not_not.mp foreign, rfl⟩
    · rintro ⟨active, rfl, sameId⟩
      obtain rfl := store.facts.eq_of_key active.1 stored sameId
      simp [active.2]

theorem getFact_none (store : MockFactStore) (tenant : TenantContext) (factId : Uuid) :
    (store.getFact tenant factId).1 = .ok none ↔
      ∀ fact, store.Active fact → fact.tenant = tenant → fact.id ≠ factId := by
  constructor
  · intro absent fact active sameTenant sameId
    have present := (store.getFact_some tenant factId fact).mpr ⟨active, sameTenant, sameId⟩
    rw [absent] at present
    simp at present
  · intro absent
    cases answer : (store.getFact tenant factId).1 with
    | error error =>
      unfold getFact at answer
      split at answer
      · simp at answer
      · split_ifs at answer
    | ok found =>
      cases found with
      | none => rfl
      | some fact =>
        obtain ⟨active, sameTenant, sameId⟩ := (store.getFact_some tenant factId fact).mp answer
        exact absurd sameId (absent fact active sameTenant)

@[simp] theorem searchFacts_snd (store : MockFactStore) (query : FactSearchQuery) :
    (store.searchFacts query).2 = store := rfl

theorem active_markDeleted (store : MockFactStore) (ids : List Uuid)
    (stored : ∀ id ∈ ids, store.facts.contains id = true) (fact : Fact) :
    (store.markDeleted ids stored).Active fact ↔ store.Active fact ∧ fact.id ∉ ids := by
  simp only [Active, markDeleted, List.mem_append, not_or]
  tauto

/-- A soft deletion removes one identifier from the active facts; it fails for a
missing row or for one of another tenant, and then changes nothing. -/
theorem active_softDeleteFact (store : MockFactStore) (tenant : TenantContext) (factId : Uuid)
    (deleted : (store.softDeleteFact tenant factId).1 = .ok ()) (fact : Fact) :
    (store.softDeleteFact tenant factId).2.Active fact ↔
      store.Active fact ∧ fact.id ≠ factId := by
  unfold softDeleteFact at deleted ⊢
  split at deleted
  · simp at deleted
  · split_ifs at deleted ⊢
    simp [active_markDeleted]

/-- A soft deletion that succeeds is of a row of the same tenant. -/
theorem softDeleteFact_owned (store : MockFactStore) (tenant : TenantContext) (factId : Uuid)
    (deleted : (store.softDeleteFact tenant factId).1 = .ok ()) :
    ∃ existing ∈ store.facts.rows, existing.id = factId ∧ existing.tenant = tenant := by
  unfold softDeleteFact at deleted
  split at deleted
  · simp at deleted
  · rename_i existing found
    split_ifs at deleted with foreign
    obtain ⟨stored, sameId⟩ := (store.facts.find?_eq_some factId existing).mp found
    exact ⟨existing, stored, sameId, not_not.mp foreign⟩

theorem softDeleteFact_ok (store : MockFactStore) (tenant : TenantContext) (factId : Uuid)
    (deleted : (store.softDeleteFact tenant factId).1 = .ok ())
    (stored : ∀ id ∈ [factId], store.facts.contains id = true) :
    (store.softDeleteFact tenant factId).2 = store.markDeleted [factId] stored := by
  unfold softDeleteFact at deleted ⊢
  split at deleted
  · simp at deleted
  · split_ifs at deleted ⊢
    rfl

theorem softDeleteFact_error (store : MockFactStore) (tenant : TenantContext) (factId : Uuid)
    (error : MemcoreError) (failed : (store.softDeleteFact tenant factId).1 = .error error) :
    (store.softDeleteFact tenant factId).2 = store := by
  unfold softDeleteFact at failed ⊢
  split at failed
  · rfl
  · split_ifs at failed ⊢
    rfl

/-- Soft deletion of an active fact of the tenant succeeds. -/
theorem softDeleteFact_active (store : MockFactStore) (fact : Fact) (active : store.Active fact) :
    (store.softDeleteFact fact.tenant fact.id).1 = .ok () := by
  have found := (store.facts.find?_eq_some fact.id fact).mpr ⟨active.1, rfl⟩
  unfold softDeleteFact
  split
  · simp_all
  · simp_all

theorem active_deleteUserData (store : MockFactStore) (tenant : TenantContext) (fact : Fact) :
    (store.deleteUserData tenant).2.Active fact ↔ store.Active fact ∧ fact.tenant ≠ tenant := by
  simp only [Active, deleteUserData, Table.mem_retain, decide_eq_true_eq, List.mem_filter,
    Table.contains_iff]
  constructor
  · rintro ⟨⟨stored, other⟩, notDeleted⟩
    exact ⟨⟨stored, fun member => notDeleted ⟨member, fact, ⟨stored, other⟩, rfl⟩⟩, other⟩
  · rintro ⟨⟨stored, notDeleted⟩, other⟩
    exact ⟨⟨stored, other⟩, fun member => notDeleted member.1⟩

theorem mem_expired (store : MockFactStore) (tenant : TenantContext) (cutoff : Instant)
    (fact : Fact) : fact ∈ store.expired tenant cutoff ↔
      store.Active fact ∧ fact.tenant = tenant ∧ fact.updatedAt < cutoff := by
  simp only [expired, List.mem_filter, Bool.and_eq_true, decide_eq_true_eq, isDeleted,
    Bool.not_eq_true', decide_eq_false_iff_not, Active]
  tauto

/-- A retention pass that applies removes exactly the expired facts. -/
theorem active_deleteFactsOlderThan (store : MockFactStore) (tenant : TenantContext)
    (cutoff : Instant) (fact : Fact) :
    (store.deleteFactsOlderThan tenant cutoff false).2.Active fact ↔
      store.Active fact ∧ ¬ (fact.tenant = tenant ∧ fact.updatedAt < cutoff) := by
  simp only [deleteFactsOlderThan, Bool.false_eq_true, if_false, active_markDeleted,
    List.mem_map, mem_expired, not_exists, not_and]
  constructor
  · rintro ⟨active, kept⟩
    exact ⟨active, fun sameTenant old => kept fact ⟨active, sameTenant, old⟩ rfl⟩
  · rintro ⟨active, kept⟩
    refine ⟨active, fun other expiredOther sameId => ?_⟩
    obtain rfl := expiredOther.1.unique active sameId
    exact kept expiredOther.2.1 expiredOther.2.2

end MockFactStore

end Memcore
