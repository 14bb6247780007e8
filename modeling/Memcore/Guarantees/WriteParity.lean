import Memcore.Guarantees.SearchParity

/-!
# Both fact stores take the same writes

Writes run from empty stores, in memory and on SQLite. As long as no insertion names an
identifier of another tenant, and no update or soft deletion names a fact that is
soft-deleted or another tenant's, every write is answered alike and every lookup finds
the same.

The two stores hold the same facts after every step. A step either is refused by both
with the same error, or changes the same fact in both.
-/
namespace Memcore

open KeyedTables

/-- The writes of a fact store. -/
inductive FactWrite where
  | insertFact (tenant : TenantContext) (fact : Fact)
  | updateFact (tenant : TenantContext) (fact : Fact)
  | softDeleteFact (tenant : TenantContext) (factId : Uuid)
  | deleteFactsOlderThan (tenant : TenantContext) (cutoff : Instant) (dryRun : Bool)
  | deleteUserData (tenant : TenantContext)

inductive WriteAnswer where
  | stored (fact : Fact)
  | pruned (result : RetentionPruneResult)
  | done

variable {σ : Type}

/-- One write at an instant. -/
def FactStore.write (store : FactStore σ) (now : Instant) (write : FactWrite) (state : σ) :
    MemcoreResult WriteAnswer × σ :=
  match write with
  | .insertFact tenant fact =>
      let served := store.insertFact tenant fact state
      (served.1.map .stored, served.2)
  | .updateFact tenant fact =>
      let served := store.updateFact tenant fact state
      (served.1.map .stored, served.2)
  | .softDeleteFact tenant factId =>
      let served := store.softDeleteFact now tenant factId state
      (served.1.map fun _ => .done, served.2)
  | .deleteFactsOlderThan tenant cutoff dryRun =>
      let served := store.deleteFactsOlderThan now tenant cutoff dryRun state
      (served.1.map .pruned, served.2)
  | .deleteUserData tenant =>
      let served := store.deleteUserData tenant state
      (served.1.map fun _ => .done, served.2)

/-- A store and the answers that it has given. -/
structure WriteRun (σ : Type) where
  state : σ
  answers : List (MemcoreResult WriteAnswer)

/-- Writes in order, each at its instant. -/
def runWrites (store : FactStore σ) (writes : List (Instant × FactWrite)) (run : WriteRun σ) :
    WriteRun σ :=
  writes.foldl (fun run entry =>
    let served := store.write entry.1 entry.2 run.state
    ⟨served.2, run.answers ++ [served.1]⟩) run

/-- Answers are the same, except that the identifiers of pruned facts come in no
particular order. -/
def SameAnswer : MemcoreResult WriteAnswer → MemcoreResult WriteAnswer → Prop
  | .ok (.pruned left), .ok (.pruned right) =>
      left.count = right.count ∧ left.factIds.Perm right.factIds
  | left, right => left = right

/-- What a write must meet in the store before it, so that both stores take it alike. A
write for another tenant's fact is refused by both before they look. -/
def Meets (texts : RowTexts) (store : MockFactStore) : FactWrite → Prop
  | .insertFact tenant fact => fact.tenant = tenant →
      texts.Carries fact ∧ ∀ stored ∈ store.facts.rows, stored.id = fact.id → stored.tenant = tenant
  | .updateFact tenant fact => fact.tenant = tenant →
      texts.Carries fact ∧ ∀ stored ∈ store.facts.rows, stored.id = fact.id →
        stored.tenant = tenant ∧ store.isDeleted fact.id = false
  | .softDeleteFact tenant factId => ∀ stored ∈ store.facts.rows, stored.id = factId →
      stored.tenant = tenant ∧ store.isDeleted factId = false
  | .deleteFactsOlderThan _ cutoff _ => texts.Represents cutoff
  | .deleteUserData _ => True

/-- Every write of a run meets its condition in the store that it finds. -/
def AllMeet (texts : RowTexts) : List (Instant × FactWrite) → MockFactStore → Prop
  | [], _ => True
  | (now, write) :: rest, store => Meets texts store write ∧
      AllMeet texts rest (mockFactStore.write now write store).2

variable {texts : RowTexts} {store : MockFactStore} {rows : FactRows}

theorem SameAnswer.refl (answer : MemcoreResult WriteAnswer) : SameAnswer answer answer := by
  cases answer with
  | error _ => rfl
  | ok answer =>
    cases answer with
    | stored _ => rfl
    | done => rfl
    | pruned result => exact ⟨rfl, .refl _⟩

/-- The error of an answer. -/
def errorOf : MemcoreResult WriteAnswer → Option MemcoreError
  | .ok _ => none
  | .error error => some error

/-- The same answers fail with the same errors. -/
theorem sameErrors {left right : List (MemcoreResult WriteAnswer)}
    (agree : List.Forall₂ SameAnswer left right) : left.map errorOf = right.map errorOf := by
  induction agree with
  | nil => rfl
  | @cons answer other _ _ same _ inductionHypothesis =>
    have sameError : errorOf answer = errorOf other := by
      cases answer with
      | error _ =>
        have equal : _ = other := same
        rw [← equal]
      | ok value =>
        cases other with
        | error _ =>
          cases value with
          | stored _ => nomatch same
          | pruned _ => nomatch same
          | done => nomatch same
        | ok _ => rfl
    rw [List.map_cons, List.map_cons, sameError, inductionHypothesis]

/-! ## What a change does to stores that hold the same facts -/

namespace SameFacts

theorem empty : SameFacts texts MockFactStore.empty Table.empty where
  row := by
    intro fact stored
    nomatch stored
  fact := by
    intro row stored
    nomatch stored

/-- A fact stored under a new identifier, with its row. -/
theorem insert (alike : SameFacts texts store rows) {fact : Fact} (carries : texts.Carries fact)
    {metadata : String} (printed : texts.jsonToString fact.metadata = .ok metadata)
    (active : store.isDeleted fact.id = false) :
    SameFacts texts (store.putFact fact)
      (rows.put (SqliteFactStore.bindFact texts fact metadata none)) := by
  have stands : Stands texts (store.isDeleted fact.id) fact
      (SqliteFactStore.bindFact texts fact metadata none) :=
    ⟨carries, ⟨metadata, printed, rfl⟩, active.symm⟩
  constructor
  · intro other stored
    rcases (Table.mem_put _ _ _).mp stored with rfl | ⟨before, different⟩
    · exact ⟨_, (Table.mem_put _ _ _).mpr (.inl rfl), stands⟩
    · obtain ⟨row, storedRow, otherStands⟩ := alike.row other before
      refine ⟨row, (Table.mem_put _ _ _).mpr (.inr ⟨storedRow, ?_⟩), otherStands⟩
      rw [otherStands.id, stands.id]
      exact fun same => different ((Uuid.toText_inj _ _).mp same)
  · intro row stored
    rcases (Table.mem_put _ _ _).mp stored with rfl | ⟨before, different⟩
    · exact ⟨fact, (Table.mem_put _ _ _).mpr (.inl rfl), stands⟩
    · obtain ⟨other, storedOther, otherStands⟩ := alike.fact row before
      refine ⟨other, (Table.mem_put _ _ _).mpr (.inr ⟨storedOther, ?_⟩), otherStands⟩
      rw [otherStands.id, stands.id] at different
      exact fun same => different (congrArg _ same)

/-- A fact changed in place, with its row. -/
theorem update (alike : SameFacts texts store rows) {fact stored : Fact} {tenant : TenantContext}
    (carries : texts.Carries fact) {metadata : String}
    (printed : texts.jsonToString fact.metadata = .ok metadata) (own : fact.tenant = tenant)
    (found : store.facts.find? fact.id = some stored) (sameTenant : stored.tenant = tenant)
    (active : store.isDeleted fact.id = false) :
    SameFacts texts (store.putFact fact)
      (SqlTables.update (SqliteFactStore.ofActiveFact tenant fact.id)
        (SqliteFactStore.assignFact (SqliteFactStore.bindFact texts fact metadata none))
        (SqliteFactStore.assignFact_id _) rows).2 := by
  obtain ⟨isStored, sameId⟩ := (Table.find?_eq_some _ _ _).mp found
  have selected (other : Fact) (stored : other ∈ store.facts.rows) (row : FactRow)
      (stands : Stands texts (store.isDeleted other.id) other row) :
      SqliteFactStore.ofActiveFact tenant fact.id row = decide (other.id = fact.id) := by
    by_cases same : other.id = fact.id
    · have one := store.facts.eq_of_key stored isStored (same.trans sameId.symm)
      rw [SqliteFactStore.ofActiveFact, stands.id, stands.ofTenant, stands.isActive, same, active,
        one, sameTenant]
      simp
    · have different : Uuid.toText other.id ≠ Uuid.toText fact.id :=
        fun clash => same ((Uuid.toText_inj _ _).mp clash)
      rw [SqliteFactStore.ofActiveFact, stands.id]
      simp [same, different]
  have changed (row : FactRow) (stands : Stands texts (store.isDeleted stored.id) stored row) :
      Stands texts (store.isDeleted fact.id) fact
        (SqliteFactStore.assignFact (SqliteFactStore.bindFact texts fact metadata none) row) := by
    obtain ⟨_, _, same⟩ := stands.bound
    have tenants : stored.orgId = fact.orgId ∧ stored.userId = fact.userId := by
      have sameTenants := sameTenant.trans own.symm
      exact ⟨congrArg TenantContext.orgId sameTenants, congrArg TenantContext.userId sameTenants⟩
    refine ⟨carries, ⟨metadata, printed, ?_⟩, ?_⟩
    · rw [same]
      simp only [SqliteFactStore.assignFact, SqliteFactStore.bindFact, sameId, tenants.1,
        tenants.2]
    · rw [SqliteFactStore.assignFact_deletedAt, stands.deletion, sameId]
  constructor
  · intro other member
    rcases (Table.mem_put _ _ _).mp member with rfl | ⟨before, different⟩
    · obtain ⟨row, storedRow, stands⟩ := alike.row stored isStored
      refine ⟨_, (SqlTables.mem_update _ _ _ _ _).mpr ⟨row, storedRow, rfl⟩, ?_⟩
      rw [if_pos (by simp [selected stored isStored row stands, sameId])]
      exact changed row stands
    · obtain ⟨row, storedRow, stands⟩ := alike.row other before
      refine ⟨row, (SqlTables.mem_update _ _ _ _ _).mpr ⟨row, storedRow, ?_⟩, stands⟩
      rw [if_neg (by simp [selected other before row stands, different])]
  · intro row member
    obtain ⟨before, storedRow, rfl⟩ := (SqlTables.mem_update _ _ _ _ _).mp member
    obtain ⟨other, storedOther, stands⟩ := alike.fact before storedRow
    by_cases same : other.id = fact.id
    · obtain rfl := store.facts.eq_of_key storedOther isStored (same.trans sameId.symm)
      rw [if_pos (by simp [selected _ storedOther before stands, same])]
      exact ⟨fact, (Table.mem_put _ _ _).mpr (.inl rfl), changed before stands⟩
    · rw [if_neg (by simp [selected other storedOther before stands, same])]
      exact ⟨other, (Table.mem_put _ _ _).mpr (.inr ⟨storedOther, same⟩), stands⟩

/-- Facts marked as deleted, and the rows of these facts. -/
theorem mark (alike : SameFacts texts store rows) {marked : MockFactStore}
    (sameRows : marked.facts = store.facts) {selects : FactRow → Bool} (deletedAt : String)
    (marks : ∀ fact ∈ store.facts.rows, ∀ row, Stands texts (store.isDeleted fact.id) fact row →
      marked.isDeleted fact.id = (store.isDeleted fact.id || selects row)) :
    SameFacts texts marked (SqlTables.update selects (SqliteFactStore.assignDeletedAt deletedAt)
      (SqliteFactStore.assignDeletedAt_id _) rows).2 := by
  have changed (fact : Fact) (stored : fact ∈ store.facts.rows) (row : FactRow)
      (stands : Stands texts (store.isDeleted fact.id) fact row) :
      Stands texts (marked.isDeleted fact.id) fact
        (if selects row then SqliteFactStore.assignDeletedAt deletedAt row else row) := by
    obtain ⟨metadata, printed, same⟩ := stands.bound
    rw [marks fact stored row stands]
    by_cases selected : selects row = true
    · rw [if_pos selected, selected, Bool.or_true]
      refine ⟨stands.carries, ⟨metadata, printed, ?_⟩, rfl⟩
      rw [same]
      rfl
    · rw [if_neg selected]
      rw [Bool.not_eq_true] at selected
      rw [selected, Bool.or_false]
      exact stands
  constructor
  · intro fact stored
    rw [sameRows] at stored
    obtain ⟨row, storedRow, stands⟩ := alike.row fact stored
    exact ⟨_, (SqlTables.mem_update _ _ _ _ _).mpr ⟨row, storedRow, rfl⟩,
      changed fact stored row stands⟩
  · intro row member
    obtain ⟨before, storedRow, rfl⟩ := (SqlTables.mem_update _ _ _ _ _).mp member
    obtain ⟨fact, stored, stands⟩ := alike.fact before storedRow
    exact ⟨fact, sameRows ▸ stored, changed fact stored before stands⟩

/-- Facts removed, and the rows of these facts. -/
theorem remove (alike : SameFacts texts store rows) (tenant : TenantContext) :
    SameFacts texts (store.deleteUserData tenant).2
      (SqlTables.delete (SqliteFactStore.ofTenant tenant) rows).2 := by
  have sameMark (fact : Fact) (stored : fact ∈ store.facts.rows) (other : fact.tenant ≠ tenant) :
      (store.deleteUserData tenant).2.isDeleted fact.id = store.isDeleted fact.id := by
    have remains : (store.facts.retain fun fact => decide (fact.tenant ≠ tenant)).contains fact.id =
        true := (Table.contains_iff _ _).mpr ⟨fact, by simp [stored, other], rfl⟩
    simp only [MockFactStore.isDeleted, MockFactStore.deleteUserData, List.mem_filter, remains,
      and_true]
  constructor
  · intro fact member
    obtain ⟨stored, other⟩ := (Table.mem_retain _ _ _).mp member
    rw [decide_eq_true_eq] at other
    obtain ⟨row, storedRow, stands⟩ := alike.row fact stored
    refine ⟨row, (Table.mem_retain _ _ _).mpr ⟨storedRow, ?_⟩, ?_⟩
    · simp [stands.ofTenant, other]
    · rw [sameMark fact stored other]
      exact stands
  · intro row member
    obtain ⟨storedRow, kept⟩ := (Table.mem_retain _ _ _).mp member
    obtain ⟨fact, stored, stands⟩ := alike.fact row storedRow
    have other : fact.tenant ≠ tenant := by simpa [stands.ofTenant] using kept
    refine ⟨fact, (Table.mem_retain _ _ _).mpr ⟨stored, by simpa using other⟩, ?_⟩
    rw [sameMark fact stored other]
    exact stands

end SameFacts

/-! ## One write -/

section Steps

variable (alike : SameFacts texts store rows)
include alike

/-- The statement finds a row of a tenant just when the tenant's fact is stored. -/
theorem countP_ofFact (tenant : TenantContext) (factId : Uuid) :
    0 < rows.rows.countP (SqliteFactStore.ofFact tenant factId) ↔
      ∃ fact, store.facts.find? factId = some fact ∧ fact.tenant = tenant := by
  have counted := SqlTables.countP_key_pos rows (Uuid.toText factId)
    (SqliteFactStore.ofTenant tenant)
  rw [show SqliteFactStore.ofFact tenant factId = fun row =>
    decide (row.id = Uuid.toText factId) && SqliteFactStore.ofTenant tenant row from rfl, counted]
  rcases alike.lookup factId with ⟨absent, absentRow⟩ | ⟨fact, row, found, foundRow, stands⟩
  · simp [absent, absentRow]
  · simp [found, foundRow, stands.ofTenant]

/-- The statement finds an active row just when the tenant's fact is stored and active. -/
theorem countP_ofActiveFact (tenant : TenantContext) (factId : Uuid) :
    0 < rows.rows.countP (SqliteFactStore.ofActiveFact tenant factId) ↔
      ∃ fact, store.facts.find? factId = some fact ∧ fact.tenant = tenant ∧
        store.isDeleted factId = false := by
  have counted := SqlTables.countP_key_pos rows (Uuid.toText factId)
    (fun row => SqliteFactStore.ofTenant tenant row && SqliteFactStore.isActive row)
  rw [show SqliteFactStore.ofActiveFact tenant factId = fun row =>
    decide (row.id = Uuid.toText factId) &&
      (SqliteFactStore.ofTenant tenant row && SqliteFactStore.isActive row) from rfl, counted]
  rcases alike.lookup factId with ⟨absent, absentRow⟩ | ⟨fact, row, found, foundRow, stands⟩
  · simp [absent, absentRow]
  · simp [found, foundRow, stands.ofTenant, stands.isActive]

/-- Both stores find the same active fact of a tenant. -/
theorem getFact_agrees (tenant : TenantContext) (factId : Uuid) :
    (sqliteFactStore texts).getFact tenant factId rows =
      mockFactStore.getFact tenant factId store := by
  have selected := SqlTables.find?_key rows (Uuid.toText factId)
    (fun row => SqliteFactStore.ofTenant tenant row && SqliteFactStore.isActive row)
  change SqliteFactStore.getFact texts tenant factId rows = (store.getFact tenant factId).1
  rw [SqliteFactStore.getFact, show SqliteFactStore.ofActiveFact tenant factId = fun row =>
    decide (row.id = Uuid.toText factId) &&
      (SqliteFactStore.ofTenant tenant row && SqliteFactStore.isActive row) from rfl, selected]
  unfold MockFactStore.getFact
  rcases alike.lookup factId with ⟨absent, absentRow⟩ | ⟨fact, row, found, foundRow, stands⟩
  · rw [absent, absentRow]
    rfl
  · rw [found, foundRow]
    by_cases own : fact.tenant = tenant
    · by_cases deleted : store.isDeleted factId = true
      · simp [Option.filter, stands.ofTenant, stands.isActive, own, deleted]
      · simp [Option.filter, stands.ofTenant, stands.isActive, own, deleted, stands.reads,
          Except.map]
    · simp [Option.filter, stands.ofTenant, own]

/-- An insertion is answered alike and stores the same fact. -/
theorem insertFact_agrees (tenant : TenantContext) (fact : Fact)
    (meets : Meets texts store (.insertFact tenant fact)) :
    (SqliteFactStore.insertFact texts tenant fact rows).1 = (store.insertFact tenant fact).1 ∧
      SameFacts texts (store.insertFact tenant fact).2
        (SqliteFactStore.insertFact texts tenant fact rows).2 := by
  unfold SqliteFactStore.insertFact MockFactStore.insertFact
  by_cases own : fact.tenant = tenant
  · obtain ⟨carries, ownOnly⟩ := meets own
    obtain ⟨metadata, printed, _⟩ := carries.metadata
    have bound : SqliteFactStore.metadataToStr texts fact.metadata = .ok metadata := by
      rw [SqliteFactStore.metadataToStr, printed]
    rw [if_neg (not_not.mpr own), if_neg (not_not.mpr own)]
    have counted := countP_ofFact alike tenant fact.id
    rcases alike.lookup fact.id with ⟨absent, absentRow⟩ | ⟨stored, row, found, foundRow, stands⟩
    · have free : ¬ store.facts.contains fact.id = true := by
        rw [Table.contains_eq_isSome, absent]
        simp
      have noRow : ¬ rows.rows.countP (SqliteFactStore.ofFact tenant fact.id) > 0 := by
        rw [gt_iff_lt, counted, absent]
        simp
      have inserted : SqlTables.insert (SqliteFactStore.bindFact texts fact metadata none) rows =
          some (rows.put (SqliteFactStore.bindFact texts fact metadata none)) :=
        SqlTables.insert_of_absent rows absentRow
      have active : store.isDeleted fact.id = false := by
        have notDeleted := MockFactStore.not_deleted_of_absent (by simpa using free)
        simpa [MockFactStore.isDeleted] using notDeleted
      rw [if_neg free, if_neg noRow, bound]
      simp only [inserted]
      exact ⟨trivial, alike.insert carries printed active⟩
    · obtain ⟨isStored, sameId⟩ := (Table.find?_eq_some _ _ _).mp found
      have taken : store.facts.contains fact.id = true := by
        rw [Table.contains_eq_isSome, found]
        rfl
      have ownRow : rows.rows.countP (SqliteFactStore.ofFact tenant fact.id) > 0 :=
        counted.mpr ⟨stored, found, ownOnly stored isStored sameId⟩
      rw [if_pos taken, if_pos ownRow]
      exact ⟨rfl, alike⟩
  · rw [if_pos own, if_pos own]
    exact ⟨rfl, alike⟩

/-- An update is answered alike and changes the same fact. -/
theorem updateFact_agrees (tenant : TenantContext) (fact : Fact)
    (meets : Meets texts store (.updateFact tenant fact)) :
    (SqliteFactStore.updateFact texts tenant fact rows).1 = (store.updateFact tenant fact).1 ∧
      SameFacts texts (store.updateFact tenant fact).2
        (SqliteFactStore.updateFact texts tenant fact rows).2 := by
  unfold SqliteFactStore.updateFact MockFactStore.updateFact
  by_cases own : fact.tenant = tenant
  · obtain ⟨carries, ownActive⟩ := meets own
    obtain ⟨metadata, printed, _⟩ := carries.metadata
    have bound : SqliteFactStore.metadataToStr texts fact.metadata = .ok metadata := by
      rw [SqliteFactStore.metadataToStr, printed]
    rw [if_neg (not_not.mpr own), if_neg (not_not.mpr own), bound]
    have counted := countP_ofActiveFact alike tenant fact.id
    rcases alike.lookup fact.id with ⟨absent, absentRow⟩ | ⟨stored, row, found, foundRow, stands⟩
    · have noRow : ¬ 0 < rows.rows.countP (SqliteFactStore.ofActiveFact tenant fact.id) := by
        rw [counted, absent]
        simp
      have unselected := SqlTables.update_none rows
        (SqliteFactStore.assignFact (SqliteFactStore.bindFact texts fact metadata none))
        (SqliteFactStore.assignFact_id _) noRow
      rw [absent]
      simp only [unselected, if_true]
      exact ⟨trivial, alike⟩
    · obtain ⟨isStored, sameId⟩ := (Table.find?_eq_some _ _ _).mp found
      obtain ⟨sameTenant, active⟩ := ownActive stored isStored sameId
      have someRow : (SqlTables.update (SqliteFactStore.ofActiveFact tenant fact.id)
          (SqliteFactStore.assignFact (SqliteFactStore.bindFact texts fact metadata none))
          (SqliteFactStore.assignFact_id _) rows).1 ≠ 0 :=
        (counted.mpr ⟨stored, found, sameTenant, active⟩).ne'
      rw [found]
      simp only [sameTenant, ne_eq, not_true_eq_false, if_false]
      rw [if_neg someRow]
      exact ⟨rfl, alike.update carries printed own found sameTenant active⟩
  · rw [if_pos own, if_pos own]
    exact ⟨rfl, alike⟩

/-- A soft deletion is answered alike and marks the same fact. -/
theorem softDeleteFact_agrees (now : Instant) (tenant : TenantContext) (factId : Uuid)
    (meets : Meets texts store (.softDeleteFact tenant factId)) :
    (SqliteFactStore.softDeleteFact texts now tenant factId rows).1 =
        (store.softDeleteFact tenant factId).1 ∧
      SameFacts texts (store.softDeleteFact tenant factId).2
        (SqliteFactStore.softDeleteFact texts now tenant factId rows).2 := by
  have counted := countP_ofActiveFact alike tenant factId
  rcases alike.lookup factId with ⟨absent, absentRow⟩ | ⟨stored, row, found, foundRow, stands⟩
  · have refused : store.softDeleteFact tenant factId =
        (.error (.notFound ("fact not found: " ++ Uuid.toText factId)), store) := by
      unfold MockFactStore.softDeleteFact
      split
      · rfl
      · simp_all
    have noRow : ¬ 0 < rows.rows.countP (SqliteFactStore.ofActiveFact tenant factId) := by
      rw [counted, absent]
      simp
    have unselected := SqlTables.update_none rows
      (SqliteFactStore.assignDeletedAt (texts.toRfc3339 now))
      (SqliteFactStore.assignDeletedAt_id _) noRow
    simp only [SqliteFactStore.softDeleteFact, unselected, if_true, refused]
    exact ⟨trivial, alike⟩
  · obtain ⟨isStored, sameId⟩ := (Table.find?_eq_some _ _ _).mp found
    obtain ⟨sameTenant, active⟩ := meets stored isStored sameId
    have someRow : (SqlTables.update (SqliteFactStore.ofActiveFact tenant factId)
        (SqliteFactStore.assignDeletedAt (texts.toRfc3339 now))
        (SqliteFactStore.assignDeletedAt_id _) rows).1 ≠ 0 :=
      (counted.mpr ⟨stored, found, sameTenant, active⟩).ne'
    obtain ⟨answer, sameRows, deleted⟩ : (store.softDeleteFact tenant factId).1 = .ok () ∧
        (store.softDeleteFact tenant factId).2.facts = store.facts ∧
        (store.softDeleteFact tenant factId).2.deleted = [factId] ++ store.deleted := by
      unfold MockFactStore.softDeleteFact
      split
      · simp_all
      · simp_all [MockFactStore.markDeleted]
    rw [answer, SqliteFactStore.softDeleteFact]
    simp only [if_neg someRow, true_and]
    apply alike.mark sameRows
    intro fact storedFact otherRow otherStands
    by_cases same : fact.id = factId
    · have one := store.facts.eq_of_key storedFact isStored (same.trans sameId.symm)
      rw [SqliteFactStore.ofActiveFact, otherStands.id, otherStands.ofTenant,
        otherStands.isActive, same, active, one, sameTenant]
      simp [MockFactStore.isDeleted, deleted]
    · have different : Uuid.toText fact.id ≠ Uuid.toText factId :=
        fun clash => same ((Uuid.toText_inj _ _).mp clash)
      rw [SqliteFactStore.ofActiveFact, otherStands.id]
      simp [MockFactStore.isDeleted, deleted, same, different]

omit alike in
/-- The statement selects the rows of the expired facts. -/
theorem ofExpired_eq (chronological : texts.Chronological) (tenant : TenantContext)
    {cutoff : Instant} (reads : texts.Represents cutoff) {fact : Fact}
    (stored : fact ∈ store.facts.rows) {row : FactRow}
    (stands : Stands texts (store.isDeleted fact.id) fact row) :
    SqliteFactStore.ofExpired texts tenant cutoff row = true ↔
      fact ∈ store.expired tenant cutoff := by
  have order := chronological _ _ stands.carries.updatedAt reads
  rw [SqliteFactStore.ofExpired, stands.ofTenant, stands.isActive, stands.updatedAt,
    MockFactStore.expired, List.mem_filter]
  simp only [order, stored, true_and]

/-- The identifiers in the expired rows are those of the expired facts. -/
theorem expired_read (chronological : texts.Chronological) (tenant : TenantContext)
    {cutoff : Instant} (reads : texts.Represents cutoff) :
    ∃ factIds, (rows.rows.filter (SqliteFactStore.ofExpired texts tenant cutoff)).mapM
        (fun row => SqliteFactStore.parseUuid texts (fun _ => "invalid fact id") row.id) =
          .ok factIds ∧
      factIds.length = rows.rows.countP (SqliteFactStore.ofExpired texts tenant cutoff) ∧
      factIds.Perm ((store.expired tenant cutoff).map Fact.id) := by
  let expiredRows := rows.rows.filter (SqliteFactStore.ofExpired texts tenant cutoff)
  obtain ⟨facts, pairs⟩ := @SqlTables.exists_forall₂ _ _
    (fun row fact => fact ∈ store.expired tenant cutoff ∧
      Stands texts (store.isDeleted fact.id) fact row) expiredRows (by
    intro row member
    obtain ⟨storedRow, selected⟩ := List.mem_filter.mp member
    obtain ⟨fact, stored, stands⟩ := alike.fact row storedRow
    exact ⟨fact, (ofExpired_eq chronological tenant reads stored stands).mp selected,
      stands⟩)
  have read : List.Forall₂ (fun row id =>
      SqliteFactStore.parseUuid texts (fun _ => "invalid fact id") row.id = .ok id)
      expiredRows (facts.map Fact.id) := by
    rw [List.forall₂_map_right_iff]
    apply pairs.imp
    rintro row fact ⟨_, stands⟩
    rw [SqliteFactStore.parseUuid, stands.id, stands.carries.id]
  have distinctRows := (List.pairwise_map.mp rows.distinct).filter
    (SqliteFactStore.ofExpired texts tenant cutoff)
  have distinctFacts : facts.Nodup := by
    apply SqlTables.pairwise_of_forall₂ pairs _ distinctRows
    rintro row other fact otherFact ⟨_, stands⟩ ⟨_, otherStands⟩ different same
    rw [stands.id, otherStands.id, same] at different
    exact different rfl
  have distinctExpired : (store.expired tenant cutoff).Nodup :=
    (List.Nodup.of_map Fact.id store.facts.distinct).filter _
  have sameMembers (fact : Fact) : fact ∈ facts ↔ fact ∈ store.expired tenant cutoff := by
    constructor
    · intro member
      obtain ⟨_, _, expired, _⟩ := SqlTables.mem_of_forall₂ pairs member
      exact expired
    · intro expired
      have stored := (List.mem_filter.mp expired).1
      obtain ⟨row, storedRow, stands⟩ := alike.row fact stored
      have selected := (ofExpired_eq chronological tenant reads stored stands).mpr expired
      have member : row ∈ expiredRows := List.mem_filter.mpr ⟨storedRow, selected⟩
      obtain ⟨other, otherMember, _, otherStands⟩ := SqlTables.mem_of_forall₂ pairs.flip member
      rw [Except.ok.inj (stands.reads.symm.trans otherStands.reads)]
      exact otherMember
  have samePerm : facts.Perm (store.expired tenant cutoff) :=
    (List.perm_ext_iff_of_nodup distinctFacts distinctExpired).mpr sameMembers
  refine ⟨facts.map Fact.id, SqlTables.mapM_of_forall₂ read, ?_, samePerm.map Fact.id⟩
  rw [← read.length_eq, List.countP_eq_length_filter]

/-- Marking the expired rows marks the expired facts. -/
theorem expired_marked (chronological : texts.Chronological) (now : Instant)
    (tenant : TenantContext) {cutoff : Instant} (reads : texts.Represents cutoff)
    (marked : MockFactStore) (sameRows : marked.facts = store.facts)
    (deleted : marked.deleted = (store.expired tenant cutoff).map Fact.id ++ store.deleted) :
    SameFacts texts marked (SqlTables.update (SqliteFactStore.ofExpired texts tenant cutoff)
      (SqliteFactStore.assignDeletedAt (texts.toRfc3339 now))
      (SqliteFactStore.assignDeletedAt_id _) rows).2 := by
  apply alike.mark sameRows
  intro fact stored row stands
  have selected := ofExpired_eq chronological tenant reads stored stands
  have named : fact.id ∈ (store.expired tenant cutoff).map Fact.id ↔
      fact ∈ store.expired tenant cutoff := by
    constructor
    · intro member
      obtain ⟨other, expired, same⟩ := List.mem_map.mp member
      have one := store.facts.eq_of_key (List.mem_filter.mp expired).1 stored same
      exact one ▸ expired
    · exact List.mem_map_of_mem
  rw [Bool.eq_iff_iff]
  simp only [MockFactStore.isDeleted, deleted, List.mem_append, decide_eq_true_eq,
    Bool.or_eq_true, selected, named]
  exact or_comm

/-- A retention pass counts, names and marks the same facts. -/
theorem deleteFactsOlderThan_agrees (chronological : texts.Chronological) (now : Instant)
    (tenant : TenantContext) (cutoff : Instant) (dryRun : Bool)
    (reads : texts.Represents cutoff) :
    (∃ mine theirs, (store.deleteFactsOlderThan tenant cutoff dryRun).1 = .ok mine ∧
      (SqliteFactStore.deleteFactsOlderThan texts now tenant cutoff dryRun rows).1 = .ok theirs ∧
      theirs.count = mine.count ∧ theirs.factIds.Perm mine.factIds) ∧
    SameFacts texts (store.deleteFactsOlderThan tenant cutoff dryRun).2
      (SqliteFactStore.deleteFactsOlderThan texts now tenant cutoff dryRun rows).2 := by
  obtain ⟨factIds, read, counted, samePerm⟩ := expired_read alike chronological tenant reads
  have sameCount : factIds.length = (store.expired tenant cutoff).length := by
    rw [samePerm.length_eq, List.length_map]
  unfold SqliteFactStore.deleteFactsOlderThan MockFactStore.deleteFactsOlderThan
  simp only [read, List.length_map]
  cases dryRun with
  | true =>
    simp only [if_true]
    exact ⟨⟨_, _, rfl, rfl, sameCount, .refl _⟩, alike⟩
  | false =>
    have marked := expired_marked alike chronological now tenant reads
      (store.markDeleted ((store.expired tenant cutoff).map Fact.id) (by
        intro id member
        obtain ⟨fact, expired, sameId⟩ := List.mem_map.mp member
        rw [Table.contains_iff]
        exact ⟨fact, (List.mem_filter.mp expired).1, sameId⟩)) rfl rfl
    by_cases nothing : factIds = []
    · -- SQLite skips the statement, which would find no row.
      have noRow : ¬ 0 < rows.rows.countP (SqliteFactStore.ofExpired texts tenant cutoff) := by
        rw [← counted, nothing]
        simp
      rw [SqlTables.update_none rows _ _ noRow] at marked
      subst nothing
      simp only [Bool.false_eq_true, if_false, List.isEmpty_nil, if_true]
      exact ⟨⟨_, _, rfl, rfl, sameCount, samePerm⟩, marked⟩
    · have some : ¬ factIds.isEmpty = true := by simpa using nothing
      simp only [Bool.false_eq_true, if_false, if_neg some]
      exact ⟨⟨_, _, rfl, rfl, counted.symm.trans sameCount, samePerm⟩, marked⟩

/-- A write that meets its condition is answered alike, and the stores hold the same facts
after it. -/
theorem write_agrees (chronological : texts.Chronological) (now : Instant) (write : FactWrite)
    (meets : Meets texts store write) :
    SameAnswer (mockFactStore.write now write store).1
        ((sqliteFactStore texts).write now write rows).1 ∧
      SameFacts texts (mockFactStore.write now write store).2
        ((sqliteFactStore texts).write now write rows).2 := by
  cases write with
  | insertFact tenant fact =>
    obtain ⟨answer, later⟩ := insertFact_agrees alike tenant fact meets
    simp only [FactStore.write, mockFactStore, sqliteFactStore, answer]
    exact ⟨.refl _, later⟩
  | updateFact tenant fact =>
    obtain ⟨answer, later⟩ := updateFact_agrees alike tenant fact meets
    simp only [FactStore.write, mockFactStore, sqliteFactStore, answer]
    exact ⟨.refl _, later⟩
  | softDeleteFact tenant factId =>
    obtain ⟨answer, later⟩ := softDeleteFact_agrees alike now tenant factId meets
    simp only [FactStore.write, mockFactStore, sqliteFactStore, answer]
    exact ⟨.refl _, later⟩
  | deleteFactsOlderThan tenant cutoff dryRun =>
    obtain ⟨⟨mine, theirs, answer, otherAnswer, sameCount, samePerm⟩, later⟩ :=
      deleteFactsOlderThan_agrees alike chronological now tenant cutoff dryRun meets
    simp only [FactStore.write, mockFactStore, sqliteFactStore, answer, otherAnswer]
    exact ⟨⟨sameCount.symm, samePerm.symm⟩, later⟩
  | deleteUserData tenant =>
    exact ⟨.refl _, alike.remove tenant⟩

end Steps

/-! ## Runs -/

theorem runWrites_agrees (chronological : texts.Chronological)
    (writes : List (Instant × FactWrite)) {mock : WriteRun MockFactStore}
    {sqlite : WriteRun FactRows} (meet : AllMeet texts writes mock.state)
    (alike : SameFacts texts mock.state sqlite.state)
    (sameAnswers : List.Forall₂ SameAnswer mock.answers sqlite.answers) :
    List.Forall₂ SameAnswer (runWrites mockFactStore writes mock).answers
        (runWrites (sqliteFactStore texts) writes sqlite).answers ∧
      SameFacts texts (runWrites mockFactStore writes mock).state
        (runWrites (sqliteFactStore texts) writes sqlite).state := by
  induction writes generalizing mock sqlite with
  | nil => exact ⟨sameAnswers, alike⟩
  | cons entry rest inductionHypothesis =>
    obtain ⟨now, write⟩ := entry
    obtain ⟨meets, restMeets⟩ := meet
    obtain ⟨sameAnswer, later⟩ := write_agrees alike chronological now write meets
    apply inductionHypothesis
    · exact restMeets
    · exact later
    · exact List.rel_append sameAnswers (.cons sameAnswer .nil)

/-- In every run from empty stores whose writes meet their condition, all answers are the
same, and afterwards both stores find the same fact for every tenant and identifier. -/
theorem fact_writes_agree (texts : RowTexts) (chronological : texts.Chronological)
    (writes : List (Instant × FactWrite)) (meet : AllMeet texts writes .empty) :
    let mock := runWrites mockFactStore writes ⟨.empty, []⟩
    let sqlite := runWrites (sqliteFactStore texts) writes ⟨.empty, []⟩
    List.Forall₂ SameAnswer mock.answers sqlite.answers ∧
      ∀ tenant factId, mockFactStore.getFact tenant factId mock.state =
        (sqliteFactStore texts).getFact tenant factId sqlite.state := by
  intro mock sqlite
  obtain ⟨sameAnswers, alike⟩ := @runWrites_agrees texts chronological writes ⟨.empty, []⟩
    ⟨.empty, []⟩ meet .empty .nil
  refine ⟨sameAnswers, ?_⟩
  intro tenant factId
  exact (getFact_agrees alike tenant factId).symm

section Sample

/-- A memory is stored and soft-deleted. -/
def sampleWrites : List (Instant × FactWrite) :=
  [(0, .insertFact sampleTenant (sampleFact 1)), (0, .softDeleteFact sampleTenant 1)]

theorem fact_writes_agree_sample :
    let mock := runWrites mockFactStore sampleWrites ⟨.empty, []⟩
    let sqlite := runWrites (sqliteFactStore sampleRowTexts) sampleWrites ⟨.empty, []⟩
    List.Forall₂ SameAnswer mock.answers sqlite.answers ∧
      ∀ tenant factId, mockFactStore.getFact tenant factId mock.state =
        (sqliteFactStore sampleRowTexts).getFact tenant factId sqlite.state := by
  apply fact_writes_agree sampleRowTexts sampleRowTexts_chronological sampleWrites
  refine ⟨?_, ?_, trivial⟩
  · intro _
    refine ⟨sampleFact_carries, ?_⟩
    intro stored member
    nomatch member
  · intro stored member _
    obtain rfl : stored = sampleFact 1 := List.mem_singleton.mp member
    exact ⟨rfl, rfl⟩

/-- A second soft deletion, and an insertion under an identifier of another tenant. -/
theorem fact_writes_differ :
    (¬ List.Forall₂ SameAnswer
      (runWrites mockFactStore (sampleWrites ++ [(0, .softDeleteFact sampleTenant 1)])
        ⟨.empty, []⟩).answers
      (runWrites (sqliteFactStore sampleRowTexts)
        (sampleWrites ++ [(0, .softDeleteFact sampleTenant 1)]) ⟨.empty, []⟩).answers) ∧
    ¬ List.Forall₂ SameAnswer
      (runWrites mockFactStore (sampleWrites ++
        [(0, .insertFact ⟨"acme", "bob"⟩ { sampleFact 1 with userId := "bob" })])
        ⟨.empty, []⟩).answers
      (runWrites (sqliteFactStore sampleRowTexts) (sampleWrites ++
        [(0, .insertFact ⟨"acme", "bob"⟩ { sampleFact 1 with userId := "bob" })])
        ⟨.empty, []⟩).answers := by
  constructor
  · intro agree
    have errors := sameErrors agree
    revert errors
    decide +kernel
  · intro agree
    have errors := sameErrors agree
    revert errors
    decide +kernel

end Sample

end Memcore
