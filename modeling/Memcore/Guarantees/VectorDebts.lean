import Memcore.Domain.Identifiers
import Memcore.Engine.Operations
import Memcore.Stores.SqliteStatements

/-!
# Vectors that programs owe

Programs share the table of facts and the vector store. Each owes the vector of the fact that
it has written until it has stored it, and knows which facts are gone. It deletes the vectors
only of facts that are gone, which never come back, and of the fact that it owes.

Under this protocol every active fact has a vector, or some program owes it, whatever the order
of their calls. The one exception is a fact that is selected as expired and renewed before the
expired ones are deleted: it is not gone, although its selector will take it for gone.
-/
namespace Memcore

open KeyedTables Programs SqliteFactStore

/-! ## What a program has to do with facts and vectors -/

/-- What a program is about to do: store a vector under the identifier that it has drawn,
store the vector of the fact that it has written, delete the facts that it has selected as
expired, and delete the vectors of facts that are gone. -/
structure Standing where
  drawn : Option Uuid
  owed : Option Uuid
  selected : Option (Instant × List Uuid)
  gone : List Uuid

def Standing.idle : Standing := ⟨none, none, none, []⟩

/-- The identifiers that are read from a selection. -/
def readable (texts : RowTexts) (ids : List String) : List Uuid :=
  ids.filterMap fun id => (texts.parseUuid id).toOption

/-- The standing after one more answer. -/
def standingAfter (texts : RowTexts) (standing : Standing) : SqliteEvent → Standing
  | ⟨.sql (.insertRow fact _), .ok _⟩ => { standing with owed := some fact.id }
  | ⟨.sql (.updateRow _ fact _), .ok affected⟩ =>
      if (affected : ℕ) = 0 then standing else { standing with owed := some fact.id }
  | ⟨.sql (.markDeleted _ factId _), .ok affected⟩ =>
      if (affected : ℕ) = 0 then standing
      else { standing with gone := factId :: standing.gone }
  | ⟨.sql (.selectExpired _ cutoff), .ok ids⟩ =>
      { standing with selected := some (cutoff, readable texts ids) }
  | ⟨.sql (.markExpired _ _ _), .ok _⟩ => { standing with
      selected := none
      gone := (standing.selected.elim [] Prod.snd) ++ standing.gone }
  | ⟨.other (.system .newUuid), .ok id⟩ => { standing with drawn := some id }
  | ⟨.other (.vectors (.upsertVector _ _)), .ok _⟩ =>
      { standing with drawn := none, owed := none }
  | _ => standing

/-- The calls that a program may make in its standing. -/
def StandingAllows (tenant : TenantContext) (standing : Standing) : SqlitePort → Prop
  | .sql (.insertRow _ _) => standing.owed = none
  | .sql (.updateRow _ _ _) => standing.owed = none
  | .sql (.deleteRows _) => False
  | .sql (.selectExpired asker _) => asker = tenant
  | .sql (.markExpired asker cutoff _) =>
      asker = tenant ∧ ∃ ids, standing.selected = some (cutoff, ids)
  | .other (.facts _) => False
  | .other (.vectors (.upsertVector asker record)) =>
      asker = tenant ∧ standing.owed = some record.factId ∧ standing.drawn = some record.id
  | .other (.vectors (.deleteByFactId _ factId)) =>
      standing.owed = some factId ∨ factId ∈ standing.gone
  | .other (.vectors (.deleteByUser _)) => False
  | _ => True

def standingProtocol (texts : RowTexts) (tenant : TenantContext) :
    Protocol sqlitePorts MemcoreError Standing where
  allows := StandingAllows tenant
  next standing port answer := standingAfter texts standing ⟨port, answer⟩

/-! ## What a statement does to the rows -/

/-- A change of rows that leaves their identity and does not bring back deleted ones. -/
structure Amends (change : FactRow → FactRow) : Prop where
  id : ∀ row, (change row).id = row.id
  orgId : ∀ row, (change row).orgId = row.orgId
  userId : ∀ row, (change row).userId = row.userId
  deleted : ∀ row, isActive row = false → isActive (change row) = false

theorem Amends.onSelected {change : FactRow → FactRow} (amends : Amends change)
    (selects : FactRow → Bool) : Amends fun row => if selects row then change row else row := by
  constructor
  · intro row
    split_ifs
    · exact amends.id row
    · rfl
  · intro row
    split_ifs
    · exact amends.orgId row
    · rfl
  · intro row
    split_ifs
    · exact amends.userId row
    · rfl
  · intro row deleted
    split_ifs
    · exact amends.deleted row deleted
    · exact deleted

theorem amends_assignFact (bound : FactRow) : Amends (assignFact bound) :=
  ⟨fun _ => rfl, fun _ => rfl, fun _ => rfl, fun _ deleted => deleted⟩

theorem amends_assignDeletedAt (deletedAt : String) : Amends (assignDeletedAt deletedAt) :=
  ⟨fun _ => rfl, fun _ => rfl, fun _ => rfl, fun _ _ => rfl⟩

/-- The rows are changed one by one. -/
def Amended (before after : FactRows) : Prop :=
  ∃ change, Amends change ∧ after.rows = before.rows.map change

theorem Amends.ofTenant {change : FactRow → FactRow} (amends : Amends change)
    (tenant : TenantContext) (row : FactRow) :
    ofTenant tenant (change row) = ofTenant tenant row := by
  rw [SqliteFactStore.ofTenant, amends.orgId, amends.userId]
  rfl

theorem amended_update {selects : FactRow → Bool} {assign : FactRow → FactRow}
    (amends : Amends assign) (rows : FactRows) :
    Amended rows (SqlTables.update selects assign amends.id rows).2 :=
  ⟨_, amends.onSelected selects, rfl⟩

/-! ## What holds of the rows and the vectors -/

section Conditions

variable (texts : RowTexts) (tenant : TenantContext) (rows : FactRows)

/-- Every row has the text of an identifier. -/
def Canonical : Prop := ∀ row ∈ rows.rows, ∃ id, row.id = Uuid.toText id

/-- A fact that is deleted. -/
def Gone (factId : Uuid) : Prop :=
  ∃ row ∈ rows.rows, row.id = Uuid.toText factId ∧ isActive row = false

/-- A fact of the tenant that is deleted or is expired. -/
def Doomed (cutoff : Instant) (factId : Uuid) : Prop :=
  ∃ row ∈ rows.rows, row.id = Uuid.toText factId ∧ ofTenant tenant row = true ∧
    (isActive row = false ∨ row.updatedAt < texts.toRfc3339 cutoff)

/-- The vector store has a record for the row. -/
def HasVector (vectors : MockVectorStore) (row : FactRow) : Prop :=
  ∃ record ∈ vectors.rows, record.tenant = tenant ∧ row.id = Uuid.toText record.factId

/-- Every active fact of the tenant has a record, unless some program owes it. -/
def Covered (vectors : MockVectorStore) (owed : ℕ → Option Uuid) : Prop :=
  ∀ row ∈ rows.rows, ofTenant tenant row = true → isActive row = true →
    HasVector tenant vectors row ∨ ∃ thread id, owed thread = some id ∧ row.id = Uuid.toText id

end Conditions

section Steps

variable {texts : RowTexts} {tenant : TenantContext} {rows later : FactRows} {factId : Uuid}
  {vectors : MockVectorStore} {owed : ℕ → Option Uuid}

theorem Amended.canonical (amended : Amended rows later) (canonical : Canonical rows) :
    Canonical later := by
  obtain ⟨change, amends, same⟩ := amended
  intro row stored
  rw [same] at stored
  obtain ⟨earlier, storedEarlier, rfl⟩ := List.mem_map.mp stored
  rw [amends.id]
  exact canonical earlier storedEarlier

theorem Amended.gone (amended : Amended rows later) (gone : Gone rows factId) :
    Gone later factId := by
  obtain ⟨change, amends, same⟩ := amended
  obtain ⟨row, stored, sameId, deleted⟩ := gone
  refine ⟨change row, ?_, (amends.id row).trans sameId, amends.deleted row deleted⟩
  rw [same]
  exact List.mem_map_of_mem stored

theorem Amended.recorded (amended : Amended rows later)
    (recorded : Covered tenant rows vectors owed) : Covered tenant later vectors owed := by
  obtain ⟨change, amends, same⟩ := amended
  intro row stored own active
  rw [same] at stored
  obtain ⟨earlier, storedEarlier, rfl⟩ := List.mem_map.mp stored
  have activeEarlier : isActive earlier = true := by
    by_contra deleted
    rw [Bool.not_eq_true] at deleted
    rw [amends.deleted earlier deleted] at active
    exact Bool.false_ne_true active
  rw [amends.ofTenant] at own
  rw [HasVector, amends.id]
  exact recorded earlier storedEarlier own activeEarlier

/-- A deleted fact has no active row. -/
theorem Gone.not_active (gone : Gone rows factId) {row : FactRow} (stored : row ∈ rows.rows)
    (sameId : row.id = Uuid.toText factId) : isActive row = false := by
  obtain ⟨other, storedOther, otherId, deleted⟩ := gone
  rw [rows.eq_of_key stored storedOther (sameId.trans otherId.symm)]
  exact deleted

/-- A doomed fact stays doomed when an update that finds it leaves it so. -/
theorem Doomed.update {cutoff : Instant} {selects : FactRow → Bool} {assign : FactRow → FactRow}
    (amends : Amends assign) (doomed : Doomed texts tenant rows cutoff factId)
    (still : ∀ row, selects row = true → row.id = Uuid.toText factId →
      isActive (assign row) = false ∨ (assign row).updatedAt < texts.toRfc3339 cutoff) :
    Doomed texts tenant (SqlTables.update selects assign amends.id rows).2 cutoff factId := by
  obtain ⟨row, stored, sameId, own, ends⟩ := doomed
  have changed := amends.onSelected selects
  refine ⟨_, (SqlTables.mem_update rows selects assign amends.id _).mpr ⟨row, stored, rfl⟩,
    (changed.id row).trans sameId, (changed.ofTenant tenant row).trans own, ?_⟩
  split_ifs with selected
  · exact still row selected sameId
  · exact ends

/-- Deleting what is expired deletes what is doomed. -/
theorem Doomed.markExpired {cutoff : Instant} (deletedAt : Instant)
    (doomed : Doomed texts tenant rows cutoff factId) :
    Gone (executeStatement texts rows (.markExpired tenant cutoff deletedAt)).2 factId := by
  obtain ⟨row, stored, sameId, own, ends⟩ := doomed
  have amends := amends_assignDeletedAt (texts.toRfc3339 deletedAt)
  refine ⟨_, (SqlTables.mem_update rows _ _ amends.id _).mpr ⟨row, stored, rfl⟩,
    ((amends.onSelected _).id row).trans sameId, ?_⟩
  split_ifs with selected
  · rfl
  · cases active : isActive row with
    | false => rfl
    | true =>
      rw [active, Bool.true_eq_false, false_or] at ends
      rw [ofExpired, own, active, decide_eq_true ends] at selected
      exact absurd rfl selected

/-- A deletion that finds its fact deletes it. -/
theorem gone_markDeleted {asker : TenantContext} {deletedAt : Instant}
    (found : ¬ rows.rows.countP (ofActiveFact asker factId) = 0) :
    Gone (executeStatement texts rows (.markDeleted asker factId deletedAt)).2 factId := by
  obtain ⟨row, stored, selected⟩ := List.countP_pos_iff.mp (Nat.pos_of_ne_zero found)
  have sameId := selected
  simp only [ofActiveFact, Bool.and_eq_true, decide_eq_true_eq] at sameId
  refine ⟨_, (SqlTables.mem_update rows _ _ (assignDeletedAt_id _) _).mpr ⟨row, stored, rfl⟩,
    ?_, ?_⟩
  · rw [if_pos selected]
    exact sameId.1
  · rw [if_pos selected]
    rfl

/-- What is selected as expired is doomed. -/
theorem doomed_of_selected (reads : ∀ id, texts.parseUuid (Uuid.toText id) = .ok id)
    (canonical : Canonical rows) {cutoff : Instant}
    (member : factId ∈ readable texts
      ((rows.rows.filter (ofExpired texts tenant cutoff)).map FactRow.id)) :
    Doomed texts tenant rows cutoff factId := by
  obtain ⟨text, listed, read⟩ := List.mem_filterMap.mp member
  obtain ⟨row, selected, rfl⟩ := List.mem_map.mp listed
  obtain ⟨stored, expired⟩ := List.mem_filter.mp selected
  obtain ⟨id, written⟩ := canonical row stored
  rw [written, reads] at read
  obtain rfl := Option.some.inj read
  simp only [ofExpired, Bool.and_eq_true, decide_eq_true_eq] at expired
  exact ⟨row, stored, written, expired.1.1, .inr expired.2⟩

/-! ### Insertion -/

/-- A row under a new key comes to the others. -/
def Joined (before after : FactRows) (row : FactRow) : Prop := after.rows = before.rows ++ [row]

theorem joined_insert {row : FactRow} (inserted : SqlTables.insert row rows = some later) :
    Joined rows later row := by
  rw [SqlTables.insert] at inserted
  split_ifs at inserted with taken
  obtain rfl := Option.some.inj inserted
  rw [Bool.not_eq_true, Table.contains_eq_false] at taken
  exact rows.rows_put_of_fresh taken

variable {row : FactRow}

theorem Joined.kept (joined : Joined rows later row) {earlier : FactRow}
    (stored : earlier ∈ rows.rows) : earlier ∈ later.rows := by
  rw [joined]
  exact List.mem_append_left _ stored

theorem Joined.gone (joined : Joined rows later row) (gone : Gone rows factId) :
    Gone later factId := by
  obtain ⟨earlier, stored, deleted⟩ := gone
  exact ⟨earlier, joined.kept stored, deleted⟩

theorem Joined.doomed {cutoff : Instant} (joined : Joined rows later row)
    (doomed : Doomed texts tenant rows cutoff factId) :
    Doomed texts tenant later cutoff factId := by
  obtain ⟨earlier, stored, ends⟩ := doomed
  exact ⟨earlier, joined.kept stored, ends⟩

theorem Joined.canonical (joined : Joined rows later row) (canonical : Canonical rows)
    (written : row.id = Uuid.toText factId) : Canonical later := by
  intro other stored
  rw [joined, List.mem_append, List.mem_singleton] at stored
  rcases stored with stored | rfl
  · exact canonical other stored
  · exact ⟨factId, written⟩

/-! ### Debts -/

variable {thread : ℕ}

/-- A program without a debt may run one up. -/
theorem Covered.owe (recorded : Covered tenant rows vectors owed) (clear : owed thread = none)
    (factId : Uuid) : Covered tenant rows vectors (Function.update owed thread (some factId)) := by
  intro row stored own active
  rcases recorded row stored own active with present | ⟨other, id, owes, sameId⟩
  · exact .inl present
  · refine .inr ⟨other, id, ?_, sameId⟩
    rw [Function.update_of_ne]
    · exact owes
    · rintro rfl
      rw [clear] at owes
      nomatch owes

/-- The program that inserts a fact owes its vector. -/
theorem Joined.recorded (joined : Joined rows later row)
    (recorded : Covered tenant rows vectors owed) (clear : owed thread = none)
    (written : row.id = Uuid.toText factId) :
    Covered tenant later vectors (Function.update owed thread (some factId)) := by
  intro other stored own active
  rw [joined, List.mem_append, List.mem_singleton] at stored
  rcases stored with stored | rfl
  · exact recorded.owe clear factId other stored own active
  · exact .inr ⟨thread, factId, Function.update_self .., written⟩

/-- A vector that is stored settles the debt. -/
theorem Covered.settle (recorded : Covered tenant rows vectors owed) {record : VectorRecord}
    (owes : owed thread = some record.factId) (own : record.tenant = tenant)
    (fresh : ∀ other ∈ vectors.rows, other.id ≠ record.id) :
    Covered tenant rows (vectors.put record) (Function.update owed thread none) := by
  intro row stored isOwn active
  rcases recorded row stored isOwn active with ⟨other, present, about⟩ |
    ⟨other, id, owesOther, sameId⟩
  · have kept := (vectors.mem_put record other).mpr (.inr ⟨present, fresh other present⟩)
    exact .inl ⟨other, kept, about⟩
  · by_cases same : other = thread
    · subst same
      rw [owes] at owesOther
      obtain rfl := Option.some.inj owesOther
      exact .inl ⟨record, (vectors.mem_put record record).mpr (.inl rfl), own, sameId⟩
    · refine .inr ⟨other, id, ?_, sameId⟩
      rwa [Function.update_of_ne same]

/-- The vectors of a fact may be deleted by the program that owes them, and by any when the
fact is gone. -/
theorem Covered.deleteVectors (recorded : Covered tenant rows vectors owed)
    (asker : TenantContext) (excused : owed thread = some factId ∨ Gone rows factId) :
    Covered tenant rows (vectors.deleteByFactId asker factId).2 owed := by
  intro row stored own active
  rcases recorded row stored own active with ⟨record, present, isOwn, sameId⟩ | owes
  · by_cases about : record.tenant = asker ∧ record.factId = factId
    · obtain ⟨_, rfl⟩ := about
      rcases excused with owes | gone
      · exact .inr ⟨thread, record.factId, owes, sameId⟩
      · rw [gone.not_active stored sameId] at active
        nomatch active
    · exact .inl ⟨record, (vectors.mem_deleteByFactId asker factId record).mpr ⟨present, about⟩,
        isOwn, sameId⟩
  · exact .inr owes

end Steps

/-! ## Identifiers -/

/-- The identifiers that programs have drawn and not used: none is stored, and no two
programs have the same. -/
structure Unspent (vectors : MockVectorStore) (issued : Uuid → Prop) (drawn : ℕ → Option Uuid) :
    Prop where
  fresh : ∀ thread id, drawn thread = some id → ∀ record ∈ vectors.rows, record.id ≠ id
  distinct : ∀ left right id, drawn left = some id → drawn right = some id → left = right
  issued : ∀ thread id, drawn thread = some id → issued id

namespace Unspent

variable {vectors later : MockVectorStore} {issued : Uuid → Prop} {drawn : ℕ → Option Uuid}

theorem draw (unspent : Unspent vectors issued drawn) (thread : ℕ) {id : Uuid}
    (unstored : ∀ record ∈ vectors.rows, record.id ≠ id) (unissued : ¬ issued id) :
    Unspent vectors (fun other => other = id ∨ issued other)
      (Function.update drawn thread (some id)) := by
  have other {position : ℕ} (different : position ≠ thread) {wanted : Uuid}
      (has : Function.update drawn thread (some id) position = some wanted) :
      drawn position = some wanted := by
    rwa [Function.update_of_ne different] at has
  have own {wanted : Uuid} (has : Function.update drawn thread (some id) thread = some wanted) :
      id = wanted := by
    rw [Function.update_self] at has
    exact Option.some.inj has
  have elsewhere {position : ℕ} (different : position ≠ thread)
      (has : Function.update drawn thread (some id) position = some id) : False :=
    unissued (unspent.issued position id (other different has))
  constructor
  · intro position wanted has
    by_cases same : position = thread
    · subst same
      exact own has ▸ unstored
    · exact unspent.fresh position wanted (other same has)
  · intro left right wanted hasLeft hasRight
    by_cases leftSame : left = thread
    · subst leftSame
      by_contra different
      rw [← own hasLeft] at hasRight
      exact elsewhere (Ne.symm different) hasRight
    · by_cases rightSame : right = thread
      · subst rightSame
        rw [← own hasRight] at hasLeft
        exact (elsewhere leftSame hasLeft).elim
      · exact unspent.distinct left right wanted (other leftSame hasLeft) (other rightSame hasRight)
  · intro position wanted has
    by_cases same : position = thread
    · subst same
      exact .inl (own has).symm
    · exact .inr (unspent.issued position wanted (other same has))

theorem spend (unspent : Unspent vectors issued drawn) {thread : ℕ} {record : VectorRecord}
    (has : drawn thread = some record.id) :
    Unspent (vectors.put record) issued (Function.update drawn thread none) := by
  have other {position : ℕ} {wanted : Uuid}
      (hasWanted : Function.update drawn thread none position = some wanted) :
      position ≠ thread ∧ drawn position = some wanted := by
    by_cases same : position = thread
    · subst same
      rw [Function.update_self] at hasWanted
      nomatch hasWanted
    · exact ⟨same, by rwa [Function.update_of_ne same] at hasWanted⟩
  constructor
  · intro position wanted hasWanted stored present
    obtain ⟨different, drew⟩ := other hasWanted
    rcases (vectors.mem_put record stored).mp present with rfl | ⟨earlier, _⟩
    · rintro rfl
      exact different (unspent.distinct position thread _ drew has)
    · exact unspent.fresh position wanted drew stored earlier
  · intro left right wanted hasLeft hasRight
    exact unspent.distinct left right wanted (other hasLeft).2 (other hasRight).2
  · intro position wanted hasWanted
    exact unspent.issued position wanted (other hasWanted).2

theorem shrink (unspent : Unspent vectors issued drawn) (fewer : later.rows ⊆ vectors.rows) :
    Unspent later issued drawn where
  fresh thread id has record stored := unspent.fresh thread id has record (fewer stored)
  distinct := unspent.distinct
  issued := unspent.issued

theorem widen (unspent : Unspent vectors issued drawn) {wider : Uuid → Prop}
    (wide : ∀ id, issued id → wider id) : Unspent vectors wider drawn where
  fresh := unspent.fresh
  distinct := unspent.distinct
  issued thread id has := wide id (unspent.issued thread id has)

end Unspent

/-! ## Runs of programs side by side -/

abbrev SqliteHistory := Programs.History sqlitePorts MemcoreError

/-- The standing of a program after a trace. -/
def standingOf (texts : RowTexts) (trace : SqliteHistory) (thread : ℕ) : Standing :=
  track (standingAfter texts) .idle thread trace

/-- The identifier that is drawn in an event. -/
def drawnIn : SqliteEvent → Option Uuid
  | ⟨.other (.system .newUuid), .ok id⟩ => some (id : Uuid)
  | _ => none

def Issued (trace : SqliteHistory) (id : Uuid) : Prop := ∃ entry ∈ trace, drawnIn entry.2 = some id

/-- Identifiers are drawn that no vector has and that were not drawn before. -/
def identifiersNew : SqliteWorld → SqliteHistory → ℕ → SqlitePort → Choice → Prop :=
  fun world trace _ port choice => match port with
    | .other (.system .newUuid) =>
        (∀ record ∈ world.surroundings.vectors.rows, record.id ≠ choice.uuid) ∧
          ∀ entry ∈ trace, drawnIn entry.2 ≠ some choice.uuid
    | _ => True

/-- An update does not renew a fact that is selected as expired and not yet deleted. -/
def SparesSelected (texts : RowTexts) (trace : SqliteHistory) : SqlitePort → Prop
  | .sql (.updateRow _ fact _) => ∀ entry ∈ trace,
      ∀ chosen ∈ (standingOf texts trace entry.1).selected, fact.id ∈ chosen.2 →
        texts.toRfc3339 fact.updatedAt < texts.toRfc3339 chosen.1
  | _ => True

def sparingSelected (texts : RowTexts) :
    SqliteWorld → SqliteHistory → ℕ → SqlitePort → Choice → Prop :=
  fun world trace thread port choice =>
    identifiersNew world trace thread port choice ∧ SparesSelected texts trace port

/-- What holds in every pool that is reached. -/
structure Unharmed (texts : RowTexts) (tenant : TenantContext) (world : SqliteWorld)
    (trace : SqliteHistory) (stages : ℕ → Standing) : Prop where
  tracked : ∀ thread, stages thread = standingOf texts trace thread
  canonical : Canonical world.rows
  recorded : Covered tenant world.rows world.surroundings.vectors fun thread => (stages thread).owed
  gone : ∀ thread, ∀ id ∈ (stages thread).gone, Gone world.rows id
  doomed : ∀ thread, ∀ chosen ∈ (stages thread).selected, ∀ id ∈ chosen.2,
    Doomed texts tenant world.rows chosen.1 id
  unspent : Unspent world.surroundings.vectors (Issued trace) fun thread => (stages thread).drawn

namespace Unharmed

variable {texts : RowTexts} {tenant : TenantContext} {world later : SqliteWorld}
  {trace : SqliteHistory} {stages : ℕ → Standing} {thread : ℕ} {event : SqliteEvent}

/-- A step of one program, with what it leaves of the conditions. -/
theorem step (safe : Unharmed texts tenant world trace stages)
    (canonical : Canonical later.rows)
    (recorded : Covered tenant later.rows later.surroundings.vectors
      (Function.update (fun thread => (stages thread).owed) thread
        (standingAfter texts (stages thread) event).owed))
    (gone : ∀ id, Gone world.rows id → Gone later.rows id)
    (ownGone : ∀ id ∈ (standingAfter texts (stages thread) event).gone, Gone later.rows id)
    (doomed : ∀ other, ∀ chosen ∈ (stages other).selected, ∀ id ∈ chosen.2,
      Doomed texts tenant later.rows chosen.1 id)
    (ownDoomed : ∀ chosen ∈ (standingAfter texts (stages thread) event).selected, ∀ id ∈ chosen.2,
      Doomed texts tenant later.rows chosen.1 id)
    (unspent : Unspent later.surroundings.vectors (Issued ((thread, event) :: trace))
      (Function.update (fun thread => (stages thread).drawn) thread
        (standingAfter texts (stages thread) event).drawn)) :
    Unharmed texts tenant later ((thread, event) :: trace)
      (Function.update stages thread (standingAfter texts (stages thread) event)) := by
  constructor
  · intro other
    by_cases same : other = thread
    · subst same
      rw [Function.update_self, standingOf, track_own, ← standingOf, ← safe.tracked]
    · rw [Function.update_of_ne same, standingOf, track_other _ _ _ _ (Ne.symm same), ← standingOf,
        safe.tracked]
  · exact canonical
  · have owed := Function.comp_update Standing.owed stages thread
      (standingAfter texts (stages thread) event)
    exact (iff_of_eq (congrArg (Covered tenant later.rows later.surroundings.vectors) owed)).mpr
      recorded
  · intro other
    by_cases same : other = thread
    · subst same
      rw [Function.update_self]
      exact ownGone
    · rw [Function.update_of_ne same]
      exact fun id member => gone id (safe.gone other id member)
  · intro other
    by_cases same : other = thread
    · subst same
      rw [Function.update_self]
      exact ownDoomed
    · rw [Function.update_of_ne same]
      exact doomed other
  · have drawn := Function.comp_update Standing.drawn stages thread
      (standingAfter texts (stages thread) event)
    exact (iff_of_eq (congrArg (Unspent later.surroundings.vectors
      (Issued ((thread, event) :: trace))) drawn)).mpr unspent

theorem issued_cons (id : Uuid) (issued : Issued trace id) :
    Issued ((thread, event) :: trace) id := by
  obtain ⟨entry, listed, drew⟩ := issued
  exact ⟨entry, List.mem_cons_of_mem _ listed, drew⟩

/-- The identifiers are as they were. -/
theorem stillUnspent (safe : Unharmed texts tenant world trace stages)
    (drawn : (standingAfter texts (stages thread) event).drawn = (stages thread).drawn) :
    Unspent world.surroundings.vectors (Issued ((thread, event) :: trace))
      (Function.update (fun thread => (stages thread).drawn) thread
        (standingAfter texts (stages thread) event).drawn) := by
  rw [drawn, Function.update_eq_self]
  exact safe.unspent.widen issued_cons

/-- The vectors of the tenant's facts are as they were. -/
theorem stillRecorded (safe : Unharmed texts tenant world trace stages)
    (owed : (standingAfter texts (stages thread) event).owed = (stages thread).owed) :
    Covered tenant world.rows world.surroundings.vectors
      (Function.update (fun thread => (stages thread).owed) thread
        (standingAfter texts (stages thread) event).owed) := by
  rw [owed, Function.update_eq_self]
  exact safe.recorded

/-- An answer that changes neither the rows nor the vectors, and nothing for the program. -/
theorem pass (safe : Unharmed texts tenant world trace stages) (rows : later.rows = world.rows)
    (vectors : later.surroundings.vectors = world.surroundings.vectors)
    (still : standingAfter texts (stages thread) event = stages thread) :
    Unharmed texts tenant later ((thread, event) :: trace)
      (Function.update stages thread (standingAfter texts (stages thread) event)) := by
  apply safe.step
  · rw [rows]
    exact safe.canonical
  · rw [rows, vectors]
    exact safe.stillRecorded (congrArg Standing.owed still)
  · rw [rows]
    exact fun _ => id
  · rw [rows, still]
    exact safe.gone thread
  · rw [rows]
    exact safe.doomed
  · rw [rows, still]
    exact safe.doomed thread
  · rw [vectors]
    exact safe.stillUnspent (congrArg Standing.drawn still)

/-! ### Statements -/

/-- An update spares what any program has selected. -/
theorem spared (safe : Unharmed texts tenant world trace stages) {asker : TenantContext}
    {fact : Fact} {metadata : String}
    (spares : SparesSelected texts trace (.sql (.updateRow asker fact metadata))) (other : ℕ)
    {chosen : Instant × List Uuid} (member : chosen ∈ (stages other).selected)
    (listed : fact.id ∈ chosen.2) :
    texts.toRfc3339 fact.updatedAt < texts.toRfc3339 chosen.1 := by
  rw [safe.tracked] at member
  by_cases present : ∃ entry ∈ trace, entry.1 = other
  · obtain ⟨entry, inTrace, rfl⟩ := present
    exact spares entry inTrace chosen member listed
  · have idle : standingOf texts trace other = .idle :=
      track_absent _ _ fun entry inTrace same => present ⟨entry, inTrace, same⟩
    rw [idle] at member
    nomatch member

/-- The rows are amended, the vectors stay. -/
theorem amend (safe : Unharmed texts tenant world trace stages) {rows : FactRows}
    (amended : Amended world.rows rows)
    (recorded : Covered tenant rows world.surroundings.vectors
      (Function.update (fun thread => (stages thread).owed) thread
        (standingAfter texts (stages thread) event).owed))
    (ownGone : ∀ id ∈ (standingAfter texts (stages thread) event).gone, Gone rows id)
    (doomed : ∀ other, ∀ chosen ∈ (stages other).selected, ∀ id ∈ chosen.2,
      Doomed texts tenant rows chosen.1 id)
    (selected : ∀ chosen ∈ (standingAfter texts (stages thread) event).selected,
      chosen ∈ (stages thread).selected)
    (drawn : (standingAfter texts (stages thread) event).drawn = (stages thread).drawn) :
    Unharmed texts tenant { world with rows := rows } ((thread, event) :: trace)
      (Function.update stages thread (standingAfter texts (stages thread) event)) := by
  apply safe.step
  · exact amended.canonical safe.canonical
  · exact recorded
  · exact fun id => amended.gone
  · exact ownGone
  · exact doomed
  · exact fun chosen member => doomed thread chosen (selected chosen member)
  · exact safe.stillUnspent drawn

theorem executed (safe : Unharmed texts tenant world trace stages) (statement : FactStatement)
    (allowed : StandingAllows tenant (stages thread) (.sql statement))
    (spares : SparesSelected texts trace (.sql statement))
    (reads : ∀ id, texts.parseUuid (Uuid.toText id) = .ok id) :
    let served := executeStatement texts world.rows statement
    Unharmed texts tenant { world with rows := served.2 }
      ((thread, ⟨.sql statement, served.1⟩) :: trace)
      (Function.update stages thread
        (standingAfter texts (stages thread) ⟨.sql statement, served.1⟩)) := by
  cases statement with
  | countFact asker factId => exact safe.pass rfl rfl rfl
  | selectFact asker factId => exact safe.pass rfl rfl rfl
  | selectFacts query => exact safe.pass rfl rfl rfl
  | insertRow fact metadata =>
    cases inserted : SqlTables.insert (bindFact texts fact metadata none) world.rows with
    | none =>
      simp only [executeStatement, inserted]
      exact safe.pass rfl rfl rfl
    | some rows =>
      simp only [executeStatement, inserted]
      have joined := joined_insert inserted
      apply safe.step
      · exact joined.canonical safe.canonical rfl
      · exact joined.recorded safe.recorded allowed rfl
      · exact fun id => joined.gone
      · exact fun id member => joined.gone (safe.gone thread id member)
      · exact fun other chosen member id listed =>
          joined.doomed (safe.doomed other chosen member id listed)
      · exact fun chosen member id listed =>
          joined.doomed (safe.doomed thread chosen member id listed)
      · exact safe.stillUnspent rfl
  | updateRow asker fact metadata =>
    have amends := amends_assignFact (bindFact texts fact metadata none)
    have amended := @amended_update (ofActiveFact asker fact.id) _ amends world.rows
    have doomed (other : ℕ) (chosen : Instant × List Uuid)
        (member : chosen ∈ (stages other).selected) (id : Uuid) (listed : id ∈ chosen.2) :
        Doomed texts tenant (SqlTables.update (ofActiveFact asker fact.id) _ amends.id
          world.rows).2 chosen.1 id := by
      apply (safe.doomed other chosen member id listed).update amends
      intro row selected sameId
      simp only [ofActiveFact, Bool.and_eq_true, decide_eq_true_eq] at selected
      obtain rfl := (Uuid.toText_inj _ _).mp (selected.1.symm.trans sameId)
      exact .inr (safe.spared spares other member listed)
    by_cases untouched : world.rows.rows.countP (ofActiveFact asker fact.id) = 0
    · have still : standingAfter texts (stages thread) ⟨.sql (.updateRow asker fact metadata),
          (executeStatement texts world.rows (.updateRow asker fact metadata)).1⟩ = stages thread :=
        if_pos untouched
      apply safe.amend amended
      · exact amended.recorded (safe.stillRecorded (congrArg Standing.owed still))
      · rw [still]
        exact fun id member => amended.gone (safe.gone thread id member)
      · exact doomed
      · rw [still]
        exact fun _ => id
      · rw [still]
    · have owes : standingAfter texts (stages thread) ⟨.sql (.updateRow asker fact metadata),
          (executeStatement texts world.rows (.updateRow asker fact metadata)).1⟩ =
            { stages thread with owed := some fact.id } := if_neg untouched
      apply safe.amend amended
      · rw [owes]
        exact amended.recorded (safe.recorded.owe allowed fact.id)
      · rw [owes]
        exact fun id member => amended.gone (safe.gone thread id member)
      · exact doomed
      · rw [owes]
        exact fun _ => id
      · rw [owes]
  | markDeleted asker factId deletedAt =>
    have amends := amends_assignDeletedAt (texts.toRfc3339 deletedAt)
    have amended := @amended_update (ofActiveFact asker factId) _ amends world.rows
    have doomed (other : ℕ) (chosen : Instant × List Uuid)
        (member : chosen ∈ (stages other).selected) (id : Uuid) (listed : id ∈ chosen.2) :
        Doomed texts tenant (SqlTables.update (ofActiveFact asker factId) _ amends.id
          world.rows).2 chosen.1 id :=
      (safe.doomed other chosen member id listed).update amends fun _ _ _ => .inl rfl
    by_cases untouched : world.rows.rows.countP (ofActiveFact asker factId) = 0
    · have still : standingAfter texts (stages thread) ⟨.sql (.markDeleted asker factId deletedAt),
          (executeStatement texts world.rows (.markDeleted asker factId deletedAt)).1⟩ =
            stages thread := if_pos untouched
      apply safe.amend amended
      · exact amended.recorded (safe.stillRecorded (congrArg Standing.owed still))
      · rw [still]
        exact fun id member => amended.gone (safe.gone thread id member)
      · exact doomed
      · rw [still]
        exact fun _ => id
      · rw [still]
    · have marks : standingAfter texts (stages thread) ⟨.sql (.markDeleted asker factId deletedAt),
          (executeStatement texts world.rows (.markDeleted asker factId deletedAt)).1⟩ =
            { stages thread with gone := factId :: (stages thread).gone } := if_neg untouched
      apply safe.amend amended
      · exact amended.recorded (safe.stillRecorded (by rw [marks]))
      · rw [marks]
        intro id member
        rcases List.mem_cons.mp member with rfl | earlier
        · exact gone_markDeleted untouched
        · exact amended.gone (safe.gone thread id earlier)
      · exact doomed
      · rw [marks]
        exact fun _ => id
      · rw [marks]
  | deleteRows asker => exact allowed.elim
  | selectExpired asker cutoff =>
    obtain rfl := allowed
    apply safe.step
    · exact safe.canonical
    · exact safe.stillRecorded rfl
    · exact fun _ => id
    · exact safe.gone thread
    · exact safe.doomed
    · rintro chosen ⟨⟩ id listed
      exact doomed_of_selected reads safe.canonical listed
    · exact safe.stillUnspent rfl
  | markExpired asker cutoff deletedAt =>
    obtain ⟨rfl, ids, selected⟩ := allowed
    have amends := amends_assignDeletedAt (texts.toRfc3339 deletedAt)
    have amended := @amended_update (ofExpired texts asker cutoff) _ amends world.rows
    apply safe.amend amended
    · exact amended.recorded (safe.stillRecorded rfl)
    · intro id member
      rcases List.mem_append.mp member with listed | earlier
      · rw [selected] at listed
        exact (safe.doomed thread (cutoff, ids) selected id listed).markExpired deletedAt
      · exact amended.gone (safe.gone thread id earlier)
    · exact fun other chosen member id listed =>
        (safe.doomed other chosen member id listed).update amends fun _ _ _ => .inl rfl
    · rintro chosen ⟨⟩
    · rfl

/-! ### Other calls -/

theorem otherServed (safe : Unharmed texts tenant world trace stages) (platform : Platform)
    (choice : Choice) (port : Port)
    (allowed : StandingAllows tenant (stages thread) (.other port))
    (isNew : identifiersNew world trace thread (.other port) choice) :
    let served := World.serve platform choice port world.surroundings
    Unharmed texts tenant { world with surroundings := served.2 }
      ((thread, ⟨.other port, served.1⟩) :: trace)
      (Function.update stages thread
        (standingAfter texts (stages thread) ⟨.other port, served.1⟩)) := by
  cases port with
  | facts call => exact allowed.elim
  | events call =>
    cases fault : choice.fault <;> simp only [World.serve, World.unlessFault, fault] <;>
      exact safe.pass rfl rfl rfl
  | provider call =>
    cases fault : choice.fault <;> simp only [World.serve, World.unlessFault, fault] <;>
      exact safe.pass rfl rfl rfl
  | cache call =>
    cases fault : choice.fault <;> simp only [World.serve, World.unlessFault, fault] <;>
      exact safe.pass rfl rfl rfl
  | coordinator call =>
    have stores := @ReaderCall.serve_stores platform tenant (.coordinator call) trivial choice
      world.surroundings
    exact safe.pass rfl stores.2 rfl
  | system call =>
    cases call with
    | now => exact safe.pass rfl rfl rfl
    | setUsageAttribution orgId userId => exact safe.pass rfl rfl rfl
    | newUuid =>
      obtain ⟨unstored, unissued⟩ := isNew
      apply safe.step
      · exact safe.canonical
      · exact safe.stillRecorded rfl
      · exact fun _ => id
      · exact safe.gone thread
      · exact safe.doomed
      · exact safe.doomed thread
      · have fresh : ¬ Issued trace choice.uuid := by
          rintro ⟨entry, listed, drew⟩
          exact unissued entry listed drew
        refine (safe.unspent.draw thread unstored fresh).widen ?_
        rintro id (rfl | earlier)
        · exact ⟨_, List.mem_cons_self, rfl⟩
        · exact issued_cons id earlier
  | vectors call =>
    cases fault : choice.fault with
    | some error =>
      simp only [World.serve, World.unlessFault, fault]
      exact safe.pass rfl rfl (by cases call <;> rfl)
    | none =>
      simp only [World.serve, World.unlessFault, fault]
      cases call with
      | searchVectors query => exact safe.pass rfl rfl rfl
      | deleteByUser asker => exact allowed.elim
      | upsertVector asker record =>
        obtain ⟨rfl, owes, drew⟩ := allowed
        by_cases own : record.tenant = asker
        · simp only [MockVectorStore.serve, MockVectorStore.upsertVector_eq _ _ _ own]
          apply safe.step
          · exact safe.canonical
          · exact safe.recorded.settle owes own (safe.unspent.fresh thread _ drew)
          · exact fun _ => id
          · exact safe.gone thread
          · exact safe.doomed
          · exact safe.doomed thread
          · exact (safe.unspent.spend drew).widen issued_cons
        · simp only [MockVectorStore.serve, MockVectorStore.upsertVector, ne_eq, own,
            not_false_eq_true, if_true]
          exact safe.pass rfl rfl rfl
      | deleteByFactId asker factId =>
        apply safe.step
        · exact safe.canonical
        · have excused : (stages thread).owed = some factId ∨ Gone world.rows factId :=
            allowed.imp id (safe.gone thread factId)
          show Covered tenant world.rows (world.surroundings.vectors.deleteByFactId asker factId).2
            (Function.update (fun thread => (stages thread).owed) thread (stages thread).owed)
          rw [Function.update_eq_self]
          exact safe.recorded.deleteVectors asker excused
        · exact fun _ => id
        · exact safe.gone thread
        · exact safe.doomed
        · exact safe.doomed thread
        · refine Unspent.shrink (safe.stillUnspent rfl) fun record stored => ?_
          exact ((world.surroundings.vectors.mem_deleteByFactId asker factId record).mp stored).1

/-- No step that spares what is selected does any harm. -/
theorem served (safe : Unharmed texts tenant world trace stages) (platform : Platform)
    (reads : ∀ id, texts.parseUuid (Uuid.toText id) = .ok id) (choice : Choice)
    (port : SqlitePort) (allowed : StandingAllows tenant (stages thread) port)
    (permitted : sparingSelected texts world trace thread port choice) :
    let served := world.serve platform texts choice port
    Unharmed texts tenant served.2 ((thread, ⟨port, served.1⟩) :: trace)
      (Function.update stages thread
        (standingAfter texts (stages thread) ⟨port, served.1⟩)) := by
  cases port with
  | other port => exact safe.otherServed platform choice port allowed permitted.1
  | sql statement =>
    cases fault : choice.fault with
    | some error =>
      simp only [SqliteWorld.serve, fault]
      exact safe.pass rfl rfl (by cases statement <;> rfl)
    | none =>
      simp only [SqliteWorld.serve, fault]
      exact safe.executed statement allowed permitted.2 reads

end Unharmed

end Memcore
