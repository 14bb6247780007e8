import Memcore.Foundations.Refinement
import Memcore.Guarantees.SearchParity
import Memcore.Stores.SqliteEventStore

/-!
# Both event stores hold and find the same events

The rows of SQLite are what the events in memory are written as, in the order of recording.
Writes are answered alike, and every filter selects the rows of the events that match, with
one exception. An absent column counts as an empty text in SQLite, and an empty keyword
occurs in an empty text; in memory nothing occurs in an absent text. So the answers to an
empty keyword differ if an event without any searchable text belongs to the page.
-/
namespace Memcore

open KeyedTables Pages

/-- The event reads back from the texts that are stored for it. -/
structure RowTexts.CarriesEvent (texts : RowTexts) (event : MemoryEvent) : Prop where
  id : texts.parseUuid (Uuid.toText event.id) = .ok event.id
  factId : ∀ factId ∈ event.factId, texts.parseUuid (Uuid.toText factId) = .ok factId
  metadata : ∃ text, texts.jsonToString event.metadata = .ok text ∧
    texts.jsonFromStr text = .ok event.metadata
  createdAt : texts.Represents event.createdAt

/-- What an event is written as. -/
def eventRow (texts : RowTexts) (event : MemoryEvent) : EventRow :=
  SqliteEventStore.bindEvent texts event ((texts.jsonToString event.metadata).toOption.getD "")

/-- Both stores hold the same events. -/
structure SameEvents (texts : RowTexts) (events : MockMemoryEventStore) (rows : EventRows) :
    Prop where
  image : rows.rows = events.map (eventRow texts)
  carried : ∀ event ∈ events, texts.CarriesEvent event

/-! ## Rows and their events -/

section Rows

variable {texts : RowTexts} {event : MemoryEvent}

theorem eventRow_reads (carries : texts.CarriesEvent event) :
    SqliteEventStore.rowToMemoryEvent texts (eventRow texts event) = .ok event := by
  obtain ⟨text, printed, parsed⟩ := carries.metadata
  have row : eventRow texts event = SqliteEventStore.bindEvent texts event text := by
    rw [eventRow, printed]
    rfl
  have readId : SqliteFactStore.parseUuid texts
      (fun value => "invalid memory event id '" ++ value ++ "'") (Uuid.toText event.id) =
        .ok event.id := by
    rw [SqliteFactStore.parseUuid, carries.id]
  have readFactId : SqliteEventStore.optionalUuidFromStr texts (event.factId.map Uuid.toText) =
      .ok event.factId := by
    cases present : event.factId with
    | none => rfl
    | some factId =>
      rw [Option.map_some, SqliteEventStore.optionalUuidFromStr, SqliteFactStore.parseUuid,
        carries.factId factId present]
      rfl
  have readMetadata : SqliteFactStore.metadataFromStr texts text = .ok event.metadata := by
    rw [SqliteFactStore.metadataFromStr, parsed]
  rw [row]
  simp only [SqliteEventStore.rowToMemoryEvent, SqliteEventStore.bindEvent, readId, readFactId,
    readMetadata, memoryEventOperationFromStr_toStr, datetimeFromStr_ok carries.createdAt, bind,
    Except.bind, pure, Except.pure]

theorem eventRow_ofTenant (tenant : TenantContext) :
    SqliteEventStore.ofTenant tenant (eventRow texts event) = decide (event.tenant = tenant) := by
  show (decide (event.orgId = tenant.orgId) && decide (event.userId = tenant.userId)) = _
  rw [MemoryEvent.tenant, ← Bool.decide_and]
  cases tenant
  simp

def MemoryEvent.position (event : MemoryEvent) : Instant ×ₗ Uuid :=
  toLex (event.createdAt, event.id)

theorem eventComesFirst_iff (left right : MemoryEvent) :
    MockMemoryEventStore.comesFirst left right ↔ right.position ≤ left.position := by
  rw [MemoryEvent.position, MemoryEvent.position, Prod.Lex.toLex_le_toLex]
  exact Iff.rfl

end Rows

/-! ## The filters -/

section Instants

variable {texts : RowTexts} {instant : Instant}

/-- A lower bound on texts is one on instants. -/
theorem notBefore_texts (chronological : texts.Chronological) (reads : texts.Represents instant)
    {bound : Option Instant} (boundReads : ∀ first ∈ bound, texts.Represents first) :
    bound.all (fun first => !decide (texts.toRfc3339 instant < texts.toRfc3339 first)) =
      bound.all fun first => decide (first ≤ instant) := by
  cases present : bound with
  | none => rfl
  | some first =>
    have order := chronological _ _ reads (boundReads first present)
    rw [Option.all_some, Option.all_some, ← decide_not, decide_eq_decide, order, not_lt]

/-- An upper bound on texts is one on instants. -/
theorem before_texts (chronological : texts.Chronological) (reads : texts.Represents instant)
    {bound : Option Instant} (boundReads : ∀ limit ∈ bound, texts.Represents limit) :
    bound.all (fun limit => decide (texts.toRfc3339 instant < texts.toRfc3339 limit)) =
      bound.all fun limit => decide (instant < limit) := by
  cases present : bound with
  | none => rfl
  | some limit =>
    have order := chronological _ _ reads (boundReads limit present)
    rw [Option.all_some, Option.all_some, decide_eq_decide, order]

/-- A position behind a cursor is one behind it in the texts. -/
theorem selectsBehind_texts (chronological : texts.Chronological)
    (reads : texts.Represents instant) (id : Uuid) {cursor : Option PageCursor}
    (cursorReads : ∀ position ∈ cursor, texts.Represents position.lastSortValue) :
    SqliteFactStore.selectsBehind texts cursor (texts.toRfc3339 instant) (Uuid.toText id) =
      cursor.all (isAfterCursorInDescOrder instant (Uuid.toText id)) := by
  cases present : cursor with
  | none => rfl
  | some position =>
    have positionReads := cursorReads position present
    have order := chronological _ _ reads positionReads
    have before : decide (texts.toRfc3339 instant < texts.toRfc3339 position.lastSortValue) =
        decide (instant < position.lastSortValue) := decide_eq_decide.mpr order
    have tied : (texts.toRfc3339 instant == texts.toRfc3339 position.lastSortValue) =
        (instant == position.lastSortValue) := by
      rw [Bool.eq_iff_iff, beq_iff_eq, beq_iff_eq, reads.injective positionReads]
    rw [Option.all_some, isAfterCursorInDescOrder, ← before, ← tied]
    rfl

/-- Positions in a descending order are compared as their texts. -/
theorem position_texts (chronological : texts.Chronological) {left right : Instant}
    (leftReads : texts.Represents left) (rightReads : texts.Represents right)
    (leftId rightId : Uuid) :
    (right < left ∨ right = left ∧ rightId ≤ leftId) ↔
      (texts.toRfc3339 right < texts.toRfc3339 left ∨
        texts.toRfc3339 right = texts.toRfc3339 left ∧
          Uuid.toText rightId ≤ Uuid.toText leftId) := by
  rw [chronological _ _ rightReads leftReads, rightReads.injective leftReads, ← not_lt,
    ← not_lt (a := Uuid.toText _), Uuid.toText_lt_iff]

end Instants

section Filters

variable {texts : RowTexts} {event : MemoryEvent}

/-- The filters for a fact, an operation and a time, in memory. -/
def matchesFilters (factId : Option Uuid) (operation : Option MemoryEventOperation)
    (createdAfter createdBefore : Option Instant) (event : MemoryEvent) : Bool :=
  factId.all (fun factId => decide (event.factId = some factId)) &&
  operation.all (fun operation => decide (event.operation = operation)) &&
  createdAfter.all (fun createdAfter => decide (createdAfter ≤ event.createdAt)) &&
  createdBefore.all (fun createdBefore => decide (event.createdAt < createdBefore))

theorem eventRow_filters (chronological : texts.Chronological)
    (carries : texts.CarriesEvent event) (factId : Option Uuid)
    (operation : Option MemoryEventOperation) {createdAfter createdBefore : Option Instant}
    (afterReads : ∀ instant ∈ createdAfter, texts.Represents instant)
    (beforeReads : ∀ instant ∈ createdBefore, texts.Represents instant) :
    SqliteEventStore.selectsFilters texts factId operation createdAfter createdBefore
        (eventRow texts event) =
      matchesFilters factId operation createdAfter createdBefore event := by
  have sameFact : ∀ wanted, (event.factId.map Uuid.toText = some (Uuid.toText wanted)) ↔
      event.factId = some wanted := by
    intro wanted
    cases event.factId with
    | none => simp
    | some own => simp [Uuid.toText_inj]
  have sameOperation : ∀ wanted, (memoryEventOperationToStr event.operation =
      memoryEventOperationToStr wanted) ↔ event.operation = wanted :=
    fun wanted => ⟨memoryEventOperationToStr_injective, congrArg _⟩
  have about : factId.all (fun wanted => decide (event.factId.map Uuid.toText =
      some (Uuid.toText wanted))) = factId.all fun wanted => decide (event.factId = some wanted) := by
    simp only [sameFact]
  have kind : operation.all (fun wanted => decide (memoryEventOperationToStr event.operation =
      memoryEventOperationToStr wanted)) =
        operation.all fun wanted => decide (event.operation = wanted) := by
    simp only [sameOperation]
  rw [matchesFilters, ← about, ← kind, ← notBefore_texts chronological carries.createdAt afterReads,
    ← before_texts chronological carries.createdAt beforeReads]
  rfl

/-- An empty keyword occurs in every text. -/
theorem contains_empty_keyword (value : String) :
    Texts.contains value (Texts.toAsciiLowercase "") = true :=
  contains_of_contains_empty (by decide) value

theorem toAsciiLowercase_eq_empty {text : String} (nothing : Texts.toAsciiLowercase text = "") :
    text = "" := by
  have letters := congrArg String.toList nothing
  rw [Texts.toList_toAsciiLowercase] at letters
  exact String.toList_inj.mp (List.map_eq_nil_iff.mp letters)

/-- Only an empty keyword occurs in an empty text. -/
theorem contains_in_empty {text : String} (some : text ≠ "") :
    Texts.contains (Texts.toAsciiLowercase "") (Texts.toAsciiLowercase text) = false := by
  rw [← Bool.not_eq_true]
  intro occurs
  have nothing : (Texts.toAsciiLowercase text).toList = [] := by
    have inNothing : Texts.occursIn (Texts.toAsciiLowercase text).toList [] = true := occurs
    simpa [Texts.occursIn] using inNothing
  exact some (toAsciiLowercase_eq_empty (String.toList_inj.mp nothing))

theorem columnLike_plain {text : String} (plain : PlainText text) (present : text ≠ "")
    (column : Option String) :
    SqliteEventStore.columnLike column (SqliteFactStore.sqliteLikePattern text) =
      column.any (containsCaseInsensitive · text) := by
  rw [SqliteEventStore.columnLike, like_eq_contains plain]
  cases column with
  | none => exact contains_in_empty present
  | some value => rfl

theorem columnLike_empty (column : Option String) :
    SqliteEventStore.columnLike column (SqliteFactStore.sqliteLikePattern "") = true := by
  rw [SqliteEventStore.columnLike, like_eq_contains (by unfold PlainText; decide)]
  exact contains_empty_keyword _

/-- SQLite reads a keyword as it is read in memory, but finds every event for an empty one. -/
theorem eventRow_keyword {queryText : Option String}
    (plain : ∀ text ∈ queryText, PlainText text) (includeUserId : Bool) :
    SqliteEventStore.selectsKeyword queryText includeUserId (eventRow texts event) =
      (decide (queryText = some "") ||
        queryText.all (fun text => eventMatchesKeyword event text includeUserId)) := by
  cases queryText with
  | none => rfl
  | some text =>
    simp only [SqliteEventStore.selectsKeyword, Option.all_some, eventRow,
      SqliteEventStore.bindEvent]
    by_cases empty : text = ""
    · subst empty
      rw [columnLike_empty]
      rfl
    · have named : decide (some text = some "") = false := by simpa using empty
      simp only [columnLike_plain (plain text rfl) empty, like_eq_contains (plain text rfl), named,
        Bool.false_or]
      rfl

end Filters

/-! ## The two readings of a query -/

/-- The query as SQLite reads it: an empty keyword is no keyword. -/
def readBySqlite (query : MemoryEventQuery) : MemoryEventQuery :=
  if query.queryText = some "" then { query with queryText := none } else query

/-- The instants of a query are representable, and its limit and keyword are as promised. -/
structure PlainQuery (texts : RowTexts) (createdAfter createdBefore : Option Instant)
    (cursor : Option PageCursor) (queryText : Option String) (limit : ℕ) : Prop where
  createdAfter : ∀ instant ∈ createdAfter, texts.Represents instant
  createdBefore : ∀ instant ∈ createdBefore, texts.Represents instant
  cursor : ∀ position ∈ cursor, texts.Represents position.lastSortValue
  queryText : ∀ text ∈ queryText, PlainText text
  positive : 0 < limit
  limit : limit ≤ maxMemoryEventListLimit

/-- An event without any text that a keyword is looked for in. -/
def Wordless (event : MemoryEvent) : Prop :=
  event.previousContent = none ∧ event.newContent = none ∧ event.providerName = none ∧
    event.modelName = none

instance : DecidablePred Wordless := fun _ => inferInstanceAs (Decidable (_ ∧ _ ∧ _ ∧ _))

/-- The keyword is not empty, or each event without texts that matches the other filters is
preceded by a whole page of events that match them. -/
def KeywordReadAlike (events : MockMemoryEventStore) (query : MemoryEventQuery) : Prop :=
  query.queryText = some "" → ∀ event ∈ events, Wordless event →
    MockMemoryEventStore.matchesQuery { query with queryText := none } event = true →
      pageFetchLimit query.limit ≤ events.countP fun other =>
        MockMemoryEventStore.matchesQuery { query with queryText := none } other &&
          (decide (event.createdAt < other.createdAt) ||
            decide (event.createdAt = other.createdAt) && decide (event.id < other.id))

section Selections

variable {texts : RowTexts} {event : MemoryEvent}

theorem matchesQuery_eq (query : MemoryEventQuery) (event : MemoryEvent) :
    MockMemoryEventStore.matchesQuery query event =
      (decide (event.tenant = query.tenant) &&
        matchesFilters query.factId query.operation query.createdAfter query.createdBefore event &&
        query.queryText.all (fun text => eventMatchesKeyword event text false) &&
        query.cursor.all (isAfterCursorInDescOrder event.createdAt (Uuid.toText event.id))) := by
  simp only [MockMemoryEventStore.matchesQuery, matchesFilters, Bool.and_assoc]

theorem matchesOrgQuery_eq (query : OrgMemoryEventQuery) (event : MemoryEvent) :
    MockMemoryEventStore.matchesOrgQuery query event =
      (decide (event.orgId = query.orgId) &&
        query.userId.all (fun userId => decide (event.userId = userId)) &&
        matchesFilters query.factId query.operation query.createdAfter query.createdBefore event &&
        query.queryText.all (fun text => eventMatchesKeyword event text true) &&
        query.cursor.all (isAfterCursorInDescOrder event.createdAt (Uuid.toText event.id))) := by
  simp only [MockMemoryEventStore.matchesOrgQuery, matchesFilters, Bool.and_assoc]

theorem eventRow_selects (chronological : texts.Chronological) {query : MemoryEventQuery}
    (plain : PlainQuery texts query.createdAfter query.createdBefore query.cursor query.queryText
      query.limit) (carries : texts.CarriesEvent event) :
    SqliteEventStore.selects texts query (eventRow texts event) =
      MockMemoryEventStore.matchesQuery (readBySqlite query) event := by
  have behind : SqliteFactStore.selectsBehind texts query.cursor (eventRow texts event).createdAt
      (eventRow texts event).id =
        query.cursor.all (isAfterCursorInDescOrder event.createdAt (Uuid.toText event.id)) :=
    selectsBehind_texts chronological carries.createdAt event.id plain.cursor
  rw [SqliteEventStore.selects, eventRow_ofTenant,
    eventRow_filters chronological carries _ _ plain.createdAfter plain.createdBefore,
    eventRow_keyword plain.queryText, behind, matchesQuery_eq, readBySqlite]
  by_cases empty : query.queryText = some ""
  · rw [if_pos empty, decide_eq_true empty, Bool.true_or]
    rfl
  · rw [if_neg empty, decide_eq_false empty, Bool.false_or]

/-- The name of the user is never absent, so that an empty keyword occurs in it. -/
theorem eventRow_selectsOfOrg (chronological : texts.Chronological) {query : OrgMemoryEventQuery}
    (plain : PlainQuery texts query.createdAfter query.createdBefore query.cursor query.queryText
      query.limit) (carries : texts.CarriesEvent event) :
    SqliteEventStore.selectsOfOrg texts query (eventRow texts event) =
      MockMemoryEventStore.matchesOrgQuery query event := by
  have keyword : (decide (query.queryText = some "") || query.queryText.all fun text =>
      eventMatchesKeyword event text true) =
        query.queryText.all fun text => eventMatchesKeyword event text true := by
    by_cases empty : query.queryText = some ""
    · have found : containsCaseInsensitive event.userId "" = true := contains_empty_keyword _
      rw [empty, Option.all_some, eventMatchesKeyword, found]
      simp
    · rw [decide_eq_false empty, Bool.false_or]
  have behind : SqliteFactStore.selectsBehind texts query.cursor (eventRow texts event).createdAt
      (eventRow texts event).id =
        query.cursor.all (isAfterCursorInDescOrder event.createdAt (Uuid.toText event.id)) :=
    selectsBehind_texts chronological carries.createdAt event.id plain.cursor
  rw [SqliteEventStore.selectsOfOrg,
    eventRow_filters chronological carries _ _ plain.createdAfter plain.createdBefore,
    eventRow_keyword plain.queryText, behind, keyword, matchesOrgQuery_eq]
  rfl

/-- SQLite finds at least the events that are found in memory. -/
theorem readBySqlite_wider (query : MemoryEventQuery)
    (found : MockMemoryEventStore.matchesQuery query event = true) :
    MockMemoryEventStore.matchesQuery (readBySqlite query) event = true := by
  unfold readBySqlite
  split
  · rw [matchesQuery_eq] at found ⊢
    simp only [Bool.and_eq_true, Option.all_none] at found ⊢
    exact ⟨⟨found.1.1, trivial⟩, found.2⟩
  · exact found

/-- An event that only SQLite finds has no texts. -/
theorem wordless_iff (event : MemoryEvent) :
    eventMatchesKeyword event "" false = false ↔ Wordless event := by
  have never : ∀ column : Option String,
      column.any (containsCaseInsensitive · "") = false ↔ column = none := by
    intro column
    cases column with
    | none => simp
    | some value =>
      have found : containsCaseInsensitive value "" = true := contains_empty_keyword _
      simp [found]
  simp only [eventMatchesKeyword, Bool.false_and, Bool.or_false, Bool.or_eq_false_iff, never,
    Wordless, and_assoc]

end Selections

/-! ## The answers to queries -/

section Queries

variable {texts : RowTexts} {events : MockMemoryEventStore} {rows : EventRows}

/-- The page that a statement delivers, in terms of the events. -/
theorem fetch_image (chronological : texts.Chronological) (alike : SameEvents texts events rows)
    {condition : EventRow → Bool} {matching : MemoryEvent → Bool}
    (agree : ∀ event ∈ events, condition (eventRow texts event) = matching event) {limit : ℕ}
    (small : limit ≤ maxMemoryEventListLimit) (limitContext : String) :
    SqliteEventStore.fetch texts condition limit limitContext rows =
      .ok (((events.filter matching).insertionSort MockMemoryEventStore.comesFirst).take
        (pageFetchLimit limit)) := by
  have fits : ¬ pageFetchLimit limit > SqliteFactStore.maxLimit := by
    simp only [pageFetchLimit, SqliteFactStore.maxLimit, maxMemoryEventListLimit] at small ⊢
    omega
  rw [SqliteEventStore.fetch, if_neg fits, alike.image]
  exact SqlTables.select_image _ agree
    (fun left leftMember right rightMember => position_texts chronological
      (alike.carried left leftMember).createdAt (alike.carried right rightMember).createdAt _ _)
    fun event member => eventRow_reads (alike.carried event member)

theorem normalizeEventListLimit_ok {limit : ℕ} (positive : 0 < limit)
    (small : limit ≤ maxMemoryEventListLimit) : normalizeEventListLimit limit = .ok limit := by
  rw [normalizeEventListLimit, if_neg positive.ne', if_neg (not_lt.mpr small)]

/-- Over the same events, a query about a tenant is answered alike just when its keyword is
read alike. -/
theorem listEvents_agree (chronological : texts.Chronological)
    (alike : SameEvents texts events rows) (distinct : (events.map MemoryEvent.id).Nodup)
    {query : MemoryEventQuery} (plain : PlainQuery texts query.createdAfter query.createdBefore
      query.cursor query.queryText query.limit) :
    (sqliteEventStore texts).listEvents query rows = mockEventStore.listEvents query events ↔
      KeywordReadAlike events query := by
  have sqlite : (sqliteEventStore texts).listEvents query rows = .ok (((events.filter
      (MockMemoryEventStore.matchesQuery (readBySqlite query))).insertionSort
        MockMemoryEventStore.comesFirst).take (pageFetchLimit query.limit)) :=
    fetch_image chronological alike
      (fun event member => eventRow_selects chronological plain (alike.carried event member))
      plain.limit _
  have memory : mockEventStore.listEvents query events = .ok (((events.filter
      (MockMemoryEventStore.matchesQuery query)).insertionSort
        MockMemoryEventStore.comesFirst).take (pageFetchLimit query.limit)) := by
    simp only [mockEventStore, MockMemoryEventStore.listEvents,
      normalizeEventListLimit_ok plain.positive plain.limit]
  have distinctPositions : (events.map MemoryEvent.position).Nodup := by
    apply List.pairwise_map.mpr
    apply (List.pairwise_map.mp distinct).imp
    intro left right different same
    exact different (Prod.mk.inj (toLex_inj.mp same)).2
  rw [sqlite, memory, Except.ok.injEq, take_sorted_eq_iff eventComesFirst_iff distinctPositions
    fun event _ found => readBySqlite_wider query found]
  unfold KeywordReadAlike
  by_cases empty : query.queryText = some ""
  · have narrow (event : MemoryEvent) :
        MockMemoryEventStore.matchesQuery query event =
          (MockMemoryEventStore.matchesQuery { query with queryText := none } event &&
            eventMatchesKeyword event "" false) := by
      rw [matchesQuery_eq, matchesQuery_eq, empty, Option.all_some, Option.all_none,
        Bool.and_true, Bool.and_assoc, Bool.and_comm (eventMatchesKeyword _ _ _), Bool.and_assoc,
        Bool.and_assoc, Bool.and_assoc]
    have earlier (event other : MemoryEvent) : decide (event.position < other.position) =
        (decide (event.createdAt < other.createdAt) ||
          decide (event.createdAt = other.createdAt) && decide (event.id < other.id)) := by
      rw [Bool.eq_iff_iff]
      simp only [MemoryEvent.position, Prod.Lex.toLex_lt_toLex, Bool.and_eq_true,
        Bool.or_eq_true, decide_eq_true_eq]
    rw [readBySqlite, if_pos empty]
    constructor
    · intro preceded _ event member wordless found
      have count := preceded event member found (by
        rw [narrow, (wordless_iff event).mpr wordless, Bool.and_false])
      simpa only [earlier] using count
    · intro preceded event member found missing
      rw [narrow, found, Bool.true_and] at missing
      have count := preceded empty event member ((wordless_iff event).mp missing) found
      simpa only [earlier] using count
  · rw [readBySqlite, if_neg empty]
    constructor
    · intro _ impossible
      exact absurd impossible empty
    · intro _ event _ found missing
      rw [found] at missing
      nomatch missing

theorem listEventsByOrg_agree (chronological : texts.Chronological)
    (alike : SameEvents texts events rows) {query : OrgMemoryEventQuery}
    (plain : PlainQuery texts query.createdAfter query.createdBefore query.cursor query.queryText
      query.limit) :
    (sqliteEventStore texts).listEventsByOrg query rows =
      mockEventStore.listEventsByOrg query events := by
  have sqlite : (sqliteEventStore texts).listEventsByOrg query rows = .ok (((events.filter
      (MockMemoryEventStore.matchesOrgQuery query)).insertionSort
        MockMemoryEventStore.comesFirst).take (pageFetchLimit query.limit)) :=
    fetch_image chronological alike
      (fun event member => eventRow_selectsOfOrg chronological plain (alike.carried event member))
      plain.limit _
  simp only [sqlite, mockEventStore, MockMemoryEventStore.listEventsByOrg,
    normalizeEventListLimit_ok plain.positive plain.limit]

theorem countEventsByOrg_agree (alike : SameEvents texts events rows) (orgId : String) :
    (sqliteEventStore texts).countEventsByOrg orgId rows =
      mockEventStore.countEventsByOrg orgId events := by
  simp only [sqliteEventStore, SqliteEventStore.countEventsByOrg, mockEventStore,
    MockMemoryEventStore.countEventsByOrg, alike.image]
  rw [SqlTables.countP_image]
  intro _ _
  rfl

end Queries

/-! ## Writes -/

/-- The writes of an event store. -/
inductive EventWrite where
  | recordEvent (tenant : TenantContext) (event : MemoryEvent)
  | deleteEventsOlderThan (tenant : TenantContext) (cutoff : Instant) (dryRun : Bool)

inductive EventAnswer where
  | recorded (event : MemoryEvent)
  | deleted (count : ℕ)

/-- The event that a write brings. -/
def EventWrite.event? : EventWrite → Option MemoryEvent
  | .recordEvent _ event => some event
  | .deleteEventsOlderThan _ _ _ => none

/-- The values of a write are representable. -/
def EventWrite.Carried (texts : RowTexts) : EventWrite → Prop
  | .recordEvent _ event => texts.CarriesEvent event
  | .deleteEventsOlderThan _ cutoff _ => texts.Represents cutoff

section Writes

variable {σ : Type} (store : EventStore σ)

def EventStore.write (write : EventWrite) (state : σ) : MemcoreResult EventAnswer × σ :=
  match write with
  | .recordEvent tenant event =>
      let served := store.recordEvent tenant event state
      (served.1.map .recorded, served.2)
  | .deleteEventsOlderThan tenant cutoff dryRun =>
      let served := store.deleteEventsOlderThan tenant cutoff dryRun state
      (served.1.map .deleted, served.2)

/-- Writes in order: the answers, and the store after them. -/
def EventStore.writeAll : List EventWrite → σ → List (MemcoreResult EventAnswer) × σ :=
  Refinement.runAll store.write

end Writes

section Parity

variable {texts : RowTexts} {events : MockMemoryEventStore} {rows : EventRows}

/-- A write is answered alike, and leaves both stores with the same events. -/
theorem eventWrite_agrees (chronological : texts.Chronological) (alike : SameEvents texts events rows)
    {write : EventWrite} (carried : write.Carried texts)
    (fresh : ∀ event ∈ write.event?, ∀ other ∈ events, other.id ≠ event.id) :
    ((sqliteEventStore texts).write write rows).1 = (mockEventStore.write write events).1 ∧
      SameEvents texts (mockEventStore.write write events).2
        ((sqliteEventStore texts).write write rows).2 := by
  cases write with
  | recordEvent tenant event =>
    have carries : texts.CarriesEvent event := carried
    simp only [EventStore.write, sqliteEventStore, mockEventStore, SqliteEventStore.recordEvent,
      MockMemoryEventStore.recordEvent]
    by_cases foreign : event.tenant ≠ tenant
    · rw [if_pos foreign, if_pos foreign]
      exact ⟨rfl, alike⟩
    · rw [if_neg foreign, if_neg foreign]
      obtain ⟨text, printed, _⟩ := carries.metadata
      have bound : SqliteEventStore.bindEvent texts event text = eventRow texts event := by
        rw [eventRow, printed]
        rfl
      have readable : SqliteFactStore.metadataToStr texts event.metadata = .ok text := by
        rw [SqliteFactStore.metadataToStr, printed]
      obtain ⟨inserted, success, image⟩ := SqlTables.insert_image alike.image
        fun other member same => fresh event rfl other member ((Uuid.toText_inj _ _).mp same)
      simp only [readable, bound, success]
      refine ⟨trivial, image, ?_⟩
      intro other member
      rcases List.mem_append.mp member with old | new
      · exact alike.carried other old
      · rw [List.mem_singleton.mp new]
        exact carries
  | deleteEventsOlderThan tenant cutoff dryRun =>
    have agree : ∀ event ∈ events,
        SqliteEventStore.isOld texts tenant cutoff (eventRow texts event) =
          (decide (event.tenant = tenant) && decide (event.createdAt < cutoff)) := by
      intro event member
      have order := chronological _ _ (alike.carried event member).createdAt carried
      have before : decide (texts.toRfc3339 event.createdAt < texts.toRfc3339 cutoff) =
          decide (event.createdAt < cutoff) := decide_eq_decide.mpr order
      rw [SqliteEventStore.isOld, eventRow_ofTenant, ← before]
      rfl
    simp only [EventStore.write, sqliteEventStore, mockEventStore,
      SqliteEventStore.deleteEventsOlderThan, MockMemoryEventStore.deleteEventsOlderThan]
    cases dryRun with
    | true =>
      simp only [if_true]
      refine ⟨?_, alike⟩
      rw [alike.image, SqlTables.countP_image agree]
    | false =>
      simp only [Bool.false_eq_true, if_false]
      obtain ⟨count, image⟩ := SqlTables.delete_image alike.image agree
      refine ⟨?_, image, ?_⟩
      · have parts := List.length_eq_length_filter_add (l := events) fun event =>
          decide (event.tenant = tenant) && decide (event.createdAt < cutoff)
        rw [count, parts, Nat.add_sub_cancel]
      · intro event member
        exact alike.carried event (List.mem_filter.mp member).1

/-- What is stored after a write was stored before it, or has been brought by it. -/
theorem write_sublist (write : EventWrite) (events : MockMemoryEventStore) :
    (mockEventStore.write write events).2.Sublist (events ++ write.event?.toList) := by
  cases write with
  | recordEvent tenant event =>
    simp only [EventStore.write, mockEventStore, MockMemoryEventStore.recordEvent]
    split
    · exact List.sublist_append_left _ _
    · exact List.Sublist.refl _
  | deleteEventsOlderThan tenant cutoff dryRun =>
    simp only [EventStore.write, mockEventStore, MockMemoryEventStore.deleteEventsOlderThan,
      EventWrite.event?, Option.toList_none, List.append_nil]
    split
    · exact List.Sublist.refl _
    · exact List.filter_sublist

/-- The identifiers of the events that writes bring. -/
def recordedIds (writes : List EventWrite) : List Uuid :=
  (writes.flatMap fun write => write.event?.toList).map MemoryEvent.id

/-- What is brought is not stored yet. -/
theorem fresh_of_distinct {α κ : Type} {key : α → κ} {stored : List α} {brought : Option α}
    (distinct : ((stored ++ brought.toList).map key).Nodup) :
    ∀ record ∈ brought, ∀ other ∈ stored, key other ≠ key record := by
  intro record isBrought other member same
  rw [List.map_append, List.nodup_append] at distinct
  refine distinct.2.2 _ (List.mem_map_of_mem member) (key record) ?_ same
  exact List.mem_map_of_mem (Option.mem_toList.mpr isBrought)

/-- Both stores hold the same events, with identifiers that the writes to come do not bring. -/
def SameEventsAhead (texts : RowTexts) (writes : List EventWrite) (rows : EventRows)
    (events : MockMemoryEventStore) : Prop :=
  SameEvents texts events rows ∧ (∀ write ∈ writes, write.Carried texts) ∧
    (events.map MemoryEvent.id ++ recordedIds writes).Nodup

/-- Writes are answered alike, and leave both stores with the same events. -/
theorem writes_agree (chronological : texts.Chronological) {writes : List EventWrite}
    (ahead : SameEventsAhead texts writes rows events) :
    ((sqliteEventStore texts).writeAll writes rows).1 = (mockEventStore.writeAll writes events).1 ∧
      SameEventsAhead texts [] ((sqliteEventStore texts).writeAll writes rows).2
        (mockEventStore.writeAll writes events).2 := by
  apply Refinement.runAll_agree (SameEventsAhead texts) _ ahead
  rintro write rest rows events ⟨alike, carried, distinct⟩
  have split : recordedIds (write :: rest) =
      write.event?.toList.map MemoryEvent.id ++ recordedIds rest := by
    simp only [recordedIds, List.flatMap_cons, List.map_append]
  rw [split, ← List.append_assoc, ← List.map_append] at distinct
  have fresh := fresh_of_distinct (List.nodup_append.mp distinct).1
  obtain ⟨sameAnswer, later⟩ :=
    eventWrite_agrees chronological alike (carried write List.mem_cons_self) fresh
  refine ⟨sameAnswer, later, fun other member => carried other (List.mem_cons_of_mem _ member), ?_⟩
  exact distinct.sublist
    (((write_sublist write events).map _).append (List.Sublist.refl _))

end Parity

/-! ## Both stores after the same writes -/

/-- After the same writes to empty stores, all answers are the same. -/
structure EventStoresAgree (texts : RowTexts) (writes : List EventWrite)
    (query : MemoryEventQuery) (orgQuery : OrgMemoryEventQuery) (orgId : String) : Prop where
  answers : ((sqliteEventStore texts).writeAll writes Table.empty).1 =
    (mockEventStore.writeAll writes []).1
  listEvents : (sqliteEventStore texts).listEvents query
      ((sqliteEventStore texts).writeAll writes Table.empty).2 =
    mockEventStore.listEvents query (mockEventStore.writeAll writes []).2
  listEventsByOrg : (sqliteEventStore texts).listEventsByOrg orgQuery
      ((sqliteEventStore texts).writeAll writes Table.empty).2 =
    mockEventStore.listEventsByOrg orgQuery (mockEventStore.writeAll writes []).2
  countEventsByOrg : (sqliteEventStore texts).countEventsByOrg orgId
      ((sqliteEventStore texts).writeAll writes Table.empty).2 =
    mockEventStore.countEventsByOrg orgId (mockEventStore.writeAll writes []).2

/-- Both event stores give the same answers just when the keyword of the query about a
tenant is read alike over the events that the writes have left. -/
theorem event_stores_agree_iff (texts : RowTexts) (chronological : texts.Chronological)
    (writes : List EventWrite) (carried : ∀ write ∈ writes, write.Carried texts)
    (distinct : (recordedIds writes).Nodup) (query : MemoryEventQuery)
    (plain : PlainQuery texts query.createdAfter query.createdBefore query.cursor query.queryText
      query.limit) (orgQuery : OrgMemoryEventQuery)
    (orgPlain : PlainQuery texts orgQuery.createdAfter orgQuery.createdBefore orgQuery.cursor
      orgQuery.queryText orgQuery.limit) (orgId : String) :
    EventStoresAgree texts writes query orgQuery orgId ↔
      KeywordReadAlike (mockEventStore.writeAll writes []).2 query := by
  have empty : SameEvents texts [] Table.empty := ⟨rfl, fun _ member => nomatch member⟩
  obtain ⟨answers, alike, _, nothingAhead⟩ :=
    writes_agree chronological ⟨empty, carried, distinct⟩
  have ids := (List.nodup_append.mp nothingAhead).1
  have queries := listEvents_agree chronological alike ids plain
  constructor
  · exact fun agree => queries.mp agree.listEvents
  · exact fun readAlike => {
      answers := answers
      listEvents := queries.mpr readAlike
      listEventsByOrg := listEventsByOrg_agree chronological alike orgPlain
      countEventsByOrg := countEventsByOrg_agree alike orgId }

/-! ## An empty keyword -/

section Sample

/-- The record of a deletion of all data of a user: it quotes no text. -/
def wordlessEvent : MemoryEvent where
  id := 1
  orgId := sampleTenant.orgId
  userId := sampleTenant.userId
  factId := none
  operation := .forgetUser
  inputText := none
  previousContent := none
  newContent := none
  providerName := none
  modelName := none
  metadata := .object []
  createdAt := 0

def sampleEventWrites : List EventWrite := [.recordEvent sampleTenant wordlessEvent]

def sampleEventQuery (queryText : Option String) : MemoryEventQuery :=
  { MemoryEventQuery.new sampleTenant 10 with queryText := queryText }

def sampleOrgEventQuery : OrgMemoryEventQuery :=
  ⟨sampleTenant.orgId, none, none, none, none, none, some "ADA", 10, none⟩

theorem sampleEventWrites_carried : ∀ write ∈ sampleEventWrites, write.Carried sampleRowTexts := by
  intro write member
  obtain rfl : write = _ := List.mem_singleton.mp member
  exact ⟨by decide, by simp [wordlessEvent], ⟨_, rfl, rfl⟩, rfl⟩

theorem samplePlain {queryText : Option String} (plain : ∀ text ∈ queryText, PlainText text) :
    PlainQuery sampleRowTexts none none none queryText 10 :=
  ⟨by simp, by simp, by simp, plain, by decide, by decide⟩

theorem event_stores_agree_iff_sample :
    EventStoresAgree sampleRowTexts sampleEventWrites (sampleEventQuery (some "coffee"))
      sampleOrgEventQuery "acme" := by
  apply (event_stores_agree_iff sampleRowTexts sampleRowTexts_chronological sampleEventWrites
    sampleEventWrites_carried (by decide) (sampleEventQuery (some "coffee"))
    (samplePlain ?_) sampleOrgEventQuery (samplePlain ?_) "acme").mpr
  · intro empty
    exact absurd empty (by decide)
  · intro text present
    obtain rfl : "coffee" = text := Option.some.inj present
    unfold PlainText
    decide
  · intro text present
    obtain rfl : "ADA" = text := Option.some.inj present
    unfold PlainText
    decide

/-- The event is found for an empty keyword in SQLite, and not in memory. -/
theorem empty_keyword_differs :
    ¬ EventStoresAgree sampleRowTexts sampleEventWrites (sampleEventQuery (some ""))
      sampleOrgEventQuery "acme" := by
  intro agree
  have counts := congrArg (Except.map List.length) agree.listEvents
  revert counts
  decide +kernel

end Sample

end Memcore
