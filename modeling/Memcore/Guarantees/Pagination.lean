import Memcore.Domain.Identifiers
import Memcore.Engine.Listing
import Memcore.Engine.Operations
import Mathlib.Data.Prod.Lex

/-!
# Listings are complete and free of duplicates

A caller who feeds each cursor back until there is none sees exactly the matching items,
each once, from the latest to the earliest. This holds of each of the three listings, on
stores of any content and for any limit that the listing accepts.

The argument is the same for all three. The store sorts what matches, so a search behind
a cursor is a search without one, of which the items that the cursor leaves behind are
kept. The cursor names the last item of a page, and its comparison by text is the order
of the items. So pages cut by cursor are pages cut by position.

Two things are excluded. A limit above the maximum of a listing is refused. Events that
share their instant and their identifier cannot be told apart by a cursor; every event
that the engine records has an identifier of its own.
-/
namespace Memcore

open KeyedTables Pages

/-! ## One listing -/

section Listing

variable {α ι : Type}

/-- Rows by descending instant; ties by descending identifier. -/
def Precedes [LT ι] (sortValue : α → Instant) (id : α → ι) (earlier later : α) : Prop :=
  sortValue later < sortValue earlier ∨
    sortValue later = sortValue earlier ∧ id later < id earlier

/-- A listing reads the cursor, searches, and cuts a page. -/
def pageOf (encoding : CursorEncoding) (search : Option PageCursor → MemcoreResult (List α))
    (limit : ℕ) (toCursor : α → PageCursor) (text : Option String) :
    MemcoreResult (Page α String) := do
  let cursor ← parseOptionalCursor encoding text
  let items ← search cursor
  buildPage encoding items limit toCursor

/-- The last page. -/
theorem buildPage_last (encoding : CursorEncoding) {items : List α} {limit : ℕ}
    (toCursor : α → PageCursor) (short : items.length ≤ limit) :
    buildPage encoding (items.take (pageFetchLimit limit)) limit toCursor = .ok ⟨items, none⟩ := by
  have all : items.take (pageFetchLimit limit) = items := by
    rw [List.take_eq_self_iff, pageFetchLimit]
    omega
  rw [all, buildPage, if_neg (by omega)]

/-- A page that is not the last: its token is that of its last item. -/
theorem buildPage_more (encoding : CursorEncoding) {items : List α} {limit : ℕ}
    (toCursor : α → PageCursor) (long : limit < items.length) {last : α}
    (isLast : (items.take limit).getLast? = some last) {text : String}
    (encoded : encodeCursor encoding (toCursor last) = .ok text) :
    buildPage encoding (items.take (pageFetchLimit limit)) limit toCursor =
      .ok ⟨items.take limit, some text⟩ := by
  have fetched : (items.take (pageFetchLimit limit)).length > limit := by
    rw [List.length_take, pageFetchLimit]
    omega
  have shown : (items.take (pageFetchLimit limit)).take limit = items.take limit := by
    rw [List.take_take, pageFetchLimit, min_eq_left (by omega)]
  rw [buildPage, if_pos fetched, shown, isLast]
  simp only [encoded]
  rfl

/-- A listing whose searches keep the items behind the cursor delivers all items. -/
theorem pageOf_followed {κ : Type} [LinearOrder κ] {key : α → κ} (encoding : CursorEncoding)
    {search : Option PageCursor → MemcoreResult (List α)} {limit : ℕ} (positive : 0 < limit)
    (toCursor : α → PageCursor) {items : List α} (descending : Descending key items)
    (first : search none = .ok (items.take (pageFetchLimit limit)))
    (behind : ∀ item ∈ items, search (some (toCursor item)) =
      .ok ((items.filter fun other => decide (key other < key item)).take (pageFetchLimit limit)))
    (carries : ∀ item ∈ items, encoding.Carries (toCursor item)) :
    ∃ pages, Followed (pageOf encoding search limit toCursor) none pages ∧
      pages.flatten = items := by
  let position (text : Option String) (rest : List α) : Prop :=
    ∃ count, rest = items.drop count ∧ ∃ cursor, parseOptionalCursor encoding text = .ok cursor ∧
      search cursor = .ok (rest.take (pageFetchLimit limit))
  apply exists_followed positive position
  · rintro text rest ⟨count, isRest, cursor, parsed, found⟩
    have served : pageOf encoding search limit toCursor text =
        buildPage encoding (rest.take (pageFetchLimit limit)) limit toCursor := by
      rw [pageOf, parsed]
      simp only [bind, Except.bind, found]
    rw [served]
    by_cases short : rest.length ≤ limit
    · exact .inl ⟨short, buildPage_last encoding toCursor short⟩
    · have long : limit < rest.length := by omega
      have nonempty : rest.take limit ≠ [] := by
        rw [← List.length_pos_iff, List.length_take]
        omega
      obtain ⟨last, isLast⟩ : ∃ last, (rest.take limit).getLast? = some last :=
        ⟨_, List.getLast?_eq_some_getLast nonempty⟩
      have member : last ∈ items := by
        have shown := List.mem_of_getLast? isLast
        rw [isRest] at shown
        exact List.mem_of_mem_drop (List.mem_of_mem_take shown)
      obtain ⟨next, encoded, parsedNext⟩ := (carries last member).parse
      refine .inr ⟨next, long, buildPage_more encoding toCursor long isLast encoded, ?_⟩
      have cut : (items.take (count + limit)).getLast? = some last := by
        rw [List.take_add, ← isRest, List.getLast?_append_of_ne_nil _ nonempty]
        exact isLast
      refine ⟨count + limit, ?_, some (toCursor last), parsedNext, ?_⟩
      · rw [isRest, List.drop_drop]
      · rw [behind last member, ← descending.drop_eq cut, isRest, List.drop_drop]
  · exact ⟨0, rfl, none, rfl, first⟩

/-- The answer of a store: what matches and is behind the cursor, sorted, one item more
than the limit. -/
def sortedSearch (rows : List α) (selects : α → Bool) (sortValue : α → Instant)
    (idText : α → String) (comesFirst : α → α → Prop) [DecidableRel comesFirst] (limit : ℕ)
    (cursor : Option PageCursor) : MemcoreResult (List α) :=
  let results := rows.filter fun row =>
    selects row && cursor.all (isAfterCursorInDescOrder (sortValue row) (idText row))
  .ok ((results.insertionSort comesFirst).take (pageFetchLimit limit))

/-- A listing of a store that sorts by the order of its cursors lists exactly what
matches. -/
theorem sortedSearch_listsExactly [LinearOrder ι] (encoding : CursorEncoding) {rows : List α}
    {selects : α → Bool} {sortValue : α → Instant} {id : α → ι} {idText : α → String}
    {comesFirst : α → α → Prop} [DecidableRel comesFirst] {limit : ℕ} (positive : 0 < limit)
    {toCursor : α → PageCursor}
    (textOrder : ∀ left right, idText left < idText right ↔ id left < id right)
    (sorts : ∀ left right, comesFirst left right ↔ sortValue right < sortValue left ∨
      sortValue right = sortValue left ∧ id right ≤ id left)
    (names : ∀ row ∈ rows, toCursor row = ⟨idText row, sortValue row⟩)
    (distinct : (rows.filter selects).Pairwise fun left right =>
      sortValue left ≠ sortValue right ∨ id left ≠ id right)
    (carries : ∀ row ∈ rows, encoding.Carries (toCursor row)) :
    ListsExactly
      (pageOf encoding (sortedSearch rows selects sortValue idText comesFirst limit) limit toCursor)
      (Precedes sortValue id) (fun row => row ∈ rows ∧ selects row = true) := by
  let key (row : α) : Instant ×ₗ ι := toLex (sortValue row, id row)
  have byKey (left right : α) : comesFirst left right ↔ key right ≤ key left := by
    rw [sorts, Prod.Lex.toLex_le_toLex]
  have isBehind (row other : α) : isAfterCursorInDescOrder (sortValue row) (idText row)
      ⟨idText other, sortValue other⟩ = decide (key row < key other) := by
    rw [Bool.eq_iff_iff, decide_eq_true_eq, Prod.Lex.toLex_lt_toLex]
    simp only [isAfterCursorInDescOrder, Bool.or_eq_true, Bool.and_eq_true, decide_eq_true_eq,
      beq_iff_eq, textOrder]
  have distinctKeys : ((rows.filter selects).map key).Nodup := by
    apply List.pairwise_map.mpr
    apply distinct.imp
    intro left right different same
    have both : sortValue left = sortValue right ∧ id left = id right :=
      Prod.mk.inj (toLex_inj.mp same)
    rcases different with instants | identifiers
    · exact instants both.1
    · exact identifiers both.2
  let items := (rows.filter selects).insertionSort comesFirst
  have descending : Descending key items := descending_insertionSort byKey distinctKeys
  have members (row : α) : row ∈ items ↔ row ∈ rows ∧ selects row = true := by
    simp only [items, List.mem_insertionSort, List.mem_filter]
  have first : sortedSearch rows selects sortValue idText comesFirst limit none =
      .ok (items.take (pageFetchLimit limit)) := by
    simp only [sortedSearch, Option.all_none, Bool.and_true, items]
  have behind : ∀ item ∈ items,
      sortedSearch rows selects sortValue idText comesFirst limit (some (toCursor item)) =
        .ok ((items.filter fun other => decide (key other < key item)).take
          (pageFetchLimit limit)) := by
    intro item member
    simp only [sortedSearch, names item ((members item).mp member).1, Option.all_some, isBehind]
    rw [← List.filter_filter, List.filter_comm, insertionSort_filter byKey distinctKeys]
  obtain ⟨pages, followed, same⟩ := pageOf_followed encoding positive toCursor descending first
    behind fun item member => carries item ((members item).mp member).1
  refine ⟨pages, followed, ?_, ?_, ?_⟩
  · exact same ▸ descending.nodup
  · rw [same]
    apply descending.imp
    intro earlier later lower
    exact (Prod.Lex.toLex_lt_toLex.mp lower)
  · exact same ▸ members

end Listing

/-! ## The three listings -/

theorem normalizeLimit_accepts (name : String) {limit maximum : ℕ} (positive : 1 ≤ limit)
    (accepted : limit ≤ maximum) : normalizeLimit name limit maximum = .ok limit := by
  have nonzero : limit ≠ 0 := by omega
  rw [normalizeLimit, if_neg nonzero, if_neg (by omega)]

theorem normalizeOrgUsersLimit_accepts {limit : ℕ} (positive : 1 ≤ limit)
    (accepted : limit ≤ maxListOrgUsersLimit) : normalizeOrgUsersLimit limit = .ok limit := by
  have nonzero : limit ≠ 0 := by omega
  simp only [normalizeOrgUsersLimit, if_neg nonzero]
  rw [if_neg (by omega)]

/-- An event that a query without a cursor finds is found behind a cursor if it is behind. -/
theorem MockMemoryEventStore.matchesQuery_cursor (input : ListMemoryEventsInput)
    (limit : ℕ) (cursor : Option PageCursor) (event : MemoryEvent) :
    matchesQuery (input.query limit cursor) event =
      (matchesQuery (input.query limit none) event &&
        cursor.all (isAfterCursorInDescOrder event.createdAt (Uuid.toText event.id))) := by
  simp only [matchesQuery, ListMemoryEventsInput.query, Option.all_none, Bool.and_true]
  rfl

theorem MockFactStore.matchesQuery_cursor (store : MockFactStore) (input : ListMemoriesInput)
    (limit : ℕ) (cursor : Option PageCursor) (fact : Fact) :
    store.matchesQuery (input.query limit cursor) fact =
      (store.matchesQuery (input.query limit none) fact &&
        cursor.all (isAfterCursorInDescOrder fact.updatedAt (Uuid.toText fact.id))) := by
  simp only [matchesQuery, ListMemoriesInput.query, Option.all_none, Bool.and_true]

section Listings

variable (encoding : CursorEncoding)

/-- Memories are listed completely. -/
theorem listMemories_listsExactly (store : MockFactStore)
    (carries : ∀ fact ∈ store.facts.rows, encoding.Carries fact.toCursor)
    (input : ListMemoriesInput) (valid : input.tenant.Valid) (positive : 1 ≤ input.limit)
    (accepted : input.limit ≤ maxListMemoriesLimit) :
    ListsExactly (fun cursor => listMemories encoding store { input with cursor := cursor })
      (Precedes Fact.updatedAt Fact.id)
      (fun fact => fact ∈ store.facts.rows ∧ fact.tenant = input.tenant ∧
        store.matchesQuery (input.query input.limit none) fact = true) := by
  let selects (fact : Fact) : Bool := decide (fact.tenant = input.tenant) &&
    store.matchesQuery (input.query input.limit none) fact
  have search (cursor : Option PageCursor) :
      (store.searchFacts (input.query input.limit cursor)).1 =
        sortedSearch store.facts.rows selects Fact.updatedAt (fun fact => Uuid.toText fact.id)
          MockFactStore.comesFirst input.limit cursor := by
    simp only [MockFactStore.searchFacts, store.matchesQuery_cursor input input.limit cursor,
      sortedSearch, selects, Bool.and_assoc]
    rfl
  have served : (fun cursor => listMemories encoding store { input with cursor := cursor }) =
      pageOf encoding (sortedSearch store.facts.rows selects Fact.updatedAt
        (fun fact => Uuid.toText fact.id) MockFactStore.comesFirst input.limit) input.limit
        Fact.toCursor := by
    funext cursor
    unfold listMemories pageOf
    simp only [(validateTenant_ok input.tenant).mpr valid, normalizeListLimit,
      normalizeLimit_accepts "limit" positive accepted, bind, Except.bind, ← search]
    rfl
  have distinct : (store.facts.rows.filter selects).Pairwise fun left right =>
      left.updatedAt ≠ right.updatedAt ∨ left.id ≠ right.id := by
    have identifiers := List.pairwise_map.mp store.facts.distinct
    exact (identifiers.filter selects).imp fun different => .inr different
  have wanted : (fun fact => fact ∈ store.facts.rows ∧ fact.tenant = input.tenant ∧
      store.matchesQuery (input.query input.limit none) fact = true) =
      fun fact => fact ∈ store.facts.rows ∧ selects fact = true := by
    funext fact
    simp only [selects, Bool.and_eq_true, decide_eq_true_eq]
  rw [served, wanted]
  exact sortedSearch_listsExactly encoding positive
    (fun left right => Uuid.toText_lt_iff left.id right.id) (fun _ _ => Iff.rfl)
    (fun _ _ => rfl) distinct carries

/-- Events are listed completely, if no two of them share instant and identifier. -/
theorem listMemoryEvents_listsExactly (store : MockMemoryEventStore)
    (distinct : store.Pairwise fun left right =>
      left.createdAt ≠ right.createdAt ∨ left.id ≠ right.id)
    (carries : ∀ event ∈ store, encoding.Carries event.toCursor)
    (input : ListMemoryEventsInput) (valid : input.tenant.Valid)
    (range : validateEventDateRange input.createdAfter input.createdBefore = .ok ())
    (positive : 1 ≤ input.limit) (accepted : input.limit ≤ maxListMemoryEventsLimit) :
    ListsExactly
      (fun cursor => listMemoryEvents encoding (some store) { input with cursor := cursor })
      (Precedes MemoryEvent.createdAt MemoryEvent.id)
      (fun event => event ∈ store ∧
        MockMemoryEventStore.matchesQuery (input.query input.limit none) event = true) := by
  let selects := MockMemoryEventStore.matchesQuery (input.query input.limit none)
  have normalized : normalizeEventListLimit input.limit = .ok input.limit := by
    have nonzero : input.limit ≠ 0 := by omega
    unfold maxListMemoryEventsLimit at accepted
    rw [normalizeEventListLimit, if_neg nonzero, if_neg (by unfold maxMemoryEventListLimit; omega)]
  have search (cursor : Option PageCursor) :
      (MockMemoryEventStore.listEvents store (input.query input.limit cursor)).1 =
        sortedSearch store selects MemoryEvent.createdAt (fun event => Uuid.toText event.id)
          MockMemoryEventStore.comesFirst input.limit cursor := by
    have limit : (input.query input.limit cursor).limit = input.limit := rfl
    have filters : MockMemoryEventStore.matchesQuery (input.query input.limit cursor) =
        fun event => selects event &&
          cursor.all (isAfterCursorInDescOrder event.createdAt (Uuid.toText event.id)) := by
      funext event
      exact MockMemoryEventStore.matchesQuery_cursor input input.limit cursor event
    simp only [MockMemoryEventStore.listEvents, limit, normalized, filters, sortedSearch]
  have served :
      (fun cursor => listMemoryEvents encoding (some store) { input with cursor := cursor }) =
      pageOf encoding (sortedSearch store selects MemoryEvent.createdAt
        (fun event => Uuid.toText event.id) MockMemoryEventStore.comesFirst input.limit) input.limit
        MemoryEvent.toCursor := by
    funext cursor
    unfold listMemoryEvents pageOf
    simp only [(validateTenant_ok input.tenant).mpr valid, normalizeMemoryEventListLimit,
      normalizeLimit_accepts "limit" positive accepted, range, bind, Except.bind, ← search]
    rfl
  rw [served]
  exact sortedSearch_listsExactly encoding positive
    (fun left right => Uuid.toText_lt_iff left.id right.id) (fun _ _ => Iff.rfl)
    (fun _ _ => rfl) (distinct.filter selects) carries

/-- The users of an organisation are listed completely. -/
theorem listOrgUsers_listsExactly (store : MockFactStore) (now : Instant)
    (carries : ∀ fact ∈ store.facts.rows, encoding.Carries ⟨fact.userId, fact.updatedAt⟩)
    (input : ListOrgUsersInput) (valid : Texts.isBlank input.orgId = false)
    (positive : 1 ≤ input.limit) (accepted : input.limit ≤ maxListOrgUsersLimit) :
    ListsExactly (fun cursor => listOrgUsers encoding store now { input with cursor := cursor })
      (Precedes OrgUserSummary.sortValue OrgUserSummary.userId)
      (MockFactStore.Summarises (store.activeIn input.orgId)) := by
  let rows := (store.aggregateUsers input.orgId).rows
  have known : ∀ user ∈ rows, user.toCursor now = ⟨user.userId, user.sortValue⟩ ∧
      encoding.Carries (user.toCursor now) := by
    intro user stored
    have summarises := (store.mem_aggregateUsers input.orgId user).mp stored
    obtain ⟨instant, last, ⟨fact, member, reached⟩, _⟩ := summarises.latest
    have cursor : user.toCursor now = ⟨user.userId, user.sortValue⟩ := by
      simp only [OrgUserSummary.toCursor, OrgUserSummary.sortValue, last, Option.getD_some]
    obtain ⟨inOrg, own⟩ := List.mem_filter.mp member
    have storedFact := (List.mem_filter.mp (List.mem_filter.mp inOrg).1).1
    refine ⟨cursor, ?_⟩
    rw [cursor, OrgUserSummary.sortValue, last, Option.getD_some, ← reached,
      ← of_decide_eq_true own]
    exact carries fact storedFact
  have served : (fun cursor => listOrgUsers encoding store now { input with cursor := cursor }) =
      pageOf encoding (sortedSearch rows (fun _ => true) OrgUserSummary.sortValue
        OrgUserSummary.userId MockFactStore.userComesFirst input.limit) input.limit
        (OrgUserSummary.toCursor now) := by
    funext cursor
    unfold listOrgUsers pageOf
    simp only [(validateNonEmpty_ok "org_id" input.orgId).mpr valid,
      normalizeOrgUsersLimit_accepts positive accepted, bind, Except.bind,
      MockFactStore.listUsersByOrg, sortedSearch, Bool.true_and, rows]
  have distinct : (rows.filter fun _ => true).Pairwise fun left right =>
      left.sortValue ≠ right.sortValue ∨ left.userId ≠ right.userId := by
    have users := List.pairwise_map.mp (store.aggregateUsers input.orgId).distinct
    exact (users.filter _).imp fun different => .inr different
  have wanted : MockFactStore.Summarises (store.activeIn input.orgId) =
      fun user => user ∈ rows ∧ (fun _ => true) user = true := by
    funext user
    simp only [rows, store.mem_aggregateUsers, and_true]
  rw [served, wanted]
  exact sortedSearch_listsExactly encoding positive (fun _ _ => Iff.rfl) (fun _ _ => Iff.rfl)
    (fun user stored => (known user stored).1) distinct
    (fun user stored => (known user stored).2)

end Listings

section Sample

/-- The cursor of the first identifier at the epoch, and that of a user. -/
def sampleCursors : List (PageCursor × String × String) :=
  [(⟨"00000000-0000-0000-0000-000000000001", 0⟩,
      "\x7b\"last_id\":\"00000000-0000-0000-0000-000000000001\"," ++
        "\"last_sort_value\":\"1970-01-01T00:00:00Z\"\x7d",
      "eyJsYXN0X2lkIjoiMDAwMDAwMDAtMDAwMC0wMDAwLTAwMDAtMDAwMDAwMDAwMDAx" ++
        "IiwibGFzdF9zb3J0X3ZhbHVlIjoiMTk3MC0wMS0wMVQwMDowMDowMFoifQ"),
    (⟨"ada", 0⟩,
      "\x7b\"last_id\":\"ada\",\"last_sort_value\":\"1970-01-01T00:00:00Z\"\x7d",
      "eyJsYXN0X2lkIjoiYWRhIiwibGFzdF9zb3J0X3ZhbHVlIjoiMTk3MC0wMS0wMVQwMDowMDowMFoifQ")]

/-- The encodings of these cursors. -/
def sampleEncoding : CursorEncoding where
  toJson cursor := match sampleCursors.find? fun entry =>
      entry.1.lastId == cursor.lastId && entry.1.lastSortValue == cursor.lastSortValue with
    | some entry => .ok entry.2.1
    | none => .error "not among the samples"
  fromJson bytes := match sampleCursors.find? fun entry => asBytes entry.2.1 == bytes with
    | some entry => .ok entry.1
    | none => .error "expected value at line 1 column 1"
  encode bytes := match sampleCursors.find? fun entry => asBytes entry.2.1 == bytes with
    | some entry => entry.2.2
    | none => ""
  decode text := match sampleCursors.find? fun entry => entry.2.2 == text with
    | some entry => .ok (asBytes entry.2.1)
    | none => .error "Invalid input length"

theorem sampleEncoding_carries (entry : PageCursor × String × String)
    (listed : entry ∈ sampleCursors) : sampleEncoding.Carries entry.1 := by
  have every : ∀ entry ∈ sampleCursors,
      sampleEncoding.decode (sampleEncoding.encode (asBytes entry.2.1)) =
          .ok (asBytes entry.2.1) ∧
        sampleEncoding.encode (asBytes entry.2.1) ≠ "" ∧
        Texts.trim (sampleEncoding.encode (asBytes entry.2.1)) =
          sampleEncoding.encode (asBytes entry.2.1) := by decide +kernel
  obtain ⟨decodes, notEmpty, trimmed⟩ := every entry listed
  refine ⟨entry.2.1, ?_, decodes, ?_, notEmpty, trimmed⟩
  · rcases listed with _ | ⟨_, _ | ⟨_, impossible⟩⟩
    · rfl
    · rfl
    · nomatch impossible
  · rcases listed with _ | ⟨_, _ | ⟨_, impossible⟩⟩
    · rfl
    · rfl
    · nomatch impossible

/-- An audit event with a content. -/
def sampleEvent (content : String) : MemoryEvent where
  id := 1
  orgId := sampleTenant.orgId
  userId := sampleTenant.userId
  factId := none
  operation := .add
  inputText := none
  previousContent := none
  newContent := some content
  providerName := none
  modelName := none
  metadata := .object []
  createdAt := 0

/-- A listing of events in pages of one. -/
def sampleEventListing : ListMemoryEventsInput where
  tenant := sampleTenant
  factId := none
  operation := none
  createdAfter := none
  createdBefore := none
  queryText := none
  limit := 1
  cursor := none

end Sample

end Memcore
