import Memcore.Engine.Operations
import Memcore.Foundations.Pages
import Memcore.Stores.FactMirror
import Mathlib.Data.Prod.Lex

/-!
# Both fact stores find the same facts

A search of the store in memory and the statement that SQLite runs for it agree on the
tenant, on deleted facts, on the cursor and on the order. They differ in three readings.
SQLite takes an empty list of memory types for no filter, it takes a percent sign or an
underscore in the text for a wildcard, and it refuses a limit that no statement can have.

Each reading of SQLite finds at least what the store in memory finds. So the answers are
the same just when the limit is accepted and no fact that SQLite alone finds is among the
first.
-/
namespace Memcore

open KeyedTables Pages

/-- The facts that SQLite's reading of a query finds. -/
def selectedBySqlite (store : MockFactStore) (query : FactSearchQuery) (fact : Fact) : Bool :=
  decide (fact.tenant = query.tenant) && (query.includeDeleted || !store.isDeleted fact.id) &&
  SqliteFactStore.selectsTypes query.memoryTypes (memoryTypeToStr fact.memoryType) &&
  SqliteFactStore.selectsText query.queryText fact.content fact.summary &&
  query.cursor.all (isAfterCursorInDescOrder fact.updatedAt (Uuid.toText fact.id))

/-- The facts that the store in memory finds. -/
def selectedInMemory (store : MockFactStore) (query : FactSearchQuery) (fact : Fact) : Bool :=
  decide (fact.tenant = query.tenant) && store.matchesQuery query fact

/-- How many of the facts that SQLite's reading finds come before a fact. -/
def foundBefore (store : MockFactStore) (query : FactSearchQuery) (fact : Fact) : ℕ :=
  store.facts.rows.countP fun other => selectedBySqlite store query other &&
    (decide (fact.updatedAt < other.updatedAt) ||
      decide (fact.updatedAt = other.updatedAt) && decide (fact.id < other.id))

/-- The limit is one that a statement can have, and a fact that SQLite alone finds is
preceded by as many as are asked for. -/
def ReadAlike (store : MockFactStore) (query : FactSearchQuery) : Prop :=
  pageFetchLimit query.limit ≤ SqliteFactStore.maxLimit ∧
  ∀ fact ∈ store.facts.rows, selectedBySqlite store query fact = true →
    selectedInMemory store query fact = false →
      pageFetchLimit query.limit ≤ foundBefore store query fact

/-! ## The readings of the filters -/

section Readings

theorem selectsTypes_toStr (memoryTypes : Option (List MemoryType)) (memoryType : MemoryType) :
    SqliteFactStore.selectsTypes memoryTypes (memoryTypeToStr memoryType) = true ↔
      memoryTypes = some [] ∨
      memoryTypes.all (fun types => decide (memoryType ∈ types)) = true := by
  cases memoryTypes with
  | none => simp [SqliteFactStore.selectsTypes]
  | some types =>
    have listed : memoryTypeToStr memoryType ∈ types.map memoryTypeToStr ↔ memoryType ∈ types := by
      rw [List.mem_map]
      constructor
      · rintro ⟨other, member, same⟩
        exact memoryTypeToStr_injective same ▸ member
      · intro member
        exact ⟨memoryType, member, rfl⟩
    simp only [SqliteFactStore.selectsTypes, Bool.or_eq_true, List.isEmpty_iff, decide_eq_true_eq,
      listed, Option.some.injEq, Option.all_some]

/-- The pattern for a text, as characters. -/
theorem toList_sqliteLikePattern (text : String) :
    (SqliteFactStore.sqliteLikePattern text).toList =
      '%' :: ((Texts.toAsciiLowercase text).toList ++ ['%']) := by
  simp [SqliteFactStore.sqliteLikePattern]

/-- What contains the text is found by its pattern. -/
theorem like_of_contains {text value : String}
    (contains : Texts.contains (Texts.toAsciiLowercase value) (Texts.toAsciiLowercase text) = true) :
    SqliteFactStore.like (Texts.toAsciiLowercase value)
      (SqliteFactStore.sqliteLikePattern text) = true := by
  rw [SqliteFactStore.like, toList_sqliteLikePattern]
  exact SqlPatterns.like_of_occursIn contains

/-- A text without wildcards. -/
def PlainText (text : String) : Prop :=
  ∀ symbol ∈ (Texts.toAsciiLowercase text).toList, SqlPatterns.isWildcard symbol = false

theorem like_eq_contains {text : String} (plain : PlainText text) (value : String) :
    SqliteFactStore.like (Texts.toAsciiLowercase value) (SqliteFactStore.sqliteLikePattern text) =
      Texts.contains (Texts.toAsciiLowercase value) (Texts.toAsciiLowercase text) := by
  rw [SqliteFactStore.like, toList_sqliteLikePattern, Texts.contains]
  apply SqlPatterns.like_eq_occursIn plain
  · rw [Texts.toList_toAsciiLowercase]
    exact SqlPatterns.lowered_map _
  · rw [Texts.toList_toAsciiLowercase]
    exact SqlPatterns.lowered_map _

/-- The filter for a keyword in memory. -/
def containsText (queryText : Option String) (fact : Fact) : Bool :=
  queryText.all fun text =>
    let needle := Texts.toAsciiLowercase text
    Texts.contains (Texts.toAsciiLowercase fact.content) needle ||
      fact.summary.any fun summary => Texts.contains (Texts.toAsciiLowercase summary) needle

theorem selectsText_of_containsText {queryText : Option String} {fact : Fact}
    (contains : containsText queryText fact = true) :
    SqliteFactStore.selectsText queryText fact.content fact.summary = true := by
  cases queryText with
  | none => rfl
  | some text =>
    simp only [containsText, Option.all_some, Bool.or_eq_true, Option.any_eq_true] at contains
    simp only [SqliteFactStore.selectsText, Option.all_some, Bool.or_eq_true]
    rcases contains with content | ⟨summary, present, found⟩
    · exact .inl (like_of_contains content)
    · rw [present]
      exact .inr (like_of_contains found)

/-- An empty text is contained in every text. -/
theorem contains_of_contains_empty {needle : String}
    (empty : Texts.contains (Texts.toAsciiLowercase "") needle = true) (value : String) :
    Texts.contains value needle = true := by
  have nothing : needle.toList = [] := by
    have inNothing : Texts.occursIn needle.toList [] = true := empty
    simpa [Texts.occursIn] using inNothing
  rw [Texts.contains, nothing, SqlPatterns.occursIn_iff]
  exact ⟨value.toList, List.suffix_rfl, List.nil_prefix⟩

theorem selectsText_eq_containsText {queryText : Option String}
    (plain : ∀ text ∈ queryText, PlainText text) (fact : Fact) :
    SqliteFactStore.selectsText queryText fact.content fact.summary = containsText queryText fact := by
  cases queryText with
  | none => rfl
  | some text =>
    simp only [SqliteFactStore.selectsText, containsText, Option.all_some,
      like_eq_contains (plain text rfl)]
    cases fact.summary with
    | some summary => rfl
    | none =>
      rw [Option.getD_none, Option.any_none, Bool.or_false, Bool.or_eq_left_iff_imp]
      intro empty
      exact contains_of_contains_empty empty _

variable (store : MockFactStore) (query : FactSearchQuery) (fact : Fact)

theorem selectedInMemory_eq : selectedInMemory store query fact =
    (decide (fact.tenant = query.tenant) && ((query.includeDeleted || !store.isDeleted fact.id) &&
      query.memoryTypes.all (fun types => decide (fact.memoryType ∈ types)) &&
      containsText query.queryText fact &&
      query.cursor.all (isAfterCursorInDescOrder fact.updatedAt (Uuid.toText fact.id)))) := rfl

/-- SQLite finds all that the store in memory finds. -/
theorem selectedBySqlite_of_inMemory (found : selectedInMemory store query fact = true) :
    selectedBySqlite store query fact = true := by
  rw [selectedInMemory_eq] at found
  simp only [Bool.and_eq_true] at found
  obtain ⟨tenant, ⟨⟨deleted, types⟩, text⟩, cursor⟩ := found
  simp only [selectedBySqlite, Bool.and_eq_true]
  exact ⟨⟨⟨⟨tenant, deleted⟩, (selectsTypes_toStr _ _).mpr (.inr types)⟩,
    selectsText_of_containsText text⟩, cursor⟩

/-- A query with no empty list of types and no wildcard in its text is read alike. -/
theorem selectedBySqlite_eq_inMemory (types : query.memoryTypes ≠ some [])
    (plain : ∀ text ∈ query.queryText, PlainText text) :
    selectedBySqlite store query fact = selectedInMemory store query fact := by
  have sameTypes : SqliteFactStore.selectsTypes query.memoryTypes (memoryTypeToStr fact.memoryType) =
      query.memoryTypes.all (fun types => decide (fact.memoryType ∈ types)) := by
    rw [Bool.eq_iff_iff, selectsTypes_toStr]
    constructor
    · rintro (empty | listed)
      · exact absurd empty types
      · exact listed
    · exact .inr
  rw [selectedInMemory_eq, selectedBySqlite, sameTypes, selectsText_eq_containsText plain]
  simp only [Bool.and_assoc]

/-- The condition in terms of the query alone. -/
theorem readAlike_of_plain (fits : pageFetchLimit query.limit ≤ SqliteFactStore.maxLimit)
    (types : query.memoryTypes ≠ some []) (plain : ∀ text ∈ query.queryText, PlainText text) :
    ReadAlike store query := by
  refine ⟨fits, ?_⟩
  intro fact _ bySqlite inMemory
  rw [selectedBySqlite_eq_inMemory store query fact types plain, inMemory] at bySqlite
  nomatch bySqlite

end Readings

/-! ## The answer of SQLite -/

section Answers

variable {texts : RowTexts} {store : MockFactStore} {rows : FactRows} {query : FactSearchQuery}

def Fact.position (fact : Fact) : Instant ×ₗ Uuid := toLex (fact.updatedAt, fact.id)

def FactRow.position (row : FactRow) : String ×ₗ String := toLex (row.updatedAt, row.id)

theorem comesFirst_iff (left right : Fact) :
    MockFactStore.comesFirst left right ↔ right.position ≤ left.position := by
  rw [Fact.position, Fact.position, Prod.Lex.toLex_le_toLex]
  exact Iff.rfl

theorem rowComesFirst_iff (left right : FactRow) :
    SqliteFactStore.rowComesFirst left right ↔ right.position ≤ left.position := by
  rw [FactRow.position, FactRow.position, Prod.Lex.toLex_le_toLex]
  exact Iff.rfl

/-- Rows are in the order of their facts. -/
theorem Stands.position_lt (chronological : texts.Chronological) {deleted otherDeleted : Bool}
    {fact other : Fact} {row otherRow : FactRow} (stands : Stands texts deleted fact row)
    (otherStands : Stands texts otherDeleted other otherRow) :
    row.position < otherRow.position ↔ fact.position < other.position := by
  have order := chronological _ _ stands.carries.updatedAt otherStands.carries.updatedAt
  have sameInstant := stands.carries.updatedAt.injective otherStands.carries.updatedAt
  simp only [FactRow.position, Fact.position, Prod.Lex.toLex_lt_toLex, stands.updatedAt,
    otherStands.updatedAt, stands.id, otherStands.id, order, sameInstant, Uuid.toText_lt_iff]

/-- The statement selects the rows of the facts that SQLite's reading finds. -/
theorem Stands.selects (chronological : texts.Chronological)
    (cursorReads : ∀ cursor ∈ query.cursor, texts.Represents cursor.lastSortValue) {fact : Fact}
    {row : FactRow} (stands : Stands texts (store.isDeleted fact.id) fact row) :
    SqliteFactStore.selects texts query row = selectedBySqlite store query fact := by
  have behind : SqliteFactStore.selectsBehind texts query.cursor row.updatedAt row.id =
      query.cursor.all (isAfterCursorInDescOrder fact.updatedAt (Uuid.toText fact.id)) := by
    cases present : query.cursor with
    | none => rfl
    | some cursor =>
      have reads := cursorReads cursor present
      have order := chronological _ _ stands.carries.updatedAt reads
      have sameInstant := stands.carries.updatedAt.injective reads
      simp only [SqliteFactStore.selectsBehind, Option.all_some, isAfterCursorInDescOrder,
        stands.updatedAt, stands.id, order]
      rw [Bool.eq_iff_iff]
      simp only [Bool.or_eq_true, Bool.and_eq_true, beq_iff_eq, sameInstant]
  have columns : row.memoryType = memoryTypeToStr fact.memoryType ∧ row.content = fact.content ∧
      row.summary = fact.summary := by
    obtain ⟨metadata, _, same⟩ := stands.bound
    rw [same]
    exact ⟨rfl, rfl, rfl⟩
  rw [SqliteFactStore.selects, stands.ofTenant, stands.isActive, behind, columns.1, columns.2.1,
    columns.2.2]
  rfl

/-- The facts that SQLite's reading finds, in order. -/
def foundBySqlite (store : MockFactStore) (query : FactSearchQuery) : List Fact :=
  (store.facts.rows.filter (selectedBySqlite store query)).insertionSort MockFactStore.comesFirst

theorem mem_foundBySqlite (fact : Fact) : fact ∈ foundBySqlite store query ↔
    fact ∈ store.facts.rows ∧ selectedBySqlite store query fact = true := by
  simp only [foundBySqlite, List.mem_insertionSort, List.mem_filter]

theorem distinctPositions (store : MockFactStore) (keeps : Fact → Bool) :
    ((store.facts.rows.filter keeps).map Fact.position).Nodup := by
  apply List.pairwise_map.mpr
  apply ((List.pairwise_map.mp store.facts.distinct).filter keeps).imp
  intro left right different same
  exact different (Prod.mk.inj (toLex_inj.mp same)).2

theorem foundBySqlite_descending : Descending Fact.position (foundBySqlite store query) :=
  descending_insertionSort comesFirst_iff (distinctPositions store _)

/-- The statement's rows, read one by one, are the facts that SQLite's reading finds. -/
theorem sqlite_answer (chronological : texts.Chronological) (alike : SameFacts texts store rows)
    (cursorReads : ∀ cursor ∈ query.cursor, texts.Represents cursor.lastSortValue)
    (fits : pageFetchLimit query.limit ≤ SqliteFactStore.maxLimit) :
    SqliteFactStore.searchFacts texts query rows =
      .ok ((foundBySqlite store query).take (pageFetchLimit query.limit)) := by
  let found := (rows.rows.filter (SqliteFactStore.selects texts query)).insertionSort
    SqliteFactStore.rowComesFirst
  have foundRow (row : FactRow) : row ∈ found ↔
      row ∈ rows.rows ∧ SqliteFactStore.selects texts query row = true := by
    simp only [found, List.mem_insertionSort, List.mem_filter]
  have distinctRows : ((rows.rows.filter (SqliteFactStore.selects texts query)).map
      FactRow.position).Nodup := by
    apply List.pairwise_map.mpr
    apply ((List.pairwise_map.mp rows.distinct).filter _).imp
    intro left right different same
    exact different (Prod.mk.inj (toLex_inj.mp same)).2
  have descendingRows : Descending FactRow.position found :=
    descending_insertionSort rowComesFirst_iff distinctRows
  obtain ⟨facts, pairs⟩ := @SqlTables.exists_forall₂ _ _
    (fun row fact => row ∈ found ∧ fact ∈ store.facts.rows ∧
      Stands texts (store.isDeleted fact.id) fact row) found (by
    intro row member
    obtain ⟨fact, stored, stands⟩ := alike.fact row ((foundRow row).mp member).1
    exact ⟨fact, member, stored, stands⟩)
  have descendingFacts : Descending Fact.position facts := by
    apply SqlTables.pairwise_of_forall₂ pairs _ descendingRows
    intro row other fact otherFact pair otherPair lower
    exact (otherPair.2.2.position_lt chronological pair.2.2).mp lower
  have sameMembers (fact : Fact) : fact ∈ facts ↔ fact ∈ foundBySqlite store query := by
    rw [mem_foundBySqlite]
    constructor
    · intro member
      obtain ⟨row, _, inFound, stored, stands⟩ := SqlTables.mem_of_forall₂ pairs member
      have selected := ((foundRow row).mp inFound).2
      rw [stands.selects chronological cursorReads] at selected
      exact ⟨stored, selected⟩
    · rintro ⟨stored, selected⟩
      obtain ⟨row, storedRow, stands⟩ := alike.row fact stored
      rw [← stands.selects chronological cursorReads] at selected
      have inFound := (foundRow row).mpr ⟨storedRow, selected⟩
      obtain ⟨other, member, pair⟩ := SqlTables.mem_of_forall₂ pairs.flip inFound
      have sameFact := stands.reads.symm.trans pair.2.2.reads
      rw [Except.ok.inj sameFact]
      exact member
  have sameFacts : facts = foundBySqlite store query := by
    apply descendingFacts.unique foundBySqlite_descending
    rw [List.perm_ext_iff_of_nodup descendingFacts.nodup foundBySqlite_descending.nodup]
    exact sameMembers
  have read : List.Forall₂ (fun row fact => SqliteFactStore.rowToFact texts row = .ok fact)
      found facts := pairs.imp fun row fact pair => pair.2.2.reads
  rw [SqliteFactStore.searchFacts, if_neg (not_lt.mpr fits), ← sameFacts]
  exact SqlTables.mapM_of_forall₂ (List.forall₂_take _ read)

/-- What the store in memory answers, in terms of what SQLite's reading finds. -/
theorem memory_answer : (store.searchFacts query).1 =
    .ok (((foundBySqlite store query).filter (selectedInMemory store query)).take
      (pageFetchLimit query.limit)) := by
  have narrower : store.facts.rows.filter (selectedInMemory store query) =
      (store.facts.rows.filter (selectedBySqlite store query)).filter
        (selectedInMemory store query) := by
    rw [List.filter_filter]
    apply List.filter_congr
    intro fact _
    cases found : selectedInMemory store query fact with
    | false => rfl
    | true => rw [selectedBySqlite_of_inMemory store query fact found]; rfl
  have sorted := insertionSort_filter comesFirst_iff
    (distinctPositions store (selectedBySqlite store query)) (selectedInMemory store query)
  rw [foundBySqlite, ← sorted, ← narrower]
  rfl

/-- How many facts that SQLite's reading finds precede one of them. -/
theorem countP_position (fact : Fact) : (foundBySqlite store query).countP
    (fun other => decide (fact.position < other.position)) = foundBefore store query fact := by
  rw [foundBySqlite, (List.perm_insertionSort _ _).countP_eq, List.countP_filter]
  apply List.countP_congr
  intro other _
  simp only [Fact.position, Prod.Lex.toLex_lt_toLex, Bool.and_eq_true, Bool.or_eq_true,
    decide_eq_true_eq, and_comm]

/-- Over the same facts, both stores answer a query alike just when it is read alike. -/
theorem fact_search_agrees (texts : RowTexts) (chronological : texts.Chronological)
    (store : MockFactStore) (rows : FactRows) (alike : SameFacts texts store rows)
    (query : FactSearchQuery)
    (cursorReads : ∀ cursor ∈ query.cursor, texts.Represents cursor.lastSortValue) :
    (sqliteFactStore texts).searchFacts query rows = mockFactStore.searchFacts query store ↔
      ReadAlike store query := by
  change SqliteFactStore.searchFacts texts query rows = (store.searchFacts query).1 ↔ _
  by_cases fits : pageFetchLimit query.limit ≤ SqliteFactStore.maxLimit
  · rw [sqlite_answer chronological alike cursorReads fits, memory_answer, Except.ok.injEq, eq_comm,
      take_filter_eq_take_iff]
    constructor
    · intro kept
      refine ⟨fits, ?_⟩
      intro fact stored bySqlite notInMemory
      by_contra few
      have member := (mem_foundBySqlite fact).mpr ⟨stored, bySqlite⟩
      have among := (foundBySqlite_descending.mem_take_iff member _).mpr
        ((countP_position fact).trans_lt (not_le.mp few))
      rw [kept fact among] at notInMemory
      nomatch notInMemory
    · rintro ⟨_, preceded⟩ fact among
      by_contra notInMemory
      have member := List.mem_of_mem_take among
      obtain ⟨stored, bySqlite⟩ := (mem_foundBySqlite fact).mp member
      have few := (foundBySqlite_descending.mem_take_iff member _).mp among
      rw [countP_position] at few
      exact absurd (preceded fact stored bySqlite (by simpa using notInMemory)) (not_le.mpr few)
  · rw [SqliteFactStore.searchFacts, if_pos (not_le.mp fits)]
    constructor
    · intro impossible
      nomatch impossible
    · exact fun readAlike => absurd readAlike.1 fits

end Answers

section Sample

/-- The texts of two instants, of one identifier and of empty metadata. -/
def sampleRowTexts : RowTexts where
  toRfc3339 instant :=
    if instant = 0 then "1970-01-01T00:00:00+00:00" else "1970-01-01T00:00:01+00:00"
  parseFromRfc3339 value :=
    if value = "1970-01-01T00:00:00+00:00" then .ok 0
    else if value = "1970-01-01T00:00:01+00:00" then .ok 1000000000
    else .error "input contains invalid characters"
  parseUuid value :=
    if value = "00000000-0000-0000-0000-000000000001" then .ok 1 else .error "invalid length"
  jsonToString
    | .object [] => .ok "\x7b\x7d"
    | _ => .error "not among the samples"
  jsonFromStr text :=
    if text = "\x7b\x7d" then .ok (.object []) else .error "expected value at line 1 column 1"

theorem sampleRowTexts_known (instant : Instant) (reads : sampleRowTexts.Represents instant) :
    instant = 0 ∨ instant = 1000000000 := by
  by_cases epoch : instant = 0
  · exact .inl epoch
  · have other : sampleRowTexts.toRfc3339 instant = "1970-01-01T00:00:01+00:00" := if_neg epoch
    rw [TimestampText.Represents, other] at reads
    exact .inr (Except.ok.inj reads).symm

theorem sampleRowTexts_chronological : sampleRowTexts.Chronological := by
  intro left right leftReads rightReads
  rcases sampleRowTexts_known left leftReads with rfl | rfl <;>
    rcases sampleRowTexts_known right rightReads with rfl | rfl <;> decide

/-- The memory of the sample store as SQLite stores it. -/
def sampleFactRow : FactRow :=
  SqliteFactStore.bindFact sampleRowTexts (sampleFact 1) "\x7b\x7d" none

def sampleFactRows : FactRows := Table.empty.put sampleFactRow

theorem sampleFact_carries : sampleRowTexts.Carries (sampleFact 1) where
  id := by decide
  metadata := ⟨_, rfl, rfl⟩
  validAt := by simp [sampleFact]
  invalidAt := by simp [sampleFact]
  recordedAt := rfl
  updatedAt := rfl

theorem sampleRows_same : SameFacts sampleRowTexts sampleFactStore sampleFactRows := by
  have stands : Stands sampleRowTexts (sampleFactStore.isDeleted (sampleFact 1).id) (sampleFact 1)
      sampleFactRow := ⟨sampleFact_carries, ⟨_, rfl, rfl⟩, rfl⟩
  constructor
  · intro fact stored
    obtain rfl : fact = sampleFact 1 := List.mem_singleton.mp stored
    exact ⟨sampleFactRow, List.mem_singleton_self _, stands⟩
  · intro row stored
    obtain rfl : row = sampleFactRow := List.mem_singleton.mp stored
    exact ⟨sampleFact 1, List.mem_singleton_self _, stands⟩

/-- A search of the sample user's memories. -/
def sampleSearch (memoryTypes : Option (List MemoryType)) (queryText : Option String) :
    FactSearchQuery where
  tenant := sampleTenant
  memoryTypes := memoryTypes
  queryText := queryText
  limit := 10
  cursor := none
  includeDeleted := false

theorem fact_search_agrees_sample :
    (sqliteFactStore sampleRowTexts).searchFacts (sampleSearch none (some "coffee"))
        sampleFactRows =
      mockFactStore.searchFacts (sampleSearch none (some "coffee")) sampleFactStore := by
  apply (fact_search_agrees sampleRowTexts sampleRowTexts_chronological sampleFactStore
    sampleFactRows sampleRows_same (sampleSearch none (some "coffee")) (by
      intro cursor present
      nomatch present)).mpr
  apply readAlike_of_plain
  · decide
  · intro impossible
    nomatch impossible
  · intro text present
    obtain rfl : "coffee" = text := Option.some.inj present
    unfold PlainText
    decide

/-- An empty list of memory types, and a percent sign in the text. -/
theorem fact_search_differs :
    SameFacts sampleRowTexts sampleFactStore sampleFactRows ∧
    (sqliteFactStore sampleRowTexts).searchFacts (sampleSearch (some []) none) sampleFactRows ≠
      mockFactStore.searchFacts (sampleSearch (some []) none) sampleFactStore ∧
    (sqliteFactStore sampleRowTexts).searchFacts (sampleSearch none (some "%")) sampleFactRows ≠
      mockFactStore.searchFacts (sampleSearch none (some "%")) sampleFactStore := by
  refine ⟨sampleRows_same, ?_, ?_⟩
  · intro same
    have counts := congrArg (Except.map List.length) same
    revert counts
    decide +kernel
  · intro same
    have counts := congrArg (Except.map List.length) same
    revert counts
    decide +kernel

end Sample

end Memcore
