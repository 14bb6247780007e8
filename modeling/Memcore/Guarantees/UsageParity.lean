import Memcore.Guarantees.EventParity
import Memcore.Stores.SqliteUsageStore

/-!
# Both usage stores report the same usage

The rows of SQLite are what the events in memory are written as. The conditions of the
statements select the rows of the events that match, the aggregates sum up what the loops
count, and the first ten characters of an instant are the text of its day, so that the
groups are the buckets.
-/
namespace Memcore

open KeyedTables Pages

/-- The event reads back from the texts that are stored for it. -/
structure UsageTexts.CarriesUsage (texts : UsageTexts) (event : ProviderUsageEventRecord) :
    Prop where
  id : texts.parseUuid (Uuid.toText event.id) = .ok event.id
  metadata : ∀ metadata ∈ event.metadata, ∃ text, texts.jsonToString metadata = .ok text ∧
    texts.jsonFromStr text = .ok metadata ∧ Texts.isBlank text = false
  createdAt : texts.Represents event.createdAt

/-- The text of a representable instant begins with the text of its day. Such texts are
read back, and ordered as the days are. -/
structure UsageTexts.Calendar (texts : UsageTexts) (dateText : NaiveDate → String) : Prop where
  begins : ∀ instant, texts.Represents instant →
    SqliteUsageStore.usageDate (texts.toRfc3339 instant) = dateText (dateNaive instant)
  reads : ∀ instant, texts.Represents instant →
    texts.parseDate (dateText (dateNaive instant)) = .ok (dateNaive instant)
  ordered : ∀ left right, texts.Represents left → texts.Represents right →
    (dateText (dateNaive left) < dateText (dateNaive right) ↔ dateNaive left < dateNaive right)

/-- What an event is written as. -/
def usageRow (texts : UsageTexts) (event : ProviderUsageEventRecord) : UsageRow :=
  SqliteUsageStore.bindEvent texts event
    (event.metadata.map fun metadata => (texts.jsonToString metadata).toOption.getD "")

/-- Both stores hold the same events. -/
structure SameUsage (texts : UsageTexts) (events : MockProviderUsageStore) (rows : UsageRows) :
    Prop where
  image : rows.rows = events.map (usageRow texts)
  carried : ∀ event ∈ events, texts.CarriesUsage event

/-! ## Rows and their events -/

section Rows

variable {texts : UsageTexts} {event : ProviderUsageEventRecord}

theorem numberToBool_boolToNumber (value : Bool) : numberToBool (boolToNumber value) = value := by
  cases value <;> rfl

theorem usageMetadata_bound (carries : texts.CarriesUsage event) :
    SqliteUsageStore.optionalMetadataToStr texts event.metadata = .ok (event.metadata.map
      fun metadata => (texts.jsonToString metadata).toOption.getD "") := by
  cases present : event.metadata with
  | none => rfl
  | some metadata =>
    obtain ⟨text, printed, _, _⟩ := carries.metadata metadata present
    rw [SqliteUsageStore.optionalMetadataToStr, printed, Option.map_some, printed]
    rfl

theorem usageMetadata_reads (carries : texts.CarriesUsage event) :
    SqliteUsageStore.optionalMetadataFromStr texts (event.metadata.map
      fun metadata => (texts.jsonToString metadata).toOption.getD "") = .ok event.metadata := by
  cases present : event.metadata with
  | none => rfl
  | some metadata =>
    obtain ⟨text, printed, parsed, notBlank⟩ := carries.metadata metadata present
    have bound : (texts.jsonToString metadata).toOption.getD "" = text := by
      rw [printed]
      rfl
    rw [Option.map_some, bound, SqliteUsageStore.optionalMetadataFromStr,
      if_neg (by simp [notBlank]), parsed]

theorem usageRow_reads (carries : texts.CarriesUsage event) :
    SqliteUsageStore.rowToEvent texts (usageRow texts event) = .ok event := by
  have readId : SqliteUsageStore.rowId texts (Uuid.toText event.id) = .ok event.id := by
    rw [SqliteUsageStore.rowId, carries.id]
  simp only [SqliteUsageStore.rowToEvent, usageRow, SqliteUsageStore.bindEvent, readId,
    capabilityFromStr_toStr, statusFromStr_toStr, usageMetadata_reads carries,
    datetimeFromStr_ok carries.createdAt, numberToBool_boolToNumber, bind, Except.bind, pure,
    Except.pure]

def ProviderUsageEventRecord.position (event : ProviderUsageEventRecord) : Instant ×ₗ Uuid :=
  toLex (event.createdAt, event.id)

theorem usageComesFirst_iff (left right : ProviderUsageEventRecord) :
    MockProviderUsageStore.comesFirst left right ↔ right.position ≤ left.position := by
  rw [ProviderUsageEventRecord.position, ProviderUsageEventRecord.position,
    Prod.Lex.toLex_le_toLex]
  exact Iff.rfl

/-- The bounds and the cursor of a query are representable. -/
structure ReadableQuery (texts : UsageTexts) (query : ProviderUsageQuery) : Prop where
  createdAfter : ∀ instant ∈ query.createdAfter, texts.Represents instant
  createdBefore : ∀ instant ∈ query.createdBefore, texts.Represents instant
  cursor : ∀ position ∈ query.cursor, texts.Represents position.lastSortValue

theorem capability_texts (capability : Option ProviderUsageCapability)
    (own : ProviderUsageCapability) :
    capability.all (fun wanted => decide (capabilityToStr own = capabilityToStr wanted)) =
      capability.all fun wanted => decide (own = wanted) := by
  have same : ∀ wanted, capabilityToStr own = capabilityToStr wanted ↔ own = wanted :=
    fun wanted => ⟨capabilityToStr_injective, congrArg _⟩
  simp only [same]

theorem usageRow_selects (chronological : texts.Chronological) {query : ProviderUsageQuery}
    (readable : ReadableQuery texts query) (carries : texts.CarriesUsage event) :
    SqliteUsageStore.selectsUsage texts query (usageRow texts event) =
      MockProviderUsageStore.matchesQuery event query := by
  rw [MockProviderUsageStore.matchesQuery, ← capability_texts]
  simp only [← decide_not, not_lt, not_le]
  rw [← notBefore_texts chronological carries.createdAt readable.createdAfter,
    ← before_texts chronological carries.createdAt readable.createdBefore]
  rfl

theorem usageRow_selectsDaily (chronological : texts.Chronological)
    {query : ProviderUsageDailyQuery} (afterReads : texts.Represents query.createdAfter)
    (beforeReads : texts.Represents query.createdBefore) (carries : texts.CarriesUsage event) :
    SqliteUsageStore.selectsDailyUsage texts query (usageRow texts event) =
      MockProviderUsageStore.matchesDailyQuery event query := by
  have afterwards := @notBefore_texts _ _ chronological carries.createdAt
    (some query.createdAfter) (by rintro _ ⟨⟩; exact afterReads)
  have beforehand := @before_texts _ _ chronological carries.createdAt
    (some query.createdBefore) (by rintro _ ⟨⟩; exact beforeReads)
  rw [Option.all_some, Option.all_some] at afterwards beforehand
  rw [MockProviderUsageStore.matchesDailyQuery, ← capability_texts, ← afterwards, ← beforehand,
    ← Bool.and_assoc]
  rfl

end Rows

/-! ## Sums -/

section Sums

variable {texts : UsageTexts}

/-- The sums over some events, each on its own. -/
def usageSummaryOf (events : List ProviderUsageEventRecord) : ProviderUsagePersistedSummary where
  totalRequests := events.length
  totalSuccesses := events.countP fun event => decide (event.status = .success)
  totalErrors := events.countP fun event => decide (event.status = .error)
  totalRetries := (events.map ProviderUsageEventRecord.retryCount).sum
  totalFallbacks := events.countP ProviderUsageEventRecord.fallbackUsed
  totalCircuitBlocks := events.countP ProviderUsageEventRecord.circuitBlocked
  totalTimeouts := events.countP ProviderUsageEventRecord.timedOut
  totalInputTokens := (events.map fun event => event.inputTokens.getD 0).sum
  totalOutputTokens := (events.map fun event => event.outputTokens.getD 0).sum
  totalTokens := (events.map fun event => event.totalTokens.getD 0).sum
  totalEstimatedCostUsd := Grouping.sum (events.map ProviderUsageEventRecord.estimatedCostUsd)

theorem sum_concat {γ : Type} [AddMonoid γ] (values : List (Option γ)) (value : Option γ) :
    Grouping.sum (values ++ [value]) = match value with
      | some amount => some ((Grouping.sum values).getD 0 + amount)
      | none => Grouping.sum values := by
  rw [← Grouping.foldl_sum, ← Grouping.foldl_sum, List.foldl_append]
  rfl

/-- One more event is counted. -/
theorem summaryOf_concat (events : List ProviderUsageEventRecord)
    (event : ProviderUsageEventRecord) :
    usageSummaryOf (events ++ [event]) = { (usageSummaryOf events).count event with
      totalEstimatedCostUsd := match event.estimatedCostUsd with
        | some cost => some ((usageSummaryOf events).totalEstimatedCostUsd.getD 0 + cost)
        | none => (usageSummaryOf events).totalEstimatedCostUsd } := by
  simp only [usageSummaryOf, ProviderUsagePersistedSummary.count, List.length_append, List.length_cons,
    List.length_nil, List.countP_append, List.countP_cons, List.countP_nil, List.map_append,
    List.sum_append, List.map_cons, List.map_nil, List.sum_cons, List.sum_nil, sum_concat,
    Nat.zero_add, Nat.add_zero, ProviderUsagePersistedSummary.mk.injEq, true_and]
  refine ⟨?_, ?_, ?_, ?_, ?_, ?_⟩
  · cases event.status <;> rfl
  · cases event.status <;> rfl
  · cases event.fallbackUsed <;> rfl
  · cases event.circuitBlocked <;> rfl
  · cases event.timedOut <;> rfl
  · cases event.estimatedCostUsd <;> rfl

/-- What the loop over the events carries after some of them. -/
theorem foldl_summaryState (events : List ProviderUsageEventRecord) :
    events.foldl SummaryState.add ⟨.default, false, 0⟩ =
      ⟨{ usageSummaryOf events with totalEstimatedCostUsd := none },
        (usageSummaryOf events).totalEstimatedCostUsd.isSome,
        (usageSummaryOf events).totalEstimatedCostUsd.getD 0⟩ := by
  induction events using List.reverseRecOn with
  | nil => rfl
  | append_singleton events event inductionHypothesis =>
    rw [List.foldl_append, inductionHypothesis, summaryOf_concat, List.foldl_cons, List.foldl_nil,
      SummaryState.add]
    cases event.estimatedCostUsd <;> rfl

theorem computeSummary_eq (events : List ProviderUsageEventRecord) :
    computeSummary events = usageSummaryOf events := by
  have cost : (if (usageSummaryOf events).totalEstimatedCostUsd.isSome then
      some ((usageSummaryOf events).totalEstimatedCostUsd.getD 0) else none) =
        (usageSummaryOf events).totalEstimatedCostUsd := by
    cases (usageSummaryOf events).totalEstimatedCostUsd <;> rfl
  simp only [computeSummary, foldl_summaryState, cost]

theorem foldl_addEventToBucket (events : List ProviderUsageEventRecord) (date : NaiveDate) :
    events.foldl addEventToBucket (.empty date) = ⟨usageSummaryOf events, date⟩ := by
  induction events using List.reverseRecOn with
  | nil => rfl
  | append_singleton events event inductionHypothesis =>
    rw [List.foldl_append, inductionHypothesis, summaryOf_concat, List.foldl_cons, List.foldl_nil,
      addEventToBucket]
    cases event.estimatedCostUsd <;> rfl

/-- The aggregates over the rows are the sums over the events. -/
theorem summarize_image (events : List ProviderUsageEventRecord) :
    SqliteUsageStore.summarize (events.map (usageRow texts)) = usageSummaryOf events := by
  have counts : ∀ condition : UsageRow → Bool,
      SqliteUsageStore.coalesceCount condition (events.map (usageRow texts)) =
        events.countP fun event => condition (usageRow texts event) := by
    intro condition
    rw [SqliteUsageStore.coalesceCount, SqliteUsageStore.coalesceSum, Grouping.sum_getD]
    induction events with
    | nil => rfl
    | cons event events inductionHypothesis =>
      simp only [List.map_cons, List.sum_cons, inductionHypothesis, List.countP_cons,
        Option.getD_some, Nat.add_comm]
  have successes : events.countP (fun event =>
      decide ((usageRow texts event).status = "success")) =
        events.countP fun event => decide (event.status = .success) := by
    apply List.countP_congr
    intro event _
    show decide (statusToStr event.status = "success") = true ↔ _
    cases event.status <;> decide
  have errors : events.countP (fun event =>
      decide ((usageRow texts event).status = "error")) =
        events.countP fun event => decide (event.status = .error) := by
    apply List.countP_congr
    intro event _
    show decide (statusToStr event.status = "error") = true ↔ _
    cases event.status <;> decide
  have flags : ∀ flag : ProviderUsageEventRecord → Bool,
      events.countP (fun event => decide (boolToNumber (flag event) = 1)) =
        events.countP flag := by
    intro flag
    apply List.countP_congr
    intro event _
    cases flag event <;> decide
  simp only [SqliteUsageStore.summarize, usageSummaryOf, counts, SqliteUsageStore.coalesceSum,
    Grouping.sum_getD, List.map_map, List.length_map, ProviderUsagePersistedSummary.mk.injEq,
    true_and]
  exact ⟨successes, errors, rfl, flags _, flags _, flags _, rfl, rfl, rfl, rfl⟩

end Sums

/-! ## Queries -/

section Queries

variable {texts : UsageTexts} {encoding : CursorEncoding} {events : MockProviderUsageStore}
  {rows : UsageRows}

theorem usagePositions_nodup (distinct : (events.map ProviderUsageEventRecord.id).Nodup)
    (keeps : ProviderUsageEventRecord → Bool) :
    ((events.filter keeps).map ProviderUsageEventRecord.position).Nodup := by
  apply List.pairwise_map.mpr
  apply ((List.pairwise_map.mp distinct).filter keeps).imp
  intro left right different same
  exact different (Prod.mk.inj (toLex_inj.mp same)).2

/-- A query is answered with the same page, cursor and summary. -/
theorem queryUsage_agree (chronological : texts.Chronological)
    (alike : SameUsage texts events rows)
    (distinct : (events.map ProviderUsageEventRecord.id).Nodup) {query : ProviderUsageQuery}
    (readable : ReadableQuery texts query) :
    (sqliteProviderUsageStore texts encoding).queryUsage query rows =
      (mockProviderUsageStore encoding).queryUsage query events := by
  have selects : ∀ event ∈ events, SqliteUsageStore.selectsUsage texts query
      (usageRow texts event) = MockProviderUsageStore.matchesQuery event query :=
    fun event member => usageRow_selects chronological readable (alike.carried event member)
  have summary : SqliteUsageStore.querySummary texts query rows =
      computeSummary (events.filter fun event =>
        MockProviderUsageStore.matchesQuery event query) := by
    rw [SqliteUsageStore.querySummary, alike.image, SqlTables.filter_image selects,
      summarize_image, computeSummary_eq]
  have page (limit : ℕ) := @SqlTables.select_image _ _ _ (usageRow texts) events
    (SqliteUsageStore.selectsPage texts query)
    (fun event => query.cursor.all (isAfterCursorInDescOrder event.createdAt
      (Uuid.toText event.id)) && MockProviderUsageStore.matchesQuery event query)
    (SqliteUsageStore.rowToEvent texts) SqliteUsageStore.rowComesFirst _
    MockProviderUsageStore.comesFirst _ (pageFetchLimit limit)
    (by
      intro event member
      have behind := selectsBehind_texts chronological (alike.carried event member).createdAt
        event.id readable.cursor
      rw [SqliteUsageStore.selectsPage, selects event member, Bool.and_comm, ← behind]
      rfl)
    (fun left leftMember right rightMember => position_texts chronological
      (alike.carried left leftMember).createdAt (alike.carried right rightMember).createdAt _ _)
    (fun event member => usageRow_reads (alike.carried event member))
  have sorted := insertionSort_filter usageComesFirst_iff
    (usagePositions_nodup distinct fun event => MockProviderUsageStore.matchesQuery event query)
    fun event => query.cursor.all
      (isAfterCursorInDescOrder event.createdAt (Uuid.toText event.id))
  rw [List.filter_filter] at sorted
  simp only [sqliteProviderUsageStore, mockProviderUsageStore, SqliteUsageStore.queryUsage,
    MockProviderUsageStore.queryUsage, summary, alike.image, page, sorted]
  cases validateProviderUsageLimit query.limit with
  | error error => rfl
  | ok limit =>
    show (buildPage encoding (List.take _ _) limit _ >>= _) = (buildPage encoding _ limit _ >>= _)
    rw [buildPage_take]

/-- A daily query is answered with the same buckets. -/
theorem queryUsageDaily_agree {dateText : NaiveDate → String}
    (chronological : texts.Chronological) (calendar : texts.Calendar dateText)
    (alike : SameUsage texts events rows) {query : ProviderUsageDailyQuery}
    (afterReads : texts.Represents query.createdAfter)
    (beforeReads : texts.Represents query.createdBefore) :
    (sqliteProviderUsageStore texts encoding).queryUsageDaily query rows =
      (mockProviderUsageStore encoding).queryUsageDaily query events := by
  let found := events.filter fun event => MockProviderUsageStore.matchesDailyQuery event query
  let day := fun event : ProviderUsageEventRecord => dateNaive event.createdAt
  have reads : ∀ event ∈ found, texts.Represents event.createdAt :=
    fun event member => (alike.carried event (List.mem_filter.mp member).1).createdAt
  have selected : rows.rows.filter (SqliteUsageStore.selectsDailyUsage texts query) =
      found.map (usageRow texts) := by
    rw [alike.image]
    exact SqlTables.filter_image fun event member =>
      usageRow_selectsDaily chronological afterReads beforeReads (alike.carried event member)
  have grouped : Grouping.groups (fun row : UsageRow => SqliteUsageStore.usageDate row.createdAt)
      (found.map (usageRow texts)) = (Grouping.groups day found).map fun group =>
        (dateText group.1, group.2.map (usageRow texts)) :=
    Grouping.groups_image (fun event member => calendar.begins _ (reads event member))
      fun left leftMember right rightMember =>
        calendar.ordered _ _ (reads left leftMember) (reads right rightMember)
  have buckets : (Grouping.groups day found).map (fun group =>
      (group.1, group.2.foldl addEventToBucket (.empty group.1))) =
        (Grouping.groups day found).map fun group =>
          (group.1, (⟨usageSummaryOf group.2, group.1⟩ : ProviderUsageDailyBucket)) := by
    apply List.map_congr_left
    intro group _
    rw [foldl_addEventToBucket]
  have sqlite : (sqliteProviderUsageStore texts encoding).queryUsageDaily query rows =
      .ok ((Grouping.groups day found).map fun group => ⟨usageSummaryOf group.2, group.1⟩) := by
    simp only [sqliteProviderUsageStore, SqliteUsageStore.queryUsageDaily, selected, grouped]
    apply SqlTables.read_image_as
    intro group member
    obtain ⟨date, inKeys, rfl⟩ := List.mem_map.mp member
    obtain ⟨event, stored, rfl⟩ := (Grouping.mem_sortedKeys _ _ _).mp inKeys
    simp only [SqliteUsageStore.rowToDailyBucket, day,
      calendar.reads _ (reads event stored), summarize_image]
  have memory : (mockProviderUsageStore encoding).queryUsageDaily query events =
      .ok ((Grouping.groups day found).map fun group => ⟨usageSummaryOf group.2, group.1⟩) := by
    simp only [mockProviderUsageStore, MockProviderUsageStore.queryUsageDaily]
    rw [Grouping.foldl_upsert day]
    show Except.ok (((Grouping.groups day found).map _).map Prod.snd) = _
    rw [buckets, List.map_map]
    rfl
  rw [sqlite, memory]

end Queries

/-! ## Writes -/

/-- The writes of a usage store. -/
inductive UsageWrite where
  | recordUsageEvent (event : ProviderUsageEventRecord)
  | deleteUsageEventsOlderThan (orgId : String) (cutoff : Instant) (dryRun : Bool)

inductive UsageAnswer where
  | recorded
  | deleted (count : ℕ)

/-- The event that a write brings. -/
def UsageWrite.event? : UsageWrite → Option ProviderUsageEventRecord
  | .recordUsageEvent event => some event
  | .deleteUsageEventsOlderThan _ _ _ => none

/-- The values of a write are representable. -/
def UsageWrite.Carried (texts : UsageTexts) : UsageWrite → Prop
  | .recordUsageEvent event => texts.CarriesUsage event
  | .deleteUsageEventsOlderThan _ cutoff _ => texts.Represents cutoff

/-- The identifiers of the events that writes bring. -/
def recordedUsageIds (writes : List UsageWrite) : List Uuid :=
  (writes.flatMap fun write => write.event?.toList).map ProviderUsageEventRecord.id

section Writes

variable {σ : Type} (store : ProviderUsageStore σ)

def ProviderUsageStore.write (write : UsageWrite) (state : σ) : MemcoreResult UsageAnswer × σ :=
  match write with
  | .recordUsageEvent event =>
      let served := store.recordUsageEvent event state
      (served.1.map fun _ => .recorded, served.2)
  | .deleteUsageEventsOlderThan orgId cutoff dryRun =>
      let served := store.deleteUsageEventsOlderThan orgId cutoff dryRun state
      (served.1.map .deleted, served.2)

def ProviderUsageStore.writeAll : List UsageWrite → σ → List (MemcoreResult UsageAnswer) × σ :=
  Refinement.runAll store.write

end Writes

section Parity

variable {texts : UsageTexts} {encoding : CursorEncoding} {events : MockProviderUsageStore}
  {rows : UsageRows}

/-- A write is answered alike, and leaves both stores with the same events. -/
theorem usageWrite_agrees (chronological : texts.Chronological)
    (alike : SameUsage texts events rows) {write : UsageWrite} (carried : write.Carried texts)
    (fresh : ∀ event ∈ write.event?, ∀ other ∈ events, other.id ≠ event.id) :
    ((sqliteProviderUsageStore texts encoding).write write rows).1 =
        ((mockProviderUsageStore encoding).write write events).1 ∧
      SameUsage texts ((mockProviderUsageStore encoding).write write events).2
        ((sqliteProviderUsageStore texts encoding).write write rows).2 := by
  cases write with
  | recordUsageEvent event =>
    have carries : texts.CarriesUsage event := carried
    obtain ⟨inserted, success, image⟩ := SqlTables.insert_image alike.image
      fun other member same => fresh event rfl other member ((Uuid.toText_inj _ _).mp same)
    have recorded : SqliteUsageStore.recordUsageEvent texts event rows = (.ok (), inserted) := by
      rw [SqliteUsageStore.recordUsageEvent, usageMetadata_bound carries]
      have bound : SqliteUsageStore.bindEvent texts event (event.metadata.map fun metadata =>
          (texts.jsonToString metadata).toOption.getD "") = usageRow texts event := rfl
      simp only [bound, success]
    simp only [ProviderUsageStore.write, sqliteProviderUsageStore, mockProviderUsageStore,
      MockProviderUsageStore.recordUsageEvent, recorded]
    refine ⟨trivial, image, ?_⟩
    intro other member
    rcases List.mem_append.mp member with old | new
    · exact alike.carried other old
    · rw [List.mem_singleton.mp new]
      exact carries
  | deleteUsageEventsOlderThan orgId cutoff dryRun =>
    have agree : ∀ event ∈ events,
        SqliteUsageStore.isOld texts orgId cutoff (usageRow texts event) =
          (decide (event.orgId = orgId) && decide (event.createdAt < cutoff)) := by
      intro event member
      have order := chronological _ _ (alike.carried event member).createdAt carried
      have before : decide (texts.toRfc3339 event.createdAt < texts.toRfc3339 cutoff) =
          decide (event.createdAt < cutoff) := decide_eq_decide.mpr order
      rw [SqliteUsageStore.isOld, ← before]
      rfl
    simp only [ProviderUsageStore.write, sqliteProviderUsageStore, mockProviderUsageStore,
      SqliteUsageStore.deleteUsageEventsOlderThan,
      MockProviderUsageStore.deleteUsageEventsOlderThan]
    cases dryRun with
    | true =>
      simp only [if_true]
      refine ⟨?_, alike⟩
      rw [alike.image, SqlTables.countP_image agree]
    | false =>
      simp only [Bool.false_eq_true, if_false]
      obtain ⟨count, image⟩ := SqlTables.delete_image alike.image agree
      refine ⟨by rw [count], image, ?_⟩
      intro event member
      exact alike.carried event (List.mem_filter.mp member).1

theorem usageWrite_sublist (write : UsageWrite) (events : MockProviderUsageStore) :
    ((mockProviderUsageStore encoding).write write events).2.Sublist
      (events ++ write.event?.toList) := by
  cases write with
  | recordUsageEvent event => exact List.Sublist.refl _
  | deleteUsageEventsOlderThan orgId cutoff dryRun =>
    simp only [ProviderUsageStore.write, mockProviderUsageStore,
      MockProviderUsageStore.deleteUsageEventsOlderThan, UsageWrite.event?, Option.toList_none,
      List.append_nil]
    split
    · exact List.Sublist.refl _
    · exact List.filter_sublist

/-- Both stores hold the same events, with identifiers that the writes to come do not bring. -/
def SameUsageAhead (texts : UsageTexts) (writes : List UsageWrite) (rows : UsageRows)
    (events : MockProviderUsageStore) : Prop :=
  SameUsage texts events rows ∧ (∀ write ∈ writes, write.Carried texts) ∧
    (events.map ProviderUsageEventRecord.id ++ recordedUsageIds writes).Nodup

theorem usageWrites_agree (chronological : texts.Chronological) {writes : List UsageWrite}
    (ahead : SameUsageAhead texts writes rows events) :
    ((sqliteProviderUsageStore texts encoding).writeAll writes rows).1 =
        ((mockProviderUsageStore encoding).writeAll writes events).1 ∧
      SameUsageAhead texts [] ((sqliteProviderUsageStore texts encoding).writeAll writes rows).2
        ((mockProviderUsageStore encoding).writeAll writes events).2 := by
  apply Refinement.runAll_agree (SameUsageAhead texts) _ ahead
  rintro write rest rows events ⟨alike, carried, distinct⟩
  have split : recordedUsageIds (write :: rest) =
      write.event?.toList.map ProviderUsageEventRecord.id ++ recordedUsageIds rest := by
    simp only [recordedUsageIds, List.flatMap_cons, List.map_append]
  rw [split, ← List.append_assoc, ← List.map_append] at distinct
  have fresh := fresh_of_distinct (List.nodup_append.mp distinct).1
  obtain ⟨sameAnswer, later⟩ :=
    usageWrite_agrees chronological alike (carried write List.mem_cons_self) fresh
  refine ⟨sameAnswer, later, fun other member => carried other (List.mem_cons_of_mem _ member), ?_⟩
  exact distinct.sublist (((usageWrite_sublist write events).map _).append (List.Sublist.refl _))

end Parity

/-- After the same writes to empty stores, all answers have been the same, the same events
are left, and every query is answered with the same page, cursor and summary, or with the
same buckets. -/
theorem usage_stores_agree (texts : UsageTexts) (chronological : texts.Chronological)
    (dateText : NaiveDate → String) (calendar : texts.Calendar dateText)
    (encoding : CursorEncoding) (writes : List UsageWrite)
    (carried : ∀ write ∈ writes, write.Carried texts) (distinct : (recordedUsageIds writes).Nodup) :
    let sqlite := (sqliteProviderUsageStore texts encoding).writeAll writes Table.empty
    let memory := (mockProviderUsageStore encoding).writeAll writes []
    sqlite.1 = memory.1 ∧
    sqlite.2.rows.mapM (SqliteUsageStore.rowToEvent texts) = .ok memory.2 ∧
    (∀ query, ReadableQuery texts query →
      (sqliteProviderUsageStore texts encoding).queryUsage query sqlite.2 =
        (mockProviderUsageStore encoding).queryUsage query memory.2) ∧
    ∀ query : ProviderUsageDailyQuery, texts.Represents query.createdAfter →
      texts.Represents query.createdBefore →
      (sqliteProviderUsageStore texts encoding).queryUsageDaily query sqlite.2 =
        (mockProviderUsageStore encoding).queryUsageDaily query memory.2 := by
  intro sqlite memory
  have empty : SameUsage texts [] Table.empty := ⟨rfl, fun _ member => nomatch member⟩
  obtain ⟨answers, alike, _, nothingAhead⟩ :=
    @usageWrites_agree texts encoding [] Table.empty chronological writes
      ⟨empty, carried, distinct⟩
  have ids := (List.nodup_append.mp nothingAhead).1
  refine ⟨answers, ?_, ?_, ?_⟩
  · rw [alike.image]
    exact SqlTables.read_image fun event member => usageRow_reads (alike.carried event member)
  · exact fun query readable => queryUsage_agree chronological alike ids readable
  · exact fun query afterReads beforeReads =>
      queryUsageDaily_agree chronological calendar alike afterReads beforeReads

/-! ## One call of a provider -/

section Sample

def sampleUsageTexts : UsageTexts where
  toRowTexts := sampleRowTexts
  parseDate value := if value = "1970-01-01" then .ok 0 else .error "input is too short"

/-- The representable instants of the sample are on the first day. -/
theorem sampleUsageTexts_calendar : sampleUsageTexts.Calendar fun _ => "1970-01-01" := by
  have first : ∀ instant, sampleUsageTexts.Represents instant → dateNaive instant = 0 := by
    intro instant reads
    rcases sampleRowTexts_known instant reads with rfl | rfl <;> decide
  refine ⟨?_, ?_, ?_⟩
  · intro instant reads
    rcases sampleRowTexts_known instant reads with rfl | rfl <;> decide
  · intro instant reads
    rw [first instant reads]
    rfl
  · intro left right leftReads rightReads
    rw [first left leftReads, first right rightReads]
    simp

def sampleUsage : ProviderUsageEventRecord where
  id := 1
  orgId := sampleTenant.orgId
  userId := some sampleTenant.userId
  providerName := "openai"
  modelName := none
  capability := .llm
  operationName := "extract_facts"
  status := .success
  inputTokens := some 120
  outputTokens := none
  totalTokens := some 120
  retryCount := 1
  fallbackUsed := true
  circuitBlocked := false
  timedOut := false
  estimatedCostUsd := some (1 / 4)
  metadata := some (.object [])
  createdAt := 0

/-- The buckets of the days up to a second after the beginning. -/
def sampleDailyQuery : ProviderUsageDailyQuery :=
  ⟨sampleTenant.orgId, none, none, some .llm, 0, 1000000000⟩

def sampleUsageQuery : ProviderUsageQuery :=
  ⟨sampleTenant.orgId, some sampleTenant.userId, none, none, none, none, none, none, 10, none⟩

/-- An encoding for pages that have no successor. -/
def sampleUsageEncoding : CursorEncoding where
  toJson _ := .error "not among the samples"
  fromJson _ := .error "expected value at line 1 column 1"
  encode _ := ""
  decode _ := .error "invalid byte"

theorem usage_stores_agree_sample :
    let sqlite := sqliteProviderUsageStore sampleUsageTexts sampleUsageEncoding
    let memory := mockProviderUsageStore sampleUsageEncoding
    let writes := [UsageWrite.recordUsageEvent sampleUsage]
    sqlite.queryUsage sampleUsageQuery (sqlite.writeAll writes Table.empty).2 =
        memory.queryUsage sampleUsageQuery (memory.writeAll writes []).2 ∧
      sqlite.queryUsageDaily sampleDailyQuery (sqlite.writeAll writes Table.empty).2 =
        memory.queryUsageDaily sampleDailyQuery (memory.writeAll writes []).2 := by
  have carried : ∀ write ∈ [UsageWrite.recordUsageEvent sampleUsage],
      write.Carried sampleUsageTexts := by
    intro write member
    obtain rfl : write = _ := List.mem_singleton.mp member
    refine ⟨by decide +kernel, ?_, rfl⟩
    rintro metadata ⟨⟩
    exact ⟨_, rfl, rfl, by decide +kernel⟩
  obtain ⟨_, _, queries, daily⟩ := usage_stores_agree sampleUsageTexts
    sampleRowTexts_chronological _ sampleUsageTexts_calendar sampleUsageEncoding
    [.recordUsageEvent sampleUsage] carried (by decide)
  constructor
  · apply queries
    constructor <;> simp [sampleUsageQuery]
  · exact daily sampleDailyQuery rfl rfl

end Sample

end Memcore
