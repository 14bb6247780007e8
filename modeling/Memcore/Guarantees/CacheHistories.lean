import Memcore.Context.Cache
import Memcore.Foundations.Refinement

/-!
# What the in-memory context cache remembers

The cache is driven by any calls at any times. Which of several entries created at
the same time goes first depends on the order in which a hash map lists them, so
making room is a relation here: any entry created first may go. The cache that
resolves ties by the order of its table is one of those described.

A run records what every call was answered and which entries went to make room.
From the record alone one can tell which entry stands under a key, and a lookup
answers with that entry exactly as long as its time has not passed.
-/
namespace Memcore

open KeyedTables Refinement

abbrev CacheRow := ContextCacheKey × CachedContextEntry

abbrev CacheTable := Table ContextCacheKey CacheRow Prod.fst

/-! ## Making room -/

/-- As long as more entries are held than allowed, one of those created first goes. -/
inductive MakesRoom (capacity : ℕ) : CacheTable → List CacheRow → CacheTable → Prop where
  | done {table : CacheTable} (fits : table.rows.length ≤ capacity) :
      MakesRoom capacity table [] table
  | evict {table final : CacheTable} {row : CacheRow} {gone : List CacheRow}
      (full : capacity < table.rows.length) (stored : row ∈ table.rows)
      (first : ∀ other ∈ table.rows, row.2.createdAt ≤ other.2.createdAt)
      (rest : MakesRoom capacity (table.retain fun other => decide (other.1 ≠ row.1)) gone final) :
      MakesRoom capacity table (row :: gone) final

namespace MakesRoom

variable {capacity : ℕ} {table final : CacheTable} {gone : List CacheRow}

theorem fits (room : MakesRoom capacity table gone final) : final.rows.length ≤ capacity := by
  induction room with
  | done fits => exact fits
  | evict _ _ _ _ inductionHypothesis => exact inductionHypothesis

theorem gone_stored (room : MakesRoom capacity table gone final) :
    ∀ row ∈ gone, row ∈ table.rows := by
  induction room with
  | done => simp
  | evict _ stored _ _ inductionHypothesis =>
    intro row member
    rcases List.mem_cons.mp member with rfl | later
    · exact stored
    · exact ((Table.mem_retain _ _ _).mp (inductionHypothesis row later)).1

/-- What is kept is everything but the keys that went. -/
theorem mem_final (room : MakesRoom capacity table gone final) (row : CacheRow) :
    row ∈ final.rows ↔ row ∈ table.rows ∧ ∀ other ∈ gone, other.1 ≠ row.1 := by
  induction room with
  | done => simp
  | @evict _ _ first _ _ _ _ _ inductionHypothesis =>
    rw [inductionHypothesis, Table.mem_retain, decide_eq_true_eq, List.forall_mem_cons, and_assoc]
    exact and_congr_right fun _ => and_congr_left fun _ => ne_comm

/-- Nothing that went was created after anything kept. -/
theorem gone_first (room : MakesRoom capacity table gone final) :
    ∀ row ∈ gone, ∀ kept ∈ final.rows, row.2.createdAt ≤ kept.2.createdAt := by
  induction room with
  | done => simp
  | evict _ _ first rest inductionHypothesis =>
    intro row member kept keptStored
    rcases List.mem_cons.mp member with rfl | later
    · have before := ((rest.mem_final kept).mp keptStored).1
      exact first kept ((Table.mem_retain _ _ _).mp before).1
    · exact inductionHypothesis row later kept keptStored

theorem length_final (room : MakesRoom capacity table gone final) :
    final.rows.length + gone.length = table.rows.length := by
  induction room with
  | done => rfl
  | evict _ stored _ _ inductionHypothesis =>
    have removed := Table.length_without_key _ stored
    rw [List.length_cons]
    omega

/-- No more goes than has to. -/
theorem length_gone (room : MakesRoom capacity table gone final) :
    gone.length = table.rows.length - capacity := by
  induction room with
  | done fits => rw [List.length_nil, Nat.sub_eq_zero_of_le fits]
  | evict full stored _ _ inductionHypothesis =>
    have removed := Table.length_without_key _ stored
    rw [List.length_cons]
    omega

end MakesRoom

/-! ## The cache of the model resolves ties by the order of its table -/

theorem InMemoryContextCache.oldest_eq_none {rows : List CacheRow} :
    InMemoryContextCache.oldest rows = none ↔ rows = [] := by
  cases rows with
  | nil => simp [InMemoryContextCache.oldest]
  | cons row rows =>
    cases later : InMemoryContextCache.oldest rows with
    | none => simp [InMemoryContextCache.oldest, later]
    | some other => simp only [InMemoryContextCache.oldest, later]; split_ifs <;> simp

theorem InMemoryContextCache.oldest_first {rows : List CacheRow} {row : CacheRow}
    (found : InMemoryContextCache.oldest rows = some row) :
    row ∈ rows ∧ ∀ other ∈ rows, row.2.createdAt ≤ other.2.createdAt := by
  induction rows generalizing row with
  | nil => simp [InMemoryContextCache.oldest] at found
  | cons head rows inductionHypothesis =>
    cases later : InMemoryContextCache.oldest rows with
    | none =>
      obtain rfl := InMemoryContextCache.oldest_eq_none.mp later
      obtain rfl : head = row := by simpa [InMemoryContextCache.oldest] using found
      simp
    | some other =>
      obtain ⟨listed, least⟩ := inductionHypothesis later
      simp only [InMemoryContextCache.oldest, later] at found
      split_ifs at found with earlier
      · obtain rfl := Option.some.inj found
        refine ⟨List.mem_cons_self, ?_⟩
        intro another member
        rcases List.mem_cons.mp member with rfl | member
        · exact le_rfl
        · exact earlier.trans (least another member)
      · obtain rfl := Option.some.inj found
        refine ⟨List.mem_cons_of_mem _ listed, ?_⟩
        intro another member
        rcases List.mem_cons.mp member with rfl | member
        · exact (lt_of_not_ge earlier).le
        · exact least another member

theorem InMemoryContextCache.dropOldest_makesRoom (cache : InMemoryContextCache) (count : ℕ)
    (excess : cache.entries.rows.length - cache.maxEntries = count) :
    ∃ gone, MakesRoom cache.maxEntries cache.entries gone (cache.dropOldest count).entries ∧
      (cache.dropOldest count).maxEntries = cache.maxEntries := by
  induction count generalizing cache with
  | zero => exact ⟨[], .done (by omega), rfl⟩
  | succ count inductionHypothesis =>
    cases found : InMemoryContextCache.oldest cache.entries.rows with
    | none =>
      have none_stored := InMemoryContextCache.oldest_eq_none.mp found
      rw [none_stored, List.length_nil] at excess
      omega
    | some row =>
      obtain ⟨stored, first⟩ := InMemoryContextCache.oldest_first found
      have removed : (cache.remove row.1).entries.rows.length + 1 = cache.entries.rows.length :=
        Table.length_without_key cache.entries stored
      have smaller : (cache.remove row.1).entries.rows.length -
          (cache.remove row.1).maxEntries = count := by
        show (cache.remove row.1).entries.rows.length - cache.maxEntries = count
        omega
      obtain ⟨gone, room, sameBound⟩ := inductionHypothesis (cache.remove row.1) smaller
      have dropped : cache.dropOldest (count + 1) = (cache.remove row.1).dropOldest count := by
        rw [InMemoryContextCache.dropOldest, found]
      rw [dropped]
      exact ⟨row :: gone, .evict (by omega) stored first room, sameBound⟩

theorem InMemoryContextCache.evictOldest_makesRoom (cache : InMemoryContextCache) :
    ∃ gone, MakesRoom cache.maxEntries cache.entries gone cache.evictOldest.entries ∧
      cache.evictOldest.maxEntries = cache.maxEntries :=
  cache.dropOldest_makesRoom _ rfl

/-! ## Turns and runs -/

/-- One call with its time, its answer and the entries that made room for it. -/
structure CacheTurn where
  now : Instant
  call : CacheCall
  answer : call.Answer
  gone : List CacheRow

/-- The table before room is made: what has expired is purged, and the entry is stored. -/
def InMemoryContextCache.stored (cache : InMemoryContextCache) (now : Instant)
    (key : ContextCacheKey) (entry : CachedContextEntry) : CacheTable :=
  (cache.entries.retain fun row => !row.2.isFullyExpired now).put (key, entry)

/-- How the cache may serve a call, with any order of a hash map. -/
inductive Serves (cache : InMemoryContextCache) : CacheTurn → InMemoryContextCache → Prop where
  | get (now : Instant) (key : ContextCacheKey) :
      Serves cache ⟨now, .get key, (cache.get now key).1, []⟩ (cache.get now key).2
  | getAny (now : Instant) (key : ContextCacheKey) :
      Serves cache ⟨now, .getAny key, (cache.getAny now key).1, []⟩ (cache.getAny now key).2
  | set (now : Instant) (key : ContextCacheKey) (entry : CachedContextEntry)
      {gone : List CacheRow} {final : CacheTable}
      (room : MakesRoom cache.maxEntries (cache.stored now key entry) gone final) :
      Serves cache ⟨now, .set key entry, (), gone⟩ ⟨cache.maxEntries, final⟩
  | invalidateUser (now : Instant) (orgId userId : String) :
      Serves cache ⟨now, .invalidateUser orgId userId, cache.entries.rows.length -
        (cache.invalidateUser ⟨orgId, userId⟩).entries.rows.length, []⟩
        (cache.invalidateUser ⟨orgId, userId⟩)

/-- What the cache of the model does is one of the ways to serve a call. -/
theorem InMemoryContextCache.serve_serves (cache : InMemoryContextCache) (now : Instant)
    (call : CacheCall) : ∃ answer gone, (cache.serve now call).1 = .ok answer ∧
      Serves cache ⟨now, call, answer, gone⟩ (cache.serve now call).2 := by
  cases call with
  | get key => exact ⟨_, [], rfl, .get now key⟩
  | getAny key => exact ⟨_, [], rfl, .getAny now key⟩
  | set key entry =>
    obtain ⟨gone, room, sameBound⟩ := InMemoryContextCache.evictOldest_makesRoom
      ⟨cache.maxEntries, cache.stored now key entry⟩
    refine ⟨(), gone, rfl, ?_⟩
    have final : cache.set now key entry = ⟨cache.maxEntries, (cache.set now key entry).entries⟩ :=
      congrArg (fun bound => InMemoryContextCache.mk bound _) sameBound
    show Serves cache _ (cache.set now key entry)
    rw [final]
    exact .set now key entry room
  | invalidateUser orgId userId => exact ⟨_, [], rfl, .invalidateUser now orgId userId⟩

/-- Any calls on a new cache, with a clock that does not run backwards. -/
inductive CacheRun (maxEntries : ℕ) : List CacheTurn → InMemoryContextCache → Prop where
  | start : CacheRun maxEntries [] (InMemoryContextCache.new maxEntries)
  | next {turns : List CacheTurn} {cache after : InMemoryContextCache} {turn : CacheTurn}
      (run : CacheRun maxEntries turns cache)
      (clock : ∀ earlier ∈ turns, earlier.now ≤ turn.now)
      (served : Serves cache turn after) : CacheRun maxEntries (turns ++ [turn]) after

/-! ## What stands under a key -/

namespace CacheTurn

/-- No entry of the key made room for another. -/
def Spares (turn : CacheTurn) (key : ContextCacheKey) : Prop := ∀ row ∈ turn.gone, row.1 ≠ key

/-- The entry is stored under the key, and stays. -/
def Stores (turn : CacheTurn) (key : ContextCacheKey) (entry : CachedContextEntry) : Prop :=
  turn.call = .set key entry ∧ turn.Spares key

/-- Nothing is stored under the key, its tenant is not invalidated, and it makes no room. -/
def Leaves (turn : CacheTurn) (key : ContextCacheKey) : Prop :=
  (∀ entry, turn.call ≠ .set key entry) ∧
    turn.call ≠ .invalidateUser key.orgId key.userId ∧ turn.Spares key

end CacheTurn

/-- The entry is the last one set for the key, has not made room for another since, and the
key's tenant has not been invalidated since. -/
def StandsInCache (turns : List CacheTurn) (key : ContextCacheKey) (entry : CachedContextEntry) :
    Prop :=
  Lastly (fun turn => turn.Stores key entry) (fun turn => turn.Leaves key) turns

/-- The table holds entries that stand, and all of them but those whose time has passed. -/
structure Remembers (maxEntries : ℕ) (turns : List CacheTurn) (cache : InMemoryContextCache) :
    Prop where
  bound : cache.maxEntries = max maxEntries 1
  fits : cache.entries.rows.length ≤ cache.maxEntries
  stands : ∀ key entry, (key, entry) ∈ cache.entries.rows → StandsInCache turns key entry
  stored : ∀ key entry, StandsInCache turns key entry → (key, entry) ∈ cache.entries.rows ∨
    ∃ turn ∈ turns, entry.isFullyExpired turn.now = true

/-- Both lookups leave the same table. -/
theorem InMemoryContextCache.get_after (cache : InMemoryContextCache) (now : Instant)
    (key : ContextCacheKey) : (cache.get now key).2 = (cache.getAny now key).2 := by
  unfold InMemoryContextCache.get InMemoryContextCache.getAny
  cases cache.entries.find? key with
  | none => rfl
  | some row =>
    dsimp only
    split_ifs <;> rfl

/-- A lookup drops no entry whose time has not passed. -/
theorem InMemoryContextCache.mem_getAny_or_expired {cache : InMemoryContextCache}
    {now : Instant} {key : ContextCacheKey} {row : CacheRow}
    (stored : row ∈ cache.entries.rows) :
    row ∈ (cache.getAny now key).2.entries.rows ∨ row.2.isFullyExpired now = true := by
  unfold InMemoryContextCache.getAny
  split
  · exact .inl stored
  · rename_i entry found
    obtain ⟨own, ownKey⟩ := (cache.entries.find?_eq_some key _).mp found
    split_ifs with expired
    · by_cases same : row.1 = key
      · obtain rfl := cache.entries.eq_of_key stored own (same.trans ownKey.symm)
        exact .inr expired
      · exact .inl ((InMemoryContextCache.mem_remove _ _ _).mpr ⟨stored, same⟩)
    · exact .inl stored

theorem InMemoryContextCache.getAny_smaller (cache : InMemoryContextCache) (now : Instant)
    (key : ContextCacheKey) :
    (cache.getAny now key).2.maxEntries = cache.maxEntries ∧
      (cache.getAny now key).2.entries.rows.length ≤ cache.entries.rows.length := by
  unfold InMemoryContextCache.getAny
  split
  · exact ⟨rfl, le_rfl⟩
  · split_ifs
    · exact ⟨rfl, List.length_filter_le _ _⟩
    · exact ⟨rfl, le_rfl⟩

namespace Remembers

variable {maxEntries : ℕ} {turns : List CacheTurn} {cache after : InMemoryContextCache}
  {turn : CacheTurn}

theorem start : Remembers maxEntries [] (InMemoryContextCache.new maxEntries) where
  bound := rfl
  fits := Nat.zero_le _
  stands := fun _ _ stored => absurd stored (List.not_mem_nil)
  stored := fun _ _ stands => absurd stands (not_lastly_nil _ _)

/-- A turn that stores nothing, and after which the entries left alone are those kept or
past their time. -/
theorem next_dropping (remembers : Remembers maxEntries turns cache)
    (sameBound : after.maxEntries = cache.maxEntries)
    (smaller : after.entries.rows.length ≤ cache.entries.rows.length)
    (stores : ∀ key entry, turn.call ≠ .set key entry)
    (kept : ∀ row ∈ after.entries.rows, row ∈ cache.entries.rows ∧ turn.Leaves row.1)
    (dropped : ∀ row ∈ cache.entries.rows, turn.Leaves row.1 →
      row ∈ after.entries.rows ∨ row.2.isFullyExpired turn.now = true) :
    Remembers maxEntries (turns ++ [turn]) after where
  bound := sameBound.trans remembers.bound
  fits := sameBound ▸ smaller.trans remembers.fits
  stands := by
    intro key entry member
    obtain ⟨before, leaves⟩ := kept _ member
    exact (lastly_append_one _ _ _ _).mpr (.inr ⟨remembers.stands key entry before, leaves⟩)
  stored := by
    intro key entry stands
    rcases (lastly_append_one _ _ _ _).mp stands with stored | ⟨stands, leaves⟩
    · exact absurd stored.1 (stores key entry)
    · rcases remembers.stored key entry stands with stored | ⟨earlier, member, expired⟩
      · refine (dropped _ stored leaves).imp_right fun expired => ?_
        exact ⟨turn, by simp, expired⟩
      · exact .inr ⟨earlier, by simp [member], expired⟩

theorem next_lookup (remembers : Remembers maxEntries turns cache) (now : Instant)
    (key : ContextCacheKey) (looks : turn.call = .get key ∨ turn.call = .getAny key)
    (sameTime : turn.now = now) (nothing : turn.gone = []) :
    Remembers maxEntries (turns ++ [turn]) (cache.getAny now key).2 := by
  have leaves : ∀ other, turn.Leaves other := by
    intro other
    refine ⟨fun entry => ?_, ?_, by simp [CacheTurn.Spares, nothing]⟩
    · rcases looks with call | call <;> simp [call]
    · rcases looks with call | call <;> simp [call]
  obtain ⟨sameBound, smaller⟩ := cache.getAny_smaller now key
  refine remembers.next_dropping sameBound smaller ?_ ?_ ?_
  · rcases looks with call | call <;> simp [call]
  · exact fun row member => ⟨InMemoryContextCache.mem_getAny member, leaves row.1⟩
  · intro row member _
    exact sameTime ▸ InMemoryContextCache.mem_getAny_or_expired member

theorem next_invalidateUser (remembers : Remembers maxEntries turns cache)
    (orgId userId : String) (invalidates : turn.call = .invalidateUser orgId userId)
    (nothing : turn.gone = []) :
    Remembers maxEntries (turns ++ [turn]) (cache.invalidateUser ⟨orgId, userId⟩) := by
  have leaves_iff : ∀ key : ContextCacheKey, turn.Leaves key ↔ key.tenant ≠ ⟨orgId, userId⟩ := by
    intro key
    simp only [CacheTurn.Leaves, CacheTurn.Spares, invalidates, nothing, ContextCacheKey.tenant]
    simp [eq_comm]
  refine remembers.next_dropping rfl (List.length_filter_le _ _) (by simp [invalidates]) ?_ ?_
  · intro row member
    obtain ⟨before, other⟩ := (InMemoryContextCache.mem_invalidateUser _ _ _).mp member
    exact ⟨before, (leaves_iff row.1).mpr other⟩
  · intro row member leaves
    have other := (leaves_iff row.1).mp leaves
    exact .inl ((InMemoryContextCache.mem_invalidateUser _ _ _).mpr ⟨member, other⟩)

theorem next_set (remembers : Remembers maxEntries turns cache) (now : Instant)
    (key : ContextCacheKey) (entry : CachedContextEntry) {gone : List CacheRow}
    {final : CacheTable} (sets : turn.call = .set key entry) (sameTime : turn.now = now)
    (sameGone : turn.gone = gone)
    (room : MakesRoom cache.maxEntries (cache.stored now key entry) gone final) :
    Remembers maxEntries (turns ++ [turn]) ⟨cache.maxEntries, final⟩ where
  bound := remembers.bound
  fits := room.fits
  stands := by
    intro other value member
    obtain ⟨before, spared⟩ := (room.mem_final _).mp member
    have spares : turn.Spares other := by
      intro row listed
      exact spared row (sameGone ▸ listed)
    refine (lastly_append_one _ _ _ _).mpr ?_
    rcases (Table.mem_put _ _ _).mp before with own | ⟨kept, different⟩
    · obtain ⟨rfl, rfl⟩ := Prod.mk.inj own
      exact .inl ⟨sets, spares⟩
    · have stored := ((Table.mem_retain _ _ _).mp kept).1
      refine .inr ⟨remembers.stands other value stored, ?_, by simp [sets], spares⟩
      intro entry same
      rw [sets] at same
      exact different (CacheCall.set.inj same).1.symm
  stored := by
    intro other value stands
    rcases (lastly_append_one _ _ _ _).mp stands with ⟨own, spares⟩ | ⟨stands, others, _, spares⟩
    · rw [sets] at own
      obtain ⟨rfl, rfl⟩ := CacheCall.set.inj own
      refine .inl ((room.mem_final _).mpr ⟨(Table.mem_put _ _ _).mpr (.inl rfl), ?_⟩)
      intro row listed
      exact spares row (sameGone ▸ listed)
    · have different : other ≠ key := by
        rintro rfl
        exact others entry sets
      rcases remembers.stored other value stands with stored | ⟨earlier, member, expired⟩
      · cases time : value.isFullyExpired now with
        | true => exact .inr ⟨turn, by simp, sameTime ▸ time⟩
        | false =>
          have purged : (other, value) ∈ (cache.entries.retain fun row =>
              !row.2.isFullyExpired now).rows :=
            (Table.mem_retain _ _ _).mpr ⟨stored, by simp [time]⟩
          refine .inl ((room.mem_final _).mpr ⟨(Table.mem_put _ _ _).mpr (.inr
            ⟨purged, different⟩), ?_⟩)
          intro row listed
          exact spares row (sameGone ▸ listed)
      · exact .inr ⟨earlier, by simp [member], expired⟩

theorem next (remembers : Remembers maxEntries turns cache) (served : Serves cache turn after) :
    Remembers maxEntries (turns ++ [turn]) after := by
  cases served with
  | get now key =>
    rw [InMemoryContextCache.get_after]
    exact remembers.next_lookup now key (.inl rfl) rfl rfl
  | getAny now key => exact remembers.next_lookup now key (.inr rfl) rfl rfl
  | set now key entry room => exact remembers.next_set now key entry rfl rfl rfl room
  | invalidateUser now orgId userId => exact remembers.next_invalidateUser orgId userId rfl rfl

end Remembers

theorem CacheRun.remembers {maxEntries : ℕ} {turns : List CacheTurn}
    {cache : InMemoryContextCache} (run : CacheRun maxEntries turns cache) :
    Remembers maxEntries turns cache := by
  induction run with
  | start => exact Remembers.start
  | next _ _ served inductionHypothesis => exact inductionHypothesis.next served

/-! ## What each call answers -/

namespace InMemoryContextCache

theorem getAny_eq_some {cache : InMemoryContextCache} {now : Instant} {key : ContextCacheKey}
    {entry : CachedContextEntry} : (cache.getAny now key).1 = some entry ↔
      (key, entry) ∈ cache.entries.rows ∧ entry.isFullyExpired now = false := by
  constructor
  · intro hit
    refine ⟨getAny_some hit, ?_⟩
    have found := (cache.entries.find?_eq_some key _).mpr ⟨getAny_some hit, rfl⟩
    rw [getAny, found] at hit
    by_contra expired
    rw [Bool.not_eq_false] at expired
    simp [expired] at hit
  · rintro ⟨stored, unexpired⟩
    have found := (cache.entries.find?_eq_some key _).mpr ⟨stored, rfl⟩
    rw [getAny, found]
    simp [unexpired]

theorem get_eq_some {cache : InMemoryContextCache} {now : Instant} {key : ContextCacheKey}
    {entry : CachedContextEntry} : (cache.get now key).1 = some entry ↔
      (cache.getAny now key).1 = some entry ∧ entry.isFresh now = true := by
  unfold get getAny
  cases cache.entries.find? key with
  | none => simp
  | some row =>
    dsimp only
    split_ifs with expired fresh
    · simp
    · rw [Option.some_inj]
      exact ⟨fun same => ⟨same, same ▸ fresh⟩, And.left⟩
    · simp only [Option.some_inj, false_iff, not_and]
      exact fun same => same ▸ fresh

/-- Storing under a key that is in use asks for no room. -/
theorem stored_within {cache : InMemoryContextCache} {now : Instant} {key : ContextCacheKey}
    {entry : CachedContextEntry} (used : cache.entries.contains key = true) :
    (cache.stored now key entry).rows.length ≤ cache.entries.rows.length := by
  obtain ⟨row, member, rfl⟩ := (Table.contains_iff _ _).mp used
  have removed := Table.length_without_key cache.entries member
  have others : (cache.stored now row.1 entry).rows.length ≤
      (cache.entries.retain fun other => decide (other.1 ≠ row.1)).rows.length + 1 := by
    simp only [stored, Table.put, Table.retain, List.length_append, List.length_singleton]
    exact Nat.succ_le_succ (List.filter_sublist.filter _).length_le
  omega

/-- Storing an entry asks for room for one at most. -/
theorem stored_grows (cache : InMemoryContextCache) (now : Instant) (key : ContextCacheKey)
    (entry : CachedContextEntry) :
    (cache.stored now key entry).rows.length ≤ cache.entries.rows.length + 1 := by
  simp only [stored, Table.put, Table.retain, List.length_append, List.length_singleton]
  exact Nat.succ_le_succ ((List.length_filter_le _ _).trans (List.length_filter_le _ _))

end InMemoryContextCache

/-- What a turn does in terms of the turns before it. A lookup answers with the entry that
stands, as long as it is fresh or within its stale window. A store keeps what is not expired,
and lets one entry go only if the cache is full and the key is new; none that is kept was
created before one that goes. An invalidation removes the entries of the tenant. -/
def LawfulTurn (maxEntries : ℕ) (turns : List CacheTurn) (cache after : InMemoryContextCache) :
    CacheTurn → Prop
  | ⟨now, .get key, answer, _⟩ => ∀ entry, answer = some entry ↔
      StandsInCache turns key entry ∧ now < entry.expiresAt ∧ now ≤ entry.effectiveStaleUntil
  | ⟨now, .getAny key, answer, _⟩ => ∀ entry, answer = some entry ↔
      StandsInCache turns key entry ∧ now ≤ entry.effectiveStaleUntil
  | ⟨now, .set key entry, _, gone⟩ =>
      (∀ row, row ∈ after.entries.rows ∨ row ∈ gone ↔
        row = (key, entry) ∨
          row ∈ cache.entries.rows ∧ row.1 ≠ key ∧ now ≤ row.2.effectiveStaleUntil) ∧
      (∀ row ∈ gone, row ∉ after.entries.rows ∧
        ∀ kept ∈ after.entries.rows, row.2.createdAt ≤ kept.2.createdAt) ∧
      gone.length ≤ 1 ∧
      (gone ≠ [] → cache.entries.contains key = false ∧
        after.entries.rows.length = max maxEntries 1)
  | ⟨_, .invalidateUser orgId userId, removed, _⟩ =>
      after.entries.rows = cache.entries.rows.filter (fun row =>
        !decide (row.1.orgId = orgId ∧ row.1.userId = userId)) ∧
      removed = (cache.entries.rows.filter fun row =>
        decide (row.1.orgId = orgId ∧ row.1.userId = userId)).length

section Law

variable {maxEntries : ℕ} {turns : List CacheTurn} {cache : InMemoryContextCache}

/-- Until its time has passed, an entry is in the table if it stands. -/
theorem Remembers.stored_iff (remembers : Remembers maxEntries turns cache) {now : Instant}
    (clock : ∀ earlier ∈ turns, earlier.now ≤ now) (key : ContextCacheKey)
    (entry : CachedContextEntry) :
    (key, entry) ∈ cache.entries.rows ∧ entry.isFullyExpired now = false ↔
      StandsInCache turns key entry ∧ now ≤ entry.effectiveStaleUntil := by
  have unexpired : entry.isFullyExpired now = false ↔ now ≤ entry.effectiveStaleUntil := by
    simp [CachedContextEntry.isFullyExpired]
  rw [unexpired]
  constructor
  · rintro ⟨stored, inTime⟩
    exact ⟨remembers.stands key entry stored, inTime⟩
  · rintro ⟨stands, inTime⟩
    refine ⟨(remembers.stored key entry stands).resolve_right ?_, inTime⟩
    rintro ⟨earlier, member, expired⟩
    have passed : entry.effectiveStaleUntil < earlier.now := of_decide_eq_true expired
    exact absurd ((passed.trans_le (clock earlier member)).trans_le inTime) (lt_irrefl _)

theorem Remembers.lawful_set (remembers : Remembers maxEntries turns cache) (now : Instant)
    (key : ContextCacheKey) (entry : CachedContextEntry) {gone : List CacheRow}
    {final : CacheTable}
    (room : MakesRoom cache.maxEntries (cache.stored now key entry) gone final) :
    LawfulTurn maxEntries turns cache ⟨cache.maxEntries, final⟩
      ⟨now, .set key entry, (), gone⟩ := by
  have partition : ∀ row, row ∈ final.rows ∨ row ∈ gone ↔
      row ∈ (cache.stored now key entry).rows := by
    intro row
    rw [room.mem_final]
    constructor
    · rintro (⟨stored, _⟩ | listed)
      · exact stored
      · exact room.gone_stored row listed
    · intro stored
      by_cases same : ∃ other ∈ gone, other.1 = row.1
      · obtain ⟨other, listed, same⟩ := same
        obtain rfl := (cache.stored now key entry).eq_of_key (room.gone_stored other listed)
          stored same
        exact .inr listed
      · exact .inl ⟨stored, fun other listed equal => same ⟨other, listed, equal⟩⟩
  have grows := cache.stored_grows now key entry
  have balance := room.length_final
  have count := room.length_gone
  have fits := remembers.fits
  refine ⟨?_, ?_, ?_, ?_⟩
  · intro row
    rw [partition, InMemoryContextCache.stored, Table.mem_put, Table.mem_retain]
    simp [CachedContextEntry.isFullyExpired, and_comm, and_left_comm]
  · intro row listed
    refine ⟨fun kept => ?_, room.gone_first row listed⟩
    exact ((room.mem_final row).mp kept).2 row listed rfl
  · omega
  · intro someGone
    have positive := List.length_pos_of_ne_nil someGone
    constructor
    · by_contra used
      rw [Bool.not_eq_false] at used
      have within : (cache.stored now key entry).rows.length ≤ cache.entries.rows.length :=
        InMemoryContextCache.stored_within used
      omega
    · rw [← remembers.bound]
      show final.rows.length = cache.maxEntries
      omega

theorem InMemoryContextCache.lawful_invalidateUser (cache : InMemoryContextCache)
    (maxEntries : ℕ) (turns : List CacheTurn) (now : Instant) (orgId userId : String)
    (gone : List CacheRow) :
    LawfulTurn maxEntries turns cache (cache.invalidateUser ⟨orgId, userId⟩)
      ⟨now, .invalidateUser orgId userId, cache.entries.rows.length -
        (cache.invalidateUser ⟨orgId, userId⟩).entries.rows.length, gone⟩ := by
  have remaining : (cache.invalidateUser ⟨orgId, userId⟩).entries.rows =
      cache.entries.rows.filter fun row =>
        !decide (row.1.orgId = orgId ∧ row.1.userId = userId) := by
    refine List.filter_congr fun row _ => ?_
    simp [ContextCacheKey.tenant]
  have split := List.length_eq_length_filter_add (l := cache.entries.rows)
    fun row => decide (row.1.orgId = orgId ∧ row.1.userId = userId)
  refine ⟨remaining, ?_⟩
  show (cache.entries.rows.length - _ : ℕ) = _
  rw [remaining]
  omega

end Law

/-- The in-memory context cache is a bounded map with expiry: after any calls it holds no
more entries than allowed, and every further call is served as `LawfulTurn` says. -/
theorem context_cache_bounded_map {maxEntries : ℕ} {turns : List CacheTurn}
    {cache after : InMemoryContextCache} {turn : CacheTurn}
    (run : CacheRun maxEntries turns cache) (clock : ∀ earlier ∈ turns, earlier.now ≤ turn.now)
    (served : Serves cache turn after) :
    cache.entries.rows.length ≤ max maxEntries 1 ∧ after.entries.rows.length ≤ max maxEntries 1 ∧
      LawfulTurn maxEntries turns cache after turn := by
  have remembers := run.remembers
  have remembersAfter := (run.next clock served).remembers
  refine ⟨remembers.bound ▸ remembers.fits, remembersAfter.bound ▸ remembersAfter.fits, ?_⟩
  cases served with
  | get now key =>
    intro entry
    rw [InMemoryContextCache.get_eq_some, InMemoryContextCache.getAny_eq_some,
      remembers.stored_iff clock, CachedContextEntry.isFresh, decide_eq_true_eq, and_assoc]
    exact and_congr_right fun _ => and_comm
  | getAny now key =>
    intro entry
    rw [InMemoryContextCache.getAny_eq_some, remembers.stored_iff clock]
  | set now key entry room => exact remembers.lawful_set now key entry room
  | invalidateUser now orgId userId =>
    exact cache.lawful_invalidateUser maxEntries turns now orgId userId []

section Sample

/-- An entry without content that is fresh for ten instants and then stale for ten. -/
def sampleCachedEntry (createdAt : Instant) : CachedContextEntry :=
  ⟨"", [], createdAt, createdAt + 10, some (createdAt + 20), ⟨0, 0, 0, 0, 0, 0⟩,
    ContextCompressionUsage.disabled⟩

def sampleCacheRow (queryHash : String) (createdAt : Instant) : CacheRow :=
  (⟨"org", "user", queryHash, ""⟩, sampleCachedEntry createdAt)

/-- The second key makes the first one go from a cache for one entry. -/
theorem context_cache_bounded_map_sample :
    let first : CacheTurn := ⟨0, .set (sampleCacheRow "a" 0).1 (sampleCachedEntry 0), (), []⟩
    let second : CacheTurn :=
      ⟨5, .set (sampleCacheRow "b" 5).1 (sampleCachedEntry 5), (), [sampleCacheRow "a" 0]⟩
    ∃ cache after, CacheRun 1 [first] cache ∧ Serves cache second after ∧
      cache.entries.rows.length ≤ max 1 1 ∧ after.entries.rows.length ≤ max 1 1 ∧
      LawfulTurn 1 [first] cache after second := by
  intro first second
  let cache : InMemoryContextCache :=
    ⟨1, (InMemoryContextCache.new 1).stored 0 (sampleCacheRow "a" 0).1 (sampleCachedEntry 0)⟩
  have servedFirst : Serves (.new 1) first cache :=
    .set 0 (sampleCacheRow "a" 0).1 (sampleCachedEntry 0) (.done (by decide))
  have run := CacheRun.start.next (by simp) servedFirst
  have served : Serves cache second _ := .set 5 (sampleCacheRow "b" 5).1 (sampleCachedEntry 5)
    (.evict (by decide) List.mem_cons_self (by decide) (.done (by decide)))
  exact ⟨cache, _, run, served, context_cache_bounded_map run (by decide) served⟩

end Sample

end Memcore
