import Memcore.Jobs.Locks

/-!
# Job locks are mutually exclusive

Owners acquire, renew and release the lock of one kind, at instants that do not go
backwards. A grant is what an acquisition or a renewal has last promised to an owner,
until the owner releases it. The in-memory store and the SQLite store answer every such
sequence alike, and on either of them at most one owner has a grant that has not
expired, no call of another owner ends or shortens it, and a renewal or a release by
anyone but the recorded owner changes nothing.

The in-memory store carries the argument: a grant that has not expired is the record of
its kind. The SQLite store reads the same record back after every operation.
-/
namespace Memcore

open KeyedTables

inductive LockCall where
  | tryAcquire (ownerId : String) (ttl : ℕ)
  | renew (ownerId : String) (ttl : ℕ)
  | release (ownerId : String)

inductive LockAnswer where
  | acquired (lock : Option AcquiredJobLock)
  | renewed (renewed : Bool)
  | released (released : Bool)
  deriving DecidableEq

namespace LockCall

def ownerId : LockCall → String
  | tryAcquire ownerId _ | renew ownerId _ | release ownerId => ownerId

def isAcquire : LockCall → Bool
  | tryAcquire _ _ => true
  | _ => false

/-- The answer that grants nothing. -/
def refusal : LockCall → LockAnswer
  | tryAcquire _ _ => .acquired none
  | renew _ _ => .renewed false
  | release _ => .released false

/-- When a grant made by the call expires. A release makes none. -/
def expiry (now : Instant) : LockCall → Instant
  | tryAcquire _ ttl | renew _ ttl => lockUntilFromTtl now ttl
  | release _ => now

end LockCall

variable {σ : Type}

/-- One call on a store. -/
def BackgroundJobLockStore.serve (store : BackgroundJobLockStore σ) (kind : BackgroundJobKind)
    (now : Instant) (call : LockCall) (state : σ) : MemcoreResult LockAnswer × σ :=
  match call with
  | .tryAcquire ownerId ttl =>
      let served := store.tryAcquireLock now kind ownerId ttl state
      (served.1.map .acquired, served.2)
  | .renew ownerId ttl =>
      let served := store.renewLock now kind ownerId ttl state
      (served.1.map .renewed, served.2)
  | .release ownerId =>
      let served := store.releaseLock kind ownerId state
      (served.1.map .released, served.2)

/-- The grants after a call: when the last grant of each owner expires. -/
def grantsAfter (now : Instant) (call : LockCall) (answer : MemcoreResult LockAnswer)
    (grants : String → Option Instant) : String → Option Instant :=
  match call, answer with
  | .tryAcquire ownerId _, .ok (.acquired (some lock)) =>
      Function.update grants ownerId (some lock.lockedUntil)
  | .renew ownerId ttl, .ok (.renewed true) =>
      Function.update grants ownerId (some (lockUntilFromTtl now ttl))
  | .release ownerId, .ok (.released true) => Function.update grants ownerId none
  | _, _ => grants

/-- What has become of a store, of the grants, and what was answered. -/
structure LockRun (σ : Type) where
  state : σ
  grants : String → Option Instant
  answers : List (MemcoreResult LockAnswer)

/-- A store before any call. -/
def LockRun.start (state : σ) : LockRun σ := ⟨state, fun _ => none, []⟩

def LockRun.step (store : BackgroundJobLockStore σ) (kind : BackgroundJobKind) (run : LockRun σ)
    (entry : Instant × LockCall) : LockRun σ :=
  let served := store.serve kind entry.1 entry.2 run.state
  ⟨served.2, grantsAfter entry.1 entry.2 served.1 run.grants, run.answers ++ [served.1]⟩

/-- The calls in order, each at its instant. -/
def runLocks (store : BackgroundJobLockStore σ) (kind : BackgroundJobKind)
    (calls : List (Instant × LockCall)) (run : LockRun σ) : LockRun σ :=
  calls.foldl (LockRun.step store kind) run

/-- The instants do not go backwards, and none is after the last one. -/
def InOrder (last : Instant) : List (Instant × LockCall) → Instant → Prop
  | [], clock => clock ≤ last
  | (now, _) :: rest, clock => clock ≤ now ∧ InOrder last rest now

/-- An owner has a grant that has not expired. -/
def LockRun.Holds (run : LockRun σ) (now : Instant) (ownerId : String) (lockedUntil : Instant) :
    Prop :=
  run.grants ownerId = some lockedUntil ∧ now < lockedUntil

/-- The laws of the lock at the end of a run, from an instant on. -/
structure LocksRespected (store : BackgroundJobLockStore σ) (kind : BackgroundJobKind)
    (run : LockRun σ) (last : Instant) : Prop where
  exclusive : ∀ now first second firstUntil secondUntil, last ≤ now →
    run.Holds now first firstUntil → run.Holds now second secondUntil → first = second
  recorded : ∀ now ownerId lockedUntil, last ≤ now → run.Holds now ownerId lockedUntil →
    ∃ record, store.getLock kind run.state = .ok (some record) ∧ record.ownerId = ownerId ∧
      record.lockedUntil = lockedUntil
  kept : ∀ now ownerId lockedUntil call, last ≤ now → run.Holds now ownerId lockedUntil →
    call.ownerId ≠ ownerId → store.serve kind now call run.state = (.ok call.refusal, run.state)
  others : ∀ now call, call.isAcquire = false →
    (∀ record, store.getLock kind run.state = .ok (some record) → record.ownerId ≠ call.ownerId) →
      store.serve kind now call run.state = (.ok call.refusal, run.state)

/-- What a store has to show for the laws: a record of another owner, which has not
expired when the lock is asked for, makes it refuse. -/
structure Refuses (store : BackgroundJobLockStore σ) (kind : BackgroundJobKind) (state : σ) :
    Prop where
  recorded : ∀ now call record, store.getLock kind state = .ok (some record) →
    record.ownerId ≠ call.ownerId → (call.isAcquire = true → now < record.lockedUntil) →
      store.serve kind now call state = (.ok call.refusal, state)
  absent : ∀ now call, store.getLock kind state = .ok none → call.isAcquire = false →
    store.serve kind now call state = (.ok call.refusal, state)
  reads : ∃ record, store.getLock kind state = .ok record

/-- A store that refuses, and whose record is every unexpired grant, obeys the laws. -/
theorem Refuses.respected {store : BackgroundJobLockStore σ} {kind : BackgroundJobKind}
    {run : LockRun σ} {last : Instant} (refuses : Refuses store kind run.state)
    (recorded : ∀ now ownerId lockedUntil, last ≤ now → run.Holds now ownerId lockedUntil →
      ∃ record, store.getLock kind run.state = .ok (some record) ∧ record.ownerId = ownerId ∧
        record.lockedUntil = lockedUntil) : LocksRespected store kind run last where
  exclusive := by
    intro now first second firstUntil secondUntil after firstHolds secondHolds
    obtain ⟨record, stored, firstOwns, _⟩ := recorded now first firstUntil after firstHolds
    obtain ⟨other, otherStored, secondOwns, _⟩ := recorded now second secondUntil after secondHolds
    have same : record = other := by simpa [stored] using otherStored
    rw [← firstOwns, ← secondOwns, same]
  recorded := recorded
  kept := by
    intro now ownerId lockedUntil call after holds other
    obtain ⟨record, stored, owns, expires⟩ := recorded now ownerId lockedUntil after holds
    apply refuses.recorded now call record stored
    · rw [owns]
      exact Ne.symm other
    · intro _
      rw [expires]
      exact holds.2
  others := by
    intro now call noAcquire notOwner
    obtain ⟨record, stored⟩ := refuses.reads
    cases record with
    | none => exact refuses.absent now call stored noAcquire
    | some record =>
      apply refuses.recorded now call record stored (notOwner record stored)
      intro acquires
      rw [noAcquire] at acquires
      nomatch acquires

/-! ## In memory -/

section Mock

variable {kind : BackgroundJobKind} {locks : JobLocks}

/-- All that an acquisition can do in memory: be refused, or be granted and recorded
where no other owner has an unexpired record. -/
theorem mock_tryAcquire_cases (now : Instant) (kind : BackgroundJobKind) (ownerId : String)
    (ttl : ℕ) (locks : JobLocks) :
    (∃ record, locks.find? kind = some record ∧ now < record.lockedUntil ∧
      record.ownerId ≠ ownerId ∧
      MockBackgroundJobLockStore.tryAcquireLock now kind ownerId ttl locks = (.ok none, locks)) ∨
    ((∀ record, locks.find? kind = some record →
        record.ownerId = ownerId ∨ record.lockedUntil ≤ now) ∧
      MockBackgroundJobLockStore.tryAcquireLock now kind ownerId ttl locks =
        (.ok (some ⟨kind, ownerId, lockUntilFromTtl now ttl⟩),
          locks.put ⟨kind, ownerId, lockUntilFromTtl now ttl, now, none⟩)) := by
  unfold MockBackgroundJobLockStore.tryAcquireLock
  cases found : locks.find? kind with
  | none => exact .inr ⟨by simp, rfl⟩
  | some record =>
    by_cases taken : record.lockedUntil > now ∧ record.ownerId ≠ ownerId
    · exact .inl ⟨record, rfl, taken.1, taken.2, if_pos taken⟩
    · refine .inr ⟨?_, if_neg taken⟩
      rintro _ ⟨⟩
      by_cases own : record.ownerId = ownerId
      · exact .inl own
      · exact .inr (not_lt.mp fun unexpired => taken ⟨unexpired, own⟩)

theorem mock_refuses (kind : BackgroundJobKind) (locks : JobLocks) :
    Refuses mockBackgroundJobLockStore kind locks where
  recorded := by
    intro now call record stored other unexpired
    have found : locks.find? kind = some record := Except.ok.inj stored
    cases call with
    | tryAcquire ownerId ttl =>
      rcases mock_tryAcquire_cases now kind ownerId ttl locks with
        ⟨_, _, _, _, same⟩ | ⟨free, _⟩
      · simp only [BackgroundJobLockStore.serve, mockBackgroundJobLockStore, same]
        rfl
      · rcases free record found with own | expired
        · exact absurd own other
        · exact absurd (unexpired rfl) (not_lt.mpr expired)
    | renew ownerId ttl =>
      have foreign : record.ownerId ≠ ownerId := other
      simp only [BackgroundJobLockStore.serve, mockBackgroundJobLockStore,
        MockBackgroundJobLockStore.renewLock, found, foreign, ne_eq, not_false_eq_true, if_true]
      rfl
    | release ownerId =>
      have foreign : some record.ownerId ≠ some ownerId := fun same => other (Option.some.inj same)
      simp only [BackgroundJobLockStore.serve, mockBackgroundJobLockStore,
        MockBackgroundJobLockStore.releaseLock, found, Option.map_some, foreign, ne_eq,
        not_false_eq_true, if_true]
      rfl
  absent := by
    intro now call stored noAcquire
    have found : locks.find? kind = none := Except.ok.inj stored
    cases call with
    | tryAcquire ownerId ttl => nomatch noAcquire
    | renew ownerId ttl =>
      simp only [BackgroundJobLockStore.serve, mockBackgroundJobLockStore,
        MockBackgroundJobLockStore.renewLock, found]
      rfl
    | release ownerId =>
      simp [BackgroundJobLockStore.serve, mockBackgroundJobLockStore,
        MockBackgroundJobLockStore.releaseLock, found, Except.map, LockCall.refusal]
  reads := ⟨_, rfl⟩

/-- Every grant that has not expired is the record of its kind. -/
def Recorded (kind : BackgroundJobKind) (run : LockRun JobLocks) (clock : Instant) : Prop :=
  ∀ now ownerId lockedUntil, clock ≤ now → run.Holds now ownerId lockedUntil →
    ∃ record, run.state.find? kind = some record ∧ record.ownerId = ownerId ∧
      record.lockedUntil = lockedUntil

/-- A new record for an owner, when no other owner had an unexpired one. -/
theorem Recorded.grant {run : LockRun JobLocks} {clock now : Instant}
    (recorded : Recorded kind run clock) (forward : clock ≤ now) (record : JobLockRecord)
    (isKind : record.kind = kind)
    (free : ∀ other, run.state.find? kind = some other →
      other.ownerId = record.ownerId ∨ other.lockedUntil ≤ now)
    (answers : List (MemcoreResult LockAnswer)) :
    Recorded kind ⟨run.state.put record,
      Function.update run.grants record.ownerId (some record.lockedUntil), answers⟩ now := by
  intro later ownerId lockedUntil after holds
  have stored : (run.state.put record).find? kind = some record := by
    rw [Table.find?_put, if_pos isKind]
  refine ⟨record, stored, ?_⟩
  by_cases own : ownerId = record.ownerId
  · subst own
    have granted : some record.lockedUntil = some lockedUntil := by
      simpa [LockRun.Holds] using holds.1
    exact ⟨rfl, Option.some.inj granted⟩
  · -- Another owner's grant would have been the record, which has expired.
    have before : run.Holds later ownerId lockedUntil := by
      simpa [LockRun.Holds, Function.update_of_ne own] using holds
    obtain ⟨other, found, owns, expires⟩ :=
      recorded later ownerId lockedUntil (le_trans forward after) before
    rcases free other found with same | expired
    · exact absurd (owns.symm.trans same) own
    · have past : lockedUntil ≤ later := expires ▸ le_trans expired after
      exact absurd before.2 (not_lt.mpr past)

theorem Recorded.step {run : LockRun JobLocks} {clock : Instant}
    (recorded : Recorded kind run clock) (now : Instant) (call : LockCall)
    (forward : clock ≤ now) :
    Recorded kind (run.step mockBackgroundJobLockStore kind (now, call)) now := by
  have still (answers : List (MemcoreResult LockAnswer)) :
      Recorded kind ⟨run.state, run.grants, answers⟩ now :=
    fun later ownerId lockedUntil after holds =>
      recorded later ownerId lockedUntil (le_trans forward after) holds
  cases call with
  | tryAcquire ownerId ttl =>
    rcases mock_tryAcquire_cases now kind ownerId ttl run.state with
      ⟨_, _, _, _, same⟩ | ⟨free, same⟩
    · simp only [LockRun.step, BackgroundJobLockStore.serve, mockBackgroundJobLockStore, same]
      exact still _
    · simp only [LockRun.step, BackgroundJobLockStore.serve, mockBackgroundJobLockStore, same]
      exact recorded.grant forward ⟨kind, ownerId, lockUntilFromTtl now ttl, now, none⟩ rfl free _
  | renew ownerId ttl =>
    cases found : run.state.find? kind with
    | none =>
      simp only [LockRun.step, BackgroundJobLockStore.serve, mockBackgroundJobLockStore,
        MockBackgroundJobLockStore.renewLock, found]
      exact still _
    | some lock =>
      by_cases foreign : lock.ownerId ≠ ownerId
      · simp only [LockRun.step, BackgroundJobLockStore.serve, mockBackgroundJobLockStore,
          MockBackgroundJobLockStore.renewLock, found, foreign, ne_eq, not_false_eq_true, if_true]
        exact still _
      · have own : lock.ownerId = ownerId := not_not.mp foreign
        have isKind := ((Table.find?_eq_some _ _ _).mp found).2
        have granted := recorded.grant forward
          { lock with lockedUntil := lockUntilFromTtl now ttl, heartbeatAt := some now } isKind
          (fun other same => .inl (by rw [Option.some.inj (same.symm.trans found)]))
        simp only [LockRun.step, BackgroundJobLockStore.serve, mockBackgroundJobLockStore,
          MockBackgroundJobLockStore.renewLock, found, own, ne_eq, not_true_eq_false, if_false]
        rw [own] at granted
        exact granted _
  | release ownerId =>
    by_cases foreign : (run.state.find? kind).map JobLockRecord.ownerId ≠ some ownerId
    · simp only [LockRun.step, BackgroundJobLockStore.serve, mockBackgroundJobLockStore,
        MockBackgroundJobLockStore.releaseLock, foreign, ne_eq, not_false_eq_true, if_true]
      exact still _
    · have own := not_not.mp foreign
      simp only [LockRun.step, BackgroundJobLockStore.serve, mockBackgroundJobLockStore,
        MockBackgroundJobLockStore.releaseLock, own, ne_eq, not_true_eq_false, if_false]
      intro later other lockedUntil after holds
      -- The record was the releasing owner's, so nobody else had an unexpired grant.
      by_cases same : other = ownerId
      · subst same
        have gone : (none : Option Instant) = some lockedUntil := by
          simpa [LockRun.Holds, grantsAfter, Except.map] using holds.1
        nomatch gone
      · have before : run.Holds later other lockedUntil := by
          simpa [LockRun.Holds, grantsAfter, Except.map, Function.update_of_ne same] using holds
        obtain ⟨record, found, owns, _⟩ :=
          recorded later other lockedUntil (le_trans forward after) before
        rw [found] at own
        exact absurd (owns.symm.trans (Option.some.inj own)) same

theorem recorded_run {run : LockRun JobLocks} {clock last : Instant}
    (calls : List (Instant × LockCall)) (ordered : InOrder last calls clock)
    (recorded : Recorded kind run clock) :
    Recorded kind (runLocks mockBackgroundJobLockStore kind calls run) last := by
  induction calls generalizing run clock with
  | nil =>
    intro now ownerId lockedUntil after
    exact recorded now ownerId lockedUntil (le_trans ordered after)
  | cons entry rest inductionHypothesis =>
    obtain ⟨now, call⟩ := entry
    exact inductionHypothesis ordered.2 (recorded.step now call ordered.1)

end Mock

/-! ## In SQLite -/

section Sqlite

open SqliteBackgroundJobLockStore

variable {texts : TimestampText} {kind : BackgroundJobKind} {rows : JobLockRows}

theorem datetimeFromStr_toRfc3339 {instant : Instant} (represents : texts.Represents instant) :
    datetimeFromStr texts (texts.toRfc3339 instant) = .ok instant := by
  unfold datetimeFromStr
  rw [represents]

/-- A row reads back as a record when each of its texts does. -/
theorem rowToLock_ok (row : JobLockRow) (record : JobLockRecord) :
    rowToLock texts row = .ok record ↔
      BackgroundJobKind.fromStr row.kind = .ok record.kind ∧ row.ownerId = record.ownerId ∧
      datetimeFromStr texts row.lockedUntil = .ok record.lockedUntil ∧
      datetimeFromStr texts row.acquiredAt = .ok record.acquiredAt ∧
      optionalDatetimeFromStr texts row.heartbeatAt = .ok record.heartbeatAt := by
  unfold rowToLock
  cases BackgroundJobKind.fromStr row.kind with
  | error error => simp [bind, Except.bind]
  | ok named =>
    cases datetimeFromStr texts row.lockedUntil with
    | error error => simp [bind, Except.bind]
    | ok lockedUntil =>
      cases datetimeFromStr texts row.acquiredAt with
      | error error => simp [bind, Except.bind]
      | ok acquiredAt =>
        cases optionalDatetimeFromStr texts row.heartbeatAt with
        | error error => simp [bind, Except.bind]
        | ok heartbeatAt =>
          obtain ⟨recordKind, ownerId, expiry, acquired, heartbeat⟩ := record
          simp [bind, Except.bind, pure, Except.pure]

theorem fetchLock_none : fetchLock texts kind rows = .ok none ↔ rows.find? kind.asStr = none := by
  unfold fetchLock
  cases found : rows.find? kind.asStr with
  | none => simp
  | some row => cases read : rowToLock texts row <;> simp [Except.map, read]

theorem fetchLock_some (record : JobLockRecord) :
    fetchLock texts kind rows = .ok (some record) ↔
      ∃ row, rows.find? kind.asStr = some row ∧ rowToLock texts row = .ok record := by
  unfold fetchLock
  cases found : rows.find? kind.asStr with
  | none => simp
  | some row => cases read : rowToLock texts row <;> simp [Except.map, read]

/-- A row that its owner is not recorded in is not selected by the owner. -/
theorem ofOwner_unselected {ownerId : String}
    (foreign : ∀ row, rows.find? kind.asStr = some row → row.ownerId ≠ ownerId) :
    ∀ row ∈ rows.rows, ofOwner kind ownerId row = false := by
  intro row stored
  by_cases named : row.kind = kind.asStr
  · have other := foreign row ((Table.find?_eq_some _ _ _).mpr ⟨stored, named⟩)
    simp [ofOwner, other]
  · simp [ofOwner, named]

/-- Renewals and releases of anyone but the recorded owner select no row. -/
theorem sqlite_refuses_others (now : Instant) (call : LockCall) (noAcquire : call.isAcquire = false)
    (foreign : ∀ row, rows.find? kind.asStr = some row → row.ownerId ≠ call.ownerId) :
    (sqliteBackgroundJobLockStore texts).serve kind now call rows = (.ok call.refusal, rows) := by
  have unselected := ofOwner_unselected foreign
  cases call with
  | tryAcquire ownerId ttl => nomatch noAcquire
  | renew ownerId ttl =>
    have nothing := SqlTables.update_unselected rows (ofOwner kind ownerId)
      (fun row => { row with
        lockedUntil := texts.toRfc3339 (lockUntilFromTtl now ttl)
        heartbeatAt := some (texts.toRfc3339 now)
        updatedAt := texts.toRfc3339 now }) (fun _ => rfl) unselected
    simp only [BackgroundJobLockStore.serve, sqliteBackgroundJobLockStore,
      SqliteBackgroundJobLockStore.renewLock, nothing]
    rfl
  | release ownerId =>
    have nothing := SqlTables.delete_unselected rows (ofOwner kind ownerId) unselected
    simp only [BackgroundJobLockStore.serve, sqliteBackgroundJobLockStore,
      SqliteBackgroundJobLockStore.releaseLock, nothing]
    rfl

theorem sqlite_refuses (reads : ∃ record, fetchLock texts kind rows = .ok record) :
    Refuses (sqliteBackgroundJobLockStore texts) kind rows where
  recorded := by
    intro now call record stored other unexpired
    have fetched : fetchLock texts kind rows = .ok (some record) := stored
    cases call with
    | tryAcquire ownerId ttl =>
      have taken : record.lockedUntil > now ∧ record.ownerId ≠ ownerId := ⟨unexpired rfl, other⟩
      have refused : SqliteBackgroundJobLockStore.tryAcquireLock texts now kind ownerId ttl rows =
          (.ok none, rows) := by
        unfold SqliteBackgroundJobLockStore.tryAcquireLock
        rw [fetched]
        exact if_pos taken
      simp only [BackgroundJobLockStore.serve, sqliteBackgroundJobLockStore, refused]
      rfl
    | renew _ _ | release _ =>
      apply sqlite_refuses_others now _ rfl
      intro row found
      obtain ⟨recordRow, recordFound, read⟩ := (fetchLock_some record).mp fetched
      have same : row = recordRow := Option.some.inj (found.symm.trans recordFound)
      rw [same, ((rowToLock_ok recordRow record).mp read).2.1]
      exact other
  absent := by
    intro now call stored noAcquire
    have none := fetchLock_none.mp stored
    apply sqlite_refuses_others now call noAcquire
    intro row found
    rw [none] at found
    nomatch found
  reads := reads

/-! ## Both alike -/

/-- The row of a kind reads back as the record in memory. -/
def Mirrors (texts : TimestampText) (kind : BackgroundJobKind) (locks : JobLocks)
    (rows : JobLockRows) : Prop :=
  fetchLock texts kind rows = .ok (locks.find? kind)

variable {locks : JobLocks}

/-- The row that a grant writes reads back as the record that it puts. -/
theorem rowToLock_granted {lockedUntil acquiredAt : Instant}
    (untilReads : texts.Represents lockedUntil) (acquiredReads : texts.Represents acquiredAt)
    (ownerId updatedAt : String) :
    rowToLock texts ⟨kind.asStr, ownerId, texts.toRfc3339 lockedUntil,
        texts.toRfc3339 acquiredAt, none, updatedAt⟩ =
      .ok ⟨kind, ownerId, lockedUntil, acquiredAt, none⟩ :=
  (rowToLock_ok _ _).mpr ⟨kind.fromStr_asStr, rfl, datetimeFromStr_toRfc3339 untilReads,
    datetimeFromStr_toRfc3339 acquiredReads, rfl⟩

/-- An acquisition is answered alike and leaves the stores alike. -/
theorem Mirrors.tryAcquire (mirrors : Mirrors texts kind locks rows) (now : Instant)
    (ownerId : String) (ttl : ℕ) (nowReads : texts.Represents now)
    (expiryReads : texts.Represents (lockUntilFromTtl now ttl)) :
    (SqliteBackgroundJobLockStore.tryAcquireLock texts now kind ownerId ttl rows).1 =
        (MockBackgroundJobLockStore.tryAcquireLock now kind ownerId ttl locks).1 ∧
      Mirrors texts kind (MockBackgroundJobLockStore.tryAcquireLock now kind ownerId ttl locks).2
        (SqliteBackgroundJobLockStore.tryAcquireLock texts now kind ownerId ttl rows).2 := by
  have fetched : fetchLock texts kind rows = .ok (locks.find? kind) := mirrors
  have put : (locks.put ⟨kind, ownerId, lockUntilFromTtl now ttl, now, none⟩).find? kind =
      some ⟨kind, ownerId, lockUntilFromTtl now ttl, now, none⟩ := by
    rw [Table.find?_put, if_pos rfl]
  unfold SqliteBackgroundJobLockStore.tryAcquireLock MockBackgroundJobLockStore.tryAcquireLock
  cases found : locks.find? kind with
  | none =>
    rw [found] at fetched
    have absent := fetchLock_none.mp fetched
    have inserted := @SqlTables.insert_of_absent _ _ _ rows _
      ⟨kind.asStr, ownerId, texts.toRfc3339 (lockUntilFromTtl now ttl), texts.toRfc3339 now, none,
        texts.toRfc3339 now⟩ absent
    simp only [fetched, inserted, true_and]
    show fetchLock texts kind _ = .ok (Table.find? _ kind)
    rw [put, fetchLock_some]
    refine ⟨_, ?_, rowToLock_granted expiryReads nowReads ownerId (texts.toRfc3339 now)⟩
    rw [Table.find?_put, if_pos rfl]
  | some record =>
    rw [found] at fetched
    simp only [fetched]
    by_cases taken : record.lockedUntil > now ∧ record.ownerId ≠ ownerId
    · rw [if_pos taken, if_pos taken]
      refine ⟨rfl, ?_⟩
      show fetchLock texts kind rows = .ok (locks.find? kind)
      rw [fetched, found]
    · rw [if_neg taken, if_neg taken]
      refine ⟨rfl, ?_⟩
      obtain ⟨row, rowFound, _⟩ := (fetchLock_some record).mp fetched
      have named := ((Table.find?_eq_some _ _ _).mp rowFound).2
      show fetchLock texts kind _ = .ok (Table.find? _ kind)
      rw [put, fetchLock_some]
      refine ⟨_, ?_, rowToLock_granted expiryReads nowReads ownerId (texts.toRfc3339 now)⟩
      rw [SqlTables.find?_update, rowFound, Option.map_some]
      simp [ofKind, named]

/-- A renewal by the recorded owner. -/
theorem Mirrors.renew (mirrors : Mirrors texts kind locks rows) (now : Instant) (ttl : ℕ)
    (nowReads : texts.Represents now)
    (expiryReads : texts.Represents (lockUntilFromTtl now ttl)) {record : JobLockRecord}
    (found : locks.find? kind = some record) :
    (SqliteBackgroundJobLockStore.renewLock texts now kind record.ownerId ttl rows).1 = .ok true ∧
      Mirrors texts kind
        (locks.put { record with
          lockedUntil := lockUntilFromTtl now ttl, heartbeatAt := some now })
        (SqliteBackgroundJobLockStore.renewLock texts now kind record.ownerId ttl rows).2 := by
  have fetched : fetchLock texts kind rows = .ok (some record) := found ▸ mirrors
  obtain ⟨row, rowFound, read⟩ := (fetchLock_some record).mp fetched
  obtain ⟨kindReads, owns, _, acquiredReads, _⟩ := (rowToLock_ok row record).mp read
  have named := ((Table.find?_eq_some _ _ _).mp rowFound).2
  have isKind := ((Table.find?_eq_some _ _ _).mp found).2
  have affected : 0 < rows.rows.countP (ofOwner kind record.ownerId) :=
    (SqlTables.countP_key_pos rows kind.asStr _).mpr ⟨row, rowFound, by simp [owns]⟩
  constructor
  · simpa [SqliteBackgroundJobLockStore.renewLock, SqlTables.update] using affected
  · show fetchLock texts kind _ = .ok (Table.find? _ kind)
    rw [Table.find?_put, if_pos isKind, fetchLock_some]
    refine ⟨{ row with
      lockedUntil := texts.toRfc3339 (lockUntilFromTtl now ttl)
      heartbeatAt := some (texts.toRfc3339 now)
      updatedAt := texts.toRfc3339 now }, ?_, ?_⟩
    · simp only [SqliteBackgroundJobLockStore.renewLock]
      rw [SqlTables.find?_update, rowFound, Option.map_some]
      simp [ofOwner, named, owns]
    · apply (rowToLock_ok _ _).mpr
      refine ⟨kindReads, owns, datetimeFromStr_toRfc3339 expiryReads, acquiredReads, ?_⟩
      show (datetimeFromStr texts (texts.toRfc3339 now)).map some = .ok (some now)
      rw [datetimeFromStr_toRfc3339 nowReads]
      rfl

/-- A release by the recorded owner. -/
theorem Mirrors.release (mirrors : Mirrors texts kind locks rows) {record : JobLockRecord}
    (found : locks.find? kind = some record) :
    (SqliteBackgroundJobLockStore.releaseLock kind record.ownerId rows).1 = .ok true ∧
      Mirrors texts kind (locks.retain fun lock => decide (lock.kind ≠ kind))
        (SqliteBackgroundJobLockStore.releaseLock kind record.ownerId rows).2 := by
  have fetched : fetchLock texts kind rows = .ok (some record) := found ▸ mirrors
  obtain ⟨row, rowFound, read⟩ := (fetchLock_some record).mp fetched
  have owns := ((rowToLock_ok row record).mp read).2.1
  have named := ((Table.find?_eq_some _ _ _).mp rowFound).2
  have isKind := ((Table.find?_eq_some _ _ _).mp found).2
  have affected : 0 < rows.rows.countP (ofOwner kind record.ownerId) :=
    (SqlTables.countP_key_pos rows kind.asStr _).mpr ⟨row, rowFound, by simp [owns]⟩
  constructor
  · simpa [SqliteBackgroundJobLockStore.releaseLock, SqlTables.delete] using affected
  · show fetchLock texts kind _ = .ok (Table.find? _ kind)
    rw [Table.find?_retain, found]
    have removed : (some record).filter (fun lock => decide (lock.kind ≠ kind)) = none := by
      simp [isKind]
    rw [removed, fetchLock_none]
    simp only [SqliteBackgroundJobLockStore.releaseLock]
    rw [SqlTables.find?_delete, rowFound]
    simp [ofOwner, named, owns]

/-- Any call is answered alike and leaves the stores alike. -/
theorem Mirrors.step (mirrors : Mirrors texts kind locks rows) (now : Instant) (call : LockCall)
    (nowReads : texts.Represents now) (expiryReads : texts.Represents (call.expiry now)) :
    ((sqliteBackgroundJobLockStore texts).serve kind now call rows).1 =
        (mockBackgroundJobLockStore.serve kind now call locks).1 ∧
      Mirrors texts kind (mockBackgroundJobLockStore.serve kind now call locks).2
        ((sqliteBackgroundJobLockStore texts).serve kind now call rows).2 := by
  have reads : ∃ record, fetchLock texts kind rows = .ok record := ⟨_, mirrors⟩
  have refused (noAcquire : call.isAcquire = false)
      (foreign : ∀ record, locks.find? kind = some record → record.ownerId ≠ call.ownerId) :
      ((sqliteBackgroundJobLockStore texts).serve kind now call rows).1 =
          (mockBackgroundJobLockStore.serve kind now call locks).1 ∧
        Mirrors texts kind (mockBackgroundJobLockStore.serve kind now call locks).2
          ((sqliteBackgroundJobLockStore texts).serve kind now call rows).2 := by
    have noTime : call.isAcquire ≠ true := by simp [noAcquire]
    cases found : locks.find? kind with
    | none =>
      have fetched : fetchLock texts kind rows = .ok none := found ▸ mirrors
      rw [(sqlite_refuses reads).absent now call fetched noAcquire,
        (mock_refuses kind locks).absent now call (congrArg Except.ok found) noAcquire]
      exact ⟨rfl, mirrors⟩
    | some record =>
      have fetched : fetchLock texts kind rows = .ok (some record) := found ▸ mirrors
      rw [(sqlite_refuses reads).recorded now call record fetched (foreign record found)
          (fun acquires => absurd acquires noTime),
        (mock_refuses kind locks).recorded now call record (congrArg Except.ok found)
          (foreign record found) fun acquires => absurd acquires noTime]
      exact ⟨rfl, mirrors⟩
  cases call with
  | tryAcquire ownerId ttl =>
    obtain ⟨same, later⟩ := mirrors.tryAcquire now ownerId ttl nowReads expiryReads
    exact ⟨congrArg (Except.map LockAnswer.acquired) same, later⟩
  | renew ownerId ttl =>
    by_cases owned : (locks.find? kind).map JobLockRecord.ownerId = some ownerId
    · obtain ⟨record, found, rfl⟩ := Option.map_eq_some_iff.mp owned
      obtain ⟨same, later⟩ := mirrors.renew now ttl nowReads expiryReads found
      have renewed : MockBackgroundJobLockStore.renewLock now kind record.ownerId ttl locks =
          (.ok true, locks.put { record with
            lockedUntil := lockUntilFromTtl now ttl, heartbeatAt := some now }) := by
        simp [MockBackgroundJobLockStore.renewLock, found]
      simp only [BackgroundJobLockStore.serve, mockBackgroundJobLockStore,
        sqliteBackgroundJobLockStore, renewed, same]
      exact ⟨trivial, later⟩
    · apply refused rfl
      rintro record found rfl
      exact owned (by rw [found]; rfl)
  | release ownerId =>
    by_cases owned : (locks.find? kind).map JobLockRecord.ownerId = some ownerId
    · obtain ⟨record, found, rfl⟩ := Option.map_eq_some_iff.mp owned
      obtain ⟨same, later⟩ := mirrors.release found
      have released : MockBackgroundJobLockStore.releaseLock kind record.ownerId locks =
          (.ok true, locks.retain fun lock => decide (lock.kind ≠ kind)) := by
        simp [MockBackgroundJobLockStore.releaseLock, found]
      simp only [BackgroundJobLockStore.serve, mockBackgroundJobLockStore,
        sqliteBackgroundJobLockStore, released, same]
      exact ⟨trivial, later⟩
    · apply refused rfl
      rintro record found rfl
      exact owned (by rw [found]; rfl)

/-- Whole runs are answered alike, make the same grants and leave the stores alike. -/
theorem mirrors_run {run : LockRun JobLocks} {other : LockRun JobLockRows}
    (calls : List (Instant × LockCall))
    (representable : ∀ entry ∈ calls, texts.Represents entry.1 ∧
      texts.Represents (entry.2.expiry entry.1))
    (mirrors : Mirrors texts kind run.state other.state) (sameGrants : other.grants = run.grants)
    (sameAnswers : other.answers = run.answers) :
    Mirrors texts kind (runLocks mockBackgroundJobLockStore kind calls run).state
        (runLocks (sqliteBackgroundJobLockStore texts) kind calls other).state ∧
      (runLocks (sqliteBackgroundJobLockStore texts) kind calls other).grants =
        (runLocks mockBackgroundJobLockStore kind calls run).grants ∧
      (runLocks (sqliteBackgroundJobLockStore texts) kind calls other).answers =
        (runLocks mockBackgroundJobLockStore kind calls run).answers := by
  induction calls generalizing run other with
  | nil => exact ⟨mirrors, sameGrants, sameAnswers⟩
  | cons entry rest inductionHypothesis =>
    obtain ⟨nowReads, expiryReads⟩ := representable entry List.mem_cons_self
    obtain ⟨same, later⟩ := mirrors.step entry.1 entry.2 nowReads expiryReads
    apply inductionHypothesis
    · exact fun next listed => representable next (List.mem_cons_of_mem _ listed)
    · exact later
    · simp only [LockRun.step, same, sameGrants]
    · simp only [LockRun.step, same, sameAnswers]

end Sqlite

/-- For every sequence of calls on one lock, at instants that do not go backwards and
whose timestamps are representable: both stores answer the same, and each of them obeys
the laws of the lock at every instant after any of the calls. -/
theorem job_locks_exclusive (texts : TimestampText) (kind : BackgroundJobKind)
    (calls : List (Instant × LockCall)) (first last : Instant) (ordered : InOrder last calls first)
    (representable : ∀ entry ∈ calls, texts.Represents entry.1 ∧
      texts.Represents (entry.2.expiry entry.1)) :
    let mock := runLocks mockBackgroundJobLockStore kind calls (.start .empty)
    let sqlite := runLocks (sqliteBackgroundJobLockStore texts) kind calls (.start .empty)
    sqlite.answers = mock.answers ∧
      LocksRespected mockBackgroundJobLockStore kind mock last ∧
      LocksRespected (sqliteBackgroundJobLockStore texts) kind sqlite last := by
  intro mock sqlite
  obtain ⟨mirrors, sameGrants, sameAnswers⟩ := @mirrors_run texts kind
    (.start .empty) (.start .empty) calls representable rfl rfl rfl
  have start : Recorded kind (.start .empty) first := by
    intro now ownerId lockedUntil _ holds
    nomatch holds.1
  have recorded := recorded_run calls ordered start
  refine ⟨sameAnswers, ?_, ?_⟩
  · apply (mock_refuses kind _).respected
    intro now ownerId lockedUntil after holds
    obtain ⟨record, found, rest⟩ := recorded now ownerId lockedUntil after holds
    exact ⟨record, congrArg Except.ok found, rest⟩
  · apply (sqlite_refuses ⟨_, mirrors⟩).respected
    intro now ownerId lockedUntil after holds
    have mockHolds : mock.Holds now ownerId lockedUntil := by
      unfold LockRun.Holds at holds ⊢
      rwa [← sameGrants]
    obtain ⟨record, found, rest⟩ := recorded now ownerId lockedUntil after mockHolds
    refine ⟨record, ?_, rest⟩
    have read : SqliteBackgroundJobLockStore.fetchLock texts kind sqlite.state =
        .ok (mock.state.find? kind) := mirrors
    exact read.trans (congrArg Except.ok found)

section Sample

/-- The texts of a minute of instants. -/
def sampleTimestamps : TimestampText where
  toRfc3339 instant :=
    if instant = 0 then "1970-01-01T00:00:00+00:00"
    else if instant = 30000000000 then "1970-01-01T00:00:30+00:00"
    else if instant = 60000000000 then "1970-01-01T00:01:00+00:00"
    else "1970-01-01T00:01:30+00:00"
  parseFromRfc3339 value :=
    if value = "1970-01-01T00:00:00+00:00" then .ok 0
    else if value = "1970-01-01T00:00:30+00:00" then .ok 30000000000
    else if value = "1970-01-01T00:01:00+00:00" then .ok 60000000000
    else if value = "1970-01-01T00:01:30+00:00" then .ok 90000000000
    else .error "input contains invalid characters"

/-- A takeover at the instant of expiry, and a late release by the former owner. -/
def sampleLockCalls : List (Instant × LockCall) :=
  [(0, .tryAcquire "first" 60000000000), (30000000000, .tryAcquire "second" 60000000000),
    (60000000000, .tryAcquire "second" 30000000000), (60000000000, .release "first")]

theorem job_locks_exclusive_sample :
    let mock := runLocks mockBackgroundJobLockStore .memoryRetention sampleLockCalls (.start .empty)
    let sqlite := runLocks (sqliteBackgroundJobLockStore sampleTimestamps) .memoryRetention
      sampleLockCalls (.start .empty)
    sqlite.answers = mock.answers ∧
      LocksRespected mockBackgroundJobLockStore .memoryRetention mock 60000000000 ∧
      LocksRespected (sqliteBackgroundJobLockStore sampleTimestamps) .memoryRetention sqlite
        60000000000 := by
  apply job_locks_exclusive sampleTimestamps .memoryRetention sampleLockCalls 0 60000000000
  · simp [InOrder, sampleLockCalls]
  · unfold TimestampText.Represents
    decide +kernel

end Sample

end Memcore
