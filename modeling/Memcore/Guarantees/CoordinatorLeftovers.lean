import Memcore.Guarantees.Coalescing
import Memcore.Guarantees.TidyProtocol

/-!
# What the coordinator leaves behind

The mutex of a key is mapped when a caller asks for it, and unmapped by a caller that gets to the
end of its work. A caller that fails under the mutex because the cache does, or that is dropped,
leaves it mapped; so does the mark of a refresh stay when the refresh is dropped. As long as another
caller is left to see to it, nothing is lost: a mapped mutex has a caller that will unmap it, and a
mark has a refresh that will remove it. A caller that found the mutex taken may give up at any time,
since whoever had taken it sees to it.
-/
namespace Memcore

open KeyedTables Ports Programs

/-! ## What is seen to -/

/-- Every mapped mutex has a caller that will unmap it, every locked one a caller that has it, and
every mark of a refresh a caller that will remove it. A mutex belongs to one key for good. -/
structure Tidy (world : World) (stages : ℕ → CallStage) (owner : LockId → ContextCacheKey) :
    Prop where
  mapped : ∀ key lock, world.locks.inflight.find? key = some (key, lock) →
    ∃ thread, (stages thread).grip.cleans = some (key, lock)
  known : ∀ thread key lock, (stages thread).grip.mutex = some (key, lock) →
    lock < world.locks.created ∧ owner lock = key
  unmapped : ∀ thread key lock, (stages thread).grip = .tidied key lock →
    world.locks.inflight.find? key ≠ some (key, lock)
  locked : ∀ lock ∈ world.locks.locked, ∃ thread, (stages thread).grip.owned = some lock
  refreshed : ∀ key ∈ world.refreshInflight, ∃ thread, (stages thread).refreshing = some key

/-- If a caller is to unmap a mutex that is mapped, another one is to as well. -/
def NotLastToClean (world : World) (stages : ℕ → CallStage) (thread : ℕ) : Prop :=
  ∀ key lock, (stages thread).grip.cleans = some (key, lock) →
    world.locks.inflight.find? key = some (key, lock) →
      ∃ other, other ≠ thread ∧ (stages other).grip.cleans = some (key, lock)

/-- If a caller is to remove a mark that is there, another one is to as well. -/
def NotLastToFinish (world : World) (stages : ℕ → CallStage) (thread : ℕ) : Prop :=
  ∀ key, (stages thread).refreshing = some key → key ∈ world.refreshInflight →
    ∃ other, other ≠ thread ∧ (stages other).refreshing = some key

section Steps

variable {world later : World} {stages : ℕ → CallStage} {owner : LockId → ContextCacheKey}
  {thread : ℕ} {stage : CallStage}

/-- One caller moves. What it saw to before it still sees to, or another one does. -/
theorem Tidy.move (tidy : Tidy world stages owner)
    (grows : world.locks.created ≤ later.locks.created)
    (mapped : ∀ key lock, later.locks.inflight.find? key = some (key, lock) →
      stage.grip.cleans = some (key, lock) ∨ world.locks.inflight.find? key = some (key, lock) ∧
        ((stages thread).grip.cleans ≠ some (key, lock) ∨
          ∃ other, other ≠ thread ∧ (stages other).grip.cleans = some (key, lock)))
    (fresh : ∀ key lock, later.locks.inflight.find? key = some (key, lock) →
      world.locks.inflight.find? key = some (key, lock) ∨ world.locks.created ≤ lock)
    (known : ∀ key lock, stage.grip.mutex = some (key, lock) →
      lock < later.locks.created ∧ owner lock = key)
    (unmapped : ∀ key lock, stage.grip = .tidied key lock →
      later.locks.inflight.find? key ≠ some (key, lock))
    (locked : ∀ lock ∈ later.locks.locked, stage.grip.owned = some lock ∨
      lock ∈ world.locks.locked ∧ (stages thread).grip.owned ≠ some lock)
    (refreshed : ∀ key ∈ later.refreshInflight, stage.refreshing = some key ∨
      key ∈ world.refreshInflight ∧ ((stages thread).refreshing ≠ some key ∨
        ∃ other, other ≠ thread ∧ (stages other).refreshing = some key)) :
    Tidy later (Function.update stages thread stage) owner := by
  constructor
  · intro key lock found
    rcases mapped key lock found with own | ⟨before, unconcerned | ⟨other, different, sees⟩⟩
    · exact ⟨thread, by rwa [Function.update_self]⟩
    · obtain ⟨other, sees⟩ := tidy.mapped key lock before
      have different : other ≠ thread := by
        rintro rfl
        exact unconcerned sees
      exact ⟨other, by rwa [Function.update_of_ne different]⟩
    · exact ⟨other, by rwa [Function.update_of_ne different]⟩
  · intro other key lock knows
    by_cases same : other = thread
    · rw [same, Function.update_self] at knows
      exact known key lock knows
    · rw [Function.update_of_ne same] at knows
      obtain ⟨bounded, belongs⟩ := tidy.known other key lock knows
      exact ⟨bounded.trans_le grows, belongs⟩
  · intro other key lock tidied found
    by_cases same : other = thread
    · rw [same, Function.update_self] at tidied
      exact unmapped key lock tidied found
    · rw [Function.update_of_ne same] at tidied
      rcases fresh key lock found with before | new
      · exact tidy.unmapped other key lock tidied before
      · have knows : (stages other).grip.mutex = some (key, lock) := by
          rw [tidied]
          rfl
        exact absurd (tidy.known other key lock knows).1 (Nat.not_lt.mpr new)
  · intro lock listed
    rcases locked lock listed with own | ⟨before, notOwn⟩
    · exact ⟨thread, by rwa [Function.update_self]⟩
    · obtain ⟨other, owns⟩ := tidy.locked lock before
      have different : other ≠ thread := by
        rintro rfl
        exact notOwn owns
      exact ⟨other, by rwa [Function.update_of_ne different]⟩
  · intro key listed
    rcases refreshed key listed with own | ⟨before, unconcerned | ⟨other, different, sees⟩⟩
    · exact ⟨thread, by rwa [Function.update_self]⟩
    · obtain ⟨other, sees⟩ := tidy.refreshed key before
      have different : other ≠ thread := by
        rintro rfl
        exact unconcerned sees
      exact ⟨other, by rwa [Function.update_of_ne different]⟩
    · exact ⟨other, by rwa [Function.update_of_ne different]⟩

/-- What a caller saw to it still sees to, in a world that only its own mutexes and marks may have
been taken from. -/
theorem Tidy.keep (tidy : Tidy world stages owner)
    (created : later.locks.created = world.locks.created)
    (inflight : ∀ key lock, later.locks.inflight.find? key = some (key, lock) →
      world.locks.inflight.find? key = some (key, lock))
    (cleans : ∀ key lock, (stages thread).grip.cleans = some (key, lock) →
      later.locks.inflight.find? key = some (key, lock) →
        stage.grip.cleans = some (key, lock) ∨
          ∃ other, other ≠ thread ∧ (stages other).grip.cleans = some (key, lock))
    (mutex : ∀ pair, stage.grip.mutex = some pair → (stages thread).grip.mutex = some pair)
    (unmapped : ∀ key lock, stage.grip = .tidied key lock → (stages thread).grip ≠ stage.grip →
      later.locks.inflight.find? key ≠ some (key, lock))
    (locked : ∀ lock ∈ later.locks.locked, stage.grip.owned = some lock ∨
      lock ∈ world.locks.locked ∧ (stages thread).grip.owned ≠ some lock)
    (refreshed : ∀ key ∈ later.refreshInflight, stage.refreshing = some key ∨
      key ∈ world.refreshInflight ∧ ((stages thread).refreshing ≠ some key ∨
        ∃ other, other ≠ thread ∧ (stages other).refreshing = some key)) :
    Tidy later (Function.update stages thread stage) owner := by
  apply tidy.move created.ge
  · intro key lock found
    by_cases sees : (stages thread).grip.cleans = some (key, lock)
    · rcases cleans key lock sees found with own | another
      · exact .inl own
      · exact .inr ⟨inflight key lock found, .inr another⟩
    · exact .inr ⟨inflight key lock found, .inl sees⟩
  · intro key lock found
    exact .inl (inflight key lock found)
  · intro key lock knows
    rw [created]
    exact tidy.known thread key lock (mutex _ knows)
  · intro key lock tidied found
    by_cases same : (stages thread).grip = stage.grip
    · exact tidy.unmapped thread key lock (same.trans tidied) (inflight key lock found)
    · exact unmapped key lock tidied same found
  · exact locked
  · exact refreshed

/-- A caller is where it is known to be, or has not made a call yet. -/
structure Near (own known : CallStage) : Prop where
  grip : own.grip = known.grip
  refreshing : ∀ key, known.refreshing = some key → own.refreshing = some key

theorem Near.refreshed {own : CallStage} (near : Near own (stages thread)) (world : World) :
    ∀ key ∈ world.refreshInflight, own.refreshing = some key ∨
      key ∈ world.refreshInflight ∧ ((stages thread).refreshing ≠ some key ∨
        ∃ other, other ≠ thread ∧ (stages other).refreshing = some key) := by
  intro key listed
  by_cases sees : (stages thread).refreshing = some key
  · exact .inl (near.refreshing key sees)
  · exact .inr ⟨listed, .inl sees⟩

variable {own : CallStage}

/-- A call that leaves the world alone, after which the caller sees to what it saw to. -/
theorem Tidy.still (tidy : Tidy world stages owner) (near : Near own (stages thread))
    (locks : later.locks = world.locks) (marks : later.refreshInflight = world.refreshInflight) :
    Tidy later (Function.update stages thread own) owner := by
  apply tidy.keep (congrArg _ locks)
  · intro key lock found
    rwa [← locks]
  · intro key lock sees _
    rw [near.grip]
    exact .inl sees
  · intro pair knows
    rwa [← near.grip]
  · intro key lock _ different
    exact absurd near.grip.symm different
  · intro lock listed
    rw [locks] at listed
    by_cases owns : (stages thread).grip.owned = some lock
    · rw [near.grip]
      exact .inl owns
    · exact .inr ⟨listed, owns⟩
  · rw [marks]
    exact near.refreshed world

/-- A mutex belongs to one key. -/
theorem Tidy.one_key (tidy : Tidy world stages owner) {first second : ℕ}
    {firstKey secondKey : ContextCacheKey} {lock : LockId}
    (firstKnows : (stages first).grip.mutex = some (firstKey, lock))
    (secondKnows : (stages second).grip.mutex = some (secondKey, lock)) :
    firstKey = secondKey :=
  (tidy.known first firstKey lock firstKnows).2.symm.trans
    (tidy.known second secondKey lock secondKnows).2

/-- Whoever has locked a mutex that is mapped will unmap it. -/
theorem Tidy.holder_cleans (tidy : Tidy world stages owner) {key : ContextCacheKey}
    {lock : LockId} (knows : (stages thread).grip.mutex = some (key, lock))
    (taken : lock ∈ world.locks.locked)
    (found : world.locks.inflight.find? key = some (key, lock)) :
    ∃ other, (stages other).grip = .held key lock := by
  obtain ⟨other, owns⟩ := tidy.locked lock taken
  cases grip : (stages other).grip with
  | held otherKey held =>
    rw [grip] at owns
    obtain rfl : held = lock := Option.some.inj owns
    have known : (stages other).grip.mutex = some (otherKey, held) := by rw [grip]; rfl
    obtain rfl := tidy.one_key known knows
    exact ⟨other, grip⟩
  | tidied otherKey held =>
    rw [grip] at owns
    obtain rfl : held = lock := Option.some.inj owns
    have known : (stages other).grip.mutex = some (otherKey, held) := by rw [grip]; rfl
    obtain rfl := tidy.one_key known knows
    exact absurd found (tidy.unmapped other otherKey held grip)
  | _ =>
    rw [grip] at owns
    cases owns

/-- A caller is given the mutex of a key, which may be a new one. -/
theorem Tidy.refer (tidy : Tidy world stages owner) (near : Near own (stages thread))
    (isFree : own.grip = .free) (key : ContextCacheKey) :
    ∃ owner, Tidy { world with locks := (World.lockForKey world.locks key).2 }
      (Function.update stages thread
        ⟨.referred key (World.lockForKey world.locks key).1, own.refreshing⟩) owner := by
  have grip : (stages thread).grip = .free := near.grip.symm.trans isFree
  have marks := near.refreshed world
  have unlocked : ∀ lock ∈ world.locks.locked, (Grip.referred key 0).owned = some lock ∨
      lock ∈ world.locks.locked ∧ (stages thread).grip.owned ≠ some lock := by
    intro lock listed
    rw [grip]
    exact .inr ⟨listed, by simp [Grip.owned]⟩
  unfold World.lockForKey
  cases found : world.locks.inflight.find? key with
  | some row =>
    obtain ⟨stored, rfl⟩ := (world.locks.inflight.find?_eq_some key row).mp found
    have mapped : world.locks.inflight.find? row.1 = some (row.1, row.2) := found
    obtain ⟨other, sees⟩ := tidy.mapped _ _ mapped
    refine ⟨owner, tidy.move le_rfl ?_ ?_ ?_ ?_ unlocked marks⟩
    · intro otherKey lock foundOther
      refine .inr ⟨foundOther, .inl ?_⟩
      rw [grip]
      intro same
      cases same
    · intro otherKey lock foundOther
      exact .inl foundOther
    · rintro _ _ ⟨⟩
      exact tidy.known other _ _ (Grip.mutex_of_cleans sees)
    · intro otherKey lock same
      cases same
  | none =>
    have renamed : Tidy world stages (Function.update owner world.locks.created key) := by
      refine ⟨tidy.mapped, ?_, tidy.unmapped, tidy.locked, tidy.refreshed⟩
      intro other otherKey lock knows
      obtain ⟨bounded, belongs⟩ := tidy.known other otherKey lock knows
      rw [Function.update_of_ne bounded.ne]
      exact ⟨bounded, belongs⟩
    have put (otherKey : ContextCacheKey) (lock : LockId)
        (stored : (world.locks.inflight.put (key, world.locks.created)).find? otherKey =
          some (otherKey, lock)) :
        (otherKey = key ∧ lock = world.locks.created) ∨
          world.locks.inflight.find? otherKey = some (otherKey, lock) := by
      rw [Table.find?_put] at stored
      split at stored
      · rename_i same
        simp only [Option.some.injEq, Prod.mk.injEq] at stored
        exact .inl ⟨same.symm, stored.2.symm⟩
      · exact .inr stored
    refine ⟨_, renamed.move (Nat.le_succ _) ?_ ?_ ?_ ?_ unlocked marks⟩
    · intro otherKey lock stored
      rcases put otherKey lock stored with ⟨rfl, rfl⟩ | before
      · exact .inl rfl
      · refine .inr ⟨before, .inl ?_⟩
        rw [grip]
        intro same
        cases same
    · intro otherKey lock stored
      rcases put otherKey lock stored with ⟨rfl, rfl⟩ | before
      · exact .inr le_rfl
      · exact .inl before
    · rintro _ _ ⟨⟩
      exact ⟨Nat.lt_succ_self _, Function.update_self _ _ _⟩
    · intro otherKey lock same
      cases same

/-- A caller that finds its mutex taken leaves it to the one that has it. -/
theorem Tidy.tryLock (tidy : Tidy world stages owner) (near : Near own (stages thread))
    {key : ContextCacheKey} {lock : LockId} (referred : own.grip = .referred key lock) :
    Tidy world (Function.update stages thread
      ⟨if lock ∉ world.locks.locked then .untimed key lock else .timed key lock,
        own.refreshing⟩) owner := by
  have grip : (stages thread).grip = .referred key lock := near.grip.symm.trans referred
  have marks := near.refreshed world
  have notOwned (other : LockId) (listed : other ∈ world.locks.locked) :
      other ∈ world.locks.locked ∧ (stages thread).grip.owned ≠ some other := by
    rw [grip]
    exact ⟨listed, nofun⟩
  by_cases taken : lock ∈ world.locks.locked
  · rw [if_neg (not_not.mpr taken)]
    refine tidy.keep rfl (fun _ _ found => found) ?_ ?_ nofun
      (fun other listed => .inr (notOwned other listed)) marks
    · intro otherKey other sees found
      rw [grip] at sees
      cases sees
      have knows : (stages thread).grip.mutex = some (key, lock) := by rw [grip]; rfl
      obtain ⟨other, held⟩ := tidy.holder_cleans knows taken found
      have different : other ≠ thread := by
        rintro rfl
        rw [grip] at held
        cases held
      exact .inr ⟨other, different, by rw [held]; rfl⟩
    · intro pair knows
      rw [grip]
      exact knows
  · rw [if_pos taken]
    refine tidy.keep rfl (fun _ _ found => found) ?_ ?_ nofun
      (fun other listed => .inr (notOwned other listed)) marks
    · intro otherKey other sees _
      rw [grip] at sees
      exact .inl sees
    · intro pair knows
      rw [grip]
      exact knows

/-- A caller locks the mutex that it waits for. -/
theorem Tidy.acquire (tidy : Tidy world stages owner) (near : Near own (stages thread))
    {key : ContextCacheKey} {lock : LockId}
    (waits : own.grip = .untimed key lock ∨ own.grip = .timed key lock) :
    Tidy { world with locks := { world.locks with locked := lock :: world.locks.locked } }
      (Function.update stages thread ⟨.held key lock, own.refreshing⟩) owner := by
  rw [near.grip] at waits
  refine tidy.keep rfl (fun _ _ found => found) ?_ ?_ nofun ?_ (near.refreshed world)
  · intro otherKey other sees _
    rcases waits with grip | grip
    · rw [grip] at sees
      exact .inl sees
    · rw [grip] at sees
      cases sees
  · intro pair knows
    rcases waits with grip | grip
    · rw [grip]
      exact knows
    · rw [grip]
      exact knows
  · intro other listed
    rcases List.mem_cons.mp listed with rfl | before
    · exact .inl rfl
    · refine .inr ⟨before, ?_⟩
      rcases waits with grip | grip
      · rw [grip]
        nofun
      · rw [grip]
        nofun

/-- A caller gives up waiting for a mutex that it found taken. -/
theorem Tidy.giveUp (tidy : Tidy world stages owner) (near : Near own (stages thread))
    {key : ContextCacheKey} {lock : LockId} (timed : own.grip = .timed key lock) :
    Tidy world (Function.update stages thread ⟨.free, own.refreshing⟩) owner := by
  have grip : (stages thread).grip = .timed key lock := near.grip.symm.trans timed
  refine tidy.keep rfl (fun _ _ found => found) ?_ nofun nofun ?_ (near.refreshed world)
  · intro otherKey other sees _
    rw [grip] at sees
    cases sees
  · intro other listed
    rw [grip]
    exact .inr ⟨listed, nofun⟩

/-- A caller lets go of everything: it has nothing mapped, or another one sees to it. -/
theorem Tidy.letGo (tidy : Tidy world stages owner) {refreshing : Option ContextCacheKey}
    {locked : List LockId} (notLast : NotLastToClean world stages thread)
    (released : ∀ lock ∈ locked,
      lock ∈ world.locks.locked ∧ (stages thread).grip.owned ≠ some lock)
    (refreshed : ∀ key ∈ world.refreshInflight, refreshing = some key ∨
      key ∈ world.refreshInflight ∧ ((stages thread).refreshing ≠ some key ∨
        ∃ other, other ≠ thread ∧ (stages other).refreshing = some key)) :
    Tidy { world with locks := { world.locks with locked := locked } }
      (Function.update stages thread ⟨.free, refreshing⟩) owner := by
  refine tidy.keep rfl (fun _ _ found => found) ?_ nofun nofun ?_ refreshed
  · intro key lock sees found
    exact .inr (notLast key lock sees found)
  · intro lock listed
    exact .inr (released lock listed)

/-- The mutexes without the one that a caller has locked. -/
theorem released_of_filter {lock : LockId} (owned : (stages thread).grip.owned = some lock) :
    ∀ other ∈ world.locks.locked.filter (· ≠ lock),
      other ∈ world.locks.locked ∧ (stages thread).grip.owned ≠ some other := by
  intro other listed
  obtain ⟨stored, different⟩ := List.mem_filter.mp listed
  refine ⟨stored, ?_⟩
  rw [owned]
  rintro ⟨⟩
  simp at different

/-- The holder of a mutex unmaps it. -/
theorem Tidy.cleanup (tidy : Tidy world stages owner) (near : Near own (stages thread))
    {key : ContextCacheKey} {lock : LockId} (held : own.grip = .held key lock) :
    Tidy { world with locks := World.cleanupInflightLock world.locks key lock }
      (Function.update stages thread ⟨.tidied key lock, own.refreshing⟩) owner := by
  have grip : (stages thread).grip = .held key lock := near.grip.symm.trans held
  have cleaned : (World.cleanupInflightLock world.locks key lock).inflight.find? key ≠
      some (key, lock) := by
    unfold World.cleanupInflightLock
    split_ifs with mapped
    · rw [Table.find?_retain, mapped]
      simp [Option.filter]
    · exact mapped
  have kept (otherKey : ContextCacheKey) (other : LockId)
      (found : (World.cleanupInflightLock world.locks key lock).inflight.find? otherKey =
        some (otherKey, other)) :
      world.locks.inflight.find? otherKey = some (otherKey, other) := by
    unfold World.cleanupInflightLock at found
    split_ifs at found with mapped
    · rw [Table.find?_retain] at found
      exact (Option.filter_eq_some_iff.mp found).1
    · exact found
  have created : (World.cleanupInflightLock world.locks key lock).created =
      world.locks.created := by
    unfold World.cleanupInflightLock
    split_ifs <;> rfl
  refine tidy.keep created kept ?_ ?_ ?_ ?_ (near.refreshed world)
  · intro otherKey other sees found
    rw [grip] at sees
    cases sees
    exact absurd found cleaned
  · intro pair knows
    rw [grip]
    exact knows
  · rintro _ _ ⟨⟩ _
    exact cleaned
  · intro other listed
    simp only [cleanupInflightLock_locked] at listed
    by_cases same : other = lock
    · rw [same]
      exact .inl rfl
    · refine .inr ⟨listed, ?_⟩
      rw [grip]
      rintro ⟨⟩
      exact same rfl

/-- A caller puts a mark, or removes the one that is in its charge. -/
theorem Tidy.mark (tidy : Tidy world stages owner) (near : Near own (stages thread))
    {marks : List ContextCacheKey} {refreshing : Option ContextCacheKey}
    (marked : ∀ key ∈ marks, refreshing = some key ∨ key ∈ world.refreshInflight ∧
      (stages thread).refreshing ≠ some key) :
    Tidy { world with refreshInflight := marks }
      (Function.update stages thread ⟨own.grip, refreshing⟩) owner := by
  refine tidy.keep rfl (fun _ _ found => found) ?_ ?_ ?_ ?_ ?_
  · intro key lock sees _
    rw [near.grip]
    exact .inl sees
  · intro pair knows
    rwa [← near.grip]
  · intro key lock _ different
    exact absurd near.grip.symm different
  · intro lock listed
    by_cases owns : (stages thread).grip.owned = some lock
    · rw [near.grip]
      exact .inl owns
    · exact .inr ⟨listed, owns⟩
  · intro key listed
    rcases marked key listed with own | ⟨before, notOwn⟩
    · exact .inl own
    · exact .inr ⟨before, .inl notOwn⟩

/-- Every step of a caller. Only a caller that lets go of a mutex that it has not unmapped has to
have another one that will. -/
theorem Tidy.coordinate (tidy : Tidy world stages owner) (near : Near own (stages thread))
    (choice : Choice) {call : CoordinatorCall} (allowed : own.Allows call)
    (permitted : ∀ lock, call = .unlock lock → NotLastToClean world stages thread) :
    ∃ owner, Tidy (world.serveCoordinator choice call).2 (Function.update stages thread
      (own.after call (world.serveCoordinator choice call).1)) owner := by
  obtain ⟨grip, refreshing⟩ := own
  cases call with
  | lockForKey key =>
    obtain rfl : grip = .free := allowed
    exact tidy.refer near rfl key
  | tryLock lock =>
    obtain ⟨key, rfl⟩ : ∃ key, grip = .referred key lock := allowed
    have moved := tidy.tryLock near rfl
    refine ⟨owner, ?_⟩
    by_cases taken : lock ∈ world.locks.locked
    · simpa [World.serveCoordinator, CallStage.after, CallStage.refreshingAfter, Grip.after,
        taken] using moved
    · simpa [World.serveCoordinator, CallStage.after, CallStage.refreshingAfter, Grip.after,
        taken] using moved
  | lock lock =>
    obtain ⟨key, rfl⟩ : ∃ key, grip = .untimed key lock := allowed
    exact ⟨owner, tidy.acquire near (.inl rfl)⟩
  | lockWithTimeout lock =>
    obtain ⟨key, rfl⟩ : ∃ key, grip = .timed key lock := allowed
    refine ⟨owner, ?_⟩
    cases timedOut : choice.timedOut with
    | true =>
      have served : world.serveCoordinator choice (.lockWithTimeout lock) = (.ok false, world) := by
        simp [World.serveCoordinator, timedOut]
      rw [served]
      exact tidy.giveUp near rfl
    | false =>
      have served : world.serveCoordinator choice (.lockWithTimeout lock) = (.ok true,
          { world with locks := { world.locks with locked := lock :: world.locks.locked } }) := by
        simp [World.serveCoordinator, timedOut]
      rw [served]
      exact tidy.acquire near (.inr rfl)
  | unlock lock =>
    obtain ⟨key, holds⟩ : ∃ key, grip = .held key lock ∨ grip = .tidied key lock := allowed
    have owned : (stages thread).grip.owned = some lock := by
      rw [← near.grip]
      rcases holds with rfl | rfl <;> rfl
    have freed : (⟨grip, refreshing⟩ : CallStage).after (.unlock lock) (.ok ()) =
        ⟨.free, refreshing⟩ := by
      rcases holds with rfl | rfl <;> rfl
    refine ⟨owner, ?_⟩
    have served : world.serveCoordinator choice (.unlock lock) = (.ok (), { world with
      locks := { world.locks with locked := world.locks.locked.filter (· ≠ lock) } }) := rfl
    rw [served, freed]
    exact tidy.letGo (permitted lock rfl) (released_of_filter owned) (near.refreshed world)
  | cleanupInflightLock key lock =>
    obtain rfl : grip = .held key lock := allowed
    exact ⟨owner, tidy.cleanup near rfl⟩
  | tryStartRefresh key =>
    obtain rfl : refreshing = none := allowed
    have unmarked (other : ContextCacheKey) : (stages thread).refreshing ≠ some other := by
      intro sees
      cases near.refreshing other sees
    have same (started : Bool) : grip.after (.tryStartRefresh key) started = grip := by
      cases grip <;> rfl
    refine ⟨owner, ?_⟩
    by_cases inflight : key ∈ world.refreshInflight
    · have served : world.serveCoordinator choice (.tryStartRefresh key) = (.ok false, world) :=
        if_pos inflight
      rw [served, CallStage.after, same]
      exact tidy.mark near fun other listed => .inr ⟨listed, unmarked other⟩
    · have served : world.serveCoordinator choice (.tryStartRefresh key) = (.ok true,
          { world with refreshInflight := key :: world.refreshInflight }) := if_neg inflight
      rw [served, CallStage.after, same]
      apply tidy.mark near
      intro other listed
      rcases List.mem_cons.mp listed with rfl | before
      · exact .inl rfl
      · exact .inr ⟨before, unmarked other⟩
  | finishRefresh key =>
    obtain rfl : refreshing = some key := allowed
    have same : grip.after (.finishRefresh key) () = grip := by
      cases grip <;> rfl
    have served : world.serveCoordinator choice (.finishRefresh key) = (.ok (), { world with
      refreshInflight := world.refreshInflight.filter (· ≠ key) }) := rfl
    refine ⟨owner, ?_⟩
    rw [served, CallStage.after, same]
    apply tidy.mark near
    intro other listed
    obtain ⟨stored, different⟩ := List.mem_filter.mp listed
    refine .inr ⟨stored, fun sees => ?_⟩
    cases near.refreshing other sees
    simp at different
  | computeBegins key | computeEnds key =>
    have same : (⟨grip, refreshing⟩ : CallStage) =
        ⟨grip.after (.computeBegins key) (), refreshing⟩ := by
      cases grip <;> rfl
    have other : grip.after (.computeEnds key) () = grip := by
      cases grip <;> rfl
    refine ⟨owner, ?_⟩
    simp only [World.serveCoordinator, CallStage.after, CallStage.refreshingAfter, other, ← same]
    exact tidy.still near rfl rfl

theorem serve_refreshInflight {platform : Platform} {port : Port} (quiet : NoCoordination port)
    (choice : Choice) (world : World) :
    (World.serve platform choice port world).2.refreshInflight = world.refreshInflight := by
  cases port with
  | coordinator call => exact quiet.elim
  | system call => cases call <;> rfl
  | _ => simp only [World.serve, World.unlessFault]; split <;> rfl

/-- What a caller has locked is free again when the caller is dropped. -/
def releaseGrip (grip : Grip) (world : World) : World :=
  match grip.owned with
  | some lock => { world with
      locks := { world.locks with locked := world.locks.locked.filter (· ≠ lock) } }
  | none => world

/-- A caller is dropped that no mutex and no mark depends on. -/
theorem Tidy.dropped (tidy : Tidy world stages owner)
    (notLastToClean : NotLastToClean world stages thread)
    (notLastToFinish : NotLastToFinish world stages thread) :
    Tidy (releaseGrip (stages thread).grip world) (Function.update stages thread .past) owner := by
  have marks : ∀ key ∈ world.refreshInflight, none = some key ∨ key ∈ world.refreshInflight ∧
      ((stages thread).refreshing ≠ some key ∨
        ∃ other, other ≠ thread ∧ (stages other).refreshing = some key) := by
    intro key listed
    refine .inr ⟨listed, ?_⟩
    by_cases sees : (stages thread).refreshing = some key
    · exact .inr (notLastToFinish key sees listed)
    · exact .inl sees
  unfold releaseGrip
  cases owned : (stages thread).grip.owned with
  | some lock => exact tidy.letGo notLastToClean (released_of_filter owned) marks
  | none =>
    apply tidy.letGo notLastToClean ?_ marks
    intro lock listed
    rw [owned]
    exact ⟨listed, nofun⟩

end Steps

/-! ## Runs -/

/-- A lookup, with the refresh that follows if one is reported as started, or a refresh. -/
inductive CoordinatorRequest where
  | lookUp (key : ContextCacheKey) (compute recompute : EngineProgram CachedContextEntry)
  | refresh (key : ContextCacheKey) (compute : EngineProgram CachedContextEntry)

namespace CoordinatorRequest

def key : CoordinatorRequest → ContextCacheKey
  | lookUp key _ _ | refresh key _ => key

def program (engine : MemoryEngine) : CoordinatorRequest → EngineProgram Unit
  | lookUp key compute recompute => do
      let served ← getOrCompute engine key compute
      if served.2.refreshStarted then refreshEntry engine key recompute else return ()
  | refresh key compute => refreshEntry engine key compute

/-- No computation calls the coordinator. -/
def LeavesCoordinator : CoordinatorRequest → Prop
  | lookUp _ compute recompute =>
      compute.Within NoCoordination ∧ recompute.Within NoCoordination
  | refresh _ compute => compute.Within NoCoordination

/-- A refresh removes the mark of its key in the end. -/
def start : CoordinatorRequest → CallStage
  | lookUp _ _ _ => .past
  | refresh key _ => ⟨.free, some key⟩

theorem program_tidies (engine : MemoryEngine) {request : CoordinatorRequest}
    (leaves : request.LeavesCoordinator) :
    Ensures tidySpec (request.program engine) (fun _ later => later = .past) request.start := by
  cases request with
  | refresh key compute => exact refreshEntry_finishes engine leaves
  | lookUp key compute recompute =>
    apply (ensures_bind _ _ _ _ _).mpr
    apply Ensures.mono tidySpec_monotone (getOrCompute_marks engine leaves.1)
    intro outcome later marked
    cases outcome with
    | error error => exact (andThen_error _ _ _ _ _).mpr marked
    | ok served =>
      apply (andThen_ok _ _ _ _ _).mpr
      obtain rfl : later = ⟨.free, if served.2.refreshStarted then some key else none⟩ := marked
      cases served.2.refreshStarted with
      | true => exact refreshEntry_finishes engine leaves.2
      | false => exact (ensures_pure _ _ _ _).mpr rfl

end CoordinatorRequest

abbrev CoordinatorPool := Pool enginePorts MemcoreError Unit World

section Runs

variable (requests : ℕ → CoordinatorRequest)

/-- How far the requests are that are in progress. -/
def requestStages (pool : CoordinatorPool) : ℕ → CallStage :=
  pool.stages tidyProtocol (fun thread => (requests thread).start) .past

/-- A request that lets go of a mutex is not the last one to unmap it. -/
def ReleasesSeenTo (pool : CoordinatorPool) (thread : ℕ) (port : Port) (_ : Choice) : Prop :=
  match port with
  | .coordinator (.unlock _) => NotLastToClean pool.world (requestStages requests pool) thread
  | _ => True

/-- A request that is dropped is not the last one to unmap a mutex or to remove a mark. -/
def DropsSeenTo (pool : CoordinatorPool) (thread : ℕ) : Prop :=
  NotLastToClean pool.world (requestStages requests pool) thread ∧
    NotLastToFinish pool.world (requestStages requests pool) thread

/-- The mutex that a dropped request has locked is released. -/
def releaseRequest (thread : ℕ) (trace : EngineTrace) (world : World) : World :=
  releaseGrip (Pool.stageOf tidyProtocol (fun thread => (requests thread).start) thread trace).grip
    world

/-- In every interleaving of any number of lookups and refreshes, with any results, failures and
expiring time limits, any of which may be dropped at any of its calls: if each request that lets go
of a mutex without unmapping it, or is dropped, leaves another one to see to its mutex and its mark,
then no mutex is mapped and no key is marked in any state in which no request is in progress. -/
theorem coordinator_leaves_nothing (engine : MemoryEngine)
    (leave : ∀ thread, (requests thread).LeavesCoordinator) {world : World}
    (unmapped : world.locks.inflight = .empty) (unlocked : world.locks.locked = [])
    (unmarked : world.refreshInflight = []) (gone : MemcoreError) {pool : CoordinatorPool}
    (reached : Pool.ReachesDropping (engineServer engine.platform) (ReleasesSeenTo requests)
      (DropsSeenTo requests) (releaseRequest requests) gone
      (Pool.start world fun thread => (requests thread).program engine) pool)
    (idle : ∀ thread, pool.inProgress thread = false) :
    pool.world.locks.inflight.rows = [] ∧ pool.world.refreshInflight = [] := by
  have initially : ∃ owner, Tidy world (fun _ => .past) owner := by
    refine ⟨fun _ => (requests 0).key, ?_, nofun, nofun, ?_, ?_⟩
    · intro key lock found
      rw [unmapped] at found
      cases found
    · intro lock listed
      rw [unlocked] at listed
      cases listed
    · intro key listed
      rw [unmarked] at listed
      cases listed
  have near (pool : CoordinatorPool) (thread : ℕ)
      (waiting : Pool.isWaiting (pool.threads thread) = true) :
      Near (Pool.stageOf tidyProtocol (fun thread => (requests thread).start) thread pool.trace)
        (requestStages requests pool thread) := by
    have placed := @Pool.stages_of_waiting _ _ _ _ _ tidyProtocol
      (fun thread => (requests thread).start) .past pool thread waiting
    rcases placed with same | ⟨before, first⟩
    · rw [requestStages, same]
      exact ⟨rfl, fun _ sees => sees⟩
    · rw [requestStages, before, first]
      refine ⟨?_, nofun⟩
      cases requests thread <;> rfl
  have keeps (pool : CoordinatorPool) (thread : ℕ) (port : Port)
      (resume : MemcoreResult port.Answer → EngineProgram Unit) (choice : Choice)
      (kept : ∃ owner, Tidy pool.world (requestStages requests pool) owner)
      (waiting : pool.threads thread = .ask port resume)
      (allowed : tidyProtocol.allows (Pool.stageOf tidyProtocol
        (fun thread => (requests thread).start) thread pool.trace) port)
      (_ : World.ready choice port pool.world = true)
      (permitted : ReleasesSeenTo requests pool thread port choice) :
      ∃ owner, Tidy (World.serve engine.platform choice port pool.world).2
        (Function.update (requestStages requests pool) thread (tidyProtocol.next
          (Pool.stageOf tidyProtocol (fun thread => (requests thread).start) thread pool.trace)
          port (World.serve engine.platform choice port pool.world).1)) owner := by
    obtain ⟨owner, tidy⟩ := kept
    have nearby := near pool thread (by rw [waiting]; rfl)
    by_cases quiet : NoCoordination port
    · have same : tidyProtocol.next (Pool.stageOf tidyProtocol
          (fun thread => (requests thread).start) thread pool.trace) port
          (World.serve engine.platform choice port pool.world).1 = Pool.stageOf tidyProtocol
            (fun thread => (requests thread).start) thread pool.trace := by
        cases port with
        | coordinator call => exact quiet.elim
        | _ => rfl
      rw [same]
      exact ⟨owner, tidy.still nearby (serve_locks quiet choice pool.world)
        (serve_refreshInflight quiet choice pool.world)⟩
    · cases port with
      | coordinator call =>
        apply tidy.coordinate nearby choice allowed
        rintro lock rfl
        exact permitted
      | _ => exact absurd trivial quiet
  have releases (pool : CoordinatorPool) (thread : ℕ)
      (kept : ∃ owner, Tidy pool.world (requestStages requests pool) owner)
      (underway : pool.inProgress thread = true) (permitted : DropsSeenTo requests pool thread) :
      ∃ owner, Tidy (releaseRequest requests thread pool.trace pool.world)
        (Function.update (requestStages requests pool) thread .past) owner := by
    obtain ⟨owner, tidy⟩ := kept
    have same : requestStages requests pool thread = Pool.stageOf tidyProtocol
        (fun thread => (requests thread).start) thread pool.trace := if_pos underway
    rw [releaseRequest, ← same]
    exact ⟨owner, tidy.dropped permitted.1 permitted.2⟩
  have follow (thread : ℕ) : Ensures tidySpec ((requests thread).program engine)
      (fun _ later => later = .past) (requests thread).start :=
    CoordinatorRequest.program_tidies engine (leave thread)
  obtain ⟨owner, tidy⟩ := @Pool.ReachesDropping.invariant _ _ _ _ _ _ _ _ _ _ _ _ _ reached
    tidyProtocol Answerable (fun thread => (requests thread).start) .past
    (fun world stages => ∃ owner, Tidy world stages owner)
    (fun choice port world => serve_answerable engine.platform choice port world)
    keeps releases follow rfl initially
  have past (thread : ℕ) : requestStages requests pool thread = .past :=
    Pool.stages_of_idle (idle thread)
  constructor
  · apply List.eq_nil_iff_forall_not_mem.mpr
    intro row stored
    have found : pool.world.locks.inflight.find? row.1 = some (row.1, row.2) :=
      (Table.find?_eq_some _ _ _).mpr ⟨stored, rfl⟩
    obtain ⟨thread, sees⟩ := tidy.mapped _ _ found
    rw [show pool.stages _ _ _ thread = _ from past thread] at sees
    cases sees
  · apply List.eq_nil_iff_forall_not_mem.mpr
    intro key marked
    obtain ⟨thread, sees⟩ := tidy.refreshed key marked
    rw [show pool.stages _ _ _ thread = _ from past thread] at sees
    cases sees

end Runs

/-! ## A lookup that fails, and one that is dropped -/

/-- Lookups of the sample context. -/
def sampleCoordination : CoordinatorRequest :=
  .lookUp (buildContextCacheKey .sample sampleContext) (computeContext .sample sampleContext)
    (computeContext .sample sampleContext)

theorem sampleCoordination_leaves : sampleCoordination.LeavesCoordinator :=
  ⟨sampleLookup_leaves, sampleLookup_leaves⟩

/-- Steps of a lookup with plain answers. -/
def moves (thread count : ℕ) : List (ℕ × Option Choice) :=
  (turns thread count).map fun turn => (turn.1, some turn.2)

/-- Mutexes are unmapped before they are let go of. -/
def releasesTidied (pool : CoordinatorPool) (thread : ℕ) (port : Port) (_ : Choice) : Prop :=
  match port with
  | .coordinator (.unlock _) =>
      (requestStages (fun _ => sampleCoordination) pool thread).grip.cleans = none
  | _ => True

instance (pool : CoordinatorPool) (thread : ℕ) (port : Port) (choice : Choice) :
    Decidable (releasesTidied pool thread port choice) := by
  unfold releasesTidied
  split <;> infer_instance

/-- Requests are dropped that see to nothing. -/
def dropsIdle (pool : CoordinatorPool) (thread : ℕ) : Prop :=
  (requestStages (fun _ => sampleCoordination) pool thread).grip.cleans = none ∧
    (requestStages (fun _ => sampleCoordination) pool thread).refreshing = none

instance (pool : CoordinatorPool) (thread : ℕ) : Decidable (dropsIdle pool thread) :=
  inferInstanceAs (Decidable (_ ∧ _))

theorem seenTo_of_tidied {pool : CoordinatorPool} {thread : ℕ} {port : Port} {choice : Choice}
    (tidied : releasesTidied pool thread port choice) :
    ReleasesSeenTo (fun _ => sampleCoordination) pool thread port choice := by
  unfold ReleasesSeenTo
  split
  · intro key lock sees
    exact absurd (tidied.symm.trans sees) nofun
  · trivial

theorem seenTo_of_idle {pool : CoordinatorPool} {thread : ℕ} (idle : dropsIdle pool thread) :
    DropsSeenTo (fun _ => sampleCoordination) pool thread := by
  constructor
  · intro key lock sees
    exact absurd (idle.1.symm.trans sees) nofun
  · intro key sees
    exact absurd (idle.2.symm.trans sees) nofun

/-- While one lookup computes, another one that waits is dropped. The computation fails. -/
theorem coordinator_leaves_nothing_sample : ∃ pool : CoordinatorPool,
    decide (pool.world.locks.created = 1) = true ∧
      pool.world.locks.inflight.rows = [] ∧ pool.world.refreshInflight = [] := by
  obtain ⟨pool, reached, passed⟩ := @Pool.exists_reached_of_runDropping _ _ _ _ _
    (engineServer .sample) releasesTidied dropsIdle (releaseRequest fun _ => sampleCoordination)
    .unauthorized _ _ (Pool.start (World.empty 1000) fun _ => sampleCoordination.program .sample)
    (moves 0 6 ++ moves 1 3 ++ [(1, none)] ++ moves 0 1 ++
      [(0, some { fault := some (.providerError "unavailable") })] ++ moves 0 3)
    (fun pool => pool.isQuiet && decide (pool.world.locks.created = 1)) (by decide +kernel)
  obtain ⟨quiet, created⟩ := (Bool.and_eq_true _ _).mp passed
  have permitted := reached.mono (fun _ _ _ _ => seenTo_of_tidied) fun _ _ => seenTo_of_idle
  exact ⟨pool, created, coordinator_leaves_nothing (fun _ => sampleCoordination) .sample
    (fun _ => sampleCoordination_leaves) rfl rfl rfl .unauthorized permitted
    ((Pool.isQuiet_iff pool).mp quiet)⟩

/-- The cache fails when the holder of a new mutex looks its key up again: the lookup is over, and
the mutex stays mapped. So it does when a lookup is dropped while it computes. -/
theorem failed_lookup_stays_mapped :
    (∃ pool : CoordinatorPool, Pool.ReachesDropping (engineServer .sample)
        (fun _ _ _ _ => True) (fun _ _ => False) (releaseRequest fun _ => sampleCoordination)
        .unauthorized (Pool.start (World.empty 1000) fun _ => sampleCoordination.program .sample)
        pool ∧
      (∀ thread, pool.inProgress thread = false) ∧ pool.world.locks.inflight.rows.length = 1) ∧
    ∃ pool : CoordinatorPool, Pool.ReachesDropping (engineServer .sample)
        (fun _ _ _ _ => True) (fun _ _ => True) (releaseRequest fun _ => sampleCoordination)
        .unauthorized (Pool.start (World.empty 1000) fun _ => sampleCoordination.program .sample)
        pool ∧
      (∀ thread, pool.inProgress thread = false) ∧ pool.world.locks.inflight.rows.length = 1 := by
  constructor
  · obtain ⟨pool, reached, passed⟩ := @Pool.exists_reached_of_runDropping _ _ _ _ _
      (engineServer .sample) (fun _ _ _ _ => True) (fun _ _ => False)
      (releaseRequest fun _ => sampleCoordination) .unauthorized _ _
      (Pool.start (World.empty 1000) fun _ => sampleCoordination.program .sample)
      (moves 0 4 ++ [(0, some { fault := some (.storageError "unreachable") })] ++ moves 0 1)
      (fun pool => pool.isQuiet && decide (pool.world.locks.inflight.rows.length = 1))
      (by decide +kernel)
    obtain ⟨quiet, mapped⟩ := (Bool.and_eq_true _ _).mp passed
    exact ⟨pool, reached, (Pool.isQuiet_iff pool).mp quiet, of_decide_eq_true mapped⟩
  · obtain ⟨pool, reached, passed⟩ := @Pool.exists_reached_of_runDropping _ _ _ _ _
      (engineServer .sample) (fun _ _ _ _ => True) (fun _ _ => True)
      (releaseRequest fun _ => sampleCoordination) .unauthorized _ _
      (Pool.start (World.empty 1000) fun _ => sampleCoordination.program .sample)
      (moves 0 6 ++ [(0, none)])
      (fun pool => pool.isQuiet && decide (pool.world.locks.inflight.rows.length = 1))
      (by decide +kernel)
    obtain ⟨quiet, mapped⟩ := (Bool.and_eq_true _ _).mp passed
    exact ⟨pool, reached, (Pool.isQuiet_iff pool).mp quiet, of_decide_eq_true mapped⟩

end Memcore
