import Memcore.Engine.RetentionCutoffs
import Memcore.Guarantees.TimestampOrder
import Memcore.Stores.OrgUsers
import Memcore.Stores.SqliteStatements

/-!
# Retention deletes what its dry run reports

A dry run counts the active facts and the events of a tenant that are older than the cut-offs.
Retention right after it deletes them, with the vectors of these facts, and nothing else. It
does so if no cut-off lies before the calendar. SQLite compares texts, and there the order of
the texts has to be that of the instants as well.
-/
namespace Memcore

open KeyedTables Ports Programs

/-! ## What is found to be old -/

/-- The active facts of a tenant whose last change is found to be old. -/
def MockFactStore.found (store : MockFactStore) (tenant : TenantContext)
    (isOld : Instant → Bool) : List Fact :=
  store.facts.rows.filter fun fact =>
    decide (fact.tenant = tenant) && !store.isDeleted fact.id && isOld fact.updatedAt

/-- The store with these facts soft-deleted. -/
def MockFactStore.without (store : MockFactStore) (tenant : TenantContext)
    (isOld : Instant → Bool) : MockFactStore :=
  store.markDeleted ((store.found tenant isOld).map Fact.id) (by
    intro id member
    obtain ⟨fact, found, sameId⟩ := List.mem_map.mp member
    rw [Table.contains_iff]
    exact ⟨fact, (List.mem_filter.mp found).1, sameId⟩)

/-- The event is the tenant's, and found to be old. -/
def foundEvent (tenant : TenantContext) (isOld : Instant → Bool) (event : MemoryEvent) : Bool :=
  decide (event.tenant = tenant) && isOld event.createdAt

/-- The vectors without those of some facts of a tenant. -/
def withoutVectors (tenant : TenantContext) (vectors : MockVectorStore) (factIds : List Uuid) :
    MockVectorStore :=
  factIds.foldl (fun vectors factId => (vectors.deleteByFactId tenant factId).2) vectors

section Found

variable {store : MockFactStore} {tenant : TenantContext} {isOld : Instant → Bool}

theorem mem_found {fact : Fact} : fact ∈ store.found tenant isOld ↔
    store.Active fact ∧ fact.tenant = tenant ∧ isOld fact.updatedAt = true := by
  simp only [MockFactStore.found, MockFactStore.Active, MockFactStore.isDeleted, List.mem_filter,
    Bool.and_eq_true, decide_eq_true_eq, Bool.not_eq_true', decide_eq_false_iff_not]
  tauto

theorem found_never : store.found tenant (fun _ => false) = [] := by
  simp [MockFactStore.found]

theorem without_never : store.without tenant (fun _ => false) = store := by
  simp [MockFactStore.without, MockFactStore.markDeleted, found_never]

/-- An identifier is named just when its fact is found. -/
theorem named_iff {fact : Fact} (stored : fact ∈ store.facts.rows) :
    fact.id ∈ (store.found tenant isOld).map Fact.id ↔ fact ∈ store.found tenant isOld := by
  constructor
  · intro member
    obtain ⟨other, found, same⟩ := List.mem_map.mp member
    have one := store.facts.eq_of_key (List.mem_filter.mp found).1 stored same
    exact one ▸ found
  · exact List.mem_map_of_mem

theorem active_without {fact : Fact} : (store.without tenant isOld).Active fact ↔
    store.Active fact ∧ ¬ (fact.tenant = tenant ∧ isOld fact.updatedAt = true) := by
  rw [MockFactStore.without, MockFactStore.active_markDeleted]
  constructor
  · rintro ⟨active, unnamed⟩
    refine ⟨active, fun old => unnamed ?_⟩
    exact (named_iff active.1).mpr (mem_found.mpr ⟨active, old⟩)
  · rintro ⟨active, recent⟩
    refine ⟨active, fun named => recent ?_⟩
    exact (mem_found.mp ((named_iff active.1).mp named)).2

theorem mem_withoutVectors {vectors : MockVectorStore} {factIds : List Uuid}
    {record : VectorRecord} : record ∈ (withoutVectors tenant vectors factIds).rows ↔
      record ∈ vectors.rows ∧ ¬ (record.tenant = tenant ∧ record.factId ∈ factIds) := by
  induction factIds generalizing vectors with
  | nil => simp [withoutVectors]
  | cons factId factIds inductionHypothesis =>
    show record ∈ (withoutVectors tenant (vectors.deleteByFactId tenant factId).2 factIds).rows ↔ _
    rw [inductionHypothesis, MockVectorStore.mem_deleteByFactId, List.mem_cons]
    tauto

end Found

/-! ## What retention promises -/

/-- Everything of a tenant that is older than the cut-offs is gone, with the vectors of the
facts. Nothing else has changed, apart from the cached contexts of the tenant. -/
structure OldRemoved (tenant : TenantContext) (factCutoff eventCutoff : Option Instant)
    (before after : World) : Prop where
  rows : after.facts.facts = before.facts.facts
  facts : ∀ fact, after.facts.Active fact ↔ before.facts.Active fact ∧
    ¬ (fact.tenant = tenant ∧ ∃ cutoff ∈ factCutoff, fact.updatedAt < cutoff)
  events : after.events = before.events.filter fun event =>
    !foundEvent tenant (fun createdAt => eventCutoff.any fun cutoff => createdAt < cutoff) event
  vectors : ∀ record, record ∈ after.vectors.rows ↔ record ∈ before.vectors.rows ∧
    ¬ (record.tenant = tenant ∧ ∃ fact, before.facts.Active fact ∧ fact.tenant = tenant ∧
      (∃ cutoff ∈ factCutoff, fact.updatedAt < cutoff) ∧ fact.id = record.factId)
  cache : ∀ row, row.1.tenant ≠ tenant →
    (row ∈ after.cache.entries.rows ↔ row ∈ before.cache.entries.rows)
  locks : after.locks = before.locks
  refreshInflight : after.refreshInflight = before.refreshInflight
  usageAttribution : after.usageAttribution = before.usageAttribution

/-- The cut-off for facts, if they are to expire. -/
def factCutoff (policy : RetentionPolicy) (clock : Instant) : Option Instant :=
  policy.factDaysActive.map fun count => clock - days count

/-- The cut-off for events, if they are to expire and a store is configured. -/
def eventCutoff (engine : MemoryEngine) (policy : RetentionPolicy) (clock : Instant) :
    Option Instant :=
  if engine.eventStore then policy.eventDaysActive.map fun count => clock - days count else none

/-- A dry run counts what is older than the cut-offs and changes nothing. A run right after it
has the same counts and removes that, and nothing else. -/
def DeletesExactlyTheOld {σ : Type} (serve : (port : Port) → σ → MemcoreResult port.Answer × σ)
    (shows : σ → World → Prop) (earliest : Instant) (engine : MemoryEngine)
    (tenant : TenantContext) (policy : RetentionPolicy) (clock : Instant) (state : σ)
    (world : World) : Prop :=
  let facts := world.facts.found tenant fun updatedAt =>
    (factCutoff policy clock).any fun cutoff => updatedAt < cutoff
  let events := world.events.filter (foundEvent tenant fun createdAt =>
    (eventCutoff engine policy clock).any fun cutoff => createdAt < cutoff)
  (applyRetentionFrom earliest engine ⟨tenant, policy, true⟩).evaluate serve state =
      (.ok (some ⟨true, facts.length, 0, events.length, 0⟩), state) ∧
    ∃ after final,
      (applyRetentionFrom earliest engine ⟨tenant, policy, false⟩).evaluate serve state =
        (.ok (some ⟨false, facts.length, facts.length, events.length, events.length⟩), after) ∧
      shows after final ∧
      OldRemoved tenant (factCutoff policy clock) (eventCutoff engine policy clock) world final

/-! ## Any stores -/

/-- What retention relies on. A state shows a world, and the stores count and delete what is
older in their own comparison. -/
structure ServesRetention {σ : Type} (serve : (port : Port) → σ → MemcoreResult port.Answer × σ)
    (shows : σ → World → Prop) (clock : Instant) (older : Instant → Instant → Bool) : Prop where
  now : ∀ state, serve (.system .now) state = (.ok clock, state)
  countFacts : ∀ {state world}, shows state world → ∀ tenant cutoff,
    serve (.facts (.deleteFactsOlderThan tenant cutoff true)) state =
      (.ok ⟨(world.facts.found tenant (older · cutoff)).length, []⟩, state)
  deleteFacts : ∀ {state world}, shows state world → ∀ tenant cutoff, ∃ after,
    serve (.facts (.deleteFactsOlderThan tenant cutoff false)) state =
        (.ok ⟨(world.facts.found tenant (older · cutoff)).length,
          (world.facts.found tenant (older · cutoff)).map Fact.id⟩, after) ∧
      shows after { world with facts := world.facts.without tenant (older · cutoff) }
  countEvents : ∀ {state world}, shows state world → ∀ tenant cutoff,
    serve (.events (.deleteEventsOlderThan tenant cutoff true)) state =
      (.ok (world.events.filter (foundEvent tenant (older · cutoff))).length, state)
  deleteEvents : ∀ {state world}, shows state world → ∀ tenant cutoff, ∃ after,
    serve (.events (.deleteEventsOlderThan tenant cutoff false)) state =
        (.ok (world.events.filter (foundEvent tenant (older · cutoff))).length, after) ∧
      shows after { world with
        events := world.events.filter fun event => !foundEvent tenant (older · cutoff) event }
  deleteVectors : ∀ {state world}, shows state world → ∀ tenant factId, ∃ after,
    serve (.vectors (.deleteByFactId tenant factId)) state =
        ((world.vectors.deleteByFactId tenant factId).1, after) ∧
      shows after { world with vectors := (world.vectors.deleteByFactId tenant factId).2 }
  invalidate : ∀ {state world}, shows state world → ∀ tenant : TenantContext, ∃ count after,
    serve (.cache (.invalidateUser tenant.orgId tenant.userId)) state = (.ok count, after) ∧
      shows after { world with cache := world.cache.invalidateUser tenant }
  sameMarks : ∀ {state left right}, shows state left → shows state right →
    left.facts.facts = right.facts.facts → ∀ fact ∈ left.facts.facts.rows,
      left.facts.isDeleted fact.id = right.facts.isDeleted fact.id
  sameEvents : ∀ {before world after left right}, shows before world → shows after left →
    shows after right → ∀ kept retained : MemoryEvent → Bool,
      left.events = world.events.filter kept → right.events = world.events.filter retained →
        ∀ event ∈ world.events, kept event = retained event

/-- Older than a cut-off, if there is one. -/
def isBefore (older : Instant → Instant → Bool) (cutoff : Option Instant) (instant : Instant) :
    Bool :=
  cutoff.any (older instant)

theorem isBefore_none (older : Instant → Instant → Bool) :
    isBefore older none = fun _ => false := rfl

theorem filter_foundEvent_never (tenant : TenantContext) (events : List MemoryEvent) :
    events.filter (foundEvent tenant fun _ => false) = [] := by
  simp [foundEvent]

theorem filter_not_foundEvent_never (tenant : TenantContext) (events : List MemoryEvent) :
    events.filter (fun event => !foundEvent tenant (fun _ => false) event) = events := by
  simp [foundEvent]

/-- The world without what is found to be old. -/
def World.pruned (engine : MemoryEngine) (tenant : TenantContext)
    (isOldFact isOldEvent : Instant → Bool) (world : World) : World :=
  let facts := world.facts.found tenant isOldFact
  { world with
    facts := world.facts.without tenant isOldFact
    vectors := withoutVectors tenant world.vectors (facts.map Fact.id)
    events := world.events.filter fun event => !foundEvent tenant isOldEvent event
    cache := if engine.contextCacheConfig.enabled && decide (0 < facts.length) then
        world.cache.invalidateUser tenant
      else world.cache }

section Evaluation

variable {σ : Type} {serve : (port : Port) → σ → MemcoreResult port.Answer × σ}
  {shows : σ → World → Prop} {clock : Instant} {older : Instant → Instant → Bool}
  (serves : ServesRetention serve shows clock older) {engine : MemoryEngine}
  {tenant : TenantContext} {policy : RetentionPolicy} {state : σ} {world : World}
include serves

theorem evaluate_now : now.evaluate serve state = (.ok clock, state) :=
  (evaluate_perform _).trans (serves.now state)

theorem evaluate_deleteVectorIfPresent (shown : shows state world) (factId : Uuid) : ∃ after,
    (deleteVectorIfPresent tenant factId).evaluate serve state = (.ok (), after) ∧
      shows after { world with vectors := (world.vectors.deleteByFactId tenant factId).2 } := by
  obtain ⟨after, served, shownAfter⟩ := serves.deleteVectors shown tenant factId
  refine ⟨after, ?_, shownAfter⟩
  have attempted := @Program.evaluate_attempt enginePorts MemcoreError _ σ serve state
    (deleteByFactId tenant factId)
  rw [show (deleteByFactId tenant factId).evaluate serve state = _ from evaluate_perform _,
    served] at attempted
  unfold deleteVectorIfPresent
  rw [Program.evaluate_bind_ok attempted]
  cases answer : (world.vectors.deleteByFactId tenant factId).1 with
  | ok value => rfl
  | error error =>
    dsimp only
    rw [if_pos (MockVectorStore.deleteByFactId_error _ _ _ _ answer)]
    rfl

theorem evaluate_deleteVectorsIfPresent (shown : shows state world) (factIds : List Uuid) :
    ∃ after, (deleteVectorsIfPresent tenant factIds).evaluate serve state = (.ok (), after) ∧
      shows after { world with vectors := withoutVectors tenant world.vectors factIds } := by
  induction factIds generalizing state world with
  | nil => exact ⟨state, rfl, shown⟩
  | cons factId factIds inductionHypothesis =>
    obtain ⟨middle, first, shownMiddle⟩ := evaluate_deleteVectorIfPresent serves shown factId
    obtain ⟨after, rest, shownAfter⟩ := inductionHypothesis shownMiddle
    exact ⟨after, (Program.evaluate_bind_ok first).trans rest, shownAfter⟩

theorem evaluate_invalidateUserContextCache (shown : shows state world) : ∃ after,
    (invalidateUserContextCache engine tenant).evaluate serve state = (.ok (), after) ∧
      shows after { world with cache :=
        if engine.contextCacheConfig.enabled then world.cache.invalidateUser tenant
        else world.cache } := by
  unfold invalidateUserContextCache
  cases enabled : engine.contextCacheConfig.enabled with
  | false => exact ⟨state, rfl, shown⟩
  | true =>
    obtain ⟨count, after, served, shownAfter⟩ := serves.invalidate shown tenant
    have attempted := @Program.evaluate_attempt enginePorts MemcoreError _ σ serve state
      (invalidateUser tenant.orgId tenant.userId)
    rw [show (invalidateUser tenant.orgId tenant.userId).evaluate serve state = _ from
      evaluate_perform _, served] at attempted
    exact ⟨after, Program.evaluate_bind_ok attempted, shownAfter⟩

theorem evaluate_countFacts (shown : shows state world) :
    (expireFacts ⟨tenant, policy, true⟩).evaluate serve state =
      (.ok ((world.facts.found tenant (isBefore older (factCutoff policy clock))).length, 0),
        state) := by
  unfold expireFacts factCutoff
  cases policy.factDaysActive with
  | none =>
    rw [Option.map_none, isBefore_none, found_never]
    rfl
  | some factDays =>
    have counted := (evaluate_perform _).trans
      (serves.countFacts shown tenant (clock - days factDays))
    exact (Program.evaluate_bind_ok (evaluate_now serves)).trans
      (Program.evaluate_bind_ok counted)

theorem evaluate_expireFacts (shown : shows state world) : ∃ after,
    (expireFacts ⟨tenant, policy, false⟩).evaluate serve state =
        (.ok ((world.facts.found tenant (isBefore older (factCutoff policy clock))).length,
          (world.facts.found tenant (isBefore older (factCutoff policy clock))).length), after) ∧
      shows after { world with
        facts := world.facts.without tenant (isBefore older (factCutoff policy clock))
        vectors := withoutVectors tenant world.vectors <|
          (world.facts.found tenant (isBefore older (factCutoff policy clock))).map Fact.id } := by
  unfold expireFacts factCutoff
  cases policy.factDaysActive with
  | none =>
    rw [Option.map_none, isBefore_none, found_never, without_never]
    exact ⟨state, rfl, shown⟩
  | some factDays =>
    obtain ⟨middle, served, shownMiddle⟩ :=
      serves.deleteFacts shown tenant (clock - days factDays)
    obtain ⟨after, deleted, shownAfter⟩ := evaluate_deleteVectorsIfPresent serves shownMiddle
      ((world.facts.found tenant (older · (clock - days factDays))).map Fact.id)
    refine ⟨after, ?_, shownAfter⟩
    refine (Program.evaluate_bind_ok (evaluate_now serves)).trans ?_
    refine (Program.evaluate_bind_ok ((evaluate_perform _).trans served)).trans ?_
    exact Program.evaluate_bind_ok deleted

theorem evaluate_countEvents (shown : shows state world) :
    (expireEvents engine ⟨tenant, policy, true⟩).evaluate serve state =
      (.ok ((world.events.filter (foundEvent tenant
        (isBefore older (eventCutoff engine policy clock)))).length, 0), state) := by
  unfold expireEvents eventCutoff
  cases policy.eventDaysActive with
  | none =>
    simp only [Option.map_none, ite_self, isBefore_none, filter_foundEvent_never]
    rfl
  | some eventDays =>
    cases engine.eventStore with
    | false =>
      simp only [Bool.false_eq_true, if_false, isBefore_none, filter_foundEvent_never]
      rfl
    | true =>
      have counted := (evaluate_perform _).trans
        (serves.countEvents shown tenant (clock - days eventDays))
      exact (Program.evaluate_bind_ok (evaluate_now serves)).trans
        (Program.evaluate_bind_ok counted)

theorem evaluate_expireEvents (shown : shows state world) : ∃ after,
    (expireEvents engine ⟨tenant, policy, false⟩).evaluate serve state =
        (.ok ((world.events.filter (foundEvent tenant
            (isBefore older (eventCutoff engine policy clock)))).length,
          (world.events.filter (foundEvent tenant
            (isBefore older (eventCutoff engine policy clock)))).length), after) ∧
      shows after { world with
        events := world.events.filter fun event =>
          !foundEvent tenant (isBefore older (eventCutoff engine policy clock)) event } := by
  unfold expireEvents eventCutoff
  cases policy.eventDaysActive with
  | none =>
    simp only [Option.map_none, ite_self, isBefore_none, filter_foundEvent_never,
      filter_not_foundEvent_never]
    exact ⟨state, rfl, shown⟩
  | some eventDays =>
    cases engine.eventStore with
    | false =>
      simp only [Bool.false_eq_true, if_false, isBefore_none, filter_foundEvent_never,
        filter_not_foundEvent_never]
      exact ⟨state, rfl, shown⟩
    | true =>
      obtain ⟨after, served, shownAfter⟩ :=
        serves.deleteEvents shown tenant (clock - days eventDays)
      refine ⟨after, ?_, shownAfter⟩
      exact (Program.evaluate_bind_ok (evaluate_now serves)).trans
        (Program.evaluate_bind_ok ((evaluate_perform _).trans served))

omit serves in
/-- A policy that is not enabled has no cut-offs. -/
theorem cutoffs_of_disabled (disabled : (!policy.enabled) = true) :
    factCutoff policy clock = none ∧ eventCutoff engine policy clock = none := by
  have off : policy.enabled = false := by simpa using disabled
  simp [factCutoff, eventCutoff, RetentionPolicy.factDaysActive, RetentionPolicy.eventDaysActive,
    off]

theorem evaluate_dryRun (valid : validateTenant tenant = .ok ()) (shown : shows state world) :
    (applyRetention engine ⟨tenant, policy, true⟩).evaluate serve state =
      (.ok ⟨true, (world.facts.found tenant (isBefore older (factCutoff policy clock))).length, 0,
        (world.events.filter (foundEvent tenant
          (isBefore older (eventCutoff engine policy clock)))).length, 0⟩, state) := by
  have checked : (Program.check (validateTenant tenant) : EngineProgram Unit).evaluate serve
      state = (.ok (), state) := by
    rw [Program.evaluate_check, valid]
  refine (Program.evaluate_bind_ok checked).trans ?_
  dsimp only
  split_ifs with disabled
  · obtain ⟨noFacts, noEvents⟩ := @cutoffs_of_disabled clock engine policy disabled
    rw [noFacts, noEvents, isBefore_none, found_never, filter_foundEvent_never]
    rfl
  · refine (Program.evaluate_bind_ok (evaluate_countFacts serves shown)).trans ?_
    exact Program.evaluate_bind_ok (evaluate_countEvents serves shown)

theorem evaluate_reportRetention (shown : shows state world) (facts events : ℕ) : ∃ after,
    (reportRetention engine ⟨tenant, policy, false⟩ (facts, facts) (events, events)).evaluate serve
        state = (.ok ⟨false, facts, facts, events, events⟩, after) ∧
      shows after { world with cache :=
        if engine.contextCacheConfig.enabled && decide (0 < facts) then
          world.cache.invalidateUser tenant
        else world.cache } := by
  unfold reportRetention
  dsimp only
  by_cases some : 0 < facts
  · obtain ⟨after, invalidated, shownAfter⟩ :=
      @evaluate_invalidateUserContextCache _ _ _ _ _ serves engine tenant _ _ shown
    refine ⟨after, ?_, ?_⟩
    · rw [if_pos (by simpa using some)]
      exact Program.evaluate_bind_ok invalidated
    · rw [decide_eq_true some, Bool.and_true]
      exact shownAfter
  · refine ⟨state, ?_, ?_⟩
    · rw [if_neg (by simpa using some)]
      rfl
    · rw [decide_eq_false some, Bool.and_false]
      exact shown

theorem evaluate_applyRetention (valid : validateTenant tenant = .ok ())
    (shown : shows state world) : ∃ after,
    (applyRetention engine ⟨tenant, policy, false⟩).evaluate serve state =
      (.ok ⟨false, (world.facts.found tenant (isBefore older (factCutoff policy clock))).length,
        (world.facts.found tenant (isBefore older (factCutoff policy clock))).length,
        (world.events.filter (foundEvent tenant
          (isBefore older (eventCutoff engine policy clock)))).length,
        (world.events.filter (foundEvent tenant
          (isBefore older (eventCutoff engine policy clock)))).length⟩, after) ∧
      shows after (world.pruned engine tenant (isBefore older (factCutoff policy clock))
        (isBefore older (eventCutoff engine policy clock))) := by
  have checked : (Program.check (validateTenant tenant) : EngineProgram Unit).evaluate serve
      state = (.ok (), state) := by
    rw [Program.evaluate_check, valid]
  by_cases disabled : (!policy.enabled) = true
  · refine ⟨state, (Program.evaluate_bind_ok checked).trans ?_, ?_⟩
    · obtain ⟨noFacts, noEvents⟩ := @cutoffs_of_disabled clock engine policy disabled
      rw [if_pos disabled, noFacts, noEvents, isBefore_none, found_never, filter_foundEvent_never]
      rfl
    · obtain ⟨noFacts, noEvents⟩ := @cutoffs_of_disabled clock engine policy disabled
      rw [noFacts, noEvents, isBefore_none, World.pruned, found_never, without_never,
        filter_not_foundEvent_never]
      simpa [withoutVectors] using shown
  · obtain ⟨first, expiredFacts, shownFirst⟩ := evaluate_expireFacts serves shown
    obtain ⟨second, expiredEvents, shownSecond⟩ :=
      @evaluate_expireEvents _ _ _ _ _ serves engine tenant policy _ _ shownFirst
    obtain ⟨after, reported, shownAfter⟩ :=
      @evaluate_reportRetention _ _ _ _ _ serves engine tenant policy _ _ shownSecond
        (world.facts.found tenant (isBefore older (factCutoff policy clock))).length
        (world.events.filter (foundEvent tenant
          (isBefore older (eventCutoff engine policy clock)))).length
    refine ⟨after, (Program.evaluate_bind_ok checked).trans ?_, shownAfter⟩
    rw [if_neg disabled]
    refine (Program.evaluate_bind_ok expiredFacts).trans ?_
    exact (Program.evaluate_bind_ok expiredEvents).trans reported

/-- A cut-off before the calendar lets the dry run panic. -/
theorem evaluate_dryRun_panics {earliest : Instant} (valid : validateTenant tenant = .ok ())
    (shown : shows state world) (beyond : ¬ CutoffsInCalendar earliest engine policy clock) :
    (applyRetentionFrom earliest engine ⟨tenant, policy, true⟩).evaluate serve state =
      (.ok none, state) := by
  have checked : (Program.check (validateTenant tenant) : EngineProgram Unit).evaluate serve
      state = (.ok (), state) := by
    rw [Program.evaluate_check, valid]
  have enabled : ¬ (!policy.enabled) = true := by
    intro disabled
    have off : policy.enabled = false := by simpa using disabled
    apply beyond
    constructor
    · simp [RetentionPolicy.factDaysActive, off]
    · simp [RetentionPolicy.eventDaysActive, off]
  refine (Program.evaluate_bind_ok checked).trans ?_
  dsimp only
  rw [if_neg enabled]
  by_cases factsIn : ∀ count ∈ policy.factDaysActive, earliest ≤ clock - days count
  · have counted := @evaluate_expireFactsFrom σ serve earliest clock ⟨tenant, policy, true⟩ state
      serves.now factsIn
    rw [evaluate_countFacts serves shown] at counted
    refine (Program.evaluate_bind_ok counted).trans ?_
    have panics : (expireEventsFrom earliest engine ⟨tenant, policy, true⟩).evaluate serve state =
        (.ok none, state) := by
      unfold expireEventsFrom
      cases active : policy.eventDaysActive with
      | none => exact absurd ⟨factsIn, by simp [active]⟩ beyond
      | some eventDays =>
        cases configured : engine.eventStore with
        | false => exact absurd ⟨factsIn, by simp [configured]⟩ beyond
        | true =>
          have before : ¬ earliest ≤ clock - days eventDays := by
            intro inside
            apply beyond
            refine ⟨factsIn, fun _ count asked => ?_⟩
            obtain rfl := Option.some.inj (active.symm.trans asked)
            exact inside
          refine (Program.evaluate_bind_ok (evaluate_now serves)).trans ?_
          rw [cutoffAt, if_neg before]
          rfl
    exact Program.evaluate_bind_ok panics
  · have panics : (expireFactsFrom earliest ⟨tenant, policy, true⟩).evaluate serve state =
        (.ok none, state) := by
      unfold expireFactsFrom
      dsimp only
      cases active : policy.factDaysActive with
      | none => exact absurd (by simp [active]) factsIn
      | some factDays =>
        have before : ¬ earliest ≤ clock - days factDays := by
          intro inside
          apply factsIn
          intro count asked
          obtain rfl := Option.some.inj (active.symm.trans asked)
          exact inside
        refine (Program.evaluate_bind_ok (evaluate_now serves)).trans ?_
        rw [cutoffAt, if_neg before]
        rfl
    exact Program.evaluate_bind_ok panics

end Evaluation

/-! ## The age of what is stored -/

/-- The stores find exactly the older of the tenant's active facts and events to be old. -/
structure AgesRead (older : Instant → Instant → Bool) (tenant : TenantContext)
    (factCutoff eventCutoff : Option Instant) (world : World) : Prop where
  facts : ∀ cutoff ∈ factCutoff, ∀ fact, world.facts.Active fact → fact.tenant = tenant →
    (older fact.updatedAt cutoff = true ↔ fact.updatedAt < cutoff)
  events : ∀ cutoff ∈ eventCutoff, ∀ event ∈ world.events, event.tenant = tenant →
    (older event.createdAt cutoff = true ↔ event.createdAt < cutoff)

section Ages

variable {older : Instant → Instant → Bool} {tenant : TenantContext}
  {factCutoff eventCutoff : Option Instant} {world : World}

theorem isBefore_eq (cutoff : Option Instant) (instant : Instant)
    (reads : ∀ limit ∈ cutoff, (older instant limit = true ↔ instant < limit)) :
    isBefore older cutoff instant = cutoff.any fun limit => instant < limit := by
  cases cutoff with
  | none => rfl
  | some limit =>
    rw [isBefore, Option.any_some, Option.any_some, Bool.eq_iff_iff, decide_eq_true_eq]
    exact reads limit rfl

theorem isBefore_iff (cutoff : Option Instant) (instant : Instant)
    (reads : ∀ limit ∈ cutoff, (older instant limit = true ↔ instant < limit)) :
    isBefore older cutoff instant = true ↔ ∃ limit ∈ cutoff, instant < limit := by
  rw [isBefore_eq cutoff instant reads]
  simp [Option.any_eq_true]

theorem found_of_agesRead (read : AgesRead older tenant factCutoff eventCutoff world) :
    world.facts.found tenant (isBefore older factCutoff) =
      world.facts.found tenant fun updatedAt =>
        factCutoff.any fun cutoff => updatedAt < cutoff := by
  apply List.filter_congr
  intro fact stored
  by_cases candidate : fact.tenant = tenant ∧ fact.id ∉ world.facts.deleted
  · rw [isBefore_eq factCutoff fact.updatedAt fun limit asked =>
      read.facts limit asked fact ⟨stored, candidate.2⟩ candidate.1]
  · rcases not_and_or.mp candidate with foreign | deleted
    · simp [foreign]
    · simp [MockFactStore.isDeleted, not_not.mp deleted]

theorem foundEvent_of_agesRead (read : AgesRead older tenant factCutoff eventCutoff world)
    {event : MemoryEvent} (stored : event ∈ world.events) :
    foundEvent tenant (isBefore older eventCutoff) event =
      foundEvent tenant (fun createdAt => eventCutoff.any fun cutoff => createdAt < cutoff)
        event := by
  unfold foundEvent
  by_cases own : event.tenant = tenant
  · rw [isBefore_eq eventCutoff event.createdAt fun limit asked =>
      read.events limit asked event stored own]
  · simp [own]

/-- What is pruned is what is older, if the stores read the ages. -/
theorem pruned_oldRemoved (engine : MemoryEngine)
    (read : AgesRead older tenant factCutoff eventCutoff world) :
    OldRemoved tenant factCutoff eventCutoff world (world.pruned engine tenant
      (isBefore older factCutoff) (isBefore older eventCutoff)) where
  rows := rfl
  facts := by
    intro fact
    refine active_without.trans (and_congr_right fun active => not_congr ?_)
    refine and_congr_right fun own => ?_
    exact isBefore_iff factCutoff fact.updatedAt fun limit asked =>
      read.facts limit asked fact active own
  events := by
    apply List.filter_congr
    intro event stored
    rw [foundEvent_of_agesRead read stored]
  vectors := by
    intro record
    refine mem_withoutVectors.trans (and_congr_right fun _ => not_congr ?_)
    refine and_congr_right fun _ => ?_
    simp only [List.mem_map, mem_found]
    constructor
    · rintro ⟨fact, ⟨active, own, old⟩, named⟩
      refine ⟨fact, active, own, ?_, named⟩
      exact (isBefore_iff factCutoff fact.updatedAt fun limit asked =>
        read.facts limit asked fact active own).mp old
    · rintro ⟨fact, active, own, old, named⟩
      refine ⟨fact, ⟨active, own, ?_⟩, named⟩
      exact (isBefore_iff factCutoff fact.updatedAt fun limit asked =>
        read.facts limit asked fact active own).mpr old
  cache := by
    intro row other
    simp only [World.pruned]
    split
    · rw [InMemoryContextCache.mem_invalidateUser]
      exact and_iff_left other
    · rfl
  locks := rfl
  refreshInflight := rfl
  usageAttribution := rfl

end Ages

section Exactness

variable {σ : Type} {serve : (port : Port) → σ → MemcoreResult port.Answer × σ}
  {shows : σ → World → Prop} {clock : Instant} {older : Instant → Instant → Bool}
  (serves : ServesRetention serve shows clock older) {engine : MemoryEngine}
  {tenant : TenantContext} {policy : RetentionPolicy} {state : σ} {world : World}
include serves

/-- A store that was pruned of what is older has read the ages. -/
theorem agesRead_of_oldRemoved {factCutoff eventCutoff : Option Instant} {after : σ}
    {final : World} (shown : shows state world)
    (pruned : shows after (world.pruned engine tenant (isBefore older factCutoff)
      (isBefore older eventCutoff))) (shownFinal : shows after final)
    (removed : OldRemoved tenant factCutoff eventCutoff world final) :
    AgesRead older tenant factCutoff eventCutoff world := by
  constructor
  · rintro cutoff asked fact active own
    have sameMark := serves.sameMarks pruned shownFinal removed.rows.symm fact active.1
    have sameActive : (world.facts.without tenant (isBefore older factCutoff)).Active fact ↔
        final.facts.Active fact := by
      have stored : fact ∈ final.facts.facts.rows := removed.rows ▸ active.1
      have storedHere : fact ∈
          (world.facts.without tenant (isBefore older factCutoff)).facts.rows := active.1
      have unmarked := decide_eq_decide.mp sameMark
      exact ⟨fun here => ⟨stored, mt unmarked.mpr here.2⟩,
        fun there => ⟨storedHere, mt unmarked.mp there.2⟩⟩
    rw [active_without, removed.facts fact] at sameActive
    obtain rfl : factCutoff = some cutoff := asked
    have sameAge := not_iff_not.mp ((and_congr_right_iff.mp sameActive) active)
    simpa [own, isBefore] using sameAge
  · rintro cutoff asked event stored own
    have same := serves.sameEvents shown pruned shownFinal _ _ rfl removed.events event stored
    obtain rfl : eventCutoff = some cutoff := asked
    rw [Bool.not_inj_iff, foundEvent, foundEvent, decide_eq_true own, Bool.true_and,
      Bool.true_and, isBefore, Option.any_some, Option.any_some] at same
    rw [same, decide_eq_true_eq]

/-- Retention deletes exactly the old just when the cut-offs lie in the calendar and the
stores read the ages. -/
theorem deletesExactlyTheOld_iff {earliest : Instant} (valid : validateTenant tenant = .ok ())
    (shown : shows state world) :
    DeletesExactlyTheOld serve shows earliest engine tenant policy clock state world ↔
      CutoffsInCalendar earliest engine policy clock ∧
        AgesRead older tenant (factCutoff policy clock) (eventCutoff engine policy clock)
          world := by
  obtain ⟨after, deleted, shownAfter⟩ :=
    @evaluate_applyRetention _ _ _ _ _ serves engine tenant policy _ _ valid shown
  constructor
  · rintro ⟨counted, other, final, deletedOther, shownFinal, removed⟩
    have inCalendar : CutoffsInCalendar earliest engine policy clock := by
      by_contra beyond
      rw [evaluate_dryRun_panics serves valid shown beyond] at counted
      exact nomatch Except.ok.inj (Prod.mk.inj counted).1
    refine ⟨inCalendar, ?_⟩
    rw [evaluate_applyRetentionFrom serves.now inCalendar, deleted] at deletedOther
    obtain rfl : after = other := (Prod.mk.inj deletedOther).2
    exact agesRead_of_oldRemoved serves shown shownAfter shownFinal removed
  · rintro ⟨inCalendar, read⟩
    have events : world.events.filter (foundEvent tenant
          (isBefore older (eventCutoff engine policy clock))) =
        world.events.filter (foundEvent tenant fun createdAt =>
          (eventCutoff engine policy clock).any fun cutoff => createdAt < cutoff) :=
      List.filter_congr fun event stored => foundEvent_of_agesRead read stored
    refine ⟨?_, after, _, ?_, shownAfter, pruned_oldRemoved engine read⟩
    · rw [evaluate_applyRetentionFrom serves.now inCalendar,
        evaluate_dryRun serves valid shown, found_of_agesRead read, events]
      rfl
    · rw [evaluate_applyRetentionFrom serves.now inCalendar, deleted, found_of_agesRead read,
        events]
      rfl

end Exactness

/-! ## In memory -/

/-- The stores in memory at an instant. -/
def serveAt (platform : Platform) (clock : Instant) (port : Port) (world : World) :
    MemcoreResult port.Answer × World :=
  World.serve platform { now := clock } port world

theorem serveAt_serves (platform : Platform) (clock : Instant) :
    ServesRetention (serveAt platform clock) Eq clock fun instant cutoff =>
      decide (instant < cutoff) where
  now _ := rfl
  countFacts := by
    rintro world _ rfl tenant cutoff
    rw [← List.length_map Fact.id]
    rfl
  deleteFacts := by
    rintro world _ rfl tenant cutoff
    rw [← List.length_map Fact.id]
    exact ⟨_, rfl, rfl⟩
  countEvents := by
    rintro world _ rfl tenant cutoff
    rfl
  deleteEvents := by
    rintro world _ rfl tenant cutoff
    refine ⟨_, Prod.ext ?_ rfl, rfl⟩
    have parts := List.length_eq_length_filter_add (l := world.events)
      (foundEvent tenant fun createdAt => decide (createdAt < cutoff))
    exact congrArg Except.ok (Nat.sub_eq_of_eq_add parts)
  deleteVectors := by
    rintro world _ rfl tenant factId
    exact ⟨_, rfl, rfl⟩
  invalidate := by
    rintro world _ rfl tenant
    exact ⟨_, _, rfl, rfl⟩
  sameMarks := by
    rintro world _ _ rfl rfl _ fact _
    rfl
  sameEvents := by
    rintro before world after left right rfl rfl rfl kept retained keptEvents retainedEvents event
      stored
    rw [keptEvents] at retainedEvents
    rw [Bool.eq_iff_iff]
    have sameMember := congrArg (event ∈ ·) retainedEvents
    simpa [stored] using sameMember

/-! ## In SQLite -/

/-- An operation of an event store in one step. -/
def EventStore.serve {σ : Type} (store : EventStore σ) (state : σ) :
    (call : EventStoreCall) → MemcoreResult call.Answer × σ
  | .recordEvent tenant event => store.recordEvent tenant event state
  | .listEvents query => (store.listEvents query state, state)
  | .deleteEventsOlderThan tenant cutoff dryRun =>
      store.deleteEventsOlderThan tenant cutoff dryRun state

/-- The tables of facts and of events, and everything else. The stores of facts and of events
in the surroundings are not in use. -/
structure SqliteInstallation where
  facts : FactRows
  events : EventRows
  surroundings : World

/-- The stores in SQLite at an instant. -/
def serveSqliteAt (platform : Platform) (texts : RowTexts) (clock : Instant) :
    (port : Port) → SqliteInstallation → MemcoreResult port.Answer × SqliteInstallation
  | .facts call, installation =>
      let served := (sqliteFactStore texts).serve clock installation.facts call
      (served.1, { installation with facts := served.2 })
  | .events call, installation =>
      let served := (sqliteEventStore texts).serve installation.events call
      (served.1, { installation with events := served.2 })
  | port, installation =>
      let served := serveAt platform clock port installation.surroundings
      (served.1, { installation with surroundings := served.2 })

/-- The rows were written for the facts, and mark the deleted ones. -/
def ShowsFacts (texts : RowTexts) (rows : FactRows) (store : MockFactStore) : Prop :=
  List.Forall₂ (fun fact row => Written texts (store.isDeleted fact.id) fact row)
    store.facts.rows rows.rows

/-- The rows were written for the events. -/
def ShowsEvents (texts : RowTexts) (rows : EventRows) (events : MockMemoryEventStore) : Prop :=
  List.Forall₂ (fun event row => ∃ metadata, row = SqliteEventStore.bindEvent texts event metadata)
    events rows.rows

/-- The installation stores the facts and the events of a world, and the rest as it is. -/
structure SqliteInstallation.Shows (texts : RowTexts) (installation : SqliteInstallation)
    (world : World) : Prop where
  facts : ShowsFacts texts installation.facts world.facts
  events : ShowsEvents texts installation.events world.events
  vectors : installation.surroundings.vectors = world.vectors
  cache : installation.surroundings.cache = world.cache
  locks : installation.surroundings.locks = world.locks
  refreshInflight : installation.surroundings.refreshInflight = world.refreshInflight
  usageAttribution : installation.surroundings.usageAttribution = world.usageAttribution

/-- The text of one instant comes before that of another. -/
def textBefore (texts : RowTexts) (instant cutoff : Instant) : Bool :=
  decide (texts.toRfc3339 instant < texts.toRfc3339 cutoff)

section Sqlite

variable {texts : RowTexts} {store : MockFactStore} {rows : FactRows} {tenant : TenantContext}
  {cutoff : Instant}

theorem ofExpired_written {deleted : Bool} {fact : Fact} {row : FactRow}
    (written : Written texts deleted fact row) :
    SqliteFactStore.ofExpired texts tenant cutoff row =
      (decide (fact.tenant = tenant) && !deleted && textBefore texts fact.updatedAt cutoff) := by
  rw [SqliteFactStore.ofExpired, written.ofTenant, written.isActive, written.updatedAt]
  rfl

/-- The statement selects the rows of the facts that are found. -/
theorem expired_pairs (shown : ShowsFacts texts rows store) :
    List.Forall₂ (fun fact row => Written texts (store.isDeleted fact.id) fact row)
      (store.found tenant (textBefore texts · cutoff))
      (rows.rows.filter (SqliteFactStore.ofExpired texts tenant cutoff)) := by
  apply List.rel_filter _ shown
  intro fact row written
  exact iff_of_eq (congrArg (· = true) (ofExpired_written written).symm)

/-- Marking these rows deletes the facts that are found. -/
theorem showsFacts_marked (shown : ShowsFacts texts rows store) (deletedAt : String) :
    ShowsFacts texts (SqlTables.update (SqliteFactStore.ofExpired texts tenant cutoff)
      (SqliteFactStore.assignDeletedAt deletedAt) (SqliteFactStore.assignDeletedAt_id _) rows).2
      (store.without tenant (textBefore texts · cutoff)) := by
  apply List.forall₂_map_right_iff.mpr
  have stored : List.Forall₂ (fun fact row => fact ∈ store.facts.rows ∧
      Written texts (store.isDeleted fact.id) fact row) store.facts.rows rows.rows :=
    (List.forall₂_and_left _ _).mpr ⟨fun _ member => member, shown⟩
  apply stored.imp
  rintro fact row ⟨member, written⟩
  have marked : (store.without tenant (textBefore texts · cutoff)).isDeleted fact.id =
      (store.isDeleted fact.id || SqliteFactStore.ofExpired texts tenant cutoff row) := by
    rw [ofExpired_written written, Bool.eq_iff_iff]
    simp only [MockFactStore.isDeleted, MockFactStore.without, MockFactStore.markDeleted,
      List.mem_append, named_iff member, mem_found, MockFactStore.Active, member, true_and,
      decide_eq_true_eq, Bool.or_eq_true, Bool.and_eq_true, Bool.not_eq_true',
      decide_eq_false_iff_not]
    tauto
  rw [marked]
  by_cases selected : SqliteFactStore.ofExpired texts tenant cutoff row = true
  · rw [if_pos selected, selected, Bool.or_true]
    exact written.assignDeletedAt deletedAt
  · rw [if_neg selected]
    rw [Bool.not_eq_true] at selected
    rw [selected, Bool.or_false]
    exact written

/-- The identifiers of the selected rows are read back. -/
theorem expired_ids (readsIds : ∀ id, texts.parseUuid (Uuid.toText id) = .ok id)
    (shown : ShowsFacts texts rows store) :
    (rows.rows.filter (SqliteFactStore.ofExpired texts tenant cutoff)).mapM
        (fun row => SqliteFactStore.parseUuid texts (fun _ => "invalid fact id") row.id) =
      .ok ((store.found tenant (textBefore texts · cutoff)).map Fact.id) := by
  apply SqlTables.mapM_of_forall₂
  apply List.forall₂_map_right_iff.mpr
  apply (expired_pairs shown).flip.imp
  intro row fact written
  rw [SqliteFactStore.parseUuid, written.id, readsIds]

theorem countFacts_sqlite (readsIds : ∀ id, texts.parseUuid (Uuid.toText id) = .ok id)
    (shown : ShowsFacts texts rows store) (clock : Instant) :
    SqliteFactStore.deleteFactsOlderThan texts clock tenant cutoff true rows =
      (.ok ⟨(store.found tenant (textBefore texts · cutoff)).length, []⟩, rows) := by
  rw [SqliteFactStore.deleteFactsOlderThan]
  simp only [expired_ids readsIds shown, if_true, List.length_map]

theorem deleteFacts_sqlite (readsIds : ∀ id, texts.parseUuid (Uuid.toText id) = .ok id)
    (shown : ShowsFacts texts rows store) (clock : Instant) : ∃ after,
    SqliteFactStore.deleteFactsOlderThan texts clock tenant cutoff false rows =
        (.ok ⟨(store.found tenant (textBefore texts · cutoff)).length,
          (store.found tenant (textBefore texts · cutoff)).map Fact.id⟩, after) ∧
      ShowsFacts texts after (store.without tenant (textBefore texts · cutoff)) := by
  have selected : rows.rows.countP (SqliteFactStore.ofExpired texts tenant cutoff) =
      (store.found tenant (textBefore texts · cutoff)).length := by
    rw [List.countP_eq_length_filter]
    exact (expired_pairs shown).length_eq.symm
  refine ⟨_, ?_, showsFacts_marked shown (texts.toRfc3339 clock)⟩
  rw [SqliteFactStore.deleteFactsOlderThan]
  simp only [expired_ids readsIds shown, Bool.false_eq_true, if_false, List.isEmpty_map]
  split_ifs with nothing
  · -- The statement is skipped, and it would select no row.
    rw [List.isEmpty_iff] at nothing
    rw [nothing, List.length_nil] at selected
    rw [nothing, SqlTables.update_none rows _ _ (by omega)]
    rfl
  · rw [← selected]
    rfl

theorem isOld_written {event : MemoryEvent} {row : EventRow} {metadata : String}
    (written : row = SqliteEventStore.bindEvent texts event metadata) :
    SqliteEventStore.isOld texts tenant cutoff row =
      foundEvent tenant (textBefore texts · cutoff) event := by
  rw [written, SqliteEventStore.isOld, foundEvent]
  refine congrArg (· && _) ?_
  show (decide (event.orgId = tenant.orgId) && decide (event.userId = tenant.userId)) = _
  rw [MemoryEvent.tenant, ← Bool.decide_and]
  cases tenant
  simp

variable {events : MockMemoryEventStore} {eventRows : EventRows}

theorem countEvents_sqlite (shown : ShowsEvents texts eventRows events) :
    eventRows.rows.countP (SqliteEventStore.isOld texts tenant cutoff) =
      (events.filter (foundEvent tenant (textBefore texts · cutoff))).length := by
  rw [List.countP_eq_length_filter]
  refine (List.Forall₂.length_eq (List.rel_filter ?_ shown)).symm
  rintro event row ⟨metadata, written⟩
  exact iff_of_eq (congrArg (· = true) (isOld_written written).symm)

theorem deleteEvents_sqlite (shown : ShowsEvents texts eventRows events) :
    ShowsEvents texts (SqlTables.delete (SqliteEventStore.isOld texts tenant cutoff) eventRows).2
      (events.filter fun event => !foundEvent tenant (textBefore texts · cutoff) event) := by
  refine List.rel_filter ?_ shown
  rintro event row ⟨metadata, written⟩
  exact iff_of_eq (congrArg (fun found => (!found) = true) (isOld_written written).symm)

/-- The marks of the facts are read off their rows. -/
theorem sameMarks_sqlite {left right : MockFactStore} (leftShown : ShowsFacts texts rows left)
    (rightShown : ShowsFacts texts rows right) (sameRows : left.facts = right.facts) :
    ∀ fact ∈ left.facts.rows, left.isDeleted fact.id = right.isDeleted fact.id := by
  unfold ShowsFacts at leftShown rightShown
  rw [← sameRows] at rightShown
  intro fact stored
  obtain ⟨position, isFact⟩ := List.mem_iff_get.mp stored
  obtain ⟨sameLength, leftMarks⟩ := List.forall₂_iff_get.mp leftShown
  obtain ⟨_, rightMarks⟩ := List.forall₂_iff_get.mp rightShown
  have inRows : position.1 < rows.rows.length := sameLength ▸ position.2
  have leftMark := (leftMarks position.1 position.2 inRows).deletion
  have rightMark := (rightMarks position.1 position.2 inRows).deletion
  rw [← isFact]
  exact leftMark.symm.trans rightMark

/-- The rows have the identifiers of the events. -/
theorem ids_sqlite (shown : ShowsEvents texts eventRows events) :
    (events.map MemoryEvent.id).map Uuid.toText = eventRows.rows.map EventRow.id := by
  have pairs : List.Forall₂ (· = ·) (events.map fun event => Uuid.toText event.id)
      (eventRows.rows.map EventRow.id) := by
    apply List.forall₂_map_left_iff.mpr
    apply List.forall₂_map_right_iff.mpr
    apply shown.imp
    rintro event row ⟨metadata, written⟩
    rw [written]
    rfl
  rw [List.forall₂_eq_eq_eq] at pairs
  rw [List.map_map]
  exact pairs

/-- Which events were kept is read off the rows. -/
theorem sameEvents_sqlite {afterRows : EventRows} {left right : MockMemoryEventStore}
    (shown : ShowsEvents texts eventRows events) (leftShown : ShowsEvents texts afterRows left)
    (rightShown : ShowsEvents texts afterRows right) (kept retained : MemoryEvent → Bool)
    (leftKept : left = events.filter kept) (rightRetained : right = events.filter retained) :
    ∀ event ∈ events, kept event = retained event := by
  have distinct : (events.map MemoryEvent.id).Nodup := by
    apply List.Nodup.of_map Uuid.toText
    rw [ids_sqlite shown]
    exact eventRows.distinct
  have sameIds : (events.filter kept).map MemoryEvent.id =
      (events.filter retained).map MemoryEvent.id := by
    rw [← leftKept, ← rightRetained]
    apply List.map_injective_iff.mpr fun left right => (Uuid.toText_inj left right).mp
    exact (ids_sqlite leftShown).trans (ids_sqlite rightShown).symm
  have named (condition : MemoryEvent → Bool) {event : MemoryEvent} (stored : event ∈ events) :
      condition event = true ↔ event.id ∈ (events.filter condition).map MemoryEvent.id := by
    constructor
    · exact fun holds => List.mem_map_of_mem (List.mem_filter.mpr ⟨stored, holds⟩)
    · intro member
      obtain ⟨other, filtered, same⟩ := List.mem_map.mp member
      obtain ⟨otherStored, holds⟩ := List.mem_filter.mp filtered
      exact List.inj_on_of_nodup_map distinct otherStored stored same ▸ holds
  intro event stored
  rw [Bool.eq_iff_iff, named kept stored, named retained stored, sameIds]

/-- The stores in SQLite find old what has an earlier text. -/
theorem serveSqliteAt_serves (platform : Platform) (clock : Instant)
    (readsIds : ∀ id, texts.parseUuid (Uuid.toText id) = .ok id) :
    ServesRetention (serveSqliteAt platform texts clock) (SqliteInstallation.Shows texts) clock
      (textBefore texts) where
  now _ := rfl
  countFacts := by
    intro installation world shown tenant cutoff
    have counted := @countFacts_sqlite _ _ _ tenant cutoff readsIds shown.facts clock
    exact congrArg (fun served => (served.1, { installation with facts := served.2 })) counted
  deleteFacts := by
    intro installation world shown tenant cutoff
    obtain ⟨after, deleted, shownAfter⟩ :=
      @deleteFacts_sqlite _ _ _ tenant cutoff readsIds shown.facts clock
    refine ⟨{ installation with facts := after }, ?_, { shown with facts := shownAfter }⟩
    exact congrArg (fun served => (served.1, { installation with facts := served.2 })) deleted
  countEvents := by
    intro installation world shown tenant cutoff
    have counted := @countEvents_sqlite _ tenant cutoff _ _ shown.events
    exact Prod.ext (congrArg Except.ok counted) rfl
  deleteEvents := by
    intro installation world shown tenant cutoff
    have counted := @countEvents_sqlite _ tenant cutoff _ _ shown.events
    refine ⟨_, Prod.ext (congrArg Except.ok counted) rfl, ?_⟩
    exact { shown with events := deleteEvents_sqlite shown.events }
  deleteVectors := by
    intro installation world shown tenant factId
    refine ⟨_, Prod.ext ?_ rfl, { shown with vectors := ?_ }⟩
    · exact congrArg (fun vectors => (MockVectorStore.deleteByFactId vectors tenant factId).1)
        shown.vectors
    · exact congrArg (fun vectors => (MockVectorStore.deleteByFactId vectors tenant factId).2)
        shown.vectors
  invalidate := by
    intro installation world shown tenant
    refine ⟨_, _, rfl, { shown with cache := ?_ }⟩
    exact congrArg (fun cache => InMemoryContextCache.invalidateUser cache tenant) shown.cache
  sameMarks := by
    intro installation left right leftShown rightShown sameRows
    exact sameMarks_sqlite leftShown.facts rightShown.facts sameRows
  sameEvents := by
    intro before world after left right shown leftShown rightShown kept retained leftKept
      rightRetained
    exact sameEvents_sqlite shown.events leftShown.events rightShown.events kept retained leftKept
      rightRetained

end Sqlite

/-! ## Exactly the old -/

/-- The cut-offs and what is compared with them lie in the years of four digits. -/
structure TimestampsInYears (tenant : TenantContext) (factCutoff eventCutoff : Option Instant)
    (world : World) : Prop where
  factCutoff : ∀ cutoff ∈ factCutoff, InFourDigitYears cutoff
  eventCutoff : ∀ cutoff ∈ eventCutoff, InFourDigitYears cutoff
  facts : ∀ fact, world.facts.Active fact → fact.tenant = tenant →
    InFourDigitYears fact.updatedAt
  events : ∀ event ∈ world.events, event.tenant = tenant → InFourDigitYears event.createdAt

/-- Within these years the order of the texts is that of the instants. -/
theorem TimestampsInYears.agesRead {texts : RowTexts} (writes : texts.WritesRfc3339)
    {tenant : TenantContext} {factCutoff eventCutoff : Option Instant} {world : World}
    (inYears : TimestampsInYears tenant factCutoff eventCutoff world) :
    AgesRead (textBefore texts) tenant factCutoff eventCutoff world where
  facts cutoff asked fact active own := decide_eq_true_iff.trans
    (toRfc3339_lt_iff writes (inYears.facts fact active own) (inYears.factCutoff cutoff asked))
  events cutoff asked event stored own := decide_eq_true_iff.trans
    (toRfc3339_lt_iff writes (inYears.events event stored own)
      (inYears.eventCutoff cutoff asked))

/-- In memory, retention deletes exactly the old just when no cut-off lies before the calendar.
In SQLite the order of the texts has to be that of the instants as well, as it is in the years
of four digits. -/
theorem retention_deletes_exactly_iff (earliest : Instant) (platform : Platform)
    (engine : MemoryEngine) (tenant : TenantContext) (valid : validateTenant tenant = .ok ())
    (policy : RetentionPolicy) (clock : Instant) :
    (∀ world, DeletesExactlyTheOld (serveAt platform clock) Eq earliest engine tenant policy clock
        world world ↔ CutoffsInCalendar earliest engine policy clock) ∧
      ∀ texts : RowTexts, (∀ id, texts.parseUuid (Uuid.toText id) = .ok id) →
        ∀ (installation : SqliteInstallation) (world : World), installation.Shows texts world →
          (DeletesExactlyTheOld (serveSqliteAt platform texts clock)
              (SqliteInstallation.Shows texts) earliest engine tenant policy clock installation
              world ↔
            CutoffsInCalendar earliest engine policy clock ∧
              AgesRead (textBefore texts) tenant (factCutoff policy clock)
                (eventCutoff engine policy clock) world) ∧
          (texts.WritesRfc3339 → TimestampsInYears tenant (factCutoff policy clock)
              (eventCutoff engine policy clock) world →
            (DeletesExactlyTheOld (serveSqliteAt platform texts clock)
                (SqliteInstallation.Shows texts) earliest engine tenant policy clock installation
                world ↔ CutoffsInCalendar earliest engine policy clock)) := by
  constructor
  · intro world
    rw [deletesExactlyTheOld_iff (serveAt_serves platform clock) valid rfl]
    apply and_iff_left
    constructor
    · intro cutoff _ fact _ _
      exact decide_eq_true_iff
    · intro cutoff _ event _ _
      exact decide_eq_true_iff
  · intro texts readsIds installation world shown
    have exactly_iff := @deletesExactlyTheOld_iff _ _ _ _ _
      (serveSqliteAt_serves platform clock readsIds) engine tenant policy _ _ earliest valid shown
    refine ⟨exactly_iff, fun writes inYears => ?_⟩
    rw [exactly_iff]
    exact and_iff_left (inYears.agesRead writes)

section Sample

/-- An engine with an audit log. -/
def retentionEngine : MemoryEngine := { MemoryEngine.new .sample with eventStore := true }

/-- One memory from the beginning of 1970. -/
def retentionWorld : World := { World.empty 1000 with facts := sampleFactStore }

def retentionRowTexts : RowTexts :=
  { sampleCalendarTexts with parseUuid := fun value => .ok (Uuid.ofText value) }

/-- The memory in SQLite. -/
def retentionInstallation : SqliteInstallation where
  facts := Table.empty.put
    (SqliteFactStore.bindFact retentionRowTexts (sampleFact 1) "\x7b\x7d" none)
  events := Table.empty
  surroundings := retentionWorld

theorem retentionInstallation_shows :
    retentionInstallation.Shows retentionRowTexts retentionWorld where
  facts := .cons ⟨⟨_, rfl⟩, rfl⟩ .nil
  events := .nil
  vectors := rfl
  cache := rfl
  locks := rfl
  refreshInflight := rfl
  usageAttribution := rfl

/-- Thirty days, at the beginning of February 1970. -/
theorem retention_deletes_exactly_iff_sample :
    DeletesExactlyTheOld (serveAt .sample (days 31)) Eq minUtc retentionEngine sampleTenant
        ⟨true, some 30, none⟩ (days 31) retentionWorld retentionWorld ∧
      DeletesExactlyTheOld (serveSqliteAt .sample retentionRowTexts (days 31))
        (SqliteInstallation.Shows retentionRowTexts) minUtc retentionEngine sampleTenant
        ⟨true, some 30, none⟩ (days 31) retentionInstallation retentionWorld := by
  have inCalendar : CutoffsInCalendar minUtc retentionEngine ⟨true, some 30, none⟩ (days 31) := by
    constructor
    · intro count asked
      obtain rfl : 30 = count := Option.some.inj asked
      decide
    · intro _ count asked
      nomatch asked
  obtain ⟨memory, sqlite⟩ := retention_deletes_exactly_iff minUtc .sample retentionEngine
    sampleTenant rfl ⟨true, some 30, none⟩ (days 31)
  refine ⟨(memory retentionWorld).mpr inCalendar, ?_⟩
  have exactly_iff := (sqlite retentionRowTexts
    (fun id => congrArg Except.ok (Uuid.ofText_toText id)) retentionInstallation retentionWorld
    retentionInstallation_shows).2
  refine (exactly_iff sampleCalendarTexts_writes ?_).mpr inCalendar
  constructor
  · intro cutoff asked
    obtain rfl : days 31 - days 30 = cutoff := Option.some.inj asked
    decide
  · intro cutoff asked
    nomatch asked
  · intro fact active _
    obtain rfl : fact = sampleFact 1 := List.mem_singleton.mp active.1
    decide
  · intro event stored
    nomatch stored

/-- More days than there are behind a clock of the year 2024: the dry run reports nothing, and
the deletion panics when the facts are gone. -/
theorem too_many_days_panic :
    ((applyRetentionFrom minUtc retentionEngine ⟨sampleTenant, ⟨true, some 30, some 4294967295⟩,
        true⟩).evaluate (serveAt .sample (seconds 1704067200)) retentionWorld).1 = .ok none ∧
      ((applyRetentionFrom minUtc retentionEngine ⟨sampleTenant, ⟨true, some 30, some 4294967295⟩,
        false⟩).evaluate (serveAt .sample (seconds 1704067200)) retentionWorld).1 = .ok none ∧
      ((applyRetentionFrom minUtc retentionEngine ⟨sampleTenant, ⟨true, some 30, some 4294967295⟩,
        false⟩).evaluate (serveAt .sample (seconds 1704067200)) retentionWorld).2.facts.activeFacts
          = [] ∧
      ¬ DeletesExactlyTheOld (serveAt .sample (seconds 1704067200)) Eq minUtc retentionEngine
        sampleTenant ⟨true, some 30, some 4294967295⟩ (seconds 1704067200) retentionWorld
        retentionWorld := by
  have panics : ((applyRetentionFrom minUtc retentionEngine ⟨sampleTenant,
      ⟨true, some 30, some 4294967295⟩, true⟩).evaluate (serveAt .sample (seconds 1704067200))
        retentionWorld).1 = .ok none := rfl
  refine ⟨panics, rfl, rfl, ?_⟩
  rintro ⟨counted, _⟩
  rw [counted] at panics
  exact nomatch Except.ok.inj panics

end Sample

end Memcore
