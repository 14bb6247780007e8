import Memcore.Guarantees.CacheInvalidation

/-!
# Deletion of an active memory

A deletion is to succeed for every active fact, whatever failed before. It does
exactly for the facts that have a vector record: the lifecycle and the retention
tolerate a missing record, and the deletion of a memory passes the error on. A
failure while a fact was added leaves it without a record, and then the deletion
of the fact fails after it has taken effect.
-/
namespace Memcore

open KeyedTables Ports Programs

/-- What the deletion of a fact leaves behind. -/
structure Deleted (engine : MemoryEngine) (fact : Fact) (before after : World) : Prop where
  inactive : ∀ other, after.facts.Active other → other.id ≠ fact.id
  unrecorded : ∀ record ∈ after.vectors.rows,
    ¬ (record.tenant = fact.tenant ∧ record.factId = fact.id)
  audited : engine.eventStore = true → ∃ event : MemoryEvent,
    after.events = before.events ++ [event] ∧ event.tenant = fact.tenant ∧
      event.operation = .delete ∧ event.factId = some fact.id
  uncached : ∀ key, key.tenant = fact.tenant → after.cache.entries.contains key = false

/-- A fact has a vector record. -/
def HasRecord (fact : Fact) (vectors : MockVectorStore) : Prop :=
  ∃ record ∈ vectors.rows, record.tenant = fact.tenant ∧ record.factId = fact.id

/-- What a deletion without failures does, call by call. -/
theorem deleteMemory_ensures {engine : MemoryEngine} {world : World} {fact : Fact}
    (active : world.facts.Active fact) (valid : fact.tenant.Valid)
    (disabled : engine.contextCacheConfig.enabled = false → world.cache.entries.rows = []) :
    Ensures (worldSpec engine.platform faultless)
      (deleteMemory engine ⟨fact.tenant, fact.id⟩)
      (fun outcome final => (outcome = .ok ⟨true⟩ ∧ Deleted engine fact world final) ↔
        HasRecord fact world.vectors) world := by
  have spared := spared_faultless
  simp only [deleteMemory, ensures_bind, ensures_check, (validateTenant_ok _).mpr valid,
    andThen_ok, requireFact]
  refine ensures_facts_spared spared (.getFact fact.tenant fact.id) ?_
  have found := (world.facts.getFact_some fact.tenant fact.id fact).mpr ⟨active, rfl, rfl⟩
  simp only [MockFactStore.serve, found, MockFactStore.getFact_snd, andThen_ok, ensures_pure,
    ensures_bind]
  refine ensures_facts_spared spared (.softDeleteFact fact.tenant fact.id) ?_
  have deleted := world.facts.softDeleteFact_active fact active
  simp only [MockFactStore.serve, deleted, andThen_ok, ensures_bind]
  refine ensures_vectors_spared spared (.deleteByFactId fact.tenant fact.id) ?_
  simp only [MockVectorStore.serve]
  have recorded := world.vectors.deleteByFactId_ok fact.tenant fact.id
  cases served : (MockVectorStore.deleteByFactId world.vectors fact.tenant fact.id).1 with
  | error error =>
    refine (andThen_error _ _ _ _ _).mpr (iff_of_false (by simp) fun hasRecord => ?_)
    exact absurd (served.symm.trans (recorded.mpr hasRecord)) (by simp)
  | ok answer =>
    simp only [andThen_ok, ensures_bind]
    refine ensures_recordEventBestEffort spared engine _ _ _ _ _ _
      fun event own sameFact kind => ?_
    simp only [andThen_ok, ensures_bind]
    refine ensures_invalidateUserContextCache_spared spared engine _ ?_
    simp only [andThen_ok, ensures_pure]
    refine iff_of_true ⟨trivial, ?_, ?_, ?_, ?_⟩ (recorded.mp served)
    · intro other stillActive
      exact ((world.facts.active_softDeleteFact _ _ deleted other).mp stillActive).2
    · intro record kept
      exact ((world.vectors.mem_deleteByFactId _ _ record).mp kept).2
    · intro configured
      exact ⟨event, by simp [configured], own, kind, sameFact⟩
    · intro key sameTenant
      by_contra kept
      obtain ⟨row, stored, sameKey⟩ := (Table.contains_iff _ _).mp (eq_true_of_ne_false kept)
      cases enabled : engine.contextCacheConfig.enabled with
      | false => simp [enabled, disabled enabled] at stored
      | true =>
        simp only [enabled, if_true] at stored
        refine ((InMemoryContextCache.mem_invalidateUser _ _ _).mp stored).2 ?_
        rw [show row.1 = key from sameKey, sameTenant]

/-- In every state that any sequence of operations leads to, with any failures on the
way, the deletion of an active fact without a failure of its own does what it is to do
exactly when the fact has a vector record. -/
theorem deletion_succeeds_iff (engine : MemoryEngine) (world final : World)
    (history : History engine anyChoice anyOutcome world) (fact : Fact)
    (active : world.facts.Active fact) (trace : List EngineEvent)
    (outcome : MemcoreResult DeleteMemoryOutput)
    (run : Runs (engineServer engine.platform) faultless
      (deleteMemory engine ⟨fact.tenant, fact.id⟩) world trace outcome final) :
    (outcome = .ok ⟨true⟩ ∧ Deleted engine fact world final) ↔ HasRecord fact world.vectors := by
  have valid := (history.facts_valid fact active.1).tenant
  exact run.ensured (deleteMemory_ensures active valid history.cache_empty)

theorem deletion_succeeds_iff_sample : ∃ world final fact,
    world.facts.Active fact ∧ Deleted .sample fact world final := by
  obtain ⟨world, history, passes⟩ := @exists_history_of_replay .sample anyChoice _
    anyOutcome _ 1000 [(sampleAdd, sampleAddChoices 1 [1] ++ plainChoices 1)]
    (fun world => world.facts.activeFacts.any (fun fact =>
        decide (fact.tenant = sampleTenant) && decide (fact.id = 1)) &&
      world.vectors.rows.any (fun record =>
        decide (record.tenant = sampleTenant) && decide (record.factId = 1)) &&
      (replay (engineServer .sample) faultless (plainChoices 6)
        (deleteMemory .sample ⟨sampleTenant, 1⟩) world).isSome) (by decide +kernel)
  simp only [Bool.and_eq_true, List.any_eq_true, decide_eq_true_eq] at passes
  obtain ⟨⟨⟨fact, active, own, sameId⟩, record, stored, recordOwn, sameFact⟩, replayed⟩ := passes
  obtain ⟨result, replayed⟩ := Option.isSome_iff_exists.mp replayed
  have active := (world.facts.mem_activeFacts fact).mp active
  have run := replay_runs _ _ _ _ _ _ replayed
  rw [← own, ← sameId] at run
  have hasRecord : HasRecord fact world.vectors :=
    ⟨record, stored, recordOwn.trans own.symm, sameFact.trans sameId.symm⟩
  exact ⟨world, _, fact, active,
    ((deletion_succeeds_iff .sample world _ history fact active _ _ run).mpr hasRecord).2⟩

/-- A fact whose vector could not be stored when it was added is active, and its
deletion fails although nothing fails during the deletion. -/
theorem unrecorded_memory_not_deleted : ∃ world final fact trace outcome,
    History .sample anyChoice anyOutcome world ∧ world.facts.Active fact ∧
    Runs (engineServer .sample) faultless (deleteMemory .sample ⟨fact.tenant, fact.id⟩) world
      trace outcome final ∧ outcome ≠ .ok ⟨true⟩ := by
  obtain ⟨world, history, passes⟩ := @exists_history_of_replay .sample anyChoice _
    anyOutcome _ 1000 [(sampleAdd, (sampleAddChoices 1 [1]).take 10 ++
      [{ fault := some (.storageError "unavailable") }])]
    (fun world => world.facts.activeFacts.any (fun fact =>
        decide (fact.tenant = sampleTenant) && decide (fact.id = 1)) &&
      (replay (engineServer .sample) faultless (plainChoices 3)
        (deleteMemory .sample ⟨sampleTenant, 1⟩) world).any
          fun result => !result.2.1.isOk) (by decide +kernel)
  simp only [Bool.and_eq_true, List.any_eq_true, decide_eq_true_eq] at passes
  obtain ⟨⟨fact, active, own, sameId⟩, fails⟩ := passes
  obtain ⟨trace, outcome, final, run, failed⟩ := exists_run_of_replay _ _ _ _ _ _ fails
  rw [← own, ← sameId] at run
  refine ⟨world, final, fact, trace, outcome, history,
    (world.facts.mem_activeFacts fact).mp active, run, ?_⟩
  rintro rfl
  simp [Except.isOk, Except.toBool] at failed

end Memcore
