import Memcore.Guarantees.MutationStages

/-!
# Invalidation of cached contexts by mutations

A mutating operation that changes what a tenant remembers has to drop the
contexts cached for that tenant. It does when no answer makes it return early.
When one does, the early return skips the invalidation, and the contexts cached
before stay although the facts have changed.
-/
namespace Memcore

open KeyedTables Ports Programs

/-- No context that was cached for a tenant is left if the tenant's active facts have
changed. -/
def Invalidated (before after : World) : Prop :=
  ∀ tenant, (∃ fact, fact.tenant = tenant ∧
      ¬ (before.facts.Active fact ↔ after.facts.Active fact)) →
    ∀ key, key.tenant = tenant → before.cache.entries.contains key = true →
      after.cache.entries.contains key = false

/-! ## The cache while it is disabled -/

/-- The calls that store no context. -/
def StoresNoContext : Port → Prop
  | .cache (.set _ _) => False
  | _ => True

theorem storesNoContext_of_mutator {tenant : TenantContext} (port : Port)
    (own : MutatorCall tenant port) : StoresNoContext port := by
  cases port with
  | cache call => cases call <;> first | exact own.elim | trivial
  | _ => trivial

theorem storesNoContext_of_search {tenant : TenantContext} (port : Port)
    (isSearch : SearchCall tenant port) : StoresNoContext port := by
  cases port with
  | cache call => exact isSearch.elim
  | _ => trivial

/-- An engine without a cache never stores a context. -/
theorem program_storesNoContext {engine : MemoryEngine}
    (disabled : engine.contextCacheConfig.enabled = false) (operation : EngineOperation) :
    (operation.program engine).Within StoresNoContext := by
  have checked (input : BuildContextInput) :
      (checkContextRequest engine input).Within StoresNoContext :=
    within_checked fun _ => within_checked fun _ =>
      .bind (bindUsageAttribution_within engine trivial) fun _ =>
        within_checked fun _ => within_checked fun _ => .check _
  by_cases mutates : operation.Mutates
  · exact (operation.program_mutator engine mutates).mono storesNoContext_of_mutator
  · cases operation with
    | exportUserData input =>
      exact .bind ((exportUserData_within engine input).mono storesNoContext_of_search)
        fun _ => .pure _
    | searchMemory input =>
      exact .bind ((searchMemory_within engine input).mono storesNoContext_of_search)
        fun _ => .pure _
    | buildContext input =>
      refine .bind (.bind (checked input) fun _ => ?_) fun _ => .pure _
      rw [disabled]
      exact (buildContextUncached_within engine input).mono storesNoContext_of_search
    | refreshStaleContext input =>
      refine .bind (checked input) fun _ => ?_
      rw [disabled]
      exact .pure _
    | _ => exact absurd trivial mutates

theorem StoresNoContext.serve {platform : Platform} {port : Port}
    (storesNone : StoresNoContext port) (choice : Choice) (world : World)
    (none : world.cache.entries.rows = []) :
    (World.serve platform choice port world).2.cache.entries.rows = [] := by
  cases port with
  | cache call =>
    simp only [World.serve, World.unlessFault]
    cases choice.fault with
    | some error => exact none
    | none =>
      refine List.eq_nil_iff_forall_not_mem.mpr fun row kept => ?_
      rw [List.eq_nil_iff_forall_not_mem] at none
      cases call with
      | get key => exact none row (InMemoryContextCache.mem_get kept)
      | getAny key => exact none row (InMemoryContextCache.mem_getAny kept)
      | set key entry => exact storesNone.elim
      | invalidateUser orgId userId =>
        exact none row ((InMemoryContextCache.mem_invalidateUser _ _ _).mp kept).1
  | coordinator call =>
    cases call with
    | lockWithTimeout lock =>
      simp only [World.serve, World.serveCoordinator]
      split <;> exact none
    | tryStartRefresh key =>
      simp only [World.serve, World.serveCoordinator]
      split <;> exact none
    | _ => exact none
  | system call => cases call <;> exact none
  | _ =>
    simp only [World.serve, World.unlessFault]
    cases choice.fault <;> exact none

/-- While the cache is disabled it holds nothing. -/
theorem History.cache_empty {engine : MemoryEngine} {admits : World → Port → Choice → Prop}
    {accepts : MemcoreResult Unit → Prop} {world : World}
    (history : History engine admits accepts world)
    (disabled : engine.contextCacheConfig.enabled = false) :
    world.cache.entries.rows = [] := by
  refine history.invariant (fun world => world.cache.entries.rows = [])
    (fun _ => rfl) fun operation before none => ?_
  refine Ensures.mono worldSpec_monotone (Program.Within.ensures _
    (fun world port choice none storesNone _ _ => storesNone.serve choice world none)
    (program_storesNoContext disabled operation) none) fun _ _ still _ => still

/-! ## What the stage says about the world -/

/-- The active facts and the cached contexts at a stage of an operation that has
started in a given world. -/
structure StageRelation (tenant : TenantContext) (start world : World)
    (seen : List EngineEvent) : Prop where
  others : ∀ fact, fact.tenant ≠ tenant → (start.facts.Active fact ↔ world.facts.Active fact)
  untouched : statusOf seen = .untouched →
    ∀ fact, start.facts.Active fact ↔ world.facts.Active fact
  purged : statusOf seen = .purged →
    ∀ key, key.tenant = tenant → world.cache.entries.contains key = false
  real : statusOf seen ≠ .unreal

theorem StageRelation.refl (tenant : TenantContext) (world : World) :
    StageRelation tenant world world [] :=
  ⟨fun _ _ => Iff.rfl, fun _ _ => Iff.rfl, by simp, by simp⟩

/-- A call that changes neither active facts nor cache, and leaves the stage. -/
theorem StageRelation.same {tenant : TenantContext} {start world later : World}
    {seen : List EngineEvent} {event : EngineEvent}
    (relation : StageRelation tenant start world seen)
    (status : statusAfter (statusOf seen) event = statusOf seen)
    (facts : ∀ fact, later.facts.Active fact ↔ world.facts.Active fact)
    (cache : later.cache = world.cache) :
    StageRelation tenant start later (seen ++ [event]) where
  others fact other := (relation.others fact other).trans (facts fact).symm
  untouched := by
    rw [statusOf_snoc, status]
    exact fun before fact => (relation.untouched before fact).trans (facts fact).symm
  purged := by
    rw [statusOf_snoc, status, cache]
    exact relation.purged
  real := by
    rw [statusOf_snoc, status]
    exact relation.real

/-- A write of the tenant's facts. -/
theorem StageRelation.touch {tenant : TenantContext} {start world later : World}
    {seen : List EngineEvent} {event : EngineEvent}
    (relation : StageRelation tenant start world seen)
    (status : statusAfter (statusOf seen) event = .touched)
    (facts : ∀ fact, fact.tenant ≠ tenant → (later.facts.Active fact ↔ world.facts.Active fact)) :
    StageRelation tenant start later (seen ++ [event]) where
  others fact other := (relation.others fact other).trans (facts fact other).symm
  untouched := by simp [status]
  purged := by simp [status]
  real := by simp [status]

section Step

variable {platform : Platform} {tenant : TenantContext} {start world : World}
  {seen : List EngineEvent}

/-- A call that fails on its own has no effect and leaves the stage. -/
theorem statusAfter_error {status : Status} (real : status ≠ .unreal) {port : Port}
    (notCache : ∀ call, port ≠ .cache call) (error : MemcoreError) :
    statusAfter status ⟨port, .error error⟩ = status := by
  unfold statusAfter
  rw [if_neg real]
  cases port with
  | cache call => exact absurd rfl (notCache call)
  | facts call => cases call <;> rfl
  | _ => rfl

/-- The answer of the fact store to a call of the tenant. -/
theorem StageRelation.facts (relation : StageRelation tenant start world seen)
    (call : FactStoreCall) (own : call.tenant = tenant) :
    StageRelation tenant start { world with facts := (world.facts.serve call).2 }
      (seen ++ [⟨.facts call, (world.facts.serve call).1⟩]) := by
  have others : ∀ fact, fact.tenant ≠ tenant →
      ((world.facts.serve call).2.Active fact ↔ world.facts.Active fact) := by
    intro fact other
    exact call.active_serve_others world.facts fact (own ▸ other)
  have real := relation.real
  have failed (error : MemcoreError)
      (served : (world.facts.serve call).1 = .error error)
      (unchanged : (world.facts.serve call).2 = world.facts) :
      StageRelation tenant start { world with facts := (world.facts.serve call).2 }
        (seen ++ [⟨.facts call, (world.facts.serve call).1⟩]) := by
    refine relation.same ?_ (fun fact => by rw [unchanged]) rfl
    rw [served]
    exact statusAfter_error real (by simp) error
  cases call with
  | insertFact asker fact =>
    cases served : (world.facts.insertFact asker fact).1 with
    | error error => exact failed error served (world.facts.insertFact_error _ _ _ served)
    | ok answer =>
      refine relation.touch ?_ others
      simp only [MockFactStore.serve, served, statusAfter, if_neg real]
  | updateFact asker fact =>
    cases served : (world.facts.updateFact asker fact).1 with
    | error error => exact failed error served (world.facts.updateFact_error _ _ _ served)
    | ok answer =>
      refine relation.touch ?_ others
      simp only [MockFactStore.serve, served, statusAfter, if_neg real]
  | softDeleteFact asker factId =>
    cases served : (world.facts.softDeleteFact asker factId).1 with
    | error error => exact failed error served (world.facts.softDeleteFact_error _ _ _ served)
    | ok answer =>
      refine relation.touch ?_ others
      simp only [MockFactStore.serve, served, statusAfter, if_neg real]
  | deleteUserData asker =>
    refine relation.touch ?_ others
    simp only [MockFactStore.serve, MockFactStore.deleteUserData, statusAfter, if_neg real]
  | getFact asker factId =>
    refine relation.same ?_ (fun fact => by simp only [MockFactStore.serve,
      MockFactStore.getFact_snd]) rfl
    cases served : (world.facts.getFact asker factId).1 with
    | error error => simp only [MockFactStore.serve, served, statusAfter, if_neg real]
    | ok found =>
      cases found with
      | none => simp [MockFactStore.serve, served, statusAfter, real]
      | some fact =>
        obtain ⟨_, sameTenant, _⟩ := (world.facts.getFact_some asker factId fact).mp served
        simp [MockFactStore.serve, served, statusAfter, real, sameTenant]
  | searchFacts query =>
    refine relation.same ?_ (fun fact => Iff.rfl) rfl
    simp only [statusAfter, if_neg real]
  | deleteFactsOlderThan asker cutoff dryRun =>
    by_cases quiet : dryRun = true ∨ (world.facts.expired asker cutoff).length = 0
    · refine relation.same ?_ (fun fact => ?_) rfl
      · cases dryRun with
        | true => simp [MockFactStore.serve, MockFactStore.deleteFactsOlderThan, statusAfter, real]
        | false =>
          have none : world.facts.expired asker cutoff = [] := by simpa using quiet
          simp [MockFactStore.serve, MockFactStore.deleteFactsOlderThan, statusAfter, real, none]
      · cases dryRun with
        | true => simp [MockFactStore.serve, MockFactStore.deleteFactsOlderThan]
        | false =>
          have none : world.facts.expired asker cutoff = [] := by simpa using quiet
          simp only [MockFactStore.serve, world.facts.active_deleteFactsOlderThan]
          refine ⟨And.left, fun active => ⟨active, fun expired => ?_⟩⟩
          have member := (world.facts.mem_expired asker cutoff fact).mpr ⟨active, expired⟩
          simp [none] at member
    · refine relation.touch ?_ others
      obtain ⟨applied, some⟩ := not_or.mp quiet
      have applied : dryRun = false := by simpa using applied
      subst applied
      have matched : world.facts.expired asker cutoff ≠ [] := by simpa using some
      simp [MockFactStore.serve, MockFactStore.deleteFactsOlderThan, statusAfter, real, matched]

/-- Every call of a mutating operation keeps the relation, as long as the cache does
not fail. -/
theorem StageRelation.step (relation : StageRelation tenant start world seen) {port : Port}
    (own : MutatorCall tenant port) (choice : Choice)
    (admitted : cacheFaultless world port choice) :
    StageRelation tenant start (World.serve platform choice port world).2
      (seen ++ [⟨port, (World.serve platform choice port world).1⟩]) := by
  have faulty (notCache : ∀ call, port ≠ .cache call) (error : MemcoreError) :
      StageRelation tenant start world (seen ++ [⟨port, .error error⟩]) :=
    relation.same (statusAfter_error relation.real notCache error) (fun _ => Iff.rfl) rfl
  have real := relation.real
  cases port with
  | facts call =>
    simp only [World.serve, World.unlessFault]
    cases choice.fault with
    | some error => exact faulty (by simp) error
    | none => exact relation.facts call own.facts_tenant
  | cache call =>
    have faultless : choice.fault = none := admitted
    cases call with
    | invalidateUser orgId userId =>
      simp only [World.serve, World.unlessFault, faultless, InMemoryContextCache.serve]
      have purged : statusAfter (statusOf seen) ⟨.cache (.invalidateUser orgId userId),
          .ok (world.cache.entries.rows.length -
            (world.cache.invalidateUser ⟨orgId, userId⟩).entries.rows.length)⟩ = .purged := by
        simp only [statusAfter, if_neg real]
      refine ⟨relation.others, by simp [purged], fun _ key sameTenant => ?_, by simp [purged]⟩
      by_contra kept
      obtain ⟨row, stored, sameKey⟩ := (Table.contains_iff _ _).mp (eq_true_of_ne_false kept)
      refine ((InMemoryContextCache.mem_invalidateUser _ _ _).mp stored).2 ?_
      rw [show row.1 = key from sameKey, sameTenant]
      exact own.symm
    | _ => exact own.elim
  | vectors call =>
    simp only [World.serve, World.unlessFault]
    cases choice.fault with
    | some error => exact faulty (by simp) error
    | none => exact relation.same (by simp [statusAfter, real]) (fun _ => Iff.rfl) rfl
  | events call =>
    simp only [World.serve, World.unlessFault]
    cases choice.fault with
    | some error => exact faulty (by simp) error
    | none => exact relation.same (by simp [statusAfter, real]) (fun _ => Iff.rfl) rfl
  | provider call =>
    simp only [World.serve, World.unlessFault]
    cases choice.fault with
    | some error => exact faulty (by simp) error
    | none => exact relation.same (by simp [statusAfter, real]) (fun _ => Iff.rfl) rfl
  | system call =>
    cases call <;> exact relation.same (by simp [statusAfter, real]) (fun _ => Iff.rfl) rfl
  | coordinator call => exact own.elim

end Step

/-- An answer after which every operation goes on. -/
def succeedsPlainly : EngineEvent → Bool
  | ⟨.provider _, _⟩ => false
  | ⟨.facts (.getFact _ _), .ok found⟩ => Option.isSome (found : Option Fact)
  | ⟨_, .ok _⟩ => true
  | ⟨_, .error _⟩ => false

theorem carriedOn_of_plain (operation : EngineOperation) {trace : List EngineEvent}
    (plain : trace.all succeedsPlainly = true) : operation.CarriedOn trace := by
  intro before event after split
  have member : event ∈ trace := by simp [split]
  have succeeds := List.all_eq_true.mp plain event member
  obtain ⟨port, answer⟩ := event
  cases answer with
  | error error =>
    exfalso
    cases port with
    | facts call => cases call <;> simp [succeedsPlainly] at succeeds
    | _ => simp [succeedsPlainly] at succeeds
  | ok value =>
    cases port with
    | facts call =>
      cases call with
      | getFact tenant factId =>
        obtain ⟨fact, rfl⟩ := Option.isSome_iff_exists.mp succeeds
        cases operation <;> exact ⟨_, rfl⟩
      | _ => exact ⟨value, rfl⟩
    | vectors call =>
      cases call with
      | deleteByFactId tenant factId =>
        cases operation <;> first | rfl | exact fun error wrong => by simp at wrong
      | _ => exact ⟨value, rfl⟩
    | events call =>
      cases call with
      | recordEvent tenant event =>
        cases operation <;> first | trivial | exact .inl ⟨value, rfl⟩
      | _ => exact ⟨value, rfl⟩
    | provider call => simp [succeedsPlainly] at succeeds
    | cache call => trivial
    | _ => exact ⟨value, rfl⟩

/-- A fact of the key's tenant is no longer active, and the key is still cached. -/
def keepsStaleContext (before after : World) (key : ContextCacheKey) : Bool :=
  before.facts.activeFacts.any (fun fact => decide (fact.tenant = key.tenant) &&
    after.facts.activeFacts.all fun other => decide (other.id ≠ fact.id)) &&
  before.cache.entries.contains key && after.cache.entries.contains key

theorem not_invalidated {before after : World} {key : ContextCacheKey}
    (keeps : keepsStaleContext before after key = true) : ¬ Invalidated before after := by
  simp only [keepsStaleContext, Bool.and_eq_true, List.any_eq_true, List.all_eq_true,
    decide_eq_true_eq, MockFactStore.mem_activeFacts] at keeps
  obtain ⟨⟨⟨fact, active, own, gone⟩, cached⟩, kept⟩ := keeps
  intro invalidated
  have changed : ¬ (before.facts.Active fact ↔ after.facts.Active fact) :=
    fun same => gone fact (same.mp active) rfl
  have dropped := invalidated key.tenant ⟨fact, own, changed⟩ key rfl cached
  simp [kept] at dropped

end Memcore
