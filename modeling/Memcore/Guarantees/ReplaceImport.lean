import Memcore.Guarantees.ImportPrediction
import Memcore.Guarantees.StoresInStep

/-!
# Replacing a tenant's data by an import

A replacement wipes the tenant's data and then stores the payload fact by fact.
Nothing is put back when it fails on the way: what is left then is a beginning of the
payload. When nothing fails, what was exported and passes validation is restored
exactly; an export holds one page of facts, and validation refuses some metadata that
memories may have.
-/
namespace Memcore

open KeyedTables Ports Programs

/-- The tenant's active facts are the given ones, and its records are about them. -/
structure Restored (tenant : TenantContext) (facts : List Fact) (world : World) : Prop where
  active : ∀ fact, fact.tenant = tenant → (world.facts.Active fact ↔ fact ∈ facts)
  recorded : ∀ record ∈ world.vectors.rows, record.tenant = tenant →
    ∃ fact ∈ facts, Carries record fact

section Loop

variable {platform : Platform} {admits : World → Port → Choice → Prop} {world : World}
  {tenant : TenantContext}

theorem restored_wiped (world : World) (tenant : TenantContext) (events : List MemoryEvent) :
    Restored tenant [] { world with
      facts := (world.facts.deleteUserData tenant).2
      vectors := (MockVectorStore.deleteByUser world.vectors tenant).2
      events := events } where
  active fact own := by
    simp only [List.not_mem_nil, iff_false]
    exact fun active => ((world.facts.active_deleteUserData tenant fact).mp active).2 own
  recorded record stored own :=
    absurd own ((world.vectors.mem_deleteByUser tenant record).mp stored).2

/-- A new fact of the tenant joins the restored ones, at first without a record. -/
theorem Restored.insert {facts : List Fact} {fact : Fact} (restored : Restored tenant facts world)
    (free : world.facts.facts.contains fact.id = false) :
    Restored tenant (facts ++ [fact]) { world with facts := world.facts.putFact fact } where
  active other otherOwn := by
    rw [world.facts.active_insertFact fact other free, restored.active other otherOwn,
      List.mem_append, List.mem_singleton, or_comm]
  recorded record stored own := by
    obtain ⟨fact, member, carries⟩ := restored.recorded record stored own
    exact ⟨fact, List.mem_append_left _ member, carries⟩

theorem Restored.record {facts : List Fact} {fact : Fact} {record : VectorRecord}
    (restored : Restored tenant facts world) (member : fact ∈ facts)
    (carries : Carries record fact) :
    Restored tenant facts { world with vectors := world.vectors.put record } where
  active := restored.active
  recorded other stored own := by
    rcases (Table.mem_put _ _ _).mp stored with rfl | ⟨old, _⟩
    · exact ⟨fact, member, carries⟩
    · exact restored.recorded other old own

/-- The stores of facts and vectors decide what is restored. -/
theorem Restored.same {facts : List Fact} {later : World} (restored : Restored tenant facts world)
    (sameFacts : later.facts = world.facts) (sameVectors : later.vectors = world.vectors) :
    Restored tenant facts later := by
  refine ⟨?_, ?_⟩
  · rw [sameFacts]
    exact restored.active
  · rw [sameVectors]
    exact restored.recorded

/-- Storing one fact: it is there afterwards, or the failure came before. -/
theorem storeImported_restored {facts : List Fact} {fact : Fact}
    (restored : Restored tenant facts world) (own : fact.tenant = tenant) :
    Ensures (worldSpec platform admits) (storeImported tenant fact)
      (fun outcome final => Restored tenant (facts ++ [fact]) final ∨
        (∃ error, outcome = .error error) ∧ Restored tenant facts final) world := by
  simp only [storeImported, ensures_bind]
  refine ensures_facts (.insertFact tenant fact) (fun _ error _ _ => .inr ⟨⟨error, rfl⟩, restored⟩) ?_
  simp only [MockFactStore.serve]
  cases served : (world.facts.insertFact tenant fact).1 with
  | error error =>
    refine .inr ⟨⟨error, rfl⟩, restored.same ?_ rfl⟩
    exact world.facts.insertFact_error tenant fact error served
  | ok inserted =>
    obtain ⟨rfl, _, free, stored⟩ := world.facts.insertFact_ok tenant fact inserted served
    have joined := restored.insert free
    rw [stored]
    refine (andThen_ok _ _ _ _ _).mpr ((ensures_bind _ _ _ _ _).mpr ?_)
    refine ensures_provider (.embedText _) (fun _ _ _ _ => .inl joined) fun choice => ?_
    refine (andThen_ok _ _ _ _ _).mpr ?_
    simp only [vectorRecordFromFact, ensures_bind]
    refine ensures_newUuid fun choice _ => ?_
    simp only [andThen_ok, ensures_pure]
    refine ensures_vectors (.upsertVector tenant _) (fun _ _ _ _ => .inl joined) ?_
    simp only [MockVectorStore.serve]
    rw [MockVectorStore.upsertVector_eq]
    · exact .inl (joined.record (List.mem_append_right _ List.mem_cons_self)
        ⟨rfl, rfl, rfl, rfl, rfl⟩)
    · exact own

theorem importedFact_own {exported : Fact} (own : exported.tenant = tenant) :
    importedFact exported tenant exported.id = exported := by
  subst own
  rfl

theorem importFact_restored {input : ImportUserDataInput} (replaces : input.mode = .replace)
    (valid : input.tenant.Valid)
    (payload : ValidPayload input.payload input.tenant input.restoreEvents) {exported : Fact}
    (member : exported ∈ input.payload.facts) {facts : List Fact}
    (restored : Restored input.tenant facts world) :
    Ensures (worldSpec platform admits) (importFact input exported)
      (fun outcome final => Restored input.tenant (facts ++ [exported]) final ∨
        (∃ error, outcome = .error error) ∧ Restored input.tenant facts final) world := by
  have own := payload.factTenant exported member
  have created := payload.factForImport_ok valid member exported.id
  rw [importedFact_own own] at created
  refine (ensures_bind _ _ _ _ _).mpr (ensures_facts (.getFact input.tenant exported.id)
    (fun _ error _ _ => .inr ⟨⟨error, rfl⟩, restored⟩) ?_)
  simp only [MockFactStore.serve, MockFactStore.getFact_snd]
  cases served : (world.facts.getFact input.tenant exported.id).1 with
  | error error => exact .inr ⟨⟨error, rfl⟩, restored⟩
  | ok existing =>
    simp only [andThen_ok, resolveImportFactId, replaces, reduceCtorEq, decide_false,
      Bool.and_false, Bool.false_eq_true, if_false, ensures_bind, ensures_pure, ensures_check,
      created]
    exact storeImported_restored restored own

/-- The loop restores the payload from its beginning on, and where it fails it leaves
what it has restored so far. -/
theorem importFacts_restored {input : ImportUserDataInput} (replaces : input.mode = .replace)
    (valid : input.tenant.Valid)
    (payload : ValidPayload input.payload input.tenant input.restoreEvents)
    {exported : List Fact} (members : ∀ fact ∈ exported, fact ∈ input.payload.facts)
    {facts : List Fact} (restored : Restored input.tenant facts world) :
    Ensures (worldSpec platform admits) (importFacts input exported)
      (fun outcome final => ∃ count ≤ exported.length,
        Restored input.tenant (facts ++ exported.take count) final ∧
        ∀ value, outcome = .ok value → count = exported.length) world := by
  induction exported generalizing facts world with
  | nil =>
    refine (ensures_pure _ _ _ _).mpr ⟨0, le_rfl, ?_, fun _ _ => rfl⟩
    rwa [List.take_nil, List.append_nil]
  | cons fact rest inductionHypothesis =>
    refine (ensures_bind _ _ _ _ _).mpr (Ensures.mono worldSpec_monotone
      (importFact_restored replaces valid payload (members fact List.mem_cons_self) restored)
      fun outcome later stored => ?_)
    cases outcome with
    | error error =>
      refine (andThen_error _ _ _ _ _).mpr ?_
      rcases stored with joined | ⟨_, unchanged⟩
      · exact ⟨1, by simp, by simpa using joined, fun _ wrong => by simp at wrong⟩
      · exact ⟨0, by simp, by simpa using unchanged, fun _ wrong => by simp at wrong⟩
    | ok value =>
      have joined := stored.resolve_right fun failed => by simp at failed
      refine (andThen_ok _ _ _ _ _).mpr ((ensures_bind _ _ _ _ _).mpr (Ensures.mono
        worldSpec_monotone (inductionHypothesis
          (fun other member => members other (List.mem_cons_of_mem _ member)) joined)
        fun outcome final finished => ?_))
      obtain ⟨count, bounded, restored, complete⟩ := finished
      have extended : Restored input.tenant (facts ++ (fact :: rest).take (count + 1)) final := by
        simpa using restored
      cases outcome with
      | error error =>
        exact (andThen_error _ _ _ _ _).mpr
          ⟨count + 1, by simpa using bounded, extended, fun _ wrong => by simp at wrong⟩
      | ok value =>
        refine (andThen_ok _ _ _ _ _).mpr ((ensures_pure _ _ _ _).mpr
          ⟨count + 1, by simpa using bounded, extended, fun _ _ => ?_⟩)
        rw [complete value rfl, List.length_cons]

end Loop

/-! ## A failed replacement -/

/-- The tenant's data have been deleted. -/
def wipeEvent (tenant : TenantContext) : EngineEvent := ⟨.facts (.deleteUserData tenant), .ok ()⟩

/-- What is left after the wipe: the first facts of the payload, and records of these.
The old records are left only when their own deletion fails. -/
structure LeftWith (input : ImportUserDataInput) (count : ℕ) (before after : World) : Prop where
  bounded : count ≤ input.payload.facts.length
  facts : ∀ fact, fact.tenant = input.tenant →
    (after.facts.Active fact ↔ fact ∈ input.payload.facts.take count)
  records : count = 0 ∧ after.vectors = before.vectors ∨
    ∀ record ∈ after.vectors.rows, record.tenant = input.tenant →
      ∃ fact ∈ input.payload.facts.take count, Carries record fact

theorem Restored.leftWith {input : ImportUserDataInput} {count : ℕ} {before after : World}
    (restored : Restored input.tenant (input.payload.facts.take count) after)
    (bounded : count ≤ input.payload.facts.length) : LeftWith input count before after :=
  ⟨bounded, restored.active, .inr restored.recorded⟩

section AfterWipe

variable {engine : MemoryEngine} {admits : World → Port → Choice → Prop} {world : World}
  {input : ImportUserDataInput}

/-- What follows the wipe of the facts leaves a beginning of the payload, all of it when
it returns. -/
theorem afterWipe_ensures (replaces : input.mode = .replace) (valid : input.tenant.Valid)
    (payload : ValidPayload input.payload input.tenant input.restoreEvents)
    (output : Bool → ℕ → ℕ → ImportUserDataOutput) :
    Ensures (worldSpec engine.platform admits)
      ((do
        deleteByUser input.tenant
        recordEventBestEffort engine input.tenant (buildImportReplaceEvent engine input.tenant)
        return true) >>= fun replacedExisting => do
          let importedFacts ← importFacts input input.payload.facts
          let importedEvents ← restoreEvents engine input
          invalidateUserContextCache engine input.tenant
          return output replacedExisting importedFacts importedEvents)
      (fun outcome final => ∃ count, LeftWith input count world final ∧
        ∀ value, outcome = .ok value → count = input.payload.facts.length)
      { world with facts := (world.facts.deleteUserData input.tenant).2 } := by
  simp only [ensures_bind]
  refine ensures_vectors (.deleteByUser input.tenant) (fun _ error _ _ => ?_) ?_
  · refine ⟨0, ⟨by simp, fun fact own => ?_, .inl ⟨rfl, rfl⟩⟩, fun _ wrong => by simp at wrong⟩
    exact (restored_wiped world input.tenant world.events).active fact own
  · simp only [MockVectorStore.serve, MockVectorStore.deleteByUser, andThen_ok, ensures_bind]
    refine ensures_quiet (recordEventBestEffort_within engine
      (memoryEventNew_within engine _ _ _ _ _)) fun outcome noted same => ?_
    have wiped : Restored input.tenant [] noted :=
      (restored_wiped world input.tenant world.events).same same.facts same.vectors
    cases outcome with
    | error error =>
      refine (andThen_error _ _ _ _ _).mpr ((andThen_error _ _ _ _ _).mpr
        ⟨0, Restored.leftWith (by simpa using wiped) (by simp), fun _ wrong => by simp at wrong⟩)
    | ok value =>
      simp only [andThen_ok, ensures_pure, ensures_bind]
      refine Ensures.mono worldSpec_monotone (importFacts_restored replaces valid payload
        (fun _ member => member) wiped) fun outcome stored finished => ?_
      obtain ⟨count, bounded, restored, complete⟩ := finished
      rw [List.nil_append] at restored
      cases outcome with
      | error error =>
        exact (andThen_error _ _ _ _ _).mpr
          ⟨count, restored.leftWith bounded, fun _ wrong => by simp at wrong⟩
      | ok imported =>
        have all := complete imported rfl
        refine (andThen_ok _ _ _ _ _).mpr ((ensures_bind _ _ _ _ _).mpr ?_)
        have quiet : (restoreEvents engine input).Within (QuietCall input.tenant) := by
          unfold restoreEvents
          split
          · exact restoreEventsFrom_quiet input _
          · exact .pure _
        refine ensures_quiet quiet fun outcome ended same => ?_
        have kept := restored.same same.facts same.vectors
        cases outcome with
        | error error =>
          exact (andThen_error _ _ _ _ _).mpr
            ⟨count, kept.leftWith bounded, fun _ wrong => by simp at wrong⟩
        | ok events =>
          refine (andThen_ok _ _ _ _ _).mpr ((ensures_bind _ _ _ _ _).mpr
            (ensures_invalidateUserContextCache engine _ fun cache => ?_))
          refine (andThen_ok _ _ _ _ _).mpr ((ensures_pure _ _ _ _).mpr
            ⟨count, ?_, fun _ _ => all⟩)
          exact Restored.leftWith (kept.same rfl rfl) bounded

end AfterWipe

/-- The deletion of the tenant's facts fails only on its own. -/
theorem serve_deleteUserData (platform : Platform) (choice : Choice) (world : World)
    (tenant : TenantContext) :
    (∃ error, (World.serve platform choice (.facts (.deleteUserData tenant)) world) =
      (.error error, world)) ∨
    (World.serve platform choice (.facts (.deleteUserData tenant)) world) =
      (.ok (), { world with facts := (world.facts.deleteUserData tenant).2 }) := by
  simp only [World.serve, World.unlessFault]
  cases choice.fault with
  | some error => exact .inl ⟨error, rfl⟩
  | none => exact .inr rfl

/-- A replacement that fails before the tenant's facts were deleted changes neither
store. One that fails afterwards puts nothing back: the old facts are gone, and what is
left is a beginning of the payload. -/
theorem failed_replacement (engine : MemoryEngine) (world final : World)
    (input : ImportUserDataInput) (replaces : input.mode = .replace)
    (real : input.dryRun = false) (trace : List EngineEvent) (error : MemcoreError)
    (run : Runs (engineServer engine.platform) anyChoice (importUserData engine input) world
      trace (.error error) final) :
    (wipeEvent input.tenant ∉ trace → final.facts = world.facts ∧ final.vectors = world.vectors) ∧
    (wipeEvent input.tenant ∈ trace → ∃ count, LeftWith input count world final) := by
  have untouched (same : final = world) (noCall : wipeEvent input.tenant ∉ trace) :
      (wipeEvent input.tenant ∉ trace →
        final.facts = world.facts ∧ final.vectors = world.vectors) ∧
      (wipeEvent input.tenant ∈ trace → ∃ count, LeftWith input count world final) :=
    ⟨fun _ => by rw [same]; exact ⟨rfl, rfl⟩, fun called => absurd called noCall⟩
  rcases run.of_bind with ⟨_, _, failed⟩ | ⟨_, middle, before, after, rfl, checked, rest⟩
  · obtain ⟨rfl, _, rfl⟩ := failed.of_check
    exact untouched rfl (by simp)
  · obtain ⟨rfl, passed, rfl⟩ := checked.of_check
    have valid := (validateTenant_ok input.tenant).mp passed.symm
    simp only [real, Bool.false_eq_true, if_false, List.nil_append] at rest untouched ⊢
    by_cases passes : (collectImportValidation input.payload input.tenant
        input.restoreEvents).valid = true
    · have payload := (collectImportValidation_valid _ _ _).mp passes
      simp only [passes, Bool.not_true, Bool.false_eq_true, if_false, importValidated,
        replaceExisting, replaces, if_true] at rest
      rw [Program.bind_assoc] at rest
      rcases rest.of_bind with ⟨_, _, failed⟩ | ⟨_, wiped, called, later, rfl, wipe, rest⟩
      · obtain ⟨choice, _, _, rfl, answer, changed⟩ := failed.of_call
        rcases serve_deleteUserData engine.platform choice middle input.tenant with
          ⟨_, served⟩ | served
        · exact untouched (changed.trans (congrArg Prod.snd served)) (by simp [wipeEvent])
        · exact absurd (answer.trans (congrArg Prod.fst served)) (by simp)
      · obtain ⟨choice, _, _, rfl, answer, changed⟩ := wipe.of_call
        refine ⟨fun missing => absurd List.mem_cons_self missing, fun _ => ?_⟩
        rcases serve_deleteUserData engine.platform choice middle input.tenant with
          ⟨_, served⟩ | served
        · exact absurd (answer.trans (congrArg Prod.fst served)) (by simp)
        · obtain rfl := changed.trans (congrArg Prod.snd served)
          obtain ⟨count, left, _⟩ := rest.ensured (afterWipe_ensures replaces valid payload
            fun replacedExisting importedFacts importedEvents => ⟨importedFacts, importedEvents,
              0, replacedExisting, false, collectImportValidation input.payload input.tenant
                input.restoreEvents⟩)
          exact ⟨count, left⟩
    · simp only [passes, Bool.not_false, if_true] at rest
      cases rest with
      | fail => exact untouched rfl (by simp)

/-- A failed replacement whose only fault is the embedding of the new fact. -/
theorem embedding_failure_loses_memory : ∃ world trace error final fact,
    History (.new .sample) anyChoice anyOutcome world ∧
    Runs (engineServer .sample) anyChoice (importUserData (.new .sample)
      (sampleImport [sampleFact 7] .replace)) world trace (.error error) final ∧
    world.facts.Active fact ∧ fact.tenant = sampleTenant ∧ ¬ final.facts.Active fact := by
  obtain ⟨world, history, passes⟩ := @exists_history_of_replay (.new .sample) anyChoice _
    anyOutcome _ 1000 [(sampleAdd, sampleAddChoices 1 [1])]
    (fun world => world.facts.activeFacts.any (fun fact =>
        decide (fact.tenant = sampleTenant) && decide (fact.id = 1)) &&
      (replay (engineServer .sample) anyChoice (plainChoices 6 ++
        [{ fault := some (.providerError "unavailable") }]) (importUserData (.new .sample)
          (sampleImport [sampleFact 7] .replace)) world).any fun result =>
            !result.2.1.isOk && result.2.2.facts.activeFacts.all fun fact => decide (fact.id ≠ 1))
    (by decide +kernel)
  simp only [Bool.and_eq_true, List.any_eq_true, decide_eq_true_eq] at passes
  obtain ⟨⟨fact, active, own, sameId⟩, fails⟩ := passes
  obtain ⟨trace, outcome, final, run, lost⟩ := exists_run_of_replay _ _ _ _ _ _ fails
  simp only [Bool.and_eq_true, Bool.not_eq_true', List.all_eq_true, decide_eq_true_eq] at lost
  cases outcome with
  | ok output => simp [Except.isOk, Except.toBool] at lost
  | error error =>
    refine ⟨world, trace, error, final, fact, history, run,
      (world.facts.mem_activeFacts fact).mp active, own, fun stillActive => ?_⟩
    exact lost.2 fact ((final.facts.mem_activeFacts fact).mpr stillActive) sameId

theorem failed_replacement_sample : ∃ world trace error final,
    Runs (engineServer .sample) anyChoice (importUserData (.new .sample)
      (sampleImport [sampleFact 7] .replace)) world trace (.error error) final ∧
    ∃ count, LeftWith (sampleImport [sampleFact 7] .replace) count world final := by
  obtain ⟨trace, outcome, final, run, failed⟩ := exists_run_of_replay (engineServer .sample)
    anyChoice (plainChoices 6 ++ [{ fault := some (.providerError "unavailable") }])
    (importUserData (.new .sample) (sampleImport [sampleFact 7] .replace)) (World.empty 1000)
    (fun result => !result.2.1.isOk && decide (result.2.2.facts.activeFacts.length = 1))
    (by decide +kernel)
  simp only [Bool.and_eq_true, Bool.not_eq_true', decide_eq_true_eq] at failed
  cases outcome with
  | ok output => simp [Except.isOk, Except.toBool] at failed
  | error error =>
    obtain ⟨early, late⟩ := failed_replacement (.new .sample) (World.empty 1000) final
      (sampleImport [sampleFact 7] .replace) rfl rfl trace error run
    refine ⟨World.empty 1000, trace, error, final, run, late ?_⟩
    by_contra missing
    have unchanged := (early missing).1
    rw [unchanged] at failed
    exact absurd failed.2 (by decide)

/-! ## Export and import -/

/-- The tenant's active facts, the latest changes first. -/
def latestFacts (store : MockFactStore) (tenant : TenantContext) : List Fact :=
  (store.activeFacts.filter fun fact => decide (fact.tenant = tenant)).insertionSort
    MockFactStore.comesFirst

theorem mem_latestFacts (store : MockFactStore) (tenant : TenantContext) (fact : Fact) :
    fact ∈ latestFacts store tenant ↔ store.Active fact ∧ fact.tenant = tenant := by
  rw [latestFacts, List.mem_insertionSort, List.mem_filter, MockFactStore.mem_activeFacts,
    decide_eq_true_eq]

/-- An export reports one page of the latest facts, and one fact more. -/
def exportedFacts (store : MockFactStore) (tenant : TenantContext) : List Fact :=
  (latestFacts store tenant).take (exportFactsLimit + 1)

theorem mem_of_exported {store : MockFactStore} {tenant : TenantContext} {fact : Fact}
    (member : fact ∈ exportedFacts store tenant) : store.Active fact ∧ fact.tenant = tenant :=
  (mem_latestFacts store tenant fact).mp (List.mem_of_mem_take member)

theorem searchFacts_exported (store : MockFactStore) (tenant : TenantContext) :
    (store.searchFacts ⟨tenant, none, none, exportFactsLimit, none, false⟩).1 =
      .ok (exportedFacts store tenant) := by
  have sameTest : (fun fact : Fact => decide (fact.tenant = tenant) &&
      store.matchesQuery ⟨tenant, none, none, exportFactsLimit, none, false⟩ fact) =
      fun fact => decide (fact.tenant = tenant) && !store.isDeleted fact.id := by
    funext fact
    simp [MockFactStore.matchesQuery]
  simp only [MockFactStore.searchFacts, sameTest, exportedFacts, latestFacts,
    MockFactStore.activeFacts, List.filter_filter, pageFetchLimit]

/-- An export leaves the data as they are. -/
theorem exportUserData_ensures {engine : MemoryEngine}
    {admits : World → Port → Choice → Prop} {world : World} {input : ExportUserDataInput}
    (activeOnly : input.includeDeleted = false) :
    Ensures (worldSpec engine.platform admits) (exportUserData engine input)
      (fun outcome final => SameData world final ∧ ∀ payload, outcome = .ok payload →
        input.tenant.Valid ∧ payload.facts = exportedFacts world.facts input.tenant ∧
          payload.orgId = input.tenant.orgId ∧ payload.userId = input.tenant.userId ∧
          payload.formatVersion = userExportFormatVersion) world := by
  simp only [exportUserData, ensures_bind, ensures_check, activeOnly]
  cases validated : validateTenant input.tenant with
  | error error => exact (andThen_error _ _ _ _ _).mpr ⟨.refl world, by simp⟩
  | ok passed =>
    have valid := (validateTenant_ok input.tenant).mp validated
    refine (andThen_ok _ _ _ _ _).mpr ((ensures_bind _ _ _ _ _).mpr ?_)
    refine ensures_facts (.searchFacts _)
      (fun _ _ _ _ => (andThen_error _ _ _ _ _).mpr ⟨.refl world, by simp⟩) ?_
    simp only [MockFactStore.serve, MockFactStore.searchFacts_snd, searchFacts_exported,
      andThen_ok, ensures_bind]
    have quiet : (exportedEvents engine input).Within (QuietCall input.tenant) := by
      unfold exportedEvents
      split
      · exact within_perform rfl
      · exact .pure _
    refine ensures_quiet quiet fun events after same => ?_
    cases events with
    | error error => exact (andThen_error _ _ _ _ _).mpr ⟨same, by simp⟩
    | ok events =>
      refine (andThen_ok _ _ _ _ _).mpr ((ensures_bind _ _ _ _ _).mpr ?_)
      refine ensures_now fun exportedAt => ?_
      refine (andThen_ok _ _ _ _ _).mpr ((ensures_pure _ _ _ _).mpr ⟨same, ?_⟩)
      rintro payload same
      obtain rfl := Except.ok.inj same
      exact ⟨valid, rfl, rfl, rfl, rfl⟩

/-- A replacement that returns has restored the whole payload. -/
theorem replacement_ensures {engine : MemoryEngine} {admits : World → Port → Choice → Prop}
    {world : World} {input : ImportUserDataInput} (replaces : input.mode = .replace)
    (real : input.dryRun = false) :
    Ensures (worldSpec engine.platform admits) (importUserData engine input)
      (fun outcome final => (ValidPayload input.payload input.tenant input.restoreEvents ∧
        ∀ output, outcome = .ok output →
          LeftWith input input.payload.facts.length world final) ∨
        (∃ error, outcome = .error error) ∧ final = world) world := by
  simp only [importUserData, ensures_bind, ensures_check]
  cases validated : validateTenant input.tenant with
  | error error => exact (andThen_error _ _ _ _ _).mpr (.inr ⟨⟨error, rfl⟩, rfl⟩)
  | ok passed =>
    have valid := (validateTenant_ok input.tenant).mp validated
    refine (andThen_ok _ _ _ _ _).mpr ?_
    simp only [real, Bool.false_eq_true, if_false]
    by_cases passes : (collectImportValidation input.payload input.tenant
        input.restoreEvents).valid = true
    · have payload := (collectImportValidation_valid _ _ _).mp passes
      simp only [passes, Bool.not_true, Bool.false_eq_true, if_false, importValidated,
        replaceExisting, replaces, if_true]
      rw [Program.bind_assoc]
      refine (ensures_bind _ _ _ _ _).mpr (ensures_facts (.deleteUserData input.tenant)
        (fun _ _ _ _ => .inl ⟨payload, fun _ wrong => by simp at wrong⟩) ?_)
      simp only [MockFactStore.serve, MockFactStore.deleteUserData, andThen_ok]
      refine Ensures.mono worldSpec_monotone (afterWipe_ensures replaces valid payload
        fun replacedExisting importedFacts importedEvents => ⟨importedFacts, importedEvents,
          0, replacedExisting, false, collectImportValidation input.payload input.tenant
            input.restoreEvents⟩) fun outcome final left => ?_
      obtain ⟨count, left, complete⟩ := left
      exact .inl ⟨payload, fun output same => complete output same ▸ left⟩
    · simp only [passes, Bool.not_false, if_true]
      exact (ensures_fail _ _ _ _).mpr (.inr ⟨⟨_, rfl⟩, rfl⟩)

/-- Exported facts of a reachable state pass validation unless their metadata do not. -/
theorem exported_validPayload {world : World} {payload : UserMemoryExport}
    {tenant : TenantContext} (stored : ∀ fact ∈ world.facts.facts.rows, fact.Valid)
    (facts : payload.facts = exportedFacts world.facts tenant)
    (orgId : payload.orgId = tenant.orgId) (userId : payload.userId = tenant.userId)
    (formatVersion : payload.formatVersion = userExportFormatVersion) :
    ValidPayload payload tenant false ↔
      ∀ fact ∈ payload.facts, containsForbiddenSecretFields fact.metadata = false := by
  have known (fact : Fact) (member : fact ∈ payload.facts) : fact.Valid ∧ fact.tenant = tenant := by
    rw [facts] at member
    obtain ⟨active, own⟩ := mem_of_exported member
    exact ⟨stored fact active.1, own⟩
  refine ⟨ValidPayload.metadata, fun clean => ?_⟩
  exact {
    formatVersion := formatVersion
    orgId := orgId
    userId := userId
    factTenant := fun fact member => (known fact member).2
    content := fun fact member => (known fact member).1.content
    confidence := fun fact member => (known fact member).1.confidence
    importance := fun fact member => (known fact member).1.importance
    metadata := clean
    eventTenant := by simp
    eventMetadata := by simp }

/-- The exported facts raise no conflict in the store that they come from. -/
theorem exported_importable (store : MockFactStore) (tenant : TenantContext) :
    Importable store tenant (exportedFacts store tenant) .replace := by
  constructor
  · have distinct : ((latestFacts store tenant).map Fact.id).Nodup := by
      refine (((List.perm_insertionSort _ _).map Fact.id).nodup_iff).mpr ?_
      exact store.facts.distinct.sublist
        ((List.filter_sublist.trans List.filter_sublist).map Fact.id)
    exact distinct.sublist ((List.take_sublist _ _).map Fact.id)
  · intro fact member row stored sameId
    obtain ⟨active, own⟩ := mem_of_exported member
    rw [store.facts.eq_of_key stored active.1 sameId]
    exact own

/-- In every state that the engine can reach: what was exported from it is restored by a
replacement without failures, unless validation refuses the metadata of an exported fact,
and then nothing changes. The tenant's active facts are afterwards the exported ones, in
every field; these are all of them when an export holds them. -/
theorem export_then_import (engine : MemoryEngine) (world : World)
    (history : History engine anyChoice anyOutcome world) (tenant : TenantContext)
    (includeEvents : Bool) (exportTrace trace : List EngineEvent) (payload : UserMemoryExport)
    (exported final : World) (outcome : MemcoreResult ImportUserDataOutput)
    (exportRun : Runs (engineServer engine.platform) anyChoice
      (exportUserData engine ⟨tenant, includeEvents, false⟩) world exportTrace (.ok payload)
      exported)
    (run : Runs (engineServer engine.platform) faultless
      (importUserData engine ⟨tenant, payload, .replace, false, false⟩) exported trace outcome
      final) :
    payload.facts = exportedFacts world.facts tenant ∧
    ((∀ fact ∈ payload.facts, containsForbiddenSecretFields fact.metadata = false) →
      (∃ output, outcome = .ok output) ∧
      (∀ fact, fact.tenant = tenant → (final.facts.Active fact ↔ fact ∈ payload.facts)) ∧
      ((latestFacts world.facts tenant).length ≤ exportFactsLimit + 1 →
        ∀ fact, fact.tenant = tenant → (final.facts.Active fact ↔ world.facts.Active fact))) ∧
    ((∃ fact ∈ payload.facts, containsForbiddenSecretFields fact.metadata = true) →
      (∃ error, outcome = .error error) ∧
        final.facts = world.facts ∧ final.vectors = world.vectors) := by
  obtain ⟨same, reported⟩ := exportRun.ensured (exportUserData_ensures rfl)
  obtain ⟨valid, facts, orgId, userId, formatVersion⟩ := reported payload rfl
  have passes := exported_validPayload history.facts_valid facts orgId userId formatVersion
  have restored := run.ensured (replacement_ensures rfl rfl)
  refine ⟨facts, fun clean => ?_, fun unclean => ?_⟩
  · have importable : Importable exported.facts tenant payload.facts .replace := by
      rw [same.facts, facts]
      exact exported_importable world.facts tenant
    obtain ⟨output, rfl, _⟩ := (run.ensured (importUserData_ensures spared_faultless
      (fun appends => by simp at appends) valid (passes.mpr clean) rfl)).mpr importable
    obtain ⟨_, left⟩ := restored.resolve_right fun failed => by simp at failed
    have active := (left output rfl).facts
    simp only [List.take_length] at active
    refine ⟨⟨output, rfl⟩, active, fun fits fact own => ?_⟩
    rw [active fact own, facts, exportedFacts, List.take_of_length_le fits, mem_latestFacts]
    exact and_iff_left own
  · obtain ⟨fact, member, forbidden⟩ := unclean
    rcases restored with ⟨accepted, _⟩ | ⟨failed, unchanged⟩
    · exact absurd ((passes.mp accepted) fact member) (by simp [forbidden])
    · rw [unchanged, same.facts, same.vectors]
      exact ⟨failed, rfl, rfl⟩

theorem export_then_import_sample : ∃ (world : World) (payload : UserMemoryExport)
    (final : World), payload.facts.length = 1 ∧ payload.facts = exportedFacts world.facts sampleTenant ∧
    ∀ fact, fact.tenant = sampleTenant → (final.facts.Active fact ↔ world.facts.Active fact) := by
  obtain ⟨world, history, passes⟩ := @exists_history_of_replay (.new .sample) anyChoice _
    anyOutcome _ 1000 [(sampleAdd, sampleAddChoices 1 [1])]
    (fun world => decide ((latestFacts world.facts sampleTenant).length ≤ 101) &&
      (replay (engineServer .sample) anyChoice (plainChoices 3)
        (exportUserData (.new .sample) ⟨sampleTenant, false, false⟩) world).any fun result =>
          match result.2.1 with
          | .error _ => false
          | .ok payload => decide (payload.facts.length = 1) &&
              payload.facts.all (fun fact => !containsForbiddenSecretFields fact.metadata) &&
              (replay (engineServer .sample) faultless (plainChoices 12) (importUserData
                (.new .sample) ⟨sampleTenant, payload, .replace, false, false⟩)
                  result.2.2).isSome) (by decide +kernel)
  obtain ⟨fits, exports⟩ := (Bool.and_eq_true _ _).mp passes
  obtain ⟨exportTrace, exportOutcome, exported, exportRun, rest⟩ :=
    exists_run_of_replay _ _ _ _ _ _ exports
  cases exportOutcome with
  | error error => simp at rest
  | ok payload =>
    simp only [Bool.and_eq_true, decide_eq_true_eq, List.all_eq_true, Bool.not_eq_true'] at rest
    obtain ⟨⟨one, clean⟩, imports⟩ := rest
    obtain ⟨⟨trace, outcome, final⟩, replayed⟩ := Option.isSome_iff_exists.mp imports
    obtain ⟨facts, restores, _⟩ := export_then_import (.new .sample) world history sampleTenant
      false exportTrace trace payload exported final outcome exportRun
      (replay_runs _ _ _ _ _ _ replayed)
    exact ⟨world, payload, final, one, facts, (restores clean).2.2 (of_decide_eq_true fits)⟩

/-- A memory may carry metadata that validation takes for a secret. What was exported with
it is refused by the import. -/
theorem export_with_secret_metadata_refused : ∃ world exportTrace payload exported trace error final,
    History (.new .sample) anyChoice anyOutcome world ∧
    Runs (engineServer .sample) anyChoice (exportUserData (.new .sample)
      ⟨sampleTenant, false, false⟩) world exportTrace (.ok payload) exported ∧
    Runs (engineServer .sample) faultless (importUserData (.new .sample)
      ⟨sampleTenant, payload, .replace, false, false⟩) exported trace (.error error) final := by
  obtain ⟨world, history, exports⟩ := @exists_history_of_replay (.new .sample) anyChoice _
    anyOutcome _ 1000 [(sampleAdd, addChoices { sampleCandidate with
      metadata := .object [("secret_ingredient", .string "cinnamon")] } 1 [1])]
    (fun world => (replay (engineServer .sample) anyChoice (plainChoices 3)
        (exportUserData (.new .sample) ⟨sampleTenant, false, false⟩) world).any fun result =>
          match result.2.1 with
          | .error _ => false
          | .ok payload => (replay (engineServer .sample) faultless [] (importUserData
              (.new .sample) ⟨sampleTenant, payload, .replace, false, false⟩) result.2.2).any
                fun imported => !imported.2.1.isOk) (by decide +kernel)
  obtain ⟨exportTrace, exportOutcome, exported, exportRun, imports⟩ :=
    exists_run_of_replay _ _ _ _ _ _ exports
  cases exportOutcome with
  | error error => simp at imports
  | ok payload =>
    obtain ⟨trace, outcome, final, run, failed⟩ := exists_run_of_replay _ _ _ _ _ _ imports
    cases outcome with
    | ok output => simp [Except.isOk, Except.toBool] at failed
    | error error =>
      exact ⟨world, exportTrace, payload, exported, trace, error, final, history, exportRun, run⟩

end Memcore
