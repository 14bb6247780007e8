import Memcore.Engine.Operations

/-!
# What a dry run says about an import

A dry run validates the payload and counts. The import goes on to insert the facts,
and the store refuses an identifier under which it has a row. An append avoids the
identifiers of the tenant's active facts, and of no others; a replacement avoids
none. The identifiers that the import trips over are characterised exactly.
-/
namespace Memcore

open KeyedTables Ports Programs

/-- A fact that lookups of a tenant find under an identifier. -/
def Visible (store : MockFactStore) (tenant : TenantContext) (id : Uuid) : Prop :=
  ∃ fact, store.Active fact ∧ fact.tenant = tenant ∧ fact.id = id

/-- The store holds a row under an identifier that the import will not avoid. -/
def Blocked (store : MockFactStore) (tenant : TenantContext) (mode : ImportMode) (id : Uuid) :
    Prop :=
  store.facts.contains id = true ∧ (mode = .append → ¬ Visible store tenant id)

/-- The world after a fact was imported with its record. -/
def World.withImported (world : World) (fact : Fact) (record : VectorRecord) : World :=
  { world with facts := world.facts.putFact fact, vectors := world.vectors.put record }

/-- The exported facts can all be stored: what an append finds under their identifiers
is active and the tenant's, and a replacement finds nothing and no repetition. -/
def Clear (store : MockFactStore) (tenant : TenantContext) (exported : List Fact) :
    ImportMode → Prop
  | .append => ∀ fact ∈ exported, ∀ row ∈ store.facts.rows, row.id = fact.id →
      store.Active row ∧ row.tenant = tenant
  | .replace => (exported.map Fact.id).Nodup ∧
      ∀ fact ∈ exported, store.facts.contains fact.id = false

section Clear

variable {store : MockFactStore} {tenant : TenantContext} {mode : ImportMode}
  {exported fact : Fact} {rest : List Fact}

theorem contains_putFact (store : MockFactStore) (fact : Fact) (id : Uuid) :
    (store.putFact fact).facts.contains id = true ↔
      id = fact.id ∨ store.facts.contains id = true := by
  simp only [Table.contains_iff, MockFactStore.putFact, Table.mem_put]
  constructor
  · rintro ⟨row, rfl | ⟨stored, _⟩, rfl⟩
    · exact .inl rfl
    · exact .inr ⟨row, stored, rfl⟩
  · rintro (rfl | ⟨row, stored, rfl⟩)
    · exact ⟨fact, .inl rfl, rfl⟩
    · by_cases same : row.id = fact.id
      · exact ⟨fact, .inl rfl, same.symm⟩
      · exact ⟨row, .inr ⟨stored, same⟩, rfl⟩

theorem not_blocked_append (store : MockFactStore) (tenant : TenantContext) (id : Uuid) :
    ¬ Blocked store tenant .append id ↔
      ∀ row ∈ store.facts.rows, row.id = id → store.Active row ∧ row.tenant = tenant := by
  constructor
  · intro unblocked row stored sameId
    have taken := (store.facts.contains_iff id).mpr ⟨row, stored, sameId⟩
    by_contra hidden
    refine unblocked ⟨taken, fun _ ⟨other, active, own, otherId⟩ => hidden ?_⟩
    obtain rfl := store.facts.eq_of_key active.1 stored (otherId.trans sameId.symm)
    exact ⟨active, own⟩
  · rintro seen ⟨taken, unseen⟩
    obtain ⟨row, stored, sameId⟩ := (store.facts.contains_iff id).mp taken
    obtain ⟨active, own⟩ := seen row stored sameId
    exact unseen rfl ⟨row, active, own, sameId⟩

/-- The first of the facts decides whether it is stored, and the store after it about
the others. -/
theorem clear_cons (own : fact.tenant = tenant) (free : store.facts.contains fact.id = false)
    (resolved : fact.id = exported.id ∨ mode = .append ∧ Visible store tenant exported.id) :
    Clear store tenant (exported :: rest) mode ↔
      ¬ Blocked store tenant mode exported.id ∧ Clear (store.putFact fact) tenant rest mode := by
  have absent := MockFactStore.not_deleted_of_absent free
  cases mode with
  | append =>
    have unchanged : Clear (store.putFact fact) tenant rest .append ↔
        Clear store tenant rest .append := by
      constructor
      · intro clear other member row stored sameId
        have different : row.id ≠ fact.id := by
          intro same
          have taken := (store.facts.contains_iff fact.id).mpr ⟨row, stored, same⟩
          simp [free] at taken
        have kept : row ∈ (store.putFact fact).facts.rows :=
          (Table.mem_put _ _ _).mpr (.inr ⟨stored, different⟩)
        obtain ⟨active, rowOwn⟩ := clear other member row kept sameId
        exact ⟨⟨stored, active.2⟩, rowOwn⟩
      · intro clear other member row stored sameId
        rcases (Table.mem_put _ _ _).mp stored with rfl | ⟨old, _⟩
        · exact ⟨⟨stored, absent⟩, own⟩
        · obtain ⟨active, rowOwn⟩ := clear other member row old sameId
          exact ⟨⟨stored, active.2⟩, rowOwn⟩
    rw [unchanged, not_blocked_append]
    simp only [Clear, List.forall_mem_cons]
  | replace =>
    have same : fact.id = exported.id := resolved.resolve_right fun appended => by simp at appended
    rw [same] at free
    simp only [Clear, List.map_cons, List.nodup_cons, List.forall_mem_cons, Blocked, free,
      Bool.false_eq_true, false_and, not_false_eq_true, true_and]
    have after (other : Fact) : (store.putFact fact).facts.contains other.id = false ↔
        other.id ≠ exported.id ∧ store.facts.contains other.id = false := by
      rw [← Bool.not_eq_true, contains_putFact, not_or, same, Bool.not_eq_true]
    simp only [after, List.mem_map, not_exists, not_and]
    constructor
    · rintro ⟨⟨unrepeated, distinct⟩, unstored⟩
      exact ⟨distinct, fun other member => ⟨unrepeated other member, unstored other member⟩⟩
    · rintro ⟨distinct, free'⟩
      exact ⟨⟨fun other member => (free' other member).1, distinct⟩,
        fun other member => (free' other member).2⟩

theorem blocked_not_clear (blocked : Blocked store tenant mode exported.id) :
    ¬ Clear store tenant (exported :: rest) mode := by
  intro clear
  cases mode with
  | append =>
    refine (not_blocked_append store tenant exported.id).mpr ?_ blocked
    exact clear exported List.mem_cons_self
  | replace => exact absurd (blocked.1.symm.trans (clear.2 exported List.mem_cons_self)) (by simp)

end Clear

section Steps

variable {platform : Platform} {admits : World → Port → Choice → Prop} {world : World}

/-- The identifiers that an import in a mode generates are new. -/
def FreshFor (admits : World → Port → Choice → Prop) (mode : ImportMode) : Prop :=
  mode = .append → ∀ world choice, admits world (.system .newUuid) choice →
    world.Unused choice.uuid

/-- Inserting a fact under an identifier, and its vector after it. -/
theorem storeImported_ensures (spared : Spared admits) (tenant : TenantContext) {fact : Fact}
    (own : fact.tenant = tenant) {post : MemcoreResult Unit → World → Prop}
    (refused : world.facts.facts.contains fact.id = true → ∀ error, post (.error error) world)
    (stored : world.facts.facts.contains fact.id = false → ∀ record,
      record.tenant = tenant → record.factId = fact.id → record.content = fact.content →
        post (.ok ()) (world.withImported fact record)) :
    Ensures (worldSpec platform admits) (storeImported tenant fact) post world := by
  simp only [storeImported, ensures_bind]
  refine ensures_facts_spared spared (.insertFact tenant fact) ?_
  cases taken : world.facts.facts.contains fact.id with
  | true =>
    simp only [MockFactStore.serve, MockFactStore.insertFact, own, taken, ne_eq,
      not_true_eq_false, if_false, if_true, andThen_error]
    exact refused taken _
  | false =>
    simp only [MockFactStore.serve, MockFactStore.insertFact, own, taken, ne_eq,
      not_true_eq_false, if_false, Bool.false_eq_true, andThen_ok, ensures_bind]
    refine ensures_embedText_spared spared fact.content fun embedding => ?_
    simp only [andThen_ok, ensures_bind, vectorRecordFromFact]
    refine ensures_newUuid fun choice _ => ?_
    simp only [andThen_ok, ensures_pure]
    refine ensures_vectors_spared spared (.upsertVector tenant _) ?_
    simp only [MockVectorStore.serve]
    rw [MockVectorStore.upsertVector_eq]
    · exact stored taken _ own rfl rfl
    · exact own

/-- One round of the loop fails at a blocked identifier, and otherwise stores the fact
under an identifier that was free: its own one, unless a lookup finds that. -/
theorem importFact_ensures (spared : Spared admits) {input : ImportUserDataInput}
    (fresh : FreshFor admits input.mode) {exported : Fact}
    (accepted : ∀ factId, factForImport exported input.tenant factId =
      .ok (importedFact exported input.tenant factId))
    {post : MemcoreResult Unit → World → Prop}
    (refused : Blocked world.facts input.tenant input.mode exported.id →
      ∀ error, post (.error error) world)
    (stored : ¬ Blocked world.facts input.tenant input.mode exported.id → ∀ factId record,
      world.facts.facts.contains factId = false →
      (factId = exported.id ∨
        input.mode = .append ∧ Visible world.facts input.tenant exported.id) →
      record.tenant = input.tenant → record.factId = factId →
      record.content = exported.content →
        post (.ok ()) (world.withImported (importedFact exported input.tenant factId) record)) :
    Ensures (worldSpec platform admits) (importFact input exported) post world := by
  have atId (factId : Uuid) (post' : MemcoreResult Unit → World → Prop)
      (storing : Ensures (worldSpec platform admits)
        (storeImported input.tenant (importedFact exported input.tenant factId)) post' world) :
      Ensures (worldSpec platform admits) (do
        let fact ← Program.check (factForImport exported input.tenant factId)
        storeImported input.tenant fact) post' world := by
    rw [accepted]
    simpa only [ensures_bind, ensures_check, andThen_ok] using storing
  have atOwnId (unseen : input.mode = .append → ¬ Visible world.facts input.tenant exported.id) :
      Ensures (worldSpec platform admits)
        (storeImported input.tenant (importedFact exported input.tenant exported.id)) post
        world := by
    refine storeImported_ensures spared input.tenant rfl (fun taken => refused ⟨taken, unseen⟩) ?_
    intro free record own sameFact sameContent
    refine stored (fun blocked => ?_) exported.id record free (.inl rfl) own sameFact sameContent
    exact absurd (blocked.1.symm.trans free) (by simp)
  refine (ensures_bind _ _ _ _ _).mpr
    (ensures_facts_spared spared (.getFact input.tenant exported.id) ?_)
  simp only [MockFactStore.serve, MockFactStore.getFact_snd]
  by_cases visible : Visible world.facts input.tenant exported.id
  · obtain ⟨existing, active, own, sameId⟩ := visible
    have visible : Visible world.facts input.tenant exported.id := ⟨existing, active, own, sameId⟩
    rw [(world.facts.getFact_some _ _ existing).mpr ⟨active, own, sameId⟩]
    refine (andThen_ok _ _ _ _ _).mpr ((ensures_bind _ _ _ _ _).mpr ?_)
    by_cases appends : input.mode = .append
    · simp only [resolveImportFactId, Option.isSome_some, appends, decide_true, Bool.and_self,
        if_true]
      refine ensures_newUuid fun choice admitted => atId choice.uuid post ?_
      have free := (fresh appends world choice admitted).1
      refine storeImported_ensures spared input.tenant rfl (fun taken => ?_) ?_
      · exact absurd (taken.symm.trans free) (by simp)
      · intro _ record recordOwn sameFact sameContent
        exact stored (fun blocked => blocked.2 appends visible) choice.uuid record free
          (.inr ⟨appends, visible⟩) recordOwn sameFact sameContent
    · simp only [resolveImportFactId, appends, decide_false, Bool.and_false, Bool.false_eq_true,
        if_false, ensures_pure]
      exact atId exported.id post (atOwnId fun appended => absurd appended appends)
  · rw [(world.facts.getFact_none _ _).mpr fun fact active own sameId =>
      visible ⟨fact, active, own, sameId⟩]
    refine (andThen_ok _ _ _ _ _).mpr ((ensures_bind _ _ _ _ _).mpr ?_)
    simp only [resolveImportFactId, Option.isSome_none, Bool.false_and, Bool.false_eq_true,
      if_false, ensures_pure]
    exact atId exported.id post (atOwnId fun _ => visible)

/-- The loop returns the number of facts exactly when all of them can be stored. -/
theorem importFacts_ensures (spared : Spared admits) {input : ImportUserDataInput}
    (fresh : FreshFor admits input.mode) {exported : List Fact}
    (accepted : ∀ fact ∈ exported, ∀ factId, factForImport fact input.tenant factId =
      .ok (importedFact fact input.tenant factId)) :
    Ensures (worldSpec platform admits) (importFacts input exported)
      (fun outcome _ => match outcome with
        | .ok count => count = exported.length ∧ Clear world.facts input.tenant exported input.mode
        | .error _ => ¬ Clear world.facts input.tenant exported input.mode) world := by
  induction exported generalizing world with
  | nil =>
    refine (ensures_pure _ _ _ _).mpr ⟨rfl, ?_⟩
    cases input.mode <;> simp [Clear]
  | cons fact rest inductionHypothesis =>
    refine (ensures_bind _ _ _ _ _).mpr (importFact_ensures spared fresh
      (accepted fact List.mem_cons_self) ?_ ?_)
    · exact fun blocked error => blocked_not_clear blocked
    · intro unblocked factId record free resolved _ _ _
      have first := @clear_cons world.facts input.tenant input.mode fact
        (importedFact fact input.tenant factId) rest rfl free resolved
      refine (andThen_ok _ _ _ _ _).mpr ((ensures_bind _ _ _ _ _).mpr (Ensures.mono
        worldSpec_monotone (inductionHypothesis fun other member =>
          accepted other (List.mem_cons_of_mem _ member)) fun outcome final later => ?_))
      cases outcome with
      | error error => exact fun clear => later (first.mp clear).2
      | ok count =>
        refine (andThen_ok _ _ _ _ _).mpr ((ensures_pure _ _ _ _).mpr ⟨?_, ?_⟩)
        · rw [later.1, List.length_cons]
        · exact first.mpr ⟨unblocked, later.2⟩

end Steps

/-! ## The whole import -/

/-- The identifiers of the payload raise no conflict. An append runs into the rows that
its tenant does not see, the deleted ones and those of other tenants. A replacement runs
into those of other tenants, and into its own repetitions. -/
def Importable (store : MockFactStore) (tenant : TenantContext) (exported : List Fact) :
    ImportMode → Prop
  | .append => ∀ fact ∈ exported, ∀ row ∈ store.facts.rows, row.id = fact.id →
      store.Active row ∧ row.tenant = tenant
  | .replace => (exported.map Fact.id).Nodup ∧
      ∀ fact ∈ exported, ∀ row ∈ store.facts.rows, row.id = fact.id → row.tenant = tenant

/-- After the wipe a replacement has only the rows of other tenants in its way. -/
theorem clear_wiped (store : MockFactStore) (tenant : TenantContext) (exported : List Fact) :
    Clear (store.deleteUserData tenant).2 tenant exported .replace ↔
      Importable store tenant exported .replace := by
  have left (id : Uuid) : (store.deleteUserData tenant).2.facts.contains id = false ↔
      ∀ row ∈ store.facts.rows, row.id = id → row.tenant = tenant := by
    rw [← Bool.not_eq_true, Table.contains_iff]
    simp only [MockFactStore.deleteUserData, Table.mem_retain, decide_eq_true_eq, not_exists,
      not_and]
    constructor
    · intro gone row stored sameId
      by_contra other
      exact gone row ⟨stored, other⟩ sameId
    · rintro own row ⟨stored, other⟩ sameId
      exact other (own row stored sameId)
  simp only [Clear, Importable, left]

section Whole

variable {engine : MemoryEngine} {admits : World → Port → Choice → Prop} {world : World}
  {input : ImportUserDataInput}

theorem restoreEventsFrom_ensures (spared : Spared admits) {exported : List MemoryEvent}
    (own : ∀ event ∈ exported, event.tenant = input.tenant)
    {post : MemcoreResult ℕ → World → Prop}
    (enough : ∀ events, post (.ok exported.length) { world with events := events }) :
    Ensures (worldSpec engine.platform admits) (restoreEventsFrom input exported) post world := by
  induction exported generalizing world post with
  | nil => exact (ensures_pure _ _ _ _).mpr (enough world.events)
  | cons event rest inductionHypothesis =>
    simp only [restoreEventsFrom, restoredEventFromExport, ensures_bind]
    refine ensures_newUuid fun choice _ => ?_
    simp only [andThen_ok, ensures_pure, ensures_bind]
    refine ensures_events_spared spared (.recordEvent input.tenant _) ?_
    simp only [MockMemoryEventStore.serve]
    rw [MockMemoryEventStore.recordEvent_eq]
    · refine (andThen_ok _ _ _ _ _).mpr ((ensures_bind _ _ _ _ _).mpr ?_)
      refine inductionHypothesis (fun other member => own other (List.mem_cons_of_mem _ member))
        fun events => ?_
      exact (andThen_ok _ _ _ _ _).mpr ((ensures_pure _ _ _ _).mpr (enough events))
    · exact own event List.mem_cons_self

/-- The number of events that an import restores. -/
def restoredCount (engine : MemoryEngine) (input : ImportUserDataInput) : ℕ :=
  if input.restoreEvents && engine.eventStore then input.payload.memoryEvents.length else 0

/-- After the facts everything succeeds. -/
theorem finishImport_ensures (spared : Spared admits)
    (payload : ValidPayload input.payload input.tenant input.restoreEvents)
    {output : ℕ → ImportUserDataOutput} {post : MemcoreResult ImportUserDataOutput → World → Prop}
    (enough : ∀ events cache, post (.ok (output (restoredCount engine input)))
      { world with events := events, cache := cache }) :
    Ensures (worldSpec engine.platform admits) (do
      let importedEvents ← restoreEvents engine input
      invalidateUserContextCache engine input.tenant
      return output importedEvents) post world := by
  have finish (events : List MemoryEvent) : Ensures (worldSpec engine.platform admits) (do
      invalidateUserContextCache engine input.tenant
      return output (restoredCount engine input)) post { world with events := events } := by
    refine (ensures_bind _ _ _ _ _).mpr
      (ensures_invalidateUserContextCache engine _ fun cache => ?_)
    exact (andThen_ok _ _ _ _ _).mpr ((ensures_pure _ _ _ _).mpr (enough events cache))
  refine (ensures_bind _ _ _ _ _).mpr ?_
  unfold restoreEvents
  split
  · rename_i restoring
    have wanted : input.restoreEvents = true := by simp_all
    refine restoreEventsFrom_ensures spared (payload.eventTenant wanted) fun events => ?_
    have finished := finish events
    rw [restoredCount, if_pos restoring] at finished
    exact (andThen_ok _ _ _ _ _).mpr finished
  · rename_i skipped
    have finished := finish world.events
    rw [restoredCount, if_neg skipped] at finished
    exact (ensures_pure _ _ _ _).mpr ((andThen_ok _ _ _ _ _).mpr finished)

/-- A replacement wipes the tenant's facts and vectors; an append changes nothing. -/
theorem replaceExisting_ensures (spared : Spared admits)
    {post : MemcoreResult Bool → World → Prop}
    (appends : input.mode = .append → post (.ok false) world)
    (replaces : input.mode = .replace → ∀ events, post (.ok true) { world with
      facts := (world.facts.deleteUserData input.tenant).2
      vectors := (MockVectorStore.deleteByUser world.vectors input.tenant).2
      events := events }) :
    Ensures (worldSpec engine.platform admits) (replaceExisting engine input) post world := by
  unfold replaceExisting
  split
  · rename_i mode
    simp only [ensures_bind]
    refine ensures_facts_spared spared (.deleteUserData input.tenant) ?_
    simp only [MockFactStore.serve, MockFactStore.deleteUserData, andThen_ok, ensures_bind]
    refine ensures_vectors_spared spared (.deleteByUser input.tenant) ?_
    simp only [MockVectorStore.serve, MockVectorStore.deleteByUser, andThen_ok, ensures_bind]
    refine ensures_recordEventBestEffort spared engine _ _ _ _ _ _ fun event _ _ _ => ?_
    simp only [andThen_ok, ensures_pure]
    exact replaces mode _
  · rename_i mode
    refine (ensures_pure _ _ _ _).mpr (appends ?_)
    cases kind : input.mode with
    | append => rfl
    | replace => exact absurd kind mode

/-- From the loop on, an import returns the numbers of its facts and events exactly when
the facts can all be stored. -/
theorem importRest_ensures (spared : Spared admits) (fresh : FreshFor admits input.mode)
    (valid : input.tenant.Valid)
    (payload : ValidPayload input.payload input.tenant input.restoreEvents) (replaced : Bool) :
    Ensures (worldSpec engine.platform admits) (do
      let importedFacts ← importFacts input input.payload.facts
      let importedEvents ← restoreEvents engine input
      invalidateUserContextCache engine input.tenant
      return (⟨importedFacts, importedEvents, 0, replaced, false, collectImportValidation
        input.payload input.tenant input.restoreEvents⟩ : ImportUserDataOutput))
      (fun outcome _ => (∃ output, outcome = .ok output ∧
          output.importedFacts = input.payload.facts.length ∧
          output.importedEvents = restoredCount engine input) ↔
        Clear world.facts input.tenant input.payload.facts input.mode) world := by
  refine (ensures_bind _ _ _ _ _).mpr (Ensures.mono worldSpec_monotone
    (importFacts_ensures spared fresh fun fact member factId =>
      payload.factForImport_ok valid member factId) fun outcome final later => ?_)
  cases outcome with
  | error error =>
    exact (andThen_error _ _ _ _ _).mpr (iff_of_false (by simp) later)
  | ok count =>
    refine (andThen_ok _ _ _ _ _).mpr (finishImport_ensures spared payload fun _ _ => ?_)
    exact iff_of_true ⟨_, rfl, later.1, rfl⟩ later.2

/-- A valid import returns the numbers of its facts and events exactly when its
identifiers raise no conflict. -/
theorem importUserData_ensures (spared : Spared admits) (fresh : FreshFor admits input.mode)
    (valid : input.tenant.Valid)
    (payload : ValidPayload input.payload input.tenant input.restoreEvents)
    (real : input.dryRun = false) :
    Ensures (worldSpec engine.platform admits) (importUserData engine input)
      (fun outcome _ => (∃ output, outcome = .ok output ∧
          output.importedFacts = input.payload.facts.length ∧
          output.importedEvents = restoredCount engine input) ↔
        Importable world.facts input.tenant input.payload.facts input.mode) world := by
  have validated := (collectImportValidation_valid input.payload input.tenant
    input.restoreEvents).mpr payload
  have rest (start : World) (replaced : Bool) := @importRest_ensures engine admits start input
    spared fresh valid payload replaced
  simp only [importUserData, ensures_bind, ensures_check, (validateTenant_ok _).mpr valid,
    andThen_ok, real, validated, Bool.false_eq_true, if_false, Bool.not_true, importValidated]
  refine replaceExisting_ensures spared (fun appends => ?_) fun replaces events => ?_
  · simp only [andThen_ok]
    refine Ensures.mono worldSpec_monotone (rest world false) fun outcome _ exact' => ?_
    rwa [appends] at exact' ⊢
  · simp only [andThen_ok]
    refine Ensures.mono worldSpec_monotone (rest _ true) fun outcome _ exact' => ?_
    rw [replaces, clear_wiped] at exact'
    rwa [replaces]

end Whole

/-- A dry run makes no call, and reports a valid payload as it is. -/
theorem dryRun_ensures {engine : MemoryEngine} {admits : World → Port → Choice → Prop}
    {world : World} {input : ImportUserDataInput} (dry : input.dryRun = true) :
    Ensures (worldSpec engine.platform admits) (importUserData engine input)
      (fun outcome final => final = world ∧ ∀ predicted, outcome = .ok predicted →
        input.tenant.Valid ∧ predicted = dryRunOutput engine input
          (collectImportValidation input.payload input.tenant input.restoreEvents)) world := by
  simp only [importUserData, ensures_bind, ensures_check, dry, if_true]
  cases validated : validateTenant input.tenant with
  | error error => exact (andThen_error _ _ _ _ _).mpr ⟨rfl, by simp⟩
  | ok passed =>
    refine (andThen_ok _ _ _ _ _).mpr ((ensures_pure _ _ _ _).mpr ⟨rfl, ?_⟩)
    rintro predicted same
    exact ⟨(validateTenant_ok _).mp validated, (Except.ok.inj same).symm⟩

/-- For a payload that passes its validation, in every state: after a dry run that
returned, the import of the same payload returns the predicted numbers exactly when the
identifiers of the payload raise no conflict. -/
theorem dry_run_predicts_iff (engine : MemoryEngine) (world : World)
    (input : ImportUserDataInput)
    (passes : (collectImportValidation input.payload input.tenant input.restoreEvents).valid = true)
    (dryTrace trace : List EngineEvent) (predicted : ImportUserDataOutput) (dryFinal final : World)
    (outcome : MemcoreResult ImportUserDataOutput)
    (dryRun : Runs (engineServer engine.platform) undisturbed
      (importUserData engine { input with dryRun := true }) world dryTrace (.ok predicted)
      dryFinal)
    (run : Runs (engineServer engine.platform) undisturbed
      (importUserData engine { input with dryRun := false }) world trace outcome final) :
    (∃ output, outcome = .ok output ∧ output.importedFacts = predicted.importedFacts ∧
      output.importedEvents = predicted.importedEvents) ↔
    Importable world.facts input.tenant input.payload.facts input.mode := by
  obtain ⟨_, reported⟩ := dryRun.ensured (dryRun_ensures rfl)
  obtain ⟨valid, rfl⟩ := reported predicted rfl
  have payload := (collectImportValidation_valid _ _ _).mp passes
  have exact' := run.ensured (@importUserData_ensures engine undisturbed world
    { input with dryRun := false } spared_undisturbed (fun _ _ _ admitted => admitted.2) valid
    payload rfl)
  have predictedFacts : (dryRunOutput engine { input with dryRun := true }
      (collectImportValidation input.payload input.tenant input.restoreEvents)).importedFacts =
        input.payload.facts.length := by
    simp [dryRunOutput, passes]
  have predictedEvents : (dryRunOutput engine { input with dryRun := true }
      (collectImportValidation input.payload input.tenant input.restoreEvents)).importedEvents =
        restoredCount engine input := by
    simp [dryRunOutput, passes, restoredCount]
  rw [predictedFacts, predictedEvents]
  exact exact'

theorem dry_run_predicts_iff_sample : ∃ trace output final,
    Runs (engineServer .sample) undisturbed
      (importUserData (.new .sample) (sampleImport [sampleFact 1] .append)) (World.empty 1000)
      trace (.ok output) final ∧ output.importedFacts = 1 := by
  have passes : (collectImportValidation (sampleImport [sampleFact 1] .append).payload sampleTenant
    false).valid = true := by decide +kernel
  obtain ⟨dryTrace, dryOutcome, dryFinal, dryRun, dryOk⟩ := exists_run_of_replay
    (engineServer .sample) undisturbed [] (importUserData (.new .sample)
      { sampleImport [sampleFact 1] .append with dryRun := true }) (World.empty 1000)
    (fun result => result.2.1.toOption.any
      fun (output : ImportUserDataOutput) => decide (output.importedFacts = 1))
    (by decide +kernel)
  obtain ⟨trace, outcome, final, run, _⟩ := exists_run_of_replay
    (engineServer .sample) undisturbed (plainChoices 5) (importUserData (.new .sample)
      (sampleImport [sampleFact 1] .append)) (World.empty 1000) (fun _ => true) (by decide +kernel)
  cases dryOutcome with
  | error error => simp [Except.toOption] at dryOk
  | ok predicted =>
    have one : predicted.importedFacts = 1 := by simpa [Except.toOption] using dryOk
    obtain ⟨output, rfl, same, _⟩ := (dry_run_predicts_iff (.new .sample) (World.empty 1000)
      (sampleImport [sampleFact 1] .append) passes dryTrace trace predicted dryFinal final outcome
      dryRun run).mpr fun _ _ _ stored => absurd stored List.not_mem_nil
    exact ⟨trace, output, final, run, same.trans one⟩

/-- The dry run of appending a fact whose identifier the tenant has deleted before
reports success, and the import runs into a conflict. -/
theorem dry_run_misses_deleted_identifier :
    ∃ world dryTrace predicted dryFinal trace error final,
      History (.new .sample) undisturbed returning world ∧
      (collectImportValidation (sampleImport [sampleFact 1] .append).payload sampleTenant
        false).valid = true ∧
      Runs (engineServer .sample) undisturbed (importUserData (.new .sample)
        { sampleImport [sampleFact 1] .append with dryRun := true }) world dryTrace
        (.ok predicted) dryFinal ∧
      Runs (engineServer .sample) undisturbed (importUserData (.new .sample)
        (sampleImport [sampleFact 1] .append)) world trace (.error error) final := by
  obtain ⟨world, history, passes⟩ := @exists_history_of_replay (.new .sample) undisturbed _
    returning _ 1000 [(sampleAdd, sampleAddChoices 1 [1]),
      (.deleteMemory ⟨sampleTenant, 1⟩, plainChoices 5)]
    (fun world => (replay (engineServer .sample) undisturbed [] (importUserData (.new .sample)
        { sampleImport [sampleFact 1] .append with dryRun := true }) world).any
          (fun result => result.2.1.isOk) &&
      (replay (engineServer .sample) undisturbed (plainChoices 5) (importUserData (.new .sample)
        (sampleImport [sampleFact 1] .append)) world).any fun result => !result.2.1.isOk)
    (by decide +kernel)
  obtain ⟨dry, real⟩ := (Bool.and_eq_true _ _).mp passes
  obtain ⟨dryTrace, dryOutcome, dryFinal, dryRun, dryOk⟩ := exists_run_of_replay _ _ _ _ _ _ dry
  obtain ⟨trace, outcome, final, run, failed⟩ := exists_run_of_replay _ _ _ _ _ _ real
  cases dryOutcome with
  | error error => simp [Except.isOk, Except.toBool] at dryOk
  | ok predicted =>
    cases outcome with
    | ok output => simp [Except.isOk, Except.toBool] at failed
    | error error =>
      exact ⟨world, dryTrace, predicted, dryFinal, trace, error, final, history,
        by decide +kernel, dryRun, run⟩

end Memcore
