import Memcore.Guarantees.VectorDebts

/-!
# Retention beside additions

Retention in SQLite selects the expired facts in one statement and deletes what is expired in
another, and the engine then deletes the vectors of the facts that were selected. An addition
may update one of these facts in between. Then the fact is no longer expired, it stays, and its
vector is deleted all the same.

When no addition does so, every active fact has its vector when all have returned. Retention
and additions keep to the protocol of the vectors that programs owe, and return without debts.
-/
namespace Memcore

open KeyedTables Programs SqliteFactStore

/-! ## The programs of the engine -/

section Programs

variable {texts : RowTexts} {tenant : TenantContext} {stage : Standing} {α β : Type}

/-- What a call of the engine guarantees about the standing of its caller. -/
def duties (texts : RowTexts) (tenant : TenantContext) : Spec enginePorts MemcoreError Standing :=
  @Spec.under enginePorts sqlitePorts MemcoreError Standing (standingProtocol texts tenant).spec
    (Stepwise.perform texts)

theorem duties_monotone : (duties texts tenant).Monotone :=
  @Spec.under_monotone enginePorts sqlitePorts MemcoreError Standing _
    (standingProtocol texts tenant).spec_monotone (Stepwise.perform texts)

theorem ensures_port (port : SqlitePort) (post : MemcoreResult port.Answer → Standing → Prop) :
    Ensures (standingProtocol texts tenant).spec (@Program.call sqlitePorts MemcoreError port)
      post stage ↔ StandingAllows tenant stage port ∧
        ∀ answer, post answer (standingAfter texts stage ⟨port, answer⟩) :=
  @ensures_call sqlitePorts MemcoreError Standing (standingProtocol texts tenant).spec stage port
    post

theorem ensures_duties (port : Port) (post : MemcoreResult port.Answer → Standing → Prop) :
    Ensures (duties texts tenant) (Ports.perform port) post stage ↔
      Ensures (standingProtocol texts tenant).spec (Stepwise.perform texts port) post stage :=
  @ensures_call enginePorts MemcoreError Standing (duties texts tenant) stage port post

/-- The same duties as before, whatever has been drawn. -/
def SameDuties (before after : Standing) : Prop :=
  after.owed = before.owed ∧ after.gone = before.gone

/-- Calls that neither write facts nor write vectors. -/
def CalmCall : Port → Prop
  | .facts (.getFact _ _) | .facts (.searchFacts _) | .vectors (.searchVectors _) => True
  | .facts _ | .vectors _ => False
  | _ => True

theorem calm_keeps {before : Standing} (port : Port) (calm : CalmCall port)
    (same : SameDuties before stage) :
    duties texts tenant port stage fun _ later => SameDuties before later := by
  cases port with
  | facts call =>
    cases call with
    | getFact asker factId =>
      apply (ensures_bind _ _ _ _ _).mpr
      apply (ensures_port (.sql (.selectFact asker factId)) _).mpr
      refine ⟨trivial, fun answer => ?_⟩
      cases answer with
      | error error => exact same
      | ok found =>
        cases found with
        | none => exact (ensures_pure _ _ _ _).mpr same
        | some row => exact (ensures_check _ _ _ _).mpr same
    | searchFacts query =>
      show Ensures _ (Stepwise.searchFacts texts query) _ stage
      unfold Stepwise.searchFacts
      split_ifs
      · exact (ensures_fail _ _ _ _).mpr same
      · apply (ensures_bind _ _ _ _ _).mpr
        apply (ensures_port (.sql (.selectFacts query)) _).mpr
        refine ⟨trivial, fun answer => ?_⟩
        cases answer with
        | error error => exact same
        | ok rows => exact (ensures_check _ _ _ _).mpr same
    | _ => exact calm.elim
  | vectors call =>
    cases call with
    | searchVectors query =>
      exact (ensures_port (.other (.vectors (.searchVectors query))) _).mpr
        ⟨trivial, fun answer => same⟩
    | _ => exact calm.elim
  | events call =>
    exact (ensures_port (.other (.events call)) _).mpr ⟨trivial, fun answer => same⟩
  | provider call =>
    exact (ensures_port (.other (.provider call)) _).mpr ⟨trivial, fun answer => same⟩
  | system call =>
    apply (ensures_port (.other (.system call)) _).mpr
    cases call with
    | newUuid =>
      refine ⟨trivial, fun answer => ?_⟩
      cases answer with
      | error error => exact same
      | ok id => exact same
    | _ => exact ⟨trivial, fun answer => same⟩
  | cache call =>
    exact (ensures_port (.other (.cache call)) _).mpr ⟨trivial, fun answer => same⟩
  | coordinator call =>
    exact (ensures_port (.other (.coordinator call)) _).mpr ⟨trivial, fun answer => same⟩

/-- A program of calm calls changes no duty. -/
theorem ensures_calm {program : EngineProgram α} (within : program.Within CalmCall) :
    Ensures (duties texts tenant) program (fun _ later => SameDuties stage later) stage :=
  within.keeps duties_monotone (SameDuties stage)
    (fun port _ calm same => calm_keeps port calm same) ⟨rfl, rfl⟩

theorem quietCall_calm {asker : TenantContext} (port : Port) (quiet : QuietCall asker port) :
    CalmCall port := by
  cases port with
  | facts call => cases call <;> first | exact trivial | exact quiet.elim
  | vectors call => cases call <;> first | exact trivial | exact quiet.elim
  | _ => trivial

/-- From a standing without a debt, the program returns without one. -/
def PaysUp (texts : RowTexts) (tenant : TenantContext) (program : EngineProgram α) : Prop :=
  ∀ stage : Standing, stage.owed = none →
    Succeeds (duties texts tenant) program (fun _ later => later.owed = none) stage

theorem paysUp_pure (value : α) : PaysUp texts tenant (pure value : EngineProgram α) :=
  fun _ clear => (succeeds_pure _ _ _ _).mpr clear

theorem PaysUp.bind {program : EngineProgram α} {next : α → EngineProgram β}
    (first : PaysUp texts tenant program) (second : ∀ value, PaysUp texts tenant (next value)) :
    PaysUp texts tenant (program >>= next) :=
  fun stage clear => (first stage clear).bind duties_monotone fun value later => second value later

theorem paysUp_calm {program : EngineProgram α} (within : program.Within CalmCall) :
    PaysUp texts tenant program := by
  intro stage clear
  apply (succeeds_iff _ _ _ _).mpr
  apply (ensures_calm within).mono duties_monotone
  intro outcome later same
  cases outcome with
  | error error => trivial
  | ok value => exact same.1.trans clear

theorem paysUp_quiet {asker : TenantContext} {program : EngineProgram α}
    (within : program.Within (QuietCall asker)) : PaysUp texts tenant program :=
  paysUp_calm (within.mono quietCall_calm)

/-- A calm part leaves the duties to the part after it. -/
theorem succeeds_after_calm {program : EngineProgram α} {next : α → EngineProgram β}
    {good : β → Standing → Prop} (within : program.Within CalmCall)
    (second : ∀ value later, SameDuties stage later →
      Succeeds (duties texts tenant) (next value) good later) :
    Succeeds (duties texts tenant) (program >>= next) good stage := by
  apply Succeeds.bind duties_monotone _ second
  apply (succeeds_iff _ _ _ _).mpr
  apply (ensures_calm within).mono duties_monotone
  intro outcome later same
  cases outcome with
  | error error => trivial
  | ok value => exact same

/-! ### Writing -/

theorem insertFact_owes (fact : Fact) (clear : stage.owed = none) :
    Succeeds (duties texts tenant) (Ports.insertFact tenant fact)
      (fun stored later => stored = fact ∧ later.owed = some fact.id) stage := by
  apply (succeeds_iff _ _ _ _).mpr
  apply (ensures_duties (.facts (.insertFact tenant fact)) _).mpr
  show Ensures _ (Stepwise.insertFact texts tenant fact) _ stage
  unfold Stepwise.insertFact
  split_ifs
  · exact (ensures_fail _ _ _ _).mpr trivial
  · apply (ensures_bind _ _ _ _ _).mpr
    apply (ensures_port (.sql (.countFact tenant fact.id)) _).mpr
    refine ⟨trivial, fun answer => ?_⟩
    cases answer with
    | error error => trivial
    | ok existing =>
      show Ensures _ (ite _ _ _) _ stage
      split_ifs
      · exact (ensures_fail _ _ _ _).mpr trivial
      · apply (ensures_bind _ _ _ _ _).mpr
        apply (ensures_check _ _ _ _).mpr
        cases metadataToStr texts fact.metadata with
        | error error => trivial
        | ok metadata =>
          apply (ensures_bind _ _ _ _ _).mpr
          apply (ensures_port (.sql (.insertRow fact metadata)) _).mpr
          refine ⟨clear, fun answer => ?_⟩
          cases answer with
          | error error => trivial
          | ok value => exact (ensures_pure _ _ _ _).mpr ⟨rfl, rfl⟩

theorem updateFact_owes (fact : Fact) (clear : stage.owed = none) :
    Succeeds (duties texts tenant) (Ports.updateFact tenant fact)
      (fun stored later => stored = fact ∧ later.owed = some fact.id) stage := by
  apply (succeeds_iff _ _ _ _).mpr
  apply (ensures_duties (.facts (.updateFact tenant fact)) _).mpr
  show Ensures _ (Stepwise.updateFact texts tenant fact) _ stage
  unfold Stepwise.updateFact
  split_ifs
  · exact (ensures_fail _ _ _ _).mpr trivial
  · apply (ensures_bind _ _ _ _ _).mpr
    apply (ensures_check _ _ _ _).mpr
    cases metadataToStr texts fact.metadata with
    | error error => trivial
    | ok metadata =>
      apply (ensures_bind _ _ _ _ _).mpr
      apply (ensures_port (.sql (.updateRow tenant fact metadata)) _).mpr
      refine ⟨clear, fun answer => ?_⟩
      cases answer with
      | error error => trivial
      | ok affected =>
        show Ensures _ (ite _ _ _) _ (ite _ _ _)
        split_ifs
        · exact (ensures_fail _ _ _ _).mpr trivial
        · exact (ensures_pure _ _ _ _).mpr ⟨rfl, rfl⟩

theorem softDeleteFact_marks (factId : Uuid) :
    Succeeds (duties texts tenant) (Ports.softDeleteFact tenant factId)
      (fun _ later => later.owed = stage.owed ∧ factId ∈ later.gone) stage := by
  apply (succeeds_iff _ _ _ _).mpr
  apply (ensures_duties (.facts (.softDeleteFact tenant factId)) _).mpr
  apply (ensures_bind _ _ _ _ _).mpr
  apply (ensures_port (.other (.system .now)) _).mpr
  refine ⟨trivial, fun answer => ?_⟩
  cases answer with
  | error error => trivial
  | ok deletedAt =>
    apply (ensures_bind _ _ _ _ _).mpr
    apply (ensures_port (.sql (.markDeleted tenant factId deletedAt)) _).mpr
    refine ⟨trivial, fun answer => ?_⟩
    cases answer with
    | error error => trivial
    | ok affected =>
      show Ensures _ (ite _ _ _) _ (ite _ _ _)
      split_ifs
      · exact (ensures_fail _ _ _ _).mpr trivial
      · exact (ensures_pure _ _ _ _).mpr ⟨rfl, List.mem_cons_self⟩

/-- The identifiers that are read one by one are the readable ones. -/
theorem readable_of_mapM {ids : List String} {factIds : List Uuid}
    (read : ids.mapM (parseUuid texts fun _ => "invalid fact id") = .ok factIds) :
    readable texts ids = factIds := by
  induction ids generalizing factIds with
  | nil =>
    obtain rfl := Except.ok.inj read
    rfl
  | cons id ids inductionHypothesis =>
    rw [List.mapM_cons, parseUuid] at read
    rw [readable, List.filterMap_cons]
    cases parsed : texts.parseUuid id with
    | error error =>
      rw [parsed] at read
      nomatch read
    | ok first =>
      rw [parsed] at read
      cases rest : ids.mapM (parseUuid texts fun _ => "invalid fact id") with
      | error error =>
        rw [rest] at read
        nomatch read
      | ok others =>
        rw [rest] at read
        obtain rfl := Except.ok.inj read
        exact congrArg (first :: ·) (inductionHypothesis rest)

theorem deleteFactsOlderThan_marks (cutoff : Instant) (dryRun : Bool) :
    Succeeds (duties texts tenant) (Ports.deleteFactsOlderThan tenant cutoff dryRun)
      (fun result later => later.owed = stage.owed ∧
        ∀ factId ∈ result.factIds, factId ∈ later.gone) stage := by
  apply (succeeds_iff _ _ _ _).mpr
  apply (ensures_duties (.facts (.deleteFactsOlderThan tenant cutoff dryRun)) _).mpr
  apply (ensures_bind _ _ _ _ _).mpr
  apply (ensures_port (.sql (.selectExpired tenant cutoff)) _).mpr
  refine ⟨rfl, fun answer => ?_⟩
  cases answer with
  | error error => trivial
  | ok ids =>
    apply (ensures_bind _ _ _ _ _).mpr
    apply (ensures_check _ _ _ _).mpr
    cases read : ids.mapM (parseUuid texts fun _ => "invalid fact id") with
    | error error => trivial
    | ok factIds =>
      show Ensures _ (ite _ _ _) _ _
      split_ifs
      · exact (ensures_pure _ _ _ _).mpr ⟨rfl, fun _ member => nomatch member⟩
      · exact (ensures_pure _ _ _ _).mpr ⟨rfl, fun _ member => nomatch member⟩
      · apply (ensures_bind _ _ _ _ _).mpr
        apply (ensures_port (.other (.system .now)) _).mpr
        refine ⟨trivial, fun answer => ?_⟩
        cases answer with
        | error error => trivial
        | ok deletedAt =>
          apply (ensures_bind _ _ _ _ _).mpr
          apply (ensures_port (.sql (.markExpired tenant cutoff deletedAt)) _).mpr
          refine ⟨⟨rfl, _, rfl⟩, fun answer => ?_⟩
          cases answer with
          | error error => trivial
          | ok affected =>
            refine (ensures_pure _ _ _ _).mpr ⟨rfl, fun factId member => ?_⟩
            rw [← readable_of_mapM read] at member
            exact List.mem_append_left _ member

/-- The vectors of a fact may be deleted by whoever owes them, or when the fact is gone. -/
theorem deleteVectorIfPresent_dutiful (factId : Uuid)
    (excused : stage.owed = some factId ∨ factId ∈ stage.gone) :
    Succeeds (duties texts tenant) (deleteVectorIfPresent tenant factId)
      (fun _ later => SameDuties stage later) stage := by
  apply (succeeds_bind _ _ _ _ _).mpr
  apply (succeeds_attempt _ _ _ _).mpr
  apply (ensures_duties (.vectors (.deleteByFactId tenant factId)) _).mpr
  apply (ensures_port (.other (.vectors (.deleteByFactId tenant factId))) _).mpr
  refine ⟨excused, fun answer => ?_⟩
  cases answer with
  | ok value => exact (succeeds_pure _ _ _ _).mpr ⟨rfl, rfl⟩
  | error error =>
    show Succeeds _ (ite _ _ _) _ stage
    split_ifs
    · exact (succeeds_pure _ _ _ _).mpr ⟨rfl, rfl⟩
    · exact (succeeds_fail _ _ _ _).mpr trivial

/-- Storing the vector of a fact settles the debt. -/
theorem upsertFactVector_settles (fact : Fact) (precomputedEmbedding : Option (List ℚ))
    (owes : stage.owed = some fact.id) :
    Succeeds (duties texts tenant) (upsertFactVector tenant fact precomputedEmbedding)
      (fun _ later => later.owed = none) stage := by
  have calm : (factEmbedding fact precomputedEmbedding).Within CalmCall := by
    cases precomputedEmbedding with
    | none => exact within_perform trivial
    | some embedding => exact .pure _
  refine succeeds_after_calm calm fun embedding later same => ?_
  apply (succeeds_bind _ _ _ _ _).mpr
  apply (succeeds_bind _ _ _ _ _).mpr
  apply (succeeds_iff _ _ _ _).mpr
  apply (ensures_duties (.system .newUuid) _).mpr
  apply (ensures_port (.other (.system .newUuid)) _).mpr
  refine ⟨trivial, fun answer => ?_⟩
  cases answer with
  | error error => trivial
  | ok id =>
    apply (succeeds_pure _ _ _ _).mpr
    apply (succeeds_iff _ _ _ _).mpr
    apply (ensures_duties (.vectors (.upsertVector tenant _)) _).mpr
    apply (ensures_port (.other (.vectors (.upsertVector tenant _))) _).mpr
    refine ⟨⟨rfl, same.1.trans owes, rfl⟩, fun answer => ?_⟩
    cases answer with
    | error error => trivial
    | ok value => rfl

/-! ### Operations -/

theorem deleteVectorsIfPresent_dutiful (factIds : List Uuid)
    (gone : ∀ factId ∈ factIds, factId ∈ stage.gone) :
    Succeeds (duties texts tenant) (deleteVectorsIfPresent tenant factIds)
      (fun _ later => SameDuties stage later) stage := by
  have all : ∀ current, SameDuties stage current →
      Succeeds (duties texts tenant) (deleteVectorsIfPresent tenant factIds)
        (fun _ later => SameDuties stage later) current := by
    induction factIds with
    | nil => exact fun current same => (succeeds_pure _ _ _ _).mpr same
    | cons factId factIds inductionHypothesis =>
      intro current same
      have first : factId ∈ current.gone := same.2 ▸ gone factId List.mem_cons_self
      apply (deleteVectorIfPresent_dutiful factId (.inr first)).bind duties_monotone
      intro _ later sameLater
      have rest : ∀ other ∈ factIds, other ∈ stage.gone :=
        fun other member => gone other (List.mem_cons_of_mem _ member)
      exact inductionHypothesis rest later
        ⟨sameLater.1.trans same.1, sameLater.2.trans same.2⟩
  exact all stage ⟨rfl, rfl⟩

theorem requireFact_calm (asker : TenantContext) (factId : Uuid) :
    (requireFact asker factId).Within CalmCall := by
  refine within_step trivial fun found => ?_
  cases found with
  | none => exact .fail _
  | some fact => exact .pure _

theorem applyAdd_settles (candidate : CandidateFact) (precomputedEmbedding : Option (List ℚ)) :
    PaysUp texts tenant (applyAdd tenant candidate precomputedEmbedding) := by
  intro stage clear
  have calm : (candidateToFact tenant candidate).Within CalmCall :=
    within_step trivial fun _ => within_step trivial fun _ => .check _
  refine succeeds_after_calm calm fun fact later same => ?_
  apply (insertFact_owes fact (same.1.trans clear)).bind duties_monotone
  rintro _ owing ⟨rfl, owes⟩
  apply (upsertFactVector_settles _ precomputedEmbedding owes).bind duties_monotone
  exact fun _ final settled => (succeeds_pure _ _ _ _).mpr settled

theorem applyUpdate_settles (candidate : CandidateFact) (targetFactId : Uuid) :
    PaysUp texts tenant (applyUpdate tenant candidate targetFactId) := by
  intro stage clear
  refine succeeds_after_calm (requireFact_calm tenant targetFactId) fun existing found same => ?_
  have calm : (mergeCandidateIntoFact existing candidate).Within CalmCall :=
    within_step trivial fun _ => .check _
  refine succeeds_after_calm calm fun fact merged sameMerged => ?_
  apply (updateFact_owes fact (sameMerged.1.trans (same.1.trans clear))).bind duties_monotone
  rintro stored owing ⟨rfl, owes⟩
  have replaces : Succeeds (duties texts tenant) (replaceFactVector tenant stored)
      (fun _ later => later.owed = none) owing := by
    apply (deleteVectorIfPresent_dutiful stored.id (.inl owes)).bind duties_monotone
    exact fun _ later kept => upsertFactVector_settles stored none (kept.1.trans owes)
  apply replaces.bind duties_monotone
  exact fun _ final settled => (succeeds_pure _ _ _ _).mpr settled

theorem applyDelete_settles (targetFactId : Uuid) :
    PaysUp texts tenant (applyDelete tenant targetFactId) := by
  intro stage clear
  refine succeeds_after_calm (requireFact_calm tenant targetFactId) fun existing found same => ?_
  apply (softDeleteFact_marks targetFactId).bind duties_monotone
  rintro _ marked ⟨owed, gone⟩
  apply (deleteVectorIfPresent_dutiful targetFactId (.inr gone)).bind duties_monotone
  exact fun _ final kept => (succeeds_pure _ _ _ _).mpr
    (kept.1.trans (owed.trans (same.1.trans clear)))

theorem applyFactOperation_settles (candidate : CandidateFact) (decision : FactOperationDecision)
    (precomputedEmbedding : Option (List ℚ)) :
    PaysUp texts tenant (applyFactOperation tenant candidate decision precomputedEmbedding) := by
  refine .bind (paysUp_calm (.check _)) fun operation => ?_
  cases operation with
  | add => exact applyAdd_settles candidate precomputedEmbedding
  | update targetFactId => exact applyUpdate_settles candidate targetFactId
  | delete targetFactId => exact applyDelete_settles targetFactId
  | noOp => exact paysUp_pure _

variable (engine : MemoryEngine)

theorem invalidateUserContextCache_calm (asker : TenantContext) :
    (invalidateUserContextCache engine asker).Within CalmCall := by
  unfold invalidateUserContextCache
  split_ifs
  · exact within_attempt trivial fun _ => .pure _
  · exact .pure _

theorem addCandidate_settles (input : AddMemoryInput) (output : AddMemoryOutput)
    (extracted : CandidateFact) :
    PaysUp texts input.tenant (addCandidate engine input output extracted) := by
  refine .bind (paysUp_calm (.check _)) fun _ => ?_
  dsimp only
  split
  · exact paysUp_pure _
  · refine .bind (paysUp_calm (within_perform trivial)) fun existing => ?_
    split
    · exact paysUp_quiet (skipDuplicate_within engine output _ _)
    · refine .bind (paysUp_calm (within_perform trivial)) fun embedding =>
        .bind (paysUp_quiet (detectEmbeddingDuplicate_within _ _ _)) fun duplicate => ?_
      split
      · exact paysUp_quiet (skipDuplicate_within engine output _ _)
      · exact .bind (paysUp_calm (within_perform trivial)) fun related =>
          .bind (paysUp_calm (within_perform trivial)) fun decision =>
            .bind (applyFactOperation_settles _ decision _) fun result =>
              paysUp_quiet (countResult_within engine input output decision result)

theorem addCandidates_settles (input : AddMemoryInput) (output : AddMemoryOutput)
    (candidates : List CandidateFact) :
    PaysUp texts input.tenant (addCandidates engine input output candidates) := by
  induction candidates generalizing output with
  | nil => exact paysUp_pure _
  | cons candidate candidates inductionHypothesis =>
    exact .bind (addCandidate_settles engine input output candidate) inductionHypothesis

theorem addMemory_settles (input : AddMemoryInput) :
    PaysUp texts input.tenant (addMemory engine input) := by
  refine .bind (paysUp_calm (.check _)) fun _ => .bind (paysUp_calm (.check _)) fun _ =>
    .bind (paysUp_calm (bindUsageAttribution_within engine trivial)) fun _ =>
      .bind (paysUp_calm (within_perform trivial)) fun candidates =>
        .bind (addCandidates_settles engine input _ candidates) fun output => ?_
  split
  · exact .bind (paysUp_calm (invalidateUserContextCache_calm engine input.tenant)) fun _ =>
      paysUp_pure _
  · exact paysUp_pure _

theorem expireFacts_settles (input : ApplyRetentionInput) :
    PaysUp texts input.tenant (expireFacts input) := by
  unfold expireFacts
  split
  · exact paysUp_pure _
  · refine .bind (paysUp_calm (within_perform trivial)) fun current stage clear => ?_
    apply (deleteFactsOlderThan_marks _ input.dryRun).bind duties_monotone
    rintro result marked ⟨owed, gone⟩
    have still := owed.trans clear
    split_ifs
    · exact (succeeds_pure _ _ _ _).mpr still
    · apply (deleteVectorsIfPresent_dutiful result.factIds gone).bind duties_monotone
      exact fun _ final kept => (succeeds_pure _ _ _ _).mpr (kept.1.trans still)

theorem applyRetention_settles (input : ApplyRetentionInput) :
    PaysUp texts input.tenant (applyRetention engine input) := by
  have events : (expireEvents engine input).Within CalmCall := by
    unfold expireEvents
    split
    · exact within_step trivial fun _ => within_step trivial fun _ => .pure _
    · exact .pure _
  refine .bind (paysUp_calm (.check _)) fun _ => ?_
  split
  · exact paysUp_pure _
  · refine .bind (expireFacts_settles input) fun _ => .bind (paysUp_calm events) fun _ => ?_
    dsimp only
    split
    · exact .bind (paysUp_calm (invalidateUserContextCache_calm engine input.tenant)) fun _ =>
        paysUp_pure _
    · exact paysUp_pure _

end Programs

/-! ## Retention and additions side by side -/

/-- An operation of the engine on the database. -/
def onSqlite (texts : RowTexts) (engine : MemoryEngine) (operation : EngineOperation) :
    SqliteProgram Unit :=
  @Program.carry enginePorts sqlitePorts MemcoreError Unit (Stepwise.perform texts)
    (operation.program engine)

/-- Retention, and beside it as many additions as are listed. -/
def retentionBeside (texts : RowTexts) (engine : MemoryEngine) (retention : ApplyRetentionInput)
    (additions : List AddMemoryInput) : ℕ → SqliteProgram Unit
  | 0 => onSqlite texts engine (.applyRetention retention)
  | position + 1 => match additions[position]? with
    | some addition => onSqlite texts engine (.addMemory addition)
    | none => pure ()

/-- Every active fact of the tenant has a record in the vector store. -/
def EveryFactHasVector (tenant : TenantContext) (world : SqliteWorld) : Prop :=
  ∀ row ∈ world.rows.rows, ofTenant tenant row = true → isActive row = true →
    HasVector tenant world.surroundings.vectors row

section SideBySide

variable {texts : RowTexts} {engine : MemoryEngine} {retention : ApplyRetentionInput}
  {additions : List AddMemoryInput} {world : SqliteWorld}

/-- An operation that settles its debts is one whose program on the database does. -/
theorem settled_onSqlite {tenant : TenantContext} {operation : EngineOperation}
    (settles : PaysUp texts tenant (operation.program engine)) :
    Succeeds (standingProtocol texts tenant).spec (onSqlite texts engine operation)
      (fun _ later => later.owed = none) .idle := by
  apply (succeeds_iff _ _ _ _).mpr
  apply (@ensures_carry enginePorts sqlitePorts MemcoreError Unit Standing
    (standingProtocol texts tenant).spec (Stepwise.perform texts) _ _ _).mpr
  exact (succeeds_iff _ _ _ _).mp (settles .idle rfl)

theorem retentionBeside_settles
    (sameTenant : ∀ addition ∈ additions, addition.tenant = retention.tenant) (thread : ℕ) :
    Succeeds (standingProtocol texts retention.tenant).spec
      (retentionBeside texts engine retention additions thread)
      (fun _ later => later.owed = none) .idle := by
  cases thread with
  | zero =>
    exact settled_onSqlite (.bind (applyRetention_settles engine retention) fun _ => paysUp_pure _)
  | succ position =>
    rw [retentionBeside]
    cases listed : additions[position]? with
    | none => exact (succeeds_pure _ _ _ _).mpr rfl
    | some addition =>
      have same := sameTenant addition (List.mem_of_getElem? listed)
      exact settled_onSqlite (same ▸ .bind (addMemory_settles engine addition) fun _ =>
        paysUp_pure _)

/-- Nothing is harmed at the start. -/
theorem unharmed_start {tenant : TenantContext} (canonical : Canonical world.rows)
    (recorded : EveryFactHasVector tenant world) :
    Unharmed texts tenant world [] fun _ => .idle where
  tracked _ := rfl
  canonical := canonical
  recorded row stored own active := .inl (recorded row stored own active)
  gone _ _ member := nomatch member
  doomed _ _ member := nomatch member
  unspent := ⟨fun _ _ => nofun, fun _ _ _ => nofun, fun _ _ => nofun⟩

end SideBySide

/-- Retention runs beside any number of additions of the tenant, and no addition renews a fact
between the statement that selects it as expired and the one that deletes the expired ones.
When all have returned, every active fact of the tenant has its vector, if that was so before. -/
theorem retention_keeps_vectors (texts : RowTexts) (engine : MemoryEngine)
    (retention : ApplyRetentionInput) (additions : List AddMemoryInput)
    (sameTenant : ∀ addition ∈ additions, addition.tenant = retention.tenant)
    (reads : ∀ id, texts.parseUuid (Uuid.toText id) = .ok id) (world : SqliteWorld)
    (canonical : Canonical world.rows) (recorded : EveryFactHasVector retention.tenant world)
    (pool : Pool sqlitePorts MemcoreError Unit SqliteWorld)
    (reached : Pool.Reaches (sqliteServer engine.platform texts) (sparingSelected texts)
      (Pool.start world (retentionBeside texts engine retention additions)) pool)
    (returned : ∀ thread, pool.threads thread = .done ()) :
    EveryFactHasVector retention.tenant pool.world := by
  have follow : Pool.Follow (fun _ => standingProtocol texts retention.tenant)
      (fun _ => onSuccess fun _ (later : Standing) => later.owed = none)
      (Pool.start world (retentionBeside texts engine retention additions)) fun _ => .idle :=
    fun thread => (succeeds_iff _ _ _ _).mp (retentionBeside_settles sameTenant thread)
  have keeps : ∀ world trace (stages : ℕ → Standing) thread port choice,
      Unharmed texts retention.tenant world trace stages →
      (standingProtocol texts retention.tenant).allows (stages thread) port →
      (sqliteServer engine.platform texts).ready choice port world = true →
      sparingSelected texts world trace thread port choice →
      Unharmed texts retention.tenant (world.serve engine.platform texts choice port).2
        ((thread, ⟨port, (world.serve engine.platform texts choice port).1⟩) :: trace)
        (Function.update stages thread (standingAfter texts (stages thread)
          ⟨port, (world.serve engine.platform texts choice port).1⟩)) :=
    fun _ _ _ _ port choice safe allowed _ permitted =>
      safe.served engine.platform reads choice port allowed permitted
  obtain ⟨stages, safe, follow⟩ := reached.invariant keeps follow
    (unharmed_start canonical recorded)
  intro row stored own active
  rcases safe.recorded row stored own active with present | ⟨thread, id, owes, _⟩
  · exact present
  · have settled := (onSuccess_ok _ _ _).mp (follow.returned (returned thread))
    have paid : none = some id := settled.symm.trans owes
    nomatch paid

/-! ### Samples -/

instance (world : SqliteWorld) (trace : SqliteHistory) (thread : ℕ) (port : SqlitePort)
    (choice : Choice) : Decidable (identifiersNew world trace thread port choice) := by
  unfold identifiersNew
  split <;> infer_instance

instance (texts : RowTexts) (trace : SqliteHistory) (port : SqlitePort) :
    Decidable (SparesSelected texts trace port) := by
  unfold SparesSelected
  split <;> infer_instance

instance (texts : RowTexts) (world : SqliteWorld) (trace : SqliteHistory) (thread : ℕ)
    (port : SqlitePort) (choice : Choice) :
    Decidable (sparingSelected texts world trace thread port choice) :=
  inferInstanceAs (Decidable (_ ∧ _))

instance (tenant : TenantContext) (world : SqliteWorld) :
    Decidable (EveryFactHasVector tenant world) := by
  unfold EveryFactHasVector HasVector
  infer_instance

/-- The texts of three instants, of identifiers and of empty metadata. -/
def retentionTexts : RowTexts where
  toRfc3339 instant :=
    if instant = 0 then "1970-01-01T00:00:00+00:00"
    else if instant = seconds 1 then "1970-01-01T00:00:01+00:00"
    else "1970-01-31T00:00:02+00:00"
  parseFromRfc3339 value :=
    if value = "1970-01-01T00:00:00+00:00" then .ok 0
    else if value = "1970-01-01T00:00:01+00:00" then .ok (seconds 1)
    else if value = "1970-01-31T00:00:02+00:00" then .ok (days 30 + seconds 2)
    else .error "input contains invalid characters"
  parseUuid value := .ok (Uuid.ofText value)
  jsonToString
    | .object [] => .ok "\x7b\x7d"
    | _ => .error "not among the samples"
  jsonFromStr text :=
    if text = "\x7b\x7d" then .ok (.object []) else .error "expected value at line 1 column 1"

theorem retentionTexts_reads (id : Uuid) :
    retentionTexts.parseUuid (Uuid.toText id) = .ok id :=
  congrArg Except.ok (Uuid.ofText_toText id)

/-- Retention of thirty days. -/
def sampleRetention : ApplyRetentionInput := ⟨sampleTenant, ⟨true, some 30, none⟩, false⟩

def sampleAddition : AddMemoryInput :=
  ⟨sampleTenant, [⟨.user, "I take my coffee without sugar"⟩], .object []⟩

/-- The database and the surroundings without data. -/
def SqliteWorld.empty : SqliteWorld := ⟨Table.empty, World.empty 1000⟩

/-- Choices are made for one program in turn. -/
def inTurn (thread : ℕ) (choices : List Choice) : List (ℕ × Choice) :=
  choices.map fun choice => (thread, choice)

/-- A fact is added at the beginning of time. -/
def firstAddition : List Choice :=
  [{ candidates := [sampleCandidate] }, {}, { embedding := [1] }, {}, {},
    { decision := ⟨.add, none, none, 1⟩ }, {}, { uuid := 1 }, {}, {}, { uuid := 2 }, {},
    { uuid := 3 }, {}]

/-- What is said a month later: the decision is made for the fact that there is. -/
def laterAddition (decision : FactOperationDecision) (steps : List Choice) : List Choice :=
  ([{ candidates := [{ sampleCandidate with content := "Ada takes tea with milk" }] }, {},
    { embedding := [2] }, {}, {}, { decision := decision }] : List Choice) ++ steps ++
      [{ uuid := 6 }, { now := days 30 + seconds 2 }]

/-- Retention a second after the month: up to what is selected, and from there on. -/
def retentionSelects : List Choice := [{ now := days 30 + seconds 1 }, {}]

def retentionDeletes : List Choice := [{ now := days 30 + seconds 2 }, {}, {}]

/-- A later addition updates the fact while retention is under way. -/
def renewingSchedule : List (ℕ × Choice) :=
  inTurn 1 firstAddition ++ inTurn 0 retentionSelects ++
    inTurn 2 (laterAddition ⟨.update, some 1, none, 1⟩
      [{}, { now := days 30 + seconds 2 }, {}, {}, { embedding := [2] }, { uuid := 5 }, {}]) ++
    inTurn 0 retentionDeletes

/-- A later addition adds a fact while retention is under way. -/
def sparingSchedule : List (ℕ × Choice) :=
  inTurn 1 firstAddition ++ inTurn 0 retentionSelects ++
    inTurn 2 (laterAddition ⟨.add, none, none, 1⟩
      [{ now := days 30 + seconds 2 }, { uuid := 4 }, {}, {}, { uuid := 5 }, {}]) ++
    inTurn 0 retentionDeletes

/-- Retention and both additions, without data at first. -/
def sampleSideBySide : Pool sqlitePorts MemcoreError Unit SqliteWorld :=
  .start .empty (retentionBeside retentionTexts (.new .sample) sampleRetention
    [sampleAddition, sampleAddition])

/-- All of them have returned when retention and both additions have. -/
theorem sampleSideBySide_returned
    {permits : SqliteWorld → SqliteHistory → ℕ → SqlitePort → Choice → Prop}
    {pool : Pool sqlitePorts MemcoreError Unit SqliteWorld}
    (reached : Pool.Reaches (sqliteServer .sample retentionTexts) permits sampleSideBySide pool)
    (all : ([0, 1, 2].all fun thread => Pool.hasReturned (pool.threads thread)) = true)
    (thread : ℕ) : pool.threads thread = .done () := by
  by_cases listed : thread ∈ [0, 1, 2]
  · obtain ⟨_, done⟩ := (Pool.hasReturned_iff _).mp (List.all_eq_true.mp all thread listed)
    exact done
  · apply reached.finished
    match thread, listed with
    | 0, listed => exact absurd (by decide) listed
    | 1, listed => exact absurd (by decide) listed
    | 2, listed => exact absurd (by decide) listed
    | _ + 3, _ => rfl

theorem retention_keeps_vectors_sample : ∃ pool,
    Pool.Reaches (sqliteServer .sample retentionTexts) (sparingSelected retentionTexts)
      sampleSideBySide pool ∧
    (∀ thread, pool.threads thread = .done ()) ∧
    pool.world.rows.rows.map isActive = [false, true] ∧
    EveryFactHasVector sampleTenant pool.world := by
  obtain ⟨pool, reached, passes⟩ := Pool.exists_reached_of_run (sqliteServer .sample retentionTexts)
    (sparingSelected retentionTexts) sparingSchedule sampleSideBySide
    (fun pool => ([0, 1, 2].all fun thread => Pool.hasReturned (pool.threads thread)) &&
      decide (pool.world.rows.rows.map isActive = [false, true])) (by decide +kernel)
  obtain ⟨all, active⟩ := (Bool.and_eq_true _ _ ▸ passes)
  have active := of_decide_eq_true active
  have returned := sampleSideBySide_returned reached all
  exact ⟨pool, reached, returned, active, retention_keeps_vectors retentionTexts (.new .sample)
    sampleRetention [sampleAddition, sampleAddition] (by decide) retentionTexts_reads .empty nofun
    nofun pool reached returned⟩

/-- An addition renews a fact that retention has selected. Its vector is deleted. -/
theorem retention_strips_renewed_fact : ∃ pool,
    Pool.Reaches (sqliteServer .sample retentionTexts) identifiersNew sampleSideBySide pool ∧
    (∀ thread, pool.threads thread = .done ()) ∧
    EveryFactHasVector sampleTenant SqliteWorld.empty ∧
    ¬ EveryFactHasVector sampleTenant pool.world := by
  obtain ⟨pool, reached, passes⟩ := Pool.exists_reached_of_run (sqliteServer .sample retentionTexts)
    identifiersNew renewingSchedule sampleSideBySide
    (fun pool => ([0, 1, 2].all fun thread => Pool.hasReturned (pool.threads thread)) &&
      decide (¬ EveryFactHasVector sampleTenant pool.world)) (by decide +kernel)
  obtain ⟨all, stripped⟩ := (Bool.and_eq_true _ _ ▸ passes)
  exact ⟨pool, reached, sampleSideBySide_returned reached all, nofun, of_decide_eq_true stripped⟩

end Memcore
