import Memcore.Api.Routes
import Memcore.Engine.Shrinking

/-!
# Quotas under writing requests

The quota service is asked for one memory, while one conversation may yield any number of
them, and an import is not announced at all. The limits are kept as long as every request
stores at most what was asked for, or else finds room for all that it may store.
-/
namespace Memcore

open Ports Programs

/-! ## Limits and the room under them -/

/-- The memories of an organisation and of some of its users, and the number of users, are
within the limits. -/
structure QuotasMet (limits : OrgQuotaLimits) (orgId : String) (users : List String)
    (facts : MockFactStore) : Prop where
  org : WithinLimit limits.maxMemoriesPerOrg (facts.countFactsByOrg orgId)
  user : ∀ userId ∈ users,
    WithinLimit limits.maxMemoriesPerUser (facts.countFactsByUser ⟨orgId, userId⟩)
  users : WithinLimit limits.maxUsersPerOrg (facts.countUsersByOrg orgId)

instance (limits : OrgQuotaLimits) (orgId : String) (users : List String)
    (facts : MockFactStore) : Decidable (QuotasMet limits orgId users facts) :=
  decidable_of_iff (_ ∧ _ ∧ _)
    ⟨fun all => ⟨all.1, all.2.1, all.2.2⟩, fun met => ⟨met.org, met.user, met.users⟩⟩

/-- The limits are met, and still are when a tenant stores that many more memories. -/
structure Spare (limits : OrgQuotaLimits) (users : List String) (tenant : TenantContext)
    (count : ℕ) (facts : MockFactStore) : Prop where
  met : QuotasMet limits tenant.orgId users facts
  org : WithinLimit limits.maxMemoriesPerOrg (facts.countFactsByOrg tenant.orgId + count)
  user : WithinLimit limits.maxMemoriesPerUser (facts.countFactsByUser tenant + count)
  users : 0 < count →
    WithinLimit limits.maxUsersPerOrg ((facts.usersByOrg tenant.orgId).insert tenant.userId).length

/-- After some writes of a tenant, every active fact has an identifier from a list, or the
identity of a fact that was active before. -/
def Grown (tenant : TenantContext) (ids : List Uuid) (facts later : MockFactStore) : Prop :=
  ∀ fact, later.Active fact → (fact.tenant = tenant ∧ fact.id ∈ ids) ∨
    ∃ old, facts.Active old ∧ old.id = fact.id ∧ old.tenant = fact.tenant

section Counting

variable {facts later : MockFactStore} {tenant : TenantContext} {ids : List Uuid}

theorem activeFacts_ids_nodup (facts : MockFactStore) (wanted : Fact → Bool) :
    ((facts.activeFacts.filter wanted).map Fact.id).Nodup :=
  facts.facts.distinct.sublist ((List.filter_sublist.trans List.filter_sublist).map Fact.id)

/-- Facts are counted by their identifiers: a selection by tenant grows by at most the
identifiers that are new. -/
theorem Grown.count_le (grown : Grown tenant ids facts later) (wanted : TenantContext → Bool) :
    (later.activeFacts.filter fun fact => wanted fact.tenant).length ≤
      (facts.activeFacts.filter fun fact => wanted fact.tenant).length +
        if wanted tenant = true then ids.length else 0 := by
  let added := if wanted tenant = true then ids else []
  have covered : (later.activeFacts.filter fun fact => wanted fact.tenant).map Fact.id ⊆
      (facts.activeFacts.filter fun fact => wanted fact.tenant).map Fact.id ++ added := by
    intro id member
    obtain ⟨fact, selected, rfl⟩ := List.mem_map.mp member
    obtain ⟨active, isWanted⟩ := List.mem_filter.mp selected
    rw [List.mem_append]
    rcases grown fact ((later.mem_activeFacts fact).mp active) with
      ⟨own, isNew⟩ | ⟨old, oldActive, sameId, sameTenant⟩
    · right
      rw [own] at isWanted
      simpa only [added, if_pos isWanted] using isNew
    · left
      refine List.mem_map.mpr ⟨old, List.mem_filter.mpr
        ⟨(facts.mem_activeFacts old).mpr oldActive, ?_⟩, sameId⟩
      rwa [sameTenant]
  have bound := ((activeFacts_ids_nodup later _).subperm covered).length_le
  rw [List.length_append, List.length_map, List.length_map] at bound
  refine bound.trans (Nat.add_le_add_left (le_of_eq ?_) _)
  simp only [added]
  split <;> rfl

theorem mem_usersByOrg (facts : MockFactStore) (orgId userId : String) :
    userId ∈ facts.usersByOrg orgId ↔ ∃ fact, facts.Active fact ∧ fact.tenant = ⟨orgId, userId⟩ := by
  simp only [MockFactStore.usersByOrg, List.mem_dedup, List.mem_map, List.mem_filter,
    MockFactStore.mem_activeFacts, decide_eq_true_eq, Fact.tenant, TenantContext.mk.injEq]
  constructor
  · rintro ⟨fact, ⟨active, org⟩, user⟩
    exact ⟨fact, active, org, user⟩
  · rintro ⟨fact, active, org, user⟩
    exact ⟨fact, ⟨active, org⟩, user⟩

theorem usersByOrg_nodup (facts : MockFactStore) (orgId : String) :
    (facts.usersByOrg orgId).Nodup := List.nodup_dedup _

theorem Grown.users_subset (grown : Grown tenant ids facts later) :
    later.usersByOrg tenant.orgId ⊆ (facts.usersByOrg tenant.orgId).insert tenant.userId := by
  intro userId member
  obtain ⟨fact, active, own⟩ := (mem_usersByOrg later _ _).mp member
  rw [List.mem_insert_iff]
  rcases grown fact active with ⟨ofTenant, _⟩ | ⟨old, oldActive, _, sameTenant⟩
  · left
    exact congrArg TenantContext.userId (own.symm.trans ofTenant)
  · right
    exact (mem_usersByOrg facts _ _).mpr ⟨old, oldActive, sameTenant.trans own⟩

theorem Grown.users_same (grown : Grown tenant [] facts later) :
    later.usersByOrg tenant.orgId ⊆ facts.usersByOrg tenant.orgId := by
  intro userId member
  obtain ⟨fact, active, own⟩ := (mem_usersByOrg later _ _).mp member
  rcases grown fact active with ⟨_, isNew⟩ | ⟨old, oldActive, _, sameTenant⟩
  · nomatch isNew
  · exact (mem_usersByOrg facts _ _).mpr ⟨old, oldActive, sameTenant.trans own⟩

end Counting

section Spending

variable {limits : OrgQuotaLimits} {users : List String} {tenant : TenantContext} {count : ℕ}
  {facts later : MockFactStore}

/-- What is stored is taken from the room that there was. -/
theorem Spare.spend {ids : List Uuid} (spare : Spare limits users tenant (ids.length + count) facts)
    (grown : Grown tenant ids facts later) : Spare limits users tenant count later := by
  have orgBound : later.countFactsByOrg tenant.orgId ≤
      facts.countFactsByOrg tenant.orgId + ids.length := by
    have bound := grown.count_le fun other => decide (other.orgId = tenant.orgId)
    rw [if_pos (decide_eq_true rfl)] at bound
    exact bound
  have userBound : ∀ userId, later.countFactsByUser ⟨tenant.orgId, userId⟩ ≤
      facts.countFactsByUser ⟨tenant.orgId, userId⟩ +
        if tenant = ⟨tenant.orgId, userId⟩ then ids.length else 0 := by
    intro userId
    simpa [MockFactStore.countFactsByUser] using
      grown.count_le fun other => decide (other = ⟨tenant.orgId, userId⟩)
  have ownBound : later.countFactsByUser tenant ≤ facts.countFactsByUser tenant + ids.length := by
    simpa using userBound tenant.userId
  refine ⟨⟨spare.org.mono (by omega), fun userId member => ?_, ?_⟩, spare.org.mono (by omega),
    spare.user.mono (by omega), fun more => (spare.users (by omega)).mono ?_⟩
  · by_cases own : tenant = ⟨tenant.orgId, userId⟩
    · rw [← own]
      exact spare.user.mono (by omega)
    · have bound := userBound userId
      rw [if_neg own, Nat.add_zero] at bound
      exact (spare.met.user userId member).mono bound
  · cases ids with
    | nil =>
      exact spare.met.users.mono
        ((usersByOrg_nodup later _).subperm grown.users_same).length_le
    | cons id ids =>
      have room := spare.users (by simp only [List.length_cons]; omega)
      exact room.mono ((usersByOrg_nodup later _).subperm grown.users_subset).length_le
  · refine (((usersByOrg_nodup later _).insert).subperm fun userId member => ?_).length_le
    rcases List.mem_insert_iff.mp member with rfl | old
    · exact List.mem_insert_self
    · exact grown.users_subset old

theorem Spare.fewer (spare : Spare limits users tenant count facts)
    (fewer : ∀ fact, later.Active fact → facts.Active fact) :
    Spare limits users tenant count later :=
  @Spare.spend limits users tenant count facts later [] (by simpa using spare)
    fun fact active => .inr ⟨fact, fewer fact active, rfl, rfl⟩

theorem Spare.less (spare : Spare limits users tenant count facts) {fewer : ℕ}
    (le : fewer ≤ count) : Spare limits users tenant fewer facts :=
  ⟨spare.met, spare.org.mono (by omega), spare.user.mono (by omega),
    fun some => spare.users (by omega)⟩

/-- Limits that are met leave room for nothing. -/
theorem QuotasMet.spare (met : QuotasMet limits tenant.orgId users facts)
    (listed : tenant.userId ∈ users) : Spare limits users tenant 0 facts :=
  ⟨met, met.org, met.user tenant.userId listed, fun none => absurd none (lt_irrefl 0)⟩

/-- A user without memories is not among the users. -/
theorem insert_length_of_room (facts : MockFactStore) (tenant : TenantContext) :
    ((facts.usersByOrg tenant.orgId).insert tenant.userId).length ≤
      facts.countUsersByOrg tenant.orgId +
        if facts.countFactsByUser tenant = 0 then 1 else 0 := by
  by_cases listed : tenant.userId ∈ facts.usersByOrg tenant.orgId
  · rw [List.insert_of_mem listed]
    exact Nat.le_add_right _ _
  · have unknown : facts.countFactsByUser tenant = 0 := by
      rw [MockFactStore.countFactsByUser, List.length_eq_zero_iff, List.filter_eq_nil_iff]
      intro fact member own
      exact listed ((mem_usersByOrg facts _ _).mpr
        ⟨fact, (facts.mem_activeFacts fact).mp member, of_decide_eq_true own⟩)
    rw [if_pos unknown, List.length_insert_of_not_mem listed]
    exact le_rfl

/-- Room that was found is spare. -/
theorem RoomFor.spare (room : RoomFor limits facts tenant count)
    (met : QuotasMet limits tenant.orgId users facts) : Spare limits users tenant count facts :=
  ⟨met, room.org, room.user, fun _ => room.users.mono (insert_length_of_room facts tenant)⟩

end Spending

/-! ## Programs that spend room -/

section Programs

variable {platform : Platform} {admits : World → Port → Choice → Prop} {limits : OrgQuotaLimits}
  {users : List String} {tenant : TenantContext} {count : ℕ} {world : World} {α : Type}

/-- The invariant of the world. -/
abbrev WithinQuotas (limits : OrgQuotaLimits) (orgId : String) (users : List String)
    (world : World) : Prop := QuotasMet limits orgId users world.facts

/-- However a program ends, the limits are met; when it returns, some room is left. -/
abbrev LeavesRoom (platform : Platform) (admits : World → Port → Choice → Prop)
    (limits : OrgQuotaLimits) (users : List String) (tenant : TenantContext)
    (program : EngineProgram α) (count : ℕ) (world : World) : Prop :=
  Secures (worldSpec platform admits) program
    (WithinQuotas limits tenant.orgId users)
    (fun _ final => Spare limits users tenant count final.facts) world

/-- What stores nothing leaves the room that there was. -/
theorem shrinking_leavesRoom {program : EngineProgram α}
    (shrinking : program.Within ShrinkingCall)
    (spare : Spare limits users tenant count world.facts) :
    LeavesRoom platform admits limits users tenant program count world := by
  apply (secures_iff _ _ _ _ _).mpr
  refine Ensures.mono worldSpec_monotone (shrinking.ensures
    (fun world => Spare limits users tenant count world.facts)
    (fun _ _ choice kept isShrinking _ _ => kept.fewer (isShrinking.active choice)) spare) ?_
  intro outcome final kept
  cases outcome with
  | ok value => exact kept
  | error error => exact kept.met

/-- A fact that is inserted takes one place. -/
theorem insertFact_leavesRoom (fact : Fact)
    (spare : Spare limits users tenant (count + 1) world.facts) :
    LeavesRoom platform admits limits users tenant (insertFact tenant fact) count world := by
  apply secures_facts (.insertFact tenant fact)
  · exact fun _ _ _ => spare.met
  · intro error failed
    simp only [MockFactStore.serve, world.facts.insertFact_error tenant fact error failed]
    exact spare.met
  intro (inserted : Fact) served
  obtain ⟨rfl, own, _, stored⟩ := world.facts.insertFact_ok tenant fact inserted served
  simp only [MockFactStore.serve, stored]
  apply @Spare.spend _ _ _ _ world.facts _ [inserted.id]
  · rwa [List.length_singleton, Nat.add_comm]
  · intro other active
    rcases (world.facts.active_putFact inserted other).mp active with ⟨rfl, _⟩ | ⟨old, _⟩
    · exact .inl ⟨own, List.mem_singleton_self _⟩
    · exact .inr ⟨other, old, rfl, rfl⟩

/-- A fact that is updated takes the place that it had. -/
theorem updateFact_leavesRoom (fact existing : Fact) (active : world.facts.Active existing)
    (sameId : fact.id = existing.id) (sameTenant : fact.tenant = existing.tenant)
    (spare : Spare limits users tenant count world.facts) :
    LeavesRoom platform admits limits users tenant (updateFact tenant fact) count world := by
  apply secures_facts (.updateFact tenant fact)
  · exact fun _ _ _ => spare.met
  · intro error failed
    simp only [MockFactStore.serve, world.facts.updateFact_error tenant fact error failed]
    exact spare.met
  intro (updated : Fact) served
  obtain ⟨rfl, _, stored⟩ := world.facts.updateFact_ok tenant fact updated served
  simp only [MockFactStore.serve, stored]
  apply @Spare.spend _ _ _ _ world.facts _ []
  · rwa [List.length_nil, Nat.zero_add]
  · intro other found
    rcases (world.facts.active_putFact updated other).mp found with ⟨rfl, _⟩ | ⟨old, _⟩
    · exact .inr ⟨existing, active, sameId.symm, sameTenant.symm⟩
    · exact .inr ⟨other, old, rfl, rfl⟩

theorem applyFactOperation_leavesRoom (candidate : CandidateFact)
    (decision : FactOperationDecision) (precomputedEmbedding : Option (List ℚ))
    (spare : Spare limits users tenant (count + 1) world.facts) :
    LeavesRoom platform admits limits users tenant
      (applyFactOperation tenant candidate decision precomputedEmbedding) count world := by
  have enough : Spare limits users tenant count world.facts := spare.less (Nat.le_succ count)
  have met : WithinQuotas limits tenant.orgId users world := spare.met
  apply (secures_bind _ _ _ _ _ _).mpr
  apply secures_check met
  intro operation _
  cases operation with
  | add =>
    apply (secures_bind _ _ _ _ _ _).mpr
    apply secures_candidateToFact candidate met
    intro fact _ _ _
    apply (secures_bind _ _ _ _ _ _).mpr
    refine (insertFact_leavesRoom fact spare).mono worldSpec_monotone fun inserted _ left => ?_
    exact shrinking_leavesRoom
      (.bind (upsertFactVector_shrinking inserted precomputedEmbedding) fun _ => .pure _) left
  | update targetFactId =>
    apply (secures_bind _ _ _ _ _ _).mpr
    apply secures_requireFact targetFactId met
    intro existing active _ _
    apply (secures_bind _ _ _ _ _ _).mpr
    apply secures_mergeCandidateIntoFact existing candidate met
    intro updated sameId sameTenant _ _
    apply (secures_bind _ _ _ _ _ _).mpr
    refine (updateFact_leavesRoom updated existing active sameId sameTenant enough).mono
      worldSpec_monotone fun stored _ left => ?_
    exact shrinking_leavesRoom (.bind (.bind (deleteVectorIfPresent_shrinking stored.id)
      fun _ => upsertFactVector_shrinking stored none) fun _ => .pure _) left
  | delete targetFactId => exact shrinking_leavesRoom (applyDelete_shrinking _) enough
  | noOp => exact (secures_pure _ _ _ _ _).mpr enough

variable (engine : MemoryEngine)

theorem embedAndApply_leavesRoom (input : AddMemoryInput) (output : AddMemoryOutput)
    (candidate : CandidateFact) (spare : Spare limits users input.tenant (count + 1) world.facts) :
    LeavesRoom platform admits limits users input.tenant
      (embedAndApply engine input output candidate) count world := by
  apply (secures_bind _ _ _ _ _ _).mpr
  apply secures_provider (.embedText candidate.content) spare.met
  intro (embedding : List ℚ)
  apply (secures_bind _ _ _ _ _ _).mpr
  refine (shrinking_leavesRoom ((detectEmbeddingDuplicate_within _ _ _).mono quietCall_shrinking)
    spare).mono worldSpec_monotone fun duplicate after still => ?_
  split
  · exact shrinking_leavesRoom ((skipDuplicate_within engine output _ _).mono quietCall_shrinking)
      (still.less (Nat.le_succ count))
  · apply (secures_bind _ _ _ _ _ _).mpr
    apply secures_searchFacts _ still.met
    intro _ related _ _
    apply (secures_bind _ _ _ _ _ _).mpr
    apply secures_provider (.classifyFactOperation _ _ _) still.met
    intro decision
    apply (secures_bind _ _ _ _ _ _).mpr
    refine (applyFactOperation_leavesRoom candidate decision _ still).mono worldSpec_monotone
      fun result final left => ?_
    exact shrinking_leavesRoom
      ((countResult_within engine input output decision result).mono quietCall_shrinking) left

/-- A candidate that is important enough to be compared and stored. -/
def worthStoring (extracted : CandidateFact) : Bool :=
  passesImportanceThreshold (ImportanceScorer.adjust extracted) engine.minImportance

theorem addCandidate_leavesRoom (input : AddMemoryInput) (output : AddMemoryOutput)
    (extracted : CandidateFact)
    (spare : Spare limits users input.tenant
      (count + if worthStoring engine extracted then 1 else 0) world.facts) :
    LeavesRoom platform admits limits users input.tenant
      (addCandidate engine input output extracted) count world := by
  have met : WithinQuotas limits input.tenant.orgId users world := spare.met
  apply (secures_bind _ _ _ _ _ _).mpr
  apply secures_check met
  intro _ _
  show LeavesRoom platform admits limits users input.tenant (if _ then _ else _) count world
  unfold worthStoring at spare
  split
  · exact (secures_pure _ _ _ _ _).mpr (spare.less (Nat.le_add_right _ _))
  · rename_i passes
    rw [Bool.not_eq_true, Bool.not_eq_false'] at passes
    rw [if_pos passes] at spare
    apply (secures_bind _ _ _ _ _ _).mpr
    apply secures_searchFacts _ met
    intro _ existing _ _
    split
    · exact shrinking_leavesRoom
        ((skipDuplicate_within engine output _ _).mono quietCall_shrinking)
        (spare.less (Nat.le_succ count))
    · exact embedAndApply_leavesRoom engine input output _ spare

/-- The number of candidates that may be stored. -/
def storable (candidates : List CandidateFact) : ℕ := candidates.countP (worthStoring engine)

theorem addCandidates_leavesRoom (input : AddMemoryInput) (output : AddMemoryOutput)
    (candidates : List CandidateFact)
    (spare : Spare limits users input.tenant (storable engine candidates) world.facts) :
    LeavesRoom platform admits limits users input.tenant
      (addCandidates engine input output candidates) 0 world := by
  induction candidates generalizing output world with
  | nil => exact (secures_pure _ _ _ _ _).mpr spare
  | cons candidate candidates inductionHypothesis =>
    rw [storable, List.countP_cons] at spare
    apply (secures_bind _ _ _ _ _ _).mpr
    refine (addCandidate_leavesRoom engine input output candidate spare).mono
      worldSpec_monotone ?_
    exact fun output _ left => inductionHypothesis output left

/-! ### Imports -/

variable (input : ImportUserDataInput)

theorem importFact_leavesRoom (exported : Fact)
    (spare : Spare limits users input.tenant (count + 1) world.facts) :
    LeavesRoom platform admits limits users input.tenant (importFact input exported) count
      world := by
  have looking : (getFact input.tenant exported.id).Within ShrinkingCall := within_perform trivial
  apply (secures_bind _ _ _ _ _ _).mpr
  refine (shrinking_leavesRoom looking spare).mono worldSpec_monotone
    fun (existing : Option Fact) _ still => ?_
  apply (secures_bind _ _ _ _ _ _).mpr
  have resolving : (resolveImportFactId exported.id existing.isSome input.mode).Within
      ShrinkingCall := by
    unfold resolveImportFactId
    split
    · exact within_perform trivial
    · exact .pure _
  refine (shrinking_leavesRoom resolving still).mono worldSpec_monotone fun factId after room => ?_
  apply (secures_bind _ _ _ _ _ _).mpr
  have met : WithinQuotas limits input.tenant.orgId users after := room.met
  apply secures_check met
  intro fact _
  apply (secures_bind _ _ _ _ _ _).mpr
  refine (insertFact_leavesRoom fact room).mono worldSpec_monotone fun _ _ left => ?_
  exact shrinking_leavesRoom (within_step trivial fun _ => .bind
    (within_step trivial fun _ => .pure _) fun _ => within_perform trivial) left

theorem importFacts_leavesRoom (facts : List Fact)
    (spare : Spare limits users input.tenant facts.length world.facts) :
    LeavesRoom platform admits limits users input.tenant (importFacts input facts) 0 world := by
  induction facts generalizing world with
  | nil => exact (secures_pure _ _ _ _ _).mpr spare
  | cons exported rest inductionHypothesis =>
    apply (secures_bind _ _ _ _ _ _).mpr
    refine (importFact_leavesRoom input exported spare).mono worldSpec_monotone
      fun _ _ left => ?_
    apply (secures_bind _ _ _ _ _ _).mpr
    exact (inductionHypothesis left).mono worldSpec_monotone fun _ _ none =>
      (secures_pure _ _ _ _ _).mpr none

theorem restoreEventsFrom_shrinking (events : List MemoryEvent) :
    (restoreEventsFrom input events).Within ShrinkingCall := by
  induction events with
  | nil => exact .pure _
  | cons exported rest inductionHypothesis =>
    exact .bind (within_step trivial fun _ => .pure _) fun _ => within_step trivial fun _ =>
      .bind inductionHypothesis fun _ => .pure _

theorem restoreEvents_shrinking : (restoreEvents engine input).Within ShrinkingCall := by
  unfold restoreEvents
  split
  · exact restoreEventsFrom_shrinking input _
  · exact .pure _

/-- The facts that are there when the exported ones are inserted. -/
def remaining (facts : MockFactStore) : MockFactStore :=
  if input.mode = .replace then (facts.deleteUserData input.tenant).2 else facts

theorem replaceExisting_leavesRoom (met : WithinQuotas limits input.tenant.orgId users world)
    (spare : Spare limits users input.tenant count (remaining input world.facts)) :
    LeavesRoom platform admits limits users input.tenant (replaceExisting engine input) count
      world := by
  unfold replaceExisting
  unfold remaining at spare
  by_cases replaces : input.mode = .replace
  · rw [if_pos replaces] at spare ⊢
    apply (secures_bind _ _ _ _ _ _).mpr
    apply secures_facts (.deleteUserData input.tenant)
    · exact fun _ _ _ => met
    · exact fun _ _ => spare.met
    · intro _ _
      apply shrinking_leavesRoom _ spare
      exact within_step trivial fun _ =>
        .bind (recordEvent_shrinking engine (memoryEventNew_within engine _ _ _ _ _))
          fun _ => .pure _
  · rw [if_neg replaces] at spare ⊢
    exact (secures_pure _ _ _ _ _).mpr spare

/-- An import that writes nothing, or finds room for all facts of its payload. -/
def ImportFits (limits : OrgQuotaLimits) (facts : MockFactStore) : Prop :=
  input.dryRun = true ∨
    (collectImportValidation input.payload input.tenant input.restoreEvents).valid = false ∨
    input.payload.facts = [] ∨
    RoomFor limits (remaining input facts) input.tenant input.payload.facts.length

theorem importUserData_leavesRoom (listed : input.tenant.userId ∈ users)
    (met : WithinQuotas limits input.tenant.orgId users world)
    (fits : ImportFits input limits world.facts) :
    LeavesRoom platform admits limits users input.tenant (importUserData engine input) 0
      world := by
  apply (secures_bind _ _ _ _ _ _).mpr
  apply secures_check met
  intro _ _
  show LeavesRoom platform admits limits users input.tenant (if _ then _ else if _ then _ else _)
    0 world
  by_cases isDry : input.dryRun = true
  · rw [if_pos isDry]
    exact (secures_pure _ _ _ _ _).mpr (met.spare listed)
  rw [if_neg isDry]
  by_cases isValid : (collectImportValidation input.payload input.tenant
      input.restoreEvents).valid = true
  swap
  · rw [if_pos (by simpa using isValid)]
    exact (secures_fail _ _ _ _ _).mpr met
  rw [if_neg (by simpa using isValid)]
  have metAfter : QuotasMet limits input.tenant.orgId users (remaining input world.facts) := by
    unfold remaining
    split
    · have wiped := (met.spare listed).fewer fun fact active =>
        ((world.facts.active_deleteUserData input.tenant fact).mp active).1
      exact wiped.met
    · exact met
  have spare : Spare limits users input.tenant input.payload.facts.length
      (remaining input world.facts) := by
    rcases fits with dry | invalid | empty | room
    · exact absurd dry isDry
    · rw [isValid] at invalid
      nomatch invalid
    · rw [empty]
      exact metAfter.spare listed
    · exact room.spare metAfter
  apply (secures_bind _ _ _ _ _ _).mpr
  refine (replaceExisting_leavesRoom engine input met spare).mono worldSpec_monotone
    fun _ _ room => ?_
  apply (secures_bind _ _ _ _ _ _).mpr
  refine (importFacts_leavesRoom input _ room).mono worldSpec_monotone fun _ _ left => ?_
  apply shrinking_leavesRoom _ left
  exact .bind (restoreEvents_shrinking engine input) fun _ =>
    .bind (invalidateUserContextCache_shrinking engine) fun _ => .pure _

end Programs

/-! ## Requests -/

section Requests

variable (state : AppState)

/-- The limits that apply to an organisation. -/
abbrev AppState.limits (orgId : String) : OrgQuotaLimits := (state.quotas.limitsOf orgId).limits

/-- A conversation yields at most one candidate that may be stored, or there is room for all
that it yields. -/
def yieldsWithinRoom : World → Port → Choice → Prop := fun world port choice =>
  match port with
  | .provider (.extractFacts tenant _ _) =>
      storable state.engine choice.candidates ≤ 1 ∨
        RoomFor (state.limits tenant.orgId) world.facts tenant
          (storable state.engine choice.candidates)
  | _ => True

instance : ∀ world port choice, Decidable (yieldsWithinRoom state world port choice) := by
  intro world port choice
  unfold yieldsWithinRoom
  split <;> infer_instance

/-- An import fits under the limits of its organisation. -/
def importsWithinRoom : World → EngineOperation → Prop := fun world operation =>
  match operation with
  | .importUserData input => ImportFits input (state.limits input.tenant.orgId) world.facts
  | _ => True

theorem addMemory_leavesRoom {users : List String} {world : World} (input : AddMemoryInput)
    (spare : Spare (state.limits input.tenant.orgId) users input.tenant 1 world.facts) :
    LeavesRoom state.engine.platform (yieldsWithinRoom state) (state.limits input.tenant.orgId)
      users input.tenant (addMemory state.engine input) 0 world := by
  have met : WithinQuotas (state.limits input.tenant.orgId) input.tenant.orgId users world :=
    spare.met
  apply (secures_bind _ _ _ _ _ _).mpr
  apply secures_check met
  intro _ _
  apply (secures_bind _ _ _ _ _ _).mpr
  apply secures_check met
  intro _ _
  apply (secures_bind _ _ _ _ _ _).mpr
  refine (shrinking_leavesRoom (bindUsageAttribution_within state.engine trivial)
    spare).mono worldSpec_monotone fun _ bound spare => ?_
  apply (secures_bind _ _ _ _ _ _).mpr
  apply (secures_iff _ _ _ _ _).mpr
  apply (ensures_perform (.provider (.extractFacts _ _ _)) _).mpr
  intro choice _ admitted
  simp only [World.serve, World.unlessFault]
  cases choice.fault with
  | some error => exact spare.met
  | none =>
    have room : Spare (state.limits input.tenant.orgId) users input.tenant
        (storable state.engine choice.candidates) bound.facts := by
      rcases admitted with few | fits
      · exact spare.less few
      · exact fits.spare spare.met
    show LeavesRoom state.engine.platform (yieldsWithinRoom state)
      (state.limits input.tenant.orgId) users input.tenant _ 0 bound
    apply (secures_bind _ _ _ _ _ _).mpr
    refine (addCandidates_leavesRoom state.engine input _ choice.candidates room).mono
      worldSpec_monotone fun output final left => ?_
    split
    · apply shrinking_leavesRoom _ left
      exact .bind (invalidateUserContextCache_shrinking state.engine) fun _ => .pure _
    · exact (secures_pure _ _ _ _ _).mpr left

/-- A response without an error passes the value on. -/
theorem orRespond_ok {α : Type} {result : MemcoreResult α} {value : α}
    (responded : orRespond result = .ok value) : result = .ok value := by
  cases result with
  | ok other => exact congrArg Except.ok (Except.ok.inj responded)
  | error error => nomatch responded

theorem tenantContext_new_ok {orgId userId : String} {tenant : TenantContext}
    (created : TenantContext.new orgId userId = .ok tenant) : tenant = ⟨orgId, userId⟩ := by
  obtain ⟨_, _, returned⟩ := (bind_ok _ _ _).mp created
  exact (Except.ok.inj returned).symm

/-- Memories are only added by a tenant for which one more is allowed. -/
theorem admitAddMemory_ok {facts : MockFactStore} {reading : QuotaReading}
    {organization : OrganizationContext} {auth : Option AuthContext} {request : AddMemoryRequest}
    {input : AddMemoryInput} (enabled : (state.limits organization.orgId).enabled = true)
    (admission : admitAddMemory state facts reading organization auth request = .ok input) :
    input.tenant = ⟨organization.orgId, request.userId⟩ ∧
      RoomFor (state.limits organization.orgId) facts input.tenant 1 := by
  obtain ⟨_, _, rest⟩ := (bind_ok _ _ _).mp admission
  obtain ⟨_, _, rest⟩ := (bind_ok _ _ _).mp rest
  obtain ⟨tenant, created, rest⟩ := (bind_ok _ _ _).mp rest
  obtain ⟨messages, _, rest⟩ := (bind_ok _ _ _).mp rest
  obtain ⟨quota, checked, rest⟩ := (bind_ok _ _ _).mp rest
  obtain rfl := tenantContext_new_ok (orRespond_ok created)
  cases violations : quota.violations with
  | cons violation others =>
    simp only [violations] at rest
    nomatch rest
  | nil =>
    simp only [violations] at rest
    obtain rfl := Except.ok.inj rest
    exact ⟨rfl, roomFor_of_allowed state.quotas (orRespond_ok checked) violations enabled⟩

theorem admitImportUserData_ok {organization : OrganizationContext} {auth : Option AuthContext}
    {userId : String} {body : ImportUserDataRequest} {input : ImportUserDataInput}
    (admission : admitImportUserData organization auth userId body = .ok input) :
    input.tenant = ⟨organization.orgId, userId⟩ := by
  obtain ⟨_, _, rest⟩ := (bind_ok _ _ _).mp admission
  split at rest
  · nomatch rest
  · obtain ⟨tenant, created, returned⟩ := (bind_ok _ _ _).mp rest
    obtain rfl := tenantContext_new_ok (orRespond_ok created)
    exact congrArg ImportUserDataInput.tenant (Except.ok.inj returned).symm

theorem request_keepsQuotas {organization : OrganizationContext} {users : List String}
    {request : ApiRequest} {reading : QuotaReading} {operation : EngineOperation} {world : World}
    (enabled : (state.limits organization.orgId).enabled = true)
    (listed : request.userId ∈ users)
    (admission : request.prepare state world.facts reading organization = .ok operation)
    (fits : importsWithinRoom state world operation)
    (met : WithinQuotas (state.limits organization.orgId) organization.orgId users world) :
    Ensures (worldSpec state.engine.platform (yieldsWithinRoom state))
      (operation.program state.engine)
      (fun _ final => WithinQuotas (state.limits organization.orgId) organization.orgId users
        final) world := by
  have finish : ∀ {β : Type} {program : EngineProgram β} {userId : String},
      LeavesRoom state.engine.platform (yieldsWithinRoom state) (state.limits organization.orgId)
        users ⟨organization.orgId, userId⟩ program 0 world →
      Ensures (worldSpec state.engine.platform (yieldsWithinRoom state))
        (do let _ ← program)
        (fun _ final => WithinQuotas (state.limits organization.orgId) organization.orgId users
          final) world := by
    intro β program userId leaves
    have forgets : LeavesRoom state.engine.platform (yieldsWithinRoom state)
        (state.limits organization.orgId) users ⟨organization.orgId, userId⟩
        (do let _ ← program) 0 world := (secures_bind _ _ _ _ _ _).mpr
      (leaves.mono worldSpec_monotone fun _ _ left => (secures_pure _ _ _ _ _).mpr left)
    refine Ensures.mono worldSpec_monotone ((secures_iff _ _ _ _ _).mp forgets) ?_
    intro outcome final ended
    cases outcome with
    | ok value => exact ended.met
    | error error => exact ended
  cases request with
  | addMemory auth request =>
    obtain ⟨input, admitted, rfl⟩ := (map_ok _ _ _).mp admission
    obtain ⟨own, room⟩ := admitAddMemory_ok state enabled admitted
    obtain ⟨tenant, messages, metadata⟩ := input
    obtain rfl : tenant = _ := own
    exact finish (addMemory_leavesRoom state _ (room.spare met))
  | importUserData auth userId body =>
    obtain ⟨input, admitted, rfl⟩ := (map_ok _ _ _).mp admission
    have own := admitImportUserData_ok admitted
    obtain ⟨tenant, payload, mode, restoreEvents, dryRun⟩ := input
    obtain rfl : tenant = _ := own
    exact finish (importUserData_leavesRoom state.engine _ listed met fits)

end Requests

/-! ## More than was asked for -/

/-- A service that allows two memories of a user, without a plan of the organisation. -/
def sampleState : AppState where
  engine := .wordsOnly
  quotas := ⟨fun _ => none, ⟨true, none, some 2, none, none, none⟩⟩

def sampleRequest : ApiRequest :=
  .addMemory none ⟨"ada", [⟨"user", "I take my coffee without sugar"⟩], .object []⟩

def sampleImportRequest : ApiRequest :=
  .importUserData none "ada"
    ⟨(sampleImport [sampleFact 1, sampleFact 2, sampleFact 3] .append).payload, .append, false,
      false⟩

/-- Choices for the import of three facts, with a new identifier for each record. -/
def importChoices : List Choice :=
  (List.range 15).map fun number => { embedding := [1], uuid := Fin.ofNat _ (10 + number) }

/-- One request that is replayed with the given number of memories as its result. -/
theorem exists_run_of_replayRequest {admits : World → Port → Choice → Prop}
    [∀ world port choice, Decidable (admits world port choice)] {request : ApiRequest}
    {choices : List Choice} (count : ℕ) {allowed : World → EngineOperation → Prop}
    (isAllowed : ∀ reading operation,
      request.prepare sampleState MockFactStore.empty reading ⟨"acme"⟩ = .ok operation →
        allowed (World.empty 1000) operation)
    (replayed : (replayRequest sampleState admits ⟨"acme"⟩ request choices
      (World.empty 1000)).any (fun run =>
        decide (run.2.facts.countFactsByUser ⟨"acme", "ada"⟩ = count)) = true) :
    ∃ final, ApiRun sampleState admits allowed ⟨"acme"⟩ (World.empty 1000) [request] final ∧
      final.facts.countFactsByUser ⟨"acme", "ada"⟩ = count := by
  obtain ⟨⟨operation, final⟩, found, counted⟩ := (Option.any_eq_true _ _).mp replayed
  exact ⟨final, replayRequest_run found isAllowed, of_decide_eq_true counted⟩

end Memcore
