import Memcore.Engine.Operations
import Memcore.Engine.Shrinking

/-!
# Distinct memories

A candidate is compared with existing facts of its type before anything is stored, and
nothing is stored that repeats one of them up to case, spaces and closing punctuation. The
facts come from one search, whose limit is fixed and whose answer has one row more than
the limit. As long as the tenant has no more facts of the type, no two of its memories of
one type say the same; beyond that, a candidate may repeat a fact that was not looked at.
-/
namespace Memcore

open Ports Programs

/-! ## Facts that say the same -/

/-- Two facts of one tenant and one type with the same normalized content. -/
structure SaysTheSame (left right : Fact) : Prop where
  tenant : left.tenant = right.tenant
  memoryType : left.memoryType = right.memoryType
  content : normalizeContent left.content = normalizeContent right.content

/-- No two active facts say the same. -/
def Distinct (facts : MockFactStore) : Prop :=
  ∀ left right, facts.Active left → facts.Active right → SaysTheSame left right → left = right

theorem distinct_empty : Distinct .empty :=
  fun left _ active => absurd active (MockFactStore.not_active_empty left)

section Stores

variable {facts later : MockFactStore}

theorem Distinct.fewer (distinct : Distinct facts)
    (fewer : ∀ fact, later.Active fact → facts.Active fact) : Distinct later :=
  fun left right leftActive rightActive =>
    distinct left right (fewer left leftActive) (fewer right rightActive)

/-- Storing a fact that says something new keeps the facts distinct. -/
theorem Distinct.put (distinct : Distinct facts) {fact : Fact}
    (new : ∀ other, facts.Active other → ¬ SaysTheSame other fact) :
    Distinct (facts.putFact fact) := by
  intro left right leftActive rightActive same
  rcases (facts.active_putFact fact left).mp leftActive with ⟨leftNew, _⟩ | ⟨leftOld, _⟩ <;>
    rcases (facts.active_putFact fact right).mp rightActive with ⟨rightNew, _⟩ | ⟨rightOld, _⟩
  · rw [leftNew, rightNew]
  · subst leftNew
    exact absurd ⟨same.tenant.symm, same.memoryType.symm, same.content.symm⟩ (new right rightOld)
  · subst rightNew
    exact absurd same (new left leftOld)
  · exact distinct left right leftOld rightOld same

end Stores

/-! ## What the comparison finds -/

/-- A candidate that is no duplicate differs from all facts of its type in the list. -/
theorem detectDuplicateFrom_distinct (candidate : CandidateFact)
    (bestModerate : Option (ℚ × String)) (existingFacts : List Fact)
    (noDuplicate : ∀ id reason,
      detectDuplicateFrom candidate bestModerate existingFacts ≠ .duplicate id reason)
    {fact : Fact} (listed : fact ∈ existingFacts) (sameType : fact.memoryType = candidate.memoryType) :
    normalizeContent candidate.content ≠ normalizeContent fact.content := by
  induction existingFacts generalizing bestModerate with
  | nil => exact absurd listed List.not_mem_nil
  | cons existing rest inductionHypothesis =>
    unfold detectDuplicateFrom at noDuplicate
    by_cases otherType : existing.memoryType ≠ candidate.memoryType
    · rw [if_pos otherType] at noDuplicate
      rcases List.mem_cons.mp listed with rfl | later
      · exact absurd sameType otherType
      · exact inductionHypothesis bestModerate noDuplicate later
    · rw [if_neg otherType] at noDuplicate
      by_cases equal : normalizeContent candidate.content = normalizeContent existing.content
      · rw [if_pos equal] at noDuplicate
        exact absurd rfl (noDuplicate _ _)
      · rw [if_neg equal] at noDuplicate
        rcases List.mem_cons.mp listed with rfl | later
        · exact equal
        · dsimp only at noDuplicate
          split at noDuplicate
          · exact absurd rfl (noDuplicate _ _)
          · split at noDuplicate
            · exact inductionHypothesis _ noDuplicate later
            · exact inductionHypothesis _ noDuplicate later

/-- The active facts of a tenant of some types. -/
def factsOfTypes (facts : MockFactStore) (tenant : TenantContext) (types : List MemoryType) :
    List Fact :=
  facts.activeFacts.filter fun fact =>
    decide (fact.tenant = tenant) && decide (fact.memoryType ∈ types)

/-- The facts that a search is about fit on the page that it returns. -/
def FitsPage (facts : MockFactStore) (query : FactSearchQuery) : Prop :=
  (factsOfTypes facts query.tenant (query.memoryTypes.getD [])).length ≤ pageFetchLimit query.limit

/-- The search of the comparison sees all facts of its type. -/
def comparesAll : World → Port → Choice → Prop := fun world port _ =>
  match port with
  | .facts (.searchFacts query) => query.queryText = none → FitsPage world.facts query
  | _ => True

instance : ∀ world port choice, Decidable (comparesAll world port choice) := by
  intro world port choice
  unfold comparesAll FitsPage
  split <;> infer_instance

/-- The search that the comparison makes. -/
def dedupQuery (tenant : TenantContext) (memoryType : MemoryType) : FactSearchQuery :=
  ⟨tenant, some [memoryType], none, dedupSearchLimit, none, false⟩

theorem mem_searchFacts_dedupQuery {facts : MockFactStore} {tenant : TenantContext}
    {memoryType : MemoryType} (fits : FitsPage facts (dedupQuery tenant memoryType))
    {found : List Fact} (served : (facts.searchFacts (dedupQuery tenant memoryType)).1 = .ok found)
    {fact : Fact} (active : facts.Active fact) (own : fact.tenant = tenant)
    (sameType : fact.memoryType = memoryType) : fact ∈ found := by
  have selected : facts.facts.rows.filter (fun fact =>
      decide (fact.tenant = tenant) && facts.matchesQuery (dedupQuery tenant memoryType) fact) =
        factsOfTypes facts tenant [memoryType] := by
    rw [factsOfTypes, MockFactStore.activeFacts, List.filter_filter]
    apply List.filter_congr
    intro row _
    simp only [MockFactStore.matchesQuery, dedupQuery, Option.all_some, Option.all_none,
      Bool.and_true, Bool.false_or]
    cases decide (row.tenant = tenant) <;> cases facts.isDeleted row.id <;> simp
  have all : found = (factsOfTypes facts tenant [memoryType]).insertionSort
      MockFactStore.comesFirst := by
    rw [← Except.ok.inj served, ← selected]
    apply List.take_of_length_le
    rw [List.length_insertionSort]
    exact selected ▸ fits
  rw [all, List.mem_insertionSort, factsOfTypes, List.mem_filter]
  exact ⟨(facts.mem_activeFacts fact).mpr active, by simp [own, sameType]⟩

/-! ## Programs that keep the facts distinct -/

section Programs

variable {platform : Platform} {world : World} {tenant : TenantContext} {α : Type}

/-- The invariant of the world. -/
abbrev DistinctMemories (world : World) : Prop := Distinct world.facts

/-- However a program ends, its ending is as described, and the facts are distinct. -/
abbrev KeepsDistinct (platform : Platform) (program : EngineProgram α)
    (good : α → World → Prop) (world : World) : Prop :=
  Secures (worldSpec platform comparesAll) program DistinctMemories good world

/-- What stores nothing keeps the facts distinct. -/
theorem shrinking_keepsDistinct {program : EngineProgram α}
    (shrinking : program.Within ShrinkingCall) (distinct : DistinctMemories world) :
    KeepsDistinct platform program (fun _ final => DistinctMemories final) world :=
  secures_safe worldSpec_monotone (shrinking.ensures DistinctMemories
    (fun _ _ choice kept isShrinking _ _ => kept.fewer (isShrinking.active choice)) distinct)

/-- No active fact says the same as a candidate. -/
def NewTo (tenant : TenantContext) (candidate : CandidateFact) (facts : MockFactStore) : Prop :=
  ∀ fact, facts.Active fact → fact.tenant = tenant → fact.memoryType = candidate.memoryType →
    normalizeContent candidate.content ≠ normalizeContent fact.content

/-- A fact that a new candidate has become says something new. -/
theorem NewTo.says_new {candidate : CandidateFact} {facts : MockFactStore}
    (new : NewTo tenant candidate facts) {fact : Fact} (own : fact.tenant = tenant)
    (sameContent : fact.content = candidate.content)
    (sameType : fact.memoryType = candidate.memoryType) (other : Fact)
    (active : facts.Active other) : ¬ SaysTheSame other fact := by
  intro same
  apply new other active (same.tenant.trans own) (same.memoryType.trans sameType)
  rw [← sameContent]
  exact same.content.symm

theorem applyAdd_keepsDistinct (candidate : CandidateFact)
    (precomputedEmbedding : Option (List ℚ)) (distinct : DistinctMemories world)
    (new : NewTo tenant candidate world.facts) :
    KeepsDistinct platform (applyAdd tenant candidate precomputedEmbedding)
      (fun _ final => DistinctMemories final) world := by
  apply (secures_bind _ _ _ _ _ _).mpr
  apply secures_candidateToFact candidate distinct
  intro fact own sameContent sameType
  apply (secures_bind _ _ _ _ _ _).mpr
  apply secures_facts (.insertFact tenant fact)
  · exact fun _ _ _ => distinct
  · intro error failed
    simp only [MockFactStore.serve, world.facts.insertFact_error tenant fact error failed]
    exact distinct
  intro (inserted : Fact) served
  obtain ⟨rfl, _, _, stored⟩ := world.facts.insertFact_ok tenant fact inserted served
  simp only [MockFactStore.serve, stored]
  apply shrinking_keepsDistinct
  · exact .bind (upsertFactVector_shrinking inserted precomputedEmbedding) fun _ => .pure _
  · exact distinct.put (new.says_new own sameContent sameType)

theorem applyUpdate_keepsDistinct (candidate : CandidateFact) (targetFactId : Uuid)
    (distinct : DistinctMemories world) (new : NewTo tenant candidate world.facts) :
    KeepsDistinct platform (applyUpdate tenant candidate targetFactId)
      (fun _ final => DistinctMemories final) world := by
  apply (secures_bind _ _ _ _ _ _).mpr
  apply secures_requireFact targetFactId distinct
  intro existing active own sameTarget
  apply (secures_bind _ _ _ _ _ _).mpr
  apply secures_mergeCandidateIntoFact existing candidate distinct
  intro updated sameId sameTenant sameContent sameType
  apply (secures_bind _ _ _ _ _ _).mpr
  apply secures_facts (.updateFact tenant updated)
  · exact fun _ _ _ => distinct
  · intro error failed
    simp only [MockFactStore.serve, world.facts.updateFact_error tenant updated error failed]
    exact distinct
  intro (stored : Fact) served
  obtain ⟨rfl, _, storedAs⟩ := world.facts.updateFact_ok tenant updated stored served
  simp only [MockFactStore.serve, storedAs]
  apply shrinking_keepsDistinct
  · exact .bind (.bind (deleteVectorIfPresent_shrinking stored.id) fun _ =>
      upsertFactVector_shrinking stored none) fun _ => .pure _
  · exact distinct.put (new.says_new (sameTenant.trans own) sameContent sameType)

theorem applyFactOperation_keepsDistinct (candidate : CandidateFact)
    (decision : FactOperationDecision) (precomputedEmbedding : Option (List ℚ))
    (distinct : DistinctMemories world) (new : NewTo tenant candidate world.facts) :
    KeepsDistinct platform (applyFactOperation tenant candidate decision precomputedEmbedding)
      (fun _ final => DistinctMemories final) world := by
  apply (secures_bind _ _ _ _ _ _).mpr
  apply secures_check distinct
  intro operation _
  cases operation with
  | add => exact applyAdd_keepsDistinct candidate precomputedEmbedding distinct new
  | update targetFactId => exact applyUpdate_keepsDistinct candidate targetFactId distinct new
  | delete targetFactId => exact shrinking_keepsDistinct (applyDelete_shrinking _) distinct
  | noOp => exact (secures_pure _ _ _ _ _).mpr distinct

variable (engine : MemoryEngine)

theorem embedAndApply_keepsDistinct (input : AddMemoryInput) (output : AddMemoryOutput)
    (candidate : CandidateFact) (distinct : DistinctMemories world)
    (new : NewTo input.tenant candidate world.facts) :
    KeepsDistinct platform (embedAndApply engine input output candidate)
      (fun _ final => DistinctMemories final) world := by
  apply (secures_bind _ _ _ _ _ _).mpr
  apply secures_provider (.embedText candidate.content) distinct
  intro (embedding : List ℚ)
  apply (secures_bind _ _ _ _ _ _).mpr
  apply secures_quiet (detectEmbeddingDuplicate_within _ _ _)
  intro outcome after same
  have later : DistinctMemories after := by
    show Distinct after.facts
    rw [same.facts]
    exact distinct
  have stillNew : NewTo input.tenant candidate after.facts := same.facts ▸ new
  cases outcome with
  | error error => exact later
  | ok duplicate =>
    show KeepsDistinct platform _ _ after
    split
    · exact shrinking_keepsDistinct
        ((skipDuplicate_within engine output _ _).mono quietCall_shrinking) later
    · apply (secures_bind _ _ _ _ _ _).mpr
      apply secures_searchFacts _ later
      intro _ related _ _
      apply (secures_bind _ _ _ _ _ _).mpr
      apply secures_provider (.classifyFactOperation _ _ _) later
      intro decision
      apply (secures_bind _ _ _ _ _ _).mpr
      refine (applyFactOperation_keepsDistinct candidate decision _ later stillNew).mono
        worldSpec_monotone fun result final applied => ?_
      exact shrinking_keepsDistinct
        ((countResult_within engine input output decision result).mono quietCall_shrinking) applied

/-- The candidate that is stored has been compared with all facts of its type. -/
theorem addCandidate_keepsDistinct (input : AddMemoryInput) (output : AddMemoryOutput)
    (extracted : CandidateFact) (distinct : DistinctMemories world) :
    KeepsDistinct platform (addCandidate engine input output extracted)
      (fun _ final => DistinctMemories final) world := by
  apply (secures_bind _ _ _ _ _ _).mpr
  apply secures_check distinct
  intro _ _
  show KeepsDistinct platform (if _ then _ else _) _ world
  split
  · exact (secures_pure _ _ _ _ _).mpr distinct
  · apply (secures_bind _ _ _ _ _ _).mpr
    apply secures_searchFacts _ distinct
    intro choice existing compares served
    split
    · exact shrinking_keepsDistinct
        ((skipDuplicate_within engine output _ _).mono quietCall_shrinking) distinct
    · rename_i noDuplicate
      apply embedAndApply_keepsDistinct engine input output _ distinct
      intro fact active own sameType
      have listed := mem_searchFacts_dedupQuery (compares rfl) served active own sameType
      exact detectDuplicateFrom_distinct _ none existing noDuplicate listed sameType

theorem addCandidates_keepsDistinct (input : AddMemoryInput) (output : AddMemoryOutput)
    (candidates : List CandidateFact) (distinct : DistinctMemories world) :
    KeepsDistinct platform (addCandidates engine input output candidates)
      (fun _ final => DistinctMemories final) world := by
  induction candidates generalizing output world with
  | nil => exact (secures_pure _ _ _ _ _).mpr distinct
  | cons candidate candidates inductionHypothesis =>
    apply (secures_bind _ _ _ _ _ _).mpr
    refine (addCandidate_keepsDistinct engine input output candidate distinct).mono
      worldSpec_monotone ?_
    exact fun output _ later => inductionHypothesis output later

theorem addMemory_keepsDistinct (input : AddMemoryInput) (distinct : DistinctMemories world) :
    KeepsDistinct platform (addMemory engine input) (fun _ final => DistinctMemories final)
      world := by
  apply (secures_bind _ _ _ _ _ _).mpr
  apply secures_check distinct
  intro _ _
  apply (secures_bind _ _ _ _ _ _).mpr
  apply secures_check distinct
  intro _ _
  apply (secures_bind _ _ _ _ _ _).mpr
  refine (shrinking_keepsDistinct (bindUsageAttribution_within engine trivial)
    distinct).mono worldSpec_monotone ?_
  intro _ later distinct
  apply (secures_bind _ _ _ _ _ _).mpr
  apply secures_provider (.extractFacts _ _ _) distinct
  intro candidates
  apply (secures_bind _ _ _ _ _ _).mpr
  refine (addCandidates_keepsDistinct engine input _ candidates distinct).mono
    worldSpec_monotone ?_
  intro output final distinct
  split
  · apply shrinking_keepsDistinct _ distinct
    exact .bind (invalidateUserContextCache_shrinking engine) fun _ => .pure _
  · exact (secures_pure _ _ _ _ _).mpr distinct

end Programs

/-! ## No duplicates -/

/-- The operations that add and remove memories one at a time or by age. -/
def RemembersOrForgets : EngineOperation → Prop
  | .addMemory _ | .deleteMemory _ | .applyRetention _ | .forgetUser _ => True
  | _ => False

theorem operation_keepsDistinct {platform : Platform} {world : World} (engine : MemoryEngine)
    (operation : EngineOperation) (remembers : RemembersOrForgets operation)
    (distinct : DistinctMemories world) :
    KeepsDistinct platform (operation.program engine) (fun _ final => DistinctMemories final)
      world := by
  cases operation with
  | addMemory input =>
    apply (secures_bind _ _ _ _ _ _).mpr
    exact (addMemory_keepsDistinct engine input distinct).mono worldSpec_monotone
      fun _ _ later => (secures_pure _ _ _ _ _).mpr later
  | deleteMemory input =>
    exact shrinking_keepsDistinct (.bind (deleteMemory_shrinking engine input) fun _ => .pure _)
      distinct
  | applyRetention input =>
    exact shrinking_keepsDistinct (.bind (applyRetention_shrinking engine input) fun _ => .pure _)
      distinct
  | forgetUser input =>
    exact shrinking_keepsDistinct (.bind (forgetUser_shrinking engine input) fun _ => .pure _)
      distinct
  | _ => exact remembers.elim

/-- As long as the facts of the type that each comparison is about fit on the page of its
search, no two active facts of a tenant with the same type have the same normalized
content, whatever fails on the way. -/
theorem no_duplicate_memories (engine : MemoryEngine) (operations : List EngineOperation)
    (world : World) (remember : ∀ operation ∈ operations, RemembersOrForgets operation)
    (session : Session engine comparesAll operations world) (left right : Fact)
    (leftActive : world.facts.Active left) (rightActive : world.facts.Active right)
    (sameTenant : left.tenant = right.tenant) (sameType : left.memoryType = right.memoryType)
    (sameContent : normalizeContent left.content = normalizeContent right.content) :
    left = right := by
  have distinct : DistinctMemories world := by
    apply session.invariant remember DistinctMemories (fun _ => distinct_empty)
    intro operation before remembers distinct
    apply Ensures.mono worldSpec_monotone
      ((secures_iff _ _ _ _ _).mp (operation_keepsDistinct engine operation remembers distinct))
    intro outcome final ended
    cases outcome <;> exact ended
  exact distinct left right leftActive rightActive ⟨sameTenant, sameType, sameContent⟩

/-! ## One fact too many -/

theorem no_duplicate_memories_sample : ∃ world,
    Session .wordsOnly comparesAll [sampleAdd] world ∧ world.facts.activeFacts.length = 3 ∧
      ∀ left right, world.facts.Active left → world.facts.Active right →
        left.tenant = right.tenant → left.memoryType = right.memoryType →
          normalizeContent left.content = normalizeContent right.content → left = right := by
  obtain ⟨world, session, three⟩ := @exists_session_of_replay .wordsOnly comparesAll _ 1000
    [(sampleAdd, lettersChoices [0, 1, 2])]
    (fun world => decide (world.facts.activeFacts.length = 3)) (by decide +kernel)
  refine ⟨world, session, of_decide_eq_true three, ?_⟩
  apply no_duplicate_memories .wordsOnly _ world _ session
  intro operation member
  have only : operation = sampleAdd := by simpa using member
  rw [only]
  trivial

/-- Of fifty-two facts the search returns the fifty-one that were changed last, so the
statement of the first one is stored again. -/
theorem repeated_memory_unnoticed : ∃ world,
    Session .wordsOnly undisturbed [sampleAdd] world ∧
      decide ((world.facts.activeFacts.filter fun fact =>
        decide (fact.content = (letterCandidate 0).content)).length = 2) = true :=
  @exists_session_of_replay .wordsOnly undisturbed _ 1000
    [(sampleAdd, lettersChoices (List.range 52 ++ [0]))] _ (by decide +kernel)

end Memcore
