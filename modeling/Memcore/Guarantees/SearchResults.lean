import Memcore.Engine.RankFusion
import Memcore.Guarantees.StoresInStep

/-!
# The results of a search

A search joins the hits of two stores. When the stores are in step, every hit is about one
active fact of the tenant, and every result is that fact with its scores. Both stores apply
the tenant and the memory types. The metadata filter is given to the vector store only, so
a fact that the keyword search finds is returned whatever its metadata, if it ranks high
enough.
-/
namespace Memcore

open KeyedTables Pages Ports Programs

/-- The fact stored under an identifier, as the search looks it up: among the keyword hits, or
else in the store. -/
def lookedUp (facts : MockFactStore) (tenant : TenantContext) (keywordFacts : List Fact)
    (factId : Uuid) : Option Fact :=
  match keywordFacts.find? fun fact => decide (fact.id = factId) with
  | some fact => some fact
  | none => (facts.getFact tenant factId).1.toOption.join

/-- The hits of the vector store for an embedding of the query. -/
def vectorHits (engine : MemoryEngine) (vectors : MockVectorStore) (input : SearchMemoryInput)
    (embedding : List ℚ) : List VectorSearchResult :=
  (vectors.searchVectors engine.platform.cosineSimilarity ⟨input.tenant, embedding,
    internalSearchLimit input.limit, input.memoryTypes, input.metadataFilter⟩).1.toOption.getD []

/-- The hits of the fact store for the words of the query. -/
def keywordHits (facts : MockFactStore) (input : SearchMemoryInput) : List Fact :=
  (facts.searchFacts ⟨input.tenant, input.memoryTypes, some input.query,
    internalSearchLimit input.limit, none, false⟩).1.toOption.getD []

/-- The fused hits of both. -/
def fusedHits (engine : MemoryEngine) (facts : MockFactStore) (vectors : MockVectorStore)
    (input : SearchMemoryInput) (embedding : List ℚ) : List (Uuid × ℚ) :=
  reciprocalRankFusion
    (rankedFrom 1 ((vectorHits engine vectors input embedding).map VectorSearchResult.factId))
    (rankedFrom 1 ((keywordHits facts input).map Fact.id)) engine.rrfConfig

/-- The fused hits with the facts they are about and their scores. -/
def candidates (engine : MemoryEngine) (facts : MockFactStore) (vectors : MockVectorStore)
    (input : SearchMemoryInput) (embedding : List ℚ) (now : Instant) : List ScoredResult :=
  (fusedHits engine facts vectors input embedding).filterMap fun entry =>
    (lookedUp facts input.tenant (keywordHits facts input) entry.1).map fun fact =>
      scoreFact engine (vectorHits engine vectors input embedding) now fact entry.2

attribute [grind =] lookedUp vectorHits keywordHits fusedHits candidates

section Runs

variable {engine : MemoryEngine} {admits : World → Port → Choice → Prop} {world final : World}
  {trace : List EngineEvent} {α β : Type}

/-- A run that returns has passed its check. -/
theorem runs_of_check {outcome : MemcoreResult α} {next : α → EngineProgram β} {value : β}
    (run : Runs (engineServer engine.platform) admits (Program.check outcome >>= next) world trace
      (.ok value) final) :
    ∃ checked, outcome = .ok checked ∧
      Runs (engineServer engine.platform) admits (next checked) world trace (.ok value) final := by
  obtain ⟨_, failed, _⟩ | ⟨checked, middle, before, after, rfl, first, second⟩ := run.of_bind
  · nomatch failed
  · obtain ⟨rfl, passed, rfl⟩ := first.of_check
    exact ⟨checked, passed.symm, second⟩

/-- A run that returns has had an answer to its first call. -/
theorem runs_of_perform {port : Port} {next : port.Answer → EngineProgram β} {value : β}
    (run : Runs (engineServer engine.platform) admits (perform port >>= next) world trace
      (.ok value) final) :
    ∃ choice answer later, trace = ⟨port, .ok answer⟩ :: later ∧
      (World.serve engine.platform choice port world).1 = .ok answer ∧
      Runs (engineServer engine.platform) admits (next answer)
        (World.serve engine.platform choice port world).2 later (.ok value) final := by
  obtain ⟨_, failed, _⟩ | ⟨answer, middle, before, later, rfl, first, second⟩ := run.of_bind
  · nomatch failed
  · obtain ⟨choice, _, _, rfl, answered, rfl⟩ := first.of_call
    exact ⟨choice, answer, later, rfl, answered.symm, second⟩

/-- A call that is answered has not been disturbed. -/
theorem answered_unlessFault {choice : Choice} {served : MemcoreResult α × World} {answer : α}
    (answered : (World.unlessFault choice world served).1 = .ok answer) :
    World.unlessFault choice world served = served := by
  unfold World.unlessFault at answered ⊢
  cases fault : choice.fault with
  | none => rfl
  | some error => simp [fault] at answered

/-- Searching the vector store changes nothing. -/
theorem serve_searchVectors {choice : Choice} {query : VectorSearchQuery}
    {answer : List VectorSearchResult}
    (answered : (World.serve engine.platform choice (.vectors (.searchVectors query)) world).1 =
      .ok answer) :
    (world.vectors.searchVectors engine.platform.cosineSimilarity query).1 = .ok answer ∧
      (World.serve engine.platform choice (.vectors (.searchVectors query)) world).2 = world := by
  have undisturbed := answered_unlessFault answered
  rw [World.serve, undisturbed] at answered ⊢
  exact ⟨answered, rfl⟩

theorem serve_searchFacts {choice : Choice} {query : FactSearchQuery} {answer : List Fact}
    (answered : (World.serve engine.platform choice (.facts (.searchFacts query)) world).1 =
      .ok answer) :
    (world.facts.searchFacts query).1 = .ok answer ∧
      (World.serve engine.platform choice (.facts (.searchFacts query)) world).2 = world := by
  have undisturbed := answered_unlessFault answered
  rw [World.serve, undisturbed] at answered ⊢
  exact ⟨answered, rfl⟩

theorem serve_getFact {choice : Choice} {tenant : TenantContext} {factId : Uuid}
    {answer : Option Fact}
    (answered : (World.serve engine.platform choice (.facts (.getFact tenant factId)) world).1 =
      .ok answer) :
    (world.facts.getFact tenant factId).1 = .ok answer ∧
      (World.serve engine.platform choice (.facts (.getFact tenant factId)) world).2 = world := by
  have undisturbed := answered_unlessFault answered
  rw [World.serve, undisturbed] at answered ⊢
  refine ⟨answered, ?_⟩
  show { world with facts := (world.facts.getFact tenant factId).2 } = world
  rw [world.facts.getFact_snd]

/-- Looking a fact up changes nothing. -/
theorem runs_findFact {tenant : TenantContext} {keywordFacts : List Fact} {factId : Uuid}
    {found : Option Fact}
    (run : Runs (engineServer engine.platform) admits (findFact tenant keywordFacts factId) world
      trace (.ok found) final) :
    found = lookedUp world.facts tenant keywordFacts factId ∧ final = world := by
  unfold findFact at run
  unfold lookedUp
  cases hit : keywordFacts.find? fun fact => decide (fact.id = factId) with
  | some fact =>
    rw [hit] at run
    cases run
    exact ⟨rfl, rfl⟩
  | none =>
    rw [hit] at run
    obtain ⟨choice, _, _, rfl, answered, rfl⟩ := run.of_call
    obtain ⟨served, same⟩ := @serve_getFact engine world choice tenant factId found answered.symm
    exact ⟨by rw [served]; rfl, same⟩

/-- Scoring the fused hits in turn gives those that are about a fact. -/
theorem runs_scoreFused {tenant : TenantContext} {vectorResults : List VectorSearchResult}
    {keywordFacts : List Fact} {now : Instant} {fused : List (Uuid × ℚ)}
    {scored : List ScoredResult}
    (run : Runs (engineServer engine.platform) admits
      (scoreFused engine tenant vectorResults keywordFacts now fused) world trace (.ok scored)
      final) :
    scored = fused.filterMap fun entry =>
      (lookedUp world.facts tenant keywordFacts entry.1).map fun fact =>
        scoreFact engine vectorResults now fact entry.2 := by
  induction fused generalizing world trace scored final with
  | nil =>
    cases run
    rfl
  | cons entry fused inductionHypothesis =>
    obtain ⟨_, failed, _⟩ | ⟨found, middle, before, after, rfl, first, second⟩ := run.of_bind
    · nomatch failed
    · obtain ⟨rfl, same⟩ := runs_findFact first
      rw [same] at second
      obtain ⟨_, failed, _⟩ | ⟨rest, middle', before', after', rfl, later, last⟩ := second.of_bind
      · nomatch failed
      · have laterScored := inductionHypothesis later
        rw [List.filterMap_cons]
        cases looked : lookedUp world.facts tenant keywordFacts entry.1 with
        | none =>
          rw [looked] at last
          cases last
          exact laterScored
        | some fact =>
          rw [looked] at last
          cases last
          rw [laterScored]
          rfl

theorem normalizeSearchLimit_ok {limit normalized : ℕ}
    (passed : normalizeSearchLimit limit = .ok normalized) : normalized = limit := by
  unfold normalizeSearchLimit normalizeLimit at passed
  split_ifs at passed
  exact (Except.ok.inj passed).symm

/-- What a search returns: the first candidates in their order. -/
theorem runs_searchMemory {input : SearchMemoryInput} {results : List MemorySearchResult}
    (run : Runs (engineServer engine.platform) admits (searchMemory engine input) world trace
      (.ok results) final) :
    ∃ embedding current, ⟨.provider (.embedText input.query), .ok embedding⟩ ∈ trace ∧
      ⟨.system .now, .ok current⟩ ∈ trace ∧
      results = (((candidates engine world.facts world.vectors input embedding
        current).insertionSort ScoredResult.comesFirst).take input.limit).map
          ScoredResult.result := by
  obtain ⟨_, _, run⟩ := runs_of_check run
  obtain ⟨_, _, run⟩ := runs_of_check run
  obtain ⟨_, failed, _⟩ | ⟨_, bound, before, after, rfl, binding, run⟩ := run.of_bind
  · nomatch failed
  have sameStores : bound.facts = world.facts ∧ bound.vectors = world.vectors := by
    unfold bindUsageAttribution at binding
    split at binding
    · obtain ⟨choice, _, _, _, _, rfl⟩ := binding.of_call
      exact ⟨rfl, rfl⟩
    · cases binding
      exact ⟨rfl, rfl⟩
  obtain ⟨limit, normalized, run⟩ := runs_of_check run
  obtain rfl := normalizeSearchLimit_ok normalized
  obtain ⟨choice, embedding, later, rfl, answered, run⟩ := runs_of_perform run
  have embedded := answered_unlessFault answered
  rw [World.serve, embedded] at run
  obtain ⟨choice, hits, later, rfl, answered, run⟩ := runs_of_perform run
  obtain ⟨vectorAnswer, same⟩ := serve_searchVectors answered
  rw [same] at run
  obtain ⟨choice, keywords, later, rfl, answered, run⟩ := runs_of_perform run
  obtain ⟨factAnswer, same⟩ := serve_searchFacts answered
  rw [same] at run
  obtain ⟨choice, current, later, rfl, answered, run⟩ := runs_of_perform run
  obtain ⟨_, failed, _⟩ | ⟨scored, _, _, _, rfl, scoring, run⟩ := run.of_bind
  · nomatch failed
  have scoredIs := runs_scoreFused scoring
  cases run
  refine ⟨embedding, current, by simp, by simp, ?_⟩
  rw [sameStores.2] at vectorAnswer
  rw [sameStores.1] at factAnswer
  have hitsAre : vectorHits engine world.vectors input embedding = hits := by
    rw [vectorHits, vectorAnswer]
    rfl
  have keywordsAre : keywordHits world.facts input = keywords := by
    rw [keywordHits, factAnswer]
    rfl
  have sameFacts : (World.serve engine.platform choice (.system .now) bound).2.facts = world.facts :=
    sameStores.1
  rw [scoredIs, sameFacts, candidates, fusedHits, hitsAre, keywordsAre]

end Runs

/-! ## Facts and their standing -/

/-- Whether a fact has one of the memory types asked for. -/
def ofTypes (input : SearchMemoryInput) (fact : Fact) : Bool :=
  input.memoryTypes.all fun types => decide (fact.memoryType ∈ types)

/-- Whether a fact passes the metadata filter. -/
def passesFilter (input : SearchMemoryInput) (fact : Fact) : Bool :=
  input.metadataFilter.all (metadataMatches fact.metadata)

/-- The similarity of a fact that the vector store reports, or nothing. -/
def similarity (hits : List VectorSearchResult) (factId : Uuid) : ℚ :=
  ((hits.find? fun hit => decide (hit.factId = factId)).map VectorSearchResult.score).getD 0

/-- The sum of the weighted contributions of both lists of hits. -/
def fusedScore (engine : MemoryEngine) (facts : MockFactStore) (vectors : MockVectorStore)
    (input : SearchMemoryInput) (embedding : List ℚ) (factId : Uuid) : ℚ :=
  let config := engine.rrfConfig.normalized
  contribution (rankedFrom 1 ((vectorHits engine vectors input embedding).map
      VectorSearchResult.factId)) config.k config.semanticWeight factId +
    contribution (rankedFrom 1 ((keywordHits facts input).map Fact.id)) config.k
      config.keywordWeight factId

/-- A fact as a result, with the scores it is ranked by. -/
def standing (engine : MemoryEngine) (facts : MockFactStore) (vectors : MockVectorStore)
    (input : SearchMemoryInput) (embedding : List ℚ) (now : Instant) (fact : Fact) : ScoredResult where
  result := ⟨fact.id, fact.content, fact.memoryType,
    fusedScore engine facts vectors input embedding fact.id, fact.confidence, fact.importance,
    fact.validAt, fact.metadata⟩
  weighted := weightedScoreFor (similarity (vectorHits engine vectors input embedding) fact.id) fact
    now engine.rankingConfig
  updatedAt := fact.updatedAt

/-- The results that were asked for: at most so many, each fact once, each an active fact of
the tenant that passes both filters, in the order of their scores. -/
structure AsAsked (engine : MemoryEngine) (world : World) (input : SearchMemoryInput)
    (embedding : List ℚ) (now : Instant) (results : List MemorySearchResult) : Prop where
  short : results.length ≤ input.limit
  distinct : (results.map MemorySearchResult.factId).Nodup
  ranked : ∃ facts : List Fact,
    results = facts.map (fun fact =>
      (standing engine world.facts world.vectors input embedding now fact).result) ∧
    (∀ fact ∈ facts, world.facts.Active fact ∧ fact.tenant = input.tenant ∧
      ofTypes input fact = true ∧ passesFilter input fact = true) ∧
    (facts.map (standing engine world.facts world.vectors input embedding now)).Pairwise
      ScoredResult.comesFirst

/-- Whether one of the stores hits a fact. -/
def isFound (engine : MemoryEngine) (world : World) (input : SearchMemoryInput)
    (embedding : List ℚ) (fact : Fact) : Bool :=
  decide (fact.id ∈ (vectorHits engine world.vectors input embedding).map VectorSearchResult.factId) ||
    decide (fact.id ∈ (keywordHits world.facts input).map Fact.id)

/-- How many of the facts that are hit are ranked before a fact. -/
def rankedBefore (engine : MemoryEngine) (world : World) (input : SearchMemoryInput)
    (embedding : List ℚ) (now : Instant) (fact : Fact) : ℕ :=
  let stands := standing engine world.facts world.vectors input embedding now
  world.facts.activeFacts.countP fun other => isFound engine world input embedding other &&
    decide (other.id ≠ fact.id) && decide ((stands other).comesFirst (stands fact))

/-- Each hit of the keyword search that does not pass the metadata filter is ranked behind as
many facts as are asked for. -/
def FilterKept (engine : MemoryEngine) (world : World) (input : SearchMemoryInput)
    (embedding : List ℚ) (now : Instant) : Prop :=
  ∀ fact ∈ keywordHits world.facts input, passesFilter input fact = false →
    input.limit ≤ rankedBefore engine world input embedding now fact

/-- What results are sorted by. -/
def scoreKey (entry : ScoredResult) : ℚ ×ₗ ℚ ×ₗ Instant ×ₗ Uuidᵒᵈ :=
  toLex (entry.result.score, toLex (entry.weighted, toLex (entry.updatedAt,
    OrderDual.toDual entry.result.factId)))

theorem scored_comesFirst_iff (left right : ScoredResult) :
    left.comesFirst right ↔ scoreKey right ≤ scoreKey left := by
  rw [scoreKey, scoreKey, Prod.Lex.toLex_le_toLex, Prod.Lex.toLex_le_toLex,
    Prod.Lex.toLex_le_toLex]
  exact Iff.rfl

theorem scoreKey_factId {left right : ScoredResult} (same : scoreKey left = scoreKey right) :
    left.result.factId = right.result.factId := by
  have first := (Prod.mk.inj (toLex_inj.mp same)).2
  have second := (Prod.mk.inj (toLex_inj.mp first)).2
  exact OrderDual.toDual_inj.mp (Prod.mk.inj (toLex_inj.mp second)).2

theorem nodup_scoreKey {entries : List ScoredResult}
    (distinct : (entries.map fun entry => entry.result.factId).Nodup) :
    (entries.map scoreKey).Nodup := by
  rw [List.nodup_iff_pairwise_ne, List.pairwise_map] at distinct ⊢
  exact distinct.imp fun different same => different (scoreKey_factId same)

section Hits

variable {engine : MemoryEngine} {world : World} {input : SearchMemoryInput}
  {embedding : List ℚ} {now : Instant}

/-- A keyword hit is an active fact of the tenant of one of the types asked for. -/
theorem keywordHits_own {fact : Fact} (member : fact ∈ keywordHits world.facts input) :
    world.facts.Active fact ∧ fact.tenant = input.tenant ∧ ofTypes input fact = true := by
  have stored := (List.mem_insertionSort _).mp (List.mem_of_mem_take member)
  obtain ⟨row, matched⟩ := List.mem_filter.mp stored
  simp only [MockFactStore.matchesQuery, MockFactStore.isDeleted, Bool.and_eq_true,
    decide_eq_true_eq, Bool.false_or, Bool.not_eq_true', decide_eq_false_iff_not] at matched
  exact ⟨⟨row, matched.2.1.1.1⟩, matched.1, matched.2.1.1.2⟩

/-- A vector hit is about a record of the tenant that passes both filters. -/
theorem vectorHits_own {hit : VectorSearchResult}
    (member : hit ∈ vectorHits engine world.vectors input embedding) :
    ∃ record ∈ world.vectors.rows, record.tenant = input.tenant ∧
      (input.memoryTypes.all fun types => decide (record.memoryType ∈ types)) = true ∧
      input.metadataFilter.all (metadataMatches record.metadata) = true ∧
      hit.factId = record.factId ∧ hit.content = record.content ∧
      hit.metadata = record.metadata := by
  have scored := (List.mem_insertionSort _).mp (List.mem_of_mem_take member)
  obtain ⟨record, wanted, rfl⟩ := List.mem_map.mp scored
  obtain ⟨stored, matched⟩ := List.mem_filter.mp wanted
  simp only [Bool.and_eq_true, decide_eq_true_eq] at matched
  exact ⟨record, stored, matched.1.1, matched.1.2, matched.2, rfl, rfl, rfl⟩

/-- In step, a vector hit is about an active fact of the tenant that passes both filters, and
states what the fact states. -/
theorem vectorHits_fact (inStep : InStep world) {hit : VectorSearchResult}
    (member : hit ∈ vectorHits engine world.vectors input embedding) :
    ∃ fact, world.facts.Active fact ∧ fact.tenant = input.tenant ∧ ofTypes input fact = true ∧
      passesFilter input fact = true ∧ hit.factId = fact.id ∧ hit.content = fact.content ∧
      hit.metadata = fact.metadata := by
  obtain ⟨record, stored, own, types, filtered, sameId, content, metadata⟩ := vectorHits_own member
  obtain ⟨fact, active, ofRecord, sameTenant⟩ := inStep.owned record stored id
  obtain ⟨other, otherStored, carries⟩ := inStep.recorded fact active id
  obtain rfl := inStep.single record stored other otherStored id
    (ofRecord.symm.trans carries.factId.symm)
  refine ⟨fact, active, sameTenant.trans own, ?_, ?_, sameId.trans carries.factId,
    content.trans carries.content, metadata.trans carries.metadata⟩
  · rw [ofTypes, ← carries.memoryType]
    exact types
  · rw [passesFilter, ← carries.metadata]
    exact filtered

/-- In step, the vector store hits each fact once. -/
theorem nodup_vectorHits (inStep : InStep world) :
    ((vectorHits engine world.vectors input embedding).map VectorSearchResult.factId).Nodup := by
  have records : (world.vectors.rows.map VectorRecord.factId).Nodup := by
    have rows : world.vectors.rows.Nodup := world.vectors.distinct.of_map VectorRecord.id
    apply rows.map_on
    intro left leftStored right rightStored same
    exact inStep.single left leftStored right rightStored id same
  apply List.Nodup.sublist ((List.take_sublist _ _).map VectorSearchResult.factId)
  apply ((List.perm_insertionSort _ _).map VectorSearchResult.factId).nodup_iff.mpr
  rw [List.map_map]
  exact records.sublist (List.filter_sublist.map VectorRecord.factId)

/-- The keyword search finds each fact once. -/
theorem nodup_keywordHits : ((keywordHits world.facts input).map Fact.id).Nodup := by
  apply List.Nodup.sublist ((List.take_sublist _ _).map Fact.id)
  apply ((List.perm_insertionSort _ _).map Fact.id).nodup_iff.mpr
  exact world.facts.facts.distinct.sublist (List.filter_sublist.map Fact.id)

/-! ## The candidates -/

theorem find?_reverse_hits {hits : List VectorSearchResult}
    (distinct : (hits.map VectorSearchResult.factId).Nodup) (factId : Uuid) :
    hits.reverse.find? (fun hit => decide (hit.factId = factId)) =
      hits.find? fun hit => decide (hit.factId = factId) := by
  induction hits with
  | nil => rfl
  | cons hit hits inductionHypothesis =>
    obtain ⟨fresh, distinct⟩ := List.nodup_cons.mp distinct
    rw [List.reverse_cons, List.find?_append, inductionHypothesis distinct]
    by_cases same : hit.factId = factId
    · have others : hits.find? (fun hit => decide (hit.factId = factId)) = none := by
        rw [List.find?_eq_none]
        intro other member otherSame
        apply fresh
        rw [same, ← of_decide_eq_true otherSame]
        exact List.mem_map_of_mem member
      rw [others, List.find?_cons_of_pos (by simpa using same),
        List.find?_cons_of_pos (by simpa using same)]
      rfl
    · rw [List.find?_cons_of_neg (by simpa using same), List.find?_cons_of_neg (by simpa using same)]
      simp

/-- An active fact of the tenant is found by its identifier. -/
theorem lookedUp_active {fact : Fact} (active : world.facts.Active fact)
    (own : fact.tenant = input.tenant) :
    lookedUp world.facts input.tenant (keywordHits world.facts input) fact.id = some fact := by
  unfold lookedUp
  cases hit : (keywordHits world.facts input).find? fun other => decide (other.id = fact.id) with
  | some other =>
    obtain ⟨otherActive, _, _⟩ := keywordHits_own (List.mem_of_find?_eq_some hit)
    obtain rfl := otherActive.unique active (by simpa using List.find?_some hit)
    rfl
  | none =>
    rw [(world.facts.getFact_some input.tenant fact.id fact).mpr ⟨active, own, rfl⟩]
    rfl

theorem map_factId_rankedFrom (rank : ℕ) (factIds : List Uuid) :
    (rankedFrom rank factIds).map RankedCandidate.factId = factIds := by
  induction factIds generalizing rank with
  | nil => rfl
  | cons factId factIds inductionHypothesis =>
    rw [rankedFrom, List.map_cons, inductionHypothesis]

/-- The fused hits are about the hits of both stores, each fact once. -/
theorem mem_fusedHits (factId : Uuid) :
    factId ∈ (fusedHits engine world.facts world.vectors input embedding).map Prod.fst ↔
      factId ∈ (vectorHits engine world.vectors input embedding).map VectorSearchResult.factId ∨
        factId ∈ (keywordHits world.facts input).map Fact.id := by
  have ordered := (reciprocalRankFusion_perm (rankedFrom 1 ((vectorHits engine world.vectors input
    embedding).map VectorSearchResult.factId)) (rankedFrom 1 ((keywordHits world.facts input).map
    Fact.id)) engine.rrfConfig).map Prod.fst
  rw [fusedHits, ordered.mem_iff, factIds_fusedEntries, List.mem_dedup, List.map_append,
    map_factId_rankedFrom, map_factId_rankedFrom, List.mem_append]

theorem nodup_fusedHits :
    ((fusedHits engine world.facts world.vectors input embedding).map Prod.fst).Nodup := by
  have ordered := (reciprocalRankFusion_perm (rankedFrom 1 ((vectorHits engine world.vectors input
    embedding).map VectorSearchResult.factId)) (rankedFrom 1 ((keywordHits world.facts input).map
    Fact.id)) engine.rrfConfig).map Prod.fst
  rw [fusedHits, ordered.nodup_iff, factIds_fusedEntries]
  exact List.nodup_dedup _

/-- What is known of a fact that a search finds. -/
structure IsHit (world : World) (input : SearchMemoryInput) (fact : Fact) : Prop where
  active : world.facts.Active fact
  own : fact.tenant = input.tenant
  types : ofTypes input fact = true
  filtered : passesFilter input fact = false → fact ∈ keywordHits world.facts input

/-- In step, a fused hit is about a fact that is found. -/
theorem fusedHit_fact (inStep : InStep world) {entry : Uuid × ℚ}
    (member : entry ∈ fusedHits engine world.facts world.vectors input embedding) :
    ∃ fact, IsHit world input fact ∧ fact.id = entry.1 := by
  have either := (@mem_fusedHits engine world input embedding entry.1).mp
    (List.mem_map_of_mem member)
  obtain hit | hit := either
  · obtain ⟨hit, isHit, sameId⟩ := List.mem_map.mp hit
    obtain ⟨fact, active, own, types, filtered, hitId, _⟩ := vectorHits_fact inStep isHit
    refine ⟨fact, ⟨active, own, types, ?_⟩, hitId.symm.trans sameId⟩
    intro unfiltered
    rw [filtered] at unfiltered
    nomatch unfiltered
  · obtain ⟨fact, isHit, sameId⟩ := List.mem_map.mp hit
    obtain ⟨active, own, types⟩ := keywordHits_own isHit
    exact ⟨fact, ⟨active, own, types, fun _ => isHit⟩, sameId⟩

/-- In step, the score of a fact that is found is its standing. -/
theorem scoreFact_eq (inStep : InStep world) {fact : Fact} (active : world.facts.Active fact)
    {score : ℚ}
    (member : (fact.id, score) ∈ fusedHits engine world.facts world.vectors input embedding) :
    scoreFact engine (vectorHits engine world.vectors input embedding) now fact score =
      standing engine world.facts world.vectors input embedding now fact := by
  have sum : score = fusedScore engine world.facts world.vectors input embedding fact.id :=
    ((mem_fusedEntries _ _ _ _).mp ((reciprocalRankFusion_perm _ _ _).mem_iff.mp member)).2
  rw [scoreFact, standing, similarity, find?_reverse_hits (nodup_vectorHits inStep), sum]
  cases found : (vectorHits engine world.vectors input embedding).find? fun hit =>
      decide (hit.factId = fact.id) with
  | none => rfl
  | some hit =>
    obtain ⟨other, otherActive, _, _, _, sameId, content, metadata⟩ :=
      vectorHits_fact inStep (List.mem_of_find?_eq_some found)
    have hitId : hit.factId = fact.id := by simpa using List.find?_some found
    obtain rfl := otherActive.unique active (sameId.symm.trans hitId)
    simp [content, metadata]

/-- In step, the candidates are the standings of the facts that are found. -/
theorem candidates_eq (inStep : InStep world) :
    ∃ facts : List Fact,
      candidates engine world.facts world.vectors input embedding now =
        facts.map (standing engine world.facts world.vectors input embedding now) ∧
      facts.map Fact.id =
        (fusedHits engine world.facts world.vectors input embedding).map Prod.fst ∧
      ∀ fact ∈ facts, IsHit world input fact := by
  have each : ∀ fused : List (Uuid × ℚ),
      (∀ entry ∈ fused, entry ∈ fusedHits engine world.facts world.vectors input embedding) →
      ∃ facts : List Fact,
        (fused.filterMap fun entry =>
          (lookedUp world.facts input.tenant (keywordHits world.facts input) entry.1).map fun fact =>
            scoreFact engine (vectorHits engine world.vectors input embedding) now fact entry.2) =
          facts.map (standing engine world.facts world.vectors input embedding now) ∧
        facts.map Fact.id = fused.map Prod.fst ∧ ∀ fact ∈ facts, IsHit world input fact := by
    intro fused
    induction fused with
    | nil => exact fun _ => ⟨[], rfl, rfl, by simp⟩
    | cons entry fused inductionHypothesis =>
      intro members
      obtain ⟨facts, scored, ids, hits⟩ :=
        inductionHypothesis fun other member => members other (List.mem_cons_of_mem _ member)
      obtain ⟨fact, isHit, sameId⟩ := fusedHit_fact inStep (members entry List.mem_cons_self)
      obtain ⟨factId, score⟩ := entry
      obtain rfl : fact.id = factId := sameId
      have first := @scoreFact_eq engine world input embedding now inStep fact isHit.active score
        (members (fact.id, score) List.mem_cons_self)
      refine ⟨fact :: facts, ?_, ?_, ?_⟩
      · rw [List.filterMap_cons, lookedUp_active isHit.active isHit.own, List.map_cons, ← scored]
        simp only [Option.map_some, first]
      · rw [List.map_cons, List.map_cons, ids]
      · rintro other (_ | ⟨_, member⟩)
        · exact isHit
        · exact hits other member
  exact each _ fun _ member => member

/-- The facts of the candidates are the active facts that are hit. -/
theorem perm_activeFacts {facts : List Fact} (ids : facts.map Fact.id =
      (fusedHits engine world.facts world.vectors input embedding).map Prod.fst)
    (hits : ∀ fact ∈ facts, IsHit world input fact) :
    facts.Perm (world.facts.activeFacts.filter (isFound engine world input embedding)) := by
  have distinct : (facts.map Fact.id).Nodup := by
    rw [ids]
    exact nodup_fusedHits
  have distinctActive : world.facts.activeFacts.Nodup :=
    (world.facts.facts.distinct.of_map Fact.id).filter _
  rw [List.perm_ext_iff_of_nodup (distinct.of_map Fact.id) (distinctActive.filter _)]
  intro fact
  rw [List.mem_filter, MockFactStore.mem_activeFacts, isFound, Bool.or_eq_true, decide_eq_true_eq,
    decide_eq_true_eq, ← mem_fusedHits, ← ids]
  constructor
  · intro member
    exact ⟨(hits fact member).active, List.mem_map_of_mem member⟩
  · rintro ⟨active, isHit⟩
    obtain ⟨other, member, sameId⟩ := List.mem_map.mp isHit
    rwa [← (hits other member).active.unique active sameId]

/-- The place of a fact in the order of the candidates is told by how many are before it. -/
theorem countP_scoreKey {facts : List Fact} (ids : facts.map Fact.id =
      (fusedHits engine world.facts world.vectors input embedding).map Prod.fst)
    (hits : ∀ fact ∈ facts, IsHit world input fact) {fact : Fact} (member : fact ∈ facts) :
    ((facts.map (standing engine world.facts world.vectors input embedding now)).countP fun other =>
      decide (scoreKey (standing engine world.facts world.vectors input embedding now fact) <
        scoreKey other)) = rankedBefore engine world input embedding now fact := by
  rw [List.countP_map, (perm_activeFacts ids hits).countP_eq, List.countP_filter, rankedBefore]
  apply List.countP_congr
  intro other isActive
  simp only [Function.comp_apply, Bool.and_eq_true, decide_eq_true_eq, scored_comesFirst_iff]
  constructor
  · rintro ⟨lower, found⟩
    refine ⟨⟨found, fun sameId => ?_⟩, lower.le⟩
    obtain rfl := ((MockFactStore.mem_activeFacts _ _).mp isActive).unique
      (hits fact member).active sameId
    exact lt_irrefl _ lower
  · rintro ⟨⟨found, different⟩, lower⟩
    exact ⟨lt_of_le_of_ne lower fun same => different (scoreKey_factId same).symm, found⟩

/-- The standings of the facts that are hit, in their order. -/
def ranking (engine : MemoryEngine) (world : World) (input : SearchMemoryInput)
    (embedding : List ℚ) (now : Instant) (facts : List Fact) : List ScoredResult :=
  (facts.map (standing engine world.facts world.vectors input embedding now)).insertionSort
    ScoredResult.comesFirst

section Ranked

variable {facts : List Fact} (ids : facts.map Fact.id =
    (fusedHits engine world.facts world.vectors input embedding).map Prod.fst)
  (hits : ∀ fact ∈ facts, IsHit world input fact)

include ids

theorem nodup_hits : (facts.map Fact.id).Nodup := by
  rw [ids]
  exact nodup_fusedHits

theorem ranking_descending : Descending scoreKey (ranking engine world input embedding now facts) := by
  apply descending_insertionSort scored_comesFirst_iff
  apply nodup_scoreKey
  rw [List.map_map]
  exact nodup_hits ids

include hits

/-- A fact is returned when fewer facts than asked for are ranked before it. -/
theorem mem_ranking_take {fact : Fact} (member : fact ∈ facts) :
    standing engine world.facts world.vectors input embedding now fact ∈
        (ranking engine world input embedding now facts).take input.limit ↔
      rankedBefore engine world input embedding now fact < input.limit := by
  have isRanked := (List.mem_insertionSort ScoredResult.comesFirst).mpr (List.mem_map_of_mem
    (f := standing engine world.facts world.vectors input embedding now) member)
  rw [(ranking_descending ids).mem_take_iff isRanked, ranking,
    (List.perm_insertionSort _ _).countP_eq, countP_scoreKey ids hits member]

theorem filterKept_of_asAsked
    (asAsked : AsAsked engine world input embedding now
      (((ranking engine world input embedding now facts).take input.limit).map
        ScoredResult.result)) :
    FilterKept engine world input embedding now := by
  obtain ⟨_, _, returned, results, own, _⟩ := asAsked
  intro fact isKeyword unfiltered
  by_contra few
  obtain ⟨active, ownTenant, _⟩ := keywordHits_own isKeyword
  have isFused : fact.id ∈ facts.map Fact.id := by
    rw [ids]
    exact (mem_fusedHits fact.id).mpr (.inr (List.mem_map_of_mem isKeyword))
  obtain ⟨other, member, sameId⟩ := List.mem_map.mp isFused
  obtain rfl := (hits other member).active.unique active sameId
  have isReturned := List.mem_map_of_mem (f := ScoredResult.result)
    ((mem_ranking_take ids hits member).mpr (not_le.mp few))
  rw [results] at isReturned
  obtain ⟨found, isFound, sameResult⟩ := List.mem_map.mp isReturned
  obtain ⟨foundActive, _, _, passes⟩ := own found isFound
  obtain rfl := foundActive.unique active (congrArg MemorySearchResult.factId sameResult)
  rw [unfiltered] at passes
  nomatch passes

theorem asAsked_of_filterKept (kept : FilterKept engine world input embedding now) :
    AsAsked engine world input embedding now
      (((ranking engine world input embedding now facts).take input.limit).map
        ScoredResult.result) := by
  let stands := standing engine world.facts world.vectors input embedding now
  let first (left right : Fact) : Prop := (stands left).comesFirst (stands right)
  have decidesFirst : DecidableRel first := fun left right =>
    inferInstanceAs (Decidable ((stands left).comesFirst (stands right)))
  have sorted : (facts.insertionSort first).map stands =
      ranking engine world input embedding now facts :=
    List.map_insertionSort _ _ stands facts fun _ _ _ _ => Iff.rfl
  have members {fact : Fact} (member : fact ∈ (facts.insertionSort first).take input.limit) :
      fact ∈ facts :=
    (List.mem_insertionSort first).mp (List.mem_of_mem_take member)
  refine ⟨?_, ?_, (facts.insertionSort first).take input.limit, ?_, ?_, ?_⟩
  · rw [List.length_map, List.length_take]
    exact min_le_left _ _
  · rw [← sorted, ← List.map_take, List.map_map, List.map_map]
    apply List.Nodup.sublist ((List.take_sublist _ _).map _)
    exact (((List.perm_insertionSort first facts).map _).nodup_iff).mpr (nodup_hits ids)
  · rw [← sorted, ← List.map_take, List.map_map]
    rfl
  · intro fact member
    have isHit := hits fact (members member)
    refine ⟨isHit.active, isHit.own, isHit.types, ?_⟩
    by_contra unfiltered
    rw [Bool.not_eq_true] at unfiltered
    have few : rankedBefore engine world input embedding now fact < input.limit := by
      rw [← mem_ranking_take ids hits (members member), ← sorted, ← List.map_take]
      exact List.mem_map_of_mem member
    exact absurd (kept fact (isHit.filtered unfiltered) unfiltered) (not_le.mpr few)
  · rw [List.map_take, sorted]
    apply List.Pairwise.sublist (List.take_sublist _ _)
    exact (ranking_descending ids).imp fun lower => (scored_comesFirst_iff _ _).mpr lower.le

end Ranked

/-- In step, the first candidates are as asked for just when the filter is kept. -/
theorem asAsked_iff (inStep : InStep world) :
    AsAsked engine world input embedding now
        ((((candidates engine world.facts world.vectors input embedding now).insertionSort
          ScoredResult.comesFirst).take input.limit).map ScoredResult.result) ↔
      FilterKept engine world input embedding now := by
  obtain ⟨facts, scored, ids, hits⟩ :=
    @candidates_eq engine world input embedding now inStep
  rw [scored]
  exact ⟨filterKept_of_asAsked ids hits, asAsked_of_filterKept ids hits⟩

end Hits

/-- The stores with one memory and its record. -/
def sampleStores : World :=
  let record : VectorRecord := ⟨2, 1, sampleTenant.orgId, sampleTenant.userId, [1],
    sampleCandidate.content, sampleCandidate.memoryType, .object []⟩
  { World.empty 1000 with facts := sampleFactStore, vectors := Table.empty.put record }

theorem sampleStores_inStep : InStep sampleStores where
  recorded fact active _ := by
    obtain rfl : fact = sampleFact 1 := List.mem_singleton.mp active.1
    exact ⟨_, List.mem_singleton_self _, ⟨rfl, rfl, rfl, rfl, rfl⟩⟩
  owned record stored _ := by
    obtain rfl := List.mem_singleton.mp stored
    exact ⟨sampleFact 1, ⟨List.mem_singleton_self _, List.not_mem_nil⟩, rfl, rfl⟩
  single left leftStored right rightStored _ _ :=
    (List.mem_singleton.mp leftStored).trans (List.mem_singleton.mp rightStored).symm

/-- A search for the word that the memory states. -/
def sampleSearchInput (metadataFilter : Option Value) : SearchMemoryInput :=
  ⟨sampleTenant, "coffee", 5, none, metadataFilter⟩

end Memcore
