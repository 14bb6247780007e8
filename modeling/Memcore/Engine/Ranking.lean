import Memcore.Domain.Facts
import Mathlib.Data.List.Dedup
import Mathlib.Data.List.Sort

/-!
# Ranking of search results

Two ranked lists, one by embeddings and one by keywords, are fused by reciprocal
ranks. Ties are broken by a weighted score of similarity, importance, confidence,
freshness and memory type.
-/
namespace Memcore

structure RankingConfig where
  semanticWeight : ℚ
  importanceWeight : ℚ
  confidenceWeight : ℚ
  freshnessWeight : ℚ
  memoryTypeWeight : ℚ

def RankingConfig.default : RankingConfig := ⟨50 / 100, 20 / 100, 15 / 100, 10 / 100, 5 / 100⟩

structure RrfConfig where
  k : ℚ
  semanticWeight : ℚ
  keywordWeight : ℚ

def RrfConfig.default : RrfConfig := ⟨60, 1, 1⟩

/-- Defaults in place of parameters that make no sense. -/
def RrfConfig.normalized (config : RrfConfig) : RrfConfig where
  k := if 0 < config.k then config.k else 60
  semanticWeight := if 0 ≤ config.semanticWeight then config.semanticWeight else 1
  keywordWeight := if 0 ≤ config.keywordWeight then config.keywordWeight else 1

/-- One hit of one source; ranks count from one. -/
structure RankedCandidate where
  factId : Uuid
  rank : ℕ

/-- Hits in order, ranked from a first rank upwards. -/
def rankedFrom : ℕ → List Uuid → List RankedCandidate
  | _, [] => []
  | rank, factId :: factIds => ⟨factId, rank⟩ :: rankedFrom (rank + 1) factIds

/-- What one source adds to the score of a fact: nothing if it misses the fact,
and otherwise by the first rank that the source gives it. -/
def contribution (candidates : List RankedCandidate) (k weight : ℚ) (factId : Uuid) : ℚ :=
  match candidates.find? fun candidate => decide (candidate.factId = factId) with
  | none => 0
  | some candidate => weight * (1 / (k + (max candidate.rank 1 : ℕ)))

/-- The facts of both sources by descending score, ties by ascending identifier. -/
def reciprocalRankFusion (semanticResults keywordResults : List RankedCandidate)
    (config : RrfConfig) : List (Uuid × ℚ) :=
  let config := config.normalized
  let factIds := ((semanticResults ++ keywordResults).map RankedCandidate.factId).dedup
  (factIds.map fun factId => (factId,
    contribution semanticResults config.k config.semanticWeight factId +
      contribution keywordResults config.k config.keywordWeight factId)).insertionSort
    fun left right => right.2 < left.2 ∨ right.2 = left.2 ∧ left.1 ≤ right.1

/-- Restrict a score to the unit interval. -/
def clamp01 (value : ℚ) : ℚ := max 0 (min value 1)

/-- Newer facts score higher, in five steps of age in whole days. -/
def freshnessScore (timestamp now : Instant) : ℚ :=
  let ageDays := max ((now - timestamp) / days 1) 0
  if ageDays ≤ 7 then 1
  else if ageDays ≤ 30 then 8 / 10
  else if ageDays ≤ 90 then 6 / 10
  else if ageDays ≤ 365 then 4 / 10
  else 2 / 10

def memoryTypeBoost : MemoryType → ℚ
  | .profile => 1
  | .preference => 95 / 100
  | .project => 90 / 100
  | .skill => 85 / 100
  | .entity => 75 / 100
  | .task => 70 / 100
  | .conversation => 55 / 100
  | .system => 50 / 100

/-- The weighted score of a fact. -/
def weightedScoreFor (semanticScore : ℚ) (fact : Fact) (now : Instant)
    (config : RankingConfig) : ℚ :=
  clamp01 semanticScore * config.semanticWeight +
    clamp01 fact.importance * config.importanceWeight +
    clamp01 fact.confidence * config.confidenceWeight +
    clamp01 (freshnessScore fact.updatedAt now) * config.freshnessWeight +
    clamp01 (memoryTypeBoost fact.memoryType) * config.memoryTypeWeight

/-- A search result beside what decides ties. -/
structure ScoredResult where
  result : MemorySearchResult
  weighted : ℚ
  updatedAt : Instant

/-- By fused score, then by weighted score, then the later change, all descending;
at last by ascending identifier. -/
def ScoredResult.comesFirst (left right : ScoredResult) : Prop :=
  right.result.score < left.result.score ∨ right.result.score = left.result.score ∧
    (right.weighted < left.weighted ∨ right.weighted = left.weighted ∧
      (right.updatedAt < left.updatedAt ∨ right.updatedAt = left.updatedAt ∧
        left.result.factId ≤ right.result.factId))

instance : DecidableRel ScoredResult.comesFirst := fun _ _ =>
  inferInstanceAs (Decidable (_ ∨ _ ∧ (_ ∨ _ ∧ (_ ∨ _ ∧ _))))

end Memcore
