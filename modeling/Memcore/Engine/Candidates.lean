import Memcore.Engine.Ports
import Mathlib.Data.List.Dedup

/-!
# Screening of candidates

Before a candidate is classified its importance is adjusted by rules, and it is
compared with existing facts, first by words and then by embeddings. Thresholds
are compared exactly here, where the source compares rounded numbers.
-/
namespace Memcore

open Ports

/-! ## Importance -/

def stableTypeBoost : ℚ := 8 / 100

def shortContentPenalty : ℚ := 18 / 100

def vagueContentPenalty : ℚ := 22 / 100

def shortContentMaxLen : ℕ := 12

/-- Restrict a number to the unit interval. -/
def clampUnit (value : ℚ) : ℚ := max 0 (min value 1)

def isStableMemoryType : MemoryType → Bool
  | .profile | .preference | .project | .skill => true
  | _ => false

/-- Shortness counts the bytes of the trimmed content. -/
def isShortContent (content : String) : Bool :=
  decide ((Texts.trim content).utf8ByteSize < shortContentMaxLen)

def vaguePatterns : List String :=
  ["user said okay", "user asked a question", "user is here today", "okay", "ok",
    "user said ok", "user said yes", "user said no"]

/-- A vague pattern alone, or followed by a full stop. -/
def isVagueOrTemporary (content : String) : Bool :=
  let normalized := Texts.toAsciiLowercase (Texts.trim content)
  vaguePatterns.any fun pattern =>
    normalized == pattern || Texts.startsWith normalized (pattern ++ ".")

/-- The rule-based adjustment of a candidate's importance. -/
def ImportanceScorer.adjust (candidate : CandidateFact) : CandidateFact :=
  let boosted := clampUnit candidate.importance +
    if isStableMemoryType candidate.memoryType then stableTypeBoost else 0
  let shortened := boosted - if isShortContent candidate.content then shortContentPenalty else 0
  let adjusted := shortened -
    if isVagueOrTemporary candidate.content then vagueContentPenalty else 0
  { candidate with importance := clampUnit adjusted }

def validateCandidate (candidate : CandidateFact) : MemcoreResult Unit := do
  validateNonEmpty "candidate fact content" candidate.content
  validateUnitInterval "candidate confidence" candidate.confidence
  validateUnitInterval "candidate importance" candidate.importance

def passesImportanceThreshold (candidate : CandidateFact) (minImportance : ℚ) : Bool :=
  decide (minImportance ≤ candidate.importance)

/-! ## Duplicates by words -/

def highSimilarityDuplicateThreshold : ℚ := 90 / 100

def moderateSimilarityThreshold : ℚ := 65 / 100

def dedupSearchLimit : ℕ := 50

def relatedFactsSearchLimit : ℕ := 10

inductive DeduplicationDecision where
  | duplicate (existingFactId : Uuid) (reason : String)
  | similarButDistinct (reason : String)
  | new

/-- Trimmed, lowercase, single spaces, no closing punctuation. -/
def normalizeContent (content : String) : String :=
  Texts.trimEndMatches (fun character => decide (character ∈ ".,!?;:".toList))
    (Texts.join " " (Texts.splitWhitespace (Texts.toAsciiLowercase (Texts.trim content))))

def tokenSet (content : String) : List String :=
  (Texts.splitWhitespace (normalizeContent content)).dedup

/-- Shared words over all words. Two contents without words count as equal. -/
def tokenOverlapRatio (left right : String) : ℚ :=
  let leftTokens := tokenSet left
  let rightTokens := tokenSet right
  if leftTokens.isEmpty && rightTokens.isEmpty then 1
  else if leftTokens.isEmpty || rightTokens.isEmpty then 0
  else
    let shared := (leftTokens.filter fun token => decide (token ∈ rightTokens)).length
    shared / (leftTokens.length + rightTokens.length - shared : ℕ)

/-- Compare a candidate with facts in turn; the first duplicate decides, and
otherwise the most similar fact, the earliest of several. -/
def detectDuplicateFrom (candidate : CandidateFact) :
    Option (ℚ × String) → List Fact → DeduplicationDecision
  | bestModerate, [] => match bestModerate with
      | some (_, reason) => .similarButDistinct reason
      | none => .new
  | bestModerate, existing :: rest =>
      if existing.memoryType ≠ candidate.memoryType then
        detectDuplicateFrom candidate bestModerate rest
      else if normalizeContent candidate.content = normalizeContent existing.content then
        .duplicate existing.id "exact normalized content match"
      else
        let overlap := tokenOverlapRatio candidate.content existing.content
        if highSimilarityDuplicateThreshold ≤ overlap then
          .duplicate existing.id ("high token overlap (" ++ Texts.twoDecimals overlap ++ ")")
        else if moderateSimilarityThreshold ≤ overlap ∧
            ¬ bestModerate.any (fun best => decide (overlap ≤ best.1)) then
          detectDuplicateFrom candidate (some (overlap, "moderate token overlap (" ++
            Texts.twoDecimals overlap ++ ") with existing fact")) rest
        else detectDuplicateFrom candidate bestModerate rest

def detectDuplicate (candidate : CandidateFact) (existingFacts : List Fact) :
    DeduplicationDecision :=
  detectDuplicateFrom candidate none existingFacts

/-- The facts that a candidate is compared with. -/
def findExistingFactsForDedup (tenant : TenantContext) (memoryType : MemoryType) :
    EngineProgram (List Fact) :=
  searchFacts ⟨tenant, some [memoryType], none, dedupSearchLimit, none, false⟩

/-- The facts that the provider is shown beside a candidate. -/
def findRelatedFacts (tenant : TenantContext) (candidate : CandidateFact) :
    EngineProgram (List Fact) :=
  searchFacts ⟨tenant, some [candidate.memoryType], some candidate.content,
    relatedFactsSearchLimit, none, false⟩

/-! ## Duplicates by embedding -/

structure EmbeddingDeduplicationConfig where
  enabled : Bool
  similarityThreshold : ℚ
  searchLimit : ℕ

def EmbeddingDeduplicationConfig.default : EmbeddingDeduplicationConfig := ⟨true, 92 / 100, 5⟩

/-- The first similar record that reaches the threshold, as a duplicate. -/
def detectEmbeddingDuplicate (tenant : TenantContext) (memoryType : MemoryType)
    (embedding : List ℚ) (config : EmbeddingDeduplicationConfig) :
    EngineProgram (Option DeduplicationDecision) :=
  if !config.enabled then return none
  else do
    let results ← searchVectors ⟨tenant, embedding, config.searchLimit, some [memoryType], none⟩
    return (results.find? fun result => decide (config.similarityThreshold ≤ result.score)).map
      fun result => .duplicate result.factId ("embedding similarity (" ++
        Texts.twoDecimals result.score ++ " >= " ++
        Texts.twoDecimals config.similarityThreshold ++ ")")

theorem validateCandidate_ok (candidate : CandidateFact) :
    validateCandidate candidate = .ok () ↔ Texts.isBlank candidate.content = false ∧
      (0 ≤ candidate.confidence ∧ candidate.confidence ≤ 1) ∧
      (0 ≤ candidate.importance ∧ candidate.importance ≤ 1) := by
  simp only [validateCandidate, check_then_ok, validateNonEmpty_ok, validateUnitInterval_ok]

/-- An adjusted importance lies in the unit interval, so that the adjustment of a
candidate that passes its validation passes it as well. -/
theorem validateCandidate_adjust (candidate : CandidateFact)
    (passes : validateCandidate candidate = .ok ()) :
    validateCandidate (ImportanceScorer.adjust candidate) = .ok () := by
  obtain ⟨content, confidence, _⟩ := (validateCandidate_ok candidate).mp passes
  refine (validateCandidate_ok _).mpr ⟨content, confidence, ?_⟩
  simp [ImportanceScorer.adjust, clampUnit]

end Memcore
