import Memcore.Domain.Facts

/-!
# Options, budgets and usage reports of contexts

What a caller may ask of an assembled context, the checks on it, and the reports
that are returned with the text. Tokens are estimated from the number of
characters, which is the repository's own estimator.
-/
namespace Memcore

/-- The context returned when there is nothing to tell. -/
def emptyContextMessage : String := "No relevant long-term memories found."

def maxContextMaxMemories : ℕ := 20

def maxContextMaxTokens : ℕ := 16000

def maxSummaryMaxTokens : ℕ := 2000

/-- A quarter of the number of characters, rounded up. -/
def estimateTokens (text : String) : ℕ :=
  if text.length = 0 then 0 else max ((text.length + 3) / 4) 1

structure ContextBudget where
  maxTokens : ℕ
  reservedTokens : ℕ

/-- The tokens left for memories after the reserve for the reply. -/
def ContextBudget.availableTokens (budget : ContextBudget) : ℕ :=
  budget.maxTokens - budget.reservedTokens

def ContextBudget.validate (budget : ContextBudget) : MemcoreResult Unit :=
  if budget.maxTokens ≤ budget.reservedTokens then
    .error (.validationError "reserved_tokens must be less than max_tokens")
  else if maxContextMaxTokens < budget.maxTokens then
    .error (.validationError ("max_tokens cannot exceed " ++ toString maxContextMaxTokens))
  else .ok ()

structure ContextBudgetUsage where
  maxTokens : ℕ
  reservedTokens : ℕ
  availableTokens : ℕ
  usedTokens : ℕ
  includedMemories : ℕ
  skippedMemories : ℕ

inductive ContextCompressionMode where
  | disabled | simpleExtractive | providerSummary
  deriving DecidableEq

def ContextCompressionMode.isEnabled (mode : ContextCompressionMode) : Bool :=
  decide (mode ≠ disabled)

structure ContextCompressionOptions where
  mode : ContextCompressionMode
  summaryMaxTokens : ℕ
  includeSummarySection : Bool

def ContextCompressionOptions.validate (options : ContextCompressionOptions)
    (availableTokens : ℕ) : MemcoreResult Unit :=
  if options.summaryMaxTokens = 0 then
    .error (.validationError "summary_max_tokens must be greater than 0")
  else if maxSummaryMaxTokens < options.summaryMaxTokens then
    .error (.validationError
      ("summary_max_tokens cannot exceed " ++ toString maxSummaryMaxTokens))
  else if options.mode.isEnabled ∧ availableTokens < options.summaryMaxTokens then
    .error (.validationError "summary_max_tokens cannot exceed available context tokens")
  else .ok ()

structure ContextCompressionUsage where
  enabled : Bool
  mode : ContextCompressionMode
  summarizedMemories : ℕ
  summaryTokens : ℕ

def ContextCompressionUsage.disabled : ContextCompressionUsage := ⟨false, .disabled, 0, 0⟩

def ContextCompressionUsage.fromCompression (mode : ContextCompressionMode)
    (summarizedMemories summaryTokens : ℕ) : ContextCompressionUsage :=
  ⟨true, mode, summarizedMemories, summaryTokens⟩

inductive ContextFormat where
  | plainText | markdown | json
  deriving DecidableEq

structure ContextFormatOptions where
  format : ContextFormat
  sectionByMemoryType : Bool
  includeMemoryIds : Bool
  includeMemoryTypes : Bool
  includeScores : Bool
  includeTimestamps : Bool
  includeConfidence : Bool
  includeImportance : Bool
  deriving DecidableEq

/-- The options of callers that ask for no formatting. -/
def ContextFormatOptions.default : ContextFormatOptions :=
  ⟨.plainText, false, false, false, false, false, false, false⟩

def ContextFormatOptions.isLegacyPlain (options : ContextFormatOptions) : Bool :=
  decide (options = default)

structure BuildContextInput where
  tenant : TenantContext
  query : String
  maxMemories : ℕ
  memoryTypes : Option (List MemoryType)
  includeMetadata : Bool
  budget : ContextBudget
  formatOptions : ContextFormatOptions
  compressionOptions : ContextCompressionOptions

/-- An estimate within a bound is a bound on the number of characters. -/
theorem estimateTokens_le (text : String) (bound : ℕ) :
    estimateTokens text ≤ bound ↔ text.length ≤ 4 * bound := by
  unfold estimateTokens
  split <;> omega

theorem estimateTokens_emptyContextMessage : estimateTokens emptyContextMessage = 10 := by
  decide

theorem ContextBudget.validate_ok (budget : ContextBudget) :
    budget.validate = .ok () ↔ budget.reservedTokens < budget.maxTokens ∧
      budget.maxTokens ≤ maxContextMaxTokens := by
  unfold ContextBudget.validate
  split_ifs with reserved large
  · simp only [false_iff]
    omega
  · simp only [false_iff]
    omega
  · simp only [true_iff]
    omega

/-- Options that pass reserve a positive number of tokens for a summary, and an
enabled compression reserves no more than are available. -/
theorem ContextCompressionOptions.validate_ok (options : ContextCompressionOptions)
    (availableTokens : ℕ) (passes : options.validate availableTokens = .ok ()) :
    0 < options.summaryMaxTokens ∧
      (options.mode.isEnabled = true → options.summaryMaxTokens ≤ availableTokens) := by
  unfold ContextCompressionOptions.validate at passes
  split_ifs at passes with zero large exceeding
  refine ⟨by omega, fun enabled => ?_⟩
  by_contra above
  exact exceeding ⟨enabled, by omega⟩

end Memcore
