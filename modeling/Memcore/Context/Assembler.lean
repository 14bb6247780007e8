import Memcore.Context.Compression

/-!
# Assembly of contexts within a token budget

Memories are taken in the order of their rank while the formatted text stays
within the budget, less the reserve for a summary. What does not fit is skipped
and, if the caller wants it, summarised behind the text.
-/
namespace Memcore

structure AssembledContext where
  context : String
  memories : List MemorySearchResult
  budget : ContextBudgetUsage
  compression : ContextCompressionUsage
  skippedItems : List ContextMemoryItem

variable (platform : Platform)

/-- The tokens of the formatted items; no items need none. -/
def estimateContextTokens (items : List ContextMemoryItem) (formatOptions : ContextFormatOptions)
    (legacyIncludeFactMetadata : Bool) : ℕ :=
  if items.isEmpty then 0
  else estimateTokens (ContextFormatter.format platform items formatOptions
    legacyIncludeFactMetadata)

/-- How many tokens one more item adds to the formatted text. -/
def tokenDeltaForAddition (current : List ContextMemoryItem) (candidate : ContextMemoryItem)
    (formatOptions : ContextFormatOptions) (legacyIncludeFactMetadata : Bool) : ℕ :=
  estimateContextTokens platform (current ++ [candidate]) formatOptions
      legacyIncludeFactMetadata -
    estimateContextTokens platform current formatOptions legacyIncludeFactMetadata

/-- The greedy selection: the included and the skipped items, each in order. -/
def selectItems (formatOptions : ContextFormatOptions) (legacyIncludeFactMetadata : Bool)
    (memoryAvailable : ℕ) : List ContextMemoryItem → List ContextMemoryItem →
      List ContextMemoryItem → List ContextMemoryItem × List ContextMemoryItem
  | included, skipped, [] => (included, skipped)
  | included, skipped, item :: items =>
      let delta := tokenDeltaForAddition platform included item formatOptions
        legacyIncludeFactMetadata
      let usedSoFar := estimateContextTokens platform included formatOptions
        legacyIncludeFactMetadata
      if usedSoFar + delta ≤ memoryAvailable then
        selectItems formatOptions legacyIncludeFactMetadata memoryAvailable
          (included ++ [item]) skipped items
      else
        selectItems formatOptions legacyIncludeFactMetadata memoryAvailable
          included (skipped ++ [item]) items

/-- The tokens that the selection may use. -/
def memoryAvailable (budget : ContextBudget)
    (compressionOptions : ContextCompressionOptions) : ℕ :=
  let available := budget.availableTokens
  available - if compressionOptions.mode.isEnabled then
    min compressionOptions.summaryMaxTokens available else 0

/-- The summary of the skipped items that is made without the provider, when the
caller asked for it and tokens are left; its text may be empty. -/
def extractiveSummary (budget : ContextBudget) (formatOptions : ContextFormatOptions)
    (compressionOptions : ContextCompressionOptions) (context : String)
    (skipped : List ContextMemoryItem) : Option (CompressedContext × ℕ) :=
  if compressionOptions.mode = .simpleExtractive ∧ ¬ skipped.isEmpty then
    let usedBeforeSummary := if context = "" then 0 else estimateTokens context
    let summaryBudget := effectiveSummaryBudget budget.availableTokens usedBeforeSummary
      compressionOptions.summaryMaxTokens
    if 0 < summaryBudget then
      let compressed := SimpleContextCompressor.compress platform skipped summaryBudget
        formatOptions.format compressionOptions.includeSummarySection
      if compressed.text = "" then none else some (compressed, summaryBudget)
    else none
  else none

/-- Select, format, summarise and report. -/
def assembleContextWithBudget (memories : List MemorySearchResult)
    (legacyIncludeFactMetadata : Bool) (formatOptions : ContextFormatOptions)
    (budget : ContextBudget) (compressionOptions : ContextCompressionOptions) :
    AssembledContext :=
  let available := budget.availableTokens
  if memories.isEmpty then
    { context := emptyContextMessage
      memories := []
      budget := ⟨budget.maxTokens, budget.reservedTokens, available,
        estimateTokens emptyContextMessage, 0, 0⟩
      compression := .disabled
      skippedItems := [] }
  else
    let (included, skipped) := selectItems platform formatOptions legacyIncludeFactMetadata
      (memoryAvailable budget compressionOptions) [] [] memories
    let formatted := if included.isEmpty then ""
      else ContextFormatter.format platform included formatOptions legacyIncludeFactMetadata
    let summary := extractiveSummary platform budget formatOptions compressionOptions formatted
      skipped
    let withSummary := match summary with
      | none => formatted
      | some (compressed, _) =>
          if formatted = "" then compressed.text
          else mergeContextWithSummary platform formatted formatOptions.format compressed
    let context := if withSummary = "" then emptyContextMessage else withSummary
    { context := context
      memories := included
      budget := ⟨budget.maxTokens, budget.reservedTokens, available,
        min (estimateTokens context) available, included.length, skipped.length⟩
      compression := match summary with
        | none => .disabled
        | some (compressed, summaryBudget) => .fromCompression .simpleExtractive
            compressed.summarizedMemories (min compressed.estimatedTokens summaryBudget)
      skippedItems := skipped }

/-- Append the summary that the provider has written. -/
def applyProviderCompressionSummary (assembled : AssembledContext)
    (compressed : CompressedContext) (format : ContextFormat) (availableTokens : ℕ)
    (mode : ContextCompressionMode) : AssembledContext :=
  if compressed.text = "" then assembled
  else
    let context := if assembled.context = emptyContextMessage then compressed.text
      else mergeContextWithSummary platform assembled.context format compressed
    { assembled with
      context := context
      budget := { assembled.budget with
        usedTokens := min (estimateTokens context) availableTokens }
      compression := .fromCompression mode compressed.summarizedMemories
        compressed.estimatedTokens }

end Memcore
