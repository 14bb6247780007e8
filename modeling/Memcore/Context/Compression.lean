import Memcore.Context.Formatter

/-!
# Compression of skipped memories

Memories that did not fit are summarised, either by quoting the first ones as
bullets while a budget lasts, or by a text of the provider. The summary is then
merged into the main context as text or as a member of the JSON document.
-/
namespace Memcore

structure CompressedContext where
  text : String
  summarizedMemories : ℕ
  estimatedTokens : ℕ
  bullets : List String

def CompressedContext.empty : CompressedContext := ⟨"", 0, 0, []⟩

def maxBulletChars : ℕ := 200

/-- The content of a memory, cut to the length of a bullet. -/
def bulletContent (content : String) : String :=
  if content.length ≤ maxBulletChars then content
  else Texts.trimEndMatches Texts.isWhitespace (Texts.take maxBulletChars content) ++ "..."

/-- The document that holds the bullets of a summary. -/
def summaryObject (bullets : List String) : Value :=
  .object [("summary", .array (bullets.map .string))]

variable (platform : Platform)

/-- Bullets as text, under a heading unless the caller declined it. -/
def formatSummaryText (bullets : List String) (format : ContextFormat)
    (includeSummarySection : Bool) : String :=
  if bullets.isEmpty then ""
  else
    let lines := bullets.map fun bullet => "- " ++ bullet
    match format with
    | .markdown => Texts.join "\n"
        (if includeSummarySection then "## Compressed Memory Summary" :: lines else lines)
    | .json => (summaryObject bullets).print platform.formatFloat
    | .plainText => Texts.join "\n"
        (if includeSummarySection then "Compressed Memory Summary:" :: lines else lines)

/-- Add bullets while the summary stays within the budget; stop at the first one
that does not fit. -/
def collectBullets (maxTokens : ℕ) (format : ContextFormat) (includeSummarySection : Bool) :
    List String → List ContextMemoryItem → List String
  | bullets, [] => bullets
  | bullets, memory :: memories =>
      let candidate := bullets ++ [bulletContent memory.content]
      if estimateTokens (formatSummaryText platform candidate format includeSummarySection) ≤
          maxTokens then
        collectBullets maxTokens format includeSummarySection candidate memories
      else bullets

/-- The deterministic summary, made without the provider. -/
def SimpleContextCompressor.compress (memories : List ContextMemoryItem) (maxTokens : ℕ)
    (format : ContextFormat) (includeSummarySection : Bool) : CompressedContext :=
  if memories.isEmpty then .empty
  else
    let bullets := collectBullets platform maxTokens format includeSummarySection [] memories
    let text := formatSummaryText platform bullets format includeSummarySection
    ⟨text, bullets.length, estimateTokens text, bullets⟩

/-- The provider's text, split into bullets at semicolons. -/
def wrapProviderSummary (summaryText : String) (summarizedMemories : ℕ)
    (format : ContextFormat) (includeSummarySection : Bool) : CompressedContext :=
  let bullets := ((Texts.split ';' summaryText).map Texts.trim).filter fun part =>
    !(part == "")
  let text := if bullets.isEmpty then
      formatSummaryText platform [summaryText] format includeSummarySection
    else formatSummaryText platform bullets format includeSummarySection
  ⟨text, summarizedMemories, estimateTokens text, bullets⟩

/-- The main document, read back from its text. -/
def reparsed (mainContext : String) : Value :=
  (platform.parseJson mainContext).getD (.object [("memories", .array [])])

/-- Read the main document and add the bullets as one more member. -/
def mergeJsonContext (mainContext : String) (compressed : CompressedContext) : String :=
  match reparsed platform mainContext with
  | .object members =>
      (Value.object (Value.insertMember "compressed_summary"
        (summaryObject compressed.bullets) members)).print platform.formatFloat
  | other => other.print platform.formatFloat

/-- Append the summary to the main context. -/
def mergeContextWithSummary (mainContext : String) (format : ContextFormat)
    (compressed : CompressedContext) : String :=
  if compressed.text = "" then mainContext
  else match format with
    | .json => mergeJsonContext platform mainContext compressed
    | _ =>
        if mainContext = "" then compressed.text
        else mainContext ++ "\n\n" ++ compressed.text

/-- What the summary may use of the tokens that are left. -/
def effectiveSummaryBudget (availableTokens usedTokens summaryMaxTokens : ℕ) : ℕ :=
  min summaryMaxTokens (availableTokens - usedTokens)

end Memcore
