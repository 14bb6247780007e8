import Memcore.Engine.Operations

/-!
# The token budget of a context

The selection keeps the text of the selected memories within its share of the
budget, and a summary made without the provider keeps within the reserve. What
neither accounts for is the separator between the two texts, the length of a
summary that the provider wrote, and the message that stands for an empty context.
The exact condition on the parts follows from their lengths alone.
-/
namespace Memcore

open Ports Programs

/-! ## Texts that are neither empty nor the message for an empty context -/

/-- A text that begins with another letter than the message for an empty context. -/
def OpensOtherwise (text : String) : Prop :=
  ∃ first rest, text.toList = first :: rest ∧ first ≠ 'N'

theorem OpensOtherwise.of_prefix {text longer : String} {more : List Char}
    (opens : OpensOtherwise text) (extended : longer.toList = text.toList ++ more) :
    OpensOtherwise longer := by
  obtain ⟨first, rest, same, other⟩ := opens
  exact ⟨first, rest ++ more, by rw [extended, same, List.cons_append], other⟩

theorem OpensOtherwise.append {text : String} (opens : OpensOtherwise text) (more : String) :
    OpensOtherwise (text ++ more) :=
  opens.of_prefix (String.toList_append ..)

theorem OpensOtherwise.join {text : String} (opens : OpensOtherwise text) (separator : String)
    (rest : List String) : OpensOtherwise (Texts.join separator (text :: rest)) := by
  obtain ⟨more, extended⟩ := Texts.toList_join_cons separator text rest
  exact opens.of_prefix extended

theorem OpensOtherwise.ne_empty {text : String} (opens : OpensOtherwise text) : text ≠ "" := by
  rintro rfl
  obtain ⟨first, rest, same, _⟩ := opens
  simp at same

theorem OpensOtherwise.ne_message {text : String} (opens : OpensOtherwise text) :
    text ≠ emptyContextMessage := by
  rintro rfl
  obtain ⟨first, rest, same, other⟩ := opens
  have opening : emptyContextMessage.toList.head? = some 'N' := by decide
  rw [same, List.head?_cons, Option.some.injEq] at opening
  exact other opening

variable (platform : Platform)

namespace ContextFormatter

theorem contentLine_opens (memory : ContextMemoryItem) (legacyIncludeFactMetadata : Bool) :
    OpensOtherwise (contentLine platform memory legacyIncludeFactMetadata) := by
  have dash : OpensOtherwise "- " := ⟨'-', [' '], by decide, by decide⟩
  exact (dash.append _).append _

theorem formatPlainLine_opens (options : ContextFormatOptions)
    (legacyIncludeFactMetadata : Bool) (memory : ContextMemoryItem) :
    OpensOtherwise (formatPlainLine platform options legacyIncludeFactMetadata memory) :=
  (contentLine_opens platform memory legacyIncludeFactMetadata).append _

theorem formatMarkdownLine_opens (options : ContextFormatOptions)
    (legacyIncludeFactMetadata : Bool) (memory : ContextMemoryItem) :
    OpensOtherwise (formatMarkdownLine platform options legacyIncludeFactMetadata memory) :=
  (contentLine_opens platform memory legacyIncludeFactMetadata).append _

theorem sectionTitle_opens (memoryType : MemoryType) :
    OpensOtherwise (sectionTitle memoryType) := by
  cases memoryType <;> exact ⟨_, _, rfl, by decide⟩

/-- Every memory is in a section, so that some section is there. -/
theorem sections_ne_nil {memories : List ContextMemoryItem} (some : memories ≠ []) :
    sections memories ≠ [] := by
  obtain ⟨memory, rest, rfl⟩ := List.exists_cons_of_ne_nil some
  have listed : memory.memoryType ∈ sectionOrder := by
    cases memory.memoryType <;> decide
  refine List.ne_nil_of_mem (a := (memory.memoryType, (memory :: rest).filter fun other =>
    decide (other.memoryType = memory.memoryType))) ?_
  simp only [sections, List.mem_filter, List.mem_map]
  refine ⟨⟨memory.memoryType, listed, rfl⟩, ?_⟩
  simp

theorem formatSections_opens (heading : MemoryType → String)
    (line : ContextMemoryItem → String) (opens : ∀ memoryType, OpensOtherwise (heading memoryType))
    {memories : List ContextMemoryItem} (some : memories ≠ []) :
    OpensOtherwise (formatSections heading line memories) := by
  obtain ⟨first, rest, split⟩ := List.exists_cons_of_ne_nil (sections_ne_nil some)
  simp only [formatSections, split, List.map_cons]
  exact ((opens first.1).join _ _).join _ _

/-- The text of some memories is neither empty nor the message for an empty context. -/
theorem format_opens (memories : List ContextMemoryItem) (options : ContextFormatOptions)
    (legacyIncludeFactMetadata : Bool) (some : memories ≠ []) :
    OpensOtherwise (format platform memories options legacyIncludeFactMetadata) := by
  obtain ⟨memory, rest, rfl⟩ := List.exists_cons_of_ne_nil some
  have title : OpensOtherwise "Relevant long-term memories:" := ⟨_, _, rfl, by decide⟩
  simp only [format, List.isEmpty_cons, Bool.false_eq_true, if_false]
  split
  · simp only [formatPlain]
    split_ifs
    · exact title.join _ _
    · exact formatSections_opens _ _ (fun _ => (sectionTitle_opens _).append _) some
    · exact title.join _ _
    · exact (formatPlainLine_opens platform _ _ _).join _ _
  · simp only [formatMarkdown]
    split_ifs
    · have hash : OpensOtherwise "## " := ⟨_, _, rfl, by decide⟩
      exact formatSections_opens _ _ (fun _ => hash.append _) some
    · exact (formatMarkdownLine_opens platform _ _ _).join _ _
  · have brace : OpensOtherwise "\x7b" := ⟨_, _, rfl, by decide⟩
    exact (brace.append _).append _

end ContextFormatter

/-! ## The selection and the summaries within their shares -/

/-- The selection stays within its tokens. -/
theorem selectItems_within (formatOptions : ContextFormatOptions)
    (legacyIncludeFactMetadata : Bool) (bound : ℕ)
    (items included skipped : List ContextMemoryItem)
    (within : estimateContextTokens platform included formatOptions legacyIncludeFactMetadata ≤
      bound) :
    estimateContextTokens platform (selectItems platform formatOptions legacyIncludeFactMetadata
      bound included skipped items).1 formatOptions legacyIncludeFactMetadata ≤ bound := by
  induction items generalizing included skipped with
  | nil => exact within
  | cons item items inductionHypothesis =>
    simp only [selectItems]
    split_ifs with fits
    · apply inductionHypothesis
      unfold tokenDeltaForAddition at fits
      omega
    · exact inductionHypothesis included (skipped ++ [item]) within

/-- The bullets of a deterministic summary stay within its tokens. -/
theorem collectBullets_within (maxTokens : ℕ) (format : ContextFormat)
    (includeSummarySection : Bool) (memories : List ContextMemoryItem) (bullets : List String)
    (within : estimateTokens (formatSummaryText platform bullets format includeSummarySection) ≤
      maxTokens) :
    estimateTokens (formatSummaryText platform (collectBullets platform maxTokens format
      includeSummarySection bullets memories) format includeSummarySection) ≤ maxTokens := by
  induction memories generalizing bullets with
  | nil => exact within
  | cons memory memories inductionHypothesis =>
    simp only [collectBullets]
    split_ifs with fits
    · exact inductionHypothesis _ fits
    · exact within

theorem SimpleContextCompressor.compress_within (memories : List ContextMemoryItem)
    (maxTokens : ℕ) (format : ContextFormat) (includeSummarySection : Bool) :
    estimateTokens (compress platform memories maxTokens format includeSummarySection).text ≤
      maxTokens := by
  unfold compress
  split_ifs with none
  · exact Nat.zero_le _
  · have initially : estimateTokens (formatSummaryText platform [] format
        includeSummarySection) ≤ maxTokens := Nat.zero_le _
    exact collectBullets_within platform maxTokens format includeSummarySection memories []
      initially

/-! ## The parts of a context -/

section Parts

variable (input : BuildContextInput) (results : List MemorySearchResult)

/-- The selected and the skipped memories. -/
def selection : List ContextMemoryItem × List ContextMemoryItem :=
  selectItems platform input.formatOptions input.includeMetadata
    (memoryAvailable input.budget input.compressionOptions) [] [] results

/-- The text of the selected memories; none are selected exactly if it is empty. -/
def selectedText : String :=
  if (selection platform input results).1.isEmpty then ""
  else ContextFormatter.format platform (selection platform input results).1
    input.formatOptions input.includeMetadata

/-- The tokens that a summary may use. With nothing selected, the message for an
empty context counts against a summary of the provider. -/
def summaryTokens : ℕ :=
  let main := selectedText platform input results
  let available := input.budget.availableTokens
  match input.compressionOptions.mode with
  | .disabled => 0
  | .simpleExtractive => effectiveSummaryBudget available
      (if main = "" then 0 else estimateTokens main) input.compressionOptions.summaryMaxTokens
  | .providerSummary => effectiveSummaryBudget available
      (min (estimateTokens (if main = "" then emptyContextMessage else main)) available)
      input.compressionOptions.summaryMaxTokens

/-- Whether the summary is the provider's, which it is if the provider replies. -/
def IsProviders (reply : Option String) : Prop :=
  input.compressionOptions.mode = .providerSummary ∧ reply.isSome = true

/-- The summary of the skipped memories, if there is any. -/
def summaryOf (reply : Option String) : Option CompressedContext :=
  let skipped := (selection platform input results).2
  let tokens := summaryTokens platform input results
  let format := input.formatOptions.format
  let includeSummarySection := input.compressionOptions.includeSummarySection
  let compressed := match input.compressionOptions.mode, reply with
    | .providerSummary, some text =>
        wrapProviderSummary platform text skipped.length format includeSummarySection
    | _, _ => SimpleContextCompressor.compress platform skipped tokens format
        includeSummarySection
  if skipped.isEmpty = true ∨ tokens = 0 ∨ compressed.text = "" then none else some compressed

/-- The parts fit together. A selection fits alone, and so does a summary made here.
The message for an empty context takes ten tokens. Two texts are separated by two
characters, and a member of the JSON document takes its key and its punctuation. -/
def PartsFit (reply : Option String) : Prop :=
  let main := selectedText platform input results
  let characters := 4 * input.budget.availableTokens
  match summaryOf platform input results reply with
  | none => main = "" → 10 ≤ input.budget.availableTokens
  | some compressed =>
      if main = "" then IsProviders input reply → compressed.text.length ≤ characters
      else match input.formatOptions.format with
        | .json => ((reparsed platform main).print platform.formatFloat).length + 22 +
            ((summaryObject compressed.bullets).print platform.formatFloat).length ≤ characters
        | _ => main.length + 2 + compressed.text.length ≤ characters

/-- The text made of the selected memories and a summary. -/
def joinedText (summary : Option CompressedContext) : String :=
  let main := selectedText platform input results
  match summary with
  | none => if main = "" then emptyContextMessage else main
  | some compressed =>
      if main = "" then compressed.text
      else mergeContextWithSummary platform main input.formatOptions.format compressed

/-- What the JSON reader makes of a document written here, unless it refuses it, is an
object with the same single key. -/
def ReadsDocuments : Prop :=
  ∀ memories options legacyIncludeFactMetadata parsed,
    platform.parseJson (ContextFormatter.formatJson platform memories options
      legacyIncludeFactMetadata) = some parsed →
    ∃ value, parsed = .object [((ContextFormatter.payloadMember platform memories options
      legacyIncludeFactMetadata).1, value)]

variable {platform input results}

theorem selectedText_opens (some : selectedText platform input results ≠ "") :
    OpensOtherwise (selectedText platform input results) := by
  unfold selectedText at some ⊢
  split_ifs at some ⊢ with empty
  · exact absurd rfl some
  · exact ContextFormatter.format_opens _ _ _ _ (List.isEmpty_eq_false_iff.mp (by simpa using empty))

theorem selectedText_within : estimateTokens (selectedText platform input results) ≤
    memoryAvailable input.budget input.compressionOptions := by
  have start : estimateContextTokens platform [] input.formatOptions input.includeMetadata ≤
      memoryAvailable input.budget input.compressionOptions := Nat.zero_le _
  have within := selectItems_within platform input.formatOptions input.includeMetadata
    (memoryAvailable input.budget input.compressionOptions) results [] [] start
  have same : estimateTokens (selectedText platform input results) =
      estimateContextTokens platform (selection platform input results).1 input.formatOptions
        input.includeMetadata := by
    unfold selectedText estimateContextTokens
    split_ifs <;> rfl
  exact same.trans_le within

theorem memoryAvailable_le (budget : ContextBudget)
    (compressionOptions : ContextCompressionOptions) :
    memoryAvailable budget compressionOptions ≤ budget.availableTokens :=
  Nat.sub_le _ _

theorem summaryTokens_le :
    summaryTokens platform input results ≤ input.budget.availableTokens := by
  simp only [summaryTokens, effectiveSummaryBudget]
  split <;> omega

/-- A summary that the provider did not write stays within its tokens. -/
theorem summaryOf_within {reply : Option String} {compressed : CompressedContext}
    (made : summaryOf platform input results reply = some compressed)
    (here : ¬ IsProviders input reply) :
    estimateTokens compressed.text ≤ summaryTokens platform input results := by
  unfold summaryOf at made
  simp only [Option.ite_none_left_eq_some, Option.some.injEq] at made
  obtain ⟨_, rfl⟩ := made
  split
  · rename_i mode text isProvider replied
    exact absurd ⟨isProvider, rfl⟩ here
  · exact SimpleContextCompressor.compress_within platform _ _ _ _

theorem summaryOf_text {reply : Option String} {compressed : CompressedContext}
    (made : summaryOf platform input results reply = some compressed) :
    compressed.text ≠ "" := by
  unfold summaryOf at made
  simp only [Option.ite_none_left_eq_some, Option.some.injEq] at made
  obtain ⟨present, rfl⟩ := made
  intro empty
  exact present (.inr (.inr empty))

/-- The main document, when it is read back, is an object with another key than the
one under which the summary is stored. -/
theorem reparsed_object (reads : ReadsDocuments platform)
    (json : input.formatOptions.format = .json)
    (some : selectedText platform input results ≠ "") :
    ∃ key value, key ≠ "compressed_summary" ∧
      reparsed platform (selectedText platform input results) = .object [(key, value)] := by
  have written : selectedText platform input results = ContextFormatter.formatJson platform
      (selection platform input results).1 input.formatOptions input.includeMetadata := by
    unfold selectedText at some ⊢
    split_ifs at some ⊢ with empty
    · exact absurd rfl some
    · simp [ContextFormatter.format, empty, json]
  unfold reparsed
  cases parsed : platform.parseJson (selectedText platform input results) with
  | none => exact ⟨"memories", .array [], by decide, rfl⟩
  | some document =>
    rw [written] at parsed
    obtain ⟨value, rfl⟩ := reads _ _ _ _ parsed
    refine ⟨_, value, ?_, rfl⟩
    unfold ContextFormatter.payloadMember
    split_ifs
    · exact show "sections" ≠ "compressed_summary" by decide
    · exact show "memories" ≠ "compressed_summary" by decide

/-- The length of a merged text in terms of its parts. -/
theorem length_mergeContextWithSummary (reads : ReadsDocuments platform)
    (some : selectedText platform input results ≠ "") {compressed : CompressedContext}
    (present : compressed.text ≠ "") :
    (mergeContextWithSummary platform (selectedText platform input results)
      input.formatOptions.format compressed).length =
    match input.formatOptions.format with
    | .json => ((reparsed platform (selectedText platform input results)).print
        platform.formatFloat).length + 22 +
          ((summaryObject compressed.bullets).print platform.formatFloat).length
    | _ => (selectedText platform input results).length + 2 + compressed.text.length := by
  unfold mergeContextWithSummary
  rw [if_neg present]
  cases format : input.formatOptions.format with
  | plainText =>
    simp only [if_neg some, String.length_append]
    rfl
  | markdown =>
    simp only [if_neg some, String.length_append]
    rfl
  | json =>
    obtain ⟨key, value, other, object⟩ := reparsed_object reads format some
    have key' : (Value.printText "compressed_summary").length = 20 := by decide
    have fresh : "compressed_summary" ∉ [(key, value)].map Prod.fst := by
      simpa using Ne.symm other
    have lengths := Value.length_print_insertMember platform.formatFloat "compressed_summary"
      (summaryObject compressed.bullets) [(key, value)] fresh (List.cons_ne_nil _ _)
    simp only [mergeJsonContext, object]
    omega

/-- The joined text is within the budget exactly when its parts fit together. -/
theorem joinedText_within_iff (reads : ReadsDocuments platform) (reply : Option String) :
    estimateTokens (joinedText platform input results (summaryOf platform input results reply)) ≤
      input.budget.availableTokens ↔ PartsFit platform input results reply := by
  have selected := (@selectedText_within platform input results).trans (memoryAvailable_le _ _)
  unfold joinedText PartsFit
  cases made : summaryOf platform input results reply with
  | none =>
    by_cases empty : selectedText platform input results = ""
    · simp only [empty, if_true, estimateTokens_emptyContextMessage, true_implies]
    · simp only [empty, if_false, selected, false_implies]
  | some compressed =>
    by_cases empty : selectedText platform input results = ""
    · simp only [empty, if_true, ← estimateTokens_le]
      by_cases providers : IsProviders input reply
      · simp only [providers, true_implies]
      · simp only [providers, false_implies, iff_true]
        exact (summaryOf_within made providers).trans summaryTokens_le
    · simp only [empty, if_false]
      rw [estimateTokens_le, length_mergeContextWithSummary reads empty (summaryOf_text made)]
      cases input.formatOptions.format <;> rfl

end Parts

/-! ## The assembled context and its parts -/

section Assembly

variable {platform} {input : BuildContextInput} {results : List MemorySearchResult}

/-- The assembly of a request. -/
def assembled (platform : Platform) (input : BuildContextInput)
    (results : List MemorySearchResult) : AssembledContext :=
  assembleContextWithBudget platform results input.includeMetadata input.formatOptions
    input.budget input.compressionOptions

theorem assembled_skippedItems :
    (assembled platform input results).skippedItems = (selection platform input results).2 := by
  cases results with
  | nil => rfl
  | cons result results => rfl

theorem assembled_availableTokens :
    (assembled platform input results).budget.availableTokens = input.budget.availableTokens := by
  cases results with
  | nil => rfl
  | cons result results => rfl

/-- The report is the estimate, cut to the budget unless there was nothing to rank. -/
theorem assembled_usedTokens :
    (assembled platform input results).budget.usedTokens =
      if results.isEmpty then estimateTokens (assembled platform input results).context
      else min (estimateTokens (assembled platform input results).context)
        input.budget.availableTokens := by
  cases results with
  | nil =>
    have silent : (assembled platform input []).context = emptyContextMessage := rfl
    rw [List.isEmpty_nil, if_pos rfl, silent]
    rfl
  | cons result results => rfl

/-- A summary made during the assembly is the one of the parts. -/
theorem extractiveSummary_fst (reply : Option String)
    (extractive : input.compressionOptions.mode = .simpleExtractive) :
    (extractiveSummary platform input.budget input.formatOptions input.compressionOptions
      (selectedText platform input results) (selection platform input results).2).map Prod.fst =
      summaryOf platform input results reply := by
  simp only [extractiveSummary, summaryOf, summaryTokens, extractive, true_and]
  by_cases skipped : (selection platform input results).2.isEmpty = true
  · simp [skipped]
  · simp only [skipped, Bool.false_eq_true, not_false_iff, if_true, false_or]
    split_ifs <;> first | rfl | omega | simp_all

theorem extractiveSummary_none (other : input.compressionOptions.mode ≠ .simpleExtractive) :
    extractiveSummary platform input.budget input.formatOptions input.compressionOptions
      (selectedText platform input results) (selection platform input results).2 = none := by
  simp [extractiveSummary, other]

theorem mergeContextWithSummary_ne_empty (reads : ReadsDocuments platform)
    (some : selectedText platform input results ≠ "") {compressed : CompressedContext}
    (present : compressed.text ≠ "") :
    mergeContextWithSummary platform (selectedText platform input results)
      input.formatOptions.format compressed ≠ "" := by
  intro empty
  have lengths := length_mergeContextWithSummary reads some present
  rw [empty, String.length_empty] at lengths
  cases format : input.formatOptions.format <;> simp only [format] at lengths <;> omega

/-- The selected text, joined with the summary of what was left out. -/
def joinedSummary (platform : Platform) (input : BuildContextInput) (main : String) :
    Option (CompressedContext × ℕ) → String
  | none => main
  | some (compressed, _) =>
      if main = "" then compressed.text
      else mergeContextWithSummary platform main input.formatOptions.format compressed

/-- The assembled text joins the selected memories with the summary made here. -/
theorem assembled_context (reads : ReadsDocuments platform) :
    (assembled platform input results).context =
    joinedText platform input results ((extractiveSummary platform input.budget
      input.formatOptions input.compressionOptions (selectedText platform input results)
      (selection platform input results).2).map Prod.fst) := by
  cases results with
  | nil =>
    have nothing : selection platform input [] = ([], []) := rfl
    have silent : selectedText platform input [] = "" := rfl
    have none : extractiveSummary platform input.budget input.formatOptions
        input.compressionOptions "" [] = none := by
      simp [extractiveSummary]
    simp only [joinedText, silent, nothing, none, Option.map_none, if_true]
    rfl
  | cons result results =>
    have unfolded : (assembled platform input (result :: results)).context =
        let main := selectedText platform input (result :: results)
        let withSummary := joinedSummary platform input main (extractiveSummary platform
          input.budget input.formatOptions input.compressionOptions main
            (selection platform input (result :: results)).2)
        if withSummary = "" then emptyContextMessage else withSummary := rfl
    rw [unfolded]
    simp only [joinedText]
    cases summary : extractiveSummary platform input.budget input.formatOptions
        input.compressionOptions (selectedText platform input (result :: results))
        (selection platform input (result :: results)).2 with
    | none => rfl
    | some entry =>
      have present : entry.1.text ≠ "" := by
        simp only [extractiveSummary, Option.ite_none_right_eq_some,
          Option.ite_none_left_eq_some, Option.some.injEq] at summary
        obtain ⟨_, _, present, rfl⟩ := summary
        exact present
      obtain ⟨compressed, skipped⟩ := entry
      by_cases empty : selectedText platform input (result :: results) = ""
      · simp only [joinedSummary, empty, if_true, if_neg present, Option.map_some]
      · have merged := mergeContextWithSummary_ne_empty reads empty present
        simp only [joinedSummary, if_neg empty, if_neg merged, Option.map_some]

/-- The answer when the provider's reply to a request for a summary is given. -/
def contextWithReply (engine : MemoryEngine) (input : BuildContextInput)
    (results : List MemorySearchResult) (reply : Option String) : BuildContextOutput :=
  let assembled := assembled engine.platform input results
  let summaryBudget := effectiveSummaryBudget assembled.budget.availableTokens
    assembled.budget.usedTokens input.compressionOptions.summaryMaxTokens
  let format := input.formatOptions.format
  let includeSummarySection := input.compressionOptions.includeSummarySection
  if decide (input.compressionOptions.mode = .providerSummary) &&
      !assembled.skippedItems.isEmpty && decide (0 < summaryBudget) then
    uncachedOutput (match reply with
      | some text => applyProviderCompressionSummary engine.platform assembled
          (wrapProviderSummary engine.platform text assembled.skippedItems.length format
            includeSummarySection) format assembled.budget.availableTokens .providerSummary
      | none => applyProviderCompressionSummary engine.platform assembled
          (SimpleContextCompressor.compress engine.platform assembled.skippedItems summaryBudget
            format includeSummarySection) format assembled.budget.availableTokens
          .simpleExtractive)
  else uncachedOutput assembled

/-- The tokens that are left for the provider's summary. -/
theorem providerBudget (reads : ReadsDocuments platform)
    (provider : input.compressionOptions.mode = .providerSummary)
    (skipping : (selection platform input results).2.isEmpty = false) :
    effectiveSummaryBudget (assembled platform input results).budget.availableTokens
      (assembled platform input results).budget.usedTokens
      input.compressionOptions.summaryMaxTokens = summaryTokens platform input results := by
  have ranked : results.isEmpty = false := by
    cases results with
    | nil => simp [selection, selectItems] at skipping
    | cons result results => rfl
  have context := @assembled_context platform input results reads
  rw [extractiveSummary_none (by simp [provider])] at context
  simp only [Option.map_none, joinedText] at context
  simp only [assembled_availableTokens, assembled_usedTokens, ranked, context, summaryTokens,
    provider, Bool.false_eq_true, if_false]

/-- With a summary of the provider, the text joins the assembled one and the summary. -/
theorem applyProviderCompressionSummary_context (reads : ReadsDocuments platform)
    (provider : input.compressionOptions.mode = .providerSummary)
    (compressed : CompressedContext) (mode : ContextCompressionMode) (availableTokens : ℕ) :
    (applyProviderCompressionSummary platform (assembled platform input results) compressed
      input.formatOptions.format availableTokens mode).context =
      joinedText platform input results
        (if compressed.text = "" then none else some compressed) := by
  have context := @assembled_context platform input results reads
  rw [extractiveSummary_none (by simp [provider])] at context
  simp only [Option.map_none, joinedText] at context
  unfold applyProviderCompressionSummary
  by_cases blank : compressed.text = ""
  · simp only [if_pos blank, context, joinedText]
  · simp only [if_neg blank, context, joinedText]
    by_cases empty : selectedText platform input results = ""
    · simp only [empty, if_true]
    · simp only [empty, if_false, if_neg (selectedText_opens empty).ne_message]

/-- The answer's memories are the selected ones. -/
theorem contextWithReply_memories (engine : MemoryEngine) (reply : Option String) :
    (contextWithReply engine input results reply).memories =
      (selection engine.platform input results).1 := by
  have selected : (assembled engine.platform input results).memories =
      (selection engine.platform input results).1 := by
    cases results with
    | nil => rfl
    | cons result results => rfl
  have summarised (compressed : CompressedContext) (format : ContextFormat) (tokens : ℕ)
      (mode : ContextCompressionMode) : (applyProviderCompressionSummary engine.platform
        (assembled engine.platform input results) compressed format tokens mode).memories =
          (selection engine.platform input results).1 := by
    unfold applyProviderCompressionSummary
    split
    · exact selected
    · exact selected
  unfold contextWithReply
  dsimp only
  split
  · cases reply with
    | none => exact summarised _ _ _ _
    | some text => exact summarised _ _ _ _
  · exact selected

/-- The answer's text joins the selected memories and the summary of the skipped ones. -/
theorem contextWithReply_context {engine : MemoryEngine}
    (reads : ReadsDocuments engine.platform) (reply : Option String) :
    (contextWithReply engine input results reply).context =
      joinedText engine.platform input results (summaryOf engine.platform input results reply) := by
  have assembledText := @assembled_context engine.platform input results reads
  have skippedItems := @assembled_skippedItems engine.platform input results
  by_cases provider : input.compressionOptions.mode = .providerSummary
  · have local' := @extractiveSummary_none engine.platform input results
      (show input.compressionOptions.mode ≠ .simpleExtractive by simp [provider])
    cases skipping : (selection engine.platform input results).2.isEmpty with
    | true =>
      have silent : summaryOf engine.platform input results reply = none := by
        simp [summaryOf, skipping]
      simp only [contextWithReply, skippedItems, skipping, provider, silent, uncachedOutput,
        assembledText, local', Option.map_none, Bool.not_true, Bool.and_false, Bool.false_and,
        Bool.false_eq_true, if_false]
    | false =>
      have tokens := providerBudget reads provider skipping
      by_cases zero : summaryTokens engine.platform input results = 0
      · have silent : summaryOf engine.platform input results reply = none := by
          simp [summaryOf, zero]
        simp [contextWithReply, tokens, zero, silent, uncachedOutput, assembledText, local']
      · have left : 0 < summaryTokens engine.platform input results := by omega
        simp only [contextWithReply, skippedItems, skipping, provider, tokens, left, summaryOf,
          uncachedOutput, decide_true, Bool.not_false, Bool.and_self, if_true, zero,
          Bool.false_eq_true, false_or]
        cases reply with
        | none => exact applyProviderCompressionSummary_context reads provider _ _ _
        | some text => exact applyProviderCompressionSummary_context reads provider _ _ _
  · have notProvider : (contextWithReply engine input results reply).context =
        (assembled engine.platform input results).context := by
      simp [contextWithReply, provider, uncachedOutput]
    rw [notProvider, assembledText]
    by_cases extractive : input.compressionOptions.mode = .simpleExtractive
    · rw [extractiveSummary_fst reply extractive]
    · have disabled : input.compressionOptions.mode = .disabled := by
        cases mode : input.compressionOptions.mode <;> simp_all
      have silent : summaryOf engine.platform input results reply = none := by
        simp [summaryOf, summaryTokens, disabled]
      rw [extractiveSummary_none extractive, silent]
      rfl

/-- The reported tokens are the estimate of a text, or what the budget leaves of it. -/
def Reports (usedTokens availableTokens : ℕ) (context : String) : Prop :=
  usedTokens = estimateTokens context ∨
    usedTokens = min (estimateTokens context) availableTokens

theorem assembled_reports :
    Reports (assembled platform input results).budget.usedTokens input.budget.availableTokens
      (assembled platform input results).context := by
  unfold Reports
  rw [assembled_usedTokens]
  split_ifs
  · exact .inl rfl
  · exact .inr rfl

theorem applyProviderCompressionSummary_reports (compressed : CompressedContext)
    (format : ContextFormat) (mode : ContextCompressionMode) :
    let summarised := applyProviderCompressionSummary platform (assembled platform input results)
      compressed format (assembled platform input results).budget.availableTokens mode
    Reports summarised.budget.usedTokens input.budget.availableTokens summarised.context := by
  intro summarised
  by_cases blank : compressed.text = ""
  · have same : summarised = assembled platform input results := by
      simp only [summarised, applyProviderCompressionSummary, if_pos blank]
    rw [same]
    exact assembled_reports
  · right
    simp only [summarised, applyProviderCompressionSummary, if_neg blank,
      assembled_availableTokens]

theorem contextWithReply_reports {engine : MemoryEngine} (reply : Option String) :
    let output := contextWithReply engine input results reply
    Reports output.budget.usedTokens input.budget.availableTokens output.context := by
  simp only [contextWithReply]
  split_ifs
  · cases reply with
    | none => exact applyProviderCompressionSummary_reports _ _ _
    | some text => exact applyProviderCompressionSummary_reports _ _ _
  · exact assembled_reports

end Assembly

/-! ## The provider's reply in a run -/

/-- The reply of the provider to the last request for a summary that it answered. -/
def replyAfter (reply : Option String) : EngineEvent → Option String
  | ⟨.provider (.summarizeMemory _ _ _), .ok text⟩ => some text
  | _ => reply

/-- A protocol without restrictions that keeps the reply. -/
def replyProtocol : Protocol enginePorts MemcoreError (Option String) :=
  ⟨fun _ _ => True, fun reply port answer => replyAfter reply ⟨port, answer⟩⟩

def providerReply (trace : List EngineEvent) : Option String := trace.foldl replyAfter none

theorem ensures_reply_perform {port : Port} {reply : Option String}
    {post : MemcoreResult port.Answer → Option String → Prop}
    (holds : ∀ answer, post answer (replyAfter reply ⟨port, answer⟩)) :
    Ensures replyProtocol.spec (perform port) post reply :=
  (@ensures_call enginePorts MemcoreError (Option String) replyProtocol.spec reply port post).mpr
    ⟨trivial, holds⟩

/-- Facts are made of skipped memories without the provider. -/
theorem contextItemsToFacts_reply (items : List ContextMemoryItem) (reply : Option String) :
    Ensures replyProtocol.spec (contextItemsToFacts items)
      (fun _ later => later = reply) reply := by
  induction items with
  | nil => exact (ensures_pure _ _ _ _).mpr rfl
  | cons item items inductionHypothesis =>
    simp only [contextItemsToFacts, contextItemToFact, ensures_bind]
    apply ensures_reply_perform
    intro answer
    cases answer with
    | error error => exact (andThen_error _ _ _ _ _).mpr rfl
    | ok current =>
      simp only [andThen_ok, ensures_check]
      generalize Fact.new _ = built
      cases built with
      | error error => exact (andThen_error _ _ _ _ _).mpr rfl
      | ok fact =>
        simp only [andThen_ok, ensures_bind]
        refine inductionHypothesis.mono replyProtocol.spec_monotone ?_
        intro outcome later same
        cases outcome with
        | error error => exact (andThen_error _ _ _ _ _).mpr same
        | ok facts => exact (andThen_ok _ _ _ _ _).mpr ((ensures_pure _ _ _ _).mpr same)

/-- The provider's summary is that of its reply; without a reply there is none. -/
theorem llmSummarizeMemories_reply (engine : MemoryEngine) (tenant : TenantContext)
    (memories : List ContextMemoryItem) (maxTokens : ℕ) (format : ContextFormat)
    (includeSummarySection : Bool) :
    Ensures replyProtocol.spec
      (llmSummarizeMemories engine tenant memories maxTokens format includeSummarySection)
      (fun outcome reply => match reply with
        | some text => outcome = .ok (wrapProviderSummary engine.platform text memories.length
            format includeSummarySection)
        | none => ∃ error, outcome = .error error) none := by
  simp only [llmSummarizeMemories, ensures_bind]
  refine (contextItemsToFacts_reply memories none).mono replyProtocol.spec_monotone ?_
  rintro outcome _ rfl
  cases outcome with
  | error error => exact (andThen_error _ _ _ _ _).mpr ⟨error, rfl⟩
  | ok facts =>
    simp only [andThen_ok, ensures_bind]
    apply ensures_reply_perform
    intro answer
    cases answer with
    | error error => exact (andThen_error _ _ _ _ _).mpr ⟨error, rfl⟩
    | ok text => exact (andThen_ok _ _ _ _ _).mpr ((ensures_pure _ _ _ _).mpr rfl)

/-- An answer is determined by the ranked memories and the provider's reply. -/
theorem contextFromResults_reply (engine : MemoryEngine) (input : BuildContextInput)
    (results : List MemorySearchResult) :
    Ensures replyProtocol.spec (contextFromResults engine input results)
      (fun outcome reply => outcome = .ok (contextWithReply engine input results reply)) none := by
  have folded : assembleContextWithBudget engine.platform results input.includeMetadata
      input.formatOptions input.budget input.compressionOptions =
        assembled engine.platform input results := rfl
  simp only [contextFromResults, contextWithReply, folded]
  split_ifs with summarised
  · have skipping : (assembled engine.platform input results).skippedItems.isEmpty = false := by
      simp only [Bool.and_eq_true, Bool.not_eq_true'] at summarised
      exact summarised.1.2
    simp only [summarizeSkippedMemories, skipping, Bool.false_eq_true, if_false, ensures_bind,
      ensures_attempt]
    refine (llmSummarizeMemories_reply engine _ _ _ _ _).mono replyProtocol.spec_monotone ?_
    intro outcome reply replied
    cases reply with
    | some text =>
      obtain rfl := replied
      simp only [andThen_ok, ensures_pure]
    | none =>
      obtain ⟨error, rfl⟩ := replied
      simp only [andThen_ok, ensures_pure]
  · exact (ensures_pure _ _ _ _).mpr rfl

/-! ## The budget of a run -/

/-- The text is within the budget, and its estimate is what is reported. -/
structure RespectsBudget (input : BuildContextInput) (output : BuildContextOutput) : Prop where
  within : estimateTokens output.context ≤ input.budget.availableTokens
  reported : output.budget.usedTokens = estimateTokens output.context

/-- For every list of ranked memories and in every run, whatever fails in it: the text
that is made of the memories and of the provider's reply respects its budget exactly when
its parts fit together. -/
theorem context_respects_budget_iff (engine : MemoryEngine) (input : BuildContextInput)
    (results : List MemorySearchResult) (reads : ReadsDocuments engine.platform)
    (world final : World) (trace : List EngineEvent) (output : BuildContextOutput)
    (run : Runs (engineServer engine.platform) anyChoice
      (contextFromResults engine input results) world trace (.ok output) final) :
    RespectsBudget input output ↔
      PartsFit engine.platform input results (providerReply trace) := by
  have conforms := contextFromResults_reply engine input results
  obtain ⟨same, _⟩ := run.follows replyProtocol (fun _ _ => True)
    (fun _ _ _ _ _ _ _ _ => trivial) conforms trivial
  obtain rfl : output = contextWithReply engine input results (providerReply trace) :=
    Except.ok.inj same
  rw [← joinedText_within_iff reads, ← contextWithReply_context reads]
  constructor
  · exact RespectsBudget.within
  · intro within
    refine ⟨within, ?_⟩
    rcases @contextWithReply_reports input results engine
      (providerReply trace) with reported | reported
    · exact reported
    · rw [reported]
      omega

instance (input : BuildContextInput) (reply : Option String) :
    Decidable (IsProviders input reply) :=
  inferInstanceAs (Decidable (_ ∧ _))

instance (input : BuildContextInput) (results : List MemorySearchResult)
    (reply : Option String) : Decidable (PartsFit platform input results reply) := by
  unfold PartsFit
  dsimp only
  split
  · infer_instance
  · split_ifs
    · infer_instance
    · split <;> infer_instance

/-- A memory that fits into a small budget, and one that does not. -/
def sampleResults : List MemorySearchResult :=
  ["tea", "Ada takes coffee without sugar, and has asked for it every morning since spring"].map
    fun content => ⟨1, content, .preference, 1, 1, 1, none, .object []⟩

/-- A request for a JSON document with the provider's summary. -/
def sampleJsonContext : BuildContextInput :=
  { sampleContext with
    budget := ⟨30, 0⟩
    formatOptions := { ContextFormatOptions.default with format := .json }
    compressionOptions := ⟨.providerSummary, 10, true⟩ }

/-- The sample platform with a reader that reads the document of the first memory. -/
def Platform.reading : Platform :=
  { Platform.sample with
    parseJson := fun text =>
      if text = "\x7b\"memories\":[\x7b\"content\":\"tea\"\x7d]\x7d" then
        some (.object [("memories", .array [.object [("content", .string "tea")]])])
      else none }

theorem Platform.reading_reads : ReadsDocuments .reading := by
  intro memories options legacyIncludeFactMetadata parsed read
  simp only [reading, Option.ite_none_right_eq_some, Option.some.injEq] at read
  obtain ⟨document, rfl⟩ := read
  cases sectioned : options.sectionByMemoryType with
  | false =>
    simp only [ContextFormatter.payloadMember, sectioned, Bool.false_eq_true, if_false]
    exact ⟨_, rfl⟩
  | true =>
    have third := congrArg (fun text => text.toList[2]?) document
    simp [ContextFormatter.formatJson, ContextFormatter.payloadMember, sectioned, Value.print,
      Value.printMembers, Texts.join, Value.printText, Value.escapeCharacter] at third

theorem context_respects_budget_iff_sample : ∃ trace output final,
    Runs (engineServer .reading) anyChoice
      (contextFromResults (.new .reading) sampleJsonContext sampleResults) (World.empty 1000)
      trace (.ok output) final ∧ RespectsBudget sampleJsonContext output := by
  obtain ⟨trace, outcome, final, run, passes⟩ := exists_run_of_replay (engineServer .reading)
    anyChoice (List.replicate 2 { summary := "likes coffee" })
    (contextFromResults (.new .reading) sampleJsonContext sampleResults) (World.empty 1000)
    (fun result => result.2.1.isOk && decide (providerReply result.1 = some "likes coffee"))
    (by decide +kernel)
  simp only [Bool.and_eq_true, decide_eq_true_eq] at passes
  obtain ⟨returned, replied⟩ := passes
  cases outcome with
  | error error => simp [Except.isOk, Except.toBool] at returned
  | ok output =>
    refine ⟨trace, output, final, run, (context_respects_budget_iff (.new .reading)
      sampleJsonContext sampleResults Platform.reading_reads (World.empty 1000) final trace output
      run).mpr ?_⟩
    rw [replied]
    decide +kernel

/-- A request for a context of fifteen tokens, with the provider's summary. -/
def sampleSmallContext : BuildContextInput :=
  { sampleContext with budget := ⟨15, 0⟩, compressionOptions := ⟨.providerSummary, 5, true⟩ }

/-- The provider's summary of a skipped memory is returned whole, although it takes more
tokens than the budget has, and the report does not tell. -/
theorem provider_summary_exceeds_budget : ∃ world trace output final,
    History (.new .sample) anyChoice returning world ∧
    sampleSmallContext.budget.validate = .ok () ∧
    sampleSmallContext.compressionOptions.validate
      sampleSmallContext.budget.availableTokens = .ok () ∧
    Runs (engineServer .sample) anyChoice (buildContext (.new .sample) sampleSmallContext) world
      trace (.ok output) final ∧
    sampleSmallContext.budget.availableTokens < estimateTokens output.context ∧
    output.budget.usedTokens < estimateTokens output.context := by
  obtain ⟨world, history, passes⟩ := @exists_history_of_replay (.new .sample) anyChoice _
    returning _ 1000 [(sampleAdd, sampleAddChoices 1 [1])]
    (fun world => (replay (engineServer .sample) anyChoice (List.replicate 6
        { embedding := [1], summary := "Ada has asked for coffee without sugar every morning" })
      (buildContext (.new .sample) sampleSmallContext) world).any fun result =>
        result.2.1.toOption.any fun (output : BuildContextOutput) =>
          decide (15 < estimateTokens output.context ∧
            output.budget.usedTokens < estimateTokens output.context)) (by decide +kernel)
  obtain ⟨trace, outcome, final, run, exceeds⟩ := exists_run_of_replay _ _ _ _ _ _ passes
  cases outcome with
  | error error => simp [Except.toOption] at exceeds
  | ok output =>
    have exceeds : 15 < estimateTokens output.context ∧
        output.budget.usedTokens < estimateTokens output.context := by
      simpa [Except.toOption] using exceeds
    exact ⟨world, trace, output, final, history, by decide, by decide, run, exceeds⟩

/-- A context that is not cached ends with the assembly of ranked memories. -/
theorem buildContextUncached_assembles {engine : MemoryEngine} {input : BuildContextInput}
    {world final : World} {trace : List EngineEvent} {output : BuildContextOutput}
    (run : Runs (engineServer engine.platform) anyChoice (buildContextUncached engine input) world
      trace (.ok output) final) :
    ∃ results middle before after, trace = before ++ after ∧
      Runs (engineServer engine.platform) anyChoice (contextFromResults engine input results)
        middle after (.ok output) final := by
  rcases run.of_bind with ⟨error, impossible, _⟩ | ⟨maxMemories, _, _, later, rfl, _, rest⟩
  · simp at impossible
  · rcases rest.of_bind with ⟨error, impossible, _⟩ |
      ⟨results, middle, searching, after, rfl, _, assembling⟩
    · simp at impossible
    · exact ⟨results, middle, _ ++ searching, after, (List.append_assoc _ _ _).symm, assembling⟩

end Memcore
