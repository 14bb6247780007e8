import Memcore.Foundations.Selections
import Memcore.Guarantees.ContextBudget

/-!
# The memories of a context

Memories are selected one by one in the order of their rank. The loop compares the tokens
used so far and the tokens that a memory adds with the tokens available; as long as the
selection is within these, that is to compare the formatted text with the memory in it. What
a memory adds may be anything, since a section regroups the text.
-/
namespace Memcore

open Selections

variable (platform : Platform)

/-- Whether the text of the included memories and one more is within some tokens. -/
def FitsWith (formatOptions : ContextFormatOptions) (legacyIncludeFactMetadata : Bool)
    (tokens : ℕ) (included : List ContextMemoryItem) (item : ContextMemoryItem) : Prop :=
  estimateTokens (ContextFormatter.format platform (included ++ [item]) formatOptions
    legacyIncludeFactMetadata) ≤ tokens

variable {platform} {formatOptions : ContextFormatOptions} {legacyIncludeFactMetadata : Bool}
  {tokens : ℕ}

/-- The comparison of the loop, for a selection within the tokens. -/
theorem fitsWith_iff {included : List ContextMemoryItem}
    (within : estimateContextTokens platform included formatOptions legacyIncludeFactMetadata ≤
      tokens) (item : ContextMemoryItem) :
    estimateContextTokens platform included formatOptions legacyIncludeFactMetadata +
        tokenDeltaForAddition platform included item formatOptions legacyIncludeFactMetadata ≤
          tokens ↔
      FitsWith platform formatOptions legacyIncludeFactMetadata tokens included item := by
  have more : estimateContextTokens platform (included ++ [item]) formatOptions
      legacyIncludeFactMetadata = estimateTokens (ContextFormatter.format platform
        (included ++ [item]) formatOptions legacyIncludeFactMetadata) := by
    cases included <;> rfl
  rw [tokenDeltaForAddition, FitsWith, ← more]
  omega

/-- The loop selects greedily, from any selection within the tokens. -/
theorem selectItems_greedy (items included skipped : List ContextMemoryItem)
    (within : estimateContextTokens platform included formatOptions legacyIncludeFactMetadata ≤
      tokens) :
    ∃ marks, Greedy (FitsWith platform formatOptions legacyIncludeFactMetadata tokens) included
        items marks ∧
      selectItems platform formatOptions legacyIncludeFactMetadata tokens included skipped items =
        (included ++ chosen marks items, skipped ++ passedOver marks items) := by
  induction items generalizing included skipped with
  | nil => exact ⟨[], .nil _ _, by simp [selectItems]⟩
  | cons item items inductionHypothesis =>
    by_cases fits : FitsWith platform formatOptions legacyIncludeFactMetadata tokens included item
    · have added : estimateContextTokens platform (included ++ [item]) formatOptions
          legacyIncludeFactMetadata ≤ tokens := by
        have sum := (fitsWith_iff within item).mpr fits
        rw [tokenDeltaForAddition] at sum
        omega
      obtain ⟨marks, greedy, selected⟩ := inductionHypothesis (included ++ [item]) skipped added
      refine ⟨true :: marks, greedy.take fits, ?_⟩
      rw [selectItems, if_pos ((fitsWith_iff within item).mpr fits), selected]
      simp
    · obtain ⟨marks, greedy, selected⟩ := inductionHypothesis included (skipped ++ [item]) within
      refine ⟨false :: marks, greedy.skip fits, ?_⟩
      rw [selectItems, if_neg fun sum => fits ((fitsWith_iff within item).mp sum), selected]
      simp

/-- What is assembled without compression, of any memories. -/
theorem assembleContextWithBudget_disabled (memories : List MemorySearchResult)
    (budget : ContextBudget) {compressionOptions : ContextCompressionOptions}
    (disabled : compressionOptions.mode = .disabled) :
    let assembled := assembleContextWithBudget platform memories legacyIncludeFactMetadata
      formatOptions budget compressionOptions
    let selected := selectItems platform formatOptions legacyIncludeFactMetadata
      budget.availableTokens [] [] memories
    assembled.memories = selected.1 ∧ assembled.skippedItems = selected.2 ∧
      assembled.budget.includedMemories = selected.1.length ∧
      assembled.budget.skippedMemories = selected.2.length ∧
      assembled.context = ContextFormatter.format platform selected.1 formatOptions
        legacyIncludeFactMetadata := by
  have share : memoryAvailable budget compressionOptions = budget.availableTokens := by
    simp [memoryAvailable, disabled, ContextCompressionMode.isEnabled]
  cases memories with
  | nil => exact ⟨rfl, rfl, rfl, rfl, rfl⟩
  | cons memory memories =>
    dsimp only
    rw [assembleContextWithBudget, share]
    generalize selectItems platform formatOptions legacyIncludeFactMetadata budget.availableTokens
      [] [] (memory :: memories) = selected
    obtain ⟨included, skipped⟩ := selected
    have noSummary (context : String) : extractiveSummary platform budget formatOptions
        compressionOptions context skipped = none := by
      rw [extractiveSummary, disabled]
      apply if_neg
      rintro ⟨enabled, _⟩
      cases enabled
    refine ⟨rfl, rfl, rfl, rfl, ?_⟩
    dsimp only
    rw [noSummary]
    cases included with
    | nil => rfl
    | cons first rest =>
      have present : ContextFormatter.format platform (first :: rest) formatOptions
          legacyIncludeFactMetadata ≠ "" :=
        (ContextFormatter.format_opens platform _ _ _ (List.cons_ne_nil first rest)).ne_empty
      exact if_neg present

/-- Without compression the included memories and the skipped ones are the candidates, each
part in its order. A memory is skipped just when the text of those included before it and of
the memory exceeds the available tokens, and the context is the text of the included ones. -/
theorem greedy_selection (platform : Platform) (memories : List MemorySearchResult)
    (legacyIncludeFactMetadata : Bool) (formatOptions : ContextFormatOptions)
    (budget : ContextBudget) (compressionOptions : ContextCompressionOptions)
    (disabled : compressionOptions.mode = .disabled) :
    let assembled := assembleContextWithBudget platform memories legacyIncludeFactMetadata
      formatOptions budget compressionOptions
    (∃ marks : List Bool, marks.length = memories.length ∧
      assembled.memories = chosen marks memories ∧
      assembled.skippedItems = passedOver marks memories ∧
      ∀ place memory, memories[place]? = some memory →
        (marks[place]? = some false ↔ budget.availableTokens < estimateTokens
          (ContextFormatter.format platform
            (chosen (marks.take place) (memories.take place) ++ [memory]) formatOptions
            legacyIncludeFactMetadata))) ∧
      assembled.memories.Sublist memories ∧ assembled.skippedItems.Sublist memories ∧
      (assembled.memories ++ assembled.skippedItems).Perm memories ∧
      assembled.budget.includedMemories = assembled.memories.length ∧
      assembled.budget.skippedMemories = assembled.skippedItems.length ∧
      assembled.context = ContextFormatter.format platform assembled.memories formatOptions
        legacyIncludeFactMetadata := by
  obtain ⟨included, skipped, countIncluded, countSkipped, context⟩ :=
    @assembleContextWithBudget_disabled platform formatOptions legacyIncludeFactMetadata memories
      budget compressionOptions disabled
  have start : estimateContextTokens platform [] formatOptions legacyIncludeFactMetadata ≤
      budget.availableTokens := Nat.zero_le _
  obtain ⟨marks, greedy, selected⟩ := selectItems_greedy memories [] [] start
  rw [selected] at included skipped countIncluded countSkipped context
  rw [List.nil_append] at included skipped countIncluded countSkipped context
  dsimp only
  rw [included, skipped]
  refine ⟨⟨marks, greedy.length, rfl, rfl, fun place memory found => ?_⟩, chosen_sublist _ _,
    passedOver_sublist _ _, perm_chosen_passedOver greedy.length, countIncluded, countSkipped,
    context⟩
  rw [greedy.passes place found, FitsWith, not_le]
  rfl

theorem greedy_selection_sample :
    let assembled := assembleContextWithBudget .sample sampleResults.reverse false .default ⟨15, 0⟩
      ⟨.disabled, 10, true⟩
    assembled.memories.map MemorySearchResult.content = ["tea"] ∧
      assembled.skippedItems.length = 1 ∧
      (assembled.memories ++ assembled.skippedItems).Perm sampleResults.reverse ∧
      assembled.context = ContextFormatter.format .sample assembled.memories .default false := by
  obtain ⟨_, _, _, parts, _, _, context⟩ :=
    greedy_selection .sample sampleResults.reverse false .default ⟨15, 0⟩ ⟨.disabled, 10, true⟩ rfl
  exact ⟨by decide +kernel, by decide +kernel, parts, context⟩

end Memcore
