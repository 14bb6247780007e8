import Memcore.Foundations.Selections
import Memcore.Guarantees.ContextBudget

/-!
# The bullets of a summary

The compressor adds bullets while the formatted summary is within its tokens and stops at
the first bullet with which it is not. Heading and punctuation count as well. A summary with
more bullets is never shorter, so the loop stops at the longest beginning that fits.
-/
namespace Memcore

open Selections

variable (platform : Platform)

/-- A summary with more bullets is no shorter. -/
theorem length_formatSummaryText_le (bullets more : List String) (format : ContextFormat)
    (includeSummarySection : Bool) :
    (formatSummaryText platform bullets format includeSummarySection).length ≤
      (formatSummaryText platform (bullets ++ more) format includeSummarySection).length := by
  cases bullets with
  | nil => exact Nat.zero_le _
  | cons bullet bullets =>
    simp only [formatSummaryText, List.cons_append, List.isEmpty_cons, Bool.false_eq_true, if_false]
    cases format with
    | plainText =>
      cases includeSummarySection with
      | true =>
        have longer := Texts.length_join_le_append "\n" ("Compressed Memory Summary:" ::
          (bullet :: bullets).map ("- " ++ ·)) (more.map ("- " ++ ·))
        simpa using longer
      | false =>
        have longer := Texts.length_join_le_append "\n" ((bullet :: bullets).map ("- " ++ ·))
          (more.map ("- " ++ ·))
        simpa using longer
    | markdown =>
      cases includeSummarySection with
      | true =>
        have longer := Texts.length_join_le_append "\n" ("## Compressed Memory Summary" ::
          (bullet :: bullets).map ("- " ++ ·)) (more.map ("- " ++ ·))
        simpa using longer
      | false =>
        have longer := Texts.length_join_le_append "\n" ((bullet :: bullets).map ("- " ++ ·))
          (more.map ("- " ++ ·))
        simpa using longer
    | json =>
      have longer := Texts.length_join_le_append "," ((bullet :: bullets).map Value.printText)
        (more.map Value.printText)
      have items (texts : List String) : Value.printItems platform.formatFloat
          (texts.map Value.string) = texts.map Value.printText := by
        rw [Value.printItems_eq_map, List.map_map]
        rfl
      simp only [summaryObject, Value.print, Value.printMembers, items, Texts.join,
        String.length_append]
      rw [← List.cons_append, List.map_append]
      omega

/-- Whether the summary of the first memories is within some tokens. -/
def SummaryFits (maxTokens : ℕ) (format : ContextFormat) (includeSummarySection : Bool)
    (memories : List ContextMemoryItem) : Prop :=
  estimateTokens (formatSummaryText platform
    (memories.map fun memory => bulletContent memory.content) format includeSummarySection) ≤
      maxTokens

variable {platform} {maxTokens : ℕ} {format : ContextFormat} {includeSummarySection : Bool}

/-- What begins a list that fits does so as well. -/
theorem SummaryFits.shorter (front rest : List ContextMemoryItem)
    (fits : SummaryFits platform maxTokens format includeSummarySection (front ++ rest)) :
    SummaryFits platform maxTokens format includeSummarySection front := by
  rw [SummaryFits, estimateTokens_le] at fits ⊢
  rw [List.map_append] at fits
  exact (length_formatSummaryText_le platform _ _ format includeSummarySection).trans fits

theorem summaryFits_nil : SummaryFits platform maxTokens format includeSummarySection [] :=
  Nat.zero_le _

/-- The loop, after some memories whose bullets fit, stops at the longest beginning. -/
theorem collectBullets_longest (before memories : List ContextMemoryItem)
    (fits : SummaryFits platform maxTokens format includeSummarySection before) :
    ∃ count, LongestFitting (fun front => SummaryFits platform maxTokens format
        includeSummarySection (before ++ front)) memories count ∧
      collectBullets platform maxTokens format includeSummarySection
          (before.map fun memory => bulletContent memory.content) memories =
        (before ++ memories.take count).map fun memory => bulletContent memory.content := by
  have shorter (before front rest : List ContextMemoryItem)
      (longer : SummaryFits platform maxTokens format includeSummarySection
        (before ++ (front ++ rest))) :
      SummaryFits platform maxTokens format includeSummarySection (before ++ front) := by
    rw [← List.append_assoc] at longer
    exact SummaryFits.shorter _ rest longer
  induction memories generalizing before with
  | nil =>
    refine ⟨0, .of_next (shorter before) le_rfl (by simpa using fits) ?_, by simp [collectBullets]⟩
    intro more
    simp at more
  | cons memory memories inductionHypothesis =>
    have candidate : (before.map fun memory => bulletContent memory.content) ++
        [bulletContent memory.content] =
          (before ++ [memory]).map fun memory => bulletContent memory.content := by simp
    by_cases fitting : SummaryFits platform maxTokens format includeSummarySection
        (before ++ [memory])
    · obtain ⟨count, longest, collected⟩ := inductionHypothesis (before ++ [memory]) fitting
      refine ⟨count + 1, ⟨?_, ?_, ?_⟩, ?_⟩
      · have within := longest.within
        rw [List.length_cons]
        omega
      · simpa using longest.fitting
      · intro longer more within
        obtain ⟨longer, rfl⟩ := Nat.exists_eq_succ_of_ne_zero (by omega : longer ≠ 0)
        rw [List.length_cons] at within
        have tooLong := longest.longest longer (by omega) (by omega)
        simpa using tooLong
      · rw [collectBullets, candidate, if_pos (show _ ≤ maxTokens from fitting), collected]
        simp
    · refine ⟨0, .of_next (shorter before) (Nat.zero_le _) (by simpa using fits) ?_, ?_⟩
      · intro _
        simpa using fitting
      · rw [collectBullets, candidate, if_neg (show ¬ _ ≤ maxTokens from fitting)]
        simp

/-- The summary of no memories is the empty one that the loop makes of them. -/
theorem compress_eq (platform : Platform) (memories : List ContextMemoryItem) (maxTokens : ℕ)
    (format : ContextFormat) (includeSummarySection : Bool) :
    let bullets := collectBullets platform maxTokens format includeSummarySection [] memories
    let text := formatSummaryText platform bullets format includeSummarySection
    SimpleContextCompressor.compress platform memories maxTokens format includeSummarySection =
      ⟨text, bullets.length, estimateTokens text, bullets⟩ := by
  cases memories with
  | nil => rfl
  | cons memory memories => rfl

end Memcore
