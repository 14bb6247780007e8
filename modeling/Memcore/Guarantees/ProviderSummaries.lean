import Memcore.Context.Options
import Memcore.Providers.OpenAiLlm

/-!
# Lengths of provider summaries

A summary is limited in tokens, which the estimator counts as quarters of characters. The provider
compares the bytes of the text with four times the limit and cuts at that byte. The cut is safe when
the bytes are within the limit, or when a character begins at the limit and the estimate is above it.
Otherwise the program panics or cuts a text whose estimate is within the limit.
-/
namespace Memcore

open ByteTexts

/-- A cut that keeps to the estimator's limit and takes no more from the text than it has to. -/
def CutSafely (text : String) (maxTokens : ℕ) (result : Run (MemcoreResult String)) : Prop :=
  ∃ cut, result = .ok (.ok cut) ∧ cut.toList <+: text.toList ∧
    (estimateTokens text ≤ maxTokens → cut = text) ∧
    (maxTokens < estimateTokens text → estimateTokens cut ≤ maxTokens)

/-- A character of the text begins at a byte, or the text ends there. -/
def IsCharBoundary (text : String) (offset : ℕ) : Prop :=
  ∃ front, front <+: text.toList ∧ byteLength front = offset

/-- A text of few bytes has a small estimate. -/
theorem estimateTokens_le_of_bytes {text : String} {maxTokens : ℕ}
    (few : byteLength text.toList ≤ usizeSaturatingMul maxTokens 4) :
    estimateTokens text ≤ maxTokens := by
  rw [estimateTokens_le]
  have characters := length_le_byteLength text.toList
  rw [String.length_toList] at characters
  unfold usizeSaturatingMul at few
  omega

theorem summarizeMemory_eq (client : OpenAiClient) (input : SummarizationInput) (text : String)
    (answered : client.requestPlainText summarizationInstructions input.payload = .ok text) :
    summarizeMemory client input = (cutSummary text input.maxTokens).map .ok := by
  rw [summarizeMemory, answered]

/-- The truncation of a summary is safe exactly when the text has few enough bytes, or has to be cut
and can be cut at the limit. -/
theorem summary_cut_safely_iff (client : OpenAiClient) (input : SummarizationInput)
    (text : String) (maxTokens : ℕ) (limited : input.maxTokens = some maxTokens)
    (answered : client.requestPlainText summarizationInstructions input.payload = .ok text) :
    CutSafely text maxTokens (summarizeMemory client input) ↔
      byteLength text.toList ≤ usizeSaturatingMul maxTokens 4 ∨
        maxTokens < estimateTokens text ∧
          IsCharBoundary text (usizeSaturatingMul maxTokens 4) := by
  rw [summarizeMemory_eq client input text answered, limited]
  by_cases few : byteLength text.toList ≤ usizeSaturatingMul maxTokens 4
  · have whole : cutSummary text (some maxTokens) = .ok text := if_neg (Nat.not_lt.mpr few)
    rw [whole]
    have small := estimateTokens_le_of_bytes few
    exact iff_of_true
      ⟨text, rfl, List.prefix_rfl, fun _ => rfl, fun large => absurd small (Nat.not_le.mpr large)⟩
      (.inl few)
  · have many : usizeSaturatingMul maxTokens 4 < byteLength text.toList := Nat.lt_of_not_le few
    have sliced : cutSummary text (some maxTokens) =
        (sliceTo (usizeSaturatingMul maxTokens 4) text.toList).map String.ofList := if_pos many
    rw [sliced, or_iff_right few]
    constructor
    · rintro ⟨cut, result, _, kept, _⟩
      cases taken : sliceTo (usizeSaturatingMul maxTokens 4) text.toList with
      | error stop =>
        rw [taken] at result
        cases result
      | ok front =>
        obtain ⟨begins, long⟩ := sliceTo_ok_iff.mp taken
        rw [taken] at result
        obtain rfl : String.ofList front = cut := Except.ok.inj (Except.ok.inj result)
        refine ⟨Nat.lt_of_not_le fun small => ?_, front, begins, long⟩
        have same := congrArg (fun text : String => byteLength text.toList) (kept small)
        simp only [String.toList_ofList] at same
        omega
    · rintro ⟨large, front, begins, long⟩
      have taken := sliceTo_ok_iff.mpr ⟨begins, long⟩
      rw [taken]
      refine ⟨String.ofList front, rfl, ?_, fun small => absurd small (Nat.not_le.mpr large),
        fun _ => ?_⟩
      · rw [String.toList_ofList]
        exact begins
      · apply estimateTokens_le_of_bytes
        rw [String.toList_ofList, long]

/-- A model that answers a summary of one token with an accented letter. -/
def accentedClient : OpenAiClient where
  requestJson _ _ _ _ := .ok ""
  requestPlainText _ _ := .ok "abcé"

/-- A text within the limit of one token. -/
theorem summary_cut_safely_iff_sample :
    CutSafely "abcd" 1 (summarizeMemory
      ⟨fun _ _ _ _ => .ok "", fun _ _ => .ok "abcd"⟩ ⟨⟨"o", "u"⟩, [], some 1⟩) :=
  (summary_cut_safely_iff ⟨fun _ _ _ _ => .ok "", fun _ _ => .ok "abcd"⟩ ⟨⟨"o", "u"⟩, [], some 1⟩
    "abcd" 1 rfl rfl).mpr (.inl (by decide))

/-- A summary of four characters and five bytes is cut inside its last character. -/
theorem accented_summary_panics :
    summarizeMemory accentedClient ⟨⟨"o", "u"⟩, [], some 1⟩ = .error .panicked ∧
      estimateTokens "abcé" = 1 ∧
      ¬CutSafely "abcé" 1 (summarizeMemory accentedClient ⟨⟨"o", "u"⟩, [], some 1⟩) := by
  have panicked : summarizeMemory accentedClient ⟨⟨"o", "u"⟩, [], some 1⟩ = .error .panicked := by
    decide +kernel
  refine ⟨panicked, by decide, ?_⟩
  rintro ⟨cut, result, _⟩
  rw [panicked] at result
  cases result

end Memcore
