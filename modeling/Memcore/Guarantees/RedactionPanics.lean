import Memcore.Redaction.EmailBytes

/-!
# Panics of the redactor

The redactor always finishes. It panics when a pass looks behind a marker, counts the
characters it trims there and takes the count for a number of bytes that ends inside a
character. Only whitespace that is longer than a byte can bring this about.
-/
namespace Memcore

open Texts Scanners ByteTexts

/-- The texts a pass works on: the input of the first, and what the others before it wrote. -/
def WorksOn (config : RedactionConfig) (input : List Char) (rule : Rule Char) (text : List Char) :
    Prop :=
  ∃ earlier later, redactionRules config = earlier ++ rule :: later ∧
    passes earlier input = some text

/-- A pass that finds its marker at a place and trims what is behind it. -/
inductive LooksBehind : Rule Char → Option Char → List Char → (Char → Bool) → List Char → Prop
  | authorization (before : Option Char) (text : List Char)
      (found : begins "authorization:".toList text = true) :
      LooksBehind redactAuthorizationBearer before text isWhitespace
        (text.drop "authorization:".toList.length)
  | key (pattern : List Char) (before : Option Char) (text : List Char)
      (found : begins pattern text = true) (boundary : atBoundary before = true) :
      LooksBehind (redactAfterPattern pattern) before text precedesValue
        (text.drop pattern.length)

/-- Wherever a pass looks behind a marker, as many bytes as there are characters to trim are
whole characters. -/
def MarkersUncut (config : RedactionConfig) (input : List Char) : Prop :=
  ∀ rule text before place trims behind, WorksOn config input rule text →
    (before, place) ∈ places rule .copying none text →
    LooksBehind rule before place trims behind →
    ∃ front, front <+: behind ∧ byteLength front = (behind.takeWhile trims).length

/-- The slice behind a marker is cut when no characters have so many bytes. -/
theorem trimmedBefore_eq_none_iff (trims : Char → Bool) (behind : List Char) :
    trimmedBefore trims behind = none ↔
      ¬ ∃ front, front <+: behind ∧ byteLength front = (behind.takeWhile trims).length := by
  have sliced := ByteOffsets.sliceTo_eq_outcome (behind.takeWhile trims).length behind
  rw [show sliceBytes _ behind = trimmedBefore trims behind from rfl] at sliced
  constructor
  · rintro cut ⟨front, whole⟩
    rw [sliceTo_ok_iff.mpr whole, cut] at sliced
    nomatch sliced
  · intro cut
    cases trimmedIs : trimmedBefore trims behind with
    | none => rfl
    | some front =>
      rw [trimmedIs] at sliced
      exact absurd ⟨front, sliceTo_ok_iff.mp sliced⟩ cut

/-- A pass that looks behind a marker fails when the slice is cut. -/
theorem fails_of_looksBehind {rule : Rule Char} {before : Option Char} {text behind : List Char}
    {trims : Char → Bool} (looks : LooksBehind rule before text trims behind)
    (cut : trimmedBefore trims behind = none) : rule.sees before text = .fails := by
  cases looks with
  | authorization _ _ found => simp only [redactAuthorizationBearer, found, if_true, cut]
  | key pattern _ _ found boundary =>
    simp only [redactAfterPattern, found, boundary, Bool.and_self, if_true, cut]

theorem authorization_fails {before : Option Char} {text : List Char}
    (fails : redactAuthorizationBearer.sees before text = .fails) :
    ∃ trims behind, LooksBehind redactAuthorizationBearer before text trims behind ∧
      trimmedBefore trims behind = none := by
  cases found : begins "authorization:".toList text with
  | false =>
    rw [authorization_redacts.unseen before text found] at fails
    nomatch fails
  | true =>
    refine ⟨_, _, .authorization before text found, ?_⟩
    cases trimmedIs : trimmedBefore isWhitespace (text.drop "authorization:".toList.length) with
    | none => rfl
    | some trimmed =>
      rw [authorization_mark before found trimmedIs] at fails
      split at fails <;> nomatch fails

/-- Of the other passes only those for keys fail. -/
theorem laterPass_fails {rule : Rule Char} (later : LaterPass rule) {before : Option Char}
    {text : List Char} (fails : rule.sees before text = .fails) :
    ∃ trims behind, LooksBehind rule before text trims behind ∧
      trimmedBefore trims behind = none := by
  cases later with
  | urlScheme scheme =>
    cases found : begins scheme text with
    | false => simp [redactUrlScheme, found] at fails
    | true => simp [redactUrlScheme, found] at fails
  | prefixedToken start =>
    cases found : begins start text && atBoundary before with
    | false =>
      simp only [redactPrefixedToken, found, Bool.false_eq_true, if_false] at fails
      cases fails
    | true =>
      simp only [redactPrefixedToken, found, if_true] at fails
      cases fails
  | afterPattern pattern =>
    cases found : begins pattern text && atBoundary before with
    | false =>
      simp only [redactAfterPattern, found, Bool.false_eq_true, if_false] at fails
      cases fails
    | true =>
      obtain ⟨begun, boundary⟩ := Bool.and_eq_true_iff.mp found
      refine ⟨_, _, .key pattern before text begun boundary, ?_⟩
      cases trimmedIs : trimmedBefore precedesValue (text.drop pattern.length) with
      | none => rfl
      | some trimmed =>
        simp only [redactAfterPattern, found, if_true, trimmedIs] at fails
        cases fails

/-- A pass of a configuration fails where it looks behind a marker and the slice is cut. -/
theorem sees_fails_iff {config : RedactionConfig} {rule : Rule Char}
    (member : rule ∈ redactionRules config) (before : Option Char) (text : List Char) :
    rule.sees before text = .fails ↔
      ∃ trims behind, LooksBehind rule before text trims behind ∧
        trimmedBefore trims behind = none := by
  constructor
  · intro fails
    rw [redactionRules_eq, List.mem_append] at member
    obtain first | later := member
    · obtain rfl := List.mem_singleton.mp (mem_of_mem_ite first)
      exact authorization_fails fails
    · exact laterPass_fails (laterPass_of_mem later) fails
  · rintro ⟨trims, behind, looks, cut⟩
    exact fails_of_looksBehind looks cut

/-- The passes go through unless one of them would cut a character. -/
theorem passes_eq_none_iff_cut (config : RedactionConfig) (input : List Char) :
    passes (redactionRules config) input = none ↔ ¬ MarkersUncut config input := by
  rw [passes_eq_none_iff]
  constructor
  · rintro ⟨earlier, rule, later, text, split, reached, failed⟩ uncut
    have member : rule ∈ redactionRules config := by simp [split]
    rw [Scanners.pass, Option.map_eq_none_iff, scan_eq_none_iff] at failed
    obtain ⟨⟨before, place⟩, listed, fails⟩ := failed
    obtain ⟨trims, behind, looks, cut⟩ := (sees_fails_iff member before place).mp fails
    exact (trimmedBefore_eq_none_iff trims behind).mp cut
      (uncut rule text before place trims behind ⟨earlier, later, split, reached⟩ listed looks)
  · intro cut
    simp only [MarkersUncut, not_forall] at cut
    obtain ⟨rule, text, before, place, trims, behind, ⟨earlier, later, split, reached⟩, listed,
      looks, cutHere⟩ := cut
    refine ⟨earlier, rule, later, text, split, reached, ?_⟩
    rw [Scanners.pass, Option.map_eq_none_iff, scan_eq_none_iff]
    exact ⟨(before, place), listed,
      fails_of_looksBehind looks ((trimmedBefore_eq_none_iff trims behind).mpr cutHere)⟩

/-- The redactor finishes on every message and every configuration, and it panics exactly
where a marker is cut. -/
theorem redactor_panics_iff (config : RedactionConfig) (input : List Char) :
    ByteOffsets.redactStrWithConfig config input ≠ .error .unfinished ∧
      ((∃ out, ByteOffsets.redactStrWithConfig config input = .ok out) ↔
        MarkersUncut config input) := by
  have cut := passes_eq_none_iff_cut config input
  rw [ByteOffsets.redactStrWithConfig_follows, redactStrWithConfig]
  cases reached : passes (redactionRules config) input with
  | none => simp [ByteOffsets.outcome, cut.mp reached]
  | some text =>
    have uncut : MarkersUncut config input := by
      by_contra cutHere
      rw [cut.mpr cutHere] at reached
      cases reached
    simp [ByteOffsets.outcome, uncut]

/-- A no-break space behind an authorization marker takes two bytes but is one character. -/
theorem redactor_panics :
    ¬ ∀ config input, ∃ out, ByteOffsets.redactStrWithConfig config input = .ok out := by
  intro claimed
  obtain ⟨out, redacted⟩ := claimed defaultRedactionConfig "authorization:\u00a0x".toList
  have panics : ByteOffsets.redactStrWithConfig defaultRedactionConfig
      "authorization:\u00a0x".toList = .error .panicked := by decide +kernel
  rw [panics] at redacted
  nomatch redacted

/-- Whitespace of one byte. -/
def NarrowSpace (character : Char) : Prop :=
  isWhitespace character = true → character.utf8Size = 1

theorem narrowSpace_placeholder : ∀ character ∈ "Bearer ".toList ++ redactedPlaceholder,
    NarrowSpace character := by
  have single : ∀ character ∈ "Bearer ".toList ++ redactedPlaceholder, character.utf8Size = 1 := by
    decide
  exact fun character member _ => single character member

theorem narrowSpace_pattern {pattern : List Char}
    (recognised : lowered pattern ∈ recognisedPatterns) :
    ∀ character ∈ pattern, NarrowSpace character := by
  intro character member _
  rw [← ByteOffsets.toLower_utf8Size]
  exact ByteOffsets.patterns_narrow _ recognised _ (List.mem_map_of_mem member)

/-- What a rule writes is taken from the text, or belongs to a pattern or a placeholder. -/
def Writes (rule : Rule Char) : Prop :=
  ∀ before text written width, rule.sees before text = .mark written width →
    ∀ character ∈ written, character ∈ text ∨
      character ∈ "Bearer ".toList ++ redactedPlaceholder ∨
      ∃ pattern, lowered pattern ∈ recognisedPatterns ∧ character ∈ pattern

theorem trimmed_mem {trims : Char → Bool} {text trimmed : List Char} {width : ℕ}
    (trimmedIs : trimmedBefore trims (text.drop width) = some trimmed) {character : Char}
    (member : character ∈ trimmed) : character ∈ text :=
  List.mem_of_mem_drop ((trimmedBefore_some trimmedIs).1.mem member)

theorem authorization_writes : Writes redactAuthorizationBearer := by
  intro before text written width seen character member
  cases found : begins "authorization:".toList text with
  | false =>
    rw [authorization_redacts.unseen before text found] at seen
    nomatch seen
  | true =>
    cases trimmedIs : trimmedBefore isWhitespace (text.drop "authorization:".toList.length) with
    | none =>
      rw [fails_of_looksBehind (.authorization before text found) trimmedIs] at seen
      nomatch seen
    | some trimmed =>
      rw [authorization_mark before found trimmedIs] at seen
      split at seen
      · obtain ⟨rfl, rfl⟩ := Sight.mark.inj seen
        simp only [List.mem_append] at member ⊢
        obtain ((taken | between) | scheme) | placed := member
        · exact .inl (List.mem_of_mem_take taken)
        · exact .inl (trimmed_mem trimmedIs between)
        · exact .inr (.inl (.inl scheme))
        · exact .inr (.inl (.inr placed))
      · obtain ⟨rfl, rfl⟩ := Sight.mark.inj seen
        simp only [List.mem_append] at member ⊢
        obtain (taken | between) | placed := member
        · exact .inl (List.mem_of_mem_take taken)
        · exact .inl (trimmed_mem trimmedIs between)
        · exact .inr (.inl (.inr placed))

theorem laterPass_writes {rule : Rule Char} (later : LaterPass rule) : Writes rule := by
  intro before text written width seen character member
  cases later with
  | urlScheme scheme recognised =>
    cases found : begins scheme text with
    | false =>
      simp only [redactUrlScheme, found, Bool.false_eq_true, if_false] at seen
      cases seen
    | true =>
      simp only [redactUrlScheme, found, if_true] at seen
      obtain ⟨rfl, rfl⟩ := Sight.mark.inj seen
      obtain within | placed := List.mem_append.mp member
      · exact .inr (.inr ⟨scheme, recognised, within⟩)
      · exact .inr (.inl (List.mem_append_right _ placed))
  | prefixedToken start =>
    cases found : begins start text && atBoundary before with
    | false =>
      simp only [redactPrefixedToken, found, Bool.false_eq_true, if_false] at seen
      cases seen
    | true =>
      simp only [redactPrefixedToken, found, if_true] at seen
      obtain ⟨rfl, rfl⟩ := Sight.mark.inj seen
      obtain taken | placed := List.mem_append.mp member
      · exact .inl (List.mem_of_mem_take taken)
      · exact .inr (.inl (List.mem_append_right _ placed))
  | afterPattern pattern =>
    cases found : begins pattern text && atBoundary before with
    | false =>
      simp only [redactAfterPattern, found, Bool.false_eq_true, if_false] at seen
      cases seen
    | true =>
      cases trimmedIs : trimmedBefore precedesValue (text.drop pattern.length) with
      | none =>
        simp only [redactAfterPattern, found, if_true, trimmedIs] at seen
        cases seen
      | some trimmed =>
        simp only [redactAfterPattern, found, if_true, trimmedIs] at seen
        obtain ⟨rfl, rfl⟩ := Sight.mark.inj seen
        simp only [List.mem_append] at member ⊢
        obtain (taken | between) | placed := member
        · exact .inl (List.mem_of_mem_take taken)
        · exact .inl (trimmed_mem trimmedIs between)
        · exact .inr (.inl (.inr placed))

theorem rule_writes {config : RedactionConfig} {rule : Rule Char}
    (member : rule ∈ redactionRules config) : Writes rule := by
  rw [redactionRules_eq, List.mem_append] at member
  obtain first | later := member
  · rw [List.mem_singleton.mp (mem_of_mem_ite first)]
    exact authorization_writes
  · exact laterPass_writes (laterPass_of_mem later)

/-- So a pass writes no wide whitespace for a mark if the text has none. -/
theorem marks_narrow {config : RedactionConfig} {rule : Rule Char}
    (member : rule ∈ redactionRules config) (before : Option Char) (text written : List Char)
    (width : ℕ) (narrow : ∀ character ∈ text, NarrowSpace character)
    (seen : rule.sees before text = .mark written width) :
    ∀ character ∈ written, NarrowSpace character := by
  intro character within
  obtain taken | placed | ⟨pattern, recognised, inPattern⟩ :=
    rule_writes member before text written width seen character within
  · exact narrow character taken
  · exact narrowSpace_placeholder character placed
  · exact narrowSpace_pattern recognised character inPattern

/-- What is trimmed behind a marker is whitespace or a quotation mark. -/
theorem trims_narrow {rule : Rule Char} {before : Option Char} {place behind : List Char}
    {trims : Char → Bool} (looks : LooksBehind rule before place trims behind) :
    behind <:+ place ∧ ∀ character, trims character = true → NarrowSpace character →
      character.utf8Size = 1 := by
  cases looks with
  | authorization => exact ⟨List.drop_suffix _ _, fun _ trimmed narrow => narrow trimmed⟩
  | key =>
    refine ⟨List.drop_suffix _ _, fun character trimmed narrow => ?_⟩
    simp only [precedesValue, Bool.or_eq_true, beq_iff_eq] at trimmed
    obtain (space | rfl) | rfl := trimmed
    · exact narrow space
    · decide
    · decide

/-- The redactor goes through on every message whose whitespace is of single bytes. -/
theorem uncut_of_narrowSpace (config : RedactionConfig) {input : List Char}
    (narrow : ∀ character ∈ input, NarrowSpace character) : MarkersUncut config input := by
  intro rule text before place trims behind works listed looks
  obtain ⟨earlier, later, split, reached⟩ := works
  have holds : ∀ character ∈ text, NarrowSpace character := by
    have listedEarlier : ∀ other ∈ earlier, other ∈ redactionRules config := fun other member =>
      split ▸ List.mem_append_left (rule :: later) member
    exact passes_write (fun other member => marks_narrow (listedEarlier other member)) narrow
      reached
  obtain ⟨suffix, single⟩ := trims_narrow looks
  refine ⟨behind.takeWhile trims, List.takeWhile_prefix trims, byteLength_of_single ?_⟩
  intro character member
  have inText :=
    (suffix.trans (places_suffix listed)).mem ((List.takeWhile_prefix trims).mem member)
  exact single character (List.mem_takeWhile_imp member) (holds character inText)

end Memcore
