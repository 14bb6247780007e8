import Memcore.Foundations.Words
import Memcore.Redaction.Sanitizer
import Mathlib.Data.List.Infix
import Mathlib.Data.List.TakeWhile

/-!
# Patterns of the redactor

Every pass looks for one of a fixed list of patterns. The pieces a message may be cut
into without hiding a pattern across the cut are read off that list: no pattern contains
the bracket that closes a placeholder, and none goes on after what closes a marker. With
this, each pass is a disciplined scanner in which whitespace is the gap and the bracket
is the wall.
-/
namespace Memcore

open Texts Scanners

/-- The patterns of all passes, in lowercase. -/
def recognisedPatterns : List (List Char) :=
  ["authorization:", "bearer "].map String.toList ++
    (databaseUrlSchemes ++ ["sqlite:"] ++ redisUrlSchemes ++ providerKeyPrefixes).map String.toList ++
    keyValueSecretKeys.flatMap keyPatterns

/-- The words the redactor looks for. -/
def markerWords : List (List Char) :=
  ["authorization", "bearer"].map String.toList ++
    (databaseUrlSchemes ++ ["sqlite:"] ++ redisUrlSchemes ++ providerKeyPrefixes ++
      keyValueSecretKeys).map String.toList

/-- Ends of a text after which no pattern that began in it goes on. -/
def sealingEnds : List (List Char) :=
  [[' '], [']'], ['='], ['-'], ['/', '/'], ['v', 'e', '_'], ['s', 't', '_']]

/-- A text that ends like that, without regard to case. -/
def Sealed (text : List Char) : Prop :=
  ∃ tail ∈ sealingEnds, tail <:+ lowered text

@[simp] theorem length_lowered (text : List Char) : (lowered text).length = text.length :=
  List.length_map _

@[simp] theorem lowered_append (first second : List Char) :
    lowered (first ++ second) = lowered first ++ lowered second :=
  List.map_append

@[simp] theorem lowered_cons (character : Char) (rest : List Char) :
    lowered (character :: rest) = character.toLower :: lowered rest := rfl

@[simp] theorem lowered_nil : lowered [] = [] := rfl

theorem begins_iff (pattern text : List Char) :
    begins pattern text = true ↔ lowered pattern <+: lowered text := by
  rw [begins, beq_iff_eq, lowered, List.map_take, ← lowered, List.prefix_iff_eq_take,
    length_lowered, eq_comm]

theorem length_le_of_begins {pattern text : List Char} (found : begins pattern text = true) :
    pattern.length ≤ text.length := by
  have long := ((begins_iff pattern text).mp found).length_le
  rwa [length_lowered, length_lowered] at long

theorem lowered_take_of_begins {pattern text : List Char} (found : begins pattern text = true) :
    lowered (text.take pattern.length) = lowered pattern :=
  beq_iff_eq.mp found

theorem patterns_shape : ∀ pattern ∈ recognisedPatterns, pattern ≠ [] ∧ lowered pattern = pattern ∧
    '[' ∉ pattern ∧ ']' ∉ pattern ∧ ∀ first ∈ pattern.head?, isWhitespace first = false := by
  decide

/-- No pattern contains the bracket, and none begins with whitespace. -/
theorem patterns_plain : ∀ pattern ∈ recognisedPatterns, ']' ∉ pattern ∧
    ∀ first ∈ pattern.head?, isWhitespace first = false :=
  fun pattern recognised => (patterns_shape pattern recognised).2.2.2

theorem patterns_nonempty : ∀ pattern ∈ recognisedPatterns, pattern ≠ [] :=
  fun pattern recognised => (patterns_shape pattern recognised).1

theorem patterns_lowered : ∀ pattern ∈ recognisedPatterns, lowered pattern = pattern :=
  fun pattern recognised => (patterns_shape pattern recognised).2.1

theorem patterns_unbracketed : ∀ pattern ∈ recognisedPatterns, '[' ∉ pattern :=
  fun pattern recognised => (patterns_shape pattern recognised).2.2.1

theorem header_recognised {header : String} (listed : header ∈ ["authorization:", "bearer "]) :
    header.toList ∈ recognisedPatterns :=
  List.mem_append_left _ (List.mem_append_left _ (List.mem_map_of_mem listed))

theorem word_recognised {word : String}
    (listed : word ∈ databaseUrlSchemes ++ ["sqlite:"] ++ redisUrlSchemes ++ providerKeyPrefixes) :
    word.toList ∈ recognisedPatterns :=
  List.mem_append_left _ (List.mem_append_right _ (List.mem_map_of_mem listed))

theorem keyPattern_recognised {key : String} {pattern : List Char}
    (listed : key ∈ keyValueSecretKeys) (member : pattern ∈ keyPatterns key) :
    pattern ∈ recognisedPatterns :=
  List.mem_append_right _ (List.mem_flatMap.mpr ⟨key, listed, member⟩)

theorem lowered_header_recognised {header : String}
    (listed : header ∈ ["authorization:", "bearer "]) :
    lowered header.toList ∈ recognisedPatterns := by
  rw [patterns_lowered _ (header_recognised listed)]
  exact header_recognised listed

/-- The last characters of the sealing ends. -/
def sealingLasts : List Char := [' ', ']', '=', '-', '/', '_']

theorem sealingEnds_last : ∀ tail ∈ sealingEnds, ∃ last ∈ tail.getLast?, last ∈ sealingLasts := by
  decide

/-- The proper beginnings of the patterns, read backwards: only a few end like a sealing end. -/
theorem backs_sealed : ∀ pattern ∈ recognisedPatterns, ∀ back ∈ pattern.dropLast.reverse.tails,
    (∃ last ∈ back.head?, last ∈ sealingLasts) →
      ∀ tail ∈ sealingEnds, ¬ tail.reverse <+: back ∧ ¬ back <+: tail.reverse := by
  decide

theorem getLast?_of_suffix {tail text : List Char} (nonempty : tail ≠ [])
    (suffix : tail <:+ text) : text.getLast? = tail.getLast? := by
  obtain ⟨front, rfl⟩ := suffix
  rw [List.getLast?_append, List.getLast?_eq_some_getLast nonempty, Option.some_or]

/-- No pattern goes on after a sealing end. -/
theorem patterns_sealed {pattern start : List Char} (recognised : pattern ∈ recognisedPatterns)
    (begun : start <+: pattern) (nonempty : start ≠ []) (proper : start ≠ pattern)
    {tail : List Char} (ends : tail ∈ sealingEnds) : ¬ tail <:+ start ∧ ¬ start <:+ tail := by
  have back : start.reverse ∈ pattern.dropLast.reverse.tails := by
    obtain ⟨rest, rfl⟩ := begun
    have more : rest ≠ [] := fun nothing => proper (by rw [nothing, List.append_nil])
    rw [List.mem_tails, List.reverse_suffix, List.dropLast_append_of_ne_nil more]
    exact List.prefix_append _ _
  have sealedBack := backs_sealed pattern recognised start.reverse back
  obtain ⟨last, isLast, listed⟩ := sealingEnds_last tail ends
  have tailNonempty : tail ≠ [] := by
    rintro rfl
    nomatch isLast
  rw [List.head?_reverse] at sealedBack
  constructor
  · intro suffix
    have same := getLast?_of_suffix tailNonempty suffix
    exact (sealedBack ⟨last, same ▸ isLast, listed⟩ tail ends).1 (List.reverse_prefix.mpr suffix)
  · intro suffix
    have same := getLast?_of_suffix nonempty suffix
    exact (sealedBack ⟨last, same ▸ isLast, listed⟩ tail ends).2 (List.reverse_prefix.mpr suffix)

/-- Every pattern begins with a quotation mark or with a marker word. -/
theorem patterns_marked : ∀ pattern ∈ recognisedPatterns,
    (∃ first ∈ pattern.head?, first = '"' ∨ first = '\'') ∨
      ∃ word ∈ markerWords, word <+: pattern := by
  decide

theorem markerWords_unspaced : ∀ word ∈ markerWords, ∀ character ∈ word,
    isWhitespace character = false := by
  decide

theorem sealingEnds_shape : ∀ tail ∈ sealingEnds, tail ≠ [] ∧
    ∀ character ∈ tail.tail, endsValue character = false := by
  decide

/-- Letters end no value. -/
theorem endsValue_of_letter {character : Char} (low : 65 ≤ character.toNat)
    (high : character.toNat ≤ 122) : endsValue character = false := by
  rw [Bool.eq_false_iff]
  intro ends
  simp only [endsValue, isWhitespace, Bool.or_eq_true, Bool.and_eq_true, decide_eq_true_eq,
    beq_iff_eq, ← Char.toNat_inj, Char.reduceToNat] at ends
  omega

theorem endsValue_lower (character : Char) : endsValue character.toLower = endsValue character := by
  obtain same | ⟨low, high, code⟩ := toLower_cases character
  · rw [same]
  · rw [endsValue_of_letter low (by omega), endsValue_of_letter (by omega) (by omega)]

theorem lower_of_endsValue {character : Char} (ends : endsValue character = true) :
    character.toLower = character := by
  obtain same | ⟨low, high, _⟩ := toLower_cases character
  · exact same
  · rw [endsValue_of_letter low (by omega)] at ends
    nomatch ends

theorem isWordChar_lower (character : Char) :
    isWordChar character.toLower = isWordChar character := by
  obtain same | ⟨low, high, code⟩ := toLower_cases character
  · rw [same]
  · have upper : character.isUpper = true := by
      unfold Char.isUpper
      exact decide_eq_true ⟨low, high⟩
    have lower : character.toLower.isLower = true := by
      have above : 97 ≤ character.toLower.toNat := by omega
      have below : character.toLower.toNat ≤ 122 := by omega
      unfold Char.isLower
      rw [Bool.and_eq_true, decide_eq_true_eq, decide_eq_true_eq]
      exact ⟨above, below⟩
    have letter : character.isAlpha = true := by
      unfold Char.isAlpha
      rw [upper, Bool.true_or]
    have smallLetter : character.toLower.isAlpha = true := by
      unfold Char.isAlpha
      rw [lower, Bool.or_true]
    simp [isWordChar, Char.isAlphanum, letter, smallLetter]

theorem endsValue_of_whitespace {character : Char} (space : isWhitespace character = true) :
    endsValue character = true := by
  simp [endsValue, space]

theorem whitespace_of_inside {character : Char} (inside : endsValue character = false) :
    isWhitespace character = false := by
  by_contra space
  rw [Bool.not_eq_false] at space
  rw [endsValue_of_whitespace space] at inside
  nomatch inside

/-- A pattern that is not found in a sealed text is not found across its end. -/
theorem begins_append {pattern text rest : List Char}
    (recognised : lowered pattern ∈ recognisedPatterns) (isSealed : Sealed text)
    (nonempty : rest ≠ []) (suffix : rest <:+ text) (more : List Char) :
    begins pattern (rest ++ more) = begins pattern rest := by
  rw [Bool.eq_iff_iff, begins_iff, begins_iff, lowered_append]
  refine ⟨fun found => ?_, fun found => found.trans (List.prefix_append _ _)⟩
  obtain found | cut := List.prefix_or_prefix_of_prefix found (List.prefix_append _ (lowered more))
  · exact found
  · by_cases whole : lowered rest = lowered pattern
    · rw [whole]
    · obtain ⟨tail, member, sealedTail⟩ := isSealed
      have loweredSuffix : lowered rest <:+ lowered text := suffix.map _
      have apart := patterns_sealed recognised cut (by simpa [lowered] using nonempty) whole member
      obtain within | within := List.suffix_or_suffix_of_suffix sealedTail loweredSuffix
      · exact absurd within apart.1
      · exact absurd within apart.2

/-- Nor is one found where something begins that no pattern contains. -/
theorem begins_bracket {pattern : List Char} (recognised : lowered pattern ∈ recognisedPatterns)
    (rest : List Char) : begins pattern (']' :: rest) = false := by
  by_contra found
  rw [Bool.not_eq_false, begins_iff] at found
  cases shape : lowered pattern with
  | nil => exact patterns_nonempty _ recognised shape
  | cons first others =>
    rw [shape] at found
    obtain rfl : first = ']' := (List.cons_prefix_cons.mp found).1
    exact (patterns_plain _ recognised).1 (shape ▸ List.mem_cons_self)

theorem begins_whitespace {pattern : List Char} {character : Char}
    (recognised : lowered pattern ∈ recognisedPatterns) (space : isWhitespace character = true)
    (rest : List Char) : begins pattern (character :: rest) = false := by
  by_contra found
  rw [Bool.not_eq_false, begins_iff] at found
  cases shape : lowered pattern with
  | nil => exact patterns_nonempty _ recognised shape
  | cons first others =>
    rw [shape, lowered_cons, lower_of_endsValue (endsValue_of_whitespace space)] at found
    obtain rfl : first = character := (List.cons_prefix_cons.mp found).1
    have plain := (patterns_plain _ recognised).2 first (by rw [shape]; rfl)
    rw [space] at plain
    nomatch plain

/-- A pattern takes no bracket. -/
theorem bracket_not_taken {pattern text : List Char}
    (recognised : lowered pattern ∈ recognisedPatterns) (found : begins pattern text = true) :
    ']' ∉ text.take pattern.length := by
  intro member
  have loweredMember : ']' ∈ lowered (text.take pattern.length) :=
    List.mem_map.mpr ⟨']', member, by decide⟩
  rw [lowered_take_of_begins found] at loweredMember
  exact (patterns_plain _ recognised).1 loweredMember

/-- Behind a pattern in a text that ends with the bracket there is still the bracket. -/
theorem bracket_after {pattern text : List Char}
    (recognised : lowered pattern ∈ recognisedPatterns) (closed : Closed ']' text)
    (found : begins pattern text = true) : ']' ∈ text.drop pattern.length := by
  obtain ⟨front, rfl⟩ := closed
  have member : ']' ∈ (front ++ [']']).take pattern.length ++ (front ++ [']']).drop pattern.length := by
    rw [List.take_append_drop]
    exact List.mem_append_right _ List.mem_cons_self
  exact (List.mem_append.mp member).resolve_left (bracket_not_taken recognised found)

theorem sliceBytes_append {bytes : ℕ} {text : List Char} (short : bytes ≤ text.length)
    (more : List Char) : sliceBytes bytes (text ++ more) = sliceBytes bytes text := by
  induction text generalizing bytes with
  | nil =>
    obtain rfl := Nat.le_zero.mp short
    rw [sliceBytes, sliceBytes]
  | cons character rest inductionHypothesis =>
    cases bytes with
    | zero => rfl
    | succ bytes =>
      have positive := character.utf8Size_pos
      have shortRest : bytes + 1 - character.utf8Size ≤ rest.length := by
        rw [List.length_cons] at short
        omega
      rw [List.cons_append, sliceBytes, sliceBytes, inductionHypothesis shortRest]

/-- A slice is a beginning of the text, with at most as many characters as it has bytes. -/
theorem sliceBytes_some {bytes : ℕ} {text taken : List Char}
    (sliced : sliceBytes bytes text = some taken) : taken <+: text ∧ taken.length ≤ bytes := by
  induction text generalizing bytes taken with
  | nil =>
    cases bytes with
    | zero => simp [sliceBytes] at sliced; simp [← sliced]
    | succ bytes => nomatch sliced
  | cons character rest inductionHypothesis =>
    cases bytes with
    | zero =>
      obtain rfl : [] = taken := Option.some.inj sliced
      exact ⟨List.nil_prefix, Nat.le_refl _⟩
    | succ bytes =>
      rw [sliceBytes] at sliced
      split at sliced
      · obtain ⟨later, slicedRest, rfl⟩ := Option.map_eq_some_iff.mp sliced
        obtain ⟨begun, short⟩ := inductionHypothesis slicedRest
        have positive := character.utf8Size_pos
        refine ⟨List.cons_prefix_cons.mpr ⟨rfl, begun⟩, ?_⟩
        rw [List.length_cons]
        omega
      · nomatch sliced

/-- What is trimmed does not depend on what follows, when the trimming ends before. -/
theorem trimmedBefore_append {trims : Char → Bool} {text more : List Char}
    (ends : (∃ character ∈ text, trims character = false) ∨
      ∀ character ∈ more.head?, trims character = false) :
    trimmedBefore trims (text ++ more) = trimmedBefore trims text := by
  have same : (text ++ more).takeWhile trims = text.takeWhile trims := by
    rw [List.takeWhile_append]
    split
    · next whole =>
      obtain ⟨character, member, kept⟩ | stops := ends
      · have all := List.takeWhile_eq_self_iff.mp (List.takeWhile_prefix trims |>.eq_of_length whole)
        rw [all character member] at kept
        nomatch kept
      · cases more with
        | nil => simp [(List.takeWhile_prefix trims).eq_of_length whole]
        | cons first rest =>
          have stop := stops first rfl
          simp [stop, (List.takeWhile_prefix trims).eq_of_length whole]
    · rfl
  rw [trimmedBefore, trimmedBefore, same, sliceBytes_append]
  exact (List.takeWhile_prefix trims).length_le

/-- Only what may be trimmed is trimmed. -/
theorem trimmedBefore_some {trims : Char → Bool} {text trimmed : List Char}
    (trimmedIs : trimmedBefore trims text = some trimmed) :
    trimmed <+: text ∧ ∀ character ∈ trimmed, trims character = true := by
  obtain ⟨begun, short⟩ := sliceBytes_some trimmedIs
  have within : trimmed <+: text.takeWhile trims :=
    List.prefix_of_prefix_length_le begun (List.takeWhile_prefix trims) short
  exact ⟨begun, fun character member => List.mem_takeWhile_imp (within.mem member)⟩

end Memcore
