import Memcore.Foundations.Rescans
import Memcore.Guarantees.RedactionPanics
import Mathlib.Data.List.DropRight

/-!
# Marks of the redactor

What a pass makes of a mark: the pattern stays, in the spelling of the text or of the pass,
and so does what is trimmed behind it; the placeholder follows. Two marks of different
passes overlap only where one of them is all that a placeholder stands behind, so a pass
that comes later finds the marks of the passes before it as they left them.
-/
namespace Memcore

open Texts Scanners

/-- The patterns of the passes for URLs, for tokens and for keys. -/
def urlPatterns : List (List Char) :=
  (databaseUrlSchemes ++ ["sqlite:"] ++ redisUrlSchemes).map String.toList

def tokenPatterns : List (List Char) :=
  (["Bearer ", "bearer "] ++ providerKeyPrefixes).map String.toList

def secretKeyPatterns : List (List Char) :=
  keyValueSecretKeys.flatMap keyPatterns

/-- A pass other than the one for authorization headers, its pattern and what it trims. -/
inductive SecretPass : Rule Char → List Char → (Char → Bool) → Prop
  | url (scheme : List Char) (listed : scheme ∈ urlPatterns) :
      SecretPass (redactUrlScheme scheme) scheme fun _ => false
  | token (start : List Char) (listed : start ∈ tokenPatterns) :
      SecretPass (redactPrefixedToken start) start fun _ => false
  | key (pattern : List Char) (listed : pattern ∈ secretKeyPatterns) :
      SecretPass (redactAfterPattern pattern) pattern precedesValue

theorem secretPatterns_recognised :
    ∀ pattern ∈ urlPatterns ++ tokenPatterns ++ secretKeyPatterns,
      lowered pattern ∈ recognisedPatterns := by
  intro pattern listed
  have lower (recognised : pattern ∈ recognisedPatterns) : lowered pattern ∈ recognisedPatterns := by
    rwa [patterns_lowered _ recognised]
  rw [List.mem_append, List.mem_append] at listed
  rcases listed with (url | token) | key
  · obtain ⟨scheme, schemeListed, rfl⟩ := List.mem_map.mp url
    exact lower (word_recognised (List.mem_append_left _ schemeListed))
  · obtain ⟨start, startListed, rfl⟩ := List.mem_map.mp token
    rcases List.mem_append.mp startListed with header | start
    · rw [List.mem_cons, List.mem_singleton] at header
      have spelled : lowered start.toList = "bearer ".toList := by
        rcases header with rfl | rfl <;> decide
      rw [spelled]
      exact header_recognised (by simp)
    · exact lower (word_recognised (List.mem_append_right _ start))
  · obtain ⟨key, keyListed, member⟩ := List.mem_flatMap.mp key
    exact lower (keyPattern_recognised keyListed member)

theorem patterns_not_urls : ∀ pattern ∈ tokenPatterns ++ secretKeyPatterns,
    pattern ∉ urlPatterns := by
  decide

theorem secretPass_redacts {rule : Rule Char} {pattern : List Char} {trims : Char → Bool}
    (secret : SecretPass rule pattern trims) : Redacts pattern rule := by
  have recognised {pattern : List Char}
      (listed : pattern ∈ urlPatterns ++ tokenPatterns ++ secretKeyPatterns) :=
    secretPatterns_recognised pattern listed
  cases secret with
  | url _ listed => exact urlScheme_redacts (recognised (by simp [listed]))
  | token _ listed => exact prefixedToken_redacts (recognised (by simp [listed]))
  | key _ listed => exact afterPattern_redacts (recognised (by simp [listed]))

theorem secretPass_of_mem {config : RedactionConfig} {rule : Rule Char}
    (member : rule ∈ laterRules config) : ∃ pattern trims, SecretPass rule pattern trims ∧
      (config.redactApiKeys = false → pattern ∈ urlPatterns ++ tokenPatterns) := by
  simp only [laterRules, List.mem_append] at member
  obtain (((member | member) | member) | member) | member := member
  · have listed := mem_of_mem_ite member
    simp only [List.mem_cons, List.not_mem_nil, or_false] at listed
    obtain rfl | rfl := listed
    · have bearer : "Bearer ".toList ∈ tokenPatterns := List.mem_map_of_mem (by simp)
      exact ⟨_, _, .token "Bearer ".toList bearer, fun _ => List.mem_append_right _ bearer⟩
    · have bearer : "bearer ".toList ∈ tokenPatterns := List.mem_map_of_mem (by simp)
      exact ⟨_, _, .token "bearer ".toList bearer, fun _ => List.mem_append_right _ bearer⟩
  · obtain listed | single := List.mem_append.mp (mem_of_mem_ite member)
    · obtain ⟨scheme, schemeListed, rfl⟩ := List.mem_map.mp listed
      have url : scheme.toList ∈ urlPatterns := List.mem_map_of_mem (by simp [schemeListed])
      exact ⟨_, _, .url _ url, fun _ => List.mem_append_left _ url⟩
    · obtain rfl := List.mem_singleton.mp single
      have url : "sqlite:".toList ∈ urlPatterns := List.mem_map_of_mem (by simp)
      exact ⟨_, _, .url _ url, fun _ => List.mem_append_left _ url⟩
  · obtain ⟨scheme, schemeListed, rfl⟩ := List.mem_map.mp (mem_of_mem_ite member)
    have url : scheme.toList ∈ urlPatterns := List.mem_map_of_mem (by simp [schemeListed])
    exact ⟨_, _, .url _ url, fun _ => List.mem_append_left _ url⟩
  · obtain ⟨start, listed, rfl⟩ := List.mem_map.mp (mem_of_mem_ite member)
    have token : start.toList ∈ tokenPatterns := List.mem_map_of_mem (by simp [listed])
    exact ⟨_, _, .token _ token, fun _ => List.mem_append_right _ token⟩
  · obtain ⟨key, listed, keyMember⟩ := List.mem_flatMap.mp (mem_of_mem_ite member)
    obtain ⟨pattern, patternMember, rfl⟩ := List.mem_map.mp keyMember
    refine ⟨_, _, .key _ (List.mem_flatMap.mpr ⟨key, listed, patternMember⟩), fun off => ?_⟩
    rw [off] at member
    cases member

/-- Characters of single bytes are sliced one by one. -/
theorem sliceBytes_single {front : List Char}
    (single : ∀ character ∈ front, character.utf8Size = 1) (more : List Char) :
    sliceBytes front.length (front ++ more) = some front := by
  induction front with
  | nil => rw [List.length_nil, sliceBytes]
  | cons character front inductionHypothesis =>
    have here := single character List.mem_cons_self
    have later := inductionHypothesis fun other member =>
      single other (List.mem_cons_of_mem _ member)
    simp [sliceBytes, here, later]

/-- In a text whose whitespace is of single bytes, everything that may be trimmed is. -/
theorem trimmedBefore_narrow {trims : Char → Bool}
    (weaker : ∀ character, trims character = true → precedesValue character = true)
    {text : List Char} (narrow : ∀ character ∈ text, NarrowSpace character) :
    trimmedBefore trims text = some (text.takeWhile trims) := by
  have single : ∀ character ∈ text.takeWhile trims, character.utf8Size = 1 := by
    intro character member
    have trimmed := weaker _ (List.mem_takeWhile_imp member)
    simp only [precedesValue, Bool.or_eq_true, beq_iff_eq] at trimmed
    obtain (space | rfl) | rfl := trimmed
    · exact narrow character ((List.takeWhile_prefix trims).mem member) space
    · decide
    · decide
  have sliced := sliceBytes_single single (text.dropWhile trims)
  rwa [List.takeWhile_append_dropWhile] at sliced

/-- Behind what is trimmed nothing is left to trim. -/
theorem trimmed_ends {trims : Char → Bool}
    (weaker : ∀ character, trims character = true → precedesValue character = true)
    {text trimmed rest : List Char} (narrow : ∀ character ∈ text, NarrowSpace character)
    (trimmedIs : trimmedBefore trims text = some trimmed) (split : trimmed ++ rest = text) :
    ∀ character ∈ rest.head?, trims character = false := by
  intro character member
  rw [trimmedBefore_narrow weaker narrow] at trimmedIs
  have ends := List.head?_dropWhile_not trims text
  have same : rest = text.dropWhile trims := by
    rw [← List.takeWhile_append_dropWhile (p := trims) (l := text),
      ← Option.some.inj trimmedIs] at split
    exact List.append_cancel_left split
  rw [← same, Option.mem_def.mp member] at ends
  simpa using ends

/-- What a pass makes of a mark. -/
structure MarkOf (pattern : List Char) (trims : Char → Bool) (text written : List Char) (width : ℕ)
    (taken spelled trimmed rest : List Char) : Prop where
  split : text = taken ++ (trimmed ++ rest)
  writes : written = spelled ++ trimmed ++ redactedPlaceholder
  takes : width = (taken ++ trimmed).length
  found : lowered taken = lowered pattern
  spells : spelled = if pattern ∈ urlPatterns then pattern else taken
  inside : ∀ character ∈ trimmed, trims character = true
  ends : (∀ character ∈ text, NarrowSpace character) →
    ∀ character ∈ rest.head?, trims character = false

theorem secretPass_mark {rule : Rule Char} {pattern : List Char} {trims : Char → Bool}
    (secret : SecretPass rule pattern trims) {before : Option Char} {text written : List Char}
    {width : ℕ} (seen : rule.sees before text = .mark written width) :
    ∃ taken spelled trimmed rest,
      MarkOf pattern trims text written width taken spelled trimmed rest := by
  have found : begins pattern text = true := by
    by_contra absent
    rw [(secretPass_redacts secret).unseen before text (Bool.not_eq_true _ ▸ absent)] at seen
    cases seen
  have same := lowered_take_of_begins found
  have long : (text.take pattern.length).length = pattern.length :=
    List.length_take_of_le (length_le_of_begins found)
  have untrimmed : text = text.take pattern.length ++ ([] ++ text.drop pattern.length) := by simp
  cases secret with
  | url _ listed =>
    simp only [redactUrlScheme, found, if_true, Sight.mark.injEq] at seen
    obtain ⟨rfl, rfl⟩ := seen
    exact ⟨_, pattern, [], _, untrimmed, by simp, by rw [List.append_nil, long], same,
      (if_pos listed).symm, by simp, fun _ _ _ => rfl⟩
  | token _ listed =>
    cases boundary : atBoundary before with
    | false => simp [redactPrefixedToken, found, boundary] at seen
    | true =>
      simp only [redactPrefixedToken, found, boundary, Bool.and_true, if_true,
        Sight.mark.injEq] at seen
      obtain ⟨rfl, rfl⟩ := seen
      exact ⟨_, _, [], _, untrimmed, by simp, by rw [List.append_nil, long], same,
        (if_neg (patterns_not_urls _ (List.mem_append_left _ listed))).symm, by simp,
        fun _ _ _ => rfl⟩
  | key _ listed =>
    cases boundary : atBoundary before with
    | false => simp [redactAfterPattern, found, boundary] at seen
    | true =>
      simp only [redactAfterPattern, found, boundary, Bool.and_true, if_true] at seen
      cases trimmedIs : trimmedBefore precedesValue (text.drop pattern.length) with
      | none => simp [trimmedIs] at seen
      | some trimmed =>
        simp only [trimmedIs, Sight.mark.injEq] at seen
        obtain ⟨rfl, rfl⟩ := seen
        obtain ⟨⟨rest, split⟩, inside⟩ := trimmedBefore_some trimmedIs
        refine ⟨text.take pattern.length, _, trimmed, rest, ?_, rfl, ?_, same,
          (if_neg (patterns_not_urls _ (List.mem_append_right _ listed))).symm, inside,
          fun narrow => ?_⟩
        · rw [split, List.take_append_drop]
        · rw [List.length_append, long]
        · exact trimmed_ends (fun _ => id)
            (fun character member => narrow character (List.mem_of_mem_drop member)) trimmedIs split

/-- No pattern begins inside the placeholder. -/
theorem placeholder_unmarked : ∀ pattern ∈ recognisedPatterns, ∀ part ∈ redactedPlaceholder.tails,
    part ≠ [] → ¬ pattern <+: lowered part ∧ ¬ lowered part <+: pattern := by
  decide

theorem begins_placeholder {pattern part : List Char}
    (recognised : lowered pattern ∈ recognisedPatterns) (nonempty : part ≠ [])
    (suffix : part <:+ redactedPlaceholder) (rest : List Char) :
    begins pattern (part ++ rest) = false := by
  obtain ⟨apart, otherwise⟩ :=
    placeholder_unmarked _ recognised part ((List.mem_tails _ _).mpr suffix) nonempty
  by_contra found
  rw [Bool.not_eq_false, begins_iff, lowered_append] at found
  obtain within | beyond := List.prefix_or_prefix_of_prefix found (List.prefix_append _ _)
  · exact apart within
  · exact otherwise beyond

theorem placeholder_inside : ∀ character ∈ redactedPlaceholder,
    endsValue character = false ∧ isWhitespace character = false := by
  decide

theorem atBoundary_folded {before before' : Option Char}
    (same : before.map Char.toLower = before'.map Char.toLower) :
    atBoundary before = atBoundary before' := by
  have boundary (before : Option Char) :
      atBoundary before = atBoundary (before.map Char.toLower) := by
    cases before with
    | none => rfl
    | some character => simp [atBoundary, isWordChar_lower]
  rw [boundary, same, ← boundary]

theorem atBoundary_placeholder : atBoundary (previous none redactedPlaceholder) = true := by
  decide

/-- How a pass minds the boundary: not at all, or it sees nothing where there is none. -/
def MindsBoundary (rule : Rule Char) : Prop :=
  ∀ before before' text, (atBoundary before = atBoundary before' →
    rule.sees before text = rule.sees before' text) ∧
    (atBoundary before = false → rule.sees before text = .nothing ∨
      rule.sees before' text = rule.sees before text)

theorem secretPass_boundary {rule : Rule Char} {pattern : List Char} {trims : Char → Bool}
    (secret : SecretPass rule pattern trims) : MindsBoundary rule := by
  intro before before' text
  cases secret with
  | url => exact ⟨fun _ => rfl, fun _ => .inr rfl⟩
  | token =>
    constructor
    · intro same
      simp only [redactPrefixedToken, same]
    · intro inside
      simp [redactPrefixedToken, inside]
  | key =>
    constructor
    · intro same
      simp only [redactAfterPattern, same]
    · intro inside
      simp [redactAfterPattern, inside]

/-- The passes write the placeholder as a filler. -/
theorem fills_of_marks {pattern : List Char} {rule : Rule Char} (redacts : Redacts pattern rule)
    (minds : MindsBoundary rule)
    (marks : ∀ before text written width, rule.sees before text = .mark written width →
      ∃ kept, written = kept ++ redactedPlaceholder ∧
        lowered kept = lowered (text.take width) ∧ 0 < width) :
    Fills Char.toLower redactedPlaceholder rule where
  fills before text written width seen := by
    obtain ⟨kept, rfl, same, positive⟩ := marks before text written width seen
    exact ⟨kept, rfl, same, positive, (redacts.marks before text _ width seen).2.1⟩
  inside character member := by
    obtain ⟨inside, unspaced⟩ := placeholder_inside character member
    obtain stops | stops := redacts.stops <;> rw [stops] <;> assumption
  unseen part rest before nonempty suffix :=
    redacts.unseen before _ (begins_placeholder redacts.recognised nonempty suffix rest)
  folded before before' text same := (minds before before' text).1 (atBoundary_folded same)
  opened before text := by
    cases boundary : atBoundary before with
    | false => exact (minds before _ text).2 boundary
    | true =>
      exact .inr ((minds _ before text).1 (by rw [boundary, atBoundary_placeholder]))
  stopsFolded character := by
    obtain stops | stops := redacts.stops
    · rw [stops, endsValue_lower]
    · rw [stops, isWhitespace_toLower]

theorem urlPatterns_lowered : ∀ pattern ∈ urlPatterns, lowered pattern = pattern := by
  intro pattern listed
  obtain ⟨scheme, schemeListed, rfl⟩ := List.mem_map.mp listed
  exact patterns_lowered _ (word_recognised (List.mem_append_left _ schemeListed))

theorem markOf_spelled {pattern text written taken spelled trimmed rest : List Char}
    {trims : Char → Bool} {width : ℕ}
    (mark : MarkOf pattern trims text written width taken spelled trimmed rest) :
    lowered spelled = lowered taken := by
  rw [mark.spells]
  split_ifs
  · exact mark.found.symm
  · rfl

theorem secretPass_fills {rule : Rule Char} {pattern : List Char} {trims : Char → Bool}
    (secret : SecretPass rule pattern trims) : Fills Char.toLower redactedPlaceholder rule := by
  refine fills_of_marks (secretPass_redacts secret) (secretPass_boundary secret) ?_
  intro before text written width seen
  obtain ⟨taken, spelled, trimmed, rest, mark⟩ := secretPass_mark secret seen
  refine ⟨spelled ++ trimmed, mark.writes, ?_, ?_⟩
  · rw [mark.split, mark.takes, ← List.append_assoc, List.take_left, lowered_append,
      markOf_spelled mark, lowered_append]
  · rw [mark.takes, List.length_append]
    have nonempty := patterns_nonempty _ (secretPass_redacts secret).recognised
    rw [← mark.found] at nonempty
    have positive := List.length_pos_iff.mpr nonempty
    rw [length_lowered] at positive
    omega

/-- A header, the whitespace behind it, and a scheme. -/
structure HeaderOf (text written : List Char) (width : ℕ)
    (taken trimmed scheme spelled rest : List Char) : Prop where
  split : text = taken ++ (trimmed ++ (scheme ++ rest))
  writes : written = taken ++ trimmed ++ spelled ++ redactedPlaceholder
  takes : width = (taken ++ trimmed ++ scheme).length
  found : lowered taken = "authorization:".toList
  spells : spelled = [] ∧ scheme = [] ∧ begins "bearer ".toList rest = false ∨
    spelled = "Bearer ".toList ∧ lowered scheme = "bearer ".toList
  inside : ∀ character ∈ trimmed, isWhitespace character = true
  ends : (∀ character ∈ text, NarrowSpace character) →
    ∀ character ∈ (scheme ++ rest).head?, isWhitespace character = false

theorem authorization_header {before : Option Char} {text written : List Char} {width : ℕ}
    (seen : redactAuthorizationBearer.sees before text = .mark written width) :
    ∃ taken trimmed scheme spelled rest,
      HeaderOf text written width taken trimmed scheme spelled rest := by
  have found : begins "authorization:".toList text = true := by
    by_contra absent
    rw [authorization_redacts.unseen before text (Bool.not_eq_true _ ▸ absent)] at seen
    nomatch seen
  have same : lowered (text.take "authorization:".toList.length) = "authorization:".toList := by
    rw [lowered_take_of_begins found]
    decide
  have long := List.length_take_of_le (length_le_of_begins found)
  cases trimmedIs : trimmedBefore isWhitespace (text.drop "authorization:".toList.length) with
  | none =>
    rw [fails_of_looksBehind (.authorization before text found) trimmedIs] at seen
    nomatch seen
  | some trimmed =>
    rw [authorization_mark before found trimmedIs] at seen
    obtain ⟨⟨rest, split⟩, inside⟩ := trimmedBefore_some trimmedIs
    have ends : (∀ character ∈ text, NarrowSpace character) →
        ∀ character ∈ rest.head?, isWhitespace character = false := by
      intro narrow
      have narrowBehind : ∀ character ∈ text.drop "authorization:".toList.length,
          NarrowSpace character :=
        fun character member => narrow character (List.mem_of_mem_drop member)
      exact trimmed_ends precedesValue_of_whitespace narrowBehind trimmedIs split
    rw [← split, List.drop_left] at seen
    have whole : text = text.take "authorization:".toList.length ++ (trimmed ++ rest) := by
      rw [split, List.take_append_drop]
    split at seen
    · next bearer =>
      obtain ⟨rfl, rfl⟩ := Sight.mark.inj seen
      have schemeLong := List.length_take_of_le (length_le_of_begins bearer)
      refine ⟨_, trimmed, rest.take "bearer ".toList.length, _, rest.drop "bearer ".toList.length,
        ?_, rfl, ?_, same, .inr ⟨rfl, ?_⟩, inside, ?_⟩
      · rw [List.take_append_drop, ← whole]
      · rw [List.length_append, List.length_append, long, schemeLong]
      · rw [lowered_take_of_begins bearer]
        decide
      · rw [List.take_append_drop]
        exact ends
    · next other =>
      obtain ⟨rfl, rfl⟩ := Sight.mark.inj seen
      exact ⟨_, trimmed, [], [], rest, whole, by rw [List.append_nil],
        by rw [List.append_nil, List.length_append, long], same,
        .inl ⟨rfl, rfl, Bool.not_eq_true _ ▸ other⟩, inside, ends⟩

theorem headerOf_spelled {text written taken trimmed scheme spelled rest : List Char} {width : ℕ}
    (header : HeaderOf text written width taken trimmed scheme spelled rest) :
    lowered spelled = lowered scheme := by
  obtain ⟨rfl, rfl, _⟩ | ⟨rfl, same⟩ := header.spells
  · rfl
  · rw [same]
    decide

theorem authorization_fills : Fills Char.toLower redactedPlaceholder redactAuthorizationBearer := by
  refine fills_of_marks authorization_redacts (fun _ _ _ => ⟨fun _ => rfl, fun _ => .inr rfl⟩) ?_
  intro before text written width seen
  obtain ⟨taken, trimmed, scheme, spelled, rest, header⟩ := authorization_header seen
  refine ⟨taken ++ trimmed ++ spelled, header.writes, ?_, ?_⟩
  · have whole : text = taken ++ trimmed ++ scheme ++ rest := by simp [header.split]
    rw [whole, header.takes, List.take_left, lowered_append, headerOf_spelled header,
      lowered_append (taken ++ trimmed)]
  · have long := congrArg List.length header.found
    rw [length_lowered] at long
    rw [header.takes, List.length_append, List.length_append, long]
    have positive : 0 < "authorization:".toList.length := by decide
    omega

theorem rule_fills {config : RedactionConfig} {rule : Rule Char}
    (member : rule ∈ redactionRules config) :
    Fills Char.toLower redactedPlaceholder rule := by
  rw [redactionRules_eq, List.mem_append] at member
  obtain first | later := member
  · rw [List.mem_singleton.mp (mem_of_mem_ite first)]
    exact authorization_fills
  · obtain ⟨pattern, trims, secret, _⟩ := secretPass_of_mem later
    exact secretPass_fills secret

/-! ## Marks that overlap -/

theorem bracket_folded (text : List Char) : '[' ∈ lowered text ↔ '[' ∈ text := by
  constructor
  · intro member
    obtain ⟨character, within, same⟩ := List.mem_map.mp member
    obtain kept | ⟨low, high, code⟩ := toLower_cases character
    · rwa [← same, kept]
    · rw [same] at code
      have other : ('[' : Char).toNat = 91 := by decide
      omega
  · exact fun member => List.mem_map.mpr ⟨'[', member, by decide⟩

/-- What a pass takes has no opening bracket. -/
def TakesNoBracket (rule : Rule Char) : Prop :=
  ∀ before text written width, rule.sees before text = .mark written width →
    '[' ∉ text.take width

theorem bracket_not_found {text pattern : List Char} (same : lowered text = pattern)
    (recognised : pattern ∈ recognisedPatterns) : '[' ∉ text := by
  intro member
  rw [← bracket_folded, same] at member
  exact patterns_unbracketed _ recognised member

theorem bracket_not_trimmed {trims : Char → Bool}
    (weaker : ∀ character, trims character = true → precedesValue character = true)
    {trimmed : List Char} (inside : ∀ character ∈ trimmed, trims character = true) :
    '[' ∉ trimmed := by
  intro member
  have trimmedBracket := weaker _ (inside _ member)
  exact absurd trimmedBracket (by decide)

theorem secretPass_trims {rule : Rule Char} {pattern : List Char} {trims : Char → Bool}
    (secret : SecretPass rule pattern trims) :
    ∀ character, trims character = true → precedesValue character = true := by
  cases secret with
  | url => exact fun _ never => nomatch never
  | token => exact fun _ never => nomatch never
  | key => exact fun _ => id

theorem secretPass_takesNoBracket {rule : Rule Char} {pattern : List Char} {trims : Char → Bool}
    (secret : SecretPass rule pattern trims) : TakesNoBracket rule := by
  intro before text written width seen
  obtain ⟨taken, spelled, trimmed, rest, mark⟩ := secretPass_mark secret seen
  rw [mark.split, mark.takes, ← List.append_assoc, List.take_left, List.mem_append, not_or]
  exact ⟨bracket_not_found mark.found (secretPass_redacts secret).recognised,
    bracket_not_trimmed (secretPass_trims secret) mark.inside⟩

theorem authorization_takesNoBracket : TakesNoBracket redactAuthorizationBearer := by
  intro before text written width seen
  obtain ⟨taken, trimmed, scheme, spelled, rest, header⟩ := authorization_header seen
  have whole : text = taken ++ trimmed ++ scheme ++ rest := by simp [header.split]
  rw [whole, header.takes, List.take_left, List.mem_append, List.mem_append, not_or, not_or]
  refine ⟨⟨bracket_not_found header.found (by decide),
    bracket_not_trimmed precedesValue_of_whitespace header.inside⟩, ?_⟩
  obtain ⟨_, rfl, _⟩ | ⟨_, same⟩ := header.spells
  · exact List.not_mem_nil
  · exact bracket_not_found same (by decide)

/-- A pattern is found before the first opening bracket. -/
theorem begins_before_bracket {pattern front rest : List Char}
    (recognised : lowered pattern ∈ recognisedPatterns)
    (found : begins pattern (front ++ '[' :: rest) = true) : begins pattern front = true := by
  rw [begins_iff, lowered_append] at found
  rw [begins_iff]
  obtain within | beyond := List.prefix_or_prefix_of_prefix found (List.prefix_append _ _)
  · exact within
  · obtain ⟨more, same⟩ := beyond
    rw [← same, List.prefix_append_right_inj] at found
    cases more with
    | nil => rw [← same, List.append_nil]
    | cons character more =>
      have bracket : character = '[' := (List.cons_prefix_cons.mp found).1
      refine absurd ?_ (patterns_unbracketed _ recognised)
      rw [← same, bracket]
      simp

theorem begins_folded {pattern first second : List Char} (same : lowered first = lowered second) :
    begins pattern first = begins pattern second := by
  rw [Bool.eq_iff_iff, begins_iff, begins_iff, same]

theorem stops_comparable {pattern otherPattern : List Char} {rule other : Rule Char}
    (redacts : Redacts pattern rule) (otherRedacts : Redacts otherPattern other) :
    (∀ character, other.stops character = true → rule.stops character = true) ∨
      ∀ character, rule.stops character = true → other.stops character = true := by
  obtain stops | stops := redacts.stops
  · left
    obtain others | others := otherRedacts.stops <;> rw [stops, others]
    · exact fun _ => id
    · exact fun _ => endsValue_of_whitespace
  · right
    obtain others | others := otherRedacts.stops <;> rw [stops, others]
    · exact fun _ => endsValue_of_whitespace
    · exact fun _ => id

/-- What follows a value that begins with the placeholder stops the values of another pass, if
what follows the placeholder does. -/
theorem tail_stops {rule other : Rule Char} (fills : Fills Char.toLower redactedPlaceholder rule)
    (comparable : (∀ character, other.stops character = true → rule.stops character = true) ∨
      ∀ character, rule.stops character = true → other.stops character = true)
    {value tail after : List Char} (same : value ++ tail = redactedPlaceholder ++ after)
    (inside : ∀ character ∈ value, rule.stops character = false)
    (stop : ∀ character ∈ tail.head?, rule.stops character = true)
    (afterStop : ∀ character ∈ after.head?, other.stops character = true) :
    ∀ character ∈ tail.head?, other.stops character = true := by
  obtain ⟨cut, placed, rfl⟩ | ⟨more, rfl, rfl⟩ := List.append_eq_append_iff.mp same
  · cases cut with
    | nil => exact afterStop
    | cons first cut =>
      have kept := fills.inside first (by rw [placed]; simp)
      rw [stop first rfl] at kept
      nomatch kept
  · cases more with
    | nil => exact afterStop
    | cons first more =>
      have kept := inside first (by simp)
      obtain wider | wider := comparable
      · rw [wider first (afterStop first rfl)] at kept
        nomatch kept
      · exact fun character member => wider character (stop character member)

/-- Where the placeholder stands behind a mark of another pass, what a pass keeps before or in
that mark ends with it. -/
def EndsTogether (rule other : Rule Char) (pattern : List Char) : Prop :=
  ∀ before start start' front part value tail part' later more rest,
    Edge Char.toLower redactedPlaceholder rule start start' front part value tail part' later →
    (∀ character ∈ start ++ (front ++ (part ++ (value ++ tail))), NarrowSpace character) →
    other.sees before (front ++ (part ++ (value ++ tail))) =
      .mark (front ++ (part ++ more) ++ redactedPlaceholder) (front ++ (part ++ more)).length →
    value ++ tail = more ++ (redactedPlaceholder ++ rest) →
    begins pattern (front ++ part) = true → more = [] ∧ part' = part

/-- What a pass finds it marks, if it marks anything behind the same character. -/
def MarksAgain (rule : Rule Char) (pattern : List Char) : Prop :=
  ∀ before text text' written width, (∀ character ∈ text, NarrowSpace character) →
    begins pattern text = true → rule.sees before text' = .mark written width →
    ∃ written' width', rule.sees before text = .mark written' width'

section Overlaps

variable {rule other : Rule Char} {pattern otherPattern : List Char}

/-- What stands behind a mark does not change it. -/
theorem sees_placed (redacts : Redacts pattern rule) (before : Option Char)
    (kept rest : List Char) :
    rule.sees before (kept ++ (redactedPlaceholder ++ rest)) =
      rule.sees before (kept ++ redactedPlaceholder) := by
  have closed := closed_placeholder kept
  have blind := redacts.blind _ rest ⟨sealed_of_closed closed, .inl closed⟩
  rw [← List.append_assoc]
  cases shape : kept ++ redactedPlaceholder with
  | nil => nomatch (List.append_eq_nil_iff.mp shape).2
  | cons first more => exact blind before first more (shape ▸ List.suffix_rfl)

/-- Two marks before one placeholder: the second is behind it, or ends where the first does. -/
theorem edge_cases (fills : Fills Char.toLower redactedPlaceholder rule)
    (takes : TakesNoBracket rule)
    {start start' front part value tail part' later kept after : List Char}
    (edge : Edge Char.toLower redactedPlaceholder rule start start' front part value tail part'
      later)
    (split : front ++ (part ++ (value ++ tail)) = kept ++ (redactedPlaceholder ++ after))
    (nonempty : kept ≠ []) :
    (∃ more, kept = front ++ (part ++ more) ∧
        value ++ tail = more ++ (redactedPlaceholder ++ after)) ∨
      ∃ more, front = kept ++ (redactedPlaceholder ++ more) ∧
        after = more ++ (part ++ (value ++ tail)) := by
  obtain ⟨before, seen⟩ := edge.mark
  have bracketless : '[' ∉ part := by
    have taken := takes _ _ _ _ seen
    rw [← List.append_assoc, List.take_left, List.mem_append, not_or] at taken
    exact taken.2
  obtain ⟨overlap, rfl, placed⟩ | ⟨cut, rfl, placed⟩ := List.append_eq_append_iff.mp split
  · obtain ⟨more, rfl, rest⟩ | ⟨cut, rfl, rest⟩ := List.append_eq_append_iff.mp placed
    · exact .inl ⟨more, rfl, rest⟩
    · cases cut with
      | nil => exact .inl ⟨[], by simp, rest.symm⟩
      | cons first cut =>
        obtain rfl : '[' = first := (List.cons.inj rest).1
        exact absurd (by simp) bracketless
  · obtain ⟨more, rfl, rfl⟩ | ⟨inner, placedInner, found⟩ := List.append_eq_append_iff.mp placed
    · exact .inr ⟨more, rfl, rfl⟩
    · cases inner with
      | nil =>
        rw [List.append_nil] at placedInner
        exact .inr ⟨[], by rw [← placedInner, List.append_nil], found.symm⟩
      | cons first inner =>
        have alone : start = [] := edge.alone.resolve_left fun empty =>
          nonempty (List.append_eq_nil_iff.mp empty).1
        rw [alone, List.nil_append, found, fills.unseen (first :: inner) after before
          (List.cons_ne_nil _ _) ⟨cut, placedInner.symm⟩] at seen
        nomatch seen

/-- A pass spares the marks of another one, if no mark of it ends inside what the other keeps. -/
theorem spares_of_overlap (redacts : Redacts pattern rule)
    (otherRedacts : Redacts otherPattern other)
    (fills : Fills Char.toLower redactedPlaceholder rule)
    (otherFills : Fills Char.toLower redactedPlaceholder other) (takes : TakesNoBracket rule)
    (again : MarksAgain other otherPattern) (together : EndsTogether rule other otherPattern) :
    Spares NarrowSpace Char.toLower redactedPlaceholder rule other := by
  intro before start start' front part value tail part' later edge narrow narrowOut stands written
    width seen
  have found : begins otherPattern (front ++ (part' ++ (redactedPlaceholder ++ later))) = true := by
    by_contra absent
    rw [otherRedacts.unseen before _ (Bool.not_eq_true _ ▸ absent)] at seen
    nomatch seen
  have foundPart : begins otherPattern (front ++ part) = true := by
    have foundOut : begins otherPattern (front ++ part') = true := by
      apply begins_before_bracket otherRedacts.recognised
      rw [List.append_assoc]
      exact found
    rw [← foundOut]
    apply begins_folded
    rw [lowered_append, lowered_append]
    exact congrArg _ edge.spelled.symm
  have foundText : begins otherPattern (front ++ (part ++ (value ++ tail))) = true := by
    rw [← List.append_assoc, begins_iff, lowered_append]
    exact ((begins_iff _ _).mp foundPart).trans (List.prefix_append _ _)
  obtain ⟨writtenText, widthText, seenText⟩ := again before _ _ _ _
    (fun character member => narrow character (List.mem_append_right _ member)) foundText seen
  obtain ⟨after, split, afterStop⟩ := stands _ _ seenText
  obtain ⟨kept, rfl, same, positive, fits⟩ := otherFills.fills _ _ _ _ seenText
  have long : widthText = kept.length := by
    have lengths := congrArg List.length same
    rw [List.length_map, List.length_map, List.length_take_of_le fits] at lengths
    exact lengths.symm
  subst long
  rw [List.append_assoc] at split
  -- it is enough that the output has the same mark before the placeholder
  have enough : ∀ after', front ++ (part' ++ (redactedPlaceholder ++ later)) =
      kept ++ (redactedPlaceholder ++ after') →
      (∀ character ∈ after'.head?, other.stops character = true) →
      ∃ tail, front ++ (part' ++ (redactedPlaceholder ++ later)) = written ++ tail ∧
        ∀ character ∈ tail.head?, other.stops character = true := by
    intro after' shape stop
    rw [shape, sees_placed otherRedacts, ← sees_placed otherRedacts before kept after, ← split,
      seenText] at seen
    obtain ⟨rfl, _⟩ := Sight.mark.inj seen
    exact ⟨after', by rw [shape, List.append_assoc], stop⟩
  obtain ⟨more, rfl, placed⟩ | ⟨more, rfl, rfl⟩ :=
    edge_cases fills takes edge split (List.length_pos_iff.mp positive)
  · obtain ⟨rfl, rfl⟩ := together before start start' front part value tail part' later more after
      edge narrow seenText placed foundPart
    refine enough later (by simp) ?_
    exact edge.heads other.stops otherFills.stopsFolded
      (tail_stops fills (stops_comparable redacts otherRedacts) placed edge.inside edge.stop
        afterStop)
  · refine enough (more ++ (part' ++ (redactedPlaceholder ++ later))) (by simp) ?_
    cases more with
    | cons first more => exact afterStop
    | nil =>
      rw [List.nil_append] at afterStop ⊢
      exact head_folded otherFills.stopsFolded edge.spelled edge.nonempty afterStop

end Overlaps

/-! ## Marks of the passes for URLs, tokens and keys -/

section Secrets

variable {rule other : Rule Char} {pattern otherPattern : List Char}
  {trims otherTrims : Char → Bool}

/-- The mark at an edge. -/
theorem edge_mark (secret : SecretPass rule pattern trims)
    {start start' front part value tail part' later : List Char}
    (edge : Edge Char.toLower redactedPlaceholder rule start start' front part value tail part'
      later) :
    ∃ taken spelled trimmed, start ++ part = taken ++ trimmed ∧
      start' ++ part' = spelled ++ trimmed ∧ lowered taken = lowered pattern ∧
      (spelled = if pattern ∈ urlPatterns then pattern else taken) ∧
      (∀ character ∈ trimmed, trims character = true) ∧
      ((∀ character ∈ start ++ (part ++ (value ++ tail)), NarrowSpace character) →
        ∀ character ∈ (value ++ tail).head?, trims character = false) := by
  obtain ⟨before, seen⟩ := edge.mark
  obtain ⟨taken, spelled, trimmed, rest, mark⟩ := secretPass_mark secret seen
  have split := mark.split
  rw [← List.append_assoc, ← List.append_assoc taken] at split
  obtain ⟨same, rfl⟩ := List.append_inj split mark.takes
  have writes := mark.writes
  rw [← List.append_assoc] at writes
  exact ⟨taken, spelled, trimmed, same, List.append_cancel_right writes, mark.found, mark.spells,
    mark.inside, mark.ends⟩

/-- A mark that stands. -/
theorem kept_mark (secret : SecretPass rule pattern trims) {before : Option Char}
    {kept rest : List Char}
    (seen : rule.sees before (kept ++ rest) = .mark (kept ++ redactedPlaceholder) kept.length) :
    ∃ taken trimmed, kept = taken ++ trimmed ∧ lowered taken = lowered pattern ∧
      (∀ character ∈ trimmed, trims character = true) ∧
      (pattern ∈ urlPatterns → taken = pattern) := by
  obtain ⟨taken, spelled, trimmed, rest, mark⟩ := secretPass_mark secret seen
  have split := mark.split
  rw [← List.append_assoc taken] at split
  obtain ⟨same, rfl⟩ := List.append_inj split mark.takes
  have writes := List.append_cancel_right mark.writes
  have spelledTaken : spelled = taken := by
    have aligned := markOf_spelled mark
    have long := congrArg List.length aligned
    rw [length_lowered, length_lowered] at long
    exact (List.append_inj (writes.symm.trans same) long).1
  refine ⟨taken, trimmed, same, mark.found, mark.inside, fun listed => ?_⟩
  rw [← spelledTaken, mark.spells, if_pos listed]

/-- Patterns for URLs and for tokens do not have the same last character. -/
theorem urls_tokens_last :
    (∀ scheme ∈ urlPatterns, ∃ last ∈ scheme.getLast?, last = '/' ∨ last = ':') ∧
    ∀ start ∈ tokenPatterns.map lowered, ∃ last ∈ start.getLast?, last ≠ '/' ∧ last ≠ ':' := by
  decide

/-- They do not end with each other. -/
theorem urls_apart : ∀ scheme ∈ urlPatterns, ∀ start ∈ tokenPatterns.map lowered,
    ¬ start <:+ scheme ∧ ¬ scheme <:+ start := by
  intro scheme schemeListed start startListed
  obtain ⟨schemeLast, schemeEnds, separates⟩ := urls_tokens_last.1 scheme schemeListed
  obtain ⟨startLast, startEnds, apart⟩ := urls_tokens_last.2 start startListed
  have other : scheme.getLast? ≠ start.getLast? := by
    intro same
    have equal : schemeLast = startLast := Option.mem_unique schemeEnds (same ▸ startEnds)
    rw [equal] at separates
    exact separates.elim apart.1 apart.2
  constructor
  · intro suffix
    refine other (getLast?_of_suffix ?_ suffix)
    rintro rfl
    cases startEnds
  · intro suffix
    refine other (getLast?_of_suffix ?_ suffix).symm
    rintro rfl
    cases schemeEnds

theorem precedesValue_lower (character : Char) :
    precedesValue character.toLower = precedesValue character := by
  obtain same | ⟨low, high, code⟩ := toLower_cases character
  · rw [same]
  · have letter {other : Char} (low : 65 ≤ other.toNat) (high : other.toNat ≤ 122) :
        precedesValue other = false := by
      have inside := endsValue_of_letter low high
      simp only [endsValue, Bool.or_eq_false_iff] at inside
      simp [precedesValue, inside]
    rw [letter low (by omega), letter (by omega) (by omega)]

theorem lowered_precedes {text : List Char}
    (inside : ∀ character ∈ text, precedesValue character = true) :
    ∀ character ∈ lowered text, precedesValue character = true := by
  intro character member
  obtain ⟨other, within, rfl⟩ := List.mem_map.mp member
  rw [precedesValue_lower]
  exact inside other within

/-- Patterns for keys are in lowercase and end with what is not trimmed. -/
theorem keyPatterns_end : ∀ pattern ∈ secretKeyPatterns, lowered pattern = pattern ∧
    ∀ character ∈ pattern.getLast?, precedesValue character = false := by
  intro pattern listed
  obtain ⟨key, keyListed, member⟩ := List.mem_flatMap.mp listed
  refine ⟨patterns_lowered _ (keyPattern_recognised keyListed member), ?_⟩
  simp only [keyPatterns, List.mem_cons, List.not_mem_nil, or_false] at member
  intro character last
  rcases member with rfl | rfl | rfl | rfl <;> simp [List.getLast?_cons] at last <;>
    rw [← last] <;> decide

/-- Patterns for URLs and for tokens hold no key and do not end like a pattern for one; only
that for SQLite ends with a colon, and it holds a letter that no key has. -/
theorem words_apart :
    (∀ start ∈ (urlPatterns ++ tokenPatterns).map lowered,
      (∀ key ∈ keyValueSecretKeys, ¬ key.toList <:+: start) ∧
      ∃ last ∈ (start.rdropWhile precedesValue).getLast?, last ≠ '=' ∧
        (last = ':' → 'q' ∈ start.rdropWhile precedesValue)) ∧
    ∀ key ∈ keyValueSecretKeys, 'q' ∉ key.toList := by
  decide

/-- What a pattern for a key is made of. -/
theorem keyPattern_parts {key : String} {pattern : List Char} (member : pattern ∈ keyPatterns key) :
    key.toList <:+: pattern ∧ (∃ last ∈ pattern.getLast?, last = '=' ∨ last = ':') ∧
      ('q' ∈ pattern → 'q' ∈ key.toList) := by
  simp only [keyPatterns, List.mem_cons, List.not_mem_nil, or_false] at member
  rcases member with rfl | rfl | rfl | rfl
  · exact ⟨⟨[], ['='], rfl⟩, by simp, by simp⟩
  · exact ⟨⟨[], [':'], rfl⟩, by simp, by simp⟩
  · exact ⟨⟨['"'], ['"', ':'], by simp⟩, by simp [List.getLast?_cons], by simp⟩
  · exact ⟨⟨['\''], ['\'', ':'], by simp⟩, by simp [List.getLast?_cons], by simp⟩

/-- Patterns for URLs and for tokens hold no pattern for a key, nor does one end with them, also
without what may be trimmed. -/
theorem keys_apart : ∀ start ∈ (urlPatterns ++ tokenPatterns).map lowered,
    ∀ key ∈ secretKeyPatterns, ¬ key <:+: start ∧ start.rdropWhile precedesValue ≠ [] ∧
      ¬ start.rdropWhile precedesValue <:+ key := by
  intro start startListed pattern listed
  obtain ⟨key, keyListed, member⟩ := List.mem_flatMap.mp listed
  obtain ⟨holds, ⟨last, ends, separates⟩, letter⟩ := keyPattern_parts member
  obtain ⟨noKey, stemLast, stemEnds, notEquals, sqlite⟩ := words_apart.1 start startListed
  have nonempty : start.rdropWhile precedesValue ≠ [] := by
    intro empty
    rw [empty] at stemEnds
    cases stemEnds
  refine ⟨fun inside => noKey key keyListed (holds.trans inside), nonempty, fun suffix => ?_⟩
  have same : stemLast = last := by
    rw [getLast?_of_suffix nonempty suffix] at ends
    exact Option.mem_unique stemEnds ends
  rw [← same] at separates
  have colon := separates.resolve_left notEquals
  exact words_apart.2 key keyListed (letter (suffix.subset (sqlite colon)))

/-- A text that ends where another one does but for what may be trimmed. -/
theorem suffix_of_ending {front start key ending : List Char}
    (stem : start.rdropWhile precedesValue ≠ [])
    (last : ∀ character ∈ key.getLast?, precedesValue character = false)
    (inside : ∀ character ∈ ending, precedesValue character = true)
    (same : front ++ start = key ++ ending) : start.rdropWhile precedesValue <:+ key := by
  have parts := List.rdropWhile_append_rtakeWhile (p := precedesValue) (l := start)
  rw [← parts, ← List.append_assoc] at same
  refine ⟨front, (ending_unique (fun character member => List.mem_rtakeWhile_imp member) ?_ inside
    last same).1⟩
  intro character member
  rw [List.getLast?_append_of_ne_nil _ stem, List.getLast?_eq_some_getLast stem,
    Option.mem_some_iff] at member
  subst member
  exact Bool.not_eq_true _ ▸ List.rdropWhile_last_not _ _ stem

/-- A mark that is kept begins with the pattern, when the pattern is found before its end. -/
theorem split_found {pattern taken trimmed kept more : List Char}
    (same : lowered taken = lowered pattern) (split : kept ++ more = taken ++ trimmed)
    (found : begins pattern kept = true) :
    ∃ inner, kept = taken ++ inner ∧ trimmed = inner ++ more := by
  have long := length_le_of_begins found
  have sameLength := congrArg List.length same
  rw [length_lowered, length_lowered] at sameLength
  obtain ⟨beyond, rfl, rfl⟩ | ⟨inner, rfl, rfl⟩ := List.append_eq_append_iff.mp split
  · rw [List.length_append] at sameLength
    have empty : beyond = [] := List.length_eq_zero_iff.mp (by omega)
    subst empty
    exact ⟨[], by simp, by simp⟩
  · exact ⟨inner, rfl, rfl⟩

/-- No mark of a pass for URLs or tokens ends inside a mark of a key. -/
theorem token_not_in_key {start front part taken inner key token : List Char}
    (listed : lowered token ∈ (urlPatterns ++ tokenPatterns).map lowered)
    (keyListed : key ∈ secretKeyPatterns) (alone : front = [] ∨ start = [])
    (split : lowered (start ++ part) = lowered token) (same : lowered taken = key)
    (frontSplit : front ++ part = taken ++ inner)
    (inside : ∀ character ∈ inner, precedesValue character = true) : False := by
  obtain ⟨apart, stem, noEnding⟩ := keys_apart _ listed key keyListed
  have aligned : lowered front ++ lowered part = key ++ lowered inner := by
    rw [← lowered_append, frontSplit, lowered_append, same]
  rw [lowered_append] at split
  obtain rfl | rfl := alone
  · rw [lowered_nil, List.nil_append] at aligned
    exact apart ⟨lowered start, lowered inner, by rw [List.append_assoc, ← aligned, split]⟩
  · rw [lowered_nil, List.nil_append] at split
    rw [split] at aligned
    exact noEnding (suffix_of_ending stem (keyPatterns_end key keyListed).2
      (lowered_precedes inside) aligned)

theorem untrimmed_nil {text : List Char} (inside : ∀ character ∈ text, false = true) : text = [] :=
  List.eq_nil_iff_forall_not_mem.mpr fun character member => nomatch inside character member

/-- The end of a lowercase text is in lowercase. -/
theorem lowered_end {front part text : List Char} (split : front ++ part = text)
    (same : lowered text = text) : lowered part = part := by
  rw [← split, lowered_append] at same
  exact (List.append_inj same (length_lowered front)).2

theorem secretPass_endsTogether (secret : SecretPass rule pattern trims)
    (otherSecret : SecretPass other otherPattern otherTrims) :
    EndsTogether rule other otherPattern := by
  intro before start start' front part value tail part' later more rest edge narrow seen placed
    found
  have shape : front ++ (part ++ (value ++ tail)) =
      front ++ (part ++ more) ++ (redactedPlaceholder ++ rest) := by simp [placed]
  rw [shape] at seen
  obtain ⟨taken, spelled, trimmed, split, split', same, spells, inside, ends⟩ :=
    edge_mark secret edge
  obtain ⟨otherTaken, otherTrimmed, otherSplit, otherSame, otherInside, otherSpells⟩ :=
    kept_mark otherSecret seen
  rw [← List.append_assoc] at otherSplit
  obtain ⟨inner, frontSplit, rfl⟩ := split_found otherSame otherSplit found
  have aligned (spelledSame : spelled = taken) : part' = part := by
    subst spelledSame
    exact (List.append_inj (split'.trans split.symm) edge.aligned).2
  have keySpelled (listed : pattern ∈ tokenPatterns ++ secretKeyPatterns) : spelled = taken := by
    rw [spells, if_neg (patterns_not_urls pattern listed)]
  cases otherSecret with
  | key _ otherListed =>
    obtain ⟨keyLowered, _⟩ := keyPatterns_end otherPattern otherListed
    rw [keyLowered] at otherSame
    have innerInside : ∀ character ∈ inner, precedesValue character = true :=
      fun character member => otherInside character (List.mem_append_left _ member)
    cases secret with
    | key _ listed =>
      refine ⟨?_, aligned (keySpelled (List.mem_append_right _ listed))⟩
      cases more with
      | nil => rfl
      | cons first more =>
        have kept := ends (fun character member => narrow character (by
          simp only [List.mem_append] at member ⊢
          exact member.imp_right .inr)) first (by rw [placed]; rfl)
        rw [otherInside first (by simp)] at kept
        nomatch kept
    | url _ listed =>
      rw [untrimmed_nil inside, List.append_nil] at split
      exact (token_not_in_key (List.mem_map_of_mem (List.mem_append_left _ listed)) otherListed
        edge.alone (by rw [split, same]) otherSame frontSplit innerInside).elim
    | token _ listed =>
      rw [untrimmed_nil inside, List.append_nil] at split
      exact (token_not_in_key (List.mem_map_of_mem (List.mem_append_right _ listed)) otherListed
        edge.alone (by rw [split, same]) otherSame frontSplit innerInside).elim
  | url _ otherListed =>
    obtain ⟨rfl, rfl⟩ := List.append_eq_nil_iff.mp (untrimmed_nil otherInside)
    refine ⟨rfl, ?_⟩
    cases secret with
    | key _ listed => exact aligned (keySpelled (List.mem_append_right _ listed))
    | token _ listed => exact aligned (keySpelled (List.mem_append_left _ listed))
    | url _ listed =>
      rw [List.append_nil, otherSpells otherListed] at frontSplit
      rw [untrimmed_nil inside, List.append_nil, spells, if_pos listed] at split'
      have lower := lowered_end frontSplit (urlPatterns_lowered otherPattern otherListed)
      have lower' := lowered_end split' (urlPatterns_lowered pattern listed)
      rw [← lower', ← lower]
      exact edge.spelled
  | token _ otherListed =>
    obtain ⟨rfl, rfl⟩ := List.append_eq_nil_iff.mp (untrimmed_nil otherInside)
    refine ⟨rfl, ?_⟩
    cases secret with
    | key _ listed => exact aligned (keySpelled (List.mem_append_right _ listed))
    | token _ listed => exact aligned (keySpelled (List.mem_append_left _ listed))
    | url _ listed =>
      rw [List.append_nil] at frontSplit
      rw [untrimmed_nil inside, List.append_nil] at split
      obtain ⟨noStart, noScheme⟩ := urls_apart pattern listed _ (List.mem_map_of_mem otherListed)
      rw [urlPatterns_lowered pattern listed] at same
      obtain rfl | rfl := edge.alone
      · refine absurd ⟨lowered start, ?_⟩ noStart
        rw [← otherSame, ← frontSplit, List.nil_append, ← lowered_append, split, same]
      · refine absurd ⟨lowered front, ?_⟩ noScheme
        rw [← same, ← split, List.nil_append, ← lowered_append, frontSplit, otherSame]

end Secrets

/-! ## Marks of headers -/

theorem secretPass_marksAgain {rule : Rule Char} {pattern : List Char} {trims : Char → Bool}
    (secret : SecretPass rule pattern trims) : MarksAgain rule pattern := by
  intro before text text' written width narrow found seen
  cases secret with
  | url =>
    simp only [redactUrlScheme, found, if_true]
    exact ⟨_, _, rfl⟩
  | token =>
    cases boundary : atBoundary before with
    | false => simp [redactPrefixedToken, boundary] at seen
    | true =>
      simp only [redactPrefixedToken, found, boundary, Bool.and_self, if_true]
      exact ⟨_, _, rfl⟩
  | key =>
    cases boundary : atBoundary before with
    | false => simp [redactAfterPattern, boundary] at seen
    | true =>
      have narrowBehind : ∀ character ∈ text.drop pattern.length, NarrowSpace character :=
        fun character member => narrow character (List.mem_of_mem_drop member)
      have trimmedIs := @trimmedBefore_narrow precedesValue (fun _ => id) _ narrowBehind
      simp only [redactAfterPattern, found, boundary, Bool.and_self, if_true, trimmedIs]
      exact ⟨_, _, rfl⟩

theorem authorization_marksAgain :
    MarksAgain redactAuthorizationBearer "authorization:".toList := by
  intro before text text' written width narrow found seen
  have narrowBehind : ∀ character ∈ text.drop "authorization:".toList.length,
      NarrowSpace character :=
    fun character member => narrow character (List.mem_of_mem_drop member)
  have trimmedIs := trimmedBefore_narrow precedesValue_of_whitespace narrowBehind
  rw [authorization_mark before found trimmedIs]
  split_ifs
  · exact ⟨_, _, rfl⟩
  · exact ⟨_, _, rfl⟩

/-- A pattern is found in one place of a mark only, if its last character is not found behind
it. -/
theorem same_place {trims : Char → Bool}
    (folded : ∀ character, trims character.toLower = trims character)
    {front first second ending otherEnding : List Char} (same : lowered first = lowered second)
    (last : ∃ character ∈ (lowered second).getLast?, trims character = false)
    (inside : ∀ character ∈ ending, trims character = true)
    (otherInside : ∀ character ∈ otherEnding, trims character = true)
    (split : front ++ (first ++ ending) = second ++ otherEnding) :
    front = [] ∧ first = second ∧ ending = otherEnding := by
  have ends {text : List Char} (same : lowered text = lowered second) (front : List Char) :
      ∀ character ∈ (front ++ text).getLast?, trims character = false := by
    obtain ⟨final, isLast, kept⟩ := last
    rw [← same, lowered, List.getLast?_map] at isLast
    obtain ⟨character, lastOfText, rfl⟩ := Option.map_eq_some_iff.mp isLast
    intro other member
    rw [List.getLast?_append, lastOfText, Option.some_or, Option.mem_some_iff] at member
    rw [← member, ← folded, kept]
  rw [← List.append_assoc] at split
  obtain ⟨placed, rfl⟩ := ending_unique inside (ends same front) otherInside (ends rfl []) split
  have long := congrArg List.length placed
  have sameLength := congrArg List.length same
  rw [length_lowered, length_lowered] at sameLength
  rw [List.length_append, sameLength] at long
  obtain rfl : front = [] := List.length_eq_zero_iff.mp (by simpa using long)
  exact ⟨rfl, placed, rfl⟩

/-- What is not the end of a header's name. -/
def notColon (character : Char) : Bool :=
  character != ':'

theorem notColon_lower (character : Char) : notColon character.toLower = notColon character := by
  obtain same | ⟨low, high, code⟩ := toLower_cases character
  · rw [same]
  · have letter {other : Char} (low : 65 ≤ other.toNat) : notColon other = true := by
      rw [notColon, bne_iff_ne]
      rintro rfl
      exact absurd low (by decide)
    rw [letter low, letter (by omega)]

theorem notColon_space {character : Char} (space : isWhitespace character = true) :
    notColon character = true := by
  rw [notColon, bne_iff_ne]
  rintro rfl
  exact absurd space (by decide)

theorem notColon_scheme {scheme : List Char} (same : lowered scheme = "bearer ".toList) :
    ∀ character ∈ scheme, notColon character = true := by
  intro character member
  have within : character.toLower ∈ lowered scheme := List.mem_map_of_mem member
  rw [same] at within
  have apart : ∀ other ∈ "bearer ".toList, notColon other = true := by decide
  rw [← notColon_lower, apart _ within]

/-- A header whose mark stands. -/
theorem kept_header {before : Option Char} {kept rest : List Char}
    (seen : redactAuthorizationBearer.sees before (kept ++ rest) =
      .mark (kept ++ redactedPlaceholder) kept.length) :
    ∃ taken trimmed scheme, kept = taken ++ (trimmed ++ scheme) ∧
      lowered taken = "authorization:".toList ∧
      (∀ character ∈ trimmed, isWhitespace character = true) ∧
      (scheme = [] ∨ scheme = "Bearer ".toList) := by
  obtain ⟨taken, trimmed, scheme, spelled, after, header⟩ := authorization_header seen
  have split := header.split
  rw [← List.append_assoc trimmed, ← List.append_assoc taken] at split
  obtain ⟨same, rfl⟩ := List.append_inj split (by simpa using header.takes)
  have writes := List.append_cancel_right header.writes
  rw [same, List.append_assoc] at writes
  have schemeIs := List.append_cancel_left (List.append_cancel_left writes)
  refine ⟨taken, trimmed, scheme, same, header.found, header.inside, ?_⟩
  obtain ⟨_, empty, _⟩ | ⟨bearer, _⟩ := header.spells
  · exact .inl empty
  · exact .inr (schemeIs.trans bearer)

/-- The name of a header does not overlap a pattern, and of the patterns only that for a token
may stand between the name and the value. -/
theorem headers_apart : ∀ pattern ∈ urlPatterns ++ tokenPatterns ++ secretKeyPatterns,
    'z' ∉ lowered pattern ∧
    (∀ ending ∈ "authorization:".toList.tails, ending ≠ [] →
      ¬ ending <+: lowered pattern ∧ ¬ lowered pattern <+: ending) ∧
    ((∀ character ∈ lowered pattern, isWhitespace character = true ∨
      character ∈ "bearer ".toList) →
      pattern ∉ urlPatterns ∧ pattern ∉ secretKeyPatterns ∧
        lowered pattern = "bearer ".toList) := by
  decide

theorem secretPass_listed {rule : Rule Char} {pattern : List Char} {trims : Char → Bool}
    (secret : SecretPass rule pattern trims) :
    pattern ∈ urlPatterns ++ tokenPatterns ++ secretKeyPatterns := by
  cases secret with
  | url _ listed => simp [listed]
  | token _ listed => simp [listed]
  | key _ listed => simp [listed]

/-- Between the name of a header and its value a scheme stands at the end. -/
theorem scheme_last {beyond taken more space scheme : List Char}
    (same : lowered taken = "bearer ".toList)
    (inside : ∀ character ∈ space, isWhitespace character = true)
    (fits : scheme.length ≤ taken.length) (split : space ++ scheme = beyond ++ (taken ++ more)) :
    more = [] := by
  obtain ⟨past, rfl, placed⟩ | ⟨rest, rfl, placed⟩ := List.append_eq_append_iff.mp split
  · have lengths := congrArg List.length placed
    simp only [List.length_append] at lengths
    exact List.length_eq_zero_iff.mp (by omega)
  · cases rest with
    | nil =>
      have lengths := congrArg List.length placed
      simp only [List.length_append, List.length_nil] at lengths
      exact List.length_eq_zero_iff.mp (by omega)
    | cons first rest =>
      cases taken with
      | nil => nomatch same
      | cons other taken =>
        obtain rfl : other = first := (List.cons.inj placed).1
        have space := inside other (by simp)
        have letter : other.toLower = 'b' := (List.cons.inj same).1
        rw [lower_of_endsValue (endsValue_of_whitespace space)] at letter
        rw [letter] at space
        exact absurd space (by decide)

theorem secretPass_endsWithHeader {rule : Rule Char} {pattern : List Char} {trims : Char → Bool}
    (secret : SecretPass rule pattern trims) :
    EndsTogether rule redactAuthorizationBearer "authorization:".toList := by
  intro before start start' front part value tail part' later more rest edge narrow seen placed
    found
  have shape : front ++ (part ++ (value ++ tail)) =
      front ++ (part ++ more) ++ (redactedPlaceholder ++ rest) := by simp [placed]
  rw [shape] at seen
  obtain ⟨taken, spelled, trimmed, split, split', same, spells, inside, _⟩ := edge_mark secret edge
  obtain ⟨name, space, scheme, headerSplit, nameIs, spaceInside, schemeIs⟩ := kept_header seen
  have nameSame : lowered name = lowered "authorization:".toList := nameIs.trans (by decide)
  rw [← List.append_assoc] at headerSplit
  obtain ⟨inner, frontSplit, behind⟩ := split_found nameSame headerSplit found
  obtain ⟨noName, noEnd, schemeOnly⟩ := headers_apart pattern (secretPass_listed secret)
  have startEmpty : start = [] := by
    refine edge.alone.resolve_left ?_
    rintro rfl
    have within : 'z' ∈ lowered (start ++ part) := by
      rw [show part = name ++ inner from frontSplit, lowered_append, lowered_append, nameIs]
      simp
    rw [split, lowered_append, same, List.mem_append] at within
    obtain inPattern | trimmedMember := within
    · exact noName inPattern
    · have precedes := lowered_precedes (fun character member =>
        secretPass_trims secret character (inside character member)) _ trimmedMember
      exact absurd precedes (by decide)
  have startEmpty' : start' = [] :=
    List.length_eq_zero_iff.mp (by rw [edge.aligned, startEmpty]; rfl)
  rw [startEmpty, List.nil_append] at split
  rw [startEmpty', List.nil_append] at split'
  rw [split] at frontSplit
  -- the mark begins behind the name, so it is that of a scheme
  obtain ⟨beyond, innerIs⟩ : ∃ beyond, inner = beyond ++ (taken ++ trimmed) := by
    obtain ⟨past, nameSplit, placed⟩ | ⟨beyond, _, innerIs⟩ :=
      List.append_eq_append_iff.mp frontSplit
    · cases past with
      | nil => exact ⟨[], by simpa using placed.symm⟩
      | cons first past =>
        have listed : lowered (first :: past) ∈ "authorization:".toList.tails := by
          rw [List.mem_tails, ← nameIs, nameSplit, lowered_append]
          exact List.suffix_append _ _
        obtain ⟨noPrefix, noPattern⟩ := noEnd _ listed (List.cons_ne_nil _ _)
        have aligned : lowered pattern ++ lowered trimmed =
            lowered (first :: past) ++ lowered inner := by
          rw [← same, ← lowered_append, placed, lowered_append]
        obtain within | within :=
          List.prefix_or_prefix_of_prefix ⟨_, aligned⟩ (List.prefix_append _ _)
        · exact absurd within noPattern
        · exact absurd within noPrefix
    · exact ⟨beyond, innerIs⟩
  rw [innerIs, List.append_assoc, List.append_assoc] at behind
  have between : ∀ character ∈ lowered pattern, isWhitespace character = true ∨
      character ∈ "bearer ".toList := by
    intro character member
    rw [← same] at member
    obtain ⟨other, within, rfl⟩ := List.mem_map.mp member
    have inBoth : other ∈ space ++ scheme := by rw [behind]; simp [within]
    obtain inSpace | inScheme := List.mem_append.mp inBoth
    · left
      rw [isWhitespace_toLower]
      exact spaceInside other inSpace
    · right
      obtain rfl | rfl := schemeIs
      · nomatch inScheme
      · have lower : ∀ other ∈ "Bearer ".toList, other.toLower ∈ "bearer ".toList := by decide
        exact lower other inScheme
  obtain ⟨noUrl, noKey, schemePattern⟩ := schemeOnly between
  have untrimmed : trimmed = [] := by
    cases secret with
    | url _ listed => exact absurd listed noUrl
    | token => exact untrimmed_nil inside
    | key _ listed => exact absurd listed noKey
  have fits : scheme.length ≤ taken.length := by
    rw [← length_lowered taken, same, schemePattern]
    obtain rfl | rfl := schemeIs <;> decide
  rw [untrimmed, List.nil_append] at behind
  rw [if_neg noUrl] at spells
  exact ⟨scheme_last (same.trans schemePattern) spaceInside fits behind, by
    rw [split, split', spells]⟩

/-- Headers are seen behind every character. -/
theorem authorization_endsTogether :
    EndsTogether redactAuthorizationBearer redactAuthorizationBearer "authorization:".toList := by
  intro before start start' front part value tail part' later more rest edge narrow seen placed
    found
  have shape : front ++ (part ++ (value ++ tail)) =
      front ++ (part ++ more) ++ (redactedPlaceholder ++ rest) := by simp [placed]
  have seenThere := seen
  rw [shape] at seenThere
  obtain ⟨name, space, scheme, headerSplit, nameIs, spaceInside, schemeIs⟩ := kept_header seenThere
  have nameSame : lowered name = lowered "authorization:".toList := nameIs.trans (by decide)
  rw [← List.append_assoc] at headerSplit
  obtain ⟨inner, frontSplit, behind⟩ := split_found nameSame headerSplit found
  have innerInside : ∀ character ∈ inner, notColon character = true := by
    intro character member
    have within : character ∈ space ++ scheme := by rw [behind]; simp [member]
    obtain inSpace | inScheme := List.mem_append.mp within
    · exact notColon_space (spaceInside character inSpace)
    · obtain rfl | rfl := schemeIs
      · nomatch inScheme
      · exact notColon_scheme (by decide) character inScheme
  obtain ⟨place, seenMark⟩ := edge.mark
  obtain ⟨taken, trimmed, ownScheme, spelled, after, header⟩ := authorization_header seenMark
  have last : ∃ character ∈ (lowered taken).getLast?, notColon character = false :=
    ⟨':', by rw [header.found]; decide, by decide⟩
  have endingInside : ∀ character ∈ trimmed ++ ownScheme, notColon character = true := by
    intro character member
    obtain inSpace | inScheme := List.mem_append.mp member
    · exact notColon_space (header.inside character inSpace)
    · obtain ⟨_, rfl, _⟩ | ⟨_, schemeSame⟩ := header.spells
      · nomatch inScheme
      · exact notColon_scheme schemeSame character inScheme
  have split := header.split
  rw [← List.append_assoc, ← List.append_assoc trimmed, ← List.append_assoc taken] at split
  obtain ⟨same, _⟩ := List.append_inj split (by simpa using header.takes)
  have samePlace : start = [] ∧ front = [] := by
    obtain rfl | rfl := edge.alone
    · rw [List.nil_append] at frontSplit
      rw [frontSplit] at same
      exact ⟨(same_place notColon_lower (nameIs.trans header.found.symm) last innerInside
        endingInside same).1, rfl⟩
    · rw [List.nil_append] at same
      rw [same] at frontSplit
      exact ⟨rfl, (same_place notColon_lower (header.found.trans nameIs.symm)
        ⟨':', by rw [nameIs]; decide, by decide⟩ endingInside innerInside frontSplit).1⟩
  obtain ⟨rfl, rfl⟩ := samePlace
  obtain rfl : start' = [] := List.length_eq_zero_iff.mp edge.aligned
  have both := seenMark.symm.trans (show redactAuthorizationBearer.sees place _ = _ from seen)
  obtain ⟨written, width⟩ := Sight.mark.inj both
  have empty : more = [] := by
    simp only [List.nil_append, List.length_append] at width
    exact List.length_eq_zero_iff.mp (by omega)
  subst empty
  refine ⟨rfl, ?_⟩
  simpa using written

end Memcore
