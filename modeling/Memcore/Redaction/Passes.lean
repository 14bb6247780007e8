import Memcore.Redaction.Patterns

/-!
# Passes of the redactor

What the four kinds of passes have in common: where their pattern is not found they see
nothing, what they write ends with the placeholder, they take no bracket, and what they
see before a cut does not depend on what follows it. So they are disciplined scanners.
-/
namespace Memcore

open Texts Scanners

/-- A text and what follows it can be read apart: no pattern is cut, and either the text ends
with the bracket or what follows is neither trimmed nor a scheme of its own. -/
def ReadApart (text more : List Char) : Prop :=
  Sealed text ∧ (Closed ']' text ∨
    ((∀ character ∈ more.head?, precedesValue character = false) ∧
      begins "bearer ".toList more = false))

/-- What the passes have in common. -/
structure Redacts (pattern : List Char) (rule : Rule Char) : Prop where
  recognised : lowered pattern ∈ recognisedPatterns
  unseen : ∀ before text, begins pattern text = false → rule.sees before text = .nothing
  marks : ∀ before text written width, rule.sees before text = .mark written width →
    Closed ']' written ∧ width ≤ text.length ∧ ']' ∉ text.take width
  stops : rule.stops = endsValue ∨ rule.stops = isWhitespace
  blind : ∀ text more, ReadApart text more → Blind rule text more

theorem sealed_of_closed {text : List Char} (closed : Closed ']' text) : Sealed text := by
  obtain ⟨front, rfl⟩ := closed
  refine ⟨[']'], by decide, ?_⟩
  rw [lowered_append]
  exact List.suffix_append _ _

theorem closed_suffix {text rest : List Char} (closed : Closed ']' text) (nonempty : rest ≠ [])
    (suffix : rest <:+ text) : Closed ']' rest := by
  obtain ⟨front, rfl⟩ := closed
  obtain within | ⟨start, rfl⟩ := List.suffix_or_suffix_of_suffix suffix
    (List.suffix_append front [']'])
  · obtain rfl | empty := List.suffix_cons_iff.mp within
    · exact ⟨[], rfl⟩
    · exact absurd (List.suffix_nil.mp empty) nonempty
  · exact ⟨start, rfl⟩

theorem closed_placeholder (front : List Char) : Closed ']' (front ++ redactedPlaceholder) :=
  closed_append front ⟨"[REDACTED".toList, rfl⟩

/-- A pattern alone takes as much of the text whatever follows. -/
theorem take_append_of_begins {pattern text : List Char} (found : begins pattern text = true)
    (more : List Char) : (text ++ more).take pattern.length = text.take pattern.length :=
  List.take_append_of_le_length (length_le_of_begins found)

theorem drop_append_of_begins {pattern text : List Char} (found : begins pattern text = true)
    (more : List Char) :
    (text ++ more).drop pattern.length = text.drop pattern.length ++ more :=
  List.drop_append_of_le_length (length_le_of_begins found)

theorem urlScheme_redacts {scheme : List Char} (recognised : lowered scheme ∈ recognisedPatterns) :
    Redacts scheme (redactUrlScheme scheme) where
  recognised := recognised
  unseen before text absent := by simp [redactUrlScheme, absent]
  marks before text written width seen := by
    cases found : begins scheme text with
    | false => simp [redactUrlScheme, found] at seen
    | true =>
      simp only [redactUrlScheme, found, if_true, Sight.mark.injEq] at seen
      obtain ⟨rfl, rfl⟩ := seen
      exact ⟨closed_placeholder _, length_le_of_begins found, bracket_not_taken recognised found⟩
  stops := .inr rfl
  blind text more apart before symbol rest suffix := by
    simp only [redactUrlScheme, begins_append recognised apart.1 (List.cons_ne_nil _ _) suffix]

theorem prefixedToken_redacts {start : List Char} (recognised : lowered start ∈ recognisedPatterns) :
    Redacts start (redactPrefixedToken start) where
  recognised := recognised
  unseen before text absent := by simp [redactPrefixedToken, absent]
  marks before text written width seen := by
    cases found : begins start text with
    | false => simp [redactPrefixedToken, found] at seen
    | true =>
      cases boundary : atBoundary before with
      | false => simp [redactPrefixedToken, found, boundary] at seen
      | true =>
        simp only [redactPrefixedToken, found, boundary, Bool.and_true, if_true,
          Sight.mark.injEq] at seen
        obtain ⟨rfl, rfl⟩ := seen
        exact ⟨closed_placeholder _, length_le_of_begins found, bracket_not_taken recognised found⟩
  stops := .inl rfl
  blind text more apart before symbol rest suffix := by
    have same := begins_append recognised apart.1 (List.cons_ne_nil _ _) suffix more
    simp only [redactPrefixedToken, same]
    cases found : begins start (symbol :: rest) with
    | false => rfl
    | true => rw [take_append_of_begins found]

/-- The text behind a pattern is trimmed alike whatever follows. -/
theorem trimmed_apart {pattern text rest more : List Char} {trims : Char → Bool}
    (weaker : ∀ character, trims character = true → precedesValue character = true)
    (recognised : lowered pattern ∈ recognisedPatterns) (apart : ReadApart text more)
    (nonempty : rest ≠ []) (suffix : rest <:+ text) (found : begins pattern rest = true) :
    trimmedBefore trims ((rest ++ more).drop pattern.length) =
      trimmedBefore trims (rest.drop pattern.length) := by
  have kept {character : Char} (untouched : precedesValue character = false) :
      trims character = false :=
    Bool.not_eq_true _ ▸ fun trimmed => by rw [weaker _ trimmed] at untouched; nomatch untouched
  rw [drop_append_of_begins found]
  apply trimmedBefore_append
  obtain closed | ⟨starts, _⟩ := apart.2
  · exact .inl ⟨']', bracket_after recognised (closed_suffix closed nonempty suffix) found,
      kept (by decide)⟩
  · exact .inr fun character member => kept (starts character member)

/-- What is trimmed behind a pattern contains no bracket and fits in the text. -/
theorem trimmed_marks {pattern text trimmed : List Char} {trims : Char → Bool}
    (bracketKept : trims ']' = false) (recognised : lowered pattern ∈ recognisedPatterns)
    (found : begins pattern text = true)
    (trimmedIs : trimmedBefore trims (text.drop pattern.length) = some trimmed) :
    pattern.length + trimmed.length ≤ text.length ∧
      ']' ∉ text.take (pattern.length + trimmed.length) := by
  obtain ⟨begun, all⟩ := trimmedBefore_some trimmedIs
  constructor
  · have long := begun.length_le
    have enough := length_le_of_begins found
    rw [List.length_drop] at long
    omega
  · rw [List.take_add, ← List.prefix_iff_eq_take.mp begun]
    intro member
    obtain taken | trimmedMember := List.mem_append.mp member
    · exact bracket_not_taken recognised found taken
    · rw [all _ trimmedMember] at bracketKept
      nomatch bracketKept

theorem afterPattern_redacts {pattern : List Char}
    (recognised : lowered pattern ∈ recognisedPatterns) :
    Redacts pattern (redactAfterPattern pattern) where
  recognised := recognised
  unseen before text absent := by simp [redactAfterPattern, absent]
  marks before text written width seen := by
    cases found : begins pattern text with
    | false => simp [redactAfterPattern, found] at seen
    | true =>
      cases boundary : atBoundary before with
      | false => simp [redactAfterPattern, found, boundary] at seen
      | true =>
        simp only [redactAfterPattern, found, boundary, Bool.and_true, if_true] at seen
        cases trimmedIs : trimmedBefore precedesValue (text.drop pattern.length) with
        | none => simp [trimmedIs] at seen
        | some trimmed =>
          simp only [trimmedIs, Sight.mark.injEq] at seen
          obtain ⟨rfl, rfl⟩ := seen
          exact ⟨closed_placeholder _, trimmed_marks (by decide) recognised found trimmedIs⟩
  stops := .inl rfl
  blind text more apart before symbol rest suffix := by
    have nonempty := List.cons_ne_nil symbol rest
    have same := begins_append recognised apart.1 nonempty suffix more
    simp only [redactAfterPattern, same]
    cases found : begins pattern (symbol :: rest) with
    | false => rfl
    | true =>
      rw [trimmed_apart (fun _ => id) recognised apart nonempty suffix found,
        take_append_of_begins found]

theorem precedesValue_of_whitespace (character : Char) (space : isWhitespace character = true) :
    precedesValue character = true := by
  simp [precedesValue, space]

theorem authorization_recognised : lowered "authorization:".toList ∈ recognisedPatterns :=
  lowered_header_recognised List.mem_cons_self

theorem bearer_recognised : lowered "bearer ".toList ∈ recognisedPatterns :=
  lowered_header_recognised (List.mem_cons_of_mem _ List.mem_cons_self)

/-- What an authorization header shows when its scheme has been trimmed. -/
theorem authorization_mark {text trimmed : List Char} (before : Option Char)
    (found : begins "authorization:".toList text = true)
    (trimmedIs : trimmedBefore isWhitespace (text.drop "authorization:".toList.length) = some trimmed) :
    redactAuthorizationBearer.sees before text =
      if begins "bearer ".toList ((text.drop "authorization:".toList.length).drop trimmed.length) then
        .mark (text.take "authorization:".toList.length ++ trimmed ++ "Bearer ".toList ++
          redactedPlaceholder)
          ("authorization:".toList.length + trimmed.length + "bearer ".toList.length)
      else .mark (text.take "authorization:".toList.length ++ trimmed ++ redactedPlaceholder)
        ("authorization:".toList.length + trimmed.length) := by
  simp only [redactAuthorizationBearer, found, if_true, trimmedIs]

theorem authorization_redacts : Redacts "authorization:".toList redactAuthorizationBearer where
  recognised := authorization_recognised
  unseen before text absent := by simp only [redactAuthorizationBearer, absent]; rfl
  marks before text written width seen := by
    cases found : begins "authorization:".toList text with
    | false => simp only [redactAuthorizationBearer, found] at seen; nomatch seen
    | true =>
      cases trimmedIs : trimmedBefore isWhitespace (text.drop "authorization:".toList.length) with
      | none => simp only [redactAuthorizationBearer, found, if_true, trimmedIs] at seen; nomatch seen
      | some trimmed =>
        rw [authorization_mark before found trimmedIs] at seen
        obtain ⟨fits, bracket⟩ := trimmed_marks (by decide) authorization_recognised found trimmedIs
        split at seen
        · next bearer =>
          obtain ⟨rfl, rfl⟩ := Sight.mark.inj seen
          have long := length_le_of_begins bearer
          simp only [List.length_drop] at long
          refine ⟨closed_placeholder _, by omega, ?_⟩
          rw [List.take_add, List.mem_append, not_or]
          refine ⟨bracket, ?_⟩
          rw [← List.drop_drop]
          exact bracket_not_taken bearer_recognised bearer
        · obtain ⟨rfl, rfl⟩ := Sight.mark.inj seen
          exact ⟨closed_placeholder _, fits, bracket⟩
  stops := .inl rfl
  blind text more apart before symbol rest suffix := by
    have nonempty := List.cons_ne_nil symbol rest
    have same := begins_append authorization_recognised apart.1 nonempty suffix more
    cases found : begins "authorization:".toList (symbol :: rest) with
    | false =>
      simp only [redactAuthorizationBearer, same, found]
      rfl
    | true =>
      have sameTrimmed := trimmed_apart precedesValue_of_whitespace authorization_recognised apart
        nonempty suffix found
      cases trimmedIs : trimmedBefore isWhitespace
          ((symbol :: rest).drop "authorization:".toList.length) with
      | none =>
        simp only [redactAuthorizationBearer, same, found, if_true, sameTrimmed, trimmedIs]
      | some trimmed =>
        obtain ⟨begun, all⟩ := trimmedBefore_some trimmedIs
        rw [authorization_mark before (same.trans found) (sameTrimmed.trans trimmedIs),
          authorization_mark before found trimmedIs, take_append_of_begins found,
          drop_append_of_begins found, List.drop_append_of_le_length begun.length_le]
        have sameScheme : begins "bearer ".toList
            (((symbol :: rest).drop "authorization:".toList.length).drop trimmed.length ++ more) =
            begins "bearer ".toList
              (((symbol :: rest).drop "authorization:".toList.length).drop trimmed.length) := by
          by_cases left : ((symbol :: rest).drop "authorization:".toList.length).drop trimmed.length = []
          · obtain closed | ⟨_, otherwise⟩ := apart.2
            · have bracket := bracket_after authorization_recognised
                (closed_suffix closed nonempty suffix) found
              rw [← List.take_append_drop trimmed.length (List.drop _ _), left, List.append_nil,
                ← List.prefix_iff_eq_take.mp begun] at bracket
              exact absurd (all _ bracket) (by decide)
            · rw [left, List.nil_append, otherwise]
              decide
          · exact begins_append bearer_recognised apart.1 left
              (((List.drop_suffix _ _).trans (List.drop_suffix _ _)).trans suffix) more
        rw [sameScheme]

theorem stops_of_whitespace {pattern : List Char} {rule : Rule Char}
    (redacts : Redacts pattern rule) {character : Char} (space : isWhitespace character = true) :
    rule.stops character = true := by
  obtain stops | stops := redacts.stops
  · rw [stops, endsValue_of_whitespace space]
  · rw [stops, space]

theorem stops_of_inside {pattern : List Char} {rule : Rule Char} (redacts : Redacts pattern rule)
    {character : Char} (inside : endsValue character = false) : rule.stops character = false := by
  obtain stops | stops := redacts.stops
  · rw [stops, inside]
  · rw [stops, whitespace_of_inside inside]

/-- Every pass is a disciplined scanner. -/
theorem redacts_disciplined {pattern : List Char} {rule : Rule Char}
    (redacts : Redacts pattern rule) : Disciplined isWhitespace ']' rule where
  fits before text written width seen := (redacts.marks before text written width seen).2.1
  closes before text written width seen := (redacts.marks before text written width seen).1
  walled before text written width seen := (redacts.marks before text written width seen).2.2
  wallUnseen _ rest := redacts.unseen _ _ (begins_bracket redacts.recognised rest)
  gapStops _ space := stops_of_whitespace redacts space
  gapUnseen _ _ rest space :=
    redacts.unseen _ _ (begins_whitespace redacts.recognised space rest)
  gapBlind text more closed _ := redacts.blind text more ⟨sealed_of_closed closed, .inl closed⟩

/-- A pass that still copies at the end of a sealed text leaves it sealed. -/
theorem redacts_keeps_sealed {pattern : List Char} {rule : Rule Char}
    (redacts : Redacts pattern rule) {text out : List Char} (isSealed : Sealed text)
    (scanned : scan rule .copying none text = some (out, .copying)) : Sealed out := by
  obtain ⟨tail, member, front, shape⟩ := isSealed
  obtain ⟨nonempty, inside⟩ := sealingEnds_shape tail member
  obtain ⟨start, ending, rfl, _, lowerEnding⟩ := List.append_eq_map_iff.mp shape
  cases ending with
  | nil => exact absurd lowerEnding.symm nonempty
  | cons symbol rest =>
    have insideRest : ∀ other ∈ rest, rule.stops other = false := by
      intro other otherMember
      refine stops_of_inside redacts ?_
      rw [← endsValue_lower]
      refine inside _ ?_
      rw [← lowerEnding]
      exact List.mem_map_of_mem otherMember
    obtain ⟨front', rfl⟩ := copied_end insideRest scanned
    refine ⟨tail, member, lowered front', ?_⟩
    rw [lowered_append, ← lowerEnding]
    rfl

theorem schemes_colon : ∀ scheme ∈ databaseUrlSchemes ++ ["sqlite:"] ++ redisUrlSchemes,
    ':' ∈ scheme.toList := by
  decide

theorem providerKeyPrefixes_unspaced : ∀ start ∈ providerKeyPrefixes,
    ∀ character ∈ start.toList, isWhitespace character = false := by
  decide

theorem keyPattern_separated {key : String} {pattern : List Char}
    (member : pattern ∈ keyPatterns key) : ':' ∈ pattern ∨ '=' ∈ pattern := by
  simp only [keyPatterns, List.mem_cons, List.not_mem_nil, or_false] at member
  rcases member with rfl | rfl | rfl | rfl
  · exact .inr (by simp)
  · exact .inl (by simp)
  · exact .inl (by simp)
  · exact .inl (by simp)

/-- A pass other than the one for authorization headers, with what is known of its pattern. -/
inductive LaterPass : Rule Char → Prop
  | urlScheme (scheme : List Char) (recognised : lowered scheme ∈ recognisedPatterns)
      (colon : ':' ∈ lowered scheme) : LaterPass (redactUrlScheme scheme)
  | prefixedToken (start : List Char) (recognised : lowered start ∈ recognisedPatterns)
      (unspaced : (∀ character ∈ lowered start, isWhitespace character = false) ∨
        lowered start = "bearer ".toList) :
      LaterPass (redactPrefixedToken start)
  | afterPattern (pattern : List Char) (recognised : lowered pattern ∈ recognisedPatterns)
      (separated : ':' ∈ lowered pattern ∨ '=' ∈ lowered pattern) :
      LaterPass (redactAfterPattern pattern)

theorem laterPass_redacts {rule : Rule Char} (later : LaterPass rule) :
    ∃ pattern, Redacts pattern rule := by
  cases later with
  | urlScheme scheme recognised => exact ⟨scheme, urlScheme_redacts recognised⟩
  | prefixedToken start recognised => exact ⟨start, prefixedToken_redacts recognised⟩
  | afterPattern pattern recognised => exact ⟨pattern, afterPattern_redacts recognised⟩

theorem laterPass_urlScheme {scheme : String}
    (listed : scheme ∈ databaseUrlSchemes ++ ["sqlite:"] ++ redisUrlSchemes) :
    LaterPass (redactUrlScheme scheme.toList) := by
  have recognised := word_recognised (List.mem_append_left _ listed)
  have same := patterns_lowered _ recognised
  exact .urlScheme _ (by rwa [same]) (by rw [same]; exact schemes_colon scheme listed)

theorem laterPass_prefixedToken {start : String} (listed : start ∈ providerKeyPrefixes) :
    LaterPass (redactPrefixedToken start.toList) := by
  have recognised := word_recognised (List.mem_append_right _ listed)
  have same := patterns_lowered _ recognised
  have unspaced := providerKeyPrefixes_unspaced start listed
  exact .prefixedToken _ (by rwa [same]) (.inl (by rwa [same]))

theorem laterPass_afterPattern {key : String} {pattern : List Char}
    (listed : key ∈ keyValueSecretKeys) (member : pattern ∈ keyPatterns key) :
    LaterPass (redactAfterPattern pattern) := by
  have recognised := keyPattern_recognised listed member
  have same := patterns_lowered _ recognised
  exact .afterPattern _ (by rwa [same]) (by rw [same]; exact keyPattern_separated member)

theorem mem_of_mem_ite {Item : Type} {asked : Bool} {items : List Item} {item : Item}
    (member : item ∈ if asked then items else []) : item ∈ items := by
  cases asked with
  | false => nomatch member
  | true => exact member

/-- The passes of a configuration but the one for authorization headers. -/
def laterRules (config : RedactionConfig) : List (Rule Char) :=
  (if config.redactBearerTokens then
    [redactPrefixedToken "Bearer ".toList, redactPrefixedToken "bearer ".toList]
  else []) ++
  (if config.redactDatabaseUrls then
    databaseUrlSchemes.map (redactUrlScheme ·.toList) ++ [redactUrlScheme "sqlite:".toList]
  else []) ++
  (if config.redactRedisUrls then redisUrlSchemes.map (redactUrlScheme ·.toList) else []) ++
  (if config.redactProviderKeys then
    providerKeyPrefixes.map (redactPrefixedToken ·.toList)
  else []) ++
  (if config.redactApiKeys then keyValueSecretKeys.flatMap redactKeyValue else [])

theorem redactionRules_eq (config : RedactionConfig) : redactionRules config =
    (if config.redactBearerTokens then [redactAuthorizationBearer] else []) ++ laterRules config := by
  unfold redactionRules laterRules
  cases config.redactBearerTokens <;> rfl

theorem laterPass_of_mem {config : RedactionConfig} {rule : Rule Char}
    (member : rule ∈ laterRules config) : LaterPass rule := by
  have bearer (start : List Char) (same : lowered start = "bearer ".toList) :
      LaterPass (redactPrefixedToken start) :=
    .prefixedToken start (by rw [same]; exact bearer_recognised) (.inr same)
  simp only [laterRules, List.mem_append] at member
  obtain (((member | member) | member) | member) | member := member
  · have listed := mem_of_mem_ite member
    simp only [List.mem_cons, List.not_mem_nil, or_false] at listed
    obtain rfl | rfl := listed <;> exact bearer _ (by decide)
  · obtain listed | single := List.mem_append.mp (mem_of_mem_ite member)
    · obtain ⟨scheme, schemeListed, rfl⟩ := List.mem_map.mp listed
      exact laterPass_urlScheme (by simp [schemeListed])
    · rw [List.mem_singleton.mp single]
      exact laterPass_urlScheme (by simp)
  · obtain ⟨scheme, schemeListed, rfl⟩ := List.mem_map.mp (mem_of_mem_ite member)
    exact laterPass_urlScheme (by simp [schemeListed])
  · obtain ⟨start, listed, rfl⟩ := List.mem_map.mp (mem_of_mem_ite member)
    exact laterPass_prefixedToken listed
  · obtain ⟨key, listed, keyMember⟩ := List.mem_flatMap.mp (mem_of_mem_ite member)
    obtain ⟨pattern, patternMember, rfl⟩ := List.mem_map.mp keyMember
    exact laterPass_afterPattern listed patternMember

theorem rule_redacts {config : RedactionConfig} {rule : Rule Char}
    (member : rule ∈ redactionRules config) : ∃ pattern, Redacts pattern rule := by
  rw [redactionRules_eq, List.mem_append] at member
  obtain first | later := member
  · rw [List.mem_singleton.mp (mem_of_mem_ite first)]
    exact ⟨_, authorization_redacts⟩
  · exact laterPass_redacts (laterPass_of_mem later)

end Memcore
