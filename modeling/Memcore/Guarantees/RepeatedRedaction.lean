import Memcore.Foundations.WaitingMarks
import Memcore.Guarantees.RedactionMarks

/-!
# Repeated redaction

Redaction is to change nothing when it is applied to what it has written. Where no pass
uncovers a mark behind a value it leaves out, everything that a pass has written stands
there at the end, and no pass finds anything else.
-/
namespace Memcore

open Texts Scanners

/-! ## Reading again -/

section Rereading

variable {rule other : Rule Char} {pattern otherPattern : List Char}
  {trims otherTrims : Char → Bool}

theorem secretPass_folded (secret : SecretPass rule pattern trims) (character : Char) :
    trims character.toLower = trims character := by
  cases secret with
  | url => rfl
  | token => rfl
  | key => exact precedesValue_lower character

/-- The last character of a pattern is not trimmed. -/
theorem secretPass_last (secret : SecretPass rule pattern trims) :
    ∃ character ∈ (lowered pattern).getLast?, trims character = false := by
  have nonempty := patterns_nonempty _ (secretPass_redacts secret).recognised
  obtain ⟨character, last⟩ : ∃ character, (lowered pattern).getLast? = some character :=
    ⟨_, List.getLast?_eq_some_getLast nonempty⟩
  refine ⟨character, last, ?_⟩
  cases secret with
  | url => rfl
  | token => rfl
  | key _ listed =>
    obtain ⟨lower, kept⟩ := keyPatterns_end pattern listed
    exact kept _ (by rwa [lower] at last)

theorem head_placeholder (rest : List Char) :
    ∀ character ∈ (redactedPlaceholder ++ rest).head?, character = '[' :=
  fun _ member => (Option.some.inj member).symm

theorem bracket_not_trims (secret : SecretPass rule pattern trims) : trims '[' = false := by
  by_contra trimmed
  rw [Bool.not_eq_false] at trimmed
  exact absurd (secretPass_trims secret _ trimmed) (by decide)

/-- A pass for URLs, tokens or keys finds what it has written. -/
theorem secretPass_rereads (secret : SecretPass rule pattern trims) :
    Rereads NarrowSpace Char.toLower redactedPlaceholder rule := by
  intro before start start' part value tail part' later edge narrow written width seen
  obtain ⟨taken, spelled, trimmed, split, split', same, spells, inside, _⟩ := edge_mark secret edge
  have spelledSame : lowered spelled = lowered pattern := by
    rw [spells]
    split_ifs
    · rfl
    · exact same
  obtain ⟨taken', spelled', trimmed', rest, mark⟩ := secretPass_mark secret seen
  have found : begins pattern part' = true := by
    apply begins_before_bracket (secretPass_redacts secret).recognised
    rw [begins_iff]
    refine ⟨lowered (trimmed' ++ rest), ?_⟩
    rw [← mark.found, ← lowered_append, ← mark.split]
    rfl
  obtain ⟨inner, partIs, restIs⟩ := split_found mark.found mark.split found
  rw [partIs] at split'
  have innerEnds : inner <:+ trimmed := by
    refine List.suffix_of_suffix_length_le (⟨start' ++ taken', by simp [← split']⟩ :
      inner <:+ spelled ++ trimmed) (List.suffix_append _ _) ?_
    have lengths := congrArg List.length split'
    have sameLength := congrArg List.length (mark.found.trans spelledSame.symm)
    rw [length_lowered, length_lowered] at sameLength
    simp only [List.length_append] at lengths
    omega
  have last := secretPass_last secret
  rw [← spelledSame] at last
  obtain ⟨_, takenIs, innerIs⟩ := same_place (secretPass_folded secret)
    (mark.found.trans spelledSame.symm) last
    (fun character member => inside character (innerEnds.mem member)) inside split'
  obtain ⟨trimmedIs, rfl⟩ := @value_unique Char (!trims ·) _ _ _ _ (by simpa using mark.inside)
    (by simpa using mark.ends narrow) (by simpa [innerIs] using inside)
    (fun character member => by
      rw [head_placeholder later character member, bracket_not_trims secret]
      rfl) restIs
  have sameSpelling : spelled' = spelled := by
    rw [mark.spells, spells]
    split_ifs with url
    · rfl
    · rw [takenIs, spells, if_neg url]
  refine ⟨later, ?_, edge.heads rule.stops (secretPass_fills secret).stopsFolded edge.stop⟩
  rw [mark.writes, sameSpelling, partIs, takenIs, trimmedIs]
  simp

/-- So does the pass for authorization headers. -/
theorem authorization_rereads :
    Rereads NarrowSpace Char.toLower redactedPlaceholder redactAuthorizationBearer := by
  intro before start start' part value tail part' later edge narrow written width seen
  obtain ⟨place, seenMark⟩ := edge.mark
  obtain ⟨taken, trimmed, scheme, spelled, after, header⟩ := authorization_header seenMark
  obtain ⟨taken', trimmed', scheme', spelled', rest, header'⟩ := authorization_header seen
  have split' : start' ++ part' = taken ++ (trimmed ++ spelled) := by
    have writes := header.writes
    rw [← List.append_assoc] at writes
    rw [List.append_cancel_right writes, List.append_assoc]
  have found : begins "authorization:".toList part' = true := by
    apply begins_before_bracket authorization_recognised
    rw [begins_iff]
    refine ⟨lowered (trimmed' ++ (scheme' ++ rest)), ?_⟩
    rw [show lowered "authorization:".toList = lowered taken' by rw [header'.found]; decide,
      ← lowered_append, ← header'.split]
    rfl
  obtain ⟨inner, partIs, restIs⟩ :=
    split_found (header'.found.trans (by decide)) header'.split found
  rw [partIs] at split'
  have spelledInside : ∀ character ∈ trimmed ++ spelled, notColon character = true := by
    intro character member
    obtain inSpace | inScheme := List.mem_append.mp member
    · exact notColon_space (header.inside character inSpace)
    · obtain ⟨rfl, _⟩ | ⟨rfl, _⟩ := header.spells
      · cases inScheme
      · exact notColon_scheme (by decide) character inScheme
  have innerEnds : inner <:+ trimmed ++ spelled := by
    refine List.suffix_of_suffix_length_le (⟨start' ++ taken', by simp [← split']⟩ :
      inner <:+ taken ++ (trimmed ++ spelled)) (List.suffix_append _ _) ?_
    have lengths := congrArg List.length split'
    have sameLength := congrArg List.length (header'.found.trans header.found.symm)
    rw [length_lowered, length_lowered] at sameLength
    simp only [List.length_append] at lengths ⊢
    omega
  obtain ⟨_, takenIs, innerIs⟩ := same_place notColon_lower
    (header'.found.trans header.found.symm) ⟨':', by rw [header.found]; decide, by decide⟩
    (fun character member => spelledInside character (innerEnds.mem member)) spelledInside split'
  rw [innerIs, List.append_assoc] at restIs
  have unspaced : ∀ character ∈ (spelled ++ (redactedPlaceholder ++ later)).head?,
      isWhitespace character = false := by
    obtain ⟨rfl, _⟩ | ⟨rfl, _⟩ := header.spells
    · exact fun character member => Option.some.inj member ▸ (by decide)
    · exact fun character member => Option.some.inj member ▸ (by decide)
  obtain ⟨trimmedIs, schemeIs⟩ := @value_unique Char (!isWhitespace ·) _ _ _ _
    (by simpa using header'.inside) (by simpa using header'.ends narrow)
    (by simpa using header.inside) (by simpa using unspaced) restIs
  have same : spelled' = spelled ∧ rest = redactedPlaceholder ++ later := by
    obtain ⟨spelledIs', rfl, none'⟩ | ⟨spelledIs', bearer'⟩ := header'.spells
    · rw [List.nil_append] at schemeIs
      obtain ⟨spelledIs, _⟩ | ⟨spelledIs, _⟩ := header.spells
      · rw [spelledIs', spelledIs]
        exact ⟨rfl, by rw [schemeIs, spelledIs, List.nil_append]⟩
      · rw [schemeIs, spelledIs] at none'
        exact absurd none' (by simp [begins, lowered])
    · obtain ⟨spelledIs, _⟩ | ⟨spelledIs, _⟩ := header.spells
      · cases scheme' with
        | nil => exact absurd bearer' (by decide)
        | cons first scheme' =>
          rw [spelledIs, List.nil_append] at schemeIs
          have isBracket : first = '[' := (List.cons.inj schemeIs).1
          have isLetter : first.toLower = 'b' := (List.cons.inj bearer').1
          rw [isBracket] at isLetter
          exact absurd isLetter (by decide)
      · rw [spelledIs', spelledIs]
        refine ⟨rfl, (List.append_inj schemeIs ?_).2⟩
        rw [← length_lowered, bearer', spelledIs]
        rfl
  refine ⟨later, ?_, edge.heads _ authorization_fills.stopsFolded edge.stop⟩
  rw [header'.writes, same.1, partIs, takenIs, innerIs, trimmedIs]
  simp

theorem secretPass_spares (secret : SecretPass rule pattern trims)
    (otherSecret : SecretPass other otherPattern otherTrims) :
    Spares NarrowSpace Char.toLower redactedPlaceholder rule other :=
  spares_of_overlap (secretPass_redacts secret) (secretPass_redacts otherSecret)
    (secretPass_fills secret) (secretPass_fills otherSecret) (secretPass_takesNoBracket secret)
    (secretPass_marksAgain otherSecret) (secretPass_endsTogether secret otherSecret)

theorem secretPass_sparesHeader (secret : SecretPass rule pattern trims) :
    Spares NarrowSpace Char.toLower redactedPlaceholder rule redactAuthorizationBearer :=
  spares_of_overlap (secretPass_redacts secret) authorization_redacts (secretPass_fills secret)
    authorization_fills (secretPass_takesNoBracket secret) authorization_marksAgain
    (secretPass_endsWithHeader secret)

theorem authorization_spares :
    Spares NarrowSpace Char.toLower redactedPlaceholder redactAuthorizationBearer
      redactAuthorizationBearer :=
  spares_of_overlap authorization_redacts authorization_redacts authorization_fills
    authorization_fills authorization_takesNoBracket authorization_marksAgain
    authorization_endsTogether

end Rereading

section Configurations

variable {config : RedactionConfig} {rule other : Rule Char}

/-- A pass of a configuration is the one for authorization headers or one of the others. -/
theorem rule_cases (member : rule ∈ redactionRules config) :
    rule = redactAuthorizationBearer ∨ ∃ pattern trims, SecretPass rule pattern trims ∧
      (config.redactApiKeys = false → pattern ∈ urlPatterns ++ tokenPatterns) := by
  rw [redactionRules_eq, List.mem_append] at member
  obtain first | later := member
  · exact .inl (List.mem_singleton.mp (mem_of_mem_ite first))
  · exact .inr (secretPass_of_mem later)

theorem rule_rereads (member : rule ∈ redactionRules config) :
    Spares NarrowSpace Char.toLower redactedPlaceholder rule rule ∧
      Rereads NarrowSpace Char.toLower redactedPlaceholder rule := by
  obtain rfl | ⟨pattern, trims, secret, _⟩ := rule_cases member
  · exact ⟨authorization_spares, authorization_rereads⟩
  · exact ⟨secretPass_spares secret secret, secretPass_rereads secret⟩

theorem later_spares {pattern : List Char} {trims : Char → Bool}
    (secret : SecretPass rule pattern trims) (member : other ∈ redactionRules config) :
    Spares NarrowSpace Char.toLower redactedPlaceholder rule other := by
  obtain rfl | ⟨_, _, otherSecret, _⟩ := rule_cases member
  · exact secretPass_sparesHeader secret
  · exact secretPass_spares secret otherSecret

/-- Every pass spares those before it. -/
theorem rules_ordered (config : RedactionConfig) :
    (redactionRules config).Pairwise fun other rule =>
      Spares NarrowSpace Char.toLower redactedPlaceholder rule other := by
  have whole := redactionRules_eq config
  have spares (rule : Rule Char) (later : rule ∈ laterRules config) (other : Rule Char)
      (member : other ∈ redactionRules config) :
      Spares NarrowSpace Char.toLower redactedPlaceholder rule other := by
    obtain ⟨pattern, trims, secret, _⟩ := secretPass_of_mem later
    exact later_spares secret member
  have inWhole {rule : Rule Char} (later : rule ∈ laterRules config) :
      rule ∈ redactionRules config := by
    rw [whole]
    exact List.mem_append_right _ later
  rw [whole, List.pairwise_append]
  refine ⟨?_, ?_, ?_⟩
  · cases config.redactBearerTokens with
    | false => exact .nil
    | true => exact List.pairwise_singleton _ _
  · exact List.pairwise_of_forall_mem_list fun other member rule later =>
      spares rule later other (inWhole member)
  · intro other first rule later
    refine spares rule later other ?_
    rw [whole]
    exact List.mem_append_left _ first

theorem pass_narrow (member : rule ∈ redactionRules config) (text out : List Char)
    (narrow : ∀ character ∈ text, NarrowSpace character) (passed : pass rule text = some out) :
    ∀ character ∈ out, NarrowSpace character := by
  obtain ⟨⟨_, last⟩, scanned, rfl⟩ := Option.map_eq_some_iff.mp passed
  exact scan_writes (marks_narrow member) narrow scanned

theorem passes_narrow {rules : List (Rule Char)} (listed : rules ⊆ redactionRules config)
    {text out : List Char} (narrow : ∀ character ∈ text, NarrowSpace character)
    (passed : passes rules text = some out) : ∀ character ∈ out, NarrowSpace character :=
  passes_write (fun _ member => marks_narrow (listed member)) narrow passed

/-! ## The passes before those for keys -/

/-- The passes before those for keys. -/
def firstRules (config : RedactionConfig) : List (Rule Char) :=
  redactionRules { config with redactApiKeys := false }

/-- The passes for keys. -/
def keyRules : List (Rule Char) :=
  secretKeyPatterns.map redactAfterPattern

theorem redactionRules_split (config : RedactionConfig) : redactionRules config =
    firstRules config ++ if config.redactApiKeys then keyRules else [] := by
  have keys : keyValueSecretKeys.flatMap redactKeyValue = keyRules := by
    rw [keyRules, secretKeyPatterns, List.map_flatMap]
    rfl
  rw [firstRules, redactionRules, redactionRules, keys]
  simp only [Bool.false_eq_true, if_false, List.append_nil]

theorem mem_of_first (member : rule ∈ firstRules config) : rule ∈ redactionRules config := by
  rw [redactionRules_split]
  exact List.mem_append_left _ member

theorem firstPatterns_begin : ∀ pattern ∈ "authorization:".toList :: (urlPatterns ++ tokenPatterns),
    ∀ character ∈ (lowered pattern).head?, endsValue character = false := by
  decide

theorem begins_stop {pattern text : List Char} (recognised : lowered pattern ∈ recognisedPatterns)
    (inside : ∀ character ∈ (lowered pattern).head?, endsValue character = false)
    (stop : ∀ character ∈ text.head?, endsValue character = true) :
    begins pattern text = false := by
  by_contra found
  rw [Bool.not_eq_false, begins_iff] at found
  cases shape : lowered pattern with
  | nil => exact patterns_nonempty _ recognised shape
  | cons first others =>
    rw [shape] at found inside
    cases text with
    | nil => nomatch List.prefix_nil.mp found
    | cons character rest =>
      have same : first = character.toLower := (List.cons_prefix_cons.mp found).1
      have ends := stop character rfl
      rw [← endsValue_lower, ← same, inside first rfl] at ends
      nomatch ends

theorem endsValue_of_stops {pattern : List Char} (redacts : Redacts pattern rule) {character : Char}
    (stop : rule.stops character = true) : endsValue character = true := by
  by_contra inside
  rw [stops_of_inside redacts (Bool.not_eq_true _ ▸ inside)] at stop
  nomatch stop

/-- Where a value ends, only a pass for a key may see a mark. -/
theorem firstRule_unseen (member : rule ∈ firstRules config) (before : Option Char)
    {text : List Char} (stop : ∀ character ∈ text.head?, endsValue character = true) :
    rule.sees before text = .nothing := by
  obtain rfl | ⟨pattern, trims, secret, listed⟩ := rule_cases member
  · exact authorization_redacts.unseen before text (begins_stop authorization_recognised
      (firstPatterns_begin _ List.mem_cons_self) stop)
  · have redacts := secretPass_redacts secret
    exact redacts.unseen before text (begins_stop redacts.recognised
      (firstPatterns_begin pattern (List.mem_cons_of_mem _ (listed rfl))) stop)

theorem rule_stops (member : rule ∈ redactionRules config) {text : List Char}
    (stop : ∀ character ∈ text.head?, rule.stops character = true) :
    ∀ character ∈ text.head?, endsValue character = true := by
  obtain ⟨pattern, redacts⟩ := rule_redacts member
  exact fun character within => endsValue_of_stops redacts (stop character within)

theorem placeholder_nonempty : redactedPlaceholder ≠ [] := by
  decide

/-- The text before the passes for keys is settled for the passes that have run. -/
theorem firstRules_settle {input middle : List Char}
    (narrow : ∀ character ∈ input, NarrowSpace character)
    (passed : passes (firstRules config) input = some middle) :
    ∀ rule ∈ firstRules config, Settled rule none middle := by
  have covered : NothingUncovered redactedPlaceholder [] (firstRules config) input :=
    by
      refine nothingUncovered_of_unseen ?_ input
      intro rule member other otherMember before text stop
      exact firstRule_unseen otherMember before (rule_stops (mem_of_first member) stop)
  exact run_settles placeholder_nonempty (fun rule => rule_fills) (rules_ordered _)
    (fun rule => rule_rereads) (fun rule => pass_narrow) narrow covered passed

theorem keyRules_listed (keys : config.redactApiKeys = true) :
    keyRules ⊆ redactionRules config := by
  rw [redactionRules_split, keys]
  exact List.subset_append_right _ _

theorem keyRule_cases (member : rule ∈ keyRules) :
    ∃ pattern ∈ secretKeyPatterns, rule = redactAfterPattern pattern := by
  obtain ⟨pattern, listed, rfl⟩ := List.mem_map.mp member
  exact ⟨pattern, listed, rfl⟩

/-- It stays so. -/
theorem keyRules_spare (keys : config.redactApiKeys = true) {middle out : List Char}
    (narrow : ∀ character ∈ middle, NarrowSpace character)
    (settled : ∀ rule ∈ firstRules config, Settled rule none middle)
    (passed : passes keyRules middle = some out) :
    ∀ rule ∈ firstRules config, Settled rule none out := by
  intro first member
  have listed := keyRules_listed keys
  refine passes_spare placeholder_nonempty (rule_fills member)
    (fun rule within => rule_fills (listed within)) (fun rule within => ?_)
    (fun rule within before text stop _ => ?_)
    (fun rule within => pass_narrow (listed within)) narrow (settled first member) passed
  · obtain ⟨pattern, patternListed, rfl⟩ := keyRule_cases within
    exact later_spares (.key pattern patternListed) member
  · exact stands_of_unseen (firstRule_unseen member _ (rule_stops (listed within) stop))

/-- The text is settled for the passes for keys if these have uncovered nothing. -/
theorem keyRules_settle (keys : config.redactApiKeys = true) {middle out : List Char}
    (narrow : ∀ character ∈ middle, NarrowSpace character)
    (covered : NothingUncovered redactedPlaceholder [] keyRules middle)
    (passed : passes keyRules middle = some out) : ∀ rule ∈ keyRules, Settled rule none out := by
  have listed := keyRules_listed keys
  have ordered := rules_ordered config
  rw [redactionRules_split, keys, if_pos rfl] at ordered
  exact run_settles placeholder_nonempty (fun rule within => rule_fills (listed within))
    (List.pairwise_append.mp ordered).2.1 (fun rule within => rule_rereads (listed within))
    (fun rule within => pass_narrow (listed within)) narrow covered passed

end Configurations

/-! ## The passes for keys -/

section Keys

variable {pattern key : List Char}

/-- What a pass for a key makes of a mark, when the whitespace of the text is of single bytes. -/
theorem key_sees {before : Option Char} {text : List Char}
    (narrow : ∀ character ∈ text, NarrowSpace character) (boundary : atBoundary before = true)
    (found : begins key text = true) :
    (redactAfterPattern key).sees before text =
      .mark (text.take key.length ++ (text.drop key.length).takeWhile precedesValue ++
          redactedPlaceholder)
        (key.length + ((text.drop key.length).takeWhile precedesValue).length) := by
  have narrowBehind : ∀ character ∈ text.drop key.length, NarrowSpace character :=
    fun character member => narrow character (List.mem_of_mem_drop member)
  have trimmedIs := @trimmedBefore_narrow precedesValue (fun _ => id) _ narrowBehind
  simp only [redactAfterPattern, found, boundary, Bool.and_self, if_true, trimmedIs]

/-- What stands behind a key and what is trimmed there. -/
def behindKey (key text : List Char) : List Char :=
  (text.drop key.length).dropWhile precedesValue

theorem key_parts (key text : List Char) :
    text = text.take key.length ++ ((text.drop key.length).takeWhile precedesValue ++
      behindKey key text) := by
  rw [behindKey, List.takeWhile_append_dropWhile, List.take_append_drop]

/-- What a pass for a key would write stands where the placeholder is the value behind it. -/
theorem key_stands_iff {before : Option Char} {text : List Char}
    (narrow : ∀ character ∈ text, NarrowSpace character) (boundary : atBoundary before = true) :
    Stands (redactAfterPattern key) before text ↔
      (begins key text = true → Filled redactedPlaceholder endsValue (behindKey key text)) := by
  constructor
  · intro stands found
    obtain ⟨after, split, stop⟩ := stands _ _ (key_sees narrow boundary found)
    refine ⟨after, ?_, stop⟩
    rw [List.append_assoc, List.append_assoc] at split
    exact List.append_cancel_left (List.append_cancel_left ((key_parts key text).symm.trans split))
  · intro filled written width seen
    have found : begins key text = true := by
      by_contra absent
      simp [redactAfterPattern, absent] at seen
    rw [key_sees narrow boundary found] at seen
    obtain ⟨rfl, rfl⟩ := Sight.mark.inj seen
    obtain ⟨after, split, stop⟩ := filled found
    refine ⟨after, ?_, stop⟩
    rw [List.append_assoc, List.append_assoc, ← split]
    exact key_parts key text

/-- A text begins with a key behind a letter, a digit or an underscore, where a pass does not look
for it, and the value behind the key is not the placeholder. -/
structure KeyOverlooked (key : List Char) (before : Option Char) (text : List Char) : Prop where
  inWord : atBoundary before = false
  found : begins key text = true
  given : ¬ Filled redactedPlaceholder endsValue (behindKey key text)

/-- Where no key is overlooked its pass uncovers nothing. -/
theorem key_covered {before : Option Char} {text : List Char}
    (narrow : ∀ character ∈ text, NarrowSpace character) (clear : ¬ KeyOverlooked key before text)
    (unseen : (redactAfterPattern key).sees before text = .nothing) :
    Stands (redactAfterPattern key) (previous none redactedPlaceholder) text := by
  rw [key_stands_iff narrow atBoundary_placeholder]
  intro found
  by_contra unfilled
  refine clear ⟨?_, found, unfilled⟩
  by_contra boundary
  rw [key_sees narrow (Bool.not_eq_false _ ▸ boundary) found] at unseen
  nomatch unseen

/-- An overlooked key waits behind a placeholder. -/
theorem key_uncovered {before : Option Char} {text : List Char}
    (narrow : ∀ character ∈ text, NarrowSpace character)
    (overlooked : KeyOverlooked key before text) :
    ¬ Stands (redactAfterPattern key) (some ']') text := by
  rw [key_stands_iff narrow (by decide)]
  exact fun filled => overlooked.given (filled overlooked.found)

theorem key_unseen {before : Option Char} {text : List Char}
    (overlooked : KeyOverlooked key before text) :
    (redactAfterPattern key).sees before text = .nothing := by
  simp [redactAfterPattern, overlooked.inWord]

/-- A pattern for a key ends with a separator, and in quotation marks it holds no other. -/
theorem keyPatterns_separated : ∀ key ∈ secretKeyPatterns,
    (∃ last ∈ key.getLast?, last = ':' ∨ last = '=') ∧
    ((∀ first ∈ key.head?, endsValue first = true) → ':' ∉ key.dropLast ∧ '=' ∉ key.dropLast) := by
  decide

theorem quotedKeys_apart : ∀ key ∈ secretKeyPatterns, (∀ first ∈ key.head?, endsValue first = true) →
    ∀ pattern ∈ secretKeyPatterns, pattern <:+ key → pattern = key := by
  decide +kernel

/-- Keys that begin where a value ends hold no other key. -/
theorem keys_not_inside (keyListed : key ∈ secretKeyPatterns)
    (quoted : ∀ first ∈ key.head?, endsValue first = true) (listed : pattern ∈ secretKeyPatterns)
    (within : pattern <:+: key) : pattern = key := by
  obtain ⟨front, rest, rfl⟩ := within
  refine quotedKeys_apart _ keyListed quoted pattern listed ?_
  cases rest with
  | nil => exact ⟨front, by simp⟩
  | cons other rest =>
    obtain ⟨⟨last, isLast, separator⟩, _⟩ := keyPatterns_separated pattern listed
    obtain ⟨noColon, noEquals⟩ := (keyPatterns_separated _ keyListed).2 quoted
    have inside : last ∈ (front ++ pattern ++ other :: rest).dropLast := by
      rw [List.dropLast_append_of_ne_nil (List.cons_ne_nil other rest)]
      exact List.mem_append_left _ (List.mem_append_right _ (List.mem_of_getLast? isLast))
    obtain rfl | rfl := separator
    · exact absurd inside noColon
    · exact absurd inside noEquals

theorem keyPatterns_last (listed : pattern ∈ secretKeyPatterns) :
    ∃ character ∈ pattern.getLast?, character ∉ lowered redactedPlaceholder := by
  obtain ⟨⟨last, isLast, separator⟩, _⟩ := keyPatterns_separated pattern listed
  refine ⟨last, isLast, ?_⟩
  obtain rfl | rfl := separator <;> decide

theorem key_keepsTaken (listed : pattern ∈ secretKeyPatterns) :
    KeepsTaken redactedPlaceholder (redactAfterPattern pattern) := by
  intro before text written width seen
  obtain ⟨taken, spelled, trimmed, rest, mark⟩ := secretPass_mark (.key pattern listed) seen
  have spelledIs : spelled = taken := by
    rw [mark.spells, if_neg (patterns_not_urls _ (List.mem_append_right _ listed))]
  have takenIs : text.take width = taken ++ trimmed := by
    rw [mark.split, mark.takes, ← List.append_assoc, List.take_left]
  rw [takenIs, mark.writes, spelledIs]
  refine ⟨rfl, ?_⟩
  cases trimmedLast : trimmed.getLast? with
  | some last =>
    have inside := mark.inside last (List.mem_of_getLast? trimmedLast)
    refine ⟨last, by rw [List.getLast?_append, trimmedLast]; rfl, fun member => ?_⟩
    have apart : ∀ character ∈ redactedPlaceholder, precedesValue character = false := by decide
    rw [apart last member] at inside
    nomatch inside
  | none =>
    obtain rfl := List.getLast?_eq_none_iff.mp trimmedLast
    obtain ⟨last, isLast, outside⟩ := keyPatterns_last listed
    have lower := mark.found.trans (keyPatterns_end pattern listed).1
    rw [← lower, lowered, List.getLast?_map] at isLast
    obtain ⟨character, ofTaken, rfl⟩ := Option.map_eq_some_iff.mp isLast
    rw [List.append_nil]
    exact ⟨character, ofTaken, fun member => outside (List.mem_map_of_mem member)⟩

/-- A key that is found where a value ends begins with a quotation mark. -/
theorem quoted_of_found (listed : key ∈ secretKeyPatterns) {text : List Char}
    (stop : ∀ character ∈ text.head?, endsValue character = true)
    (found : begins key text = true) : ∀ first ∈ key.head?, endsValue first = true := by
  intro first member
  rw [begins_iff, (keyPatterns_end key listed).1] at found
  cases key with
  | nil => cases member
  | cons other rest =>
    obtain rfl : other = first := Option.some.inj member
    cases text with
    | nil => cases List.prefix_nil.mp found
    | cons character text =>
      have same : other = character.toLower := (List.cons_prefix_cons.mp found).1
      rw [same, endsValue_lower]
      exact stop character rfl

theorem behindKey_eq {taken trimmed rest : List Char} (long : taken.length = key.length)
    (inside : ∀ character ∈ trimmed, precedesValue character = true)
    (ends : ∀ character ∈ rest.head?, precedesValue character = false) :
    behindKey key (taken ++ (trimmed ++ rest)) = rest := by
  rw [behindKey, ← long, List.drop_left, List.dropWhile_append_of_pos inside]
  cases rest with
  | nil => rfl
  | cons first rest => simp [ends first rfl]

/-- No mark of another pass for keys ends in a mark that begins where a value ends. -/
theorem key_not_within (listed : pattern ∈ secretKeyPatterns) (keyListed : key ∈ secretKeyPatterns)
    (quoted : ∀ first ∈ key.head?, endsValue first = true)
    {front taken more start trimmed : List Char} (same : lowered taken = lowered pattern)
    (found : lowered start = key)
    (inside : ∀ character ∈ trimmed, precedesValue character = true)
    (apart : pattern ≠ key ∨ front ≠ []) (split : front ++ (taken ++ more) = start ++ trimmed) :
    False := by
  obtain ⟨lower, last⟩ := keyPatterns_end pattern listed
  obtain ⟨rest, startIs⟩ : ∃ rest, start = front ++ (taken ++ rest) := by
    rw [← List.append_assoc] at split
    obtain ⟨rest, rfl, _⟩ | ⟨beyond, takenIs, trimmedIs⟩ := List.append_eq_append_iff.mp split
    · exact ⟨rest, List.append_assoc ..⟩
    · cases ending : beyond.getLast? with
      | none =>
        obtain rfl := List.getLast?_eq_none_iff.mp ending
        exact ⟨[], by simpa using takenIs.symm⟩
      | some character =>
        obtain ⟨final, isFinal, _⟩ := keyPatterns_last listed
        rw [← lower, ← same, lowered, List.getLast?_map] at isFinal
        obtain ⟨other, ofTaken, rfl⟩ := Option.map_eq_some_iff.mp isFinal
        have ends := congrArg List.getLast? takenIs
        rw [List.getLast?_append, List.getLast?_append, ofTaken, ending] at ends
        obtain rfl : other = character := Option.some.inj ends
        have precedes := inside other (by
          rw [trimmedIs]
          exact List.mem_append_left _ (List.mem_of_getLast? ending))
        have kept := last other.toLower (by
          rw [← lower, ← same, lowered, List.getLast?_map, ofTaken]
          rfl)
        rw [precedesValue_lower, precedes] at kept
        cases kept
  have within : lowered front ++ pattern ++ lowered rest = key := by
    rw [← found, startIs, lowered_append, lowered_append, same, lower, List.append_assoc]
  have samePattern := keys_not_inside keyListed quoted listed ⟨_, _, within⟩
  obtain different | nonempty := apart
  · exact different samePattern
  · have lengths := congrArg List.length within
    rw [samePattern, List.length_append, List.length_append, length_lowered] at lengths
    exact nonempty (List.length_eq_zero_iff.mp (by omega))

/-- A pass for a key leaves the marks of other keys where values end. -/
theorem key_leaves (listed : pattern ∈ secretKeyPatterns) (keyListed : key ∈ secretKeyPatterns)
    {Behind : Option Char → List Char → Prop} {before : Option Char} {text out : List Char}
    (narrow : ∀ character ∈ text, NarrowSpace character)
    (narrowOut : ∀ character ∈ out, NarrowSpace character)
    (stop : ∀ character ∈ text.head?, endsValue character = true)
    (rewritten : Rewritten redactedPlaceholder (redactAfterPattern pattern) Behind before text out)
    (apart : pattern ≠ key ∨ (redactAfterPattern pattern).sees before text = .nothing)
    (stands : Stands (redactAfterPattern key) (some ']') out) :
    Stands (redactAfterPattern key) (some ']') text := by
  have boundary : atBoundary (some ']') = true := by decide
  have secret : SecretPass (redactAfterPattern pattern) pattern precedesValue := .key pattern listed
  have fills := secretPass_fills secret
  rw [key_stands_iff narrowOut boundary] at stands
  rw [key_stands_iff narrow boundary]
  intro found
  have first : out = text ∨ ∃ front part value tail part' later,
      text = front ++ (part ++ (value ++ tail)) ∧
      out = front ++ (part' ++ (redactedPlaceholder ++ later)) ∧
      Edge Char.toLower redactedPlaceholder (redactAfterPattern pattern) [] [] front part value tail
        part' later ∧ (pattern ≠ key ∨ front ≠ []) := by
    obtain different | unseen := apart
    · obtain same | ⟨front, part, value, tail, part', later, textIs, outIs, edge⟩ :=
        edge_of_rewritten fills rewritten
      · exact .inl same
      · exact .inr ⟨front, part, value, tail, part', later, textIs, outIs, edge, .inl different⟩
    · obtain same | ⟨front, part, value, tail, part', later, textIs, outIs, edge, further⟩ :=
        edge_of_unseen fills unseen rewritten
      · exact .inl same
      · exact .inr ⟨front, part, value, tail, part', later, textIs, outIs, edge, .inr further⟩
  obtain rfl | ⟨front, part, value, tail, part', later, textIs, outIs, edge, further⟩ := first
  · exact stands found
  · obtain ⟨place, seen⟩ := edge.mark
    rw [List.nil_append, List.nil_append, List.nil_append] at seen
    obtain ⟨partIs, outside⟩ := kept_taken (key_keepsTaken listed) seen
    obtain ⟨taken, _, trimmed, split, _, same, _⟩ := edge_mark secret edge
    rw [List.nil_append] at split
    have keyTaken : lowered (text.take key.length) = key :=
      (lowered_take_of_begins found).trans (keyPatterns_end key keyListed).1
    have spaces : ∀ character ∈ (text.drop key.length).takeWhile precedesValue,
        precedesValue character = true := fun character member => List.mem_takeWhile_imp member
    have apartHere (more : List Char) (within : front ++ (part ++ more) =
        text.take key.length ++ (text.drop key.length).takeWhile precedesValue) : False := by
      rw [split, List.append_assoc] at within
      exact key_not_within listed keyListed (quoted_of_found keyListed stop found) same keyTaken
        spaces further within
    have whole : front ++ part ++ (value ++ tail) = text.take key.length ++
        (text.drop key.length).takeWhile precedesValue ++ behindKey key text := by
      rw [List.append_assoc, List.append_assoc, ← key_parts, textIs]
    -- what the mark keeps reaches into the value of the key
    obtain ⟨reach, keptIs, behindIs⟩ : ∃ reach, front ++ part = text.take key.length ++
        (text.drop key.length).takeWhile precedesValue ++ reach ∧
        behindKey key text = reach ++ (value ++ tail) := by
      obtain ⟨more, within, _⟩ | cut := List.append_eq_append_iff.mp whole
      · rw [List.append_assoc] at within
        exact (apartHere more within.symm).elim
      · exact cut
    have nonempty : reach ≠ [] := by
      rintro rfl
      rw [List.append_nil] at keptIs
      exact apartHere [] (by rw [List.append_nil, keptIs])
    have outsideReach : EndsOutside redactedPlaceholder reach := by
      have ends := endsOutside_append outside front
      rw [keptIs] at ends
      exact endsOutside_right ends nonempty
    have outShape : out = text.take key.length ++
        ((text.drop key.length).takeWhile precedesValue ++
          (reach ++ (redactedPlaceholder ++ later))) := by
      rw [outIs, partIs, ← List.append_assoc, keptIs]
      simp
    have foundOut : begins key out = true := by
      rw [begins_iff, outShape, lowered_append, keyTaken, (keyPatterns_end key keyListed).1]
      exact List.prefix_append _ _
    have reachStarts : ∀ character ∈ (reach ++ (redactedPlaceholder ++ later)).head?,
        precedesValue character = false := by
      intro character member
      have ends := List.head?_dropWhile_not precedesValue (text.drop key.length)
      rw [show (text.drop key.length).dropWhile precedesValue = _ from behindIs] at ends
      rw [List.head?_append_of_ne_nil _ nonempty] at member ends
      rw [Option.mem_def.mp member] at ends
      simpa using ends
    have filled := stands foundOut
    rw [outShape, behindKey_eq (List.length_take_of_le (length_le_of_begins found)) spaces
      reachStarts] at filled
    rw [behindIs]
    exact filled_append outsideReach filled _

end Keys

/-- Behind no value that a pass for a key leaves out is a key overlooked whose pass has run or is
this one. -/
def OverlooksNoKey (config : RedactionConfig) (input : List Char) : Prop :=
  config.redactApiKeys = true → ∀ earlier pattern later text,
    secretKeyPatterns = earlier ++ pattern :: later →
    passes (firstRules config ++ earlier.map redactAfterPattern) input = some text →
    ∀ place ∈ behindValues (redactAfterPattern pattern) .copying none text,
      ∀ key ∈ earlier ++ [pattern], ¬ KeyOverlooked key place.1 place.2

section Runs

variable {config : RedactionConfig} {input : List Char}

theorem passes_run (narrow : ∀ character ∈ input, NarrowSpace character) :
    ∃ out, passes (redactionRules config) input = some out := by
  cases passed : passes (redactionRules config) input with
  | some out => exact ⟨out, rfl⟩
  | none =>
    exact absurd (uncut_of_narrowSpace config narrow) ((passes_eq_none_iff_cut _ _).mp passed)

theorem passes_next {rules : List (Rule Char)} {text out : List Char} {pattern : List Char}
    (passed : passes rules input = some text)
    (passedNext : pass (redactAfterPattern pattern) text = some out) :
    passes (rules ++ [redactAfterPattern pattern]) input = some out := by
  rw [passes_append, passed, Option.bind_some, passes, passedNext]
  rfl

theorem run_listed (keys : config.redactApiKeys = true) {earlier : List (List Char)}
    (listed : earlier ⊆ secretKeyPatterns) :
    firstRules config ++ earlier.map redactAfterPattern ⊆ redactionRules config := by
  rw [redactionRules_split, keys]
  exact List.append_subset.mpr ⟨List.subset_append_left _ _,
    List.Subset.trans (List.map_subset _ listed) (List.subset_append_right _ _)⟩

/-- Where no key is overlooked, the passes for keys uncover nothing. -/
theorem keyRules_cover (keys : config.redactApiKeys = true)
    (narrow : ∀ character ∈ input, NarrowSpace character) (clear : OverlooksNoKey config input)
    {earlier later : List (List Char)} (split : secretKeyPatterns = earlier ++ later)
    {text : List Char}
    (passed : passes (firstRules config ++ earlier.map redactAfterPattern) input = some text)
    {applied : List (Rule Char)}
    (listed : ∀ rule ∈ applied, ∃ key ∈ earlier, rule = redactAfterPattern key) :
    NothingUncovered redactedPlaceholder applied (later.map redactAfterPattern) text := by
  induction later generalizing earlier text applied with
  | nil => trivial
  | cons pattern later inductionHypothesis =>
    have listed' : ∀ rule ∈ redactAfterPattern pattern :: applied,
        ∃ key ∈ earlier ++ [pattern], rule = redactAfterPattern key := by
      intro rule member
      obtain rfl | member := List.mem_cons.mp member
      · exact ⟨pattern, by simp, rfl⟩
      · obtain ⟨key, keyListed, rfl⟩ := listed rule member
        exact ⟨key, List.mem_append_left _ keyListed, rfl⟩
    have inPatterns : earlier ⊆ secretKeyPatterns := split ▸ List.subset_append_left _ _
    have narrowText := passes_narrow (run_listed keys inPatterns) narrow passed
    refine ⟨fun place placeListed rule member unseen => ?_, fun out passedHere => ?_⟩
    · obtain ⟨key, keyListed, rfl⟩ := listed' rule member
      have suffix := (behindValues_place placeListed).1
      exact key_covered (fun character within => narrowText character (suffix.mem within))
        (clear keys earlier pattern later text split passed place placeListed key keyListed) unseen
    · refine inductionHypothesis (by rw [split]; simp) ?_ listed'
      rw [List.map_append, ← List.append_assoc]
      exact passes_next passed passedHere

/-- A key that waits is left waiting by the passes for other keys. -/
theorem key_waits (keys : config.redactApiKeys = true) {key : List Char}
    (keyListed : key ∈ secretKeyPatterns) {later : List (List Char)}
    (listed : later ⊆ secretKeyPatterns) (absent : key ∉ later) {text out : List Char}
    (narrow : ∀ character ∈ text, NarrowSpace character)
    (waits : Waits ']' endsValue (redactAfterPattern key) text)
    (passed : passes (later.map redactAfterPattern) text = some out) :
    Waits ']' endsValue (redactAfterPattern key) out := by
  induction later generalizing text with
  | nil =>
    obtain rfl : text = out := Option.some.inj passed
    exact waits
  | cons pattern later inductionHypothesis =>
    obtain ⟨middle, passedFirst, passedRest⟩ := Option.bind_eq_some_iff.mp passed
    obtain ⟨patternListed, listedRest⟩ := List.cons_subset.mp listed
    obtain ⟨different, absentRest⟩ := not_or.mp (mt List.mem_cons.mpr absent)
    have member : redactAfterPattern pattern ∈ redactionRules config :=
      keyRules_listed keys (List.mem_map_of_mem patternListed)
    have secret : SecretPass (redactAfterPattern pattern) pattern precedesValue :=
      .key pattern patternListed
    have narrowMiddle := pass_narrow member text middle narrow passedFirst
    have waitsMiddle : Waits ']' endsValue (redactAfterPattern key) middle := by
      refine waits_of_pass (secretPass_fills secret)
        (show redactedPlaceholder = "[REDACTED".toList ++ [']'] from rfl)
        (fun before text written width seen =>
          ((secretPass_redacts secret).marks before text written width seen).2.2)
        (fun rest rest' suffix suffix' stop rewritten stands => ?_) passedFirst waits
      exact key_leaves patternListed keyListed
        (fun character within => narrow character (suffix.mem within))
        (fun character within => narrowMiddle character (suffix'.mem within)) stop rewritten
        (.inl (Ne.symm different)) stands
    exact inductionHypothesis listedRest absentRest narrowMiddle waitsMiddle passedRest

/-- What redaction writes is settled for all passes where no key is overlooked. -/
theorem rules_settle (narrow : ∀ character ∈ input, NarrowSpace character)
    (clear : OverlooksNoKey config input) {out : List Char}
    (passed : passes (redactionRules config) input = some out) :
    ∀ rule ∈ redactionRules config, Settled rule none out := by
  have split := redactionRules_split config
  rw [split, passes_append] at passed
  obtain ⟨middle, passedFirst, passedKeys⟩ := Option.bind_eq_some_iff.mp passed
  have settledFirst := firstRules_settle narrow passedFirst
  cases keys : config.redactApiKeys with
  | false =>
    rw [keys] at passedKeys split
    obtain rfl : middle = out := Option.some.inj passedKeys
    rwa [split, if_neg Bool.false_ne_true, List.append_nil]
  | true =>
    rw [keys, if_pos rfl] at passedKeys split
    have narrowMiddle := passes_narrow (fun rule => mem_of_first) narrow passedFirst
    have covered : NothingUncovered redactedPlaceholder [] keyRules middle :=
      keyRules_cover keys narrow clear (List.nil_append _).symm
        (by rw [List.map_nil, List.append_nil]; exact passedFirst) nofun
    intro rule member
    rw [split, List.mem_append] at member
    obtain first | key := member
    · exact keyRules_spare keys narrowMiddle settledFirst passedKeys rule first
    · exact keyRules_settle keys narrowMiddle covered passedKeys rule key

/-- Each pass for a key leaves a text as it is that redaction has written and leaves as it is. -/
theorem keyRules_fixed (keys : config.redactApiKeys = true)
    (narrow : ∀ character ∈ input, NarrowSpace character) {out : List Char}
    (passed : passes (redactionRules config) input = some out)
    (again : passes (redactionRules config) out = some out) :
    ∀ rule ∈ keyRules, pass rule out = some out := by
  have split := redactionRules_split config
  rw [keys, if_pos rfl] at split
  rw [split, passes_append] at passed again
  obtain ⟨middle, passedFirst, passedKeys⟩ := Option.bind_eq_some_iff.mp passed
  obtain ⟨middle', passedFirst', passedKeys'⟩ := Option.bind_eq_some_iff.mp again
  have narrowMiddle := passes_narrow (fun rule => mem_of_first) narrow passedFirst
  have settled := keyRules_spare keys narrowMiddle (firstRules_settle narrow passedFirst) passedKeys
  have same := passes_settled (fun rule member => rule_fills member) settled passedFirst'
  rw [same] at passedKeys'
  have listed := keyRules_listed keys
  have keeps : ∀ rule ∈ keyRules, KeepsTaken redactedPlaceholder rule := by
    intro rule member
    obtain ⟨pattern, patternListed, rfl⟩ := keyRule_cases member
    exact key_keepsTaken patternListed
  have stops : ∀ rule ∈ keyRules, rule.stops = endsValue := by
    intro rule member
    obtain ⟨pattern, _, rfl⟩ := keyRule_cases member
    rfl
  exact passes_fixed (fun rule member => rule_fills (listed member)) keeps stops passedKeys'

theorem keyPatterns_nodup : secretKeyPatterns.Nodup := by
  decide

/-- An overlooked key waits in what redaction writes. -/
theorem overlooked_waits (keys : config.redactApiKeys = true)
    (narrow : ∀ character ∈ input, NarrowSpace character)
    {earlier later : List (List Char)} {pattern : List Char} {text : List Char}
    (split : secretKeyPatterns = earlier ++ pattern :: later)
    (reached : passes (firstRules config ++ earlier.map redactAfterPattern) input = some text)
    {place : Option Char × List Char}
    (listed : place ∈ behindValues (redactAfterPattern pattern) .copying none text)
    {key : List Char} (keyApplied : key ∈ earlier ++ [pattern])
    (overlooked : KeyOverlooked key place.1 place.2) {out : List Char}
    (passed : passes (redactionRules config) input = some out) :
    Waits ']' endsValue (redactAfterPattern key) out := by
  have whole : redactionRules config =
      firstRules config ++ earlier.map redactAfterPattern ++
        (redactAfterPattern pattern :: later.map redactAfterPattern) := by
    rw [redactionRules_split, keys, if_pos rfl, keyRules, split]
    simp
  rw [whole, passes_append, reached, Option.bind_some] at passed
  obtain ⟨middle, passedHere, passedLater⟩ := Option.bind_eq_some_iff.mp passed
  have patternListed : pattern ∈ secretKeyPatterns := by rw [split]; simp
  have keyListed : key ∈ secretKeyPatterns := by
    rw [split]
    obtain before | here := List.mem_append.mp keyApplied
    · exact List.mem_append_left _ before
    · rw [List.mem_singleton.mp here]
      simp
  have absent : key ∉ later := by
    have once := keyPatterns_nodup
    rw [split, show earlier ++ pattern :: later = earlier ++ [pattern] ++ later by simp] at once
    exact fun member => (List.nodup_append.mp once).2.2 key keyApplied key member rfl
  have inEarlier : earlier ⊆ secretKeyPatterns := split ▸ List.subset_append_left _ _
  have inLater : later ⊆ secretKeyPatterns := by
    rw [split]
    exact List.Subset.trans (List.subset_cons_self _ _) (List.subset_append_right _ _)
  have narrowText := passes_narrow (run_listed keys inEarlier) narrow reached
  have member : redactAfterPattern pattern ∈ redactionRules config :=
    keyRules_listed keys (List.mem_map_of_mem patternListed)
  have narrowMiddle := pass_narrow member text middle narrowText passedHere
  obtain ⟨suffix, stop⟩ := behindValues_place listed
  have narrowPlace : ∀ character ∈ place.2, NarrowSpace character :=
    fun character within => narrowText character (suffix.mem within)
  have waits : Waits ']' endsValue (redactAfterPattern key) middle := by
    refine waits_of_uncovered (rule_fills member)
      (show redactedPlaceholder = "[REDACTED".toList ++ [']'] from rfl) listed
      (fun rest' suffix' rewritten stands => ?_) passedHere (key_uncovered narrowPlace overlooked)
    refine key_leaves patternListed keyListed narrowPlace
      (fun character within => narrowMiddle character (suffix'.mem within)) stop rewritten ?_ stands
    by_cases different : pattern = key
    · right
      rw [different]
      exact key_unseen overlooked
    · exact .inl different
  exact key_waits keys keyListed inLater absent narrowMiddle waits passedLater

/-- Redaction changes nothing when it is applied again exactly where no key is overlooked. -/
theorem rules_idempotent_iff (narrow : ∀ character ∈ input, NarrowSpace character) :
    (∃ out, passes (redactionRules config) input = some out ∧
      passes (redactionRules config) out = some out) ↔ OverlooksNoKey config input := by
  constructor
  · rintro ⟨out, passed, again⟩ keys earlier pattern later text split reached place listed key
      keyApplied overlooked
    have waits := overlooked_waits keys narrow split reached listed keyApplied overlooked passed
    have keyListed : key ∈ secretKeyPatterns := by
      rw [split]
      exact List.mem_append.mpr ((List.mem_append.mp keyApplied).imp_right fun here => by
        rw [List.mem_singleton.mp here]
        exact List.mem_cons_self)
    have secret : SecretPass (redactAfterPattern key) key precedesValue := .key key keyListed
    have fixed := keyRules_fixed keys narrow passed again _ (List.mem_map_of_mem keyListed)
    exact not_waits_of_fixed (secretPass_fills secret)
      (show redactedPlaceholder = "[REDACTED".toList ++ [']'] from rfl)
      (fun before text written width seen =>
        ((secretPass_redacts secret).marks before text written width seen).2.2) fixed waits
  · intro clear
    obtain ⟨out, passed⟩ := @passes_run config input narrow
    have narrowOut := passes_narrow (fun _ => id) narrow passed
    obtain ⟨again, passedAgain⟩ := @passes_run config out narrowOut
    have settled := rules_settle narrow clear passed
    have same := passes_settled (fun rule => rule_fills) settled passedAgain
    exact ⟨out, passed, by rw [passedAgain, same]⟩

end Runs

theorem narrowSpace_ascii {character : Char} (ascii : character.toNat < 128) :
    NarrowSpace character := by
  intro _
  rw [Char.utf8Size_eq_one_iff, UInt32.le_iff_toNat_le]
  exact Nat.le_of_lt_succ ascii

/-- On ASCII strings redaction without e-mail addresses is idempotent exactly where no pass for a
key leaves out a value that ends inside a word right before a key in quotation marks whose pass
has run, with something else than the placeholder behind it. -/
theorem redaction_idempotent_iff (config : RedactionConfig) (input : List Char)
    (ascii : ∀ character ∈ input, character.toNat < 128) (noEmails : config.redactEmails = false) :
    (∃ out, redactStrWithConfig config input = some out ∧
      redactStrWithConfig config out = some out) ↔ OverlooksNoKey config input := by
  have plain (text : List Char) : redactStrWithConfig config text =
      passes (redactionRules config) text := by
    simp [redactStrWithConfig, noEmails]
  simp only [plain]
  exact rules_idempotent_iff fun character member => narrowSpace_ascii (ascii character member)

theorem redaction_idempotent_iff_sample :
    OverlooksNoKey defaultRedactionConfig "password=abc".toList :=
  (redaction_idempotent_iff defaultRedactionConfig "password=abc".toList (by decide) rfl).mp
    ⟨"password=[REDACTED]".toList, by decide +kernel, by decide +kernel⟩

/-- The value of a key in quotation marks is given out behind another value, and found when the
text is redacted again. -/
theorem redaction_not_idempotent :
    ¬ ∀ config input, (∀ character ∈ input, character.toNat < 128) → config.redactEmails = false →
      ∃ out, redactStrWithConfig config input = some out ∧
        redactStrWithConfig config out = some out := by
  intro claimed
  obtain ⟨out, redacted, again⟩ :=
    claimed defaultRedactionConfig "password=abc\"api_key\":xyz".toList (by decide) rfl
  have first : redactStrWithConfig defaultRedactionConfig "password=abc\"api_key\":xyz".toList =
      some "password=[REDACTED]\"api_key\":xyz".toList := by decide +kernel
  have second : redactStrWithConfig defaultRedactionConfig
      "password=[REDACTED]\"api_key\":xyz".toList =
      some "password=[REDACTED]\"api_key\":[REDACTED]".toList := by decide +kernel
  obtain rfl := Option.some.inj (first.symm.trans redacted)
  rw [second] at again
  exact absurd (Option.some.inj again) (by decide)

end Memcore
