import Memcore.Redaction.Passes

/-!
# What redaction reveals of a secret

A secret stands behind a marker in a message. The redactor reveals nothing of it exactly
when one of its passes is inside a value where the marker ends: otherwise every pass
copies the secret as it stands. Marks that touch the secret always open a value. Behind
an authorization header only the bearer scheme does, since of any other value the first
word is taken for all of it. A marker that ends with a space opens one unless it is
itself taken for the value of an earlier marker.
-/
namespace Memcore

open Texts Scanners

/-- Printable ASCII characters that end no value. -/
def isSecretChar (character : Char) : Bool :=
  0x21 ≤ character.toNat && character.toNat ≤ 0x7E && character != '"' && character != '\'' &&
    character != ',' && character != '}'

/-- A secret: not empty, and without any of the words the redactor looks for. -/
structure Secret where
  text : List Char
  nonempty : text ≠ []
  printable : ∀ character ∈ text, isSecretChar character = true
  unmarked : ∀ word ∈ markerWords, ¬ word <:+: lowered text

/-- What announces a secret. -/
inductive Marker
  | authorization (scheme : List Char) (nonempty : scheme ≠ [])
      (word : ∀ character ∈ scheme, isWordChar character = true)
  | bearer
  | keyEquals (key : String) (listed : key ∈ keyValueSecretKeys)
  | keyColon (key : String) (listed : key ∈ keyValueSecretKeys)
  | tokenStart (start : String) (listed : start ∈ providerKeyPrefixes)
  | urlScheme (scheme : String) (listed : scheme ∈ databaseUrlSchemes ++ redisUrlSchemes)

def Marker.text : Marker → List Char
  | .authorization scheme _ _ => "Authorization: ".toList ++ scheme ++ [' ']
  | .bearer => "Bearer ".toList
  | .keyEquals key _ => key.toList ++ ['=']
  | .keyColon key _ => key.toList ++ [':', ' ']
  | .tokenStart start _ => start.toList
  | .urlScheme scheme _ => scheme.toList

/-- Where a secret stands: behind a marker, in upper or lower case, that begins the message or
follows a character that is no part of a word. Behind the secret comes whitespace or nothing. -/
structure Placement where
  before : List Char
  apart : ∀ character ∈ before.getLast?, isWordChar character = false
  marker : Marker
  written : List Char
  same : lowered written = lowered marker.text
  after : List Char
  spaced : Gapped isWhitespace after

def Placement.message (placement : Placement) (secret : Secret) : List Char :=
  placement.before ++ placement.written ++ secret.text ++ placement.after

/-- What the redactor reads up to the secret. -/
def Placement.start (placement : Placement) : List Char :=
  placement.before ++ placement.written

/-- A pass is inside a value where the secret begins. -/
def Placement.InValue (placement : Placement) : Prop :=
  endsInValue (redactionRules defaultRedactionConfig) placement.start = true

/-- When the redactor reveals nothing of the secret. Of the markers that end with a space,
an authorization header is covered for the bearer scheme only, and the others if they are
not taken for the value of an earlier marker, so that a pass is inside their own. -/
def Placement.Covered (placement : Placement) : Prop :=
  match placement.marker with
  | .authorization scheme _ _ => lowered scheme = "bearer".toList
  | .bearer | .keyColon _ _ => placement.InValue
  | .keyEquals _ _ | .tokenStart _ _ | .urlScheme _ _ => True

theorem redactStr_eq (input : List Char) :
    redactStr input = passes (redactionRules defaultRedactionConfig) input := by
  simp [redactStr, redactStrWithConfig, defaultRedactionConfig]

theorem endsValue_of_secret {character : Char} (printable : isSecretChar character = true) :
    endsValue character = false := by
  simp only [isSecretChar, Bool.and_eq_true, decide_eq_true_eq, bne_iff_ne, ne_eq] at printable
  obtain ⟨⟨⟨⟨⟨low, high⟩, notDouble⟩, notSingle⟩, notComma⟩, notBrace⟩ := printable
  have notSpace : isWhitespace character = false := by
    rw [Bool.eq_false_iff]
    intro space
    simp only [isWhitespace, Bool.or_eq_true, Bool.and_eq_true, decide_eq_true_eq,
      beq_iff_eq] at space
    omega
  simp [endsValue, notSpace, notDouble, notSingle, notComma, notBrace]

/-- A word without whitespace that begins a text begins what stands before the gap. -/
theorem prefix_of_gapped {word text more : List Char}
    (unspaced : ∀ character ∈ word, isWhitespace character = false)
    (gapped : Gapped isWhitespace more) (found : word <+: text ++ more) : word <+: text := by
  obtain short | ⟨rest, rfl⟩ := List.prefix_or_prefix_of_prefix found (List.prefix_append text more)
  · exact short
  · obtain ⟨later, shape⟩ := found
    rw [List.append_assoc, List.append_cancel_left_eq] at shape
    cases rest with
    | nil => simp
    | cons character rest =>
      have space := gapped character (by rw [← shape]; rfl)
      rw [unspaced character (by simp)] at space
      nomatch space

/-- Lowering keeps a gap a gap. -/
theorem gapped_lowered {more : List Char} (gapped : Gapped isWhitespace more) :
    Gapped isWhitespace (lowered more) := by
  cases more with
  | nil => exact gapped
  | cons character rest =>
    have space : isWhitespace character = true := gapped character rfl
    intro first member
    rw [lowered_cons, lower_of_endsValue (endsValue_of_whitespace space), List.head?_cons,
      Option.mem_some_iff] at member
    exact member ▸ space

/-- No pattern begins inside a secret. -/
theorem unseen_in_secret (secret : Secret) {pattern rest more : List Char} {character : Char}
    (recognised : lowered pattern ∈ recognisedPatterns) (suffix : character :: rest <:+ secret.text)
    (gapped : Gapped isWhitespace more) :
    begins pattern (character :: rest ++ more) = false := by
  by_contra found
  rw [Bool.not_eq_false, begins_iff] at found
  have printable := endsValue_of_secret
    (secret.printable character (suffix.mem List.mem_cons_self))
  obtain ⟨first, isFirst, quote⟩ | ⟨word, listed, begun⟩ := patterns_marked _ recognised
  · cases shape : lowered pattern with
    | nil => rw [shape] at isFirst; nomatch isFirst
    | cons head others =>
      rw [shape, List.head?_cons, Option.mem_some_iff] at isFirst
      rw [shape] at found
      have lowerFirst : head = character.toLower := (List.cons_prefix_cons.mp found).1
      have ends : endsValue character.toLower = true := by
        rw [← lowerFirst, isFirst]
        obtain rfl | rfl := quote <;> decide
      rw [endsValue_lower, printable] at ends
      nomatch ends
  · rw [lowered_append] at found
    have within := prefix_of_gapped (markerWords_unspaced word listed) (gapped_lowered gapped)
      (begun.trans found)
    exact secret.unmarked word listed (within.isInfix.trans (suffix.map _).isInfix)

theorem precedesValue_of_inside {character : Char} (inside : endsValue character = false) :
    precedesValue character = false := by
  simp only [endsValue, Bool.or_eq_false_iff] at inside
  simp [precedesValue, inside]

/-- A secret is one piece for every pass. -/
theorem secret_hidden (secret : Secret) {pattern : List Char} {rule : Rule Char}
    (redacts : Redacts pattern rule) : Hidden isWhitespace Sealed secret.text rule where
  inside symbol member :=
    stops_of_inside redacts (endsValue_of_secret (secret.printable symbol member))
  unseen _ gapped _ _ _ suffix :=
    redacts.unseen _ _ (unseen_in_secret secret redacts.recognised suffix gapped)
  blind text more isSealed gapped := by
    refine redacts.blind text _ ⟨isSealed, .inr ?_⟩
    cases shape : secret.text with
    | nil => exact absurd shape secret.nonempty
    | cons first rest =>
      constructor
      · intro character member
        rw [List.cons_append, List.head?_cons, Option.mem_some_iff] at member
        have printable := secret.printable first (by rw [shape]; exact List.mem_cons_self)
        exact member ▸ precedesValue_of_inside (endsValue_of_secret printable)
      · have suffix : first :: rest <:+ secret.text := shape ▸ List.suffix_rfl
        exact unseen_in_secret secret bearer_recognised suffix gapped

/-- Every marker ends so that no pattern goes on behind it. -/
theorem markers_sealed :
    (∀ key ∈ keyValueSecretKeys, Sealed (key.toList ++ ['=']) ∧ Sealed (key.toList ++ [':', ' '])) ∧
    (∀ start ∈ providerKeyPrefixes, Sealed start.toList) ∧
    ∀ scheme ∈ databaseUrlSchemes ++ redisUrlSchemes, Sealed scheme.toList := by
  unfold Sealed
  decide

theorem marker_sealed (marker : Marker) : Sealed marker.text := by
  have space (front : List Char) : Sealed (front ++ [' ']) := by
    refine ⟨[' '], by decide, ?_⟩
    rw [lowered_append]
    exact List.suffix_append _ _
  cases marker with
  | authorization scheme => exact space _
  | bearer => exact space "Bearer".toList
  | keyEquals key listed => exact (markers_sealed.1 key listed).1
  | keyColon key listed => exact (markers_sealed.1 key listed).2
  | tokenStart start listed => exact markers_sealed.2.1 start listed
  | urlScheme scheme listed => exact markers_sealed.2.2 scheme listed

theorem start_sealed (placement : Placement) : Sealed placement.start := by
  obtain ⟨tail, member, suffix⟩ := marker_sealed placement.marker
  refine ⟨tail, member, ?_⟩
  rw [Placement.start, lowered_append, placement.same]
  exact suffix.trans (List.suffix_append _ _)

/-- The redactor works on what stands before the secret and on what stands behind it. It
leaves the secret out if a pass is inside a value there, and copies it otherwise. -/
theorem redact_message (placement : Placement) (secret : Secret) :
    redactStr (placement.message secret) =
      (redactStr placement.start).bind fun out => (redactStr placement.after).map fun outAfter =>
        if endsInValue (redactionRules defaultRedactionConfig) placement.start then
          out ++ outAfter
        else out ++ (secret.text ++ outAfter) := by
  have redacts : ∀ rule ∈ redactionRules defaultRedactionConfig, ∃ pattern,
      Redacts pattern rule := fun rule member => rule_redacts member
  have split := @passes_open _ isWhitespace ']' _ Sealed _ secret.text _
    (fun rule member => redacts_disciplined (redacts rule member).choose_spec)
    (fun rule member => secret_hidden secret (redacts rule member).choose_spec)
    (fun rule member text out => redacts_keeps_sealed (redacts rule member).choose_spec)
    (start_sealed placement) placement.spaced
  rw [redactStr_eq, redactStr_eq, redactStr_eq, ← split, Placement.message, Placement.start,
    List.append_assoc, List.append_assoc]

/-- A text ends with a word of its own. -/
def EndsWith (word text : List Char) : Prop :=
  ∃ front written, text = front ++ written ∧ lowered written = lowered word ∧
    ∀ character ∈ front.getLast?, isWordChar character = false

/-- The characters of a written word end no value if those of the word do not. -/
theorem inside_of_same {word written : List Char} {pattern : List Char} {rule : Rule Char}
    (redacts : Redacts pattern rule) (inside : ∀ character ∈ word, endsValue character = false)
    (same : lowered written = lowered word) :
    ∀ character ∈ written, rule.stops character = false := by
  intro character member
  have lower : character.toLower ∈ lowered word := same ▸ List.mem_map_of_mem member
  obtain ⟨other, otherMember, sameLower⟩ := List.mem_map.mp lower
  refine stops_of_inside redacts ?_
  rw [← endsValue_lower, ← sameLower, endsValue_lower, inside other otherMember]

/-- A pass that still copies at the end has copied the word there. -/
theorem endsWith_kept {word text out pattern : List Char} {rule : Rule Char}
    (redacts : Redacts pattern rule) (inside : ∀ character ∈ word, endsValue character = false)
    (ends : EndsWith word text) (scanned : scan rule .copying none text = some (out, .copying)) :
    EndsWith word out := by
  obtain ⟨front, written, rfl, same, apart⟩ := ends
  have insideWritten := inside_of_same redacts inside same
  obtain rfl | ⟨front, last, rfl⟩ := List.eq_nil_or_concat front
  · rw [List.nil_append] at scanned
    exact ⟨[], written, copied_whole insideWritten scanned, same, apart⟩
  · rw [List.concat_eq_append] at scanned apart
    rw [List.append_assoc, List.singleton_append] at scanned
    obtain ⟨front', rfl⟩ := copied_end insideWritten scanned
    refine ⟨front' ++ [last], written, by simp, same, ?_⟩
    intro character member
    exact apart character (by simpa using member)

/-- A pass that sees a word at the end opens a value there. -/
theorem endsWith_opens {word text out : List Char} {last : Mode} {pattern : List Char}
    {rule : Rule Char} (redacts : Redacts pattern rule)
    (inside : ∀ character ∈ word, endsValue character = false) (nonempty : word ≠ [])
    (sees : ∀ before written, lowered written = lowered word → atBoundary before = true →
      ∃ out width, rule.sees before written = .mark out width)
    (ends : EndsWith word text) (scanned : scan rule .copying none text = some (out, last)) :
    last ≠ .copying := by
  obtain ⟨front, written, rfl, same, apart⟩ := ends
  have boundary : atBoundary (previous none front) = true := by
    rw [previous, Option.or_none, atBoundary, Bool.not_eq_true', Option.any_eq_false]
    exact fun character member => Bool.not_eq_true _ ▸ apart character member
  cases written with
  | nil =>
    have short := congrArg List.length same
    simp only [length_lowered, List.length_nil] at short
    exact absurd (List.length_eq_zero_iff.mp short.symm) nonempty
  | cons symbol tail =>
    obtain ⟨out', width, seen⟩ := sees _ (symbol :: tail) same boundary
    exact mark_opens (inside_of_same redacts inside same) seen scanned

/-- So behind a marker that touches the secret a pass is inside a value. -/
theorem touching_in_value {placement : Placement} {own : Rule Char}
    (member : own ∈ redactionRules defaultRedactionConfig)
    (inside : ∀ character ∈ placement.marker.text, endsValue character = false)
    (nonempty : placement.marker.text ≠ [])
    (sees : ∀ before written, lowered written = lowered placement.marker.text →
      atBoundary before = true → ∃ out width, own.sees before written = .mark out width) :
    redactStr placement.start = none ∨ placement.InValue := by
  rw [redactStr_eq]
  have ends : EndsWith placement.marker.text placement.start :=
    ⟨placement.before, placement.written, rfl, placement.same, placement.apart⟩
  refine opens_value member ?_ ?_ ends
  · intro rule ruleMember text out ends scanned
    obtain ⟨pattern, redacts⟩ := rule_redacts ruleMember
    exact endsWith_kept redacts inside ends scanned
  · intro text out last ends scanned
    obtain ⟨pattern, redacts⟩ := rule_redacts member
    exact endsWith_opens redacts inside nonempty sees ends scanned

theorem begins_of_same {word written : List Char} (same : lowered written = lowered word) :
    begins word written = true := by
  rw [begins_iff, same]

theorem prefixedToken_sees {start written : List Char} {before : Option Char}
    (same : lowered written = lowered start) (boundary : atBoundary before = true) :
    ∃ out width, (redactPrefixedToken start).sees before written = .mark out width := by
  simp [redactPrefixedToken, begins_of_same same, boundary]

theorem urlScheme_sees {scheme written : List Char} {before : Option Char}
    (same : lowered written = lowered scheme) :
    ∃ out width, (redactUrlScheme scheme).sees before written = .mark out width := by
  simp [redactUrlScheme, begins_of_same same]

theorem afterPattern_sees {pattern written : List Char} {before : Option Char}
    (same : lowered written = lowered pattern) (boundary : atBoundary before = true) :
    ∃ out width, (redactAfterPattern pattern).sees before written = .mark out width := by
  have sameLength : written.length = pattern.length := by
    simpa using congrArg List.length same
  have nothingLeft : written.drop pattern.length = [] := by
    rw [← sameLength, List.drop_length]
  simp [redactAfterPattern, begins_of_same same, boundary, nothingLeft, trimmedBefore, sliceBytes]

theorem touching_inside :
    (∀ key ∈ keyValueSecretKeys, ∀ character ∈ key.toList ++ ['='], endsValue character = false) ∧
    (∀ start ∈ providerKeyPrefixes, ∀ character ∈ start.toList, endsValue character = false) ∧
    ∀ scheme ∈ databaseUrlSchemes ++ redisUrlSchemes, ∀ character ∈ scheme.toList,
      endsValue character = false := by
  decide

theorem touching_nonempty :
    (∀ start ∈ providerKeyPrefixes, start.toList ≠ []) ∧
    ∀ scheme ∈ databaseUrlSchemes ++ redisUrlSchemes, scheme.toList ≠ [] := by
  decide

theorem keyEquals_rule {key : String} (listed : key ∈ keyValueSecretKeys) :
    redactAfterPattern (key.toList ++ ['=']) ∈ redactionRules defaultRedactionConfig := by
  have member : redactAfterPattern (key.toList ++ ['=']) ∈
      keyValueSecretKeys.flatMap redactKeyValue :=
    List.mem_flatMap.mpr ⟨key, listed, List.mem_cons_self⟩
  exact List.mem_append_right _ member

theorem tokenStart_rule {start : String} (listed : start ∈ providerKeyPrefixes) :
    redactPrefixedToken start.toList ∈ redactionRules defaultRedactionConfig := by
  have member : redactPrefixedToken start.toList ∈
      providerKeyPrefixes.map (redactPrefixedToken ·.toList) := List.mem_map_of_mem listed
  exact List.mem_append_left _ (List.mem_append_right _ member)

theorem urlScheme_rule {scheme : String} (listed : scheme ∈ databaseUrlSchemes ++ redisUrlSchemes) :
    redactUrlScheme scheme.toList ∈ redactionRules defaultRedactionConfig := by
  simp only [redactionRules, defaultRedactionConfig, if_true, List.mem_append]
  obtain database | redis := List.mem_append.mp listed
  · exact .inl (.inl (.inl (.inr (.inl (List.mem_map_of_mem database)))))
  · exact .inl (.inl (.inr (List.mem_map_of_mem redis)))

/-- The proper beginnings of these patterns end inside a word. -/
theorem beginnings_end_in_word : ∀ pattern ∈ ["authorization:".toList, "bearer ".toList],
    ∀ start ∈ (lowered pattern).inits, start ≠ lowered pattern →
      ∀ character ∈ start.getLast?, isWordChar character = true := by
  decide

/-- So they are not found across a place where no word goes on. -/
theorem pattern_before_boundary {pattern rest more : List Char}
    (listed : pattern ∈ ["authorization:".toList, "bearer ".toList]) (nonempty : rest ≠ [])
    (apart : ∀ character ∈ rest.getLast?, isWordChar character = false)
    (found : begins pattern (rest ++ more) = true) : pattern.length ≤ rest.length := by
  by_contra short
  rw [begins_iff, lowered_append] at found
  obtain long | cut := List.prefix_or_prefix_of_prefix found (List.prefix_append _ (lowered more))
  · have enough := long.length_le
    rw [length_lowered, length_lowered] at enough
    exact short enough
  · have proper : lowered rest ≠ lowered pattern := by
      intro same
      have sameLength := congrArg List.length same
      rw [length_lowered, length_lowered] at sameLength
      omega
    have last : (lowered rest).getLast? = some (rest.getLast nonempty).toLower := by
      rw [lowered, List.getLast?_map, List.getLast?_eq_some_getLast nonempty]
      rfl
    have inWord := beginnings_end_in_word pattern listed _ ((List.mem_inits _ _).mpr cut) proper _
      last
    rw [isWordChar_lower, apart _ (List.getLast?_eq_some_getLast nonempty)] at inWord
    cases inWord

theorem getLast?_suffix {Item : Type} {text rest : List Item} (nonempty : rest ≠ [])
    (suffix : rest <:+ text) : rest.getLast? = text.getLast? := by
  obtain ⟨front, rfl⟩ := suffix
  rw [List.getLast?_append_of_ne_nil _ nonempty]

/-- No authorization header that begins before a place where a word begins with `a` takes
anything from behind it. -/
theorem authorization_uncrossed {front more : List Char}
    (apart : ∀ character ∈ front.getLast?, isWordChar character = false)
    (letter : ∀ character ∈ more.head?, character.toLower = 'a') :
    Uncrossed redactAuthorizationBearer front more := by
  intro before symbol rest written width suffix seen
  have nonempty := List.cons_ne_nil symbol rest
  have apartHere : ∀ character ∈ (symbol :: rest).getLast?, isWordChar character = false := by
    rwa [getLast?_suffix nonempty suffix]
  show width ≤ (symbol :: rest).length
  cases found : begins "authorization:".toList (symbol :: rest ++ more) with
  | false =>
    rw [authorization_redacts.unseen before _ found] at seen
    cases seen
  | true =>
    have long := pattern_before_boundary List.mem_cons_self nonempty apartHere found
    have behind := @List.drop_append_of_le_length _ _ more _ long
    have sameTrimmed : trimmedBefore isWhitespace
        ((symbol :: rest ++ more).drop "authorization:".toList.length) =
        trimmedBefore isWhitespace ((symbol :: rest).drop "authorization:".toList.length) := by
      rw [behind]
      refine trimmedBefore_append (.inr fun character member => ?_)
      apply whitespace_of_inside
      rw [← endsValue_lower, letter character member]
      decide
    cases trimmedIs : trimmedBefore isWhitespace
        ((symbol :: rest).drop "authorization:".toList.length) with
    | none =>
      simp only [redactAuthorizationBearer, found, if_true, sameTrimmed, trimmedIs] at seen
      cases seen
    | some trimmed =>
      have begun := (trimmedBefore_some trimmedIs).1
      have fits := begun.length_le
      rw [authorization_mark before found (sameTrimmed.trans trimmedIs), behind,
        List.drop_append_of_le_length fits] at seen
      rw [List.length_drop] at fits
      split at seen
      · next bearer =>
        obtain ⟨_, rfl⟩ := Sight.mark.inj seen
        by_cases left : ((symbol :: rest).drop "authorization:".toList.length).drop trimmed.length = []
        · rw [left, List.nil_append, begins_iff] at bearer
          cases more with
          | nil => exact absurd bearer (by decide)
          | cons first others =>
            rw [lowered_cons, letter first rfl] at bearer
            exact absurd (List.cons_prefix_cons.mp bearer).1 (by decide)
        · have restSuffix := (List.drop_suffix trimmed.length _).trans
            (List.drop_suffix "authorization:".toList.length (symbol :: rest))
          have apartLeft := getLast?_suffix left restSuffix ▸ apartHere
          have whole := pattern_before_boundary (by decide) left apartLeft bearer
          rw [List.length_drop, List.length_drop] at whole
          omega
      · obtain ⟨_, rfl⟩ := Sight.mark.inj seen
        omega

/-- A scheme: a word that is not empty. -/
def IsScheme (scheme : List Char) : Prop :=
  scheme ≠ [] ∧ ∀ character ∈ scheme, isWordChar character = true

theorem endsValue_of_word {character : Char} (inWord : isWordChar character = true) :
    endsValue character = false := by
  simp only [isWordChar] at inWord
  unfold Char.isAlphanum Char.isAlpha Char.isUpper Char.isLower Char.isDigit at inWord
  simp only [Bool.or_eq_true, Bool.and_eq_true, decide_eq_true_eq, beq_iff_eq] at inWord
  rw [Bool.eq_false_iff]
  intro ends
  simp only [endsValue, isWhitespace, Bool.or_eq_true, Bool.and_eq_true, decide_eq_true_eq,
    beq_iff_eq, ← Char.toNat_inj, Char.reduceToNat] at ends
  have code : (48 ≤ character.toNat ∧ character.toNat ≤ 57) ∨
      (65 ≤ character.toNat ∧ character.toNat ≤ 90) ∨ character.toNat = 95 ∨
      (97 ≤ character.toNat ∧ character.toNat ≤ 122) := by
    obtain ((upper | lower) | digit) | rfl := inWord
    · exact .inr (.inl upper)
    · exact .inr (.inr (.inr lower))
    · exact .inl digit
    · exact .inr (.inr (.inl rfl))
  omega

/-- Characters of no word are not found in lowered words. -/
theorem not_mem_lowered_word {word : List Char} {character : Char}
    (inWord : ∀ other ∈ word, isWordChar other = true)
    (outside : isWordChar character = false) : character ∉ lowered word := by
  intro member
  obtain ⟨other, otherMember, rfl⟩ := List.mem_map.mp member
  rw [isWordChar_lower, inWord other otherMember] at outside
  nomatch outside

/-- A pattern with a character that a text lacks is not found in it. -/
theorem begins_absent {pattern text : List Char} {character : Char}
    (needed : character ∈ lowered pattern) (absent : character ∉ lowered text) :
    begins pattern text = false := by
  by_contra found
  rw [Bool.not_eq_false, begins_iff] at found
  exact absent (found.mem needed)

/-- A word and a space begin with the bearer scheme when the word is the scheme. -/
theorem begins_bearer {word : List Char} (inWord : ∀ other ∈ word, isWordChar other = true) :
    begins "bearer ".toList (word ++ [' ']) = true ↔ lowered word = "bearer".toList := by
  have space : ' ' ∉ lowered word := not_mem_lowered_word inWord (by decide)
  rw [begins_iff, lowered_append]
  have shape : lowered "bearer ".toList = "bearer".toList ++ [' '] := by decide
  rw [shape]
  constructor
  · intro found
    obtain ⟨more, split⟩ := found
    rw [List.append_assoc, List.append_eq_append_iff] at split
    obtain ⟨middle, wordIs, rest⟩ | ⟨middle, bearerIs, rest⟩ := split
    · cases middle with
      | nil => rw [wordIs, List.append_nil]
      | cons first others =>
        rw [List.cons_append, List.cons_append, List.cons.injEq] at rest
        rw [wordIs, ← rest.1] at space
        exact absurd (List.mem_append_right _ List.mem_cons_self) space
    · cases middle with
      | nil => rw [bearerIs, List.append_nil]
      | cons first others =>
        have isSpace : first = ' ' := by
          rw [lowered_cons, List.cons_append, List.cons.injEq] at rest
          exact rest.1.symm
        have member : ' ' ∈ "bearer".toList := by
          rw [bearerIs, ← isSpace]
          exact List.mem_append_right _ List.mem_cons_self
        exact absurd member (by decide)
  · intro same
    rw [same]
    exact List.prefix_rfl

/-- A pass copies a space, whether or not a value ends there. -/
theorem scan_space {pattern : List Char} {rule : Rule Char} (redacts : Redacts pattern rule)
    {mode : Mode} (settled : mode = .copying ∨ mode = .skipping 0) (before : Option Char)
    (more : List Char) :
    scan rule mode before (' ' :: more) = emit [' '] (scan rule .copying (some ' ') more) := by
  have disciplined := redacts_disciplined redacts
  have copies := scan_nothing (disciplined.gapUnseen before ' ' more (by decide))
  obtain rfl | rfl := settled
  · exact copies
  · rw [scan_stop (disciplined.gapStops ' ' (by decide)), copies]

/-- What an authorization header with a scheme shows. -/
theorem authorization_sees {header scheme : List Char} (same : lowered header = "authorization:".toList)
    (isScheme : IsScheme scheme) (before : Option Char) :
    ∃ written, Closed ']' written ∧
      redactAuthorizationBearer.sees before (header ++ ' ' :: (scheme ++ [' '])) =
        .mark written (header.length + 1 +
          if lowered scheme = "bearer".toList then scheme.length + 1 else 0) := by
  have sameLength : "authorization:".toList.length = header.length := by
    simpa using (congrArg List.length same).symm
  have found : begins "authorization:".toList (header ++ ' ' :: (scheme ++ [' '])) = true := by
    rw [begins_iff, lowered_append, same]
    exact List.prefix_append _ _
  have behind : (header ++ ' ' :: (scheme ++ [' '])).drop "authorization:".toList.length =
      ' ' :: (scheme ++ [' ']) := by
    rw [sameLength, List.drop_left]
  have trimmedIs : trimmedBefore isWhitespace (' ' :: (scheme ++ [' '])) = some [' '] := by
    have one : (' ' :: (scheme ++ [' '])).takeWhile isWhitespace = [' '] := by
      cases scheme with
      | nil => exact absurd rfl isScheme.1
      | cons first rest =>
        have notSpace := whitespace_of_inside
          (endsValue_of_word (isScheme.2 first List.mem_cons_self))
        have space : isWhitespace ' ' = true := by decide
        simp [space, notSpace]
    have size : ' '.utf8Size = 1 := by decide
    simp [trimmedBefore, one, sliceBytes, size]
  have mark := authorization_mark before found (behind ▸ trimmedIs)
  rw [behind, List.length_singleton, List.drop_succ_cons, List.drop_zero] at mark
  rw [mark, sameLength]
  by_cases bearer : lowered scheme = "bearer".toList
  · rw [if_pos ((begins_bearer isScheme.2).mpr bearer), if_pos bearer]
    have length : scheme.length + 1 = "bearer ".toList.length := by
      have sameScheme := congrArg List.length bearer
      rw [length_lowered] at sameScheme
      rw [sameScheme]
      decide
    rw [length]
    exact ⟨_, closed_placeholder _, rfl⟩
  · rw [if_neg fun begun => bearer ((begins_bearer isScheme.2).mp begun), if_neg bearer]
    exact ⟨_, closed_placeholder _, rfl⟩

/-- The pass for authorization headers behind a header with a scheme: inside a value for the
bearer scheme; else it has taken the scheme for the value, or the header itself was taken for
the value of an earlier one. -/
theorem authorization_scan {front header scheme out : List Char} {last : Mode}
    (apart : ∀ character ∈ front.getLast?, isWordChar character = false)
    (same : lowered header = "authorization:".toList) (isScheme : IsScheme scheme)
    (scanned : scan redactAuthorizationBearer .copying none
      (front ++ (header ++ ' ' :: (scheme ++ [' ']))) = some (out, last)) :
    (lowered scheme = "bearer".toList ∧ last ≠ .copying) ∨
      (lowered scheme ≠ "bearer".toList ∧ last = .copying ∧ ∃ start, out = start ++ [']', ' ']) ∨
      (last = .copying ∧ ∃ start, out = start ++ ']' :: ' ' :: (scheme ++ [' '])) := by
  have redacts := authorization_redacts
  have insideHeader : ∀ character ∈ header, redactAuthorizationBearer.stops character = false :=
    @inside_of_same "authorization:".toList _ _ _ redacts (by decide) same
  have insideScheme : ∀ character ∈ scheme, redactAuthorizationBearer.stops character = false :=
    fun character member => stops_of_inside redacts (endsValue_of_word (isScheme.2 character member))
  cases header with
  | nil => nomatch same
  | cons first rest =>
  have letter : ∀ character ∈ (first :: rest ++ ' ' :: (scheme ++ [' '])).head?,
      character.toLower = 'a' := by
    intro character member
    rw [List.cons_append, List.head?_cons, Option.mem_some_iff] at member
    exact member ▸ (List.cons_eq_cons.mp same).1
  obtain failed | ⟨begun, next, settled, closed, scannedFrom⟩ :=
    scan_until (redacts_disciplined redacts).closes (authorization_uncrossed apart letter)
      (show Mode.copying.Within _ from trivial) none
  · rw [failed] at scanned
    nomatch scanned
  rw [scanned] at scannedFrom
  obtain rfl | rfl := settled
  · obtain ⟨written, ⟨start, rfl⟩, seen⟩ := authorization_sees same isScheme (previous none front)
    rw [List.cons_append] at seen scannedFrom
    rw [scan_mark seen, emit_emit] at scannedFrom
    by_cases bearer : lowered scheme = "bearer".toList
    · left
      have width : (first :: rest).length + 1 + (if lowered scheme = "bearer".toList then
          scheme.length + 1 else 0) - 1 = (rest ++ ' ' :: (scheme ++ [' '])).length + 0 := by
        rw [if_pos bearer]
        simp
        omega
      have skipped := @scan_width _ redactAuthorizationBearer
        (rest ++ ' ' :: (scheme ++ [' '])) 0 (some first) []
      rw [List.append_nil, scan_nil] at skipped
      rw [width, skipped, emit_some, Option.some.injEq, Prod.mk.injEq] at scannedFrom
      exact ⟨bearer, scannedFrom.2 ▸ Mode.noConfusion⟩
    · right
      left
      have width : (first :: rest).length + 1 + (if lowered scheme = "bearer".toList then
          scheme.length + 1 else 0) - 1 = (rest ++ [' ']).length + 0 := by
        rw [if_neg bearer]
        simp
      have shape : rest ++ ' ' :: (scheme ++ [' ']) = (rest ++ [' ']) ++ (scheme ++ [' ']) := by
        simp
      rw [width, shape, scan_width, scan_value insideScheme, Nat.zero_sub,
        scan_space redacts (.inr rfl), scan_nil, emit_emit, emit_some, Option.some.injEq,
        Prod.mk.injEq] at scannedFrom
      exact ⟨bearer, scannedFrom.2, begun ++ start, by rw [scannedFrom.1]; simp⟩
  · right
    right
    obtain ⟨start, rfl⟩ | ⟨_, impossible⟩ := closed Mode.noConfusion
    · have unseen : ∀ before symbol later, symbol :: later <:+ scheme ++ [' '] →
          redactAuthorizationBearer.sees before (symbol :: later ++ []) = .nothing := by
        intro before symbol later suffix
        have isColon : ':' ∈ lowered "authorization:".toList := by decide
        refine redacts.unseen _ _ (begins_absent isColon fun member => ?_)
        have within : ':' ∈ lowered (scheme ++ [' ']) := by
          rw [List.append_nil] at member
          exact (suffix.map _).mem member
        rw [lowered_append, List.mem_append] at within
        obtain inScheme | inSpace := within
        · exact not_mem_lowered_word isScheme.2 (by decide) inScheme
        · exact absurd inSpace (by decide)
      have copied := scan_unseen unseen (some ' ')
      rw [List.append_nil, scan_nil, emit_some, List.append_nil] at copied
      rw [scan_value insideHeader, Nat.zero_sub, scan_space redacts (.inr rfl), copied, emit_some,
        emit_some, Option.some.injEq, Prod.mk.injEq] at scannedFrom
      exact ⟨scannedFrom.2, start, by rw [scannedFrom.1]; simp⟩
    · exact absurd rfl impossible

/-- Inside a word no later pass takes the space behind it, unless the word is the bearer
scheme. -/
theorem word_not_crossed {rule : Rule Char} (later : LaterPass rule) {word written : List Char}
    {width : ℕ} {before : Option Char} (inWord : ∀ character ∈ word, isWordChar character = true)
    (other : atBoundary before = true → lowered word ≠ "bearer".toList)
    (seen : rule.sees before (word ++ [' ']) = .mark written width) : width ≤ word.length := by
  have absent {pattern : List Char} (separator : Char) (needed : separator ∈ lowered pattern)
      (outside : isWordChar separator = false) (notSpace : separator ≠ ' ') :
      begins pattern (word ++ [' ']) = false := by
    refine begins_absent needed fun member => ?_
    rw [lowered_append, List.mem_append] at member
    obtain inScheme | inSpace := member
    · exact not_mem_lowered_word inWord outside inScheme
    · exact notSpace (List.mem_singleton.mp inSpace)
  cases later with
  | urlScheme scheme recognised colon =>
    rw [(urlScheme_redacts recognised).unseen before _ (absent ':' colon (by decide) (by decide))] at seen
    nomatch seen
  | prefixedToken start recognised unspaced =>
    cases found : begins start (word ++ [' ']) with
    | false =>
      rw [(prefixedToken_redacts recognised).unseen before _ found] at seen
      nomatch seen
    | true =>
      cases boundary : atBoundary before with
      | false => simp [redactPrefixedToken, found, boundary] at seen
      | true =>
        simp only [redactPrefixedToken, found, boundary, Bool.and_true, if_true,
          Sight.mark.injEq] at seen
        obtain ⟨_, rfl⟩ := seen
        rw [begins_iff] at found
        obtain noSpace | bearer := unspaced
        · rw [lowered_append] at found
          have gapped : Gapped isWhitespace (lowered [' ']) := by
            intro character member
            obtain rfl : ' ' = character := Option.some.inj member
            decide
          simpa using (prefix_of_gapped noSpace gapped found).length_le
        · have begun : begins "bearer ".toList (word ++ [' ']) = true := by
            have same : lowered "bearer ".toList = "bearer ".toList := by decide
            rw [begins_iff, same, ← bearer]
            exact found
          exact absurd ((begins_bearer inWord).mp begun) (other boundary)
  | afterPattern pattern recognised separated =>
    have notFound : begins pattern (word ++ [' ']) = false := by
      obtain colon | equals := separated
      · exact absent ':' colon (by decide) (by decide)
      · exact absent '=' equals (by decide) (by decide)
    rw [(afterPattern_redacts recognised).unseen before _ notFound] at seen
    nomatch seen

/-- So a later pass that reads such a word and a space behind it still copies at the end. -/
theorem word_scan {rule : Rule Char} (later : LaterPass rule) {word out : List Char} {last : Mode}
    {before : Option Char} (inWord : ∀ character ∈ word, isWordChar character = true)
    (other : atBoundary before = true → lowered word ≠ "bearer".toList)
    (scanned : scan rule .copying before (word ++ [' ']) = some (out, last)) :
    last = .copying ∧ (out = word ++ [' '] ∨ ∃ start, out = start ++ [']', ' ']) := by
  obtain ⟨pattern, redacts⟩ := laterPass_redacts later
  induction word generalizing before out with
  | nil =>
    rw [List.nil_append, scan_space redacts (.inl rfl), scan_nil, emit_some, Option.some.injEq,
      Prod.mk.injEq] at scanned
    exact ⟨scanned.2.symm, .inl scanned.1.symm⟩
  | cons first rest inductionHypothesis =>
    have restInWord : ∀ character ∈ rest, isWordChar character = true :=
      fun character member => inWord character (List.mem_cons_of_mem _ member)
    rw [List.cons_append] at scanned
    cases seen : rule.sees before (first :: (rest ++ [' '])) with
    | nothing =>
      rw [scan_nothing seen] at scanned
      obtain ⟨out', scannedRest, rfl⟩ := emit_eq_some scanned
      have inside : atBoundary (some first) = true → lowered rest ≠ "bearer".toList := by
        intro boundary
        simp [atBoundary, inWord first List.mem_cons_self] at boundary
      obtain ⟨copying, same | ⟨start, rfl⟩⟩ := inductionHypothesis restInWord inside scannedRest
      · exact ⟨copying, .inl (by rw [same]; rfl)⟩
      · exact ⟨copying, .inr ⟨first :: start, rfl⟩⟩
    | fails => simp [scan_fails seen] at scanned
    | mark written width =>
      have fits := word_not_crossed later inWord other seen
      obtain ⟨start, rfl⟩ := (redacts.marks _ _ _ _ seen).1
      have insideRest : ∀ character ∈ rest, rule.stops character = false :=
        fun character member => stops_of_inside redacts (endsValue_of_word (restInWord character member))
      have nothingLeft : width - 1 - rest.length = 0 := by
        rw [List.length_cons] at fits
        omega
      rw [scan_mark seen, scan_value insideRest, nothingLeft, scan_space redacts (.inr rfl),
        scan_nil, emit_emit, emit_some, Option.some.injEq, Prod.mk.injEq] at scanned
      exact ⟨scanned.2.symm, .inr ⟨start, by rw [← scanned.1]; simp⟩⟩

/-- A text that ends with the placeholder and a space, perhaps followed by a scheme. -/
def Exposed (scheme text : List Char) : Prop :=
  (∃ front, text = front ++ [']', ' ']) ∨ ∃ front, text = front ++ ']' :: ' ' :: (scheme ++ [' '])

/-- Behind such a text no later pass opens a value, unless the scheme is bearer. -/
theorem exposed_kept {rule : Rule Char} (later : LaterPass rule) {scheme text out : List Char}
    {last : Mode} (isScheme : IsScheme scheme) (other : lowered scheme ≠ "bearer".toList)
    (exposed : Exposed scheme text) (scanned : scan rule .copying none text = some (out, last)) :
    last = .copying ∧ Exposed scheme out := by
  obtain ⟨pattern, redacts⟩ := laterPass_redacts later
  have pastWall := scan_past_wall (redacts_disciplined redacts)
    (show isWhitespace ' ' = true by decide)
  obtain ⟨front, rfl⟩ | ⟨front, rfl⟩ := exposed
  · obtain failed | ⟨start, copied⟩ := pastWall front []
    · rw [failed] at scanned
      nomatch scanned
    · rw [copied, scan_nil, emit_some, List.append_nil, Option.some.injEq, Prod.mk.injEq] at scanned
      exact ⟨scanned.2.symm, .inl ⟨start, scanned.1.symm⟩⟩
  · obtain failed | ⟨start, copied⟩ := pastWall front (scheme ++ [' '])
    · rw [failed] at scanned
      nomatch scanned
    · rw [copied] at scanned
      obtain ⟨written, scannedWord, rfl⟩ := emit_eq_some scanned
      obtain ⟨copying, rfl | ⟨front', rfl⟩⟩ :=
        word_scan later isScheme.2 (fun _ => other) scannedWord
      · exact ⟨copying, .inr ⟨start, by simp⟩⟩
      · exact ⟨copying, .inl ⟨start ++ [']', ' '] ++ front', by simp⟩⟩

/-- The pass for authorization headers comes first, and the one for bearer tokens next. -/
theorem rules_shape : ∃ rules, laterRules defaultRedactionConfig =
    redactPrefixedToken "Bearer ".toList :: rules :=
  ⟨_, rfl⟩

/-- A header is written as the name, a space, the scheme and a space. -/
theorem header_split {written scheme : List Char}
    (same : lowered written = lowered ("Authorization: ".toList ++ scheme ++ [' '])) :
    ∃ header scheme', written = header ++ ' ' :: (scheme' ++ [' ']) ∧
      lowered header = "authorization:".toList ∧ lowered scheme' = lowered scheme := by
  have isSpace {character : Char} (space : character.toLower = ' ') : character = ' ' := by
    have ends : endsValue character = true := by
      rw [← endsValue_lower, space]
      decide
    rw [← lower_of_endsValue ends, space]
  have shape : lowered ("Authorization: ".toList ++ scheme ++ [' ']) =
      "authorization:".toList ++ ' ' :: (lowered scheme ++ [' ']) := by
    rw [lowered_append, lowered_append]
    simp
  rw [shape] at same
  obtain ⟨header, rest, rfl, sameHeader, sameRest⟩ := List.map_eq_append_iff.mp same
  obtain ⟨space, rest, rfl, isSpace₁, sameRest⟩ := List.map_eq_cons_iff.mp sameRest
  obtain ⟨scheme', rest, rfl, sameScheme, sameRest⟩ := List.map_eq_append_iff.mp sameRest
  obtain ⟨last, rest, rfl, isSpace₂, sameRest⟩ := List.map_eq_cons_iff.mp sameRest
  obtain rfl := List.map_eq_nil_iff.mp sameRest
  obtain rfl := isSpace isSpace₁
  obtain rfl := isSpace isSpace₂
  exact ⟨header, scheme', rfl, sameHeader, sameScheme⟩

theorem isScheme_of_same {scheme scheme' : List Char} (same : lowered scheme' = lowered scheme)
    (isScheme : IsScheme scheme) : IsScheme scheme' := by
  constructor
  · rintro rfl
    exact isScheme.1 (List.map_eq_nil_iff.mp same.symm)
  · intro character member
    have lower : character.toLower ∈ lowered scheme := same ▸ List.mem_map_of_mem member
    obtain ⟨other, otherMember, sameLower⟩ := List.mem_map.mp lower
    rw [← isWordChar_lower, ← sameLower, isWordChar_lower, isScheme.2 other otherMember]

/-- The pass for bearer tokens opens a value behind a placeholder and a bearer scheme. -/
theorem bearer_opens {scheme front out : List Char} {last : Mode}
    (bearer : lowered scheme = "bearer".toList)
    (scanned : scan (redactPrefixedToken "Bearer ".toList) .copying none
      (front ++ ']' :: ' ' :: (scheme ++ [' '])) = some (out, last)) : last ≠ .copying := by
  have redacts : Redacts "Bearer ".toList (redactPrefixedToken "Bearer ".toList) :=
    prefixedToken_redacts bearer_recognised
  obtain failed | ⟨start, copied⟩ := scan_past_wall (redacts_disciplined redacts)
    (show isWhitespace ' ' = true by decide) front (scheme ++ [' '])
  · rw [failed] at scanned
    cases scanned
  · rw [copied] at scanned
    obtain ⟨written, scannedWord, rfl⟩ := emit_eq_some scanned
    cases scheme with
    | nil => exact absurd bearer (by decide)
    | cons first rest =>
      have same : lowered (first :: rest ++ [' ']) = lowered "Bearer ".toList := by
        rw [lowered_append, bearer]
        decide
      obtain ⟨out', width, seen⟩ := prefixedToken_sees same (show atBoundary (some ' ') = true by decide)
      have wide : width = (rest ++ [' ']).length + 1 := by
        have sameLength := congrArg List.length same
        rw [length_lowered, length_lowered] at sameLength
        simp only [redactPrefixedToken, begins_of_same same, Bool.true_and] at seen
        split at seen
        · obtain ⟨_, rfl⟩ := Sight.mark.inj seen
          exact sameLength.symm
        · cases seen
      have skipped := @scan_width _ (redactPrefixedToken "Bearer ".toList) (rest ++ [' ']) 0
        (some first) []
      rw [List.append_nil, Nat.add_zero, scan_nil] at skipped
      rw [List.cons_append] at seen scannedWord
      rw [scan_mark seen, wide, Nat.add_sub_cancel, skipped, emit_some, Option.some.injEq,
        Prod.mk.injEq] at scannedWord
      exact scannedWord.2 ▸ Mode.noConfusion

/-- Behind an authorization header a pass is inside a value exactly for the bearer scheme. -/
theorem authorization_in_value {placement : Placement} {scheme : List Char}
    (isScheme : IsScheme scheme)
    (marker : placement.marker.text = "Authorization: ".toList ++ scheme ++ [' ']) :
    redactStr placement.start = none ∨
      (placement.InValue ↔ lowered scheme = "bearer".toList) := by
  have rules : redactionRules defaultRedactionConfig =
      redactAuthorizationBearer :: laterRules defaultRedactionConfig :=
    redactionRules_eq defaultRedactionConfig
  obtain ⟨header, scheme', written, sameHeader, sameScheme⟩ := header_split (marker ▸ placement.same)
  have isScheme' := isScheme_of_same sameScheme isScheme
  rw [redactStr_eq, Placement.InValue, rules, Placement.start, written]
  cases scanned : scan redactAuthorizationBearer .copying none
      (placement.before ++ (header ++ ' ' :: (scheme' ++ [' ']))) with
  | none => exact .inl (passes_none scanned)
  | some result =>
    obtain ⟨out, last⟩ := result
    rw [passes_some scanned]
    obtain ⟨bearer, inValue⟩ | rest := authorization_scan placement.apart sameHeader isScheme' scanned
    · right
      rw [sameScheme] at bearer
      cases last with
      | copying => exact absurd rfl inValue
      | skipping left => exact iff_of_true (endsInValue_skipping scanned) bearer
    · have copying : last = .copying ∧ (lowered scheme' ≠ "bearer".toList ∨
          ∃ start, out = start ++ ']' :: ' ' :: (scheme' ++ [' '])) ∧ Exposed scheme' out := by
        obtain ⟨other, rfl, start⟩ | ⟨rfl, start⟩ := rest
        · exact ⟨rfl, .inl other, .inl start⟩
        · exact ⟨rfl, .inr start, .inr start⟩
      obtain ⟨rfl, otherOrShown, exposed⟩ := copying
      rw [endsInValue_copying scanned]
      by_cases bearer : lowered scheme = "bearer".toList
      · obtain other | ⟨start, rfl⟩ := otherOrShown
        · exact absurd (sameScheme.trans bearer) other
        · obtain ⟨later, shape⟩ := rules_shape
          rw [shape]
          cases scannedNext : scan (redactPrefixedToken "Bearer ".toList) .copying none
              (start ++ ']' :: ' ' :: (scheme' ++ [' '])) with
          | none => exact .inl (passes_none scannedNext)
          | some result =>
            obtain ⟨out, last⟩ := result
            have opens := bearer_opens (sameScheme.trans bearer) scannedNext
            cases last with
            | copying => exact absurd rfl opens
            | skipping left => exact .inr (iff_of_true (endsInValue_skipping scannedNext) bearer)
      · right
        have closed := @no_value _ (laterRules defaultRedactionConfig) _
          (fun rule member text out last => exposed_kept (laterPass_of_mem member) isScheme'
            (sameScheme ▸ bearer)) _ exposed
        exact iff_of_false (fun inValue => by rw [closed] at inValue; nomatch inValue) bearer

/-- The markers are covered when a pass is inside a value behind them. -/
theorem inValue_iff (placement : Placement) :
    redactStr placement.start = none ∨ (placement.InValue ↔ placement.Covered) := by
  have always {covered : Prop} (isCovered : covered)
      (opens : redactStr placement.start = none ∨ placement.InValue) :
      redactStr placement.start = none ∨ (placement.InValue ↔ covered) :=
    opens.imp_right fun inValue => iff_of_true inValue isCovered
  unfold Placement.Covered
  cases marker : placement.marker with
  | authorization scheme nonempty word =>
    exact authorization_in_value ⟨nonempty, word⟩ (by rw [marker]; rfl)
  | bearer => exact .inr Iff.rfl
  | keyColon key listed => exact .inr Iff.rfl
  | keyEquals key listed =>
    have text : placement.marker.text = key.toList ++ ['='] := by rw [marker]; rfl
    refine always trivial (touching_in_value (keyEquals_rule listed) ?_ ?_ ?_)
    · exact text ▸ touching_inside.1 key listed
    · simp [text]
    · exact fun before written same => afterPattern_sees (text ▸ same)
  | tokenStart start listed =>
    have text : placement.marker.text = start.toList := by rw [marker]; rfl
    refine always trivial (touching_in_value (tokenStart_rule listed) ?_ ?_ ?_)
    · exact text ▸ touching_inside.2.1 start listed
    · exact text ▸ touching_nonempty.1 start listed
    · exact fun before written same => prefixedToken_sees (text ▸ same)
  | urlScheme scheme listed =>
    have text : placement.marker.text = scheme.toList := by rw [marker]; rfl
    refine always trivial (touching_in_value (urlScheme_rule listed) ?_ ?_ ?_)
    · exact text ▸ touching_inside.2.2 scheme listed
    · exact text ▸ touching_nonempty.2 scheme listed
    · exact fun before written same _ => urlScheme_sees (text ▸ same)

/-- Two secrets that are told apart when they are copied. -/
def plainSecret : Secret where
  text := "plain".toList
  nonempty := by decide
  printable := by decide
  unmarked := by decide

def otherSecret : Secret where
  text := "other".toList
  nonempty := by decide
  printable := by decide
  unmarked := by decide

/-- A header with another scheme than bearer at the beginning of a message. -/
def basicHeader : Placement where
  before := []
  apart _ absent := nomatch absent
  marker := .authorization "Basic".toList (by decide) (by decide)
  written := "Authorization: Basic ".toList
  same := by decide
  after := []
  spaced _ absent := nomatch absent

end Memcore
