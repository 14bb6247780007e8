import Memcore.Foundations.Words
import Memcore.Privacy.PhoneForms

/-!
# How far the passes reach into a phone number

The passes for bearer tokens, keys and addresses find no match that begins in a number. A match
that begins before the number may reach into it, across the white space between: a bearer token
takes what it can, and a phone number that begins further left ends where one of the parts of its
pattern does. How far a match reaches does not depend on the digits of the number.
-/
namespace Memcore

open Regexes Regexes.Regex
open Scanners (previous)

/-- The characters of a number in any of its forms. -/
def phoneCharacters : List Char := "0123456789+-.()".toList

/-- A pattern has no match that begins in a number in front of white space. -/
structure LeavesNumbers (re : Regex Char) : Prop where
  proper : re.nullable = false
  space : ∀ character, Texts.isWhitespace character = true → re.firsts character = false
  unmatched : ∀ before text rest, text ≠ [] → (∀ character ∈ text, character ∈ phoneCharacters) →
    Gap rest → re.width before (text ++ rest) = none

/-- A pattern that begins with a letter leaves numbers. -/
theorem leaves_of_firsts {re : Regex Char} (proper : re.nullable = false)
    (letters : ∀ character, re.firsts character = true → character.isAlpha = true) :
    LeavesNumbers re where
  proper := proper
  space character space := by
    rw [Bool.eq_false_iff]
    intro first
    have word := ascii_word_of_whitespace space
    simp [Char.isAlphanum, letters character first] at word
  unmatched before text rest nonempty numeric gap := by
    obtain ⟨character, text, rfl⟩ := List.exists_cons_of_ne_nil nonempty
    refine width_none_of_firsts proper ?_ before (text ++ rest)
    rw [Bool.eq_false_iff]
    intro first
    have noLetter : ∀ character ∈ phoneCharacters, character.isAlpha = false := by decide
    have letter := letters character first
    rw [noLetter character (numeric character List.mem_cons_self)] at letter
    nomatch letter

theorem bearer_leaves : LeavesNumbers bearerRegex := by
  refine leaves_of_firsts (by decide) fun character first => ?_
  have lowered : character.toLower = 'b' := by
    simpa [bearerRegex, sequence, caseless, firsts, nullable] using first
  obtain same | ⟨_, _, code⟩ := Texts.toLower_cases character
  · rw [← same, lowered]
    decide
  · rw [lowered] at code
    obtain rfl : character = 'B' := Char.toNat_inj.mp (by simpa using code.symm)
    decide

theorem apiKey_leaves (classes : UnicodeClasses) : LeavesNumbers (apiKeyRegex classes) := by
  refine leaves_of_firsts rfl fun character first => ?_
  have begins : character = 's' ∨ character = 'p' ∨ character = 'a' := by
    simpa [apiKeyRegex, sequence, literal, firsts, nullable, wordBoundary] using first
  obtain rfl | rfl | rfl := begins <;> decide

/-- White space or a closing bracket. -/
def IsWall (character : Char) : Prop :=
  Texts.isWhitespace character = true ∨ character = ']'

/-- A pattern of letters, digits and some marks does not read a wall. -/
theorem unread_of_reads {re : Regex Char} (marks : List Char)
    (reads : ∀ character, re.reads character = true →
      character.isAlphanum = true ∨ character ∈ marks)
    (apart : ∀ mark ∈ marks, Texts.isWhitespace mark = false ∧ mark ≠ ']') {character : Char}
    (wall : IsWall character) : re.reads character = false := by
  rw [Bool.eq_false_iff]
  intro read
  obtain alphanum | mark := reads character read
  · obtain space | rfl := wall
    · have word := ascii_word_of_whitespace space
      simp [alphanum] at word
    · exact absurd alphanum (by decide)
  · obtain ⟨noSpace, other⟩ := apart character mark
    obtain space | closes := wall
    · rw [noSpace] at space
      nomatch space
    · exact other closes

theorem apiKey_unread (classes : UnicodeClasses) {character : Char} (wall : IsWall character) :
    (apiKeyRegex classes).reads character = false := by
  refine unread_of_reads "-_".toList (fun character read => ?_) (by decide) wall
  simp [apiKeyRegex, sequence, reads, wordBoundary, anyOf, literal] at read ⊢
  obtain letter | mark | alphanum := read
  · left
    obtain (rfl | rfl) | (rfl | rfl) | rfl | rfl | rfl := letter <;> decide
  · exact .inr mark
  · exact .inl alphanum

theorem email_unread (classes : UnicodeClasses) {character : Char} (wall : IsWall character) :
    (emailRegex classes).reads character = false := by
  refine unread_of_reads "._%+-@".toList (fun character read => ?_) (by decide) wall
  simp [emailRegex, sequence, reads, wordBoundary, anyOf, isLocalCharacter, isDomainCharacter,
    Char.isAlphanum] at read ⊢
  tauto

theorem email_leaves (classes : UnicodeClasses) : LeavesNumbers (emailRegex classes) where
  proper := rfl
  space character space := by
    rw [Bool.eq_false_iff]
    intro first
    have read := email_unread classes (.inl space)
    rw [reads_of_firsts first] at read
    cases read
  unmatched before text rest nonempty numeric gap := by
    cases found : (emailRegex classes).width before (text ++ rest) with
    | none => rfl
    | some width =>
      obtain ⟨_, fits⟩ := width_fits found
      have needed : (emailRegex classes).Requires (· = '@') := by
        simp [emailRegex, sequence, Requires, anyOf]
      obtain ⟨_, member, rfl⟩ := fits.required _ needed
      have noSign : '@' ∉ phoneCharacters := by decide
      rw [List.take_append] at member fits
      obtain member | member := List.mem_append.mp member
      · exact absurd (numeric '@' (List.mem_of_mem_take member)) noSign
      · obtain ⟨count, taken⟩ : ∃ count, width - text.length = count + 1 :=
          Nat.exists_eq_add_one_of_ne_zero fun none => by simp [none] at member
        cases rest with
        | nil => simp at member
        | cons wall rest =>
          have read := fits.read wall (by simp [taken])
          rw [email_unread classes (.inl (gap wall rfl))] at read
          cases read

section

variable {re : Regex Char} {replacement : List Char}

/-- White space is copied, whatever stands before it. -/
theorem scan_gap (proper : re.nullable = false)
    (opens : ∀ character, Texts.isWhitespace character = true → re.firsts character = false)
    {rest : List Char} (gap : Gap rest) (before : Option Char) :
    re.scan replacement [] 0 before rest = re.scan replacement [] 0 none rest ∧
      Gap (re.scan replacement [] 0 before rest).1 := by
  cases rest with
  | nil => exact ⟨rfl, gap⟩
  | cons wall rest =>
    have absent (before : Option Char) :=
      width_none_of_firsts proper (opens wall (gap wall rfl)) before (rest ++ [])
    rw [scan_copy (absent before), scan_copy (absent none)]
    exact ⟨rfl, gap⟩

theorem gap_replaceAll (replacement : List Char) (leaves : LeavesNumbers re) {rest : List Char}
    (gap : Gap rest) : Gap (re.replaceAll replacement rest) :=
  (scan_gap leaves.proper leaves.space gap none).2

/-- Of a number in front of white space that part is copied which no match that begins before
the number takes. -/
theorem replaceAll_taken (leaves : LeavesNumbers re) {front written taken left rest : List Char}
    (numeric : ∀ character ∈ left, character ∈ phoneCharacters) (gap : Gap rest)
    (reached : re.scan replacement ((taken ++ left) ++ rest) 0 none front =
      (written, taken.length)) :
    re.replaceAll replacement (front ++ ((taken ++ left) ++ rest)) =
      written ++ (left ++ re.replaceAll replacement rest) := by
  have skipped (before : Option Char) :
      re.scan replacement (left ++ (rest ++ [])) taken.length before taken = ([], 0) :=
    scan_skipped taken _ 0 before
  have copied (before : Option Char) :
      re.scan replacement (rest ++ []) 0 before left = (left, 0) := by
    refine scan_copied fun first later split proper => ?_
    rw [List.append_nil]
    refine leaves.unmatched _ later rest proper (fun character member => numeric character ?_) gap
    rw [split]
    exact List.mem_append_right first member
  rw [replaceAll, scan_append, List.append_nil, reached, List.append_assoc, scan_append,
    List.append_assoc, skipped, scan_append, copied, (scan_gap leaves.proper leaves.space gap _).1]
  rfl

/-- A number in front of white space is copied, when no match that begins before it takes a part
of it. -/
theorem replaceAll_leaves (leaves : LeavesNumbers re) {front written text rest : List Char}
    (numeric : ∀ character ∈ text, character ∈ phoneCharacters) (gap : Gap rest)
    (outside : re.scan replacement (text ++ rest) 0 none front = (written, 0)) :
    re.replaceAll replacement (front ++ (text ++ rest)) =
      written ++ (text ++ re.replaceAll replacement rest) := by
  have taken : re.scan replacement (([] ++ text) ++ rest) 0 none front = (written, 0) := outside
  simpa using replaceAll_taken leaves numeric gap taken

end

/-- A text that ends with white space or with a closing bracket. -/
def Walled (text : List Char) : Prop :=
  ∀ character ∈ text.getLast?, IsWall character

/-- A text that is empty or ends with white space. -/
def EndsInGap (text : List Char) : Prop :=
  ∀ character ∈ text.getLast?, Texts.isWhitespace character = true

theorem EndsInGap.walled {text : List Char} (gap : EndsInGap text) : Walled text :=
  fun character last => .inl (gap character last)

section

variable (classes : UnicodeClasses)

/-- What the redactor has made of a text when the bearer tokens are gone: without keys and
addresses. -/
def hideKeys (text : List Char) : List Char :=
  (emailRegex classes).replaceAll redactedEmail
    ((apiKeyRegex classes).replaceAll redactedSecret text)

/-- A pass whose pattern reads no wall treats what stands before a wall by itself. -/
theorem replaceAll_walled {re : Regex Char} (replacement : List Char) (leaves : LeavesNumbers re)
    (unread : ∀ character, IsWall character → re.reads character = false)
    {front text rest : List Char} (walled : Walled front)
    (numeric : ∀ character ∈ text, character ∈ phoneCharacters) (gap : Gap rest) :
    re.replaceAll replacement (front ++ (text ++ rest)) =
        re.replaceAll replacement front ++ (text ++ re.replaceAll replacement rest) ∧
      (re.replaceAll replacement front).getLast? = front.getLast? := by
  obtain ⟨outside, last⟩ := scan_walled replacement leaves.proper
    (fun character finishes => unread character (walled character finishes)) (text ++ rest)
  exact ⟨replaceAll_leaves leaves numeric gap outside, last⟩

theorem hideKeys_number {front text rest : List Char} (walled : Walled front)
    (numeric : ∀ character ∈ text, character ∈ phoneCharacters) (gap : Gap rest) :
    hideKeys classes (front ++ (text ++ rest)) =
        hideKeys classes front ++ (text ++ hideKeys classes rest) ∧
      (hideKeys classes front).getLast? = front.getLast? ∧ Gap (hideKeys classes rest) := by
  obtain ⟨keys, lastKeys⟩ := replaceAll_walled redactedSecret
    (apiKey_leaves classes) (fun _ => apiKey_unread classes) walled numeric gap
  have gapKeys := gap_replaceAll redactedSecret (apiKey_leaves classes) gap
  have walledKeys : Walled ((apiKeyRegex classes).replaceAll redactedSecret front) := by
    rw [Walled, lastKeys]
    exact walled
  obtain ⟨addresses, lastAddresses⟩ := replaceAll_walled redactedEmail
    (email_leaves classes) (fun _ => email_unread classes) walledKeys numeric gapKeys
  refine ⟨?_, lastAddresses.trans lastKeys,
    gap_replaceAll redactedEmail (email_leaves classes) gapKeys⟩
  rw [hideKeys, keys, addresses]
  rfl

end

/-! ## Bearer tokens -/

/-- What remains of the bearer pattern behind white space. -/
def tokenPart : Regex Char :=
  sequence [.run Texts.isWhitespace 0, .run isTokenCharacter 1]

theorem token_of_whitespace {character : Char} (space : Texts.isWhitespace character = true) :
    isTokenCharacter character = false := by
  have word := ascii_word_of_whitespace space
  have marks : ∀ mark ∈ "._=-\u212A\u017F".toList, Texts.isWhitespace mark = false := by decide
  have noMark : character ∉ "._=-\u212A\u017F".toList := by
    intro mark
    rw [marks character mark] at space
    nomatch space
  rw [isTokenCharacter, (Bool.or_eq_false_iff.mp word).1, Bool.false_or]
  simpa using noMark

theorem bearer_remainders {wall : Char} (space : Texts.isWhitespace wall = true) :
    bearerRegex.remainders wall = [tokenPart] := by
  have noLetters : (caseless "Bearer").remainders wall = [] := by
    refine remainders_of_reads ?_
    rw [Bool.eq_false_iff]
    intro read
    have letter : wall.toLower ∈ ['b', 'e', 'a', 'r'] := by
      simp [caseless, sequence, reads] at read ⊢
      tauto
    have letters : ∀ letter ∈ ['b', 'e', 'a', 'r'], Texts.isWhitespace letter = false := by decide
    rw [← Texts.isWhitespace_toLower, letters _ letter] at space
    cases space
  have noToken : isTokenCharacter wall = false := token_of_whitespace space
  simp [bearerRegex, tokenPart, sequence, remainders, noLetters, noToken, space]

/-- The digits of a number, all of them zero. -/
def zeros : PhoneDigits := fun _ => 0

theorem length_number (form : PhoneForm) (digits other : PhoneDigits) :
    (form.number digits).length = (form.number other).length := by
  cases parentheses : form.parentheses <;>
    simp [PhoneForm.number, PhoneForm.areaText, parentheses, PhoneDigits.area,
      PhoneDigits.exchange, PhoneDigits.line]

/-- The same character, or two digits. -/
def SamePhoneCharacter (character other : Char) : Prop :=
  character = other ∨ ∃ digit otherDigit, character = digitCharacter digit ∧
    other = digitCharacter otherDigit

/-- A form has the same characters whatever the digits are, apart from these. -/
theorem number_alike (form : PhoneForm) (digits other : PhoneDigits) :
    List.Forall₂ SamePhoneCharacter (form.number digits) (form.number other) := by
  have same (text : List Char) : List.Forall₂ SamePhoneCharacter text text :=
    List.forall₂_same.mpr fun _ _ => .inl rfl
  have digit (first second : Fin 10) :
      SamePhoneCharacter (digitCharacter first) (digitCharacter second) :=
    .inr ⟨first, second, rfl, rfl⟩
  have area : List.Forall₂ SamePhoneCharacter digits.area other.area :=
    .cons (digit _ _) (.cons (digit _ _) (.cons (digit _ _) .nil))
  have exchange : List.Forall₂ SamePhoneCharacter digits.exchange other.exchange :=
    .cons (digit _ _) (.cons (digit _ _) (.cons (digit _ _) .nil))
  have line : List.Forall₂ SamePhoneCharacter digits.line other.line :=
    .cons (digit _ _) (.cons (digit _ _) (.cons (digit _ _) (.cons (digit _ _) .nil)))
  have areaText : List.Forall₂ SamePhoneCharacter (form.areaText digits) (form.areaText other) := by
    rw [PhoneForm.areaText, PhoneForm.areaText]
    split
    · exact .cons (.inl rfl) (List.rel_append area (same [')']))
    · exact area
  exact List.rel_append (same _) (List.rel_append areaText (List.rel_append (same _)
    (List.rel_append exchange (List.rel_append (same _) line))))

/-- What holds of all digits and of the marks of a form holds of all characters of a number. -/
theorem forall_number {holds : Char → Prop} (form : PhoneForm) (digits : PhoneDigits)
    (digit : ∀ digit, holds (digitCharacter digit)) (dash : holds '-') (dot : holds '.')
    (country : ∀ character ∈ form.country.text, holds character)
    (parenthesis : form.parentheses = true → holds '(' ∧ holds ')') :
    ∀ character ∈ form.number digits, holds character := by
  have divider (divider : Divider) : ∀ character ∈ divider.text, holds character := by
    cases divider <;> simp [Divider.text, dash, dot]
  have area : ∀ character ∈ form.areaText digits, holds character := by
    rw [PhoneForm.areaText]
    split
    · next parentheses =>
      obtain ⟨opens, closes⟩ := parenthesis parentheses
      simp [PhoneDigits.area, digit, opens, closes]
    · simp [PhoneDigits.area, digit]
  simp only [PhoneForm.number, List.forall_mem_append]
  refine ⟨country, area, divider _, ?_, divider _, ?_⟩
  · simp [PhoneDigits.exchange, digit]
  · simp [PhoneDigits.line, digit]

theorem country_characters (country : CountryCode) :
    ∀ character ∈ country.text, character ∈ phoneCharacters := by
  obtain _ | ⟨_ | _, _ | _ | _⟩ := country <;> decide

theorem number_characters (form : PhoneForm) (digits : PhoneDigits) :
    ∀ character ∈ form.number digits, character ∈ phoneCharacters :=
  forall_number form digits (by decide) (by decide) (by decide) (country_characters form.country)
    fun _ => by decide

theorem number_nonempty (form : PhoneForm) (digits : PhoneDigits) : form.number digits ≠ [] := by
  simp [PhoneForm.number, PhoneDigits.exchange]

theorem tokenPart_ends {character : Char} (apart : Texts.isWhitespace character = false)
    (before : Option Char) (rest : List Char) :
    tokenPart.ends (before, character :: rest) =
      runEnds isTokenCharacter 1 before (character :: rest) := by
  simp [tokenPart, sequence, ends, runEnds, apart]

/-- A token goes on to a character that stops it. -/
theorem tokenPart_width {text rest : List Char} (nonempty : text ≠ [])
    (visible : ∀ character ∈ text, Texts.isWhitespace character = false)
    (accepted : ∀ character ∈ text, isTokenCharacter character = true)
    (stop : ∀ character ∈ rest.head?, isTokenCharacter character = false)
    (before : Option Char) : tokenPart.width before (text ++ rest) = some text.length := by
  have longest := head_runEnds stop accepted (List.length_pos_iff.mpr nonempty) before
  obtain ⟨character, text, rfl⟩ := List.exists_cons_of_ne_nil nonempty
  rw [width, widths, List.head?_map, List.cons_append,
    tokenPart_ends (visible character List.mem_cons_self), ← List.cons_append, longest]
  simp only [Option.map_some, List.length_append, Nat.add_sub_cancel]

/-- No token begins with such a character. -/
theorem tokenPart_none {character : Char} (visible : Texts.isWhitespace character = false)
    (stop : isTokenCharacter character = false) (before : Option Char) (rest : List Char) :
    tokenPart.width before (character :: rest) = none := by
  rw [width, widths, tokenPart_ends visible]
  simp [runEnds, stop]

/-- What a bearer token takes of a number behind white space: all of it, or what comes before
the parenthesis. -/
def PhoneForm.tokenLength (form : PhoneForm) : Option ℕ :=
  match form.country, form.parentheses with
  | .absent, true => none
  | .one true _, _ => none
  | .one false divider, true => some (divider.text.length + 1)
  | _, false => some (form.number zeros).length

theorem token_width (form : PhoneForm) (digits : PhoneDigits) {rest : List Char} (gap : Gap rest)
    (before : Option Char) :
    tokenPart.width before (form.number digits ++ rest) = form.tokenLength := by
  have stop : ∀ other ∈ rest.head?, isTokenCharacter other = false :=
    fun other first => token_of_whitespace (gap other first)
  have digit : ∀ digit, isTokenCharacter (digitCharacter digit) = true := by decide
  have visible : ∀ character ∈ phoneCharacters, Texts.isWhitespace character = false := by decide
  have whole (bare : form.parentheses = false)
      (country : ∀ character ∈ form.country.text, isTokenCharacter character = true) :
      tokenPart.width before (form.number digits ++ rest) = some (form.number zeros).length := by
    rw [length_number form zeros digits]
    refine tokenPart_width (number_nonempty form digits)
      (fun character member => visible character (number_characters form digits character member))
      ?_ stop before
    exact forall_number form digits digit (by decide) (by decide) country
      fun parentheses => by simp [bare] at parentheses
  obtain ⟨country, parentheses, first, second⟩ := form
  cases country with
  | absent =>
    cases parentheses with
    | true => exact tokenPart_none (by decide) (by decide) before _
    | false => exact whole rfl nofun
  | one plus divider =>
    cases plus with
    | true => exact tokenPart_none (by decide) (by decide) before _
    | false =>
      cases parentheses with
      | true =>
        have front : ∀ character ∈ '1' :: divider.text,
            isTokenCharacter character = true ∧ Texts.isWhitespace character = false := by
          cases divider <;> decide
        have bracket : ∀ text, ∀ character ∈ ('(' :: text).head?,
            isTokenCharacter character = false := by
          rintro text _ ⟨⟩
          decide
        have stopped := tokenPart_width (List.cons_ne_nil '1' divider.text)
          (fun character member => (front character member).2)
          (fun character member => (front character member).1)
          (bracket (digits.area ++ [')'] ++ (first.text ++ (digits.exchange ++
            (second.text ++ digits.line))) ++ rest)) before
        simpa [PhoneForm.number, CountryCode.text, PhoneForm.areaText, PhoneForm.tokenLength] using
          stopped
      | false =>
        have front : ∀ character ∈ (CountryCode.one false divider).text,
            isTokenCharacter character = true := by
          cases divider <;> decide
        exact whole rfl front

/-- What the bearer pass makes of the text before a number, and how much of the number it takes. -/
def bearerReach (before : List Char) (form : PhoneForm) : List Char × ℕ :=
  bearerRegex.scan redactedBearer (form.number zeros) 0 none before

theorem digits_alike {test : Char → Bool} (same : ∀ first second : Fin 10,
    test (digitCharacter first) = test (digitCharacter second)) (character other : Char)
    (alike : SamePhoneCharacter character other) : test character = test other := by
  obtain rfl | ⟨first, second, rfl, rfl⟩ := alike
  · rfl
  · exact same first second

theorem same_refl (text : List Char) : List.Forall₂ SamePhoneCharacter text text :=
  List.forall₂_same.mpr fun _ _ => .inl rfl

/-- What remains of the bearer pattern takes as much of a number whatever its digits are. -/
theorem tokenPart_widths (form : PhoneForm) (digits : PhoneDigits) {rest : List Char}
    (gap : Gap rest) (wall : Char) :
    tokenPart.widths (some wall) (form.number digits ++ rest) =
      tokenPart.widths (some wall) (form.number zeros) := by
  have respects : tokenPart.Respects SamePhoneCharacter :=
    ⟨digits_alike (by decide), digits_alike (by decide)⟩
  have stop : ∀ other ∈ rest.head?, isTokenCharacter other = false :=
    fun other first => token_of_whitespace (gap other first)
  have visible : ∀ character ∈ phoneCharacters, Texts.isWhitespace character = false := by decide
  have alike : List.Forall₂ SamePhoneCharacter (form.number digits ++ rest)
      (form.number zeros ++ rest) :=
    List.rel_append (number_alike form digits zeros) (same_refl rest)
  rw [widths_alike respects (.some (.inl rfl)) alike]
  have characters := number_characters form zeros
  obtain ⟨character, text, written⟩ := List.exists_cons_of_ne_nil (number_nonempty form zeros)
  rw [written] at characters ⊢
  have apart := visible character (characters character List.mem_cons_self)
  rw [widths, widths, List.cons_append, tokenPart_ends apart, tokenPart_ends apart,
    ← List.cons_append, runEnds_stop stop, List.map_map]
  refine List.map_congr_left fun place _ => ?_
  simp only [Function.comp_apply, List.length_append]
  omega

theorem bearer_scan {before after : List Char} (spaced : EndsInGap before) (gap : Gap after)
    (form : PhoneForm) (digits : PhoneDigits) :
    bearerRegex.scan redactedBearer (form.number digits ++ after) 0 none before =
      bearerReach before form := by
  obtain rfl | ⟨front, wall, rfl⟩ := before.eq_nil_or_concat
  · rfl
  · rw [List.concat_eq_append] at spaced ⊢
    refine scan_across_congr ?_ front 0 none
    rw [bearer_remainders (spaced wall (by simp))]
    simpa using tokenPart_widths form digits gap wall

/-- Behind white space a pass is in no match, and has copied the white space, or it is in the
match of a remainder, and has written its replacement. -/
theorem reach_cases {re : Regex Char} {replacement : List Char} (proper : re.nullable = false)
    (opens : ∀ character, Texts.isWhitespace character = true → re.firsts character = false)
    (closes : ∀ character, Texts.isWhitespace character = true → re.lasts character = false)
    (bracket : replacement.getLast? = some ']') {front : List Char} (spaced : EndsInGap front)
    (more : List Char) :
    ((re.scan replacement more 0 none front).2 = 0 ∧
        EndsInGap (re.scan replacement more 0 none front).1) ∨
      (0 < (re.scan replacement more 0 none front).2 ∧
        (re.scan replacement more 0 none front).1.getLast? = some ']' ∧
        ∃ wall, Texts.isWhitespace wall = true ∧ ∃ remainder ∈ re.remainders wall,
          remainder.width (some wall) more = some (re.scan replacement more 0 none front).2) := by
  obtain rfl | ⟨front, wall, rfl⟩ := front.eq_nil_or_concat
  · exact .inl ⟨scan_nil more 0 none ▸ rfl, by rw [scan_nil]; exact nofun⟩
  · rw [List.concat_eq_append] at spaced ⊢
    have space := spaced wall (by simp)
    by_cases outside : (re.scan replacement more 0 none (front ++ [wall])).2 = 0
    · left
      obtain ⟨written, copied⟩ := scan_copies_last proper (opens wall space) (closes wall space)
        (Nat.zero_ne_add_one front.length) none outside
      refine ⟨outside, ?_⟩
      rw [copied]
      simpa [EndsInGap] using space
    · right
      have positive := Nat.pos_of_ne_zero outside
      obtain ⟨written, replaced⟩ := scan_inside (Nat.zero_le _) none positive
      obtain unread | found : (re.scan replacement more 0 none (front ++ [wall])).2 = 0 ∨ _ :=
        scan_overrun (Nat.zero_le _) none
      · exact absurd unread outside
      · refine ⟨positive, ?_, wall, space, found⟩
        rw [replaced, List.getLast?_append, bracket]
        rfl

/-- The bearer pass stops before the number, or it takes a token at the beginning of it. -/
theorem bearerReach_cases {before : List Char} (spaced : EndsInGap before) (form : PhoneForm) :
    ((bearerReach before form).2 = 0 ∧ EndsInGap (bearerReach before form).1) ∨
      (form.tokenLength = some (bearerReach before form).2 ∧
        (bearerReach before form).1.getLast? = some ']') := by
  have closes (character : Char) (space : Texts.isWhitespace character = true) :
      bearerRegex.lasts character = false := by
    simp [bearerRegex, sequence, lasts, nullable, token_of_whitespace space]
  obtain outside | ⟨_, bracket, wall, space, remainder, listed, found⟩ :
      ((bearerReach before form).2 = 0 ∧ EndsInGap (bearerReach before form).1) ∨ _ :=
    reach_cases (by decide) bearer_leaves.space closes rfl spaced (form.number zeros)
  · exact .inl outside
  · rw [bearer_remainders space, List.mem_singleton] at listed
    have width := @token_width form zeros [] (by simp [Gap]) (some wall)
    rw [List.append_nil, ← listed, found] at width
    exact .inr ⟨width.symm, bracket⟩

/-! ## Phone numbers -/

variable (classes : UnicodeClasses)

theorem areaPart_widths (form : PhoneForm) (digits : PhoneDigits) {rest : List Char}
    (gap : Gap rest) (before : Option Char) :
    (areaPart classes).widths before (form.number digits ++ rest) =
      if form.country = .absent then [(form.number zeros).length] else [] := by
  rw [widths, area_number classes digits before gap form, length_number form zeros digits]
  split <;> simp

theorem exchangePart_widths (form : PhoneForm) (digits : PhoneDigits) (rest : List Char)
    (before : Option Char) :
    (exchangePart classes).widths before (form.number digits ++ rest) =
      if form.country = .one false .absent ∧ form.parentheses = false ∧ form.first = .absent ∧
        form.second ≠ .absent then [7] else [] := by
  rw [widths, exchange_number classes digits before form]
  split
  · next torn =>
    obtain ⟨country, bare, first, _⟩ := torn
    simp only [PhoneForm.number, country, PhoneForm.areaText, bare, first, CountryCode.text,
      Divider.text, PhoneDigits.area, PhoneDigits.exchange]
    simp
    omega
  · rfl

theorem linePart_widths (form : PhoneForm) (digits : PhoneDigits) (rest : List Char)
    (before : Option Char) :
    (linePart classes).widths before (form.number digits ++ rest) =
      if form.country = .one false .absent ∧ form.parentheses = false ∧ form.first ≠ .absent then
        [4] else [] := by
  rw [widths, line_number classes digits before form]
  split
  · next torn =>
    obtain ⟨country, bare, _⟩ := torn
    simp only [PhoneForm.number, country, PhoneForm.areaText, bare, CountryCode.text,
      Divider.text, PhoneDigits.area]
    simp
    omega
  · rfl

theorem nothing_widths (part : Regex Char) (before : Option Char) (text : List Char) :
    (Regex.nothing.followedBy part).widths before text = part.widths before text := by
  rw [widths, ends_nothing_followedBy, widths]

/-- What the phone pass makes of a text before a number, and how much of the number it takes. -/
def phoneReach (front : List Char) (form : PhoneForm) : List Char × ℕ :=
  (phoneRegex classes).scan redactedPhone (form.number zeros) 0 none front

theorem phone_scan {front rest : List Char} (spaced : EndsInGap front) (gap : Gap rest)
    (form : PhoneForm) (digits : PhoneDigits) :
    (phoneRegex classes).scan redactedPhone (form.number digits ++ rest) 0 none front =
      phoneReach classes front form := by
  obtain rfl | ⟨front, wall, rfl⟩ := front.eq_nil_or_concat
  · rfl
  · rw [List.concat_eq_append] at spaced ⊢
    refine scan_across_congr ?_ front 0 none
    have alone : Gap [] := nofun
    have area := areaPart_widths classes form zeros alone (some wall)
    have exchange := exchangePart_widths classes form zeros [] (some wall)
    have line := linePart_widths classes form zeros [] (some wall)
    rw [List.append_nil] at area exchange line
    rw [phone_remainders classes (spaced wall (by simp))]
    simp [nothing_widths, areaPart_widths classes form digits gap, exchangePart_widths,
      linePart_widths, area, exchange, line]

/-- A form in which a match that takes a group of three digits and white space before it goes on
to the end of the exchange. -/
def PhoneForm.tornBeforeLine (form : PhoneForm) : Bool :=
  form.country == .one false .absent && !form.parentheses && form.first == .absent &&
    form.second != .absent

/-- A form in which a match that takes two groups of three digits and white space before it goes
on to the end of the area code. -/
def PhoneForm.tornBehindArea (form : PhoneForm) : Bool :=
  form.country == .one false .absent && !form.parentheses && form.first != .absent

/-- A match begins with a digit, a plus or a parenthesis. -/
theorem phone_unopened {character : Char} (nonword : classes.isWord character = false)
    (plus : character ≠ '+') (parenthesis : character ≠ '(') :
    (phoneRegex classes).firsts character = false := by
  have one : character ≠ '1' := by
    rintro rfl
    rw [isWord_one] at nonword
    nomatch nonword
  simp [phoneRegex, sequence, firsts, nullable, wordBoundary, Regex.optional, countryCode, areaCode,
    anyOf, digits, times, isDigit_of_nonword classes nonword, plus, parenthesis, one]

theorem phone_opens {character : Char} (space : Texts.isWhitespace character = true) :
    (phoneRegex classes).firsts character = false := by
  refine phone_unopened classes (classes.word_of_whitespace character space) ?_ ?_ <;>
    rintro rfl <;> exact absurd space (by decide)

/-- A match ends with a digit. -/
theorem phone_closes {character : Char} (space : Texts.isWhitespace character = true) :
    (phoneRegex classes).lasts character = false := by
  have nondigit := isDigit_of_nonword classes (classes.word_of_whitespace character space)
  simp [phoneRegex, sequence, lasts, nullable, wordBoundary, digits, times, nondigit]

/-- The phone pass stops before the number, or it takes all of it, or it ends after four or
seven digits that stand together at its beginning. -/
theorem phoneReach_cases {front : List Char} (spaced : EndsInGap front) (form : PhoneForm) :
    ((phoneReach classes front form).2 = 0 ∧ EndsInGap (phoneReach classes front form).1) ∨
      ((phoneReach classes front form).1.getLast? = some ']' ∧
        ((phoneReach classes front form).2 = (form.number zeros).length ∨
          ((phoneReach classes front form).2 = 7 ∧ form.tornBeforeLine = true) ∨
          ((phoneReach classes front form).2 = 4 ∧ form.tornBehindArea = true))) := by
  obtain outside | ⟨_, bracket, wall, space, remainder, listed, found⟩ :
      ((phoneReach classes front form).2 = 0 ∧ EndsInGap (phoneReach classes front form).1) ∨ _ :=
    reach_cases rfl (fun _ => phone_opens classes) (fun _ => phone_closes classes) rfl spaced
      (form.number zeros)
  · exact .inl outside
  · refine .inr ⟨bracket, ?_⟩
    have alone : Gap [] := by simp [Gap]
    have area := areaPart_widths classes form zeros alone (some wall)
    have exchange := exchangePart_widths classes form zeros [] (some wall)
    have line := linePart_widths classes form zeros [] (some wall)
    rw [List.append_nil] at area exchange line
    rw [phone_remainders classes space] at listed
    rw [width] at found
    simp only [List.mem_cons, List.not_mem_nil, or_false] at listed
    obtain rfl | rfl | rfl := listed
    · left
      rw [nothing_widths, area] at found
      split at found
      · exact (Option.some.inj found).symm
      · cases found
    · right; left
      rw [nothing_widths, exchange] at found
      split at found
      · next torn =>
        refine ⟨(Option.some.inj found).symm, ?_⟩
        simpa [PhoneForm.tornBeforeLine, and_assoc] using torn
      · cases found
    · right; right
      rw [nothing_widths, line] at found
      split at found
      · next torn =>
        refine ⟨(Option.some.inj found).symm, ?_⟩
        simpa [PhoneForm.tornBehindArea, and_assoc] using torn
      · cases found

end Memcore
