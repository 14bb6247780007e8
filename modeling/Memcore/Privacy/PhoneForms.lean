import Memcore.Privacy.Pii

/-!
# Forms of a phone number

The phone pattern spells out how a North American number may be written: with a country code
or without one, the area code in parentheses or not, and the three groups of digits apart or
together. The laws say where each part of the pattern ends on a number in such a form.
-/
namespace Memcore

open Regexes Regexes.Regex

/-- What may stand between two groups of digits. -/
inductive Divider
  | dash
  | dot
  | absent
  deriving DecidableEq

def Divider.text : Divider → List Char
  | .dash => ['-']
  | .dot => ['.']
  | .absent => []

/-- The country code of a number: none, or a one with a plus before it or not. -/
inductive CountryCode
  | absent
  | one (plus : Bool) (divider : Divider)
  deriving DecidableEq

def CountryCode.text : CountryCode → List Char
  | .absent => []
  | .one true divider => '+' :: '1' :: divider.text
  | .one false divider => '1' :: divider.text

/-- How a number is written. -/
structure PhoneForm where
  country : CountryCode
  parentheses : Bool
  first : Divider
  second : Divider
  deriving DecidableEq

def digitCharacter (digit : Fin 10) : Char :=
  Char.ofNat (48 + digit)

/-- The ten digits of a number. -/
abbrev PhoneDigits := Fin 10 → Fin 10

instance tenNeZero : NeZero 10 := ⟨by decide⟩

def PhoneDigits.area (digits : PhoneDigits) : List Char :=
  [digitCharacter (digits 0), digitCharacter (digits 1), digitCharacter (digits 2)]

def PhoneDigits.exchange (digits : PhoneDigits) : List Char :=
  [digitCharacter (digits 3), digitCharacter (digits 4), digitCharacter (digits 5)]

def PhoneDigits.line (digits : PhoneDigits) : List Char :=
  [digitCharacter (digits 6), digitCharacter (digits 7), digitCharacter (digits 8),
    digitCharacter (digits 9)]

namespace PhoneForm

def areaText (form : PhoneForm) (digits : PhoneDigits) : List Char :=
  if form.parentheses then '(' :: digits.area ++ [')'] else digits.area

/-- A number written in a form. -/
def number (form : PhoneForm) (digits : PhoneDigits) : List Char :=
  form.country.text ++ (form.areaText digits ++ (form.first.text ++ (digits.exchange ++
    (form.second.text ++ digits.line))))

end PhoneForm

/-- Nothing stands at a place, or white space. -/
def Gap (text : List Char) : Prop :=
  ∀ character ∈ text.head?, Texts.isWhitespace character = true

instance (text : List Char) : Decidable (Gap text) :=
  inferInstanceAs (Decidable (∀ character ∈ text.head?, Texts.isWhitespace character = true))

theorem digitCharacter_ascii (digit : Fin 10) : (digitCharacter digit).toNat < 128 := by
  revert digit
  decide

variable (classes : UnicodeClasses)

@[simp] theorem isDigit_digitCharacter (digit : Fin 10) :
    classes.isDigit (digitCharacter digit) = true := by
  rw [classes.digit_ascii _ (digitCharacter_ascii digit)]
  revert digit
  decide

theorem isDigit_of_nonword {character : Char} (nonword : classes.isWord character = false) :
    classes.isDigit character = false := by
  rw [Bool.eq_false_iff]
  intro digit
  rw [classes.word_of_digit character digit] at nonword
  nomatch nonword

/-- Characters of a number that are no digits. -/
def isPhoneMark (character : Char) : Bool :=
  "+-.()".toList.contains character

theorem mark_nonword {character : Char} (mark : isPhoneMark character = true) :
    classes.isWord character = false := by
  have listed : character ∈ "+-.()".toList := by simpa [isPhoneMark] using mark
  have small : ∀ mark ∈ "+-.()".toList, mark.toNat < 128 ∧
      (mark.isAlphanum || mark == '_') = false := by decide
  rw [classes.word_ascii _ (small _ listed).1]
  exact (small _ listed).2

theorem separator_nonword {character : Char} (separates : isSeparator character = true) :
    classes.isWord character = false := by
  obtain mark | space := Bool.or_eq_true_iff.mp separates
  · have listed : character ∈ "-.".toList := by simpa using mark
    have marks : ∀ mark ∈ "-.".toList, isPhoneMark mark = true := by decide
    exact mark_nonword classes (marks character listed)
  · exact classes.word_of_whitespace character space

theorem separator_of_digit {character : Char} (digit : classes.isDigit character = true) :
    isSeparator character = false := by
  rw [Bool.eq_false_iff]
  intro separates
  rw [isDigit_of_nonword classes (separator_nonword classes separates)] at digit
  nomatch digit

theorem mark_of_digit {character : Char} (digit : classes.isDigit character = true) :
    isPhoneMark character = false := by
  rw [Bool.eq_false_iff]
  intro mark
  rw [isDigit_of_nonword classes (mark_nonword classes mark)] at digit
  nomatch digit

/-! ## Ends of the parts of the pattern -/

@[simp] theorem digits_zero (next : Regex Char) (place : Place Char) :
    ((digits classes 0).followedBy next).ends place = next.ends place :=
  ends_nothing_followedBy next place

@[simp] theorem digits_succ (count : ℕ) (next : Regex Char) (before : Option Char)
    (character : Char) (rest : List Char) :
    ((digits classes (count + 1)).followedBy next).ends (before, character :: rest) =
      if classes.isDigit character then
        ((digits classes count).followedBy next).ends (some character, rest)
      else [] := by
  simp [digits, times]

@[simp] theorem digits_nil (count : ℕ) (next : Regex Char) (before : Option Char) :
    ((digits classes (count + 1)).followedBy next).ends (before, []) = [] := by
  simp [digits, times]

@[simp] theorem separator_ends (next : Regex Char) (before : Option Char) (character : Char)
    (rest : List Char) :
    (separator.followedBy next).ends (before, character :: rest) =
      (if isSeparator character then next.ends (some character, rest) else []) ++
        next.ends (before, character :: rest) := by
  simp [separator, Regex.optional]

@[simp] theorem separator_nil (next : Regex Char) (before : Option Char) :
    (separator.followedBy next).ends (before, []) = next.ends (before, []) := by
  simp [separator, Regex.optional]

@[simp] theorem wordBoundary_ends (before : Option Char) (text : List Char) :
    (wordBoundary classes).ends (before, text) =
      if before.any classes.isWord = text.head?.any classes.isWord then [] else [(before, text)] :=
  rfl

/-- The last group of digits. -/
def linePart : Regex Char :=
  sequence [digits classes 4, wordBoundary classes]

/-- The last two groups of digits. -/
def exchangePart : Regex Char :=
  sequence [digits classes 3, separator, digits classes 4, wordBoundary classes]

/-- The area code and what follows it. -/
def areaPart : Regex Char :=
  sequence [areaCode classes, separator, digits classes 3, separator, digits classes 4,
    wordBoundary classes]

theorem phoneRegex_parts : phoneRegex classes =
    (wordBoundary classes).followedBy
      ((Regex.optional countryCode).followedBy (areaPart classes)) := rfl

theorem gap_nonword {rest : List Char} (gap : Gap rest) :
    rest.head?.any classes.isWord = false := by
  cases rest with
  | nil => rfl
  | cons character rest => exact classes.word_of_whitespace character (gap character rfl)

theorem digits_stop {rest : List Char}
    (stop : ∀ character ∈ rest.head?, classes.isDigit character = false) (count : ℕ)
    (next : Regex Char) (before : Option Char) :
    ((digits classes (count + 1)).followedBy next).ends (before, rest) = [] := by
  cases rest with
  | nil => exact digits_nil classes count next before
  | cons character rest => simp [stop character rfl]

theorem gap_stop {rest : List Char} (gap : Gap rest) :
    ∀ character ∈ rest.head?, classes.isDigit character = false :=
  fun character first =>
    isDigit_of_nonword classes (classes.word_of_whitespace character (gap character first))

theorem digits_gap {rest : List Char} (gap : Gap rest) (count : ℕ) (next : Regex Char)
    (before : Option Char) :
    ((digits classes (count + 1)).followedBy next).ends (before, rest) = [] :=
  digits_stop classes (gap_stop classes gap) count next before

@[simp] theorem isWord_digitCharacter (digit : Fin 10) :
    classes.isWord (digitCharacter digit) = true :=
  classes.word_of_digit _ (isDigit_digitCharacter classes digit)

@[simp] theorem isSeparator_digitCharacter (digit : Fin 10) :
    isSeparator (digitCharacter digit) = false := by
  revert digit
  decide

@[simp] theorem digitCharacter_open (digit : Fin 10) : digitCharacter digit ≠ '(' := by
  revert digit
  decide

@[simp] theorem digitCharacter_plus (digit : Fin 10) : digitCharacter digit ≠ '+' := by
  revert digit
  decide

@[simp] theorem isWord_dash : classes.isWord '-' = false := mark_nonword classes rfl
@[simp] theorem isWord_dot : classes.isWord '.' = false := mark_nonword classes rfl
@[simp] theorem isWord_plus : classes.isWord '+' = false := mark_nonword classes rfl
@[simp] theorem isWord_open : classes.isWord '(' = false := mark_nonword classes rfl
@[simp] theorem isWord_close : classes.isWord ')' = false := mark_nonword classes rfl

@[simp] theorem isDigit_dash : classes.isDigit '-' = false :=
  isDigit_of_nonword classes (isWord_dash classes)

@[simp] theorem isDigit_dot : classes.isDigit '.' = false :=
  isDigit_of_nonword classes (isWord_dot classes)

@[simp] theorem isDigit_plus : classes.isDigit '+' = false :=
  isDigit_of_nonword classes (isWord_plus classes)

@[simp] theorem isDigit_open : classes.isDigit '(' = false :=
  isDigit_of_nonword classes (isWord_open classes)

@[simp] theorem isDigit_close : classes.isDigit ')' = false :=
  isDigit_of_nonword classes (isWord_close classes)

@[simp] theorem isDigit_one : classes.isDigit '1' = true := classes.digit_ascii '1' (by decide)

@[simp] theorem isWord_one : classes.isWord '1' = true :=
  classes.word_of_digit '1' (isDigit_one classes)

@[simp] theorem isSeparator_dash : isSeparator '-' = true := rfl
@[simp] theorem isSeparator_dot : isSeparator '.' = true := rfl

section

variable {rest : List Char} (digits : PhoneDigits) (before : Option Char)

/-- The last two groups end where the number does. -/
theorem exchange_ends (gap : Gap rest) (second : Divider) :
    (exchangePart classes).ends
        (before, digits.exchange ++ (second.text ++ (digits.line ++ rest))) =
      [(some (digitCharacter (digits 9)), rest)] := by
  cases second <;>
    simp [exchangePart, sequence, PhoneDigits.exchange, PhoneDigits.line, Divider.text,
      gap_nonword classes gap]

/-- The area code and what follows it end where the number does. -/
theorem area_ends (gap : Gap rest) (form : PhoneForm) :
    (areaPart classes).ends
        (before, form.areaText digits ++ (form.first.text ++ (digits.exchange ++
          (form.second.text ++ (digits.line ++ rest))))) =
      [(some (digitCharacter (digits 9)), rest)] := by
  obtain ⟨country, parentheses, first, second⟩ := form
  cases parentheses <;> cases first <;> cases second <;>
    simp [areaPart, areaCode, sequence, anyOf, PhoneForm.areaText, PhoneDigits.area,
      PhoneDigits.exchange, PhoneDigits.line, Divider.text, gap_nonword classes gap]

/-- Two digits of the area code are no area code. -/
theorem area_short (gap : Gap rest) (first second : Divider) :
    (areaPart classes).ends
        (before, digitCharacter (digits 1) :: digitCharacter (digits 2) ::
          (first.text ++ (digits.exchange ++ (second.text ++ (digits.line ++ rest))))) = [] := by
  cases first <;> cases second <;>
    simp [areaPart, areaCode, sequence, anyOf, PhoneDigits.exchange, PhoneDigits.line,
      Divider.text, digits_gap classes gap]

/-- The country code is no area code, and together with the area code it is too long. -/
theorem area_country (form : PhoneForm) (divider : Divider) :
    (areaPart classes).ends
        (before, '1' :: (divider.text ++ (form.areaText digits ++ (form.first.text ++
          (digits.exchange ++ (form.second.text ++ (digits.line ++ rest))))))) = [] := by
  obtain ⟨country, parentheses, first, second⟩ := form
  cases divider <;> cases parentheses <;> cases first <;> cases second <;>
    simp [areaPart, areaCode, sequence, anyOf, PhoneForm.areaText, PhoneDigits.area,
      PhoneDigits.exchange, PhoneDigits.line, Divider.text]

/-- The last two groups of the pattern end inside a number with a country code: behind seven
digits that stand together. -/
theorem exchange_number (form : PhoneForm) :
    (exchangePart classes).ends (before, form.number digits ++ rest) =
      if form.country = .one false .absent ∧ form.parentheses = false ∧ form.first = .absent ∧
          form.second ≠ .absent then
        [(some (digitCharacter (digits 5)), form.second.text ++ (digits.line ++ rest))]
      else [] := by
  obtain ⟨country, parentheses, first, second⟩ := form
  cases country with
  | absent =>
    cases parentheses <;> cases first <;> cases second <;>
      simp [exchangePart, sequence, PhoneForm.number, CountryCode.text, PhoneForm.areaText,
        PhoneDigits.area, PhoneDigits.exchange, PhoneDigits.line, Divider.text]
  | one plus divider =>
    cases plus with
    | true => simp [exchangePart, sequence, PhoneForm.number, CountryCode.text]
    | false =>
      cases divider <;> cases parentheses <;> cases first <;> cases second <;>
        simp [exchangePart, sequence, PhoneForm.number, CountryCode.text, PhoneForm.areaText,
          PhoneDigits.area, PhoneDigits.exchange, PhoneDigits.line, Divider.text]

/-- The last group of the pattern ends inside a number with a country code: behind four digits
that stand together. -/
theorem line_number (form : PhoneForm) :
    (linePart classes).ends (before, form.number digits ++ rest) =
      if form.country = .one false .absent ∧ form.parentheses = false ∧ form.first ≠ .absent then
        [(some (digitCharacter (digits 2)), form.first.text ++ (digits.exchange ++
          (form.second.text ++ (digits.line ++ rest))))]
      else [] := by
  obtain ⟨country, parentheses, first, second⟩ := form
  cases country with
  | absent =>
    cases parentheses <;> cases first <;> cases second <;>
      simp [linePart, sequence, PhoneForm.number, CountryCode.text, PhoneForm.areaText,
        PhoneDigits.area, PhoneDigits.exchange, PhoneDigits.line, Divider.text]
  | one plus divider =>
    cases plus with
    | true => simp [linePart, sequence, PhoneForm.number, CountryCode.text]
    | false =>
      cases divider <;> cases parentheses <;> cases first <;> cases second <;>
        simp [linePart, sequence, PhoneForm.number, CountryCode.text, PhoneForm.areaText,
          PhoneDigits.area, PhoneDigits.exchange, PhoneDigits.line, Divider.text]

/-- The area code of the pattern ends with a number without a country code, and on no other. -/
theorem area_number (gap : Gap rest) (form : PhoneForm) :
    (areaPart classes).ends (before, form.number digits ++ rest) =
      if form.country = .absent then [(some (digitCharacter (digits 9)), rest)] else [] := by
  cases country : form.country with
  | absent =>
    simpa [PhoneForm.number, country, CountryCode.text] using
      area_ends classes digits before gap form
  | one plus divider =>
    cases plus with
    | true =>
      simp [PhoneForm.number, country, CountryCode.text, areaPart, areaCode, sequence, anyOf]
    | false =>
      simpa [PhoneForm.number, country, CountryCode.text] using
        area_country classes digits before form divider

/-- A form whose first character is the parenthesis of the area code. -/
def PhoneForm.opensParenthesis (form : PhoneForm) : Bool :=
  form.country == .absent && form.parentheses

/-- A form whose first character is a plus. -/
def PhoneForm.plus (form : PhoneForm) : Bool :=
  match form.country with
  | .one true _ => true
  | _ => false

theorem widths_of_ends {re : Regex Char} {before last : Option Char} {text rest : List Char}
    (ended : re.ends (before, text ++ rest) = [(last, rest)]) :
    re.widths before (text ++ rest) = [text.length] := by
  simp [widths, ended]

/-- The country code of the pattern is a one that the number begins with. -/
theorem country_ends (next : Regex Char) (character : Char) :
    ((Regex.optional countryCode).followedBy next).ends (before, character :: rest) =
      (if character = '+' then
          ((anyOf "1").followedBy (separator.followedBy next)).ends (some character, rest)
          else []) ++
        (if character = '1' then (separator.followedBy next).ends (some character, rest) else []) ++
          next.ends (before, character :: rest) := by
  simp [Regex.optional, countryCode, sequence, anyOf]

/-- Behind the country code the pattern goes on to the end of the number. -/
theorem divider_area_ends (gap : Gap rest) (form : PhoneForm) (divider : Divider) :
    (separator.followedBy (areaPart classes)).ends
        (before, divider.text ++ (form.areaText digits ++ (form.first.text ++ (digits.exchange ++
          (form.second.text ++ (digits.line ++ rest)))))) =
      [(some (digitCharacter (digits 9)), rest)] := by
  have whole (before : Option Char) := area_ends classes digits before gap form
  have noArea (mark : Char) (nonword : classes.isWord mark = false) (other : mark ≠ '(')
      (text : List Char) : (areaPart classes).ends (before, mark :: text) = [] := by
    simp [areaPart, areaCode, sequence, anyOf, isDigit_of_nonword classes nonword, other]
  cases divider with
  | dash =>
    rw [Divider.text, List.singleton_append, separator_ends, whole,
      noArea '-' (isWord_dash classes) (by decide)]
    rfl
  | dot =>
    rw [Divider.text, List.singleton_append, separator_ends, whole,
      noArea '.' (isWord_dot classes) (by decide)]
    rfl
  | absent =>
    rw [Divider.text, List.nil_append]
    cases parentheses : form.parentheses with
    | true =>
      have whole := whole before
      simp only [PhoneForm.areaText, parentheses, if_true, List.cons_append] at whole ⊢
      rw [separator_ends, whole]
      rfl
    | false =>
      have whole := whole before
      simp only [PhoneForm.areaText, parentheses, PhoneDigits.area, List.cons_append] at whole ⊢
      simpa using whole

/-- A number that begins with a digit is matched whole. -/
theorem phone_number (gap : Gap rest) {form : PhoneForm} (proper : form.opensParenthesis = false)
    (unsigned : form.plus = false) (apart : before.any classes.isWord = false) :
    (phoneRegex classes).width before (form.number digits ++ rest) =
      some (form.number digits).length := by
  suffices first : ∃ more, (phoneRegex classes).ends (before, form.number digits ++ rest) =
      (some (digitCharacter (digits 9)), rest) :: more by
    obtain ⟨more, ended⟩ := first
    simp [width, widths, ended]
  rw [phoneRegex_parts, wordBoundary, ends_boundary_followedBy]
  cases country : form.country with
  | absent =>
    have bare : form.parentheses = false := by
      simpa [PhoneForm.opensParenthesis, country] using proper
    have whole := area_ends classes digits before gap form
    have short (before : Option Char) :=
      area_short classes digits before gap form.first form.second
    simp only [PhoneForm.number, country, CountryCode.text, PhoneForm.areaText, bare,
      Bool.false_eq_true, if_false, PhoneDigits.area, List.cons_append, List.nil_append] at whole ⊢
    simp [apart, country_ends, whole, short]
  | one plus divider =>
    obtain rfl : plus = false := by
      cases plus with
      | true => simp [PhoneForm.plus, country] at unsigned
      | false => rfl
    have whole (before : Option Char) := divider_area_ends classes digits before gap form divider
    simp only [PhoneForm.number, country, CountryCode.text, List.cons_append, List.append_assoc]
    simp [apart, country_ends, whole]

end

/-! ## What a match has left of a number -/

section

variable {rest : List Char} (digits : PhoneDigits) (before : Option Char)

/-- The last two groups of a number are no number. -/
theorem area_exchange (gap : Gap rest) (second : Divider) :
    (areaPart classes).ends
      (before, digits.exchange ++ (second.text ++ (digits.line ++ rest))) = [] := by
  cases second <;>
    simp [areaPart, areaCode, sequence, anyOf, PhoneDigits.exchange, PhoneDigits.line,
      Divider.text, digits_gap classes gap]

theorem area_line (gap : Gap rest) :
    (areaPart classes).ends (before, digits.line ++ rest) = [] := by
  simp [areaPart, areaCode, sequence, anyOf, PhoneDigits.line, digits_gap classes gap]

/-- An area code in parentheses is no area code behind its parenthesis. -/
theorem area_closed :
    (areaPart classes).ends (before, digits.area ++ ')' :: rest) = [] := by
  simp [areaPart, areaCode, sequence, anyOf, PhoneDigits.area, isSeparator, Texts.isWhitespace]

end

/-! ## What the pattern reads -/

theorem reads_digits (count : ℕ) (character : Char) :
    (digits classes count).reads character = (decide (0 < count) && classes.isDigit character) := by
  induction count with
  | zero => rfl
  | succ count inductionHypothesis =>
    rw [digits, times, reads, ← digits, inductionHypothesis, reads]
    cases classes.isDigit character <;> simp

theorem reads_anyOf (characters : String) (character : Char) :
    (anyOf characters).reads character = characters.toList.contains character := rfl

/-- Behind white space one of three parts of the pattern remains. -/
theorem phone_remainders {wall : Char} (space : Texts.isWhitespace wall = true) :
    (phoneRegex classes).remainders wall = [Regex.nothing.followedBy (areaPart classes),
      Regex.nothing.followedBy (exchangePart classes),
      Regex.nothing.followedBy (linePart classes)] := by
  have nondigit := isDigit_of_nonword classes (classes.word_of_whitespace wall space)
  have noDigits (count : ℕ) : (digits classes count).remainders wall = [] :=
    remainders_of_reads (by rw [reads_digits, nondigit, Bool.and_false])
  have noMark (characters : String)
      (marks : ∀ mark ∈ characters.toList, Texts.isWhitespace mark = false) :
      (anyOf characters).remainders wall = [] := by
    refine remainders_of_reads ?_
    rw [reads_anyOf, Bool.eq_false_iff, ne_eq, List.contains_iff_mem]
    intro mark
    rw [marks wall mark] at space
    nomatch space
  have separates : isSeparator wall = true := by rw [isSeparator, space, Bool.or_true]
  simp [phoneRegex, areaPart, exchangePart, linePart, sequence, remainders, wordBoundary,
    Regex.optional, countryCode, separator, areaCode, separates, noDigits,
    noMark "+" (by decide), noMark "1" (by decide), noMark "(" (by decide),
    noMark ")" (by decide)]

end Memcore
