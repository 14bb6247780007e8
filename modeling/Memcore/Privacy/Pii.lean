import Memcore.Foundations.Regexes
import Memcore.Foundations.Texts

/-!
# Redaction of personal data

Before a text is given to the extraction model, five patterns are replaced in it one after
the other: bearer tokens, keys of an API, e-mail addresses, phone numbers and card numbers.
Texts are lists of characters. The Unicode classes of digits and of word characters belong to
the library of regular expressions and stay parameters.
-/
namespace Memcore

open Regexes

/-- The classes `\\d` and `\\w` of the library of regular expressions. -/
structure UnicodeClasses where
  isDigit : Char → Bool
  isWord : Char → Bool
  digit_ascii : ∀ character, character.toNat < 128 → isDigit character = character.isDigit
  word_ascii : ∀ character, character.toNat < 128 →
    isWord character = (character.isAlphanum || character == '_')
  word_of_digit : ∀ character, isDigit character → isWord character
  word_of_whitespace : ∀ character, Texts.isWhitespace character → isWord character = false

/-- White space is no letter, no digit and no underscore. -/
theorem ascii_word_of_whitespace {character : Char} (space : Texts.isWhitespace character = true) :
    (character.isAlphanum || character == '_') = false := by
  rw [Bool.eq_false_iff]
  intro word
  simp only [Texts.isWhitespace, Bool.or_eq_true, Bool.and_eq_true, decide_eq_true_eq,
    beq_iff_eq] at space
  obtain letter | rfl := (Bool.or_eq_true_iff.mp word).imp_right beq_iff_eq.mp
  · unfold Char.isAlphanum Char.isAlpha Char.isUpper Char.isLower Char.isDigit at letter
    simp only [Bool.or_eq_true, Bool.and_eq_true, decide_eq_true_eq, ge_iff_le, UInt32.le_iff_toNat_le,
      Char.toNat_val] at letter
    simp at letter
    omega
  · simp at space

/-- The classes on ASCII texts. -/
def asciiClasses : UnicodeClasses where
  isDigit := Char.isDigit
  isWord character := character.isAlphanum || character == '_'
  digit_ascii _ _ := rfl
  word_ascii _ _ := rfl
  word_of_digit character digit := by simp [Char.isAlphanum, digit]
  word_of_whitespace _ space := ascii_word_of_whitespace space

def redactedEmail : List Char := "[REDACTED_EMAIL]".toList

def redactedPhone : List Char := "[REDACTED_PHONE]".toList

def redactedCard : List Char := "[REDACTED_CARD]".toList

def redactedSecret : List Char := "[REDACTED_SECRET]".toList

def redactedBearer : List Char := "Bearer ".toList ++ redactedSecret

/-- A character of a set. -/
def anyOf (characters : String) : Regex Char :=
  .one fun character => characters.toList.contains character

/-- Expressions one after the other. -/
def sequence : List (Regex Char) → Regex Char
  | [] => .nothing
  | [re] => re
  | re :: rest => re.followedBy (sequence rest)

/-- The characters of a text. -/
def literal (text : String) : Regex Char :=
  sequence (text.toList.map fun character => .one (· == character))

/-- The characters of a text, whatever their case. -/
def caseless (text : String) : Regex Char :=
  sequence (text.toList.map fun character => .one fun other => other.toLower == character.toLower)

/-- The class `[A-Za-z0-9._=-]`. Without regard to case the letters `k` and `s` stand for the
Kelvin sign and the long s too. -/
def isTokenCharacter (character : Char) : Bool :=
  character.isAlphanum || "._=-\u212A\u017F".toList.contains character

/-- The class `[A-Za-z0-9._%+-]`. -/
def isLocalCharacter (character : Char) : Bool :=
  character.isAlphanum || "._%+-".toList.contains character

/-- The class `[A-Za-z0-9.-]`. -/
def isDomainCharacter (character : Char) : Bool :=
  character.isAlphanum || ".-".toList.contains character

def bearerRegex : Regex Char :=
  sequence [caseless "Bearer", .run Texts.isWhitespace 1, .run isTokenCharacter 1]

section

variable (classes : UnicodeClasses)

def wordBoundary : Regex Char := .boundary classes.isWord

def apiKeyRegex : Regex Char :=
  sequence [wordBoundary classes, .orElse (literal "sk") (.orElse (literal "pk") (literal "api")),
    anyOf "-_", .run Char.isAlphanum 16, wordBoundary classes]

def emailRegex : Regex Char :=
  sequence [wordBoundary classes, .run isLocalCharacter 1, anyOf "@", .run isDomainCharacter 1,
    anyOf ".", .run Char.isAlpha 2, wordBoundary classes]

def digits (count : ℕ) : Regex Char :=
  .times count (.one classes.isDigit)

/-- The class `[-.\\s]`. -/
def isSeparator (character : Char) : Bool :=
  "-.".toList.contains character || Texts.isWhitespace character

def separator : Regex Char := .optional (.one isSeparator)

/-- The country code `\\+?1` with the separator behind it. -/
def countryCode : Regex Char :=
  sequence [.optional (anyOf "+"), anyOf "1", separator]

/-- Three digits, in parentheses or without them. -/
def areaCode : Regex Char :=
  .orElse (sequence [anyOf "(", digits classes 3, anyOf ")"]) (digits classes 3)

def phoneRegex : Regex Char :=
  sequence [wordBoundary classes, .optional countryCode, areaCode classes, separator,
    digits classes 3, separator, digits classes 4, wordBoundary classes]

/-- The class `[-\\s]`. -/
def isCardSeparator (character : Char) : Bool :=
  character == '-' || Texts.isWhitespace character

def cardSeparator : Regex Char := .optional (.one isCardSeparator)

def cardRegex : Regex Char :=
  sequence [wordBoundary classes,
    .times 3 (.followedBy (digits classes 4) cardSeparator), digits classes 4,
    wordBoundary classes]

/-- Redact a text. -/
def redactText (input : List Char) : List Char :=
  let text := bearerRegex.replaceAll redactedBearer input
  let text := (apiKeyRegex classes).replaceAll redactedSecret text
  let text := (emailRegex classes).replaceAll redactedEmail text
  let text := (phoneRegex classes).replaceAll redactedPhone text
  (cardRegex classes).replaceAll redactedCard text

end

end Memcore
