import Mathlib.Data.Nat.Notation
import Mathlib.Data.Rat.Floor

/-!
# Texts

Operations on strings as the source language's standard library defines them.
Each works on the list of characters, so that it can be evaluated and reasoned
about by recursion on lists. Sizes in bytes are those of the UTF-8 encoding.
-/
namespace Texts

/-! What holds of all characters of a text, or of one of them, is decided by reading the text,
not by trying every character there is. -/

instance (priority := 1100) decidableAll (text : List Char) (holds : Char → Prop)
    [DecidablePred holds] : Decidable (∀ character ∈ text, holds character) :=
  List.decidableBAll holds text

instance (priority := 1100) decidableAny (text : List Char) (holds : Char → Prop)
    [DecidablePred holds] : Decidable (∃ character ∈ text, holds character) :=
  List.decidableBEx holds text

instance (priority := 1100) decidableAllOf (found : Option Char) (holds : Char → Prop)
    [DecidablePred holds] : Decidable (∀ character ∈ found, holds character) :=
  Option.decidableForallMem found

instance (priority := 1100) decidableAnyOf (found : Option Char) (holds : Char → Prop)
    [DecidablePred holds] : Decidable (∃ character ∈ found, holds character) :=
  Option.decidableExistsMem found

/-- Characters with the Unicode property `White_Space`. -/
def isWhitespace (character : Char) : Bool :=
  let code := character.toNat
  (9 ≤ code && code ≤ 13) || code == 32 || code == 0x85 || code == 0xA0 || code == 0x1680 ||
    (0x2000 ≤ code && code ≤ 0x200A) || code == 0x2028 || code == 0x2029 || code == 0x202F ||
    code == 0x205F || code == 0x3000

/-- Remove characters that satisfy a test from the end. -/
def trimEndMatches (drops : Char → Bool) (text : String) : String :=
  String.ofList (text.toList.reverse.dropWhile drops).reverse

/-- Remove whitespace from both ends. -/
def trim (text : String) : String :=
  trimEndMatches isWhitespace (String.ofList (text.toList.dropWhile isWhitespace))

/-- A text is blank when nothing but whitespace is in it. -/
def isBlank (text : String) : Bool :=
  trim text == ""

/-- Lowercase for the letters A to Z; all other characters are kept. -/
def toAsciiLowercase (text : String) : String :=
  String.ofList (text.toList.map Char.toLower)

/-- Whether one text begins with another. -/
def startsWith (text start : String) : Bool :=
  start.toList.isPrefixOf text.toList

/-- Whether a list of characters occurs somewhere in another one. -/
def occursIn (needle : List Char) : List Char → Bool
  | [] => needle.isEmpty
  | character :: rest => needle.isPrefixOf (character :: rest) || occursIn needle rest

/-- Whether one text occurs somewhere in another. -/
def contains (text needle : String) : Bool :=
  occursIn needle.toList text.toList

/-- Split into words. The second argument holds the current word, reversed. -/
def splitWords : List Char → List Char → List String
  | [], [] => []
  | [], word => [String.ofList word.reverse]
  | character :: rest, word =>
      if isWhitespace character then
        if word.isEmpty then splitWords rest []
        else String.ofList word.reverse :: splitWords rest []
      else splitWords rest (character :: word)

/-- The maximal stretches without whitespace. -/
def splitWhitespace (text : String) : List String :=
  splitWords text.toList []

/-- Split at a separator. The second argument holds the current piece, reversed. -/
def splitPieces (separator : Char) : List Char → List Char → List String
  | [], piece => [String.ofList piece.reverse]
  | character :: rest, piece =>
      if character = separator then
        String.ofList piece.reverse :: splitPieces separator rest []
      else splitPieces separator rest (character :: piece)

/-- All pieces between separators, the empty ones included. -/
def split (separator : Char) (text : String) : List String :=
  splitPieces separator text.toList []

/-- Put a separator between neighbours. -/
def join (separator : String) : List String → String
  | [] => ""
  | [text] => text
  | text :: rest => text ++ separator ++ join separator rest

/-- What stands for a character when one character is replaced by a text. -/
def replaceCharacter (wanted : Char) (replacement : String) (character : Char) : List Char :=
  if character = wanted then replacement.toList else [character]

/-- Replace every occurrence of a character by a text. -/
def replace (wanted : Char) (replacement text : String) : String :=
  String.ofList (text.toList.flatMap (replaceCharacter wanted replacement))

/-- The first characters of a text, at most as many as asked for. -/
def take (count : ℕ) (text : String) : String :=
  String.ofList (text.toList.take count)

/-- Nearest integer; the even one of two that are equally near. -/
def roundHalfEven (value : ℚ) : ℤ :=
  let below := ⌊value⌋
  let rest := value - below
  if rest < 1 / 2 then below
  else if 1 / 2 < rest then below + 1
  else if below % 2 = 0 then below
  else below + 1

/-- A number with two digits after the point. -/
def twoDecimals (value : ℚ) : String :=
  let scaled := (roundHalfEven (value * 100)).natAbs
  let digits := toString (scaled % 100)
  (if value < 0 then "-" else "") ++ toString (scaled / 100) ++ "." ++
    (if digits.length < 2 then "0" ++ digits else digits)

attribute [grind =] occursIn splitWords splitPieces join

@[simp] theorem toList_toAsciiLowercase (text : String) :
    (toAsciiLowercase text).toList = text.toList.map Char.toLower := by
  simp only [toAsciiLowercase, String.toList_ofList]

/-- The characters of the parts, and a separator for each part but the first. -/
theorem length_join (separator : String) (texts : List String) :
    (join separator texts).length =
      (texts.map String.length).sum + separator.length * (texts.length - 1) := by
  induction texts with
  | nil => rfl
  | cons text rest inductionHypothesis =>
    cases rest with
    | nil => simp [join]
    | cons next rest =>
      simp only [join, String.length_append, inductionHypothesis, List.map_cons, List.sum_cons,
        List.length_cons, Nat.add_sub_cancel, Nat.mul_add, Nat.mul_one]
      omega

theorem length_join_perm (separator : String) {texts others : List String}
    (same : texts.Perm others) :
    (join separator texts).length = (join separator others).length := by
  rw [length_join, length_join, (same.map String.length).sum_nat, same.length_eq]

/-- More parts make no shorter text. -/
theorem length_join_le_append (separator : String) (texts more : List String) :
    (join separator texts).length ≤ (join separator (texts ++ more)).length := by
  rw [length_join, length_join, List.map_append, List.sum_append, List.length_append]
  have separators : separator.length * (texts.length - 1) ≤
      separator.length * (texts.length + more.length - 1) :=
    Nat.mul_le_mul_left _ (by omega)
  omega

/-- A joined text begins with its first part. -/
theorem toList_join_cons (separator text : String) (rest : List String) :
    ∃ more, (join separator (text :: rest)).toList = text.toList ++ more := by
  cases rest with
  | nil => exact ⟨[], by simp [join]⟩
  | cons next rest =>
    exact ⟨separator.toList ++ (join separator (next :: rest)).toList, by simp [join]⟩

/-! ## What a text adds to the occurrences of a needle -/

/-- No occurrence of the needle begins in the text, whatever stands after it. -/
def clearOf (needle : List Char) : List Char → Bool
  | [] => true
  | character :: rest =>
      !needle.isPrefixOf (character :: rest) && !(character :: rest).isPrefixOf needle &&
        clearOf needle rest

/-- Neither of two lists begins with the other, so no continuation changes that. -/
theorem isPrefixOf_append_of_apart {needle text : List Char}
    (notBegun : needle.isPrefixOf text = false) (notWithin : text.isPrefixOf needle = false)
    (rest : List Char) : needle.isPrefixOf (text ++ rest) = false := by
  induction text generalizing needle with
  | nil => simp at notWithin
  | cons character text inductionHypothesis =>
    cases needle with
    | nil => simp at notBegun
    | cons symbol needle =>
      simp only [List.isPrefixOf, List.cons_append, Bool.and_eq_false_iff] at notBegun notWithin ⊢
      by_cases same : symbol = character
      · subst same
        simp only [beq_self_eq_true, Bool.true_eq_false, false_or] at notBegun notWithin ⊢
        exact inductionHypothesis notBegun notWithin
      · exact .inl (beq_false_of_ne same)

/-- A text that is clear of a needle may be dropped from the beginning. -/
theorem occursIn_append_of_clear {needle text : List Char} (clear : clearOf needle text = true)
    (rest : List Char) : occursIn needle (text ++ rest) = occursIn needle rest := by
  induction text with
  | nil => rfl
  | cons character text inductionHypothesis =>
    simp only [clearOf, Bool.and_eq_true, Bool.not_eq_true'] at clear
    obtain ⟨⟨notBegun, notWithin⟩, remains⟩ := clear
    have apart := isPrefixOf_append_of_apart notBegun notWithin rest
    rw [List.cons_append] at apart ⊢
    rw [occursIn, apart, Bool.false_or]
    exact inductionHypothesis remains

/-- A text is clear of a needle whose first character does not occur in it. -/
theorem clearOf_of_first_absent {symbol : Char} {needle text : List Char}
    (absent : symbol ∉ text) : clearOf (symbol :: needle) text = true := by
  induction text with
  | nil => rfl
  | cons character text inductionHypothesis =>
    rw [List.mem_cons, not_or] at absent
    have forwards : (symbol == character) = false := beq_false_of_ne absent.1
    have backwards : (character == symbol) = false := beq_false_of_ne (Ne.symm absent.1)
    simp [clearOf, List.isPrefixOf, forwards, backwards, inductionHypothesis absent.2]

/-- The decimal digits of a number. -/
theorem isDigit_of_mem_toString {number : ℕ} {character : Char}
    (member : character ∈ (toString number).toList) : character.isDigit = true := by
  rw [Nat.toString_eq_ofList_toDigits, String.toList_ofList] at member
  exact Nat.isDigit_of_mem_toDigits (by decide) (by decide) member

example : trim "  a b\n" = "a b" := by decide

example : splitWhitespace " one  two " = ["one", "two"] := by decide

end Texts
