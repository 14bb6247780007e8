import Memcore.Domain.Json

/-!
# A reader of compact JSON texts

The reader inverts the printer. It reads one value and hands back what follows it; a text is
read when nothing follows. How a fraction is read is a parameter, as it is how a fraction is
written, and a value is read back as it was up to its fractions.
-/
namespace Memcore

namespace Value

/-! ## Numbers -/

/-- A character of a number. -/
def isNumberCharacter (character : Char) : Bool :=
  character.isDigit || decide (character ∈ ['-', '+', '.', 'e', 'E'])

def naturalOf (digits : List Char) : Option ℕ :=
  if digits.isEmpty || !digits.all Char.isDigit then none
  else some (Nat.ofDigitChars 10 digits 0)

def integerOf : List Char → Option ℤ
  | '-' :: digits => (naturalOf digits).map fun value => -(value : ℤ)
  | digits => (naturalOf digits).map fun value => (value : ℤ)

/-- An integer, or else a fraction. -/
def readNumber (readFloat : String → Option ℚ) (text : List Char) : Option (Value × List Char) :=
  let token := text.takeWhile isNumberCharacter
  let rest := text.dropWhile isNumberCharacter
  match integerOf token with
  | some value => some (.integer value, rest)
  | none => (readFloat (String.ofList token)).map fun value => (.float value, rest)

/-- Nothing that could go on with a number. -/
def Ends (rest : List Char) : Prop := ∀ character ∈ rest.head?, isNumberCharacter character = false

theorem ends_cons {character : Char} (other : isNumberCharacter character = false)
    (rest : List Char) : Ends (character :: rest) := by
  intro first isFirst
  rw [← Option.some.inj isFirst]
  exact other

theorem takeWhile_token {token rest : List Char} (number : ∀ character ∈ token,
    isNumberCharacter character = true) (ends : Ends rest) :
    (token ++ rest).takeWhile isNumberCharacter = token ∧
      (token ++ rest).dropWhile isNumberCharacter = rest := by
  induction token with
  | nil =>
    cases rest with
    | nil => exact ⟨rfl, rfl⟩
    | cons character rest =>
      have other := ends character rfl
      simp [other]
  | cons character token inductionHypothesis =>
    obtain ⟨taken, dropped⟩ := inductionHypothesis fun other member =>
      number other (List.mem_cons_of_mem _ member)
    have first := number character List.mem_cons_self
    simp [first, taken, dropped]

theorem naturalOf_repr (value : ℕ) : naturalOf value.repr.toList = some value := by
  rw [Nat.toList_repr]
  have digits : (Nat.toDigits 10 value).all Char.isDigit = true :=
    List.all_eq_true.mpr fun _ member =>
      Nat.isDigit_of_mem_toDigits (by decide) (by decide) member
  have some : (Nat.toDigits 10 value).isEmpty = false := by
    rw [List.isEmpty_eq_false_iff]
    exact Nat.toDigits_ne_nil
  rw [naturalOf, digits, some, Nat.ofDigitChars_ten_toDigits]
  rfl

theorem isNumberCharacter_digit {character : Char} (digit : character.isDigit = true) :
    isNumberCharacter character = true := by
  rw [isNumberCharacter, digit, Bool.true_or]

/-- An integer is written as a number that is read as the integer. -/
theorem integerOf_toString (value : ℤ) :
    integerOf (toString value).toList = some value ∧
      ∀ character ∈ (toString value).toList, isNumberCharacter character = true := by
  have natural (number : ℕ) : ∀ character ∈ number.repr.toList,
      isNumberCharacter character = true := by
    intro character member
    rw [Nat.toList_repr] at member
    exact isNumberCharacter_digit (Nat.isDigit_of_mem_toDigits (by decide) (by decide) member)
  cases value with
  | ofNat number =>
    refine ⟨?_, natural number⟩
    show integerOf number.repr.toList = some (number : ℤ)
    have read := naturalOf_repr number
    unfold integerOf
    split
    · next digits same =>
      exfalso
      have sign : '-' ∈ number.repr.toList := by rw [same]; exact List.mem_cons_self
      rw [Nat.toList_repr] at sign
      have digit := Nat.isDigit_of_mem_toDigits (by decide) (by decide) sign
      exact absurd digit (by decide)
    · rw [read]
      rfl
  | negSucc number =>
    have text : (toString (Int.negSucc number)).toList = '-' :: (number + 1).repr.toList := by
      show ("-" ++ (number + 1).repr).toList = _
      rw [String.toList_append]
      rfl
    rw [text]
    constructor
    · rw [integerOf, naturalOf_repr]
      rfl
    · rintro character (_ | ⟨_, member⟩)
      · decide
      · exact natural (number + 1) character member

/-! ## Texts -/

def hexValue (character : Char) : Option ℕ :=
  if character.isDigit then some (character.toNat - 48)
  else if 'a' ≤ character ∧ character ≤ 'f' then some (character.toNat - 87)
  else if 'A' ≤ character ∧ character ≤ 'F' then some (character.toNat - 55)
  else none

/-- The character of four hexadecimal digits. -/
def hexCharacter (first second third fourth : Char) : Option Char := do
  let code := (((← hexValue first) * 16 + (← hexValue second)) * 16 + (← hexValue third)) * 16 +
    (← hexValue fourth)
  if code.isValidChar then some (Char.ofNat code) else none

/-- The character that a letter behind a backslash stands for. -/
def unescaped : Char → Option Char
  | '"' => some '"'
  | '\\' => some '\\'
  | '/' => some '/'
  | 'b' => some (Char.ofNat 8)
  | 't' => some '\t'
  | 'n' => some '\n'
  | 'f' => some (Char.ofNat 12)
  | 'r' => some '\r'
  | _ => none

/-- The characters up to the closing quote, and what follows it. -/
def readText : List Char → Option (List Char × List Char)
  | [] => none
  | '"' :: rest => some ([], rest)
  | '\\' :: 'u' :: first :: second :: third :: fourth :: rest => do
      let character ← hexCharacter first second third fourth
      (readText rest).map fun read => (character :: read.1, read.2)
  | '\\' :: letter :: rest => do
      let character ← unescaped letter
      (readText rest).map fun read => (character :: read.1, read.2)
  | character :: rest =>
      if character.toNat < 32 then none
      else (readText rest).map fun read => (character :: read.1, read.2)

/-- A character that is written with its number is read from it. -/
theorem hexCharacter_digitChar : ∀ code < 32,
    hexCharacter '0' '0' (Nat.digitChar (code / 16 % 16)) (Nat.digitChar (code % 16)) =
      some (Char.ofNat code) := by
  decide

theorem readText_hex (first second third fourth : Char) (rest : List Char) :
    readText ('\\' :: 'u' :: first :: second :: third :: fourth :: rest) =
      (hexCharacter first second third fourth).bind fun character =>
        (readText rest).map fun read => (character :: read.1, read.2) := rfl

theorem readText_letter {letter : Char} (other : letter ≠ 'u') (rest : List Char) :
    readText ('\\' :: letter :: rest) = (unescaped letter).bind fun character =>
      (readText rest).map fun read => (character :: read.1, read.2) := by
  rw [readText]
  · rfl
  · rintro _ _ _ _ _ rfl
    exact absurd rfl other

theorem readText_plain {character : Char} (quote : character ≠ '"') (backslash : character ≠ '\\')
    (printable : 32 ≤ character.toNat) (rest : List Char) :
    readText (character :: rest) = (readText rest).map fun read => (character :: read.1, read.2) := by
  rw [readText, if_neg (by omega)]
  · exact quote
  · rintro _ _ _ _ _ rfl
    exact absurd rfl backslash
  · rintro _ _ rfl
    exact absurd rfl backslash

/-- An escaped character is read back. -/
theorem readText_escapeCharacter (character : Char) (rest : List Char) :
    readText ((escapeCharacter character).toList ++ rest) =
      (readText rest).map fun read => (character :: read.1, read.2) := by
  have known {code : ℕ} (same : character.toNat = code) : character = Char.ofNat code := by
    rw [← same, Char.ofNat_toNat]
  unfold escapeCharacter
  split
  · next same =>
    rw [known same]
    exact @readText_letter '"' (by decide) rest
  · next same =>
    rw [known same]
    exact @readText_letter '\\' (by decide) rest
  · next same =>
    rw [known same]
    exact @readText_letter 'b' (by decide) rest
  · next same =>
    rw [known same]
    exact @readText_letter 't' (by decide) rest
  · next same =>
    rw [known same]
    exact @readText_letter 'n' (by decide) rest
  · next same =>
    rw [known same]
    exact @readText_letter 'f' (by decide) rest
  · next same =>
    rw [known same]
    exact @readText_letter 'r' (by decide) rest
  · next quote backslash _ _ _ _ _ =>
    by_cases control : character.toNat < 32
    · rw [if_pos control]
      simp only [String.toList_append, String.toList_ofList]
      show readText ('\\' :: 'u' :: '0' :: '0' :: Nat.digitChar (character.toNat / 16 % 16) ::
        Nat.digitChar (character.toNat % 16) :: rest) = _
      rw [readText_hex, hexCharacter_digitChar _ control, Char.ofNat_toNat]
      rfl
    · rw [if_neg control, String.toList_singleton]
      apply readText_plain _ _ (by omega)
      · rintro rfl
        exact quote rfl
      · rintro rfl
        exact backslash rfl

theorem toList_join_empty (texts : List String) :
    (Texts.join "" texts).toList = texts.flatMap String.toList := by
  induction texts with
  | nil => rfl
  | cons text texts inductionHypothesis =>
    cases texts with
    | nil => simp [Texts.join]
    | cons next texts =>
      rw [Texts.join, String.toList_append, String.toList_append, inductionHypothesis,
        List.flatMap_cons]
      · simp
      · simp

/-- A text is read back from behind its opening quote. -/
theorem readText_printText (text : String) (rest : List Char) :
    readText ((Texts.join "" (text.toList.map escapeCharacter)).toList ++ '"' :: rest) =
      some (text.toList, rest) := by
  rw [toList_join_empty]
  induction text.toList with
  | nil => rfl
  | cons character characters inductionHypothesis =>
    rw [List.map_cons, List.flatMap_cons, List.append_assoc, readText_escapeCharacter,
      inductionHypothesis]
    rfl

/-! ## Values -/

mutual

/-- Read one value. The fuel bounds the length of what is read. -/
def readValue (readFloat : String → Option ℚ) : ℕ → List Char → Option (Value × List Char)
  | 0, _ => none
  | _ + 1, 'n' :: 'u' :: 'l' :: 'l' :: rest => some (null, rest)
  | _ + 1, 't' :: 'r' :: 'u' :: 'e' :: rest => some (bool true, rest)
  | _ + 1, 'f' :: 'a' :: 'l' :: 's' :: 'e' :: rest => some (bool false, rest)
  | _ + 1, '"' :: rest =>
      (readText rest).map fun read => (string (String.ofList read.1), read.2)
  | _ + 1, '[' :: ']' :: rest => some (array [], rest)
  | fuel + 1, '[' :: rest =>
      (readItems readFloat fuel rest).map fun read => (array read.1, read.2)
  | _ + 1, '\x7b' :: '\x7d' :: rest => some (object [], rest)
  | fuel + 1, '\x7b' :: rest =>
      (readMembers readFloat fuel rest).map fun read => (object read.1, read.2)
  | _ + 1, rest => readNumber readFloat rest

/-- Read the items up to the closing bracket. -/
def readItems (readFloat : String → Option ℚ) : ℕ → List Char → Option (List Value × List Char)
  | 0, _ => none
  | fuel + 1, text =>
      match readValue readFloat fuel text with
      | some (item, ']' :: rest) => some ([item], rest)
      | some (item, ',' :: rest) =>
          (readItems readFloat fuel rest).map fun read => (item :: read.1, read.2)
      | _ => none

/-- Read the members up to the closing brace. -/
def readMembers (readFloat : String → Option ℚ) :
    ℕ → List Char → Option (List (String × Value) × List Char)
  | 0, _ => none
  | fuel + 1, '"' :: text =>
      match readText text with
      | some (key, ':' :: text) =>
          match readValue readFloat fuel text with
          | some (value, '\x7d' :: rest) => some ([(String.ofList key, value)], rest)
          | some (value, ',' :: rest) =>
              (readMembers readFloat fuel rest).map fun read =>
                ((String.ofList key, value) :: read.1, read.2)
          | _ => none
      | _ => none
  | _ + 1, _ => none

end

/-- Read a text that is one value. -/
def read (readFloat : String → Option ℚ) (text : String) : Option Value :=
  match readValue readFloat (text.length + 1) text.toList with
  | some (value, []) => some value
  | _ => none

mutual

/-- Change the fractions in a value. -/
def mapFloats (change : ℚ → ℚ) : Value → Value
  | null => null
  | bool value => bool value
  | integer value => integer value
  | float value => float (change value)
  | string value => string value
  | array items => array (mapItems change items)
  | object members => object (mapMembers change members)

def mapItems (change : ℚ → ℚ) : List Value → List Value
  | [] => []
  | item :: items => mapFloats change item :: mapItems change items

def mapMembers (change : ℚ → ℚ) : List (String × Value) → List (String × Value)
  | [] => []
  | (key, value) :: members => (key, mapFloats change value) :: mapMembers change members

end

/-- Fractions are written as numbers that are not those of integers, and read back up to a
change. -/
structure FloatTexts (formatFloat : ℚ → String) (readFloat : String → Option ℚ)
    (change : ℚ → ℚ) : Prop where
  present : ∀ value, (formatFloat value).toList ≠ []
  number : ∀ value, ∀ character ∈ (formatFloat value).toList, isNumberCharacter character = true
  fraction : ∀ value, integerOf (formatFloat value).toList = none
  read : ∀ value, readFloat (formatFloat value) = some (change value)

/-- A way to print floats that can be read, though not told apart. -/
theorem floatTexts_constant :
    FloatTexts (fun _ => "0.0") (fun _ => some 0) (fun _ => 0) where
  present := fun _ => by decide
  number := fun _ => by decide
  fraction := fun _ => by decide
  read := fun _ => rfl

section RoundTrip

variable {formatFloat : ℚ → String} {readFloat : String → Option ℚ} {change : ℚ → ℚ}

/-- A text that begins like a number is read as one. -/
theorem readValue_number {character : Char} (number : isNumberCharacter character = true)
    (fuel : ℕ) (rest : List Char) :
    readValue readFloat (fuel + 1) (character :: rest) = readNumber readFloat (character :: rest) := by
  have other {fixed : Char} (isOther : isNumberCharacter fixed = false) : character ≠ fixed := by
    rintro rfl
    rw [number] at isOther
    nomatch isOther
  rw [readValue]
  all_goals
    intro _ same
    exact other (by decide) (List.cons.inj same).1

/-- A token is read as a number. -/
theorem readValue_token {token rest : List Char} (present : token ≠ [])
    (number : ∀ character ∈ token, isNumberCharacter character = true) (fuel : ℕ)
    (ends : Ends rest) :
    readValue readFloat (fuel + 1) (token ++ rest) = match integerOf token with
      | some value => some (integer value, rest)
      | none => (readFloat (String.ofList token)).map fun value => (float value, rest) := by
  obtain ⟨character, token, rfl⟩ := List.exists_cons_of_ne_nil present
  obtain ⟨taken, dropped⟩ := takeWhile_token number ends
  rw [List.cons_append] at taken dropped ⊢
  rw [readValue_number (number character List.mem_cons_self), readNumber, taken, dropped]

theorem toList_printText (text : String) : (printText text).toList =
    '"' :: ((Texts.join "" (text.toList.map escapeCharacter)).toList ++ ['"']) := by
  rw [printText, String.toList_append, String.toList_append]
  rfl

theorem toList_print_array (formatFloat : ℚ → String) (items : List Value) :
    (print formatFloat (array items)).toList =
      '[' :: ((Texts.join "," (printItems formatFloat items)).toList ++ [']']) := by
  rw [print, String.toList_append, String.toList_append]
  rfl

theorem toList_print_object (formatFloat : ℚ → String) (members : List (String × Value)) :
    (print formatFloat (object members)).toList =
      '\x7b' :: ((Texts.join "," (printMembers formatFloat members)).toList ++ ['\x7d']) := by
  rw [print, String.toList_append, String.toList_append]
  rfl

/-- What a printed value begins with. -/
theorem print_opens (floats : FloatTexts formatFloat readFloat change) (value : Value) :
    ∃ character rest, (print formatFloat value).toList = character :: rest ∧ character ≠ ']' := by
  have number {text : String} (some : text.toList ≠ [])
      (all : ∀ character ∈ text.toList, isNumberCharacter character = true) :
      ∃ character rest, text.toList = character :: rest ∧ character ≠ ']' := by
    obtain ⟨character, rest, opens⟩ := List.exists_cons_of_ne_nil some
    refine ⟨character, rest, opens, ?_⟩
    rintro rfl
    have isNumber := all ']' (by rw [opens]; exact List.mem_cons_self)
    exact absurd isNumber (by decide)
  cases value with
  | null =>
    rw [print]
    exact ⟨'n', "ull".toList, by decide, by decide⟩
  | bool value =>
    cases value with
    | false =>
      rw [print]
      exact ⟨'f', "alse".toList, by decide, by decide⟩
    | true =>
      rw [print]
      exact ⟨'t', "rue".toList, by decide, by decide⟩
  | integer value =>
    obtain ⟨read, all⟩ := integerOf_toString value
    rw [print]
    apply number _ all
    intro empty
    rw [empty] at read
    cases read
  | float value => exact number (floats.present value) (floats.number value)
  | string value => exact ⟨'"', _, toList_printText value, by decide⟩
  | array items => exact ⟨'[', _, toList_print_array formatFloat items, by decide⟩
  | object members => exact ⟨'\x7b', _, toList_print_object formatFloat members, by decide⟩

/-- The end of a list of joined texts, or the comma and those that follow. -/
theorem toList_join_comma (text : String) (texts : List String) (closing : List Char) :
    (Texts.join "," (text :: texts)).toList ++ closing = text.toList ++
      if texts = [] then closing else ',' :: ((Texts.join "," texts).toList ++ closing) := by
  cases texts with
  | nil => simp [Texts.join]
  | cons next texts =>
    rw [if_neg (List.cons_ne_nil next texts), Texts.join, String.toList_append,
      String.toList_append]
    · simp
    · simp

theorem length_join_comma (text : String) (texts : List String) :
    (Texts.join "," (text :: texts)).length = text.length +
      if texts = [] then 0 else 1 + (Texts.join "," texts).length := by
  have characters := congrArg List.length (toList_join_comma text texts [])
  rw [List.append_nil, List.length_append, String.length_toList, String.length_toList] at characters
  rw [characters]
  split_ifs with last
  · rfl
  · rw [List.length_cons, List.append_nil, String.length_toList, Nat.add_comm 1]

mutual

theorem readValue_print (floats : FloatTexts formatFloat readFloat change) : ∀ (value : Value)
    (fuel : ℕ) (rest : List Char), (print formatFloat value).length < fuel → Ends rest →
      readValue readFloat fuel ((print formatFloat value).toList ++ rest) =
        some (mapFloats change value, rest)
  | _, 0, _, enough, _ => absurd enough (Nat.not_lt_zero _)
  | null, _ + 1, _, _, _ => by
    rw [print, mapFloats]
    rfl
  | bool true, _ + 1, _, _, _ => by
    rw [print, mapFloats]
    rfl
  | bool false, _ + 1, _, _, _ => by
    rw [print, mapFloats]
    rfl
  | integer value, fuel + 1, rest, _, ends => by
    obtain ⟨read, number⟩ := integerOf_toString value
    rw [print, mapFloats, readValue_token _ number fuel ends, read]
    intro empty
    rw [empty] at read
    nomatch read
  | float value, fuel + 1, rest, _, ends => by
    rw [print, mapFloats, readValue_token (floats.present value) (floats.number value) fuel ends,
      floats.fraction, String.ofList_toList, floats.read]
    rfl
  | string value, fuel + 1, rest, _, _ => by
    rw [print, toList_printText, List.cons_append, List.append_assoc, readValue]
    show (readText (_ ++ '"' :: rest)).map _ = _
    rw [readText_printText, mapFloats]
    simp
  | array [], fuel + 1, rest, _, _ => by
    rw [toList_print_array, mapFloats]
    rfl
  | array (item :: items), fuel + 1, rest, enough, ends => by
    have size := congrArg List.length (toList_print_array formatFloat (item :: items))
    simp only [String.length_toList, List.length_cons, List.length_append, List.length_nil] at size
    have inside := readItems_print floats (item :: items) fuel rest (List.cons_ne_nil item items)
      (by omega)
    obtain ⟨character, more, opens, notClosed⟩ := print_opens floats item
    rw [toList_print_array, List.cons_append, List.append_assoc, readValue]
    · show (readItems readFloat fuel (_ ++ ']' :: rest)).map _ = _
      rw [inside, mapFloats]
      rfl
    · intro closed same
      rw [printItems, toList_join_comma, opens] at same
      exact notClosed (List.cons.inj same).1
  | object [], fuel + 1, rest, _, _ => by
    rw [toList_print_object, mapFloats]
    rfl
  | object (member :: members), fuel + 1, rest, enough, ends => by
    have size := congrArg List.length (toList_print_object formatFloat (member :: members))
    simp only [String.length_toList, List.length_cons, List.length_append, List.length_nil] at size
    have inside := readMembers_print floats (member :: members) fuel rest
      (List.cons_ne_nil member members) (by omega)
    rw [toList_print_object, List.cons_append, List.append_assoc, readValue]
    · show (readMembers readFloat fuel (_ ++ '\x7d' :: rest)).map _ = _
      rw [inside, mapFloats]
      rfl
    · intro closed same
      rw [printMembers, toList_join_comma, String.toList_append, String.toList_append,
        toList_printText] at same
      nomatch (List.cons.inj same).1

theorem readItems_print (floats : FloatTexts formatFloat readFloat change) :
    ∀ (items : List Value) (fuel : ℕ) (rest : List Char), items ≠ [] →
      (Texts.join "," (printItems formatFloat items)).length + 1 < fuel →
      readItems readFloat fuel
        ((Texts.join "," (printItems formatFloat items)).toList ++ ']' :: rest) =
          some (mapItems change items, rest)
  | [], _, _, present, _ => absurd rfl present
  | item :: items, fuel, rest, _, enough => by
    obtain ⟨fuel, rfl⟩ := Nat.exists_eq_succ_of_ne_zero (by omega : fuel ≠ 0)
    have size := length_join_comma (print formatFloat item) (printItems formatFloat items)
    rw [printItems] at enough ⊢
    rw [size] at enough
    rw [toList_join_comma, readItems, mapItems]
    cases items with
    | nil =>
      have first := readValue_print floats item fuel (']' :: rest) (by omega)
        (ends_cons (by decide) rest)
      rw [printItems, if_pos rfl, first]
      rfl
    | cons next items =>
      have present : printItems formatFloat (next :: items) ≠ [] := by
        rw [printItems]
        exact List.cons_ne_nil _ _
      rw [if_neg present] at enough
      have first := readValue_print floats item fuel (',' :: ((Texts.join ","
        (printItems formatFloat (next :: items))).toList ++ ']' :: rest)) (by omega)
        (ends_cons (by decide) _)
      have later := readItems_print floats (next :: items) fuel rest (List.cons_ne_nil next items)
        (by omega)
      rw [if_neg present, first]
      show (readItems readFloat fuel _).map _ = _
      rw [later]
      rfl

theorem readMembers_print (floats : FloatTexts formatFloat readFloat change) :
    ∀ (members : List (String × Value)) (fuel : ℕ) (rest : List Char), members ≠ [] →
      (Texts.join "," (printMembers formatFloat members)).length + 1 < fuel →
      readMembers readFloat fuel
        ((Texts.join "," (printMembers formatFloat members)).toList ++ '\x7d' :: rest) =
          some (mapMembers change members, rest)
  | [], _, _, present, _ => absurd rfl present
  | (key, value) :: members, fuel, rest, _, enough => by
    obtain ⟨fuel, rfl⟩ := Nat.exists_eq_succ_of_ne_zero (by omega : fuel ≠ 0)
    have size := length_join_comma (printText key ++ ":" ++ print formatFloat value)
      (printMembers formatFloat members)
    simp only [String.length_append] at size
    rw [printMembers] at enough ⊢
    rw [size] at enough
    have colon (closing : List Char) : (printText key ++ ":" ++ print formatFloat value).toList ++
        closing = '"' :: ((Texts.join "" (key.toList.map escapeCharacter)).toList ++
          '"' :: ':' :: ((print formatFloat value).toList ++ closing)) := by
      rw [String.toList_append, String.toList_append, toList_printText]
      simp
    rw [toList_join_comma, colon, readMembers, readText_printText, mapMembers]
    cases members with
    | nil =>
      have first := readValue_print floats value fuel ('\x7d' :: rest) (by omega)
        (ends_cons (by decide) rest)
      rw [printMembers, if_pos rfl]
      simp only [first, String.ofList_toList, mapMembers]
    | cons next members =>
      have present : printMembers formatFloat (next :: members) ≠ [] := by
        rw [printMembers]
        exact List.cons_ne_nil _ _
      rw [if_neg present] at enough
      have first := readValue_print floats value fuel (',' :: ((Texts.join ","
        (printMembers formatFloat (next :: members))).toList ++ '\x7d' :: rest)) (by omega)
        (ends_cons (by decide) _)
      have later := readMembers_print floats (next :: members) fuel rest
        (List.cons_ne_nil next members) (by omega)
      rw [if_neg present]
      simp only [first, later, Option.map_some, String.ofList_toList]

end

/-- A printed value is read back as it was, up to its fractions. -/
theorem read_print (floats : FloatTexts formatFloat readFloat change) (value : Value) :
    read readFloat (print formatFloat value) = some (mapFloats change value) := by
  have ends : Ends [] := by
    intro character first
    nomatch first
  have whole := readValue_print floats value ((print formatFloat value).length + 1) []
    (Nat.lt_succ_self _) ends
  rw [List.append_nil] at whole
  rw [read, whole]

end RoundTrip

/-! ## What changes of fractions leave alone -/

theorem mapItems_eq_map (change : ℚ → ℚ) (items : List Value) :
    mapItems change items = items.map (mapFloats change) := by
  induction items with
  | nil => rfl
  | cons item items inductionHypothesis =>
    rw [mapItems, inductionHypothesis, List.map_cons]

theorem lookup_cons (key other : String) (value : Value) (members : List (String × Value)) :
    lookup key ((other, value) :: members) =
      if other = key then some value else lookup key members := by
  unfold lookup
  by_cases same : other = key
  · simp [same]
  · rw [if_neg same, List.find?_cons_of_neg (by simpa using same)]

theorem lookup_mapMembers (change : ℚ → ℚ) (key : String) (members : List (String × Value)) :
    lookup key (mapMembers change members) = (lookup key members).map (mapFloats change) := by
  induction members with
  | nil => rfl
  | cons member members inductionHypothesis =>
    obtain ⟨other, value⟩ := member
    rw [mapMembers, lookup_cons, lookup_cons, inductionHypothesis]
    split_ifs
    · rfl
    · rfl

mutual

/-- How many arrays and objects are around one another. -/
def nesting : Value → ℕ
  | array items => nestingItems items + 1
  | object members => nestingMembers members + 1
  | _ => 0

def nestingItems : List Value → ℕ
  | [] => 0
  | item :: items => max (nesting item) (nestingItems items)

def nestingMembers : List (String × Value) → ℕ
  | [] => 0
  | (_, value) :: members => max (nesting value) (nestingMembers members)

end

mutual

theorem nesting_mapFloats (change : ℚ → ℚ) :
    ∀ value : Value, nesting (mapFloats change value) = nesting value
  | null => rfl
  | bool _ => rfl
  | integer _ => rfl
  | float _ => rfl
  | string _ => rfl
  | array items => by rw [mapFloats, nesting, nesting, nestingItems_mapItems change items]
  | object members => by rw [mapFloats, nesting, nesting, nestingMembers_mapMembers change members]

theorem nestingItems_mapItems (change : ℚ → ℚ) :
    ∀ items : List Value, nestingItems (mapItems change items) = nestingItems items
  | [] => rfl
  | item :: items => by
    rw [mapItems, nestingItems, nestingItems, nesting_mapFloats change item,
      nestingItems_mapItems change items]

theorem nestingMembers_mapMembers (change : ℚ → ℚ) :
    ∀ members : List (String × Value),
      nestingMembers (mapMembers change members) = nestingMembers members
  | [] => rfl
  | (_, value) :: members => by
    rw [mapMembers, nestingMembers, nestingMembers, nesting_mapFloats change value,
      nestingMembers_mapMembers change members]

end

end Value

end Memcore
