import Memcore.Domain.Values

/-!
# JSON texts

The compact form in which values are written, and insertion into the sorted
members of an object. How a fractional number is written is a parameter, one of
the functions that the program takes from elsewhere.
-/
namespace Memcore

/-- Functions that the program takes from its platform and libraries: floating
point, hashing, redaction, calendar texts and the JSON reader. -/
structure Platform where
  cosineSimilarity : List ℚ → List ℚ → ℚ
  stableSha256Hex : String → String
  redactText : String → String
  formatFloat : ℚ → String
  toRfc3339 : Instant → String
  parseJson : String → Option Value

namespace Value

/-- One character inside a JSON text. Quotes, backslashes and control characters
are escaped, the common ones by a letter. -/
def escapeCharacter (character : Char) : String :=
  match character.toNat with
  | 34 => "\\\""
  | 92 => "\\\\"
  | 8 => "\\b"
  | 9 => "\\t"
  | 10 => "\\n"
  | 12 => "\\f"
  | 13 => "\\r"
  | code =>
      if code < 32 then "\\u00" ++ String.ofList (hexDigits 2 code)
      else String.singleton character

/-- A text in quotes. -/
def printText (text : String) : String :=
  "\"" ++ Texts.join "" (text.toList.map escapeCharacter) ++ "\""

mutual

/-- The compact form, without any whitespace between tokens. -/
def print (formatFloat : ℚ → String) : Value → String
  | null => "null"
  | bool value => if value then "true" else "false"
  | integer value => toString value
  | float value => formatFloat value
  | string value => printText value
  | array items => "[" ++ Texts.join "," (printItems formatFloat items) ++ "]"
  | object members => "\x7b" ++ Texts.join "," (printMembers formatFloat members) ++ "\x7d"

def printItems (formatFloat : ℚ → String) : List Value → List String
  | [] => []
  | item :: items => print formatFloat item :: printItems formatFloat items

def printMembers (formatFloat : ℚ → String) : List (String × Value) → List String
  | [] => []
  | (key, value) :: members =>
      (printText key ++ ":" ++ print formatFloat value) :: printMembers formatFloat members

end

theorem printItems_eq_map (formatFloat : ℚ → String) (items : List Value) :
    printItems formatFloat items = items.map (print formatFloat) := by
  induction items with
  | nil => rfl
  | cons item items inductionHypothesis =>
    rw [printItems, inductionHypothesis, List.map_cons]

/-- Insert a member in the order of keys, replacing the one with its key. -/
def insertMember (key : String) (value : Value) :
    List (String × Value) → List (String × Value)
  | [] => [(key, value)]
  | (other, stored) :: members =>
      if key < other then (key, value) :: (other, stored) :: members
      else if key = other then (key, value) :: members
      else (other, stored) :: insertMember key value members

/-- A new key makes the members one longer. -/
theorem insertMember_fresh (formatFloat : ℚ → String) (key : String) (value : Value)
    (members : List (String × Value)) (fresh : key ∉ members.map Prod.fst) :
    (printMembers formatFloat (insertMember key value members)).Perm
      ((printText key ++ ":" ++ print formatFloat value) :: printMembers formatFloat members) := by
  induction members with
  | nil => simp [insertMember, printMembers]
  | cons member members inductionHypothesis =>
    obtain ⟨other, stored⟩ := member
    simp only [List.map_cons, List.mem_cons, not_or] at fresh
    simp only [insertMember]
    split_ifs with smaller
    · simp only [printMembers, List.Perm.refl]
    · exact absurd ‹key = other› fresh.1
    · simp only [printMembers]
      exact (List.Perm.cons _ (inductionHypothesis fresh.2)).trans (List.Perm.swap _ _ _)

/-- One more member takes the characters of its key and value, a colon and a comma. -/
theorem length_print_insertMember (formatFloat : ℚ → String) (key : String) (value : Value)
    (members : List (String × Value)) (fresh : key ∉ members.map Prod.fst)
    (some : members ≠ []) :
    (print formatFloat (object (insertMember key value members))).length =
      (print formatFloat (object members)).length +
        ((printText key).length + (print formatFloat value).length + 2) := by
  have reordered := insertMember_fresh formatFloat key value members fresh
  cases members with
  | nil => exact absurd rfl some
  | cons member members =>
    have lengths := Texts.length_join_perm "," reordered
    simp only [printMembers, Texts.length_join, List.map_cons, List.sum_cons, List.length_cons,
      String.length_append, Nat.add_sub_cancel, Nat.mul_add] at lengths
    simp only [print, printMembers, String.length_append, Texts.length_join, List.map_cons,
      List.sum_cons, List.length_cons, Nat.add_sub_cancel] at lengths ⊢
    have comma : ",".length = 1 := rfl
    have colon : ":".length = 1 := rfl
    omega

example : print (fun _ => "") (object [("a", array [null, integer (-3)])]) =
    "\x7b\"a\":[null,-3]\x7d" := by decide

end Value

end Memcore
