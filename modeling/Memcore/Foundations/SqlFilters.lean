import Memcore.Foundations.Texts

/-!
# Filters of SQL

A filter is a text that compares columns with string literals, all of which must be equal.
A quote inside a literal is written twice. What is written for a list of comparisons reads
back as the same list, whatever the literals are made of.
-/
namespace SqlFilters

open Texts

/-- A column and the literal it must be equal to. -/
structure Comparison where
  column : String
  literal : String
  deriving DecidableEq

/-! ## Writing -/

/-- A comparison with a quoted literal. -/
def Comparison.write (comparison : Comparison) : String :=
  comparison.column ++ " = '" ++ replace '\'' "''" comparison.literal ++ "'"

/-- Comparisons that must all hold. -/
def write (filter : List Comparison) : String :=
  join " AND " (filter.map Comparison.write)

/-! ## Reading -/

/-- The characters of column names. -/
def isNameCharacter (character : Char) : Bool :=
  character.isAlphanum || character == '_'

/-- What follows an expected beginning. -/
def dropStart (start text : List Char) : Option (List Char) :=
  if start.isPrefixOf text then some (text.drop start.length) else none

/-- The value of a literal after its opening quote, and what follows its closing quote. -/
def readLiteral : List Char → Option (List Char × List Char)
  | '\'' :: '\'' :: rest => (readLiteral rest).map fun read => ('\'' :: read.1, read.2)
  | '\'' :: rest => some ([], rest)
  | character :: rest => (readLiteral rest).map fun read => (character :: read.1, read.2)
  | [] => none

/-- One comparison, and what follows it. -/
def readComparison (text : List Char) : Option (Comparison × List Char) := do
  let rest ← dropStart " = '".toList (text.dropWhile isNameCharacter)
  let (literal, rest) ← readLiteral rest
  pure (⟨String.ofList (text.takeWhile isNameCharacter), String.ofList literal⟩, rest)

/-- Comparisons up to the end of the text, at most as many as the first argument says. -/
def readComparisons : ℕ → List Char → Option (List Comparison)
  | 0, _ => none
  | count + 1, text => do
      let (comparison, rest) ← readComparison text
      if rest.isEmpty then pure [comparison]
      else
        let rest ← dropStart " AND ".toList rest
        let others ← readComparisons count rest
        pure (comparison :: others)

/-- The comparisons of a filter. -/
def read (filter : String) : Option (List Comparison) :=
  readComparisons filter.length filter.toList

/-! ## Reading what was written -/

/-- The column's name consists of the characters of names. -/
def Comparison.Named (comparison : Comparison) : Prop :=
  comparison.column.toList.all isNameCharacter = true

theorem dropStart_append (start rest : List Char) :
    dropStart start (start ++ rest) = some rest := by
  simp [dropStart]

/-- A literal whose quotes are doubled ends at the first quote that is not. -/
theorem readLiteral_quoted (literal : List Char) {rest : List Char}
    (ends : ∀ more, rest ≠ '\'' :: more) :
    readLiteral (literal.flatMap (replaceCharacter '\'' "''") ++ '\'' :: rest) =
      some (literal, rest) := by
  induction literal with
  | nil => exact readLiteral.eq_2 rest ends
  | cons character literal inductionHypothesis =>
    rw [List.flatMap_cons, List.append_assoc]
    by_cases quote : character = '\''
    · subst quote
      have doubled : replaceCharacter '\'' "''" '\'' = ['\'', '\''] := rfl
      rw [doubled]
      simp [readLiteral, inductionHypothesis]
    · have kept : replaceCharacter '\'' "''" character = [character] := if_neg quote
      rw [kept]
      simp [readLiteral, quote, inductionHypothesis]

theorem takeWhile_name {name rest : List Char}
    (named : ∀ character ∈ name, isNameCharacter character = true) :
    (name ++ ' ' :: rest).takeWhile isNameCharacter = name := by
  rw [List.takeWhile_append_of_pos named]
  have stops : isNameCharacter ' ' = false := by decide
  simp [stops]

theorem dropWhile_name {name rest : List Char}
    (named : ∀ character ∈ name, isNameCharacter character = true) :
    (name ++ ' ' :: rest).dropWhile isNameCharacter = ' ' :: rest := by
  rw [List.dropWhile_append_of_pos named]
  have stops : isNameCharacter ' ' = false := by decide
  simp [stops]

theorem readComparison_write {comparison : Comparison} (named : comparison.Named)
    {rest : List Char} (ends : ∀ more, rest ≠ '\'' :: more) :
    readComparison (comparison.write.toList ++ rest) = some (comparison, rest) := by
  have text : comparison.write.toList ++ rest = comparison.column.toList ++ ' ' ::
      ("= '".toList ++ (comparison.literal.toList.flatMap (replaceCharacter '\'' "''") ++
        '\'' :: rest)) := by
    simp [Comparison.write, replace]
  have equality (after : List Char) : ' ' :: ("= '".toList ++ after) = " = '".toList ++ after := rfl
  rw [Comparison.Named, List.all_eq_true] at named
  rw [text, readComparison, takeWhile_name named, dropWhile_name named, equality,
    dropStart_append]
  simp [readLiteral_quoted _ ends]

theorem readComparisons_write {filter : List Comparison} (some : filter ≠ [])
    (named : ∀ comparison ∈ filter, comparison.Named) {count : ℕ} (enough : filter.length ≤ count) :
    readComparisons count (write filter).toList = .some filter := by
  induction filter generalizing count with
  | nil => exact absurd rfl some
  | cons comparison filter inductionHypothesis =>
    obtain ⟨count, rfl⟩ : ∃ less, count = less + 1 :=
      ⟨count - 1, by simp only [List.length_cons] at enough; omega⟩
    have first := named comparison List.mem_cons_self
    cases filter with
    | nil =>
      have text : (write [comparison]).toList = comparison.write.toList ++ [] := by
        simp [write, join]
      rw [text, readComparisons, readComparison_write first (by simp)]
      rfl
    | cons next filter =>
      have text : (write (comparison :: next :: filter)).toList = comparison.write.toList ++
          (" AND ".toList ++ (write (next :: filter)).toList) := by
        simp [write, join]
      have others := inductionHypothesis (by simp)
        (fun other member => named other (List.mem_cons_of_mem _ member))
        (Nat.le_of_succ_le_succ enough)
      rw [text, readComparisons, readComparison_write first (by simp)]
      simp only [Option.bind_eq_bind, Option.bind_some]
      rw [dropStart_append, if_neg (by simp)]
      simp only [Option.bind_some, others, Option.pure_def]

/-- A written filter reads back. -/
theorem read_write {filter : List Comparison} (some : filter ≠ [])
    (named : ∀ comparison ∈ filter, comparison.Named) : read (write filter) = .some filter := by
  apply readComparisons_write some named
  rw [write, length_join]
  have one : ∀ comparison ∈ filter, 1 ≤ comparison.write.length := by
    intro comparison _
    simp only [Comparison.write, String.length_append]
    have quote : "'".length = 1 := rfl
    omega
  have each : filter.length ≤ ((filter.map Comparison.write).map String.length).sum := by
    rw [List.map_map]
    simpa using List.length_le_sum_of_one_le (filter.map (String.length ∘ Comparison.write))
      (by simpa using one)
  omega

/-! ## Selecting -/

/-- Whether a row, read column by column, meets every comparison. -/
def selects (column : String → Option String) (filter : List Comparison) : Bool :=
  filter.all fun comparison => column comparison.column == some comparison.literal

example : read "org_id = 'o''neil' AND user_id = ''" =
    some [⟨"org_id", "o'neil"⟩, ⟨"user_id", ""⟩] := by
  decide

end SqlFilters
