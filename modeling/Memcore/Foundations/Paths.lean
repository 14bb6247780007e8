import Mathlib.Data.List.Lex
import Mathlib.Data.Prod.Lex
import Memcore.Foundations.ByteTexts

/-!
# Paths of files

A path is a sequence of bytes that slashes divide into components. Empty pieces and single dots are
no components, except for a dot at the very beginning of a relative path. Joining a directory and a
plain name gives the components of the directory and then the name. Paths are compared component by
component, names by their bytes.
-/
namespace Paths

open ByteTexts

/-- A path or a name as the system stores it. It need not be valid UTF-8. -/
abbrev OsString := List UInt8

def ofText (text : String) : OsString := bytes text.toList

/-- The text of a name, if it is valid UTF-8. -/
def toText (name : OsString) : Option String := String.fromUTF8? name.toByteArray

def slash : UInt8 := 47

def dot : UInt8 := 46

inductive Component where
  | rootDir
  | curDir
  | parentDir
  | normal (name : OsString)
  deriving DecidableEq

/-- The component that a piece between slashes is, if it is one. -/
def toComponent (piece : OsString) : Option Component :=
  if piece = [] ∨ piece = [dot] then none
  else if piece = [dot, dot] then some .parentDir
  else some (.normal piece)

/-- The first component of a relative path may be a dot. -/
def firstComponent (piece : OsString) : Option Component :=
  if piece = [dot] then some .curDir else toComponent piece

def components (path : OsString) : List Component :=
  match path.splitOn slash with
  | [] => []
  | first :: rest =>
    (if path.head? = some slash then some .rootDir else firstComponent first).toList ++
      rest.filterMap toComponent

/-- The path of a name in a directory. An absolute path replaces the directory. -/
def join (directory name : OsString) : OsString :=
  if name.head? = some slash then name
  else if directory = [] ∨ directory.getLast? = some slash then directory ++ name
  else directory ++ slash :: name

/-- The last component, if it is a name. -/
def fileName (path : OsString) : Option OsString :=
  match (components path).getLast? with
  | some (.normal name) => some name
  | _ => none

/-- Whether a path begins with the components of another. -/
def startsWith (path base : OsString) : Bool :=
  (components base).isPrefixOf (components path)

/-- A name of a file: one piece that is neither empty nor made of one or two dots. -/
structure IsPlain (name : OsString) : Prop where
  one : slash ∉ name
  named : toComponent name = some (.normal name)

/-- Places a component in the order of components. -/
def Component.key : Component → ℕ ×ₗ List ℕ
  | rootDir => toLex (1, [])
  | curDir => toLex (2, [])
  | parentDir => toLex (3, [])
  | normal name => toLex (4, name.map UInt8.toNat)

/-- Places a path in the order of paths. -/
def key (path : OsString) : List (ℕ ×ₗ List ℕ) := (components path).map Component.key

/-! ## Names -/

@[simp] theorem toText_ofText (text : String) : toText (ofText text) = some text := by
  have encoded : (ofText text).toByteArray = text.toByteArray := String.utf8Encode_toList
  rw [toText, encoded, String.fromUTF8?, dif_pos text.isValidUTF8]
  rfl

/-- A text without a slash has no slash among its bytes. -/
theorem slash_notMem_ofText {text : String} (without : '/' ∉ text.toList) :
    slash ∉ ofText text := by
  intro member
  obtain ⟨character, within, encoded⟩ := List.mem_flatMap.mp member
  by_cases narrow : character.utf8Size = 1
  · obtain ⟨byte, single, value⟩ := bytes_of_narrow narrow
    rw [single, List.mem_singleton] at encoded
    have same : character = '/' := by
      rw [← Char.toNat_inj, ← value, ← encoded]
      rfl
    exact without (same ▸ within)
  · have high := bytes_of_wide narrow slash encoded
    exact absurd high (by decide)

/-- A text of more than two characters without a slash is a plain name. -/
theorem isPlain_ofText {text : String} (without : '/' ∉ text.toList)
    (long : 2 < text.toList.length) : IsPlain (ofText text) := by
  have bytesLong : 2 < (ofText text).length := by
    rw [ofText, byteLength_eq_length_bytes]
    exact Nat.lt_of_lt_of_le long (length_le_byteLength _)
  refine ⟨slash_notMem_ofText without, ?_⟩
  have other : ∀ short : OsString, short.length ≤ 2 → ofText text ≠ short := by
    intro short few same
    rw [same] at bytesLong
    omega
  rw [toComponent, if_neg (not_or.mpr ⟨other [] (by decide), other [dot] (by decide)⟩),
    if_neg (other [dot, dot] (by decide))]

theorem Component.key_injective : Function.Injective Component.key := by
  intro left right same
  have bytesInjective : Function.Injective UInt8.toNat := fun _ _ => UInt8.toNat_inj.mp
  cases left <;> cases right <;> simp [Component.key] at same ⊢
  exact bytesInjective.list_map same

/-! ## Joining -/

/-- A name after a slash is the last component. -/
theorem components_slash (front : OsString) {name : OsString} (plain : IsPlain name) :
    components (front ++ slash :: name) =
      components (front ++ [slash]) ++ [.normal name] := by
  have last : [name].filterMap toComponent = [.normal name] := by
    rw [List.filterMap_cons_some plain.named, List.filterMap_nil]
  have nothing : [([] : OsString)].filterMap toComponent = [] := by
    rfl
  have named : (front ++ slash :: name).splitOn slash = front.splitOn slash ++ [name] := by
    rw [List.splitOn_append_cons_self, List.splitOn_eq_singleton plain.one]
  have bare : (front ++ [slash]).splitOn slash = front.splitOn slash ++ [[]] := by
    rw [List.splitOn_append_cons_self]
    rfl
  have sameHead : (front ++ slash :: name).head? = (front ++ [slash]).head? := by
    cases front <;> rfl
  rw [components, components, named, bare, sameHead]
  cases pieces : front.splitOn slash with
  | nil => exact absurd pieces (List.splitOn_ne_nil _ _)
  | cons first rest =>
    simp only [List.cons_append, List.filterMap_append, last, nothing, List.append_nil,
      List.append_assoc]

/-- A slash at the end of a path adds nothing. -/
theorem components_trailing {path : OsString} (present : path ≠ []) :
    components (path ++ [slash]) = components path := by
  have pieces : (path ++ [slash]).splitOn slash = path.splitOn slash ++ [[]] := by
    rw [List.splitOn_append_cons_self]
    rfl
  have sameHead : (path ++ [slash]).head? = path.head? := by
    cases path with
    | nil => exact absurd rfl present
    | cons byte rest => rfl
  rw [components, components, pieces, sameHead]
  cases divided : path.splitOn slash with
  | nil => exact absurd divided (List.splitOn_ne_nil _ _)
  | cons first rest =>
    have nothing : [([] : OsString)].filterMap toComponent = [] := by
      rfl
    simp only [List.cons_append, List.filterMap_append, nothing, List.append_nil]

theorem components_join (directory : OsString) {name : OsString} (plain : IsPlain name) :
    components (join directory name) = components directory ++ [.normal name] := by
  have relative : ¬name.head? = some slash := by
    intro first
    exact plain.one (List.mem_of_head? first)
  rw [join, if_neg relative]
  split
  · rename_i direct
    rcases direct with rfl | ended
    · have alone : name.splitOn slash = [name] := List.splitOn_eq_singleton plain.one
      have first : firstComponent name = some (.normal name) := by
        rw [firstComponent, if_neg, plain.named]
        rintro rfl
        exact absurd plain.named (by decide)
      rw [List.nil_append, components, alone]
      simp only [if_neg relative, first]
      rfl
    · obtain ⟨front, rfl⟩ := List.getLast?_eq_some_iff.mp ended
      rw [List.append_assoc, List.singleton_append]
      exact components_slash front plain
  · rename_i direct
    rw [components_slash directory plain, components_trailing (not_or.mp direct).1]

end Paths
