import Memcore.Foundations.Pages
import Memcore.Stores.FactStore

/-!
# Cursors

A position in a listing is handed out as a text and read back when the next page is asked
for. JSON and base64 are those of libraries.
-/
namespace Memcore

open Pages

/-- The encodings behind a cursor: JSON, and bytes as URL-safe text. -/
structure CursorEncoding where
  toJson : PageCursor → Except String String
  fromJson : List UInt8 → Except String PageCursor
  encode : List UInt8 → String
  decode : String → Except String (List UInt8)

/-- The bytes of a text. -/
def asBytes (text : String) : List UInt8 := text.toUTF8.data.toList

def invalidCursorMessage : String := "invalid cursor"

section Cursors

variable (encoding : CursorEncoding)

def encodeCursor (cursor : PageCursor) : MemcoreResult String :=
  match encoding.toJson cursor with
  | .ok json => .ok (encoding.encode (asBytes json))
  | .error error => .error (.internal ("failed to encode cursor: " ++ error))

def decodeCursor (cursor : String) : MemcoreResult PageCursor :=
  let trimmed := Texts.trim cursor
  if trimmed = "" then .error (.validationError invalidCursorMessage)
  else match encoding.decode trimmed with
    | .error _ => .error (.validationError invalidCursorMessage)
    | .ok bytes =>
        match encoding.fromJson bytes with
        | .error _ => .error (.validationError invalidCursorMessage)
        | .ok decoded => .ok decoded

/-- A cursor that is absent or blank asks for the first page. -/
def parseOptionalCursor : Option String → MemcoreResult (Option PageCursor)
  | none => .ok none
  | some value =>
      if Texts.isBlank value then .ok none else (decodeCursor encoding value).map some

/-- Cut a page from items of which there may be one too many. -/
def buildPage {α : Type} (items : List α) (limit : ℕ) (toCursor : α → PageCursor) :
    MemcoreResult (Page α String) :=
  if items.length > limit then
    match (items.take limit).getLast? with
    | some last => (encodeCursor encoding (toCursor last)).map fun next =>
        ⟨items.take limit, some next⟩
    -- The source panics here. Every caller has a positive limit.
    | none => .error (.internal "page truncated to a non-empty limit-sized slice")
  else .ok ⟨items, none⟩

/-- A page is cut from the first items, of which there are at most one too many. -/
theorem buildPage_take {α : Type} (items : List α) (limit : ℕ) (toCursor : α → PageCursor) :
    buildPage encoding (items.take (pageFetchLimit limit)) limit toCursor =
      buildPage encoding items limit toCursor := by
  have front : (items.take (pageFetchLimit limit)).take limit = items.take limit := by
    rw [List.take_take, pageFetchLimit, min_eq_left (Nat.le_succ limit)]
  unfold buildPage
  by_cases longer : items.length > limit
  · have full : (items.take (pageFetchLimit limit)).length > limit := by
      rw [List.length_take, pageFetchLimit]
      omega
    rw [if_pos full, if_pos longer, front]
  · have all : items.take (pageFetchLimit limit) = items := by
      apply List.take_of_length_le
      rw [pageFetchLimit]
      omega
    rw [all]

/-- The encodings give a cursor back, and its text is neither blank nor padded. -/
structure CursorEncoding.Carries (cursor : PageCursor) : Prop where
  decodes : ∃ json, encoding.toJson cursor = .ok json ∧
    encoding.decode (encoding.encode (asBytes json)) = .ok (asBytes json) ∧
    encoding.fromJson (asBytes json) = .ok cursor ∧
    encoding.encode (asBytes json) ≠ "" ∧
    Texts.trim (encoding.encode (asBytes json)) = encoding.encode (asBytes json)

/-- A cursor that the encodings carry is read back from its own text. -/
theorem CursorEncoding.Carries.parse {encoding : CursorEncoding} {cursor : PageCursor}
    (carries : encoding.Carries cursor) : ∃ text, encodeCursor encoding cursor = .ok text ∧
      parseOptionalCursor encoding (some text) = .ok (some cursor) := by
  obtain ⟨json, toJson, decodes, fromJson, notEmpty, trimmed⟩ := carries.decodes
  refine ⟨encoding.encode (asBytes json), by rw [encodeCursor, toJson], ?_⟩
  have notBlank : Texts.isBlank (encoding.encode (asBytes json)) = false := by
    rw [Texts.isBlank, trimmed]
    simpa using notEmpty
  have decoded : decodeCursor encoding (encoding.encode (asBytes json)) = .ok cursor := by
    simp only [decodeCursor, trimmed, if_neg notEmpty, decodes, fromJson]
  rw [parseOptionalCursor, if_neg (by simp [notBlank]), decoded]
  rfl

end Cursors

end Memcore
