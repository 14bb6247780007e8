import Memcore.Foundations.Texts

/-!
# Identifiers, instants, errors and JSON

Identifiers are 128-bit numbers in the order of their bytes. Instants count
nanoseconds from the Unix epoch; the finite range of the calendar is out of
scope. Binary floating point is replaced by exact rationals throughout, so that
rounding, infinities and NaN are out of scope too.
-/
namespace Memcore

/-- Identifiers generated at random by the program. -/
abbrev Uuid := Fin (2 ^ 128)

instance uuidNeZero : NeZero (2 ^ 128) := ⟨by decide⟩

instance uuidLawfulBEq : LawfulBEq Uuid := inferInstance

/-- Nanoseconds since the Unix epoch. -/
abbrev Instant := ℤ

/-- A calendar-free duration of whole seconds. -/
def seconds (count : ℕ) : ℤ := count * 1000000000

/-- A calendar-free duration of whole days. -/
def days (count : ℕ) : ℤ := seconds (count * 86400)

/-- `value as i64` of an unsigned number of 64 bits. -/
def asI64 (value : ℕ) : ℤ :=
  if value % 2 ^ 64 < 2 ^ 63 then (value % 2 ^ 64 : ℕ) else (value % 2 ^ 64 : ℕ) - 2 ^ 64

/-- `value as u64` of a signed number of 64 bits. -/
def asU64 (value : ℤ) : ℕ := (value % 2 ^ 64).toNat

/-- Between unsigned and signed numbers nothing is lost. -/
theorem asU64_asI64 {value : ℕ} (fits : value < 2 ^ 64) : asU64 (asI64 value) = value := by
  rw [asU64, asI64]
  split <;> omega

theorem asI64_small {value : ℕ} (fits : value < 2 ^ 63) : asI64 value = value := by
  rw [asI64]
  split <;> omega

/-- The low hexadecimal digits of a number, as many as asked for. -/
def hexDigits : ℕ → ℕ → List Char
  | 0, _ => []
  | count + 1, value => hexDigits count (value / 16) ++ [Nat.digitChar (value % 16)]

/-- The hyphenated lowercase form of an identifier. -/
def Uuid.toText (id : Uuid) : String :=
  let digits := hexDigits 32 id.val
  String.ofList (digits.take 8 ++ ['-'] ++ (digits.drop 8).take 4 ++ ['-'] ++
    (digits.drop 12).take 4 ++ ['-'] ++ (digits.drop 16).take 4 ++ ['-'] ++ digits.drop 20)

/-- The errors of the program. Those without a text carry none in the source. -/
inductive MemcoreError where
  | unauthorized
  | forbidden
  | badRequest (message : String)
  | notFound (message : String)
  | conflict (message : String)
  | rateLimited
  | providerError (message : String)
  | storageError (message : String)
  | migrationError (message : String)
  | validationError (message : String)
  | internal (message : String)
  | timeout (message : String)
  | quotaExceeded (message kind : String) (limit current requested : ℕ)
  | providerGuardrailViolation (code message : String)
  deriving DecidableEq

/-- The errors that mean an absent row. Several callers tolerate exactly these. -/
def MemcoreError.isNotFound : MemcoreError → Bool
  | notFound _ => true
  | _ => false

/-- The text of an error as callers see it. -/
def MemcoreError.message : MemcoreError → String
  | unauthorized => "unauthorized"
  | forbidden => "forbidden"
  | badRequest message => "bad request: " ++ message
  | notFound message => "not found: " ++ message
  | conflict message => "conflict: " ++ message
  | rateLimited => "rate limited"
  | providerError message => "provider error: " ++ message
  | storageError message => "storage error: " ++ message
  | migrationError message => "migration error: " ++ message
  | validationError message => "validation error: " ++ message
  | internal message => "internal error: " ++ message
  | timeout message => "timeout: " ++ message
  | quotaExceeded message _ _ _ _ => "quota exceeded: " ++ message
  | providerGuardrailViolation _ message => "provider guardrail violation: " ++ message

/-- A fallible result of a function that makes no call. -/
abbrev MemcoreResult := Except MemcoreError

/-- A computation that returns has returned from each of its parts. -/
theorem bind_ok {ε α β : Type} (first : Except ε α) (next : α → Except ε β) (value : β) :
    (first >>= next) = .ok value ↔ ∃ middle, first = .ok middle ∧ next middle = .ok value := by
  cases first <;> simp [bind, Except.bind]

/-- JSON values. Objects keep their members in the order of their keys, as the
source's map does. -/
inductive Value where
  | null
  | bool (value : Bool)
  | integer (value : ℤ)
  | float (value : ℚ)
  | string (value : String)
  | array (items : List Value)
  | object (members : List (String × Value))

namespace Value

mutual

/-- Structural equality of JSON values. -/
def same : Value → Value → Bool
  | null, null => true
  | bool left, bool right => left == right
  | integer left, integer right => left == right
  | float left, float right => left == right
  | string left, string right => left == right
  | array left, array right => sameItems left right
  | object left, object right => sameMembers left right
  | _, _ => false

def sameItems : List Value → List Value → Bool
  | [], [] => true
  | left :: lefts, right :: rights => same left right && sameItems lefts rights
  | _, _ => false

def sameMembers : List (String × Value) → List (String × Value) → Bool
  | [], [] => true
  | (leftKey, left) :: lefts, (rightKey, right) :: rights =>
      leftKey == rightKey && same left right && sameMembers lefts rights
  | _, _ => false

end

/-- The members of an object; other values have none. -/
def asObject : Value → Option (List (String × Value))
  | object members => some members
  | _ => none

/-- The value stored under a key. -/
def lookup (wanted : String) (members : List (String × Value)) : Option Value :=
  (members.find? fun member => member.1 == wanted).map Prod.snd

/-- An absent text is null. -/
def ofText : Option String → Value
  | some text => string text
  | none => null

end Value

end Memcore
