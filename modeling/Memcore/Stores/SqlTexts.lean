import Memcore.Domain.Values

/-!
# Texts in the database

SQLite keeps timestamps, identifiers and metadata as texts. How they are written and read
is up to libraries; a value is representable if its text reads back.
-/
namespace Memcore

/-- The RFC 3339 texts of instants, as the calendar library writes and reads them. It
reads four digits for the year. -/
structure TimestampText where
  toRfc3339 : Instant → String
  parseFromRfc3339 : String → Except String Instant

/-- The timestamp is representable: its text reads back. -/
def TimestampText.Represents (texts : TimestampText) (instant : Instant) : Prop :=
  texts.parseFromRfc3339 (texts.toRfc3339 instant) = .ok instant

/-- A storage error with its context. -/
def storageError (context error : String) : MemcoreError :=
  .storageError (context ++ ": " ++ error)

/-- What the database says about a primary key that is taken. -/
def uniqueConstraintFailed (column : String) : String :=
  "error returned from database: (code: 1555) UNIQUE constraint failed: " ++ column

/-- The order of texts is the order of the representable instants. -/
def TimestampText.Chronological (texts : TimestampText) : Prop :=
  ∀ left right, texts.Represents left → texts.Represents right →
    (texts.toRfc3339 left < texts.toRfc3339 right ↔ left < right)

/-- Representable instants are told apart by their texts. -/
theorem TimestampText.Represents.injective {texts : TimestampText} {left right : Instant}
    (leftReads : texts.Represents left) (rightReads : texts.Represents right) :
    texts.toRfc3339 left = texts.toRfc3339 right ↔ left = right := by
  constructor
  · intro same
    have reads := leftReads
    rw [TimestampText.Represents, same, rightReads] at reads
    exact (Except.ok.inj reads).symm
  · exact congrArg _

/-- The texts of the values in a row. -/
structure RowTexts extends TimestampText where
  parseUuid : String → Except String Uuid
  jsonToString : Value → Except String String
  jsonFromStr : String → Except String Value

end Memcore
