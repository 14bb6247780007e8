import Memcore.Foundations.ByteTexts
import Memcore.Foundations.Rfc3339
import Memcore.Guarantees.EventParity

/-!
# Timestamps as texts keep their order

SQLite compares timestamps as texts, byte by byte. The calendar library writes an instant in
universal time as RFC 3339 says, with no more digits of the fraction than three, six or nine of
them that are needed, and reads such texts. Both are assumed of the library and nothing else;
that the order of texts is that of the instants, and that texts are read back, follows for the
years of four digits.
-/
namespace Memcore

open Calendars Rfc3339

/-- The nanoseconds from the beginning of the year zero to that of another year. -/
def beginningOf (year : ℕ) : ℕ := yearStart year * daySeconds * Rfc3339.nanosPerSecond

/-- Instants are counted from the beginning of 1970. -/
def instantOf (moment : Moment) : ℤ := (moment.count : ℤ) - beginningOf 1970

theorem instantOf_injective {left right : Moment} (same : instantOf left = instantOf right) :
    left = right := by
  unfold instantOf at same
  exact Moment.of_count (by omega)

/-- The library writes an instant as the text of its moment. -/
def TimestampText.WritesRfc3339 (texts : TimestampText) : Prop :=
  ∀ moment : Moment, moment.date.year ≤ 9999 →
    texts.toRfc3339 (instantOf moment) = String.ofList moment.text

/-- The library reads the texts of moments, with any number of digits from one to nine. -/
def TimestampText.ReadsRfc3339 (texts : TimestampText) : Prop :=
  ∀ (text : String) (moment : Moment), readMoment text.toList = some moment →
    texts.parseFromRfc3339 text = .ok (instantOf moment)

/-- The instant lies in one of the years 0000 to 9999. -/
def InFourDigitYears (instant : ℤ) : Prop :=
  0 ≤ instant + beginningOf 1970 ∧ instant + beginningOf 1970 < beginningOf 10000

instance (instant : ℤ) : Decidable (InFourDigitYears instant) :=
  inferInstanceAs (Decidable (_ ∧ _))

theorem count_inYears {instant : ℤ} (inYears : InFourDigitYears instant) :
    (instant + beginningOf 1970).toNat / Rfc3339.nanosPerSecond / daySeconds < yearStart (9999 + 1) := by
  obtain ⟨_, last⟩ := inYears
  have before : (instant + beginningOf 1970).toNat < beginningOf 10000 := by omega
  refine Nat.div_lt_of_lt_mul (Nat.div_lt_of_lt_mul ?_)
  rwa [Nat.mul_comm, Nat.mul_comm daySeconds]

/-- The moment of an instant. -/
def momentAt {instant : ℤ} (inYears : InFourDigitYears instant) : Moment :=
  momentOf (count_inYears inYears)

section MomentAt

variable {instant : ℤ} (inYears : InFourDigitYears instant)

theorem momentAt_year_le : (momentAt inYears).date.year ≤ 9999 := momentOf_year_le _

theorem momentAt_instant : instantOf (momentAt inYears) = instant := by
  have first := inYears.1
  rw [instantOf, momentAt, momentOf_count]
  omega

end MomentAt

section Texts

variable {texts : TimestampText} (writes : texts.WritesRfc3339)
include writes

theorem toRfc3339_eq {instant : ℤ} (inYears : InFourDigitYears instant) :
    texts.toRfc3339 instant = String.ofList (momentAt inYears).text := by
  have written := writes (momentAt inYears) (momentAt_year_le inYears)
  rwa [momentAt_instant] at written

/-- Texts stand in the order of the instants. -/
theorem toRfc3339_lt_iff {left right : ℤ} (leftIn : InFourDigitYears left)
    (rightIn : InFourDigitYears right) :
    texts.toRfc3339 left < texts.toRfc3339 right ↔ left < right := by
  rw [toRfc3339_eq writes leftIn, toRfc3339_eq writes rightIn, String.lt_iff_toList_lt,
    String.toList_ofList, String.toList_ofList,
    Moment.text_lt_iff (momentAt_year_le leftIn) (momentAt_year_le rightIn)]
  have leftInstant := momentAt_instant leftIn
  have rightInstant := momentAt_instant rightIn
  unfold instantOf at leftInstant rightInstant
  omega

/-- The bytes of the texts as well. -/
theorem bytes_toRfc3339_lt_iff {left right : ℤ} (leftIn : InFourDigitYears left)
    (rightIn : InFourDigitYears right) :
    ByteTexts.bytes (texts.toRfc3339 left).toList < ByteTexts.bytes (texts.toRfc3339 right).toList ↔
      left < right := by
  have narrow {instant : ℤ} (inYears : InFourDigitYears instant) :
      ∀ character ∈ (texts.toRfc3339 instant).toList, character.utf8Size = 1 := by
    rw [toRfc3339_eq writes inYears, String.toList_ofList]
    exact Moment.text_narrow _
  rw [ByteTexts.bytes_lt_iff (narrow leftIn) (narrow rightIn), ← String.lt_iff_toList_lt,
    toRfc3339_lt_iff writes leftIn rightIn]

theorem represents_of_inYears (reads : texts.ReadsRfc3339) {instant : ℤ}
    (inYears : InFourDigitYears instant) : texts.Represents instant := by
  have read := reads (texts.toRfc3339 instant) (momentAt inYears) (by
    rw [toRfc3339_eq writes inYears, String.toList_ofList]
    exact readMoment_text _ (momentAt_year_le inYears))
  rwa [momentAt_instant] at read

/-- If no other texts are read back, the order of texts is chronological. -/
theorem chronological_of_rfc3339
    (others : ∀ instant, texts.Represents instant → InFourDigitYears instant) :
    texts.Chronological :=
  fun left right leftReads rightReads =>
    toRfc3339_lt_iff writes (others left leftReads) (others right rightReads)

end Texts

/-! ## The texts in the database -/

/-- Texts are compared as the instants are: by the older-than filters, by the cursor and in
descending order; and each text is read back. -/
theorem sqlite_timestamps_keep_order (texts : RowTexts) (writes : texts.WritesRfc3339)
    (reads : texts.ReadsRfc3339) (left right : Instant) (leftIn : InFourDigitYears left)
    (rightIn : InFourDigitYears right) :
    (ByteTexts.bytes (texts.toRfc3339 left).toList <
        ByteTexts.bytes (texts.toRfc3339 right).toList ↔ left < right) ∧
      (texts.toRfc3339 left < texts.toRfc3339 right ↔ left < right) ∧
      (texts.toRfc3339 left = texts.toRfc3339 right ↔ left = right) ∧
      (∀ id lastId, SqliteFactStore.selectsBehind texts (some ⟨lastId, right⟩)
        (texts.toRfc3339 left) id = isAfterCursorInDescOrder left id ⟨lastId, right⟩) ∧
      (∀ leftRow rightRow : FactRow, leftRow.updatedAt = texts.toRfc3339 left →
        rightRow.updatedAt = texts.toRfc3339 right →
        (SqliteFactStore.rowComesFirst leftRow rightRow ↔
          right < left ∨ right = left ∧ rightRow.id ≤ leftRow.id)) ∧
      SqliteFactStore.datetimeFromStr texts (texts.toRfc3339 left) = .ok left := by
  have leftReads := represents_of_inYears writes reads leftIn
  have rightReads := represents_of_inYears writes reads rightIn
  have less := toRfc3339_lt_iff writes leftIn rightIn
  have same : texts.toRfc3339 left = texts.toRfc3339 right ↔ left = right :=
    leftReads.injective rightReads
  refine ⟨bytes_toRfc3339_lt_iff writes leftIn rightIn, less, same, fun id lastId => ?_,
    fun leftRow rightRow leftText rightText => ?_, datetimeFromStr_ok leftReads⟩
  · have tied : (texts.toRfc3339 left == texts.toRfc3339 right) = (left == right) := by
      rw [Bool.eq_iff_iff, beq_iff_eq, beq_iff_eq, same]
    rw [SqliteFactStore.selectsBehind, Option.all_some, tied, decide_eq_decide.mpr less]
    rfl
  · rw [SqliteFactStore.rowComesFirst, leftText, rightText,
      toRfc3339_lt_iff writes rightIn leftIn, rightReads.injective leftReads]

/-! ### A sample -/

/-- A calendar library that writes and reads the texts of moments. -/
def sampleCalendarTexts : RowTexts where
  toRfc3339 instant :=
    if inYears : InFourDigitYears instant then String.ofList (momentAt inYears).text else ""
  parseFromRfc3339 text :=
    match readMoment text.toList with
    | some moment => .ok (instantOf moment)
    | none => .error "input contains invalid characters"
  parseUuid := sampleRowTexts.parseUuid
  jsonToString := sampleRowTexts.jsonToString
  jsonFromStr := sampleRowTexts.jsonFromStr

theorem instantOf_inYears (moment : Moment) (inYears : moment.date.year ≤ 9999) :
    InFourDigitYears (instantOf moment) := by
  have days : moment.date.dayNumber + 1 ≤ yearStart 10000 :=
    moment.date.dayNumber_lt_year.trans_le (yearStart_le (Nat.succ_le_succ inYears))
  have before := Moment.count_lt_days moment
  have within : moment.count < beginningOf 10000 :=
    before.trans_le (Nat.mul_le_mul_right _ (Nat.mul_le_mul_right _ days))
  unfold InFourDigitYears instantOf
  omega

theorem sampleCalendarTexts_writes : sampleCalendarTexts.WritesRfc3339 := by
  intro moment inYears
  have within := instantOf_inYears moment inYears
  refine (dif_pos within).trans (congrArg (fun other : Moment => String.ofList other.text) ?_)
  exact instantOf_injective (momentAt_instant within)

theorem sampleCalendarTexts_reads : sampleCalendarTexts.ReadsRfc3339 := by
  intro text moment read
  simp [sampleCalendarTexts, read]

/-- The beginning of 1970, and half a second later. -/
theorem sqlite_timestamps_keep_order_sample :
    ByteTexts.bytes (sampleCalendarTexts.toRfc3339 0).toList <
        ByteTexts.bytes (sampleCalendarTexts.toRfc3339 500000000).toList ∧
      SqliteFactStore.datetimeFromStr sampleCalendarTexts (sampleCalendarTexts.toRfc3339 0) =
        .ok 0 := by
  have keeps := sqlite_timestamps_keep_order sampleCalendarTexts sampleCalendarTexts_writes
    sampleCalendarTexts_reads 0 500000000 (by decide) (by decide)
  exact ⟨keeps.1.mpr (by decide), keeps.2.2.2.2.2⟩

end Memcore
