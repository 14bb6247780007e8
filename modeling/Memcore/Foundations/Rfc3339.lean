import Memcore.Foundations.Calendars
import Memcore.Foundations.Decimals

/-!
# RFC 3339 texts of moments

A moment has a date, a time of the day and nanoseconds, and is counted in nanoseconds from the
first day of the year zero. Its text in universal time has fields of fixed width, then as many
digits of the fraction as are needed, but none, three, six or nine of them, and then the offset.
The offset begins with a character that comes before the point and before all digits; so later
moments have greater texts, however many digits the fractions have. The texts read back.
-/
namespace Rfc3339

open Calendars Decimals

structure Moment where
  date : Date
  time : Time
  nanosecond : ℕ
  nanosecond_lt : nanosecond < 10 ^ 9

def nanosPerSecond : ℕ := 10 ^ 9

namespace Moment

/-- The nanoseconds from the beginning of the year zero on. -/
def count (moment : Moment) : ℕ :=
  (moment.date.dayNumber * daySeconds + moment.time.secondOfDay) * nanosPerSecond +
    moment.nanosecond

/-- Date, time of the day and nanoseconds, to be compared in this order. -/
def key (moment : Moment) : (ℕ ×ₗ ℕ ×ₗ ℕ) ×ₗ ℕ ×ₗ ℕ :=
  toLex (moment.date.key, toLex (moment.time.secondOfDay, moment.nanosecond))

theorem key_lt_iff {left right : Moment} : left.key < right.key ↔
    left.date.key < right.date.key ∨ left.date.key = right.date.key ∧
      (left.time.secondOfDay < right.time.secondOfDay ∨
        left.time.secondOfDay = right.time.secondOfDay ∧ left.nanosecond < right.nanosecond) := by
  rw [key, key, Prod.Lex.toLex_lt_toLex, Prod.Lex.toLex_lt_toLex]

theorem count_lt {left right : Moment} (before : left.key < right.key) :
    left.count < right.count := by
  have leftTime := left.time.secondOfDay_lt
  have leftNanos := left.nanosecond_lt
  unfold daySeconds at leftTime
  unfold count daySeconds nanosPerSecond
  rcases key_lt_iff.mp before with date | ⟨sameDate, time | ⟨sameTime, nanos⟩⟩
  · have days := Date.dayNumber_lt date
    omega
  · rw [Date.of_key sameDate]
    omega
  · rw [Date.of_key sameDate]
    omega

theorem of_key {left right : Moment} (same : left.key = right.key) : left = right := by
  obtain ⟨date, fields⟩ := Prod.mk.inj (toLex.injective same)
  obtain ⟨time, nanos⟩ := Prod.mk.inj (toLex.injective fields)
  cases left
  cases right
  cases Date.of_key date
  cases Time.of_secondOfDay time
  cases nanos
  rfl

/-- Moments are counted in the order of their fields. -/
theorem count_lt_iff {left right : Moment} : left.count < right.count ↔ left.key < right.key := by
  refine ⟨fun less => ?_, count_lt⟩
  rcases lt_trichotomy left.key right.key with before | same | after
  · exact before
  · exact absurd less (of_key same ▸ lt_irrefl _)
  · exact absurd (count_lt after) less.asymm

theorem of_count {left right : Moment} (same : left.count = right.count) : left = right := by
  rcases lt_trichotomy left.key right.key with before | sameKey | after
  · exact absurd same (count_lt before).ne
  · exact of_key sameKey
  · exact absurd same (count_lt after).ne'

/-- A day is over before the next one begins. -/
theorem count_lt_days (moment : Moment) :
    moment.count < (moment.date.dayNumber + 1) * daySeconds * nanosPerSecond := by
  have time := moment.time.secondOfDay_lt
  have nanos := moment.nanosecond_lt
  unfold daySeconds at time
  unfold count daySeconds nanosPerSecond
  omega

/-! ## Texts -/

/-- The digits of a fraction of a second: as few as three, six or nine may be. -/
def fractionDigits (nanosecond : ℕ) : List Char :=
  if nanosecond = 0 then []
  else if nanosecond % 1000000 = 0 then padded 3 (nanosecond / 1000000)
  else if nanosecond % 1000 = 0 then padded 6 (nanosecond / 1000)
  else padded 9 nanosecond

def fractionText (nanosecond : ℕ) : List Char :=
  if nanosecond = 0 then [] else '.' :: fractionDigits nanosecond

/-- The offset of universal time. -/
def offset : List Char := ['+', '0', '0', ':', '0', '0']

/-- A year has four digits. -/
def dateText (date : Date) : List Char :=
  padded 4 date.year ++ '-' :: (padded 2 date.month ++ '-' :: padded 2 date.day)

def timeText (time : Time) : List Char :=
  padded 2 time.hour ++ ':' :: (padded 2 time.minute ++ ':' :: padded 2 time.second)

def text (moment : Moment) : List Char :=
  dateText moment.date ++ 'T' :: (timeText moment.time ++
    (fractionText moment.nanosecond ++ offset))

example : String.ofList (text ⟨⟨2024, 2, 29, by decide, by decide, by decide, by decide⟩,
    ⟨23, 59, 7, by decide, by decide, by decide⟩, 500000, by decide⟩) =
      "2024-02-29T23:59:07.000500+00:00" := by decide

/-! ## The order of the texts -/

/-- The digits of a fraction are the nine digits without some zeros at the end. -/
theorem fractionDigits_eq (nanosecond : ℕ) : ∃ width zeros, width + zeros = 9 ∧
    nanosecond % 10 ^ zeros = 0 ∧ (nanosecond ≠ 0 → 1 ≤ width) ∧
      fractionDigits nanosecond = padded width (nanosecond / 10 ^ zeros) := by
  unfold fractionDigits
  split_ifs with none millis micros
  · exact ⟨0, 9, rfl, by rw [none]; rfl, fun some => absurd none some, rfl⟩
  · exact ⟨3, 6, rfl, millis, fun _ => by decide, rfl⟩
  · exact ⟨6, 3, rfl, micros, fun _ => by decide, rfl⟩
  · exact ⟨9, 0, rfl, Nat.mod_one _, fun _ => by decide, by rw [Nat.pow_zero, Nat.div_one]⟩

theorem fractionDigits_zeros (nanosecond : ℕ) : ∃ zeros,
    fractionDigits nanosecond ++ List.replicate zeros '0' = padded 9 nanosecond := by
  obtain ⟨width, zeros, nine, divides, _, digits⟩ := fractionDigits_eq nanosecond
  refine ⟨zeros, ?_⟩
  rw [digits, ← padded_zeros width zeros nanosecond divides, nine]

theorem fractionDigits_digits (nanosecond : ℕ) :
    ∀ character ∈ fractionDigits nanosecond, isDigit character = true := by
  obtain ⟨width, zeros, _, _, _, digits⟩ := fractionDigits_eq nanosecond
  rw [digits]
  exact padded_digits _ _

theorem fractionDigits_lt {left right : ℕ} (less : left < right) (fits : right < 10 ^ 9) :
    fractionDigits left < fractionDigits right := by
  obtain ⟨leftZeros, leftFull⟩ := fractionDigits_zeros left
  obtain ⟨rightZeros, rightFull⟩ := fractionDigits_zeros right
  have leftLength := congrArg List.length leftFull
  have rightLength := congrArg List.length rightFull
  have ordered := padded_lt less fits
  rw [← leftFull, ← rightFull] at ordered
  refine lt_of_zeros_lt ?_ (fun character listed => ?_) ordered
  · simp only [List.length_append, List.length_replicate, padded_length] at leftLength rightLength
    omega
  · have digit := fractionDigits_digits left character listed
    exact of_decide_eq_true (Bool.and_eq_true_iff.mp digit).1

theorem fractionText_lt {left right : ℕ} (less : left < right) (fits : right < 10 ^ 9) :
    fractionText left < fractionText right := by
  have positive : right ≠ 0 := Nat.ne_zero_of_lt less
  unfold fractionText
  rw [if_neg positive]
  split
  · exact List.nil_lt_cons _ _
  · exact cons_lt (fractionDigits_lt less fits)

/-- The offset comes before the point and before all digits. -/
theorem offset_below (nanosecond : ℕ) :
    ∀ character ∈ fractionText nanosecond, '+' < character := by
  unfold fractionText
  split
  · exact fun _ listed => absurd listed List.not_mem_nil
  · refine List.forall_mem_cons.mpr ⟨by decide, fun character listed => ?_⟩
    have digit := fractionDigits_digits nanosecond character listed
    exact lt_of_lt_of_le (by decide) (of_decide_eq_true (Bool.and_eq_true_iff.mp digit).1)

theorem dateText_lt {left right : Date} (inYears : right.year ≤ 9999)
    (before : left.key < right.key) : dateText left < dateText right := by
  have year : right.year < 10 ^ 4 := Nat.lt_succ_of_le inYears
  have month : right.month < 10 ^ 2 := Nat.lt_of_le_of_lt right.month_le (by decide)
  refine field_lt year ?_
  rcases Date.key_lt_iff.mp before with year | ⟨sameYear, month' | ⟨sameMonth, day⟩⟩
  · exact .inl year
  · exact .inr ⟨sameYear, cons_lt (field_lt month (.inl month'))⟩
  · exact .inr ⟨sameYear, cons_lt (field_lt month
      (.inr ⟨sameMonth, cons_lt (padded_lt day right.day_lt)⟩))⟩

theorem timeText_lt {left right : Time} (before : left.secondOfDay < right.secondOfDay) :
    timeText left < timeText right := by
  have hour : right.hour < 10 ^ 2 := right.hour_lt.trans (by decide)
  have minute : right.minute < 10 ^ 2 := right.minute_lt.trans (by decide)
  have second : right.second < 10 ^ 2 := right.second_lt.trans (by decide)
  refine field_lt hour ?_
  rcases Time.fields_lt before with hour | ⟨sameHour, minute' | ⟨sameMinute, second'⟩⟩
  · exact .inl hour
  · exact .inr ⟨sameHour, cons_lt (field_lt minute (.inl minute'))⟩
  · exact .inr ⟨sameHour, cons_lt (field_lt minute
      (.inr ⟨sameMinute, cons_lt (padded_lt second' second)⟩))⟩

@[simp] theorem dateText_length (date : Date) : (dateText date).length = 10 := by
  simp [dateText]

@[simp] theorem timeText_length (time : Time) : (timeText time).length = 8 := by
  simp [timeText]

/-- Later moments have greater texts. -/
theorem text_lt {left right : Moment} (inYears : right.date.year ≤ 9999)
    (before : left.key < right.key) : left.text < right.text := by
  refine (append_lt_append_iff (by simp)).mpr ?_
  rcases key_lt_iff.mp before with date | ⟨sameDate, sameOrLater⟩
  · exact .inl (dateText_lt inYears date)
  · refine .inr ⟨by rw [Date.of_key sameDate], cons_lt ((append_lt_append_iff (by simp)).mpr ?_)⟩
    rcases sameOrLater with time | ⟨sameTime, nanos⟩
    · exact .inl (timeText_lt time)
    · refine .inr ⟨by rw [Time.of_secondOfDay sameTime], ?_⟩
      exact terminated_lt (offset_below _) (fractionText_lt nanos right.nanosecond_lt)

/-- Texts of moments in years of four digits stand in the order of the moments. -/
theorem text_lt_iff {left right : Moment} (leftIn : left.date.year ≤ 9999)
    (rightIn : right.date.year ≤ 9999) : left.text < right.text ↔ left.count < right.count := by
  rw [count_lt_iff]
  refine ⟨fun less => ?_, text_lt rightIn⟩
  rcases lt_trichotomy left.key right.key with before | same | after
  · exact before
  · exact absurd less (of_key same ▸ lt_irrefl _)
  · exact absurd (text_lt leftIn after) less.asymm

/-- The texts are ASCII. -/
theorem text_narrow (moment : Moment) : ∀ character ∈ moment.text, character.utf8Size = 1 := by
  have digits (width number : ℕ) :
      ∀ character ∈ padded width number, character.utf8Size = 1 :=
    fun character listed => narrow_of_isDigit (padded_digits width number character listed)
  have fraction : ∀ character ∈ fractionText moment.nanosecond, character.utf8Size = 1 := by
    unfold fractionText
    split
    · simp
    · exact List.forall_mem_cons.mpr ⟨rfl, fun character listed =>
        narrow_of_isDigit (fractionDigits_digits _ character listed)⟩
  simp only [text, dateText, timeText, offset, List.forall_mem_append, List.forall_mem_cons]
  refine ⟨⟨digits _ _, rfl, digits _ _, rfl, digits _ _⟩, rfl,
    ⟨digits _ _, rfl, digits _ _, rfl, digits _ _⟩, fraction, ?_⟩
  exact ⟨rfl, rfl, rfl, rfl, rfl, rfl, List.forall_mem_nil _⟩

end Moment

/-! ## The moment of a count -/

section MomentOf

variable {bound count : ℕ}
  (known : count / nanosPerSecond / daySeconds < yearStart (bound + 1))

/-- The moment of a count that lies before the end of the bounding year. -/
def momentOf : Moment where
  date := dateOf known
  time := .ofSecond (count / nanosPerSecond % daySeconds) (Nat.mod_lt _ (by decide))
  nanosecond := count % nanosPerSecond
  nanosecond_lt := Nat.mod_lt _ (by decide)

theorem momentOf_year_le : (momentOf known).date.year ≤ bound := dateOf_year_le known

theorem momentOf_count : (momentOf known).count = count := by
  unfold Moment.count
  rw [momentOf, dateOf_dayNumber, Time.ofSecond_secondOfDay, Nat.div_add_mod', Nat.div_add_mod']

end MomentOf

/-! ## Reading -/

open Moment

def dateOfFields (year month day : ℕ) : Option Date :=
  if fits : (1 ≤ month ∧ month ≤ 12) ∧ 1 ≤ day ∧ day ≤ monthLength (isLeap year) month then
    some ⟨year, month, day, fits.1.1, fits.1.2, fits.2.1, fits.2.2⟩
  else none

def timeOfFields (hour minute second : ℕ) : Option Time :=
  if fits : hour < 24 ∧ minute < 60 ∧ second < 60 then
    some ⟨hour, minute, second, fits.1, fits.2.1, fits.2.2⟩
  else none

def readDate (text : List Char) : Option (Date × List Char) := do
  let (year, text) ← takeNumber 4 text
  let text ← takeChar '-' text
  let (month, text) ← takeNumber 2 text
  let text ← takeChar '-' text
  let (day, text) ← takeNumber 2 text
  let date ← dateOfFields year month day
  return (date, text)

def readTime (text : List Char) : Option (Time × List Char) := do
  let (hour, text) ← takeNumber 2 text
  let text ← takeChar ':' text
  let (minute, text) ← takeNumber 2 text
  let text ← takeChar ':' text
  let (second, text) ← takeNumber 2 text
  let time ← timeOfFields hour minute second
  return (time, text)

/-- A point and up to nine digits, or nothing. -/
def readFraction : List Char → Option (ℕ × List Char)
  | '.' :: text =>
      let digits := text.takeWhile isDigit
      if 1 ≤ digits.length ∧ digits.length ≤ 9 then
        some (valueOf digits * 10 ^ (9 - digits.length), text.dropWhile isDigit)
      else none
  | text => some (0, text)

/-- Read a moment in universal time. -/
def readMoment (text : List Char) : Option Moment := do
  let (date, text) ← readDate text
  let text ← takeChar 'T' text
  let (time, text) ← readTime text
  let (nanosecond, text) ← readFraction text
  if fits : nanosecond < 10 ^ 9 ∧ text = offset then some ⟨date, time, nanosecond, fits.1⟩
  else none

theorem readDate_dateText (date : Date) (inYears : date.year ≤ 9999) (rest : List Char) :
    readDate (dateText date ++ rest) = some (date, rest) := by
  have year : date.year < 10 ^ 4 := Nat.lt_succ_of_le inYears
  have month : date.month < 10 ^ 2 := Nat.lt_of_le_of_lt date.month_le (by decide)
  have day : date.day < 10 ^ 2 := date.day_lt
  have fields : dateOfFields date.year date.month date.day = some date :=
    dif_pos ⟨⟨date.month_pos, date.month_le⟩, date.day_pos, date.day_le⟩
  simp [readDate, dateText, takeNumber_padded year, takeNumber_padded month, takeNumber_padded day,
    fields]

theorem readTime_timeText (time : Time) (rest : List Char) :
    readTime (timeText time ++ rest) = some (time, rest) := by
  have hour : time.hour < 10 ^ 2 := time.hour_lt.trans (by decide)
  have minute : time.minute < 10 ^ 2 := time.minute_lt.trans (by decide)
  have second : time.second < 10 ^ 2 := time.second_lt.trans (by decide)
  have fields : timeOfFields time.hour time.minute time.second = some time :=
    dif_pos ⟨time.hour_lt, time.minute_lt, time.second_lt⟩
  simp [readTime, timeText, takeNumber_padded hour, takeNumber_padded minute,
    takeNumber_padded second, fields]

/-- The digits of a fraction, whatever their number, stand for the whole of it. -/
theorem valueOf_fractionDigits {nanosecond : ℕ} (fits : nanosecond < 10 ^ 9) :
    (fractionDigits nanosecond).length ≤ 9 ∧
      (nanosecond ≠ 0 → 1 ≤ (fractionDigits nanosecond).length) ∧
      valueOf (fractionDigits nanosecond) * 10 ^ (9 - (fractionDigits nanosecond).length) =
        nanosecond := by
  obtain ⟨width, zeros, nine, divides, nonempty, digits⟩ := fractionDigits_eq nanosecond
  have inside : nanosecond / 10 ^ zeros < 10 ^ width := by
    rw [← nine, Nat.pow_add, Nat.mul_comm] at fits
    exact Nat.div_lt_of_lt_mul fits
  rw [digits, padded_length, valueOf_padded inside]
  refine ⟨by omega, nonempty, ?_⟩
  rw [← nine, Nat.add_sub_cancel_left]
  exact Nat.div_mul_cancel (Nat.dvd_of_mod_eq_zero divides)

theorem readFraction_fractionText {nanosecond : ℕ} (fits : nanosecond < 10 ^ 9) :
    readFraction (fractionText nanosecond ++ offset) = some (nanosecond, offset) := by
  unfold fractionText
  split
  next none => rw [none]; rfl
  next some =>
    have digits := fractionDigits_digits nanosecond
    have taken : (fractionDigits nanosecond ++ offset).takeWhile isDigit =
        fractionDigits nanosecond := by
      rw [List.takeWhile_append_of_pos digits]
      exact List.append_nil _
    have dropped : (fractionDigits nanosecond ++ offset).dropWhile isDigit = offset := by
      rw [List.dropWhile_append_of_pos digits]
      rfl
    obtain ⟨few, nonempty, value⟩ := valueOf_fractionDigits fits
    rw [List.cons_append, readFraction]
    simp only [taken, dropped]
    rw [if_pos ⟨nonempty some, few⟩, value]

/-- The text of a moment in a year of four digits reads back. -/
theorem readMoment_text (moment : Moment) (inYears : moment.date.year ≤ 9999) :
    readMoment moment.text = some moment := by
  simpa [readMoment, Moment.text, readDate_dateText moment.date inYears, readTime_timeText,
    readFraction_fractionText moment.nanosecond_lt] using moment.nanosecond_lt

end Rfc3339
