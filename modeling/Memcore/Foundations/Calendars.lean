import Mathlib.Data.Nat.Find
import Mathlib.Data.Prod.Lex
import Mathlib.Tactic.IntervalCases

/-!
# The calendar and the clock

Days are counted from the first day of the year zero of the Gregorian calendar, which is
extended backwards. A date stands for one day, and every day has a date. Later dates stand for
later days, so that dates are compared field by field. The same holds for the time of the day:
the days all have the same number of seconds.
-/
namespace Calendars

def isLeap (year : ℕ) : Bool := year % 4 == 0 && (year % 100 != 0 || year % 400 == 0)

def yearLength (year : ℕ) : ℕ := if isLeap year then 366 else 365

/-- The number of a year's first day: a day more for each leap year before it. -/
def yearStart (year : ℕ) : ℕ := 365 * year + (year + 3) / 4 + (year + 399) / 400 - (year + 99) / 100

def monthLength (leap : Bool) : ℕ → ℕ
  | 2 => if leap then 29 else 28
  | 4 | 6 | 9 | 11 => 30
  | _ => 31

/-- The days of a year before a month. The first month has the number one. -/
def monthStart (leap : Bool) : ℕ → ℕ
  | 0 => 0
  | 1 => 0
  | month + 2 => monthStart leap (month + 1) + monthLength leap (month + 1)

/-- Of the years up to the next one, one more is a multiple if this year is one. -/
theorem multiples_succ {step : ℕ} (positive : 0 < step) (year : ℕ) :
    (year + 1 + (step - 1)) / step =
      (year + (step - 1)) / step + if year % step = 0 then 1 else 0 := by
  have last : year + 1 + (step - 1) = year + (step - 1) + 1 := Nat.add_right_comm _ _ _
  have divides : step ∣ year + (step - 1) + 1 ↔ year % step = 0 := by
    rw [Nat.add_assoc, Nat.sub_add_cancel positive, ← Nat.dvd_add_iff_left (dvd_refl step),
      Nat.dvd_iff_mod_eq_zero]
  rw [last, Nat.succ_div]
  simp only [divides]

theorem multiples_le (year : ℕ) : (year + 99) / 100 ≤ 365 * year := by omega

theorem yearLength_eq (year : ℕ) : yearLength year + (if year % 100 = 0 then 1 else 0) =
    365 + (if year % 4 = 0 then 1 else 0) + if year % 400 = 0 then 1 else 0 := by
  have hundredth : year % 400 = 0 → year % 100 = 0 := by omega
  have fourth : year % 100 = 0 → year % 4 = 0 := by omega
  unfold yearLength isLeap
  by_cases inHundreds : year % 100 = 0
  · simp [inHundreds, fourth inHundreds]
    split <;> rfl
  · have notFourHundredth : ¬ year % 400 = 0 := fun all => inHundreds (hundredth all)
    simp [inHundreds, notFourHundredth]
    split <;> rfl

theorem yearStart_succ (year : ℕ) : yearStart (year + 1) = yearStart year + yearLength year := by
  have fourths : (year + 1 + 3) / 4 = _ := @multiples_succ 4 (by decide) year
  have hundreds : (year + 1 + 99) / 100 = _ := @multiples_succ 100 (by decide) year
  have fourHundreds : (year + 1 + 399) / 400 = _ := @multiples_succ 400 (by decide) year
  have counted := yearLength_eq year
  have fewer := multiples_le year
  rw [yearStart, yearStart, fourths, hundreds, fourHundreds]
  simp only [Nat.reduceSub]
  generalize yearLength year = days at counted ⊢
  generalize (year + 3) / 4 = fours
  generalize (year + 99) / 100 = centuries at fewer ⊢
  generalize (year + 399) / 400 = cycles
  split at counted <;> omega

theorem monthStart_succ {leap : Bool} {month : ℕ} (positive : 1 ≤ month) :
    monthStart leap (month + 1) = monthStart leap month + monthLength leap month := by
  obtain ⟨before, rfl⟩ := Nat.exists_eq_add_of_le' positive
  rfl

/-- The twelve months make up the year. -/
theorem monthStart_thirteen (year : ℕ) : monthStart (isLeap year) 13 = yearLength year := by
  unfold yearLength
  cases isLeap year <;> rfl

theorem yearStart_le {earlier later : ℕ} (before : earlier ≤ later) :
    yearStart earlier ≤ yearStart later := by
  induction later, before using Nat.le_induction with
  | base => exact le_refl _
  | succ year _ inductionHypothesis =>
    rw [yearStart_succ]
    exact inductionHypothesis.trans (Nat.le_add_right _ _)

theorem monthStart_le {leap : Bool} {earlier later : ℕ} (positive : 1 ≤ earlier)
    (before : earlier ≤ later) : monthStart leap earlier ≤ monthStart leap later := by
  induction later, before using Nat.le_induction with
  | base => exact le_refl _
  | succ month after inductionHypothesis =>
    rw [monthStart_succ (positive.trans after)]
    exact inductionHypothesis.trans (Nat.le_add_right _ _)

/-! ## Dates -/

/-- A day of a month that has it. -/
structure Date where
  year : ℕ
  month : ℕ
  day : ℕ
  month_pos : 1 ≤ month
  month_le : month ≤ 12
  day_pos : 1 ≤ day
  day_le : day ≤ monthLength (isLeap year) month

namespace Date

/-- The number of the day in its year, from zero on. -/
def dayOfYear (date : Date) : ℕ := monthStart (isLeap date.year) date.month + (date.day - 1)

def dayNumber (date : Date) : ℕ := yearStart date.year + date.dayOfYear

theorem dayOfYear_lt_month (date : Date) :
    date.dayOfYear < monthStart (isLeap date.year) (date.month + 1) := by
  rw [monthStart_succ date.month_pos]
  have positive := date.day_pos
  have fits := date.day_le
  unfold dayOfYear
  omega

theorem dayOfYear_lt (date : Date) : date.dayOfYear < yearLength date.year := by
  rw [← monthStart_thirteen]
  exact date.dayOfYear_lt_month.trans_le
    (monthStart_le (Nat.succ_pos _) (Nat.succ_le_succ date.month_le))

theorem dayNumber_lt_year (date : Date) : date.dayNumber < yearStart (date.year + 1) := by
  rw [yearStart_succ]
  exact Nat.add_lt_add_left date.dayOfYear_lt _

theorem day_lt (date : Date) : date.day < 100 := by
  refine Nat.lt_of_le_of_lt date.day_le (Nat.lt_of_le_of_lt ?_ (show 31 < 100 by decide))
  unfold monthLength
  split
  · split <;> decide
  · decide
  · decide
  · decide
  · decide
  · decide

/-- Year, month and day, to be compared in this order. -/
def key (date : Date) : ℕ ×ₗ ℕ ×ₗ ℕ := toLex (date.year, toLex (date.month, date.day))

theorem key_lt_iff {left right : Date} : left.key < right.key ↔ left.year < right.year ∨
    left.year = right.year ∧ (left.month < right.month ∨
      left.month = right.month ∧ left.day < right.day) := by
  rw [key, key, Prod.Lex.toLex_lt_toLex, Prod.Lex.toLex_lt_toLex]

theorem of_key {left right : Date} (same : left.key = right.key) : left = right := by
  obtain ⟨year, fields⟩ := Prod.mk.inj (toLex.injective same)
  obtain ⟨month, day⟩ := Prod.mk.inj (toLex.injective fields)
  cases left
  cases right
  cases year
  cases month
  cases day
  rfl

/-- A later date stands for a later day. -/
theorem dayNumber_lt {left right : Date} (before : left.key < right.key) :
    left.dayNumber < right.dayNumber := by
  rcases key_lt_iff.mp before with year | ⟨sameYear, month | ⟨sameMonth, day⟩⟩
  · exact left.dayNumber_lt_year.trans_le
      ((yearStart_le year).trans (Nat.le_add_right _ _))
  · have inYear : left.dayOfYear < right.dayOfYear := by
      refine left.dayOfYear_lt_month.trans_le (le_trans ?_ (Nat.le_add_right _ _))
      rw [sameYear]
      exact monthStart_le (Nat.succ_pos _) month
    unfold dayNumber
    rw [sameYear]
    exact Nat.add_lt_add_left inYear _
  · have positive := left.day_pos
    unfold dayNumber dayOfYear
    rw [sameYear, sameMonth]
    omega

end Date

/-! ## The date of a day -/

/-- The last year up to a bound that begins no later than a day. -/
def yearOf (bound days : ℕ) : ℕ := Nat.findGreatest (fun year => yearStart year ≤ days) bound

/-- The last month that begins no later than a day of the year. -/
def monthOf (leap : Bool) (dayOfYear : ℕ) : ℕ :=
  Nat.findGreatest (fun month => monthStart leap month ≤ dayOfYear) 12

theorem yearStart_yearOf (bound days : ℕ) : yearStart (yearOf bound days) ≤ days :=
  @Nat.findGreatest_spec 0 (fun year => yearStart year ≤ days) _ bound (Nat.zero_le bound)
    (Nat.zero_le days)

theorem lt_yearOf_succ {bound days : ℕ} (known : days < yearStart (bound + 1)) :
    days < yearStart (yearOf bound days + 1) := by
  rcases Nat.lt_or_ge (yearOf bound days) bound with less | all
  · exact not_le.mp (@Nat.findGreatest_is_greatest _ (fun year => yearStart year ≤ days) _ bound
      (Nat.lt_succ_self _) less)
  · exact known.trans_le (yearStart_le (Nat.succ_le_succ all))

theorem one_le_monthOf (leap : Bool) (dayOfYear : ℕ) : 1 ≤ monthOf leap dayOfYear :=
  Nat.le_findGreatest (by decide) (Nat.zero_le dayOfYear)

theorem monthStart_monthOf (leap : Bool) (dayOfYear : ℕ) :
    monthStart leap (monthOf leap dayOfYear) ≤ dayOfYear :=
  @Nat.findGreatest_spec 1 (fun month => monthStart leap month ≤ dayOfYear) _ 12 (by decide)
    (Nat.zero_le dayOfYear)

theorem lt_monthOf_succ {leap : Bool} {dayOfYear : ℕ}
    (known : dayOfYear < monthStart leap 13) :
    dayOfYear < monthStart leap (monthOf leap dayOfYear + 1) := by
  rcases Nat.lt_or_ge (monthOf leap dayOfYear) 12 with less | all
  · exact not_le.mp (@Nat.findGreatest_is_greatest _
      (fun month => monthStart leap month ≤ dayOfYear) _ 12 (Nat.lt_succ_self _) less)
  · exact known.trans_le (monthStart_le (by decide) (Nat.succ_le_succ all))

section DateOf

variable {bound days : ℕ} (known : days < yearStart (bound + 1))
include known

theorem sub_yearStart_lt : days - yearStart (yearOf bound days) <
    monthStart (isLeap (yearOf bound days)) 13 := by
  have next := lt_yearOf_succ known
  have begun := yearStart_yearOf bound days
  rw [yearStart_succ] at next
  rw [monthStart_thirteen]
  omega

/-- The date of a day before the end of the bounding year. -/
def dateOf : Date where
  year := yearOf bound days
  month := monthOf (isLeap (yearOf bound days)) (days - yearStart (yearOf bound days))
  day := days - yearStart (yearOf bound days) - monthStart (isLeap (yearOf bound days))
    (monthOf (isLeap (yearOf bound days)) (days - yearStart (yearOf bound days))) + 1
  month_pos := one_le_monthOf _ _
  month_le := Nat.findGreatest_le 12
  day_pos := Nat.succ_pos _
  day_le := by
    have next := lt_monthOf_succ (sub_yearStart_lt known)
    rw [monthStart_succ (one_le_monthOf _ _)] at next
    have begun := monthStart_monthOf (isLeap (yearOf bound days))
      (days - yearStart (yearOf bound days))
    omega

theorem dateOf_year_le : (dateOf known).year ≤ bound := Nat.findGreatest_le bound

theorem dateOf_dayNumber : (dateOf known).dayNumber = days := by
  have yearBegun := yearStart_yearOf bound days
  have monthBegun := monthStart_monthOf (isLeap (yearOf bound days))
    (days - yearStart (yearOf bound days))
  unfold Date.dayNumber Date.dayOfYear
  dsimp only [dateOf]
  omega

end DateOf

/-! ## The time of the day -/

/-- The seconds of a day. -/
def daySeconds : ℕ := 86400

/-- A time of the day, without leap seconds. -/
structure Time where
  hour : ℕ
  minute : ℕ
  second : ℕ
  hour_lt : hour < 24
  minute_lt : minute < 60
  second_lt : second < 60

namespace Time

def secondOfDay (time : Time) : ℕ := time.hour * 3600 + time.minute * 60 + time.second

theorem secondOfDay_lt (time : Time) : time.secondOfDay < daySeconds := by
  have hour := time.hour_lt
  have minute := time.minute_lt
  have second := time.second_lt
  unfold secondOfDay daySeconds
  omega

/-- A greater number of seconds is that of a later time. -/
theorem fields_lt {left right : Time} (before : left.secondOfDay < right.secondOfDay) :
    left.hour < right.hour ∨ left.hour = right.hour ∧ (left.minute < right.minute ∨
      left.minute = right.minute ∧ left.second < right.second) := by
  have minutes := right.minute_lt
  have seconds := right.second_lt
  unfold secondOfDay at before
  omega

theorem of_secondOfDay {left right : Time} (same : left.secondOfDay = right.secondOfDay) :
    left = right := by
  have leftMinutes := left.minute_lt
  have leftSeconds := left.second_lt
  have minutes := right.minute_lt
  have seconds := right.second_lt
  unfold secondOfDay at same
  have hour : left.hour = right.hour := by omega
  have minute : left.minute = right.minute := by omega
  have second : left.second = right.second := by omega
  cases left
  cases right
  cases hour
  cases minute
  cases second
  rfl

/-- The time of a second of a day. -/
def ofSecond (second : ℕ) (inDay : second < daySeconds) : Time where
  hour := second / 3600
  minute := second / 60 % 60
  second := second % 60
  hour_lt := by
    unfold daySeconds at inDay
    omega
  minute_lt := Nat.mod_lt _ (by decide)
  second_lt := Nat.mod_lt _ (by decide)

theorem ofSecond_secondOfDay {second : ℕ} (inDay : second < daySeconds) :
    (ofSecond second inDay).secondOfDay = second := by
  unfold secondOfDay ofSecond
  dsimp only
  omega

end Time

end Calendars
