import Mathlib.Tactic.Ring

/-!
# The Gregorian calendar

A day is numbered by the days of the years and months before it, a date-time by the seconds since the beginning of the
year 0. Across the end of a month or of a year the number goes on by one (`dayNumber_next_month`,
`dayNumber_next_year`); `dayNumber_bounds` bounds the day numbers of a year, and the digits of a date-time are ordered
as its seconds are (`number_le_iff`).
-/

namespace Calendar

def Leap (year : Nat) : Prop :=
  year % 4 = 0 ∧ year % 100 ≠ 0 ∨ year % 400 = 0

instance (year : Nat) : Decidable (Leap year) :=
  inferInstanceAs (Decidable (_ ∨ _))

/-- The days of a month, January being 1. -/
def monthDays (year month : Nat) : Nat :=
  if month = 2 then if Leap year then 29 else 28
  else if month = 4 ∨ month = 6 ∨ month = 9 ∨ month = 11 then 30
  else 31

/-- The days of the first `n` months. -/
def daysOfMonths (year : Nat) : Nat → Nat
  | 0 => 0
  | n + 1 => daysOfMonths year n + monthDays year (n + 1)

/-- The days of the years before a year. -/
def daysOfYears : Nat → Nat
  | 0 => 0
  | year + 1 => daysOfYears year + daysOfMonths year 12

def dayNumber (year month day : Nat) : Nat :=
  daysOfYears year + daysOfMonths year (month - 1) + day

structure DateTime where
  year : Nat
  month : Nat
  day : Nat
  hour : Nat
  minute : Nat
  second : Nat
deriving DecidableEq

namespace DateTime

structure Valid (t : DateTime) : Prop where
  month : 1 ≤ t.month ∧ t.month ≤ 12
  day : 1 ≤ t.day ∧ t.day ≤ monthDays t.year t.month
  hour : t.hour < 24
  minute : t.minute < 60
  second : t.second < 60

def seconds (t : DateTime) : Nat :=
  ((dayNumber t.year t.month t.day * 24 + t.hour) * 60 + t.minute) * 60 + t.second

end DateTime

/-! ## Ends of months and years -/

theorem monthDays_bounds (year month : Nat) : 28 ≤ monthDays year month ∧ monthDays year month ≤ 31 := by
  unfold monthDays
  split_ifs <;> omega

theorem dayNumber_next_day (year month day : Nat) : dayNumber year month (day + 1) = dayNumber year month day + 1 :=
  rfl

theorem dayNumber_next_month (year : Nat) {month : Nat} (some : 1 ≤ month) :
    dayNumber year (month + 1) 1 = dayNumber year month (monthDays year month) + 1 := by
  obtain ⟨n, rfl⟩ := Nat.exists_eq_add_of_le' some
  simp only [dayNumber, Nat.add_sub_cancel, daysOfMonths]
  omega

/-- The days of a year, of which only February differs. -/
theorem daysOfMonths_year (year : Nat) : daysOfMonths year 12 = 31 + monthDays year 2 + 306 := by
  have months : daysOfMonths year 12 =
      0 + 31 + monthDays year 2 + 31 + 30 + 31 + 30 + 31 + 31 + 30 + 31 + 30 + 31 := rfl
  omega

theorem dayNumber_next_year (year : Nat) : dayNumber (year + 1) 1 1 = dayNumber year 12 31 + 1 := by
  have months : daysOfMonths year 12 = daysOfMonths year 11 + 31 := rfl
  have none : daysOfMonths (year + 1) (1 - 1) = 0 := rfl
  have before : daysOfMonths year (12 - 1) = daysOfMonths year 11 := rfl
  rw [dayNumber, dayNumber, none, before, daysOfYears]
  omega

/-! ## The years of a day number -/

theorem daysOfYears_bounds (year : Nat) : 365 * year ≤ daysOfYears year ∧ daysOfYears year ≤ 366 * year := by
  induction year with
  | zero => exact ⟨Nat.le_refl 0, Nat.le_refl 0⟩
  | succ year ih =>
    have own := daysOfMonths_year year
    have february : 28 ≤ monthDays year 2 ∧ monthDays year 2 ≤ 29 := by
      rw [monthDays, if_pos rfl]
      split_ifs <;> decide
    rw [daysOfYears]
    omega

theorem daysOfMonths_mono {year n m : Nat} (le : n ≤ m) : daysOfMonths year n ≤ daysOfMonths year m := by
  induction le with
  | refl => exact Nat.le_refl _
  | step _ ih => exact Nat.le_trans ih (Nat.le_add_right _ _)

/-- The day lies in its year. -/
theorem dayNumber_bounds {t : DateTime} (valid : t.Valid) :
    365 * t.year ≤ dayNumber t.year t.month t.day ∧ dayNumber t.year t.month t.day ≤ 366 * (t.year + 1) := by
  obtain ⟨n, month⟩ := Nat.exists_eq_add_of_le' valid.month.1
  have before := daysOfYears_bounds t.year
  have next := daysOfYears_bounds (t.year + 1)
  rw [daysOfYears] at next
  have upTo : daysOfMonths t.year (n + 1) ≤ daysOfMonths t.year 12 := daysOfMonths_mono (by
    have := valid.month.2
    omega)
  have day := valid.day.2
  rw [month] at day
  rw [daysOfMonths] at upTo
  rw [dayNumber, month, Nat.add_sub_cancel]
  omega

/-! ## The order of date-times -/

theorem daysOfYears_mono {year later : Nat} (le : year ≤ later) : daysOfYears year ≤ daysOfYears later := by
  induction le with
  | refl => exact Nat.le_refl _
  | step _ ih => exact Nat.le_trans ih (Nat.le_add_right _ _)

/-! ## Months counted through the years -/

/-- The days before a month; January of the year 0 is the month 0. -/
def monthStart (index : Nat) : Nat :=
  daysOfYears (index / 12) + daysOfMonths (index / 12) (index % 12)

def monthLength (index : Nat) : Nat :=
  monthDays (index / 12) (index % 12 + 1)

theorem monthStart_succ (index : Nat) : monthStart (index + 1) = monthStart index + monthLength index := by
  rw [monthStart, monthStart, monthLength]
  by_cases last : index % 12 = 11
  · have year : (index + 1) / 12 = index / 12 + 1 := by omega
    have january : (index + 1) % 12 = 0 := by omega
    have months : daysOfMonths (index / 12) 12 = daysOfMonths (index / 12) 11 + monthDays (index / 12) 12 := rfl
    rw [year, january, last, daysOfYears, months, daysOfMonths, Nat.add_zero, Nat.add_assoc]
  · have year : (index + 1) / 12 = index / 12 := by omega
    have month : (index + 1) % 12 = index % 12 + 1 := by omega
    rw [year, month, daysOfMonths, Nat.add_assoc]

theorem monthStart_mono {index later : Nat} (le : index ≤ later) : monthStart index ≤ monthStart later := by
  induction le with
  | refl => exact Nat.le_refl _
  | step _ ih =>
    rw [monthStart_succ]
    exact Nat.le_trans ih (Nat.le_add_right _ _)

theorem month_index (year : Nat) {month : Nat} (isMonth : 1 ≤ month ∧ month ≤ 12) :
    (12 * year + (month - 1)) / 12 = year ∧ (12 * year + (month - 1)) % 12 = month - 1 := by
  omega

theorem dayNumber_eq {year month : Nat} (isMonth : 1 ≤ month ∧ month ≤ 12) (day : Nat) :
    dayNumber year month day = monthStart (12 * year + (month - 1)) + day := by
  obtain ⟨quotient, remainder⟩ := month_index year isMonth
  rw [dayNumber, monthStart, quotient, remainder]

theorem monthLength_eq {year month : Nat} (isMonth : 1 ≤ month ∧ month ≤ 12) :
    monthLength (12 * year + (month - 1)) = monthDays year month := by
  obtain ⟨quotient, remainder⟩ := month_index year isMonth
  rw [monthLength, quotient, remainder, Nat.sub_add_cancel isMonth.1]

/-- The days up to the end of the month of a valid day. -/
theorem day_le {t : DateTime} (valid : t.Valid) : daysOfMonths t.year (t.month - 1) + t.day ≤ daysOfMonths t.year
    t.month := by
  obtain ⟨n, month⟩ := Nat.exists_eq_add_of_le' valid.month.1
  have day := valid.day.2
  rw [month] at day ⊢
  rw [Nat.add_sub_cancel, daysOfMonths]
  omega

theorem dayNumber_lt_of_year {a b : DateTime} (left : a.Valid) (right : b.Valid) (less : a.year < b.year) :
    dayNumber a.year a.month a.day < dayNumber b.year b.month b.day := by
  have own := day_le left
  have whole : daysOfMonths a.year a.month ≤ daysOfMonths a.year 12 := daysOfMonths_mono left.month.2
  have next : daysOfYears (a.year + 1) ≤ daysOfYears b.year := daysOfYears_mono less
  have some := right.day.1
  rw [daysOfYears] at next
  unfold dayNumber
  omega

theorem dayNumber_lt_of_month {a b : DateTime} (left : a.Valid) (right : b.Valid) (year : a.year = b.year)
    (less : a.month < b.month) : dayNumber a.year a.month a.day < dayNumber b.year b.month b.day := by
  have own := day_le left
  have next : daysOfMonths a.year a.month ≤ daysOfMonths a.year (b.month - 1) := daysOfMonths_mono (by omega)
  have some := right.day.1
  unfold dayNumber
  rw [← year]
  omega

/-- The digits of a date-time as one number. -/
def DateTime.number (t : DateTime) : Nat :=
  ((((t.year * 100 + t.month) * 100 + t.day) * 100 + t.hour) * 100 + t.minute) * 100 + t.second

theorem day_le_31 {t : DateTime} (valid : t.Valid) : t.day ≤ 31 :=
  valid.day.2.trans (monthDays_bounds t.year t.month).2

theorem seconds_lt_of_number {a b : DateTime} (left : a.Valid) (right : b.Valid) (less : a.number < b.number) :
    a.seconds < b.seconds := by
  have hour := left.hour
  have minute := left.minute
  have second := left.second
  have later (before : dayNumber a.year a.month a.day < dayNumber b.year b.month b.day) : a.seconds < b.seconds := by
    unfold DateTime.seconds
    omega
  have month := left.month.2
  have month' := right.month.2
  have day := day_le_31 left
  have day' := day_le_31 right
  have hour' := right.hour
  have minute' := right.minute
  have second' := right.second
  unfold DateTime.number at less
  rcases Nat.lt_trichotomy a.year b.year with year | year | year
  · exact later (dayNumber_lt_of_year left right year)
  · rcases Nat.lt_trichotomy a.month b.month with before | same | after
    · exact later (dayNumber_lt_of_month left right year before)
    · rw [DateTime.seconds, DateTime.seconds, dayNumber, dayNumber, year, same]
      omega
    · omega
  · omega

theorem number_injective {a b : DateTime} (left : a.Valid) (right : b.Valid) (same : a.number = b.number) : a = b := by
  have month := left.month.2
  have month' := right.month.2
  have day := day_le_31 left
  have day' := day_le_31 right
  have hour := left.hour
  have hour' := right.hour
  have minute := left.minute
  have minute' := right.minute
  have second := left.second
  have second' := right.second
  cases a
  cases b
  simp only [DateTime.number, DateTime.mk.injEq] at *
  omega

theorem number_le_iff {a b : DateTime} (left : a.Valid) (right : b.Valid) :
    a.number ≤ b.number ↔ a.seconds ≤ b.seconds := by
  constructor
  · intro le
    rcases Nat.lt_or_eq_of_le le with less | same
    · exact Nat.le_of_lt (seconds_lt_of_number left right less)
    · rw [number_injective left right same]
  · intro le
    exact Nat.le_of_not_lt fun more => absurd (seconds_lt_of_number right left more) (Nat.not_lt.2 le)

theorem seconds_injective {a b : DateTime} (left : a.Valid) (right : b.Valid) (same : a.seconds = b.seconds) : a = b :=
  number_injective left right
    (Nat.le_antisymm ((number_le_iff left right).2 (Nat.le_of_eq same))
      ((number_le_iff right left).2 (Nat.le_of_eq same.symm)))

end Calendar
