import Ecu.Lib.Calendar
import Ecu.Time.Datetime

/-!
# Seconds since 1970 (`datetime.c`)

`GreenTimeSwitch` counts a day more every fourth year and computes in an `int` of 32 bits. The years that it takes end
with 9000, the seconds that an `int` holds in January 2038: up to there it is the calendar, and no further
(`green_time_iff`).
-/

namespace Ecu.Time

open Calendar

/-- `DATETIME` -/
structure Datetime where
  century : Byte
  year : Byte
  month : Byte
  day : Byte
  hour : Byte
  minute : Byte
  second : Byte
deriving DecidableEq

/-- `timeSwitch` -/
def timeSwitch (time : List Byte) : Datetime where
  century := field time 0
  year := field time 2
  month := field time 4
  day := field time 6
  hour := field time 8
  minute := field time 10
  second := field time 12

/-- The days before a month, of which February has 28. -/
def monthDay : Nat → Int
  | 2 => 31
  | 3 => 59
  | 4 => 90
  | 5 => 120
  | 6 => 151
  | 7 => 181
  | 8 => 212
  | 9 => 243
  | 10 => 273
  | 11 => 304
  | 12 => 334
  | _ => 0

/-- `GreenTimeSwitch`; an `int` that is too large wraps. -/
def greenTimeSwitch (curData : Datetime) : Int :=
  let curyear : Int := curData.century.toNat * 100 + curData.year.toNat
  if curyear < 1970 ∨ curyear > 9000 then 0
  else
    let cyear := curyear - 1970
    let cday := cyear / 4 * (365 * 3 + 366)
    let cday := if cyear % 4 ≥ 3 then cday + ((cyear % 4 - 1) * 365 + 366) else cday + cyear % 4 * 365
    let curmonthday := monthDay curData.month.toNat
    let curmonthday := if curyear % 4 = 0 ∧ curData.month.toNat ≥ 3 then curmonthday + 1 else curmonthday
    let cday := cday + curmonthday
    let cday := cday + (curData.day.toNat - 1)
    (((cday * 24 + curData.hour.toNat) * 60 + curData.minute.toNat) * 60 + curData.second.toNat).bmod (2 ^ 32)

/-- The members of a date-time. -/
def Datetime.of (t : DateTime) : Datetime where
  century := UInt8.ofNat (t.year / 100)
  year := UInt8.ofNat (t.year % 100)
  month := UInt8.ofNat t.month
  day := UInt8.ofNat t.day
  hour := UInt8.ofNat t.hour
  minute := UInt8.ofNat t.minute
  second := UInt8.ofNat t.second

/-- The first second of 1970. -/
def epoch : DateTime :=
  ⟨1970, 1, 1, 0, 0, 0⟩

def sinceEpoch (t : DateTime) : Int :=
  t.seconds - epoch.seconds

/-- The years that are taken. -/
structure Accepted (t : DateTime) : Prop where
  valid : t.Valid
  year : 1970 ≤ t.year ∧ t.year ≤ 9000

/-! ## The members -/

theorem toNat_ofNat {n : Nat} (small : n < 256) : (UInt8.ofNat n).toNat = n := by
  rw [UInt8.toNat_ofNat']
  exact Nat.mod_eq_of_lt small

/-- The fourteen digits are read back. -/
theorem timeSwitch_digits {t : DateTime} (accepted : Accepted t) :
    timeSwitch (twoDigits (t.year / 100) ++ twoDigits (t.year % 100) ++ twoDigits t.month ++ twoDigits t.day ++
      twoDigits t.hour ++ twoDigits t.minute ++ twoDigits t.second) = Datetime.of t := by
  obtain ⟨valid, low, high⟩ := accepted
  have month := valid.month.2
  have day := day_le_31 valid
  have hour := valid.hour
  have minute := valid.minute
  have second := valid.second
  have read (before after : List Byte) {n : Nat} (small : n < 100) :
      field (before ++ twoDigits n ++ after) before.length = UInt8.ofNat n := by
    apply UInt8.toNat_inj.1
    rw [field_twoDigits before after small, toNat_ofNat (by omega)]
  have century := read [] (twoDigits (t.year % 100) ++ twoDigits t.month ++ twoDigits t.day ++
    twoDigits t.hour ++ twoDigits t.minute ++ twoDigits t.second) (n := t.year / 100) (by omega)
  have year := read (twoDigits (t.year / 100)) (twoDigits t.month ++ twoDigits t.day ++
    twoDigits t.hour ++ twoDigits t.minute ++ twoDigits t.second) (n := t.year % 100) (by omega)
  have monthRead := read (twoDigits (t.year / 100) ++ twoDigits (t.year % 100)) (twoDigits t.day ++
    twoDigits t.hour ++ twoDigits t.minute ++ twoDigits t.second) (n := t.month) (by omega)
  have dayRead := read (twoDigits (t.year / 100) ++ twoDigits (t.year % 100) ++ twoDigits t.month)
    (twoDigits t.hour ++ twoDigits t.minute ++ twoDigits t.second) (n := t.day) (by omega)
  have hourRead := read (twoDigits (t.year / 100) ++ twoDigits (t.year % 100) ++ twoDigits t.month ++ twoDigits t.day)
    (twoDigits t.minute ++ twoDigits t.second) (n := t.hour) (by omega)
  have minuteRead := read (twoDigits (t.year / 100) ++ twoDigits (t.year % 100) ++ twoDigits t.month ++
    twoDigits t.day ++
    twoDigits t.hour) (twoDigits t.second) (n := t.minute) (by omega)
  have secondRead := read (twoDigits (t.year / 100) ++ twoDigits (t.year % 100) ++ twoDigits t.month ++
    twoDigits t.day ++
    twoDigits t.hour ++ twoDigits t.minute) [] (n := t.second) (by omega)
  simp only [List.append_assoc, List.nil_append, List.append_nil, List.length_append, List.length_nil, twoDigits,
    List.length_cons] at century year monthRead dayRead hourRead minuteRead secondRead
  simp only [timeSwitch, Datetime.of, twoDigits, List.append_assoc]
  rw [century, year, monthRead, dayRead, hourRead, minuteRead, secondRead]

/-! ## The days -/

/-- Up to 2100 every fourth year is a leap year. -/
theorem leap_iff {year : Nat} (century : 1900 < year ∧ year < 2100) : Leap year ↔ year % 4 = 0 := by
  unfold Leap
  omega

/-- The days of the years since 1970. -/
theorem daysOfYears_since {first n : Nat} (year : first = 1970) (small : n ≤ 130) :
    (daysOfYears (first + n) : Int) = daysOfYears first +
      (if (n : Int) % 4 ≥ 3 then (n : Int) / 4 * (365 * 3 + 366) + (((n : Int) % 4 - 1) * 365 + 366)
        else (n : Int) / 4 * (365 * 3 + 366) + (n : Int) % 4 * 365) := by
  induction n with
  | zero => simp
  | succ n ih =>
    have before := ih (by omega)
    have february : monthDays (first + n) 2 = if (first + n) % 4 = 0 then 29 else 28 := by
      rw [monthDays, if_pos rfl]
      exact if_congr (leap_iff (by omega)) rfl rfl
    have own := daysOfMonths_year (first + n)
    rw [← Nat.add_assoc, daysOfYears, own, february]
    push_cast
    split_ifs at * <;> omega

/-- The days of the months before. -/
theorem daysOfMonths_before {year month : Nat} (century : 1900 < year ∧ year < 2100) (valid : 1 ≤ month ∧ month ≤ 12) :
    (daysOfMonths year (month - 1) : Int) =
      if (year : Int) % 4 = 0 ∧ month ≥ 3 then monthDay month + 1 else monthDay month := by
  have february : monthDays year 2 = if year % 4 = 0 then 29 else 28 := by
    rw [monthDays, if_pos rfl]
    exact if_congr (leap_iff century) rfl rfl
  have others {m : Nat} (other : m ≠ 2) : monthDays year m = if m = 4 ∨ m = 6 ∨ m = 9 ∨ m = 11 then 30 else 31 :=
    if_neg other
  have cast : (year : Int) % 4 = 0 ↔ year % 4 = 0 := by omega
  obtain ⟨low, high⟩ := valid
  by_cases leap : year % 4 = 0
  · rw [if_pos leap] at february
    interval_cases month <;> simp [daysOfMonths, monthDay, february, others, cast, leap]
  · rw [if_neg leap] at february
    interval_cases month <;> simp [daysOfMonths, monthDay, february, others, cast, leap]

/-- Before 2100 the days are those of the calendar; what is left is the width of an `int`. -/
theorem greenTimeSwitch_eq {t : DateTime} (accepted : Accepted t) (century : t.year < 2100) :
    greenTimeSwitch (Datetime.of t) = (sinceEpoch t).bmod (2 ^ 32) := by
  obtain ⟨valid, low, high⟩ := accepted
  have day := day_le_31 valid
  have hour := valid.hour
  have minute := valid.minute
  have second := valid.second
  have month := valid.month
  obtain ⟨n, year⟩ := Nat.exists_eq_add_of_le low
  obtain ⟨first, since⟩ : ∃ first, first = 1970 := ⟨_, rfl⟩
  have years := daysOfYears_since (n := n) since (by omega)
  have months := @daysOfMonths_before t.year t.month (by omega) month
  have curyear : ((t.year / 100 : Nat) : Int) * 100 + ((t.year % 100 : Nat) : Int) = 1970 + n := by omega
  have cyear : (1970 + n : Int) - 1970 = n := by omega
  have elapsed : sinceEpoch t = (((((daysOfYears (first + n) - daysOfYears first : Int) +
      daysOfMonths t.year (t.month - 1) + (t.day - 1)) * 24 + t.hour) * 60 + t.minute) * 60 + t.second) := by
    have start : epoch.seconds = (daysOfYears first + 1) * 24 * 60 * 60 := by
      have year₀ : epoch.year = first := since.symm
      rw [DateTime.seconds, dayNumber, year₀]
      simp only [epoch, daysOfMonths, Nat.sub_self, Nat.add_zero]
    rw [sinceEpoch, start, DateTime.seconds, dayNumber, year, ← since]
    push_cast
    ring
  unfold greenTimeSwitch Datetime.of
  dsimp only
  rw [toNat_ofNat (by omega), toNat_ofNat (by omega), toNat_ofNat (by omega), toNat_ofNat (by omega),
    toNat_ofNat (by omega), toNat_ofNat (by omega), toNat_ofNat (by omega), curyear, cyear, if_neg (by omega)]
  have year' : (t.year : Int) = 1970 + n := by omega
  rw [year'] at months
  rw [← months, elapsed, years]
  refine congrArg (Int.bmod · (2 ^ 32)) ?_
  split_ifs <;> ring

/-! ## The seconds -/

theorem epoch_valid : epoch.Valid := by
  constructor <;> decide

theorem sinceEpoch_nonneg {t : DateTime} (accepted : Accepted t) : 0 ≤ sinceEpoch t := by
  have digits : epoch.number ≤ t.number := by
    have year := accepted.year.1
    have month := accepted.valid.month.1
    have day := accepted.valid.day.1
    unfold DateTime.number epoch
    dsimp only
    omega
  have order := (number_le_iff epoch_valid accepted.valid).1 digits
  rw [sinceEpoch]
  omega

/-- What an `int` holds ends before 2100. -/
theorem sinceEpoch_late {t : DateTime} (accepted : Accepted t) (late : 2100 ≤ t.year) : 2 ^ 31 ≤ sinceEpoch t := by
  have low := (dayNumber_bounds accepted.valid).1
  have high := (dayNumber_bounds epoch_valid).2
  have year : epoch.year = 1970 := rfl
  have rest : epoch.hour = 0 ∧ epoch.minute = 0 ∧ epoch.second = 0 := ⟨rfl, rfl, rfl⟩
  rw [sinceEpoch, DateTime.seconds, DateTime.seconds, rest.1, rest.2.1, rest.2.2]
  rw [year] at high ⊢
  omega

theorem greenTimeSwitch_lt (curData : Datetime) : greenTimeSwitch curData < 2 ^ 31 := by
  unfold greenTimeSwitch
  dsimp only
  split
  · decide
  · exact Int.bmod_lt (by decide)

theorem greenTimeSwitch_exact {t : DateTime} (accepted : Accepted t) (small : sinceEpoch t < 2 ^ 31) :
    greenTimeSwitch (Datetime.of t) = sinceEpoch t := by
  have century : t.year < 2100 := by
    by_contra late
    exact absurd (sinceEpoch_late accepted (Nat.le_of_not_lt late)) (Int.not_le.2 small)
  have start := sinceEpoch_nonneg accepted
  rw [greenTimeSwitch_eq accepted century]
  apply Int.bmod_eq_of_le <;> omega

theorem sinceEpoch_lt_of_number {t last : DateTime} (left : t.Valid) (right : last.Valid)
    (less : t.number < last.number) :
    sinceEpoch t < sinceEpoch last := by
  have order := seconds_lt_of_number left right less
  unfold sinceEpoch
  omega

/-- The seconds of a date are those of the calendar, and more than those of the dates before. -/
structure Counted (last : DateTime) : Prop where
  exact : greenTimeSwitch (Datetime.of last) = sinceEpoch last
  increasing : ∀ t, Accepted t → t.number < last.number →
    greenTimeSwitch (Datetime.of t) < greenTimeSwitch (Datetime.of last)

/-- The seconds are right up to 03:14:07 on 19 January 2038. -/
theorem green_time_iff {last : DateTime} (accepted : Accepted last) : Counted last ↔ sinceEpoch last < 2 ^ 31 := by
  constructor
  · intro counted
    rw [← counted.exact]
    exact greenTimeSwitch_lt _
  · intro small
    have exact := greenTimeSwitch_exact accepted small
    refine ⟨exact, fun t earlier less => ?_⟩
    have order := sinceEpoch_lt_of_number earlier.valid accepted.valid less
    rw [exact, greenTimeSwitch_exact earlier (order.trans small)]
    exact order

theorem accepted_2017 : Accepted ⟨2017, 9, 7, 21, 28, 25⟩ := by
  constructor
  · constructor <;> decide
  · decide

theorem green_time_2017 : Counted ⟨2017, 9, 7, 21, 28, 25⟩ ↔ sinceEpoch ⟨2017, 9, 7, 21, 28, 25⟩ < 2 ^ 31 :=
  green_time_iff accepted_2017

/-- The next second is one of 1901. -/
theorem seconds_2038 : ¬ ∀ last : DateTime, Accepted last → Counted last := by
  intro claim
  have accepted : Accepted ⟨2038, 1, 19, 3, 14, 8⟩ := by
    constructor
    · constructor <;> decide
    · decide
  have exact := (claim _ accepted).exact
  have wrapped : greenTimeSwitch (Datetime.of ⟨2038, 1, 19, 3, 14, 8⟩) = -2147483648 := by decide
  have positive := sinceEpoch_nonneg accepted
  omega

end Ecu.Time
