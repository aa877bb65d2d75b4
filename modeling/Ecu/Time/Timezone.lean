import Ecu.Lib.Calendar
import Ecu.Rows

/-!
# The time zone (`ntpcomm.c`)

`update_time` takes the time of an NTP packet as a UTC date-time, adds the hours of `/yuneng/timezone.con` to it and
sets the clock. `transfer_time` carries into the day before or behind by hand: it takes the hour 24 for one of the same
day, and it looks at the length of the month where it means the day (`local_time_iff`).
-/

namespace Ecu.Time

open Socket Calendar

/-- `struct tm` -/
structure Tm where
  year : Int
  mon : Int
  mday : Int
  hour : Int
  min : Int
  sec : Int
deriving DecidableEq

/-- `leap` -/
def leap (year : Int) : Nat :=
  if year % 4 = 0 ∧ year % 100 ≠ 0 ∨ year % 400 = 0 then 1 else 0

/-- `day_tab` -/
def dayTab : List (List Int) :=
  [[31, 28, 31, 30, 31, 30, 31, 31, 30, 31, 30, 31], [31, 29, 31, 30, 31, 30, 31, 31, 30, 31, 30, 31]]

/-- `day_tab[leapflag][mon]` -/
def daysOf (leapflag : Nat) (mon : Int) : Int :=
  (dayTab.getD leapflag []).getD mon.toNat 0

/-- `transfer_time` -/
def transferTime (timenow : Tm) (timezone : Int) : Tm :=
  let leapflag := leap (timenow.year + 1900)
  let timenow := { timenow with hour := timenow.hour + timezone }
  if 24 < timenow.hour then
    let timenow := { timenow with hour := timenow.hour - 24 }
    if timenow.mday = daysOf leapflag timenow.mon then
      if timenow.mon = 11 then { timenow with mday := 1, mon := 0, year := timenow.year + 1 }
      else { timenow with mday := 1, mon := timenow.mon + 1 }
    else { timenow with mday := timenow.mday + 1 }
  else if timenow.hour < 0 then
    let timenow := { timenow with hour := timenow.hour + 24 }
    -- the length of the month, not the day
    if 1 = daysOf leapflag timenow.mon then
      if timenow.mon = 0 then { timenow with mday := 31, mon := 11, year := timenow.year - 1 }
      else { timenow with mday := daysOf leapflag (timenow.mon - 1), mon := timenow.mon - 1 }
    else { timenow with mday := timenow.mday - 1 }
  else timenow

/-- `getTimeZone`: the number behind `Etc/GMT` in the nine characters that are read. -/
def getTimeZone (file : Option (List Byte)) : Int :=
  match file with
  | none => 8
  | some text =>
    let timeZone := atoi (((Lines.takeLine newline 9 text).1 ++ [nul]).drop 7)
    if 12 ≤ timeZone ∨ timeZone ≤ -12 then 8 else timeZone

/-- `%0wd` -/
def zeroPadded (w : Nat) (v : Int) : List Byte :=
  if v < 0 then Decimal.minus :: (List.replicate (w - (Decimal.intText v).length) (digit 0) ++ Decimal.text v.natAbs)
  else List.replicate (w - (Decimal.text v.natAbs).length) (digit 0) ++ Decimal.text v.natAbs

/-- `nowtime` of `update_time` -/
def nowtime (timenow : Tm) : List Byte :=
  zeroPadded 4 (timenow.year + 1900) ++ zeroPadded 2 (timenow.mon + 1) ++ zeroPadded 2 timenow.mday ++
    zeroPadded 2 timenow.hour ++ zeroPadded 2 timenow.min ++ zeroPadded 2 timenow.sec

/-- `update_time`: what it gives to `set_time`. -/
def updateTime (timezoneFile : Option (List Byte)) (timenow : Tm) : List Byte :=
  nowtime (transferTime timenow (getTimeZone timezoneFile))

/-! ## What it is for -/

/-- The broken-down time of a date-time. -/
def Tm.of (t : DateTime) : Tm where
  year := t.year - 1900
  mon := t.month - 1
  mday := t.day
  hour := t.hour
  min := t.minute
  sec := t.second

/-- `localtime` yields it for a number of seconds since 1970 that 32 bits hold, with a sign or without. -/
structure Yielded (t : DateTime) : Prop where
  valid : t.Valid
  low : dayNumber 1970 1 1 * 86400 ≤ t.seconds + 2 ^ 31
  high : t.seconds < dayNumber 1970 1 1 * 86400 + 2 ^ 32

/-- The fourteen digits of a date-time. -/
structure Shows (text : List Byte) (t : DateTime) : Prop where
  length : text.length = 14
  year : Decimal.read? (text.take 4) = some (t.year : Int)
  month : Decimal.read? ((text.drop 4).take 2) = some (t.month : Int)
  day : Decimal.read? ((text.drop 6).take 2) = some (t.day : Int)
  hour : Decimal.read? ((text.drop 8).take 2) = some (t.hour : Int)
  minute : Decimal.read? ((text.drop 10).take 2) = some (t.minute : Int)
  second : Decimal.read? (text.drop 12) = some (t.second : Int)

/-- The clock is set to the valid date-time so many hours later. -/
structure SetLater (timezoneFile : Option (List Byte)) (t later : DateTime) : Prop where
  valid : later.Valid
  hours : (later.seconds : Int) = t.seconds + 3600 * getTimeZone timezoneFile
  tm : transferTime (Tm.of t) (getTimeZone timezoneFile) = Tm.of later
  text : Shows (updateTime timezoneFile (Tm.of t)) later

/-! ## The tables -/

theorem getTimeZone_bounds (file : Option (List Byte)) : -12 < getTimeZone file ∧ getTimeZone file < 12 := by
  unfold getTimeZone
  split
  · decide
  · dsimp only
    split_ifs <;> omega

theorem leap_eq (year : Nat) : leap year = if Leap year then 1 else 0 := by
  have same : ((year : Int) % 4 = 0 ∧ (year : Int) % 100 ≠ 0 ∨ (year : Int) % 400 = 0) ↔ Leap year := by
    unfold Leap
    omega
  rw [leap, if_congr same rfl rfl]

/-- The table has the days of the months. -/
theorem daysOf_month (year : Nat) {month : Nat} (valid : 1 ≤ month ∧ month ≤ 12) :
    daysOf (leap year) (month - 1) = monthDays year month := by
  rw [leap_eq]
  obtain ⟨low, high⟩ := valid
  unfold daysOf monthDays
  by_cases leapYear : Leap year
  · rw [if_pos leapYear, if_pos leapYear]
    interval_cases month <;> rfl
  · rw [if_neg leapYear, if_neg leapYear]
    interval_cases month <;> rfl

/-! ## The digits -/

theorem zeroPadded_eq {w v : Nat} (positive : 0 < w) (small : v < 10 ^ w) :
    zeroPadded w v = Decimal.fixed w (v : Int) := by
  have short := (Decimal.length_text_le_iff positive).2 small
  have nonneg : ¬ (v : Int) < 0 := Int.not_lt.2 (Int.natCast_nonneg v)
  rw [zeroPadded, if_neg nonneg, Decimal.fixed, Decimal.fit, Decimal.intText, if_neg nonneg, Int.natAbs_natCast,
    List.take_of_length_le short]
  rfl

theorem shows_nowtime {t : DateTime} (valid : t.Valid) (small : t.year < 10 ^ 4) : Shows (nowtime (Tm.of t)) t := by
  have two {v : Nat} (below : v < 100) : zeroPadded 2 (v : Int) = Decimal.fixed 2 (v : Int) :=
    zeroPadded_eq (by decide) below
  have read {w v : Nat} (positive : 0 < w) (below : v < 10 ^ w) :
      Decimal.read? (Decimal.fixed w (v : Int)) = some (v : Int) :=
    (Decimal.read_fixed_iff positive v).2 ⟨Int.natCast_nonneg v, by exact_mod_cast below⟩
  have month := valid.month
  have day := valid.day
  have days := monthDays_bounds t.year t.month
  have hour := valid.hour
  have minute := valid.minute
  have second := valid.second
  have year : ((t.year : Int) - 1900 + 1900) = t.year := by omega
  have mon : ((t.month : Int) - 1 + 1) = t.month := by omega
  have text : nowtime (Tm.of t) = Decimal.fixed 4 t.year ++ (Decimal.fixed 2 t.month ++ (Decimal.fixed 2 t.day ++
      (Decimal.fixed 2 t.hour ++ (Decimal.fixed 2 t.minute ++ Decimal.fixed 2 t.second)))) := by
    simp only [nowtime, Tm.of, year, mon]
    rw [zeroPadded_eq (by decide) small, two (by omega), two (by omega), two (by omega), two (by omega),
      two (by omega)]
    simp only [List.append_assoc]
  have behind {w : Nat} {v : Int} {rest : List Byte} : (Decimal.fixed w v ++ rest).drop w = rest :=
    List.drop_left' (Decimal.fixed_length w v)
  have front {w : Nat} {v : Int} {rest : List Byte} : (Decimal.fixed w v ++ rest).take w = Decimal.fixed w v :=
    List.take_left' (Decimal.fixed_length w v)
  constructor
  · simp [text]
  · rw [text, front]
    exact read (by decide) small
  · rw [text, behind, front]
    exact read (by decide) (by omega)
  · rw [text, ← List.drop_drop (i := 2) (j := 4), behind, behind, front]
    exact read (by decide) (by omega)
  · rw [text, ← List.drop_drop (i := 2) (j := 6), ← List.drop_drop (i := 2) (j := 4), behind, behind, behind, front]
    exact read (by decide) (by omega)
  · rw [text, ← List.drop_drop (i := 2) (j := 8), ← List.drop_drop (i := 2) (j := 6),
      ← List.drop_drop (i := 2) (j := 4),
      behind, behind, behind, behind, front]
    exact read (by decide) (by omega)
  · rw [text, ← List.drop_drop (i := 2) (j := 10), ← List.drop_drop (i := 2) (j := 8),
      ← List.drop_drop (i := 2) (j := 6),
      ← List.drop_drop (i := 2) (j := 4), behind, behind, behind, behind, behind]
    exact read (by decide) (by omega)

/-! ## The carries -/

theorem transferTime_over {tm : Tm} {timezone : Int} (above : 24 < tm.hour + timezone) :
    transferTime tm timezone =
      if tm.mday = daysOf (leap (tm.year + 1900)) tm.mon then
        if tm.mon = 11 then ⟨tm.year + 1, 0, 1, tm.hour + timezone - 24, tm.min, tm.sec⟩
        else ⟨tm.year, tm.mon + 1, 1, tm.hour + timezone - 24, tm.min, tm.sec⟩
      else ⟨tm.year, tm.mon, tm.mday + 1, tm.hour + timezone - 24, tm.min, tm.sec⟩ :=
  if_pos above

/-- No month has one day, so the day is counted down on the first one too. -/
theorem transferTime_under {tm : Tm} {timezone : Int} (below : tm.hour + timezone < 0)
    (months : daysOf (leap (tm.year + 1900)) tm.mon ≠ 1) :
    transferTime tm timezone = ⟨tm.year, tm.mon, tm.mday - 1, tm.hour + timezone + 24, tm.min, tm.sec⟩ := by
  have inDay : ¬ 24 < tm.hour + timezone := by omega
  exact (if_neg inDay).trans ((if_pos below).trans (if_neg months.symm))

theorem transferTime_same {tm : Tm} {timezone : Int} (low : 0 ≤ tm.hour + timezone) (high : tm.hour + timezone ≤ 24) :
    transferTime tm timezone = ⟨tm.year, tm.mon, tm.mday, tm.hour + timezone, tm.min, tm.sec⟩ := by
  exact (if_neg (Int.not_lt.2 high)).trans (if_neg (Int.not_lt.2 low))

/-- The date-time is a valid one so many hours later. -/
def Later (t : DateTime) (timezone : Int) : Prop :=
  ∃ later : DateTime, later.Valid ∧ (later.seconds : Int) = t.seconds + 3600 * timezone ∧
    transferTime (Tm.of t) timezone = Tm.of later

theorem daysOf_of {t : DateTime} (valid : t.Valid) :
    daysOf (leap ((Tm.of t).year + 1900)) (Tm.of t).mon = monthDays t.year t.month := by
  rw [← daysOf_month t.year valid.month]
  congr 2
  exact Int.sub_add_cancel _ _

section Carries

variable {t : DateTime} (valid : t.Valid) {timezone : Int}

include valid

theorem later_same_day (low : 0 ≤ t.hour + timezone) (high : t.hour + timezone < 24) : Later t timezone := by
  obtain ⟨hour, same⟩ := Int.eq_ofNat_of_zero_le low
  have below : hour < 24 := by omega
  refine ⟨{ t with hour := hour }, ⟨valid.month, valid.day, below, valid.minute, valid.second⟩, ?_, ?_⟩
  · simp only [DateTime.seconds]
    omega
  · rw [transferTime_same low high.le]
    simp only [Tm.of, same]

theorem later_next_day (above : 24 < t.hour + timezone) (zone : timezone < 12) : Later t timezone := by
  obtain ⟨hour, same⟩ := Int.eq_ofNat_of_zero_le (show 0 ≤ t.hour + timezone - 24 by omega)
  have below : hour < 24 := by
    have := valid.hour
    omega
  have tm : (Tm.of t).hour + timezone - 24 = hour := same
  rw [Later, transferTime_over above, daysOf_of valid, tm]
  by_cases last : t.day = monthDays t.year t.month
  · have here : (Tm.of t).mday = monthDays t.year t.month := congrArg Nat.cast last
    rw [if_pos here]
    have minute := valid.minute
    have second := valid.second
    have month := valid.month
    by_cases december : t.month = 12
    · have first := (monthDays_bounds (t.year + 1) 1).1
      refine ⟨⟨t.year + 1, 1, 1, hour, t.minute, t.second⟩, ?_, ?_, ?_⟩
      · constructor <;> dsimp only <;> omega
      · have next := dayNumber_next_year t.year
        have day : t.day = 31 := by
          rw [last, december]
          rfl
        simp only [DateTime.seconds, december, day]
        omega
      · have mon : (Tm.of t).mon = 11 := by
          simp only [Tm.of]
          omega
        rw [if_pos mon]
        simp [Tm.of]
        omega
    · have first := (monthDays_bounds t.year (t.month + 1)).1
      refine ⟨⟨t.year, t.month + 1, 1, hour, t.minute, t.second⟩, ?_, ?_, ?_⟩
      · constructor <;> dsimp only <;> omega
      · have next := dayNumber_next_month t.year month.1
        simp only [DateTime.seconds, last]
        omega
      · have mon : ¬ (Tm.of t).mon = 11 := by
          simp only [Tm.of]
          omega
        rw [if_neg mon]
        simp [Tm.of]
  · have notHere : ¬ (Tm.of t).mday = monthDays t.year t.month := fun same => last (Int.ofNat_inj.1 same)
    rw [if_neg notHere]
    have day := valid.day
    refine ⟨⟨t.year, t.month, t.day + 1, hour, t.minute, t.second⟩, ?_, ?_, ?_⟩
    · have inMonth : 1 ≤ t.day + 1 ∧ t.day + 1 ≤ monthDays t.year t.month := by omega
      exact ⟨valid.month, inMonth, below, valid.minute, valid.second⟩
    · have next := dayNumber_next_day t.year t.month t.day
      simp only [DateTime.seconds]
      omega
    · simp [Tm.of]

theorem later_day_before (below : t.hour + timezone < 0) (zone : -12 < timezone) (second : 2 ≤ t.day) :
    Later t timezone := by
  obtain ⟨hour, same⟩ := Int.eq_ofNat_of_zero_le (show 0 ≤ t.hour + timezone + 24 by omega)
  obtain ⟨day, isDay⟩ := Nat.exists_eq_add_of_le' (Nat.le_of_succ_le second)
  have days := valid.day
  have months : daysOf (leap ((Tm.of t).year + 1900)) (Tm.of t).mon ≠ 1 := by
    have least := (monthDays_bounds t.year t.month).1
    rw [daysOf_of valid]
    omega
  have inMonth : 1 ≤ day ∧ day ≤ monthDays t.year t.month := by omega
  have inDay : hour < 24 := by omega
  refine ⟨⟨t.year, t.month, day, hour, t.minute, t.second⟩, ⟨valid.month, inMonth, inDay, valid.minute, valid.second⟩,
    ?_, ?_⟩
  · have next := dayNumber_next_day t.year t.month day
    simp only [DateTime.seconds, isDay]
    omega
  · have hours : (Tm.of t).hour + timezone + 24 = hour := same
    rw [transferTime_under below months, hours]
    simp [Tm.of, isDay]

end Carries

/-! ## The clock -/

theorem year_small {t later : DateTime} (yielded : Yielded t) (valid : later.Valid) {timezone : Int}
    (zone : timezone < 12) (hours : (later.seconds : Int) = t.seconds + 3600 * timezone) : later.year < 10 ^ 4 := by
  have epoch : (⟨1970, 1, 1, 0, 0, 0⟩ : DateTime).Valid :=
    ⟨by decide, by decide, by decide, by decide, by decide⟩
  have start : dayNumber 1970 1 1 ≤ 366 * (1970 + 1) := (dayNumber_bounds epoch).2
  have own := (dayNumber_bounds valid).1
  have high := yielded.high
  have days : dayNumber later.year later.month later.day * 86400 ≤ later.seconds := by
    simp only [DateTime.seconds]
    omega
  omega

/-- The clock is set to the date-time so many hours later exactly when this is not at 0 o'clock of the next day and not
on the last day of the month before. -/
theorem local_time_iff (timezoneFile : Option (List Byte)) {t : DateTime} (yielded : Yielded t) :
    (∃ later, SetLater timezoneFile t later) ↔
      t.hour + getTimeZone timezoneFile ≠ 24 ∧ ¬ (t.hour + getTimeZone timezoneFile < 0 ∧ t.day = 1) := by
  obtain ⟨zoneLow, zoneHigh⟩ := getTimeZone_bounds timezoneFile
  have valid := yielded.valid
  constructor
  · rintro ⟨later, set⟩
    constructor
    · intro midnight
      have tm := set.tm
      rw [transferTime_same (by simp only [Tm.of]; omega) (by simp only [Tm.of]; omega)] at tm
      have hour : (t.hour : Int) + getTimeZone timezoneFile = later.hour := congrArg Tm.hour tm
      have below := set.valid.hour
      omega
    · rintro ⟨below, first⟩
      have months : daysOf (leap ((Tm.of t).year + 1900)) (Tm.of t).mon ≠ 1 := by
        have least := (monthDays_bounds t.year t.month).1
        rw [daysOf_of valid]
        omega
      have tm := set.tm
      rw [transferTime_under below months] at tm
      have day : (t.day : Int) - 1 = later.day := congrArg Tm.mday tm
      have some := set.valid.day.1
      omega
  · rintro ⟨notMidnight, notFirst⟩
    have later : Later t (getTimeZone timezoneFile) := by
      rcases Int.lt_or_le (t.hour + getTimeZone timezoneFile) 0 with below | low
      · have first := valid.day.1
        exact later_day_before valid below zoneLow (by omega)
      · rcases Int.lt_or_le 24 (t.hour + getTimeZone timezoneFile) with above | high
        · exact later_next_day valid above zoneHigh
        · exact later_same_day valid low (by omega)
    obtain ⟨later, laterValid, hours, tm⟩ := later
    refine ⟨later, laterValid, hours, tm, ?_⟩
    rw [updateTime, tm]
    exact shows_nowtime laterValid (year_small yielded laterValid zoneHigh hours)

/-- 8 o'clock in the evening of the last day of a year, eight hours before the zone of the factory setting. -/
theorem local_time_sample : ∃ later, SetLater none ⟨2017, 12, 31, 20, 0, 0⟩ later := by
  have yielded : Yielded ⟨2017, 12, 31, 20, 0, 0⟩ := by
    refine ⟨⟨by decide, by decide, by decide, by decide, by decide⟩, ?_, ?_⟩ <;> decide +kernel
  exact (local_time_iff none yielded).2 ⟨by decide, by decide⟩

/-- Midnight of the zone is set as the hour 24 of the day before. -/
theorem midnight_lost : Yielded ⟨2017, 6, 1, 16, 0, 0⟩ ∧ ¬ ∃ later, SetLater none ⟨2017, 6, 1, 16, 0, 0⟩ later := by
  constructor
  · refine ⟨⟨by decide, by decide, by decide, by decide, by decide⟩, ?_, ?_⟩ <;> decide +kernel
  · rintro ⟨later, set⟩
    have hour : (24 : Int) = later.hour := congrArg Tm.hour set.tm
    have below := set.valid.hour
    omega

end Ecu.Time
