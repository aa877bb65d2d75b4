import Ecu.Lib.Calendar
import Ecu.Rows
import Ecu.Time.Datetime

/-!
# Reading the clock (`ds1302z_rtc.c`)

`rt_rtc_read` reads the registers of the DS1302 one after the other, the year first and the second last, and the chip
goes on counting in between. The date-time it makes of them is one of the clock if no register but that of the seconds
rolls over between its own read and the last one, and in a read of less than a minute only then (`clock_read_iff`).
-/

namespace Ecu.Time

open Calendar

/-! ## The chip -/

/-- The registers of the time, in BCD; the hour counts to 23. -/
structure Registers where
  year : Byte
  month : Byte
  day : Byte
  hour : Byte
  minute : Byte
  second : Byte
deriving DecidableEq

/-- When the registers are read: `0x8D`, `0x89`, `0x87`, `0x85`, `0x83` and `0x81`. -/
structure Instants where
  year : Nat
  month : Nat
  day : Nat
  hour : Nat
  minute : Nat
  second : Nat
  ordered : year ≤ month ∧ month ≤ day ∧ day ≤ hour ∧ hour ≤ minute ∧ minute ≤ second

/-- The two digits of a register, each printed with `%d`. -/
def registerText (mask : Nat) (register : Byte) : List Byte :=
  Decimal.text (register.toNat >>> 4 &&& mask) ++ Decimal.text (register.toNat &&& 0x0f)

/-- `rt_rtc_read`, of registers that change. -/
def rtRtcRead (chip : Nat → Registers) (read : Instants) : List Byte :=
  str "20" ++ registerText 0x0f (chip read.year).year ++ registerText 0x0f (chip read.month).month ++
    registerText 0x0f (chip read.day).day ++ registerText 0x07 (chip read.hour).hour ++
    registerText 0x0f (chip read.minute).minute ++ registerText 0x0f (chip read.second).second

def bcd (n : Nat) : Byte :=
  UInt8.ofNat (n / 10 * 16 + n % 10)

/-- What the registers hold for a date-time. -/
def Registers.of (t : DateTime) : Registers where
  year := bcd (t.year % 100)
  month := bcd t.month
  day := bcd t.day
  hour := bcd t.hour
  minute := bcd t.minute
  second := bcd t.second

/-! ## What it is for -/

/-- A clock that is not set: the time it shows at each instant. -/
structure Clock where
  now : Nat → DateTime
  valid : ∀ t, (now t).Valid
  /-- The chip has two digits for the year. -/
  century : ∀ t, 2000 ≤ (now t).year ∧ (now t).year < 2100
  runs : ∀ t, (now t).seconds ≤ (now (t + 1)).seconds ∧ (now (t + 1)).seconds ≤ (now t).seconds + 1

/-- The fourteen digits of a date-time. -/
def dateText (t : DateTime) : List Byte :=
  twoDigits (t.year / 100) ++ twoDigits (t.year % 100) ++ twoDigits t.month ++ twoDigits t.day ++ twoDigits t.hour ++
    twoDigits t.minute ++ twoDigits t.second

/-- `rt_rtc_read` of a clock -/
def Clock.read (clock : Clock) (read : Instants) : List Byte :=
  rtRtcRead (fun t => Registers.of (clock.now t)) read

/-- The date-time is the one of an instant of the read. -/
def Untorn (clock : Clock) (read : Instants) : Prop :=
  ∃ t, read.year ≤ t ∧ t ≤ read.second ∧ clock.read read = dateText (clock.now t)

/-- No register but that of the seconds rolls over between its own read and the last one. -/
structure Steady (clock : Clock) (read : Instants) : Prop where
  year : (clock.now read.year).year = (clock.now read.second).year
  month : (clock.now read.month).month = (clock.now read.second).month
  day : (clock.now read.day).day = (clock.now read.second).day
  hour : (clock.now read.hour).hour = (clock.now read.second).hour
  minute : (clock.now read.minute).minute = (clock.now read.second).minute

/-- The read takes less than a minute. -/
def Quick (clock : Clock) (read : Instants) : Prop :=
  (clock.now read.second).seconds < (clock.now read.year).seconds + 60

/-! ## The digits -/

theorem registerText_bcd {n : Nat} (small : n < 100) : registerText 0x0f (bcd n) = twoDigits n := by
  have each : ∀ n < 100, registerText 0x0f (bcd n) = twoDigits n := by decide +kernel
  exact each n small

/-- The bit of the tens of the hour that is left out is that of the 12-hour mode. -/
theorem registerText_hour {n : Nat} (small : n < 24) : registerText 0x07 (bcd n) = twoDigits n := by
  have each : ∀ n < 24, registerText 0x07 (bcd n) = twoDigits n := by decide +kernel
  exact each n small

theorem value_twoDigits (bytes : List Byte) {n : Nat} (small : n < 100) :
    Decimal.value (bytes ++ twoDigits n) = Decimal.value bytes * 100 + n := by
  have each : ∀ d < 10, (digit d).toNat - 48 = d := by decide
  have two : bytes ++ twoDigits n = bytes ++ [digit (n / 10)] ++ [digit (n % 10)] := by
    rw [List.append_assoc]
    rfl
  rw [two, Decimal.value_snoc, Decimal.value_snoc, each _ (by omega), each _ (by omega)]
  omega

section Read

variable {clock : Clock} {read : Instants}

/-- A valid date-time has two digits for each of its parts. -/
structure Small (t : DateTime) : Prop where
  month : t.month < 100
  day : t.day < 100
  hour : t.hour < 100
  minute : t.minute < 100
  second : t.second < 100

theorem small_of_valid {t : DateTime} (valid : t.Valid) : Small t := by
  have day := day_le_31 valid
  obtain ⟨⟨-, month⟩, -, hour, minute, second⟩ := valid
  constructor
  all_goals omega

theorem read_eq (clock : Clock) (read : Instants) : clock.read read = dateText {
    year := (clock.now read.year).year, month := (clock.now read.month).month, day := (clock.now read.day).day
    hour := (clock.now read.hour).hour, minute := (clock.now read.minute).minute,
      second := (clock.now read.second).second } := by
  have century := clock.century read.year
  have twenty : (clock.now read.year).year / 100 = 20 := by omega
  have head : str "20" = twoDigits 20 := by decide
  unfold Clock.read rtRtcRead dateText Registers.of
  dsimp only
  rw [registerText_bcd (Nat.mod_lt _ (by decide)), registerText_bcd (small_of_valid (clock.valid _)).month,
    registerText_bcd (small_of_valid (clock.valid _)).day, registerText_hour (clock.valid _).hour,
    registerText_bcd (small_of_valid (clock.valid _)).minute, registerText_bcd (small_of_valid (clock.valid _)).second,
    twenty, head]

theorem dateText_value (t : DateTime) (small : Small t) (year : t.year / 100 < 100) :
    Decimal.value (dateText t) = t.number := by
  have none : Decimal.value (twoDigits (t.year / 100)) = t.year / 100 := by
    have := value_twoDigits [] year
    rw [List.nil_append] at this
    rw [this, show Decimal.value [] = 0 from rfl]
    omega
  rw [dateText, value_twoDigits _ small.second, value_twoDigits _ small.minute, value_twoDigits _ small.hour,
    value_twoDigits _ small.day, value_twoDigits _ small.month, value_twoDigits _ (Nat.mod_lt _ (by decide)), none,
    DateTime.number]
  omega

theorem monotone_now (clock : Clock) : Monotone fun t => (clock.now t).seconds :=
  monotone_nat_of_le_succ fun t => (clock.runs t).1

theorem instants_le (read : Instants) : read.year ≤ read.second := by
  have := read.ordered
  omega

theorem untorn_of_steady (steady : Steady clock read) : Untorn clock read := by
  refine ⟨read.second, instants_le read, Nat.le_refl _, ?_⟩
  rw [read_eq, steady.year, steady.month, steady.day, steady.hour, steady.minute]

theorem number_parts {a b : DateTime} (left : Small a) (right : Small b) (same : a.number = b.number) : a = b := by
  obtain ⟨month, day, hour, minute, second⟩ := left
  obtain ⟨month', day', hour', minute', second'⟩ := right
  cases a
  cases b
  simp only [DateTime.number, DateTime.mk.injEq] at *
  omega

theorem steady_of_untorn (quick : Quick clock read) (untorn : Untorn clock read) : Steady clock read := by
  obtain ⟨t, after, before, same⟩ := untorn
  have small (t : Nat) := small_of_valid (clock.valid t)
  have whole : (⟨(clock.now read.year).year, (clock.now read.month).month, (clock.now read.day).day,
    (clock.now read.hour).hour,
      (clock.now read.minute).minute, (clock.now read.second).second⟩ : DateTime) = clock.now t := by
    have parts : Small ⟨(clock.now read.year).year, (clock.now read.month).month, (clock.now read.day).day,
        (clock.now read.hour).hour, (clock.now read.minute).minute, (clock.now read.second).second⟩ :=
      ⟨(small _).month, (small _).day, (small _).hour, (small _).minute, (small _).second⟩
    have values := congrArg Decimal.value same
    have century := clock.century read.year
    have century' := clock.century t
    rw [read_eq, dateText_value _ parts (by dsimp only; omega), dateText_value _ (small t) (by omega)] at values
    exact number_parts parts (small t) values
  -- the seconds of `t` and of the last read are the same, and there is no minute between them
  have second : (clock.now read.second).second = (clock.now t).second :=
    (congrArg DateTime.second whole :)
  have first : (clock.now read.year).seconds ≤ (clock.now t).seconds := monotone_now clock after
  have last : (clock.now t).seconds ≤ (clock.now read.second).seconds := monotone_now clock before
  have time : (clock.now t).seconds = (clock.now read.second).seconds := by
    unfold Quick at quick
    unfold DateTime.seconds at *
    omega
  have here : clock.now t = clock.now read.second := seconds_injective (clock.valid t) (clock.valid _) time
  rw [here] at whole
  exact ⟨(congrArg DateTime.year whole :), (congrArg DateTime.month whole :), (congrArg DateTime.day whole :),
    (congrArg DateTime.hour whole :), (congrArg DateTime.minute whole :)⟩

theorem read_le {later : Instants} (steady : Steady clock read) (steady' : Steady clock later)
    (order : read.second ≤ later.year) :
    Decimal.value (clock.read read) ≤ Decimal.value (clock.read later) := by
  have year (t : Nat) : (clock.now t).year / 100 < 100 := by
    have := clock.century t
    omega
  have times : (clock.now read.second).seconds ≤ (clock.now later.second).seconds :=
    monotone_now clock (order.trans (instants_le later))
  rw [read_eq, read_eq, steady.year, steady.month, steady.day, steady.hour, steady.minute, steady'.year, steady'.month,
    steady'.day, steady'.hour, steady'.minute, dateText_value _ (small_of_valid (clock.valid _)) (year _),
    dateText_value _ (small_of_valid (clock.valid _)) (year _)]
  exact (number_le_iff (clock.valid _) (clock.valid _)).2 times

end Read

/-- A read that is steady is not torn, one of less than a minute is not torn only if it is steady, and two steady
reads do not go backwards. -/
theorem clock_read_iff (clock : Clock) :
    (∀ read, Steady clock read → Untorn clock read) ∧
      (∀ read, Quick clock read → (Untorn clock read ↔ Steady clock read)) ∧
      ∀ first second : Instants, first.second ≤ second.year → Steady clock first → Steady clock second →
        Decimal.value (clock.read first) ≤ Decimal.value (clock.read second) :=
  ⟨fun _ steady => untorn_of_steady steady, fun _ quick => ⟨steady_of_untorn quick, untorn_of_steady⟩,
    fun _ _ order steady steady' => read_le steady steady' order⟩

/-- One o'clock comes between the hour and the minute. -/
def oneOClockNow (t : Nat) : DateTime :=
  if t = 0 then ⟨2017, 6, 1, 12, 59, 59⟩ else ⟨2017, 6, 1, 13, 0, 0⟩

theorem oneOClockNow_first : oneOClockNow 0 = ⟨2017, 6, 1, 12, 59, 59⟩ :=
  rfl

theorem oneOClockNow_later (t : Nat) : oneOClockNow (t + 1) = ⟨2017, 6, 1, 13, 0, 0⟩ :=
  rfl

theorem oneOClockNow_valid (t : Nat) : (oneOClockNow t).Valid := by
  rw [oneOClockNow]
  split_ifs
  · exact ⟨by decide, by decide, by decide, by decide, by decide⟩
  · exact ⟨by decide, by decide, by decide, by decide, by decide⟩

theorem oneOClockNow_century (t : Nat) : 2000 ≤ (oneOClockNow t).year ∧ (oneOClockNow t).year < 2100 := by
  rw [oneOClockNow]
  split_ifs
  · decide
  · decide

theorem oneOClockNow_runs (t : Nat) :
    (oneOClockNow t).seconds ≤ (oneOClockNow (t + 1)).seconds ∧
      (oneOClockNow (t + 1)).seconds ≤ (oneOClockNow t).seconds + 1 := by
  rw [oneOClockNow_later]
  cases t with
  | zero =>
    simp only [oneOClockNow_first, DateTime.seconds]
    omega
  | succ t =>
    rw [oneOClockNow_later]
    omega

def oneOClock : Clock where
  now := oneOClockNow
  valid := oneOClockNow_valid
  century := oneOClockNow_century
  runs := oneOClockNow_runs

/-- Read as twelve o'clock, behind a time that has been read before. -/
theorem hour_before :
    (¬ ∀ clock read, Untorn clock read) ∧
      ¬ ∀ (clock : Clock) (first second : Instants), first.second ≤ second.year →
        Decimal.value (clock.read first) ≤ Decimal.value (clock.read second) := by
  have early : oneOClock.read ⟨0, 0, 0, 0, 1, 1, by decide⟩ = str "20170601120000" := by decide +kernel
  have before : oneOClock.read ⟨0, 0, 0, 0, 0, 0, by decide⟩ = str "20170601125959" := by decide +kernel
  constructor
  · intro claim
    obtain ⟨t, -, last, same⟩ := claim oneOClock ⟨0, 0, 0, 0, 1, 1, by decide⟩
    rw [early] at same
    dsimp only at last
    interval_cases t
    · revert same
      decide +kernel
    · revert same
      decide +kernel
  · intro claim
    have order := claim oneOClock ⟨0, 0, 0, 0, 0, 0, by decide⟩ ⟨0, 0, 0, 0, 1, 1, by decide⟩ (by decide)
    rw [early, before] at order
    revert order
    decide +kernel

end Ecu.Time
