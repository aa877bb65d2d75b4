import Ecu.Protection.Table

/-!
# The commands that write the tables (`inverter_ac_protection.c`, `power_factor.c`)

A132 sets up to seventeen parameters, for all inverters or for those it names; its file is written anew. A146 replaces
the row of the power factor.
-/

namespace Ecu.Protection

open Param Socket

/-! ## The parameters of a message -/

/-- `pro_name` -/
def proName : List Param :=
  [underVoltageFast, overVoltageFast, underVoltageSlow, overVoltageSlow, underFrequencyFast, overFrequencyFast,
    underFrequencySlow, overFrequencySlow, voltageTriptimeFast, voltageTriptimeSlow, frequencyTriptimeFast,
    frequencyTriptimeSlow, gridRecoveryTime, regulatedDcWorkingPoint, underVoltageStage2, voltage3ClearanceTime,
    startTime]

/-- `pro_value` where `pro_flag` is set. -/
abbrev Settings := Param → Option ℚ

/-- Where a parameter stands in A132: its place, its characters and how many of them are decimals. -/
structure Field where
  name : Param
  place : Nat
  len : Nat
  decimal : Nat
deriving DecidableEq

def fields132 : List Field :=
  [⟨underVoltageSlow, 50, 3, 0⟩, ⟨overVoltageSlow, 53, 3, 0⟩, ⟨underFrequencySlow, 56, 3, 1⟩,
    ⟨overFrequencySlow, 59, 3, 1⟩, ⟨gridRecoveryTime, 62, 5, 0⟩, ⟨underVoltageFast, 67, 3, 0⟩,
    ⟨overVoltageFast, 70, 3, 0⟩, ⟨underFrequencyFast, 73, 3, 1⟩, ⟨overFrequencyFast, 76, 3, 1⟩,
    ⟨voltageTriptimeFast, 79, 6, 2⟩, ⟨voltageTriptimeSlow, 85, 6, 2⟩, ⟨frequencyTriptimeFast, 91, 6, 2⟩,
    ⟨frequencyTriptimeSlow, 97, 6, 2⟩, ⟨regulatedDcWorkingPoint, 103, 3, 1⟩, ⟨underVoltageStage2, 106, 3, 0⟩,
    ⟨voltage3ClearanceTime, 109, 6, 2⟩, ⟨startTime, 115, 5, 0⟩]

/-- `get_ac_protection` -/
def getAcProtection (recvbuffer : List Byte) (settings : Settings) (field : Field) : Settings :=
  let value := msgGetInt (recvbuffer.drop field.place) field.len
  if 0 ≤ value then Function.update settings field.name (some (value / 10 ^ field.decimal)) else settings

def settings132 (recvbuffer : List Byte) : Settings :=
  fields132.foldl (getAcProtection recvbuffer) fun _ => none

/-! ## A132 -/

/-- `save_ac_protection_all`: the file anew. -/
def saveAcProtectionAll (settings : Settings) : List Byte :=
  (proName.filterMap fun p => (settings p).map fun v => csvRow [p.text, FixedPoint.print 2 v, str "1"]).flatten

/-- The rows of one inverter in `save_ac_protection_num`. -/
def rowsNum (settings : Settings) (inverterId : List Byte) : List Byte :=
  (proName.filterMap fun p => (settings p).map fun v => csvRow [inverterId, p.text, lf v, str "1"]).flatten

/-- `save_ac_protection_num`: the file anew. -/
def saveAcProtectionNum (settings : Settings) (msg : List Byte) (num : Nat) : List Byte :=
  (List.range num).flatMap fun i => rowsNum settings (cstr ((msg.drop (i * 12)).take 12))

/-- `msg_num_check` for items that do not end in `END`. -/
def msgNumCheck (s : List Byte) (num : Int) (len : Nat) : Bool :=
  strlen s = unsigned (num * len + 3)

/-- The two files. -/
structure Tables where
  setpropa : List Byte
  setpropi : List Byte

/-- `set_inverter_ac_protection_17` -/
def setInverterAcProtection17 (recvbuffer : List Byte) (tables : Tables) : Tables :=
  let inverterNum := msgGetInt (recvbuffer.drop 44) 3
  let settings := settings132 recvbuffer
  if inverterNum = 0 then { tables with setpropa := saveAcProtectionAll settings }
  else if msgNumCheck (recvbuffer.drop 123) inverterNum 12 then
    { tables with setpropi := saveAcProtectionNum settings (recvbuffer.drop 123) inverterNum.toNat }
  else tables

/-! ## A146 -/

/-- The number that `set_all_inverter_power_factor` writes. -/
def powerFactorCode (recvbuffer : List Byte) : Option Int :=
  if recvbuffer.getD 30 nul = 0x41 then
    let temp := msgGetInt (recvbuffer.drop 31) 3
    some (if temp = 100 then 31 else temp.tdiv 10 + 11)
  else if recvbuffer.getD 30 nul = 0x42 then some 1
  else none

/-- The row of the power factor; it has no line end. -/
def powerFactorRow (temp : Int) : List Byte :=
  [comma].intercalate [powerFactor.text, Decimal.intText temp, str "1"]

/-- `set_all_inverter_power_factor` -/
def setAllInverterPowerFactor (recvbuffer file : List Byte) : List Byte :=
  match powerFactorCode recvbuffer with
  | some temp => (insertLine (deleteLine file powerFactor.text) (powerFactorRow temp)).1
  | none => file

/-! ## What the values are like -/

/-- A number of so many characters with its decimals. -/
def Field.Holds (field : Field) (v : ℚ) : Prop :=
  ∃ n : Nat, n < 10 ^ field.len ∧ v = n / 10 ^ field.decimal

theorem msgGetInt_lt (s : List Byte) (len : Nat) : msgGetInt s len < 10 ^ len := by
  unfold msgGetInt
  dsimp only
  split_ifs with padded
  · exact lt_trans (by decide) (pow_pos (by decide) len)
  · apply atoi_lt
    rw [unpadded, List.length_map]
    exact List.length_take_le len _

theorem neg_lt_msgGetInt (s : List Byte) {len : Nat} (some : 0 < len) : -10 ^ len < msgGetInt s len := by
  unfold msgGetInt
  dsimp only
  split_ifs with padded
  · have : (1 : Int) < 10 ^ len := one_lt_pow₀ (by decide) some.ne'
    omega
  · apply neg_lt_atoi
    rw [unpadded, List.length_map]
    exact List.length_take_le len _

theorem settings132_some {recvbuffer : List Byte} {p : Param} {v : ℚ} (set : settings132 recvbuffer p = some v) :
    ∃ field ∈ fields132, field.name = p ∧ field.Holds v := by
  have all : ∀ p v, settings132 recvbuffer p = some v → ∃ field ∈ fields132, field.name = p ∧ field.Holds v := by
    apply List.foldlRecOn (motive := fun settings : Settings =>
      ∀ p v, settings p = some v → ∃ field ∈ fields132, field.name = p ∧ field.Holds v)
    · intro p v none
      cases none
    · intro settings ih field mem p v set
      unfold getAcProtection at set
      split_ifs at set with here
      · by_cases same : p = field.name
        · rw [same, Function.update_self] at set
          obtain ⟨n, value⟩ := Int.eq_ofNat_of_zero_le here
          have small := msgGetInt_lt (recvbuffer.drop field.place) field.len
          rw [value] at small
          refine ⟨field, mem, same.symm, n, by exact_mod_cast small, ?_⟩
          rw [← Option.some_inj.1 set, value, Int.cast_natCast]
        · rw [Function.update_of_ne same] at set
          exact ih p v set
      · exact ih p v set
  exact all p v set

theorem fields132_len : ∀ field ∈ fields132, 0 < field.len ∧ field.len ≤ 6 ∧ field.decimal ≤ 2 := by
  decide

theorem settings132_bounds {recvbuffer : List Byte} {p : Param} {v : ℚ} (set : settings132 recvbuffer p = some v) :
    0 ≤ v ∧ v ≤ (999999 : Nat) := by
  obtain ⟨field, mem, -, n, small, rfl⟩ := settings132_some set
  have width := (fields132_len field mem).2.1
  have below : n ≤ 999999 := Nat.le_of_lt_succ (Nat.lt_of_lt_of_le small (Nat.pow_le_pow_right (by decide) width))
  constructor
  · positivity
  · calc (n : ℚ) / 10 ^ field.decimal ≤ n := div_le_self n.cast_nonneg (one_le_pow₀ (by norm_num))
      _ ≤ (999999 : Nat) := by exact_mod_cast below

/-- The text of a value is short. -/
theorem print_value_length (p : Nat) {v : ℚ} (bounds : 0 ≤ v ∧ v ≤ (999999 : Nat)) :
    (FixedPoint.print p v).length ≤ 7 + p :=
  FixedPoint.print_length_le p (k := 6) (by decide) (by decide) bounds.1 bounds.2

end Ecu.Protection
