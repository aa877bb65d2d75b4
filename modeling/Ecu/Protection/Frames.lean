import Ecu.Inverter.Info
import Ecu.Rows

/-!
# The frames of the protection settings

A setting is sent as a frame `FB FB length order data checksum FE FE`. The two families have frames of their own:
`set_protection_yc600` puts an integer into one, two or three bytes, the `*_yc1000` functions compute theirs from the
text of the value. The functions for a single inverter (`*_one`) differ from those for all in the order byte.
-/

namespace Ecu.Protection

/-! ## Frames -/

/-- The frame around `sendbuff[2]` and what follows, up to the checksum. -/
def command (length order : Byte) (data : List Byte) : List Byte :=
  let body := length :: order :: data
  let check := (body.map UInt8.toNat).sum
  [0xFB, 0xFB] ++ body ++ [UInt8.ofNat (check / 256), UInt8.ofNat check, 0xFE, 0xFE]

/-- Five bytes of data, the last ones zero. -/
def short (order : Byte) (data : List Byte) : List Byte :=
  command 0x06 order ((data ++ List.replicate 5 0).take 5)

/-- `data/65536`, `data%65536/256`, `data%256` -/
def threeBytes (data : Int) : List Byte :=
  [UInt8.ofInt (data.tdiv 65536), UInt8.ofInt ((data.tmod 65536).tdiv 256), UInt8.ofInt (data.tmod 256)]

/-- `data/256`, `data%256` -/
def twoBytes (data : Int) : List Byte :=
  [UInt8.ofInt (data.tdiv 256), UInt8.ofInt (data.tmod 256)]

/-- The data of `set_protection_yc600`, in `num` bytes. -/
def yc600Bytes (data : Int) (num : Nat) : List Byte :=
  if num = 3 then threeBytes data
  else if num = 2 then twoBytes data
  else if num = 1 then [UInt8.ofInt data]
  else []

/-- `set_protection_yc600` and, for a single inverter, `set_protection_yc600_one`. -/
def setProtectionYc600 (order : Byte) (data : Int) (num : Nat) : List Byte :=
  short order (yc600Bytes data num)

/-! ## Values -/

section Values

variable (T : Target) (value : List Byte)

/-- `(int)(n / x)` -/
def quotient (n x : ℚ) : Int :=
  if x = 0 then T.divByZero n else T.toInt (n / x)

/-- `(int)(atof(value) * factor)` -/
def scaled (factor : ℚ) : Int :=
  T.toInt (atof value * factor)

/-- `(int)(n / atof(value))` -/
def inverse (n : ℚ) : Int :=
  quotient T n (atof value)

/-- A voltage of a YC1000, fast. -/
def fast1000 (order : Byte) : List Byte :=
  short order (threeBytes (scaled T value 16500))

/-- A voltage of a YC1000, slow. -/
def slow1000 (order : Byte) : List Byte :=
  short order (threeBytes (scaled T value (1161445 / 100)))

def frequency1000 (order : Byte) : List Byte :=
  short order (twoBytes (inverse T value 256000))

/-- A time in fiftieths of a second. -/
def time1000 (order : Byte) : List Byte :=
  short order (twoBytes (scaled T value 50))

def seconds1000 (order : Byte) : List Byte :=
  short order (twoBytes (scaled T value 1))

/-- The working point: of the three bytes the lower two. -/
def voltageDc1000 (order : Byte) : List Byte :=
  short order ((threeBytes (scaled T value (4096 / (825 / 10)))).drop 1)

def antiisland1000 (order : Byte) : List Byte :=
  short order [UInt8.ofInt (scaled T value (25 / 10))]

/-! ## The YC1000 frames for all inverters -/

def setRegulatedDcWorkingPointYc1000 : List Byte := voltageDc1000 T value 0x50
def setUndervoltageFastYc1000 : List Byte := fast1000 T value 0x51
def setOvervoltageFastYc1000 : List Byte := fast1000 T value 0x52
def setUndervoltageSlowYc1000 : List Byte := slow1000 T value 0x53
def setOvervoltageSlowYc1000 : List Byte := slow1000 T value 0x54
def setVoltageTriptimeFastYc1000 : List Byte := time1000 T value 0x55
def setVoltageTriptimeSlowYc1000 : List Byte := time1000 T value 0x56
def setUnderfrequencyFastYc1000 : List Byte := frequency1000 T value 0x57
def setOverfrequencyFastYc1000 : List Byte := frequency1000 T value 0x58
def setUnderfrequencySlowYc1000 : List Byte := frequency1000 T value 0x59
def setOverfrequencySlowYc1000 : List Byte := frequency1000 T value 0x5A
def setFrequencyTriptimeFastYc1000 : List Byte := time1000 T value 0x5B
def setFrequencyTriptimeSlowYc1000 : List Byte := time1000 T value 0x5C
def setGridRecoveryTimeYc1000 : List Byte := seconds1000 T value 0x5D
def setUnderVoltageStage2Yc1000 : List Byte := slow1000 T value 0x5E
def setVoltage3ClearanceTimeYc1000 : List Byte := time1000 T value 0x5F
def setUnderVoltageStage3Yc1000 : List Byte := slow1000 T value 0x73
def setStartTimeYc1000 : List Byte := seconds1000 T value 0x3D
def setActiveAntiislandTimeYc1000 : List Byte := antiisland1000 T value 0x4E

/-! ## The YC1000 frames for a single inverter -/

def setRegulatedDcWorkingPointYc1000One : List Byte := voltageDc1000 T value 0x60
def setUndervoltageFastYc1000One : List Byte := fast1000 T value 0x61
def setOvervoltageFastYc1000One : List Byte := fast1000 T value 0x62
def setUndervoltageSlowYc1000One : List Byte := slow1000 T value 0x63
def setOvervoltageSlowYc1000One : List Byte := slow1000 T value 0x64
def setVoltageTriptimeFastYc1000One : List Byte := time1000 T value 0x65
def setVoltageTriptimeSlowYc1000One : List Byte := time1000 T value 0x66
def setUnderfrequencyFastYc1000One : List Byte := frequency1000 T value 0x67
def setOverfrequencyFastYc1000One : List Byte := frequency1000 T value 0x68
def setUnderfrequencySlowYc1000One : List Byte := frequency1000 T value 0x69
def setOverfrequencySlowYc1000One : List Byte := frequency1000 T value 0x6A
def setFrequencyTriptimeFastYc1000One : List Byte := time1000 T value 0x6B
def setFrequencyTriptimeSlowYc1000One : List Byte := time1000 T value 0x6C
def setGridRecoveryTimeYc1000One : List Byte := seconds1000 T value 0x6D
def setUnderVoltageStage2Yc1000One : List Byte := slow1000 T value 0x6E
def setVoltage3ClearanceTimeYc1000One : List Byte := time1000 T value 0x6F
def setUnderVoltageStage3Yc1000One : List Byte := slow1000 T value 0x83
def setStartTimeYc1000One : List Byte := seconds1000 T value 0x4D
def setActiveAntiislandTimeYc1000One : List Byte := antiisland1000 T value 0x3E

end Values

/-! ## Frames of five parameters -/

/-- The parameters that older YC1000 take in one frame. -/
structure Five where
  underVoltageSlow : Int := 0
  overVoltageSlow : Int := 0
  underFrequencySlow : Int := 0
  overFrequencySlow : Int := 0
  gridRecoveryTime : Int := 0

/-- Their fifteen bytes. (The voltages are taken apart by 65535.) -/
def Five.bytes (five : Five) : List Byte :=
  let voltage (v : Int) : List Byte :=
    [UInt8.ofInt (v.tdiv 65535), UInt8.ofInt ((v.tmod 65535).tdiv 256), UInt8.ofInt (v.tmod 256)]
  voltage five.underVoltageSlow ++ voltage five.overVoltageSlow ++ twoBytes five.underFrequencySlow ++
    twoBytes five.overFrequencySlow ++ twoBytes five.gridRecoveryTime ++ [0, 0, 0]

/-- A row of the table of settings that is one of the five. -/
def Five.take (T : Target) (splitdata : List (List Byte)) (five : Five) : Five :=
  let name := splitdata.getD 0 []
  let temp := atof (splitdata.getD 1 [])
  if name = str "under_voltage_slow" then { five with underVoltageSlow := T.toInt (temp * (1161445 / 100)) }
  else if name = str "over_voltage_slow" then { five with overVoltageSlow := T.toInt (temp * (1161445 / 100)) }
  else if name = str "under_frequency_slow" then { five with underFrequencySlow := quotient T 256000 temp }
  else if name = str "over_frequency_slow" then { five with overFrequencySlow := quotient T 256000 temp }
  else if name = str "grid_recovery_time" then { five with gridRecoveryTime := T.toInt temp }
  else five

/-- `read_protection_parameters_5`: a line is read for each turn, but what is split is the buffer for the result. -/
def readProtectionParameters5 (T : Target) (file data : List Byte) : List Byte :=
  ((Lines.readLines newline 200 file).foldl (fun (five : Five) _ => five.take T (splitString data)) {}).bytes

/-- `read_protection_parameters_one_5`: the rows are told apart by `!strcpy(..)`, which is never true. -/
def readProtectionParametersOne5 : List Byte :=
  Five.bytes {}

section Five

variable (T : Target) (protectionData value : List Byte)

/-- The parameter at `i` replaced. -/
def five1000 (order : Byte) (i : Nat) (bytes : List Byte) : List Byte :=
  command 0x10 order (protectionData.take i ++ bytes ++ (protectionData.take 15).drop (i + bytes.length))

def undervoltageSlow5 (order : Byte) : List Byte :=
  five1000 protectionData order 0 (threeBytes (scaled T value (1161445 / 100)))

def overvoltageSlow5 (order : Byte) : List Byte :=
  five1000 protectionData order 3 (threeBytes (scaled T value (1161445 / 100)))

def underfrequencySlow5 (order : Byte) : List Byte :=
  five1000 protectionData order 6 (twoBytes (inverse T value 256000))

def overfrequencySlow5 (order : Byte) : List Byte :=
  five1000 protectionData order 8 (twoBytes (inverse T value 256000))

def gridRecoveryTime5 (order : Byte) : List Byte :=
  five1000 protectionData order 10 (twoBytes (scaled T value 1))

end Five

section FiveFrames

variable (T : Target) (file value : List Byte)

/-- What `protection_data` holds after the reading; it is zeroed before. -/
def protectionData : List Byte :=
  readProtectionParameters5 T file (List.replicate 16 nul)

def setUndervoltageSlowYc10005 : List Byte := undervoltageSlow5 T (protectionData T file) value 0xAC
def setOvervoltageSlowYc10005 : List Byte := overvoltageSlow5 T (protectionData T file) value 0xAC
def setUnderfrequencySlowYc10005 : List Byte := underfrequencySlow5 T (protectionData T file) value 0xAC
def setOverfrequencySlowYc10005 : List Byte := overfrequencySlow5 T (protectionData T file) value 0xAC
def setGridRecoveryTimeYc10005 : List Byte := gridRecoveryTime5 T (protectionData T file) value 0xAC

def setUndervoltageSlowYc1000One5 : List Byte := undervoltageSlow5 T readProtectionParametersOne5 value 0xCC
def setOvervoltageSlowYc1000One5 : List Byte := overvoltageSlow5 T readProtectionParametersOne5 value 0xCC
def setUnderfrequencySlowYc1000One5 : List Byte := underfrequencySlow5 T readProtectionParametersOne5 value 0xCC
def setOverfrequencySlowYc1000One5 : List Byte := overfrequencySlow5 T readProtectionParametersOne5 value 0xCC
def setGridRecoveryTimeYc1000One5 : List Byte := gridRecoveryTime5 T readProtectionParametersOne5 value 0xCC

end FiveFrames

end Ecu.Protection
