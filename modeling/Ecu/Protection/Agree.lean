import Ecu.Inverter.Ranges
import Ecu.Protection.Coverage

/-!
# The two encoders

The branches for all inverters and those for a single one compute the bytes of a value on their own. They agree but
for one factor (`encoders_agree_iff`).
-/

namespace Ecu.Protection

open Param Poll

/-! ## The bytes of a value -/

/-- What stands between the order and the checksum. -/
def valueBytes (sendbuff : List Byte) : List Byte :=
  (sendbuff.drop 4).take (sendbuff.length - 8)

theorem valueBytes_command (length order : Byte) (data : List Byte) :
    valueBytes (command length order data) = data := by
  simp [valueBytes, command]

theorem valueBytes_short (order : Byte) (data : List Byte) :
    valueBytes (short order data) = (data ++ List.replicate 5 0).take 5 :=
  valueBytes_command 0x06 order _

/-- The order does not matter. -/
theorem short_agrees (order order' : Byte) (data : List Byte) :
    valueBytes (short order data) = valueBytes (short order' data) := by
  rw [valueBytes_short, valueBytes_short]

/-! ## The parameters that are sent along -/

/-- What is split is the empty result, so none of the five is found. -/
theorem take_none (T : Target) (five : Five) : five.take T (splitString (List.replicate 16 nul)) = five := by
  have none : splitString (List.replicate 16 nul) = [[]] := by decide
  have names : ∀ s : String, s ≠ "" → [] ≠ str s := by
    intro s some same
    rw [str, eq_comm, List.map_eq_nil_iff, String.toList_eq_nil_iff] at same
    exact some same
  rw [none, Five.take]
  simp only [List.getD_cons_zero]
  rw [if_neg (names _ (by decide)), if_neg (names _ (by decide)), if_neg (names _ (by decide)),
    if_neg (names _ (by decide)), if_neg (names _ (by decide))]

theorem protectionData_eq (T : Target) (file : List Byte) : protectionData T file = readProtectionParametersOne5 := by
  have kept : ∀ lines : List (List Byte), lines.foldl
      (fun (five : Five) _ => five.take T (splitString (List.replicate 16 nul))) {} = {} := by
    intro lines
    induction lines with
    | nil => rfl
    | cons line lines ih => rw [List.foldl_cons, take_none, ih]
  rw [protectionData, readProtectionParameters5, kept, readProtectionParametersOne5]

/-! ## The families -/

section Families

variable (T : Target) {value valueOne : List Byte} (same : atof value = atof valueOne) (file : List Byte)

/-- The order does not matter, and neither does what was read for the other four. -/
theorem five_agrees (order order' : Byte) (i : Nat) {bytes bytes' : List Byte} (equal : bytes = bytes') :
    valueBytes (five1000 (protectionData T file) order i bytes) =
      valueBytes (five1000 readProtectionParametersOne5 order' i bytes') := by
  rw [five1000, five1000, valueBytes_command, valueBytes_command, protectionData_eq, equal]

include same

theorem scaled_same (factor : ℚ) : scaled T value factor = scaled T valueOne factor := by
  rw [scaled, scaled, same]

theorem inverse_same (n : ℚ) : inverse T value n = inverse T valueOne n := by
  rw [inverse, inverse, same]

theorem yc600_agrees (order order' : Byte) (factor : ℚ) (num : Nat) :
    valueBytes (setProtectionYc600 order (scaled T value factor) num) =
      valueBytes (setProtectionYc600 order' (scaled T valueOne factor) num) := by
  rw [scaled_same T same, setProtectionYc600, setProtectionYc600, short_agrees]

theorem period_agrees (order order' : Byte) :
    valueBytes (setProtectionYc600 order (inverse T value 50000000) 3) =
      valueBytes (setProtectionYc600 order' (inverse T valueOne 50000000) 3) := by
  rw [inverse_same T same, setProtectionYc600, setProtectionYc600, short_agrees]

theorem fast1000_agrees (order order' : Byte) :
    valueBytes (fast1000 T value order) = valueBytes (fast1000 T valueOne order') := by
  rw [fast1000, fast1000, scaled_same T same, short_agrees]

theorem slow1000_agrees (order order' : Byte) :
    valueBytes (slow1000 T value order) = valueBytes (slow1000 T valueOne order') := by
  rw [slow1000, slow1000, scaled_same T same, short_agrees]

theorem frequency1000_agrees (order order' : Byte) :
    valueBytes (frequency1000 T value order) = valueBytes (frequency1000 T valueOne order') := by
  rw [frequency1000, frequency1000, inverse_same T same, short_agrees]

theorem time1000_agrees (order order' : Byte) :
    valueBytes (time1000 T value order) = valueBytes (time1000 T valueOne order') := by
  rw [time1000, time1000, scaled_same T same, short_agrees]

theorem seconds1000_agrees (order order' : Byte) :
    valueBytes (seconds1000 T value order) = valueBytes (seconds1000 T valueOne order') := by
  rw [seconds1000, seconds1000, scaled_same T same, short_agrees]

theorem voltageDc1000_agrees (order order' : Byte) :
    valueBytes (voltageDc1000 T value order) = valueBytes (voltageDc1000 T valueOne order') := by
  rw [voltageDc1000, voltageDc1000, scaled_same T same, short_agrees]

theorem antiisland1000_agrees (order order' : Byte) :
    valueBytes (antiisland1000 T value order) = valueBytes (antiisland1000 T valueOne order') := by
  rw [antiisland1000, antiisland1000, scaled_same T same, short_agrees]

theorem yc1000_agrees {x : InverterInfo} (other : x.model ≠ 7) (p : Param) :
    (frames1000 T value file p).map valueBytes = (branchOne T x valueOne p).1.map valueBytes := by
  have scaled := scaled_same T same
  have inverse := inverse_same T same
  cases p
  all_goals
    simp only [frames1000, branchAll, voltageAll, frequencyAll, scaledAll, relayProtectAll, branchOne, voltageOne,
      frequencyOne, scaledOne, powerFactorOne, relayProtectOne, other, if_true, if_false, List.map_cons, List.map_nil,
      List.cons.injEq, and_true, reduceCtorEq, Bool.false_eq_true]
  case underVoltageFast | overVoltageFast => exact fast1000_agrees T same _ _
  case underVoltageStage2 =>
    exact ⟨slow1000_agrees T same _ _, five_agrees T file _ _ 0 (congrArg threeBytes (scaled _)),
      slow1000_agrees T same _ _⟩
  case overVoltageSlow =>
    exact ⟨slow1000_agrees T same _ _, five_agrees T file _ _ 3 (congrArg threeBytes (scaled _))⟩
  case underFrequencyFast | overFrequencyFast => exact frequency1000_agrees T same _ _
  case underFrequencySlow =>
    exact ⟨frequency1000_agrees T same _ _, five_agrees T file _ _ 6 (congrArg twoBytes (inverse _))⟩
  case overFrequencySlow =>
    exact ⟨frequency1000_agrees T same _ _, five_agrees T file _ _ 8 (congrArg twoBytes (inverse _))⟩
  case voltageTriptimeFast | voltageTriptimeSlow | frequencyTriptimeFast | frequencyTriptimeSlow |
    voltage3ClearanceTime => exact time1000_agrees T same _ _
  case gridRecoveryTime =>
    exact ⟨seconds1000_agrees T same _ _, five_agrees T file _ _ 10 (congrArg twoBytes (scaled _))⟩
  case regulatedDcWorkingPoint => exact voltageDc1000_agrees T same _ _
  case underVoltageSlow => exact slow1000_agrees T same _ _
  case startTime => exact seconds1000_agrees T same _ _
  case activeAntiislandTime => exact antiisland1000_agrees T same _ _

theorem voltage_agrees {x : InverterInfo} (is : x.model = 7) (deputy : x.deputyModel ≤ 2) (order order' : Byte)
    (yc1000 yc1000' : List (List Byte)) :
    (voltageAll T { yc600 := true, bbOrB1 := x.deputyModel } value order yc1000).map valueBytes =
      (voltageOne T x valueOne order' yc1000').1.map valueBytes := by
  unfold voltageAll voltageOne
  rw [if_pos is, if_neg Bool.false_ne_true, if_pos rfl]
  by_cases unknown : x.deputyModel = 0
  · simp [unknown]
  · by_cases bb : x.deputyModel = 1
    · simp [bb, yc600_agrees T same order order']
    · have b1 : x.deputyModel = 2 := by omega
      simp [b1, yc600_agrees T same order order']

/-- For a YC600 all but one parameter are computed alike. -/
theorem yc600_agree {x : InverterInfo} (is : x.model = 7) (deputy : x.deputyModel ≤ 2) {p : Param}
    (other : p ≠ activeAntiislandTime) :
    (frames600 T value file x.deputyModel p).map valueBytes = (branchOne T x valueOne p).1.map valueBytes := by
  cases p
  case activeAntiislandTime => exact absurd rfl other
  case underVoltageFast | overVoltageFast | underVoltageStage2 | overVoltageSlow | underVoltageSlow =>
    rw [frames600, branchAll, branchOne]
    exact voltage_agrees T same is deputy _ _ _ _
  case relayProtect =>
    rw [frames600, branchAll, relayProtectAll, branchOne, relayProtectOne, if_pos is, if_pos rfl, scaled_same T same]
    dsimp only
    split_ifs
    · exact congrArg (fun bytes => [bytes]) (short_agrees _ _ _)
    · exact congrArg (fun bytes => [bytes]) (short_agrees _ _ _)
    · rfl
  all_goals
    simp only [frames600, branchAll, frequencyAll, scaledAll, branchOne, frequencyOne, scaledOne, powerFactorOne, is,
      if_true, List.map_cons, List.map_nil, List.cons.injEq, and_true]
  case underFrequencyFast | overFrequencyFast | underFrequencySlow | overFrequencySlow =>
    exact period_agrees T same _ _
  all_goals exact yc600_agrees T same _ _ _ _

end Families

/-! ## The factor that differs -/

theorem toInt_div (T : Target) (a : Nat) {b : Nat} (small : a / b ≤ 2147483647) :
    T.toInt ((a : ℚ) / b) = (a / b : Nat) := by
  have whole : truncate ((a : ℚ) / b) = (a / b : Nat) := by
    rw [truncate_nonneg (by positivity), Rat.floor_natCast_div_natCast]
    exact Int.natCast_div a b
  have low : (0 : Int) ≤ (a / b : Nat) := Int.natCast_nonneg _
  unfold Target.toInt
  rw [whole]
  exact if_pos ⟨le_trans (by decide) low, by exact_mod_cast small⟩

theorem oneByte_eq_iff (m n : Nat) : UInt8.ofInt (m : Int) = UInt8.ofInt (n : Int) ↔ m % 256 = n % 256 := by
  have low (n : Nat) : (UInt8.ofInt (n : Int)).toNat = n % 256 := by
    rw [UInt8.ofInt, UInt8.toNat_ofNat']
    omega
  rw [← UInt8.toNat_inj, low, low]

/-- The anti-islanding time of a YC600 is multiplied by 1.33 for all, by 2.5 for a single one. -/
theorem antiisland_agrees_iff (T : Target) {value valueOne : List Byte} {hundredths : Nat}
    (small : hundredths ≤ 99999900) (text : atof value = (hundredths : ℚ) / 100)
    (textOne : atof valueOne = (hundredths : ℚ) / 100) (file : List Byte) {x : InverterInfo}
      (is : x.model = 7) (d : Nat) :
    (frames600 T value file d activeAntiislandTime).map valueBytes =
        (branchOne T x valueOne activeAntiislandTime).1.map valueBytes ↔
      hundredths * 133 / 10000 % 256 = hundredths * 25 / 1000 % 256 := by
  have all : scaled T value (133 / 100) = (hundredths * 133 / 10000 : Nat) := by
    have shape : (hundredths : ℚ) / 100 * (133 / 100) = (hundredths * 133 : Nat) / (10000 : Nat) := by
      push_cast
      ring
    rw [scaled, text, shape]
    exact toInt_div T _ (by omega)
  have one : scaled T valueOne (25 / 10) = (hundredths * 25 / 1000 : Nat) := by
    have shape : (hundredths : ℚ) / 100 * (25 / 10) = (hundredths * 25 : Nat) / (1000 : Nat) := by
      push_cast
      ring
    rw [scaled, textOne, shape]
    exact toInt_div T _ (by omega)
  rw [← oneByte_eq_iff, ← all, ← one]
  simp only [frames600, branchAll, scaledAll, branchOne, scaledOne, is, if_true, List.map_cons, List.map_nil,
    setProtectionYc600, valueBytes_short, yc600Bytes]
  simp

/-! ## The rows of A132 -/

theorem atof_two (hundredths : Nat) : atof (FixedPoint.print 2 (hundredths / 10 ^ 2)) = (hundredths : ℚ) / 100 := by
  rw [atof_print_exact 2 hundredths (by decide)]
  norm_num

theorem atof_six (hundredths : Nat) : atof (lf (hundredths / 10 ^ 2)) = (hundredths : ℚ) / 100 := by
  have shape : (hundredths : ℚ) / 10 ^ 2 = (hundredths * 10 ^ 4 : Nat) / 10 ^ 6 := by
    push_cast
    ring
  rw [lf, shape, atof_print_exact 6 _ (by decide), ← shape]
  norm_num

section Rows

variable (T : Target) (file : List Byte) (x : InverterInfo) (hundredths : Nat) (p : Param)

/-- The bytes that are broadcast for the family of an inverter when its row is one of `save_ac_protection_all`. -/
def broadcastBytes : List (List Byte) :=
  let value := FixedPoint.print 2 (hundredths / 10 ^ 2)
  (if x.model = 7 then frames600 T value file x.deputyModel p else frames1000 T value file p).map valueBytes

/-- The bytes that are sent to it when its row is one of `save_ac_protection_num`. -/
def unicastBytes : List (List Byte) :=
  (branchOne T x (lf (hundredths / 10 ^ 2)) p).1.map valueBytes

end Rows

/-- The bytes are the same but for the anti-islanding time of a YC600. -/
theorem encoders_agree_iff (T : Target) (file : List Byte) {x : InverterInfo} (deputy : x.deputyModel ≤ 2)
    {hundredths : Nat} (small : hundredths ≤ 99999900) (p : Param) :
    broadcastBytes T file x hundredths p = unicastBytes T x hundredths p ↔
      (x.model = 7 → p = activeAntiislandTime → hundredths * 133 / 10000 % 256 = hundredths * 25 / 1000 % 256) := by
  have text := atof_two hundredths
  have textOne := atof_six hundredths
  unfold broadcastBytes unicastBytes
  dsimp only
  by_cases is : x.model = 7
  · rw [if_pos is]
    by_cases antiisland : p = activeAntiislandTime
    · rw [antiisland, antiisland_agrees_iff T small text textOne file is]
      exact ⟨fun same _ _ => same, fun same => same is rfl⟩
    · refine ⟨fun _ _ here => absurd here antiisland, fun _ => ?_⟩
      exact yc600_agree T (text.trans textOne.symm) file is deputy antiisland
  · rw [if_neg is]
    refine ⟨fun _ here => absurd here is, fun _ => ?_⟩
    exact yc1000_agrees T (text.trans textOne.symm) file is p

theorem sample_agrees : broadcastBytes sampleTarget [] sample600 18000 underVoltageFast =
    unicastBytes sampleTarget sample600 18000 underVoltageFast :=
  (encoders_agree_iff sampleTarget [] (by decide) (by decide) underVoltageFast).2 fun _ other =>
    absurd other (by decide)

/-- An anti-islanding time of 2: 2 is broadcast, 5 is sent to a single inverter. -/
theorem antiisland_differs : ¬ ∀ (T : Target) (file : List Byte) (x : InverterInfo) (hundredths : Nat) (p : Param),
    x.deputyModel ≤ 2 → hundredths ≤ 99999900 →
      broadcastBytes T file x hundredths p = unicastBytes T x hundredths p := by
  intro all
  have same := all sampleTarget [] sample600 200 activeAntiislandTime (by decide) (by decide)
  have bytes := (antiisland_agrees_iff sampleTarget (by decide) (atof_two 200) (atof_six 200) []
    (x := sample600) rfl 1).1
    same
  exact absurd bytes (by decide)

end Ecu.Protection
