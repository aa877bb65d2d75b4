import Ecu.Protection.Grouped
import Ecu.Protection.ReadBack

/-!
# The room for a value (`set_protection_parameters.c`, `set_protection_parameters_inverter.c`)

The digits of A132 become a text in a file, the text a number, and the number one to three bytes of a frame. Nothing
checks the number on the way: a frequency of zero is divided by, and what is too large for the bytes loses its upper
part. `values_whole_iff` says for which digits this does not happen.
-/

namespace Ecu.Protection

open Param Poll Socket

/-! ## The numbers -/

/-- The inverters that a number depends on: YC600 of the two deputy models, and YC1000. -/
inductive Family where
  | bb | b1 | yc1000
deriving DecidableEq

/-- What a parameter of A132 is. -/
inductive Kind where
  | fast | slow | frequency | time | seconds | point
deriving DecidableEq

/-- The other three parameters are not in A132. -/
def kind : Param → Option Kind
  | underVoltageFast | overVoltageFast => some .fast
  | underVoltageSlow | overVoltageSlow | underVoltageStage2 => some .slow
  | underFrequencyFast | overFrequencyFast | underFrequencySlow | overFrequencySlow => some .frequency
  | voltageTriptimeFast | voltageTriptimeSlow | frequencyTriptimeFast | frequencyTriptimeSlow |
    voltage3ClearanceTime => some .time
  | gridRecoveryTime | startTime => some .seconds
  | regulatedDcWorkingPoint => some .point
  | powerFactor | relayProtect | activeAntiislandTime => none

/-- A number that is sent: what it is divided by, the number, and its bytes. -/
structure Payload where
  divisor : ℚ
  data : Int
  bytes : Nat

section Payloads

variable (T : Target) (value : List Byte)

/-- The number that both dispatchers compute from the text. -/
def payload : Family → Kind → Payload
  | .yc1000, .fast => ⟨1, scaled T value 16500, 3⟩
  | .yc1000, .slow => ⟨1, scaled T value (1161445 / 100), 3⟩
  | .yc1000, .frequency => ⟨atof value, inverse T value 256000, 2⟩
  | .yc1000, .time => ⟨1, scaled T value 50, 2⟩
  | .yc1000, .seconds => ⟨1, scaled T value 1, 2⟩
  | _, .point => ⟨1, scaled T value (4096 / (825 / 10)), 2⟩
  | .bb, .fast | .bb, .slow => ⟨1, scaled T value (13277 / 10000), 2⟩
  | .b1, .fast | .b1, .slow => ⟨1, scaled T value (133 / 100), 2⟩
  | _, .frequency => ⟨atof value, inverse T value 50000000, 3⟩
  | _, .time | _, .seconds => ⟨1, scaled T value 100, 2⟩

end Payloads

/-! ## What the inverter reads -/

/-- Where the value of a parameter begins in the long frame. -/
def groupedOffset : Param → Nat
  | underVoltageStage2 => Grouped.offset .underVoltageSlow
  | overVoltageSlow => Grouped.offset .overVoltageSlow
  | underFrequencySlow => Grouped.offset .underFrequencySlow
  | overFrequencySlow => Grouped.offset .overFrequencySlow
  | gridRecoveryTime => Grouped.offset .gridRecoveryTime
  | _ => 4

/-- The number that an inverter reads from a frame; a frame of five parameters is told by its length. -/
def readValue (p : Param) (bytes : Nat) (sendbuff : List Byte) : Nat :=
  let place := if sendbuff.getD 2 nul = 0x10 then groupedOffset p else 4
  bigEndian ((sendbuff.drop place).take bytes)

/-- The number is computed without a division by zero, is not negative, has room in its bytes, and is what is read
from each of the frames. -/
structure Payload.Whole (p : Param) (frames : List (List Byte)) (number : Payload) : Prop where
  divisor : number.divisor ≠ 0
  nonneg : 0 ≤ number.data
  room : number.data < 256 ^ number.bytes
  read : ∀ sendbuff ∈ frames, (readValue p number.bytes sendbuff : Int) = number.data

/-- The value of a parameter reaches the inverters of a family whole. -/
def SentWhole (T : Target) (family : Family) (p : Param) (value : List Byte) (frames : List (List Byte)) : Prop :=
  ∃ k, kind p = some k ∧ (payload T value family k).Whole p frames

/-- The digits for which it does. -/
def Within (family : Family) (n : Nat) : Kind → Prop
  | .frequency => if family = .yc1000 then 40 ≤ n else 30 ≤ n
  | .time => if family = .yc1000 then n ≤ 131071 else n ≤ 65535
  | .seconds => if family = .yc1000 then n ≤ 65535 else n ≤ 655
  | .fast | .slow | .point => True

instance (family : Family) (n : Nat) (k : Kind) : Decidable (Within family n k) := by
  cases k <;> unfold Within <;> infer_instance

/-- The family of an inverter that `set_protection_paras_one` takes. -/
def familyOf (x : InverterInfo) : Option Family :=
  if x.model = 7 then some (if x.deputyModel = 2 then .b1 else .bb)
  else if x.model = 5 ∨ x.model = 6 then some .yc1000
  else none

/-- The family that `set_protection_paras` sends to. -/
def Plant.family (system : Plant) : Option Family :=
  if system.yc600 ∧ system.yc1000 then none
  else if system.yc600 then some (if system.bbOrB1 = 2 then .b1 else .bb)
  else if system.yc1000 then some .yc1000
  else none

/-! ## The frames -/

/-- The bytes of a number; the working point of a YC1000 is the lower two of three. -/
def Payload.encoding (number : Payload) (family : Family) (k : Kind) : List Byte :=
  if family = .yc1000 ∧ k = .point then (threeBytes number.data).drop 1 else yc600Bytes number.data number.bytes

theorem payload_bytes (T : Target) (value : List Byte) (family : Family) (k : Kind) :
    (payload T value family k).bytes = 2 ∨ (payload T value family k).bytes = 3 ∧ ¬ (family = .yc1000 ∧ k = .point) := by
  cases family <;> cases k <;> simp [payload]

theorem bigEndian_encoding {number : Payload} {family : Family} {k : Kind}
    (width : number.bytes = 2 ∨ number.bytes = 3 ∧ ¬ (family = .yc1000 ∧ k = .point)) (nonneg : 0 ≤ number.data)
    (room : number.data < 256 ^ number.bytes) :
    (number.encoding family k).length = number.bytes ∧ (bigEndian (number.encoding family k) : Int) = number.data := by
  unfold Payload.encoding
  rcases width with two | ⟨three, other⟩
  · rw [two] at room
    split_ifs with point
    · refine ⟨two.symm ▸ rfl, ?_⟩
      have whole := bigEndian_threeBytes nonneg (room.trans (by decide))
      have high : UInt8.ofInt (number.data.tdiv 65536) = 0 := by
        rw [Int.tdiv_eq_ediv_of_nonneg nonneg, Int.ediv_eq_zero_of_lt nonneg (by simpa using room)]
        rfl
      have front : threeBytes number.data = 0 :: (threeBytes number.data).drop 1 := by
        rw [← high]
        rfl
      rw [front] at whole
      simpa [bigEndian] using whole
    · rw [two]
      exact ⟨rfl, bigEndian_twoBytes nonneg room⟩
  · rw [three] at room
    rw [if_neg other, three]
    exact ⟨rfl, bigEndian_threeBytes nonneg room⟩

/-- A frame with these bytes for the parameter. -/
def InFrame (p : Param) (bytes sendbuff : List Byte) : Prop :=
  (∃ order, sendbuff = short order bytes) ∨
    ∃ g order v, sendbuff = Grouped.frame order v g ∧ g.bytes v = bytes ∧ groupedOffset p = g.offset

theorem readValue_inFrame {p : Param} {bytes sendbuff : List Byte} (few : bytes.length ≤ 5)
    (inFrame : InFrame p bytes sendbuff) : readValue p bytes.length sendbuff = bigEndian bytes := by
  rcases inFrame with ⟨order, rfl⟩ | ⟨g, order, v, rfl, rfl, place⟩
  · have length : (short order bytes).getD 2 nul ≠ 0x10 := by
      change (0x06 : Byte) ≠ 0x10
      decide
    have data : ((short order bytes).drop 4).take bytes.length = bytes := by
      have shape : ∃ rest, short order bytes =
          [0xFB, 0xFB, 0x06, order] ++ ((bytes ++ List.replicate 5 0).take 5 ++ rest) :=
        ⟨_, rfl⟩
      obtain ⟨rest, shape⟩ := shape
      have start : ([0xFB, 0xFB, 0x06, order] : List Byte).length = 4 := rfl
      rw [shape, List.drop_left' start, List.take_append_of_le_length, List.take_take, Nat.min_eq_left few,
        List.take_left]
      rw [List.length_take, List.length_append, List.length_replicate]
      omega
    rw [readValue, if_neg length, data]
  · have read := g.field_frame order v g
    rw [if_pos rfl] at read
    have length : (g.frame order v).getD 2 nul = 0x10 := rfl
    rw [readValue, if_pos length, place, g.bytes_length]
    exact Int.ofNat_inj.1 read

/-- A number that has room is read from its frames. -/
theorem whole_iff {p : Param} {frames : List (List Byte)} {number : Payload} {family : Family} {k : Kind}
    (width : number.bytes = 2 ∨ number.bytes = 3 ∧ ¬ (family = .yc1000 ∧ k = .point))
    (inFrames : ∀ sendbuff ∈ frames, InFrame p (number.encoding family k) sendbuff) :
    number.Whole p frames ↔ number.divisor ≠ 0 ∧ 0 ≤ number.data ∧ number.data < 256 ^ number.bytes := by
  constructor
  · intro whole
    exact ⟨whole.divisor, whole.nonneg, whole.room⟩
  · rintro ⟨divisor, nonneg, room⟩
    refine ⟨divisor, nonneg, room, fun sendbuff mem => ?_⟩
    obtain ⟨length, read⟩ := bigEndian_encoding width nonneg room
    have few : (number.encoding family k).length ≤ 5 := by omega
    have here := readValue_inFrame few (inFrames sendbuff mem)
    rw [length] at here
    rw [here, read]

section Branches

variable (T : Target) (value : List Byte)

theorem familyOf_some {x : InverterInfo} {family : Family} (is : familyOf x = some family) :
    x.model = 7 ∧ family = (if x.deputyModel = 2 then .b1 else .bb) ∨ x.model ≠ 7 ∧ family = .yc1000 := by
  unfold familyOf at is
  split_ifs at is with yc600 b1 yc1000
  · exact .inl ⟨yc600, by rw [if_pos b1]; exact (Option.some_inj.1 is).symm⟩
  · exact .inl ⟨yc600, by rw [if_neg b1]; exact (Option.some_inj.1 is).symm⟩
  · exact .inr ⟨yc600, (Option.some_inj.1 is).symm⟩

theorem inFrame_short {p : Param} (order : Byte) (bytes : List Byte) :
    ∀ sendbuff ∈ [short order bytes], InFrame p bytes sendbuff := by
  intro sendbuff mem
  exact .inl ⟨order, List.mem_singleton.1 mem⟩

/-- The short frame and the long one of a parameter. -/
theorem inFrame_both {p : Param} (order : Byte) {g : Grouped} (order' : Byte) (v : Int)
    (place : groupedOffset p = g.offset) :
    ∀ sendbuff ∈ [short order (g.bytes v), g.frame order' v], InFrame p (g.bytes v) sendbuff := by
  intro sendbuff mem
  rcases List.mem_cons.1 mem with rfl | mem
  · exact .inl ⟨order, rfl⟩
  · exact .inr ⟨g, order', v, List.mem_singleton.1 mem, rfl, place⟩

/-- The second stage has another short frame behind them. -/
theorem inFrame_three (order order' order'' : Byte) (v : Int) :
    ∀ sendbuff ∈ [short order (threeBytes v), Grouped.frame order' v .underVoltageSlow, short order'' (threeBytes v)],
      InFrame underVoltageStage2 (threeBytes v) sendbuff := by
  intro sendbuff mem
  rcases List.mem_cons.1 mem with rfl | mem
  · exact .inl ⟨order, rfl⟩
  · rcases List.mem_cons.1 mem with rfl | mem
    · exact .inr ⟨.underVoltageSlow, order', v, rfl, rfl, rfl⟩
    · exact .inl ⟨order'', List.mem_singleton.1 mem⟩

theorem branchOne_inFrame {x : InverterInfo} {family : Family} (is : familyOf x = some family) {p : Param} {k : Kind}
    (known : kind p = some k) :
    ∀ sendbuff ∈ (branchOne T x value p).1, InFrame p ((payload T value family k).encoding family k) sendbuff := by
  rcases familyOf_some is with ⟨yc600, rfl⟩ | ⟨other, rfl⟩
  · by_cases b1 : x.deputyModel = 2
    · cases p <;> cases known
      all_goals
        simp only [branchOne, voltageOne, frequencyOne, scaledOne, yc600, b1, if_true, OfNat.ofNat_ne_zero, if_false]
        exact inFrame_short _ _
    · by_cases unknown : x.deputyModel = 0
      · cases p <;> cases known
        all_goals
          simp only [branchOne, voltageOne, frequencyOne, scaledOne, yc600, unknown, if_true, List.not_mem_nil,
            false_implies, implies_true]
        all_goals exact inFrame_short _ _
      · cases p <;> cases known
        all_goals
          simp only [branchOne, voltageOne, frequencyOne, scaledOne, yc600, b1, unknown, if_true, if_false]
          exact inFrame_short _ _
  · cases p <;> cases known
    all_goals simp only [branchOne, voltageOne, frequencyOne, scaledOne, other, if_false]
    case inr.underVoltageStage2.refl =>
      rw [show setUndervoltageSlowYc1000One5 T value = _ from frameOne_eq T value .underVoltageSlow]
      exact inFrame_three _ _ _ _
    case inr.overVoltageSlow.refl =>
      rw [show setOvervoltageSlowYc1000One5 T value = _ from frameOne_eq T value .overVoltageSlow]
      exact inFrame_both (p := .overVoltageSlow) (g := .overVoltageSlow) _ _ _ rfl
    case inr.underFrequencySlow.refl =>
      rw [show setUnderfrequencySlowYc1000One5 T value = _ from frameOne_eq T value .underFrequencySlow]
      exact inFrame_both (p := .underFrequencySlow) (g := .underFrequencySlow) _ _ _ rfl
    case inr.overFrequencySlow.refl =>
      rw [show setOverfrequencySlowYc1000One5 T value = _ from frameOne_eq T value .overFrequencySlow]
      exact inFrame_both (p := .overFrequencySlow) (g := .overFrequencySlow) _ _ _ rfl
    case inr.gridRecoveryTime.refl =>
      rw [show setGridRecoveryTimeYc1000One5 T value = _ from frameOne_eq T value .gridRecoveryTime]
      exact inFrame_both (p := .gridRecoveryTime) (g := .gridRecoveryTime) _ _ _ rfl
    all_goals exact inFrame_short _ _

theorem family_some {system : Plant} {family : Family} (is : system.family = some family) :
    system.yc600 = true ∧ system.yc1000 = false ∧ family = (if system.bbOrB1 = 2 then .b1 else .bb) ∨
      system.yc600 = false ∧ system.yc1000 = true ∧ family = .yc1000 := by
  unfold Plant.family at is
  split_ifs at is with both yc600 b1 yc1000
  · exact .inl ⟨yc600, by simpa [yc600] using both, by rw [if_pos b1]; exact (Option.some_inj.1 is).symm⟩
  · exact .inl ⟨yc600, by simpa [yc600] using both, by rw [if_neg b1]; exact (Option.some_inj.1 is).symm⟩
  · exact .inr ⟨by simpa using yc600, yc1000, (Option.some_inj.1 is).symm⟩

theorem branchAll_inFrame {system : Plant} {family : Family} (is : system.family = some family) (file : List Byte)
    {p : Param} {k : Kind} (known : kind p = some k) :
    ∀ sendbuff ∈ branchAll T system value file p,
      InFrame p ((payload T value family k).encoding family k) sendbuff := by
  rcases family_some is with ⟨yc600, other, rfl⟩ | ⟨other, yc1000, rfl⟩
  · by_cases b1 : system.bbOrB1 = 2
    · cases p <;> cases known
      all_goals
        simp only [branchAll, voltageAll, frequencyAll, scaledAll, yc600, other, b1, if_true, if_false,
          Bool.false_eq_true, OfNat.ofNat_ne_one, List.nil_append]
        exact inFrame_short _ _
    · by_cases bb : system.bbOrB1 = 1
      · cases p <;> cases known
        all_goals
          simp only [branchAll, voltageAll, frequencyAll, scaledAll, yc600, other, bb, if_true, if_false,
            Bool.false_eq_true, OfNat.one_ne_ofNat, List.append_nil]
          exact inFrame_short _ _
      · cases p <;> cases known
        all_goals
          simp only [branchAll, voltageAll, frequencyAll, scaledAll, yc600, other, b1, bb, if_true, if_false,
            Bool.false_eq_true, List.append_nil, List.not_mem_nil, false_implies, implies_true]
        all_goals exact inFrame_short _ _
  · cases p <;> cases known
    all_goals
      simp only [branchAll, voltageAll, frequencyAll, scaledAll, other, yc1000, if_true, if_false,
        Bool.false_eq_true]
    case inr.underVoltageStage2.refl =>
      rw [show setUndervoltageSlowYc10005 T file value = _ from frameAll_eq T file value .underVoltageSlow]
      exact inFrame_three _ _ _ _
    case inr.overVoltageSlow.refl =>
      rw [show setOvervoltageSlowYc10005 T file value = _ from frameAll_eq T file value .overVoltageSlow]
      exact inFrame_both (p := .overVoltageSlow) (g := .overVoltageSlow) _ _ _ rfl
    case inr.underFrequencySlow.refl =>
      rw [show setUnderfrequencySlowYc10005 T file value = _ from frameAll_eq T file value .underFrequencySlow]
      exact inFrame_both (p := .underFrequencySlow) (g := .underFrequencySlow) _ _ _ rfl
    case inr.overFrequencySlow.refl =>
      rw [show setOverfrequencySlowYc10005 T file value = _ from frameAll_eq T file value .overFrequencySlow]
      exact inFrame_both (p := .overFrequencySlow) (g := .overFrequencySlow) _ _ _ rfl
    case inr.gridRecoveryTime.refl =>
      rw [show setGridRecoveryTimeYc10005 T file value = _ from frameAll_eq T file value .gridRecoveryTime]
      exact inFrame_both (p := .gridRecoveryTime) (g := .gridRecoveryTime) _ _ _ rfl
    all_goals exact inFrame_short _ _

end Branches

/-! ## The digits -/

/-- The characters of a field of A132, and how many of them are decimals. -/
def Kind.shape : Kind → Nat × Nat
  | .fast | .slow => (3, 0)
  | .frequency | .point => (3, 1)
  | .time => (6, 2)
  | .seconds => (5, 0)

theorem kind_shape : ∀ field ∈ fields132, (kind field.name).map Kind.shape = some (field.len, field.decimal) := by
  decide

section Numbers

variable (T : Target) {value : List Byte} {n : Nat}

theorem scaled_eq {d a b : Nat} {factor : ℚ} (text : atof value = (n : ℚ) / 10 ^ d)
    (shape : (n : ℚ) / 10 ^ d * factor = (a : ℚ) / b) (small : a / b ≤ 2147483647) :
    scaled T value factor = (a / b : Nat) := by
  rw [scaled, text, shape]
  exact toInt_div T a small

theorem inverse_eq {d a : Nat} {c : ℚ} (text : atof value = (n : ℚ) / 10 ^ d) (nonzero : n ≠ 0)
    (shape : c * 10 ^ d = (a : ℚ)) (small : a ≤ 2147483647) : inverse T value c = (a / n : Nat) := by
  have positive : (n : ℚ) ≠ 0 := by exact_mod_cast nonzero
  have value_ne : atof value ≠ 0 := by
    rw [text]
    exact div_ne_zero positive (by positivity)
  have quotient : c / ((n : ℚ) / 10 ^ d) = (a : ℚ) / n := by
    rw [← shape]
    field_simp
  rw [inverse, Ecu.Protection.quotient, if_neg value_ne, text, quotient]
  exact toInt_div T a ((Nat.div_le_self a n).trans small)

theorem scaled_room {factor : ℚ} {data bytes : Nat} (same : scaled T value factor = data) :
    ((1 : ℚ) ≠ 0 ∧ 0 ≤ scaled T value factor ∧ scaled T value factor < 256 ^ bytes) ↔ data < 256 ^ bytes := by
  rw [same]
  constructor
  · rintro ⟨-, -, room⟩
    exact_mod_cast room
  · intro room
    exact ⟨one_ne_zero, Int.natCast_nonneg _, by exact_mod_cast room⟩

theorem inverse_room {d a bytes : Nat} {c : ℚ} (text : atof value = (n : ℚ) / 10 ^ d) (shape : c * 10 ^ d = (a : ℚ))
    (small : a ≤ 2147483647) :
    (atof value ≠ 0 ∧ 0 ≤ inverse T value c ∧ inverse T value c < 256 ^ bytes) ↔ n ≠ 0 ∧ a < 256 ^ bytes * n := by
  by_cases zero : n = 0
  · refine iff_of_false (fun all => all.1 ?_) fun all => all.1 zero
    rw [text, zero]
    simp
  · have positive : (n : ℚ) ≠ 0 := by exact_mod_cast zero
    have value_ne : atof value ≠ 0 := by
      rw [text]
      exact div_ne_zero positive (by positivity)
    rw [inverse_eq T text zero shape small, and_iff_right value_ne, and_iff_right zero,
      and_iff_right (Int.natCast_nonneg _), ← Nat.div_lt_iff_lt_mul (Nat.pos_of_ne_zero zero)]
    exact_mod_cast Iff.rfl

/-- A number has room exactly when the digits are in the range of its kind. -/
theorem payload_room (family : Family) (k : Kind) (small : n < 10 ^ k.shape.1)
    (text : atof value = (n : ℚ) / 10 ^ k.shape.2) :
    ((payload T value family k).divisor ≠ 0 ∧ 0 ≤ (payload T value family k).data ∧
      (payload T value family k).data < 256 ^ (payload T value family k).bytes) ↔ Within family n k := by
  have room {factor : ℚ} {a b bytes : Nat} (shape : (n : ℚ) / 10 ^ k.shape.2 * factor = (a : ℚ) / b)
      (fits : a / b ≤ 2147483647) :
      ((1 : ℚ) ≠ 0 ∧ 0 ≤ scaled T value factor ∧ scaled T value factor < 256 ^ bytes) ↔ a / b < 256 ^ bytes :=
    scaled_room T (scaled_eq T text shape fits)
  have period {c : ℚ} {a bytes : Nat} (shape : c * 10 ^ k.shape.2 = (a : ℚ)) (fits : a ≤ 2147483647) :
      (atof value ≠ 0 ∧ 0 ≤ inverse T value c ∧ inverse T value c < 256 ^ bytes) ↔ n ≠ 0 ∧ a < 256 ^ bytes * n :=
    inverse_room T text shape fits
  cases k with
  | fast =>
    change n < 10 ^ 3 at small
    cases family with
    | bb =>
      refine (room (a := n * 13277) (b := 10000) (by simp only [Kind.shape]; push_cast; ring) (by omega)).trans ?_
      simp only [Within, payload, iff_true]
      omega
    | b1 =>
      refine (room (a := n * 133) (b := 100) (by simp only [Kind.shape]; push_cast; ring) (by omega)).trans ?_
      simp only [Within, payload, iff_true]
      omega
    | yc1000 =>
      refine (room (a := n * 16500) (b := 1) (by simp only [Kind.shape]; push_cast; ring) (by omega)).trans ?_
      simp only [Within, payload, iff_true]
      omega
  | slow =>
    change n < 10 ^ 3 at small
    cases family with
    | bb =>
      refine (room (a := n * 13277) (b := 10000) (by simp only [Kind.shape]; push_cast; ring) (by omega)).trans ?_
      simp only [Within, payload, iff_true]
      omega
    | b1 =>
      refine (room (a := n * 133) (b := 100) (by simp only [Kind.shape]; push_cast; ring) (by omega)).trans ?_
      simp only [Within, payload, iff_true]
      omega
    | yc1000 =>
      refine (room (a := n * 1161445) (b := 100) (by simp only [Kind.shape]; push_cast; ring) (by omega)).trans ?_
      simp only [Within, payload, iff_true]
      omega
  | frequency =>
    change n < 10 ^ 3 at small
    cases family with
    | bb | b1 =>
      refine (period (a := 500000000) (by norm_num [Kind.shape]) (by decide)).trans ?_
      simp only [Within, payload, reduceCtorEq, if_false]
      omega
    | yc1000 =>
      refine (period (a := 2560000) (by norm_num [Kind.shape]) (by decide)).trans ?_
      simp only [Within, payload, if_true]
      omega
  | time =>
    change n < 10 ^ 6 at small
    cases family with
    | bb | b1 =>
      refine (room (a := n) (b := 1) (by simp only [Kind.shape]; push_cast; ring) (by omega)).trans ?_
      simp only [Within, payload, reduceCtorEq, if_false]
      omega
    | yc1000 =>
      refine (room (a := n) (b := 2) (by simp only [Kind.shape]; push_cast; ring) (by omega)).trans ?_
      simp only [Within, payload, if_true]
      omega
  | seconds =>
    change n < 10 ^ 5 at small
    cases family with
    | bb | b1 =>
      refine (room (a := n * 100) (b := 1) (by simp only [Kind.shape]; push_cast; ring) (by omega)).trans ?_
      simp only [Within, payload, reduceCtorEq, if_false]
      omega
    | yc1000 =>
      refine (room (a := n) (b := 1) (by simp only [Kind.shape]; push_cast; ring) (by omega)).trans ?_
      simp only [Within, payload, if_true]
      omega
  | point =>
    change n < 10 ^ 3 at small
    cases family with
    | bb | b1 | yc1000 =>
      refine (room (a := n * 4096) (b := 825) (by simp only [Kind.shape]; push_cast; ring) (by omega)).trans ?_
      simp only [Within, payload, iff_true]
      omega

end Numbers

/-! ## The messages -/

theorem settings132_number {msg : List Byte} {field : Field} (mem : field ∈ fields132) {n : Nat}
    (number : msgGetInt (msg.drop field.place) field.len = n) :
    settings132 msg field.name = some ((n : ℚ) / 10 ^ field.decimal) := by
  rw [settings132, foldl_getAcProtection msg (by decide) _ mem, number, if_pos (Int.natCast_nonneg n), Int.cast_natCast]

/-- Both texts of a value give it back. -/
theorem atof_texts (n : Nat) {d : Nat} (decimals : d ≤ 2) :
    atof (FixedPoint.print 2 ((n : ℚ) / 10 ^ d)) = (n : ℚ) / 10 ^ d ∧ atof (lf ((n : ℚ) / 10 ^ d)) = (n : ℚ) / 10 ^ d := by
  have power : (10 : ℚ) ^ 2 = 10 ^ (2 - d) * 10 ^ d := by
    rw [← pow_add, Nat.sub_add_cancel decimals]
  have hundredths : (n : ℚ) / 10 ^ d = (n * 10 ^ (2 - d) : Nat) / 10 ^ 2 := by
    rw [power]
    push_cast
    field_simp
  have hundred : (10 : ℚ) ^ 2 = 100 := by norm_num
  rw [hundredths, atof_two, atof_six, hundred]
  exact ⟨rfl, rfl⟩

section Texts

variable (T : Target) {value : List Byte} {field : Field} (mem : field ∈ fields132) {n : Nat}
  (small : n < 10 ^ field.len) (text : atof value = (n : ℚ) / 10 ^ field.decimal)

include mem small text

theorem sentWhole_iff {family : Family} {frames : List (List Byte)}
    (inFrames : ∀ k, kind field.name = some k →
      ∀ sendbuff ∈ frames, InFrame field.name ((payload T value family k).encoding family k) sendbuff) :
    SentWhole T family field.name value frames ↔ ∀ k ∈ kind field.name, Within family n k := by
  have shape := kind_shape field mem
  obtain ⟨k, known, shape⟩ := Option.map_eq_some_iff.1 shape
  have width : k.shape.1 = field.len := congrArg Prod.fst shape
  have decimals : k.shape.2 = field.decimal := congrArg Prod.snd shape
  have room := payload_room T family k (width ▸ small) (decimals ▸ text)
  have whole := whole_iff (payload_bytes T value family k) (inFrames k known)
  rw [SentWhole, known]
  constructor
  · rintro ⟨k', same, sent⟩ k'' here
    obtain rfl := Option.some_inj.1 same
    obtain rfl := Option.some_inj.1 here
    exact room.1 (whole.1 sent)
  · intro within
    exact ⟨k, rfl, whole.2 (room.2 (within k rfl))⟩

end Texts

/-- A132 with a grid recovery time of 700 seconds. -/
def sampleRecovery : List Byte :=
  str "APS1300138A132AAA0216000000001" ++ str "20170101120000000END" ++ List.replicate 12 letterA ++ str "00700" ++
    List.replicate 53 letterA ++ str "END"

theorem sampleRecovery_number : msgGetInt (sampleRecovery.drop 62) 5 = 700 := by
  rw [sampleRecovery]
  iterate 4 rw [str_ofList]
  decide +kernel

end Ecu.Protection
