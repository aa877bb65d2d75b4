import Ecu.Inverter.Ranges
import Ecu.Protection.Setpropa

/-!
# The answer about all inverters (A130)

`response_ecu_ac_protection_17` reads the table for all inverters and puts every parameter into a field of fixed
width, without its decimal point, or a field of `A` where the table has no row of it.
-/

namespace Ecu.Protection

open Param Socket

/-! ## Reading the table -/

/-- One line of `get_protection_from_file`. -/
def readSetting (settings : Settings) (data : List Byte) : Settings :=
  let list := splitString data
  match proName.find? fun p => list.getD 0 [] <+: p.text with
  | some p => Function.update settings p (some (atof (list.getD 1 [])))
  | none => settings

/-- `get_protection_from_file` -/
def getProtectionFromFile (file : List Byte) : Settings :=
  (Lines.readLines newline 200 file).foldl readSetting fun _ => none

section Format

variable (T : Target) (settings : Settings)

/-- `format_ecu_ac_protection` -/
def formatEcuAcProtection (name : Param) (decimal : Nat) : Int :=
  match settings name with
  | some temp => T.toInt (temp * 10 ^ decimal)
  | none => -1

/-! ## Building the answer -/

def msgcatS (size : Nat) (value : List Byte) : List Byte :=
  Decimal.fit size (cstr value)

def msgcatD (size : Nat) (value : Int) : List Byte :=
  if value < 0 then List.replicate size letterA else Decimal.fixed size value

/-- The places in the answer. -/
def fields130 : List Field :=
  [⟨underVoltageSlow, 47, 3, 0⟩, ⟨overVoltageSlow, 50, 3, 0⟩, ⟨underFrequencySlow, 53, 3, 1⟩,
    ⟨overFrequencySlow, 56, 3, 1⟩, ⟨gridRecoveryTime, 59, 5, 0⟩, ⟨underVoltageFast, 97, 3, 0⟩,
    ⟨overVoltageFast, 100, 3, 0⟩, ⟨underFrequencyFast, 103, 3, 1⟩, ⟨overFrequencyFast, 106, 3, 1⟩,
    ⟨voltageTriptimeFast, 109, 6, 2⟩, ⟨voltageTriptimeSlow, 115, 6, 2⟩, ⟨frequencyTriptimeFast, 121, 6, 2⟩,
    ⟨frequencyTriptimeSlow, 127, 6, 2⟩, ⟨regulatedDcWorkingPoint, 133, 3, 1⟩, ⟨underVoltageStage2, 136, 3, 0⟩,
    ⟨voltage3ClearanceTime, 139, 6, 2⟩, ⟨startTime, 145, 5, 0⟩]

def Field.show (field : Field) : List Byte :=
  msgcatD field.len (formatEcuAcProtection T settings field.name field.decimal)

end Format

/-- `response_ecu_ac_protection_17`; the range of the parameters and the maximal power are not known to the ECU. -/
def responseEcuAcProtection17 (T : Target) (ecuId recvbuffer file : List Byte) : List Byte :=
  let settings := getProtectionFromFile file
  let timestamp := (recvbuffer.drop 34).take 14
  str "APS1300000A130AAA0" ++ msgcatS 12 ecuId ++ msgcatS 14 timestamp ++ msgcatS 3 (str "END") ++
    (fields130.take 5).flatMap (Field.show T settings) ++ List.replicate 30 letterA ++ msgcatD 3 (-1) ++
    (fields130.drop 5).flatMap (Field.show T settings) ++ msgcatS 3 (str "END")

/-! ## The fields of the answer -/

/-- The characters of a field. -/
def Field.cut (field : Field) (msg : List Byte) : List Byte :=
  (msg.drop field.place).take field.len

/-- The fields stand behind one another. -/
def Consecutive : Nat → List Field → Prop
  | _, [] => True
  | start, field :: fields => field.place = start ∧ Consecutive (start + field.len) fields

instance (start : Nat) (fields : List Field) : Decidable (Consecutive start fields) :=
  match fields with
  | [] => inferInstanceAs (Decidable True)
  | field :: fields =>
    have := instDecidableConsecutive (start + field.len) fields
    inferInstanceAs (Decidable (_ ∧ _))

theorem msgcatD_length (size : Nat) (value : Int) : (msgcatD size value).length = size := by
  unfold msgcatD
  split_ifs
  · exact List.length_replicate
  · exact Decimal.fit_length size _

theorem cut_flatMap (text : Field → List Byte) (width : ∀ field, (text field).length = field.len)
    {fields : List Field} {start : Nat} (consecutive : Consecutive start fields) {before : List Byte}
    (here : before.length = start) (after : List Byte) {field : Field} (mem : field ∈ fields) :
    field.cut (before ++ fields.flatMap text ++ after) = text field := by
  induction fields generalizing start before with
  | nil => exact absurd mem List.not_mem_nil
  | cons first fields ih =>
    rw [List.flatMap_cons, ← List.append_assoc]
    rcases List.mem_cons.1 mem with rfl | later
    · rw [Field.cut, consecutive.1, List.append_assoc, List.append_assoc, List.drop_left' here,
        List.take_left' (width field)]
    · apply ih consecutive.2 _ later
      rw [List.length_append, here, width]

/-- The answer has every parameter in its field. -/
theorem cut_answer (T : Target) (ecuId recvbuffer file : List Byte) {field : Field} (mem : field ∈ fields130) :
    field.cut (responseEcuAcProtection17 T ecuId recvbuffer file) =
      field.show T (getProtectionFromFile file) := by
  have width : ∀ field : Field, (field.show T (getProtectionFromFile file)).length = field.len :=
    fun field => msgcatD_length field.len _
  have header : (str "APS1300000A130AAA0").length = 18 := by
    rw [str_ofList]
    rfl
  have whole : fields130 = fields130.take 5 ++ fields130.drop 5 := (List.take_append_drop 5 fields130).symm
  rw [whole] at mem
  unfold responseEcuAcProtection17
  dsimp only
  generalize getProtectionFromFile file = settings at width ⊢
  have head : (str "APS1300000A130AAA0" ++ msgcatS 12 ecuId ++ msgcatS 14 ((recvbuffer.drop 34).take 14) ++
      msgcatS 3 (str "END")).length = 47 := by
    simp only [List.length_append, header, msgcatS, Decimal.fit_length]
  generalize str "APS1300000A130AAA0" ++ msgcatS 12 ecuId ++ msgcatS 14 ((recvbuffer.drop 34).take 14) ++
    msgcatS 3 (str "END") = before at head ⊢
  rcases List.mem_append.1 mem with first | second
  · have consecutive : Consecutive 47 (fields130.take 5) := by decide
    rw [List.append_assoc, List.append_assoc, List.append_assoc]
    exact cut_flatMap (Field.show T settings) width consecutive head _ first
  · have consecutive : Consecutive 97 (fields130.drop 5) := by decide
    apply cut_flatMap (Field.show T settings) width consecutive _ _ second
    have five : ((fields130.take 5).flatMap (Field.show T settings)).length = 17 := by
      rw [List.length_flatMap]
      simp only [width]
      rfl
    rw [List.length_append, List.length_append, List.length_append, head, five, List.length_replicate, msgcatD_length]

end Ecu.Protection
