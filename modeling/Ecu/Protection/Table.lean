import Ecu.Protection.Frames

/-!
# The tables of the protection settings

`/home/data/setpropa` has a row `name,value,flag` for each setting of all inverters, `/home/data/setpropi` a row
`id,name,value,flag` for each setting of a single one. They are worked on with the line functions of `myfile.c`, which
compare the beginning of a line.
-/

namespace Ecu.Protection

/-! ## Lines of a file (`myfile.c`) -/

section Myfile

variable (file compareData : List Byte)

/-- `delete_line`; `compareData` has `len` characters. -/
def deleteLine : List Byte :=
  (((Lines.readLines newline 512 file).filter fun data => ¬ compareData <+: data).map cstr).flatten

/-- `search_line` -/
def searchLine : Bool :=
  (Lines.readLines newline 300 file).any fun data => compareData <+: data

/-- `read_line` -/
def readLine : Option (List Byte) :=
  (Lines.readLines newline 100 file).find? fun data => compareData <+: data

end Myfile

/-- `insert_line`: the file, and whether the line is found in it. -/
def insertLine (file str : List Byte) : List Byte × Bool :=
  (file ++ cstr str, searchLine (file ++ cstr str) str)

/-! ## Names -/

/-- The settings that the main program knows. -/
inductive Param where
  | underVoltageFast | overVoltageFast | underVoltageStage2 | overVoltageSlow
  | underFrequencyFast | overFrequencyFast | underFrequencySlow | overFrequencySlow
  | voltageTriptimeFast | voltageTriptimeSlow | frequencyTriptimeFast | frequencyTriptimeSlow
  | gridRecoveryTime | regulatedDcWorkingPoint | underVoltageSlow | voltage3ClearanceTime | startTime
  | powerFactor | relayProtect | activeAntiislandTime
deriving DecidableEq

namespace Param

def all : List Param :=
  [underVoltageFast, overVoltageFast, underVoltageStage2, overVoltageSlow, underFrequencyFast, overFrequencyFast,
    underFrequencySlow, overFrequencySlow, voltageTriptimeFast, voltageTriptimeSlow, frequencyTriptimeFast,
    frequencyTriptimeSlow, gridRecoveryTime, regulatedDcWorkingPoint, underVoltageSlow, voltage3ClearanceTime,
    startTime, powerFactor, relayProtect, activeAntiislandTime]

def text : Param → List Byte
  | underVoltageFast => str "under_voltage_fast"
  | overVoltageFast => str "over_voltage_fast"
  | underVoltageStage2 => str "under_voltage_stage_2"
  | overVoltageSlow => str "over_voltage_slow"
  | underFrequencyFast => str "under_frequency_fast"
  | overFrequencyFast => str "over_frequency_fast"
  | underFrequencySlow => str "under_frequency_slow"
  | overFrequencySlow => str "over_frequency_slow"
  | voltageTriptimeFast => str "voltage_triptime_fast"
  | voltageTriptimeSlow => str "voltage_triptime_slow"
  | frequencyTriptimeFast => str "frequency_triptime_fast"
  | frequencyTriptimeSlow => str "frequency_triptime_slow"
  | gridRecoveryTime => str "grid_recovery_time"
  | regulatedDcWorkingPoint => str "regulated_dc_working_point"
  | underVoltageSlow => str "under_voltage_slow"
  | voltage3ClearanceTime => str "voltage_3_clearance_time"
  | startTime => str "start_time"
  | powerFactor => str "power_factor"
  | relayProtect => str "relay_protect"
  | activeAntiislandTime => str "active_antiisland_time"

theorem mem_all (p : Param) : p ∈ all := by
  cases p <;> decide

/-- The setting of a name. -/
def ofName (name : List Byte) : Option Param :=
  all.find? fun p => p.text = name

end Param

/-! ## The table for all inverters -/

/-- The flag of a row is set; it is the `k`-th field. -/
def flagSet (k : Nat) (data : List Byte) : Prop :=
  Socket.atoi ((splitString data).getD k []) = 1

instance (k : Nat) (data : List Byte) : Decidable (flagSet k data) :=
  inferInstanceAs (Decidable (_ = _))

/-- `get_value_flag`: the name and the value of the first row whose flag is set. -/
def getValueFlag (file : List Byte) : Option (List Byte × List Byte) :=
  ((Lines.readLines newline 200 file).find? fun data => flagSet 2 data).map fun data =>
    ((splitString data).getD 0 [], (splitString data).getD 1 [])

/-- The attempts that `clear_flag` makes to insert a row. -/
def insertAttempts (str : List Byte) : Nat → List Byte → List Byte
  | 0, file => file
  | n + 1, file =>
    let out := insertLine file str
    if out.2 then out.1 else insertAttempts str n out.1

/-- The row of a setting that is done. -/
def doneRow (name value : List Byte) : List Byte :=
  csvRow [name, Decimal.intText (Socket.atoi value), [], str "0"]

/-- `clear_flag`: the row goes to the end of the file with its flag field empty. -/
def clearFlag (file paraName : List Byte) : List Byte :=
  match readLine file paraName with
  | none => file
  | some data => insertAttempts (doneRow paraName ((splitString data).getD 1 [])) 3 (deleteLine file paraName)

/-! ## The table for single inverters -/

/-- `get_value_flag_one`: the id, the name and the value of the first row whose flag is set. -/
def getValueFlagOne (file : List Byte) : Option (List Byte × List Byte × List Byte) :=
  ((Lines.readLines newline 200 file).find? fun data => flagSet 3 data).map fun data =>
    ((splitString data).getD 0 [], (splitString data).getD 1 [], (splitString data).getD 2 [])

/-- `clear_flag_one` -/
def clearFlagOne (file id paraName : List Byte) : List Byte :=
  deleteLine file (id ++ comma :: paraName)

/-! ## Lines that are read whole -/

section Whole

variable {lines : List (List Byte)} (whole : ∀ line ∈ lines, Lines.IsLine newline 200 line)
  (clean : ∀ line ∈ lines, cstr line = line)

include whole

theorem readLines_whole {size : Nat} (more : 200 ≤ size) : Lines.readLines newline size lines.flatten = lines :=
  Lines.readLines_flatten fun line mem => (whole line mem).mono more

include clean

theorem deleteLine_whole (compareData : List Byte) :
    deleteLine lines.flatten compareData = (lines.filter fun data => ¬ compareData <+: data).flatten := by
  rw [deleteLine, readLines_whole whole (by decide)]
  have same : (lines.filter fun data => ¬ compareData <+: data).map cstr =
      (lines.filter fun data => ¬ compareData <+: data).map id :=
    List.map_congr_left fun line mem => clean line (List.mem_filter.1 mem).1
  rw [same, List.map_id]

end Whole

theorem flagSet_some {k : Nat} {data : List Byte} (set : flagSet k data) : (splitString data).getD k [] ≠ [] := by
  intro none
  rw [flagSet, none] at set
  exact absurd set (by decide)

/-! ## What the names are like -/

namespace Param

theorem plain_chars {chars : List Char}
    (codes : chars.all fun c => decide (c.toNat < 256 ∧ c.toNat ≠ 0 ∧ c.toNat ≠ 10 ∧ c.toNat ≠ 44)) :
    Plain (chars.map Char.toUInt8) := by
  intro b mem
  obtain ⟨c, inChars, rfl⟩ := List.mem_map.1 mem
  obtain ⟨small, noNul, noNewline, noComma⟩ := of_decide_eq_true (List.all_eq_true.1 codes c inChars)
  have code : c.toUInt8.toNat = c.toNat := Nat.mod_eq_of_lt small
  refine ⟨?_, ?_, ?_⟩
  · intro same
    exact noNul (code.symm.trans (congrArg UInt8.toNat same))
  · intro same
    exact noNewline (code.symm.trans (congrArg UInt8.toNat same))
  · intro same
    exact noComma (code.symm.trans (congrArg UInt8.toNat same))

theorem text_plain (p : Param) : Plain p.text := by
  cases p <;> rw [text, str_ofList] <;> apply plain_chars <;> rfl

theorem text_length (p : Param) : p.text.length ≤ 26 := by
  cases p <;> rw [text, str_ofList] <;> decide

theorem text_letter (p : Param) : ∃ b rest, p.text = b :: rest ∧ 0x61 ≤ b := by
  cases p <;> rw [text, str_ofList] <;> exact ⟨_, _, rfl, by decide⟩

theorem names_apart : (all.map text).Pairwise fun a b => ¬ a <+: b ∧ ¬ b <+: a := by
  simp only [all, List.map_cons, List.map_nil, text]
  iterate 20 rw [str_ofList]
  decide +kernel

/-- No name begins like another. -/
theorem eq_of_starts {p q : Param} (part : p.text <+: q.text) : p = q := by
  by_contra different
  have apart := List.pairwise_map.1 names_apart
  have : Std.Symm fun p q : Param => ¬ p.text <+: q.text ∧ ¬ q.text <+: p.text := ⟨fun _ _ both => both.symm⟩
  exact (apart.forall p.mem_all q.mem_all different).1 part

theorem text_injective {p q : Param} (same : p.text = q.text) : p = q :=
  eq_of_starts (same ▸ List.prefix_rfl)

theorem ofName_text (p : Param) : ofName p.text = some p := by
  have found : ofName p.text ≠ none := by
    intro none
    have passed := List.find?_eq_none.1 none p p.mem_all
    exact passed (decide_eq_true rfl)
  obtain ⟨q, found⟩ := Option.ne_none_iff_exists'.1 found
  have same : q.text = p.text := of_decide_eq_true (List.find?_some (p := fun q : Param => q.text = p.text) found)
  rw [found, text_injective same]

end Param

/-! ## Other fields -/

theorem plain_nil : Plain [] :=
  fun _ mem => absurd mem List.not_mem_nil

theorem plain_flag : Plain (str "0") ∧ Plain (str "1") := by
  rw [str_ofList, str_ofList]
  exact ⟨Param.plain_chars rfl, Param.plain_chars rfl⟩

theorem Plain.append {a b : List Byte} (left : Plain a) (right : Plain b) : Plain (a ++ b) := by
  intro c mem
  rcases List.mem_append.1 mem with mem | mem
  · exact left c mem
  · exact right c mem

theorem flag_length : (str "0").length = 1 ∧ (str "1").length = 1 := by
  rw [str_ofList, str_ofList]
  exact ⟨rfl, rfl⟩

end Ecu.Protection
