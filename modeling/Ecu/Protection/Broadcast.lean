import Ecu.Protection.Setpropa
import Ecu.Protection.Single

/-!
# Setting all inverters (`set_protection_parameters.c`)

`set_protection_paras` broadcasts the first row whose flag is set and clears the flag, until there is none. Which
frames it broadcasts depends on the families in the plant: a mixed one gets none, and the voltages of YC600 go out only
when a single deputy model is known.
-/

namespace Ecu.Protection

open Param Poll

/-! ## The plant -/

section Plant

variable (inverters : List InverterInfo)

/-- The inverters of the table that satisfy `kind`. -/
def count (kind : InverterInfo → Bool) : Nat :=
  (registered inverters).countP kind

/-- `get_system_model` -/
def getSystemModel : Nat :=
  let m0 := count inverters fun x => x.model = 0
  let m600 := count inverters fun x => x.model = 7
  let bb := count inverters fun x => x.model = 7 ∧ x.deputyModel = 1
  let b1 := count inverters fun x => x.model = 7 ∧ x.deputyModel = 2
  let m1000 := count inverters fun x => x.model = 5 ∨ x.model = 6
  let res := if m0 > 0 then 100 else 0
  if m600 > 0 ∧ m1000 = 0 then
    let res := res + 10
    if bb > 0 ∧ b1 = 0 then res + 1
    else if bb = 0 ∧ b1 > 0 then res + 2
    else if bb > 0 ∧ b1 > 0 then res + 9
    else res
  else if m1000 > 0 ∧ m600 = 0 then res + 20
  else if m1000 > 0 ∧ m600 > 0 then res + 90
  else res

/-- `yc600`, `yc1000` and `bb_or_b1` -/
structure Plant where
  yc600 : Bool := false
  yc1000 : Bool := false
  bbOrB1 : Nat := 0

/-- What `set_protection_paras` makes of the number. -/
def plantOf (res : Nat) : Plant :=
  if res / 100 = 1 ∨ res / 100 = 0 then
    let res := res % 100
    if res / 10 = 1 then { yc600 := true, bbOrB1 := res % 10 }
    else if res / 10 = 2 then { yc1000 := true }
    else {}
  else {}

def plant : Plant :=
  plantOf (getSystemModel inverters)

end Plant

/-! ## The frames of a row -/

section Branches

variable (T : Target) (system : Plant) (value : List Byte)

def voltageAll (order : Byte) (yc1000 : List (List Byte)) : List (List Byte) :=
  if system.yc1000 then yc1000
  else if system.yc600 then
    (if system.bbOrB1 = 1 then [setProtectionYc600 order (scaled T value (13277 / 10000)) 2] else []) ++
      (if system.bbOrB1 = 2 then [setProtectionYc600 order (scaled T value (133 / 100)) 2] else [])
  else []

def frequencyAll (order : Byte) (yc1000 : List (List Byte)) : List (List Byte) :=
  if system.yc600 then [setProtectionYc600 order (inverse T value 50000000) 3]
  else if system.yc1000 then yc1000
  else []

def scaledAll (order : Byte) (factor : ℚ) (num : Nat) (yc1000 : List (List Byte)) : List (List Byte) :=
  if system.yc600 then [setProtectionYc600 order (scaled T value factor) num]
  else if system.yc1000 then yc1000
  else []

def relayProtectAll : List (List Byte) :=
  let data := scaled T value 1
  if system.yc600 then
    if data = 0 then [setProtectionYc600 0x3A 0 0] else if data = 1 then [setProtectionYc600 0x3B 0 0] else []
  else []

/-- The branch of a name: the frames it broadcasts. The frames of five parameters take the others from the file. -/
def branchAll (file : List Byte) : Param → List (List Byte)
  | underVoltageFast => voltageAll T system value 0x51 [setUndervoltageFastYc1000 T value]
  | overVoltageFast => voltageAll T system value 0x52 [setOvervoltageFastYc1000 T value]
  | underVoltageStage2 => voltageAll T system value 0x73
      [setUndervoltageSlowYc1000 T value, setUndervoltageSlowYc10005 T file value, setUnderVoltageStage3Yc1000 T value]
  | overVoltageSlow => voltageAll T system value 0x54
      [setOvervoltageSlowYc1000 T value, setOvervoltageSlowYc10005 T file value]
  | underFrequencyFast => frequencyAll T system value 0x58 [setUnderfrequencyFastYc1000 T value]
  | overFrequencyFast => frequencyAll T system value 0x57 [setOverfrequencyFastYc1000 T value]
  | underFrequencySlow => frequencyAll T system value 0x5A
      [setUnderfrequencySlowYc1000 T value, setUnderfrequencySlowYc10005 T file value]
  | overFrequencySlow => frequencyAll T system value 0x59
      [setOverfrequencySlowYc1000 T value, setOverfrequencySlowYc10005 T file value]
  | voltageTriptimeFast => scaledAll T system value 0x55 100 2 [setVoltageTriptimeFastYc1000 T value]
  | voltageTriptimeSlow => scaledAll T system value 0x56 100 2 [setVoltageTriptimeSlowYc1000 T value]
  | frequencyTriptimeFast => scaledAll T system value 0x5B 100 2 [setFrequencyTriptimeFastYc1000 T value]
  | frequencyTriptimeSlow => scaledAll T system value 0x5C 100 2 [setFrequencyTriptimeSlowYc1000 T value]
  | gridRecoveryTime => scaledAll T system value 0x5D 100 2
      [setGridRecoveryTimeYc1000 T value, setGridRecoveryTimeYc10005 T file value]
  | regulatedDcWorkingPoint => scaledAll T system value 0x50 (4096 / (825 / 10)) 2
      [setRegulatedDcWorkingPointYc1000 T value]
  | underVoltageSlow => voltageAll T system value 0x5E [setUnderVoltageStage2Yc1000 T value]
  | voltage3ClearanceTime => scaledAll T system value 0x5F 100 2 [setVoltage3ClearanceTimeYc1000 T value]
  | startTime => scaledAll T system value 0x3D 100 2 [setStartTimeYc1000 T value]
  -- for all families alike
  | powerFactor => [setProtectionYc600 0x3F (scaled T value 1) 1]
  | relayProtect => relayProtectAll T system value
  | activeAntiislandTime => scaledAll T system value 0x4E (133 / 100) 1 [setActiveAntiislandTimeYc1000 T value]

end Branches

/-! ## The loop -/

/-- A turn of the loop: the file it reads, the row it takes, the frames it broadcasts. -/
structure Turn where
  file : List Byte
  paraName : List Byte
  value : List Byte
  sent : List (List Byte)
  cleared : Bool

/-- The file, and whether the loop was left by `break`. -/
structure Progress where
  file : List Byte
  left : Bool := false

/-- A turn of the loop in `set_protection_paras`. -/
def setProtectionParas (T : Target) (inverters : List InverterInfo) (s : Progress) : Option (Turn × Progress) :=
  if s.left then none
  else (getValueFlag s.file).map fun row =>
    let system := plant inverters
    if system.yc600 ∧ system.yc1000 then (⟨s.file, row.1, row.2, [], true⟩, { file := clearFlag s.file row.1 })
    else
      match ofName row.1 with
      | some relayProtect => (⟨s.file, row.1, row.2, branchAll T system row.2 s.file relayProtect, false⟩, s)
      | some p => (⟨s.file, row.1, row.2, branchAll T system row.2 s.file p, true⟩, { file := clearFlag s.file row.1 })
      | none => (⟨s.file, row.1, row.2, [], true⟩, { file := clearFlag s.file row.1, left := true })

/-! ## The loop ends -/

namespace Setpropa

variable (table : Setpropa)

/-- The rows whose flag is set. -/
def setCount : Nat :=
  table.rows.countP (fun row => row.IsSet) + table.last.toList.length

/-- A set row is one of A132 or of A146. -/
theorem firstSet_name {p : Param} {value : List Byte} (first : table.firstSet = some (p, value)) :
    p ≠ relayProtect := by
  rcases Option.or_eq_some_iff.1 first with here | ⟨-, there⟩
  · obtain ⟨row, found, same⟩ := Option.map_eq_some_iff.1 here
    have set : row.IsSet := by simpa using List.find?_some found
    have fits := table.fits row (List.mem_of_find?_eq_some found)
    rw [← (Prod.mk.inj same).1]
    cases row with
    | fresh q hundredths =>
      rintro rfl
      exact absurd fits.1 (by decide)
    | done q number => exact absurd set id
    | glued code q number => exact Param.noConfusion
  · obtain ⟨code, -, same⟩ := Option.map_eq_some_iff.1 there
    rw [← (Prod.mk.inj same).1]
    exact Param.noConfusion

theorem clear_lowers {p : Param} {value : List Byte} (first : table.firstSet = some (p, value)) :
    (table.clear p).setCount < table.setCount := by
  have kept : (table.rows.filter fun row => row.name ≠ p).countP (fun row => row.IsSet) ≤
      table.rows.countP fun row => row.IsSet :=
    List.Sublist.countP_le List.filter_sublist
  have fewer : ∀ number, (table.joined p number).countP (fun row => row.IsSet) ≤
      if p = powerFactor then 0 else table.last.toList.length := by
    intro number
    unfold joined
    split_ifs
    · exact Nat.le_refl 0
    · apply Nat.le_trans List.countP_le_length
      cases table.last with
      | none => exact Nat.le_refl 0
      | some code => exact Nat.le_refl 1
  have lowered : table.find p ≠ none ∧
      (table.rows.filter fun row => row.name ≠ p).countP (fun row => row.IsSet) +
        (if p = powerFactor then 0 else table.last.toList.length) < table.setCount := by
    rcases Option.or_eq_some_iff.1 first with here | ⟨-, there⟩
    · obtain ⟨row, found, same⟩ := Option.map_eq_some_iff.1 here
      have set : row.IsSet := by simpa using List.find?_some found
      have mem := List.mem_of_find?_eq_some found
      have name : row.name = p := (Prod.mk.inj same).1
      constructor
      · rw [find, ne_eq, Option.or_eq_none_iff, Option.map_eq_none_iff]
        intro both
        have other := List.find?_eq_none.1 both.1 row mem
        exact other (decide_eq_true name)
      · have split := List.countP_eq_countP_filter_add table.rows (fun row => row.IsSet) fun row => row.name ≠ p
        have gone : 0 < (table.rows.filter fun row => !decide (row.name ≠ p)).countP fun row => row.IsSet := by
          apply List.countP_pos_iff.2
          exact ⟨row, List.mem_filter.2 ⟨mem, by simp [name]⟩, decide_eq_true set⟩
        rw [setCount, split]
        split_ifs
        · omega
        · omega
    · obtain ⟨code, isLast, same⟩ := Option.map_eq_some_iff.1 there
      have name : powerFactor = p := (Prod.mk.inj same).1
      constructor
      · rw [find, if_pos name.symm, isLast, ne_eq, Option.or_eq_none_iff]
        exact fun both => Option.some_ne_none code both.2
      · rw [if_pos name.symm, setCount, isLast]
        exact Nat.lt_succ_of_le kept
  unfold clear
  rw [if_neg lowered.1]
  have few := fewer ((table.find p).getD 0)
  have last : [Row.done p ((table.find p).getD 0)].countP (fun row => row.IsSet) = 0 := rfl
  have less := lowered.2
  simp only [setCount, List.countP_append, last, Option.toList_none, List.length_nil] at less ⊢
  omega

end Setpropa

section Ends

variable {T : Target} {inverters : List InverterInfo}

theorem setProtectionParas_text {table : Setpropa} {turn : Turn} {next : Progress}
    (step : setProtectionParas T inverters { file := table.text } = some (turn, next)) :
    ∃ p value, table.firstSet = some (p, value) ∧ next = { file := (table.clear p).text } := by
  unfold setProtectionParas at step
  rw [if_neg Bool.false_ne_true, table.getValueFlag_text, Option.map_map] at step
  obtain ⟨⟨p, value⟩, first, same⟩ := Option.map_eq_some_iff.1 step
  refine ⟨p, value, first, ?_⟩
  have name := table.firstSet_name first
  have cleared : clearFlag table.text p.text = (table.clear p).text := table.clearFlag_text p
  dsimp only [Function.comp] at same
  rw [ofName_text, cleared] at same
  split_ifs at same
  · exact (Prod.mk.inj same).2.symm
  · split at same
    case h_1 is => exact absurd (Option.some_inj.1 is) name
    case h_2 => exact (Prod.mk.inj same).2.symm
    case h_3 is => exact absurd is (Option.some_ne_none p)

/-- The rows of a file whose flag is set. -/
def flagged (file : List Byte) : Nat :=
  (Lines.readLines newline 200 file).countP fun data => flagSet 2 data

theorem flagged_text (table : Setpropa) : flagged table.text = table.setCount := by
  rw [flagged, table.readLines_text (by decide), Setpropa.lines, List.countP_append, List.countP_map, Setpropa.setCount]
  congr 1
  · apply List.countP_congr
    intro row _
    simp [row.flagSet_text]
  · cases table.last with
    | none => rfl
    | some code => simp [powerFactorRow_set code]

end Ends

/-- Every turn clears a flag and sets none, so there is at most one for each row. -/
theorem broadcast_ends (T : Target) (inverters : List InverterInfo) {file : List Byte} (written : Written file) :
    ∃ fuel out, Loop.run (setProtectionParas T inverters) fuel { file } = some out ∧
      out.1.length ≤ (Lines.readLines newline 200 file).length := by
  obtain ⟨table, rfl⟩ := written.table
  let Inv (s : Progress) : Prop := ∃ table : Setpropa, s = { file := table.text }
  have lowers : ∀ {s next : Progress} {turn : Turn}, Inv s →
      setProtectionParas T inverters s = some (turn, next) → Inv next ∧ flagged next.file < flagged s.file := by
    rintro s next turn ⟨table, rfl⟩ step
    obtain ⟨p, value, first, rfl⟩ := setProtectionParas_text step
    refine ⟨⟨table.clear p, rfl⟩, ?_⟩
    rw [flagged_text, flagged_text]
    exact table.clear_lowers first
  obtain ⟨out, ended, few, -⟩ := Loop.run_of_measure lowers (s := { file := table.text }) ⟨table, rfl⟩
    (Nat.lt_succ_self _)
  exact ⟨_, out, ended, Nat.le_trans few List.countP_le_length⟩

/-- A table of one row and one that is not ended. -/
theorem broadcast_ends_sample :
    ∃ fuel out, Loop.run (setProtectionParas sampleTarget []) fuel
      { file := setAllInverterPowerFactor (str "APS1300000A146AAA0216000000001A100") [] } = some out ∧
      out.1.length ≤ (Lines.readLines newline 200
        (setAllInverterPowerFactor (str "APS1300000A146AAA0216000000001A100") [])).length :=
  broadcast_ends sampleTarget [] (.powerFactor .none _)

end Ecu.Protection
