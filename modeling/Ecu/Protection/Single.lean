import Ecu.Lib.Loop
import Ecu.Poll.Files
import Ecu.Protection.Handlers

/-!
# Setting single inverters (`set_protection_parameters_inverter.c`)

`set_protection_paras_one` takes the first row whose flag is set until there is none. A row is deleted once its
parameter is sent, but some branches `continue` or end without it. The loop ends exactly when no row takes one of
them (`single_ends_iff`).
-/

namespace Ecu.Protection

open Param Poll

/-! ## The frames of a row -/

section Branches

variable (T : Target) (x : InverterInfo) (value : List Byte)

/-- A voltage: its factor depends on the deputy model, and nothing is done while this is not known. -/
def voltageOne (order : Byte) (yc1000 : List (List Byte)) : List (List Byte) × Bool :=
  if x.model = 7 then
    if x.deputyModel = 0 then ([], false)
    else
      let data := if x.deputyModel = 2 then scaled T value (133 / 100) else scaled T value (13277 / 10000)
      ([setProtectionYc600 order data 2], true)
  else (yc1000, true)

def frequencyOne (order : Byte) (yc1000 : List (List Byte)) : List (List Byte) × Bool :=
  (if x.model = 7 then [setProtectionYc600 order (inverse T value 50000000) 3] else yc1000, true)

/-- A time, or another number with a factor. -/
def scaledOne (order : Byte) (factor : ℚ) (num : Nat) (yc1000 : List (List Byte)) : List (List Byte) × Bool :=
  (if x.model = 7 then [setProtectionYc600 order (scaled T value factor) num] else yc1000, true)

/-- The row of power factor is never cleared. -/
def powerFactorOne : List (List Byte) × Bool :=
  (if x.model = 7 then [setProtectionYc600 0x4F (scaled T value 1) 1] else [], false)

def relayProtectOne : List (List Byte) × Bool :=
  if x.model = 7 then
    let data := scaled T value 1
    (if data = 0 then [setProtectionYc600 0x4A 0 0] else if data = 1 then [setProtectionYc600 0x4B 0 0] else [], true)
  else ([], false)

/-- The branch of a name: the frames it sends, and whether it clears the flag. -/
def branchOne : Param → List (List Byte) × Bool
  | underVoltageFast => voltageOne T x value 0x61 [setUndervoltageFastYc1000One T value]
  | overVoltageFast => voltageOne T x value 0x62 [setOvervoltageFastYc1000One T value]
  | underVoltageStage2 => voltageOne T x value 0x83
      [setUndervoltageSlowYc1000One T value, setUndervoltageSlowYc1000One5 T value,
        setUnderVoltageStage3Yc1000One T value]
  | overVoltageSlow => voltageOne T x value 0x64
      [setOvervoltageSlowYc1000One T value, setOvervoltageSlowYc1000One5 T value]
  | underFrequencyFast => frequencyOne T x value 0x68 [setUnderfrequencyFastYc1000One T value]
  | overFrequencyFast => frequencyOne T x value 0x67 [setOverfrequencyFastYc1000One T value]
  | underFrequencySlow => frequencyOne T x value 0x6A
      [setUnderfrequencySlowYc1000One T value, setUnderfrequencySlowYc1000One5 T value]
  | overFrequencySlow => frequencyOne T x value 0x69
      [setOverfrequencySlowYc1000One T value, setOverfrequencySlowYc1000One5 T value]
  | voltageTriptimeFast => scaledOne T x value 0x65 100 2 [setVoltageTriptimeFastYc1000One T value]
  | voltageTriptimeSlow => scaledOne T x value 0x66 100 2 [setVoltageTriptimeSlowYc1000One T value]
  | frequencyTriptimeFast => scaledOne T x value 0x6B 100 2 [setFrequencyTriptimeFastYc1000One T value]
  | frequencyTriptimeSlow => scaledOne T x value 0x6C 100 2 [setFrequencyTriptimeSlowYc1000One T value]
  | gridRecoveryTime => scaledOne T x value 0x6D 100 2
      [setGridRecoveryTimeYc1000One T value, setGridRecoveryTimeYc1000One5 T value]
  | regulatedDcWorkingPoint => scaledOne T x value 0x60 (4096 / (825 / 10)) 2
      [setRegulatedDcWorkingPointYc1000One T value]
  | underVoltageSlow => voltageOne T x value 0x6E [setUnderVoltageStage2Yc1000One T value]
  | voltage3ClearanceTime => scaledOne T x value 0x6F 100 2 [setVoltage3ClearanceTimeYc1000One T value]
  | startTime => scaledOne T x value 0x4D 100 2 [setStartTimeYc1000One T value]
  | activeAntiislandTime => scaledOne T x value 0x3E (25 / 10) 1 [setActiveAntiislandTimeYc1000One T value]
  | powerFactor => powerFactorOne T x value
  | relayProtect => relayProtectOne T x value

end Branches

/-! ## The loop -/

/-- The entries that the loops over the table reach. -/
def registered (inverters : List InverterInfo) : List InverterInfo :=
  inverters.takeWhile fun x => Record.HasId x.toInverter

theorem registered_hasId {inverters : List InverterInfo} : ∀ x ∈ registered inverters, Record.HasId x.toInverter := by
  intro x mem
  simpa using List.mem_takeWhile_imp mem

theorem registered_zipIdx {inverters : List InverterInfo} {entry : InverterInfo × Nat}
    (mem : entry ∈ (registered inverters).zipIdx) : Record.HasId entry.1.toInverter := by
  have listed : entry.1 ∈ registered inverters := by
    rw [(List.mem_zipIdx' mem).2]
    exact List.getElem_mem _
  exact registered_hasId entry.1 listed

/-- What `set_protection_paras_one` does with a row of a name, and whether the row is deleted. -/
def rowOne (T : Target) (inverters : List InverterInfo) (inverterId paraName value : List Byte) :
    List (Nat × List Byte) × Bool :=
  match (registered inverters).find? fun x => cstr x.id = cstr inverterId with
  | none => ([], true)
  | some x =>
    if x.shortaddr = 0 then ([], true)
    else
      match (registered inverters).find? fun x => fieldBytes 12 inverterId = x.id.take 12 with
      | none => ([], false)
      | some x =>
        if x.shortaddr > 0 ∧ (x.model = 5 ∨ x.model = 6 ∨ x.model = 7) then
          match ofName paraName with
          | some p => ((branchOne T x value p).1.map fun sendbuff => (x.shortaddr, sendbuff), (branchOne T x value p).2)
          | none => ([], true)
        else ([], false)

/-- A turn of the loop in `set_protection_paras_one`: the frames with their addresses, and the file. -/
def setProtectionParasOne (T : Target) (inverters : List InverterInfo) (file : List Byte) :
    Option (List (Nat × List Byte) × List Byte) :=
  (getValueFlagOne file).map fun row =>
    let out := rowOne T inverters row.1 row.2.1 row.2.2
    (out.1, if out.2 then clearFlagOne file row.1 row.2.1 else file)

/-! ## Which rows are cleared -/

/-- The branch of the name clears the flag for this inverter. -/
def Clears (x : InverterInfo) : Param → Prop
  | underVoltageFast | overVoltageFast | underVoltageStage2 | overVoltageSlow | underVoltageSlow =>
    x.model = 7 → x.deputyModel ≠ 0
  | powerFactor => False
  | relayProtect => x.model = 7
  | _ => True

theorem voltageOne_clears (T : Target) (x : InverterInfo) (value : List Byte) (order : Byte)
    (yc1000 : List (List Byte)) :
    (voltageOne T x value order yc1000).2 = true ↔ (x.model = 7 → x.deputyModel ≠ 0) := by
  unfold voltageOne
  by_cases yc600 : x.model = 7
  · by_cases unknown : x.deputyModel = 0
    · simp [yc600, unknown]
    · simp [yc600, unknown]
  · simp [yc600]

theorem branchOne_clears (T : Target) (x : InverterInfo) (value : List Byte) (p : Param) :
    (branchOne T x value p).2 = true ↔ Clears x p := by
  cases p
  case underVoltageFast | overVoltageFast | underVoltageStage2 | overVoltageSlow | underVoltageSlow =>
    exact voltageOne_clears T x value _ _
  case powerFactor => exact ⟨Bool.false_ne_true, False.elim⟩
  case relayProtect =>
    change (relayProtectOne T x value).2 = true ↔ x.model = 7
    unfold relayProtectOne
    by_cases yc600 : x.model = 7
    · simp [yc600]
    · simp [yc600]
  all_goals exact ⟨fun _ => trivial, fun _ => rfl⟩

/-- A row that the loop does not delete: its inverter is in the table and has an address, but its model is not one of
the three known ones, or the branch of its name keeps the row. -/
def Stuck (inverters : List InverterInfo) (inverterId paraName : List Byte) : Prop :=
  ∃ x, ((registered inverters).find? fun x => cstr x.id = inverterId) = some x ∧ x.shortaddr ≠ 0 ∧
    ((x.model = 5 ∨ x.model = 6 ∨ x.model = 7) → ∃ p, ofName paraName = some p ∧ ¬ Clears x p)

theorem take_id {x : InverterInfo} (hasId : Record.HasId x.toInverter) : x.id.take 12 = cstr x.id := by
  have part : cstr x.id <+: x.id := List.takeWhile_prefix _
  rw [List.prefix_iff_eq_take.1 part]
  exact congrArg (fun n => x.id.take n) hasId.symm

/-- The second search finds what the first one found. -/
theorem find_again {inverters : List InverterInfo} {inverterId : List Byte} {x : InverterInfo}
    (found : ((registered inverters).find? fun x => cstr x.id = inverterId) = some x) :
    ((registered inverters).find? fun x => fieldBytes 12 inverterId = x.id.take 12) = some x := by
  have same : cstr x.id = inverterId := by simpa using List.find?_some found
  have twelve : inverterId.length = 12 := by
    rw [← same]
    exact registered_hasId x (List.mem_of_find?_eq_some found)
  have field : fieldBytes 12 inverterId = inverterId := List.take_left' twelve
  rw [← found]
  apply List.find?_congr
  intro y mem
  rw [field, take_id (registered_hasId y mem)]
  exact decide_eq_decide.2 eq_comm

theorem rowOne_keeps (T : Target) (inverters : List InverterInfo) {inverterId : List Byte}
    (clean : cstr inverterId = inverterId) (paraName value : List Byte) :
    (rowOne T inverters inverterId paraName value).2 = false ↔ Stuck inverters inverterId paraName := by
  unfold rowOne Stuck
  rw [clean]
  cases found : (registered inverters).find? fun x => cstr x.id = inverterId with
  | none => simp
  | some x =>
    simp only [find_again found, Option.some.injEq, exists_eq_left']
    by_cases address : x.shortaddr = 0
    · simp [address]
    · by_cases known : x.model = 5 ∨ x.model = 6 ∨ x.model = 7
      · rw [if_neg address, if_pos ⟨Nat.pos_of_ne_zero address, known⟩]
        cases named : ofName paraName with
        | none => simp [known]
        | some p => simp [known, address, ← branchOne_clears T x value p]
      · rw [if_neg address, if_neg fun both => known both.2]
        simp [known, address]

/-! ## The rows of the table -/

/-- A line of the table. An id may hold any character; where twelve of them are a field, it is a row as the handler
writes it. -/
structure OneLine (line : List Byte) : Prop where
  isLine : Lines.IsLine newline 200 line
  clean : ∀ b ∈ line, b ≠ nul
  known : flagSet 3 line → ((splitString line).getD 0 []).length = 12 →
    ∃ p ∈ proName, (splitString line).getD 1 [] = p.text

/-- A table that A132 and the loop have left. -/
inductive WrittenOne (T : Target) : List Byte → Prop
  | none : WrittenOne T []
  | set {tables : Tables} (before : WrittenOne T tables.setpropi) (recvbuffer : List Byte) :
    WrittenOne T (setInverterAcProtection17 recvbuffer tables).setpropi
  | turn {file next : List Byte} (before : WrittenOne T file) {inverters : List InverterInfo}
    {sent : List (Nat × List Byte)} (step : setProtectionParasOne T inverters file = some (sent, next)) :
    WrittenOne T next

/-- A flagged line has an id and a name in front. -/
theorem OneLine.fields {line : List Byte} (one : OneLine line) (set : flagSet 3 line) :
    ∃ inverterId paraName rest, line = inverterId ++ comma :: (paraName ++ comma :: rest) ∧
      comma ∉ inverterId ∧ comma ∉ paraName ∧ (splitString line).getD 0 [] = inverterId ∧
      (splitString line).getD 1 [] = paraName := by
  obtain ⟨inverterId, behind, same, whole, split⟩ := splitString_more one.clean (flagSet_some set)
  have behindClean : ∀ b ∈ behind, b ≠ nul := by
    intro b mem
    exact one.clean b (same ▸ List.mem_append_right inverterId (List.mem_cons_of_mem comma mem))
  have more : (splitString behind).getD 2 [] ≠ [] := by
    have third := flagSet_some set
    rwa [split, List.getD_cons_succ] at third
  obtain ⟨paraName, rest, same', whole', split'⟩ := splitString_more behindClean more
  refine ⟨inverterId, paraName, rest, ?_, whole, whole', ?_, ?_⟩
  · rw [same, same']
  · rw [split, List.getD_cons_zero]
  · rw [split, split', List.getD_cons_succ, List.getD_cons_zero]

theorem oneLine_row {inverterId : List Byte} (clean : ∀ b ∈ inverterId, b ≠ nul) (short : inverterId.length ≤ 12)
    (open_ : newline ∉ inverterId) {p : Param} (mem : p ∈ proName) {value : List Byte} (plain : Plain value)
    (fits : value.length ≤ 13) : OneLine (csvRow [inverterId, p.text, value, str "1"]) := by
  have plains : ∀ field ∈ [p.text, value, str "1"], Plain field := by
    intro field mem
    simp only [List.mem_cons, List.not_mem_nil, or_false] at mem
    rcases mem with rfl | rfl | rfl
    · exact p.text_plain
    · exact plain
    · rw [str_ofList]
      exact plain_chars rfl
  have tailChars : ∀ b ∈ [comma].intercalate [p.text, value, str "1"], b ≠ nul ∧ b ≠ newline :=
    fun b mem => csvRow_chars plains mem
  have row : csvRow [inverterId, p.text, value, str "1"] =
      inverterId ++ comma :: csvRow [p.text, value, str "1"] := csvRow_cons _ _ _
  have rowClean : ∀ b ∈ csvRow [inverterId, p.text, value, str "1"], b ≠ nul := by
    intro b mem
    rw [row, csvRow] at mem
    rcases List.mem_append.1 mem with inId | mem
    · exact clean b inId
    · rcases List.mem_cons.1 mem with rfl | mem
      · decide
      · rcases List.mem_append.1 mem with inFields | last
        · exact (tailChars b inFields).1
        · rw [List.mem_singleton.1 last]
          decide
  refine ⟨⟨⟨inverterId ++ comma :: [comma].intercalate [p.text, value, str "1"], ?_, ?_⟩, ?_⟩, rowClean, ?_⟩
  · rw [row, csvRow, List.append_assoc]
    rfl
  · intro mem
    rcases List.mem_append.1 mem with inId | mem
    · exact open_ inId
    · rcases List.mem_cons.1 mem with same | mem
      · exact absurd same (by decide)
      · exact (tailChars newline mem).2 rfl
  · have name := p.text_length
    rw [csvRow_length (List.cons_ne_nil _ _)]
    have one : (str "1").length = 1 := by rw [str_ofList]; rfl
    simp only [List.map_cons, List.map_nil, List.sum_cons, List.sum_nil, one]
    omega
  · intro _ twelve
    refine ⟨p, mem, ?_⟩
    by_cases inside : comma ∈ inverterId
    · obtain ⟨front, back, same, whole⟩ := List.eq_append_cons_of_mem inside
      have cut : csvRow [inverterId, p.text, value, str "1"] =
          front ++ comma :: (back ++ comma :: csvRow [p.text, value, str "1"]) := by
        rw [row, same, List.append_assoc]
        rfl
      rw [splitString_cons rowClean cut whole, List.getD_cons_zero] at twelve
      rw [same, List.length_append, List.length_cons] at short
      omega
    · have behind : splitString (csvRow [p.text, value, str "1"]) = [p.text, value, str "1" ++ [newline]] :=
        splitString_csvRow [p.text, value] (str "1") plains
      rw [splitString_cons rowClean row inside, behind]
      rfl

/-- The row of an id with line ends in it is more than one line. -/
theorem oneLine_rows {p : Param} (mem : p ∈ proName) {value : List Byte} (plain : Plain value)
    (fits : value.length ≤ 13) (n : Nat) {inverterId : List Byte} (less : inverterId.length ≤ n)
    (clean : ∀ b ∈ inverterId, b ≠ nul) (short : inverterId.length ≤ 12) :
    Lines.MadeOf OneLine (csvRow [inverterId, p.text, value, str "1"]) := by
  induction n generalizing inverterId with
  | zero =>
    obtain rfl := List.length_eq_zero_iff.1 (Nat.le_zero.1 less)
    exact Lines.MadeOf.single (oneLine_row clean short List.not_mem_nil mem plain fits)
  | succ n ih =>
    by_cases open_ : newline ∈ inverterId
    · obtain ⟨front, back, rfl, whole⟩ := List.eq_append_cons_of_mem open_
      rw [List.length_append, List.length_cons] at less short
      have cut : csvRow [front ++ newline :: back, p.text, value, str "1"] =
          (front ++ [newline]) ++ csvRow [back, p.text, value, str "1"] := by
        rw [csvRow_cons, csvRow_cons back, List.append_assoc, List.append_assoc]
        rfl
      have frontClean : ∀ b ∈ front ++ [newline], b ≠ nul := by
        intro b mem
        rcases List.mem_append.1 mem with inFront | last
        · exact clean b (List.mem_append_left _ inFront)
        · rw [List.mem_singleton.1 last]
          decide
      have first : OneLine (front ++ [newline]) := by
        refine ⟨⟨⟨front, rfl, whole⟩, ?_⟩, frontClean, ?_⟩
        · rw [List.length_append, List.length_singleton]
          omega
        · intro set twelve
          obtain ⟨field, rest, same, -, split⟩ := splitString_more frontClean (flagSet_some set)
          rw [split, List.getD_cons_zero] at twelve
          have size := congrArg List.length same
          rw [List.length_append, List.length_append, List.length_singleton, List.length_cons] at size
          omega
      have backClean : ∀ b ∈ back, b ≠ nul :=
        fun b mem => clean b (List.mem_append_right _ (List.mem_cons_of_mem _ mem))
      have later : Lines.MadeOf OneLine (csvRow [back, p.text, value, str "1"]) := ih (by omega) backClean (by omega)
      rw [cut]
      exact (Lines.MadeOf.single first).append later
    · exact Lines.MadeOf.single (oneLine_row clean short open_ mem plain fits)

theorem saveNum_made (recvbuffer msg : List Byte) (num : Nat) :
    Lines.MadeOf OneLine (saveAcProtectionNum (settings132 recvbuffer) msg num) := by
  rw [saveAcProtectionNum, List.flatMap_def]
  apply Lines.MadeOf.flatten
  intro text mem
  obtain ⟨i, -, rfl⟩ := List.mem_map.1 mem
  apply Lines.MadeOf.flatten
  intro row mem
  obtain ⟨p, inNames, row_of⟩ := List.mem_filterMap.1 mem
  obtain ⟨v, set, rfl⟩ := Option.map_eq_some_iff.1 row_of
  have short : (cstr ((msg.drop (i * 12)).take 12)).length ≤ 12 :=
    Nat.le_trans (List.takeWhile_prefix _).length_le (List.length_take_le _ _)
  refine oneLine_rows inNames (plain_lf v) (print_value_length 6 (settings132_bounds set)) 12 short ?_ short
  intro b mem
  simpa using List.mem_takeWhile_imp mem

theorem OneLine.cstr {line : List Byte} (one : OneLine line) : cstr line = line :=
  cstr_of_clean one.clean

section Lines

variable {lines : List (List Byte)} (rows : ∀ line ∈ lines, OneLine line)

include rows

theorem getValueFlagOne_rows : getValueFlagOne lines.flatten = (lines.find? fun data => flagSet 3 data).map fun data =>
    ((splitString data).getD 0 [], (splitString data).getD 1 [], (splitString data).getD 2 []) := by
  rw [getValueFlagOne, readLines_whole (fun line mem => (rows line mem).isLine) (Nat.le_refl 200)]

theorem clearFlagOne_rows (inverterId paraName : List Byte) : clearFlagOne lines.flatten inverterId paraName =
    (lines.filter fun data => ¬ (inverterId ++ comma :: paraName) <+: data).flatten :=
  deleteLine_whole (fun line mem => (rows line mem).isLine) (fun line mem => (rows line mem).cstr) _

end Lines

theorem WrittenOne.made {T : Target} {file : List Byte} (written : WrittenOne T file) :
    Lines.MadeOf OneLine file := by
  induction written with
  | none => exact Lines.MadeOf.nil
  | set before recvbuffer ih =>
    unfold setInverterAcProtection17
    dsimp only
    split_ifs
    · exact ih
    · exact saveNum_made recvbuffer _ _
    · exact ih
  | turn before step ih =>
    obtain ⟨lines, rfl, rows⟩ := ih
    unfold setProtectionParasOne at step
    obtain ⟨row, -, same⟩ := Option.map_eq_some_iff.1 step
    rw [← (Prod.mk.inj same).2]
    split_ifs
    · rw [clearFlagOne_rows rows]
      exact ⟨_, rfl, fun line mem => rows line (List.mem_filter.1 mem).1⟩
    · exact ⟨lines, rfl, rows⟩

/-! ## When the loop ends -/

section Ends

variable {T : Target} {inverters : List InverterInfo} {lines : List (List Byte)}

theorem single_step (T : Target) (inverters : List InverterInfo) (rows : ∀ line ∈ lines, OneLine line)
    {data : List Byte}
    (first : (lines.find? fun data => flagSet 3 data) = some data) :
    setProtectionParasOne T inverters lines.flatten =
      let inverterId := (splitString data).getD 0 []
      let paraName := (splitString data).getD 1 []
      let out := rowOne T inverters inverterId paraName ((splitString data).getD 2 [])
      some (out.1, if out.2 then
        (lines.filter fun data => ¬ (inverterId ++ comma :: paraName) <+: data).flatten else lines.flatten) := by
  rw [setProtectionParasOne, getValueFlagOne_rows rows, first, Option.map_some, Option.map_some]
  dsimp only
  rw [clearFlagOne_rows rows]

/-- A row that is deleted along with another has its id, and its name begins with the other's. -/
theorem same_key {data line : List Byte} (one : OneLine data) (set : flagSet 3 data) (other : OneLine line)
    (otherSet : flagSet 3 line)
    (part : ((splitString data).getD 0 [] ++ comma :: (splitString data).getD 1 []) <+: line) :
    (splitString line).getD 0 [] = (splitString data).getD 0 [] ∧
      (splitString data).getD 1 [] <+: (splitString line).getD 1 [] := by
  obtain ⟨inverterId, paraName, -, -, whole, wholeName, isId, isName⟩ := one.fields set
  obtain ⟨otherId, otherName, rest, same, otherWhole, -, isOtherId, isOtherName⟩ := other.fields otherSet
  rw [isId, isName] at part
  rw [isId, isName, isOtherId, isOtherName]
  obtain ⟨behind, back⟩ := part
  rw [same, List.append_assoc, List.cons_append] at back
  have ids : inverterId = otherId := by
    have split := congrArg (List.splitOn comma) back
    rw [List.splitOn_append_cons_self_of_not_mem whole, List.splitOn_append_cons_self_of_not_mem otherWhole] at split
    exact (List.cons.inj split).1
  rw [ids] at back
  have names := (List.cons.inj (List.append_cancel_left back)).2
  refine ⟨ids.symm, ?_⟩
  rcases List.prefix_or_prefix_of_prefix ⟨behind, names⟩ (List.prefix_append otherName (comma :: rest)) with here | here
  · exact here
  · obtain ⟨more, rfl⟩ := here
    cases more with
    | nil => rw [List.append_nil]
    | cons c more =>
      rw [List.append_assoc] at names
      have sep := (List.cons.inj (List.append_cancel_left names)).1
      exact absurd (List.mem_append_right otherName (sep ▸ List.mem_cons_self)) wholeName

/-- Rows of one id and one name are kept alike. -/
theorem stuck_of_part {data line : List Byte} (one : OneLine data) (set : flagSet 3 data) (other : OneLine line)
    (otherSet : flagSet 3 line)
    (part : ((splitString data).getD 0 [] ++ comma :: (splitString data).getD 1 []) <+: line)
    (stuck : Stuck inverters ((splitString line).getD 0 []) ((splitString line).getD 1 [])) :
    Stuck inverters ((splitString data).getD 0 []) ((splitString data).getD 1 []) := by
  obtain ⟨ids, names⟩ := same_key one set other otherSet part
  have twelve : ((splitString line).getD 0 []).length = 12 := by
    obtain ⟨x, found, -⟩ := stuck
    have same : cstr x.id = (splitString line).getD 0 [] := by simpa using List.find?_some found
    rw [← same]
    exact registered_hasId x (List.mem_of_find?_eq_some found)
  obtain ⟨p, -, name⟩ := one.known set (ids ▸ twelve)
  obtain ⟨q, -, otherName⟩ := other.known otherSet twelve
  rw [name, otherName] at names
  rwa [← ids, name, eq_of_starts names, ← otherName]

theorem single_ends (n : Nat) (fewer : lines.length ≤ n) (rows : ∀ line ∈ lines, OneLine line) :
    Loop.Ends (setProtectionParasOne T inverters) lines.flatten ↔ ∀ line ∈ lines, flagSet 3 line →
      ¬ Stuck inverters ((splitString line).getD 0 []) ((splitString line).getD 1 []) := by
  induction n generalizing lines with
  | zero =>
    obtain rfl := List.length_eq_zero_iff.1 (Nat.le_zero.1 fewer)
    exact ⟨fun _ line mem => absurd mem List.not_mem_nil, fun _ => Loop.ends_of_none rfl⟩
  | succ n ih =>
    cases first : lines.find? fun data => flagSet 3 data with
    | none =>
      have noFlag : ∀ line ∈ lines, ¬ flagSet 3 line := by simpa using first
      refine ⟨fun _ line mem set => absurd set (noFlag line mem), fun _ => Loop.ends_of_none ?_⟩
      rw [setProtectionParasOne, getValueFlagOne_rows rows, first]
      rfl
    | some data =>
      have inLines := List.mem_of_find?_eq_some first
      have set : flagSet 3 data := by simpa using List.find?_some first
      have one := rows data inLines
      have step := single_step T inverters rows first
      obtain ⟨inverterId, paraName, rest, same, -, -, isId, isName⟩ := one.fields set
      have idClean : cstr inverterId = inverterId :=
        cstr_of_clean fun b mem => one.clean b (same ▸ List.mem_append_left _ mem)
      have keeps := rowOne_keeps T inverters idClean paraName ((splitString data).getD 2 [])
      rw [isId, isName] at step
      by_cases stuck : Stuck inverters inverterId paraName
      · dsimp only at step
        rw [keeps.2 stuck, if_neg Bool.false_ne_true] at step
        refine ⟨fun ends => absurd ends (Loop.not_ends_of_same step), fun free => ?_⟩
        have freed := free data inLines set
        rw [isId, isName] at freed
        exact absurd stuck freed
      · have cleared : (rowOne T inverters inverterId paraName ((splitString data).getD 2 [])).2 = true := by
          simpa using mt keeps.1 stuck
        dsimp only at step
        rw [cleared, if_pos rfl] at step
        have gone : ¬ data ∈ lines.filter fun data => ¬ (inverterId ++ comma :: paraName) <+: data := by
          intro mem
          have kept := of_decide_eq_true (List.mem_filter.1 mem).2
          apply kept
          rw [same, ← List.cons_append, ← List.append_assoc]
          exact List.prefix_append _ _
        have less : (lines.filter fun data => ¬ (inverterId ++ comma :: paraName) <+: data).length < lines.length := by
          apply List.length_filter_lt_length_iff_exists.2
          exact ⟨data, inLines, fun kept => gone (List.mem_filter.2 ⟨inLines, kept⟩)⟩
        rw [Loop.ends_step step, ih (Nat.le_of_lt_succ (Nat.lt_of_lt_of_le less fewer))
          fun line mem => rows line (List.mem_filter.1 mem).1]
        constructor
        · intro free line mem lineSet
          by_cases part : (inverterId ++ comma :: paraName) <+: line
          · rw [← isId, ← isName] at part stuck
            exact fun lineStuck => stuck (stuck_of_part one set (rows line mem) lineSet part lineStuck)
          · exact free line (List.mem_filter.2 ⟨mem, decide_eq_true part⟩) lineSet
        · intro free line mem
          exact free line (List.mem_filter.1 mem).1

end Ends

/-- The loop ends exactly when no flagged row is one that it keeps. -/
theorem single_ends_iff {T : Target} (inverters : List InverterInfo) {file : List Byte}
    (written : WrittenOne T file) :
    Loop.Ends (setProtectionParasOne T inverters) file ↔
      ∀ line ∈ Lines.readLines newline 200 file, flagSet 3 line →
        ¬ Stuck inverters ((splitString line).getD 0 []) ((splitString line).getD 1 []) := by
  obtain ⟨lines, rfl, rows⟩ := written.made
  rw [readLines_whole (fun line mem => (rows line mem).isLine) (Nat.le_refl 200)]
  exact single_ends lines.length (Nat.le_refl _) rows

/-- A132 for one inverter, with the slow undervoltage only. -/
def sample132 : List Byte :=
  str "APS1300138A132AAA0216000000001" ++ str "20170101120000001END" ++ str "180" ++
    List.replicate 67 Socket.letterA ++ str "END801000000001END"

def sampleRow : List Byte :=
  str "801000000001,under_voltage_slow,180.000000,1\n"

theorem sample132_row : (setInverterAcProtection17 sample132 ⟨[], []⟩).setpropi = sampleRow := by
  rw [sample132, sampleRow]
  iterate 5 rw [str_ofList]
  decide +kernel

theorem sampleRow_written (T : Target) : WrittenOne T sampleRow := by
  have set : WrittenOne T (setInverterAcProtection17 sample132 ⟨[], []⟩).setpropi := .set .none sample132
  rwa [sample132_row] at set

/-- Without its inverter in the table the row is deleted. -/
theorem unregistered_ends : Loop.Ends (setProtectionParasOne sampleTarget []) sampleRow := by
  apply (single_ends_iff [] (sampleRow_written sampleTarget)).2
  rintro line - - ⟨x, found, -⟩
  exact Option.some_ne_none x found.symm

/-- An inverter whose model is not known yet. -/
def unknownModel : InverterInfo where
  id := str "801000000001"
  model := 0
  shortaddr := 1

theorem unknownModel_stuck :
    setProtectionParasOne sampleTarget [unknownModel] sampleRow = some ([], sampleRow) := by
  rw [unknownModel, sampleRow]
  iterate 2 rw [str_ofList]
  decide +kernel

theorem unknownModel_loops :
    ¬ ∀ (T : Target) (inverters : List InverterInfo) (file : List Byte), WrittenOne T file →
      Loop.Ends (setProtectionParasOne T inverters) file := by
  intro ends
  exact Loop.not_ends_of_same unknownModel_stuck
    (ends sampleTarget [unknownModel] sampleRow (sampleRow_written sampleTarget))

end Ecu.Protection
