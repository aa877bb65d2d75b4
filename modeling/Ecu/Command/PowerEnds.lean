import Ecu.Command.Power

/-!
# When the loop over limits ends

`process_max_power` clears the flag of a row only where its limit is not 0 and its id is in the table of the inverters.
Any other row that ends with a 1 is taken again for ever, unless an earlier row of the same id takes it away.
-/

namespace Ecu.Command

open Poll Protection Socket

/-! ## Rows that are served -/

/-- The character before the last one is a 1, or may be: before a lone line end stands what there is. -/
abbrev Flagged (line : List Byte) : Prop :=
  EndsOne (digit 1) line

structure Servable (inverters : List InverterInfo) (line : List Byte) : Prop where
  flag : flagSet 5 line
  limit : atoi ((splitString line).getD 1 []) ≠ 0
  known : ∃ x ∈ registered inverters, sameChars ((splitString line).getD 0 []) x.id 12

/-- Of the flagged rows with the same twelve characters in front, the first one is served. -/
def AllServable (inverters : List InverterInfo) (lines : List (List Byte)) : Prop :=
  ∀ key line, (lines.find? fun l => Flagged l ∧ l.take 12 = key) = some line → Servable inverters line

theorem PowerRow.notFlagged (id : List Byte) (row : PowerRow) (clean : ∀ b ∈ row.text id, b ≠ nul) (below : Byte) :
    ¬ EndsOne below (row.text id) := by
  have zero : str "0" = [digit 0] := by
    rw [str_ofList]
    decide
  have text : row.text id = [comma].intercalate [id, Decimal.intText row.limitedpower,
    Decimal.intText row.limitedresult,
      Decimal.intText row.stationarypower, Decimal.intText row.stationaryresult] ++ [comma] ++ [digit 0, newline] := by
    rw [PowerRow.text, csvRow, zero]
    simp [List.intercalate_cons_of_ne_nil]
  rw [EndsOne, strlen, cstr_of_clean clean, text, List.length_append, List.length_cons, List.length_singleton,
    if_neg (by omega), Nat.add_sub_cancel, List.getD_append_right _ _ _ _ (Nat.le_refl _), Nat.sub_self]
  decide

/-- The entries of the table whose id a field begins with. -/
theorem sameChars_registered (inverters : List InverterInfo) {field : List Byte} (plain : Plain field) :
    ∀ x ∈ registered inverters,
    (cstr x.id).length = 12 ∧ (sameChars field x.id 12 ↔ cstr x.id = field.take 12) := by
  intro x mem
  have twelve : (cstr x.id).length = 12 := registered_hasId x mem
  refine ⟨twelve, ?_⟩
  rw [sameChars, cstr_of_clean fun b mem => (plain b mem).1, List.take_of_length_le (Nat.le_of_eq twelve), eq_comm]

/-- The first element with a property is also the first one that has another one besides. -/
theorem find_both {lines : List (List Byte)} {line : List Byte} {P Q : List Byte → Prop}
    [DecidablePred P] [DecidablePred Q]
    (first : (lines.find? fun l => P l) = some line) (also : Q line) :
    (lines.find? fun l => P l ∧ Q l) = some line := by
  obtain ⟨holds, front, back, split, none⟩ := List.find?_eq_some_iff_append.1 first
  apply List.find?_eq_some_iff_append.2
  refine ⟨by simpa using ⟨by simpa using holds, also⟩, front, back, split, fun l mem => ?_⟩
  have not : ¬ P l := by simpa using none l mem
  simp [not]

section Turn

variable {inverters : List InverterInfo} {lines : List (List Byte)} (rows : ∀ line ∈ lines, PowerLine line)

include rows

/-- What stands before the table matters for an empty line only. -/
theorem endsOne_congr (all : AllServable inverters lines) (below : Byte) :
    (lines.find? fun line => EndsOne below line) = lines.find? fun line => Flagged line := by
  apply List.find?_congr
  intro line mem
  by_cases single : strlen line < 2
  · exfalso
    have row := (rows line mem).short
    obtain ⟨⟨body, shape, -⟩, -⟩ := row.isLine
    have empty : line = [newline] := by
      rw [strlen, row.cstr, shape, List.length_append, List.length_singleton] at single
      rw [shape, List.length_eq_zero_iff.1 (show body.length = 0 by omega)]
      rfl
    have flagged : Flagged line := by
      rw [Flagged, EndsOne, if_pos single]
    cases first : lines.find? fun l => Flagged l ∧ l.take 12 = [newline] with
    | none =>
      have not := List.find?_eq_none.1 first line mem
      rw [empty] at not flagged
      exact not (decide_eq_true ⟨flagged, rfl⟩)
    | some other =>
      have key : other.take 12 = [newline] := by
        have both : Flagged other ∧ other.take 12 = [newline] := by simpa using List.find?_some first
        exact both.2
      have served := all [newline] other first
      have same : other = [newline] := by
        have length := congrArg List.length key
        rw [List.length_take, List.length_singleton] at length
        rwa [List.take_of_length_le (by omega)] at key
      rw [same] at served
      exact absurd served.flag (by decide)
  · change decide (EndsOne below line) = decide (EndsOne (digit 1) line)
    rw [decide_eq_decide, EndsOne, EndsOne, if_neg single, if_neg single]

/-- A turn of a row that is served: the rows of its id make place for one that is not flagged. -/
theorem power_turn (below : Nat → Byte) (replies : Nat → Nat → Reply) {s : PowerState} (file : s.file = lines.flatten)
    {line : List Byte} (first : (lines.find? fun line => EndsOne (below s.turn) line) = some line)
    (served : Servable inverters line) :
    ∃ (id : List Byte) (command : Option LimitCommand) (row : PowerRow) (before : List Byte),
      IsId id ∧ id <+: line ∧ (∃ x ∈ registered inverters, cstr x.id = id) ∧
      (lines.find? fun line => id <+: line) = some before ∧
      processMaxPower below replies inverters s = some (command, ⟨s.turn + 1,
        ((lines.filter fun line => ¬ id <+: line) ++ [row.text id]).flatten⟩) ∧
      Served (replies s.turn) (atoi ((splitString line).getD 1 [])) id (registered inverters) (readRow before) row
        command := by
  have mem := List.mem_of_find?_eq_some first
  obtain ⟨rest, same, plain⟩ := (rows line mem).short.first_field (flagSet_some served.flag)
  have entries := sameChars_registered inverters plain
  obtain ⟨x, inTable, own⟩ := served.known
  have isKey := (entries x inTable).2.1 own
  have start : (splitString line).getD 0 [] <+: line := ⟨comma :: rest, same.symm⟩
  generalize isField : (splitString line).getD 0 [] = field at *
  have isId : IsId (field.take 12) :=
    ⟨by rw [← isKey]; exact (entries x inTable).1, fun b mem => plain b (List.mem_of_mem_take mem)⟩
  have part : field.take 12 <+: line := (List.take_prefix 12 field).trans start
  have some : (lines.find? fun line => field.take 12 <+: line) ≠ none := by
    intro none
    exact List.find?_eq_none.1 none line mem (decide_eq_true part)
  obtain ⟨before, found⟩ := Option.ne_none_iff_exists'.1 some
  obtain ⟨command, row, result, left⟩ := serveMaxPower_some (replies s.turn)
    (atoi ((splitString line).getD 1 [])) isId (fun x mem => (entries x mem).2) rows found ⟨x, inTable, isKey⟩
  refine ⟨field.take 12, command, row, before, isId, part, ⟨x, inTable, isKey⟩, found, ?_, left⟩
  rw [processMaxPower, readLineEnd, file, readLines_short (rows_short rows) (Nat.le_refl 100), first, Option.map_some]
  dsimp only
  rw [if_pos ⟨served.flag, served.limit⟩, isField, result]

/-- A turn of any other row does nothing. -/
theorem power_turn_idle (below : Nat → Byte) (replies : Nat → Nat → Reply) {s : PowerState}
    (file : s.file = lines.flatten)
    {line : List Byte} (first : (lines.find? fun line => EndsOne (below s.turn) line) = some line)
    (not : ¬ Servable inverters line) :
    processMaxPower below replies inverters s = some (none, ⟨s.turn + 1, lines.flatten⟩) := by
  rw [processMaxPower, readLineEnd, file, readLines_short (rows_short rows) (Nat.le_refl 100), first, Option.map_some]
  dsimp only
  split_ifs with set
  · rw [serveMaxPower_none]
    exact fun x mem own => not ⟨set.1, set.2, x, mem, own⟩
  · rfl

end Turn

/-! ## When the loop ends -/

section Ends

variable {inverters : List InverterInfo} {lines : List (List Byte)} {id : List Byte} (isId : IsId id) {row : PowerRow}

include isId

/-- The first twelve characters of a row of the id. -/
theorem take_own {line : List Byte} (own : id <+: line) : line.take 12 = id := by
  rw [← isId.twelve]
  exact (List.prefix_iff_eq_take.1 own).symm

/-- Once the rows of an id have made place, the first flagged row with other characters is the one it was. -/
theorem find_flagged_replaced (key : List Byte) :
    (((lines.filter fun line => ¬ id <+: line) ++ [row.text id]).find? fun l => Flagged l ∧ l.take 12 = key) =
      if key = id then none else lines.find? fun l => Flagged l ∧ l.take 12 = key := by
  have last : ([row.text id].find? fun l => Flagged l ∧ l.take 12 = key) = none := by
    rw [List.find?_eq_none]
    intro l mem both
    rw [List.mem_singleton.1 mem, decide_eq_true_eq] at both
    exact row.notFlagged id (row.noNul isId.noNul) (digit 1) both.1
  rw [List.find?_append, last, Option.or_none]
  by_cases same : key = id
  · rw [if_pos same, List.find?_eq_none]
    intro l mem both
    have kept : ¬ id <+: l := by simpa using (List.mem_filter.1 mem).2
    rw [decide_eq_true_eq] at both
    apply kept
    rw [← same, ← both.2]
    exact List.take_prefix 12 l
  · rw [if_neg same, List.find?_filter]
    apply List.find?_congr
    intro l _
    by_cases own : id <+: l
    · have other : ¬ l.take 12 = key := by
        rw [take_own isId own]
        exact Ne.symm same
      simp [own, other]
    · simp [own]

theorem flagged_fewer (row : PowerRow) {line : List Byte} (mem : line ∈ lines) (flagged : Flagged line)
    (own : id <+: line) :
    ((lines.filter fun line => ¬ id <+: line) ++ [row.text id]).countP (fun l => Flagged l) <
      lines.countP fun l => Flagged l := by
  have none : [row.text id].countP (fun l => decide (Flagged l)) = 0 := by
    rw [List.countP_eq_zero]
    intro l inRow
    rw [List.mem_singleton.1 inRow]
    simpa using row.notFlagged id (row.noNul isId.noNul) (digit 1)
  rw [List.countP_append, none, Nat.add_zero, List.countP_eq_length_filter, List.countP_eq_length_filter,
    List.filter_comm]
  apply List.length_filter_lt_length_iff_exists.2
  exact ⟨line, List.mem_filter.2 ⟨mem, decide_eq_true flagged⟩, by simpa using own⟩

end Ends

section Loop

variable (replies : Nat → Nat → Reply) (inverters : List InverterInfo)

theorem power_stops (below : Nat → Byte) {lines : List (List Byte)} (rows : ∀ line ∈ lines, PowerLine line)
    {s : PowerState}
    (file : s.file = lines.flatten) (none : (lines.find? fun line => EndsOne (below s.turn) line) = none) :
    processMaxPower below replies inverters s = .none := by
  rw [processMaxPower, readLineEnd, file, readLines_short (rows_short rows) (Nat.le_refl 100), none]
  rfl

/-- Every turn serves a row, and leaves fewer that are flagged. -/
theorem power_ends (below : Nat → Byte) (n : Nat) {lines : List (List Byte)} (rows : ∀ line ∈ lines, PowerLine line)
    (fewer : (lines.countP fun l => Flagged l) ≤ n) (all : AllServable inverters lines) {s : PowerState}
    (file : s.file = lines.flatten) :
    Loop.EndsWithin (processMaxPower below replies inverters) (lines.countP fun l => Flagged l) s := by
  induction n generalizing lines s with
  | zero =>
    apply Loop.endsWithin_of_none
    apply power_stops replies inverters below rows file
    rw [endsOne_congr rows all, List.find?_eq_none]
    exact List.countP_eq_zero.1 (Nat.le_zero.1 fewer)
  | succ n ih =>
    cases first : lines.find? fun line => Flagged line with
    | none =>
      exact Loop.endsWithin_of_none (power_stops replies inverters below rows file
        ((endsOne_congr rows all _).trans first))
    | some line =>
      have mem := List.mem_of_find?_eq_some first
      have flagged : Flagged line := by simpa using List.find?_some first
      have served := all (line.take 12) line (find_both first rfl)
      obtain ⟨id, command, row, before, isId, own, -, -, step, left⟩ :=
        power_turn rows below replies file ((endsOne_congr rows all _).trans first) served
      have less := flagged_fewer isId row mem flagged own
      have later := ih (rows_replaced isId rows left.few) (by omega) (s := ⟨s.turn + 1, _⟩) (fun key l found => by
        rw [find_flagged_replaced isId] at found
        split_ifs at found
        exact all key l found) rfl
      exact (Loop.endsWithin_step step later).mono less

/-- If the loop ends whatever stands before the table, each of its rows is served. -/
theorem power_served (n : Nat) {lines : List (List Byte)} (rows : ∀ line ∈ lines, PowerLine line)
    (fewer : (lines.countP fun l => Flagged l) ≤ n) {s : PowerState} (file : s.file = lines.flatten)
    (ends : Loop.Ends (processMaxPower (fun _ => digit 1) replies inverters) s) : AllServable inverters lines := by
  induction n generalizing lines s with
  | zero =>
    intro key line found
    have flagged : Flagged line ∧ line.take 12 = key := by simpa using List.find?_some found
    have none := List.countP_eq_zero.1 (Nat.le_zero.1 fewer) line (List.mem_of_find?_eq_some found)
    exact absurd (decide_eq_true flagged.1) none
  | succ n ih =>
    intro key line' found
    cases first : lines.find? fun line => Flagged line with
    | none =>
      have flagged : Flagged line' ∧ line'.take 12 = key := by simpa using List.find?_some found
      have none := List.find?_eq_none.1 first line' (List.mem_of_find?_eq_some found)
      exact absurd (decide_eq_true flagged.1) none
    | some line =>
      have mem := List.mem_of_find?_eq_some first
      have flagged : Flagged line := by simpa using List.find?_some first
      by_cases served : Servable inverters line
      · obtain ⟨id, command, row, before, isId, own, -, -, step, left⟩ :=
          power_turn rows (fun _ => digit 1) replies file first served
        have less := flagged_fewer isId row mem flagged own
        have later := ih (rows_replaced isId rows left.few) (by omega) (s := ⟨s.turn + 1, _⟩) rfl
          ((Loop.ends_step step).1 ends)
        by_cases same : key = id
        · have here := find_both (Q := fun l => l.take 12 = key) first (by rw [take_own isId own, same])
          rw [found] at here
          exact Option.some_inj.1 here ▸ served
        · apply later key
          rw [find_flagged_replaced isId, if_neg same]
          exact found
      · have always : ∀ {s : PowerState}, s.file = lines.flatten → ∃ command next,
            processMaxPower (fun _ => digit 1) replies inverters s = some (command, next) ∧ next.file = lines.flatten :=
          fun file => ⟨none, _, power_turn_idle rows (fun _ => digit 1) replies file first served, rfl⟩
        exact absurd ends (Loop.not_ends_of_always always file)

end Loop

/-! ## What A110 and the main thread write -/

theorem setMaxpowerNum_made (msg : List Byte) (num : Nat) : Lines.MadeOf PowerLine (setMaxpowerNum msg num) := by
  rw [setMaxpowerNum, List.flatMap_def]
  apply Lines.MadeOf.flatten
  intro text mem
  obtain ⟨i, -, rfl⟩ := List.mem_map.1 mem
  dsimp only
  split_ifs
  · exact Lines.MadeOf.nil
  · have id := inverterId_length msg 18 i
    have limit := wd_length (w := 3) (by decide) (msgGetInt_natAbs (msg.drop (i * 18 + 12)) (show 0 < 3 by decide))
    have flag := flag_length.2
    apply made_power [inverterId msg 18 i, wd 3 (msgGetInt (msg.drop (i * 18 + 12)) 3), [], [], []] (str "1")
    · intro field mem b inField
      simp only [List.cons_append, List.nil_append, List.mem_cons, List.not_mem_nil, or_false] at mem
      rcases mem with rfl | rfl | rfl | rfl | rfl | rfl
      · exact cstr_noNul _ b inField
      · exact (plain_wd 3 _ b inField).1
      · exact absurd inField List.not_mem_nil
      · exact absurd inField List.not_mem_nil
      · exact absurd inField List.not_mem_nil
      · exact (plain_one b inField).1
    · intro field mem
      simp only [List.mem_cons, List.not_mem_nil, or_false] at mem
      rcases mem with rfl | rfl | rfl | rfl | rfl
      · omega
      · omega
      · exact Nat.zero_le _
      · exact Nat.zero_le _
      · exact Nat.zero_le _
    · omega
    · rw [csvRow_length (by simp)]
      simp only [List.cons_append, List.nil_append, List.map_cons, List.map_nil, List.sum_cons, List.sum_nil,
        List.length_nil, flag]
      omega

theorem setInverterMaxpower_made (recvbuffer data idFile : List Byte) {file : List Byte}
    (made : Lines.MadeOf PowerLine file) : Lines.MadeOf PowerLine
      (setInverterMaxpower recvbuffer data idFile file) := by
  rw [setInverterMaxpower]
  dsimp only
  split_ifs
  · exact setMaxpowerNum_made _ _
  · exact made
  · exact setMaxpowerNum_made _ _
  · exact made
  · exact made

theorem readMaxPowerAll_made (replies : Nat → Nat → Reply) (inverters : List InverterInfo) {file : List Byte}
    (made : Lines.MadeOf PowerLine file) : Lines.MadeOf PowerLine (readMaxPowerAll replies inverters file) := by
  rw [readMaxPowerAll]
  apply List.foldlRecOn (motive := fun file => Lines.MadeOf PowerLine file) _ _ made
  intro file made entry mem
  cases answered : firstResult (replies entry.2) with
  | none => exact made
  | some b =>
    have hasId : Record.HasId entry.1.toInverter := registered_zipIdx mem
    obtain ⟨lines, rfl, rows⟩ := made
    apply updateRow_made rows hasId
    exact fun row few => ⟨limitedResult_few entry.1 (firstResult_lt answered), few.limitedresult, few.stationarypower,
      few.stationaryresult⟩

theorem processMaxPower_made {below : Nat → Byte} {replies : Nat → Nat → Reply} {inverters : List InverterInfo}
    {s next : PowerState} {command : Option LimitCommand} (made : Lines.MadeOf PowerLine s.file)
    (step : processMaxPower below replies inverters s = some (command, next)) : Lines.MadeOf PowerLine next.file := by
  obtain ⟨lines, file, rows⟩ := made
  cases first : lines.find? fun line => EndsOne (below s.turn) line with
  | none =>
    rw [power_stops replies inverters below rows file first] at step
    cases step
  | some line =>
    by_cases served : Servable inverters line
    · obtain ⟨id, command', row, before, isId, own, -, -, step', left⟩ :=
        power_turn rows below replies file first served
      rw [step] at step'
      rw [(Prod.mk.inj (Option.some_inj.1 step')).2]
      exact ⟨_, rfl, rows_replaced isId rows left.few⟩
    · have step' := power_turn_idle rows below replies file first served
      rw [step] at step'
      rw [(Prod.mk.inj (Option.some_inj.1 step')).2]
      exact ⟨lines, rfl, rows⟩

/-- A table that A110, `read_max_power` and the loop have left. -/
inductive PowerWritten : List Byte → Prop
  | none : PowerWritten []
  | set {file : List Byte} (before : PowerWritten file) (recvbuffer data idFile : List Byte) :
    PowerWritten (setInverterMaxpower recvbuffer data idFile file)
  | readAll {file : List Byte} (before : PowerWritten file) (replies : Nat → Nat → Reply)
    (inverters : List InverterInfo) :
    PowerWritten (readMaxPowerAll replies inverters file)
  | turn {s next : PowerState} (before : PowerWritten s.file) {below : Nat → Byte} {replies : Nat → Nat → Reply}
    {inverters : List InverterInfo} {command : Option LimitCommand}
    (step : processMaxPower below replies inverters s = some (command, next)) : PowerWritten next.file

theorem PowerWritten.made {file : List Byte} (written : PowerWritten file) : Lines.MadeOf PowerLine file := by
  induction written with
  | none => exact Lines.MadeOf.nil
  | set before recvbuffer data idFile ih => exact setInverterMaxpower_made recvbuffer data idFile ih
  | readAll before replies inverters ih => exact readMaxPowerAll_made replies inverters ih
  | turn before step ih => exact processMaxPower_made ih step

/-- **`process_max_power`** ends, after at most a turn for each row, exactly when of the flagged rows that begin alike
the first one has its flag in the sixth field, a limit that is not 0, and an id of the table. -/
theorem max_power_ends_iff (replies : Nat → Nat → Reply) (inverters : List InverterInfo) {s : PowerState}
    (written : PowerWritten s.file) :
    (∀ below, Loop.EndsWithin (processMaxPower below replies inverters) (Lines.readLines newline 100 s.file).length s) ↔
      AllServable inverters (Lines.readLines newline 100 s.file) := by
  obtain ⟨lines, file, rows⟩ := written.made
  rw [file, readLines_short (rows_short rows) (Nat.le_refl 100)]
  constructor
  · exact fun within => power_served replies inverters _ rows (Nat.le_refl _) file (within fun _ => digit 1).ends
  · exact fun all below => (power_ends replies inverters below _ rows (Nat.le_refl _) all file).mono
      List.countP_le_length

/-- A110 for one inverter, its limit in three characters. -/
def sampleLimit (id limit : List Byte) : List Byte :=
  str "APS1300070A110AAA0216000000001" ++ str "1000120170101120000END" ++ id ++ limit ++ str "END"

/-- The table that this A110 writes. -/
def sampleLimited (id limit : List Byte) : PowerState :=
  ⟨0, setInverterMaxpower (sampleLimit id limit) [] [] []⟩

theorem sampleLimited_written (id limit : List Byte) : PowerWritten (sampleLimited id limit).file :=
  PowerWritten.set PowerWritten.none (sampleLimit id limit) [] []

theorem max_power_ends_sample :
    (∀ below, Loop.EndsWithin (processMaxPower below (fun _ _ => ⟨0, []⟩) [])
        (Lines.readLines newline 100 (sampleLimited (str "801000000001") (str "200")).file).length
        (sampleLimited (str "801000000001") (str "200"))) ↔
      AllServable [] (Lines.readLines newline 100 (sampleLimited (str "801000000001") (str "200")).file) :=
  max_power_ends_iff (fun _ _ => ⟨0, []⟩) [] (sampleLimited_written _ _)

theorem sampleLimited_zero : (Lines.readLines newline 100 (sampleLimited (str "801000000001") (str "000")).file).find?
    (fun l => Flagged l ∧ l.take 12 = str "801000000001") = some (str "801000000001,  0,,,,1\n") := by
  rw [sampleLimited, sampleLimit]
  iterate 6 rw [str_ofList]
  decide +kernel

/-- A row with the limit 0 is taken for ever. -/
theorem zero_loops :
    ¬ ∀ (below : Nat → Byte) (replies : Nat → Nat → Reply) (inverters : List InverterInfo) (s : PowerState),
      PowerWritten s.file →
      Loop.EndsWithin (processMaxPower below replies inverters) (Lines.readLines newline 100 s.file).length s := by
  intro ends
  have written := sampleLimited_written (str "801000000001") (str "000")
  have within := ends (fun _ => digit 1) (fun _ _ => ⟨0, []⟩) [] _ written
  obtain ⟨lines, file, rows⟩ := written.made
  have all := power_served (fun _ _ => ⟨0, []⟩) [] _ rows (Nat.le_refl _) file within.ends
  have found := sampleLimited_zero
  rw [file, readLines_short (rows_short rows) (Nat.le_refl 100)] at found
  refine (all _ _ found).limit ?_
  rw [str_ofList]
  decide

end Ecu.Command
