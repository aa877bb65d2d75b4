import Ecu.Command.Ird
import Ecu.Command.Pending

/-!
# When the loops over waiting rows end

A row is consumed by the first twelve characters of its id as the main thread reads it. An id with a comma or a line
end in it is read up to there, and the loop takes its row for ever; every other row is consumed by its turn.
-/

namespace Ecu.Command

open Poll Protection Socket

/-! ## `set_ird_single` -/

theorem flags_fewer {lines : List (List Byte)} {line key : List Byte} (mem : line ∈ lines) (set : flagSet 3 line)
    (own : key <+: line) {row : List Byte} (notSet : ¬ flagSet 3 row) :
    ((lines.filter fun l => ¬ key <+: l) ++ [row]).countP (fun data => flagSet 3 data) <
      lines.countP fun data => flagSet 3 data := by
  have none : [row].countP (fun data => decide (flagSet 3 data)) = 0 := by
    rw [List.countP_eq_zero]
    intro l inRow
    rw [List.mem_singleton.1 inRow]
    simpa using notSet
  rw [List.countP_append, none, Nat.add_zero, List.countP_eq_length_filter, List.countP_eq_length_filter,
    List.filter_comm]
  apply List.length_filter_lt_length_iff_exists.2
  exact ⟨line, List.mem_filter.2 ⟨mem, decide_eq_true set⟩, by simpa using own⟩

section Ird

variable (stack : Nat → List Byte) (replies : Nat → Nat → Reply) (inverters : List InverterInfo)

/-- A request whose id is cut short is never consumed; without one the loop makes no more turns than flags are set. -/
theorem ird_ends (n : Nat) {lines : List (List Byte)} (rows : ∀ line ∈ lines, IrdLine line)
    (fewer : (lines.countP fun data => flagSet 3 data) ≤ n) {s : IrdState} (file : s.file = lines.flatten) :
    ((∀ line ∈ lines, flagSet 3 line → 12 ≤ ((splitString line).getD 0 []).length) →
      Loop.EndsWithin (setIrdSingle stack replies inverters) (lines.countP fun data => flagSet 3 data) s) ∧
    (Loop.Ends (setIrdSingle stack replies inverters) s →
      ∀ line ∈ lines, flagSet 3 line → 12 ≤ ((splitString line).getD 0 []).length) := by
  induction n generalizing lines s with
  | zero =>
    have none : ∀ line ∈ lines, ¬ flagSet 3 line := by
      simpa [List.countP_eq_zero] using Nat.le_zero.1 fewer
    have stops : setIrdSingle stack replies inverters s = .none := by
      rw [setIrdSingle, file, getIrdIdValue_rows rows, List.find?_eq_none.2 (by simpa using none)]
      rfl
    exact ⟨fun _ => Loop.endsWithin_of_none stops, fun _ line mem set => absurd set (none line mem)⟩
  | succ n ih =>
    cases first : lines.find? fun data => flagSet 3 data with
    | none =>
      have none : ∀ line ∈ lines, ¬ flagSet 3 line := by simpa using first
      have stops : setIrdSingle stack replies inverters s = .none := by
        rw [setIrdSingle, file, getIrdIdValue_rows rows, first]
        rfl
      exact ⟨fun _ => Loop.endsWithin_of_none stops, fun _ line mem set => absurd set (none line mem)⟩
    | some line =>
      have inLines := List.mem_of_find?_eq_some first
      have set : flagSet 3 line := by simpa using List.find?_some first
      by_cases long : 12 ≤ ((splitString line).getD 0 []).length
      · obtain ⟨sent, next, step, result, small, nextFile⟩ := ird_turn rows stack replies inverters first long file
        obtain ⟨rest, same, plain, few⟩ := (rows line inLines).flagged set
        obtain ⟨id, isId⟩ : ∃ id, (splitString line).getD 0 [] = id := ⟨_, rfl⟩
        rw [isId] at same plain few long nextFile
        have own : id.take 12 <+: line := (List.take_prefix 12 id).trans (same ▸ List.prefix_append id _)
        have notSet := resultRow_notSet plain result
        have less := flags_fewer inLines set own notSet
        have later := ih (ird_replaced rows plain few small) (by omega) nextFile
        constructor
        · intro free
          have within := later.1 ?_
          · exact (Loop.endsWithin_step step within).mono less
          · intro l mem lineSet
            rcases List.mem_append.1 mem with mem | mem
            · exact free l (List.mem_filter.1 mem).1 lineSet
            · exact absurd (List.mem_singleton.1 mem ▸ lineSet) notSet
        · intro ends l mem lineSet
          by_cases part : id.take 12 <+: l
          · obtain ⟨behind, otherSame, -, -⟩ := (rows l mem).flagged lineSet
            have fits := key_in_field otherSame part fun inside => (plain comma (List.mem_of_mem_take inside)).2.2 rfl
            rwa [List.length_take_of_le long] at fits
          · have kept : l ∈ lines.filter fun l => ¬ id.take 12 <+: l := List.mem_filter.2 ⟨mem, decide_eq_true part⟩
            exact later.2 ((Loop.ends_step step).1 ends) l (List.mem_append_left _ kept) lineSet
      · constructor
        · exact fun free => absurd (free line inLines set) long
        · intro ends
          have always : ∀ {s : IrdState}, s.file = lines.flatten →
              ∃ sent next, setIrdSingle stack replies inverters s = some (sent, next) ∧ next.file = lines.flatten := by
            intro s file
            obtain ⟨next, step, kept⟩ := ird_turn_cut rows stack replies inverters first (Nat.lt_of_not_le long) file
            exact ⟨none, next, step, kept⟩
          exact absurd ends (Loop.not_ends_of_always always file)

end Ird

/-! ## What A127 and the main thread write -/

/-- A short text becomes lines of the table. -/
theorem made_ird {text : List Byte} (clean : ∀ b ∈ text, b ≠ nul) (few : text.length ≤ 24)
    (ended : text.getLast? = some newline) : Lines.MadeOf IrdLine text :=
  (madeOf_short clean (by omega) ended).mono fun _ both => ⟨both.1, .inl (Nat.le_trans both.2.length_le few)⟩

theorem readBack_made (replies : Nat → Reply) {file : List Byte} (made : Lines.MadeOf IrdLine file) {id : List Byte}
    (few : (cstr id).length ≤ 12) : Lines.MadeOf IrdLine (readBack replies file id) := by
  rw [readBack]
  cases answered : ([0, 1, 2].map replies).findSome? Reply.mode with
  | none => exact made
  | some mode =>
    obtain ⟨reply, -, taken⟩ := List.exists_of_findSome?_eq_some answered
    have number := intText_length (w := 3) (by decide) (Reply.mode_byte taken)
    have noNul : ∀ b ∈ resultRow (cstr id) mode, b ≠ nul := by
      apply csvRow_noNul
      intro field mem b inField
      simp only [List.mem_cons, List.not_mem_nil, or_false] at mem
      rcases mem with rfl | rfl | rfl | rfl
      · exact cstr_noNul id b inField
      · exact (plain_intText mode b inField).1
      · exact absurd inField List.not_mem_nil
      · exact (plain_flag.1 b inField).1
    have short : (resultRow (cstr id) mode).length ≤ 24 := by
      have flag := flag_length.1
      rw [resultRow, csvRow_length (List.cons_ne_nil _ _)]
      simp only [List.map_cons, List.map_nil, List.sum_cons, List.sum_nil, List.length_nil, flag]
      omega
    exact insertAttempts_lines (deleteLineBytes_lines (fun _ row => row.short) made id 12)
      (made_ird noNul short (csvRow_ended _))
      (cstr_of_clean noNul) 3

theorem getIrdAll_made (replies : Nat → Nat → Reply) (inverters : List InverterInfo) {file : List Byte}
    (made : Lines.MadeOf IrdLine file) : Lines.MadeOf IrdLine (getIrdAll replies inverters file) := by
  rw [getIrdAll]
  apply List.foldlRecOn (motive := fun file => Lines.MadeOf IrdLine file) _ _ made
  intro file made entry mem
  have hasId : Record.HasId entry.1.toInverter := registered_zipIdx mem
  have twelve : (cstr entry.1.id).length = 12 := hasId
  exact readBack_made _ made (Nat.le_of_eq twelve)

theorem setIrdNum_made {file : List Byte} (made : Lines.MadeOf IrdLine file) (msg : List Byte) (num : Nat) :
    Lines.MadeOf IrdLine (setIrdNum file msg num) := by
  rw [setIrdNum]
  apply List.foldlRecOn (motive := fun file => Lines.MadeOf IrdLine file) _ _ made
  intro file made i _
  have id := inverterId_length msg 16 i
  have number := intText_length (w := 1) (by decide) (msgGetInt_natAbs (msg.drop (i * 16 + 12)) Nat.one_pos)
  have flag := flag_length.2
  have noNul : ∀ b ∈ irdRow (inverterId msg 16 i) (msgGetInt (msg.drop (i * 16 + 12)) 1), b ≠ nul := by
    apply csvRow_noNul
    intro field mem b inField
    simp only [List.mem_cons, List.not_mem_nil, or_false] at mem
    rcases mem with rfl | rfl | rfl | rfl
    · exact cstr_noNul _ b inField
    · exact absurd inField List.not_mem_nil
    · exact (plain_intText _ b inField).1
    · exact (plain_flag.2 b inField).1
  have short : (irdRow (inverterId msg 16 i) (msgGetInt (msg.drop (i * 16 + 12)) 1)).length ≤ 24 := by
    rw [irdRow, csvRow_length (List.cons_ne_nil _ _)]
    simp only [List.map_cons, List.map_nil, List.sum_cons, List.sum_nil, List.length_nil, flag]
    omega
  dsimp only
  rw [insertLine, cstr_of_clean noNul]
  exact (deleteLineBytes_lines (fun _ row => row.short) made _ 12).append (made_ird noNul short (csvRow_ended _))

/-- A table that A127, `get_ird_all` and the loop have left. -/
inductive IrdWritten : List Byte → Prop
  | none : IrdWritten []
  | set {files : IrdFiles} (before : IrdWritten files.ird) (recvbuffer : List Byte) :
    IrdWritten (setInverterIrd recvbuffer files).ird
  | readAll {file : List Byte} (before : IrdWritten file) (replies : Nat → Nat → Reply)
    (inverters : List InverterInfo) :
    IrdWritten (getIrdAll replies inverters file)
  | turn {s next : IrdState} (before : IrdWritten s.file) {stack : Nat → List Byte} {replies : Nat → Nat → Reply}
    {inverters : List InverterInfo} {sent : Option (Nat × Int)}
    (step : setIrdSingle stack replies inverters s = some (sent, next)) : IrdWritten next.file

/-- What a turn leaves of the rows. -/
theorem setIrdSingle_made {s next : IrdState} (made : Lines.MadeOf IrdLine s.file) {stack : Nat → List Byte}
    {replies : Nat → Nat → Reply} {inverters : List InverterInfo} {sent : Option (Nat × Int)}
    (step : setIrdSingle stack replies inverters s = some (sent, next)) : Lines.MadeOf IrdLine next.file := by
  obtain ⟨lines, file, rows⟩ := made
  cases first : lines.find? fun data => flagSet 3 data with
  | none =>
    rw [setIrdSingle, file, getIrdIdValue_rows rows, first] at step
    cases step
  | some line =>
    have set : flagSet 3 line := by simpa using List.find?_some first
    obtain ⟨-, -, plain, few⟩ := (rows line (List.mem_of_find?_eq_some first)).flagged set
    by_cases long : 12 ≤ ((splitString line).getD 0 []).length
    · obtain ⟨sent', next', step', result, small, nextFile⟩ := ird_turn rows stack replies inverters first long file
      rw [step] at step'
      obtain ⟨-, rfl⟩ := Prod.mk.inj (Option.some_inj.1 step')
      exact ⟨_, nextFile, ird_replaced rows plain few small⟩
    · obtain ⟨next', step', kept⟩ := ird_turn_cut rows stack replies inverters first (Nat.lt_of_not_le long) file
      rw [step] at step'
      obtain ⟨-, rfl⟩ := Prod.mk.inj (Option.some_inj.1 step')
      exact ⟨lines, kept, rows⟩

theorem IrdWritten.made {file : List Byte} (written : IrdWritten file) : Lines.MadeOf IrdLine file := by
  induction written with
  | none => exact Lines.MadeOf.nil
  | set before recvbuffer ih =>
    rw [setInverterIrd]
    dsimp only
    split_ifs <;> first | exact ih | exact setIrdNum_made ih _ _
  | readAll before replies inverters ih => exact getIrdAll_made replies inverters ih
  | turn before step ih => exact setIrdSingle_made ih step

/-! ## Both loops -/

/-- **The two loops** end, after at most a turn for each row, exactly when no row that they take is cut short: in
`turnonof` no comma stands among the first twelve characters of a row, in `ird` the first field of a flagged row has
twelve characters. -/
theorem waiting_ends_iff (acks : Nat → Nat → Bool) (stack : Nat → List Byte) (replies : Nat → Nat → Reply)
    (inverters : List InverterInfo) {s : SwitchState} (switch : SwitchWritten s.file) {t : IrdState}
      (ird : IrdWritten t.file) :
    (Loop.EndsWithin (turnOnOff acks inverters) (Lines.readLines newline 200 s.file).length s ↔
      ∀ line ∈ Lines.readLines newline 200 s.file, comma ∉ line.take 12) ∧
    (Loop.EndsWithin (setIrdSingle stack replies inverters) (Lines.readLines newline 200 t.file).length t ↔
      ∀ line ∈ Lines.readLines newline 200 t.file, flagSet 3 line → 12 ≤ ((splitString line).getD 0 []).length) := by
  refine ⟨switch_ends_iff acks inverters s.turn switch, ?_⟩
  obtain ⟨lines, file, rows⟩ := ird.made
  rw [file, readLines_ird rows (by decide)]
  have both := ird_ends stack replies inverters _ rows (Nat.le_refl _) file
  exact ⟨fun within => both.2 within.ends, fun free => (both.1 free).mono List.countP_le_length⟩

/-- A111 that turns one inverter on. -/
def sampleOnoff (id : List Byte) : List Byte :=
  str "APS1300068A111AAA0216000000001" ++ str "2000120170101120000END" ++ id ++ str "0END"

/-- A127 that sets the option 2 of one inverter. -/
def sampleIrd (id : List Byte) : List Byte :=
  str "APS1300068A127AAA0216000000001" ++ str "1000120170101120000END" ++ id ++ str "2END"

def sampleSwitch (id : List Byte) : SwitchState :=
  ⟨0, setInverterOnoff (sampleOnoff id) [] [] []⟩

def sampleIrdState (id : List Byte) : IrdState :=
  ⟨0, (setInverterIrd (sampleIrd id) ⟨[], [], []⟩).ird, [], []⟩

theorem sampleSwitch_written (id : List Byte) : SwitchWritten (sampleSwitch id).file :=
  SwitchWritten.set SwitchWritten.none (sampleOnoff id) [] []

theorem sampleIrd_written (id : List Byte) : IrdWritten (sampleIrdState id).file :=
  @IrdWritten.set ⟨[], [], []⟩ IrdWritten.none (sampleIrd id)

theorem waiting_ends_sample :
    (Loop.EndsWithin (turnOnOff (fun _ _ => true) [])
        (Lines.readLines newline 200 (sampleSwitch (str "801000000001")).file).length
          (sampleSwitch (str "801000000001")) ↔
      ∀ line ∈ Lines.readLines newline 200 (sampleSwitch (str "801000000001")).file, comma ∉ line.take 12) ∧
    (Loop.EndsWithin (setIrdSingle (fun _ => []) (fun _ _ => ⟨0, []⟩) [])
        (Lines.readLines newline 200 (sampleIrdState (str "801000000001")).file).length
        (sampleIrdState (str "801000000001")) ↔
      ∀ line ∈ Lines.readLines newline 200 (sampleIrdState (str "801000000001")).file,
        flagSet 3 line → 12 ≤ ((splitString line).getD 0 []).length) :=
  waiting_ends_iff (fun _ _ => true) (fun _ => []) (fun _ _ => ⟨0, []⟩) [] (sampleSwitch_written _)
    (sampleIrd_written _)

/-- A row with a comma in its id is taken for ever. -/
theorem cut_loops :
    ¬ ∀ (acks : Nat → Nat → Bool) (inverters : List InverterInfo) (s : SwitchState), SwitchWritten s.file →
      Loop.EndsWithin (turnOnOff acks inverters) (Lines.readLines newline 200 s.file).length s := by
  intro ends
  have written := sampleSwitch_written (str "801,00000001")
  have within := ends (fun _ _ => true) [] (sampleSwitch (str "801,00000001")) written
  have free := (switch_ends_iff (fun _ _ => true) [] 0 written).1 within
  have row : str "801,00000001,1\n" ∈ Lines.readLines newline 200 (sampleSwitch (str "801,00000001")).file := by
    rw [sampleSwitch, sampleOnoff]
    iterate 5 rw [str_ofList]
    decide +kernel
  refine absurd (free _ row) ?_
  rw [str_ofList]
  decide

end Ecu.Command
