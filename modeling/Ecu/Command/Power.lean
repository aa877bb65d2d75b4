import Ecu.Command.Ird
import Ecu.Command.Pending

/-!
# The maximum power of single inverters (`setpower.c`)

`/home/data/power` has rows `id,limitedpower,limitedresult,stationarypower,stationaryresult,flag`. A110 writes
`id,limit,,,,1`. `process_max_power` takes the first row that ends with a 1, clears its flag and sends the limit, until
no row ends so; what the inverter reports goes into the row of its id.
-/

namespace Ecu.Command

open Poll Protection Socket

/-! ## Replies -/

/-- The byte of the maximum power in a reply that `zb_query_protect_parameter` takes. -/
def Reply.protect (reply : Reply) : Option Nat :=
  let at_ := byteAt reply.readbuff
  if reply.res = 33 ∧ at_ 3 = 0xDD ∧ at_ 0 = 0xFB ∧ at_ 1 = 0xFB ∧ at_ 31 = 0xFE ∧ at_ 32 = 0xFE then some (at_ 5)
  else if reply.res = 58 ∧ at_ 0 = 0xFB ∧ at_ 1 = 0xFB ∧ at_ 3 = 0xDA ∧ at_ 56 = 0xFE ∧ at_ 57 = 0xFE then some (at_ 5)
  else none

/-- `limitedvalue`: the limit in the units of the inverter, as it is sent. -/
def limitedValue (x : InverterInfo) (limitedpower : Int) : Int :=
  let limitedvalue := limitedpower * 7395 / 2 ^ 14 % 256
  if x.model = 7 then limitedvalue / 4 else limitedvalue

/-- `limitedresult` -/
def limitedResult (x : InverterInfo) (b : Nat) : Int :=
  let limitedresult := (b : Int) * 2 ^ 14 / 7395
  if x.model = 7 then limitedresult * 4 else limitedresult

/-- The first of three replies that is taken. -/
def firstResult (replies : Nat → Reply) : Option Nat :=
  ([0, 1, 2].map replies).findSome? Reply.protect

/-! ## The row of an inverter -/

/-- The numbers of a row. -/
structure PowerRow where
  limitedpower : Int
  limitedresult : Int
  stationarypower : Int
  stationaryresult : Int

/-- A row whose flag is not set. -/
def PowerRow.text (id : List Byte) (row : PowerRow) : List Byte :=
  csvRow [id, Decimal.intText row.limitedpower, Decimal.intText row.limitedresult, Decimal.intText row.stationarypower,
    Decimal.intText row.stationaryresult, str "0"]

def readRow (data : List Byte) : PowerRow :=
  let splitdata := splitString data
  ⟨atoi (splitdata.getD 1 []), atoi (splitdata.getD 2 []), atoi (splitdata.getD 3 []), atoi (splitdata.getD 4 [])⟩

/-- The row of an id anew, from the numbers of the first one that is there. -/
def updateRow (file id : List Byte) (update : PowerRow → PowerRow) : List Byte :=
  match readLineBytes id 12 (List.replicate 100 nul) (Lines.readLines newline 100 file) with
  | none => file
  | some linedata => insertAttempts ((update (readRow linedata)).text (cstr id)) 3 (deleteLineBytes file id 12)

/-- `updatemaxpower`: the result goes where the limit stands. -/
def updatemaxpower (file : List Byte) (x : InverterInfo) (limitedresult : Int) : List Byte :=
  updateRow file x.id fun row => { row with limitedpower := limitedresult }

/-- `updatemaxflag` -/
def updatemaxflag (file : List Byte) (x : InverterInfo) : List Byte :=
  updateRow file x.id id

/-! ## The loop -/

/-- `read_line_end` with the key `"1"`: the character before the last one. Before a lone line end stands what `below`
the buffer is. -/
def EndsOne (below : Byte) (line : List Byte) : Prop :=
  (if strlen line < 2 then below else line.getD (strlen line - 2) nul) = digit 1

instance (below : Byte) (line : List Byte) : Decidable (EndsOne below line) :=
  inferInstanceAs (Decidable (_ = _))

def readLineEnd (below : Byte) (file : List Byte) : Option (List Byte) :=
  (Lines.readLines newline 100 file).find? fun line => EndsOne below line

/-- A limit that is sent, up to three times. -/
structure LimitCommand where
  inverter : InverterInfo
  limitedpower : Int
  limitedvalue : Int
  times : Nat

/-- The row that is taken, for the inverters of the table. One without a model is passed over, its row cleared. -/
def serveMaxPower (replies : Nat → Reply) (id : List Byte) (limitedpower : Int) :
    List InverterInfo → List Byte → Option LimitCommand × List Byte
  | [], file => (none, file)
  | x :: inverters, file =>
    if sameChars id x.id 12 then
      let file := updatemaxflag file x
      if x.model = 0 then serveMaxPower replies id limitedpower inverters file
      else
        let command := ⟨x, limitedpower, limitedValue x limitedpower,
          min 3 (([0, 1, 2].map replies).findIdx (fun reply => reply.protect.isSome) + 1)⟩
        match firstResult replies with
        | none => (some command, file)
        | some b => (some command, updatemaxpower file x (limitedResult x b))
    else serveMaxPower replies id limitedpower inverters file

/-- The file, and the number of the turn. -/
structure PowerState where
  turn : Nat
  file : List Byte

/-- A turn of the loop in `process_max_power`. -/
def processMaxPower (below : Nat → Byte) (replies : Nat → Nat → Reply) (inverters : List InverterInfo)
    (s : PowerState) :
    Option (Option LimitCommand × PowerState) :=
  (readLineEnd (below s.turn) s.file).map fun data =>
    let splitdata := splitString data
    let limitedpower := atoi (splitdata.getD 1 [])
    if flagSet 5 data ∧ limitedpower ≠ 0 then
      let out := serveMaxPower (replies s.turn) (splitdata.getD 0 []) limitedpower (registered inverters) s.file
      (out.1, ⟨s.turn + 1, out.2⟩)
    else (none, ⟨s.turn + 1, s.file⟩)

/-! ## Reading all -/

/-- The loop of `read_max_power`; the replies are those of the entries of the table. -/
def readMaxPowerAll (replies : Nat → Nat → Reply) (inverters : List InverterInfo) (file : List Byte) : List Byte :=
  (registered inverters).zipIdx.foldl (fun file entry =>
    match firstResult (replies entry.2) with
    | none => file
    | some b => updatemaxpower file entry.1 (limitedResult entry.1 b)) file

/-- `/home/data/power` and `/tmp/maxpower.con`. -/
structure PowerFiles where
  power : List Byte
  con : List Byte

/-- `response_inverter_maxpower` -/
def responseInverterMaxpower (files : PowerFiles) : PowerFiles :=
  { files with con := str "ALL" }

/-- `read_max_power` -/
def readMaxPower (replies : Nat → Nat → Reply) (inverters : List InverterInfo) (files : PowerFiles) : PowerFiles :=
  if (Lines.readLines newline 50 files.con).headD [] = str "ALL" then
    { power := readMaxPowerAll replies inverters files.power, con := [] }
  else files

/-! ## Lines of the table -/

/-- A line of the table. Whatever an id holds, no field is long. -/
structure PowerLine (line : List Byte) : Prop where
  short : ShortLine line
  fields : ∀ k, ((splitString line).getD k []).length ≤ 17

/-- Characters without a comma stand before it or behind. -/
theorem part_of_side {part a b : List Byte} (whole : comma ∉ part) (inside : part <:+: a ++ comma :: b) :
    part <:+: a ∨ part <:+: b := by
  rcases List.infix_append_iff.1 inside with left | right | ⟨front, back, rfl, suffix, behind⟩
  · exact .inl left
  · rcases List.infix_cons_iff.1 right with starts | right
    · cases part with
      | nil => exact .inl List.nil_infix
      | cons c part => exact absurd (List.cons_prefix_cons.1 starts).1 fun same => whole (same ▸ List.mem_cons_self)
    · exact .inr right
  · cases back with
    | nil =>
      rw [List.append_nil]
      exact .inl suffix.isInfix
    | cons c back =>
      have same := (List.cons_prefix_cons.1 behind).1
      exact absurd (List.mem_append_right front (same ▸ List.mem_cons_self)) whole

theorem part_of_row {part : List Byte} (whole : comma ∉ part) (init : List (List Byte)) (last : List Byte)
    (inside : part <:+: csvRow (init ++ [last])) : (∃ field ∈ init, part <:+: field) ∨ part <:+: last ++ [newline] := by
  induction init with
  | nil =>
    rw [List.nil_append, csvRow, List.intercalate_singleton] at inside
    exact .inr inside
  | cons field init ih =>
    have split : csvRow (field :: (init ++ [last])) = field ++ comma :: csvRow (init ++ [last]) := by
      cases init with
      | nil => exact csvRow_cons field last []
      | cons next init => exact csvRow_cons field next (init ++ [last])
    rw [List.cons_append, split] at inside
    rcases part_of_side whole inside with here | later
    · exact .inl ⟨field, List.mem_cons_self, here⟩
    · rcases ih later with ⟨other, mem, there⟩ | there
      · exact .inl ⟨other, List.mem_cons_of_mem field mem, there⟩
      · exact .inr there

/-- A row whose fields are not long becomes lines of the table. -/
theorem made_power (init : List (List Byte)) (last : List Byte)
    (clean : ∀ field ∈ init ++ [last], ∀ b ∈ field, b ≠ nul) (few : ∀ field ∈ init, field.length ≤ 17)
    (fewLast : last.length ≤ 16) (short : (csvRow (init ++ [last])).length < 100) :
    Lines.MadeOf PowerLine (csvRow (init ++ [last])) := by
  refine (madeOf_short (csvRow_noNul clean) short (csvRow_ended _)).mono fun line both => ⟨both.1, fun k => ?_⟩
  have inLine := splitString_part line k
  rw [both.1.cstr] at inLine
  rcases part_of_row (splitString_whole line k) init last (inLine.trans both.2) with ⟨field, mem, part⟩ | part
  · exact Nat.le_trans part.length_le (few field mem)
  · have length := part.length_le
    rw [List.length_append, List.length_singleton] at length
    omega

/-- A number takes no more characters than it was read from. -/
theorem number_length {field : List Byte} {n : Nat} (few : field.length ≤ n + 1) :
    (Decimal.intText (atoi field)).length ≤ n + 1 := by
  have high := atoi_lt field few
  have low := neg_lt_atoi_sign field few
  generalize atoi field = v at high low
  unfold Decimal.intText
  by_cases negative : v < 0
  · rw [if_pos negative, List.length_cons]
    have some : 0 < n := by
      by_contra none
      obtain rfl : n = 0 := by omega
      rw [pow_zero] at low
      omega
    have less : v.natAbs < 10 ^ n := by
      have abs : (v.natAbs : Int) < 10 ^ n := by omega
      exact_mod_cast abs
    exact Nat.succ_le_succ ((Decimal.length_text_le_iff some).2 less)
  · rw [if_neg negative]
    have less : v.natAbs < 10 ^ (n + 1) := by
      have abs : (v.natAbs : Int) < 10 ^ (n + 1) := by omega
      exact_mod_cast abs
    exact (Decimal.length_text_le_iff (Nat.succ_pos n)).2 less

/-! ## The row anew -/

/-- None of the numbers is long. -/
structure PowerRow.Few (row : PowerRow) : Prop where
  limitedpower : (Decimal.intText row.limitedpower).length ≤ 17
  limitedresult : (Decimal.intText row.limitedresult).length ≤ 17
  stationarypower : (Decimal.intText row.stationarypower).length ≤ 17
  stationaryresult : (Decimal.intText row.stationaryresult).length ≤ 17

theorem PowerLine.few {line : List Byte} (row : PowerLine line) : (readRow line).Few :=
  ⟨number_length (row.fields 1), number_length (row.fields 2), number_length (row.fields 3),
    number_length (row.fields 4)⟩

namespace PowerRow

theorem starts (id : List Byte) (row : PowerRow) : id <+: row.text id := by
  rw [text, csvRow_cons]
  exact List.prefix_append id _

theorem plain {id : List Byte} (plain : Plain id) (row : PowerRow) : ∀ field ∈ [id, Decimal.intText row.limitedpower,
    Decimal.intText row.limitedresult, Decimal.intText row.stationarypower, Decimal.intText row.stationaryresult] ++
    [str "0"], Plain field := by
  intro field mem
  simp only [List.cons_append, List.nil_append, List.mem_cons, List.not_mem_nil, or_false] at mem
  rcases mem with rfl | rfl | rfl | rfl | rfl | rfl
  · exact plain
  · exact plain_intText _
  · exact plain_intText _
  · exact plain_intText _
  · exact plain_intText _
  · exact plain_flag.1

theorem split {id : List Byte} (plain : Plain id) (row : PowerRow) : splitString (row.text id) =
    [id, Decimal.intText row.limitedpower, Decimal.intText row.limitedresult, Decimal.intText row.stationarypower,
      Decimal.intText row.stationaryresult, str "0" ++ [newline]] :=
  splitString_csvRow [id, _, _, _, _] (str "0") (row.plain plain)

/-- The limit is read back. -/
theorem limit {id : List Byte} (plain : Plain id) (row : PowerRow) :
    atoi ((splitString (row.text id)).getD 1 []) = row.limitedpower := by
  have value := atoi_intText row.limitedpower stops_nil
  rw [List.append_nil] at value
  rw [split plain]
  exact value

theorem noNul {id : List Byte} (clean : ∀ b ∈ id, b ≠ nul) (row : PowerRow) : ∀ b ∈ row.text id, b ≠ nul := by
  apply csvRow_noNul
  intro field mem b inField
  rcases List.mem_cons.1 mem with rfl | mem
  · exact clean b inField
  · exact (row.plain plain_nil field (List.mem_cons_of_mem [] mem) b inField).1

section Few

variable {row : PowerRow} (few : row.Few)

include few

theorem Few.length {id : List Byte} (twelve : id.length ≤ 12) : (row.text id).length < 100 := by
  have first := few.limitedpower
  have second := few.limitedresult
  have third := few.stationarypower
  have fourth := few.stationaryresult
  have flag := flag_length.1
  rw [text, csvRow_length (List.cons_ne_nil _ _)]
  simp only [List.map_cons, List.map_nil, List.sum_cons, List.sum_nil, flag]
  omega

theorem Few.made {id : List Byte} (twelve : id.length ≤ 12) (clean : ∀ b ∈ id, b ≠ nul) :
    Lines.MadeOf PowerLine (row.text id) := by
  apply made_power [id, _, _, _, _] (str "0") _ _ _ (few.length twelve)
  · intro field mem b inField
    rcases List.mem_cons.1 mem with rfl | mem
    · exact clean b inField
    · exact (row.plain plain_nil field (List.mem_cons_of_mem [] mem) b inField).1
  · intro field mem
    simp only [List.mem_cons, List.not_mem_nil, or_false] at mem
    rcases mem with rfl | rfl | rfl | rfl | rfl
    · omega
    · exact few.limitedpower
    · exact few.limitedresult
    · exact few.stationarypower
    · exact few.stationaryresult
  · rw [flag_length.1]
    decide

/-- The row of an id as the inverters have it is one line. -/
theorem Few.line {id : List Byte} (isId : IsId id) : PowerLine (row.text id) := by
  have length := few.length (Nat.le_of_eq isId.twelve)
  have line := csvRow_isLine (row.plain isId.plain) (Nat.lt_trans length (by decide))
  have short : ShortLine (row.text id) := ⟨⟨line.shape, length⟩, row.noNul isId.noNul⟩
  obtain ⟨lines, same, each⟩ := few.made (Nat.le_of_eq isId.twelve) isId.noNul
  have parts := readLines_short (fun line mem => (each line mem).short) (show 100 ≤ 200 by decide)
  have one : ∀ line ∈ [row.text id], ShortLine line := fun line mem => List.mem_singleton.1 mem ▸ short
  have whole := readLines_short one (show 100 ≤ 200 by decide)
  rw [List.flatten_singleton, same, parts] at whole
  exact each _ (by rw [whole, ← same]; exact List.mem_singleton_self _)

/-- The row of an id has no line of another one, whatever the id holds. -/
theorem Few.other {id wid : List Byte} (isId : IsId id) (twelve : wid.length = 12) (clean : ∀ b ∈ wid, b ≠ nul)
    (other : wid ≠ id) : Lines.MadeOf (fun line => ShortLine line ∧ ¬ id <+: line) (row.text wid) := by
  have plain : ∀ field ∈ [Decimal.intText row.limitedpower, Decimal.intText row.limitedresult,
      Decimal.intText row.stationarypower, Decimal.intText row.stationaryresult, str "0"], Plain field :=
    fun field mem => row.plain plain_nil field (List.mem_cons_of_mem [] mem)
  exact other_row isId plain 12 (Nat.le_of_eq twelve) clean (Nat.le_of_eq twelve) other
    (few.length (Nat.le_of_eq twelve))

end Few

end PowerRow

section Update

variable {lines : List (List Byte)} (rows : ∀ line ∈ lines, PowerLine line)

include rows

theorem rows_short : ∀ line ∈ lines, ShortLine line :=
  fun line mem => (rows line mem).short

/-- Where no row begins like the id the table stays, otherwise its rows make place for one. -/
theorem updateRow_rows {x : InverterInfo} (hasId : Record.HasId x.toInverter) (update : PowerRow → PowerRow) :
    updateRow lines.flatten x.id update =
      match lines.find? fun line => cstr x.id <+: line with
      | none => lines.flatten
      | some line => insertAttempts ((update (readRow line)).text (cstr x.id)) 3
          (lines.filter fun line => ¬ cstr x.id <+: line).flatten := by
  have twelve : (cstr x.id).length = 12 := hasId
  have key := take_of_cstr (Eq.refl (cstr x.id))
  rw [List.take_of_length_le (Nat.le_of_eq twelve)] at key
  have full : ∀ b ∈ cstr x.id, b ≠ nul := cstr_noNul x.id
  have read := readLineBytes_eq full key (List.replicate 100 nul) (rows_short rows)
  have deleted := deleteLineBytes_eq lines.flatten full key
  rw [twelve] at read deleted
  rw [updateRow, readLines_short (rows_short rows) (Nat.le_refl 100), deleted, deleteLine_short (rows_short rows)]
  cases found : lines.find? fun line => cstr x.id <+: line with
  | none =>
    rw [found] at read
    rw [Option.map_eq_none_iff.1 read]
  | some line =>
    rw [found] at read
    obtain ⟨linedata, isRead, holds⟩ := Option.map_eq_some_iff.1 read
    have same : splitString linedata = splitString line := by
      rw [splitString, holds, splitString, (rows line (List.mem_of_find?_eq_some found)).short.cstr]
    rw [isRead]
    dsimp only
    rw [readRow, same, readRow]

theorem updateRow_made {x : InverterInfo} (hasId : Record.HasId x.toInverter) {update : PowerRow → PowerRow}
    (few : ∀ row, row.Few → (update row).Few) : Lines.MadeOf PowerLine (updateRow lines.flatten x.id update) := by
  have twelve : (cstr x.id).length = 12 := hasId
  rw [updateRow_rows rows hasId]
  cases found : lines.find? fun line => cstr x.id <+: line with
  | none => exact ⟨lines, rfl, rows⟩
  | some line =>
    have row := few _ (rows line (List.mem_of_find?_eq_some found)).few
    have kept : Lines.MadeOf PowerLine (lines.filter fun line => ¬ cstr x.id <+: line).flatten :=
      ⟨_, rfl, fun l mem => rows l (List.mem_filter.1 mem).1⟩
    exact insertAttempts_lines kept (row.made (Nat.le_of_eq twelve) (cstr_noNul x.id))
      (cstr_of_clean (PowerRow.noNul (cstr_noNul x.id) _)) 3

/-- The rows of an id make place for its row. -/
theorem updateRow_own {x : InverterInfo} {id : List Byte} (isId : IsId id) (own : cstr x.id = id)
    {update : PowerRow → PowerRow} (few : ∀ row, row.Few → (update row).Few) {line : List Byte}
    (found : (lines.find? fun line => id <+: line) = some line) :
    updateRow lines.flatten x.id update =
      ((lines.filter fun line => ¬ id <+: line) ++ [(update (readRow line)).text id]).flatten := by
  have hasId : Record.HasId x.toInverter := by
    change (cstr x.id).length = 12
    rw [own]
    exact isId.twelve
  have row := few _ (rows line (List.mem_of_find?_eq_some found)).few
  rw [updateRow_rows rows hasId, own, found]
  exact insertAttempts_short (fun l mem => (rows l (List.mem_filter.1 mem).1).short) (row.line isId).short 2

/-- The row of one id anew leaves the rows of another one. -/
theorem rowsOf_update_other {id : List Byte} (isId : IsId id) {x : InverterInfo} (hasId : Record.HasId x.toInverter)
    (other : cstr x.id ≠ id) {update : PowerRow → PowerRow} (few : ∀ row, row.Few → (update row).Few) :
    rowsOf id (updateRow lines.flatten x.id update) = rowsOf id lines.flatten := by
  rw [updateRow_rows rows hasId]
  cases found : lines.find? fun line => cstr x.id <+: line with
  | none => rfl
  | some line =>
    have row := few _ (rows line (List.mem_of_find?_eq_some found)).few
    have kept : Lines.MadeOf ShortLine (lines.filter fun line => ¬ cstr x.id <+: line).flatten :=
      ⟨_, rfl, fun l mem => (rows l (List.mem_filter.1 mem).1).short⟩
    have inserted := rowsOf_insert_other kept (row.other isId hasId (cstr_noNul x.id) other)
      (cstr_of_clean (PowerRow.noNul (cstr_noNul x.id) _)) 3
    exact inserted.2.trans (rowsOf_filter_other isId hasId other (rows_short rows))

end Update

theorem readRow_text {id : List Byte} (plain : Plain id) (row : PowerRow) : readRow (row.text id) = row := by
  have value (v : Int) : atoi (Decimal.intText v) = v := by
    have read := atoi_intText v stops_nil
    rwa [List.append_nil] at read
  rw [readRow, PowerRow.split plain]
  simp only [List.getD_cons_succ, List.getD_cons_zero, value]

/-! ## A turn -/

theorem firstResult_lt {replies : Nat → Reply} {b : Nat} (answered : firstResult replies = some b) : b < 256 := by
  obtain ⟨reply, -, taken⟩ := List.exists_of_findSome?_eq_some answered
  unfold Reply.protect at taken
  dsimp only at taken
  split_ifs at taken
  all_goals
    rw [← Option.some_inj.1 taken]
    exact UInt8.toNat_lt _

theorem limitedResult_few (x : InverterInfo) {b : Nat} (byte : b < 256) :
    (Decimal.intText (limitedResult x b)).length ≤ 17 := by
  have small : (limitedResult x b).natAbs < 10 ^ 4 := by
    unfold limitedResult
    dsimp only
    split_ifs
    · omega
    · omega
  exact Nat.le_trans (intText_length (by decide) small) (by decide)

/-- What is left of the rows of an id, and what has been sent to its inverter, the first one with a model. -/
structure Served (replies : Nat → Reply) (limit : Int) (id : List Byte) (inverters : List InverterInfo)
    (before after : PowerRow) (command : Option LimitCommand) : Prop where
  few : after.Few
  inverter : command.map LimitCommand.inverter = inverters.find? fun x => cstr x.id = id ∧ x.model ≠ 0
  column : after.limitedpower = before.limitedpower ∨
    ∃ c ∈ command, ∃ b ∈ firstResult replies, after.limitedpower = limitedResult c.inverter b
  sent : ∀ c ∈ command, c.limitedpower = limit ∧ c.limitedvalue = limitedValue c.inverter limit

section Replaced

variable {id : List Byte} (isId : IsId id) {lines : List (List Byte)} (rows : ∀ line ∈ lines, PowerLine line)
    {row : PowerRow}

include isId rows in
theorem rows_replaced (few : row.Few) :
    ∀ line ∈ (lines.filter fun line => ¬ id <+: line) ++ [row.text id], PowerLine line := by
  intro line mem
  rcases List.mem_append.1 mem with mem | mem
  · exact rows line (List.mem_filter.1 mem).1
  · rw [List.mem_singleton.1 mem]
    exact few.line isId

theorem find_replaced (id : List Byte) (lines : List (List Byte)) (row : PowerRow) :
    (((lines.filter fun line => ¬ id <+: line) ++ [row.text id]).find? fun line => id <+: line) =
      some (row.text id) := by
  have none : ((lines.filter fun line => ¬ id <+: line).find? fun line => id <+: line) = none := by
    rw [List.find?_eq_none]
    intro line mem
    simpa using (List.mem_filter.1 mem).2
  rw [List.find?_append, none, Option.none_or, List.find?_cons_of_pos (by simpa using row.starts id)]

theorem filter_replaced (id : List Byte) (lines : List (List Byte)) (row : PowerRow) :
    (((lines.filter fun line => ¬ id <+: line) ++ [row.text id]).filter fun line => ¬ id <+: line) =
      lines.filter fun line => ¬ id <+: line := by
  rw [List.filter_append, List.filter_filter, List.filter_cons_of_neg (by simpa using row.starts id), List.filter_nil,
    List.append_nil]
  simp only [Bool.and_self]

end Replaced

section Serve

variable {replies : Nat → Reply} {field : List Byte} {limit : Int}

theorem serveMaxPower_none {inverters : List InverterInfo} (file : List Byte)
    (none : ∀ x ∈ inverters, ¬ sameChars field x.id 12) :
    serveMaxPower replies field limit inverters file = (.none, file) := by
  induction inverters with
  | nil => rfl
  | cons x inverters ih =>
    rw [serveMaxPower, if_neg (none x List.mem_cons_self)]
    exact ih fun y mem => none y (List.mem_cons_of_mem x mem)

/-- The inverters of the id, which has rows in the table: they make place for one whose flag is not set. -/
theorem serveMaxPower_some (replies : Nat → Reply) (limit : Int) {id : List Byte} (isId : IsId id)
    {inverters : List InverterInfo}
    (same : ∀ x ∈ inverters, sameChars field x.id 12 ↔ cstr x.id = id) {lines : List (List Byte)}
    (rows : ∀ line ∈ lines, PowerLine line) {line : List Byte}
      (found : (lines.find? fun line => id <+: line) = some line)
    (known : ∃ x ∈ inverters, cstr x.id = id) :
    ∃ (command : Option LimitCommand) (row : PowerRow), serveMaxPower replies field limit inverters lines.flatten =
        (command, ((lines.filter fun line => ¬ id <+: line) ++ [row.text id]).flatten) ∧
      Served replies limit id inverters (readRow line) row command := by
  induction inverters generalizing lines line with
  | nil =>
    obtain ⟨x, mem, -⟩ := known
    exact absurd mem List.not_mem_nil
  | cons x inverters ih =>
    have later := fun y mem => same y (List.mem_cons_of_mem x mem)
    rw [serveMaxPower]
    by_cases own : cstr x.id = id
    · have flagRow : updatemaxflag lines.flatten x =
          ((lines.filter fun line => ¬ id <+: line) ++ [(readRow line).text id]).flatten :=
        updateRow_own rows isId own (fun _ few => few) found
      have few := (rows line (List.mem_of_find?_eq_some found)).few
      have next := rows_replaced isId rows few
      have again := find_replaced id lines (readRow line)
      rw [if_pos ((same x List.mem_cons_self).2 own), flagRow]
      dsimp only
      by_cases model : x.model = 0
      · have passed : ((x :: inverters).find? fun y => cstr y.id = id ∧ y.model ≠ 0) =
            inverters.find? fun y => cstr y.id = id ∧ y.model ≠ 0 :=
          List.find?_cons_of_neg (by simp [model])
        rw [if_pos model]
        by_cases more : ∃ y ∈ inverters, cstr y.id = id
        · obtain ⟨command, row, result, served⟩ := ih later next again more
          rw [filter_replaced] at result
          have column := served.column
          rw [readRow_text isId.plain] at column
          exact ⟨command, row, result, served.few, served.inverter.trans passed.symm, column, served.sent⟩
        · have none : (inverters.find? fun y => cstr y.id = id ∧ y.model ≠ 0) = .none := by
            rw [List.find?_eq_none]
            intro y mem both
            rw [decide_eq_true_eq] at both
            exact more ⟨y, mem, both.1⟩
          refine ⟨.none, readRow line, serveMaxPower_none _ ?_, few, (passed.trans none).symm, .inl rfl, ?_⟩
          · exact fun y mem matches_ => more ⟨y, mem, (later y mem).1 matches_⟩
          · exact fun c mem => absurd mem (Option.not_mem_none c)
      · have taken : ((x :: inverters).find? fun y => cstr y.id = id ∧ y.model ≠ 0) = some x :=
          List.find?_cons_of_pos (by simp [own, model])
        rw [if_neg model]
        cases answered : firstResult replies with
        | none =>
          refine ⟨_, readRow line, rfl, few, taken.symm, .inl rfl, ?_⟩
          rintro c mem
          obtain rfl := Option.some_inj.1 mem
          exact ⟨rfl, rfl⟩
        | some b =>
          have result := limitedResult_few x (firstResult_lt answered)
          have update : ∀ row : PowerRow, row.Few → { row with limitedpower := limitedResult x b }.Few :=
            fun row few => ⟨result, few.limitedresult, few.stationarypower, few.stationaryresult⟩
          have read := updateRow_own next isId own update again
          rw [filter_replaced, readRow_text isId.plain] at read
          dsimp only
          rw [updatemaxpower, read]
          refine ⟨_, _, rfl, ⟨result, few.limitedresult, few.stationarypower, few.stationaryresult⟩, taken.symm,
            .inr ?_, ?_⟩
          · exact ⟨_, rfl, b, answered, rfl⟩
          · rintro c mem
            obtain rfl := Option.some_inj.1 mem
            exact ⟨rfl, rfl⟩
    · have passed : ((x :: inverters).find? fun y => cstr y.id = id ∧ y.model ≠ 0) =
          inverters.find? fun y => cstr y.id = id ∧ y.model ≠ 0 :=
        List.find?_cons_of_neg (by simp [own])
      rw [if_neg (mt (same x List.mem_cons_self).1 own)]
      obtain ⟨y, mem, isOwn⟩ := known
      have inRest : y ∈ inverters := by
        rcases List.mem_cons.1 mem with rfl | mem
        · exact absurd isOwn own
        · exact mem
      obtain ⟨command, row, result, served⟩ := ih later rows found ⟨y, inRest, isOwn⟩
      exact ⟨command, row, result, served.few, served.inverter.trans passed.symm, served.column, served.sent⟩

end Serve

end Ecu.Command
