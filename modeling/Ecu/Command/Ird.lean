import Ecu.Command.OnOff

/-!
# The IRD options of single inverters (`set_ird.c`)

`/home/data/ird` has rows `id,result,set_value,set_flag`. A127 writes `id,,value,1`; `clear_ird_flag_single` and the
replies of the inverters leave `id,result,,0`. `set_ird_single` takes the first row whose flag is set, clears it, sends
the value and asks for the result, until no flag is set.
-/

namespace Ecu.Command

open Poll Protection Socket

/-! ## Replies -/

/-- What `zb_shortaddr_reply` gives. -/
structure Reply where
  res : Int
  readbuff : List Byte

/-- The option in a reply of `get_ird_single`, in one of the two frames that it takes. -/
def Reply.mode (reply : Reply) : Option Int :=
  let at_ := byteAt reply.readbuff
  if reply.res = 58 ∧ at_ 0 = 0xFB ∧ at_ 1 = 0xFB ∧ at_ 3 = 0xDA ∧ at_ 56 = 0xFE ∧ at_ 57 = 0xFE then
    some ((at_ 4 / 2 % 4 : Nat) : Int)
  else if reply.res = 33 ∧ at_ 0 = 0xFB ∧ at_ 1 = 0xFB ∧ at_ 3 = 0xDD ∧ at_ 31 = 0xFE ∧ at_ 32 = 0xFE then
    some (at_ 22 : Int)
  else none

/-! ## The table -/

/-- The row of a result. -/
def resultRow (id : List Byte) (result : Int) : List Byte :=
  csvRow [id, Decimal.intText result, [], str "0"]

/-- `resolve_ird`, `resolve_ird_DD`: they do the same whether the row is there or not. -/
def resolveIrd (file id : List Byte) (mode : Int) : List Byte :=
  insertAttempts (resultRow (cstr id) mode) 3 (deleteLineBytes file id 12)

/-- Up to three calls of `get_ird_single`, until a reply is taken. -/
def readBack (replies : Nat → Reply) (file id : List Byte) : List Byte :=
  match ([0, 1, 2].map replies).findSome? Reply.mode with
  | none => file
  | some mode => resolveIrd file id mode

/-- `get_ird_all`; the replies are those of the entries of the table. -/
def getIrdAll (replies : Nat → Nat → Reply) (inverters : List InverterInfo) (file : List Byte) : List Byte :=
  (registered inverters).zipIdx.foldl (fun file entry => readBack (replies entry.2) file entry.1.id) file

/-- `read_line` with the buffers of its caller: the buffer with the line. -/
def readLineBytes (compareData : List Byte) (len : Nat) : List Byte → List (List Byte) → Option (List Byte)
  | _, [] => none
  | linedata, line :: lines =>
    let linedata := memcpy linedata (line ++ [nul])
    if linedata.take len = compareData.take len then some linedata else readLineBytes compareData len linedata lines

/-- `clear_ird_flag_single`; `data` is its buffer. -/
def clearIrdFlagSingle (data file id : List Byte) : List Byte :=
  match readLineBytes id 12 data (Lines.readLines newline 100 file) with
  | none => file
  | some data => insertAttempts (resultRow (cstr id) (atoi ((splitString data).getD 1 []))) 3
    (deleteLineBytes file id 12)

/-- `get_ird_id_value`: the id and the value of the first row whose flag is set. -/
def getIrdIdValue (file : List Byte) : Option (List Byte × List Byte) :=
  ((Lines.readLines newline 200 file).find? fun data => flagSet 3 data).map fun data =>
    ((splitString data).getD 0 [], (splitString data).getD 2 [])

/-- The short address of an id, 0 where it is not in the table. -/
def addressOf (inverters : List InverterInfo) (id : List Byte) : Nat :=
  (((registered inverters).find? fun x => cstr x.id = cstr id).map InverterInfo.shortaddr).getD 0

/-! ## The loop -/

/-- The file, the buffers `id` and `value`, and the number of the turn. -/
structure IrdState where
  turn : Nat
  file : List Byte
  id : List Byte
  value : List Byte

/-- A turn of the loop in `set_ird_single`: the command with its address, if it is sent. -/
def setIrdSingle (stack : Nat → List Byte) (replies : Nat → Nat → Reply) (inverters : List InverterInfo)
    (s : IrdState) :
    Option (Option (Nat × Int) × IrdState) :=
  (getIrdIdValue s.file).map fun row =>
    let id := memcpy s.id (row.1 ++ [nul])
    let value := memcpy s.value (row.2 ++ [nul])
    let shortaddr := addressOf inverters id
    let file := clearIrdFlagSingle (stack s.turn) s.file id
    if shortaddr > 0 then
      (some (shortaddr, atoi value), ⟨s.turn + 1, readBack (replies s.turn) file id, id, value⟩)
    else (none, ⟨s.turn + 1, file, id, value⟩)

/-! ## The two files in `/tmp` -/

/-- `set_ird_all`: the value that is broadcast, and the files. -/
def setIrdAll (replies : Nat → Nat → Reply) (inverters : List InverterInfo) (files : IrdFiles) :
    Option Int × IrdFiles :=
  let buff := (Lines.readLines newline 255 files.setIrd).headD []
  if strlen buff > 0 then
    let files := { files with setIrd := [] }
    if (splitString buff).getD 0 [] = str "ALL" then
      (some (atoi ((splitString buff).getD 1 [])), { files with ird := getIrdAll replies inverters files.ird })
    else (none, files)
  else (none, files)

/-- `get_ird_from_inverters` -/
def getIrdFromInverters (replies : Nat → Nat → Reply) (inverters : List InverterInfo) (files : IrdFiles) : IrdFiles :=
  if (Lines.readLines newline 256 files.getIrd).headD [] = str "ALL" then
    { files with getIrd := [], ird := getIrdAll replies inverters files.ird }
  else files

/-! ## Lines of the table -/

/-- A result, whose id may be any field that fits. -/
def ResultLine (line : List Byte) : Prop :=
  ∃ (id : List Byte) (result : Int), line = resultRow id result ∧ Plain id ∧ id.length ≤ 24 ∧ result.natAbs < 10 ^ 24

/-- A line of the table. Those of a request are short, whatever the id holds. -/
structure IrdLine (line : List Byte) : Prop where
  short : ShortLine line
  kind : line.length ≤ 24 ∨ ResultLine line

section ResultRow

variable {id : List Byte} (plain : Plain id) (few : id.length ≤ 24) {result : Int}

theorem resultRow_plain (plain : Plain id) (result : Int) :
    ∀ field ∈ [id, Decimal.intText result, []] ++ [str "0"], Plain field := by
  intro field mem
  simp only [List.cons_append, List.nil_append, List.mem_cons, List.not_mem_nil, or_false] at mem
  rcases mem with rfl | rfl | rfl | rfl
  · exact plain
  · exact plain_intText result
  · exact plain_nil
  · exact plain_flag.1

theorem resultRow_split (plain : Plain id) (result : Int) :
    splitString (resultRow id result) = [id, Decimal.intText result, [], str "0" ++ [newline]] :=
  splitString_csvRow [id, Decimal.intText result, []] (str "0") (resultRow_plain plain result)

theorem resultRow_notSet (plain : Plain id) (result : Int) : ¬ flagSet 3 (resultRow id result) := by
  have zero : ¬ atoi (str "0" ++ [newline]) = 1 := by
    rw [str_ofList]
    decide
  rw [flagSet, resultRow_split plain]
  exact zero

theorem resultRow_line (plain : Plain id) (few : id.length ≤ 24) (small : result.natAbs < 10 ^ 24) :
    IrdLine (resultRow id result) := by
  have number := intText_length (w := 24) (by decide) small
  have flag := flag_length.1
  have length : (resultRow id result).length < 100 := by
    rw [resultRow, csvRow_length (List.cons_ne_nil _ _)]
    simp only [List.map_cons, List.map_nil, List.sum_cons, List.sum_nil, List.length_nil, flag]
    omega
  have line := csvRow_isLine (resultRow_plain plain result) (Nat.lt_trans length (by decide))
  refine ⟨⟨⟨line.shape, length⟩, ?_⟩, .inr ⟨id, result, rfl, plain, few, small⟩⟩
  exact csvRow_noNul fun field mem b inField => (resultRow_plain plain result field mem b inField).1

theorem resultRow_starts (id : List Byte) (result : Int) : id <+: resultRow id result := by
  rw [resultRow, csvRow_cons]
  exact List.prefix_append id _

end ResultRow

/-- The number in the second field is not too long to be printed again. -/
theorem IrdLine.number {line : List Byte} (row : IrdLine line) :
    (atoi ((splitString line).getD 1 [])).natAbs < 10 ^ 24 := by
  rcases row.kind with few | ⟨id, result, rfl, plain, -, small⟩
  · have part := (splitString_part line 1).length_le
    rw [row.short.cstr] at part
    have high := atoi_lt _ (Nat.le_trans part few)
    have low := neg_lt_atoi _ (Nat.le_trans part few)
    omega
  · have value := atoi_intText result stops_nil
    rw [List.append_nil] at value
    rw [resultRow_split plain, List.getD_cons_succ, List.getD_cons_zero, value]
    exact small

/-- A flagged line is a request: its id is a plain field. -/
theorem IrdLine.flagged {line : List Byte} (row : IrdLine line) (set : flagSet 3 line) :
    ∃ rest, line = (splitString line).getD 0 [] ++ comma :: rest ∧ Plain ((splitString line).getD 0 []) ∧
      ((splitString line).getD 0 []).length ≤ 24 := by
  have few : line.length ≤ 24 := by
    rcases row.kind with few | ⟨id, result, rfl, plain, -, -⟩
    · exact few
    · exact absurd set (resultRow_notSet plain result)
  rcases splitString_head row.short.clean with ⟨-, none⟩ | ⟨rest, same, whole⟩
  · have single : splitString line = [line] := by
      rw [splitString, row.short.cstr, List.splitOn_eq_singleton none]
    exact absurd (by rw [single]; rfl) (flagSet_some set)
  · have part := (splitString_part line 0).length_le
    rw [row.short.cstr] at part
    refine ⟨rest, same, fun b mem => ⟨?_, ?_, ?_⟩, Nat.le_trans part few⟩
    · exact row.short.clean b (same ▸ List.mem_append_left _ mem)
    · rintro rfl
      exact row.short.field_open same mem
    · rintro rfl
      exact whole mem

/-! ## Replacing the row of an id -/

theorem readLineBytes_eq {compareData key : List Byte} (full : ∀ b ∈ key, b ≠ nul)
    (same : compareData.take key.length = key) (data : List Byte) {lines : List (List Byte)}
    (short : ∀ line ∈ lines, ShortLine line) :
    (readLineBytes compareData key.length data lines).map cstr = lines.find? fun line => key <+: line := by
  induction lines generalizing data with
  | nil => rfl
  | cons line lines ih =>
    rw [readLineBytes]
    rw [same]
    by_cases part : key <+: line
    · rw [if_pos ((take_memcpy full).2 part), List.find?_cons_of_pos (by simpa using part), Option.map_some,
        cstr_memcpy data (short line List.mem_cons_self).clean]
    · rw [if_neg (mt (take_memcpy full).1 part), List.find?_cons_of_neg (by simpa using part)]
      exact ih _ fun l mem => short l (List.mem_cons_of_mem line mem)

theorem readLineBytes_none {compareData : List Byte} {len : Nat} {lines : List (List Byte)}
    (none : ∀ line ∈ lines, ∀ data, (memcpy data (line ++ [nul])).take len ≠ compareData.take len) (data : List Byte) :
    readLineBytes compareData len data lines = .none := by
  induction lines generalizing data with
  | nil => rfl
  | cons line lines ih =>
    rw [readLineBytes]
    rw [if_neg (none line List.mem_cons_self data)]
    exact ih (fun l mem => none l (List.mem_cons_of_mem line mem)) _

/-- The text of an id begins its buffer. -/
theorem take_of_cstr {buffer id : List Byte} (text : cstr buffer = id) :
    buffer.take (id.take 12).length = id.take 12 := by
  have part : cstr buffer <+: buffer := List.takeWhile_prefix _
  rw [text] at part
  rw [eq_comm, ← List.prefix_iff_eq_take]
  exact (List.take_prefix 12 id).trans part

section Replace

variable {lines : List (List Byte)} (rows : ∀ line ∈ lines, IrdLine line)

include rows

theorem readLines_ird {size : Nat} (more : 100 ≤ size) : Lines.readLines newline size lines.flatten = lines :=
  readLines_short (fun line mem => (rows line mem).short) more

/-- The rows of an id make place for its result. -/
theorem resolveIrd_rows {buffer id : List Byte} (plain : Plain id) (long : 12 ≤ id.length) (few : id.length ≤ 24)
    (text : cstr buffer = id) {result : Int} (small : result.natAbs < 10 ^ 24) :
    resolveIrd lines.flatten buffer result =
      ((lines.filter fun line => ¬ id.take 12 <+: line) ++ [resultRow id result]).flatten := by
  have full : ∀ b ∈ id.take 12, b ≠ nul := fun b mem => (plain b (List.mem_of_mem_take mem)).1
  have length : (id.take 12).length = 12 := List.length_take_of_le long
  have deleted := deleteLineBytes_eq lines.flatten full (take_of_cstr text)
  rw [length] at deleted
  rw [resolveIrd, text, deleted, deleteLine_short fun line mem => (rows line mem).short]
  exact insertAttempts_short (fun line mem => (rows line (List.mem_filter.1 mem).1).short)
    (resultRow_line plain few small).short 2

/-- What is left of the rows of an id, and its result. -/
theorem ird_replaced {id : List Byte} (plain : Plain id) (few : id.length ≤ 24) {result : Int}
    (small : result.natAbs < 10 ^ 24) :
    ∀ line ∈ (lines.filter fun line => ¬ id.take 12 <+: line) ++ [resultRow id result], IrdLine line := by
  intro line mem
  rcases List.mem_append.1 mem with mem | mem
  · exact rows line (List.mem_filter.1 mem).1
  · rw [List.mem_singleton.1 mem]
    exact resultRow_line plain few small

/-- A result takes the place of the one before it. -/
theorem resolveIrd_again {buffer id : List Byte} (plain : Plain id) (long : 12 ≤ id.length) (few : id.length ≤ 24)
    (text : cstr buffer = id) {first : Int} (firstSmall : first.natAbs < 10 ^ 24) {result : Int}
    (small : result.natAbs < 10 ^ 24) :
    resolveIrd ((lines.filter fun line => ¬ id.take 12 <+: line) ++ [resultRow id first]).flatten buffer result =
      ((lines.filter fun line => ¬ id.take 12 <+: line) ++ [resultRow id result]).flatten := by
  have own : id.take 12 <+: resultRow id first := (List.take_prefix 12 id).trans (resultRow_starts id first)
  rw [resolveIrd_rows (ird_replaced rows plain few firstSmall) plain long few text small, List.filter_append,
    List.filter_filter, List.filter_cons_of_neg (by simpa using own), List.filter_nil, List.append_nil]
  simp only [Bool.and_self]

/-- `clear_ird_flag_single` finds a row of the id, and keeps its result. -/
theorem clearIrdFlagSingle_rows {buffer id : List Byte} (plain : Plain id) (long : 12 ≤ id.length)
    (few : id.length ≤ 24)
    (text : cstr buffer = id) {line : List Byte} (mem : line ∈ lines) (own : id.take 12 <+: line) (data : List Byte) :
    ∃ result : Int, result.natAbs < 10 ^ 24 ∧ clearIrdFlagSingle data lines.flatten buffer =
      ((lines.filter fun line => ¬ id.take 12 <+: line) ++ [resultRow id result]).flatten := by
  have full : ∀ b ∈ id.take 12, b ≠ nul := fun b mem => (plain b (List.mem_of_mem_take mem)).1
  have length : (id.take 12).length = 12 := List.length_take_of_le long
  have read := readLineBytes_eq full (take_of_cstr text) data fun line mem => (rows line mem).short
  rw [length] at read
  have found : (lines.find? fun line => id.take 12 <+: line) ≠ none := by
    intro none
    exact List.find?_eq_none.1 none line mem (decide_eq_true own)
  obtain ⟨other, found⟩ := Option.ne_none_iff_exists'.1 found
  have row := rows other (List.mem_of_find?_eq_some found)
  rw [found] at read
  obtain ⟨linedata, isRead, holds⟩ := Option.map_eq_some_iff.1 read
  have split : splitString linedata = splitString other := by
    rw [splitString, holds, splitString, row.short.cstr]
  refine ⟨atoi ((splitString other).getD 1 []), row.number, ?_⟩
  rw [clearIrdFlagSingle, readLines_ird rows (Nat.le_refl 100), isRead]
  dsimp only
  rw [split]
  exact resolveIrd_rows rows plain long few text row.number

end Replace

theorem Reply.mode_byte {reply : Reply} {mode : Int} (taken : reply.mode = some mode) : mode.natAbs < 10 ^ 3 := by
  unfold Reply.mode at taken
  dsimp only at taken
  split_ifs at taken
  · rw [← Option.some_inj.1 taken, Int.natAbs_natCast]
    omega
  · have byte := UInt8.toNat_lt (reply.readbuff.getD 22 nul)
    rw [← Option.some_inj.1 taken, Int.natAbs_natCast, byteAt]
    omega

theorem Reply.mode_small {reply : Reply} {mode : Int} (taken : reply.mode = some mode) : mode.natAbs < 10 ^ 24 :=
  Nat.lt_trans (Reply.mode_byte taken) (by decide)

/-! ## A turn -/

section Turn

variable {lines : List (List Byte)} (rows : ∀ line ∈ lines, IrdLine line) (stack : Nat → List Byte)
  (replies : Nat → Nat → Reply) (inverters : List InverterInfo)

include rows

theorem getIrdIdValue_rows : getIrdIdValue lines.flatten = (lines.find? fun data => flagSet 3 data).map fun data =>
    ((splitString data).getD 0 [], (splitString data).getD 2 []) := by
  rw [getIrdIdValue, readLines_ird rows (by decide)]

/-- The id of a request, if it is not cut: its rows are replaced by a result. -/
theorem ird_turn {line : List Byte} (first : (lines.find? fun data => flagSet 3 data) = some line)
    (long : 12 ≤ ((splitString line).getD 0 []).length) {s : IrdState} (file : s.file = lines.flatten) :
    ∃ sent next, setIrdSingle stack replies inverters s = some (sent, next) ∧ ∃ result : Int, result.natAbs < 10 ^ 24 ∧
      next.file = ((lines.filter fun l => ¬ ((splitString line).getD 0 []).take 12 <+: l) ++
        [resultRow ((splitString line).getD 0 []) result]).flatten := by
  have inLines := List.mem_of_find?_eq_some first
  have set : flagSet 3 line := by simpa using List.find?_some first
  obtain ⟨rest, same, plain, few⟩ := (rows line inLines).flagged set
  obtain ⟨id, isId⟩ : ∃ id, (splitString line).getD 0 [] = id := ⟨_, rfl⟩
  rw [isId] at same plain few long ⊢
  have text : cstr (memcpy s.id (id ++ [nul])) = id := cstr_memcpy s.id fun b mem => (plain b mem).1
  have own : id.take 12 <+: line := (List.take_prefix 12 id).trans (same ▸ List.prefix_append id _)
  obtain ⟨result, small, cleared⟩ := clearIrdFlagSingle_rows rows plain long few text inLines own (stack s.turn)
  rw [setIrdSingle, file, getIrdIdValue_rows rows, first, Option.map_some, Option.map_some, isId]
  dsimp only
  rw [cleared]
  by_cases address : addressOf inverters (memcpy s.id (id ++ [nul])) > 0
  · rw [if_pos address]
    refine ⟨_, _, rfl, ?_⟩
    dsimp only
    rw [readBack]
    cases answered : ([0, 1, 2].map (replies s.turn)).findSome? Reply.mode with
    | none => exact ⟨result, small, rfl⟩
    | some mode =>
      obtain ⟨reply, -, taken⟩ := List.exists_of_findSome?_eq_some answered
      exact ⟨mode, Reply.mode_small taken, resolveIrd_again rows plain long few text small (Reply.mode_small taken)⟩
  · rw [if_neg address]
    exact ⟨_, _, rfl, result, small, rfl⟩

/-- A cut id matches nothing, and no inverter has it. -/
theorem ird_turn_cut {line : List Byte} (first : (lines.find? fun data => flagSet 3 data) = some line)
    (cut : ((splitString line).getD 0 []).length < 12) {s : IrdState} (file : s.file = lines.flatten) :
    ∃ next, setIrdSingle stack replies inverters s = some (none, next) ∧ next.file = lines.flatten := by
  have inLines := List.mem_of_find?_eq_some first
  have set : flagSet 3 line := by simpa using List.find?_some first
  obtain ⟨rest, same, plain, -⟩ := (rows line inLines).flagged set
  obtain ⟨id, isId⟩ : ∃ id, (splitString line).getD 0 [] = id := ⟨_, rfl⟩
  rw [isId] at same plain cut
  have text : cstr (memcpy s.id (id ++ [nul])) = id := cstr_memcpy s.id fun b mem => (plain b mem).1
  have ends : id ++ [nul] <+: memcpy s.id (id ++ [nul]) := List.prefix_append _ _
  have nothing : readLineBytes (memcpy s.id (id ++ [nul])) 12 (stack s.turn) lines = none := by
    apply readLineBytes_none
    intro other mem data
    exact no_match (rows other mem).short ends cut fun inside => (plain newline inside).2.1 rfl
  have unknown : addressOf inverters (memcpy s.id (id ++ [nul])) = 0 := by
    rw [addressOf, text, List.find?_eq_none.2, Option.map_none, Option.getD_none]
    intro x mem found
    have own : cstr x.id = id := of_decide_eq_true found
    have twelve : (cstr x.id).length = 12 := registered_hasId x mem
    rw [own] at twelve
    omega
  rw [setIrdSingle, file, getIrdIdValue_rows rows, first, Option.map_some, Option.map_some, isId]
  dsimp only
  rw [clearIrdFlagSingle, readLines_ird rows (Nat.le_refl 100), nothing, unknown]
  exact ⟨_, rfl, rfl⟩

end Turn

end Ecu.Command
