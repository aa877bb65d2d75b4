import Ecu.Command.Ends
import Ecu.Lib.Requests

/-!
# IRD requests until they are sent

A127 stores a request in `/home/data/ird`, `set_ird_single` clears it and sends it. What is read back for the
inverter goes into the same row, with the flag 0: a request that is read back before it is sent is lost.
-/

namespace Ecu.Command

open Poll Protection Requests Socket

/-! ## The steps -/

/-- The files, and the buffers of `set_ird_single` with the number of its turn. -/
structure IrdSystem where
  files : IrdFiles
  turn : Nat
  id : List Byte
  value : List Byte

/-- The loop of `set_ird_single` begins with `start`. -/
inductive IrdOp where
  | setInverterIrd (recvbuffer : List Byte)
  | readInverterIrd
  | setIrdAll (replies : Nat → Nat → Reply) (inverters : List InverterInfo)
  | getIrdFromInverters (replies : Nat → Nat → Reply) (inverters : List InverterInfo)
  | start
  | setIrdSingle (stack : Nat → List Byte) (replies : Nat → Nat → Reply) (inverters : List InverterInfo)

abbrev IrdEvent := Event (List Byte) Int

/-- The requests of an A127, in the order of its items. -/
def requestsOf (recvbuffer : List Byte) : List IrdEvent :=
  let num := msgGetInt (recvbuffer.drop 31) 4
  if msgGetInt (recvbuffer.drop 30) 1 = 1 ∧ msgNumCheckEnd (recvbuffer.drop 52) num 13 then
    (List.range num.toNat).map fun i =>
      .post (inverterId (recvbuffer.drop 52) 16 i) (msgGetInt ((recvbuffer.drop 52).drop (i * 16 + 12)) 1)
  else []

def IrdSystem.loop (s : IrdSystem) : IrdState :=
  ⟨s.turn, s.files.ird, s.id, s.value⟩

/-- What `send_ird_command_single` is called with, if it is called. -/
def sentEvents (id : List Byte) : Option (Nat × Int) → List IrdEvent
  | none => []
  | some (_, value) => [.serve (cstr id) value]

def IrdOp.apply (s : IrdSystem) : IrdOp → List IrdEvent × IrdSystem
  | setInverterIrd recvbuffer => (requestsOf recvbuffer, { s with files := Command.setInverterIrd recvbuffer s.files })
  | readInverterIrd => ([], { s with files := Command.readInverterIrd s.files })
  | setIrdAll replies inverters => ([], { s with files := (Command.setIrdAll replies inverters s.files).2 })
  | getIrdFromInverters replies inverters =>
    ([], { s with files := Command.getIrdFromInverters replies inverters s.files })
  | start => ([], { s with id := List.replicate 16 nul, value := List.replicate 16 nul })
  | setIrdSingle stack replies inverters =>
    match Command.setIrdSingle stack replies inverters s.loop with
    | none => ([], s)
    | some (sent, next) =>
      (sentEvents next.id sent, ⟨{ s.files with ird := next.file }, next.turn, next.id, next.value⟩)

/-- A table that may be there at first; what is in it has been asked for before. -/
def IrdSystem.Start (s : IrdSystem) : Prop :=
  IrdWritten s.files.ird

def IrdStep (s : IrdSystem) (_ : Outstanding (List Byte) Int) (events : List IrdEvent) (s' : IrdSystem) : Prop :=
  ∃ op : IrdOp, op.apply s = (events, s')

/-- The request is there: the one row of the id has the value, and its flag is set. -/
def Waits (file id : List Byte) (value : Int) : Prop :=
  ∃ data, rowsOf id file = [data] ∧ atoi ((splitString data).getD 2 []) = value ∧ flagSet 3 data

/-! ## When nothing is lost -/

/-- A reply of the inverter is taken when all are read. -/
def Answers (replies : Nat → Nat → Reply) (inverters : List InverterInfo) (id : List Byte) : Prop :=
  ∃ entry ∈ (registered inverters).zipIdx, cstr entry.1.id = id ∧ ∃ j < 3, (replies entry.2 j).mode ≠ none

/-- The inverters are not read while they have a request, and the inverter of the row that is taken is registered. -/
def IrdOp.Keeps (s : IrdSystem) (out : Outstanding (List Byte) Int) : IrdOp → Prop
  | setIrdAll replies inverters =>
    (splitString ((Lines.readLines newline 255 s.files.setIrd).headD [])).getD 0 [] = str "ALL" →
      ∀ id, IsId id → out id ≠ none → ¬ Answers replies inverters id
  | getIrdFromInverters replies inverters =>
    (Lines.readLines newline 256 s.files.getIrd).headD [] = str "ALL" →
      ∀ id, IsId id → out id ≠ none → ¬ Answers replies inverters id
  | setIrdSingle _ _ inverters =>
    ∀ row ∈ getIrdIdValue s.files.ird, IsId row.1 → out row.1 ≠ none → 0 < addressOf inverters row.1
  | _ => True

def KeepingStep (s : IrdSystem) (out : Outstanding (List Byte) Int) (events : List IrdEvent) (s' : IrdSystem) : Prop :=
  ∃ op : IrdOp, op.Keeps s out ∧ op.apply s = (events, s')

/-! ## Rows of requests -/

theorem irdRow_plain {id : List Byte} (plain : Plain id) (v : Int) :
    ∀ field ∈ [id, [], Decimal.intText v] ++ [str "1"], Plain field := by
  intro field mem
  simp only [List.cons_append, List.nil_append, List.mem_cons, List.not_mem_nil, or_false] at mem
  rcases mem with rfl | rfl | rfl | rfl
  · exact plain
  · exact plain_nil
  · exact plain_intText v
  · exact plain_flag.2

theorem irdRow_length {id : List Byte} (few : id.length ≤ 12) {v : Int} (small : v.natAbs < 10 ^ 1) :
    (irdRow id v).length ≤ 24 := by
  have number := intText_length (w := 1) (by decide) small
  have flag := flag_length.2
  rw [irdRow, csvRow_length (List.cons_ne_nil _ _)]
  simp only [List.map_cons, List.map_nil, List.sum_cons, List.sum_nil, List.length_nil, flag]
  omega

theorem irdRow_noNul {id : List Byte} (clean : ∀ b ∈ id, b ≠ nul) (v : Int) : ∀ b ∈ irdRow id v, b ≠ nul := by
  apply csvRow_noNul
  intro field mem b inField
  simp only [List.mem_cons, List.not_mem_nil, or_false] at mem
  rcases mem with rfl | rfl | rfl | rfl
  · exact clean b inField
  · exact absurd inField List.not_mem_nil
  · exact (plain_intText _ b inField).1
  · exact (plain_flag.2 b inField).1

theorem irdRow_short {id : List Byte} (isId : IsId id) {v : Int} (small : v.natAbs < 10 ^ 1) :
    ShortLine (irdRow id v) := by
  have length := irdRow_length (Nat.le_of_eq isId.twelve) small
  have line := csvRow_isLine (irdRow_plain isId.plain v) (Nat.lt_of_le_of_lt length (by decide))
  exact ⟨⟨line.shape, Nat.lt_of_le_of_lt length (by decide)⟩, irdRow_noNul isId.noNul v⟩

theorem irdRow_starts (id : List Byte) (v : Int) : id <+: irdRow id v := by
  rw [irdRow, csvRow_cons]
  exact List.prefix_append id _

theorem irdRow_split {id : List Byte} (plain : Plain id) (v : Int) :
    splitString (irdRow id v) = [id, [], Decimal.intText v, str "1" ++ [newline]] :=
  splitString_csvRow [id, [], Decimal.intText v] (str "1") (irdRow_plain plain v)

/-- The row of a request says that it waits. -/
theorem waits_row {file id : List Byte} (plain : Plain id) {v : Int} (rows : rowsOf id file = [irdRow id v]) :
    Waits file id v := by
  refine ⟨irdRow id v, rows, ?_, ?_⟩
  · have value := atoi_intText v stops_nil
    rw [List.append_nil] at value
    rw [irdRow_split plain]
    exact value
  · rw [flagSet, irdRow_split plain]
    exact atoi_one (stops_newline [])

/-! ## What a step leaves of a request -/

theorem fieldBytes_take {field : List Byte} (few : field.length ≤ 12) {id : List Byte} (isId : IsId id) :
    (fieldBytes 12 field).take 12 = id ↔ field = id := by
  rw [fieldBytes, List.take_take, Nat.min_self]
  rcases Nat.lt_or_ge field.length 12 with less | long
  · constructor
    · intro same
      rw [List.take_append, List.take_of_length_le few, List.take_replicate] at same
      have padded : nul ∈ id := by
        rw [← same, show min (12 - field.length) 12 = (11 - field.length) + 1 by omega, List.replicate_succ]
        exact List.mem_append_right _ List.mem_cons_self
      exact absurd rfl (isId.noNul nul padded)
    · rintro rfl
      have := isId.twelve
      omega
  · rw [List.take_append_of_le_length long, List.take_of_length_le few]

section Frame

variable {id : List Byte} (isId : IsId id) {file : List Byte} (made : Lines.MadeOf ShortLine file)

include isId made

/-- An item of A127 puts its row in the place of those of its id, and leaves the others. -/
theorem rowsOf_setItem {wid : List Byte} (few : wid.length ≤ 12) (clean : ∀ b ∈ wid, b ≠ nul) {v : Int}
    (small : v.natAbs < 10 ^ 1) :
    Lines.MadeOf ShortLine (insertLine (deleteLineBytes file (fieldBytes 12 wid) 12) (irdRow wid v)).1 ∧
      rowsOf id (insertLine (deleteLineBytes file (fieldBytes 12 wid) 12) (irdRow wid v)).1 =
        if wid = id then [irdRow id v] else rowsOf id file := by
  have length := irdRow_length few small
  have deleted := rowsOf_delete (fieldBytes 12 wid) isId made
  simp only [fieldBytes_take few isId] at deleted
  rw [insertLine, cstr_of_clean (irdRow_noNul clean v)]
  dsimp only
  by_cases same : wid = id
  · subst same
    have short := irdRow_short isId small
    have row : Lines.MadeOf ShortLine (irdRow wid v) := Lines.MadeOf.single short
    rw [if_pos rfl] at deleted
    refine ⟨deleted.1.append row, ?_⟩
    rw [rowsOf_append wid deleted.1 row, deleted.2, rowsOf_own short (irdRow_starts wid v), if_pos rfl]
    rfl
  · have plain : ∀ field ∈ [[], Decimal.intText v, str "1"], Plain field := by
      intro field mem
      simp only [List.mem_cons, List.not_mem_nil, or_false] at mem
      rcases mem with rfl | rfl | rfl
      · exact plain_nil
      · exact plain_intText v
      · exact plain_flag.2
    have other := other_row isId plain wid.length (Nat.le_refl _) clean few same (Nat.lt_of_le_of_lt length (by decide))
    have row := other.mono fun _ both => both.1
    rw [if_neg same] at deleted
    refine ⟨deleted.1.append row, ?_⟩
    rw [irdRow, rowsOf_append id deleted.1 row, deleted.2, rowsOf_made_other other, List.append_nil, if_neg same]

/-- The result of another inverter. -/
theorem rowsOf_resolve_other {buffer : List Byte} (twelve : (cstr buffer).length = 12) (other : cstr buffer ≠ id)
    {mode : Int}
    (small : mode.natAbs < 10 ^ 3) :
    Lines.MadeOf ShortLine (resolveIrd file buffer mode) ∧ rowsOf id (resolveIrd file buffer mode) =
      rowsOf id file := by
  have key : buffer.take 12 = cstr buffer := by
    have taken := take_of_cstr (Eq.refl (cstr buffer))
    rwa [List.length_take_of_le (Nat.le_of_eq twelve.symm), List.take_of_length_le (Nat.le_of_eq twelve)] at taken
  have plain : ∀ field ∈ [Decimal.intText mode, [], str "0"], Plain field := by
    intro field mem
    simp only [List.mem_cons, List.not_mem_nil, or_false] at mem
    rcases mem with rfl | rfl | rfl
    · exact plain_intText mode
    · exact plain_nil
    · exact plain_flag.1
  have number := intText_length (w := 3) (by decide) small
  have flag := flag_length.1
  have few : (resultRow (cstr buffer) mode).length < 100 := by
    rw [resultRow, csvRow_length (List.cons_ne_nil _ _)]
    simp only [List.map_cons, List.map_nil, List.sum_cons, List.sum_nil, List.length_nil, flag, twelve]
    omega
  have row := other_row isId plain 12 (Nat.le_of_eq twelve) (cstr_noNul buffer) (Nat.le_of_eq twelve) other few
  have clean : cstr (resultRow (cstr buffer) mode) = resultRow (cstr buffer) mode := by
    apply cstr_of_clean
    apply csvRow_noNul
    intro field mem b inField
    rcases List.mem_cons.1 mem with rfl | mem
    · exact cstr_noNul buffer b inField
    · exact (plain field mem b inField).1
  exact rowsOf_replace_other isId made (key ▸ other) row clean 3

end Frame

/-- The items of an A127, one after the other. -/
theorem requests_stored {id : List Byte} (isId : IsId id) {file : List Byte} (made : Lines.MadeOf ShortLine file)
    {out : Outstanding (List Byte) Int} (kept : ∀ v, out id = some v → rowsOf id file = [irdRow id v]) (msg : List Byte)
    (num : Nat) :
    Lines.MadeOf ShortLine (setIrdNum file msg num) ∧
      ∀ v, after out ((List.range num).map fun i =>
          .post (inverterId msg 16 i) (msgGetInt (msg.drop (i * 16 + 12)) 1)) id = some v →
        rowsOf id (setIrdNum file msg num) = [irdRow id v] := by
  induction num with
  | zero => exact ⟨made, kept⟩
  | succ num ih =>
    have small := msgGetInt_natAbs (msg.drop (num * 16 + 12)) Nat.one_pos
    have item := rowsOf_setItem isId ih.1 (inverterId_length msg 16 num) (cstr_noNul _) small
    have last : setIrdNum file msg (num + 1) =
        (insertLine (deleteLineBytes (setIrdNum file msg num) (fieldBytes 12 (inverterId msg 16 num)) 12)
          (irdRow (inverterId msg 16 num) (msgGetInt (msg.drop (num * 16 + 12)) 1))).1 := by
      rw [setIrdNum, List.range_succ, List.foldl_append]
      rfl
    rw [last, List.range_succ, List.map_append, after_append]
    refine ⟨item.1, fun v asked => ?_⟩
    rw [item.2]
    by_cases same : inverterId msg 16 num = id
    · have value : some (msgGetInt (msg.drop (num * 16 + 12)) 1) = some v := by
        rw [← asked, ← same]
        exact (apply_post_self _ _ _).symm
      rw [if_pos same, Option.some_inj.1 value]
    · rw [if_neg same]
      apply ih.2
      rw [← asked]
      exact (apply_post_of_ne _ _ (Ne.symm same)).symm

/-- Reading all inverters leaves the rows of those that do not answer. -/
theorem rowsOf_getIrdAll {id : List Byte} (isId : IsId id) {file : List Byte} (made : Lines.MadeOf ShortLine file)
    {replies : Nat → Nat → Reply} {inverters : List InverterInfo} (silent : ¬ Answers replies inverters id) :
    rowsOf id (getIrdAll replies inverters file) = rowsOf id file := by
  rw [getIrdAll]
  suffices both : Lines.MadeOf ShortLine ((registered inverters).zipIdx.foldl
      (fun file entry => readBack (replies entry.2) file entry.1.id) file) ∧
        rowsOf id ((registered inverters).zipIdx.foldl
      (fun file entry => readBack (replies entry.2) file entry.1.id) file) = rowsOf id file from both.2
  apply List.foldlRecOn (motive := fun next => Lines.MadeOf ShortLine next ∧ rowsOf id next = rowsOf id file) _ _
    ⟨made, rfl⟩
  intro next both entry mem
  rw [readBack]
  cases answered : ([0, 1, 2].map (replies entry.2)).findSome? Reply.mode with
  | none => exact both
  | some mode =>
    obtain ⟨reply, inReplies, taken⟩ := List.exists_of_findSome?_eq_some answered
    obtain ⟨j, inRange, rfl⟩ := List.mem_map.1 inReplies
    have hasId : Record.HasId entry.1.toInverter := registered_zipIdx mem
    have other : cstr entry.1.id ≠ id := by
      intro same
      have less : j < 3 := by
        simp only [List.mem_cons, List.not_mem_nil, or_false] at inRange
        omega
      exact silent ⟨entry, mem, same, j, less, by rw [taken]; exact Option.some_ne_none mode⟩
    have resolved := rowsOf_resolve_other isId both.1 hasId other (Reply.mode_byte taken)
    exact ⟨resolved.1, resolved.2.trans both.2⟩

/-- The id of a buffer, without what stands behind its end. -/
theorem addressOf_memcpy (inverters : List InverterInfo) (data : List Byte) {id : List Byte}
    (clean : ∀ b ∈ id, b ≠ nul) :
    addressOf inverters (memcpy data (id ++ [nul])) = addressOf inverters id := by
  rw [addressOf, addressOf, cstr_memcpy data clean, cstr_of_clean clean]

section Turn

variable {lines : List (List Byte)} (rows : ∀ line ∈ lines, IrdLine line) {stack : Nat → List Byte}
  {replies : Nat → Nat → Reply} {inverters : List InverterInfo}

include rows

/-- What a turn does to a request: it is there as before, or has been sent with its value. -/
theorem rowsOf_turn {id : List Byte} (isId : IsId id) {v : Int} (asked : rowsOf id lines.flatten = [irdRow id v])
    {s next : IrdState} (file : s.file = lines.flatten) {sent : Option (Nat × Int)}
    (step : setIrdSingle stack replies inverters s = some (sent, next))
    (known : ∀ row ∈ getIrdIdValue lines.flatten, row.1 = id → 0 < addressOf inverters row.1) :
    rowsOf id next.file = [irdRow id v] ∨ cstr next.id = id ∧ ∃ address, sent = some (address, v) := by
  cases first : lines.find? fun data => flagSet 3 data with
  | none =>
    rw [setIrdSingle, file, getIrdIdValue_rows rows, first] at step
    cases step
  | some line =>
    have inLines := List.mem_of_find?_eq_some first
    have set : flagSet 3 line := by simpa using List.find?_some first
    have shorts : ∀ line ∈ lines, ShortLine line := fun l mem => (rows l mem).short
    obtain ⟨rest, same, plain, few⟩ := (rows line inLines).flagged set
    have asLines := rowsOf_lines id shorts
    by_cases own : id <+: line
    · have isRow : line = irdRow id v := by
        have mem : line ∈ rowsOf id lines.flatten := by
          rw [asLines]
          exact List.mem_filter.2 ⟨inLines, decide_eq_true own⟩
        rw [asked] at mem
        exact List.mem_singleton.1 mem
      have field : (splitString line).getD 0 [] = id := by rw [isRow, irdRow_split isId.plain]; rfl
      have value : (splitString line).getD 2 [] = Decimal.intText v := by rw [isRow, irdRow_split isId.plain]; rfl
      have taken : getIrdIdValue lines.flatten = some (id, Decimal.intText v) := by
        rw [getIrdIdValue_rows rows, first, Option.map_some, field, value]
      have address := known (id, Decimal.intText v) taken rfl
      have buffer : atoi (memcpy s.value (Decimal.intText v ++ [nul])) = v := by
        rw [memcpy, List.append_assoc]
        apply atoi_intText v
        intro b mem
        obtain rfl := Option.some_inj.1 mem
        decide
      rw [setIrdSingle, file, taken, Option.map_some] at step
      dsimp only at step
      rw [addressOf_memcpy inverters s.id isId.noNul, if_pos address, buffer] at step
      obtain ⟨isSent, isNext⟩ := Prod.mk.inj (Option.some_inj.1 step)
      refine .inr ⟨?_, _, isSent.symm⟩
      rw [← isNext]
      exact cstr_memcpy s.id isId.noNul
    · refine .inl ?_
      by_cases long : 12 ≤ ((splitString line).getD 0 []).length
      · obtain ⟨sent', next', step', result, small, nextFile⟩ := ird_turn rows stack replies inverters first long file
        rw [step] at step'
        obtain ⟨-, rfl⟩ := Prod.mk.inj (Option.some_inj.1 step')
        obtain ⟨key, isKey⟩ : ∃ key, (splitString line).getD 0 [] = key := ⟨_, rfl⟩
        rw [isKey] at same plain few long nextFile
        have other : key.take 12 ≠ id := by
          rintro rfl
          exact own ((List.take_prefix 12 key).trans (same ▸ List.prefix_append key _))
        rw [nextFile, ← asked]
        exact rowsOf_replaced isId (List.length_take_of_le long) other shorts (resultRow_line plain few small).short
          ((List.take_prefix 12 key).trans (resultRow_starts key result))
      · obtain ⟨next', step', kept⟩ := ird_turn_cut rows stack replies inverters first (Nat.lt_of_not_le long) file
        rw [step] at step'
        obtain ⟨-, rfl⟩ := Prod.mk.inj (Option.some_inj.1 step')
        rw [kept]
        exact asked

end Turn

/-! ## Runs -/

/-- The table has its lines, and each request its row. -/
structure IrdInv (s : IrdSystem) (out : Outstanding (List Byte) Int) : Prop where
  made : Lines.MadeOf IrdLine s.files.ird
  kept : ∀ id, IsId id → ∀ v, out id = some v → rowsOf id s.files.ird = [irdRow id v]

theorem IrdInv.short {s : IrdSystem} {out : Outstanding (List Byte) Int} (inv : IrdInv s out) :
    Lines.MadeOf ShortLine s.files.ird :=
  inv.made.mono fun _ row => row.short

/-- All inverters are read while none of those that answer has a request. -/
theorem IrdInv.readAll {s : IrdSystem} {out : Outstanding (List Byte) Int} (inv : IrdInv s out)
    {replies : Nat → Nat → Reply}
    {inverters : List InverterInfo} (silent : ∀ id, IsId id → out id ≠ none → ¬ Answers replies inverters id)
    {files : IrdFiles} (file : files.ird = getIrdAll replies inverters s.files.ird) : IrdInv { s with files } out := by
  refine ⟨file ▸ getIrdAll_made replies inverters inv.made, fun id isId v asked => ?_⟩
  have noReply := silent id isId (by rw [asked]; exact Option.some_ne_none v)
  rw [file, rowsOf_getIrdAll isId inv.short noReply]
  exact inv.kept id isId v asked

theorem IrdInv.step {s s' : IrdSystem} {out : Outstanding (List Byte) Int} {events : List IrdEvent} (inv : IrdInv s out)
    (step : KeepingStep s out events s') : IrdInv s' (after out events) := by
  obtain ⟨op, keeps, made⟩ := step
  cases op with
  | setInverterIrd recvbuffer =>
    obtain ⟨rfl, rfl⟩ := Prod.mk.inj made
    rw [requestsOf, setInverterIrd]
    dsimp only
    by_cases set : msgGetInt (recvbuffer.drop 30) 1 = 1 ∧
        msgNumCheckEnd (recvbuffer.drop 52) (msgGetInt (recvbuffer.drop 31) 4) 13 = true
    · have notAll : ¬ msgGetInt (recvbuffer.drop 30) 1 = 0 := by
        rw [set.1]
        decide
      rw [if_pos set, if_neg notAll, if_pos set.1, if_pos set.2]
      refine ⟨setIrdNum_made inv.made _ _, fun id isId v asked => ?_⟩
      exact (requests_stored isId inv.short (inv.kept id isId) (recvbuffer.drop 52) _).2 v asked
    · rw [if_neg set]
      split_ifs <;> first | exact ⟨inv.made, inv.kept⟩ | exact absurd ⟨‹_›, ‹_›⟩ set
  | readInverterIrd =>
    obtain ⟨rfl, rfl⟩ := Prod.mk.inj made
    exact ⟨inv.made, inv.kept⟩
  | setIrdAll replies inverters =>
    obtain ⟨rfl, rfl⟩ := Prod.mk.inj made
    rw [setIrdAll]
    dsimp only
    split_ifs with some all
    · exact inv.readAll (keeps all) rfl
    · exact ⟨inv.made, inv.kept⟩
    · exact ⟨inv.made, inv.kept⟩
  | getIrdFromInverters replies inverters =>
    obtain ⟨rfl, rfl⟩ := Prod.mk.inj made
    rw [getIrdFromInverters]
    split_ifs with all
    · exact inv.readAll (keeps all) rfl
    · exact ⟨inv.made, inv.kept⟩
  | start =>
    obtain ⟨rfl, rfl⟩ := Prod.mk.inj made
    exact ⟨inv.made, inv.kept⟩
  | setIrdSingle stack replies inverters =>
    rw [IrdOp.apply] at made
    cases step : setIrdSingle stack replies inverters s.loop with
    | none =>
      rw [step] at made
      obtain ⟨rfl, rfl⟩ := Prod.mk.inj made
      exact inv
    | some turn =>
      obtain ⟨sent, next⟩ := turn
      rw [step] at made
      obtain ⟨rfl, rfl⟩ := Prod.mk.inj made
      refine ⟨setIrdSingle_made (s := s.loop) inv.made step, fun id isId v asked => ?_⟩
      obtain ⟨lines, file, rows⟩ := inv.made
      have before : out id = some v := by
        cases sent with
        | none => exact asked
        | some sent => exact apply_serve_some asked
      have row := inv.kept id isId v before
      have known : ∀ row ∈ getIrdIdValue lines.flatten, row.1 = id → 0 < addressOf inverters row.1 := by
        rintro taken inTable rfl
        exact keeps taken (file ▸ inTable) isId (by rw [before]; exact Option.some_ne_none v)
      rw [file] at row
      rcases rowsOf_turn rows isId row (s := s.loop) file step known with kept | ⟨own, address, rfl⟩
      · exact kept
      · change (Event.serve (cstr next.id) v).apply out id = some v at asked
        rw [own, apply_serve_self before] at asked
        cases asked

/-- **No lost IRD set**: in a run that reads back no inverter with a request, and takes only rows of registered
inverters, a request keeps its row, with its value and its flag, until it is sent. -/
theorem ird_requests_wait {s : IrdSystem} {out : Outstanding (List Byte) Int}
    (reach : Reach IrdSystem.Start KeepingStep s out)
    {id : List Byte} (isId : IsId id) {v : Int} (asked : out id = some v) : Waits s.files.ird id v := by
  have inv : IrdInv s out := by
    apply Reach.rule _ _ IrdInv.step reach
    intro s start
    refine ⟨start.made, fun _ _ _ asked => ?_⟩
    cases asked
  exact waits_row isId.plain (inv.kept id isId v asked)

theorem sampleIrd_requests : requestsOf (sampleIrd (str "801000000001")) = [.post (str "801000000001") 2] := by
  rw [sampleIrd]
  iterate 4 rw [str_ofList]
  decide +kernel

theorem sample_isId : IsId (str "801000000001") := by
  refine ⟨?_, ?_⟩
  · rw [str_ofList]
    decide
  · exact Param.plain_chars rfl

def sampleStart : IrdSystem :=
  ⟨⟨[], [], []⟩, 0, [], []⟩

/-- After A127 for an inverter. -/
def sampleAsked : IrdSystem :=
  { sampleStart with files := setInverterIrd (sampleIrd (str "801000000001")) ⟨[], [], []⟩ }

theorem sampleAsked_reach (Step : IrdSystem → Outstanding (List Byte) Int → List IrdEvent → IrdSystem → Prop)
    (step : Step sampleStart (fun _ => none) (requestsOf (sampleIrd (str "801000000001"))) sampleAsked) :
    Reach IrdSystem.Start Step sampleAsked (after (fun _ => none) [.post (str "801000000001") 2]) := by
  rw [← sampleIrd_requests]
  exact Reach.next (Reach.start (s := sampleStart) IrdWritten.none) step

theorem sampleAsked_out : after (fun _ => none) [.post (str "801000000001") (2 : Int)] (str "801000000001") =
    some 2 := by
  rw [after_cons, after_nil]
  exact apply_post_self _ _ _

theorem ird_requests_sample : Waits sampleAsked.files.ird (str "801000000001") 2 :=
  ird_requests_wait (sampleAsked_reach KeepingStep ⟨.setInverterIrd (sampleIrd (str "801000000001")), trivial, rfl⟩)
    sample_isId sampleAsked_out

def sampleTable : List InverterInfo :=
  [{ id := str "801000000001", model := 5, shortaddr := 0x3344 }]

/-- The inverter answers that its option is 1. -/
def sampleReply : Reply :=
  ⟨58, [0xFB, 0xFB, 0, 0xDA, 2] ++ List.replicate 51 0 ++ [0xFE, 0xFE]⟩

/-- A126 comes after A127, and the main thread reads all inverters before it sends: the request is gone. -/
theorem ird_request_lost :
    ¬ ∀ (s : IrdSystem) (out : Outstanding (List Byte) Int), Reach IrdSystem.Start IrdStep s out →
      ∀ id, IsId id → ∀ v, out id = some v → Waits s.files.ird id v := by
  intro waits
  have asked := sampleAsked_reach IrdStep ⟨.setInverterIrd (sampleIrd (str "801000000001")), rfl⟩
  have toRead : Reach IrdSystem.Start IrdStep _ (after _ []) := asked.next ⟨.readInverterIrd, rfl⟩
  have read : Reach IrdSystem.Start IrdStep _ (after _ []) :=
    toRead.next ⟨.getIrdFromInverters (fun _ _ => sampleReply) sampleTable, rfl⟩
  obtain ⟨data, rows, -, set⟩ := waits _ _ read _ sample_isId 2 sampleAsked_out
  have cleared : ∀ data ∈ rowsOf (str "801000000001") (getIrdFromInverters (fun _ _ => sampleReply) sampleTable
      (readInverterIrd sampleAsked.files)).ird, ¬ flagSet 3 data := by
    rw [sampleAsked, sampleIrd, sampleTable, readInverterIrd]
    iterate 5 rw [str_ofList]
    decide +kernel
  exact cleared data (by rw [rows]; exact List.mem_singleton_self data) set

end Ecu.Command
