import Ecu.Command.IdTable

/-!
# The writers of the id file

A103, the registration by phone, the ID writer and `updateID` write `/home/data/id`. As long as the ids have neither a
comma nor a line end, whatever they write is a file of proper rows (`writers_rows`), so both readers see its ids.
-/

namespace Ecu.Command

open Socket Protection Poll

/-! ## The writers -/

/-- The columns of the id file, in their types. -/
structure Columns where
  shortaddr : UInt16
  model : UInt8
  version : Int32
  bindflag : Fin 2
  zigbeeVersion : UInt8
  flag : Fin 2

/-- The columns in the row of an id. -/
def Columns.entry (columns : Columns) (id : List Byte) : InverterInfo where
  id := id
  shortaddr := columns.shortaddr.toNat
  model := columns.model.toNat
  version := columns.version.toInt
  bindflag := columns.bindflag
  zigbeeVersion := columns.zigbeeVersion.toNat
  flag := columns.flag

/-- The file that `phone_add_inverter` writes; `uidstring` is what stands behind its pointer. -/
def phoneAddInverter (num : Nat) (uidstring : Nat → Byte) : List Byte :=
  (List.range num).flatMap fun i => newRow (hexText ((List.range 6).map fun k => uidstring (k + i * 6)))

/-- `addInverter`: the file. -/
def addInverter (file inverterId : List Byte) : List Byte :=
  file ++ newRow (cstr inverterId)

/-- The ids that `insertinverter` takes from its text, each with a separator behind it. -/
def insertedIds (buff : List Byte) : List (List Byte) :=
  (List.range ((strlen buff + 1) / 13)).map fun i => cstr ((buff.drop (i * 13)).take 12)

/-- `insertinverter`: the file, after `clear_id`. -/
def insertinverter (buff : List Byte) : List Byte :=
  (insertedIds buff).foldl addInverter []

/-- What writes the file, and a start, which reads it. `save` is `updateID` after the columns have changed. -/
inductive IdEvent where
  | a103 (stack : Int) (recvbuffer : List Byte)
  | registerPhone (num : Nat) (uidstring : Nat → Byte)
  | idwriter (buff : List Byte)
  | start
  | save (columns : Nat → Columns)

/-- `updateID` after these columns came into the table. -/
def saveColumns (columns : Nat → Columns) (s : IdState) : IdState :=
  let inverter := s.inverter.mapIdx fun i x => x.withColumns ((columns i).entry x.id)
  { s with
    inverter
    id := updateID (inverter.takeWhile fun x => Record.HasId x.toInverter) }

def IdState.step (s : IdState) : IdEvent → IdState
  | .a103 stack recvbuffer => (setInverterId stack recvbuffer s).2
  | .registerPhone num uidstring =>
    { initInverterA103 { s with id := phoneAddInverter num uidstring, limiteid := str "1" } with total := s.total }
  | .idwriter buff => { s with id := insertinverter buff, limiteid := str "1" }
  | .start => initInverterA103 { s with inverter := s.inverter.map fun x => { x with deputyModel := 0 } }
  | .save columns => saveColumns columns s

/-- A new ECU. -/
def newEcu : IdState where
  id := []
  limiteid := []
  inverter := List.replicate maxInverterCount { id := [], model := 0, shortaddr := 0 }
  total := 0
  restarts := []

/-- What is left after the events. -/
def afterEvents (events : List IdEvent) : IdState :=
  events.foldl IdState.step newEcu

/-- The ids that an event brings have neither a comma nor a line end, and a registration fits its buffer. -/
def IdEvent.Proper : IdEvent → Prop
  | .a103 stack recvbuffer => operation103 stack recvbuffer = 1 → ∀ id ∈ named103 recvbuffer, comma ∉ id ∧ newline ∉ id
  | .registerPhone num _ => num ≤ 131
  | .idwriter buff => ∀ id ∈ insertedIds buff, comma ∉ id ∧ newline ∉ id
  | _ => True

/-! ## Ids -/

/-- Twelve characters from inside a text. -/
theorem cstr_inside {text : List Byte} {i : Nat} (inside : i + 12 ≤ strlen text) :
    cstr ((text.drop i).take 12) = (text.drop i).take 12 ∧ ((text.drop i).take 12).length = 12 := by
  have long : i + 12 ≤ text.length := inside.trans (cstr_length_le text)
  have part : (text.drop i).take 12 = ((cstr text).drop i).take 12 := by
    obtain ⟨rest, same⟩ : cstr text <+: text := List.takeWhile_prefix _
    have length : i ≤ (cstr text).length := le_trans (Nat.le_add_right i 12) inside
    conv_lhs => rw [← same, List.drop_append_of_le_length length]
    rw [List.take_append_of_le_length]
    rw [List.length_drop]
    exact Nat.le_sub_of_add_le' inside
  constructor
  · apply cstr_of_clean
    intro b mem
    rw [part] at mem
    exact cstr_noNul text b ((List.drop_subset i _) (List.mem_of_mem_take mem))
  · rw [List.length_take, List.length_drop]
    omega

theorem isId_inside {text : List Byte} {i : Nat} (inside : i + 12 ≤ strlen text)
    (proper : comma ∉ cstr ((text.drop i).take 12) ∧ newline ∉ cstr ((text.drop i).take 12)) :
    IsId (cstr ((text.drop i).take 12)) := by
  obtain ⟨whole, length⟩ := cstr_inside inside
  refine ⟨by rw [whole, length], fun b mem => ⟨cstr_noNul _ b mem, ?_, ?_⟩⟩
  · rintro rfl
    exact proper.2 mem
  · rintro rfl
    exact proper.1 mem

theorem insertedIds_isId {buff : List Byte} (proper : ∀ id ∈ insertedIds buff, comma ∉ id ∧ newline ∉ id) :
    ∀ id ∈ insertedIds buff, IsId id := by
  intro id mem
  have chars := proper id mem
  obtain ⟨i, inRange, rfl⟩ := List.mem_map.1 mem
  apply isId_inside _ chars
  have below := List.mem_range.1 inRange
  omega

/-- The ids of a message whose length is right. -/
theorem named103_isId {recvbuffer : List Byte}
    (checked : msgNumCheckEnd (recvbuffer.drop 51) (num103 recvbuffer) 12 = true)
    (proper : ∀ id ∈ named103 recvbuffer, comma ∉ id ∧ newline ∉ id) : ∀ id ∈ named103 recvbuffer, IsId id := by
  intro id mem
  have chars := proper id mem
  obtain ⟨i, inRange, rfl⟩ := List.mem_map.1 mem
  apply isId_inside _ chars
  have below := List.mem_range.1 inRange
  have small : num103 recvbuffer < 10 ^ 3 := msgGetInt_lt _ 3
  rw [msgNumCheckEnd, decide_eq_true_iff, unsigned] at checked
  omega

/-! ## What the writers keep -/

/-- The file has proper rows, the entries in use have proper ids. -/
structure Tidy (s : IdState) : Prop where
  rows : Lines.MadeOf IdRow s.id
  ids : ∀ x ∈ s.inverter, x.id = [] ∨ Poll.IsId x.id

theorem newRows_made {ids : List (List Byte)} (isIds : ∀ id ∈ ids, IsId id) : Lines.MadeOf IdRow (ids.flatMap newRow) :=
  ⟨ids.map newRow, List.flatMap_def .., (newRows isIds).1⟩

theorem deleteId_made {file : List Byte} (rows : Lines.MadeOf IdRow file) (msg : List Byte) (num : Nat) :
    Lines.MadeOf IdRow (deleteId file msg num) := by
  rw [deleteId]
  induction List.range num generalizing file with
  | nil => exact rows
  | cons i is ih => exact ih (deleteLineBytes_lines (fun _ row => row.short) rows _ 12)

/-- A start leaves proper ids in the table. -/
theorem initInverterA103_tidy {s : IdState} (rows : Lines.MadeOf IdRow s.id) : Tidy (initInverterA103 s) := by
  refine ⟨rows, fun x mem => ?_⟩
  have loaded : ∀ row ∈ getIdFromFile s.id, Poll.IsId row.id := by
    intro row inFile
    obtain ⟨lines, file, each⟩ := rows
    have inIds : row.id ∈ (getIdFromFile s.id).map (·.id) := List.mem_map_of_mem inFile
    rw [file, getIdFromFile_rows each] at inIds
    obtain ⟨line, there, same⟩ := List.mem_map.1 (List.mem_eraseDups.1 (List.mem_of_mem_take inIds))
    have isId := (each line there).isId
    exact same ▸ ⟨isId.twelve, isId.plain⟩
  obtain ⟨i, inside, rfl⟩ := List.mem_mapIdx.1 mem
  cases entry : (getIdFromFile s.id)[i]? with
  | none => exact .inl rfl
  | some row => exact .inr (loaded row (List.mem_of_getElem? entry))

theorem setInverterId_tidy {s : IdState} (tidy : Tidy s) {stack : Int} {recvbuffer : List Byte}
    (proper : (IdEvent.a103 stack recvbuffer).Proper) : Tidy (setInverterId stack recvbuffer s).2 := by
  have restart {t : IdState} (rows : Lines.MadeOf IdRow t.id) :
      Tidy { initInverterA103 t with restarts := (initInverterA103 t).restarts ++ [20] } :=
    ⟨(initInverterA103_tidy rows).rows, (initInverterA103_tidy rows).ids⟩
  unfold setInverterId
  dsimp only
  split_ifs with short clear add delete
  · exact tidy
  · exact restart Lines.MadeOf.nil
  · have isIds := named103_isId (Bool.eq_true_of_not_eq_false short) (proper add)
    have added := tidy.rows.append (newRows_made isIds)
    rw [named103, List.flatMap_map] at added
    exact restart added
  · exact restart (deleteId_made tidy.rows _ _)
  · exact restart tidy.rows

theorem saveColumns_tidy {s : IdState} (tidy : Tidy s) (columns : Nat → Columns) : Tidy (saveColumns columns s) := by
  have ids : ∀ x ∈ (saveColumns columns s).inverter, (x.id = [] ∨ Poll.IsId x.id) ∧ (Poll.IsId x.id → Listable x) := by
    intro x mem
    obtain ⟨i, inside, rfl⟩ := List.mem_mapIdx.1 mem
    have old := tidy.ids s.inverter[i] (List.getElem_mem inside)
    refine ⟨old, fun isId => ?_⟩
    exact ⟨isId, (columns i).shortaddr.toNat_lt, (columns i).model.toNat_lt,
      ⟨(columns i).version.le_toInt, (columns i).version.toInt_lt⟩, (columns i).bindflag.isLt,
      (columns i).zigbeeVersion.toNat_lt, (columns i).flag.isLt⟩
  refine ⟨⟨_, rfl, fun row mem => ?_⟩, fun x mem => (ids x mem).1⟩
  obtain ⟨x, valid, rfl⟩ := List.mem_map.1 mem
  have there := (List.takeWhile_prefix _).subset valid
  rcases (ids x there).1 with none | isId
  · have hasId := List.mem_takeWhile_imp valid
    rw [decide_eq_true_iff, Record.HasId, none] at hasId
    exact absurd hasId (by decide)
  · exact (idRow_idRow ((ids x there).2 isId)).1

theorem step_tidy {s : IdState} (tidy : Tidy s) {event : IdEvent} (proper : event.Proper) : Tidy (s.step event) := by
  cases event with
  | a103 stack recvbuffer => exact setInverterId_tidy tidy proper
  | registerPhone num uidstring =>
    have rows : Lines.MadeOf IdRow (phoneAddInverter num uidstring) := by
      have isIds : ∀ id ∈ (List.range num).map fun i =>
          hexText ((List.range 6).map fun k => uidstring (k + i * 6)), IsId id := by
        intro id mem
        obtain ⟨i, -, rfl⟩ := List.mem_map.1 mem
        exact hexText_isId (by rw [List.length_map, List.length_range])
      have made := newRows_made isIds
      rwa [List.flatMap_map] at made
    have started := initInverterA103_tidy
      (s := { s with id := phoneAddInverter num uidstring, limiteid := str "1" }) rows
    exact ⟨started.rows, started.ids⟩
  | idwriter buff =>
    have isIds := insertedIds_isId proper
    have clean : ∀ id ∈ insertedIds buff, cstr id = id := fun id mem => cstr_of_clean (isIds id mem).noNul
    have fold (ids : List (List Byte)) (clean : ∀ id ∈ ids, cstr id = id) (file : List Byte) :
        ids.foldl addInverter file = file ++ ids.flatMap newRow := by
      induction ids generalizing file with
      | nil => exact (List.append_nil file).symm
      | cons id ids ih =>
        rw [List.foldl_cons, ih fun other mem => clean other (List.mem_cons_of_mem id mem), addInverter,
          clean id List.mem_cons_self, List.flatMap_cons, List.append_assoc]
    refine ⟨?_, tidy.ids⟩
    change Lines.MadeOf IdRow (insertinverter buff)
    rw [insertinverter, fold _ clean, List.nil_append]
    exact newRows_made isIds
  | start => exact initInverterA103_tidy tidy.rows
  | save columns => exact saveColumns_tidy tidy columns

theorem newEcu_tidy : Tidy newEcu := by
  refine ⟨Lines.MadeOf.nil, fun x mem => .inl ?_⟩
  rw [List.eq_of_mem_replicate mem]

theorem afterEvents_tidy {events : List IdEvent} (proper : ∀ event ∈ events, event.Proper) :
    Tidy (afterEvents events) := by
  rw [afterEvents]
  induction events using List.reverseRecOn with
  | nil => exact newEcu_tidy
  | append_singleton events event ih =>
    rw [List.foldl_append]
    exact step_tidy (ih fun e mem => proper e (List.mem_append_left _ mem))
      (proper event (List.mem_append_right _ (List.mem_singleton_self event)))

/-- Both readers list the same ids, and not more than there is room for. -/
def ReadersAgree (data file : List Byte) : Prop :=
  getNumFromId data file = (getIdFromFile file).map (·.id) ∧ (getNumFromId data file).length ≤ maxInverterCount

/-- The readers agree on what the writers leave, as long as there are not more ids than there is room for. -/
theorem readers_agree_iff {events : List IdEvent} (proper : ∀ event ∈ events, event.Proper) (data : List Byte) :
    ReadersAgree data (afterEvents events).id ↔
      (storedIds (afterEvents events).id).eraseDups.length ≤ maxInverterCount := by
  obtain ⟨numbers, loaded⟩ := readers_rows (afterEvents_tidy proper).rows data
  rw [ReadersAgree, numbers, loaded]
  constructor
  · exact And.right
  · exact fun room => ⟨(List.take_of_length_le room).symm, room⟩

/-! ## Examples -/

/-- The bytes that register the inverters 801000000000, 801000000001 and so on. -/
def sampleUids (n : Nat) : Byte :=
  (sampleUid (n / 6)).getD (n % 6) nul

theorem readers_agree_sample : ReadersAgree [] (afterEvents [.registerPhone 2 sampleUids, .start]).id := by
  refine (readers_agree_iff (fun event mem => ?_) []).2 (by decide +kernel)
  simp only [List.mem_cons, List.not_mem_nil, or_false] at mem
  rcases mem with rfl | rfl
  · exact Nat.le_of_ble_eq_true rfl
  · trivial

/-- A registration of more inverters than there is room for. -/
theorem readers_disagree : ¬ ∀ (data : List Byte) (events : List IdEvent),
    ReadersAgree data (afterEvents events).id := by
  intro agree
  have file : (afterEvents [.registerPhone 121 sampleUids]).id = ((sampleIds 121).map newRow).flatten := by
    change phoneAddInverter 121 sampleUids = _
    rw [phoneAddInverter, List.flatMap_def, sampleIds, List.map_map]
    refine congrArg List.flatten (List.map_congr_left fun i _ => ?_)
    have uid : (List.range 6).map (fun k => sampleUids (k + i * 6)) = sampleUid i := by
      refine List.ext_getElem rfl fun k inside _ => ?_
      have small : k < 6 := inside
      rw [List.getElem_map, List.getElem_range, sampleUids, Nat.add_mul_div_right _ _ (by decide),
        Nat.div_eq_of_lt small, Nat.zero_add, Nat.add_mul_mod_self_right, Nat.mod_eq_of_lt small]
      exact (List.getElem_eq_getD nul).symm
    rw [Function.comp_apply, ← uid]
  obtain ⟨each, ids⟩ := newRows (sampleIds_isId 121)
  have many := (agree [] [.registerPhone 121 sampleUids]).2
  rw [file, getNumFromId_rows each, ← storedIds_lines each, ids,
    FirstSeen.eraseDups_of_nodup (sampleIds_nodup (Nat.le_refl 121)), sampleIds, List.length_map,
      List.length_range] at many
  exact absurd many (by decide)

end Ecu.Command
