import Ecu.Lib.FirstSeen
import Ecu.Command.InverterId

/-!
# The table of the ids

Every row of `/home/data/id` begins with an id and a comma. On such a file the two readers see the same ids:
`get_num_from_id` all of them, `get_id_from_file` as many as the table in memory has room for (`readers_rows`). What
A103 writes is such a file again, with the ids that it should have.
-/

namespace Ecu.Command

open Socket Protection Poll

/-! ## Rows -/

/-- A row of the id file. -/
structure IdRow (row : List Byte) : Prop where
  short : ShortLine row
  isId : IsId (row.take 12)
  column : row[12]? = some comma

theorem IdRow.shape {line : List Byte} (row : IdRow line) : line = line.take 12 ++ comma :: line.drop 13 := by
  conv_lhs => rw [← List.take_append_drop 12 line]
  congr 1
  obtain ⟨inside, at12⟩ := List.getElem?_eq_some_iff.1 row.column
  rw [List.drop_eq_getElem_cons inside, at12]

theorem IdRow.length {line : List Byte} (row : IdRow line) : 12 < line.length :=
  (List.getElem?_eq_some_iff.1 row.column).1

theorem prefix_id_iff {line id : List Byte} (isId : IsId id) :
    id <+: line ↔ line.take 12 = id := by
  rw [List.prefix_iff_eq_take, isId.twelve, eq_comm]

/-- The ids in the file, one for each row. -/
def storedIds (file : List Byte) : List (List Byte) :=
  (Lines.readLines newline 200 file).map (·.take 12)

theorem storedIds_lines {lines : List (List Byte)} (rows : ∀ line ∈ lines, IdRow line) :
    storedIds lines.flatten = lines.map (·.take 12) := by
  rw [storedIds, readLines_short (fun line mem => (rows line mem).short) (by decide)]

theorem hexText_isId {bytes : List Byte} (six : bytes.length = 6) : IsId (hexText bytes) := by
  have digit : ∀ d < 16, hexDigit d ≠ nul ∧ hexDigit d ≠ newline ∧ hexDigit d ≠ comma := by decide
  constructor
  · rw [hexText, List.length_flatMap]
    simp [six]
  · intro b mem
    obtain ⟨byte, -, inByte⟩ := List.mem_flatMap.1 mem
    have small := byte.toNat_lt
    simp only [List.mem_cons, List.not_mem_nil, or_false] at inByte
    rcases inByte with rfl | rfl
    · exact digit _ (by omega)
    · exact digit _ (Nat.mod_lt _ (by decide))

/-- A row that begins with an id. -/
theorem idRow_csvRow {id : List Byte} (isId : IsId id) {fields : List (List Byte)} (some : fields ≠ [])
    (short : ShortLine (csvRow (id :: fields))) : IdRow (csvRow (id :: fields)) ∧
      (csvRow (id :: fields)).take 12 = id := by
  obtain ⟨next, fields, rfl⟩ := List.exists_cons_of_ne_nil some
  have shape := csvRow_cons id next fields
  have first : (csvRow (id :: next :: fields)).take 12 = id := by
    rw [shape]
    exact List.take_left' isId.twelve
  refine ⟨⟨short, first.symm ▸ isId, ?_⟩, first⟩
  rw [shape, List.getElem?_append_right isId.twelve.le, isId.twelve]
  rfl

theorem newRow_idRow {id : List Byte} (isId : IsId id) : IdRow (newRow id) ∧ (newRow id).take 12 = id := by
  have plain : ∀ field ∈ [id, [], [], [], [], [], []], Plain field := by
    intro field mem
    rcases List.mem_cons.1 mem with rfl | blank
    · exact isId.plain
    · rw [List.eq_of_mem_replicate (n := 6) blank]
      exact plain_nil
  have length : (newRow id).length = 19 := by
    rw [newRow, csvRow_length (List.cons_ne_nil _ _), List.map_cons, List.sum_cons, isId.twelve]
    rfl
  have whole : Lines.IsLine newline 200 (newRow id) := csvRow_isLine plain (by rw [← newRow, length]; decide)
  refine idRow_csvRow isId (List.cons_ne_nil _ _) ⟨⟨whole.shape, ?_⟩, ?_⟩
  · rw [← newRow, length]
    decide
  · exact csvRow_noNul fun field mem b inField => (plain field mem b inField).1

/-- The rows of new inverters and the ids in them. -/
theorem newRows {ids : List (List Byte)} (isIds : ∀ id ∈ ids, IsId id) :
    (∀ row ∈ ids.map newRow, IdRow row) ∧ storedIds (ids.map newRow).flatten = ids := by
  have each : ∀ row ∈ ids.map newRow, IdRow row := by
    intro row mem
    obtain ⟨id, there, rfl⟩ := List.mem_map.1 mem
    exact (newRow_idRow (isIds id there)).1
  refine ⟨each, ?_⟩
  rw [storedIds_lines each, List.map_map]
  exact (List.map_congr_left fun id mem => (newRow_idRow (isIds id mem)).2).trans (List.map_id ids)

theorem idRow_idRow {x : InverterInfo} (listable : Listable x) : IdRow (idRow x) ∧ (idRow x).take 12 = x.id := by
  have isId : IsId x.id := ⟨listable.isId.length, listable.isId.plain⟩
  have plain := idRow_plain listable.isId
  have length := idRow_length listable
  have whole := idRow_isLine listable
  have clean : ∀ b ∈ idRow x, b ≠ nul := csvRow_noNul fun field mem b inField => (plain field mem b inField).1
  rw [idRow, listable.isId.cstr] at length clean whole ⊢
  exact idRow_csvRow isId (List.cons_ne_nil _ _) ⟨⟨whole.shape, length⟩, clean⟩

/-! ## The readers -/

theorem numStep_row {line : List Byte} (long : 12 ≤ line.length) (found : List (List Byte) × List Byte) :
    (numStep found line).1 = if line.take 12 ∈ found.1 then found.1 else found.1 ++ [line.take 12] := by
  have first : (memcpy found.2 (line ++ [nul])).take 12 = line.take 12 := by
    rw [memcpy, List.append_assoc, List.take_append_of_le_length long]
  rw [numStep]
  dsimp only
  rw [first]

theorem foldl_numStep {lines : List (List Byte)} (long : ∀ line ∈ lines, 12 ≤ line.length)
    (found : List (List Byte)) (data : List Byte) :
    (lines.foldl numStep (found, data)).1 =
      (lines.map (·.take 12)).foldl (fun seen id => if id ∈ seen then seen else seen ++ [id]) found := by
  induction lines generalizing found data with
  | nil => rfl
  | cons line lines ih =>
    have one := numStep_row (long line List.mem_cons_self) (found, data)
    rw [List.foldl_cons, List.map_cons, List.foldl_cons, ← one]
    exact ih (fun l mem => long l (List.mem_cons_of_mem line mem)) _ _

theorem getNumFromId_rows {lines : List (List Byte)} (rows : ∀ line ∈ lines, IdRow line) (data : List Byte) :
    getNumFromId data lines.flatten = (lines.map (·.take 12)).eraseDups := by
  rw [getNumFromId, readLines_short (fun line mem => (rows line mem).short) (by decide),
    foldl_numStep (fun line mem => (rows line mem).length.le), FirstSeen.foldl_new]

theorem loadRow_row {line : List Byte} (row : IdRow line) {inverters : List InverterInfo}
    (ids : ∀ y ∈ inverters, Poll.IsId y.id) :
    (loadRow inverters line).map (·.id) =
      if line.take 12 ∈ inverters.map (·.id) ∨ maxInverterCount ≤ inverters.length then inverters.map (·.id)
      else inverters.map (·.id) ++ [line.take 12] := by
  have own : Poll.IsId (line.take 12) := ⟨row.isId.twelve, row.isId.plain⟩
  have first : (splitString line).getD 0 [] = line.take 12 := by
    rw [splitString_cons row.short.clean row.shape row.isId.noComma]
    rfl
  have whole : inverters.takeWhile (fun x => Record.HasId x.toInverter) = inverters :=
    List.takeWhile_eq_self_iff.2 fun y mem => decide_eq_true (ids y mem).hasId
  have known : (inverters.any fun x => fieldBytes 12 (line.take 12) = fieldBytes 12 x.id) = true ↔
      line.take 12 ∈ inverters.map (·.id) := by
    rw [List.any_eq_true, List.mem_map]
    apply exists_congr
    intro y
    apply and_congr_right
    intro mem
    rw [decide_eq_true_iff, own.fieldBytes, (ids y mem).fieldBytes, eq_comm]
  unfold loadRow
  dsimp only
  rw [whole]
  simp only [first]
  by_cases there : line.take 12 ∈ inverters.map (·.id) ∨ maxInverterCount ≤ inverters.length
  · rw [if_pos (there.imp_left known.2), if_pos there]
  · rw [if_neg (mt (Or.imp_left known.1) there), if_neg there, List.map_append]
    rfl

theorem foldl_loadRow_rows {lines : List (List Byte)} (rows : ∀ line ∈ lines, IdRow line)
    {inverters : List InverterInfo} (ids : ∀ y ∈ inverters, Poll.IsId y.id) :
    (lines.foldl loadRow inverters).map (·.id) = (lines.map (·.take 12)).foldl
      (fun seen id => if id ∈ seen ∨ maxInverterCount ≤ seen.length then seen else seen ++ [id])
      (inverters.map (·.id)) := by
  induction lines generalizing inverters with
  | nil => rfl
  | cons line lines ih =>
    have row := rows line List.mem_cons_self
    have one := loadRow_row row ids
    have after : ∀ y ∈ loadRow inverters line, Poll.IsId y.id := by
      intro y mem
      have inIds : y.id ∈ (loadRow inverters line).map (·.id) := List.mem_map_of_mem mem
      rw [one] at inIds
      have old : y.id ∈ inverters.map (·.id) → Poll.IsId y.id := by
        intro before
        obtain ⟨z, there, same⟩ := List.mem_map.1 before
        exact same ▸ ids z there
      split_ifs at inIds with there
      · exact old inIds
      · rcases List.mem_append.1 inIds with before | new
        · exact old before
        · rw [List.mem_singleton.1 new]
          exact ⟨row.isId.twelve, row.isId.plain⟩
    rw [List.foldl_cons, List.map_cons, List.foldl_cons, ih (fun l mem => rows l (List.mem_cons_of_mem line mem)) after,
      one, List.length_map]

theorem getIdFromFile_rows {lines : List (List Byte)} (rows : ∀ line ∈ lines, IdRow line) :
    (getIdFromFile lines.flatten).map (·.id) = (lines.map (·.take 12)).eraseDups.take maxInverterCount := by
  rw [getIdFromFile, readLines_short (fun line mem => (rows line mem).short) (by decide),
    foldl_loadRow_rows rows fun y mem => absurd mem List.not_mem_nil]
  exact FirstSeen.foldl_room maxInverterCount _

/-- What the readers see of a file with proper rows. -/
theorem readers_rows {file : List Byte} (rows : Lines.MadeOf IdRow file) (data : List Byte) :
    getNumFromId data file = (storedIds file).eraseDups ∧
      (getIdFromFile file).map (·.id) = (storedIds file).eraseDups.take maxInverterCount := by
  obtain ⟨lines, rfl, each⟩ := rows
  rw [storedIds_lines each]
  exact ⟨getNumFromId_rows each data, getIdFromFile_rows each⟩

/-! ## A table of many rows -/

/-- The bytes of the inverter 801000000000 and of those that follow. -/
def sampleUid (i : Nat) : List Byte :=
  let digits (n : Nat) : Byte := UInt8.ofNat (n / 10 % 10 * 16 + n % 10)
  [0x80, 0x10, 0x00, 0x00, digits (i / 100), digits i]

def sampleIds (num : Nat) : List (List Byte) :=
  (List.range num).map fun i => hexText (sampleUid i)

theorem sampleIds_isId (num : Nat) : ∀ id ∈ sampleIds num, IsId id := by
  intro id mem
  obtain ⟨i, -, rfl⟩ := List.mem_map.1 mem
  exact hexText_isId rfl

theorem sampleIds_nodup {num : Nat} (few : num ≤ 121) : (sampleIds num).Nodup := by
  -- the last digits of an id give its number back
  have numbered : ∀ i < 121, Decimal.value ((hexText (sampleUid i)).drop 9) = i := by
    decide +kernel
  apply List.Nodup.map_on _ List.nodup_range
  intro i inRange j inRange' same
  have left := numbered i (Nat.lt_of_lt_of_le (List.mem_range.1 inRange) few)
  have right := numbered j (Nat.lt_of_lt_of_le (List.mem_range.1 inRange') few)
  rw [← left, same, right]

end Ecu.Command
