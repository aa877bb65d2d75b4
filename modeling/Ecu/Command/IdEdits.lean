import Ecu.Command.IdTable

/-!
# What A103 makes of the table

A103 looks at no row before it adds one: an id that is there already gets a second row, and nothing stops the table at
`MAXINVERTERCOUNT` rows. Apart from that the file has the ids that it should have, the rows of other inverters stay as
they are, and A102 lists what is stored (`edit_iff`).
-/

namespace Ecu.Command

open Socket Protection Poll

/-- A message with its length and operation right, which names proper ids. -/
structure WellFormed103 (recvbuffer : List Byte) : Prop where
  checked : msgNumCheckEnd (recvbuffer.drop 51) (num103 recvbuffer) 12 = true
  operation : scanDigit (recvbuffer.drop 30) ∈ [some 0, some 1, some 2]
  named : ∀ id ∈ named103 recvbuffer, IsId id

/-- What A103 should make of the file. -/
structure Edited (operation : Int) (named : List (List Byte)) (before after : List Byte) : Prop where
  ids : ∀ id, id ∈ storedIds after ↔
    operation = 1 ∧ (id ∈ storedIds before ∨ id ∈ named) ∨ operation = 2 ∧ id ∈ storedIds before ∧ id ∉ named
  distinct : (storedIds after).Nodup
  room : (storedIds after).length ≤ maxInverterCount
  others : operation ≠ 0 → ∀ row ∈ Lines.readLines newline 200 before, row.take 12 ∉ named →
    row ∈ Lines.readLines newline 200 after
  answer : ∀ (ecu : EcuTexts) (recvbuffer data : List Byte), responseInverterId ecu recvbuffer data after =
    (storedIds after).foldl inverterMsg (ecuMsg ecu (str "APS13AAAAAA102AAA0") (storedIds after).length recvbuffer)

/-! ## The operations on rows -/

section Rows

variable {rows : List (List Byte)} (each : ∀ row ∈ rows, IdRow row)

include each

theorem readLines_rows : Lines.readLines newline 200 rows.flatten = rows :=
  readLines_short (fun row mem => (each row mem).short) (by decide)

theorem deleteLineBytes_row {id : List Byte} (isId : IsId id) :
    deleteLineBytes rows.flatten (fieldBytes 12 id) 12 = (rows.filter fun row => row.take 12 ≠ id).flatten := by
  have key : fieldBytes 12 id = id := List.take_left' isId.twelve
  have take : id.take id.length = id := List.take_length
  have deleted := deleteLineBytes_eq rows.flatten isId.noNul take
  rw [isId.twelve] at deleted
  rw [key, deleted, deleteLine_short fun row mem => (each row mem).short]
  congr 1
  apply List.filter_congr
  intro row _
  rw [decide_eq_decide, prefix_id_iff isId]

theorem deleteRows (ids : List (List Byte)) (isIds : ∀ id ∈ ids, IsId id) :
    ids.foldl (fun file id => deleteLineBytes file (fieldBytes 12 id) 12) rows.flatten =
      (rows.filter fun row => row.take 12 ∉ ids).flatten := by
  induction ids generalizing rows with
  | nil =>
    have all : (rows.filter fun row => row.take 12 ∉ ([] : List (List Byte))) = rows :=
      List.filter_eq_self.2 fun row _ => decide_eq_true List.not_mem_nil
    rw [List.foldl_nil, all]
  | cons id ids ih =>
    have fewer : ∀ row ∈ rows.filter fun row => row.take 12 ≠ id, IdRow row :=
      fun row mem => each row (List.mem_of_mem_filter mem)
    rw [List.foldl_cons, deleteLineBytes_row each (isIds id List.mem_cons_self),
      ih fewer fun other mem => isIds other (List.mem_cons_of_mem id mem), List.filter_filter]
    congr 1
    apply List.filter_congr
    intro row _
    rw [← Bool.decide_and, decide_eq_decide, List.mem_cons, not_or, and_comm]

/-- The answer to A102 lists rows with different ids. -/
theorem responseInverterId_rows (distinct : (rows.map (·.take 12)).Nodup) (ecu : EcuTexts)
    (recvbuffer data : List Byte) :
    responseInverterId ecu recvbuffer data rows.flatten = (rows.map (·.take 12)).foldl inverterMsg
      (ecuMsg ecu (str "APS13AAAAAA102AAA0") (rows.map (·.take 12)).length recvbuffer) := by
  have listed : getNumFromId data rows.flatten = rows.map (·.take 12) := by
    rw [getNumFromId_rows each, FirstSeen.eraseDups_of_nodup distinct]
  have twelve : ∀ id ∈ rows.map (·.take 12), strlen id = 12 := by
    intro id mem
    obtain ⟨row, inRows, rfl⟩ := List.mem_map.1 mem
    have isId := (each row inRows).isId
    rw [strlen_of_clean isId.noNul, isId.twelve]
  unfold responseInverterId
  dsimp only
  rw [listed]
  apply List.foldl_ext
  intro sendbuffer id mem
  exact if_pos (twelve id mem)

end Rows

/-- The file of an A103 with the operation. -/
theorem setInverterId_id (stack : Int) {recvbuffer : List Byte} (wf : WellFormed103 recvbuffer) (s : IdState) :
    let named := named103 recvbuffer
    operation103 stack recvbuffer = 0 ∧ (setInverterId stack recvbuffer s).2.id = [] ∨
    operation103 stack recvbuffer = 1 ∧
      (setInverterId stack recvbuffer s).2.id = s.id ++ (named.map newRow).flatten ∨
    operation103 stack recvbuffer = 2 ∧ (setInverterId stack recvbuffer s).2.id =
      named.foldl (fun file id => deleteLineBytes file (fieldBytes 12 id) 12) s.id := by
  have checked : ¬ msgNumCheckEnd (recvbuffer.drop 51) (num103 recvbuffer) 12 = false := by
    rw [wf.checked]
    decide
  have known (op : Int) (scanned : scanDigit (recvbuffer.drop 30) = some op) : operation103 stack recvbuffer = op := by
    rw [operation103, scanned, Option.getD_some]
  have operation := wf.operation
  simp only [List.mem_cons, List.not_mem_nil, or_false] at operation
  rcases operation with clear | add | delete
  · refine .inl ⟨known 0 clear, ?_⟩
    rw [setInverterId, known 0 clear]
    dsimp only
    rw [if_neg checked, if_pos rfl]
    rfl
  · refine .inr (.inl ⟨known 1 add, ?_⟩)
    rw [setInverterId, known 1 add]
    dsimp only
    rw [if_neg checked, if_neg (by decide), if_pos rfl]
    change addId _ _ _ = _
    rw [addId, named103, List.map_map, List.flatMap_def]
    rfl
  · refine .inr (.inr ⟨known 2 delete, ?_⟩)
    rw [setInverterId, known 2 delete]
    dsimp only
    rw [if_neg checked, if_neg (by decide), if_neg (by decide), if_pos rfl]
    change deleteId _ _ _ = _
    rw [deleteId, named103, List.foldl_map]

/-- The rows that an A103 leaves. -/
def rowsAfter103 (operation : Int) (named rows : List (List Byte)) : List (List Byte) :=
  if operation = 0 then []
  else if operation = 1 then rows ++ named.map newRow
  else rows.filter fun row => row.take 12 ∉ named

section After

variable {named rows : List (List Byte)} (isIds : ∀ id ∈ named, IsId id)

include isIds

theorem rowsAfter103_rows (each : ∀ row ∈ rows, IdRow row) (operation : Int) :
    ∀ row ∈ rowsAfter103 operation named rows, IdRow row := by
  intro row mem
  rw [rowsAfter103] at mem
  split_ifs at mem with clear add
  · exact absurd mem List.not_mem_nil
  · rcases List.mem_append.1 mem with old | new
    · exact each row old
    · obtain ⟨id, inNamed, rfl⟩ := List.mem_map.1 new
      exact (newRow_idRow (isIds id inNamed)).1
  · exact each row (List.mem_of_mem_filter mem)

theorem rowsAfter103_ids (operation : Int) : (rowsAfter103 operation named rows).map (·.take 12) =
    if operation = 0 then []
    else if operation = 1 then rows.map (·.take 12) ++ named
    else (rows.map (·.take 12)).filter (· ∉ named) := by
  rw [rowsAfter103]
  split_ifs with clear add
  · rfl
  · rw [List.map_append, List.map_map]
    congr 1
    refine (List.map_congr_left fun id mem => ?_).trans (List.map_id named)
    exact (newRow_idRow (isIds id mem)).2
  · rw [List.filter_map]
    rfl

/-- Apart from repetitions and room, A103 leaves what it should. -/
theorem edited_rows (each : ∀ row ∈ rows, IdRow row) {operation : Int}
    (known : operation = 0 ∨ operation = 1 ∨ operation = 2) :
    let ids := (rowsAfter103 operation named rows).map (·.take 12)
    Edited operation named rows.flatten (rowsAfter103 operation named rows).flatten ↔
      ids.Nodup ∧ ids.length ≤ maxInverterCount := by
  intro ids
  have after := rowsAfter103_rows isIds each operation
  have stored : storedIds (rowsAfter103 operation named rows).flatten = ids := storedIds_lines after
  constructor
  · intro edited
    rw [← stored]
    exact ⟨edited.distinct, edited.room⟩
  · rintro ⟨distinct, room⟩
    refine ⟨fun id => ?_, stored.symm ▸ distinct, stored.symm ▸ room, ?_, fun ecu recvbuffer data => ?_⟩
    · have result : ids = _ := rowsAfter103_ids isIds operation
      rw [stored, result, storedIds_lines each]
      rcases known with rfl | rfl | rfl
      · simp
      · simp
      · simp
    · rw [readLines_rows each, readLines_rows after]
      intro notClear row mem other
      rcases known with rfl | rfl | rfl
      · exact absurd rfl notClear
      · exact List.mem_append_left _ mem
      · exact List.mem_filter.2 ⟨mem, decide_eq_true other⟩
    · rw [stored]
      exact responseInverterId_rows after distinct ecu recvbuffer data

end After

theorem setInverterId_rows (stack : Int) {recvbuffer : List Byte} (wf : WellFormed103 recvbuffer) {s : IdState}
    {rows : List (List Byte)} (each : ∀ row ∈ rows, IdRow row) (stored : s.id = rows.flatten) :
    (setInverterId stack recvbuffer s).2.id =
      (rowsAfter103 (operation103 stack recvbuffer) (named103 recvbuffer) rows).flatten := by
  rcases setInverterId_id stack wf s with ⟨op, file⟩ | ⟨op, file⟩ | ⟨op, file⟩
  · rw [file, op]
    rfl
  · rw [file, op, stored, ← List.flatten_append]
    rfl
  · rw [file, op, stored, deleteRows each _ wf.named]
    rfl

/-- Where A103 leaves the right table: no inverter that stays or is added has a second row, and
there is room for all. -/
theorem edit_iff (stack : Int) {recvbuffer : List Byte} (wf : WellFormed103 recvbuffer) {s : IdState}
    (stored : Lines.MadeOf IdRow s.id) :
    let operation := operation103 stack recvbuffer
    let named := named103 recvbuffer
    let kept := (storedIds s.id).filter (· ∉ named)
    Edited operation named s.id (setInverterId stack recvbuffer s).2.id ↔
      (operation = 1 → (storedIds s.id ++ named).Nodup ∧ (storedIds s.id ++ named).length ≤ maxInverterCount) ∧
      (operation = 2 → kept.Nodup ∧ kept.length ≤ maxInverterCount) := by
  intro operation named kept
  obtain ⟨rows, file, each⟩ := stored
  have same : (setInverterId stack recvbuffer s).2.id = (rowsAfter103 operation named rows).flatten :=
    setInverterId_rows stack wf each file
  have known : operation = 0 ∨ operation = 1 ∨ operation = 2 :=
    (setInverterId_id stack wf s).imp And.left (Or.imp And.left And.left)
  have before : storedIds s.id = rows.map (·.take 12) := by rw [file, storedIds_lines each]
  have ids : (rowsAfter103 operation named rows).map (·.take 12) = _ := rowsAfter103_ids wf.named operation
  have fits := edited_rows wf.named each known
  dsimp only at fits
  rw [ids, ← file, ← same] at fits
  rw [fits]
  simp only [kept, before]
  rcases known with clear | add | delete
  · rw [if_pos clear]
    exact iff_of_true ⟨List.nodup_nil, Nat.zero_le _⟩ ⟨by omega, by omega⟩
  · rw [if_neg (by omega), if_pos add]
    exact ⟨fun fits => ⟨fun _ => fits, by omega⟩, fun cond => cond.1 add⟩
  · rw [if_neg (by omega), if_neg (by omega)]
    exact ⟨fun fits => ⟨by omega, fun _ => fits⟩, fun cond => cond.2 delete⟩

/-! ## Examples -/

/-- An A103 that adds the inverter 801000000120. -/
def sample103 : List Byte :=
  str "APS1300066A103AAA0216000000001100120170403120000END801000000120END"

theorem sample103_named : operation103 0 sample103 = 1 ∧ named103 sample103 = [str "801000000120"] := by
  rw [sample103]
  iterate 2 rw [str_ofList]
  decide +kernel

theorem sample103_wellFormed : WellFormed103 sample103 := by
  refine ⟨?_, ?_, ?_⟩
  · rw [sample103, str_ofList]
    decide +kernel
  · rw [sample103, str_ofList]
    decide +kernel
  · rw [sample103_named.2, List.forall_mem_singleton, str_ofList]
    exact ⟨by decide, Param.plain_chars rfl⟩

theorem edit_sample : Edited (operation103 0 sample103) (named103 sample103) (newRow (str "801000000001"))
    (setInverterId 0 sample103 ⟨newRow (str "801000000001"), [], [], 0, []⟩).2.id := by
  have isId : IsId (str "801000000001") := by
    rw [str_ofList]
    exact ⟨by decide, Param.plain_chars rfl⟩
  have one : ∀ id ∈ [str "801000000001"], IsId id := List.forall_mem_singleton.2 isId
  obtain ⟨each, ids⟩ := newRows one
  rw [List.map_singleton, List.flatten_singleton] at ids
  have stored : Lines.MadeOf IdRow (newRow (str "801000000001")) := Lines.MadeOf.single (newRow_idRow isId).1
  refine (edit_iff 0 sample103_wellFormed (s := ⟨newRow (str "801000000001"), [], [], 0, []⟩) stored).2 ⟨?_, ?_⟩
  · rw [ids, sample103_named.2, str_ofList, str_ofList]
    decide
  · rw [sample103_named.1]
    omega

/-- A103 adds an inverter to a full table. -/
theorem full_table_edited : ¬ ∀ (stack : Int) (recvbuffer : List Byte) (s : IdState),
    WellFormed103 recvbuffer → Lines.MadeOf IdRow s.id → (storedIds s.id).Nodup →
      (storedIds s.id).length ≤ maxInverterCount →
      Edited (operation103 stack recvbuffer) (named103 recvbuffer) s.id (setInverterId stack recvbuffer s).2.id := by
  intro edited
  obtain ⟨each, ids⟩ := newRows (sampleIds_isId maxInverterCount)
  have full : (sampleIds maxInverterCount).length = maxInverterCount := by
    rw [sampleIds, List.length_map, List.length_range]
  have distinct : (sampleIds maxInverterCount).Nodup := sampleIds_nodup (by decide)
  have state (s : IdState) (file : s.id = ((sampleIds maxInverterCount).map newRow).flatten) : False := by
    have result := edited 0 sample103 s sample103_wellFormed ⟨_, file, each⟩ (by rwa [file, ids])
      (by rw [file, ids, full])
    rw [setInverterId_rows 0 sample103_wellFormed each file, file, sample103_named.1, sample103_named.2] at result
    have named : ∀ id ∈ [str "801000000120"], IsId id := sample103_named.2 ▸ sample103_wellFormed.named
    have room := ((edited_rows named each (.inr (.inl rfl))).1 result).2
    rw [rowsAfter103_ids named, if_neg (by decide), if_pos rfl, ← storedIds_lines each, ids, List.length_append,
      full] at room
    exact absurd room (by decide)
  exact state ⟨_, [], [], 0, []⟩ rfl

end Ecu.Command
