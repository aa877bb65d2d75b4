import Ecu.Poll.Fresh
import Ecu.Poll.Files

/-!
# What a start reads

A start fills the table from the id file and brings back the baselines of `collect.con`. Both files give back what was
printed into them: the id file the whole table (`load_updateID`), `collect.con` the baselines of the inverters with
data, the decimals rounded (`initTmpdb_updateTmpdb`).
-/

namespace Ecu.Poll

/-! ## The files of a table -/

/-- A table as the id file gives it: proper ids, none of them twice. -/
structure WellFormed (table : List InverterInfo) : Prop where
  printable : ∀ x ∈ table, Printable x
  distinct : (table.map (·.id)).Nodup
  size : table.length ≤ maxInverterCount

theorem foldl_loadRow (before rest : List InverterInfo) (listable : ∀ x ∈ before ++ rest, Listable x)
    (distinct : ((before ++ rest).map (·.id)).Nodup) (size : (before ++ rest).length ≤ maxInverterCount) :
    (rest.map idRow).foldl loadRow (before.map fresh) = (before ++ rest).map fresh := by
  induction rest generalizing before with
  | nil => rw [List.append_nil, List.map_nil, List.foldl_nil]
  | cons x rest ih =>
    have shape : before ++ x :: rest = (before ++ [x]) ++ rest := List.append_cons ..
    have others := distinct
    have room := size
    rw [List.map_append, List.map_cons] at others
    rw [List.length_append, List.length_cons] at room
    rw [List.map_cons, List.foldl_cons, loadRow_idRow]
    · rw [shape] at listable distinct size ⊢
      rw [← ih _ listable distinct size, List.map_append]
      rfl
    · exact listable x (List.mem_append_right _ List.mem_cons_self)
    · intro y mem
      obtain ⟨z, inBefore, rfl⟩ := List.mem_map.1 mem
      refine ⟨(listable z (List.mem_append_left _ inBefore)).isId, fun same => ?_⟩
      exact (List.nodup_append.1 others).2.2 z.id (List.mem_map_of_mem inBefore) x.id List.mem_cons_self same
    · rw [List.length_map]
      omega

/-- What `updateID` writes is read back row by row. -/
theorem foldl_updateID {table : List InverterInfo} (listable : ∀ x ∈ table, Listable x)
    (distinct : (table.map (·.id)).Nodup) (size : table.length ≤ maxInverterCount) :
    (Lines.readLines newline 200 (updateID table)).foldl loadRow [] = table.map fresh := by
  have lines : Lines.readLines newline 200 (updateID table) = table.map idRow := by
    apply Lines.readLines_flatten
    intro line mem
    obtain ⟨x, inTable, rfl⟩ := List.mem_map.1 mem
    exact idRow_isLine (listable x inTable)
  rw [lines]
  exact foldl_loadRow [] table listable distinct size

/-- The id file gives back its table. -/
theorem load_updateID {table : List InverterInfo} (wf : WellFormed table) :
    load (updateID table) = table.map fresh := by
  rw [load, getIdFromFile, foldl_updateID (fun x mem => (wf.printable x mem).listable) wf.distinct wf.size]
  apply List.takeWhile_eq_self_iff.2
  intro y mem
  obtain ⟨x, inTable, rfl⟩ := List.mem_map.1 mem
  have isId : IsId (fresh x).id := (wf.printable x inTable).isId
  exact decide_eq_true isId.hasId

/-- All that a table with proper ids has for the id file comes back, in its order. -/
theorem table_restored {table : List InverterInfo} (listable : ∀ x ∈ table, Listable x)
    (distinct : (table.map (·.id)).Nodup) (size : table.length ≤ maxInverterCount) :
    getIdFromFile (updateID table) = table.map fresh :=
  foldl_updateID listable distinct size

/-- An inverter with its columns at the ends of their ranges. -/
def sampleListed : InverterInfo where
  id := str "801000000001"
  shortaddr := 65535
  model := 255
  version := -2147483648
  bindflag := 1
  zigbeeVersion := 255
  flag := 0

theorem table_restored_sample : getIdFromFile (updateID [sampleListed]) = [sampleListed] := by
  have isId : IsId sampleListed.id := by
    refine ⟨by decide, ?_⟩
    unfold Plain
    decide +kernel
  refine table_restored (fun x mem => ?_) (List.nodup_singleton _) (by decide)
  rw [List.mem_singleton.1 mem]
  exact ⟨isId, by decide, by decide, by decide, by decide, by decide, by decide⟩

/-- An inverter whose id ends in a line end. -/
def cutListed : InverterInfo where
  id := str "80100000001\n"
  shortaddr := 0
  model := 0

/-- A line end in an id cuts its row: the part after it is read as one more inverter. -/
theorem cut_id_restored : ¬ ∀ table : List InverterInfo,
    (∀ x ∈ table, strlen x.id = 12 ∧ (∀ b ∈ x.id, b ≠ nul ∧ b ≠ comma) ∧
      x.shortaddr < 2 ^ 16 ∧ x.model < 2 ^ 8 ∧ (-2 ^ 31 ≤ x.version ∧ x.version < 2 ^ 31) ∧ x.bindflag < 2 ^ 1 ∧
      x.zigbeeVersion < 2 ^ 8 ∧ x.flag < 2 ^ 1) →
    (table.map (·.id)).Nodup → table.length ≤ maxInverterCount →
      getIdFromFile (updateID table) = table.map fresh := by
  intro restored
  have two : (getIdFromFile (updateID [cutListed])).length = 2 := by
    decide +kernel
  have one := restored [cutListed] (List.forall_mem_singleton.2 (by decide +kernel))
    (List.nodup_singleton _) (by decide)
  rw [one] at two
  exact absurd two (by decide)

/-- What a row of `x` does to an entry. -/
def restoreFrom (y x : InverterInfo) : InverterInfo :=
  if y.id = x.id then y.restore x.stored.printed else y

theorem restoreFrom_id (y x : InverterInfo) : (restoreFrom y x).id = y.id := by
  unfold restoreFrom
  split
  · rfl
  · rfl

theorem restoreRow_map {x : InverterInfo} (isId : IsId x.id) {table : List InverterInfo}
    (ids : ∀ y ∈ table, IsId y.id) (distinct : (table.map (·.id)).Nodup) :
    restoreRow table (tmpdbRow x) = table.map (restoreFrom · x) := by
  rw [restoreRow_tmpdbRow isId]
  induction table with
  | nil => rfl
  | cons y table ih =>
    have later := ih (fun z mem => ids z (List.mem_cons_of_mem y mem)) (List.nodup_cons.1 distinct).2
    rw [FirstMatch.modifyFirst, (ids y List.mem_cons_self).fieldBytes, List.map_cons, restoreFrom]
    by_cases same : y.id = x.id
    · have others : table.map (restoreFrom · x) = table := by
        refine Eq.trans (List.map_congr_left fun z mem => ?_) (List.map_id table)
        refine if_neg fun twice => (List.nodup_cons.1 distinct).1 ?_
        have inIds : z.id ∈ table.map (·.id) := List.mem_map_of_mem mem
        rwa [twice.trans same.symm] at inIds
      rw [if_pos same, if_pos same, others]
      rfl
    · rw [if_neg same, if_neg same, ← later]
      cases FirstMatch.modifyFirst _ table <;> rfl

/-- The rows of other inverters leave an entry alone. -/
theorem foldl_restoreFrom_others {y : InverterInfo} {xs : List InverterInfo} (others : ∀ x ∈ xs, x.id ≠ y.id) :
    xs.foldl restoreFrom y = y := by
  induction xs with
  | nil => rfl
  | cons x xs ih =>
    rw [List.foldl_cons, restoreFrom, if_neg (others x List.mem_cons_self).symm]
    exact ih fun z mem => others z (List.mem_cons_of_mem x mem)

theorem foldl_restoreFrom_mem {y x : InverterInfo} {xs : List InverterInfo} (mem : x ∈ xs)
    (distinct : (xs.map (·.id)).Nodup) (same : y.id = x.id) :
    xs.foldl restoreFrom y = y.restore x.stored.printed := by
  obtain ⟨before, rest, rfl⟩ := List.append_of_mem mem
  rw [List.map_append, List.map_cons, List.nodup_append, List.nodup_cons] at distinct
  have passed : before.foldl restoreFrom y = y := by
    refine foldl_restoreFrom_others fun z inBefore twice => ?_
    exact distinct.2.2 z.id (List.mem_map_of_mem inBefore) x.id List.mem_cons_self (twice.trans same)
  rw [List.foldl_append, List.foldl_cons, passed, restoreFrom, if_pos same]
  refine foldl_restoreFrom_others fun z inRest twice => distinct.2.1.1 ?_
  have equal : z.id = x.id := Eq.trans twice same
  exact equal ▸ List.mem_map_of_mem inRest

theorem foldl_restoreRow {xs : List InverterInfo} (isIds : ∀ x ∈ xs, IsId x.id) {table : List InverterInfo}
    (ids : ∀ y ∈ table, IsId y.id) (distinct : (table.map (·.id)).Nodup) :
    (xs.map tmpdbRow).foldl restoreRow table = table.map fun y => xs.foldl restoreFrom y := by
  induction xs generalizing table with
  | nil => exact (List.map_id table).symm
  | cons x xs ih =>
    have step := restoreRow_map (isIds x List.mem_cons_self) ids distinct
    have kept : (table.map (restoreFrom · x)).map (·.id) = table.map (·.id) := by
      rw [List.map_map]
      exact List.map_congr_left fun y _ => restoreFrom_id y x
    rw [List.map_cons, List.foldl_cons, step, ih (fun z mem => isIds z (List.mem_cons_of_mem x mem)), List.map_map]
    · rfl
    · intro z mem
      obtain ⟨y, inTable, rfl⟩ := List.mem_map.1 mem
      rw [restoreFrom_id]
      exact ids y inTable
    · rwa [kept]

/-- A start after `update_tmpdb` wrote the file: each inverter with data gets its baseline back, the others get
nothing. -/
theorem initTmpdb_updateTmpdb {table : List InverterInfo} (wf : WellFormed table) {loaded : List InverterInfo}
    (same : loaded.map (·.id) = table.map (·.id)) {i : Nat} {x y : InverterInfo} (entry : table[i]? = some x)
    (loadedEntry : loaded[i]? = some y) :
    (initTmpdb (updateTmpdb table) loaded)[i]? =
      some (if x.dataflag = 1 then y.restore x.stored.printed else y) := by
  let xs := table.filter (·.dataflag = 1)
  have lines : Lines.readLines newline 200 (updateTmpdb table) = xs.map tmpdbRow := by
    apply Lines.readLines_flatten
    intro line mem
    obtain ⟨z, inXs, rfl⟩ := List.mem_map.1 mem
    have printable := wf.printable z (List.mem_of_mem_filter inXs)
    exact tmpdbRow_isLine printable.isId printable.bounded
  have isIds : ∀ z ∈ xs, IsId z.id := fun z inXs => (wf.printable z (List.mem_of_mem_filter inXs)).isId
  have ids : ∀ z ∈ loaded, IsId z.id := by
    intro z mem
    have inIds : z.id ∈ table.map (·.id) := same ▸ List.mem_map_of_mem mem
    obtain ⟨w, inTable, twin⟩ := List.mem_map.1 inIds
    rw [← twin]
    exact (wf.printable w inTable).isId
  have id : y.id = x.id := by
    have at_ := congrArg (·[i]?) same
    simpa [entry, loadedEntry] using at_
  have inTable : x ∈ table := List.mem_of_getElem? entry
  rw [initTmpdb, lines, foldl_restoreRow isIds ids (same ▸ wf.distinct), List.getElem?_map, loadedEntry,
    Option.map_some]
  congr 1
  by_cases answered : x.dataflag = 1
  · rw [if_pos answered]
    have mem : x ∈ xs := List.mem_filter.2 ⟨inTable, decide_eq_true answered⟩
    have sub : (xs.map (·.id)).Nodup := wf.distinct.sublist (List.filter_sublist.map _)
    exact foldl_restoreFrom_mem mem sub id
  · rw [if_neg answered]
    refine foldl_restoreFrom_others fun z inXs twice => answered ?_
    have inTable' : z ∈ table := List.mem_of_mem_filter inXs
    obtain rfl : z = x := List.inj_on_of_nodup_map wf.distinct inTable' inTable (twice.trans id)
    simpa using (List.mem_filter.1 inXs).2

/-! ## A start -/

/-- The lines of `init_tmpdb` change nothing but baselines. -/
theorem restoreRow_kept {P : InverterInfo → Prop} {line : List Byte}
    (restored : ∀ y, P y → P (y.restore (tmpdbColumns line))) {table : List InverterInfo} (all : ∀ y ∈ table, P y) :
    ∀ y ∈ restoreRow table line, P y := by
  unfold restoreRow
  dsimp only
  cases done : FirstMatch.modifyFirst _ table with
  | none => exact all
  | some out =>
    obtain ⟨before, y, z, rest, rfl, rfl, hit, -⟩ := FirstMatch.modifyFirst_some done
    obtain ⟨-, same⟩ := Option.ite_none_right_eq_some.1 hit
    obtain rfl := Option.some_inj.1 same
    intro w mem
    rcases List.mem_append.1 mem with inBefore | mem
    · exact all w (List.mem_append_left _ inBefore)
    · rcases List.mem_cons.1 mem with rfl | inRest
      · exact restored y (all y (List.mem_append_right _ List.mem_cons_self))
      · exact all w (List.mem_append_right _ (List.mem_cons_of_mem y inRest))

theorem initTmpdb_kept {P : InverterInfo → Prop} {file : List Byte}
    (restored : ∀ line ∈ Lines.readLines newline 200 file, ∀ y, P y → P (y.restore (tmpdbColumns line)))
    {table : List InverterInfo} (all : ∀ y ∈ table, P y) : ∀ y ∈ initTmpdb file table, P y := by
  unfold initTmpdb
  generalize Lines.readLines newline 200 file = lines at restored
  induction lines generalizing table with
  | nil => exact all
  | cons line lines ih =>
    have first := restoreRow_kept (restored line List.mem_cons_self) all
    exact ih first fun line' later => restored line' (List.mem_cons_of_mem line later)

theorem restoreRow_fresh (table : List InverterInfo) (line : List Byte) :
    (restoreRow table line).map fresh = table.map fresh := by
  unfold restoreRow
  dsimp only
  cases done : FirstMatch.modifyFirst _ table with
  | none => rfl
  | some out =>
    obtain ⟨before, y, z, rest, rfl, rfl, hit, -⟩ := FirstMatch.modifyFirst_some done
    obtain ⟨-, same⟩ := Option.ite_none_right_eq_some.1 hit
    obtain rfl := Option.some_inj.1 same
    rw [Option.getD_some, List.map_append, List.map_append, List.map_cons, List.map_cons]
    rfl

theorem initTmpdb_fresh (file : List Byte) (table : List InverterInfo) :
    (initTmpdb file table).map fresh = table.map fresh := by
  unfold initTmpdb
  induction Lines.readLines newline 200 file generalizing table with
  | nil => rfl
  | cons line lines ih => exact (ih (restoreRow table line)).trans (restoreRow_fresh table line)

/-- What holds of no inverters and of one more after each line holds of the table. -/
theorem getIdFromFile_rule {P : List InverterInfo → Prop} (none : P [])
    (line : ∀ data inverters, P inverters → P (loadRow inverters data)) (file : List Byte) :
    P (getIdFromFile file) := by
  have all : ∀ (lines : List (List Byte)) (inverters : List InverterInfo), P inverters →
      P (lines.foldl loadRow inverters) := by
    intro lines
    induction lines with
    | nil => exact fun inverters holds => holds
    | cons data lines ih => exact fun inverters holds => ih _ (line data inverters holds)
  exact all _ [] none

/-- A line adds an inverter with nothing but the columns, whose id none of the inverters before has. -/
theorem loadRow_cases (inverters : List InverterInfo) (data : List Byte) :
    loadRow inverters data = inverters ∨
      ∃ x, loadRow inverters data = inverters ++ [x] ∧ x = fresh x ∧ inverters.length < maxInverterCount ∧
        ∀ y ∈ inverters.takeWhile fun y => Record.HasId y.toInverter, fieldBytes 12 x.id ≠ fieldBytes 12 y.id := by
  unfold loadRow
  dsimp only
  split
  · exact .inl rfl
  · rename_i new
    obtain ⟨unknown, room⟩ := not_or.1 new
    refine .inr ⟨_, rfl, rfl, not_le.1 room, fun y mem same => unknown ?_⟩
    rw [List.any_eq_true]
    exact ⟨y, mem, decide_eq_true same⟩

/-- `get_id_from_file` fills in nothing but its columns. -/
theorem load_fresh (ids : List Byte) : ∀ x ∈ load ids, x = fresh x := by
  have loaded : ∀ x ∈ getIdFromFile ids, x = fresh x := by
    refine getIdFromFile_rule (P := fun inverters => ∀ x ∈ inverters, x = fresh x) ?_ ?_ ids
    · exact fun x mem => absurd mem List.not_mem_nil
    · intro data inverters all
      rcases loadRow_cases inverters data with same | ⟨y, added, columns, -⟩
      · rwa [same]
      · rw [added]
        intro x mem
        rcases List.mem_append.1 mem with old | new
        · exact all x old
        · rwa [List.mem_singleton.1 new]
  exact fun x mem => loaded x ((List.takeWhile_prefix _).subset mem)

/-- The first twelve characters tell the inverters apart. -/
theorem load_keys_distinct (ids : List Byte) : ((load ids).map fun x => fieldBytes 12 x.id).Nodup := by
  refine getIdFromFile_rule
    (P := fun inverters =>
      ((inverters.takeWhile fun x => Record.HasId x.toInverter).map fun x => fieldBytes 12 x.id).Nodup)
    List.nodup_nil ?_ ids
  intro data inverters distinct
  rcases loadRow_cases inverters data with same | ⟨x, added, -, -, unknown⟩
  · rwa [same]
  · rw [added, List.takeWhile_append]
    split
    · rename_i whole
      have all := (List.takeWhile_prefix (p := fun y => decide (Record.HasId y.toInverter))
        (l := inverters)).eq_of_length whole
      rw [all] at distinct unknown
      rw [List.map_append, List.nodup_append]
      refine ⟨distinct, ?_, ?_⟩
      · exact (List.nodup_singleton (fieldBytes 12 x.id)).sublist ((List.takeWhile_prefix _).sublist.map _)
      · intro id inBefore id' inNew same
        obtain ⟨y, mem, rfl⟩ := List.mem_map.1 inBefore
        obtain ⟨z, mem', rfl⟩ := List.mem_map.1 inNew
        have last : z = x := List.mem_singleton.1 ((List.takeWhile_prefix _).subset mem')
        exact unknown y mem (last ▸ same.symm)
    · exact distinct

theorem load_distinct (ids : List Byte) : ((load ids).map (·.id)).Nodup := by
  have keys := load_keys_distinct ids
  have split : (load ids).map (fun x => fieldBytes 12 x.id) = ((load ids).map (·.id)).map (fieldBytes 12) := by
    rw [List.map_map]
    rfl
  rw [split] at keys
  exact keys.of_map _

theorem getIdFromFile_length (ids : List Byte) : (getIdFromFile ids).length ≤ maxInverterCount := by
  refine getIdFromFile_rule (P := fun inverters => inverters.length ≤ maxInverterCount) (Nat.zero_le _) ?_ ids
  intro data inverters small
  rcases loadRow_cases inverters data with same | ⟨x, added, -, room, -⟩
  · rwa [same]
  · rw [added, List.length_append]
    exact room

theorem load_length (ids : List Byte) : (load ids).length ≤ maxInverterCount :=
  (List.takeWhile_prefix _).length_le.trans (getIdFromFile_length ids)

theorem boot_listed (disk : Disk) : load disk.ids = (boot disk).map fresh := by
  rw [boot, initTmpdb_fresh]
  conv_lhs => rw [← List.map_id (load disk.ids)]
  exact List.map_congr_left fun x mem => load_fresh disk.ids x mem

/-- Distinct ids and a table that is not too long come from the reading. -/
theorem boot_wellFormed {disk : Disk} (printable : ∀ x ∈ boot disk, Printable x) : WellFormed (boot disk) := by
  have ids : (boot disk).map (·.id) = (load disk.ids).map (·.id) := by
    rw [boot_listed, List.map_map]
    rfl
  refine ⟨printable, ?_, ?_⟩
  · rw [ids]
    exact load_distinct disk.ids
  · have lengths := congrArg List.length ids
    rw [List.length_map, List.length_map] at lengths
    exact lengths.trans_le (load_length disk.ids)

theorem boot_powerOn (disk : Disk) : ∀ x ∈ boot disk, PowerOn x := by
  have loaded : ∀ x ∈ load disk.ids, PowerOn x := by
    intro x mem
    rw [load_fresh disk.ids x mem]
    rfl
  refine initTmpdb_kept (fun line _ y on => ?_) loaded
  unfold PowerOn InverterInfo.restore at *
  rw [on]
  rfl

end Ecu.Poll
