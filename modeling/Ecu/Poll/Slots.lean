import Ecu.Command.InverterId
import Ecu.Poll.Start

/-!
# The array of inverters (`main-thread.c`, `inverter_id.c`, `phoneServer.c`)

The inverters are in an array that outlives a restart of the main thread. A registration clears its slots and reads the
id file into them, and so does the restart after it, which then brings back the baselines of `collect.con`. What none of
the clearing loops names stays in its slot, for whichever inverter the file puts there (`restart_eq`).
-/

namespace Ecu.Poll

/-! ## Clearing and filling -/

/-- The loop of `init_inverter` on a slot. -/
def initSlot (x : InverterInfo) : InverterInfo :=
  { x.clearedA103 with deputyModel := 0 }

/-- The columns of a line of the id file. -/
def idColumns (data : List Byte) : InverterInfo :=
  let list := splitString data
  let column (k : Nat) : List Byte := list.getD k []
  let number (k : Nat) : Int := if (column k).length = 0 then 0 else Socket.atoi (column k)
  let unsigned (bits k : Nat) : Nat := (number k % 2 ^ bits).toNat
  { id := column 0
    shortaddr := unsigned 16 1
    model := unsigned 8 2
    version := number 3
    bindflag := unsigned 1 4
    zigbeeVersion := unsigned 8 5
    flag := unsigned 1 6 }

/-- The array before the first slot without an id. -/
def listed (slots : List InverterInfo) : List InverterInfo :=
  slots.takeWhile fun x => Record.HasId x.toInverter

theorem listed_cons {x : InverterInfo} (hasId : Record.HasId x.toInverter) (slots : List InverterInfo) :
    listed (x :: slots) = x :: listed slots :=
  List.takeWhile_cons_of_pos (decide_eq_true hasId)

theorem listed_cons_empty {x : InverterInfo} (empty : ¬ Record.HasId x.toInverter) (slots : List InverterInfo) :
    listed (x :: slots) = [] :=
  List.takeWhile_cons_of_neg (by simpa using empty)

theorem listed_hasId {slots : List InverterInfo} : ∀ x ∈ listed slots, Record.HasId x.toInverter := by
  intro x mem
  simpa using List.mem_takeWhile_imp mem

/-- The slots and how many of them `get_id_from_file` has filled. -/
structure Filling where
  slots : List InverterInfo
  num : Nat

def Filling.line (s : Filling) (data : List Byte) : Filling :=
  let columns := idColumns data
  let sameflag := (listed s.slots).any fun x => fieldBytes 12 columns.id = fieldBytes 12 x.id
  if sameflag ∨ s.num ≥ maxInverterCount then s
  else { slots := s.slots.modify s.num (·.withColumns columns), num := s.num + 1 }

/-- `get_id_from_file` on the array. -/
def fillSlots (ids : List Byte) (slots : List InverterInfo) : List InverterInfo :=
  ((Lines.readLines newline 200 ids).foldl Filling.line ⟨slots, 0⟩).slots

/-- `init_inverter_A103` -/
def initInverterA103 (ids : List Byte) (slots : List InverterInfo) : List InverterInfo :=
  fillSlots ids (slots.map InverterInfo.clearedA103)

/-- `Phone_RegisterID` before it restarts the main thread. -/
def phoneRegisterID (ids : List Byte) (slots : List InverterInfo) : List InverterInfo :=
  fillSlots ids (slots.map InverterInfo.clearedA103)

/-- `init_inverter`; as long as the file is empty the main thread waits in it. -/
def initInverter (ids : List Byte) (slots : List InverterInfo) : List InverterInfo :=
  fillSlots ids (slots.map initSlot)

/-- Who registers. -/
inductive Registration where
  | a103
  | phone
deriving DecidableEq

def Registration.rewrite : Registration → List Byte → List InverterInfo → List InverterInfo
  | a103 => initInverterA103
  | phone => phoneRegisterID

/-- The table after a registration and the restart that it asks for. -/
def restart (via : Registration) (disk : Disk) (slots : List InverterInfo) : List InverterInfo :=
  initTmpdb disk.collect (listed (initInverter disk.ids (via.rewrite disk.ids slots)))

/-- A slot of zeroed memory. -/
def zeroSlot : InverterInfo where
  id := []
  model := 0
  shortaddr := 0

/-- The array before the first start. -/
def zeroSlots : List InverterInfo :=
  zeroSlot :: List.replicate 119 zeroSlot

/-! ## What is in the slots -/

/-- These inverters in the first slots. -/
def seated : List InverterInfo → List InverterInfo → List InverterInfo
  | l :: loaded, x :: slots => x.withColumns l :: seated loaded slots
  | _, slots => slots

theorem seated_nil (slots : List InverterInfo) : seated [] slots = slots := by
  cases slots <;> rfl

theorem seated_append (l : InverterInfo) {loaded slots : List InverterInfo} (room : loaded.length < slots.length) :
    seated (loaded ++ [l]) slots = (seated loaded slots).modify loaded.length (·.withColumns l) := by
  induction loaded generalizing slots with
  | nil =>
    cases slots with
    | nil => exact absurd room (Nat.lt_irrefl 0)
    | cons x slots => rw [List.nil_append, seated, seated_nil, seated_nil, List.length_nil, List.modify_zero_cons]
  | cons m loaded ih =>
    cases slots with
    | nil => exact absurd room (Nat.not_lt_zero _)
    | cons x slots =>
      rw [List.cons_append, seated, seated, List.length_cons, List.modify_succ_cons, ih (Nat.lt_of_succ_lt_succ room)]

/-- The listed slots are those of the listed inverters. -/
theorem listed_seated {loaded slots : List InverterInfo} (empty : ∀ x ∈ slots, ¬ Record.HasId x.toInverter)
    (room : loaded.length ≤ slots.length) :
    listed (seated loaded slots) = List.zipWith (fun l x => x.withColumns l) (listed loaded) slots := by
  induction loaded generalizing slots with
  | nil =>
    rw [seated_nil]
    cases slots with
    | nil => rfl
    | cons x slots => exact listed_cons_empty (empty x List.mem_cons_self) slots
  | cons l loaded ih =>
    cases slots with
    | nil => exact absurd room (Nat.not_succ_le_zero _)
    | cons x slots =>
      have rest := ih (fun y mem => empty y (List.mem_cons_of_mem x mem)) (Nat.le_of_succ_le_succ room)
      have same : Record.HasId (x.withColumns l).toInverter ↔ Record.HasId l.toInverter := Iff.rfl
      rw [seated]
      by_cases hasId : Record.HasId l.toInverter
      · rw [listed_cons (same.2 hasId), listed_cons hasId, rest, List.zipWith_cons_cons]
      · rw [listed_cons_empty (mt same.1 hasId), listed_cons_empty hasId, List.zipWith_nil_left]

/-- What a slot takes from its inverter is what the inverters have. -/
theorem map_zipWith_left {α : Type} (f : InverterInfo → InverterInfo → InverterInfo) (g : InverterInfo → α)
    (taken : ∀ l x, g (f l x) = g l) {table slots : List InverterInfo} (few : table.length ≤ slots.length) :
    (List.zipWith f table slots).map g = table.map g := by
  induction table generalizing slots with
  | nil => rfl
  | cons l table ih =>
    cases slots with
    | nil => exact absurd few (Nat.not_succ_le_zero _)
    | cons x slots =>
      rw [List.zipWith_cons_cons, List.map_cons, List.map_cons, ih (Nat.le_of_succ_le_succ few), taken]

theorem listed_seated_ids {loaded slots : List InverterInfo} (empty : ∀ x ∈ slots, ¬ Record.HasId x.toInverter)
    (room : loaded.length ≤ slots.length) : (listed (seated loaded slots)).map (·.id) = (listed loaded).map (·.id) := by
  rw [listed_seated empty room]
  exact map_zipWith_left (fun l x => x.withColumns l) (·.id) (fun l x => rfl)
    ((List.takeWhile_prefix _).length_le.trans room)

theorem loadRow_eq (inverters : List InverterInfo) (data : List Byte) :
    loadRow inverters data =
      if (listed inverters).any (fun x => fieldBytes 12 (idColumns data).id = fieldBytes 12 x.id) ∨
        inverters.length ≥ maxInverterCount then inverters
      else inverters ++ [idColumns data] :=
  rfl

theorem any_id_congr {first second : List InverterInfo} (ids : first.map (·.id) = second.map (·.id)) (id : List Byte) :
    (first.any fun x => fieldBytes 12 id = fieldBytes 12 x.id) =
      second.any fun x => fieldBytes 12 id = fieldBytes 12 x.id := by
  have same := congrArg (List.any · fun other => decide (fieldBytes 12 id = fieldBytes 12 other)) ids
  simpa only [List.any_map, Function.comp_def] using same

/-- In slots without ids `get_id_from_file` reads what it reads after a power loss. -/
theorem fillSlots_eq (ids : List Byte) {slots : List InverterInfo} (empty : ∀ x ∈ slots, ¬ Record.HasId x.toInverter)
    (size : slots.length = maxInverterCount) : fillSlots ids slots = seated (getIdFromFile ids) slots := by
  have all : ∀ (lines : List (List Byte)) (loaded : List InverterInfo), loaded.length ≤ maxInverterCount →
      lines.foldl Filling.line ⟨seated loaded slots, loaded.length⟩ =
        ⟨seated (lines.foldl loadRow loaded) slots, (lines.foldl loadRow loaded).length⟩ := by
    intro lines
    induction lines with
    | nil => exact fun loaded few => rfl
    | cons data lines ih =>
      intro loaded few
      have known := any_id_congr (listed_seated_ids empty (few.trans_eq size.symm)) (idColumns data).id
      rw [List.foldl_cons, List.foldl_cons, Filling.line, loadRow_eq]
      dsimp only
      rw [known]
      split_ifs with skipped
      · exact ih loaded few
      · have room : loaded.length < maxInverterCount := not_le.1 (not_or.1 skipped).2
        rw [← seated_append (idColumns data) (room.trans_eq size.symm)]
        have next := ih (loaded ++ [idColumns data]) (by rw [List.length_append]; exact room)
        rwa [List.length_append, List.length_singleton] at next
  have done := all (Lines.readLines newline 200 ids) [] (Nat.zero_le _)
  rw [seated_nil, List.length_nil] at done
  rw [fillSlots, done]
  rfl

theorem cleared_empty (slots : List InverterInfo) : ∀ x ∈ slots.map InverterInfo.clearedA103,
    ¬ Record.HasId x.toInverter := by
  intro x mem
  obtain ⟨y, -, rfl⟩ := List.mem_map.1 mem
  change ¬ strlen [] = 12
  decide

theorem initSlot_empty (slots : List InverterInfo) : ∀ x ∈ slots.map initSlot, ¬ Record.HasId x.toInverter := by
  intro x mem
  obtain ⟨y, -, rfl⟩ := List.mem_map.1 mem
  change ¬ strlen [] = 12
  decide

/-- What the first clearing and reading leaves is lost in the second. -/
theorem seated_twice (loaded slots : List InverterInfo) :
    seated loaded ((seated loaded (slots.map InverterInfo.clearedA103)).map initSlot) =
      seated loaded (slots.map initSlot) := by
  induction loaded generalizing slots with
  | nil =>
    rw [seated_nil, seated_nil, seated_nil, List.map_map]
    rfl
  | cons l loaded ih =>
    cases slots with
    | nil => rfl
    | cons x slots =>
      rw [List.map_cons, seated, List.map_cons, seated, List.map_cons, seated, ih]
      rfl

theorem length_seated (loaded slots : List InverterInfo) : (seated loaded slots).length = slots.length := by
  induction loaded generalizing slots with
  | nil => rw [seated_nil]
  | cons l loaded ih =>
    cases slots with
    | nil => rfl
    | cons x slots => rw [seated, List.length_cons, ih, List.length_cons]

theorem seated_getElem? (loaded slots : List InverterInfo) (i : Nat) :
    (seated loaded slots)[i]? = slots[i]?.map fun x => loaded[i]?.elim x x.withColumns := by
  induction loaded generalizing slots i with
  | nil =>
    rw [seated_nil, List.getElem?_nil]
    exact (congrFun Option.map_id _).symm
  | cons l loaded ih =>
    cases slots with
    | nil => rfl
    | cons x slots =>
      cases i with
      | zero => rfl
      | succ i => exact ih slots i

/-- The table that A103 leaves. -/
theorem initInverterA103_inverter {s : Command.IdState} (size : s.inverter.length = maxInverterCount) :
    (Command.initInverterA103 s).inverter = initInverterA103 s.id s.inverter := by
  rw [initInverterA103, fillSlots_eq s.id (cleared_empty s.inverter) (by rwa [List.length_map])]
  apply List.ext_getElem?
  intro i
  rw [seated_getElem?, Command.initInverterA103, List.getElem?_mapIdx, List.getElem?_map, Option.map_map]
  congr 1
  funext x
  dsimp only [Function.comp_apply]
  cases (getIdFromFile s.id)[i]? <;> rfl

/-- The inverter `l` of the id file in the slot that `x` had. -/
def moved (l x : InverterInfo) : InverterInfo :=
  (initSlot x).withColumns l

/-- After a restart each inverter of the id file is in the slot of its place, with what is left there. -/
theorem restart_eq (via : Registration) (disk : Disk) {slots : List InverterInfo}
    (size : slots.length = maxInverterCount) :
    restart via disk slots = initTmpdb disk.collect (List.zipWith moved (load disk.ids) slots) := by
  have length : (slots.map InverterInfo.clearedA103).length = maxInverterCount := by rwa [List.length_map]
  have first : via.rewrite disk.ids slots = seated (getIdFromFile disk.ids) (slots.map InverterInfo.clearedA103) := by
    cases via with
    | a103 => exact fillSlots_eq disk.ids (cleared_empty slots) length
    | phone => exact fillSlots_eq disk.ids (cleared_empty slots) length
  have second : initInverter disk.ids (via.rewrite disk.ids slots) =
      seated (getIdFromFile disk.ids) (slots.map initSlot) := by
    rw [initInverter, fillSlots_eq disk.ids (initSlot_empty _), first, seated_twice]
    rw [List.length_map, first, length_seated, length]
  have few : (getIdFromFile disk.ids).length ≤ (slots.map initSlot).length := by
    rw [List.length_map, size]
    exact getIdFromFile_length disk.ids
  rw [restart, second, listed_seated (initSlot_empty slots) few, List.zipWith_map_right]
  rfl

/-! ## The baselines -/

def restoreLine (x : InverterInfo) (data : List Byte) : InverterInfo :=
  if IsRowOf x.id data then x.restore (tmpdbColumns data) else x

theorem restoreLine_id (x : InverterInfo) (data : List Byte) : (restoreLine x data).id = x.id := by
  unfold restoreLine
  split
  · rfl
  · rfl

/-- Where the ids differ a line is that of one inverter at most. -/
theorem restoreRow_lines {table : List InverterInfo} (distinct : (table.map fun x => fieldBytes 12 x.id).Nodup)
    (data : List Byte) : restoreRow table data = table.map (restoreLine · data) := by
  rw [restoreRow_eq]
  induction table with
  | nil => rfl
  | cons x table ih =>
    obtain ⟨unlike, distinct'⟩ := List.nodup_cons.1 distinct
    have later := ih distinct'
    rw [FirstMatch.modifyFirst, List.map_cons, restoreLine]
    by_cases own : IsRowOf x.id data
    · have others : table.map (restoreLine · data) = table := by
        refine Eq.trans (List.map_congr_left fun y mem => ?_) (List.map_id table)
        refine if_neg fun twice : IsRowOf y.id data => unlike ?_
        exact List.mem_map.2 ⟨y, mem, Eq.trans twice (Eq.symm own)⟩
      rw [if_pos own, if_pos own, others]
      rfl
    · rw [if_neg own, if_neg own, ← later]
      cases FirstMatch.modifyFirst _ table <;> rfl

/-- What the lines of `collect.con` make of an inverter. -/
def restored (collect : List Byte) (x : InverterInfo) : InverterInfo :=
  (Lines.readLines newline 200 collect).foldl restoreLine x

theorem initTmpdb_map (collect : List Byte) {table : List InverterInfo}
    (distinct : (table.map fun x => fieldBytes 12 x.id).Nodup) :
    initTmpdb collect table = table.map (restored collect) := by
  unfold initTmpdb restored
  induction Lines.readLines newline 200 collect generalizing table with
  | nil => exact (List.map_id table).symm
  | cons data lines ih =>
    have keys : (table.map (restoreLine · data)).map (fun x => fieldBytes 12 x.id) =
        table.map fun x => fieldBytes 12 x.id := by
      rw [List.map_map]
      exact List.map_congr_left fun x _ => congrArg (fieldBytes 12) (restoreLine_id x data)
    rw [List.foldl_cons, restoreRow_lines distinct, ih (keys.symm ▸ distinct), List.map_map]
    rfl

/-- The columns that a start gives to an inverter: those of its last line. -/
def columnsOf (collect id : List Byte) : Option Baseline :=
  (Lines.readLines newline 200 collect).foldl
    (fun columns data => if IsRowOf id data then some (tmpdbColumns data) else columns) none

theorem restored_eq (collect : List Byte) (x : InverterInfo) :
    restored collect x = (columnsOf collect x.id).elim x fun columns => x.restore columns := by
  unfold restored columnsOf
  induction Lines.readLines newline 200 collect using List.reverseRecOn with
  | nil => rfl
  | append_singleton lines data ih =>
    rw [List.foldl_append, List.foldl_append, List.foldl_cons, List.foldl_cons, List.foldl_nil, List.foldl_nil, ih]
    generalize lines.foldl _ none = columns
    rw [restoreLine]
    cases columns with
    | none =>
      by_cases own : IsRowOf x.id data
      · rw [if_pos own, Option.elim_none, if_pos own, Option.elim_some]
      · rw [if_neg own, Option.elim_none, if_neg own]
    | some before =>
      rw [Option.elim_some]
      change (if IsRowOf x.id data then _ else _) = _
      by_cases own : IsRowOf x.id data
      · rw [if_pos own, if_pos own, Option.elim_some]
        rfl
      · rw [if_neg own, if_neg own, Option.elim_some]

/-- A restart slot by slot. -/
theorem restart_zipWith (via : Registration) (disk : Disk) {slots : List InverterInfo}
    (size : slots.length = maxInverterCount) :
    restart via disk slots = List.zipWith (fun l x => restored disk.collect (moved l x)) (load disk.ids) slots := by
  have few : (load disk.ids).length ≤ slots.length := size ▸ load_length disk.ids
  have ids : (List.zipWith moved (load disk.ids) slots).map (fun y => fieldBytes 12 y.id) =
      (load disk.ids).map fun y => fieldBytes 12 y.id :=
    map_zipWith_left moved (fun y => fieldBytes 12 y.id) (fun l x => rfl) few
  rw [restart_eq via disk size, initTmpdb_map disk.collect (ids.symm ▸ load_keys_distinct disk.ids), List.map_zipWith]

theorem restart_hasId (via : Registration) (disk : Disk) (slots : List InverterInfo) :
    ∀ x ∈ restart via disk slots, Record.HasId x.toInverter :=
  initTmpdb_kept (P := fun x => Record.HasId x.toInverter) (fun _ _ _ hasId => hasId) listed_hasId

end Ecu.Poll
