import Ecu.Lib.FirstMatch
import Ecu.Poll.Power
import Ecu.Rows

/-!
# The files of the inverters (`file.c`, `main-thread.c`)

`/home/data/id` holds a row for each inverter, `/home/data/collect.con` one for each inverter with data of the last
round. A start reads both: the ids, models and addresses from the one, the baselines from the other. Rows are texts
with commas; what one side prints the other reads back, the decimals rounded.
-/

namespace Ecu

/-- What is left of a baseline by the decimals of its row. -/
def Baseline.printed (b : Baseline) : Baseline where
  preaccgen := FixedPoint.rounded 6 b.preaccgen
  preaccgenb := FixedPoint.rounded 6 b.preaccgenb
  preaccgenc := FixedPoint.rounded 6 b.preaccgenc
  preaccgend := FixedPoint.rounded 6 b.preaccgend
  preOutputEnergy := FixedPoint.rounded 6 b.preOutputEnergy
  preOutputEnergyb := FixedPoint.rounded 6 b.preOutputEnergyb
  preOutputEnergyc := FixedPoint.rounded 6 b.preOutputEnergyc
  preacctime := b.preacctime

/-- The columns of a baseline that are numbers with decimals. -/
def Baseline.energies (b : Baseline) : List ℚ :=
  [b.preaccgen, b.preaccgenb, b.preaccgenc, b.preaccgend, b.preOutputEnergy, b.preOutputEnergyb, b.preOutputEnergyc]

/-- The range of what the reports of an inverter leave. -/
structure Baseline.Bounded (b : Baseline) : Prop where
  energies : ∀ energy ∈ b.energies, 0 ≤ energy ∧ energy ≤ 20000
  time : 0 ≤ b.preacctime ∧ b.preacctime ≤ 65535

namespace Poll

/-! ## `/home/data/id` -/

def idRow (x : InverterInfo) : List Byte :=
  csvRow [cstr x.id, Decimal.intText x.shortaddr, Decimal.intText x.model, Decimal.intText x.version,
    Decimal.intText x.bindflag, Decimal.intText x.zigbeeVersion, Decimal.intText x.flag]

/-- `updateID`: the file. -/
def updateID (table : List InverterInfo) : List Byte :=
  (table.map idRow).flatten

/-- A line of `get_id_from_file`. The columns are cut to their types. -/
def loadRow (inverters : List InverterInfo) (data : List Byte) : List InverterInfo :=
  let list := splitString data
  let column (k : Nat) : List Byte := list.getD k []
  let number (k : Nat) : Int := if (column k).length = 0 then 0 else Socket.atoi (column k)
  let unsigned (bits k : Nat) : Nat := (number k % 2 ^ bits).toNat
  let known := (inverters.takeWhile fun x => Record.HasId x.toInverter).any fun x =>
    fieldBytes 12 (column 0) = fieldBytes 12 x.id
  if known ∨ inverters.length ≥ maxInverterCount then inverters
  else
    inverters ++ [{
      id := column 0
      shortaddr := unsigned 16 1
      model := unsigned 8 2
      version := number 3
      bindflag := unsigned 1 4
      zigbeeVersion := unsigned 8 5
      flag := unsigned 1 6 }]

/-- `get_id_from_file` -/
def getIdFromFile (file : List Byte) : List InverterInfo :=
  (Lines.readLines newline 200 file).foldl loadRow []

/-! ## `/home/data/collect.con` -/

def tmpdbRow (x : InverterInfo) : List Byte :=
  csvRow [cstr x.id, lf x.preaccgen, lf x.preaccgenb, lf x.preaccgenc, lf x.preaccgend, lf x.preOutputEnergy,
    lf x.preOutputEnergyb, lf x.preOutputEnergyc, Decimal.intText x.preacctime]

/-- `update_tmpdb`: the file, which is emptied first. -/
def updateTmpdb (table : List InverterInfo) : List Byte :=
  ((table.filter (·.dataflag = 1)).map tmpdbRow).flatten

/-- The inverter with this baseline. -/
def InverterInfo.restore (columns : Baseline) (x : InverterInfo) : InverterInfo :=
  { x with
    preaccgen := columns.preaccgen
    preaccgenb := columns.preaccgenb
    preaccgenc := columns.preaccgenc
    preaccgend := columns.preaccgend
    preOutputEnergy := columns.preOutputEnergy
    preOutputEnergyb := columns.preOutputEnergyb
    preOutputEnergyc := columns.preOutputEnergyc
    preacctime := columns.preacctime }

/-- A line of `init_tmpdb`: the first inverter with this id gets the columns. -/
def restoreRow (table : List InverterInfo) (data : List Byte) : List InverterInfo :=
  let list := splitString data
  let column (k : Nat) : List Byte := list.getD k []
  let columns : Baseline :=
    { preaccgen := atof (column 1)
      preaccgenb := atof (column 2)
      preaccgenc := atof (column 3)
      preaccgend := atof (column 4)
      preOutputEnergy := atof (column 5)
      preOutputEnergyb := atof (column 6)
      preOutputEnergyc := atof (column 7)
      preacctime := Socket.atoi (column 8) }
  let restore (x : InverterInfo) : Option InverterInfo :=
    if fieldBytes 12 x.id = fieldBytes 12 (column 0) then some (x.restore columns) else none
  (FirstMatch.modifyFirst restore table).getD table

/-- The columns of a line of `collect.con`. -/
def tmpdbColumns (data : List Byte) : Baseline :=
  let list := splitString data
  let column (k : Nat) : List Byte := list.getD k []
  { preaccgen := atof (column 1)
    preaccgenb := atof (column 2)
    preaccgenc := atof (column 3)
    preaccgend := atof (column 4)
    preOutputEnergy := atof (column 5)
    preOutputEnergyb := atof (column 6)
    preOutputEnergyc := atof (column 7)
    preacctime := Socket.atoi (column 8) }

/-- The line is that of an inverter. -/
def IsRowOf (id data : List Byte) : Prop :=
  fieldBytes 12 id = fieldBytes 12 ((splitString data).getD 0 [])

instance (id data : List Byte) : Decidable (IsRowOf id data) :=
  inferInstanceAs (Decidable (_ = _))

theorem restoreRow_eq (table : List InverterInfo) (data : List Byte) :
    restoreRow table data =
      (FirstMatch.modifyFirst
        (fun x => if IsRowOf x.id data then some (x.restore (tmpdbColumns data)) else none) table).getD table :=
  rfl

/-- `init_tmpdb` -/
def initTmpdb (file : List Byte) (table : List InverterInfo) : List InverterInfo :=
  (Lines.readLines newline 200 file).foldl restoreRow table

/-! ## A start -/

structure Disk where
  ids : List Byte
  collect : List Byte
deriving DecidableEq

/-- The table that `get_id_from_file` leaves in the zeroed memory. -/
def load (ids : List Byte) : List InverterInfo :=
  (getIdFromFile ids).takeWhile fun x => Record.HasId x.toInverter

/-- `init_inverter` and `init_tmpdb` after a power loss. -/
def boot (disk : Disk) : List InverterInfo :=
  initTmpdb disk.collect (load disk.ids)

/-! ## The rows of an inverter -/

/-- Twelve characters that neither end a row nor a field. -/
structure IsId (id : List Byte) : Prop where
  length : id.length = 12
  plain : Plain id

theorem IsId.cstr {id : List Byte} (isId : IsId id) : cstr id = id :=
  cstr_of_clean fun b mem => (isId.plain b mem).1

theorem IsId.hasId {x : InverterInfo} (isId : IsId x.id) : Record.HasId x.toInverter := by
  rw [Record.HasId, strlen, isId.cstr, isId.length]

theorem IsId.fieldBytes {id : List Byte} (isId : IsId id) : fieldBytes 12 id = id := by
  rw [Ecu.fieldBytes]
  exact List.take_left' isId.length

/-- Both rows of an inverter are read in one go. -/
structure Printable (x : InverterInfo) : Prop where
  isId : IsId x.id
  bounded : x.stored.Bounded
  shortaddr : x.shortaddr < 2 ^ 16
  model : x.model < 2 ^ 8
  version : |x.version| < 2 ^ 31
  bindflag : x.bindflag < 2 ^ 1
  zigbeeVersion : x.zigbeeVersion < 2 ^ 8
  flag : x.flag < 2 ^ 1

/-- The columns of the id file in the ranges of their types. -/
structure Listable (x : InverterInfo) : Prop where
  isId : IsId x.id
  shortaddr : x.shortaddr < 2 ^ 16
  model : x.model < 2 ^ 8
  version : -2 ^ 31 ≤ x.version ∧ x.version < 2 ^ 31
  bindflag : x.bindflag < 2 ^ 1
  zigbeeVersion : x.zigbeeVersion < 2 ^ 8
  flag : x.flag < 2 ^ 1

theorem Printable.listable {x : InverterInfo} (printable : Printable x) : Listable x :=
  { printable with version := ⟨(abs_lt.1 printable.version).1.le, (abs_lt.1 printable.version).2⟩ }

theorem tmpdbRow_plain {x : InverterInfo} (isId : IsId x.id) :
    ∀ field ∈ [cstr x.id, lf x.preaccgen, lf x.preaccgenb, lf x.preaccgenc, lf x.preaccgend, lf x.preOutputEnergy,
      lf x.preOutputEnergyb, lf x.preOutputEnergyc, Decimal.intText x.preacctime], Plain field := by
  intro field mem
  simp only [List.mem_cons, List.not_mem_nil, or_false] at mem
  rcases mem with rfl | rfl | rfl | rfl | rfl | rfl | rfl | rfl | rfl
  · rw [isId.cstr]
    exact isId.plain
  all_goals first | exact plain_lf _ | exact plain_intText _

/-- What `update_tmpdb` writes is read back, the decimals rounded. -/
theorem tmpdbRow_columns {x : InverterInfo} (isId : IsId x.id) :
    tmpdbColumns (tmpdbRow x) = x.stored.printed ∧ (splitString (tmpdbRow x)).getD 0 [] = x.id := by
  have fields := splitString_csvRow [cstr x.id, lf x.preaccgen, lf x.preaccgenb, lf x.preaccgenc, lf x.preaccgend,
    lf x.preOutputEnergy, lf x.preOutputEnergyb, lf x.preOutputEnergyc] (Decimal.intText x.preacctime)
    (tmpdbRow_plain isId)
  have number (v : ℚ) : atof (lf v) = FixedPoint.rounded 6 v := by
    have read := atof_lf v stops_nil
    rwa [List.append_nil] at read
  have same : splitString (tmpdbRow x) = _ := fields
  unfold tmpdbColumns
  dsimp only
  rw [same]
  simp only [List.cons_append, List.nil_append, List.getD_cons_zero, List.getD_cons_succ, number,
    atoi_intText x.preacctime (stops_newline []), isId.cstr]
  exact ⟨rfl, trivial⟩

theorem isRowOf_tmpdbRow {x : InverterInfo} (isId : IsId x.id) (id : List Byte) :
    IsRowOf id (tmpdbRow x) ↔ fieldBytes 12 id = x.id := by
  rw [IsRowOf, (tmpdbRow_columns isId).2, isId.fieldBytes]

/-- A line of `init_tmpdb` gives the first inverter with the id of the row the printed baseline. -/
theorem restoreRow_tmpdbRow {x : InverterInfo} (isId : IsId x.id) (table : List InverterInfo) :
    restoreRow table (tmpdbRow x) =
      (FirstMatch.modifyFirst (fun y : InverterInfo =>
        if fieldBytes 12 y.id = x.id then some (y.restore x.stored.printed) else none) table).getD table := by
  have line : (fun y : InverterInfo =>
        if IsRowOf y.id (tmpdbRow x) then some (y.restore (tmpdbColumns (tmpdbRow x))) else none) =
      fun y : InverterInfo => if fieldBytes 12 y.id = x.id then some (y.restore x.stored.printed) else none := by
    funext y
    rw [(tmpdbRow_columns isId).1]
    exact if_congr (isRowOf_tmpdbRow isId y.id) rfl rfl
  rw [restoreRow_eq, line]

theorem lf_length {x : ℚ} (bounds : 0 ≤ x ∧ x ≤ 20000) : (lf x).length ≤ 12 :=
  FixedPoint.print_length_le 6 (k := 5) (n := 20000) (by decide) (by decide) bounds.1 bounds.2

theorem tmpdbRow_isLine {x : InverterInfo} (isId : IsId x.id) (bounded : x.stored.Bounded) :
    Lines.IsLine newline 200 (tmpdbRow x) := by
  apply csvRow_isLine (tmpdbRow_plain isId)
  have energies := bounded.energies
  have width (energy : ℚ) (column : energy ∈ x.stored.energies) := lf_length (energies energy column)
  have first := width x.preaccgen (by simp [Inverter.stored, Baseline.energies])
  have second := width x.preaccgenb (by simp [Inverter.stored, Baseline.energies])
  have third := width x.preaccgenc (by simp [Inverter.stored, Baseline.energies])
  have fourth := width x.preaccgend (by simp [Inverter.stored, Baseline.energies])
  have output := width x.preOutputEnergy (by simp [Inverter.stored, Baseline.energies])
  have outputb := width x.preOutputEnergyb (by simp [Inverter.stored, Baseline.energies])
  have outputc := width x.preOutputEnergyc (by simp [Inverter.stored, Baseline.energies])
  have range := bounded.time
  have time : (Decimal.intText x.preacctime).length ≤ 6 := by
    apply intText_length (w := 5) (by decide)
    change 0 ≤ x.preacctime ∧ x.preacctime ≤ 65535 at range
    omega
  rw [csvRow_length (List.cons_ne_nil _ _)]
  simp only [List.map_cons, List.map_nil, List.sum_cons, List.sum_nil, isId.cstr, isId.length]
  omega

theorem idRow_plain {x : InverterInfo} (isId : IsId x.id) :
    ∀ field ∈ [cstr x.id, Decimal.intText x.shortaddr, Decimal.intText x.model, Decimal.intText x.version,
      Decimal.intText x.bindflag, Decimal.intText x.zigbeeVersion, Decimal.intText x.flag], Plain field := by
  intro field mem
  simp only [List.mem_cons, List.not_mem_nil, or_false] at mem
  rcases mem with rfl | rfl | rfl | rfl | rfl | rfl | rfl
  · rw [isId.cstr]
    exact isId.plain
  all_goals exact plain_intText _

theorem idRow_length {x : InverterInfo} (listable : Listable x) : (idRow x).length < 100 := by
  have column {n : Nat} (small : n < 2 ^ 16) : (Decimal.intText n).length ≤ 6 :=
    intText_length (w := 5) (by decide) (by omega)
  have shortaddr := column listable.shortaddr
  have model := column (lt_trans listable.model (by decide))
  have bindflag := column (lt_trans listable.bindflag (by decide))
  have zigbeeVersion := column (lt_trans listable.zigbeeVersion (by decide))
  have flag := column (lt_trans listable.flag (by decide))
  have range := listable.version
  have version : (Decimal.intText x.version).length ≤ 11 := by
    apply intText_length (w := 10) (by decide)
    omega
  have isId := listable.isId
  have length := csvRow_length (List.cons_ne_nil (cstr x.id) [Decimal.intText x.shortaddr, Decimal.intText x.model,
    Decimal.intText x.version, Decimal.intText x.bindflag, Decimal.intText x.zigbeeVersion, Decimal.intText x.flag])
  simp only [List.map_cons, List.map_nil, List.sum_cons, List.sum_nil, isId.cstr, isId.length] at length
  rw [idRow, isId.cstr, length]
  omega

theorem idRow_isLine {x : InverterInfo} (listable : Listable x) : Lines.IsLine newline 200 (idRow x) :=
  csvRow_isLine (idRow_plain listable.isId) (lt_trans (idRow_length listable) (by decide))

/-- A new entry with the columns of the id file. -/
def fresh (x : InverterInfo) : InverterInfo where
  id := x.id
  shortaddr := x.shortaddr
  model := x.model
  version := x.version
  bindflag := x.bindflag
  zigbeeVersion := x.zigbeeVersion
  flag := x.flag

/-- A column with a number in it. -/
theorem number_column (v : Int) {rest : List Byte} (stops : Stops rest) :
    (if (Decimal.intText v ++ rest).length = 0 then 0 else Socket.atoi (Decimal.intText v ++ rest)) = v := by
  rw [if_neg, atoi_intText v stops]
  rw [List.length_eq_zero_iff]
  exact List.append_ne_nil_of_left_ne_nil (intText_ne_nil v) rest

theorem cut_column {n bits : Nat} (small : n < 2 ^ bits) : ((n : Int) % 2 ^ bits).toNat = n := by
  have cut : (n : Int) % 2 ^ bits = n := by exact_mod_cast Nat.mod_eq_of_lt small
  rw [cut, Int.toNat_natCast]

/-- A line of `get_id_from_file` adds an inverter that is not there yet. -/
theorem loadRow_idRow {x : InverterInfo} (listable : Listable x) {inverters : List InverterInfo}
    (ids : ∀ y ∈ inverters, IsId y.id ∧ y.id ≠ x.id) (room : inverters.length < maxInverterCount) :
    loadRow inverters (idRow x) = inverters ++ [fresh x] := by
  have isId := listable.isId
  have same : splitString (idRow x) = _ := splitString_csvRow [cstr x.id, Decimal.intText x.shortaddr,
    Decimal.intText x.model, Decimal.intText x.version, Decimal.intText x.bindflag, Decimal.intText x.zigbeeVersion]
    (Decimal.intText x.flag) (idRow_plain isId)
  have number (v : Int) :
      (if (Decimal.intText v).length = 0 then 0 else Socket.atoi (Decimal.intText v)) = v := by
    have read := number_column v stops_nil
    rwa [List.append_nil] at read
  have unknown : ¬ ((inverters.takeWhile fun y => Record.HasId y.toInverter).any
      fun y => fieldBytes 12 x.id = fieldBytes 12 y.id) = true := by
    rw [List.any_eq_true]
    rintro ⟨y, mem, equal⟩
    obtain ⟨isId', other⟩ := ids y ((List.takeWhile_prefix _).subset mem)
    rw [decide_eq_true_iff, isId.fieldBytes, isId'.fieldBytes] at equal
    exact other equal.symm
  unfold loadRow
  dsimp only
  rw [same]
  simp only [List.cons_append, List.nil_append, List.getD_cons_zero, List.getD_cons_succ, isId.cstr, number,
    number_column x.flag (stops_newline [])]
  rw [if_neg (not_or.2 ⟨unknown, not_le.2 room⟩), cut_column listable.shortaddr, cut_column listable.model,
    cut_column listable.bindflag, cut_column listable.zigbeeVersion, cut_column listable.flag]
  rfl

end Poll

end Ecu
