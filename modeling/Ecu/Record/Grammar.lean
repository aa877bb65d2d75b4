import Ecu.Lib.Layout
import Ecu.Record.Protocol

/-!
# Reading a record

A reader of APS18 records knows the layouts: the head, and for each type code the fields of a block.
It takes the number of blocks from the head and must use up the text. A record of `protocol_APS18` is
read this way (`read_protocolAPS18`), each number as far as its form has room for it
(`Form.read_print_iff`).
-/

namespace Ecu.Record

open Layout

/-! ## Layouts -/

inductive Slot where
  | text (width : Nat)
  | number (form : Form)
deriving DecidableEq

def Slot.width : Slot → Nat
  | .text width => width
  | .number form => form.width

inductive Shown where
  | text (bytes : List Byte)
  | number (value : Option Int)
deriving DecidableEq

def Slot.read : Slot → List Byte → Shown
  | .text _, bytes => .text bytes
  | .number form, bytes => .number (form.read? bytes)

section Layouts

/-- Reactive power, active power, output energy. -/
def powerSlots : List Slot :=
  [.number (.fixed 5), .number (.fixed 5), .number (.fixed 6)]

/-- Voltage, current, energy and power of a panel after its letter. -/
def panelSlots : List Slot :=
  [.text 1, .number (.fixed 5), .number (.fixed 3), .number (.fixed 6), .number (.fixed 5)]

/-- A phase of a YC1000. -/
def phaseSlots : List Slot :=
  [[.text 1, .number (.fixed 3), .number (.fixed 3)], powerSlots, [.number (.fixed 6), .number (.fixed 5)]].flatten

def layout250 : List Slot :=
  [[.number (.fixed 3), .number (.fixed 5), .number .temperature], powerSlots, panelSlots,
    [.text 11, .text 3]].flatten

def layout500 : List Slot :=
  [[.number (.fixed 3), .number (.fixed 5), .number .temperature], powerSlots, panelSlots, [.text 11],
    panelSlots, [.text 11, .text 3]].flatten

def layout1000 : List Slot :=
  [[.number (.fixed 5), .number (.fixed 5), .number .percent03d], phaseSlots, phaseSlots, phaseSlots,
    [.text 1, .number (.fixed 3), .number (.fixed 6), .number (.fixed 5), .text 3]].flatten

def layout600 : List Slot :=
  [[.number (.fixed 3), .number (.fixed 5), .number .percent03d, .number (.fixed 5), .number (.fixed 5),
    .number (.fixed 10)], panelSlots, panelSlots, [.text 3]].flatten

/-- The fields of a block after its type code. -/
def layout (code : List Byte) : Option (List Slot) :=
  if code = str "05" then some layout250
  else if code = str "03" then some layout500
  else if code = str "04" then some layout1000
  else if code = str "07" then some layout600
  else none

end Layouts

/-! ## The reader -/

structure Block where
  id : List Byte
  code : List Byte
  shown : List Shown
deriving DecidableEq

def readBlock : Reader Byte Block := fun text =>
  match cut [12, 2] text with
  | some ([id, code], rest) =>
    (layout code).bind fun slots =>
      (cut (slots.map Slot.width) rest).map fun (parts, rest) =>
        (⟨id, code, List.zipWith Slot.read slots parts⟩, rest)
  | _ => none

structure Message where
  length : Option Int
  ecuId : List Byte
  systemPower : Option Int
  currentEnergy : Option Int
  lifeEnergy : Option Int
  datetime : List Byte
  count : Option Int
  zone : List Byte
  blocks : List Block
deriving DecidableEq

/-- The five characters of the length. -/
def readLength (text : List Byte) : Option Int :=
  Decimal.read? (text.dropWhile (· = 0x41))

/-- The reader knows how long ids and times are. -/
def readRecord (idLength timeLength : Nat) (text : List Byte) : Option Message :=
  match cut [5, 5, 8, idLength, 10, 10, 10, timeLength, 3, 1, 8] text with
  | some ([aps, length, fill, id, power, energy, life, time, count, zone, tail], rest) =>
    if aps = str "APS18" ∧ fill = str "AAAAAAA1" ∧ tail = str "00000END" then
      (Decimal.read? count).bind fun n =>
        match many readBlock n.toNat rest with
        | some (blocks, []) =>
          some ⟨readLength length, id, Decimal.read? power, Decimal.read? energy, Decimal.read? life, time,
            some n, zone, blocks⟩
        | _ => none
    else none
  | _ => none

/-! ## Fields -/

def Field.slot : Field → Slot
  | .text bytes => .text bytes.length
  | .number _ form _ => .number form

/-- What a reader finds in the place of a field. -/
def Field.shown : Field → Shown
  | .text bytes => .text bytes
  | .number _ form v => .number (form.read? (form.print v))

/-- The field keeps to its place. -/
def Field.Sized (field : Field) : Prop :=
  field.print.length = field.width

theorem Field.sized_text (bytes : List Byte) : (Field.text bytes).Sized :=
  rfl

theorem Field.sized_fixed (q : Quantity) (width : Nat) (v : Int) :
    (Field.number q (.fixed width) v).Sized :=
  Decimal.fixed_length width v

theorem slot_width (field : Field) : field.slot.width = field.width := by
  cases field <;> rfl

theorem slot_read (field : Field) : field.slot.read field.print = field.shown := by
  cases field <;> rfl

/-- The texts of sized fields are cut out by their layout. -/
theorem cut_fields {fields : List Field} (sized : ∀ field ∈ fields, field.Sized) (rest : List Byte) :
    cut ((fields.map Field.slot).map Slot.width) (fields.flatMap Field.print ++ rest) =
      some (fields.map Field.print, rest) := by
  have widths : (fields.map Field.slot).map Slot.width = (fields.map Field.print).map List.length := by
    rw [List.map_map, List.map_map]
    apply List.map_congr_left
    intro field mem
    rw [Function.comp_apply, Function.comp_apply, slot_width, sized field mem]
  rw [widths, List.flatMap_def, cut_flatten]

theorem read_fields (fields : List Field) :
    List.zipWith Slot.read (fields.map Field.slot) (fields.map Field.print) = fields.map Field.shown := by
  rw [List.zipWith_map, List.zipWith_self]
  exact List.map_congr_left fun field _ => slot_read field

/-! ## Blocks -/

/-- The range of temperatures that the check functions establish. -/
def TemperatureChecked (inverter : Inverter) : Prop :=
  -50 ≤ inverter.it ∧ inverter.it ≤ 150

/-- The type code of a model's block. -/
def codeOf (model : Nat) : List Byte :=
  if model = 1 ∨ model = 2 then str "05"
  else if model = 3 ∨ model = 4 then str "03"
  else if model = 5 ∨ model = 6 then str "04"
  else str "07"

/-- The fields after the type code. -/
def fieldsOf (T : Target) (inverter : Inverter) : List Field :=
  (block T inverter).drop 2

def shownBlock (T : Target) (inverter : Inverter) : Block :=
  ⟨cstr inverter.id, codeOf inverter.model, (fieldsOf T inverter).map Field.shown⟩

theorem block_eq (T : Target) (inverter : Inverter) :
    block T inverter = .text (cstr inverter.id) :: .text (codeOf inverter.model) :: fieldsOf T inverter := by
  unfold fieldsOf block codeOf
  split_ifs <;> rfl

theorem layout_codeOf (T : Target) (inverter : Inverter) :
    layout (codeOf inverter.model) = some ((fieldsOf T inverter).map Field.slot) := by
  unfold fieldsOf block codeOf
  split_ifs <;> rfl

theorem codeOf_length (model : Nat) : (codeOf model).length = 2 := by
  unfold codeOf
  split_ifs <;> rfl

theorem sized_temperature {it : Int} (low : -50 ≤ it) (high : it ≤ 150) : (transtemperature it).Sized :=
  (temperature_width_iff it).2 ⟨by omega, by omega⟩

theorem sized_wendu {it : Int} (low : -50 ≤ it) (high : it ≤ 150) : (transwendu it).Sized :=
  (percent03d_width (by omega)).2 (by omega)

/-- Only a temperature can run over its place. -/
theorem block_sized (T : Target) {inverter : Inverter} (checked : TemperatureChecked inverter) :
    ∀ field ∈ block T inverter, field.Sized := by
  have temperature := sized_temperature checked.1 checked.2
  have wendu := sized_wendu checked.1 checked.2
  unfold block
  split_ifs
  all_goals
    simp only [block250, block500, block1000, block600, List.forall_mem_cons, List.not_mem_nil,
      IsEmpty.forall_iff, implies_true, and_true, temperature, wendu, true_and]
    simp only [transgridvolt, transfrequency, transreactivepower, transactivepower, transcurgen, transdv,
      transdi, transpower, transstatus, transsyscurgen, Field.sized_text, Field.sized_fixed, and_self]

theorem read_block (T : Target) {inverter : Inverter} (hasId : HasId inverter)
    (checked : TemperatureChecked inverter) (rest : List Byte) :
    readBlock ((block T inverter).flatMap Field.print ++ rest) = some (shownBlock T inverter, rest) := by
  have sized : ∀ field ∈ fieldsOf T inverter, field.Sized := fun field mem =>
    block_sized T checked field (List.mem_of_mem_drop mem)
  have code := codeOf_length inverter.model
  have front := cut_flatten [cstr inverter.id, codeOf inverter.model]
    ((fieldsOf T inverter).flatMap Field.print ++ rest)
  have text : (block T inverter).flatMap Field.print ++ rest =
      [cstr inverter.id, codeOf inverter.model].flatten ++
        ((fieldsOf T inverter).flatMap Field.print ++ rest) := by
    rw [block_eq]
    simp [Field.print]
  have widths : [cstr inverter.id, codeOf inverter.model].map List.length = [12, 2] := by
    rw [List.map_cons, List.map_cons, code, show (cstr inverter.id).length = 12 from hasId, List.map_nil]
  rw [widths] at front
  unfold readBlock
  rw [text, front]
  dsimp only
  rw [layout_codeOf T inverter, Option.bind_some, cut_fields sized, Option.map_some]
  dsimp only
  rw [read_fields]
  rfl

/-- The width of a block, by its model. -/
def blockWidth (model : Nat) : Nat :=
  if model = 1 ∨ model = 2 then 75
  else if model = 3 ∨ model = 4 then 106
  else if model = 5 ∨ model = 6 then 147
  else 88

theorem layout_width (model : Nat) :
    (layout (codeOf model)).map (fun slots => 14 + (slots.map Slot.width).sum) = some (blockWidth model) := by
  unfold codeOf blockWidth
  split_ifs <;> rfl

theorem print_length {fields : List Field} (sized : ∀ field ∈ fields, field.Sized) :
    (fields.flatMap Field.print).length = (fields.map Field.width).sum := by
  rw [List.length_flatMap]
  congr 1
  exact List.map_congr_left sized

theorem block_length (T : Target) {inverter : Inverter} (hasId : HasId inverter)
    (checked : TemperatureChecked inverter) :
    ((block T inverter).flatMap Field.print).length = blockWidth inverter.model := by
  have id : (cstr inverter.id).length = 12 := hasId
  have code := codeOf_length inverter.model
  have slots : ((fieldsOf T inverter).map Field.slot).map Slot.width = (fieldsOf T inverter).map Field.width := by
    rw [List.map_map]
    exact List.map_congr_left fun field _ => slot_width field
  have width := layout_width inverter.model
  rw [layout_codeOf T inverter, Option.map_some, Option.some_inj, slots] at width
  rw [print_length (block_sized T checked), block_eq, List.map_cons, List.map_cons, List.sum_cons, List.sum_cons,
    Field.width, Field.width, id, code, ← width]
  omega

/-! ## The record -/

/-- The strings of the head fit into their buffers. -/
structure Stored (ecu : EcuInfo) (datetime : List Byte) : Prop where
  id : strlen ecu.id < 13
  time : strlen datetime < 16

/-- The length of a record, by the models of its blocks. -/
def roundLength (ecu : EcuInfo) (table : Table) (datetime : List Byte) : Nat :=
  60 + strlen ecu.id + strlen datetime + (table.answered.map fun inverter => blockWidth inverter.model).sum

theorem roundLength_le {ecu : EcuInfo} (table : Table) {datetime : List Byte} (stored : Stored ecu datetime) :
    roundLength ecu table datetime ≤ 17727 := by
  have count := table.answered_length
  have id := stored.id
  have time := stored.time
  have widest : ∀ w ∈ table.answered.map fun inverter => blockWidth inverter.model, w ≤ 147 := by
    intro w mem
    obtain ⟨inverter, -, rfl⟩ := List.mem_map.1 mem
    unfold blockWidth
    split_ifs <;> decide
  have blocks := List.sum_le_card_nsmul _ 147 widest
  rw [List.length_map, nsmul_eq_mul, Nat.cast_id] at blocks
  unfold maxInverterCount at count
  unfold roundLength
  omega

theorem lengthField_length {n : Nat} (small : n < 100000) : (lengthField n).length = 5 := by
  have short := (Decimal.length_text_le_iff (n := n) (w := 5) (by decide)).2 small
  rw [lengthField, List.length_append, List.length_replicate]
  omega

theorem drop_fill (k : Nat) {digits : List Byte} (isDigit : ∀ b ∈ digits, Decimal.IsDigit b) :
    (List.replicate k 0x41 ++ digits).dropWhile (· = 0x41) = digits := by
  induction k with
  | succ k ih => exact ih
  | zero =>
    cases digits with
    | nil => rfl
    | cons b digits =>
      have notA : b ≠ 0x41 := by
        rintro rfl
        exact absurd (isDigit _ List.mem_cons_self) (by decide)
      exact List.dropWhile_cons_of_neg (by simpa using notA)

theorem read_lengthField (n : Nat) : readLength (lengthField n) = some (n : Int) := by
  rw [readLength, lengthField, drop_fill _ (Decimal.text_digits n), Decimal.read_text]

variable (T : Target) (ecu : EcuInfo) (table : Table) (datetime : List Byte)

/-- The blocks of a record. -/
def blocks : List Byte :=
  table.answered.flatMap fun inverter => (block T inverter).flatMap Field.print

variable {ecu table datetime}

theorem blocks_length (checked : ∀ inverter ∈ table.answered, TemperatureChecked inverter) :
    (blocks T table).length = (table.answered.map fun inverter => blockWidth inverter.model).sum := by
  rw [blocks, List.length_flatMap]
  congr 1
  apply List.map_congr_left
  intro inverter mem
  exact block_length T (Table.hasId mem) (checked inverter mem)

/-- The head behind its length. -/
def headTail (ecu : EcuInfo) (datetime : List Byte) : List Field :=
  (header T [] ecu datetime).drop 2

theorem header_print (length : List Byte) :
    (header T length ecu datetime).flatMap Field.print =
      str "APS18" ++ length ++ (headTail T ecu datetime).flatMap Field.print := by
  rw [List.append_assoc]
  rfl

theorem headTail_length :
    ((headTail T ecu datetime).flatMap Field.print).length = 50 + strlen ecu.id + strlen datetime := by
  have zone : (if ecu.zoneflag = 0 then str "0" else str "1").length = 1 := by
    split <;> rfl
  simp only [headTail, header, List.drop_succ_cons, List.drop_zero, List.flatMap_cons, List.flatMap_nil,
    List.length_append, transsyspower, transsyscurgen, transltgen, Field.print, Form.print,
    Decimal.fixed_length, zone, strlen, show (str "AAAAAAA1").length = 8 from rfl,
    show (str "00000END").length = 8 from rfl, List.length_nil]
  omega

/-- The record, with its length in place. -/
theorem protocolAPS18_eq (checked : ∀ inverter ∈ table.answered, TemperatureChecked inverter) :
    protocolAPS18 T ecu table datetime =
      str "APS18" ++ lengthField (roundLength ecu table datetime) ++
        (headTail T ecu datetime).flatMap Field.print ++ blocks T table := by
  have total : ((header T (str "00000") ecu datetime).flatMap Field.print ++ blocks T table).length =
      roundLength ecu table datetime := by
    rw [List.length_append, header_print, List.length_append, headTail_length, blocks_length T checked,
      show (str "APS18" ++ str "00000").length = 10 from rfl, roundLength]
    omega
  rw [protocolAPS18, patchLength]
  change List.take 5 ((header T (str "00000") ecu datetime).flatMap Field.print ++ blocks T table) ++
    lengthField ((header T (str "00000") ecu datetime).flatMap Field.print ++ blocks T table).length ++
    List.drop 10 ((header T (str "00000") ecu datetime).flatMap Field.print ++ blocks T table) = _
  rw [total, header_print, List.append_assoc (str "APS18" ++ str "00000"),
    List.drop_left' (show (str "APS18" ++ str "00000").length = 10 from rfl), List.append_assoc (str "APS18"),
    List.take_left' (show (str "APS18").length = 5 from rfl)]
  simp only [List.append_assoc]

theorem protocolAPS18_length (stored : Stored ecu datetime)
    (checked : ∀ inverter ∈ table.answered, TemperatureChecked inverter) :
    (protocolAPS18 T ecu table datetime).length = roundLength ecu table datetime := by
  have bound := roundLength_le table stored
  rw [protocolAPS18_eq T checked, List.length_append, List.length_append, List.length_append,
    lengthField_length (by omega), headTail_length, blocks_length T checked, roundLength,
    show (str "APS18").length = 5 from rfl]
  omega

/-- What a reader finds in a record: every field in its place. -/
def shownMessage (ecu : EcuInfo) (table : Table) (datetime : List Byte) : Message where
  length := some (roundLength ecu table datetime)
  ecuId := cstr ecu.id
  systemPower := Decimal.read? (transsyspower ecu.systemPower).print
  currentEnergy := Decimal.read? (transsyscurgen T .currentEnergy ecu.currentEnergy).print
  lifeEnergy := Decimal.read? (transltgen T (ecu.lifeEnergy * 10)).print
  datetime := cstr datetime
  count := some ecu.count
  zone := if ecu.zoneflag = 0 then str "0" else str "1"
  blocks := table.answered.map (shownBlock T)

/-- A record is read as it was built, when its count is that of the answered inverters. -/
theorem read_protocolAPS18 (stored : Stored ecu datetime)
    (checked : ∀ inverter ∈ table.answered, TemperatureChecked inverter)
    (counted : ecu.count = table.answered.length) :
    readRecord (strlen ecu.id) (strlen datetime) (protocolAPS18 T ecu table datetime) =
      some (shownMessage T ecu table datetime) := by
  have bound := roundLength_le table stored
  have five := lengthField_length (n := roundLength ecu table datetime) (by omega)
  have zone : (if ecu.zoneflag = 0 then str "0" else str "1").length = 1 := by
    split <;> rfl
  have front := cut_flatten [str "APS18", lengthField (roundLength ecu table datetime), str "AAAAAAA1",
    cstr ecu.id, (transsyspower ecu.systemPower).print,
    (transsyscurgen T .currentEnergy ecu.currentEnergy).print, (transltgen T (ecu.lifeEnergy * 10)).print,
    cstr datetime, Decimal.fixed 3 ecu.count, if ecu.zoneflag = 0 then str "0" else str "1", str "00000END"]
    (blocks T table)
  have few : ecu.count < 1000 := by
    have most := table.answered_length
    unfold maxInverterCount at most
    omega
  have count : Decimal.read? (Decimal.fixed 3 ecu.count) = some (ecu.count : Int) :=
    (Decimal.read_fixed_iff (by decide) _).2 ⟨Int.natCast_nonneg _, by omega⟩
  have many : many readBlock table.answered.length (blocks T table) =
      some (table.answered.map (shownBlock T), []) := by
    have reads := many_flatMap readBlock (fun inverter => (block T inverter).flatMap Field.print) (shownBlock T)
      table.answered (fun inverter mem rest => read_block T (Table.hasId mem) (checked inverter mem) rest) []
    rwa [List.append_nil] at reads
  have text : protocolAPS18 T ecu table datetime = _ :=
    protocolAPS18_eq T checked
  have parts : str "APS18" ++ lengthField (roundLength ecu table datetime) ++
      (headTail T ecu datetime).flatMap Field.print = List.flatten [str "APS18",
        lengthField (roundLength ecu table datetime), str "AAAAAAA1", cstr ecu.id,
        (transsyspower ecu.systemPower).print, (transsyscurgen T .currentEnergy ecu.currentEnergy).print,
        (transltgen T (ecu.lifeEnergy * 10)).print, cstr datetime, Decimal.fixed 3 ecu.count,
        if ecu.zoneflag = 0 then str "0" else str "1", str "00000END"] := by
    simp [headTail, header, Field.print, Form.print]
  simp only [List.map_cons, List.map_nil, five, zone, transsyspower, transsyscurgen, transltgen, Field.print,
    Form.print, Decimal.fixed_length, show (str "APS18").length = 5 from rfl,
    show (str "AAAAAAA1").length = 8 from rfl, show (str "00000END").length = 8 from rfl] at front parts
  rw [← parts] at front
  unfold readRecord
  rw [text, strlen, strlen, front]
  dsimp only
  rw [if_pos ⟨rfl, rfl, rfl⟩, count, Option.bind_some, Int.toNat_natCast, counted, many]
  dsimp only
  rw [read_lengthField, ← counted]
  rfl

end Ecu.Record
