import Ecu.Forward.Search
import Ecu.Record.Grammar

/-!
# The buffers of a record

Four constants size the buffers that a record passes through on its way from `protocol_APS18` to the
client: the buffer it is built in, the line buffer of the readers, and the `data` buffer that
`search_readflag` copies the payload to. The first two hold the line of every table; the last one
reserves 104 characters an inverter, less than the block of a YC500 or a YC1000 needs
(`record_capacity_iff`).
-/

namespace Ecu.Record

open Forward

/-! ## Records are texts -/

theorem digit_text {b : Byte} (isDigit : Decimal.IsDigit b) : b ≠ nul ∧ b ≠ newline := by
  constructor <;> rintro rfl <;> exact absurd isDigit (by decide)

theorem isText_digits {bytes : List Byte} (digits : ∀ b ∈ bytes, Decimal.IsDigit b) : IsText bytes :=
  fun b mem => digit_text (digits b mem)

theorem isText_text (n : Nat) : IsText (Decimal.text n) :=
  isText_digits (Decimal.text_digits n)

theorem isText_zeros (k : Nat) : IsText (List.replicate k Decimal.zero) := by
  intro b mem
  rw [List.eq_of_mem_replicate mem]
  decide

theorem Form.isText_print (form : Form) (v : Int) : IsText (form.print v) := by
  have digits := isText_text v.natAbs
  cases form with
  | fixed width =>
    intro b mem
    rcases Decimal.fixed_chars width v b mem with isDigit | rfl
    · exact digit_text isDigit
    · decide
  | temperature =>
    unfold Form.print
    dsimp only
    split_ifs
    · exact IsText.append (by decide) digits
    · exact IsText.append (by decide) digits
    · exact IsText.append (by decide) digits
    · exact IsText.append (by decide) digits
    · exact digits
  | percent03d =>
    unfold Form.print
    dsimp only
    split_ifs
    · exact IsText.append (a := [Decimal.minus]) (by decide) ((isText_zeros _).append digits)
    · exact (isText_zeros _).append digits

theorem isText_number (q : Quantity) (form : Form) (v : Int) : IsText (Field.number q form v).print :=
  form.isText_print v

theorem isText_status (status : List Byte) : IsText (transstatus status).print := by
  intro b mem
  obtain ⟨i, -, rfl⟩ := List.mem_map.1 mem
  split <;> decide

/-- The ids and the time are texts; a time has fourteen digits (`get_time`). -/
structure Texts (ecu : EcuInfo) (table : Table) (datetime : List Byte) : Prop where
  ecuId : IsText (cstr ecu.id)
  ids : ∀ inverter ∈ table.answered, IsText (cstr inverter.id)
  time : IsText datetime
  timeLength : datetime.length = 14

instance (ecu : EcuInfo) (table : Table) (datetime : List Byte) : Decidable (Texts ecu table datetime) :=
  decidable_of_iff (IsText (cstr ecu.id) ∧ (∀ inverter ∈ table.answered, IsText (cstr inverter.id)) ∧
    IsText datetime ∧ datetime.length = 14)
    ⟨fun h => ⟨h.1, h.2.1, h.2.2.1, h.2.2.2⟩, fun h => ⟨h.ecuId, h.ids, h.time, h.timeLength⟩⟩

section Texts

variable (T : Target) {ecu : EcuInfo} {table : Table} {datetime : List Byte}

theorem isText_block {inverter : Inverter} (id : IsText (cstr inverter.id)) :
    ∀ field ∈ block T inverter, IsText field.print := by
  have literal (s : List Byte) (text : IsText s) : IsText (Field.text s).print := text
  have code : IsText (str "05") ∧ IsText (str "03") ∧ IsText (str "04") ∧ IsText (str "07") := by decide
  have panel : IsText (str "A") ∧ IsText (str "B") ∧ IsText (str "END") := by decide
  have channel : IsText (str "1") ∧ IsText (str "2") ∧ IsText (str "3") ∧ IsText (str "4") := by decide
  unfold block
  split_ifs
  all_goals
    simp only [block250, block500, block1000, block600, List.forall_mem_cons, List.not_mem_nil,
      IsEmpty.forall_iff, implies_true, and_true, isText_status, true_and]
    simp only [transgridvolt, transfrequency, transtemperature, transwendu, transreactivepower,
      transactivepower, transcurgen, transdv, transdi, transpower, transsyscurgen, isText_number, true_and]
    simp only [Field.print, id, code, panel, channel, and_self]

theorem isText_headTail (texts : Texts ecu table datetime) :
    ∀ field ∈ headTail T ecu datetime, IsText field.print := by
  have time : IsText (cstr datetime) := by
    rw [cstr_of_clean fun b mem => (texts.time b mem).1]
    exact texts.time
  have zone : IsText (if ecu.zoneflag = 0 then str "0" else str "1") := by
    split <;> decide
  have fill : IsText (str "AAAAAAA1") ∧ IsText (str "00000END") := by decide
  simp only [headTail, header, List.drop_succ_cons, List.drop_zero, List.forall_mem_cons, List.not_mem_nil,
    IsEmpty.forall_iff, implies_true, and_true]
  simp only [transsyspower, transsyscurgen, transltgen, isText_number, true_and]
  simp only [Field.print, texts.ecuId, time, zone, fill, and_self]

theorem isText_lengthField (n : Nat) : IsText (lengthField n) := by
  apply IsText.append _ (isText_text n)
  intro b mem
  rw [List.eq_of_mem_replicate mem]
  decide

theorem isText_flatMap {α : Type} {xs : List α} {f : α → List Byte} (each : ∀ x ∈ xs, IsText (f x)) :
    IsText (xs.flatMap f) := by
  intro b mem
  obtain ⟨x, inList, inText⟩ := List.mem_flatMap.1 mem
  exact each x inList b inText

theorem isText_protocolAPS18 (texts : Texts ecu table datetime)
    (checked : ∀ inverter ∈ table.answered, TemperatureChecked inverter) :
    IsText (protocolAPS18 T ecu table datetime) := by
  rw [protocolAPS18_eq T checked]
  have head := isText_flatMap (isText_headTail T texts)
  have tail : IsText (blocks T table) :=
    isText_flatMap fun inverter mem => isText_flatMap (isText_block T (texts.ids inverter mem))
  exact ((IsText.append (by decide) (isText_lengthField _)).append head).append tail

end Texts

/-! ## The lines of a record -/

section Lines

variable {T : Target} {ecu : EcuInfo} {table : Table} {datetime : List Byte}

theorem Texts.stored (texts : Texts ecu table datetime) (id : strlen ecu.id < 13) : Stored ecu datetime := by
  refine ⟨id, ?_⟩
  rw [strlen_of_clean fun b mem => (texts.time b mem).1, texts.timeLength]
  decide

theorem Texts.widths (texts : Texts ecu table datetime) : [datetime].map List.length = Queue.record.widths := by
  rw [List.map_singleton, texts.timeLength]
  rfl

theorem Texts.keysText (texts : Texts ecu table datetime) : ∀ key ∈ [datetime], IsText key := by
  intro key mem
  rw [List.mem_singleton.1 mem]
  exact texts.time

theorem Texts.long (texts : Texts ecu table datetime) (id : strlen ecu.id < 13)
    (checked : ∀ inverter ∈ table.answered, TemperatureChecked inverter) :
    Queue.record.minPayload ≤ (protocolAPS18 T ecu table datetime).length := by
  rw [protocolAPS18_length T (texts.stored id) checked, roundLength]
  exact (show Queue.minPayload .record ≤ 60 by decide).trans (by omega)

theorem Texts.fits (texts : Texts ecu table datetime) (id : strlen ecu.id < 13)
    (checked : ∀ inverter ∈ table.answered, TemperatureChecked inverter) :
    (protocolAPS18 T ecu table datetime).length + Queue.record.tail < lineBuffer := by
  have bound := roundLength_le table (texts.stored id)
  rw [protocolAPS18_length T (texts.stored id) checked]
  exact lt_of_le_of_lt (Nat.add_le_add_right bound _) (by decide)

/-- The record of a table, as `save_record` puts it into the queue. -/
def savedRecord (T : Target) (texts : Texts ecu table datetime) (id : strlen ecu.id < 13)
    (checked : ∀ inverter ∈ table.answered, TemperatureChecked inverter) : Record .record where
  payload := protocolAPS18 T ecu table datetime
  keys := [datetime]
  flag := digit 1
  payloadText := isText_protocolAPS18 T texts checked
  widths := texts.widths
  keysText := texts.keysText
  isFlag := isFlag_one
  long := texts.long id checked
  fits := texts.fits id checked

theorem savedRecord_payload (texts : Texts ecu table datetime) (id : strlen ecu.id < 13)
    (checked : ∀ inverter ∈ table.answered, TemperatureChecked inverter) :
    (savedRecord T texts id checked).payload.length = 74 + strlen ecu.id +
      (table.answered.map fun inverter => blockWidth inverter.model).sum := by
  have time : strlen datetime = 14 := by
    rw [strlen_of_clean fun b mem => (texts.time b mem).1, texts.timeLength]
  show (protocolAPS18 T ecu table datetime).length = _
  rw [protocolAPS18_length T (texts.stored id) checked, roundLength, time]
  omega

end Lines

/-! ## Capacity -/

/-- The `data` buffer has room for the head, the blocks of these models, and a newline. -/
def FitsData (ecu : EcuInfo) (inverters : List Inverter) : Prop :=
  75 + strlen ecu.id + (75 * (inverters.countP fun i => i.model = 1 ∨ i.model = 2) +
    106 * (inverters.countP fun i => i.model = 3 ∨ i.model = 4) +
    147 * (inverters.countP fun i => i.model = 5 ∨ i.model = 6) +
    88 * (inverters.countP fun i => ¬ (1 ≤ i.model ∧ i.model ≤ 6))) ≤ dataBuffer

instance (ecu : EcuInfo) (inverters : List Inverter) : Decidable (FitsData ecu inverters) :=
  inferInstanceAs (Decidable (_ ≤ _))

/-- The blocks of a table, counted by their models. -/
theorem sum_blockWidth (inverters : List Inverter) :
    (inverters.map fun inverter => blockWidth inverter.model).sum =
      75 * (inverters.countP fun i => i.model = 1 ∨ i.model = 2) +
        106 * (inverters.countP fun i => i.model = 3 ∨ i.model = 4) +
        147 * (inverters.countP fun i => i.model = 5 ∨ i.model = 6) +
        88 * (inverters.countP fun i => ¬ (1 ≤ i.model ∧ i.model ≤ 6)) := by
  induction inverters with
  | nil => rfl
  | cons inverter inverters ih =>
    rw [List.map_cons, List.sum_cons, ih]
    simp only [List.countP_cons, decide_eq_true_eq]
    unfold blockWidth
    split_ifs <;> omega

section Capacity

variable {T : Target} {ecu : EcuInfo} {table : Table} {datetime : List Byte}

theorem payload_fits_iff (texts : Texts ecu table datetime) (id : strlen ecu.id < 13)
    (checked : ∀ inverter ∈ table.answered, TemperatureChecked inverter) :
    (savedRecord T texts id checked).payload.length + 1 ≤ dataBuffer ↔ FitsData ecu table.answered := by
  rw [savedRecord_payload, sum_blockWidth, FitsData]
  constructor <;> intro fits <;> omega

/-- The line fits into the buffer that it is built in. -/
theorem line_lt_recordBuffer (texts : Texts ecu table datetime) (id : strlen ecu.id < 13)
    (checked : ∀ inverter ∈ table.answered, TemperatureChecked inverter) :
    (savedRecord T texts id checked).line.length < recordBuffer := by
  have bound := roundLength_le table (texts.stored id)
  rw [Record.line_length]
  show (protocolAPS18 T ecu table datetime).length + _ < _
  rw [protocolAPS18_length T (texts.stored id) checked]
  exact lt_of_le_of_lt (Nat.add_le_add_right bound _) (by decide)

/-- `memcpy` runs past the end of a buffer when the source is longer. -/
theorem memcpy_length (dst src : List Byte) : (memcpy dst src).length = dst.length ↔ src.length ≤ dst.length := by
  rw [memcpy, List.length_append, List.length_drop]
  omega

/-- What a search copies stays in the `data` buffer exactly when payload and newline fit. -/
theorem search_fits_iff {r : Record .record} {s : Store .record} {p : Place .record} {c : Byte}
    (first : s.FirstWith c p r) :
    (searchReadflag s.render (List.replicate dataBuffer nul) (List.replicate 15 nul) c).data.length = dataBuffer ↔
      r.payload.length + 1 ≤ dataBuffer := by
  obtain ⟨flag, out, -⟩ := searchFlag_fill first (List.replicate dataBuffer nul) [List.replicate 15 nul]
  have cleared : (memset (List.replicate dataBuffer nul) nul 4).length = dataBuffer := by decide +kernel
  have copied := memcpy_length (memset (List.replicate dataBuffer nul) nul 4) (r.payload ++ [newline])
  rw [cleared, List.length_append, List.length_singleton] at copied
  show (searchFlag (Queue.searchParams .record) s.render _ _ c).data.length = _ ↔ _
  rw [out]
  exact copied

/-- The record of every table is one line for every reader, in every buffer but one: the client's
`data` buffer holds its payload exactly when the blocks fit there. -/
theorem record_capacity_iff (T : Target) (ecu : EcuInfo) (table : Table) (datetime : List Byte)
    (texts : Texts ecu table datetime) (id : strlen ecu.id < 13)
    (checked : ∀ inverter ∈ table.answered, TemperatureChecked inverter) :
    ∃ r : Record .record,
      r.line = protocolAPS18 T ecu table datetime ++ comma :: datetime ++ [comma, digit 1, newline] ∧
      r.line.length < recordBuffer ∧ r.line.length < lineBuffer ∧
      (∀ rest, Lines.readLines newline lineBuffer (r.line ++ rest) =
        r.line :: Lines.readLines newline lineBuffer rest) ∧
      ∀ c (isFlag : IsFlag c) s p, Store.FirstWith s c p (r.withFlag c isFlag) →
        ((searchReadflag s.render (List.replicate dataBuffer nul) (List.replicate 15 nul) c).data.length =
          dataBuffer ↔ FitsData ecu table.answered) := by
  refine ⟨savedRecord T texts id checked, ?_, line_lt_recordBuffer texts id checked, ?_, ?_, ?_⟩
  · simp [Record.line, Record.tailBytes, savedRecord]
  · exact (Record.isLine _).fits
  · exact fun rest => Lines.readLines_line (Record.isLine _) rest
  · intro c isFlag s p first
    rw [search_fits_iff first]
    exact payload_fits_iff texts id checked

end Capacity

/-! ## A plant of YC1000 inverters -/

def plantTime : List Byte :=
  str "20170801120000"

def plantEcu : EcuInfo :=
  { id := str "216000000001", lifeEnergy := 0, currentEnergy := 0, systemPower := 0, count := 0, zoneflag := 0
    broadcastTime := plantTime, ecuType := 1 }

def plantInverter : Inverter :=
  { id := str "501000000001", model := 5, dataflag := 1 }

/-- `n` inverters with data. -/
def plant (n : Nat) (few : n ≤ maxInverterCount) : Table where
  entries := List.replicate n plantInverter
  size := by rwa [List.length_replicate]
  behind := by
    have listed : decide (HasId plantInverter) = true := by decide
    intro inverter mem
    rw [List.dropWhile_replicate, if_pos listed] at mem
    cases mem

theorem plant_entries {n : Nat} {few : n ≤ maxInverterCount} {inverter : Inverter}
    (mem : inverter ∈ (plant n few).answered) : inverter = plantInverter :=
  List.eq_of_mem_replicate ((List.takeWhile_prefix _).subset (List.mem_of_mem_filter mem))

theorem plant_checked (n : Nat) (few : n ≤ maxInverterCount) :
    ∀ inverter ∈ (plant n few).answered, TemperatureChecked inverter := by
  intro inverter mem
  rw [plant_entries mem]
  exact ⟨by decide, by decide⟩

theorem plant_texts (n : Nat) (few : n ≤ maxInverterCount) : Texts plantEcu (plant n few) plantTime where
  ecuId := by decide
  ids := by
    intro inverter mem
    rw [plant_entries mem]
    decide
  time := by decide
  timeLength := by decide

theorem record_capacity_plant :
    FitsData plantEcu (plant 85 (by decide)).answered ∧
      ∃ r : Record .record,
        r.line.length < lineBuffer ∧ ∀ c (isFlag : IsFlag c) s p, Store.FirstWith s c p (r.withFlag c isFlag) →
          (searchReadflag s.render (List.replicate dataBuffer nul) (List.replicate 15 nul) c).data.length =
            dataBuffer := by
  have fits : FitsData plantEcu (plant 85 (by decide)).answered := by decide +kernel
  obtain ⟨r, -, -, reads, -, search⟩ := record_capacity_iff sampleTarget plantEcu (plant 85 (by decide)) plantTime
    (plant_texts 85 (by decide)) (by decide) (plant_checked 85 (by decide))
  exact ⟨fits, r, reads, fun c isFlag s p first => (search c isFlag s p first).2 fits⟩

/-- The record of 120 YC1000 inverters runs past the end of the client's buffer. -/
theorem full_plant_overflows :
    (searchReadflag
      (saveRecord [] 0 (protocolAPS18 sampleTarget plantEcu (plant 120 (by decide)) plantTime) plantTime)
      (List.replicate dataBuffer nul) (List.replicate 15 nul) (digit 1)).data.length ≠ dataBuffer := by
  let r := savedRecord sampleTarget (plant_texts 120 (by decide)) (by decide) (plant_checked 120 (by decide))
  let p : Place .record := ⟨[], dayFile plantTime, [.blank], [], []⟩
  have first : Store.FirstWith (p.fill r) (digit 1) p r := ⟨rfl, rfl, by simp [p, Place.preceding]⟩
  have saved : saveRecord [] 0 r.payload plantTime = (p.fill r).render := by
    simp [saveRecord, appendFile, FirstMatch.modifyFirst, p, Place.fill, Store.render, Store.renderFile, Line.bytes,
      Record.line, Record.tailBytes, r, savedRecord]
  have overflow : ¬ FitsData plantEcu (plant 120 (by decide)).answered := by decide +kernel
  show (searchReadflag (saveRecord [] 0 r.payload plantTime) _ _ _).data.length ≠ _
  rw [saved, Ne, search_fits_iff first, payload_fits_iff]
  exact overflow

end Ecu.Record
