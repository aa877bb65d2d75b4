import Ecu.Record.Fields

/-!
# The record of a round (`protocol_APS18`)

After a round the main loop sums up the answered inverters (`getalldata`) and writes one record: a head
and a block for each inverter with data, laid out by its model. The length is patched in last.
-/

namespace Ecu.Record

/-! ## The table of inverters -/

def HasId (inverter : Inverter) : Prop :=
  strlen inverter.id = 12

instance (inverter : Inverter) : Decidable (HasId inverter) :=
  inferInstanceAs (Decidable (_ = _))

/-- The inverters of the ECU. `get_id_from_file` fills the table from the front; a round asks only the
entries before the first one without an id, so behind it there is no data. -/
structure Table where
  entries : List Inverter
  size : entries.length ≤ maxInverterCount
  behind : ∀ inverter ∈ entries.dropWhile (HasId ·), inverter.dataflag ≠ 1

namespace Table

/-- The entries that the loops run over. -/
def listed (table : Table) : List Inverter :=
  table.entries.takeWhile (HasId ·)

/-- Those with data of this round. -/
def answered (table : Table) : List Inverter :=
  table.listed.filter fun inverter => inverter.dataflag = 1

theorem hasId {table : Table} {inverter : Inverter} (mem : inverter ∈ table.answered) : HasId inverter := by
  have inListed := (List.mem_filter.1 mem).1
  simpa using List.mem_takeWhile_imp inListed

theorem answered_length (table : Table) : table.answered.length ≤ maxInverterCount :=
  calc table.answered.length ≤ table.listed.length := List.length_filter_le _ _
    _ ≤ table.entries.length := (List.takeWhile_prefix _).length_le
    _ ≤ maxInverterCount := table.size

end Table

/-- What `getalldata` sums up after its rounds of questions. -/
def getalldata (ecu : EcuInfo) (table : Table) : EcuInfo :=
  let energy (inverter : Inverter) : ℚ :=
    if inverter.model = 5 ∨ inverter.model = 6 ∨ inverter.model = 7 then
      inverter.curgeneration + inverter.curgenerationb + inverter.curgenerationc + inverter.curgenerationd
    else inverter.outputEnergy + inverter.outputEnergyb + inverter.outputEnergyc
  { ecu with
    count := (table.entries.filter fun inverter => inverter.dataflag = 1 ∧ HasId inverter).length
    systemPower := (table.answered.map fun inverter =>
      inverter.op + inverter.opb + inverter.opc + inverter.opd).sum
    currentEnergy := (table.answered.map energy).sum }

/-- The ECU when the main loop builds the record of a round: it has added the energy of the round to
the life time's. -/
def afterRound (ecu : EcuInfo) (table : Table) : EcuInfo :=
  let ecu := getalldata ecu table
  { ecu with lifeEnergy := ecu.lifeEnergy + ecu.currentEnergy }

/-! ## Blocks -/

section Blocks

variable (T : Target)

/-- YC250 -/
def block250 (inverter : Inverter) : List Field :=
  [.text (cstr inverter.id), .text (str "05"),
    transgridvolt .gv inverter.gv,
    transfrequency T (inverter.gf * 10),
    transtemperature inverter.it,
    transreactivepower T inverter.reactivePower,
    transactivepower T inverter.activePower,
    transcurgen T .outputEnergy (inverter.outputEnergy * 1000000),
    .text (str "A"),
    transdv T inverter.dv,
    transdi T inverter.di,
    transcurgen T .curgeneration (inverter.curgeneration * 1000000),
    transpower inverter.op,
    transstatus inverter.status,
    .text (str "END")]

/-- YC500 -/
def block500 (inverter : Inverter) : List Field :=
  [.text (cstr inverter.id), .text (str "03"),
    transgridvolt .gv inverter.gv,
    transfrequency T (inverter.gf * 10),
    transtemperature inverter.it,
    transreactivepower T inverter.reactivePower,
    transactivepower T inverter.activePower,
    transcurgen T .outputEnergy (inverter.outputEnergy * 1000000),
    .text (str "A"),
    transdv T inverter.dv,
    transdi T inverter.di,
    transcurgen T .curgeneration (inverter.curgeneration * 1000000),
    transpower inverter.op,
    transstatus inverter.status,
    .text (str "B"),
    transdv T inverter.dvb,
    transdi T inverter.dib,
    transcurgen T .curgeneration (inverter.curgenerationb * 1000000),
    transpower inverter.opb,
    transstatus inverter.statusb,
    .text (str "END")]

/-- YC1000 -/
def block1000 (inverter : Inverter) : List Field :=
  [.text (cstr inverter.id), .text (str "04"),
    transdv T inverter.dv,
    transfrequency T (inverter.gf * 10),
    transwendu inverter.it,
    .text (str "1"),
    transdi T inverter.di,
    transgridvolt .gv inverter.gv,
    transreactivepower T inverter.reactivePower,
    transactivepower T inverter.activePower,
    transcurgen T .outputEnergy (inverter.outputEnergy * 1000000),
    transcurgen T .curgeneration (inverter.curgeneration * 1000000),
    transpower inverter.op,
    .text (str "2"),
    transdi T inverter.dib,
    transgridvolt .gvb inverter.gvb,
    transreactivepower T inverter.reactivePowerb,
    transactivepower T inverter.activePowerb,
    transcurgen T .outputEnergy (inverter.outputEnergyb * 1000000),
    transcurgen T .curgeneration (inverter.curgenerationb * 1000000),
    transpower inverter.opb,
    .text (str "3"),
    transdi T inverter.dic,
    transgridvolt .gvc inverter.gvc,
    transreactivepower T inverter.reactivePowerc,
    transactivepower T inverter.activePowerc,
    transcurgen T .outputEnergy (inverter.outputEnergyc * 1000000),
    transcurgen T .curgeneration (inverter.curgenerationc * 1000000),
    transpower inverter.opc,
    .text (str "4"),
    transdi T inverter.did,
    transcurgen T .curgeneration (inverter.curgenerationd * 1000000),
    transpower inverter.opd,
    .text (str "END")]

/-- YC600, and any other model -/
def block600 (inverter : Inverter) : List Field :=
  [.text (cstr inverter.id), .text (str "07"),
    transgridvolt .gv inverter.gv,
    transfrequency T (inverter.gf * 10),
    transwendu inverter.it,
    transreactivepower T inverter.reactivePower,
    transactivepower T inverter.activePower,
    transsyscurgen T .outputEnergy inverter.outputEnergy,
    .text (str "1"),
    transdv T (inverter.dv * 10),
    transdi T (inverter.di * 10),
    transcurgen T .curgeneration (inverter.curgeneration * 1000000),
    transpower inverter.op,
    .text (str "2"),
    transdv T (inverter.dvb * 10),
    transdi T (inverter.dib * 10),
    transcurgen T .curgeneration (inverter.curgenerationb * 1000000),
    transpower inverter.opb,
    .text (str "END")]

def block (inverter : Inverter) : List Field :=
  if inverter.model = 1 ∨ inverter.model = 2 then block250 T inverter
  else if inverter.model = 3 ∨ inverter.model = 4 then block500 T inverter
  else if inverter.model = 5 ∨ inverter.model = 6 then block1000 T inverter
  else block600 T inverter

/-! ## The record -/

/-- The head, around the five characters of the length. The count has at most three digits, as a table has
at most 120 inverters. -/
def header (length : List Byte) (ecu : EcuInfo) (sendcommanddatetime : List Byte) : List Field :=
  [.text (str "APS18"), .text length, .text (str "AAAAAAA1"),
    .text (cstr ecu.id),
    transsyspower ecu.systemPower,
    transsyscurgen T .currentEnergy ecu.currentEnergy,
    transltgen T (ecu.lifeEnergy * 10),
    .text (cstr sendcommanddatetime),
    .number .count (.fixed 3) ecu.count,
    .text (if ecu.zoneflag = 0 then str "0" else str "1"),
    .text (str "00000END")]

/-- The length in five characters, with `A` on the left. -/
def lengthField (n : Nat) : List Byte :=
  List.replicate (5 - (Decimal.text n).length) 0x41 ++ Decimal.text n

/-- The characters 5 to 9 become the length. -/
def patchLength (buff : List Byte) : List Byte :=
  buff.take 5 ++ lengthField buff.length ++ buff.drop 10

def protocolAPS18 (ecu : EcuInfo) (table : Table) (sendcommanddatetime : List Byte) : List Byte :=
  patchLength ((header T (str "00000") ecu sendcommanddatetime).flatMap Field.print ++
    table.answered.flatMap fun inverter => (block T inverter).flatMap Field.print)

/-- The record that the main loop saves after a round. -/
def roundRecord (ecu : EcuInfo) (table : Table) : List Byte :=
  protocolAPS18 T (afterRound ecu table) table ecu.broadcastTime

end Blocks

end Ecu.Record
