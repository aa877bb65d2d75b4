import Ecu.Inverter.Ranges
import Ecu.Record.Grammar

/-!
# The record of a round decodes

For a table whose answered inverters were produced by the resolve functions, the record that the main loop
builds is read back whole: length, count, and every block by its model's layout. A quantity that
decoding and checks keep in a range always has room in its field (`block_ranged`). The other
quantities are cut by the width when they are too long, which the encoders provide for; their fields
decode exactly when they are not.
-/

namespace Ecu.Record

/-- The quantities that decoding, checks or the size of the table keep within their fields. -/
def Quantity.Ranged : Quantity → Prop
  | .count | .gv | .frequency | .temperature | .dv | .di | .curgeneration | .power => True
  | .systemPower | .currentEnergy | .lifeEnergy | .gvb | .gvc => False
  | .reactivePower | .activePower | .outputEnergy => False

/-- A ranged quantity has room. -/
def Field.Ranged : Field → Prop
  | .text _ => True
  | .number q form v => q.Ranged → form.Fits v

/-- The number of a field decodes exactly when its form has room for it. -/
def Field.Decodes : Field → Prop
  | .text _ => True
  | .number _ form v => form.read? (form.print v) = some v ↔ form.Fits v

/-- A field that keeps to its place decodes when it has room, and only then. -/
theorem Field.Sized.decodes {field : Field} (sized : field.Sized) : field.Decodes := by
  cases field with
  | text bytes => trivial
  | number q form v =>
    have exactly := form.read_print_iff v
    have width : (form.print v).length = form.width := sized
    exact ⟨fun reads => exactly.1 ⟨reads, width⟩, fun fits => (exactly.2 fits).1⟩

/-! ## Ranges of the fields -/

section Ranges

variable (T : Target)

theorem transdv_ranged {dv : ℚ} (nonneg : 0 ≤ dv) (le : dv ≤ 15000) : (transdv T dv).Ranged := by
  intro _
  have range := T.toInt_mem (n := 15000) (by decide) nonneg (by exact_mod_cast le)
  exact ⟨by decide, range.1, by norm_num; omega⟩

theorem transdi_ranged {di : ℚ} (nonneg : 0 ≤ di) (le : di ≤ 275) : (transdi T di).Ranged := by
  intro _
  have range := T.toInt_mem (n := 275) (by decide) nonneg (by exact_mod_cast le)
  exact ⟨by decide, range.1, by norm_num; omega⟩

theorem transfrequency_ranged {gf : ℚ} (checked : 0 ≤ gf ∧ gf ≤ 65) : (transfrequency T (gf * 10)).Ranged := by
  intro _
  have range := T.toInt_mem (x := gf * 10) (n := 650) (by decide) (by linarith [checked.1])
    (by norm_num; linarith [checked.2])
  exact ⟨by decide, range.1, by norm_num; omega⟩

theorem transcurgen_ranged (q : Quantity) {gen : ℚ} (checked : 0 ≤ gen ∧ gen ≤ maxCurgeneration) :
    (transcurgen T q (gen * 1000000)).Ranged := by
  intro _
  have upper := checked.2
  norm_num [maxCurgeneration] at upper
  have range := T.toInt_mem (x := gen * 1000000) (n := 999999) (by decide) (by linarith [checked.1])
    (by norm_num; linarith)
  exact ⟨by decide, range.1, by norm_num; omega⟩

theorem transpower_ranged {op : Int} (checked : 0 ≤ op ∧ op ≤ 500) : (transpower op).Ranged := by
  intro _
  exact ⟨by decide, by omega, by norm_num; omega⟩

theorem transgridvolt_ranged (q : Quantity) {gv : Int} (checked : 0 ≤ gv ∧ gv ≤ 298) :
    (transgridvolt q gv).Ranged := by
  intro _
  exact ⟨by decide, by omega, by norm_num; omega⟩

theorem transtemperature_ranged {it : Int} (checked : -50 ≤ it ∧ it ≤ 150) : (transtemperature it).Ranged := by
  intro _
  exact ⟨by omega, by omega⟩

theorem transwendu_ranged {it : Int} (checked : -50 ≤ it ∧ it ≤ 150) : (transwendu it).Ranged := by
  intro _
  exact ⟨by omega, by omega⟩

theorem unranged {q : Quantity} (out : ¬ q.Ranged) (form : Form) (v : Int) : (Field.number q form v).Ranged :=
  fun ranged => absurd ranged out

variable {T}

theorem block1000_ranged {inverter : Inverter} (checked : Checked1000 inverter) :
    ∀ field ∈ block1000 T inverter, field.Ranged := by
  have current {di : ℚ} (range : 0 ≤ di ∧ di ≤ 150) : (transdi T di).Ranged :=
    transdi_ranged T range.1 (by linarith [range.2])
  simp only [block1000, List.forall_mem_cons, List.not_mem_nil, IsEmpty.forall_iff, implies_true, and_true]
  refine ⟨trivial, trivial, transdv_ranged T checked.dv.1 (by linarith [checked.dv.2]),
    transfrequency_ranged T checked.gf, transwendu_ranged checked.it, ?_⟩
  refine ⟨trivial, current checked.di, transgridvolt_ranged _ checked.gv, unranged id _ _, unranged id _ _,
    unranged id _ _, transcurgen_ranged T _ checked.curgeneration, transpower_ranged checked.op, ?_⟩
  refine ⟨trivial, current checked.dib, unranged id _ _, unranged id _ _, unranged id _ _,
    unranged id _ _, transcurgen_ranged T _ checked.curgenerationb, transpower_ranged checked.opb, ?_⟩
  refine ⟨trivial, current checked.dic, unranged id _ _, unranged id _ _, unranged id _ _,
    unranged id _ _, transcurgen_ranged T _ checked.curgenerationc, transpower_ranged checked.opc, ?_⟩
  exact ⟨trivial, current checked.did, transcurgen_ranged T _ checked.curgenerationd,
    transpower_ranged checked.opd, trivial⟩

theorem block250_ranged {inverter : Inverter} (ranges : Ranges600 inverter) :
    ∀ field ∈ block250 T inverter, field.Ranged := by
  simp only [block250, List.forall_mem_cons, List.not_mem_nil, IsEmpty.forall_iff, implies_true, and_true]
  refine ⟨trivial, trivial, transgridvolt_ranged _ ranges.gv, transfrequency_ranged T ranges.gf,
    transtemperature_ranged ranges.it, unranged id _ _, unranged id _ _, unranged id _ _, ?_⟩
  exact ⟨trivial, transdv_ranged T ranges.dv.1 (by linarith [ranges.dv.2]),
    transdi_ranged T ranges.di.1 (by linarith [ranges.di.2]), transcurgen_ranged T _ ranges.curgeneration,
    transpower_ranged ranges.op, trivial, trivial⟩

theorem block500_ranged {inverter : Inverter} (ranges : Ranges600 inverter) :
    ∀ field ∈ block500 T inverter, field.Ranged := by
  simp only [block500, List.forall_mem_cons, List.not_mem_nil, IsEmpty.forall_iff, implies_true, and_true]
  refine ⟨trivial, trivial, transgridvolt_ranged _ ranges.gv, transfrequency_ranged T ranges.gf,
    transtemperature_ranged ranges.it, unranged id _ _, unranged id _ _, unranged id _ _, ?_⟩
  refine ⟨trivial, transdv_ranged T ranges.dv.1 (by linarith [ranges.dv.2]),
    transdi_ranged T ranges.di.1 (by linarith [ranges.di.2]), transcurgen_ranged T _ ranges.curgeneration,
    transpower_ranged ranges.op, trivial, ?_⟩
  exact ⟨trivial, transdv_ranged T ranges.dvb.1 (by linarith [ranges.dvb.2]),
    transdi_ranged T ranges.dib.1 (by linarith [ranges.dib.2]), transcurgen_ranged T _ ranges.curgenerationb,
    transpower_ranged ranges.opb, trivial, trivial⟩

theorem block600_ranged {inverter : Inverter} (ranges : Ranges600 inverter) :
    ∀ field ∈ block600 T inverter, field.Ranged := by
  simp only [block600, List.forall_mem_cons, List.not_mem_nil, IsEmpty.forall_iff, implies_true, and_true]
  refine ⟨trivial, trivial, transgridvolt_ranged _ ranges.gv, transfrequency_ranged T ranges.gf,
    transwendu_ranged ranges.it, unranged id _ _, unranged id _ _, unranged id _ _, ?_⟩
  refine ⟨trivial, transdv_ranged T (by linarith [ranges.dv.1]) (by linarith [ranges.dv.2]),
    transdi_ranged T (by linarith [ranges.di.1]) (by linarith [ranges.decodedDi]),
    transcurgen_ranged T _ ranges.curgeneration, transpower_ranged ranges.op, ?_⟩
  exact ⟨trivial, transdv_ranged T (by linarith [ranges.dvb.1]) (by linarith [ranges.dvb.2]),
    transdi_ranged T (by linarith [ranges.dib.1]) (by linarith [ranges.decodedDib]),
    transcurgen_ranged T _ ranges.curgenerationb, transpower_ranged ranges.opb, trivial⟩

/-- Every ranged quantity of a produced inverter has room in its block. -/
theorem block_ranged {inverter : Inverter} (produced : Produced T inverter) :
    ∀ field ∈ block T inverter, field.Ranged := by
  unfold block
  rcases produced.ranges with ⟨model, checked⟩ | ⟨model, ranges⟩
  · rw [if_neg (by rcases model with model | model <;> omega),
      if_neg (by rcases model with model | model <;> omega),
        if_pos (show inverter.model = 5 ∨ inverter.model = 6 from model)]
    exact block1000_ranged checked
  · split_ifs with yc250 yc500 yc1000
    · exact block250_ranged ranges
    · exact block500_ranged ranges
    · exact absurd yc1000 model
    · exact block600_ranged ranges

end Ranges

/-! ## The whole record -/

theorem getalldata_count (ecu : EcuInfo) (table : Table) :
    (getalldata ecu table).count = table.answered.length := by
  have front : table.listed.filter (fun inverter => inverter.dataflag = 1 ∧ HasId inverter) = table.answered := by
    apply List.filter_congr
    intro inverter mem
    have hasId : HasId inverter := by simpa using List.mem_takeWhile_imp mem
    simp only [hasId, and_true]
  have behind : (table.entries.dropWhile (HasId ·)).filter
      (fun inverter => inverter.dataflag = 1 ∧ HasId inverter) = [] := by
    apply List.filter_eq_nil_iff.2
    intro inverter mem
    simp [table.behind inverter mem]
  have split := List.takeWhile_append_dropWhile (p := (HasId ·)) (l := table.entries)
  show (table.entries.filter _).length = _
  rw [← split, List.filter_append, behind, List.append_nil]
  exact congrArg List.length front

/-- The fields of the record in their order. -/
def recordFields (T : Target) (ecu : EcuInfo) (table : Table) (datetime : List Byte) : List Field :=
  header T (lengthField (roundLength ecu table datetime)) ecu datetime ++ table.answered.flatMap (block T)

theorem recordFields_print (T : Target) (ecu : EcuInfo) (table : Table) (datetime : List Byte)
    (checked : ∀ inverter ∈ table.answered, TemperatureChecked inverter) :
    (recordFields T ecu table datetime).flatMap Field.print = protocolAPS18 T ecu table datetime := by
  rw [protocolAPS18_eq T checked, recordFields, List.flatMap_append, header_print, List.flatMap_assoc]
  rfl

theorem header_sized {T : Target} {length : List Byte} {ecu : EcuInfo} {datetime : List Byte} :
    ∀ field ∈ header T length ecu datetime, field.Sized := by
  simp only [header, List.forall_mem_cons, List.not_mem_nil, IsEmpty.forall_iff, implies_true, and_true]
  simp only [transsyspower, transsyscurgen, transltgen, Field.sized_text, Field.sized_fixed, and_self]

theorem header_ranged {T : Target} {length : List Byte} {ecu : EcuInfo} {datetime : List Byte}
    (few : ecu.count < 1000) : ∀ field ∈ header T length ecu datetime, field.Ranged := by
  simp only [header, List.forall_mem_cons, List.not_mem_nil, IsEmpty.forall_iff, implies_true, and_true]
  have count : (Field.number .count (.fixed 3) ecu.count).Ranged := fun _ =>
    ⟨by decide, Int.natCast_nonneg _, by norm_num; omega⟩
  exact ⟨trivial, trivial, trivial, trivial, unranged id _ _, unranged id _ _, unranged id _ _, trivial, count,
    trivial, trivial⟩

section Fields

variable {T : Target} {ecu : EcuInfo} {table : Table} {datetime : List Byte}

theorem recordFields_sized (temperature : ∀ inverter ∈ table.answered, TemperatureChecked inverter) :
    ∀ field ∈ recordFields T ecu table datetime, field.Sized := by
  intro field mem
  rcases List.mem_append.1 mem with head | inBlock
  · exact header_sized field head
  · obtain ⟨inverter, answered, inBlock⟩ := List.mem_flatMap.1 inBlock
    exact block_sized T (temperature inverter answered) field inBlock

theorem recordFields_ranged (few : ecu.count < 1000)
    (produced : ∀ inverter ∈ table.answered, Produced T inverter) :
    ∀ field ∈ recordFields T ecu table datetime, field.Ranged := by
  intro field mem
  rcases List.mem_append.1 mem with head | inBlock
  · exact header_ranged few field head
  · obtain ⟨inverter, answered, inBlock⟩ := List.mem_flatMap.1 inBlock
    exact block_ranged (produced inverter answered) field inBlock

theorem shownMessage_count (counted : ecu.count = table.answered.length) :
    (shownMessage T ecu table datetime).count = some ((shownMessage T ecu table datetime).blocks.length : Int) := by
  show some (ecu.count : Int) = some ((table.answered.map (shownBlock T)).length : Int)
  rw [counted, List.length_map]

end Fields

theorem afterRound_count (ecu : EcuInfo) (table : Table) :
    (afterRound ecu table).count = table.answered.length :=
  getalldata_count ecu table

theorem afterRound_id (ecu : EcuInfo) (table : Table) : (afterRound ecu table).id = ecu.id :=
  rfl

/-- The record of a round is the text of its fields, each in a place of its own; a reader takes it back
whole, with its length and the number of its blocks as they are announced. Ranged quantities decode, the
others as far as they have room. -/
theorem roundRecord_decodes (T : Target) (ecu : EcuInfo) (table : Table)
    (stored : Stored ecu ecu.broadcastTime) (produced : ∀ inverter ∈ table.answered, Produced T inverter) :
    let message := shownMessage T (afterRound ecu table) table ecu.broadcastTime
    let fields := recordFields T (afterRound ecu table) table ecu.broadcastTime
    readRecord (strlen ecu.id) (strlen ecu.broadcastTime) (roundRecord T ecu table) = some message ∧
      message.length = some ((roundRecord T ecu table).length : Int) ∧
      message.count = some (message.blocks.length : Int) ∧
      (∀ inverter ∈ table.answered,
        ((block T inverter).flatMap Field.print).length = blockWidth inverter.model) ∧
      roundRecord T ecu table = fields.flatMap Field.print ∧
      ∀ field ∈ fields, field.Sized ∧ field.Ranged ∧ field.Decodes := by
  intro message fields
  have temperature : ∀ inverter ∈ table.answered, TemperatureChecked inverter :=
    fun inverter mem => (produced inverter mem).checked.it
  have kept : Stored (afterRound ecu table) ecu.broadcastTime := ⟨stored.id, stored.time⟩
  have counted := afterRound_count ecu table
  have few : (afterRound ecu table).count < 1000 := by
    have most := table.answered_length
    unfold maxInverterCount at most
    omega
  have length : (roundRecord T ecu table).length = roundLength (afterRound ecu table) table ecu.broadcastTime :=
    protocolAPS18_length T kept temperature
  have sized : ∀ field ∈ recordFields T (afterRound ecu table) table ecu.broadcastTime, field.Sized :=
    recordFields_sized temperature
  have ranged : ∀ field ∈ recordFields T (afterRound ecu table) table ecu.broadcastTime, field.Ranged :=
    recordFields_ranged few produced
  have reads := read_protocolAPS18 T kept temperature counted
  rw [afterRound_id] at reads
  refine ⟨reads, ?_, shownMessage_count counted, ?_,
    (recordFields_print T (afterRound ecu table) table ecu.broadcastTime temperature).symm, ?_⟩
  · rw [length]
    rfl
  · exact fun inverter mem => block_length T (Table.hasId mem) (temperature inverter mem)
  · exact fun field mem => ⟨sized field mem, ranged field mem, (sized field mem).decodes⟩

/-! ## A sample -/

/-- A YC1000 report with the most that the counter of its first active power can show. -/
def powerFrame : Frame :=
  List.replicate 56 0 ++ [0xFF, 0xFF, 0xFF] ++ List.replicate 29 0

def sampleEcu : EcuInfo :=
  { id := str "216000000001", lifeEnergy := 0, currentEnergy := 0, systemPower := 0, count := 0, zoneflag := 0
    broadcastTime := str "20170801120000", ecuType := 1 }

/-- The inverter after this report. -/
def sampleInverter : Inverter :=
  (resolvedata1000 sampleTarget sampleEcu powerFrame
    { id := str "501000000001", model := 5, dataflag := 1 }).2

def sampleTable : Table where
  entries := [sampleInverter]
  size := by decide
  behind := by decide +kernel

theorem sample_produced : ∀ inverter ∈ sampleTable.answered, Produced sampleTarget inverter := by
  intro inverter mem
  have listed := List.mem_of_mem_filter mem
  have entry := (List.takeWhile_prefix _).subset listed
  rw [List.mem_singleton.1 entry]
  exact .yc1000 sampleEcu powerFrame _ (by decide) (by decide +kernel)

theorem sample_stored : Stored sampleEcu sampleEcu.broadcastTime :=
  ⟨by decide, by decide⟩

theorem sample_decodes :
    readRecord 12 14 (roundRecord sampleTarget sampleEcu sampleTable) =
      some (shownMessage sampleTarget (afterRound sampleEcu sampleTable) sampleTable sampleEcu.broadcastTime) :=
  (roundRecord_decodes sampleTarget sampleEcu sampleTable sample_stored sample_produced).1

/-- An active power of 17484 W takes seven characters of centiwatts; the record keeps five. -/
theorem power_cut :
    ∃ (T : Target) (ecu : EcuInfo) (table : Table), Stored ecu ecu.broadcastTime ∧
      (∀ inverter ∈ table.answered, Produced T inverter) ∧
      ∃ q form v, Field.number q form v ∈
          recordFields T (afterRound ecu table) table ecu.broadcastTime ∧
        form.read? (form.print v) ≠ some v := by
  refine ⟨sampleTarget, sampleEcu, sampleTable, sample_stored, sample_produced, .activePower, .fixed 5, 1748400,
    ?_, by decide +kernel⟩
  apply List.mem_append_right
  apply List.mem_flatMap.2
  exact ⟨sampleInverter, by decide +kernel, by decide +kernel⟩

end Ecu.Record
