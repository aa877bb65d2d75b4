import Ecu.Lib.Decimal
import Ecu.Inverter.Info

/-!
# The fields of a record (the `trans` functions of `protocol.c`)

A field of an APS18 record is a text or a number. The `trans` functions append a number in one of
three forms: cut or filled to a width, as a temperature with the signs `A` and `B`, or as `%03d`
prints it. Each is given here by the field it appends. A field says which quantity it shows; that
leaves no trace in the record.

The functions print to a temporary of ten characters first. Texts of ten characters or more
overflow it in the source; here the temporary is as long as the text.
-/

namespace Ecu.Record

/-! ## Numbers -/

inductive Form where
  /-- At most `width` characters of the text, with zeros on the left. -/
  | fixed (width : Nat)
  /-- `A` fills up, `B` is the sign. -/
  | temperature
  /-- `%03d` -/
  | percent03d
deriving DecidableEq

def Form.width : Form → Nat
  | .fixed width => width
  | .temperature => 3
  | .percent03d => 3

def Form.print : Form → Int → List Byte
  | .fixed width, v => Decimal.fixed width v
  | .temperature, v =>
    let tempertemp := Decimal.text v.natAbs
    if v ≤ -10 then str "B" ++ tempertemp
    else if v < 0 then str "AB" ++ tempertemp
    else if v < 10 then str "AA" ++ tempertemp
    else if v < 100 then str "A" ++ tempertemp
    else tempertemp
  | .percent03d, v =>
    let digits := Decimal.text v.natAbs
    if v < 0 then Decimal.minus :: (List.replicate (2 - digits.length) Decimal.zero ++ digits)
    else List.replicate (3 - digits.length) Decimal.zero ++ digits

/-- The number that a text of this form stands for. -/
def Form.read? : Form → List Byte → Option Int
  | .temperature, text =>
    match text.dropWhile (· = 0x41) with
    | 0x42 :: digits => (Decimal.read? digits).map fun v => -v
    | digits => Decimal.read? digits
  | _, text => Decimal.read? text

/-- The numbers that the form has room for. -/
def Form.Fits : Form → Int → Prop
  | .fixed width, v => 0 < width ∧ 0 ≤ v ∧ v < 10 ^ width
  | .temperature, v => -100 < v ∧ v < 1000
  | .percent03d, v => 0 ≤ v ∧ v < 1000

instance (form : Form) (v : Int) : Decidable (form.Fits v) := by
  cases form <;> exact inferInstanceAs (Decidable (_ ∧ _))

/-! ## Fields -/

inductive Quantity where
  | systemPower | currentEnergy | lifeEnergy | count
  | gv | gvb | gvc | frequency | temperature
  | reactivePower | activePower | outputEnergy
  | dv | di | curgeneration | power
deriving DecidableEq

inductive Field where
  | text (bytes : List Byte)
  | number (quantity : Quantity) (form : Form) (value : Int)
deriving DecidableEq

/-- What `strcat` appends. -/
def Field.print : Field → List Byte
  | .text bytes => bytes
  | .number _ form v => form.print v

def Field.width : Field → Nat
  | .text bytes => bytes.length
  | .number _ form _ => form.width

section Trans

variable (T : Target)

/-- `transsyscurgen`, which scales by itself. -/
def transsyscurgen (q : Quantity) (curgen : ℚ) : Field :=
  .number q (.fixed 10) (T.toInt (curgen * 1000000))

def transltgen (ltgen : ℚ) : Field :=
  .number .lifeEnergy (.fixed 10) (T.toInt ltgen)

def transdv (dv : ℚ) : Field :=
  .number .dv (.fixed 5) (T.toInt dv)

def transdi (di : ℚ) : Field :=
  .number .di (.fixed 3) (T.toInt di)

def transpower (power : Int) : Field :=
  .number .power (.fixed 5) (power * 100)

/-- The argument is an `int`: the fraction is gone before the scaling. -/
def transreactivepower (reactivepower : ℚ) : Field :=
  .number .reactivePower (.fixed 5) (T.toInt reactivepower * 100)

def transactivepower (activepower : ℚ) : Field :=
  .number .activePower (.fixed 5) (T.toInt activepower * 100)

def transfrequency (frequency : ℚ) : Field :=
  .number .frequency (.fixed 5) (T.toInt frequency)

def transtemperature (temperature : Int) : Field :=
  .number .temperature .temperature temperature

/-- `sprintf(wendu,"%03d",inverter->it+100)` -/
def transwendu (it : Int) : Field :=
  .number .temperature .percent03d (it + 100)

def transgridvolt (q : Quantity) (voltage : Int) : Field :=
  .number q (.fixed 3) voltage

def transstatus (status : List Byte) : Field :=
  .text ((List.range 11).map fun i => if status.getD i nul = digit 1 then digit 1 else digit 0)

def transcurgen (q : Quantity) (gen : ℚ) : Field :=
  .number q (.fixed 6) (T.toInt gen)

def transsyspower (syspower : Int) : Field :=
  .number .systemPower (.fixed 10) (syspower * 100)

end Trans

/-! ## Reading a number back -/

theorem length_text_le_three (n : Nat) : (Decimal.text n).length ≤ 3 ↔ n < 1000 :=
  Decimal.length_text_le_iff (by decide)

theorem length_text_le_two (n : Nat) : (Decimal.text n).length ≤ 2 ↔ n < 100 :=
  Decimal.length_text_le_iff (by decide)

theorem length_text_le_one (n : Nat) : (Decimal.text n).length ≤ 1 ↔ n < 10 :=
  Decimal.length_text_le_iff (by decide)

theorem length_text_pos (n : Nat) : 0 < (Decimal.text n).length :=
  List.length_pos_iff.2 (Decimal.text_ne_nil n)

theorem temperature_width_iff (v : Int) :
    (Form.temperature.print v).length = 3 ↔ Form.temperature.Fits v := by
  have one := length_text_le_one v.natAbs
  have two := length_text_le_two v.natAbs
  have three := length_text_le_three v.natAbs
  have positive := length_text_pos v.natAbs
  unfold Form.print Form.Fits
  dsimp only
  split_ifs
  · rw [List.length_append, show (str "B").length = 1 from rfl]
    omega
  · rw [List.length_append, show (str "AB").length = 2 from rfl]
    omega
  · rw [List.length_append, show (str "AA").length = 2 from rfl]
    omega
  · rw [List.length_append, show (str "A").length = 1 from rfl]
    omega
  · omega

theorem percent03d_width {v : Int} (nonneg : 0 ≤ v) :
    (Form.percent03d.print v).length = 3 ↔ v < 1000 := by
  have three := length_text_le_three v.natAbs
  unfold Form.print
  dsimp only
  rw [if_neg (not_lt.2 nonneg), List.length_append, List.length_replicate]
  omega

/-- No text of digits starts with the `A` or `B` of a temperature. -/
theorem read_digits {digits : List Byte} {v : Int} (reads : Decimal.read? digits = some v) :
    Form.temperature.read? digits = some v := by
  have isDigit := (Decimal.read_some reads).2.2
  cases digits with
  | nil => exact reads
  | cons b digits =>
    have first := isDigit b List.mem_cons_self
    have notA : b ≠ 0x41 := by
      rintro rfl
      exact absurd first (by decide)
    have notB : b ≠ 0x42 := by
      rintro rfl
      exact absurd first (by decide)
    simp only [Form.read?, List.dropWhile_cons, notA, decide_false, Bool.false_eq_true, if_false]
    split
    · rename_i same
      exact absurd (List.cons.inj same).1 notB
    · exact reads

/-- A temperature is read back, whatever its size. -/
theorem read_temperature (v : Int) : Form.temperature.read? (Form.temperature.print v) = some v := by
  have digits := Decimal.read_text v.natAbs
  have negative : v < 0 → (Decimal.read? (Decimal.text v.natAbs)).map (fun v => -v) = some v := by
    intro below
    rw [digits, Option.map_some]
    congr 1
    omega
  have nonneg : 0 ≤ v → Form.temperature.read? (Decimal.text v.natAbs) = some v := by
    intro above
    rw [read_digits digits]
    congr 1
    omega
  unfold Form.print
  dsimp only
  split_ifs with cold below oneDigit twoDigits
  · exact negative (by omega)
  · exact negative below
  · exact nonneg (by omega)
  · exact nonneg (by omega)
  · exact nonneg (by omega)

theorem read_percent03d (v : Int) :
    Form.percent03d.read? (Form.percent03d.print v) = some v ↔ 0 ≤ v := by
  constructor
  · intro reads
    exact (Decimal.read_some reads).1
  · intro nonneg
    have cast : ((v.natAbs : Nat) : Int) = v := Int.natAbs_of_nonneg nonneg
    unfold Form.print
    dsimp only
    rw [if_neg (not_lt.2 nonneg)]
    apply Decimal.read_zeros
    rw [Decimal.read_text, cast]

theorem read_fixed_iff (width : Nat) (v : Int) :
    Decimal.read? (Decimal.fixed width v) = some v ↔ (Form.fixed width).Fits v := by
  constructor
  · intro reads
    have positive : 0 < width := by
      apply Nat.pos_of_ne_zero
      rintro rfl
      have empty : Decimal.fixed 0 v = [] := List.length_eq_zero_iff.1 (Decimal.fixed_length 0 v)
      rw [empty] at reads
      cases reads
    exact ⟨positive, (Decimal.read_fixed_iff positive v).1 reads⟩
  · rintro ⟨positive, range⟩
    exact (Decimal.read_fixed_iff positive v).2 range

/-- A number comes back from its field and keeps to the width exactly when the form has room
for it. -/
theorem Form.read_print_iff (form : Form) (v : Int) :
    (form.read? (form.print v) = some v ∧ (form.print v).length = form.width) ↔ form.Fits v := by
  cases form with
  | fixed width =>
    have reads := Ecu.Record.read_fixed_iff width v
    have length := Decimal.fixed_length width v
    exact ⟨fun h => reads.1 h.1, fun fits => ⟨reads.2 fits, length⟩⟩
  | temperature =>
    have reads := read_temperature v
    have width := temperature_width_iff v
    exact ⟨fun h => width.1 h.2, fun fits => ⟨reads, width.2 fits⟩⟩
  | percent03d =>
    have reads := read_percent03d v
    constructor
    · intro h
      have nonneg := reads.1 h.1
      exact ⟨nonneg, (percent03d_width nonneg).1 h.2⟩
    · intro fits
      exact ⟨reads.2 fits.1, (percent03d_width fits.1).2 fits.2⟩

end Ecu.Record
