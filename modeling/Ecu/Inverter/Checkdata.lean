import Ecu.Inverter.Info

/-!
# Range checks (`checkdata.c`)

Both check functions end a resolve function and clamp what it has decoded. `Checked` and `Checked1000`
are what they establish (`checkYc500_checked`, `checkYc1000_checked`); the record of a round relies on
it.
-/

namespace Ecu

/-- The highest grid frequency: 45-55 Hz for SAA, 55-65 Hz otherwise. -/
def maxFrequency (ecuType : Int) : ℚ :=
  if ecuType = 1 then 55 else 65

/-- The highest grid voltage. -/
def maxVoltage (ecuType : Int) : Int :=
  if ecuType = 3 then 155 else if ecuType = 2 then 298 else 278

/-- `0.999999`, the most a round may count for one channel. -/
def maxCurgeneration : ℚ := 999999 / 1000000

/-- `check_yc500`. -/
def checkYc500 (ecuType : Int) (inverter : Inverter) : Inverter :=
  { inverter with
    dv := clamp 0 1500 inverter.dv
    dvb := clamp 0 1500 inverter.dvb
    di := clamp 0 150 inverter.di
    dib := clamp 0 150 inverter.dib
    op := clamp 0 500 inverter.op
    opb := clamp 0 500 inverter.opb
    gf := clamp 0 (maxFrequency ecuType) inverter.gf
    gv := clamp 0 (maxVoltage ecuType) inverter.gv
    it := clamp (-50) 150 inverter.it
    curgeneration := clamp 0 maxCurgeneration inverter.curgeneration
    curgenerationb := clamp 0 maxCurgeneration inverter.curgenerationb }

/-- `check_yc1000`. -/
def checkYc1000 (ecuType : Int) (inverter : Inverter) : Inverter :=
  { inverter with
    dv := clamp 0 1500 inverter.dv
    dvb := clamp 0 1500 inverter.dvb
    di := clamp 0 150 inverter.di
    dib := clamp 0 150 inverter.dib
    dic := clamp 0 150 inverter.dic
    did := clamp 0 150 inverter.did
    op := clamp 0 300 inverter.op
    opb := clamp 0 300 inverter.opb
    opc := clamp 0 300 inverter.opc
    opd := clamp 0 300 inverter.opd
    gf := clamp 0 (maxFrequency ecuType) inverter.gf
    gv := clamp 0 (maxVoltage ecuType) inverter.gv
    it := clamp (-50) 150 inverter.it
    curgeneration := clamp 0 maxCurgeneration inverter.curgeneration
    curgenerationb := clamp 0 maxCurgeneration inverter.curgenerationb
    curgenerationc := clamp 0 maxCurgeneration inverter.curgenerationc
    curgenerationd := clamp 0 maxCurgeneration inverter.curgenerationd }

theorem maxFrequency_bounds (ecuType : Int) : 0 ≤ maxFrequency ecuType ∧ maxFrequency ecuType ≤ 65 := by
  unfold maxFrequency
  split <;> decide

theorem maxVoltage_bounds (ecuType : Int) : 0 ≤ maxVoltage ecuType ∧ maxVoltage ecuType ≤ 298 := by
  unfold maxVoltage
  split_ifs <;> decide

/-! ## What the checks establish -/

/-- The two channels of every model. -/
structure Checked (inverter : Inverter) : Prop where
  dv : 0 ≤ inverter.dv ∧ inverter.dv ≤ 1500
  dvb : 0 ≤ inverter.dvb ∧ inverter.dvb ≤ 1500
  di : 0 ≤ inverter.di ∧ inverter.di ≤ 150
  dib : 0 ≤ inverter.dib ∧ inverter.dib ≤ 150
  op : 0 ≤ inverter.op ∧ inverter.op ≤ 500
  opb : 0 ≤ inverter.opb ∧ inverter.opb ≤ 500
  gf : 0 ≤ inverter.gf ∧ inverter.gf ≤ 65
  gv : 0 ≤ inverter.gv ∧ inverter.gv ≤ 298
  it : -50 ≤ inverter.it ∧ inverter.it ≤ 150
  curgeneration : 0 ≤ inverter.curgeneration ∧ inverter.curgeneration ≤ maxCurgeneration
  curgenerationb : 0 ≤ inverter.curgenerationb ∧ inverter.curgenerationb ≤ maxCurgeneration

/-- The other two channels of a YC1000. The voltages of its other phases are not checked. -/
structure Checked1000 (inverter : Inverter) : Prop extends Checked inverter where
  dic : 0 ≤ inverter.dic ∧ inverter.dic ≤ 150
  did : 0 ≤ inverter.did ∧ inverter.did ≤ 150
  opc : 0 ≤ inverter.opc ∧ inverter.opc ≤ 500
  opd : 0 ≤ inverter.opd ∧ inverter.opd ≤ 500
  curgenerationc : 0 ≤ inverter.curgenerationc ∧ inverter.curgenerationc ≤ maxCurgeneration
  curgenerationd : 0 ≤ inverter.curgenerationd ∧ inverter.curgenerationd ≤ maxCurgeneration

theorem maxCurgeneration_nonneg : 0 ≤ maxCurgeneration := by
  norm_num [maxCurgeneration]

section Clamps

variable {α : Type} [LinearOrder α]

theorem clamp_mem {lo hi : α} (ordered : lo ≤ hi) (x : α) : lo ≤ clamp lo hi x ∧ clamp lo hi x ≤ hi :=
  ⟨le_clamp lo hi x, clamp_le ordered x⟩

theorem clamp_mem_of_le {lo hi upper : α} (ordered : lo ≤ hi) (below : hi ≤ upper) (x : α) :
    lo ≤ clamp lo hi x ∧ clamp lo hi x ≤ upper :=
  ⟨le_clamp lo hi x, (clamp_le ordered x).trans below⟩

end Clamps

theorem frequency_checked (ecuType : Int) (x : ℚ) :
    0 ≤ clamp 0 (maxFrequency ecuType) x ∧ clamp 0 (maxFrequency ecuType) x ≤ 65 :=
  clamp_mem_of_le (maxFrequency_bounds ecuType).1 (maxFrequency_bounds ecuType).2 x

theorem voltage_checked (ecuType : Int) (x : Int) :
    0 ≤ clamp 0 (maxVoltage ecuType) x ∧ clamp 0 (maxVoltage ecuType) x ≤ 298 :=
  clamp_mem_of_le (maxVoltage_bounds ecuType).1 (maxVoltage_bounds ecuType).2 x

theorem checkYc500_checked (ecuType : Int) (inverter : Inverter) : Checked (checkYc500 ecuType inverter) where
  dv := clamp_mem (by decide) _
  dvb := clamp_mem (by decide) _
  di := clamp_mem (by decide) _
  dib := clamp_mem (by decide) _
  op := clamp_mem (by decide) _
  opb := clamp_mem (by decide) _
  gf := frequency_checked ecuType _
  gv := voltage_checked ecuType _
  it := clamp_mem (by decide) _
  curgeneration := clamp_mem maxCurgeneration_nonneg _
  curgenerationb := clamp_mem maxCurgeneration_nonneg _

theorem checkYc1000_checked (ecuType : Int) (inverter : Inverter) :
    Checked1000 (checkYc1000 ecuType inverter) where
  dv := clamp_mem (by decide) _
  dvb := clamp_mem (by decide) _
  di := clamp_mem (by decide) _
  dib := clamp_mem (by decide) _
  dic := clamp_mem (by decide) _
  did := clamp_mem (by decide) _
  op := clamp_mem_of_le (by decide) (by decide) _
  opb := clamp_mem_of_le (by decide) (by decide) _
  opc := clamp_mem_of_le (by decide) (by decide) _
  opd := clamp_mem_of_le (by decide) (by decide) _
  gf := frequency_checked ecuType _
  gv := voltage_checked ecuType _
  it := clamp_mem (by decide) _
  curgeneration := clamp_mem maxCurgeneration_nonneg _
  curgenerationb := clamp_mem maxCurgeneration_nonneg _
  curgenerationc := clamp_mem maxCurgeneration_nonneg _
  curgenerationd := clamp_mem maxCurgeneration_nonneg _

end Ecu
