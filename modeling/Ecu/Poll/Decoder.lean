import Ecu.Inverter.Ranges
import Ecu.Poll.Query

/-!
# The decoder of a frame

`zb_query_data` picks one of the three resolve functions by the model of the inverter and the type byte of the frame,
or none. What the three have in common is stated here once: the parts of an inverter that they keep, and that a
rejected frame leaves its memory as it is.
-/

namespace Ecu

/-- What `update_tmpdb` stores of an inverter. -/
structure Baseline where
  preaccgen : ℚ
  preaccgenb : ℚ
  preaccgenc : ℚ
  preaccgend : ℚ
  preOutputEnergy : ℚ
  preOutputEnergyb : ℚ
  preOutputEnergyc : ℚ
  preacctime : Int
deriving DecidableEq

/-- The states that the changed flags compare, and the flags. -/
structure Changes where
  lastGfdiFlag : Nat
  gfdiChangedFlag : Nat
  lastTurnOnOffFlag : Nat
  turnOnOffChangedFlag : Nat
deriving DecidableEq

/-- What an inverter keeps from one decoded frame to the next. -/
structure Memory where
  id : List Byte
  baseline : Baseline
  changes : Changes
deriving DecidableEq

/-- The flags after a report of these states. -/
def Changes.update (gfdi turnOff : Byte) (before : Changes) : Changes :=
  let asInt (c : Byte) : Nat := if c = digit 1 then 1 else 0
  { lastGfdiFlag := asInt gfdi
    gfdiChangedFlag := if before.lastGfdiFlag ≠ asInt gfdi then 1 else 0
    lastTurnOnOffFlag := asInt turnOff
    turnOnOffChangedFlag := if before.lastTurnOnOffFlag ≠ asInt turnOff then 1 else 0 }

namespace Inverter

def stored (inverter : Inverter) : Baseline where
  preaccgen := inverter.preaccgen
  preaccgenb := inverter.preaccgenb
  preaccgenc := inverter.preaccgenc
  preaccgend := inverter.preaccgend
  preOutputEnergy := inverter.preOutputEnergy
  preOutputEnergyb := inverter.preOutputEnergyb
  preOutputEnergyc := inverter.preOutputEnergyc
  preacctime := inverter.preacctime

def changes (inverter : Inverter) : Changes where
  lastGfdiFlag := inverter.lastGfdiFlag
  gfdiChangedFlag := inverter.gfdiChangedFlag
  lastTurnOnOffFlag := inverter.lastTurnOnOffFlag
  turnOnOffChangedFlag := inverter.turnOnOffChangedFlag

def memory (inverter : Inverter) : Memory where
  id := inverter.id
  baseline := inverter.stored
  changes := inverter.changes

/-- The measurements of the phases and panels that only a YC1000 has. -/
def third (inverter : Inverter) : List ℚ :=
  [inverter.gvb, inverter.dvc, inverter.dic, inverter.opc, inverter.gvc, inverter.dvd, inverter.did, inverter.opd,
    inverter.reactivePowerb, inverter.reactivePowerc, inverter.activePowerb, inverter.activePowerc,
    inverter.outputEnergyb, inverter.outputEnergyc, inverter.curOutputEnergyb, inverter.curOutputEnergyc,
    inverter.curgenerationc, inverter.curgenerationd, inverter.curaccgenc, inverter.curaccgend]

end Inverter

/-! ## The three decoders -/

/-- The resolve function of a frame. -/
inductive Decoder where
  | yc600 | yc600New | yc1000
deriving DecidableEq

/-- The choice of `zb_query_data`; `none` where it decodes nothing. -/
def decoderOf (model : Nat) (data : List Byte) : Option Decoder :=
  if model = 7 then
    if Poll.byteAt data 3 = 0xBB then some .yc600
    else if Poll.byteAt data 3 = 0xB1 then some .yc600New
    else none
  else if IsYc1000 model then some .yc1000
  else none

namespace Decoder

variable (T : Target) (ecu : EcuInfo)

def resolve : Decoder → Frame → Inverter → Nat × Inverter
  | yc600 => resolvedata600 T ecu
  | yc600New => resolvedata600New T ecu
  | yc1000 => resolvedata1000 T ecu

/-- The deputy model that the query notes after decoding. -/
def deputy : Decoder → Option Nat
  | yc600 => some 1
  | yc600New => some 2
  | yc1000 => none

/-- The GFDI bit of a report. -/
def gfdi : Decoder → Frame → Byte
  | yc1000, data => data.bit 4 1
  | _, data => data.bit 26 4

/-- The bit of a report that says the inverter is turned off. -/
def turnOff : Decoder → Frame → Byte
  | yc1000, data => data.bit 4 2
  | _, data => data.bit 26 3

/-- The baseline that a report leaves. -/
def baseline : Decoder → Frame → Baseline → Baseline
  | yc1000, data, _ =>
    { preaccgen := data.accgen1000 27
      preaccgenb := data.accgen1000 32
      preaccgenc := data.accgen1000 37
      preaccgend := data.accgen1000 42
      preOutputEnergy := data.word24 65 / (932675 / 10)
      preOutputEnergyb := data.word24 68 / (932675 / 10)
      preOutputEnergyc := data.word24 71 / (932675 / 10)
      preacctime := data.acctime }
  | _, data, before =>
    { before with
      preaccgen := data.accgen600 32
      preaccgenb := data.accgen600 27
      preOutputEnergy := (data.accgen600 32 + data.accgen600 27) * (94 / 100) * data.byte 37
      preacctime := data.acctime }

/-- The frame is taken for a report: no jump of the accumulators. -/
def Takes : Decoder → Frame → Inverter → Prop
  | yc1000, data, inverter => ¬ Jumped (decode1000 T data inverter)
  | _, _, _ => True

instance (d : Decoder) (data : Frame) (inverter : Inverter) : Decidable (d.Takes T data inverter) := by
  cases d <;> unfold Takes <;> infer_instance

end Decoder

/-! ## What decoding leaves -/

/-- A report that is taken: what it leaves of the memory of the inverter before. -/
structure Taken (d : Decoder) (data : Frame) (before : Inverter) (out : Nat × Inverter) : Prop where
  ret : out.1 = 1
  dataflag : out.2.dataflag = before.dataflag
  id : out.2.id = before.id
  model : out.2.model = before.model
  stored : out.2.stored = d.baseline data before.stored
  changes : out.2.changes = before.changes.update (d.gfdi data) (d.turnOff data)
  third : d ≠ .yc1000 → out.2.third = before.third

/-- A rejected report. -/
structure Rejected (before : Inverter) (out : Nat × Inverter) : Prop where
  ret : out.1 = 0
  dataflag : out.2.dataflag = 0
  model : out.2.model = before.model
  memory : out.2.memory = before.memory

section Frames

variable {T : Target} {ecu : EcuInfo} {it : Int} {gv : ℚ} {ofNew : List Byte} {high low : Nat} {data : Frame}
  {before : Inverter}

theorem resolve600_taken {d : Decoder} (yc600 : d ≠ .yc1000) :
    Taken d data before (resolve600 T ecu it gv (statusWeb600 data ofNew) high low data before) := by
  obtain ⟨ema, flag, frame⟩ := yc600Status_frame _
  rw [resolve600, frame]
  dsimp only [checkYc500, report600, updateChanges, status600, power600, curgeneration600, outputEnergy600,
    decode600]
  cases d with
  | yc1000 => exact absurd rfl yc600
  | yc600 =>
    constructor
    case third => exact fun _ => rfl
    all_goals rfl
  | yc600New =>
    constructor
    case third => exact fun _ => rfl
    all_goals rfl

theorem resolve1000_taken (kept : ¬ Jumped (decode1000 T data before)) :
    Taken .yc1000 data before (resolvedata1000 T ecu data before) := by
  obtain ⟨ema, flag, frame⟩ := yc1000Status_frame _
  rw [resolvedata1000]
  dsimp only
  rw [if_neg kept, frame]
  dsimp only [checkYc1000, report1000, updateChanges, status1000, power1000, curgeneration1000, outputEnergy1000,
    decode1000]
  constructor
  case third => exact absurd rfl
  all_goals rfl

theorem resolve1000_rejected (jumped : Jumped (decode1000 T data before)) :
    Rejected before (resolvedata1000 T ecu data before) := by
  rw [resolvedata1000]
  dsimp only
  rw [if_pos jumped]
  constructor
  all_goals rfl

end Frames

namespace Decoder

variable {T : Target} {ecu : EcuInfo} {d : Decoder} {data : Frame} {before : Inverter}

theorem taken (takes : d.Takes T data before) : Taken d data before (d.resolve T ecu data before) := by
  cases d with
  | yc600 => exact resolve600_taken nofun
  | yc600New => exact resolve600_taken nofun
  | yc1000 => exact resolve1000_taken takes

theorem rejected (jumped : ¬ d.Takes T data before) : Rejected before (d.resolve T ecu data before) := by
  cases d with
  | yc600 => exact absurd trivial jumped
  | yc600New => exact absurd trivial jumped
  | yc1000 => exact resolve1000_rejected (not_not.1 jumped)

end Decoder

end Ecu
