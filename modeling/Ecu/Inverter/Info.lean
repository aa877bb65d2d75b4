import Ecu.Base

/-!
# Inverters, frames and exact numbers (`variation.h`)

`Inverter` is `inverter_info` with the fields that the resolve, check and record functions read or
write. Its `float` fields are rational numbers: sums, products and quotients are exact here.
`Target` holds what exact arithmetic leaves open.
-/

namespace Ecu

/-- What depends on the machine's floating point: the `sqrt` of `resolve.c`, whose loop ends by
rounding only, and the `int` that a conversion yields for a value outside the range of `int` or for
a quotient by zero. -/
structure Target where
  sqrt : ℚ → ℚ
  outOfRange : ℚ → Int
  divByZero : ℚ → Int

/-- A target for examples. -/
def sampleTarget : Target :=
  ⟨fun _ => 0, fun _ => -2147483648, fun _ => 0⟩

/-- Rounding toward zero. -/
def truncate (x : ℚ) : Int :=
  x.num.tdiv x.den

/-- `(int)x`. -/
def Target.toInt (T : Target) (x : ℚ) : Int :=
  if -2147483648 ≤ truncate x ∧ truncate x ≤ 2147483647 then truncate x else T.outOfRange x

/-- `if(x > hi) x = hi; if(x < lo) x = lo;` -/
def clamp {α : Type} [LinearOrder α] (lo hi x : α) : α :=
  if x > hi then if hi < lo then lo else hi
  else if x < lo then lo else x

section Clamp

variable {α : Type} [LinearOrder α]

theorem le_clamp (lo hi x : α) : lo ≤ clamp lo hi x := by
  unfold clamp
  split_ifs with above crossed below
  · exact le_refl lo
  · exact not_lt.1 crossed
  · exact le_refl lo
  · exact not_lt.1 below

theorem clamp_le {lo hi : α} (ordered : lo ≤ hi) (x : α) : clamp lo hi x ≤ hi := by
  unfold clamp
  split_ifs with above
  · exact ordered
  · exact le_refl hi
  · exact ordered
  · exact not_lt.1 above

/-- Only the upper bound matters above the lower one. -/
theorem clamp_eq_min {lo hi x : α} (ordered : lo ≤ hi) (above : lo ≤ x) : clamp lo hi x = min x hi := by
  unfold clamp
  by_cases high : x > hi
  · rw [if_pos high, if_neg (not_lt.2 ordered), min_eq_right (le_of_lt high)]
  · rw [if_neg high, if_neg (not_lt.2 above), min_eq_left (not_lt.1 high)]

end Clamp

/-- The data of an answer, from its fifth byte on. -/
abbrev Frame := List Byte

/-- `data[i]`. -/
def Frame.byte (data : Frame) (i : Nat) : Nat :=
  (data.getD i nul).toNat

/-- `((data[i]>>k)&0x01)+0x30`. -/
def Frame.bit (data : Frame) (i k : Nat) : Byte :=
  digit (data.byte i / 2 ^ k % 2)

/-- Three bytes, the first one highest. -/
def Frame.word24 (data : Frame) (i : Nat) : Nat :=
  data.byte i * 256 * 256 + data.byte (i + 1) * 256 + data.byte (i + 2)

structure Inverter where
  id : List Byte
  model : Nat
  /-- 1 when the data of this round was received. -/
  dataflag : Nat := 0
  lastTurnOnOffFlag : Nat := 0
  turnOnOffChangedFlag : Nat := 0
  lastGfdiFlag : Nat := 0
  gfdiChangedFlag : Nat := 0
  dv : ℚ := 0
  di : ℚ := 0
  op : Int := 0
  gf : ℚ := 0
  gv : Int := 0
  it : Int := 0
  dvb : ℚ := 0
  dib : ℚ := 0
  opb : Int := 0
  gvb : Int := 0
  dvc : ℚ := 0
  dic : ℚ := 0
  opc : Int := 0
  gvc : Int := 0
  dvd : ℚ := 0
  did : ℚ := 0
  opd : Int := 0
  reactivePower : ℚ := 0
  reactivePowerb : ℚ := 0
  reactivePowerc : ℚ := 0
  activePower : ℚ := 0
  activePowerb : ℚ := 0
  activePowerc : ℚ := 0
  outputEnergy : ℚ := 0
  outputEnergyb : ℚ := 0
  outputEnergyc : ℚ := 0
  preOutputEnergy : ℚ := 0
  preOutputEnergyb : ℚ := 0
  preOutputEnergyc : ℚ := 0
  curOutputEnergy : ℚ := 0
  curOutputEnergyb : ℚ := 0
  curOutputEnergyc : ℚ := 0
  curgeneration : ℚ := 0
  curgenerationb : ℚ := 0
  curgenerationc : ℚ := 0
  curgenerationd : ℚ := 0
  preaccgen : ℚ := 0
  preaccgenb : ℚ := 0
  preaccgenc : ℚ := 0
  preaccgend : ℚ := 0
  curaccgen : ℚ := 0
  curaccgenb : ℚ := 0
  curaccgenc : ℚ := 0
  curaccgend : ℚ := 0
  preacctime : Int := 0
  curacctime : Int := 0
  statusWeb : List Byte := List.replicate 50 nul
  status : List Byte := List.replicate 12 nul
  statusb : List Byte := List.replicate 12 nul
  statusc : List Byte := List.replicate 12 nul
  statusEma : List Byte := []
  statusSendFlag : Nat := 0
  lastReportTime : List Byte := []
deriving DecidableEq

/-- The fields of `ecu_info` (and the global `ecu_type`) that the resolve and record functions use. -/
structure EcuInfo where
  id : List Byte
  lifeEnergy : ℚ
  currentEnergy : ℚ
  systemPower : Int
  count : Nat
  zoneflag : Int
  /-- The time of this round's broadcast. -/
  broadcastTime : List Byte
  /-- 1: SAA; 2: NA; 3: MX. -/
  ecuType : Int
deriving DecidableEq

end Ecu
