import Ecu.Inverter.Checkdata

/-!
# Decoding a report (`resolve.c`)

The three resolve functions turn the data of an answer into the fields of its inverter, in stages:
measurements and accumulators, the energy of the round, the power, the status bits, the state
changes, the range check. `resolvedata_600` and `resolvedata_600_new` differ in two scales and in the
status bits; `resolvedata_1000` has a stage of its own that rejects a report.
-/

namespace Ecu

namespace Frame

/-- `((b>>4)&0x0F)*256 + ((b<<4)&0xF0) | ((c>>4)&0x0F)` of two adjacent bytes. -/
def high12 (data : Frame) (i : Nat) : Nat :=
  (data.byte i / 16 * 256 + data.byte i % 16 * 16) ||| data.byte (i + 1) / 16

/-- `(b&0x0F)*256 + c` of two adjacent bytes. -/
def low12 (data : Frame) (i : Nat) : Nat :=
  data.byte i % 16 * 256 + data.byte (i + 1)

/-- An energy accumulator of `resolvedata_1000`, in kWh. -/
def accgen1000 (data : Frame) (i : Nat) : ℚ :=
  ((data.byte i * 256 + data.byte (i + 1) : Nat) / 1661900 * 220 / 1000 * 256 * 256 * 256 +
    data.word24 (i + 2) / 1661900 * 220 / 1000) / 3600

/-- An energy accumulator of the YC600 reports, in kWh. -/
def accgen600 (data : Frame) (i : Nat) : ℚ :=
  (data.byte i * 256 * (10095 / 1000) * 220 + data.byte (i + 1) * (10095 / 1000) * 220 +
    data.word24 (i + 2) / 1661900 * 220) / 3600 / 1000

/-- `curacctime`. -/
def acctime (data : Frame) : Int :=
  (data.byte 7 * 256 + data.byte 8 : Nat)

end Frame

/-! ## The energy of a round -/

/-- The energy that one channel counts: what was added since the last round, or the accumulator
itself where the inverter has restarted. -/
def sinceLast (continued : Bool) (cur pre : ℚ) : ℚ :=
  if continued then cur - pre else cur

/-- The power of one channel. The quotient by the elapsed seconds is taken ten minutes after the
start; a result above `limit` gives way to the panel's. (The assignments for `seconds == 0` are
overwritten in both branches.) -/
def channelPower (T : Target) (limit seconds curacctime : Int) (curgeneration : ℚ) (panel : Int) : Int :=
  let op :=
    if curacctime > 600 then
      if seconds = 0 then T.divByZero curgeneration
      else T.toInt (curgeneration * 1000 * 3600 / seconds)
    else panel
  if op > limit then panel else op

/-- The changed flags of the GFDI and on/off states, and the states themselves. -/
def updateChanges (gfdi turnOff : Byte) (inverter : Inverter) : Inverter :=
  let asInt (c : Byte) : Nat := if c = digit 1 then 1 else 0
  { inverter with
    gfdiChangedFlag := if inverter.lastGfdiFlag ≠ asInt gfdi then 1 else 0
    lastGfdiFlag := asInt gfdi
    turnOnOffChangedFlag := if inverter.lastTurnOnOffFlag ≠ asInt turnOff then 1 else 0
    lastTurnOnOffFlag := asInt turnOff }

/-- One reported status bit. -/
def anySet (web : List Byte) (is : List Nat) : Byte :=
  if is.any fun i => web.getD i nul == digit 1 then digit 1 else digit 0

/-! ## YC1000 -/

/-- The measurements and accumulators of a YC1000 report. -/
def decode1000 (T : Target) (data : Frame) (inverter : Inverter) : Inverter :=
  let dv : ℚ := (data.high12 9 * 825 / 4096 : Nat)
  { inverter with
    it := (((data.byte 0 % 16 * 256 + data.byte 1) * 330 : Nat) - 245760 : Int).tdiv 4096
    gf := if data.byte 2 = 0 ∧ data.byte 3 = 0 then 0 else 256000 / (data.byte 2 * 256 + data.byte 3 : Nat)
    curacctime := data.acctime
    dv := dv
    dvb := dv
    dvc := dv
    dvd := dv
    di := (data.high12 12 * 275 / 4096 : Nat)
    dib := (data.low12 13 * 275 / 4096 : Nat)
    dic := (data.high12 15 * 275 / 4096 : Nat)
    did := (data.low12 16 * 275 / 4096 : Nat)
    gv := T.toInt (data.word24 18 / (1161445 / 100))
    gvb := T.toInt (data.word24 21 / (1161445 / 100))
    gvc := T.toInt (data.word24 24 / (1161445 / 100))
    curaccgen := data.accgen1000 27
    curaccgenb := data.accgen1000 32
    curaccgenc := data.accgen1000 37
    curaccgend := data.accgen1000 42
    reactivePower := (data.word24 47 / 1712 : Nat)
    reactivePowerb := (data.word24 50 / 1712 : Nat)
    reactivePowerc := (data.word24 53 / 1712 : Nat)
    activePower := data.word24 56 / (95957 / 100)
    activePowerb := data.word24 59 / (95957 / 100)
    activePowerc := data.word24 62 / (95957 / 100)
    curOutputEnergy := data.word24 65 / (932675 / 10)
    curOutputEnergyb := data.word24 68 / (932675 / 10)
    curOutputEnergyc := data.word24 71 / (932675 / 10) }

/-- More than a kWh on one of the first three channels within four hours. -/
def Jumped (inverter : Inverter) : Prop :=
  inverter.curacctime - inverter.preacctime < 14400 ∧
    (inverter.curaccgen - inverter.preaccgen > 1 ∨ inverter.curaccgenb - inverter.preaccgenb > 1 ∨
      inverter.curaccgenc - inverter.preaccgenc > 1)

instance (inverter : Inverter) : Decidable (Jumped inverter) :=
  inferInstanceAs (Decidable (_ ∧ _))

/-- The output energies of the round. -/
def outputEnergy1000 (inverter : Inverter) : Inverter :=
  let continued : Bool := inverter.curOutputEnergy ≥ inverter.preOutputEnergy ∧
    inverter.curOutputEnergyb ≥ inverter.preOutputEnergyb ∧
    inverter.curOutputEnergyc ≥ inverter.preOutputEnergyc ∧ inverter.curacctime ≥ inverter.preacctime
  { inverter with
    outputEnergy := sinceLast continued inverter.curOutputEnergy inverter.preOutputEnergy
    outputEnergyb := sinceLast continued inverter.curOutputEnergyb inverter.preOutputEnergyb
    outputEnergyc := sinceLast continued inverter.curOutputEnergyc inverter.preOutputEnergyc
    preOutputEnergy := inverter.curOutputEnergy
    preOutputEnergyb := inverter.curOutputEnergyb
    preOutputEnergyc := inverter.curOutputEnergyc }

/-- All four accumulators and the time have grown. -/
def Continued1000 (inverter : Inverter) : Prop :=
  inverter.curaccgen > inverter.preaccgen ∧ inverter.curaccgenb > inverter.preaccgenb ∧
    inverter.curaccgenc > inverter.preaccgenc ∧ inverter.curaccgend > inverter.preaccgend ∧
    inverter.curacctime > inverter.preacctime

instance (inverter : Inverter) : Decidable (Continued1000 inverter) :=
  inferInstanceAs (Decidable (_ ∧ _))

/-- The energies of the round; the accumulators become the next baseline. -/
def curgeneration1000 (inverter : Inverter) : Inverter :=
  let continued : Bool := Continued1000 inverter
  { inverter with
    curgeneration := sinceLast continued inverter.curaccgen inverter.preaccgen
    curgenerationb := sinceLast continued inverter.curaccgenb inverter.preaccgenb
    curgenerationc := sinceLast continued inverter.curaccgenc inverter.preaccgenc
    curgenerationd := sinceLast continued inverter.curaccgend inverter.preaccgend
    preacctime := inverter.curacctime
    preaccgen := inverter.curaccgen
    preaccgenb := inverter.curaccgenb
    preaccgenc := inverter.curaccgenc
    preaccgend := inverter.curaccgend }

/-- The seconds that the energies of the round were counted in. -/
def seconds1000 (inverter : Inverter) : Int :=
  if Continued1000 inverter then inverter.curacctime - inverter.preacctime else inverter.curacctime

def power1000 (T : Target) (seconds : Int) (inverter : Inverter) : Inverter :=
  let power (gen dv di : ℚ) : Int :=
    channelPower T 260 seconds inverter.curacctime gen (T.toInt (dv * di / 100))
  { inverter with
    op := power inverter.curgeneration inverter.dv inverter.di
    opb := power inverter.curgenerationb inverter.dvb inverter.dib
    opc := power inverter.curgenerationc inverter.dvc inverter.dic
    opd := power inverter.curgenerationd inverter.dvd inverter.did }

/-- The bits of `status_web` in a YC1000 report. -/
def statusWeb1000 (data : Frame) : List Byte :=
  [data.bit 6 0, data.bit 6 1, data.bit 6 2, data.bit 6 3, data.bit 6 4, data.bit 6 5, data.bit 6 6,
    data.bit 6 7, data.bit 5 0, data.bit 5 1] ++ List.replicate 6 (digit 0) ++
  [data.bit 4 0, data.bit 4 1, data.bit 4 2, data.bit 4 3, digit 0, data.bit 4 5, data.bit 4 6] ++
  List.replicate 14 (digit 0)

/-- The eleven characters of a status, picked from `status_web`. -/
def pickStatus (web : List Byte) (is : List Nat) : List Byte :=
  is.map (web.getD · nul) ++ [digit 0]

def status1000 (ecuType : Int) (data : Frame) (inverter : Inverter) : Inverter :=
  let web := statusWeb1000 data
  let disconnected : Bool := web.getD 19 nul = digit 1
  { inverter with
    statusWeb := web ++ inverter.statusWeb.drop 37
    status := pickStatus web [1, 0, 2, 3, 8, 9, 16, 17, 18, 19] ++ inverter.status.drop 11
    statusb := pickStatus web [1, 0, 4, 5, 8, 9, 16, 17, 18, 19] ++ inverter.statusb.drop 11
    statusc := pickStatus web [1, 0, 6, 7, 8, 9, 16, 17, 18, 19] ++ inverter.statusc.drop 11
    gf := if disconnected then (if ecuType = 1 then 50 else 60) else inverter.gf
    gv := if disconnected then 0 else inverter.gv
    gvb := if disconnected then 0 else inverter.gvb
    gvc := if disconnected then 0 else inverter.gvc }

/-- `yc1000_status`. -/
def yc1000Status (inverter : Inverter) : Inverter :=
  let web := inverter.statusWeb
  let reported (i : Nat) : Byte := web.getD i nul
  if anySet web [0, 1, 2, 3, 4, 5, 6, 7, 16, 17, 18, 19, 21, 22] = digit 1 then
    { inverter with
      statusEma := cstr inverter.id ++ str "04" ++
        [anySet web [0, 1, 2, 3, 4, 5, 6, 7, 19, 21, 22], anySet web [16], anySet web [17], anySet web [18]] ++
        [reported 0, reported 1, reported 19, reported 22, reported 21, reported 16, reported 17,
          reported 18, digit 0] ++
        str "A" ++ [reported 2, reported 3] ++ str "B" ++ [reported 4, reported 5] ++
        str "C" ++ [reported 6, reported 7] ++ str "END"
      statusSendFlag := 1 }
  else { inverter with statusEma := [], statusSendFlag := 0 }

/-- An accepted report up to the range check. -/
def report1000 (T : Target) (ecuType : Int) (data : Frame) (decoded : Inverter) : Inverter :=
  let counted := curgeneration1000 (outputEnergy1000 decoded)
  let powered := power1000 T (seconds1000 (outputEnergy1000 decoded)) counted
  let reported := status1000 ecuType data powered
  updateChanges (reported.statusWeb.getD 17 nul) (reported.statusWeb.getD 18 nul) reported

/-- `resolvedata_1000`: its return value and the inverter. -/
def resolvedata1000 (T : Target) (ecu : EcuInfo) (data : Frame) (inverter : Inverter) : Nat × Inverter :=
  let decoded := decode1000 T data inverter
  if Jumped decoded then (0, { decoded with dataflag := 0 })
  else
    let changed := report1000 T ecu.ecuType data decoded
    (1, { yc1000Status (checkYc1000 ecu.ecuType changed) with lastReportTime := ecu.broadcastTime })

/-! ## YC600 -/

/-- The power factors for the active and the reactive power. -/
def factors (T : Target) (code : Nat) : ℚ × ℚ :=
  if code = 0x1F then (1, 0)
  else if 11 ≤ code ∧ code ≤ 20 then
    let factor1 : ℚ := (code - 11) / 10
    (factor1, T.sqrt (1 - factor1 * factor1))
  else if 0 < code ∧ code < 11 then
    let factor2 : ℚ := (code - 1) / 10
    (T.sqrt (1 - factor2 * factor2), factor2)
  else (0, 0)

/-- The measurements and accumulators of a YC600 report, with the temperature and the grid voltage as
its version scales them. -/
def decode600 (T : Target) (it : Int) (gv : ℚ) (data : Frame) (inverter : Inverter) : Inverter :=
  let dv : ℚ := (data.byte 14 * 16 + data.byte 13 / 16 * 16 : Nat) * (825 / 10) / 4096
  let dvb : ℚ := (data.byte 17 * 16 + data.byte 16 / 16 * 16 : Nat) * (825 / 10) / 4096
  let di : ℚ := (data.byte 13 % 16 * 256 + data.byte 12 : Nat) * (275 / 10) / 4096
  let dib : ℚ := (data.byte 16 % 16 * 256 + data.byte 15 : Nat) * (275 / 10) / 4096
  let curaccgen := data.accgen600 32
  let curaccgenb := data.accgen600 27
  { inverter with
    it := it
    gf := if data.byte 2 = 0 ∧ data.byte 3 = 0 ∧ data.byte 4 = 0 then 0 else 50000000 / data.word24 2
    curacctime := data.acctime
    dvb := dvb
    dv := dv
    dib := dib
    di := di
    gv := T.toInt gv
    curaccgenb := curaccgenb
    curaccgen := curaccgen
    reactivePower := (factors T (data.byte 37)).2 * (94 / 100) * (dv * di + dvb * dib)
    activePower := (factors T (data.byte 37)).1 * (94 / 100) * (dv * di + dvb * dib)
    curOutputEnergy := (curaccgen + curaccgenb) * (94 / 100) * data.byte 37 }

def outputEnergy600 (inverter : Inverter) : Inverter :=
  let continued : Bool :=
    inverter.curOutputEnergy ≥ inverter.preOutputEnergy ∧ inverter.curacctime ≥ inverter.preacctime
  { inverter with
    outputEnergy := sinceLast continued inverter.curOutputEnergy inverter.preOutputEnergy
    preOutputEnergy := inverter.curOutputEnergy }

/-- Neither accumulator nor the time has become less. -/
def Continued600 (inverter : Inverter) : Prop :=
  inverter.curaccgen ≥ inverter.preaccgen ∧ inverter.curaccgenb ≥ inverter.preaccgenb ∧
    inverter.curacctime ≥ inverter.preacctime

instance (inverter : Inverter) : Decidable (Continued600 inverter) :=
  inferInstanceAs (Decidable (_ ∧ _))

def curgeneration600 (inverter : Inverter) : Inverter :=
  let continued : Bool := Continued600 inverter
  { inverter with
    curgeneration := sinceLast continued inverter.curaccgen inverter.preaccgen
    curgenerationb := sinceLast continued inverter.curaccgenb inverter.preaccgenb
    preacctime := inverter.curacctime
    preaccgen := inverter.curaccgen
    preaccgenb := inverter.curaccgenb }

def seconds600 (inverter : Inverter) : Int :=
  if Continued600 inverter then inverter.curacctime - inverter.preacctime else inverter.curacctime

def power600 (T : Target) (seconds : Int) (inverter : Inverter) : Inverter :=
  let power (gen dv di : ℚ) : Int :=
    channelPower T 360 seconds inverter.curacctime gen (T.toInt (dv * di))
  { inverter with
    op := power inverter.curgeneration inverter.dv inverter.di
    opb := power inverter.curgenerationb inverter.dvb inverter.dib }

/-- The bits of `status_web` in a YC600 report; `ofNew` are bits 25 to 28, which the new version
reports. -/
def statusWeb600 (data : Frame) (ofNew : List Byte) : List Byte :=
  [data.bit 25 6, data.bit 25 7] ++ List.replicate 6 (digit 0) ++
  [data.bit 25 1, data.bit 26 7, data.bit 26 6, data.bit 26 5] ++ List.replicate 4 (digit 0) ++
  [data.bit 25 0, data.bit 26 4, data.bit 26 3, data.bit 26 0, digit 0, data.bit 25 3, data.bit 25 2,
    data.bit 25 5, data.bit 25 4] ++ ofNew ++ List.replicate 8 (digit 0)

/-- `high` and `low` are the indices of the grid voltage bits. -/
def status600 (ecuType : Int) (web : List Byte) (high low : Nat) (inverter : Inverter) : Inverter :=
  let disconnected : Bool := web.getD 19 nul = digit 1
  { inverter with
    statusWeb := web ++ inverter.statusWeb.drop 37
    status := pickStatus web [1, 0, high, low, 8, 9, 16, 17, 18, 19] ++ inverter.status.drop 11
    statusb := pickStatus web [1, 0, high, low, 10, 11, 16, 17, 18, 19] ++ inverter.statusb.drop 11
    gf :=
      if disconnected then
        if inverter.model = 3 then 50
        else if inverter.model = 4 then 60
        else if inverter.model = 7 then (if ecuType = 1 then 50 else 60)
        else inverter.gf
      else inverter.gf
    gv := if disconnected then 0 else inverter.gv }

/-- `yc600_status`. -/
def yc600Status (inverter : Inverter) : Inverter :=
  let web := inverter.statusWeb
  let reported (i : Nat) : Byte := web.getD i nul
  if anySet web [0, 1, 16, 17, 18, 19, 21, 22, 23, 24, 25, 26, 27, 28] = digit 1 then
    { inverter with
      statusEma := cstr inverter.id ++ str "07" ++
        [anySet web [0, 1, 19, 21, 22, 23, 24], anySet web [16], anySet web [17, 28], anySet web [18]] ++
        [reported 0, reported 1, reported 19, reported 22, reported 21, reported 16, reported 17,
          reported 18, digit 0, reported 23, reported 24, reported 25, reported 26, reported 27,
          reported 28] ++ List.replicate 8 (digit 0) ++ str "END"
      statusSendFlag := 1 }
  else { inverter with statusEma := [], statusSendFlag := 0 }

/-- A report up to the range check. -/
def report600 (T : Target) (ecuType : Int) (web : List Byte) (high low : Nat) (decoded : Inverter) :
    Inverter :=
  let counted := curgeneration600 (outputEnergy600 decoded)
  let powered := power600 T (seconds600 (outputEnergy600 decoded)) counted
  let reported := status600 ecuType web high low powered
  updateChanges (reported.statusWeb.getD 17 nul) (reported.statusWeb.getD 18 nul) reported

/-- The common body of the two YC600 functions. -/
def resolve600 (T : Target) (ecu : EcuInfo) (it : Int) (gv : ℚ) (web : List Byte) (high low : Nat)
    (data : Frame) (inverter : Inverter) : Nat × Inverter :=
  let changed := report600 T ecu.ecuType web high low (decode600 T it gv data inverter)
  (1, { yc600Status (checkYc500 ecu.ecuType changed) with lastReportTime := ecu.broadcastTime })

/-- `resolvedata_600`. -/
def resolvedata600 (T : Target) (ecu : EcuInfo) (data : Frame) (inverter : Inverter) : Nat × Inverter :=
  resolve600 T ecu ((((data.byte 0 * 256 + data.byte 1) * 330 : Nat) - 245760 : Int).tdiv 4096)
    ((data.byte 18 * 256 + data.byte 19 : Nat) / (13277 / 10000))
    (statusWeb600 data (List.replicate 4 (digit 0))) 2 3 data inverter

/-- `resolvedata_600_new`. -/
def resolvedata600New (T : Target) (ecu : EcuInfo) (data : Frame) (inverter : Inverter) : Nat × Inverter :=
  resolve600 T ecu
    (T.toInt ((((data.byte 0 * 256 + data.byte 1) * 3300 / 4092 : Nat) - 757 : Int) / (285 / 100)))
    ((data.byte 18 * 256 + data.byte 19 : Nat) / (133 / 100))
    (statusWeb600 data [data.bit 24 2, data.bit 24 1, data.bit 24 0, data.bit 26 1]) 23 24 data inverter

end Ecu
