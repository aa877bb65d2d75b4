import Ecu.Command.Table
import Ecu.Poll.Files

/-!
# The ids of the inverters (`inverter_id.c`, `init_inverter_A103`)

A103 adds rows to `/home/data/id`, takes rows out or removes the file, and lets the table in memory and the main thread
start again. A102 answers with the ids. Files are opened and written without failure; a missing file reads as an empty
one.
-/

namespace Ecu.Poll.InverterInfo

/-- An entry that `init_inverter_A103` has cleared; what it does not name stays. -/
def clearedA103 (x : InverterInfo) : InverterInfo :=
  { x with
    id := []
    model := 0
    dv := 0
    di := 0
    op := 0
    gf := 0
    it := 0
    gv := 0
    dvb := 0
    dib := 0
    opb := 0
    gvb := 0
    dvc := 0
    dic := 0
    opc := 0
    gvc := 0
    dvd := 0
    did := 0
    opd := 0
    curgeneration := 0
    curgenerationb := 0
    preaccgen := 0
    preaccgenb := 0
    curaccgen := 0
    curaccgenb := 0
    preacctime := 0
    curacctime := 0
    statusWeb := List.replicate 50 nul
    status := List.replicate 12 nul
    statusb := List.replicate 12 nul
    dataflag := 0
    noGetdataNum := 0 }

/-- An entry with the columns of a row. -/
def withColumns (x row : InverterInfo) : InverterInfo :=
  { x with
    id := row.id
    shortaddr := row.shortaddr
    model := row.model
    version := row.version
    bindflag := row.bindflag
    zigbeeVersion := row.zigbeeVersion
    flag := row.flag }

end Ecu.Poll.InverterInfo

namespace Ecu.Command

open Socket Protection Poll

/-! ## A102 -/

/-- What an answer says of the ECU: `ecu.id` and the texts of `area.con` and `vernum.con`. -/
structure EcuTexts where
  id : List Byte
  area : List Byte
  versionNumber : List Byte

/-- `%02d` -/
def twoDigits (n : Nat) : List Byte :=
  List.replicate (2 - (Decimal.text n).length) (digit 0) ++ Decimal.text n

/-- `version_msg` in `ecu_msg`. -/
def versionMsg (ecu : EcuTexts) : List Byte :=
  let version := str "R_1.0"
  if strlen ecu.versionNumber ≠ 0 then
    twoDigits (version.length + strlen ecu.area + 2 + strlen ecu.versionNumber) ++ version ++ cstr ecu.area ++
      str "--" ++ cstr ecu.versionNumber
  else twoDigits version.length ++ version ++ cstr ecu.area

/-- `ecu_msg` -/
def ecuMsg (ecu : EcuTexts) (sendbuffer : List Byte) (num : Nat) (recvbuffer : List Byte) : List Byte :=
  let timestamp := (cstr (recvbuffer.drop 34)).take 14
  msgcatS (msgcatS (msgcatD (msgcatS sendbuffer 12 ecu.id ++ versionMsg ecu) 3 num) 14 timestamp) 3 (str "END")

/-- `inverter_msg` -/
def inverterMsg (sendbuffer id : List Byte) : List Byte :=
  sendbuffer ++ cstr id ++ str "00" ++ str "00000" ++ str "END"

/-- `response_inverter_id` -/
def responseInverterId (ecu : EcuTexts) (recvbuffer data idFile : List Byte) : List Byte :=
  let inverterIds := getNumFromId data idFile
  let head := ecuMsg ecu (str "APS13AAAAAA102AAA0") inverterIds.length recvbuffer
  inverterIds.foldl (fun sendbuffer id => if strlen id = 12 then inverterMsg sendbuffer id else sendbuffer) head

/-! ## A103 -/

/-- `ack_flag` -/
inductive Ack where
  | success | formatError | unsupported | dbError
deriving DecidableEq

/-- The row of a new inverter. -/
def newRow (id : List Byte) : List Byte :=
  csvRow [id, [], [], [], [], [], []]

/-- `add_id`: the file. -/
def addId (file msg : List Byte) (num : Nat) : List Byte :=
  file ++ (List.range num).flatMap fun i => newRow (inverterId msg 15 i)

/-- `delete_id`: the file. -/
def deleteId (file msg : List Byte) (num : Nat) : List Byte :=
  (List.range num).foldl (fun file i => deleteLineBytes file (fieldBytes 12 (inverterId msg 15 i)) 12) file

/-- What A103 changes: the files `id` and `limiteid.con`, the table, `ecu.total` and the timers that are to restart the
main thread, each with its seconds. -/
structure IdState where
  id : List Byte
  limiteid : List Byte
  inverter : List InverterInfo
  total : Nat
  restarts : List Nat

/-- `init_inverter_A103`: all entries are cleared, the first ones get the rows of the file. -/
def initInverterA103 (s : IdState) : IdState :=
  let rows := getIdFromFile s.id
  { s with
    inverter := s.inverter.mapIdx fun i x =>
      match rows[i]? with
      | some row => x.clearedA103.withColumns row
      | none => x.clearedA103
    total := rows.length }

/-- `sscanf` with `"%1d"`: blanks are skipped, then one character is read. -/
def scanDigit (s : List Byte) : Option Int :=
  match (cstr s).dropWhile isSpace with
  | b :: _ => if 0x30 ≤ b ∧ b ≤ 0x39 then some (b.toNat - 0x30) else none
  | [] => none

/-- The operation of A103. Where the text has none, the variable is what the `stack` held. -/
def operation103 (stack : Int) (recvbuffer : List Byte) : Int :=
  (scanDigit (recvbuffer.drop 30)).getD stack

def num103 (recvbuffer : List Byte) : Int :=
  msgGetInt (recvbuffer.drop 31) 3

/-- The ids that A103 names. -/
def named103 (recvbuffer : List Byte) : List (List Byte) :=
  (List.range (num103 recvbuffer).toNat).map (inverterId (recvbuffer.drop 51) 15)

/-- `set_inverter_id` -/
def setInverterId (stack : Int) (recvbuffer : List Byte) (s : IdState) : Ack × IdState :=
  let flag := operation103 stack recvbuffer
  let num := num103 recvbuffer
  let msg := recvbuffer.drop 51
  let restart (s : IdState) : IdState :=
    let s := initInverterA103 s
    { s with restarts := s.restarts ++ [20] }
  if msgNumCheckEnd msg num 12 = false then (.formatError, s)
  else if flag = 0 then (.success, restart { s with id := [] })
  else if flag = 1 then (.success, restart { s with id := addId s.id msg num.toNat, limiteid := str "1" })
  else if flag = 2 then (.success, restart { s with id := deleteId s.id msg num.toNat })
  else (.formatError, restart s)

end Ecu.Command
