import Ecu.Protection.Handlers

/-!
# The commands that wait for the main thread (`inverter_maxpower.c`, `inverter_onoff.c`, `inverter_gfdi.c`, `inverter_ird.c`)

A110, A111 and A112 write their table anew, a row for each inverter they name or for each one in `/home/data/id`; A127
replaces the rows of those it names. What a buffer on the stack holds at first is a parameter.
-/

namespace Ecu.Command

open Socket Protection

/-! ## Messages and ids -/

/-- `msg_num_check` for items that end in `END`. -/
def msgNumCheckEnd (s : List Byte) (num : Int) (len : Nat) : Bool :=
  strlen s = unsigned (num * (len + 3))

/-- `inverter_id`: the first characters of the `i`-th item of `len`. -/
def inverterId (msg : List Byte) (len i : Nat) : List Byte :=
  cstr ((msg.drop (i * len)).take 12)

/-- `msgcat_s` -/
def msgcatS (s : List Byte) (size : Nat) (value : List Byte) : List Byte :=
  s ++ (List.replicate (size - strlen value) (digit 0) ++ cstr value).take size

/-- `msgcat_d` -/
def msgcatD (s : List Byte) (size : Nat) (value : Int) : List Byte :=
  if value < 0 then s ++ List.replicate size letterA else msgcatS s size (Decimal.intText value)

/-- A line is read and looked for among those that came before. -/
def numStep (found : List (List Byte) × List Byte) (line : List Byte) : List (List Byte) × List Byte :=
  let data := memcpy found.2 (line ++ [nul])
  (if data.take 12 ∈ found.1 then found.1 else found.1 ++ [data.take 12], data)

/-- `get_num_from_id` -/
def getNumFromId (data idFile : List Byte) : List (List Byte) :=
  ((Lines.readLines newline 200 idFile).foldl numStep ([], data)).1

/-! ## A110 -/

/-- `set_maxpower_num`: the file anew. -/
def setMaxpowerNum (msg : List Byte) (num : Nat) : List Byte :=
  (List.range num).flatMap fun i =>
    let maxpower := msgGetInt (msg.drop (i * 18 + 12)) 3
    if maxpower < 0 then [] else csvRow [inverterId msg 18 i, wd 3 maxpower, [], [], [], str "1"]

/-- `set_maxpower_all` -/
def setMaxpowerAll (data idFile : List Byte) (maxpower : Int) : List Byte :=
  let msg := (getNumFromId data idFile).foldl
    (fun msg id => msgcatS (msgcatD (msgcatS msg 12 id) 3 maxpower) 3 (str "END")) []
  setMaxpowerNum msg (strlen msg / 18)

/-- `set_inverter_maxpower`; `file` is `/home/data/power`. -/
def setInverterMaxpower (recvbuffer data idFile file : List Byte) : List Byte :=
  let type := msgGetInt (recvbuffer.drop 30) 1
  let num := msgGetInt (recvbuffer.drop 31) 4
  if type = 0 then
    let maxpower := msgGetInt (recvbuffer.drop 52) 3
    if 0 ≤ maxpower then setMaxpowerAll data idFile maxpower else file
  else if type = 1 then
    if msgNumCheckEnd (recvbuffer.drop 52) num 15 then setMaxpowerNum (recvbuffer.drop 52) num.toNat else file
  else file

/-! ## A111 -/

/-- `turn_onoff_all`: the file anew. -/
def turnOnoffAll (data idFile : List Byte) (type : Int) : List Byte :=
  (getNumFromId data idFile).flatMap fun id => csvRow [cstr id, Decimal.intText type]

/-- `turn_onoff_num`: the file anew. The message has 0 for on, the table 1. -/
def turnOnoffNum (msg : List Byte) (num : Nat) : List Byte :=
  (List.range num).flatMap fun i =>
    csvRow [inverterId msg 16 i, Decimal.intText (msgGetInt (msg.drop (i * 16 + 12)) 1 + 1)]

/-- `set_inverter_onoff`; `file` is `/home/data/turnonof`. -/
def setInverterOnoff (recvbuffer data idFile file : List Byte) : List Byte :=
  let type := msgGetInt (recvbuffer.drop 30) 1
  let num := msgGetInt (recvbuffer.drop 31) 4
  if type = 0 then turnOnoffAll data idFile 1
  else if type = 1 then turnOnoffAll data idFile 2
  else if type = 2 then
    if msgNumCheckEnd (recvbuffer.drop 52) num 13 then turnOnoffNum (recvbuffer.drop 52) num.toNat else file
  else file

/-! ## A112 -/

/-- `clear_all`: the file anew. -/
def clearAll (data idFile : List Byte) : List Byte :=
  (getNumFromId data idFile).flatMap fun id => csvRow [cstr id, str "1"]

/-- `clear_num`: the file anew. -/
def clearNum (msg : List Byte) (num : Nat) : List Byte :=
  (List.range num).flatMap fun i =>
    if msgGetInt (msg.drop (i * 16 + 12)) 1 ≠ 0 then csvRow [inverterId msg 16 i, str "1"] else []

/-- `clear_inverter_gfdi`; `file` is `/home/data/clrgfdi`. -/
def clearInverterGfdi (recvbuffer data idFile file : List Byte) : List Byte :=
  let type := msgGetInt (recvbuffer.drop 30) 1
  let num := msgGetInt (recvbuffer.drop 31) 4
  if type = 0 then clearAll data idFile
  else if type = 1 then
    if msgNumCheckEnd (recvbuffer.drop 52) num 13 then clearNum (recvbuffer.drop 52) num.toNat else file
  else file

/-! ## A126 and A127 -/

/-- `/home/data/ird` and the two files in `/tmp`. -/
structure IrdFiles where
  ird : List Byte
  setIrd : List Byte
  getIrd : List Byte

/-- `delete_line` reads a line into its buffer, over what earlier lines have left there, and compares `len` bytes. -/
def deleteStep (compareData : List Byte) (len : Nat) (state : List Byte × List Byte) (line : List Byte) :
    List Byte × List Byte :=
  let data := memcpy state.2 (line ++ [nul])
  (if data.take len = compareData.take len then state.1 else state.1 ++ cstr data, data)

/-- `delete_line` where `compareData` may end before `len`. -/
def deleteLineBytes (file compareData : List Byte) (len : Nat) : List Byte :=
  ((Lines.readLines newline 512 file).foldl (deleteStep compareData len) ([], List.replicate 512 nul)).1

/-- The row of a request in `set_ird_num`. -/
def irdRow (id : List Byte) (ird : Int) : List Byte :=
  csvRow [id, [], Decimal.intText ird, str "1"]

/-- `set_ird_num` -/
def setIrdNum (file msg : List Byte) (num : Nat) : List Byte :=
  (List.range num).foldl (fun file i =>
    let id := inverterId msg 16 i
    (insertLine (deleteLineBytes file (fieldBytes 12 id) 12) (irdRow id (msgGetInt (msg.drop (i * 16 + 12)) 1))).1) file

/-- `read_inverter_ird` -/
def readInverterIrd (files : IrdFiles) : IrdFiles :=
  { files with getIrd := str "ALL" }

/-- `set_inverter_ird` -/
def setInverterIrd (recvbuffer : List Byte) (files : IrdFiles) : IrdFiles :=
  let type := msgGetInt (recvbuffer.drop 30) 1
  let num := msgGetInt (recvbuffer.drop 31) 4
  if type = 0 then
    let ird := msgGetInt (recvbuffer.drop 52) 1
    if ird = 1 then { files with setIrd := str "ALL,1" }
    else if ird = 2 then { files with setIrd := str "ALL,2" }
    else if ird = 3 then { files with setIrd := str "ALL,3" }
    else files
  else if type = 1 then
    if msgNumCheckEnd (recvbuffer.drop 52) num 13 then
      { files with ird := setIrdNum files.ird (recvbuffer.drop 52) num.toNat }
    else files
  else files

end Ecu.Command
