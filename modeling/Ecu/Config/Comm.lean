import Ecu.Command.InverterId

/-!
# Communication settings (`comm_config.c`)

A107 sets the addresses of the two servers, A106 reports them. They are stored as lines of names and values, which
`file_get_array` reads into an array and `file_set_array` writes from it.
-/

namespace Ecu.Config

open Socket Command

def equals : Byte := 0x3D

/-- A line that is read, or about to be written. -/
structure MyArray where
  name : List Byte
  value : List Byte
deriving DecidableEq, Repr

/-- A zeroed entry. -/
def blank : MyArray := ⟨[], []⟩

/-- `delete_newline` -/
def deleteNewline (s : List Byte) : List Byte :=
  if s.getLast? = some newline then s.dropLast else s

/-- A line in `file_get_array`; none where it runs over its field. -/
def readEntry (buffer : List Byte) : Option MyArray :=
  let name := (cstr buffer).takeWhile (· ≠ equals)
  let value := cstr (buffer.drop (name.length + 1))
  if name.length < 32 ∧ value.length < 64 then some ⟨name, deleteNewline value⟩ else none

/-- `file_get_array`: whether there is a file, and the array. -/
def fileGetArray (num : Nat) : Option (List Byte) → Option (Bool × List MyArray)
  | none => some (false, List.replicate num blank)
  | some file =>
    let lines := ((Lines.readLines newline 128 file).filter fun buffer => strlen buffer ≠ 0).take num
    (lines.mapM readEntry).map fun entries => (true, entries ++ List.replicate (num - entries.length) blank)

/-- A line of `file_set_array`. -/
def MyArray.text (entry : MyArray) : List Byte :=
  entry.name ++ equals :: (entry.value ++ [newline])

/-- `file_set_array` -/
def fileSetArray (array : List MyArray) : List Byte :=
  array.flatMap MyArray.text

/-- `Comm_Cfg`; where the address has no end in its 32 bytes, these are all of it. -/
@[ext]
structure CommCfg where
  port1 : Int
  port2 : Int
  timeout : Int
  reportInterval : Int
  socketType : Int
  socketAddr : List Byte
deriving DecidableEq, Repr

def CommCfg.zero : CommCfg := ⟨0, 0, 0, 0, 0, []⟩

/-- The address ends inside of its field. -/
def CommCfg.Ends (cfg : CommCfg) : Prop :=
  cfg.socketAddr.length < 32

instance (cfg : CommCfg) : Decidable cfg.Ends := inferInstanceAs (Decidable (_ < _))

/-- An entry in `get_cfg`. -/
def getEntry (cfg : CommCfg) (entry : MyArray) : CommCfg :=
  if entry.name = str "Timeout" then { cfg with timeout := atoi entry.value }
  else if entry.name = str "Report_Interval" then { cfg with reportInterval := atoi entry.value }
  else if entry.name = str "Domain" then
    if entry.value ≠ [] then { cfg with socketType := 1, socketAddr := entry.value.take 32 }
    else { cfg with socketType := 0 }
  else if entry.name = str "IP" then
    if cfg.socketType ≠ 1 then { cfg with socketAddr := entry.value.take 32 } else cfg
  else if entry.name = str "Port1" then { cfg with port1 := atoi entry.value }
  else if entry.name = str "Port2" then { cfg with port2 := atoi entry.value }
  else cfg

/-- `get_cfg` -/
def getCfg : CommCfg → List MyArray → CommCfg
  | cfg, [] => cfg
  | cfg, entry :: array => if entry.name = [] then cfg else getCfg (getEntry cfg entry) array

/-- What a section of A107 says. -/
def sectionCfg (buffer : List Byte) : CommCfg where
  port1 := msgGetInt (buffer.drop 1) 5
  port2 := msgGetInt (buffer.drop 6) 5
  timeout := msgGetInt (buffer.drop 11) 3
  reportInterval := msgGetInt (buffer.drop 14) 2
  socketType := msgGetInt (buffer.drop 16) 1
  socketAddr := (cstr (buffer.drop 17)).take 32

/-- An entry in `save_cfg`; none where the address that it gets has no end. -/
def saveEntry (cfg : CommCfg) (entry : MyArray) : Option MyArray :=
  if entry.name = str "Timeout" then some { entry with value := Decimal.intText cfg.timeout }
  else if entry.name = str "Report_Interval" then some { entry with value := Decimal.intText cfg.reportInterval }
  else if entry.name = str "Domain" then
    if cfg.socketType = 1 then if cfg.Ends then some { entry with value := cfg.socketAddr } else none
    else some entry
  else if entry.name = str "IP" then
    if cfg.socketType = 0 then if cfg.Ends then some { entry with value := cfg.socketAddr } else none
    else some entry
  else if entry.name = str "Port1" then some { entry with value := Decimal.intText cfg.port1 }
  else if entry.name = str "Port2" then some { entry with value := Decimal.intText cfg.port2 }
  else some entry

/-- `save_cfg` -/
def saveCfg (cfg : CommCfg) (array : List MyArray) : Option (List MyArray) :=
  array.mapM (saveEntry cfg)

/-! ## A107 -/

/-- The three files under `/yuneng`. -/
structure Files where
  client : Option (List Byte)
  datacent : Option (List Byte)
  control : Option (List Byte)

/-- The array that A107 starts with. -/
def namedArray : List MyArray :=
  [⟨str "Timeout", []⟩, ⟨str "Report_Interval", []⟩, ⟨str "Domain", []⟩, ⟨str "IP", []⟩, ⟨str "Port1", []⟩,
    ⟨str "Port2", []⟩]

/-- A section in the loop of `set_comm_config`, which keeps the array of the one before. -/
def setSection (buffer : List Byte) (files : Files) (array : List MyArray) : Option (Files × List MyArray) :=
  let cfg := sectionCfg buffer
  let commCfgType := msgGetInt buffer 1
  if commCfgType = 1 then do
    let (_, got) ← fileGetArray 4 files.datacent
    let array ← saveCfg cfg (array.take 2 ++ got)
    return ({ files with
      client := some (fileSetArray (array.take 2))
      datacent := some (fileSetArray (array.drop 2)) }, array)
  else if commCfgType = 2 then do
    let (_, got) ← fileGetArray 6 files.control
    let array ← saveCfg cfg got
    return ({ files with control := some (fileSetArray array) }, array)
  else some (files, array)

/-- `strstr(msg, "END")`: what stands before it. -/
def beforeEnd : List Byte → Option (List Byte)
  | [] => none
  | b :: msg => if str "END" <+: b :: msg then some [] else (beforeEnd msg).map (b :: ·)

/-- The loop of `set_comm_config`. -/
def setSections (recvbuffer : List Byte) : Nat → Nat → Files → List MyArray → Option (Files × List MyArray)
  | 0, _, files, array => some (files, array)
  | num + 1, cfgBegin, files, array =>
    match beforeEnd (cstr (recvbuffer.drop cfgBegin)) with
    | none => do
      let (files, array) ← setSection [] files array
      setSections recvbuffer num (cfgBegin + 2) files array
    | some buffer => do
      let (files, array) ← setSection buffer files array
      setSections recvbuffer num (cfgBegin + buffer.length + 3) files array

/-- `set_comm_config` -/
def setCommConfig (recvbuffer : List Byte) (files : Files) : Option Files :=
  (setSections recvbuffer (msgGetInt (recvbuffer.drop 30) 1).toNat 48 files namedArray).map Prod.fst

/-! ## A106 -/

/-- What A106 reads for its first section: the configuration, if there is `datacent.con`. -/
def clientCfg (files : Files) : Option (Option CommCfg) := do
  let (there, array) ← fileGetArray 6 files.client
  let cfg1 := if there then getCfg .zero array else { CommCfg.zero with timeout := 10, reportInterval := 5 }
  let (there, array) ← fileGetArray 6 files.datacent
  return if there then some (getCfg cfg1 array) else none

/-- What A106 reads for its second section. -/
def controlCfg (files : Files) : Option (Option CommCfg) := do
  let (there, array) ← fileGetArray 6 files.control
  return if there then some (getCfg .zero array) else none

/-- A section of the answer; none where the address has no end. -/
def sectionText (sendbuffer : List Byte) (kind : List Byte) : Option CommCfg → Option (List Byte)
  | none => some sendbuffer
  | some cfg =>
    if cfg.Ends then
      some (msgcatD (msgcatD (msgcatD (msgcatD (msgcatD (sendbuffer ++ kind) 5 cfg.port1) 5 cfg.port2) 3 cfg.timeout) 2
        cfg.reportInterval) 1 cfg.socketType ++ cfg.socketAddr ++ str "END")
    else none

/-- `response_comm_config` -/
def responseCommConfig (ecuId recvbuffer : List Byte) (files : Files) : Option (List Byte) := do
  let cfg1 ← clientCfg files
  let cfg2 ← controlCfg files
  let timestamp := (cstr (recvbuffer.drop 34)).take 14
  let num := (if cfg1.isSome then 1 else 0) + (if cfg2.isSome then 1 else 0)
  let head := msgcatS (msgcatD (msgcatS (str "APS1300000A106AAA0") 12 ecuId) 1 num) 14 timestamp ++ str "END"
  let sendbuffer ← sectionText head (str "1") cfg1
  sectionText sendbuffer (str "2") cfg2

end Ecu.Config
