import Ecu.Poll.Query

/-!
# A polling round (`getalldata`)

In up to five passes the round asks every inverter that has not answered yet; the first pass clears what is left of
the round before. An inverter without a model is asked for that first. `process_all`, which works through the
pending commands in between, changes none of the fields here.

The table is the part of the array before the first entry without an id.
-/

namespace Ecu.Poll

/-- What the modem reads when an inverter is visited: whether it confirms its binding, and the replies to the query
for its model and to the query for its data. -/
structure Answers where
  bound : Bool
  info : Option (List Byte)
  data : Option (List Byte)
deriving DecidableEq

/-- The fields that the first pass clears. -/
def clearRound (x : InverterInfo) : InverterInfo :=
  { x with
    dataflag := 0, dv := 0, di := 0, op := 0, gf := 0, it := 0, gv := 0, dvb := 0, dib := 0, opb := 0
    curgeneration := 0, curgenerationb := 0, statusSendFlag := 0
    statusWeb := List.replicate 50 nul
    status := List.replicate 12 nul
    statusb := List.replicate 12 nul }

section Round

variable (T : Target) (ecu : EcuInfo)

/-- The binding of an inverter, and whether another pass is needed. -/
def bindStep (a : Answers) (x : InverterInfo) : InverterInfo × Bool :=
  if x.bindflag ≠ 1 then if a.bound then ({ x with bindflag := 1 }, false) else (x, true)
  else (x, false)

/-- The model of an inverter that has none. -/
def modelStep (a : Answers) (x : InverterInfo) : InverterInfo × Bool :=
  if x.model = 0 then
    let out := zbQueryInverterInfo x a.info
    (out.2, out.1 ≠ 1)
  else (x, false)

/-- The data of an inverter with a model. -/
def dataStep (a : Answers) (x : InverterInfo) : InverterInfo × Bool :=
  if x.model ≠ 0 then
    let out := zbQueryData T ecu x a.data
    (out.2, out.1 = -1)
  else (x, false)

/-- An inverter in a pass of the loop. -/
def visit (first : Bool) (a : Answers) (x : InverterInfo) : InverterInfo × Bool :=
  let x := if first then clearRound x else x
  if x.dataflag = 0 ∧ x.shortaddr ≠ 0 then
    let bound := bindStep a x
    let modelled := modelStep a bound.1
    let asked := dataStep T ecu a modelled.1
    (asked.1, bound.2 || modelled.2 || asked.2)
  else (x, false)

/-- Pass `j` over the table; `answers j i` is read from the `i`-th inverter. -/
def pass (answers : Nat → Nat → Answers) (j : Nat) (table : List InverterInfo) : List (InverterInfo × Bool) :=
  table.mapIdx fun i x => visit T ecu (j = 0) (answers j i) x

/-- The passes from the `j`-th on, at most `n` more. -/
def passes (answers : Nat → Nat → Answers) : Nat → Nat → List InverterInfo → List InverterInfo
  | 0, _, table => table
  | n + 1, j, table =>
    let out := pass T ecu answers j table
    if out.any Prod.snd then passes answers n (j + 1) (out.map Prod.fst) else out.map Prod.fst

/-- `no_getdata_num` is counted up to 254. -/
def countMissing (x : InverterInfo) : InverterInfo :=
  if x.dataflag = 0 then { x with noGetdataNum := min (x.noGetdataNum + 1) 254 } else x

/-- The table after the round. -/
def pollRound (answers : Nat → Nat → Answers) (table : List InverterInfo) : List InverterInfo :=
  (passes T ecu answers 5 0 table).map countMissing

end Round

end Ecu.Poll
