import Ecu.Inverter.Resolve
import Ecu.Record.Protocol

/-!
# Asking an inverter (`zigbee.c`)

A reply is what is read from the modem: a header that names the short address and the id of the inverter, and the
frame. `zb_query_data` takes a frame whose length is a multiple of 88, checks its envelope and its sum, marks the
inverter as answered and decodes by model and type. What the modem reads is a parameter: `none` is a timeout.
-/

namespace Ecu.Poll

/-- `inverter_info`: the fields that the queries use, besides those of the reports. -/
structure InverterInfo extends Inverter where
  shortaddr : Nat
  bindflag : Nat := 0
  deputyModel : Nat := 0
  version : Int := 0
  noGetdataNum : Nat := 0
  zigbeeVersion : Nat := 0
  flag : Nat := 0
deriving DecidableEq

/-- `data[i]` -/
def byteAt (data : List Byte) (i : Nat) : Nat :=
  (data.getD i nul).toNat

/-! ## The reply of an inverter -/

/-- One digit of `%x`. -/
def hexDigit (d : Nat) : Byte :=
  UInt8.ofNat (if d < 10 then 0x30 + d else 0x57 + d)

/-- `"%02x"` for each byte. -/
def hexText (bytes : List Byte) : List Byte :=
  bytes.flatMap fun b => [hexDigit (b.toNat / 16), hexDigit (b.toNat % 16)]

/-- The header of a reply names this inverter. -/
def FromInverter (x : InverterInfo) (dataAll : List Byte) : Prop :=
  12 < dataAll.length ∧ byteAt dataAll 0 = 0xFC ∧ byteAt dataAll 1 = 0xFC ∧ byteAt dataAll 2 = x.shortaddr / 256 ∧
    byteAt dataAll 3 = x.shortaddr % 256 ∧ cstr x.id = hexText ((dataAll.drop 6).take 6)

instance (x : InverterInfo) (dataAll : List Byte) : Decidable (FromInverter x dataAll) :=
  inferInstanceAs (Decidable (_ ∧ _))

/-- `zb_get_reply`: the frame; `none` where it returns -1. -/
def zbGetReply (x : InverterInfo) (reply : Option (List Byte)) : Option (List Byte) :=
  match reply with
  | none => none
  | some dataAll => if FromInverter x dataAll then some (dataAll.drop 12) else none

/-! ## Frames -/

/-- The sum of the bytes 2 to 83. -/
def checkSum (data : List Byte) : Nat :=
  ((List.range 82).map fun i => byteAt data (i + 2)).sum

/-- The length and the envelope of a data frame. -/
def Enveloped (data : List Byte) : Prop :=
  data.length ≠ 0 ∧ data.length % 88 = 0 ∧ byteAt data 0 = 0xFB ∧ byteAt data 1 = 0xFB ∧ byteAt data 86 = 0xFE ∧
    byteAt data 87 = 0xFE

/-- The sum is that of the frame, or it is left out. -/
def Checked (data : List Byte) : Prop :=
  byteAt data 84 = 0 ∧ byteAt data 85 = 0 ∨ checkSum data / 256 = byteAt data 84 ∧ checkSum data % 256 = byteAt data 85

instance (data : List Byte) : Decidable (Enveloped data) :=
  inferInstanceAs (Decidable (_ ∧ _))

instance (data : List Byte) : Decidable (Checked data) :=
  inferInstanceAs (Decidable (_ ∨ _))

/-! ## The queries -/

/-- `zb_query_inverter_info`: 1 and the model and version, or -1. -/
def zbQueryInverterInfo (x : InverterInfo) (reply : Option (List Byte)) : Int × InverterInfo :=
  match zbGetReply x reply with
  | none => (-1, x)
  | some recv =>
    if recv.length = 16 ∧ byteAt recv 0 = 0xFB ∧ byteAt recv 1 = 0xFB ∧ byteAt recv 2 = 0x09 ∧ byteAt recv 3 = 0xDC ∧
        byteAt recv 14 = 0xFE ∧ byteAt recv 15 = 0xFE then
      (1, { x with
        model := byteAt recv 4
        version := (byteAt recv 5 * 256 + byteAt recv 6) * 1000 + (byteAt recv 8 * 256 + byteAt recv 9) })
    else (-1, x)

section Query

variable (T : Target) (ecu : EcuInfo)

/-- What `zb_query_data` does with a frame whose sum is right. -/
def resolveData (x : InverterInfo) (data : List Byte) : InverterInfo :=
  let x := { x with noGetdataNum := 0, dataflag := 1 }
  if x.model = 7 then
    if byteAt data 3 = 0xBB then
      { x with toInverter := (resolvedata600 T ecu (data.drop 4) x.toInverter).2, deputyModel := 1 }
    else if byteAt data 3 = 0xB1 then
      { x with toInverter := (resolvedata600New T ecu (data.drop 4) x.toInverter).2, deputyModel := 2 }
    else x
  else if x.model = 5 then { x with toInverter := (resolvedata1000 T ecu (data.drop 4) x.toInverter).2 }
  else if x.model = 6 then { x with toInverter := (resolvedata1000 T ecu (data.drop 4) x.toInverter).2 }
  else x

/-- `zb_query_data`: 1, or -1 when no frame was accepted. -/
def zbQueryData (x : InverterInfo) (reply : Option (List Byte)) : Int × InverterInfo :=
  match zbGetReply x reply with
  | none => (-1, { x with dataflag := 0 })
  | some data =>
    if Enveloped data ∧ Checked data then (1, resolveData T ecu x data) else (-1, { x with dataflag := 0 })

end Query

end Ecu.Poll
