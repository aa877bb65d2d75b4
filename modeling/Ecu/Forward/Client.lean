import Ecu.Forward.Dir

/-!
# The client queue (`client.c`, `save_record`)

Round records live in `/home/record/data`, one file a day, each line
`payload,YYYYMMDDHHMMSS,flag`. Flag `'1'` is unsent, `'2'` sent, `'0'` confirmed. The server's
answer to a transmission is a parameter: `none` where `serverCommunication_Client` returns `-1`.
-/

namespace Ecu.Forward

/-- `save_record`: a newline, then the record with flag `'1'`, into the file of its day. -/
def saveRecord (d : Dir) (pos : Nat) (sendbuff dateTime : List Byte) : Dir :=
  appendFile d pos (dayFile dateTime)
    (newline :: (sendbuff ++ comma :: dateTime ++ [comma, digit 1, newline]))

def recordSeps : List Nat := [3, 18]

/-- `change_resendflag`: by the time of the record alone. -/
def changeResendflag (d : Dir) (time : List Byte) (flag : Byte) : Nat × Dir :=
  changeFlag (fun buff => separated recordSeps buff && time.take 14 == sliceFromEnd buff 17 14) flag d

/-- `search_readflag`. -/
def searchReadflag (d : Dir) (data time : List Byte) (sendflag : Byte) : SearchOut :=
  searchFlag { first := [3, 18], same := [3, 18], later := [3, 18], cut := 18, keys := [(17, 14)] }
    d data [time] sendflag

/-- `delete_file_resendflag0`. -/
def deleteFileResendflag0 (d : Dir) : Dir :=
  deleteFlag0 [3, 18] d

/-- `detection_resendflag2`. -/
def detectionResendflag2 (d : Dir) : Bool :=
  detectFlag [3, 18] (digit 2) d

/-- Up to `n` attempts, until one returns 1. -/
def attempts (f : Dir → Nat × Dir) : Nat → Dir → Dir
  | 0, d => d
  | n + 1, d => if (f d).1 = 1 then (f d).2 else attempts f n (f d).2

/-! ## The server's answer -/

/-- An answer: the receive buffer and the length reported with it. -/
structure Reply where
  readbuff : List Byte
  readbytes : Nat
deriving DecidableEq, Repr

/-- The two digits after the first byte of the answer, as the code computes them. -/
def replyCount (readbuff : List Byte) : Int :=
  ((readbuff.getD 1 nul).toNat - 0x30 : Int) * 10 + ((readbuff.getD 2 nul).toNat - 0x30)

/-- The times the answer confirms: `count` of them when the length agrees, else none. -/
def confirmedTimes (readbuff : List Byte) : List (List Byte) :=
  if 3 ≤ strlen readbuff ∧ replyCount readbuff = ((strlen readbuff - 3) / 14 : Nat) then
    (List.range (replyCount readbuff).toNat).map fun i => (readbuff.drop (3 + i * 14)).take 14
  else []

/-- `clear_send_flag`: every confirmed time gets flag `'0'`, each with up to three attempts. -/
def clearSendFlag (d : Dir) (readbuff : List Byte) : Dir :=
  (confirmedTimes readbuff).foldl
    (fun d recvDateTime => attempts (fun d => changeResendflag d recvDateTime (digit 0)) 3 d) d

/-- `update_send_flag`: flag `'2'` for the time sent, with up to three attempts. -/
def updateSendFlag (d : Dir) (sendDateTime : List Byte) : Dir :=
  attempts (fun d => changeResendflag d sendDateTime (digit 2)) 3 d

/-- `send_record` after the exchange with the server: its return value and the directory. -/
def sendRecord (d : Dir) (sendDateTime : List Byte) (answer : Option Reply) : Int × Dir :=
  match answer with
  | none => (-1, d)
  | some r =>
    if r.readbytes < 3 then (-1, d)
    else
      (0, clearSendFlag
        (if r.readbuff.head? = some (digit 1) then updateSendFlag d sendDateTime else d) r.readbuff)

/-- `preprocess`: asks for the times of the records sent before, when there are any. -/
def preprocess (d : Dir) (answer : Option Reply) : Int × Dir :=
  if detectionResendflag2 d = false then (0, d)
  else
    match answer with
    | none => (-1, d)
    | some r => if 3 < r.readbytes then (0, clearSendFlag d r.readbuff) else (-1, d)

/-! ## Resending -/

/-- Where the first line with the flag stands: file and line, counted from 0. It is what
`search_readflag` copies out, named by its place. -/
def placeOf (d : Dir) (sendflag : Byte) : Option (Nat × Nat) :=
  match d.findIdx? fun e => (buffLines e.2).any (hits recordSeps sendflag) with
  | some i => some (i, ((d.map fun e => buffLines e.2).getD i []).findIdx (hits recordSeps sendflag))
  | none => none

/-- One transmission: the place of the record and the string handed to the server. -/
structure Sent where
  place : Nat × Nat
  text : List Byte
deriving DecidableEq, Repr

/-- The loop of `resend_record`, for at most `fuel` rounds; `none` when it is still running then.
`answers k` is the answer to its `k`-th transmission. -/
def resendLoop (answers : Nat → Option Reply) : Nat → Nat → Dir → Option (List Sent × Dir)
  | 0, _, _ => none
  | fuel + 1, k, d =>
    let out := searchReadflag d (List.replicate dataBuffer nul) (List.replicate 15 nul) (digit 2)
    if out.ret = 0 then some ([], d)
    else
      let sent : Sent := ⟨(placeOf d (digit 2)).getD (0, 0), cstr out.data⟩
      let res := sendRecord d (out.keys.getD 0 []) (answers k)
      if res.1 = -1 then some ([sent], res.2)
      else (resendLoop answers fuel (k + 1) res.2).map fun tail => (sent :: tail.1, tail.2)

/-- `resend_record`. -/
def resendRecord (answers : Nat → Option Reply) (fuel : Nat) (d : Dir) : Option (List Sent × Dir) :=
  resendLoop answers fuel 0 d

end Ecu.Forward
