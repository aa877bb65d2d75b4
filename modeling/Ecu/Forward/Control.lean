import Ecu.Forward.Dir

/-!
# The queues of the control client (`control_client.c` and the save functions of `file.c`)

Inverter status (`/home/record/inversta`, keyed like the client's records), process results
(`/home/data/proc_res`, keyed by the command number) and inverter process results
(`/home/data/iprocres`, keyed by the inverter and the command number).
-/

namespace Ecu.Forward

/-! ## Inverter status -/

/-- `save_status`. -/
def saveStatus (d : Dir) (pos : Nat) (result dateTime : List Byte) : Dir :=
  appendFile d pos (dayFile dateTime)
    (newline :: (result ++ comma :: dateTime ++ [comma, digit 1, newline]))

/-- `change_statusflag`. -/
def changeStatusflag (d : Dir) (time : List Byte) (flag : Byte) : Nat × Dir :=
  changeFlag (fun buff => separated [3, 18] buff && time.take 14 == sliceFromEnd buff 17 14) flag d

/-- `change_statusflag1`: tests the flag only, no separator. -/
def changeStatusflag1 (d : Dir) : Nat × Dir :=
  changeFlag (fun buff => separated [] buff && fromEnd buff 2 == some (digit 2)) (digit 1) d

/-- `search_statusflag`. -/
def searchStatusflag (d : Dir) (data time : List Byte) (sendflag : Byte) : SearchOut :=
  searchFlag { first := [3, 18], same := [3, 18], later := [3, 18], cut := 18, keys := [(17, 14)] }
    d data [time] sendflag

/-- `delete_statusflag0`. -/
def deleteStatusflag0 (d : Dir) : Dir :=
  deleteFlag0 [3, 18] d

/-! ## Process results -/

/-- `%3d` of a non-negative number. -/
def format3d (item : Nat) : List Byte :=
  let digits := (Nat.toDigits 10 item).map Char.toUInt8
  List.replicate (3 - digits.length) 0x20 ++ digits

/-- `save_process_result`: drops one trailing newline of the message, appends the command number. -/
def saveProcessResult (d : Dir) (pos : Nat) (time : List Byte) (item : Nat) (result : List Byte) : Dir :=
  let result := if result.getLast? = some newline then result.dropLast else result
  appendFile d pos (dayFile time)
    (newline :: (result ++ comma :: format3d item ++ [comma, digit 1, newline]))

/-- `change_pro_result_flag`: the first unsent result of that command. -/
def changeProResultFlag (d : Dir) (item : List Byte) (flag : Byte) : Nat × Dir :=
  changeFlag (fun buff => separated [3, 7] buff && fromEnd buff 2 == some (digit 1) &&
    item.take 4 == sliceFromEnd buff 6 3 ++ [nul]) flag d

/-- `search_pro_result_flag`: the later files are scanned with the separators of another queue. -/
def searchProResultFlag (d : Dir) (data item : List Byte) (sendflag : Byte) : SearchOut :=
  searchFlag { first := [3, 7], same := [3, 7], later := [3, 18], cut := 7, keys := [(6, 3)] }
    d data [item] sendflag

/-- `delete_pro_result_flag0`. -/
def deleteProResultFlag0 (d : Dir) : Dir :=
  deleteFlag0 [3, 7] d

/-! ## Inverter process results -/

/-- `save_inverter_parameters_result`, and `save_inverter_parameters_result2` with the id itself. -/
def saveInverterParametersResult (d : Dir) (pos : Nat) (time id : List Byte) (item : Nat)
    (inverterResult : List Byte) : Dir :=
  appendFile d pos (dayFile time)
    (newline :: (inverterResult ++ comma :: id ++ comma :: format3d item ++ [comma, digit 1, newline]))

/-- `change_inv_pro_result_flag`: the first unsent result of that command, of any inverter. -/
def changeInvProResultFlag (d : Dir) (item : List Byte) (flag : Byte) : Nat × Dir :=
  changeFlag (fun buff => separated [3, 7, 20] buff && fromEnd buff 2 == some (digit 1) &&
    item.take 4 == sliceFromEnd buff 6 3 ++ [nul]) flag d

/-- `search_inv_pro_result_flag`: the rest of the same file is scanned with the separators of
another queue. -/
def searchInvProResultFlag (d : Dir) (data item inverterid : List Byte) (sendflag : Byte) : SearchOut :=
  searchFlag
    { first := [3, 7, 20], same := [3, 18], later := [3, 7, 20], cut := 20,
      keys := [(6, 3), (19, 12)] }
    d data [item, inverterid] sendflag

/-- `delete_inv_pro_result_flag0`. -/
def deleteInvProResultFlag0 (d : Dir) : Dir :=
  deleteFlag0 [3, 7, 20] d

end Ecu.Forward
