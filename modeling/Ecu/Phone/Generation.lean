import Ecu.Lib.Layout
import Ecu.Poll.Start
import Ecu.Wifi.Usart5

/-!
# The power message of the phone (`wifi_comm.c`)

The message has a head with the number of inverters, a block for each inverter whose width follows from the type in
it, and its own length. The number is `ecu.total`, which only the start and A103 set; the blocks are those of the
table, which a registration by phone fills too.
-/

namespace Ecu.Phone

open Poll

/-! ## The message -/

/-- `INVERTER_PHONE_PER_LEN` -/
def inverterPhonePerLen : Nat := 27

/-- `INVERTER_PHONE_PER_OTHER` -/
def inverterPhonePerOther : Nat := 100

/-- The buffer `SendData`. -/
def sendDataSize : Nat := maxInverterCount * inverterPhonePerLen + inverterPhonePerOther

/-- `v/256`, `v%256` -/
def word (v : Int) : List Byte :=
  [UInt8.ofInt (v.tdiv 256), UInt8.ofInt (v.tmod 256)]

/-- Two digits in a byte. -/
def packed (text : List Byte) (i : Nat) : Byte :=
  (text.getD (2 * i) nul - 0x30) * 16 + (text.getD (2 * i + 1) nul - 0x30)

/-- The block of an inverter. -/
def block (T : Target) (x : InverterInfo) : List Byte :=
  let uid := (List.range 6).map (packed x.id)
  let data := UInt8.ofNat (x.dataflag % 2)
  let grid := word (T.toInt (x.gf * 10)) ++ word (x.it + 100) ++ word x.op ++ word x.gv ++ word x.opb
  if x.model = 7 then uid ++ [data, 0x30, 0x31] ++ grid ++ word x.gv
  else if x.model = 5 ∨ x.model = 6 then
    uid ++ [data, 0x30, 0x32] ++ grid ++ word x.gvb ++ word x.opc ++ word x.gvc ++ word x.opd
  else uid ++ [0, 0x30, 0x30]

/-- The inverters that the loop goes through. -/
def listed (inverters : List InverterInfo) : List InverterInfo :=
  (inverters.take maxInverterCount).takeWhile fun x => Record.HasId x.toInverter

/-- `SendData[5]` to `SendData[8]` -/
def lengthDigits (packlength : Nat) : List Byte :=
  [digit (packlength / 1000), digit (packlength / 100 % 10), digit (packlength / 10 % 10), digit (packlength % 10)]

/-- `APP_Response_PowerGeneration`. `time` is `ecu.had_data_broadcast_time`. -/
def appResponsePowerGeneration (T : Target) (mapping : Byte) (time : List Byte) (inverters : List InverterInfo)
    (vaildNum : Int) : List Byte :=
  if mapping = 0x01 then str "APS110015000201\n"
  else if time.getD 0 nul = nul then str "APS110015000202\n"
  else
    let body := str "01" ++ word vaildNum ++ (List.range 7).map (packed time) ++ (listed inverters).flatMap (block T)
      ++ str "END"
    str "APS11" ++ lengthDigits (15 + body.length) ++ str "000200" ++ body ++ [newline]

/-! ## The number and the table -/

/-- `ecu.total` and the table. -/
structure Shown where
  inverters : List InverterInfo
  total : Int

/-- The states after a start, with the id files that were counted and loaded last. -/
inductive Reached : List Byte → List Byte → Shown → Prop
  /-- `init_inverter` and `init_inverter_A103` -/
  | count (ids : List Byte) : Reached ids ids ⟨getIdFromFile ids, (getIdFromFile ids).length⟩
  /-- `Phone_RegisterID` -/
  | register {counted loaded : List Byte} {s : Shown} (before : Reached counted loaded s) (ids : List Byte) :
    Reached counted ids ⟨getIdFromFile ids, s.total⟩
  /-- A round changes the data of the inverters. -/
  | round {counted loaded : List Byte} {s : Shown} (before : Reached counted loaded s) {inverters : List InverterInfo}
    (same : inverters.map (·.id) = s.inverters.map (·.id)) : Reached counted loaded ⟨inverters, s.total⟩

/-! ## What the phone reads -/

/-- The width of a block of this type. -/
def blockWidth (kind : List Byte) : Option Nat :=
  if kind = str "01" then some 21 else if kind = str "02" then some 27 else if kind = str "00" then some 9 else none

def readBlock : Layout.Reader Byte (List Byte) := fun text =>
  (blockWidth ((text.drop 7).take 2)).bind fun width =>
    if text.length < width then none else some (text.take width, text.drop width)

/-- The number of inverters in the head. -/
def announced (sendData : List Byte) : Nat :=
  (sendData.getD 17 nul).toNat * 256 + (sendData.getD 18 nul).toNat

/-- The message fits, has the length that it says, and behind its head there are as many blocks as it says. -/
structure Grammar (sendData : List Byte) : Prop where
  fits : sendData.length ≤ sendDataSize
  ends : sendData.getLast? = some newline
  length : Wifi.packetlenA (fun i => sendData.getD (5 + i) nul) + 1 = sendData.length
  blocks : (sendData.drop 13).take 2 = str "00" →
    ∃ blocks, Layout.many readBlock (announced sendData) (sendData.drop 26) = some (blocks, str "END\n")

/-! ## A block -/

theorem readBlock_append {text : List Byte} (whole : 9 ≤ text.length)
    (width : blockWidth ((text.drop 7).take 2) = some text.length) (rest : List Byte) :
    readBlock (text ++ rest) = some (text, rest) := by
  have kind : ((text ++ rest).drop 7).take 2 = (text.drop 7).take 2 := by
    rw [List.drop_append_of_le_length (by omega), List.take_append_of_le_length (by rw [List.length_drop]; omega)]
  rw [readBlock, kind, width, Option.bind_some, if_neg (by rw [List.length_append]; omega), List.take_left' rfl,
    List.drop_left' rfl]

theorem blockWidth_cases : blockWidth [0x30, 0x31] = some 21 ∧ blockWidth [0x30, 0x32] = some 27 ∧
    blockWidth [0x30, 0x30] = some 9 := by
  unfold blockWidth
  iterate 3 rw [str_ofList]
  decide

/-- A block has the width of its type. -/
theorem block_width (T : Target) (x : InverterInfo) : 9 ≤ (block T x).length ∧
    (block T x).length ≤ inverterPhonePerLen ∧ blockWidth (((block T x).drop 7).take 2) = some (block T x).length := by
  unfold block
  dsimp only
  obtain ⟨two, four, other⟩ := blockWidth_cases
  split_ifs
  · exact ⟨by simp [word], by simp [word, inverterPhonePerLen], two⟩
  · exact ⟨by simp [word], by simp [word, inverterPhonePerLen], four⟩
  · exact ⟨by simp, by simp [inverterPhonePerLen], other⟩

theorem readBlock_block (T : Target) (x : InverterInfo) (rest : List Byte) :
    readBlock (block T x ++ rest) = some (block T x, rest) :=
  readBlock_append (block_width T x).1 (block_width T x).2.2 rest

theorem readBlock_end : readBlock (str "END\n") = none := by
  rw [str_ofList]
  have short : blockWidth [] = none := by
    unfold blockWidth
    iterate 3 rw [str_ofList]
    decide
  exact congrArg (Option.bind · _) short

theorem listed_length (inverters : List InverterInfo) : (listed inverters).length ≤ maxInverterCount :=
  (List.takeWhile_prefix _).length_le.trans (List.length_take_le _ _)

theorem blocks_length (T : Target) (inverters : List InverterInfo) :
    (inverters.flatMap (block T)).length ≤ inverters.length * inverterPhonePerLen := by
  induction inverters with
  | nil => exact Nat.zero_le _
  | cons x inverters ih =>
    have own := (block_width T x).2.1
    rw [List.flatMap_cons, List.length_append, List.length_cons, Nat.succ_mul]
    omega

/-! ## The message and its length -/

theorem packetlen_digits {n : Nat} (small : n < 10000) :
    Wifi.packetlenA (fun i => (lengthDigits n).getD i nul) = n := by
  have value {d : Nat} (low : d < 10) : ((digit d).toNat : Int) - 0x30 = d := by
    rw [digit, UInt8.toNat_ofNat']
    omega
  change Wifi.ushort ((((digit (n / 1000)).toNat : Int) - 0x30) * 1000 +
    (((digit (n / 100 % 10)).toNat : Int) - 0x30) * 100 +
    (((digit (n / 10 % 10)).toNat : Int) - 0x30) * 10 + (((digit (n % 10)).toNat : Int) - 0x30)) = n
  have sum : ((n / 1000 : Nat) : Int) * 1000 + (n / 100 % 10 : Nat) * 100 + (n / 10 % 10 : Nat) * 10 +
    (n % 10 : Nat) = n := by
    omega
  rw [value (by omega), value (by omega), value (by omega), value (by omega), sum, Wifi.ushort]
  omega

section Message

variable (T : Target) (time : List Byte) (inverters : List InverterInfo) (vaildNum : Int)

/-- The bytes before the blocks. -/
def head (packlength : Nat) : List Byte :=
  [0x41, 0x50, 0x53, 0x31, 0x31] ++ lengthDigits packlength ++ [0x30, 0x30, 0x30, 0x32, 0x30, 0x30, 0x30, 0x31] ++
    word vaildNum ++ (List.range 7).map (packed time)

/-- `packlength` before the last byte. -/
def packlengthOf : Nat :=
  29 + ((listed inverters).flatMap (block T)).length

theorem packlengthOf_le : packlengthOf T inverters + 1 ≤ sendDataSize := by
  have blocks := blocks_length T (listed inverters)
  have few := Nat.mul_le_mul_right inverterPhonePerLen (listed_length inverters)
  unfold packlengthOf sendDataSize inverterPhonePerOther
  omega

theorem appResponse_eq {mapping : Byte} (matched : mapping ≠ 0x01) (polled : time.getD 0 nul ≠ nul) :
    appResponsePowerGeneration T mapping time inverters vaildNum =
      head time vaildNum (packlengthOf T inverters) ++ ((listed inverters).flatMap (block T) ++ str "END\n") := by
  have packlength : 15 + (str "01" ++ word vaildNum ++ (List.range 7).map (packed time) ++
      (listed inverters).flatMap (block T) ++ str "END").length = packlengthOf T inverters := by
    iterate 2 rw [str_ofList]
    simp [packlengthOf, word]
    omega
  rw [appResponsePowerGeneration, if_neg matched, if_neg polled]
  dsimp only
  rw [packlength, head]
  iterate 5 rw [str_ofList]
  simp [newline]
  decide

end Message

section Head

variable (time : List Byte) (vaildNum : Int) (packlength : Nat) (rest : List Byte)

theorem head_length : (head time vaildNum packlength).length = 26 :=
  rfl

theorem head_packlength : Wifi.packetlenA (fun i => (head time vaildNum packlength ++ rest).getD (5 + i) nul) =
    Wifi.packetlenA (fun i => (lengthDigits packlength).getD i nul) :=
  rfl

theorem head_kind : ((head time vaildNum packlength ++ rest).drop 13).take 2 = str "00" := by
  rw [str_ofList]
  rfl

theorem head_announced {n : Nat} (small : n < 65536) : announced (head time n packlength ++ rest) = n := by
  have byte (k : Nat) : (UInt8.ofInt (k : Int)).toNat = k % 256 := by
    rw [UInt8.ofInt, UInt8.toNat_ofNat']
    omega
  change (UInt8.ofInt (n / 256 : Nat)).toNat * 256 + (UInt8.ofInt (n % 256 : Nat)).toNat = n
  rw [byte, byte]
  omega

end Head

/-- The answer without data. -/
theorem grammar_short {message : List Byte} (text : message = str "APS110015000201\n" ∨ message =
    str "APS110015000202\n") :
    Grammar message := by
  have kinds : ¬ [0x30, 0x31] = str "00" ∧ ¬ [0x30, 0x32] = str "00" := by
    rw [str_ofList]
    decide
  rcases text with rfl | rfl
  · rw [str_ofList]
    exact ⟨by decide, rfl, by decide, fun full => absurd full kinds.1⟩
  · rw [str_ofList]
    exact ⟨by decide, rfl, by decide, fun full => absurd full kinds.2⟩

/-- The message with data announces the blocks that it has if its number is theirs. -/
theorem grammar_iff (T : Target) {mapping : Byte} (matched : mapping ≠ 0x01) {time : List Byte}
    (polled : time.getD 0 nul ≠ nul) (inverters : List InverterInfo) {n : Nat} (small : n < 65536) :
    Grammar (appResponsePowerGeneration T mapping time inverters n) ↔ n = (listed inverters).length := by
  rw [appResponse_eq T time inverters n matched polled]
  have four : (str "END\n").length = 4 := by
    rw [str_ofList]
    rfl
  have length : (head time n (packlengthOf T inverters) ++
      ((listed inverters).flatMap (block T) ++ str "END\n")).length = packlengthOf T inverters + 1 := by
    rw [List.length_append, List.length_append, head_length, four, packlengthOf]
    omega
  have fits := packlengthOf_le T inverters
  have whole : Grammar (head time n (packlengthOf T inverters) ++
    ((listed inverters).flatMap (block T) ++ str "END\n")) ↔
      ∃ blocks, Layout.many readBlock n ((listed inverters).flatMap (block T) ++ str "END\n") =
        some (blocks, str "END\n") := by
    have blocks : ∀ text : List Byte, (head time n (packlengthOf T inverters) ++ text).drop 26 = text :=
      fun text => List.drop_left' (head_length time n _)
    constructor
    · rintro ⟨-, -, -, parsed⟩
      have read := parsed (head_kind time n _ _)
      rwa [head_announced time _ _ small, blocks] at read
    · intro read
      refine ⟨length.trans_le fits, ?_, ?_, fun _ => ?_⟩
      · rw [str_ofList, List.getLast?_append, List.getLast?_append]
        rfl
      · rw [length, head_packlength, packetlen_digits]
        exact Nat.lt_of_lt_of_le (Nat.lt_succ_self _) (fits.trans (by decide))
      · rwa [head_announced time _ _ small, blocks]
  have reads : ∀ x ∈ listed inverters, ∀ rest, readBlock (block T x ++ rest) = some (block T x, rest) :=
    fun x _ rest => readBlock_block T x rest
  have some : ∀ x ∈ listed inverters, block T x ≠ [] := by
    intro x _ none
    have width := (block_width T x).1
    rw [none] at width
    exact absurd width (by decide)
  rw [whole]
  exact Layout.many_ends_iff reads some readBlock_end n

/-! ## The number in a run -/

theorem listed_congr {first second : List InverterInfo} (same : first.map (·.id) = second.map (·.id)) :
    (listed first).length = (listed second).length := by
  have ids : ∀ inverters : List InverterInfo, (listed inverters).length =
      (((inverters.map (·.id)).take maxInverterCount).takeWhile fun id => decide (strlen id = 12)).length := by
    intro inverters
    rw [← List.map_take, List.takeWhile_map, List.length_map]
    rfl
  rw [ids, ids, same]

theorem Reached.number {counted loaded : List Byte} {s : Shown} (reached : Reached counted loaded s) :
    s.total = (getIdFromFile counted).length ∧ (listed s.inverters).length = (load loaded).length := by
  have fresh (ids : List Byte) : (listed (getIdFromFile ids)).length = (load ids).length := by
    rw [listed, List.take_of_length_le (getIdFromFile_length ids)]
    rfl
  induction reached with
  | count => exact ⟨rfl, fresh _⟩
  | register before ids ih => exact ⟨ih.1, fresh ids⟩
  | round before same ih => exact ⟨ih.1, (listed_congr same).trans ih.2⟩

/-- **Power message**: it fits and has the length and the blocks that it says if and only if it has no data, or the ids
that were counted last are as many as the ids that were loaded last and are proper. -/
theorem generation_grammar_iff (T : Target) {counted loaded : List Byte} {s : Shown}
    (reached : Reached counted loaded s)
    (mapping : Byte) (time : List Byte) :
    Grammar (appResponsePowerGeneration T mapping time s.inverters s.total) ↔
      mapping = 0x01 ∨ time.getD 0 nul = nul ∨ (getIdFromFile counted).length = (load loaded).length := by
  by_cases other : mapping = 0x01
  · rw [appResponsePowerGeneration, if_pos other]
    exact ⟨fun _ => .inl other, fun _ => grammar_short (.inl rfl)⟩
  · by_cases unpolled : time.getD 0 nul = nul
    · rw [appResponsePowerGeneration, if_neg other, if_pos unpolled]
      exact ⟨fun _ => .inr (.inl unpolled), fun _ => grammar_short (.inr rfl)⟩
    · obtain ⟨total, blocks⟩ := reached.number
      have small : (getIdFromFile counted).length < 65536 := (getIdFromFile_length counted).trans_lt (by decide)
      rw [total, grammar_iff T other unpolled s.inverters small, blocks, or_iff_right other, or_iff_right unpolled]

/-- The file of one inverter, and of two. -/
def oneId : List Byte :=
  str "801000000001,,,,,,\n"

def twoIds : List Byte :=
  str "801000000001,,,,,,\n801000000002,,,,,,\n"

/-- One inverter was there at the start; then the phone has registered two. -/
def registered : Shown :=
  ⟨getIdFromFile twoIds, (getIdFromFile oneId).length⟩

theorem registered_reached : Reached oneId twoIds registered :=
  .register (.count oneId) twoIds

theorem generation_grammar_sample :
    Grammar (appResponsePowerGeneration sampleTarget 0x00 (str "20170601080000") registered.inverters
      registered.total) ↔
      (0x00 : Byte) = 0x01 ∨ (str "20170601080000").getD 0 nul = nul ∨
        (getIdFromFile oneId).length = (load twoIds).length :=
  generation_grammar_iff sampleTarget registered_reached 0x00 (str "20170601080000")

/-- The second id lacks a character. -/
def shortId : List Byte :=
  str "801000000001,,,,,,\n80100000002,,,,,,\n"

/-- The message announces two inverters and has one block. -/
theorem short_announced : ¬ ∀ (T : Target) (counted loaded : List Byte) (s : Shown), Reached counted loaded s →
    ∀ (mapping : Byte) (time : List Byte), Grammar (appResponsePowerGeneration T mapping time s.inverters s.total) := by
  intro claim
  have grammar := claim sampleTarget shortId shortId _ (.count shortId) 0x00 (str "20170601080000")
  have polled : (str "20170601080000").getD 0 nul ≠ nul := by
    rw [str_ofList]
    decide
  have counts : (getIdFromFile shortId).length = 2 ∧ (listed (getIdFromFile shortId)).length = 1 := by
    unfold shortId
    rw [str_ofList]
    decide +kernel
  have same := (grammar_iff sampleTarget (by decide) polled (getIdFromFile shortId) (by omega)).1 grammar
  omega

end Ecu.Phone
