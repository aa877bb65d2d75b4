import Ecu.Lib.Chunks
import Ecu.Command.IdWriters
import Ecu.Phone.Dispatch

/-!
# The registration of ids by the phone (`phoneServer.c`, `wifi_comm.c`)

`Phone_RegisterID` computes the number of the ids from the length of its packet, and `phone_add_inverter` puts their
rows into a buffer that has room for the 120 of a table and some more. Neither compares the number with anything, and
the receiver takes packets of more than two thousand bytes (`registration_iff`).
-/

namespace Ecu.Phone

open Ecu.Command Ecu.Poll Socket Wifi

/-! ## The function -/

/-- `AddNum` -/
def addNum (dataLen : Nat) : Int :=
  ((dataLen : Int) - 31).tdiv 6

/-- The bytes of `allbuff`. -/
def allbuffSize : Nat := 2500

/-- A row of `phone_add_inverter`: the twelve characters, six commas and the line end. -/
def rowLength : Nat := 19

/-- `Phone_RegisterID`: the file with the ids, unless the packet is for another ECU. `ecuId` has the twelve bytes that
`memcmp` looks at. -/
def phoneRegisterId (ecuId : List Byte) (dataLen : Nat) (recvbuffer : List Byte) : Option (List Byte) :=
  if (List.range 12).map (bytesAt recvbuffer 13) = ecuId then
    some (phoneAddInverter (addNum dataLen).toNat (bytesAt recvbuffer 28))
  else none

/-! ## What it is for -/

/-- The ids of a packet, six bytes each: they stand between the head, which has 28 bytes, and `END`. -/
def packetIds (packet : List Byte) : List (List Byte) :=
  ((Chunks.chunks 6 ((packet.drop 28).take (packet.length - 31))).filter fun piece => piece.length = 6).map hexText

/-- The rows, with the end of their text, fit the buffer, the ids the table, and the file has the rows of just these
ids. -/
structure Registers (ecuId : List Byte) (dataLen : Nat) (packet : List Byte) : Prop where
  buffer : addNum dataLen * rowLength < allbuffSize
  table : addNum dataLen ≤ maxInverterCount
  file : ∃ file, phoneRegisterId ecuId dataLen packet = some file ∧ file.length = (addNum dataLen).toNat * rowLength ∧
    storedIds file = packetIds packet

/-- A packet that makes `process_WIFI` call `Phone_RegisterID`, for this ECU. -/
structure Registration (ecuId : List Byte) (beyond : Int → Option Handler) (packet : List Byte) (command : Command) :
    Prop where
  taken : processWifi beyond packet = some command
  called : command.called = some .registerID
  own : (List.range 12).map (bytesAt packet 13) = ecuId

/-! ## The ids in the file -/

theorem addNum_toNat (dataLen : Nat) : (addNum dataLen).toNat = (dataLen - 31) / 6 := by
  rw [addNum]
  rcases Nat.le_total 31 dataLen with long | short
  · rw [Int.tdiv_eq_ediv_of_nonneg (by omega)]
    omega
  · have size : (dataLen : Int) - 31 = -(31 - dataLen) := by omega
    rw [size, Int.neg_tdiv, Int.tdiv_eq_ediv_of_nonneg (by omega)]
    omega

theorem bytesAt_six {packet : List Byte} {i : Nat} (inside : 28 + i * 6 + 6 ≤ packet.length) :
    (List.range 6).map (fun k => bytesAt packet 28 (k + i * 6)) = (packet.drop (28 + i * 6)).take 6 := by
  apply List.ext_getElem
  · rw [List.length_map, List.length_range, List.length_take, List.length_drop]
    omega
  · intro k inRange inPiece
    rw [List.length_map, List.length_range] at inRange
    have place : 28 + (k + i * 6) = 28 + i * 6 + k := by omega
    rw [List.getElem_map, List.getElem_range, List.getElem_take, List.getElem_drop, bytesAt, place,
      List.getD_eq_getElem _ _ (by omega)]

theorem packetIds_eq (packet : List Byte) : packetIds packet =
    (List.range ((packet.length - 31) / 6)).map fun i =>
      hexText ((List.range 6).map fun k => bytesAt packet 28 (k + i * 6)) := by
  have size : ((packet.drop 28).take (packet.length - 31)).length = packet.length - 31 := by
    rw [List.length_take, List.length_drop]
    omega
  rw [packetIds, Chunks.whole_chunks (by decide), size, List.map_map]
  apply List.map_congr_left
  intro i mem
  have inside : 28 + i * 6 + 6 ≤ packet.length := by
    have below := List.mem_range.1 mem
    omega
  have whole : i * 6 + 6 ≤ packet.length - 31 := by
    have below := List.mem_range.1 mem
    omega
  rw [Function.comp_apply, bytesAt_six inside, List.drop_take, List.drop_drop, List.take_take,
    Nat.min_eq_left (by omega)]

theorem phoneAddInverter_ids (num : Nat) (uidstring : Nat → Byte) : storedIds (phoneAddInverter num uidstring) =
    (List.range num).map fun i => hexText ((List.range 6).map fun k => uidstring (k + i * 6)) := by
  have isIds : ∀ id ∈ (List.range num).map fun i => hexText ((List.range 6).map fun k => uidstring (k + i * 6)),
      Command.IsId id := by
    intro id mem
    obtain ⟨i, -, rfl⟩ := List.mem_map.1 mem
    exact hexText_isId (by rw [List.length_map, List.length_range])
  have rows := (newRows isIds).2
  rw [List.map_map] at rows
  exact rows

/-- The rows are as long as the source counts them. -/
theorem phoneAddInverter_length (num : Nat) (uidstring : Nat → Byte) :
    (phoneAddInverter num uidstring).length = num * rowLength := by
  have row (i : Nat) : (newRow (hexText ((List.range 6).map fun k => uidstring (k + i * 6)))).length = rowLength := by
    have isId : Command.IsId (hexText ((List.range 6).map fun k => uidstring (k + i * 6))) := hexText_isId rfl
    rw [newRow, csvRow_length (List.cons_ne_nil _ _), List.map_cons, List.sum_cons, isId.twelve]
    rfl
  rw [phoneAddInverter, List.length_flatMap, List.map_congr_left fun i _ => row i, List.map_const', List.sum_replicate,
    List.length_range, smul_eq_mul]

/-! ## Packets from a stream -/

/-- The length that a packet announces is its own. -/
theorem Registration.dataLen_eq {events : List Wifi.Event} (fits : Usart.Along Fits Usart.init events)
    {id packet : List Byte}
    (mem : .data .a id packet ∈ (Usart.init.steps events).log) {ecuId : List Byte} {beyond : Int → Option Handler}
    {command : Command} (registration : Registration ecuId beyond packet command) :
      command.dataLen = packet.length := by
  obtain ⟨v, frames, same⟩ := delivered_frame fits mem
  have taken := registration.taken
  rw [processWifi] at taken
  obtain ⟨out, resolved, rfl⟩ := Option.map_eq_some_iff.1 taken
  rcases frame_length frames same with rfl | whole
  · rw [resolveRecvData, if_neg (by decide)] at resolved
    cases resolved
  · exact (resolveRecvData_number resolved).1.trans whole

/-- A registration keeps to the buffer and to the table exactly when it has at most 120 ids. -/
theorem registration_iff {events : List Wifi.Event} (fits : Usart.Along Fits Usart.init events) {id packet : List Byte}
    (mem : .data .a id packet ∈ (Usart.init.steps events).log) {ecuId : List Byte} {beyond : Int → Option Handler}
    {command : Command} (registration : Registration ecuId beyond packet command) :
    Registers ecuId command.dataLen packet ↔ packet.length < 31 + 6 * (maxInverterCount + 1) := by
  rw [registration.dataLen_eq fits mem]
  have number := addNum_toNat packet.length
  constructor
  · intro registers
    have table := registers.table
    have most : maxInverterCount = 120 := rfl
    omega
  · intro few
    have most : maxInverterCount = 120 := rfl
    refine ⟨?_, by omega, _, if_pos registration.own, phoneAddInverter_length _ _, ?_⟩
    · rw [rowLength, allbuffSize]
      omega
    · rw [phoneAddInverter_ids, packetIds_eq, number]

/-! ## Runs -/

theorem along_of_forall {P : Usart → Wifi.Event → Prop} {events : List Wifi.Event} (each : ∀ u, ∀ e ∈ events, P u e)
    (u : Usart) :
    Usart.Along P u events := by
  induction events generalizing u with
  | nil => trivial
  | cons e events ih =>
    exact ⟨each u e List.mem_cons_self, ih (fun u e mem => each u e (List.mem_cons_of_mem _ mem)) (u.step e)⟩

theorem along_arrive {bytes : List Byte} (u : Usart) (room : u.cur + bytes.length < usartRecLen) :
    Usart.Along Fits u (arrive bytes) := by
  induction bytes generalizing u with
  | nil => trivial
  | cons b bytes ih =>
    rw [List.length_cons] at room
    have next : (u.receive b).cur = u.cur + 1 := if_neg (by omega)
    refine ⟨show u.cur + 1 < usartRecLen by omega, ih (u.receive b) ?_⟩
    rw [next]
    omega

theorem received_arrive (bytes : List Byte) : received (arrive bytes) = bytes := by
  rw [received, arrive, List.filterMap_map]
  exact List.filterMap_some

/-- A well-formed packet that arrives at an idle receiver is handed over. -/
theorem packet_delivered {packet : List Byte} (wellFormed : WellFormed .a (str "a12345678" ++ packet))
    (short : (str "a12345678" ++ packet).length < usartRecLen) :
    Usart.Along Fits Usart.init (arrive (str "a12345678" ++ packet) ++ calls 2) ∧
      .data .a (str "12345678") packet ∈ (Usart.init.steps (arrive (str "a12345678" ++ packet) ++ calls 2)).log := by
  have runs : ∀ e ∈ calls 2, e = .run := fun e mem => List.eq_of_mem_replicate mem
  constructor
  · refine Usart.along_append.2 ⟨along_arrive _ ?_, ?_⟩
    · rw [show Usart.init.cur = 0 from rfl, Nat.zero_add]
      exact short
    · exact along_of_forall (fun u e mem => by rw [runs e mem]; trivial) _
  · have undisturbed : Usart.Along (¬ Usart.Resets · ·) Usart.init (arrive (str "a12345678" ++ packet) ++ calls 2) := by
      refine along_of_forall (fun u e mem resets => ?_) _
      rcases List.mem_append.1 mem with arrived | called
      · obtain ⟨b, -, rfl⟩ := List.mem_map.1 arrived
        cases resets.1
      · rw [runs e called] at resets
        cases resets.1
    have delivered := (frame_delivered (wellFormed.complete (by decide) short) Usart.placed_init ⟨rfl, rfl⟩
      (received_arrive _) (by decide) undisturbed (by decide)).2
    rw [wellFormed.packetOf_eq (by decide) short] at delivered
    rw [delivered]
    exact List.mem_append_right _ (List.mem_singleton_self _)

/-- A packet with inverters from 801000000000 on. -/
def samplePacketOf (length : List Byte) (num : Nat) : List Byte :=
  str "APS11" ++ length ++ str "0005216000000001END" ++ (List.range num).flatMap sampleUid ++ str "END"

theorem sampleOne_wellFormed : WellFormed .a (str "a12345678" ++ samplePacketOf (str "0037") 1) := by
  refine ⟨rfl, ⟨_, rfl⟩, rfl, by decide +kernel, by decide +kernel, ?_⟩
  rw [samplePacketOf, ← List.append_assoc]
  exact List.suffix_append _ _

theorem sampleMany_wellFormed : WellFormed .a (str "a12345678" ++ samplePacketOf (str "0823") 132) := by
  refine ⟨rfl, ⟨_, rfl⟩, rfl, by decide +kernel, by decide +kernel, ?_⟩
  rw [samplePacketOf, ← List.append_assoc]
  exact List.suffix_append _ _

theorem sampleOne_registration : Registration (str "216000000001") (fun _ => none) (samplePacketOf (str "0037") 1)
    ⟨5, some .registerID, 37⟩ := by
  have resolved : resolveRecvData (samplePacketOf (str "0037") 1) = some (37, 5) := by decide +kernel
  exact ⟨by rw [processWifi, resolved]; rfl, rfl, by decide +kernel⟩

theorem sampleMany_registration : Registration (str "216000000001") (fun _ => none) (samplePacketOf (str "0823") 132)
    ⟨5, some .registerID, 823⟩ := by
  have resolved : resolveRecvData (samplePacketOf (str "0823") 132) = some (823, 5) := by decide +kernel
  exact ⟨by rw [processWifi, resolved]; rfl, rfl, by decide +kernel⟩

theorem registration_one : Registers (str "216000000001") 37 (samplePacketOf (str "0037") 1) ↔
    (samplePacketOf (str "0037") 1).length < 31 + 6 * (maxInverterCount + 1) :=
  registration_iff (packet_delivered sampleOne_wellFormed (by decide +kernel)).1
    (packet_delivered sampleOne_wellFormed (by decide +kernel)).2 sampleOne_registration

/-- The rows of 132 ids do not fit the buffer. -/
theorem registration_many : ¬ ∀ (events : List Wifi.Event) (id packet ecuId : List Byte) (beyond : Int → Option Handler)
    (command : Command), Usart.Along Fits Usart.init events → .data .a id packet ∈ (Usart.init.steps events).log →
      Registration ecuId beyond packet command → Registers ecuId command.dataLen packet := by
  intro all
  have delivered := packet_delivered sampleMany_wellFormed (by decide +kernel)
  have buffer := (all _ _ _ _ _ _ delivered.1 delivered.2 sampleMany_registration).buffer
  exact absurd buffer (by decide)

end Ecu.Phone
