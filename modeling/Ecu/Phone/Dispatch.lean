import Ecu.Socket.Control
import Ecu.Wifi.Frames

/-!
# The commands of the phone (`phoneServer.c`, `wifi_comm.c`)

A packet of socket A that begins with `APS` has the number of its command in the four characters behind its length.
They are not tested to be digits, and the number is the place of `pfun_Phone` where the function is looked up.
-/

namespace Ecu.Phone

open Socket Wifi

/-! ## The table -/

/-- The functions of `pfun_Phone`. -/
inductive Handler where
  | getBaseInfo | getGenerationData | getPowerCurve | getGenerationCurve | registerID | setTime | setWiredNetwork
  | getECUHardwareStatus | setWIFIPasswd | getIDInfo | getTime | flashSize | getWiredNetwork | setChannel |
    getShortAddrInfo
deriving DecidableEq

def tableSize : Nat := 100

/-- `add_Phone_functions`; the other places are null. -/
def pfunPhone : Nat → Option Handler
  | 1 => some .getBaseInfo
  | 2 => some .getGenerationData
  | 3 => some .getPowerCurve
  | 4 => some .getGenerationCurve
  | 5 => some .registerID
  | 6 => some .setTime
  | 7 => some .setWiredNetwork
  | 8 => some .getECUHardwareStatus
  | 10 => some .setWIFIPasswd
  | 11 => some .getIDInfo
  | 12 => some .getTime
  | 13 => some .flashSize
  | 14 => some .getWiredNetwork
  | 15 => some .setChannel
  | 18 => some .getShortAddrInfo
  | _ => none

/-! ## A packet -/

/-- `Resolve_RecvData`: `Data_Len` and `Command_Id`. Behind the packet the buffer has zeros. -/
def resolveRecvData (recvData : List Byte) : Option (Nat × Int) :=
  if sameChars recvData (str "APS") 3 then
    let at_ := digitAt (bytesAt recvData 9)
    some (packetlenA (bytesAt recvData 5), at_ 0 * 1000 + at_ 1 * 100 + at_ 2 * 10 + at_ 3)
  else none

/-- What `process_WIFI` does with a packet. -/
structure Command where
  /-- The place of `pfun_Phone`. -/
  looked : Int
  called : Option Handler
  dataLen : Nat

/-- `process_WIFI`; `beyond` is what stands outside the table. -/
def processWifi (beyond : Int → Option Handler) (recvData : List Byte) : Option Command :=
  (resolveRecvData recvData).map fun out =>
    ⟨out.2, if 0 ≤ out.2 ∧ out.2 < (tableSize : Int) then pfunPhone out.2.toNat else beyond out.2, out.1⟩

/-- The packet is rejected, or its place is one of the table, the function called is the one there, and the length is
the one of the packet. -/
def Lawful (beyond : Int → Option Handler) (recvData : List Byte) : Prop :=
  ∀ command ∈ processWifi beyond recvData,
    (0 ≤ command.looked ∧ command.looked < tableSize) ∧ command.called = pfunPhone command.looked.toNat ∧
      command.dataLen = recvData.length

/-- The bytes of the number, `'0'` taken as 48. -/
def numberBytes (recvData : List Byte) : Nat :=
  let at_ (i : Nat) := (recvData.getD i nul).toNat
  at_ 9 * 1000 + at_ 10 * 100 + at_ 11 * 10 + at_ 12

theorem resolveRecvData_number {recvData : List Byte} {out : Nat × Int}
    (resolved : resolveRecvData recvData = some out) :
    out.1 = packetlenA (bytesAt recvData 5) ∧ out.2 = (numberBytes recvData : Int) - 53328 := by
  unfold resolveRecvData at resolved
  split_ifs at resolved
  rw [← Option.some_inj.1 resolved]
  refine ⟨rfl, ?_⟩
  simp only [digitAt, bytesAt, numberBytes, Nat.add_zero, Nat.reduceAdd]
  push_cast
  ring

/-! ## What the receiver hands over -/

/-- A byte behind the front of a part. -/
theorem getD_of_part {v part : List Byte} {k i : Nat} (pre : part <+: v.drop k) {b : Byte} (there : part[i]? = some b) :
    v.getD (k + i) nul = b := by
  have found := prefix_getElem? pre there
  rw [List.getElem?_drop] at found
  rw [List.getD_eq_getElem?_getD, found, Option.getD_some]

/-- `END` cannot stand in the mark or in the length. -/
theorem frame_size {v : List Byte} (frames : Frames .a v) (long : 9 ≤ packLenOf .a v) :
    packLenOf .a v = 9 ∨ 19 ≤ packLenOf .a v := by
  have size : packLenOf .a v = ushort (ushort (digitAt (bytesAt v 14) 0 * 1000 + digitAt (bytesAt v 14) 1 * 100 +
      digitAt (bytesAt v 14) 2 * 10 + digitAt (bytesAt v 14) 3) + 9) := rfl
  have a0 := getD_of_part (i := 0) (b := 0x41) frames.aps rfl
  have a1 := getD_of_part (i := 1) (b := 0x50) frames.aps rfl
  have a2 := getD_of_part (i := 2) (b := 0x53) frames.aps rfl
  have e0 := getD_of_part (i := 0) (b := 0x45) frames.tail rfl
  have e1 := getD_of_part (i := 1) (b := 0x4E) frames.tail rfl
  have e2 := getD_of_part (i := 2) (b := 0x44) frames.tail rfl
  simp only [digitAt, bytesAt, ushort] at size
  generalize packLenOf .a v = n at *
  have h0 := UInt8.toNat_lt (v.getD (14 + 0) nul)
  have h1 := UInt8.toNat_lt (v.getD (14 + 1) nul)
  have h2 := UInt8.toNat_lt (v.getD (14 + 2) nul)
  have h3 := UInt8.toNat_lt (v.getD (14 + 3) nul)
  by_contra neither
  obtain ⟨low, high⟩ : 10 ≤ n ∧ n ≤ 18 := by omega
  interval_cases n
  · exact absurd (e2.symm.trans a0) (by decide)
  · exact absurd (e2.symm.trans a1) (by decide)
  · exact absurd (e2.symm.trans a2) (by decide)
  · exact absurd (e1.symm.trans a2) (by decide)
  · exact absurd (e0.symm.trans a2) (by decide)
  · have d : (v.getD (14 + 0) nul).toNat = 68 := congrArg UInt8.toNat e2
    generalize sum : (((v.getD (14 + 0) nul).toNat : Int) - 0x30) * 1000 +
      (((v.getD (14 + 1) nul).toNat : Int) - 0x30) * 100 + (((v.getD (14 + 2) nul).toNat : Int) - 0x30) * 10 +
      (((v.getD (14 + 3) nul).toNat : Int) - 0x30) = value at size
    have bounds : 14672 ≤ value ∧ value ≤ 42977 := by omega
    clear sum
    omega
  · have n : (v.getD (14 + 0) nul).toNat = 78 := congrArg UInt8.toNat e1
    have d : (v.getD (14 + 1) nul).toNat = 68 := congrArg UInt8.toNat e2
    generalize sum : (((v.getD (14 + 0) nul).toNat : Int) - 0x30) * 1000 +
      (((v.getD (14 + 1) nul).toNat : Int) - 0x30) * 100 + (((v.getD (14 + 2) nul).toNat : Int) - 0x30) * 10 +
      (((v.getD (14 + 3) nul).toNat : Int) - 0x30) = value at size
    have bounds : 31472 ≤ value ∧ value ≤ 34277 := by omega
    clear sum
    omega
  · have e : (v.getD (14 + 0) nul).toNat = 69 := congrArg UInt8.toNat e0
    have n : (v.getD (14 + 1) nul).toNat = 78 := congrArg UInt8.toNat e1
    have d : (v.getD (14 + 2) nul).toNat = 68 := congrArg UInt8.toNat e2
    omega
  · have e : (v.getD (14 + 1) nul).toNat = 69 := congrArg UInt8.toNat e0
    have n : (v.getD (14 + 2) nul).toNat = 78 := congrArg UInt8.toNat e1
    have d : (v.getD (14 + 3) nul).toNat = 68 := congrArg UInt8.toNat e2
    omega

/-- A packet of socket A has no data, or its length is what its characters say. -/
theorem frame_length {v id bytes : List Byte} (frames : Frames .a v) (same : Packet.data .a id bytes = packetOf .a v) :
    bytes = [] ∨ packetlenA (bytesAt bytes 5) = bytes.length := by
  have size : packLenOf .a v = ushort (packetlenA (bytesAt v 14) + 9) := rfl
  have whole := frames.whole
  have sizes := frame_size frames
  rw [packetOf] at same
  by_cases less : packLenOf .a v < 9
  · rw [if_pos less] at same
    cases same
  · rw [if_neg less] at same
    have isBytes : bytes = (v.take (packLenOf .a v)).drop 9 := by
      injection same
    rcases sizes (Nat.le_of_not_lt less) with empty | long
    · refine .inl ?_
      rw [isBytes, empty, List.drop_eq_nil_of_le (List.length_take_le _ _)]
    · refine .inr ?_
      have field : packetlenA (bytesAt bytes 5) = packetlenA (bytesAt v 14) := by
        apply packetlenA_congr
        intro i small
        have inside : 9 + (5 + i) < packLenOf .a v := by omega
        rw [bytesAt, bytesAt, isBytes, List.getD_eq_getElem?_getD, List.getD_eq_getElem?_getD, List.getElem?_drop,
          List.getElem?_take_of_lt inside]
        congr 2
        omega
      have ushorts : packetlenA (bytesAt v 14) < 65536 := by
        rw [packetlenA, ushort]
        omega
      have length : bytes.length = packLenOf .a v - 9 := by
        rw [isBytes, List.length_drop, List.length_take_of_le whole]
      rw [ushort] at size
      omega

/-- A packet in the log of a run is one of the pieces of the stream. -/
theorem delivered_frame {events : List Event} (fits : Usart.Along Fits Usart.init events) {id bytes : List Byte}
    (mem : .data .a id bytes ∈ (Usart.init.steps events).log) :
    ∃ v, Frames .a v ∧ Packet.data .a id bytes = packetOf .a v := by
  obtain ⟨-, pending, ⟨pieces, -, log, framed⟩, -⟩ := follows_init.steps fits
  rw [log] at mem
  obtain ⟨⟨v, p⟩, inPieces, isPacket⟩ := List.mem_filterMap.1 mem
  obtain rfl : p = some (.data .a id bytes) := isPacket
  exact ⟨v, framed v _ inPieces .a (by decide) rfl⟩

/-- **The dispatch of a packet** from a stream that never fills the receive buffer is lawful exactly when the packet
does not begin with `APS`, or its number is one of 0 to 99. -/
theorem phone_dispatch_iff {events : List Event} (fits : Usart.Along Fits Usart.init events) {id bytes : List Byte}
    (mem : .data .a id bytes ∈ (Usart.init.steps events).log) (beyond : Int → Option Handler) :
    Lawful beyond bytes ↔
      (sameChars bytes (str "APS") 3 → 53328 ≤ numberBytes bytes ∧ numberBytes bytes < 53428) := by
  obtain ⟨v, frames, same⟩ := delivered_frame fits mem
  rw [Lawful, processWifi]
  cases resolved : resolveRecvData bytes with
  | none =>
    constructor
    · intro _ aps
      rw [resolveRecvData, if_pos aps] at resolved
      cases resolved
    · intro _ command none
      cases none
  | some out =>
    have aps : sameChars bytes (str "APS") 3 := by
      by_contra other
      rw [resolveRecvData, if_neg other] at resolved
      cases resolved
    obtain ⟨length, number⟩ := resolveRecvData_number resolved
    constructor
    · intro lawful _
      have place := (lawful _ rfl).1
      dsimp only at place
      rw [number, tableSize] at place
      omega
    · rintro inTable command same'
      obtain rfl := Option.some_inj.1 same'
      obtain ⟨low, high⟩ := inTable aps
      have inside : 0 ≤ out.2 ∧ out.2 < (tableSize : Int) := by
        rw [number, tableSize]
        omega
      refine ⟨inside, if_pos inside, ?_⟩
      dsimp only
      rcases frame_length frames same with rfl | whole
      · exact absurd aps (by decide)
      · exact length.trans whole

/-- A packet of socket A with a number. -/
def samplePacket (number : List Byte) : List Event :=
  arrive (str "a12345678APS110016" ++ number ++ str "END") ++ calls 2

theorem samplePacket_delivered :
    (Usart.Along Fits Usart.init (samplePacket (str "0006")) ∧
      .data .a (str "12345678") (str "APS1100160006END") ∈ (Usart.init.steps (samplePacket (str "0006"))).log) ∧
    Usart.Along Fits Usart.init (samplePacket (str "0100")) ∧
      .data .a (str "12345678") (str "APS1100160100END") ∈ (Usart.init.steps (samplePacket (str "0100"))).log := by
  rw [samplePacket, samplePacket]
  iterate 7 rw [str_ofList]
  decide +kernel

theorem phone_dispatch_sample :
    Lawful (fun _ => none) (str "APS1100160006END") ↔ (sameChars (str "APS1100160006END") (str "APS") 3 →
      53328 ≤ numberBytes (str "APS1100160006END") ∧ numberBytes (str "APS1100160006END") < 53428) :=
  phone_dispatch_iff samplePacket_delivered.1.1 samplePacket_delivered.1.2 fun _ => none

/-- The number 100 is looked up behind the table. -/
theorem phone_dispatch_beyond :
    ¬ ∀ (events : List Event) (id bytes : List Byte) (beyond : Int → Option Handler),
      .data .a id bytes ∈ (Usart.init.steps events).log → Lawful beyond bytes := by
  intro lawful
  have aps : resolveRecvData (str "APS1100160100END") = some (16, 100) := by
    rw [resolveRecvData, str_ofList, str_ofList]
    decide +kernel
  have place := (lawful _ _ _ (fun _ => none) samplePacket_delivered.2.2 _ (by rw [processWifi, aps]; rfl)).1
  exact absurd place.2 (by decide)

end Ecu.Phone
