import Ecu.Base
import Mathlib.Data.List.GetD

/-!
# The frames for the ZigBee module (`zigbee.c`, `bind_inverters.c`)

A frame is `AA AA AA AA`, a command with its address, PAN id and channel, the sum of these eight bytes, the number of
bytes behind the header, and these bytes. Every builder writes the header by hand. They all write well-formed frames
but two: `send11order` leaves out the last two of the eight bytes it announces, and `zb_off_report_id_and_bind` does
not start its sum again for a retry (`frames_wellFormed_iff`).
-/

namespace Ecu.Zigbee

/-- `ecu_info`: the fields that the builders use. -/
structure EcuInfo where
  panid : Nat
  channel : Byte

/-- What a builder stores in its buffer, from the front, and how many bytes of the buffer it writes to the module. -/
structure Sent where
  room : Nat
  stored : List Byte
  written : Option Nat
deriving DecidableEq

/-- The bytes that the module gets; the buffer begins as zeros. -/
def Sent.bytes (s : Sent) (n : Nat) : List Byte :=
  (s.stored ++ List.replicate (s.room - s.stored.length) 0).take n

/-! ## Builders -/

/-- `sendbuff[4]` to `sendbuff[11]`, added up. -/
def checkOf (body : List Byte) : Nat :=
  (body.map UInt8.toNat).sum

def header (body : List Byte) (check length : Nat) : List Byte :=
  [0xAA, 0xAA, 0xAA, 0xAA] ++ body ++ [UInt8.ofNat (check / 256), UInt8.ofNat (check % 256), UInt8.ofNat length]

/-- Two digits of an id in each byte. -/
def packedId (id : List Byte) : List Byte :=
  (List.range 6).map fun k => (id.getD (2 * k) nul - 0x30) * 16 + (id.getD (2 * k + 1) nul - 0x30)

/-- A command to one inverter or to all of them. -/
def payloadFrame (shortaddr : Nat) (buff : List Byte) : List Byte :=
  let body := [0x55, UInt8.ofNat (shortaddr >>> 8), UInt8.ofNat shortaddr, 0, 0, 0, 0, 0]
  header body (checkOf body) buff.length ++ buff

/-- A command to the inverter of an id. -/
def idFrame (body id : List Byte) : List Byte :=
  header body (checkOf body) 6 ++ packedId id

/-- `zb_send_cmd` -/
def zbSendCmd (shortaddr : Nat) (buff : List Byte) : Sent where
  room := 256
  stored := payloadFrame shortaddr buff
  written := if shortaddr ≠ 0 then some (buff.length + 15) else none

/-- `zb_shortaddr_cmd` -/
def zbShortaddrCmd (shortaddr : Nat) (buff : List Byte) : Sent where
  room := 256
  stored := payloadFrame shortaddr buff
  written := if shortaddr ≠ 0 then some (buff.length + 15) else none

/-- `zb_broadcast_cmd` -/
def zbBroadcastCmd (buff : List Byte) : Sent where
  room := 256
  stored := payloadFrame 0 buff
  written := some (buff.length + 15)

/-- `zb_change_inverter_panid_single` -/
def zbChangeInverterPanidSingle (ecu : EcuInfo) (id : List Byte) : Sent where
  room := 256
  stored := idFrame [0x0F, 0, 0, UInt8.ofNat (ecu.panid >>> 8), UInt8.ofNat ecu.panid, ecu.channel, 0, 0xA0] id
  written := some 21

/-- `zb_change_inverter_channel_one` -/
def zbChangeInverterChannelOne (ecu : EcuInfo) (id : List Byte) (channel : Byte) : Sent where
  room := 256
  stored := idFrame [0x0F, 0, 0, UInt8.ofNat (ecu.panid >>> 8), UInt8.ofNat ecu.panid, channel, 0, 0xA0] id
  written := some 21

/-- `zb_get_inverter_shortaddress_single` -/
def zbGetInverterShortaddressSingle (id : List Byte) : Sent where
  room := 256
  stored := idFrame [0x0E, 0, 0, 0, 0, 0, 0, 0] id
  written := some 21

/-- The reply of a module that has bound its inverter. -/
def Bound (reply : Option (List Byte)) : Prop :=
  ∃ recvbuff ∈ reply, recvbuff.length = 11 ∧ recvbuff.getD 2 nul = 0xA5 ∧ recvbuff.getD 3 nul = 0xA5

instance (reply : Option (List Byte)) : Decidable (Bound reply) :=
  inferInstanceAs (Decidable (∃ recvbuff ∈ reply, _))

/-- One pass of the loop of `zb_off_report_id_and_bind`; `check` is what the passes before have added up. -/
def bindPass (shortAddr check : Nat) : Sent where
  room := 16
  stored := header [0x08, UInt8.ofNat (shortAddr >>> 8), UInt8.ofNat shortAddr, 0, 0, 0, 0, 0xA0] check 0
  written := some 15

/-- The loop, for the replies to come. -/
def bindLoop (shortAddr : Nat) : Nat → Nat → List (Option (List Byte)) → List Sent
  | 0, _, _ => []
  | times + 1, check, replies =>
    let check := check + checkOf [0x08, UInt8.ofNat (shortAddr >>> 8), UInt8.ofNat shortAddr, 0, 0, 0, 0, 0xA0]
    bindPass shortAddr check ::
      if Bound (replies.headD none) then [] else bindLoop shortAddr times check replies.tail

/-- `zb_off_report_id_and_bind` -/
def zbOffReportIdAndBind (shortAddr : Nat) (replies : List (Option (List Byte))) : List Sent :=
  bindLoop shortAddr 3 0 replies

/-- `getaddrOldOrNew`: the header is a constant. -/
def getaddrOldOrNew (id : List Byte) : Sent where
  room := 21
  stored := [0xAA, 0xAA, 0xAA, 0xAA, 0x0E, 0x00, 0x00, 0x00, 0x00, 0x00, 0x00, 0xA0, 0x00, 0xAE, 0x06] ++ packedId id
  written := some 21

/-- `send11order`: eight bytes are stored behind the header. -/
def send11order (ecu : EcuInfo) (id : List Byte) (count : Nat) : Sent where
  room := 23
  stored :=
    let body := [0x11, 0, 0, UInt8.ofNat (ecu.panid / 256), UInt8.ofNat (ecu.panid % 256), ecu.channel, 0, 0]
    header body (checkOf body) 8 ++ packedId id ++ [UInt8.ofNat (2 * count / 256), UInt8.ofNat (2 * count % 256)]
  written := some 21

/-- `send22order` writes its frame three times. -/
def send22order (ecu : EcuInfo) : List Sent :=
  let body := [0x22, 0, 0, UInt8.ofNat (ecu.panid / 256), UInt8.ofNat (ecu.panid % 256), ecu.channel, 0, 0]
  List.replicate 3 { room := 15, stored := header body (checkOf body) 0, written := some 15 }

/-- The calls of the builders. -/
inductive Call where
  | sendCmd (shortaddr : Nat) (buff : List Byte)
  | shortaddrCmd (shortaddr : Nat) (buff : List Byte)
  | broadcastCmd (buff : List Byte)
  | changeInverterPanidSingle (id : List Byte)
  | changeInverterChannelOne (id : List Byte) (channel : Byte)
  | getInverterShortaddressSingle (id : List Byte)
  | offReportIdAndBind (shortAddr : Nat) (replies : List (Option (List Byte)))
  | getaddrOldOrNew (id : List Byte)
  | send11order (id : List Byte) (count : Nat)
  | send22order

/-- What a call writes, one entry for each write. -/
def writes (ecu : EcuInfo) : Call → List Sent
  | .sendCmd shortaddr buff => [zbSendCmd shortaddr buff]
  | .shortaddrCmd shortaddr buff => [zbShortaddrCmd shortaddr buff]
  | .broadcastCmd buff => [zbBroadcastCmd buff]
  | .changeInverterPanidSingle id => [zbChangeInverterPanidSingle ecu id]
  | .changeInverterChannelOne id channel => [zbChangeInverterChannelOne ecu id channel]
  | .getInverterShortaddressSingle id => [zbGetInverterShortaddressSingle id]
  | .offReportIdAndBind shortAddr replies => zbOffReportIdAndBind shortAddr replies
  | .getaddrOldOrNew id => [Zigbee.getaddrOldOrNew id]
  | .send11order id count => [Zigbee.send11order ecu id count]
  | .send22order => Zigbee.send22order ecu

/-! ## Well-formed frames -/

/-- What the module takes for a frame. -/
structure Framed (bytes : List Byte) : Prop where
  head : bytes.take 4 = [0xAA, 0xAA, 0xAA, 0xAA]
  length : 15 + (bytes.getD 14 nul).toNat = bytes.length
  check : (bytes.getD 12 nul).toNat * 256 + (bytes.getD 13 nul).toNat = checkOf ((bytes.drop 4).take 8) % 65536

/-- The builder keeps to its buffer, and what it writes is a frame. -/
structure WellFormed (s : Sent) : Prop where
  inside : s.stored.length ≤ s.room
  framed : ∀ n ∈ s.written, Framed (s.bytes n)

/-- The payload fits into the buffer, the command is not that of `send11order`, and the first answer to a bind command
is the right one. -/
def Correct : Call → Prop
  | .sendCmd _ buff => buff.length ≤ 241
  | .shortaddrCmd _ buff => buff.length ≤ 241
  | .broadcastCmd buff => buff.length ≤ 241
  | .offReportIdAndBind _ replies => Bound (replies.headD none)
  | .send11order _ _ => False
  | _ => True

theorem checkOf_lt {body : List Byte} (eight : body.length = 8) : checkOf body < 65536 := by
  have each : ∀ n ∈ body.map UInt8.toNat, n ≤ 255 := by
    intro n mem
    obtain ⟨b, -, rfl⟩ := List.mem_map.1 mem
    exact Nat.le_of_lt_succ b.toNat_lt
  have bound := List.sum_le_card_nsmul _ 255 each
  rw [List.length_map, eight] at bound
  unfold checkOf
  simp at bound
  omega

theorem header_length {body : List Byte} (eight : body.length = 8) (check length : Nat) :
    (header body check length).length = 15 := by
  simp [header, eight]

/-- Of a header the sum and the length can be wrong. -/
theorem framed_iff {body rest : List Byte} (eight : body.length = 8) {check length : Nat} (small : check < 65536) :
    Framed (header body check length ++ rest) ↔ length % 256 = rest.length ∧ check = checkOf body := by
  obtain ⟨b4, b5, b6, b7, b8, b9, b10, b11, rfl⟩ : ∃ b4 b5 b6 b7 b8 b9 b10 b11,
    body = [b4, b5, b6, b7, b8, b9, b10, b11] := by
    rcases body with
      _ | ⟨b4, _ | ⟨b5, _ | ⟨b6, _ | ⟨b7, _ | ⟨b8, _ | ⟨b9, _ | ⟨b10, _ | ⟨b11, _ | ⟨b12, rest⟩⟩⟩⟩⟩⟩⟩⟩⟩
    case cons.cons.cons.cons.cons.cons.cons.cons.nil => exact ⟨b4, b5, b6, b7, b8, b9, b10, b11, rfl⟩
    all_goals simp at eight
  generalize whole : header [b4, b5, b6, b7, b8, b9, b10, b11] check length ++ rest = bytes
  have head : bytes.take 4 = [0xAA, 0xAA, 0xAA, 0xAA] := by
    rw [← whole]
    rfl
  have lengthByte : (bytes.getD 14 nul).toNat = length % 256 := by simp [← whole, header]
  have high : (bytes.getD 12 nul).toNat = check / 256 % 256 := by simp [← whole, header]
  have low : (bytes.getD 13 nul).toNat = check % 256 := by simp [← whole, header]
  have body : (bytes.drop 4).take 8 = [b4, b5, b6, b7, b8, b9, b10, b11] := by
    rw [← whole]
    rfl
  have lengths : bytes.length = 15 + rest.length := by
    rw [← whole, List.length_append, header_length eight]
  have bound := checkOf_lt eight
  constructor
  · rintro ⟨-, announced, checked⟩
    rw [lengthByte, lengths] at announced
    rw [high, low, body, Nat.mod_eq_of_lt bound] at checked
    omega
  · rintro ⟨announced, checked⟩
    refine ⟨head, ?_, ?_⟩
    · rw [lengthByte, lengths, announced]
    · rw [high, low, body, Nat.mod_eq_of_lt bound]
      omega

/-! ## The builders -/

/-- A builder whose buffer holds what it stores, all of which it writes. -/
theorem bytes_stored {room n : Nat} {stored : List Byte} (whole : n = stored.length) {written : Option Nat} :
    (Sent.mk room stored written).bytes n = stored := by
  rw [Sent.bytes, whole]
  exact List.take_left

theorem packedId_length (id : List Byte) : (packedId id).length = 6 := by
  simp [packedId]

theorem idFrame_wellFormed {room : Nat} (enough : 21 ≤ room) {body : List Byte} (eight : body.length = 8)
    (id : List Byte) :
    WellFormed ⟨room, idFrame body id, some 21⟩ := by
  have length : (idFrame body id).length = 21 := by
    rw [idFrame, List.length_append, header_length eight, packedId_length]
  constructor
  · dsimp only
    omega
  · intro n written
    obtain rfl : 21 = n := Option.some.inj written
    rw [bytes_stored length.symm]
    exact (framed_iff eight (checkOf_lt eight)).2 ⟨(packedId_length id).symm, rfl⟩

/-- A payload of up to 241 bytes fits into the buffer and its length into a byte. -/
theorem payloadFrame_wellFormed_iff (shortaddr : Nat) (buff : List Byte) {written : Option Nat}
    (all : ∀ n ∈ written, n = buff.length + 15) :
    WellFormed ⟨256, payloadFrame shortaddr buff, written⟩ ↔ buff.length ≤ 241 := by
  have eight : [0x55, UInt8.ofNat (shortaddr >>> 8), UInt8.ofNat shortaddr, 0, 0, 0, 0, 0].length = 8 := rfl
  have length : (payloadFrame shortaddr buff).length = 15 + buff.length := by
    rw [payloadFrame, List.length_append, header_length eight]
  constructor
  · rintro ⟨inside, -⟩
    dsimp only at inside
    omega
  · intro short
    constructor
    · dsimp only
      omega
    · intro n written
      have whole := all n written
      rw [bytes_stored (by omega)]
      exact (framed_iff eight (checkOf_lt eight)).2 ⟨Nat.mod_eq_of_lt (by omega), rfl⟩

theorem header_wellFormed_iff {room : Nat} (enough : 15 ≤ room) {body : List Byte} (eight : body.length = 8)
    {check : Nat}
    (small : check < 65536) : WellFormed ⟨room, header body check 0, some 15⟩ ↔ check = checkOf body := by
  have length := header_length eight check 0
  have framed : Framed (header body check 0) ↔ check = checkOf body := by
    have whole : Framed (header body check 0 ++ []) ↔ 0 % 256 = [].length ∧ check = checkOf body :=
      framed_iff eight small
    rw [List.append_nil] at whole
    rw [whole]
    exact and_iff_right rfl
  constructor
  · rintro ⟨-, frames⟩
    have here := frames 15 rfl
    rw [bytes_stored length.symm] at here
    exact framed.1 here
  · intro checked
    refine ⟨length.trans_le enough, fun n written => ?_⟩
    obtain rfl : 15 = n := Option.some.inj written
    rw [bytes_stored length.symm]
    exact framed.2 checked

theorem send11order_not_wellFormed (ecu : EcuInfo) (id : List Byte) (count : Nat) :
    ¬ WellFormed (send11order ecu id count) := by
  rintro ⟨-, frames⟩
  have framed := (frames 21 rfl).length
  simp [Sent.bytes, send11order, header, packedId] at framed

/-! ## Retries -/

section Retries

variable (shortAddr : Nat)

/-- The sum of one pass. -/
def passSum : Nat :=
  checkOf [0x08, UInt8.ofNat (shortAddr >>> 8), UInt8.ofNat shortAddr, 0, 0, 0, 0, 0xA0]

theorem passSum_bounds : 0 < passSum shortAddr ∧ passSum shortAddr < 1024 := by
  have high := (UInt8.ofNat (shortAddr >>> 8)).toNat_lt
  have low := (UInt8.ofNat shortAddr).toNat_lt
  have sum : passSum shortAddr =
      8 + ((UInt8.ofNat (shortAddr >>> 8)).toNat + ((UInt8.ofNat shortAddr).toNat + 160)) := rfl
  omega

theorem bindPass_wellFormed_iff {check : Nat} (small : check < 65536) :
    WellFormed (bindPass shortAddr check) ↔ check = passSum shortAddr :=
  header_wellFormed_iff (by decide) rfl small

/-- The first pass has the right sum, and the next one, if there is one, has not. -/
theorem bind_wellFormed_iff (replies : List (Option (List Byte))) :
    (∀ s ∈ zbOffReportIdAndBind shortAddr replies, WellFormed s) ↔ Bound (replies.headD none) := by
  have bounds := passSum_bounds shortAddr
  have first : zbOffReportIdAndBind shortAddr replies = bindPass shortAddr (0 + passSum shortAddr) ::
      if Bound (replies.headD none) then [] else bindLoop shortAddr 2 (0 + passSum shortAddr) replies.tail := rfl
  rw [first, Nat.zero_add]
  have right : WellFormed (bindPass shortAddr (passSum shortAddr)) :=
    (bindPass_wellFormed_iff shortAddr (by omega)).2 rfl
  by_cases bound : Bound (replies.headD none)
  · rw [if_pos bound]
    refine iff_of_true (fun s mem => ?_) bound
    rw [List.mem_singleton.1 mem]
    exact right
  · rw [if_neg bound]
    refine iff_of_false (fun all => ?_) bound
    have second : bindPass shortAddr (passSum shortAddr + passSum shortAddr) ∈
        bindLoop shortAddr 2 (passSum shortAddr) replies.tail := List.mem_cons_self
    have twice := (bindPass_wellFormed_iff shortAddr (by omega)).1 (all _ (List.mem_cons_of_mem _ second))
    omega

end Retries

/-- What a call writes is well formed exactly if the call is correct. -/
theorem frames_wellFormed_iff (ecu : EcuInfo) (call : Call) : (∀ s ∈ writes ecu call, WellFormed s) ↔ Correct call := by
  have written (shortaddr : Nat) (buff : List Byte) :
      ∀ n ∈ (if shortaddr ≠ 0 then some (buff.length + 15) else none), n = buff.length + 15 := by
    intro n mem
    split_ifs at mem
    · exact (Option.some.inj mem).symm
    · cases mem
  cases call with
  | sendCmd shortaddr buff =>
    rw [writes, List.forall_mem_singleton]
    exact payloadFrame_wellFormed_iff shortaddr buff (written shortaddr buff)
  | shortaddrCmd shortaddr buff =>
    rw [writes, List.forall_mem_singleton]
    exact payloadFrame_wellFormed_iff shortaddr buff (written shortaddr buff)
  | broadcastCmd buff =>
    rw [writes, List.forall_mem_singleton]
    exact payloadFrame_wellFormed_iff 0 buff fun n mem => (Option.some.inj mem).symm
  | changeInverterPanidSingle id =>
    rw [writes, List.forall_mem_singleton]
    exact iff_of_true (idFrame_wellFormed (by decide) rfl id) trivial
  | changeInverterChannelOne id channel =>
    rw [writes, List.forall_mem_singleton]
    exact iff_of_true (idFrame_wellFormed (by decide) rfl id) trivial
  | getInverterShortaddressSingle id =>
    rw [writes, List.forall_mem_singleton]
    exact iff_of_true (idFrame_wellFormed (by decide) rfl id) trivial
  | offReportIdAndBind shortAddr replies => exact bind_wellFormed_iff shortAddr replies
  | getaddrOldOrNew id =>
    rw [writes, List.forall_mem_singleton]
    -- the constants are those of a header
    have same : Zigbee.getaddrOldOrNew id = ⟨21, idFrame [0x0E, 0, 0, 0, 0, 0, 0, 0xA0] id, some 21⟩ := rfl
    rw [same]
    exact iff_of_true (idFrame_wellFormed (Nat.le_refl 21) rfl id) trivial
  | send11order id count =>
    rw [writes, List.forall_mem_singleton]
    exact iff_of_false (send11order_not_wellFormed ecu id count) fun correct => correct
  | send22order =>
    refine iff_of_true (fun s mem => ?_) trivial
    rw [List.eq_of_mem_replicate mem]
    exact (header_wellFormed_iff (Nat.le_refl 15) rfl (checkOf_lt rfl)).2 rfl

/-- The second attempt to bind has twice the sum, and `send11order` sends six bytes of eight. -/
theorem wrong_frames :
    (¬ ∀ ecu shortAddr replies, ∀ s ∈ writes ecu (.offReportIdAndBind shortAddr replies), WellFormed s) ∧
      ¬ ∀ ecu id count, ∀ s ∈ writes ecu (.send11order id count), WellFormed s := by
  constructor
  · intro claim
    have second := (claim ⟨0xFFFF, 0x10⟩ 0x0102 [] (bindPass 0x0102 342) (by decide +kernel)).framed 15 rfl
    have check := second.check
    revert check
    decide +kernel
  · intro claim
    have length := ((claim ⟨0xFFFF, 0x10⟩ (str "201703150001") 1 _ List.mem_cons_self).framed 21 rfl).length
    revert length
    decide +kernel

end Ecu.Zigbee
