import Ecu.Base
import Ecu.Lib.Scan

/-!
# The packets of the WiFi module (`usart5.c`)

The module sends its packets over UART5. The receive interrupt writes each byte to `USART_RX_BUF[Cur]`;
`WIFI_GetEvent` is called in a loop and works on what is there: fifteen blocks, one for each state of
the receiver, each a loop of `pos` up to `Cur`. A block whose state is not the current one does
nothing, and the blocks of one call share `pos`.

Bytes arrive and the timer ticks at any time, also while a call is running: an event is a byte, a
tick, or the next block of the call that is running (or of a new one). A byte that arrives inside a
loop is seen by its next test, so it has the effect of a byte before the block.

The arrays that a packet is copied to have room for it (`SOCKETA_LEN`, `SOCKETC_LEN` are the length of the
receive buffer); the sizes that `memset` and `memcpy` are given have a module of their own. A packet shorter than its
header makes the size that `memcpy` is given negative, which is kept as an event of its own.
-/

namespace Ecu.Wifi

open Scan

def usartRecLen : Nat := 2048

inductive Channel where
  | a | b | c
deriving DecidableEq, Repr

/-- `eRecvSM`. -/
inductive RecvSM where
  | getSocketHead
  | getSocketId
  | getHead (ch : Channel)
  | getLen (ch : Channel)
  | getData (ch : Channel)
  | getEnd (ch : Channel)
  | getSocketData
deriving DecidableEq, Repr

/-- `eRecvType`. -/
inductive RecvType where
  | unknown
  | channel (ch : Channel)
  | socket
deriving DecidableEq, Repr

/-- What the consumer finds when an event flag is set: the data of a socket, with the connection id
for socket A, or the six bytes of a socket message. -/
inductive Packet where
  | data (ch : Channel) (id : List Byte) (bytes : List Byte)
  | socket (bytes : List Byte)
  /-- `memcpy` with a negative size. -/
  | overrun (ch : Channel)
deriving DecidableEq, Repr

structure Usart where
  /-- `USART_RX_BUF`. -/
  rx : Nat → Byte
  cur : Nat := 0
  packLen : Nat := 0
  state : RecvSM := .getSocketHead
  type : RecvType := .unknown
  pos : Nat := 0
  id : Nat → Byte := fun _ => nul
  /-- `usart_flag` while TIM3 is running. -/
  timer : Option Nat := none
  /-- The next block of the call, 15 when no call is running. -/
  block : Nat := 15
  /-- The packets handed over so far. -/
  log : List Packet := []

instance : Cursor Usart where
  pos := Usart.pos
  move n u := { u with pos := n }
  pos_move _ _ := rfl
  move_move _ _ _ := rfl
  move_pos _ := rfl

/-! ## Packet lengths -/

/-- `(packet[i]-'0')` -/
def digitAt (packet : Nat → Byte) (i : Nat) : Int :=
  (packet i).toNat - 0x30

/-- `unsigned short`. -/
def ushort (v : Int) : Nat :=
  (v % 65536).toNat

def packetlenA (packet : Nat → Byte) : Nat :=
  ushort (digitAt packet 0 * 1000 + digitAt packet 1 * 100 + digitAt packet 2 * 10 + digitAt packet 3)

def packetlenB (packet : Nat → Byte) : Nat :=
  let count := ushort (digitAt packet 0 * 10 + digitAt packet 1)
  ushort (3 + 9 + count * 14)

/-- The five bytes of a length after `packetlen_C`, which writes `'0'` over `'A'`. -/
def unpad (packet : Nat → Byte) : Nat → Byte := fun i =>
  if i < 5 ∧ packet i = 0x41 then 0x30 else packet i

def packetlenC (packet : Nat → Byte) : Nat :=
  let packet := unpad packet
  ushort (digitAt packet 0 * 10000 + digitAt packet 1 * 1000 + digitAt packet 2 * 100 +
    digitAt packet 3 * 10 + digitAt packet 4)

/-! ## Actions at a position -/

namespace Usart

/-- `&USART_RX_BUF[k]` -/
def at' (u : Usart) (k : Nat) : Nat → Byte :=
  fun i => u.rx (k + i)

def timerInit (u : Usart) : Usart := { u with timer := some 0 }
def timerDeinit (u : Usart) : Usart := { u with timer := none }

/-- Back to the head of a packet; what has been received is dropped. -/
def restart (u : Usart) : Usart :=
  { u with cur := 0, pos := 0, state := .getSocketHead }

/-- The packet is complete. -/
def deliver (packet : Packet) (u : Usart) : Usart :=
  { u with
    log := u.log ++ [packet]
    type := .unknown, state := .getSocketHead, cur := 0, pos := 0, timer := none }

/-- The bytes of the packet behind its header. -/
def payload (u : Usart) : List Byte :=
  (List.range (u.packLen - 9)).map (u.at' 9)

def idA (u : Usart) : List Byte :=
  (List.range 8).map u.id

def packet (u : Usart) (ch : Channel) : Packet :=
  if u.packLen < 9 then .overrun ch else .data ch (if ch = .a then u.idA else []) u.payload

/-- `pos` 1 in the head of a packet. -/
def onSocketHead (u : Usart) : Outcome Usart :=
  let u := u.timerInit
  if u.rx 0 ≠ 0x61 ∧ u.rx 0 ≠ 0x62 ∧ u.rx 0 ≠ 0x63 ∧ u.rx 0 ≠ 0x65 then
    .leave { u.restart with type := .unknown, timer := none }
  else if u.rx 0 = 0x61 then .leave { u with state := .getSocketId, type := .channel .a, timer := none }
  else if u.rx 0 = 0x62 then .leave { u with state := .getSocketId, type := .channel .b, timer := none }
  else if u.rx 0 = 0x63 then .leave { u with state := .getSocketId, type := .channel .c, timer := none }
  else
    let u := { u with state := .getSocketData, type := .socket, timer := none }
    if u.cur ≥ 2 ∧ u.rx 1 = 0x64 then .leave { u.restart with type := .unknown } else .leave u

def onSocketData (u : Usart) : Outcome Usart :=
  .leave (u.deliver (.socket ((List.range 6).map u.rx)))

/-- `ID[k] = USART_RX_BUF[k + 1]` -/
def storeId (k : Nat) (u : Usart) : Usart :=
  { u with id := fun i => if i = k then u.rx (k + 1) else u.id i }

def onSocketId (u : Usart) : Outcome Usart :=
  let u := u.storeId 7
  match u.type with
  | .channel ch => .leave { u with state := .getHead ch }
  | _ => .leave u.restart

/-- A byte that the packet must have. -/
def expect (k : Nat) (c : Byte) (u : Usart) : Outcome Usart :=
  if u.rx k ≠ c then .leave u.restart else .go u

def onLen (ch : Channel) (u : Usart) : Outcome Usart :=
  .leave { u with state := .getLen ch }

/-- The length is there. -/
def onData (ch : Channel) (packLen : Nat) (u : Usart) : Outcome Usart :=
  .leave (timerInit { u with packLen := packLen, state := .getData ch })

def onEnd (ch : Channel) (u : Usart) : Outcome Usart :=
  .leave (timerInit { u with state := .getEnd ch })

/-- The last byte of `END`. -/
def onDelivery (ch : Channel) (u : Usart) : Outcome Usart :=
  if u.rx (u.packLen - 1) ≠ 0x44 then .leave u.restart else .leave (u.deliver (u.packet ch))

/-! ## Blocks -/

/-- A loop of `pos` below the limit. -/
def whilePos (limit : Nat) (stops : List (Stop Usart)) (u : Usart) : Usart :=
  loop limit stops limit u

def socketHeadStops : List (Stop Usart) :=
  [⟨1, onSocketHead⟩]

def socketDataStops : List (Stop Usart) :=
  [⟨5, onSocketData⟩]

def socketIdStops : List (Stop Usart) :=
  [⟨2, fun u => .go (u.storeId 0)⟩, ⟨3, fun u => .go (u.storeId 1)⟩, ⟨4, fun u => .go (u.storeId 2)⟩,
    ⟨5, fun u => .go (u.storeId 3)⟩, ⟨6, fun u => .go (u.storeId 4)⟩, ⟨7, fun u => .go (u.storeId 5)⟩,
    ⟨8, fun u => .go (u.storeId 6)⟩, ⟨9, onSocketId⟩]

/-- Sockets A and C: `APS` and the version. -/
def headStops (ch : Channel) : List (Stop Usart) :=
  [⟨10, expect 9 0x41⟩, ⟨11, expect 10 0x50⟩, ⟨12, expect 11 0x53⟩, ⟨14, onLen ch⟩]

def lenStopsA : List (Stop Usart) :=
  [⟨18, fun u => onData .a (ushort (packetlenA (u.at' 14) + 9)) u⟩]

/-- `packetlen_C` leaves its `'0'`s in the receive buffer. -/
def lenStopsC : List (Stop Usart) :=
  [⟨19, fun u => onData .c (ushort (packetlenC (u.at' 14) + 9))
    { u with rx := fun i => if 14 ≤ i then unpad (u.at' 14) (i - 14) else u.rx i }⟩]

def dataStops (ch : Channel) (packLen : Nat) : List (Stop Usart) :=
  [⟨packLen - 3, onEnd ch⟩]

def endStops (ch : Channel) (packLen : Nat) : List (Stop Usart) :=
  [⟨packLen - 2, expect (packLen - 3) 0x45⟩, ⟨packLen - 1, expect (packLen - 2) 0x4E⟩, ⟨packLen, onDelivery ch⟩]

def headStopsB : List (Stop Usart) :=
  [⟨10, fun u => if u.rx 9 ≠ 0x31 then .leave u.restart else onLen .b u⟩]

def lenStopsB : List (Stop Usart) :=
  [⟨10, fun u => if 0x62 ≠ u.rx 10 then onData .b (packetlenB (u.at' 10)) u else .go u⟩,
    ⟨19, fun u => onData .b (ushort (packetlenB (u.at' 19) + 9)) u⟩]

def dataStopsB (packLen : Nat) : List (Stop Usart) :=
  [⟨packLen, onEnd .b⟩]

/-- The state that a block works on. -/
def blockState : Nat → Option RecvSM
  | 0 => some .getSocketHead
  | 1 => some .getSocketData
  | 2 => some .getSocketId
  | 3 => some (.getHead .a)
  | 4 => some (.getLen .a)
  | 5 => some (.getData .a)
  | 6 => some (.getEnd .a)
  | 7 => some (.getHead .b)
  | 8 => some (.getLen .b)
  | 9 => some (.getData .b)
  | 10 => some (.getEnd .b)
  | 11 => some (.getHead .c)
  | 12 => some (.getLen .c)
  | 13 => some (.getData .c)
  | 14 => some (.getEnd .c)
  | _ => none

/-- What the block of a state does. -/
def work (u : Usart) : Usart :=
  match u.state with
  | .getSocketHead => whilePos u.cur socketHeadStops u
  | .getSocketData => whilePos u.cur socketDataStops u.timerInit
  | .getSocketId => whilePos u.cur socketIdStops u
  | .getHead .a => whilePos u.cur (headStops .a) u
  | .getLen .a => whilePos u.cur lenStopsA u
  | .getData .a => whilePos u.cur (dataStops .a u.packLen) { u.timerDeinit with pos := 0 }
  | .getEnd .a => whilePos (u.cur + 1) (endStops .a u.packLen) { u with pos := 0 }
  | .getHead .b => whilePos u.cur headStopsB u
  | .getLen .b => whilePos u.cur lenStopsB u
  | .getData .b => whilePos (u.cur + 1) (dataStopsB u.packLen) { u.timerDeinit with pos := 0 }
  | .getEnd .b => u.deliver (u.packet .b)
  | .getHead .c => whilePos u.cur (headStops .c) u
  | .getLen .c => whilePos u.cur lenStopsC u
  | .getData .c => whilePos (u.cur + 1) (dataStops .c u.packLen) { u.timerDeinit with pos := 0 }
  | .getEnd .c => whilePos (u.cur + 1) (endStops .c u.packLen) { u with pos := 0 }

end Usart

/-! ## Events -/

inductive Event where
  /-- `UART5_IRQHandler`. -/
  | rx (b : Byte)
  /-- `TIM3_IRQHandler`. -/
  | tick
  /-- The next block of `WIFI_GetEvent`. -/
  | run
deriving DecidableEq, Repr

namespace Usart

def receive (b : Byte) (u : Usart) : Usart :=
  { u with
    rx := fun i => if i = u.cur then b else u.rx i
    cur := if u.cur + 1 ≥ usartRecLen then 0 else u.cur + 1 }

def tick (u : Usart) : Usart :=
  match u.timer with
  | none => u
  | some usartFlag =>
    if usartFlag + 1 > 1 then { u with state := .getSocketHead, cur := 0, timer := none }
    else { u with timer := some (usartFlag + 1) }

/-- A call begins with `pos = 0`; a block works when its state is the current one. -/
def run (u : Usart) : Usart :=
  if u.block ≥ 15 then { u with pos := 0, block := 0 }
  else { (if blockState u.block = some u.state then u.work else u) with block := u.block + 1 }

def step (u : Usart) : Event → Usart
  | .rx b => u.receive b
  | .tick => u.tick
  | .run => u.run

def steps (u : Usart) (events : List Event) : Usart :=
  events.foldl step u

end Usart

/-- The bytes among some events. -/
def received (events : List Event) : List Byte :=
  events.filterMap fun
    | .rx b => some b
    | _ => none

end Ecu.Wifi
