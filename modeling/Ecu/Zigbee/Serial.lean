import Ecu.Base
import Ecu.Lib.RingBuffer

/-!
# The serial port of the module (`serial.c`, `usart.c`, `zigbee.c`)

The interrupt of UART4 puts what comes in into a ring and sets `zigbeeReadFlag`; the thread takes it out byte by byte,
each in a critical section, so that interrupts come between any two rounds of its loops. `rt_serial_write` clears the
flag on every port but UART4 (its comparison is the wrong way round), so each text on the console clears it, and nothing
in `zigbee.c` does. Delays are the interrupts and writes that come meanwhile.
-/

namespace Ecu.Zigbee

open RingBuffer (Flow flow_puts flow_take)

/-! ## The ports -/

/-- `struct rt_serial_rx_fifo` -/
abbrev RxFifo := RingBuffer Byte

/-- `RT_SERIAL_RB_BUFSZ` -/
def bufsz : Nat := 256

/-- One round of the loop of `rt_hw_serial_isr`: a character has been received. -/
def isrPut (rxFifo : RxFifo) (ch : Byte) : RxFifo :=
  let buffer := Function.update rxFifo.buffer rxFifo.putIndex ch
  let putIndex := if rxFifo.putIndex + 1 ≥ bufsz then 0 else rxFifo.putIndex + 1
  -- if the next position is read index, discard this 'read char'
  if putIndex = rxFifo.getIndex then
    let getIndex := if rxFifo.getIndex + 1 ≥ bufsz then 0 else rxFifo.getIndex + 1
    ⟨buffer, putIndex, getIndex⟩
  else ⟨buffer, putIndex, rxFifo.getIndex⟩

/-- One round of the loop of `_serial_int_rx`: a character, or no data. -/
def intRxTake (rxFifo : RxFifo) : Option (Byte × RxFifo) :=
  if rxFifo.getIndex ≠ rxFifo.putIndex then
    let ch := rxFifo.buffer rxFifo.getIndex
    let getIndex := rxFifo.getIndex + 1
    let getIndex := if getIndex ≥ bufsz then 0 else getIndex
    some (ch, ⟨rxFifo.buffer, rxFifo.putIndex, getIndex⟩)
  else none

/-- The ports that `rt_hw_usart_init` registers, and their names. -/
inductive Port where
  | uart1 | uart4
deriving DecidableEq

def Port.name : Port → List Char
  | uart1 => ['u', 'a', 'r', 't', '1']
  | uart4 => ['u', 'a', 'r', 't', '4']

/-- Whether `rt_strncmp(cs, ct, count)` is not zero. -/
def rtStrncmp : Nat → List Char → List Char → Bool
  | 0, _, _ => false
  | _ + 1, [], [] => false
  | _ + 1, [], _ :: _ => true
  | _ + 1, _ :: _, [] => true
  | count + 1, c :: cs, d :: ct => if c ≠ d then true else rtStrncmp count cs ct

structure Serial where
  rx : RxFifo
  zigbeeReadFlag : Bool

/-- `UART4_IRQHandler`, with the characters that `getc` gives. -/
def Serial.uart4IRQHandler (s : Serial) (chs : List Byte) : Serial where
  rx := chs.foldl isrPut s.rx
  zigbeeReadFlag := true

/-- `rt_serial_write`, without the bytes on the line. -/
def Serial.rtSerialWrite (s : Serial) (dev : Port) (size : Nat) : Serial :=
  if size = 0 then s
  else if rtStrncmp 5 ['u', 'a', 'r', 't', '4'] dev.name then { s with zigbeeReadFlag := false }
  else s

/-! ## What comes meanwhile -/

/-- An interrupt of UART4, or a write to a port by any thread. -/
inductive Event where
  | irq (chs : List Byte)
  | write (dev : Port) (size : Nat)
deriving DecidableEq

def Serial.event (s : Serial) : Event → Serial
  | .irq chs => s.uart4IRQHandler chs
  | .write dev size => s.rtSerialWrite dev size

def Serial.run (s : Serial) (events : List Event) : Serial :=
  events.foldl Serial.event s

/-- The characters that come in. -/
def received : List Event → List Byte
  | [] => []
  | .irq chs :: events => chs ++ received events
  | .write _ _ :: events => received events

/-! ## Reads -/

/-- `_serial_int_rx` for some characters: what comes in from its first round to its last, and the characters read. -/
inductive SerialIntRx : Nat → Serial → List Byte → List Byte → Serial → Prop where
  | full {s : Serial} : SerialIntRx 0 s [] [] s
  | meanwhile {length : Nat} {s s' : Serial} {got data : List Byte} (events : List Event)
    (later : SerialIntRx length (s.run events) got data s') : SerialIntRx length s (received events ++ got) data s'
  | noData {length : Nat} {s : Serial} (none : intRxTake s.rx = none) : SerialIntRx (length + 1) s [] [] s
  | char {length : Nat} {s s' : Serial} {rx : RxFifo} {ch : Byte} {got data : List Byte}
    (taken : intRxTake s.rx = some (ch, rx)) (later : SerialIntRx length { s with rx := rx } got data s') :
    SerialIntRx (length + 1) s got (ch :: data) s'

/-- `clear_zbmodem`, and what comes in from its beginning to its end. -/
inductive ClearZbmodem (s : Serial) : List Byte → Serial → Prop where
  | clear {s₁ s₂ s₃ : Serial} {got₁ got₂ got₃ data₁ data₂ data₃ : List Byte} (delay₁ delay₂ delay₃ : List Event)
    (first : SerialIntRx 255 s got₁ data₁ s₁) (second : SerialIntRx 255 (s₁.run delay₁) got₂ data₂ s₂)
    (third : SerialIntRx 255 (s₂.run delay₂) got₃ data₃ s₃) :
    ClearZbmodem s (got₁ ++ received delay₁ ++ (got₂ ++ received delay₂) ++ (got₃ ++ received delay₃)) (s₃.run delay₃)

/-- The loop of `selectZigbee`: for each round, whether the timer has fired before it and what comes in its delay. The
result comes with all that has come until then; there is none as long as the loop has to go on. -/
def selectZigbee : List (Bool × List Event) → Serial → Option (Bool × List Event)
  | [], _ => none
  | (zigbeereadtimeoutflag, events) :: rounds, s =>
    if zigbeereadtimeoutflag then some (false, [])
    else if (s.run events).zigbeeReadFlag then some (true, events)
    else (selectZigbee rounds (s.run events)).map fun r => (r.1, events ++ r.2)

/-- `zb_send_cmd`, what comes until `selectZigbee` is called, and the read of the answer that it has seen: what comes in
while the ring is emptied and from then on, and the characters read. -/
inductive Exchange (s : Serial) : List Byte → List Byte → List Byte → Serial → Prop where
  | answer {s₁ s' : Serial} {size : Nat} {cleared got data : List Byte} {rounds : List (Bool × List Event)}
    {waited : List Event} (sent delay : List Event) (clear : ClearZbmodem s cleared s₁)
    (select : selectZigbee rounds ((s₁.rtSerialWrite .uart4 size).run sent) = some (true, waited))
    (read : SerialIntRx 255 ((((s₁.rtSerialWrite .uart4 size).run sent).run waited).run delay) got data s') :
    Exchange s cleared (received sent ++ received waited ++ received delay ++ got) data s'

/-! ## The queue -/

theorem isrPut_eq (rxFifo : RxFifo) (ch : Byte) : isrPut rxFifo ch = rxFifo.put bufsz ch := by
  dsimp only [isrPut, RingBuffer.put, RingBuffer.next]
  split_ifs
  all_goals rfl

theorem intRxTake_eq (rxFifo : RxFifo) : intRxTake rxFifo = rxFifo.take bufsz :=
  rfl

theorem uart4_rx (s : Serial) (chs : List Byte) : (s.uart4IRQHandler chs).rx = s.rx.puts bufsz chs := by
  change chs.foldl isrPut s.rx = chs.foldl (RingBuffer.put bufsz) s.rx
  rw [show isrPut = RingBuffer.put bufsz from funext fun rx => funext fun ch => isrPut_eq rx ch]

theorem rtSerialWrite_rx (s : Serial) (dev : Port) (size : Nat) : (s.rtSerialWrite dev size).rx = s.rx := by
  rw [Serial.rtSerialWrite]
  split_ifs
  all_goals rfl

/-- The characters that are still to be read. -/
def Serial.unread (s : Serial) : List Byte :=
  s.rx.contents bufsz

theorem event_valid {s : Serial} (valid : s.rx.Valid bufsz) (e : Event) : (s.event e).rx.Valid bufsz := by
  cases e with
  | irq chs =>
    rw [Serial.event, uart4_rx]
    exact valid.puts_valid chs
  | write dev size =>
    rw [Serial.event, rtSerialWrite_rx]
    exact valid

theorem event_flow {s : Serial} (valid : s.rx.Valid bufsz) (e : Event) :
    Flow bufsz s.unread (received [e]) [] (s.event e).unread := by
  cases e with
  | irq chs =>
    rw [Serial.event, Serial.unread, Serial.unread, uart4_rx, received, received, List.append_nil]
    exact flow_puts valid chs
  | write dev size =>
    rw [Serial.event, Serial.unread, Serial.unread, rtSerialWrite_rx]
    exact Flow.refl _

theorem received_append (first second : List Event) : received (first ++ second) = received first ++ received second := by
  induction first with
  | nil => rfl
  | cons e first ih =>
    cases e with
    | irq chs => rw [List.cons_append, received, received, ih, List.append_assoc]
    | write dev size => rw [List.cons_append, received, received, ih]

theorem run_flow {s : Serial} (valid : s.rx.Valid bufsz) (events : List Event) :
    (s.run events).rx.Valid bufsz ∧ Flow bufsz s.unread (received events) [] (s.run events).unread := by
  induction events generalizing s with
  | nil => exact ⟨valid, Flow.refl _⟩
  | cons e events ih =>
    obtain ⟨valid', flow⟩ := ih (event_valid valid e)
    have split : received (e :: events) = received [e] ++ received events := received_append [e] events
    rw [split]
    exact ⟨valid', (event_flow valid e).trans flow⟩

/-- A read takes what is there in order, and ends only where it has enough or nothing is left. -/
theorem read_flow {length : Nat} {s s' : Serial} {got data : List Byte} (read : SerialIntRx length s got data s')
    (valid : s.rx.Valid bufsz) : s'.rx.Valid bufsz ∧ Flow bufsz s.unread got data s'.unread ∧
      (data.length = length ∨ s'.unread = []) := by
  induction read with
  | full => exact ⟨valid, Flow.refl _, .inl rfl⟩
  | meanwhile events later ih =>
    obtain ⟨valid₁, flow⟩ := run_flow valid events
    obtain ⟨valid', flow', ends⟩ := ih valid₁
    exact ⟨valid', flow.trans flow', ends⟩
  | noData none =>
    rw [intRxTake_eq] at none
    exact ⟨valid, Flow.refl _, .inr ((RingBuffer.take_none valid).1 none)⟩
  | char taken later ih =>
    rw [intRxTake_eq] at taken
    obtain ⟨valid', flow', ends⟩ := ih (RingBuffer.take_some valid taken).2
    refine ⟨valid', (flow_take valid taken).trans flow', ends.imp_left fun all => ?_⟩
    rw [List.length_cons, all]

/-- A read of 255 characters leaves only what has come in while it ran. -/
theorem read_late {s s' : Serial} {got data : List Byte} (read : SerialIntRx 255 s got data s')
    (valid : s.rx.Valid bufsz) : s'.rx.Valid bufsz ∧ s'.unread <:+ got := by
  obtain ⟨valid', flow, ends⟩ := read_flow read valid
  have few : s.unread.length < 256 := by
    rw [Serial.unread, RingBuffer.contents_length]
    exact valid.length_lt
  exact ⟨valid', flow.suffix (ends.imp_left fun all => by omega)⟩

/-- What is left has come in late, and so has what is left of it after more has come in. -/
theorem run_late {s : Serial} {late : List Byte} (valid : s.rx.Valid bufsz) (last : s.unread <:+ late)
    (events : List Event) : (s.run events).rx.Valid bufsz ∧ (s.run events).unread <:+ late ++ received events := by
  obtain ⟨valid', flow⟩ := run_flow valid events
  exact ⟨valid', flow.late last⟩

theorem clear_late {s s' : Serial} {got : List Byte} (clear : ClearZbmodem s got s') (valid : s.rx.Valid bufsz) :
    s'.rx.Valid bufsz ∧ s'.unread <:+ got := by
  cases clear with
  | clear delay₁ delay₂ delay₃ first second third =>
    obtain ⟨valid₁, -⟩ := read_late first valid
    obtain ⟨valid₁, -⟩ := run_flow valid₁ delay₁
    obtain ⟨valid₂, -⟩ := read_late second valid₁
    obtain ⟨valid₂, -⟩ := run_flow valid₂ delay₂
    obtain ⟨valid₃, late⟩ := read_late third valid₂
    obtain ⟨valid₃, late⟩ := run_late valid₃ late delay₃
    exact ⟨valid₃, late.trans (List.suffix_append _ _)⟩

theorem write_run {s : Serial} (valid : s.rx.Valid bufsz) (dev : Port) (size : Nat) :
    (s.rtSerialWrite dev size).rx.Valid bufsz ∧ (s.rtSerialWrite dev size).unread = s.unread := by
  rw [Serial.unread, Serial.unread, rtSerialWrite_rx]
  exact ⟨valid, rfl⟩

/-- Nothing is written but on UART4. -/
def Quiet (events : List Event) : Prop :=
  ∀ dev size, .write dev size ∈ events → dev = .uart4 ∨ size = 0

/-- The last interrupt of UART4 comes after everything written to another port. -/
def Heard (flag : Bool) (events : List Event) : Prop :=
  (∃ before chs after, events = before ++ .irq chs :: after ∧ Quiet after) ∨ flag = true ∧ Quiet events

theorem quiet_cons {e : Event} {events : List Event} :
    Quiet (e :: events) ↔ (∀ dev size, e = .write dev size → dev = .uart4 ∨ size = 0) ∧ Quiet events := by
  constructor
  · intro quiet
    exact ⟨fun dev size here => quiet dev size (here ▸ List.mem_cons_self),
      fun dev size mem => quiet dev size (List.mem_cons_of_mem e mem)⟩
  · rintro ⟨first, later⟩ dev size mem
    rcases List.mem_cons.1 mem with here | mem
    · exact first dev size here.symm
    · exact later dev size mem

theorem heard_cons {flag : Bool} {e : Event} {events : List Event} : Heard flag (e :: events) ↔
    (∃ before chs after, events = before ++ .irq chs :: after ∧ Quiet after) ∨
      ((∃ chs, e = .irq chs) ∨ flag = true ∧ ∀ dev size, e = .write dev size → dev = .uart4 ∨ size = 0) ∧
        Quiet events := by
  constructor
  · rintro (⟨before, chs, after, split, quiet⟩ | ⟨set, quiet⟩)
    · cases before with
      | nil =>
        cases split
        exact .inr ⟨.inl ⟨chs, rfl⟩, quiet⟩
      | cons _ before =>
        cases split
        exact .inl ⟨before, chs, after, rfl, quiet⟩
    · obtain ⟨first, later⟩ := quiet_cons.1 quiet
      exact .inr ⟨.inr ⟨set, first⟩, later⟩
  · rintro (⟨before, chs, after, rfl, quiet⟩ | ⟨⟨chs, rfl⟩ | ⟨set, first⟩, later⟩)
    · exact .inl ⟨e :: before, chs, after, rfl, quiet⟩
    · exact .inl ⟨[], chs, events, rfl, later⟩
    · exact .inr ⟨set, quiet_cons.2 ⟨first, later⟩⟩

/-- What one event does to the flag. -/
theorem event_flag (s : Serial) (e : Event) : (s.event e).zigbeeReadFlag = true ↔ (∃ chs, e = .irq chs) ∨
    s.zigbeeReadFlag = true ∧ ∀ dev size, e = .write dev size → dev = .uart4 ∨ size = 0 := by
  cases e with
  | irq chs => exact iff_of_true rfl (.inl ⟨chs, rfl⟩)
  | write dev size =>
    rw [Serial.event, Serial.rtSerialWrite]
    split_ifs with nothing other
    · refine ⟨fun set => .inr ⟨set, fun _ _ same => ?_⟩, fun set => ?_⟩
      · cases same
        exact .inr nothing
      · rcases set with ⟨chs, same⟩ | set
        · cases same
        · exact set.1
    · refine iff_of_false (fun set => by cases set) ?_
      rintro (⟨chs, same⟩ | ⟨-, quiet⟩)
      · cases same
      · rcases quiet dev size rfl with rfl | none
        · exact absurd other (by decide)
        · exact nothing none
    · have port : dev = .uart4 := by
        cases dev with
        | uart1 => exact absurd rfl other
        | uart4 => rfl
      refine ⟨fun set => .inr ⟨set, fun _ _ same => ?_⟩, fun set => ?_⟩
      · cases same
        exact .inl port
      · rcases set with ⟨chs, same⟩ | set
        · cases same
        · exact set.1

theorem run_flag (s : Serial) (events : List Event) :
    (s.run events).zigbeeReadFlag = true ↔ Heard s.zigbeeReadFlag events := by
  induction events generalizing s with
  | nil =>
    refine ⟨fun set => .inr ⟨set, fun _ _ mem => by cases mem⟩, ?_⟩
    rintro (⟨before, chs, after, split, -⟩ | ⟨set, -⟩)
    · cases before with
      | nil => cases split
      | cons _ _ => cases split
    · exact set
  | cons e events ih =>
    rw [heard_cons, ← event_flag]
    exact ih (s.event e)

theorem run_append (s : Serial) (first second : List Event) : s.run (first ++ second) = (s.run first).run second :=
  List.foldl_append

/-- `selectZigbee` answers 1 just where at the end of a round, before the timer has fired, the last interrupt of UART4
is later than every text on the console, or nothing has come at all and the flag was set when it was called. -/
theorem select_iff (rounds : List (Bool × List Event)) (s : Serial) :
    (selectZigbee rounds s).map Prod.fst = some true ↔ ∃ earlier now later, rounds = earlier ++ now :: later ∧
      (∀ r ∈ earlier, r.1 = false) ∧ now.1 = false ∧
        Heard s.zigbeeReadFlag (earlier.flatMap Prod.snd ++ now.2) := by
  induction rounds generalizing s with
  | nil =>
    refine iff_of_false (fun found => by cases found) ?_
    rintro ⟨earlier, now, later, split, -⟩
    cases earlier with
    | nil => cases split
    | cons _ _ => cases split
  | cons r rounds ih =>
    obtain ⟨timeout, events⟩ := r
    rw [selectZigbee]
    split_ifs with fired set
    · refine iff_of_false (fun found => by cases found) ?_
      rintro ⟨earlier, now, later, split, before, waits, -⟩
      cases earlier with
      | nil =>
        cases split
        cases fired.symm.trans waits
      | cons _ earlier =>
        cases split
        have first := before (timeout, events) List.mem_cons_self
        cases fired.symm.trans first
    · refine iff_of_true rfl ⟨[], (timeout, events), rounds, rfl, List.forall_mem_nil _, ?_, (run_flag s events).1 set⟩
      exact Bool.eq_false_of_not_eq_true fired
    · rw [Option.map_map]
      refine (ih (s.run events)).trans ⟨?_, ?_⟩
      · rintro ⟨earlier, now, later, rfl, before, waits, heard⟩
        refine ⟨(timeout, events) :: earlier, now, later, rfl, List.forall_mem_cons.2
          ⟨Bool.eq_false_of_not_eq_true fired, before⟩, waits, ?_⟩
        rw [← run_flag] at heard
        rw [← run_flag, List.flatMap_cons, List.append_assoc, run_append]
        exact heard
      · rintro ⟨earlier, now, later, split, before, waits, heard⟩
        rw [← run_flag] at heard
        cases earlier with
        | nil =>
          cases split
          exact absurd heard set
        | cons _ earlier =>
          cases split
          rw [List.flatMap_cons, List.append_assoc, run_append] at heard
          exact ⟨earlier, now, later, rfl, fun r mem => before r (List.mem_cons_of_mem _ mem), waits,
            (run_flag _ _).1 heard⟩

/-- The answer has come in before the command is printed, and is not seen. -/
example (s : Serial) : selectZigbee [(false, []), (true, [])] (s.run [.write .uart4 15, .irq [0xFC], .write .uart1 40]) =
    some (false, []) :=
  rfl

end Ecu.Zigbee
