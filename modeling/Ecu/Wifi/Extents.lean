import Ecu.Wifi.Frames

/-!
# What a delivery writes (`usart5.c`)

An event for a socket clears the buffer of the consumer and copies the packet behind its header there. The length of the
packet was computed from its characters and is not checked: a delivery keeps to its buffers exactly if the packet is not
one of socket B, whose buffer is smaller than what is cleared, and is as long as its header (`extents_iff`).
-/

namespace Ecu.Wifi

open Usart

/-! ## Extents -/

/-- `SOCKETA_LEN`, `SOCKETB_LEN` and `SOCKETC_LEN` -/
def socketLen : Channel → Nat
  | .a => 2048
  | .b => 1408
  | .c => 2048

/-- The size that a `memset` or `memcpy` is given, and the array it writes to. -/
structure Extent where
  size : Int
  room : Nat

def Extent.Inside (x : Extent) : Prop :=
  0 ≤ x.size ∧ x.size ≤ x.room

/-- A delivery clears `USART_REC_LEN` bytes and copies the packet, for socket A also the connection id; a socket message
has its six bytes. -/
def extents (packLen : Nat) : Packet → List Extent
  | .data ch _ _ | .overrun ch =>
    [⟨usartRecLen, socketLen ch⟩, ⟨packLen - 9, socketLen ch⟩] ++ if ch = .a then [⟨8, 9⟩] else []
  | .socket _ => [⟨6, 6⟩, ⟨6, 6⟩]

/-- The event that is raised, if any, has a length between its header and what has been received, and keeps to the
arrays. -/
def RaisedSafely (u : Usart) (e : Event) : Prop :=
  ∀ p, (u.step e).log = u.log ++ [p] →
    (∀ ch, p.channel? = some ch → 9 ≤ u.packLen ∧ u.packLen ≤ u.cur ∧ u.cur < usartRecLen) ∧
      ∀ x ∈ extents u.packLen p, x.Inside

/-- The end of a packet has been received; that of socket B is not looked at. -/
structure Ended (u : Usart) (ch : Channel) : Prop where
  state : u.state = .getEnd ch
  whole : ch ≠ .b → u.packLen ≤ u.cur
  tail : ch ≠ .b → ∀ k < 3, u.rx (u.packLen + k - 3) = (str "END").getD k nul

/-- A packet that is delivered is not one of socket B and has its header. -/
def LongEnough (u : Usart) (e : Event) : Prop :=
  e = .run → u.block = blockOf u.state → ∀ ch, Ended u ch → ch ≠ .b ∧ 9 ≤ u.packLen

/-! ## Steps -/

section Step

variable {u : Usart}

theorem log_ne (p : Packet) : u.log ≠ u.log ++ [p] := by
  intro same
  have lengths := congrArg List.length same
  rw [List.length_append, List.length_singleton] at lengths
  omega

theorem Ended.ready {ch : Channel} (ended : Ended u ch) : Ready u := by
  cases ch with
  | b => simp only [Ready, ended.state]
  | a => exact (ready_end (by decide) ended.state).2 (ended.whole (by decide))
  | c => exact (ready_end (by decide) ended.state).2 (ended.whole (by decide))

theorem Ended.good {ch : Channel} (ended : Ended u ch) : ¬ Bad u := by
  intro bad
  by_cases b : ch = .b
  · rw [b] at ended
    simp only [Bad, ended.state] at bad
  · obtain ⟨k, small, -, other⟩ := (bad_end b ended.state).1 bad
    exact other (ended.tail b k small)

theorem packet_channel (u : Usart) (ch : Channel) : (u.packet ch).channel? = some ch := by
  unfold packet
  split_ifs <;> rfl

theorem extents_packet (u : Usart) (ch : Channel) : extents u.packLen (u.packet ch) =
    [⟨usartRecLen, socketLen ch⟩, ⟨u.packLen - 9, socketLen ch⟩] ++ if ch = .a then [⟨8, 9⟩] else [] := by
  by_cases short : u.packLen < 9
  · rw [packet, if_pos short]
    rfl
  · rw [packet, if_neg short]
    rfl

/-- A delivery that is long enough keeps to its buffers. -/
theorem packet_inside {ch : Channel} (notB : ch ≠ .b) (header : 9 ≤ u.packLen) (whole : u.packLen ≤ usartRecLen) :
    ∀ x ∈ extents u.packLen (u.packet ch), x.Inside := by
  rw [extents_packet]
  unfold usartRecLen at *
  intro x mem
  cases ch with
  | b => contradiction
  | a =>
    simp only [socketLen, if_true, List.cons_append, List.nil_append, List.mem_cons, List.not_mem_nil, or_false] at mem
    rcases mem with rfl | rfl | rfl
    all_goals
      simp only [Extent.Inside]
      omega
  | c =>
    simp only [socketLen, reduceCtorEq, if_false, List.append_nil, List.mem_cons, List.not_mem_nil, or_false] at mem
    rcases mem with rfl | rfl
    all_goals
      simp only [Extent.Inside]
      omega

/-- The buffer of socket B is too small to be cleared. -/
theorem packet_outside (u : Usart) : ¬ ∀ x ∈ extents u.packLen (u.packet .b), x.Inside := by
  rw [extents_packet]
  intro inside
  have cleared := (inside _ List.mem_cons_self).2
  simp only [usartRecLen, socketLen] at cleared
  omega

theorem tick_log (u : Usart) : u.tick.log = u.log := by
  unfold tick
  split
  · rfl
  · split <;> rfl

theorem raisedSafely_of_log {e : Event} (same : (u.step e).log = u.log) : RaisedSafely u e := by
  intro p raised
  exact absurd (same.symm.trans raised) (log_ne p)

/-- The event of a delivery is safe for a packet of socket A or C with its header. -/
theorem raisedSafely_deliver {ch : Channel} {e : Event} (small : u.cur < usartRecLen)
    (made : (u.step e).log = u.log ++ [u.packet ch]) (whole : ch ≠ .b → u.packLen ≤ u.cur) :
    RaisedSafely u e ↔ ch ≠ .b ∧ 9 ≤ u.packLen := by
  constructor
  · intro safe
    obtain ⟨lengths, inside⟩ := safe _ made
    refine ⟨?_, (lengths ch (packet_channel u ch)).1⟩
    rintro rfl
    exact packet_outside u inside
  · rintro ⟨notB, header⟩ p raised
    obtain rfl : u.packet ch = p := List.singleton_inj.1 (List.append_cancel_left (made.symm.trans raised))
    exact ⟨fun _ _ => ⟨header, whole notB, small⟩,
      packet_inside notB header ((whole notB).trans (Nat.le_of_lt small))⟩

theorem raisedSafely_iff (placed : Placed u) (small : u.cur < usartRecLen) (e : Event) :
    RaisedSafely u e ↔ LongEnough u e := by
  cases e with
  | rx b => exact iff_of_true (raisedSafely_of_log rfl) fun other => by cases other
  | tick =>
    exact iff_of_true (raisedSafely_of_log (tick_log u)) fun other => by cases other
  | run =>
    have ran := run_cases placed
    have step : u.step .run = u.run := rfl
    generalize u.run = after at ran step
    -- a block that raises nothing finds no end of a packet
    have quiet (same : after.log = u.log) (none : u.block = blockOf u.state → ∀ ch, ¬ Ended u ch) :
        RaisedSafely u .run ↔ LongEnough u .run :=
      iff_of_true (raisedSafely_of_log (step ▸ same)) fun _ turn ch ended => absurd ended (none turn ch)
    cases ran with
    | call finished => exact quiet rfl fun turn => absurd (blockOf_lt u.state) (by omega)
    | skip running other => exact quiet rfl fun turn => absurd turn other
    | work u' turn worked =>
      have other {s : RecvSM} (state : u.state = s) (notEnd : ∀ ch, s ≠ .getEnd ch) (ch : Channel) : ¬ Ended u ch :=
        fun ended => notEnd ch (state.symm.trans ended.state)
      have ended {ch : Channel} (here : Ended u ch) :
          LongEnough u .run ↔ ch ≠ .b ∧ 9 ≤ u.packLen := by
        constructor
        · exact fun long => long rfl turn ch here
        · intro long _ _ ch' there
          obtain rfl := RecvSM.getEnd.inj (here.state.symm.trans there.state)
          exact long
      cases worked with
      | wait pos timer id waits kept => exact quiet rfl fun _ ch ended => waits ended.ready
      | restart type timer id bad => exact quiet rfl fun _ ch ended => ended.good bad
      | channel ch state there head => exact quiet rfl fun _ => other state (by simp)
      | socket state there head => exact quiet rfl fun _ => other state (by simp)
      | socketData state there =>
        refine iff_of_true ?_ fun _ _ ch ended => absurd ended (other state (by simp) ch)
        intro p raised
        rw [step] at raised
        obtain rfl : Packet.socket ((List.range 6).map u.rx) = p :=
          List.singleton_inj.1 (List.append_cancel_left raised)
        constructor
        · intro ch same
          simp [Packet.channel?] at same
        · intro x mem
          simp only [extents, List.mem_cons, List.not_mem_nil, or_false, or_self] at mem
          rw [mem]
          simp [Extent.Inside]
      | id ch id state type there stored => exact quiet rfl fun _ => other state (by simp)
      | head ch notB state there aps => exact quiet rfl fun _ => other state (by simp)
      | headB state there reply => exact quiet rfl fun _ => other state (by simp)
      | lenA state there => exact quiet rfl fun _ => other state (by simp)
      | lenC state there => exact quiet rfl fun _ => other state (by simp)
      | lenB state there single => exact quiet rfl fun _ => other state (by simp)
      | lenSecondB state there second => exact quiet rfl fun _ => other state (by simp)
      | data ch pos state there => exact quiet rfl fun _ => other state (by simp)
      | deliver ch notB state there long tail =>
        rw [ended ⟨state, fun _ => there, fun _ => tail⟩]
        exact raisedSafely_deliver small (by rw [step]; rfl) fun _ => there
      | deliverB state =>
        rw [ended ⟨state, fun b => absurd rfl b, fun b => absurd rfl b⟩]
        exact raisedSafely_deliver small (by rw [step]; rfl) fun b => absurd rfl b

theorem cur_step (placed : Placed u) (small : u.cur < usartRecLen) (e : Event) : (u.step e).cur < usartRecLen := by
  have zero : 0 < usartRecLen := by decide
  cases e with
  | rx b =>
    show (if u.cur + 1 ≥ usartRecLen then 0 else u.cur + 1) < usartRecLen
    split_ifs <;> omega
  | tick =>
    show u.tick.cur < usartRecLen
    unfold tick
    split
    · exact small
    · split
      · exact zero
      · exact small
  | run =>
    have ran := run_cases placed
    show u.run.cur < usartRecLen
    generalize u.run = after at ran
    cases ran with
    | call finished => exact small
    | skip running other => exact small
    | work u' turn worked =>
      cases worked with
      | restart type timer id bad => exact zero
      | socketData state there => exact zero
      | deliver ch notB state there long tail => exact zero
      | deliverB state => exact zero
      | _ => exact small

/-- An event hands over nothing, or one packet; one of socket A has been received with its header. -/
theorem log_step (placed : Placed u) (e : Event) : (u.step e).log = u.log ∨
    ∃ p, (u.step e).log = u.log ++ [p] ∧
      ∀ id bytes, p = .data .a id bytes → bytes.length + 9 ≤ max u.cur 9 := by
  cases e with
  | rx b => exact .inl rfl
  | tick => exact .inl (tick_log u)
  | run =>
    have ran := run_cases placed
    show u.run.log = u.log ∨ ∃ p, u.run.log = u.log ++ [p] ∧ _
    generalize u.run = after at ran
    cases ran with
    | call finished => exact .inl rfl
    | skip running other => exact .inl rfl
    | work u' turn worked =>
      cases worked with
      | wait pos timer id waits kept => exact .inl rfl
      | socketData state there => exact .inr ⟨_, rfl, fun _ _ same => by cases same⟩
      | deliver ch notB state there long tail =>
        refine .inr ⟨_, rfl, fun id bytes same => ?_⟩
        rw [packet] at same
        split_ifs at same
        · obtain ⟨rfl, -, rfl⟩ := Packet.data.inj same
          rw [payload, List.length_map, List.length_range]
          omega
        · obtain ⟨rfl, -, rfl⟩ := Packet.data.inj same
          rw [payload, List.length_map, List.length_range]
          omega
      | deliverB state =>
        refine .inr ⟨_, rfl, fun id bytes same => ?_⟩
        have channel := packet_channel u .b
        rw [same] at channel
        cases channel
      | _ => exact .inl rfl

end Step

/-- A packet of socket A is shorter than the buffer it is copied to. -/
theorem delivered_short {events : List Event} {id bytes : List Byte}
    (mem : .data .a id bytes ∈ (init.steps events).log) : bytes.length + 9 ≤ usartRecLen := by
  have each {u : Usart} (placed : Placed u) (small : u.cur < usartRecLen)
      (log : ∀ id bytes, .data .a id bytes ∈ u.log → bytes.length + 9 ≤ usartRecLen) :
      ∀ id bytes, .data .a id bytes ∈ (u.steps events).log → bytes.length + 9 ≤ usartRecLen := by
    clear mem
    induction events generalizing u with
    | nil => exact log
    | cons e events ih =>
      refine ih (placed.step e) (cur_step placed small e) fun id bytes mem => ?_
      rcases log_step placed e with same | ⟨p, added, short⟩
      · exact log id bytes (same ▸ mem)
      · rw [added] at mem
        rcases List.mem_append.1 mem with before | new
        · exact log id bytes before
        · have length := short id bytes (List.mem_singleton.1 new).symm
          have large : 9 ≤ usartRecLen := by decide
          omega
  exact each placed_init (by decide) (fun _ _ none => by cases none) id bytes mem

/-- In every run every event is raised safely exactly if no packet of socket B is delivered and none that is shorter
than its header. -/
theorem extents_iff (events : List Event) : Along RaisedSafely init events ↔ Along LongEnough init events := by
  have each {u : Usart} (placed : Placed u) (small : u.cur < usartRecLen) :
      Along RaisedSafely u events ↔ Along LongEnough u events := by
    induction events generalizing u with
    | nil => exact Iff.rfl
    | cons e events ih =>
      exact and_congr (raisedSafely_iff placed small e) (ih (placed.step e) (cur_step placed small e))
  exact each placed_init (by decide)

/-- The length `000/` is -1, so that the packet ends inside of its id. -/
theorem negative_size : ¬ ∀ events, Along RaisedSafely init events := by
  intro claim
  have along := claim (arrive (str "a1234END8APS11000/x") ++ List.replicate 7 .run ++ [.run])
  obtain ⟨safe, -⟩ := (along_append.1 along).2
  obtain ⟨header, -⟩ := (safe (.overrun .a) (by decide +kernel)).1 .a rfl
  revert header
  decide +kernel

end Ecu.Wifi
