import Ecu.Wifi.Usart5

/-!
# What a block can do

`Work` lists the effects of a block that works, each with its reason: it waits, drops what has been
received, moves on to the next state, or hands over a packet. `work_cases` proves the list complete when the
loop of the block starts in front of its first stop (`Before`).
-/

namespace Ecu.Wifi

open Scan

namespace Usart

/-! ## Loops from stop to stop -/

theorem whilePos_eq {limit : Nat} {stops : List (Stop Usart)} (u : Usart)
    (sorted : stops.Pairwise (·.place < ·.place)) (still : ∀ stop ∈ stops, stop.Still) :
    whilePos limit stops u = scan limit stops u :=
  loop_eq_scan sorted still (Nat.le_add_right _ _)

theorem expect_still (place : Int) (k : Nat) (c : Byte) : (Stop.mk place (expect k c)).Still := by
  intro u u' goes
  simp only [expect] at goes
  split at goes
  · cases goes
  · cases goes
    rfl

theorem leave_still {place : Int} {act : Usart → Outcome Usart} (leaves : ∀ u, ∃ u', act u = .leave u') :
    (Stop.mk place act).Still := by
  intro u u' goes
  obtain ⟨left, acted⟩ := leaves u
  rw [show act u = Outcome.go u' from goes] at acted
  cases acted

theorem store_still (place : Int) (k : Nat) : (Stop.mk place fun u : Usart => .go (u.storeId k)).Still := by
  intro u u' goes
  cases goes
  rfl

section Expect

variable {limit pos : Nat} {stops : List (Stop Usart)} {u : Usart} {place : Int} {k : Nat} {c : Byte}

theorem scan_expect_bad (bad : u.rx k ≠ c) (before : (pos : Int) ≤ place) (reached : place < limit) :
    scan limit (⟨place, expect k c⟩ :: stops) { u with pos := pos } = u.restart := by
  have leaves : expect k c { u with pos := place.toNat } = .leave u.restart := if_pos bad
  exact scan_leave leaves before reached

theorem scan_expect (good : u.rx k = c) (before : (pos : Int) ≤ place) (reached : place < limit) :
    scan limit (⟨place, expect k c⟩ :: stops) { u with pos := pos } =
      scan limit stops { u with pos := place.toNat + 1 } := by
  have goes : expect k c { u with pos := place.toNat } = .go { u with pos := place.toNat } := if_neg (not_not.2 good)
  exact @scan_go Usart _ limit stops place (expect k c) { u with pos := pos } _ goes before reached

end Expect

/-! ## Where the loops start -/

/-- The head of the packets of a socket. -/
def header : Channel → Byte
  | .a => 0x61
  | .b => 0x62
  | .c => 0x63

/-- The position where the length of a packet is complete. -/
def lenEnd : Channel → Nat
  | .c => 19
  | _ => 18

/-- The loop of the state is in front of its first stop. The loops for the data and the end start at 0; the
end of a packet has room for `END`. -/
def Before (u : Usart) : Prop :=
  match u.state with
  | .getSocketHead => u.pos ≤ 1
  | .getSocketData => u.pos ≤ 5
  | .getSocketId => u.pos ≤ 2
  | .getHead _ => u.pos ≤ 10
  | .getLen .b => u.pos ≤ 10
  | .getLen ch => u.pos ≤ lenEnd ch
  | .getData _ => True
  | .getEnd .b => True
  | .getEnd _ => 3 ≤ u.packLen

/-- The bytes that the state waits for are there. -/
def Ready (u : Usart) : Prop :=
  match u.state with
  | .getSocketHead => 1 < u.cur
  | .getSocketData => 5 < u.cur
  | .getSocketId => 9 < u.cur
  | .getHead .b => 10 < u.cur
  | .getHead _ => 14 < u.cur
  | .getLen .b => 10 < u.cur ∧ (u.rx 10 = 0x62 → 19 < u.cur)
  | .getLen ch => lenEnd ch < u.cur
  | .getData .a => 3 ≤ u.packLen ∧ u.packLen - 3 < u.cur
  | .getData .b => u.packLen ≤ u.cur
  | .getData .c => 3 ≤ u.packLen ∧ u.packLen - 3 ≤ u.cur
  | .getEnd .b => True
  | .getEnd _ => u.packLen ≤ u.cur

/-- A byte is there that does not belong to a packet. -/
def Bad (u : Usart) : Prop :=
  match u.state with
  | .getSocketHead => 1 < u.cur ∧ ((∀ ch, u.rx 0 ≠ header ch) ∧ (u.rx 0 = 0x65 → 2 ≤ u.cur ∧ u.rx 1 = 0x64))
  | .getSocketId => ∀ ch, u.type ≠ .channel ch
  | .getHead .b => 10 < u.cur ∧ u.rx 9 ≠ 0x31
  | .getHead _ => ∃ k, k < 3 ∧ k + 10 < u.cur ∧ u.rx (k + 9) ≠ (str "APS").getD k nul
  | .getEnd .b => False
  | .getEnd _ => ∃ k, k < 3 ∧ u.packLen + k < u.cur + 3 ∧ u.rx (u.packLen + k - 3) ≠ (str "END").getD k nul
  | _ => False

/-! ## Effects -/

/-- The effect of a block on a receiver in its state. -/
inductive Work (u : Usart) : Usart → Prop
  | wait (pos : Nat) (timer : Option Nat) (id : Nat → Byte) (waits : ¬ Ready u)
      (kept : u.state ≠ .getSocketId → id = u.id) : Work u { u with pos := pos, timer := timer, id := id }
  | restart (type : RecvType) (timer : Option Nat) (id : Nat → Byte) (bad : Bad u) :
      Work u { u.restart with type := type, timer := timer, id := id }
  | channel (ch : Channel) (state : u.state = .getSocketHead) (there : 1 < u.cur) (head : u.rx 0 = header ch) :
      Work u { u with state := .getSocketId, type := .channel ch, pos := 1, timer := none }
  | socket (state : u.state = .getSocketHead) (there : 1 < u.cur) (head : u.rx 0 = 0x65) :
      Work u { u with state := .getSocketData, type := .socket, pos := 1, timer := none }
  | socketData (state : u.state = .getSocketData) (there : 5 < u.cur) :
      Work u (u.deliver (.socket ((List.range 6).map u.rx)))
  | id (ch : Channel) (id : Nat → Byte) (state : u.state = .getSocketId) (type : u.type = .channel ch)
      (there : 9 < u.cur) (stored : ∀ i < 8, id i = u.rx (i + 1)) :
      Work u { u with state := .getHead ch, pos := 9, id := id }
  | head (ch : Channel) (notB : ch ≠ .b) (state : u.state = .getHead ch) (there : 14 < u.cur)
      (aps : ∀ k < 3, u.rx (k + 9) = (str "APS").getD k nul) : Work u { u with state := .getLen ch, pos := 14 }
  | headB (state : u.state = .getHead .b) (there : 10 < u.cur) (reply : u.rx 9 = 0x31) :
      Work u { u with state := .getLen .b, pos := 10 }
  | lenA (state : u.state = .getLen .a) (there : 18 < u.cur) :
      Work u { u with
        state := .getData .a, pos := 18, timer := some 0
        packLen := ushort (packetlenA (u.at' 14) + 9) }
  | lenC (state : u.state = .getLen .c) (there : 19 < u.cur) :
      Work u { u with
        state := .getData .c, pos := 19, timer := some 0
        packLen := ushort (packetlenC (u.at' 14) + 9)
        rx := fun i => if 14 ≤ i then unpad (u.at' 14) (i - 14) else u.rx i }
  | lenB (state : u.state = .getLen .b) (there : 10 < u.cur) (single : u.rx 10 ≠ 0x62) :
      Work u { u with
        state := .getData .b, pos := 10, timer := some 0
        packLen := packetlenB (u.at' 10) }
  | lenSecondB (state : u.state = .getLen .b) (there : 19 < u.cur) (second : u.rx 10 = 0x62) :
      Work u { u with
        state := .getData .b, pos := 19, timer := some 0
        packLen := ushort (packetlenB (u.at' 19) + 9) }
  | data (ch : Channel) (pos : Nat) (state : u.state = .getData ch) (there : Ready u) :
      Work u { u with state := .getEnd ch, pos := pos, timer := some 0 }
  | deliver (ch : Channel) (notB : ch ≠ .b) (state : u.state = .getEnd ch) (there : u.packLen ≤ u.cur)
      (long : 3 ≤ u.packLen) (tail : ∀ k < 3, u.rx (u.packLen + k - 3) = (str "END").getD k nul) :
      Work u (u.deliver (u.packet ch))
  | deliverB (state : u.state = .getEnd .b) : Work u (u.deliver (u.packet .b))

/-! ## The blocks -/

section Blocks

variable {u : Usart}

/-- What is left of a loop when none of its stops comes any more. -/
theorem work_wait {limit : Nat} {v : Usart} (waits : ¬ Ready u)
    (same : { v with pos := u.pos, timer := u.timer, id := u.id } = u)
    (kept : u.state ≠ .getSocketId → v.id = u.id) : Work u { v with pos := max v.pos limit } := by
  have effect := Work.wait (u := u) (max v.pos limit) v.timer v.id waits kept
  rw [← same] at effect ⊢
  exact effect

theorem work_leave {limit : Nat} {place : Int} {act : Usart → Outcome Usart} {stops : List (Stop Usart)}
    {v left : Usart}
    (reached : (v.pos : Int) ≤ place ∧ place < limit) (acts : act { v with pos := place.toNat } = .leave left)
    (does : Work u left) : Work u (scan limit (⟨place, act⟩ :: stops) v) := by
  rw [scan_leave acts reached.1 reached.2]
  exact does

/-- A loop with one stop, where it is left. -/
theorem work_single {limit : Nat} {place : Int} {act : Usart → Outcome Usart} {v : Usart}
    (unfolded : u.work = whilePos limit [⟨place, act⟩] v) (leaves : ∀ u, ∃ u', act u = .leave u')
    (effect : (v.pos : Int) ≤ place → place < limit → ∃ left, act { v with pos := place.toNat } = .leave left ∧
      Work u left)
    (waits : Ready u → (v.pos : Int) ≤ place ∧ place < limit)
    (same : { v with pos := u.pos, timer := u.timer, id := u.id } = u) (kept : v.id = u.id) : Work u u.work := by
  have still : ∀ stop ∈ [Stop.mk place act], stop.Still := by
    intro stop mem
    rw [List.mem_singleton.1 mem]
    exact leave_still leaves
  rw [unfolded, whilePos_eq v (List.pairwise_singleton _ _) still]
  by_cases reached : (v.pos : Int) ≤ place ∧ place < limit
  · obtain ⟨left, acted, does⟩ := effect reached.1 reached.2
    exact work_leave reached acted does
  · rw [scan_miss reached]
    exact work_wait (fun ready => reached (waits ready)) same fun _ => kept

/-! ### The head -/

theorem onSocketHead_work (state : u.state = .getSocketHead) (there : 1 < u.cur) :
    ∃ left, onSocketHead { u with pos := 1 } = .leave left ∧ Work u left := by
  by_cases foreign : u.rx 0 ≠ 0x61 ∧ u.rx 0 ≠ 0x62 ∧ u.rx 0 ≠ 0x63 ∧ u.rx 0 ≠ 0x65
  · have bad : Bad u := by
      have other : ∀ ch, u.rx 0 ≠ header ch := by
        intro ch
        cases ch
        exacts [foreign.1, foreign.2.1, foreign.2.2.1]
      simp only [Bad, state]
      exact ⟨there, other, fun e => absurd e foreign.2.2.2⟩
    exact ⟨_, if_pos foreign, Work.restart .unknown none u.id bad⟩
  by_cases a : u.rx 0 = 0x61
  · exact ⟨_, (if_neg foreign).trans (if_pos a), Work.channel .a state there a⟩
  by_cases b : u.rx 0 = 0x62
  · exact ⟨_, (if_neg foreign).trans ((if_neg a).trans (if_pos b)), Work.channel .b state there b⟩
  by_cases c : u.rx 0 = 0x63
  · exact ⟨_, (if_neg foreign).trans ((if_neg a).trans ((if_neg b).trans (if_pos c))), Work.channel .c state there c⟩
  have e : u.rx 0 = 0x65 := by
    by_contra other
    exact foreign ⟨a, b, c, other⟩
  by_cases closed : u.cur ≥ 2 ∧ u.rx 1 = 0x64
  · have bad : Bad u := by
      have other : ∀ ch, u.rx 0 ≠ header ch := by
        intro ch
        cases ch
        exacts [a, b, c]
      simp only [Bad, state]
      exact ⟨there, other, fun _ => closed⟩
    exact ⟨_, (if_neg foreign).trans ((if_neg a).trans ((if_neg b).trans ((if_neg c).trans (if_pos closed)))),
      Work.restart .unknown none u.id bad⟩
  · exact ⟨_, (if_neg foreign).trans ((if_neg a).trans ((if_neg b).trans ((if_neg c).trans (if_neg closed)))),
      Work.socket state there e⟩

theorem onSocketHead_leaves (u : Usart) : ∃ u', onSocketHead u = .leave u' := by
  simp only [onSocketHead]
  split_ifs
  all_goals exact ⟨_, rfl⟩

theorem work_socketHead (state : u.state = .getSocketHead) (before : u.pos ≤ 1) : Work u u.work := by
  have unfolded : u.work = whilePos u.cur [⟨1, onSocketHead⟩] u := by
    rw [work, state]
    rfl
  refine work_single unfolded onSocketHead_leaves ?_ ?_ rfl rfl
  · intro _ there
    exact onSocketHead_work state (by omega)
  · simp only [Ready, state]
    omega

theorem work_socketData (state : u.state = .getSocketData) (before : u.pos ≤ 5) : Work u u.work := by
  have unfolded : u.work = whilePos u.cur [⟨5, onSocketData⟩] u.timerInit := by
    rw [work, state]
    rfl
  refine work_single unfolded (fun u => ⟨_, rfl⟩) ?_ ?_ rfl rfl
  · intro _ there
    exact ⟨_, rfl, Work.socketData state (by omega)⟩
  · simp only [Ready, state, timerInit]
    omega

theorem work_lenA (state : u.state = .getLen .a) (before : u.pos ≤ 18) : Work u u.work := by
  have unfolded : u.work = whilePos u.cur lenStopsA u := by rw [work, state]
  refine work_single unfolded (fun u => ⟨_, rfl⟩) ?_ ?_ rfl rfl
  · intro _ there
    exact ⟨_, rfl, Work.lenA state (by omega)⟩
  · simp only [Ready, state, lenEnd]
    omega

theorem work_lenC (state : u.state = .getLen .c) (before : u.pos ≤ 19) : Work u u.work := by
  have unfolded : u.work = whilePos u.cur lenStopsC u := by rw [work, state]
  refine work_single unfolded (fun u => ⟨_, rfl⟩) ?_ ?_ rfl rfl
  · intro _ there
    exact ⟨_, rfl, Work.lenC state (by omega)⟩
  · simp only [Ready, state, lenEnd]
    omega

theorem work_headB (state : u.state = .getHead .b) (before : u.pos ≤ 10) : Work u u.work := by
  have unfolded : u.work = whilePos u.cur headStopsB u := by rw [work, state]
  refine work_single unfolded ?_ ?_ ?_ rfl rfl
  · intro u
    split_ifs
    · exact ⟨_, rfl⟩
    · exact ⟨_, rfl⟩
  · intro _ there
    by_cases reply : u.rx 9 = 0x31
    · exact ⟨_, if_neg (not_not.2 reply), Work.headB state (by omega) reply⟩
    · have bad : Bad u := by
        simp only [Bad, state]
        exact ⟨by omega, reply⟩
      exact ⟨_, if_pos reply, Work.restart u.type u.timer u.id bad⟩
  · simp only [Ready, state]
    omega

theorem work_data (ch : Channel) (state : u.state = .getData ch) : Work u u.work := by
  have ended (pos : Nat) (there : Ready u) :
      ∃ left, onEnd ch { u.timerDeinit with pos := pos } = .leave left ∧ Work u left :=
    ⟨_, rfl, Work.data ch pos state there⟩
  cases ch with
  | a =>
    have unfolded : u.work = whilePos u.cur (dataStops .a u.packLen)
      { u.timerDeinit with pos := 0 } := by rw [work, state]
    refine work_single unfolded (fun u => ⟨_, rfl⟩) ?_ ?_ rfl rfl
    · intro _ there
      refine ended _ ?_
      simp only [Ready, state]
      omega
    · simp only [Ready, state]
      omega
  | b =>
    have unfolded : u.work = whilePos (u.cur + 1) (dataStopsB u.packLen) { u.timerDeinit with pos := 0 } := by
      rw [work, state]
    refine work_single unfolded (fun u => ⟨_, rfl⟩) ?_ ?_ rfl rfl
    · intro _ there
      refine ended _ ?_
      simp only [Ready, state]
      omega
    · simp only [Ready, state]
      omega
  | c =>
    have unfolded : u.work = whilePos (u.cur + 1) (dataStops .c u.packLen) { u.timerDeinit with pos := 0 } := by
      rw [work, state]
    refine work_single unfolded (fun u => ⟨_, rfl⟩) ?_ ?_ rfl rfl
    · intro _ there
      refine ended _ ?_
      simp only [Ready, state]
      omega
    · simp only [Ready, state]
      omega

/-! ### `APS` and `END` -/

theorem ready_head {ch : Channel} (notB : ch ≠ .b) (state : u.state = .getHead ch) : Ready u ↔ 14 < u.cur := by
  cases ch with
  | b => contradiction
  | a => simp only [Ready, state]
  | c => simp only [Ready, state]

theorem bad_head {ch : Channel} (notB : ch ≠ .b) (state : u.state = .getHead ch) :
    Bad u ↔ ∃ k, k < 3 ∧ k + 10 < u.cur ∧ u.rx (k + 9) ≠ (str "APS").getD k nul := by
  cases ch with
  | b => contradiction
  | a => simp only [Bad, state]
  | c => simp only [Bad, state]

theorem ready_end {ch : Channel} (notB : ch ≠ .b) (state : u.state = .getEnd ch) : Ready u ↔ u.packLen ≤ u.cur := by
  cases ch with
  | b => contradiction
  | a => simp only [Ready, state]
  | c => simp only [Ready, state]

theorem bad_end {ch : Channel} (notB : ch ≠ .b) (state : u.state = .getEnd ch) :
    Bad u ↔ ∃ k, k < 3 ∧ u.packLen + k < u.cur + 3 ∧ u.rx (u.packLen + k - 3) ≠ (str "END").getD k nul := by
  cases ch with
  | b => contradiction
  | a => simp only [Bad, state]
  | c => simp only [Bad, state]

/-- A loop that ends at a byte it does not expect, or waits for it, or has it. -/
theorem work_expect {limit : Nat} {place : Int} {k : Nat} {c : Byte} {stops : List (Stop Usart)} {pos : Nat}
    (before : (pos : Int) ≤ place) (far : limit ≤ place → ∀ stop ∈ stops, (limit : Int) ≤ stop.place)
    (waits : limit ≤ place → ¬ Ready u) (bad : place < limit → u.rx k ≠ c → Bad u)
    (good : place < limit → u.rx k = c → Work u (scan limit stops { u with pos := place.toNat + 1 })) :
    Work u (scan limit (⟨place, expect k c⟩ :: stops) { u with pos := pos }) := by
  by_cases reached : place < limit
  · by_cases same : u.rx k = c
    · rw [scan_expect same before reached]
      exact good reached same
    · rw [scan_expect_bad same before reached]
      exact Work.restart u.type u.timer u.id (bad reached same)
  · have beyond : (limit : Int) ≤ place := by omega
    rw [scan_miss fun here => reached here.2, scan_stuck (far beyond)]
    exact work_wait (waits beyond) rfl fun _ => rfl

theorem work_head_scan {ch : Channel} (notB : ch ≠ .b) (state : u.state = .getHead ch) :
    u.work = scan u.cur (headStops ch) u := by
  have still : ∀ stop ∈ headStops ch, stop.Still := by
    intro stop mem
    simp only [headStops, List.mem_cons, List.not_mem_nil, or_false] at mem
    rcases mem with rfl | rfl | rfl | rfl
    · exact expect_still _ _ _
    · exact expect_still _ _ _
    · exact expect_still _ _ _
    · exact leave_still fun u => ⟨_, rfl⟩
  have sorted : (headStops ch).Pairwise (·.place < ·.place) := by
    simp [headStops]
  rw [← whilePos_eq u sorted still, work, state]
  cases ch with
  | b => contradiction
  | a => rfl
  | c => rfl

theorem work_head (ch : Channel) (notB : ch ≠ .b) (state : u.state = .getHead ch) (before : u.pos ≤ 10) :
    Work u u.work := by
  have waits {place : Int} (short : place ≤ 14) (beyond : u.cur ≤ place) : ¬ Ready u := by
    rw [ready_head notB state]
    omega
  have bad (k : Nat) (small : k < 3) (reached : k + 10 < u.cur)
    (other : u.rx (k + 9) ≠ (str "APS").getD k nul) : Bad u :=
    (bad_head notB state).2 ⟨k, small, reached, other⟩
  rw [work_head_scan notB state, headStops]
  refine work_expect (by omega) (by simp; omega) (waits (by omega)) (fun there => bad 0 (by omega) (by omega))
    fun _ a => ?_
  refine work_expect (by simp) (by simp; omega) (waits (by omega)) (fun there => bad 1 (by omega) (by omega))
    fun _ p => ?_
  refine work_expect (by simp) (by simp; omega) (waits (by omega)) (fun there => bad 2 (by omega) (by omega))
    fun _ s => ?_
  by_cases there : 14 < u.cur
  · have left : onLen ch { u with pos := 14 } = .leave { u with state := .getLen ch, pos := 14 } := rfl
    refine work_leave ⟨by dsimp only; decide, by exact_mod_cast there⟩ left (Work.head ch notB state there ?_)
    intro k small
    match k, small with
    | 0, _ => exact a
    | 1, _ => exact p
    | 2, _ => exact s
  · rw [scan_stuck (by simp; omega)]
    exact work_wait ((ready_head notB state).not.2 there) rfl fun _ => rfl

theorem work_end (ch : Channel) (notB : ch ≠ .b) (state : u.state = .getEnd ch) (long : 3 ≤ u.packLen) :
    Work u u.work := by
  have still : ∀ stop ∈ endStops ch u.packLen, stop.Still := by
    intro stop mem
    simp only [endStops, List.mem_cons, List.not_mem_nil, or_false] at mem
    rcases mem with rfl | rfl | rfl
    · exact expect_still _ _ _
    · exact expect_still _ _ _
    · refine leave_still fun u => ?_
      by_cases d : u.rx (u.packLen - 1) ≠ 0x44
      · exact ⟨_, if_pos d⟩
      · exact ⟨_, if_neg d⟩
  have sorted : (endStops ch u.packLen).Pairwise (·.place < ·.place) := by
    simp only [endStops, List.pairwise_cons, List.mem_cons, List.not_mem_nil, or_false, forall_eq_or_imp, forall_eq,
      false_imp_iff, implies_true, List.Pairwise.nil, and_true]
    omega
  have unfolded : u.work = scan (u.cur + 1) (endStops ch u.packLen) { u with pos := 0 } := by
    rw [← whilePos_eq _ sorted still, work, state]
    cases ch with
    | b => contradiction
    | a => rfl
    | c => rfl
  have waits {place : Int} (short : place ≤ u.packLen) (beyond : (u.cur + 1 : Nat) ≤ place) : ¬ Ready u := by
    rw [ready_end notB state]
    omega
  have bad (k : Nat) (small : k < 3) (reached : u.packLen + k < u.cur + 3)
      (other : u.rx (u.packLen + k - 3) ≠ (str "END").getD k nul) : Bad u :=
    (bad_end notB state).2 ⟨k, small, reached, other⟩
  rw [unfolded, endStops]
  refine work_expect (by omega) (by simp; omega) (waits (by omega)) (fun there => bad 0 (by omega) (by omega))
    fun _ e => ?_
  refine work_expect (by omega) (by simp; omega) (waits (by omega))
    (fun there other => bad 1 (by omega) (by omega) ?_) fun _ n => ?_
  · rwa [show u.packLen + 1 - 3 = u.packLen - 2 by omega]
  by_cases there : u.packLen ≤ u.cur
  · by_cases d : u.rx (u.packLen - 1) = 0x44
    · have left : onDelivery ch { u with pos := u.packLen } = .leave (u.deliver (u.packet ch)) := if_neg (not_not.2 d)
      refine work_leave ⟨by dsimp only; omega, by omega⟩ left (Work.deliver ch notB state there long ?_)
      intro k small
      match k, small with
      | 0, _ => exact e
      | 1, _ =>
        rw [show u.packLen + 1 - 3 = u.packLen - 2 by omega]
        exact n
      | 2, _ =>
        rw [show u.packLen + 2 - 3 = u.packLen - 1 by omega]
        exact d
    · have left : onDelivery ch { u with pos := u.packLen } = .leave u.restart := if_pos d
      refine work_leave ⟨by dsimp only; omega, by omega⟩
        left (Work.restart u.type u.timer u.id (bad 2 (by omega) (by omega) ?_))
      rwa [show u.packLen + 2 - 3 = u.packLen - 1 by omega]
  · rw [scan_stuck (by simp; omega)]
    exact work_wait ((ready_end notB state).not.2 there) rfl fun _ => rfl

/-! ### The connection id and the length of socket B -/

/-- The bytes of an id that the stops below `k` store. -/
def stored (u : Usart) (k : Nat) : Nat → Byte :=
  fun i => if i < k then u.rx (i + 1) else u.id i

theorem storeId_stored (k : Nat) (pos : Nat) :
    storeId k { u with id := u.stored k, pos := pos } = { u with id := u.stored (k + 1), pos := pos } := by
  have bytes : (fun i => if i = k then u.rx (k + 1) else u.stored k i) = u.stored (k + 1) := by
    funext i
    simp only [stored]
    grind
  rw [← bytes]
  rfl

/-- A loop that stores the next byte of the id or waits for it. -/
theorem work_store {limit : Nat} {k pos : Nat} {stops : List (Stop Usart)} (state : u.state = .getSocketId)
    (before : pos ≤ k + 2) (far : limit ≤ k + 2 → ∀ stop ∈ stops, (limit : Int) ≤ stop.place)
      (waits : limit ≤ k + 2 → ¬ Ready u)
    (next : Work u (scan limit stops { u with id := u.stored (k + 1), pos := k + 3 })) :
    Work u (scan limit (⟨(k + 2 : Nat), fun u => .go (u.storeId k)⟩ :: stops)
      { u with id := u.stored k, pos := pos }) := by
  by_cases reached : k + 2 < limit
  · have goes : Outcome.go (storeId k { u with id := u.stored k, pos := k + 2 }) =
        .go { u with id := u.stored (k + 1), pos := k + 2 } := by rw [storeId_stored]
    have whole := @scan_go Usart _ limit stops (k + 2 : Nat) (fun u => .go (u.storeId k))
      { u with id := u.stored k, pos := pos } _ goes (by exact_mod_cast before) (by exact_mod_cast reached)
    rw [whole]
    exact next
  · rw [scan_miss fun here => reached (by exact_mod_cast here.2), scan_stuck (far (by omega))]
    exact work_wait (waits (by omega)) rfl fun other => absurd state other

theorem work_socketId (state : u.state = .getSocketId) (before : u.pos ≤ 2) : Work u u.work := by
  have sorted : socketIdStops.Pairwise (·.place < ·.place) := by simp [socketIdStops]
  have still : ∀ stop ∈ socketIdStops, stop.Still := by
    intro stop mem
    simp only [socketIdStops, List.mem_cons, List.not_mem_nil, or_false] at mem
    rcases mem with rfl | rfl | rfl | rfl | rfl | rfl | rfl | rfl
    any_goals exact store_still _ _
    refine leave_still fun u => ?_
    simp only [onSocketId]
    split
    all_goals exact ⟨_, rfl⟩
  have start : { u with id := u.stored 0, pos := u.pos } = u := by
    rw [show u.stored 0 = u.id from rfl]
  have unfolded : u.work = scan u.cur socketIdStops { u with id := u.stored 0, pos := u.pos } := by
    rw [start, ← whilePos_eq u sorted still, work, state]
  have waits {k : Nat} (small : k ≤ 9) (beyond : u.cur ≤ k) : ¬ Ready u := by
    simp only [Ready, state]
    omega
  rw [unfolded, socketIdStops]
  refine work_store state before (by simp; omega) (waits (by omega)) ?_
  refine work_store state (by omega) (by simp; omega) (waits (by omega)) ?_
  refine work_store state (by omega) (by simp; omega) (waits (by omega)) ?_
  refine work_store state (by omega) (by simp; omega) (waits (by omega)) ?_
  refine work_store state (by omega) (by simp; omega) (waits (by omega)) ?_
  refine work_store state (by omega) (by simp; omega) (waits (by omega)) ?_
  refine work_store state (by omega) (by simp; omega) (waits (by omega)) ?_
  by_cases there : 9 < u.cur
  · obtain ⟨ch, type⟩ | foreign : (∃ ch, u.type = .channel ch) ∨ ∀ ch, u.type ≠ .channel ch := by
      cases u.type <;> simp
    · have acted : onSocketId { u with id := u.stored 7, pos := 9 } =
          .leave { u with state := .getHead ch, id := u.stored 8, pos := 9 } := by
        rw [onSocketId, storeId_stored]
        simp only [type]
      refine work_leave ⟨by dsimp only; decide, by exact_mod_cast there⟩ acted (Work.id ch _ state type there ?_)
      intro i small
      simp [stored, small]
    · have acted : onSocketId { u with id := u.stored 7, pos := 9 } = .leave { u.restart with id := u.stored 8 } := by
        rw [onSocketId, storeId_stored]
        dsimp only
        split
        · exact absurd (by assumption) (foreign _)
        · rfl
      refine work_leave ⟨by dsimp only; decide, by exact_mod_cast there⟩ acted (Work.restart u.type u.timer _ ?_)
      simpa only [Bad, state] using foreign
  · rw [scan_stuck (by simp; omega)]
    exact work_wait (waits (by omega) (Nat.le_of_not_lt there)) rfl fun other => absurd state other

theorem work_lenB (state : u.state = .getLen .b) (before : u.pos ≤ 10) : Work u u.work := by
  have sorted : lenStopsB.Pairwise (·.place < ·.place) := by simp [lenStopsB]
  have still : ∀ stop ∈ lenStopsB, stop.Still := by
    intro stop mem
    simp only [lenStopsB, List.mem_cons, List.not_mem_nil, or_false] at mem
    rcases mem with rfl | rfl
    · intro u u' goes
      dsimp only at goes
      split_ifs at goes
      · cases goes
      · cases goes
        rfl
    · exact leave_still fun u => ⟨_, rfl⟩
  have unfolded : u.work = scan u.cur lenStopsB { u with pos := u.pos } := by
    rw [← whilePos_eq u sorted still, work, state]
  have ready : Ready u ↔ 10 < u.cur ∧ (u.rx 10 = 0x62 → 19 < u.cur) := by simp only [Ready, state]
  rw [unfolded, lenStopsB]
  by_cases there : 10 < u.cur
  · by_cases second : u.rx 10 = 0x62
    · have goes : (if 0x62 ≠ u.rx 10 then onData .b (packetlenB (u.at' 10)) { u with pos := 10 } else .go
        { u with pos := 10 }) =
          .go { u with pos := 10 } := if_neg (not_not.2 second.symm)
      rw [scan_go goes (by exact_mod_cast before) (by exact_mod_cast there)]
      by_cases more : 19 < u.cur
      · have eleventh : ((11 : Nat) : Int) ≤ 19 := by decide
        exact work_leave ⟨eleventh, by exact_mod_cast more⟩ rfl (Work.lenSecondB state more second)
      · rw [scan_stuck (by simp; omega)]
        exact work_wait (fun r => more ((ready.1 r).2 second)) rfl fun _ => rfl
    · have acted : (if 0x62 ≠ u.rx 10 then onData .b (packetlenB (u.at' 10)) { u with pos := 10 } else .go
        { u with pos := 10 }) =
          onData .b (packetlenB (u.at' 10)) { u with pos := 10 } := if_pos (Ne.symm second)
      exact work_leave ⟨by exact_mod_cast before, by exact_mod_cast there⟩ acted (Work.lenB state there second)
  · rw [scan_stuck (by simp; omega)]
    exact work_wait (fun r => there (ready.1 r).1) rfl fun _ => rfl

end Blocks

theorem work_cases {u : Usart} (before : Before u) : Work u u.work := by
  cases state : u.state with
  | getSocketHead =>
    simp only [Before, state] at before
    exact work_socketHead state before
  | getSocketData =>
    simp only [Before, state] at before
    exact work_socketData state before
  | getSocketId =>
    simp only [Before, state] at before
    exact work_socketId state before
  | getHead ch =>
    simp only [Before, state] at before
    cases ch with
    | b => exact work_headB state before
    | a => exact work_head .a (by decide) state before
    | c => exact work_head .c (by decide) state before
  | getLen ch =>
    cases ch with
    | a =>
      simp only [Before, state] at before
      exact work_lenA state before
    | b =>
      simp only [Before, state] at before
      exact work_lenB state before
    | c =>
      simp only [Before, state] at before
      exact work_lenC state before
  | getData ch => exact work_data ch state
  | getEnd ch =>
    cases ch with
    | b =>
      have unfolded : u.work = u.deliver (u.packet .b) := by rw [work, state]
      rw [unfolded]
      exact Work.deliverB state
    | a =>
      simp only [Before, state] at before
      exact work_end .a (by decide) state before
    | c =>
      simp only [Before, state] at before
      exact work_end .c (by decide) state before

end Usart

end Ecu.Wifi
