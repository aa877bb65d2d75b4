import Ecu.Wifi.Frames

/-!
# The packets of socket B

A packet of socket B carries no tail, and the block that reads its length runs as soon as the first character of it
is there: it may take what an older packet left in the buffer for the second one. Where that does not happen,
what is handed over does not depend on the calls (`handed_over`).
-/

namespace Ecu.Wifi

open Usart

/-! ## The reference parser -/

/-- The place of the last character of the length. -/
def lengthLast (p : List Byte) : Nat :=
  if p.getD 10 nul = 0x62 then 20 else 11

/-- What a parser finds that sees all of a packet. -/
def referenceB (p : List Byte) : Option Packet :=
  if p[9]? = some 0x31 ∧ lengthLast p < p.length ∧ packLenOf .b p ≤ p.length then some (packetOf .b p) else none

/-! ## Schedules -/

/-- The length is read with its last character still to come. -/
def EarlyLength (u : Usart) : Prop :=
  u.block = 8 ∧ u.state = .getLen .b ∧ (u.cur = 11 ∧ u.rx 10 ≠ 0x62 ∨ u.cur = 20 ∧ u.rx 10 = 0x62)

/-- The packet is handed over or rejected with bytes of it still to come. -/
def CutShort (p : List Byte) (u : Usart) : Prop :=
  u.cur < p.length ∧
    (u.block = 7 ∧ u.state = .getHead .b ∧ 10 < u.cur ∧ u.rx 9 ≠ 0x31 ∨ u.block = 10 ∧ u.state = .getEnd .b)

def Careful (p : List Byte) (u : Usart) (e : Event) : Prop :=
  ¬ Resets u e ∧ (e = .run → ¬ EarlyLength u ∧ ¬ CutShort p u)

instance (u : Usart) : Decidable (EarlyLength u) :=
  inferInstanceAs (Decidable (_ ∧ _))

instance (p : List Byte) (u : Usart) : Decidable (CutShort p u) :=
  inferInstanceAs (Decidable (_ ∧ _))

instance (p : List Byte) (u : Usart) (e : Event) : Decidable (Careful p u e) :=
  inferInstanceAs (Decidable (_ ∧ _))

/-- The parser is through with a packet: it is idle, or two calls have seen all there is. -/
def Settled (p : List Byte) (u : Usart) (events : List Event) : Prop :=
  Idle (u.steps events) ∨ ∃ arrivals polls, events = arrivals ++ polls ∧ received arrivals = p ∧ received polls = [] ∧
    2 * callLength ≤ polls.count .run

/-- The events from the first byte of a packet on. -/
structure Handled (p : List Byte) (u : Usart) (events : List Event) : Prop where
  idle : Idle u
  head : p[0]? = some (header .b)
  short : p.length < usartRecLen
  arrives : received events = p
  careful : Along (Careful p) u events
  settled : Settled p u events

/-- A run over packets, each with its events. -/
def Handles : Usart → List (List Byte × List Event) → Prop
  | _, [] => True
  | u, (p, events) :: run => Handled p u events ∧ Handles (u.steps events) run

/-! ## A packet on its way -/

/-- The length of a packet whose characters are all there. -/
def KnownB (u : Usart) (v : List Byte) : Prop :=
  match u.state with
  | .getData .b => lengthLast v < v.length ∧ u.packLen = packLenOf .b v
  | .getEnd .b => lengthLast v < v.length ∧ u.packLen = packLenOf .b v ∧ u.packLen ≤ v.length
  | _ => True

theorem lengthLast_append {v : List Byte} (there : lengthLast v < v.length) (w : List Byte) :
    lengthLast (v ++ w) = lengthLast v := by
  have long : 10 < v.length := Nat.lt_trans (by unfold lengthLast; split_ifs <;> decide) there
  rw [lengthLast, List.getD_append _ _ _ _ long, lengthLast]

theorem packLenOf_appendB {v : List Byte} (there : lengthLast v < v.length) (w : List Byte) :
    packLenOf .b (v ++ w) = packLenOf .b v := by
  unfold lengthLast at there
  unfold packLenOf
  by_cases second : v.getD 10 nul = 0x62
  · rw [if_pos second] at there
    have digits : packetlenB (bytesAt (v ++ w) 19) = packetlenB (bytesAt v 19) :=
      packetlenB_congr fun i small => List.getD_append v w nul _ (by omega)
    dsimp only
    rw [List.getD_append _ _ _ _ (by omega), if_pos second, if_pos second, digits]
  · rw [if_neg second] at there
    have digits : packetlenB (bytesAt (v ++ w) 10) = packetlenB (bytesAt v 10) :=
      packetlenB_congr fun i small => List.getD_append v w nul _ (by omega)
    dsimp only
    rw [List.getD_append _ _ _ _ (by omega), if_neg second, if_neg second, digits]

section Packet

variable {p v : List Byte} {u u' : Usart} {log : List Packet}

theorem KnownB.receive (known : KnownB u v) (b : Byte) : KnownB (u.receive b) (v ++ [b]) := by
  unfold KnownB at known ⊢
  rw [show (u.receive b).state = u.state from rfl]
  cases state : u.state with
  | getData ch =>
    cases ch with
    | a => trivial
    | c => trivial
    | b =>
      rw [state] at known
      obtain ⟨there, packLen⟩ := known
      refine ⟨?_, ?_⟩
      · rw [lengthLast_append there, List.length_append]
        omega
      · rw [packLenOf_appendB there]
        exact packLen
  | getEnd ch =>
    cases ch with
    | a => trivial
    | c => trivial
    | b =>
      rw [state] at known
      obtain ⟨there, packLen, whole⟩ := known
      refine ⟨?_, ?_, ?_⟩
      · rw [lengthLast_append there, List.length_append]
        omega
      · rw [packLenOf_appendB there]
        exact packLen
      · rw [List.length_append]
        exact Nat.le_add_right_of_le whole
  | _ => trivial

/-- The state is one of socket B. -/
theorem channel_b (head : p[0]? = some (header .b)) (pre : v <+: p) {ch : Channel} (own : v[0]? = some (header ch)) :
    ch = .b :=
  header_inj (Option.some.inj ((prefix_getElem? pre own).symm.trans head))

/-- The receiver is on the way through a packet of socket B. -/
structure TracksB (u : Usart) (v : List Byte) : Prop where
  tracks : Tracks u v
  known : KnownB u v

theorem bad_b (head : p[0]? = some (header .b)) (pre : v <+: p) (tracks : Tracks u v) (bad : Bad u) :
    u.state = .getHead .b ∧ 10 < u.cur ∧ u.rx 9 ≠ 0x31 := by
  have known := tracks.known
  unfold Known at known
  unfold Bad at bad
  cases state : u.state with
  | getSocketHead =>
    rw [state] at bad
    have plain : shown u.state v = v := by rw [state]; rfl
    have first := prefix_getElem? pre (tracks.byte plain (Nat.lt_of_succ_lt bad.1))
    exact absurd (Option.some.inj (first.symm.trans head)) (bad.2.1 .b)
  | getSocketId =>
    rw [state] at bad known
    obtain ⟨ch, type, _⟩ := known
    exact absurd type (bad ch)
  | getHead ch =>
    rw [state] at bad known
    obtain rfl := channel_b head pre known.head
    exact ⟨rfl, bad⟩
  | getEnd ch =>
    rw [state] at bad known
    obtain rfl := channel_b head pre known.1.head
    exact bad.elim
  | _ =>
    rw [state] at bad
    exact bad.elim

/-- A block keeps what there is of the packet, or is through with all of it. -/
theorem TracksB.worked (head : p[0]? = some (header .b)) (pre : v <+: p) (here : TracksB u v)
    (turn : u.block = blockOf u.state)
    (late : ¬ EarlyLength u) (whole : ¬ CutShort p u) (worked : Work u u') :
    (TracksB u' v ∧ u'.log = u.log) ∨ (v = p ∧ Idle u' ∧ u'.log = u.log ++ (referenceB p).toList) := by
  have tracks := here.tracks
  have known := tracks.known
  unfold Known at known
  have after := tracks.worked worked
  have keeps (cur : u'.cur = u.cur) (log : u'.log = u.log) (knownB : KnownB u' v) : TracksB u' v ∧ u'.log = u.log :=
    ⟨⟨after.kept_of tracks.length cur log, knownB⟩, log⟩
  have all (through : ¬ u.cur < p.length) : v = p :=
    pre.eq_of_length_le (by rw [tracks.length]; exact Nat.le_of_not_lt through)
  cases worked with
  | wait pos timer id waits kept => exact Or.inl (keeps rfl rfl here.known)
  | restart type timer id bad =>
    obtain ⟨state, there, other⟩ := bad_b head pre tracks bad
    have block : u.block = 7 := by rw [turn, state]; rfl
    have ended := all fun before => whole ⟨before, Or.inl ⟨block, state, there, other⟩⟩
    have plain : shown u.state v = v := by rw [state]; rfl
    have byte := tracks.byte plain (show 9 < u.cur by omega)
    have rejected : referenceB p = none := by
      refine if_neg fun good => other ?_
      rw [← ended, byte] at good
      exact Option.some.inj good.1
    refine Or.inr ⟨ended, ⟨rfl, rfl⟩, ?_⟩
    rw [rejected]
    exact (List.append_nil _).symm
  | deliver ch notB state there long tail =>
    rw [state] at known
    exact absurd (channel_b head pre known.1.head) notB
  | deliverB state =>
    have block : u.block = 10 := by rw [turn, state]; rfl
    have ended := all fun before => whole ⟨before, Or.inr ⟨block, state⟩⟩
    have knownB := here.known
    unfold KnownB at knownB
    rw [state] at known knownB
    obtain ⟨headed, marked, _⟩ := known
    obtain ⟨there, packLen, fits⟩ := knownB
    have bytes : ∀ i < v.length, u.rx i = (unpadded .b v).getD i nul := by
      have held := tracks.bytes
      rwa [state] at held
    have long : 11 ≤ lengthLast v := by unfold lengthLast; split_ifs <;> decide
    have same := packet_eq headed packLen fits bytes (by omega)
    have accepted : referenceB p = some (packetOf .b p) := by
      rw [← ended]
      exact if_pos ⟨marked, there, packLen ▸ fits⟩
    refine Or.inr ⟨ended, ⟨rfl, rfl⟩, ?_⟩
    rw [accepted, ← ended, ← same]
    rfl
  | lenB state there single =>
    have plain : shown u.state v = v := by rw [state]; rfl
    have block : u.block = 8 := by rw [turn, state]; rfl
    have more : 11 < u.cur := by
      refine Nat.lt_of_le_of_ne there fun same => late ⟨block, state, Or.inl ⟨same.symm, single⟩⟩
    have byte := tracks.at' plain (k := 10) (n := 2) (by omega)
    have first : v.getD 10 nul ≠ 0x62 := by
      have tenth : u.rx 10 = v.getD 10 nul := byte 0 (by omega)
      rwa [← tenth]
    refine Or.inl (keeps rfl rfl ⟨?_, ?_⟩)
    · rw [lengthLast, if_neg first, tracks.length]
      exact more
    · dsimp only [packLenOf]
      rw [if_neg first, packetlenB_congr byte]
  | lenSecondB state there second =>
    have plain : shown u.state v = v := by rw [state]; rfl
    have block : u.block = 8 := by rw [turn, state]; rfl
    have more : 20 < u.cur := by
      refine Nat.lt_of_le_of_ne there fun same => late ⟨block, state, Or.inr ⟨same.symm, second⟩⟩
    have byte := tracks.at' plain (k := 19) (n := 2) (by omega)
    have first : v.getD 10 nul = 0x62 := by
      have tenth : u.rx 10 = v.getD 10 nul := tracks.at' plain (k := 10) (n := 1) (by omega) 0 (by omega)
      rwa [← tenth]
    refine Or.inl (keeps rfl rfl ⟨?_, ?_⟩)
    · rw [lengthLast, if_pos first, tracks.length]
      exact more
    · dsimp only [packLenOf]
      rw [if_pos first, packetlenB_congr byte]
  | data ch pos state there =>
    rw [state] at known
    obtain rfl := channel_b head pre known.1.head
    have knownB := here.known
    unfold KnownB at knownB
    unfold Ready at there
    rw [state] at knownB there
    exact Or.inl (keeps rfl rfl ⟨knownB.1, knownB.2, tracks.length ▸ there⟩)
  | socketData state there =>
    rw [state] at known
    have first := (prefix_getElem? pre known).symm.trans head
    exact absurd first (by decide)
  | _ => exact Or.inl (keeps rfl rfl trivial)

/-- With the whole packet received, no state has to wait. -/
theorem TracksB.ready (head : p[0]? = some (header .b)) (here : TracksB u p) (accepted : referenceB p ≠ none) :
    Ready u ∧ ¬ Bad u := by
  have tracks := here.tracks
  have known := tracks.known
  have knownB := here.known
  unfold Known at known
  unfold KnownB at knownB
  have good : p[9]? = some 0x31 ∧ lengthLast p < p.length ∧ packLenOf .b p ≤ p.length := by
    by_contra bad
    exact accepted (if_neg bad)
  obtain ⟨reply, there, fits⟩ := good
  rw [tracks.length] at there fits
  have long : 11 ≤ lengthLast p := by unfold lengthLast; split_ifs <;> decide
  constructor
  · unfold Ready
    cases state : u.state with
    | getSocketHead =>
      dsimp only
      omega
    | getSocketData =>
      dsimp only
      omega
    | getSocketId =>
      dsimp only
      omega
    | getHead ch =>
      rw [state] at known
      obtain rfl := channel_b head List.prefix_rfl known.head
      dsimp only
      omega
    | getLen ch =>
      rw [state] at known
      obtain rfl := channel_b head List.prefix_rfl known.1.head
      refine ⟨by omega, fun second => ?_⟩
      have plain : shown u.state p = p := by rw [state]; rfl
      have tenth : u.rx 10 = p.getD 10 nul := tracks.at' plain (k := 10) (n := 1) (by omega) 0 (by omega)
      rw [lengthLast, if_pos (by rwa [← tenth])] at there
      omega
    | getData ch =>
      rw [state] at known knownB
      obtain rfl := channel_b head List.prefix_rfl known.1.head
      exact knownB.2 ▸ fits
    | getEnd ch =>
      rw [state] at known
      obtain rfl := channel_b head List.prefix_rfl known.1.head
      trivial
  · intro bad
    obtain ⟨state, more, other⟩ := bad_b head List.prefix_rfl tracks bad
    have plain : shown u.state p = p := by rw [state]; rfl
    have byte := tracks.byte plain (show 9 < u.cur by omega)
    exact other (Option.some.inj (byte.symm.trans reply))

/-- The packet is on its way, or the parser is through with it. -/
inductive ProgressB (p : List Byte) (log : List Packet) (v : List Byte) (u : Usart) : Prop
  | going (here : TracksB u v) (kept : u.log = log)
  | done (whole : v = p) (idle : Idle u) (handed : u.log = log ++ (referenceB p).toList)

theorem ProgressB.step (head : p[0]? = some (header .b)) (short : p.length < usartRecLen) (placed : Placed u)
    (progress : ProgressB p log v u) {e : Event} (careful : Careful p u e) (pre : v ++ received [e] <+: p) :
    ProgressB p log (v ++ received [e]) (u.step e) := by
  cases progress with
  | done whole idle handed =>
    have silent : received [e] = [] := by
      have length := pre.length_le
      rw [whole, List.length_append] at length
      exact List.length_eq_zero_iff.1 (by omega)
    obtain ⟨still, same⟩ := idle.quiet placed silent
    rw [silent, List.append_nil]
    exact .done whole still (same.trans handed)
  | going here kept =>
    have tracks := here.tracks
    cases e with
    | rx b =>
      have fits : u.cur + 1 < usartRecLen := by
        have length := pre.length_le
        rw [List.length_append, tracks.length] at length
        exact Nat.lt_of_le_of_lt length short
      exact .going ⟨tracks.receive fits b, here.known.receive b⟩ kept
    | tick =>
      obtain ⟨timer, same⟩ := tick_of_not_resets careful.1
      rw [show received [Event.tick] = [] from rfl, List.append_nil, show u.step .tick =
        { u with timer := timer } from same]
      exact .going ⟨⟨tracks.length, tracks.bytes, tracks.known⟩, here.known⟩ kept
    | run =>
      rw [show received [Event.run] = [] from rfl, List.append_nil] at pre ⊢
      show ProgressB p log v u.run
      obtain ⟨late, whole⟩ := careful.2 rfl
      have ran := run_cases placed
      generalize u.run = after at ran ⊢
      cases ran with
      | call finished => exact .going ⟨⟨tracks.length, tracks.bytes, tracks.known⟩, here.known⟩ kept
      | skip running other => exact .going ⟨⟨tracks.length, tracks.bytes, tracks.known⟩, here.known⟩ kept
      | work u' turn worked =>
        rcases here.worked head pre turn late whole worked with ⟨⟨tracks, known⟩, same⟩ | ⟨ended, idle, handed⟩
        · exact .going ⟨⟨tracks.length, tracks.bytes, tracks.known⟩, known⟩ (same.trans kept)
        · exact .done ended ⟨idle.state, idle.empty⟩ (by rw [← kept]; exact handed)

theorem ProgressB.steps (head : p[0]? = some (header .b)) (short : p.length < usartRecLen) (placed : Placed u)
    (progress : ProgressB p log v u) {events : List Event} (careful : Along (Careful p) u events)
    (pre : v ++ received events <+: p) : ProgressB p log (v ++ received events) (u.steps events) := by
  induction events generalizing u v with
  | nil =>
    rw [show received [] = [] from rfl, List.append_nil]
    exact progress
  | cons e events ih =>
    rw [received_cons, ← List.append_assoc] at pre ⊢
    have next := progress.step head short placed careful.1 ((List.prefix_append _ _).trans pre)
    exact ih (placed.step e) next careful.2 pre

/-- Once the parser is through with a packet, what it has handed over is what the reference finds. -/
theorem Handled.log_eq {events : List Event} (placed : Placed u) (handled : Handled p u events) :
    (u.steps events).log = u.log ++ (referenceB p).toList := by
  obtain ⟨idle, head, short, arrives, careful, settled⟩ := handled
  have start : ProgressB p u.log [] u := by
    refine .going ⟨idle.tracks, ?_⟩ rfl
    unfold KnownB
    rw [idle.state]
    trivial
  rcases settled with through | ⟨arrivals, polls, rfl, first, quiet, often⟩
  · have progress := start.steps head short placed careful (by rw [arrives]; exact List.prefix_rfl)
    rw [arrives, List.nil_append] at progress
    cases progress with
    | done whole idle handed => exact handed
    | going here kept =>
      have length := here.tracks.length
      rw [through.empty] at length
      rw [List.length_eq_zero_iff.1 length] at head
      exact absurd head (by decide)
  · obtain ⟨before, after⟩ := along_append.1 careful
    have arrived := start.steps head short placed before (by rw [first]; exact List.prefix_rfl)
    rw [first, List.nil_append] at arrived
    have placed' := placed_steps placed arrivals
    rw [steps_append]
    generalize u.steps arrivals = u' at arrived placed' after
    cases arrived with
    | done whole idle handed => exact (steps_stays idle_stays placed' ⟨idle, handed⟩ quiet).2
    | going here kept =>
      by_cases accepted : referenceB p = none
      · have last := ProgressB.steps head short placed' (.going here kept) after (by rw [quiet]; simp)
        cases last with
        | going _ kept =>
          rw [kept, accepted]
          exact (List.append_nil _).symm
        | done _ _ handed => exact handed
      · have ready (w : Usart) (going : TracksB w p ∧ w.log = u.log) : Ready w ∧ ¬ Bad w := going.1.ready head accepted
        have steps (w : Usart) (e : Event) (placed : Placed w) (going : TracksB w p ∧ w.log = u.log)
          (runs : Careful p w e)
            (silent : received [e] = []) : ((TracksB (w.step e) p ∧ (w.step e).log = u.log) ∧ (w.step e).log = w.log) ∨
              (Idle (w.step e) ∧ (w.step e).log = u.log ++ (referenceB p).toList) := by
          have next := ProgressB.step head short placed (.going going.1 going.2) runs (by simp [silent])
          rw [silent, List.append_nil] at next
          cases next with
          | going here kept => exact Or.inl ⟨⟨here, kept⟩, kept.trans going.2.symm⟩
          | done whole idle handed => exact Or.inr ⟨idle, handed⟩
        exact (settles ready (fun _ _ careful => careful.1) steps idle_stays placed' ⟨here, kept⟩ after quiet
          ((turns_le _).trans often)).2

/-- Packet after packet. -/
theorem handles_log {u : Usart} (placed : Placed u) {run : List (List Byte × List Event)} (handles : Handles u run) :
    (u.steps (run.map Prod.snd).flatten).log = u.log ++ (run.map Prod.fst).filterMap referenceB := by
  induction run generalizing u with
  | nil => exact (List.append_nil _).symm
  | cons packet run ih =>
    obtain ⟨p, events⟩ := packet
    obtain ⟨handled, rest⟩ := handles
    rw [List.map_cons, List.flatten_cons, steps_append, ih (placed_steps placed events) rest, handled.log_eq placed,
      List.append_assoc, List.map_cons, List.filterMap_cons]
    cases referenceB p <;> rfl

end Packet

/-- Two runs over the same packets hand over the same, which is what the reference finds. -/
theorem handed_over (before before' : List Event) (run run' : List (List Byte × List Event))
    (packets : run.map Prod.fst = run'.map Prod.fst) (handles : Handles (init.steps before) run)
    (handles' : Handles (init.steps before') run') :
    (init.steps (before ++ (run.map Prod.snd).flatten)).log =
        (init.steps before).log ++ (run.map Prod.fst).filterMap referenceB ∧
      (init.steps (before' ++ (run'.map Prod.snd).flatten)).log =
        (init.steps before').log ++ (run.map Prod.fst).filterMap referenceB := by
  rw [steps_append, steps_append, packets]
  refine ⟨?_, handles_log (placed_steps placed_init before') handles'⟩
  rw [← packets]
  exact handles_log (placed_steps placed_init before) handles

/-- A reply with one time, with and without a call in the middle. -/
theorem handed_over_reply :
    (init.steps (arrive (str "b0000000010120180101000000") ++ calls 2)).log = [.data .b [] (str "10120180101000000")] ∧
      (init.steps (arrive (str "b00000000101") ++ calls 1 ++ arrive (str "20180101000000") ++ calls 2)).log =
        [.data .b [] (str "10120180101000000")] := by
  have reference : [str "b0000000010120180101000000"].filterMap referenceB =
    [.data .b [] (str "10120180101000000")] := by
    decide +kernel
  have handled (events : List Event) (arrives : received events = str "b0000000010120180101000000")
      (careful : Along (Careful (str "b0000000010120180101000000")) init events) (idle : Idle (init.steps events)) :
      Handles init [(str "b0000000010120180101000000", events)] :=
    ⟨⟨⟨rfl, rfl⟩, rfl, by decide, arrives, careful, Or.inl idle⟩, trivial⟩
  have logs := handed_over [] []
    [(str "b0000000010120180101000000", arrive (str "b0000000010120180101000000") ++ calls 2)]
    [(str "b0000000010120180101000000",
      arrive (str "b00000000101") ++ calls 1 ++ arrive (str "20180101000000") ++ calls 2)] rfl
    (handled _ (by decide +kernel) (by decide +kernel) ⟨by decide +kernel, by decide +kernel⟩)
    (handled _ (by decide +kernel) (by decide +kernel) ⟨by decide +kernel, by decide +kernel⟩)
  simp only [List.nil_append, List.map_cons, List.map_nil, List.flatten_cons, List.flatten_nil, List.append_nil,
    reference] at logs
  exact logs

/-- The same reply, with a call that sees eleven bytes of it. -/
theorem early_length :
    referenceB (str "b0000000010120180101000000") = some (.data .b [] (str "10120180101000000")) ∧
      (init.steps (arrive (str "b0000000010120180101000000") ++ calls 2)).log =
        [.data .b [] (str "10120180101000000")] ∧
      (init.steps (arrive (str "b0000000010") ++ calls 1 ++ arrive (str "120180101000000") ++ calls 2)).log = [] := by
  decide +kernel

end Ecu.Wifi
