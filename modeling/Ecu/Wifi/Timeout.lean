import Ecu.Wifi.Frames

/-!
# Frames that are cut off (`usart5.c`, `timer.c`)

TIM3 drops a frame that stops arriving, as long as it runs. The stages stop and start it: it is off from the head of a
packet to the length, the block of the data stops it before it looks for the end, and on while the end or a socket
message is waited for. So the timer runs after every call that leaves a frame pending if a call finds what the
stages without it wait for (`frames_resync`).
-/

namespace Ecu.Wifi

open Usart Scan

/-! ## Pending frames -/

/-- The last block of a call. -/
def Ends (u : Usart) (e : Event) : Prop :=
  e = .run ∧ u.block = 14

def PendingFrame (u : Usart) : Prop :=
  u.state ≠ .getSocketHead ∨ 2 ≤ u.cur

/-- What is handed over later is cut from what arrives later. -/
def Apart (u : Usart) : Prop :=
  ∀ later, Along Fits u later → ∃ log pending, (u.steps later).log = u.log ++ log ∧ Parsed (received later) log pending

/-- Between calls the second interrupt of the timer, if not the first, drops the frame. -/
def DropsIn (u : Usart) : Prop :=
  ∀ events, Event.run ∉ events → 2 ≤ events.count .tick →
    ∃ before after, events = before ++ .tick :: after ∧ Idle (u.steps (before ++ [.tick])) ∧
      Apart (u.steps (before ++ [.tick]))

/-- A frame that is pending after a call is timed, and dropped if nothing else happens to it. -/
def Resyncs (u : Usart) (e : Event) : Prop :=
  Ends u e → PendingFrame (u.step e) → (u.step e).timer ≠ none ∧ DropsIn (u.step e)

/-! ## Stages -/

/-- The stages that wait without the timer, and the end of socket B, which does not wait. -/
def Untimed : RecvSM → Prop
  | .getSocketId => True
  | .getHead _ => True
  | .getLen _ => True
  | .getData _ => True
  | .getEnd .b => True
  | _ => False

/-- A byte behind the id that does not belong to a packet. -/
def Foreign (u : Usart) : Prop :=
  ∃ ch, u.state = .getHead ch ∧ Bad u

/-- A stage that waits without the timer finds its bytes, or one that ends the packet; the second byte of a packet does
not arrive while a call has passed the head. -/
def Prompt (u : Usart) : Event → Prop
  | .run => u.block = blockOf u.state → Untimed u.state → Ready u ∨ Foreign u
  | .rx _ => u.state = .getSocketHead → u.cur = 1 → 0 < u.block → u.block < 15 → u.timer ≠ none
  | .tick => True

/-! ## Interrupts of the timer -/

section Interrupts

variable {u : Usart}

theorem tick_idle {usartFlag : Nat} (timer : u.timer = some usartFlag) (late : 1 < usartFlag + 1) : Idle u.tick := by
  unfold Usart.tick
  rw [timer]
  dsimp only
  rw [if_pos late]
  exact ⟨rfl, rfl⟩

theorem tick_timer {usartFlag : Nat} (timer : u.timer = some usartFlag) (early : ¬ 1 < usartFlag + 1) :
    u.tick.timer = some (usartFlag + 1) := by
  unfold Usart.tick
  rw [timer]
  dsimp only
  rw [if_neg early]

theorem idle_apart (placed : Placed u) (idle : Idle u) : Apart u := by
  -- the log of `u` stays in front
  have each {later : List Event} {w : Usart} (placed : Placed w) {stream log pending : List _}
    (handed : w.log = u.log ++ log)
      (parsed : Parsed stream log pending) (tracks : Tracks w pending) (fits : Along Fits w later) :
      ∃ log pending, (w.steps later).log = u.log ++ log ∧ Parsed (stream ++ received later) log pending := by
    induction later generalizing w stream log pending with
    | nil => exact ⟨log, pending, handed, by rwa [show received [] = [] from rfl, List.append_nil]⟩
    | cons e later ih =>
      rw [received_cons, ← List.append_assoc]
      have silent {w' : Usart} (after : After w pending w') (placed : Placed w') (fits : Along Fits w' later) :
          ∃ log pending, (w'.steps later).log = u.log ++ log ∧ Parsed (stream ++ [] ++ received later) log pending := by
        rw [List.append_nil]
        cases after with
        | kept tracks same => exact ih placed (same.trans handed) parsed tracks fits
        | dropped idle same => exact ih placed (same.trans handed) parsed.drop idle.tracks fits
        | packet p framed idle more =>
          exact ih placed (by rw [more, handed, List.append_assoc]) (parsed.packet framed) idle.tracks fits
      cases e with
      | rx b => exact ih (placed.step _) handed (parsed.append b) (tracks.receive fits.1 b) fits.2
      | tick => exact silent tracks.tick (placed.step _) fits.2
      | run => exact silent (tracks.run placed) (placed.step _) fits.2
  intro later fits
  exact each placed (List.append_nil _).symm ⟨[], rfl, rfl, nofun⟩ idle.tracks fits

theorem drops (placed : Placed u) (timer : u.timer ≠ none) : DropsIn u := by
  have each {events : List Event} {u : Usart} (placed : Placed u) {usartFlag : Nat} (timer : u.timer = some usartFlag)
      (noCall : Event.run ∉ events) (enough : 2 ≤ events.count .tick + usartFlag) (some : 1 ≤ events.count .tick) :
      ∃ before after, events = before ++ .tick :: after ∧ Idle (u.steps (before ++ [.tick])) ∧
        Apart (u.steps (before ++ [.tick])) := by
    induction events generalizing u usartFlag with
    | nil => simp at some
    | cons e events ih =>
      have noLater : Event.run ∉ events := fun mem => noCall (List.mem_cons_of_mem _ mem)
      have later {u' : Usart} (moved : u.step e = u') (found : ∃ before after, events = before ++ .tick :: after ∧
          Idle (u'.steps (before ++ [.tick])) ∧ Apart (u'.steps (before ++ [.tick]))) :
          ∃ before after, e :: events = before ++ .tick :: after ∧ Idle (u.steps (before ++ [.tick])) ∧
            Apart (u.steps (before ++ [.tick])) := by
        subst moved
        obtain ⟨before, after, rfl, idle, apart⟩ := found
        exact ⟨e :: before, after, rfl, idle, apart⟩
      cases e with
      | run => exact absurd List.mem_cons_self noCall
      | rx b =>
        rw [List.count_cons_of_ne (by simp)] at enough some
        exact later rfl (ih (placed.step _) timer noLater enough some)
      | tick =>
        rw [List.count_cons_self] at enough some
        by_cases late : 1 < usartFlag + 1
        · have idle := tick_idle timer late
          exact ⟨[], events, rfl, idle, idle_apart (placed.step .tick) idle⟩
        · exact later rfl (ih (placed.step _) (tick_timer timer late) noLater (by omega) (by omega))
  obtain ⟨usartFlag, timer⟩ := Option.ne_none_iff_exists'.1 timer
  intro events noCall enough
  exact each placed timer noCall (by omega) (by omega)

end Interrupts

/-! ## What the blocks do to the timer -/

section Blocks

variable {u : Usart}

theorem work_socketData_timer (state : u.state = .getSocketData) : u.work.timer = some 0 ∨ Idle u.work := by
  have unfolded : u.work = whilePos u.cur socketDataStops u.timerInit := by rw [work, state]
  rw [unfolded]
  refine loop_rule (Q := fun w : Usart => w.timer = some 0) (fun n w timer => timer) ?_ ?_ rfl
  · intro stop mem w w' timer goes
    obtain rfl := List.mem_singleton.1 mem
    cases goes
  · intro stop mem w w' timer leaves
    obtain rfl := List.mem_singleton.1 mem
    cases leaves
    exact ⟨rfl, rfl⟩

theorem work_end_timer {ch : Channel} (notB : ch ≠ .b) (state : u.state = .getEnd ch) :
    u.work.timer = u.timer ∨ Idle u.work := by
  have unfolded : u.work = whilePos (u.cur + 1) (endStops ch u.packLen) { u with pos := 0 } := by
    rw [work, state]
    cases ch with
    | b => contradiction
    | a => rfl
    | c => rfl
  have expects {k : Nat} {c : Byte} {w w' : Usart} (leaves : expect k c w = .leave w') : Idle w' := by
    unfold expect at leaves
    split_ifs at leaves
    cases leaves
    exact ⟨rfl, rfl⟩
  have delivers {w w' : Usart} (leaves : onDelivery ch w = .leave w') : Idle w' := by
    unfold onDelivery at leaves
    split_ifs at leaves
    all_goals
      cases leaves
      exact ⟨rfl, rfl⟩
  rw [unfolded]
  refine loop_rule (Q := fun w : Usart => w.timer = u.timer) (fun n w timer => timer) ?_ ?_ rfl
  · intro stop mem w w' timer goes
    simp only [endStops, List.mem_cons, List.not_mem_nil, or_false] at mem
    rcases mem with rfl | rfl | rfl
    · simp only [expect] at goes
      split_ifs at goes
      cases goes
      exact timer
    · simp only [expect] at goes
      split_ifs at goes
      cases goes
      exact timer
    · simp only [onDelivery] at goes
      split_ifs at goes
  · intro stop mem w w' timer leaves
    simp only [endStops, List.mem_cons, List.not_mem_nil, or_false] at mem
    rcases mem with rfl | rfl | rfl
    · exact expects leaves
    · exact expects leaves
    · exact delivers leaves

/-- A byte that does not belong to a packet ends it where it stands. -/
theorem work_foreign (before : Before u) (foreign : Foreign u) : Idle u.work := by
  obtain ⟨ch, state, bad⟩ := foreign
  have idle : Idle u.restart := ⟨rfl, rfl⟩
  by_cases b : ch = .b
  · subst b
    simp only [Bad, state] at bad
    simp only [Before, state] at before
    have still : ∀ stop ∈ headStopsB, stop.Still := by
      intro stop mem
      obtain rfl := List.mem_singleton.1 mem
      refine leave_still fun w => ?_
      split_ifs
      · exact ⟨_, rfl⟩
      · exact ⟨_, rfl⟩
    have unfolded : u.work = scan u.cur headStopsB u := by
      rw [work, state]
      exact whilePos_eq u (List.pairwise_singleton _ _) still
    have left : scan u.cur headStopsB u = u.restart :=
      scan_leave (if_pos bad.2) (by exact_mod_cast before) (by exact_mod_cast bad.1)
    rw [unfolded, left]
    exact idle
  · obtain ⟨k, small, there, other⟩ := (bad_head b state).1 bad
    simp only [Before, state] at before
    have start : scan u.cur (headStops ch) u = scan u.cur (headStops ch) { u with pos := u.pos } := rfl
    rw [work_head_scan b state, start, headStops]
    by_cases a : u.rx 9 = 0x41
    · have first : k ≠ 0 := by
        rintro rfl
        exact other a
      rw [scan_expect a (by omega) (by omega)]
      by_cases p : u.rx 10 = 0x50
      · have second : k ≠ 1 := by
          rintro rfl
          exact other p
        obtain rfl : k = 2 := by omega
        have third : u.rx 11 ≠ 0x53 := other
        rw [scan_expect p (by simp) (by omega), scan_expect_bad third (by simp) (by omega)]
        exact idle
      · rw [scan_expect_bad p (by simp) (by omega)]
        exact idle
    · rw [scan_expect_bad a (by omega) (by omega)]
      exact idle

end Blocks

/-- Where a block leaves the frame: in a stage that has its turn later in the call, or waiting with the timer on, or
nowhere. -/
inductive Moved (u u' : Usart) : Prop
  | idle (idle : Idle u')
  | head (state : u'.state = .getSocketHead) (few : u'.cur ≤ 1)
  | socketData (state : u'.state = .getSocketData) (timed : blockOf u.state = 0 ∨ u'.timer ≠ none)
  | untimed (stage : Untimed u'.state) (later : blockOf u.state < blockOf u'.state)
  | tail (ch : Channel) (notB : ch ≠ .b) (state : u'.state = .getEnd ch) (timed : u'.timer ≠ none)

theorem work_moved {u : Usart} (before : Before u) (prompt : Untimed u.state → Ready u ∨ Foreign u)
    (tail : ∀ ch, ch ≠ .b → u.state = .getEnd ch → u.timer ≠ none) : Moved u u.work := by
  have data := @work_socketData_timer u
  have ends {ch : Channel} := @work_end_timer u ch
  have foreign := work_foreign before
  have worked := work_cases before
  generalize u.work = u' at data ends foreign worked ⊢
  have next (stage : Untimed u'.state) (later : blockOf u.state < blockOf u'.state) : Moved u u' := .untimed stage later
  cases worked with
  | wait pos timer id waits kept =>
    have found (stage : Untimed u.state) {v : Usart} (idle : Foreign u → Idle v) : Moved u v := by
      rcases prompt stage with ready | other
      · exact absurd ready waits
      · exact .idle (idle other)
    obtain ⟨s, state⟩ : ∃ s, u.state = s := ⟨_, rfl⟩
    cases s with
    | getSocketHead =>
      simp only [Ready, state] at waits
      exact .head state (Nat.le_of_not_lt waits)
    | getSocketData =>
      rcases data state with on | idle
      · exact .socketData state (.inr (Option.ne_none_iff_exists'.2 ⟨0, on⟩))
      · exact .idle idle
    | getEnd ch =>
      by_cases b : ch = .b
      · subst b
        simp only [Ready, state, not_true_eq_false] at waits
      · rcases ends b state with on | idle
        · exact .tail ch b state (on ▸ tail ch b state)
        · exact .idle idle
    | getSocketId => exact found (by simp only [state, Untimed]) foreign
    | getHead ch => exact found (by simp only [state, Untimed]) foreign
    | getLen ch => exact found (by simp only [state, Untimed]) foreign
    | getData ch => exact found (by simp only [state, Untimed]) foreign
  | restart type timer id bad => exact .idle ⟨rfl, rfl⟩
  | channel ch state there head =>
    refine next trivial ?_
    rw [state]
    simp [blockOf]
  | socket state there head => exact .socketData rfl (.inl (by rw [state]; rfl))
  | socketData state there => exact .idle ⟨rfl, rfl⟩
  | id ch id state type there stored =>
    refine next trivial ?_
    rw [state]
    cases ch <;> simp [blockOf]
  | head ch notB state there aps =>
    refine next trivial ?_
    rw [state]
    cases ch <;> simp [blockOf]
  | headB state there reply =>
    refine next trivial ?_
    rw [state]
    simp [blockOf]
  | lenA state there =>
    refine next trivial ?_
    rw [state]
    simp [blockOf]
  | lenC state there =>
    refine next trivial ?_
    rw [state]
    simp [blockOf]
  | lenB state there single =>
    refine next trivial ?_
    rw [state]
    simp [blockOf]
  | lenSecondB state there second =>
    refine next trivial ?_
    rw [state]
    simp [blockOf]
  | data ch pos state there =>
    by_cases b : ch = .b
    · subst b
      refine next trivial ?_
      rw [state]
      simp [blockOf]
    · exact .tail ch b rfl (by simp)
  | deliver ch notB state there long tail => exact .idle ⟨rfl, rfl⟩
  | deliverB state => exact .idle ⟨rfl, rfl⟩

/-! ## Calls -/

/-- While a call is running, and when it has ended: the stages without the timer that have had their turn are over,
and the timer runs in the others. -/
structure Timed (last : Nat) (u : Usart) : Prop where
  head : u.state = .getSocketHead → 0 < u.block → u.block ≤ last → 1 < u.cur → u.timer ≠ none
  untimed : Untimed u.state → u.block ≤ blockOf u.state
  socketData : u.state = .getSocketData → 1 < u.block → u.timer ≠ none
  tail : ∀ ch, ch ≠ .b → u.state = .getEnd ch → u.timer ≠ none

section Calls

variable {u : Usart}

theorem Idle.timed (idle : Idle u) (last : Nat) : Timed last u := by
  have state := idle.state
  have empty := idle.empty
  refine ⟨fun _ _ _ more => ?_, fun untimed => ?_, fun other => ?_, fun ch _ other => ?_⟩
  · omega
  · rw [state] at untimed
    exact untimed.elim
  · rw [state] at other
    cases other
  · rw [state] at other
    cases other

theorem Timed.mono {last : Nat} (timed : Timed last u) {first : Nat} (less : first ≤ last) : Timed first u :=
  ⟨fun state some running => timed.head state some (running.trans less), timed.untimed, timed.socketData, timed.tail⟩

theorem Moved.timed {u' : Usart} (moved : Moved u u') (turn : u.block = blockOf u.state) :
    Timed 15 { u' with block := u.block + 1 } := by
  cases moved with
  | idle idle => exact Idle.timed (u := { u' with block := u.block + 1 }) ⟨idle.state, idle.empty⟩ 15
  | head state few =>
    refine ⟨fun _ _ _ more => absurd more (Nat.not_lt_of_le few), fun untimed => ?_, fun other => ?_,
      fun ch _ other => ?_⟩
    · simp only [state, Untimed] at untimed
    · simp [state] at other
    · simp [state] at other
  | socketData state timed =>
    refine ⟨fun other => ?_, fun untimed => ?_, fun _ later => ?_, fun ch _ other => ?_⟩
    · simp [state] at other
    · simp only [state, Untimed] at untimed
    · rcases timed with first | timed
      · dsimp only at later
        omega
      · exact timed
    · simp [state] at other
  | untimed stage later =>
    refine ⟨fun other => ?_, fun _ => ?_, fun other => ?_, fun ch notB other => ?_⟩
    · dsimp only at other
      rw [other] at stage
      exact stage.elim
    · dsimp only
      omega
    · dsimp only at other
      rw [other] at stage
      exact stage.elim
    · dsimp only at other
      rw [other] at stage
      cases ch with
      | b => contradiction
      | a => exact stage.elim
      | c => exact stage.elim
  | tail ch notB state timed =>
    refine ⟨fun other => ?_, fun untimed => ?_, fun other => ?_, fun _ _ _ => timed⟩
    · simp [state] at other
    · dsimp only at untimed
      rw [state] at untimed
      cases ch with
      | b => contradiction
      | a => exact untimed.elim
      | c => exact untimed.elim
    · simp [state] at other

theorem Timed.run (placed : Placed u) (timed : Timed 14 u) (prompt : Prompt u .run) : Timed 15 u.run := by
  unfold Usart.run
  by_cases finished : u.block ≥ 15
  · rw [if_pos finished]
    exact ⟨fun _ some => absurd some (Nat.lt_irrefl 0), fun _ => Nat.zero_le _,
      fun _ some => absurd some (Nat.not_lt_zero 1),
      timed.tail⟩
  rw [if_neg finished]
  by_cases turn : u.block = blockOf u.state
  · rw [if_pos (blockState_iff.2 turn)]
    exact (work_moved (placed.before (Nat.le_of_eq turn)) (prompt turn) timed.tail).timed turn
  · rw [if_neg (blockState_iff.not.2 turn)]
    refine ⟨fun state _ _ more => ?_, fun untimed => ?_, fun state later => ?_, timed.tail⟩
    · dsimp only at state
      rw [state] at turn
      exact timed.head state (Nat.pos_of_ne_zero turn) (by omega) more
    · have := timed.untimed untimed
      dsimp only
      omega
    · dsimp only at state later
      rw [state] at turn
      simp only [blockOf] at turn
      exact timed.socketData state (by omega)

theorem Timed.step (placed : Placed u) (timed : Timed 14 u) {e : Event} (prompt : Prompt u e) :
    Timed 14 (u.step e) := by
  cases e with
  | run => exact (timed.run placed prompt).mono (by decide)
  | rx b =>
    refine ⟨fun state some running more => ?_, timed.untimed, timed.socketData, timed.tail⟩
    have room : 1 < u.cur + 1 := by
      change 1 < (if u.cur + 1 ≥ usartRecLen then 0 else u.cur + 1) at more
      split_ifs at more
      · omega
      · exact more
    by_cases one : u.cur = 1
    · exact prompt state one some (Nat.lt_succ_of_le running)
    · exact timed.head state some running (by omega)
  | tick =>
    show Timed 14 u.tick
    cases timer : u.timer with
    | none =>
      have still : u.tick = u := by
        unfold Usart.tick
        rw [timer]
      rw [still]
      exact timed
    | some usartFlag =>
      by_cases late : 1 < usartFlag + 1
      · exact (tick_idle timer late).timed 14
      · have on : u.tick.timer ≠ none := by
          rw [tick_timer timer late]
          simp
        have same : u.tick.state = u.state ∧ u.tick.block = u.block := by
          unfold Usart.tick
          rw [timer]
          dsimp only
          rw [if_neg late]
          exact ⟨rfl, rfl⟩
        refine ⟨fun _ _ _ _ => on, ?_, fun _ _ => on, fun _ _ _ => on⟩
        rw [same.1, same.2]
        exact timed.untimed

theorem Timed.resyncs (placed : Placed u) (timed : Timed 14 u) {e : Event} (prompt : Prompt u e) : Resyncs u e := by
  rintro ⟨rfl, last⟩ pending
  have after : Timed 15 (u.step .run) := timed.run placed prompt
  have block : (u.step .run).block = 15 := by
    show (Usart.run u).block = 15
    unfold Usart.run
    rw [if_neg (by omega)]
    exact congrArg (· + 1) last
  have on : (u.step .run).timer ≠ none := by
    have past (untimed : Untimed (u.step .run).state) : False := by
      have := after.untimed untimed
      have := blockOf_lt (u.step .run).state
      omega
    cases state : (u.step .run).state with
    | getSocketHead =>
      refine after.head state (by omega) (by omega) ?_
      rcases pending with other | more
      · exact absurd state other
      · exact more
    | getSocketData => exact after.socketData state (by omega)
    | getEnd ch =>
      by_cases b : ch = .b
      · subst b
        exact (past (by simp only [state, Untimed])).elim
      · exact after.tail ch b state
    | getSocketId => exact (past (by simp only [state, Untimed])).elim
    | getHead ch => exact (past (by simp only [state, Untimed])).elim
    | getLen ch => exact (past (by simp only [state, Untimed])).elim
    | getData ch => exact (past (by simp only [state, Untimed])).elim
  exact ⟨on, drops (placed.step .run) on⟩

end Calls

/-- In every run whose calls find what the stages without the timer wait for, a frame that is pending after a call is
timed and dropped. -/
theorem frames_resync {events : List Event} (prompt : Along Prompt init events) : Along Resyncs init events := by
  have each {events : List Event} {u : Usart} (placed : Placed u) (timed : Timed 14 u)
    (prompt : Along Prompt u events) : Along Resyncs u events := by
    induction events generalizing u with
    | nil => trivial
    | cons e events ih =>
      exact ⟨timed.resyncs placed prompt.1, ih (placed.step e) (timed.step placed prompt.1) prompt.2⟩
  exact each placed_init (Idle.timed ⟨rfl, rfl⟩ 14) prompt

instance (s : RecvSM) : Decidable (Untimed s) :=
  match s with
  | .getSocketHead => isFalse id
  | .getSocketData => isFalse id
  | .getSocketId => isTrue trivial
  | .getHead _ => isTrue trivial
  | .getLen _ => isTrue trivial
  | .getData _ => isTrue trivial
  | .getEnd .b => isTrue trivial
  | .getEnd .a => isFalse id
  | .getEnd .c => isFalse id

instance (u : Usart) : Decidable (Ready u) :=
  match state : u.state with
  | .getSocketHead => decidable_of_iff (1 < u.cur) (by simp only [Ready, state])
  | .getSocketData => decidable_of_iff (5 < u.cur) (by simp only [Ready, state])
  | .getSocketId => decidable_of_iff (9 < u.cur) (by simp only [Ready, state])
  | .getHead .b => decidable_of_iff (10 < u.cur) (by simp only [Ready, state])
  | .getHead .a => decidable_of_iff (14 < u.cur) (by simp only [Ready, state])
  | .getHead .c => decidable_of_iff (14 < u.cur) (by simp only [Ready, state])
  | .getLen .b => decidable_of_iff (10 < u.cur ∧ (u.rx 10 = 0x62 → 19 < u.cur)) (by simp only [Ready, state])
  | .getLen .a => decidable_of_iff (lenEnd .a < u.cur) (by simp only [Ready, state])
  | .getLen .c => decidable_of_iff (lenEnd .c < u.cur) (by simp only [Ready, state])
  | .getData .a => decidable_of_iff (3 ≤ u.packLen ∧ u.packLen - 3 < u.cur) (by simp only [Ready, state])
  | .getData .b => decidable_of_iff (u.packLen ≤ u.cur) (by simp only [Ready, state])
  | .getData .c => decidable_of_iff (3 ≤ u.packLen ∧ u.packLen - 3 ≤ u.cur) (by simp only [Ready, state])
  | .getEnd .b => isTrue (by simp only [Ready, state])
  | .getEnd .a => decidable_of_iff (u.packLen ≤ u.cur) (by simp only [Ready, state])
  | .getEnd .c => decidable_of_iff (u.packLen ≤ u.cur) (by simp only [Ready, state])

theorem prompt_of_ready {u : Usart} {e : Event}
    (ready : (e = .run → u.block = blockOf u.state → Untimed u.state → Ready u) ∧ (e ≠ .run → u.block = 15)) :
      Prompt u e := by
  cases e with
  | run => exact fun turn stage => .inl (ready.1 rfl turn stage)
  | rx b => exact fun _ _ _ running => absurd (ready.2 (by simp)) (Nat.ne_of_lt running)
  | tick => trivial

theorem Along.mono {P Q : Usart → Event → Prop} (weaken : ∀ {u e}, P u e → Q u e) {events : List Event} {u : Usart}
    (along : Along P u events) : Along Q u events := by
  induction events generalizing u with
  | nil => trivial
  | cons e events ih => exact ⟨weaken along.1, ih along.2⟩

/-- A frame that is cut off inside of `END`. -/
theorem end_resyncs :
    Along Resyncs init (arrive (str "a12345678APS110020xxxxxxxxEN") ++ calls 1) ∧
      (init.steps (arrive (str "a12345678APS110020xxxxxxxxEN") ++ calls 1)).state = .getEnd .a := by
  constructor
  · refine frames_resync (Along.mono (P := fun u e =>
      (e = .run → u.block = blockOf u.state → Untimed u.state → Ready u) ∧ (e ≠ .run → u.block = 15))
        prompt_of_ready ?_)
    decide +kernel
  · decide +kernel

/-- A frame that is cut off in its id: nothing drops it. -/
theorem id_untimed : ¬ ∀ events, Along Resyncs init events := by
  intro claim
  have along := claim (arrive (str "a1") ++ List.replicate 15 .run ++ [.run])
  obtain ⟨timed, -⟩ := (along_append.1 along).2
  have pending : PendingFrame ((init.steps (arrive (str "a1") ++ List.replicate 15 .run)).step .run) :=
    Or.inl (by decide +kernel)
  obtain ⟨on, -⟩ := timed ⟨rfl, by decide +kernel⟩ pending
  exact on (by decide +kernel)

end Ecu.Wifi
