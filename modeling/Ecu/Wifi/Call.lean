import Ecu.Wifi.Step

/-!
# Calls of `WIFI_GetEvent`

The blocks of a call share `pos`. `Placed` says that the loop of a block still to come starts in front of its first
stop; every event keeps it, so on every run a block does what `Work` lists (`run_cases`).
-/

namespace Ecu.Wifi

namespace Usart

/-- The block of a state. -/
def blockOf : RecvSM → Nat
  | .getSocketHead => 0
  | .getSocketData => 1
  | .getSocketId => 2
  | .getHead .a => 3
  | .getLen .a => 4
  | .getData .a => 5
  | .getEnd .a => 6
  | .getHead .b => 7
  | .getLen .b => 8
  | .getData .b => 9
  | .getEnd .b => 10
  | .getHead .c => 11
  | .getLen .c => 12
  | .getData .c => 13
  | .getEnd .c => 14

theorem blockState_iff {n : Nat} {s : RecvSM} : blockState n = some s ↔ n = blockOf s := by
  constructor
  · intro h
    unfold blockState at h
    split at h
    all_goals first
      | (obtain rfl := Option.some.inj h; rfl)
      | cases h
  · rintro rfl
    cases s with
    | getHead ch => cases ch <;> rfl
    | getLen ch => cases ch <;> rfl
    | getData ch => cases ch <;> rfl
    | getEnd ch => cases ch <;> rfl
    | _ => rfl

theorem blockOf_lt (s : RecvSM) : blockOf s < 15 := by
  cases s with
  | getHead ch => cases ch <;> decide
  | getLen ch => cases ch <;> decide
  | getData ch => cases ch <;> decide
  | getEnd ch => cases ch <;> decide
  | _ => decide

structure Placed (u : Usart) : Prop where
  running : u.block ≤ 15
  start : u.block = 0 → u.pos = 0
  before : u.block ≤ blockOf u.state → Before u
  long : ∀ ch, ch ≠ .b → u.state = .getEnd ch → 3 ≤ u.packLen

/-- The blocks of a call, one after the other. -/
inductive Ran (u : Usart) : Usart → Prop
  | call (finished : 15 ≤ u.block) : Ran u { u with pos := 0, block := 0 }
  | skip (running : u.block < 15) (other : u.block ≠ blockOf u.state) : Ran u { u with block := u.block + 1 }
  | work (u' : Usart) (turn : u.block = blockOf u.state) (worked : Work u u') : Ran u { u' with block := u.block + 1 }

theorem run_cases {u : Usart} (placed : Placed u) : Ran u u.run := by
  unfold run
  by_cases finished : u.block ≥ 15
  · rw [if_pos finished]
    exact Ran.call finished
  rw [if_neg finished]
  by_cases turn : u.block = blockOf u.state
  · rw [if_pos (blockState_iff.2 turn)]
    exact Ran.work u.work turn (work_cases (placed.before (Nat.le_of_eq turn)))
  · rw [if_neg (blockState_iff.not.2 turn)]
    exact Ran.skip (Nat.lt_of_not_le finished) turn

theorem Placed.worked {u u' : Usart} (placed : Placed u) (turn : u.block = blockOf u.state) (worked : Work u u') :
    Placed { u' with block := u.block + 1 } := by
  have running : u.block + 1 ≤ 15 := turn ▸ blockOf_lt u.state
  have started {P : Prop} (none : u.block + 1 = 0) : P := absurd none (Nat.succ_ne_zero _)
  cases worked with
  | wait pos timer id waits kept =>
    exact ⟨running, started, fun later => absurd later (by dsimp only; omega), placed.long⟩
  | restart type timer id bad =>
    exact ⟨running, started, fun later => absurd later (Nat.not_succ_le_zero _), fun _ _ same => by cases same⟩
  | channel ch state there head => exact ⟨running, started, fun _ => by simp [Before], fun _ _ same => by cases same⟩
  | socket state there head => exact ⟨running, started, fun _ => by simp [Before], fun _ _ same => by cases same⟩
  | socketData state there =>
    exact ⟨running, started, fun later => absurd later (Nat.not_succ_le_zero _), fun _ _ same => by cases same⟩
  | id ch id state type there stored =>
    refine ⟨running, started, fun _ => ?_, fun _ _ same => by cases same⟩
    cases ch <;> simp [Before]
  | head ch notB state there aps =>
    refine ⟨running, started, fun _ => ?_, fun _ _ same => by cases same⟩
    cases ch with
    | b => contradiction
    | a => simp [Before, lenEnd]
    | c => simp [Before, lenEnd]
  | headB state there reply => exact ⟨running, started, fun _ => by simp [Before], fun _ _ same => by cases same⟩
  | lenA state there => exact ⟨running, started, fun _ => trivial, fun _ _ same => by cases same⟩
  | lenC state there => exact ⟨running, started, fun _ => trivial, fun _ _ same => by cases same⟩
  | lenB state there single => exact ⟨running, started, fun _ => trivial, fun _ _ same => by cases same⟩
  | lenSecondB state there second => exact ⟨running, started, fun _ => trivial, fun _ _ same => by cases same⟩
  | data ch pos state there =>
    have long : ch ≠ .b → 3 ≤ u.packLen := by
      intro notB
      cases ch with
      | b => contradiction
      | a =>
        simp only [Ready, state] at there
        exact there.1
      | c =>
        simp only [Ready, state] at there
        exact there.1
    refine ⟨running, started, fun _ => ?_, fun other notB same => ?_⟩
    · cases ch with
      | b => trivial
      | a => exact long (by decide)
      | c => exact long (by decide)
    · obtain rfl := RecvSM.getEnd.inj same
      exact long notB
  | deliver ch notB state there long tail =>
    exact ⟨running, started, fun later => absurd later (Nat.not_succ_le_zero _), fun _ _ same => by cases same⟩
  | deliverB state =>
    exact ⟨running, started, fun later => absurd later (Nat.not_succ_le_zero _), fun _ _ same => by cases same⟩

theorem Placed.step {u : Usart} (placed : Placed u) (e : Event) : Placed (u.step e) := by
  cases e with
  | rx b => exact ⟨placed.running, placed.start, placed.before, placed.long⟩
  | tick =>
    show Placed u.tick
    unfold tick
    split
    · exact placed
    · split
      · refine ⟨placed.running, placed.start, fun first => ?_, nofun⟩
        have start := placed.start (Nat.le_zero.1 first)
        show u.pos ≤ 1
        omega
      · exact ⟨placed.running, placed.start, placed.before, placed.long⟩
  | run =>
    show Placed u.run
    have ran := run_cases placed
    generalize u.run = after at ran ⊢
    cases ran with
    | call finished =>
      refine ⟨Nat.zero_le _, fun _ => rfl, fun _ => ?_, placed.long⟩
      have long := placed.long
      cases state : u.state with
      | getHead ch => simp [Before]
      | getLen ch => cases ch <;> simp [Before]
      | getData ch => simp [Before]
      | getEnd ch =>
        cases ch with
        | b => simp [Before]
        | a => simpa [Before] using long .a (by decide) state
        | c => simpa [Before] using long .c (by decide) state
      | _ => simp [Before]
    | skip running other =>
      refine ⟨running, fun none => absurd none (Nat.succ_ne_zero _), fun later => ?_, placed.long⟩
      exact placed.before (Nat.le_of_succ_le later)
    | work u' turn worked => exact placed.worked turn worked

/-- Nothing received, no call running. -/
def init : Usart :=
  { rx := fun _ => nul }

theorem placed_steps {u : Usart} (placed : Placed u) (events : List Event) : Placed (u.steps events) := by
  induction events generalizing u with
  | nil => exact placed
  | cons e events ih => exact ih (placed.step e)

theorem placed_init : Placed init :=
  ⟨Nat.le_refl _, fun _ => rfl, nofun, nofun⟩

/-! ## Runs -/

theorem received_cons (e : Event) (events : List Event) : received (e :: events) = received [e] ++ received events := by
  cases e <;> rfl

/-- Something holds of every event of a run and the state it happens in. -/
def Along (P : Usart → Event → Prop) : Usart → List Event → Prop
  | _, [] => True
  | u, e :: events => P u e ∧ Along P (u.step e) events

instance decidableAlong (P : Usart → Event → Prop) [∀ u e, Decidable (P u e)] :
    ∀ u events, Decidable (Along P u events)
  | _, [] => isTrue trivial
  | u, e :: events =>
    have := decidableAlong P (u.step e) events
    inferInstanceAs (Decidable (P u e ∧ Along P (u.step e) events))

theorem along_append {P : Usart → Event → Prop} {u : Usart} {before after : List Event} :
    Along P u (before ++ after) ↔ Along P u before ∧ Along P (u.steps before) after := by
  induction before generalizing u with
  | nil => exact (Iff.of_eq (true_and _)).symm
  | cons e before ih =>
    show P u e ∧ Along P (u.step e) (before ++ after) ↔ (P u e ∧ Along P (u.step e) before) ∧ _
    rw [ih, and_assoc]
    rfl

theorem steps_append (u : Usart) (before after : List Event) :
    u.steps (before ++ after) = (u.steps before).steps after :=
  List.foldl_append

/-- The timer drops what has been received. -/
def Resets (u : Usart) (e : Event) : Prop :=
  e = .tick ∧ ∃ usartFlag ∈ u.timer, 1 < usartFlag + 1

instance (u : Usart) (e : Event) : Decidable (Resets u e) :=
  inferInstanceAs (Decidable (_ ∧ _))

theorem tick_of_not_resets {u : Usart} (runs : ¬ Resets u .tick) : ∃ timer, u.tick = { u with timer := timer } := by
  unfold tick
  split
  · exact ⟨u.timer, rfl⟩
  · rename_i usartFlag timer
    exact ⟨_, if_neg fun late => runs ⟨rfl, usartFlag, timer, late⟩⟩

/-- The blocks to go until the one of the state has had its turn and the call is over. -/
def turns (u : Usart) : Nat :=
  if u.block ≤ blockOf u.state then 15 - u.block else 31 - u.block

/-- A call starts and runs its fifteen blocks. -/
def callLength : Nat := 16

/-- A block whose bytes are there moves on to a later block of the call. -/
theorem Work.later {u u' : Usart} (worked : Work u u') (ready : Ready u) (good : ¬ Bad u) (log : u'.log = u.log) :
    blockOf u.state < blockOf u'.state := by
  cases worked with
  | wait pos timer id waits kept => exact absurd ready waits
  | restart type timer id bad => exact absurd bad good
  | channel ch state there head =>
    rw [state]
    dsimp only
    decide
  | socket state there head =>
    rw [state]
    dsimp only
    decide
  | socketData state there => exact absurd log (by simp [Usart.deliver])
  | id ch id state type there stored =>
    rw [state]
    cases ch <;> simp [blockOf]
  | head ch notB state there aps =>
    rw [state]
    cases ch <;> simp [blockOf]
  | headB state there reply =>
    rw [state]
    dsimp only
    decide
  | lenA state there =>
    rw [state]
    dsimp only
    decide
  | lenC state there =>
    rw [state]
    dsimp only
    decide
  | lenB state there single =>
    rw [state]
    dsimp only
    decide
  | lenSecondB state there second =>
    rw [state]
    dsimp only
    decide
  | data ch pos state there =>
    rw [state]
    cases ch <;> simp [blockOf]
  | deliver ch notB state there long tail => exact absurd log (by simp [Usart.deliver])
  | deliverB state => exact absurd log (by simp [Usart.deliver])

theorem Ran.turns_lt {u u' : Usart} (ran : Ran u u') (placed : Placed u) (ready : Ready u) (good : ¬ Bad u)
    (log : u'.log = u.log) : turns u' < turns u := by
  have small := blockOf_lt u.state
  have running := placed.running
  unfold turns
  cases ran with
  | call finished =>
    dsimp only
    split_ifs <;> omega
  | skip running other =>
    dsimp only
    split_ifs <;> omega
  | work u' turn worked =>
    have later := worked.later ready good log
    dsimp only
    split_ifs <;> omega

section Settles

variable {P : Usart → Event → Prop} {I D : Usart → Prop}

theorem steps_stays (stays : ∀ u e, Placed u → D u → received [e] = [] → D (u.step e)) {u : Usart} (placed : Placed u)
    (done : D u) {polls : List Event} (quiet : received polls = []) : D (u.steps polls) := by
  induction polls generalizing u with
  | nil => exact done
  | cons e polls ih =>
    rw [received_cons, List.append_eq_nil_iff] at quiet
    exact ih (placed.step e) (stays u e placed done quiet.1) quiet.2

/-- While the bytes that every state waits for are there, two calls are enough to be done. -/
theorem settles (ready : ∀ u, I u → Ready u ∧ ¬ Bad u) (quietly : ∀ u e, P u e → ¬ Resets u e)
    (steps : ∀ u e, Placed u → I u → P u e → received [e] = [] → (I (u.step e) ∧ (u.step e).log = u.log) ∨ D (u.step e))
    (stays : ∀ u e, Placed u → D u → received [e] = [] → D (u.step e)) {u : Usart} (placed : Placed u) (holds : I u)
    {polls : List Event} (along : Along P u polls) (quiet : received polls = []) (often : turns u ≤ polls.count .run) :
    D (u.steps polls) := by
  induction polls generalizing u with
  | nil =>
    have small := blockOf_lt u.state
    have running := placed.running
    rw [List.count_nil, turns] at often
    split_ifs at often <;> omega
  | cons e polls ih =>
    rw [received_cons, List.append_eq_nil_iff] at quiet
    rcases steps u e placed holds along.1 quiet.1 with ⟨next, log⟩ | done
    · refine ih (placed.step e) next along.2 quiet.2 ?_
      cases e with
      | rx b => simp [received] at quiet
      | tick =>
        obtain ⟨timer, same⟩ := tick_of_not_resets (quietly u .tick along.1)
        rw [show u.step .tick = { u with timer := timer } from same]
        rw [List.count_cons_of_ne (by decide)] at often
        exact often
      | run =>
        have fewer := (run_cases placed).turns_lt placed (ready u holds).1 (ready u holds).2 log
        rw [List.count_cons_self] at often
        exact Nat.le_of_lt_succ (Nat.lt_of_lt_of_le fewer often)
    · exact steps_stays stays (placed.step e) done quiet.2

theorem turns_le (u : Usart) : turns u ≤ 2 * callLength := by
  unfold turns callLength
  split_ifs <;> omega

end Settles

end Usart

end Ecu.Wifi
