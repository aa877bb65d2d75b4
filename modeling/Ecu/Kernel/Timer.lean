import Ecu.Lib.Runs
import Ecu.Kernel.Heap

/-!
# Timers (`timer.c`, `clock.c`)

The timers that have been started are in one list (`RT_TIMER_SKIP_LIST_LEVEL` is 1) in the order of their
`timeout_tick`, which is compared through differences of the 32-bit tick. `rt_tick_increase` goes through its head.
-/

namespace Ecu.Kernel

/-- `RT_TICK_MAX / 2` -/
def halfTick : Nat := 0xffffffff / 2

structure RtTimer where
  initTick : Nat
  timeoutTick : Nat
  /-- `RT_TIMER_FLAG_ACTIVATED` and `RT_TIMER_FLAG_PERIODIC` -/
  activated : Bool
  periodic : Bool

structure Timers where
  tick : Nat
  timer : Nat → RtTimer
  /-- `rt_timer_list` -/
  list : List Nat

namespace Timers

/-- What may be done with a timer. -/
inductive Op where
  | start (t : Nat)
  | stop (t : Nat)
  | detach (t : Nat)
  | setTime (t time : Nat)
  | setOneshot (t : Nat)
  | setPeriodic (t : Nat)
deriving DecidableEq

def Op.timer : Op → Nat
  | .start t | .stop t | .detach t | .setTime t _ | .setOneshot t | .setPeriodic t => t

variable (s : Timers)

def setTimer (t : Nat) (timer : RtTimer) : Timers :=
  { s with timer := Function.update s.timer t timer }

/-- `_rt_timer_remove` -/
def remove (t : Nat) : Timers :=
  { s with list := s.list.filter (· ≠ t) }

@[simp] theorem setTimer_self (t : Nat) (timer : RtTimer) : (s.setTimer t timer).timer t = timer :=
  Function.update_self ..

theorem setTimer_of_ne {t u : Nat} (ne : u ≠ t) (timer : RtTimer) : (s.setTimer t timer).timer u = s.timer u :=
  Function.update_of_ne ne ..

@[simp] theorem remove_timer (t : Nat) : (s.remove t).timer = s.timer :=
  rfl

/-- `rt_timer_start` up to where it turns the interrupts off again; nothing where its assertion fails. -/
def startBegin (t : Nat) : Option Timers :=
  let s := s.remove t
  let s := s.setTimer t { s.timer t with activated := false }
  if (s.timer t).initTick < halfTick then
    some (s.setTimer t { s.timer t with timeoutTick := (s.tick + (s.timer t).initTick) % 2 ^ 32 })
  else none

/-- The list with `t` in it, from here on. -/
def insertRow (t : Nat) : List Nat → List Nat
  | [] => [t]
  | u :: row =>
    -- the new timer goes behind those that time out with it
    if sub32 (s.timer u).timeoutTick (s.timer t).timeoutTick = 0 then u :: insertRow t row
    else if sub32 (s.timer u).timeoutTick (s.timer t).timeoutTick < halfTick then t :: u :: row
    else u :: insertRow t row

/-- The rest of `rt_timer_start`. -/
def startEnd (t : Nat) : Timers :=
  let s := { s with list := s.insertRow t s.list }
  s.setTimer t { s.timer t with activated := true }

/-- `rt_timer_start` with the interrupts off all the time. -/
def timerStart (t : Nat) : Option Timers :=
  (s.startBegin t).map fun s => s.startEnd t

/-- `rt_timer_stop` -/
def timerStop (t : Nat) : Timers :=
  if (s.timer t).activated = false then s
  else
    let s := s.remove t
    s.setTimer t { s.timer t with activated := false }

/-- `rt_timer_start`, `rt_timer_stop`, `rt_timer_detach` and `rt_timer_control`. -/
def op : Op → Option Timers
  | .start t => s.timerStart t
  | .stop t => some (s.timerStop t)
  | .detach t => some (s.remove t)
  | .setTime t time => some (s.setTimer t { s.timer t with initTick := time })
  | .setOneshot t => some (s.setTimer t { s.timer t with periodic := false })
  | .setPeriodic t => some (s.setTimer t { s.timer t with periodic := true })

/-- What a timeout function does with the timers. -/
def ops : List Op → Timers → Option Timers
  | [], s => some s
  | o :: os, s => (s.op o).bind (ops os)

/-- What comes after the timeout function of `t` has been called. -/
def timerAgain (t : Nat) : Option Timers :=
  let again := (s.timer t).periodic && (s.timer t).activated
  let s := s.setTimer t { s.timer t with activated := false }
  if again then s.timerStart t else some s

/-- The loop of `rt_timer_check` and the timers that it calls; nothing where it goes on for more than these rounds. -/
def timerCheck (callback : Nat → List Op) : Nat → Timers → Option (Timers × List Nat)
  | 0, _ => none
  | rounds + 1, s =>
    match s.list with
    | [] => some (s, [])
    | t :: _ =>
      if sub32 s.tick (s.timer t).timeoutTick < halfTick then
        ((ops (callback t) (s.remove t)).bind fun s => s.timerAgain t).bind fun s =>
          (timerCheck callback rounds s).map fun r => (r.1, t :: r.2)
      else some (s, [])

/-- The tick and the timers in `rt_tick_increase`. -/
def tickIncrease (callback : Nat → List Op) (rounds : Nat) : Option (Timers × List Nat) :=
  timerCheck callback rounds { s with tick := (s.tick + 1) % 2 ^ 32 }

/-- `rt_system_timer_init`, with the timers as `rt_timer_init` leaves them. -/
def empty (time : Nat → Nat) (periodic : Nat → Bool) : Timers where
  tick := 0
  timer t :=
    { initTick := time t
      timeoutTick := 0
      activated := false
      periodic := periodic t }
  list := []

end Timers

/-! ## Runs -/

structure Clock where
  timers : Timers
  /-- Within `rt_timer_start`, where the interrupts are on. -/
  starting : Nat → Bool
  /-- The timers whose functions have been called, the first one first. -/
  calls : List Nat

namespace Clock

inductive Event where
  | op (o : Timers.Op)
  /-- the two parts of `rt_timer_start` with interrupts on between them -/
  | begin (t : Nat)
  | insert (t : Nat)
  | tick (rounds : Nat)
deriving DecidableEq

def Event.Touches (t : Nat) : Event → Prop
  | .op o => o.timer = t
  | .begin u | .insert u => u = t
  | .tick _ => False

variable (late : Nat) (callback : Nat → List Timers.Op)

/-- The times are less than half a turn. -/
def Small : Timers.Op → Prop
  | .setTime _ time => time + late < halfTick
  | _ => True

/-- A timer is started by one thread at a time and is not put into the list when it has timed out long ago. -/
def Legal (c : Clock) : Event → Prop
  | .op o => Small late o ∧ c.starting o.timer = false
  | .begin t => c.starting t = false
  | .insert t => c.starting t = true ∧ t ∉ c.timers.list ∧
      sub32 ((c.timers.timer t).timeoutTick + late) c.timers.tick < halfTick
  | .tick _ => True

instance (o : Timers.Op) : Decidable (Small late o) :=
  match o with
  | .setTime _ _ => inferInstanceAs (Decidable (_ < _))
  | .start _ | .stop _ | .detach _ | .setOneshot _ | .setPeriodic _ => inferInstanceAs (Decidable True)

instance (c : Clock) : (e : Event) → Decidable (c.Legal late e)
  | .op _ => inferInstanceAs (Decidable (_ ∧ _))
  | .begin _ => inferInstanceAs (Decidable (_ = _))
  | .insert _ => inferInstanceAs (Decidable (_ ∧ _ ∧ _))
  | .tick _ => inferInstanceAs (Decidable True)

def next (c : Clock) : Event → Option Clock
  | .op o => (c.timers.op o).map fun timers => { c with timers := timers }
  | .begin t =>
    (c.timers.startBegin t).map fun timers => { c with timers := timers, starting := Function.update c.starting t true }
  | .insert t => some { c with timers := c.timers.startEnd t, starting := Function.update c.starting t false }
  | .tick rounds =>
    (c.timers.tickIncrease callback rounds).map fun r => { c with timers := r.1, calls := c.calls ++ r.2 }

def step (c : Clock) (e : Event) : Option Clock :=
  if c.Legal late e then c.next callback e else none

def start (time : Nat → Nat) (periodic : Nat → Bool) : Clock where
  timers := .empty time periodic
  starting _ := false
  calls := []

end Clock

end Ecu.Kernel
