import Ecu.Lib.Runs
import Ecu.Kernel.ThreadLists

/-!
# Threads that call the kernel

The threads are started before the scheduler is, the idle thread last. From then on the current thread makes calls or
goes on within one, a thread timer fires, or the time slice of the current thread is over. A call that ends in
`rt_schedule` is taken in parts, with interrupts on between them, so that a timer or another thread may come first.
-/

namespace Ecu.Kernel

/-- Where a thread stands. -/
inductive Pc where
  /-- in its own code -/
  | user
  /-- in `rt_mutex_take`, before and after `rt_schedule` -/
  | waits (m : Nat)
  | woken (m : Nat)
  /-- before the `rt_schedule` with which a call ends -/
  | switching
  /-- in `rt_thread_sleep`, before and after `rt_schedule` -/
  | sleeps
  | slept
deriving DecidableEq

structure Sys where
  rt : Rt
  pc : Nat → Pc
  /-- The mutexes that a thread took and did not release, by the results of its calls, the last one first. -/
  held : Nat → List Nat

inductive Event where
  | take (m : Nat) (time : Int)
  | release (m : Nat)
  | yield
  | delay
  | enterCritical
  | exitCritical
  | startup (t : Nat)
  /-- the rest of a call, up to its next part -/
  | goOn
  | timeout (t : Nat)
  | slice
deriving DecidableEq

namespace Sys

variable (s : Sys)

def current : Nat := s.rt.current

def setPc (t : Nat) (pc : Pc) : Sys :=
  { s with pc := Function.update s.pc t pc }

def push (t m : Nat) : Sys :=
  { s with held := Function.update s.held t (m :: s.held t) }

def pop (t m : Nat) : Sys :=
  { s with held := Function.update s.held t ((s.held t).erase m) }

/-- What a program may call: it does not block the idle thread nor with the scheduler locked, and counts no further
than `hold` and `rt_scheduler_lock_nest` do. A timer fires when it is on. -/
def Legal (idle : Nat) : Event → Prop
  | .take m time =>
    s.pc s.current = .user ∧ ((s.rt.mutex m).owner = some s.current → (s.rt.mutex m).hold < 255) ∧
      ((s.rt.mutex m).owner ≠ some s.current → (s.rt.mutex m).value = 0 → time ≠ 0 →
        s.rt.lockNest = 0 ∧ s.current ≠ idle)
  | .delay => s.pc s.current = .user ∧ s.rt.lockNest = 0 ∧ s.current ≠ idle
  | .startup t => s.pc s.current = .user ∧ (s.rt.thread t).stat = .init
  | .enterCritical => s.pc s.current = .user ∧ s.rt.lockNest < 32767
  | .release _ | .yield | .exitCritical => s.pc s.current = .user
  | .goOn => s.pc s.current ≠ .user
  | .timeout t => (s.rt.thread t).timer = true
  | .slice => True

instance (idle : Nat) : (e : Event) → Decidable (s.Legal idle e)
  | .take _ _ => inferInstanceAs (Decidable (_ ∧ (_ → _) ∧ (_ → _ → _ → _ ∧ _)))
  | .delay => inferInstanceAs (Decidable (_ ∧ _ ∧ _))
  | .startup _ | .enterCritical => inferInstanceAs (Decidable (_ ∧ _))
  | .release _ | .yield | .exitCritical => inferInstanceAs (Decidable (_ = _))
  | .goOn => inferInstanceAs (Decidable (_ ≠ _))
  | .timeout _ => inferInstanceAs (Decidable (_ = _))
  | .slice => inferInstanceAs (Decidable True)

/-- The result of `rt_mutex_take`. -/
def takes (t m : Nat) (err : Err) : Sys :=
  if err = .eok then s.push t m else s

/-- The result of `rt_mutex_release`. -/
def releases (t m : Nat) (err : Err) : Sys :=
  if err = .eok then s.pop t m else s

/-- `rt_schedule`, after which the thread that called it stands at `pc`. -/
def schedule (t : Nat) (pc : Pc) : Option Sys :=
  s.rt.schedule.map fun rt => { s with rt := rt }.setPc t pc

/-- The current thread goes on. -/
def goOn : Option Sys :=
  let t := s.current
  match s.pc t with
  | .user => none
  | .waits m => s.schedule t (.woken m)
  | .woken m => some ((s.takes t m (s.rt.thread t).error).setPc t .user)
  | .switching => s.schedule t .user
  | .sleeps => s.schedule t .slept
  | .slept =>
    -- clear error number of this thread to RT_EOK
    let err := if (s.rt.thread t).error = .etimeout then .eok else (s.rt.thread t).error
    some ({ s with rt := s.rt.setThread t { s.rt.thread t with error := err } }.setPc t .user)

def next : Event → Option Sys
  | .take m time =>
    let t := s.current
    match s.rt.mutexTake m time with
    | (rt, .returns err) => some ({ s with rt := rt }.takes t m err)
    | (rt, .waits) => some ({ s with rt := rt }.setPc t (.waits m))
  | .release m =>
    let t := s.current
    match s.rt.mutexRelease m with
    | (rt, err, needSchedule) =>
      let s := { s with rt := rt }.releases t m err
      some (if needSchedule then s.setPc t .switching else s)
  | .yield =>
    match s.rt.threadYield with
    | (rt, needSchedule) =>
      let s' := { s with rt := rt }
      some (if needSchedule then s'.setPc s.current .switching else s')
  | .delay => some ({ s with rt := s.rt.threadSleep }.setPc s.current .sleeps)
  | .enterCritical => some { s with rt := s.rt.enterCritical }
  | .exitCritical =>
    match s.rt.exitCritical with
    | (rt, needSchedule) =>
      let s' := { s with rt := rt }
      some (if needSchedule then s'.setPc s.current .switching else s')
  | .startup t => some ({ s with rt := s.rt.threadStartup t }.setPc s.current .switching)
  | .goOn => s.goOn
  | .timeout t => (s.rt.threadTimeout t).schedule.map fun rt => { s with rt := rt }
  | .slice =>
    match s.rt.threadYield with
    | (rt, needSchedule) =>
      if needSchedule then rt.schedule.map fun rt => { s with rt := rt } else some { s with rt := rt }

/-- An event that may come. -/
def step (idle : Nat) (s : Sys) (e : Event) : Option Sys :=
  if s.Legal idle e then s.next e else none

end Sys

/-! ## The start -/

/-- Before the first thread is started; there is no current thread yet. -/
def Rt.empty (priority : Nat → Nat) (flag : Nat → IpcFlag) (idle : Nat) : Rt where
  thread t :=
    { stat := .init
      initPriority := priority t
      currentPriority := priority t
      numberMask := 0
      error := .eok
      timer := false }
  lists _ := []
  readyPriorityGroup := 0
  current := idle
  currentPriority := 31
  lockNest := 0
  mutex m :=
    { flag := flag m
      value := 1
      originalPriority := 0xff
      hold := 0
      owner := none }

/-- `rt_system_scheduler_start`; nothing where no thread is ready. -/
def Rt.schedulerStart (k : Rt) : Option Rt :=
  match k.lists (.ready (rtFfs k.readyPriorityGroup - 1)) with
  | [] => none
  | toThread :: _ => some { k with current := toThread }

/-- `rtthread_startup`, with the threads that `rt_application_init` starts. -/
def Sys.boot (priority : Nat → Nat) (flag : Nat → IpcFlag) (threads : List Nat) (idle : Nat) : Option Sys :=
  (((threads ++ [idle]).foldl Rt.threadStartup (Rt.empty priority flag idle)).schedulerStart).map fun rt =>
    { rt := rt
      pc := fun _ => .user
      held := fun _ => [] }

/-- What a run leads to. -/
def Sys.run (priority : Nat → Nat) (flag : Nat → IpcFlag) (threads : List Nat) (idle : Nat) (events : List Event) :
    Option Sys :=
  (Sys.boot priority flag threads idle).bind (Runs.run (Sys.step idle) events)

end Ecu.Kernel
