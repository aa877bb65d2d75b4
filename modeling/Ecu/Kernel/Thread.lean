import Mathlib

/-!
# Threads and the scheduler (`thread.c`, `scheduler.c`, `kservice.c`)

A thread has one list node, so it is in one list at most: the ready list of a priority or the list of those that wait
for a mutex. `rt_thread_ready_priority_group` has a bit for every ready list that is not empty. A thread's timer is on
or off here; when it fires is left to the runs. The functions run with interrupts off.
-/

namespace Ecu.Kernel

/-- `RT_THREAD_INIT` and the others. -/
inductive Stat where
  | init | ready | suspend | close
deriving DecidableEq

/-- `thread->error` -/
inductive Err where
  | eok | error | etimeout
deriving DecidableEq

structure Thread where
  stat : Stat
  initPriority : Nat
  currentPriority : Nat
  numberMask : Nat
  error : Err
  /-- `RT_TIMER_FLAG_ACTIVATED` of `thread_timer` -/
  timer : Bool

/-- `RT_IPC_FLAG_FIFO` and `RT_IPC_FLAG_PRIO` -/
inductive IpcFlag where
  | fifo | prio
deriving DecidableEq

structure RtMutex where
  flag : IpcFlag
  value : Nat
  originalPriority : Nat
  hold : Nat
  owner : Option Nat

/-- The lists that a thread may be in: `rt_thread_priority_table[p]`, `suspend_thread` of a mutex. -/
inductive Place where
  | ready (p : Nat)
  | mutex (m : Nat)
deriving DecidableEq

/-- The state of the kernel. -/
structure Rt where
  thread : Nat → Thread
  lists : Place → List Nat
  readyPriorityGroup : Nat
  current : Nat
  currentPriority : Nat
  lockNest : Nat
  mutex : Nat → RtMutex

/-! ## `__rt_ffs` -/

def lowestBitBitmap : List Nat :=
  [0, 0, 1, 0, 2, 0, 1, 0, 3, 0, 1, 0, 2, 0, 1, 0,
   4, 0, 1, 0, 2, 0, 1, 0, 3, 0, 1, 0, 2, 0, 1, 0,
   5, 0, 1, 0, 2, 0, 1, 0, 3, 0, 1, 0, 2, 0, 1, 0,
   4, 0, 1, 0, 2, 0, 1, 0, 3, 0, 1, 0, 2, 0, 1, 0,
   6, 0, 1, 0, 2, 0, 1, 0, 3, 0, 1, 0, 2, 0, 1, 0,
   4, 0, 1, 0, 2, 0, 1, 0, 3, 0, 1, 0, 2, 0, 1, 0,
   5, 0, 1, 0, 2, 0, 1, 0, 3, 0, 1, 0, 2, 0, 1, 0,
   4, 0, 1, 0, 2, 0, 1, 0, 3, 0, 1, 0, 2, 0, 1, 0,
   7, 0, 1, 0, 2, 0, 1, 0, 3, 0, 1, 0, 2, 0, 1, 0,
   4, 0, 1, 0, 2, 0, 1, 0, 3, 0, 1, 0, 2, 0, 1, 0,
   5, 0, 1, 0, 2, 0, 1, 0, 3, 0, 1, 0, 2, 0, 1, 0,
   4, 0, 1, 0, 2, 0, 1, 0, 3, 0, 1, 0, 2, 0, 1, 0,
   6, 0, 1, 0, 2, 0, 1, 0, 3, 0, 1, 0, 2, 0, 1, 0,
   4, 0, 1, 0, 2, 0, 1, 0, 3, 0, 1, 0, 2, 0, 1, 0,
   5, 0, 1, 0, 2, 0, 1, 0, 3, 0, 1, 0, 2, 0, 1, 0,
   4, 0, 1, 0, 2, 0, 1, 0, 3, 0, 1, 0, 2, 0, 1, 0]

def rtFfs (value : Nat) : Nat :=
  if value = 0 then 0
  else if value &&& 0xff ≠ 0 then lowestBitBitmap.getD (value &&& 0xff) 0 + 1
  else if value &&& 0xff00 ≠ 0 then lowestBitBitmap.getD ((value &&& 0xff00) >>> 8) 0 + 9
  else if value &&& 0xff0000 ≠ 0 then lowestBitBitmap.getD ((value &&& 0xff0000) >>> 16) 0 + 17
  else lowestBitBitmap.getD ((value &&& 0xff000000) >>> 24) 0 + 25

namespace Rt

variable (k : Rt)

def setThread (t : Nat) (th : Thread) : Rt :=
  { k with thread := Function.update k.thread t th }

/-- `rt_list_remove(&thread->tlist)` -/
def listRemove (t : Nat) : Rt :=
  { k with lists := fun l => (k.lists l).filter (· ≠ t) }

/-- `rt_list_insert_before` the head of a list. -/
def listAppend (l : Place) (t : Nat) : Rt :=
  { k with lists := Function.update k.lists l (k.lists l ++ [t]) }

/-! ## `scheduler.c` -/

/-- `rt_schedule`; nothing where no thread is ready. -/
def schedule : Option Rt :=
  if k.lockNest = 0 then
    let highestReadyPriority := rtFfs k.readyPriorityGroup - 1
    match k.lists (.ready highestReadyPriority) with
    | [] => none
    | toThread :: _ =>
      if toThread ≠ k.current then
        some { k with currentPriority := highestReadyPriority, current := toThread }
      else some k
  else some k

/-- `rt_schedule_insert_thread` -/
def scheduleInsert (t : Nat) : Rt :=
  let k := k.setThread t { k.thread t with stat := .ready }
  let k := k.listAppend (.ready (k.thread t).currentPriority) t
  { k with readyPriorityGroup := k.readyPriorityGroup ||| (k.thread t).numberMask }

/-- `rt_schedule_remove_thread` -/
def scheduleRemove (t : Nat) : Rt :=
  let k := k.listRemove t
  if k.lists (.ready (k.thread t).currentPriority) = [] then
    { k with readyPriorityGroup := k.readyPriorityGroup &&& ((k.thread t).numberMask ^^^ 0xffffffff) }
  else k

def enterCritical : Rt :=
  { k with lockNest := k.lockNest + 1 }

/-- `rt_exit_critical` before its `rt_schedule`, and whether that comes. -/
def exitCritical : Rt × Bool :=
  let lockNest := k.lockNest - 1
  ({ k with lockNest := lockNest }, decide (lockNest = 0))

/-! ## `thread.c` -/

def threadSuspend (t : Nat) : Rt :=
  if (k.thread t).stat ≠ .ready then k
  else
    let k := k.setThread t { k.thread t with stat := .suspend }
    let k := k.scheduleRemove t
    k.setThread t { k.thread t with timer := false }

def threadResume (t : Nat) : Rt :=
  if (k.thread t).stat ≠ .suspend then k
  else
    let k := k.listRemove t
    let k := k.setThread t { k.thread t with timer := false }
    k.scheduleInsert t

/-- `rt_thread_startup` before the scheduler has been started. -/
def threadStartup (t : Nat) : Rt :=
  let priority := (k.thread t).initPriority
  let k := k.setThread t
    { k.thread t with currentPriority := priority, numberMask := 1 <<< priority, stat := .suspend }
  k.threadResume t

/-- `rt_thread_control` with `RT_THREAD_CTRL_CHANGE_PRIORITY` -/
def changePriority (t priority : Nat) : Rt :=
  if (k.thread t).stat = .ready then
    let k := k.scheduleRemove t
    let k := k.setThread t { k.thread t with currentPriority := priority, numberMask := 1 <<< priority }
    k.scheduleInsert t
  else k.setThread t { k.thread t with currentPriority := priority, numberMask := 1 <<< priority }

/-- `rt_thread_timeout` before its `rt_schedule`, with the end of `rt_timer_check` for a timer that fires once. -/
def threadTimeout (t : Nat) : Rt :=
  let k := k.setThread t { k.thread t with error := .etimeout }
  let k := k.listRemove t
  let k := k.scheduleInsert t
  k.setThread t { k.thread t with timer := false }

/-- `rt_thread_yield` before its `rt_schedule`, and whether that comes. -/
def threadYield : Rt × Bool :=
  let thread := k.thread k.current
  -- tlist.next and tlist.prev are the same only where there is no other node than the head
  if thread.stat = .ready ∧ 1 < (k.lists (.ready thread.currentPriority)).length then
    (((k.listRemove k.current).listAppend (.ready thread.currentPriority) k.current), true)
  else (k, false)

/-- `rt_thread_sleep` before its `rt_schedule`. -/
def threadSleep : Rt :=
  let k := k.threadSuspend k.current
  k.setThread k.current { k.thread k.current with timer := true }

/-! ## `ipc.c` -/

/-- The threads of a list in front of which a thread of this priority is not put. -/
def notBehind (priority : Nat) (s : Nat) : Bool :=
  decide (¬ priority < (k.thread s).currentPriority)

/-- `rt_ipc_list_suspend` -/
def ipcListSuspend (m t : Nat) (flag : IpcFlag) : Rt :=
  let k := k.threadSuspend t
  match flag with
  | .fifo => k.listAppend (.mutex m) t
  | .prio =>
    let priority := (k.thread t).currentPriority
    let list := k.lists (.mutex m)
    { k with
      lists := Function.update k.lists (.mutex m)
        (list.takeWhile (k.notBehind priority) ++ t :: list.dropWhile (k.notBehind priority)) }

def setMutex (m : Nat) (mutex : RtMutex) : Rt :=
  { k with mutex := Function.update k.mutex m mutex }

/-- How far `rt_mutex_take` goes before its `rt_schedule`: it is over, or the thread has to wait. -/
inductive Taken where
  | returns (err : Err)
  | waits
deriving DecidableEq

/-- `rt_mutex_take` up to its `rt_schedule`. -/
def mutexTake (m : Nat) (time : Int) : Rt × Taken :=
  let t := k.current
  let k := k.setThread t { k.thread t with error := .eok }
  let mutex := k.mutex m
  if mutex.owner = some t then
    -- it's the same thread
    (k.setMutex m { mutex with hold := (mutex.hold + 1) % 256 }, .returns .eok)
  else if mutex.value > 0 then
    (k.setMutex m
      { mutex with
        value := mutex.value - 1
        owner := some t
        originalPriority := (k.thread t).currentPriority
        hold := (mutex.hold + 1) % 256 }, .returns .eok)
  else if time = 0 then
    (k.setThread t { k.thread t with error := .etimeout }, .returns .etimeout)
  else
    let priority := (k.thread t).currentPriority
    -- change the owner thread priority of mutex
    let k :=
      match mutex.owner with
      | some owner => if priority < (k.thread owner).currentPriority then k.changePriority owner priority else k
      | none => k
    let k := k.ipcListSuspend m t mutex.flag
    let k := if time > 0 then k.setThread t { k.thread t with timer := true } else k
    (k, .waits)

/-- `rt_mutex_release` before its `rt_schedule`: its result, and whether that comes. -/
def mutexRelease (m : Nat) : Rt × Err × Bool :=
  let t := k.current
  if (k.mutex m).owner ≠ some t then
    (k.setThread t { k.thread t with error := .error }, .error, false)
  else
    let hold := ((k.mutex m).hold + 255) % 256
    let k := k.setMutex m { k.mutex m with hold := hold }
    if hold = 0 then
      -- change the owner thread to original priority
      let k :=
        if (k.mutex m).originalPriority ≠ (k.thread t).currentPriority then
          k.changePriority t (k.mutex m).originalPriority
        else k
      match k.lists (.mutex m) with
      | thread :: _ =>
        -- set new owner and priority
        let k := k.setMutex m
          { k.mutex m with
            owner := some thread
            originalPriority := (k.thread thread).currentPriority
            hold := ((k.mutex m).hold + 1) % 256 }
        (k.threadResume thread, .eok, true)
      | [] =>
        let k := k.setMutex m
          { k.mutex m with value := (k.mutex m).value + 1, owner := none, originalPriority := 0xff }
        (k, .eok, false)
    else (k, .eok, false)

end Rt

end Ecu.Kernel
