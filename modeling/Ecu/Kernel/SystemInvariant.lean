import Ecu.Kernel.MutexCalls

/-!
# What holds in every state

A thread in its own code or at the end of a call is ready; one within `rt_mutex_take` waits in the list of the mutex,
has been timed out, or has been made the owner. A mutex is free with nobody waiting, or held. The idle thread is ready.
-/

namespace Ecu.Kernel

/-- What a thread is within. -/
inductive Stay where
  | own
  | mutex (m : Nat)
  | sleep
deriving DecidableEq

def Pc.stay : Pc → Stay
  | .user | .switching => .own
  | .waits m | .woken m => .mutex m
  | .sleeps | .slept => .sleep

/-- Where the thread has not yet called `rt_schedule` to wait. -/
def Pc.parting : Pc → Bool
  | .waits _ | .sleeps => true
  | _ => false

def RtMutex.Free (x : RtMutex) : Prop :=
  x.owner = none ∧ x.value = 1 ∧ x.hold = 0

structure RtMutex.Held (x : RtMutex) (o : Nat) : Prop where
  owner : x.owner = some o
  value : x.value = 0
  positive : 0 < x.hold
  small : x.hold < 256
  priority : x.originalPriority < 32

namespace Sys

/-- The thread is within `rt_mutex_take`. -/
inductive Waiting (s : Sys) (t m : Nat) : Prop where
  | waits (stat : (s.rt.thread t).stat = .suspend) (mem : t ∈ s.rt.lists (.mutex m)) (eok : (s.rt.thread t).error = .eok)
      (other : (s.rt.mutex m).owner ≠ some t)
  | late (stat : (s.rt.thread t).stat = .ready) (etimeout : (s.rt.thread t).error = .etimeout)
      (other : (s.rt.mutex m).owner ≠ some t)
  | owns (stat : (s.rt.thread t).stat = .ready) (eok : (s.rt.thread t).error = .eok)
      (owner : (s.rt.mutex m).owner = some t) (hold : (s.rt.mutex m).hold = 1)

structure Inv (idle : Nat) (s : Sys) : Prop where
  queues : Queues s.rt none
  free : ∀ m, ((s.rt.mutex m).Free ∧ s.rt.lists (.mutex m) = []) ∨
    ∃ o, (s.rt.mutex m).Held o ∧ (s.rt.thread o).stat ≠ .init
  waiter : ∀ t m, t ∈ s.rt.lists (.mutex m) → (s.pc t).stay = .mutex m
  own : ∀ t, (s.pc t).stay = .own → (s.rt.thread t).stat ≠ .suspend
  waiting : ∀ t m, (s.pc t).stay = .mutex m → s.Waiting t m
  sleep : ∀ t, (s.pc t).stay = .sleep → (s.rt.thread t).stat ≠ .init
  initial : ∀ t, (s.rt.thread t).stat = .init → (s.pc t).stay = .own ∧ s.held t = []
  started : ∀ t, (s.rt.thread t).initPriority < 32
  alive : ∀ t, (s.rt.thread t).stat ≠ .close
  timer : ∀ t, (s.rt.thread t).timer = true → (s.rt.thread t).stat = .suspend
  running : (s.rt.thread s.rt.current).stat = .ready ∨
    (s.rt.thread s.rt.current).stat = .suspend ∧ s.rt.lockNest = 0 ∧ (s.pc s.rt.current).parting = true
  idle : (s.rt.thread idle).stat = .ready
  held : ∀ t m, (s.held t).count m =
    if (s.rt.mutex m).owner = some t ∧ (s.pc t).stay ≠ .mutex m then (s.rt.mutex m).hold else 0

namespace Inv

variable {idle : Nat} {s s' : Sys}

/-- What does not change where a thread is: other fields of the threads, the order of the ready threads, the current
thread. -/
theorem frame (inv : Inv idle s) (queues : Queues s'.rt none) (mutex : s'.rt.mutex = s.rt.mutex)
    (lists : ∀ m, s'.rt.lists (.mutex m) = s.rt.lists (.mutex m))
    (stat : ∀ t, (s'.rt.thread t).stat = (s.rt.thread t).stat)
    (error : ∀ t m, (s.pc t).stay = .mutex m → (s'.rt.thread t).error = (s.rt.thread t).error)
    (timer : ∀ t, (s'.rt.thread t).timer = (s.rt.thread t).timer)
    (initPriority : ∀ t, (s'.rt.thread t).initPriority = (s.rt.thread t).initPriority)
    (pc : ∀ t, (s'.pc t).stay = (s.pc t).stay) (held : s'.held = s.held)
    (running : (s.rt.thread s'.rt.current).stat = .ready ∨
      (s.rt.thread s'.rt.current).stat = .suspend ∧ s'.rt.lockNest = 0 ∧ (s'.pc s'.rt.current).parting = true) :
    Inv idle s' := by
  refine ⟨queues, fun m => ?_, fun t m mem => ?_, fun t own => ?_, fun t m stay => ?_, fun t stay => ?_, fun t init => ?_,
    fun t => ?_, fun t => ?_, fun t on => ?_, ?_, ?_, fun t m => ?_⟩
  · rw [mutex, lists]
    simp only [stat]
    exact inv.free m
  · rw [lists] at mem
    rw [pc]
    exact inv.waiter t m mem
  · rw [pc] at own
    rw [stat]
    exact inv.own t own
  · rw [pc] at stay
    cases inv.waiting t m stay with
    | waits suspended mem eok other =>
      exact .waits ((stat t).trans suspended) (by rwa [lists]) ((error t m stay).trans eok) (by rwa [mutex])
    | late ready etimeout other =>
      exact .late ((stat t).trans ready) ((error t m stay).trans etimeout) (by rwa [mutex])
    | owns ready eok owner hold =>
      exact .owns ((stat t).trans ready) ((error t m stay).trans eok) (by rwa [mutex]) (by rwa [mutex])
  · rw [pc] at stay
    rw [stat]
    exact inv.sleep t stay
  · rw [stat] at init
    rw [pc, held]
    exact inv.initial t init
  · rw [initPriority]
    exact inv.started t
  · rw [stat]
    exact inv.alive t
  · rw [timer] at on
    rw [stat]
    exact inv.timer t on
  · rw [stat]
    exact running
  · rw [stat]
    exact inv.idle
  · rw [mutex, held, pc]
    exact inv.held t m

/-- The current thread in its own code. -/
theorem current_ready (inv : Inv idle s) (own : (s.pc s.rt.current).parting = false) :
    (s.rt.thread s.rt.current).stat = .ready := by
  obtain ready | ⟨-, -, parting⟩ := inv.running
  · exact ready
  · rw [own] at parting
    cases parting

/-- The owner of a mutex that is not free. -/
theorem owner_of (inv : Inv idle s) {m o : Nat} (owner : (s.rt.mutex m).owner = some o) :
    (s.rt.mutex m).Held o ∧ (s.rt.thread o).stat ≠ .init := by
  obtain ⟨⟨free, -⟩, -⟩ | ⟨o', held, started⟩ := inv.free m
  · rw [owner] at free
    cases free
  · have same := held.owner
    rw [owner] at same
    cases same
    exact ⟨held, started⟩

end Inv

/-! ## What an event does -/

/-- What the state is then; of the ready lists it says that they are as the threads say. -/
structure Becomes (s' : Sys) (thread : Nat → Thread) (mutex : Nat → RtMutex) (waiters : Nat → List Nat) (pc : Nat → Pc)
    (held : Nat → List Nat) (current lockNest : Nat) : Prop where
  thread : s'.rt.thread = thread
  mutex : s'.rt.mutex = mutex
  waiters : ∀ m, s'.rt.lists (.mutex m) = waiters m
  pc : s'.pc = pc
  held : s'.held = held
  current : s'.rt.current = current
  lockNest : s'.rt.lockNest = lockNest
  queues : Queues s'.rt none

def waiters (s : Sys) (m : Nat) : List Nat :=
  s.rt.lists (.mutex m)

/-- With the scheduler locked the current thread stays; else it is a ready one of the highest priority. -/
structure Picks (s s' : Sys) : Prop where
  locked : s.rt.lockNest ≠ 0 → s'.rt.current = s.rt.current
  unlocked : s.rt.lockNest = 0 → Top s'.rt

section Effects

variable (idle : Nat) (s : Sys)

/-- What the events do, by cases. -/
inductive Effect : Event → Sys → Prop where
  | retake {m : Nat} {time : Int} {s' : Sys} (user : s.pc s.rt.current = .user)
      (owner : (s.rt.mutex m).owner = some s.rt.current) (small : (s.rt.mutex m).hold < 255)
      (now : Becomes s'
        (Function.update s.rt.thread s.rt.current { s.rt.thread s.rt.current with error := .eok })
        (Function.update s.rt.mutex m { s.rt.mutex m with hold := (s.rt.mutex m).hold + 1 }) s.waiters s.pc
        (Function.update s.held s.rt.current (m :: s.held s.rt.current)) s.rt.current s.rt.lockNest) :
      Effect (.take m time) s'
  | takeFree {m : Nat} {time : Int} {s' : Sys} (user : s.pc s.rt.current = .user) (free : (s.rt.mutex m).Free)
      (nobody : s.waiters m = [])
      (now : Becomes s'
        (Function.update s.rt.thread s.rt.current { s.rt.thread s.rt.current with error := .eok })
        (Function.update s.rt.mutex m
          { s.rt.mutex m with
            value := 0
            owner := some s.rt.current
            originalPriority := (s.rt.thread s.rt.current).currentPriority
            hold := 1 }) s.waiters s.pc
        (Function.update s.held s.rt.current (m :: s.held s.rt.current)) s.rt.current s.rt.lockNest) :
      Effect (.take m time) s'
  | refused {m o : Nat} {s' : Sys} (user : s.pc s.rt.current = .user) (owner : (s.rt.mutex m).owner = some o)
      (ne : o ≠ s.rt.current)
      (now : Becomes s'
        (Function.update s.rt.thread s.rt.current { s.rt.thread s.rt.current with error := .etimeout })
        s.rt.mutex s.waiters s.pc s.held s.rt.current s.rt.lockNest) :
      Effect (.take m 0) s'
  | waits {m o : Nat} {time : Int} {s' : Sys} {list : List Nat} (user : s.pc s.rt.current = .user)
      (owner : (s.rt.mutex m).owner = some o) (ne : o ≠ s.rt.current) (waits : time ≠ 0) (unlocked : s.rt.lockNest = 0)
      (busy : s.rt.current ≠ idle) (added : list.Perm (s.rt.current :: s.waiters m))
      (fifo : (s.rt.mutex m).flag = .fifo → list = s.waiters m ++ [s.rt.current])
      (now : Becomes s'
        (Function.update (s.rt.inherit o s.rt.current) s.rt.current
          { s.rt.thread s.rt.current with stat := .suspend, error := .eok, timer := decide (0 < time) })
        s.rt.mutex (Function.update s.waiters m list) (Function.update s.pc s.rt.current (.waits m)) s.held s.rt.current
        s.rt.lockNest) :
      Effect (.take m time) s'
  | releaseOther {m : Nat} {s' : Sys} (user : s.pc s.rt.current = .user)
      (other : (s.rt.mutex m).owner ≠ some s.rt.current)
      (now : Becomes s'
        (Function.update s.rt.thread s.rt.current { s.rt.thread s.rt.current with error := .error })
        s.rt.mutex s.waiters s.pc s.held s.rt.current s.rt.lockNest) :
      Effect (.release m) s'
  | releaseMore {m : Nat} {s' : Sys} (user : s.pc s.rt.current = .user)
      (owner : (s.rt.mutex m).owner = some s.rt.current) (more : 1 < (s.rt.mutex m).hold)
      (now : Becomes s' s.rt.thread
        (Function.update s.rt.mutex m { s.rt.mutex m with hold := (s.rt.mutex m).hold - 1 }) s.waiters s.pc
        (Function.update s.held s.rt.current ((s.held s.rt.current).erase m)) s.rt.current s.rt.lockNest) :
      Effect (.release m) s'
  | releaseLast {m : Nat} {s' : Sys} (user : s.pc s.rt.current = .user)
      (owner : (s.rt.mutex m).owner = some s.rt.current) (last : (s.rt.mutex m).hold = 1) (nobody : s.waiters m = [])
      (now : Becomes s' (s.rt.restore m s.rt.current)
        (Function.update s.rt.mutex m { s.rt.mutex m with value := 1, owner := none, originalPriority := 0xff, hold := 0 })
        s.waiters s.pc (Function.update s.held s.rt.current ((s.held s.rt.current).erase m)) s.rt.current
        s.rt.lockNest) :
      Effect (.release m) s'
  | releaseHands {m h : Nat} {rest : List Nat} {s' : Sys} (user : s.pc s.rt.current = .user)
      (owner : (s.rt.mutex m).owner = some s.rt.current) (last : (s.rt.mutex m).hold = 1)
      (queue : s.waiters m = h :: rest)
      (now : Becomes s'
        (Function.update (s.rt.restore m s.rt.current) h { s.rt.thread h with stat := .ready, timer := false })
        (Function.update s.rt.mutex m
          { s.rt.mutex m with owner := some h, originalPriority := (s.rt.thread h).currentPriority, hold := 1 })
        (Function.update s.waiters m rest) (Function.update s.pc s.rt.current .switching)
        (Function.update s.held s.rt.current ((s.held s.rt.current).erase m)) s.rt.current s.rt.lockNest) :
      Effect (.release m) s'
  | yields {s' : Sys} {pc : Pc} (user : s.pc s.rt.current = .user) (later : pc = .user ∨ pc = .switching)
      (now : Becomes s' s.rt.thread s.rt.mutex s.waiters (Function.update s.pc s.rt.current pc) s.held s.rt.current
        s.rt.lockNest) :
      Effect .yield s'
  | delay {s' : Sys} (user : s.pc s.rt.current = .user) (unlocked : s.rt.lockNest = 0) (busy : s.rt.current ≠ idle)
      (now : Becomes s'
        (Function.update s.rt.thread s.rt.current { s.rt.thread s.rt.current with stat := .suspend, timer := true })
        s.rt.mutex s.waiters (Function.update s.pc s.rt.current .sleeps) s.held s.rt.current s.rt.lockNest) :
      Effect .delay s'
  | enterCritical {s' : Sys} (user : s.pc s.rt.current = .user)
      (now : Becomes s' s.rt.thread s.rt.mutex s.waiters s.pc s.held s.rt.current (s.rt.lockNest + 1)) :
      Effect .enterCritical s'
  | exitCritical {s' : Sys} {pc : Pc} (user : s.pc s.rt.current = .user)
      (later : pc = .user ∧ s.rt.lockNest - 1 ≠ 0 ∨ pc = .switching)
      (now : Becomes s' s.rt.thread s.rt.mutex s.waiters (Function.update s.pc s.rt.current pc) s.held s.rt.current
        (s.rt.lockNest - 1)) :
      Effect .exitCritical s'
  | startup {t : Nat} {s' : Sys} (user : s.pc s.rt.current = .user) (new : (s.rt.thread t).stat = .init)
      (now : Becomes s'
        (Function.update s.rt.thread t
          { s.rt.thread t with
            stat := .ready
            currentPriority := (s.rt.thread t).initPriority
            numberMask := 1 <<< (s.rt.thread t).initPriority
            timer := false })
        s.rt.mutex s.waiters (Function.update s.pc s.rt.current .switching) s.held s.rt.current s.rt.lockNest) :
      Effect (.startup t) s'
  | switches {pc : Pc} {u : Nat} {s' : Sys} (stay : pc.stay = (s.pc s.rt.current).stay) (resumed : pc.parting = false)
      (picks : Picks s s')
      (now : Becomes s' s.rt.thread s.rt.mutex s.waiters (Function.update s.pc s.rt.current pc) s.held u s.rt.lockNest) :
      Effect .goOn s'
  | woken {m : Nat} {s' : Sys} (woken : s.pc s.rt.current = .woken m)
      (now : Becomes s' s.rt.thread s.rt.mutex s.waiters (Function.update s.pc s.rt.current .user)
        (if (s.rt.thread s.rt.current).error = .eok then
          Function.update s.held s.rt.current (m :: s.held s.rt.current) else s.held) s.rt.current s.rt.lockNest) :
      Effect .goOn s'
  | slept {err : Err} {s' : Sys} (slept : s.pc s.rt.current = .slept)
      (now : Becomes s'
        (Function.update s.rt.thread s.rt.current { s.rt.thread s.rt.current with error := err })
        s.rt.mutex s.waiters (Function.update s.pc s.rt.current .user) s.held s.rt.current s.rt.lockNest) :
      Effect .goOn s'
  | timeout {t u : Nat} {s' : Sys} (on : (s.rt.thread t).timer = true) (picks : Picks s s')
      (now : Becomes s'
        (Function.update s.rt.thread t { s.rt.thread t with stat := .ready, error := .etimeout, timer := false })
        s.rt.mutex (fun m => (s.waiters m).filter (· ≠ t)) s.pc s.held u s.rt.lockNest) :
      Effect (.timeout t) s'
  | slice {u : Nat} {s' : Sys} (picks : s'.rt.current = s.rt.current ∨ Picks s s')
      (now : Becomes s' s.rt.thread s.rt.mutex s.waiters s.pc s.held u s.rt.lockNest) :
      Effect .slice s'

end Effects

section Calls

variable {s : Sys} {m : Nat} {rt : Rt}

theorem next_take_returns {time : Int} {err : Err} (eq : s.rt.mutexTake m time = (rt, .returns err)) :
    s.next (.take m time) = some ({ s with rt := rt }.takes s.rt.current m err) := by
  rw [next, eq]
  rfl

theorem next_take_waits {time : Int} (eq : s.rt.mutexTake m time = (rt, .waits)) :
    s.next (.take m time) = some ({ s with rt := rt }.setPc s.rt.current (.waits m)) := by
  rw [next, eq]
  rfl

theorem next_release {err : Err} (eq : s.rt.mutexRelease m = (rt, err, false)) :
    s.next (.release m) = some ({ s with rt := rt }.releases s.rt.current m err) := by
  rw [next, eq]
  rfl

theorem next_release_switching {err : Err} (eq : s.rt.mutexRelease m = (rt, err, true)) :
    s.next (.release m) = some (({ s with rt := rt }.releases s.rt.current m err).setPc s.rt.current .switching) := by
  rw [next, eq]
  rfl

theorem schedule_eq {t : Nat} {pc : Pc} (eq : s.rt.schedule = some rt) :
    s.schedule t pc = some ({ s with rt := rt }.setPc t pc) := by
  rw [schedule, eq]
  rfl

theorem next_timeout {t : Nat} (eq : (s.rt.threadTimeout t).schedule = some rt) :
    s.next (.timeout t) = some { s with rt := rt } := by
  rw [next, eq]
  rfl

theorem next_slice_same (eq : s.rt.threadYield = (rt, false)) : s.next .slice = some { s with rt := rt } := by
  rw [next, eq]
  rfl

theorem next_slice {rt' : Rt} (eq : s.rt.threadYield = (rt, true)) (eq' : rt.schedule = some rt') :
    s.next .slice = some { s with rt := rt' } := by
  rw [next, eq]
  dsimp only
  rw [if_pos rfl, eq']
  rfl

theorem next_woken (woken : s.pc s.rt.current = .woken m) :
    s.next .goOn =
      some ((s.takes s.rt.current m (s.rt.thread s.rt.current).error).setPc s.rt.current .user) := by
  rw [next, goOn, current, woken]

theorem next_slept (slept : s.pc s.rt.current = .slept) :
    ∃ err, s.next .goOn =
      some ({ s with rt := s.rt.setThread s.rt.current { s.rt.thread s.rt.current with error := err } }.setPc
        s.rt.current .user) := by
  rw [next, goOn, current, slept]
  exact ⟨_, rfl⟩

end Calls

namespace Inv

variable {idle : Nat} {s : Sys}

theorem take_effect (inv : Inv idle s) {m : Nat} {time : Int} (legal : s.Legal idle (.take m time)) :
    ∃ s', s.next (.take m time) = some s' ∧ Effect idle s (.take m time) s' := by
  obtain ⟨user, small, blocks⟩ := legal
  have ready := inv.current_ready (by rw [show s.pc s.rt.current = .user from user]; rfl)
  have reset (err : Err) : Queues (s.rt.setThread s.rt.current { s.rt.thread s.rt.current with error := err }) none :=
    inv.queues.setThread_same rfl rfl rfl
  obtain ⟨free, nobody⟩ | ⟨o, held, -⟩ := inv.free m
  · have eq := Rt.mutexTake_free free.1 free.2.1 free.2.2 time
    refine ⟨_, next_take_returns eq, .takeFree user free nobody ⟨rfl, rfl, fun _ => rfl, rfl, rfl, rfl, rfl, ?_⟩⟩
    exact (reset Err.eok).setMutex _ _
  · by_cases own : o = s.rt.current
    · have owner : (s.rt.mutex m).owner = some s.rt.current := own ▸ held.owner
      have eq := Rt.mutexTake_own owner (small owner) time
      refine ⟨_, next_take_returns eq,
        .retake user owner (small owner) ⟨rfl, rfl, fun _ => rfl, rfl, rfl, rfl, rfl, ?_⟩⟩
      exact (reset Err.eok).setMutex _ _
    · by_cases now : time = 0
      · subst now
        have eq := Rt.mutexTake_busy held.owner own held.value
        exact ⟨_, next_take_returns eq,
          .refused user held.owner own ⟨rfl, rfl, fun _ => rfl, rfl, rfl, rfl, rfl, reset Err.etimeout⟩⟩
      · have other : (s.rt.mutex m).owner ≠ some s.rt.current := fun same => own (by
          rw [held.owner] at same
          exact Option.some.inj same)
        obtain ⟨unlocked, busy⟩ := blocks other held.value now
        obtain ⟨k', eq, thread, queues, mutex, current, lockNest, others, added, fifo⟩ :=
          Rt.mutexTake_waits inv.queues ready held.owner own held.value now
        refine ⟨_, next_take_waits eq, .waits user held.owner own now unlocked busy added fifo
          ⟨thread, mutex, fun m' => ?_, rfl, rfl, current, lockNest, queues⟩⟩
        show k'.lists (.mutex m') = Function.update s.waiters m (k'.lists (.mutex m)) m'
        by_cases same : m' = m
        · rw [same, Function.update_self]
        · rw [Function.update_of_ne same]
          exact others m' same

theorem release_effect (inv : Inv idle s) {m : Nat} (user : s.pc s.rt.current = .user) :
    ∃ s', s.next (.release m) = some s' ∧ Effect idle s (.release m) s' := by
  have ready := inv.current_ready (by rw [user]; rfl)
  by_cases own : (s.rt.mutex m).owner = some s.rt.current
  · obtain ⟨held, -⟩ := inv.owner_of own
    by_cases last : (s.rt.mutex m).hold = 1
    · cases queue : s.rt.lists (.mutex m) with
      | nil =>
        obtain ⟨k', eq, thread, queues, mutex, current, lockNest, waiters⟩ :=
          Rt.mutexRelease_empty inv.queues ready own last held.value held.priority queue
        exact ⟨_, next_release eq,
          .releaseLast user own last queue ⟨thread, mutex, waiters, rfl, rfl, current, lockNest, queues⟩⟩
      | cons h rest =>
        obtain ⟨k', eq, thread, queues, mutex, current, lockNest, left, others⟩ :=
          Rt.mutexRelease_hands inv.queues ready own last held.priority queue
        refine ⟨_, next_release_switching eq,
          .releaseHands user own last queue ⟨thread, mutex, fun m' => ?_, rfl, rfl, current, lockNest, queues⟩⟩
        show k'.lists (.mutex m') = Function.update s.waiters m rest m'
        by_cases same : m' = m
        · rw [same, Function.update_self]
          exact left
        · rw [Function.update_of_ne same]
          exact others m' same
    · have more : 1 < (s.rt.mutex m).hold := Nat.lt_of_le_of_ne held.positive (Ne.symm last)
      have eq := Rt.mutexRelease_more own more held.small
      exact ⟨_, next_release eq,
        .releaseMore user own more ⟨rfl, rfl, fun _ => rfl, rfl, rfl, rfl, rfl, inv.queues.setMutex _ _⟩⟩
  · have eq := Rt.mutexRelease_other own
    exact ⟨_, next_release eq,
      .releaseOther user own ⟨rfl, rfl, fun _ => rfl, rfl, rfl, rfl, rfl, inv.queues.setThread_same rfl rfl rfl⟩⟩

/-- `rt_schedule` once the lists are as they should be. -/
theorem schedule_picks {k : Rt} (queues : Queues k none) (ready : (k.thread idle).stat = .ready) :
    ∃ p u, k.schedule = some { k with currentPriority := p, current := u } ∧ (k.lockNest ≠ 0 → u = k.current) ∧
      (k.lockNest = 0 → Top { k with currentPriority := p, current := u }) := by
  by_cases unlocked : k.lockNest = 0
  · obtain ⟨p, u, eq, top, -⟩ := schedule_top queues ready unlocked
    exact ⟨p, u, eq, fun locked => absurd unlocked locked, fun _ => top⟩
  · refine ⟨k.currentPriority, k.current, ?_, fun _ => rfl, fun zero => absurd zero unlocked⟩
    rw [Rt.schedule, if_neg unlocked]

theorem switch_effect (inv : Inv idle s) (pc : Pc) (stay : pc.stay = (s.pc s.rt.current).stay)
    (resumed : pc.parting = false) :
    ∃ s', s.schedule s.rt.current pc = some s' ∧ Effect idle s .goOn s' := by
  obtain ⟨p, u, eq, locked, unlocked⟩ := schedule_picks inv.queues inv.idle
  refine ⟨_, schedule_eq eq, .switches stay resumed ⟨locked, unlocked⟩
    ⟨rfl, rfl, fun _ => rfl, rfl, rfl, rfl, rfl, ?_⟩⟩
  exact ⟨inv.queues.nodup, inv.queues.ready, inv.queues.waiting, inv.queues.once, inv.queues.priority, inv.queues.group,
    inv.queues.bit⟩

theorem goOn_effect (inv : Inv idle s) (within : s.pc s.rt.current ≠ .user) :
    ∃ s', s.next .goOn = some s' ∧ Effect idle s .goOn s' := by
  cases pc : s.pc s.rt.current with
  | user => exact absurd pc within
  | waits m =>
    obtain ⟨s', eq, effect⟩ := inv.switch_effect (.woken m) (by rw [pc]; rfl) rfl
    refine ⟨s', ?_, effect⟩
    rw [next, goOn, current, pc]
    exact eq
  | woken m =>
    refine ⟨_, next_woken pc, .woken pc ⟨?_, ?_, fun _ => ?_, ?_, ?_, ?_, ?_, ?_⟩⟩
    all_goals unfold Sys.takes
    all_goals split_ifs
    all_goals first | rfl | exact inv.queues
  | switching =>
    obtain ⟨s', eq, effect⟩ := inv.switch_effect .user (by rw [pc]; rfl) rfl
    refine ⟨s', ?_, effect⟩
    rw [next, goOn, current, pc]
    exact eq
  | sleeps =>
    obtain ⟨s', eq, effect⟩ := inv.switch_effect .slept (by rw [pc]; rfl) rfl
    refine ⟨s', ?_, effect⟩
    rw [next, goOn, current, pc]
    exact eq
  | slept =>
    obtain ⟨err, eq⟩ := next_slept pc
    exact ⟨_, eq, .slept pc ⟨rfl, rfl, fun _ => rfl, rfl, rfl, rfl, rfl, inv.queues.setThread_same rfl rfl rfl⟩⟩

theorem yield_effect (inv : Inv idle s) (user : s.pc s.rt.current = .user) :
    ∃ s', s.next .yield = some s' ∧ Effect idle s .yield s' := by
  obtain ⟨mutex, current, lockNest⟩ := s.rt.threadYield_rest
  have thread := s.rt.threadYield_thread
  have waiters := Rt.threadYield_waiters inv.queues
  have queues := Rt.threadYield_queues inv.queues
  cases eq : s.rt.threadYield with | mk rt needSchedule =>
  rw [eq] at mutex current lockNest thread waiters queues
  refine ⟨_, by rw [next, eq], ?_⟩
  cases needSchedule with
  | true => exact .yields user (.inr rfl) ⟨thread, mutex, waiters, rfl, rfl, current, lockNest, queues⟩
  | false =>
    refine .yields user (.inl rfl) ⟨thread, mutex, waiters, ?_, rfl, current, lockNest, queues⟩
    rw [← user, Function.update_eq_self]
    rfl

theorem delay_effect (inv : Inv idle s) (legal : s.Legal idle .delay) :
    ∃ s', s.next .delay = some s' ∧ Effect idle s .delay s' := by
  obtain ⟨user, unlocked, busy⟩ := legal
  have ready := inv.current_ready (by rw [show s.pc s.rt.current = .user from user]; rfl)
  obtain ⟨mutex, current, lockNest⟩ := Rt.threadSleep_rest ready
  exact ⟨_, rfl, .delay user unlocked busy ⟨Rt.threadSleep_thread ready, mutex, Rt.threadSleep_waiters inv.queues ready, rfl,
    rfl, current, lockNest, Rt.threadSleep_queues inv.queues ready⟩⟩

theorem exitCritical_effect (inv : Inv idle s) (user : s.pc s.rt.current = .user) :
    ∃ s', s.next .exitCritical = some s' ∧ Effect idle s .exitCritical s' := by
  have queues : Queues { s.rt with lockNest := s.rt.lockNest - 1 } none :=
    ⟨inv.queues.nodup, inv.queues.ready, inv.queues.waiting, inv.queues.once, inv.queues.priority, inv.queues.group,
      inv.queues.bit⟩
  refine ⟨_, rfl, ?_⟩
  by_cases free : s.rt.lockNest - 1 = 0
  · rw [if_pos (decide_eq_true free)]
    exact .exitCritical user (.inr rfl) ⟨rfl, rfl, fun _ => rfl, rfl, rfl, rfl, rfl, queues⟩
  · rw [if_neg (by simpa using free)]
    refine .exitCritical user (.inl ⟨rfl, free⟩) ⟨rfl, rfl, fun _ => rfl, ?_, rfl, rfl, rfl, queues⟩
    rw [← user, Function.update_eq_self]

theorem startup_effect (inv : Inv idle s) {t : Nat} (legal : s.Legal idle (.startup t)) :
    ∃ s', s.next (.startup t) = some s' ∧ Effect idle s (.startup t) s' := by
  obtain ⟨user, new⟩ := legal
  obtain ⟨mutex, current, lockNest⟩ := s.rt.threadStartup_rest t
  exact ⟨_, rfl, .startup user new ⟨s.rt.threadStartup_thread t, mutex, Rt.threadStartup_waiters inv.queues new, rfl, rfl,
    current, lockNest, Rt.threadStartup_queues inv.queues new (inv.started t)⟩⟩

theorem timeout_effect (inv : Inv idle s) {t : Nat} (on : (s.rt.thread t).timer = true) :
    ∃ s', s.next (.timeout t) = some s' ∧ Effect idle s (.timeout t) s' := by
  have suspended := inv.timer t on
  have queues := Rt.threadTimeout_queues inv.queues suspended
  have thread := s.rt.threadTimeout_thread t
  have ready : ((s.rt.threadTimeout t).thread idle).stat = .ready := by
    rw [thread]
    by_cases same : idle = t
    · rw [same, Function.update_self]
    · rw [Function.update_of_ne same]
      exact inv.idle
  obtain ⟨p, u, eq, locked, unlocked⟩ := schedule_picks queues ready
  refine ⟨_, next_timeout eq, .timeout on ⟨locked, unlocked⟩
    ⟨thread, rfl, s.rt.threadTimeout_waiters t, rfl, rfl, rfl, rfl, ?_⟩⟩
  exact ⟨queues.nodup, queues.ready, queues.waiting, queues.once, queues.priority, queues.group, queues.bit⟩

theorem slice_effect (inv : Inv idle s) : ∃ s', s.next .slice = some s' ∧ Effect idle s .slice s' := by
  obtain ⟨mutex, current, lockNest⟩ := s.rt.threadYield_rest
  have thread := s.rt.threadYield_thread
  have waiters := Rt.threadYield_waiters inv.queues
  have queues := Rt.threadYield_queues inv.queues
  cases eq : s.rt.threadYield with | mk rt needSchedule =>
  rw [eq] at mutex current lockNest thread waiters queues
  cases needSchedule with
  | true =>
    have ready : (rt.thread idle).stat = .ready := by
      rw [thread]
      exact inv.idle
    obtain ⟨p, u, eq', locked, unlocked⟩ := schedule_picks queues ready
    refine ⟨_, next_slice eq eq', .slice (.inr ⟨fun nested => ?_, fun zero => ?_⟩)
      ⟨thread, mutex, waiters, rfl, rfl, rfl, lockNest, ?_⟩⟩
    · exact (locked (lockNest.symm ▸ nested)).trans current
    · exact unlocked (lockNest.trans zero)
    · exact ⟨queues.nodup, queues.ready, queues.waiting, queues.once, queues.priority, queues.group, queues.bit⟩
  | false => exact ⟨_, next_slice_same eq, .slice (.inl current) ⟨thread, mutex, waiters, rfl, rfl, rfl, lockNest, queues⟩⟩

/-- Every event that may come does one of these things. -/
theorem next_effect (inv : Inv idle s) {e : Event} (legal : s.Legal idle e) :
    ∃ s', s.next e = some s' ∧ Effect idle s e s' := by
  cases e with
  | take m time => exact inv.take_effect legal
  | release m => exact inv.release_effect legal
  | yield => exact inv.yield_effect legal
  | delay => exact inv.delay_effect legal
  | enterCritical =>
    refine ⟨_, rfl, .enterCritical legal.1 ⟨rfl, rfl, fun _ => rfl, rfl, rfl, rfl, rfl, ?_⟩⟩
    exact ⟨inv.queues.nodup, inv.queues.ready, inv.queues.waiting, inv.queues.once, inv.queues.priority,
      inv.queues.group, inv.queues.bit⟩
  | exitCritical => exact inv.exitCritical_effect legal
  | startup t => exact inv.startup_effect legal
  | goOn => exact inv.goOn_effect legal
  | timeout t => exact inv.timeout_effect legal
  | slice => exact inv.slice_effect

theorem step_effect (inv : Inv idle s) {e : Event} {s' : Sys} (made : s.step idle e = some s') :
    Effect idle s e s' := by
  rw [step] at made
  split_ifs at made with legal
  obtain ⟨s'', eq, effect⟩ := inv.next_effect legal
  rw [made] at eq
  cases eq
  exact effect

end Inv

end Sys

end Ecu.Kernel
