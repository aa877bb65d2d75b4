import Ecu.Kernel.SystemSteps
import Ecu.Lib.Mutex
import Ecu.Lib.Queue

/-!
# Runs of the threads

From the start of the scheduler on, in every order of calls, timers and time slices.
-/

namespace Ecu.Kernel.Sys

/-! ## The start -/

/-- Before the scheduler is started, with these threads still to be. -/
structure Starting (priority : Nat → Nat) (flag : Nat → IpcFlag) (idle : Nat) (k : Rt) (rest : List Nat) : Prop where
  queues : Queues k none
  waiters : ∀ m, k.lists (.mutex m) = []
  mutex : k.mutex = (Rt.empty priority flag idle).mutex
  new : ∀ t ∈ rest, (k.thread t).stat = .init
  stat : ∀ t, (k.thread t).stat = .init ∨ (k.thread t).stat = .ready
  timer : ∀ t, (k.thread t).timer = false
  initPriority : ∀ t, (k.thread t).initPriority = priority t
  currentPriority : ∀ t, (k.thread t).currentPriority = priority t
  lockNest : k.lockNest = 0

section Start

variable {priority : Nat → Nat} {flag : Nat → IpcFlag} {idle : Nat}

theorem empty_starting (priority : Nat → Nat) (flag : Nat → IpcFlag) (idle : Nat) (rest : List Nat) :
    Starting priority flag idle (Rt.empty priority flag idle) rest where
  queues := by
    refine ⟨fun _ => List.nodup_nil, fun t p => ?_, fun t m mem => ?_, fun t m m' mem => ?_, fun t started => ?_, ?_,
      fun p => ?_⟩
    · exact iff_of_false (List.not_mem_nil) fun now => by cases now.2.1
    · exact absurd mem List.not_mem_nil
    · exact absurd mem List.not_mem_nil
    · exact absurd rfl started
    · exact Nat.two_pow_pos 32
    · exact iff_of_false (by rw [show (Rt.empty priority flag idle).readyPriorityGroup = 0 from rfl]; simp)
        (not_not.2 rfl)
  waiters _ := rfl
  mutex := rfl
  new _ _ := rfl
  stat _ := .inl rfl
  timer _ := rfl
  initPriority _ := rfl
  currentPriority _ := rfl
  lockNest := rfl

theorem Starting.startup {k : Rt} {t : Nat} {rest : List Nat} (starting : Starting priority flag idle k (t :: rest))
    (nodup : (t :: rest).Nodup) (lt : priority t < 32) :
    Starting priority flag idle (k.threadStartup t) rest ∧ ((k.threadStartup t).thread t).stat = .ready := by
  have new := starting.new t List.mem_cons_self
  have thread := k.threadStartup_thread t
  obtain ⟨mutex, -, lockNest⟩ := k.threadStartup_rest t
  have self := congrFun thread t
  rw [Function.update_self] at self
  have other {u : Nat} (ne : u ≠ t) : (k.threadStartup t).thread u = k.thread u := by
    rw [thread, Function.update_of_ne ne]
  refine ⟨⟨Rt.threadStartup_queues starting.queues new (starting.initPriority t ▸ lt), fun m => ?_,
    mutex.trans starting.mutex, fun u mem => ?_, fun u => ?_, fun u => ?_, fun u => ?_, fun u => ?_,
    lockNest.trans starting.lockNest⟩, by rw [self]⟩
  · rw [Rt.threadStartup_waiters starting.queues new]
    exact starting.waiters m
  · have ne : u ≠ t := fun same => (List.nodup_cons.1 nodup).1 (same ▸ mem)
    rw [other ne]
    exact starting.new u (List.mem_cons_of_mem t mem)
  · by_cases same : u = t
    · rw [same, self]
      exact .inr rfl
    · rw [other same]
      exact starting.stat u
  · by_cases same : u = t
    · rw [same, self]
    · rw [other same]
      exact starting.timer u
  · by_cases same : u = t
    · rw [same, self]
      exact starting.initPriority t
    · rw [other same]
      exact starting.initPriority u
  · by_cases same : u = t
    · rw [same, self]
      exact starting.initPriority t
    · rw [other same]
      exact starting.currentPriority u

/-- A ready thread stays ready while others are started. -/
theorem Starting.all {k : Rt} {threads : List Nat} (starting : Starting priority flag idle k threads)
    (nodup : threads.Nodup) (lt : ∀ t, priority t < 32) :
    Starting priority flag idle (threads.foldl Rt.threadStartup k) [] ∧
      ∀ t, (t ∈ threads ∨ (k.thread t).stat = .ready) →
        ((threads.foldl Rt.threadStartup k).thread t).stat = .ready := by
  induction threads generalizing k with
  | nil => exact ⟨starting, fun t now => now.resolve_left List.not_mem_nil⟩
  | cons u threads ih =>
    obtain ⟨next, ready⟩ := starting.startup nodup (lt u)
    obtain ⟨last, all⟩ := ih next (List.nodup_cons.1 nodup).2
    refine ⟨last, fun t now => all t ?_⟩
    by_cases same : t = u
    · exact .inr (same ▸ ready)
    · obtain mem | now := now
      · exact .inl ((List.mem_cons.1 mem).resolve_left same)
      · right
        rw [k.threadStartup_thread u, Function.update_of_ne same]
        exact now

/-- When the first thread runs. -/
structure Fresh (idle : Nat) (s : Sys) : Prop where
  inv : Inv idle s
  pc : ∀ t, s.pc t = .user
  held : ∀ t, s.held t = []
  free : ∀ m, (s.rt.mutex m).Free
  priority : ∀ t, (s.rt.thread t).currentPriority = (s.rt.thread t).initPriority
  top : Top s.rt

theorem boot_fresh (flag : Nat → IpcFlag) {threads : List Nat} (nodup : (threads ++ [idle]).Nodup) (lt : ∀ t, priority t < 32) :
    ∃ s, boot priority flag threads idle = some s ∧ Fresh idle s := by
  obtain ⟨starting, all⟩ := (empty_starting priority flag idle (threads ++ [idle])).all nodup lt
  have ready := all idle (.inl (List.mem_append_right _ (List.mem_singleton_self idle)))
  rw [boot]
  generalize (threads ++ [idle]).foldl Rt.threadStartup (Rt.empty priority flag idle) = k at starting ready
  obtain ⟨nonempty, least⟩ := starting.queues.highest ready
  cases list : k.lists (.ready (rtFfs k.readyPriorityGroup - 1)) with
  | nil => exact absurd list nonempty
  | cons toThread later =>
    have mem : toThread ∈ k.lists (.ready (rtFfs k.readyPriorityGroup - 1)) := list ▸ List.mem_cons_self
    obtain ⟨-, now, highest⟩ := (starting.queues.ready _ _).1 mem
    have free (m : Nat) : (k.mutex m).Free := by
      rw [starting.mutex]
      exact ⟨rfl, rfl, rfl⟩
    refine ⟨_, by rw [Rt.schedulerStart, list]; rfl, ⟨⟨?_, fun m => .inl ⟨free m, starting.waiters m⟩, fun t m mem => ?_,
      fun t _ => ?_, fun t m stay => (by cases stay), fun t stay => (by cases stay), fun t _ => ⟨rfl, rfl⟩, fun t => ?_,
      fun t => ?_, fun t on => ?_, .inl now, ready, fun t m => ?_⟩, fun _ => rfl, fun _ => rfl, free, fun t => ?_,
      ⟨now, fun u ready => ?_⟩⟩⟩
    · exact ⟨starting.queues.nodup, starting.queues.ready, starting.queues.waiting, starting.queues.once,
        starting.queues.priority, starting.queues.group, starting.queues.bit⟩
    · have mem : t ∈ k.lists (.mutex m) := mem
      rw [starting.waiters] at mem
      exact absurd mem List.not_mem_nil
    · show (k.thread t).stat ≠ _
      obtain init | ready := starting.stat t
      · rw [init]
        decide
      · rw [ready]
        decide
    · show (k.thread t).initPriority < 32
      rw [starting.initPriority]
      exact lt t
    · show (k.thread t).stat ≠ _
      obtain init | ready := starting.stat t
      · rw [init]
        decide
      · rw [ready]
        decide
    · have on : (k.thread t).timer = true := on
      rw [starting.timer] at on
      cases on
    · show _ = if (k.mutex m).owner = some t ∧ _ then (k.mutex m).hold else 0
      rw [(free m).1, if_neg (fun both => by cases both.1)]
      rfl
    · show (k.thread t).currentPriority = (k.thread t).initPriority
      rw [starting.initPriority, starting.currentPriority]
    · show (k.thread toThread).currentPriority ≤ (k.thread u).currentPriority
      rw [highest]
      exact least u ready

/-- The states that the threads can reach. -/
def Reached (idle : Nat) (s : Sys) : Prop :=
  ∃ priority flag threads events, (threads ++ [idle]).Nodup ∧ (∀ t, priority t < 32) ∧
    run priority flag threads idle events = some s

theorem run_keeps {s s' : Sys} {events : List Event} (inv : Inv idle s) (ran : Runs.run (step idle) events s = some s') :
    Inv idle s' :=
  Runs.run_rule (Inv idle) (fun inv made => inv.keeps (inv.step_effect made)) inv ran

theorem Reached.inv {s : Sys} (reached : Reached idle s) : Inv idle s := by
  obtain ⟨priority, flag, threads, events, nodup, lt, ran⟩ := reached
  obtain ⟨first, booted, fresh⟩ := boot_fresh flag nodup lt
  rw [run, booted] at ran
  exact run_keeps fresh.inv ran

end Start

section States

variable {idle : Nat} {s s' : Sys}

theorem Inv.proceeds (inv : Inv idle s) {e : Event} (legal : s.Legal idle e) : ∃ s', s.step idle e = some s' := by
  obtain ⟨s', made, -⟩ := inv.next_effect legal
  exact ⟨s', (if_pos legal).trans made⟩

/-- The ready lists and their bits are what the states and priorities of the threads say, a waiting thread is in one
list, whatever may come next can be done, and `rt_schedule` goes to the first thread of the highest priority. -/
structure Consistent (idle : Nat) (s : Sys) : Prop where
  ready : ∀ t p, t ∈ s.rt.lists (.ready p) ↔ (s.rt.thread t).stat = .ready ∧ (s.rt.thread t).currentPriority = p
  bit : ∀ p, s.rt.readyPriorityGroup.testBit p = true ↔ s.rt.lists (.ready p) ≠ []
  nodup : ∀ l, (s.rt.lists l).Nodup
  waiting : ∀ t m, t ∈ s.rt.lists (.mutex m) →
    (s.rt.thread t).stat = .suspend ∧ ∀ m', t ∈ s.rt.lists (.mutex m') → m' = m
  proceeds : ∀ e, s.Legal idle e → ∃ s', s.step idle e = some s'
  schedule : s.rt.lockNest = 0 → ∃ k, s.rt.schedule = some k ∧ (k.thread k.current).stat = .ready ∧
    (k.lists (.ready (k.thread k.current).currentPriority)).head? = some k.current ∧
    ∀ u, (k.thread u).stat = .ready → (k.thread k.current).currentPriority ≤ (k.thread u).currentPriority

end States

/-! ### Three threads and a mutex -/

def threePriority (t : Nat) : Nat :=
  if t = 0 then 31 else if t = 2 then 5 else if t = 3 then 10 else 20

/-- The threads 2 and 3 sleep, the thread 1 takes the mutex, and the thread 2, woken up, waits for it. -/
def threeEvents : List Event :=
  [.delay, .goOn, .delay, .goOn, .take 7 (-1), .timeout 2, .goOn, .take 7 100, .goOn]

theorem three_nodup : ([1, 2, 3] ++ [0]).Nodup := by
  decide

theorem threePriority_lt (t : Nat) : threePriority t < 32 := by
  unfold threePriority
  split_ifs <;> decide

theorem three_reached : ∃ s, Reached 0 s ∧ s.rt.current = 1 ∧ s.pc 1 = .user ∧ s.held 1 = [7] ∧ s.waiters 7 = [2] ∧
    (s.rt.mutex 7).flag = .fifo := by
  have seen : (run threePriority (fun _ => .fifo) [1, 2, 3] 0 threeEvents).map
      (fun s => (s.rt.current, s.pc 1, s.held 1, s.waiters 7, (s.rt.mutex 7).flag)) =
        some (1, .user, [7], [2], .fifo) := by
    decide +kernel
  obtain ⟨s, ran, eq⟩ := Option.map_eq_some_iff.1 seen
  simp only [Prod.mk.injEq] at eq
  exact ⟨s, ⟨_, _, _, _, three_nodup, threePriority_lt, ran⟩, eq⟩

section States

variable {idle : Nat} {s s' : Sys}

/-! ## The mutexes -/

def lock (s : Sys) (m : Nat) : Mutex.Lock Nat :=
  ⟨(s.rt.mutex m).owner, (s.rt.mutex m).hold⟩

/-- A thread holds a mutex as often as its calls said; so no two threads hold the same one. -/
theorem mutual_exclusion (reached : Reached idle s) :
    (∀ t m, (s.pc t).stay ≠ .mutex m → (s.held t).count m = (s.lock m).held t) ∧
      ∀ t u m, m ∈ s.held t → m ∈ s.held u → t = u := by
  have inv := reached.inv
  refine ⟨fun t m outside => ?_, fun t u m mem mem' => ?_⟩
  · rw [inv.held]
    simp only [outside, ne_eq, not_false_eq_true, and_true]
    rfl
  · have owner {v : Nat} (mem : m ∈ s.held v) : (s.rt.mutex m).owner = some v := by
      have positive := List.count_pos_iff.2 mem
      rw [inv.held] at positive
      split_ifs at positive with owns
      · exact owns.1
      · exact absurd positive (Nat.lt_irrefl 0)
    have both := owner mem
    rw [owner mem'] at both
    exact (Option.some.inj both).symm

theorem mutual_exclusion_three : ∃ s : Sys, s.held 1 = [7] ∧
    (∀ t m, (s.pc t).stay ≠ .mutex m → (s.held t).count m = (s.lock m).held t) ∧
      ∀ t u m, m ∈ s.held t → m ∈ s.held u → t = u := by
  obtain ⟨s, reached, -, -, held, -⟩ := three_reached
  exact ⟨s, held, mutual_exclusion reached⟩

/-- A free lock is taken by the first of those that wait. -/
def handOver (queue : List Nat) (l : Mutex.Lock Nat) : Mutex.Lock Nat :=
  match l.owner, queue with
  | none, h :: _ => (l.take h).getD l
  | _, _ => l

theorem handOver_nil (l : Mutex.Lock Nat) : handOver [] l = l := by
  unfold handOver
  split
  · next empty => cases empty
  · rfl

theorem handOver_owned (queue : List Nat) {l : Mutex.Lock Nat} {o : Nat} (owned : l.owner = some o) :
    handOver queue l = l := by
  unfold handOver
  rw [owned]

/-- What the events are for the lock of a mutex. -/
def lockAfter (s : Sys) (m : Nat) : Event → Mutex.Lock Nat
  | .take m' _ => if m' = m then ((s.lock m).take s.rt.current).getD (s.lock m) else s.lock m
  | .release m' => if m' = m then handOver (s.waiters m) ((s.lock m).release s.rt.current) else s.lock m
  | _ => s.lock m

theorem lock_same (same : s'.rt.mutex = s.rt.mutex) (m : Nat) : s'.lock m = s.lock m := by
  rw [lock, same]
  rfl

theorem lock_other {m m' : Nat} {x : RtMutex} (changed : s'.rt.mutex = Function.update s.rt.mutex m' x) (ne : m' ≠ m) :
    s'.lock m = s.lock m := by
  rw [lock, changed, Function.update_of_ne (Ne.symm ne)]
  rfl

theorem lock_self {m : Nat} {x : RtMutex} (changed : s'.rt.mutex = Function.update s.rt.mutex m x) :
    s'.lock m = ⟨x.owner, x.hold⟩ := by
  rw [lock, changed, Function.update_self]

theorem Inv.lock_follows (inv : Inv idle s) {e : Event} (effect : Effect idle s e s') (m : Nat) :
    s'.lock m = s.lockAfter m e := by
  have other {m' c : Nat} (same : m' = m) {o : Nat} (owner : (s.rt.mutex m').owner = some o) (ne : o ≠ c) :
      (s.lock m).take c = none := by
    subst same
    rw [Mutex.Lock.take, lock, owner, if_neg (fun eq => ne (Option.some.inj eq)), if_neg (fun eq => by cases eq)]
  cases effect with
  | @retake m' time _ user owner small now =>
    rw [lockAfter]
    split_ifs with same
    · subst same
      rw [lock_self now.mutex, lock, Mutex.Lock.take, if_pos owner]
      exact congrArg (fun o => (⟨o, _⟩ : Mutex.Lock Nat)) owner
    · exact lock_other now.mutex same
  | @takeFree m' time _ user free nobody now =>
    rw [lockAfter]
    split_ifs with same
    · subst same
      have none : (s.lock m').owner ≠ some s.rt.current := fun eq => by
        have owner : (s.rt.mutex m').owner = some s.rt.current := eq
        rw [free.1] at owner
        cases owner
      rw [lock_self now.mutex, Mutex.Lock.take, if_neg none, if_pos (show (s.lock m').owner = Option.none from free.1)]
      show _ = (⟨_, (s.rt.mutex m').hold + 1⟩ : Mutex.Lock Nat)
      rw [free.2.2]
    · exact lock_other now.mutex same
  | @refused m' o _ user owner ne now =>
    rw [lockAfter]
    split_ifs with same
    · rw [other same owner ne]
      exact lock_same now.mutex m
    · exact lock_same now.mutex m
  | @waits m' o time _ list user owner ne waits unlocked busy added fifo now =>
    rw [lockAfter]
    split_ifs with same
    · rw [other same owner ne]
      exact lock_same now.mutex m
    · exact lock_same now.mutex m
  | @releaseOther m' _ user not now =>
    rw [lockAfter]
    split_ifs with same
    · subst same
      rw [lock_same now.mutex, Mutex.Lock.release, if_neg (show ¬ (s.lock m').owner = some s.rt.current from not)]
      obtain ⟨-, nobody⟩ | ⟨o, held, -⟩ := inv.free m'
      · rw [show s.waiters m' = [] from nobody, handOver_nil]
      · exact (handOver_owned _ held.owner).symm
    · exact lock_same now.mutex m
  | @releaseMore m' _ user owner more now =>
    rw [lockAfter]
    split_ifs with same
    · subst same
      have left : ¬ (s.lock m').hold - 1 = 0 := Nat.sub_ne_zero_of_lt more
      rw [lock_self now.mutex, Mutex.Lock.release, if_pos (show (s.lock m').owner = some s.rt.current from owner),
        if_neg left, handOver_owned _ rfl]
      exact congrArg (fun o => (⟨o, _⟩ : Mutex.Lock Nat)) owner
    · exact lock_other now.mutex same
  | @releaseLast m' _ user owner last nobody now =>
    rw [lockAfter]
    split_ifs with same
    · subst same
      have none : (s.lock m').hold - 1 = 0 := by
        rw [show (s.lock m').hold = 1 from last]
      rw [lock_self now.mutex, Mutex.Lock.release, if_pos (show (s.lock m').owner = some s.rt.current from owner),
        if_pos none, nobody, none]
      rfl
    · exact lock_other now.mutex same
  | @releaseHands m' h rest _ user owner last queue now =>
    rw [lockAfter]
    split_ifs with same
    · subst same
      have none : (s.lock m').hold - 1 = 0 := by
        rw [show (s.lock m').hold = 1 from last]
      rw [lock_self now.mutex, Mutex.Lock.release, if_pos (show (s.lock m').owner = some s.rt.current from owner),
        if_pos none, queue, none]
      rfl
    · exact lock_other now.mutex same
  | yields user later now => exact lock_same now.mutex m
  | delay user unlocked busy now => exact lock_same now.mutex m
  | enterCritical user now => exact lock_same now.mutex m
  | exitCritical user later now => exact lock_same now.mutex m
  | startup user new now => exact lock_same now.mutex m
  | switches stay resumed picks now => exact lock_same now.mutex m
  | woken woken now => exact lock_same now.mutex m
  | slept slept now => exact lock_same now.mutex m
  | timeout on picks now => exact lock_same now.mutex m
  | slice picks now => exact lock_same now.mutex m

/-- What any event does to a mutex is what it does to the lock: a taker gets it where it can, and one that is released
for the last time goes to the first of those that wait. -/
theorem mutex_is_lock (reached : Reached idle s) {e : Event} (made : s.step idle e = some s') (m : Nat) :
    s'.lock m = s.lockAfter m e ∧ (s.lock m).Regular := by
  have inv := reached.inv
  refine ⟨inv.lock_follows (inv.step_effect made) m, ?_⟩
  obtain ⟨free, -⟩ | ⟨o, held, -⟩ := inv.free m
  · exact iff_of_true free.1 free.2.2
  · refine iff_of_false (fun unowned => ?_) (Nat.ne_of_gt held.positive)
    have owner := held.owner
    rw [show (s.rt.mutex m).owner = none from unowned] at owner
    cases owner

/-- The thread 1 releases the mutex for which the thread 2 waits. -/
theorem mutex_is_lock_three : ∃ s s' : Sys, s.waiters 7 = [2] ∧ s.step 0 (.release 7) = some s' ∧
    s'.lock 7 = s.lockAfter 7 (.release 7) ∧ (s.lock 7).Regular := by
  obtain ⟨s, reached, current, user, -, waiters, -⟩ := three_reached
  have legal : s.Legal 0 (.release 7) := by
    rw [← current] at user
    exact user
  obtain ⟨s', made⟩ := reached.inv.proceeds legal
  exact ⟨s, s', waiters, made, mutex_is_lock reached made 7⟩

/-! ## Who gets a mutex -/

/-- What an event does to those that wait for a mutex, and who is served. -/
theorem Effect.queue {e : Event} (effect : Effect idle s e s') {m t : Nat}
    (fifo : (s.rt.mutex m).flag = .fifo) (waits : t ∈ s.waiters m) :
    ∃ served, Queue.Move (s.waiters m) (s'.waiters m) served ∧ (s'.rt.mutex m).flag = .fifo ∧
      ((s'.rt.mutex m).owner = (s.rt.mutex m).owner ∨ ∃ h, served = some h ∧ (s'.rt.mutex m).owner = some h) := by
  have queue {thread : Nat → Thread} {mutex : Nat → RtMutex} {waiters : Nat → List Nat} {pc : Nat → Pc}
      {held : Nat → List Nat} {c n : Nat} (now : Becomes s' thread mutex waiters pc held c n) :
      s'.waiters m = waiters m := now.waiters m
  -- the mutex stays with its owner, and nobody joins or leaves
  have unmoved {thread : Nat → Thread} {mutex : Nat → RtMutex} {pc : Nat → Pc} {held : Nat → List Nat} {c n : Nat}
      (now : Becomes s' thread mutex s.waiters pc held c n) (flag : (mutex m).flag = (s.rt.mutex m).flag)
      (owner : (mutex m).owner = (s.rt.mutex m).owner) :
      ∃ served, Queue.Move (s.waiters m) (s'.waiters m) served ∧ (s'.rt.mutex m).flag = .fifo ∧
        ((s'.rt.mutex m).owner = (s.rt.mutex m).owner ∨ ∃ h, served = some h ∧ (s'.rt.mutex m).owner = some h) := by
    rw [queue now, now.mutex]
    exact ⟨none, .stays _, flag.trans fifo, .inl owner⟩
  have some_waits (nobody : s.waiters m = []) : False := by
    rw [nobody] at waits
    exact absurd waits List.not_mem_nil
  cases effect with
  | @retake m' time _ user owner small now =>
    by_cases same : m = m'
    · subst same
      exact unmoved now (by rw [Function.update_self]) (by rw [Function.update_self])
    · exact unmoved now (by rw [Function.update_of_ne same]) (by rw [Function.update_of_ne same])
  | @takeFree m' time _ user free nobody now =>
    by_cases same : m = m'
    · subst same
      exact (some_waits nobody).elim
    · exact unmoved now (by rw [Function.update_of_ne same]) (by rw [Function.update_of_ne same])
  | refused user owner ne now => exact unmoved now rfl rfl
  | @waits m' o time _ list user owner ne waits unlocked busy added order now =>
    by_cases same : m = m'
    · subst same
      refine ⟨none, ?_, by rw [now.mutex]; exact fifo, .inl (by rw [now.mutex])⟩
      rw [queue now, Function.update_self, order fifo]
      exact .joins _ _
    · refine ⟨none, ?_, by rw [now.mutex]; exact fifo, .inl (by rw [now.mutex])⟩
      rw [queue now, Function.update_of_ne same]
      exact .stays _
  | releaseOther user other now => exact unmoved now rfl rfl
  | @releaseMore m' _ user owner more now =>
    by_cases same : m = m'
    · subst same
      exact unmoved now (by rw [Function.update_self]) (by rw [Function.update_self])
    · exact unmoved now (by rw [Function.update_of_ne same]) (by rw [Function.update_of_ne same])
  | @releaseLast m' _ user owner last nobody now =>
    by_cases same : m = m'
    · subst same
      exact (some_waits nobody).elim
    · exact unmoved now (by rw [Function.update_of_ne same]) (by rw [Function.update_of_ne same])
  | @releaseHands m' h rest _ user owner last list now =>
    by_cases same : m = m'
    · subst same
      refine ⟨some h, ?_, ?_, .inr ⟨h, rfl, ?_⟩⟩
      · rw [queue now, Function.update_self, list]
        exact .serves _ _
      · rw [now.mutex, Function.update_self]
        exact fifo
      · rw [now.mutex, Function.update_self]
    · refine ⟨none, ?_, ?_, .inl ?_⟩
      · rw [queue now, Function.update_of_ne same]
        exact .stays _
      · rw [now.mutex, Function.update_of_ne same]
        exact fifo
      · rw [now.mutex, Function.update_of_ne same]
  | yields user later now => exact unmoved now rfl rfl
  | delay user unlocked busy now => exact unmoved now rfl rfl
  | enterCritical user now => exact unmoved now rfl rfl
  | exitCritical user later now => exact unmoved now rfl rfl
  | startup user new now => exact unmoved now rfl rfl
  | switches stay resumed picks now => exact unmoved now rfl rfl
  | woken woken now => exact unmoved now rfl rfl
  | slept slept now => exact unmoved now rfl rfl
  | @timeout u _ _ on picks now =>
    refine ⟨none, ?_, by rw [now.mutex]; exact fifo, .inl (by rw [now.mutex])⟩
    rw [queue now]
    exact .leaves _ _
  | slice picks now => exact unmoved now rfl rfl

/-- While a thread waits for a mutex that is given in the order of arrival, only threads in front of it get it, each of
them once, and nobody comes in front of it. -/
theorem no_overtaking (reached : Reached idle s) {m t : Nat} (fifo : (s.rt.mutex m).flag = .fifo)
    (waits : t ∈ s.waiters m) {events : List Event}
    (stays : Runs.Always (step idle) (fun x => t ∈ x.waiters m) events s)
    (ran : Runs.run (step idle) events s = some s') :
    (Queue.front (s'.waiters m) t).Sublist (Queue.front (s.waiters m) t) ∧
      ((s'.rt.mutex m).owner = (s.rt.mutex m).owner ∨
        ∃ u ∈ Queue.front (s.waiters m) t, u ∉ Queue.front (s'.waiters m) t ∧ (s'.rt.mutex m).owner = some u) := by
  have inv := reached.inv
  suffices orderly : Queue.Orderly (s.waiters m) (s'.waiters m) t (s.rt.mutex m).owner (s'.rt.mutex m).owner from
    ⟨orderly.sublist, orderly.served⟩
  clear reached
  induction events generalizing s with
  | nil =>
    cases ran
    exact Queue.Orderly.refl ..
  | cons e events ih =>
    obtain ⟨next, made, ran⟩ := Option.bind_eq_some_iff.1 ran
    have later := stays.2 next made
    have there : t ∈ next.waiters m := by
      cases events with
      | nil => exact later
      | cons e' events => exact later.1
    have effect := inv.step_effect made
    obtain ⟨served, move, flag, owner⟩ := effect.queue fifo waits
    obtain ⟨sublist, front⟩ := move.front (inv.queues.nodup _) waits there
    refine Queue.Orderly.trans ⟨sublist, ?_⟩ (ih flag there later ran (inv.keeps effect))
    obtain same | ⟨h, served, owner⟩ := owner
    · exact .inl same
    · obtain ⟨mem, gone⟩ := front h served
      exact .inr ⟨h, mem, gone, owner⟩

/-- A time slice ends while the thread 2 waits. -/
theorem no_overtaking_three : ∃ s s' : Sys, s.waiters 7 = [2] ∧ Runs.run (step 0) [.slice] s = some s' ∧
    (Queue.front (s'.waiters 7) 2).Sublist (Queue.front (s.waiters 7) 2) ∧
      ((s'.rt.mutex 7).owner = (s.rt.mutex 7).owner ∨
        ∃ u ∈ Queue.front (s.waiters 7) 2, u ∉ Queue.front (s'.waiters 7) 2 ∧ (s'.rt.mutex 7).owner = some u) := by
  obtain ⟨s, reached, -, -, -, waiters, fifo⟩ := three_reached
  obtain ⟨s', made⟩ := reached.inv.proceeds (e := .slice) trivial
  have waits : 2 ∈ s.waiters 7 := by
    rw [waiters]
    exact List.mem_singleton_self 2
  have stays : Runs.Always (step 0) (fun x => 2 ∈ x.waiters 7) [.slice] s := by
    refine ⟨waits, fun next made => ?_⟩
    cases reached.inv.step_effect made with
    | slice picks now =>
      show 2 ∈ next.waiters 7
      rw [show next.waiters 7 = s.waiters 7 from now.waiters 7]
      exact waits
  have ran : Runs.run (step 0) [.slice] s = some s' := by
    rw [Runs.run, made]
    rfl
  exact ⟨s, s', waiters, ran, no_overtaking reached fifo waits stays ran⟩

end States

end Ecu.Kernel.Sys
