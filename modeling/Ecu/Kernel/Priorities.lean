import Ecu.Kernel.SystemRuns

/-!
# Priorities

Whether the current thread is one of the highest priority among those that are ready (`Settled`), whether an owner is
as urgent as those that wait for its mutex (`Inherits`), and whether a thread without a mutex has the priority that it
was started with (`Restored`). Neither holds of every run: the first two do just in the runs without the events that
`Unsettles` and `Inverts` name, the third where a thread gives back last what it took first.
-/

namespace Ecu.Kernel

/-- A call of `rt_schedule` comes next. -/
def Pc.due : Pc → Bool
  | .switching | .waits _ | .sleeps => true
  | _ => false

namespace Sys

variable {idle : Nat} {s s' : Sys}

def priorityOf (s : Sys) (t : Nat) : Nat :=
  (s.rt.thread t).currentPriority

/-! ## The current thread -/

/-- No ready thread is more urgent than the current one, unless the scheduler is locked or `rt_schedule` comes next. -/
def Settled (s : Sys) : Prop :=
  s.rt.lockNest = 0 → (s.pc s.rt.current).due = false →
    ∀ u, (s.rt.thread u).stat = .ready → s.priorityOf s.rt.current ≤ s.priorityOf u

/-- A release without `rt_schedule` by a thread that is then less urgent than another one that is ready. -/
def Unsettles (s : Sys) : Event → Prop
  | .release m =>
    (s.rt.mutex m).owner = some s.rt.current ∧ (s.rt.mutex m).hold = 1 ∧ s.waiters m = [] ∧ s.rt.lockNest = 0 ∧
      ∃ u, u ≠ s.rt.current ∧ (s.rt.thread u).stat = .ready ∧ s.priorityOf u < (s.rt.mutex m).originalPriority
  | _ => False

theorem Top.settled (top : s.rt.lockNest = 0 → Top s.rt) : s.Settled := fun unlocked _ u ready =>
  (top unlocked).least u ready

/-- The same priorities and the same thread. -/
theorem Settled.same (settled : s.Settled) (threads : ∀ u, (s'.rt.thread u).stat = (s.rt.thread u).stat ∧
    s'.priorityOf u = s.priorityOf u) (current : s'.rt.current = s.rt.current) (lockNest : s'.rt.lockNest = s.rt.lockNest)
    (due : (s'.pc s'.rt.current).due = false → (s.pc s.rt.current).due = false) : s'.Settled := by
  intro unlocked calm u ready
  rw [(threads u).1] at ready
  rw [(threads _).2, (threads u).2, current]
  exact settled (lockNest ▸ unlocked) (due calm) u ready

/-- One thread with another `error`. -/
theorem error_same {t : Nat} {err : Err} (thread : s'.rt.thread = Function.update s.rt.thread t { s.rt.thread t with error := err })
    (u : Nat) : (s'.rt.thread u).stat = (s.rt.thread u).stat ∧ s'.priorityOf u = s.priorityOf u := by
  rw [priorityOf, priorityOf, thread]
  by_cases same : u = t
  · rw [same, Function.update_self]
    exact ⟨rfl, rfl⟩
  · rw [Function.update_of_ne same]
    exact ⟨rfl, rfl⟩

/-- One thread with the same priority. -/
theorem priority_same {t : Nat} {th : Thread} (thread : s'.rt.thread = Function.update s.rt.thread t th)
    (same : th.currentPriority = s.priorityOf t) (u : Nat) : s'.priorityOf u = s.priorityOf u := by
  rw [priorityOf, thread]
  by_cases eq : u = t
  · rw [eq, Function.update_self, same]
  · rw [Function.update_of_ne eq]
    rfl

theorem threads_same (thread : s'.rt.thread = s.rt.thread) (u : Nat) :
    (s'.rt.thread u).stat = (s.rt.thread u).stat ∧ s'.priorityOf u = s.priorityOf u := by
  rw [priorityOf, priorityOf, thread]
  exact ⟨rfl, rfl⟩

/-- Where `rt_schedule` comes next nothing is asked. -/
theorem settled_due (pc : (s'.pc s'.rt.current).due = true) : s'.Settled := by
  intro _ calm
  rw [pc] at calm
  cases calm

theorem settled_locked (locked : s'.rt.lockNest ≠ 0) : s'.Settled := fun unlocked => absurd unlocked locked

/-- Another event that `Unsettles` the state leaves it settled. -/
theorem Settled.next_iff (settled : s.Settled) {e : Event} (effect : Effect idle s e s') :
    s'.Settled ↔ ¬ s.Unsettles e := by
  have calls {pc : Pc} (now : s'.pc = Function.update s.pc s.rt.current pc) (current : s'.rt.current = s.rt.current)
      (due : pc.due = true) : s'.Settled := by
    refine settled_due ?_
    rw [current, now, Function.update_self]
    exact due
  have unmoved (threads : ∀ u, (s'.rt.thread u).stat = (s.rt.thread u).stat ∧ s'.priorityOf u = s.priorityOf u)
      (current : s'.rt.current = s.rt.current) (lockNest : s'.rt.lockNest = s.rt.lockNest) (pc : s'.pc = s.pc) :
      s'.Settled := by
    refine settled.same threads current lockNest fun calm => ?_
    rwa [current, pc] at calm
  have returns {before : Pc} (threads : ∀ u, (s'.rt.thread u).stat = (s.rt.thread u).stat ∧ s'.priorityOf u = s.priorityOf u)
      (current : s'.rt.current = s.rt.current) (lockNest : s'.rt.lockNest = s.rt.lockNest)
      (pc : s.pc s.rt.current = before) (due : before.due = false) : s'.Settled :=
    settled.same threads current lockNest fun _ => by rw [pc, due]
  cases effect with
  | retake user owner small now =>
    exact iff_of_true (unmoved (error_same now.thread) now.current now.lockNest now.pc) id
  | takeFree user free nobody now =>
    exact iff_of_true (unmoved (error_same now.thread) now.current now.lockNest now.pc) id
  | refused user owner ne now =>
    exact iff_of_true (unmoved (error_same now.thread) now.current now.lockNest now.pc) id
  | waits user owner ne waits unlocked busy added fifo now => exact iff_of_true (calls now.pc now.current rfl) id
  | releaseOther user other now =>
    exact iff_of_true (unmoved (error_same now.thread) now.current now.lockNest now.pc) fun bad => other bad.1
  | releaseMore user owner more now =>
    refine iff_of_true (unmoved (threads_same now.thread) now.current now.lockNest now.pc) fun bad => ?_
    rw [bad.2.1] at more
    exact Nat.lt_irrefl 1 more
  | @releaseLast m s' user owner last nobody now =>
    have self : s'.priorityOf s.rt.current = (s.rt.mutex m).originalPriority := by
      rw [priorityOf, now.thread, Rt.restore, Function.update_self]
    have other {u : Nat} (ne : u ≠ s.rt.current) : s'.rt.thread u = s.rt.thread u := by
      rw [now.thread, Rt.restore, Function.update_of_ne ne]
    constructor
    · rintro settled' ⟨-, -, -, unlocked, u, ne, ready, less⟩
      have calm : (s'.pc s'.rt.current).due = false := by
        rw [now.current, now.pc, user]
        rfl
      have least := settled' (now.lockNest.trans unlocked) calm u (by rw [other ne]; exact ready)
      rw [now.current, self, priorityOf, other ne] at least
      exact Nat.lt_irrefl _ (Nat.lt_of_lt_of_le less least)
    · intro fine unlocked _ u ready
      rw [now.current, self]
      by_cases ne : u = s.rt.current
      · rw [ne, self]
      · refine Nat.not_lt.1 fun less => fine ⟨owner, last, nobody, now.lockNest ▸ unlocked, u, ne, ?_, ?_⟩
        · rwa [other ne] at ready
        · rwa [priorityOf, other ne] at less
  | releaseHands user owner last queue now =>
    refine iff_of_true (calls now.pc now.current rfl) fun bad => ?_
    have nobody := bad.2.2.1
    rw [queue] at nobody
    cases nobody
  | yields user later now =>
    refine iff_of_true ?_ id
    obtain rfl | rfl := later
    · exact returns (threads_same now.thread) now.current now.lockNest user rfl
    · exact calls now.pc now.current rfl
  | delay user unlocked busy now => exact iff_of_true (calls now.pc now.current rfl) id
  | enterCritical user now =>
    refine iff_of_true (settled_locked ?_) id
    rw [now.lockNest]
    exact Nat.succ_ne_zero _
  | exitCritical user later now =>
    refine iff_of_true ?_ id
    obtain ⟨-, locked⟩ | rfl := later
    · refine settled_locked ?_
      rw [now.lockNest]
      exact locked
    · exact calls now.pc now.current rfl
  | startup user new now => exact iff_of_true (calls now.pc now.current rfl) id
  | switches stay resumed picks now =>
    exact iff_of_true (Top.settled fun unlocked => picks.unlocked (now.lockNest ▸ unlocked)) id
  | woken woken now => exact iff_of_true (returns (threads_same now.thread) now.current now.lockNest woken rfl) id
  | slept slept now => exact iff_of_true (returns (error_same now.thread) now.current now.lockNest slept rfl) id
  | timeout on picks now =>
    exact iff_of_true (Top.settled fun unlocked => picks.unlocked (now.lockNest ▸ unlocked)) id
  | slice picks now =>
    refine iff_of_true ?_ id
    obtain same | picks := picks
    · exact unmoved (threads_same now.thread) same now.lockNest now.pc
    · exact Top.settled fun unlocked => picks.unlocked (now.lockNest ▸ unlocked)

/-! ## The owners -/

/-- An owner is as urgent as each of those that wait for its mutex. -/
def Inherits (s : Sys) : Prop :=
  ∀ m o u, (s.rt.mutex m).owner = some o → u ∈ s.waiters m → s.priorityOf o ≤ s.priorityOf u

/-- The owner gets a priority that the one for whom it waits itself does not get; a thread that goes back to its
priority owns another mutex for which a more urgent thread waits; a mutex goes to a thread that is less urgent than
another one in the list. -/
def Inverts (s : Sys) : Event → Prop
  | .take m time =>
    time ≠ 0 ∧ ∃ o, (s.rt.mutex m).owner = some o ∧ o ≠ s.rt.current ∧ s.priorityOf s.rt.current < s.priorityOf o ∧
      ∃ m' o', o ∈ s.waiters m' ∧ (s.rt.mutex m').owner = some o' ∧ s.priorityOf s.rt.current < s.priorityOf o'
  | .release m =>
    (s.rt.mutex m).owner = some s.rt.current ∧ (s.rt.mutex m).hold = 1 ∧
      ((∃ m' u, m' ≠ m ∧ (s.rt.mutex m').owner = some s.rt.current ∧ u ∈ s.waiters m' ∧
          s.priorityOf u < (s.rt.mutex m).originalPriority) ∨
        ∃ h rest u, s.waiters m = h :: rest ∧ u ∈ rest ∧ s.priorityOf u < s.priorityOf h)
  | _ => False

/-- No other pairs, no owner less urgent and no waiter more urgent. -/
theorem Inherits.keep (inherits : s.Inherits)
    (keep : ∀ m o u, (s'.rt.mutex m).owner = some o → u ∈ s'.waiters m →
      (s.rt.mutex m).owner = some o ∧ u ∈ s.waiters m ∧ s'.priorityOf o ≤ s.priorityOf o ∧
        s.priorityOf u ≤ s'.priorityOf u) : s'.Inherits := by
  intro m o u owner mem
  obtain ⟨owner, mem, less, more⟩ := keep m o u owner mem
  exact (less.trans (inherits m o u owner mem)).trans more

/-- The same mutexes, lists and priorities. -/
theorem Inherits.same (inherits : s.Inherits) (mutex : s'.rt.mutex = s.rt.mutex) (waiters : ∀ m, s'.waiters m = s.waiters m)
    (priority : ∀ u, s'.priorityOf u = s.priorityOf u) : s'.Inherits := by
  refine inherits.keep fun m o u owner mem => ⟨mutex ▸ owner, waiters m ▸ mem, ?_, ?_⟩
  · rw [priority]
  · rw [priority]

/-- A thread that waits is neither ready nor still to be started. -/
theorem Inv.waiter_suspended (inv : Inv idle s) {m u : Nat} (mem : u ∈ s.waiters m) : (s.rt.thread u).stat = .suspend :=
  (inv.queues.waiting u m mem).2

theorem Inv.owner_notMem (inv : Inv idle s) {m o : Nat} (owner : (s.rt.mutex m).owner = some o) : o ∉ s.waiters m := by
  intro mem
  have suspended := inv.waiter_suspended mem
  cases inv.waiting o m (inv.waiter o m mem) with
  | waits _ _ _ other => exact other owner
  | late ready _ _ =>
    rw [suspended] at ready
    cases ready
  | owns ready _ _ _ =>
    rw [suspended] at ready
    cases ready

/-- Where only the mutex `m` changes, and none of its owners. -/
theorem Inherits.count {m : Nat} {x : RtMutex} (inherits : s.Inherits)
    (mutex : s'.rt.mutex = Function.update s.rt.mutex m x) (owner : x.owner = (s.rt.mutex m).owner ∨ s.waiters m = [])
    (waiters : ∀ m, s'.waiters m = s.waiters m) (priority : ∀ u, s'.priorityOf u = s.priorityOf u) : s'.Inherits := by
  refine inherits.keep fun m' o u owns mem => ?_
  rw [waiters] at mem
  rw [mutex] at owns
  rw [priority, priority]
  refine ⟨?_, mem, Nat.le_refl _, Nat.le_refl _⟩
  by_cases same : m' = m
  · rw [same, Function.update_self] at owns
    obtain eq | nobody := owner
    · rw [same, ← eq]
      exact owns
    · rw [same, nobody] at mem
      exact absurd mem List.not_mem_nil
  · rwa [Function.update_of_ne same] at owns

theorem Inherits.waits_iff (inv : Inv idle s) (inherits : s.Inherits) {m o : Nat} {time : Int} {list : List Nat}
    (user : s.pc s.rt.current = .user) (owner : (s.rt.mutex m).owner = some o) (ne : o ≠ s.rt.current) (waits : time ≠ 0)
    (added : list.Perm (s.rt.current :: s.waiters m)) {th : Thread} {pc : Nat → Pc} {n : Nat}
    (now : Becomes s' (Function.update (s.rt.inherit o s.rt.current) s.rt.current th) s.rt.mutex
      (Function.update s.waiters m list) pc s.held s.rt.current n)
    (priority : th.currentPriority = s.priorityOf s.rt.current) :
    s'.Inherits ↔ ¬ s.Inverts (.take m time) := by
  have ready := inv.current_ready (by rw [user]; rfl)
  have self : s'.priorityOf s.rt.current = s.priorityOf s.rt.current := by
    rw [priorityOf, now.thread, Function.update_self, priority]
  have other {u : Nat} (ne' : u ≠ s.rt.current) (ne : u ≠ o) : s'.priorityOf u = s.priorityOf u := by
    rw [priorityOf, now.thread, Function.update_of_ne ne', Rt.inherit]
    dsimp only
    split_ifs
    · rw [Function.update_of_ne ne]
      rfl
    · rfl
  have raised : s'.priorityOf o = min (s.priorityOf s.rt.current) (s.priorityOf o) := by
    rw [priorityOf, now.thread, Function.update_of_ne ne, Rt.inherit]
    dsimp only
    split_ifs with more
    · rw [Function.update_self]
      exact (Nat.min_eq_left (Nat.le_of_lt more)).symm
    · exact (Nat.min_eq_right (Nat.not_lt.1 more)).symm
  have less (u : Nat) : s'.priorityOf u ≤ s.priorityOf u := by
    by_cases first : u = s.rt.current
    · rw [first, self]
    · by_cases second : u = o
      · rw [second, raised]
        exact Nat.min_le_right _ _
      · rw [other first second]
  have running (m' : Nat) : s.rt.current ∉ s.waiters m' := fun mem => by
    have suspended := inv.waiter_suspended mem
    rw [ready] at suspended
    cases suspended
  have mem_iff {m' u : Nat} : u ∈ s'.waiters m' ↔ u ∈ s.waiters m' ∨ m' = m ∧ u = s.rt.current := by
    rw [show s'.waiters m' = Function.update s.waiters m list m' from now.waiters m']
    by_cases same : m' = m
    · rw [same, Function.update_self, added.mem_iff, List.mem_cons, and_iff_right rfl, or_comm]
    · rw [Function.update_of_ne same]
      exact (or_iff_left fun both => same both.1).symm
  constructor
  · rintro inherits' ⟨-, o₁, owner₁, -, more, m', o', mem, owner', more'⟩
    rw [owner] at owner₁
    cases owner₁
    have least := inherits' m' o' o (by rw [now.mutex]; exact owner') (mem_iff.2 (.inl mem))
    have apart : o' ≠ o := fun same => inv.owner_notMem (same ▸ owner') mem
    have least' : s.priorityOf o' ≤ s.priorityOf s.rt.current := by
      rw [raised, Nat.min_eq_left (Nat.le_of_lt more)] at least
      by_cases same : o' = s.rt.current
      · rw [same]
      · rwa [other same apart] at least
    exact Nat.lt_irrefl _ (Nat.lt_of_lt_of_le more' least')
  · intro fine m' o' u owner' mem
    rw [now.mutex] at owner'
    obtain mem | ⟨rfl, rfl⟩ := mem_iff.1 mem
    · have before := inherits m' o' u owner' mem
      have first : u ≠ s.rt.current := fun same => running m' (same ▸ mem)
      by_cases second : u = o
      · subst second
        rw [raised]
        refine Nat.le_min.2 ⟨?_, (less o').trans before⟩
        by_cases more : s.priorityOf s.rt.current < s.priorityOf u
        · refine Nat.not_lt.1 fun bad => fine ⟨waits, u, owner, ne, more, m', o', mem, owner', ?_⟩
          exact Nat.lt_of_lt_of_le bad (less o')
        · exact ((less o').trans before).trans (Nat.not_lt.1 more)
      · rw [other first second]
        exact (less o').trans before
    · rw [owner] at owner'
      cases owner'
      rw [raised, self]
      exact Nat.min_le_left _ _

/-- A thread that has its original priority again, in a list with the one that gets the mutex in front. -/
theorem Inherits.release_iff (inv : Inv idle s) (inherits : s.Inherits) {m : Nat} {x : RtMutex} {rest : List Nat}
    (user : s.pc s.rt.current = .user) (owner : (s.rt.mutex m).owner = some s.rt.current)
    (last : (s.rt.mutex m).hold = 1)
    (handed : x.owner = none ∧ s.waiters m = [] ∧ rest = [] ∨ ∃ h, x.owner = some h ∧ s.waiters m = h :: rest)
    (self : s'.priorityOf s.rt.current = (s.rt.mutex m).originalPriority)
    (other : ∀ u, u ≠ s.rt.current → s'.priorityOf u = s.priorityOf u)
    (mutex : s'.rt.mutex = Function.update s.rt.mutex m x)
    (waiters : ∀ m', s'.waiters m' = Function.update s.waiters m rest m') :
    s'.Inherits ↔ ¬ s.Inverts (.release m) := by
  have ready := inv.current_ready (by rw [user]; rfl)
  have running {m' u : Nat} (mem : u ∈ s.waiters m') : u ≠ s.rt.current := fun same => by
    have suspended := inv.waiter_suspended mem
    rw [same, ready] at suspended
    cases suspended
  have later {u : Nat} (mem : u ∈ rest) : u ∈ s.waiters m := by
    obtain ⟨-, -, none⟩ | ⟨h, -, queue⟩ := handed
    · rw [none] at mem
      exact absurd mem List.not_mem_nil
    · rw [queue]
      exact List.mem_cons_of_mem _ mem
  constructor
  · rintro inherits' ⟨-, -, ⟨m', u, apart, owner', mem, less⟩ | ⟨h, rest', u, queue, mem, less⟩⟩
    · have least := inherits' m' s.rt.current u (by rw [mutex, Function.update_of_ne apart]; exact owner')
        (by rw [waiters, Function.update_of_ne apart]; exact mem)
      rw [self, other u (running mem)] at least
      exact Nat.lt_irrefl _ (Nat.lt_of_lt_of_le less least)
    · obtain ⟨-, nobody, -⟩ | ⟨h', handed, queue'⟩ := handed
      · rw [nobody] at queue
        cases queue
      · rw [queue'] at queue
        cases queue
        have first : h ∈ s.waiters m := by
          rw [queue']
          exact List.mem_cons_self
        have least := inherits' m h u (by rw [mutex, Function.update_self]; exact handed)
          (by rw [waiters, Function.update_self]; exact mem)
        rw [other h (running first), other u (running (later mem))] at least
        exact Nat.lt_irrefl _ (Nat.lt_of_lt_of_le less least)
  · intro fine m' o u owner' mem
    rw [waiters] at mem
    rw [mutex] at owner'
    by_cases same : m' = m
    · rw [same, Function.update_self] at owner' mem
      obtain ⟨-, -, none⟩ | ⟨h, handed, queue⟩ := handed
      · rw [none] at mem
        exact absurd mem List.not_mem_nil
      · rw [handed] at owner'
        cases owner'
        have first : o ∈ s.waiters m := by
          rw [queue]
          exact List.mem_cons_self
        rw [other o (running first), other u (running (later mem))]
        exact Nat.not_lt.1 fun less => fine ⟨owner, last, .inr ⟨o, rest, u, queue, mem, less⟩⟩
    · rw [Function.update_of_ne same] at owner' mem
      rw [other u (running mem)]
      by_cases own : o = s.rt.current
      · subst own
        rw [self]
        exact Nat.not_lt.1 fun less => fine ⟨owner, last, .inl ⟨m', u, same, owner', mem, less⟩⟩
      · rw [other o own]
        exact inherits m' o u owner' mem

theorem Inherits.next_iff (inv : Inv idle s) (inherits : s.Inherits) {e : Event} (effect : Effect idle s e s') :
    s'.Inherits ↔ ¬ s.Inverts e := by
  cases effect with
  | @retake m time _ user owner small now =>
    refine iff_of_true (inherits.count now.mutex (.inl rfl) now.waiters (priority_same now.thread rfl)) ?_
    rintro ⟨-, o, owner', ne, -⟩
    rw [owner] at owner'
    exact ne (Option.some.inj owner').symm
  | takeFree user free nobody now =>
    refine iff_of_true (inherits.count now.mutex (.inr nobody) now.waiters (priority_same now.thread rfl)) ?_
    rintro ⟨-, o, owner', -⟩
    rw [free.1] at owner'
    cases owner'
  | refused user owner ne now =>
    exact iff_of_true (inherits.same now.mutex now.waiters (priority_same now.thread rfl)) fun bad => bad.1 rfl
  | waits user owner ne waits unlocked busy added fifo now =>
    exact inherits.waits_iff inv user owner ne waits added now rfl
  | releaseOther user other now =>
    exact iff_of_true (inherits.same now.mutex now.waiters (priority_same now.thread rfl)) fun bad => other bad.1
  | releaseMore user owner more now =>
    refine iff_of_true (inherits.count now.mutex (.inl rfl) now.waiters (fun u => (threads_same now.thread u).2)) fun bad => ?_
    rw [bad.2.1] at more
    exact Nat.lt_irrefl 1 more
  | @releaseLast m _ user owner last nobody now =>
    refine inherits.release_iff inv user owner last (.inl ⟨rfl, nobody, rfl⟩) ?_ (fun u ne => ?_) now.mutex fun m' => ?_
    · rw [priorityOf, now.thread, Rt.restore, Function.update_self]
    · rw [priorityOf, now.thread, Rt.restore, Function.update_of_ne ne]
      rfl
    · rw [show s'.waiters m' = s.waiters m' from now.waiters m', ← nobody, Function.update_eq_self]
  | @releaseHands m h rest _ user owner last queue now =>
    have first : h ∈ s.waiters m := by
      rw [queue]
      exact List.mem_cons_self
    have ready := inv.current_ready (by rw [user]; rfl)
    have ne : s.rt.current ≠ h := fun same => by
      have suspended := inv.waiter_suspended first
      rw [← same, ready] at suspended
      cases suspended
    refine inherits.release_iff inv user owner last (.inr ⟨h, rfl, queue⟩) ?_ (fun u other => ?_) now.mutex now.waiters
    · rw [priorityOf, now.thread, Function.update_of_ne ne, Rt.restore, Function.update_self]
    · rw [priorityOf, now.thread]
      by_cases same : u = h
      · rw [same, Function.update_self]
        rfl
      · rw [Function.update_of_ne same, Rt.restore, Function.update_of_ne other]
        rfl
  | yields user later now => exact iff_of_true (inherits.same now.mutex now.waiters (fun u => (threads_same now.thread u).2)) id
  | delay user unlocked busy now =>
    exact iff_of_true (inherits.same now.mutex now.waiters (priority_same now.thread rfl)) id
  | enterCritical user now => exact iff_of_true (inherits.same now.mutex now.waiters (fun u => (threads_same now.thread u).2)) id
  | exitCritical user later now => exact iff_of_true (inherits.same now.mutex now.waiters (fun u => (threads_same now.thread u).2)) id
  | @startup t _ user new now =>
    have other {u : Nat} (started : (s.rt.thread u).stat ≠ .init) : s'.priorityOf u = s.priorityOf u := by
      have ne : u ≠ t := fun same => started (same ▸ new)
      rw [priorityOf, now.thread, Function.update_of_ne ne]
      rfl
    refine iff_of_true (inherits.keep fun m o u owner mem => ?_) id
    have owner : (s.rt.mutex m).owner = some o := now.mutex ▸ owner
    have mem : u ∈ s.waiters m := now.waiters m ▸ mem
    refine ⟨owner, mem, ?_, ?_⟩
    · rw [other (inv.owner_of owner).2]
    · rw [other]
      rw [inv.waiter_suspended mem]
      decide
  | switches stay resumed picks now =>
    exact iff_of_true (inherits.same now.mutex now.waiters (fun u => (threads_same now.thread u).2)) id
  | woken woken now => exact iff_of_true (inherits.same now.mutex now.waiters (fun u => (threads_same now.thread u).2)) id
  | slept slept now => exact iff_of_true (inherits.same now.mutex now.waiters (priority_same now.thread rfl)) id
  | @timeout t _ _ on picks now =>
    refine iff_of_true (inherits.keep fun m o u owner mem => ⟨now.mutex ▸ owner, ?_, ?_, ?_⟩) id
    · have mem : u ∈ (s.waiters m).filter (· ≠ t) := now.waiters m ▸ mem
      exact (Queues.mem_remove.1 mem).1
    · rw [priority_same now.thread rfl]
    · rw [priority_same now.thread rfl]
  | slice picks now => exact iff_of_true (inherits.same now.mutex now.waiters (fun u => (threads_same now.thread u).2)) id

/-! ## Back to the first priority -/

def initOf (s : Sys) (t : Nat) : Nat :=
  (s.rt.thread t).initPriority

/-- A thread that owns no mutex has the priority that it was started with. -/
def Restored (s : Sys) : Prop :=
  ∀ t, (∀ m, (s.rt.mutex m).owner ≠ some t) → s.priorityOf t = s.initOf t

/-- The mutex that a thread took first is the last that it gives back. -/
def InOrder (s : Sys) : Event → Prop
  | .release m =>
    (s.held s.rt.current).getLast? = some m → (s.held s.rt.current).count m = 1 → s.held s.rt.current = [m]
  | _ => True

/-- The first mutex of a thread has the priority to which the thread goes back. -/
structure Based (s : Sys) : Prop where
  restored : s.Restored
  first : ∀ t b, (s.held t).getLast? = some b → (s.rt.mutex b).originalPriority = s.initOf t
  handed : ∀ t m, s.held t = [] → (s.rt.mutex m).owner = some t → (s.rt.mutex m).originalPriority = s.initOf t

theorem getLast?_erase {l : List Nat} {m : Nat} (more : l.getLast? = some m → l.count m ≠ 1) :
    (l.erase m).getLast? = l.getLast? := by
  cases eq : l.getLast? with
  | none =>
    rw [List.getLast?_eq_none_iff.1 eq]
    rfl
  | some b =>
    obtain ⟨ys, rfl⟩ := List.getLast?_eq_some_iff.1 eq
    by_cases mem : m ∈ ys
    · rw [List.erase_append_left _ mem]
      simp
    · by_cases same : b = m
      · subst same
        refine absurd ?_ (more eq)
        rw [List.count_append, List.count_eq_zero.2 mem]
        simp
      · rw [List.erase_append_right _ mem, List.erase_of_not_mem (by simpa using Ne.symm same)]
        simp

theorem getLast?_push {l : List Nat} (m : Nat) (some : l ≠ []) : (m :: l).getLast? = l.getLast? := by
  cases l with
  | nil => exact absurd rfl some
  | cons a l => exact List.getLast?_cons_cons

namespace Inv

theorem owns_of_mem (inv : Inv idle s) {t m : Nat} (mem : m ∈ s.held t) : (s.rt.mutex m).owner = some t := by
  have positive := List.count_pos_iff.2 mem
  rw [inv.held] at positive
  split_ifs at positive with owns
  · exact owns.1
  · exact absurd positive (Nat.lt_irrefl 0)

theorem mem_of_owns (inv : Inv idle s) {t m : Nat} (owner : (s.rt.mutex m).owner = some t)
    (outside : (s.pc t).stay ≠ .mutex m) : m ∈ s.held t := by
  refine List.count_pos_iff.1 ?_
  rw [inv.held, if_pos ⟨owner, outside⟩]
  exact (inv.owner_of owner).1.positive

end Inv

/-- Nothing that matters for `Based`. -/
theorem Based.same (based : s.Based) (mutex : s'.rt.mutex = s.rt.mutex) (held : s'.held = s.held)
    (priority : ∀ t, (∀ m, (s.rt.mutex m).owner ≠ some t) → s.priorityOf t = s.initOf t → s'.priorityOf t = s'.initOf t)
    (init : ∀ t, s'.initOf t = s.initOf t) : s'.Based := by
  refine ⟨fun t free => ?_, fun t b last => ?_, fun t m none owner => ?_⟩
  · rw [mutex] at free
    exact priority t free (based.restored t free)
  · rw [held] at last
    rw [mutex, init]
    exact based.first t b last
  · rw [held] at none
    rw [mutex] at owner ⊢
    rw [init]
    exact based.handed t m none owner

theorem init_same {t : Nat} {th : Thread} (thread : s'.rt.thread = Function.update s.rt.thread t th)
    (same : th.initPriority = s.initOf t) (u : Nat) : s'.initOf u = s.initOf u := by
  rw [initOf, thread]
  by_cases eq : u = t
  · rw [eq, Function.update_self, same]
  · rw [Function.update_of_ne eq]
    rfl

theorem init_threads (thread : s'.rt.thread = s.rt.thread) (u : Nat) : s'.initOf u = s.initOf u := by
  rw [initOf, thread]
  rfl

/-- A thread takes a mutex: it was free, or handed over to it, or its own already. -/
theorem Based.push (based : s.Based) {c m : Nat} (held : s'.held = Function.update s.held c (m :: s.held c))
    (restored : s'.Restored) (init : ∀ t, s'.initOf t = s.initOf t)
    (original : ∀ t b, b ∈ s.held t → (s'.rt.mutex b).originalPriority = (s.rt.mutex b).originalPriority)
    (base : s.held c = [] → (s'.rt.mutex m).originalPriority = s.initOf c)
    (others : ∀ t m', t ≠ c → (s'.rt.mutex m').owner = some t →
      (s.rt.mutex m').owner = some t ∧ (s'.rt.mutex m').originalPriority = (s.rt.mutex m').originalPriority) :
    s'.Based := by
  refine ⟨restored, fun t b last => ?_, fun t m' none owner => ?_⟩
  · rw [init]
    by_cases same : t = c
    · subst same
      rw [held, Function.update_self] at last
      by_cases none : s.held t = []
      · rw [none] at last
        cases last
        exact base none
      · rw [getLast?_push m none] at last
        rw [original t b (List.mem_of_getLast? last)]
        exact based.first t b last
    · rw [held, Function.update_of_ne same] at last
      rw [original t b (List.mem_of_getLast? last)]
      exact based.first t b last
  · have ne : t ≠ c := fun same => by
      rw [same, held, Function.update_self] at none
      cases none
    rw [held, Function.update_of_ne ne] at none
    obtain ⟨owner, eq⟩ := others t m' ne owner
    rw [init, eq]
    exact based.handed t m' none owner

/-- The owner gives a mutex back for the last time. -/
theorem Based.giveBack (inv : Inv idle s) (based : s.Based) {m : Nat} {x : RtMutex} (user : s.pc s.rt.current = .user)
    (owner : (s.rt.mutex m).owner = some s.rt.current) (last : (s.rt.mutex m).hold = 1)
    (inOrder : s.InOrder (.release m))
    (handed : x.owner = none ∨ ∃ h ∈ s.waiters m, x.owner = some h ∧ x.originalPriority = s.priorityOf h)
    (self : s'.priorityOf s.rt.current = (s.rt.mutex m).originalPriority)
    (other : ∀ u, u ≠ s.rt.current → s'.priorityOf u = s.priorityOf u) (init : ∀ u, s'.initOf u = s.initOf u)
    (mutex : s'.rt.mutex = Function.update s.rt.mutex m x)
    (held : s'.held = Function.update s.held s.rt.current ((s.held s.rt.current).erase m)) : s'.Based := by
  obtain ⟨c, current⟩ : ∃ c, c = s.rt.current := ⟨_, rfl⟩
  have outside (m' : Nat) : (s.pc c).stay ≠ .mutex m' := by
    rw [current, user]
    exact fun eq => by cases eq
  have ready := inv.current_ready (by rw [user]; rfl)
  have inOrder : (s.held s.rt.current).getLast? = some m → (s.held s.rt.current).count m = 1 →
      s.held s.rt.current = [m] := inOrder
  rw [← current] at owner inOrder self other held ready
  have mem := inv.mem_of_owns owner (outside m)
  have once : (s.held c).count m = 1 := by
    rw [inv.held, if_pos ⟨owner, outside m⟩, last]
  have gone : m ∉ (s.held c).erase m := fun again => by
    have positive := List.count_pos_iff.2 again
    rw [List.count_erase_self, once] at positive
    exact Nat.lt_irrefl 0 positive
  -- what the mutex was taken from is not in the thread's hands any more
  have notSelf : x.owner ≠ some c := by
    obtain none | ⟨h, waits, eq, -⟩ := handed
    · rw [none]
      exact fun eq => by cases eq
    · rw [eq]
      intro same
      have suspended := inv.waiter_suspended waits
      rw [Option.some.inj same, ready] at suspended
      cases suspended
  have owner' {t m' : Nat} (ne : m' ≠ m) (owns : (s'.rt.mutex m').owner = some t) :
      (s.rt.mutex m').owner = some t ∧ (s'.rt.mutex m').originalPriority = (s.rt.mutex m').originalPriority := by
    rw [mutex, Function.update_of_ne ne] at owns ⊢
    exact ⟨owns, rfl⟩
  have original {t b : Nat} (mem : b ∈ s'.held t) :
      b ∈ s.held t ∧ (s'.rt.mutex b).originalPriority = (s.rt.mutex b).originalPriority := by
    have before : b ∈ s.held t ∧ b ≠ m := by
      rw [held] at mem
      by_cases same : t = c
      · subst same
        rw [Function.update_self] at mem
        exact ⟨List.mem_of_mem_erase mem, fun eq => gone (eq ▸ mem)⟩
      · rw [Function.update_of_ne same] at mem
        refine ⟨mem, fun eq => same ?_⟩
        have owns := inv.owns_of_mem mem
        rw [eq, owner] at owns
        exact (Option.some.inj owns).symm
    rw [mutex, Function.update_of_ne before.2]
    exact ⟨before.1, rfl⟩
  have keeps {t m' : Nat} (ne : m' ≠ m) (none : s'.held t = []) (owns : (s.rt.mutex m').owner = some t) :
      s.held t = [] := by
    rw [held] at none
    by_cases same : t = c
    · subst same
      rw [Function.update_self] at none
      have mem' := (List.mem_erase_of_ne ne).2 (inv.mem_of_owns owns (outside m'))
      rw [none] at mem'
      exact absurd mem' List.not_mem_nil
    · rwa [Function.update_of_ne same] at none
  refine ⟨fun t free => ?_, fun t b last' => ?_, fun t m' none owns => ?_⟩
  · rw [init]
    by_cases same : t = c
    · subst same
      have only : s.held t = [m] := by
        refine inOrder ?_ once
        have rest : (s.held t).erase m = [] := by
          refine List.eq_nil_iff_forall_not_mem.2 fun b mem' => ?_
          have ne : b ≠ m := fun eq => gone (eq ▸ mem')
          refine free b ?_
          rw [mutex, Function.update_of_ne ne]
          exact inv.owns_of_mem (List.mem_of_mem_erase mem')
        obtain none | only := List.erase_eq_nil_iff.1 rest
        · rw [none] at mem
          exact absurd mem List.not_mem_nil
        · rw [only]
          rfl
      rw [self]
      exact based.first t m (by rw [only]; rfl)
    · have before : ∀ m', (s.rt.mutex m').owner ≠ some t := fun m' owns => by
        by_cases eq : m' = m
        · rw [eq, owner] at owns
          exact same (Option.some.inj owns).symm
        · refine free m' ?_
          rw [mutex, Function.update_of_ne eq]
          exact owns
      rw [other t same]
      exact based.restored t before
  · obtain ⟨-, eq⟩ := original (List.mem_of_getLast? last')
    rw [init, eq]
    refine based.first t b ?_
    rw [held] at last'
    by_cases same : t = c
    · subst same
      rw [Function.update_self] at last'
      by_cases first : (s.held t).getLast? = some m
      · rw [inOrder first once, List.erase_cons_head] at last'
        cases last'
      · rwa [getLast?_erase fun eq => absurd eq first] at last'
    · rwa [Function.update_of_ne same] at last'
  · rw [init]
    by_cases eq : m' = m
    · subst eq
      rw [mutex, Function.update_self] at owns ⊢
      obtain free | ⟨h, waits, handed, priority⟩ := handed
      · rw [free] at owns
        cases owns
      · rw [handed] at owns
        cases owns
        have ne : t ≠ c := fun same => notSelf (same ▸ handed)
        rw [held, Function.update_of_ne ne] at none
        rw [priority]
        refine based.restored t fun m'' owns => ?_
        have within := inv.waiter t m' waits
        by_cases eq : m'' = m'
        · rw [eq, owner] at owns
          exact ne (Option.some.inj owns).symm
        · have mem := inv.mem_of_owns owns fun stay => by
            rw [within] at stay
            exact eq (Stay.mutex.inj stay).symm
          rw [none] at mem
          exact absurd mem List.not_mem_nil
    · obtain ⟨owns, eq'⟩ := owner' eq owns
      rw [eq']
      exact based.handed t m' (keeps eq none owns) owns

theorem Based.next (inv : Inv idle s) (based : s.Based) {e : Event} (effect : Effect idle s e s')
    (inOrder : s.InOrder e) : s'.Based := by
  cases effect with
  | @retake m time _ user owner small now =>
    have mem := inv.mem_of_owns owner (by rw [user]; exact fun eq => by cases eq)
    have mutex (b : Nat) : (s'.rt.mutex b).owner = (s.rt.mutex b).owner ∧
        (s'.rt.mutex b).originalPriority = (s.rt.mutex b).originalPriority := by
      rw [now.mutex]
      by_cases same : b = m
      · rw [same, Function.update_self]
        exact ⟨rfl, rfl⟩
      · rw [Function.update_of_ne same]
        exact ⟨rfl, rfl⟩
    refine based.push now.held (fun t free => ?_) (init_same now.thread rfl) (fun _ b _ => (mutex b).2) (fun none => ?_)
      fun t m' _ owns => ⟨(mutex m').1 ▸ owns, (mutex m').2⟩
    · rw [priority_same now.thread rfl, init_same now.thread rfl]
      exact based.restored t fun m' owns => free m' ((mutex m').1.trans owns)
    · rw [none] at mem
      exact absurd mem List.not_mem_nil
  | @takeFree m time _ user free nobody now =>
    have mutex {b : Nat} (ne : b ≠ m) : s'.rt.mutex b = s.rt.mutex b := by
      rw [now.mutex, Function.update_of_ne ne]
    have apart {t b : Nat} (owns : (s.rt.mutex b).owner = some t) : b ≠ m := fun same => by
      rw [same, free.1] at owns
      cases owns
    refine based.push now.held (fun t none => ?_) (init_same now.thread rfl) (fun t b mem => ?_) (fun none => ?_)
      fun t m' ne owns => ?_
    · rw [priority_same now.thread rfl, init_same now.thread rfl]
      refine based.restored t fun m' owns => none m' ?_
      rw [mutex (apart owns)]
      exact owns
    · rw [mutex (apart (inv.owns_of_mem mem))]
    · rw [now.mutex, Function.update_self]
      refine based.restored s.rt.current fun m' owns => ?_
      have mem := inv.mem_of_owns owns (by rw [user]; exact fun eq => by cases eq)
      rw [none] at mem
      exact absurd mem List.not_mem_nil
    · have other : m' ≠ m := fun same => by
        rw [same, now.mutex, Function.update_self] at owns
        exact ne (Option.some.inj owns).symm
      rw [mutex other] at owns ⊢
      exact ⟨owns, rfl⟩
  | refused user owner ne now =>
    refine based.same now.mutex now.held (fun t _ eq => ?_) (init_same now.thread rfl)
    rw [priority_same now.thread rfl, eq, init_same now.thread rfl]
  | @waits m o time _ list user owner ne waits unlocked busy added fifo now =>
    have init (u : Nat) : s'.initOf u = s.initOf u := by
      rw [initOf, now.thread]
      by_cases same : u = s.rt.current
      · rw [same, Function.update_self]
        rfl
      · rw [Function.update_of_ne same, (Inv.inherit_same ..).2.2.2]
        rfl
    refine based.same now.mutex now.held (fun t free eq => ?_) init
    rw [init, ← eq, priorityOf, now.thread]
    by_cases same : t = s.rt.current
    · rw [same, Function.update_self]
      rfl
    · have other : t ≠ o := fun eq => free m (eq ▸ owner)
      rw [Function.update_of_ne same, Rt.inherit]
      dsimp only
      split_ifs
      · rw [Function.update_of_ne other]
        rfl
      · rfl
  | releaseOther user other now =>
    refine based.same now.mutex now.held (fun t _ eq => ?_) (init_same now.thread rfl)
    rw [priority_same now.thread rfl, eq, init_same now.thread rfl]
  | @releaseMore m _ user owner more now =>
    have outside : (s.pc s.rt.current).stay ≠ .mutex m := by
      rw [user]
      exact fun eq => by cases eq
    have many : (s.held s.rt.current).count m ≠ 1 := by
      rw [inv.held, if_pos ⟨owner, outside⟩]
      exact Nat.ne_of_gt more
    have mutex (b : Nat) : (s'.rt.mutex b).owner = (s.rt.mutex b).owner ∧
        (s'.rt.mutex b).originalPriority = (s.rt.mutex b).originalPriority := by
      rw [now.mutex]
      by_cases same : b = m
      · rw [same, Function.update_self]
        exact ⟨rfl, rfl⟩
      · rw [Function.update_of_ne same]
        exact ⟨rfl, rfl⟩
    refine ⟨fun t free => ?_, fun t b last => ?_, fun t m' none owns => ?_⟩
    · rw [priorityOf, now.thread, init_threads now.thread]
      exact based.restored t fun m' owns => free m' ((mutex m').1.trans owns)
    · rw [(mutex b).2, init_threads now.thread]
      refine based.first t b ?_
      rw [now.held] at last
      by_cases same : t = s.rt.current
      · subst same
        rwa [Function.update_self, getLast?_erase fun _ => many] at last
      · rwa [Function.update_of_ne same] at last
    · rw [(mutex m').1] at owns
      rw [(mutex m').2, init_threads now.thread]
      refine based.handed t m' ?_ owns
      rw [now.held] at none
      by_cases same : t = s.rt.current
      · subst same
        rw [Function.update_self] at none
        have left : ((s.held s.rt.current).erase m).count m = (s.held s.rt.current).count m - 1 := List.count_erase_self ..
        rw [none, inv.held, if_pos ⟨owner, outside⟩, List.count_nil] at left
        omega
      · rwa [Function.update_of_ne same] at none
  | @releaseLast m _ user owner last nobody now =>
    refine based.giveBack inv user owner last inOrder (.inl rfl) ?_ (fun u ne => ?_) (fun u => ?_) now.mutex now.held
    · rw [priorityOf, now.thread, Rt.restore, Function.update_self]
    · rw [priorityOf, now.thread, Rt.restore, Function.update_of_ne ne]
      rfl
    · rw [initOf, now.thread, (Inv.restore_same ..).2.2.2]
      rfl
  | @releaseHands m h rest _ user owner last queue now =>
    have first : h ∈ s.waiters m := by
      rw [queue]
      exact List.mem_cons_self
    have ready := inv.current_ready (by rw [user]; rfl)
    have ne : s.rt.current ≠ h := fun same => by
      have suspended := inv.waiter_suspended first
      rw [← same, ready] at suspended
      cases suspended
    refine based.giveBack inv user owner last inOrder (.inr ⟨h, first, rfl, rfl⟩) ?_ (fun u other => ?_) (fun u => ?_)
      now.mutex now.held
    · rw [priorityOf, now.thread, Function.update_of_ne ne, Rt.restore, Function.update_self]
    · rw [priorityOf, now.thread]
      by_cases same : u = h
      · rw [same, Function.update_self]
        rfl
      · rw [Function.update_of_ne same, Rt.restore, Function.update_of_ne other]
        rfl
    · rw [initOf, now.thread]
      by_cases same : u = h
      · rw [same, Function.update_self]
        rfl
      · rw [Function.update_of_ne same, (Inv.restore_same ..).2.2.2]
        rfl
  | yields user later now =>
    refine based.same now.mutex now.held (fun t _ eq => ?_) (init_threads now.thread)
    rw [(threads_same now.thread t).2, eq, init_threads now.thread]
  | delay user unlocked busy now =>
    refine based.same now.mutex now.held (fun t _ eq => ?_) (init_same now.thread rfl)
    rw [priority_same now.thread rfl, eq, init_same now.thread rfl]
  | enterCritical user now =>
    refine based.same now.mutex now.held (fun t _ eq => ?_) (init_threads now.thread)
    rw [(threads_same now.thread t).2, eq, init_threads now.thread]
  | exitCritical user later now =>
    refine based.same now.mutex now.held (fun t _ eq => ?_) (init_threads now.thread)
    rw [(threads_same now.thread t).2, eq, init_threads now.thread]
  | @startup t _ user new now =>
    refine based.same now.mutex now.held (fun u _ eq => ?_) (init_same now.thread rfl)
    rw [init_same now.thread rfl, priorityOf, now.thread]
    by_cases same : u = t
    · rw [same, Function.update_self]
      rfl
    · rw [Function.update_of_ne same]
      exact eq
  | switches stay resumed picks now =>
    refine based.same now.mutex now.held (fun t _ eq => ?_) (init_threads now.thread)
    rw [(threads_same now.thread t).2, eq, init_threads now.thread]
  | @woken m _ woken now =>
    have within : (s.pc s.rt.current).stay = .mutex m := by
      rw [woken]
      rfl
    by_cases eok : (s.rt.thread s.rt.current).error = .eok
    · have held := now.held
      rw [if_pos eok] at held
      have ready := inv.current_ready (by rw [woken]; rfl)
      have owner : (s.rt.mutex m).owner = some s.rt.current := by
        cases inv.waiting _ m within with
        | waits suspended _ _ _ =>
          rw [ready] at suspended
          cases suspended
        | late _ late _ =>
          rw [eok] at late
          cases late
        | owns _ _ owner _ => exact owner
      refine based.push held (fun t free => ?_) (init_threads now.thread) (fun _ b _ => by rw [now.mutex]) (fun none => ?_)
        fun t m' _ owns => ?_
      · rw [(threads_same now.thread t).2, init_threads now.thread]
        rw [now.mutex] at free
        exact based.restored t free
      · rw [now.mutex]
        exact based.handed _ m none owner
      · rw [now.mutex] at owns ⊢
        exact ⟨owns, rfl⟩
    · have held := now.held
      rw [if_neg eok] at held
      refine based.same now.mutex held (fun t _ eq => ?_) (init_threads now.thread)
      rw [(threads_same now.thread t).2, eq, init_threads now.thread]
  | slept slept now =>
    refine based.same now.mutex now.held (fun t _ eq => ?_) (init_same now.thread rfl)
    rw [priority_same now.thread rfl, eq, init_same now.thread rfl]
  | timeout on picks now =>
    refine based.same now.mutex now.held (fun t _ eq => ?_) (init_same now.thread rfl)
    rw [priority_same now.thread rfl, eq, init_same now.thread rfl]
  | slice picks now =>
    refine based.same now.mutex now.held (fun t _ eq => ?_) (init_threads now.thread)
    rw [(threads_same now.thread t).2, eq, init_threads now.thread]

/-! ## Runs -/

section Runs

variable {priority : Nat → Nat} {flag : Nat → IpcFlag} {threads : List Nat}

/-- In just the runs without a release that `Unsettles`, no ready thread is ever more urgent than the current one. -/
theorem settled_iff (nodup : (threads ++ [idle]).Nodup) (lt : ∀ t, priority t < 32)
    (booted : boot priority flag threads idle = some s) (events : List Event) :
    Runs.Always (step idle) Settled events s ↔ Runs.Along (step idle) (fun s e => ¬ s.Unsettles e) events s := by
  obtain ⟨first, eq, fresh⟩ := boot_fresh flag nodup lt
  rw [booted] at eq
  cases eq
  refine Runs.always_iff_along (fun s => Inv idle s ∧ s.Settled) And.right
    (fun both made settled => (both.2.next_iff (both.1.step_effect made)).1 settled)
    (fun both made fine => ⟨both.1.keeps (both.1.step_effect made), (both.2.next_iff (both.1.step_effect made)).2 fine⟩)
    ⟨fresh.inv, Top.settled fun _ => fresh.top⟩

/-- The thread 2 gives up, and the thread 1 releases the mutex. -/
theorem settled_iff_three : ∃ s, boot threePriority (fun _ => .fifo) [1, 2, 3] 0 = some s ∧
    (Runs.Always (step 0) Settled (threeEvents ++ [.timeout 2, .release 7]) s ↔
      Runs.Along (step 0) (fun s e => ¬ s.Unsettles e) (threeEvents ++ [.timeout 2, .release 7]) s) := by
  obtain ⟨s, booted, -⟩ := boot_fresh (fun _ => .fifo) three_nodup threePriority_lt
  exact ⟨s, booted, settled_iff three_nodup threePriority_lt booted _⟩

/-- In just the runs without the events that `Inverts` names, an owner is always as urgent as each of those that wait
for its mutex. -/
theorem inherits_iff (nodup : (threads ++ [idle]).Nodup) (lt : ∀ t, priority t < 32)
    (booted : boot priority flag threads idle = some s) (events : List Event) :
    Runs.Always (step idle) Inherits events s ↔ Runs.Along (step idle) (fun s e => ¬ s.Inverts e) events s := by
  obtain ⟨first, eq, fresh⟩ := boot_fresh flag nodup lt
  rw [booted] at eq
  cases eq
  have start : s.Inherits := fun m o u owner _ => by
    rw [(fresh.free m).1] at owner
    cases owner
  exact Runs.always_iff_along (fun s => Inv idle s ∧ s.Inherits) And.right
    (fun both made inherits => (both.2.next_iff both.1 (both.1.step_effect made)).1 inherits)
    (fun both made fine =>
      ⟨both.1.keeps (both.1.step_effect made), (both.2.next_iff both.1 (both.1.step_effect made)).2 fine⟩)
    ⟨fresh.inv, start⟩

theorem inherits_iff_three : ∃ s, boot threePriority (fun _ => .fifo) [1, 2, 3] 0 = some s ∧
    (Runs.Always (step 0) Inherits (threeEvents ++ [.release 7]) s ↔
      Runs.Along (step 0) (fun s e => ¬ s.Inverts e) (threeEvents ++ [.release 7]) s) := by
  obtain ⟨s, booted, -⟩ := boot_fresh (fun _ => .fifo) three_nodup threePriority_lt
  exact ⟨s, booted, inherits_iff three_nodup threePriority_lt booted _⟩

/-- Where every thread gives back last the mutex that it took first, a thread without a mutex always has the priority
that it was started with. -/
theorem restored_inOrder (nodup : (threads ++ [idle]).Nodup) (lt : ∀ t, priority t < 32)
    (booted : boot priority flag threads idle = some s) {events : List Event}
    (inOrder : Runs.Along (step idle) InOrder events s) : Runs.Always (step idle) Restored events s := by
  obtain ⟨first, eq, fresh⟩ := boot_fresh flag nodup lt
  rw [booted] at eq
  cases eq
  have start : s.Based := by
    refine ⟨fun t _ => fresh.priority t, fun t b last => ?_, fun t m _ owner => ?_⟩
    · rw [fresh.held] at last
      cases last
    · rw [(fresh.free m).1] at owner
      cases owner
  exact Runs.always_of_along (fun s => Inv idle s ∧ s.Based) (fun both => both.2.restored)
    (fun both made fine =>
      ⟨both.1.keeps (both.1.step_effect made), both.2.next both.1 (both.1.step_effect made) fine⟩)
    ⟨fresh.inv, start⟩ inOrder

/-- Two mutexes, the second of which is given back first. -/
theorem restored_inOrder_two : ∃ s, boot threePriority (fun _ => .fifo) [1] 0 = some s ∧
    Runs.Always (step 0) Restored [.take 7 0, .take 8 0, .release 8, .release 7] s := by
  obtain ⟨s, booted, -⟩ := boot_fresh (fun _ => .fifo) (show ([1] ++ [0]).Nodup by decide) threePriority_lt
  refine ⟨s, booted, restored_inOrder (by decide) threePriority_lt booted ?_⟩
  cases booted
  refine Runs.along_cons rfl trivial (Runs.along_cons rfl trivial ?_)
  refine Runs.along_cons rfl (fun last => ?_) (Runs.along_cons rfl (fun _ _ => rfl) trivial)
  cases last

end Runs

end Sys

end Ecu.Kernel
