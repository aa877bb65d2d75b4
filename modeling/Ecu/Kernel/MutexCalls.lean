import Ecu.Kernel.System

/-!
# What `rt_mutex_take` and `rt_mutex_release` do

The cases of either function, each with the threads, the mutex and the lists that it leaves.
-/

namespace Ecu.Kernel

namespace Rt

variable {k : Rt}

/-- The threads once one has to wait: the owner has got its priority where that is more urgent. -/
def inherit (k : Rt) (owner t : Nat) : Nat → Thread :=
  let priority := (k.thread t).currentPriority
  if priority < (k.thread owner).currentPriority then
    Function.update k.thread owner
      { k.thread owner with currentPriority := priority, numberMask := 1 <<< priority }
  else k.thread

/-- Where `rt_ipc_list_suspend` puts a thread: a list with the thread and those that waited before. -/
theorem ipcListSuspend_eq (k : Rt) (m t : Nat) (flag : IpcFlag) :
    ∃ list, k.ipcListSuspend m t flag =
        { k.threadSuspend t with lists := Function.update (k.threadSuspend t).lists (.mutex m) list } ∧
      list.Perm (t :: (k.threadSuspend t).lists (.mutex m)) ∧
      (flag = .fifo → list = (k.threadSuspend t).lists (.mutex m) ++ [t]) := by
  cases flag with
  | fifo => exact ⟨_, rfl, List.perm_append_comm, fun _ => rfl⟩
  | prio =>
    refine ⟨_, rfl, List.perm_middle.trans ?_, fun same => by cases same⟩
    rw [List.takeWhile_append_dropWhile]

/-- `rt_ipc_list_suspend` of a ready thread. -/
theorem ipcListSuspend_spec (q : Queues k none) {t : Nat} (ready : (k.thread t).stat = .ready) (m : Nat) (flag : IpcFlag) :
    let k' := k.ipcListSuspend m t flag
    k'.thread = Function.update k.thread t { k.thread t with stat := .suspend, timer := false } ∧
      Queues k' none ∧ k'.mutex = k.mutex ∧ k'.current = k.current ∧ k'.lockNest = k.lockNest ∧
      (∀ m', m' ≠ m → k'.lists (.mutex m') = k.lists (.mutex m')) ∧
      (k'.lists (.mutex m)).Perm (t :: k.lists (.mutex m)) ∧
      (flag = .fifo → k'.lists (.mutex m) = k.lists (.mutex m) ++ [t]) := by
  have thread := threadSuspend_thread ready
  have out := threadSuspend_queues q ready
  have waiters := threadSuspend_waiters q ready
  obtain ⟨mutex, current, lockNest⟩ := threadSuspend_rest ready
  have suspended : ((k.threadSuspend t).thread t).stat = .suspend := by
    rw [thread, Function.update_self]
  obtain ⟨list, same, added, fifo⟩ := k.ipcListSuspend_eq m t flag
  dsimp only
  rw [same]
  refine ⟨thread, out.wait suspended added, mutex, current, lockNest, fun m' ne => ?_, ?_, fun flag => ?_⟩
  · dsimp only
    rw [Function.update_of_ne (fun same => ne (Place.mutex.inj same)), waiters]
  · dsimp only
    rw [Function.update_self, ← waiters]
    exact added
  · dsimp only
    rw [Function.update_self, ← waiters]
    exact fifo flag

/-! ## `rt_mutex_take` -/

theorem mutexTake_own {m : Nat} (own : (k.mutex m).owner = some k.current) (small : (k.mutex m).hold < 255) (time : Int) :
    k.mutexTake m time =
      ((k.setThread k.current { k.thread k.current with error := .eok }).setMutex m
        { k.mutex m with hold := (k.mutex m).hold + 1 }, .returns .eok) := by
  unfold mutexTake
  dsimp only
  rw [setThread_mutex, if_pos own, Nat.mod_eq_of_lt (by omega)]

theorem mutexTake_free {m : Nat} (free : (k.mutex m).owner = none) (value : (k.mutex m).value = 1)
    (hold : (k.mutex m).hold = 0) (time : Int) :
    k.mutexTake m time =
      ((k.setThread k.current { k.thread k.current with error := .eok }).setMutex m
        { k.mutex m with
          value := 0
          owner := some k.current
          originalPriority := (k.thread k.current).currentPriority
          hold := 1 }, .returns .eok) := by
  unfold mutexTake
  dsimp only
  rw [setThread_mutex, free, value, hold, if_neg (fun same => by cases same), if_pos Nat.one_pos, setThread_thread,
    Function.update_self]

theorem mutexTake_busy {m o : Nat} (owner : (k.mutex m).owner = some o) (ne : o ≠ k.current)
    (value : (k.mutex m).value = 0) :
    k.mutexTake m 0 = (k.setThread k.current { k.thread k.current with error := .etimeout }, .returns .etimeout) := by
  unfold mutexTake
  dsimp only
  rw [setThread_mutex, owner, value, if_neg (fun same => ne (Option.some.inj same)), if_neg (Nat.lt_irrefl 0), if_pos rfl]
  simp only [setThread, Function.update_self, Function.update_idem]

/-- The thread waits. -/
theorem mutexTake_waits (q : Queues k none) (ready : (k.thread k.current).stat = .ready) {m o : Nat}
    (owner : (k.mutex m).owner = some o) (ne : o ≠ k.current) (value : (k.mutex m).value = 0) {time : Int}
    (waits : time ≠ 0) :
    ∃ k', k.mutexTake m time = (k', .waits) ∧
      k'.thread = Function.update (k.inherit o k.current) k.current
        { k.thread k.current with stat := .suspend, error := .eok, timer := decide (0 < time) } ∧
      Queues k' none ∧ k'.mutex = k.mutex ∧ k'.current = k.current ∧ k'.lockNest = k.lockNest ∧
      (∀ m', m' ≠ m → k'.lists (.mutex m') = k.lists (.mutex m')) ∧
      (k'.lists (.mutex m)).Perm (k.current :: k.lists (.mutex m)) ∧
      ((k.mutex m).flag = .fifo → k'.lists (.mutex m) = k.lists (.mutex m) ++ [k.current]) := by
  obtain ⟨t, current⟩ : ∃ t, t = k.current := ⟨_, rfl⟩
  rw [← current] at ready ne ⊢
  have started : (k.thread t).stat ≠ .init := by
    rw [ready]
    decide
  let k₁ := k.setThread t { k.thread t with error := .eok }
  have q₁ : Queues k₁ none := q.setThread_same rfl rfl rfl
  let k₂ := if (k₁.thread t).currentPriority < (k₁.thread o).currentPriority then
    k₁.changePriority o (k₁.thread t).currentPriority else k₁
  have self₁ : k₁.thread t = { k.thread t with error := .eok } := Function.update_self ..
  have owner₁ : k₁.thread o = k.thread o := Function.update_of_ne ne ..
  have thread₂ : k₂.thread = Function.update (k.inherit o t) t { k.thread t with error := .eok } := by
    show (if _ then _ else _ : Rt).thread = _
    rw [self₁, owner₁]
    unfold inherit
    dsimp only
    split_ifs
    · rw [changePriority_thread, owner₁, Function.update_comm ne]
      rfl
    · rfl
  have lt : (k₁.thread t).currentPriority < 32 := by
    rw [self₁]
    exact (q.priority t started).1
  have q₂ : Queues k₂ none := by
    show Queues (if _ then _ else _) none
    split_ifs
    · exact changePriority_queues q₁ lt
    · exact q₁
  have waiters₂ (m' : Nat) : k₂.lists (.mutex m') = k.lists (.mutex m') := by
    show (if _ then _ else _ : Rt).lists _ = _
    split_ifs
    · exact changePriority_waiters q₁ ..
    · rfl
  have rest₂ : k₂.mutex = k.mutex ∧ k₂.current = k.current ∧ k₂.lockNest = k.lockNest := by
    show (if _ then _ else _ : Rt).mutex = _ ∧ (if _ then _ else _ : Rt).current = _ ∧
      (if _ then _ else _ : Rt).lockNest = _
    split_ifs
    · rw [changePriority_mutex, changePriority_current, changePriority_lockNest]
      exact ⟨rfl, rfl, rfl⟩
    · exact ⟨rfl, rfl, rfl⟩
  have self₂ : k₂.thread t = { k.thread t with error := .eok } := by
    rw [thread₂, Function.update_self]
  have ready₂ : (k₂.thread t).stat = .ready := by
    rw [self₂]
    exact ready
  obtain ⟨thread, q₃, mutex, current₃, lockNest, others, added, fifo⟩ :=
    ipcListSuspend_spec q₂ ready₂ m (k.mutex m).flag
  rw [self₂, thread₂, Function.update_idem] at thread
  rw [waiters₂] at added fifo
  have eq : k.mutexTake m time =
      (if time > 0 then
          (k₂.ipcListSuspend m t (k.mutex m).flag).setThread t
            { (k₂.ipcListSuspend m t (k.mutex m).flag).thread t with timer := true }
        else k₂.ipcListSuspend m t (k.mutex m).flag, .waits) := by
    unfold mutexTake
    dsimp only
    rw [setThread_mutex, owner, value, ← current, if_neg (fun same => ne (Option.some.inj same)),
      if_neg (Nat.lt_irrefl 0), if_neg waits]
  refine ⟨_, eq, ?_⟩
  by_cases timed : time > 0
  · rw [if_pos timed]
    refine ⟨?_, q₃.setThread_same rfl rfl rfl, mutex.trans rest₂.1, current₃.trans (rest₂.2.1.trans current.symm),
      lockNest.trans rest₂.2.2, fun m' ne => (others m' ne).trans (waiters₂ m'), added, fifo⟩
    rw [setThread_thread, thread, Function.update_self, Function.update_idem, decide_eq_true timed]
  · rw [if_neg timed]
    refine ⟨?_, q₃, mutex.trans rest₂.1, current₃.trans (rest₂.2.1.trans current.symm), lockNest.trans rest₂.2.2,
      fun m' ne => (others m' ne).trans (waiters₂ m'), added, fifo⟩
    rw [thread, decide_eq_false timed]

/-! ## `rt_mutex_release` -/

theorem mutexRelease_other {m : Nat} (other : (k.mutex m).owner ≠ some k.current) :
    k.mutexRelease m = (k.setThread k.current { k.thread k.current with error := .error }, .error, false) := by
  unfold mutexRelease
  dsimp only
  rw [if_pos other]

theorem mutexRelease_more {m : Nat} (own : (k.mutex m).owner = some k.current) (more : 1 < (k.mutex m).hold)
    (lt : (k.mutex m).hold < 256) :
    k.mutexRelease m = (k.setMutex m { k.mutex m with hold := (k.mutex m).hold - 1 }, .eok, false) := by
  have less : ((k.mutex m).hold + 255) % 256 = (k.mutex m).hold - 1 := by omega
  unfold mutexRelease
  dsimp only
  rw [if_neg (not_not.2 own), less, if_neg (by omega)]

/-- The thread has its original priority again. -/
def restore (k : Rt) (m t : Nat) : Nat → Thread :=
  let priority := (k.mutex m).originalPriority
  Function.update k.thread t { k.thread t with currentPriority := priority, numberMask := 1 <<< priority }

theorem restored_spec (q : Queues k none) {t m : Nat} (started : (k.thread t).stat ≠ .init)
    (lt : (k.mutex m).originalPriority < 32) :
    let k' := if (k.mutex m).originalPriority ≠ (k.thread t).currentPriority then
      k.changePriority t (k.mutex m).originalPriority else k
    k'.thread = k.restore m t ∧ Queues k' none ∧ k'.mutex = k.mutex ∧ k'.current = k.current ∧
      k'.lockNest = k.lockNest ∧ ∀ m', k'.lists (.mutex m') = k.lists (.mutex m') := by
  dsimp only
  split_ifs with raised
  · exact ⟨changePriority_thread .., changePriority_queues q lt, changePriority_mutex .., changePriority_current ..,
      changePriority_lockNest .., changePriority_waiters q _ _⟩
  · refine ⟨?_, q, rfl, rfl, rfl, fun _ => rfl⟩
    have mask := (q.priority t started).2
    unfold restore
    dsimp only
    rw [not_not.1 raised, ← mask, Function.update_eq_self]

/-- `rt_mutex_release` once the hold is 0 and the owner has its original priority again. -/
theorem mutexRelease_last (q : Queues k none) (ready : (k.thread k.current).stat = .ready) {m : Nat}
    (own : (k.mutex m).owner = some k.current) (last : (k.mutex m).hold = 1)
    (lt : (k.mutex m).originalPriority < 32) :
    ∃ k', k'.thread = k.restore m k.current ∧ Queues k' none ∧
      k'.mutex = Function.update k.mutex m { k.mutex m with hold := 0 } ∧
      k'.current = k.current ∧ k'.lockNest = k.lockNest ∧ (∀ m', k'.lists (.mutex m') = k.lists (.mutex m')) ∧
      k.mutexRelease m =
        match k'.lists (.mutex m) with
        | thread :: _ =>
          ((k'.setMutex m
            { k'.mutex m with
              owner := some thread
              originalPriority := (k'.thread thread).currentPriority
              hold := ((k'.mutex m).hold + 1) % 256 }).threadResume thread, .eok, true)
        | [] => (k'.setMutex m { k'.mutex m with value := (k'.mutex m).value + 1, owner := none, originalPriority := 0xff },
          .eok, false) := by
  have started : (k.thread k.current).stat ≠ .init := by
    rw [ready]
    decide
  let k₁ := k.setMutex m { k.mutex m with hold := 0 }
  have mutex₁ : k₁.mutex m = { k.mutex m with hold := 0 } := Function.update_self ..
  have lt₁ : (k₁.mutex m).originalPriority < 32 := by
    rw [mutex₁]
    exact lt
  obtain ⟨thread, q', mutex, current, lockNest, waiters⟩ := restored_spec (q.setMutex m _ : Queues k₁ none) started lt₁
  refine ⟨_, ?_, q', mutex, current, lockNest, waiters, ?_⟩
  · rw [thread]
    unfold restore
    rw [mutex₁]
    rfl
  · unfold mutexRelease
    dsimp only
    rw [if_neg (not_not.2 own), last]
    exact if_pos rfl

theorem mutexRelease_empty (q : Queues k none) (ready : (k.thread k.current).stat = .ready) {m : Nat}
    (own : (k.mutex m).owner = some k.current) (last : (k.mutex m).hold = 1) (value : (k.mutex m).value = 0)
    (lt : (k.mutex m).originalPriority < 32) (empty : k.lists (.mutex m) = []) :
    ∃ k', k.mutexRelease m = (k', .eok, false) ∧ k'.thread = k.restore m k.current ∧ Queues k' none ∧
      k'.mutex = Function.update k.mutex m
        { k.mutex m with value := 1, owner := none, originalPriority := 0xff, hold := 0 } ∧
      k'.current = k.current ∧ k'.lockNest = k.lockNest ∧ ∀ m', k'.lists (.mutex m') = k.lists (.mutex m') := by
  obtain ⟨k', thread, q', mutex, current, lockNest, waiters, eq⟩ := mutexRelease_last q ready own last lt
  rw [waiters, empty] at eq
  refine ⟨_, eq, thread, q'.setMutex _ _, ?_, current, lockNest, waiters⟩
  rw [setMutex_mutex, mutex, Function.update_self, Function.update_idem, value]

/-- The mutex is handed over to the thread at the head of those that wait. -/
theorem mutexRelease_hands (q : Queues k none) (ready : (k.thread k.current).stat = .ready) {m : Nat}
    (own : (k.mutex m).owner = some k.current) (last : (k.mutex m).hold = 1)
    (lt : (k.mutex m).originalPriority < 32) {h : Nat} {rest : List Nat} (list : k.lists (.mutex m) = h :: rest) :
    ∃ k', k.mutexRelease m = (k', .eok, true) ∧
      k'.thread = Function.update (k.restore m k.current) h { k.thread h with stat := .ready, timer := false } ∧
      Queues k' none ∧
      k'.mutex = Function.update k.mutex m
        { k.mutex m with owner := some h, originalPriority := (k.thread h).currentPriority, hold := 1 } ∧
      k'.current = k.current ∧ k'.lockNest = k.lockNest ∧ k'.lists (.mutex m) = rest ∧
      ∀ m', m' ≠ m → k'.lists (.mutex m') = k.lists (.mutex m') := by
  obtain ⟨k', thread, q', mutex, current, lockNest, waiters, eq⟩ := mutexRelease_last q ready own last lt
  have waits : h ∈ k.lists (.mutex m) := list ▸ List.mem_cons_self
  have suspended := (q.waiting h m waits).2
  have ne : h ≠ k.current := fun same => by
    rw [same, ready] at suspended
    cases suspended
  have head : k'.thread h = k.thread h := by
    rw [thread]
    exact Function.update_of_ne ne ..
  rw [waiters, list] at eq
  dsimp only at eq
  let k₁ := k'.setMutex m
    { k'.mutex m with
      owner := some h
      originalPriority := (k'.thread h).currentPriority
      hold := ((k'.mutex m).hold + 1) % 256 }
  have suspended' : (k₁.thread h).stat = .suspend := by
    show (k'.thread h).stat = _
    rw [head]
    exact suspended
  obtain ⟨mutex', current', lockNest'⟩ := threadResume_rest suspended'
  refine ⟨_, eq, ?_, threadResume_queues (q'.setMutex _ _) suspended', ?_, current'.trans current,
    lockNest'.trans lockNest, ?_, fun m' other => ?_⟩
  · rw [threadResume_thread suspended']
    show Function.update k'.thread h { k'.thread h with stat := .ready, timer := false } = _
    rw [head, thread]
  · rw [mutex']
    show Function.update k'.mutex m _ = _
    rw [mutex, Function.update_self, Function.update_idem, head]
    rfl
  · rw [threadResume_waiters suspended']
    show (k'.lists (.mutex m)).filter _ = rest
    have nodup := q.nodup (.mutex m)
    rw [list] at nodup
    rw [waiters, list, List.filter_cons_of_neg (by simp), Queues.remove_of_notMem (List.nodup_cons.1 nodup).1]
  · rw [threadResume_waiters suspended']
    show (k'.lists (.mutex m')).filter _ = _
    rw [waiters]
    exact Queues.remove_of_notMem fun mem => other (q.once h m' m mem waits)

end Rt

end Ecu.Kernel
