import Ecu.Kernel.ReadyLists

/-!
# What the functions of `thread.c` do to the lists

Each of them leaves the lists as the states and priorities of the threads say.
-/

namespace Ecu.Kernel

namespace Queues

variable {k : Rt} {t : Nat} {out : Option Nat}

theorem remove_perm {l : List Nat} (nodup : l.Nodup) (mem : t ∈ l) : (t :: l.filter (· ≠ t)).Perm l := by
  have same : l.filter (· ≠ t) = l.erase t := by
    rw [nodup.erase_eq_filter]
    refine List.filter_congr fun u _ => ?_
    rw [Bool.eq_iff_iff, decide_eq_true_eq, bne_iff_ne]
  rw [same]
  exact (List.perm_cons_erase mem).symm

/-- A suspended thread may be in no list. -/
theorem rest (q : Queues k (some t)) (suspended : (k.thread t).stat = .suspend) : Queues k none := by
  refine ⟨q.nodup, fun u p => ?_, fun u m mem => ⟨Option.some_ne_none u, (q.waiting u m mem).2⟩, q.once, q.priority,
    q.group, q.bit⟩
  rw [q.ready, and_iff_right (Option.some_ne_none u)]
  refine and_iff_right_of_imp fun now same => ?_
  have ready := now.1
  rw [Option.some.inj same, suspended] at ready
  cases ready

/-- The order of a list is free. -/
theorem reorder (q : Queues k out) {lists : Place → List Nat} (same : ∀ l, (lists l).Perm (k.lists l)) :
    Queues { k with lists := lists } out := by
  refine ⟨fun l => (same l).nodup_iff.2 (q.nodup l), fun u p => ?_, fun u m mem => ?_, fun u m m' mem mem' => ?_,
    q.priority, q.group, fun p => ?_⟩
  · exact (same _).mem_iff.trans (q.ready u p)
  · exact q.waiting u m ((same _).mem_iff.1 mem)
  · exact q.once u m m' ((same _).mem_iff.1 mem) ((same _).mem_iff.1 mem')
  · rw [q.bit p]
    show k.lists (.ready p) ≠ [] ↔ lists (.ready p) ≠ []
    rw [← List.length_pos_iff, ← List.length_pos_iff, (same (.ready p)).length_eq]

/-- A suspended thread is put among those that wait for a mutex. -/
theorem wait (q : Queues k (some t)) (suspended : (k.thread t).stat = .suspend) {m : Nat} {list : List Nat}
    (added : list.Perm (t :: k.lists (.mutex m))) :
    Queues { k with lists := Function.update k.lists (.mutex m) list } none := by
  have out (m' : Nat) : t ∉ k.lists (.mutex m') := fun mem => (q.waiting t m' mem).1 rfl
  have ready (p : Nat) : Function.update k.lists (.mutex m) list (.ready p) = k.lists (.ready p) :=
    Function.update_of_ne (fun same => by cases same) ..
  have mem {u m' : Nat} (mem : u ∈ Function.update k.lists (.mutex m) list (.mutex m')) :
      u = t ∧ m' = m ∨ u ≠ t ∧ u ∈ k.lists (.mutex m') := by
    by_cases same : m' = m
    · subst same
      rw [Function.update_self, added.mem_iff, List.mem_cons] at mem
      obtain eq | mem := mem
      · exact .inl ⟨eq, rfl⟩
      · exact .inr ⟨fun eq => out _ (eq ▸ mem), mem⟩
    · rw [Function.update_of_ne (fun eq => same (Place.mutex.inj eq))] at mem
      exact .inr ⟨fun eq => out _ (eq ▸ mem), mem⟩
  have before := q.rest suspended
  refine ⟨fun l => ?_, fun u p => ?_, fun u m' in' => ⟨Option.some_ne_none u, ?_⟩, fun u a b in₁ in₂ => ?_, q.priority,
    q.group, fun p => ?_⟩
  · by_cases same : l = .mutex m
    · subst same
      show (Function.update k.lists (.mutex m) list (.mutex m)).Nodup
      rw [Function.update_self, added.nodup_iff]
      exact List.nodup_cons.2 ⟨out m, q.nodup _⟩
    · show (Function.update k.lists (.mutex m) list l).Nodup
      rw [Function.update_of_ne same]
      exact q.nodup l
  · show u ∈ Function.update k.lists (.mutex m) list (.ready p) ↔ _
    rw [ready]
    exact before.ready u p
  · obtain ⟨rfl, -⟩ | ⟨-, mem⟩ := mem in'
    · exact suspended
    · exact (q.waiting u m' mem).2
  · obtain ⟨eq, rfl⟩ | ⟨ne, mem₁⟩ := mem in₁
    · obtain ⟨-, rfl⟩ | ⟨ne, -⟩ := mem in₂
      · rfl
      · exact absurd eq ne
    · obtain ⟨eq, -⟩ | ⟨-, mem₂⟩ := mem in₂
      · exact absurd eq ne
      · exact q.once u a b mem₁ mem₂
  · show _ ↔ Function.update k.lists (.mutex m) list (.ready p) ≠ []
    rw [ready]
    exact q.bit p

/-- A thread that is not ready and waits for no mutex is in no list. -/
theorem unlisted (q : Queues k none) (idle : (k.thread t).stat ≠ .ready) (apart : ∀ m, t ∉ k.lists (.mutex m)) :
    Queues k (some t) := by
  refine ⟨q.nodup, fun u p => ?_, fun u m mem => ?_, q.once, q.priority, q.group, q.bit⟩
  · rw [q.ready, and_iff_right (Option.some_ne_none u)]
    refine (and_iff_right_of_imp fun now same => idle ?_).symm
    rw [← Option.some.inj same]
    exact now.1
  · exact ⟨fun same => apart m (Option.some.inj same ▸ mem), (q.waiting u m mem).2⟩

/-- The priority of a thread that is not ready. -/
theorem setThread_idle (q : Queues k out) (idle : (k.thread t).stat ≠ .ready) {th : Thread}
    (stat : th.stat = (k.thread t).stat)
    (priority : th.stat ≠ .init → th.currentPriority < 32 ∧ th.numberMask = 1 <<< th.currentPriority) :
    Queues (k.setThread t th) out := by
  have other {u : Nat} (ne : u ≠ t) : (k.setThread t th).thread u = k.thread u := Function.update_of_ne ne ..
  have self : (k.setThread t th).thread t = th := Function.update_self ..
  refine ⟨q.nodup, fun u p => ?_, fun u m mem => ?_, q.once, fun u started => ?_, q.group, q.bit⟩
  · rw [Rt.setThread_lists, q.ready]
    by_cases same : u = t
    · subst same
      rw [self, stat]
      exact iff_of_false (fun now => idle now.2.1) (fun now => idle now.2.1)
    · rw [other same]
  · by_cases same : u = t
    · subst same
      rw [self, stat]
      exact q.waiting u m mem
    · rw [other same]
      exact q.waiting u m mem
  · by_cases same : u = t
    · subst same
      rw [self] at started ⊢
      exact priority started
    · rw [other same] at started ⊢
      exact q.priority u started

theorem waiters_remove (q : Queues k out) (ready : (k.thread t).stat ≠ .suspend) (m : Nat) :
    (k.lists (.mutex m)).filter (· ≠ t) = k.lists (.mutex m) :=
  remove_of_notMem fun mem => ready (q.waiting t m mem).2

end Queues

namespace Rt

variable {k : Rt} {t : Nat}

theorem scheduleRemove_setThread (k : Rt) (t : Nat) (th : Thread)
    (priority : th.currentPriority = (k.thread t).currentPriority)
    (mask : th.numberMask = (k.thread t).numberMask) :
    (k.setThread t th).scheduleRemove t = (k.scheduleRemove t).setThread t th := by
  have own : ((k.setThread t th).listRemove t).thread t = th := Function.update_self ..
  have before : (k.listRemove t).thread t = k.thread t := rfl
  unfold scheduleRemove
  dsimp only
  rw [own, before, priority, mask]
  by_cases empty : (k.lists (.ready (k.thread t).currentPriority)).filter (· ≠ t) = []
  · rw [if_pos (c := ((k.setThread t th).listRemove t).lists _ = []) empty,
      if_pos (c := (k.listRemove t).lists _ = []) empty]
    rfl
  · rw [if_neg (c := ((k.setThread t th).listRemove t).lists _ = []) empty,
      if_neg (c := (k.listRemove t).lists _ = []) empty]
    rfl

/-! ## `rt_thread_suspend` -/

theorem threadSuspend_of_ready (ready : (k.thread t).stat = .ready) :
    k.threadSuspend t = (k.scheduleRemove t).setThread t { k.thread t with stat := .suspend, timer := false } := by
  unfold threadSuspend
  rw [if_neg (not_not.2 ready)]
  dsimp only
  rw [scheduleRemove_setThread k t { k.thread t with stat := .suspend } rfl rfl]
  simp only [setThread, Function.update_self, Function.update_idem]

theorem threadSuspend_thread (ready : (k.thread t).stat = .ready) :
    (k.threadSuspend t).thread = Function.update k.thread t { k.thread t with stat := .suspend, timer := false } := by
  rw [threadSuspend_of_ready ready, setThread_thread, scheduleRemove_thread]

theorem threadSuspend_queues (q : Queues k none) (ready : (k.thread t).stat = .ready) :
    Queues (k.threadSuspend t) (some t) := by
  have started : (k.thread t).stat ≠ .init := by
    rw [ready]
    decide
  rw [threadSuspend_of_ready ready]
  exact (q.remove ready).setThread fun _ => q.priority t started

theorem threadSuspend_waiters (q : Queues k none) (ready : (k.thread t).stat = .ready) (m : Nat) :
    (k.threadSuspend t).lists (.mutex m) = k.lists (.mutex m) := by
  rw [threadSuspend_of_ready ready, setThread_lists, scheduleRemove_lists]
  exact q.waiters_remove (by simp [ready]) m

theorem threadSuspend_rest (ready : (k.thread t).stat = .ready) :
    (k.threadSuspend t).mutex = k.mutex ∧ (k.threadSuspend t).current = k.current ∧
      (k.threadSuspend t).lockNest = k.lockNest := by
  rw [threadSuspend_of_ready ready]
  simp

/-! ## `rt_thread_resume` -/

theorem threadResume_of_suspend (suspended : (k.thread t).stat = .suspend) :
    k.threadResume t = ((k.listRemove t).setThread t { k.thread t with timer := false }).scheduleInsert t := by
  unfold threadResume
  rw [if_neg (not_not.2 suspended)]
  rfl

theorem threadResume_thread (suspended : (k.thread t).stat = .suspend) :
    (k.threadResume t).thread = Function.update k.thread t { k.thread t with stat := .ready, timer := false } := by
  rw [threadResume_of_suspend suspended, scheduleInsert_thread, setThread_thread, Function.update_self,
    Function.update_idem]
  rfl

theorem threadResume_queues (q : Queues k none) (suspended : (k.thread t).stat = .suspend) :
    Queues (k.threadResume t) none := by
  have started : (k.thread t).stat ≠ .init := by
    rw [suspended]
    decide
  have priority := q.priority t started
  rw [threadResume_of_suspend suspended]
  refine Queues.insert ((q.takeOut suspended).setThread fun _ => priority) ?_
  rw [setThread_thread, Function.update_self]
  exact priority

theorem threadResume_waiters (suspended : (k.thread t).stat = .suspend) (m : Nat) :
    (k.threadResume t).lists (.mutex m) = (k.lists (.mutex m)).filter (· ≠ t) := by
  rw [threadResume_of_suspend suspended, scheduleInsert_waiters]
  rfl

theorem threadResume_rest (suspended : (k.thread t).stat = .suspend) :
    (k.threadResume t).mutex = k.mutex ∧ (k.threadResume t).current = k.current ∧
      (k.threadResume t).lockNest = k.lockNest := by
  rw [threadResume_of_suspend suspended]
  exact ⟨rfl, rfl, rfl⟩

/-! ## `rt_thread_control` -/

theorem changePriority_thread (k : Rt) (t priority : Nat) :
    (k.changePriority t priority).thread =
      Function.update k.thread t { k.thread t with currentPriority := priority, numberMask := 1 <<< priority } := by
  unfold changePriority
  split_ifs with ready
  · simp [← ready]
  · rfl

theorem changePriority_queues (q : Queues k none) {priority : Nat} (lt : priority < 32) :
    Queues (k.changePriority t priority) none := by
  unfold changePriority
  split_ifs with ready
  · refine Queues.insert ((q.remove ready).setThread fun _ => ⟨lt, rfl⟩) ?_
    rw [setThread_thread, Function.update_self]
    exact ⟨lt, rfl⟩
  · exact q.setThread_idle ready rfl fun _ => ⟨lt, rfl⟩

theorem changePriority_waiters (q : Queues k none) (t priority m : Nat) :
    (k.changePriority t priority).lists (.mutex m) = k.lists (.mutex m) := by
  unfold changePriority
  split_ifs with ready
  · rw [scheduleInsert_waiters, setThread_lists, scheduleRemove_lists]
    exact q.waiters_remove (by simp [ready]) m
  · rfl

@[simp] theorem changePriority_mutex (k : Rt) (t priority : Nat) : (k.changePriority t priority).mutex = k.mutex := by
  unfold changePriority
  split_ifs
  · simp
  · rfl

@[simp] theorem changePriority_current (k : Rt) (t priority : Nat) :
    (k.changePriority t priority).current = k.current := by
  unfold changePriority
  split_ifs
  · simp
  · rfl

@[simp] theorem changePriority_lockNest (k : Rt) (t priority : Nat) :
    (k.changePriority t priority).lockNest = k.lockNest := by
  unfold changePriority
  split_ifs
  · simp
  · rfl

/-! ## `rt_thread_startup` -/

theorem threadStartup_thread (k : Rt) (t : Nat) :
    (k.threadStartup t).thread = Function.update k.thread t
      { k.thread t with
        stat := .ready
        currentPriority := (k.thread t).initPriority
        numberMask := 1 <<< (k.thread t).initPriority
        timer := false } := by
  unfold threadStartup
  dsimp only
  rw [threadResume_thread (by simp), setThread_thread, Function.update_self, Function.update_idem]

theorem threadStartup_queues (q : Queues k none) (new : (k.thread t).stat = .init)
    (lt : (k.thread t).initPriority < 32) : Queues (k.threadStartup t) none := by
  have out : Queues k (some t) := q.unlisted (by simp [new]) fun m mem => by
    have suspended := (q.waiting t m mem).2
    rw [new] at suspended
    cases suspended
  unfold threadStartup
  dsimp only
  refine threadResume_queues (Queues.rest (out.setThread fun _ => ⟨lt, rfl⟩) ?_) ?_
  · simp
  · simp

theorem threadStartup_waiters (q : Queues k none) (new : (k.thread t).stat = .init) (m : Nat) :
    (k.threadStartup t).lists (.mutex m) = k.lists (.mutex m) := by
  unfold threadStartup
  dsimp only
  rw [threadResume_waiters (by simp), setThread_lists]
  exact q.waiters_remove (by simp [new]) m

theorem threadStartup_rest (k : Rt) (t : Nat) :
    (k.threadStartup t).mutex = k.mutex ∧ (k.threadStartup t).current = k.current ∧
      (k.threadStartup t).lockNest = k.lockNest := by
  unfold threadStartup
  dsimp only
  exact threadResume_rest (by simp)

/-! ## `rt_thread_timeout` -/

theorem threadTimeout_thread (k : Rt) (t : Nat) :
    (k.threadTimeout t).thread = Function.update k.thread t
      { k.thread t with stat := .ready, error := .etimeout, timer := false } := by
  unfold threadTimeout
  simp [listRemove]

theorem threadTimeout_queues (q : Queues k none) (suspended : (k.thread t).stat = .suspend) :
    Queues (k.threadTimeout t) none := by
  have started : (k.thread t).stat ≠ .init := by
    rw [suspended]
    decide
  have priority := q.priority t started
  have failed : Queues (k.setThread t { k.thread t with error := .etimeout }) none := q.setThread_same rfl rfl rfl
  have taken := failed.takeOut (t := t) (by simp [suspended])
  unfold threadTimeout
  dsimp only
  refine Queues.setThread_same (taken.insert ?_) rfl rfl rfl
  simp only [listRemove, setThread_thread, Function.update_self]
  exact priority

theorem threadTimeout_waiters (k : Rt) (t m : Nat) :
    (k.threadTimeout t).lists (.mutex m) = (k.lists (.mutex m)).filter (· ≠ t) := by
  unfold threadTimeout
  dsimp only
  rw [setThread_lists, scheduleInsert_waiters]
  rfl

/-! ## `rt_thread_yield` -/

theorem listAppend_waiters (k : Rt) (p t m : Nat) :
    (k.listAppend (.ready p) t).lists (.mutex m) = k.lists (.mutex m) := by
  unfold listAppend
  simp

theorem threadYield_cases (k : Rt) :
    k.threadYield = (k, false) ∨
      (k.thread k.current).stat = .ready ∧
        k.threadYield = ((k.listRemove k.current).listAppend (.ready (k.thread k.current).currentPriority) k.current, true) := by
  unfold threadYield
  dsimp only
  split_ifs with yields
  · exact .inr ⟨yields.1, rfl⟩
  · exact .inl rfl

theorem threadYield_thread (k : Rt) : k.threadYield.1.thread = k.thread := by
  obtain same | ⟨-, moved⟩ := k.threadYield_cases
  · rw [same]
  · rw [moved]
    rfl

theorem threadYield_rest (k : Rt) :
    k.threadYield.1.mutex = k.mutex ∧ k.threadYield.1.current = k.current ∧
      k.threadYield.1.lockNest = k.lockNest := by
  obtain same | ⟨-, moved⟩ := k.threadYield_cases
  · rw [same]
    exact ⟨rfl, rfl, rfl⟩
  · rw [moved]
    exact ⟨rfl, rfl, rfl⟩

theorem threadYield_waiters (q : Queues k none) (m : Nat) :
    k.threadYield.1.lists (.mutex m) = k.lists (.mutex m) := by
  obtain same | ⟨ready, moved⟩ := k.threadYield_cases
  · rw [same]
  · rw [moved]
    rw [listAppend_waiters]
    exact q.waiters_remove (by simp [ready]) m

theorem threadYield_queues (q : Queues k none) : Queues k.threadYield.1 none := by
  obtain same | ⟨ready, moved⟩ := k.threadYield_cases
  · rw [same]
    exact q
  · rw [moved]
    refine q.reorder fun l => ?_
    have mem := (q.ready k.current _).2 ⟨Option.some_ne_none _, ready, rfl⟩
    show (Function.update (fun l => (k.lists l).filter (· ≠ k.current)) _ _ l).Perm _
    by_cases own : l = .ready (k.thread k.current).currentPriority
    · rw [own, Function.update_self]
      exact List.perm_append_comm.trans (Queues.remove_perm (q.nodup _) mem)
    · rw [Function.update_of_ne own]
      have out : k.current ∉ k.lists l := by
        cases l with
        | ready p => exact fun mem => own (congrArg Place.ready ((q.ready _ p).1 mem).2.2.symm)
        | mutex m =>
          intro mem
          have suspended := (q.waiting _ m mem).2
          rw [ready] at suspended
          cases suspended
      exact List.Perm.of_eq (Queues.remove_of_notMem out)

/-! ## `rt_thread_sleep` -/

theorem threadSleep_thread (ready : (k.thread k.current).stat = .ready) :
    k.threadSleep.thread = Function.update k.thread k.current
      { k.thread k.current with stat := .suspend, timer := true } := by
  unfold threadSleep
  dsimp only
  rw [(threadSuspend_rest ready).2.1, setThread_thread, threadSuspend_thread ready, Function.update_self,
    Function.update_idem]

theorem threadSleep_queues (q : Queues k none) (ready : (k.thread k.current).stat = .ready) :
    Queues k.threadSleep none := by
  have out := threadSuspend_queues q ready
  have suspended : ((k.threadSuspend k.current).thread k.current).stat = .suspend := by
    rw [threadSuspend_thread ready, Function.update_self]
  unfold threadSleep
  dsimp only
  rw [(threadSuspend_rest ready).2.1]
  exact (out.rest suspended).setThread_same rfl rfl rfl

theorem threadSleep_waiters (q : Queues k none) (ready : (k.thread k.current).stat = .ready) (m : Nat) :
    k.threadSleep.lists (.mutex m) = k.lists (.mutex m) :=
  threadSuspend_waiters q ready m

theorem threadSleep_rest (ready : (k.thread k.current).stat = .ready) :
    k.threadSleep.mutex = k.mutex ∧ k.threadSleep.current = k.current ∧ k.threadSleep.lockNest = k.lockNest :=
  threadSuspend_rest ready

end Rt

end Ecu.Kernel
