import Ecu.Kernel.Thread

/-!
# The ready lists

The threads of a ready list are those that are ready with its priority, and `rt_thread_ready_priority_group` has the
bits of the lists that are not empty (`Queues`). A thread on its way from one list to another is in none (`out`).
`rt_schedule` then finds a thread, and none that is ready has a smaller priority value.
-/

namespace Ecu.Kernel

/-! ## `__rt_ffs` -/

theorem lowestBitBitmap_spec :
    ∀ b < 256, b ≠ 0 →
      lowestBitBitmap.getD b 0 < 8 ∧ b.testBit (lowestBitBitmap.getD b 0) = true ∧
        ∀ p < lowestBitBitmap.getD b 0, b.testBit p = false := by
  decide +kernel

/-- The lowest bit that is set. -/
def LowestBit (value p : Nat) : Prop :=
  value.testBit p = true ∧ ∀ q < p, value.testBit q = false

theorem byte_testBit (value s i : Nat) : ((value >>> s) % 256).testBit i = (decide (i < 8) && value.testBit (s + i)) := by
  rw [← Nat.testBit_shiftRight]
  exact Nat.testBit_mod_two_pow _ 8 i

/-- The byte from bit `s` on, where no bit before it is set. -/
theorem byte_lowest {value s : Nat} (below : ∀ q < s, value.testBit q = false) (some : (value >>> s) % 256 ≠ 0) :
    LowestBit value (s + lowestBitBitmap.getD ((value >>> s) % 256) 0) := by
  obtain ⟨small, set, least⟩ := lowestBitBitmap_spec _ (Nat.mod_lt _ (by decide)) some
  rw [byte_testBit] at set
  refine ⟨(Bool.and_eq_true_iff.1 set).2, fun q lt => ?_⟩
  by_cases before : q < s
  · exact below q before
  · have clear := least (q - s) (by omega)
    rw [byte_testBit, Nat.add_sub_cancel' (Nat.not_lt.1 before)] at clear
    have inside : q - s < 8 := by omega
    simpa [inside] using clear

theorem byte_clear {value s : Nat} (below : ∀ q < s, value.testBit q = false) (none : (value >>> s) % 256 = 0) :
    ∀ q < s + 8, value.testBit q = false := by
  intro q lt
  by_cases before : q < s
  · exact below q before
  · have clear := byte_testBit value s (q - s)
    rw [none, Nat.zero_testBit, Nat.add_sub_cancel' (Nat.not_lt.1 before)] at clear
    have inside : q - s < 8 := by omega
    simpa [inside] using clear.symm

theorem and_byte (value s : Nat) : (value &&& (0xff <<< s)) >>> s = (value >>> s) % 256 := by
  refine Nat.eq_of_testBit_eq fun i => ?_
  have mask : (0xff : Nat) = 2 ^ 8 - 1 := rfl
  rw [Nat.testBit_shiftRight, Nat.testBit_and, Nat.testBit_shiftLeft, byte_testBit, mask, Nat.testBit_two_pow_sub_one]
  simp [Bool.and_comm]

theorem and_byte_eq_zero (value s : Nat) : value &&& (0xff <<< s) = 0 ↔ (value >>> s) % 256 = 0 := by
  rw [← and_byte]
  constructor
  · intro none
    rw [none, Nat.zero_shiftRight]
  · intro none
    refine Nat.eq_of_testBit_eq fun i => ?_
    by_cases before : i < s
    · simp [Nat.testBit_and, Nat.testBit_shiftLeft, before]
    · have clear := congrArg (fun n => n.testBit (i - s)) none
      simpa [Nat.testBit_shiftRight, Nat.add_sub_cancel' (Nat.not_lt.1 before)] using clear

theorem rtFfs_lowest {value : Nat} (some : value ≠ 0) (lt : value < 2 ^ 32) : LowestBit value (rtFfs value - 1) := by
  have zero : ∀ q < 0, value.testBit q = false := fun q less => absurd less (Nat.not_lt_zero q)
  have first : (value &&& 0xff = 0 ↔ (value >>> 0) % 256 = 0) := and_byte_eq_zero value 0
  have second : (value &&& 0xff00 = 0 ↔ (value >>> 8) % 256 = 0) := and_byte_eq_zero value 8
  have third : (value &&& 0xff0000 = 0 ↔ (value >>> 16) % 256 = 0) := and_byte_eq_zero value 16
  have byte₀ : value &&& 0xff = (value >>> 0) % 256 := and_byte value 0
  have byte₁ : (value &&& 0xff00) >>> 8 = (value >>> 8) % 256 := and_byte value 8
  have byte₂ : (value &&& 0xff0000) >>> 16 = (value >>> 16) % 256 := and_byte value 16
  have byte₃ : (value &&& 0xff000000) >>> 24 = (value >>> 24) % 256 := and_byte value 24
  rw [rtFfs, if_neg some]
  split_ifs with none₀ none₁ none₂
  · rw [byte₀, Nat.add_sub_cancel]
    have found := byte_lowest zero (fun none => none₀ (first.2 none))
    rwa [Nat.zero_add] at found
  · rw [byte₁, show ∀ n, n + 9 - 1 = 8 + n from fun n => by omega]
    exact byte_lowest (byte_clear zero (first.1 (not_not.1 none₀))) (fun none => none₁ (second.2 none))
  · rw [byte₂, show ∀ n, n + 17 - 1 = 16 + n from fun n => by omega]
    exact byte_lowest (byte_clear (byte_clear zero (first.1 (not_not.1 none₀))) (second.1 (not_not.1 none₁)))
      (fun none => none₂ (third.2 none))
  · rw [byte₃, show ∀ n, n + 25 - 1 = 24 + n from fun n => by omega]
    have below := byte_clear (byte_clear (byte_clear zero (first.1 (not_not.1 none₀))) (second.1 (not_not.1 none₁)))
      (third.1 (not_not.1 none₂))
    refine byte_lowest below fun none => some ?_
    refine Nat.eq_of_testBit_eq fun i => ?_
    rw [Nat.zero_testBit]
    by_cases inside : i < 32
    · exact byte_clear below none i inside
    · exact Nat.testBit_lt_two_pow (Nat.lt_of_lt_of_le lt (Nat.pow_le_pow_right (by decide) (Nat.not_lt.1 inside)))

/-! ## What the functions change -/

namespace Rt

variable {k : Rt} {t u : Nat}

@[simp] theorem setThread_thread (k : Rt) (t : Nat) (th : Thread) :
    (k.setThread t th).thread = Function.update k.thread t th := rfl
@[simp] theorem setThread_lists (k : Rt) (t : Nat) (th : Thread) : (k.setThread t th).lists = k.lists := rfl
@[simp] theorem setThread_group (k : Rt) (t : Nat) (th : Thread) :
    (k.setThread t th).readyPriorityGroup = k.readyPriorityGroup := rfl
@[simp] theorem setThread_mutex (k : Rt) (t : Nat) (th : Thread) : (k.setThread t th).mutex = k.mutex := rfl
@[simp] theorem setThread_current (k : Rt) (t : Nat) (th : Thread) : (k.setThread t th).current = k.current := rfl
@[simp] theorem setThread_lockNest (k : Rt) (t : Nat) (th : Thread) : (k.setThread t th).lockNest = k.lockNest := rfl

@[simp] theorem setMutex_thread (k : Rt) (m : Nat) (x : RtMutex) : (k.setMutex m x).thread = k.thread := rfl
@[simp] theorem setMutex_lists (k : Rt) (m : Nat) (x : RtMutex) : (k.setMutex m x).lists = k.lists := rfl
@[simp] theorem setMutex_mutex (k : Rt) (m : Nat) (x : RtMutex) :
    (k.setMutex m x).mutex = Function.update k.mutex m x := rfl
@[simp] theorem setMutex_current (k : Rt) (m : Nat) (x : RtMutex) : (k.setMutex m x).current = k.current := rfl
@[simp] theorem setMutex_lockNest (k : Rt) (m : Nat) (x : RtMutex) : (k.setMutex m x).lockNest = k.lockNest := rfl

@[simp] theorem scheduleRemove_thread (k : Rt) (t : Nat) : (k.scheduleRemove t).thread = k.thread := by
  unfold scheduleRemove
  dsimp only
  split_ifs <;> rfl

@[simp] theorem scheduleRemove_lists (k : Rt) (t : Nat) (l : Place) :
    (k.scheduleRemove t).lists l = (k.lists l).filter (· ≠ t) := by
  unfold scheduleRemove
  dsimp only
  split_ifs <;> rfl

@[simp] theorem scheduleRemove_mutex (k : Rt) (t : Nat) : (k.scheduleRemove t).mutex = k.mutex := by
  unfold scheduleRemove
  dsimp only
  split_ifs <;> rfl

@[simp] theorem scheduleRemove_current (k : Rt) (t : Nat) : (k.scheduleRemove t).current = k.current := by
  unfold scheduleRemove
  dsimp only
  split_ifs <;> rfl

@[simp] theorem scheduleRemove_lockNest (k : Rt) (t : Nat) : (k.scheduleRemove t).lockNest = k.lockNest := by
  unfold scheduleRemove
  dsimp only
  split_ifs <;> rfl

@[simp] theorem scheduleInsert_thread (k : Rt) (t : Nat) :
    (k.scheduleInsert t).thread = Function.update k.thread t { k.thread t with stat := .ready } := rfl
@[simp] theorem scheduleInsert_mutex (k : Rt) (t : Nat) : (k.scheduleInsert t).mutex = k.mutex := rfl
@[simp] theorem scheduleInsert_current (k : Rt) (t : Nat) : (k.scheduleInsert t).current = k.current := rfl
@[simp] theorem scheduleInsert_lockNest (k : Rt) (t : Nat) : (k.scheduleInsert t).lockNest = k.lockNest := rfl

theorem scheduleInsert_lists (k : Rt) (t : Nat) :
    (k.scheduleInsert t).lists = Function.update k.lists (.ready (k.thread t).currentPriority)
      (k.lists (.ready (k.thread t).currentPriority) ++ [t]) := by
  unfold scheduleInsert
  simp [listAppend]

@[simp] theorem scheduleInsert_waiters (k : Rt) (t m : Nat) :
    (k.scheduleInsert t).lists (.mutex m) = k.lists (.mutex m) := by
  rw [scheduleInsert_lists, Function.update_of_ne (fun same => by cases same)]

theorem scheduleInsert_group (k : Rt) (t : Nat) :
    (k.scheduleInsert t).readyPriorityGroup = k.readyPriorityGroup ||| (k.thread t).numberMask := by
  unfold scheduleInsert
  simp [listAppend]

end Rt

/-! ## The lists and the bits -/

/-- The lists are those of the threads' states and priorities; the thread that is `out` is in none. -/
structure Queues (k : Rt) (out : Option Nat) : Prop where
  nodup : ∀ l, (k.lists l).Nodup
  ready : ∀ t p, t ∈ k.lists (.ready p) ↔
    some t ≠ out ∧ (k.thread t).stat = .ready ∧ (k.thread t).currentPriority = p
  waiting : ∀ t m, t ∈ k.lists (.mutex m) → some t ≠ out ∧ (k.thread t).stat = .suspend
  once : ∀ t m m', t ∈ k.lists (.mutex m) → t ∈ k.lists (.mutex m') → m = m'
  priority : ∀ t, (k.thread t).stat ≠ .init →
    (k.thread t).currentPriority < 32 ∧ (k.thread t).numberMask = 1 <<< (k.thread t).currentPriority
  group : k.readyPriorityGroup < 2 ^ 32
  bit : ∀ p, k.readyPriorityGroup.testBit p = true ↔ k.lists (.ready p) ≠ []

namespace Queues

variable {k : Rt} {t : Nat} {out : Option Nat}

/-- A thread in no list, whatever it is set to. -/
theorem setThread (q : Queues k (some t)) {th : Thread}
    (priority : th.stat ≠ .init → th.currentPriority < 32 ∧ th.numberMask = 1 <<< th.currentPriority) :
    Queues (k.setThread t th) (some t) := by
  have other {u : Nat} (ne : some u ≠ some t) : (k.setThread t th).thread u = k.thread u :=
    Function.update_of_ne (fun same => ne (congrArg some same)) ..
  refine ⟨q.nodup, fun u p => ?_, fun u m mem => ?_, q.once, fun u started => ?_, q.group, q.bit⟩
  · rw [Rt.setThread_lists, q.ready]
    constructor
    · rintro ⟨ne, ready⟩
      rw [other ne]
      exact ⟨ne, ready⟩
    · rintro ⟨ne, ready⟩
      rw [other ne] at ready
      exact ⟨ne, ready⟩
  · obtain ⟨ne, suspended⟩ := q.waiting u m mem
    rw [other ne]
    exact ⟨ne, suspended⟩
  · by_cases same : u = t
    · subst same
      rw [Rt.setThread_thread, Function.update_self] at started ⊢
      exact priority started
    · have ne : some u ≠ some t := fun eq => same (Option.some.inj eq)
      rw [other ne] at started ⊢
      exact q.priority u started

/-- A thread whose state and priority stay as they are. -/
theorem setThread_same (q : Queues k out) {th : Thread} (stat : th.stat = (k.thread t).stat)
    (priority : th.currentPriority = (k.thread t).currentPriority)
    (mask : th.numberMask = (k.thread t).numberMask) : Queues (k.setThread t th) out := by
  have same (u : Nat) : ((k.setThread t th).thread u).stat = (k.thread u).stat ∧
      ((k.setThread t th).thread u).currentPriority = (k.thread u).currentPriority ∧
      ((k.setThread t th).thread u).numberMask = (k.thread u).numberMask := by
    rw [Rt.setThread_thread]
    by_cases eq : u = t
    · subst eq
      rw [Function.update_self]
      exact ⟨stat, priority, mask⟩
    · rw [Function.update_of_ne eq]
      exact ⟨rfl, rfl, rfl⟩
  refine ⟨q.nodup, fun u p => ?_, fun u m mem => ?_, q.once, fun u started => ?_, q.group, q.bit⟩
  · rw [(same u).1, (same u).2.1]
    exact q.ready u p
  · rw [(same u).1]
    exact q.waiting u m mem
  · rw [(same u).1] at started
    rw [(same u).2.1, (same u).2.2]
    exact q.priority u started

theorem setMutex (q : Queues k out) (m : Nat) (x : RtMutex) : Queues (k.setMutex m x) out :=
  ⟨q.nodup, q.ready, q.waiting, q.once, q.priority, q.group, q.bit⟩

theorem mem_remove {l : List Nat} {u : Nat} : u ∈ l.filter (· ≠ t) ↔ u ∈ l ∧ u ≠ t := by
  rw [List.mem_filter, decide_eq_true_eq]

theorem remove_of_notMem {l : List Nat} (out : t ∉ l) : l.filter (· ≠ t) = l := by
  refine List.filter_eq_self.2 fun u mem => decide_eq_true fun same => out (same ▸ mem)

theorem mask_testBit (p q : Nat) : (1 <<< p).testBit q = decide (p = q) := by
  rw [Nat.one_shiftLeft, Nat.testBit_two_pow]

/-- The bit of a ready list that has become empty. -/
theorem clear_testBit {group p q : Nat} (lt : group < 2 ^ 32) :
    (group &&& ((1 <<< p) ^^^ 0xffffffff)).testBit q = (group.testBit q && decide (p ≠ q)) := by
  have ones : (0xffffffff : Nat) = 2 ^ 32 - 1 := rfl
  rw [Nat.testBit_and, Nat.testBit_xor, mask_testBit, ones, Nat.testBit_two_pow_sub_one]
  by_cases inside : q < 32
  · simp [inside]
  · have clear : group.testBit q = false :=
      Nat.testBit_lt_two_pow (Nat.lt_of_lt_of_le lt (Nat.pow_le_pow_right (by decide) (Nat.not_lt.1 inside)))
    simp [clear]

theorem group_remove (q : Queues k none) (ready : (k.thread t).stat = .ready) (p : Nat) :
    (k.scheduleRemove t).readyPriorityGroup < 2 ^ 32 ∧
      ((k.scheduleRemove t).readyPriorityGroup.testBit p = true ↔ (k.lists (.ready p)).filter (· ≠ t) ≠ []) := by
  have started : (k.thread t).stat ≠ .init := by
    rw [ready]
    decide
  obtain ⟨-, mask⟩ := q.priority t started
  have other (ne : (k.thread t).currentPriority ≠ p) : (k.lists (.ready p)).filter (· ≠ t) = k.lists (.ready p) :=
    remove_of_notMem fun mem => ne ((q.ready t p).1 mem).2.2
  unfold Rt.scheduleRemove
  dsimp only [Rt.listRemove]
  split_ifs with empty
  · refine ⟨Nat.lt_of_le_of_lt Nat.and_le_left q.group, ?_⟩
    rw [mask, clear_testBit q.group]
    by_cases same : (k.thread t).currentPriority = p
    · rw [← same, empty]
      simp
    · rw [other same, ← q.bit p]
      simp [same]
  · refine ⟨q.group, ?_⟩
    by_cases same : (k.thread t).currentPriority = p
    · have some : k.lists (.ready p) ≠ [] := fun none => by
        rw [same, none] at empty
        exact empty rfl
      rw [← same] at some ⊢
      exact iff_of_true ((q.bit _).2 some) empty
    · rw [other same]
      exact q.bit p

/-- `rt_schedule_remove_thread` -/
theorem remove (q : Queues k none) (ready : (k.thread t).stat = .ready) : Queues (k.scheduleRemove t) (some t) := by
  refine ⟨fun l => ?_, fun u p => ?_, fun u m mem => ?_, fun u m m' mem mem' => ?_, fun u started => ?_,
    (q.group_remove ready 0).1, fun p => ?_⟩
  · rw [Rt.scheduleRemove_lists]
    exact (q.nodup l).filter _
  · rw [Rt.scheduleRemove_lists, mem_remove, q.ready, Rt.scheduleRemove_thread]
    constructor
    · rintro ⟨⟨-, now⟩, ne⟩
      exact ⟨fun same => ne (Option.some.inj same), now⟩
    · rintro ⟨ne, now⟩
      exact ⟨⟨Option.some_ne_none u, now⟩, fun same => ne (congrArg some same)⟩
  · rw [Rt.scheduleRemove_lists, mem_remove] at mem
    rw [Rt.scheduleRemove_thread]
    exact ⟨fun same => mem.2 (Option.some.inj same), (q.waiting u m mem.1).2⟩
  · rw [Rt.scheduleRemove_lists, mem_remove] at mem mem'
    exact q.once u m m' mem.1 mem'.1
  · rw [Rt.scheduleRemove_thread] at started ⊢
    exact q.priority u started
  · rw [Rt.scheduleRemove_lists]
    exact (q.group_remove ready p).2

/-- A suspended thread that is taken out of the list that it waits in, if it is in one. -/
theorem takeOut (q : Queues k none) (suspended : (k.thread t).stat = .suspend) : Queues (k.listRemove t) (some t) := by
  have idle (p : Nat) : (k.lists (.ready p)).filter (· ≠ t) = k.lists (.ready p) := by
    refine remove_of_notMem fun mem => ?_
    have ready := ((q.ready t p).1 mem).2.1
    rw [suspended] at ready
    cases ready
  refine ⟨fun l => (q.nodup l).filter _, fun u p => ?_, fun u m mem => ?_, fun u m m' mem mem' => ?_, q.priority, q.group,
    fun p => ?_⟩
  · show u ∈ (k.lists (.ready p)).filter (· ≠ t) ↔ some u ≠ some t ∧ _
    rw [mem_remove, q.ready]
    constructor
    · rintro ⟨⟨-, now⟩, ne⟩
      exact ⟨fun same => ne (Option.some.inj same), now⟩
    · rintro ⟨ne, now⟩
      exact ⟨⟨Option.some_ne_none u, now⟩, fun same => ne (congrArg some same)⟩
  · have mem := mem_remove.1 mem
    exact ⟨fun same => mem.2 (Option.some.inj same), (q.waiting u m mem.1).2⟩
  · exact q.once u m m' (mem_remove.1 mem).1 (mem_remove.1 mem').1
  · show k.readyPriorityGroup.testBit p = true ↔ (k.lists (.ready p)).filter (· ≠ t) ≠ []
    rw [idle]
    exact q.bit p

/-- `rt_schedule_insert_thread` -/
theorem insert (q : Queues k (some t))
    (priority : (k.thread t).currentPriority < 32 ∧ (k.thread t).numberMask = 1 <<< (k.thread t).currentPriority) :
    Queues (k.scheduleInsert t) none := by
  have out (l : Place) : t ∉ k.lists l := by
    cases l with
    | ready p => exact fun mem => ((q.ready t p).1 mem).1 rfl
    | mutex m => exact fun mem => (q.waiting t m mem).1 rfl
  have other {u : Nat} (ne : u ≠ t) : (k.scheduleInsert t).thread u = k.thread u := Function.update_of_ne ne ..
  have self : (k.scheduleInsert t).thread t = { k.thread t with stat := .ready } := Function.update_self ..
  have bits (p : Nat) : (k.scheduleInsert t).readyPriorityGroup.testBit p =
      (k.readyPriorityGroup.testBit p || decide ((k.thread t).currentPriority = p)) := by
    rw [Rt.scheduleInsert_group, Nat.testBit_or, priority.2, mask_testBit]
  refine ⟨fun l => ?_, fun u p => ?_, fun u m mem => ?_, fun u m m' mem mem' => ?_, fun u started => ?_, ?_, fun p => ?_⟩
  · rw [Rt.scheduleInsert_lists]
    by_cases same : l = .ready (k.thread t).currentPriority
    · rw [same, Function.update_self]
      exact List.nodup_append.2 ⟨q.nodup _, List.nodup_singleton t, fun u mem v mem' eq =>
        out _ (List.mem_singleton.1 mem' ▸ eq ▸ mem)⟩
    · rw [Function.update_of_ne same]
      exact q.nodup l
  · rw [Rt.scheduleInsert_lists]
    by_cases eq : u = t
    · subst eq
      rw [self]
      by_cases same : p = (k.thread u).currentPriority
      · rw [same, Function.update_self]
        exact iff_of_true (List.mem_append_right _ (List.mem_singleton_self u)) ⟨Option.some_ne_none u, rfl, rfl⟩
      · rw [Function.update_of_ne (fun eq => same (Place.ready.inj eq))]
        exact iff_of_false (out _) fun now => same now.2.2.symm
    · have before : u ∈ k.lists (.ready p) ↔ (k.thread u).stat = .ready ∧ (k.thread u).currentPriority = p := by
        rw [q.ready]
        exact and_iff_right fun same => eq (Option.some.inj same)
      rw [other eq, and_iff_right (Option.some_ne_none u), ← before]
      by_cases same : p = (k.thread t).currentPriority
      · rw [same, Function.update_self, List.mem_append, List.mem_singleton, or_iff_left eq]
      · rw [Function.update_of_ne (fun eq => same (Place.ready.inj eq))]
  · rw [Rt.scheduleInsert_waiters] at mem
    have eq : u ≠ t := fun same => out _ (same ▸ mem)
    rw [other eq]
    exact ⟨Option.some_ne_none u, (q.waiting u m mem).2⟩
  · rw [Rt.scheduleInsert_waiters] at mem mem'
    exact q.once u m m' mem mem'
  · by_cases eq : u = t
    · subst eq
      rw [self]
      exact priority
    · rw [other eq] at started ⊢
      exact q.priority u started
  · rw [Rt.scheduleInsert_group]
    refine Nat.or_lt_two_pow q.group ?_
    rw [priority.2, Nat.one_shiftLeft]
    exact Nat.pow_lt_pow_right (by decide) priority.1
  · rw [bits, Rt.scheduleInsert_lists]
    by_cases same : p = (k.thread t).currentPriority
    · rw [same, Function.update_self]
      simp
    · rw [Function.update_of_ne (fun eq => same (Place.ready.inj eq)), ← q.bit p]
      simp [Ne.symm same]

end Queues

/-! ## `rt_schedule` -/

/-- A ready thread is the current one, and none has a smaller priority value. -/
structure Top (k : Rt) : Prop where
  ready : (k.thread k.current).stat = .ready
  least : ∀ u, (k.thread u).stat = .ready → (k.thread k.current).currentPriority ≤ (k.thread u).currentPriority

/-- The lists of all priorities are not empty together. -/
theorem Queues.group_ne_zero {k : Rt} (q : Queues k none) {t : Nat} (ready : (k.thread t).stat = .ready) :
    k.readyPriorityGroup ≠ 0 := by
  intro none
  have mem := (q.ready t _).2 ⟨Option.some_ne_none t, ready, rfl⟩
  have set := (q.bit _).2 (List.ne_nil_of_mem mem)
  rw [none, Nat.zero_testBit] at set
  cases set

/-- The highest priority with a ready thread. -/
theorem Queues.highest {k : Rt} (q : Queues k none) {t : Nat} (ready : (k.thread t).stat = .ready) :
    k.lists (.ready (rtFfs k.readyPriorityGroup - 1)) ≠ [] ∧
      ∀ u, (k.thread u).stat = .ready → rtFfs k.readyPriorityGroup - 1 ≤ (k.thread u).currentPriority := by
  obtain ⟨set, least⟩ := rtFfs_lowest (q.group_ne_zero ready) q.group
  refine ⟨(q.bit _).1 set, fun u ready => Nat.not_lt.1 fun less => ?_⟩
  have mem := (q.ready u _).2 ⟨Option.some_ne_none u, ready, rfl⟩
  have set := (q.bit _).2 (List.ne_nil_of_mem mem)
  rw [least _ less] at set
  cases set

/-- With the scheduler not locked, and with a thread that is ready. -/
theorem schedule_top {k : Rt} (q : Queues k none) {t : Nat} (ready : (k.thread t).stat = .ready)
    (unlocked : k.lockNest = 0) :
    ∃ p u, k.schedule = some { k with currentPriority := p, current := u } ∧
      Top { k with currentPriority := p, current := u } ∧
      (k.lists (.ready (k.thread u).currentPriority)).head? = some u := by
  obtain ⟨nonempty, least⟩ := q.highest ready
  cases list : k.lists (.ready (rtFfs k.readyPriorityGroup - 1)) with
  | nil => exact absurd list nonempty
  | cons toThread later =>
    have mem : toThread ∈ k.lists (.ready (rtFfs k.readyPriorityGroup - 1)) := list ▸ List.mem_cons_self
    obtain ⟨-, now, priority⟩ := (q.ready _ _).1 mem
    have top (p : Nat) : Top { k with currentPriority := p, current := toThread } := by
      refine ⟨now, fun u ready => ?_⟩
      show (k.thread toThread).currentPriority ≤ _
      rw [priority]
      exact least u ready
    have first : (k.lists (.ready (k.thread toThread).currentPriority)).head? = some toThread := by
      rw [priority, list]
      rfl
    rw [Rt.schedule, if_pos unlocked]
    dsimp only
    rw [list]
    by_cases same : toThread ≠ k.current
    · exact ⟨_, _, if_pos same, top _, first⟩
    · refine ⟨k.currentPriority, toThread, ?_, top _, first⟩
      dsimp only
      rw [if_neg same, not_not.1 same]

end Ecu.Kernel
