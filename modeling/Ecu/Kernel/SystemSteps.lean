import Ecu.Kernel.SystemInvariant

/-!
# The invariant along a run

Each event keeps the invariant, so every event that may come in a state that is reached can be taken.
-/

namespace Ecu.Kernel.Sys

variable {idle : Nat} {s s' : Sys}

theorem setPc_pc (s : Sys) (t : Nat) (pc : Pc) : (s.setPc t pc).pc = Function.update s.pc t pc := rfl

theorem Waiting.keep {u m : Nat} (waiting : s.Waiting u m) (stat : (s'.rt.thread u).stat = (s.rt.thread u).stat)
    (error : (s'.rt.thread u).error = (s.rt.thread u).error)
    (mem : u ∈ s.rt.lists (.mutex m) → u ∈ s'.rt.lists (.mutex m))
    (owner : (s'.rt.mutex m).owner = some u ↔ (s.rt.mutex m).owner = some u)
    (hold : (s.rt.mutex m).owner = some u → (s'.rt.mutex m).hold = (s.rt.mutex m).hold) : s'.Waiting u m := by
  cases waiting with
  | waits suspended listed eok other =>
    exact .waits (stat.trans suspended) (mem listed) (error.trans eok) (mt owner.1 other)
  | late ready etimeout other => exact .late (stat.trans ready) (error.trans etimeout) (mt owner.1 other)
  | owns ready eok own once =>
    exact .owns (stat.trans ready) (error.trans eok) (owner.2 own) ((hold own).trans once)

namespace Inv

theorem own_ne {t u m : Nat} (own : (s.pc t).stay = .own) (stay : (s.pc u).stay = .mutex m) : u ≠ t := fun same => by
  rw [same, own] at stay
  cases stay

/-- The thread takes the mutex, which is free or its own. -/
theorem takes (inv : Inv idle s) {t m : Nat} {x : RtMutex} (current : s.rt.current = t) (user : s.pc t = .user)
    (before : (s.rt.mutex m).owner = none ∨ (s.rt.mutex m).owner = some t)
    (nobody : (s.rt.mutex m).owner = none → (s.rt.mutex m).hold = 0)
    (held : x.Held t) (hold : x.hold = (s.rt.mutex m).hold + 1)
    (now : Becomes s' (Function.update s.rt.thread t { s.rt.thread t with error := .eok })
      (Function.update s.rt.mutex m x) s.waiters s.pc (Function.update s.held t (m :: s.held t)) t s.rt.lockNest) :
    Inv idle s' := by
  have own : (s.pc t).stay = .own := by
    rw [user]
    rfl
  have ready : (s.rt.thread t).stat = .ready := by
    rw [← current] at user ⊢
    exact inv.current_ready (by rw [user]; rfl)
  have stat (u : Nat) : (s'.rt.thread u).stat = (s.rt.thread u).stat := by
    rw [now.thread]
    by_cases same : u = t
    · rw [same, Function.update_self]
    · rw [Function.update_of_ne same]
  have field (u : Nat) : (s'.rt.thread u).timer = (s.rt.thread u).timer ∧
      (s'.rt.thread u).initPriority = (s.rt.thread u).initPriority := by
    rw [now.thread]
    by_cases same : u = t
    · rw [same, Function.update_self]
      exact ⟨rfl, rfl⟩
    · rw [Function.update_of_ne same]
      exact ⟨rfl, rfl⟩
  refine ⟨now.queues, fun m' => ?_, fun u m' mem => ?_, fun u stay => ?_, fun u m' stay => ?_, fun u stay => ?_,
    fun u init => ?_, fun u => ?_, fun u => ?_, fun u on => ?_, .inl ?_, ?_, fun u m' => ?_⟩
  · simp only [now.waiters, stat]
    rw [now.mutex]
    by_cases same : m' = m
    · rw [same, Function.update_self]
      refine .inr ⟨t, held, ?_⟩
      rw [ready]
      decide
    · rw [Function.update_of_ne same]
      exact inv.free m'
  · rw [now.waiters] at mem
    rw [now.pc]
    exact inv.waiter u m' mem
  · rw [now.pc] at stay
    rw [stat]
    exact inv.own u stay
  · rw [now.pc] at stay
    have ne := own_ne own stay
    refine (inv.waiting u m' stay).keep (stat u) ?_ (fun mem => ?_) ?_ fun owner => ?_
    · rw [now.thread, Function.update_of_ne ne]
    · rw [now.waiters]
      exact mem
    · rw [now.mutex]
      by_cases same : m' = m
      · rw [same, Function.update_self, held.owner]
        refine iff_of_false (fun eq => ne (Option.some.inj eq).symm) fun eq => ?_
        obtain free | owned := before
        · rw [free] at eq
          cases eq
        · rw [owned] at eq
          exact ne (Option.some.inj eq).symm
      · rw [Function.update_of_ne same]
    · rw [now.mutex]
      by_cases same : m' = m
      · rw [same] at owner
        obtain free | owned := before
        · rw [free] at owner
          cases owner
        · rw [owned] at owner
          exact absurd (Option.some.inj owner).symm ne
      · rw [Function.update_of_ne same]
  · rw [now.pc] at stay
    rw [stat]
    exact inv.sleep u stay
  · rw [stat] at init
    have ne : u ≠ t := fun same => by
      rw [same, ready] at init
      cases init
    rw [now.pc, now.held, Function.update_of_ne ne]
    exact inv.initial u init
  · rw [(field u).2]
    exact inv.started u
  · rw [stat]
    exact inv.alive u
  · rw [(field u).1] at on
    rw [stat]
    exact inv.timer u on
  · rw [stat, now.current]
    exact ready
  · rw [stat]
    exact inv.idle
  · rw [now.held, now.mutex, now.pc]
    by_cases mutex : m' = m
    · rw [mutex, Function.update_self, held.owner]
      by_cases same : u = t
      · have inside : Stay.own ≠ .mutex m := fun eq => by cases eq
        have after : (if some t = some t ∧ Stay.own ≠ .mutex m then x.hold else 0) = x.hold := if_pos ⟨rfl, inside⟩
        rw [same, Function.update_self, List.count_cons_self, inv.held, own, after, hold]
        obtain free | owned := before
        · rw [free, nobody free, if_neg (fun both => by cases both.1)]
        · rw [owned, if_pos ⟨rfl, inside⟩]
      · rw [Function.update_of_ne same, inv.held, if_neg, if_neg]
        · exact fun both => same (Option.some.inj both.1).symm
        · rintro ⟨owner, -⟩
          obtain free | owned := before
          · rw [free] at owner
            cases owner
          · rw [owned] at owner
            exact same (Option.some.inj owner).symm
    · rw [Function.update_of_ne mutex]
      by_cases same : u = t
      · rw [same, Function.update_self, List.count_cons_of_ne (Ne.symm mutex)]
        exact inv.held t m'
      · rw [Function.update_of_ne same]
        exact inv.held u m'

/-- What only concerns priorities, errors that are not read, and who is the current thread. -/
theorem passes (inv : Inv idle s) {thread : Nat → Thread} {pc : Nat → Pc} {current lockNest : Nat}
    (fields : ∀ u, (thread u).stat = (s.rt.thread u).stat ∧ (thread u).timer = (s.rt.thread u).timer ∧
      (thread u).initPriority = (s.rt.thread u).initPriority)
    (error : ∀ u m, (s.pc u).stay = .mutex m → (thread u).error = (s.rt.thread u).error)
    (stay : ∀ u, (pc u).stay = (s.pc u).stay)
    (running : (s.rt.thread current).stat = .ready ∨
      (s.rt.thread current).stat = .suspend ∧ lockNest = 0 ∧ (pc current).parting = true)
    (now : Becomes s' thread s.rt.mutex s.waiters pc s.held current lockNest) : Inv idle s' := by
  refine inv.frame now.queues now.mutex now.waiters (fun u => ?_) (fun u m within => ?_) (fun u => ?_) (fun u => ?_)
    (fun u => ?_) now.held ?_
  · rw [now.thread]
    exact (fields u).1
  · rw [now.thread]
    exact error u m within
  · rw [now.thread]
    exact (fields u).2.1
  · rw [now.thread]
    exact (fields u).2.2
  · rw [now.pc]
    exact stay u
  · rw [now.current, now.lockNest, now.pc]
    exact running

/-- Another `error` of the current thread, which reads none. -/
theorem fails (inv : Inv idle s) {t : Nat} (err : Err) (pc : Pc) (ready : (s.rt.thread t).stat = .ready)
    (outside : ∀ m, (s.pc t).stay ≠ .mutex m) (stay : pc.stay = (s.pc t).stay)
    (now : Becomes s' (Function.update s.rt.thread t { s.rt.thread t with error := err }) s.rt.mutex s.waiters
      (Function.update s.pc t pc) s.held t s.rt.lockNest) : Inv idle s' := by
  refine inv.passes (fun u => ?_) (fun u m within => ?_) (fun u => ?_) (.inl ready) now
  · by_cases same : u = t
    · rw [same, Function.update_self]
      exact ⟨rfl, rfl, rfl⟩
    · rw [Function.update_of_ne same]
      exact ⟨rfl, rfl, rfl⟩
  · have ne : u ≠ t := fun same => outside m (same ▸ within)
    rw [Function.update_of_ne ne]
  · by_cases same : u = t
    · rw [same, Function.update_self, stay]
    · rw [Function.update_of_ne same]

/-- The current thread goes on in its call, and maybe another one is picked. -/
theorem moves (inv : Inv idle s) (pc : Pc) {u lockNest : Nat} (stay : pc.stay = (s.pc s.rt.current).stay)
    (running : (s.rt.thread u).stat = .ready)
    (now : Becomes s' s.rt.thread s.rt.mutex s.waiters (Function.update s.pc s.rt.current pc) s.held u lockNest) :
    Inv idle s' := by
  refine inv.passes (fun _ => ⟨rfl, rfl, rfl⟩) (fun _ _ _ => rfl) (fun v => ?_) (.inl running) now
  by_cases same : v = s.rt.current
  · rw [same, Function.update_self, stay]
  · rw [Function.update_of_ne same]

/-- A lock that leaves the current thread ready leaves it so. -/
theorem picked_ready (inv : Inv idle s) (picks : Picks s s') (same : s'.rt.thread s'.rt.current = s.rt.thread s'.rt.current ∨
    (s'.rt.thread s'.rt.current).stat = .ready) : (s'.rt.thread s'.rt.current).stat = .ready := by
  by_cases unlocked : s.rt.lockNest = 0
  · exact (picks.unlocked unlocked).ready
  · obtain eq | ready := same
    · rw [eq, picks.locked unlocked]
      obtain ready | ⟨-, zero, -⟩ := inv.running
      · exact ready
      · exact absurd zero unlocked
    · exact ready

theorem inherit_same (k : Rt) (o t u : Nat) :
    (k.inherit o t u).stat = (k.thread u).stat ∧ (k.inherit o t u).error = (k.thread u).error ∧
      (k.inherit o t u).timer = (k.thread u).timer ∧ (k.inherit o t u).initPriority = (k.thread u).initPriority := by
  unfold Rt.inherit
  dsimp only
  split_ifs
  · by_cases same : u = o
    · rw [same, Function.update_self]
      exact ⟨rfl, rfl, rfl, rfl⟩
    · rw [Function.update_of_ne same]
      exact ⟨rfl, rfl, rfl, rfl⟩
  · exact ⟨rfl, rfl, rfl, rfl⟩

theorem restore_same (k : Rt) (m t u : Nat) :
    (k.restore m t u).stat = (k.thread u).stat ∧ (k.restore m t u).error = (k.thread u).error ∧
      (k.restore m t u).timer = (k.thread u).timer ∧ (k.restore m t u).initPriority = (k.thread u).initPriority := by
  unfold Rt.restore
  dsimp only
  by_cases same : u = t
  · rw [same, Function.update_self]
    exact ⟨rfl, rfl, rfl, rfl⟩
  · rw [Function.update_of_ne same]
    exact ⟨rfl, rfl, rfl, rfl⟩

/-- The current thread is put among those that wait for a mutex. -/
theorem waits (inv : Inv idle s) {t m o : Nat} {on : Bool} {list : List Nat} (user : s.pc t = .user)
    (ready : (s.rt.thread t).stat = .ready)
    (owner : (s.rt.mutex m).owner = some o) (ne : o ≠ t) (unlocked : s.rt.lockNest = 0) (busy : t ≠ idle)
    (added : list.Perm (t :: s.waiters m))
    (now : Becomes s' (Function.update (s.rt.inherit o t) t
        { s.rt.thread t with stat := .suspend, error := .eok, timer := on })
      s.rt.mutex (Function.update s.waiters m list) (Function.update s.pc t (.waits m)) s.held t s.rt.lockNest) :
    Inv idle s' := by
  have own : (s.pc t).stay = .own := by
    rw [user]
    rfl
  have self : s'.rt.thread t = { s.rt.thread t with stat := .suspend, error := .eok, timer := on } := by
    rw [now.thread, Function.update_self]
  have other {u : Nat} (ne : u ≠ t) : s'.rt.thread u = s.rt.inherit o t u := by
    rw [now.thread, Function.update_of_ne ne]
  have stat {u : Nat} (ne : u ≠ t) : (s'.rt.thread u).stat = (s.rt.thread u).stat := by
    rw [other ne]
    exact (inherit_same ..).1
  have awake {u : Nat} (started : (s.rt.thread u).stat ≠ .init) : (s'.rt.thread u).stat ≠ .init := by
    by_cases same : u = t
    · rw [same, self]
      exact fun eq => by cases eq
    · rwa [stat same]
  have pc {u : Nat} (ne : u ≠ t) : s'.pc u = s.pc u := by
    rw [now.pc, Function.update_of_ne ne]
  have pcSelf : s'.pc t = .waits m := by
    rw [now.pc, Function.update_self]
  refine ⟨now.queues, fun m' => ?_, fun u m' mem => ?_, fun u stay => ?_, fun u m' stay => ?_, fun u stay => ?_,
    fun u init => ?_, fun u => ?_, fun u => ?_, fun u timed => ?_, .inr ⟨?_, ?_, ?_⟩, ?_, fun u m' => ?_⟩
  · rw [now.mutex, now.waiters]
    by_cases same : m' = m
    · obtain ⟨held, started⟩ := inv.owner_of owner
      rw [same]
      exact .inr ⟨o, held, awake started⟩
    · rw [Function.update_of_ne same]
      obtain free | ⟨o', held, started⟩ := inv.free m'
      · exact .inl free
      · exact .inr ⟨o', held, awake started⟩
  · rw [now.waiters] at mem
    have listed : u ∈ s.rt.lists (.mutex m') → (s'.pc u).stay = .mutex m' := fun mem => by
      have stay := inv.waiter u m' mem
      rwa [pc (own_ne own stay)]
    by_cases same : m' = m
    · rw [same, Function.update_self, added.mem_iff, List.mem_cons] at mem
      obtain eq | mem := mem
      · rw [eq, pcSelf, same]
        rfl
      · exact listed (same ▸ mem)
    · rw [Function.update_of_ne same] at mem
      exact listed mem
  · have ne : u ≠ t := fun same => by
      rw [same, pcSelf] at stay
      cases stay
    rw [pc ne] at stay
    rw [stat ne]
    exact inv.own u stay
  · by_cases same : u = t
    · subst same
      rw [pcSelf] at stay
      cases stay
      refine .waits (by rw [self]) ?_ (by rw [self]) ?_
      · rw [now.waiters, Function.update_self, added.mem_iff]
        exact List.mem_cons_self
      · rw [now.mutex, owner]
        exact fun eq => ne (Option.some.inj eq)
    · rw [pc same] at stay
      refine (inv.waiting u m' stay).keep (stat same) ?_ (fun mem => ?_) ?_ fun _ => ?_
      · rw [other same]
        exact (inherit_same ..).2.1
      · rw [now.waiters]
        by_cases eq : m' = m
        · rw [eq, Function.update_self, added.mem_iff]
          exact List.mem_cons_of_mem _ (eq ▸ mem)
        · rwa [Function.update_of_ne eq]
      · rw [now.mutex]
      · rw [now.mutex]
  · have ne : u ≠ t := fun same => by
      rw [same, pcSelf] at stay
      cases stay
    rw [pc ne] at stay
    exact awake (inv.sleep u stay)
  · have ne : u ≠ t := fun same => by
      rw [same, self] at init
      cases init
    rw [stat ne] at init
    rw [pc ne, now.held]
    exact inv.initial u init
  · by_cases same : u = t
    · rw [same, self]
      exact inv.started t
    · rw [other same, (inherit_same ..).2.2.2]
      exact inv.started u
  · by_cases same : u = t
    · rw [same, self]
      exact fun eq => by cases eq
    · rw [stat same]
      exact inv.alive u
  · by_cases same : u = t
    · rw [same, self]
    · rw [other same, (inherit_same ..).2.2.1] at timed
      rw [stat same]
      exact inv.timer u timed
  · rw [now.current, self]
  · rw [now.lockNest]
    exact unlocked
  · rw [now.current, pcSelf]
    rfl
  · rw [stat (Ne.symm busy)]
    exact inv.idle
  · rw [now.held, now.mutex, inv.held]
    by_cases same : u = t
    · rw [same, pcSelf, own]
      by_cases mutex : m' = m
      · rw [mutex, owner, if_neg, if_neg]
        · exact fun both => ne (Option.some.inj both.1)
        · exact fun both => ne (Option.some.inj both.1)
      · have apart : (Pc.waits m).stay ≠ .mutex m' := fun eq => mutex (Stay.mutex.inj eq).symm
        have inside : Stay.own ≠ .mutex m' := fun eq => by cases eq
        simp only [apart, inside, ne_eq, not_false_eq_true]
    · rw [pc same]

/-- The owner releases the mutex, which no thread gets. -/
theorem gives (inv : Inv idle s) {t m : Nat} {x : RtMutex} {thread : Nat → Thread} (user : s.pc t = .user)
    (ready : (s.rt.thread t).stat = .ready) (owner : (s.rt.mutex m).owner = some t)
    (after : x.Held t ∨ x.Free ∧ s.waiters m = []) (hold : x.hold = (s.rt.mutex m).hold - 1)
    (fields : ∀ u, (thread u).stat = (s.rt.thread u).stat ∧ (thread u).error = (s.rt.thread u).error ∧
      (thread u).timer = (s.rt.thread u).timer ∧ (thread u).initPriority = (s.rt.thread u).initPriority)
    (now : Becomes s' thread (Function.update s.rt.mutex m x) s.waiters s.pc
      (Function.update s.held t ((s.held t).erase m)) t s.rt.lockNest) : Inv idle s' := by
  have own : (s.pc t).stay = .own := by
    rw [user]
    rfl
  have stat (u : Nat) : (s'.rt.thread u).stat = (s.rt.thread u).stat := by
    rw [now.thread]
    exact (fields u).1
  have owner' {u : Nat} (ne : u ≠ t) : x.owner ≠ some u := by
    obtain held | ⟨free, -⟩ := after
    · rw [held.owner]
      exact fun eq => ne (Option.some.inj eq).symm
    · rw [free.1]
      exact fun eq => by cases eq
  have before {u : Nat} (ne : u ≠ t) : (s.rt.mutex m).owner ≠ some u := by
    rw [owner]
    exact fun eq => ne (Option.some.inj eq).symm
  refine ⟨now.queues, fun m' => ?_, fun u m' mem => ?_, fun u stay => ?_, fun u m' stay => ?_, fun u stay => ?_,
    fun u init => ?_, fun u => ?_, fun u => ?_, fun u on => ?_, .inl ?_, ?_, fun u m' => ?_⟩
  · simp only [stat, now.waiters]
    rw [now.mutex]
    by_cases same : m' = m
    · rw [same, Function.update_self]
      obtain held | free := after
      · refine .inr ⟨t, held, ?_⟩
        rw [ready]
        decide
      · exact .inl free
    · rw [Function.update_of_ne same]
      exact inv.free m'
  · rw [now.waiters] at mem
    rw [now.pc]
    exact inv.waiter u m' mem
  · rw [now.pc] at stay
    rw [stat]
    exact inv.own u stay
  · rw [now.pc] at stay
    have ne := own_ne own stay
    refine (inv.waiting u m' stay).keep (stat u) ?_ (fun mem => ?_) ?_ fun owned => ?_
    · rw [now.thread]
      exact (fields u).2.1
    · rw [now.waiters]
      exact mem
    · rw [now.mutex]
      by_cases same : m' = m
      · rw [same, Function.update_self]
        exact iff_of_false (owner' ne) (before ne)
      · rw [Function.update_of_ne same]
    · rw [now.mutex]
      by_cases same : m' = m
      · exact absurd (same ▸ owned) (before ne)
      · rw [Function.update_of_ne same]
  · rw [now.pc] at stay
    rw [stat]
    exact inv.sleep u stay
  · rw [stat] at init
    have ne : u ≠ t := fun same => by
      rw [same, ready] at init
      cases init
    rw [now.pc, now.held, Function.update_of_ne ne]
    exact inv.initial u init
  · rw [now.thread, (fields u).2.2.2]
    exact inv.started u
  · rw [stat]
    exact inv.alive u
  · rw [now.thread, (fields u).2.2.1] at on
    rw [stat]
    exact inv.timer u on
  · rw [stat, now.current]
    exact ready
  · rw [stat]
    exact inv.idle
  · rw [now.held, now.mutex, now.pc]
    by_cases mutex : m' = m
    · rw [mutex, Function.update_self]
      by_cases same : u = t
      · have inside : Stay.own ≠ .mutex m := fun eq => by cases eq
        rw [same, Function.update_self, List.count_erase_self, inv.held, own, owner, if_pos ⟨rfl, inside⟩, ← hold]
        obtain held | ⟨free, -⟩ := after
        · rw [held.owner, if_pos ⟨rfl, inside⟩]
        · rw [free.1, free.2.2, if_neg (fun both => by cases both.1)]
      · rw [Function.update_of_ne same, inv.held, if_neg (fun both => before same both.1),
          if_neg (fun both => owner' same both.1)]
    · rw [Function.update_of_ne mutex]
      by_cases same : u = t
      · rw [same, Function.update_self, List.count_erase_of_ne mutex]
        exact inv.held t m'
      · rw [Function.update_of_ne same]
        exact inv.held u m'

/-- The owner hands the mutex over to the first of those that wait. -/
theorem hands (inv : Inv idle s) {t m h p : Nat} {rest : List Nat} (user : s.pc t = .user)
    (ready : (s.rt.thread t).stat = .ready) (owner : (s.rt.mutex m).owner = some t) (last : (s.rt.mutex m).hold = 1)
    (queue : s.waiters m = h :: rest) (priority : (s.rt.thread h).currentPriority = p)
    (now : Becomes s'
      (Function.update (s.rt.restore m t) h { s.rt.thread h with stat := .ready, timer := false })
      (Function.update s.rt.mutex m { s.rt.mutex m with owner := some h, originalPriority := p, hold := 1 })
      (Function.update s.waiters m rest) (Function.update s.pc t .switching)
      (Function.update s.held t ((s.held t).erase m)) t s.rt.lockNest) : Inv idle s' := by
  have own : (s.pc t).stay = .own := by
    rw [user]
    rfl
  have listed : h ∈ s.rt.lists (.mutex m) := by
    rw [show s.rt.lists (.mutex m) = h :: rest from queue]
    exact List.mem_cons_self
  have within := inv.waiter h m listed
  have suspended := (inv.queues.waiting h m listed).2
  have ne : h ≠ t := own_ne own within
  have eok : (s.rt.thread h).error = .eok := by
    cases inv.waiting h m within with
    | waits _ _ eok _ => exact eok
    | late ready _ _ =>
      rw [suspended] at ready
      cases ready
    | owns _ eok _ _ => exact eok
  have nodup := inv.queues.nodup (.mutex m)
  rw [show s.rt.lists (.mutex m) = h :: rest from queue] at nodup
  have self : s'.rt.thread h = { s.rt.thread h with stat := .ready, timer := false } := by
    rw [now.thread, Function.update_self]
  have other {u : Nat} (ne : u ≠ h) : s'.rt.thread u = s.rt.restore m t u := by
    rw [now.thread, Function.update_of_ne ne]
  have stat {u : Nat} (ne : u ≠ h) : (s'.rt.thread u).stat = (s.rt.thread u).stat := by
    rw [other ne]
    exact (restore_same ..).1
  have awake {u : Nat} (started : (s.rt.thread u).stat ≠ .init) : (s'.rt.thread u).stat ≠ .init := by
    by_cases same : u = h
    · rw [same, self]
      exact fun eq => by cases eq
    · rwa [stat same]
  have pc (u : Nat) : (s'.pc u).stay = (s.pc u).stay := by
    rw [now.pc]
    by_cases same : u = t
    · rw [same, Function.update_self, own]
      rfl
    · rw [Function.update_of_ne same]
  obtain ⟨held, -⟩ := inv.owner_of owner
  refine ⟨now.queues, fun m' => ?_, fun u m' mem => ?_, fun u stay => ?_, fun u m' stay => ?_, fun u stay => ?_,
    fun u init => ?_, fun u => ?_, fun u => ?_, fun u on => ?_, .inl ?_, ?_, fun u m' => ?_⟩
  · rw [now.mutex, now.waiters]
    by_cases same : m' = m
    · rw [same, Function.update_self]
      refine .inr ⟨h, ⟨rfl, held.value, Nat.one_pos, (by decide : 1 < 256), ?_⟩, ?_⟩
      · rw [← priority]
        refine (inv.queues.priority h ?_).1
        rw [suspended]
        decide
      · rw [self]
        exact fun eq => by cases eq
    · rw [Function.update_of_ne same, Function.update_of_ne same]
      obtain free | ⟨o', held, started⟩ := inv.free m'
      · exact .inl free
      · exact .inr ⟨o', held, awake started⟩
  · rw [now.waiters] at mem
    rw [pc]
    by_cases same : m' = m
    · rw [same, Function.update_self] at mem
      rw [same]
      refine inv.waiter u m ?_
      rw [show s.rt.lists (.mutex m) = h :: rest from queue]
      exact List.mem_cons_of_mem _ mem
    · rw [Function.update_of_ne same] at mem
      exact inv.waiter u m' mem
  · rw [pc] at stay
    by_cases same : u = h
    · rw [same, self]
      exact fun eq => by cases eq
    · rw [stat same]
      exact inv.own u stay
  · rw [pc] at stay
    by_cases same : u = h
    · subst same
      rw [within] at stay
      cases stay
      exact .owns (by rw [self]) (by rw [self]; exact eok) (by rw [now.mutex, Function.update_self])
        (by rw [now.mutex, Function.update_self])
    · have apart := own_ne own stay
      refine (inv.waiting u m' stay).keep (stat same) ?_ (fun mem => ?_) ?_ fun owned => ?_
      · rw [other same]
        exact (restore_same ..).2.1
      · rw [now.waiters]
        by_cases eq : m' = m
        · rw [eq, show s.rt.lists (.mutex m) = h :: rest from queue, List.mem_cons] at mem
          rw [eq, Function.update_self]
          exact mem.resolve_left same
        · rwa [Function.update_of_ne eq]
      · rw [now.mutex]
        by_cases eq : m' = m
        · rw [eq, Function.update_self, owner]
          exact iff_of_false (fun eq => same (Option.some.inj eq).symm) fun eq => apart (Option.some.inj eq).symm
        · rw [Function.update_of_ne eq]
      · rw [now.mutex]
        by_cases eq : m' = m
        · rw [eq, owner] at owned
          exact absurd (Option.some.inj owned).symm apart
        · rw [Function.update_of_ne eq]
  · rw [pc] at stay
    exact awake (inv.sleep u stay)
  · have apart : u ≠ h := fun same => by
      rw [same, self] at init
      cases init
    rw [stat apart] at init
    have ne : u ≠ t := fun same => by
      rw [same, ready] at init
      cases init
    rw [pc, now.held, Function.update_of_ne ne]
    exact inv.initial u init
  · by_cases same : u = h
    · rw [same, self]
      exact inv.started h
    · rw [other same, (restore_same ..).2.2.2]
      exact inv.started u
  · by_cases same : u = h
    · rw [same, self]
      exact fun eq => by cases eq
    · rw [stat same]
      exact inv.alive u
  · by_cases same : u = h
    · rw [same, self] at on
      cases on
    · rw [other same, (restore_same ..).2.2.1] at on
      rw [stat same]
      exact inv.timer u on
  · rw [now.current, stat (Ne.symm ne)]
    exact ready
  · by_cases same : idle = h
    · rw [same, self]
    · rw [stat same]
      exact inv.idle
  · rw [now.held, now.mutex, pc]
    by_cases mutex : m' = m
    · rw [mutex, Function.update_self]
      have after : ¬ (some h = some u ∧ (s.pc u).stay ≠ .mutex m) := by
        rintro ⟨eq, outside⟩
        exact outside (Option.some.inj eq ▸ within)
      rw [if_neg after]
      by_cases same : u = t
      · have inside : Stay.own ≠ .mutex m := fun eq => by cases eq
        rw [same, Function.update_self, List.count_erase_self, inv.held, own, owner, if_pos ⟨rfl, inside⟩, last]
      · rw [Function.update_of_ne same, inv.held, owner, if_neg (fun both => same (Option.some.inj both.1).symm)]
    · rw [Function.update_of_ne mutex]
      by_cases same : u = t
      · rw [same, Function.update_self, List.count_erase_of_ne mutex]
        exact inv.held t m'
      · rw [Function.update_of_ne same]
        exact inv.held u m'

/-- The current thread sleeps. -/
theorem sleeps (inv : Inv idle s) {t : Nat} (user : s.pc t = .user) (unlocked : s.rt.lockNest = 0) (busy : t ≠ idle)
    (now : Becomes s' (Function.update s.rt.thread t { s.rt.thread t with stat := .suspend, timer := true })
      s.rt.mutex s.waiters (Function.update s.pc t .sleeps) s.held t s.rt.lockNest) : Inv idle s' := by
  have own : (s.pc t).stay = .own := by
    rw [user]
    rfl
  have self : s'.rt.thread t = { s.rt.thread t with stat := .suspend, timer := true } := by
    rw [now.thread, Function.update_self]
  have other {u : Nat} (ne : u ≠ t) : s'.rt.thread u = s.rt.thread u := by
    rw [now.thread, Function.update_of_ne ne]
  have awake {u : Nat} (started : (s.rt.thread u).stat ≠ .init) : (s'.rt.thread u).stat ≠ .init := by
    by_cases same : u = t
    · rw [same, self]
      exact fun eq => by cases eq
    · rwa [other same]
  have pc {u : Nat} (ne : u ≠ t) : s'.pc u = s.pc u := by
    rw [now.pc, Function.update_of_ne ne]
  have pcSelf : s'.pc t = .sleeps := by
    rw [now.pc, Function.update_self]
  refine ⟨now.queues, fun m' => ?_, fun u m' mem => ?_, fun u stay => ?_, fun u m' stay => ?_, fun u stay => ?_,
    fun u init => ?_, fun u => ?_, fun u => ?_, fun u timed => ?_, .inr ⟨?_, ?_, ?_⟩, ?_, fun u m' => ?_⟩
  · rw [now.mutex, now.waiters]
    obtain free | ⟨o', held, started⟩ := inv.free m'
    · exact .inl free
    · exact .inr ⟨o', held, awake started⟩
  · rw [now.waiters] at mem
    have stay := inv.waiter u m' mem
    rwa [pc (own_ne own stay)]
  · have ne : u ≠ t := fun same => by
      rw [same, pcSelf] at stay
      cases stay
    rw [pc ne] at stay
    rw [other ne]
    exact inv.own u stay
  · have ne : u ≠ t := fun same => by
      rw [same, pcSelf] at stay
      cases stay
    rw [pc ne] at stay
    refine (inv.waiting u m' stay).keep (by rw [other ne]) (by rw [other ne]) (fun mem => ?_) ?_ fun _ => ?_
    · rw [now.waiters]
      exact mem
    · rw [now.mutex]
    · rw [now.mutex]
  · by_cases same : u = t
    · rw [same, self]
      exact fun eq => by cases eq
    · rw [pc same] at stay
      exact awake (inv.sleep u stay)
  · have ne : u ≠ t := fun same => by
      rw [same, self] at init
      cases init
    rw [other ne] at init
    rw [pc ne, now.held]
    exact inv.initial u init
  · by_cases same : u = t
    · rw [same, self]
      exact inv.started t
    · rw [other same]
      exact inv.started u
  · by_cases same : u = t
    · rw [same, self]
      exact fun eq => by cases eq
    · rw [other same]
      exact inv.alive u
  · by_cases same : u = t
    · rw [same, self]
    · rw [other same] at timed ⊢
      exact inv.timer u timed
  · rw [now.current, self]
  · rw [now.lockNest]
    exact unlocked
  · rw [now.current, pcSelf]
    rfl
  · rw [other (Ne.symm busy)]
    exact inv.idle
  · rw [now.held, now.mutex, inv.held]
    by_cases same : u = t
    · have inside : Pc.sleeps.stay ≠ .mutex m' := fun eq => by cases eq
      have before : Stay.own ≠ .mutex m' := fun eq => by cases eq
      rw [same, pcSelf, own]
      simp only [inside, before, ne_eq, not_false_eq_true]
    · rw [pc same]

/-- A thread is started. -/
theorem starts (inv : Inv idle s) {t c p n : Nat} (current : s.rt.current = c) (user : s.pc c = .user)
    (new : (s.rt.thread t).stat = .init)
    (now : Becomes s'
      (Function.update s.rt.thread t
        { s.rt.thread t with stat := .ready, currentPriority := p, numberMask := n, timer := false })
      s.rt.mutex s.waiters (Function.update s.pc c .switching) s.held c s.rt.lockNest) : Inv idle s' := by
  have ready : (s.rt.thread c).stat = .ready := by
    rw [← current] at user ⊢
    exact inv.current_ready (by rw [user]; rfl)
  obtain ⟨own, none⟩ := inv.initial t new
  have self : s'.rt.thread t =
      { s.rt.thread t with stat := .ready, currentPriority := p, numberMask := n, timer := false } := by
    rw [now.thread, Function.update_self]
  have other {u : Nat} (ne : u ≠ t) : s'.rt.thread u = s.rt.thread u := by
    rw [now.thread, Function.update_of_ne ne]
  have awake {u : Nat} (started : (s.rt.thread u).stat ≠ .init) : (s'.rt.thread u).stat ≠ .init := by
    by_cases same : u = t
    · rw [same, self]
      exact fun eq => by cases eq
    · rwa [other same]
  have pc (u : Nat) : (s'.pc u).stay = (s.pc u).stay := by
    rw [now.pc]
    by_cases same : u = c
    · rw [same, Function.update_self, user]
      rfl
    · rw [Function.update_of_ne same]
  have ne : c ≠ t := fun same => by
    rw [same, new] at ready
    cases ready
  refine ⟨now.queues, fun m => ?_, fun u m mem => ?_, fun u stay => ?_, fun u m stay => ?_, fun u stay => ?_,
    fun u init => ?_, fun u => ?_, fun u => ?_, fun u on => ?_, .inl ?_, ?_, fun u m => ?_⟩
  · rw [now.mutex, now.waiters]
    obtain free | ⟨o, held, started⟩ := inv.free m
    · exact .inl free
    · exact .inr ⟨o, held, awake started⟩
  · rw [now.waiters] at mem
    rw [pc]
    exact inv.waiter u m mem
  · rw [pc] at stay
    by_cases same : u = t
    · rw [same, self]
      exact fun eq => by cases eq
    · rw [other same]
      exact inv.own u stay
  · rw [pc] at stay
    have apart := own_ne own stay
    refine (inv.waiting u m stay).keep (by rw [other apart]) (by rw [other apart]) (fun mem => ?_) ?_ fun _ => ?_
    · rw [now.waiters]
      exact mem
    · rw [now.mutex]
    · rw [now.mutex]
  · rw [pc] at stay
    exact awake (inv.sleep u stay)
  · have apart : u ≠ t := fun same => by
      rw [same, self] at init
      cases init
    rw [other apart] at init
    rw [pc, now.held]
    exact inv.initial u init
  · by_cases same : u = t
    · rw [same, self]
      exact inv.started t
    · rw [other same]
      exact inv.started u
  · by_cases same : u = t
    · rw [same, self]
      exact fun eq => by cases eq
    · rw [other same]
      exact inv.alive u
  · by_cases same : u = t
    · rw [same, self] at on
      cases on
    · rw [other same] at on ⊢
      exact inv.timer u on
  · rw [now.current, other ne]
    exact ready
  · by_cases same : idle = t
    · rw [same, self]
    · rw [other same]
      exact inv.idle
  · rw [now.held, now.mutex, pc]
    exact inv.held u m

/-- The timer of a thread fires. -/
theorem fires (inv : Inv idle s) {t u : Nat} (on : (s.rt.thread t).timer = true) (picks : Picks s s')
    (now : Becomes s'
      (Function.update s.rt.thread t { s.rt.thread t with stat := .ready, error := .etimeout, timer := false })
      s.rt.mutex (fun m => (s.waiters m).filter (· ≠ t)) s.pc s.held u s.rt.lockNest) : Inv idle s' := by
  have suspended := inv.timer t on
  have self : s'.rt.thread t = { s.rt.thread t with stat := .ready, error := .etimeout, timer := false } := by
    rw [now.thread, Function.update_self]
  have other {v : Nat} (ne : v ≠ t) : s'.rt.thread v = s.rt.thread v := by
    rw [now.thread, Function.update_of_ne ne]
  have awake {v : Nat} (started : (s.rt.thread v).stat ≠ .init) : (s'.rt.thread v).stat ≠ .init := by
    by_cases same : v = t
    · rw [same, self]
      exact fun eq => by cases eq
    · rwa [other same]
  refine ⟨now.queues, fun m => ?_, fun v m mem => ?_, fun v stay => ?_, fun v m stay => ?_, fun v stay => ?_,
    fun v init => ?_, fun v => ?_, fun v => ?_, fun v timed => ?_, .inl (inv.picked_ready picks ?_), ?_, fun v m => ?_⟩
  · rw [now.mutex, now.waiters]
    obtain ⟨free, nobody⟩ | ⟨o, held, started⟩ := inv.free m
    · refine .inl ⟨free, ?_⟩
      rw [show s.waiters m = [] from nobody, List.filter_nil]
    · exact .inr ⟨o, held, awake started⟩
  · rw [now.waiters] at mem
    rw [now.pc]
    exact inv.waiter v m (Queues.mem_remove.1 mem).1
  · rw [now.pc] at stay
    by_cases same : v = t
    · rw [same, self]
      exact fun eq => by cases eq
    · rw [other same]
      exact inv.own v stay
  · rw [now.pc] at stay
    by_cases same : v = t
    · subst same
      cases inv.waiting v m stay with
      | waits _ _ _ others =>
        refine .late (by rw [self]) (by rw [self]) ?_
        rw [now.mutex]
        exact others
      | late ready _ _ =>
        rw [suspended] at ready
        cases ready
      | owns ready _ _ _ =>
        rw [suspended] at ready
        cases ready
    · refine (inv.waiting v m stay).keep (by rw [other same]) (by rw [other same]) (fun mem => ?_) ?_ fun _ => ?_
      · rw [now.waiters]
        exact Queues.mem_remove.2 ⟨mem, same⟩
      · rw [now.mutex]
      · rw [now.mutex]
  · rw [now.pc] at stay
    exact awake (inv.sleep v stay)
  · have apart : v ≠ t := fun same => by
      rw [same, self] at init
      cases init
    rw [other apart] at init
    rw [now.pc, now.held]
    exact inv.initial v init
  · by_cases same : v = t
    · rw [same, self]
      exact inv.started t
    · rw [other same]
      exact inv.started v
  · by_cases same : v = t
    · rw [same, self]
      exact fun eq => by cases eq
    · rw [other same]
      exact inv.alive v
  · by_cases same : v = t
    · rw [same, self] at timed
      cases timed
    · rw [other same] at timed ⊢
      exact inv.timer v timed
  · by_cases same : s'.rt.current = t
    · rw [same, self]
      exact .inr rfl
    · exact .inl (other same)
  · by_cases same : idle = t
    · rw [same, self]
    · rw [other same]
      exact inv.idle
  · rw [now.held, now.mutex, now.pc]
    exact inv.held v m

/-- A thread that is ready has slept. -/
theorem wokenUp (inv : Inv idle s) {t : Nat} (slept : s.pc t = .slept) (ready : (s.rt.thread t).stat = .ready) :
    Inv idle (s.setPc t .user) := by
  have pc {u : Nat} (ne : u ≠ t) : (s.setPc t .user).pc u = s.pc u := Function.update_of_ne ne ..
  have pcSelf : (s.setPc t .user).pc t = .user := Function.update_self ..
  have outside {u : Nat} (ne : ((s.setPc t .user).pc u).stay ≠ .own) : (s.setPc t .user).pc u = s.pc u :=
    pc fun same => ne (by rw [same, pcSelf]; rfl)
  have running := inv.running
  refine { inv with
    waiter := fun u m mem => ?_
    own := fun u stay => ?_
    waiting := fun u m stay => ?_
    sleep := fun u stay => ?_
    initial := fun u init => ?_
    running := ?_
    held := fun u m => ?_ }
  · have stay := inv.waiter u m mem
    have ne : u ≠ t := fun same => by
      rw [same, slept] at stay
      cases stay
    rwa [pc ne]
  · by_cases same : u = t
    · rw [same]
      show (s.rt.thread t).stat ≠ _
      rw [ready]
      decide
    · rw [pc same] at stay
      exact inv.own u stay
  · rw [outside (by rw [stay]; exact fun eq => by cases eq)] at stay
    exact (inv.waiting u m stay).keep rfl rfl id Iff.rfl fun _ => rfl
  · rw [outside (by rw [stay]; exact fun eq => by cases eq)] at stay
    exact inv.sleep u stay
  · have ne : u ≠ t := fun same => by
      have init : (s.rt.thread u).stat = .init := init
      rw [same, ready] at init
      cases init
    rw [pc ne]
    exact inv.initial u init
  · by_cases same : s.rt.current = t
    · exact .inl (same ▸ ready)
    · rw [show (s.setPc t .user).pc (s.setPc t .user).rt.current = s.pc s.rt.current from pc same]
      exact running
  · show (s.held u).count m = if (s.rt.mutex m).owner = some u ∧ _ then (s.rt.mutex m).hold else 0
    rw [inv.held]
    by_cases same : u = t
    · have before : (s.pc t).stay ≠ .mutex m := by
        rw [slept]
        exact fun eq => by cases eq
      have after : Pc.user.stay ≠ .mutex m := fun eq => by cases eq
      rw [same, pcSelf]
      simp only [before, after, ne_eq, not_false_eq_true]
    · simp only [pc same]

/-- A thread that reads its error at the end of `rt_mutex_take`. -/
theorem wakes (inv : Inv idle s) {t m : Nat} (woken : s.pc t = .woken m)
    (ready : (s.rt.thread t).stat = .ready)
    (now : Becomes s' s.rt.thread s.rt.mutex s.waiters (Function.update s.pc t .user)
      (if (s.rt.thread t).error = .eok then Function.update s.held t (m :: s.held t) else s.held) t s.rt.lockNest) :
    Inv idle s' := by
  have within : (s.pc t).stay = .mutex m := by
    rw [woken]
    rfl
  have pc {u : Nat} (ne : u ≠ t) : s'.pc u = s.pc u := by
    rw [now.pc, Function.update_of_ne ne]
  have pcSelf : s'.pc t = .user := by
    rw [now.pc, Function.update_self]
  have outside {u m' : Nat} (stay : (s'.pc u).stay = .mutex m') : u ≠ t := fun same => by
    rw [same, pcSelf] at stay
    cases stay
  refine ⟨now.queues, fun m' => ?_, fun u m' mem => ?_, fun u stay => ?_, fun u m' stay => ?_, fun u stay => ?_,
    fun u init => ?_, fun u => ?_, fun u => ?_, fun u on => ?_, .inl ?_, ?_, fun u m' => ?_⟩
  · rw [now.mutex, now.waiters, now.thread]
    exact inv.free m'
  · rw [now.waiters] at mem
    have suspended := (inv.queues.waiting u m' mem).2
    have ne : u ≠ t := fun same => by
      rw [same, ready] at suspended
      cases suspended
    rw [pc ne]
    exact inv.waiter u m' mem
  · rw [now.thread]
    by_cases same : u = t
    · rw [same, ready]
      decide
    · rw [pc same] at stay
      exact inv.own u stay
  · have ne := outside stay
    rw [pc ne] at stay
    refine (inv.waiting u m' stay).keep (by rw [now.thread]) (by rw [now.thread]) (fun mem => ?_) ?_ fun _ => ?_
    · rw [now.waiters]
      exact mem
    · rw [now.mutex]
    · rw [now.mutex]
  · have ne : u ≠ t := fun same => by
      rw [same, pcSelf] at stay
      cases stay
    rw [pc ne] at stay
    rw [now.thread]
    exact inv.sleep u stay
  · rw [now.thread] at init
    have ne : u ≠ t := fun same => by
      rw [same, ready] at init
      cases init
    have held : s'.held u = s.held u := by
      rw [now.held]
      split_ifs
      · exact Function.update_of_ne ne ..
      · rfl
    rw [pc ne, held]
    exact inv.initial u init
  · rw [now.thread]
    exact inv.started u
  · rw [now.thread]
    exact inv.alive u
  · rw [now.thread] at on ⊢
    exact inv.timer u on
  · rw [now.thread, now.current]
    exact ready
  · rw [now.thread]
    exact inv.idle
  · rw [now.mutex, now.held]
    by_cases same : u = t
    · subst same
      have before : (s.held u).count m = 0 := by
        rw [inv.held, if_neg (fun both => both.2 within)]
      have after : (Pc.user).stay ≠ .mutex m' := fun eq => by cases eq
      rw [pcSelf]
      cases inv.waiting u m within with
      | waits suspended _ _ _ =>
        rw [ready] at suspended
        cases suspended
      | late _ late other =>
        rw [if_neg (by rw [late]; decide)]
        by_cases mutex : m' = m
        · rw [mutex, before, if_neg (fun both => other both.1)]
        · have apart : (s.pc u).stay ≠ .mutex m' := fun eq => by
            rw [within] at eq
            exact mutex (Stay.mutex.inj eq).symm
          rw [inv.held]
          simp only [after, apart, ne_eq, not_false_eq_true]
      | owns _ eok owner once =>
        rw [if_pos eok, Function.update_self]
        by_cases mutex : m' = m
        · rw [mutex, List.count_cons_self, before, if_pos ⟨owner, fun eq => by cases eq⟩, once]
        · have apart : (s.pc u).stay ≠ .mutex m' := fun eq => by
            rw [within] at eq
            exact mutex (Stay.mutex.inj eq).symm
          rw [List.count_cons_of_ne (Ne.symm mutex), inv.held]
          simp only [after, apart, ne_eq, not_false_eq_true]
    · have held : (if (s.rt.thread t).error = .eok then Function.update s.held t (m :: s.held t) else s.held) u =
          s.held u := by
        split_ifs
        · exact Function.update_of_ne same ..
        · rfl
      rw [held, pc same]
      exact inv.held u m'

/-- Every event keeps the invariant. -/
theorem keeps (inv : Inv idle s) {e : Event} (effect : Effect idle s e s') : Inv idle s' := by
  have ready (outside : (s.pc s.rt.current).parting = false) := inv.current_ready outside
  cases effect with
  | @retake m time s' user owner small now =>
    obtain ⟨held, -⟩ := inv.owner_of owner
    refine inv.takes (x := { s.rt.mutex m with hold := (s.rt.mutex m).hold + 1 }) rfl user (.inr owner) (fun free => ?_) ⟨owner, held.value, Nat.succ_pos _, ?_, held.priority⟩ rfl now
    · rw [owner] at free
      cases free
    · show (s.rt.mutex m).hold + 1 < 256
      omega
  | takeFree user free nobody now =>
    have ready := ready (by rw [user]; rfl)
    have priority := (inv.queues.priority s.rt.current (by rw [ready]; decide)).1
    refine inv.takes rfl user (.inl free.1) (fun _ => free.2.2) ⟨rfl, rfl, Nat.one_pos, (by decide : 1 < 256), priority⟩
      ?_ now
    rw [free.2.2]
  | refused user owner ne now =>
    refine inv.fails .etimeout .user (ready (by rw [user]; rfl)) (fun m eq => ?_) (by rw [user]) ?_
    · rw [user] at eq
      cases eq
    · rwa [← user, Function.update_eq_self]
  | waits user owner ne waits unlocked busy added fifo now =>
    exact inv.waits user (ready (by rw [user]; rfl)) owner ne unlocked busy added now
  | releaseOther user other now =>
    refine inv.fails .error .user (ready (by rw [user]; rfl)) (fun m eq => ?_) (by rw [user]) ?_
    · rw [user] at eq
      cases eq
    · rwa [← user, Function.update_eq_self]
  | @releaseMore m s' user owner more now =>
    obtain ⟨held, -⟩ := inv.owner_of owner
    refine inv.gives (x := { s.rt.mutex m with hold := (s.rt.mutex m).hold - 1 }) user (ready (by rw [user]; rfl)) owner (.inl ⟨owner, held.value, ?_, ?_, held.priority⟩) rfl
      (fun _ => ⟨rfl, rfl, rfl, rfl⟩) now
    · exact Nat.sub_pos_of_lt more
    · exact Nat.lt_of_le_of_lt (Nat.sub_le _ _) held.small
  | releaseLast user owner last nobody now =>
    refine inv.gives user (ready (by rw [user]; rfl)) owner (.inr ⟨⟨rfl, rfl, rfl⟩, nobody⟩) ?_ (restore_same _ _ _) now
    rw [last]
  | releaseHands user owner last queue now =>
    exact inv.hands user (ready (by rw [user]; rfl)) owner last queue rfl now
  | yields user later now =>
    refine inv.moves _ ?_ (ready (by rw [user]; rfl)) now
    obtain rfl | rfl := later
    · rw [user]
    · rw [user]
      rfl
  | delay user unlocked busy now => exact inv.sleeps user unlocked busy now
  | enterCritical user now =>
    exact inv.passes (fun _ => ⟨rfl, rfl, rfl⟩) (fun _ _ _ => rfl) (fun _ => rfl) (.inl (ready (by rw [user]; rfl))) now
  | exitCritical user later now =>
    refine inv.moves _ ?_ (ready (by rw [user]; rfl)) now
    obtain ⟨rfl, -⟩ | rfl := later
    · rw [user]
    · rw [user]
      rfl
  | startup user new now => exact inv.starts rfl user new now
  | switches stay resumed picks now =>
    refine inv.moves _ stay ?_ now
    have picked := inv.picked_ready picks (.inl (by rw [now.thread]))
    rwa [now.thread, now.current] at picked
  | woken woken now => exact inv.wakes woken (ready (by rw [woken]; rfl)) now
  | slept slept now =>
    have awake := ready (by rw [slept]; rfl)
    refine (inv.wokenUp slept awake).fails _ .user awake (fun m eq => ?_) ?_ ⟨now.thread, now.mutex, now.waiters, ?_,
      now.held, now.current, now.lockNest, now.queues⟩
    · rw [setPc_pc, Function.update_self] at eq
      cases eq
    · rw [setPc_pc, Function.update_self]
    · rw [now.pc, setPc_pc, Function.update_idem]
  | timeout on picks now => exact inv.fires on picks now
  | slice picks now =>
    refine inv.passes (fun _ => ⟨rfl, rfl, rfl⟩) (fun _ _ _ => rfl) (fun _ => rfl) ?_ now
    obtain same | picks := picks
    · rw [now.current] at same
      rw [same]
      exact inv.running
    · have picked := inv.picked_ready picks (.inl (by rw [now.thread]))
      rw [now.thread, now.current] at picked
      exact .inl picked

end Inv

end Ecu.Kernel.Sys
