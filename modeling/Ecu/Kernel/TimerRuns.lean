import Ecu.Kernel.TimerCheck

/-!
# Runs of the timers

From the start on, in every order of calls and ticks, with the interrupts on within `rt_timer_start`, and through any
number of turns of the 32-bit tick.
-/

namespace Ecu.Kernel.Clock

open Timers
open Alarms (Before place)

variable {late now : Nat} {callback : Nat → List Op} {deadline : Nat → Nat} {c c' c₁ : Clock} {t u : Nat}

/-- The list follows times that do not wrap around; `now` is some turns ahead, so that a time may be late. -/
structure Inv (late now : Nat) (deadline : Nat → Nat) (c : Clock) : Prop where
  tracks : Tracks late late now deadline c.timers
  far : 2 ^ 32 ≤ now

def Event.isTick : Event → Bool
  | .tick _ => true
  | _ => false

def ticks (events : List Event) : Nat :=
  events.countP Event.isTick

/-- The ticks until a timer times out, with `late` added. -/
def left (late : Nat) (c : Clock) (t : Nat) : Nat :=
  sub32 ((c.timers.timer t).timeoutTick + late) c.timers.tick

theorem Inv.left_eq (inv : Inv late now deadline c) (mem : t ∈ c.timers.list) :
    c.left late t + now = deadline t + late := by
  have recent := inv.tracks.recent t mem
  have near := inv.tracks.near t mem
  rw [left, inv.tracks.timeout t mem, inv.tracks.tick, sub32]
  simp only [halfTick] at near
  omega

/-! ## What an event does -/

theorem step_legal {e : Event} (made : c.step late callback e = some c') :
    c.Legal late e ∧ c.next callback e = some c' := by
  rw [step] at made
  split_ifs at made with legal
  exact ⟨legal, made⟩

/-- A timer that is started, at once or in two parts, is behind all that do not time out later. -/
structure Started (t : Nat) (deadline : Nat → Nat) (c c' : Clock) : Prop where
  list : c'.timers.list = place deadline t (c.timers.list.filter (· ≠ t))
  activated : (c'.timers.timer t).activated = true
  periodic : (c'.timers.timer t).periodic = (c.timers.timer t).periodic
  initTick : (c'.timers.timer t).initTick = (c.timers.timer t).initTick

/-- The event that puts a timer into the list. -/
def Event.Starts (t : Nat) (e : Event) : Prop :=
  e = .op (.start t) ∨ e = .insert t

/-- The ticks until the timer that is started is called. -/
def wait (late : Nat) (c : Clock) : Event → Nat
  | .op (.start t) => max 1 (c.timers.timer t).initTick
  | .insert t => max 1 (c.left late t - late)
  | _ => 0

theorem Inv.start (inv : Inv late now deadline c) {e : Event} (starts : e.Starts t)
    (made : c.step late callback e = some c') :
    ∃ deadline', Inv late now deadline' c' ∧ Started t deadline' c c' ∧
      Keeps (· ≠ t) deadline c.timers deadline' c'.timers ∧ c'.calls = c.calls ∧
      c.wait late e = max 1 (deadline' t - now) := by
  obtain ⟨legal, made⟩ := step_legal made
  have few := inv.tracks.few
  have far := inv.far
  rcases starts with rfl | rfl
  · obtain ⟨s, eq, tracks, keeps, list, timer⟩ := inv.tracks.timerStart le_rfl (Nat.le_succ late) t
    rw [next, show c.timers.op (.start t) = some s from eq] at made
    cases made
    refine ⟨_, ⟨tracks, far⟩, ⟨list, by rw [timer], by rw [timer], by rw [timer]⟩, keeps, rfl, ?_⟩
    rw [wait, Function.update_self, Nat.add_sub_cancel_left]
  · obtain ⟨-, out, small⟩ := legal
    have tick := inv.tracks.tick
    have word := inv.tracks.word t
    have value : c.left late t = sub32 ((c.timers.timer t).timeoutTick + late) c.timers.tick := rfl
    have less : c.left late t < halfTick := small
    have far : 4294967296 ≤ now := far
    -- the time of which the code has the last bits
    have timeout : (c.timers.timer t).timeoutTick = (now + c.left late t - late) % 2 ^ 32 := by
      rw [sub32] at value
      simp only [halfTick] at few
      omega
    simp only [halfTick] at few less
    obtain ⟨tracks, keeps, list, timer⟩ := inv.tracks.startEnd out le_rfl (Nat.le_succ late) timeout (by omega)
      (by simp only [halfTick]; omega)
    cases made
    refine ⟨_, ⟨tracks, inv.far⟩, ⟨?_, by rw [timer], by rw [timer], by rw [timer]⟩, keeps, rfl, ?_⟩
    · rw [show c.timers.list.filter (· ≠ t) = c.timers.list from
        List.filter_eq_self.2 fun u mem => decide_eq_true fun eq => out (eq ▸ mem)]
      exact list
    · rw [wait, Function.update_self]
      omega

/-- Between the ticks nothing is called, and what is not touched stays as and where it is. -/
structure Calm (late now : Nat) (deadline : Nat → Nat) (c : Clock) (e : Event) (deadline' : Nat → Nat) (c' : Clock) :
    Prop where
  inv : Inv late now deadline' c'
  keeps : Keeps (fun u => ¬ e.Touches u) deadline c.timers deadline' c'.timers
  calls : c'.calls = c.calls
  calm : e.isTick = false

/-- A tick calls what is due, and nothing else. -/
structure Ticked (late now : Nat) (callback : Nat → List Op) (deadline : Nat → Nat) (c : Clock) (e : Event)
    (deadline' : Nat → Nat) (called : List Nat) (c' : Clock) : Prop where
  inv : Inv late (now + 1) deadline' c'
  outcome : ∀ u, Apart callback u → Outcome (now + 1) deadline c.timers called deadline' c'.timers u
  turn : ∀ u v, Apart callback u → Apart callback v → Before u v c.timers.list → InTurn u v called c'.timers
  calls : c'.calls = c.calls ++ called
  tick : e.isTick = true

theorem Inv.call (inv : Inv late now deadline c) {e : Event} (calm : e.isTick = false)
    (made : c.step late callback e = some c') : ∃ deadline', Calm late now deadline c e deadline' c' := by
  have made' := made
  obtain ⟨legal, made⟩ := step_legal made
  cases e with
  | op o =>
    obtain ⟨s, deadline', eq, tracks, keeps⟩ := inv.tracks.op le_rfl (Nat.le_succ late) legal.1
    rw [next, eq] at made
    cases made
    exact ⟨deadline', ⟨tracks, inv.far⟩, keeps.mono fun u not eq => not eq.symm, rfl, calm⟩
  | begin t =>
    obtain ⟨s, eq, tracks, keeps, -⟩ := inv.tracks.startBegin t
    rw [next, eq] at made
    cases made
    exact ⟨deadline, ⟨tracks, inv.far⟩, keeps.mono fun u not eq => not eq.symm, rfl, calm⟩
  | insert t =>
    obtain ⟨deadline', inv', -, keeps, calls, -⟩ := inv.start (.inr rfl) made'
    exact ⟨deadline', inv', keeps.mono fun u not eq => not eq.symm, calls, calm⟩
  | tick rounds => cases calm

/-- Once the tick has been counted. -/
theorem Inv.later (inv : Inv late now deadline c) :
    Tracks late (late + 1) (now + 1) deadline { c.timers with tick := (c.timers.tick + 1) % 2 ^ 32 } := by
  have tracks := inv.tracks
  refine ⟨?_, tracks.timeout, tracks.nodup, tracks.sorted, fun u mem => ?_, fun u mem => ?_, tracks.small, tracks.word,
    tracks.few⟩
  · rw [tracks.tick, Nat.mod_add_mod]
  · have := tracks.recent u mem
    omega
  · have := tracks.near u mem
    omega

theorem Inv.tick (small : ∀ t, ∀ o ∈ callback t, Small late o) (inv : Inv late now deadline c) {rounds : Nat}
    (made : c.step late callback (.tick rounds) = some c') :
    ∃ deadline' called, Ticked late now callback deadline c (.tick rounds) deadline' called c' := by
  obtain ⟨-, made⟩ := step_legal made
  obtain ⟨r, ran, eq⟩ := Option.map_eq_some_iff.1 made
  cases eq
  obtain ⟨deadline', tracks', none, outcome, turn⟩ := inv.later.check small ran
  refine ⟨deadline', r.2, ⟨?_, inv.far.trans (Nat.le_succ now)⟩,
    fun u apart => ⟨(outcome u apart).waits, (outcome u apart).due⟩, turn, rfl, rfl⟩
  refine ⟨tracks'.tick, tracks'.timeout, tracks'.nodup, tracks'.sorted, fun u mem => ?_, tracks'.near, tracks'.small,
    tracks'.word, tracks'.few⟩
  have := none u mem
  omega

/-! ## Runs -/

/-- The states that the timers can reach where all times are less than half a turn. -/
def Reached (late : Nat) (callback : Nat → List Op) (c : Clock) : Prop :=
  ∃ time periodic events, (∀ t, time t + late < halfTick) ∧
    Runs.run (step late callback) events (start time periodic) = some c

/-- What the callers are bound to: a bound for how late a timer is started, and times within it. -/
structure Bounded (late : Nat) (callback : Nat → List Op) : Prop where
  few : late + 1 < halfTick
  small : ∀ t, ∀ o ∈ callback t, Small late o

theorem start_inv {time : Nat → Nat} {periodic : Nat → Bool} (few : late + 1 < halfTick)
    (small : ∀ t, time t + late < halfTick) : Inv late (2 ^ 32) (fun _ => 0) (start time periodic) := by
  refine ⟨⟨rfl, ?_, List.nodup_nil, List.Pairwise.nil, ?_, ?_, small, fun _ => Nat.two_pow_pos 32, few⟩, le_rfl⟩
  · exact fun t mem => absurd mem List.not_mem_nil
  · exact fun t mem => absurd mem List.not_mem_nil
  · exact fun t mem => absurd mem List.not_mem_nil

theorem Inv.event (bounded : Bounded late callback) (inv : Inv late now deadline c) {e : Event}
    (made : c.step late callback e = some c') :
    (∃ deadline', Calm late now deadline c e deadline' c') ∨
      ∃ deadline' called, Ticked late now callback deadline c e deadline' called c' := by
  cases tick : e.isTick with
  | false => exact .inl (inv.call tick made)
  | true =>
    cases e with
    | tick rounds => exact .inr (inv.tick bounded.small made)
    | _ => cases tick

theorem Inv.step (bounded : Bounded late callback) (inv : Inv late now deadline c) {e : Event}
    (made : c.step late callback e = some c') : ∃ now' deadline', Inv late now' deadline' c' := by
  obtain ⟨deadline', calm⟩ | ⟨deadline', called, ticked⟩ := inv.event bounded made
  · exact ⟨now, deadline', calm.inv⟩
  · exact ⟨now + 1, deadline', ticked.inv⟩

theorem Reached.inv (bounded : Bounded late callback) (reached : Reached late callback c) :
    ∃ now deadline, Inv late now deadline c := by
  obtain ⟨time, periodic, events, small, ran⟩ := reached
  refine Runs.run_rule (fun c => ∃ now deadline, Inv late now deadline c) (fun inv made => ?_)
    ⟨_, _, start_inv bounded.few small⟩ ran
  obtain ⟨now, deadline, inv⟩ := inv
  exact inv.step bounded made

/-- How often a timer is called within some ticks, if first at this one. -/
def callsBy (x : RtTimer) (first n : Nat) : Nat :=
  if n < first then 0 else if x.periodic then (n - first) / x.initTick + 1 else 1

/-- One tick less is left before the first call. -/
theorem callsBy_sooner (x : RtTimer) {first : Nat} (more : 1 < first) (n : Nat) :
    callsBy x (first - 1) n = callsBy x first (n + 1) := by
  have same : n - (first - 1) = n + 1 - first := by omega
  have early : n < first - 1 ↔ n + 1 < first := by omega
  simp only [callsBy, same, early]

/-- A periodic timer that is called now is called after its time again. -/
theorem callsBy_again {x : RtTimer} (periodic : x.periodic = true) (positive : 0 < x.initTick) (n : Nat) :
    1 + callsBy x x.initTick n = callsBy x 1 (n + 1) := by
  have passed : ¬ n + 1 < 1 := by omega
  rw [callsBy, callsBy, if_neg passed, Nat.add_sub_cancel, if_pos periodic, if_pos periodic]
  split_ifs with early
  · rw [Nat.div_eq_of_lt early]
  · rw [Nat.div_eq_sub_div positive (Nat.le_of_not_lt early), Nat.add_comm 1]

theorem callsBy_congr {x y : RtTimer} (periodic : y.periodic = x.periodic) (initTick : y.initTick = x.initTick)
    (first n : Nat) : callsBy y first n = callsBy x first n := by
  rw [callsBy, callsBy, periodic, initTick]

/-- A timer in the list that is called after some more ticks, unless something is done with it. -/
structure Waits (now : Nat) (deadline : Nat → Nat) (c : Clock) (t n : Nat) : Prop where
  mem : t ∈ c.timers.list
  activated : (c.timers.timer t).activated = true
  positive : (c.timers.timer t).periodic = true → 0 < (c.timers.timer t).initTick
  next : n = max 1 (deadline t - now)

theorem Inv.off_run (bounded : Bounded late callback) (inv : Inv late now deadline c) (apart : Apart callback t)
    (out : t ∉ c.timers.list) {events : List Event} (untouched : ∀ e ∈ events, ¬ e.Touches t)
    (ran : Runs.run (Clock.step late callback) events c = some c') :
    c'.calls.count t = c.calls.count t ∧ t ∉ c'.timers.list := by
  induction events generalizing c now deadline with
  | nil =>
    cases ran
    exact ⟨rfl, out⟩
  | cons e events ih =>
    obtain ⟨next, made, rest⟩ := Option.bind_eq_some_iff.1 ran
    have later : ∀ e ∈ events, ¬ e.Touches t := fun e' mem => untouched e' (List.mem_cons_of_mem e mem)
    obtain ⟨deadline', calm⟩ | ⟨deadline', called, ticked⟩ := inv.event bounded made
    · have keep := untouched e List.mem_cons_self
      rw [← calm.calls]
      exact ih calm.inv (fun mem => out ((calm.keeps.mem t keep).1 mem)) later rest
    · obtain ⟨notCalled, -, mem, -⟩ := (ticked.outcome t apart).waits fun mem => absurd mem out
      obtain ⟨count, out'⟩ := ih ticked.inv (fun now => out (mem.1 now)) later rest
      refine ⟨?_, out'⟩
      rw [count, ticked.calls, List.count_append, List.count_eq_zero_of_not_mem notCalled, Nat.add_zero]

theorem Inv.waits_run (bounded : Bounded late callback) (inv : Inv late now deadline c) (apart : Apart callback t) {n : Nat}
    (waits : Waits now deadline c t n) {events : List Event} (untouched : ∀ e ∈ events, ¬ e.Touches t)
    (ran : Runs.run (Clock.step late callback) events c = some c') :
    c'.calls.count t = c.calls.count t + callsBy (c.timers.timer t) n (ticks events) ∧
      (t ∈ c'.timers.list ↔ ticks events < n ∨ (c.timers.timer t).periodic = true) := by
  induction events generalizing c now deadline n with
  | nil =>
    cases ran
    have first : 0 < n := by
      rw [waits.next]
      omega
    refine ⟨?_, iff_of_true waits.mem (.inl first)⟩
    rw [callsBy, show ticks [] = 0 from rfl, if_pos first, Nat.add_zero]
  | cons e events ih =>
    obtain ⟨next, made, rest⟩ := Option.bind_eq_some_iff.1 ran
    have later : ∀ e ∈ events, ¬ e.Touches t := fun e' mem => untouched e' (List.mem_cons_of_mem e mem)
    obtain ⟨deadline', calm⟩ | ⟨deadline', called, ticked⟩ := inv.event bounded made
    · have keep := untouched e List.mem_cons_self
      have timer := calm.keeps.timer t keep
      have now : ticks (e :: events) = ticks events := by
        rw [ticks, List.countP_cons_of_neg (by simp [calm.calm])]
        rfl
      rw [now, ← calm.calls, ← timer]
      refine ih calm.inv ⟨(calm.keeps.mem t keep).2 waits.mem, ?_, ?_, ?_⟩ later rest
      · rw [timer]
        exact waits.activated
      · rw [timer]
        exact waits.positive
      · rw [calm.keeps.deadline t keep]
        exact waits.next
    · have more : ticks (e :: events) = ticks events + 1 := List.countP_cons_of_pos ticked.tick
      have next' := waits.next
      rw [more]
      by_cases due : deadline t ≤ now + 1
      · -- this is the tick at which it is called
        have one : n = 1 := by omega
        subst one
        have positive : (c.timers.timer t).again = true → 0 < (c.timers.timer t).initTick := fun again =>
          waits.positive ((Bool.and_eq_true _ _).mp again).1
        obtain ⟨once, self⟩ := (ticked.outcome t apart).due waits.mem due positive
        have again : (c.timers.timer t).again = (c.timers.timer t).periodic := by
          rw [RtTimer.again, waits.activated, Bool.and_true]
        have timer := self.timer
        have mem := self.mem
        have deadline := self.deadline
        rw [RtTimer.called] at timer
        rw [again] at timer mem deadline
        cases periodic : (c.timers.timer t).periodic with
        | false =>
          obtain ⟨count, out⟩ := ticked.inv.off_run bounded apart (by rw [mem, periodic]; decide) later rest
          refine ⟨?_, iff_of_false out (by simp)⟩
          rw [count, ticked.calls, List.count_append, once, callsBy, if_neg (by omega), periodic]
          rfl
        | true =>
          rw [periodic, if_pos rfl] at timer
          have less := waits.positive periodic
          have waits' : Waits (now + 1) deadline' next t (c.timers.timer t).initTick := by
            refine ⟨mem.2 periodic, ?_, fun _ => ?_, ?_⟩
            · rw [timer]
              exact waits.activated
            · rw [timer]
              exact less
            · rw [deadline periodic]
              omega
          obtain ⟨count, there⟩ := ih ticked.inv waits' later rest
          have same : callsBy (next.timers.timer t) (c.timers.timer t).initTick (ticks events) =
              callsBy (c.timers.timer t) (c.timers.timer t).initTick (ticks events) :=
            callsBy_congr (by rw [timer, periodic]) (by rw [timer]) ..
          rw [timer] at there
          refine ⟨?_, iff_of_true (there.2 (.inr rfl)) (.inr rfl)⟩
          rw [count, ticked.calls, List.count_append, once, Nat.add_assoc, same, callsBy_again periodic less]
      · obtain ⟨notCalled, timer, mem, deadline⟩ := (ticked.outcome t apart).waits fun _ => by omega
        have waits' : Waits (now + 1) deadline' next t (n - 1) := by
          refine ⟨mem.2 waits.mem, ?_, ?_, ?_⟩
          · rw [timer]
            exact waits.activated
          · rw [timer]
            exact waits.positive
          · rw [deadline]
            omega
        obtain ⟨count, there⟩ := ih ticked.inv waits' later rest
        rw [timer] at count there
        constructor
        · rw [count, ticked.calls, List.count_append, List.count_eq_zero_of_not_mem notCalled, Nat.add_zero]
          rw [callsBy_sooner _ (by omega)]
        · exact there.trans (or_congr_left (by omega))

theorem Started.waits (started : Started t deadline c c₁)
    (positive : (c.timers.timer t).periodic = true → 0 < (c.timers.timer t).initTick) :
    Waits now deadline c₁ t (max 1 (deadline t - now)) := by
  refine ⟨?_, started.activated, ?_, rfl⟩
  · rw [started.list]
    exact Alarms.mem_place.2 (.inl rfl)
  · rw [started.periodic, started.initTick]
    exact positive

/-- However the other timers run, one that is started and then left alone is called at the tick at which its time is
over, or at the next one where that is past, and a periodic one after each of its times again. -/
theorem started_called (bounded : Bounded late callback) (reached : Reached late callback c) (apart : Apart callback t)
    {e : Event} (starts : e.Starts t) (made : c.step late callback e = some c₁)
    (positive : (c.timers.timer t).periodic = true → 0 < (c.timers.timer t).initTick) {events : List Event}
    (untouched : ∀ e ∈ events, ¬ e.Touches t) (ran : Runs.run (Clock.step late callback) events c₁ = some c') :
    c'.calls.count t = c.calls.count t + callsBy (c.timers.timer t) (c.wait late e) (ticks events) ∧
      (t ∈ c'.timers.list ↔ ticks events < c.wait late e ∨ (c.timers.timer t).periodic = true) := by
  obtain ⟨now, deadline, inv⟩ := reached.inv bounded
  obtain ⟨deadline', inv', started, -, calls, wait⟩ := inv.start starts made
  obtain ⟨count, there⟩ := inv'.waits_run bounded apart (started.waits positive) untouched ran
  rw [← wait, started.periodic] at there
  refine ⟨?_, there⟩
  rw [count, calls, ← wait, callsBy_congr started.periodic started.initTick]

/-- A periodic timer of three ticks over seven of them. -/
theorem started_called_seven : ∃ c', Runs.run (Clock.step 0 fun _ => [])
      [.op (.start 1), .tick 2, .tick 2, .tick 2, .tick 2, .tick 2, .tick 2, .tick 2]
      (start (fun _ => 3) fun _ => true) = some c' ∧ c'.calls.count 1 = 2 := by
  have bounded : Bounded 0 fun _ => [] := ⟨by decide, fun _ o mem => absurd mem List.not_mem_nil⟩
  have reached : Reached 0 (fun _ => []) (start (fun _ => 3) fun _ => true) :=
    ⟨fun _ => 3, fun _ => true, [], fun _ => (by decide : 3 + 0 < halfTick), rfl⟩
  have ends : (Runs.run (Clock.step 0 fun _ => [])
      [.op (.start 1), .tick 2, .tick 2, .tick 2, .tick 2, .tick 2, .tick 2, .tick 2]
      (start (fun _ => 3) fun _ => true)).isSome = true := by
    decide +kernel
  obtain ⟨c', ran⟩ := Option.isSome_iff_exists.1 ends
  obtain ⟨c₁, made, rest⟩ := Option.bind_eq_some_iff.1 ran
  obtain ⟨count, -⟩ := started_called (t := 1) bounded reached (fun _ o mem => absurd mem List.not_mem_nil) (.inl rfl) made
    (fun _ => by decide) (by simp [Event.Touches]) rest
  exact ⟨c', ran, count⟩

/-! ## Turns -/

theorem Inv.calls_run (bounded : Bounded late callback) (inv : Inv late now deadline c) {events : List Event}
    (ran : Runs.run (Clock.step late callback) events c = some c') : ∃ new, c'.calls = c.calls ++ new := by
  induction events generalizing c now deadline with
  | nil =>
    cases ran
    exact ⟨[], (List.append_nil _).symm⟩
  | cons e events ih =>
    obtain ⟨next, made, rest⟩ := Option.bind_eq_some_iff.1 ran
    obtain ⟨deadline', calm⟩ | ⟨deadline', called, ticked⟩ := inv.event bounded made
    · obtain ⟨new, eq⟩ := ih calm.inv rest
      exact ⟨new, by rw [eq, calm.calls]⟩
    · obtain ⟨new, eq⟩ := ih ticked.inv rest
      exact ⟨called ++ new, by rw [eq, ticked.calls, List.append_assoc]⟩

theorem Inv.turn_run (bounded : Bounded late callback) (inv : Inv late now deadline c) (apart : Apart callback t)
    (apart' : Apart callback u) (before : Before t u c.timers.list) {events : List Event}
    (untouched : ∀ e ∈ events, ¬ e.Touches t ∧ ¬ e.Touches u)
    (ran : Runs.run (Clock.step late callback) events c = some c') :
    ∃ new, c'.calls = c.calls ++ new ∧ ∀ earlier later, new = earlier ++ u :: later → t ∈ earlier := by
  induction events generalizing c now deadline with
  | nil =>
    cases ran
    refine ⟨[], (List.append_nil _).symm, fun earlier later eq => ?_⟩
    cases earlier with
    | nil => cases eq
    | cons _ _ => cases eq
  | cons e events ih =>
    obtain ⟨next, made, rest⟩ := Option.bind_eq_some_iff.1 ran
    have later : ∀ e ∈ events, ¬ e.Touches t ∧ ¬ e.Touches u := fun e' mem => untouched e' (List.mem_cons_of_mem e mem)
    obtain ⟨deadline', calm⟩ | ⟨deadline', called, ticked⟩ := inv.event bounded made
    · obtain ⟨keep, keep'⟩ := untouched e List.mem_cons_self
      obtain ⟨new, eq, first⟩ := ih calm.inv (calm.keeps.order t u keep keep' before) later rest
      exact ⟨new, by rw [eq, calm.calls], first⟩
    · have inTurn := ticked.turn t u apart apart' before
      by_cases mem : t ∈ called
      · obtain ⟨new, eq⟩ := ticked.inv.calls_run bounded rest
        refine ⟨called ++ new, by rw [eq, ticked.calls, List.append_assoc], fun earlier later split => ?_⟩
        rcases List.append_eq_append_iff.1 split with ⟨between, rfl, -⟩ | ⟨between, parts, tail⟩
        · exact List.mem_append_left _ mem
        · cases between with
          | nil =>
            rw [List.append_nil] at parts
            exact parts ▸ mem
          | cons _ between =>
            cases tail
            exact inTurn.first earlier between parts
      · obtain ⟨new, eq, first⟩ := ih ticked.inv (inTurn.before mem) later rest
        refine ⟨called ++ new, by rw [eq, ticked.calls, List.append_assoc], fun earlier later split => ?_⟩
        rcases List.append_eq_append_iff.1 split with ⟨between, rfl, tail⟩ | ⟨between, parts, tail⟩
        · exact List.mem_append_right _ (first between later tail)
        · cases between with
          | nil => exact absurd (first [] later tail.symm) List.not_mem_nil
          | cons _ between =>
            cases tail
            exact inTurn.first earlier between parts

/-- A timer that is started is not called before one that times out no later and was there before. -/
theorem called_in_turn (bounded : Bounded late callback) (reached : Reached late callback c) (mem : t ∈ c.timers.list)
    (ne : t ≠ u) (apart : Apart callback t) (apart' : Apart callback u) {e : Event} (starts : e.Starts u)
    (made : c.step late callback e = some c₁) (order : c₁.left late t ≤ c₁.left late u) {events : List Event}
    (untouched : ∀ e ∈ events, ¬ e.Touches t ∧ ¬ e.Touches u)
    (ran : Runs.run (Clock.step late callback) events c₁ = some c') :
    ∃ new, c'.calls = c.calls ++ new ∧ ∀ earlier later, new = earlier ++ u :: later → t ∈ earlier := by
  obtain ⟨now, deadline, inv⟩ := reached.inv bounded
  obtain ⟨deadline', inv', started, keeps, calls, -⟩ := inv.start starts made
  have here : u ∈ c₁.timers.list := by
    rw [started.list]
    exact Alarms.mem_place.2 (.inl rfl)
  have there : t ∈ c₁.timers.list := (keeps.mem t ne).2 mem
  have left := inv'.left_eq there
  have left' := inv'.left_eq here
  have before : Before t u c₁.timers.list := by
    rw [started.list]
    refine Alarms.place_behind (List.mem_filter.2 ⟨mem, decide_eq_true ne⟩) ?_ (by omega)
    have sorted : Alarms.Sorted deadline (c.timers.list.filter (· ≠ u)) := inv.tracks.sorted.filter _
    exact sorted.congr fun v mem => keeps.deadline v (of_decide_eq_true (List.mem_filter.1 mem).2)
  rw [← calls]
  exact inv'.turn_run bounded apart apart' before untouched ran

/-- Two timers of the same time, over the tick at which both are called. -/
theorem called_in_turn_two : ∃ c c' : Clock, ∃ new, c.timers.list = [1] ∧ c'.calls = [1, 2] ∧
    c'.calls = c.calls ++ new ∧ ∀ earlier later, new = earlier ++ 2 :: later → 1 ∈ earlier := by
  have bounded : Bounded 0 fun _ => [] := ⟨by decide, fun _ o mem => absurd mem List.not_mem_nil⟩
  have apart (v : Nat) : Apart (fun _ => []) v := fun _ o mem => absurd mem List.not_mem_nil
  have seen : ((Runs.run (Clock.step 0 fun _ => []) [.op (.start 1)] (start (fun _ => 1) fun _ => false)).bind fun c =>
      (c.step 0 (fun _ => []) (.op (.start 2))).bind fun c₁ => (Runs.run (Clock.step 0 fun _ => []) [.tick 3] c₁).map
        fun c' => (c.timers.list, c₁.left 0 1, c₁.left 0 2, c'.calls)) = some ([1], 1, 1, [1, 2]) := by
    decide +kernel
  obtain ⟨c, ran, seen⟩ := Option.bind_eq_some_iff.1 seen
  obtain ⟨c₁, made, seen⟩ := Option.bind_eq_some_iff.1 seen
  obtain ⟨c', rest, seen⟩ := Option.map_eq_some_iff.1 seen
  simp only [Prod.mk.injEq] at seen
  obtain ⟨list, left, left', calls⟩ := seen
  have reached : Reached 0 (fun _ => []) c := ⟨_, _, _, fun _ => (by decide : 1 + 0 < halfTick), ran⟩
  have mem : 1 ∈ c.timers.list := by
    rw [list]
    exact List.mem_singleton_self 1
  obtain ⟨new, eq, first⟩ := called_in_turn (t := 1) (u := 2) bounded reached mem (by decide) (apart 1) (apart 2)
    (.inl rfl) made (by rw [left, left']) (by simp [Event.Touches]) rest
  exact ⟨c, c', new, list, calls, eq, first⟩

/-! ## The end of a tick -/

/-- Where the timeout functions leave the timers alone a tick ends unless a timer that is due is periodic, on and set to
no time. -/
theorem tick_ends_iff (few : late + 1 < halfTick) (reached : Reached late (fun _ => []) c) :
    (∃ rounds c', c.step late (fun _ => []) (.tick rounds) = some c') ↔
      ∀ t ∈ c.timers.list, c.left late t ≤ late + 1 → (c.timers.timer t).again = true →
        0 < (c.timers.timer t).initTick := by
  obtain ⟨now, deadline, inv⟩ := reached.inv ⟨few, fun _ o mem => absurd mem List.not_mem_nil⟩
  have due_iff (t : Nat) (mem : t ∈ c.timers.list) : c.left late t ≤ late + 1 ↔ deadline t ≤ now + 1 := by
    have left := inv.left_eq mem
    omega
  constructor
  · rintro ⟨rounds, c', made⟩ t mem soon again
    refine Nat.pos_of_ne_zero fun zero => ?_
    obtain ⟨r, ran, -⟩ := Option.map_eq_some_iff.1 (step_legal made).2
    have stuck : c.timers.tickIncrease (fun _ => []) rounds = none :=
      inv.later.check_loops mem ((due_iff t mem).1 soon) again zero
    rw [stuck] at ran
    cases ran
  · intro positive
    obtain ⟨r, ends⟩ := inv.later.check_ends (D := c.timers.list.toFinset)
      (fun u mem due => positive u mem ((due_iff u mem).2 due)) (fun u mem _ => List.mem_toFinset.2 mem) le_rfl
    refine ⟨c.timers.list.toFinset.card + 1, { c with timers := r.1, calls := c.calls ++ r.2 }, ?_⟩
    rw [Clock.step, if_pos (show c.Legal late (.tick _) from trivial), next, tickIncrease, ends]
    rfl

/-- A periodic timer that is set to no time, once it has been started. -/
theorem tick_ends_iff_zero : ∃ c : Clock, c.timers.list = [1] ∧
    ¬ ∃ rounds c', c.step 0 (fun _ => []) (.tick rounds) = some c' := by
  have seen : (Runs.run (Clock.step 0 fun _ => []) [.op (.start 1)] (start (fun _ => 0) fun _ => true)).map
      (fun c => (c.timers.list, c.left 0 1, (c.timers.timer 1).again, (c.timers.timer 1).initTick)) =
        some ([1], 0, true, 0) := by
    decide +kernel
  obtain ⟨c, ran, seen⟩ := Option.map_eq_some_iff.1 seen
  simp only [Prod.mk.injEq] at seen
  obtain ⟨list, left, again, zero⟩ := seen
  have reached : Reached 0 (fun _ => []) c := ⟨_, _, _, fun _ => (by decide : 0 + 0 < halfTick), ran⟩
  refine ⟨c, list, fun ends => ?_⟩
  have positive := (tick_ends_iff (by decide) reached).1 ends 1 (by rw [list]; exact List.mem_singleton_self 1)
    (by omega) again
  omega

end Ecu.Kernel.Clock
