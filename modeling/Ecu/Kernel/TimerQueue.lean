import Ecu.Lib.Alarms
import Ecu.Kernel.Timer

/-!
# The list of the timers

The list is a queue of alarms at times that do not wrap around (`Tracks`): the ticks since the start, of which the code
keeps the last 32 bits. What a function does not touch it leaves as and where it is (`Keeps`).
-/

namespace Ecu.Kernel.Timers

open Alarms (Sorted Before place gap)

theorem sub32_gap (a b : Nat) : sub32 a b = gap (2 ^ 32) a b :=
  rfl

theorem sub32_lt_iff {a b : Nat} (after : a < b + halfTick) (before : b ≤ a + halfTick) :
    sub32 (a % 2 ^ 32) (b % 2 ^ 32) < halfTick ↔ b ≤ a := by
  rw [sub32_gap]
  refine Alarms.gap_lt_iff after ?_ (by decide)
  simp only [halfTick] at *
  omega

theorem sub32_eq_zero_iff {a b : Nat} (after : a < b + halfTick) (before : b ≤ a + halfTick) :
    sub32 (a % 2 ^ 32) (b % 2 ^ 32) = 0 ↔ a = b := by
  rw [sub32_gap]
  simp only [halfTick] at *
  rcases Nat.lt_or_ge a b with lt | le
  · rw [Alarms.gap_of_lt lt (by omega)]
    omega
  · rw [Alarms.gap_of_le le (by omega)]
    omega

/-- The list is sorted by times of which the code keeps the last bits, none of them further from now than differences
can tell. A timer may be late by up to `late` ticks when it is put into the list, and by `old` in it. -/
structure Tracks (late old now : Nat) (deadline : Nat → Nat) (s : Timers) : Prop where
  tick : s.tick = now % 2 ^ 32
  timeout : ∀ t ∈ s.list, (s.timer t).timeoutTick = deadline t % 2 ^ 32
  nodup : s.list.Nodup
  sorted : Sorted deadline s.list
  recent : ∀ t ∈ s.list, now ≤ deadline t + old
  near : ∀ t ∈ s.list, deadline t + late < now + halfTick
  small : ∀ t, (s.timer t).initTick + late < halfTick
  word : ∀ t, (s.timer t).timeoutTick < 2 ^ 32
  few : late + 1 < halfTick

/-- These timers are as and where they were. -/
structure Keeps (K : Nat → Prop) (deadline : Nat → Nat) (s : Timers) (deadline' : Nat → Nat) (s' : Timers) : Prop where
  timer : ∀ u, K u → s'.timer u = s.timer u
  deadline : ∀ u, K u → deadline' u = deadline u
  mem : ∀ u, K u → (u ∈ s'.list ↔ u ∈ s.list)
  order : ∀ u v, K u → K v → Before u v s.list → Before u v s'.list

section Queue

variable {late old now : Nat} {deadline deadline' deadline'' : Nat → Nat} {s s' s'' : Timers} {K : Nat → Prop}

theorem Keeps.refl (K : Nat → Prop) (deadline : Nat → Nat) (s : Timers) : Keeps K deadline s deadline s :=
  ⟨fun _ _ => rfl, fun _ _ => rfl, fun _ _ => Iff.rfl, fun _ _ _ _ before => before⟩

theorem Keeps.trans (first : Keeps K deadline s deadline' s') (second : Keeps K deadline' s' deadline'' s'') :
    Keeps K deadline s deadline'' s'' where
  timer u keep := (second.timer u keep).trans (first.timer u keep)
  deadline u keep := (second.deadline u keep).trans (first.deadline u keep)
  mem u keep := (second.mem u keep).trans (first.mem u keep)
  order u v keep keep' before := second.order u v keep keep' (first.order u v keep keep' before)

theorem Keeps.mono {K' : Nat → Prop} (keeps : Keeps K deadline s deadline' s') (le : ∀ u, K' u → K u) :
    Keeps K' deadline s deadline' s' where
  timer u keep := keeps.timer u (le u keep)
  deadline u keep := keeps.deadline u (le u keep)
  mem u keep := keeps.mem u (le u keep)
  order u v keep keep' := keeps.order u v (le u keep) (le v keep')

/-! ## Out of the list and into it -/

theorem before_filter {u v t : Nat} {l : List Nat} (before : Before u v l) (ne : u ≠ t) (ne' : v ≠ t) :
    Before u v (l.filter (· ≠ t)) := by
  have sub := before.filter fun x => decide (x ≠ t)
  simpa [Before, ne, ne'] using sub

theorem Tracks.remove (tracks : Tracks late old now deadline s) (t : Nat) :
    Tracks late old now deadline (s.remove t) ∧ Keeps (· ≠ t) deadline s deadline (s.remove t) ∧
      t ∉ (s.remove t).list := by
  have mem {u : Nat} (mem : u ∈ (s.remove t).list) : u ∈ s.list := List.mem_of_mem_filter mem
  refine ⟨⟨tracks.tick, fun u now => tracks.timeout u (mem now), tracks.nodup.filter _, tracks.sorted.filter _,
    fun u now => tracks.recent u (mem now), fun u now => tracks.near u (mem now), tracks.small,
    tracks.word, tracks.few⟩, ?_, ?_⟩
  · refine ⟨fun _ _ => rfl, fun _ _ => rfl, fun u ne => ?_, fun u v ne ne' before => before_filter before ne ne'⟩
    simp [Timers.remove, ne]
  · simp [Timers.remove]

/-- The flags and the time of one timer. -/
theorem Tracks.setTimer (tracks : Tracks late old now deadline s) {t : Nat} {x : RtTimer}
    (small : x.initTick + late < halfTick) (word : x.timeoutTick < 2 ^ 32)
    (same : t ∈ s.list → x.timeoutTick = (s.timer t).timeoutTick) :
    Tracks late old now deadline (s.setTimer t x) ∧ Keeps (· ≠ t) deadline s deadline (s.setTimer t x) := by
  refine ⟨⟨tracks.tick, fun u mem => ?_, tracks.nodup, tracks.sorted, tracks.recent, tracks.near, fun u => ?_,
    fun u => ?_, tracks.few⟩, ⟨fun u ne => Function.update_of_ne ne .., fun _ _ => rfl, fun _ _ => Iff.rfl, fun _ _ _ _ before => before⟩⟩
  · by_cases eq : u = t
    · subst eq
      rw [setTimer_self, same mem]
      exact tracks.timeout u mem
    · rw [setTimer_of_ne s eq]
      exact tracks.timeout u mem
  · by_cases eq : u = t
    · rw [eq, setTimer_self]
      exact small
    · rw [setTimer_of_ne s eq]
      exact tracks.small u
  · by_cases eq : u = t
    · rw [eq, setTimer_self]
      exact word
    · rw [setTimer_of_ne s eq]
      exact tracks.word u

theorem Tracks.startBegin (tracks : Tracks late old now deadline s) (t : Nat) :
    ∃ s', s.startBegin t = some s' ∧ Tracks late old now deadline s' ∧ Keeps (· ≠ t) deadline s deadline s' ∧
      t ∉ s'.list ∧
      s'.timer t = { s.timer t with timeoutTick := (now + (s.timer t).initTick) % 2 ^ 32, activated := false } := by
  have small := tracks.small t
  obtain ⟨tracks₁, keeps₁, out₁⟩ := tracks.remove t
  obtain ⟨tracks₂, keeps₂⟩ := tracks₁.setTimer (t := t) (x := { s.timer t with activated := false }) small
    (tracks.word t) fun mem => absurd mem out₁
  obtain ⟨tracks₃, keeps₃⟩ := tracks₂.setTimer (t := t)
    (x := { s.timer t with timeoutTick := (s.tick + (s.timer t).initTick) % 2 ^ 32, activated := false }) small
    (Nat.mod_lt _ (by decide)) fun mem => absurd mem out₁
  refine ⟨_, ?_, tracks₃, (keeps₁.trans keeps₂).trans keeps₃, out₁, ?_⟩
  · have less : (s.timer t).initTick < halfTick := by omega
    simp [Timers.startBegin, Timers.setTimer, Timers.remove, less]
  · rw [setTimer_self, tracks.tick, Nat.mod_add_mod]

/-- The loop finds the place of the new timer. -/
theorem insertRow_place {t d : Nat} {row : List Nat} (self : (s.timer t).timeoutTick = d % 2 ^ 32)
    (timeout : ∀ u ∈ row, (s.timer u).timeoutTick = deadline u % 2 ^ 32)
    (after : ∀ u ∈ row, deadline u < d + halfTick) (before : ∀ u ∈ row, d ≤ deadline u + halfTick) (out : t ∉ row) :
    s.insertRow t row = place (Function.update deadline t d) t row := by
  induction row with
  | nil => rfl
  | cons u row ih =>
    have here : u ∈ u :: row := List.mem_cons_self
    have ne : u ≠ t := fun eq => out (eq ▸ here)
    have later := ih (fun v mem => timeout v (List.mem_cons_of_mem u mem)) (fun v mem => after v (List.mem_cons_of_mem u mem))
      (fun v mem => before v (List.mem_cons_of_mem u mem)) fun mem => out (List.mem_cons_of_mem u mem)
    rw [insertRow, place, later, self, timeout u here, Function.update_self, Function.update_of_ne ne]
    simp only [sub32_lt_iff (after u here) (before u here), sub32_eq_zero_iff (after u here) (before u here)]
    split_ifs <;> first | rfl | omega

theorem Tracks.startEnd (tracks : Tracks late old now deadline s) {t d : Nat} (out : t ∉ s.list) (le : late ≤ old)
    (bound : old ≤ late + 1) (timeout : (s.timer t).timeoutTick = d % 2 ^ 32) (recent : now ≤ d + late)
    (near : d + late < now + halfTick) :
    Tracks late old now (Function.update deadline t d) (s.startEnd t) ∧
      Keeps (· ≠ t) deadline s (Function.update deadline t d) (s.startEnd t) ∧
      (s.startEnd t).list = place (Function.update deadline t d) t s.list ∧
      (s.startEnd t).timer t = { s.timer t with activated := true } := by
  have placed : s.insertRow t s.list = place (Function.update deadline t d) t s.list := by
    refine insertRow_place timeout tracks.timeout (fun u mem => ?_) (fun u mem => ?_) out
    · have := tracks.near u mem
      omega
    · have := tracks.recent u mem
      omega
  have other {u : Nat} (mem : u ∈ s.list) : Function.update deadline t d u = deadline u :=
    Function.update_of_ne (fun eq : u = t => out (eq ▸ mem)) ..
  have list : (s.startEnd t).list = place (Function.update deadline t d) t s.list := placed
  have timer {u : Nat} (ne : u ≠ t) : (s.startEnd t).timer u = s.timer u := Function.update_of_ne ne ..
  have self : (s.startEnd t).timer t = { s.timer t with activated := true } := Function.update_self ..
  -- what is in the list now is the new timer or was there before
  have split (P : Nat → Prop) (here : P t) (there : ∀ u ∈ s.list, u ≠ t → P u) (u : Nat)
      (mem : u ∈ (s.startEnd t).list) : P u := by
    rw [list, Alarms.mem_place] at mem
    by_cases eq : u = t
    · exact eq ▸ here
    · exact there u (mem.resolve_left eq) eq
  refine ⟨⟨tracks.tick, split _ ?_ fun u mem ne => ?_, ?_, ?_, split _ ?_ fun u mem ne => ?_,
    split _ ?_ fun u mem ne => ?_, fun u => ?_, fun u => ?_,
    tracks.few⟩, ⟨fun u ne => timer ne, fun u ne => Function.update_of_ne ne ..,
    fun u ne => ?_, fun u v ne ne' before => ?_⟩, list, self⟩
  · rw [self, Function.update_self]
    exact timeout
  · rw [timer ne, other mem]
    exact tracks.timeout u mem
  · rw [list]
    exact Alarms.place_nodup tracks.nodup out
  · rw [list]
    exact Alarms.place_sorted (tracks.sorted.congr fun u mem => other mem)
  · rw [Function.update_self]
    omega
  · rw [other mem]
    exact tracks.recent u mem
  · rw [Function.update_self]
    exact near
  · rw [other mem]
    exact tracks.near u mem
  · by_cases eq : u = t
    · rw [eq, self]
      exact tracks.small t
    · rw [timer eq]
      exact tracks.small u
  · by_cases eq : u = t
    · rw [eq, self]
      exact tracks.word t
    · rw [timer eq]
      exact tracks.word u
  · rw [list, Alarms.mem_place]
    simp [ne]
  · rw [list]
    exact List.Sublist.trans before (Alarms.place_sublist ..)

/-! ## The functions -/

/-- A timer that is started is behind all that are not later, and times out after its time. -/
theorem Tracks.timerStart (tracks : Tracks late old now deadline s) (le : late ≤ old) (bound : old ≤ late + 1) (t : Nat) :
    ∃ s', s.timerStart t = some s' ∧
      Tracks late old now (Function.update deadline t (now + (s.timer t).initTick)) s' ∧
      Keeps (· ≠ t) deadline s (Function.update deadline t (now + (s.timer t).initTick)) s' ∧
      s'.list = place (Function.update deadline t (now + (s.timer t).initTick)) t (s.list.filter (· ≠ t)) ∧
      s'.timer t =
        { s.timer t with timeoutTick := (now + (s.timer t).initTick) % 2 ^ 32, activated := true } := by
  have small := tracks.small t
  obtain ⟨s₁, made, tracks₁, keeps₁, out, timer₁⟩ := tracks.startBegin t
  have list₁ : s₁.list = s.list.filter (· ≠ t) := by
    unfold Timers.startBegin at made
    dsimp only at made
    split_ifs at made
    cases made
    rfl
  obtain ⟨tracks₂, keeps₂, list₂, timer₂⟩ := tracks₁.startEnd (d := now + (s.timer t).initTick) out le bound
    (by rw [timer₁]) (by omega) (by omega)
  refine ⟨_, by rw [Timers.timerStart, made]; rfl, tracks₂, keeps₁.trans keeps₂, ?_, ?_⟩
  · rw [list₂, list₁]
  · rw [timer₂, timer₁]

theorem Tracks.timerStop (tracks : Tracks late old now deadline s) (t : Nat) :
    Tracks late old now deadline (s.timerStop t) ∧ Keeps (· ≠ t) deadline s deadline (s.timerStop t) := by
  unfold Timers.timerStop
  split_ifs with off
  · exact ⟨tracks, .refl ..⟩
  · obtain ⟨tracks₁, keeps₁, out⟩ := tracks.remove t
    obtain ⟨tracks₂, keeps₂⟩ := tracks₁.setTimer (t := t) (x := { s.timer t with activated := false }) (tracks.small t)
      (tracks.word t) fun mem => absurd mem out
    exact ⟨tracks₂, keeps₁.trans keeps₂⟩

/-- What is done with one timer leaves the others alone. -/
theorem Tracks.op (tracks : Tracks late old now deadline s) (le : late ≤ old) (bound : old ≤ late + 1) {o : Op}
    (small : Clock.Small late o) :
    ∃ s' deadline', s.op o = some s' ∧ Tracks late old now deadline' s' ∧
      Keeps (· ≠ o.timer) deadline s deadline' s' := by
  cases o with
  | start t =>
    obtain ⟨s', made, tracks', keeps, -⟩ := tracks.timerStart le bound t
    exact ⟨s', _, made, tracks', keeps⟩
  | stop t =>
    obtain ⟨tracks', keeps⟩ := tracks.timerStop t
    exact ⟨_, deadline, rfl, tracks', keeps⟩
  | detach t =>
    obtain ⟨tracks', keeps, -⟩ := tracks.remove t
    exact ⟨_, deadline, rfl, tracks', keeps⟩
  | setTime t time =>
    obtain ⟨tracks', keeps⟩ := tracks.setTimer (t := t) (x := { s.timer t with initTick := time }) small (tracks.word t)
      fun _ => rfl
    exact ⟨_, deadline, rfl, tracks', keeps⟩
  | setOneshot t =>
    obtain ⟨tracks', keeps⟩ := tracks.setTimer (t := t) (x := { s.timer t with periodic := false }) (tracks.small t)
      (tracks.word t) fun _ => rfl
    exact ⟨_, deadline, rfl, tracks', keeps⟩
  | setPeriodic t =>
    obtain ⟨tracks', keeps⟩ := tracks.setTimer (t := t) (x := { s.timer t with periodic := true }) (tracks.small t)
      (tracks.word t) fun _ => rfl
    exact ⟨_, deadline, rfl, tracks', keeps⟩

theorem Tracks.ops (tracks : Tracks late old now deadline s) (le : late ≤ old) (bound : old ≤ late + 1) {os : List Op}
    (small : ∀ o ∈ os, Clock.Small late o) (apart : ∀ o ∈ os, ¬ K o.timer) :
    ∃ s' deadline', ops os s = some s' ∧ Tracks late old now deadline' s' ∧ Keeps K deadline s deadline' s' := by
  induction os generalizing s deadline with
  | nil => exact ⟨s, deadline, rfl, tracks, .refl ..⟩
  | cons o os ih =>
    have here : o ∈ o :: os := List.mem_cons_self
    obtain ⟨s₁, deadline₁, made₁, tracks₁, keeps₁⟩ := tracks.op le bound (small o here)
    obtain ⟨s₂, deadline₂, made₂, tracks₂, keeps₂⟩ := ih tracks₁ (fun o' mem => small o' (List.mem_cons_of_mem o mem))
      fun o' mem => apart o' (List.mem_cons_of_mem o mem)
    refine ⟨s₂, deadline₂, by rw [Timers.ops, made₁]; exact made₂, tracks₂, Keeps.trans (keeps₁.mono ?_) keeps₂⟩
    intro u keep eq
    exact apart o here (eq ▸ keep)

end Queue

end Ecu.Kernel.Timers
