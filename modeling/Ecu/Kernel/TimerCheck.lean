import Ecu.Kernel.TimerQueue

/-!
# The timers that are due

One round of `rt_timer_check` calls the head of the list and may start it again. All rounds together call every timer
that is due, each once and in the order of the list, and leave none that is.
-/

namespace Ecu.Kernel

/-- Whether the timer is started again after its function has been called. -/
def RtTimer.again (x : RtTimer) : Bool :=
  x.periodic && x.activated

/-- The timer after its function has been called. -/
def RtTimer.called (x : RtTimer) (now : Nat) : RtTimer :=
  if x.again then { x with timeoutTick := (now + x.initTick) % 2 ^ 32 } else { x with activated := false }

namespace Timers

open Alarms (Sorted Before place gap)

variable {late now rounds : Nat} {deadline deadline' : Nat → Nat} {s s' : Timers} {callback : Nat → List Op}
  {called : List Nat} {t u v : Nat}

/-- No timeout function does anything with the timer. -/
def Apart (callback : Nat → List Op) (u : Nat) : Prop :=
  ∀ v, ∀ o ∈ callback v, o.timer ≠ u

theorem Tracks.due_iff (tracks : Tracks late (late + 1) now deadline s) (mem : t ∈ s.list) :
    sub32 s.tick (s.timer t).timeoutTick < halfTick ↔ deadline t ≤ now := by
  have recent := tracks.recent t mem
  have near := tracks.near t mem
  have few := tracks.few
  rw [tracks.tick, tracks.timeout t mem, sub32_lt_iff (by omega) (by omega)]

/-- What is known of a timer once its function has been called. -/
structure Called (now : Nat) (x : RtTimer) (t : Nat) (deadline' : Nat → Nat) (s' : Timers) : Prop where
  timer : s'.timer t = x.called now
  mem : t ∈ s'.list ↔ x.again = true
  deadline : x.again = true → deadline' t = now + x.initTick

theorem Tracks.timerAgain (tracks : Tracks late (late + 1) now deadline s) (t : Nat) :
    ∃ s' deadline', s.timerAgain t = some s' ∧ Tracks late (late + 1) now deadline' s' ∧
      Keeps (· ≠ t) deadline s deadline' s' ∧ (t ∉ s.list → Called now (s.timer t) t deadline' s') := by
  obtain ⟨tracks₁, keeps₁⟩ := tracks.setTimer (t := t) (x := { s.timer t with activated := false }) (tracks.small t)
    (tracks.word t) fun _ => rfl
  by_cases again : (s.timer t).again = true
  · obtain ⟨s₂, made, tracks₂, keeps₂, list, timer⟩ := tracks₁.timerStart (Nat.le_succ late) le_rfl t
    rw [setTimer_self] at tracks₂ keeps₂ list timer
    refine ⟨s₂, _, ?_, tracks₂, keeps₁.trans keeps₂, fun _ => ⟨?_, ?_, fun _ => Function.update_self ..⟩⟩
    · unfold Timers.timerAgain
      dsimp only
      rw [if_pos (show ((s.timer t).periodic && (s.timer t).activated) = true from again)]
      exact made
    · rw [timer, RtTimer.called, if_pos again]
      simp only [RtTimer.again, Bool.and_eq_true] at again
      rw [again.2]
    · rw [list, Alarms.mem_place]
      simp [again]
  · refine ⟨_, deadline, ?_, tracks₁, keeps₁, fun out => ⟨?_, iff_of_false out again, fun now => absurd now again⟩⟩
    · unfold Timers.timerAgain
      dsimp only
      rw [if_neg (show ¬ ((s.timer t).periodic && (s.timer t).activated) = true from again)]
    · rw [setTimer_self, RtTimer.called, if_neg again]

/-- A round of the loop, and those that come after it. -/
structure Round (late now : Nat) (callback : Nat → List Op) (rounds : Nat) (deadline : Nat → Nat) (s s' : Timers)
    (t : Nat) (rest called : List Nat) (deadline₁ : Nat → Nat) (s₁ : Timers) : Prop where
  list : s.list = t :: rest
  due : deadline t ≤ now
  tracks : Tracks late (late + 1) now deadline₁ s₁
  keeps : Keeps (fun u => u ≠ t ∧ Apart callback u) deadline s deadline₁ s₁
  self : Apart callback t → Called now (s.timer t) t deadline₁ s₁
  later : timerCheck callback rounds s₁ = some (s', called)

theorem Tracks.round (tracks : Tracks late (late + 1) now deadline s)
    (small : ∀ t, ∀ o ∈ callback t, Clock.Small late o)
    (ran : timerCheck callback (rounds + 1) s = some (s', called)) :
    (s' = s ∧ called = [] ∧ ∀ u ∈ s.list, now < deadline u) ∨
      ∃ t rest later deadline₁ s₁, called = t :: later ∧
        Round late now callback rounds deadline s s' t rest later deadline₁ s₁ := by
  rw [timerCheck] at ran
  split at ran
  · next list =>
    cases ran
    refine .inl ⟨rfl, rfl, fun u mem => ?_⟩
    rw [list] at mem
    exact absurd mem List.not_mem_nil
  · next t rest list =>
    have here : t ∈ s.list := list ▸ List.mem_cons_self
    split_ifs at ran with due
    · right
      rw [tracks.due_iff here] at due
      obtain ⟨tracks₁, keeps₁, out₁⟩ := tracks.remove t
      obtain ⟨s₂, deadline₂, made₂, tracks₂, keeps₂⟩ := tracks₁.ops (K := Apart callback) (Nat.le_succ late) le_rfl
        (small t) fun o mem apart => apart t o mem rfl
      rw [made₂] at ran
      obtain ⟨s₃, deadline₃, made₃, tracks₃, keeps₃, self⟩ := tracks₂.timerAgain t
      rw [Option.bind_some, made₃] at ran
      obtain ⟨r, later, eq⟩ := Option.map_eq_some_iff.1 ran
      cases eq
      refine ⟨t, rest, r.2, deadline₃, s₃, rfl, list, due, tracks₃, ?_, fun apart => ?_, later⟩
      · exact ((keeps₁.mono fun u keep => keep.1).trans (keeps₂.mono fun u keep => keep.2)).trans
          (keeps₃.mono fun u keep => keep.1)
      · have called := self fun mem => out₁ ((keeps₂.mem t apart).1 mem)
        rw [keeps₂.timer t apart] at called
        exact called
    · cases ran
      refine .inl ⟨rfl, rfl, fun u mem => ?_⟩
      rw [tracks.due_iff here] at due
      have sorted := tracks.sorted
      rw [list] at mem sorted
      rcases List.mem_cons.1 mem with rfl | mem
      · exact Nat.lt_of_not_le due
      · exact (Nat.lt_of_not_le due).trans_le ((List.pairwise_cons.1 sorted).1 u mem)

/-- What the loop does to a timer that no timeout function touches: it is called once if it is due. -/
structure Outcome (now : Nat) (deadline : Nat → Nat) (s : Timers) (called : List Nat) (deadline' : Nat → Nat)
    (s' : Timers) (u : Nat) : Prop where
  waits : (u ∈ s.list → now < deadline u) → u ∉ called ∧ s'.timer u = s.timer u ∧ (u ∈ s'.list ↔ u ∈ s.list) ∧
    deadline' u = deadline u
  due : u ∈ s.list → deadline u ≤ now → ((s.timer u).again = true → 0 < (s.timer u).initTick) →
    called.count u = 1 ∧ Called now (s.timer u) u deadline' s'

/-- Of two timers the one in front is called first, and while it is not called it stays in front. -/
structure InTurn (u v : Nat) (called : List Nat) (s' : Timers) : Prop where
  first : ∀ earlier later, called = earlier ++ v :: later → u ∈ earlier
  before : u ∉ called → Before u v s'.list

/-- The loop leaves no timer that is due. -/
theorem Tracks.check (tracks : Tracks late (late + 1) now deadline s)
    (small : ∀ t, ∀ o ∈ callback t, Clock.Small late o)
    (ran : timerCheck callback rounds s = some (s', called)) :
    ∃ deadline', Tracks late (late + 1) now deadline' s' ∧ (∀ u ∈ s'.list, now < deadline' u) ∧
      (∀ u, Apart callback u → Outcome now deadline s called deadline' s' u) ∧
      ∀ u v, Apart callback u → Apart callback v → Before u v s.list → InTurn u v called s' := by
  induction rounds generalizing s deadline called with
  | zero => cases ran
  | succ rounds ih =>
    obtain ⟨rfl, rfl, none⟩ | ⟨t, rest, later, deadline₁, s₁, rfl, round⟩ := tracks.round small ran
    · refine ⟨deadline, tracks, none, fun u _ => ⟨fun _ => ⟨List.not_mem_nil, rfl, Iff.rfl, rfl⟩, fun mem le => ?_⟩,
        fun u v _ _ before => ⟨fun earlier later eq => ?_, fun _ => before⟩⟩
      · exact absurd le (Nat.not_le.2 (none u mem))
      · cases earlier with
        | nil => cases eq
        | cons _ _ => cases eq
    · obtain ⟨deadline', tracks', none, outcome, turn⟩ := ih round.tracks round.later
      have nodup := tracks.nodup
      rw [round.list] at nodup
      have out := (List.nodup_cons.1 nodup).1
      refine ⟨deadline', tracks', none, fun u apart => ?_, fun u v apart apart' before => ?_⟩
      · by_cases eq : u = t
        · subst eq
          have self := round.self apart
          refine ⟨fun waits => ?_, fun _ _ positive => ?_⟩
          · have mem : u ∈ s.list := round.list ▸ List.mem_cons_self
            exact absurd round.due (Nat.not_le.2 (waits mem))
          · -- it is started again for a later tick, or not at all
            obtain ⟨notCalled, timer, mem, deadline⟩ := (outcome u apart).waits fun mem => by
              have again := self.mem.1 mem
              have less := positive again
              rw [self.deadline again]
              omega
            refine ⟨by rw [List.count_cons_self, List.count_eq_zero_of_not_mem notCalled],
              timer.trans self.timer, mem.trans self.mem, fun again => deadline.trans (self.deadline again)⟩
        · have keep : u ≠ t ∧ Apart callback u := ⟨eq, apart⟩
          have sameTimer := round.keeps.timer u keep
          have sameDeadline := round.keeps.deadline u keep
          have sameMem := round.keeps.mem u keep
          refine ⟨fun waits => ?_, fun mem le positive => ?_⟩
          · obtain ⟨notCalled, timer, mem, deadline⟩ := (outcome u apart).waits fun mem => by
              rw [sameDeadline]
              exact waits (sameMem.1 mem)
            exact ⟨fun mem => (List.mem_cons.1 mem).elim eq notCalled, timer.trans sameTimer, mem.trans sameMem,
              deadline.trans sameDeadline⟩
          · obtain ⟨count, called⟩ := (outcome u apart).due (sameMem.2 mem) (sameDeadline ▸ le)
              (by rw [sameTimer]; exact positive)
            rw [sameTimer] at called
            exact ⟨by rw [List.count_cons_of_ne (Ne.symm eq), count], called⟩
      · rw [round.list] at before
        by_cases eq : u = t
        · subst eq
          refine ⟨fun earlier later eq => ?_, fun notCalled => absurd List.mem_cons_self notCalled⟩
          cases earlier with
          | nil =>
            have same : u = v := List.head_eq_of_cons_eq eq
            subst same
            exact absurd (List.Sublist.nodup before nodup) (by simp)
          | cons _ _ =>
            cases eq
            exact List.mem_cons_self
        · have before₁ := before.cons_of_ne (Ne.symm eq)
          have ne' : v ≠ t := fun same => out (same ▸ before₁.subset (by simp))
          have order := round.keeps.order u v ⟨eq, apart⟩ ⟨ne', apart'⟩ (by
            rw [round.list]
            exact before)
          have inTurn := turn u v apart apart' order
          refine ⟨fun earlier later split => ?_, fun notCalled => inTurn.before fun mem => notCalled ?_⟩
          · cases earlier with
            | nil => exact absurd (List.head_eq_of_cons_eq split).symm ne'
            | cons _ earlier =>
              cases split
              exact List.mem_cons_of_mem _ (inTurn.first earlier later rfl)
          · exact List.mem_cons_of_mem t mem

/-! ## The end of the loop -/

/-- Where the timeout functions do nothing with the timers the loop ends after a round for each timer that is due. -/
theorem Tracks.check_ends (tracks : Tracks late (late + 1) now deadline s)
    (positive : ∀ u ∈ s.list, deadline u ≤ now → (s.timer u).again = true → 0 < (s.timer u).initTick) {D : Finset Nat}
    (due : ∀ u ∈ s.list, deadline u ≤ now → u ∈ D) (card : D.card ≤ rounds) :
    ∃ r, timerCheck (fun _ => []) (rounds + 1) s = some r := by
  induction rounds generalizing s deadline D with
  | zero =>
    have empty : D = ∅ := Finset.card_eq_zero.1 (Nat.le_zero.1 card)
    rw [timerCheck]
    split
    · exact ⟨_, rfl⟩
    · next t rest list =>
      have here : t ∈ s.list := list ▸ List.mem_cons_self
      rw [if_neg fun soon => ?_]
      · exact ⟨_, rfl⟩
      · have mem := due t here ((tracks.due_iff here).1 soon)
        rw [empty] at mem
        exact absurd mem (Finset.notMem_empty t)
  | succ rounds ih =>
    rw [timerCheck]
    split
    · exact ⟨_, rfl⟩
    · next t rest list =>
      have here : t ∈ s.list := list ▸ List.mem_cons_self
      split_ifs with soon
      · rw [tracks.due_iff here] at soon
        obtain ⟨tracks₁, keeps₁, out₁⟩ := tracks.remove t
        obtain ⟨s₂, deadline₂, made, tracks₂, keeps₂, self⟩ := tracks₁.timerAgain t
        have called := self out₁
        have keeps := keeps₁.trans keeps₂
        -- a timer that is due then is another one, and was due before
        have before (u : Nat) (mem : u ∈ s₂.list) (le : deadline₂ u ≤ now) : u ≠ t ∧ u ∈ s.list ∧ deadline u ≤ now := by
          have ne : u ≠ t := by
            rintro rfl
            have again := called.mem.1 mem
            have less := positive u here soon again
            rw [called.deadline again, remove_timer] at le
            omega
          exact ⟨ne, (keeps.mem u ne).1 mem, keeps.deadline u ne ▸ le⟩
        obtain ⟨r, ends⟩ := ih tracks₂ (D := D.erase t) (fun u mem le => by
            obtain ⟨ne, mem', le'⟩ := before u mem le
            rw [keeps.timer u ne]
            exact positive u mem' le') (fun u mem le => by
            obtain ⟨ne, mem', le'⟩ := before u mem le
            exact Finset.mem_erase.2 ⟨ne, due u mem' le'⟩) (by
            rw [Finset.card_erase_of_mem (due t here soon)]
            omega)
        refine ⟨(r.1, t :: r.2), ?_⟩
        rw [Timers.ops, Option.bind_some, made, Option.bind_some, ends]
        rfl
      · exact ⟨_, rfl⟩

/-- A timer that is due again at once keeps the loop going for ever. -/
theorem Tracks.check_loops (tracks : Tracks late (late + 1) now deadline s) (mem : t ∈ s.list) (due : deadline t ≤ now)
    (again : (s.timer t).again = true) (zero : (s.timer t).initTick = 0) :
    timerCheck (fun _ => []) rounds s = none := by
  have apart : Apart (fun _ => []) t := fun _ o here => absurd here List.not_mem_nil
  induction rounds generalizing s deadline with
  | zero => rfl
  | succ rounds ih =>
    refine Option.eq_none_iff_forall_ne_some.2 fun r ran => ?_
    obtain ⟨-, -, none⟩ | ⟨h, rest, later, deadline₁, s₁, -, round⟩ :=
      tracks.round (fun _ o here => absurd here List.not_mem_nil) ran
    · exact absurd due (Nat.not_le.2 (none t mem))
    · have there : t ∈ s₁.list ∧ deadline₁ t ≤ now ∧ (s₁.timer t).again = true ∧ (s₁.timer t).initTick = 0 := by
        by_cases eq : t = h
        · subst eq
          have self := round.self apart
          have timer := self.timer
          rw [RtTimer.called, if_pos again] at timer
          refine ⟨self.mem.2 again, ?_, ?_, ?_⟩
          · rw [self.deadline again, zero]
            rfl
          · rw [timer]
            exact again
          · rw [timer]
            exact zero
        · have keep : t ≠ h ∧ Apart (fun _ => []) t := ⟨eq, apart⟩
          rw [round.keeps.timer t keep, round.keeps.deadline t keep, round.keeps.mem t keep]
          exact ⟨mem, due, again, zero⟩
      have stuck := ih round.tracks there.1 there.2.1 there.2.2.1 there.2.2.2
      rw [round.later] at stuck
      cases stuck

end Timers

end Ecu.Kernel
