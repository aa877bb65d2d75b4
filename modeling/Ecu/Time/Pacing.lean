import Ecu.Time.Datetime

/-!
# The pause of the client (`client.c`)

At the end of a cycle `client_thread_entry` waits until five minutes have gone by since its start. Without a midnight in
between it does. With one the pause is the right one only when the five minutes are over (`client_delay_iff`): else the
times are added where they should be subtracted, and the tick, which has no sign, is that of more than a year.
-/

namespace Ecu.Time

def rtTickPerSecond : Int := 100

/-- An `int` as an `rt_tick_t`. -/
def rtTick (v : Int) : Nat :=
  (v % 2 ^ 32).toNat

/-- The end of the loop in `client_thread_entry`: the ticks that `rt_thread_delay` is given, if it is called. -/
def clientDelay (thistime lasttime : Int) : Option Nat :=
  if thistime < 300 ∧ lasttime > 300 then
    if thistime + (24 * 60 * 60 + 1) - lasttime < 300 then
      some (rtTick (300 - ((thistime + (24 * 60 * 60 + 1)) + lasttime) * rtTickPerSecond))
    else none
  else if thistime - lasttime < 300 then some (rtTick ((300 + lasttime - thistime) * rtTickPerSecond))
  else none

/-- The client waits for what is left of the five minutes. -/
structure Paced (thistime lasttime : Int) : Prop where
  rest : ((clientDelay thistime lasttime).getD 0 : Int) = max 0 (300 - elapsed thistime lasttime) * rtTickPerSecond
  atMost : ((clientDelay thistime lasttime).getD 0 : Int) ≤ 300 * rtTickPerSecond

theorem rtTick_nonneg {v : Int} (low : 0 ≤ v) (high : v < 2 ^ 32) : (rtTick v : Int) = v := by
  rw [rtTick, Int.emod_eq_of_lt low high, Int.toNat_of_nonneg low]

/-- A negative number of ticks is a very long time. -/
theorem rtTick_neg {v : Int} (low : -2 ^ 31 ≤ v) (high : v < 0) : 2 ^ 31 ≤ (rtTick v : Int) := by
  have wrapped : v % 2 ^ 32 = v + 2 ^ 32 := by
    rw [← Int.add_emod_right, Int.emod_eq_of_lt (by omega) (by omega)]
  rw [rtTick, wrapped, Int.toNat_of_nonneg (by omega)]
  omega

section Pause

variable {thistime lasttime : Int} (now : 0 ≤ thistime ∧ thistime < day) (last : 0 ≤ lasttime ∧ lasttime < day)

include now last

theorem ranges_of_day : Ranges thistime lasttime 300 :=
  ⟨now.1, now.2, last.1, last.2, by decide, by decide⟩

theorem paced_same_day (order : lasttime ≤ thistime) : Paced thistime lasttime := by
  have sinceStart := elapsed_of_le (ranges_of_day now last) order
  have given : ((clientDelay thistime lasttime).getD 0 : Int) =
    max 0 (300 - (thistime - lasttime)) * rtTickPerSecond := by
    rw [clientDelay, if_neg (by omega)]
    split_ifs with early
    · have ticks : (rtTick ((300 + lasttime - thistime) * rtTickPerSecond) : Int) =
          (300 - (thistime - lasttime)) * rtTickPerSecond := by
        unfold day at now last
        rw [rtTick_nonneg] <;> unfold rtTickPerSecond <;> omega
      rw [Option.getD_some, ticks, max_eq_right (by omega)]
    · rw [Option.getD_none, max_eq_left] <;> omega
  rw [← sinceStart] at given
  have passed : 0 ≤ elapsed thistime lasttime := by omega
  refine ⟨given, ?_⟩
  rw [given]
  unfold rtTickPerSecond
  omega

/-- After midnight the pause is right only when there is none. -/
theorem paced_next_day (order : thistime < lasttime) :
    Paced thistime lasttime ↔ thistime < 300 ∧ 300 < lasttime ∧ 300 ≤ elapsed thistime lasttime := by
  have sinceStart := elapsed_of_lt (ranges_of_day now last) order
  unfold day at now last sinceStart
  constructor
  · intro paced
    have rest := paced.rest
    have atMost := paced.atMost
    rw [sinceStart] at rest ⊢
    unfold clientDelay rtTickPerSecond at rest atMost
    split_ifs at rest atMost with wraps early early
    · -- the sum of the times is subtracted
      have long := rtTick_neg (v := 300 - ((thistime + (24 * 60 * 60 + 1)) + lasttime) * 100) (by omega) (by omega)
      rw [Option.getD_some] at atMost
      omega
    · rw [Option.getD_none] at rest
      omega
    · rw [Option.getD_some, rtTick_nonneg (by omega) (by omega)] at atMost
      omega
    · omega
  · rintro ⟨early, late, enough⟩
    have none : clientDelay thistime lasttime = none := by
      rw [clientDelay, if_pos ⟨early, late⟩, if_neg (by omega)]
    constructor
    · rw [none, max_eq_left (by omega)]
      rfl
    · rw [none]
      decide

end Pause

/-- The client waits as it should on the day of its start, and on the next one exactly when it need not wait: it has
sent before five past midnight, started after that, and the five minutes are over. -/
theorem client_delay_iff {thistime lasttime : Int} (now : 0 ≤ thistime ∧ thistime < day)
    (last : 0 ≤ lasttime ∧ lasttime < day) :
    Paced thistime lasttime ↔
      lasttime ≤ thistime ∨ thistime < 300 ∧ 300 < lasttime ∧ 300 ≤ elapsed thistime lasttime := by
  rcases Int.lt_or_le thistime lasttime with order | order
  · rw [paced_next_day now last order]
    exact (or_iff_right (Int.not_le.2 order)).symm
  · exact iff_of_true (paced_same_day now last order) (.inl order)

theorem client_delay_morning :
    Paced 28810 28800 ↔
      (28800 : Int) ≤ 28810 ∨ (28810 : Int) < 300 ∧ (300 : Int) < 28800 ∧ 300 ≤ elapsed 28810 28800 :=
  client_delay_iff ⟨by decide, by decide⟩ ⟨by decide, by decide⟩

/-- Twenty seconds around midnight. -/
theorem client_sleeps :
    ¬ ∀ thistime lasttime : Int, 0 ≤ thistime ∧ thistime < day → 0 ≤ lasttime ∧ lasttime < day →
      Paced thistime lasttime := by
  intro claim
  have atMost := (claim 10 86390 (by decide) (by decide)).atMost
  revert atMost
  decide

end Ecu.Time
