import Ecu.Time.Datetime

/-!
# The polling loop (`main_thread_entry`)

Ten times a second the loop asks `compareTime` whether the reporting interval has passed since the
last round began. Both times it compares are times of day; `Polls` relates them to instants that
count on across midnight. A round starts when it is due exactly as long as the two times are in
order (`due_iff_inOrder`).
-/

namespace Ecu.Time

/-- The variables of `main_thread_entry` that decide about the next round. -/
structure MainLoop where
  thistime : Int
  durabletime : Int
  reportinterval : Int
deriving DecidableEq, Repr

namespace MainLoop

def init : MainLoop := { thistime := 0, durabletime := 65535, reportinterval := 300 }

/-- The interval that follows from the time since the last round began. -/
def interval (sinceRound : Int) : Int :=
  if sinceRound ≤ 305 then 300
  else if sinceRound ≤ 600 then 600
  else if sinceRound ≤ 900 then 900
  else if sinceRound ≤ 1200 then 1200
  else 1800

/-- The test starts a round. -/
def Due (s : MainLoop) : Prop :=
  compareTime s.durabletime s.thistime s.reportinterval = 1

instance (s : MainLoop) : Decidable s.Due :=
  inferInstanceAs (Decidable (_ = _))

/-- One pass of the loop. The clock shows `atRound` if a round starts, and `afterDelay` after the
tenth of a second at the end of the pass. -/
def step (s : MainLoop) (atRound afterDelay : List Byte) : MainLoop :=
  let thistime : Int := if s.Due then acquireTime atRound else s.thistime
  let durabletime : Int := acquireTime afterDelay
  { thistime := thistime, durabletime := durabletime, reportinterval := interval (durabletime - thistime) }

end MainLoop

/-- The states of the loop after its first test, with the instants (in seconds since some midnight)
at which the last round began and at which the clock was last read. -/
inductive Polls : MainLoop → Nat → Nat → Prop where
  | first {date date' : List Byte} (width : date.length = 8) (width' : date'.length = 8) {began now : Nat}
      (order : began ≤ now) : Polls (MainLoop.init.step (clockText date began) (clockText date' now)) began now
  | next {s : MainLoop} {began now : Nat} (polls : Polls s began now) {date date' : List Byte}
      (width : date.length = 8) (width' : date'.length = 8) {atRound now' : Nat} (later : now ≤ atRound)
      (order : atRound ≤ now') :
      Polls (s.step (clockText date atRound) (clockText date' now')) (if s.Due then atRound else began) now'

/-- What the variables say about the instants. -/
structure Tracks (s : MainLoop) (began now : Nat) : Prop where
  thistime : s.thistime = (began % day : Nat)
  durabletime : s.durabletime = (now % day : Nat)
  interval_pos : 0 < s.reportinterval
  interval_lt : s.reportinterval < 43200
  order : began ≤ now

theorem interval_bounds (sinceRound : Int) :
    0 < MainLoop.interval sinceRound ∧ MainLoop.interval sinceRound < 43200 := by
  unfold MainLoop.interval
  split_ifs <;> decide

theorem Polls.tracks {s : MainLoop} {began now : Nat} (polls : Polls s began now) : Tracks s began now := by
  induction polls with
  | first width width' order =>
    have due : MainLoop.init.Due := by decide
    exact ⟨by simp only [MainLoop.step, if_pos due, acquireTime_clockText width],
      by simp only [MainLoop.step, acquireTime_clockText width'],
      (interval_bounds _).1, (interval_bounds _).2, order⟩
  | @next s began now polls date date' width width' atRound now' later order ih =>
    refine ⟨?_, by simp only [MainLoop.step, acquireTime_clockText width'],
      (interval_bounds _).1, (interval_bounds _).2, ?_⟩
    · by_cases due : s.Due
      · simp only [MainLoop.step, if_pos due, acquireTime_clockText width]
      · simp only [MainLoop.step, if_neg due, ih.thistime]
    · have := ih.order
      split <;> omega

theorem Tracks.ranges {s : MainLoop} {began now : Nat} (tracks : Tracks s began now) :
    Ranges s.durabletime s.thistime s.reportinterval := by
  have positive : 0 < day := by decide
  have nowLt := Nat.mod_lt now positive
  have beganLt := Nat.mod_lt began positive
  refine ⟨?_, ?_, ?_, ?_, tracks.interval_pos, tracks.interval_lt⟩
  · rw [tracks.durabletime]
    exact Int.natCast_nonneg _
  · rw [tracks.durabletime]
    exact Int.ofNat_lt.2 nowLt
  · rw [tracks.thistime]
    exact Int.natCast_nonneg _
  · rw [tracks.thistime]
    exact Int.ofNat_lt.2 beganLt

/-- Within a day the elapsed time of day is the real one. -/
theorem Tracks.elapsed {s : MainLoop} {began now : Nat} (tracks : Tracks s began now) (within : now < began + day) :
    elapsed s.durabletime s.thistime = (now : Int) - began := by
  have order := tracks.order
  rw [Time.elapsed, tracks.durabletime, tracks.thistime]
  unfold day at *
  omega

/-- `compareTime` compares the elapsed time exactly on the pairs in order, `compareTimeLess` is its
negation everywhere, and a test of the polling loop (less than a day after the last round began)
starts a round exactly when the reporting interval has passed, if and only if its pair is in order. -/
theorem due_iff_inOrder (now last interval : Int) :
    (Ranges now last interval →
      ((compareTime now last interval = 1 ↔ interval ≤ elapsed now last) ↔ InOrder now last interval)) ∧
    compareTimeLess now last interval = 1 - compareTime now last interval ∧
    ∀ (s : MainLoop) (began clock : Nat), Polls s began clock → clock < began + day →
      ((s.Due ↔ s.reportinterval ≤ (clock : Int) - began) ↔
        InOrder (clock % day : Nat) (began % day : Nat) s.reportinterval) := by
  refine ⟨compareTime_iff_elapsed, compareTimeLess_eq now last interval, ?_⟩
  intro s began clock polls within
  have tracks := polls.tracks
  rw [← tracks.elapsed within, ← tracks.durabletime, ← tracks.thistime]
  exact compareTime_iff_elapsed tracks.ranges

/-- Five minutes of a morning. -/
theorem due_iff_inOrder_morning : compareTime 28800 28500 300 = 1 ↔ 300 ≤ elapsed 28800 28500 :=
  ((due_iff_inOrder 28800 28500 300).1 ⟨by decide, by decide, by decide, by decide, by decide, by decide⟩).2
    (by decide)

/-- A round that begins a second before midnight and lasts 401 seconds: the test after it does not
start another. -/
theorem overdue_after_midnight :
    ¬ ((∀ now last interval : Int, Ranges now last interval →
          (compareTime now last interval = 1 ↔ interval ≤ elapsed now last)) ∧
        ∀ (s : MainLoop) (began now : Nat), Polls s began now → now < began + day →
          s.reportinterval ≤ (now : Int) - began → s.Due) := by
  rintro ⟨-, due⟩
  have polls : Polls (MainLoop.init.step (clockText (str "20240101") 86399) (clockText (str "20240102") 86800))
    86399 86800 :=
    .first (by decide) (by decide) (by decide)
  exact absurd (due _ _ _ polls (by decide) (by decide)) (by decide)

end Ecu.Time
