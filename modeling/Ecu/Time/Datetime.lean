import Ecu.Base

/-!
# Times of day (`datetime.c`)

`acquire_time` is the number of seconds since midnight. `compareTime` and `compareTimeLess` compare
the time that passed between two such numbers with an interval; the second is the negation of
the first, and both are right exactly on the pairs of `InOrder` (`compareTime_iff_elapsed`).
-/

namespace Ecu.Time

/-- Seconds of a day. -/
def day : Nat := 24 * 60 * 60

/-- Two decimal digits of a date-time, in `unsigned char` arithmetic. -/
def field (datetime : List Byte) (i : Nat) : Byte :=
  (datetime.getD i nul - 0x30) * 10 + (datetime.getD (i + 1) nul - 0x30)

/-- `acquire_time`, of the date-time `YYYYMMDDHHMMSS` that the clock shows. -/
def acquireTime (datetime : List Byte) : Nat :=
  (field datetime 8).toNat * 60 * 60 + (field datetime 10).toNat * 60 + (field datetime 12).toNat

/-- Two digits. -/
def twoDigits (n : Nat) : List Byte :=
  [digit (n / 10), digit (n % 10)]

/-- What the clock shows `t` seconds after some midnight, given the eight digits of the date. -/
def clockText (date : List Byte) (t : Nat) : List Byte :=
  date ++ twoDigits (t % day / 3600) ++ twoDigits (t % 3600 / 60) ++ twoDigits (t % 60)

theorem field_twoDigits (before after : List Byte) {n : Nat} (small : n < 100) :
    (field (before ++ twoDigits n ++ after) before.length).toNat = n := by
  have first : (before ++ twoDigits n ++ after).getD before.length nul = digit (n / 10) := by
    simp [twoDigits, List.getD_eq_getElem?_getD]
  have second : (before ++ twoDigits n ++ after).getD (before.length + 1) nul = digit (n % 10) := by
    simp [twoDigits, List.getD_eq_getElem?_getD]
  rw [field, first, second]
  clear first second
  have value (d : Nat) : digit d - 0x30 = UInt8.ofNat d := by
    rw [digit, UInt8.ofNat_add, UInt8.add_comm]
    exact UInt8.add_sub_cancel _ _
  rw [value, value]
  simp only [UInt8.toNat_add, UInt8.toNat_mul, UInt8.toNat_ofNat', show UInt8.toNat 10 = 10 from rfl]
  omega

theorem acquireTime_clockText {date : List Byte} (width : date.length = 8) (t : Nat) :
    acquireTime (clockText date t) = t % day := by
  have hour := field_twoDigits date (twoDigits (t % 3600 / 60) ++ twoDigits (t % 60))
    (n := t % day / 3600) (by unfold day; omega)
  have minute := field_twoDigits (date ++ twoDigits (t % day / 3600)) (twoDigits (t % 60))
    (n := t % 3600 / 60) (by omega)
  have second := field_twoDigits (date ++ twoDigits (t % day / 3600) ++ twoDigits (t % 3600 / 60))
    [] (n := t % 60) (by omega)
  simp only [List.length_append, width, twoDigits, List.length_cons, List.length_nil, List.append_assoc,
    List.append_nil] at hour minute second
  simp only [acquireTime, clockText, twoDigits, List.append_assoc, hour, minute, second]
  unfold day
  omega

/-! ## Comparing -/

/-- `compareTime`: has `reportinterval` passed since `thistime`, now that it is `durabletime`? -/
def compareTime (durabletime thistime reportinterval : Int) : Nat :=
  if durabletime < reportinterval ∧ thistime > reportinterval then
    if durabletime + (24 * 60 * 60 + 1) - thistime > reportinterval then 1 else 0
  else if durabletime - thistime ≥ reportinterval then 1
  else 0

/-- `compareTimeLess`. -/
def compareTimeLess (durabletime thistime reportinterval : Int) : Nat :=
  if durabletime < reportinterval ∧ thistime > reportinterval then
    if durabletime + (24 * 60 * 60 + 1) - thistime ≤ reportinterval then 1 else 0
  else if durabletime - thistime < reportinterval then 1
  else 0

/-- The time that passed from `last` to `now` when less than a day did. -/
def elapsed (now last : Int) : Int :=
  (now - last) % day

/-- The pairs of times of day that `compareTime` tells apart: no midnight between them, or a midnight
with `now` before and `last` after the interval counted from 0 o'clock. -/
def InOrder (now last interval : Int) : Prop :=
  last ≤ now ∨ now < interval ∧ interval < last

instance (now last interval : Int) : Decidable (InOrder now last interval) :=
  inferInstanceAs (Decidable (_ ∨ _))

theorem compareTimeLess_eq (now last interval : Int) :
    compareTimeLess now last interval = 1 - compareTime now last interval := by
  unfold compareTimeLess compareTime
  split
  · split <;> split <;> omega
  · split <;> split <;> omega

/-- Times of day and an interval below half a day. -/
structure Ranges (now last interval : Int) : Prop where
  now_nonneg : 0 ≤ now
  now_lt : now < day
  last_nonneg : 0 ≤ last
  last_lt : last < day
  interval_pos : 0 < interval
  interval_lt : interval < 43200

theorem elapsed_of_le {now last interval : Int} (ranges : Ranges now last interval) (order : last ≤ now) :
    elapsed now last = now - last := by
  have := ranges.now_lt
  have := ranges.last_nonneg
  rw [elapsed, Int.emod_eq_of_lt] <;> omega

theorem elapsed_of_lt {now last interval : Int} (ranges : Ranges now last interval) (wrapped : now < last) :
    elapsed now last = now + day - last := by
  have := ranges.now_nonneg
  have := ranges.last_lt
  rw [elapsed, ← Int.add_emod_right, Int.emod_eq_of_lt] <;> omega

/-- `compareTime` is the comparison of the elapsed time exactly on the pairs in order. -/
theorem compareTime_iff_elapsed {now last interval : Int} (ranges : Ranges now last interval) :
    (compareTime now last interval = 1 ↔ interval ≤ elapsed now last) ↔ InOrder now last interval := by
  have positive := ranges.interval_pos
  have half := ranges.interval_lt
  have nowNonneg := ranges.now_nonneg
  have lastLt := ranges.last_lt
  unfold InOrder
  rcases Int.lt_or_le now last with wrapped | order
  · rw [elapsed_of_lt ranges wrapped, compareTime]
    unfold day at *
    split
    · split <;> omega
    · split <;> omega
  · rw [elapsed_of_le ranges order, compareTime, if_neg (by omega)]
    split <;> omega

end Ecu.Time
