import Ecu.Lib.Calendar
import Ecu.Protection.ReadBack

/-!
# The dates of the curves

The power of a day and the energies of the days are kept in a file for each month, the energies of the months in one
file. A date is eight digits there, a month six, and `file.c` compares them as numbers. The numbers of months, and of
days, are ordered as they follow each other (`Month.number_le_iff`), and so are the numbers of days in a month.
-/

namespace Ecu.Curves

open Calendar Decimal Socket Protection

/-- A month, with a year of four digits. -/
structure Month where
  year : Nat
  month : Nat
  fourDigits : year < 10 ^ 4
  isMonth : 1 ≤ month ∧ month ≤ 12

namespace Month

/-- The months before it. -/
def index (m : Month) : Nat :=
  12 * m.year + (m.month - 1)

def number (m : Month) : Nat :=
  m.year * 100 + m.month

/-- `yyyymm` -/
def text (m : Month) : List Byte :=
  fixed 4 m.year ++ fixed 2 m.month

/-- The name of its file. -/
def file (m : Month) : List Byte :=
  m.text ++ str ".dat"

theorem number_le_iff (a b : Month) : a.number ≤ b.number ↔ a.index ≤ b.index := by
  have first := a.isMonth
  have second := b.isMonth
  rw [number, number, index, index]
  omega

theorem month_digits (m : Month) : m.month < 10 ^ 2 := by
  have isMonth := m.isMonth
  omega

theorem text_length (m : Month) : m.text.length = 6 := by
  rw [text, List.length_append, fixed_length, fixed_length]

theorem text_digits (m : Month) : ∀ b ∈ m.text, IsDigit b := by
  intro b mem
  rcases List.mem_append.1 mem with inYear | inMonth
  · exact (value_fixed (by decide) m.fourDigits).1 b inYear
  · exact (value_fixed (by decide) m.month_digits).1 b inMonth

theorem value_text (m : Month) : value m.text = m.number := by
  rw [text, value_append, (value_fixed (by decide) m.fourDigits).2, (value_fixed (by decide) m.month_digits).2,
    fixed_length]
  rfl

theorem atoi_text (m : Month) : atoi m.text = m.number := by
  have some : m.text ≠ [] := List.ne_nil_of_length_eq_add_one m.text_length
  rw [atoi_of_digits some m.text_digits, m.value_text]

/-- The members of a date that begins with the month. -/
theorem atoi_year (m : Month) (rest : List Byte) : atoi ((m.text ++ rest).take 4) = m.year := by
  have digits := value_fixed (show 0 < 4 by decide) m.fourDigits
  have first : (m.text ++ rest).take 4 = fixed 4 m.year := by
    rw [text, List.append_assoc]
    exact List.take_left' (fixed_length 4 _)
  have some : fixed 4 m.year ≠ [] := List.ne_nil_of_length_eq_add_one (fixed_length 4 _)
  rw [first, atoi_of_digits some digits.1, digits.2]

theorem atoi_month (m : Month) (rest : List Byte) : atoi (((m.text ++ rest).drop 4).take 2) = m.month := by
  have digits := value_fixed (show 0 < 2 by decide) m.month_digits
  have second : ((m.text ++ rest).drop 4).take 2 = fixed 2 m.month := by
    rw [text, List.append_assoc, List.drop_left' (fixed_length 4 _)]
    exact List.take_left' (fixed_length 2 _)
  have some : fixed 2 m.month ≠ [] := List.ne_nil_of_length_eq_add_one (fixed_length 2 _)
  rw [second, atoi_of_digits some digits.1, digits.2]

theorem index_injective {a b : Month} (same : a.index = b.index) : a = b := by
  have first := a.isMonth
  have second := b.isMonth
  cases a
  cases b
  simp only [index, mk.injEq] at *
  omega

/-- The month before, in the words of `file.c`. -/
theorem exists_before (m : Month) (later : 0 < m.year) : ∃ before : Month, before.index + 1 = m.index ∧
    before.year = (if m.month = 1 then m.year - 1 else m.year) ∧ before.month = if m.month =
      1 then 12 else m.month - 1 := by
  have digits := m.fourDigits
  have isMonth := m.isMonth
  by_cases january : m.month = 1
  · refine ⟨⟨m.year - 1, 12, by omega, by omega⟩, ?_, (if_pos january).symm, (if_pos january).symm⟩
    rw [index, index]
    dsimp only
    omega
  · refine ⟨⟨m.year, m.month - 1, digits, by omega⟩, ?_, (if_neg january).symm, (if_neg january).symm⟩
    rw [index, index]
    dsimp only
    omega

end Month

/-- A day of the calendar. -/
structure Day extends Month where
  day : Nat
  isDay : 1 ≤ day ∧ day ≤ monthDays year month

namespace Day

def number (d : Day) : Nat :=
  d.toMonth.number * 100 + d.day

/-- `yyyymmdd` -/
def text (d : Day) : List Byte :=
  d.toMonth.text ++ fixed 2 d.day

/-- The days up to it. -/
def count (d : Day) : Nat :=
  dayNumber d.year d.month d.day

theorem count_eq (d : Day) : d.count = monthStart d.index + d.day :=
  dayNumber_eq d.isMonth d.day

theorem day_le (d : Day) : d.day ≤ monthLength d.index ∧ d.day ≤ 31 := by
  have inside := d.isDay.2
  have long := (monthDays_bounds d.year d.month).2
  have length : monthLength d.index = monthDays d.year d.month := monthLength_eq d.isMonth
  omega

theorem day_digits (d : Day) : d.day < 10 ^ 2 := by
  have last := d.day_le.2
  omega

/-- A day that is not later lies in no later month. -/
theorem index_le {a b : Day} (le : a.count ≤ b.count) : a.index ≤ b.index := by
  by_contra later
  have start : monthStart (b.index + 1) ≤ monthStart a.index := monthStart_mono (by omega)
  have inside := b.day_le.1
  have some := a.isDay.1
  rw [count_eq, count_eq] at le
  rw [monthStart_succ] at start
  omega

theorem text_length (d : Day) : d.text.length = 8 := by
  rw [text, List.length_append, d.toMonth.text_length, fixed_length]

theorem text_digits (d : Day) : ∀ b ∈ d.text, IsDigit b := by
  intro b mem
  rcases List.mem_append.1 mem with inMonth | inDay
  · exact d.toMonth.text_digits b inMonth
  · exact (value_fixed (by decide) d.day_digits).1 b inDay

theorem value_text (d : Day) : value d.text = d.number := by
  rw [text, value_append, d.toMonth.value_text, (value_fixed (by decide) d.day_digits).2, fixed_length]
  rfl

theorem atoi_day (d : Day) (rest : List Byte) : atoi (((d.text ++ rest).drop 6).take 2) = d.day := by
  have digits := value_fixed (show 0 < 2 by decide) d.day_digits
  have last : ((d.text ++ rest).drop 6).take 2 = fixed 2 d.day := by
    rw [text, List.append_assoc, List.drop_left' d.toMonth.text_length]
    exact List.take_left' (fixed_length 2 _)
  have some : fixed 2 d.day ≠ [] := List.ne_nil_of_length_eq_add_one (fixed_length 2 _)
  rw [last, atoi_of_digits some digits.1, digits.2]

end Day

end Ecu.Curves
