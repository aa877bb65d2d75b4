import Ecu.Curves.Energies

/-!
# The windows of the energy curves (`file.c`)

The first day of a window is computed from the digits of the date, with the length of the month before. What a query
takes is the last seven days, the days since the same day of the month before, and the last twelve months, at every
end of a month or year (`curve_windows`).
-/

namespace Ecu.Curves

open Calendar Decimal Socket Protection Time Totals

/-! ## The windows -/

/-- One of the last `n` days. -/
def LastDays (n : Nat) (today d : Day) : Prop :=
  d.count ≤ today.count ∧ today.count < d.count + n

instance (n : Nat) (today d : Day) : Decidable (LastDays n today d) :=
  inferInstanceAs (Decidable (_ ∧ _))

/-- One of the last `n` months. -/
def LastMonths (n : Nat) (today m : Month) : Prop :=
  m.index ≤ today.index ∧ today.index < m.index + n

instance (n : Nat) (today m : Month) : Decidable (LastMonths n today m) :=
  inferInstanceAs (Decidable (_ ∧ _))

/-- The answer has the days of the window, of each month those in its file, in their order, and no others. -/
def AnswersDays (T : Target) (entries : Month → List (Entry Day)) (window : Day → Prop) [DecidablePred window]
    (answer : List Byte) : Prop :=
  ∃ read : List (Entry Day), answer = read.flatMap (Entry.bytes T Day.text []) ∧
    ∀ m : Month, read.filter (fun e => e.key.index = m.index) = (entries m).filter fun e => window e.key

/-- The answer has the months of the window, in their order, and no others. -/
def AnswersMonths (T : Target) (entries : List (Entry Month)) (window : Month → Prop) [DecidablePred window]
    (answer : List Byte) : Prop :=
  answer = (entries.filter fun e => window e.key).flatMap (Entry.bytes T Month.text [1])

/-! ## The first day -/

/-- The members of a date. -/
theorem day_members (d : Day) (rest : List Byte) : atoi ((d.text ++ rest).take 4) = d.year ∧
    atoi (((d.text ++ rest).drop 4).take 2) = d.month ∧ atoi (((d.text ++ rest).drop 6).take 2) = d.day := by
  refine ⟨?_, ?_, d.atoi_day rest⟩
  · rw [Day.text, List.append_assoc]
    exact d.toMonth.atoi_year _
  · rw [Day.text, List.append_assoc]
    exact d.toMonth.atoi_month _

/-- A number of eight digits begins with those of its month. -/
theorem text_month (m : Month) (thousand : 1000 ≤ m.year) {day : Nat} (small : day < 10 ^ 2) :
    (intText ((m.number * 100 + day : Nat) : Int)).take 6 = m.text := by
  have digits := value_fixed (show 0 < 2 by decide) small
  have range : 10 ^ 7 ≤ m.number * 100 + day ∧ m.number * 100 + day < 10 ^ 8 := by
    have year := m.fourDigits
    have month := m.isMonth
    rw [Month.number]
    omega
  have eight := value_fixed (show 0 < 8 by decide) range.2
  have parts : fixed 8 ((m.number * 100 + day : Nat) : Int) = m.text ++ fixed 2 day := by
    refine eq_of_value eight.1 (fun b mem => ?_) ?_ ?_
    · rcases List.mem_append.1 mem with inMonth | inDay
      · exact m.text_digits b inMonth
      · exact digits.1 b inDay
    · rw [fixed_length, List.length_append, m.text_length, fixed_length]
    · rw [eight.2, value_append, m.value_text, digits.2, fixed_length]
      rfl
  rw [intText, if_neg (Int.not_lt.2 (Int.natCast_nonneg _)), Int.natAbs_natCast, text_eq_fixed range.1 range.2, parts]
  exact List.take_left' m.text_length

/-- A query finds its window among the days up to today: in the file of this month, or in those of this month and of
the one before. -/
structure Finds (today : Day) (earliest : Bool × Int) (window : Day → Prop) : Prop where
  files : earliest.1 = true → ∃ before : Month, before.index + 1 = today.index ∧
    (intText earliest.2).take 6 = before.text
  window : ∀ d : Day, d.count ≤ today.count → (window d ↔
    (d.index = today.index ∨ earliest.1 = true ∧ d.index + 1 = today.index) ∧ earliest.2 ≤ d.number)

section First

variable (today : Day) (rest : List Byte)

/-- The month before, as the functions compute it. -/
theorem month_before (gregorian : 1582 ≤ today.year) : ∃ before : Month, before.index + 1 = today.index ∧
    1000 ≤ before.year ∧
    (before.year : Int) = (if (today.month : Int) - 1 = 0 then (today.year : Int) - 1 else today.year) ∧
    (before.month : Int) = if (today.month : Int) - 1 = 0 then 12 else (today.month : Int) - 1 := by
  obtain ⟨before, next, year, month⟩ := today.toMonth.exists_before (by omega)
  have isMonth := today.isMonth
  refine ⟨before, next, ?_, ?_, ?_⟩
  · split_ifs at year <;> omega
  · split_ifs at year ⊢ <;> omega
  · split_ifs at month ⊢ <;> omega

theorem week_late (late : 7 < today.day) :
    calculateEarliestWeek (today.text ++ rest) = (false,
      ((today.toMonth.number * 100 + (today.day - 6) : Nat) : Int)) := by
  obtain ⟨year, month, day⟩ := day_members today rest
  rw [calculateEarliestWeek, year, month, day, if_pos (by omega), Month.number]
  refine congrArg (Prod.mk false) ?_
  omega

theorem week_early (early : today.day ≤ 7) {before : Month}
    (beforeYear : (before.year : Int) = if (today.month : Int) - 1 = 0 then (today.year : Int) - 1 else today.year)
    (beforeMonth : (before.month : Int) = if (today.month : Int) - 1 = 0 then 12 else (today.month : Int) - 1) :
    calculateEarliestWeek (today.text ++ rest) =
      (true, ((before.number * 100 + (monthDays before.year before.month + 1 - (7 - today.day)) : Nat) : Int)) := by
  obtain ⟨year, month, day⟩ := day_members today rest
  have length := (monthDays_bounds before.year before.month).1
  have some := today.isDay.1
  rw [calculateEarliestWeek, year, month, day, if_neg (by omega), ← beforeYear, ← beforeMonth]
  dsimp only
  rw [daysOf_month before.year before.isMonth, Month.number]
  refine congrArg (Prod.mk true) ?_
  omega

theorem month_late (late : 28 ≤ today.day) :
    calculateEarliestMonth (today.text ++ rest) = (false, ((today.toMonth.number * 100 + 1 : Nat) : Int)) := by
  obtain ⟨year, month, day⟩ := day_members today rest
  rw [calculateEarliestMonth, year, month, day, if_pos (by omega), Month.number]
  refine congrArg (Prod.mk false) ?_
  omega

theorem month_early (early : today.day < 28) {before : Month}
    (beforeYear : (before.year : Int) = if (today.month : Int) - 1 = 0 then (today.year : Int) - 1 else today.year)
    (beforeMonth : (before.month : Int) = if (today.month : Int) - 1 = 0 then 12 else (today.month : Int) - 1) :
    calculateEarliestMonth (today.text ++ rest) = (true, ((before.number * 100 + (today.day + 1) : Nat) : Int)) := by
  obtain ⟨year, month, day⟩ := day_members today rest
  rw [calculateEarliestMonth, year, month, day, if_neg (by omega), ← beforeYear, ← beforeMonth, Month.number]
  dsimp only
  refine congrArg (Prod.mk true) ?_
  omega

end First

/-! ## Where the days lie -/

section Place

variable {today d : Day}

/-- Days of one month are ordered as their numbers are. -/
theorem number_of_index {m : Month} (same : d.index = m.index) : d.number = m.number * 100 + d.day := by
  rw [Day.number, Month.index_injective same]

/-- A day up to today lies in this month, in the one before, or earlier: how far, and what its number is. -/
theorem count_cases (upTo : d.count ≤ today.count) {before : Month} (next : before.index + 1 = today.index) :
    (d.index = today.index ∧ d.count + today.day = today.count + d.day ∧
      d.number = today.toMonth.number * 100 + d.day) ∨
    (d.index = before.index ∧ d.count + (monthDays before.year before.month - d.day) + today.day = today.count ∧
      d.day ≤ monthDays before.year before.month ∧ d.number = before.number * 100 + d.day) ∨
    d.index < before.index ∧ d.count + monthDays before.year before.month + today.day ≤ today.count := by
  have inside := Day.index_le upTo
  have length : monthLength before.index = monthDays before.year before.month := monthLength_eq before.isMonth
  have start := monthStart_succ before.index
  have last := d.day_le.1
  rw [next, length] at start
  rw [d.count_eq, today.count_eq] at *
  rcases Nat.lt_trichotomy d.index before.index with earlier | same | later
  · have whole : monthStart (d.index + 1) ≤ monthStart before.index := monthStart_mono earlier
    rw [monthStart_succ] at whole
    exact .inr (.inr ⟨earlier, by omega⟩)
  · rw [same, length] at last
    refine .inr (.inl ⟨same, ?_, last, number_of_index same⟩)
    rw [same]
    omega
  · have same : d.index = today.index := by omega
    refine .inl ⟨same, ?_, number_of_index same⟩
    rw [same]
    omega

end Place

/-! ## The windows are found -/

/-- A window of `n` days that lies in this month. -/
theorem finds_month (today : Day) {n first : Nat} {before : Month} (next : before.index + 1 = today.index)
    (begins : first + n = today.day + 1) (some : 0 < first) :
    Finds today (false, ((today.toMonth.number * 100 + first : Nat) : Int)) (LastDays n today) := by
  have isDay := today.isDay
  refine ⟨fun flag => (by cases flag), fun d upTo => ?_⟩
  have some := d.isDay.1
  simp only [LastDays, Bool.false_eq_true, false_and, or_false]
  rcases count_cases upTo next with ⟨same, count, number⟩ | ⟨same, count, inside, number⟩ | ⟨earlier, count⟩
  · omega
  · omega
  · omega

/-- A window of `n` days that begins in the month before. -/
theorem finds_before (today : Day) {n first : Nat} {before : Month} (next : before.index + 1 = today.index)
    (thousand : 1000 ≤ before.year)
    (begins : first + n = monthDays before.year before.month + today.day + 1)
    (short : today.day ≤ n) (long : n ≤ monthDays before.year before.month + today.day) :
    Finds today (true, ((before.number * 100 + first : Nat) : Int)) (LastDays n today) := by
  have isDay := today.isDay
  have length := monthDays_bounds before.year before.month
  have order := (Month.number_le_iff today.toMonth before).not.2 (by omega)
  refine ⟨fun _ => ⟨before, next, text_month before thousand (by omega)⟩, fun d upTo => ?_⟩
  have some := d.isDay.1
  simp only [LastDays, true_and]
  rcases count_cases upTo next with ⟨same, count, number⟩ | ⟨same, count, inside, number⟩ | ⟨earlier, count⟩
  · omega
  · omega
  · omega

section Windows

variable (today : Day) (gregorian : 1582 ≤ today.year) (rest : List Byte)

include gregorian

theorem week_finds : Finds today (calculateEarliestWeek (today.text ++ rest)) (LastDays 7 today) := by
  obtain ⟨before, next, thousand, year, month⟩ := month_before today gregorian
  have isDay := today.isDay
  have length := monthDays_bounds before.year before.month
  by_cases late : 7 < today.day
  · rw [week_late today rest late]
    exact finds_month today next (by omega) (by omega)
  · rw [week_early today rest (by omega) year month]
    exact finds_before today next thousand (by omega) (by omega) (by omega)

/-- The window of a month has 28 to 31 days. -/
theorem month_finds : ∃ n, (28 ≤ n ∧ n ≤ 31) ∧
    Finds today (calculateEarliestMonth (today.text ++ rest)) (LastDays n today) := by
  obtain ⟨before, next, thousand, year, month⟩ := month_before today gregorian
  have isDay := today.isDay
  have few := today.day_le.2
  have length := monthDays_bounds before.year before.month
  by_cases late : 28 ≤ today.day
  · rw [month_late today rest late]
    exact ⟨today.day, ⟨late, few⟩, finds_month today next (by omega) (by decide)⟩
  · rw [month_early today rest (by omega) year month]
    exact ⟨_, length, finds_before today next thousand (by omega) (by omega) (by omega)⟩

end Windows

/-! ## The answers -/

theorem path_congr {a b : List Byte} (same : a.take 6 = b.take 6) : daily.path a = daily.path b := by
  change _ ++ cstr (a.take 6) ++ _ = _ ++ cstr (b.take 6) ++ _
  rw [same]

/-- What is taken from the file of a month is in no other month. -/
theorem filter_month {entries : Month → List (Entry Day)} (own : ∀ m, ∀ e ∈ entries m, e.key.toMonth = m)
    (P : Entry Day → Prop) [DecidablePred P] (p m : Month) :
    ((entries p).filter fun e => P e).filter (fun e => e.key.index = m.index) =
      if p.index = m.index then (entries m).filter fun e => P e else [] := by
  split_ifs with same
  · rw [Month.index_injective same]
    refine List.filter_eq_self.2 fun e mem => ?_
    rw [own m e (List.mem_filter.1 mem).1]
    exact decide_eq_true rfl
  · refine List.filter_eq_nil_iff.2 fun e mem isMonth => same ?_
    rw [← own p e (List.mem_filter.1 mem).1]
    simpa using isMonth

/-- A query that finds its window answers with it. -/
theorem readDays_answers (T : Target) {disk : Disk} {today : Day} {entries : Month → List (Entry Day)}
    (files : DailyFiles disk today entries) (rest : List Byte) {earliest : Bool × Int} {window : Day → Prop}
    [DecidablePred window] (finds : Finds today earliest window) :
    AnswersDays T entries window (readDays T disk (today.text ++ rest) earliest) := by
  have len : 0 < 8 ∧ 8 ≤ 8 := by decide
  have thisMonth : (disk (daily.path (today.text ++ rest))).getD [] =
      (entries today.toMonth).flatMap (Entry.row Day.text) := by
    have path : daily.path (today.text ++ rest) = daily.path today.toMonth.text := by
      apply path_congr
      rw [Day.text, List.append_assoc, List.take_left' today.toMonth.text_length,
        List.take_of_length_le (Nat.le_of_eq today.toMonth.text_length)]
    rw [path]
    exact files.file today.toMonth
  -- of each month, the entries that are late enough and those in the window are the same
  have found (m : Month) (read : m.index = today.index ∨ earliest.1 = true ∧ m.index + 1 = today.index) :
      ((entries m).filter fun e => earliest.2 ≤ (e.key.number : Int)) = (entries m).filter fun e => window e.key := by
    refine List.filter_congr fun e mem => ?_
    have inMonth := files.own m e mem
    rw [decide_eq_decide, finds.window e.key (files.notLater m e mem), inMonth]
    exact (and_iff_right read).symm
  have missed (m : Month) (other : ¬ (m.index = today.index ∨ earliest.1 = true ∧ m.index + 1 = today.index)) :
      ((entries m).filter fun e => window e.key) = [] := by
    refine List.filter_eq_nil_iff.2 fun e mem inWindow => other ?_
    have inMonth := files.own m e mem
    rw [← inMonth]
    exact ((finds.window e.key (files.notLater m e mem)).1 (by simpa using inWindow)).1
  rw [readDays]
  by_cases flag : earliest.1 = true
  · obtain ⟨before, next, name⟩ := finds.files flag
    have lastMonth : (disk (daily.path (intText earliest.2))).getD [] =
        (entries before).flatMap (Entry.row Day.text) := by
      have path : daily.path (intText earliest.2) = daily.path before.text := by
        apply path_congr
        rw [name, List.take_of_length_le (Nat.le_of_eq before.text_length)]
      rw [path]
      exact files.file before
    rw [if_pos flag, readFile_entries T days_keys len thisMonth, readFile_entries T days_keys len lastMonth,
      List.nil_append, ← List.flatMap_append]
    refine ⟨_, rfl, fun m => ?_⟩
    rw [List.filter_append, filter_month files.own, filter_month files.own]
    by_cases first : before.index = m.index
    · rw [if_pos first, if_neg (by omega), List.append_nil]
      exact found m (.inr ⟨flag, by omega⟩)
    · rw [if_neg first, List.nil_append]
      split_ifs with this
      · exact found m (.inl this.symm)
      · exact (missed m (by rintro (same | ⟨-, same⟩) <;> omega)).symm
  · rw [if_neg flag, readFile_entries T days_keys len thisMonth, List.nil_append]
    refine ⟨_, rfl, fun m => ?_⟩
    rw [filter_month files.own]
    split_ifs with this
    · exact found m (.inl this.symm)
    · exact (missed m (by rintro (same | ⟨set, -⟩); exacts [this same.symm, flag set])).symm

theorem year_finds (today : Day) (rest : List Byte) {m : Month} (upTo : m.index ≤ today.index) :
    LastMonths 12 today.toMonth m ↔ calculateEarliestYear (today.text ++ rest) ≤ m.number := by
  obtain ⟨year, month, -⟩ := day_members today rest
  have isMonth := m.isMonth
  have isMonth' := today.isMonth
  rw [calculateEarliestYear, year, month, LastMonths]
  simp only [Month.index, Month.number] at *
  split_ifs with december
  · omega
  · omega

theorem year_answers (T : Target) {disk : Disk} (today : Day) (rest : List Byte) {months : List (Entry Month)}
    (year : YearFile disk today.toMonth months) :
    AnswersMonths T months (LastMonths 12 today.toMonth) (readYearlyEnergy T disk (today.text ++ rest)) := by
  have taken : (months.filter fun e => calculateEarliestYear (today.text ++ rest) ≤ (e.key.number : Int)) =
      months.filter fun e => LastMonths 12 today.toMonth e.key := by
    refine List.filter_congr fun e mem => ?_
    rw [decide_eq_decide]
    exact (year_finds today rest (year.notLater e mem)).symm
  rw [AnswersMonths, readYearlyEnergy, readFile_entries T months_keys (show 0 < 6 ∧ 6 ≤ 8 by decide) (year.file _),
    List.nil_append, ← taken]

/-- **The three queries**: the week has the last seven days, the month the last 28 to 31, the year the last twelve
months. -/
theorem curve_windows (T : Target) {disk : Disk} {today : Day} (gregorian : 1582 ≤ today.year) (rest : List Byte)
    {entries : Month → List (Entry Day)} (files : DailyFiles disk today entries) {months : List (Entry Month)}
    (year : YearFile disk today.toMonth months) :
    AnswersDays T entries (LastDays 7 today) (readWeeklyEnergy T disk (today.text ++ rest)) ∧
      (∃ n, (28 ≤ n ∧ n ≤ 31) ∧
        AnswersDays T entries (LastDays n today) (readMonthlyEnergy T disk (today.text ++ rest))) ∧
      AnswersMonths T months (LastMonths 12 today.toMonth) (readYearlyEnergy T disk (today.text ++ rest)) := by
  obtain ⟨n, length, finds⟩ := month_finds today gregorian rest
  exact ⟨readDays_answers T files rest (week_finds today gregorian rest),
    ⟨n, length, readDays_answers T files rest finds⟩, year_answers T today rest year⟩

/-! ## A week in two months -/

theorem path_text (m : Month) : daily.path m.text = str "/home/record/energy/" ++ m.text ++ str ".dat" := by
  change str "/home/record/energy/" ++ cstr (m.text.take 6) ++ str ".dat" = _
  have plain := plain_of_digits fun b mem => .inl (m.text_digits b mem)
  rw [List.take_of_length_le (Nat.le_of_eq m.text_length), cstr_of_clean fun b mem => (plain b mem).1]

theorem path_injective {a b : Month} (same : daily.path a.text = daily.path b.text) : a = b := by
  rw [path_text, path_text] at same
  have text : a.text = b.text := List.append_cancel_left (List.append_cancel_right same)
  have number : a.number = b.number := by rw [← a.value_text, ← b.value_text, text]
  exact Month.index_injective (Nat.le_antisymm ((a.number_le_iff b).1 number.le) ((b.number_le_iff a).1 number.ge))

theorem path_year (m : Month) (dateTime : List Byte) : monthly.path dateTime ≠ daily.path m.text := by
  intro same
  have lengths := congrArg List.length same
  rw [path_text, List.length_append, List.length_append, m.text_length] at lengths
  change (str "/home/record/energy/" ++ str "year.dat").length = _ at lengths
  rw [List.length_append] at lengths
  have year : (str "year.dat").length = 8 := rfl
  have ending : (str ".dat").length = 4 := rfl
  omega

theorem digits_2017 : 2017 < 10 ^ 4 := by
  decide

theorem july_isMonth : 1 ≤ 7 ∧ 7 ≤ 12 := by
  decide

theorem august_isMonth : 1 ≤ 8 ∧ 8 ≤ 12 := by
  decide

def july : Month :=
  ⟨2017, 7, digits_2017, july_isMonth⟩

theorem julyEnd_isDay : 1 ≤ 31 ∧ 31 ≤ monthDays 2017 7 := by
  decide

theorem august3_isDay : 1 ≤ 3 ∧ 3 ≤ monthDays 2017 8 := by
  decide

def august3 : Day :=
  ⟨⟨2017, 8, digits_2017, august_isMonth⟩, 3, august3_isDay⟩

theorem julyEnd_short : (lf 12).length < 20 := by
  decide +kernel

/-- The energy of the last day of July. -/
def julyEnd : Entry Day :=
  ⟨⟨july, 31, julyEnd_isDay⟩, 12, julyEnd_short⟩

/-- Only this energy is stored. -/
def julyDisk : Disk := fun path =>
  if path = daily.path july.text then some (julyEnd.row Day.text) else none

def julyEntries (m : Month) : List (Entry Day) :=
  if m.index = july.index then [julyEnd] else []

theorem julyDisk_daily : DailyFiles julyDisk august3 julyEntries := by
  have mem {m : Month} {e : Entry Day} (inMonth : e ∈ julyEntries m) : m = july ∧ e = julyEnd := by
    rw [julyEntries] at inMonth
    split_ifs at inMonth with same
    · exact ⟨Month.index_injective same, List.mem_singleton.1 inMonth⟩
    · exact absurd inMonth List.not_mem_nil
  refine ⟨fun m => ?_, fun m e inMonth => ?_, fun m e inMonth => ?_⟩
  · rw [julyDisk, julyEntries]
    by_cases same : m.index = july.index
    · rw [if_pos same, Month.index_injective same, if_pos rfl, Option.getD_some, List.flatMap_singleton]
    · rw [if_neg same, if_neg fun path => same (by rw [path_injective path]), Option.getD_none, List.flatMap_nil]
  · rw [(mem inMonth).1, (mem inMonth).2]
    rfl
  · rw [(mem inMonth).2, Day.count_eq, Day.count_eq]
    have next : august3.index = julyEnd.key.index + 1 := by decide
    have length : monthLength julyEnd.key.index = julyEnd.key.day := by decide
    rw [next, monthStart_succ, length]
    exact Nat.le_add_right _ _

theorem julyDisk_year : YearFile julyDisk august3.toMonth [] := by
  refine ⟨fun dateTime => ?_, fun e none => absurd none List.not_mem_nil⟩
  rw [julyDisk, if_neg (path_year july dateTime)]
  rfl

theorem curve_windows_august :
    AnswersDays sampleTarget julyEntries (LastDays 7 august3)
        (readWeeklyEnergy sampleTarget julyDisk (august3.text ++ str "120000")) ∧
      (∃ n, (28 ≤ n ∧ n ≤ 31) ∧ AnswersDays sampleTarget julyEntries (LastDays n august3)
        (readMonthlyEnergy sampleTarget julyDisk (august3.text ++ str "120000"))) ∧
      AnswersMonths sampleTarget [] (LastMonths 12 august3.toMonth)
        (readYearlyEnergy sampleTarget julyDisk (august3.text ++ str "120000")) :=
  curve_windows sampleTarget (by decide) (str "120000") julyDisk_daily julyDisk_year

end Ecu.Curves
