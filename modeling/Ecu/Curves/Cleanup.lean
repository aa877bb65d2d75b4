import Ecu.Curves.Dates

/-!
# The end of old power curves (`file.c`)

`delete_system_power_2_month_ago` takes the first six characters of each name in `/home/record/power` for the number
of a month, with `atoi`, and removes the file if the number is that of the month two months before or a smaller one.
The months are right, also in January and February; but a name that is not a month has a small number as a rule
(`cleanup_iff`).
-/

namespace Ecu.Curves

open Socket

/-- `calculate_earliest_2_month_ago`; without a month `earliest_data` is not written. -/
def calculateEarliest2MonthAgo (date : List Byte) : Option Int :=
  let year := atoi (date.take 4)
  let month := atoi ((date.drop 4).take 2)
  if month ≥ 3 then some (year * 100 + (month - 2))
  else if month = 2 then some ((year - 1) * 100 + 12)
  else if month = 1 then some ((year - 1) * 100 + 11)
  else none

/-- `file_data` -/
def fileData (name : List Byte) : Int :=
  atoi (name.take 6)

/-- `delete_system_power_2_month_ago`: the names that are left. `garbage` stands in `earliest_data` before. -/
def deleteSystemPower2MonthAgo (garbage : Int) (dateTime : List Byte) (names : List (List Byte)) : List (List Byte) :=
  let earliestData := (calculateEarliest2MonthAgo dateTime).getD garbage
  names.filter fun name => ¬ fileData name ≤ earliestData

/-- The number of the month with this index; before the year 0 it goes on downwards. -/
def monthNumber (index : Int) : Int :=
  index / 12 * 100 + (index % 12 + 1)

/-- The file of a month that is at least two months before. -/
def Old (today : Month) (name : List Byte) : Prop :=
  ∃ m : Month, name = m.file ∧ m.index + 2 ≤ today.index

/-- The old months are removed, and nothing else. -/
structure CleansUp (today : Month) (names kept : List (List Byte)) : Prop where
  gone : ∀ name ∈ kept, ¬ Old today name
  others : ∀ name ∈ names, ¬ Old today name → name ∈ kept
  sublist : kept.Sublist names

theorem Month.number_eq (m : Month) : (m.number : Int) = monthNumber m.index := by
  have isMonth := m.isMonth
  rw [Month.number, Month.index, monthNumber]
  omega

theorem monthNumber_le_iff (a b : Int) : monthNumber a ≤ monthNumber b ↔ a ≤ b := by
  rw [monthNumber, monthNumber]
  omega

theorem calculateEarliest_eq (today : Month) (rest : List Byte) :
    calculateEarliest2MonthAgo (today.text ++ rest) = some (monthNumber (today.index - 2)) := by
  have isMonth := today.isMonth
  rw [calculateEarliest2MonthAgo, today.atoi_year, today.atoi_month, monthNumber, Month.index]
  split_ifs with third second first
  · congr 1
    omega
  · congr 1
    omega
  · congr 1
    omega
  · omega

theorem fileData_file (m : Month) : fileData m.file = m.number := by
  rw [fileData, Month.file, List.take_left' m.text_length, m.atoi_text]

/-- The cleanup removes the old months and nothing else exactly when every other name has a number that is greater than
that of the month two months before. -/
theorem cleanup_iff (garbage : Int) (today : Month) (rest : List Byte) (names : List (List Byte)) :
    CleansUp today names (deleteSystemPower2MonthAgo garbage (today.text ++ rest) names) ↔
      ∀ name ∈ names, (∃ m : Month, name = m.file) ∨ monthNumber (today.index - 2) < fileData name := by
  rw [deleteSystemPower2MonthAgo, calculateEarliest_eq, Option.getD_some]
  have old (m : Month) : fileData m.file ≤ monthNumber (today.index - 2) ↔ m.index + 2 ≤ today.index := by
    rw [fileData_file, m.number_eq, monthNumber_le_iff]
    omega
  constructor
  · intro cleansUp name mem
    by_contra neither
    obtain ⟨foreign, small⟩ := not_or.1 neither
    have stays := cleansUp.others name mem fun ⟨m, isFile, _⟩ => foreign ⟨m, isFile⟩
    have large : ¬ fileData name ≤ monthNumber (today.index - 2) := by simpa using (List.mem_filter.1 stays).2
    omega
  · intro each
    refine ⟨fun name mem => ?_, fun name mem young => ?_, List.filter_sublist⟩
    · rintro ⟨m, rfl, before⟩
      have large : ¬ fileData m.file ≤ monthNumber (today.index - 2) := by simpa using (List.mem_filter.1 mem).2
      exact large ((old m).2 before)
    · refine List.mem_filter.2 ⟨mem, decide_eq_true ?_⟩
      rcases each name mem with ⟨m, rfl⟩ | large
      · exact fun small => young ⟨m, rfl, (old m).1 small⟩
      · exact Int.not_le.2 large

theorem january_digits : 2018 < 10 ^ 4 := by
  decide

theorem january_isMonth : 1 ≤ 1 ∧ 1 ≤ 12 := by
  decide

/-- January 2018. -/
def january : Month :=
  ⟨2018, 1, january_digits, january_isMonth⟩

/-- A name without a number is taken for an old one. -/
theorem foreign_removed : ¬ ∀ (garbage : Int) (today : Month) (rest : List Byte) (names : List (List Byte)),
    CleansUp today names (deleteSystemPower2MonthAgo garbage (today.text ++ rest) names) := by
  intro all
  have foreign : ¬ Old january (str "readme.txt") := by
    rintro ⟨m, isFile, -⟩
    have number := congrArg fileData isFile
    have none : fileData (str "readme.txt") = 0 := by
      rw [str_ofList]
      decide
    have isMonth := m.isMonth
    rw [none, fileData_file, Month.number] at number
    omega
  have stays := (all 0 january [] [str "readme.txt"]).others _ (List.mem_singleton_self _) foreign
  have large := (List.mem_filter.1 stays).2
  rw [calculateEarliest_eq, Option.getD_some, str_ofList] at large
  exact absurd large (by decide)

end Ecu.Curves
