import Ecu.Curves.Dates
import Ecu.Time.Timezone
import Ecu.Totals.Sums

/-!
# The energies that the phone asks for (`file.c`)

The phone asks for the energies of the days of a week or of a month, or of the months of a year, up to today. A query
computes the first day or month of its window as a number, reads the file of the month before if the window begins
there, then the file of the month, and takes each line whose date is not smaller (`readFile_entries`). Its buffers
keep what they had from the line before, which nothing depends on.
-/

namespace Ecu.Curves

open Calendar Decimal Socket Protection Command Time Totals

/-! ## The reading of a file -/

/-- `(c1-'0')*16 + (c2-'0')` for each two characters. -/
def packed : List Byte → List Byte
  | a :: b :: rest => ((a - 0x30) * 16 + (b - 0x30)) :: packed rest
  | _ => []

/-- An `int` put into a `char`. -/
def toChar (v : Int) : Byte :=
  UInt8.ofNat (v % 256).toNat

/-- `v/256` and `v%256` -/
def twoBytes (v : Int) : List Byte :=
  [toChar (v.tdiv 256), toChar (v.tmod 256)]

/-- The buffers of a query, and what it has put into `power_buff`. -/
structure Reading where
  buff : List Byte := List.replicate 100 nul
  energyTmp : List Byte := List.replicate 20 nul
  powerBuff : List Byte := []

/-- What tells the queries apart: the length of a date, what follows it in the answer, and the first date. -/
structure Query where
  len : Nat
  mark : List Byte
  earliest : Int

/-- A turn of the loops: `fgets` has put the line into `buff`. -/
def readLine (T : Target) (q : Query) (s : Reading) (line : List Byte) : Reading :=
  let buff := memcpy s.buff (line ++ [nul])
  let dateTmp := buff.take q.len
  if atoi dateTmp ≥ q.earliest then
    let energyTmp := memcpy s.energyTmp ((buff.drop (q.len + 1)).take (strlen buff - (q.len + 1)))
    let energy := T.toInt (atof energyTmp * 100)
    { buff, energyTmp, powerBuff := s.powerBuff ++ (packed dateTmp ++ q.mark ++ twoBytes energy) }
  else { s with buff }

/-- A file that is not there has no lines. -/
def readFile (T : Target) (q : Query) (disk : Disk) (path : List Byte) (s : Reading) : Reading :=
  (Lines.readLines newline 100 ((disk path).getD [])).foldl (readLine T q) s

/-! ## The queries -/

/-- `calculate_earliest_week`: whether the window begins in the month before, and its first day. -/
def calculateEarliestWeek (date : List Byte) : Bool × Int :=
  let year := atoi (date.take 4)
  let month := atoi ((date.drop 4).take 2)
  let day := atoi ((date.drop 6).take 2)
  if day > 7 then (false, year * 10000 + month * 100 + day - 6)
  else
    let count := 7 - day
    let year' := if month - 1 = 0 then year - 1 else year
    let month' := if month - 1 = 0 then 12 else month - 1
    (true, year' * 10000 + month' * 100 + (daysOf (leap year') (month' - 1) + 1 - count))

/-- `calculate_earliest_month` -/
def calculateEarliestMonth (date : List Byte) : Bool × Int :=
  let year := atoi (date.take 4)
  let month := atoi ((date.drop 4).take 2)
  let day := atoi ((date.drop 6).take 2)
  if day ≥ 28 then (false, year * 10000 + month * 100 + 1)
  else
    let year' := if month - 1 = 0 then year - 1 else year
    let month' := if month - 1 = 0 then 12 else month - 1
    (true, year' * 10000 + month' * 100 + (day + 1))

/-- `calculate_earliest_year` -/
def calculateEarliestYear (date : List Byte) : Int :=
  let year := atoi (date.take 4)
  let month := atoi ((date.drop 4).take 2)
  if month = 12 then year * 100 + 1 else (year - 1) * 100 + (month + 1)

/-- The two loops of a query for days; the first file has the name that the number of the first day gives. -/
def readDays (T : Target) (disk : Disk) (dateTime : List Byte) (earliest : Bool × Int) : List Byte :=
  let q : Query := ⟨8, [], earliest.2⟩
  let s : Reading := {}
  let s := if earliest.1 then readFile T q disk (daily.path (intText earliest.2)) s else s
  (readFile T q disk (daily.path dateTime) s).powerBuff

/-- `read_weekly_energy` -/
def readWeeklyEnergy (T : Target) (disk : Disk) (dateTime : List Byte) : List Byte :=
  readDays T disk dateTime (calculateEarliestWeek dateTime)

/-- `read_monthly_energy` -/
def readMonthlyEnergy (T : Target) (disk : Disk) (dateTime : List Byte) : List Byte :=
  readDays T disk dateTime (calculateEarliestMonth dateTime)

/-- `read_yearly_energy` -/
def readYearlyEnergy (T : Target) (disk : Disk) (dateTime : List Byte) : List Byte :=
  (readFile T ⟨6, [1], calculateEarliestYear dateTime⟩ disk (monthly.path dateTime) {}).powerBuff

/-! ## What is stored -/

/-- A line of an energy file; its text has room in `energy_tmp`. -/
structure Entry (K : Type) where
  key : K
  energy : ℚ
  short : (lf energy).length < 20

/-- The line as the updates write it. -/
def Entry.row {K : Type} (text : K → List Byte) (e : Entry K) : List Byte :=
  csvRow [text e.key, lf e.energy]

/-- Its bytes in an answer: the digits of the date, and the hundredths of the energy. -/
def Entry.bytes {K : Type} (T : Target) (text : K → List Byte) (mark : List Byte) (e : Entry K) : List Byte :=
  packed (text e.key) ++ mark ++ twoBytes (T.toInt (FixedPoint.rounded 6 e.energy * 100))

/-- The files of the months have these days, none later than today. -/
structure DailyFiles (disk : Disk) (today : Day) (entries : Month → List (Entry Day)) : Prop where
  file : ∀ m, (disk (daily.path m.text)).getD [] = (entries m).flatMap (Entry.row Day.text)
  own : ∀ m, ∀ e ∈ entries m, e.key.toMonth = m
  notLater : ∀ m, ∀ e ∈ entries m, e.key.count ≤ today.count

/-- The file of the months has these, none later than this month. -/
structure YearFile (disk : Disk) (today : Month) (entries : List (Entry Month)) : Prop where
  file : ∀ dateTime, (disk (monthly.path dateTime)).getD [] = entries.flatMap (Entry.row Month.text)
  notLater : ∀ e ∈ entries, e.key.index ≤ today.index

/-! ## A line -/

theorem row_shape (key : List Byte) (energy : ℚ) :
    csvRow [key, lf energy] = key ++ comma :: (lf energy ++ [newline]) := by
  rw [csvRow_cons, csvRow, List.intercalate_singleton]

section Line

variable {key : List Byte} (digits : ∀ b ∈ key, IsDigit b)

include digits

theorem row_clean (energy : ℚ) : ∀ field ∈ [key, lf energy], Plain field := by
  intro field mem
  rcases List.mem_cons.1 mem with rfl | last
  · exact plain_of_digits fun b inKey => .inl (digits b inKey)
  · rw [List.mem_singleton.1 last]
    exact plain_lf energy

theorem row_short (few : key.length ≤ 8) {energy : ℚ} (short : (lf energy).length < 20) :
    ShortLine (csvRow [key, lf energy]) := by
  have plain := row_clean digits energy
  have length : (csvRow [key, lf energy]).length < 100 := by
    rw [row_shape, List.length_append, List.length_cons, List.length_append, List.length_singleton]
    omega
  exact ⟨⟨(csvRow_isLine plain (by omega)).shape, length⟩,
    csvRow_noNul fun field mem b inField => (plain field mem b inField).1⟩

/-- A turn adds the date and the energy of its line if the date is not too early. -/
theorem readLine_row (T : Target) {q : Query} (len : key.length = q.len) (some : key ≠ []) (s : Reading) (energy : ℚ) :
    (readLine T q s (csvRow [key, lf energy])).powerBuff = s.powerBuff ++
      if q.earliest ≤ value key then
        packed key ++ q.mark ++ twoBytes (T.toInt (FixedPoint.rounded 6 energy * 100)) else [] := by
  have clean : ∀ b ∈ csvRow [key, lf energy], b ≠ nul :=
    csvRow_noNul fun field mem b inField => (row_clean digits energy field mem b inField).1
  have whole := cstr_memcpy s.buff clean
  generalize here : memcpy s.buff (csvRow [key, lf energy] ++ [nul]) = buff at whole
  have shape : ∃ rest, buff = key ++ comma :: (lf energy ++ [newline]) ++ rest := by
    refine ⟨[nul] ++ s.buff.drop (csvRow [key, lf energy] ++ [nul]).length, ?_⟩
    rw [← here, memcpy, List.append_assoc, row_shape]
  obtain ⟨rest, shape⟩ := shape
  have date : buff.take q.len = key := by
    rw [shape, List.append_assoc]
    exact List.take_left' len
  have size : strlen buff - (q.len + 1) = (lf energy ++ [newline]).length := by
    rw [strlen, whole, row_shape, List.length_append, List.length_cons, len]
    omega
  have text : (buff.drop (q.len + 1)).take (strlen buff - (q.len + 1)) = lf energy ++ [newline] := by
    have behind : buff.drop (q.len + 1) = lf energy ++ [newline] ++ rest := by
      rw [shape, List.append_cons, List.append_assoc]
      exact List.drop_left' (by rw [List.length_append, List.length_singleton, len])
    rw [size, behind]
    exact List.take_left' rfl
  have energyOf : atof (memcpy s.energyTmp (lf energy ++ [newline])) = FixedPoint.rounded 6 energy := by
    rw [memcpy, List.append_assoc]
    exact atof_lf energy (stops_newline _)
  rw [readLine, here]
  dsimp only
  rw [date, text, energyOf, atoi_of_digits some digits]
  split_ifs with late
  · rfl
  · rw [List.append_nil]

end Line

/-! ## A file -/

/-- The dates as the queries see them. -/
structure Keys {K : Type} (text : K → List Byte) (number : K → Nat) (len : Nat) : Prop where
  digits : ∀ k, ∀ b ∈ text k, IsDigit b
  length : ∀ k, (text k).length = len
  value : ∀ k, value (text k) = number k

theorem days_keys : Keys Day.text Day.number 8 :=
  ⟨Day.text_digits, Day.text_length, Day.value_text⟩

theorem months_keys : Keys Month.text Month.number 6 :=
  ⟨Month.text_digits, Month.text_length, Month.value_text⟩

/-- Of a file the entries are taken whose dates are not too early. -/
theorem readFile_entries {K : Type} {text : K → List Byte} {number : K → Nat} (T : Target) {q : Query}
    (keys : Keys text number q.len) (len : 0 < q.len ∧ q.len ≤ 8) {disk : Disk} {path : List Byte}
      {entries : List (Entry K)}
    (file : (disk path).getD [] = entries.flatMap (Entry.row text)) (s : Reading) :
    (readFile T q disk path s).powerBuff = s.powerBuff ++
      (entries.filter fun e => q.earliest ≤ number e.key).flatMap (Entry.bytes T text q.mark) := by
  have short : ∀ line ∈ entries.map (Entry.row text), ShortLine line := by
    intro line mem
    obtain ⟨e, -, rfl⟩ := List.mem_map.1 mem
    exact row_short (keys.digits e.key) (by rw [keys.length]; exact len.2) e.short
  rw [readFile, file, List.flatMap_def, readLines_short short (Nat.le_refl 100)]
  clear file short
  induction entries generalizing s with
  | nil => rw [List.map_nil, List.foldl_nil, List.filter_nil, List.flatMap_nil, List.append_nil]
  | cons e entries ih =>
    have some : text e.key ≠ [] := by
      have length := keys.length e.key
      rintro none
      rw [none] at length
      exact absurd length (Nat.ne_of_lt len.1)
    rw [List.map_cons, List.foldl_cons, ih, Entry.row, readLine_row (keys.digits e.key) T (keys.length e.key) some,
      keys.value]
    split_ifs with late
    · rw [List.filter_cons_of_pos (by simpa using late), List.flatMap_cons, List.append_assoc]
      rfl
    · rw [List.filter_cons_of_neg (by simpa using late), List.append_nil]

end Ecu.Curves
