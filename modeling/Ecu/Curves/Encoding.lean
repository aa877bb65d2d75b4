import Ecu.Curves.Windows
import Ecu.Lib.Chunks
import Ecu.Record.Decode

/-!
# The two bytes of a power or an energy (`file.c`, `wifi_comm.c`)

The curves show a power in watts and an energy in hundredths of a kWh, in two bytes that are cut off from an `int`. The
phone sees what is stored exactly when it is below 65536 (`curve_encoding_iff`). A plant of 120 inverters goes beyond
that.
-/

namespace Ecu.Curves

open Calendar Decimal Socket Protection Command Time Totals

/-! ## The power curve -/

/-- The path in `save_system_power` and `read_system_power`. -/
def powerPath (date : List Byte) : List Byte :=
  str "/home/record/power/" ++ cstr (date.take 6) ++ str ".dat"

/-- The row of `save_system_power`, without the seconds of its date. -/
def systemPowerRow (systemPower : Int) (dateTime : List Byte) : List Byte :=
  csvRow [cstr (dateTime.take 12), intText systemPower]

/-- A turn of the loop in `read_system_power`: its buffer and what it has put into `power_buff`. -/
def powerLine (dateTime : List Byte) (s : List Byte × List Byte) (line : List Byte) : List Byte × List Byte :=
  let buff := memcpy s.1 (line ++ [nul])
  if buff[12]? = some comma ∧ buff.take 8 = dateTime.take 8 then
    (buff, s.2 ++ (packed ((buff.drop 8).take 4) ++ twoBytes (atoi (buff.drop 13))))
  else (buff, s.2)

/-- `read_system_power`; a file that is not there has no lines. -/
def readSystemPower (disk : Totals.Disk) (dateTime : List Byte) : List Byte :=
  ((Lines.readLines newline 100 ((disk (powerPath dateTime)).getD [])).foldl (powerLine dateTime)
    (List.replicate 100 nul, [])).2

/-- A line of the power file. -/
structure PowerEntry where
  day : Day
  hour : Nat
  minute : Nat
  power : Int
  isHour : hour < 24
  isMinute : minute < 60
  int : |power| < 2 ^ 31

namespace PowerEntry

def text (e : PowerEntry) : List Byte :=
  e.day.text ++ (fixed 2 e.hour ++ fixed 2 e.minute)

def row (e : PowerEntry) : List Byte :=
  csvRow [e.text, intText e.power]

end PowerEntry

/-- The power files have these lines. -/
def PowerFiles (disk : Totals.Disk) (entries : Month → List PowerEntry) : Prop :=
  ∀ m, (disk (powerPath m.text)).getD [] = (entries m).flatMap PowerEntry.row

/-! ## What the phone reads -/

/-- The number in two decimal digits of a byte. -/
def bcd (b : Byte) : Nat :=
  b.toNat / 16 * 10 + b.toNat % 16

/-- Two bytes, the high one first. -/
def word : List Byte → Int
  | [high, low] => high.toNat * 256 + low.toNat
  | _ => 0

/-- Pieces of a size: the digits, and the two bytes at the end. -/
def decode (size : Nat) (answer : List Byte) : List (List Nat × Int) :=
  (Chunks.chunks size answer).map fun piece => ((piece.take (size - 2)).map bcd, word (piece.drop (size - 2)))

/-- The stored energy, cut to hundredths. -/
def hundredths {K : Type} (e : Entry K) : Int :=
  truncate (FixedPoint.rounded 6 e.energy * 100)

/-- A value that two bytes can show. -/
def InWord (v : Int) : Prop :=
  0 ≤ v ∧ v < 65536

instance (v : Int) : Decidable (InWord v) :=
  inferInstanceAs (Decidable (_ ∧ _))

theorem toNat_toChar {v : Int} : ((toChar v).toNat : Int) = v % 256 := by
  rw [toChar, UInt8.toNat_ofNat']
  omega

theorem word_inWord (piece : List Byte) : InWord (word piece) := by
  unfold word
  split
  · rename_i high low
    have first := high.toNat_lt
    have second := low.toNat_lt
    constructor <;> omega
  · decide

/-- Two bytes show what they were made from when there is room for it. -/
theorem word_twoBytes {v : Int} (room : InWord v) : word (twoBytes v) = v := by
  obtain ⟨nonneg, small⟩ := room
  change ((toChar (v.tdiv 256)).toNat : Int) * 256 + (toChar (v.tmod 256)).toNat = v
  rw [toNat_toChar, toNat_toChar, Int.tdiv_eq_ediv_of_nonneg nonneg, Int.tmod_eq_emod_of_nonneg nonneg]
  omega

/-- Digits in pairs: a number below 100 in each byte. -/
theorem bcd_packed : ∀ n < 100, (packed (fixed 2 (n : Nat))).map bcd = [n] := by
  decide +kernel

theorem packed_append {front : List Byte} (rest : List Byte) (pairs : front.length % 2 = 0) :
    packed (front ++ rest) = packed front ++ packed rest := by
  induction front using packed.induct with
  | case1 a b front ih =>
    simp only [List.length_cons] at pairs
    rw [List.cons_append, List.cons_append, packed, packed, ih (by omega), List.cons_append]
  | case2 front short =>
    rcases front with _ | ⟨a, _ | ⟨b, front⟩⟩
    · rfl
    · exact absurd pairs Nat.one_ne_zero
    · exact absurd rfl (short a b front)

theorem year_digits {year : Nat} (fourDigits : year < 10 ^ 4) :
    fixed 4 (year : Int) = fixed 2 ((year / 100 : Nat) : Int) ++ fixed 2 ((year % 100 : Nat) : Int) := by
  have whole := value_fixed (show 0 < 4 by decide) fourDigits
  have century := value_fixed (w := 2) (n := year / 100) (by decide) (by omega)
  have rest := value_fixed (w := 2) (n := year % 100) (by decide) (by omega)
  refine eq_of_value whole.1 (fun b mem => ?_) ?_ ?_
  · rcases List.mem_append.1 mem with first | second
    · exact century.1 b first
    · exact rest.1 b second
  · rw [List.length_append, fixed_length, fixed_length, fixed_length]
  · rw [whole.2, value_append, century.2, rest.2, fixed_length]
    omega

/-- The year in two numbers, and the month. -/
def Month.numbers (m : Month) : List Nat :=
  [m.year / 100, m.year % 100, m.month]

theorem Month.bcd_text (m : Month) : (packed m.text).map bcd = m.numbers := by
  have year := m.fourDigits
  have month := m.month_digits
  rw [Month.text, year_digits m.fourDigits, List.append_assoc, packed_append _ (by rw [fixed_length]),
    packed_append _ (by rw [fixed_length]), List.map_append, List.map_append, bcd_packed _ (by omega),
    bcd_packed _ (by omega), bcd_packed _ month]
  rfl

theorem Day.bcd_text (d : Day) : (packed d.text).map bcd = d.toMonth.numbers ++ [d.day] := by
  rw [Day.text, packed_append _ (by rw [Month.text_length]), List.map_append, d.toMonth.bcd_text,
    bcd_packed _ d.day_digits]

theorem decode_inWord {size : Nat} {answer : List Byte} {item : List Nat × Int} (mem : item ∈ decode size answer) :
    InWord item.2 := by
  obtain ⟨piece, -, rfl⟩ := List.mem_map.1 mem
  exact word_inWord _

/-- Items with their digits and two bytes for a value are read back when all values have room. -/
theorem decode_items {α : Type} {size : Nat} {date : α → List Byte} {value : α → Int} {items : List α} (some : 0 < size)
    (whole : ∀ a ∈ items, (date a).length + 2 = size) (room : ∀ a ∈ items, InWord (value a)) :
    decode size (items.flatMap fun a => date a ++ twoBytes (value a)) =
      items.map fun a => ((date a).map bcd, value a) := by
  have sized : ∀ piece ∈ items.map fun a => date a ++ twoBytes (value a), piece.length = size := by
    intro piece mem
    obtain ⟨a, inItems, rfl⟩ := List.mem_map.1 mem
    rw [List.length_append]
    exact whole a inItems
  rw [decode, List.flatMap_def, Chunks.chunks_flatten some sized, List.map_map]
  refine List.map_congr_left fun a mem => ?_
  have length := whole a mem
  have digits : size - 2 = (date a).length := by omega
  rw [Function.comp_apply, digits, List.take_left' rfl, List.drop_left' rfl, word_twoBytes (room a mem)]

/-! ## The power of a day -/

namespace PowerEntry

theorem text_length (e : PowerEntry) : e.text.length = 12 := by
  rw [text, List.length_append, List.length_append, e.day.text_length, fixed_length, fixed_length]

theorem text_digits (e : PowerEntry) : ∀ b ∈ e.text, IsDigit b := by
  have hour := value_fixed (w := 2) (n := e.hour) (by decide) (by have := e.isHour; omega)
  have minute := value_fixed (w := 2) (n := e.minute) (by decide) (by have := e.isMinute; omega)
  intro b mem
  rcases List.mem_append.1 mem with inDay | inTime
  · exact e.day.text_digits b inDay
  · rcases List.mem_append.1 inTime with inHour | inMinute
    · exact hour.1 b inHour
    · exact minute.1 b inMinute

/-- It is what the round saves. -/
theorem row_saved (e : PowerEntry) (seconds : List Byte) : systemPowerRow e.power (e.text ++ seconds) = e.row := by
  have plain := plain_of_digits fun b mem => .inl (e.text_digits b mem)
  rw [systemPowerRow, List.take_left' e.text_length, cstr_of_clean fun b mem => (plain b mem).1]
  rfl

/-- The digits of its hour and its minute. -/
def clock (e : PowerEntry) : List Byte :=
  fixed 2 e.hour ++ fixed 2 e.minute

theorem clock_length (e : PowerEntry) : e.clock.length = 4 := by
  rw [clock, List.length_append, fixed_length, fixed_length]

theorem bcd_clock (e : PowerEntry) : (packed e.clock).map bcd = [e.hour, e.minute] := by
  have isHour := e.isHour
  have isMinute := e.isMinute
  rw [clock, packed_append _ (by rw [fixed_length]), List.map_append, bcd_packed _ (by omega), bcd_packed _ (by omega)]
  rfl

theorem row_clean (e : PowerEntry) : ∀ field ∈ [e.text, intText e.power], Plain field := by
  intro field mem
  rcases List.mem_cons.1 mem with rfl | last
  · exact plain_of_digits fun b inText => .inl (e.text_digits b inText)
  · rw [List.mem_singleton.1 last]
    exact plain_intText e.power

theorem row_shape (e : PowerEntry) :
    e.row = e.day.text ++ (e.clock ++ comma :: (intText e.power ++ [newline])) := by
  rw [row, csvRow_cons, csvRow, List.intercalate_singleton, text, List.append_assoc]
  rfl

theorem row_short (e : PowerEntry) : ShortLine e.row := by
  have plain := e.row_clean
  have digits : (intText e.power).length ≤ 11 := intText_length (w := 10) (by decide) (by
    have int := abs_lt.1 e.int
    omega)
  have length : e.row.length < 100 := by
    rw [row_shape, List.length_append, List.length_append, List.length_cons, List.length_append, List.length_singleton,
      e.day.text_length, e.clock_length]
    omega
  exact ⟨⟨(csvRow_isLine plain (Nat.lt_trans length (by decide))).shape, length⟩,
    csvRow_noNul fun field mem b inField => (plain field mem b inField).1⟩

end PowerEntry

theorem number_eq_iff (a b : Day) : a.text = b.text ↔ a.number = b.number := by
  constructor
  · intro same
    rw [← a.value_text, same, b.value_text]
  · intro same
    refine eq_of_value a.text_digits b.text_digits (by rw [a.text_length, b.text_length]) ?_
    rw [a.value_text, b.value_text, same]

/-- A turn adds the time and the power of its line if the line is of the day. -/
theorem powerLine_row (day : Day) (rest : List Byte) (s : List Byte × List Byte) (e : PowerEntry) :
    (powerLine (day.text ++ rest) s e.row).2 =
      s.2 ++ if e.day.number = day.number then packed e.clock ++ twoBytes e.power else [] := by
  generalize here : memcpy s.1 (e.row ++ [nul]) = buff
  have shape : ∃ tail, buff = e.day.text ++ (e.clock ++ comma :: (intText e.power ++ newline :: tail)) := by
    refine ⟨[nul] ++ s.1.drop (e.row ++ [nul]).length, ?_⟩
    rw [← here, memcpy, e.row_shape]
    simp only [List.append_assoc, List.cons_append, List.nil_append]
  obtain ⟨tail, shape⟩ := shape
  have inDay : buff.take 8 = (day.text ++ rest).take 8 ↔ e.day.number = day.number := by
    rw [shape, List.take_left' e.day.text_length, List.take_left' day.text_length]
    exact number_eq_iff e.day day
  have behind : buff.drop 8 = e.clock ++ comma :: (intText e.power ++ newline :: tail) := by
    rw [shape]
    exact List.drop_left' e.day.text_length
  have after : buff.drop 12 = comma :: (intText e.power ++ newline :: tail) := by
    have split : buff.drop 12 = (buff.drop 8).drop 4 := by rw [List.drop_drop]
    rw [split, behind]
    exact List.drop_left' e.clock_length
  have sign : buff[12]? = some comma := by
    rw [← List.head?_drop, after]
    rfl
  have power : atoi (buff.drop 13) = e.power := by
    have split : buff.drop 13 = (buff.drop 12).drop 1 := by rw [List.drop_drop]
    rw [split, after]
    exact atoi_intText e.power (stops_newline tail)
  rw [powerLine, here, behind, List.take_left' e.clock_length, power]
  by_cases same : e.day.number = day.number
  · rw [if_pos ⟨sign, inDay.2 same⟩, if_pos same]
  · rw [if_neg fun both => same (inDay.1 both.2), if_neg same, List.append_nil]

/-- Of the file of the month the entries of the day are taken. -/
theorem readSystemPower_entries {disk : Totals.Disk} {entries : Month → List PowerEntry}
    (files : PowerFiles disk entries)
    (day : Day) (rest : List Byte) : readSystemPower disk (day.text ++ rest) =
      ((entries day.toMonth).filter fun e => e.day.number = day.number).flatMap fun e =>
        packed e.clock ++ twoBytes e.power := by
  have file : (disk (powerPath (day.text ++ rest))).getD [] = ((entries day.toMonth).map PowerEntry.row).flatten := by
    have path : powerPath (day.text ++ rest) = powerPath day.toMonth.text := by
      have first : (day.text ++ rest).take 6 = day.toMonth.text.take 6 := by
        rw [Day.text, List.append_assoc, List.take_left' day.toMonth.text_length,
          List.take_of_length_le (Nat.le_of_eq day.toMonth.text_length)]
      rw [powerPath, first]
      rfl
    rw [path, files day.toMonth, List.flatMap_def]
  have short : ∀ line ∈ (entries day.toMonth).map PowerEntry.row, ShortLine line := by
    intro line mem
    obtain ⟨e, -, rfl⟩ := List.mem_map.1 mem
    exact e.row_short
  have fold (s : List Byte × List Byte) : (((entries day.toMonth).map PowerEntry.row).foldl
      (powerLine (day.text ++ rest)) s).2 = s.2 ++
        ((entries day.toMonth).filter fun e => e.day.number = day.number).flatMap fun e =>
          packed e.clock ++ twoBytes e.power := by
    clear file short
    induction entries day.toMonth generalizing s with
    | nil => rw [List.map_nil, List.foldl_nil, List.filter_nil, List.flatMap_nil, List.append_nil]
    | cons e entries ih =>
      rw [List.map_cons, List.foldl_cons, ih, powerLine_row]
      split_ifs with same
      · rw [List.filter_cons_of_pos (by simpa using same), List.flatMap_cons, List.append_assoc]
      · rw [List.filter_cons_of_neg (by simpa using same), List.append_nil]
  rw [readSystemPower, file, readLines_short short (Nat.le_refl 100), fold, List.nil_append]

/-! ## What is lost -/

/-- The phone reads the stored powers of the day. -/
def PowerLossless (powers : Month → List PowerEntry) (day : Day) (answer : List Byte) : Prop :=
  decode 4 answer = ((powers day.toMonth).filter fun e => e.day.number = day.number).map fun e =>
    ([e.hour, e.minute], e.power)

/-- The phone reads the stored energies of the days of the window, of each month in their order. -/
def DaysLossless (entries : Month → List (Entry Day)) (window : Day → Prop) [DecidablePred window]
    (answer : List Byte) : Prop :=
  ∃ read : List (Entry Day),
    decode 6 answer = read.map (fun e => (e.key.toMonth.numbers ++ [e.key.day], hundredths e)) ∧
      ∀ m : Month, read.filter (fun e => e.key.index = m.index) = (entries m).filter fun e => window e.key

/-- The phone reads the stored energies of the months of the window. -/
def MonthsLossless (entries : List (Entry Month)) (window : Month → Prop) [DecidablePred window]
    (answer : List Byte) : Prop :=
  decode 6 answer = (entries.filter fun e => window e.key).map fun e => (e.key.numbers ++ [1], hundredths e)

theorem power_lossless_iff {disk : Totals.Disk} {powers : Month → List PowerEntry} (files : PowerFiles disk powers)
    (day : Day) (rest : List Byte) : PowerLossless powers day (readSystemPower disk (day.text ++ rest)) ↔
      ∀ e ∈ powers day.toMonth, e.day.number = day.number → InWord e.power := by
  rw [PowerLossless, readSystemPower_entries files]
  constructor
  · intro same e mem ofDay
    have there : ([e.hour, e.minute], e.power) ∈
        ((powers day.toMonth).filter fun e => e.day.number = day.number).map fun e => ([e.hour, e.minute], e.power) :=
      List.mem_map_of_mem (List.mem_filter.2 ⟨mem, by simpa using ofDay⟩)
    rw [← same] at there
    exact decode_inWord there
  · intro room
    rw [decode_items (show 0 < 4 by decide)]
    · simp only [PowerEntry.bcd_clock]
    · intro e mem
      have digits := congrArg List.length e.bcd_clock
      rw [List.length_map] at digits
      rw [digits]
      rfl
    · intro e mem
      obtain ⟨inFile, ofDay⟩ := List.mem_filter.1 mem
      exact room e inFile (by simpa using ofDay)

/-- `(int)` of a number with room is the number, cut. -/
theorem toInt_inWord (T : Target) {x : ℚ} (room : InWord (truncate x)) : T.toInt x = truncate x := by
  obtain ⟨nonneg, small⟩ := room
  rw [Target.toInt, if_pos (by omega)]

/-- The digits of an entry's date, as they are read. -/
structure Digits {K : Type} (text : K → List Byte) (mark : List Byte) (numbers : K → List Nat) : Prop where
  read : ∀ k, (packed (text k) ++ mark).map bcd = numbers k
  four : ∀ k, (numbers k).length = 4

theorem days_digits : Digits Day.text [] fun d => d.toMonth.numbers ++ [d.day] := by
  refine ⟨fun d => ?_, fun d => rfl⟩
  rw [List.append_nil, d.bcd_text]

theorem months_digits : Digits Month.text [1] fun m => m.numbers ++ [1] := by
  refine ⟨fun m => ?_, fun m => rfl⟩
  rw [List.map_append, m.bcd_text]
  rfl

theorem decode_entries {K : Type} {text : K → List Byte} {mark : List Byte} {numbers : K → List Nat} (T : Target)
    (digits : Digits text mark numbers) {entries : List (Entry K)} (room : ∀ e ∈ entries, InWord (hundredths e)) :
    decode 6 (entries.flatMap (Entry.bytes T text mark)) = entries.map fun e => (numbers e.key, hundredths e) := by
  have cut : entries.flatMap (Entry.bytes T text mark) =
      entries.flatMap fun e => (packed (text e.key) ++ mark) ++ twoBytes (hundredths e) := by
    rw [List.flatMap_def, List.flatMap_def]
    refine congrArg List.flatten (List.map_congr_left fun e mem => ?_)
    rw [Entry.bytes, toInt_inWord T (room e mem)]
    rfl
  rw [cut, decode_items (show 0 < 6 by decide) (fun e mem => ?_) room]
  · simp only [digits.read]
  · have length := congrArg List.length (digits.read e.key)
    rw [List.length_map, digits.four] at length
    rw [length]

theorem days_lossless_iff {T : Target} {entries : Month → List (Entry Day)} {window : Day → Prop}
    [DecidablePred window] {answer : List Byte} (answers : AnswersDays T entries window answer) :
    DaysLossless entries window answer ↔ ∀ m, ∀ e ∈ entries m, window e.key → InWord (hundredths e) := by
  constructor
  · rintro ⟨read, same, whole⟩ m e mem inWindow
    have there : e ∈ (entries m).filter fun e => window e.key := List.mem_filter.2 ⟨mem, by simpa using inWindow⟩
    rw [← whole m] at there
    have shown : (e.key.toMonth.numbers ++ [e.key.day], hundredths e) ∈ decode 6 answer := by
      rw [same]
      exact List.mem_map_of_mem (List.mem_filter.1 there).1
    exact decode_inWord shown
  · intro room
    obtain ⟨read, rfl, whole⟩ := answers
    refine ⟨read, decode_entries T days_digits fun e mem => ?_, whole⟩
    have there : e ∈ read.filter fun f => f.key.index = e.key.toMonth.index :=
      List.mem_filter.2 ⟨mem, decide_eq_true rfl⟩
    rw [whole] at there
    obtain ⟨inFile, inWindow⟩ := List.mem_filter.1 there
    exact room _ e inFile (by simpa using inWindow)

theorem months_lossless_iff {T : Target} {entries : List (Entry Month)} {window : Month → Prop} [DecidablePred window]
    {answer : List Byte} (answers : AnswersMonths T entries window answer) :
    MonthsLossless entries window answer ↔ ∀ e ∈ entries, window e.key → InWord (hundredths e) := by
  constructor
  · intro same e mem inWindow
    have shown : (e.key.numbers ++ [1], hundredths e) ∈ decode 6 answer := by
      rw [same]
      exact List.mem_map_of_mem (List.mem_filter.2 ⟨mem, by simpa using inWindow⟩)
    exact decode_inWord shown
  · intro room
    rw [MonthsLossless, answers]
    refine decode_entries T months_digits fun e mem => ?_
    obtain ⟨inFile, inWindow⟩ := List.mem_filter.1 mem
    exact room e inFile (by simpa using inWindow)

theorem path_power (m n : Month) : powerPath m.text ≠ daily.path n.text := by
  intro same
  have plain := plain_of_digits fun b mem => .inl (m.text_digits b mem)
  have lengths := congrArg List.length same
  rw [path_text, powerPath, List.take_of_length_le (Nat.le_of_eq m.text_length),
    cstr_of_clean fun b mem => (plain b mem).1] at lengths
  simp only [List.length_append, m.text_length, n.text_length] at lengths
  have power : (str "/home/record/power/").length = 19 := rfl
  have energy : (str "/home/record/energy/").length = 20 := rfl
  omega

theorem julyDisk_power : PowerFiles julyDisk fun _ => [] := by
  intro m
  rw [julyDisk, if_neg (path_power m july)]
  rfl

section Plant

open Record

/-- A YC1000 report of 180 W on each channel. -/
def noonFrame : Frame :=
  List.replicate 7 0 ++ [0x01, 0x2C, 0x7D, 0x00, 0x00, 0x2A, 0x02, 0xA0, 0x2A, 0x02, 0xA0] ++ List.replicate 70 0

def beforeNoon : Inverter :=
  { id := str "501000000001", model := 5, dataflag := 1 }

def noonInverter : Inverter :=
  (resolvedata1000 sampleTarget sampleEcu noonFrame beforeNoon).2

theorem noon_hasId : HasId noonInverter := by
  decide +kernel

theorem noon_answered : noonInverter.dataflag = 1 := by
  decide +kernel

theorem noon_power : noonInverter.op + noonInverter.opb + noonInverter.opc + noonInverter.opd = 720 := by
  decide +kernel

/-- The most inverters that the ECU has, all with this report. -/
def noonPlant : Record.Table where
  entries := List.replicate maxInverterCount noonInverter
  size := Nat.le_of_eq List.length_replicate
  behind := by
    intro inverter mem
    rw [List.dropWhile_replicate, if_pos (decide_eq_true noon_hasId)] at mem
    cases mem

theorem noonPlant_answered : noonPlant.answered = List.replicate maxInverterCount noonInverter := by
  rw [Table.answered, Table.listed, noonPlant, List.takeWhile_replicate, if_pos (decide_eq_true noon_hasId)]
  refine List.filter_eq_self.2 fun inverter mem => ?_
  rw [List.eq_of_mem_replicate mem]
  exact decide_eq_true noon_answered

theorem noonPlant_produced : ∀ inverter ∈ noonPlant.answered, Produced sampleTarget inverter := by
  intro inverter mem
  rw [noonPlant_answered] at mem
  rw [List.eq_of_mem_replicate mem]
  exact .yc1000 sampleEcu noonFrame beforeNoon (by decide) (by decide +kernel)

theorem noonPlant_power : (getalldata sampleEcu noonPlant).systemPower = 86400 := by
  change (noonPlant.answered.map fun inverter => inverter.op + inverter.opb + inverter.opc + inverter.opd).sum = _
  rw [noonPlant_answered, List.map_replicate, noon_power, List.sum_replicate]
  rfl

/-- The power file after one round of the plant. -/
def savedPower (systemPower : Int) : Totals.Disk := fun path =>
  if path = powerPath (str "20170801120000") then some (systemPowerRow systemPower (str "20170801120000")) else none

end Plant

end Ecu.Curves
