import Ecu.Curves.Cleanup
import Ecu.Curves.Encoding
import Ecu.Lib.Pieces
import Ecu.Phone.Generation

/-!
# The replies with the curves (`file.c`, `wifi_comm.c`)

A reply has an entry for each line that the reader finds, and the reader does not know how long `SendData` is. What
bounds a reply is what the rounds have written. The file of a month has a line for each of its days at most, whatever
the clock does; but the power file gets a line for each round, and the file of the months has a line for each month
that the clock has shown. So the replies fit and have the form that they should exactly when the rounds of the day, or
the months since the first one that is asked for, are not too many (`curve_replies_iff`).
-/

namespace Ecu.Curves

open Calendar Decimal Socket Protection Command Time Totals

/-! ## The functions -/

/-- `save_system_power` -/
def saveSystemPower (disk : Disk) (systemPower : Int) (dateTime : List Byte) : Disk :=
  let file := (disk (powerPath dateTime)).getD []
  Function.update disk (powerPath dateTime) (some (file ++ systemPowerRow systemPower dateTime))

/-- `APP_Response_PowerCurve` -/
def appResponsePowerCurve (disk : Disk) (mapping : Byte) (date : List Byte) : List Byte :=
  if mapping = 0x01 then str "APS110015000301\n"
  else
    let body := readSystemPower disk date ++ str "END"
    str "APS11" ++ Phone.lengthDigits (15 + body.length) ++ str "000300" ++ body ++ [newline]

/-- The request type and the entries, as `APP_Response_GenerationCurve` chooses them. -/
def generationCurve (T : Target) (disk : Disk) (requestType : Byte) (dateTime : List Byte) : List Byte :=
  if requestType = 0x30 then str "00" ++ readWeeklyEnergy T disk dateTime
  else if requestType = 0x31 then str "01" ++ readMonthlyEnergy T disk dateTime
  else if requestType = 0x32 then str "02" ++ readYearlyEnergy T disk dateTime
  else []

/-- `APP_Response_GenerationCurve`. `dateTime` is what `apstime` gives. -/
def appResponseGenerationCurve (T : Target) (disk : Disk) (mapping requestType : Byte) (dateTime : List Byte) :
    List Byte :=
  if mapping = 0x01 then str "APS110015000401\n"
  else
    let body := generationCurve T disk requestType dateTime ++ str "END"
    str "APS11" ++ Phone.lengthDigits (15 + body.length) ++ str "000400" ++ body ++ [newline]

/-! ## The files that the rounds write -/

/-- A call that changes the files of the curves. -/
inductive RecordCall
  | saveSystemPower (systemPower : Int) (dateTime : List Byte)
  | updateDailyEnergy (call : Call)
  | updateMonthlyEnergy (call : Call)

namespace RecordCall

def apply (disk : Disk) : RecordCall → Disk
  | .saveSystemPower systemPower dateTime => Curves.saveSystemPower disk systemPower dateTime
  | .updateDailyEnergy call => daily.update disk call
  | .updateMonthlyEnergy call => monthly.update disk call

/-- The date is one of the clock, the power is an `int`, and the text of the new total has room in `energy_tmp`. -/
def Proper (disk : Disk) : RecordCall → Prop
  | .saveSystemPower systemPower dateTime => IsDate dateTime ∧ -2 ^ 31 ≤ systemPower ∧ systemPower < 2 ^ 31
  | .updateDailyEnergy call => IsDate call.dateTime ∧ (lf (daily.sum disk call)).length < 20
  | .updateMonthlyEnergy call => IsDate call.dateTime ∧ (lf (monthly.sum disk call)).length < 20

/-- The call saves a power of the day. -/
def Saves (date : List Byte) : RecordCall → Prop
  | .saveSystemPower _ dateTime => dateTime.take 8 = date.take 8
  | _ => False

instance (date : List Byte) : DecidablePred (Saves date)
  | .saveSystemPower _ dateTime => inferInstanceAs (Decidable (dateTime.take 8 = date.take 8))
  | .updateDailyEnergy _ => inferInstanceAs (Decidable False)
  | .updateMonthlyEnergy _ => inferInstanceAs (Decidable False)

/-- The month that the call gives a line. -/
def month? : RecordCall → Option (List Byte)
  | .updateMonthlyEnergy call => some (call.dateTime.take 6)
  | _ => none

end RecordCall

/-- The files after some calls, from none. -/
inductive Recorded : List RecordCall → Disk → Prop
  | start : Recorded [] fun _ => none
  | call {calls : List RecordCall} {disk : Disk} (before : Recorded calls disk) {c : RecordCall}
    (proper : c.Proper disk) : Recorded (calls ++ [c]) (c.apply disk)

/-- The months of the calls that are not before the first one, each once. -/
def monthsFrom (calls : List RecordCall) (earliest : Int) : List (List Byte) :=
  (calls.filterMap RecordCall.month?).dedup.filter fun month => earliest ≤ value month

/-! ## What the phone should get -/

/-- What the phone asks for; `mapping` is 1 where the id in the request is not that of this ECU. -/
inductive Request
  | powerCurve (mapping : Byte) (date : List Byte)
  | generationCurve (mapping requestType : Byte)

namespace Request

def mapping : Request → Byte
  | .powerCurve mapping _ => mapping
  | .generationCurve mapping _ => mapping

/-- The command and the mapping in the head. -/
def kind : Request → List Byte
  | .powerCurve mapping _ => if mapping = 0x01 then str "000301" else str "000300"
  | .generationCurve mapping _ => if mapping = 0x01 then str "000401" else str "000400"

end Request

/-- An entry of a width begins with the digits of its date, two in a byte. -/
structure EntryOf (width : Nat) (date : List Byte → List Byte) (line entry : List Byte) : Prop where
  width : entry.length = width
  date : packed (date line) <+: entry

/-- The lines of the power file. -/
def powerLines (disk : Disk) (date : List Byte) : List (List Byte) :=
  Lines.readLines newline 100 ((disk (powerPath date)).getD [])

/-- The lines of the month before, if the window begins there, and those of the month, from the first day on. -/
def daysLines (disk : Disk) (dateTime : List Byte) (earliest : Bool × Int) : List (List Byte) :=
  ((if earliest.1 then daily.lines disk (intText earliest.2) else []) ++ daily.lines disk dateTime).filter
    fun line => earliest.2 ≤ value (line.take 8)

/-- The lines of the months, from the first one on. -/
def monthsLines (disk : Disk) (dateTime : List Byte) : List (List Byte) :=
  (monthly.lines disk dateTime).filter fun line => calculateEarliestYear dateTime ≤ value (line.take 6)

/-- The request type, an entry of the width for each line, and the end. -/
def IsCurve (lead : List Byte) (width : Nat) (date : List Byte → List Byte) (lines : List (List Byte))
    (body : List Byte) : Prop :=
  ∃ entries, Pieces.Made (EntryOf width date) lines entries ∧ body = lead ++ entries ++ str "END"

/-- The body that answers the request. -/
def Request.Answers (disk : Disk) (dateTime : List Byte) (body : List Byte) : Request → Prop
  | .powerCurve mapping date =>
    if mapping = 0x01 then body = []
    else IsCurve [] 4 (fun line => (line.drop 8).take 4)
      ((powerLines disk date).filter fun line => line.take 8 = date.take 8) body
  | .generationCurve mapping requestType =>
    if mapping = 0x01 then body = []
    else if requestType = 0x30 then
      IsCurve (str "00") 6 (·.take 8) (daysLines disk dateTime (calculateEarliestWeek dateTime)) body
    else if requestType = 0x31 then
      IsCurve (str "01") 6 (·.take 8) (daysLines disk dateTime (calculateEarliestMonth dateTime)) body
    else if requestType = 0x32 then IsCurve (str "02") 6 (·.take 6) (monthsLines disk dateTime) body
    else body = str "END"

/-- The message lies in `SendData`, its four digits say how long it is, and its body answers the request. -/
structure Framed (disk : Disk) (dateTime : List Byte) (request : Request) (sendData : List Byte) : Prop where
  fits : sendData.length ≤ Phone.sendDataSize
  message : ∃ digits body, sendData = str "APS11" ++ digits ++ request.kind ++ body ++ [newline] ∧
    (digits.length = 4 ∧ ∀ b ∈ digits, IsDigit b) ∧ value digits + 1 = sendData.length ∧
      request.Answers disk dateTime body

/-- The message that is sent. -/
def respond (T : Target) (disk : Disk) (dateTime : List Byte) : Request → List Byte
  | .powerCurve mapping date => appResponsePowerCurve disk mapping date
  | .generationCurve mapping requestType => appResponseGenerationCurve T disk mapping requestType dateTime

/-- The calls have not written too many lines for the request: at most 830 powers of the day, or at most 553 months
since the one eleven months before today. -/
def Room (calls : List RecordCall) (today : Day) : Request → Prop
  | .powerCurve mapping date => mapping = 0x01 ∨ (calls.filter (RecordCall.Saves date)).length ≤ 830
  | .generationCurve mapping requestType =>
    mapping = 0x01 ∨ requestType ≠ 0x32 ∨ (monthsFrom calls (monthNumber (today.index - 11))).length ≤ 553

/-! ## The paths -/

/-- The power files lie in another directory than the files of the energies. -/
theorem powerPath_ne (date rest : List Byte) : powerPath date ≠ str "/home/record/energy/" ++ rest := by
  intro same
  have first := congrArg (·[13]?) same
  rw [powerPath] at first
  iterate 3 rw [str_ofList] at first
  cases first

theorem power_ne_temp (date : List Byte) : powerPath date ≠ daily.temp ∧ powerPath date ≠ monthly.temp := by
  have split (name : List Char) : str (String.ofList ("/home/record/energy/".toList ++ name)) =
      str "/home/record/energy/" ++ name.map Char.toUInt8 := by
    rw [str_ofList, List.map_append]
    rfl
  exact ⟨fun same => powerPath_ne date _ (same.trans (split "1.tmp".toList)),
    fun same => powerPath_ne date _ (same.trans (split "2.tmp".toList))⟩

/-- No file of an update is the temporary file of another one. -/
theorem path_ne_temp (date : List Byte) : daily.path date ≠ monthly.temp ∧ monthly.path date ≠ daily.temp := by
  have dat : (str ".dat").getLast? = some 0x74 := by
    rw [str_ofList]
    rfl
  constructor
  · have temp : monthly.temp.getLast? = some 0x70 := by
      change (str "/home/record/energy/2.tmp").getLast? = _
      rw [str_ofList]
      rfl
    refine apart_of_last (x := 0x74) (by decide) ?_ temp
    change (str "/home/record/energy/" ++ cstr (date.take 6) ++ str ".dat").getLast? = _
    rw [List.getLast?_append, dat]
    rfl
  · have temp : daily.temp.getLast? = some 0x70 := by
      change (str "/home/record/energy/1.tmp").getLast? = _
      rw [str_ofList]
      rfl
    refine apart_of_last (x := 0x74) (by decide) ?_ temp
    change (str "/home/record/energy/" ++ str "year.dat").getLast? = _
    iterate 2 rw [str_ofList]
    rfl

theorem daily_path {date : List Byte} (isDate : IsDate date) :
    daily.path date = str "/home/record/energy/" ++ (date.take 6 ++ str ".dat") := by
  have clean : cstr (date.take 6) = date.take 6 :=
    cstr_of_clean fun b mem => (isDate.plain b (List.mem_of_mem_take mem)).1
  change str "/home/record/energy/" ++ cstr (date.take 6) ++ str ".dat" = _
  rw [clean, List.append_assoc]

/-- A file whose name does not begin like `year.dat` is another one. -/
theorem daily_ne_year {name rest : List Byte} {b : Byte} (shape : name = b :: rest) (nonzero : b ≠ nul)
    (other : b ≠ 0x79) (any : List Byte) : daily.path name ≠ monthly.path any := by
  intro same
  have path : daily.path name = str "/home/record/energy/" ++ (b :: cstr (rest.take 5) ++ str ".dat") := by
    change str "/home/record/energy/" ++ cstr (name.take 6) ++ str ".dat" = _
    rw [shape, List.take_succ_cons, cstr, List.takeWhile_cons_of_pos (by simpa using nonzero), List.append_assoc]
    rfl
  have names : b :: cstr (rest.take 5) ++ str ".dat" = str "year.dat" := List.append_cancel_left (path.symm.trans same)
  rw [show str "year.dat" = [0x79, 0x65, 0x61, 0x72, 0x2E, 0x64, 0x61, 0x74] from str_ofList _] at names
  exact other (List.cons.inj names).1

theorem date_ne_year {date : List Byte} (isDate : IsDate date) (any : List Byte) :
    daily.path date ≠ monthly.path any := by
  obtain ⟨b, rest, shape⟩ := List.exists_cons_of_length_eq_add_one isDate.fourteen
  have here : b ∈ date := shape ▸ List.mem_cons_self
  refine daily_ne_year shape (isDate.plain b here).1 (fun first => ?_) any
  have digit := isDate.digits b here
  rw [first] at digit
  exact absurd digit (by decide)

/-- The file of the first month has a number for its name. -/
theorem number_ne_year (v : Int) (any : List Byte) : daily.path (intText v) ≠ monthly.path any := by
  obtain ⟨b, rest, shape⟩ := List.exists_cons_of_ne_nil (intText_ne_nil v)
  have here : b ∈ intText v := shape ▸ List.mem_cons_self
  refine daily_ne_year shape (plain_intText v b here).1 (fun first => ?_) any
  have char := intText_chars v b here
  rw [first] at char
  exact absurd char (by decide)

theorem today_ne_year (today : Day) (clock any : List Byte) :
    daily.path (today.text ++ clock) ≠ monthly.path any := by
  obtain ⟨b, rest, shape⟩ := List.exists_cons_of_length_eq_add_one today.text_length
  have digit := today.text_digits b (shape ▸ List.mem_cons_self)
  have chars : b ≠ nul ∧ b ≠ 0x79 := by
    constructor
    · rintro rfl
      exact absurd digit (by decide)
    · rintro rfl
      exact absurd digit (by decide)
  exact daily_ne_year (by rw [shape, List.cons_append]) chars.1 chars.2 any

/-- Dates with one file are of one month. -/
theorem month_of_path {a b : List Byte} (left : IsDate a) (right : IsDate b) (same : daily.path a = daily.path b) :
    a.take 6 = b.take 6 := by
  rw [daily_path left, daily_path right] at same
  exact List.append_cancel_right (List.append_cancel_left same)

theorem powerPath_congr {a b : List Byte} (same : a.take 8 = b.take 8) : powerPath a = powerPath b := by
  have month := congrArg (List.take 6) same
  rw [List.take_take, List.take_take] at month
  rw [powerPath, powerPath, show a.take 6 = b.take 6 from month]

/-! ## What the calls keep -/

/-- A file of energies, each of its lines with the date of a call that writes to it. -/
structure FileOf (p : Period) (disk : Disk) (name : List Byte) : Prop where
  kept : p.Kept ((disk (p.path name)).getD [])
  own : ∀ line ∈ p.lines disk name, ∃ date, IsDate date ∧ p.path date = p.path name ∧
    line.take p.len = date.take p.len

/-- A line of a power file. -/
structure IsPowerRow (row : List Byte) : Prop where
  short : ShortLine row
  sep : row[12]? = some comma

/-- A power file has a line for each call that has saved a power of the day. -/
structure PowerFile (calls : List RecordCall) (disk : Disk) (date : List Byte) : Prop where
  rows : Lines.MadeOf IsPowerRow ((disk (powerPath date)).getD [])
  count : ((powerLines disk date).filter fun line => line.take 8 = date.take 8).length =
    (calls.filter (RecordCall.Saves date)).length

/-- What holds of the files after the calls. -/
structure Holds (calls : List RecordCall) (disk : Disk) : Prop where
  power : ∀ date, PowerFile calls disk date
  days : ∀ name, daily.path name ≠ monthly.path name → FileOf daily disk name
  months : ∀ name, FileOf monthly disk name
  keys : ∀ name month, month ∈ (monthly.lines disk name).map (·.take 6) ↔ month ∈ calls.filterMap RecordCall.month?

section Update

variable {p : Period} {disk : Disk} {name : List Byte}

theorem FileOf.frame {disk' : Disk} (same : disk' (p.path name) = disk (p.path name)) (file : FileOf p disk name) :
    FileOf p disk' name := by
  obtain ⟨kept, own⟩ := file
  rw [Period.lines] at own
  exact ⟨same ▸ kept, by rwa [Period.lines, same]⟩

/-- The energy of a line that the readers can take in. -/
theorem fits_of_room {date : List Byte} (isDate : IsDate date) {energy : ℚ} (room : (lf energy).length < 20) :
    p.Fits date energy := by
  have few := p.few
  rw [Period.Fits, row_eq isDate, List.length_append, key_length p isDate, List.length_cons, List.length_append,
    List.length_singleton]
  omega

theorem FileOf.update {call : Call} (isCall : IsDate call.dateTime) (room : (lf (p.sum disk call)).length < 20)
    (file : FileOf p disk name) : FileOf p (p.update disk call) name := by
  obtain ⟨kept, lines⟩ := kept_update file.kept isCall (fits_of_room isCall room)
  refine ⟨kept, fun line mem => ?_⟩
  rw [lines] at mem
  split_ifs at mem with same
  · rcases Keyed.mem_put.1 mem with ⟨old, -⟩ | rfl
    · exact file.own line old
    · exact ⟨call.dateTime, isCall, same.symm, row_key isCall _⟩
  · exact file.own line mem

end Update

section PowerRow

variable {systemPower : Int} {dateTime : List Byte} (isDate : IsDate dateTime)

include isDate

theorem systemPowerRow_eq :
    systemPowerRow systemPower dateTime = dateTime.take 12 ++ comma :: (intText systemPower ++ [newline]) := by
  have clean : cstr (dateTime.take 12) = dateTime.take 12 :=
    cstr_of_clean fun b mem => (isDate.plain b (List.mem_of_mem_take mem)).1
  rw [systemPowerRow, clean, csvRow_cons, csvRow, List.intercalate_singleton]

theorem minute_length : (dateTime.take 12).length = 12 := by
  rw [List.length_take, isDate.fourteen]
  rfl

theorem systemPowerRow_day : (systemPowerRow systemPower dateTime).take 8 = dateTime.take 8 := by
  rw [systemPowerRow_eq isDate, List.take_append_of_le_length (by rw [minute_length isDate]; decide), List.take_take]
  rfl

theorem isPowerRow (int : -2 ^ 31 ≤ systemPower ∧ systemPower < 2 ^ 31) :
    IsPowerRow (systemPowerRow systemPower dateTime) := by
  have plain : ∀ field ∈ [cstr (dateTime.take 12), intText systemPower], Plain field := by
    intro field mem
    have clean : cstr (dateTime.take 12) = dateTime.take 12 :=
      cstr_of_clean fun b there => (isDate.plain b (List.mem_of_mem_take there)).1
    rw [clean, List.mem_cons, List.mem_singleton] at mem
    rcases mem with rfl | rfl
    · exact fun b there => isDate.plain b (List.mem_of_mem_take there)
    · exact plain_intText systemPower
  have digits : (intText systemPower).length ≤ 11 := intText_length (w := 10) (by decide) (by omega)
  have length : (systemPowerRow systemPower dateTime).length < 100 := by
    rw [systemPowerRow_eq isDate, List.length_append, minute_length isDate, List.length_cons, List.length_append,
      List.length_singleton]
    omega
  refine ⟨⟨⟨(csvRow_isLine plain (Nat.lt_trans length (by decide))).shape, length⟩,
    csvRow_noNul fun field mem b there => (plain field mem b there).1⟩, ?_⟩
  rw [systemPowerRow_eq isDate, List.getElem?_append_right (Nat.le_of_eq (minute_length isDate)), minute_length isDate]
  rfl

end PowerRow

theorem length_filter_snoc {α : Type} (P : α → Prop) [DecidablePred P] (xs : List α) (a : α) :
    ((xs ++ [a]).filter P).length = (xs.filter P).length + if P a then 1 else 0 := by
  rw [← List.countP_eq_length_filter, ← List.countP_eq_length_filter, List.countP_append, List.countP_singleton]
  simp only [decide_eq_true_eq]

section PowerFile

variable {calls : List RecordCall} {disk disk' : Disk} {c : RecordCall} {date : List Byte}

theorem powerLines_rows (rows : Lines.MadeOf IsPowerRow ((disk (powerPath date)).getD [])) :
    (∀ line ∈ powerLines disk date, IsPowerRow line) ∧
      (disk (powerPath date)).getD [] = (powerLines disk date).flatten := by
  obtain ⟨lines, same, each⟩ := rows
  rw [powerLines, same, readLines_short (fun line mem => (each line mem).short) (Nat.le_refl 100)]
  exact ⟨each, rfl⟩

/-- A call for another file. -/
theorem PowerFile.frame (file : PowerFile calls disk date) (same : disk' (powerPath date) = disk (powerPath date))
    (other : ¬ c.Saves date) : PowerFile (calls ++ [c]) disk' date := by
  obtain ⟨rows, count⟩ := file
  refine ⟨same ▸ rows, ?_⟩
  rw [powerLines, same, length_filter_snoc, if_neg other]
  exact count

/-- A round adds its row, which counts if it is of the day. -/
theorem PowerFile.save (file : PowerFile calls disk date) {systemPower : Int} {dateTime : List Byte}
    (isDate : IsDate dateTime) (int : -2 ^ 31 ≤ systemPower ∧ systemPower < 2 ^ 31) :
    PowerFile (calls ++ [.saveSystemPower systemPower dateTime]) (saveSystemPower disk systemPower dateTime) date := by
  by_cases same : powerPath date = powerPath dateTime
  · obtain ⟨rows, content⟩ := powerLines_rows file.rows
    have row := isPowerRow isDate int
    have after : (saveSystemPower disk systemPower dateTime (powerPath date)).getD [] =
        (powerLines disk date ++ [systemPowerRow systemPower dateTime]).flatten := by
      rw [saveSystemPower, same, Function.update_self, Option.getD_some, ← same, List.flatten_append,
        List.flatten_singleton, ← content]
    have each : ∀ line ∈ powerLines disk date ++ [systemPowerRow systemPower dateTime], IsPowerRow line := by
      intro line mem
      rcases List.mem_append.1 mem with old | new
      · exact rows line old
      · exact List.mem_singleton.1 new ▸ row
    refine ⟨⟨_, after, each⟩, ?_⟩
    rw [powerLines, after, readLines_short (fun line mem => (each line mem).short) (Nat.le_refl 100),
      length_filter_snoc, length_filter_snoc, file.count, systemPowerRow_day isDate]
    rfl
  · refine file.frame ?_ fun own => same (powerPath_congr own).symm
    rw [saveSystemPower, Function.update_of_ne same]

end PowerFile

section Steps

variable {calls : List RecordCall} {disk : Disk}

theorem Holds.keeps (holds : Holds calls disk) : daily.Keeps disk ∧ monthly.Keeps disk :=
  ⟨fun date isDate => (holds.days date (date_ne_year isDate date)).kept, fun date _ => (holds.months date).kept⟩

theorem holds_start : Holds [] fun _ => none := by
  have none (p : Period) (name : List Byte) : FileOf p (fun _ => none) name :=
    ⟨(keptKeyed_iff fun _ mem => absurd mem List.not_mem_nil).2 List.nodup_nil,
      fun _ mem => absurd mem List.not_mem_nil⟩
  exact ⟨fun _ => ⟨Lines.MadeOf.nil, rfl⟩, fun name _ => none daily name, none monthly, fun _ _ => Iff.rfl⟩

theorem Holds.save (holds : Holds calls disk) {systemPower : Int} {dateTime : List Byte} (isDate : IsDate dateTime)
    (int : -2 ^ 31 ≤ systemPower ∧ systemPower < 2 ^ 31) :
    Holds (calls ++ [.saveSystemPower systemPower dateTime]) (saveSystemPower disk systemPower dateTime) := by
  have others (rest : List Byte) : saveSystemPower disk systemPower dateTime (str "/home/record/energy/" ++ rest) =
      disk (str "/home/record/energy/" ++ rest) :=
    Function.update_of_ne (powerPath_ne dateTime rest).symm _ _
  have days (name : List Byte) : saveSystemPower disk systemPower dateTime (daily.path name) =
      disk (daily.path name) := by
    have path : daily.path name = str "/home/record/energy/" ++ (cstr (name.take 6) ++ str ".dat") :=
      List.append_assoc ..
    rw [path]
    exact others _
  have year (name : List Byte) : saveSystemPower disk systemPower dateTime (monthly.path name) =
      disk (monthly.path name) :=
    others _
  refine ⟨fun date => (holds.power date).save isDate int, fun name other => (holds.days name other).frame (days name),
    fun name => (holds.months name).frame (year name), fun name month => ?_⟩
  rw [Period.lines, year name, List.filterMap_append]
  exact (holds.keys name month).trans (by simp [RecordCall.month?])

theorem Holds.updateDaily (holds : Holds calls disk) {call : Call} (isCall : IsDate call.dateTime)
    (room : (lf (daily.sum disk call)).length < 20) :
    Holds (calls ++ [.updateDailyEnergy call]) (daily.update disk call) := by
  have power (date : List Byte) : daily.update disk call (powerPath date) = disk (powerPath date) :=
    update_other (fun same => powerPath_ne date _ (same.trans (daily_path isCall))) (power_ne_temp date).1
  have year (name : List Byte) : daily.update disk call (monthly.path name) = disk (monthly.path name) :=
    update_other (date_ne_year isCall name).symm (path_ne_temp name).2
  refine ⟨fun date => (holds.power date).frame (power date) id, fun name other => (holds.days name other).update isCall
    room, fun name => (holds.months name).frame (year name), fun name month => ?_⟩
  rw [Period.lines, year name, List.filterMap_append]
  exact (holds.keys name month).trans (by simp [RecordCall.month?])

theorem Holds.updateMonthly (holds : Holds calls disk) {call : Call} (isCall : IsDate call.dateTime)
    (room : (lf (monthly.sum disk call)).length < 20) :
    Holds (calls ++ [.updateMonthlyEnergy call]) (monthly.update disk call) := by
  have power (date : List Byte) : monthly.update disk call (powerPath date) = disk (powerPath date) :=
    update_other (powerPath_ne date _) (power_ne_temp date).2
  refine ⟨fun date => (holds.power date).frame (power date) id, fun name other => (holds.days name other).frame ?_,
    fun name => (holds.months name).update isCall room, fun name month => ?_⟩
  · exact update_other other (path_ne_temp name).1
  · have lines := (kept_update (holds.months name).kept isCall (fits_of_room isCall room)).2
    rw [if_pos (show monthly.path name = monthly.path call.dateTime from rfl)] at lines
    have key : (monthly.row call.dateTime (monthly.sum disk call)).take 6 = call.dateTime.take 6 :=
      row_key (p := monthly) isCall _
    rw [lines, List.filterMap_append, List.mem_append]
    refine Keyed.mem_keys_put.trans (or_congr (holds.keys name month) ?_)
    rw [key]
    exact List.mem_singleton.symm

theorem Holds.call (holds : Holds calls disk) {c : RecordCall} (proper : c.Proper disk) :
    Holds (calls ++ [c]) (c.apply disk) := by
  cases c with
  | saveSystemPower systemPower dateTime => exact holds.save proper.1 proper.2
  | updateDailyEnergy call => exact holds.updateDaily proper.1 proper.2
  | updateMonthlyEnergy call => exact holds.updateMonthly proper.1 proper.2

theorem Recorded.holds (recorded : Recorded calls disk) : Holds calls disk := by
  induction recorded with
  | start => exact holds_start
  | call before proper ih => exact ih.call proper

end Steps

/-! ## What the readers put out -/

theorem packed_length (text : List Byte) : (packed text).length = text.length / 2 := by
  induction text using packed.induct with
  | case1 a b rest ih =>
    rw [packed, List.length_cons, List.length_cons, List.length_cons, ih]
    omega
  | case2 text short =>
    rcases text with _ | ⟨a, _ | ⟨b, rest⟩⟩
    · rfl
    · rw [packed, List.length_singleton]
      · rfl
      · exact short
    · exact absurd rfl (short a b rest)

theorem entryOf {width : Nat} {date : List Byte → List Byte} {line mark : List Byte} (v : Int)
    (sizes : (date line).length / 2 + mark.length + 2 = width) :
    EntryOf width date line (packed (date line) ++ mark ++ twoBytes v) := by
  refine ⟨?_, ⟨mark ++ twoBytes v, (List.append_assoc ..).symm⟩⟩
  rw [List.length_append, List.length_append, packed_length]
  exact sizes

/-- The front of the buffer is that of the line. -/
theorem take_buff {row : List Byte} {len : Nat} (inside : len ≤ row.length) (buff : List Byte) :
    (memcpy buff (row ++ [nul])).take len = row.take len := by
  rw [memcpy, List.append_assoc, List.take_append_of_le_length inside]

section ReadLine

variable (T : Target) {q : Query} {row : List Byte} (sep : row[q.len]? = some comma)
  (digits : ∀ b ∈ row.take q.len, IsDigit b) (some : 0 < q.len) (s : Reading)

include sep digits some

theorem atoi_row : atoi ((memcpy s.buff (row ++ [nul])).take q.len) = value (row.take q.len) := by
  have inside := (List.getElem?_eq_some_iff.1 sep).1
  rw [take_buff (Nat.le_of_lt inside)]
  refine atoi_of_digits (List.ne_nil_of_length_pos ?_) digits
  rw [List.length_take]
  omega

theorem readLine_late (late : q.earliest ≤ value (row.take q.len)) : ∃ energy, (readLine T q s row).powerBuff =
    s.powerBuff ++ (packed (row.take q.len) ++ q.mark ++ twoBytes energy) := by
  have inside := (List.getElem?_eq_some_iff.1 sep).1
  have date := take_buff (Nat.le_of_lt inside) s.buff
  rw [readLine]
  dsimp only
  rw [if_pos (by rw [atoi_row sep digits some]; exact late), date]
  exact ⟨_, rfl⟩

theorem readLine_early (early : ¬ q.earliest ≤ value (row.take q.len)) :
    (readLine T q s row).powerBuff = s.powerBuff := by
  rw [readLine]
  dsimp only
  rw [if_neg (by rw [atoi_row sep digits some]; exact early)]

end ReadLine

/-- A query puts out an entry for each line of the file that is not too early. -/
theorem readFile_made (T : Target) (p : Period) (mark : List Byte) (some : 0 < p.len)
    (sizes : p.len / 2 + mark.length + 2 = 6) (earliest : Int) {disk : Disk} {name : List Byte}
    (file : FileOf p disk name) (s : Reading) : ∃ text, Pieces.Made (EntryOf 6 (·.take p.len))
        ((p.lines disk name).filter fun line => earliest ≤ value (line.take p.len)) text ∧
      (readFile T ⟨p.len, mark, earliest⟩ disk (p.path name) s).powerBuff = s.powerBuff ++ text := by
  obtain ⟨rows, -⟩ := lines_kept file.kept
  have sep : ∀ line ∈ p.lines disk name, (line)[p.len]? = .some comma := fun line mem => (rows line mem).sep
  have digits : ∀ line ∈ p.lines disk name, ∀ b ∈ line.take p.len, IsDigit b := by
    intro line mem b inKey
    obtain ⟨date, isDate, -, own⟩ := file.own line mem
    rw [own] at inKey
    exact isDate.digits b (List.mem_of_mem_take inKey)
  refine Pieces.Made.foldl Reading.powerBuff (fun line mem late s => ?_) (fun line mem early s => ?_) s
  · obtain ⟨energy, added⟩ := @readLine_late T ⟨p.len, mark, earliest⟩ line (sep line mem) (digits line mem) some s late
    refine ⟨_, entryOf energy ?_, added⟩
    have inside := (List.getElem?_eq_some_iff.1 (sep line mem)).1
    rw [List.length_take_of_le (Nat.le_of_lt inside)]
    exact sizes
  · exact @readLine_early T ⟨p.len, mark, earliest⟩ line (sep line mem) (digits line mem) some s early

section PowerLine

variable {row : List Byte} (isRow : IsPowerRow row) {date : List Byte} (s : List Byte × List Byte)

include isRow

/-- What the loop sees of the line in its buffer. -/
theorem power_buff : (memcpy s.1 (row ++ [nul]))[12]? = some comma ∧
    (memcpy s.1 (row ++ [nul])).take 8 = row.take 8 ∧
      ((memcpy s.1 (row ++ [nul])).drop 8).take 4 = (row.drop 8).take 4 := by
  have inside := (List.getElem?_eq_some_iff.1 isRow.sep).1
  have front : (memcpy s.1 (row ++ [nul])).take 13 = row.take 13 := take_buff inside s.1
  have sign := congrArg (·[12]?) front
  have day := congrArg (List.take 8) front
  have clock := congrArg (fun text => (text.drop 8).take 4) front
  rw [List.getElem?_take_of_lt (by decide), List.getElem?_take_of_lt (by decide), isRow.sep] at sign
  rw [List.take_take, List.take_take] at day
  rw [List.drop_take, List.drop_take, List.take_take, List.take_take] at clock
  exact ⟨sign, day, clock⟩

theorem powerLine_own (own : row.take 8 = date.take 8) : ∃ power, (powerLine date s row).2 =
    s.2 ++ (packed ((row.drop 8).take 4) ++ [] ++ twoBytes power) := by
  obtain ⟨sign, day, clock⟩ := power_buff isRow s
  rw [powerLine]
  rw [if_pos ⟨sign, day.trans own⟩, clock, List.append_nil]
  exact ⟨_, rfl⟩

theorem powerLine_other (other : row.take 8 ≠ date.take 8) : (powerLine date s row).2 = s.2 := by
  obtain ⟨-, day, -⟩ := power_buff isRow s
  rw [powerLine]
  rw [if_neg fun both => other (day.symm.trans both.2)]

end PowerLine

/-- `read_system_power` puts out an entry for each line of the day. -/
theorem readSystemPower_made {disk : Disk} {date : List Byte}
    (rows : Lines.MadeOf IsPowerRow ((disk (powerPath date)).getD [])) :
    Pieces.Made (EntryOf 4 fun line => (line.drop 8).take 4)
      ((powerLines disk date).filter fun line => line.take 8 = date.take 8) (readSystemPower disk date) := by
  obtain ⟨each, -⟩ := powerLines_rows rows
  have loop : ∀ s : List Byte × List Byte, ∃ text, Pieces.Made (EntryOf 4 fun line => (line.drop 8).take 4)
      ((powerLines disk date).filter fun line => line.take 8 = date.take 8) text ∧
        ((powerLines disk date).foldl (powerLine date) s).2 = s.2 ++ text := by
    refine Pieces.Made.foldl Prod.snd (fun line mem own s => ?_) (fun line mem other s => ?_)
    · obtain ⟨power, added⟩ := powerLine_own (each line mem) s own
      have inside := (List.getElem?_eq_some_iff.1 (each line mem).sep).1
      refine ⟨_, entryOf power ?_, added⟩
      rw [List.length_take_of_le (by rw [List.length_drop]; omega)]
      rfl
    · exact powerLine_other (each line mem) s other
  obtain ⟨text, made, whole⟩ := loop (List.replicate 100 nul, [])
  rw [readSystemPower]
  exact (List.nil_append text ▸ whole) ▸ made

section Days

variable {calls : List RecordCall} {disk : Disk}

/-- `read_weekly_energy` and `read_monthly_energy` put out an entry for each line from the first day on. -/
theorem readDays_made (holds : Holds calls disk) (T : Target) {dateTime : List Byte}
    (month : daily.path dateTime ≠ monthly.path dateTime) (earliest : Bool × Int) :
    Pieces.Made (EntryOf 6 (·.take 8)) (daysLines disk dateTime earliest) (readDays T disk dateTime earliest) := by
  have file {name : List Byte} (other : daily.path name ≠ monthly.path name) (s : Reading) :
      ∃ text, Pieces.Made (EntryOf 6 (·.take 8))
          ((daily.lines disk name).filter fun line => earliest.2 ≤ value (line.take 8)) text ∧
        (readFile T ⟨8, [], earliest.2⟩ disk (daily.path name) s).powerBuff = s.powerBuff ++ text :=
    readFile_made T daily [] (by decide) (by decide) earliest.2 (holds.days name other) s
  rw [daysLines, List.filter_append, readDays]
  split_ifs with before
  · obtain ⟨first, madeFirst, outFirst⟩ := file (number_ne_year earliest.2 _) {}
    obtain ⟨second, madeSecond, outSecond⟩ := file month
      (readFile T ⟨8, [], earliest.2⟩ disk (daily.path (intText earliest.2)) {})
    rw [outSecond, outFirst]
    exact madeFirst.append madeSecond
  · obtain ⟨second, madeSecond, outSecond⟩ := file month {}
    rw [outSecond]
    exact madeSecond

/-- `read_yearly_energy` puts out an entry for each line from the first month on. -/
theorem readYearlyEnergy_made (holds : Holds calls disk) (T : Target) (dateTime : List Byte) :
    Pieces.Made (EntryOf 6 (·.take 6)) (monthsLines disk dateTime) (readYearlyEnergy T disk dateTime) := by
  obtain ⟨text, made, out⟩ := readFile_made T monthly [1] (by decide) (by decide) (calculateEarliestYear dateTime)
    (holds.months dateTime) {}
  have whole : readYearlyEnergy T disk dateTime = text := out
  rw [whole]
  exact made

end Days

/-! ## How many lines there are -/

section TwoDigits

variable {date : List Byte} (isDate : IsDate date)

include isDate

theorem two_digits : ((date.drop 6).take 2).length = 2 ∧ ∀ b ∈ (date.drop 6).take 2, IsDigit b := by
  constructor
  · rw [List.length_take, List.length_drop, isDate.fourteen]
    rfl
  · exact fun b mem => isDate.digits b (List.mem_of_mem_drop (List.mem_of_mem_take mem))

end TwoDigits

/-- The file of a month has a line for each two digits at most. -/
theorem days_few {disk : Disk} {name : List Byte} (file : FileOf daily disk name) :
    (daily.lines disk name).length ≤ 100 := by
  have once : ((daily.lines disk name).map (·.take 8)).Nodup := file.kept.once
  have own : ∀ key ∈ (daily.lines disk name).map (·.take 8), ∃ date, IsDate date ∧
      daily.path date = daily.path name ∧ key = date.take 6 ++ (date.drop 6).take 2 := by
    intro key mem
    obtain ⟨line, inFile, rfl⟩ := List.mem_map.1 mem
    obtain ⟨date, isDate, path, here⟩ := file.own line inFile
    have parts : date.take 8 = date.take 6 ++ (date.drop 6).take 2 :=
      show date.take (6 + 2) = _ from List.take_add
    exact ⟨date, isDate, path, here.trans parts⟩
  have six {date : List Byte} (isDate : IsDate date) : (date.take 6).length = 6 := by
    rw [List.length_take, isDate.fourteen]
    rfl
  rw [← List.length_map (f := (·.take 8))]
  generalize (daily.lines disk name).map (·.take 8) = keys at once own
  have numbers : (keys.map fun key => value (key.drop 6)).Nodup := by
    refine once.map_on fun first inFirst second inSecond same => ?_
    obtain ⟨a, isDate, path, rfl⟩ := own first inFirst
    obtain ⟨b, isDate', path', rfl⟩ := own second inSecond
    rw [List.drop_left' (six isDate), List.drop_left' (six isDate')] at same
    obtain ⟨length, digits⟩ := two_digits isDate
    obtain ⟨length', digits'⟩ := two_digits isDate'
    rw [month_of_path isDate isDate' (path.trans path'.symm),
      eq_of_value digits digits' (length.trans length'.symm) same]
  have below : (keys.map fun key => value (key.drop 6)) ⊆ List.range 100 := by
    intro n mem
    obtain ⟨key, inKeys, rfl⟩ := List.mem_map.1 mem
    obtain ⟨date, isDate, -, rfl⟩ := own key inKeys
    obtain ⟨length, digits⟩ := two_digits isDate
    have bound := value_lt _ digits
    rw [length] at bound
    rw [List.drop_left' (six isDate)]
    exact List.mem_range.2 bound
  have few := (List.subperm_of_subset numbers below).length_le
  rwa [List.length_map, List.length_range] at few

theorem daysLines_few {calls : List RecordCall} {disk : Disk} (holds : Holds calls disk) {dateTime : List Byte}
    (month : daily.path dateTime ≠ monthly.path dateTime) (earliest : Bool × Int) :
    (daysLines disk dateTime earliest).length ≤ 200 := by
  have today := days_few (holds.days dateTime month)
  have before : (if earliest.1 then daily.lines disk (intText earliest.2) else []).length ≤ 100 := by
    split_ifs
    · exact days_few (holds.days _ (number_ne_year earliest.2 _))
    · exact Nat.zero_le _
  refine (List.length_filter_le _ _).trans ?_
  rw [List.length_append]
  omega

/-- The lines of the months are counted by the calls. -/
theorem monthsLines_count {calls : List RecordCall} {disk : Disk} (holds : Holds calls disk) (dateTime : List Byte) :
    (monthsLines disk dateTime).length = (monthsFrom calls (calculateEarliestYear dateTime)).length :=
  Keyed.length_filter_key (holds.months dateTime).kept.once (holds.keys dateTime)
    fun month => calculateEarliestYear dateTime ≤ value month

theorem calculateEarliestYear_eq (today : Day) (clock : List Byte) :
    calculateEarliestYear (today.text ++ clock) = monthNumber (today.index - 11) := by
  obtain ⟨year, month, -⟩ := day_members today clock
  have isMonth := today.isMonth
  rw [calculateEarliestYear, year, month, monthNumber, Month.index]
  split_ifs with december <;> omega

/-! ## The frame -/

theorem lengthDigits_value {n : Nat} (small : n < 10000) :
    (∀ b ∈ Phone.lengthDigits n, IsDigit b) ∧ value (Phone.lengthDigits n) = n := by
  have each : ∀ d < 10, IsDigit (digit d) ∧ (digit d).toNat - 48 = d := by decide
  constructor
  · simp only [Phone.lengthDigits, List.forall_mem_cons]
    exact ⟨(each _ (by omega)).1, (each _ (by omega)).1, (each _ (by omega)).1, (each _ (by omega)).1, by simp⟩
  · simp only [Phone.lengthDigits, value, List.foldl_cons, List.foldl_nil]
    rw [(each (n / 1000) (by omega)).2, (each (n / 100 % 10) (by omega)).2, (each (n / 10 % 10) (by omega)).2,
      (each (n % 10) (by omega)).2]
    omega

theorem Request.kind_length (request : Request) : request.kind.length = 6 := by
  have kinds : (str "000301").length = 6 ∧ (str "000300").length = 6 ∧ (str "000401").length = 6 ∧
      (str "000400").length = 6 := by
    iterate 4 rw [str_ofList]
    decide
  cases request with
  | powerCurve mapping date =>
    rw [Request.kind]
    split_ifs
    · exact kinds.1
    · exact kinds.2.1
  | generationCurve mapping requestType =>
    rw [Request.kind]
    split_ifs
    · exact kinds.2.2.1
    · exact kinds.2.2.2

section Message

variable {disk : Disk} {dateTime : List Byte} {request : Request} {body : List Byte}

/-- A message is as it should be if `SendData` has room for it; then its length has four digits at most. -/
theorem framed_iff (answers : request.Answers disk dateTime body) :
    Framed disk dateTime request
        (str "APS11" ++ Phone.lengthDigits (15 + body.length) ++ request.kind ++ body ++ [newline]) ↔
      body.length ≤ 3324 := by
  have size : Phone.sendDataSize = 3340 := by decide
  have five : (str "APS11").length = 5 := by
    rw [str_ofList]
    rfl
  have length : (str "APS11" ++ Phone.lengthDigits (15 + body.length) ++ request.kind ++ body ++ [newline]).length =
      16 + body.length := by
    have four : (Phone.lengthDigits (15 + body.length)).length = 4 := rfl
    rw [List.length_append, List.length_append, List.length_append, List.length_append, five, four,
      request.kind_length, List.length_singleton]
    omega
  constructor
  · intro framed
    have fits := framed.fits
    rw [length, size] at fits
    omega
  · intro few
    obtain ⟨digits, total⟩ := @lengthDigits_value (15 + body.length) (by omega)
    refine ⟨by rw [length, size]; omega, Phone.lengthDigits (15 + body.length), body, rfl, ⟨rfl, digits⟩, ?_, answers⟩
    rw [total, length]
    omega

theorem end_length : (str "END").length = 3 := by
  rw [str_ofList]
  rfl

theorem lead_length : (str "00").length = 2 ∧ (str "01").length = 2 ∧ (str "02").length = 2 := by
  iterate 3 rw [str_ofList]
  decide

theorem curve_length {lead : List Byte} {width : Nat} {date : List Byte → List Byte} {lines : List (List Byte)}
    (curve : IsCurve lead width date lines body) : body.length = lead.length + width * lines.length + 3 := by
  obtain ⟨entries, made, rfl⟩ := curve
  rw [List.length_append, List.length_append, end_length, made.length_eq fun _ _ own => own.width]

end Message

section Replies

variable {calls : List RecordCall} {disk : Disk} (T : Target) (dateTime : List Byte)

/-- The answer to a request for another ECU. -/
theorem mismatch_framed {request : Request} (other : request.mapping = 0x01) :
    Framed disk dateTime request (respond T disk dateTime request) := by
  have texts : str "APS110015000301\n" = str "APS11" ++ Phone.lengthDigits 15 ++ str "000301" ++ [] ++ [newline] ∧
      str "APS110015000401\n" = str "APS11" ++ Phone.lengthDigits 15 ++ str "000401" ++ [] ++ [newline] := by
    iterate 5 rw [str_ofList]
    decide
  have empty : request.Answers disk dateTime [] := by
    cases request with
    | powerCurve mapping date => exact (if_pos other).symm.mp rfl
    | generationCurve mapping requestType => exact (if_pos other).symm.mp rfl
  have framed := (framed_iff empty).2 (Nat.zero_le _)
  cases request with
  | powerCurve mapping date =>
    rw [Request.mapping] at other
    rw [Request.kind, if_pos other, List.length_nil, ← texts.1] at framed
    rwa [respond, appResponsePowerCurve, if_pos other]
  | generationCurve mapping requestType =>
    rw [Request.mapping] at other
    rw [Request.kind, if_pos other, List.length_nil, ← texts.2] at framed
    rwa [respond, appResponseGenerationCurve, if_pos other]

variable (holds : Holds calls disk)

include holds

theorem powerCurve_framed_iff {mapping : Byte} (matched : mapping ≠ 0x01) (date : List Byte) :
    Framed disk dateTime (.powerCurve mapping date) (appResponsePowerCurve disk mapping date) ↔
      (calls.filter (RecordCall.Saves date)).length ≤ 830 := by
  obtain ⟨rows, count⟩ := holds.power date
  have curve : IsCurve [] 4 (fun line => (line.drop 8).take 4)
      ((powerLines disk date).filter fun line => line.take 8 = date.take 8)
      (readSystemPower disk date ++ str "END") :=
    ⟨_, readSystemPower_made rows, rfl⟩
  have answers : Request.Answers disk dateTime (readSystemPower disk date ++ str "END") (.powerCurve mapping date) := by
    rwa [Request.Answers, if_neg matched]
  have framed := framed_iff answers
  rw [Request.kind, if_neg matched] at framed
  rw [appResponsePowerCurve, if_neg matched, framed, curve_length curve, count, List.length_nil]
  omega

omit holds in
theorem generation_framed_iff {mapping requestType : Byte} (matched : mapping ≠ 0x01)
    (answers : Request.Answers disk dateTime (generationCurve T disk requestType dateTime ++ str "END")
      (.generationCurve mapping requestType)) :
    Framed disk dateTime (.generationCurve mapping requestType)
        (appResponseGenerationCurve T disk mapping requestType dateTime) ↔
      (generationCurve T disk requestType dateTime ++ str "END").length ≤ 3324 := by
  have framed := framed_iff answers
  rw [Request.kind, if_neg matched] at framed
  rw [appResponseGenerationCurve, if_neg matched, framed]

/-- A curve of days fits. -/
theorem daysCurve_framed {mapping requestType : Byte} (matched : mapping ≠ 0x01)
    (month : daily.path dateTime ≠ monthly.path dateTime) {lead : List Byte} (two : lead.length = 2)
    {earliest : Bool × Int}
    (curve : generationCurve T disk requestType dateTime = lead ++ readDays T disk dateTime earliest)
    (answers : ∀ body, IsCurve lead 6 (·.take 8) (daysLines disk dateTime earliest) body →
      Request.Answers disk dateTime body (.generationCurve mapping requestType)) :
    Framed disk dateTime (.generationCurve mapping requestType)
      (appResponseGenerationCurve T disk mapping requestType dateTime) := by
  have isCurve : IsCurve lead 6 (·.take 8) (daysLines disk dateTime earliest)
      (generationCurve T disk requestType dateTime ++ str "END") :=
    ⟨_, readDays_made holds T month earliest, by rw [curve]⟩
  have few := daysLines_few holds month earliest
  refine (generation_framed_iff T dateTime matched (answers _ isCurve)).2 ?_
  rw [curve_length isCurve, two]
  omega

theorem weekCurve_framed {mapping : Byte} (matched : mapping ≠ 0x01)
    (month : daily.path dateTime ≠ monthly.path dateTime) : Framed disk dateTime (.generationCurve mapping 0x30)
      (appResponseGenerationCurve T disk mapping 0x30 dateTime) := by
  refine daysCurve_framed T dateTime holds matched month lead_length.1 rfl fun body curve => ?_
  rwa [Request.Answers, if_neg matched, if_pos rfl]

theorem monthCurve_framed {mapping : Byte} (matched : mapping ≠ 0x01)
    (month : daily.path dateTime ≠ monthly.path dateTime) : Framed disk dateTime (.generationCurve mapping 0x31)
      (appResponseGenerationCurve T disk mapping 0x31 dateTime) := by
  refine daysCurve_framed T dateTime holds matched month lead_length.2.1 rfl fun body curve => ?_
  rwa [Request.Answers, if_neg matched, if_neg (by decide), if_pos rfl]

theorem yearCurve_framed_iff {mapping : Byte} (matched : mapping ≠ 0x01) :
    Framed disk dateTime (.generationCurve mapping 0x32) (appResponseGenerationCurve T disk mapping 0x32 dateTime) ↔
      (monthsFrom calls (calculateEarliestYear dateTime)).length ≤ 553 := by
  have curve : IsCurve (str "02") 6 (·.take 6) (monthsLines disk dateTime)
      (generationCurve T disk 0x32 dateTime ++ str "END") :=
    ⟨_, readYearlyEnergy_made holds T dateTime, rfl⟩
  have answers : Request.Answers disk dateTime (generationCurve T disk 0x32 dateTime ++ str "END")
      (.generationCurve mapping 0x32) := by
    rwa [Request.Answers, if_neg matched, if_neg (by decide), if_neg (by decide), if_pos rfl]
  rw [generation_framed_iff T dateTime matched answers, curve_length curve, lead_length.2.2,
    monthsLines_count holds dateTime]
  omega

omit holds in
/-- A request type that there is not. -/
theorem otherCurve_framed {mapping requestType : Byte} (matched : mapping ≠ 0x01) (notWeek : requestType ≠ 0x30)
    (notMonth : requestType ≠ 0x31) (notYear : requestType ≠ 0x32) :
    Framed disk dateTime (.generationCurve mapping requestType)
      (appResponseGenerationCurve T disk mapping requestType dateTime) := by
  have none : generationCurve T disk requestType dateTime = [] := by
    rw [generationCurve, if_neg notWeek, if_neg notMonth, if_neg notYear]
  refine (generation_framed_iff T dateTime matched ?_).2 ?_
  · rw [Request.Answers, if_neg matched, if_neg notWeek, if_neg notMonth, if_neg notYear, none]
    rfl
  · rw [none, List.nil_append, end_length]
    decide

end Replies

/-- **Curve replies**: a reply lies in `SendData`, says its length, and has an entry for each line that the request asks
for and nothing else, if and only if it is not a power curve of a day with more than 830 rounds, nor a year's curve with
more than 553 months since its first one. -/
theorem curve_replies_iff (T : Target) {calls : List RecordCall} {disk : Disk} (recorded : Recorded calls disk)
    (today : Day) (clock : List Byte) (request : Request) :
    Framed disk (today.text ++ clock) request (respond T disk (today.text ++ clock) request) ↔
      Room calls today request := by
  have holds := recorded.holds
  have month := today_ne_year today clock (today.text ++ clock)
  by_cases other : request.mapping = 0x01
  · refine ⟨fun _ => ?_, fun _ => mismatch_framed T _ other⟩
    cases request with
    | powerCurve mapping date => exact .inl other
    | generationCurve mapping requestType => exact .inl other
  · cases request with
    | powerCurve mapping date => exact (powerCurve_framed_iff _ holds other date).trans (or_iff_right other).symm
    | generationCurve mapping requestType =>
      have matched : mapping ≠ 0x01 := other
      rw [respond, Room]
      by_cases year : requestType = 0x32
      · rw [year, yearCurve_framed_iff T _ holds matched, calculateEarliestYear_eq, or_iff_right matched,
          or_iff_right (not_not.2 rfl)]
      · refine ⟨fun _ => .inr (.inl year), fun _ => ?_⟩
        by_cases week : requestType = 0x30
        · exact week ▸ weekCurve_framed T _ holds matched month
        · by_cases days : requestType = 0x31
          · exact days ▸ monthCurve_framed T _ holds matched month
          · exact otherCurve_framed T _ matched week days year

/-! ## A round, and 831 of them -/

def roundDate : List Byte :=
  str "20170718120000"

def sampleRound : List RecordCall :=
  [.saveSystemPower 480 roundDate, .updateDailyEnergy ⟨1 / 4, roundDate⟩, .updateMonthlyEnergy ⟨1 / 4, roundDate⟩]

def roundDisk : Disk :=
  sampleRound.foldl RecordCall.apply fun _ => none

theorem roundDisk_recorded : Recorded sampleRound roundDisk := by
  have isDate : IsDate roundDate := isDate_sample
  have power := Recorded.start.call (c := .saveSystemPower 480 roundDate) ⟨isDate, by decide, by decide⟩
  have days := power.call (c := .updateDailyEnergy ⟨1 / 4, roundDate⟩) ⟨isDate, by decide +kernel⟩
  exact days.call ⟨isDate, by decide +kernel⟩

theorem curve_replies_sample :
    Framed roundDisk (august3.text ++ str "120000") (.powerCurve 0x00 (str "20170718"))
        (respond sampleTarget roundDisk (august3.text ++ str "120000") (.powerCurve 0x00 (str "20170718"))) ∧
      Framed roundDisk (august3.text ++ str "120000") (.generationCurve 0x00 0x32)
        (respond sampleTarget roundDisk (august3.text ++ str "120000") (.generationCurve 0x00 0x32)) :=
  ⟨(curve_replies_iff sampleTarget roundDisk_recorded august3 (str "120000") _).2 (.inr (by decide +kernel)),
    (curve_replies_iff sampleTarget roundDisk_recorded august3 (str "120000") _).2 (.inr (.inr (by decide +kernel)))⟩

/-- Any number of rounds can have one date. -/
theorem rounds_recorded (n : Nat) : ∃ disk, Recorded (List.replicate n (.saveSystemPower 480 roundDate)) disk := by
  induction n with
  | zero => exact ⟨_, .start⟩
  | succ n ih =>
    obtain ⟨disk, before⟩ := ih
    rw [List.replicate_succ']
    exact ⟨_, before.call ⟨isDate_sample, by decide, by decide⟩⟩

/-- The curve of a day with 831 rounds goes beyond `SendData`. -/
theorem rounds_overrun : ¬ ∀ (T : Target) (calls : List RecordCall) (disk : Disk), Recorded calls disk →
    ∀ (today : Day) (clock : List Byte) (request : Request),
      Framed disk (today.text ++ clock) request (respond T disk (today.text ++ clock) request) := by
  intro claim
  obtain ⟨disk, recorded⟩ := rounds_recorded 831
  have framed := claim sampleTarget _ disk recorded august3 (str "120000") (.powerCurve 0x00 roundDate)
  have few := (powerCurve_framed_iff _ recorded.holds (by decide) roundDate).1 framed
  rw [List.filter_replicate, if_pos (by exact decide_eq_true rfl), List.length_replicate] at few
  exact absurd few (by decide)

end Ecu.Curves
