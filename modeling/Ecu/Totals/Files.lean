import Ecu.Command.Ird

/-!
# The energy of the days and months (`update_daily_energy`, `update_monthly_energy`)

Each month has a file with a line for each of its days, and one file has a line for each month. A call looks for the
line of its day, takes it out by way of a temporary file, and puts the new total at the end. Each operation on a file
can fail, and the call can stop before it.
-/

namespace Ecu.Totals

open Command

/-- The files by their paths. -/
abbrev Disk := List Byte → Option (List Byte)

/-- The operations of a call in their order. `puts n` is the `fputs` of the line `n` in `delete_line`. -/
inductive Op
  | openSearch
  | openFile
  | openTemp
  | puts (n : Nat)
  | remove
  | rename
  | openAppend
  | write
  deriving DecidableEq

/-- What goes wrong in a call. -/
inductive Fault
  | fails (op : Op)
  | stops (op : Op)
  deriving DecidableEq

/-- Whether an operation is carried out; where the call stops before it, the files are left as they are. -/
def attempt (fault : Option Fault) (op : Op) (disk : Disk) : Except Disk Bool :=
  if fault = some (.stops op) then .error disk else .ok (fault ≠ some (.fails op))

@[simp] theorem attempt_none (op : Op) (disk : Disk) : attempt none op disk = .ok true := rfl

/-- The files after the call, whether it has stopped or not. -/
def afterwards : Except Disk Disk → Disk
  | .error disk => disk
  | .ok disk => disk

/-- What the two functions do differently: how much of the date tells the lines apart, and where the files are. -/
structure Period where
  len : Nat
  path : List Byte → List Byte
  temp : List Byte
  few : len ≤ 14
  own : ∀ {a b : List Byte}, a.take len = b.take len → path a = path b
  apart : ∀ date, path date ≠ temp

theorem apart_of_last {a b : List Byte} {x y : Byte} (other : x ≠ y) (left : a.getLast? = some x)
    (right : b.getLast? = some y) : a ≠ b := by
  rintro rfl
  rw [left] at right
  exact other (Option.some_inj.1 right)

/-- `update_daily_energy`: the first eight characters are the day, the first six its month. -/
def daily : Period where
  len := 8
  path date := str "/home/record/energy/" ++ cstr (date.take 6) ++ str ".dat"
  temp := str "/home/record/energy/1.tmp"
  few := by decide
  own {a b} same := by
    have month := congrArg (List.take 6) same
    rw [List.take_take, List.take_take] at month
    rw [show a.take 6 = b.take 6 from month]
  apart date := by
    have last : (str ".dat").getLast? = some 0x74 := by
      rw [str_ofList]
      rfl
    have temp : (str "/home/record/energy/1.tmp").getLast? = some 0x70 := by
      rw [str_ofList]
      rfl
    refine apart_of_last (x := 0x74) (by decide) ?_ temp
    rw [List.getLast?_append, last]
    rfl

/-- `update_monthly_energy`: the first six characters are the month, and there is one file. -/
def monthly : Period where
  len := 6
  path _ := str "/home/record/energy/" ++ str "year.dat"
  temp := str "/home/record/energy/2.tmp"
  few := by decide
  own _ := rfl
  apart _ := by
    have last : (str "/home/record/energy/" ++ str "year.dat").getLast? = some 0x74 := by
      rw [str_ofList, str_ofList]
      rfl
    have temp : (str "/home/record/energy/2.tmp").getLast? = some 0x70 := by
      rw [str_ofList]
      rfl
    exact apart_of_last (by decide) last temp

/-! ## The functions -/

/-- The loop of `search_daily_energy`; `buff` is its buffer. -/
def searchLoop (date : List Byte) (len : Nat) : List Byte → List (List Byte) → Option ℚ
  | _, [] => none
  | buff, line :: lines =>
    let buff := memcpy buff (line ++ [nul])
    if buff[len]? = some comma ∧ buff.take len = date.take len then some (atof (buff.drop (len + 1)))
    else searchLoop date len buff lines

/-- The loop of `delete_line`: what is put into the temporary file, and whether the loop comes to its end. -/
def copyLoop (fault : Option Fault) (compareData : List Byte) (len : Nat) :
    Nat → List Byte → List (List Byte) → List Byte × Bool
  | _, _, [] => ([], true)
  | n, data, line :: lines =>
    let data := memcpy data (line ++ [nul])
    let rest := copyLoop fault compareData len (n + 1) data lines
    if data.take len = compareData.take len then rest
    else if fault = some (.stops (.puts n)) then ([], false)
    else if fault = some (.fails (.puts n)) then rest
    else (cstr data ++ rest.1, rest.2)

/-- `remove` -/
def remove (disk : Disk) (filename : List Byte) : Disk :=
  Function.update disk filename none

/-- `rename`: a file that has the new name stays (`f_rename`). -/
def rename (disk : Disk) (old new : List Byte) : Disk :=
  match disk old, disk new with
  | some file, none => Function.update (Function.update disk new (some file)) old none
  | _, _ => disk

/-- `delete_line` -/
def deleteLine (fault : Option Fault) (disk : Disk) (filename temfilename compareData : List Byte) (len : Nat) :
    Except Disk Disk := do
  match ← attempt fault .openFile disk, disk filename with
  | true, some file =>
    if ← attempt fault .openTemp disk then
      let copied := copyLoop fault compareData len 0 (List.replicate 512 nul) (Lines.readLines newline 512 file)
      let disk := Function.update disk temfilename (some copied.1)
      if copied.2 then
        let disk := if ← attempt fault .remove disk then remove disk filename else disk
        return if ← attempt fault .rename disk then rename disk temfilename filename else disk
      else
        .error disk
    else
      return disk
  | _, _ => return disk

namespace Period

variable (p : Period)

/-- `search_daily_energy` -/
def searchEnergy (disk : Disk) (date : List Byte) : Option ℚ :=
  (disk (p.path date)).bind fun file =>
    searchLoop date p.len (List.replicate 100 nul) (Lines.readLines newline 100 file)

/-- What is printed into `sendbuff`. -/
def row (date : List Byte) (energy : ℚ) : List Byte :=
  csvRow [cstr (date.take p.len), lf energy]

/-- The bytes of `sendbuff` hold the row and its end. -/
def Fits (date : List Byte) (energy : ℚ) : Prop :=
  (p.row date energy).length < 50

/-- The energy of the call, and what was found. -/
def energyTmp (currentEnergy : ℚ) : Option ℚ → ℚ
  | none => currentEnergy
  | some old => currentEnergy + old

/-- The end of the call. -/
def append (fault : Option Fault) (disk : Disk) (date : List Byte) (energy : ℚ) : Except Disk Disk := do
  if ← attempt fault .openAppend disk then
    let file := (disk (p.path date)).getD []
    let disk := Function.update disk (p.path date) (some file)
    return if ← attempt fault .write disk then Function.update disk (p.path date) (some (file ++ p.row date energy))
      else disk
  else
    return disk

/-- `update_daily_energy` -/
def updateEnergy (fault : Option Fault) (disk : Disk) (currentEnergy : ℚ) (date : List Byte) : Except Disk Disk := do
  let found := if ← attempt fault .openSearch disk then p.searchEnergy disk date else none
  let disk ← if found.isSome then deleteLine fault disk (p.path date) p.temp date p.len else pure disk
  p.append fault disk date (energyTmp currentEnergy found)

end Period

end Ecu.Totals
