import Ecu.Lib.Keyed
import Ecu.Totals.Files

/-!
# The totals are the sums

Where nothing goes wrong a call puts the line of its day behind those of the others, with the old total and its energy.
So over a run each day keeps one line at most, and its total is the sum of what was passed on the day; each partial sum
is rounded to the six decimals that are printed.
-/

namespace Ecu.Totals

open Command

/-- A date and time as `get_time` prints it. -/
structure IsDate (date : List Byte) : Prop where
  fourteen : date.length = 14
  digits : ∀ b ∈ date, Decimal.IsDigit b

theorem IsDate.plain {date : List Byte} (isDate : IsDate date) : Plain date :=
  plain_of_digits fun b mem => .inl (isDate.digits b mem)

section Line

variable (p : Period) {date : List Byte} (isDate : IsDate date)

include isDate

theorem key_plain : Plain (date.take p.len) :=
  fun b mem => isDate.plain b (List.mem_of_mem_take mem)

theorem key_length : (date.take p.len).length = p.len := by
  rw [List.length_take, isDate.fourteen]
  exact Nat.min_eq_left p.few

theorem key_noNul : ∀ b ∈ date.take p.len, b ≠ nul :=
  fun b mem => (key_plain p isDate b mem).1

theorem key_prefix (line : List Byte) : date.take p.len <+: line ↔ line.take p.len = date.take p.len := by
  rw [List.prefix_iff_eq_take, key_length p isDate]
  exact eq_comm

end Line

/-- A line of an energy file: a comma behind the key. -/
structure Period.IsRow (p : Period) (text : List Byte) : Prop where
  short : ShortLine text
  sep : text[p.len]? = some comma

/-- The total of a line. -/
def Period.total (p : Period) (line : List Byte) : ℚ :=
  atof (line.drop (p.len + 1))

theorem atof_nul (s rest : List Byte) : atof (s ++ nul :: rest) = atof s := by
  have spaces : (s ++ nul :: rest).dropWhile Socket.isSpace = s.dropWhile Socket.isSpace ++ nul :: rest := by
    induction s with
    | nil => rfl
    | cons b s ih =>
      by_cases space : Socket.isSpace b = true
      · rw [List.cons_append, List.dropWhile_cons_of_pos space, ih, List.dropWhile_cons_of_pos space]
      · rw [List.cons_append, List.dropWhile_cons_of_neg space, List.dropWhile_cons_of_neg space, List.cons_append]
  rw [atof, atof, spaces]
  exact FixedPoint.parse_stop (by decide) (by decide) (by decide) (by decide) _ _

theorem take_succ_iff {α : Type} {xs key : List α} {len : Nat} (whole : key.length = len) (c : α) :
    xs.take (len + 1) = key ++ [c] ↔ xs[len]? = some c ∧ xs.take len = key := by
  rw [List.take_add_one]
  constructor
  · intro same
    obtain inside | outside := Nat.lt_or_ge len xs.length
    · rw [List.getElem?_eq_getElem inside] at same ⊢
      obtain ⟨first, last⟩ := List.append_inj' same rfl
      exact ⟨congrArg some (List.cons.inj last).1, first⟩
    · have lengths := congrArg List.length same
      rw [List.getElem?_eq_none outside, Option.toList_none, List.append_nil, List.length_append, List.length_take,
        List.length_singleton] at lengths
      omega
  · rintro ⟨here, first⟩
    rw [here, first, Option.toList_some]

/-- The search finds the first line of the key that has a comma behind it. -/
theorem searchLoop_eq {date : List Byte} {len : Nat} (full : ∀ b ∈ date.take len, b ≠ nul)
    (whole : (date.take len).length = len) (buff : List Byte) {lines : List (List Byte)}
    (clean : ∀ line ∈ lines, ∀ b ∈ line, b ≠ nul) :
    searchLoop date len buff lines =
      (lines.find? fun text => text[len]? = some comma ∧ text.take len = date.take len).map fun line =>
        atof (line.drop (len + 1)) := by
  have fullKey : ∀ b ∈ date.take len ++ [comma], b ≠ nul := by
    intro b mem
    rcases List.mem_append.1 mem with inKey | last
    · exact full b inKey
    · rw [List.mem_singleton.1 last]
      decide
  have wholeKey : (date.take len ++ [comma]).length =
    len + 1 := by rw [List.length_append, whole, List.length_singleton]
  induction lines generalizing buff with
  | nil => rfl
  | cons line lines ih =>
    have begins : (memcpy buff (line ++ [nul])).take (len + 1) = date.take len ++ [comma] ↔
        line.take (len + 1) = date.take len ++ [comma] := by
      have same : (memcpy buff (line ++ [nul])).take (date.take len ++ [comma]).length = _ ↔ _ := take_memcpy fullKey
      rw [List.prefix_iff_eq_take, wholeKey] at same
      exact same.trans eq_comm
    rw [take_succ_iff whole, take_succ_iff whole] at begins
    rw [searchLoop]
    by_cases own : (line)[len]? = some comma ∧ line.take len = date.take len
    · have inside : len + 1 ≤ line.length := (List.getElem?_eq_some_iff.1 own.1).1
      rw [if_pos (begins.2 own), List.find?_cons_of_pos (by simpa using own), Option.map_some, memcpy,
        List.append_assoc,
        List.drop_append_of_le_length inside]
      exact congrArg some (atof_nul _ _)
    · rw [if_neg (mt begins.1 own), List.find?_cons_of_neg (by simpa using own)]
      exact ih _ fun l mem => clean l (List.mem_cons_of_mem line mem)

/-! ## One call -/

theorem copyLoop_none (compareData : List Byte) (len n : Nat) (data gone : List Byte) (lines : List (List Byte)) :
    (lines.foldl (deleteStep compareData len) (gone, data)).1 = gone ++ (copyLoop none compareData len n data lines).1 ∧
      (copyLoop none compareData len n data lines).2 = true := by
  induction lines generalizing n data gone with
  | nil => exact ⟨(List.append_nil gone).symm, rfl⟩
  | cons line lines ih =>
    rw [List.foldl_cons, deleteStep, copyLoop]
    dsimp only
    by_cases same : (memcpy data (line ++ [nul])).take len = compareData.take len
    · rw [if_pos same, if_pos same]
      exact ih (n + 1) _ gone
    · have never (fault : Fault) : (none : Option Fault) ≠ some fault := (Option.some_ne_none fault).symm
      rw [if_neg same, if_neg same, if_neg (never _), if_neg (never _)]
      have later := ih (n + 1) (memcpy data (line ++ [nul])) (gone ++ cstr (memcpy data (line ++ [nul])))
      rw [List.append_assoc] at later
      exact later

theorem rename_replaces {disk : Disk} {old new : List Byte} (other : new ≠ old) (file : List Byte) :
    rename (remove (Function.update disk old (some file)) new) old new =
      Function.update (Function.update disk new (some file)) old none := by
  have there : remove (Function.update disk old (some file)) new old = some file := by
    rw [remove, Function.update_of_ne (Ne.symm other), Function.update_self]
  have gone : remove (Function.update disk old (some file)) new new = none := Function.update_self ..
  rw [rename, there, gone]
  dsimp only
  rw [remove, Function.update_idem, Function.update_comm other, Function.update_idem, Function.update_comm other.symm]

/-- `delete_line` without a fault. -/
theorem deleteLine_none {disk : Disk} {filename temfilename : List Byte} (other : filename ≠ temfilename)
    (compareData : List Byte) (len : Nat) : deleteLine none disk filename temfilename compareData len =
      .ok (match disk filename with
        | none => disk
        | some file => Function.update (Function.update disk filename (some (deleteLineBytes file compareData len)))
            temfilename none) := by
  unfold deleteLine
  cases disk filename with
  | none => rfl
  | some file =>
    obtain ⟨same, ended⟩ := copyLoop_none compareData len 0 (List.replicate 512 nul) []
      (Lines.readLines newline 512 file)
    rw [List.nil_append] at same
    have replaced (file : List Byte) := @rename_replaces disk temfilename filename other file
    simp only [attempt_none, bind, Except.bind, pure, Except.pure, if_true]
    rw [if_pos ended, replaced, deleteLineBytes, same]

theorem append_none (p : Period) (disk : Disk) (date : List Byte) (energy : ℚ) : p.append none disk date energy =
    .ok (Function.update disk (p.path date) (some ((disk (p.path date)).getD [] ++ p.row date energy))) := by
  simp only [Period.append, attempt_none, bind, Except.bind, pure, Except.pure, if_true, Function.update_idem]

structure Call where
  currentEnergy : ℚ
  dateTime : List Byte

namespace Period

variable (p : Period)

/-- A call in which nothing goes wrong. -/
def update (disk : Disk) (call : Call) : Disk :=
  afterwards (p.updateEnergy none disk call.currentEnergy call.dateTime)

def run (disk : Disk) (calls : List Call) : Disk :=
  calls.foldl p.update disk

/-- What a call prints. -/
def sum (disk : Disk) (call : Call) : ℚ :=
  energyTmp call.currentEnergy (p.searchEnergy disk call.dateTime)

theorem update_notFound {disk : Disk} {call : Call} (none : p.searchEnergy disk call.dateTime = .none) :
    p.update disk call = Function.update disk (p.path call.dateTime)
      (some ((disk (p.path call.dateTime)).getD [] ++ p.row call.dateTime (p.sum disk call))) := by
  unfold update updateEnergy sum
  simp only [attempt_none, none, bind, Except.bind, pure, Except.pure, if_true, Option.isSome_none, Bool.false_eq_true,
    if_false, append_none, afterwards]

theorem update_found {disk : Disk} {call : Call} {old : ℚ} (found : p.searchEnergy disk call.dateTime = some old)
    {file : List Byte} (there : disk (p.path call.dateTime) = some file) :
    p.update disk call = Function.update (Function.update disk p.temp none) (p.path call.dateTime)
      (some (deleteLineBytes file call.dateTime p.len ++ p.row call.dateTime (p.sum disk call))) := by
  have apart := p.apart call.dateTime
  unfold update updateEnergy sum
  simp only [attempt_none, found, bind, Except.bind, pure, Except.pure, if_true, Option.isSome_some,
    deleteLine_none apart, there, append_none, afterwards]
  rw [Function.update_of_ne apart, Function.update_self, Option.getD_some, Function.update_comm apart,
    Function.update_idem]

end Period

/-! ## On the lines -/

section Lines

variable {p : Period} {date : List Byte} (isDate : IsDate date)

include isDate

theorem row_eq (energy : ℚ) : p.row date energy = date.take p.len ++ comma :: (lf energy ++ [newline]) := by
  rw [Period.row, cstr_of_clean (key_noNul p isDate), csvRow_cons, csvRow, List.intercalate_singleton]

theorem row_key (energy : ℚ) : (p.row date energy).take p.len = date.take p.len := by
  rw [row_eq isDate]
  exact List.take_left' (key_length p isDate)

theorem total_row (energy : ℚ) : p.total (p.row date energy) = FixedPoint.rounded 6 energy := by
  rw [Period.total, row_eq isDate, List.append_cons, List.drop_left']
  · exact atof_lf energy (stops_newline [])
  · rw [List.length_append, key_length p isDate, List.length_singleton]

theorem row_isRow {energy : ℚ} (fits : p.Fits date energy) : p.IsRow (p.row date energy) := by
  have plain : ∀ field ∈ [cstr (date.take p.len), lf energy], Plain field := by
    intro field mem
    rw [cstr_of_clean (key_noNul p isDate), List.mem_cons, List.mem_singleton] at mem
    rcases mem with rfl | rfl
    · exact key_plain p isDate
    · exact plain_lf energy
  have few : (p.row date energy).length < 200 := Nat.lt_trans fits (by decide)
  refine ⟨⟨⟨(csvRow_isLine plain few).shape, Nat.lt_trans fits (by decide)⟩,
    csvRow_noNul fun field mem b there => ?_⟩, ?_⟩
  · exact (plain field mem b there).1
  · rw [row_eq isDate, List.getElem?_append_right (Nat.le_of_eq (key_length p isDate)), key_length p isDate,
      Nat.sub_self]
    rfl

variable {disk : Disk} {lines : List (List Byte)}

/-- The search on a file of short lines. -/
theorem searchEnergy_short (short : ∀ line ∈ lines, ShortLine line)
    (file : (disk (p.path date)).getD [] = lines.flatten) : p.searchEnergy disk date =
      (lines.find? fun text => text[p.len]? = some comma ∧ text.take p.len = date.take p.len).map p.total := by
  have found := searchLoop_eq (key_noNul p isDate) (key_length p isDate) (List.replicate 100 nul)
    fun line mem => (short line mem).clean
  unfold Period.total
  rw [← found, Period.searchEnergy]
  cases there : disk (p.path date) with
  | none =>
    rw [there] at file
    have empty : lines = [] := by
      cases lines with
      | nil => rfl
      | cons line lines =>
        have nonempty := (short line List.mem_cons_self).ne_nil
        exact absurd (List.append_eq_nil_iff.1 file.symm).1 nonempty
    rw [empty]
    rfl
  | some content =>
    rw [there, Option.getD_some] at file
    rw [Option.bind_some, file, readLines_short short (Nat.le_refl 100)]

variable (rows : ∀ line ∈ lines, p.IsRow line) (file : (disk (p.path date)).getD [] = lines.flatten)

include rows file

theorem searchEnergy_rows :
    p.searchEnergy disk date = (lines.find? fun line => line.take p.len = date.take p.len).map p.total := by
  rw [searchEnergy_short isDate (fun line mem => (rows line mem).short) file]
  congr 1
  apply List.find?_congr
  intro line mem
  simp [(rows line mem).sep]

end Lines

/-- Where something is found there is a file. -/
theorem found_file {p : Period} {disk : Disk} {date content : List Byte} {v : ℚ}
    (found : p.searchEnergy disk date = some v)
    (file : (disk (p.path date)).getD [] = content) : disk (p.path date) = some content := by
  cases there : disk (p.path date) with
  | none =>
    rw [Period.searchEnergy, there] at found
    cases found
  | some text =>
    rw [there] at file
    exact congrArg some file

/-- A call puts its row in the place of those of its key. -/
theorem update_path {p : Period} {disk : Disk} {call : Call} (isDate : IsDate call.dateTime) {lines : List (List Byte)}
    (rows : ∀ line ∈ lines, p.IsRow line) (file : (disk (p.path call.dateTime)).getD [] = lines.flatten) :
    p.update disk call (p.path call.dateTime) =
      some (Keyed.put (·.take p.len) (p.row call.dateTime (p.sum disk call)) lines).flatten := by
  have short : ∀ line ∈ lines, ShortLine line := fun line mem => (rows line mem).short
  have search := searchEnergy_rows isDate rows file
  rw [Keyed.put, row_key isDate, List.flatten_append, List.flatten_singleton]
  cases found : lines.find? fun line => line.take p.len = call.dateTime.take p.len with
  | none =>
    rw [found] at search
    rw [p.update_notFound search, Function.update_self, file]
    congr 2
    rw [List.filter_eq_self.2]
    intro line mem
    simpa using List.find?_eq_none.1 found line mem
  | some line =>
    rw [found] at search
    have there := found_file search file
    have begins : call.dateTime.take (call.dateTime.take p.len).length = call.dateTime.take p.len := by
      rw [key_length p isDate]
    have deleted := deleteLineBytes_eq lines.flatten (key_noNul p isDate) begins
    rw [key_length p isDate] at deleted
    rw [p.update_found search there, Function.update_self, deleted, deleteLine_short short]
    congr 3
    apply List.filter_congr
    intro line _
    rw [decide_eq_decide, key_prefix p isDate]

/-! ## Runs -/

namespace Period

variable (p : Period)

/-- An energy file: rows, one for each key at most. -/
structure Kept (file : List Byte) : Prop where
  rows : Lines.MadeOf p.IsRow file
  once : ((Lines.readLines newline 100 file).map (·.take p.len)).Nodup

/-- The files of all dates are energy files. -/
def Keeps (disk : Disk) : Prop :=
  ∀ date, IsDate date → p.Kept ((disk (p.path date)).getD [])

def lines (disk : Disk) (date : List Byte) : List (List Byte) :=
  Lines.readLines newline 100 ((disk (p.path date)).getD [])

/-- The lines of a day, or of a month. -/
def linesOf (disk : Disk) (date : List Byte) : List (List Byte) :=
  (p.lines disk date).filter fun line => line.take p.len = date.take p.len

/-- Every call of a run prints a row that `sendbuff` holds. -/
def RunFits : Disk → List Call → Prop
  | _, [] => True
  | disk, call :: calls => p.Fits call.dateTime (p.sum disk call) ∧ RunFits (p.update disk call) calls

/-- The total with the energy of one more call, as it is printed. -/
def added (old : Option ℚ) (call : Call) : Option ℚ :=
  some (FixedPoint.rounded 6 (energyTmp call.currentEnergy old))

/-- The calls of a day, or of a month. -/
def callsOf (calls : List Call) (date : List Byte) : List Call :=
  calls.filter fun call => call.dateTime.take p.len = date.take p.len

end Period

section Steps

variable {p : Period}

theorem keptKeyed_iff {lines : List (List Byte)} (rows : ∀ line ∈ lines, p.IsRow line) :
    p.Kept lines.flatten ↔ (lines.map (·.take p.len)).Nodup := by
  have read := readLines_short (fun line mem => (rows line mem).short) (Nat.le_refl 100)
  constructor
  · intro kept
    have once := kept.once
    rwa [read] at once
  · intro once
    exact ⟨⟨lines, rfl, rows⟩, by rwa [read]⟩

variable {disk : Disk} {call : Call}

theorem update_other {path : List Byte} (other : path ≠ p.path call.dateTime) (noTemp : path ≠ p.temp) :
    p.update disk call path = disk path := by
  cases found : p.searchEnergy disk call.dateTime with
  | none => rw [p.update_notFound found, Function.update_of_ne other]
  | some old =>
    rw [p.update_found found (found_file found rfl), Function.update_of_ne other, Function.update_of_ne noTemp]

theorem lines_kept {name : List Byte} (kept : p.Kept ((disk (p.path name)).getD [])) :
    (∀ line ∈ p.lines disk name, p.IsRow line) ∧ (disk (p.path name)).getD [] = (p.lines disk name).flatten := by
  obtain ⟨lines, same, rows⟩ := kept.rows
  rw [Period.lines, same, readLines_short (fun line mem => (rows line mem).short) (Nat.le_refl 100)]
  exact ⟨rows, rfl⟩

/-- The lines of a file after a call. -/
theorem kept_update {name : List Byte} (kept : p.Kept ((disk (p.path name)).getD [])) (isCall : IsDate call.dateTime)
    (fits : p.Fits call.dateTime (p.sum disk call)) :
    p.Kept ((p.update disk call (p.path name)).getD []) ∧ p.lines (p.update disk call) name =
      if p.path name = p.path call.dateTime
      then Keyed.put (·.take p.len) (p.row call.dateTime (p.sum disk call)) (p.lines disk name)
      else p.lines disk name := by
  split_ifs with same
  · obtain ⟨rows, file⟩ := lines_kept kept
    have after := update_path isCall rows (same ▸ file)
    have putRows : ∀ line ∈ Keyed.put (·.take p.len) (p.row call.dateTime (p.sum disk call)) (p.lines disk name),
        p.IsRow line := by
      intro line mem
      rcases Keyed.mem_put.1 mem with ⟨old, -⟩ | rfl
      · exact rows line old
      · exact row_isRow isCall fits
    have once := Keyed.nodup_put (x := p.row call.dateTime (p.sum disk call)) kept.once
    refine ⟨?_, ?_⟩
    · rw [same, after, Option.getD_some]
      exact (keptKeyed_iff putRows).2 once
    · rw [Period.lines, same, after, Option.getD_some,
        readLines_short (fun line mem => (putRows line mem).short) (Nat.le_refl 100)]
  · have unchanged : p.update disk call (p.path name) = disk (p.path name) := update_other same (p.apart name)
    rw [Period.lines, unchanged]
    exact ⟨kept, rfl⟩

variable (keeps : p.Keeps disk)

include keeps

theorem lines_rows {date : List Byte} (isDate : IsDate date) :
    (∀ line ∈ p.lines disk date, p.IsRow line) ∧ (disk (p.path date)).getD [] = (p.lines disk date).flatten :=
  lines_kept (keeps date isDate)

theorem searchEnergy_linesOf {date : List Byte} (isDate : IsDate date) :
    p.searchEnergy disk date = (p.linesOf disk date).head?.map p.total := by
  obtain ⟨rows, file⟩ := lines_rows keeps isDate
  rw [searchEnergy_rows isDate rows file, Period.linesOf, List.head?_filter]

theorem linesOf_once {date : List Byte} (isDate : IsDate date) : (p.linesOf disk date).length ≤ 1 :=
  Keyed.length_filter_le_one (keeps date isDate).once _

theorem searchEnergy_congr {a b : List Byte} (left : IsDate a) (right : IsDate b) (same : a.take p.len = b.take p.len) :
    p.searchEnergy disk a = p.searchEnergy disk b := by
  obtain ⟨rows, file⟩ := lines_rows keeps left
  have there : (disk (p.path b)).getD [] = (p.lines disk a).flatten := p.own same ▸ file
  rw [searchEnergy_rows left rows file, searchEnergy_rows right rows there, same]

variable (isCall : IsDate call.dateTime) (fits : p.Fits call.dateTime (p.sum disk call))

include isCall fits

theorem lines_update {date : List Byte} (isDate : IsDate date) :
    p.Kept ((p.update disk call (p.path date)).getD []) ∧ p.lines (p.update disk call) date =
      if p.path date = p.path call.dateTime
      then Keyed.put (·.take p.len) (p.row call.dateTime (p.sum disk call)) (p.lines disk date)
      else p.lines disk date :=
  kept_update (keeps date isDate) isCall fits

theorem update_keeps : p.Keeps (p.update disk call) :=
  fun _ isDate => (lines_update keeps isCall fits isDate).1

/-- A call sets the total of its key. -/
theorem update_own {date : List Byte} (isDate : IsDate date) (own : call.dateTime.take p.len = date.take p.len) :
    p.searchEnergy (p.update disk call) date = some (FixedPoint.rounded 6 (p.sum disk call)) := by
  have samePath : p.path date = p.path call.dateTime := p.own own.symm
  have lines := (lines_update keeps isCall fits isDate).2
  rw [if_pos samePath] at lines
  obtain ⟨rows, file⟩ := lines_rows (update_keeps keeps isCall fits) isDate
  have key := row_key (p := p) isCall (p.sum disk call)
  have found : (Keyed.put (·.take p.len) (p.row call.dateTime (p.sum disk call)) (p.lines disk date)).find?
      (fun line => line.take p.len = (p.row call.dateTime (p.sum disk call)).take p.len) = some _ :=
        Keyed.find?_put_self
  rw [key, own] at found
  rw [searchEnergy_rows isDate rows file, lines, found, Option.map_some, total_row isCall]

/-- A call leaves the lines of the other keys. -/
theorem update_others {date : List Byte} (isDate : IsDate date) (other : call.dateTime.take p.len ≠ date.take p.len) :
    p.linesOf (p.update disk call) date = p.linesOf disk date := by
  have lines := (lines_update keeps isCall fits isDate).2
  rw [Period.linesOf, lines]
  split_ifs
  · apply Keyed.filter_put_of_ne
    rw [row_key isCall]
    exact Ne.symm other
  · rfl

end Steps

section Run

variable {p : Period}

/-- The totals of six decimals are the sums. -/
theorem foldl_added_exact {calls : List Call} (exact : ∀ call ∈ calls, FixedPoint.rounded 6 call.currentEnergy =
    call.currentEnergy)
    {old : Option ℚ} (oldExact : ∀ v ∈ old, FixedPoint.rounded 6 v = v) (some : calls ≠ []) :
    calls.foldl Period.added old = .some (old.getD 0 + (calls.map Call.currentEnergy).sum) := by
  induction calls generalizing old with
  | nil => exact absurd rfl some
  | cons call calls ih =>
    have own := exact call List.mem_cons_self
    have first : Period.added old call = .some (old.getD 0 + call.currentEnergy) := by
      cases old with
      | none => rw [Period.added, Period.energyTmp, own, Option.getD_none, zero_add]
      | some v =>
        rw [Period.added, Period.energyTmp, FixedPoint.rounded_add own (oldExact v rfl), Option.getD_some, add_comm]
    have rest : ∀ v ∈ Period.added old call, FixedPoint.rounded 6 v = v := by
      intro v mem
      obtain rfl := Option.some_inj.1 mem
      exact FixedPoint.rounded_rounded 6 _
    rw [List.foldl_cons, List.map_cons, List.sum_cons, ← add_assoc]
    by_cases last : calls = []
    · rw [last, first, List.foldl_nil, List.map_nil, List.sum_nil, add_zero]
    · rw [ih (fun c mem => exact c (List.mem_cons_of_mem call mem)) rest last, first, Option.getD_some]

theorem callsOf_cons (call : Call) (calls : List Call) (date : List Byte) : p.callsOf (call :: calls) date =
    if call.dateTime.take p.len = date.take p.len then call :: p.callsOf calls date else p.callsOf calls date := by
  rw [Period.callsOf, List.filter_cons]
  simp only [decide_eq_true_eq]
  rfl

theorem run_totals {disk : Disk} (keeps : p.Keeps disk) {calls : List Call}
    (dates : ∀ call ∈ calls, IsDate call.dateTime)
    (fits : p.RunFits disk calls) {date : List Byte} (isDate : IsDate date) :
    p.Keeps (p.run disk calls) ∧
      p.searchEnergy (p.run disk calls) date = (p.callsOf calls date).foldl Period.added (p.searchEnergy disk date) ∧
      (p.callsOf calls date = [] → p.linesOf (p.run disk calls) date = p.linesOf disk date) := by
  induction calls generalizing disk with
  | nil => exact ⟨keeps, rfl, fun _ => rfl⟩
  | cons call calls ih =>
    have isCall := dates call List.mem_cons_self
    have next := update_keeps keeps isCall fits.1
    obtain ⟨kept, total, others⟩ := ih next (fun c mem => dates c (List.mem_cons_of_mem call mem)) fits.2
    refine ⟨kept, ?_⟩
    rw [callsOf_cons]
    by_cases own : call.dateTime.take p.len = date.take p.len
    · have first : Period.added (p.searchEnergy disk date) call = p.searchEnergy (p.update disk call) date := by
        rw [update_own keeps isCall fits.1 isDate own, Period.sum, searchEnergy_congr keeps isCall isDate own]
        rfl
      rw [if_pos own, List.foldl_cons, first]
      exact ⟨total, fun none => absurd none (List.cons_ne_nil call _)⟩
    · have lines := update_others keeps isCall fits.1 isDate own
      have search : p.searchEnergy (p.update disk call) date = p.searchEnergy disk date := by
        rw [searchEnergy_linesOf next isDate, lines, searchEnergy_linesOf keeps isDate]
      rw [if_neg own, ← search, ← lines]
      exact ⟨total, others⟩

/-- **Totals**: over any run each day keeps one line at most, and its total is the one before with the energies of its
calls, rounded to six decimals by each call, so that it is the sum where the energies have no more of them; the lines of
a day without calls do not change. -/
theorem totals_added {disk : Disk} (keeps : p.Keeps disk) {calls : List Call}
    (dates : ∀ call ∈ calls, IsDate call.dateTime) (fits : p.RunFits disk calls) {date : List Byte}
    (isDate : IsDate date) :
    (p.linesOf (p.run disk calls) date).length ≤ 1 ∧
      p.searchEnergy (p.run disk calls) date = (p.callsOf calls date).foldl Period.added (p.searchEnergy disk date) ∧
      (p.callsOf calls date = [] → p.linesOf (p.run disk calls) date = p.linesOf disk date) ∧
      ((∀ v ∈ p.searchEnergy disk date, FixedPoint.rounded 6 v = v) →
        (∀ call ∈ p.callsOf calls date, FixedPoint.rounded 6 call.currentEnergy = call.currentEnergy) →
        p.callsOf calls date ≠ [] → p.searchEnergy (p.run disk calls) date =
          some ((p.searchEnergy disk date).getD 0 + ((p.callsOf calls date).map Call.currentEnergy).sum)) := by
  obtain ⟨kept, total, others⟩ := run_totals keeps dates fits isDate
  refine ⟨linesOf_once kept isDate, total, others, fun oldExact exact some => ?_⟩
  rw [total]
  exact foldl_added_exact exact oldExact some

/-! ## `sendbuff` -/

theorem fits_of_small {date : List Byte} (isDate : IsDate date) {v : ℚ} (nonneg : 0 ≤ v) {k : Nat} (below : v ≤ k)
    (small : k < 10 ^ 20) : p.Fits date v := by
  have width := FixedPoint.print_length_le 6 (by decide) small nonneg below
  have few := p.few
  rw [Period.Fits, row_eq isDate, List.length_append, key_length p isDate, List.length_cons, List.length_append,
    List.length_singleton, lf]
  omega

/-- `sendbuff` holds the rows of a run as long as the totals are small. -/
theorem runFits_of_small {disk : Disk} (keeps : p.Keeps disk) {calls : List Call} {k m : Nat}
    (old : ∀ date, IsDate date → ∀ v ∈ p.searchEnergy disk date, 0 ≤ v ∧ v ≤ k)
    (each : ∀ call ∈ calls, IsDate call.dateTime ∧ 0 ≤ call.currentEnergy ∧ call.currentEnergy ≤ m)
    (small : k + m * calls.length < 10 ^ 20) : p.RunFits disk calls := by
  induction calls generalizing disk k with
  | nil => trivial
  | cons call calls ih =>
    obtain ⟨isCall, nonneg, below⟩ := each call List.mem_cons_self
    rw [List.length_cons, Nat.mul_succ] at small
    have sum : 0 ≤ p.sum disk call ∧ p.sum disk call ≤ (k + m : Nat) := by
      have before := old call.dateTime isCall
      rw [Period.sum, Nat.cast_add]
      cases found : p.searchEnergy disk call.dateTime with
      | none => exact ⟨nonneg, below.trans (le_add_of_nonneg_left (Nat.cast_nonneg k))⟩
      | some v =>
        obtain ⟨low, high⟩ := before v found
        exact ⟨add_nonneg nonneg low, (add_comm (k : ℚ) m) ▸ add_le_add below high⟩
    have fits := fits_of_small (p := p) isCall sum.1 sum.2 (by omega)
    have next := update_keeps keeps isCall fits
    have totals : ∀ date, IsDate date → ∀ v ∈ p.searchEnergy (p.update disk call) date, 0 ≤ v ∧ v ≤ (k + m : Nat) := by
      intro date isDate v found
      by_cases own : call.dateTime.take p.len = date.take p.len
      · rw [update_own keeps isCall fits isDate own] at found
        obtain rfl := Option.some_inj.1 found
        exact ⟨FixedPoint.rounded_nonneg 6 sum.1, by exact_mod_cast FixedPoint.rounded_le 6 (n := (k + m : Nat)) sum.2⟩
      · rw [searchEnergy_linesOf next isDate, update_others keeps isCall fits isDate own,
          ← searchEnergy_linesOf keeps isDate] at found
        obtain ⟨low, high⟩ := old date isDate v found
        exact ⟨low, high.trans (by exact_mod_cast Nat.le_add_right k m)⟩
    exact ⟨fits, ih next totals (fun c mem => each c (List.mem_cons_of_mem call mem)) (by omega)⟩

/-! Without files, two days of which one has two calls. -/

theorem keeps_nothing : p.Keeps fun _ => none :=
  fun _ _ => (keptKeyed_iff fun _ mem => absurd mem List.not_mem_nil).2 List.nodup_nil

def sampleCalls : List Call :=
  [⟨1 / 4, str "20170718120000"⟩, ⟨1 / 2, str "20170718120500"⟩, ⟨1, str "20170801120000"⟩]

theorem isDate_sample : IsDate (str "20170718120000") := by
  rw [str_ofList]
  exact ⟨rfl, by decide⟩

theorem sampleCalls_small : ∀ call ∈ sampleCalls,
    IsDate call.dateTime ∧ 0 ≤ call.currentEnergy ∧ call.currentEnergy ≤ (1 : Nat) := by
  rw [sampleCalls]
  iterate 3 rw [str_ofList]
  intro call mem
  simp only [List.mem_cons, List.not_mem_nil, or_false] at mem
  rcases mem with rfl | rfl | rfl
  · exact ⟨⟨rfl, by decide⟩, by norm_num, by norm_num⟩
  · exact ⟨⟨rfl, by decide⟩, by norm_num, by norm_num⟩
  · exact ⟨⟨rfl, by decide⟩, by norm_num, by norm_num⟩

theorem runFits_sample : p.RunFits (fun _ => none) sampleCalls :=
  runFits_of_small keeps_nothing (k := 0) (fun _ _ _ found => by cases found) sampleCalls_small (by decide)

/-- Both in one: the sums of a day and of a month. -/
theorem totals_added_sample :
    daily.searchEnergy (daily.run (fun _ => none) sampleCalls) (str "20170718120000") =
        (daily.callsOf sampleCalls (str "20170718120000")).foldl Period.added none ∧
      monthly.searchEnergy (monthly.run (fun _ => none) sampleCalls) (str "20170718120000") =
        (monthly.callsOf sampleCalls (str "20170718120000")).foldl Period.added none :=
  ⟨(totals_added keeps_nothing (fun call mem => (sampleCalls_small call mem).1) runFits_sample isDate_sample).2.1,
    (totals_added keeps_nothing (fun call mem => (sampleCalls_small call mem).1) runFits_sample isDate_sample).2.1⟩

/-- An energy below half of the last printed decimal is lost. -/
def sampleSmall : Call :=
  ⟨4 / 10 ^ 7, str "20170718120000"⟩

theorem small_energies_lost : daily.searchEnergy (daily.run (fun _ => none) [sampleSmall, sampleSmall])
    (str "20170718120000") ≠ some (([sampleSmall, sampleSmall].map Call.currentEnergy).sum) := by
  have small : ∀ call ∈ [sampleSmall, sampleSmall],
      IsDate call.dateTime ∧ 0 ≤ call.currentEnergy ∧ call.currentEnergy ≤ (1 : Nat) := by
    intro call mem
    obtain rfl : call = sampleSmall := by simpa using mem
    exact ⟨isDate_sample, by norm_num [sampleSmall], by norm_num [sampleSmall]⟩
  have fits := runFits_of_small (p := daily) keeps_nothing (k := 0) (fun _ _ _ found => by cases found)
    small (by decide)
  have total := (run_totals keeps_nothing (fun call mem => (small call mem).1) fits isDate_sample).2.1
  have own : daily.callsOf [sampleSmall, sampleSmall] (str "20170718120000") = [sampleSmall, sampleSmall] := by
    have key : sampleSmall.dateTime.take daily.len = (str "20170718120000").take daily.len := rfl
    rw [callsOf_cons, if_pos key, callsOf_cons, if_pos key]
    rfl
  have zero : FixedPoint.rounded 6 (4 / 10 ^ 7) = 0 := by decide +kernel
  have first : Period.added none sampleSmall = some 0 := congrArg some zero
  have second : Period.added (some 0) sampleSmall = some 0 := by
    rw [Period.added, Period.energyTmp, add_zero]
    exact congrArg some zero
  have nothing : daily.searchEnergy (fun _ => none) (str "20170718120000") = none := rfl
  rw [total, own, nothing, List.foldl_cons, first, List.foldl_cons, second, List.foldl_nil]
  intro same
  have sum := Option.some_inj.1 same
  norm_num [sampleSmall] at sum

end Run

end Ecu.Totals
