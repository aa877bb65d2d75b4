import Ecu.Lib.Runs
import Ecu.Protection.Setpropa

/-!
# The form of the table for all inverters

A row of `/home/data/setpropa` is `name,value,flag` and a line end, and no name has two rows. The writers of A132 leave
such a table; the row of A146 has no line end, and the one that `clear_flag` puts back has a field more. So the form
stays exactly as long as neither of the two writes a row, and the rows of other names do as long as A132 sets every name
that has one.
-/

namespace Ecu.Protection

open Param Socket

/-! ## The form -/

/-- The rows that the readers see. -/
def fileRows (file : List Byte) : List (List Byte) :=
  Lines.readLines newline 200 file

def rowName (row : List Byte) : List Byte :=
  (splitString row).getD 0 []

/-- `name,value,flag` and the line end. -/
structure FormedRow (row : List Byte) : Prop where
  ended : [newline] <:+ row
  fields : (splitString row).length = 3

structure FormedTable (file : List Byte) : Prop where
  rows : ∀ row ∈ fileRows file, FormedRow row
  names : ((fileRows file).map rowName).Nodup

/-! ## The writers -/

/-- What is done to the file: A132 and A146 with a message, `clear_flag` with a name. -/
inductive Edit where
  | setAll (recvbuffer : List Byte)
  | powerFactor (recvbuffer : List Byte)
  | clear (paraName : List Byte)

namespace Edit

def write (file : List Byte) : Edit → List Byte
  | setAll recvbuffer => (setInverterAcProtection17 recvbuffer ⟨file, []⟩).setpropa
  | powerFactor recvbuffer => setAllInverterPowerFactor recvbuffer file
  | clear paraName => clearFlag file paraName

def step (file : List Byte) (edit : Edit) : Option (List Byte) :=
  some (edit.write file)

/-- The names that it is about. -/
def Names (name : List Byte) : Edit → Prop
  | setAll recvbuffer => msgGetInt (recvbuffer.drop 44) 3 = 0 ∧
      ∃ p ∈ Param.all, p.text = name ∧ settings132 recvbuffer p ≠ none
  | powerFactor _ => name = Param.powerFactor.text
  | clear paraName => name = paraName

instance (name : List Byte) (edit : Edit) : Decidable (edit.Names name) :=
  match edit with
  | setAll recvbuffer => inferInstanceAs (Decidable
    (_ ∧ ∃ p ∈ Param.all, p.text = name ∧ settings132 recvbuffer p ≠ none))
  | powerFactor _ => inferInstanceAs (Decidable (_ = _))
  | clear _ => inferInstanceAs (Decidable (_ = _))

/-- The rows of the other names. -/
def others (edit : Edit) (file : List Byte) : List (List Byte) :=
  (fileRows file).filter fun row => ¬ edit.Names (rowName row)

/-- It writes no row of A146 or `clear_flag`, and a new table of A132 has the names of the old one. -/
def Keeps (file : List Byte) : Edit → Prop
  | setAll recvbuffer => msgGetInt (recvbuffer.drop 44) 3 = 0 →
      ∀ row ∈ fileRows file, (setAll recvbuffer).Names (rowName row)
  | powerFactor recvbuffer => powerFactorCode recvbuffer = none
  | clear paraName => ∀ row ∈ fileRows file, ¬ paraName <+: row

end Edit

/-! ## Tables of A132 -/

/-- A file with rows of A132 alone, each name once. -/
structure FreshTable (rows : List Row) (file : List Byte) : Prop where
  fresh : ∀ row ∈ rows, ∃ p hundredths, row = .fresh p hundredths
  fits : ∀ row ∈ rows, row.Fits
  names : (rows.map Row.name).Nodup
  text : file = (rows.map Row.text).flatten

namespace FreshTable

variable {rows : List Row} {file : List Byte} (table : FreshTable rows file)

include table

theorem fileRows_eq : fileRows file = rows.map Row.text := by
  rw [fileRows, table.text]
  exact readLines_rows table.fits (by decide)

theorem formed : FormedTable file where
  rows := by
    rw [table.fileRows_eq]
    intro line mem
    obtain ⟨row, inRows, rfl⟩ := List.mem_map.1 mem
    obtain ⟨p, hundredths, rfl⟩ := table.fresh row inRows
    constructor
    · exact List.suffix_append _ _
    · have split : splitString (Row.fresh p hundredths).text = _ :=
        splitString_csvRow [_, _] _ (Row.fresh p hundredths).fields_plain
      rw [split]
      rfl
  names := by
    have names : (rows.map Row.text).map rowName = (rows.map Row.name).map Param.text := by
      rw [List.map_map, List.map_map]
      exact List.map_congr_left fun row _ => row.splitString_name
    rw [table.fileRows_eq, names]
    exact table.names.map fun _ _ => text_injective

theorem setpropa : ∃ whole : Setpropa, whole.last = none ∧ whole.rows = rows ∧ file = whole.text := by
  refine ⟨⟨rows, none, table.fits, Setpropa.empty.lastFits⟩, rfl, rfl, ?_⟩
  rw [Setpropa.text_eq]
  exact table.text.trans (List.append_nil _).symm

end FreshTable

theorem freshTable_nil : FreshTable [] [] where
  fresh _ mem := absurd mem List.not_mem_nil
  fits _ mem := absurd mem List.not_mem_nil
  names := List.nodup_nil
  text := rfl

theorem freshRows_table (recvbuffer : List Byte) :
    FreshTable (freshRows (settings132 recvbuffer)) (saveAcProtectionAll (settings132 recvbuffer)) where
  fresh row mem := by
    obtain ⟨p, -, made⟩ := List.mem_filterMap.1 mem
    obtain ⟨v, -, rfl⟩ := Option.map_eq_some_iff.1 made
    exact ⟨p, _, rfl⟩
  fits := freshRows_fits recvbuffer
  names := by
    rw [freshRows, List.map_filterMap]
    apply List.Nodup.filterMap
    · intro p q name ofP ofQ
      obtain ⟨row, made, rfl⟩ := Option.map_eq_some_iff.1 ofP
      obtain ⟨v, -, rfl⟩ := Option.map_eq_some_iff.1 made
      obtain ⟨row, made', same⟩ := Option.map_eq_some_iff.1 ofQ
      obtain ⟨v', -, rfl⟩ := Option.map_eq_some_iff.1 made'
      exact same.symm
    · decide
  text := by
    rw [saveAcProtectionAll_text, Setpropa.text_eq]
    exact List.append_nil _

/-! ## What A132 leaves -/

section SetAll

variable {recvbuffer : List Byte} (forAll : msgGetInt (recvbuffer.drop 44) 3 = 0)

include forAll

theorem write_setAll (file : List Byte) :
    (Edit.setAll recvbuffer).write file = saveAcProtectionAll (settings132 recvbuffer) := by
  rw [Edit.write, setInverterAcProtection17]
  dsimp only
  rw [if_pos forAll]

theorem names_freshRows {row : Row} (mem : row ∈ freshRows (settings132 recvbuffer)) :
    (Edit.setAll recvbuffer).Names row.name.text := by
  obtain ⟨p, -, made⟩ := List.mem_filterMap.1 mem
  obtain ⟨v, set, rfl⟩ := Option.map_eq_some_iff.1 made
  refine ⟨forAll, p, p.mem_all, rfl, ?_⟩
  rw [set]
  exact Option.some_ne_none v

/-- No row of another name is in the new table. -/
theorem others_setAll (file : List Byte) :
    (Edit.setAll recvbuffer).others ((Edit.setAll recvbuffer).write file) = [] := by
  rw [write_setAll forAll, Edit.others, (freshRows_table recvbuffer).fileRows_eq, List.filter_eq_nil_iff]
  intro line mem
  obtain ⟨row, inRows, rfl⟩ := List.mem_map.1 mem
  have own : (Edit.setAll recvbuffer).Names (rowName row.text) := by
    rw [rowName, row.splitString_name]
    exact names_freshRows forAll inRows
  simpa using own

end SetAll

theorem write_setAll_other {recvbuffer : List Byte} (single : msgGetInt (recvbuffer.drop 44) 3 ≠ 0)
    (file : List Byte) : (Edit.setAll recvbuffer).write file = file := by
  rw [Edit.write, setInverterAcProtection17]
  dsimp only
  rw [if_neg single]
  split_ifs <;> rfl

/-! ## What A146 leaves -/

/-- Its row is the last one and is not ended. -/
theorem powerFactor_breaks {rows : List Row} {file : List Byte} (table : FreshTable rows file)
    {recvbuffer : List Byte} {code : Int} (read : powerFactorCode recvbuffer = some code) :
    ¬ FormedTable ((Edit.powerFactor recvbuffer).write file) := by
  intro formed
  obtain ⟨whole, -, -, rfl⟩ := table.setpropa
  have lines : fileRows ((Edit.powerFactor recvbuffer).write whole.text) = _ :=
    (congrArg fileRows (whole.setAllInverterPowerFactor_text read)).trans
      (Setpropa.readLines_text _ (by decide))
  have last : powerFactorRow code ∈ fileRows ((Edit.powerFactor recvbuffer).write whole.text) := by
    rw [lines]
    exact List.mem_append_right _ (List.mem_singleton_self _)
  have inside := (formed.rows _ last).ended.subset (List.mem_singleton_self newline)
  exact (powerFactorRow_chars code inside).2 rfl

/-! ## What `clear_flag` leaves -/

theorem splitString_count (data : List Byte) : (splitString data).length = (cstr data).count comma + 1 := by
  have each (text : List Byte) : (text.splitOn comma).length = text.count comma + 1 := by
    induction text with
    | nil => rfl
    | cons b text ih =>
      obtain ⟨first, fields, split⟩ := List.exists_cons_of_ne_nil (List.splitOn_ne_nil comma text)
      rw [List.splitOn_cons_eq_if_modifyHead]
      by_cases sep : b = comma
      · rw [if_pos (beq_iff_eq.2 sep), sep, List.count_cons_self, List.length_cons, ih]
      · rw [if_neg (by simpa using sep), List.length_modifyHead, ih, List.count_cons_of_ne sep]
  exact each (cstr data)

theorem insertAttempts_repeats (str file : List Byte) (n : Nat) :
    ∃ k, insertAttempts str (n + 1) file = file ++ (List.replicate (k + 1) (cstr str)).flatten := by
  induction n generalizing file with
  | zero =>
    refine ⟨0, ?_⟩
    rw [insertAttempts]
    split_ifs
    · simp [insertLine]
    · simp [insertLine, insertAttempts]
  | succ n ih =>
    rw [insertAttempts]
    split_ifs
    · exact ⟨0, by simp [insertLine]⟩
    · obtain ⟨k, same⟩ := ih (insertLine file str).1
      refine ⟨k + 1, ?_⟩
      rw [same, insertLine, List.replicate_succ (n := k + 1), List.flatten_cons, List.append_assoc]

/-- What `clear_flag` puts behind the name. -/
def doneTail (number : Int) : List Byte :=
  csvRow [[], Decimal.intText number, [], str "0"]

theorem doneRow_eq (paraName value : List Byte) : doneRow paraName value = paraName ++ doneTail (atoi value) := by
  rw [doneRow, doneTail, csvRow_cons, csvRow_cons [] _ _]
  rfl

theorem doneTail_plain (number : Int) : ∀ field ∈ [[], Decimal.intText number, [], str "0"], Plain field := by
  intro field mem
  simp only [List.mem_cons, List.not_mem_nil, or_false] at mem
  rcases mem with rfl | rfl | rfl | rfl
  · exact plain_nil
  · exact plain_intText number
  · exact plain_nil
  · exact plain_flag.1

theorem doneTail_length {number : Int} (small : number.natAbs < 10 ^ 6) : (doneTail number).length ≤ 12 := by
  have value := intText_length (w := 6) (by decide) small
  have flags := flag_length
  rw [doneTail, csvRow_length (List.cons_ne_nil _ _)]
  simp only [List.map_cons, List.map_nil, List.sum_cons, List.sum_nil, List.length_nil, flags]
  omega

theorem doneTail_clean {number : Int} : ∀ b ∈ doneTail number, b ≠ nul := by
  intro b mem
  rcases List.mem_append.1 mem with there | there
  · exact (csvRow_chars (doneTail_plain number) there).1
  · rw [List.mem_singleton.1 there]
    decide

theorem doneTail_commas (number : Int) : (doneTail number).count comma = 3 := by
  have split : splitString (doneTail number) = [[], Decimal.intText number, [], str "0" ++ [newline]] :=
    splitString_csvRow [_, _, _] _ (doneTail_plain number)
  have fields := splitString_count (doneTail number)
  rw [split, cstr_of_clean doneTail_clean] at fields
  simpa using fields.symm

section Behind

variable {before : List Byte} (chars : ∀ b ∈ before, b ≠ nul ∧ b ≠ newline) (number : Int)

include chars

theorem doneTail_isLine (short : before.length < 100) (small : number.natAbs < 10 ^ 6) :
    Lines.IsLine newline 200 (before ++ doneTail number) where
  shape := by
    refine ⟨before ++ [comma].intercalate [[], Decimal.intText number, [], str "0"], ?_, ?_⟩
    · rw [doneTail, csvRow, List.append_assoc]
    · intro mem
      rcases List.mem_append.1 mem with there | there
      · exact (chars newline there).2 rfl
      · exact (csvRow_chars (doneTail_plain number) there).2 rfl
  fits := by
    have tail := doneTail_length small
    rw [List.length_append]
    omega

/-- The line has at least four fields. -/
theorem doneTail_fields : ¬ FormedRow (before ++ doneTail number) := by
  intro formed
  have clean : ∀ b ∈ before ++ doneTail number, b ≠ nul := by
    intro b mem
    rcases List.mem_append.1 mem with there | there
    · exact (chars b there).1
    · exact doneTail_clean b there
  have fields := formed.fields
  rw [splitString_count, cstr_of_clean clean, List.count_append, doneTail_commas] at fields
  omega

end Behind

theorem Row.text_clean (row : Row) : ∀ b ∈ row.text, b ≠ nul := by
  intro b mem
  rcases List.mem_append.1 mem with there | there
  · exact (csvRow_chars row.fields_plain there).1
  · rw [List.mem_singleton.1 there]
    decide

/-- The row is read as whole lines, the last of them with too many fields; `paraName` is the beginning of a line. -/
theorem doneRow_lines {row : Row} (fits : row.Fits) {paraName : List Byte} (starts : paraName <+: row.text)
    {number : Int} (small : number.natAbs < 10 ^ 6) :
    ∃ lines last, paraName ++ doneTail number = (lines ++ [last]).flatten ∧
      (∀ line ∈ lines ++ [last], Lines.IsLine newline 200 line) ∧ ¬ FormedRow last := by
  obtain ⟨⟨body, text, whole⟩, short⟩ := row.isLine fits
  rw [text, List.prefix_concat_iff] at starts
  rcases starts with all | part
  · rw [← text] at all
    have none : ∀ b ∈ ([] : List Byte), b ≠ nul ∧ b ≠ newline := fun _ mem => absurd mem List.not_mem_nil
    refine ⟨[row.text], doneTail number, ?_, ?_, doneTail_fields none number⟩
    · rw [all]
      simp
    · intro line mem
      simp only [List.cons_append, List.nil_append, List.mem_cons, List.not_mem_nil, or_false] at mem
      rcases mem with rfl | rfl
      · exact (row.isLine fits).mono (by decide)
      · exact doneTail_isLine none number (by decide) small
  · have chars : ∀ b ∈ paraName, b ≠ nul ∧ b ≠ newline := by
      intro b mem
      have inBody := part.subset mem
      refine ⟨row.text_clean b (text ▸ List.mem_append_left _ inBody), ?_⟩
      rintro rfl
      exact whole inBody
    have shorter : paraName.length < 100 := by
      have := part.length_le
      have := congrArg List.length text
      rw [List.length_append] at this
      omega
    refine ⟨[], paraName ++ doneTail number, ?_, ?_, doneTail_fields chars number⟩
    · simp
    · intro line mem
      rw [List.nil_append, List.mem_singleton] at mem
      rw [mem]
      exact doneTail_isLine chars number shorter small

theorem clear_breaks {rows : List Row} {file : List Byte} (table : FreshTable rows file) {paraName : List Byte}
    {row : Row} (mem : row ∈ rows) (starts : paraName <+: row.text) :
    ¬ FormedTable ((Edit.clear paraName).write file) := by
  have rowLines : ∀ line ∈ rows.map Row.text, Lines.IsLine newline 200 line := by
    intro line inLines
    obtain ⟨row, inRows, rfl⟩ := List.mem_map.1 inLines
    exact (Row.isLine (table.fits row inRows)).mono (by decide)
  have clean : ∀ line ∈ rows.map Row.text, cstr line = line := by
    intro line inLines
    obtain ⟨row, -, rfl⟩ := List.mem_map.1 inLines
    exact row.cstr_text
  -- the row that is read
  have found : readLine file paraName ≠ none := by
    rw [readLine, table.text, readLines_rows table.fits (Nat.le_refl 100)]
    intro none
    have passed := List.find?_eq_none.1 none row.text (List.mem_map_of_mem mem)
    exact passed (decide_eq_true starts)
  obtain ⟨data, read⟩ := Option.ne_none_iff_exists'.1 found
  have inFile : data ∈ rows.map Row.text := by
    rw [readLine, table.text, readLines_rows table.fits (Nat.le_refl 100)] at read
    exact List.mem_of_find?_eq_some read
  obtain ⟨first, inRows, rfl⟩ := List.mem_map.1 inFile
  have number : atoi ((splitString first.text).getD 1 []) = first.number := by
    rw [first.splitString_value, first.atoi_value]
  obtain ⟨lines, last, split, whole, long⟩ :=
    doneRow_lines (table.fits row mem) starts (table.fits first inRows).number
  -- the row that is written
  have plain : cstr (paraName ++ doneTail first.number) = paraName ++ doneTail first.number := by
    apply cstr_of_clean
    intro b there
    rcases List.mem_append.1 there with there | there
    · exact row.text_clean b (starts.subset there)
    · exact doneTail_clean b there
  obtain ⟨k, written⟩ := insertAttempts_repeats (paraName ++ doneTail first.number) (deleteLine file paraName) 2
  have after : (Edit.clear paraName).write file =
      ((rows.map Row.text).filter (fun data => ¬ paraName <+: data) ++
        (List.replicate (k + 1) (lines ++ [last])).flatten).flatten := by
    rw [Edit.write, clearFlag, read]
    dsimp only
    rw [doneRow_eq, number, written, plain, table.text, deleteLine_whole rowLines clean, List.flatten_append, split,
      List.flatten_flatten, List.map_replicate]
  have read : fileRows ((Edit.clear paraName).write file) =
      (rows.map Row.text).filter (fun data => ¬ paraName <+: data) ++
        (List.replicate (k + 1) (lines ++ [last])).flatten := by
    rw [after, fileRows]
    apply Lines.readLines_flatten
    intro line there
    rcases List.mem_append.1 there with there | there
    · exact rowLines line (List.mem_filter.1 there).1
    · obtain ⟨part, inParts, there⟩ := List.mem_flatten.1 there
      exact whole line (List.eq_of_mem_replicate inParts ▸ there)
  intro formed
  have lastRow : last ∈ fileRows ((Edit.clear paraName).write file) := by
    rw [read]
    apply List.mem_append_right
    exact List.mem_flatten.2 ⟨_, List.mem_replicate.2 ⟨Nat.succ_ne_zero k, rfl⟩,
      List.mem_append_right _ (List.mem_singleton_self last)⟩
  exact long (formed.rows last lastRow)

theorem write_powerFactor_none {recvbuffer file : List Byte} (none : powerFactorCode recvbuffer = .none) :
    (Edit.powerFactor recvbuffer).write file = file := by
  rw [Edit.write, setAllInverterPowerFactor, none]

theorem write_clear_none {rows : List Row} {file : List Byte} (table : FreshTable rows file) {paraName : List Byte}
    (none : ∀ row ∈ fileRows file, ¬ paraName <+: row) : (Edit.clear paraName).write file = file := by
  have missing : readLine file paraName = .none := by
    rw [table.fileRows_eq] at none
    rw [readLine, table.text, readLines_rows table.fits (Nat.le_refl 100), List.find?_eq_none]
    intro line mem
    simpa using none line mem
  rw [Edit.write, clearFlag, missing]

/-! ## Runs -/

/-- The rows of other names are as they were. -/
def Edit.Unchanged (file : List Byte) (edit : Edit) : Prop :=
  edit.others (edit.write file) = edit.others file

section Step

variable {rows : List Row} {file : List Byte} (table : FreshTable rows file) {edit : Edit}

include table

/-- What a step against the condition does. -/
theorem keeps_of_formed (formed : FormedTable (edit.write file)) (unchanged : edit.Unchanged file) :
    edit.Keeps file := by
  cases edit with
  | setAll recvbuffer =>
    intro forAll row mem
    rw [Edit.Unchanged, others_setAll forAll] at unchanged
    have none := List.filter_eq_nil_iff.1 unchanged.symm row mem
    simpa using none
  | powerFactor recvbuffer =>
    by_contra read
    obtain ⟨code, read⟩ := Option.ne_none_iff_exists'.1 read
    exact powerFactor_breaks table read formed
  | clear paraName =>
    intro line mem starts
    rw [table.fileRows_eq] at mem
    obtain ⟨row, inRows, rfl⟩ := List.mem_map.1 mem
    exact clear_breaks table inRows starts formed

theorem unchanged_of_keeps (keeps : edit.Keeps file) : edit.Unchanged file := by
  cases edit with
  | setAll recvbuffer =>
    by_cases forAll : msgGetInt (recvbuffer.drop 44) 3 = 0
    · rw [Edit.Unchanged, others_setAll forAll]
      symm
      rw [Edit.others, List.filter_eq_nil_iff]
      intro row mem
      simpa using keeps forAll row mem
    · rw [Edit.Unchanged, write_setAll_other forAll]
  | powerFactor recvbuffer => rw [Edit.Unchanged, write_powerFactor_none keeps]
  | clear paraName => rw [Edit.Unchanged, write_clear_none table keeps]

theorem freshTable_of_keeps (keeps : edit.Keeps file) : ∃ after, FreshTable after (edit.write file) := by
  cases edit with
  | setAll recvbuffer =>
    by_cases forAll : msgGetInt (recvbuffer.drop 44) 3 = 0
    · rw [write_setAll forAll]
      exact ⟨_, freshRows_table recvbuffer⟩
    · rw [write_setAll_other forAll]
      exact ⟨rows, table⟩
  | powerFactor recvbuffer =>
    rw [write_powerFactor_none keeps]
    exact ⟨rows, table⟩
  | clear paraName =>
    rw [write_clear_none table keeps]
    exact ⟨rows, table⟩

end Step

/-- From no file: the table keeps its form and every step the rows of other names exactly when no step writes a row of
A146 or `clear_flag` and A132 leaves out no name of the table. -/
theorem table_keeps_form (edits : List Edit) :
    Runs.Always Edit.step FormedTable edits [] ∧ Runs.Along Edit.step (fun file edit => edit.Unchanged file) edits [] ↔
      Runs.Along Edit.step (fun file edit => edit.Keeps file) edits [] := by
  have inv : ∃ rows, FreshTable rows [] := ⟨[], freshTable_nil⟩
  have meets {file after : List Byte} {edit : Edit} (fresh : ∃ rows, FreshTable rows file)
      (made : edit.step file = some after) :
      (∀ next, edit.step file = some next → FormedTable next) ∧ edit.Unchanged file ↔ edit.Keeps file := by
    obtain ⟨rows, table⟩ := fresh
    constructor
    · rintro ⟨formed, unchanged⟩
      exact keeps_of_formed table (formed _ rfl) unchanged
    · intro keeps
      refine ⟨?_, unchanged_of_keeps table keeps⟩
      intro next step
      obtain ⟨rows', table'⟩ := freshTable_of_keeps table keeps
      cases step
      exact table'.formed
  have stays {file after : List Byte} {edit : Edit} (fresh : ∃ rows, FreshTable rows file)
      (made : edit.step file = some after) (keeps : edit.Keeps file) : ∃ rows, FreshTable rows after := by
    obtain ⟨rows, table⟩ := fresh
    cases made
    exact freshTable_of_keeps table keeps
  rw [Runs.always_iff_steps, and_assoc, ← Runs.along_and, and_iff_right freshTable_nil.formed]
  exact (Runs.along_congr (fun file => ∃ rows, FreshTable rows file) (fun fresh made => (meets fresh made).symm)
    stays inv).symm

/-- One message A146 and the table is out of form: its row is not ended. -/
theorem power_factor_unended :
    ¬ (Runs.Always Edit.step FormedTable
        [.powerFactor (str "APS1300051A146AAA1203000000001B00020170601080000END")] [] ∧
      Runs.Along Edit.step (fun file edit => edit.Unchanged file)
        [.powerFactor (str "APS1300051A146AAA1203000000001B00020170601080000END")] []) := by
  rintro ⟨⟨-, formed⟩, -⟩
  have read : powerFactorCode (str "APS1300051A146AAA1203000000001B00020170601080000END") = some 1 := by
    rw [str_ofList]
    decide
  exact powerFactor_breaks freshTable_nil read (formed _ rfl)

end Ecu.Protection
