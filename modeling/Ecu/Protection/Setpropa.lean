import Ecu.Protection.Handlers

/-!
# The table for all inverters as rows

Its writers leave three kinds of rows: A132 writes `name,value,1`, `clear_flag` puts `name,number,,0` at the end, and
where the last row is one of A146, which has no line end, the new row is joined to it. `Setpropa` is such a table;
the functions on the file do what `clear`, `setAll` and `setPowerFactor` do on its rows.
-/

namespace Ecu.Protection

open Param Socket

/-! ## Rows -/

inductive Row where
  /-- `name,value,1` of A132, the value in hundredths. -/
  | fresh (name : Param) (hundredths : Nat)
  /-- `name,number,,0` of `clear_flag`. -/
  | done (name : Param) (number : Int)
  /-- The row `power_factor,code,1` of A146 with one of `clear_flag` on the same line. -/
  | glued (code : Int) (name : Param) (number : Int)
deriving DecidableEq

namespace Row

def fields : Row → List (List Byte)
  | fresh p hundredths => [p.text, FixedPoint.digits 2 hundredths, str "1"]
  | done p number => [p.text, Decimal.intText number, [], str "0"]
  | glued code p number =>
    [powerFactor.text, Decimal.intText code, str "1" ++ p.text, Decimal.intText number, [], str "0"]

def text (row : Row) : List Byte :=
  csvRow row.fields

/-- The name that the line begins with. -/
def name : Row → Param
  | fresh p _ | done p _ => p
  | glued _ _ _ => powerFactor

/-- Its value, read by `atoi`. -/
def number : Row → Int
  | fresh _ hundredths => (hundredths / 100 : Nat)
  | done _ number => number
  | glued code _ _ => code

/-- The flag is set. -/
def IsSet : Row → Prop
  | fresh _ _ | glued _ _ _ => True
  | done _ _ => False

instance (row : Row) : Decidable row.IsSet :=
  match row with
  | fresh _ _ | glued _ _ _ => inferInstanceAs (Decidable True)
  | done _ _ => inferInstanceAs (Decidable False)

/-- The numbers have the range of the messages. -/
def Fits : Row → Prop
  | fresh p hundredths => p ∈ proName ∧ hundredths ≤ 99999900
  | done _ number => number.natAbs < 10 ^ 6
  | glued code _ number => code.natAbs < 10 ^ 6 ∧ number.natAbs < 10 ^ 6

theorem Fits.number {row : Row} (fits : row.Fits) : row.number.natAbs < 10 ^ 6 := by
  cases row with
  | fresh p hundredths =>
    have small := fits.2
    simp only [Row.number]
    omega
  | done p number => exact fits
  | glued code p number => exact fits.1

end Row

/-! ## Tables -/

/-- The rows of the file, and the number of a power factor behind them whose row is not ended. -/
structure Setpropa where
  rows : List Row
  last : Option Int
  fits : ∀ row ∈ rows, row.Fits
  lastFits : ∀ code ∈ last, code.natAbs < 10 ^ 6

namespace Setpropa

def empty : Setpropa where
  rows := []
  last := none
  fits _ mem := absurd mem List.not_mem_nil
  lastFits _ mem := absurd mem (Option.not_mem_none _)

def lines (table : Setpropa) : List (List Byte) :=
  table.rows.map Row.text ++ (table.last.map powerFactorRow).toList

def text (table : Setpropa) : List Byte :=
  table.lines.flatten

/-- The number in the first row of the name. -/
def find (table : Setpropa) (p : Param) : Option Int :=
  ((table.rows.find? fun row => row.name = p).map Row.number).or (if p = powerFactor then table.last else none)

/-- The row of A146 is joined to the row that is put behind it. -/
def joined (table : Setpropa) (p : Param) (number : Int) : List Row :=
  if p = powerFactor then [] else (table.last.map fun code => Row.glued code p number).toList

theorem find_fits (table : Setpropa) (p : Param) : ((table.find p).getD 0).natAbs < 10 ^ 6 := by
  cases found : table.find p with
  | none => decide
  | some number =>
    rcases Option.or_eq_some_iff.1 found with here | ⟨-, there⟩
    · obtain ⟨row, first, rfl⟩ := Option.map_eq_some_iff.1 here
      exact (table.fits row (List.mem_of_find?_eq_some first)).number
    · by_cases same : p = powerFactor
      · rw [if_pos same] at there
        exact table.lastFits number there
      · rw [if_neg same] at there
        cases there

theorem clear_fits (table : Setpropa) (p : Param) : ∀ row ∈ (table.rows.filter fun row => row.name ≠ p) ++
    table.joined p ((table.find p).getD 0) ++ [.done p ((table.find p).getD 0)], row.Fits := by
  intro row mem
  rcases List.mem_append.1 mem with mem | last
  · rcases List.mem_append.1 mem with kept | joined
    · exact table.fits row (List.mem_filter.1 kept).1
    · unfold Setpropa.joined at joined
      split_ifs at joined with same
      · exact absurd joined List.not_mem_nil
      · obtain ⟨code, isLast, rfl⟩ := Option.map_eq_some_iff.1 (Option.mem_toList.1 joined)
        exact ⟨table.lastFits code isLast, table.find_fits p⟩
  · rw [List.mem_singleton.1 last]
    exact table.find_fits p

/-- `clear_flag` -/
def clear (table : Setpropa) (p : Param) : Setpropa :=
  if table.find p = none then table
  else
    { rows := (table.rows.filter fun row => row.name ≠ p) ++ table.joined p ((table.find p).getD 0) ++
        [.done p ((table.find p).getD 0)]
      last := none
      fits := table.clear_fits p
      lastFits := empty.lastFits }

/-- `set_all_inverter_power_factor` -/
def setPowerFactor (table : Setpropa) (code : Int) (small : code.natAbs < 10 ^ 6) : Setpropa where
  rows := table.rows.filter fun row => row.name ≠ powerFactor
  last := some code
  fits row mem := table.fits row (List.mem_filter.1 mem).1
  lastFits _ mem := Option.mem_some_iff.1 mem ▸ small

end Setpropa

/-! ## Their lines -/

theorem plain_digits (p n : Nat) : Plain (FixedPoint.digits p n) := by
  rw [← FixedPoint.print_exact]
  exact plain_of_digits (FixedPoint.print_chars p _)

theorem atoi_digits (hundredths : Nat) {rest : List Byte} :
    atoi (FixedPoint.digits 2 hundredths ++ rest) = (hundredths / 100 : Nat) := by
  have stops : Stops (FixedPoint.dot :: Decimal.fixed 2 (hundredths % 10 ^ 2 : Nat) ++ rest) := by
    intro b first
    rw [List.cons_append, List.head?_cons, Option.mem_some_iff] at first
    rw [← first]
    decide
  have whole := atoi_intText (hundredths / 10 ^ 2 : Nat) stops
  rw [Decimal.intText, if_neg (Int.not_lt.2 (Int.natCast_nonneg _)), Int.natAbs_natCast] at whole
  rw [FixedPoint.digits, List.append_assoc]
  exact whole

theorem stops_name (p : Param) : Stops p.text := by
  intro b first
  obtain ⟨letter, rest, same, high⟩ := p.text_letter
  rw [same, List.head?_cons, Option.mem_some_iff] at first
  rw [← first]
  exact fun digit => absurd (UInt8.le_trans high digit.2) (by decide)

namespace Row

theorem fields_plain (row : Row) : ∀ field ∈ row.fields, Plain field := by
  intro field mem
  cases row with
  | fresh p hundredths =>
    simp only [fields, List.mem_cons, List.not_mem_nil, or_false] at mem
    rcases mem with rfl | rfl | rfl
    · exact p.text_plain
    · exact plain_digits 2 hundredths
    · exact plain_flag.2
  | done p number =>
    simp only [fields, List.mem_cons, List.not_mem_nil, or_false] at mem
    rcases mem with rfl | rfl | rfl | rfl
    · exact p.text_plain
    · exact plain_intText number
    · exact plain_nil
    · exact plain_flag.1
  | glued code p number =>
    simp only [fields, List.mem_cons, List.not_mem_nil, or_false] at mem
    rcases mem with rfl | rfl | rfl | rfl | rfl | rfl
    · exact powerFactor.text_plain
    · exact plain_intText code
    · exact Plain.append plain_flag.2 p.text_plain
    · exact plain_intText number
    · exact plain_nil
    · exact plain_flag.1

theorem text_length {row : Row} (fits : row.Fits) : row.text.length < 100 := by
  have number {v : Int} (small : v.natAbs < 10 ^ 6) := intText_length (w := 6) (by decide) small
  have flags := flag_length
  cases row with
  | fresh p hundredths =>
    have value : (FixedPoint.digits 2 hundredths).length ≤ 9 := by
      rw [← FixedPoint.print_exact]
      apply print_value_length 2
      constructor
      · positivity
      · rw [div_le_iff₀ (by positivity)]
        exact_mod_cast fits.2
    have name := p.text_length
    rw [text, fields, csvRow_length (List.cons_ne_nil _ _)]
    simp only [List.map_cons, List.map_nil, List.sum_cons, List.sum_nil, flags]
    omega
  | done p v =>
    have value := number fits
    have name := p.text_length
    rw [text, fields, csvRow_length (List.cons_ne_nil _ _)]
    simp only [List.map_cons, List.map_nil, List.sum_cons, List.sum_nil, List.length_nil, flags]
    omega
  | glued code p v =>
    have first := number fits.1
    have second := number fits.2
    have name := p.text_length
    have power := powerFactor.text_length
    rw [text, fields, csvRow_length (List.cons_ne_nil _ _)]
    simp only [List.map_cons, List.map_nil, List.sum_cons, List.sum_nil, List.length_nil,
      List.length_append, flags]
    omega

theorem isLine {row : Row} (fits : row.Fits) : Lines.IsLine newline 100 row.text :=
  ⟨(csvRow_isLine row.fields_plain (Nat.lt_of_lt_of_le (text_length fits) (by decide))).shape, text_length fits⟩

theorem cstr_text (row : Row) : cstr row.text = row.text :=
  csvRow_clean row.fields_plain

/-- The text of its value. -/
def value : Row → List Byte
  | fresh _ hundredths => FixedPoint.digits 2 hundredths
  | done _ number => Decimal.intText number
  | glued code _ _ => Decimal.intText code

theorem splitString_text (row : Row) : ∃ rest, splitString row.text = row.name.text :: row.value :: rest := by
  cases row with
  | fresh p hundredths => exact ⟨_, splitString_csvRow [_, _] _ (fresh p hundredths).fields_plain⟩
  | done p number => exact ⟨_, splitString_csvRow [_, _, _] _ (done p number).fields_plain⟩
  | glued code p number => exact ⟨_, splitString_csvRow [_, _, _, _, _] _ (glued code p number).fields_plain⟩

theorem splitString_name (row : Row) : (splitString row.text).getD 0 [] = row.name.text := by
  obtain ⟨rest, split⟩ := row.splitString_text
  rw [split, List.getD_cons_zero]

theorem splitString_value (row : Row) : (splitString row.text).getD 1 [] = row.value := by
  obtain ⟨rest, split⟩ := row.splitString_text
  rw [split, List.getD_cons_succ, List.getD_cons_zero]

theorem atoi_value (row : Row) : atoi row.value = row.number := by
  rw [← List.append_nil row.value]
  cases row with
  | fresh p hundredths => exact atoi_digits hundredths
  | done p number => exact atoi_intText number stops_nil
  | glued code p number => exact atoi_intText code stops_nil

theorem flagSet_text (row : Row) : flagSet 2 row.text ↔ row.IsSet := by
  cases row with
  | fresh p hundredths =>
    have split : splitString (fresh p hundredths).text =
        [p.text, FixedPoint.digits 2 hundredths, str "1" ++ [newline]] :=
      splitString_csvRow [_, _] _ (fresh p hundredths).fields_plain
    rw [flagSet, split]
    exact ⟨fun _ => trivial, fun _ => atoi_one (stops_newline [])⟩
  | done p number =>
    have split : splitString (done p number).text =
        [p.text, Decimal.intText number, [], str "0" ++ [newline]] :=
      splitString_csvRow [_, _, _] _ (done p number).fields_plain
    rw [flagSet, split]
    have none : ¬ atoi [] = 1 := by decide
    exact ⟨fun set => absurd set none, False.elim⟩
  | glued code p number =>
    have split : splitString (glued code p number).text =
        [powerFactor.text, Decimal.intText code, str "1" ++ p.text, Decimal.intText number, [], str "0" ++ [newline]] :=
      splitString_csvRow [_, _, _, _, _] _ (glued code p number).fields_plain
    rw [flagSet, split]
    exact ⟨fun _ => trivial, fun _ => atoi_one (stops_name p)⟩

end Row

/-- A line begins with a name only if this is its own. -/
theorem name_starts {p q : Param} {rest : List Byte} : p.text <+: q.text ++ comma :: rest ↔ q = p := by
  constructor
  · intro part
    rcases List.prefix_or_prefix_of_prefix part (List.prefix_append q.text (comma :: rest)) with here | here
    · exact (eq_of_starts here).symm
    · exact eq_of_starts here
  · rintro rfl
    exact List.prefix_append _ _

theorem Row.prefix_text (row : Row) (p : Param) : p.text <+: row.text ↔ row.name = p := by
  have shape : ∃ rest, row.text = row.name.text ++ comma :: rest := by
    cases row with
    | fresh p hundredths => exact ⟨_, csvRow_cons _ _ _⟩
    | done p number => exact ⟨_, csvRow_cons _ _ _⟩
    | glued code p number => exact ⟨_, csvRow_cons _ _ _⟩
  obtain ⟨rest, same⟩ := shape
  rw [same, name_starts]

/-! ## The row without line end -/

section Last

variable (code : Int)

theorem powerFactorRow_plain : ∀ field ∈ [powerFactor.text, Decimal.intText code, str "1"], Plain field := by
  intro field mem
  simp only [List.mem_cons, List.not_mem_nil, or_false] at mem
  rcases mem with rfl | rfl | rfl
  · exact powerFactor.text_plain
  · exact plain_intText code
  · exact plain_flag.2

theorem powerFactorRow_chars {b : Byte} (mem : b ∈ powerFactorRow code) : b ≠ nul ∧ b ≠ newline :=
  csvRow_chars (powerFactorRow_plain code) mem

theorem powerFactorRow_cstr : cstr (powerFactorRow code) = powerFactorRow code :=
  cstr_of_clean fun _ mem => (powerFactorRow_chars code mem).1

theorem powerFactorRow_split : splitString (powerFactorRow code) =
    [powerFactor.text, Decimal.intText code, str "1"] := by
  rw [splitString, powerFactorRow_cstr, powerFactorRow]
  apply List.splitOn_intercalate comma _ (List.cons_ne_nil _ _)
  intro field mem there
  exact (powerFactorRow_plain code field mem comma there).2.2 rfl

theorem powerFactorRow_set : flagSet 2 (powerFactorRow code) := by
  rw [flagSet, powerFactorRow_split]
  simpa using atoi_one stops_nil

/-- A row behind it is joined to it. -/
theorem powerFactorRow_append (p : Param) (number : Int) :
    powerFactorRow code ++ (Row.done p number).text = (Row.glued code p number).text := by
  simp only [powerFactorRow, Row.text, Row.fields, csvRow, List.intercalate_cons_cons, List.intercalate_singleton,
    List.append_assoc]

theorem powerFactorRow_length {code : Int} (small : code.natAbs < 10 ^ 6) : (powerFactorRow code).length < 100 := by
  have whole := congrArg List.length (powerFactorRow_append code powerFactor 0)
  have joined : (Row.glued code powerFactor 0).Fits := ⟨small, by decide⟩
  have fits := Row.text_length joined
  rw [List.length_append] at whole
  omega

theorem powerFactorRow_starts (p : Param) : p.text <+: powerFactorRow code ↔ powerFactor = p := by
  have shape : powerFactorRow code = powerFactor.text ++ comma :: [comma].intercalate
    [Decimal.intText code, str "1"] := by
    simp [powerFactorRow]
  rw [shape, name_starts]

end Last

/-! ## The functions on the file -/

namespace Setpropa

variable (table : Setpropa)

theorem text_eq : table.text =
    (table.rows.map Row.text).flatten ++ ((table.last.map powerFactorRow).getD []) := by
  rw [text, lines, List.flatten_append]
  cases table.last with
  | none => rfl
  | some code => simp

theorem readLines_text {size : Nat} (more : 100 ≤ size) : Lines.readLines newline size table.text = table.lines := by
  have whole : ∀ line ∈ table.rows.map Row.text, Lines.IsLine newline size line := by
    intro line mem
    obtain ⟨row, inRows, rfl⟩ := List.mem_map.1 mem
    exact (Row.isLine (table.fits row inRows)).mono more
  rw [text_eq, lines]
  cases isLast : table.last with
  | none => simpa using Lines.readLines_flatten whole
  | some code =>
    have open_ : newline ∉ powerFactorRow code := fun mem => (powerFactorRow_chars code mem).2 rfl
    have fits := Nat.lt_of_lt_of_le (powerFactorRow_length (table.lastFits code isLast)) more
    have some : powerFactorRow code ≠ [] := by simp [powerFactorRow]
    have read := Lines.readLines_flatten_append whole open_ fits
    rw [Lines.remainder, if_neg some] at read
    exact read

theorem lines_cstr : ∀ line ∈ table.lines, cstr line = line := by
  intro line mem
  rcases List.mem_append.1 mem with mem | mem
  · obtain ⟨row, -, rfl⟩ := List.mem_map.1 mem
    exact row.cstr_text
  · obtain ⟨code, -, rfl⟩ := Option.map_eq_some_iff.1 (Option.mem_toList.1 mem)
    exact powerFactorRow_cstr code

/-- The first row whose flag is set: its name and its value. -/
def firstSet : Option (Param × List Byte) :=
  ((table.rows.find? Row.IsSet).map fun row => (row.name, row.value)).or
    (table.last.map fun code => (powerFactor, Decimal.intText code))

theorem getValueFlag_text : getValueFlag table.text = table.firstSet.map fun row => (row.1.text, row.2) := by
  have rows : (table.rows.map Row.text).find? (fun data => flagSet 2 data) =
      (table.rows.find? Row.IsSet).map Row.text := by
    rw [List.find?_map]
    congr 1
    apply List.find?_congr
    intro row _
    exact decide_eq_decide.2 row.flagSet_text
  rw [getValueFlag, table.readLines_text (by decide), lines, List.find?_append, rows, firstSet]
  cases table.rows.find? Row.IsSet with
  | some row => simp only [Option.map_some, Option.some_or, row.splitString_name, row.splitString_value]
  | none =>
    cases table.last with
    | none => rfl
    | some code => simp [powerFactorRow_set code, powerFactorRow_split code]

theorem readLine_text (p : Param) :
    (readLine table.text p.text).map (fun data => atoi ((splitString data).getD 1 [])) = table.find p := by
  have rows : (table.rows.map Row.text).find? (fun data => p.text <+: data) =
      (table.rows.find? fun row => row.name = p).map Row.text := by
    rw [List.find?_map]
    congr 1
    apply List.find?_congr
    intro row _
    exact decide_eq_decide.2 (row.prefix_text p)
  rw [readLine, table.readLines_text (Nat.le_refl 100), lines, List.find?_append, rows, find]
  cases table.rows.find? fun row => row.name = p with
  | some row => simp only [Option.map_some, Option.some_or, row.splitString_value, row.atoi_value]
  | none =>
    cases table.last with
    | none => simp
    | some code =>
      by_cases same : powerFactor = p
      · have value := atoi_intText code stops_nil
        rw [List.append_nil] at value
        simp [powerFactorRow_starts code p, same, powerFactorRow_split code, value]
      · simp [powerFactorRow_starts code p, same, Ne.symm same]

/-- The file without the rows of a name. -/
theorem deleteLine_text (p : Param) : deleteLine table.text p.text =
    ((table.rows.filter fun row => row.name ≠ p).map Row.text).flatten ++
      (if p = powerFactor then [] else ((table.last.map powerFactorRow).getD [])) := by
  have same : (table.lines.filter fun data => ¬ p.text <+: data).map cstr =
      (table.lines.filter fun data => ¬ p.text <+: data).map id :=
    List.map_congr_left fun line mem => table.lines_cstr line (List.mem_filter.1 mem).1
  have rows : (table.rows.map Row.text).filter (fun data => ¬ p.text <+: data) =
      (table.rows.filter fun row => row.name ≠ p).map Row.text := by
    rw [List.filter_map]
    congr 1
    apply List.filter_congr
    intro row _
    exact decide_eq_decide.2 (not_congr (row.prefix_text p))
  rw [deleteLine, table.readLines_text (by decide), same, List.map_id, lines, List.filter_append, rows,
    List.flatten_append]
  congr 1
  cases table.last with
  | none => simp
  | some code =>
    by_cases same : p = powerFactor
    · have own : powerFactor.text <+: powerFactorRow code := (powerFactorRow_starts code powerFactor).2 rfl
      simp [same, own]
    · simp [powerFactorRow_starts code p, same, Ne.symm same]

end Setpropa

/-! ## Insertion -/

section Insert

variable {rows : List Row} (fits : ∀ row ∈ rows, row.Fits) (row : Row)

include fits

theorem readLines_rows {size : Nat} (more : 100 ≤ size) :
    Lines.readLines newline size (rows.map Row.text).flatten = rows.map Row.text := by
  apply Lines.readLines_flatten
  intro line mem
  obtain ⟨row, inRows, rfl⟩ := List.mem_map.1 mem
  exact (Row.isLine (fits row inRows)).mono more

theorem searchLine_mem (mem : row ∈ rows) : searchLine (rows.map Row.text).flatten row.text = true := by
  rw [searchLine, readLines_rows fits (by decide), List.any_eq_true]
  exact ⟨row.text, List.mem_map_of_mem mem, decide_eq_true List.prefix_rfl⟩

theorem searchLine_other (others : ∀ other ∈ rows, other.name ≠ row.name) :
    searchLine (rows.map Row.text).flatten row.text = false := by
  rw [searchLine, readLines_rows fits (by decide), List.any_eq_false]
  intro line mem part
  obtain ⟨other, inRows, rfl⟩ := List.mem_map.1 mem
  have own : row.name.text <+: row.text := (row.prefix_text row.name).2 rfl
  exact others other inRows ((other.prefix_text row.name).1 (own.trans (of_decide_eq_true part)))

/-- The first attempt that leaves the row on a line of its own is the last one. -/
theorem insertAttempts_found (rowFits : row.Fits) (n : Nat) :
    insertAttempts row.text (n + 1) (rows.map Row.text).flatten = ((rows ++ [row]).map Row.text).flatten := by
  have after : (rows.map Row.text).flatten ++ cstr row.text = ((rows ++ [row]).map Row.text).flatten := by
    rw [row.cstr_text, List.map_append, List.flatten_append, List.map_singleton, List.flatten_singleton]
  have fitsAll : ∀ r ∈ rows ++ [row], r.Fits := by
    intro r mem
    rcases List.mem_append.1 mem with mem | mem
    · exact fits r mem
    · rw [List.mem_singleton.1 mem]
      exact rowFits
  have found : (insertLine (rows.map Row.text).flatten row.text).2 = true := by
    rw [insertLine, after]
    exact searchLine_mem fitsAll row (List.mem_append_right _ (List.mem_singleton_self row))
  rw [insertAttempts, if_pos found]
  exact after

end Insert

/-- `clear_flag` puts its row behind the others; a row without line end it joins first, and tries again. -/
theorem insertAttempts_done {rows : List Row} {p : Param} (others : ∀ row ∈ rows, row.Fits ∧ row.name ≠ p)
    {number : Int} (small : number.natAbs < 10 ^ 6) {last : Option Int}
      (lastFits : ∀ code ∈ last, code.natAbs < 10 ^ 6) :
    insertAttempts (Row.done p number).text 3
        ((rows.map Row.text).flatten ++ (if p = powerFactor then [] else ((last.map powerFactorRow).getD []))) =
      ((rows ++ (if p = powerFactor then [] else (last.map fun code => Row.glued code p number).toList) ++
        [Row.done p number]).map Row.text).flatten := by
  have fits : ∀ row ∈ rows, row.Fits := fun row mem => (others row mem).1
  by_cases power : p = powerFactor
  · rw [if_pos power, if_pos power, List.append_nil, List.append_nil]
    exact insertAttempts_found fits (.done p number) small 2
  · cases last with
    | none =>
      rw [if_neg power, if_neg power, Option.map_none, Option.getD_none, List.append_nil]
      rw [insertAttempts_found fits (.done p number) small 2, Option.map_none, Option.toList_none, List.append_nil]
    | some code =>
      have joinedFits : ∀ row ∈ rows ++ [Row.glued code p number], row.Fits := by
        intro row mem
        rcases List.mem_append.1 mem with mem | mem
        · exact fits row mem
        · rw [List.mem_singleton.1 mem]
          exact ⟨lastFits code rfl, small⟩
      have joinedOthers : ∀ row ∈ rows ++ [Row.glued code p number], row.name ≠ p := by
        intro row mem
        rcases List.mem_append.1 mem with mem | mem
        · exact (others row mem).2
        · rw [List.mem_singleton.1 mem]
          exact Ne.symm power
      have first : (rows.map Row.text).flatten ++ powerFactorRow code ++ cstr (Row.done p number).text =
          ((rows ++ [Row.glued code p number]).map Row.text).flatten := by
        rw [Row.cstr_text, List.append_assoc, powerFactorRow_append, List.map_append, List.flatten_append,
          List.map_singleton, List.flatten_singleton]
      have missed : ¬ searchLine ((rows ++ [Row.glued code p number]).map Row.text).flatten (Row.done p number).text =
          true := by
        rw [searchLine_other joinedFits (.done p number) joinedOthers]
        exact Bool.false_ne_true
      rw [if_neg power, if_neg power, Option.map_some, Option.getD_some, Option.map_some, Option.toList_some]
      rw [insertAttempts, insertLine, first]
      dsimp only
      rw [if_neg missed]
      exact insertAttempts_found joinedFits (.done p number) small 1

namespace Setpropa

variable (table : Setpropa)

theorem clearFlag_text (p : Param) : clearFlag table.text p.text = (table.clear p).text := by
  have value := table.readLine_text p
  unfold clearFlag clear
  cases line : readLine table.text p.text with
  | none =>
    rw [line, Option.map_none] at value
    rw [if_pos value.symm]
  | some data =>
    rw [line, Option.map_some] at value
    have found : table.find p ≠ none := value ▸ Option.some_ne_none _
    have row : doneRow p.text ((splitString data).getD 1 []) = (Row.done p ((table.find p).getD 0)).text := by
      rw [← value]
      rfl
    have others : ∀ row ∈ table.rows.filter fun row => row.name ≠ p, row.Fits ∧ row.name ≠ p := by
      intro row mem
      exact ⟨table.fits row (List.mem_filter.1 mem).1, of_decide_eq_true (List.mem_filter.1 mem).2⟩
    rw [if_neg found]
    dsimp only
    rw [row, deleteLine_text, insertAttempts_done others (table.find_fits p) table.lastFits, text_eq]
    exact (List.append_nil _).symm

end Setpropa

/-! ## The commands -/

theorem powerFactorCode_fits {recvbuffer : List Byte} {code : Int} (read : powerFactorCode recvbuffer = some code) :
    code.natAbs < 10 ^ 6 := by
  unfold powerFactorCode at read
  split_ifs at read with active reactive
  · have high := msgGetInt_lt (recvbuffer.drop 31) 3
    have low := neg_lt_msgGetInt (recvbuffer.drop 31) (Nat.succ_pos 2)
    rw [← Option.some_inj.1 read]
    generalize msgGetInt (recvbuffer.drop 31) 3 = temp at high low ⊢
    have tenth : (temp.tdiv 10).natAbs = temp.natAbs / 10 := Int.natAbs_tdiv temp 10
    split_ifs
    · decide
    · omega
  · rw [← Option.some_inj.1 read]
    decide

namespace Setpropa

variable (table : Setpropa)

theorem setAllInverterPowerFactor_text {recvbuffer : List Byte} {code : Int}
    (read : powerFactorCode recvbuffer = some code) :
    setAllInverterPowerFactor recvbuffer table.text =
      (table.setPowerFactor code (powerFactorCode_fits read)).text := by
  rw [setAllInverterPowerFactor, read]
  dsimp only
  rw [deleteLine_text, if_pos rfl, List.append_nil, insertLine, powerFactorRow_cstr, text_eq]
  rfl

end Setpropa

/-- The rows of A132. -/
def freshRows (settings : Settings) : List Row :=
  proName.filterMap fun p => (settings p).map fun v => .fresh p (FixedPoint.halfEven (v * 10 ^ 2)).natAbs

theorem freshRows_fits (recvbuffer : List Byte) : ∀ row ∈ freshRows (settings132 recvbuffer), row.Fits := by
  intro row mem
  obtain ⟨p, inNames, row_of⟩ := List.mem_filterMap.1 mem
  obtain ⟨v, set, rfl⟩ := Option.map_eq_some_iff.1 row_of
  have bounds := settings132_bounds set
  have high : FixedPoint.halfEven (v * 10 ^ 2) ≤ (99999900 : Int) := by
    apply FixedPoint.halfEven_le
    have := bounds.2
    push_cast at this ⊢
    linarith
  have low : 0 ≤ FixedPoint.halfEven (v * 10 ^ 2) := FixedPoint.halfEven_nonneg (by have := bounds.1; positivity)
  exact ⟨inNames, by omega⟩

/-- `save_ac_protection_all` -/
def Setpropa.ofSettings (recvbuffer : List Byte) : Setpropa where
  rows := freshRows (settings132 recvbuffer)
  last := none
  fits := freshRows_fits recvbuffer
  lastFits := Setpropa.empty.lastFits

theorem saveAcProtectionAll_text (recvbuffer : List Byte) :
    saveAcProtectionAll (settings132 recvbuffer) = (Setpropa.ofSettings recvbuffer).text := by
  rw [Setpropa.text_eq]
  change _ = ((freshRows (settings132 recvbuffer)).map Row.text).flatten ++ []
  rw [List.append_nil, freshRows, List.map_filterMap, saveAcProtectionAll]
  congr 1
  apply List.filterMap_congr
  intro p _
  cases set : settings132 recvbuffer p with
  | none => rfl
  | some v =>
    have nonneg : ¬ v < 0 := not_lt.2 (settings132_bounds set).1
    rw [Option.map_some, Option.map_some, Option.map_some, FixedPoint.print, if_neg nonneg]
    rfl

/-! ## What the writers leave -/

/-- A file that A132, A146 and `clear_flag` have left. -/
inductive Written : List Byte → Prop
  | none : Written []
  | setAll {tables : Tables} (before : Written tables.setpropa) (recvbuffer : List Byte) :
    Written (setInverterAcProtection17 recvbuffer tables).setpropa
  | powerFactor {file : List Byte} (before : Written file) (recvbuffer : List Byte) :
    Written (setAllInverterPowerFactor recvbuffer file)
  | clear {file : List Byte} (before : Written file) (p : Param) : Written (clearFlag file p.text)

theorem Written.table {file : List Byte} (written : Written file) : ∃ table : Setpropa, file = table.text := by
  induction written with
  | none => exact ⟨Setpropa.empty, rfl⟩
  | setAll before recvbuffer ih =>
    unfold setInverterAcProtection17
    dsimp only
    split_ifs
    · exact ⟨_, saveAcProtectionAll_text recvbuffer⟩
    · exact ih
    · exact ih
  | powerFactor before recvbuffer ih =>
    obtain ⟨table, rfl⟩ := ih
    cases read : powerFactorCode recvbuffer with
    | none =>
      refine ⟨table, ?_⟩
      rw [setAllInverterPowerFactor, read]
    | some code => exact ⟨_, table.setAllInverterPowerFactor_text read⟩
  | clear before p ih =>
    obtain ⟨table, rfl⟩ := ih
    exact ⟨_, table.clearFlag_text p⟩

end Ecu.Protection
