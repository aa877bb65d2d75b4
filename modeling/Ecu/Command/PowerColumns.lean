import Ecu.Command.IrdRequests
import Ecu.Command.PowerEnds

/-!
# The columns of the power table (`setpower.c`)

`updatemaxpower` has the result of an inverter for the second of the columns `limitedpower,limitedresult`, and writes
it into the first. So only a row that shows the result in both columns already, is the last one and has no flag stays
what it should be (`result_column_iff`).
-/

namespace Ecu.Command

open Poll Protection Socket

/-- A table whose rows have different ids. -/
structure PowerTable (lines : List (List Byte)) : Prop where
  rows : ∀ line ∈ lines, PowerLine line
  distinct : (lines.map (·.take 12)).Nodup

/-- In place of the row of an id stands one with this result and else the same columns; the other rows are as before. -/
structure OnlyResult (id : List Byte) (limitedresult : Int) (lines out : List (List Byte)) : Prop where
  size : out.length = lines.length
  own : ∀ (i : Nat) (line : List Byte), lines[i]? = some line → id <+: line →
    ∃ new : List Byte, out[i]? = some new ∧ id <+: new ∧
      readRow new = { readRow line with limitedresult := limitedresult } ∧ (flagSet 5 new ↔ flagSet 5 line)
  others : ∀ (i : Nat) (line : List Byte), lines[i]? = some line → ¬ id <+: line → out[i]? = some line

/-- There is nothing to change: the row is the last, it shows the result as its limit too, and it has no flag. -/
structure Shows (limitedresult : Int) (lines : List (List Byte)) (line : List Byte) : Prop where
  last : lines.getLast? = some line
  limit : (readRow line).limitedpower = limitedresult
  result : (readRow line).limitedresult = limitedresult
  done : ¬ flagSet 5 line

theorem PowerRow.not_flagSet {id : List Byte} (plain : Plain id) (row : PowerRow) : ¬ flagSet 5 (row.text id) := by
  have column : (splitString (row.text id)).getD 5 [] = str "0" ++ [newline] := by
    rw [PowerRow.split plain]
    rfl
  rw [flagSet, column]
  decide

/-- The row of an id is the only one. -/
theorem PowerTable.split {lines : List (List Byte)} (table : PowerTable lines) {id line : List Byte} (isId : IsId id)
    (mem : line ∈ lines) (own : id <+: line) :
    ∃ before after, lines = before ++ line :: after ∧ ∀ other ∈ before ++ after, ¬ id <+: other := by
  obtain ⟨before, after, rfl⟩ := List.append_of_mem mem
  refine ⟨before, after, rfl, fun other inRest twice => ?_⟩
  have distinct := table.distinct
  have same : other.take 12 = line.take 12 := by
    rw [(take_own isId own : line.take 12 = id), (take_own isId twice : other.take 12 = id)]
  rw [List.map_append, List.map_cons, List.nodup_middle, List.nodup_cons, ← List.map_append] at distinct
  exact distinct.1 (List.mem_map.2 ⟨other, inRest, same⟩)

theorem PowerRow.Few.limitedpower_int {limitedresult : Int} (int : |limitedresult| < 2 ^ 31) {row : PowerRow}
    (few : row.Few) : PowerRow.Few { row with limitedpower := limitedresult } := by
  refine ⟨?_, few.limitedresult, few.stationarypower, few.stationaryresult⟩
  have small : limitedresult.natAbs < 10 ^ 10 := by
    rw [abs_lt] at int
    omega
  exact Nat.le_trans (intText_length (by decide) small) (by decide)

section Updated

variable {x : InverterInfo} {id : List Byte} (isId : IsId id) (hasId : cstr x.id = id)

include isId hasId

theorem updatemaxpower_none (limitedresult : Int) {lines : List (List Byte)} (rows : ∀ line ∈ lines, PowerLine line)
    (none : ∀ line ∈ lines, ¬ id <+: line) :
    Lines.readLines newline 100 (updatemaxpower lines.flatten x limitedresult) = lines := by
  have unknown : lines.find? (fun line => cstr x.id <+: line) = .none := by
    rw [List.find?_eq_none, hasId]
    exact fun line mem => by simpa using none line mem
  have named : Record.HasId x.toInverter := by
    change (cstr x.id).length = 12
    rw [hasId]
    exact isId.twelve
  rw [updatemaxpower, updateRow_rows rows named, unknown]
  exact readLines_short (rows_short rows) (Nat.le_refl 100)

variable {limitedresult : Int} (int : |limitedresult| < 2 ^ 31)

include int

/-- The row goes to the end, with the result for its limit. -/
theorem updatemaxpower_own {before after : List (List Byte)} {line : List Byte}
    (rows : ∀ l ∈ before ++ line :: after, PowerLine l) (own : id <+: line)
    (others : ∀ other ∈ before ++ after, ¬ id <+: other) :
    Lines.readLines newline 100 (updatemaxpower (before ++ line :: after).flatten x limitedresult) =
      before ++ after ++ [PowerRow.text id { readRow line with limitedpower := limitedresult }] := by
  have few := fun (row : PowerRow) (few : row.Few) => few.limitedpower_int int
  have first : (before ++ line :: after).find? (fun l => id <+: l) = some line := by
    have none : before.find? (fun l => id <+: l) = none := by
      rw [List.find?_eq_none]
      exact fun l mem => by simpa using others l (List.mem_append_left after mem)
    rw [List.find?_append, none, Option.none_or, List.find?_cons_of_pos (by simpa using own)]
  have kept : (before ++ line :: after).filter (fun l => ¬ id <+: l) = before ++ after := by
    rw [List.filter_append, List.filter_cons_of_neg (by simpa using own), ← List.filter_append, List.filter_eq_self]
    exact fun l mem => by simpa using others l mem
  rw [updatemaxpower, updateRow_own rows isId hasId few first, kept]
  refine readLines_short (fun l mem => ?_) (Nat.le_refl 100)
  rcases List.mem_append.1 mem with old | new
  · refine (rows l ?_).short
    rcases List.mem_append.1 old with inBefore | inAfter
    · exact List.mem_append_left _ inBefore
    · exact List.mem_append_right _ (List.mem_cons_of_mem line inAfter)
  · have row := (few _ (rows line (List.mem_append_right before List.mem_cons_self)).few).line isId
    rw [List.mem_singleton.1 new]
    exact row.short

/-- `updatemaxpower` changes the result column and nothing else exactly when there is nothing to change. -/
theorem result_column_iff {lines : List (List Byte)} (table : PowerTable lines) :
    OnlyResult id limitedresult lines (Lines.readLines newline 100 (updatemaxpower lines.flatten x limitedresult)) ↔
      ∀ line ∈ lines, id <+: line → Shows limitedresult lines line := by
  by_cases registered : ∃ line ∈ lines, id <+: line
  · obtain ⟨line, mem, own⟩ := registered
    obtain ⟨before, after, rfl, others⟩ := table.split isId mem own
    rw [updatemaxpower_own isId hasId int table.rows own others]
    have read := readRow_text isId.plain { readRow line with limitedpower := limitedresult }
    have noFlag := PowerRow.not_flagSet isId.plain { readRow line with limitedpower := limitedresult }
    have place : (before ++ line :: after)[before.length]? = some line := by
      rw [List.getElem?_append_right (Nat.le_refl _), Nat.sub_self, List.getElem?_cons_zero]
    constructor
    · intro only other inTable starts
      obtain rfl : other = line := by
        rcases List.mem_append.1 inTable with inBefore | inRest
        · exact absurd starts (others other (List.mem_append_left after inBefore))
        · rcases List.mem_cons.1 inRest with same | inAfter
          · exact same
          · exact absurd starts (others other (List.mem_append_right before inAfter))
      obtain ⟨new, there, named, columns, flag⟩ := only.own before.length other place own
      cases after with
      | cons next after =>
        -- the row behind has moved up
        rw [List.append_assoc, List.getElem?_append_right (Nat.le_refl _), Nat.sub_self] at there
        obtain rfl : next = new := Option.some_inj.1 there
        exact absurd named (others next (List.mem_append_right before List.mem_cons_self))
      | nil =>
        rw [List.append_nil, List.getElem?_append_right (Nat.le_refl _), Nat.sub_self] at there
        obtain rfl := Option.some_inj.1 there
        rw [read, PowerRow.mk.injEq] at columns
        exact ⟨List.getLast?_concat .., columns.1.symm, columns.2.1, fun set => noFlag (flag.2 set)⟩
    · intro shows
      have shown := shows line mem own
      have lastLine := shown.last
      obtain rfl : after = [] := by
        cases after with
        | nil => rfl
        | cons next after =>
          exfalso
          have inAfter : line ∈ next :: after := by
            rw [List.getLast?_append, List.getLast?_cons_cons] at lastLine
            exact List.mem_of_getLast? (by simpa using lastLine)
          exact others line (List.mem_append_right before inAfter) own
      rw [List.append_nil] at others ⊢
      refine ⟨by rw [List.length_append, List.length_append]; rfl, fun i row there starts => ?_,
        fun i row there other => ?_⟩
      · -- the row that starts with the id is the last one
        have atEnd : i = before.length := by
          rcases Nat.lt_trichotomy i before.length with inside | same | beyond
          · rw [List.getElem?_append_left inside] at there
            exact absurd starts (others row (List.mem_of_getElem? there))
          · exact same
          · have past : before.length + 1 ≤ i := beyond
            rw [List.getElem?_eq_none (by simpa using past)] at there
            nomatch there
        subst atEnd
        obtain rfl : line = row := Option.some_inj.1 (place.symm.trans there)
        refine ⟨_, by rw [List.getElem?_append_right (Nat.le_refl _), Nat.sub_self,
          List.getElem?_cons_zero], ?_, ?_, ?_⟩
        · exact PowerRow.starts id _
        · rw [read, PowerRow.mk.injEq]
          exact ⟨shown.limit.symm, shown.result, rfl, rfl⟩
        · exact iff_of_false noFlag shown.done
      · have inside : i < before.length := by
          by_contra beyond
          have size := (List.getElem?_eq_some_iff.1 there).1
          rw [List.length_append, List.length_singleton] at size
          obtain rfl : i = before.length := by omega
          rw [place] at there
          obtain rfl := Option.some_inj.1 there
          exact other own
        rw [List.getElem?_append_left inside] at there ⊢
        exact there
  · have none : ∀ line ∈ lines, ¬ id <+: line := fun line mem own => registered ⟨line, mem, own⟩
    rw [updatemaxpower_none isId hasId limitedresult table.rows none]
    refine iff_of_true ⟨rfl, fun i line there own => ?_, fun i line there _ => there⟩ fun line mem own => ?_
    · exact absurd own (none line (List.mem_of_getElem? there))
    · exact absurd own (none line mem)

end Updated

/-- The row of a limit of 200 W that has been sent. -/
def limitSent : List Byte :=
  PowerRow.text (str "801000000001") ⟨200, 0, 0, 0⟩

theorem limitSent_line : PowerLine limitSent :=
  PowerRow.Few.line ⟨by decide, by decide, by decide, by decide⟩ sample_isId

theorem limitSent_table : PowerTable [limitSent] :=
  ⟨fun _ mem => List.mem_singleton.1 mem ▸ limitSent_line, List.nodup_singleton _⟩

def limited : InverterInfo :=
  { id := str "801000000001", model := 5, shortaddr := 0x3344 }

theorem limited_id : cstr limited.id = str "801000000001" :=
  cstr_of_clean sample_isId.noNul

theorem result_column_sent :
    OnlyResult (str "801000000001") 150 [limitSent]
        (Lines.readLines newline 100 (updatemaxpower [limitSent].flatten limited 150)) ↔
      ∀ line ∈ [limitSent], str "801000000001" <+: line → Shows 150 [limitSent] line :=
  result_column_iff sample_isId limited_id (by decide) limitSent_table

/-- The result takes the place of the limit. -/
theorem limit_overwritten :
    ¬ ∀ (x : InverterInfo) (id : List Byte) (limitedresult : Int) (lines : List (List Byte)), IsId id →
      cstr x.id = id → |limitedresult| < 2 ^ 31 → PowerTable lines →
      OnlyResult id limitedresult lines (Lines.readLines newline 100
        (updatemaxpower lines.flatten x limitedresult)) := by
  intro all
  have only := all limited (str "801000000001") 150 [limitSent] sample_isId limited_id (by decide) limitSent_table
  have own : str "801000000001" <+: limitSent := PowerRow.starts _ _
  have written : Lines.readLines newline 100 (updatemaxpower [limitSent].flatten limited 150) =
      [PowerRow.text (str "801000000001") ⟨150, 0, 0, 0⟩] := by
    have row := @updatemaxpower_own limited _ sample_isId limited_id 150 (by decide) [] [] limitSent
      limitSent_table.rows own
      fun _ mem => absurd mem List.not_mem_nil
    rw [limitSent, readRow_text sample_isId.plain] at row
    exact row
  rw [written] at only
  obtain ⟨new, there, -, columns, -⟩ := only.own 0 limitSent rfl own
  obtain rfl := Option.some_inj.1 there
  rw [limitSent, readRow_text sample_isId.plain, readRow_text sample_isId.plain] at columns
  have limit : (150 : Int) = 200 := congrArg PowerRow.limitedpower columns
  exact absurd limit (by decide)

end Ecu.Command
