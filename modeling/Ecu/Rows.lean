import Ecu.Lib.FixedPoint
import Ecu.Lib.Lines
import Ecu.Socket.Control

/-!
# Rows of text (`file.c`)

The tables on the disk are texts: a row for each line, its fields with commas between. What `sprintf` puts into a row
`splitString`, `atoi` and `atof` read back, the decimals rounded.
-/

namespace Ecu

/-! ## Rows -/

/-- A line of fields. -/
def csvRow (fields : List (List Byte)) : List Byte :=
  [comma].intercalate fields ++ [newline]

/-- `splitString` -/
def splitString (data : List Byte) : List (List Byte) :=
  (cstr data).splitOn comma

def atof (s : List Byte) : ℚ :=
  FixedPoint.parse (s.dropWhile Socket.isSpace)

/-- `%lf` -/
def lf (x : ℚ) : List Byte :=
  FixedPoint.print 6 x

/-- `%wd`: blanks in front up to `w` characters. -/
def wd (w : Nat) (v : Int) : List Byte :=
  List.replicate (w - (Decimal.intText v).length) 0x20 ++ Decimal.intText v

/-- The first `n` bytes of a field in its zeroed array. -/
def fieldBytes (n : Nat) (field : List Byte) : List Byte :=
  (field ++ List.replicate n nul).take n

/-! ## Fields are read back -/

/-- A field that neither ends its row nor itself. -/
def Plain (field : List Byte) : Prop :=
  ∀ b ∈ field, b ≠ nul ∧ b ≠ newline ∧ b ≠ comma

theorem csvRow_last (init : List (List Byte)) (last : List Byte) :
    csvRow (init ++ [last]) = [comma].intercalate (init ++ [last ++ [newline]]) := by
  unfold csvRow
  induction init with
  | nil => simp
  | cons field init ih =>
    rw [List.cons_append, List.cons_append, List.intercalate_cons_of_ne_nil (by simp),
      List.intercalate_cons_of_ne_nil (by simp), ← ih, List.append_assoc, List.append_assoc]

theorem mem_intercalate {fields : List (List Byte)} {b : Byte} (mem : b ∈ [comma].intercalate fields) :
    b = comma ∨ ∃ field ∈ fields, b ∈ field := by
  induction fields with
  | nil => exact absurd mem List.not_mem_nil
  | cons field fields ih =>
    by_cases more : fields = []
    · subst more
      rw [List.intercalate_singleton] at mem
      exact .inr ⟨field, List.mem_cons_self, mem⟩
    · rw [List.intercalate_cons_of_ne_nil more, List.mem_append, List.mem_append, List.mem_singleton] at mem
      rcases mem with (here | sep) | later
      · exact .inr ⟨field, List.mem_cons_self, here⟩
      · exact .inl sep
      · obtain same | ⟨other, inFields, there⟩ := ih later
        · exact .inl same
        · exact .inr ⟨other, List.mem_cons_of_mem field inFields, there⟩

theorem csvRow_length {fields : List (List Byte)} (some : fields ≠ []) :
    (csvRow fields).length = (fields.map fun field => field.length + 1).sum := by
  unfold csvRow
  induction fields with
  | nil => exact absurd rfl some
  | cons field fields ih =>
    by_cases more : fields = []
    · subst more
      simp
    · have rest := ih more
      rw [List.length_append] at rest
      rw [List.intercalate_cons_of_ne_nil more, List.map_cons, List.sum_cons, ← rest]
      simp only [List.length_append, List.length_cons, List.length_nil]
      omega

section Rows

variable {fields : List (List Byte)} (plain : ∀ field ∈ fields, Plain field)

include plain

theorem csvRow_chars {b : Byte} (mem : b ∈ [comma].intercalate fields) : b ≠ nul ∧ b ≠ newline := by
  obtain rfl | ⟨field, inFields, there⟩ := mem_intercalate mem
  · decide
  · exact ⟨(plain field inFields b there).1, (plain field inFields b there).2.1⟩

/-- A short row is read in one go. -/
theorem csvRow_isLine (short : (csvRow fields).length < 200) : Lines.IsLine newline 200 (csvRow fields) :=
  ⟨⟨_, rfl, fun mem => (csvRow_chars plain mem).2 rfl⟩, short⟩

theorem csvRow_clean : cstr (csvRow fields) = csvRow fields := by
  apply cstr_of_clean
  intro b mem
  rcases List.mem_append.1 mem with inFields | last
  · exact (csvRow_chars plain inFields).1
  · rw [List.mem_singleton.1 last]
    decide

end Rows

/-- The fields of a row are read back; the last one brings the line end along. -/
theorem splitString_csvRow (init : List (List Byte)) (last : List Byte)
    (plain : ∀ field ∈ init ++ [last], Plain field) :
    splitString (csvRow (init ++ [last])) = init ++ [last ++ [newline]] := by
  have noComma : ∀ field ∈ init ++ [last ++ [newline]], comma ∉ field := by
    intro field mem there
    rcases List.mem_append.1 mem with inInit | same
    · exact (plain field (List.mem_append_left _ inInit) comma there).2.2 rfl
    · rw [List.mem_singleton.1 same] at there
      rcases List.mem_append.1 there with inLast | lineEnd
      · exact (plain last (List.mem_append_right _ (List.mem_singleton_self last)) comma inLast).2.2 rfl
      · exact absurd (List.mem_singleton.1 lineEnd) (by decide)
  rw [splitString, csvRow_clean plain, csvRow_last]
  exact List.splitOn_intercalate comma noComma (by simp)

theorem csvRow_cons (field next : List Byte) (fields : List (List Byte)) :
    csvRow (field :: next :: fields) = field ++ comma :: csvRow (next :: fields) := by
  rw [csvRow, List.intercalate_cons_of_ne_nil (List.cons_ne_nil next fields), List.append_assoc, List.append_assoc]
  rfl

section Split

variable {data : List Byte} (clean : ∀ b ∈ data, b ≠ nul)

include clean

/-- The first field, and those behind it. -/
theorem splitString_cons {field rest : List Byte} (same : data = field ++ comma :: rest) (whole : comma ∉ field) :
    splitString data = field :: splitString rest := by
  have restClean : ∀ b ∈ rest, b ≠ nul := by
    intro b mem
    exact clean b (same ▸ List.mem_append_right field (List.mem_cons_of_mem comma mem))
  rw [splitString, cstr_of_clean clean, same, List.splitOn_append_cons_self_of_not_mem whole, splitString,
    cstr_of_clean restClean]

/-- A second field is there only behind a comma. -/
theorem splitString_more {k : Nat} (more : (splitString data).getD (k + 1) [] ≠ []) :
    ∃ field rest, data = field ++ comma :: rest ∧ comma ∉ field ∧ splitString data = field :: splitString rest := by
  by_cases mem : comma ∈ data
  · obtain ⟨field, rest, same, whole⟩ := List.eq_append_cons_of_mem mem
    exact ⟨field, rest, same, whole, splitString_cons clean same whole⟩
  · have single : splitString data = [data] := by
      rw [splitString, cstr_of_clean clean, List.splitOn_eq_singleton mem]
    rw [single] at more
    exact absurd rfl more

end Split

theorem infix_intercalate {fields : List (List Byte)} {field : List Byte} (mem : field ∈ fields) :
    field <:+: [comma].intercalate fields := by
  induction fields with
  | nil => exact absurd mem List.not_mem_nil
  | cons first fields ih =>
    by_cases more : fields = []
    · subst more
      rw [List.intercalate_singleton, List.mem_singleton.1 mem]
    · rw [List.intercalate_cons_of_ne_nil more]
      rcases List.mem_cons.1 mem with rfl | mem
      · rw [List.append_assoc]
        exact (List.prefix_append field _).isInfix
      · exact (ih mem).trans (List.suffix_append _ _).isInfix

/-- A field is a part of its line. -/
theorem splitString_part (data : List Byte) (k : Nat) : (splitString data).getD k [] <:+: cstr data := by
  by_cases inside : k < (splitString data).length
  · have mem := List.getElem_mem inside
    rw [List.getD_eq_getElem _ _ inside]
    have part := infix_intercalate mem
    have whole : [comma].intercalate (splitString data) = cstr data := List.intercalate_splitOn comma
    rwa [whole] at part
  · rw [List.getD_eq_default _ _ (Nat.le_of_not_lt inside)]
    exact List.nil_infix

/-- No field holds a comma. -/
theorem splitString_whole (data : List Byte) (k : Nat) : comma ∉ (splitString data).getD k [] := by
  have each (text : List Byte) : ∀ field ∈ text.splitOn comma, comma ∉ field := by
    induction text with
    | nil =>
      intro field mem
      rw [List.splitOn_nil, List.mem_singleton] at mem
      rw [mem]
      exact List.not_mem_nil
    | cons b text ih =>
      obtain ⟨first, fields, split⟩ := List.exists_cons_of_ne_nil (List.splitOn_ne_nil comma text)
      intro field mem
      rw [List.splitOn_cons_eq_if_modifyHead] at mem
      by_cases sep : b = comma
      · rw [if_pos (beq_iff_eq.2 sep)] at mem
        rcases List.mem_cons.1 mem with rfl | mem
        · exact List.not_mem_nil
        · exact ih field mem
      · rw [if_neg (by simpa using sep), split, List.modifyHead_cons] at mem
        rcases List.mem_cons.1 mem with rfl | mem
        · rw [List.mem_cons, not_or]
          exact ⟨Ne.symm sep, ih first (split ▸ List.mem_cons_self)⟩
        · exact ih field (split ▸ List.mem_cons_of_mem first mem)
  by_cases inside : k < (splitString data).length
  · rw [List.getD_eq_getElem _ _ inside]
    exact each _ _ (List.getElem_mem inside)
  · rw [List.getD_eq_default _ _ (Nat.le_of_not_lt inside)]
    exact List.not_mem_nil

/-! ## Numbers are read back -/

theorem plain_of_digits {field : List Byte}
    (chars : ∀ b ∈ field, Decimal.IsDigit b ∨ b = Decimal.minus ∨ b = FixedPoint.dot) : Plain field := by
  intro b mem
  rcases chars b mem with digit | rfl | rfl
  · refine ⟨?_, ?_, ?_⟩
    · rintro rfl
      exact absurd digit (by decide)
    · rintro rfl
      exact absurd digit (by decide)
    · rintro rfl
      exact absurd digit (by decide)
  · decide
  · decide

theorem intText_chars (v : Int) :
    ∀ b ∈ Decimal.intText v, Decimal.IsDigit b ∨ b = Decimal.minus ∨ b = FixedPoint.dot := by
  intro b mem
  unfold Decimal.intText at mem
  split at mem
  · rcases List.mem_cons.1 mem with rfl | digits
    · exact .inr (.inl rfl)
    · exact .inl (Decimal.text_digits _ b digits)
  · exact .inl (Decimal.text_digits _ b mem)

theorem plain_intText (v : Int) : Plain (Decimal.intText v) :=
  plain_of_digits (intText_chars v)

theorem plain_lf (x : ℚ) : Plain (lf x) :=
  plain_of_digits (FixedPoint.print_chars 6 x)

/-- What follows a number in its row. -/
def Stops (rest : List Byte) : Prop :=
  ∀ b ∈ rest.head?, ¬ Decimal.IsDigit b

theorem stops_nil : Stops [] := by
  intro b mem
  exact absurd mem nofun

theorem stops_newline (rest : List Byte) : Stops (newline :: rest) := by
  intro b mem
  obtain rfl := Option.some_inj.1 mem
  decide

/-- A text that starts with one of its characters has no space before it. -/
theorem dropWhile_isSpace {text : List Byte} (some : text ≠ [])
    (chars : ∀ b ∈ text, Decimal.IsDigit b ∨ b = Decimal.minus ∨ b = FixedPoint.dot) (rest : List Byte) :
    (text ++ rest).dropWhile Socket.isSpace = text ++ rest := by
  obtain ⟨b, tail, rfl⟩ := List.exists_cons_of_ne_nil some
  have first : ¬ Socket.isSpace b = true := by
    rcases chars b List.mem_cons_self with digit | rfl | rfl
    · intro space
      simp only [Socket.isSpace, Bool.or_eq_true, Bool.and_eq_true, decide_eq_true_eq, beq_iff_eq] at space
      rcases space with rfl | control
      · exact absurd digit (by decide)
      · exact absurd (UInt8.le_trans digit.1 control.2) (by decide)
    · decide
    · decide
  rw [List.cons_append, List.dropWhile_cons_of_neg first]

theorem atof_lf (x : ℚ) {rest : List Byte} (stops : Stops rest) : atof (lf x ++ rest) = FixedPoint.rounded 6 x := by
  have some : lf x ≠ [] := by
    unfold lf FixedPoint.print
    dsimp only
    split_ifs
    · exact List.cons_ne_nil _ _
    · exact List.append_ne_nil_of_right_ne_nil _ (List.cons_ne_nil _ _)
  rw [atof, dropWhile_isSpace some (FixedPoint.print_chars 6 x), lf]
  exact FixedPoint.parse_print (by decide) stops x

theorem atof_print_exact (p n : Nat) (some : 0 < p) : atof (FixedPoint.print p (n / 10 ^ p)) = (n : ℚ) / 10 ^ p := by
  have chars := FixedPoint.print_chars p (n / 10 ^ p)
  have parsed := FixedPoint.parse_digits p n []
  have value := FixedPoint.parseDigits_digits (p := p) some stops_nil n
  rw [List.append_nil] at parsed value
  have read : FixedPoint.digits p n ≠ [] := List.append_ne_nil_of_right_ne_nil _ (List.cons_ne_nil _ _)
  rw [FixedPoint.print_exact] at chars ⊢
  have spaces := dropWhile_isSpace read chars []
  rw [List.append_nil] at spaces
  rw [atof, spaces, parsed, value]

theorem atof_text (n : Nat) : atof (Decimal.text n) = n := by
  have chars : ∀ b ∈ Decimal.text n, Decimal.IsDigit b ∨ b = Decimal.minus ∨ b = FixedPoint.dot :=
    fun b mem => .inl (Decimal.text_digits n b mem)
  have spaces := dropWhile_isSpace (Decimal.text_ne_nil n) chars []
  have parts := FixedPoint.takeWhile_digits (Decimal.text_digits n) stops_nil
  rw [List.append_nil] at spaces parts
  rw [atof, spaces, FixedPoint.parse_of_digits (Decimal.text_digits n), FixedPoint.parseDigits, parts.1, parts.2,
    Decimal.value_text]

theorem intText_ne_nil (v : Int) : Decimal.intText v ≠ [] := by
  unfold Decimal.intText
  split
  · exact List.cons_ne_nil _ _
  · exact Decimal.text_ne_nil _

/-- A number without a sign, up to what does not belong to it. -/
theorem atoi_unsigned {digits rest : List Byte} (some : digits ≠ []) (each : ∀ b ∈ digits, Decimal.IsDigit b)
    (stops : Stops rest) : Socket.atoi (digits ++ rest) = Decimal.value digits := by
  have run := (FixedPoint.takeWhile_digits each stops).1
  obtain ⟨b, tail, rfl⟩ := List.exists_cons_of_ne_nil some
  have first := each b List.mem_cons_self
  rw [Socket.atoi, dropWhile_isSpace some fun b mem => .inl (each b mem)]
  rw [List.cons_append] at run ⊢
  split
  · rename_i same
    rw [(List.cons.inj same).1] at first
    exact absurd first (by decide)
  · rename_i same
    rw [(List.cons.inj same).1] at first
    exact absurd first (by decide)
  · exact congrArg (fun s => ((Decimal.value s : Nat) : Int)) run

theorem atoi_intText (v : Int) {rest : List Byte} (stops : Stops rest) :
    Socket.atoi (Decimal.intText v ++ rest) = v := by
  by_cases negative : v < 0
  · have run := (FixedPoint.takeWhile_digits (Decimal.text_digits v.natAbs) stops).1
    rw [Socket.atoi, dropWhile_isSpace (intText_ne_nil v) (intText_chars v), Decimal.intText, if_pos negative]
    change -((Decimal.value ((Decimal.text v.natAbs ++ rest).takeWhile FixedPoint.isDigit) : Nat) : Int) = v
    rw [run, Decimal.value_text]
    omega
  · rw [Decimal.intText, if_neg negative,
      atoi_unsigned (Decimal.text_ne_nil v.natAbs) (Decimal.text_digits v.natAbs) stops, Decimal.value_text]
    omega

theorem atoi_one {rest : List Byte} (stops : Stops rest) : Socket.atoi (str "1" ++ rest) = 1 := by
  have one : str "1" = Decimal.intText 1 := by
    rw [str_ofList]
    decide
  rw [one]
  exact atoi_intText 1 stops

/-- What `%d` prints is short. -/
theorem intText_length {v : Int} {w : Nat} (positive : 0 < w) (small : v.natAbs < 10 ^ w) :
    (Decimal.intText v).length ≤ w + 1 := by
  have digits := (Decimal.length_text_le_iff positive).2 small
  unfold Decimal.intText
  split
  · exact Nat.succ_le_succ digits
  · omega

end Ecu
