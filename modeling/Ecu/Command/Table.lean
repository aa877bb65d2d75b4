import Ecu.Command.Handlers

/-!
# Tables of short lines

Whatever an id holds, the tables of the commands consist of whole lines that every reader takes in one go. On such a
table `delete_line` is a filter, `read_line` a search, and `insert_line` puts its row at the end; this also where the
key comes from a buffer, as long as it has all its characters.
-/

namespace Ecu.Command

open Protection

/-- A whole line that every buffer holds. -/
structure ShortLine (line : List Byte) : Prop where
  isLine : Lines.IsLine newline 100 line
  clean : ∀ b ∈ line, b ≠ nul

theorem ShortLine.cstr {line : List Byte} (short : ShortLine line) : cstr line = line :=
  cstr_of_clean short.clean

theorem ShortLine.ne_nil {line : List Byte} (short : ShortLine line) : line ≠ [] := by
  obtain ⟨⟨body, same, -⟩, -⟩ := short.isLine
  rw [same]
  exact List.append_ne_nil_of_right_ne_nil body (List.cons_ne_nil _ _)

/-- What stands before a comma is not the end of the line. -/
theorem ShortLine.field_open {line field rest : List Byte} (short : ShortLine line)
    (same : line = field ++ comma :: rest) :
    newline ∉ field := by
  obtain ⟨⟨body, shape, open_⟩, -⟩ := short.isLine
  have lengths : (field ++ comma :: rest).length = (body ++ [newline]).length := by rw [← same, shape]
  rw [List.length_append, List.length_append, List.length_cons, List.length_singleton] at lengths
  have first : field <+: line := same ▸ List.prefix_append field _
  have second : body <+: line := shape ▸ List.prefix_append body _
  have part := List.prefix_of_prefix_length_le first second (by omega)
  exact fun inside => open_ (part.subset inside)

/-- Characters without a comma are found in the first field only. -/
theorem key_in_field {line field rest key : List Byte} (same : line = field ++ comma :: rest) (part : key <+: line)
    (whole : comma ∉ key) : key.length ≤ field.length := by
  by_contra less
  have first : field ++ [comma] <+: line := ⟨rest, by rw [same, List.append_assoc]; rfl⟩
  have inside := List.prefix_of_prefix_length_le first part (by rw [List.length_append, List.length_singleton]; omega)
  exact whole (inside.subset (List.mem_append_right field (List.mem_singleton_self comma)))

/-- A short text that ends with a line end is made of short lines, none longer than the text. -/
theorem madeOf_short {text : List Byte} (clean : ∀ b ∈ text, b ≠ nul) (few : text.length < 100)
    (ended : text.getLast? = some newline) :
    Lines.MadeOf (fun line => ShortLine line ∧ line <:+: text) text := by
  obtain ⟨lines, same, parts⟩ := Lines.madeOf_ended text.length (Nat.le_refl _) ended
  refine ⟨lines, same, fun line mem => ?_⟩
  obtain ⟨shape, part⟩ := parts line mem
  exact ⟨⟨⟨shape, Nat.lt_of_le_of_lt part.length_le few⟩, fun b inLine => clean b (part.subset inLine)⟩, part⟩

theorem csvRow_noNul {fields : List (List Byte)} (clean : ∀ field ∈ fields, ∀ b ∈ field, b ≠ nul) :
    ∀ b ∈ csvRow fields, b ≠ nul := by
  intro b mem
  rcases List.mem_append.1 mem with inFields | last
  · rcases mem_intercalate inFields with rfl | ⟨field, inRow, there⟩
    · decide
    · exact clean field inRow b there
  · rw [List.mem_singleton.1 last]
    decide

theorem csvRow_ended (fields : List (List Byte)) : (csvRow fields).getLast? = some newline :=
  List.getLast?_concat ..

theorem cstr_noNul (bytes : List Byte) : ∀ b ∈ cstr bytes, b ≠ nul := by
  intro b mem
  simpa using List.mem_takeWhile_imp mem

theorem cstr_length_le (bytes : List Byte) : (cstr bytes).length ≤ bytes.length :=
  (List.takeWhile_prefix _).length_le

theorem inverterId_length (msg : List Byte) (len i : Nat) : (inverterId msg len i).length ≤ 12 :=
  Nat.le_trans (cstr_length_le _) (List.length_take_le _ _)

/-- The first field of a line, and whether there is another one. -/
theorem splitString_head {line : List Byte} (clean : ∀ b ∈ line, b ≠ nul) :
    ((splitString line).getD 0 [] = line ∧ comma ∉ line) ∨
      ∃ rest, line = (splitString line).getD 0 [] ++ comma :: rest ∧ comma ∉ (splitString line).getD 0 [] := by
  by_cases mem : comma ∈ line
  · obtain ⟨field, rest, same, whole⟩ := List.eq_append_cons_of_mem mem
    refine .inr ⟨rest, ?_⟩
    rw [splitString_cons clean same whole, List.getD_cons_zero]
    exact ⟨same, whole⟩
  · refine .inl ⟨?_, mem⟩
    rw [splitString, cstr_of_clean clean, List.splitOn_eq_singleton mem, List.getD_cons_zero]

/-- A line with a further field has a first one that ends at a comma. -/
theorem ShortLine.first_field {line : List Byte} (short : ShortLine line) {k : Nat}
    (more : (splitString line).getD (k + 1) [] ≠ []) :
    ∃ rest, line = (splitString line).getD 0 [] ++ comma :: rest ∧ Plain ((splitString line).getD 0 []) := by
  obtain ⟨field, rest, same, whole, split⟩ := splitString_more short.clean more
  rw [split, List.getD_cons_zero]
  refine ⟨rest, same, fun b mem => ⟨?_, ?_, ?_⟩⟩
  · exact short.clean b (same ▸ List.mem_append_left _ mem)
  · rintro rfl
    exact short.field_open same mem
  · rintro rfl
    exact whole mem

/-! ## The functions on lines -/

section Lines

variable {lines : List (List Byte)} (short : ∀ line ∈ lines, ShortLine line)

include short

theorem readLines_short {size : Nat} (more : 100 ≤ size) : Lines.readLines newline size lines.flatten = lines :=
  Lines.readLines_flatten fun line mem => (short line mem).isLine.mono more

theorem deleteLine_short (key : List Byte) :
    deleteLine lines.flatten key = (lines.filter fun line => ¬ key <+: line).flatten :=
  deleteLine_whole (fun line mem => (short line mem).isLine.mono (by decide))
    (fun line mem => (short line mem).cstr) key

theorem insertLine_short {row : List Byte} (shortRow : ShortLine row) :
    insertLine lines.flatten row = ((lines ++ [row]).flatten, true) := by
  have all : ∀ line ∈ lines ++ [row], ShortLine line := by
    intro line mem
    rcases List.mem_append.1 mem with mem | mem
    · exact short line mem
    · rw [List.mem_singleton.1 mem]
      exact shortRow
  have after : lines.flatten ++ cstr row = (lines ++ [row]).flatten := by
    rw [shortRow.cstr, List.flatten_append, List.flatten_singleton]
  rw [insertLine, after, searchLine, readLines_short all (by decide)]
  congr 1
  apply List.any_eq_true.2
  exact ⟨row, List.mem_append_right _ (List.mem_singleton_self row), decide_eq_true List.prefix_rfl⟩

theorem insertAttempts_short {row : List Byte} (shortRow : ShortLine row) (n : Nat) :
    insertAttempts row (n + 1) lines.flatten = (lines ++ [row]).flatten := by
  rw [insertAttempts, insertLine_short short shortRow]
  rfl

end Lines

/-! ## Keys in buffers -/

/-- A key with all its characters is compared with the line itself, whatever stands behind the line in the buffer. -/
theorem take_memcpy {key data line : List Byte} (full : ∀ b ∈ key, b ≠ nul) :
    (memcpy data (line ++ [nul])).take key.length = key ↔ key <+: line := by
  rw [memcpy, List.append_assoc]
  constructor
  · intro same
    rw [eq_comm, ← List.prefix_iff_eq_take] at same
    rcases List.prefix_or_prefix_of_prefix same (List.prefix_append line _) with here | ⟨more, rfl⟩
    · exact here
    · cases more with
      | nil => rw [List.append_nil]
      | cons b more =>
        have behind := (List.prefix_append_right_inj line).1 same
        rw [List.singleton_append, List.cons_prefix_cons] at behind
        exact absurd behind.1 (full b (List.mem_append_right line List.mem_cons_self))
  · intro part
    rw [eq_comm, ← List.prefix_iff_eq_take]
    exact part.trans (List.prefix_append line _)

theorem deleteLineBytes_eq {compareData key : List Byte} (file : List Byte) (full : ∀ b ∈ key, b ≠ nul)
    (same : compareData.take key.length = key) : deleteLineBytes file compareData key.length = deleteLine file key := by
  have clean (data : List Byte) {line : List Byte} : cstr (memcpy data (line ++ [nul])) = cstr line := by
    rw [memcpy, List.append_assoc, List.singleton_append, cstr, cstr]
    by_cases inside : ∀ b ∈ line, (b != nul) = true
    · rw [List.takeWhile_append_of_pos inside, List.takeWhile_cons_of_neg (by simp), List.append_nil,
        List.takeWhile_eq_self_iff.2 inside]
    · rw [List.takeWhile_append, if_neg]
      intro whole
      exact inside (List.takeWhile_eq_self_iff.1 ((List.takeWhile_prefix _).eq_of_length whole))
  have fold (lines : List (List Byte)) (kept data : List Byte) :
      (lines.foldl (deleteStep compareData key.length) (kept, data)).1 =
        kept ++ ((lines.filter fun line => ¬ key <+: line).map cstr).flatten := by
    induction lines generalizing kept data with
    | nil => simp
    | cons line lines ih =>
      rw [List.foldl_cons, deleteStep]
      dsimp only
      rw [ih, same]
      by_cases part : key <+: line
      · rw [if_pos ((take_memcpy full).2 part), List.filter_cons_of_neg (by simpa using part)]
      · rw [if_neg (mt (take_memcpy full).1 part), List.filter_cons_of_pos (by simpa using part), List.map_cons,
          List.flatten_cons, clean, List.append_assoc]
  rw [deleteLineBytes, fold, List.nil_append, deleteLine]

/-! ## What `delete_line` takes out -/

theorem cstr_memcpy (data : List Byte) {line : List Byte} (clean : ∀ b ∈ line, b ≠ nul) :
    cstr (memcpy data (line ++ [nul])) = line := by
  rw [memcpy, List.append_assoc, List.singleton_append, cstr,
    List.takeWhile_append_of_pos (by simpa using clean), List.takeWhile_cons_of_neg (by simp), List.append_nil]

/-- A line that is taken out begins like the key. -/
theorem take_of_match {data line key : List Byte} {len : Nat}
    (same : (memcpy data (line ++ [nul])).take len = key.take len) : line.take len <+: key.take len := by
  rw [← same, memcpy, List.append_assoc]
  exact (List.prefix_append line _).take len

theorem deleteLineBytes_kept (key : List Byte) (len : Nat) {lines : List (List Byte)}
    (short : ∀ line ∈ lines, ShortLine line) (gone data : List Byte) :
    ∃ kept : List (List Byte), (lines.foldl (deleteStep key len) (gone, data)).1 = gone ++ kept.flatten ∧
      kept.Sublist lines ∧ ∀ line ∈ lines, line ∈ kept ∨ line.take len <+: key.take len := by
  induction lines generalizing gone data with
  | nil => exact ⟨[], (List.append_nil gone).symm, List.Sublist.refl [], fun _ mem => absurd mem List.not_mem_nil⟩
  | cons line lines ih =>
    have later := ih fun l mem => short l (List.mem_cons_of_mem line mem)
    rw [List.foldl_cons, deleteStep]
    dsimp only
    by_cases same : (memcpy data (line ++ [nul])).take len = key.take len
    · rw [if_pos same]
      obtain ⟨kept, result, sub, others⟩ := later gone (memcpy data (line ++ [nul]))
      refine ⟨kept, result, sub.cons line, fun l mem => ?_⟩
      rcases List.mem_cons.1 mem with rfl | mem
      · exact .inr (take_of_match same)
      · exact others l mem
    · rw [if_neg same, cstr_memcpy data (short line List.mem_cons_self).clean]
      obtain ⟨kept, result, sub, others⟩ := later (gone ++ line) (memcpy data (line ++ [nul]))
      refine ⟨line :: kept, ?_, sub.cons_cons line, fun l mem => ?_⟩
      · rw [result, List.flatten_cons, List.append_assoc]
      · rcases List.mem_cons.1 mem with rfl | mem
        · exact .inl List.mem_cons_self
        · exact (others l mem).imp_left (List.mem_cons_of_mem line)

theorem fieldBytes_short {n : Nat} {field : List Byte} (less : field.length < n) :
    fieldBytes n field = field ++ nul :: List.replicate (n - field.length - 1) nul := by
  rw [fieldBytes, List.take_append, List.take_of_length_le (Nat.le_of_lt less), List.take_replicate,
    ← List.replicate_succ]
  congr 2
  omega

/-- A key that ends before its last character and does not contain a line end is found in no line. -/
theorem no_match {field key line data : List Byte} (short : ShortLine line) (ends : field ++ [nul] <+: key)
    (less : field.length < 12) (open_ : newline ∉ field) :
    (memcpy data (line ++ [nul])).take 12 ≠ key.take 12 := by
  intro same
  obtain ⟨⟨body, shape, -⟩, -⟩ := short.isLine
  obtain ⟨more, rfl⟩ := ends
  have there : (memcpy data (line ++ [nul]))[field.length]? = some nul := by
    rw [← List.getElem?_take_of_lt less, same, List.getElem?_take_of_lt less, List.append_assoc,
      List.getElem?_append_right
      (Nat.le_refl _), Nat.sub_self]
    rfl
  rcases Nat.lt_or_ge field.length line.length with inside | behind
  · rw [memcpy, List.append_assoc, List.getElem?_append_left inside] at there
    exact short.clean nul (List.mem_of_getElem? there) rfl
  · have part := take_of_match same
    rw [List.take_of_length_le (by omega)] at part
    have inField : line <+: field := by
      apply List.prefix_of_prefix_length_le (part.trans (List.take_prefix 12 _)) _ behind
      rw [List.append_assoc]
      exact List.prefix_append field _
    apply open_
    exact inField.subset (shape ▸ List.mem_append_right body (List.mem_singleton_self newline))

theorem deleteLineBytes_none {lines : List (List Byte)} (short : ∀ line ∈ lines, ShortLine line) {key : List Byte}
    {len : Nat} (none : ∀ line ∈ lines, ∀ data, (memcpy data (line ++ [nul])).take len ≠ key.take len) :
    deleteLineBytes lines.flatten key len = lines.flatten := by
  have fold (lines : List (List Byte)) (short : ∀ line ∈ lines, ShortLine line)
      (none : ∀ line ∈ lines, ∀ data, (memcpy data (line ++ [nul])).take len ≠ key.take len) (gone data : List Byte) :
      (lines.foldl (deleteStep key len) (gone, data)).1 = gone ++ lines.flatten := by
    induction lines generalizing gone data with
    | nil => exact (List.append_nil gone).symm
    | cons line lines ih =>
      rw [List.foldl_cons, deleteStep]
      dsimp only
      rw [if_neg (none line List.mem_cons_self data), cstr_memcpy data (short line List.mem_cons_self).clean,
        ih (fun l mem => short l (List.mem_cons_of_mem line mem)) (fun l mem => none l (List.mem_cons_of_mem line mem)),
        List.flatten_cons, List.append_assoc]
  rw [deleteLineBytes, readLines_short short (by decide), fold lines short none, List.nil_append]

/-- `delete_line` leaves lines of their kind. -/
theorem deleteLineBytes_lines {P : List Byte → Prop} (short : ∀ line, P line → ShortLine line) {file : List Byte}
    (made : Lines.MadeOf P file) (key : List Byte) (len : Nat) : Lines.MadeOf P (deleteLineBytes file key len) := by
  obtain ⟨lines, rfl, each⟩ := made
  have shortLines : ∀ line ∈ lines, ShortLine line := fun line mem => short line (each line mem)
  obtain ⟨kept, result, sub, -⟩ := deleteLineBytes_kept key len shortLines [] (List.replicate 512 nul)
  rw [deleteLineBytes, readLines_short shortLines (by decide)]
  exact ⟨kept, result, fun line mem => each line (sub.subset mem)⟩

/-- A row that becomes lines of a kind is put into lines of this kind. -/
theorem insertAttempts_lines {P : List Byte → Prop} {file row : List Byte} (made : Lines.MadeOf P file)
    (rowMade : Lines.MadeOf P row) (clean : cstr row = row) (n : Nat) : Lines.MadeOf P (insertAttempts row n file) := by
  induction n generalizing file with
  | zero => exact made
  | succ n ih =>
    have more : Lines.MadeOf P (file ++ cstr row) := clean.symm ▸ made.append rowMade
    rw [insertAttempts]
    split_ifs
    · exact more
    · exact ih more

/-! ## The rows of an id -/

/-- An id as the inverters have it. -/
structure IsId (id : List Byte) : Prop where
  twelve : id.length = 12
  plain : Plain id

theorem IsId.noNul {id : List Byte} (isId : IsId id) : ∀ b ∈ id, b ≠ nul :=
  fun b mem => (isId.plain b mem).1

theorem IsId.noComma {id : List Byte} (isId : IsId id) : comma ∉ id :=
  fun mem => (isId.plain comma mem).2.2 rfl

/-- The rows that begin with an id. -/
def rowsOf (id file : List Byte) : List (List Byte) :=
  (Lines.readLines newline 200 file).filter fun line => id <+: line

theorem rowsOf_lines (id : List Byte) {lines : List (List Byte)} (short : ∀ line ∈ lines, ShortLine line) :
    rowsOf id lines.flatten = lines.filter fun line => id <+: line := by
  rw [rowsOf, readLines_short short (by decide)]

theorem rowsOf_append (id : List Byte) {a b : List Byte} (left : Lines.MadeOf ShortLine a)
    (right : Lines.MadeOf ShortLine b) : rowsOf id (a ++ b) = rowsOf id a ++ rowsOf id b := by
  obtain ⟨first, rfl, inFirst⟩ := left
  obtain ⟨second, rfl, inSecond⟩ := right
  have both : ∀ line ∈ first ++ second, ShortLine line := by
    intro line mem
    rcases List.mem_append.1 mem with mem | mem
    · exact inFirst line mem
    · exact inSecond line mem
  rw [← List.flatten_append, rowsOf_lines id both, rowsOf_lines id inFirst, rowsOf_lines id inSecond,
    List.filter_append]

theorem rowsOf_made_other {id text : List Byte} (made :
    Lines.MadeOf (fun line => ShortLine line ∧ ¬ id <+: line) text) :
    rowsOf id text = [] := by
  obtain ⟨lines, rfl, each⟩ := made
  rw [rowsOf_lines id fun line mem => (each line mem).1, List.filter_eq_nil_iff]
  intro line mem
  simpa using (each line mem).2

theorem rowsOf_own {id row : List Byte} (short : ShortLine row) (own : id <+: row) : rowsOf id row = [row] := by
  have one : ∀ line ∈ [row], ShortLine line := fun line mem => List.mem_singleton.1 mem ▸ short
  have lines := rowsOf_lines id one
  rw [List.flatten_singleton] at lines
  rw [lines, List.filter_cons_of_pos (by simpa using own), List.filter_nil]

/-- `delete_line` with a key takes out the rows of the id that the key is, and leaves those of every other. -/
theorem rowsOf_delete {id file : List Byte} (key : List Byte) (isId : IsId id) (made : Lines.MadeOf ShortLine file) :
    Lines.MadeOf ShortLine (deleteLineBytes file key 12) ∧
      rowsOf id (deleteLineBytes file key 12) = if key.take 12 = id then [] else rowsOf id file := by
  obtain ⟨lines, rfl, short⟩ := made
  have fold (lines : List (List Byte)) (short : ∀ line ∈ lines, ShortLine line) (gone data : List Byte) :
      ∃ kept : List (List Byte), (lines.foldl (deleteStep key 12) (gone, data)).1 = gone ++ kept.flatten ∧
        (∀ line ∈ kept, ShortLine line) ∧ kept.filter (fun line => id <+: line) =
          if key.take 12 = id then [] else lines.filter fun line => id <+: line := by
    induction lines generalizing gone data with
    | nil => exact ⟨[], (List.append_nil gone).symm, fun _ mem => absurd mem List.not_mem_nil, by simp⟩
    | cons line lines ih =>
      have later := ih fun l mem => short l (List.mem_cons_of_mem line mem)
      have own : id <+: line → (memcpy data (line ++ [nul])).take 12 = id := by
        intro part
        have taken : (memcpy data (line ++ [nul])).take id.length = id := (take_memcpy isId.noNul).2 part
        rwa [isId.twelve] at taken
      rw [List.foldl_cons, deleteStep]
      dsimp only
      by_cases same : (memcpy data (line ++ [nul])).take 12 = key.take 12
      · rw [if_pos same]
        obtain ⟨kept, result, shorts, rest⟩ := later gone (memcpy data (line ++ [nul]))
        refine ⟨kept, result, shorts, rest.trans ?_⟩
        by_cases isKey : key.take 12 = id
        · rw [if_pos isKey, if_pos isKey]
        · have other : ¬ id <+: line := fun part => isKey (same.symm.trans (own part))
          rw [if_neg isKey, if_neg isKey, List.filter_cons_of_neg (by simpa using other)]
      · rw [if_neg same, cstr_memcpy data (short line List.mem_cons_self).clean]
        obtain ⟨kept, result, shorts, rest⟩ := later (gone ++ line) (memcpy data (line ++ [nul]))
        refine ⟨line :: kept, ?_, ?_, ?_⟩
        · rw [result, List.flatten_cons, List.append_assoc]
        · intro l mem
          rcases List.mem_cons.1 mem with rfl | mem
          · exact short l List.mem_cons_self
          · exact shorts l mem
        · by_cases part : id <+: line
          · have notKey : ¬ key.take 12 = id := fun isKey => same ((own part).trans isKey.symm)
            rw [if_neg notKey] at rest ⊢
            rw [List.filter_cons_of_pos (by simpa using part), List.filter_cons_of_pos (by simpa using part), rest]
          · rw [List.filter_cons_of_neg (by simpa using part), List.filter_cons_of_neg (by simpa using part), rest]
  obtain ⟨kept, result, shorts, rest⟩ := fold lines short [] (List.replicate 512 nul)
  have whole : deleteLineBytes lines.flatten key 12 = kept.flatten := by
    rw [deleteLineBytes, readLines_short short (by decide), result, List.nil_append]
  rw [whole, rowsOf_lines id shorts, rowsOf_lines id short]
  exact ⟨⟨kept, rfl, shorts⟩, rest⟩

/-- A row whose id is another one, whatever it holds, has no line that begins with the id. -/
theorem other_row {id : List Byte} (isId : IsId id) {next : List Byte} {fields : List (List Byte)}
    (plain : ∀ field ∈ next :: fields, Plain field) (n : Nat) {wid : List Byte} (less : wid.length ≤ n)
    (clean : ∀ b ∈ wid, b ≠ nul) (short : wid.length ≤ 12) (other : wid ≠ id)
    (few : (csvRow (wid :: next :: fields)).length < 100) :
    Lines.MadeOf (fun line => ShortLine line ∧ ¬ id <+: line) (csvRow (wid :: next :: fields)) := by
  have noNul (wid : List Byte) (clean : ∀ b ∈ wid, b ≠ nul) : ∀ b ∈ csvRow (wid :: next :: fields), b ≠ nul := by
    apply csvRow_noNul
    intro field mem b inField
    rcases List.mem_cons.1 mem with rfl | mem
    · exact clean b inField
    · exact (plain field mem b inField).1
  have single (wid : List Byte) (clean : ∀ b ∈ wid, b ≠ nul) (short : wid.length ≤ 12) (other : wid ≠ id)
      (few : (csvRow (wid :: next :: fields)).length < 100) (open_ : newline ∉ wid) :
      Lines.MadeOf (fun line => ShortLine line ∧ ¬ id <+: line) (csvRow (wid :: next :: fields)) := by
    refine Lines.MadeOf.single ⟨⟨⟨⟨[comma].intercalate (wid :: next :: fields), rfl, ?_⟩, few⟩, noNul wid clean⟩, ?_⟩
    · intro inside
      rw [List.intercalate_cons_of_ne_nil (List.cons_ne_nil _ _), List.append_assoc] at inside
      rcases List.mem_append.1 inside with inWid | behind
      · exact open_ inWid
      · rcases List.mem_cons.1 behind with same | inFields
        · exact absurd same (by decide)
        · exact (csvRow_chars plain inFields).2 rfl
    · intro part
      rw [csvRow_cons] at part
      have first : wid <+: wid ++ comma :: csvRow (next :: fields) := List.prefix_append _ _
      rcases Nat.lt_or_ge wid.length 12 with shorter | long
      · have fits := key_in_field rfl part isId.noComma
        rw [isId.twelve] at fits
        omega
      · have whole := List.prefix_of_prefix_length_le part first (by rw [isId.twelve]; exact long)
        exact other (whole.eq_of_length (by rw [isId.twelve]; omega)).symm
  induction n generalizing wid with
  | zero =>
    obtain rfl := List.length_eq_zero_iff.1 (Nat.le_zero.1 less)
    exact single [] clean short other few List.not_mem_nil
  | succ n ih =>
    by_cases open_ : newline ∈ wid
    · obtain ⟨front, back, rfl, whole⟩ := List.eq_append_cons_of_mem open_
      have cut : csvRow ((front ++ newline :: back) :: next :: fields) =
          (front ++ [newline]) ++ csvRow (back :: next :: fields) := by
        rw [csvRow_cons, csvRow_cons back, List.append_assoc, List.append_assoc]
        rfl
      have lengths := congrArg List.length cut
      rw [@List.length_append _ (front ++ [newline]), List.length_append, List.length_singleton] at lengths
      rw [List.length_append, List.length_cons] at less short
      have backOther : back ≠ id := by
        rintro rfl
        have := isId.twelve
        omega
      have backClean : ∀ b ∈ back, b ≠ nul :=
        fun b mem => clean b (List.mem_append_right _ (List.mem_cons_of_mem _ mem))
      have fewer : back.length ≤ n := by omega
      have later := ih fewer backClean (by omega) backOther (by omega)
      rw [cut]
      refine (Lines.MadeOf.single ⟨⟨⟨⟨front, rfl, whole⟩, ?_⟩, ?_⟩, ?_⟩).append later
      · rw [List.length_append, List.length_singleton]
        omega
      · intro b mem
        rcases List.mem_append.1 mem with inFront | last
        · exact clean b (List.mem_append_left _ inFront)
        · rw [List.mem_singleton.1 last]
          decide
      · intro part
        have long := part.length_le
        rw [isId.twelve, List.length_append, List.length_singleton] at long
        have same := part.eq_of_length (by rw [isId.twelve, List.length_append, List.length_singleton]; omega)
        have inside : newline ∈ id := same ▸ List.mem_append_right front (List.mem_singleton_self newline)
        exact (isId.plain newline inside).2.1 rfl
    · exact single wid clean short other few open_

/-- A row of another id leaves the rows of the id as they are, however often it is put in. -/
theorem rowsOf_insert_other {id file row : List Byte} (made : Lines.MadeOf ShortLine file)
    (rowMade : Lines.MadeOf (fun line => ShortLine line ∧ ¬ id <+: line) row) (clean : cstr row = row) (n : Nat) :
    Lines.MadeOf ShortLine (insertAttempts row n file) ∧ rowsOf id (insertAttempts row n file) = rowsOf id file := by
  induction n generalizing file with
  | zero => exact ⟨made, rfl⟩
  | succ n ih =>
    have lines := rowMade.mono fun _ both => both.1
    have more : Lines.MadeOf ShortLine (file ++ cstr row) := clean.symm ▸ made.append lines
    have same : rowsOf id (file ++ cstr row) = rowsOf id file := by
      rw [clean, rowsOf_append id made lines, rowsOf_made_other rowMade, List.append_nil]
    rw [insertAttempts]
    split_ifs
    · exact ⟨more, same⟩
    · have later := ih more
      exact ⟨later.1, later.2.trans same⟩

/-- Replacing the row of one id leaves those of the others. -/
theorem rowsOf_replace_other {id file key row : List Byte} (isId : IsId id) (made : Lines.MadeOf ShortLine file)
    (other : key.take 12 ≠ id) (rowMade : Lines.MadeOf (fun line => ShortLine line ∧ ¬ id <+: line) row)
    (clean : cstr row = row) (n : Nat) :
    Lines.MadeOf ShortLine (insertAttempts row n (deleteLineBytes file key 12)) ∧
      rowsOf id (insertAttempts row n (deleteLineBytes file key 12)) = rowsOf id file := by
  have deleted := rowsOf_delete key isId made
  rw [if_neg other] at deleted
  have inserted := rowsOf_insert_other deleted.1 rowMade clean n
  exact ⟨inserted.1, inserted.2.trans deleted.2⟩

/-- The rows of one id are taken out, those of another one stay. -/
theorem rowsOf_filter_other {id key : List Byte} (isId : IsId id) (twelve : key.length = 12) (other : key ≠ id)
    {lines : List (List Byte)} (short : ∀ line ∈ lines, ShortLine line) :
    rowsOf id (lines.filter fun line => ¬ key <+: line).flatten = rowsOf id lines.flatten := by
  have kept : ∀ line ∈ lines.filter fun line => ¬ key <+: line, ShortLine line :=
    fun line mem => short line (List.mem_filter.1 mem).1
  rw [rowsOf_lines id kept, rowsOf_lines id short, List.filter_filter]
  apply List.filter_congr
  intro line _
  by_cases part : id <+: line
  · have apart : ¬ key <+: line := by
      intro keyPart
      have whole := List.prefix_of_prefix_length_le keyPart part (by rw [isId.twelve, twelve])
      exact other (whole.eq_of_length (by rw [isId.twelve, twelve]))
    simp [part, apart]
  · simp [part]

/-- Once the rows of one id have made place, those of another one are what they were. -/
theorem rowsOf_replaced {id key row : List Byte} (isId : IsId id) (twelve : key.length = 12) (other : key ≠ id)
    {lines : List (List Byte)} (short : ∀ line ∈ lines, ShortLine line) (rowShort : ShortLine row) (own : key <+: row) :
    rowsOf id ((lines.filter fun line => ¬ key <+: line) ++ [row]).flatten = rowsOf id lines.flatten := by
  have kept : Lines.MadeOf ShortLine (lines.filter fun line => ¬ key <+: line).flatten :=
    ⟨_, rfl, fun line mem => short line (List.mem_filter.1 mem).1⟩
  have last : Lines.MadeOf (fun line => ShortLine line ∧ ¬ id <+: line) row := by
    refine Lines.MadeOf.single ⟨rowShort, fun part => ?_⟩
    have whole := List.prefix_of_prefix_length_le own part (by rw [isId.twelve, twelve])
    exact other (whole.eq_of_length (by rw [isId.twelve, twelve]))
  rw [List.flatten_append, List.flatten_singleton, rowsOf_append id kept (last.mono fun _ both => both.1),
    rowsOf_made_other last, List.append_nil, rowsOf_filter_other isId twelve other short]

end Ecu.Command
