import Ecu.Lib.LineSplit
import Ecu.Totals.Faults

/-!
# The line functions on the disk (`myfile.c`)

`delete_line` copies a file to a temporary one, without the lines that begin with a key, and puts it in the place of the
file; `insert_line` appends a row and looks whether it is there. `delete_line` tests that both files are open, but not
that a line was written, the file removed or the temporary one renamed; `insert_line` does not look at what the file
ends with (`line_edits_iff`).
-/

namespace Ecu.Myfile

open Totals Command

/-! ## The functions -/

/-- Which operations of `delete_line` succeed; `puts n` is the `fputs` of the line read as the `n`-th. -/
structure DeleteIo where
  openFile : Bool
  openTemp : Bool
  puts : Nat → Bool
  remove : Bool
  rename : Bool

/-- The loop of `delete_line`: what is put into the temporary file. `data` is the buffer. -/
def copyLoop (puts : Nat → Bool) (compareData : List Byte) (len : Nat) : Nat → List Byte → List (List Byte) → List Byte
  | _, _, [] => []
  | n, data, line :: lines =>
    let data := memcpy data (line ++ [nul])
    let rest := copyLoop puts compareData len (n + 1) data lines
    if data.take len = compareData.take len then rest else if puts n then cstr data ++ rest else rest

/-- `delete_line` -/
def deleteLine (io : DeleteIo) (disk : Disk) (filename temfilename compareData : List Byte) (len : Nat) : Int × Disk :=
  match io.openFile, disk filename with
  | true, some file =>
    if io.openTemp then
      let copied := copyLoop io.puts compareData len 0 (List.replicate 512 nul) (Lines.readLines newline 512 file)
      let disk := Function.update disk temfilename (some copied)
      let disk := if io.remove then remove disk filename else disk
      (0, if io.rename then rename disk temfilename filename else disk)
    else (-1, disk)
  | _, _ => (-1, disk)

/-- Which operations of `insert_line` succeed; `write` stores the first `written` characters. -/
structure InsertIo where
  openAppend : Bool
  written : Nat
  openSearch : Bool

/-- The loop of `search_line`. -/
def searchLoop (compareData : List Byte) (len : Nat) : List Byte → List (List Byte) → Bool
  | _, [] => false
  | data, line :: lines =>
    let data := memcpy data (line ++ [nul])
    if data.take len = compareData.take len then true else searchLoop compareData len data lines

/-- `search_line`; `data` is what its buffer holds at first. -/
def searchLine (openSearch : Bool) (data : List Byte) (disk : Disk) (filename compareData : List Byte) (len : Nat) :
    Int :=
  match openSearch, disk filename with
  | true, some file => if searchLoop compareData len data (Lines.readLines newline 300 file) then 1 else -1
  | _, _ => -1

/-- What `write` appends. -/
def appended (io : InsertIo) (str : List Byte) : List Byte :=
  if io.openAppend then (cstr str).take io.written else []

/-- `insert_line`; the file is made where there is none. -/
def insertLine (io : InsertIo) (data : List Byte) (disk : Disk) (filename str : List Byte) : Int × Disk :=
  let disk :=
    if io.openAppend then Function.update disk filename (some ((disk filename).getD [] ++ appended io str)) else disk
  (searchLine io.openSearch data disk filename str (strlen str), disk)

/-! ## What they are for -/

/-- The lines of a file that is there; none if it is not. -/
def rows (file : Option (List Byte)) : List (List Byte) :=
  Lines.split newline (file.getD [])

/-- The file is left with the lines that do not begin with the key; it is unchanged if the temporary file is not
opened. -/
def Deletes (io : DeleteIo) (disk : Disk) (filename temfilename key : List Byte) : Prop :=
  let after := (deleteLine io disk filename temfilename key key.length).2 filename
  if io.openFile ∧ ¬ io.openTemp then after = disk filename
  else after.isSome ∧ rows after = (rows (disk filename)).filter fun row => ¬ key <+: row

/-- 1 is returned exactly if the row is in the file afterwards, and at most the row is added to the others. -/
structure Inserts (io : InsertIo) (data : List Byte) (disk : Disk) (filename str : List Byte) : Prop where
  returned : (insertLine io data disk filename str).1 = 1 ↔
    cstr str ∈ rows ((insertLine io data disk filename str).2 filename)
  others : rows ((insertLine io data disk filename str).2 filename) = rows (disk filename) ∨
    rows ((insertLine io data disk filename str).2 filename) = rows (disk filename) ++ [cstr str]

/-! ## When they do it -/

/-- What the buffer of `delete_line` holds after some lines. -/
def buffer (lines : List (List Byte)) : List Byte :=
  lines.foldl (fun data line => memcpy data (line ++ [nul])) (List.replicate 512 nul)

/-- A line behind some others is copied as it is: it is written, it has no NUL, and it does not make up the key together
with its NUL and what the others have left in the buffer. -/
structure Copied (puts : Nat → Bool) (key : List Byte) (before : List (List Byte)) (line : List Byte) : Prop where
  written : puts before.length
  text : nul ∉ line
  other : (memcpy (buffer before) (line ++ [nul])).take key.length ≠ key

/-- The temporary file is not opened; or the file is not opened or not removed, and no line begins with the key; or it
is replaced by one to which all other lines are copied. -/
def DeletesWhen (io : DeleteIo) (file key : List Byte) : Prop :=
  if ¬ io.openFile then ∀ line ∈ Lines.split newline file, ¬ key <+: line
  else if ¬ io.openTemp then True
  else if ¬ io.remove then ∀ line ∈ Lines.split newline file, ¬ key <+: line
  else io.rename ∧ ∀ before line after, Lines.split newline file = before ++ line :: after → ¬ key <+: line →
    Copied io.puts key before line

/-- The whole text is appended, it is one row that fits the buffer of the search, and there is no open line in front of
it; or nothing is appended, and a row that begins with the text is one that equals it. -/
def InsertsWhen (io : InsertIo) (file : Option (List Byte)) (str : List Byte) : Prop :=
  if appended io str = [] then (io.openSearch ∧ ∃ row ∈ rows file, cstr str <+: row) ↔ cstr str ∈ rows file
  else appended io str = cstr str ∧ newline ∉ (cstr str).dropLast ∧ strlen str < 300 ∧
    Lines.Closed newline (file.getD []) ∧ io.openSearch

/-! ## Copying -/

/-- A property of each element of a list and what stands in front of it. -/
theorem forall_split_cons {α : Type} {P : List α → α → Prop} {a : α} {l : List α} :
    (∀ before b after, a :: l = before ++ b :: after → P before b) ↔
      P [] a ∧ ∀ before b after, l = before ++ b :: after → P (a :: before) b := by
  constructor
  · intro each
    exact ⟨each [] a l rfl, fun before b after same => each (a :: before) b after (by rw [same, List.cons_append])⟩
  · rintro ⟨first, others⟩ before b after same
    cases before with
    | nil =>
      obtain ⟨rfl, -⟩ := List.cons.inj same
      exact first
    | cons c before =>
      obtain ⟨rfl, rest⟩ := List.cons.inj same
      exact others before b after rest

theorem buffer_snoc (lines : List (List Byte)) (line : List Byte) :
    buffer (lines ++ [line]) = memcpy (buffer lines) (line ++ [nul]) := by
  rw [buffer, buffer, List.foldl_append, List.foldl_cons, List.foldl_nil]

theorem cstr_line (data line : List Byte) : cstr (memcpy data (line ++ [nul])) = cstr line := by
  rw [memcpy, List.append_assoc, List.singleton_append, cstr, cstr]
  by_cases clean : ∀ b ∈ line, (b != nul) = true
  · rw [List.takeWhile_append_of_pos clean, List.takeWhile_cons_of_neg (by simp), List.append_nil,
      List.takeWhile_eq_self_iff.2 clean]
  · rw [List.takeWhile_append, if_neg]
    intro whole
    exact clean (List.takeWhile_eq_self_iff.1 ((List.takeWhile_prefix _).eq_of_length whole))

theorem cstr_length_iff (line : List Byte) : (cstr line).length = line.length ↔ nul ∉ line := by
  constructor
  · intro whole mem
    have same := (List.takeWhile_prefix fun b : Byte => b != nul).eq_of_length whole
    have clean := List.takeWhile_eq_self_iff.1 same nul mem
    simp at clean
  · intro clean
    have same : cstr line = line := List.takeWhile_eq_self_iff.2 fun b mem => by
      rw [bne_iff_ne]
      rintro rfl
      exact clean mem
    rw [same]

theorem take_of_own {key line : List Byte} (own : key <+: line) (data : List Byte) :
    (memcpy data (line ++ [nul])).take key.length = key.take key.length := by
  rw [List.take_length, memcpy, List.append_assoc, List.take_append_of_le_length own.length_le]
  exact (List.prefix_iff_eq_take.1 own).symm

section Copy

variable {puts : Nat → Bool} {key : List Byte}

/-- The copy has no more than the other lines. -/
theorem copyLoop_length (n : Nat) (data : List Byte) (lines : List (List Byte)) :
    (copyLoop puts key key.length n data lines).length ≤ (lines.filter fun line => ¬ key <+: line).flatten.length := by
  induction lines generalizing n data with
  | nil => exact Nat.le_refl _
  | cons line lines ih =>
    have later := ih (n + 1) (memcpy data (line ++ [nul]))
    have part : (cstr line).length ≤ line.length := (List.takeWhile_prefix _).length_le
    rw [copyLoop]
    by_cases own : key <+: line
    · rw [if_pos (take_of_own own data), List.filter_cons_of_neg (by simpa using own)]
      exact later
    · rw [List.filter_cons_of_pos (by simpa using own), List.flatten_cons, List.length_append]
      split_ifs
      · omega
      · rw [List.length_append, cstr_line]
        omega
      · omega

/-- The copy has all the other lines exactly if each of them is copied as it is. -/
theorem copyLoop_iff (before lines : List (List Byte)) (nonempty : ∀ line ∈ lines, line ≠ []) :
    copyLoop puts key key.length before.length (buffer before) lines =
        (lines.filter fun line => ¬ key <+: line).flatten ↔
      ∀ front line after, lines = front ++ line :: after → ¬ key <+: line → Copied puts key (before ++ front) line := by
  induction lines generalizing before with
  | nil => exact iff_of_true rfl fun front line after none => by simp at none
  | cons line lines ih =>
    obtain ⟨some, nonempty⟩ := List.forall_mem_cons.1 nonempty
    have positive := List.length_pos_iff.2 some
    have later := ih (before ++ [line]) nonempty
    have less := @copyLoop_length puts key (before.length + 1)
      (memcpy (buffer before) (line ++ [nul])) lines
    have part : (cstr line).length ≤ line.length := (List.takeWhile_prefix _).length_le
    rw [buffer_snoc, List.length_append, List.length_singleton] at later
    rw [forall_split_cons, List.append_nil, copyLoop]
    simp only [List.append_assoc, List.singleton_append] at later
    rw [← later]
    generalize copyLoop puts key key.length (before.length + 1) (memcpy (buffer before) (line ++ [nul])) lines = rest
      at less
    by_cases own : key <+: line
    · rw [if_pos (take_of_own own (buffer before)), List.filter_cons_of_neg (by simpa using own)]
      exact ⟨fun same => ⟨fun other => absurd own other, same⟩, And.right⟩
    · rw [List.filter_cons_of_pos (by simpa using own), List.flatten_cons, List.take_length]
      constructor
      · intro same
        have lengths := congrArg List.length same
        rw [List.length_append] at lengths
        split_ifs at same lengths with dropped written
        · omega
        · rw [List.length_append, cstr_line] at lengths
          rw [cstr_line] at same
          have whole : (cstr line).length = line.length := by omega
          exact ⟨fun _ => ⟨written, (cstr_length_iff line).1 whole, dropped⟩, List.append_inj_right same whole⟩
        · omega
      · rintro ⟨copied, same⟩
        obtain ⟨written, text, other⟩ := copied own
        have whole := (List.takeWhile_prefix _).eq_of_length ((cstr_length_iff line).2 text)
        rw [if_neg other, if_pos written, cstr_line, show cstr line = line from whole, same]

end Copy

/-! ## `delete_line` -/

theorem filter_all_iff {rows : List (List Byte)} {key : List Byte} :
    rows = (rows.filter fun row => ¬ key <+: row) ↔ ∀ row ∈ rows, ¬ key <+: row := by
  rw [eq_comm, List.filter_eq_self]
  simp only [decide_eq_true_eq]

section Delete

variable {io : DeleteIo} {disk : Disk} {filename temfilename file : List Byte} (other : filename ≠ temfilename)
  (there : disk filename = some file)

include other there

/-- What a call leaves of the file. -/
theorem deleteLine_file (compareData : List Byte) (len : Nat) :
    (deleteLine io disk filename temfilename compareData len).2 filename =
      if io.openFile ∧ io.openTemp ∧ io.remove then
        if io.rename then
          some (copyLoop io.puts compareData len 0 (List.replicate 512 nul) (Lines.readLines newline 512 file))
        else none
      else some file := by
  unfold deleteLine
  rw [there]
  generalize copyLoop io.puts compareData len 0 (List.replicate 512 nul) = loop
  have replaced (copied : List Byte) := congrFun (@rename_replaces disk temfilename filename other copied) filename
  have kept (copied : List Byte) : Function.update disk temfilename (some copied) filename = some file := by
    rw [Function.update_of_ne other, there]
  have removed (copied : List Byte) :
      remove (Function.update disk temfilename (some copied)) filename filename = none :=
    Function.update_self ..
  have stays (copied : List Byte) := @rename_stays _ temfilename _ _ (kept copied)
  cases io.openFile with
  | false => simp [there]
  | true =>
    cases io.openTemp with
    | false => simp [there]
    | true =>
      cases io.remove <;> cases io.rename <;> simp [kept, stays, removed, replaced, Function.update_of_ne other]

/-- **`delete_line`** is a filter exactly if the operations behind the opening of the files succeed, or there is nothing
to take out, and each line that stays is copied as it is. -/
theorem deletes_iff {key : List Byte} (short : ∀ row ∈ rows (disk filename), row.length < 512) :
    Deletes io disk filename temfilename key ↔ DeletesWhen io file key := by
  rw [rows, there, Option.getD_some] at short
  have nonempty : ∀ line ∈ Lines.split newline file, line ≠ [] := fun line mem => Lines.split_ne_nil mem
  have loop := @copyLoop_iff io.puts key [] (Lines.split newline file) nonempty
  simp only [List.length_nil, show buffer [] = List.replicate 512 nul from rfl, List.nil_append] at loop
  rw [Deletes, DeletesWhen, deleteLine_file other there, Lines.readLines_split (by decide) short, ← loop, there]
  generalize copyLoop io.puts key key.length 0 (List.replicate 512 nul) (Lines.split newline file) = copied
  have lines : Lines.split newline copied = ((Lines.split newline file).filter fun row => ¬ key <+: row) ↔
      copied = ((Lines.split newline file).filter fun row => ¬ key <+: row).flatten := by
    constructor
    · intro same
      rw [← same, Lines.flatten_split]
    · rintro rfl
      exact Lines.split_sublist List.filter_sublist
  cases io.openFile with
  | false => simp [rows, ← filter_all_iff]
  | true =>
    cases io.openTemp with
    | false => simp
    | true =>
      cases io.remove with
      | false => simp [rows, ← filter_all_iff]
      | true =>
        cases io.rename with
        | false => simp
        | true => simpa [rows] using lines

end Delete

/-! ## `insert_line` -/

theorem searchLoop_iff {compareData key : List Byte} {len : Nat} (full : ∀ b ∈ key, b ≠ nul)
    (same : compareData.take len = key) (whole : key.length = len) (data : List Byte) (lines : List (List Byte)) :
    searchLoop compareData len data lines ↔ ∃ line ∈ lines, key <+: line := by
  induction lines generalizing data with
  | nil => simp [searchLoop]
  | cons line lines ih =>
    have begins : (memcpy data (line ++ [nul])).take len = compareData.take len ↔ key <+: line := by
      rw [same, ← whole]
      exact take_memcpy full
    rw [searchLoop, List.exists_mem_cons_iff]
    by_cases own : key <+: line
    · rw [if_pos (begins.2 own)]
      exact iff_of_true rfl (.inl own)
    · rw [if_neg (mt begins.1 own), ih]
      exact (or_iff_right own).symm

section Insert

variable (io : InsertIo) (data : List Byte) (disk : Disk) (filename str : List Byte)

/-- What a call leaves of the file. -/
theorem insertLine_file : ((insertLine io data disk filename str).2 filename).getD [] =
    (disk filename).getD [] ++ appended io str := by
  unfold insertLine appended
  cases io.openAppend with
  | false => simp
  | true => simp [Function.update_self]

theorem insertLine_returned : (insertLine io data disk filename str).1 = 1 ↔ io.openSearch ∧
    ∃ line ∈ Lines.readLines newline 300 ((disk filename).getD [] ++ appended io str), cstr str <+: line := by
  have content := insertLine_file io data disk filename str
  have same : str.take (strlen str) = cstr str := ((List.prefix_iff_eq_take).1 (List.takeWhile_prefix _)).symm
  rw [← content, show (insertLine io data disk filename str).1 =
    searchLine io.openSearch data (insertLine io data disk filename str).2 filename str (strlen str) from rfl]
  generalize (insertLine io data disk filename str).2 = disk'
  unfold searchLine
  cases io.openSearch with
  | false => simp
  | true =>
    cases disk' filename with
    | none => simp [Lines.readLines, Lines.readLoop]
    | some file =>
      have found := searchLoop_iff (cstr_noNul str) same rfl data (Lines.readLines newline 300 file)
      dsimp only
      rw [Option.getD_some, ← found]
      split_ifs with isFound
      · simp [isFound]
      · simp [isFound]

variable {io disk filename str}

/-- **`insert_line`** tells whether the row is there, and adds it to the others, exactly if the whole of it is appended
to a file without an open line and found, or nothing is appended and no other row begins like it. -/
theorem inserts_iff (short : ∀ row ∈ rows (disk filename), row.length < 300) :
    Inserts io data disk filename str ↔ InsertsWhen io (disk filename) str := by
  have content := insertLine_file io data disk filename str
  have returned := insertLine_returned io data disk filename str
  have after : rows ((insertLine io data disk filename str).2 filename) =
      Lines.split newline ((disk filename).getD [] ++ appended io str) := by
    rw [rows, content]
  unfold InsertsWhen
  unfold rows at short ⊢
  by_cases nothing : appended io str = []
  · rw [nothing, List.append_nil] at returned after
    rw [Lines.readLines_split (by decide) short] at returned
    rw [if_pos nothing, ← returned]
    constructor
    · rintro ⟨isReturned, -⟩
      rwa [after] at isReturned
    · exact fun isReturned => ⟨by rwa [after], .inl after⟩
  · rw [if_neg nothing]
    constructor
    · rintro ⟨isReturned, others⟩
      rw [after] at isReturned others
      have added : Lines.split newline ((disk filename).getD [] ++ appended io str) =
          Lines.split newline ((disk filename).getD []) ++ [cstr str] := by
        refine others.resolve_left fun same => nothing ?_
        have texts := congrArg List.flatten same
        rwa [Lines.flatten_split, rows, Lines.flatten_split, List.append_right_eq_self] at texts
      have whole : appended io str = cstr str := by
        have texts := congrArg List.flatten added
        rw [Lines.flatten_split, List.flatten_append, Lines.flatten_split, List.flatten_singleton] at texts
        exact List.append_cancel_left texts
      rw [whole] at added
      obtain ⟨closed, single⟩ := Lines.split_append_iff.1 added
      have there := List.mem_append_right (Lines.split newline ((disk filename).getD []))
        (List.mem_singleton_self (cstr str))
      rw [← added] at there
      rw [whole] at isReturned
      obtain ⟨openSearch, line, mem, part⟩ := returned.1 (isReturned.2 there)
      have fits := Lines.readLines_fit (by decide) mem
      exact ⟨whole, (Lines.split_single_iff.1 single).2, Nat.lt_of_le_of_lt part.length_le fits, closed, openSearch⟩
    · rintro ⟨whole, clean, fits, closed, openSearch⟩
      rw [whole] at nothing
      have added := Lines.split_append_iff.2 ⟨closed, Lines.split_single_iff.2 ⟨nothing, clean⟩⟩
      have there := List.mem_append_right (Lines.split newline ((disk filename).getD []))
        (List.mem_singleton_self (cstr str))
      have all : ∀ row ∈ Lines.split newline ((disk filename).getD [] ++ cstr str), row.length < 300 := by
        rw [added]
        intro row mem
        rcases List.mem_append.1 mem with before | last
        · exact short row before
        · rw [List.mem_singleton.1 last]
          exact fits
      rw [whole] at returned after
      rw [Lines.readLines_split (by decide) all] at returned
      refine ⟨?_, .inr (after.trans added)⟩
      rw [after]
      exact iff_of_true (returned.2 ⟨openSearch, cstr str, added ▸ there, List.prefix_rfl⟩) (added ▸ there)

end Insert

/-! ## Calls in which nothing fails -/

/-- Without a failure the copy is the one that the tables are edited with. -/
theorem copyLoop_all (compareData : List Byte) (len n : Nat) (gone data : List Byte) (lines : List (List Byte)) :
    gone ++ copyLoop (fun _ => true) compareData len n data lines =
      (lines.foldl (deleteStep compareData len) (gone, data)).1 := by
  induction lines generalizing n gone data with
  | nil => exact List.append_nil gone
  | cons line lines ih =>
    rw [copyLoop, List.foldl_cons, deleteStep]
    by_cases own : (memcpy data (line ++ [nul])).take len = compareData.take len
    · rw [if_pos own, if_pos own]
      exact ih (n + 1) gone _
    · rw [if_neg own, if_neg own, if_pos rfl, ← List.append_assoc]
      exact ih (n + 1) _ _

theorem deleteLine_succeeds {disk : Disk} {filename temfilename file : List Byte} (other : filename ≠ temfilename)
    (there : disk filename = some file) (compareData : List Byte) (len : Nat) :
    (deleteLine ⟨true, true, fun _ => true, true, true⟩ disk filename temfilename compareData len).2 filename =
      some (deleteLineBytes file compareData len) := by
  have copied := copyLoop_all compareData len 0 [] (List.replicate 512 nul) (Lines.readLines newline 512 file)
  rw [List.nil_append] at copied
  rw [deleteLine_file other there, if_pos ⟨rfl, rfl, rfl⟩, if_pos rfl, deleteLineBytes, ← copied]

theorem insertLine_succeeds (data : List Byte) {disk : Disk} {filename str file : List Byte}
    (there : disk filename = some file) (clean : cstr str = str) :
    ((insertLine ⟨true, strlen str, true⟩ data disk filename str).2 filename).getD [] =
        (Protection.insertLine file str).1 ∧
      ((insertLine ⟨true, strlen str, true⟩ data disk filename str).1 = 1 ↔ (Protection.insertLine file str).2) := by
  have all : appended ⟨true, strlen str, true⟩ str = cstr str := List.take_of_length_le (Nat.le_refl _)
  rw [insertLine_file, insertLine_returned, all, there, Option.getD_some]
  refine ⟨rfl, ?_⟩
  rw [Protection.insertLine, Protection.searchLine, clean]
  simp

/-! ## Both -/

/-- **The edits of a table** do what they are for exactly under these conditions. -/
theorem line_edits_iff {io : DeleteIo} {disk : Disk} {filename temfilename key file : List Byte}
    (other : filename ≠ temfilename) (there : disk filename = some file)
    (short : ∀ row ∈ rows (disk filename), row.length < 512) {io' : InsertIo} (data : List Byte) {disk' : Disk}
    {filename' str : List Byte} (short' : ∀ row ∈ rows (disk' filename'), row.length < 300) :
    (Deletes io disk filename temfilename key ↔ DeletesWhen io file key) ∧
      (Inserts io' data disk' filename' str ↔ InsertsWhen io' (disk' filename') str) :=
  ⟨deletes_iff other there short, inserts_iff data short'⟩

/-- A disk with one file. -/
def oneFile (filename file : List Byte) : Disk :=
  Function.update (fun _ => none) filename (some file)

theorem oneFile_rows (filename file : List Byte) :
    rows (oneFile filename file filename) = Lines.split newline file := by
  rw [rows, oneFile, Function.update_self, Option.getD_some]

def sampleFile : List Byte :=
  str "1,2\n3,4\n"

theorem sampleFile_there : oneFile (str "t") sampleFile (str "t") = some sampleFile :=
  Function.update_self ..

theorem sampleFile_short {n : Nat} (room : 4 < n) :
    ∀ row ∈ rows (oneFile (str "t") sampleFile (str "t")), row.length < n := by
  have lines : Lines.split newline sampleFile = [str "1,2\n", str "3,4\n"] := by
    rw [sampleFile, str_ofList, str_ofList, str_ofList]
    decide +kernel
  rw [oneFile_rows, lines]
  intro row mem
  rcases List.mem_pair.1 mem with rfl | rfl <;> exact room

theorem names_other : str "t" ≠ str "u" := by
  rw [str_ofList, str_ofList]
  decide

theorem line_edits_sample :
    (Deletes ⟨true, true, fun _ => true, true, true⟩ (oneFile (str "t") sampleFile) (str "t") (str "u") (str "1") ↔
        DeletesWhen ⟨true, true, fun _ => true, true, true⟩ sampleFile (str "1")) ∧
      (Inserts ⟨true, 4, true⟩ [] (oneFile (str "t") sampleFile) (str "t") (str "1,2\n") ↔
        InsertsWhen ⟨true, 4, true⟩ (oneFile (str "t") sampleFile (str "t")) (str "1,2\n")) :=
  line_edits_iff names_other sampleFile_there (sampleFile_short (by decide)) [] (sampleFile_short (by decide))

/-- A file that cannot be renamed is gone; a row behind an open line makes one line with it. -/
theorem line_edits_fail :
    (¬ ∀ (io : DeleteIo) (disk : Disk) (filename temfilename key : List Byte), filename ≠ temfilename →
      (∀ row ∈ rows (disk filename), row.length < 512) → (disk filename).isSome →
        Deletes io disk filename temfilename key) ∧
      ¬ ∀ (io : InsertIo) (data : List Byte) (disk : Disk) (filename str : List Byte),
        (∀ row ∈ rows (disk filename), row.length < 300) → Inserts io data disk filename str := by
  constructor
  · intro all
    have deletes := all ⟨true, true, fun _ => true, true, false⟩ (oneFile (str "t") sampleFile) (str "t") (str "u")
      (str "1") names_other (sampleFile_short (by decide)) (by rw [sampleFile_there]; rfl)
    have gone : (deleteLine ⟨true, true, fun _ => true, true, false⟩ (oneFile (str "t") sampleFile) (str "t") (str "u")
        (str "1") (str "1").length).2 (str "t") = none := by
      rw [deleteLine_file names_other sampleFile_there, if_pos ⟨rfl, rfl, rfl⟩, if_neg Bool.false_ne_true]
    unfold Deletes at deletes
    rw [gone, if_neg fun closed => closed.2 rfl] at deletes
    exact Bool.false_ne_true deletes.1
  · intro all
    have before : rows (oneFile (str "t") (str "a") (str "t")) = [str "a"] := by
      rw [oneFile_rows, str_ofList]
      decide +kernel
    have others := (all ⟨true, 2, true⟩ [] (oneFile (str "t") (str "a")) (str "t") (str "b\n")
      (before ▸ by decide +kernel)).others
    rw [before, rows, insertLine_file, oneFile, Function.update_self, Option.getD_some] at others
    revert others
    rw [str_ofList, str_ofList]
    decide +kernel

end Ecu.Myfile
