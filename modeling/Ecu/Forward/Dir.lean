import Ecu.Base
import Ecu.Lib.Lines
import Ecu.Lib.FirstMatch

/-!
# The record directories, byte for byte

The four store-and-forward queues keep their records in directories of text files. A directory
is the list of its files in `readdir` order, a file the list of its bytes. `change_*flag`,
`search_*flag` and `delete_*flag0` exist once per queue and differ in the offsets (counted from
the end of the line) at which they expect separators and in what they copy out; here each family
is one function of those offsets. The members, with the offsets the source gives each, are in
`Ecu.Forward.Client` and `Ecu.Forward.Control`.
-/

namespace Ecu.Forward

open FirstMatch

abbrev File := List Byte

/-- Files by name, in `readdir` order. -/
abbrev Dir := List (List Byte × File)

/-- What successive `fgets(buff, lineBuffer, fp)` return up to the end of the file. -/
def buffLines (f : File) : List (List Byte) :=
  Lines.readLines newline lineBuffer f

/-- `buff[strlen(buff) - k]`; `none` where that lies before the buffer. -/
def fromEnd (buff : List Byte) (k : Nat) : Option Byte :=
  if k ≤ strlen buff then buff[strlen buff - k]? else none

/-- The `width` bytes that start `k` before the end of the string. -/
def sliceFromEnd (buff : List Byte) (k width : Nat) : List Byte :=
  (buff.drop (strlen buff - k)).take width

/-- `strlen(buff) > 18` and a comma at each of the offsets `seps` from the end. -/
def separated (seps : List Nat) (buff : List Byte) : Bool :=
  decide (18 < strlen buff) && seps.all fun k => fromEnd buff k == some comma

/-- A separated line that carries the flag `c`. -/
def hits (seps : List Nat) (c : Byte) (buff : List Byte) : Bool :=
  separated seps buff && fromEnd buff 2 == some c

/-! ## Changing a flag -/

/-- `fseek(fp, -2L, SEEK_CUR); fputc(flag, fp)` right after `buff` was read. -/
def putFlag (flag : Byte) (buff : List Byte) : List Byte :=
  buff.set (buff.length - 2) flag

/-- Put `flag` on the first line of a file that passes `test`. -/
def changeLine (test : List Byte → Bool) (flag : Byte) (f : File) : Option File :=
  (modifyFirst (fun buff => if test buff then some (putFlag flag buff) else none)
    (buffLines f)).map List.flatten

/-- The common body of the `change_*flag` functions: the first line of the first file that
passes `test` gets the flag, 1 is returned; 0 when no line passes. -/
def changeFlag (test : List Byte → Bool) (flag : Byte) (d : Dir) : Nat × Dir :=
  match modifyFirst (fun e => (changeLine test flag e.2).map (Prod.mk e.1)) d with
  | some d' => (1, d')
  | none => (0, d)

/-! ## Searching -/

/-- What one `search_*flag` function tests and copies. -/
structure SearchParams where
  /-- Separators of the scan for the record itself. -/
  first : List Nat
  /-- Separators of the scan of the rest of the same file. -/
  same : List Nat
  /-- Separators of the scan of the files after it. -/
  later : List Nat
  /-- Where the payload ends, from the end of the line. -/
  cut : Nat
  /-- The key outputs: start from the end of the line, and width. -/
  keys : List (Nat × Nat)

/-- The outputs of a `search_*flag` function: its return value, the caller's `data` and key
buffers afterwards, and `*flag`. -/
structure SearchOut where
  ret : Nat
  data : List Byte
  keys : List (List Byte)
  flag : Nat
deriving DecidableEq, Repr

/-- The scan over the files. Before the hit `nextfileflag` is 0 and the first separators count;
after it the rest of that file and the later files are only looked through for one more. -/
def searchScan (p : SearchParams) (sendflag : Byte) : List (List (List Byte)) → Option (List Byte × Nat)
  | [] => none
  | f :: files =>
    match splitFirst (hits p.first sendflag) f with
    | some (buff, rest) =>
      some (buff, if rest.any (hits p.same sendflag) ||
        files.any (fun g => g.any (hits p.later sendflag)) then 1 else 0)
    | none => searchScan p sendflag files

/-- The common body of the `search_*flag` functions. `memset(data, 0, sizeof(data)/sizeof(data[0]))`
clears the four bytes of a pointer, not the buffer. -/
def searchFlag (p : SearchParams) (d : Dir) (data : List Byte) (keys : List (List Byte))
    (sendflag : Byte) : SearchOut :=
  match searchScan p sendflag (d.map fun e => buffLines e.2) with
  | some (buff, flag) =>
    { ret := 1
      data := memcpy (memset data nul 4) (buff.take (strlen buff - p.cut) ++ [newline])
      keys := List.zipWith (fun key k => memcpy key (sliceFromEnd buff k.1 k.2)) keys p.keys
      flag := flag }
  | none => { ret := 0, data := memset data nul 4, keys := keys, flag := 0 }

/-! ## Deleting and detecting -/

/-- Some separated line of the file has a flag other than `'0'`. -/
def pendingFile (seps : List Nat) (f : File) : Bool :=
  (buffLines f).any fun buff => separated seps buff && fromEnd buff 2 != some (digit 0)

/-- The common body of the `delete_*flag0` functions: unlink every file without such a line. -/
def deleteFlag0 (seps : List Nat) (d : Dir) : Dir :=
  d.filter fun e => pendingFile seps e.2

/-- The common body of the `detection_*` functions. -/
def detectFlag (seps : List Nat) (c : Byte) (d : Dir) : Bool :=
  d.any fun e => (buffLines e.2).any (hits seps c)

/-! ## Saving -/

/-- `open(path, O_WRONLY | O_APPEND | O_CREAT)` and the writes that follow. A new file appears in
the directory at the position `pos`, which the file system chooses. -/
def appendFile (d : Dir) (pos : Nat) (name bytes : List Byte) : Dir :=
  (modifyFirst (fun e => if e.1 = name then some (e.1, e.2 ++ bytes) else none) d).getD
    (d.take pos ++ (name, bytes) :: d.drop pos)

/-- The file of a day: the first eight characters of a date-time, with its extension. -/
def dayFile (time : List Byte) : List Byte :=
  time.take 8 ++ str ".dat"

end Ecu.Forward
