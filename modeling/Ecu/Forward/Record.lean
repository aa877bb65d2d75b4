import Ecu.Forward.Client
import Ecu.Forward.Control

/-!
# Well-formed records and the stores they make up

A `Record q` is a line of the queue `q` as its save function writes it: the payload, the key
fields of their fixed widths, the flag. Its well-formedness travels with it (text without NUL or
newline, long enough for the readers' `strlen(buff) > 18`, short enough for their line buffer),
so a store of records renders to a directory whose every line the readers take whole
(`buffLines_render`) and whose separators, flag and key stand where they are looked for.
-/

namespace Ecu.Forward

inductive Queue where
  | record
  | status
  | proResult
  | invProResult
deriving DecidableEq, Repr

/-- The widths of the key fields between payload and flag. -/
def Queue.widths : Queue → List Nat
  | .record => [14]
  | .status => [14]
  | .proResult => [3]
  | .invProResult => [12, 3]

/-- The separators that the readers of the queue test first. -/
def Queue.seps : Queue → List Nat
  | .record => [3, 18]
  | .status => [3, 18]
  | .proResult => [3, 7]
  | .invProResult => [3, 7, 20]

/-- The length of a line without its payload. -/
def Queue.tail (q : Queue) : Nat :=
  (q.widths.map (· + 1)).sum + 3

/-- The least payload that makes a line longer than 18 characters. Every message has a header
longer than that. -/
def Queue.minPayload (q : Queue) : Nat :=
  19 - q.tail

/-- A flag character that does not end the line or the string. -/
structure IsFlag (c : Byte) : Prop where
  notNul : c ≠ nul
  notNewline : c ≠ newline

instance (c : Byte) : Decidable (IsFlag c) :=
  decidable_of_iff (c ≠ nul ∧ c ≠ newline) ⟨fun h => ⟨h.1, h.2⟩, fun h => ⟨h.1, h.2⟩⟩

theorem isFlag_digit : IsFlag (digit 0) ∧ IsFlag (digit 1) ∧ IsFlag (digit 2) := by
  decide

theorem isFlag_one : IsFlag (digit 1) :=
  isFlag_digit.2.1

structure Record (q : Queue) where
  payload : List Byte
  keys : List (List Byte)
  flag : Byte
  payloadText : IsText payload
  widths : keys.map List.length = q.widths
  keysText : ∀ key ∈ keys, IsText key
  isFlag : IsFlag flag
  long : q.minPayload ≤ payload.length
  fits : payload.length + q.tail < lineBuffer

namespace Record

variable {q : Queue}

/-- The key fields, each after its separator, and the flag. -/
def tailBytes (keys : List (List Byte)) (flag : Byte) : List Byte :=
  keys.flatMap (comma :: ·) ++ [comma, flag, newline]

/-- The line of a record. -/
def line (r : Record q) : List Byte :=
  r.payload ++ tailBytes r.keys r.flag

def withFlag (r : Record q) (c : Byte) (isFlag : IsFlag c) : Record q :=
  { r with flag := c, isFlag := isFlag }

theorem tailBytes_length (keys : List (List Byte)) (flag : Byte) :
    (tailBytes keys flag).length = ((keys.map List.length).map (· + 1)).sum + 3 := by
  unfold tailBytes
  rw [List.length_append, List.length_flatMap, List.map_map]
  rfl

theorem line_length (r : Record q) : r.line.length = r.payload.length + q.tail := by
  rw [line, List.length_append, tailBytes_length, r.widths, Queue.tail]

theorem long_line (r : Record q) : 18 < r.line.length := by
  have long := r.long
  rw [line_length]
  unfold Queue.minPayload at long
  omega

/-- The line is its text, the flag and the newline. -/
theorem line_eq (r : Record q) :
    r.line = (r.payload ++ r.keys.flatMap (comma :: ·) ++ [comma]) ++ [r.flag, newline] := by
  simp [line, tailBytes]

theorem front_text (r : Record q) :
    IsText (r.payload ++ r.keys.flatMap (comma :: ·) ++ [comma]) := by
  apply IsText.append (r.payloadText.append _)
  · intro b mem
    rw [List.mem_singleton.1 mem]
    decide
  · intro b mem
    obtain ⟨key, inKeys, inKey⟩ := List.mem_flatMap.1 mem
    rcases List.mem_cons.1 inKey with rfl | inKey
    · decide
    · exact r.keysText key inKeys b inKey

theorem isLine (r : Record q) : Lines.IsLine newline lineBuffer r.line := by
  refine ⟨⟨(r.payload ++ r.keys.flatMap (comma :: ·) ++ [comma]) ++ [r.flag], by simp [line_eq], ?_⟩,
    by rw [line_length]; exact r.fits⟩
  intro mem
  rcases List.mem_append.1 mem with mem | mem
  · exact (r.front_text _ mem).2 rfl
  · exact r.isFlag.notNewline (List.mem_singleton.1 mem).symm

theorem clean (r : Record q) : ∀ b ∈ r.line, b ≠ nul := by
  intro b mem
  rw [line_eq] at mem
  rcases List.mem_append.1 mem with mem | mem
  · exact (r.front_text b mem).1
  · rcases List.mem_cons.1 mem with rfl | mem
    · exact r.isFlag.notNul
    · rw [List.mem_singleton.1 mem]
      decide

@[simp] theorem strlen_line (r : Record q) : strlen r.line = r.line.length :=
  strlen_of_clean r.clean

/-- A byte of the line, counted from the end. -/
theorem fromEnd_line (r : Record q) {before after : List Byte} {b : Byte}
    (split : r.line = before ++ b :: after) : fromEnd r.line (after.length + 1) = some b := by
  have length := congrArg List.length split
  rw [List.length_append, List.length_cons] at length
  rw [fromEnd, strlen_line, if_pos (by omega), split]
  rw [split] at length
  rw [List.getElem?_append_right (by omega)]
  simp

theorem sliceFromEnd_line (r : Record q) {before field after : List Byte}
    (split : r.line = before ++ (field ++ after)) :
    sliceFromEnd r.line (field.length + after.length) field.length = field := by
  have length := congrArg List.length split
  rw [List.length_append, List.length_append] at length
  rw [sliceFromEnd, strlen_line, split]
  rw [split] at length
  rw [show (before ++ (field ++ after)).length - (field.length + after.length) = before.length by omega,
    List.drop_left, List.take_left]

@[simp] theorem fromEnd_flag (r : Record q) : fromEnd r.line 2 = some r.flag :=
  r.fromEnd_line (r.line_eq : r.line = _ ++ r.flag :: [newline])

theorem putFlag_line (r : Record q) (c : Byte) (isFlag : IsFlag c) :
    putFlag c r.line = (r.withFlag c isFlag).line := by
  have set (front : List Byte) (a b : Byte) :
      (front ++ [a, b]).set ((front ++ [a, b]).length - 2) c = front ++ [c, b] := by
    rw [List.set_append_right _ _ (by simp)]
    simp
  rw [putFlag, line_eq, line_eq, set]
  rfl

end Record

end Ecu.Forward
