import Mathlib.Data.List.Basic
import Mathlib.Tactic.SplitIfs

/-!
# Arrays with bounds

What a program does with an array whose size it does not look at: it reads an element, copies a piece of it to another
array, or prints a text into one. Each is a partial function that is defined exactly where it stays inside, so that a
sequence of them is defined exactly when all of its steps are.
-/

namespace Arrays

variable {α : Type*}

/-- The element at a place of an array. -/
def read (array : List α) (i : Int) : Option α :=
  if 0 ≤ i then array[i.toNat]? else none

/-- The piece of `len` elements at `i`, copied to an array that has room for `room`. -/
def copy (room : Nat) (array : List α) (i len : Int) : Option (List α) :=
  if 0 ≤ len ∧ len ≤ room ∧ 0 ≤ i ∧ i + len ≤ array.length then some ((array.drop i.toNat).take len.toNat) else none

/-- A text and its end, printed into an array. -/
def print (room : Nat) (text : List α) : Option (List α) :=
  if text.length < room then some text else none

theorem read_eq {array : List α} {i : Nat} {a : α} (there : array[i]? = some a) : read array i = some a := by
  rw [read, if_pos (Int.natCast_nonneg i), Int.toNat_natCast, there]

theorem read_set_ne {array : List α} {i j : Nat} (other : j ≠ i) (a : α) : read (array.set j a) i = read array i := by
  rw [read, read, Int.toNat_natCast, List.getElem?_set_ne other]

theorem copy_eq {room : Nat} {array : List α} {i len : Int} (positive : 0 ≤ len) (fits : len ≤ room) (low : 0 ≤ i)
    (inside : i + len ≤ array.length) : copy room array i len = some ((array.drop i.toNat).take len.toNat) :=
  if_pos ⟨positive, fits, low, inside⟩

theorem copy_isSome {room : Nat} {array : List α} {i len : Int} {piece : List α}
    (copied : copy room array i len = some piece) : 0 ≤ len ∧ len ≤ room := by
  unfold copy at copied
  split_ifs at copied with inside
  exact ⟨inside.1, inside.2.1⟩

theorem print_eq {room : Nat} {text : List α} (short : text.length < room) : print room text = some text :=
  if_pos short

theorem print_some {room : Nat} {text printed : List α} (made : print room text = some printed) :
    text.length < room ∧ printed = text := by
  unfold print at made
  split_ifs at made with short
  exact ⟨short, (Option.some.inj made).symm⟩

end Arrays
