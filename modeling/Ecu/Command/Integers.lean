import Ecu.Command.Handlers
import Ecu.Protection.ReadBack

/-!
# Integers in a message (`remote_control_protocol.c`)

`msgcat_d` writes an integer as so many characters, with zeros in front, and a negative one as so many `A`.
`msg_get_int` reads it back, and -1 for the letters (`integers_read_back`).
-/

namespace Ecu.Command

open Socket Protection

/-- What `msgcat_d` appends. -/
def msgInt (size : Nat) (v : Int) : List Byte :=
  msgcatD [] size v

theorem msgcatD_eq (s : List Byte) (size : Nat) (v : Int) : msgcatD s size v = s ++ msgInt size v := by
  unfold msgInt msgcatD msgcatS
  split_ifs
  · rfl
  · rfl

theorem msgInt_negative (size : Nat) {v : Int} (negative : v < 0) : msgInt size v = List.replicate size letterA := by
  rw [msgInt, msgcatD, if_pos negative, List.nil_append]

section Nonnegative

variable {size : Nat} {v : Int} (some : 0 < size) (range : 0 ≤ v ∧ v < 10 ^ size)

include some range

theorem text_short : (Decimal.text v.natAbs).length ≤ size := by
  rw [Decimal.length_text_le_iff some]
  zify
  rw [abs_of_nonneg range.1]
  exact range.2

/-- Digits, with zeros in front. -/
theorem msgInt_digits : msgInt size v =
    List.replicate (size - (Decimal.text v.natAbs).length) Decimal.zero ++ Decimal.text v.natAbs := by
  have short := text_short some range
  have text : Decimal.intText v = Decimal.text v.natAbs := if_neg (Int.not_lt.2 range.1)
  have whole : cstr (Decimal.text v.natAbs) = Decimal.text v.natAbs :=
    cstr_of_clean fun b mem => (digit_ne (Decimal.text_digits _ b mem)).1
  rw [msgInt, msgcatD, if_neg (Int.not_lt.2 range.1), msgcatS, text, strlen, whole, List.nil_append]
  apply List.take_of_length_le
  rw [List.length_append, List.length_replicate]
  omega

theorem msgInt_length : (msgInt size v).length = size := by
  have short := text_short some range
  rw [msgInt_digits some range, List.length_append, List.length_replicate]
  omega

theorem msgGetInt_msgInt (rest : List Byte) : msgGetInt (msgInt size v ++ rest) size = v := by
  have shape := msgInt_digits some range
  have length := msgInt_length some range
  have digits : ∀ b ∈ msgInt size v, Decimal.IsDigit b := by
    intro b mem
    rw [shape] at mem
    rcases List.mem_append.1 mem with zero | digit
    · rw [List.eq_of_mem_replicate zero]
      decide
    · exact Decimal.text_digits _ b digit
  have nonempty : msgInt size v ≠ [] := List.length_pos_iff.1 (by rwa [length])
  have read := msgGetInt_digits nonempty digits rest
  rw [length] at read
  rw [read, shape, Decimal.value_zeros, Decimal.value_text, Int.natAbs_of_nonneg range.1]

end Nonnegative

/-- An integer that is below the limit of its field is read back, whatever stands before and behind. -/
structure ReadBack (size : Nat) (v : Int) : Prop where
  appended : ∀ s, ∃ text, msgcatD s size v = s ++ text ∧ text.length = size ∧
    (v < 0 → text = List.replicate size letterA) ∧
    ∀ rest, msgGetInt (text ++ rest) size = if v < 0 then -1 else v

theorem readBack_of_lt {size : Nat} {v : Int} (some : 0 < size) (range : v < 10 ^ size) : ReadBack size v := by
  refine ⟨fun s => ⟨msgInt size v, msgcatD_eq s size v, ?_⟩⟩
  by_cases negative : v < 0
  · rw [msgInt_negative size negative]
    refine ⟨List.length_replicate, fun _ => rfl, fun rest => ?_⟩
    rw [if_pos negative]
    exact msgGetInt_letters size rest
  · have nonneg : 0 ≤ v ∧ v < 10 ^ size := ⟨Int.not_lt.1 negative, range⟩
    refine ⟨msgInt_length some nonneg, fun less => absurd less negative, fun rest => ?_⟩
    rw [if_neg negative]
    exact msgGetInt_msgInt some nonneg rest

/-- Each integer in the range of a field is read back, and no two look alike. -/
theorem integers_read_back {size : Nat} (sizes : 1 ≤ size ∧ size ≤ 15) :
    (∀ v : Int, v < 10 ^ size → ReadBack size v) ∧
      ∀ v w : Int, 0 ≤ v ∧ v < 10 ^ size → 0 ≤ w ∧ w < 10 ^ size →
        ∀ s, msgcatD s size v = msgcatD s size w → v = w := by
  refine ⟨fun v range => readBack_of_lt sizes.1 range, fun v w left right s same => ?_⟩
  rw [msgcatD_eq, msgcatD_eq] at same
  have text := List.append_cancel_left same
  have readLeft := msgGetInt_msgInt sizes.1 left []
  rw [text] at readLeft
  exact readLeft.symm.trans (msgGetInt_msgInt sizes.1 right [])

theorem integers_read_back_five :
    (∀ v : Int, v < 10 ^ 5 → ReadBack 5 v) ∧
      ∀ v w : Int, 0 ≤ v ∧ v < 10 ^ 5 → 0 ≤ w ∧ w < 10 ^ 5 → ∀ s, msgcatD s 5 v = msgcatD s 5 w → v = w :=
  integers_read_back ⟨by decide, by decide⟩

end Ecu.Command
