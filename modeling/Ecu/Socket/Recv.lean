import Ecu.Base
import Ecu.Lib.Delivery

/-!
# The scratch buffer of a receive loop

Both receive loops read into a scratch buffer, append its text to the caller's buffer and start over. Before each
read they clear `sizeof` of the pointer to the scratch buffer, which is four bytes: what an earlier read left
behind these stays. A read is a segment that `recv` returns, see `Delivery`.
-/

namespace Ecu

/-- The size of a pointer on the target. -/
def sizeofPointer : Nat := 4

def strcat (dst src : List Byte) : List Byte :=
  cstr dst ++ cstr src ++ nul :: dst.drop (strlen dst + strlen src + 1)

/-- `memset(buff, '\0', sizeof(buff))`, then `recv`. -/
def recvInto (buff chunk : List Byte) : List Byte :=
  memcpy (memset buff nul sizeofPointer) chunk

/-- Bytes of a C string. -/
def Clean (bytes : List Byte) : Prop :=
  ∀ b ∈ bytes, b ≠ nul

instance (bytes : List Byte) : Decidable (Clean bytes) :=
  List.decidableBAll _ bytes

theorem Clean.append {a b : List Byte} (left : Clean a) (right : Clean b) : Clean (a ++ b) := by
  intro x mem
  rcases List.mem_append.1 mem with mem | mem
  · exact left x mem
  · exact right x mem

theorem clean_cstr (buff : List Byte) : Clean (cstr buff) := by
  intro b mem
  have := List.mem_takeWhile_imp mem
  simpa using this

theorem Clean.cstr_append {text : List Byte} (clean : Clean text) (rest : List Byte) :
    cstr (text ++ rest) = text ++ cstr rest := by
  apply List.takeWhile_append_of_pos
  intro b mem
  simpa using clean b mem

@[simp] theorem cstr_nul (rest : List Byte) : cstr (nul :: rest) = [] := rfl

/-- Nothing of a string is left out of its buffer. -/
theorem cstr_append_tail (buff : List Byte) : ∃ tail, buff = cstr buff ++ tail ∧ cstr tail = [] := by
  refine ⟨buff.dropWhile (· != nul), List.takeWhile_append_dropWhile.symm, ?_⟩
  cases stop : buff.dropWhile (· != nul) with
  | nil => rfl
  | cons b rest =>
    have := List.head_dropWhile_not (· != nul) (by simp [stop] : buff.dropWhile (· != nul) ≠ [])
    simp only [stop, List.head_cons, bne_eq_false_iff_eq] at this
    rw [this]
    rfl

theorem cstr_strcat (dst src : List Byte) : cstr (strcat dst src) = cstr dst ++ cstr src := by
  rw [strcat, ((clean_cstr dst).append (clean_cstr src)).cstr_append, cstr_nul, List.append_nil]

theorem strlen_strcat (dst src : List Byte) : strlen (strcat dst src) = strlen dst + strlen src := by
  rw [strlen, cstr_strcat, List.length_append, strlen, strlen]

/-! ## What is in the scratch buffer -/

theorem recvInto_getD (buff chunk : List Byte) (i : Nat) :
    (recvInto buff chunk).getD i nul =
      if i < chunk.length then chunk.getD i nul else if i < sizeofPointer then nul else buff.getD i nul := by
  rw [recvInto, memset, memcpy, memcpy, List.length_replicate]
  split_ifs with first cleared
  · rw [List.getD_append _ _ _ _ first]
  · rw [List.getD_append_right _ _ _ _ (Nat.le_of_not_lt first), List.getD_eq_getElem?_getD,
      List.getElem?_drop, Nat.add_sub_cancel' (Nat.le_of_not_lt first),
      List.getElem?_append_left (by simpa using cleared), List.getElem?_replicate, if_pos cleared]
    rfl
  · rw [List.getD_append_right _ _ _ _ (Nat.le_of_not_lt first), List.getD_eq_getElem?_getD,
      List.getElem?_drop, Nat.add_sub_cancel' (Nat.le_of_not_lt first),
      List.getElem?_append_right (by simpa using cleared), List.length_replicate, List.getElem?_drop,
      Nat.add_sub_cancel' (Nat.le_of_not_lt cleared), List.getD_eq_getElem?_getD]

/-- The string in a buffer that starts with `chunk`. -/
theorem cstr_of_chunk (buff : List Byte) {chunk : List Byte} (clean : Clean chunk) :
    ∃ stale, cstr (recvInto buff chunk) = chunk ++ stale ∧
      (stale = [] ↔ (recvInto buff chunk).getD chunk.length nul = nul) := by
  refine ⟨cstr ((memset buff nul sizeofPointer).drop chunk.length), clean.cstr_append _, ?_⟩
  rw [recvInto, memcpy, List.getD_append_right _ _ _ _ (Nat.le_refl _), Nat.sub_self]
  cases (memset buff nul sizeofPointer).drop chunk.length with
  | nil => simp [cstr]
  | cons b rest =>
    by_cases stop : b = nul
    · simp [cstr, stop]
    · simp [cstr, stop]

/-- A read of fewer than four bytes never meets an older one. -/
theorem cstr_recvInto_of_le {buff chunk : List Byte} (clean : Clean chunk)
    (free : chunk.length < sizeofPointer ∨ buff.getD chunk.length nul = nul) :
    cstr (recvInto buff chunk) = chunk := by
  obtain ⟨stale, text, none⟩ := cstr_of_chunk buff clean
  rw [text, none.2, List.append_nil]
  rw [recvInto_getD, if_neg (Nat.lt_irrefl _)]
  split_ifs with cleared
  · rfl
  · exact free.resolve_left cleared

end Ecu
