import Mathlib

/-!
# Bytes, C strings and the size constants

`char` is unsigned on the target, so a buffer is a list of bytes. A C string ends at its first
NUL; `memcpy` overwrites a prefix of its destination and grows the list when it runs past the
end, which makes an overflow visible as a change of length. The constants are those of
`variation.h` under their own names.
-/

namespace Ecu

abbrev Byte := UInt8

/-- The bytes of an ASCII literal. -/
def str (s : String) : List Byte :=
  s.toList.map Char.toUInt8

def nul : Byte := 0x00
def newline : Byte := 0x0A
def comma : Byte := 0x2C

/-- The decimal digit `d` as a character. -/
def digit (d : Nat) : Byte := UInt8.ofNat (0x30 + d)

/-- The part of a buffer before its first NUL. -/
def cstr (buff : List Byte) : List Byte :=
  buff.takeWhile (· != nul)

def strlen (buff : List Byte) : Nat :=
  (cstr buff).length

def memcpy (dst src : List Byte) : List Byte :=
  src ++ dst.drop src.length

def memset (dst : List Byte) (c : Byte) (n : Nat) : List Byte :=
  memcpy dst (List.replicate n c)

/-! ## `variation.h` -/

def maxInverterCount : Nat := 120
def recordLength : Nat := 150
def recordTail : Nat := 100
def clientRecordHead : Nat := 20
def clientRecordEcuHead : Nat := 78
def clientRecordInverterLength : Nat := 104
def clientRecordOther : Nat := 100

/-- The buffer `protocol_APS18` builds its record in. -/
def recordBuffer : Nat := maxInverterCount * recordLength + recordTail

/-- The line buffer of every reader of the record queues. -/
def lineBuffer : Nat := maxInverterCount * recordLength + recordTail + 18

/-- The `data` buffer of `client_thread_entry` and `resend_record`. -/
def dataBuffer : Nat :=
  clientRecordHead + clientRecordEcuHead + clientRecordInverterLength * maxInverterCount +
    clientRecordOther

instance : LawfulBEq (List Byte) :=
  inferInstance

/-- A text: bytes that neither end a C string nor a line. -/
def IsText (bytes : List Byte) : Prop :=
  ∀ b ∈ bytes, b ≠ nul ∧ b ≠ newline

instance (bytes : List Byte) : Decidable (IsText bytes) :=
  List.decidableBAll _ bytes

theorem IsText.append {a b : List Byte} (left : IsText a) (right : IsText b) : IsText (a ++ b) := by
  intro x mem
  rcases List.mem_append.1 mem with mem | mem
  · exact left x mem
  · exact right x mem

/-- A literal as its characters, which evaluates at once. -/
theorem str_ofList (chars : List Char) : str (String.ofList chars) = chars.map Char.toUInt8 := by
  rw [str, String.toList_ofList]

theorem cstr_of_clean {bytes : List Byte} (clean : ∀ b ∈ bytes, b ≠ nul) : cstr bytes = bytes := by
  apply List.takeWhile_eq_self_iff.2
  intro b mem
  simpa using clean b mem

theorem strlen_of_clean {bytes : List Byte} (clean : ∀ b ∈ bytes, b ≠ nul) :
    strlen bytes = bytes.length := by
  rw [strlen, cstr_of_clean clean]

end Ecu
