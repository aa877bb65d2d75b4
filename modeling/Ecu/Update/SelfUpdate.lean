import Ecu.Base

/-!
# The ECU updates itself (`flash_if.c`, `remoteUpdate.c`)

The image that was downloaded is copied to the flash behind the running program word by word, and a flag makes the boot
loader take it. The copy writes a word before it looks at what was read of it, takes an error of the read for data and
ends well when the flash is full; the update deletes the image without looking at its result. So an image is applied
safely only where it fills the flash to the last word (`update_safe_iff`).
-/

namespace Ecu.Update

/-! ## The copy -/

/-- What `FLASH_ProgramWord` and the comparison behind it find. -/
inductive Programmed where
  | complete
  | differs
  | failed
deriving DecidableEq

/-- What the file system and the flash do: whether the file is opened, how many bytes the reads return at most, `none`
for -1, and what becomes of the words. -/
structure Setting where
  opened : Bool
  reads : Nat → Option Nat
  programs : Nat → Programmed

/-- `fileRead` of four bytes: the count as an unsigned number, `filedata` and what is left of the file. -/
def fileRead (atMost : Option Nat) (filedata rest : List Byte) : Nat × List Byte × List Byte :=
  match atMost with
  | none => (2 ^ 32 - 1, filedata, rest)
  | some n =>
    let data := rest.take (min n 4)
    (data.length, memcpy filedata data, rest.drop data.length)

/-- The words from 0x08080000 to 0x080FFFFF. -/
def app2Words : Nat := 0x20000

theorem app2Words_addresses (i : Nat) : 0x08080000 + 4 * i < 0x080FFFFF ↔ i < app2Words := by
  unfold app2Words
  omega

/-- What the loop leaves: the bytes programmed, what was not read of the file, whether a read failed, and the result
that it returns with. -/
structure Copied where
  app2 : List Byte
  rest : List Byte
  readFailed : Bool
  ret : Nat

/-- The loop of `FLASH_IF_FILE_COPY_TO_APP2`, with so many words before the end of the flash. -/
def copyWords (s : Setting) : Nat → Nat → List Byte → List Byte → Copied
  | 0, _, _, rest => ⟨[], rest, false, 0⟩
  | words + 1, i, filedata, rest =>
    let read := fileRead (s.reads i) filedata rest
    let readFailed := s.reads i = none
    match s.programs i with
    | .complete =>
      if read.1 < 4 then ⟨read.2.1, read.2.2, readFailed, 0⟩
      else
        let later := copyWords s words (i + 1) read.2.1 read.2.2
        ⟨read.2.1 ++ later.app2, later.rest, readFailed || later.readFailed, later.ret⟩
    | .differs => ⟨[], read.2.2, readFailed, 2⟩
    | .failed => ⟨[], read.2.2, readFailed, 1⟩

structure Copy extends Copied where
  /-- The boot flag at 0x08004000. -/
  flag : Bool

/-- `FLASH_IF_FILE_COPY_TO_APP2`; `filedata` is what the stack holds. -/
def flashIfFileCopyToApp2 (s : Setting) (filedata file : List Byte) : Copy :=
  if s.opened then
    let copied := copyWords s app2Words 0 filedata file
    ⟨copied, copied.ret = 0⟩
  else ⟨⟨[], file, false, 666⟩, false⟩

/-- The update: its copy, and whether the image and the one on the server are deleted behind it. -/
structure Updated where
  copy : Copy
  unlinked : Bool
  deleted : Bool

/-- `updateECUByVersion` with the image downloaded. -/
def updateECUByVersion (s : Setting) (filedata file : List Byte) : Updated where
  copy := flashIfFileCopyToApp2 s filedata file
  unlinked := true
  deleted := false

/-- `updateECUByID` with the image downloaded. -/
def updateECUByID (s : Setting) (filedata file : List Byte) : Updated where
  copy := flashIfFileCopyToApp2 s filedata file
  unlinked := true
  deleted := true

/-! ## What it is for -/

/-- The whole file is in the flash, with so much behind it, and is booted. -/
structure Applied (u : Updated) (file pad : List Byte) : Prop where
  flag : u.copy.flag = true
  ret : u.copy.ret = 0
  read : u.copy.rest = [] ∧ u.copy.readFailed = false
  fits : file.length ≤ 4 * app2Words
  words : u.copy.app2 = file ++ pad

/-- Nothing is booted and the image is still there. -/
structure Refused (u : Updated) : Prop where
  flag : u.copy.flag = false
  ret : u.copy.ret ≠ 0
  image : u.unlinked = false ∧ u.deleted = false

/-- Every file of the length is applied, with bytes behind it that depend neither on the file nor on the stack, or
refused. -/
def Safe (s : Setting) (length : Nat) : Prop :=
  ∃ pad, ∀ filedata file : List Byte, filedata.length = 4 → file.length = length →
    ∀ update ∈ [updateECUByVersion, updateECUByID],
      Applied (update s filedata file) file pad ∨ Refused (update s filedata file)

/-! ## The loop -/

/-- The word is read whole and programmed. -/
structure WordDone (s : Setting) (i : Nat) : Prop where
  read : ∃ n, s.reads i = some n ∧ 4 ≤ n
  programmed : s.programs i = .complete

section Loop

variable {s : Setting}

theorem fileRead_some {n : Nat} {filedata rest : List Byte} :
    fileRead (some n) filedata rest =
      (min (min n 4) rest.length, memcpy filedata (rest.take (min n 4)), rest.drop (min (min n 4) rest.length)) := by
  simp only [fileRead, List.length_take]

theorem memcpy_length {filedata data : List Byte} (short : data.length ≤ filedata.length) :
    (memcpy filedata data).length = filedata.length := by
  rw [memcpy, List.length_append, List.length_drop]
  omega

theorem fileRead_length (atMost : Option Nat) {filedata : List Byte} (word : filedata.length = 4) (rest : List Byte) :
    (fileRead atMost filedata rest).2.1.length = 4 := by
  cases atMost with
  | none => exact word
  | some n =>
    rw [fileRead_some, memcpy_length]
    · exact word
    · rw [List.length_take]
      omega

/-- Whole words to the end of the flash. -/
theorem copyWords_whole {words i : Nat} {filedata rest : List Byte} (word : filedata.length = 4)
    (done : ∀ j < words, WordDone s (i + j)) (fills : rest.length = 4 * words) :
    copyWords s words i filedata rest = ⟨rest, [], false, 0⟩ := by
  induction words generalizing i filedata rest with
  | zero =>
    have none : rest = [] := List.length_eq_zero_iff.1 (by omega)
    rw [none, copyWords]
  | succ words ih =>
    obtain ⟨⟨n, read, whole⟩, programmed⟩ := done 0 (Nat.succ_pos words)
    rw [Nat.add_zero] at read programmed
    have four : min (min n 4) rest.length = 4 := by omega
    have width : min n 4 = 4 := by omega
    have front : memcpy filedata (rest.take 4) = rest.take 4 := by
      rw [memcpy, List.drop_eq_nil_of_le, List.append_nil]
      rw [List.length_take]
      omega
    have later : copyWords s words (i + 1) (rest.take 4) (rest.drop 4) = ⟨rest.drop 4, [], false, 0⟩ := by
      apply ih
      · rw [List.length_take]
        omega
      · intro j less
        have next := done (j + 1) (Nat.succ_lt_succ less)
        rwa [Nat.add_comm j 1, ← Nat.add_assoc] at next
      · rw [List.length_drop]
        omega
    rw [copyWords, programmed, read, fileRead_some, four, width, front]
    simp [later]

/-- A loop that ends well, with no more bytes than the file has, has read and programmed every word of the flash. -/
theorem done_of_copyWords {words i : Nat} {filedata rest : List Byte} (word : filedata.length = 4)
    (ret : (copyWords s words i filedata rest).ret = 0)
    (read : (copyWords s words i filedata rest).rest = [] ∧ (copyWords s words i filedata rest).readFailed = false)
    (same : (copyWords s words i filedata rest).app2.length = rest.length) :
    rest.length = 4 * words ∧ ∀ j < words, WordDone s (i + j) := by
  induction words generalizing i filedata rest with
  | zero =>
    have none : rest = [] := read.1
    exact ⟨by simp [none], fun j less => absurd less (Nat.not_lt_zero j)⟩
  | succ words ih =>
    have width := fileRead_length (s.reads i) word rest
    rw [copyWords] at ret read same
    cases programmed : s.programs i with
    | differs =>
      rw [programmed] at ret
      cases ret
    | failed =>
      rw [programmed] at ret
      cases ret
    | complete =>
      rw [programmed] at ret read same
      dsimp only at ret read same
      by_cases short : (fileRead (s.reads i) filedata rest).1 < 4
      · -- the last word is longer than what was read of it
        rw [if_pos short] at read same
        obtain ⟨none, noError⟩ := read
        cases reads : s.reads i with
        | none =>
          rw [reads] at noError
          cases noError
        | some n =>
          rw [reads, fileRead_some] at short none same width
          dsimp only at short none same width
          have all := List.drop_eq_nil_iff.1 none
          omega
      · rw [if_neg short] at ret read same
        obtain ⟨none, noError⟩ := read
        cases reads : s.reads i with
        | none =>
          rw [reads] at noError
          cases noError
        | some n =>
          rw [reads] at ret none noError same short width
          rw [Bool.or_eq_false_iff] at noError
          rw [List.length_append, width] at same
          rw [fileRead_some] at ret none noError same short width
          dsimp only at ret none noError same short width
          have four : min (min n 4) rest.length = 4 := by omega
          rw [four] at ret none noError same
          have fewer : (rest.drop 4).length = rest.length - 4 := List.length_drop
          obtain ⟨fills, done⟩ := ih width ret ⟨none, noError.2⟩ (by omega)
          refine ⟨by omega, fun j less => ?_⟩
          cases j with
          | zero => exact ⟨⟨n, reads, by omega⟩, programmed⟩
          | succ j =>
            have next := done j (Nat.lt_of_succ_lt_succ less)
            rwa [Nat.add_assoc, Nat.add_comm 1 j] at next

/-- Of a file of one byte nothing else is programmed. -/
theorem copyWords_const {v : Byte} {words i : Nat} {filedata rest : List Byte} (stack : ∀ b ∈ filedata, b = v)
    (file : ∀ b ∈ rest, b = v) : ∀ b ∈ (copyWords s words i filedata rest).app2, b = v := by
  induction words generalizing i filedata rest with
  | zero => exact fun b mem => absurd mem List.not_mem_nil
  | succ words ih =>
    have read : (∀ b ∈ (fileRead (s.reads i) filedata rest).2.1, b = v) ∧
        ∀ b ∈ (fileRead (s.reads i) filedata rest).2.2, b = v := by
      cases s.reads i with
      | none => exact ⟨stack, file⟩
      | some n =>
        rw [fileRead_some]
        constructor
        · intro b mem
          rcases List.mem_append.1 mem with mem | mem
          · exact file b (List.mem_of_mem_take mem)
          · exact stack b (List.mem_of_mem_drop mem)
        · exact fun b mem => file b (List.mem_of_mem_drop mem)
    rw [copyWords]
    cases s.programs i with
    | differs => exact fun b mem => absurd mem List.not_mem_nil
    | failed => exact fun b mem => absurd mem List.not_mem_nil
    | complete =>
      dsimp only
      split_ifs
      · exact read.1
      · intro b mem
        rcases List.mem_append.1 mem with mem | mem
        · exact read.1 b mem
        · exact ih read.1 read.2 b mem

end Loop

/-! ## The update -/

/-- An update is safe exactly for a file as long as the flash that is opened, read in whole words and programmed. -/
theorem update_safe_iff (s : Setting) (length : Nat) :
    Safe s length ↔ s.opened = true ∧ length = 4 * app2Words ∧ ∀ i < app2Words, WordDone s i := by
  constructor
  · rintro ⟨pad, safe⟩
    have applied (filedata file : List Byte) (word : filedata.length = 4) (same : file.length = length) :
        Applied (updateECUByVersion s filedata file) file pad := by
      rcases safe filedata file word same updateECUByVersion List.mem_cons_self with applied | refused
      · exact applied
      · exact absurd refused.image.1 (by simp [updateECUByVersion])
    -- a file of zeros and one of ones
    have behind (v : Byte) : ∀ b ∈ pad, b = v := by
      have whole := applied (List.replicate 4 v) (List.replicate length v) List.length_replicate List.length_replicate
      have words := whole.words
      intro b mem
      have inFlash : b ∈ (updateECUByVersion s (List.replicate 4 v) (List.replicate length v)).copy.app2 := by
        rw [words]
        exact List.mem_append_right _ mem
      rw [updateECUByVersion, flashIfFileCopyToApp2] at inFlash
      split_ifs at inFlash
      · exact copyWords_const (fun b mem => List.eq_of_mem_replicate mem) (fun b mem => List.eq_of_mem_replicate mem) b
          inFlash
      · exact absurd inFlash List.not_mem_nil
    have none : pad = [] := by
      apply List.eq_nil_iff_forall_not_mem.2
      intro b mem
      have zero := behind 0 b mem
      have one := behind 1 b mem
      rw [zero] at one
      exact absurd one (by decide)
    have whole := applied (List.replicate 4 nul) (List.replicate length nul) List.length_replicate List.length_replicate
    have opened : s.opened = true := by
      by_contra closed
      have flag := whole.flag
      rw [updateECUByVersion, flashIfFileCopyToApp2, if_neg closed] at flag
      cases flag
    have ret := whole.ret
    have read := whole.read
    have words := congrArg List.length whole.words
    rw [none, List.append_nil] at words
    rw [updateECUByVersion, flashIfFileCopyToApp2, if_pos opened] at ret read words
    obtain ⟨fills, done⟩ := done_of_copyWords List.length_replicate ret read words
    rw [List.length_replicate] at fills
    exact ⟨opened, fills, fun i less => by simpa using done i less⟩
  · rintro ⟨opened, fills, done⟩
    refine ⟨[], fun filedata file word same update mem => .inl ?_⟩
    have copied : copyWords s app2Words 0 filedata file = ⟨file, [], false, 0⟩ := by
      apply copyWords_whole word
      · intro j less
        rw [Nat.zero_add]
        exact done j less
      · rw [same, fills]
    have copy : flashIfFileCopyToApp2 s filedata file = ⟨⟨file, [], false, 0⟩, true⟩ := by
      rw [flashIfFileCopyToApp2, if_pos opened, copied]
      rfl
    have own : (update s filedata file).copy = ⟨⟨file, [], false, 0⟩, true⟩ := by
      rcases List.mem_cons.1 mem with rfl | mem
      · exact copy
      · rw [List.mem_singleton.1 mem]
        exact copy
    constructor
    · rw [own]
    · rw [own]
    · rw [own]
      exact ⟨rfl, rfl⟩
    · exact (same.trans fills).le
    · rw [own]
      exact (List.append_nil file).symm

/-- An image of eight bytes, all read and programmed: the flash behind it gets its last word again, and it is booted. -/
theorem last_word_again : ¬ Safe ⟨true, fun _ => some 4, fun _ => .complete⟩ 8 := by
  rintro ⟨pad, safe⟩
  have booted (v : Byte) : (flashIfFileCopyToApp2 ⟨true, fun _ => some 4, fun _ => .complete⟩ [0, 0, 0, 0]
      (List.replicate 8 v)).app2 = List.replicate 12 v := rfl
  have behind (v : Byte) : pad = List.replicate 4 v := by
    rcases safe [0, 0, 0, 0] (List.replicate 8 v) rfl List.length_replicate updateECUByVersion List.mem_cons_self with
      applied | refused
    · have words := applied.words
      rw [updateECUByVersion, booted] at words
      exact (List.append_cancel_left (words.symm.trans rfl : List.replicate 8 v ++ pad = List.replicate 8 v ++ _))
    · exact absurd refused.image.1 (by simp [updateECUByVersion])
  exact absurd ((behind 0).symm.trans (behind 1)) (by decide)

end Ecu.Update
