import Ecu.Forward.Wire

/-!
# Where a receive loop and an answer reach

`recv_socket` is told the size of a pointer, not that of the caller's buffer, and goes on until the message has the
length that it says. The times in an answer to A123 are taken by their number in the answer, whatever its length.
`Safe` says that an exchange stays in its buffers.
-/

namespace Ecu.Forward

open Socket Delivery

/-! ## The buffers -/

/-- The callers of `recv_socket`. -/
inductive Caller where
  | communicationWithEMA | checkInverterAbnormalStatusSent | responseInverterAbnormalStatus
deriving DecidableEq

def Caller.bufferSize : Caller → Nat
  | communicationWithEMA => 2048
  | checkInverterAbnormalStatusSent => 2048
  | responseInverterAbnormalStatus => 4096

/-- `datetime` -/
def datetimeSize : Nat := 15

/-- `command` -/
def commandSize : Nat := 4096

/-! ## An answer to A123 -/

/-- The places that `strncpy` reads. -/
def strncpyReads (buff : List Byte) (start n : Nat) : List Nat :=
  List.range' start (min n (strlen (buff.drop start) + 1))

/-- The places of the buffer that are read, and of the destinations that are written. -/
structure Accesses where
  reads : List Nat
  datetime : List Nat
  command : List Nat

/-- What a caller does with an answer: its flag, the number of times and the times. -/
def timesAccesses (recvBuffer : List Byte) : Accesses where
  reads := strncpyReads recvBuffer 18 1 ++
    (if msgGetInt (recvBuffer.drop 18) 1 = 0 then []
    else strncpyReads recvBuffer 19 2 ++
      (List.range (ackCount recvBuffer).toNat).flatMap fun j => strncpyReads recvBuffer (21 + j * 14) 14)
  datetime := (List.range (ackCount recvBuffer).toNat).flatMap fun _ => List.range 14
  command := []

/-- The command that is attached. -/
def commandAccesses (recvBuffer : List Byte) : Accesses :=
  let start := unsigned (24 + 14 * ackCount recvBuffer)
  if start < strlen recvBuffer then
    let n := strlen recvBuffer - start
    ⟨strncpyReads recvBuffer start n, [], List.range n ++ [n]⟩
  else ⟨[], [], []⟩

def answerAccesses (recvBuffer : List Byte) : Caller → List Accesses
  | .communicationWithEMA => []
  | .checkInverterAbnormalStatusSent => [timesAccesses recvBuffer]
  | .responseInverterAbnormalStatus => [timesAccesses recvBuffer, commandAccesses recvBuffer]

/-- Only the message and the NUL behind it are read, and only the destinations are written. -/
structure Accesses.Inside (accesses : Accesses) (recvBuffer : List Byte) : Prop where
  reads : ∀ i ∈ accesses.reads, i ≤ strlen recvBuffer
  datetime : ∀ i ∈ accesses.datetime, i < datetimeSize
  command : ∀ i ∈ accesses.command, i < commandSize

/-- A call of `recv_socket` ends in its buffer, and what is made of a reply that is accepted stays inside. -/
def Safe (caller : Caller) (ecuId : List Byte) (closes : Bool) (recvbuffer : List Byte) (arriving : List (List Byte)) :
    Prop :=
  ∃ ret buff, recvSocket closes recvbuffer sizeofPointer arriving = some (ret, buff) ∧
    buff.length ≤ caller.bufferSize ∧
    (0 < ret → msgFormatCheck ecuId buff = 0 → ∀ accesses ∈ answerAccesses buff caller, accesses.Inside buff)

/-! ## When it does -/

/-- The text after some reads. -/
def textAfter : Nat → List (List Byte) → List Byte
  | 0, _ => []
  | k + 1, arriving =>
    let out := pull sizeofPointer arriving
    if out.1 = [] then [] else cstr out.1 ++ textAfter k out.2

/-- Where the text is too long for a buffer, a read before has ended with a whole message. -/
def InTime (size : Nat) (arriving : List (List Byte)) : Prop :=
  ∀ k, size ≤ (textAfter k arriving).length → ∃ j < k, msgIsComplete (textAfter j arriving)

/-- The answer has its head, and its last time begins in it. -/
def Covers (caller : Caller) (recvBuffer : List Byte) : Prop :=
  caller = .communicationWithEMA ∨ 18 ≤ strlen recvBuffer ∧
    (0 < ackCount recvBuffer → 7 + 14 * ackCount recvBuffer ≤ strlen recvBuffer)

/-! ## The receive loop -/

theorem length_strcat (dst src : List Byte) :
    (strcat dst src).length = max dst.length (strlen dst + strlen src + 1) := by
  have inside : strlen dst ≤ dst.length := (List.takeWhile_prefix _).length_le
  rw [strcat, List.length_append, List.length_append, List.length_cons, List.length_drop]
  change strlen dst + strlen src + _ = _
  omega

theorem cstr_recvInto {scratch chunk : List Byte} (short : chunk.length ≤ sizeofPointer)
    (rest : ∀ i, sizeofPointer ≤ i → scratch.getD i nul = nul) : cstr (recvInto scratch chunk) = cstr chunk := by
  by_cases clean : Clean chunk
  · rw [cstr_of_clean clean]
    refine cstr_recvInto_of_le clean ?_
    rcases Nat.lt_or_eq_of_le short with less | same
    · exact .inl less
    · exact .inr (rest _ (Nat.le_of_eq same.symm))
  · rw [recvInto, memcpy, cstr, cstr, List.takeWhile_append]
    rw [if_neg]
    intro whole
    refine clean fun b mem => ?_
    have all := (List.takeWhile_prefix (· != nul)).eq_of_length whole
    simpa using List.takeWhile_eq_self_iff.1 all b mem

/-- Only the text of a buffer decides. -/
theorem msgIsComplete_cstr (buff : List Byte) : msgIsComplete (cstr buff) = msgIsComplete buff := by
  have same : strlen (cstr buff) = strlen buff := strlen_of_clean (clean_cstr buff)
  rw [msgIsComplete, msgIsComplete, same]
  split_ifs with short
  · rfl
  · have field : ((cstr buff).drop 5).take 5 = (buff.drop 5).take 5 := (take_of_text (by omega)).symm
    rw [field]

theorem flatten_pull {arriving : List (List Byte)} (some : (pull sizeofPointer arriving).1 ≠ []) :
    (pull sizeofPointer arriving).2.flatten.length < arriving.flatten.length := by
  have whole := congrArg List.length (pull_flatten sizeofPointer arriving)
  have positive := List.length_pos_iff.2 some
  rw [List.length_append] at whole
  omega

theorem strlen_strcat_lt (dst src : List Byte) : strlen (strcat dst src) < (strcat dst src).length := by
  rw [strlen_strcat, length_strcat]
  omega

/-- The loop ends, and a buffer that has grown does not shrink again. -/
theorem recvLoop_ends (closes : Bool) {fuel : Nat} (recvbuffer scratch : List Byte) (count : Nat)
    {arriving : List (List Byte)} (enough : arriving.flatten.length < fuel)
      (ended : strlen recvbuffer < recvbuffer.length) :
    ∃ ret buff, recvLoop closes fuel recvbuffer scratch count arriving = some (ret, buff) ∧
      recvbuffer.length ≤ buff.length ∧ strlen buff < buff.length := by
  induction fuel generalizing recvbuffer scratch count arriving with
  | zero => exact absurd enough (Nat.not_lt_zero _)
  | succ fuel ih =>
    have grows : recvbuffer.length ≤ (strcat recvbuffer (recvInto scratch (pull sizeofPointer arriving).1)).length := by
      rw [length_strcat]
      exact Nat.le_max_left _ _
    rw [recvLoop]
    dsimp only
    split_ifs with silent closed complete
    · exact ⟨_, _, rfl, Nat.le_refl _, ended⟩
    · exact ⟨_, _, rfl, grows, strlen_strcat_lt _ _⟩
    · exact ⟨_, _, rfl, grows, strlen_strcat_lt _ _⟩
    · obtain ⟨ret, buff, run, longer, last⟩ := ih (strcat recvbuffer (recvInto scratch (pull sizeofPointer arriving).1))
        (recvInto scratch (pull sizeofPointer arriving).1) (count + (pull sizeofPointer arriving).1.length)
        (Nat.lt_of_lt_of_le (flatten_pull closed) (Nat.le_of_lt_succ enough)) (strlen_strcat_lt _ _)
      exact ⟨ret, buff, run, grows.trans longer, last⟩

/-- `InTime` behind the text that is there. -/
def InTimeFrom (size : Nat) (text : List Byte) (arriving : List (List Byte)) : Prop :=
  ∀ k, size ≤ (text ++ textAfter k arriving).length →
    ∃ j < k, 0 < j ∧ msgIsComplete (text ++ textAfter j arriving)

section Step

variable {size : Nat} {text : List Byte} {arriving : List (List Byte)}

theorem inTimeFrom_closed (closed : (pull sizeofPointer arriving).1 = []) (less : text.length < size) :
    InTimeFrom size text arriving := by
  intro k long
  have none : textAfter k arriving = [] := by
    cases k with
    | zero => rfl
    | succ k => rw [textAfter, if_pos closed]
  rw [none, List.append_nil] at long
  omega

theorem textAfter_succ (some : (pull sizeofPointer arriving).1 ≠ []) (k : Nat) :
    text ++ textAfter (k + 1) arriving =
      text ++ cstr (pull sizeofPointer arriving).1 ++ textAfter k (pull sizeofPointer arriving).2 := by
  rw [textAfter, if_neg some, List.append_assoc]

theorem inTimeFrom_complete (some : (pull sizeofPointer arriving).1 ≠ []) (less : text.length < size)
    (complete : msgIsComplete (text ++ cstr (pull sizeofPointer arriving).1)) :
    InTimeFrom size text arriving ↔ (text ++ cstr (pull sizeofPointer arriving).1).length < size := by
  have one : text ++ textAfter 1 arriving = text ++ cstr (pull sizeofPointer arriving).1 := by
    rw [textAfter_succ some, textAfter, List.append_nil]
  constructor
  · intro inTime
    by_contra long
    obtain ⟨j, small, positive, -⟩ := inTime 1 (by rw [one]; omega)
    omega
  · intro short k long
    match k with
    | 0 =>
      rw [textAfter, List.append_nil] at long
      omega
    | 1 =>
      rw [one] at long
      omega
    | k + 2 => exact ⟨1, by omega, Nat.one_pos, one ▸ complete⟩

theorem inTimeFrom_next (some : (pull sizeofPointer arriving).1 ≠ []) (less : text.length < size)
    (more : ¬ msgIsComplete (text ++ cstr (pull sizeofPointer arriving).1)) :
    InTimeFrom size text arriving ↔ (text ++ cstr (pull sizeofPointer arriving).1).length < size ∧
      InTimeFrom size (text ++ cstr (pull sizeofPointer arriving).1) (pull sizeofPointer arriving).2 := by
  have one : text ++ textAfter 1 arriving = text ++ cstr (pull sizeofPointer arriving).1 := by
    rw [textAfter_succ some, textAfter, List.append_nil]
  constructor
  · intro inTime
    constructor
    · by_contra long
      obtain ⟨j, small, positive, -⟩ := inTime 1 (by rw [one]; omega)
      omega
    · intro k long
      obtain ⟨j, small, positive, complete⟩ := inTime (k + 1) (by rwa [textAfter_succ some])
      obtain ⟨i, rfl⟩ := Nat.exists_eq_succ_of_ne_zero (Nat.ne_of_gt positive)
      refine ⟨i, by omega, Nat.pos_of_ne_zero ?_, textAfter_succ some i ▸ complete⟩
      rintro rfl
      exact more (one ▸ complete)
  · rintro ⟨short, later⟩ k long
    match k with
    | 0 =>
      rw [textAfter, List.append_nil] at long
      omega
    | k + 1 =>
      rw [textAfter_succ some] at long
      obtain ⟨j, small, -, complete⟩ := later k long
      exact ⟨j + 1, by omega, Nat.succ_pos j, textAfter_succ some j ▸ complete⟩

end Step

/-- The loop stays in the buffer if and only if the text is in time. -/
theorem recvLoop_inside_iff (closes : Bool) {fuel : Nat} (recvbuffer : List Byte) {scratch : List Byte} (count : Nat)
    {arriving : List (List Byte)} (enough : arriving.flatten.length < fuel)
    (rest : ∀ i, sizeofPointer ≤ i → scratch.getD i nul = nul)
      (ended : strlen recvbuffer < recvbuffer.length) {ret : Int}
    {buff : List Byte} (run : recvLoop closes fuel recvbuffer scratch count arriving = some (ret, buff)) :
    buff.length ≤ recvbuffer.length ↔ InTimeFrom recvbuffer.length (cstr recvbuffer) arriving := by
  induction fuel generalizing recvbuffer scratch count arriving with
  | zero => exact absurd enough (Nat.not_lt_zero _)
  | succ fuel ih =>
    have short := pull_length_le sizeofPointer arriving
    have text : cstr (strcat recvbuffer (recvInto scratch (pull sizeofPointer arriving).1)) =
        cstr recvbuffer ++ cstr (pull sizeofPointer arriving).1 := by
      rw [cstr_strcat, cstr_recvInto short rest]
    have length : (strcat recvbuffer (recvInto scratch (pull sizeofPointer arriving).1)).length =
        max recvbuffer.length ((cstr recvbuffer ++ cstr (pull sizeofPointer arriving).1).length + 1) := by
      rw [length_strcat, strlen, strlen, cstr_recvInto short rest, List.length_append]
    have fits : (strcat recvbuffer (recvInto scratch (pull sizeofPointer arriving).1)).length ≤ recvbuffer.length ↔
        (cstr recvbuffer ++ cstr (pull sizeofPointer arriving).1).length < recvbuffer.length := by
      rw [length]
      omega
    rw [recvLoop] at run
    dsimp only at run
    split_ifs at run with silent closed complete
    · obtain ⟨-, rfl⟩ := Prod.mk.inj (Option.some.inj run)
      have nothing : (pull sizeofPointer arriving).1 = [] := by
        rw [silent.1]
        rfl
      exact iff_of_true (Nat.le_refl _) (inTimeFrom_closed nothing ended)
    · obtain ⟨-, rfl⟩ := Prod.mk.inj (Option.some.inj run)
      refine iff_of_true (fits.2 ?_) (inTimeFrom_closed closed ended)
      rw [closed]
      exact (List.append_nil _).symm ▸ ended
    · obtain ⟨-, rfl⟩ := Prod.mk.inj (Option.some.inj run)
      rw [← msgIsComplete_cstr, text] at complete
      rw [inTimeFrom_complete closed ended complete]
      exact fits
    · rw [← msgIsComplete_cstr, text] at complete
      rw [inTimeFrom_next closed ended complete]
      have enough' := Nat.lt_of_lt_of_le (flatten_pull closed) (Nat.le_of_lt_succ enough)
      by_cases inside : (cstr recvbuffer ++ cstr (pull sizeofPointer arriving).1).length < recvbuffer.length
      · have same : (strcat recvbuffer (recvInto scratch (pull sizeofPointer arriving).1)).length =
          recvbuffer.length := by
          rw [length]
          omega
        have later := ih _ _ enough' (recvInto_rest rest short) (strlen_strcat_lt _ _) run
        rw [same, text] at later
        rw [later]
        exact (and_iff_right inside).symm
      · obtain ⟨ret', buff', run', longer, -⟩ := recvLoop_ends closes _ _ _ enough' (strlen_strcat_lt recvbuffer _)
        rw [run] at run'
        obtain ⟨-, rfl⟩ := Prod.mk.inj (Option.some.inj run')
        refine iff_of_false ?_ fun all => inside all.1
        rw [length] at longer
        omega

/-! ## The answer -/

theorem strncpyReads_inside {buff : List Byte} {start n : Nat} (some : 0 < n) :
    (∀ i ∈ strncpyReads buff start n, i ≤ strlen buff) ↔ start ≤ strlen buff := by
  constructor
  · intro inside
    refine inside start (List.mem_range'_1.2 ⟨Nat.le_refl _, ?_⟩)
    omega
  · intro begins i mem
    have left : strlen (buff.drop start) = strlen buff - start := by
      rw [strlen, cstr_drop begins, List.length_drop, strlen]
    have bounds := List.mem_range'_1.1 mem
    omega

theorem strncpyReads_flatMap {buff : List Byte} {num : Nat} :
    (∀ i ∈ (List.range num).flatMap fun j => strncpyReads buff (21 + j * 14) 14, i ≤ strlen buff) ↔
      (0 < num → 7 + 14 * num ≤ strlen buff) := by
  constructor
  · intro inside positive
    have last : 21 + (num - 1) * 14 ≤ strlen buff := (strncpyReads_inside (by decide : 0 < 14)).1 fun i mem =>
      inside i (List.mem_flatMap.2 ⟨num - 1, List.mem_range.2 (by omega), mem⟩)
    omega
  · intro room i mem
    obtain ⟨j, small, mem⟩ := List.mem_flatMap.1 mem
    have below := List.mem_range.1 small
    have all := room (by omega)
    exact (strncpyReads_inside (by decide)).2 (by omega) i mem

/-- Where the flag is not zero there is one. -/
theorem flag_inside {buff : List Byte} (flag : msgGetInt (buff.drop 18) 1 ≠ 0) (head : 18 ≤ strlen buff) :
    19 ≤ strlen buff := by
  by_contra short
  have none : cstr (buff.drop 18) = [] := by
    rw [cstr_drop head]
    exact List.drop_eq_nil_of_le (by rw [← strlen]; omega)
  rw [msgGetInt, none] at flag
  exact flag rfl

theorem timesAccesses_inside_iff (buff : List Byte) : (timesAccesses buff).Inside buff ↔
    18 ≤ strlen buff ∧ (0 < ackCount buff → 7 + 14 * ackCount buff ≤ strlen buff) := by
  have datetime : ∀ i ∈ (timesAccesses buff).datetime, i < datetimeSize := by
    intro i mem
    obtain ⟨j, -, mem⟩ := List.mem_flatMap.1 mem
    exact (List.mem_range.1 mem).trans (by decide)
  have only : (timesAccesses buff).Inside buff ↔ ∀ i ∈ (timesAccesses buff).reads, i ≤ strlen buff :=
    ⟨fun inside => inside.reads, fun reads => ⟨reads, datetime, fun i mem => absurd mem List.not_mem_nil⟩⟩
  have head : (∀ i ∈ strncpyReads buff 18 1, i ≤ strlen buff) ↔ 18 ≤ strlen buff := strncpyReads_inside (by decide)
  rw [only, timesAccesses]
  dsimp only
  rw [List.forall_mem_append, head]
  refine and_congr_right fun whole => ?_
  split_ifs with flag
  · rw [ackCount, if_pos flag]
    exact iff_of_true (fun i mem => absurd mem List.not_mem_nil) fun positive => absurd positive (by decide)
  · have second := (strncpyReads_inside (by decide : 0 < 2)).2 (flag_inside flag whole)
    rw [List.forall_mem_append, and_iff_right second, strncpyReads_flatMap]
    omega

theorem commandAccesses_inside {buff : List Byte} (small : strlen buff < commandSize) :
    (commandAccesses buff).Inside buff := by
  rw [commandAccesses]
  dsimp only
  split_ifs with attached
  · refine ⟨(strncpyReads_inside (by omega)).2 (by omega), fun i mem => absurd mem List.not_mem_nil, ?_⟩
    intro i mem
    rcases List.mem_append.1 mem with inside | last
    · have below := List.mem_range.1 inside
      omega
    · have same := List.mem_singleton.1 last
      omega
  · exact ⟨fun i mem => absurd mem List.not_mem_nil, fun i mem => absurd mem List.not_mem_nil,
      fun i mem => absurd mem List.not_mem_nil⟩

theorem answerAccesses_inside_iff {caller : Caller} {buff : List Byte} (small : strlen buff < commandSize) :
    (∀ accesses ∈ answerAccesses buff caller, accesses.Inside buff) ↔ Covers caller buff := by
  cases caller with
  | communicationWithEMA => exact iff_of_true (fun _ mem => absurd mem List.not_mem_nil) (.inl rfl)
  | checkInverterAbnormalStatusSent =>
    rw [answerAccesses, List.forall_mem_singleton, timesAccesses_inside_iff]
    exact ⟨.inr, fun covers => covers.resolve_left (by decide)⟩
  | responseInverterAbnormalStatus =>
    rw [answerAccesses, List.forall_mem_cons, List.forall_mem_singleton, timesAccesses_inside_iff,
      and_iff_left (commandAccesses_inside small)]
    exact ⟨.inr, fun covers => covers.resolve_left (by decide)⟩

/-! ## The exchange -/

theorem inTime_iff {size : Nat} {arriving : List (List Byte)} : InTime size arriving ↔ InTimeFrom size [] arriving := by
  have never : ¬ msgIsComplete [] := by decide
  constructor
  · intro inTime k long
    obtain ⟨j, small, complete⟩ := inTime k long
    refine ⟨j, small, Nat.pos_of_ne_zero ?_, complete⟩
    rintro rfl
    exact never complete
  · intro inTime k long
    obtain ⟨j, small, -, complete⟩ := inTime k long
    exact ⟨j, small, complete⟩

/-- A clean stream that comes in one segment is read four characters at a time. -/
theorem textAfter_stream (k : Nat) {stream : List Byte} (clean : Clean stream) :
    textAfter k [stream] = stream.take (4 * k) := by
  induction k generalizing stream with
  | zero => rfl
  | succ k ih =>
    have nothing : textAfter k [] = [] := by
      cases k <;> rfl
    have four : 4 * (k + 1) = 4 + 4 * k := by omega
    rw [textAfter, pull]
    by_cases short : stream.length ≤ sizeofPointer
    · rw [if_pos short]
      dsimp only
      rw [nothing, List.append_nil, cstr_of_clean clean, ite_eq_right_iff.2 Eq.symm, List.take_of_length_le]
      exact Nat.le_trans short (by rw [four]; exact Nat.le_add_right 4 _)
    · rw [if_neg short]
      dsimp only
      have first : stream.take sizeofPointer ≠ [] := by
        rw [Ne, List.take_eq_nil_iff]
        rintro (zero | none)
        · exact absurd zero (by decide)
        · exact short (none ▸ Nat.zero_le _)
      rw [if_neg first, cstr_of_clean fun b mem => clean b (List.mem_of_mem_take mem),
        ih fun b mem => clean b (List.mem_of_mem_drop mem), four, List.take_add]
      rfl

section Exchange

variable {caller : Caller} {recvbuffer : List Byte} (size : recvbuffer.length = caller.bufferSize)

include size

/-- The call returns, and it stays in the buffer if and only if the stream is in time. -/
theorem recvSocket_inside_iff (closes : Bool) (arriving : List (List Byte)) :
    ∃ ret buff, recvSocket closes recvbuffer sizeofPointer arriving = some (ret, buff) ∧ strlen buff < buff.length ∧
      (buff.length ≤ caller.bufferSize ↔ InTime caller.bufferSize arriving) := by
  have four : 4 ≤ recvbuffer.length := by
    rw [size]
    cases caller <;> decide
  have length : (memset recvbuffer nul sizeofPointer).length = caller.bufferSize := by
    rw [memset, memcpy, List.length_append, List.length_replicate, List.length_drop, sizeofPointer]
    omega
  have text : cstr (memset recvbuffer nul sizeofPointer) = [] := rfl
  have ended : strlen (memset recvbuffer nul sizeofPointer) < (memset recvbuffer nul sizeofPointer).length := by
    rw [strlen, text, length, List.length_nil]
    cases caller <;> decide
  have rest (i : Nat) (_ : sizeofPointer ≤ i) : (List.replicate 4096 nul).getD i nul = nul := by
    rw [List.getD_eq_getElem?_getD, List.getElem?_replicate]
    split_ifs <;> rfl
  obtain ⟨ret, buff, run, -, terminated⟩ := recvLoop_ends closes (memset recvbuffer nul sizeofPointer)
    (List.replicate 4096 nul) 0 (Nat.lt_succ_self arriving.flatten.length) ended
  have inside := recvLoop_inside_iff closes _ 0 (Nat.lt_succ_self arriving.flatten.length) rest ended run
  rw [length, text, ← inTime_iff] at inside
  exact ⟨ret, buff, run, terminated, inside⟩

theorem Safe.inTime {ecuId : List Byte} {closes : Bool} {arriving : List (List Byte)}
    (safe : Safe caller ecuId closes recvbuffer arriving) : InTime caller.bufferSize arriving := by
  obtain ⟨ret, buff, run, -, inside⟩ := recvSocket_inside_iff size closes arriving
  obtain ⟨ret', buff', run', fits, -⟩ := safe
  rw [run] at run'
  obtain ⟨rfl, rfl⟩ := Prod.mk.inj (Option.some.inj run')
  exact inside.1 fits

/-- **Bounds of an exchange**: it stays in its buffers if and only if no read ends with as many
characters as the buffer has before one has ended with a whole message, and a reply that is accepted
has its head and reaches to its last time. -/
theorem safe_iff (ecuId : List Byte) (closes : Bool) (arriving : List (List Byte)) :
    Safe caller ecuId closes recvbuffer arriving ↔ InTime caller.bufferSize arriving ∧
      ∀ ret buff, recvSocket closes recvbuffer sizeofPointer arriving = some (ret, buff) → 0 < ret →
        msgFormatCheck ecuId buff = 0 → Covers caller buff := by
  obtain ⟨ret, buff, run, terminated, inside⟩ := recvSocket_inside_iff size closes arriving
  have answers (fits : buff.length ≤ caller.bufferSize) :
      (∀ accesses ∈ answerAccesses buff caller, accesses.Inside buff) ↔ Covers caller buff := by
    refine answerAccesses_inside_iff ?_
    have most : caller.bufferSize ≤ commandSize := by cases caller <;> decide
    omega
  constructor
  · intro safe
    have inTime := safe.inTime size
    obtain ⟨ret', buff', run', fits, reads⟩ := safe
    rw [run] at run'
    obtain ⟨rfl, rfl⟩ := Prod.mk.inj (Option.some.inj run')
    refine ⟨inTime, fun ret' buff' run' positive accepted => ?_⟩
    rw [run] at run'
    obtain ⟨rfl, rfl⟩ := Prod.mk.inj (Option.some.inj run')
    exact (answers fits).1 (reads positive accepted)
  · rintro ⟨inTime, covers⟩
    have fits := inside.2 inTime
    exact ⟨ret, buff, run, fits, fun positive accepted => (answers fits).2 (covers ret buff run positive accepted)⟩

end Exchange

/-- An answer that announces 99 times and has none. -/
def emptyAnswer : List Byte :=
  str "APS13AAA21A123AAA0199"

theorem safe_sample : Safe .responseInverterAbnormalStatus (str "203000000001") false (List.replicate 4096 nul)
    [emptyAnswer] ↔
    InTime 4096 [emptyAnswer] ∧ ∀ ret buff,
      recvSocket false (List.replicate 4096 nul) sizeofPointer [emptyAnswer] = some (ret, buff) → 0 < ret →
        msgFormatCheck (str "203000000001") buff = 0 → Covers .responseInverterAbnormalStatus buff :=
  safe_iff List.length_replicate (str "203000000001") false [emptyAnswer]

def longHead : List Byte :=
  [0x41, 0x50, 0x53, 0x31, 0x33, 0x39, 0x39, 0x39, 0x39, 0x39]

/-- A message that announces more than the buffer holds. -/
def longMessage : List Byte :=
  longHead ++ List.replicate 2038 letterA

/-- No read of it ends with a whole message. -/
theorem longMessage_late : ¬ InTime 2048 [longMessage] := by
  have clean : Clean longMessage := by
    have heads : Clean longHead := by decide
    refine heads.append fun b mem => ?_
    rw [List.eq_of_mem_replicate mem]
    decide
  have length : longMessage.length = 2048 := by
    rw [longMessage, List.length_append, List.length_replicate]
    rfl
  intro inTime
  obtain ⟨j, small, complete⟩ := inTime 512 (by rw [textAfter_stream 512 clean, List.length_take, length]; decide)
  rw [textAfter_stream j clean, msgIsComplete] at complete
  have whole : strlen (longMessage.take (4 * j)) = 4 * j := by
    rw [strlen_of_clean fun b mem => clean b (List.mem_of_mem_take mem), List.length_take, length]
    omega
  rw [whole] at complete
  split_ifs at complete with short
  have field : ((longMessage.take (4 * j)).drop 5).take 5 = [0x39, 0x39, 0x39, 0x39, 0x39] := by
    obtain ⟨n, more⟩ := Nat.exists_eq_add_of_le (Nat.le_of_not_lt short)
    have split : 4 * j = longHead.length + n := more
    rw [longMessage, split, List.take_length_add_append]
    rfl
  have announces : unsigned (atoi (unpadded [0x39, 0x39, 0x39, 0x39, 0x39])) = 99999 := by decide
  rw [field, announces] at complete
  have reached := of_decide_eq_true complete
  omega

/-- The buffer of `communication_with_EMA` does not hold it. -/
theorem long_message_overruns : ¬ ∀ (caller : Caller) (ecuId : List Byte) (closes : Bool) (recvbuffer : List Byte),
    recvbuffer.length = caller.bufferSize → ∀ arriving : List (List Byte),
      Safe caller ecuId closes recvbuffer arriving := by
  intro claim
  have safe := claim .communicationWithEMA [] false (List.replicate 2048 nul) List.length_replicate [longMessage]
  exact longMessage_late (safe.inTime List.length_replicate)

end Ecu.Forward
