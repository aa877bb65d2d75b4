import Ecu.Socket.Recv
import Ecu.Lib.Decimal

/-!
# Receiving a message of the control channel (`mysocket.c`, `remote_control_protocol.c`)

A message starts with `APS`, a version and its length in five characters, where `'A'` stands for a zero.
`recv_socket` reads `sizeof` of a pointer at a time and stops when there are at least as many characters as the
message asks for; `msg_format_check` wants exactly as many.
-/

namespace Ecu.Socket

open Delivery

/-! ## Numbers in a message -/

/-- `int` compared with `size_t`. -/
def unsigned (v : Int) : Nat :=
  (v % 2 ^ 32).toNat

def isSpace (b : Byte) : Bool :=
  b == 0x20 || (0x09 ≤ b && b ≤ 0x0D)

def atoi (s : List Byte) : Int :=
  let digits (s : List Byte) : Int := Decimal.value (s.takeWhile fun b => 0x30 ≤ b && b ≤ 0x39)
  match s.dropWhile isSpace with
  | 0x2D :: rest => -digits rest
  | 0x2B :: rest => digits rest
  | rest => digits rest

def letterA : Byte := 0x41

/-- `'A'` read as `'0'`. -/
def unpadded (field : List Byte) : List Byte :=
  field.map fun b => if b = letterA then digit 0 else b

/-- `msg_get_int`: the characters are those up to a NUL. -/
def msgGetInt (s : List Byte) (len : Nat) : Int :=
  let buffer := (cstr s).take len
  if len ≤ buffer.count letterA then -1 else atoi (unpadded buffer)

def msgLength (msg : List Byte) : Int :=
  msgGetInt (msg.drop 5) 5

/-- `strncmp(a, b, n) == 0` -/
def sameChars (a b : List Byte) (n : Nat) : Prop :=
  (cstr a).take n = (cstr b).take n

instance (a b : List Byte) (n : Nat) : Decidable (sameChars a b n) :=
  inferInstanceAs (Decidable (_ = _))

/-- `msg_format_check`; `ecuId` is `ecu.id`. -/
def msgFormatCheck (ecuId msg : List Byte) : Int :=
  if ¬ sameChars msg (str "APS") 3 then -1
  else if unsigned (msgLength msg) ≠ strlen msg then -1
  else if ¬ sameChars (msg.drop 18) ecuId 12 ∧ msgGetInt (msg.drop 10) 4 ≠ 123 then -1
  else 0

def msgCmdId (msg : List Byte) : Int :=
  let cmdId := msgGetInt (msg.drop 10) 4
  if cmdId = 101 then msgGetInt (msg.drop 30) 4 else cmdId

/-! ## Sending -/

/-- The buffer after `send_socket`: the length field is written, a line end added where there is none, and taken off
again once the message is sent. -/
def sendSocket (sent : Bool) (sendbuffer : List Byte) : List Byte :=
  let text := cstr sendbuffer
  let ended := text.getLast? = some newline
  let msgLength := if ended then text.length - 1 else text.length
  let sendbuffer := if ended then sendbuffer else strcat sendbuffer [newline]
  let sendbuffer := sendbuffer.take 5 ++ Decimal.fixed 5 msgLength ++ sendbuffer.drop 10
  if sent then sendbuffer.set (strlen sendbuffer - 1) nul else sendbuffer

/-! ## The receive loop -/

def msgIsComplete (s : List Byte) : Bool :=
  if strlen s < 10 then false
  else unsigned (atoi (unpadded ((s.drop 5).take 5))) ≤ strlen s

/-- The loop of `recv_socket`, for at most `fuel` rounds: its value and the caller's buffer. -/
def recvLoop (closes : Bool) : Nat → List Byte → List Byte → Nat → List (List Byte) → Option (Int × List Byte)
  | 0, _, _, _, _ => none
  | fuel + 1, recvbuffer, scratch, recvCount, arriving =>
    if arriving = [] ∧ closes = false then some (-1, recvbuffer)
    else
      let out := pull sizeofPointer arriving
      let scratch := recvInto scratch out.1
      let recvbuffer := strcat recvbuffer scratch
      if out.1 = [] then some (-1, recvbuffer)
      else
        let recvCount := recvCount + out.1.length
        if msgIsComplete recvbuffer then some (recvCount, recvbuffer)
        else recvLoop closes fuel recvbuffer scratch recvCount out.2

/-- `recv_socket` on a connection that delivers `arriving`; its callers give `sizeof` of a pointer for the size of
their buffer. -/
def recvSocket (closes : Bool) (recvbuffer : List Byte) (size : Nat) (arriving : List (List Byte)) :
    Option (Int × List Byte) :=
  recvLoop closes (arriving.flatten.length + 1) (memset recvbuffer nul size) (List.replicate 4096 nul) 0 arriving

/-! ## Messages -/

/-- A message of the EMA for this ECU: it has its whole head, and its length is what the head says. -/
structure EmaMessage (ecuId m : List Byte) : Prop where
  clean : Clean m
  head : m.take 3 = str "APS"
  whole : 18 ≤ m.length
  length : atoi (unpadded ((m.drop 5).take 5)) = m.length
  /-- The message of command A123 does not name the ECU. -/
  addressed : (m.drop 18).take 12 = (cstr ecuId).take 12 ∨ msgGetInt (m.drop 10) 4 = 123

/-- The message is in the caller's buffer and passes the check. -/
def Delivers (ecuId : List Byte) (out : Option (Int × List Byte)) (m : List Byte) : Prop :=
  ∃ ret recvbuffer, out = some (ret, recvbuffer) ∧ cstr recvbuffer = m ∧ msgFormatCheck ecuId recvbuffer = 0

/-! ## A buffer and its text -/

theorem cstr_drop {buff : List Byte} {k : Nat} (inside : k ≤ strlen buff) :
    cstr (buff.drop k) = (cstr buff).drop k := by
  obtain ⟨tail, whole, none⟩ := cstr_append_tail buff
  have rest : Clean ((cstr buff).drop k) := fun b mem => clean_cstr buff b (List.mem_of_mem_drop mem)
  conv_lhs => rw [whole]
  rw [List.drop_append_of_le_length inside, rest.cstr_append, none, List.append_nil]

theorem take_of_text {buff : List Byte} {k n : Nat} (inside : k + n ≤ strlen buff) :
    (buff.drop k).take n = ((cstr buff).drop k).take n := by
  obtain ⟨tail, whole, -⟩ := cstr_append_tail buff
  conv_lhs => rw [whole]
  rw [List.drop_append_of_le_length (by rw [← strlen]; omega),
    List.take_append_of_le_length (by rw [List.length_drop, ← strlen]; omega)]

theorem unsigned_of_nat {n : Nat} (small : n < 2 ^ 32) : unsigned (n : Int) = n := by
  unfold unsigned
  omega

theorem value_digits_lt {s : List Byte} {n : Nat} (short : s.length ≤ n) :
    (Decimal.value (s.takeWhile fun b => 0x30 ≤ b && b ≤ 0x39) : Int) < 10 ^ n := by
  have digits : ∀ b ∈ s.takeWhile (fun b => 0x30 ≤ b && b ≤ 0x39), Decimal.IsDigit b := by
    intro b mem
    have := List.mem_takeWhile_imp mem
    simpa [Decimal.IsDigit] using this
  have less := Decimal.value_lt _ digits
  have fewer := Nat.le_trans (List.takeWhile_prefix fun b : Byte => 0x30 ≤ b && b ≤ 0x39).length_le short
  exact_mod_cast Nat.lt_of_lt_of_le less (Nat.pow_le_pow_right (by decide) fewer)

theorem atoi_lt (s : List Byte) {n : Nat} (short : s.length ≤ n) : atoi s < 10 ^ n := by
  have spaces := Nat.le_trans (List.dropWhile_suffix (l := s) isSpace).length_le short
  unfold atoi
  dsimp only
  split
  case h_1 rest same =>
    rw [same, List.length_cons] at spaces
    have := value_digits_lt (s := rest) (Nat.le_of_succ_le spaces)
    omega
  case h_2 rest same =>
    rw [same, List.length_cons] at spaces
    exact value_digits_lt (Nat.le_of_succ_le spaces)
  case h_3 => exact value_digits_lt spaces

/-- A sign takes the place of a digit. -/
theorem neg_lt_atoi_sign (s : List Byte) {n : Nat} (short : s.length ≤ n + 1) : -10 ^ n < atoi s := by
  have spaces := Nat.le_trans (List.dropWhile_suffix (l := s) isSpace).length_le short
  have positive : (0 : Int) < 10 ^ n := pow_pos (by decide) n
  unfold atoi
  dsimp only
  split
  case h_1 rest same =>
    rw [same, List.length_cons] at spaces
    have := value_digits_lt (s := rest) (Nat.le_of_succ_le_succ spaces)
    omega
  all_goals
    refine lt_of_lt_of_le (neg_lt_zero.2 positive) ?_
    exact Int.natCast_nonneg _

theorem neg_lt_atoi (s : List Byte) {n : Nat} (short : s.length ≤ n) : -10 ^ n < atoi s :=
  neg_lt_atoi_sign s (Nat.le_succ_of_le short)

/-! ## The two length tests -/

namespace EmaMessage

variable {ecuId m : List Byte}

theorem small (ema : EmaMessage ecuId m) : m.length < 2 ^ 32 := by
  have bound := atoi_lt (unpadded ((m.drop 5).take 5)) (n := 5) (by simp [unpadded])
  have := ema.length
  omega

theorem unsigned_length (ema : EmaMessage ecuId m) :
    unsigned (atoi (unpadded ((m.drop 5).take 5))) = m.length := by
  rw [ema.length, unsigned_of_nat ema.small]

/-- A beginning of the stream is complete from the end of the message on. -/
theorem complete_iff (ema : EmaMessage ecuId m) {buff stream : List Byte} (text : cstr buff <+: stream)
    (first : m <+: stream) : msgIsComplete buff = true ↔ m.length ≤ strlen buff := by
  have whole := ema.whole
  unfold msgIsComplete
  split_ifs with short
  · constructor
    · intro yes
      cases yes
    · omega
  · have field : (buff.drop 5).take 5 = (m.drop 5).take 5 := by
      have long : 10 ≤ (cstr buff).length := Nat.le_of_not_lt short
      have same : (cstr buff).take 10 = m.take 10 := by
        rw [List.prefix_iff_eq_take.1 (List.take_prefix 10 (cstr buff) |>.trans text),
          List.prefix_iff_eq_take.1 (List.take_prefix 10 m |>.trans first), List.length_take_of_le long,
          List.length_take_of_le (by omega)]
      have cut (l : List Byte) : (l.drop 5).take 5 = (l.take 10).drop 5 := by
        rw [List.drop_take]
      rw [take_of_text (by rw [strlen]; omega), cut, cut, same]
    rw [field, ema.unsigned_length, decide_eq_true_iff]

/-- The message alone passes the check. -/
theorem accepted (ema : EmaMessage ecuId m) {buff : List Byte} (text : cstr buff = m) :
    msgFormatCheck ecuId buff = 0 := by
  have whole := ema.whole
  have length : strlen buff = m.length := by rw [strlen, text]
  have field (k : Nat) (inside : k ≤ 18) : cstr (buff.drop k) = m.drop k := by
    rw [cstr_drop (by omega), text]
  have head : sameChars buff (str "APS") 3 := by
    rw [sameChars, text, ema.head]
    decide
  have number : msgLength buff = m.length := by
    have few : ¬ 5 ≤ ((m.drop 5).take 5).count letterA := by
      intro all
      have letters : ∀ b ∈ (m.drop 5).take 5, b = letterA := by
        have five : ((m.drop 5).take 5).length = 5 := by
          rw [List.length_take, List.length_drop]
          omega
        have all' : ((m.drop 5).take 5).count letterA = ((m.drop 5).take 5).length :=
          Nat.le_antisymm List.count_le_length (Nat.le_trans (Nat.le_of_eq five) all)
        exact fun b mem => (List.count_eq_length.1 all' b mem).symm
      have same : (m.drop 5).take 5 = List.replicate 5 letterA := by
        apply List.eq_replicate_iff.2
        exact ⟨by rw [List.length_take, List.length_drop]; omega, letters⟩
      have zero := ema.length
      rw [same] at zero
      have : atoi (unpadded (List.replicate 5 letterA)) = 0 := by decide
      omega
    rw [msgLength, msgGetInt, field 5 (by decide), if_neg few, ema.length]
  rw [msgFormatCheck, if_neg (not_not.2 head), number, unsigned_of_nat ema.small, length,
    if_neg (not_not.2 rfl), if_neg]
  rintro ⟨other, command⟩
  rcases ema.addressed with mine | a123
  · apply other
    rw [sameChars, field 18 (Nat.le_refl _), mine]
  · apply command
    rw [msgGetInt, field 10 (by decide)]
    rw [msgGetInt, cstr_of_clean fun b mem => ema.clean b (List.mem_of_mem_drop mem)] at a123
    exact a123

end EmaMessage

/-! ## The loop -/

/-- The scratch buffer is never written behind its first four bytes. -/
theorem recvInto_rest {scratch chunk : List Byte} (rest : ∀ i, sizeofPointer ≤ i → scratch.getD i nul = nul)
    (short : chunk.length ≤ sizeofPointer) (i : Nat) (behind : sizeofPointer ≤ i) :
    (recvInto scratch chunk).getD i nul = nul := by
  rw [recvInto_getD, if_neg (by omega), if_neg (by omega), rest i behind]

theorem recvLoop_delivers (closes : Bool) {ecuId m stream : List Byte} (ema : EmaMessage ecuId m)
    (clean : Clean stream) (first : m <+: stream) {fuel : Nat} (recvbuffer : List Byte) {scratch : List Byte}
    (count : Nat) {arriving : List (List Byte)} (proper : Proper arriving) (enough : arriving.flatten.length ≤ fuel)
    (rest : ∀ i, sizeofPointer ≤ i → scratch.getD i nul = nul)
    (text : cstr recvbuffer ++ arriving.flatten = stream) (less : strlen recvbuffer < m.length) :
    ∃ ret buff, recvLoop closes (fuel + 1) recvbuffer scratch count arriving = some (ret, buff) ∧
      (cstr buff = m ↔ EndsAt sizeofPointer (m.length - strlen recvbuffer) arriving) := by
  induction fuel generalizing recvbuffer scratch count arriving with
  | zero =>
    have nothing := List.length_eq_zero_iff.1 (Nat.le_zero.1 enough)
    rw [nothing, List.append_nil] at text
    have := first.length_le
    rw [← text, ← strlen] at this
    omega
  | succ fuel ih =>
    have more : arriving ≠ [] := by
      rintro rfl
      have := first.length_le
      rw [← text, List.flatten_nil, List.append_nil, ← strlen] at this
      omega
    obtain ⟨chunk, left, out⟩ : ∃ chunk left, pull sizeofPointer arriving = (chunk, left) := ⟨_, _, rfl⟩
    have whole := pull_flatten sizeofPointer arriving
    have some := pull_ne_nil (by decide : 0 < sizeofPointer) proper more
    have short := pull_length_le sizeofPointer arriving
    have proper' := proper.pull sizeofPointer
    have ends : EndsAt sizeofPointer (m.length - strlen recvbuffer) arriving ↔ _ :=
      endsAt_pull (by decide) (Nat.sub_pos_of_lt less)
    rw [out] at whole some short proper' ends
    dsimp only at whole some short proper' ends
    have clean' : Clean chunk := by
      intro b mem
      apply clean b
      rw [← text, ← whole]
      exact List.mem_append_right _ (List.mem_append_left _ mem)
    have added : cstr (strcat recvbuffer (recvInto scratch chunk)) = cstr recvbuffer ++ chunk := by
      rw [cstr_strcat, cstr_recvInto_of_le clean']
      rcases Nat.lt_or_eq_of_le short with less | same
      · exact .inl less
      · exact .inr (rest _ (Nat.le_of_eq same.symm))
    have text' : cstr recvbuffer ++ chunk ++ left.flatten = stream := by
      rw [List.append_assoc, whole, text]
    have length : strlen (strcat recvbuffer (recvInto scratch chunk)) = strlen recvbuffer + chunk.length := by
      rw [strlen, added, List.length_append, ← strlen]
    have some' := List.length_pos_iff.2 some
    rw [recvLoop, if_neg (by simp [more]), out]
    dsimp only
    have beginning : cstr (strcat recvbuffer (recvInto scratch chunk)) <+: stream :=
      ⟨left.flatten, added ▸ text'⟩
    have all := ema.complete_iff beginning first
    rw [length] at all
    rw [if_neg some]
    split_ifs with complete
    · have reached := all.1 complete
      refine ⟨_, _, rfl, ?_⟩
      rw [ends, added]
      have lengths : (cstr recvbuffer ++ chunk).length = strlen recvbuffer + chunk.length := List.length_append
      constructor
      · intro same
        have := congrArg List.length same
        omega
      · intro same
        apply (List.prefix_of_prefix_length_le ⟨_, text'⟩ first _).eq_of_length
        · omega
        · omega
    · have short' := mt all.2 complete
      obtain ⟨ret, buff, run, iff'⟩ := ih _ (count + chunk.length) proper' (by
        have := congrArg List.length whole
        rw [List.length_append] at this
        omega) (recvInto_rest rest short) (added ▸ text') (by omega)
      refine ⟨ret, buff, run, ?_⟩
      rw [iff', ends, length, Nat.sub_sub]
      constructor
      · exact fun later => .inr ⟨by omega, later⟩
      · rintro (same | ⟨-, later⟩)
        · omega
        · exact later

/-! ## The function -/

/-- `recv_socket` returns, and the message is in the buffer exactly when a read ends where it does. -/
theorem recvSocket_text (closes : Bool) {ecuId m : List Byte} (ema : EmaMessage ecuId m)
    (recvbuffer : List Byte) {arriving : List (List Byte)} (proper : Proper arriving)
    (clean : Clean arriving.flatten) (first : m <+: arriving.flatten) :
    ∃ ret buff, recvSocket closes recvbuffer sizeofPointer arriving = some (ret, buff) ∧
      (cstr buff = m ↔ EndsAt sizeofPointer m.length arriving) := by
  have cleared : cstr (memset recvbuffer nul sizeofPointer) = [] := rfl
  have scratch (i : Nat) (_ : sizeofPointer ≤ i) : (List.replicate 4096 nul).getD i nul = nul := by
    rw [List.getD_eq_getElem?_getD, List.getElem?_replicate]
    split_ifs <;> rfl
  have whole := ema.whole
  obtain ⟨ret, buff, run, text⟩ := recvLoop_delivers closes ema clean first
    (memset recvbuffer nul sizeofPointer) 0 proper (Nat.le_refl _) scratch
    (by rw [cleared]; rfl) (by rw [strlen, cleared, List.length_nil]; omega)
  rw [strlen, cleared] at text
  exact ⟨ret, buff, run, text⟩

theorem Delivers.ends {closes : Bool} {ecuId m recvbuffer : List Byte} {arriving : List (List Byte)}
    (done : Delivers ecuId (recvSocket closes recvbuffer sizeofPointer arriving) m) (ema : EmaMessage ecuId m)
    (proper : Proper arriving) (clean : Clean arriving.flatten) (first : m <+: arriving.flatten) :
    EndsAt sizeofPointer m.length arriving := by
  obtain ⟨ret, buff, run, text⟩ := recvSocket_text closes ema recvbuffer proper clean first
  obtain ⟨ret', buff', run', same, -⟩ := done
  rw [run] at run'
  cases run'
  exact text.1 same

/-- **What is delivered**: whatever follows the message and however it comes, the message is handed over and accepted
exactly when one of the reads, which are of at most four bytes, ends where the message does. -/
theorem delivered_iff (closes : Bool) {ecuId m : List Byte} (ema : EmaMessage ecuId m)
    (recvbuffer : List Byte) {arriving : List (List Byte)} (proper : Proper arriving)
    (clean : Clean arriving.flatten) (first : m <+: arriving.flatten) :
    Delivers ecuId (recvSocket closes recvbuffer sizeofPointer arriving) m ↔
      EndsAt sizeofPointer m.length arriving := by
  constructor
  · exact fun done => done.ends ema proper clean first
  · intro ends
    obtain ⟨ret, buff, run, text⟩ := recvSocket_text closes ema recvbuffer proper clean first
    exact ⟨ret, buff, run, text.2 ends, ema.accepted (text.2 ends)⟩

/-- A command in two pieces, with nothing behind it. -/
theorem delivered_alone :
    Delivers (str "203000000001")
      (recvSocket false [] sizeofPointer [str "APS1300051A101AAA02030000", str "00001A10100000000000000END"])
      (str "APS1300051A101AAA0203000000001A10100000000000000END") :=
  (delivered_iff false (by constructor <;> decide) [] (by decide) (by decide) (by decide)).2 (by decide)

/-- The same command with a line end in the same segment. -/
theorem delivered_line_end :
    ¬ Delivers (str "203000000001")
      (recvSocket false [] sizeofPointer [str "APS1300051A101AAA0203000000001A10100000000000000END\n"])
      (str "APS1300051A101AAA0203000000001A10100000000000000END") := by
  intro done
  have ends := done.ends (by constructor <;> decide) (by decide) (by decide) (by decide)
  exact absurd ends (by decide)

end Ecu.Socket
