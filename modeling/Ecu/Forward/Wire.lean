import Ecu.Forward.Invariant
import Ecu.Socket.Control

/-!
# What goes out on the wire

The loops that send the queues use one `data` buffer for all their records. A search clears four bytes of it, copies
the payload of the record over what is there and puts a line end behind it, but no NUL; the loops clear the buffer
at the end of a round, except where they `continue` or `break`. What a round leaves behind is followed here:
the next message is the payload of its record alone exactly when it covers what was left (`Fits`).
-/

namespace Ecu.Forward

open Socket

/-! ## The data buffer -/

/-- What becomes of the buffer after a message was handed over. -/
inductive Leaves where
  /-- `memset` over the whole buffer. -/
  | cleared
  /-- `send_socket` was successful and took the line end off. -/
  | sent
  /-- The length field is written, the line end is still there. -/
  | unsent
  | untouched
deriving DecidableEq, Repr

def Leaves.apply : Leaves → List Byte → List Byte
  | cleared, data => data.map fun _ => nul
  | sent, data => sendSocket true data
  | unsent, data => sendSocket false data
  | untouched, data => data

/-- How far the buffer is filled after a payload of `n` bytes, when it was filled up to `left` before. -/
def Leaves.after (left n : Nat) : Leaves → Nat
  | cleared => 0
  | sent => n
  | unsent => n + 1
  | untouched => max left (n + 1)

/-- One search that found a record. -/
structure Turn where
  dir : Dir
  payload : List Byte
  /-- The message is handed to the socket. -/
  handed : Bool
  leaves : Leaves

/-- A message handed to the socket, and the directory that its record was found in. -/
structure Handed where
  dir : Dir
  message : List Byte

/-- The messages of successive turns. -/
def handOver : List Byte → List Turn → List Handed
  | _, [] => []
  | data, t :: turns =>
    let data := recvInto data (t.payload ++ [newline])
    let later := handOver (t.leaves.apply data) turns
    if t.handed then ⟨t.dir, cstr data⟩ :: later else later

/-- The message is the payload of a stored record with a line end. -/
def Handed.Exact (q : Queue) (h : Handed) : Prop :=
  ∃ s : Store q, h.dir = s.render ∧ ∃ r ∈ s.records, h.message = r.payload ++ [newline]

/-- Each payload that is handed over reaches at least to the byte before the end of what an earlier turn left. -/
def Fits : Nat → List Turn → Prop
  | _, [] => True
  | left, t :: turns =>
    (t.handed = true → left ≤ t.payload.length + 1) ∧ Fits (t.leaves.after left t.payload.length) turns

instance Fits.decidable : (left : Nat) → (turns : List Turn) → Decidable (Fits left turns)
  | _, [] => .isTrue trivial
  | left, t :: turns =>
    have := Fits.decidable (t.leaves.after left t.payload.length) turns
    inferInstanceAs (Decidable (_ ∧ _))

/-! ## How far the buffer is filled -/

/-- Behind the four bytes that a search clears, the buffer is filled up to `n`. -/
def Filled (data : List Byte) (n : Nat) : Prop :=
  ∀ i, sizeofPointer ≤ i → (data.getD i nul ≠ nul ↔ i < n)

/-- A payload that starts with the head of a message. -/
structure Headed (payload : List Byte) : Prop where
  text : IsText payload
  long : 10 ≤ payload.length

theorem Headed.clean {payload : List Byte} (headed : Headed payload) : Clean (payload ++ [newline]) := by
  intro b mem
  rcases List.mem_append.1 mem with mem | mem
  · exact (headed.text b mem).1
  · rw [List.mem_singleton.1 mem]
    decide

theorem filled_replicate (n : Nat) : Filled (List.replicate n nul) 0 := by
  intro i _
  have : (List.replicate n nul).getD i nul = nul := by
    rw [List.getD_eq_getElem?_getD, List.getElem?_replicate]
    split_ifs <;> rfl
  simp only [this, ne_eq, not_true_eq_false, Nat.not_lt_zero]

theorem filled_clear (data : List Byte) : Filled (data.map fun _ => nul) 0 := by
  rw [List.map_const']
  exact filled_replicate _

/-- What a search leaves in the buffer. -/
theorem Filled.found {data payload : List Byte} {n : Nat} (filled : Filled data n) (headed : Headed payload) :
    Filled (recvInto data (payload ++ [newline])) (max n (payload.length + 1)) := by
  intro i behind
  rw [recvInto_getD, if_neg (Nat.not_lt.2 behind), List.length_append, List.length_singleton]
  split_ifs with inside
  · have : (payload ++ [newline]).getD i nul ≠ nul := by
      rw [List.getD_eq_getElem _ _ (by simpa using inside)]
      exact headed.clean _ (List.getElem_mem _)
    exact iff_of_true this (by omega)
  · rw [filled i behind]
    omega

/-- The message of a turn: the payload, its line end, and what it does not cover. -/
theorem Filled.message {data payload : List Byte} {n : Nat} (filled : Filled data n) (headed : Headed payload) :
    ∃ stale, cstr (recvInto data (payload ++ [newline])) = payload ++ newline :: stale ∧
      (stale = [] ↔ n ≤ payload.length + 1) := by
  have long := headed.long
  obtain ⟨stale, text, none⟩ := cstr_of_chunk data headed.clean
  refine ⟨stale, by simpa using text, ?_⟩
  have behind : sizeofPointer ≤ (payload ++ [newline]).length := by
    rw [List.length_append]
    unfold sizeofPointer
    omega
  rw [none, recvInto_getD, if_neg (Nat.lt_irrefl _), if_neg (Nat.not_lt.2 behind), ← not_iff_not,
    ← ne_eq, filled _ behind, List.length_append, List.length_singleton, Nat.not_le]

theorem filled_append {x tail : List Byte} (clean : Clean x) (long : sizeofPointer ≤ x.length) :
    Filled (x ++ tail) x.length ↔ ∀ j, tail.getD j nul = nul := by
  constructor
  · intro filled j
    have behind := filled (x.length + j) (Nat.le_trans long (Nat.le_add_right _ _))
    rw [List.getD_append_right _ _ _ _ (Nat.le_add_right _ _), Nat.add_sub_cancel_left] at behind
    by_contra other
    exact absurd (behind.1 other) (by omega)
  · intro none i _
    by_cases inside : i < x.length
    · rw [List.getD_append _ _ _ _ inside, List.getD_eq_getElem _ _ inside]
      exact iff_of_true (clean _ (List.getElem_mem inside)) inside
    · rw [List.getD_append_right _ _ _ _ (Nat.le_of_not_lt inside), none]
      exact iff_of_false (fun other => other rfl) inside

theorem fixed_clean (w : Nat) (v : Int) : Clean (Decimal.fixed w v) := by
  intro b mem same
  rcases Decimal.fixed_chars w v b mem with digit | minus
  · rw [same] at digit
    exact absurd digit (by decide)
  · rw [same] at minus
    exact absurd minus (by decide)

/-- `send_socket` on a message: the length field changes, and the line end when it was sent. -/
theorem sendSocket_message {data payload : List Byte} (text : cstr data = payload ++ [newline])
    (headed : Headed payload) :
    ∃ other tail, other.length = payload.length ∧ Clean other ∧ data = payload ++ [newline] ++ tail ∧
      sendSocket false data = other ++ [newline] ++ tail ∧ sendSocket true data = other ++ nul :: tail := by
  have long := headed.long
  obtain ⟨tail, whole, none⟩ := cstr_append_tail data
  rw [text] at whole
  let other := payload.take 5 ++ Decimal.fixed 5 payload.length ++ payload.drop 10
  have length : other.length = payload.length := by
    simp only [other, List.length_append, List.length_take, List.length_drop, Decimal.fixed_length]
    omega
  have clean : Clean other := by
    refine Clean.append (Clean.append ?_ (fixed_clean _ _)) ?_
    · exact fun b mem => (headed.text b (List.mem_of_mem_take mem)).1
    · exact fun b mem => (headed.text b (List.mem_of_mem_drop mem)).1
  have ended : (cstr data).getLast? = some newline := by
    rw [text]
    exact List.getLast?_concat
  have count : (cstr data).length - 1 = payload.length := by
    rw [text, List.length_append, List.length_singleton, Nat.add_sub_cancel]
  have written : data.take 5 ++ Decimal.fixed 5 payload.length ++ data.drop 10 = other ++ [newline] ++ tail := by
    rw [whole, List.append_assoc payload, List.take_append_of_le_length (by omega),
      List.drop_append_of_le_length long]
    simp [other]
  have strings : strlen (other ++ [newline] ++ tail) = payload.length + 1 := by
    have all : Clean (other ++ [newline]) := clean.append (by decide)
    rw [strlen, all.cstr_append, none, List.append_nil, List.length_append, length, List.length_singleton]
  refine ⟨other, tail, length, clean, whole, ?_, ?_⟩
  · rw [sendSocket]
    simp only [ended, if_true, count, written]
    rfl
  · rw [sendSocket]
    simp only [ended, if_true, count, written, strings, Nat.add_sub_cancel]
    rw [List.append_assoc, ← length, List.set_append_right _ _ (Nat.le_refl _), Nat.sub_self]
    rfl

/-- What a turn leaves when its message was handed over alone. -/
theorem Filled.leaves {data payload : List Byte} {n : Nat} (filled : Filled data n) (headed : Headed payload)
    (covers : n ≤ payload.length + 1) (leaves : Leaves) :
    Filled (leaves.apply (recvInto data (payload ++ [newline]))) (leaves.after n payload.length) := by
  have long := headed.long
  have found := filled.found headed
  obtain ⟨stale, text, none⟩ := filled.message headed
  rw [none.2 covers] at text
  obtain ⟨other, tail, length, clean, whole, unsent, sent⟩ := sendSocket_message text headed
  have four : sizeofPointer ≤ payload.length := by
    unfold sizeofPointer
    omega
  have empty : ∀ j, tail.getD j nul = nul := by
    rw [Nat.max_eq_right covers, whole] at found
    have ends : (payload ++ [newline]).length = payload.length + 1 := by simp
    rw [← ends] at found
    exact (filled_append headed.clean (by omega)).1 found
  cases leaves with
  | cleared => exact filled_clear _
  | untouched => exact found
  | unsent =>
    have ends : (other ++ [newline]).length = payload.length + 1 := by simp [length]
    show Filled (sendSocket false _) (payload.length + 1)
    rw [unsent, ← ends]
    exact (filled_append (clean.append (by decide)) (by omega)).2 empty
  | sent =>
    show Filled (sendSocket true _) payload.length
    rw [sent, ← length]
    apply (filled_append clean (by omega)).2
    intro j
    cases j with
    | zero => rfl
    | succ j => exact empty j

/-! ## The messages of all turns -/

/-- A turn that finds a record of the queue. Without a message the buffer stays as it is. -/
structure Turn.Finds (q : Queue) (t : Turn) : Prop where
  headed : Headed t.payload
  stored : ∃ s : Store q, t.dir = s.render ∧ ∃ r ∈ s.records, t.payload = r.payload
  silent : t.handed = false → t.leaves = .untouched

theorem exact_message {q : Queue} {dir : Dir} {payload stale : List Byte} (headed : Headed payload)
    (exact : Handed.Exact q ⟨dir, payload ++ newline :: stale⟩) : stale = [] := by
  obtain ⟨-, -, r, -, same⟩ := exact
  have text (bytes : List Byte) (isText : IsText bytes) (rest : List Byte) :
      (bytes ++ newline :: rest).takeWhile (· != newline) = bytes := by
    rw [List.takeWhile_append_of_pos fun b mem => by simpa using (isText b mem).2]
    simp
  have first := congrArg (List.takeWhile (· != newline)) same
  dsimp only at first
  rw [text _ headed.text, text _ r.payloadText []] at first
  rw [first] at same
  simpa using List.append_cancel_left same

/-- **The messages are exact when the payloads fit**, and one is not otherwise. -/
theorem handOver_exact_iff {q : Queue} {turns : List Turn} (finds : ∀ t ∈ turns, t.Finds q) {data : List Byte} {n : Nat}
    (filled : Filled data n) : (∀ h ∈ handOver data turns, h.Exact q) ↔ Fits n turns := by
  induction turns generalizing data n with
  | nil => exact iff_of_true (fun _ mem => nomatch mem) trivial
  | cons t turns ih =>
    obtain ⟨headed, ⟨s, dir, r, stored, payload⟩, silent⟩ := finds t List.mem_cons_self
    have finds' : ∀ t ∈ turns, t.Finds q := fun t' mem => finds t' (List.mem_cons_of_mem t mem)
    obtain ⟨stale, text, none⟩ := filled.message headed
    rw [handOver, Fits]
    cases shown : t.handed with
    | false =>
      rw [silent shown]
      constructor
      · exact fun exact => ⟨nofun, (ih finds' (filled.found headed)).1 exact⟩
      · exact fun fits => (ih finds' (filled.found headed)).2 fits.2
    | true =>
      rw [if_pos rfl, List.forall_mem_cons, text]
      constructor
      · rintro ⟨exact, later⟩
        have covers := none.1 (exact_message headed exact)
        exact ⟨fun _ => covers, (ih finds' (filled.leaves headed covers t.leaves)).1 later⟩
      · rintro ⟨covers, later⟩
        have covers := covers rfl
        refine ⟨⟨s, dir, r, stored, ?_⟩, (ih finds' (filled.leaves headed covers t.leaves)).2 later⟩
        rw [none.2 covers, payload]

/-! ## Reporting the inverter status (`control_client.c`) -/

/-- What happens after a status was handed to `send_socket` or `SendToSocketC`. -/
inductive Exchange where
  | sendFails
  /-- No answer comes. -/
  | receiveFails
  | answers (recvBuffer : List Byte)
deriving DecidableEq, Repr

/-- The rest of a round: the directory, what becomes of `data`, and whether the loop goes on. -/
structure RoundEnd where
  dir : Dir
  leaves : Leaves
  goesOn : Bool

def strncpy (s : List Byte) (n : Nat) : List Byte :=
  (cstr s).take n ++ List.replicate (n - strlen s) nul

/-- The number of times in an answer. -/
def ackCount (recvBuffer : List Byte) : Int :=
  if msgGetInt (recvBuffer.drop 18) 1 = 0 then 0 else msgGetInt (recvBuffer.drop 19) 2

/-- The directory once an answer is taken: the status sent is marked, the listed ones are confirmed. -/
def acknowledge (d : Dir) (time recvBuffer : List Byte) : Dir :=
  (List.range (ackCount recvBuffer).toNat).foldl
    (fun d j => (changeStatusflag d (strncpy (recvBuffer.drop (21 + j * 14)) 14) (digit 0)).2)
    (changeStatusflag d time (digit 2)).2

/-- The command behind the answer, if there is one. -/
def attachedCommand (recvBuffer : List Byte) : Option (List Byte) :=
  let start := unsigned (24 + 14 * ackCount recvBuffer)
  if start < strlen recvBuffer then some ((recvBuffer.drop start).take (strlen recvBuffer - start)) else none

/-- A round after the search. Commands other than A118 are
carried out and do not touch `data` or the status. -/
def finishRound (wired : Bool) (ecuId : List Byte) (d : Dir) (time : List Byte) : Exchange → RoundEnd
  | .sendFails => ⟨d, .unsent, wired⟩
  | .receiveFails => ⟨d, if wired then .sent else .unsent, false⟩
  | .answers recvBuffer =>
    let left : Leaves := if wired then .sent else .unsent
    if msgFormatCheck ecuId recvBuffer < 0 then ⟨d, left, true⟩
    else
      let d := acknowledge d time recvBuffer
      match attachedCommand recvBuffer with
      | none => ⟨d, .cleared, true⟩
      | some command =>
        if msgFormatCheck ecuId command < 0 then ⟨d, left, true⟩
        else if msgCmdId command = 118 then ⟨d, left, false⟩
        else ⟨d, .cleared, true⟩

/-- The loop of `response_inverter_abnormal_status` and the messages it hands over, for the exchanges given; `wired`
tells the branch with the socket from the one with the WiFi module. -/
def statusLoop (wired : Bool) (ecuId : List Byte) : List Exchange → Dir → List Byte → List Byte → List Handed
  | [], _, _, _ => []
  | x :: exchanges, d, data, time =>
    let out := searchStatusflag d data time (digit 1)
    if out.ret = 0 then []
    else
      let time := out.keys.getD 0 []
      let round := finishRound wired ecuId d time x
      ⟨d, cstr out.data⟩ ::
        if round.goesOn then statusLoop wired ecuId exchanges round.dir (round.leaves.apply out.data) time else []

def responseInverterAbnormalStatus (wired : Bool) (ecuId : List Byte) (exchanges : List Exchange) (d : Dir) :
    List Handed :=
  statusLoop wired ecuId exchanges d (List.replicate recordBuffer nul) (List.replicate 15 nul)

/-! ## The loop of the client (`client_thread_entry`) -/

/-- A search of the client: what it finds in the directory, whether 300 s have passed, and the answer otherwise.
Between two searches other threads save records, and the loop may have paused. -/
structure ClientRound where
  dir : Dir
  timeUp : Bool
  answer : Option Reply

/-- The searches for unsent records with the one buffer of the thread, and the messages it hands over. -/
def clientLoop : List ClientRound → List Byte → List Byte → List Handed
  | [], _, _ => []
  | round :: rounds, data, time =>
    let out := searchReadflag round.dir data time (digit 1)
    let time := out.keys.getD 0 []
    if out.ret = 0 then clientLoop rounds out.data time
    else if round.timeUp then clientLoop rounds out.data time
    else
      ⟨round.dir, cstr out.data⟩ ::
        if (sendRecord round.dir time round.answer).1 = -1 then clientLoop rounds out.data time
        else clientLoop rounds (Leaves.cleared.apply out.data) (List.replicate 15 nul)

def clientThreadEntry (rounds : List ClientRound) : List Handed :=
  clientLoop rounds (List.replicate dataBuffer nul) (List.replicate 15 nul)

/-! ## The turns of the loops -/

/-- The line that a search for unsent records stops at. -/
def Queue.firstLine (q : Queue) (d : Dir) : Option (List Byte) :=
  (searchScan q.searchParams (digit 1) (d.map fun e => buffLines e.2)).map Prod.fst

def Queue.payload (q : Queue) (line : List Byte) : List Byte :=
  line.take (strlen line - q.searchParams.cut)

/-- The rounds of `statusLoop`, without the buffer. -/
def statusTurns (wired : Bool) (ecuId : List Byte) : List Exchange → Dir → List Byte → List Turn
  | [], _, _ => []
  | x :: exchanges, d, time =>
    match Queue.status.firstLine d with
    | none => []
    | some line =>
      let time := memcpy time (sliceFromEnd line 17 14)
      let round := finishRound wired ecuId d time x
      ⟨d, Queue.status.payload line, true, round.leaves⟩ ::
        if round.goesOn then statusTurns wired ecuId exchanges round.dir time else []

/-- The rounds of `clientLoop` that find a record, without the buffer. -/
def clientTurns : List ClientRound → List Byte → List Turn
  | [], _ => []
  | round :: rounds, time =>
    match Queue.record.firstLine round.dir with
    | none => clientTurns rounds time
    | some line =>
      let time := memcpy time (sliceFromEnd line 17 14)
      let payload := Queue.record.payload line
      if round.timeUp then ⟨round.dir, payload, false, .untouched⟩ :: clientTurns rounds time
      else if (sendRecord round.dir time round.answer).1 = -1 then
        ⟨round.dir, payload, true, .untouched⟩ :: clientTurns rounds time
      else ⟨round.dir, payload, true, .cleared⟩ :: clientTurns rounds (List.replicate 15 nul)

/-- The search of the two queues with a time, by the line it stops at. -/
theorem searchFlag_firstLine {q : Queue} (keys : q.searchParams.keys = [(17, 14)]) (d : Dir) (data time : List Byte) :
    (q.firstLine d = none ∧ (searchFlag q.searchParams d data [time] (digit 1)).ret = 0 ∧
        (searchFlag q.searchParams d data [time] (digit 1)).data = memset data nul 4 ∧
        (searchFlag q.searchParams d data [time] (digit 1)).keys = [time]) ∨
      ∃ line, q.firstLine d = some line ∧ (searchFlag q.searchParams d data [time] (digit 1)).ret = 1 ∧
        (searchFlag q.searchParams d data [time] (digit 1)).data = recvInto data (q.payload line ++ [newline]) ∧
        (searchFlag q.searchParams d data [time] (digit 1)).keys = [memcpy time (sliceFromEnd line 17 14)] := by
  rw [searchFlag, Queue.firstLine]
  cases searchScan q.searchParams (digit 1) (d.map fun e => buffLines e.2) with
  | none => exact .inl ⟨rfl, rfl, rfl, rfl⟩
  | some found =>
    refine .inr ⟨found.1, rfl, rfl, rfl, ?_⟩
    dsimp only
    rw [keys]
    rfl

theorem statusLoop_eq (wired : Bool) (ecuId : List Byte) (exchanges : List Exchange) (d : Dir)
    (data time : List Byte) :
    statusLoop wired ecuId exchanges d data time =
      handOver data (statusTurns wired ecuId exchanges d time) := by
  induction exchanges generalizing d data time with
  | nil => rfl
  | cons x exchanges ih =>
    rw [statusLoop, statusTurns]
    rcases searchFlag_firstLine (q := .status) rfl d data time with
      ⟨none, ret, -, -⟩ | ⟨line, some, ret, buff, keys⟩
    · have ret : (searchStatusflag d data time (digit 1)).ret = 0 := ret
      rw [none, ret]
      rfl
    · have ret : (searchStatusflag d data time (digit 1)).ret = 1 := ret
      have buff : (searchStatusflag d data time (digit 1)).data = _ := buff
      have keys : (searchStatusflag d data time (digit 1)).keys = _ := keys
      rw [some, ret, buff, keys]
      simp only [List.getD_cons_zero, one_ne_zero, if_false]
      rw [handOver]
      cases goes : (finishRound wired ecuId d (memcpy time (sliceFromEnd line 17 14)) x).goesOn with
      | false => rfl
      | true => simp [ih]

/-- Clearing the first bytes once more makes no difference to a search. -/
theorem handOver_memset (data : List Byte) (turns : List Turn) :
    handOver (memset data nul 4) turns = handOver data turns := by
  cases turns with
  | nil => rfl
  | cons t turns => rfl

theorem clientLoop_eq (rounds : List ClientRound) (data time : List Byte) :
    clientLoop rounds data time = handOver data (clientTurns rounds time) := by
  induction rounds generalizing data time with
  | nil => rfl
  | cons round rounds ih =>
    rw [clientLoop, clientTurns]
    rcases searchFlag_firstLine (q := .record) rfl round.dir data time with
      ⟨none, ret, buff, keys⟩ | ⟨line, some, ret, buff, keys⟩
    · have ret : (searchReadflag round.dir data time (digit 1)).ret = 0 := ret
      have buff : (searchReadflag round.dir data time (digit 1)).data = _ := buff
      have keys : (searchReadflag round.dir data time (digit 1)).keys = _ := keys
      rw [none, ret, buff, keys, ih]
      exact handOver_memset data _
    · have ret : (searchReadflag round.dir data time (digit 1)).ret = 1 := ret
      have buff : (searchReadflag round.dir data time (digit 1)).data = _ := buff
      have keys : (searchReadflag round.dir data time (digit 1)).keys = _ := keys
      rw [some, ret, buff, keys]
      simp only [List.getD_cons_zero, one_ne_zero, if_false]
      split_ifs <;> rw [handOver, ih] <;> rfl

/-! ## What the turns find -/

/-- The payloads of the store start with the head of a message. -/
def Store.Headed {q : Queue} (s : Store q) : Prop :=
  ∀ r ∈ s.records, 10 ≤ r.payload.length

theorem Store.Headed.found {q : Queue} {s : Store q} (headed : s.Headed) {line : List Byte}
    (first : q.firstLine s.render = some line) (handed : Bool) (leaves : Leaves)
    (silent : handed = false → leaves = .untouched) :
    Turn.Finds q ⟨s.render, q.payload line, handed, leaves⟩ := by
  rcases exists_firstWith s (digit 1) with none | ⟨p, r, isFirst⟩
  · rw [Queue.firstLine, lines_render, searchScan_none (searchParams_first q) none] at first
    cases first
  · obtain ⟨flag, scan, -⟩ := searchScan_fill (searchParams_first q) isFirst
    rw [Queue.firstLine, lines_render, scan] at first
    cases first
    have payload : q.payload r.line = r.payload := by
      rw [Queue.payload, Record.strlen_line, Record.line_length, searchParams_cut, Nat.add_sub_cancel,
        Record.line, List.take_left]
    have stored : r ∈ s.records := isFirst.split ▸ p.mem_fill r
    rw [payload]
    exact ⟨⟨r.payloadText, headed r stored⟩, ⟨s, rfl, r, stored, rfl⟩, silent⟩

theorem Store.Headed.change {q : Queue} {s : Store q} (headed : s.Headed) (T : Record q → Bool) {c : Byte}
    (isFlag : IsFlag c) : (s.change T c isFlag).2.Headed := by
  rcases change_cases (T := T) isFlag s with ⟨none, -⟩ | ⟨p, r, rfl, -, -, done⟩
  · rw [none]
    exact headed
  · rw [done]
    intro x mem
    rw [Place.records_fill] at mem
    unfold Store.Headed at headed
    rw [Place.records_fill] at headed
    rcases List.mem_append.1 mem with mem | mem
    · exact headed x (List.mem_append_left _ mem)
    · rcases List.mem_cons.1 mem with rfl | mem
      · exact headed r (List.mem_append_right _ List.mem_cons_self)
      · exact headed x (List.mem_append_right _ (List.mem_cons_of_mem _ mem))

/-- Directories of the status queue with headed payloads. -/
def StatusDir (d : Dir) : Prop :=
  ∃ s : Store .status, d = s.render ∧ s.Headed

theorem StatusDir.change {d : Dir} (isDir : StatusDir d) (time : List Byte) {c : Byte} (isFlag : IsFlag c) :
    StatusDir (changeStatusflag d time c).2 := by
  obtain ⟨s, rfl, headed⟩ := isDir
  rw [changeStatusflag_render s time isFlag]
  exact ⟨_, rfl, headed.change _ isFlag⟩

theorem StatusDir.acknowledge {d : Dir} (isDir : StatusDir d) (time recvBuffer : List Byte) :
    StatusDir (acknowledge d time recvBuffer) := by
  unfold Forward.acknowledge
  generalize List.range (ackCount recvBuffer).toNat = js
  have marked := isDir.change time isFlag_digit.2.2
  generalize (changeStatusflag d time (digit 2)).2 = d' at marked
  induction js generalizing d' with
  | nil => exact marked
  | cons j js ih => exact ih _ (marked.change _ isFlag_digit.1)

theorem StatusDir.finishRound {d : Dir} (isDir : StatusDir d) (wired : Bool) (ecuId time : List Byte)
    (x : Exchange) : StatusDir (finishRound wired ecuId d time x).dir := by
  cases x with
  | sendFails => exact isDir
  | receiveFails => exact isDir
  | answers recvBuffer =>
    have taken := isDir.acknowledge time recvBuffer
    rw [Forward.finishRound]
    by_cases refused : msgFormatCheck ecuId recvBuffer < 0
    · simp only [refused, if_true]
      exact isDir
    · simp only [refused, if_false]
      cases attachedCommand recvBuffer with
      | none => exact taken
      | some command =>
        dsimp only
        repeat' split
        all_goals exact taken

theorem statusTurns_find (wired : Bool) (ecuId : List Byte) (exchanges : List Exchange) {d : Dir}
    (isDir : StatusDir d) (time : List Byte) :
    ∀ t ∈ statusTurns wired ecuId exchanges d time, t.Finds .status := by
  induction exchanges generalizing d time with
  | nil => exact fun _ mem => nomatch mem
  | cons x exchanges ih =>
    rw [statusTurns]
    cases first : Queue.status.firstLine d with
    | none => exact fun _ mem => nomatch mem
    | some line =>
      have next := isDir.finishRound wired ecuId (memcpy time (sliceFromEnd line 17 14)) x
      obtain ⟨s, rfl, headed⟩ := isDir
      intro t mem
      rcases List.mem_cons.1 mem with rfl | mem
      · exact headed.found first true _ nofun
      · split_ifs at mem
        · exact ih next _ t mem
        · cases mem

theorem clientTurns_find {rounds : List ClientRound}
    (stored : ∀ r ∈ rounds, ∃ s : Store .record, r.dir = s.render ∧ s.Headed) (time : List Byte) :
    ∀ t ∈ clientTurns rounds time, t.Finds .record := by
  induction rounds generalizing time with
  | nil => exact fun _ mem => nomatch mem
  | cons round rounds ih =>
    obtain ⟨s, dir, headed⟩ := stored round List.mem_cons_self
    have later := ih fun r mem => stored r (List.mem_cons_of_mem round mem)
    rw [clientTurns]
    cases first : Queue.record.firstLine round.dir with
    | none => exact later time
    | some line =>
      rw [dir] at first
      dsimp only
      rw [dir]
      split_ifs
      · exact List.forall_mem_cons.2 ⟨headed.found first false _ fun _ => rfl, later _⟩
      · exact List.forall_mem_cons.2 ⟨headed.found first true _ nofun, later _⟩
      · exact List.forall_mem_cons.2 ⟨headed.found first true _ nofun, later _⟩

/-! ## The messages -/

theorem status_exact_iff (wired : Bool) (ecuId : List Byte) (exchanges : List Exchange) {s : Store .status}
    (headed : s.Headed) :
    (∀ h ∈ responseInverterAbnormalStatus wired ecuId exchanges s.render, h.Exact .status) ↔
      Fits 0 (statusTurns wired ecuId exchanges s.render (List.replicate 15 nul)) := by
  rw [responseInverterAbnormalStatus, statusLoop_eq]
  exact handOver_exact_iff (statusTurns_find wired ecuId exchanges ⟨s, rfl, headed⟩ _) (filled_replicate _)

/-- **No stale bytes**: the messages of both loops are exact in just those runs in which no record is shorter, by
more than a byte, than what a round that did not clear the buffer left in it. -/
theorem messages_exact_iff (wired : Bool) (ecuId : List Byte) (exchanges : List Exchange) {s : Store .status}
    (headed : s.Headed) {rounds : List ClientRound}
    (stored : ∀ r ∈ rounds, ∃ t : Store .record, r.dir = t.render ∧ t.Headed) :
    ((∀ h ∈ responseInverterAbnormalStatus wired ecuId exchanges s.render, h.Exact .status) ∧
        ∀ h ∈ clientThreadEntry rounds, h.Exact .record) ↔
      Fits 0 (statusTurns wired ecuId exchanges s.render (List.replicate 15 nul)) ∧
        Fits 0 (clientTurns rounds (List.replicate 15 nul)) := by
  apply and_congr
  · exact status_exact_iff wired ecuId exchanges headed
  · rw [clientThreadEntry, clientLoop_eq]
    exact handOver_exact_iff (clientTurns_find stored _) (filled_replicate _)

/-- An unsent record of the queues with a time. -/
def sampleReport {q : Queue} (own : q.widths = [14]) (payload time : List Byte) (payloadText : IsText payload)
    (timeText : IsText time) (width : time.length = 14) (long : 1 ≤ payload.length)
    (short : payload.length ≤ 50) : Record q where
  payload := payload
  keys := [time]
  flag := digit 1
  payloadText := payloadText
  widths := by simp [width, own]
  keysText := by simpa using timeText
  isFlag := isFlag_one
  long := by simpa [Queue.minPayload, Queue.tail, own] using long
  fits := by
    simp only [Queue.tail, own, lineBuffer, maxInverterCount, recordLength, recordTail, List.map_cons, List.map_nil,
      List.sum_cons, List.sum_nil]
    omega

/-- Two reports, the later one shorter. -/
def sampleReports {q : Queue} (own : q.widths = [14]) : Store q :=
  [(str "20240101.dat",
    [.record (sampleReport own (str "APS1500030A123AAA1203000000001") (str "20240101120000") (by decide) (by decide)
        (by decide) (by decide) (by decide)),
      .record (sampleReport own (str "APS1500020A123AAA123") (str "20240101120500") (by decide) (by decide)
        (by decide) (by decide) (by decide))])]

theorem sampleReports_headed {q : Queue} (own : q.widths = [14]) : (sampleReports own).Headed := by
  intro r mem
  rcases List.mem_cons.1 mem with rfl | mem
  · show 10 ≤ (str "APS1500030A123AAA1203000000001").length
    decide
  · rw [List.mem_singleton.1 mem]
    show 10 ≤ (str "APS1500020A123AAA123").length
    decide

/-- Both are acknowledged; the client's exchange is given up and taken up again. -/
theorem messages_exact_sample :
    (∀ h ∈ responseInverterAbnormalStatus true (str "203000000001")
        [.answers (str "APS1300024A123AAA0000END"), .answers (str "APS1300024A123AAA0000END")]
        (sampleReports (q := .status) rfl).render, h.Exact .status) ∧
      ∀ h ∈ clientThreadEntry (List.replicate 2 ⟨(sampleReports (q := .record) rfl).render, false, none⟩),
        h.Exact .record := by
  apply (messages_exact_iff true (str "203000000001") _ (sampleReports_headed rfl) ?_).2
  · decide +kernel
  · intro r mem
    rw [List.eq_of_mem_replicate mem]
    exact ⟨_, rfl, sampleReports_headed rfl⟩

/-- The command behind the first answer is refused: the second message ends with bytes of the first. -/
theorem messages_stale :
    ¬ ∀ h ∈ responseInverterAbnormalStatus true (str "203000000001")
      [.answers (str "APS1300026A123AAA0000ENDXX"), .sendFails] (sampleReports (q := .status) rfl).render,
      h.Exact .status := by
  rw [status_exact_iff true _ _ (sampleReports_headed rfl)]
  decide +kernel

end Ecu.Forward
