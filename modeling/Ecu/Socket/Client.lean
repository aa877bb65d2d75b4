import Ecu.Socket.Recv
import Ecu.Forward.Client

/-!
# Receiving the answer to a record (`clientSocket.c`)

`serverCommunication_Client` from the point where the request is sent: it reads until the two count digits agree with
the length of what has come. The limit of a read is `*recvLength`, which is also where the length so far is reported.
What the connection delivers is a list of segments; behind them it stays silent, and `select` times out, or the server
closes it.
-/

namespace Ecu.Socket

open Delivery Forward

/-- The size of the buffers of both sides, and the length that the callers ask for. -/
def replyBuffer : Nat := 4 + 99 * 14

/-- What the function leaves behind: its value, the caller's buffer, `*recvLength` and `LED_Status`. -/
structure Exchange where
  ret : Int
  recvbuff : List Byte
  recvLength : Nat
  ledStatus : Nat
deriving DecidableEq, Repr

/-- The variables of the loop. -/
structure Receiving where
  readbuff : List Byte
  recvbuff : List Byte
  recvlen : Nat
  recvLength : Nat

/-- The buffers as the callers and `malloc` hand them to the loop. -/
def Receiving.start : Receiving where
  readbuff := List.replicate replyBuffer nul
  recvbuff := List.replicate replyBuffer nul
  recvlen := 0
  recvLength := replyBuffer

/-- The two count digits agree with the length. -/
def countAgrees (recvbuff : List Byte) : Prop :=
  replyCount recvbuff = ((strlen recvbuff - 3) / 14 : Nat)

instance (recvbuff : List Byte) : Decidable (countAgrees recvbuff) :=
  inferInstanceAs (Decidable (_ = _))

/-- The loop after `recv`: it returns, or goes on. -/
def Receiving.step (r : Receiving) (chunk : List Byte) : Exchange ⊕ Receiving :=
  let readbuff := recvInto r.readbuff chunk
  if chunk = [] then .inl ⟨-1, r.recvbuff, 0, 0⟩
  else
    let recvbuff := strcat r.recvbuff readbuff
    let recvlen := r.recvlen + chunk.length
    if 3 ≤ recvlen then
      if countAgrees recvbuff then .inl ⟨recvlen, recvbuff, recvlen, 1⟩
      else if recvbuff.head? ≠ some (digit 1) then .inl ⟨0, recvbuff, 0, 0⟩
      else .inr ⟨readbuff, recvbuff, recvlen, recvlen⟩
    else .inr ⟨readbuff, recvbuff, recvlen, r.recvLength⟩

/-- The loop, for at most `fuel` rounds; `none` when it is still running then. -/
def receive (closes : Bool) : Nat → Receiving → List (List Byte) → Option Exchange
  | 0, _, _ => none
  | fuel + 1, r, arriving =>
    if arriving = [] ∧ closes = false then some ⟨-1, r.recvbuff, r.recvLength, 0⟩
    else
      let out := pull r.recvLength arriving
      match r.step out.1 with
      | .inl e => some e
      | .inr r => receive closes fuel r out.2

/-- `serverCommunication_Client` over a connection that delivers `arriving`. -/
def serverCommunicationClient (closes : Bool) (arriving : List (List Byte)) : Option Exchange :=
  receive closes (arriving.flatten.length + 1) .start arriving

/-! ## When the answer is understood -/

/-- The limit of a read after `n` bytes. -/
def asked (n : Nat) : Nat := if n < 3 then replyBuffer else n

/-- What the calls of `recv` return. -/
def recvs (arriving : List (List Byte)) : List (List Byte) :=
  reads asked arriving.flatten.length 0 arriving

/-- No read of four bytes or more is shorter than an earlier one. -/
def Undisturbed (recvs : List (List Byte)) : Prop :=
  recvs.Pairwise fun a b => b.length < sizeofPointer ∨ a.length ≤ b.length

/-- What has come is neither taken for the whole answer nor refused. -/
def Pending (text : List Byte) : Prop :=
  text.length < 3 ∨ ¬ countAgrees text ∧ text.head? = some (digit 1)

/-- The answer is pending before each read. -/
def PendingBefore (text : List Byte) (recvs : List (List Byte)) : Prop :=
  ∀ earlier chunk later, recvs = earlier ++ chunk :: later → Pending (text ++ earlier.flatten)

/-- The whole answer is taken as it is: it agrees with its count, or the loop waits in vain for more. -/
def Taken (closes : Bool) (reply : List Byte) : Prop :=
  3 ≤ reply.length ∧ (countAgrees reply ∨ reply.head? = some (digit 1) ∧ closes = false)

/-- The answer is in the buffer and its length is reported. -/
def Exchange.Gives (e : Exchange) (reply : List Byte) : Prop :=
  cstr e.recvbuff = reply ∧ e.recvLength = reply.length

instance (recvs : List (List Byte)) : Decidable (Undisturbed recvs) :=
  inferInstanceAs (Decidable (List.Pairwise _ _))

instance (text : List Byte) : Decidable (Pending text) :=
  inferInstanceAs (Decidable (_ ∨ _))

instance (closes : Bool) (reply : List Byte) : Decidable (Taken closes reply) :=
  inferInstanceAs (Decidable (_ ∧ _))

instance (e : Exchange) (reply : List Byte) : Decidable (e.Gives reply) :=
  inferInstanceAs (Decidable (_ ∧ _))

/-! ## The loop over the reads -/

/-- The loop with the reads given. -/
def Receiving.consume (closes : Bool) : Receiving → List (List Byte) → Exchange
  | r, [] => ⟨-1, r.recvbuff, if closes then 0 else r.recvLength, 0⟩
  | r, chunk :: later =>
    match r.step chunk with
    | .inl e => e
    | .inr r => r.consume closes later

theorem Receiving.step_limit {r r' : Receiving} {chunk : List Byte} (limit : r.recvLength = asked r.recvlen)
    (goes : r.step chunk = .inr r') :
    r'.recvlen = r.recvlen + chunk.length ∧ r'.recvLength = asked r'.recvlen := by
  unfold Receiving.step at goes
  dsimp only at goes
  split_ifs at goes with none three
  · cases goes
    exact ⟨rfl, (if_neg (Nat.not_lt.2 three)).symm⟩
  · cases goes
    refine ⟨rfl, ?_⟩
    dsimp only
    rw [limit, asked, asked, if_pos (by omega), if_pos (by omega)]

theorem asked_pos (n : Nat) : 0 < asked n := by
  unfold asked replyBuffer
  split_ifs <;> omega

theorem receive_eq_consume (closes : Bool) {fuel : Nat} {r : Receiving} {arriving : List (List Byte)}
    (limit : r.recvLength = asked r.recvlen) (proper : Proper arriving)
    (enough : arriving.flatten.length ≤ fuel) :
    receive closes (fuel + 1) r arriving = some (r.consume closes (reads asked fuel r.recvlen arriving)) := by
  induction fuel generalizing r arriving with
  | zero =>
    have nothing : arriving = [] := by
      cases arriving with
      | nil => rfl
      | cons seg rest =>
        have := List.length_pos_iff.2 proper.head
        simp only [List.flatten_cons, List.length_append] at enough
        omega
    subst nothing
    cases closes <;> rfl
  | succ fuel ih =>
    cases arriving with
    | nil => cases closes <;> rfl
    | cons seg rest =>
      have whole := congrArg List.length (pull_flatten r.recvLength (seg :: rest))
      have some := List.length_pos_iff.2
        (pull_ne_nil (limit ▸ asked_pos r.recvlen) proper (List.cons_ne_nil seg rest))
      rw [List.length_append] at whole
      rw [receive, if_neg (by simp), reads, ← limit]
      dsimp only
      rw [Receiving.consume]
      cases out : r.step (pull r.recvLength (seg :: rest)).1 with
      | inl e => rfl
      | inr r' =>
        obtain ⟨length, limit'⟩ := r.step_limit limit out
        dsimp only
        rw [ih limit' (proper.pull r.recvLength) (by omega), length]

/-! ## What the loop has got -/

/-- The variables after the reads `got`, none of which brought back an older one. -/
structure Got (r : Receiving) (got : List (List Byte)) : Prop where
  text : cstr r.recvbuff = got.flatten
  length : r.recvlen = got.flatten.length
  limit : r.recvLength = asked r.recvlen
  scratch : ∀ i, sizeofPointer ≤ i → (r.readbuff.getD i nul ≠ nul ↔ ∃ chunk ∈ got, i < chunk.length)

/-- Bytes of an older read are in the caller's buffer: its text is longer than what has come. -/
structure Ahead (r : Receiving) : Prop where
  longer : r.recvlen < strlen r.recvbuff
  limit : r.recvLength = asked r.recvlen

/-- A read that is free of older ones. -/
def Fresh (got : List (List Byte)) (chunk : List Byte) : Prop :=
  ∀ old ∈ got, chunk.length < sizeofPointer ∨ old.length ≤ chunk.length

theorem got_start : Got .start [] where
  text := rfl
  length := rfl
  limit := rfl
  scratch i _ := by
    have : (List.replicate replyBuffer nul).getD i nul = nul := by
      rw [List.getD_eq_getElem?_getD, List.getElem?_replicate]
      split_ifs <;> rfl
    simp only [Receiving.start, this, ne_eq, not_true_eq_false, List.not_mem_nil, false_and, exists_const]

theorem Got.fresh_text {r : Receiving} {got : List (List Byte)} (state : Got r got) {chunk : List Byte}
    (clean : Clean chunk) (fresh : Fresh got chunk) :
    cstr (strcat r.recvbuff (recvInto r.readbuff chunk)) = got.flatten ++ chunk := by
  rw [cstr_strcat, state.text, cstr_recvInto_of_le clean]
  by_cases short : chunk.length < sizeofPointer
  · exact .inl short
  · right
    by_contra old
    obtain ⟨older, mem, longer⟩ := (state.scratch _ (Nat.le_of_not_lt short)).1 old
    rcases fresh older mem with less | less
    · exact short less
    · omega

theorem Got.stale_text {r : Receiving} {got : List (List Byte)} (state : Got r got) {chunk : List Byte}
    (clean : Clean chunk) (stale : ¬ Fresh got chunk) :
    got.flatten.length + chunk.length < strlen (strcat r.recvbuff (recvInto r.readbuff chunk)) := by
  simp only [Fresh, not_forall, not_or] at stale
  obtain ⟨older, mem, long, longer⟩ := stale
  obtain ⟨left, text, none⟩ := cstr_of_chunk r.readbuff clean
  have more : left ≠ [] := by
    intro nothing
    have := none.1 nothing
    rw [recvInto_getD, if_neg (Nat.lt_irrefl _), if_neg long] at this
    exact (state.scratch _ (Nat.le_of_not_lt long)).2 ⟨older, mem, Nat.lt_of_not_le longer⟩ this
  have := List.length_pos_iff.2 more
  rw [strlen_strcat, strlen, state.text, strlen, text, List.length_append]
  omega

/-- The invariant of the scratch buffer: what is behind its first four bytes is what the longest read left. -/
theorem Got.scratch_next {r : Receiving} {got : List (List Byte)} (state : Got r got) {chunk : List Byte}
    (clean : Clean chunk) (i : Nat) (behind : sizeofPointer ≤ i) :
    (recvInto r.readbuff chunk).getD i nul ≠ nul ↔ ∃ old ∈ got ++ [chunk], i < old.length := by
  rw [recvInto_getD, if_neg (Nat.not_lt.2 behind)]
  simp only [List.mem_append, List.mem_singleton, or_and_right, exists_or, exists_eq_left]
  split_ifs with first
  · have : chunk.getD i nul ≠ nul := by
      rw [List.getD_eq_getElem _ _ first]
      exact clean _ (List.getElem_mem first)
    exact ⟨fun _ => .inr first, fun _ => this⟩
  · rw [state.scratch i behind]
    exact ⟨.inl, fun either => either.resolve_right first⟩

/-- The tests of the loop depend on the text of the buffer alone. -/
theorem countAgrees_cstr {buff : List Byte} (three : 3 ≤ strlen buff) :
    countAgrees buff ↔ countAgrees (cstr buff) := by
  obtain ⟨tail, whole, -⟩ := cstr_append_tail buff
  have text : strlen (cstr buff) = strlen buff := strlen_of_clean (clean_cstr buff)
  have first (i : Nat) (inside : i < 3) : buff.getD i nul = (cstr buff).getD i nul := by
    conv_lhs => rw [whole]
    exact List.getD_append _ _ _ _ (Nat.lt_of_lt_of_le inside three)
  rw [countAgrees, countAgrees, replyCount, replyCount, first 1 (by decide), first 2 (by decide), text]

theorem head?_cstr {buff : List Byte} (three : 3 ≤ strlen buff) : buff.head? = (cstr buff).head? := by
  obtain ⟨tail, whole, -⟩ := cstr_append_tail buff
  conv_lhs => rw [whole]
  apply List.head?_append_of_ne_nil
  intro nothing
  rw [strlen, nothing] at three
  exact absurd three (by decide)

/-- **One read** that is free of older ones. -/
theorem Got.step {r : Receiving} {got : List (List Byte)} (state : Got r got) {chunk : List Byte}
    (clean : Clean chunk) (some : chunk ≠ []) (fresh : Fresh got chunk) :
    let text := got.flatten ++ chunk
    Pending text ∧ (∃ r', r.step chunk = .inr r' ∧ Got r' (got ++ [chunk])) ∨
      (3 ≤ text.length ∧ countAgrees text) ∧
        (∃ e, r.step chunk = .inl e ∧ cstr e.recvbuff = text ∧ e.recvLength = text.length) ∨
      (3 ≤ text.length ∧ ¬ countAgrees text ∧ text.head? ≠ Option.some (digit 1)) ∧
        (∃ e, r.step chunk = .inl e ∧ e.recvLength = 0) := by
  intro text
  have buff := state.fresh_text clean fresh
  have lengths : r.recvlen + chunk.length = text.length := by
    rw [state.length, List.length_append]
  have flat : (got ++ [chunk]).flatten = text := by simp [text]
  unfold Receiving.step
  dsimp only
  rw [if_neg some, lengths]
  by_cases three : 3 ≤ text.length
  case neg =>
    rw [if_neg three]
    refine .inl ⟨.inl (Nat.lt_of_not_le three), _, rfl, ?_⟩
    constructor
    · exact buff.trans flat.symm
    · rw [flat]
    · dsimp only
      rw [state.limit, asked, asked, if_pos (by omega), if_pos (by omega)]
    · exact state.scratch_next clean
  case pos =>
    have there : 3 ≤ strlen (strcat r.recvbuff (recvInto r.readbuff chunk)) := by
      rw [strlen, buff]
      exact three
    have counts : countAgrees (strcat r.recvbuff (recvInto r.readbuff chunk)) ↔ countAgrees text := by
      rw [countAgrees_cstr there, buff]
    have first : (strcat r.recvbuff (recvInto r.readbuff chunk)).head? = text.head? := by
      rw [head?_cstr there, buff]
    rw [if_pos three, first]
    split_ifs with agrees refused
    · exact .inr (.inl ⟨⟨three, counts.1 agrees⟩, _, rfl, buff, rfl⟩)
    · exact .inr (.inr ⟨⟨three, mt counts.2 agrees, refused⟩, _, rfl, rfl⟩)
    · refine .inl ⟨.inr ⟨mt counts.2 agrees, not_not.1 refused⟩, _, rfl, ?_⟩
      constructor
      · exact buff.trans flat.symm
      · rw [flat]
      · exact (if_neg (Nat.not_lt.2 three)).symm
      · exact state.scratch_next clean

/-! ## Once older bytes are in the buffer -/

/-- A report that is no string with its length. -/
def Exchange.Off (e : Exchange) : Prop :=
  e.recvLength = 0 ∨ e.recvLength = replyBuffer ∨ e.recvLength < strlen e.recvbuff

theorem step_ahead {r : Receiving} {chunk : List Byte} (limit : r.recvLength = asked r.recvlen)
    (longer : r.recvlen + chunk.length < strlen (strcat r.recvbuff (recvInto r.readbuff chunk))) :
    (∃ e, r.step chunk = .inl e ∧ e.Off) ∨ ∃ r', r.step chunk = .inr r' ∧ Ahead r' := by
  cases out : r.step chunk with
  | inl e =>
    refine .inl ⟨e, rfl, ?_⟩
    unfold Receiving.step at out
    dsimp only at out
    split_ifs at out
    · cases out
      exact .inl rfl
    · cases out
      exact .inr (.inr longer)
    · cases out
      exact .inl rfl
  | inr r' =>
    obtain ⟨length, limit'⟩ := r.step_limit limit out
    refine .inr ⟨r', rfl, ?_, limit'⟩
    rw [length]
    unfold Receiving.step at out
    dsimp only at out
    split_ifs at out <;> cases out <;> exact longer

theorem Ahead.text {r : Receiving} (state : Ahead r) {chunk : List Byte} (clean : Clean chunk) :
    r.recvlen + chunk.length < strlen (strcat r.recvbuff (recvInto r.readbuff chunk)) := by
  obtain ⟨left, text, -⟩ := cstr_of_chunk r.readbuff clean
  have := state.longer
  rw [strlen_strcat, strlen, strlen, text, List.length_append, ← strlen]
  omega

theorem Ahead.consume {closes : Bool} {r : Receiving} (state : Ahead r) {later : List (List Byte)}
    (clean : ∀ chunk ∈ later, Clean chunk) : (r.consume closes later).Off := by
  induction later generalizing r with
  | nil =>
    cases closes with
    | true => exact .inl rfl
    | false =>
      have longer := state.longer
      show r.recvLength = 0 ∨ r.recvLength = replyBuffer ∨ r.recvLength < strlen r.recvbuff
      rw [state.limit, asked]
      split_ifs
      · exact .inr (.inl rfl)
      · exact .inr (.inr longer)
  | cons chunk later ih =>
    rw [Receiving.consume]
    rcases step_ahead state.limit (state.text (clean chunk List.mem_cons_self)) with
      ⟨e, out, off⟩ | ⟨r', out, ahead⟩
    · rw [out]
      exact off
    · rw [out]
      exact ih ahead fun c mem => clean c (List.mem_cons_of_mem _ mem)

theorem Exchange.Off.not_gives {e : Exchange} (off : e.Off) {reply : List Byte} (some : reply ≠ [])
    (short : reply.length < replyBuffer) : ¬ e.Gives reply := by
  rintro ⟨text, length⟩
  have := List.length_pos_iff.2 some
  rcases off with zero | whole | less
  · omega
  · omega
  · rw [strlen, text] at less
    omega

/-! ## The whole loop -/

theorem pendingBefore_cons {text chunk : List Byte} {later : List (List Byte)} :
    PendingBefore text (chunk :: later) ↔ Pending text ∧ PendingBefore (text ++ chunk) later := by
  constructor
  · intro pending
    refine ⟨by simpa using pending [] chunk later rfl, ?_⟩
    intro earlier c rest split
    have := pending (chunk :: earlier) c rest (by rw [split]; rfl)
    simpa using this
  · rintro ⟨first, pending⟩ earlier c rest split
    cases earlier with
    | nil => simpa using first
    | cons d earlier =>
      obtain ⟨rfl, rest'⟩ := List.cons_eq_cons.1 split
      simpa using pending earlier c rest rest'

theorem pendingBefore_nil (text : List Byte) : PendingBefore text [] := by
  intro earlier chunk later split
  exact absurd split (by simp)

instance PendingBefore.decidable : (text : List Byte) → (recvs : List (List Byte)) →
    Decidable (PendingBefore text recvs)
  | text, [] => .isTrue (pendingBefore_nil text)
  | text, chunk :: later =>
    have := PendingBefore.decidable (text ++ chunk) later
    decidable_of_iff _ pendingBefore_cons.symm

theorem Pending.not_agrees {text : List Byte} (pending : Pending text) (three : 3 ≤ text.length) :
    ¬ countAgrees text ∧ text.head? = some (digit 1) :=
  pending.resolve_left (Nat.not_lt.2 three)

theorem Undisturbed.snoc {got : List (List Byte)} {chunk : List Byte} :
    Undisturbed (got ++ [chunk]) ↔ Undisturbed got ∧ Fresh got chunk := by
  simp [Undisturbed, Fresh, List.pairwise_append]

theorem Undisturbed.earlier {got later : List (List Byte)} (all : Undisturbed (got ++ later)) :
    Undisturbed got :=
  (List.pairwise_append.1 all).1

/-- **The run over the reads**: the answer is there at the end exactly when no read was disturbed, none was
the last before its time, and the whole is taken. -/
theorem Got.consume_gives {closes : Bool} {r : Receiving} {got : List (List Byte)} (state : Got r got)
    (calm : Undisturbed got) (pending : Pending got.flatten) {later : List (List Byte)} (proper : Proper later)
    (clean : ∀ chunk ∈ later, Clean chunk) {reply : List Byte} (whole : got.flatten ++ later.flatten = reply)
    (some : reply ≠ []) (short : reply.length < replyBuffer) :
    (r.consume closes later).Gives reply ↔
      Undisturbed (got ++ later) ∧ PendingBefore got.flatten later ∧ Taken closes reply := by
  induction later generalizing r got with
  | nil =>
    rw [List.flatten_nil, List.append_nil] at whole
    rw [List.append_nil, Receiving.consume, Exchange.Gives, state.text, state.limit, state.length, whole]
    have none := pendingBefore_nil reply
    have long := List.length_pos_iff.2 some
    rw [whole] at pending
    constructor
    · rintro ⟨-, length⟩
      have stays : closes = false := by
        by_contra closed
        rw [if_pos (by simpa using closed)] at length
        exact absurd length (Nat.ne_of_lt long)
      rw [if_neg (by simp [stays]), asked] at length
      split_ifs at length with three
      · exact absurd length (Nat.ne_of_gt short)
      · have open' := pending.not_agrees (Nat.le_of_not_lt three)
        exact ⟨calm, none, Nat.le_of_not_lt three, .inr ⟨open'.2, stays⟩⟩
    · rintro ⟨-, -, three, taken⟩
      have open' := pending.not_agrees three
      have stays := (taken.resolve_left open'.1).2
      rw [if_neg (by simp [stays]), asked, if_neg (Nat.not_lt.2 three)]
      exact ⟨rfl, rfl⟩
  | cons chunk later ih =>
    have text := clean chunk List.mem_cons_self
    have clean' := fun c mem => clean c (List.mem_cons_of_mem chunk mem)
    have flat : (got ++ [chunk]).flatten = got.flatten ++ chunk := by simp
    have all : got ++ chunk :: later = got ++ [chunk] ++ later := by simp
    rw [List.flatten_cons, ← List.append_assoc] at whole
    rw [Receiving.consume, pendingBefore_cons, all]
    by_cases fresh : Fresh got chunk
    case neg =>
      have off : (match r.step chunk with
          | .inl e => e
          | .inr r' => r'.consume closes later).Off := by
        rcases step_ahead state.limit (by rw [state.length]; exact state.stale_text text fresh) with
          ⟨e, out, off⟩ | ⟨r', out, ahead⟩
        · rw [out]
          exact off
        · rw [out]
          exact ahead.consume clean'
      constructor
      · exact fun gives => absurd gives (off.not_gives some short)
      · exact fun holds => absurd (Undisturbed.snoc.1 holds.1.earlier).2 fresh
    case pos =>
      have last (done : later.flatten = []) : later = [] := by
        cases later with
        | nil => rfl
        | cons c rest => exact absurd (List.append_eq_nil_iff.1 done).1 proper.tail.head
      rcases state.step text proper.head fresh with
        ⟨goes, r', out, state'⟩ | ⟨agrees, e, out, buff, length⟩ | ⟨refused, e, out, zero⟩
      · rw [out]
        dsimp only
        rw [ih state' (Undisturbed.snoc.2 ⟨calm, fresh⟩) (flat ▸ goes) proper.tail clean' (flat ▸ whole), flat]
        constructor
        · exact fun ⟨u, p, t⟩ => ⟨u, ⟨pending, p⟩, t⟩
        · exact fun ⟨u, ⟨_, p⟩, t⟩ => ⟨u, p, t⟩
      · rw [out]
        dsimp only
        constructor
        · rintro ⟨same, -⟩
          have done : later = [] := by
            apply last
            rw [← whole, buff] at same
            exact List.self_eq_append_right.1 same
          subst done
          rw [List.flatten_nil, List.append_nil] at whole
          rw [List.append_nil, ← whole]
          exact ⟨Undisturbed.snoc.2 ⟨calm, fresh⟩, ⟨pending, pendingBefore_nil _⟩, agrees.1, .inl agrees.2⟩
        · rintro ⟨-, ⟨-, p⟩, -⟩
          cases later with
          | nil =>
            rw [List.flatten_nil, List.append_nil] at whole
            rw [← whole]
            exact ⟨buff, length⟩
          | cons c rest =>
            have open' := (pendingBefore_cons.1 p).1.not_agrees agrees.1
            exact absurd agrees.2 open'.1
      · rw [out]
        dsimp only
        have long := List.length_pos_iff.2 some
        constructor
        · rintro ⟨-, length⟩
          omega
        · rintro ⟨-, ⟨-, p⟩, taken⟩
          cases later with
          | nil =>
            rw [List.flatten_nil, List.append_nil] at whole
            rw [← whole] at taken
            rcases taken.2 with agrees | ⟨first, -⟩
            · exact absurd agrees refused.2.1
            · exact absurd first refused.2.2
          | cons c rest =>
            have open' := (pendingBefore_cons.1 p).1.not_agrees refused.1
            exact absurd open'.2 refused.2.2

/-! ## The function -/

/-- The answer is in the buffer, as if it had come in one segment. -/
def Reassembles (closes : Bool) (arriving : List (List Byte)) (reply : List Byte) : Prop :=
  ∃ e one, serverCommunicationClient closes arriving = some e ∧
    serverCommunicationClient closes [reply] = some one ∧
    cstr e.recvbuff = cstr one.recvbuff ∧ e.recvLength = one.recvLength ∧ e.Gives reply

/-- The function returns on every answer, and the answer is there exactly when its reads are undisturbed, it is
pending before each, and taken at the end. -/
theorem serverCommunicationClient_gives (closes : Bool) {reply : List Byte} (clean : Clean reply)
    (some : reply ≠ []) (short : reply.length < replyBuffer) {arriving : List (List Byte)}
    (proper : Proper arriving) (whole : arriving.flatten = reply) :
    ∃ e, serverCommunicationClient closes arriving = Option.some e ∧
      (e.Gives reply ↔
        Undisturbed (recvs arriving) ∧ PendingBefore [] (recvs arriving) ∧ Taken closes reply) := by
  have flat : (recvs arriving).flatten = reply := by
    rw [recvs, reads_flatten asked_pos 0 proper (Nat.le_refl _), whole]
  refine ⟨_, receive_eq_consume closes rfl proper (Nat.le_refl _), ?_⟩
  apply got_start.consume_gives List.Pairwise.nil (.inl (by decide)) (reads_proper asked_pos _ _ proper)
  · intro chunk mem b inside
    apply clean b
    rw [← flat]
    exact List.mem_flatten.2 ⟨chunk, mem, inside⟩
  · exact flat
  · exact some
  · exact short

/-- One segment within the buffer is read at once. -/
theorem recvs_whole {reply : List Byte} (some : reply ≠ []) (short : reply.length < replyBuffer) :
    recvs [reply] = [reply] := by
  have long := List.length_pos_iff.2 some
  have fits : reply.length ≤ asked 0 := Nat.le_of_lt short
  rw [recvs, show ([reply] : List (List Byte)).flatten.length = reply.length - 1 + 1 by simp; omega, reads, pull,
    if_pos fits]
  cases reply.length - 1 <;> rfl

theorem pendingBefore_whole {reply : List Byte} : PendingBefore [] [reply] :=
  pendingBefore_cons.2 ⟨.inl (by decide), pendingBefore_nil _⟩

theorem Reassembles.understood {closes : Bool} {arriving : List (List Byte)} {reply : List Byte}
    (same : Reassembles closes arriving reply) (clean : Clean reply) (some : reply ≠ [])
    (short : reply.length < replyBuffer) (proper : Proper arriving) (whole : arriving.flatten = reply) :
    Undisturbed (recvs arriving) ∧ PendingBefore [] (recvs arriving) ∧ Taken closes reply := by
  obtain ⟨e, -, run, -, -, -, given⟩ := same
  obtain ⟨e', run', gives⟩ := serverCommunicationClient_gives closes clean some short proper whole
  rw [run] at run'
  cases run'
  exact gives.1 given

/-- **Reassembly**: with undisturbed reads the segments make no difference exactly when the answer is pending
before each of them and taken at the end. -/
theorem reassembly (closes : Bool) {reply : List Byte} (clean : Clean reply) (some : reply ≠ [])
    (short : reply.length < replyBuffer) {arriving : List (List Byte)} (proper : Proper arriving)
    (whole : arriving.flatten = reply) (calm : Undisturbed (recvs arriving)) :
    Reassembles closes arriving reply ↔ PendingBefore [] (recvs arriving) ∧ Taken closes reply := by
  constructor
  · exact fun same => (same.understood clean some short proper whole).2
  · intro holds
    obtain ⟨e, run, gives⟩ := serverCommunicationClient_gives closes clean some short proper whole
    obtain ⟨one, runOne, givesOne⟩ := serverCommunicationClient_gives closes clean some short
      (fun _ mem => List.mem_singleton.1 mem ▸ some) (List.flatten_singleton (l := reply))
    rw [recvs_whole some short] at givesOne
    have given := gives.2 ⟨calm, holds⟩
    have givenOne := givesOne.2 ⟨List.pairwise_singleton _ _, pendingBefore_whole, holds.2⟩
    exact ⟨e, one, run, runOne, given.1.trans givenOne.1.symm, given.2.trans givenOne.2.symm, given⟩

/-- An answer with one record, in two segments. -/
theorem reassembly_record :
    Reassembles false [str "1012017", str "0101000000"] (str "10120170101000000") :=
  (reassembly false (by decide) (by decide) (by decide) (by decide) (by decide) (by decide)).2
    ⟨by decide, by decide⟩

/-- An answer with two records of which the second segment is the shorter one, and a refused answer that comes
at once. -/
theorem reassembly_stale :
    ¬ Reassembles false [str "10220170101000000201", str "70102000000"] (str "1022017010100000020170102000000") ∧
      ¬ Reassembles false [str "0012"] (str "0012") := by
  constructor
  · intro same
    have calm := (same.understood (by decide) (by decide) (by decide) (by decide) (by decide)).1
    exact absurd calm (by decide)
  · intro same
    have taken := (same.understood (by decide) (by decide) (by decide) (by decide) (by decide)).2.2
    exact absurd taken (by decide)

end Ecu.Socket
