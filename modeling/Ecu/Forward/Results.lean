import Ecu.Forward.Wire
import Ecu.Lib.Loop

/-!
# Delivering the results (`control_client.c`)

`response_process_result` has a loop for each of the two result queues. A round takes the first record with flag
`'1'`, sends a message with it, and sets the first record of that command with flag `'1'` to `'0'` once the message is
sent; then the files without another flag are deleted. Record and flag are found by two scans of their own: both stop
at the same line.
-/

namespace Ecu.Forward

open Socket

/-! ## The loops -/

/-- The buffers of `response_process_result`, and the directory of the loop. -/
structure Sender where
  dir : Dir
  data : List Byte
  item : List Byte
  inverterId : List Byte

/-- Whether there is a connection, WiFi being used otherwise, and whether the message is sent. -/
structure Sending where
  wired : Bool
  sent : Bool
deriving DecidableEq

/-- A round that has found a record: where it looked, the message handed over, what came of that, and what it leaves. -/
structure Attempt (σ ω : Type) where
  dir : Dir
  message : List Byte
  outcome : ω
  after : σ

/-- The end of a round, and whether the loop goes on: over the wire a failure is tried again, over
WiFi it ends the loop. -/
def Sending.finish (change : Dir → List Byte → Byte → Nat × Dir) (unsent : List Byte → List Byte) (found : Sender)
    (o : Sending) : Sender × Bool :=
  if o.sent then
    ({ found with dir := (change found.dir found.item (digit 0)).2, data := found.data.map fun _ => nul }, true)
  else if o.wired then ({ found with data := unsent found.data }, true)
  else (found, false)

/-- A round, by its search and what it does with the item and the data that this gives. -/
def resultTurn (out : SearchOut) (message : List Byte → List Byte → List Byte)
    (change : Dir → List Byte → Byte → Nat × Dir) (unsent : List Byte → List Byte) (s : Sender) (o : Sending) :
    Option (Attempt Sender Sending × Option Sender) :=
  if out.ret = 0 then none
  else
    let found : Sender :=
      { s with data := out.data, item := out.keys.getD 0 [], inverterId := out.keys.getD 1 s.inverterId }
    let finished := o.finish change unsent found
    some (⟨s.dir, message found.item found.data, o, finished.1⟩, if finished.2 then some finished.1 else none)

/-- The first loop sends `data` itself. -/
def proResultTurn (s : Sender) (o : Sending) : Option (Attempt Sender Sending × Option Sender) :=
  resultTurn (searchProResultFlag s.dir s.data s.item (digit 1)) (fun _ data => cstr data) changeProResultFlag
    (sendSocket false) s o

/-- `sendbuffer`: a header with the command, the record, and the length of both. -/
def inverterResult (ecuId item data : List Byte) : List Byte :=
  let sendbuffer := str "APS1300000A" ++ Decimal.fixed 3 (atoi item) ++ str "AAA0" ++ (cstr ecuId).take 12 ++
    Decimal.fixed 4 1 ++ str "00000000000000END" ++ cstr data
  let text := if sendbuffer.getLast? = some newline then sendbuffer else sendbuffer ++ [newline]
  text.take 5 ++ Decimal.fixed 5 ((text.length - 1 : Nat) : Int) ++ text.drop 10

def invProResultTurn (ecuId : List Byte) (s : Sender) (o : Sending) : Option (Attempt Sender Sending × Option Sender) :=
  resultTurn (searchInvProResultFlag s.dir s.data s.item s.inverterId (digit 1)) (inverterResult ecuId)
    changeInvProResultFlag id s o

/-- The attempts of a loop and its last state, `none` where it was left. -/
abbrev Looped := List (Attempt Sender Sending) × (Option Sender × Nat)

/-- After a loop: its last search has cleared the beginning of `data`, or it was left. -/
def afterLoop (first : Sender) (out : Looped) : Sender :=
  match out.2.1 with
  | some s => { s with data := memset s.data nul sizeofPointer }
  | none => (out.1.getLast?.map (·.after)).getD first

/-- The attempts for a queue and its directory after the clean-up. -/
structure Delivered where
  attempts : List (Attempt Sender Sending)
  dir : Dir

/-- `response_process_result`, for the outcomes of the sends; `none` when there is no fuel left. -/
def responseProcessResult (ecuId : List Byte) (proOutcomes invOutcomes : Nat → Sending) (fuel : Nat)
    (procRes iprocres : Dir) :
    Option (Delivered × Delivered) :=
  let first : Sender :=
    ⟨procRes, List.replicate recordBuffer nul, List.replicate 4 nul, List.replicate 13 nul⟩
  (Loop.run (Loop.fed proResultTurn proOutcomes) fuel (some first, 0)).bind fun out =>
    let left := afterLoop first out
    let second := { left with dir := iprocres }
    (Loop.run (Loop.fed (invProResultTurn ecuId) invOutcomes) fuel (some second, 0)).map fun out' =>
      (⟨out.1, deleteProResultFlag0 left.dir⟩, ⟨out'.1, deleteInvProResultFlag0 (afterLoop second out').dir⟩)

/-! ## What is to be delivered -/

variable {q : Queue}

/-- The records with flag `'1'`. -/
def Store.unsent (s : Store q) : List (Record q) :=
  s.records.filter fun r => r.flag == digit 1

/-- The record once it is sent. -/
def Record.sent (r : Record q) : Record q :=
  r.withFlag (digit 0) isFlag_digit.1

def Line.settle : Line q → Line q
  | .blank => .blank
  | .record r => .record (if r.flag = digit 1 then r.sent else r)

/-- The store once all of them are sent. -/
def Store.settle (s : Store q) : Store q :=
  s.map fun e => (e.1, e.2.map Line.settle)

/-- Each attempt is for the first record with flag `'1'`, and sets its flag and nothing else; after
the last there is none. -/
def Delivers (message : Record q → List Byte) : Store q → List (Attempt Sender Sending) → Prop
  | s, [] => s.unsent = []
  | s, a :: attempts => ∃ (p : Place q) (r : Record q), s.FirstWith (digit 1) p r ∧ a.dir = s.render ∧
      a.message = message r ∧ a.after.dir = (p.fill r.sent).render ∧ Delivers message (p.fill r.sent) attempts

/-- All records with flag `'1'` are transmitted, each once and in their order, one flag is set for each, and the
clean-up finds them set. -/
structure DeliveredOnce (message : Record q → List Byte) (s : Store q) (out : Delivered) : Prop where
  messages : out.attempts.map (·.message) = s.unsent.map message
  flags : Delivers message s out.attempts
  rest : out.dir = s.settle.delete.render

/-! ## Stores -/

@[simp] theorem Record.sent_flag (r : Record q) : r.sent.flag = digit 0 := rfl

theorem zero_ne_one : (digit 0 : Byte) ≠ digit 1 := by
  decide

theorem unsent_fill {s : Store q} {p : Place q} {r : Record q} (first : s.FirstWith (digit 1) p r) :
    s.unsent = r :: (p.fill r.sent).unsent := by
  have none : p.preceding.filter (fun r => r.flag == digit 1) = [] := by
    rw [List.filter_eq_nil_iff]
    intro x mem
    simpa using first.passed x mem
  rw [Store.unsent, Store.unsent, first.split, Place.records_fill, Place.records_fill, List.filter_append,
    List.filter_append, none, List.nil_append, List.nil_append]
  simp [first.flag, zero_ne_one]

theorem Delivers.messages {message : Record q → List Byte} {s : Store q} {attempts : List (Attempt Sender Sending)}
    (delivers : Delivers message s attempts) : attempts.map (·.message) = s.unsent.map message := by
  induction attempts generalizing s with
  | nil =>
    have none : s.unsent = [] := delivers
    rw [none]
    rfl
  | cons a attempts ih =>
    obtain ⟨p, r, first, -, own, -, later⟩ := delivers
    rw [unsent_fill first, List.map_cons, List.map_cons, own, ih later]

theorem settle_fill (p : Place q) {r : Record q} (flag : r.flag = digit 1) :
    (p.fill r.sent).settle = (p.fill r).settle := by
  have same : Line.settle (.record r.sent) = Line.settle (.record r) := by
    rw [Line.settle, Line.settle, if_pos flag, Record.sent_flag, if_neg zero_ne_one]
  simp only [Store.settle, Place.fill, List.map_append, List.map_cons, same]

theorem settle_of_unsent {s : Store q} (none : s.unsent = []) : s.settle = s := by
  have lines {e : List Byte × List (Line q)} (mem : e ∈ s) {l : Line q} (inFile : l ∈ e.2) : l.settle = l := by
    cases l with
    | blank => rfl
    | record r =>
      have stored : r ∈ s.records := List.mem_flatMap.2 ⟨e, mem, Line.mem_records.2 inFile⟩
      have other : r.flag ≠ digit 1 := by simpa using List.filter_eq_nil_iff.1 none r stored
      rw [Line.settle, if_neg other]
  have files : s.settle = s.map id :=
    List.map_congr_left fun e mem => Prod.ext rfl ((List.map_congr_left fun l => lines mem).trans (List.map_id e.2))
  rw [files, List.map_id]

/-- Where the attempts are over the store is settled. -/
theorem Delivers.last {message : Record q → List Byte} {s : Store q} {attempts : List (Attempt Sender Sending)}
    (delivers : Delivers message s attempts) {d : Dir} (start : d = s.render) :
    (attempts.getLast?.map fun a => a.after.dir).getD d = s.settle.render := by
  induction attempts generalizing s d with
  | nil => rw [List.getLast?_nil, Option.map_none, Option.getD_none, start, settle_of_unsent delivers]
  | cons a attempts ih =>
    obtain ⟨p, r, first, -, -, after, later⟩ := delivers
    rw [first.split, ← settle_fill p first.flag, ← ih later after, List.getLast?_cons]
    cases attempts.getLast? <;> rfl

/-! ## A round -/

/-- What the two loops have in common: a queue with the command as its last key, a message that depends on the text in
`data`, and a change that is for the first record of the command with flag `'1'`. -/
structure ResultLoop (q : Queue) (message : List Byte → List Byte → List Byte)
    (change : Dir → List Byte → Byte → Nat × Dir) : Prop where
  last : q.widths.getLast? = some 3
  text : ∀ {item a b : List Byte}, cstr a = cstr b → message item a = message item b
  change : ∀ (s : Store q) (item : List Byte), (change s.render item (digit 0)).2 =
    (s.change (fun r => r.flag == digit 1 && item.take 4 == r.key ++ [nul]) (digit 0) isFlag_digit.1).2.render

theorem proResult_loop : ResultLoop .proResult (fun _ data => cstr data) changeProResultFlag where
  last := rfl
  text := fun same => same
  change := fun s item => by rw [changeProResultFlag_render s item isFlag_digit.1]

theorem invProResult_loop (ecuId : List Byte) :
    ResultLoop .invProResult (inverterResult ecuId) changeInvProResultFlag where
  last := rfl
  text := fun same => by rw [inverterResult, inverterResult, same]
  change := fun s item => by rw [changeInvProResultFlag_render s item isFlag_digit.1]

theorem key_length_three {r : Record q} (last : q.widths.getLast? = some 3) : r.key.length = 3 := by
  cases q with
  | record | status => cases last
  | proResult =>
    obtain ⟨key, keys, width⟩ := r.keys_one rfl
    rw [Record.key, keys]
    exact width
  | invProResult =>
    obtain ⟨id, item, keys, -, width⟩ := r.keys_two rfl
    rw [Record.key, keys]
    exact width

/-- The item of the caller becomes the command of the record. -/
theorem search_item {s : Store q} {p : Place q} {r : Record q} {c : Byte} (first : s.FirstWith c p r)
    (data id : List Byte)
    {item : List Byte} (last : q.widths.getLast? = some 3) (ends : item.drop 3 = [nul]) :
    (q.search s.render data item id c).keys.getD 0 [] = r.key ++ [nul] := by
  obtain ⟨flag, out, -⟩ := searchFlag_fill first data (q.buffers item id)
  have copied : memcpy item r.key = r.key ++ [nul] := by
    rw [memcpy, key_length_three last, ends]
  rw [search_eq, out, ← copied]
  cases q with
  | record | status => cases last
  | proResult =>
    obtain ⟨key, keys, -⟩ := r.keys_one rfl
    simp [Record.keysInto, Queue.buffers, Record.key, keys]
  | invProResult =>
    obtain ⟨id, key, keys, -, -⟩ := r.keys_two rfl
    simp [Record.keysInto, Queue.buffers, Record.key, keys]

/-- A buffer that is cleared. -/
def Zeroed (data : List Byte) : Prop :=
  ∀ b ∈ data, b = nul

theorem zeroed_map (data : List Byte) : Zeroed (data.map fun _ => nul) := by
  intro b mem
  obtain ⟨-, -, rfl⟩ := List.mem_map.1 mem
  rfl

theorem Zeroed.memset {data : List Byte} (cleared : Zeroed data) (n : Nat) : Zeroed (Ecu.memset data nul n) := by
  intro b mem
  rcases List.mem_append.1 mem with new | old
  · exact List.eq_of_mem_replicate new
  · exact cleared b (List.mem_of_mem_drop old)

theorem payload_clean (r : Record q) : Clean (r.payload ++ [newline]) := by
  intro b mem
  rcases List.mem_append.1 mem with text | ends
  · exact (r.payloadText b text).1
  · rw [List.mem_singleton.1 ends]
    decide

/-- The text of the record stands alone in it. -/
theorem Zeroed.text {data : List Byte} (cleared : Zeroed data) (r : Record q) :
    cstr (memcpy (Ecu.memset data nul 4) (r.payload ++ [newline])) = cstr (r.payload ++ [newline]) := by
  have rest : ∀ b ∈ (Ecu.memset data nul 4).drop (r.payload ++ [newline]).length, b = nul :=
    fun b mem => cleared.memset 4 b (List.mem_of_mem_drop mem)
  rw [memcpy, (payload_clean r).cstr_append, cstr_of_clean (payload_clean r)]
  cases behind : (Ecu.memset data nul 4).drop (r.payload ++ [newline]).length with
  | nil => rw [cstr, List.takeWhile_nil, List.append_nil]
  | cons b later =>
    rw [behind] at rest
    rw [rest b List.mem_cons_self]
    exact List.append_nil _

section Loop

variable {message : List Byte → List Byte → List Byte} {change : Dir → List Byte → Byte → Nat × Dir}
  (loop : ResultLoop q message change) (unsent : List Byte → List Byte)

/-- Where the loop stands: at this store, with cleared buffers. -/
structure Sender.At (s : Sender) (store : Store q) : Prop where
  dir : s.dir = store.render
  data : Zeroed s.data
  item : s.item.drop 3 = [nul]

/-- The message of a record. -/
def messageOf (message : List Byte → List Byte → List Byte) (r : Record q) : List Byte :=
  message (r.key ++ [nul]) (r.payload ++ [newline])

include loop

/-- The flag is set for the record that was taken. -/
theorem ResultLoop.marks {store : Store q} {p : Place q} {r : Record q} (first : store.FirstWith (digit 1) p r) :
    (change store.render (r.key ++ [nul]) (digit 0)).2 = (p.fill r.sent).render := by
  have own : (r.key ++ [nul]).take 4 = r.key ++ [nul] := by
    refine List.take_of_length_le ?_
    rw [List.length_append, key_length_three loop.last]
    rfl
  rw [loop.change, own]
  conv_lhs => rw [first.split]
  rw [Store.change_fill]
  · rfl
  · simp [first.flag]
  · intro x mem
    simp [first.passed x mem]

/-- A round whose message is sent. -/
theorem resultTurn_sent {s : Sender} {store : Store q} (stands : s.At store) {p : Place q} {r : Record q}
    (first : store.FirstWith (digit 1) p r) {o : Sending} (sent : o.sent = true) :
    ∃ after : Sender, after.At (p.fill r.sent) ∧
      resultTurn (q.search s.dir s.data s.item s.inverterId (digit 1)) message change unsent s o =
        some (⟨s.dir, messageOf message r, o, after⟩, some after) := by
  obtain ⟨flag, out, -⟩ := searchFlag_fill first s.data (q.buffers s.item s.inverterId)
  have item := search_item first s.data s.inverterId loop.last stands.item
  rw [search_eq] at item
  have marked := loop.marks first
  let search := q.search s.dir s.data s.item s.inverterId (digit 1)
  let after : Sender := ⟨(change s.dir (r.key ++ [nul]) (digit 0)).2, search.data.map fun _ => nul, r.key ++ [nul],
    search.keys.getD 1 s.inverterId⟩
  refine ⟨after, ⟨?_, zeroed_map _, List.drop_left' (key_length_three loop.last)⟩, ?_⟩
  · show (change s.dir (r.key ++ [nul]) (digit 0)).2 = (p.fill r.sent).render
    rw [stands.dir, marked]
  · have found : search = _ := (search_eq q s.dir s.data s.item s.inverterId (digit 1)).trans (stands.dir ▸ out)
    have key : search.keys.getD 0 [] = r.key ++ [nul] := by
      rw [← item, ← search_eq, ← stands.dir]
    have some : search.ret ≠ 0 := by
      rw [found]
      exact Nat.one_ne_zero
    have text : message (r.key ++ [nul]) search.data = messageOf message r := by
      rw [messageOf, found]
      exact loop.text (stands.data.text r)
    rw [resultTurn, if_neg some, key]
    dsimp only
    rw [Sending.finish, if_pos sent, text]
    rfl

omit loop in
/-- A round that finds nothing. -/
theorem resultTurn_none {s : Sender} {store : Store q} (stands : s.At store) (none : store.unsent = []) (o : Sending) :
    resultTurn (q.search s.dir s.data s.item s.inverterId (digit 1)) message change unsent s o = Option.none := by
  have flags : ∀ r ∈ store.records, r.flag ≠ digit 1 := by
    intro r mem
    simpa using List.filter_eq_nil_iff.1 none r mem
  rw [search_eq, stands.dir, searchFlag_none flags, resultTurn, if_pos rfl]

/-- The loop: when all messages are sent it takes the records one after the other, and ends. -/
theorem loop_delivers {outcomes : Nat → Sending} (sent : ∀ k, (outcomes k).sent = true) {fuel : Nat} {s : Sender}
    {store : Store q} (stands : s.At store) (enough : store.unsent.length < fuel) (k : Nat) :
    ∃ (out : Looped) (after : Sender), Loop.run (Loop.fed (fun s o =>
        resultTurn (q.search s.dir s.data s.item s.inverterId (digit 1)) message change unsent s o) outcomes) fuel
          (some s, k) = some out ∧
      Delivers (messageOf message) store out.1 ∧ out.2.1 = some after ∧ after.At store.settle := by
  induction fuel generalizing s store k with
  | zero => exact absurd enough (Nat.not_lt_zero _)
  | succ fuel ih =>
    rw [Loop.run, Loop.fed]
    cases whole : store.unsent with
    | nil =>
      rw [resultTurn_none unsent stands whole]
      exact ⟨_, s, rfl, whole, rfl, (settle_of_unsent whole).symm ▸ stands⟩
    | cons r rest =>
      have some : ¬ ∀ r ∈ store.records, r.flag ≠ digit 1 := by
        intro none
        have nothing : store.unsent = [] := List.filter_eq_nil_iff.2 fun r mem => by simpa using none r mem
        rw [nothing] at whole
        cases whole
      obtain ⟨p, r, first⟩ := (exists_firstWith store (digit 1)).resolve_left some
      obtain ⟨after, next, turn⟩ := resultTurn_sent loop unsent stands first (sent k)
      have fewer : (p.fill r.sent).unsent.length < fuel := by
        rw [unsent_fill first, List.length_cons] at enough
        exact Nat.lt_of_succ_lt_succ enough
      obtain ⟨out, last, ran, delivers, ended, settled⟩ := ih next fewer (k + 1)
      rw [turn, Option.map_some]
      dsimp only
      rw [ran]
      refine ⟨_, last, rfl, ⟨p, r, first, stands.dir, rfl, next.dir, delivers⟩, ended, ?_⟩
      rwa [settle_fill p first.flag, ← first.split] at settled

end Loop

/-! ## Both loops -/

/-- A loop and its clean-up. -/
theorem deliveredOnce_of {message : Record q → List Byte} {store : Store q} {first after : Sender} {out : Looped}
    (delivers : Delivers message store out.1) (ended : out.2.1 = some after) (settled : after.At store.settle) :
    DeliveredOnce message store ⟨out.1, q.delete (afterLoop first out).dir⟩ := by
  refine ⟨delivers.messages, delivers, ?_⟩
  rw [afterLoop, ended]
  dsimp only
  rw [settled.dir, delete_render]

/-- **Exactly once**: where all messages are sent, every record with flag `'1'` is transmitted once, in the order of the
directory and its files, and its flag is the one that is set for it. -/
theorem results_delivered (ecuId : List Byte) (procRes : Store .proResult) (iprocres : Store .invProResult)
    {proOutcomes invOutcomes : Nat → Sending} (proSent : ∀ k, (proOutcomes k).sent = true)
    (invSent : ∀ k, (invOutcomes k).sent = true) :
    ∃ fuel out, responseProcessResult ecuId proOutcomes invOutcomes fuel procRes.render iprocres.render = some out ∧
      DeliveredOnce (fun r => r.payload ++ [newline]) procRes out.1 ∧
      DeliveredOnce (fun r => inverterResult ecuId (r.key ++ [nul]) (r.payload ++ [newline])) iprocres out.2 := by
  let start : Sender := ⟨procRes.render, List.replicate recordBuffer nul, List.replicate 4 nul, List.replicate 13 nul⟩
  have cleared : Zeroed (List.replicate recordBuffer nul) := fun b mem => List.eq_of_mem_replicate mem
  have stands : start.At procRes := ⟨rfl, cleared, rfl⟩
  let fuel := procRes.unsent.length + iprocres.unsent.length + 1
  have enough : procRes.unsent.length < fuel := by omega
  have enough' : iprocres.unsent.length < fuel := by omega
  obtain ⟨out, after, ran, delivers, ended, settled⟩ :=
    loop_delivers proResult_loop (sendSocket false) proSent stands enough 0
  let second : Sender := { after with dir := iprocres.render, data := memset after.data nul sizeofPointer }
  have stands' : second.At iprocres := ⟨rfl, settled.data.memset _, settled.item⟩
  obtain ⟨out', after', ran', delivers', ended', settled'⟩ :=
    loop_delivers (invProResult_loop ecuId) id invSent stands' enough' 0
  have left : ({ afterLoop start out with dir := iprocres.render } : Sender) = second := by
    rw [afterLoop, ended]
  have payloads : messageOf (q := .proResult) (fun _ data => cstr data) = fun r => r.payload ++ [newline] :=
    funext fun r => cstr_of_clean (payload_clean r)
  rw [payloads] at delivers
  refine ⟨fuel, (⟨out.1, deleteProResultFlag0 (afterLoop start out).dir⟩,
    ⟨out'.1, deleteInvProResultFlag0 (afterLoop second out').dir⟩), ?_, deliveredOnce_of delivers ended settled,
    deliveredOnce_of delivers' ended' settled'⟩
  rw [responseProcessResult]
  have first : Loop.run (Loop.fed proResultTurn proOutcomes) fuel (some start, 0) = some out := ran
  have later : Loop.run (Loop.fed (invProResultTurn ecuId) invOutcomes) fuel (some second, 0) = some out' := ran'
  dsimp only
  rw [first, Option.bind_some, left, later]
  rfl

/-- Two results of command 115, in the files of two days. -/
def twoResults : Store .proResult :=
  [(str "20240101.dat", [.blank, .record sampleResult]), (str "20240102.dat", [.blank, .record sampleResult])]

theorem results_delivered_sample :
    ∃ fuel out, responseProcessResult (str "203000000001") (fun _ => ⟨true, true⟩) (fun _ => ⟨false, true⟩) fuel
        twoResults.render (Store.render ([] : Store .invProResult)) = some out ∧
      DeliveredOnce (fun r => r.payload ++ [newline]) twoResults out.1 ∧
      DeliveredOnce (fun r => inverterResult (str "203000000001") (r.key ++ [nul]) (r.payload ++ [newline]))
        ([] : Store .invProResult) out.2 :=
  results_delivered (str "203000000001") twoResults [] (fun _ => rfl) (fun _ => rfl)

end Ecu.Forward
