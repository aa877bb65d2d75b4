import Ecu.Poll.Query
import Ecu.Zigbee.Builders

/-!
# Short addresses (`bind_inverters.c`, `zigbee.c`)

Three functions take the short address of an inverter from an answer of the module. Two of them look at its length. The
third, `getshortadd`, parses the buffer of `bind_inverters` whatever has come in, so that what is left of an earlier
answer counts as part of a short one. Every address that is set comes from a complete answer of the inverter exactly if
the answers that `getshortadd` parses are complete or name no inverter (`short_addresses_iff`).

The table is the part of the array before the first entry without an id.
-/

namespace Ecu.Zigbee

open Poll

/-! ## Answers -/

/-- The id that an answer names. -/
def idIn (data : List Byte) : List Byte :=
  hexText ((data.drop 4).take 6)

/-- `data[0]*256 + data[1]` -/
def addressIn (data : List Byte) : Nat :=
  byteAt data 0 * 256 + byteAt data 1

/-- The function that parses an answer, and which inverter it has asked: `zb_get_inverter_shortaddress_single`,
`getaddrOldOrNew` or `getshortadd`. -/
inductive Query where
  | single (i : Nat)
  | oldOrNew (id : List Byte)
  | order11
deriving DecidableEq

/-- An answer when it is parsed: the table, and what the buffer of `bind_inverters` held before. -/
structure Message where
  query : Query
  table : List InverterInfo
  left : List Byte
  reply : List Byte
deriving DecidableEq

namespace Message

/-- The buffer of `bind_inverters` with the answer in front. -/
def buffer (m : Message) : List Byte :=
  m.reply ++ m.left.drop m.reply.length

/-- The addresses that are set, each with the place of its inverter in the table. -/
def assignments (m : Message) : List (Nat × Nat) :=
  match m.query with
  | .single i =>
    if m.reply.length = 11 ∧ byteAt m.reply 2 = 0xFF ∧ ∃ x ∈ m.table[i]?,
      cstr x.id = idIn m.reply then [(i, addressIn m.reply)]
    else []
  | .oldOrNew id =>
    if m.reply.length = 11 ∧ byteAt m.reply 2 = 0xFF ∧ byteAt m.reply 3 = 0xFF ∧ cstr id = idIn m.reply then
      (m.table.findIdx? fun x => cstr x.id = cstr id).toList.map fun i => (i, addressIn m.reply)
    else []
  | .order11 =>
    ((List.range m.table.length).filter fun i => ∃ x ∈ m.table[i]?, cstr x.id = idIn m.buffer).map fun i =>
      (i, addressIn m.buffer)

/-- Every address that is set, but 0, is that of a complete answer with the id of its inverter. -/
def Own (m : Message) : Prop :=
  ∀ i v, (i, v) ∈ m.assignments → v ≠ 0 →
    m.reply.length = 11 ∧ (∃ x ∈ m.table[i]?, cstr x.id = idIn m.reply) ∧ v = addressIn m.reply

/-- What `getshortadd` parses is a complete answer, or with what is left in the buffer it names no inverter or
the address 0. -/
def Complete (m : Message) : Prop :=
  m.query = .order11 → m.reply.length = 11 ∨ addressIn m.buffer = 0 ∨ ∀ x ∈ m.table, cstr x.id ≠ idIn m.buffer

end Message

/-! ## Binding -/

structure State where
  table : List InverterInfo
  /-- `recvbuff` of `bind_inverters` -/
  recvbuff : List Byte
  /-- What the module answers from here on; `none` is a timeout. -/
  replies : List (Option (List Byte))
  /-- The answers that have been parsed for an address. -/
  parsed : List Message := []

namespace State

def receive (s : State) : Option (List Byte) × State :=
  (s.replies.headD none, { s with replies := s.replies.tail })

def setShortaddr (i v : Nat) (table : List InverterInfo) : List InverterInfo :=
  table.modify i fun x => { x with shortaddr := v }

/-- An answer is parsed and the addresses are set. -/
def parse (query : Query) (reply : List Byte) (s : State) : State :=
  let m : Message := ⟨query, s.table, s.recvbuff, reply⟩
  { s with
    table := m.assignments.foldl (fun table a => setShortaddr a.1 a.2 table) s.table
    recvbuff := if query = .order11 then m.buffer else s.recvbuff
    parsed := s.parsed ++ [m] }

/-- `zb_get_inverter_shortaddress_single(&inverter[i])` -/
def getInverterShortaddressSingle (i : Nat) (s : State) : State :=
  let (reply, s) := s.receive
  match reply with
  | none => s
  | some data => s.parse (.single i) data

/-- `getaddrOldOrNew(id)`; an inverter that answers from the PAN it was bound in is marked. -/
def getaddrOldOrNew (id : List Byte) (s : State) : Bool × State :=
  let (reply, s) := s.receive
  match reply with
  | none => (false, s)
  | some recvMsg =>
    let parsed := s.parse (.oldOrNew id) recvMsg
    if recvMsg.length = 11 ∧ byteAt recvMsg 2 = 0xFF ∧ byteAt recvMsg 3 = 0xFF ∧ cstr id =
      idIn recvMsg then (true, parsed)
    else if recvMsg.length = 11 ∧ cstr id = idIn recvMsg then
      (true, { parsed with
        table := match parsed.table.findIdx? fun x => cstr x.id = idIn recvMsg with
          | none => parsed.table
          | some i => parsed.table.modify i fun x => { x with zigbeeVersion := byteAt recvMsg 3, bindflag := 1 } })
    else (false, parsed)

/-- The answers to `zb_off_report_id_and_bind`. -/
def offReportIdAndBind : Nat → State → Bool × State
  | 0, s => (false, s)
  | times + 1, s =>
    let (reply, s) := s.receive
    if Bound reply then (true, s) else offReportIdAndBind times s

/-- A loop over the table. -/
def forEach (body : InverterInfo → Nat → State → State) (s : State) : State :=
  (List.range s.table.length).foldl (fun s i => match s.table[i]? with
    | none => s
    | some x => body x i s) s

/-- An inverter that cannot be bound loses its address. -/
def bindKnown (x : InverterInfo) (i : Nat) (s : State) : State :=
  if x.shortaddr ≠ 0 ∧ x.bindflag = 0 then
    let (bound, s) := s.offReportIdAndBind 3
    if bound then s else { s with table := setShortaddr i 0 s.table }
  else s

/-- Up to three times `getaddrOldOrNew` -/
def tryOldOrNew (id : List Byte) : Nat → State → State
  | 0, s => s
  | k + 1, s =>
    let (found, s) := s.getaddrOldOrNew id
    if found then s else tryOldOrNew id k s

def askUnbound (x : InverterInfo) (_ : Nat) (s : State) : State :=
  if x.shortaddr = 0 ∧ x.bindflag = 0 then tryOldOrNew x.id 3 s else s

/-- The rounds that ask the inverters without an address, as long as there are any. -/
def oldRounds : Nat → State → State
  | 0, s => s
  | i + 1, s =>
    if ∃ x ∈ s.table, x.shortaddr = 0 ∧ x.bindflag = 0 then oldRounds i (s.forEach askUnbound) else s

/-- `send11order` and what is read after it -/
def changePanid (x : InverterInfo) (_ : Nat) (s : State) : State :=
  if x.shortaddr = 0 then
    let (reply, s) := s.receive
    match reply with
    | none => s
    | some data => s.parse .order11 data
  else s

/-- `bind_inverters`, from the loop over the inverters with an address on; the answer to
`zb_restore_ecu_panid_0xffff` is not looked at. -/
def bindInverters (s : State) : State :=
  let s := s.forEach bindKnown
  if ∃ x ∈ s.table, x.shortaddr = 0 then
    let s := oldRounds 5 s.receive.2
    let s := ((s.forEach changePanid).forEach changePanid).forEach changePanid
    { s with table := s.table.map fun x => { x with bindflag := 0 } }
  else s

/-- A call: the buffer of `bind_inverters` begins with anything. -/
inductive Call where
  | bindInverters (recvbuff : List Byte)
  | getInverterShortaddressSingle (i : Nat)

def call (s : State) : Call → State
  | .bindInverters recvbuff => { s with recvbuff := recvbuff }.bindInverters
  | .getInverterShortaddressSingle i => s.getInverterShortaddressSingle i

def run (s : State) (calls : List Call) : State :=
  calls.foldl call s

end State

/-! ## Parsing -/

/-- The first ten bytes of a complete answer are all that is looked at. -/
theorem buffer_complete {m : Message} (complete : m.reply.length = 11) :
    idIn m.buffer = idIn m.reply ∧ addressIn m.buffer = addressIn m.reply := by
  constructor
  · unfold idIn Message.buffer
    rw [List.drop_append_of_le_length (by omega), List.take_append_of_le_length (by rw [List.length_drop]; omega)]
  · unfold addressIn byteAt Message.buffer
    rw [List.getD_append _ _ _ _ (by omega), List.getD_append _ _ _ _ (by omega)]

theorem findIdx_id {table : List InverterInfo} {id : List Byte} {i : Nat}
    (found : (table.findIdx? fun x => decide (cstr x.id = cstr id)) = some i) :
      ∃ x ∈ table[i]?, cstr x.id = cstr id := by
  obtain ⟨inside, here, -⟩ := List.findIdx?_eq_some_iff_getElem.1 found
  exact ⟨table[i], List.getElem?_eq_getElem inside, of_decide_eq_true here⟩

namespace Message

theorem own_iff (m : Message) : m.Own ↔ m.Complete := by
  obtain ⟨query, table, left, reply⟩ := m
  cases query with
  | single i =>
    refine iff_of_true ?_ nofun
    intro j v mem _
    simp only [assignments] at mem
    split_ifs at mem with matched
    · obtain ⟨rfl, rfl⟩ := Prod.mk.inj (List.mem_singleton.1 mem)
      exact ⟨matched.1, matched.2.2, rfl⟩
    · cases mem
  | oldOrNew id =>
    refine iff_of_true ?_ nofun
    intro j v mem _
    simp only [assignments] at mem
    split_ifs at mem with matched
    · obtain ⟨i, found, same⟩ := List.mem_map.1 mem
      obtain ⟨rfl, rfl⟩ := Prod.mk.inj same
      obtain ⟨x, there, own⟩ := findIdx_id (Option.mem_toList.1 found)
      exact ⟨matched.1, ⟨x, there, own.trans matched.2.2.2⟩, rfl⟩
    · cases mem
  | order11 =>
    have assigned (i v : Nat) : (i, v) ∈ (Message.mk .order11 table left reply).assignments ↔
        (∃ x ∈ table[i]?, cstr x.id = idIn (Message.mk .order11 table left reply).buffer) ∧
          v = addressIn (Message.mk .order11 table left reply).buffer := by
      simp only [assignments, List.mem_map, List.mem_filter, List.mem_range, decide_eq_true_eq, Prod.mk.injEq]
      constructor
      · rintro ⟨j, ⟨-, named⟩, rfl, rfl⟩
        exact ⟨named, rfl⟩
      · rintro ⟨named, rfl⟩
        have inside : i < table.length := by
          obtain ⟨x, there, -⟩ := named
          exact (List.getElem?_eq_some_iff.1 there).1
        exact ⟨i, ⟨inside, named⟩, rfl, rfl⟩
    constructor
    · intro own _
      by_contra incomplete
      push Not at incomplete
      obtain ⟨short, address, x, mem, named⟩ := incomplete
      obtain ⟨i, inside, here⟩ := List.getElem_of_mem mem
      have there : x ∈ table[i]? := by rw [List.getElem?_eq_getElem inside, here]; rfl
      exact short (own i _ ((assigned i _).2 ⟨⟨x, there, named⟩, rfl⟩) address).1
    · intro complete i v mem some
      obtain ⟨⟨x, there, named⟩, rfl⟩ := (assigned i v).1 mem
      rcases complete rfl with whole | none | foreign
      · have same := buffer_complete (m := ⟨.order11, table, left, reply⟩) whole
        rw [same.1] at named
        exact ⟨whole, ⟨x, there, named⟩, same.2⟩
      · exact absurd none some
      · exact absurd named (foreign x (List.mem_of_getElem? there))

end Message

/-! ## Runs -/

namespace State

/-- What the steps of the calls keep. -/
structure Kept (P : State → Prop) : Prop where
  receive : ∀ s, P s → P s.receive.2
  parse : ∀ query reply s, P s → P (s.parse query reply)
  reset : ∀ i s, P s → P { s with table := setShortaddr i 0 s.table }
  mark : ∀ i version s, P s → P { s with
    table := s.table.modify i fun x => { x with zigbeeVersion := version, bindflag := 1 } }
  unmark : ∀ s, P s → P { s with table := s.table.map fun x => { x with bindflag := 0 } }
  start : ∀ recvbuff s, P s → P { s with recvbuff := recvbuff }

section Kept

variable {P : State → Prop} (kept : Kept P) {s : State}

include kept

theorem kept_single (i : Nat) (holds : P s) : P (s.getInverterShortaddressSingle i) := by
  unfold getInverterShortaddressSingle
  dsimp only
  split
  · exact kept.receive s holds
  · exact kept.parse _ _ _ (kept.receive s holds)

theorem kept_oldOrNew (id : List Byte) (holds : P s) : P (s.getaddrOldOrNew id).2 := by
  have received := kept.receive s holds
  unfold getaddrOldOrNew
  dsimp only
  split
  · exact received
  · rename_i recvMsg _
    have parsed := kept.parse (.oldOrNew id) recvMsg _ received
    split_ifs
    · exact parsed
    · dsimp only
      split
      · exact parsed
      · exact kept.mark _ _ _ parsed
    · exact parsed

theorem kept_offReport (times : Nat) (holds : P s) : P (s.offReportIdAndBind times).2 := by
  induction times generalizing s with
  | zero => exact holds
  | succ times ih =>
    unfold offReportIdAndBind
    dsimp only
    split_ifs
    · exact kept.receive s holds
    · exact ih (kept.receive s holds)

omit kept in
theorem kept_forEach {body : InverterInfo → Nat → State → State} (each : ∀ x i s, P s → P (body x i s)) (holds : P s) :
    P (s.forEach body) := by
  unfold forEach
  generalize List.range s.table.length = indices
  induction indices generalizing s with
  | nil => exact holds
  | cons i indices ih =>
    refine ih ?_
    dsimp only
    split
    · exact holds
    · exact each _ _ _ holds

theorem kept_tryOldOrNew (id : List Byte) (k : Nat) (holds : P s) : P (tryOldOrNew id k s) := by
  induction k generalizing s with
  | zero => exact holds
  | succ k ih =>
    have asked := kept_oldOrNew kept id holds
    unfold tryOldOrNew
    dsimp only
    split_ifs
    · exact asked
    · exact ih asked

theorem kept_oldRounds (rounds : Nat) (holds : P s) : P (oldRounds rounds s) := by
  induction rounds generalizing s with
  | zero => exact holds
  | succ rounds ih =>
    unfold oldRounds
    split_ifs
    · refine ih (kept_forEach (fun x i s holds => ?_) holds)
      unfold askUnbound
      split_ifs
      · exact kept_tryOldOrNew kept x.id 3 holds
      · exact holds
    · exact holds

theorem kept_bindInverters (holds : P s) : P s.bindInverters := by
  have bind (x : InverterInfo) (i : Nat) (s : State) (holds : P s) : P (bindKnown x i s) := by
    unfold bindKnown
    split_ifs
    · have answered := kept_offReport kept 3 holds
      dsimp only
      split_ifs
      · exact answered
      · exact kept.reset i _ answered
    · exact holds
  have change (x : InverterInfo) (i : Nat) (s : State) (holds : P s) : P (changePanid x i s) := by
    unfold changePanid
    split_ifs
    · dsimp only
      split
      · exact kept.receive s holds
      · exact kept.parse _ _ _ (kept.receive s holds)
    · exact holds
  have known := kept_forEach bind holds
  unfold bindInverters
  dsimp only
  split_ifs
  · have asked := kept_oldRounds kept 5 (kept.receive _ known)
    exact kept.unmark _ (kept_forEach change (kept_forEach change (kept_forEach change asked)))
  · exact known

theorem kept_run (calls : List Call) (holds : P s) : P (s.run calls) := by
  induction calls generalizing s with
  | nil => exact holds
  | cons c calls ih =>
    refine ih ?_
    cases c with
    | bindInverters recvbuff => exact kept_bindInverters kept (kept.start recvbuff s holds)
    | getInverterShortaddressSingle i => exact kept_single kept i holds

end Kept

/-- An address is 0, or has been there from the beginning, or is set from an answer that has been parsed. -/
def Explained (first : List InverterInfo) (s : State) : Prop :=
  ∀ i, ∀ x ∈ s.table[i]?, x.shortaddr ≠ 0 →
    (∃ y ∈ first[i]?, y.shortaddr = x.shortaddr) ∨ ∃ m ∈ s.parsed, (i, x.shortaddr) ∈ m.assignments

/-- An entry after a change of the table that keeps the addresses. -/
theorem Explained.congr {first : List InverterInfo} {s : State} (explained : Explained first s)
    {table : List InverterInfo}
    (same : ∀ (i : Nat) (x : InverterInfo), x ∈ table[i]? → x.shortaddr ≠ 0 → ∃ y ∈ s.table[i]?,
      y.shortaddr = x.shortaddr) :
    Explained first { s with table := table } := by
  intro i x mem some
  obtain ⟨y, there, address⟩ := same i x mem some
  rw [← address] at some ⊢
  exact explained i y there some

theorem mem_setShortaddr {table : List InverterInfo} {i j v : Nat} {x : InverterInfo}
    (mem : x ∈ (setShortaddr j v table)[i]?) :
    i = j ∧ x.shortaddr = v ∨ x ∈ table[i]? := by
  rw [setShortaddr, List.getElem?_modify] at mem
  by_cases here : j = i
  · subst here
    simp only [if_true] at mem
    obtain ⟨y, -, rfl⟩ := Option.map_eq_some_iff.1 mem
    exact .inl ⟨rfl, rfl⟩
  · simp only [here, if_false] at mem
    exact .inr (by simpa using mem)

theorem mem_setAll {assignments : List (Nat × Nat)} {table : List InverterInfo} {i : Nat} {x : InverterInfo}
    (mem : x ∈ (assignments.foldl (fun table a => setShortaddr a.1 a.2 table) table)[i]?) :
    (i, x.shortaddr) ∈ assignments ∨ x ∈ table[i]? := by
  induction assignments generalizing table with
  | nil => exact .inr mem
  | cons a assignments ih =>
    rcases ih mem with later | mem
    · exact .inl (List.mem_cons_of_mem a later)
    · rcases mem_setShortaddr mem with ⟨rfl, address⟩ | mem
      · rw [address]
        exact .inl List.mem_cons_self
      · exact .inr mem

theorem kept_explained (first : List InverterInfo) : Kept (Explained first) where
  receive _ explained := explained
  start _ _ explained := explained
  parse query reply s explained := by
    intro i x mem some
    rcases mem_setAll mem with set | mem
    · exact .inr ⟨_, List.mem_append_right _ List.mem_cons_self, set⟩
    · rcases explained i x mem some with first | ⟨m, parsed, set⟩
      · exact .inl first
      · exact .inr ⟨m, List.mem_append_left _ parsed, set⟩
  reset j s explained := by
    refine Explained.congr explained fun i x mem some => ?_
    rcases mem_setShortaddr mem with ⟨-, address⟩ | mem
    · exact absurd address some
    · exact ⟨x, mem, rfl⟩
  mark j version s explained := by
    refine Explained.congr explained fun i x mem _ => ?_
    rw [List.getElem?_modify] at mem
    obtain ⟨y, there, rfl⟩ := Option.map_eq_some_iff.1 mem
    refine ⟨y, there, ?_⟩
    split_ifs <;> rfl
  unmark s explained := by
    refine Explained.congr explained fun i x mem _ => ?_
    rw [List.getElem?_map] at mem
    obtain ⟨y, there, rfl⟩ := Option.map_eq_some_iff.1 mem
    exact ⟨y, there, rfl⟩

end State

/-- In every run each address that is set comes from a complete answer of its inverter exactly if `getshortadd` parses
such answers only, or such as name no inverter; and every address that was not there before has been set. -/
theorem short_addresses_iff (table : List InverterInfo) (recvbuff : List Byte) (replies : List (Option (List Byte)))
    (calls : List State.Call) :
    let after := ({ table := table, recvbuff := recvbuff, replies := replies : State }).run calls
    ((∀ m ∈ after.parsed, m.Own) ↔ ∀ m ∈ after.parsed, m.Complete) ∧ State.Explained table after := by
  intro after
  refine ⟨forall₂_congr fun m _ => m.own_iff, ?_⟩
  exact State.kept_run (State.kept_explained table) calls fun i x mem _ => .inl ⟨x, mem, rfl⟩

/-- The second answer to `send11order` is cut after two bytes: its address goes to the inverter of the first. -/
theorem address_of_another :
    ¬ ∀ (table : List InverterInfo) (recvbuff : List Byte) (replies : List (Option (List Byte)))
      (calls : List State.Call),
      ∀ m ∈ (({ table := table, recvbuff := recvbuff, replies := replies : State }).run calls).parsed, m.Own := by
  intro claim
  have own := claim [{ id := str "201703150001", model := 0, shortaddr := 0 },
    { id := str "201703150002", model := 0, shortaddr := 0 }]
    [] (List.replicate 31 none ++ [some [0x01, 0x02, 0, 0, 0x20, 0x17, 0x03, 0x15, 0x00, 0x01, 0], some [0x77, 0x88]])
    [.bindInverters []]
  generalize parsed : State.parsed _ = messages at own
  have stale : ∃ m ∈ messages, m.reply.length = 2 ∧ (0, 0x7788) ∈ m.assignments := by
    rw [← parsed]
    decide +kernel
  obtain ⟨m, mem, short, set⟩ := stale
  obtain ⟨whole, -⟩ := own m mem 0 0x7788 set (by decide)
  omega

end Ecu.Zigbee
