import Ecu.Socket.Dispatch

/-!
# The first contact (`control_client.c`)

For A118 `first_time_info` gives six reports, one for each round of `communication_with_EMA`, and keeps its place in a
static variable. The rounds of one call and the calls of the thread, with whatever comes or fails to come in between,
are followed as one run (`Client`): where a round waits for a message, the place is the first (`Client.Rests`).
-/

namespace Ecu.Socket

/-! ## The calls -/

/-- The thread of the control client: outside `communication_with_EMA`, with the files and the place, or in it. -/
inductive Client (σ : Type) where
  | outside (files : σ) (commandId : Fin 6)
  | inside (s : State σ)

/-- What happens: the thread calls, with A118 if `/yuneng/A118.con` says so and with the memory it gets for the
buffer; or there is a connection, or none, for the next round. -/
inductive Moment where
  | calls (packaged : Bool) (recvBuffer : List Byte)
  | arrives (arrival : Arrival)

section Run

variable {σ : Type} (ecuId : List Byte) (beside : Beside) (call : Target → List Byte → σ → σ × Int)

/-- `communication_with_EMA` at its first round. -/
def calling (files : σ) (commandId : Fin 6) (packaged : Bool) (recvBuffer : List Byte) : State σ :=
  ⟨files, commandId, if packaged then 118 else 0, List.replicate 14 (digit 0), recvBuffer⟩

/-- After a round. -/
def Round.client (r : Round σ) : Client σ :=
  if r.returns then .outside r.after.files r.after.commandId else .inside r.after

/-- The rounds of all calls. -/
def clientRounds : Client σ → List Moment → List (Round σ)
  | _, [] => []
  | .outside files commandId, .calls packaged recvBuffer :: moments =>
    clientRounds (.inside (calling files commandId packaged recvBuffer)) moments
  | .outside files commandId, .arrives _ :: moments => clientRounds (.outside files commandId) moments
  | .inside s, .calls _ _ :: moments => clientRounds (.inside s) moments
  | .inside s, .arrives arrival :: moments =>
    round ecuId beside call s arrival :: clientRounds (round ecuId beside call s arrival).client moments

/-- Outside nothing arrives. -/
theorem clientRounds_outside (files : σ) (commandId : Fin 6) (arrivals : List Arrival) :
    clientRounds ecuId beside call (.outside files commandId) (arrivals.map .arrives) = [] := by
  induction arrivals with
  | nil => rfl
  | cons arrival arrivals ih => exact ih

/-- One call is a run of `communicationWithEMA`. -/
theorem clientRounds_call (s : State σ) (arrivals : List Arrival) :
    clientRounds ecuId beside call (.inside s) (arrivals.map .arrives) =
      communicationWithEMA ecuId beside call s arrivals := by
  induction arrivals generalizing s with
  | nil => rfl
  | cons arrival arrivals ih =>
    rw [List.map_cons, clientRounds, communicationWithEMA, Round.client]
    split_ifs with returns
    · rw [clientRounds_outside]
    · rw [ih]

/-! ## The reports -/

/-- The functions of the six commands. -/
def firstReports : List Function :=
  [.responseInverterId, .responseCommConfig, .responseInverterMaxpower, .readInverterIrd, .responseEcuAcProtection17,
    .readInverterAcProtection17]

/-- A118 has come from the EMA. -/
def Round.Packaged (r : Round σ) : Prop :=
  ∃ buffer ∈ r.received, msgFormatCheck ecuId buffer = 0 ∧ msgCmdId buffer = 118

/-- The next rounds give these reports one after the other, as far as there are rounds. No message comes in between,
and the last one ends the sequence. -/
def Reports : List Function → List (Round σ) → Prop
  | [], _ => True
  | _ :: _, [] => True
  | f :: reports, r :: rounds =>
    r.ran = [.function f] ∧ r.received = none ∧ (reports = [] → r.after.commandId.val = 0 ∧ r.after.nextCmdId = 0) ∧
      Reports reports rounds

/-- Each A118 runs the first of the reports, and the next five rounds run the others. -/
def FirstContact (rounds : List (Round σ)) : Prop :=
  ∀ before r later, rounds = before ++ r :: later → r.Packaged ecuId →
    r.ran = [.function .responseInverterId] ∧ Reports firstReports.tail later

end Run

/-! ## The place -/

/-- Either the sequence is at its beginning or the next round goes on with it. -/
def State.Rests {σ : Type} (s : State σ) : Prop :=
  s.commandId.val = 0 ∨ s.nextCmdId = 118

def Client.Rests {σ : Type} : Client σ → Prop
  | .outside _ commandId => commandId.val = 0
  | .inside s => s.Rests

section Place

variable {σ : Type} {ecuId : List Byte} {beside : Beside} {call : Target → List Byte → σ → σ × Int}

theorem calling_rests (files : σ) (packaged : Bool) (recvBuffer : List Byte) :
    (calling files 0 packaged recvBuffer).Rests :=
  .inl rfl

theorem pfun_firstTime (commandId : Fin 6) :
    pfun beside ((commandID (firstTime commandId) : Int).tmod 100) = some (.function (firstReports.get commandId)) := by
  fin_cases commandId <;> rfl

/-- A round for A118 in the sequence. -/
structure Goes (commandId : Fin 6) (r : Round σ) : Prop where
  ran : r.ran = [.function (firstReports.get commandId)]
  stays : r.returns = false
  next : (h : (commandId : Nat) + 1 < 6) → r.after.commandId = ⟨commandId + 1, h⟩ ∧ r.after.nextCmdId = 118
  last : ¬ (commandId : Nat) + 1 < 6 → r.after.commandId.val = 0 ∧ r.after.nextCmdId = 0

theorem perform_goes (received : Option (List Byte)) (recvBuffer : List Byte) (s : State σ) :
    Goes s.commandId (perform beside call received 118 recvBuffer s) := by
  have ran : (firstTimeInfo beside call recvBuffer
      { s with recvBuffer := recvBuffer, timestamp := (recvBuffer.drop 34).take 14 }).1 =
        [.function (firstReports.get s.commandId)] := by
    rw [firstTimeInfo_fst, pfun_firstTime]
    rfl
  rw [perform, if_pos rfl]
  refine ⟨ran, ?_, fun more => ?_, fun last => ?_⟩
  · rw [firstTimeInfo]
    split_ifs <;> rfl
  · rw [firstTimeInfo, dif_pos more]
    exact ⟨rfl, rfl⟩
  · rw [firstTimeInfo, dif_neg last]
    exact ⟨rfl, rfl⟩

/-- Any other command leaves the place alone. -/
theorem perform_commandId {cmdId : Int} (other : cmdId ≠ 118) (received : Option (List Byte)) (recvBuffer : List Byte)
    (s : State σ) : (perform beside call received cmdId recvBuffer s).after.commandId = s.commandId := by
  rw [perform, if_neg other]
  cases pfun beside (cmdId.tmod 100) <;> rfl

theorem Goes.rests {commandId : Fin 6} {r : Round σ} (goes : Goes commandId r) : r.client.Rests := by
  rw [Round.client, goes.stays]
  by_cases more : (commandId : Nat) + 1 < 6
  · exact .inr (goes.next more).2
  · exact .inl (goes.last more).1

/-- Where the place is the first it stays so, or A118 goes on. -/
theorem perform_rests {s : State σ} (first : s.commandId.val = 0) (received : Option (List Byte)) (cmdId : Int)
    (recvBuffer : List Byte) : (perform beside call received cmdId recvBuffer s).client.Rests := by
  by_cases packaged : cmdId = 118
  · rw [packaged]
    exact (perform_goes received recvBuffer s).rests
  · have same : (perform beside call received cmdId recvBuffer s).after.commandId = s.commandId :=
      perform_commandId packaged received recvBuffer s
    rw [Round.client]
    split_ifs with returns
    · exact (congrArg Fin.val same).trans first
    · exact .inl ((congrArg Fin.val same).trans first)

theorem round_next {s : State σ} (goes : s.nextCmdId = 118) (arrival : Arrival) :
    round ecuId beside call s arrival = perform beside call none 118 (nextMessage ecuId s)
      { s with nextCmdId := 0 } := by
  rw [round, goes, if_neg (by decide)]

/-- One round. -/
theorem round_rests {s : State σ} (rests : s.Rests) (arrival : Arrival) :
    (round ecuId beside call s arrival).client.Rests := by
  rcases rests with first | goes
  · rw [round]
    split_ifs with waits
    · cases receiveMessage s.recvBuffer arrival with
      | none => exact first
      | some recvBuffer =>
        dsimp only
        split_ifs
        · exact .inl first
        · exact perform_rests first (some recvBuffer) (msgCmdId recvBuffer) recvBuffer
    · exact @perform_rests σ beside call { s with nextCmdId := 0 } first none s.nextCmdId (nextMessage ecuId s)
  · rw [round_next goes]
    exact (perform_goes none (nextMessage ecuId s) { s with nextCmdId := 0 }).rests

/-! ## The sequence -/

/-- From its place on the sequence runs to its end. -/
theorem reports_from {s : State σ} (goes : s.nextCmdId = 118) (moments : List Moment) :
    Reports (firstReports.drop s.commandId) (clientRounds ecuId beside call (.inside s) moments) := by
  induction moments generalizing s with
  | nil =>
    cases firstReports.drop s.commandId <;> trivial
  | cons moment moments ih =>
    cases moment with
    | calls packaged recvBuffer => exact ih goes
    | arrives arrival =>
      have inRange : (s.commandId : Nat) < firstReports.length := s.commandId.isLt
      have step : Goes s.commandId (round ecuId beside call s arrival) := by
        rw [round_next goes]
        exact perform_goes none _ { s with nextCmdId := 0 }
      have alone : (round ecuId beside call s arrival).received = none := by
        rw [round_next goes, perform_received]
      rw [clientRounds, Round.client, step.stays, List.drop_eq_getElem_cons inRange]
      by_cases more : (s.commandId : Nat) + 1 < 6
      · have rest := ih (step.next more).2
        rw [(step.next more).1] at rest
        refine ⟨step.ran, alone, fun none => ?_, rest⟩
        exact absurd (List.drop_eq_nil_iff.1 none) (Nat.not_le.2 more)
      · rw [List.drop_of_length_le (Nat.le_of_not_lt more)]
        exact ⟨step.ran, alone, fun _ => step.last more, trivial⟩

/-- A118 comes where the place is the first. -/
theorem round_packaged {s : State σ} (rests : s.Rests) {arrival : Arrival}
    (packaged : (round ecuId beside call s arrival).Packaged ecuId) (moments : List Moment) :
    (round ecuId beside call s arrival).ran = [.function .responseInverterId] ∧
      Reports firstReports.tail (clientRounds ecuId beside call (round ecuId beside call s arrival).client
        moments) := by
  obtain ⟨buffer, received, passed, number⟩ := packaged
  have waits : s.nextCmdId ≤ 0 := by
    by_contra asks
    rw [round, if_neg asks, perform_received] at received
    cases received
  have first : s.commandId = 0 := by
    rcases rests with first | goes
    · exact Fin.ext first
    · omega
  have same : round ecuId beside call s arrival = perform beside call (some buffer) 118 buffer s := by
    rw [round, if_pos waits] at received ⊢
    cases arrived : receiveMessage s.recvBuffer arrival with
    | none =>
      rw [arrived] at received
      cases received
    | some recvBuffer =>
      rw [arrived] at received
      dsimp only at received ⊢
      split_ifs at received ⊢ with refused
      · cases received
        omega
      · rw [perform_received] at received
        cases received
        rw [number]
  have step : Goes 0 (round ecuId beside call s arrival) := by
    rw [same, ← first]
    exact perform_goes (some buffer) buffer s
  have next := step.next (by decide)
  have rest : Reports (firstReports.drop (round ecuId beside call s arrival).after.commandId)
      (clientRounds ecuId beside call (.inside (round ecuId beside call s arrival).after) moments) :=
    reports_from next.2 moments
  rw [next.1] at rest
  rw [Round.client, step.stays]
  exact ⟨step.ran, rest⟩

/-- For `/yuneng/A118.con` the call begins with the sequence. -/
theorem packagedCall_reports (files : σ) (recvBuffer : List Byte) (moments : List Moment) :
    Reports firstReports (clientRounds ecuId beside call (.outside files 0) (.calls true recvBuffer :: moments)) :=
  @reports_from σ ecuId beside call (calling files 0 true recvBuffer) rfl moments

/-- Where the sequence is at its beginning or goes on, every A118 that comes is answered from the first report on. -/
theorem firstContact_from {client : Client σ} (rests : client.Rests) (moments : List Moment) :
    FirstContact ecuId (clientRounds ecuId beside call client moments) := by
  induction moments generalizing client with
  | nil =>
    intro before r later none
    exact absurd none.symm (List.append_ne_nil_of_right_ne_nil before (List.cons_ne_nil r later))
  | cons moment moments ih =>
    cases client with
    | outside files commandId =>
      cases moment with
      | calls packaged recvBuffer =>
        obtain rfl : commandId = 0 := Fin.ext rests
        exact ih (calling_rests files packaged recvBuffer)
      | arrives arrival => exact ih rests
    | inside s =>
      cases moment with
      | calls packaged recvBuffer => exact ih rests
      | arrives arrival =>
        intro before r later whole packaged
        rw [clientRounds] at whole
        cases before with
        | nil =>
          obtain ⟨rfl, rfl⟩ := List.cons.inj whole
          exact round_packaged rests packaged moments
        | cons other before =>
          obtain ⟨-, rest⟩ := List.cons.inj whole
          exact ih (round_rests rests arrival) before r later rest packaged

end Place

/-- **First contact**: in every run of the thread, whatever connections fail and whatever comes or does not come, each
A118 from the EMA is answered from A102 on, and the next five rounds give the other five reports in their order. -/
theorem first_contact {σ : Type} (ecuId : List Byte) (beside : Beside)
    (call : Target → List Byte → σ → σ × Int) (files : σ)
    (moments : List Moment) : FirstContact ecuId (clientRounds ecuId beside call (.outside files 0) moments) :=
  firstContact_from (show Client.Rests (.outside files 0) from rfl) moments

end Ecu.Socket
