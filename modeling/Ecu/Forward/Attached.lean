import Ecu.Config.Comm
import Ecu.Forward.Wire
import Ecu.Socket.Dispatch

/-!
# Commands behind an answer (`control_client.c`)

The EMA may put a command behind its answer to a status. `response_inverter_abnormal_status` carries it out with a
dispatcher of its own, where `communication_with_EMA` carries out the same message in a round (`Socket.round`). Both
call the functions of the table; what these do with the files is left open (`Handlers`), but not what they read of a
message nor what they return.
-/

namespace Ecu.Forward

open Socket Config

/-! ## The functions -/

/-- The functions that report. -/
def isReport : Function → Bool
  | .responseInverterId | .responseCommConfig | .responseInverterMaxpower | .readInverterIrd |
    .responseEcuAcProtection17
  | .readInverterAcProtection17 | .responseInverterPowerFactor => true
  | _ => false

/-- The next command that a function returns. -/
def nextCommand (recvbuffer : List Byte) : Function → Int
  | .setInverterId => 102
  | .setCommConfig => 106
  | .setInverterAcProtection17 => if msgGetInt (recvbuffer.drop 44) 3 = 0 then 130 else 0
  | .setEcuFlag => -1
  | .customCommand =>
    match beforeEnd (cstr (recvbuffer.drop 47)) with
    | some command => if command ≠ [] ∧ sameChars command (str "quit") 4 then -1 else 0
    | none => 0
  | _ => 0

/-- What the functions do with the files, and their answers. A report reads the time in the message
and no more of it. -/
structure Handlers (σ : Type) where
  report : Function → List Byte → σ → σ × List Byte
  set : Function → List Byte → σ → σ × List Byte
  stray : Nat → List Byte → σ → σ × List Byte × Int

/-- The files, the calls with their messages, and the answers. -/
structure Effects (σ : Type) where
  files : σ
  ran : List (Option Socket.Target × List Byte)
  answers : List (List Byte)

variable {σ : Type} (ecuId : List Byte) (beside : Beside) (handlers : Handlers σ)

/-- `(*pfun[i])(recvbuffer, sendbuffer)` -/
def Handlers.call (target : Socket.Target) (recvbuffer : List Byte) (e : Effects σ) : Effects σ × Int :=
  let out : σ × List Byte × Int :=
    match target with
    | .function f =>
      let done :=
        if isReport f then handlers.report f ((cstr (recvbuffer.drop 34)).take 14) e.files
        else handlers.set f recvbuffer e.files
      (done.1, done.2, nextCommand recvbuffer f)
    | .stray word => handlers.stray word recvbuffer e.files
  (⟨out.1, e.ran ++ [(some target, recvbuffer)], e.answers ++ [out.2.1]⟩, out.2.2)

/-! ## Behind an answer -/

/-- What is done with the command, and the times that A118 is acknowledged with. -/
structure Carried (σ : Type) where
  effects : Effects σ
  acks : List (List Byte)

/-- The request is printed to `recv_buffer`, but the function gets `command`, of which the length of
a pointer is cleared. -/
def carryNext (command : List Byte) (nextCmdId : Int) (e : Effects σ) : Effects σ :=
  let command := List.replicate sizeofPointer nul ++ command.drop sizeofPointer
  match pfun beside (nextCmdId.tmod 100) with
  | some target => (handlers.call target command e).1
  | none => { e with ran := e.ran ++ [(none, command)] }

/-- The command is carried out. A118 is left for later in `/yuneng/A118.con`. -/
def carryOut (recvBuffer command : List Byte) (e : Effects σ) : Carried σ :=
  let cmdId := msgCmdId command
  if cmdId = 118 then ⟨e, [strncpy (recvBuffer.drop 72) 14]⟩
  else
    match pfun beside (cmdId.tmod 100) with
    | none => ⟨e, []⟩
    | some target =>
      let out := handlers.call target command e
      ⟨if 0 < out.2 then carryNext beside handlers command out.2 out.1 else out.1, []⟩

/-- An answer, with the command in it if there is one. -/
def carryAttached (recvBuffer : List Byte) (e : Effects σ) : Carried σ :=
  match attachedCommand recvBuffer with
  | none => ⟨e, []⟩
  | some taken =>
    let command := taken ++ [nul]
    if msgFormatCheck ecuId command < 0 then ⟨e, []⟩ else carryOut beside handlers recvBuffer command e

/-! ## The same message by itself -/

/-- The rounds from a message to the next one that comes. -/
def untilNext {τ : Type} : List (Round τ) → List (Round τ)
  | [] => []
  | first :: later => first :: later.takeWhile fun r => r.received.isNone

/-- What `communication_with_EMA` does for the first message. -/
def directEffects (s : State (Effects σ)) (arrivals : List Arrival) : Effects σ :=
  ((untilNext (communicationWithEMA ecuId beside handlers.call s arrivals)).getLast?.map fun r =>
    r.after.files).getD s.files

/-- The command does behind an answer what it does by itself, and A118 is acknowledged with the time in it. -/
structure AsDirect (recvBuffer command : List Byte) (s : State (Effects σ)) (arrivals : List Arrival) : Prop where
  effects : msgCmdId command ≠ 118 →
    (carryAttached ecuId beside handlers recvBuffer s.files).effects = directEffects ecuId beside handlers s arrivals
  acks : msgCmdId command = 118 →
    (carryAttached ecuId beside handlers recvBuffer s.files).acks = [strncpy (command.drop 34) 14]

/-- The functions that have a report follow them: A103, A107, and A132 for all inverters. -/
def ReportFollows (recvbuffer : List Byte) (files : σ) : Socket.Target → Prop
  | .function f => f = .setInverterId ∨ f = .setCommConfig ∨
      f = .setInverterAcProtection17 ∧ msgGetInt (recvbuffer.drop 44) 3 = 0
  | .stray word => 0 < (handlers.stray word recvbuffer files).2.2

/-- The function of this message is one of them. -/
def Follows (recvbuffer : List Byte) (files : σ) : Prop :=
  ∃ target ∈ pfun beside ((msgCmdId recvbuffer).tmod 100), ReportFollows handlers recvbuffer files target

/-- The characters at the 72nd place are those of the time in the command. -/
def OwnTime (recvBuffer command : List Byte) : Prop :=
  strncpy (recvBuffer.drop 72) 14 = strncpy (command.drop 34) 14

/-! ## What follows -/

variable {ecuId beside handlers}

theorem nextCommand_pos_iff (recvbuffer : List Byte) (f : Function) : 0 < nextCommand recvbuffer f ↔
    f = .setInverterId ∨ f = .setCommConfig ∨ f = .setInverterAcProtection17 ∧
      msgGetInt (recvbuffer.drop 44) 3 = 0 := by
  cases f with
  | setInverterAcProtection17 =>
    rw [nextCommand]
    split_ifs with all
    · simp [all]
    · simp [all]
  | customCommand =>
    rw [nextCommand]
    cases beforeEnd (cstr (recvbuffer.drop 47)) with
    | none => simp
    | some command =>
      dsimp only
      split_ifs <;> simp
  | _ => simp [nextCommand]

theorem call_follows_iff (target : Socket.Target) (recvbuffer : List Byte) (e : Effects σ) :
    0 < (handlers.call target recvbuffer e).2 ↔ ReportFollows handlers recvbuffer e.files target := by
  cases target with
  | function f => exact nextCommand_pos_iff recvbuffer f
  | stray word => exact Iff.rfl

theorem call_ran (target : Socket.Target) (recvbuffer : List Byte) (e : Effects σ) :
    (handlers.call target recvbuffer e).1.ran = e.ran ++ [(some target, recvbuffer)] :=
  rfl

/-- The function that follows gets a message that begins with a NUL. -/
theorem carryNext_ran (command : List Byte) (nextCmdId : Int) (e : Effects σ) :
    ∃ entry, (carryNext beside handlers command nextCmdId e).ran = e.ran ++ [entry] ∧ entry.2.head? = some nul := by
  rw [carryNext]
  cases pfun beside (nextCmdId.tmod 100) with
  | none => exact ⟨_, rfl, rfl⟩
  | some target => exact ⟨_, call_ran target _ e, rfl⟩

/-! ## Rounds -/

/-- Entries were added to the calls, all of them with messages of this kind. -/
def Adds (kind : List Byte → Prop) (e later : Effects σ) : Prop :=
  ∃ more, later.ran = e.ran ++ more ∧ ∀ entry ∈ more, kind entry.2

theorem Adds.refl {kind : List Byte → Prop} (e : Effects σ) : Adds kind e e :=
  ⟨[], (List.append_nil _).symm, fun _ mem => absurd mem List.not_mem_nil⟩

theorem Adds.trans {kind : List Byte → Prop} {first second third : Effects σ} (one : Adds kind first second)
    (two : Adds kind second third) : Adds kind first third := by
  obtain ⟨more, ran, kinds⟩ := one
  obtain ⟨later, ran', kinds'⟩ := two
  refine ⟨more ++ later, by rw [ran', ran, List.append_assoc], fun entry mem => ?_⟩
  rcases List.mem_append.1 mem with early | late
  · exact kinds entry early
  · exact kinds' entry late

theorem call_adds {kind : List Byte → Prop} {recvbuffer : List Byte} (own : kind recvbuffer) (target : Socket.Target)
    (e : Effects σ) : Adds kind e (handlers.call target recvbuffer e).1 :=
  ⟨_, call_ran target recvbuffer e, fun entry mem => by rwa [List.mem_singleton.1 mem]⟩

theorem firstTimeInfo_adds {kind : List Byte → Prop} {recvBuffer : List Byte} (own : kind recvBuffer)
    (s : State (Effects σ)) : Adds kind s.files (firstTimeInfo beside handlers.call recvBuffer s).2.files := by
  rw [firstTimeInfo]
  cases pfun beside ((commandID (firstTime s.commandId) : Int).tmod 100) with
  | none => split_ifs <;> exact .refl s.files
  | some target => split_ifs <;> exact call_adds own target s.files

theorem perform_adds {kind : List Byte → Prop} {recvBuffer : List Byte} (own : kind recvBuffer)
    (received : Option (List Byte)) (cmdId : Int) (s : State (Effects σ)) :
    Adds kind s.files (perform beside handlers.call received cmdId recvBuffer s).after.files := by
  rw [perform]
  dsimp only
  split_ifs with packaged again
  · exact firstTimeInfo_adds own _
  · exact firstTimeInfo_adds own _
  · cases pfun beside (cmdId.tmod 100) with
    | none => exact .refl s.files
    | some target => exact call_adds own target s.files

theorem nextMessage_head (s : State σ) : (nextMessage ecuId s).head? = some letterA := by
  rw [nextMessage, str_ofList]
  rfl

/-- A round for which no message comes: it waited, or it has its own. -/
theorem round_unasked {s : State (Effects σ)} {arrival : Arrival}
    (unasked : (round ecuId beside handlers.call s arrival).received = none) :
    s.nextCmdId ≤ 0 ∧ round ecuId beside handlers.call s arrival = ⟨none, [], [], s, s, true⟩ ∨
      0 < s.nextCmdId ∧ round ecuId beside handlers.call s arrival =
        perform beside handlers.call none s.nextCmdId (nextMessage ecuId s) { s with nextCmdId := 0 } := by
  rw [Socket.round] at unasked ⊢
  split_ifs at unasked ⊢ with waits
  · cases arrived : receiveMessage s.recvBuffer arrival with
    | none => exact .inl ⟨waits, rfl⟩
    | some recvBuffer =>
      rw [arrived] at unasked
      dsimp only at unasked
      split_ifs at unasked
      rw [perform_received] at unasked
      cases unasked
  · exact .inr ⟨Int.not_le.1 waits, rfl⟩

theorem round_adds {s : State (Effects σ)} {arrival : Arrival}
    (unasked : (round ecuId beside handlers.call s arrival).received = none) :
    Adds (fun message => message.head? = some letterA) s.files
      (round ecuId beside handlers.call s arrival).after.files := by
  have letter : (nextMessage ecuId s).head? = some letterA := nextMessage_head s
  rcases round_unasked unasked with ⟨-, same⟩ | ⟨-, same⟩
  · rw [same]
    exact .refl s.files
  · rw [same]
    exact @perform_adds σ beside handlers (fun message => message.head? = some letterA) _ letter none s.nextCmdId
      { s with nextCmdId := 0 }

theorem rounds_add {s : State (Effects σ)} {arrivals : List Arrival} :
    ∀ r ∈ (communicationWithEMA ecuId beside handlers.call s arrivals).takeWhile fun r => r.received.isNone,
      Adds (fun message => message.head? = some letterA) s.files r.after.files := by
  induction arrivals generalizing s with
  | nil => exact fun r mem => absurd mem List.not_mem_nil
  | cons arrival arrivals ih =>
    intro r mem
    rw [communicationWithEMA] at mem
    rw [List.takeWhile_cons] at mem
    split_ifs at mem with unasked returns
    · rw [List.takeWhile_nil, List.mem_singleton] at mem
      rw [mem]
      exact round_adds (Option.isNone_iff_eq_none.1 unasked)
    · rcases List.mem_cons.1 mem with rfl | later
      · exact round_adds (Option.isNone_iff_eq_none.1 unasked)
      · exact (round_adds (Option.isNone_iff_eq_none.1 unasked)).trans (ih r later)
    · exact absurd mem List.not_mem_nil

/-- A round that waits and gets nothing is the last one. -/
theorem rounds_waiting {s : State (Effects σ)} (waits : s.nextCmdId ≤ 0) (arrivals : List Arrival) :
    ∀ r ∈ (communicationWithEMA ecuId beside handlers.call s arrivals).takeWhile fun r => r.received.isNone,
      r.after.files = s.files := by
  intro r mem
  cases arrivals with
  | nil => exact absurd mem List.not_mem_nil
  | cons arrival arrivals =>
    rw [communicationWithEMA, List.takeWhile_cons] at mem
    split_ifs at mem with unasked returns
    · rcases round_unasked (Option.isNone_iff_eq_none.1 unasked) with ⟨-, same⟩ | ⟨asks, -⟩
      · rw [List.takeWhile_nil, List.mem_singleton] at mem
        rw [mem, same]
      · exact absurd waits (Int.not_le.2 asks)
    · rcases round_unasked (Option.isNone_iff_eq_none.1 unasked) with ⟨-, same⟩ | ⟨asks, -⟩
      · exact absurd (congrArg Round.returns same) returns
      · exact absurd waits (Int.not_le.2 asks)
    · exact absurd mem List.not_mem_nil

/-! ## The message by itself -/

/-- What is done before the next message comes is done in the first round or after it. -/
theorem directEffects_cases (s : State (Effects σ)) (arrival : Arrival) (arrivals : List Arrival) :
    directEffects ecuId beside handlers s (arrival :: arrivals) =
      (round ecuId beside handlers.call s arrival).after.files ∨
      ∃ r ∈ (communicationWithEMA ecuId beside handlers.call (round ecuId beside handlers.call s arrival).after
        arrivals).takeWhile fun r => r.received.isNone,
        directEffects ecuId beside handlers s (arrival :: arrivals) = r.after.files := by
  rw [directEffects, communicationWithEMA, untilNext]
  split_ifs with returns
  · exact .inl rfl
  · cases last : ((communicationWithEMA ecuId beside handlers.call (round ecuId beside handlers.call s arrival).after
        arrivals).takeWhile fun r => r.received.isNone).getLast? with
    | none =>
      rw [List.getLast?_eq_none_iff.1 last]
      exact .inl rfl
    | some r =>
      rw [List.getLast?_cons, last]
      exact .inr ⟨r, List.mem_of_getLast? last, rfl⟩

theorem directEffects_silent {s : State (Effects σ)} {arrival : Arrival}
    (waits : (round ecuId beside handlers.call s arrival).after.nextCmdId ≤ 0) (arrivals : List Arrival) :
    directEffects ecuId beside handlers s (arrival :: arrivals) =
      (round ecuId beside handlers.call s arrival).after.files := by
  rcases directEffects_cases s arrival arrivals with first | ⟨r, mem, last⟩
  · exact first
  · rw [last]
    exact rounds_waiting waits arrivals r mem

theorem directEffects_adds (s : State (Effects σ)) (arrival : Arrival) (arrivals : List Arrival) :
    Adds (fun message => message.head? = some letterA) (round ecuId beside handlers.call s arrival).after.files
      (directEffects ecuId beside handlers s (arrival :: arrivals)) := by
  rcases directEffects_cases s arrival arrivals with first | ⟨r, mem, last⟩
  · rw [first]
    exact .refl _
  · rw [last]
    exact rounds_add r mem

section Compare

variable {recvBuffer taken : List Byte} {s : State (Effects σ)} {arrival : Arrival}
  (attached : attachedCommand recvBuffer = some taken) (accepted : msgFormatCheck ecuId (taken ++ [nul]) = 0)
  (waits : s.nextCmdId ≤ 0) (arrived : receiveMessage s.recvBuffer arrival = some (taken ++ [nul]))

include attached accepted in
theorem carryAttached_eq (e : Effects σ) :
    carryAttached ecuId beside handlers recvBuffer e = carryOut beside handlers recvBuffer (taken ++ [nul]) e := by
  rw [carryAttached, attached]
  dsimp only
  rw [if_neg (by omega)]

include accepted waits arrived in
theorem round_arrived : round ecuId beside handlers.call s arrival =
    perform beside handlers.call (some (taken ++ [nul])) (msgCmdId (taken ++ [nul])) (taken ++ [nul]) s := by
  rw [Socket.round, if_pos waits, arrived]
  dsimp only
  rw [if_neg (by omega)]

include attached accepted waits arrived in
/-- Without a function nothing is done on either way. -/
theorem effects_none (other : msgCmdId (taken ++ [nul]) ≠ 118)
    (unknown : pfun beside ((msgCmdId (taken ++ [nul])).tmod 100) = none) (arrivals : List Arrival) :
    (carryAttached ecuId beside handlers recvBuffer s.files).effects =
      directEffects ecuId beside handlers s (arrival :: arrivals) := by
  have first : round ecuId beside handlers.call s arrival = _ := round_arrived accepted waits arrived
  rw [perform, if_neg other, unknown] at first
  have quiet : (round ecuId beside handlers.call s arrival).after.nextCmdId ≤ 0 := by
    rw [first]
    exact waits
  rw [directEffects_silent quiet, first, carryAttached_eq attached accepted, carryOut, if_neg other, unknown]

include attached accepted waits arrived in
/-- With one they differ in what follows. -/
theorem effects_some_iff (other : msgCmdId (taken ++ [nul]) ≠ 118) {target : Socket.Target}
    (known : pfun beside ((msgCmdId (taken ++ [nul])).tmod 100) = some target) (arrivals : List Arrival) :
    (carryAttached ecuId beside handlers recvBuffer s.files).effects =
        directEffects ecuId beside handlers s (arrival :: arrivals) ↔
      ¬ ReportFollows handlers (taken ++ [nul]) s.files.files target := by
  have first : round ecuId beside handlers.call s arrival = _ := round_arrived accepted waits arrived
  rw [perform, if_neg other, known] at first
  have files : (round ecuId beside handlers.call s arrival).after.files =
      (handlers.call target (taken ++ [nul]) s.files).1 := by rw [first]
  rw [carryAttached_eq attached accepted, carryOut, if_neg other, known, ← call_follows_iff]
  dsimp only
  split_ifs with follows
  · refine iff_of_false (fun same => ?_) (not_not.2 follows)
    obtain ⟨entry, ran, cleared⟩ := @carryNext_ran σ beside handlers (taken ++ [nul])
      (handlers.call target (taken ++ [nul]) s.files).2 (handlers.call target (taken ++ [nul]) s.files).1
    obtain ⟨more, added, letters⟩ := @directEffects_adds σ ecuId beside handlers s arrival arrivals
    rw [← same, ran, files] at added
    have mem : entry ∈ more := by
      rw [← List.append_cancel_left added]
      exact List.mem_singleton_self entry
    have letter : entry.2.head? = some letterA := letters entry mem
    rw [cleared] at letter
    exact absurd letter (by decide)
  · have quiet : (round ecuId beside handlers.call s arrival).after.nextCmdId ≤ 0 := by
      rw [first]
      exact Int.not_lt.1 follows
    rw [directEffects_silent quiet, files]
    exact iff_of_true rfl follows

/-- **Commands behind an answer**: one has the effect it has by itself exactly when no report follows it, and A118 is
acknowledged with its own time exactly when the answer has that at its 72nd place. -/
theorem asDirect_iff (attached : attachedCommand recvBuffer = some taken)
    (accepted : msgFormatCheck ecuId (taken ++ [nul]) = 0) (waits : s.nextCmdId ≤ 0)
    (arrived : receiveMessage s.recvBuffer arrival = some (taken ++ [nul])) (arrivals : List Arrival) :
    AsDirect ecuId beside handlers recvBuffer (taken ++ [nul]) s (arrival :: arrivals) ↔
      (msgCmdId (taken ++ [nul]) ≠ 118 → ¬ Follows beside handlers (taken ++ [nul]) s.files.files) ∧
      (msgCmdId (taken ++ [nul]) = 118 → OwnTime recvBuffer (taken ++ [nul])) := by
  have effects (other : msgCmdId (taken ++ [nul]) ≠ 118) :
      (carryAttached ecuId beside handlers recvBuffer s.files).effects =
          directEffects ecuId beside handlers s (arrival :: arrivals) ↔
        ¬ Follows beside handlers (taken ++ [nul]) s.files.files := by
    rw [Follows]
    cases known : pfun beside ((msgCmdId (taken ++ [nul])).tmod 100) with
    | none =>
      refine iff_of_true (effects_none attached accepted waits arrived other known arrivals) ?_
      rintro ⟨target, found, -⟩
      cases found
    | some target =>
      rw [effects_some_iff attached accepted waits arrived other known arrivals, not_iff_not]
      constructor
      · exact fun follows => ⟨target, rfl, follows⟩
      · rintro ⟨target, found, follows⟩
        cases found
        exact follows
  have acks (packaged : msgCmdId (taken ++ [nul]) = 118) :
      (carryAttached ecuId beside handlers recvBuffer s.files).acks = [strncpy ((taken ++ [nul]).drop 34) 14] ↔
        OwnTime recvBuffer (taken ++ [nul]) := by
    rw [carryAttached_eq attached accepted, carryOut, if_pos packaged, List.singleton_inj, OwnTime]
  constructor
  · intro direct
    exact ⟨fun other => (effects other).1 (direct.effects other), fun packaged =>
      (acks packaged).1 (direct.acks packaged)⟩
  · rintro ⟨alone, own⟩
    exact ⟨fun other => (effects other).2 (alone other), fun packaged => (acks packaged).2 (own packaged)⟩

/-- Behind one time the 72nd place of the answer is the 34th of the command. -/
theorem ownTime_of_one (attached : attachedCommand recvBuffer = some taken) (one : ackCount recvBuffer = 1)
    (long : 72 ≤ strlen recvBuffer) : OwnTime recvBuffer (taken ++ [nul]) := by
  rw [attachedCommand, one] at attached
  have start : unsigned (24 + 14 * 1) = 38 := by decide
  rw [start] at attached
  rw [if_pos (by omega), Option.some_inj] at attached
  have text : taken = (cstr recvBuffer).drop 38 := by
    obtain ⟨tail, whole, -⟩ := cstr_append_tail recvBuffer
    have behind : recvBuffer.drop 38 = (cstr recvBuffer).drop 38 ++ tail := by
      conv_lhs => rw [whole]
      rw [strlen] at long
      exact List.drop_append_of_le_length (by omega)
    rw [← attached, behind, List.take_left' (by rw [List.length_drop, strlen])]
  have clean : Clean taken := by
    rw [text]
    exact fun b mem => clean_cstr recvBuffer b (List.mem_of_mem_drop mem)
  have same : cstr (recvBuffer.drop 72) = cstr ((taken ++ [nul]).drop 34) := by
    have length : 34 ≤ taken.length := by
      rw [text, List.length_drop]
      rw [strlen] at long
      omega
    have rest : Clean (taken.drop 34) := fun b mem => clean b (List.mem_of_mem_drop mem)
    have ends : cstr [nul] = [] := rfl
    rw [cstr_drop long, List.drop_append_of_le_length length, rest.cstr_append, text, List.drop_drop, ends,
      List.append_nil]
  rw [OwnTime, strncpy, strncpy, strlen, strlen, same]

end Compare

/-! ## Samples -/

/-- The functions do nothing. -/
def idle : Handlers Unit :=
  ⟨fun _ _ _ => ((), []), fun _ _ _ => ((), []), fun _ _ _ => ((), [], 0)⟩

def atStart (commandId : Fin 6) : State (Effects Unit) :=
  ⟨⟨(), [], []⟩, commandId, 0, List.replicate 14 (digit 0), []⟩

def packaged : List Byte :=
  str "APS1300051A101AAA0203000000001A11820170601080000END"

def setId : List Byte :=
  str "APS1300051A103AAA0203000000001100020170601080000END"

theorem arrives (message : List Byte) :
    receiveMessage (atStart 0).recvBuffer (.wifi (some message)) = some (message ++ [nul]) := by
  simp [receiveMessage, memcpy, atStart]

/-- A118 behind one time. -/
theorem asDirect_sample : AsDirect (str "203000000001") (fun _ => none) idle
    (str "APS1300089A123AAA010120170601080000END" ++ packaged) (packaged ++ [nul]) (atStart 0)
      [.wifi (some packaged)] :=
  (asDirect_iff (by decide +kernel) (by decide +kernel) (by decide) (arrives packaged) []).2
    ⟨fun other => absurd (by decide +kernel) other, fun _ => by
      rw [OwnTime]
      decide +kernel⟩

/-- A103 behind an answer: A102 is asked for with a message that is cleared in front. -/
theorem report_uncarried : ¬ ∀ (ecuId recvBuffer taken : List Byte) (handlers : Handlers Unit)
    (s : State (Effects Unit))
    (arrival : Arrival) (arrivals : List Arrival), attachedCommand recvBuffer = some taken →
      msgFormatCheck ecuId (taken ++ [nul]) = 0 → s.nextCmdId ≤ 0 →
      receiveMessage s.recvBuffer arrival = some (taken ++ [nul]) →
      AsDirect ecuId (fun _ => none) handlers recvBuffer (taken ++ [nul]) s (arrival :: arrivals) := by
  intro always
  have attached : attachedCommand (str "APS1300075A123AAA0000END" ++ setId) = some setId := by decide +kernel
  have accepted : msgFormatCheck (str "203000000001") (setId ++ [nul]) = 0 := by decide +kernel
  have other : msgCmdId (setId ++ [nul]) ≠ 118 := by decide +kernel
  have known : pfun (fun _ => none) ((msgCmdId (setId ++ [nul])).tmod 100) = some (.function .setInverterId) := by
    decide +kernel
  have direct := always _ _ setId idle (atStart 0) (.wifi (some setId)) [] attached accepted (le_refl 0) (arrives setId)
  exact (effects_some_iff attached accepted (le_refl 0) (arrives setId) other known []).1
    (direct.effects other) (.inl rfl)

end Ecu.Forward
