import Ecu.Rows

/-!
# The commands of the EMA (`control_client.c`)

`pfun` has an entry for each command the ECU knows, at its number modulo 100. `communication_with_EMA` takes a message
from the wire or from the WiFi module, checks it and calls the entry of its command; A118 stands for six commands, one
for each round. What a function does is not looked into: it changes the files and gives the next command or 0.
-/

namespace Ecu.Socket

/-! ## The table -/

/-- The functions that `add_functions` registers. -/
inductive Function where
  | responseInverterId | setInverterId | responseCommConfig | setCommConfig | customCommand
  | setInverterMaxpower | setInverterOnoff | clearInverterGfdi | responseInverterMaxpower | setEcuFlag
  | readInverterIrd | setInverterIrd | responseEcuAcProtection17 | readInverterAcProtection17
  | setInverterAcProtection17 | setInverterUpdate | responseInverterPowerFactor | setAllInverterPowerFactor
deriving DecidableEq

/-- `CommandID`: `A100` is 0. -/
def commandID (number : Nat) : Nat :=
  number - 100

/-- `add_functions`: the places that it sets, with the commands they stand for. -/
def addFunctions : List (Nat × Function) :=
  [(102, .responseInverterId), (103, .setInverterId), (106, .responseCommConfig), (107, .setCommConfig),
    (108, .customCommand), (110, .setInverterMaxpower), (111, .setInverterOnoff), (112, .clearInverterGfdi),
    (117, .responseInverterMaxpower), (119, .setEcuFlag), (126, .readInverterIrd), (127, .setInverterIrd),
    (130, .responseEcuAcProtection17), (131, .readInverterAcProtection17), (132, .setInverterAcProtection17),
    (136, .setInverterUpdate), (145, .responseInverterPowerFactor), (146, .setAllInverterPowerFactor)]

/-- The function is registered for this command. -/
def Function.RegisteredFor (f : Function) (number : Int) : Prop :=
  ∃ entry ∈ addFunctions, entry.2 = f ∧ (entry.1 : Int) = number

instance (f : Function) (number : Int) : Decidable (f.RegisteredFor number) :=
  inferInstanceAs (Decidable (∃ entry ∈ addFunctions, _))

/-- Where a call goes: to a function, or to whatever a word beside the table points to. -/
inductive Target where
  | function (f : Function)
  | stray (word : Nat)
deriving DecidableEq

/-- The words of the memory beside `pfun`, a null word as `none`. -/
abbrev Beside := Int → Option Nat

/-- `pfun[i]` -/
def pfun (beside : Beside) (i : Int) : Option Target :=
  if 0 ≤ i ∧ i < 100 then
    (addFunctions.find? fun entry => (commandID entry.1 : Int) = i).map fun entry => .function entry.2
  else (beside i).map .stray

/-- `functions` of `first_time_info`. -/
def firstTime (commandId : Fin 6) : Nat :=
  [102, 106, 117, 126, 130, 131].get commandId

/-! ## A round -/

section Round

variable {σ : Type} (ecuId : List Byte) (beside : Beside)
  /- What a call does: to the files, and the next command. -/
  (call : Target → List Byte → σ → σ × Int)

structure State (σ : Type) where
  files : σ
  /-- `command_id` of `first_time_info`. -/
  commandId : Fin 6
  nextCmdId : Int
  timestamp : List Byte
  recvBuffer : List Byte

/-- What comes: over a connection, or as a packet of socket C if one comes in time. -/
inductive Arrival where
  | tcp (closes : Bool) (arriving : List (List Byte))
  | wifi (packet : Option (List Byte))

/-- `recv_buffer` with a message. -/
def receiveMessage (recvBuffer : List Byte) : Arrival → Option (List Byte)
  | .tcp closes arriving =>
    (recvSocket closes recvBuffer sizeofPointer arriving).bind fun out => if out.1 < 0 then none else some out.2
  | .wifi packet => packet.map fun data => memcpy recvBuffer (data ++ [nul])

/-- One round of `communication_with_EMA`. -/
structure Round (σ : Type) where
  /-- The message that has come. -/
  received : Option (List Byte)
  /-- The places of `pfun` that are looked at. -/
  looked : List Int
  ran : List Target
  before : State σ
  after : State σ
  /-- The function returns. -/
  returns : Bool

/-- `first_time_info` -/
def firstTimeInfo (recvBuffer : List Byte) (s : State σ) : List Target × State σ :=
  let target := pfun beside ((commandID (firstTime s.commandId) : Int).tmod 100)
  let files := (target.map fun t => (call t recvBuffer s.files).1).getD s.files
  let commandId : Nat := s.commandId + 1
  if more : commandId < 6 then
    (target.toList, { s with files := files, commandId := ⟨commandId, more⟩, nextCmdId := 118 })
  else (target.toList, { s with files := files, commandId := 0, nextCmdId := 0 })

/-- The command is carried out. -/
def perform (received : Option (List Byte)) (cmdId : Int) (recvBuffer : List Byte) (s : State σ) : Round σ :=
  let s := { s with recvBuffer := recvBuffer }
  if cmdId = 118 then
    let out := firstTimeInfo beside call recvBuffer { s with timestamp := (recvBuffer.drop 34).take 14 }
    let after := if out.2.nextCmdId = 0 then { out.2 with timestamp := List.replicate 14 (digit 0) } else out.2
    ⟨received, [(commandID (firstTime s.commandId) : Int).tmod 100], out.1, s, after, decide (after.nextCmdId < 0)⟩
  else
    match pfun beside (cmdId.tmod 100) with
    | some target =>
      let out := call target recvBuffer s.files
      ⟨received, [cmdId.tmod 100], [target], s, { s with files := out.1, nextCmdId := out.2 }, decide (out.2 < 0)⟩
    | none => ⟨received, [cmdId.tmod 100], [], s, s, decide (cmdId = 100 ∨ s.nextCmdId < 0)⟩

/-- The message that a next command is given. -/
def nextMessage (s : State σ) : List Byte :=
  (str "APS13AAA51A101AAA0" ++ (cstr ecuId).take 12 ++ str "A" ++ wd 3 s.nextCmdId ++
    (cstr s.timestamp).take 14 ++ str "END").take 51

def round (s : State σ) (arrival : Arrival) : Round σ :=
  if s.nextCmdId ≤ 0 then
    match receiveMessage s.recvBuffer arrival with
    | none => ⟨none, [], [], s, s, true⟩
    | some recvBuffer =>
      if msgFormatCheck ecuId recvBuffer < 0 then
        ⟨some recvBuffer, [], [], s, { s with recvBuffer := recvBuffer }, false⟩
      else perform beside call (some recvBuffer) (msgCmdId recvBuffer) recvBuffer s
  else perform beside call none s.nextCmdId (nextMessage ecuId s) { s with nextCmdId := 0 }

/-- `communication_with_EMA` -/
def communicationWithEMA : State σ → List Arrival → List (Round σ)
  | _, [] => []
  | s, arrival :: arrivals =>
    let first := round ecuId beside call s arrival
    first :: if first.returns then [] else communicationWithEMA first.after arrivals

end Round

/-! ## What runs -/

theorem pfun_inside {beside : Beside} {i : Int} (inside : 0 ≤ i ∧ i < 100) {target : Target}
    (called : pfun beside i = some target) : ∃ f, target = .function f ∧ f.RegisteredFor (100 + i) := by
  rw [pfun, if_pos inside] at called
  obtain ⟨entry, found, rfl⟩ := Option.map_eq_some_iff.1 called
  have mem := List.mem_of_find?_eq_some found
  have place : (commandID entry.1 : Int) = i := of_decide_eq_true
    (List.find?_some (p := fun entry : Nat × Function => (commandID entry.1 : Int) = i) found)
  have above : ∀ entry ∈ addFunctions, 100 ≤ entry.1 := by decide
  have number := above entry mem
  refine ⟨entry.2, rfl, entry, mem, rfl, ?_⟩
  rw [← place, commandID]
  omega

theorem firstTime_inside (commandId : Fin 6) :
    100 ≤ firstTime commandId ∧ firstTime commandId < 200 := by
  revert commandId
  decide

section Law

variable {σ : Type} (ecuId : List Byte) (beside : Beside) (call : Target → List Byte → σ → σ × Int)

/-- A function runs only for its own command, checked; or as the next one of those that A118 stands for. -/
structure Lawful (buffer : List Byte) (r : Round σ) : Prop where
  ran : ∀ target ∈ r.ran, msgFormatCheck ecuId buffer = 0 ∧ ∃ f, target = .function f ∧
    (f.RegisteredFor (msgCmdId buffer) ∨ msgCmdId buffer = 118 ∧ f.RegisteredFor (firstTime r.before.commandId))
  looked : ∀ i ∈ r.looked, 0 ≤ i ∧ i < 100
  kept : r.ran = [] → r.after.files = r.before.files

/-- A number that the table is for. -/
def InTable (number : Int) : Prop :=
  100 ≤ number ∧ number < 200

instance (number : Int) : Decidable (InTable number) :=
  inferInstanceAs (Decidable (_ ∧ _))

theorem InTable.place {number : Int} (inside : InTable number) :
    number.tmod 100 = number - 100 ∧ 0 ≤ number.tmod 100 ∧ number.tmod 100 < 100 := by
  have low := inside.1
  have high := inside.2
  rw [Int.tmod_eq_emod_of_nonneg (by omega)]
  omega

theorem msgFormatCheck_cases (buffer : List Byte) :
    msgFormatCheck ecuId buffer = 0 ∨ msgFormatCheck ecuId buffer < 0 := by
  unfold msgFormatCheck
  split_ifs <;> decide

theorem firstTimeInfo_fst (buffer : List Byte) (s : State σ) : (firstTimeInfo beside call buffer s).1 =
    (pfun beside ((commandID (firstTime s.commandId) : Int).tmod 100)).toList := by
  unfold firstTimeInfo
  by_cases more : (s.commandId : Nat) + 1 < 6
  · simp only [more, ↓reduceDIte]
  · simp only [more, ↓reduceDIte]

theorem firstTimeInfo_ran (buffer : List Byte) (s : State σ) :
    ∀ target ∈ (firstTimeInfo beside call buffer s).1,
      ∃ f, target = .function f ∧ f.RegisteredFor (firstTime s.commandId) := by
  have number := firstTime_inside s.commandId
  have inside : InTable (firstTime s.commandId : Int) := by
    constructor <;> omega
  have place : ((commandID (firstTime s.commandId) : Int)).tmod 100 = firstTime s.commandId - 100 := by
    rw [commandID, Int.tmod_eq_emod_of_nonneg (by omega)]
    omega
  intro target mem
  rw [firstTimeInfo_fst, Option.mem_toList] at mem
  have called : pfun beside ((commandID (firstTime s.commandId) : Int).tmod 100) = some target := mem
  obtain ⟨f, same, registered⟩ := pfun_inside (by rw [place]; omega) called
  refine ⟨f, same, ?_⟩
  rw [place] at registered
  rwa [show (100 : Int) + (firstTime s.commandId - 100) = firstTime s.commandId by omega] at registered

theorem firstTimeInfo_files {buffer : List Byte} {s : State σ}
    (none : (firstTimeInfo beside call buffer s).1 = []) :
    (firstTimeInfo beside call buffer s).2.files = s.files := by
  rw [firstTimeInfo_fst, Option.toList_eq_nil_iff] at none
  unfold firstTimeInfo
  by_cases more : (s.commandId : Nat) + 1 < 6
  · simp only [more, ↓reduceDIte, none, Option.map_none, Option.getD_none]
  · simp only [more, ↓reduceDIte, none, Option.map_none, Option.getD_none]

theorem perform_received (received : Option (List Byte)) (cmdId : Int) (buffer : List Byte) (s : State σ) :
    (perform beside call received cmdId buffer s).received = received := by
  unfold perform
  dsimp only
  by_cases packaged : cmdId = 118
  · rw [if_pos packaged]
  · rw [if_neg packaged]
    cases pfun beside (cmdId.tmod 100) <;> rfl

/-- A checked message whose number is one of the table. -/
theorem perform_lawful {buffer : List Byte} {s : State σ} (passed : msgFormatCheck ecuId buffer = 0)
    (inside : InTable (msgCmdId buffer)) :
    Lawful ecuId buffer (perform beside call (some buffer) (msgCmdId buffer) buffer s) := by
  unfold perform
  dsimp only
  by_cases packaged : msgCmdId buffer = 118
  · have number := firstTime_inside s.commandId
    rw [if_pos packaged]
    refine ⟨?_, ?_, ?_⟩
    · intro target mem
      obtain ⟨f, same, registered⟩ := firstTimeInfo_ran beside call buffer _ target mem
      exact ⟨passed, f, same, .inr ⟨packaged, registered⟩⟩
    · intro i mem
      rw [List.mem_singleton.1 mem, commandID, Int.tmod_eq_emod_of_nonneg (by omega)]
      omega
    · intro none
      have kept := firstTimeInfo_files beside call none
      dsimp only at kept ⊢
      split_ifs <;> exact kept
  · have place := inside.place
    rw [if_neg packaged]
    cases called : pfun beside ((msgCmdId buffer).tmod 100) with
    | none =>
      refine ⟨fun target mem => absurd mem List.not_mem_nil, ?_, fun _ => rfl⟩
      intro i mem
      rw [List.mem_singleton.1 mem]
      exact place.2
    | some target =>
      refine ⟨?_, ?_, fun none => absurd none (List.cons_ne_nil _ _)⟩
      · intro other mem
        obtain ⟨f, same, registered⟩ := pfun_inside place.2 called
        rw [place.1, show 100 + (msgCmdId buffer - 100) = msgCmdId buffer by omega] at registered
        exact ⟨passed, f, (List.mem_singleton.1 mem).trans same, .inl registered⟩
      · intro i mem
        rw [List.mem_singleton.1 mem]
        exact place.2

/-- One round: either no message is waited for, or what comes is refused, or it is carried out. -/
theorem round_lawful {s : State σ} {arrival : Arrival} {buffer : List Byte}
    (received : (round ecuId beside call s arrival).received = some buffer)
    (inside : msgFormatCheck ecuId buffer = 0 → InTable (msgCmdId buffer)) :
    Lawful ecuId buffer (round ecuId beside call s arrival) := by
  unfold round at received ⊢
  by_cases waits : s.nextCmdId ≤ 0
  · rw [if_pos waits] at received ⊢
    cases arrived : receiveMessage s.recvBuffer arrival with
    | none =>
      rw [arrived] at received
      cases received
    | some recvBuffer =>
      rw [arrived] at received
      dsimp only at received ⊢
      rcases msgFormatCheck_cases ecuId recvBuffer with passed | refused
      · rw [if_neg (by omega)] at received ⊢
        rw [perform_received] at received
        obtain rfl := Option.some_inj.1 received
        exact perform_lawful ecuId beside call passed (inside passed)
      · rw [if_pos refused] at received ⊢
        exact ⟨fun _ mem => absurd mem List.not_mem_nil, fun _ mem => absurd mem List.not_mem_nil, fun _ => rfl⟩
  · rw [if_neg waits, perform_received] at received
    cases received

/-- **Dispatch**: in every run of `communication_with_EMA`, over the wire or over WiFi, a message that is not for a
number outside the table runs the function of its command, if it passes the check, and no other. -/
theorem dispatch_lawful (s : State σ) (arrivals : List Arrival) :
    ∀ r ∈ communicationWithEMA ecuId beside call s arrivals, ∀ buffer ∈ r.received,
      (msgFormatCheck ecuId buffer = 0 → InTable (msgCmdId buffer)) → Lawful ecuId buffer r := by
  induction arrivals generalizing s with
  | nil =>
    intro r mem
    exact absurd mem List.not_mem_nil
  | cons arrival arrivals ih =>
    intro r mem buffer received inside
    rcases List.mem_cons.1 mem with rfl | later
    · exact round_lawful ecuId beside call received inside
    · split_ifs at later with returns
      · exact absurd later List.not_mem_nil
      · exact ih _ r later buffer received inside

end Law

/-! ## Samples -/

/-- A message of 51 characters for this command, in the form that asks for a report. -/
def sampleMessage (number : List Byte) : List Byte :=
  str "APS1300051A101AAA0203000000001A" ++ number ++ str "00000000000000END"

/-- The first round for a message over WiFi; a call counts in the files. -/
def sampleRound (number : List Byte) : Round Nat :=
  round (str "203000000001") (fun _ => none) (fun _ _ files => (files + 1, 0)) ⟨0, 0, 0, [], []⟩
    (.wifi (some (sampleMessage number)))

theorem sampleRound_received (number : List Byte) :
    (sampleRound number).received = some (sampleMessage number ++ [nul]) := by
  have arrived : receiveMessage [] (.wifi (some (sampleMessage number))) = some (sampleMessage number ++ [nul]) := by
    simp [receiveMessage, memcpy]
  rw [sampleRound, round, if_pos (le_refl _)]
  dsimp only
  rw [arrived]
  dsimp only
  split_ifs
  · rfl
  · exact perform_received _ _ _ _ _ _

theorem dispatch_sample : Lawful (str "203000000001") (sampleMessage (str "126") ++ [nul]) (sampleRound (str "126")) :=
  dispatch_lawful (str "203000000001") (fun _ => none) (fun _ _ files => (files + 1, 0)) ⟨0, 0, 0, [], []⟩
    [.wifi (some (sampleMessage (str "126")))] _ List.mem_cons_self _ (sampleRound_received (str "126"))
    fun _ => by decide +kernel

/-- Only the function that is registered for the number runs. -/
structure AsRegistered (ecuId buffer : List Byte) (r : Round Nat) : Prop where
  ran : ∀ target ∈ r.ran, msgFormatCheck ecuId buffer = 0 ∧ ∃ f, target = .function f ∧
    f.RegisteredFor (msgCmdId buffer)
  looked : ∀ i ∈ r.looked, 0 ≤ i ∧ i < 100
  kept : r.ran = [] → r.after.files = r.before.files

theorem not_asRegistered {number : List Byte} {f : Function} (ran : (sampleRound number).ran = [.function f])
    (other : ¬ f.RegisteredFor (msgCmdId (sampleMessage number ++ [nul]))) :
    ¬ AsRegistered (str "203000000001") (sampleMessage number ++ [nul]) (sampleRound number) := by
  intro registered
  obtain ⟨-, g, same, own⟩ := registered.ran (.function f) (ran ▸ List.mem_cons_self)
  cases same
  exact other own

/-- A118 runs the function of A102, the number 202 runs it too, and a padded number looks before the table. -/
theorem dispatch_other :
    ¬ AsRegistered (str "203000000001") (sampleMessage (str "118") ++ [nul]) (sampleRound (str "118")) ∧
    ¬ AsRegistered (str "203000000001") (sampleMessage (str "202") ++ [nul]) (sampleRound (str "202")) ∧
    ¬ AsRegistered (str "203000000001") (sampleMessage (str "AAA") ++ [nul]) (sampleRound (str "AAA")) := by
  refine ⟨?_, ?_, ?_⟩
  · apply not_asRegistered (f := .responseInverterId) <;> decide +kernel
  · apply not_asRegistered (f := .responseInverterId) <;> decide +kernel
  · intro registered
    have before : (-1 : Int) ∈ (sampleRound (str "AAA")).looked := by decide +kernel
    exact absurd (registered.looked (-1) before).1 (by decide)

end Ecu.Socket
